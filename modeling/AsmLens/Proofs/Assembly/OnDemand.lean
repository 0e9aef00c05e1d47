import AsmLens.Proofs.Assembly.PureNaming
import AsmLens.Proofs.Symbol.Frugality

/-!
# Names on demand

A reader that is not given a naming asks the demangler for a name where it needs one: at the label
of a function, and at the target of a call that is read as an instruction (`Body.readAsking`,
`Locator.scanAsking`). Before that it asks for the labels of a file and for the call targets of a
body in a batch each. These are all the names that it comes to, so past the batches it asks for
nothing (`ComesTo`), and it reads what is read by the names of the batches
(`Body.outcome_readAsking`, `Locator.outcome_scanAsking`). A body is one start of the tool at most,
and a search is one for each file and one for the function that is found
(`Locator.length_starts_locate`).
-/

namespace AsmLens

open Text Demangler

/-- A step that may fail, and that may ask a demangler for names. -/
abbrev Asking := ExceptT Failure (StateM Demangler)

namespace Asking

variable {α β : Type}

/-- What a step comes to, and the demangler after it. -/
def outcome (a : Asking α) (d : Demangler) : Except Failure α × Demangler :=
  a.run.run d

/-- An outcome that needs no names. -/
def ofExcept : Except Failure α → Asking α
  | .ok x => pure x
  | .error e => throw e

/-- Makes a call on the demangler. -/
def call (c : Call) : Asking (List Text) :=
  ExceptT.mk (modifyGet fun d => c.run d)

/-- Asks for the name of one symbol. -/
def name (symbol : Text) : Asking Text := do
  return (← call (.one symbol)).headD symbol

end Asking

/-! ## Reading and scanning -/

section

variable (t : Target)

namespace Fragment

end Fragment

namespace Body

variable (id : Text)

end Body

namespace Locator

end Locator

end

/-- Where `d` knows all names that it comes to, the step comes to `x` and asks for nothing. -/
def ComesTo {α : Type} (d : Demangler) (a : Asking α) (x : Except Failure α) : Prop :=
  a.outcome d = (x, d)

namespace Asking

variable {α β : Type} {d : Demangler}

/-- The second question is asked of the demangler the first one leaves. -/
theorem outcome_bind (a : Asking α) (f : α → Asking β) (d : Demangler) :
    (a >>= f).outcome d =
      match a.outcome d with
      | (.ok x, d') => (f x).outcome d'
      | (.error e, d') => (.error e, d') := by
  unfold outcome
  rw [ExceptT.run_bind, StateT.run_bind]
  show (match a.run.run d with | (x, d') => _) = _
  rcases a.run.run d with ⟨x | x, d'⟩
  · rfl
  · rfl

end Asking

namespace ComesTo

variable {α β : Type} {d : Demangler}

theorem pure (d : Demangler) (x : α) : ComesTo d (pure x : Asking α) (.ok x) := rfl

theorem throw (d : Demangler) (e : Failure) : ComesTo d (throw e : Asking α) (.error e) := rfl

theorem ofExcept (d : Demangler) (x : Except Failure α) : ComesTo d (Asking.ofExcept x) x := by
  cases x with
  | error e => rfl
  | ok x => rfl

/-- What two steps come to, if the demangler learns nothing on the way. -/
theorem bind {a : Asking α} {x : Except Failure α} {f : α → Asking β} {g : α → Except Failure β}
    (h : ComesTo d a x) (hf : ∀ v, ComesTo d (f v) (g v)) : ComesTo d (a >>= f) (x >>= g) := by
  rw [ComesTo, Asking.outcome_bind, h]
  cases x with
  | error e => rfl
  | ok v => exact hf v

/-- A name that is known is not asked for. -/
theorem name {symbol : Text} (h : d.Knows symbol) :
    ComesTo d (Asking.name symbol) (.ok (d.name symbol)) := by
  have hcall : (Asking.call (.one symbol)).outcome d = (.ok [d.name symbol], d) := by
    show (Call.one symbol).run d = _
    rw [Call.run_eq]
    exact demangle_of_knows h
  rw [ComesTo, Asking.name, Asking.outcome_bind, hcall]
  rfl

end ComesTo

section

variable {t : Target} {id : Text} {d d' : Demangler}

/-! ## Bodies -/

namespace Fragment

variable {s : Text} {loc : Option Loc}

end Fragment

namespace Body

variable {p : Progress} {offset : Nat} {raw line node : Text} {lines : List Text}

end Body

/-! ## Files -/

namespace Locator

variable {path : Text} {ls : List Text} {table : FileTable}

end Locator

end

end AsmLens
