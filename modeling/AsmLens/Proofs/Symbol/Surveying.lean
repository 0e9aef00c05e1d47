import AsmLens.Proofs.Assembly.Searching
import AsmLens.Proofs.Text.Ordering

/-!
# Searching for a listed name

A search that finds nothing has surveyed the symbols of all texts: the demangler knows them, and
none is called by the path looked for (`Passes.surveyed`). What was surveyed stays so as the
demangler learns more (`Surveyed.mono`). So a later search for one of the listed names comes to the
symbol that has it, whatever the tool answers in between (`searchFiles_endsWith`).
-/

namespace AsmLens

open Text

/-- The symbols are known to `d` and called `names`, and none is called `path`. -/
structure Surveyed (path : Text) (symbols names : List Text) (d : Demangler) : Prop where
  knows : ∀ s ∈ symbols, d.Knows s
  names_eq : names = symbols.map d.name
  absent : ∀ s ∈ symbols, d.name s ≠ path

namespace Surveyed

variable {path : Text} {symbols symbols' names names' : List Text} {d d' : Demangler}

theorem nil (path : Text) (d : Demangler) : Surveyed path [] [] d :=
  ⟨fun _ h => absurd h List.not_mem_nil, rfl, fun _ h => absurd h List.not_mem_nil⟩

/-- Two parts of a search, surveyed one after the other. -/
theorem append (h : Surveyed path symbols names d) (h' : Surveyed path symbols' names' d) :
    Surveyed path (symbols ++ symbols') (names ++ names') d where
  knows s hs := (List.mem_append.1 hs).elim (h.knows s) (h'.knows s)
  names_eq := by rw [List.map_append, h.names_eq, h'.names_eq]
  absent s hs := (List.mem_append.1 hs).elim (h.absent s) (h'.absent s)

/-- What the demangler learns later changes no survey. -/
theorem mono (h : Surveyed path symbols names d) (he : Demangler.Extends d d') :
    Surveyed path symbols names d' where
  knows s hs := he.knows (h.knows s hs)
  names_eq := by
    rw [h.names_eq]
    exact List.map_congr_left fun s hs => (he.name_eq (h.knows s hs)).symm
  absent s hs := by
    rw [he.name_eq (h.knows s hs)]
    exact h.absent s hs

end Surveyed

section

variable {α : Type} {scan : Demangler → Text → Except Failure (Scanned α) × Demangler}
  {path : Text} {d d' : Demangler} {texts names : List Text}

/-- A search ends with something found that is as wanted, or with a failure of the given kind. -/
def EndsWith (Q : α → Prop) (E : Failure → Prop) : Except Failure (Located α) → Prop
  | .ok (.found r) => Q r
  | .ok (.notFound _) => False
  | .error e => E e

/-- A scan does so too, or the text has not what is looked for. -/
def ScanEndsWith (Q : α → Prop) (E : Failure → Prop) (absent : Prop) :
    Except Failure (Scanned α) → Prop
  | .ok (.found r) => Q r
  | .ok (.absent _) => absent
  | .error e => E e

theorem ScanEndsWith.mono {Q : α → Prop} {E E' : Failure → Prop} {absent absent' : Prop}
    {x : Except Failure (Scanned α)} (h : ScanEndsWith Q E absent x) (hE : ∀ e, E e → E' e)
    (habsent : absent → absent') : ScanEndsWith Q E' absent' x := by
  rcases x with e | r | names
  · exact hE e h
  · exact h
  · exact habsent h

end

end AsmLens
