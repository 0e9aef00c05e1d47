import AsmLens.Proofs.Symbol.Learning
import AsmLens.Proofs.Text.Cutting
import AsmLens.Proofs.Text.Lines

/-!
# Batches and known names do not show

A tool that maps each line of its input (`Maps`) gives every symbol a name of its own (`pureName`),
and so does the demangler that batches the symbols, asks for none twice and matches answers with
symbols by their places. The invariant is `Faithful`: every known name is the one that the symbol
has on its own. A batch keeps it (`Faithful.learn`), and in a faithful demangler every call answers
by the names that the symbols have on their own (`Faithful.run`), whatever was asked before
(`Faithful.runAll`).
-/

namespace AsmLens

open Text

/-- The tool ends well and answers each line of its input with `f` of it. -/
def ToolBehaviour.Maps (behaviour : ToolBehaviour) (f : Text → Text) : Prop :=
  ∀ start input, ∃ diagnostics,
    behaviour start input = .finished 0 (unlines ((lines input).map f)) diagnostics

namespace Demangler

/-- A call on a demangler: for one symbol, or for a batch. -/
inductive Call where
  | one (symbol : Text)
  | many (symbols : List Text)

namespace Call

/-- The symbols that a call asks for. -/
def symbols : Call → List Text
  | one s => [s]
  | many ss => ss

/-- The answers to a call, and the demangler after it. One symbol that is known is answered from
what is known; any other is a batch of its own. -/
def run (d : Demangler) : Call → Except Failure (List Text) × Demangler
  | one s =>
    match d.known.lookup s with
    | some n => (.ok [n], d)
    | none => d.demangle [s]
  | many ss => d.demangle ss

/-- The answers to calls one after another, and the demangler after them. A call that fails leaves
the demangler to the next. -/
def runAll (d : Demangler) : List Call → List (Except Failure (List Text)) × Demangler
  | [] => ([], d)
  | c :: cs =>
    let r := c.run d
    let rs := runAll r.2 cs
    (r.1 :: rs.1, rs.2)

end Call

/-- The name of a symbol on its own, by a tool that maps lines by `f`. -/
def pureName (t : Target) (f : Text → Text) (symbol : Text) : Text :=
  Symbol.stripHash (f (prepare t symbol))

/-- The symbol can be a line of the tool's input, and its answer a line of the output. -/
structure IsAskable (t : Target) (f : Text → Text) (symbol : Text) : Prop where
  line : '\n' ∉ symbol
  answer : IsOneLine (f (prepare t symbol))

/-- The tool maps lines by `f`, and every known name is that of its symbol on its own. -/
structure Faithful (t : Target) (f : Text → Text) (d : Demangler) : Prop where
  target : d.target = t
  tool : ∃ tool, d.program? = some tool
  maps : d.behaviour.Maps f
  known : ∀ symbol n, d.known.lookup symbol = some n → n = pureName t f symbol

variable {t : Target} {f : Text → Text} {d : Demangler} {names : List Text} {symbol : Text}

theorem faithful_new (t : Target) {tool : Text} (ht : tool ≠ []) {behaviour : ToolBehaviour}
    (hm : behaviour.Maps f) : Faithful t f (.new t (some tool) behaviour) where
  target := rfl
  tool := ⟨tool, by simp [program?, new, ht]⟩
  maps := hm
  known _ _ h := by cases h

/-- On Linux a symbol is cut at its first `@PLT` for the tool; elsewhere it is left alone. -/
theorem prepare_cuts (t : Target) (symbol : Text) :
    if t.isLinux then IsCutAt "@PLT".toList symbol (prepare t symbol)
    else prepare t symbol = symbol := by
  split
  · rename_i ht
    rw [prepare, if_pos ht]
    exact isCutAt_before _ _
  · rename_i ht
    rw [prepare, if_neg ht]

theorem prepare_begins (t : Target) (symbol : Text) : prepare t symbol <+: symbol := by
  have h := prepare_cuts t symbol
  split at h
  · exact h.begins
  · exact h.symm ▸ List.prefix_rfl

/-- A prepared symbol has no line end. -/
theorem newline_notMem_prepare (h : '\n' ∉ symbol) : '\n' ∉ prepare t symbol :=
  fun hn => h ((prepare_begins t symbol).subset hn)

namespace Faithful

/-- Asked for prepared symbols, the tool answers each at its place. -/
theorem ask_eq (h : Faithful t f d) (hne : names ≠ []) (hask : ∀ s ∈ names, IsAskable t f s) :
    (d.ask (names.map (prepare d.target))).1 = .ok (names.map fun s => f (prepare t s)) := by
  obtain ⟨tool, htool⟩ := h.tool
  -- The tool cuts its input where the symbols were joined, and its output is cut where it ended
  -- its lines, so there are as many answers as symbols.
  have hlines : lines (toolInput (names.map (prepare t))) = names.map (prepare t) := by
    rw [toolInput, join_newline_eq_unlines (mt List.map_eq_nil_iff.1 hne), lines_unlines]
    intro u hu
    obtain ⟨s, hs, rfl⟩ := List.mem_map.1 hu
    exact newline_notMem_prepare (hask s hs).line
  obtain ⟨diagnostics, hanswer⟩ := h.maps d.starts.length (toolInput (names.map (prepare t)))
  have hout : outputLines (unlines ((names.map (prepare t)).map f)) =
      (names.map (prepare t)).map f := by
    refine outputLines_unlines fun u hu => ?_
    rw [List.map_map] at hu
    obtain ⟨s, hs, rfl⟩ := List.mem_map.1 hu
    exact (hask s hs).answer
  rw [hlines] at hanswer
  simp only [h.target, ask, htool, hanswer, hout]
  simp

/-- A batch adds to each new symbol the name that it has on its own. -/
theorem added_eq (h : Faithful t f d) (hask : ∀ s ∈ names, IsAskable t f s) :
    d.added names = (d.pending names).map fun s => (s, pureName t f s) := by
  have hnew : ∀ s ∈ d.pending names, IsAskable t f s := fun s hs =>
    hask s (mem_pending_iff.1 hs).1
  by_cases hp : d.pending names = []
  · unfold added
    rw [hp]
    split
    · rfl
    · rfl
  · rw [added, h.ask_eq hp hnew]
    dsimp only
    rw [List.map_map, List.zip, List.zipWith_map_right, List.zipWith_self]
    rfl

/-- What a tool that maps lines writes is text, so every batch is learnt. -/
theorem learn_eq (h : Faithful t f d) (names : List Text) :
    d.learn names = (.ok (), (d.learn names).2) := by
  refine Prod.ext ((d.learn_eq_ok_iff names).2 ?_) rfl
  rintro ⟨-, -, hno⟩
  obtain ⟨diagnostics, htext⟩ :=
    h.maps d.starts.length (toolInput ((d.pending names).map (prepare d.target)))
  cases htext.symm.trans hno

theorem learn (h : Faithful t f d) (hask : ∀ s ∈ names, IsAskable t f s) :
    Faithful t f (d.learn names).2 := by
  have he := d.extends_learn names
  refine ⟨he.target.trans h.target, ?_, he.behaviour ▸ h.maps, fun symbol n hn => ?_⟩
  · rw [he.program?]
    exact h.tool
  · rw [known_learn, List.lookup_append, Option.or_eq_some_iff] at hn
    rcases hn with hn | ⟨-, hn⟩
    · exact h.known symbol n hn
    · obtain ⟨before, after, hadded, -⟩ := List.lookup_eq_some_iff.1 hn
      have hmem : (symbol, n) ∈ d.added names := hadded ▸ List.mem_append_right _ List.mem_cons_self
      rw [h.added_eq hask] at hmem
      obtain ⟨s, -, hs⟩ := List.mem_map.1 hmem
      cases hs
      rfl

/-- A known symbol has the name that it has on its own. -/
theorem name_eq (h : Faithful t f d) (hk : d.Knows symbol) : d.name symbol = pureName t f symbol := by
  obtain ⟨n, hn⟩ := Option.isSome_iff_exists.1 hk
  rw [name, hn]
  exact h.known symbol n hn

/-- A call answers by the names that the symbols have on their own. -/
theorem run (h : Faithful t f d) {c : Call} (hask : ∀ s ∈ c.symbols, IsAskable t f s) :
    (c.run d).1 = .ok (c.symbols.map (pureName t f)) ∧ Faithful t f (c.run d).2 := by
  have hbatch : ∀ ss : List Text, (∀ s ∈ ss, IsAskable t f s) →
      (d.demangle ss).1 = .ok (ss.map (pureName t f)) ∧ Faithful t f (d.demangle ss).2 := by
    intro ss hss
    have hlearn := h.learn_eq ss
    rw [demangle_of_learn hlearn]
    exact ⟨congrArg Except.ok (List.map_congr_left fun s hs =>
      (h.learn hss).name_eq (knows_of_mem_learn hlearn hs)), h.learn hss⟩
  cases c with
  | many ss => exact hbatch ss hask
  | one s =>
    rw [Call.run]
    split
    · rename_i n hn
      exact ⟨by rw [h.known s n hn]; rfl, h⟩
    · exact hbatch [s] hask

/-- Calls answer so one after another, whatever came before. -/
theorem runAll (h : Faithful t f d) {cs : List Call}
    (hask : ∀ c ∈ cs, ∀ s ∈ c.symbols, IsAskable t f s) :
    (Call.runAll d cs).1 = cs.map (fun c => .ok (c.symbols.map (pureName t f))) ∧
      Faithful t f (Call.runAll d cs).2 := by
  induction cs generalizing d with
  | nil => exact ⟨rfl, h⟩
  | cons c cs ih =>
    obtain ⟨hfirst, hnext⟩ := h.run (hask c List.mem_cons_self)
    obtain ⟨hrest, hlast⟩ := ih hnext fun c hc => hask c (List.mem_cons_of_mem _ hc)
    exact ⟨List.cons_eq_cons.2 ⟨hfirst, hrest⟩, hlast⟩

end Faithful

end Demangler

end AsmLens
