import AsmLens.Proofs.Assembly.Operands
import AsmLens.Proofs.Assembly.Scanning
import AsmLens.Proofs.Text.Lines

/-!
# What names are asked for

A scan asks only for the names of the function labels of its file and of the call targets in the
body of the function found. Two namings that agree on these give the same (`scanWith_congr`). All
of these symbols stand on one line of the file (`newline_notMem_of_mem_asked`).
-/

namespace AsmLens

open Text

namespace Fragment

variable {t : Target} {s : Text} {loc : Option Loc} {rename rename' : Text → Text}

/-- An instruction depends on the renaming of its callee alone. -/
theorem instruction?_congr (h : ∀ a, callTarget? t s = some a → rename a = rename' a) :
    instruction? t s loc rename = instruction? t s loc rename' := by
  rw [instruction?, instruction?]
  cases hp : parts? s with
  | none => rfl
  | some p =>
    obtain ⟨m, args⟩ := p
    cases args with
    | nil => simp
    | cons a args =>
      by_cases hc : t.isCall m = true
      · have ha : rename a = rename' a := h a (by rw [callTarget?, hp]; simp [hc])
        simp [ha]
      · simp [hc]

theorem statement?_congr (h : ∀ a, callTarget? t s = some a → rename a = rename' a) :
    statement? t s loc rename = statement? t s loc rename' := by
  rw [statement?, statement?, instruction?_congr h]

/-- The target of a call is part of the fragment. -/
theorem mem_of_mem_callTarget? {a : Text} {c : Char} (h : callTarget? t s = some a) (hc : c ∈ a) :
    c ∈ s := by
  unfold callTarget? at h
  split at h
  · rename_i m a' args hp
    have ha : a' = a := by
      split at h
      · exact Option.some.inj h
      · cases h
    obtain ⟨-, -, -, x, y, rest, -, -, rfl, hargs⟩ := eq_append_of_parts? hp
    have hrest : c ∈ rest := mem_of_mem_operands (hargs ▸ ha ▸ List.mem_cons_self) hc
    simp [hrest]
  · cases h

end Fragment

namespace Body

variable {t : Target} {id : Text} {rename rename' : Text → Text} {lines : List Text}

/-- The symbols a body calls, line by line. -/
theorem mem_callTargets_iff {s : Text} :
    s ∈ callTargets t lines ↔ ∃ l ∈ lines, Fragment.callTarget? t (parts t l).node = some s :=
  List.mem_filterMap

theorem readLine_congr {p : Progress} {offset : Nat} {raw : Text}
    (h : ∀ a, Fragment.callTarget? t (parts t raw).node = some a → rename a = rename' a) :
    readLine t id rename p offset raw = readLine t id rename' p offset raw := by
  by_cases hn : (parts t raw).node = []
  · rw [readLine_of_no_node hn, readLine_of_no_node hn]
  · rw [readLine_of_node hn, readLine_of_node hn, readNode, readNode,
      Fragment.statement?_congr h]

/-- Lines depend on the renaming of the symbols they call. -/
theorem readLines_congr {p : Progress} {offset : Nat}
    (h : ∀ s ∈ callTargets t lines, rename s = rename' s) :
    readLines t id rename p offset lines = readLines t id rename' p offset lines := by
  induction lines generalizing p offset with
  | nil => rfl
  | cons raw lines ih =>
    have hline : ∀ a, Fragment.callTarget? t (parts t raw).node = some a →
        rename a = rename' a := fun a ha =>
      h a (mem_callTargets_iff.2 ⟨raw, List.mem_cons_self, ha⟩)
    have hrest : ∀ s ∈ callTargets t lines, rename s = rename' s := fun s hs => by
      obtain ⟨l, hl, hs⟩ := mem_callTargets_iff.1 hs
      exact h s (mem_callTargets_iff.2 ⟨l, List.mem_cons_of_mem _ hl, hs⟩)
    rw [readLines, readLines, readLine_congr hline]
    refine congrArg _ (funext fun r => ?_)
    obtain ⟨p', ss⟩ := r
    dsimp only
    rw [ih hrest]

/-- A body asks only for the names of its call targets. -/
theorem read_congr (h : ∀ s ∈ callTargets t lines, rename s = rename' s) :
    read t id rename lines = read t id rename' lines := by
  rw [read, read, readLines_congr h]

end Body

namespace Locator

variable {t : Target} {name name' : Text → Text} {path : Text} {ls : List Text}

/-- The search depends on the names of the labels alone. -/
theorem seek_congr (h : ∀ s ∈ ls.filterMap (functionLabel? t), name s = name' s)
    (table : FileTable) : seek t name path table ls = seek t name' path table ls := by
  induction ls generalizing table with
  | nil => rfl
  | cons line ls ih =>
    rw [seek, seek]
    cases hf : functionLabel? t line with
    | none =>
      rw [List.filterMap_cons_none hf] at h
      exact congrArg _ (funext fun table => ih h table)
    | some symbol =>
      rw [List.filterMap_cons_some hf, List.forall_mem_cons] at h
      dsimp only
      rw [h.1, ih h.2]

/-- The lines behind the label that a scan finds are lines of the file. -/
theorem mem_of_seek {names : List Text} {table table' : FileTable} {rest : List Text}
    (h : seek t name path table ls = .ok ⟨names, some (table', rest)⟩) : ∀ l ∈ rest, l ∈ ls := by
  rw [seek_eq] at h
  obtain ⟨_, -, hs⟩ := map_eq_ok.1 h
  obtain ⟨rest', hrest, hpair⟩ := Option.map_eq_some_iff.1 (Sought.mk.inj hs).2
  cases hpair
  exact mem_linesAfter? hrest

/-- The targets of the calls in the body of the function called `path`, if it is there. -/
def bodySymbols (t : Target) (name : Text → Text) (path : Text) (ls : List Text) : List Text :=
  match seek t name path [] ls with
  | .ok ⟨_, some (_, rest)⟩ => Body.callTargets t (bodyLines t rest)
  | _ => []

/-- The symbols that a scan of a text asks for: first its function labels, then those of the
body. -/
def asked (t : Target) (name : Text → Text) (path text : Text) : List Text :=
  (fileLines text).filterMap (functionLabel? t) ++ bodySymbols t name path (fileLines text)

/-- The symbols asked for are those of the body that was found. -/
theorem bodySymbols_of_seek {names : List Text} {table : FileTable} {rest : List Text}
    (h : seek t name path [] ls = .ok ⟨names, some (table, rest)⟩) :
    bodySymbols t name path ls = Body.callTargets t (bodyLines t rest) := by
  rw [bodySymbols, h]

theorem bodySymbols_congr (h : ∀ s ∈ ls.filterMap (functionLabel? t), name s = name' s) :
    bodySymbols t name path ls = bodySymbols t name' path ls := by
  rw [bodySymbols, seek_congr h, bodySymbols]

/-- Namings that agree on the symbols that a scan asks for give the same scan. -/
theorem scanWith_congr {text : Text} (h : ∀ s ∈ asked t name path text, name s = name' s) :
    scanWith t name path (fileLines text) = scanWith t name' path (fileLines text) := by
  rw [asked, List.forall_mem_append] at h
  rw [scanWith, scanWith, ← seek_congr h.1]
  cases hs : seek t name path [] (fileLines text) with
  | error e => rfl
  | ok s =>
    obtain ⟨names, hit⟩ := s
    cases hit with
    | none => rfl
    | some hit =>
      obtain ⟨table, rest⟩ := hit
      rw [bodySymbols_of_seek hs] at h
      rw [ok_bind, ok_bind]
      dsimp only
      rw [complete, complete, Body.read_congr h.2]

/-- No line of a file has a line end in it. -/
theorem newline_notMem_of_mem_fileLines {text l : Text} (h : l ∈ fileLines text) : '\n' ∉ l := by
  obtain ⟨raw, hraw, rfl⟩ := List.mem_map.1 h
  exact fun hn => newline_notMem_of_mem_lines hraw (mem_of_mem_trim hn)

theorem mem_of_mem_functionLabel? {l s : Text} {c : Char} (h : functionLabel? t l = some s)
    (hc : c ∈ s) : c ∈ l := by
  unfold functionLabel? Fragment.labelName? at h
  split at h
  · split at h
    · cases h
      exact (Fragments.node_begins t.commentMarkers l).subset (List.dropLast_subset _ hc)
    · cases h
  · cases h

/-- The symbols asked for stand on one line. -/
theorem newline_notMem_of_mem_asked {text s : Text} (h : s ∈ asked t name path text) :
    '\n' ∉ s := by
  intro hn
  rcases List.mem_append.1 h with h | h
  · obtain ⟨l, hl, hs⟩ := List.mem_filterMap.1 h
    exact newline_notMem_of_mem_fileLines hl (mem_of_mem_functionLabel? hs hn)
  · unfold bodySymbols at h
    split at h
    · rename_i hseek
      obtain ⟨l, hl, hs⟩ := Body.mem_callTargets_iff.1 h
      have hfile := mem_of_seek hseek l (List.takeWhile_subset _ hl)
      have hnode := Fragment.mem_of_mem_callTarget? hs hn
      have hline := (Fragments.node_begins t.commentMarkers (trim l)).subset hnode
      exact newline_notMem_of_mem_fileLines hfile (mem_of_mem_trim hline)
    · cases h

end Locator

end AsmLens
