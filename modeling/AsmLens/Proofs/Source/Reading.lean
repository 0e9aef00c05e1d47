import AsmLens.Proofs.Outcome
import AsmLens.Source.Correlation
import Mathlib.Data.List.Basic

/-!
# Reading wanted lines

Lines are read in order, and reading stops with the last that is wanted. What is noted before a
line is told by the file alone (`noted`); one line notes its text (`noteLine_noted`) or is not
wanted (`noted_succ`), and reading stops only when nothing is left to note
(`noted_of_all_before`). So each wanted line has its text in the end, if the file has it
(`noteLines_noted`), and an excerpt is read if the file has all its lines but line 0
(`load_eq_ok_iff`).
-/

namespace AsmLens

open Text

namespace Correlation

/-- The text of a line of a file, lines counted from 1. -/
def lineText (ls : List Text) (l : Int) : Option Text :=
  if 1 ≤ l then ls[(l - 1).toNat]?.map trim else none

/-- The file has a line with this number. -/
def HasLine (ls : List Text) (l : Int) : Prop :=
  1 ≤ l ∧ l ≤ ls.length

/-- The file does not have the line, and should: only line 0 is no line. -/
def lacks (ls : List Text) (l : Int) : Bool :=
  l != 0 && (lineText ls l).isNone

/-- The wanted lines, with text where they stand before a line. -/
def noted (ls : List Text) (number : Int) (keys : List Int) : List (Int × Option Text) :=
  keys.map fun l => (l, if l < number then lineText ls l else none)

/-- How many of the wanted lines stand before a line. -/
def countBefore (number : Int) (keys : List Int) : Nat :=
  keys.countP fun l => decide (1 ≤ l) && decide (l < number)

variable {ls front rest : List Text} {number l : Int} {keys : List Int}

/-- A line has a text if the file has the line. -/
theorem isSome_lineText_iff : (lineText ls l).isSome ↔ HasLine ls l := by
  rw [lineText, HasLine]
  split
  · simp only [Option.isSome_map, isSome_getElem?]
    omega
  · simp [*]

theorem lacks_iff : lacks ls l = true ↔ l ≠ 0 ∧ ¬ HasLine ls l := by
  rw [lacks, Bool.and_eq_true, bne_iff_ne, Option.isNone_iff_eq_none, ← isSome_lineText_iff,
    Option.not_isSome_iff_eq_none]

theorem lineText_eq_of_hasLine (h : HasLine ls l) :
    ∃ raw, ls[(l - 1).toNat]? = some raw ∧ lineText ls l = some (trim raw) := by
  obtain ⟨text, ht⟩ := Option.isSome_iff_exists.1 (isSome_lineText_iff.2 h)
  rw [lineText, if_pos h.1] at ht
  obtain ⟨raw, hraw, rfl⟩ := Option.map_eq_some_iff.1 ht
  exact ⟨raw, hraw, by rw [lineText, if_pos h.1, hraw]; rfl⟩

/-- The line after `front` is the one with the next number. -/
theorem lineText_append_cons {raw : Text} :
    lineText (front ++ raw :: rest) (front.length + 1) = some (trim raw) := by
  rw [lineText, if_pos (by omega)]
  simp

/-! ## One line -/

theorem noted_one : noted ls 1 keys = keys.map fun l => (l, none) := by
  refine List.map_congr_left fun l _ => ?_
  split
  · rw [lineText, if_neg (by omega)]
  · rfl

/-- A line that is not wanted changes nothing. -/
theorem noted_succ (h : number ∉ keys) : noted ls number keys = noted ls (number + 1) keys := by
  refine List.map_congr_left fun l hl => ?_
  have hne : l ≠ number := fun he => h (he ▸ hl)
  have hiff : l < number ↔ l < number + 1 := by omega
  simp only [hiff]

/-- A wanted line gets its text. -/
theorem noteLine_noted {raw : Text} (h : lineText ls number = some (trim raw)) :
    noteLine number (trim raw) (noted ls number keys) = noted ls (number + 1) keys := by
  rw [noteLine, noted, noted, List.map_map]
  refine List.map_congr_left fun l _ => ?_
  dsimp only [Function.comp]
  by_cases he : l = number
  · subst he
    rw [if_pos rfl, if_pos (by omega), h]
  · have hiff : l < number ↔ l < number + 1 := by omega
    simp only [if_neg he, hiff]

/-- A noted line is one of those wanted. -/
theorem any_noted : (noted ls number keys).any (·.1 == l) = true ↔ l ∈ keys := by
  simp [noted]

/-- A wanted line counts once it is read. -/
theorem countBefore_succ (hn : 1 ≤ number) (h : number ∈ keys) :
    countBefore number keys + 1 ≤ countBefore (number + 1) keys := by
  have hsum : countBefore (number + 1) keys = countBefore number keys + keys.count number := by
    clear h
    induction keys with
    | nil => rfl
    | cons k keys ih =>
      simp only [countBefore, List.countP_cons, List.count_cons] at ih ⊢
      rw [ih]
      by_cases hk : k = number
      · subst hk
        have hlt : k < k + 1 := by omega
        simp only [hn, hlt, Int.lt_irrefl, decide_true, decide_false, Bool.and_false, Bool.and_true,
          beq_self_eq_true, if_true, Bool.false_eq_true, if_false]
        omega
      · have hiff : k < number ↔ k < number + 1 := by omega
        simp only [beq_eq_false_iff_ne.2 hk, hiff]
        simp
        omega
  have := List.count_pos_iff.2 h
  omega

/-- When as many lines are read as are wanted, nothing is left to note. -/
theorem noted_of_all_before (h : keys.countP (· != 0) ≤ countBefore number keys) :
    noted ls number keys = keys.map fun l => (l, lineText ls l) := by
  have hsub : (keys.filter fun l => decide (1 ≤ l) && decide (l < number)).Sublist
      (keys.filter (· != 0)) :=
    List.monotone_filter_right _ fun l hl => by
      simp only [Bool.and_eq_true, decide_eq_true_eq] at hl
      simp only [bne_iff_ne, ne_eq]
      omega
  rw [countBefore, List.countP_eq_length_filter, List.countP_eq_length_filter] at h
  have hall := hsub.eq_of_length_le h
  refine List.map_congr_left fun l hl => ?_
  split
  · rfl
  · rename_i hlt
    by_cases hz : l = 0
    · rw [lineText, if_neg (by omega)]
    · have hmem : l ∈ keys.filter (· != 0) := List.mem_filter.2 ⟨hl, by simpa using hz⟩
      rw [← hall] at hmem
      exact absurd (List.mem_filter.1 hmem).2 (by simp [hlt])

/-- Behind the last line everything is noted. -/
theorem noted_of_length_lt (h : ls.length < number) :
    noted ls number keys = keys.map fun l => (l, lineText ls l) := by
  refine List.map_congr_left fun l _ => ?_
  split
  · rfl
  · have hnone : ¬ HasLine ls l := fun hl => absurd hl.2 (by omega)
    rw [← isSome_lineText_iff, Option.not_isSome_iff_eq_none] at hnone
    rw [hnone]

/-! ## The lines of a file -/

/-- Reading on notes every wanted line. The count of lines noted so far may fall short, but never
stops the reading early. -/
theorem noteLines_noted {n : Nat} (hn : n ≤ countBefore (front.length + 1) keys) :
    noteLines (keys.countP (· != 0)) n (front.length + 1)
        (noted (front ++ rest) (front.length + 1) keys) rest =
      keys.map fun l => (l, lineText (front ++ rest) l) := by
  -- By induction on the lines that are left; `front` are those that were read.
  induction rest generalizing front n with
  | nil =>
    rw [noteLines, List.append_nil]
    exact noted_of_length_lt (by omega)
  | cons raw rest ih =>
    have hnext : front ++ raw :: rest = (front ++ [raw]) ++ rest := by simp
    have hlength : ((front ++ [raw]).length : Int) = front.length + 1 := by simp
    rw [noteLines]
    by_cases hkey : (front.length + 1 : Int) ∈ keys
    · have hcount := countBefore_succ (by omega) hkey
      rw [if_pos (any_noted.2 hkey)]
      dsimp only
      rw [noteLine_noted lineText_append_cons]
      split
      · rename_i htotal
        exact noted_of_all_before (by omega)
      · have h := @ih (front ++ [raw]) (n + 1) (by rw [hlength]; omega)
        rwa [hlength, ← hnext] at h
    · rw [if_neg (mt any_noted.1 hkey), noted_succ hkey]
      have hsame : countBefore (front.length + 1) keys ≤ countBefore (front.length + 1 + 1) keys :=
        List.countP_mono_left fun l _ h => by
          simp only [Bool.and_eq_true, decide_eq_true_eq] at h ⊢
          omega
      have h := @ih (front ++ [raw]) n (by rw [hlength]; omega)
      rwa [hlength, ← hnext] at h

/-- Each wanted line has its text in the end, if the file has it. -/
theorem noteLines_eq (ls : List Text) (keys : List Int) :
    noteLines (keys.countP (· != 0)) 0 1 (keys.map fun l => (l, none)) ls =
      keys.map fun l => (l, lineText ls l) := by
  have h := @noteLines_noted [] ls keys 0 (Nat.zero_le _)
  rwa [List.length_nil, List.nil_append, Int.natCast_zero, Int.zero_add, noted_one] at h

/-! ## An excerpt -/

/-- An excerpt that is not read yet. -/
def unread (file : FileEntry) (keys : List Int) : Excerpt :=
  ⟨file, keys.map fun l => (l, none)⟩

variable {fs : FileSystem} {file : FileEntry}

/-- An excerpt is read, or it is told which line is missing. -/
theorem load_unread {text : Text} (h : fs.readText file.path = .ok text) :
    load fs (unread file keys) =
      match keys.find? (lacks (lines text)) with
      | some l => .error (.missingLine file.path l)
      | none => .ok ⟨file, keys.map fun l => (l, lineText (lines text) l)⟩ := by
  have hcount : (unread file keys).lines.countP (·.1 != 0) = keys.countP (· != 0) := by
    rw [unread, List.countP_map]
    rfl
  have hfind : (keys.map fun l => (l, lineText (lines text) l)).find?
        (fun p => p.1 != 0 && p.2.isNone) =
      (keys.find? (lacks (lines text))).map fun l => (l, lineText (lines text) l) :=
    List.find?_map ..
  rw [load]
  dsimp only [unread] at hcount ⊢
  rw [h, ok_bind, hcount, noteLines_eq, hfind]
  cases keys.find? (lacks (lines text)) with
  | none => rfl
  | some l => rfl

/-- An excerpt is loaded if and only if its file is read and has all its lines. -/
theorem load_eq_ok_iff {e : Excerpt} :
    load fs (unread file keys) = .ok e ↔ ∃ text, fs.readText file.path = .ok text ∧
      (∀ l ∈ keys, l ≠ 0 → HasLine (lines text) l) ∧
        e = ⟨file, keys.map fun l => (l, lineText (lines text) l)⟩ := by
  cases hr : fs.readText file.path with
  | error err =>
    rw [load]
    dsimp only [unread]
    rw [hr]
    simp
  | ok text =>
    rw [load_unread hr]
    cases hfind : keys.find? (lacks (lines text)) with
    | some l =>
      have hl := lacks_iff.1 (List.find?_some hfind)
      have hmem := List.mem_of_find?_eq_some hfind
      simp only [reduceCtorEq, false_iff]
      rintro ⟨_, hsame, hall, -⟩
      cases hsame
      exact hl.2 (hall l hmem hl.1)
    | none =>
      have hall : ∀ l ∈ keys, l ≠ 0 → HasLine (lines text) l := fun l hl hz =>
        Classical.not_not.1 fun hn => List.find?_eq_none.1 hfind l hl (lacks_iff.2 ⟨hz, hn⟩)
      constructor
      · intro h
        exact ⟨text, rfl, hall, (Except.ok.inj h).symm⟩
      · rintro ⟨_, hsame, -, he⟩
        cases hsame
        rw [he]

/-- A file that can be read fails only for a wanted line that it does not have. -/
theorem load_error {text : Text} {err : Failure} (hr : fs.readText file.path = .ok text)
    (h : load fs (unread file keys) = .error err) :
    ∃ l ∈ keys, l ≠ 0 ∧ ¬ HasLine (lines text) l ∧ err = .missingLine file.path l := by
  rw [load_unread hr] at h
  split at h
  · rename_i l hfind
    cases h
    obtain ⟨hz, hline⟩ := lacks_iff.1 (List.find?_some hfind)
    exact ⟨l, List.mem_of_find?_eq_some hfind, hz, hline, rfl⟩
  · cases h

end Correlation

end AsmLens
