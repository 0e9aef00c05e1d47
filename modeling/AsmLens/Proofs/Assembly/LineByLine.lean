import AsmLens.Proofs.Assembly.BodyRun

/-!
# A body line by line

What a body is read as is told line by line: the comment part and then the node part, classified
where the location set last is in force (`LinesGive`). Reading stops at the first line that cannot
be read, and whether a line can be read is told by the function read from the lines before it
(`FailsAt`).

The invariant is `Tracks`: a progress knows the first and the last location of the statements
before it. With it each statement carries the location set last before it, and a first location is
one that no location precedes.
-/

namespace AsmLens

open Text

/-- The line of a body that a failure is about. -/
def Failure.offset? : Failure → Option Nat
  | .unparsed _ offset _ | .locationMismatch _ offset _ _ => some offset
  | _ => none

namespace Body

/-- The location set last by statements. -/
def lastLoc (ss : List Statement) : Option Loc :=
  (ss.filterMap Statement.setLoc?).getLast?

/-- The location set first by statements. -/
def firstLoc (ss : List Statement) : Option Loc :=
  (ss.filterMap Statement.setLoc?).head?

section

variable (t : Target) (rename : Text → Text)

/-- Why the body of `id` fails at line `k`, all lines before it being accepted: its node part is
nothing, or it is the first location and in another file than the one adopted before it. -/
inductive FailsAt (id : Text) (lines : List Text) (k : Nat) : Failure → Prop where
  | unparsed {raw : Text} {g : Function} (line : lines[k]? = some raw)
      (accepted : read t id rename (lines.take k) = .ok g) (nonempty : (parts t raw).node ≠ [])
      (nothing : Fragment.classify t (parts t raw).node (lastLoc g.statements) rename = .ok none) :
      FailsAt id lines k (.unparsed id k (trim raw))
  | mismatch {raw : Text} {g : Function} {l : Loc} {file : FileEntry} (line : lines[k]? = some raw)
      (accepted : read t id rename (lines.take k) = .ok g) (nonempty : (parts t raw).node ≠ [])
      (located : Fragment.classify t (parts t raw).node (lastLoc g.statements) rename =
        .ok (some (.loc l)))
      (first : g.locations = []) (adopted : g.file = some file) (differs : file.index ≠ l.file) :
      FailsAt id lines k (.locationMismatch id k (trim raw) file.index)

end

/-! ## The first and the last location -/

/-- The progress knows the first and the last location of statements. -/
structure Tracks (p : Progress) (ss : List Statement) : Prop where
  current : p.current = lastLoc ss
  loc : p.loc = firstLoc ss

theorem tracks_start : Tracks .start [] :=
  ⟨rfl, rfl⟩

theorem lastLoc_snoc_loc (ss : List Statement) (l : Loc) :
    lastLoc (ss ++ [.loc l]) = some l := by
  simp [lastLoc, Statement.setLoc?]

theorem firstLoc_snoc_loc (ss : List Statement) (l : Loc) :
    firstLoc (ss ++ [.loc l]) = (firstLoc ss).or (some l) := by
  simp [firstLoc, Statement.setLoc?]

theorem filterMap_setLoc?_snoc {s : Statement} (h : s.setLoc? = none) (ss : List Statement) :
    (ss ++ [s]).filterMap Statement.setLoc? = ss.filterMap Statement.setLoc? := by
  rw [List.filterMap_append, List.filterMap_cons_none h, List.filterMap_nil, List.append_nil]

namespace Progress

variable {p p' : Progress}

@[simp] theorem current_adopt (p : Progress) (f : FileEntry) : (p.adopt f).current = p.current := by
  rw [adopt]
  split <;> rfl

@[simp] theorem loc_adopt (p : Progress) (f : FileEntry) : (p.adopt f).loc = p.loc := by
  rw [adopt]
  split <;> rfl

/-- The locations after one more. -/
theorem locs_of_locate {l : Loc} (h : p.locate l = .ok p') :
    p'.current = some l ∧ p'.loc = p.loc.or (some l) := by
  unfold locate at h
  split at h
  · rename_i own hown
    cases h
    exact ⟨rfl, by rw [hown]; rfl⟩
  · rename_i hown hfile
    cases h
    exact ⟨rfl, by rw [hown]; rfl⟩
  · rename_i hown hfile
    split at h
    · cases h
      exact ⟨rfl, by rw [hown]; rfl⟩
    · cases h

/-- A statement is refused if and only if it is the first location and not in the adopted file. -/
theorem accept_eq_error_iff {s : Statement} {index : Int} :
    p.accept s = .error index ↔ ∃ l f, s = .loc l ∧ p.loc = none ∧ p.file = some f ∧
      f.index ≠ l.file ∧ index = f.index := by
  constructor
  · intro h
    cases s with
    | loc l =>
      have h : p.locate l = .error index := h
      unfold locate at h
      split at h
      · cases h
      · cases h
      · rename_i f hloc hfile
        split at h
        · cases h
        · rename_i hne
          cases h
          exact ⟨l, f, rfl, hloc, hfile, hne, rfl⟩
    | label | file | directive | instruction | comment => cases h
  · rintro ⟨l, f, rfl, hloc, hfile, hne, rfl⟩
    show p.locate l = _
    simp only [locate, hloc, hfile, if_neg hne]

end Progress

namespace Tracks

variable {p p' : Progress} {ss ss' : List Statement} {s : Statement}

theorem snoc (h : Tracks p ss) (ha : p.accept s = .ok p') : Tracks p' (ss ++ [s]) := by
  cases s with
  | loc l =>
    obtain ⟨hc, hl⟩ := Progress.locs_of_locate ha
    exact ⟨by rw [hc, lastLoc_snoc_loc], by rw [hl, h.loc, firstLoc_snoc_loc]⟩
  | file f =>
    cases ha
    refine ⟨?_, ?_⟩
    · rw [Progress.current_adopt, h.current, lastLoc, lastLoc, filterMap_setLoc?_snoc rfl]
    · rw [Progress.loc_adopt, h.loc, firstLoc, firstLoc, filterMap_setLoc?_snoc rfl]
  | label | directive | instruction | comment =>
    cases ha
    refine ⟨?_, ?_⟩
    · rw [h.current, lastLoc, lastLoc, filterMap_setLoc?_snoc rfl]
    · rw [h.loc, firstLoc, firstLoc, filterMap_setLoc?_snoc rfl]

end Tracks

/-- A run keeps track of the locations. -/
theorem Reads.tracks {p p' : Progress} {ss ss' : List Statement} (h : Reads p ss' p')
    (ht : Tracks p ss) : Tracks p' (ss ++ ss') := by
  induction h generalizing ss with
  | nil => simpa using ht
  | cons _ accepts _ ih =>
    have := ih (ht.snoc accepts)
    rwa [List.append_assoc, List.singleton_append] at this

/-- Every statement of a run carries the location set last before it. -/
theorem Reads.carries {p p' : Progress} {ss pre post : List Statement} {s : Statement}
    (h : Reads p (pre ++ s :: post) p') (ht : Tracks p ss) : s.Carries (lastLoc (ss ++ pre)) := by
  induction pre generalizing p ss with
  | nil =>
    cases h with
    | cons carries _ _ =>
      rw [List.append_nil, ← ht.current]
      exact carries
  | cons s' pre ih =>
    cases h with
    | cons _ accepts rest =>
      have := ih rest (ht.snoc accepts)
      rwa [List.append_assoc, List.singleton_append] at this

section

variable {t : Target} {id : Text} {rename : Text → Text} {p p' : Progress} {offset : Nat}
  {raw : Text} {lines : List Text}

/-- The progress behind some lines tells of their statements. -/
theorem tracks_of_readLines {ss : List Statement}
    (h : readLines t id rename .start 0 lines = .ok (p, ss)) : Tracks p ss :=
  (reads_of_readLines h).tracks tracks_start

/-- The function's location is the first one of its body. -/
theorem loc_of_read {f : Function} (h : read t id rename lines = .ok f) :
    f.loc = f.locations.head? := by
  obtain ⟨p, ss, hr, rfl⟩ := read_eq_ok_iff.1 h
  exact (tracks_of_readLines hr).loc

/-! ## Accepted lines -/

/-- Only the node of a line can fail. -/
theorem readLine_eq_error_iff {e : Failure} :
    readLine t id rename p offset raw = .error e ↔
      (parts t raw).node ≠ [] ∧
        readNode t id rename p offset (trim raw) (parts t raw).node = .error e := by
  by_cases hn : (parts t raw).node = []
  · rw [readLine_of_no_node hn]
    simp [hn]
  · rw [readLine_of_node hn, bind_eq_error]
    simp [hn]

/-- Reading fails at the first line, or behind it. -/
theorem readLines_cons_eq_error {e : Failure} :
    readLines t id rename p offset (raw :: lines) = .error e ↔
      readLine t id rename p offset raw = .error e ∨
        ∃ q ss, readLine t id rename p offset raw = .ok (q, ss) ∧
          readLines t id rename q (offset + 1) lines = .error e := by
  rw [readLines, bind_eq_error]
  refine or_congr_right ⟨?_, ?_⟩
  · rintro ⟨⟨q, ss⟩, h, he⟩
    rcases bind_eq_error.1 he with he | ⟨_, -, he⟩
    · exact ⟨q, ss, h, he⟩
    · cases he
  · rintro ⟨q, ss, h, he⟩
    refine ⟨(q, ss), h, ?_⟩
    simp [he]

/-- Lines fail as the first of them that does. -/
theorem readLines_eq_error_iff {e : Failure} :
    readLines t id rename p offset lines = .error e ↔
      ∃ before raw after q ss, lines = before ++ raw :: after ∧
        readLines t id rename p offset before = .ok (q, ss) ∧
          readLine t id rename q (offset + before.length) raw = .error e := by
  induction lines generalizing p offset with
  | nil =>
    constructor
    · intro h
      cases h
    · rintro ⟨before, raw, after, q, ss, h, -⟩
      simp at h
  | cons raw lines ih =>
    rw [readLines_cons_eq_error]
    constructor
    · rintro (h | ⟨q, ss, h, he⟩)
      · exact ⟨[], raw, lines, p, [], rfl, rfl, h⟩
      · obtain ⟨before, raw', after, q', ss', rfl, hb, he⟩ := ih.1 he
        refine ⟨raw :: before, raw', after, q', ss ++ ss', rfl,
          readLines_cons_eq_ok.2 ⟨q, ss, ss', h, hb, rfl⟩, ?_⟩
        rwa [List.length_cons, ← Nat.add_assoc, Nat.add_right_comm]
    · rintro ⟨before, raw', after, q, ss, h, hb, he⟩
      cases before with
      | nil =>
        cases hb
        cases h
        exact .inl he
      | cons first before =>
        cases h
        obtain ⟨q', ss₁, ss₂, h₁, h₂, -⟩ := readLines_cons_eq_ok.1 hb
        refine .inr ⟨q', ss₁, h₁, ih.2 ⟨before, raw', after, q, ss₂, rfl, h₂, ?_⟩⟩
        rwa [List.length_cons, ← Nat.add_assoc, Nat.add_right_comm] at he

theorem read_eq_error_iff {e : Failure} :
    read t id rename lines = .error e ↔ readLines t id rename .start 0 lines = .error e := by
  rw [read, bind_eq_error]
  constructor
  · rintro (h | ⟨_, -, h⟩)
    · exact h
    · cases h
  · exact .inl

/-- A body fails as the node part of its first line that does. -/
theorem read_fails_iff {e : Failure} :
    read t id rename lines = .error e ↔
      ∃ k raw p ss, lines[k]? = some raw ∧
        readLines t id rename .start 0 (lines.take k) = .ok (p, ss) ∧ (parts t raw).node ≠ [] ∧
          readNode t id rename p k (trim raw) (parts t raw).node = .error e := by
  rw [read_eq_error_iff, readLines_eq_error_iff]
  constructor
  · rintro ⟨before, raw, after, p, ss, rfl, hb, he⟩
    obtain ⟨hn, he⟩ := readLine_eq_error_iff.1 he
    rw [Nat.zero_add] at he
    exact ⟨before.length, raw, p, ss, by simp, by rwa [List.take_left], hn, he⟩
  · rintro ⟨k, raw, p, ss, hraw, hp, hn, he⟩
    obtain ⟨hk, rfl⟩ := List.getElem?_eq_some_iff.1 hraw
    refine ⟨lines.take k, lines[k], lines.drop (k + 1), p, ss, ?_, hp, ?_⟩
    · rw [List.getElem_cons_drop, List.take_append_drop]
    · rw [List.length_take_of_le (Nat.le_of_lt hk), Nat.zero_add]
      exact readLine_eq_error_iff.2 ⟨hn, he⟩

/-- The node of a line is no comment. -/
theorem opensComment_node (hn : (parts t raw).node ≠ []) :
    Fragment.opensComment t (parts t raw).node = false :=
  Fragment.opensComment_of_unmarked (Fragments.unmarked_node _ _) hn

/-- The failures about a line are those of the first line that is not accepted. -/
theorem read_fails_at_iff {e : Failure} {k : Nat} :
    read t id rename lines = .error e ∧ e.offset? = some k ↔ FailsAt t rename id lines k e := by
  rw [read_fails_iff]
  constructor
  · rintro ⟨⟨k', raw, p, ss, hraw, hp, hn, he⟩, hk⟩
    have ht := tracks_of_readLines hp
    have hg : read t id rename (lines.take k') = .ok ⟨id, p.file, p.loc, ss⟩ :=
      read_eq_ok_iff.2 ⟨p, ss, hp, rfl⟩
    rcases readNode_eq_error_iff.1 he with hc | ⟨hs, rfl⟩ | ⟨s, index, hc, ha, rfl⟩
    · rw [Fragment.eq_notNumber_of_file? (Fragment.file?_of_classify_error hc)] at hk
      cases hk
    · cases hk
      rw [Fragment.statement?_eq_none_iff (opensComment_node hn), ht.current] at hs
      exact .unparsed hraw hg hn hs
    · cases hk
      obtain ⟨l, f, rfl, hl, hf, hne, rfl⟩ := Progress.accept_eq_error_iff.1 ha
      rw [ht.current] at hc
      exact .mismatch hraw hg hn hc (List.head?_eq_none_iff.1 (ht.loc.symm.trans hl)) hf hne
  · intro h
    cases h with
    | unparsed hraw hg hn hc =>
      obtain ⟨p, ss, hp, rfl⟩ := read_eq_ok_iff.1 hg
      have ht := tracks_of_readLines hp
      rw [← ht.current, ← Fragment.statement?_eq_none_iff (opensComment_node hn)] at hc
      exact ⟨⟨k, _, p, ss, hraw, hp, hn, readNode_eq_error_iff.2 (.inr (.inl ⟨hc, rfl⟩))⟩, rfl⟩
    | mismatch hraw hg hn hc hfirst hfile hne =>
      obtain ⟨p, ss, hp, rfl⟩ := read_eq_ok_iff.1 hg
      have ht := tracks_of_readLines hp
      rw [← ht.current] at hc
      have hl : p.loc = none := ht.loc.trans (List.head?_eq_none_iff.2 hfirst)
      have ha := Progress.accept_eq_error_iff.2 ⟨_, _, rfl, hl, hfile, hne, rfl⟩
      exact ⟨⟨k, _, p, ss, hraw, hp, hn,
        readNode_eq_error_iff.2 (.inr (.inr ⟨_, _, hc, ha, rfl⟩))⟩, rfl⟩

end

end Body

end AsmLens
