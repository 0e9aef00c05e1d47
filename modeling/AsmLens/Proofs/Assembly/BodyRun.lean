import AsmLens.Assembly.Body
import AsmLens.Proofs.Assembly.Classification

/-!
# Reading a body, statement by statement

Reading is a run over statements: each carries the location in force and moves the progress on
(`Progress.accept`, `Reads`). Every line gives a comment, a statement or both (`readLine_cases`), so
a body that is read is such a run (`reads_of_readLines`), and what holds of its progress is shown
for one statement and then for the run. Two bodies are compared line by line (`readLines_map`).

The invariant is `Accounts`: the file and the locations of a progress are among the statements seen
so far, the function's file and location agree, and as long as the file is open no file declared
so far could have been it.
-/

namespace AsmLens

open Text

namespace Body

/-- The progress after a statement; on the first location in another file than the adopted one, the
index of that file. -/
def Progress.accept (p : Progress) : Statement → Except Int Progress
  | .file f => .ok (p.adopt f)
  | .loc l => p.locate l
  | _ => .ok p

/-- Statements that carry the locations in force and move the progress from `p` on. -/
inductive Reads : Progress → List Statement → Progress → Prop where
  | nil {p} : Reads p [] p
  | cons {p p' p'' s ss} (carries : s.Carries p.current) (accepts : p.accept s = .ok p')
      (rest : Reads p' ss p'') : Reads p (s :: ss) p''

/-- Two runs over statements, one behind the other, are one run over both. -/
theorem Reads.append {p p' p'' : Progress} {ss ss' : List Statement} (h : Reads p ss p')
    (h' : Reads p' ss' p'') : Reads p (ss ++ ss') p'' := by
  induction h with
  | nil => exact h'
  | cons carries accepts _ ih => exact .cons carries accepts (ih h')

theorem Reads.single {p p' : Progress} {s : Statement} (carries : s.Carries p.current)
    (accepts : p.accept s = .ok p') : Reads p [s] p' :=
  .cons carries accepts .nil

section

variable {t : Target} {id : Text} {rename : Text → Text} {p p' : Progress} {offset : Nat}
  {line raw node : Text}

/-- A node part is read as the statement it is, if the progress accepts that. -/
theorem readNode_eq : readNode t id rename p offset line node =
    Fragment.statement? t node p.current rename >>= fun st =>
      match st with
      | some s =>
        match p.accept s with
        | .ok q => .ok (q, s)
        | .error index => .error (.locationMismatch id offset line index)
      | none => .error (.unparsed id offset line) := by
  rw [readNode]
  refine congrArg _ (funext fun st => ?_)
  rcases st with _ | ⟨_ | f | l | _ | _ | _⟩
  · rfl
  · rfl
  · rfl
  · have hl : p.accept (.loc l) = p.locate l := rfl
    simp only [hl]
    cases p.locate l <;> rfl
  · rfl
  · rfl
  · rfl

/-- A node part is read as what it is classified as, unless that is a comment. -/
theorem readNode_eq_ok_iff {s : Statement} :
    readNode t id rename p offset line node = .ok (p', s) ↔
      Fragment.classify t node p.current rename = .ok (some s) ∧ (∀ c, s ≠ .comment c)
        ∧ p.accept s = .ok p' := by
  rw [readNode_eq, bind_eq_ok, ← and_assoc, ← Fragment.statement?_eq_some_iff]
  constructor
  · rintro ⟨st, hst, h⟩
    cases st with
    | none => cases h
    | some s' =>
      dsimp only at h
      split at h
      · rename_i q hq
        cases h
        exact ⟨hst, hq⟩
      · cases h
  · rintro ⟨hst, ha⟩
    refine ⟨some s, hst, ?_⟩
    simp only [ha]

/-- Reading fails on a node part that cannot be classified, is nothing, or is the first location
and in another file than the adopted one. -/
theorem readNode_eq_error_iff {e : Failure} :
    readNode t id rename p offset line node = .error e ↔
      Fragment.classify t node p.current rename = .error e ∨
        (Fragment.statement? t node p.current rename = .ok none ∧ e = .unparsed id offset line) ∨
        ∃ s index, Fragment.classify t node p.current rename = .ok (some s) ∧
          p.accept s = .error index ∧ e = .locationMismatch id offset line index := by
  rw [readNode_eq, bind_eq_error, Fragment.statement?_eq_error_iff]
  refine or_congr_right ⟨?_, ?_⟩
  · rintro ⟨st, hst, h⟩
    cases st with
    | none =>
      cases h
      exact .inl ⟨hst, rfl⟩
    | some s =>
      dsimp only at h
      split at h
      · cases h
      · rename_i index hi
        cases h
        exact .inr ⟨s, index, (Fragment.statement?_eq_some_iff.1 hst).1, hi, rfl⟩
  · rintro (⟨hst, rfl⟩ | ⟨s, index, hst, hi, rfl⟩)
    · exact ⟨none, hst, rfl⟩
    · have hc : ∀ c, s ≠ .comment c := by
        rintro c rfl
        cases hi
      refine ⟨some s, Fragment.statement?_eq_some_iff.2 ⟨hst, hc⟩, ?_⟩
      simp only [hi]

/-- Reading fails on a node part because its file declaration does, or because the part is no
statement of the body. -/
theorem readNode_error {e : Failure} (h : readNode t id rename p offset line node = .error e) :
    Fragment.file? t node = .error e ∨ e = .unparsed id offset line ∨
      ∃ index, e = .locationMismatch id offset line index := by
  rcases readNode_eq_error_iff.1 h with h | ⟨-, h⟩ | ⟨s, index, -, -, h⟩
  · exact .inl (Fragment.file?_of_classify_error h)
  · exact .inr (.inl h)
  · exact .inr (.inr ⟨index, h⟩)

/-- The node part and the comment part of a line of a body. -/
def parts (t : Target) (raw : Text) : Fragments :=
  Fragments.ofLine t.commentMarkers (trim raw)

/-- The comment of a line, if it has one. -/
def comments (t : Target) (raw : Text) : List Statement :=
  (Fragment.comment? t (parts t raw).comment).toList

/-- A line with nothing in front of its comment leaves the progress as it is. -/
theorem readLine_of_no_node (h : (parts t raw).node = []) :
    readLine t id rename p offset raw = .ok (p, comments t raw) := by
  simp only [parts] at h
  simp [readLine, comments, parts, h]

/-- Else the node is read, and its statement stands behind the comment. -/
theorem readLine_of_node (h : (parts t raw).node ≠ []) :
    readLine t id rename p offset raw =
      readNode t id rename p offset (trim raw) (parts t raw).node >>= fun r =>
        .ok (r.1, comments t raw ++ [r.2]) := by
  simp only [parts] at h
  simp [readLine, comments, parts, h]

/-- A line gives its comment and then, if it has a node part, the statement of that. -/
theorem readLine_cases {ss : List Statement}
    (h : readLine t id rename p offset raw = .ok (p', ss)) :
    ((parts t raw).node = [] ∧ p' = p ∧ ss = comments t raw) ∨
      (parts t raw).node ≠ [] ∧ ∃ s,
        readNode t id rename p offset (trim raw) (parts t raw).node = .ok (p', s)
          ∧ ss = comments t raw ++ [s] := by
  by_cases hn : (parts t raw).node = []
  · rw [readLine_of_no_node hn] at h
    cases h
    exact .inl ⟨hn, rfl, rfl⟩
  · rw [readLine_of_node hn] at h
    obtain ⟨⟨q, s⟩, hr, he⟩ := bind_eq_ok.1 h
    cases he
    exact .inr ⟨hn, s, hr, rfl⟩

theorem comments_cases (t : Target) (raw : Text) :
    comments t raw = [] ∨ comments t raw = [.comment (parts t raw).comment] := by
  rw [comments, Fragment.comment?]
  split
  · exact .inr rfl
  · exact .inl rfl

theorem reads_comments (t : Target) (raw : Text) (p : Progress) : Reads p (comments t raw) p := by
  rcases comments_cases t raw with h | h <;> rw [h]
  · exact .nil
  · exact .single trivial rfl

/-- The statements of a line are accepted one by one, each with the location in force. -/
theorem reads_of_readLine {ss : List Statement}
    (h : readLine t id rename p offset raw = .ok (p', ss)) : Reads p ss p' := by
  rcases readLine_cases h with ⟨-, rfl, rfl⟩ | ⟨-, s, hs, rfl⟩
  · exact reads_comments t raw p'
  · obtain ⟨hc, -, ha⟩ := readNode_eq_ok_iff.1 hs
    exact (reads_comments t raw p).append (.single (Fragment.carries_of_classify hc) ha)

/-- The lines are read if and only if the first one is, and then the others from where it led. -/
theorem readLines_cons_eq_ok {lines : List Text} {ss : List Statement} :
    readLines t id rename p offset (raw :: lines) = .ok (p', ss) ↔
      ∃ q ss₁ ss₂, readLine t id rename p offset raw = .ok (q, ss₁) ∧
        readLines t id rename q (offset + 1) lines = .ok (p', ss₂) ∧ ss = ss₁ ++ ss₂ := by
  rw [readLines, bind_eq_ok]
  constructor
  · rintro ⟨⟨q, ss₁⟩, h₁, h⟩
    obtain ⟨⟨q', ss₂⟩, h₂, he⟩ := bind_eq_ok.1 h
    cases he
    exact ⟨q, ss₁, ss₂, h₁, h₂, rfl⟩
  · rintro ⟨q, ss₁, ss₂, h₁, h₂, rfl⟩
    refine ⟨(q, ss₁), h₁, ?_⟩
    simp [h₂]

/-- A body that is read is a run over its statements. -/
theorem reads_of_readLines {lines : List Text} {ss : List Statement}
    (h : readLines t id rename p offset lines = .ok (p', ss)) : Reads p ss p' := by
  induction lines generalizing p offset ss with
  | nil =>
    cases h
    exact .nil
  | cons raw lines ih =>
    obtain ⟨q, ss₁, ss₂, h₁, h₂, rfl⟩ := readLines_cons_eq_ok.1 h
    exact (reads_of_readLine h₁).append (ih h₂)

/-- A body is read if and only if its lines are; the file and the location are those of the last
progress. -/
theorem read_eq_ok_iff {lines : List Text} {f : Function} :
    read t id rename lines = .ok f ↔
      ∃ p ss, readLines t id rename .start 0 lines = .ok (p, ss) ∧ f = ⟨id, p.file, p.loc, ss⟩ := by
  rw [read, bind_eq_ok]
  constructor
  · rintro ⟨⟨p, ss⟩, h, he⟩
    cases he
    exact ⟨p, ss, h, rfl⟩
  · rintro ⟨p, ss, h, rfl⟩
    exact ⟨(p, ss), h, rfl⟩

/-- If the lines of one body are read as those of another, but for a change of the statements and of
the failures, so are the bodies. -/
theorem readLines_map {rename' : Text → Text} {f : Text → Text}
    {g : List Statement → List Statement} {h : Failure → Failure} (hnil : g [] = [])
    (happend : ∀ a b, g (a ++ b) = g a ++ g b)
    (hline : ∀ p offset raw, readLine t id rename' p offset (f raw) =
      ((readLine t id rename p offset raw).map fun r => (r.1, g r.2)).mapError h)
    (p : Progress) (offset : Nat) (lines : List Text) :
    readLines t id rename' p offset (lines.map f) =
      ((readLines t id rename p offset lines).map fun r => (r.1, g r.2)).mapError h := by
  induction lines generalizing p offset with
  | nil => simp [readLines, hnil]
  | cons raw lines ih =>
    rw [List.map_cons, readLines, readLines, hline]
    cases readLine t id rename p offset raw with
    | error e => rfl
    | ok r =>
      simp only [map_ok, mapError_ok, ok_bind, ih]
      cases readLines t id rename r.1 (offset + 1) lines with
      | error e => rfl
      | ok r' => simp [happend]

/-- A failure that is about a line of the body of `id`. -/
def IsLineFailure (id : Text) (e : Failure) : Prop :=
  ∃ offset line, e = .unparsed id offset line ∨ ∃ index, e = .locationMismatch id offset line index

/-- Reading lines fails at a line of its own, or since a file directive does. -/
theorem readLines_error {lines : List Text} {e : Failure}
    (h : readLines t id rename p offset lines = .error e) :
    IsLineFailure id e ∨ ∃ raw ∈ lines, Fragment.file? t (parts t raw).node = .error e := by
  induction lines generalizing p offset with
  | nil => cases h
  | cons raw lines ih =>
    unfold readLines at h
    rcases bind_eq_error.1 h with h | ⟨⟨q, ss⟩, -, h⟩
    · by_cases hn : (parts t raw).node = []
      · rw [readLine_of_no_node hn] at h
        cases h
      · rw [readLine_of_node hn] at h
        rcases bind_eq_error.1 h with h | ⟨_, -, h⟩
        · rcases readNode_error h with h | h | ⟨index, h⟩
          · exact .inr ⟨raw, List.mem_cons_self, h⟩
          · exact .inl ⟨_, _, .inl h⟩
          · exact .inl ⟨_, _, .inr ⟨index, h⟩⟩
        · cases h
    · rcases bind_eq_error.1 h with h | ⟨_, -, h⟩
      · rcases ih h with h | ⟨r, hr, h⟩
        · exact .inl h
        · exact .inr ⟨r, List.mem_cons_of_mem _ hr, h⟩
      · cases h

end

/-! ## What a progress tells about the statements before it -/

/-- The progress `p` accounts for the statements `ss`. -/
structure Accounts (p : Progress) (ss : List Statement) : Prop where
  current : ∀ l, p.current = some l → .loc l ∈ ss
  loc : ∀ l, p.loc = some l → .loc l ∈ ss
  file : ∀ f, p.file = some f → .file f ∈ ss
  agree : ∀ f l, p.file = some f → p.loc = some l → f.index = l.file
  missed : p.file = none → ∀ l, p.loc = some l → ∀ f, .file f ∈ ss → f.index ≠ l.file
  fresh : p.file = none → p.loc = none → ∀ f, .file f ∉ ss
  carried : ∀ s ∈ ss, ∀ l, s.loc? = some l → .loc l ∈ ss

theorem accounts_start : Accounts .start [] := by
  constructor <;> simp [Progress.start]

theorem loc?_of_carries {s : Statement} {cur : Option Loc} {l : Loc} (h : s.Carries cur)
    (hl : s.loc? = some l) : cur = some l := by
  cases s with
  | label id l' => exact Eq.trans (Eq.symm h) hl
  | instruction i => exact Eq.trans (Eq.symm h) hl
  | file | loc | directive | comment => cases hl

namespace Accounts

variable {p p' : Progress} {ss : List Statement} {s : Statement}

/-- What a statement carries is set before it. -/
theorem carried_snoc (h : Accounts p ss) (hs : s.Carries p.current) :
    ∀ s' ∈ ss ++ [s], ∀ l, s'.loc? = some l → .loc l ∈ ss ++ [s] := by
  intro s' hmem l hl
  apply List.mem_append_left _
  rcases List.mem_append.1 hmem with hmem | hmem
  · exact h.carried s' hmem l hl
  · rw [List.mem_singleton.1 hmem] at hl
    exact h.current l (loc?_of_carries hs hl)

/-- A statement that declares no file and sets no location. -/
theorem snoc_other (h : Accounts p ss) (hs : s.Carries p.current) (hf : ∀ f, s ≠ .file f) :
    Accounts p (ss ++ [s]) where
  current l hl := List.mem_append_left _ (h.current l hl)
  loc l hl := List.mem_append_left _ (h.loc l hl)
  file f hf' := List.mem_append_left _ (h.file f hf')
  agree := h.agree
  missed hn l hl f hmem := by
    rcases List.mem_append.1 hmem with hmem | hmem
    · exact h.missed hn l hl f hmem
    · exact absurd (List.mem_singleton.1 hmem).symm (hf f)
  fresh hn hl f hmem := by
    rcases List.mem_append.1 hmem with hmem | hmem
    · exact h.fresh hn hl f hmem
    · exact absurd (List.mem_singleton.1 hmem).symm (hf f)
  carried := h.carried_snoc hs

/-- A declared file is adopted if the file is open and could be this one. -/
theorem snoc_file (h : Accounts p ss) (f : FileEntry) : Accounts (p.adopt f) (ss ++ [.file f]) := by
  by_cases ha : (p.file.isNone && p.loc.all (·.file == f.index)) = true
  · rw [Progress.adopt, if_pos ha]
    rw [Bool.and_eq_true] at ha
    refine ⟨fun l hl => List.mem_append_left _ (h.current l hl),
      fun l hl => List.mem_append_left _ (h.loc l hl), fun g hg => ?_, fun g l hg hl => ?_,
      fun hn => absurd hn (by simp), fun hn => absurd hn (by simp), h.carried_snoc trivial⟩
    · cases hg
      simp
    · cases hg
      have hl' : p.loc = some l := hl
      have hi : l.file = f.index := by simpa [hl'] using ha.2
      exact hi.symm
  · rw [Progress.adopt, if_neg ha]
    refine ⟨fun l hl => List.mem_append_left _ (h.current l hl),
      fun l hl => List.mem_append_left _ (h.loc l hl),
      fun g hg => List.mem_append_left _ (h.file g hg), h.agree, fun hn l hl g hg => ?_,
      fun hn hl => absurd (by simp [hn, hl]) ha, h.carried_snoc trivial⟩
    rcases List.mem_append.1 hg with hg | hg
    · exact h.missed hn l hl g hg
    · cases List.mem_singleton.1 hg
      intro he
      exact ha (by simp [hn, hl, he])

/-- A location is the function's if it is the first, and then it agrees with an adopted file. -/
theorem snoc_loc (h : Accounts p ss) {l : Loc} (ha : p.locate l = .ok p') :
    Accounts p' (ss ++ [.loc l]) := by
  have hnew : ∀ k, some l = some k → Statement.loc k ∈ ss ++ [.loc l] := by
    intro k hk
    cases hk
    simp
  have hold : ∀ f, Statement.file f ∈ ss ++ [.loc l] → .file f ∈ ss := by
    intro f hf
    simpa using hf
  unfold Progress.locate at ha
  split at ha
  · rename_i own hown
    cases ha
    exact ⟨hnew, fun k hk => List.mem_append_left _ (h.loc k hk),
      fun f hf => List.mem_append_left _ (h.file f hf), h.agree,
      fun hn k hk f hf => h.missed hn k hk f (hold f hf),
      fun hn hk f hf => h.fresh hn hk f (hold f hf), h.carried_snoc trivial⟩
  · rename_i hloc hfile
    cases ha
    exact ⟨hnew, hnew,
      fun f hf => List.mem_append_left _ (h.file f hf),
      fun f k hf => absurd (hf.symm.trans hfile) (by simp),
      fun hn k hk f hf => absurd (hold f hf) (h.fresh hfile hloc f),
      fun hn hk => absurd hk (by simp), h.carried_snoc trivial⟩
  · rename_i f hloc hfile
    split at ha
    · rename_i hi
      cases ha
      refine ⟨hnew, hnew,
        fun g hg => List.mem_append_left _ (h.file g hg), fun g k hg hk => ?_,
        fun hn => absurd (hfile.symm.trans hn) (by simp), fun hn hk => absurd hk (by simp),
        h.carried_snoc trivial⟩
      rw [← Option.some.inj (hfile.symm.trans hg), ← Option.some.inj hk, hi]
    · cases ha

theorem snoc (h : Accounts p ss) (hs : s.Carries p.current) (ha : p.accept s = .ok p') :
    Accounts p' (ss ++ [s]) := by
  cases s with
  | file f =>
    cases ha
    exact h.snoc_file f
  | loc l => exact h.snoc_loc ha
  | label | directive | instruction | comment =>
    cases ha
    exact h.snoc_other hs (by simp)

end Accounts

/-- A run keeps the account. -/
theorem Reads.accounts {p p' : Progress} {ss ss' : List Statement} (h : Reads p ss' p')
    (ha : Accounts p ss) : Accounts p' (ss ++ ss') := by
  induction h generalizing ss with
  | nil => simpa using ha
  | cons carries accepts _ ih =>
    have := ih (ha.snoc carries accepts)
    rwa [List.append_assoc, List.singleton_append] at this

/-- What a function says of its file and location is accounted for by its statements. -/
theorem accounts_of_read {t : Target} {id : Text} {rename : Text → Text} {lines : List Text}
    {f : Function} (h : read t id rename lines = .ok f) :
    ∃ p, p.file = f.file ∧ p.loc = f.loc ∧ Accounts p f.statements := by
  obtain ⟨p, ss, hr, rfl⟩ := read_eq_ok_iff.1 h
  exact ⟨p, rfl, rfl, (reads_of_readLines hr).accounts accounts_start⟩

end Body

end AsmLens
