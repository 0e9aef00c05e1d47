import AsmLens.Proofs.Assembly.Classification
import Mathlib.Data.List.Pairwise

/-!
# No fragment is of two kinds

No two classifiers accept the same fragment, blanks at its ends or not (`pairwise_excludes`): the
first character of a fragment tells directives, comments, quoted labels and instructions apart, and
a label without quotes is one word, whose colon no mnemonic has. So the classifiers may be tried in
any order (`classify_in_any_order`).
-/

namespace AsmLens

open Text

namespace Fragment

/-- What a classifier says about a fragment. -/
abbrev Verdict := Except Failure (Option Statement)

/-- What the four classifiers say about a fragment: directive, label, instruction, comment. -/
def verdicts (t : Target) (s : Text) (loc : Option Loc) (rename : Text → Text) : List Verdict :=
  [directive? t s, .ok (label? t s loc), .ok (instruction? t s loc rename), .ok (comment? t s)]

/-- The first statement that is accepted, in the given order. -/
def firstAccepted : List Verdict → Verdict
  | [] => .ok none
  | v :: vs => do
    match ← v with
    | some st => return some st
    | none => firstAccepted vs

/-- At most one of two verdicts accepts. -/
def Excludes (v w : Verdict) : Prop :=
  ∀ st st', v = .ok (some st) → w ≠ .ok (some st')

variable {t : Target} {s : Text} {loc : Option Loc} {rename : Text → Text} {vs : List Verdict}

/-! ## Two kinds at a time -/

theorem instruction?_of_parts?_none (h : parts? s = none) : instruction? t s loc rename = none := by
  rw [instruction?, h, Option.map_none]

theorem comment?_of_opensComment_eq_false (h : opensComment t s = false) : comment? t s = none := by
  rw [comment?, h, Bool.and_false, if_neg Bool.false_ne_true]

/-- A label is no instruction: it is quoted, or its first word has the colon. -/
theorem parts?_of_isLabelForm (h : isLabelForm s = true) : parts? s = none := by
  by_cases hq : s.head? = some '"'
  · exact parts?_of_head? hq (by decide) (by decide)
  · have hsolid := isSolid_dropNewline_of_isLabelForm hq h
    obtain ⟨b, hb, hs⟩ := dropNewline_append_blanks s
    have hlast : (dropNewline s).getLast? = some ':' := beq_iff_eq.1 (Bool.and_eq_true_iff.1 h).1
    have hcolon : ':' ∈ dropNewline s := List.mem_of_getLast? hlast
    have hword : firstWord? s = some (dropNewline s, []) := by
      have := firstWord?_append hsolid (List.ne_nil_of_mem hcolon) hb (u := []) (by simp) (by simp)
      rwa [List.append_nil, ← hs] at this
    have hnot : ¬ isMnemonic (dropNewline s) = true := fun hm =>
      mem_mnemonic hm hcolon (by decide)
    rw [parts?, hword]
    simp [hnot]

theorem opensComment_of_dot (h : startsWith ['.'] s = true) : opensComment t s = false := by
  apply Bool.eq_false_iff.2
  intro ho
  obtain ⟨c, hc, hhead⟩ := head?_of_opensComment ho
  cases hhead.symm.trans (startsWith_dot_iff.1 h)
  exact absurd hc (by decide)

/-- A directive is nothing else. -/
theorem excluded_of_directive? (loc : Option Loc) (rename : Text → Text) {st : Statement}
    (h : directive? t s = .ok (some st)) :
    label? t s loc = none ∧ instruction? t s loc rename = none ∧ comment? t s = none := by
  obtain ⟨hdot, hform, -⟩ := directive?_cases h
  refine ⟨?_, ?_, ?_⟩
  · rw [label?, labelName?, hform, Bool.false_and, if_neg Bool.false_ne_true, Option.map_none]
  · exact instruction?_of_parts?_none
      (parts?_of_head? (startsWith_dot_iff.1 hdot) (by decide) (by decide))
  · exact comment?_of_opensComment_eq_false (opensComment_of_dot hdot)

/-- A label is neither an instruction nor a comment. -/
theorem excluded_of_label? (rename : Text → Text) {st : Statement}
    (h : label? t s loc = some st) :
    instruction? t s loc rename = none ∧ comment? t s = none := by
  obtain ⟨id, hid, -⟩ := label?_eq_some_iff.1 h
  refine ⟨instruction?_of_parts?_none (parts?_of_isLabelForm (isLabelForm_of_labelName? hid)), ?_⟩
  apply comment?_of_opensComment_eq_false
  unfold labelName? at hid
  split at hid
  · rename_i hname
    simpa using (Bool.and_eq_true_iff.1 hname).2
  · cases hid

/-- An instruction is no comment. -/
theorem comment?_of_instruction? {st : Statement} (h : instruction? t s loc rename = some st) :
    comment? t s = none := by
  apply comment?_of_opensComment_eq_false
  apply Bool.eq_false_iff.2
  intro ho
  rw [instruction?_of_parts?_none (parts?_of_opensComment ho)] at h
  cases h

/-- A verdict that accepts nothing else excludes the other. -/
theorem excludes_of_none {v : Verdict} {a : Option Statement}
    (h : ∀ st, v = .ok (some st) → a = none) : Excludes v (.ok a) := by
  intro st st' hv ha
  rw [h st hv] at ha
  cases ha

/-- No two classifiers accept the same fragment. -/
theorem pairwise_excludes (t : Target) (s : Text) (loc : Option Loc) (rename : Text → Text) :
    (verdicts t s loc rename).Pairwise Excludes := by
  have hlabel : ∀ {a : Option Statement}, (∀ st, label? t s loc = some st → a = none) →
      Excludes (.ok (label? t s loc)) (.ok a) :=
    fun h => excludes_of_none fun st hst => h st (Except.ok.inj hst)
  rw [verdicts, List.pairwise_cons, List.pairwise_cons, List.pairwise_cons]
  refine ⟨?directive, ?label, ?instruction, List.pairwise_singleton ..⟩
  case directive =>
    refine List.forall_mem_cons.2 ⟨?_, List.forall_mem_cons.2 ⟨?_, List.forall_mem_singleton.2 ?_⟩⟩
    · exact excludes_of_none fun st hst => (excluded_of_directive? loc rename hst).1
    · exact excludes_of_none fun st hst => (excluded_of_directive? loc rename hst).2.1
    · exact excludes_of_none fun st hst => (excluded_of_directive? loc rename hst).2.2
  case label =>
    refine List.forall_mem_cons.2 ⟨?_, List.forall_mem_singleton.2 ?_⟩
    · exact hlabel fun st hst => (excluded_of_label? rename hst).1
    · exact hlabel fun st hst => (excluded_of_label? rename hst).2
  case instruction =>
    exact List.forall_mem_singleton.2 <| excludes_of_none fun st hst =>
      comment?_of_instruction? (Except.ok.inj hst)

/-! ## Any order -/

instance : Std.Symm Excludes :=
  ⟨fun _ _ h st st' hw hv => h st' st hv hw⟩

/-- What is accepted first is accepted by some classifier, or by none. -/
theorem firstAccepted_cases (hok : ∀ v ∈ vs, ∃ a, v = .ok a) :
    (firstAccepted vs = .ok none ∧ ∀ v ∈ vs, v = .ok none) ∨
      ∃ st, firstAccepted vs = .ok (some st) ∧ .ok (some st) ∈ vs := by
  induction vs with
  | nil => exact .inl ⟨rfl, List.forall_mem_nil _⟩
  | cons v vs ih =>
    obtain ⟨⟨a, rfl⟩, hrest⟩ := List.forall_mem_cons.1 hok
    cases a with
    | some st => exact .inr ⟨st, rfl, List.mem_cons_self⟩
    | none =>
      rcases ih hrest with ⟨hfirst, hall⟩ | ⟨st, hfirst, hmem⟩
      · exact .inl ⟨hfirst, List.forall_mem_cons.2 ⟨rfl, hall⟩⟩
      · exact .inr ⟨st, hfirst, List.mem_cons_of_mem _ hmem⟩

/-- Among verdicts that exclude each other, only one statement is accepted. -/
theorem eq_of_mem_of_excludes (hvs : vs.Pairwise Excludes) {st st' : Statement}
    (h : .ok (some st) ∈ vs) (h' : .ok (some st') ∈ vs) : st = st' := by
  by_cases he : (.ok (some st) : Verdict) = .ok (some st')
  · exact Option.some.inj (Except.ok.inj he)
  · have hex := hvs.forall h h' he
    exact absurd rfl (hex st st' rfl)

/-- Where verdicts exclude each other, the first that accepts is the one that does. -/
theorem firstAccepted_eq_some_iff (hok : ∀ v ∈ vs, ∃ a, v = .ok a) (hvs : vs.Pairwise Excludes)
    {st : Statement} : firstAccepted vs = .ok (some st) ↔ .ok (some st) ∈ vs := by
  constructor
  · intro h
    rcases firstAccepted_cases hok with ⟨hfirst, -⟩ | ⟨st', hfirst, hmem⟩
    · cases h.symm.trans hfirst
    · cases h.symm.trans hfirst
      exact hmem
  · intro h
    rcases firstAccepted_cases hok with ⟨-, hall⟩ | ⟨st', hfirst, hmem⟩
    · cases hall _ h
    · rw [eq_of_mem_of_excludes hvs h hmem]
      exact hfirst

/-- Nothing is accepted if and only if every verdict is to decline. -/
theorem firstAccepted_eq_none_iff (hok : ∀ v ∈ vs, ∃ a, v = .ok a) :
    firstAccepted vs = .ok none ↔ ∀ v ∈ vs, v = .ok none := by
  constructor
  · intro h
    rcases firstAccepted_cases hok with ⟨-, hall⟩ | ⟨st, hfirst, -⟩
    · exact hall
    · cases h.symm.trans hfirst
  · intro h
    rcases firstAccepted_cases hok with ⟨hfirst, -⟩ | ⟨st, -, hmem⟩
    · exact hfirst
    · cases h _ hmem

/-- Verdicts that exclude each other may be asked in any order. -/
theorem firstAccepted_perm {vs' : List Verdict} (hp : vs'.Perm vs)
    (hok : ∀ v ∈ vs, ∃ a, v = .ok a) (hvs : vs.Pairwise Excludes) :
    firstAccepted vs' = firstAccepted vs := by
  have hok' : ∀ v ∈ vs', ∃ a, v = .ok a := fun v hv => hok v (hp.subset hv)
  have hvs' : vs'.Pairwise Excludes := (hp.pairwise_iff fun hvw => symm hvw).2 hvs
  rcases firstAccepted_cases hok with ⟨hfirst, hall⟩ | ⟨st, hfirst, hmem⟩
  · rw [hfirst, firstAccepted_eq_none_iff hok']
    exact fun v hv => hall v (hp.subset hv)
  · rw [hfirst, firstAccepted_eq_some_iff hok' hvs']
    exact hp.symm.subset hmem

/-- Classifying asks the classifiers in the order of `verdicts`. -/
theorem classify_eq_firstAccepted (t : Target) (s : Text) (loc : Option Loc)
    (rename : Text → Text) : classify t s loc rename = firstAccepted (verdicts t s loc rename) := by
  rw [classify_eq, statement?, verdicts, firstAccepted]
  cases directive? t s with
  | error e => rfl
  | ok d =>
    cases d with
    | some st => rfl
    | none =>
      simp only [ok_bind, pure_eq_ok, map_ok, firstAccepted]
      cases label? t s loc <;> cases instruction? t s loc rename <;> cases comment? t s <;> rfl

/-- **Every fragment is of one kind at most.** If no classifier fails on a fragment, no two accept
it, and it is classified as the statement of the one that does, or as nothing if none does. So the
classifiers give the same statement in whatever order they are tried. -/
theorem classify_in_any_order (t : Target) (s : Text) (loc : Option Loc) (rename : Text → Text)
    (h : ∀ v ∈ verdicts t s loc rename, ∃ a, v = .ok a) :
    (verdicts t s loc rename).Pairwise Excludes ∧
    (∀ st, classify t s loc rename = .ok (some st) ↔ .ok (some st) ∈ verdicts t s loc rename) ∧
    (classify t s loc rename = .ok none ↔ ∀ v ∈ verdicts t s loc rename, v = .ok none) ∧
    ∀ order, order.Perm (verdicts t s loc rename) →
      firstAccepted order = classify t s loc rename := by
  have hpairs := pairwise_excludes t s loc rename
  rw [classify_eq_firstAccepted]
  exact ⟨hpairs, fun st => firstAccepted_eq_some_iff h hpairs, firstAccepted_eq_none_iff h,
    fun order horder => firstAccepted_perm horder h hpairs⟩

/-- A quoted label with a blank and a comment marker in it and a line feed behind it. -/
theorem classify_in_any_order_of_quoted_label :
    let t : Target := ⟨"x86_64-unknown-linux-gnu".toList⟩
    let s := "\"b; c\":\n".toList
    let label : Statement := .label "\"b; c\":".toList none
    (∀ v ∈ verdicts t s none id, ∃ a, v = .ok a) ∧ (verdicts t s none id).Pairwise Excludes ∧
      classify t s none id = .ok (some label) ∧
      firstAccepted (verdicts t s none id).reverse = .ok (some label) := by
  intro t s label
  have hdirective : directive? t s = .ok none := toOption_eq_some_iff.1 (by decide +kernel)
  have hlabel : label? t s none = some label := by decide +kernel
  have hok : ∀ v ∈ verdicts t s none id, ∃ a, v = .ok a :=
    List.forall_mem_cons.2 ⟨⟨_, hdirective⟩, List.forall_mem_cons.2 ⟨⟨_, rfl⟩,
      List.forall_mem_cons.2 ⟨⟨_, rfl⟩, List.forall_mem_singleton.2 ⟨_, rfl⟩⟩⟩⟩
  obtain ⟨hpairs, haccepts, -, horder⟩ := classify_in_any_order t s none id hok
  have hclassify : classify t s none id = .ok (some label) := (haccepts label).2 <|
    List.mem_cons_of_mem _ (by rw [hlabel]; exact List.mem_cons_self)
  exact ⟨hok, hpairs, hclassify, (horder _ (List.reverse_perm _)).trans hclassify⟩

end Fragment

end AsmLens
