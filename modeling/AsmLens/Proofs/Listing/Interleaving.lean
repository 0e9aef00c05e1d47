import AsmLens.Listing.Node
import Mathlib.Data.List.Chain

/-!
# Where source lines stand in a listing

A listing is read as a derivation: statement by statement, either nothing is put in front, because
there is no source line to show or it is the one shown last, or the line is. `Interleaves` has these
two steps, and `nodes` is derived by it, so that every property of the order of a listing is an
induction over the derivation and never opens the two passes that make the listing.

Main facts: the statements are all there in order, a source line stands right before a statement
that it belongs to, no source line follows itself, and the last source line before a statement is
its own (`nodes_interleaved`); dropping repeats a second time changes nothing.
-/

namespace AsmLens

namespace Node

/-- The statement of a node. -/
def statement? : Node → Option Statement
  | source .. => none
  | statement s => some s

/-- The location of a source line. -/
def sourceLoc? : Node → Option Loc
  | source _ _ l => some l
  | statement _ => none

end Node

namespace Listing

/-- The locations of the source lines of a listing. -/
def sourceLocs (ns : List Node) : List Loc :=
  ns.filterMap Node.sourceLoc?

@[simp] theorem sourceLocs_nil : sourceLocs [] = [] := rfl

@[simp] theorem sourceLocs_source (line path : Text) (l : Loc) (ns : List Node) :
    sourceLocs (.source line path l :: ns) = l :: sourceLocs ns := rfl

@[simp] theorem sourceLocs_statement (st : Statement) (ns : List Node) :
    sourceLocs (.statement st :: ns) = sourceLocs ns := rfl

/-- The key of the last source line of some nodes; without one, the key given. -/
def lastKey (last : Option (Int × Int)) (ns : List Node) : Option (Int × Int) :=
  ((sourceLocs ns).getLast?.map Loc.key).or last

@[simp] theorem lastKey_nil (last : Option (Int × Int)) : lastKey last [] = last := rfl

@[simp] theorem lastKey_statement (last : Option (Int × Int)) (st : Statement) (ns : List Node) :
    lastKey last (.statement st :: ns) = lastKey last ns := rfl

@[simp] theorem lastKey_source (last : Option (Int × Int)) (line path : Text) (l : Loc)
    (ns : List Node) : lastKey last (.source line path l :: ns) = lastKey (some l.key) ns := by
  cases h : (sourceLocs ns).getLast? <;> simp [lastKey, List.getLast?_cons, h]

section

variable {s : Sources}

/-- The statement has a source line to show, at `l`. -/
def Shows (s : Sources) (st : Statement) (l : Loc) : Prop :=
  st.loc? = some l ∧ ∃ line, s.line? l = some line ∧ isCommentLine line = false

/-- Statements with their source lines in front, after a source line with the key `last`. -/
inductive Interleaves (s : Sources) : Option (Int × Int) → List Statement → List Node → Prop where
  | nil {last} : Interleaves s last [] []
  | bare {last st ss ns} (known : ∀ l, Shows s st l → last = some l.key) :
      Interleaves s last ss ns → Interleaves s last (st :: ss) (.statement st :: ns)
  | sourced {last st ss ns l line path} (own : st.loc? = some l) (text : s.line? l = some line)
      (file : s.path? l = some path) (new : last ≠ some l.key) :
      Interleaves s (some l.key) ss ns →
      Interleaves s last (st :: ss) (.source line path l :: .statement st :: ns)

/-- An excerpt with the line has a path. -/
theorem path?_of_line? {l : Loc} {line : Text} (h : s.line? l = some line) :
    ∃ path, s.path? l = some path := by
  simp only [Sources.line?, Option.bind_eq_bind, Option.bind_eq_some_iff] at h
  obtain ⟨e, he, -⟩ := h
  exact ⟨e.file.path, by simp [Sources.path?, he]⟩

theorem sourceNode?_eq_some {l : Loc} {line path : Text} (hl : s.line? l = some line)
    (hp : s.path? l = some path) (hc : isCommentLine line = false) :
    sourceNode? s l = some (.source line path l) := by
  simp [sourceNode?, hl, hp, hc]

/-- A source line in front of a statement is the line of its location. -/
theorem shows_of_sourceNode? {st : Statement} {l : Loc} {n : Node} (hl : st.loc? = some l)
    (h : sourceNode? s l = some n) : Shows s st l := by
  simp only [sourceNode?, Option.bind_eq_bind, Option.bind_eq_some_iff] at h
  obtain ⟨line, hline, hn⟩ := h
  split at hn
  · cases hn
  · exact ⟨hl, line, hline, by simpa using ‹¬isCommentLine line = true›⟩

/-- A statement without a source line to show is expanded to itself. -/
theorem expand_of_not_shows {st : Statement} (h : ∀ l, ¬Shows s st l) :
    expand s st = [.statement st] := by
  cases hl : st.loc? with
  | none => simp [expand, hl]
  | some l =>
    cases hn : sourceNode? s l with
    | none => simp [expand, hl, hn]
    | some n => exact absurd (shows_of_sourceNode? hl hn) (h l)

/-- A statement with a source line to show is expanded to both. -/
theorem expand_of_shows {st : Statement} {l : Loc} (h : Shows s st l) :
    ∃ line path, s.line? l = some line ∧ s.path? l = some path ∧
      expand s st = [.source line path l, .statement st] := by
  obtain ⟨hl, line, hline, hc⟩ := h
  obtain ⟨path, hp⟩ := path?_of_line? hline
  exact ⟨line, path, hline, hp, by simp [expand, hl, sourceNode?_eq_some hline hp hc]⟩

theorem dropRepeats_statement (last : Option (Int × Int)) (st : Statement) (ns : List Node) :
    dropRepeats last (.statement st :: ns) = .statement st :: dropRepeats last ns := by
  rw [dropRepeats]

/-- A source line that was shown last is dropped. -/
theorem dropRepeats_repeat {last : Option (Int × Int)} {l : Loc} (h : last = some l.key)
    (line path : Text) (ns : List Node) :
    dropRepeats last (.source line path l :: ns) = dropRepeats last ns := by
  rw [dropRepeats, if_pos h]

/-- Any other is kept, and is the last one from there on. -/
theorem dropRepeats_new {last : Option (Int × Int)} {l : Loc} (h : last ≠ some l.key)
    (line path : Text) (ns : List Node) :
    dropRepeats last (.source line path l :: ns)
      = .source line path l :: dropRepeats (some l.key) ns := by
  rw [dropRepeats, if_neg h]

/-- Expanding statements and dropping repeats interleaves them. -/
theorem interleaves_dropRepeats (s : Sources) (ss : List Statement) (last : Option (Int × Int)) :
    Interleaves s last ss (dropRepeats last (ss.flatMap (expand s))) := by
  induction ss generalizing last with
  | nil => exact .nil
  | cons st ss ih =>
    rw [List.flatMap_cons]
    by_cases h : ∃ l, Shows s st l
    · obtain ⟨l, hs⟩ := h
      obtain ⟨line, path, hline, hpath, he⟩ := expand_of_shows hs
      rw [he, List.cons_append, List.cons_append, List.nil_append]
      by_cases hk : last = some l.key
      · rw [dropRepeats_repeat hk, dropRepeats_statement]
        refine .bare (fun l' hs' => ?_) (ih last)
        -- the statement carries one location, so this is the line shown last
        cases Option.some.inj (hs.1.symm.trans hs'.1)
        exact hk
      · rw [dropRepeats_new hk, dropRepeats_statement]
        exact .sourced hs.1 hline hpath hk (ih _)
    · have hn : ∀ l, ¬Shows s st l := fun l hs => h ⟨l, hs⟩
      rw [expand_of_not_shows hn, List.singleton_append, dropRepeats_statement]
      exact .bare (fun l hs => absurd hs (hn l)) (ih last)

/-- The nodes of a function are its statements with source lines between them. -/
theorem interleaves_nodes (f : Function) (s : Sources) :
    Interleaves s none f.statements (nodes f s) :=
  interleaves_dropRepeats s f.statements none

namespace Interleaves

variable {last : Option (Int × Int)} {ss : List Statement} {ns : List Node}

/-- Without the source lines, the statements are left. -/
theorem statements (h : Interleaves s last ss ns) : ns.filterMap Node.statement? = ss := by
  induction h with
  | nil => rfl
  | bare _ _ ih => exact congrArg _ ih
  | sourced _ _ _ _ _ ih => exact congrArg _ ih

/-- No source line comes twice in a row. -/
theorem isChain_keys (h : Interleaves s last ss ns) :
    List.IsChain (· ≠ ·) (last.toList ++ (sourceLocs ns).map Loc.key) := by
  induction h with
  | nil => cases ‹Option (Int × Int)› <;> simp
  | bare _ _ ih => simpa using ih
  | @sourced last _ _ _ _ _ _ _ _ _ new _ ih =>
    cases last with
    | none => simpa using ih
    | some k =>
      have hk : k ≠ _ := fun e => new (congrArg some e)
      simpa using ⟨hk, ih⟩

/-- A source line stands right before a statement that it belongs to. -/
theorem source_next (h : Interleaves s last ss ns) {before after : List Node} {line path : Text}
    {l : Loc} (he : ns = before ++ .source line path l :: after) :
    s.line? l = some line ∧ s.path? l = some path ∧
      ∃ st rest, after = .statement st :: rest ∧ st.loc? = some l := by
  induction h generalizing before with
  | nil => simp at he
  | bare _ _ ih =>
    cases before with
    | nil => simp at he
    | cons n before => exact ih (List.cons.inj he).2
  | sourced own text file _ _ ih =>
    match before with
    | [] =>
      obtain ⟨hn, ha⟩ := List.cons.inj he
      cases hn
      exact ⟨text, file, _, _, ha.symm, own⟩
    | [_] => simp at he
    | _ :: _ :: before => exact ih (List.cons.inj (List.cons.inj he).2).2

/-- Before a statement with a source line to show, that line is the last one. -/
theorem lastKey_before (h : Interleaves s last ss ns) {before after : List Node} {st : Statement}
    {l : Loc} (he : ns = before ++ .statement st :: after) (hs : Shows s st l) :
    lastKey last before = some l.key := by
  induction h generalizing before with
  | nil => simp at he
  | bare known _ ih =>
    cases before with
    | nil =>
      cases Node.statement.inj (List.cons.inj he).1
      exact known l hs
    | cons n before =>
      obtain ⟨hn, ht⟩ := List.cons.inj he
      rw [← hn, lastKey_statement]
      exact ih ht
  | sourced own _ _ _ _ ih =>
    match before with
    | [] => simp at he
    | [n] =>
      obtain ⟨hn, ht⟩ := List.cons.inj he
      cases Node.statement.inj (List.cons.inj ht).1
      rw [← hn, lastKey_source, lastKey_nil, Option.some.inj (own.symm.trans hs.1)]
    | n :: m :: before =>
      obtain ⟨hn, ht⟩ := List.cons.inj he
      obtain ⟨hm, ht⟩ := List.cons.inj ht
      rw [← hn, ← hm, lastKey_source, lastKey_statement]
      exact ih ht

end Interleaves

/-- Dropping repeats a second time changes nothing. -/
theorem dropRepeats_dropRepeats (last : Option (Int × Int)) (ns : List Node) :
    dropRepeats last (dropRepeats last ns) = dropRepeats last ns := by
  induction ns generalizing last with
  | nil => rw [dropRepeats, dropRepeats]
  | cons n ns ih =>
    cases n with
    | statement st => rw [dropRepeats_statement, dropRepeats_statement, ih]
    | source line path l =>
      by_cases h : last = some l.key
      · rw [dropRepeats_repeat h, ih]
      · rw [dropRepeats_new h, dropRepeats_new h, ih]

/-- **Interleaving.** The statements of a listing are those of the function. A source line is what
the sources hold for its location and stands right before a statement with that location. Two
source lines in a row differ in file or line. If a statement has a source line to show, the last
one before it is in the same file and line. Dropping repeats is idempotent. -/
theorem nodes_interleaved (f : Function) (s : Sources) :
    (nodes f s).filterMap Node.statement? = f.statements ∧
    (∀ before line path l after, nodes f s = before ++ .source line path l :: after →
      s.line? l = some line ∧ s.path? l = some path ∧
      ∃ st rest, after = .statement st :: rest ∧ st.loc? = some l) ∧
    List.IsChain (· ≠ ·) ((sourceLocs (nodes f s)).map Loc.key) ∧
    (∀ before st after l line, nodes f s = before ++ .statement st :: after →
      st.loc? = some l → s.line? l = some line → isCommentLine line = false →
      (sourceLocs before).getLast?.map Loc.key = some l.key) ∧
    ∀ ns, dropRepeats none (dropRepeats none ns) = dropRepeats none ns := by
  have h := interleaves_nodes f s
  refine ⟨h.statements, fun _ _ _ _ _ he => h.source_next he, by simpa using h.isChain_keys, ?_,
    dropRepeats_dropRepeats none⟩
  intro before st after l line he hl hline hc
  have hk := h.lastKey_before he ⟨hl, line, hline, hc⟩
  simpa [lastKey] using hk

end

end Listing

end AsmLens
