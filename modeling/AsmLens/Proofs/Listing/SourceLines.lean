import AsmLens.Listing.View
import AsmLens.Proofs.Listing.Interleaving
import AsmLens.Proofs.Text.Trimming
import Mathlib.Data.List.Forall2

/-!
# What source lines change in a view

The lines of a view are followed back to the nodes they show (`shownLines`). The statements among
them are those of the function that the options let through, and no source line bears on which
these are or on what their lines say: only margins differ (`lines_withSources`). A view without
source lines is told by the function alone (`lines_of_hidden`), and a listing by what the sources
hold for the statements' own locations (`nodes_congr`).
-/

namespace AsmLens

open Text

/-- The node is a statement. -/
def Node.isStatement (n : Node) : Bool :=
  n.statement?.isSome

namespace Listing

/-- The statement comes from another file than the function, as far as locations tell. -/
def IsInlined (f : Function) (st : Statement) : Prop :=
  ∃ own l, f.loc = some own ∧ st.loc? = some l ∧ l.file ≠ own.file

namespace View

/-- The view with source lines, or without. -/
def withSources (v : View) (b : Bool) : View :=
  { v with options := { v.options with rust := b } }

variable (v : View) (f : Function) (s : Sources)

/-- The nodes that are shown, each with its line. -/
def shownLines : List (Node × List Piece) :=
  ((nodes f s).filter v.shows).map fun n => (n, v.pieces f n)

/-- The statements that are shown, each with its line. -/
def statementLines : List (Node × List Piece) :=
  (f.statements.filter fun st => v.shows (.statement st)).map fun st =>
    (.statement st, v.statementPieces f st)

/-- The columns in front of a statement. -/
def margin (st : Statement) : Nat :=
  match st with
  | .label .. => 0
  | _ => depth (v.options.rust && !isOwn f st.loc?)

end View

/-- Two lines of one statement that differ in their margins at most, and differ only if it was
inlined and is no label. -/
structure SameButMargin (f : Function) (a b : Node × List Piece) : Prop where
  node : a.1 = b.1
  text : trimStart (a.2.flatMap Piece.text) = trimStart (b.2.flatMap Piece.text)
  rest : a.2.tail = b.2.tail
  margin : a.2 ≠ b.2 ↔
    ∃ st, a.1 = .statement st ∧ (∀ name l, st ≠ .label name l) ∧ IsInlined f st

variable {v : View} {f : Function} {s s' : Sources}

/-! ## Nodes and lines -/

theorem filter_isStatement (ns : List Node) :
    ns.filter Node.isStatement = (ns.filterMap Node.statement?).map .statement := by
  induction ns with
  | nil => rfl
  | cons n ns ih =>
    cases n with
    | source line path l => exact ih
    | statement st => exact congrArg (Node.statement st :: ·) ih

/-- The statements of a listing are those of the function. -/
theorem filter_isStatement_nodes (f : Function) (s : Sources) :
    (nodes f s).filter Node.isStatement = f.statements.map .statement := by
  rw [filter_isStatement, (interleaves_nodes f s).statements]

/-- The lines of a view are those of the nodes it shows, behind a header if it shows no sources. -/
theorem lines_eq (v : View) (f : Function) (s : Sources) :
    v.lines f s =
      (if v.options.rust then [] else [v.header f]) ++ (v.shownLines f s).map Prod.snd := by
  have hrender : ∀ ns : List Node,
      ns.filterMap (v.render? f) = (ns.filter v.shows).map (v.pieces f) := by
    intro ns
    induction ns with
    | nil => rfl
    | cons n ns ih =>
      cases hn : v.shows n with
      | true =>
        rw [List.filterMap_cons_some (by rw [View.render?, if_pos hn]),
          List.filter_cons_of_pos hn, List.map_cons, ih]
      | false =>
        have hn : ¬ v.shows n = true := Bool.eq_false_iff.1 hn
        rw [List.filterMap_cons_none (by rw [View.render?, if_neg hn]),
          List.filter_cons_of_neg hn, ih]
  rw [View.lines, hrender, View.shownLines, List.map_map]
  rfl

/-- The lines of statements are told by the function. -/
theorem filter_shownLines (v : View) (f : Function) (s : Sources) :
    (v.shownLines f s).filter (·.1.isStatement) = v.statementLines f := by
  have hstatements : ((nodes f s).filter v.shows).filter Node.isStatement =
      (f.statements.filter fun st => v.shows (.statement st)).map .statement := by
    rw [List.filter_filter, List.filter_congr fun n _ => Bool.and_comm .., ← List.filter_filter,
      filter_isStatement_nodes, List.filter_map]
    rfl
  rw [View.shownLines, List.filter_map]
  show (((nodes f s).filter v.shows).filter Node.isStatement).map _ = _
  rw [hstatements, List.map_map]
  rfl

/-- Without source lines only statements are shown. -/
theorem shownLines_of_hidden (h : v.options.rust = false) :
    v.shownLines f s = v.statementLines f := by
  rw [← filter_shownLines v f s]
  refine (List.filter_eq_self.2 fun p hp => ?_).symm
  obtain ⟨n, hn, rfl⟩ := List.mem_map.1 hp
  have hshows := (List.mem_filter.1 hn).2
  cases n with
  | statement st => rfl
  | source text path l => exact absurd (h.symm.trans hshows) (by decide)

/-- A view without source lines is told by the function. -/
theorem lines_of_hidden (h : v.options.rust = false) :
    v.lines f s = v.header f :: (v.statementLines f).map Prod.snd := by
  rw [lines_eq, shownLines_of_hidden h, h]
  rfl

/-- A listing is told by what the sources hold for the locations of its statements. -/
theorem nodes_congr (h : ∀ st ∈ f.statements, ∀ l, st.loc? = some l →
    s.line? l = s'.line? l ∧ s.path? l = s'.path? l) : nodes f s = nodes f s' := by
  have hexpand : ∀ st ∈ f.statements, expand s st = expand s' st := by
    intro st hst
    cases hl : st.loc? with
    | none => simp [expand, hl]
    | some l =>
      obtain ⟨hline, hpath⟩ := h st hst l hl
      simp [expand, hl, sourceNode?, hline, hpath]
  rw [nodes, nodes, List.flatMap_congr hexpand]

/-! ## Margins -/

/-- A statement is not the own one of a function if and only if it is inlined. -/
theorem isOwn_eq_false_iff {st : Statement} :
    View.isOwn f st.loc? = false ↔ IsInlined f st := by
  unfold View.isOwn IsInlined
  cases f.loc <;> cases st.loc? <;> simp

/-- The pieces of a statement stand behind its margin. -/
theorem statementPieces_eq (v : View) (f : Function) (st : Statement) :
    v.statementPieces f st = View.indent (v.margin f st) :: (v.statementPieces f st).tail := by
  cases st <;> rfl

/-- Behind the margin source lines change nothing. -/
theorem tail_withSources (v : View) (f : Function) (st : Statement) (b : Bool) :
    ((v.withSources b).statementPieces f st).tail = (v.statementPieces f st).tail := by
  cases st <;> rfl

theorem indent_inj {n m : Nat} : View.indent n = View.indent m ↔ n = m := by
  constructor
  · intro h
    have hlength := congrArg (fun p => p.text.length) h
    simpa [View.indent] using hlength
  · exact congrArg View.indent

/-- The margins differ at statements that were inlined and are no labels. -/
theorem margin_ne_iff (v : View) (f : Function) (st : Statement) :
    (v.withSources true).margin f st ≠ (v.withSources false).margin f st ↔
      (∀ name l, st ≠ .label name l) ∧ IsInlined f st := by
  rw [← isOwn_eq_false_iff]
  cases st with
  | label name l => simp [View.margin]
  | file | loc | directive | instruction | comment =>
    simp only [View.margin, View.withSources, Bool.true_and, Bool.false_and, reduceCtorEq, ne_eq,
      not_false_eq_true, implies_true, true_and]
    cases View.isOwn f _ <;> decide

/-- With source lines, the line of a statement differs in its margin at most. -/
theorem sameButMargin_withSources (v : View) (f : Function) (st : Statement) :
    SameButMargin f (.statement st, (v.withSources true).statementPieces f st)
      (.statement st, (v.withSources false).statementPieces f st) := by
  have htails := (tail_withSources v f st true).trans (tail_withSources v f st false).symm
  have htrim : ∀ n (ps : List Piece), trimStart ((View.indent n :: ps).flatMap Piece.text) =
      trimStart (ps.flatMap Piece.text) := by
    intro n ps
    rw [List.flatMap_cons]
    exact trimStart_append_of_blanks (isBlanks_replicate n) _
  refine ⟨rfl, ?_, htails, ?_⟩
  · dsimp only
    rw [statementPieces_eq, statementPieces_eq (v.withSources false), htrim, htrim, htails]
  · dsimp only
    rw [statementPieces_eq, statementPieces_eq (v.withSources false), htails, ne_eq,
      List.cons.injEq, and_iff_left rfl, indent_inj, ← ne_eq, margin_ne_iff]
    simp

/-- **Source lines are only added.** A view with source lines has the lines of the nodes it shows,
and one without has a header first. If the lines of source nodes are left out of the former and the
header out of the latter, what remains are the same statements one by one, whose lines are the same
but for white space at the start, and that differs only at statements that were inlined and are no
labels. -/
theorem lines_withSources (v : View) (f : Function) (s : Sources) :
    (v.withSources true).lines f s = ((v.withSources true).shownLines f s).map Prod.snd ∧
    (v.withSources false).lines f s =
      v.header f :: ((v.withSources false).shownLines f s).map Prod.snd ∧
    List.Forall₂ (SameButMargin f)
      (((v.withSources true).shownLines f s).filter (·.1.isStatement))
      ((v.withSources false).shownLines f s) := by
  refine ⟨lines_eq _ f s, lines_eq _ f s, ?_⟩
  have hshows : ∀ b, (fun st => (v.withSources b).shows (.statement st)) =
      fun st => v.shows (.statement st) := by
    intro b
    funext st
    cases st <;> rfl
  rw [filter_shownLines, shownLines_of_hidden rfl, View.statementLines, View.statementLines,
    hshows, hshows, List.forall₂_map_left_iff, List.forall₂_map_right_iff, List.forall₂_same]
  exact fun st _ => sameButMargin_withSources v f st

end Listing

end AsmLens
