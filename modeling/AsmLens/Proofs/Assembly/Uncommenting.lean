import AsmLens.Proofs.Assembly.LineByLine

/-!
# Bodies without their comments

The node part of a line is trimmed and not cut again (`parts_node`). So a body whose lines are
replaced by their node parts is read as before, but for the comments among the statements and the
line that a failure shows (`read_nodes`).
-/

namespace AsmLens

open Text

/-- The statement is no comment. -/
def Statement.isCode : Statement → Bool
  | comment _ => false
  | _ => true

/-- The function without the comments of its body. -/
def Function.withoutComments (f : Function) : Function :=
  { f with statements := f.statements.filter Statement.isCode }

/-- The failure with the node part of the line that it shows. -/
def Failure.withoutComment (t : Target) : Failure → Failure
  | unparsed function offset line =>
    unparsed function offset (Fragments.ofLine t.commentMarkers line).node
  | locationMismatch function offset line file =>
    locationMismatch function offset (Fragments.ofLine t.commentMarkers line).node file
  | e => e

theorem Failure.offset?_withoutComment (t : Target) (e : Failure) :
    (e.withoutComment t).offset? = e.offset? := by
  cases e <;> rfl

namespace Body

variable {t : Target} {id : Text} {rename : Text → Text} {p : Progress} {offset : Nat} {raw : Text}

/-- The lines of a body without blanks at their ends and without comments. -/
def nodes (t : Target) (lines : List Text) : List Text :=
  lines.map fun raw => (parts t raw).node

/-- The node part of a line has a node part only, itself. -/
theorem parts_node (t : Target) (raw : Text) :
    parts t (parts t raw).node = ⟨(parts t raw).node, []⟩ := by
  have htrim : trim (parts t raw).node = (parts t raw).node :=
    (Fragments.isTrimmed_node (isTrimmed_trim raw)).trim_eq
  rw [parts, htrim]
  exact Fragments.ofLine_of_unmarked (Fragments.unmarked_node _ _)

/-- Comments call nothing. -/
theorem callTargets_nodes (t : Target) (lines : List Text) :
    callTargets t (nodes t lines) = callTargets t lines := by
  have hnode : ∀ raw, Fragment.callTarget? t (parts t (parts t raw).node).node =
      Fragment.callTarget? t (parts t raw).node := fun raw => by rw [parts_node]
  rw [callTargets, nodes, List.filterMap_map]
  exact congrArg (List.filterMap · lines) (funext hnode)

theorem filter_comments (t : Target) (raw : Text) :
    (comments t raw).filter Statement.isCode = [] := by
  rcases comments_cases t raw with h | h <;> rw [h] <;> rfl

/-- A node never gives a comment. -/
theorem isCode_of_readNode {p' : Progress} {line node : Text} {s : Statement}
    (h : readNode t id rename p offset line node = .ok (p', s)) : s.isCode = true := by
  have hcode := (readNode_eq_ok_iff.1 h).2.1
  cases s with
  | comment c => exact absurd rfl (hcode c)
  | label | file | loc | directive | instruction => rfl

/-- What a line shows does not matter for how its node part is read. -/
theorem readNode_withoutComment (t : Target) (id : Text) (rename : Text → Text) (p : Progress)
    (offset : Nat) (line node : Text) :
    readNode t id rename p offset (Fragments.ofLine t.commentMarkers line).node node =
      (readNode t id rename p offset line node).mapError (Failure.withoutComment t) := by
  rw [readNode_eq, readNode_eq]
  cases hs : Fragment.statement? t node p.current rename with
  | error e =>
    have hfile := Fragment.file?_of_classify_error (Fragment.statement?_eq_error_iff.1 hs)
    rw [Fragment.eq_notNumber_of_file? hfile]
    rfl
  | ok st =>
    cases st with
    | none => rfl
    | some s =>
      rw [ok_bind, ok_bind]
      dsimp only
      cases p.accept s <;> rfl

/-- The node part of a line is read as the line, but for the comment. -/
theorem readLine_node (t : Target) (id : Text) (rename : Text → Text) (p : Progress) (offset : Nat)
    (raw : Text) : readLine t id rename p offset (parts t raw).node =
      ((readLine t id rename p offset raw).map fun r =>
        (r.1, r.2.filter Statement.isCode)).mapError (Failure.withoutComment t) := by
  have hparts := parts_node t raw
  have hcomments : comments t (parts t raw).node = [] := by
    rw [comments, hparts]
    rfl
  have htrim : trim (parts t raw).node = (parts t raw).node :=
    (Fragments.isTrimmed_node (isTrimmed_trim raw)).trim_eq
  by_cases hn : (parts t raw).node = []
  · rw [readLine_of_no_node hn, readLine_of_no_node (by rw [hparts]; exact hn), hcomments, map_ok,
      filter_comments, mapError_ok]
  · rw [readLine_of_node hn, readLine_of_node (by rw [hparts]; exact hn), hcomments, hparts, htrim]
    have hread := readNode_withoutComment t id rename p offset (trim raw) (parts t raw).node
    rw [← parts] at hread
    rw [hread]
    cases hr : readNode t id rename p offset (trim raw) (parts t raw).node with
    | error e => rfl
    | ok r =>
      obtain ⟨p', s⟩ := r
      have hcode := isCode_of_readNode hr
      simp [filter_comments, hcode]

/-- **Comments and blanks at the ends of lines do not matter.** The node parts of the lines of a
body are read if and only if the lines are, as the same function without the comments; reading them
fails at the same line for the same reason. They have the same call targets. -/
theorem read_nodes (t : Target) (id : Text) (rename : Text → Text) (lines : List Text) :
    (∀ g, read t id rename (nodes t lines) = .ok g ↔
      ∃ f, read t id rename lines = .ok f ∧ g = f.withoutComments) ∧
    (∀ e', read t id rename (nodes t lines) = .error e' ↔
      ∃ e, read t id rename lines = .error e ∧ e' = e.withoutComment t ∧ e'.offset? = e.offset?) ∧
    callTargets t (nodes t lines) = callTargets t lines := by
  have hlines := readLines_map (g := List.filter Statement.isCode) rfl
    (fun _ _ => List.filter_append ..) (readLine_node t id rename) .start 0 lines
  have hread : read t id rename (nodes t lines) =
      ((read t id rename lines).map Function.withoutComments).mapError
        (Failure.withoutComment t) := by
    rw [read, nodes, hlines, read]
    cases readLines t id rename .start 0 lines <;> rfl
  rw [hread]
  refine ⟨fun g => ?_, fun e' => ?_, callTargets_nodes t lines⟩
  · cases read t id rename lines <;> simp [eq_comm]
  · cases read t id rename lines with
    | ok f => simp
    | error e =>
      rw [map_error, mapError_error, Except.error.injEq]
      constructor
      · rintro rfl
        exact ⟨e, rfl, rfl, Failure.offset?_withoutComment t e⟩
      · rintro ⟨_, he, rfl, -⟩
        rw [Except.error.inj he]

end Body

end AsmLens
