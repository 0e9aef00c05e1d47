import AsmLens.Proofs.Assembly.BodyRun
import AsmLens.Proofs.Console
import AsmLens.Proofs.Listing.Written

/-!
# A listing read again

A function that is listed with its comments and directives, and without source lines, is read from
its listing as it was, but for the housekeeping labels. Each line of a body gives statements whose
written forms are read as themselves, wherever they stand (`rereads_of_readLine`). So the run over
the statements is repeated by the lines of the listing one by one, and a label that is left out
changes nothing for those after it (`readLines_texts`).
-/

namespace AsmLens.Listing

open Text Fragment

/-- Everything on a line is printed. -/
def IsPrinted (s : Text) : Prop :=
  ∀ c ∈ s, Console.isDropped c = false

/-- The statement is printed as it is written, and read as itself from a line of its own. -/
structure Rereads (t : Target) (st : Statement) : Prop where
  printed : IsPrinted (written st)
  read : ∀ {path : Text} {p p' : Body.Progress} {offset n : Nat}, st.Carries p.current →
    p.accept st = .ok p' →
    Body.readLine t path id p offset (List.replicate n ' ' ++ written st) = .ok (p', [st])

/-- If the line declares a file, it does so without backslashes. -/
def DeclaresPlainly (t : Target) (raw : Text) : Prop :=
  ∀ e, file? t (Body.parts t raw).node = .ok (some e) → '\\' ∉ (Body.parts t raw).node

variable {t : Target} {s : Text} {st : Statement}

/-! ## What is printed -/

theorem clean_of_isPrinted (h : IsPrinted s) : Console.clean s = s :=
  Console.clean_eq_self h

theorem isPrinted_append {a b : Text} (ha : IsPrinted a) (hb : IsPrinted b) : IsPrinted (a ++ b) :=
  fun c hc => (List.mem_append.1 hc).elim (ha c) (hb c)

theorem isPrinted_replicate (n : Nat) : IsPrinted (List.replicate n ' ') := by
  intro c hc
  rw [List.eq_of_mem_replicate hc]
  decide

theorem isPrinted_integer (i : Int) : IsPrinted (integer i) := by
  intro c hc
  rcases mem_integer hc with rfl | hd
  · decide
  · obtain ⟨h₁, h₂⟩ := toNat_of_isDigit hd
    apply Bool.eq_false_iff.2
    intro hb
    obtain ⟨r, hr, hl, hu⟩ := inRanges_iff.1 hb
    simp only [List.mem_cons, List.not_mem_nil, or_false] at hr
    rcases hr with rfl | rfl <;> simp only at hl hu <;> omega

theorem isPrinted_join {as : List Text} (h : ∀ a ∈ as, IsPrinted a) :
    IsPrinted (join separator as) := by
  induction as with
  | nil => exact fun c hc => absurd hc List.not_mem_nil
  | cons a as ih =>
    have ha := h a List.mem_cons_self
    have has := ih fun b hb => h b (List.mem_cons_of_mem _ hb)
    by_cases hnil : as = []
    · rw [hnil, join, List.intercalate_singleton]
      exact ha
    · rw [join_cons hnil]
      have hcomma : IsPrinted [',', ' '] := List.all_iff_forall_prop.1 (by decide)
      exact isPrinted_append ha (isPrinted_append hcomma has)

theorem isPrinted_loc (l : Loc) : IsPrinted (View.directiveText (.loc l)) := by
  have hname : IsPrinted ".loc ".toList := List.all_iff_forall_prop.1 (by decide)
  have hspace : ∀ i, IsPrinted (' ' :: integer i) := fun i =>
    isPrinted_append (isPrinted_replicate 1) (isPrinted_integer i)
  have hfile := isPrinted_append hname (isPrinted_integer l.file)
  exact isPrinted_append (isPrinted_append hfile (hspace l.line)) (hspace l.column)

theorem isPrinted_file {f : FileEntry} (h : IsPrinted f.path) :
    IsPrinted (View.directiveText (.file f)) := by
  have hname : IsPrinted ".file ".toList := List.all_iff_forall_prop.1 (by decide)
  have hopen : IsPrinted " \"".toList := List.all_iff_forall_prop.1 (by decide)
  have hclose : IsPrinted ['"'] := List.all_iff_forall_prop.1 (by decide)
  have hindex := isPrinted_append hname (isPrinted_integer f.index)
  exact isPrinted_append (isPrinted_append (isPrinted_append hindex hopen) h) hclose

/-- An instruction is printed as it is if its parts are. -/
theorem isPrinted_instruction {m : Text} {args : List Text} (hm : IsPrinted m)
    (h : ∀ a ∈ args, IsPrinted a) : IsPrinted (instructionText m args) := by
  obtain ⟨n, -, htext⟩ := instructionText_eq m args
  rw [htext]
  exact isPrinted_append hm (isPrinted_append (isPrinted_replicate n) (isPrinted_join h))

/-! ## A line of a listing -/

theorem trim_replicate_append (n : Nat) (h : IsTrimmed s) :
    trim (List.replicate n ' ' ++ s) = s := by
  rw [trim_append_of_blanks (isBlanks_replicate n), h.trim_eq]

/-- A node part on a line of its own is read as its statement. -/
theorem rereads_of_isWritten (h : IsWritten t (written st) st) (hc : ∀ c, st ≠ .comment c)
    (hp : IsPrinted (written st)) : Rereads t st where
  printed := hp
  read := by
    intro path p p' offset n hcarries haccept
    have hparts : Body.parts t (List.replicate n ' ' ++ written st) = ⟨written st, []⟩ := by
      rw [Body.parts, trim_replicate_append n h.trimmed, Fragments.ofLine_of_unmarked h.unmarked]
    have hcomments : Body.comments t (List.replicate n ' ' ++ written st) = [] := by
      rw [Body.comments, hparts]
      rfl
    have hnode : ∀ line, Body.readNode t path id p offset line (written st) = .ok (p', st) :=
      fun _ => Body.readNode_eq_ok_iff.2 ⟨h.classified _ hcarries, hc, haccept⟩
    rw [Body.readLine_of_node (by rw [hparts]; exact h.ne), hcomments, hparts, hnode]
    rfl

/-- A comment on a line of its own is read as itself. -/
theorem rereads_comment {c : Text} (ht : IsTrimmed c) (hne : c ≠ [])
    (hm : opensComment t c = true) (hp : IsPrinted c) : Rereads t (.comment c) where
  printed := hp
  read := by
    intro path p p' offset n _ haccept
    cases haccept
    have hparts : Body.parts t (List.replicate n ' ' ++ c) = ⟨[], c⟩ := by
      rw [Body.parts, trim_replicate_append n ht, Fragments.ofLine_of_marker hne hm]
    have hcomments : Body.comments t (List.replicate n ' ' ++ c) = [.comment c] := by
      have hc : comment? t c = some (.comment c) := by
        rw [comment?, if_pos]
        simpa [hm] using hne
      rw [Body.comments, hparts]
      simp only
      rw [hc]
      rfl
    show Body.readLine t path id p offset (List.replicate n ' ' ++ c) = .ok (p, [.comment c])
    rw [Body.readLine_of_no_node (by rw [hparts]), hcomments]

/-! ## A line of a body -/

/-- What is written for a statement is printed as it is, if the fragment it was read from is. -/
theorem isPrinted_written {loc : Option Loc} (hw : t.isWindows = false) (hs : IsPrinted s)
    (ht : IsTrimmed s) (hf : ∀ e, file? t s = .ok (some e) → '\\' ∉ s)
    (h : classify t s loc id = .ok (some st)) : IsPrinted (written st) := by
  rcases classify_cases h with hd | ⟨-, ⟨name, hname, rfl⟩ | ⟨-, ⟨-, m, args, hp, rfl⟩ | rfl⟩⟩
  · obtain ⟨-, -, ⟨f, hfile, rfl⟩ | ⟨-, rfl⟩⟩ := directive?_cases hd
    · apply isPrinted_file
      intro c hc
      rcases (isUnquoted_of_file? hw (hf f hfile) hfile).2 c hc with rfl | hc
      · decide
      · exact hs c hc
    · rcases directiveOr_cases t s with ⟨l, -, hor⟩ | ⟨-, hor⟩ <;> rw [hor]
      · exact isPrinted_loc l
      · exact hs
  · have hlabel : s = written (.label name loc) := eq_of_labelName? ht hname
    rwa [← hlabel]
  · obtain ⟨-, -, -, b, rest, -, rfl, rfl⟩ := eq_append_of_isTrimmed ht hp
    show IsPrinted (instructionText m (instructionOf t loc id m (operands rest)).operands)
    rw [instructionOf_operands]
    refine isPrinted_instruction (fun c hc => hs c (List.mem_append_left _ hc)) fun a ha c hc => ?_
    have hrest : c ∈ rest := mem_of_mem_operands ha hc
    exact hs c (List.mem_append_right _ (List.mem_append_right _ hrest))
  · exact hs

section

variable {raw path : Text} {p p' : Body.Progress} {offset : Nat}

theorem isPrinted_node (h : IsPrinted raw) : IsPrinted (Body.parts t raw).node := fun c hc =>
  h c (mem_of_mem_trim ((Fragments.node_begins _ _).subset hc))

theorem isTrimmed_comment (t : Target) (raw : Text) : IsTrimmed (Body.parts t raw).comment where
  start c hc := by
    rcases Fragments.marker_comment t.commentMarkers (trim raw) with hnil | hany
    · rw [Body.parts, hnil] at hc
      cases hc
    · obtain ⟨m, hm, hs⟩ := List.any_eq_true.1 hany
      obtain ⟨rest, hrest⟩ := List.isPrefixOf_iff_prefix.1 hs
      rw [Body.parts, ← hrest] at hc
      rcases Target.mem_commentMarkers hm with rfl | rfl | rfl | rfl <;> cases hc <;> decide
  stop c hc := by
    obtain ⟨front, hfront⟩ := Fragments.comment_suffix t.commentMarkers (trim raw)
    apply (isTrimmed_trim raw).stop c
    have hlast : (Fragments.ofLine t.commentMarkers (trim raw)).comment.getLast? = some c := hc
    rw [← hfront, List.getLast?_append, hlast]
    rfl

theorem rereads_of_mem_comments (hp : IsPrinted raw) (h : st ∈ Body.comments t raw) :
    Rereads t st := by
  rw [Body.comments, comment?] at h
  split at h
  · rename_i hc
    rw [Bool.and_eq_true, Bool.not_eq_true', List.isEmpty_eq_false_iff] at hc
    rw [List.mem_singleton.1 h]
    apply rereads_comment (isTrimmed_comment t raw) hc.1 hc.2
    intro c hmem
    exact hp c (mem_of_mem_trim ((Fragments.comment_suffix _ _).subset hmem))
  · cases h

/-- Every statement of a line is read again from its written form. -/
theorem rereads_of_readLine {ss : List Statement} (hw : t.isWindows = false) (hp : IsPrinted raw)
    (hf : DeclaresPlainly t raw)
    (h : Body.readLine t path id p offset raw = .ok (p', ss)) : ∀ st ∈ ss, Rereads t st := by
  intro st hmem
  rcases Body.readLine_cases h with ⟨-, -, rfl⟩ | ⟨hne, s, hs, rfl⟩
  · exact rereads_of_mem_comments hp hmem
  · rcases List.mem_append.1 hmem with hmem | hmem
    · exact rereads_of_mem_comments hp hmem
    · rw [List.mem_singleton.1 hmem]
      obtain ⟨hclass, hc, -⟩ := Body.readNode_eq_ok_iff.1 hs
      have ht : IsTrimmed (Body.parts t raw).node := Fragments.isTrimmed_node (isTrimmed_trim raw)
      have hu := Fragments.unmarked_node t.commentMarkers (trim raw)
      exact rereads_of_isWritten (isWritten_of_classify hw ht hne hu hf hclass hc) hc
        (isPrinted_written hw (isPrinted_node hp) ht hf hclass)

/-- Statements that were read from printed lines are read again. -/
theorem rereads_of_readLines {lines : List Text} {ss : List Statement} (hw : t.isWindows = false)
    (hp : ∀ l ∈ lines, IsPrinted l) (hf : ∀ l ∈ lines, DeclaresPlainly t l)
    (h : Body.readLines t path id p offset lines = .ok (p', ss)) : ∀ st ∈ ss, Rereads t st := by
  induction lines generalizing p offset ss with
  | nil =>
    cases h
    exact fun st hst => absurd hst List.not_mem_nil
  | cons raw lines ih =>
    obtain ⟨q, ss₁, ss₂, h₁, h₂, rfl⟩ := Body.readLines_cons_eq_ok.1 h
    intro st hmem
    rcases List.mem_append.1 hmem with hmem | hmem
    · have hraw : raw ∈ raw :: lines := List.mem_cons_self
      exact rereads_of_readLine hw (hp raw hraw) (hf raw hraw) h₁ st hmem
    · exact ih (fun l hl => hp l (List.mem_cons_of_mem _ hl))
        (fun l hl => hf l (List.mem_cons_of_mem _ hl)) h₂ st hmem

end

/-! ## A listing -/

/-- A line in pieces as bare text. -/
def plain (ps : List Piece) : Text :=
  Console.clean (ps.flatMap Piece.text)

namespace View

/-- The view shows comments and directives, and neither source lines nor the marks of debugging. -/
structure ShowsStatements (v : View) : Prop where
  rust : v.options.rust = false
  debugMode : v.options.debugMode = false
  comments : v.options.comments = true
  directives : v.options.directives = true

variable (v : View)

/-- A statement that is no housekeeping label. -/
def keeps : Statement → Bool
  | .label name _ => !v.isHousekeeping name
  | _ => true

/-- The bare texts of those statements of a function that a view shows. -/
def texts (f : Function) (ss : List Statement) : List Text :=
  ss.filterMap fun s => (v.render? f (.statement s)).map plain

end View

section

variable {v : View} {f : Function}

theorem shows_statement (hv : v.ShowsStatements) (st : Statement) :
    v.shows (.statement st) = v.keeps st := by
  cases st with
  | label | instruction => rfl
  | comment c =>
    show (v.options.debugMode || v.options.comments) = true
    rw [hv.comments, Bool.or_true]
  | file | loc | directive =>
    show (v.options.debugMode || v.options.directives) = true
    rw [hv.directives, Bool.or_true]

/-- The pieces of an instruction make up its text. -/
theorem text_instructionPieces (i : Instruction) :
    (View.instructionPieces i).flatMap Piece.text = instructionText i.mnemonic i.operands := by
  unfold View.instructionPieces instructionText
  by_cases h : i.operands = []
  · rw [if_pos (by simp [h]), if_pos h]
    exact List.append_nil _
  · rw [if_neg (by simp [h]), if_neg h]
    show padRight 7 i.mnemonic ++ (' ' :: join separator i.operands ++ []) = _
    rw [List.append_nil]

theorem statementPieces_of_isDirective (h : st.isDirective = true) :
    v.statementPieces f st =
      [View.indent (View.depth (v.options.rust && !View.isOwn f st.loc?)),
        ⟨View.directiveText st, none⟩] := by
  cases st with
  | file | loc | directive => rfl
  | label | instruction | comment => cases h

/-- A statement is listed as it is written, behind a margin. -/
theorem text_statementPieces (hv : v.ShowsStatements) (st : Statement) :
    ∃ n, (v.statementPieces f st).flatMap Piece.text = List.replicate n ' ' ++ written st := by
  have hmark : ∀ m, v.whenDebugging m = [] := fun m => by rw [View.whenDebugging, hv.debugMode]; rfl
  have hmargin : View.depth (v.options.rust && !View.isOwn f st.loc?) = 1 := by rw [hv.rust]; rfl
  cases st with
  | label name loc =>
    refine ⟨0, ?_⟩
    rw [View.statementPieces, hmark]
    exact List.append_nil _
  | comment c =>
    refine ⟨1, ?_⟩
    rw [View.statementPieces, hmark, hmargin]
    show [' '] ++ (c ++ []) = [' '] ++ c
    rw [List.append_nil]
  | instruction i =>
    refine ⟨1, ?_⟩
    rw [View.statementPieces, hmark, hmargin, List.append_nil, List.flatMap_cons,
      text_instructionPieces]
    rfl
  | file | loc | directive =>
    refine ⟨1, ?_⟩
    rw [statementPieces_of_isDirective rfl, hmargin]
    exact congrArg (' ' :: ·) (List.append_nil _)

/-- A statement that is shown gives one line: blanks, and what is written for it. -/
theorem texts_cons_of_keeps (hv : v.ShowsStatements) (hp : IsPrinted (written st))
    (h : v.keeps st = true) (f : Function) (ss : List Statement) :
    ∃ n, v.texts f (st :: ss) = (List.replicate n ' ' ++ written st) :: v.texts f ss := by
  obtain ⟨n, hn⟩ := text_statementPieces (f := f) hv st
  have hline : (v.render? f (.statement st)).map plain =
      some (List.replicate n ' ' ++ written st) := by
    rw [View.render?, shows_statement hv, if_pos h, Option.map_some]
    show some (Console.clean ((v.statementPieces f st).flatMap Piece.text)) = _
    rw [hn, clean_of_isPrinted (isPrinted_append (isPrinted_replicate n) hp)]
  exact ⟨n, List.filterMap_cons_some hline⟩

/-- A statement that is not shown gives none. -/
theorem texts_cons_of_not_keeps {ss : List Statement} (hv : v.ShowsStatements)
    (h : v.keeps st = false) : v.texts f (st :: ss) = v.texts f ss := by
  have hline : (v.render? f (.statement st)).map plain = none := by
    rw [View.render?, shows_statement hv, if_neg (by simp [h])]
    rfl
  exact List.filterMap_cons_none hline

/-- Only labels are left out, and these do not move the progress on. -/
theorem accept_of_not_keeps {p : Body.Progress} (h : v.keeps st = false) : p.accept st = .ok p := by
  cases st with
  | label => rfl
  | file | loc | directive | instruction | comment => cases h

/-- A run over statements is repeated by the lines of their listing. -/
theorem readLines_texts {path : Text} {p p' : Body.Progress} {ss : List Statement}
    (hv : v.ShowsStatements) (hr : ∀ st ∈ ss, Rereads v.target st) (h : Body.Reads p ss p')
    (offset : Nat) :
    Body.readLines v.target path id p offset (v.texts f ss) = .ok (p', ss.filter v.keeps) := by
  induction h generalizing offset with
  | nil => rfl
  | @cons p q p'' st ss carries accepts _ ih =>
    have hst := hr st List.mem_cons_self
    have hrest := fun offset => ih (fun s hs => hr s (List.mem_cons_of_mem _ hs)) offset
    cases hk : v.keeps st with
    | true =>
      obtain ⟨n, htexts⟩ := texts_cons_of_keeps hv hst.printed hk f ss
      rw [htexts, List.filter_cons_of_pos hk]
      exact Body.readLines_cons_eq_ok.2 ⟨q, [st], _, hst.read carries accepts, hrest _, rfl⟩
    | false =>
      have hq : p = q := Except.ok.inj ((accept_of_not_keeps hk).symm.trans accepts)
      rw [texts_cons_of_not_keeps hv hk, List.filter_cons_of_neg (by simp [hk]), hq]
      exact hrest offset

end

/-- **A listing is read as what was listed.** A function that is shown with its comments and
directives, and without source lines, is read from these lines as it was, but for the housekeeping
labels. The lines it was read from must have nothing that is not printed, and files must be declared
without backslashes. -/
theorem read_texts {v : View} {path : Text} {lines : List Text} {f : Function}
    (hv : v.ShowsStatements) (hw : v.target.isWindows = false) (hp : ∀ l ∈ lines, IsPrinted l)
    (hf : ∀ l ∈ lines, DeclaresPlainly v.target l) (h : Body.read v.target path id lines = .ok f) :
    Body.read v.target path id (v.texts f f.statements) =
      .ok { f with statements := f.statements.filter v.keeps } := by
  obtain ⟨p, ss, hlines, rfl⟩ := Body.read_eq_ok_iff.1 h
  have hr := rereads_of_readLines hw hp hf hlines
  have hrun := Body.reads_of_readLines hlines
  exact Body.read_eq_ok_iff.2 ⟨p, _, readLines_texts hv hr hrun 0, rfl⟩

/-- Every kind of statement, with a housekeeping label before the location it does not carry. -/
theorem read_texts_of_every_kind :
    let v : View := ⟨⟨"x86_64-unknown-linux-gnu".toList⟩, [],
      { Options.standard with comments := true, directives := true }⟩
    let lines := [".p2align 4".toList, ".file 1 \"src\" \"a.rs\"".toList, ".Ltmp0:".toList,
      ".loc 1 20 05 is_stmt 0 # at the call".toList, ".LBB0_1:".toList,
      "mov  eax,[rsi , 1]  ".toList, "ret".toList]
    let listing := [" .p2align 4".toList, " .file 1 \"src/a.rs\"".toList,
      " # at the call".toList, " .loc 1 20 5".toList, ".LBB0_1:".toList,
      " mov     eax, [rsi , 1]".toList, " ret".toList]
    ∃ f, Body.read v.target "f".toList id lines = .ok f ∧ v.texts f f.statements = listing ∧
      Body.read v.target "f".toList id listing =
        .ok { f with statements := f.statements.filter v.keeps } := by
  intro v lines listing
  let at20 : Option Loc := some ⟨1, 20, 5⟩
  let f : Function :=
    ⟨"f".toList, some ⟨"src/a.rs".toList, 1⟩, at20,
      [.directive ".p2align 4".toList, .file ⟨"src/a.rs".toList, 1⟩,
        .label ".Ltmp0".toList none, .comment "# at the call".toList, .loc ⟨1, 20, 5⟩,
        .label ".LBB0_1".toList at20,
        .instruction ⟨"mov".toList, ["eax".toList, "[rsi , 1]".toList], at20, false, false⟩,
        .instruction ⟨"ret".toList, [], at20, false, false⟩]⟩
  have hread : Body.read v.target "f".toList id lines = .ok f :=
    toOption_eq_some_iff.1 (by decide +kernel)
  have htexts : v.texts f f.statements = listing := by decide +kernel
  have hall : ∀ l ∈ lines, (l.all fun c => decide (Console.isDropped c = false)) = true := by
    decide +kernel
  have hprinted : ∀ l ∈ lines, IsPrinted l := fun l hl => List.all_iff_forall_prop.1 (hall l hl)
  have hplain : ∀ l ∈ lines, '\\' ∉ (Body.parts v.target l).node := by decide +kernel
  have hagain := read_texts (v := v) ⟨rfl, rfl, rfl, rfl⟩ (by decide) hprinted
    (fun l hl _ _ => hplain l hl) hread
  rw [htexts] at hagain
  exact ⟨f, hread, htexts, hagain⟩

end AsmLens.Listing
