import AsmLens.Proofs.Showing

/-!
# A run writes last

All that can fail in a run comes before it writes to the output (`WritesLast`), so a run that does
not end well has written nothing. Until then it puts the questions for the build, the package and
the sysroot, in this order, each at most once, and stops where one is not answered. The sysroot is
asked for only if assembly is shown, a function was found, and a source path that it refers to is
displaced (`NeedsSysroot`).
-/

namespace AsmLens

open Text

namespace Toolchain

/-- Whatever was done before, the action puts the first of some questions, the one for the sysroot
only for the reason `R`, and has written nothing unless it comes to exit code 0. -/
def WritesLast (t : Toolchain) (a : Action Int) (asked : List Query) (R : Prop) : Prop :=
  ∃ r qs out, t.Does a r qs out ∧ qs <+: asked ∧ (.sysroot ∈ qs → R) ∧ (r ≠ .ok 0 → out = [])

namespace WritesLast

variable {t : Toolchain} {α : Type} {a : Action α} {b : Action Int} {f : α → Action Int}
  {asked qs : List Query} {q : Query} {R R' : Prop}

/-- The last step. -/
theorem done {r : Except Failure Int} {out : Text} (h : t.Does b r [] out)
    (hlast : r ≠ .ok 0 → out = []) : t.WritesLast b asked R :=
  ⟨r, [], out, h, List.nil_prefix, fun hmem => absurd hmem List.not_mem_nil, hlast⟩

theorem mono (hR : R → R') (h : t.WritesLast b asked R) : t.WritesLast b asked R' := by
  obtain ⟨r, qs, out, hdoes, hprefix, hreason, hlast⟩ := h
  exact ⟨r, qs, out, hdoes, hprefix, hR ∘ hreason, hlast⟩

/-- A step that writes nothing goes before what writes last. -/
theorem bind (ha : t.Asks a qs) (hR : .sysroot ∈ qs → R)
    (hf : ∀ x, (∀ j, (a.outcome j).1 = .ok x) → t.WritesLast (f x) asked R) :
    t.WritesLast (a >>= f) (qs ++ asked) R := by
  obtain ⟨r, ha⟩ := ha
  cases r with
  | error e => exact ⟨_, qs, [], ha.bind_error, List.prefix_append .., hR, fun _ => rfl⟩
  | ok x =>
    obtain ⟨r, qs', out, hdoes, hprefix, hreason, hlast⟩ := hf x ha.outcome
    refine ⟨r, qs ++ qs', out, ha.bind hdoes, (List.prefix_append_right_inj qs).2 hprefix,
      fun hmem => ?_, hlast⟩
    rcases List.mem_append.1 hmem with hmem | hmem
    · exact hR hmem
    · exact hreason hmem

/-- A step that asks nothing. -/
theorem bind_nil (ha : t.Asks a [])
    (hf : ∀ x, (∀ j, (a.outcome j).1 = .ok x) → t.WritesLast (f x) asked R) :
    t.WritesLast (a >>= f) asked R :=
  bind ha (fun hmem => absurd hmem List.not_mem_nil) hf

theorem bind_ofExcept {x : Except Failure α} (hf : ∀ v, x = .ok v → t.WritesLast (f v) asked R) :
    t.WritesLast (Action.ofExcept x >>= f) asked R := by
  refine bind_nil (asks_ofExcept t x) fun v hv => hf v ?_
  have hv := hv .empty
  rwa [Action.outcome_ofExcept] at hv

/-- A step that puts a question, other than the one for the sysroot. -/
theorem bind_question (ha : t.AsksOrFails a q) (hq : q ≠ .sysroot)
    (hf : ∀ x, (∀ j, (a.outcome j).1 = .ok x) → t.WritesLast (f x) asked R) :
    t.WritesLast (a >>= f) (q :: asked) R := by
  rcases ha with ha | ⟨e, ha⟩
  · exact bind ha (fun hmem => absurd (List.mem_singleton.1 hmem).symm hq) hf
  · exact done ha.bind_error fun _ => rfl

/-- Handling a failure may write nothing. -/
theorem tryCatch {handle : Failure → Action Int} (h : t.WritesLast b asked R)
    (hhandle : ∀ e, t.Asks (handle e) []) : t.WritesLast (tryCatch b handle) asked R := by
  obtain ⟨r, qs, out, hdoes, hprefix, hreason, hlast⟩ := h
  cases r with
  | ok code => exact ⟨_, qs, out, hdoes.catch_ok, hprefix, hreason, hlast⟩
  | error e =>
    obtain ⟨r, hr⟩ := hhandle e
    cases hlast nofun
    have hboth := hdoes.catch_error hr
    rw [List.append_nil] at hboth
    exact ⟨r, qs, [], hboth, hprefix, hreason, fun _ => rfl⟩

end WritesLast

end Toolchain

namespace Session

variable {t : Toolchain} {w : Workspace} {f : Found} {asked : List Query} {R : Prop}

/-- The package is built, the output of the build is there, and the function asked for is found in
it. -/
structure Finds (t : Toolchain) (f : Found) : Prop where
  built : ∀ j, (t.build.outcome j).1 = .ok ()
  located : ∃ directory places, (∀ j, (t.targetDirectory.outcome j).1 = .ok directory) ∧
    t.outputFiles directory = .ok places ∧
    (Locator.locate (Demangler.new t.target t.workspace.demangler? t.workspace.demangling)
      (t.options.path.str?.getD []) (places.map fun p => t.workspace.files.readText p.toText)).1 =
        .ok (.found f)

/-- The sysroot has to be known: a function was found that refers to a displaced source path. -/
def NeedsSysroot (t : Toolchain) : Prop :=
  t.options.showsIr = false ∧ ∃ f, Finds t f ∧ RefersToDisplaced t f

/-! ## The steps of a run -/

theorem writesLast_write (t : Toolchain) (text : Text) :
    t.WritesLast (do write t text; return 0) asked R :=
  .done ((Toolchain.Does.write t _).bind (.pure t 0)) fun h => absurd rfl h

theorem writesLast_reportNotFound (t : Toolchain) (names : List Text) :
    t.WritesLast (reportNotFound t names) asked R := by
  unfold reportNotFound
  split
  · exact writesLast_write t _
  · exact .done ((Toolchain.Does.report t _).bind (.pure t 1)) fun _ => rfl

theorem writesLast_printListing (t : Toolchain) (o : Options) (f : Function) (s : Sources) :
    t.WritesLast (do printListing t o f s; return 0) asked R := by
  unfold printListing
  split
  · exact writesLast_write t _
  · exact writesLast_write t _

theorem writesLast_showCorrelated (t : Toolchain) (f : Found) (c : Correlation) :
    t.WritesLast (showCorrelated t f c) asked R := by
  unfold showCorrelated
  split
  · exact .bind_nil ⟨_, .warn t _⟩ fun _ _ => writesLast_printListing t ..
  · exact writesLast_printListing t ..

/-- Showing a function asks for the sysroot at most, and then writes. -/
theorem writesLast_showFunction (t : Toolchain) (f : Found) :
    t.WritesLast (showFunction t f) [.sysroot] (RefersToDisplaced t f) := by
  rw [showFunction_eq]
  rcases asks_correlation t f with h | ⟨h, hdisplaced⟩
  · exact .bind_nil h fun c _ => writesLast_showCorrelated t f c
  · exact .bind h (fun _ => hdisplaced) fun c _ => writesLast_showCorrelated t f c

/-- A search writes last if what shows the result does. -/
theorem writesLast_search {α : Type} {locate : Demangler → Text → List (Except Failure Text) →
      Except Failure (Located α) × Demangler} {present : α → Action Int}
    {files : List (Except Failure Text)}
    (h : ∀ x, (locate (Demangler.new t.target t.workspace.demangler? t.workspace.demangling)
      (t.options.path.str?.getD []) files).1 = .ok (.found x) →
        t.WritesLast (present x) asked R) :
    t.WritesLast (search t locate present files) asked R := by
  unfold search
  dsimp only
  refine .bind_nil ⟨_, .modify t (fun _ => rfl) fun _ => rfl⟩ fun _ _ => ?_
  refine .bind_ofExcept fun located hlocated => ?_
  cases located with
  | found x => exact h x hlocated
  | notFound names => exact writesLast_reportNotFound t names

/-- A run asks for the build, the place of its files and the sysroot at most, in this order, and then
writes. -/
theorem writesLast_inspect (t : Toolchain) :
    t.WritesLast (inspect t) [.build, .metadata, .sysroot] (NeedsSysroot t) := by
  unfold inspect
  refine .bind_question t.build_asks (by decide) fun _ hbuilt => ?_
  refine .bind_question t.targetDirectory_asks (by decide) fun directory hdirectory => ?_
  refine .bind_ofExcept fun places hplaces => ?_
  split
  · exact writesLast_search fun d _ => writesLast_write t _
  case isFalse hir =>
    refine writesLast_search fun f hfound => ?_
    refine (writesLast_showFunction t f).mono fun hdisplaced => ?_
    exact ⟨Bool.eq_false_iff.2 hir, f, ⟨hbuilt, directory, places, hdirectory, hplaces, hfound⟩,
      hdisplaced⟩

/-- Handling a failure reports it, or ends the run as it is. -/
theorem writesLast_guarded {a : Action Int} (h : t.WritesLast a asked R) :
    t.WritesLast (guarded w a) asked R := by
  refine h.tryCatch fun e => ?_
  split
  · exact ⟨_, .pure t 130⟩
  · exact Toolchain.Asks.bind ⟨_, .report t _⟩ fun _ => ⟨_, .pure t 1⟩
  · exact ⟨_, .throw t _⟩

/-- Loading the settings asks and writes nothing. -/
theorem asks_options (t : Toolchain) (w : Workspace) (args : Json.Fields) :
    t.Asks (options w args) [] := by
  unfold options Settings.load
  refine Toolchain.Asks.bind ?_ fun _ => Toolchain.asks_ofExcept t _
  refine (Toolchain.asks_ofExcept t _).bind fun _ => ?_
  refine (Toolchain.asks_ofExcept t _).bind fun ⟨settings, warning⟩ => ?_
  dsimp only
  split
  · exact Toolchain.Asks.bind ⟨_, .warn t _⟩ fun _ => ⟨_, .pure t _⟩
  · exact ⟨_, .pure t _⟩

end Session

/-! ## The mode -/

theorem CommandLine.mode_of_switchesOf {mode : Text} {ss : List Switch}
    (h : switchesOf mode = .ok ss) : mode = Options.asmMode ∨ mode = Options.irMode := by
  unfold switchesOf at h
  split at h
  case h_2 => cases h
  case h_1 hlookup =>
    have hmem := (lookup_eq_some_iff_mem (by decide)).1 hlookup
    have hname : mode ∈ Switch.modes.map Prod.fst := List.mem_map_of_mem hmem
    rwa [Switch.modes, List.map_cons, List.map_singleton, List.mem_pair] at hname

theorem CommandLine.eq_of_accept {surplus : List Text} {fields args : Json.Fields}
    (h : accept surplus fields = .ok args) : args = fields := by
  unfold accept at h
  split at h
  · exact (Except.ok.inj h).symm
  · cases h

/-- A command line that gives arguments selects a mode. -/
theorem CommandLine.command_of_parse {words : List Text} {args : Json.Fields}
    (h : parse words = .ok args) (hargs : args ≠ []) :
    ∃ mode, (mode = Options.asmMode ∨ mode = Options.irMode) ∧
      Options.given args "command" = .str mode := by
  obtain ⟨ws, -, h⟩ := bind_eq_ok.1 h
  obtain ⟨⟨surplus, selected⟩, -, h⟩ := bind_eq_ok.1 h
  cases selected with
  | none => exact absurd (eq_of_accept h) hargs
  | some selected =>
    obtain ⟨mode, rest⟩ := selected
    obtain ⟨ss, hss, h⟩ := bind_eq_ok.1 h
    obtain ⟨p, -, h⟩ := bind_eq_ok.1 h
    cases eq_of_accept h
    exact ⟨mode, mode_of_switchesOf hss, rfl⟩

/-- The mode that is selected is the mode of the run. -/
theorem Options.mode_of_ofLayers {args settings : Json.Fields} {o : Options} {mode : Json.Str}
    (h : ofLayers args settings = .ok o) (hmode : given args "command" = .str mode)
    (hne : mode ≠ []) : o.mode = .str mode := by
  obtain ⟨features, -, h⟩ := bind_eq_ok.1 h
  obtain ⟨gap, -, h⟩ := bind_eq_ok.1 h
  cases h
  have htruthy : (Json.str mode).truthy = true := by
    rw [Json.truthy, Bool.not_eq_true', List.isEmpty_eq_false_iff]
    exact hne
  show (if _ then _ else _ : Json) = _
  rw [hmode, if_pos htruthy]

namespace Session

variable {t : Toolchain} {w : Workspace} {words : List Text} {args : Json.Fields} {o : Options}

/-- A run that does not show LLVM IR shows assembly. -/
theorem mode_of_options (hparse : CommandLine.parse words = .ok args) (hargs : args ≠ [])
    (ho : ((options w args).outcome .empty).1 = .ok o) (hir : o.showsIr = false) :
    o.mode = .str Options.asmMode := by
  obtain ⟨mode, hmode, hgiven⟩ := CommandLine.command_of_parse hparse hargs
  have hlayers : ∃ settings, Options.ofLayers args settings = .ok o := by
    rw [options, Action.outcome_bind] at ho
    split at ho
    · rw [Action.outcome_ofExcept] at ho
      exact ⟨_, ho⟩
    · cases ho
  obtain ⟨settings, hlayers⟩ := hlayers
  rcases hmode with rfl | rfl
  · exact Options.mode_of_ofLayers hlayers hgiven (by decide)
  · have hmode := Options.mode_of_ofLayers hlayers hgiven (by decide)
    rw [Options.showsIr, hmode] at hir
    cases hir

/-! ## The run -/

/-- The toolchain of a run with known options. -/
def toolchain (w : Workspace) (o : Options) : Toolchain :=
  ⟨{ w with files := (Settings.prepare w.files w.home).2 }, o,
    Target.ofTriple w.host o.triple.str?⟩

/-- The commands of a journal put the first of the questions, the one for the sysroot only for the
reason `R`. -/
def CommandsFor (t : Toolchain) (j : Journal) (R : Prop) : Prop :=
  ∃ qs, qs <+: [.build, .metadata, .sysroot] ∧ j.commands.map .ok = qs.map t.command? ∧
    (.sysroot ∈ qs → R)

/-- How a run ends that comes to an outcome. -/
def endingOf : Except Failure Int → Ending
  | .ok code => .exit code
  | .error e => .failed e

theorem finish_eq (t : Toolchain) (j : Journal) (logs : List LogTarget) :
    finish t j logs =
      ⟨endingOf ((guarded t.workspace (inspect t)).outcome j).1, logs,
        ((guarded t.workspace (inspect t)).outcome j).2⟩ := by
  unfold finish
  rcases (guarded t.workspace (inspect t)).outcome j with ⟨code | e, j'⟩
  · rfl
  · rfl

/-- What a toolchain's run leaves if nothing was done before. -/
theorem finish_writes_last {j : Journal} (hcommands : j.commands = []) (houtput : j.output = [])
    (logs : List LogTarget) :
    ((finish t j logs).ending ≠ .exit 0 → (finish t j logs).journal.output = []) ∧
      CommandsFor t (finish t j logs).journal (NeedsSysroot t) := by
  obtain ⟨x, qs, out, hdoes, hprefix, hreason, hlast⟩ :=
    writesLast_guarded (w := t.workspace) (writesLast_inspect t)
  obtain ⟨cs, hcs, hqs⟩ := hdoes.commands j
  have hout := hdoes.output j
  rw [hcommands, List.nil_append] at hcs
  rw [houtput, List.nil_append] at hout
  rw [finish_eq, hdoes.outcome]
  refine ⟨fun hending => ?_, qs, hprefix, ?_, hreason⟩
  · show ((guarded t.workspace (inspect t)).outcome j).2.output = []
    rw [hout]
    refine hlast fun hx => hending ?_
    rw [hx]
    rfl
  · show ((guarded t.workspace (inspect t)).outcome j).2.commands.map Except.ok = _
    rw [hcs, hqs]

/-- A command line that is read starts a run. -/
theorem run_eq_start (hparse : CommandLine.parse words = .ok args) (hargs : args ≠ []) :
    run w words = start w args := by
  rw [run, hparse]
  cases args with
  | nil => exact absurd rfl hargs
  | cons a args => rfl

/-- What a run with arguments leaves. -/
theorem start_writes_last (w : Workspace) (args : Json.Fields) :
    ((start w args).ending ≠ .exit 0 → (start w args).journal.output = []) ∧
    ((start w args).journal.commands ≠ [] → ∃ o, ((options w args).outcome .empty).1 = .ok o ∧
      CommandsFor (toolchain w o) (start w args).journal (NeedsSysroot (toolchain w o))) := by
  -- Before its options are known a run has no toolchain, so any will do.
  obtain ⟨r, hr⟩ := asks_options (toolchain w .standard) w args
  obtain ⟨cs, hcommands, hqs⟩ := hr.commands .empty
  have houtput := hr.output .empty
  cases List.map_eq_nil_iff.1 hqs
  unfold start
  rcases ho : (options w args).outcome .empty with ⟨e | o, j⟩
  · rw [ho] at hcommands houtput
    exact ⟨fun _ => houtput, fun h => absurd hcommands h⟩
  · rw [ho] at hcommands houtput
    dsimp only
    rcases logTargets w o with ⟨logs, _ | e⟩
    · obtain ⟨hlast, hfor⟩ := finish_writes_last (t := toolchain w o) hcommands houtput logs
      exact ⟨hlast, fun _ => ⟨o, rfl, hfor⟩⟩
    · exact ⟨fun _ => houtput, fun h => absurd hcommands h⟩

/-- **No partial output.** A run that does not end with exit code 0 has written nothing to the
output, whatever stopped it. Its commands put the questions for the build, the package and the
sysroot, from the first on without a gap and each once; the one for the sysroot only if assembly is
shown, a function was found, and a source path that it refers to, after resolution against the
manifest's directory, is not there and leads into the standard library. -/
theorem run_writes_last (hparse : CommandLine.parse words = .ok args) (hargs : args ≠ []) :
    let r := run w words
    (r.ending ≠ .exit 0 → r.journal.output = []) ∧
    (r.journal.commands ≠ [] → ∃ o, ((options w args).outcome .empty).1 = .ok o ∧
      CommandsFor (toolchain w o) r.journal (o.mode = .str Options.asmMode ∧
        ∃ f, Finds (toolchain w o) f ∧ RefersToDisplaced (toolchain w o) f)) := by
  obtain ⟨hlast, hfor⟩ := start_writes_last w args
  rw [run_eq_start hparse hargs]
  refine ⟨hlast, fun hcommands => ?_⟩
  obtain ⟨o, ho, qs, hprefix, hqs, hreason⟩ := hfor hcommands
  refine ⟨o, ho, qs, hprefix, hqs, fun hmem => ?_⟩
  obtain ⟨hir, hfinds⟩ := hreason hmem
  exact ⟨mode_of_options hparse hargs ho hir, hfinds⟩

/-- The function was found, but the compiler does not tell the sysroot that a source path of the
function needs. -/
theorem run_writes_last_of_unanswered :
    let assembly := "_f:\n.file 1 \"/rustc/1a/library/core/src/a.rs\"\n.loc 1 2 0\nret\n".toList ++
      ".cfi_endproc\n".toList
    let place : Place := ["t".toList, "release".toList, "a.s".toList]
    let answers : Query → CommandAnswer := fun
      | .build => .finished 0 [] []
      | .metadata => .finished 0 "\x7b\"target_directory\": \"/t\"\x7d".toList []
      | .sysroot => .finished 1 [] "no".toList
    let w : Workspace :=
      ⟨⟨"/w".toList, [(place, encode assembly)], [], []⟩, "/h".toList, [], ⟨[], []⟩,
        [("cargo".toList, "/cargo".toList)], fun _ _ => .finished 0 [] [], answers, fun _ => 1⟩
    let words := ["asm".toList, "_f".toList]
    ∃ args, (CommandLine.parse words = .ok args ∧ args ≠ [] ∧ (run w words).ending = .exit 1) ∧
      (run w words).journal.output = [] ∧ ∃ o, ((options w args).outcome .empty).1 = .ok o ∧
        (run w words).journal.commands.map Except.ok =
          [.build, .metadata, .sysroot].map (toolchain w o).command? ∧
        ∃ f, Finds (toolchain w o) f ∧ RefersToDisplaced (toolchain w o) f := by
  intro assembly place answers w words
  have hread : (CommandLine.parse words).toOption.map List.isEmpty = some false := by decide +kernel
  obtain ⟨args, hparse, hempty⟩ := Option.map_eq_some_iff.1 hread
  have hparse := toOption_eq_some_iff.1 hparse
  have hargs := List.isEmpty_eq_false_iff.1 hempty
  have hending : (run w words).ending = .exit 1 := by decide +kernel
  have hlength : (run w words).journal.commands.length = 3 := by decide +kernel
  obtain ⟨hlast, hfor⟩ := run_writes_last (w := w) hparse hargs
  obtain ⟨o, ho, qs, hprefix, hqs, hreason⟩ := hfor (List.ne_nil_of_length_eq_add_one hlength)
  have hcount : qs.length = 3 := by
    have h := congrArg List.length hqs
    rwa [List.length_map, List.length_map, hlength, eq_comm] at h
  cases hprefix.eq_of_length hcount
  exact ⟨args, ⟨hparse, hargs, hending⟩, hlast (by rw [hending]; decide), o, ho, hqs,
    (hreason (by decide)).2⟩

end Session

end AsmLens
