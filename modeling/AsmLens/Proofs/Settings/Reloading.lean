import AsmLens.Proofs.Json.Nesting
import AsmLens.Proofs.Json.Writing
import AsmLens.Proofs.Settings.Loading

/-!
# Settings that were stored

Settings in force have every known name first, in its place, and no name twice (`InForce`): loading
gives such settings, and setting one of them keeps them so. Stored and loaded again, they are
therefore what they were, down to the order of the names, after any number of settings, if the
reader goes as deep as they are nested (`reloads_assignAll`). A reader that does not go as deep as
the writer fails for some settings that could be stored, and the two halves of a surrogate pair come
back as one character (`settings_lost`).
-/

namespace AsmLens.Settings

open Text

variable {reading writing fresh : Nat} {fs fs' : FileSystem} {home : Text} {name : Json.Str}
  {value : Json} {settings last : Json.Fields} {calls : Json.Fields} {j : Journal} {p : Place}

/-- Sets settings one after the other: the settings in force and the files in the end, or the first
failure. -/
def assignAll (writing : Nat) (home : Text) :
    FileSystem → Json.Fields → Json.Fields → Except Failure (Json.Fields × FileSystem)
  | fs, settings, [] => .ok (settings, fs)
  | fs, settings, (name, value) :: calls =>
    match assign writing fs home settings name value with
    | (settings, .ok _, fs) => assignAll writing home fs settings calls
    | (_, .error e, _) => .error e

/-- A setting that is stored and loaded as it is: without binary fractions, integers of too many
digits, names that come twice in an object, and the halves of a pair side by side. -/
def IsKept (f : Json.Str × Json) : Prop :=
  f.1.IsJoined ∧ f.2.IsExact ∧ f.2.IsReadable

/-- Settings as they are in force: the known names come first, in their order, no name comes twice,
and each is kept. -/
structure InForce (settings : Json.Fields) : Prop where
  known : Options.defaultSettings.map Prod.fst <+: settings.map Prod.fst
  nodup : (settings.map Prod.fst).Nodup
  kept : ∀ f ∈ settings, IsKept f

/-- A name that is a text can be kept. -/
theorem isKept_of_text (name : Text) (hexact : value.IsExact) (hread : value.IsReadable) :
    IsKept (name, value) :=
  ⟨Json.Str.isJoined_ofText name, hexact, hread⟩

theorem isKept_of_mem_default {f : Json.Str × Json} (h : f ∈ Options.defaultSettings) :
    IsKept f := by
  have htext : ∀ t : Text, (Json.str t).IsReadable := fun t => .str (Json.Str.isJoined_ofText t)
  simp only [Options.defaultSettings, List.mem_cons, List.not_mem_nil, or_false] at h
  rcases h with rfl | rfl | rfl | rfl | rfl | rfl | rfl | rfl
  · exact isKept_of_text _ (.str _) (htext _)
  · exact isKept_of_text _ (.str _) (htext _)
  · exact isKept_of_text _ (.bool _) (.bool _)
  · exact isKept_of_text _ (.bool _) (.bool _)
  · exact isKept_of_text _ (.bool _) (.bool _)
  · exact isKept_of_text _ (.bool _) (.bool _)
  · exact isKept_of_text _ (.int _) (.int (show (natural 5).length ≤ maxDigits by decide))
  · exact isKept_of_text _ .null .null

theorem inForce_default : InForce Options.defaultSettings :=
  ⟨List.prefix_rfl, by decide +kernel, fun _ h => isKept_of_mem_default h⟩

/-- What is set is in force, with all that was. -/
theorem InForce.set (h : InForce settings) (hnew : IsKept (name, value)) :
    InForce (Json.set name value settings) := by
  refine ⟨?_, Json.nodup_names_set h.nodup, fun f hf => ?_⟩
  · rw [Json.names_set]
    exact h.known.trans (List.prefix_append _ _)
  · rcases Json.mem_of_mem_set hf with rfl | hf
    · exact hnew
    · exact h.kept f hf

/-- Settings that are loaded are in force, if there are no binary fractions among them. -/
theorem inForce_of_load (h : ((load reading fs home).outcome j).1 = .ok settings)
    (hexact : (Json.obj settings).IsExact) : InForce settings := by
  obtain ⟨fields, w, hstored, rfl⟩ : ∃ fields w,
      stored reading (prepare fs home).2 home = .ok (fields, w) ∧
        settings = Json.merge Options.defaultSettings fields := by
    cases hready : (prepare fs home).1 with
    | error e =>
      rw [outcome_load_of_error hready] at h
      cases h
    | ok =>
      rw [outcome_load hready] at h
      rcases hstored : stored reading (prepare fs home).2 home with e | ⟨fields, _ | w⟩
      · rw [hstored] at h
        cases h
      · rw [hstored] at h
        cases h
        exact ⟨fields, none, rfl, rfl⟩
      · rw [hstored] at h
        cases h
        exact ⟨fields, some w, rfl, rfl⟩
  refine ⟨Json.prefix_names_merge _ _, Json.nodup_names_merge inForce_default.nodup _,
    fun f hf => ?_⟩
  have hf' := Json.isExact_obj_iff.1 hexact f hf
  rcases Json.mem_of_mem_merge hf with hf | hf
  · exact isKept_of_mem_default hf
  · cases isReadable_of_stored hstored with
    | obj _ hjoined hfields => exact ⟨hjoined f hf, hf', hfields f hf⟩

theorem InForce.isExact (h : InForce settings) : (Json.obj settings).IsExact :=
  Json.isExact_obj_iff.2 fun f hf => (h.kept f hf).2.1

theorem InForce.isReadable (h : InForce settings) : (Json.obj settings).IsReadable :=
  .obj h.nodup (fun f hf => (h.kept f hf).1) fun f hf => (h.kept f hf).2.2

/-! ## Storing -/

/-- **What storing settings does** to a file that can be written: the settings are in it, or, if
they are nested too deeply, a beginning of their text. -/
theorem save_ends (h : InForce settings) (hready : (prepare fs home).1 = .ok ())
    (hp : (prepare fs home).2.writable (path home) = .ok p) :
    let text := Json.print (.obj settings)
    ((Json.obj settings).depth ≤ writing →
      save writing fs home settings = (.ok (), (prepare fs home).2.put p (encode text))) ∧
    (writing < (Json.obj settings).depth → ∃ s, s <+: text ∧
      save writing fs home settings = (.error .tooDeep, (prepare fs home).2.put p (encode s))) := by
  intro text
  have hsave : save writing fs home settings = ((Json.written writing (.obj settings)).1,
      (prepare fs home).2.put p (encode (Json.written writing (.obj settings)).2)) := by
    have hwrite : ∀ t, (prepare fs home).2.write (path home) t =
        .ok ((prepare fs home).2.put p (encode t)) := fun t => by
      rw [FileSystem.write, hp]
      rfl
    rw [save]
    rcases hprepare : prepare fs home with ⟨e | _, ready⟩
    · rw [hprepare] at hready
      cases hready
    · rw [hprepare] at hwrite
      dsimp only
      rw [hwrite]
  refine ⟨fun hd => ?_, fun hd => ?_⟩
  · rw [hsave, Json.written_of_depth_le h.isReadable hd]
  · obtain ⟨s, hs, hwritten⟩ := Json.written_of_lt_depth h.isReadable hd
    exact ⟨s, hs, by rw [hsave, hwritten]⟩

/-- Settings that were stored are in the file, and its directory is there. -/
theorem found_of_save (h : InForce settings)
    (hsave : save writing fs home settings = (.ok (), fs')) :
    (Json.obj settings).depth ≤ writing ∧ (prepare fs' home).1 = .ok () ∧
      (prepare fs' home).2.find? (path home) =
        some (.file (encode (Json.print (.obj settings)))) := by
  rw [save] at hsave
  rcases hprepare : prepare fs home with ⟨e | _, ready⟩
  · rw [hprepare] at hsave
    cases hsave
  rw [hprepare] at hsave
  dsimp only at hsave
  cases hwrite : ready.write (path home) (Json.written writing (.obj settings)).2 with
  | error e =>
    rw [hwrite] at hsave
    cases hsave
  | ok after =>
    rw [hwrite] at hsave
    obtain ⟨hwritten, rfl⟩ := Prod.mk.inj hsave
    have hdepth : (Json.obj settings).depth ≤ writing := by
      refine Nat.le_of_not_lt fun hd => ?_
      obtain ⟨s, -, hstop⟩ := Json.written_of_lt_depth h.isReadable hd
      rw [hstop] at hwritten
      cases hwritten
    rw [Json.written_of_depth_le h.isReadable hdepth] at hwrite
    have hready : fs.makeDirectory (directory home) = (.ok (), ready) := hprepare
    have hagain : (fs.makeDirectory (directory home)).2.write (path home)
        (Json.print (.obj settings)) = .ok after := by
      rw [hready]
      exact hwrite
    exact ⟨hdepth, FileSystem.makeDirectory_of_write (congrArg Prod.fst hready) hagain,
      FileSystem.find?_makeDirectory (FileSystem.find?_of_write hwrite) _⟩

/-! ## Loading again -/

/-- A fresh start loads exactly these settings, and warns of nothing. -/
def Reloads (reading : Nat) (fs : FileSystem) (home : Text) (settings : Json.Fields) : Prop :=
  ∀ j, (load reading fs home).outcome j = (.ok settings, j)

/-- A fresh start fails, since settings are nested too deeply for it. -/
def LoadsTooDeep (reading : Nat) (fs : FileSystem) (home : Text) : Prop :=
  ∀ j, (load reading fs home).outcome j = (.error .tooDeep, j)

/-- **Settings in force are loaded as they were stored** by a reader that goes as deep as they are
nested. -/
theorem reloads_of_save (h : InForce settings)
    (hsave : save writing fs home settings = (.ok (), fs'))
    (hd : (Json.obj settings).depth ≤ reading) : Reloads reading fs' home settings := by
  intro j
  obtain ⟨-, hready, hfile⟩ := found_of_save h hsave
  have hholds := holds_print h.isExact h.isReadable hd
  obtain ⟨others, hnames⟩ := h.known
  rw [outcome_load hready, stored_of_holds hfile hholds]
  dsimp only
  rw [Json.merge_eq_of_names_eq hnames.symm h.nodup]

/-- A reader that does not go as deep fails. -/
theorem loadsTooDeep_of_save (h : InForce settings)
    (hsave : save writing fs home settings = (.ok (), fs'))
    (hd : reading < (Json.obj settings).depth) : LoadsTooDeep reading fs' home := by
  intro j
  obtain ⟨-, hready, hfile⟩ := found_of_save h hsave
  obtain ⟨l, hparse⟩ := Json.parse_print_tooDeep h.isExact h.isReadable hd
  have hstops : Stops reading (encode (Json.print (.obj settings))) .tooDeep :=
    .tooDeep rfl (by rw [unifyNewlines_print h.isExact]; exact hparse)
  rw [outcome_load hready, (stored_eq_error_iff hfile).2 hstops]

/-- What a fresh start makes of settings that a writer stored. -/
structure IsStored (writing : Nat) (fs : FileSystem) (home : Text) (settings : Json.Fields) :
    Prop where
  written : (Json.obj settings).depth ≤ writing
  reloads : ∀ reading, (Json.obj settings).depth ≤ reading → Reloads reading fs home settings
  tooDeep : ∀ reading, reading < (Json.obj settings).depth → LoadsTooDeep reading fs home

theorem stored_of_save (h : InForce settings)
    (hsave : save writing fs home settings = (.ok (), fs')) : IsStored writing fs' home settings :=
  ⟨(found_of_save h hsave).1, fun _ hd => reloads_of_save h hsave hd,
    fun _ hd => loadsTooDeep_of_save h hsave hd⟩

/-- Setting one after the other keeps the settings in force and stored. -/
theorem inForce_assignAll (h : InForce settings) (hcalls : ∀ c ∈ calls, IsKept c)
    (hrun : assignAll writing home fs settings calls = .ok (last, fs')) :
    InForce last ∧ last = Json.merge settings calls ∧
      (calls ≠ [] ∨ IsStored writing fs home settings → IsStored writing fs' home last) := by
  induction calls generalizing fs settings with
  | nil =>
    cases hrun
    exact ⟨h, rfl, fun hstored => hstored.resolve_left fun hne => hne rfl⟩
  | cons c calls ih =>
    obtain ⟨name, value⟩ := c
    obtain ⟨hnew, hcalls⟩ := List.forall_mem_cons.1 hcalls
    have hset := h.set hnew
    rw [assignAll, assign] at hrun
    rcases hsave : save writing fs home (Json.set name value settings) with ⟨e | u, after⟩
    · rw [hsave] at hrun
      cases hrun
    · rw [hsave] at hrun
      obtain ⟨hlast, hmerge, hstored⟩ := ih hset hcalls hrun
      exact ⟨hlast, hmerge, fun _ => hstored (.inr (stored_of_save hset hsave))⟩

/-- One setting that can be stored. -/
theorem assignAll_singleton {c : Json.Str × Json}
    (hsave : save writing fs home (Json.merge settings [c]) = (.ok (), fs')) :
    assignAll writing home fs settings [c] = .ok (Json.merge settings [c], fs') := by
  have hsave : save writing fs home (Json.set c.1 c.2 settings) = (.ok (), fs') := hsave
  rw [assignAll, assign, hsave]
  rfl

/-- **Settings survive a restart.** Whatever the settings file held when they were loaded, after one
or more settings that all succeeded a fresh start loads exactly the settings in force, in their
order, if its reader goes as deep as they are nested, and fails if it does not: those loaded, with
the new ones set over them one by one. All known names are among them. -/
theorem reloads_assignAll
    (hload : ((load reading fs home).outcome j).1 = .ok settings)
    (hexact : (Json.obj settings).IsExact) (hcalls : ∀ c ∈ calls, IsKept c) (hne : calls ≠ [])
    (hrun : assignAll writing home (prepare fs home).2 settings calls = .ok (last, fs')) :
    ((Json.obj last).depth ≤ fresh → Reloads fresh fs' home last) ∧
      (fresh < (Json.obj last).depth → LoadsTooDeep fresh fs' home) ∧
      (Json.obj last).depth ≤ writing ∧ last = Json.merge settings calls ∧
      ∀ f ∈ Options.defaultSettings, ∃ v, Json.get? last f.1 = some v := by
  obtain ⟨hlast, hmerge, hstored⟩ :=
    inForce_assignAll (inForce_of_load hload hexact) hcalls hrun
  have hstored := hstored (.inl hne)
  refine ⟨hstored.reloads fresh, hstored.tooDeep fresh, hstored.written, hmerge, fun f hf => ?_⟩
  have hname : f.1 ∈ last.map Prod.fst := hlast.known.subset (List.mem_map_of_mem hf)
  exact Option.ne_none_iff_exists'.1 fun hnone => Json.get?_eq_none_iff.1 hnone hname

/-- Over a settings file that is cut off: the defaults are in force, a known setting is changed in
its place, a new one with half a surrogate pair in it comes last, and one is set again. -/
theorem reloads_assignAll_over_cut_file :
    let home := "/h".toList
    let fs := withSettings (encode "\x7b".toList)
    let calls : Json.Fields := [("rust".toList, .bool true),
      ("extra".toList, .arr [.int (-12), .str [.char 'é', .half 0x3d]]), ("rust".toList, .null)]
    ((load 985 fs home).outcome .empty).1 = .ok Options.defaultSettings ∧
    ∃ last fs', assignAll 988 home (prepare fs home).2 Options.defaultSettings calls =
        .ok (last, fs') ∧
      Reloads 985 fs' home last ∧ last = Json.merge Options.defaultSettings calls ∧
      ∀ f ∈ Options.defaultSettings, ∃ v, Json.get? last f.1 = some v := by
  intro home fs calls
  have hready : (prepare fs home).1 = .ok () := (prepare_withSettings _).1
  have hload : ((load 985 fs home).outcome .empty).1 = .ok Options.defaultSettings := by
    rw [outcome_load hready, stored_eq, (prepare_withSettings _).2]
    dsimp only
    rw [decode?_eq_some_iff.2 rfl]
    rfl
  have hextra : (Json.arr [.int (-12), .str [.char 'é', .half 0x3d]]).IsReadable := by
    have hshort : IsShort (-12 : Int).natAbs := show (natural 12).length ≤ maxDigits by decide
    have hjoined : Json.Str.IsJoined [.char 'é', .half 0x3d] := by
      simp [Json.Str.isJoined_cons_iff, Json.Str.isJoined_nil, Json.CodePoint.IsHigh]
    exact .arr (List.forall_mem_cons.2 ⟨.int hshort, List.forall_mem_singleton.2 (.str hjoined)⟩)
  have hcalls : ∀ c ∈ calls, IsKept c :=
    List.forall_mem_cons.2 ⟨isKept_of_text _ (.bool _) (.bool _),
      List.forall_mem_cons.2 ⟨isKept_of_text _ (by simp) hextra,
        List.forall_mem_singleton.2 (isKept_of_text _ .null .null)⟩⟩
  have hok : (assignAll 988 home (prepare fs home).2 Options.defaultSettings calls).isOk = true := by
    decide +kernel
  cases hrun : assignAll 988 home (prepare fs home).2 Options.defaultSettings calls with
  | error e =>
    rw [hrun] at hok
    cases hok
  | ok r =>
    obtain ⟨last, fs'⟩ := r
    obtain ⟨hreloads, -, -, hmerge, hknown⟩ := reloads_assignAll hload
      inForce_default.isExact hcalls (List.cons_ne_nil _ _) hrun
    have hdepth : (Json.obj last).depth ≤ 985 := by
      rw [hmerge]
      decide
    exact ⟨hload, last, fs', rfl, hreloads hdepth, hmerge, hknown⟩

/-- Arrays inside each other. -/
def nested : Nat → Json
  | 0 => .null
  | n + 1 => .arr [nested n]

theorem depth_nested (n : Nat) : (nested n).depth = n := by
  induction n with
  | zero => rfl
  | succ n ih => simp [nested, Json.depth, Json.depthOfItems, ih]

theorem isKept_nested (name : Text) (n : Nat) : IsKept (name, nested n) := by
  have hnested : (nested n).IsExact ∧ (nested n).IsReadable := by
    induction n with
    | zero => exact ⟨.null, .null⟩
    | succ n ih =>
      exact ⟨.arr (List.forall_mem_singleton.2 ih.1), .arr (List.forall_mem_singleton.2 ih.2)⟩
  exact isKept_of_text name hnested.1 hnested.2

/-- A nested setting makes the settings one level deeper. -/
theorem depth_set_nested (n : Nat) :
    (Json.obj (Json.set "k".toList (nested n) Options.defaultSettings)).depth = n + 1 := by
  have hset : Json.set "k".toList (nested n) Options.defaultSettings =
      Options.defaultSettings ++ [((("k".toList : Text) : Json.Str), nested n)] := rfl
  rw [hset]
  simp [Options.defaultSettings, Json.depth, Json.depthOfFields, depth_nested]

/-- A machine with nothing on it. -/
def bare : FileSystem :=
  ⟨"/".toList, [], [], []⟩

theorem prepare_bare : (prepare bare "/h".toList).1 = .ok () := by
  decide +kernel

theorem load_bare :
    ((load 985 bare "/h".toList).outcome .empty).1 = .ok Options.defaultSettings := by
  have hnone : (prepare bare "/h".toList).2.find? (path "/h".toList) = none := by decide +kernel
  rw [outcome_load prepare_bare, stored_eq, hnone]
  rfl

/-- There, settings that are not nested too deeply can be stored. -/
theorem save_bare (h : InForce settings) (hd : (Json.obj settings).depth ≤ writing) :
    ∃ fs', save writing (prepare bare "/h".toList).2 "/h".toList settings = (.ok (), fs') := by
  -- Storing makes the directory again, which is there by now.
  have hagain : (prepare (prepare bare "/h".toList).2 "/h".toList).1 = .ok () := by decide +kernel
  have hp : (prepare (prepare bare "/h".toList).2 "/h".toList).2.writable (path "/h".toList) =
      .ok ["h".toList, ".cargobolt".toList, "config.json".toList] := by decide +kernel
  exact ⟨_, (save_ends h hagain hp).1 hd⟩

/-- Not everything survives a restart. A setting that is stored may be nested too deeply to be
loaded: a writer goes 988 levels deep and a reader 985, and with the object around it the setting
makes 986. The two halves of a surrogate pair come back as the character that the pair stands for.
And there is no start at all with a corrupt file that is no text. -/
theorem settings_lost :
    let home := "/h".toList
    let deep : Json.Fields := [("k".toList, nested 985)]
    let split : Json.Fields := [("k".toList, .str [.half 0x3d, .half 0x600])]
    let whole : Json.Fields := [("k".toList, .str [.char (Char.ofNat 0x1f600)])]
    ((load 985 bare home).outcome .empty).1 = .ok Options.defaultSettings ∧
    ((∀ c ∈ deep, IsKept c) ∧ ∃ last fs',
      assignAll 988 home (prepare bare home).2 Options.defaultSettings deep = .ok (last, fs') ∧
      LoadsTooDeep 985 fs' home ∧ ¬ Reloads 985 fs' home last) ∧
    ((∀ c ∈ split, c.2.IsExact) ∧ ∃ last fs',
      assignAll 988 home (prepare bare home).2 Options.defaultSettings split = .ok (last, fs') ∧
      Reloads 985 fs' home (Json.merge Options.defaultSettings whole) ∧
      ¬ Reloads 985 fs' home last) ∧
    ((load 985 (withSettings [0xff]) home).outcome .empty).1 = .error .notText := by
  intro home deep split whole
  have hdeep : InForce (Json.merge Options.defaultSettings deep) :=
    InForce.set inForce_default (isKept_nested "k".toList 985)
  have hwhole : InForce (Json.merge Options.defaultSettings whole) :=
    InForce.set inForce_default (isKept_of_text "k".toList (.str _)
      (.str (Json.Str.isJoined_ofText [Char.ofNat 0x1f600])))
  have hdepth : (Json.obj (Json.merge Options.defaultSettings deep)).depth = 986 :=
    depth_set_nested 985
  obtain ⟨afterDeep, hsaveDeep⟩ : ∃ fs', save 988 (prepare bare home).2 home
      (Json.merge Options.defaultSettings deep) = (.ok (), fs') := save_bare hdeep (by omega)
  obtain ⟨after, hsaveWhole⟩ : ∃ fs', save 988 (prepare bare home).2 home
      (Json.merge Options.defaultSettings whole) = (.ok (), fs') := save_bare hwhole (by decide)
  have htooDeep : LoadsTooDeep 985 afterDeep home :=
    loadsTooDeep_of_save hdeep hsaveDeep (by omega)
  have hreloads : Reloads 985 after home (Json.merge Options.defaultSettings whole) :=
    reloads_of_save hwhole hsaveWhole (by decide)
  -- The pair in two halves is written as the character is.
  have hwritten : Json.written 988 (.obj (Json.merge Options.defaultSettings split)) =
      Json.written 988 (.obj (Json.merge Options.defaultSettings whole)) := by
    decide +kernel
  have hsaveSplit : save 988 (prepare bare home).2 home (Json.merge Options.defaultSettings split) =
      (.ok (), after) := by
    rw [← hsaveWhole, save, save, hwritten]
  have hcorrupt : ((load 985 (withSettings [0xff]) home).outcome .empty).1 = .error .notText := by
    obtain ⟨hready, hfound⟩ := prepare_withSettings [0xff]
    exact (outcome_load_eq_error_iff hready).2
      ((stored_eq_error_iff hfound).2 (stops_undecodable 985))
  refine ⟨load_bare,
    ⟨List.forall_mem_singleton.2 (isKept_nested _ 985), _, _, assignAll_singleton hsaveDeep,
      htooDeep, fun h => ?_⟩,
    ⟨List.forall_mem_singleton.2 (.str _), _, _, assignAll_singleton hsaveSplit, hreloads,
      fun h => ?_⟩, hcorrupt⟩
  · cases (h .empty).symm.trans (htooDeep .empty)
  · have hsame := congrArg Prod.fst ((h .empty).symm.trans (hreloads .empty))
    have htext := congrArg (fun s => (Json.get? s "k".toList).bind Json.str?)
      (Except.ok.inj hsame)
    revert htext
    decide +kernel

end AsmLens.Settings
