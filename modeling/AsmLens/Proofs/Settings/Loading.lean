import AsmLens.Proofs.Actions
import AsmLens.Proofs.Json.RoundTrip
import AsmLens.Proofs.Text.Lines
import AsmLens.Proofs.Text.Utf8
import AsmLens.Proofs.Workspace.Writing
import AsmLens.Settings

/-!
# Loading the settings

What stands at the settings file decides how loading ends (`load_ends`). An object is set over the
defaults; anything else that can be read, and a directory in place of the file, leaves the defaults
with one warning. Three kinds of content are not mended (`Stops`): bytes that are no text, an
integer of too many digits, and values nested too deeply.
-/

namespace AsmLens.Settings

open Text

variable {depth : Nat} {fs : FileSystem} {home : Text} {bs : List UInt8} {fields : Json.Fields}

/-- The bytes are those of a text that is an object with the fields. -/
def Holds (depth : Nat) (bs : List UInt8) (fields : Json.Fields) : Prop :=
  ∃ text, bs = encode text ∧ Json.parse depth (unifyNewlines text) = .ok (.obj fields)

/-- What the content of the settings file stops loading for. -/
inductive Stops (depth : Nat) (bs : List UInt8) : Failure → Prop where
  | notText (undecodable : ∀ text, bs ≠ encode text) : Stops depth bs .notText
  | longInteger {text digits left} (bytes : bs = encode text)
    (read : Json.parse depth (unifyNewlines text) = .error ⟨.longInteger digits, left⟩) :
    Stops depth bs .notNumber
  | tooDeep {text left} (bytes : bs = encode text)
    (read : Json.parse depth (unifyNewlines text) = .error ⟨.tooDeep, left⟩) :
    Stops depth bs .tooDeep

/-- The warnings about a settings file that is not used. -/
def Ignores (home : Text) (w : Warning) : Prop :=
  w = .corruptSettings (path home) ∨ w = .noSettings (path home)

/-! ## The file -/

/-- The path of the settings file is in normal form. -/
theorem path_normal (home : Text) : ∃ n : Path.Normal, n.IsNormal ∧ path home = n.toText :=
  ⟨_, (Path.Normal.isNormal_ofText _).child _, rfl⟩

/-- What stands at the settings file tells what is stored. -/
theorem stored_eq (depth : Nat) (fs : FileSystem) (home : Text) :
    stored depth fs home = match fs.find? (path home) with
      | none => .ok ([], none)
      | some .directory => .ok ([], some (.corruptSettings (path home)))
      | some (.file bs) => match decode? bs with
        | none => .error .notText
        | some text => ofText depth home (unifyNewlines text) := by
  obtain ⟨n, hn, hpath⟩ := path_normal home
  have hfinds : fs.findsNormal (path home) = (fs.find? (path home)).isSome := by
    rw [hpath, FileSystem.findsNormal_toText hn]
    rfl
  rw [stored, hfinds]
  cases hfound : fs.find? (path home) with
  | none => rfl
  | some found =>
    have hread := FileSystem.read_of_find? hfound
    rw [Option.isSome_some, if_pos rfl, FileSystem.readStrict, hread]
    cases found with
    | directory => rfl
    | file bs =>
      dsimp only
      rw [ok_bind]
      cases decode? bs <;> rfl

/-! ## Its content -/

theorem Holds.parse {text : Text} (h : Holds depth bs fields) (hbs : bs = encode text) :
    Json.parse depth (unifyNewlines text) = .ok (.obj fields) := by
  obtain ⟨text', hbs', hparse⟩ := h
  rwa [encode_inj (hbs.symm.trans hbs')]

theorem Stops.parse {e : Failure} {text : Text} (h : Stops depth bs e) (hbs : bs = encode text) :
    (∃ n l, Json.parse depth (unifyNewlines text) = .error ⟨.longInteger n, l⟩ ∧ e = .notNumber) ∨
      ∃ l, Json.parse depth (unifyNewlines text) = .error ⟨.tooDeep, l⟩ ∧ e = .tooDeep := by
  cases h with
  | notText hno => exact absurd hbs (hno text)
  | longInteger hbs' hparse =>
    rw [encode_inj (hbs.symm.trans hbs')]
    exact .inl ⟨_, _, hparse, rfl⟩
  | tooDeep hbs' hparse =>
    rw [encode_inj (hbs.symm.trans hbs')]
    exact .inr ⟨_, hparse, rfl⟩

/-- No object stops loading. -/
theorem Holds.not_stops {e : Failure} (h : Holds depth bs fields) : ¬ Stops depth bs e := by
  intro hstops
  obtain ⟨text, hbs, hparse⟩ := h
  rcases hstops.parse hbs with ⟨_, _, hstop, -⟩ | ⟨_, hstop, -⟩
  · cases hparse.symm.trans hstop
  · cases hparse.symm.trans hstop

/-- What a content comes to: it stops loading, or is an object, or is ignored because it is
neither. -/
inductive Comes (depth : Nat) (home : Text) (bs : List UInt8) :
    Except Failure (Json.Fields × Option Warning) → Prop where
  | stops {e} (h : Stops depth bs e) (alone : ∀ e', Stops depth bs e' → e' = e) :
    Comes depth home bs (.error e)
  | holds {fields : Json.Fields} (h : Holds depth bs fields)
    (alone : ∀ fields', Holds depth bs fields' → fields' = fields) :
    Comes depth home bs (.ok (fields, none))
  | ignored {w} (readable : ∀ e, ¬ Stops depth bs e) (other : ∀ fields, ¬ Holds depth bs fields)
    (warning : Ignores home w) : Comes depth home bs (.ok ([], some w))

/-- What the text of a settings file comes to. -/
theorem comes_ofText {text : Text} (hbs : bs = encode text) :
    Comes depth home bs (ofText depth home (unifyNewlines text)) := by
  unfold ofText
  split
  · rename_i fields hparse
    refine .holds ⟨text, hbs, hparse⟩ fun fields' h => ?_
    cases (h.parse hbs).symm.trans hparse
    rfl
  · rename_i v hno hparse
    refine .ignored (fun e h => ?_) (fun fields h => ?_) (.inr rfl)
    · rcases h.parse hbs with ⟨_, _, hstop, -⟩ | ⟨_, hstop, -⟩
      · cases hstop.symm.trans hparse
      · cases hstop.symm.trans hparse
    · cases (h.parse hbs).symm.trans hparse
      exact hno fields rfl
  · rename_i hparse
    refine .stops (.longInteger hbs hparse) fun e h => ?_
    rcases h.parse hbs with ⟨_, _, -, he⟩ | ⟨_, hstop, -⟩
    · exact he
    · cases hstop.symm.trans hparse
  · rename_i hparse
    refine .stops (.tooDeep hbs hparse) fun e h => ?_
    rcases h.parse hbs with ⟨_, _, hstop, -⟩ | ⟨_, -, he⟩
    · cases hstop.symm.trans hparse
    · exact he
  · rename_i stop hlong hdeep hparse
    refine .ignored (fun e h => ?_) (fun fields h => ?_) (.inl rfl)
    · rcases h.parse hbs with ⟨_, _, hstop, -⟩ | ⟨_, hstop, -⟩
      · exact hlong _ _ (Except.error.inj (hparse.symm.trans hstop))
      · exact hdeep _ (Except.error.inj (hparse.symm.trans hstop))
    · cases (h.parse hbs).symm.trans hparse

/-- What is stored is told by the content of the file. -/
theorem comes_stored (depth : Nat) (hfile : fs.find? (path home) = some (.file bs)) :
    Comes depth home bs (stored depth fs home) := by
  rw [stored_eq, hfile]
  dsimp only
  cases hdecode : decode? bs with
  | none =>
    have hno : ∀ text, bs ≠ encode text := fun text htext => by
      cases hdecode.symm.trans (decode?_eq_some_iff.2 htext)
    refine .stops (.notText hno) fun e h => ?_
    cases h with
    | notText => rfl
    | longInteger hbs => exact absurd hbs (hno _)
    | tooDeep hbs => exact absurd hbs (hno _)
  | some text => exact comes_ofText (decode?_eq_some_iff.1 hdecode)

section

variable (hfile : fs.find? (path home) = some (.file bs))

include hfile

/-- Loading fails for no other file. -/
theorem stored_eq_error_iff {e : Failure} : stored depth fs home = .error e ↔ Stops depth bs e := by
  have hcomes := comes_stored depth hfile
  generalize stored depth fs home = outcome at hcomes ⊢
  cases hcomes with
  | stops h alone =>
    constructor
    · rintro ⟨⟩
      exact h
    · exact fun h' => congrArg Except.error (alone e h').symm
  | holds h =>
    constructor
    · rintro ⟨⟩
    · exact fun h' => absurd h' h.not_stops
  | ignored readable =>
    constructor
    · rintro ⟨⟩
    · exact fun h' => absurd h' (readable e)

/-- An object that the file holds is what is stored. -/
theorem stored_of_holds (h : Holds depth bs fields) : stored depth fs home = .ok (fields, none) := by
  have hcomes := comes_stored depth hfile
  generalize stored depth fs home = outcome at hcomes ⊢
  cases hcomes with
  | stops hstops => exact absurd hstops h.not_stops
  | holds _ alone => rw [alone fields h]
  | ignored _ other => exact absurd h (other fields)

/-- What neither stops loading nor is an object is ignored. -/
theorem stored_of_neither (hreadable : ∀ e, ¬ Stops depth bs e)
    (hother : ∀ fields, ¬ Holds depth bs fields) :
    ∃ w, Ignores home w ∧ stored depth fs home = .ok ([], some w) := by
  have hcomes := comes_stored depth hfile
  generalize stored depth fs home = outcome at hcomes ⊢
  cases hcomes with
  | stops h => exact absurd h (hreadable _)
  | holds h => exact absurd h (hother _)
  | ignored _ _ warning => exact ⟨_, warning, rfl⟩

end

/-- What is stored can be read. -/
theorem isReadable_of_stored {w : Option Warning} (h : stored depth fs home = .ok (fields, w)) :
    (Json.obj fields).IsReadable := by
  have hnone : (Json.obj []).IsReadable := .obj List.nodup_nil (by simp) (by simp)
  rw [stored_eq] at h
  split at h
  · cases h
    exact hnone
  · cases h
    exact hnone
  · rename_i bs hfile
    have hcomes := comes_stored depth hfile
    rw [stored_eq, hfile] at hcomes
    dsimp only at hcomes
    rw [h] at hcomes
    cases hcomes with
    | holds hholds =>
      obtain ⟨text, -, hparse⟩ := hholds
      exact Json.isReadable_of_parse hparse
    | ignored => exact hnone

/-- Without a directory for the settings, nothing is loaded. -/
theorem outcome_load_of_error {e : Failure} (h : (prepare fs home).1 = .error e) (j : Journal) :
    (load depth fs home).outcome j = (.error e, j) := by
  rw [load]
  rcases hprepare : prepare fs home with ⟨e' | _, ready⟩
  · rw [hprepare] at h
    cases h
    rfl
  · rw [hprepare] at h
    cases h

/-- What is stored is set over the defaults, and what is wrong with it is warned about. -/
theorem outcome_load (h : (prepare fs home).1 = .ok ()) (j : Journal) :
    (load depth fs home).outcome j = match stored depth (prepare fs home).2 home with
      | .error e => (.error e, j)
      | .ok (fields, none) => (.ok (Json.merge Options.defaultSettings fields), j)
      | .ok (fields, some w) =>
        (.ok (Json.merge Options.defaultSettings fields),
          { j with warnings := j.warnings ++ [w] }) := by
  rw [load]
  rcases hprepare : prepare fs home with ⟨e' | _, ready⟩
  · rw [hprepare] at h
    cases h
  · dsimp only
    rw [Action.outcome_bind, Action.outcome_ofExcept]
    dsimp only
    rw [Action.outcome_bind, Action.outcome_ofExcept]
    rcases stored depth ready home with e | ⟨fields, _ | w⟩ <;> rfl

/-- With a directory for the settings, loading fails as what is stored does. -/
theorem outcome_load_eq_error_iff (h : (prepare fs home).1 = .ok ()) {j : Journal} {e : Failure} :
    ((load depth fs home).outcome j).1 = .error e ↔
      stored depth (prepare fs home).2 home = .error e := by
  rw [outcome_load h]
  rcases stored depth (prepare fs home).2 home with e' | ⟨fields, _ | w⟩ <;> simp

/-- The names of an object that is read differ. -/
theorem Holds.nodup (h : Holds depth bs fields) : (fields.map Prod.fst).Nodup := by
  obtain ⟨text, -, hparse⟩ := h
  cases Json.isReadable_of_parse hparse with
  | obj hnames => exact hnames

/-- Printed settings have no line ends but those of this form. -/
theorem unifyNewlines_print (hexact : (Json.obj fields).IsExact) :
    unifyNewlines (Json.print (.obj fields)) = Json.print (.obj fields) :=
  unifyNewlines_eq_self fun h => absurd (Json.isShown_of_mem_render hexact 0 _ h) (by decide)

/-- What is printed of an object holds it, if it can be read so deep. -/
theorem holds_print (hexact : (Json.obj fields).IsExact) (hread : (Json.obj fields).IsReadable)
    (hdepth : (Json.obj fields).depth ≤ depth) :
    Holds depth (encode (Json.print (.obj fields))) fields :=
  ⟨_, rfl, by rw [unifyNewlines_print hexact]; exact Json.parse_print hexact hread hdepth⟩

/-- Loading stops for nothing that is not in the text. -/
theorem Stops.found {e : Failure} (h : Stops depth bs e) :
    (∀ text, bs ≠ encode text) ∨ ∃ text, bs = encode text ∧
      ((∃ n, maxDigits < n ∧ Json.HasDigits n (unifyNewlines text)) ∨
        depth < Json.openings (unifyNewlines text)) := by
  cases h with
  | notText hno => exact .inl hno
  | longInteger hbs hparse =>
    exact .inr ⟨_, hbs, .inl ⟨_, Json.hasDigits_of_parse hparse⟩⟩
  | tooDeep hbs hparse => exact .inr ⟨_, hbs, .inr (Json.lt_openings_of_parse hparse)⟩

/-- The directory of the settings cannot be made where something else stands, there or above. -/
theorem prepare_eq_error {e : Failure} (h : (prepare fs home).1 = .error e) :
    e = .cannotOpen .notDirectory ∨ e = .cannotOpen .alreadyExists := by
  rw [prepare] at h
  rcases fs.makeDirectory_cases (directory home) with ⟨hmake, -⟩ | ⟨hmake, -⟩ | ⟨hmake, -⟩
  · rw [hmake] at h
    cases h
  · rw [hmake] at h
    cases h
    exact .inl rfl
  · rw [hmake] at h
    cases h
    exact .inr rfl

/-- **How loading the settings ends.** If the directory of the settings can be made, then of a file
that is there loading fails exactly for the contents that stop it, all of which are bytes that are
no text or texts with a run of more digits or with more opening brackets than are read. An object is
set over the defaults, name by name. Any other content, and a directory in place of the file, gives
the defaults and one warning. -/
theorem load_ends (depth : Nat) (fs : FileSystem) (home : Text) (j : Journal) :
    let r := (load depth fs home).outcome j
    let found := (prepare fs home).2.find? (path home)
    (∀ e, (prepare fs home).1 = .error e →
      r = (.error e, j) ∧ (e = .cannotOpen .notDirectory ∨ e = .cannotOpen .alreadyExists)) ∧
    ((prepare fs home).1 = .ok () →
      (∀ bs, found = some (.file bs) →
        (∀ e, r.1 = .error e ↔ Stops depth bs e) ∧
        (∀ e, Stops depth bs e → (∀ text, bs ≠ encode text) ∨ ∃ text, bs = encode text ∧
          ((∃ n, maxDigits < n ∧ Json.HasDigits n (unifyNewlines text)) ∨
            depth < Json.openings (unifyNewlines text))) ∧
        (∀ fields, Holds depth bs fields →
          r = (.ok (Json.merge Options.defaultSettings fields), j) ∧
          ∀ name, Json.get? (Json.merge Options.defaultSettings fields) name =
            (Json.get? fields name).or (Json.get? Options.defaultSettings name)) ∧
        ((∀ e, ¬ Stops depth bs e) → (∀ fields, ¬ Holds depth bs fields) → ∃ w, Ignores home w ∧
          r = (.ok Options.defaultSettings, { j with warnings := j.warnings ++ [w] }))) ∧
      (found = some .directory → ∃ w, Ignores home w ∧
        r = (.ok Options.defaultSettings, { j with warnings := j.warnings ++ [w] })) ∧
      (found = none → r = (.ok Options.defaultSettings, j))) := by
  intro r found
  refine ⟨fun e he => ⟨outcome_load_of_error he j, prepare_eq_error he⟩, fun hready => ?_⟩
  have hr : r = _ := outcome_load hready j
  have hstored := stored_eq depth (prepare fs home).2 home
  refine ⟨fun bs hfile => ⟨fun e => ?_, fun e h => h.found, fun fields hholds => ?_,
    fun hreadable hother => ?_⟩, fun hdirectory => ?_, fun hnone => ?_⟩
  · exact (outcome_load_eq_error_iff hready).trans (stored_eq_error_iff hfile)
  · rw [stored_of_holds hfile hholds] at hr
    exact ⟨hr, Json.get?_merge hholds.nodup _⟩
  · obtain ⟨w, hw, hignored⟩ := stored_of_neither hfile hreadable hother
    rw [hignored] at hr
    exact ⟨w, hw, hr⟩
  · rw [show (prepare fs home).2.find? (path home) = _ from hdirectory] at hstored
    rw [hr, hstored]
    exact ⟨_, .inl rfl, rfl⟩
  · rw [show (prepare fs home).2.find? (path home) = _ from hnone] at hstored
    rw [hr, hstored]
    rfl

/-- A machine with a settings file in the home directory `/h`. -/
def withSettings (bs : List UInt8) : FileSystem :=
  ⟨"/".toList, [(["h".toList, ".cargobolt".toList, "config.json".toList], bs)], [], []⟩

theorem prepare_withSettings (bs : List UInt8) :
    (prepare (withSettings bs) "/h".toList).1 = .ok () ∧
      (prepare (withSettings bs) "/h".toList).2.find? (path "/h".toList) = some (.file bs) := by
  -- The content decides neither what can be made nor where the path leads.
  have hmade : (prepare (withSettings bs) "/h".toList).1 = .ok () :=
    (by decide +kernel : (prepare (withSettings []) "/h".toList).1 = .ok ())
  refine ⟨hmade, FileSystem.find?_makeDirectory ?_ _⟩
  have hresolve : (withSettings bs).resolve (path "/h".toList) =
      ["h".toList, ".cargobolt".toList, "config.json".toList] :=
    (by decide +kernel : (withSettings []).resolve (path "/h".toList) =
      ["h".toList, ".cargobolt".toList, "config.json".toList])
  refine FileSystem.find?_file_iff.2 ⟨by decide +kernel, by decide +kernel, ?_⟩
  unfold FileSystem.entry?
  rw [hresolve]
  rfl

theorem stops_undecodable (depth : Nat) : Stops depth [0xff] .notText := by
  refine .notText fun text htext => ?_
  have hnone : decode? [0xff] = none := by decide +kernel
  cases hnone.symm.trans (decode?_eq_some_iff.2 htext)

/-- An object is set over the defaults, a text that is cut off is ignored, a byte that begins no
character stops loading, and so does a file where the directory of the settings would be. -/
theorem load_ends_by_content :
    let home := "/h".toList
    let fields : Json.Fields := [("rust".toList, .bool true)]
    let object := encode (Json.print (.obj fields))
    let cut := encode "\x7b".toList
    let taken : FileSystem := ⟨home, [(["h".toList, ".cargobolt".toList], [])], [], []⟩
    (∀ bs ∈ [object, cut, [0xff]],
      (prepare (withSettings bs) home).1 = .ok () ∧
      (prepare (withSettings bs) home).2.find? (path home) = some (.file bs)) ∧
    (Holds 985 object fields ∧ (load 985 (withSettings object) home).outcome .empty =
      (.ok (Json.merge Options.defaultSettings fields), .empty)) ∧
    ((∀ e, ¬ Stops 985 cut e) ∧ (∀ fields, ¬ Holds 985 cut fields) ∧ ∃ w, Ignores home w ∧
      (load 985 (withSettings cut) home).outcome .empty =
        (.ok Options.defaultSettings, { Journal.empty with warnings := [w] })) ∧
    (Stops 985 [0xff] .notText ∧
      ((load 985 (withSettings [0xff]) home).outcome .empty).1 = .error .notText) ∧
    (prepare taken home).1 = .error (.cannotOpen .alreadyExists) ∧
      (load 985 taken home).outcome .empty = (.error (.cannotOpen .alreadyExists), .empty) := by
  intro home fields object cut taken
  have hobject : Holds 985 object fields :=
    holds_print (by simp [fields])
      (.obj (by simp [fields]) (List.forall_mem_singleton.2 (Json.Str.isJoined_ofText _))
        (List.forall_mem_singleton.2 (.bool _))) (by decide)
  have hparse : Json.parse 985 (unifyNewlines "\x7b".toList) = .error ⟨.noName, 0⟩ := rfl
  have hcut : (∀ e, ¬ Stops 985 cut e) ∧ ∀ fields, ¬ Holds 985 cut fields := by
    refine ⟨fun e h => ?_, fun fields h => ?_⟩
    · rcases h.parse rfl with ⟨_, _, hstop, -⟩ | ⟨_, hstop, -⟩
      · cases hparse.symm.trans hstop
      · cases hparse.symm.trans hstop
    · cases hparse.symm.trans (h.parse rfl)
  have hends := fun bs =>
    ((load_ends 985 (withSettings bs) home .empty).2 (prepare_withSettings bs).1).1 bs
      (prepare_withSettings bs).2
  have htaken : (prepare taken home).1 = .error (.cannotOpen .alreadyExists) := by decide +kernel
  exact ⟨fun bs _ => prepare_withSettings bs,
    ⟨hobject, ((hends object).2.2.1 fields hobject).1⟩,
    ⟨hcut.1, hcut.2, (hends cut).2.2.2 hcut.1 hcut.2⟩,
    ⟨stops_undecodable 985, ((hends [0xff]).1 _).2 (stops_undecodable 985)⟩,
    htaken, ((load_ends 985 taken home .empty).1 _ htaken).1⟩

/-- A byte that begins no character stops loading, with a failure that no message reports. -/
theorem undecodable_settings_stop :
    (load 985 (withSettings [0xff]) "/h".toList).outcome .empty = (.error .notText, .empty) ∧
      Failure.notText.message? = none := by
  have hdecode : decode? [0xff] = none := by decide +kernel
  obtain ⟨hready, hfound⟩ := prepare_withSettings [0xff]
  rw [outcome_load hready, stored_eq, hfound]
  dsimp only
  rw [hdecode]
  exact ⟨rfl, rfl⟩

end AsmLens.Settings
