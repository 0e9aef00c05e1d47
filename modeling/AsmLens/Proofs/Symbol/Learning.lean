import AsmLens.Symbol.Demangler

/-!
# Names that are learnt stay

A batch is learnt, or the tool was started on its new symbols and what it wrote is no text
(`Garbles`, `learn_eq_error_iff`). Whatever the tool answers, a demangler knows every symbol of a
batch that it has learnt (`knows_of_mem_learn`), keeps its target, and never gives a known symbol
another name (`Extends.name_eq`, `extends_learn`). A batch that is known already is not asked for
(`learn_of_knows`).
-/

namespace AsmLens.Demangler

/-- The symbol was in a batch that was learnt. -/
def Knows (d : Demangler) (symbol : Text) : Prop :=
  (d.known.lookup symbol).isSome

/-- `d'` has the target, the tool and all names of `d`. -/
structure Extends (d d' : Demangler) : Prop where
  target : d'.target = d.target
  tool : d'.tool = d.tool
  behaviour : d'.behaviour = d.behaviour
  known : ∀ symbol v, d.known.lookup symbol = some v → d'.known.lookup symbol = some v

namespace Extends

variable {d d' d'' : Demangler} {symbol : Text}

theorem refl (d : Demangler) : Extends d d :=
  ⟨rfl, rfl, rfl, fun _ _ h => h⟩

theorem trans (h : Extends d d') (h' : Extends d' d'') : Extends d d'' :=
  ⟨h'.target.trans h.target, h'.tool.trans h.tool, h'.behaviour.trans h.behaviour,
    fun s v hv => h'.known s v (h.known s v hv)⟩

/-- What is known stays known. -/
theorem knows (h : Extends d d') (hk : d.Knows symbol) : d'.Knows symbol := by
  obtain ⟨v, hv⟩ := Option.isSome_iff_exists.1 hk
  rw [Knows, h.known symbol v hv]
  rfl

/-- A known symbol keeps its name. -/
theorem name_eq (h : Extends d d') (hk : d.Knows symbol) : d'.name symbol = d.name symbol := by
  obtain ⟨v, hv⟩ := Option.isSome_iff_exists.1 hk
  rw [name, name, hv, h.known symbol v hv]

theorem program? (h : Extends d d') : d'.program? = d.program? := by
  rw [Demangler.program?, Demangler.program?, h.tool]

end Extends

/-! ## Asking -/

section

variable (d : Demangler) (names : List Text)

/-- The tool is started on the input, and what it writes is no text. -/
def WritesNoText (input : Text) : Prop :=
  (∃ tool, d.program? = some tool) ∧ d.behaviour d.starts.length input = .undecodable

/-- Asking the tool adds to what was done and warned of, and changes nothing else. -/
theorem ask_frame : ∃ starts warnings, (d.ask names).2 = { d with starts, warnings } := by
  unfold ask
  split
  · dsimp only
    split
    · exact ⟨_, _, rfl⟩
    · exact ⟨_, _, rfl⟩
  · split
    · exact ⟨_, _, rfl⟩
    · exact ⟨_, _, rfl⟩
    · dsimp only
      split
      · exact ⟨_, _, rfl⟩
      · exact ⟨_, _, rfl⟩

/-- Asking alone makes nothing known. -/
theorem known_ask : (d.ask names).2.known = d.known := by
  obtain ⟨_, _, h⟩ := d.ask_frame names
  rw [h]

/-- There is one answer for each name, even if the tool fails or answers in fewer lines, unless what
it writes is no text. -/
theorem ask_cases :
    ((d.ask names).1 = .error .notText ∧ d.WritesNoText (toolInput names)) ∨
      ¬ d.WritesNoText (toolInput names) ∧
        ∃ answers, (d.ask names).1 = .ok answers ∧ answers.length = names.length := by
  unfold ask WritesNoText
  cases d.program? with
  | none =>
    refine .inr ⟨?_, names, rfl, rfl⟩
    rintro ⟨⟨_, ⟨⟩⟩, -⟩
  | some tool =>
    dsimp only
    cases d.behaviour d.starts.length (toolInput names) with
    | undecodable => exact .inl ⟨rfl, ⟨tool, rfl⟩, rfl⟩
    | notStarted reason =>
      refine .inr ⟨?_, names, rfl, rfl⟩
      rintro ⟨-, ⟨⟩⟩
    | finished code output diagnostics =>
      refine .inr ⟨?_, ?_⟩
      · rintro ⟨-, ⟨⟩⟩
      · dsimp only
        split
        · exact ⟨names, rfl, rfl⟩
        · refine ⟨_, rfl, ?_⟩
          split
          · assumption
          · rfl

/-! ## One batch -/

/-- The tool is started on the new symbols of a batch, and what it writes is no text. -/
def Garbles : Prop :=
  d.pending names ≠ [] ∧ d.WritesNoText (toolInput ((d.pending names).map (prepare d.target)))

/-- There is a tool, and at some start it writes what is no text. -/
def MayGarble : Prop :=
  (∃ tool, d.program? = some tool) ∧ ∃ start input, d.behaviour start input = .undecodable

/-- The names that a batch adds, each with what it is called from then on. -/
def added : List (Text × Text) :=
  match (d.ask ((d.pending names).map (prepare d.target))).1 with
  | .error _ => []
  | .ok answers => (d.pending names).zip (answers.map Symbol.stripHash)

/-- A batch with no new symbols is not asked for. -/
theorem learn_of_pending_nil {d : Demangler} {names : List Text} (h : d.pending names = []) :
    d.learn names = (.ok (), d) := by
  rw [learn, h]

/-- A batch with new symbols asks for them. -/
theorem learn_of_pending {d : Demangler} {names : List Text} (h : d.pending names ≠ []) :
    d.learn names = match d.ask ((d.pending names).map (prepare d.target)) with
      | (.error e, d') => (.error e, d')
      | (.ok _, d') => (.ok (), { d' with known := d.known ++ d.added names }) := by
  have hknown := d.known_ask ((d.pending names).map (prepare d.target))
  unfold learn added
  cases hp : d.pending names with
  | nil => exact absurd hp h
  | cons n ns =>
    rw [hp] at hknown
    dsimp only
    rcases ha : d.ask ((n :: ns).map (prepare d.target)) with ⟨e | answers, d'⟩
    · rfl
    · rw [ha] at hknown
      dsimp only at hknown ⊢
      rw [hknown]

/-- But for the names, a batch leaves what asking for its new symbols leaves. -/
theorem snd_learn_of_pending {d : Demangler} {names : List Text} (h : d.pending names ≠ []) :
    ∃ known, (d.learn names).2 =
      { (d.ask ((d.pending names).map (prepare d.target))).2 with known } := by
  rw [learn_of_pending h]
  rcases d.ask ((d.pending names).map (prepare d.target)) with ⟨e | answers, d'⟩
  · exact ⟨d'.known, rfl⟩
  · exact ⟨_, rfl⟩

/-- A batch fails exactly if what the tool writes about it is no text. -/
theorem learn_eq_error_iff {e : Failure} :
    (d.learn names).1 = .error e ↔ e = .notText ∧ d.Garbles names := by
  by_cases hp : d.pending names = []
  · rw [learn_of_pending_nil hp, Garbles]
    simp [hp]
  · rw [learn_of_pending hp, Garbles]
    rcases d.ask_cases ((d.pending names).map (prepare d.target)) with
      ⟨hask, hno⟩ | ⟨htext, answers, hask, -⟩
    · rcases ha : d.ask ((d.pending names).map (prepare d.target)) with ⟨x, d'⟩
      rw [ha] at hask
      cases hask
      simp [hp, hno, eq_comm]
    · rcases ha : d.ask ((d.pending names).map (prepare d.target)) with ⟨x, d'⟩
      rw [ha] at hask
      cases hask
      simp [htext]

/-- A batch is learnt unless what the tool writes about it is no text. -/
theorem learn_eq_ok_iff : (d.learn names).1 = .ok () ↔ ¬ d.Garbles names := by
  constructor
  · intro h hg
    cases h.symm.trans ((d.learn_eq_error_iff names).2 ⟨rfl, hg⟩)
  · intro h
    cases hl : (d.learn names).1 with
    | error e => exact absurd ((d.learn_eq_error_iff names).1 hl).2 h
    | ok u => rfl

/-- Learning adds the new names behind the known ones. -/
theorem known_learn : (d.learn names).2.known = d.known ++ d.added names := by
  by_cases hp : d.pending names = []
  · have hadded : d.added names = [] := by
      unfold added
      rw [hp]
      split
      · rfl
      · rfl
    rw [learn_of_pending_nil hp, hadded, List.append_nil]
  · rw [learn_of_pending hp]
    have hknown := d.known_ask ((d.pending names).map (prepare d.target))
    rcases ha : d.ask ((d.pending names).map (prepare d.target)) with ⟨e | answers, d'⟩
    · rw [ha] at hknown
      have hadded : d.added names = [] := by rw [added, ha]
      rw [hadded, List.append_nil]
      exact hknown
    · rfl

/-- What was done before a batch stays, whether it is learnt or fails. -/
theorem extends_learn : Extends d (d.learn names).2 := by
  have hknown : ∀ symbol v, d.known.lookup symbol = some v →
      (d.learn names).2.known.lookup symbol = some v := fun symbol v hv => by
    rw [known_learn, List.lookup_append, hv]
    rfl
  by_cases hp : d.pending names = []
  · rw [learn_of_pending_nil hp]
    exact .refl d
  · obtain ⟨_, _, hframe⟩ := d.ask_frame ((d.pending names).map (prepare d.target))
    obtain ⟨known, hlearn⟩ := snd_learn_of_pending hp
    rw [hframe] at hlearn
    rw [hlearn] at hknown ⊢
    exact ⟨rfl, rfl, rfl, hknown⟩

end

variable {d d' : Demangler} {names : List Text} {symbol : Text}

theorem extends_of_learn {x : Except Failure Unit} (h : d.learn names = (x, d')) : Extends d d' := by
  have he := d.extends_learn names
  rwa [h] at he

theorem Extends.mayGarble_of_garbles (h : Extends d d') (hg : d'.Garbles names) : d.MayGarble := by
  obtain ⟨-, htool, hno⟩ := hg
  rw [h.program?] at htool
  rw [h.behaviour] at hno
  exact ⟨htool, _, _, hno⟩

/-- A tool that may fail later may fail from the start. -/
theorem Extends.mayGarble (h : Extends d d') (hmay : d'.MayGarble) : d.MayGarble := by
  rwa [MayGarble, h.program?, h.behaviour] at hmay

/-- A batch fails only if the tool may write what is no text. -/
theorem Extends.mayGarble_of_learn {d₀ : Demangler} {e : Failure} (h : Extends d₀ d)
    (hl : d.learn names = (.error e, d')) : e = .notText ∧ d₀.MayGarble := by
  obtain ⟨he, hg⟩ := (d.learn_eq_error_iff names).1 (congrArg Prod.fst hl)
  exact ⟨he, h.mayGarble_of_garbles hg⟩

theorem map_fst_added (h : (d.learn names).1 = .ok ()) :
    (d.added names).map Prod.fst = d.pending names := by
  by_cases hp : d.pending names = []
  · unfold added
    rw [hp]
    split
    · rfl
    · rfl
  · rcases d.ask_cases ((d.pending names).map (prepare d.target)) with
      ⟨-, hno⟩ | ⟨-, answers, hask, hlength⟩
    · cases h.symm.trans ((d.learn_eq_error_iff names).2 ⟨rfl, hp, hno⟩)
    · have hl : (answers.map Symbol.stripHash).length = (d.pending names).length := by
        rw [List.length_map, hlength, List.length_map]
      rw [added, hask]
      exact List.map_fst_zip (Nat.le_of_eq hl.symm)

/-- The names asked for are those not known yet. -/
theorem mem_pending_iff : symbol ∈ d.pending names ↔ symbol ∈ names ∧ ¬ d.Knows symbol := by
  rw [pending, List.mem_filter, List.mem_eraseDups, Knows, Option.isNone_iff_eq_none,
    Option.not_isSome_iff_eq_none]

/-- A demangler knows every symbol of a batch that it has learnt. -/
theorem knows_of_mem_learn (h : d.learn names = (.ok (), d')) (hs : symbol ∈ names) :
    d'.Knows symbol := by
  by_cases hk : d.Knows symbol
  · exact (extends_of_learn h).knows hk
  · have hp : symbol ∈ (d.added names).map Prod.fst := by
      rw [map_fst_added (by rw [h])]
      exact mem_pending_iff.2 ⟨hs, hk⟩
    obtain ⟨p, hmem, rfl⟩ := List.mem_map.1 hp
    have hknown := d.known_learn names
    rw [h] at hknown
    rw [Knows, hknown, List.lookup_append, Option.isSome_or, Bool.or_eq_true]
    refine .inr ?_
    cases hl : (d.added names).lookup p.1 with
    | some v => rfl
    | none => exact absurd (List.lookup_eq_none_iff.1 hl p hmem) (by simp)

/-- A batch of known symbols is not asked for. -/
theorem learn_of_knows (h : ∀ s ∈ names, d.Knows s) : d.learn names = (.ok (), d) := by
  have hp : d.pending names = [] :=
    List.eq_nil_iff_forall_not_mem.2 fun s hs =>
      (mem_pending_iff.1 hs).2 (h s (mem_pending_iff.1 hs).1)
  exact learn_of_pending_nil hp

/-- A batch of no symbols is not asked for. -/
theorem learn_nil (d : Demangler) : d.learn [] = (.ok (), d) :=
  learn_of_knows fun _ h => absurd h List.not_mem_nil

/-- A batch that is learnt is answered by what is known then. -/
theorem demangle_of_learn (h : d.learn names = (.ok (), d')) :
    d.demangle names = (.ok (names.map d'.name), d') := by
  rw [demangle, h]

/-- A known symbol is called by its name. -/
theorem demangle_of_knows (h : d.Knows symbol) :
    d.demangle [symbol] = (.ok [d.name symbol], d) := by
  have hl : d.learn [symbol] = (.ok (), d) :=
    learn_of_knows fun s hs => List.mem_singleton.1 hs ▸ h
  exact demangle_of_learn hl

end AsmLens.Demangler
