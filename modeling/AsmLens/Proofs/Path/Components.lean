import AsmLens.Path.Absolute
import AsmLens.Proofs.Text.Pieces

/-!
# Runs of components

The search for a run of components comes to the first one there is (`afterRun?_eq_some_iff`), or
there is none (`afterRun?_eq_none_iff`). What follows it is written with one separator, so it has
the components that stand behind the run (`components_join`). How a path is separated does not
matter to its components (`components_append_separation`), and so neither to what it contains nor
to the components of what follows (`after_first_run`). A run whose components differ from each other
does not begin inside what stands before it and end inside itself (`IsFirstRun.of_nodup`).
-/

namespace AsmLens.Path

open Text

variable {p sub c : Text} {run cs a b : List Text}

/-- A component: not empty, and without separators. -/
abbrev IsComponent (c : Text) : Prop :=
  IsPiece isSeparator (fun c => !c.isEmpty) c

theorem components_eq_pieces (p : Text) :
    components p = pieces isSeparator (fun c => !c.isEmpty) p := rfl

theorem isComponent_of_mem (h : c ∈ components p) : IsComponent c :=
  isPiece_of_mem_pieces h

/-- Components that are joined are parted again. -/
theorem components_join {sep : Char} (hsep : isSeparator sep = true)
    (h : ∀ c ∈ cs, IsComponent c) : components (join [sep] cs) = cs :=
  pieces_join hsep rfl h

theorem isSeparator_separator (p : Text) : isSeparator (separator p) = true := by
  unfold separator
  split
  · decide
  · decide

/-- What separates components: separators of any kind and number, but at least one. -/
structure IsSeparation (u : Text) : Prop where
  ne : u ≠ []
  separators : ∀ c ∈ u, isSeparator c = true

/-- The components on both sides of a separation. -/
theorem components_append_separation {u : Text} (hu : IsSeparation u) (x y : Text) :
    components (x ++ (u ++ y)) = components x ++ components y := by
  obtain ⟨c, u, rfl⟩ := List.exists_cons_of_ne_nil hu.ne
  obtain ⟨hc, hrest⟩ := List.forall_mem_cons.1 hu.separators
  calc
    components (x ++ (c :: u ++ y)) = components x ++ components (u ++ y) :=
      pieces_append_cons hc x (u ++ y)
    _ = components x ++ components y :=
      congrArg (components x ++ ·) (pieces_append_of_separators rfl hrest y)

/-- A path is joined with a backslash if it has backslashes only. -/
theorem separator_eq (p : Text) :
    separator p = if '\\' ∈ p ∧ '/' ∉ p then '\\' else '/' := by
  simp [separator]

/-- A separator in joined components is the one that joins them. -/
theorem eq_of_mem_join {sep d : Char} (h : ∀ c ∈ cs, IsComponent c) (hd : d ∈ join [sep] cs)
    (hsep : isSeparator d = true) : d = sep := by
  obtain rfl | ⟨c, hc, hdc⟩ := mem_of_mem_join hd
  · rfl
  · have := (h c hc).solid d hdc
    exact absurd (this.symm.trans hsep) Bool.false_ne_true

/-! ## Joined paths -/

/-- A path that is joined has the pieces of both, unless the second begins with a slash. -/
theorem pieces_joinRooted {isSep : Char → Bool} {counts : Text → Bool} (hsep : isSep '/' = true)
    (hnil : counts [] = false) (a b : Text) :
    pieces isSep counts (joinRooted a b) =
      if isRooted b then pieces isSep counts b
      else pieces isSep counts a ++ pieces isSep counts b := by
  unfold joinRooted
  split
  · rfl
  · split
    · rename_i ha
      simp only [Bool.or_eq_true, List.isEmpty_iff, beq_iff_eq] at ha
      obtain rfl | ha := ha
      · rw [pieces_nil hnil, List.nil_append, List.nil_append]
      · obtain ⟨a', rfl⟩ := List.getLast?_eq_some_iff.1 ha
        rw [List.append_assoc, List.singleton_append, pieces_append_cons hsep,
          pieces_append_cons hsep, pieces_nil hnil, List.append_nil]
    · exact pieces_append_cons hsep a b

/-- A piece between separators does not begin with a slash if that is one of them. -/
theorem isRooted_of_isPiece {isSep : Char → Bool} {counts : Text → Bool} (hsep : isSep '/' = true)
    (h : IsPiece isSep counts c) : isRooted c = false := by
  cases c with
  | nil => rfl
  | cons d c =>
    have hne : d ≠ '/' := by
      rintro rfl
      rw [h.solid '/' List.mem_cons_self] at hsep
      cases hsep
    simp [isRooted, hne]

theorem isRooted_joinRooted (h : isRooted p = true) (hc : isRooted c = false) :
    isRooted (joinRooted p c) = true := by
  cases p with
  | nil => cases h
  | cons d p =>
    unfold joinRooted
    rw [hc, if_neg Bool.false_ne_true]
    split
    · exact h
    · exact h

/-- Components below a path that begins with a slash. -/
theorem foldl_joinRooted (hp : isRooted p = true) (h : ∀ c ∈ cs, IsComponent c) :
    isRooted (cs.foldl joinRooted p) = true ∧
      components (cs.foldl joinRooted p) = components p ++ cs := by
  induction cs generalizing p with
  | nil => exact ⟨hp, (List.append_nil _).symm⟩
  | cons c cs ih =>
    obtain ⟨hc, hcs⟩ := List.forall_mem_cons.1 h
    have hrooted := isRooted_of_isPiece (by decide) hc
    obtain ⟨hfold, hcomponents⟩ := ih (isRooted_joinRooted hp hrooted) hcs
    refine ⟨hfold, hcomponents.trans ?_⟩
    rw [components_eq_pieces, pieces_joinRooted (by decide) rfl, hrooted,
      if_neg Bool.false_ne_true, pieces_of_isPiece hc, List.append_assoc, List.singleton_append]
    rfl

/-! ## Runs -/

/-- The first run equal to `run` in `cs` stands behind `a` and before `b`. -/
structure IsFirstRun (run cs a b : List Text) : Prop where
  eq : cs = a ++ run ++ b
  first : ∀ a' b', cs = a' ++ run ++ b' → a.length ≤ a'.length

namespace IsFirstRun

/-- There is but one first run. -/
theorem unique {a' b' : List Text} (h : IsFirstRun run cs a b) (h' : IsFirstRun run cs a' b') :
    a = a' ∧ b = b' := by
  have hlen : a.length = a'.length :=
    Nat.le_antisymm (h.first a' b' h'.eq) (h'.first a b h.eq)
  have heq := h.eq.symm.trans h'.eq
  rw [List.append_assoc, List.append_assoc] at heq
  obtain ⟨ha, hrest⟩ := List.append_inj heq hlen
  exact ⟨ha, List.append_cancel_left hrest⟩

theorem isInfix (h : IsFirstRun run cs a b) : run <:+: cs :=
  ⟨a, b, h.eq.symm⟩

/-- A run at the start is the first. -/
theorem of_begins (run b : List Text) : IsFirstRun run (run ++ b) [] b :=
  ⟨rfl, fun _ _ _ => Nat.zero_le _⟩

/-- One more component before the first run, where none begins. -/
theorem cons {c : Text} (h : IsFirstRun run cs a b) (hc : ¬ run <+: c :: cs) :
    IsFirstRun run (c :: cs) (c :: a) b where
  eq := by rw [h.eq]; rfl
  first a' b' h' := by
    cases a' with
    | nil => exact absurd ⟨b', h'.symm⟩ hc
    | cons d a' =>
      have := h.first a' b' (List.cons.inj h').2
      simp only [List.length_cons]
      omega

/-- A run of components that differ from each other is the first if what stands before it has none:
it cannot begin there and end inside itself. -/
theorem of_nodup (hnodup : run.Nodup) (ha : ¬ run <:+: a) (b : List Text) :
    IsFirstRun run (a ++ run ++ b) a b := by
  refine ⟨rfl, fun a' b' heq => Nat.le_of_not_lt fun hlt => ?_⟩
  -- `d` is the part of `a` behind the start of the earlier run.
  have hpre : a' <+: a := by
    refine List.prefix_of_prefix_length_le ⟨run ++ b', ?_⟩ (List.prefix_append a (run ++ b))
      (Nat.le_of_lt hlt)
    rw [← List.append_assoc, ← heq, List.append_assoc]
  obtain ⟨d, rfl⟩ := hpre
  have hd : d ≠ [] := by
    rintro rfl
    simp at hlt
  simp only [List.append_assoc, List.append_cancel_left_eq] at heq
  obtain hle | hle := Nat.le_total run.length d.length
  · have hrun : run <+: d :=
      List.prefix_of_prefix_length_le ⟨b', rfl⟩ ⟨run ++ b, heq⟩ hle
    exact ha (hrun.isInfix.trans (List.suffix_append a' d).isInfix)
  · obtain ⟨r, rfl⟩ : d <+: run :=
      List.prefix_of_prefix_length_le ⟨_, heq⟩ ⟨b', rfl⟩ hle
    rw [List.append_assoc, List.append_assoc, List.append_cancel_left_eq] at heq
    obtain ⟨x, d, rfl⟩ := List.exists_cons_of_ne_nil hd
    cases r with
    | nil => exact ha ⟨a', [], by simp⟩
    | cons y r =>
      -- The run begins with `x`, and at the start of `r` with `y`.
      obtain rfl : x = y := (List.cons.inj heq).1
      simp at hnodup

end IsFirstRun

theorem afterRun?_cons (run : List Text) (c : Text) (cs : List Text) :
    afterRun? run (c :: cs) =
      if run.isPrefixOf (c :: cs) then some ((c :: cs).drop run.length) else afterRun? run cs := rfl

/-- The search finds the first run. -/
theorem isFirstRun_of_afterRun? (h : afterRun? run cs = some b) : ∃ a, IsFirstRun run cs a b := by
  induction cs with
  | nil =>
    unfold afterRun? at h
    split at h
    · rename_i hrun
      cases h
      rw [List.isEmpty_iff.1 hrun]
      exact ⟨[], .of_begins [] []⟩
    · cases h
  | cons c cs ih =>
    rw [afterRun?_cons] at h
    split at h
    · rename_i hrun
      obtain ⟨rest, hrest⟩ := List.isPrefixOf_iff_prefix.1 hrun
      rw [← hrest, List.drop_left] at h
      cases h
      exact ⟨[], hrest ▸ .of_begins run _⟩
    · rename_i hrun
      obtain ⟨a, ha⟩ := ih h
      exact ⟨c :: a, ha.cons fun hp => hrun (List.isPrefixOf_iff_prefix.2 hp)⟩

/-- There is nothing after a run that is not there. -/
theorem afterRun?_eq_none_iff : afterRun? run cs = none ↔ ¬ run <:+: cs := by
  induction cs with
  | nil =>
    unfold afterRun?
    simp
  | cons c cs ih =>
    rw [afterRun?_cons, List.infix_cons_iff]
    split
    · rename_i hrun
      simp [List.isPrefixOf_iff_prefix.1 hrun]
    · rename_i hrun
      rw [List.isPrefixOf_iff_prefix] at hrun
      rw [ih, or_iff_right hrun]

/-- What the search gives is what follows the first run. -/
theorem afterRun?_eq_some_iff : afterRun? run cs = some b ↔ ∃ a, IsFirstRun run cs a b := by
  constructor
  · exact isFirstRun_of_afterRun?
  · rintro ⟨a, ha⟩
    cases h : afterRun? run cs with
    | none => exact absurd ha.isInfix (afterRun?_eq_none_iff.1 h)
    | some b' =>
      obtain ⟨a', ha'⟩ := isFirstRun_of_afterRun? h
      rw [(ha.unique ha').2]

/-! ## What follows a path in another -/

theorem after?_eq_none (h : ¬ components sub <:+: components p) : after? p sub = none := by
  rw [after?, afterRun?_eq_none_iff.2 h]
  rfl

/-- What follows the first run, joined again. -/
theorem after?_eq_some (h : IsFirstRun (components sub) (components p) a b) :
    after? p sub = some (join [separator p] b) := by
  rw [after?, afterRun?_eq_some_iff.2 ⟨a, h⟩]
  rfl

/-- The components behind the first run are those of what follows it. -/
theorem components_after (h : IsFirstRun (components sub) (components p) a b) :
    components (join [separator p] b) = b := by
  refine components_join (isSeparator_separator p) fun c hc => isComponent_of_mem (p := p) ?_
  rw [h.eq]
  exact List.mem_append_right _ hc

/-- A path contains another if its components hold the others in a row. -/
theorem contains_iff : contains p sub = true ↔ components sub <:+: components p := by
  rw [contains, Option.isSome_iff_ne_none, ne_eq, afterRun?_eq_none_iff, Classical.not_not]

/-- The components of what follows are found without the paths themselves. -/
theorem map_components_after? (p sub : Text) :
    (after? p sub).map components = afterRun? (components sub) (components p) := by
  cases h : afterRun? (components sub) (components p) with
  | none =>
    rw [after?, h]
    rfl
  | some b =>
    obtain ⟨a, hrun⟩ := afterRun?_eq_some_iff.1 h
    rw [after?_eq_some hrun, Option.map_some, components_after hrun]

/-- **What follows the first run.** A path contains another if it has the components of the other in
a row. What follows them where they stand first has the components that follow, and a single
separator; nothing follows if the path does not contain the other. Both depend on the components
alone, so neither on the kind nor on the number of the separators between them. -/
theorem after_first_run (p sub : Text) :
    (contains p sub = true ↔ ∃ a b, components p = a ++ components sub ++ b) ∧
    (contains p sub = true → ∃ a b r, IsFirstRun (components sub) (components p) a b ∧
      after? p sub = some r ∧ components r = b ∧
      ∀ c ∈ r, isSeparator c = true → c = if '\\' ∈ p ∧ '/' ∉ p then '\\' else '/') ∧
    (contains p sub = false → after? p sub = none) ∧
    (∀ p' sub', components p' = components p → components sub' = components sub →
      contains p' sub' = contains p sub ∧
        (after? p' sub').map components = (after? p sub).map components) ∧
    ∀ x y u v, IsSeparation u → IsSeparation v →
      components (x ++ (u ++ y)) = components (x ++ (v ++ y)) := by
  refine ⟨?_, fun h => ?_, fun h => ?_, fun p' sub' hp hsub => ?_, fun x y u v hu hv => ?_⟩
  · rw [contains_iff]
    constructor
    · rintro ⟨a, b, hab⟩
      exact ⟨a, b, hab.symm⟩
    · rintro ⟨a, b, hab⟩
      exact ⟨a, b, hab.symm⟩
  · obtain ⟨b, hb⟩ := Option.isSome_iff_exists.1 h
    obtain ⟨a, hrun⟩ := afterRun?_eq_some_iff.1 hb
    refine ⟨a, b, _, hrun, after?_eq_some hrun, components_after hrun, fun c hc hsep => ?_⟩
    rw [← separator_eq]
    refine eq_of_mem_join (fun w hw => isComponent_of_mem (p := p) ?_) hc hsep
    rw [hrun.eq]
    exact List.mem_append_right _ hw
  · apply after?_eq_none
    rw [← contains_iff, h]
    exact Bool.false_ne_true
  · refine ⟨by rw [contains, contains, hp, hsub], ?_⟩
    rw [map_components_after?, map_components_after?, hp, hsub]
  · rw [components_append_separation hu, components_append_separation hv]

/-- A run whose first component stands once more before it, in a path with both separators, and the
same path with others. -/
theorem after_first_run_past_mixed_separators :
    let p : Text := "\\a/b/b\\\\c//d\\b/c/e".toList
    let p' : Text := "a\\b\\b\\c\\d\\b\\c\\e\\".toList
    let sub : Text := "b\\c\\".toList
    let sub' : Text := "/b/c".toList
    let other : Text := "b/d".toList
    (contains p sub = true ∧ ∃ a b r, IsFirstRun (components sub) (components p) a b ∧
      after? p sub = some r ∧ components r = b ∧
      ∀ c ∈ r, isSeparator c = true → c = if '\\' ∈ p ∧ '/' ∉ p then '\\' else '/') ∧
    (contains p other = false ∧ after? p other = none) ∧
    ((components p' = components p ∧ components sub' = components sub) ∧
      contains p' sub' = contains p sub ∧
        (after? p' sub').map components = (after? p sub).map components) ∧
    (IsSeparation ['\\', '/'] ∧ IsSeparation ['/']) ∧
      components (p ++ (['\\', '/'] ++ sub)) = components (p ++ (['/'] ++ sub)) := by
  intro p p' sub sub' other
  have hin : contains p sub = true := by decide +kernel
  have hnot : contains p other = false := by decide +kernel
  have hp : components p' = components p := by decide +kernel
  have hsub : components sub' = components sub := by decide +kernel
  have htwo : IsSeparation ['\\', '/'] := ⟨by decide, by simp [isSeparator]⟩
  have hone : IsSeparation ['/'] := ⟨by decide, by simp [isSeparator]⟩
  obtain ⟨-, hfollows, -, hsame, hrespelled⟩ := after_first_run p sub
  exact ⟨⟨hin, hfollows hin⟩, ⟨hnot, (after_first_run p other).2.2.1 hnot⟩,
    ⟨⟨hp, hsub⟩, hsame p' sub' hp hsub⟩, ⟨htwo, hone⟩,
    hrespelled p sub _ _ htwo hone⟩

end AsmLens.Path
