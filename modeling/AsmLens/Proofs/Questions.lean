import AsmLens.Proofs.Source.Limit

/-!
# What the steps of a run ask

What a step comes to, which questions it puts to the toolchain and what it writes to the output do
not depend on what was done before it (`Toolchain.Does`). Building and asking for the target
directory put one question each, or fail before they do. Correlating asks for the sysroot only if a
source path that the function refers to is not there and leads into the standard library
(`asks_ofFunction`).
-/

namespace AsmLens

open Text Source

namespace Toolchain

/-- The command that puts a question to the toolchain. -/
def command? (t : Toolchain) : Query → Except Failure Command
  | .build => t.buildWords.map fun words => ⟨words, some t.compilerFlags⟩
  | .metadata => t.metadataWords.map fun words => ⟨words, none⟩
  | .sysroot => .ok ⟨t.sysrootWords, none⟩

/-- Whatever was done before, the action comes to `r`, gives the commands for the questions `qs` and
adds `out` to the output. -/
structure Does (t : Toolchain) {α : Type} (a : Action α) (r : Except Failure α) (qs : List Query)
    (out : Text) : Prop where
  outcome : ∀ j, (a.outcome j).1 = r
  commands : ∀ j, ∃ cs, (a.outcome j).2.commands = j.commands ++ cs ∧
    cs.map .ok = qs.map t.command?
  output : ∀ j, (a.outcome j).2.output = j.output ++ out

/-- The action writes nothing and puts the questions `qs`. -/
def Asks (t : Toolchain) {α : Type} (a : Action α) (qs : List Query) : Prop :=
  ∃ r, t.Does a r qs []

variable {t : Toolchain} {α β : Type} {a : Action α} {f : α → Action β} {qs qs' : List Query}
  {out out' : Text} {e : Failure}

/-! ## Single steps -/

namespace Does

theorem pure (t : Toolchain) (x : α) : t.Does (Pure.pure x) (.ok x) [] [] :=
  ⟨fun _ => rfl, fun j => ⟨[], (List.append_nil j.commands).symm, rfl⟩,
    fun j => (List.append_nil j.output).symm⟩

theorem throw (t : Toolchain) (e : Failure) :
    t.Does (MonadExcept.throw e : Action α) (.error e) [] [] :=
  ⟨fun _ => rfl, fun j => ⟨[], (List.append_nil j.commands).symm, rfl⟩,
    fun j => (List.append_nil j.output).symm⟩

theorem ofExcept (t : Toolchain) (x : Except Failure α) : t.Does (Action.ofExcept x) x [] [] := by
  cases x with
  | ok x => exact pure t x
  | error e => exact throw t e

/-- Changing something else in the journal. -/
theorem modify (t : Toolchain) {g : Journal → Journal} (hc : ∀ j, (g j).commands = j.commands)
    (ho : ∀ j, (g j).output = j.output) : t.Does (modify g : Action Unit) (.ok ()) [] [] :=
  ⟨fun _ => rfl, fun j => ⟨[], (hc j).trans (List.append_nil j.commands).symm, rfl⟩,
    fun j => (ho j).trans (List.append_nil j.output).symm⟩

theorem warn (t : Toolchain) (w : Warning) : t.Does (Action.warn w) (.ok ()) [] [] :=
  modify t (fun _ => rfl) fun _ => rfl

theorem report (t : Toolchain) (text : Text) : t.Does (Action.report text) (.ok ()) [] [] :=
  modify t (fun _ => rfl) fun _ => rfl

theorem note {q : Query} {c : Command} (h : t.command? q = .ok c) :
    t.Does (Action.note c) (.ok ()) [q] [] :=
  ⟨fun _ => rfl, fun _ => ⟨[c], rfl, by rw [List.map_singleton, List.map_singleton, h]⟩,
    fun j => (List.append_nil j.output).symm⟩

theorem write (t : Toolchain) (text : Text) : t.Does (Action.write text) (.ok ()) [] text :=
  ⟨fun _ => rfl, fun j => ⟨[], (List.append_nil j.commands).symm, rfl⟩, fun _ => rfl⟩

/-! ## One step after another -/

/-- What an action comes to does not depend on the journal. -/
theorem outcome_eq {r : Except Failure α} (ha : t.Does a r qs out) (j : Journal) :
    a.outcome j = (r, (a.outcome j).2) :=
  Prod.ext (ha.outcome j) rfl

/-- An action that leaves the journal as another leaves it. -/
theorem of_same {b : Action β} {r : Except Failure α} {r' : Except Failure β}
    (ha : t.Does a r qs out) (h : ∀ j, b.outcome j = (r', (a.outcome j).2)) :
    t.Does b r' qs out := by
  refine ⟨fun j => ?_, fun j => ?_, fun j => ?_⟩
  · rw [h]
  · rw [h]
    exact ha.commands j
  · rw [h]
    exact ha.output j

/-- An action that goes on from the journal that another leaves. -/
theorem of_next {b g : Action β} {r : Except Failure α} {r' : Except Failure β}
    (ha : t.Does a r qs out) (hg : t.Does g r' qs' out')
    (h : ∀ j, b.outcome j = g.outcome (a.outcome j).2) : t.Does b r' (qs ++ qs') (out ++ out') := by
  refine ⟨fun j => ?_, fun j => ?_, fun j => ?_⟩
  · rw [h]
    exact hg.outcome _
  · rw [h]
    obtain ⟨cs, hcs, hqs⟩ := ha.commands j
    obtain ⟨cs', hcs', hqs'⟩ := hg.commands (a.outcome j).2
    refine ⟨cs ++ cs', ?_, ?_⟩
    · rw [hcs', hcs, List.append_assoc]
    · rw [List.map_append, hqs, hqs', List.map_append]
  · rw [h, hg.output, ha.output, List.append_assoc]

/-- A step that gives a result goes before the next. -/
theorem bind {x : α} {r : Except Failure β} (ha : t.Does a (.ok x) qs out)
    (hf : t.Does (f x) r qs' out') : t.Does (a >>= f) r (qs ++ qs') (out ++ out') :=
  ha.of_next hf fun j => Action.outcome_bind_of_ok (ha.outcome j) f

/-- After a step that fails nothing is done. -/
theorem bind_error (ha : t.Does a (.error e) qs out) : t.Does (a >>= f) (.error e) qs out :=
  ha.of_same fun j => by rw [Action.outcome_bind, ha.outcome_eq]

/-- A result leaves nothing to handle. -/
theorem catch_ok {x : α} {handle : Failure → Action α} (ha : t.Does a (.ok x) qs out) :
    t.Does (tryCatch a handle) (.ok x) qs out :=
  ha.of_same fun j => by rw [Action.outcome_tryCatch, ha.outcome_eq]

/-- A failure is handled after what was done before it. -/
theorem catch_error {handle : Failure → Action α} {r : Except Failure α}
    (ha : t.Does a (.error e) qs out) (hh : t.Does (handle e) r qs' out') :
    t.Does (tryCatch a handle) r (qs ++ qs') (out ++ out') :=
  ha.of_next hh fun j => by rw [Action.outcome_tryCatch, ha.outcome_eq]

end Does

/-- A step that asks nothing may follow. -/
theorem Asks.bind (ha : t.Asks a qs) (hf : ∀ x, t.Asks (f x) []) : t.Asks (a >>= f) qs := by
  obtain ⟨r, ha⟩ := ha
  cases r with
  | error e => exact ⟨_, ha.bind_error⟩
  | ok x =>
    obtain ⟨r, hf⟩ := hf x
    have hboth := ha.bind hf
    rw [List.append_nil] at hboth
    exact ⟨r, hboth⟩

theorem asks_ofExcept (t : Toolchain) (x : Except Failure α) : t.Asks (Action.ofExcept x) [] :=
  ⟨x, .ofExcept t x⟩

/-! ## Questions -/

/-- A command that can be put together is asked once. -/
theorem asks_ask {q : Query} {words : List Text} {flags : Option Text}
    {notStarted : Text → Failure} (h : t.command? q = .ok ⟨words, flags⟩) :
    t.Asks (t.ask q words flags notStarted) [q] := by
  unfold ask
  refine Asks.bind ⟨_, .note h⟩ fun _ => ?_
  split
  · exact ⟨_, .pure t _⟩
  · exact ⟨_, .throw t _⟩
  · exact ⟨_, .throw t _⟩
  · exact ⟨_, .throw t _⟩

/-- The action puts a question, or fails before it does. -/
def AsksOrFails (t : Toolchain) {α : Type} (a : Action α) (q : Query) : Prop :=
  t.Asks a [q] ∨ ∃ e, t.Does a (.error e) [] []

/-- What follows known words puts the question; without the words it fails. -/
theorem asksOrFails_of_words {q : Query} {words : Except Failure (List Text)}
    {f : List Text → Action α} (h : ∀ ws, words = .ok ws → t.Asks (f ws) [q]) :
    t.AsksOrFails (Action.ofExcept words >>= f) q := by
  cases words with
  | error e => exact .inr ⟨e, (Does.ofExcept t _).bind_error⟩
  | ok ws =>
    obtain ⟨r, hr⟩ := h ws rfl
    exact .inl ⟨r, (Does.ofExcept t (.ok ws)).bind hr⟩

/-- A build asks one question, or fails before it. -/
theorem build_asks (t : Toolchain) : t.AsksOrFails t.build .build := by
  unfold build
  dsimp only
  split
  · exact .inr ⟨_, (Does.throw t _).bind_error⟩
  · refine asksOrFails_of_words fun words hwords => ?_
    refine (asks_ask (by rw [command?, hwords, map_ok])).bind fun ⟨code, output, diagnostics⟩ => ?_
    dsimp only
    split
    · exact ⟨_, (Does.throw t _).bind_error⟩
    · split
      · exact ⟨_, .report t _⟩
      · exact ⟨_, .pure t _⟩

theorem targetDirectory_asks (t : Toolchain) : t.AsksOrFails t.targetDirectory .metadata := by
  unfold targetDirectory
  refine asksOrFails_of_words fun words hwords => ?_
  refine (asks_ask (by rw [command?, hwords, map_ok])).bind fun ⟨code, output, diagnostics⟩ => ?_
  dsimp only
  split
  · exact ⟨_, (Does.throw t _).bind_error⟩
  · exact asks_ofExcept t _

/-- The sysroot takes one question. -/
theorem sysroot_asks (t : Toolchain) : t.Asks t.sysroot [.sysroot] := by
  unfold sysroot
  refine (asks_ask rfl).bind fun ⟨code, output, diagnostics⟩ => ?_
  dsimp only
  split
  · exact ⟨_, (Does.throw t _).bind_error⟩
  · exact ⟨_, .pure t _⟩

end Toolchain

namespace Correlation

open Toolchain

variable {t : Toolchain} {fs : FileSystem} {base : Option Text} {limit : Int} {f : Function}
  {table : FileTable}

/-- A source path that the function refers to, after resolution against the base directory, is not
there and leads into the standard library. -/
def IsDisplaced (fs : FileSystem) (base : Option Text) (f : Function) (table : FileTable) : Prop :=
  ∃ r ∈ referencedLocs f, ∃ file, table.get? r.file = some file ∧
    fs.finds (resolve fs base file.path) = false ∧
    (libraryTail? (resolve fs base file.path)).isSome = true

theorem isDisplaced_of_needsSysroot {asked : Sources} (hasked : wanted limit f table = .ok asked)
    (h : needsSysroot fs (resolveAll fs base asked) = true) : IsDisplaced fs base f table := by
  rw [needsSysroot_eq, paths_resolveAll, paths_of_wanted hasked, List.any_eq_true] at h
  obtain ⟨path, hpath, hdisplaced⟩ := h
  obtain ⟨known, hknown, rfl⟩ := List.mem_map.1 hpath
  obtain ⟨⟨i, ls⟩, href, rfl⟩ := List.mem_map.1 hknown
  obtain ⟨⟨r, hr, rfl⟩, -⟩ := mem_references_iff.1 href
  obtain ⟨file, hfile⟩ := exists_wanted_iff.1 ⟨asked, hasked⟩ r hr
  simp only [hfile, Option.map_some, Option.getD_some] at hdisplaced
  exact ⟨r, hr, file, hfile, displaced?_isSome_iff.1 hdisplaced⟩

theorem asks_readAll (t : Toolchain) (fs : FileSystem) (s : Sources) :
    t.Asks (readAll fs s) [] := by
  unfold readAll
  dsimp only
  split
  · exact (asks_ofExcept t _).bind fun _ => ⟨_, .pure t _⟩
  · exact Asks.bind ⟨_, .warn t _⟩ fun _ => (asks_ofExcept t _).bind fun _ => ⟨_, .pure t _⟩

/-- Correlating puts no question, or that for the sysroot if some path needs it. -/
theorem asks_ofFunction (t : Toolchain) (fs : FileSystem) (limit : Int) (base : Option Text)
    (f : Function) (table : FileTable) :
    t.Asks (ofFunction fs t.sysroot limit base f table) [] ∨
      t.Asks (ofFunction fs t.sysroot limit base f table) [.sysroot] ∧
        IsDisplaced fs base f table := by
  unfold ofFunction
  cases hasked : wanted limit f table with
  | error e => exact .inl ⟨_, (Does.ofExcept t _).bind_error⟩
  | ok asked =>
    have hfirst : ∀ {qs}, t.Asks (corrected fs t.sysroot (resolveAll fs base asked)) qs →
        t.Asks (Action.ofExcept (.ok asked) >>= fun asked =>
          corrected fs t.sysroot (resolveAll fs base asked) >>= readAll fs) qs := by
      intro qs h
      obtain ⟨r, hr⟩ := h.bind (asks_readAll t fs)
      exact ⟨r, (Does.ofExcept t (.ok asked)).bind hr⟩
    cases hneeds : needsSysroot fs (resolveAll fs base asked) with
    | true =>
      refine .inr ⟨hfirst ?_, isDisplaced_of_needsSysroot hasked hneeds⟩
      rw [corrected, if_pos hneeds]
      exact (sysroot_asks t).bind fun _ => ⟨_, .pure t _⟩
    | false =>
      refine .inl (hfirst ?_)
      rw [corrected, hneeds, if_neg Bool.false_ne_true]
      exact ⟨_, .pure t _⟩

end Correlation

end AsmLens
