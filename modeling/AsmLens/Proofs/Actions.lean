import AsmLens.Journal
import AsmLens.Proofs.Outcome

/-!
# Outcomes of the steps of a run

A step hands its journal to the next (`outcome_bind`), and one that fails hands it to the step that
handles the failure (`outcome_tryCatch`). A step fails for a reason of its own or for one of the
steps it is made of, whatever the journal holds (`MayFail`); notes and warnings never fail.
-/

namespace AsmLens.Action

variable {α β : Type} {a : Action α} {e : Failure}

/-- With some journal the action fails for `e`. -/
def MayFail (a : Action α) (e : Failure) : Prop :=
  ∃ j, (a.outcome j).1 = .error e

/-- The second action sees the journal the first leaves. -/
theorem outcome_bind (a : Action α) (f : α → Action β) (j : Journal) :
    (a >>= f).outcome j =
      match a.outcome j with
      | (.ok x, j') => (f x).outcome j'
      | (.error e, j') => (.error e, j') := by
  unfold outcome
  rw [ExceptT.run_bind, StateT.run_bind]
  show (match a.run.run j with | (x, j') => _) = _
  rcases a.run.run j with ⟨x | x, j'⟩
  · rfl
  · rfl

/-- After a step that gives a result its journal goes on to the next. -/
theorem outcome_bind_of_ok {x : α} {j : Journal} (h : (a.outcome j).1 = .ok x) (f : α → Action β) :
    (a >>= f).outcome j = (f x).outcome (a.outcome j).2 := by
  rw [outcome_bind]
  rcases ha : a.outcome j with ⟨_, j'⟩
  rw [ha] at h
  cases h
  rfl

theorem outcome_ofExcept (x : Except Failure α) (j : Journal) : (ofExcept x).outcome j = (x, j) := by
  cases x with
  | error e => rfl
  | ok x => rfl

/-- An outcome that is known, as the first step. -/
theorem outcome_ofExcept_bind (x : Except Failure α) (f : α → Action β) (j : Journal) :
    ((ofExcept x >>= f).outcome j).1 = x >>= fun x => ((f x).outcome j).1 := by
  rw [outcome_bind, outcome_ofExcept]
  cases x with
  | error e => rfl
  | ok x => rfl

/-- A failure is handled with the journal that it left. -/
theorem outcome_tryCatch (a : Action α) (f : Failure → Action α) (j : Journal) :
    (tryCatch a f).outcome j =
      match a.outcome j with
      | (.ok x, j') => (.ok x, j')
      | (.error e, j') => (f e).outcome j' := by
  unfold outcome
  rw [ExceptT.run_tryCatch, StateT.run_bind]
  show (match a.run.run j with | (x, j') => _) = _
  rcases a.run.run j with ⟨x | x, j'⟩
  · rfl
  · rfl

/-- Two actions fail as the first does, or as the second. -/
theorem mayFail_of_bind {f : α → Action β} (h : MayFail (a >>= f) e) :
    MayFail a e ∨ ∃ x, MayFail (f x) e := by
  obtain ⟨j, h⟩ := h
  rw [outcome_bind] at h
  rcases ha : a.outcome j with ⟨e' | x, j'⟩
  · rw [ha] at h
    cases h
    exact .inl ⟨j, by rw [ha]⟩
  · rw [ha] at h
    exact .inr ⟨x, j', h⟩

theorem not_mayFail_pure (x : α) : ¬ MayFail (pure x : Action α) e := by
  rintro ⟨j, h⟩
  cases h

theorem mayFail_throw {e' : Failure} (h : MayFail (throw e' : Action α) e) : e = e' := by
  obtain ⟨j, h⟩ := h
  cases h
  rfl

theorem not_mayFail_modify (f : Journal → Journal) : ¬ MayFail (modify f : Action Unit) e := by
  rintro ⟨j, h⟩
  cases h

theorem mayFail_ofExcept {x : Except Failure α} (h : MayFail (ofExcept x) e) : x = .error e := by
  cases x with
  | ok x => exact absurd h (not_mayFail_pure x)
  | error e' => rw [mayFail_throw h]

end AsmLens.Action
