import AsmLens.Proofs.Lists
import AsmLens.Proofs.Text.Distance
import AsmLens.Suggestion

/-!
# What is suggested

The names within a distance are suggested as often as they are there, the nearest first, and those
at one distance in the order they are given in (`Suggestion.rank_nearest_first`). The distance is
the least number of edits between what follows the last colons. Sorting keeps the order at each
distance (`Suggestion.filter_sorted`) and leaves alone what it has sorted.
-/

namespace AsmLens.Suggestion

open Text

variable {names : List Text} {path : Text} {limit : Int}

/-- `s` is what follows the last colon of `p`, or all of `p` if there is none. -/
def IsLastSegment (p s : Text) : Prop :=
  ':' ∉ s ∧ (p = s ∨ ∃ a, p = a ++ ':' :: s)

/-- It takes `k` edits and no fewer to make the last segment of a name that of a path. -/
def IsSegmentDistance (path name : Text) (k : Nat) : Prop :=
  ∃ s w, IsLastSegment name s ∧ IsLastSegment path w ∧ IsLeast {n | Edited n s w} k

theorem isLastSegment_lastSegment (p : Text) : IsLastSegment p (lastSegment p) := by
  refine ⟨fun h => ?_, ?_⟩
  · simpa using List.all_eq_true.1 List.all_takeWhile _ (List.mem_reverse.1 h)
  · -- What the segment leaves of the path is empty or ends in the colon it stopped at.
    have hsplit : p = (p.reverse.dropWhile (· != ':')).reverse ++ lastSegment p := by
      rw [lastSegment, ← List.reverse_append, List.takeWhile_append_dropWhile, List.reverse_reverse]
    cases hrest : p.reverse.dropWhile (· != ':') with
    | nil =>
      rw [hrest] at hsplit
      exact .inl hsplit
    | cons c r =>
      have hc : c = ':' := by
        have hstop := eq_false_of_head?_dropWhile (congrArg List.head? hrest)
        simpa using hstop
      rw [hrest, hc, List.reverse_cons, List.append_assoc] at hsplit
      exact .inr ⟨r.reverse, hsplit⟩

/-- The distance of last segments is the least number of edits. -/
theorem isSegmentDistance (path name : Text) :
    IsSegmentDistance path name (segmentDistance path name) :=
  ⟨_, _, isLastSegment_lastSegment name, isLastSegment_lastSegment path, distance_isLeast _ _⟩

/-- The names, the nearest first. -/
def sorted (names : List Text) (path : Text) : List Text :=
  names.mergeSort fun a b => decide (segmentDistance path a ≤ segmentDistance path b)

theorem rank_eq_filter :
    rank names path limit =
      (sorted names path).filter fun n => decide ((segmentDistance path n : Int) ≤ limit) := rfl

theorem nearer_trans (path a b c : Text)
    (h : decide (segmentDistance path a ≤ segmentDistance path b) = true)
    (h' : decide (segmentDistance path b ≤ segmentDistance path c) = true) :
    decide (segmentDistance path a ≤ segmentDistance path c) = true :=
  decide_eq_true (Nat.le_trans (of_decide_eq_true h) (of_decide_eq_true h'))

theorem nearer_total (path a b : Text) :
    (decide (segmentDistance path a ≤ segmentDistance path b) ||
      decide (segmentDistance path b ≤ segmentDistance path a)) = true := by
  simpa using Nat.le_total (segmentDistance path a) (segmentDistance path b)

theorem pairwise_sorted (names : List Text) (path : Text) :
    (sorted names path).Pairwise fun m n => segmentDistance path m ≤ segmentDistance path n :=
  (List.pairwise_mergeSort (nearer_trans path) (nearer_total path) names).imp of_decide_eq_true

/-- At each distance sorting keeps the order. -/
theorem filter_sorted (names : List Text) (path : Text) (k : Nat) :
    (sorted names path).filter (fun n => segmentDistance path n = k) =
      names.filter fun n => segmentDistance path n = k := by
  -- Those at one distance are sorted as they stand, so sorting keeps them in a row.
  have hkept : (names.filter fun n => segmentDistance path n = k).Sublist (sorted names path) := by
    refine List.sublist_mergeSort (nearer_trans path) (nearer_total path) ?_ List.filter_sublist
    refine List.pairwise_of_forall_mem_list fun a ha b hb => ?_
    have hak := of_decide_eq_true (List.mem_filter.1 ha).2
    have hbk := of_decide_eq_true (List.mem_filter.1 hb).2
    exact decide_eq_true (Nat.le_of_eq (hak.trans hbk.symm))
  have hsub := hkept.filter fun n => decide (segmentDistance path n = k)
  simp only [List.filter_filter, Bool.and_self] at hsub
  exact (hsub.eq_of_length ((List.mergeSort_perm names _).filter _).length_eq.symm).symm

/-- What is sorted stays as it is. -/
theorem sorted_of_pairwise
    (h : names.Pairwise fun m n => segmentDistance path m ≤ segmentDistance path n) :
    sorted names path = names :=
  List.mergeSort_of_pairwise (h.imp fun h => decide_eq_true h)

/-- Nearer names come first. -/
theorem pairwise_rank (names : List Text) (path : Text) (limit : Int) :
    (rank names path limit).Pairwise fun m n =>
      segmentDistance path m ≤ segmentDistance path n := by
  rw [rank_eq_filter]
  exact (pairwise_sorted names path).filter _

/-- **The nearest names first.** Each name comes as often as it is given if its distance is within
the limit, else not at all; the distances rise, names at one distance keep their order, and what is
ranked stays as it is. -/
theorem rank_nearest_first (names : List Text) (path : Text) (limit : Int) :
    let d := segmentDistance path
    let ranked := rank names path limit
    (∀ n, IsSegmentDistance path n (d n)) ∧
    (∀ n, ranked.count n = if d n ≤ limit then names.count n else 0) ∧
    ranked.Pairwise (fun m n => d m ≤ d n) ∧
    (∀ k : Nat, ranked.filter (fun n => d n = k) =
      if k ≤ limit then names.filter (fun n => d n = k) else []) ∧
    rank ranked path limit = ranked := by
  intro d ranked
  have hperm : (sorted names path).Perm names := List.mergeSort_perm names _
  have hnear : ∀ n ∈ ranked, (d n : Int) ≤ limit := fun n hn =>
    of_decide_eq_true (List.mem_filter.1 hn).2
  refine ⟨isSegmentDistance path, fun n => ?_, pairwise_rank names path limit, fun k => ?_, ?_⟩
  · split
    · rename_i hn
      rw [← hperm.count_eq n]
      exact List.count_filter (p := fun n => decide ((d n : Int) ≤ limit)) (decide_eq_true hn)
    · rename_i hn
      exact List.count_eq_zero.2 fun hmem => hn (hnear n hmem)
  · split
    · rename_i hk
      refine Eq.trans ?_ (filter_sorted names path k)
      rw [show ranked = _ from rank_eq_filter, List.filter_filter]
      refine List.filter_congr fun n _ => ?_
      by_cases hn : d n = k
      · simp [d, hn, hk]
      · simp [d, hn]
    · rename_i hk
      refine List.filter_eq_nil_iff.2 fun n hn heq => hk ?_
      exact of_decide_eq_true heq ▸ hnear n hn
  · rw [rank_eq_filter, sorted_of_pairwise (pairwise_rank names path limit)]
    exact List.filter_eq_self.2 fun n hn => decide_eq_true (hnear n hn)

end AsmLens.Suggestion
