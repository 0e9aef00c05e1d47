import AsmLens.Proofs.Lists
import AsmLens.Source.Reference
import Mathlib.Data.List.Sort

/-!
# Lines that are referred to

The references of a function hold each file that it refers to once, with all lines that it refers to
there (`mem_references_iff`). Filling the short gaps of line numbers adds the numbers between two
neighbours that are less than the limit apart, unless the first of them is line 0, and nothing else
(`mem_fillGaps_iff`). No short gap is left (`not_inGap_fillGaps`), so the filled numbers stay as they
are, in rising order.
-/

namespace AsmLens.Source

/-! ## References -/

section

variable {f : Function}

/-- The lines of a file that a function refers to. -/
def linesOf (f : Function) (index : Int) : List Int :=
  ((referencedLocs f).filter (·.file == index)).map Loc.line

theorem mem_linesOf_iff {i l : Int} :
    l ∈ linesOf f i ↔ ∃ r ∈ referencedLocs f, r.file = i ∧ r.line = l := by
  simp [linesOf, and_assoc]

/-- The lines referred to, file by file. -/
theorem mem_references_iff {i : Int} {ls : List Int} :
    (i, ls) ∈ references f ↔ (∃ r ∈ referencedLocs f, r.file = i) ∧ ls = linesOf f i := by
  rw [references, List.mem_map]
  constructor
  · rintro ⟨k, hk, h⟩
    cases h
    exact ⟨List.mem_map.1 (List.mem_eraseDups.1 hk), rfl⟩
  · rintro ⟨h, rfl⟩
    exact ⟨i, List.mem_eraseDups.2 (List.mem_map.2 h), rfl⟩

theorem nodup_references (f : Function) : ((references f).map Prod.fst).Nodup := by
  have hkeys : (references f).map Prod.fst = ((referencedLocs f).map Loc.file).eraseDups := by
    simp [references, Function.comp_def]
  exact hkeys ▸ nodup_eraseDups _

end

/-! ## Gaps -/

section

variable {limit l : Int} {ls : List Int}

/-- Two of the numbers with none of them in between. -/
structure Neighbours (ls : List Int) (a b : Int) : Prop where
  left : a ∈ ls
  right : b ∈ ls
  lt : a < b
  apart : ∀ c ∈ ls, c ≤ a ∨ b ≤ c

/-- The number lies in a short gap. -/
def InGap (limit : Int) (ls : List Int) (l : Int) : Prop :=
  ∃ a b, Neighbours ls a b ∧ a ≠ 0 ∧ b - a < limit ∧ a < l ∧ l < b

theorem Neighbours.congr {ls' : List Int} (h : ∀ a, a ∈ ls ↔ a ∈ ls') {a b : Int} :
    Neighbours ls a b ↔ Neighbours ls' a b :=
  ⟨fun n => ⟨(h a).1 n.left, (h b).1 n.right, n.lt, fun c hc => n.apart c ((h c).2 hc)⟩,
    fun n => ⟨(h a).2 n.left, (h b).2 n.right, n.lt, fun c hc => n.apart c ((h c).1 hc)⟩⟩

theorem mem_between_iff {a b : Int} : l ∈ between a b ↔ a < l ∧ l < b := by
  rw [between, List.mem_map]
  constructor
  · rintro ⟨k, hk, rfl⟩
    have := List.mem_range.1 hk
    omega
  · rintro ⟨ha, hb⟩
    exact ⟨(l - a - 1).toNat, List.mem_range.2 (by omega), by omega⟩

/-- The first number of a rising list is the least. -/
theorem le_of_mem_rising {a c : Int} (h : (a :: ls).Pairwise (· < ·)) (hc : c ∈ a :: ls) :
    a ≤ c := by
  rcases List.mem_cons.1 hc with rfl | hc
  · exact le_rfl
  · exact (List.rel_of_pairwise_cons h hc).le

/-- In a rising list the first two are neighbours, and so are those of the rest. -/
theorem neighbours_cons_cons_iff {a b x y : Int} (h : (a :: b :: ls).Pairwise (· < ·)) :
    Neighbours (a :: b :: ls) x y ↔ (x = a ∧ y = b) ∨ Neighbours (b :: ls) x y := by
  obtain ⟨hafter, hrest⟩ := List.pairwise_cons.1 h
  have hab := hafter b List.mem_cons_self
  have hb : ∀ c ∈ b :: ls, b ≤ c := fun c hc => le_of_mem_rising hrest hc
  constructor
  · intro n
    have hy : y ∈ b :: ls := by
      refine (List.mem_cons.1 n.right).resolve_left ?_
      rintro rfl
      rcases List.mem_cons.1 n.left with rfl | hx
      · exact lt_irrefl _ n.lt
      · exact lt_asymm n.lt (hafter x hx)
    rcases List.mem_cons.1 n.left with rfl | hx
    · have := n.apart b (List.mem_cons_of_mem _ List.mem_cons_self)
      exact .inl ⟨rfl, le_antisymm (this.resolve_left (not_le.2 hab)) (hb y hy)⟩
    · exact .inr ⟨hx, hy, n.lt, fun c hc => n.apart c (List.mem_cons_of_mem _ hc)⟩
  · rintro (⟨rfl, rfl⟩ | n)
    · exact ⟨List.mem_cons_self, List.mem_cons_of_mem _ List.mem_cons_self, hab,
        List.forall_mem_cons.2 ⟨.inl le_rfl, fun c hc => .inr (hb c hc)⟩⟩
    · exact ⟨List.mem_cons_of_mem _ n.left, List.mem_cons_of_mem _ n.right, n.lt,
        List.forall_mem_cons.2 ⟨.inl (hafter x n.left).le, n.apart⟩⟩

/-- Filling adds the lines of the short gaps. -/
theorem mem_fillBetween_iff (h : ls.Pairwise (· < ·)) :
    l ∈ fillBetween limit ls ↔ l ∈ ls ∨ InGap limit ls l := by
  -- The cases are those of the recursion; a list of at most one number has no neighbours.
  induction ls with
  | nil =>
    have hgap : ¬ InGap limit [] l := fun ⟨a, _, n, _⟩ => List.not_mem_nil n.left
    simp [fillBetween, hgap]
  | cons a ls ih =>
    cases ls with
    | nil =>
      have hgap : ¬ InGap limit [a] l := by
        rintro ⟨x, y, n, -⟩
        have hx := List.mem_singleton.1 n.left
        have hy := List.mem_singleton.1 n.right
        exact absurd n.lt (by omega)
      simp [fillBetween, hgap]
    | cons b ls =>
      have ih := ih (List.pairwise_cons.1 h).2
      have hgap : InGap limit (a :: b :: ls) l ↔
          (a ≠ 0 ∧ b - a < limit ∧ a < l ∧ l < b) ∨ InGap limit (b :: ls) l := by
        simp only [InGap, neighbours_cons_cons_iff h, or_and_right, exists_or]
        simp
      rw [fillBetween, hgap, List.mem_cons]
      split
      · rename_i hfill
        rw [List.cons_append, List.mem_cons, List.mem_append, mem_between_iff, ih, or_assoc,
          or_left_comm (b := l ∈ b :: ls)]
        simp only [hfill.1, hfill.2, ne_eq, not_false_eq_true, true_and]
      · rename_i hfill
        have hnot : ¬ (a ≠ 0 ∧ b - a < limit ∧ a < l ∧ l < b) := fun hg => hfill ⟨hg.1, hg.2.1⟩
        rw [List.mem_cons, ih, or_assoc, or_iff_right hnot]

theorem mem_mergeSort_eraseDups :
    l ∈ ls.eraseDups.mergeSort (fun a b => decide (a ≤ b)) ↔ l ∈ ls := by
  rw [List.mem_mergeSort, List.mem_eraseDups]

theorem pairwise_mergeSort_eraseDups (ls : List Int) :
    (ls.eraseDups.mergeSort fun a b => decide (a ≤ b)).Pairwise (· < ·) := by
  refine rising_mergeSort_eraseDups (fun a b c => ?_) (fun a b => ?_) (fun h hne => ?_) ls
  · simpa using Int.le_trans
  · simpa using Int.le_total a b
  · exact lt_of_le_of_ne (of_decide_eq_true h) hne

/-- Filling gaps adds the numbers in short gaps. -/
theorem mem_fillGaps_iff : l ∈ fillGaps limit ls ↔ l ∈ ls ∨ InGap limit ls l := by
  rw [fillGaps, mem_fillBetween_iff (pairwise_mergeSort_eraseDups ls), mem_mergeSort_eraseDups]
  simp only [InGap, Neighbours.congr fun _ => mem_mergeSort_eraseDups]

/-- There is but one rising list of the numbers. -/
theorem fillGaps_eq {us : List Int} (hm : ∀ l, l ∈ ls ↔ l ∈ us) (hu : us.Pairwise (· < ·))
    (limit : Int) : fillGaps limit ls = fillBetween limit us := by
  rw [fillGaps, eq_of_rising lt_asymm (pairwise_mergeSort_eraseDups ls) hu fun l =>
    mem_mergeSort_eraseDups.trans (hm l)]

/-- What is filled depends on the numbers alone, not on their order or their repeats. -/
theorem fillGaps_congr {us : List Int} (hm : ∀ l, l ∈ ls ↔ l ∈ us) (limit : Int) :
    fillGaps limit ls = fillGaps limit us :=
  fillGaps_eq (fun l => (hm l).trans mem_mergeSort_eraseDups.symm)
    (pairwise_mergeSort_eraseDups us) limit

/-! ### Filled numbers -/

theorem pairwise_between (a b : Int) : (between a b).Pairwise (· < ·) := by
  rw [between, List.pairwise_map]
  apply List.pairwise_lt_range.imp
  intro i j hij
  omega

/-- Nothing is filled in before the first number. -/
theorem le_of_mem_fillBetween {b c : Int} (h : (b :: ls).Pairwise (· < ·))
    (hc : c ∈ fillBetween limit (b :: ls)) : b ≤ c := by
  rcases (mem_fillBetween_iff h).1 hc with hc | ⟨x, _, n, -, -, hx, -⟩
  · exact le_of_mem_rising h hc
  · exact (le_of_mem_rising h n.left).trans hx.le

theorem pairwise_fillBetween (h : ls.Pairwise (· < ·)) :
    (fillBetween limit ls).Pairwise (· < ·) := by
  induction ls with
  | nil => exact List.Pairwise.nil
  | cons a ls ih =>
    cases ls with
    | nil => exact List.pairwise_singleton _ _
    | cons b ls =>
      obtain ⟨hafter, hrest⟩ := List.pairwise_cons.1 h
      have hab : a < b := hafter b List.mem_cons_self
      have hfrom : ∀ c ∈ fillBetween limit (b :: ls), b ≤ c := fun c hc =>
        le_of_mem_fillBetween hrest hc
      rw [fillBetween]
      split
      · rw [List.cons_append, List.pairwise_cons, List.pairwise_append]
        refine ⟨fun c hc => ?_, pairwise_between a b, ih hrest, fun c hc d hd => ?_⟩
        · rcases List.mem_append.1 hc with hc | hc
          · exact (mem_between_iff.1 hc).1
          · exact hab.trans_le (hfrom c hc)
        · exact (mem_between_iff.1 hc).2.trans_le (hfrom d hd)
      · exact List.pairwise_cons.2 ⟨fun c hc => hab.trans_le (hfrom c hc), ih hrest⟩

/-- The filled lines come in their order, each once. -/
theorem pairwise_fillGaps (limit : Int) (ls : List Int) :
    (fillGaps limit ls).Pairwise (· < ·) :=
  pairwise_fillBetween (pairwise_mergeSort_eraseDups ls)

/-- A number that was filled in stands between the numbers next to it. -/
theorem InGap.adjacent (h : InGap limit ls l) :
    l - 1 ∈ fillGaps limit ls ∧ l + 1 ∈ fillGaps limit ls := by
  obtain ⟨a, b, n, ha, hlimit, hal, hlb⟩ := h
  have hin : ∀ k, a ≤ k → k ≤ b → k ∈ fillGaps limit ls := by
    intro k hak hkb
    apply mem_fillGaps_iff.2
    rcases hak.eq_or_lt with rfl | hak
    · exact .inl n.left
    · rcases hkb.eq_or_lt with rfl | hkb
      · exact .inl n.right
      · exact .inr ⟨a, b, n, ha, hlimit, hak, hkb⟩
  exact ⟨hin _ (by omega) (by omega), hin _ (by omega) (by omega)⟩

/-- Neighbours with numbers missing between them were neighbours before the filling. -/
theorem Neighbours.of_fillGaps {a b : Int} (n : Neighbours (fillGaps limit ls) a b)
    (hab : a + 1 < b) : Neighbours ls a b where
  -- Had one of them been filled in, the number next to it would stand between the two.
  left := by
    refine (mem_fillGaps_iff.1 n.left).resolve_right fun h => ?_
    have := n.apart _ h.adjacent.2
    omega
  right := by
    refine (mem_fillGaps_iff.1 n.right).resolve_right fun h => ?_
    have := n.apart _ h.adjacent.1
    omega
  lt := n.lt
  apart c hc := n.apart c (mem_fillGaps_iff.2 (.inl hc))

/-- No short gap is left. -/
theorem not_inGap_fillGaps : ¬ InGap limit (fillGaps limit ls) l := by
  rintro ⟨a, b, n, ha, hlimit, hal, hlb⟩
  have hold : InGap limit ls l := ⟨a, b, n.of_fillGaps (by omega), ha, hlimit, hal, hlb⟩
  have := n.apart l (mem_fillGaps_iff.2 (.inr hold))
  omega

/-- **Short gaps are filled.** The filled numbers rise strictly. They are the given ones and those
that lie in a short gap between two neighbours, whatever the order and the repeats of the given
ones; filling them once more adds nothing. -/
theorem fillGaps_fills_short_gaps (limit : Int) (ls : List Int) :
    (fillGaps limit ls).Pairwise (· < ·) ∧
    (∀ l ∈ ls, l ∈ fillGaps limit ls) ∧
    (∀ l, l ∉ ls → (l ∈ fillGaps limit ls ↔
      ∃ a b, Neighbours ls a b ∧ a ≠ 0 ∧ b - a < limit ∧ a < l ∧ l < b)) ∧
    (∀ us : List Int, (∀ l, l ∈ us ↔ l ∈ ls) → fillGaps limit us = fillGaps limit ls) ∧
    fillGaps limit (fillGaps limit ls) = fillGaps limit ls := by
  refine ⟨pairwise_fillGaps limit ls, fun l hl => mem_fillGaps_iff.2 (.inl hl), fun l hl => ?_,
    fun us hus => fillGaps_congr hus limit, ?_⟩
  · rw [mem_fillGaps_iff, or_iff_right hl]
    rfl
  · refine eq_of_rising lt_asymm (pairwise_fillGaps _ _) (pairwise_fillGaps _ _) fun l => ?_
    rw [mem_fillGaps_iff, or_iff_left not_inGap_fillGaps]

/-- Line 0 begins no gap, a negative line does, and a gap as wide as the limit stays open. -/
theorem fillGaps_fills_short_gaps_around_zero :
    let ls : List Int := [3, -2, 0, 3, 7, 12]
    let us : List Int := [12, 0, 7, 3, 12, -2]
    fillGaps 5 ls = [-2, -1, 0, 3, 4, 5, 6, 7, 12] ∧
    (5 ∉ ls ∧ ∃ a b, Neighbours ls a b ∧ a ≠ 0 ∧ b - a < 5 ∧ a < 5 ∧ 5 < b) ∧
    (∀ l, l ∈ us ↔ l ∈ ls) ∧ fillGaps 5 us = fillGaps 5 ls ∧
    fillGaps 5 (fillGaps 5 ls) = fillGaps 5 ls := by
  intro ls us
  obtain ⟨-, -, hfilled, hset, htwice⟩ := fillGaps_fills_short_gaps 5 ls
  have hsorted : ∀ l, l ∈ ls ↔ l ∈ ([-2, 0, 3, 7, 12] : List Int) := by
    intro l
    simp only [ls, List.mem_cons, List.not_mem_nil, or_false]
    omega
  have hls : fillGaps 5 ls = [-2, -1, 0, 3, 4, 5, 6, 7, 12] :=
    (fillGaps_eq hsorted (by decide) 5).trans (by decide)
  have hfive : (5 : Int) ∉ ls := by decide
  have hus : ∀ l, l ∈ us ↔ l ∈ ls := by
    intro l
    simp only [us, ls, List.mem_cons, List.not_mem_nil, or_false]
    omega
  exact ⟨hls, ⟨hfive, (hfilled 5 hfive).1 (hls ▸ by decide)⟩, hus, hset us hus, htwice⟩

end

end AsmLens.Source
