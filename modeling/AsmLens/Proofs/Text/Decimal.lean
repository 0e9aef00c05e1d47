import AsmLens.Proofs.Text.Trimming
import AsmLens.Text.Numeral
import Mathlib.Algebra.Group.Nat.Defs
import Mathlib.Data.List.Induction

/-!
# Decimal numerals

An integer that was read from a numeral is short enough to be read again from the numeral it is
written as (`isShort_of_integer?`, `integer?_integer`), and one that was read from digits alone is
written with digits alone.
-/

namespace AsmLens.Text

/-- The digits of a number are not too many for a numeral. -/
def IsShort (n : Nat) : Prop :=
  (natural n).length ≤ maxDigits

/-! ## Digits -/

theorem toNat_of_isDigit {c : Char} (h : c.isDigit = true) : 48 ≤ c.toNat ∧ c.toNat ≤ 57 :=
  Char.isDigit_iff_toNat.1 h

theorem decimalValue?_of_isDigit {c : Char} (h : c.isDigit = true) :
    decimalValue? c = some (c.toNat - 48) := by
  obtain ⟨h₁, h₂⟩ := toNat_of_isDigit h
  have hz : (decide (0x30 ≤ c.toNat) && decide (c.toNat < 0x30 + 10)) = true := by
    simp only [Bool.and_eq_true, decide_eq_true_eq]
    omega
  have hzeros : digitZeros = 0x30 :: digitZeros.tail := rfl
  have hfind : (digitZeros.find? fun z => decide (z ≤ c.toNat) && decide (c.toNat < z + 10)) =
      some 0x30 := by
    rw [hzeros]
    exact List.find?_cons_of_pos hz
  rw [decimalValue?, hfind, Option.map_some]

theorem isDigit_of_ascii {c : Char} (h : c.isDigit = true) : isDigit c = true := by
  rw [isDigit, decimalValue?_of_isDigit h]
  rfl

theorem decimalValue?_lt {c : Char} {d : Nat} (h : decimalValue? c = some d) : d < 10 := by
  obtain ⟨z, hz, rfl⟩ := Option.map_eq_some_iff.1 h
  have := List.find?_some hz
  simp only [Bool.and_eq_true, decide_eq_true_eq] at this
  omega

/-- Plain digits have their values, one by one. -/
theorem digitValues_of_digits {s : Text} (hne : s ≠ []) (h : ∀ c ∈ s, c.isDigit = true) :
    digitValues s = some (s.map fun c => c.toNat - 48) := by
  fun_induction digitValues s with
  | case1 => exact absurd rfl hne
  | case2 c => rw [decimalValue?_of_isDigit (h c List.mem_cons_self)]; rfl
  | case3 c s ih => exact absurd (h '_' (by simp)) (by decide)
  | case4 c s hnil _ ih =>
    have hs : s ≠ [] := by
      rintro rfl
      exact hnil rfl
    rw [decimalValue?_of_isDigit (h c List.mem_cons_self),
      ih hs fun d hd => h d (List.mem_cons_of_mem _ hd)]
    rfl

theorem lt_of_cons {c : Char} {x : Option (List Nat)} {ds : List Nat}
    (h : (do return (← decimalValue? c) :: (← x)) = some ds)
    (hx : ∀ es, x = some es → ∀ d ∈ es, d < 10) : ds ≠ [] ∧ ∀ d ∈ ds, d < 10 := by
  obtain ⟨d, hd, h⟩ := Option.bind_eq_some_iff.1 h
  obtain ⟨es, hes, h⟩ := Option.bind_eq_some_iff.1 h
  cases h
  refine ⟨List.cons_ne_nil _ _, fun e he => ?_⟩
  rcases List.mem_cons.1 he with rfl | he
  · exact decimalValue?_lt hd
  · exact hx es hes e he

theorem lt_of_digitValues {s : Text} {ds : List Nat} (h : digitValues s = some ds) :
    ds ≠ [] ∧ ∀ d ∈ ds, d < 10 := by
  fun_induction digitValues s generalizing ds with
  | case1 => cases h
  | case2 c =>
    obtain ⟨d, hd, rfl⟩ := Option.map_eq_some_iff.1 h
    refine ⟨List.cons_ne_nil _ _, fun e he => ?_⟩
    rw [List.mem_singleton.1 he]
    exact decimalValue?_lt hd
  | case3 c s ih => exact lt_of_cons h fun es hes => (ih hes).2
  | case4 c s hnil _ ih => exact lt_of_cons h fun es hes => (ih hes).2

/-- So many digits make no greater number. -/
theorem ofDigits_lt {ds : List Nat} (h : ∀ d ∈ ds, d < 10) : ofDigits ds < 10 ^ ds.length := by
  induction ds using List.reverseRecOn with
  | nil => simp [ofDigits]
  | append_singleton ds d ih =>
    have hd : d < 10 := h d (by simp)
    have ih := ih fun e he => h e (by simp [he])
    have hstep : ofDigits (ds ++ [d]) = 10 * ofDigits ds + d := by
      simp [ofDigits, List.foldl_append]
    rw [hstep, List.length_append, List.length_singleton, Nat.pow_succ]
    omega

/-! ## Natural numbers -/

theorem isDigit_of_mem_natural {n : Nat} {c : Char} (h : c ∈ natural n) : c.isDigit = true :=
  Nat.isDigit_of_mem_toDigits (by decide) (by decide) h

theorem natural_ne_nil (n : Nat) : natural n ≠ [] :=
  Nat.toDigits_ne_nil

/-- No number but zero begins with the digit zero. -/
theorem eq_zero_of_natural {n : Nat} {s : Text} (h : natural n = '0' :: s) : n = 0 ∧ s = [] := by
  induction n using Nat.strongRecOn generalizing s with
  | _ n ih =>
    rcases Nat.lt_or_ge n 10 with hn | hn
    · rw [natural, Nat.toDigits_of_lt_base hn] at h
      obtain ⟨hzero, hs⟩ := List.cons.inj h
      have hdigits : ∀ d < 10, Nat.digitChar d = '0' → d = 0 := by decide
      exact ⟨hdigits n hn hzero, hs.symm⟩
    · -- The first digit is that of a tenth of the number, which is not zero.
      obtain ⟨c, cs, hcs⟩ := List.exists_cons_of_ne_nil (natural_ne_nil (n / 10))
      rw [natural, Nat.toDigits_of_base_le (by decide) hn, ← natural, hcs] at h
      obtain ⟨rfl, -⟩ := List.cons.inj h
      have hzero := (ih (n / 10) (by omega) hcs).1
      omega

/-- The digits of a number make the number. -/
theorem ofDigits_natural (n : Nat) : ofDigits ((natural n).map fun c => c.toNat - 48) = n := by
  have h := Nat.ofDigitChars_ten_toDigits (n := n)
  rw [ofDigits, List.foldl_map]
  exact h

/-- A number that is short can be read from its digits. -/
theorem natural?_natural {n : Nat} (h : IsShort n) : natural? (natural n) = some n := by
  rw [natural?, digitValues_of_digits (natural_ne_nil n) fun c hc => isDigit_of_mem_natural hc,
    Option.bind_some, List.length_map, ofDigits_natural]
  exact if_pos h

/-- A number of not too many digits is short. -/
theorem isShort_ofDigits {ds : List Nat} (hne : ds ≠ []) (hlt : ∀ d ∈ ds, d < 10)
    (hlen : ds.length ≤ maxDigits) : IsShort (ofDigits ds) := by
  have hpos : 0 < ds.length := List.length_pos_iff.2 hne
  exact Nat.le_trans ((Nat.length_toDigits_le_iff (by decide) hpos).2 (ofDigits_lt hlt)) hlen

/-- A number that was read is short. -/
theorem isShort_of_natural? {s : Text} {n : Nat} (h : natural? s = some n) : IsShort n := by
  unfold natural? at h
  obtain ⟨ds, hds, h⟩ := Option.bind_eq_some_iff.1 h
  split at h
  · rename_i hlen
    cases h
    obtain ⟨hne, hlt⟩ := lt_of_digitValues hds
    exact isShort_ofDigits hne hlt hlen
  · cases h

/-! ## Integers -/

theorem mem_integer {i : Int} {c : Char} (h : c ∈ integer i) : c = '-' ∨ c.isDigit = true := by
  cases i with
  | ofNat n => exact .inr (isDigit_of_mem_natural h)
  | negSucc n =>
    rcases List.mem_cons.1 h with rfl | h
    · exact .inl rfl
    · exact .inr (isDigit_of_mem_natural h)

theorem integer_ne_nil (i : Int) : integer i ≠ [] := by
  cases i with
  | ofNat n => exact natural_ne_nil n
  | negSucc n => exact List.cons_ne_nil _ _

/-- The numeral of an integer that is not negative has digits only. -/
theorem isDigit_of_mem_integer {i : Int} (hi : 0 ≤ i) {c : Char} (h : c ∈ integer i) :
    isDigit c = true := by
  cases i with
  | ofNat n => exact isDigit_of_ascii (isDigit_of_mem_natural h)
  | negSucc n => omega

theorem isSolid_integer (i : Int) : IsSolid (integer i) := by
  intro c hc
  rcases mem_integer hc with rfl | hd
  · decide
  · obtain ⟨h₁, h₂⟩ := toNat_of_isDigit hd
    apply Bool.eq_false_iff.2
    intro hb
    obtain ⟨r, hr, hl, hu⟩ := inRanges_iff.1 hb
    simp only [blankRanges, List.mem_cons, List.not_mem_nil, or_false] at hr
    rcases hr with rfl | rfl | rfl | rfl | rfl | rfl | rfl | rfl | rfl | rfl <;>
      simp only at hl hu <;> omega

/-- The numeral of a text, without the blanks that may stand around it. -/
def stripNumeral (s : Text) : Text :=
  ((s.dropWhile isNumeralBlank).reverse.dropWhile isNumeralBlank).reverse

theorem stripNumeral_of_isSolid {s : Text} (h : IsSolid s) : stripNumeral s = s := by
  have hdrop : ∀ u : Text, (∀ c ∈ u, isBlank c = false) → u.dropWhile isNumeralBlank = u := by
    intro u hu
    apply dropWhile_eq_self_of_head
    intro c hc
    simp [isNumeralBlank, hu c (List.mem_of_head? hc)]
  rw [stripNumeral, hdrop s h, hdrop s.reverse fun c hc => h c (List.mem_reverse.1 hc),
    List.reverse_reverse]

theorem mem_of_mem_stripNumeral {s : Text} {c : Char} (h : c ∈ stripNumeral s) : c ∈ s := by
  rw [stripNumeral, List.mem_reverse] at h
  have h := (List.dropWhile_sublist _).subset h
  exact (List.dropWhile_sublist _).subset (List.mem_reverse.1 h)

/-- A numeral is a number, or a number behind a minus sign. -/
theorem integer?_cases {s : Text} {i : Int} (h : integer? s = some i) :
    (∃ (n : Nat) (u : Text), natural? u = some n ∧ i = (n : Int)) ∨
      ∃ (n : Nat) (u : Text), stripNumeral s = '-' :: u ∧ natural? u = some n ∧ i = -(n : Int) := by
  unfold integer? at h
  split at h
  · rename_i u hu
    obtain ⟨j, hj, rfl⟩ := Option.map_eq_some_iff.1 h
    obtain ⟨n, hn, hj⟩ := Option.bind_eq_some_iff.1 hj
    cases hj
    exact .inr ⟨n, u, hu, hn, rfl⟩
  · obtain ⟨n, hn, rfl⟩ := Option.map_eq_some_iff.1 h
    exact .inl ⟨n, _, hn, rfl⟩
  · obtain ⟨n, hn, rfl⟩ := Option.map_eq_some_iff.1 h
    exact .inl ⟨n, _, hn, rfl⟩

/-- An integer that was read is short. -/
theorem isShort_of_integer? {s : Text} {i : Int} (h : integer? s = some i) : IsShort i.natAbs := by
  rcases integer?_cases h with ⟨n, u, hn, rfl⟩ | ⟨n, u, -, hn, rfl⟩
  · exact isShort_of_natural? hn
  · rw [Int.natAbs_neg]
    exact isShort_of_natural? hn

/-- What is read from digits alone is not negative. -/
theorem nonneg_of_digits {s : Text} {i : Int} (hs : ∀ c ∈ s, isDigit c = true)
    (h : integer? s = some i) : 0 ≤ i := by
  rcases integer?_cases h with ⟨n, u, -, rfl⟩ | ⟨n, u, hu, -, -⟩
  · exact Int.natCast_nonneg n
  · have hmem : '-' ∈ s := mem_of_mem_stripNumeral (by rw [hu]; exact List.mem_cons_self)
    exact absurd (hs '-' hmem) (by decide)

/-- Without blanks and signs an integer is read as a natural number. -/
theorem integer?_of_unsigned {s : Text} (hs : IsSolid s) (hsign : ∀ c ∈ s, c ≠ '-' ∧ c ≠ '+') :
    integer? s = (natural? s).map Int.ofNat := by
  have hstrip : stripNumeral s = s := stripNumeral_of_isSolid hs
  unfold stripNumeral at hstrip
  rw [integer?, hstrip]
  split
  · exact absurd rfl (hsign '-' List.mem_cons_self).1
  · exact absurd rfl (hsign '+' List.mem_cons_self).2
  · rfl

/-- **An integer that is short is read back from its numeral.** -/
theorem integer?_integer {i : Int} (h : IsShort i.natAbs) : integer? (integer i) = some i := by
  cases i with
  | ofNat n =>
    have hsign : ∀ c ∈ natural n, c ≠ '-' ∧ c ≠ '+' := by
      intro c hc
      have hd := toNat_of_isDigit (isDigit_of_mem_natural hc)
      constructor
      · rintro rfl
        exact absurd hd (by decide)
      · rintro rfl
        exact absurd hd (by decide)
    have hn : natural? (natural n) = some n := natural?_natural h
    have hsolid : IsSolid (natural n) := isSolid_integer (.ofNat n)
    rw [integer, integer?_of_unsigned hsolid hsign, hn]
    rfl
  | negSucc n =>
    have hn : natural? (natural (n + 1)) = some (n + 1) := natural?_natural h
    have hstrip : stripNumeral (integer (.negSucc n)) = integer (.negSucc n) :=
      stripNumeral_of_isSolid (isSolid_integer _)
    unfold stripNumeral at hstrip
    rw [integer?, hstrip]
    unfold integer
    simp only [hn]
    rfl

/-! ## Digits that no numeral is written with -/

/-- A text without underscores is no numeral if and only if one of its characters is no digit. -/
theorem digitValues_eq_none_iff {s : Text} (hne : s ≠ []) (hs : '_' ∉ s) :
    digitValues s = none ↔ ∃ c ∈ s, decimalValue? c = none := by
  fun_induction digitValues s with
  | case1 => exact absurd rfl hne
  | case2 c => simp
  | case3 c s ih => exact absurd (by simp) hs
  | case4 c s hnil _ ih =>
    have hsne : s ≠ [] := by
      rintro rfl
      exact hnil rfl
    have ih := ih hsne fun h => hs (List.mem_cons_of_mem _ h)
    simp only [List.mem_cons, exists_eq_or_imp, ← ih]
    cases decimalValue? c <;> cases digitValues s <;> simp

theorem length_of_digitValues {s : Text} {ds : List Nat} (hs : '_' ∉ s)
    (h : digitValues s = some ds) : ds.length = s.length := by
  fun_induction digitValues s generalizing ds with
  | case1 => cases h
  | case2 c =>
    obtain ⟨d, -, rfl⟩ := Option.map_eq_some_iff.1 h
    rfl
  | case3 c s ih => exact absurd (by simp) hs
  | case4 c s hnil _ ih =>
    obtain ⟨d, -, h⟩ := Option.bind_eq_some_iff.1 h
    obtain ⟨es, hes, h⟩ := Option.bind_eq_some_iff.1 h
    cases h
    rw [List.length_cons, ih (fun h => hs (List.mem_cons_of_mem _ h)) hes, List.length_cons]

/-- A word of digits is no numeral if it is too long, or if one of its digits has no decimal
value. -/
theorem integer?_eq_none_iff {s : Text} (hs : IsSolid s) (hne : s ≠ [])
    (hd : ∀ c ∈ s, isDigit c = true) :
    integer? s = none ↔ maxDigits < s.length ∨ ∃ c ∈ s, decimalValue? c = none := by
  have hno : ∀ d, isDigit d = false → d ∉ s := fun d hf hm => by
    rw [hd d hm] at hf
    cases hf
  have hsign : ∀ c ∈ s, c ≠ '-' ∧ c ≠ '+' := fun c hc =>
    ⟨fun h => hno '-' (by decide) (h ▸ hc), fun h => hno '+' (by decide) (h ▸ hc)⟩
  have hunder : '_' ∉ s := hno '_' (by decide)
  rw [integer?_of_unsigned hs hsign, Option.map_eq_none_iff, natural?,
    ← digitValues_eq_none_iff hne hunder]
  cases hv : digitValues s with
  | none => simp
  | some ds =>
    rw [Option.bind_some, length_of_digitValues hunder hv, ite_eq_right_iff]
    simp only [reduceCtorEq, imp_false, or_false, Nat.not_le]

end AsmLens.Text
