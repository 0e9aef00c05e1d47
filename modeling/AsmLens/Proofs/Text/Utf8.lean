import AsmLens.Proofs.Outcome
import AsmLens.Text.Utf8

/-!
# Bytes that are text

A character is read back from its bytes, whatever follows them (`firstChar_encodeChar`), and bytes
that are read as a character are those it is written as (`encodeChar_of_firstChar`). So a sequence
of bytes is text exactly if it is what some text is written as, and that text is then read
(`decode?_eq_some_iff`).
-/

namespace AsmLens.Text

variable {n m k used : Nat} {b : UInt8} {bs : List UInt8} {c : Char}

theorem toNat_ofNat_byte (h : n < 256) : (UInt8.ofNat n).toNat = n := by
  rw [UInt8.toNat_ofNat']
  exact Nat.mod_eq_of_lt h

@[simp] theorem toNat_laterByte (n : Nat) : (laterByte n).toNat = 0x80 + n % 64 :=
  toNat_ofNat_byte (by omega)

theorem eq_ofNat_byte (h : b.toNat = n) : b = UInt8.ofNat n := by
  rw [← h, UInt8.ofNat_toNat]

theorem eq_laterByte (h : b.toNat = 0x80 + n % 64) : b = laterByte n :=
  eq_ofNat_byte h

/-- A number that is no half of a pair and within the planes is that of its character. -/
theorem toNat_ofNat_char (h : n < 0xd800 ∨ 0xe000 ≤ n ∧ n < 0x110000) :
    (Char.ofNat n).toNat = n := by
  have hvalid : n.isValidChar := by
    unfold Nat.isValidChar
    omega
  rw [Char.ofNat, dif_pos hvalid]
  rfl

/-- No character is half a pair, and all are in the planes that pairs reach. -/
theorem toNat_cases (c : Char) : c.toNat < 0xd800 ∨ 0xe000 ≤ c.toNat ∧ c.toNat < 0x110000 := by
  have h := c.valid
  simp only [UInt32.isValidChar, Nat.isValidChar] at h
  unfold Char.toNat
  omega

/-! ## The four lengths -/

theorem encodeChar_one (hc : c.toNat = n) (h : n < 0x80) : encodeChar c = [UInt8.ofNat n] := by
  rw [encodeChar, hc]
  exact if_pos h

theorem encodeChar_two (hc : c.toNat = n) (h : 0x80 ≤ n) (h' : n < 0x800) :
    encodeChar c = [UInt8.ofNat (0xc0 + n / 64), laterByte n] := by
  rw [encodeChar, hc]
  exact (if_neg (by omega)).trans (if_pos h')

theorem encodeChar_three (hc : c.toNat = n) (h : 0x800 ≤ n) (h' : n < 0x10000) :
    encodeChar c = [UInt8.ofNat (0xe0 + n / 0x1000), laterByte (n / 64), laterByte n] := by
  rw [encodeChar, hc]
  exact (if_neg (by omega)).trans ((if_neg (by omega)).trans (if_pos h'))

theorem encodeChar_four (hc : c.toNat = n) (h : 0x10000 ≤ n) :
    encodeChar c = [UInt8.ofNat (0xf0 + n / 0x40000), laterByte (n / 0x1000), laterByte (n / 64),
      laterByte n] := by
  rw [encodeChar, hc]
  exact (if_neg (by omega)).trans ((if_neg (by omega)).trans (if_neg (by omega)))

/-! ## From characters to bytes and back -/

@[simp] theorem moreBytes_zero (n : Nat) (bs : List UInt8) : moreBytes n 0 bs = (some n, 0) := by
  cases bs <;> rfl

/-- The last six bits of a number are taken from a byte that follows. -/
theorem moreBytes_laterByte (n k : Nat) (bs : List UInt8) :
    moreBytes (n / 64) (k + 1) (laterByte n :: bs) =
      ((moreBytes n k bs).1, (moreBytes n k bs).2 + 1) := by
  have hsum : n / 64 * 64 + (0x80 + n % 64 - 0x80) = n := by omega
  rw [moreBytes, toNat_laterByte, if_pos (by omega), hsum]

theorem firstChar_of_lt (h : b.toNat < 0x80) (bs : List UInt8) :
    firstChar b bs = (some (Char.ofNat b.toNat), 0) := by
  unfold firstChar
  rw [if_pos h]

/-- What a first byte and a second one in its range begin. -/
theorem firstChar_of_lead {lo hi : Nat} {d : UInt8} (hb : 0x80 ≤ b.toNat)
    (hlead : leadByte? b.toNat = some (n, lo, hi, k)) (hd : lo ≤ d.toNat ∧ d.toNat ≤ hi)
    (bs : List UInt8) :
    firstChar b (d :: bs) = ((moreBytes (n * 64 + (d.toNat - 0x80)) k bs).1.map Char.ofNat,
      (moreBytes (n * 64 + (d.toNat - 0x80)) k bs).2 + 1) := by
  unfold firstChar
  rw [if_neg (by omega), hlead]
  dsimp only
  rw [if_pos hd]

/-- The first of two bytes. -/
theorem leadByte?_two (h : 0x80 ≤ n) (h' : n < 0x800) :
    leadByte? (0xc0 + n / 64) = some (n / 64, 0x80, 0xbf, 0) := by
  rw [leadByte?, if_pos (by omega), Nat.add_sub_cancel_left]

/-- The first of three bytes, and what the second has to be. -/
theorem leadByte?_three (h : 0x800 ≤ n) (h' : n < 0xd800 ∨ 0xe000 ≤ n ∧ n < 0x10000) :
    ∃ lo hi, leadByte? (0xe0 + n / 0x1000) = some (n / 0x1000, lo, hi, 1) ∧
      lo ≤ 0x80 + n / 64 % 64 ∧ 0x80 + n / 64 % 64 ≤ hi := by
  unfold leadByte?
  rw [if_neg (by omega)]
  split
  · exact ⟨_, _, by rw [show n / 0x1000 = 0 by omega], by omega, by omega⟩
  split
  · exact ⟨_, _, by rw [show n / 0x1000 = 0xd by omega], by omega, by omega⟩
  · exact ⟨_, _, by rw [if_pos (by omega), Nat.add_sub_cancel_left], by omega, by omega⟩

/-- The first of four bytes, and what the second has to be. -/
theorem leadByte?_four (h : 0x10000 ≤ n) (h' : n < 0x110000) :
    ∃ lo hi, leadByte? (0xf0 + n / 0x40000) = some (n / 0x40000, lo, hi, 2) ∧
      lo ≤ 0x80 + n / 0x1000 % 64 ∧ 0x80 + n / 0x1000 % 64 ≤ hi := by
  unfold leadByte?
  rw [if_neg (by omega), if_neg (by omega), if_neg (by omega), if_neg (by omega)]
  split
  · exact ⟨_, _, by rw [show n / 0x40000 = 0 by omega], by omega, by omega⟩
  split
  · exact ⟨_, _, by rw [Nat.add_sub_cancel_left], by omega, by omega⟩
  · exact ⟨_, _, by rw [if_pos (by omega), show n / 0x40000 = 4 by omega], by omega, by omega⟩

/-- **A character is read back from its bytes**, whatever follows them. -/
theorem firstChar_encodeChar (c : Char) (r : List UInt8) :
    ∃ b bs, encodeChar c = b :: bs ∧ firstChar b (bs ++ r) = (some c, bs.length) := by
  have hc := toNat_cases c
  have hread : Char.ofNat c.toNat = c := Char.ofNat_toNat c
  obtain ⟨n, hn⟩ : ∃ n, c.toNat = n := ⟨_, rfl⟩
  rw [hn] at hc hread
  rcases Nat.lt_or_ge n 0x80 with h | h
  · have hb : (UInt8.ofNat n).toNat = n := toNat_ofNat_byte (by omega)
    exact ⟨_, _, encodeChar_one hn h, by rw [firstChar_of_lt (by omega), hb, hread]; rfl⟩
  rcases Nat.lt_or_ge n 0x800 with h' | h'
  · have hb : (UInt8.ofNat (0xc0 + n / 64)).toNat = 0xc0 + n / 64 := toNat_ofNat_byte (by omega)
    have hsum : n / 64 * 64 + (0x80 + n % 64 - 0x80) = n := by omega
    refine ⟨_, _, encodeChar_two hn h h', ?_⟩
    rw [List.cons_append, firstChar_of_lead (by omega)
      (by rw [hb]; exact leadByte?_two h h') (by rw [toNat_laterByte]; omega),
      toNat_laterByte, hsum, moreBytes_zero, Option.map_some, hread]
    rfl
  rcases Nat.lt_or_ge n 0x10000 with h'' | h''
  · have hb : (UInt8.ofNat (0xe0 + n / 0x1000)).toNat = 0xe0 + n / 0x1000 :=
      toNat_ofNat_byte (by omega)
    obtain ⟨lo, hi, hlead, hrange⟩ := leadByte?_three h' (by omega)
    have hsum : n / 0x1000 * 64 + (0x80 + n / 64 % 64 - 0x80) = n / 64 := by omega
    refine ⟨_, _, encodeChar_three hn h' h'', ?_⟩
    rw [List.cons_append, firstChar_of_lead (by omega) (by rw [hb]; exact hlead)
      (by rw [toNat_laterByte]; exact hrange), toNat_laterByte, hsum, List.cons_append,
      moreBytes_laterByte, moreBytes_zero, Option.map_some, hread]
    rfl
  · have hb : (UInt8.ofNat (0xf0 + n / 0x40000)).toNat = 0xf0 + n / 0x40000 :=
      toNat_ofNat_byte (by omega)
    obtain ⟨lo, hi, hlead, hrange⟩ := leadByte?_four h'' (by omega)
    have hsum : n / 0x40000 * 64 + (0x80 + n / 0x1000 % 64 - 0x80) = n / 64 / 64 := by omega
    refine ⟨_, _, encodeChar_four hn h'', ?_⟩
    rw [List.cons_append, firstChar_of_lead (by omega) (by rw [hb]; exact hlead)
      (by rw [toNat_laterByte]; exact hrange), toNat_laterByte, hsum, List.cons_append,
      moreBytes_laterByte, List.cons_append, moreBytes_laterByte, moreBytes_zero,
      Option.map_some, hread]
    rfl

/-! ## From bytes to characters and back -/

/-- Each byte that follows gives its last six bits. -/
theorem moreBytes_succ_eq_some {v : Nat} (h : moreBytes n (k + 1) bs = (some v, used)) :
    ∃ d ds used', bs = d :: ds ∧ used = used' + 1 ∧ 0x80 ≤ d.toNat ∧ d.toNat ≤ 0xbf ∧
      moreBytes (n * 64 + (d.toNat - 0x80)) k ds = (some v, used') := by
  cases bs with
  | nil => cases h
  | cons d ds =>
    rw [moreBytes] at h
    split at h
    · rename_i hd
      obtain ⟨hv, rfl⟩ := Prod.mk.inj h
      exact ⟨d, ds, _, rfl, rfl, hd.1, hd.2, Prod.ext hv rfl⟩
    · cases h

/-- What a first byte says, once the second gave its bits too: how many more follow, and the range
of the bits so far. -/
theorem leadByte?_eq_some {p lo hi d : Nat} (h : leadByte? n = some (p, lo, hi, k))
    (hd : lo ≤ d ∧ d ≤ hi) :
    0x80 ≤ d ∧ d ≤ 0xbf ∧
    ((k = 0 ∧ n = 0xc0 + p ∧ 0x80 ≤ p * 64 + (d - 0x80) ∧ p * 64 + (d - 0x80) < 0x800) ∨
      (k = 1 ∧ n = 0xe0 + p ∧ 0x20 ≤ p * 64 + (d - 0x80) ∧
        (p * 64 + (d - 0x80) < 0x360 ∨ 0x380 ≤ p * 64 + (d - 0x80)) ∧
        p * 64 + (d - 0x80) < 0x400) ∨
      (k = 2 ∧ n = 0xf0 + p ∧ 0x10 ≤ p * 64 + (d - 0x80) ∧ p * 64 + (d - 0x80) < 0x110)) := by
  unfold leadByte? at h
  -- One case for each kind of first byte; in each the bounds follow from its range.
  repeat' split at h
  all_goals simp only [Option.some.injEq, Prod.mk.injEq, reduceCtorEq] at h
  all_goals omega

/-- **Bytes that are read as a character are those it is written as.** -/
theorem encodeChar_of_firstChar (h : firstChar b bs = (some c, n)) :
    encodeChar c = b :: bs.take n := by
  unfold firstChar at h
  split at h
  · rename_i hb
    obtain ⟨hc, rfl⟩ := Prod.mk.inj h
    have hn : c.toNat = b.toNat := by
      rw [← Option.some.inj hc]
      exact toNat_ofNat_char (by omega)
    rw [encodeChar_one hn hb, ← eq_ofNat_byte rfl]
    rfl
  split at h
  · rename_i p lo hi k d ds hlead
    split at h
    · rename_i hd
      obtain ⟨hc, rfl⟩ := Prod.mk.inj h
      obtain ⟨v, hv, rfl⟩ := Option.map_eq_some_iff.1 hc
      obtain ⟨hlo, hhi, hkind⟩ := leadByte?_eq_some hlead hd
      have hmore : moreBytes (p * 64 + (d.toNat - 0x80)) k ds =
          (some v, (moreBytes (p * 64 + (d.toNat - 0x80)) k ds).2) := Prod.ext hv rfl
      -- The bits of the bytes make up the number, whose bytes are then the same.
      rcases hkind with ⟨rfl, hn, hmin, hmax⟩ | ⟨rfl, hn, hmin, hhalf, hmax⟩ | ⟨rfl, hn, hmin, hmax⟩
      · rw [moreBytes_zero] at hmore ⊢
        have hv := Option.some.inj (Prod.mk.inj hmore).1
        rw [encodeChar_two (toNat_ofNat_char (by omega)) (by omega) (by omega),
          ← eq_ofNat_byte (b := b) (by omega), ← eq_laterByte (b := d) (by omega)]
        rfl
      · obtain ⟨e, es, used, rfl, hused, helo, hehi, hrest⟩ := moreBytes_succ_eq_some hmore
        rw [moreBytes_zero] at hrest
        have hv := Option.some.inj (Prod.mk.inj hrest).1
        have hused' := (Prod.mk.inj hrest).2
        rw [hused, ← hused', encodeChar_three (toNat_ofNat_char (by omega)) (by omega) (by omega),
          ← eq_ofNat_byte (b := b) (by omega), ← eq_laterByte (b := d) (by omega),
          ← eq_laterByte (b := e) (by omega)]
        rfl
      · obtain ⟨e, es, used, rfl, hused, helo, hehi, hrest⟩ := moreBytes_succ_eq_some hmore
        obtain ⟨f, fs, used, rfl, rfl, hflo, hfhi, hrest⟩ := moreBytes_succ_eq_some hrest
        rw [moreBytes_zero] at hrest
        have hv := Option.some.inj (Prod.mk.inj hrest).1
        have hused' := (Prod.mk.inj hrest).2
        rw [hused, ← hused', encodeChar_four (toNat_ofNat_char (by omega)) (by omega),
          ← eq_ofNat_byte (b := b) (by omega), ← eq_laterByte (b := d) (by omega),
          ← eq_laterByte (b := e) (by omega), ← eq_laterByte (b := f) (by omega)]
        rfl
    · cases h
  · cases h

/-! ## Texts -/

theorem scan_nil : scan [] = [] := by rw [scan]

theorem scan_cons (b : UInt8) (bs : List UInt8) :
    scan (b :: bs) = (firstChar b bs).1 :: scan (bs.drop (firstChar b bs).2) := by
  rw [scan]

/-- Encoded text is read back, character by character. -/
theorem scan_encode (s : Text) : scan (encode s) = s.map some := by
  induction s with
  | nil => exact scan_nil
  | cons c s ih =>
    obtain ⟨b, bs, hbs, hfirst⟩ := firstChar_encodeChar c (encode s)
    have hencode : encode (c :: s) = b :: (bs ++ encode s) := by
      rw [encode, List.flatMap_cons, hbs]
      rfl
    rw [hencode, scan_cons, hfirst, List.drop_left, ih, List.map_cons]

/-- Bytes that are read without a failure are the encoding of what was read. -/
theorem encode_of_scan {s : Text} (h : scan bs = s.map some) : encode s = bs := by
  -- Each character of the text stands for the bytes that were read for it.
  induction s generalizing bs with
  | nil =>
    cases bs with
    | nil => rfl
    | cons b bs =>
      rw [scan_cons] at h
      cases h
  | cons c s ih =>
    cases bs with
    | nil =>
      rw [scan_nil] at h
      cases h
    | cons b bs =>
      rw [scan_cons, List.map_cons] at h
      obtain ⟨hfirst, hrest⟩ := List.cons.inj h
      have hchar := encodeChar_of_firstChar (Prod.ext hfirst rfl)
      rw [encode, List.flatMap_cons, hchar, show s.flatMap encodeChar = _ from ih hrest,
        List.cons_append, List.take_append_drop]

/-- **Bytes are text exactly if they are what the text is written as.** -/
theorem decode?_eq_some_iff {s : Text} : decode? bs = some s ↔ bs = encode s := by
  have hscan : decode? bs = some s ↔ scan bs = s.map some := mapM_id_eq_some_iff
  rw [hscan]
  constructor
  · exact fun h => (encode_of_scan h).symm
  · rintro rfl
    exact scan_encode s

/-- No two texts have one encoding. -/
theorem encode_inj {s t : Text} (h : encode s = encode t) : s = t := by
  have hs : decode? (encode t) = some s := decode?_eq_some_iff.2 h.symm
  rw [decode?_eq_some_iff.2 rfl] at hs
  exact (Option.some.inj hs).symm

end AsmLens.Text
