import AsmLens.Proofs.Json.CodePoint
import AsmLens.Proofs.Json.Fields
import AsmLens.Proofs.Outcome
import AsmLens.Proofs.Text.Decimal
import Mathlib.Data.List.TakeWhile

/-!
# What is read

Whatever a text holds, what is read of it can be written and read again (`IsReadable`), and the two
problems that are not mended say what is in the text: a run of more digits than an integer may have,
or more opening brackets than values may be nested (`isReadable_of_parse`, `hasDigits_of_parse`,
`lt_openings_of_parse`). Each reader keeps the contract `Reads`, which is closed under sequencing; a
value in brackets is read at less depth from a text with one bracket less.
-/

namespace AsmLens.Json

open Text

/-- A value as it can be read: its integers are not too long, its strings and names are joined, and
no object has a name twice. -/
inductive IsReadable : Json → Prop where
  | null : IsReadable null
  | bool (b : Bool) : IsReadable (bool b)
  | int {n : Int} (h : IsShort n.natAbs) : IsReadable (int n)
  | real (x : Binary64) : IsReadable (real x)
  | str {s : Str} (h : s.IsJoined) : IsReadable (str s)
  | arr {vs : List Json} (h : ∀ v ∈ vs, IsReadable v) : IsReadable (arr vs)
  | obj {fs : Fields} (names : (fs.map Prod.fst).Nodup) (joined : ∀ f ∈ fs, f.1.IsJoined)
    (h : ∀ f ∈ fs, IsReadable f.2) : IsReadable (obj fs)

/-- The text has `n` digits in a row. -/
def HasDigits (n : Nat) (s : Text) : Prop :=
  ∃ ds, ds <:+: s ∧ ds.length = n ∧ ∀ c ∈ ds, c.isDigit = true

/-- How many arrays and objects a text may open. -/
def openings (s : Text) : Nat :=
  s.countP fun c => c == '[' || c == '\x7b'

/-- What reading from the start of a text comes to within a depth: a result of the kind and a rest
of the text, or a problem, which tells of too many digits or too many openings only if they are
there. -/
def Reads {α : Type} (Kind : α → Prop) (depth : Nat) (s : Text) : Except Stop (α × Text) → Prop
  | .ok (a, r) => Kind a ∧ r <:+ s
  | .error ⟨.longInteger n, _⟩ => maxDigits < n ∧ HasDigits n s
  | .error ⟨.tooDeep, _⟩ => depth < openings s
  | .error _ => True

variable {α β : Type} {P : α → Prop} {Q : β → Prop} {d n : Nat} {r s : Text} {c : Char}

/-! ## The contract -/

theorem HasDigits.of_suffix (h : HasDigits n r) (hr : r <:+ s) : HasDigits n s := by
  obtain ⟨ds, hds, hn, hdigits⟩ := h
  exact ⟨ds, hds.trans hr.isInfix, hn, hdigits⟩

theorem openings_le_of_suffix (h : r <:+ s) : openings r ≤ openings s :=
  h.sublist.countP_le

/-- What is read of a rest is read of the text. -/
theorem Reads.of_suffix {x : Except Stop (α × Text)} (h : Reads P d r x) (hr : r <:+ s) :
    Reads P d s x := by
  unfold Reads at h ⊢
  split at h
  · exact ⟨h.1, h.2.trans hr⟩
  · exact ⟨h.1, h.2.of_suffix hr⟩
  · exact Nat.lt_of_lt_of_le h (openings_le_of_suffix hr)
  · trivial

theorem openings_cons (hc : c = '[' ∨ c = '\x7b') (s : Text) :
    openings (c :: s) = openings s + 1 := by
  rcases hc with rfl | rfl <;> exact List.countP_cons_of_pos rfl

/-- What is read behind a bracket is read at less depth. -/
theorem Reads.behind {x : Except Stop (α × Text)} (h : Reads P d s x) (hc : c = '[' ∨ c = '\x7b') :
    Reads P (d + 1) (c :: s) x := by
  have hs : s <:+ c :: s := List.suffix_cons c s
  unfold Reads at h ⊢
  split at h
  · exact ⟨h.1, h.2.trans hs⟩
  · exact ⟨h.1, h.2.of_suffix hs⟩
  · exact openings_cons hc s ▸ Nat.succ_lt_succ h
  · trivial

/-- Two steps of the reader, of which the second sees what the first leaves. -/
theorem Reads.bind {x : Except Stop (α × Text)} {g : α × Text → Except Stop (β × Text)}
    (h : Reads P d s x) (hg : ∀ a r, P a → r <:+ s → Reads Q d s (g (a, r))) :
    Reads Q d s (x >>= g) := by
  cases x with
  | ok p => exact hg p.1 p.2 h.1 h.2
  | error e =>
    obtain ⟨problem, left⟩ := e
    cases problem <;> exact h

/-- What was read may be changed to what is wanted. -/
theorem Reads.map {x : Except Stop (α × Text)} {f : α → β} (h : Reads P d s x)
    (hf : ∀ a, P a → Q (f a)) : Reads Q d s (x.map fun (a, r) => (f a, r)) := by
  have hbind : (x.map fun (a, r) => (f a, r)) = x >>= fun p => .ok (f p.1, p.2) := by
    cases x <;> rfl
  rw [hbind]
  exact h.bind fun a r ha hr => ⟨hf a ha, hr⟩

/-! ## Strings -/

theorem reads_escape_error {e : Stop} (h : escape s = .error e) (t : Text) :
    Reads P d t (.error e) := by
  unfold escape at h
  split at h
  · cases h
    trivial
  · split at h
    · cases h
      trivial
    · split at h <;> cases h
  · split at h
    · cases h
    · cases h
      trivial

/-- What an escape stands for: a character, or a unit that is not joined with the next one. -/
theorem escape_cases {p : CodePoint} (h : escape s = .ok (p, n)) :
    (∃ c, p = .char c) ∨ ∃ r m, s = 'u' :: r ∧ unit? r = some m ∧ p = .ofUnit m ∧ n = 5 ∧
      (isHigh m = true → lowUnit? (r.drop 4) = none) := by
  unfold escape at h
  split at h
  · cases h
  · split at h
    · cases h
    · rename_i r _ m hunit
      split at h
      · cases h
        exact .inl ⟨_, rfl⟩
      · rename_i hnext
        cases h
        exact .inr ⟨r, m, rfl, hunit, rfl, rfl, fun hhigh => by rwa [if_pos hhigh] at hnext⟩
  · split at h
    · cases h
      exact .inl ⟨_, rfl⟩
    · cases h

/-- Behind an escape that is the first half of a pair, the other half does not follow. -/
theorem lowUnit?_of_isHigh {p : CodePoint} (h : escape s = .ok (p, n)) (hp : p.IsHigh) :
    lowUnit? (s.drop n) = none := by
  obtain ⟨c, rfl⟩ | ⟨r, m, rfl, -, rfl, rfl, halone⟩ := escape_cases h
  · exact hp.elim
  · exact halone (CodePoint.isHigh_ofUnit.1 hp)

/-- An escape that is the second half of a pair is its unit. -/
theorem lowUnit?_of_isLow {p : CodePoint} (h : escape s = .ok (p, n)) (hp : p.IsLow) :
    lowUnit? ('\\' :: s) ≠ none := by
  obtain ⟨c, rfl⟩ | ⟨r, m, rfl, hunit, rfl, -, -⟩ := escape_cases h
  · exact hp.elim
  · rw [lowUnit?, hunit, Option.filter_some, if_pos (CodePoint.isLow_ofUnit.1 hp)]
    exact Option.some_ne_none m

/-- The string is joined, and begins with the second half of a pair only if the text does, so it may
be read behind the first half. -/
def Continues (s : Text) (t : Str) : Prop :=
  t.IsJoined ∧ ∀ q ∈ t.head?, q.IsLow → lowUnit? s ≠ none

/-- A string is read without going deeper, and fails at its own problems only. It is joined, since
an escape that is the first half of a pair is joined with the second one. -/
theorem reads_stringBody (start d : Nat) (s : Text) :
    Reads (Continues s) d s (stringBody start s) := by
  fun_induction stringBody start s with
  | case1 => trivial
  | case2 s => exact ⟨⟨Str.isJoined_nil, by simp⟩, List.suffix_cons _ s⟩
  | case3 s => trivial
  | case4 s e _ he => exact reads_escape_error he _
  | case5 s p n he _ ih =>
    have hs : s.drop n <:+ '\\' :: s := (List.drop_suffix n s).trans (List.suffix_cons _ s)
    refine (ih.of_suffix hs).bind fun t r ht hr => ⟨⟨?_, ?_⟩, hr⟩
    · exact Str.isJoined_cons_iff.2
        ⟨fun hp q hq hlow => ht.2 q hq hlow (lowUnit?_of_isHigh he hp), ht.1⟩
    · rintro q ⟨⟩ hlow
      exact lowUnit?_of_isLow he hlow
  | case6 c s => trivial
  | case7 c s _ _ _ ih =>
    refine (ih.of_suffix (List.suffix_cons c s)).bind fun t r ht hr => ⟨⟨?_, ?_⟩, hr⟩
    · exact Str.isJoined_cons_iff.2 ⟨False.elim, ht.1⟩
    · rintro q ⟨⟩ ⟨⟩

/-! ## Words and numbers -/

/-- The digits before a point or an exponent are digits, and there is one. -/
theorem eq_append_of_wholePart? {w : Text} (h : wholePart? s = some (w, r)) :
    s = w ++ r ∧ w ≠ [] ∧ ∀ c ∈ w, c.isDigit = true := by
  unfold wholePart? at h
  split at h
  · cases h
    exact ⟨rfl, by simp, by simp⟩
  · rename_i c s _
    split at h
    · rename_i hc
      cases h
      refine ⟨List.takeWhile_append_dropWhile.symm, ?_, fun e he => List.mem_takeWhile_imp he⟩
      rw [List.takeWhile_cons_of_pos hc]
      exact List.cons_ne_nil _ _
    · cases h
  · cases h

theorem fraction_suffix (s : Text) : (fraction s).2 <:+ s := by
  unfold fraction
  split
  · rename_i r
    dsimp only [digitRun]
    split
    · exact List.suffix_rfl
    · exact (List.dropWhile_suffix _).trans (List.suffix_cons _ _)
  · exact List.suffix_rfl

theorem exponent_suffix (s : Text) : (exponent s).2 <:+ s := by
  unfold exponent
  split
  · rename_i c r
    split
    · split
      rename_i sign t ht
      have hr : t <:+ r := by
        split at ht <;> cases ht
        · exact List.suffix_cons _ _
        · exact List.suffix_cons _ _
        · exact List.suffix_rfl
      dsimp only [digitRun]
      split
      · exact List.suffix_rfl
      · exact ((List.dropWhile_suffix _).trans hr).trans (List.suffix_cons c r)
    · exact List.suffix_rfl
  · exact List.suffix_rfl

/-- An integer that is read is short enough to be written. -/
theorem reads_wholeNumber {w : Text} (negative : Bool) (hw : w ≠ [])
    (hdigits : ∀ c ∈ w, c.isDigit = true) (hws : w <+: s) (hr : r <:+ s) :
    Reads IsReadable d s ((wholeNumber negative w).map fun v => (v, r)) := by
  have hlt : ∀ n ∈ w.map fun c => c.toNat - 48, n < 10 := by
    intro n hn
    obtain ⟨c, hc, rfl⟩ := List.mem_map.1 hn
    have := toNat_of_isDigit (hdigits c hc)
    omega
  unfold wholeNumber
  split
  · rename_i hlen
    have hshort : IsShort (ofDigits (w.map fun c => c.toNat - 48)) :=
      isShort_ofDigits (by simpa using hw) hlt (by simpa using hlen)
    refine ⟨.int ?_, hr⟩
    cases negative
    · exact hshort
    · simpa using hshort
  · rename_i hlen
    exact ⟨Nat.lt_of_not_le hlen, w, hws.isInfix, rfl, hdigits⟩

theorem reads_unsigned? {negative : Bool} {x : Except Stop (Json × Text)}
    (h : unsigned? negative s = some x) : Reads IsReadable d s x := by
  obtain ⟨⟨w, r⟩, hw, rfl⟩ := Option.map_eq_some_iff.1 h
  obtain ⟨hs, hne, hdigits⟩ := eq_append_of_wholePart? hw
  have hrest : (exponent (fraction r).2).2 <:+ s :=
    (exponent_suffix _).trans ((fraction_suffix r).trans (hs ▸ List.suffix_append _ _))
  dsimp only
  split
  · exact reads_wholeNumber negative hne hdigits (hs ▸ List.prefix_append _ _) hrest
  · exact ⟨.real _, hrest⟩

theorem isReadable_of_constant {w : Text × Json} (h : w ∈ constants) : IsReadable w.2 := by
  simp only [constants, List.mem_cons, List.not_mem_nil, or_false] at h
  rcases h with rfl | rfl | rfl | rfl | rfl | rfl
  · exact .null
  · exact .bool _
  · exact .bool _
  · exact .real _
  · exact .real _
  · exact .real _

theorem reads_scalar (d : Nat) (s : Text) : Reads IsReadable d s (scalar s) := by
  unfold scalar
  split
  · rename_i w hw
    exact ⟨isReadable_of_constant (List.mem_of_find?_eq_some hw), List.drop_suffix _ _⟩
  · have hnumber : ∀ (negative : Bool) (t : Text), t <:+ s →
        Reads IsReadable d s
          ((unsigned? negative t).getD (.error ⟨.noValue, s.length⟩)) := by
      intro negative t ht
      cases hx : unsigned? negative t with
      | none => trivial
      | some x => exact (reads_unsigned? hx).of_suffix ht
    dsimp only
    split
    · exact hnumber true _ (List.suffix_cons _ _)
    · exact hnumber false _ List.suffix_rfl

/-! ## Values -/

theorem skip_suffix (s : Text) : skip s <:+ s :=
  List.dropWhile_suffix _

/-- What follows a character behind blanks. -/
theorem suffix_behind {t : Text} (h : skip r = c :: t) (hr : r <:+ s) : t <:+ s := by
  have hskip := (skip_suffix r).trans hr
  rw [h] at hskip
  exact (List.suffix_cons c t).trans hskip

section

variable (hvalue : ∀ d s, Reads IsReadable d s (valueAt d n s))
  (hitems : ∀ d s, Reads (fun vs => ∀ v ∈ vs, IsReadable v) d s (itemsAt d n s))
  (hmembers : ∀ d s,
    Reads (fun fs => ∀ f ∈ fs, f.1.IsJoined ∧ IsReadable f.2) d s (membersAt d n s))

/-- Behind a bracket, less depth is left, unless none was. -/
theorem reads_bracket {x : Except Stop (Json × Text)} (hc : c = '[' ∨ c = '\x7b')
    (h : Reads IsReadable (d - 1) s x) (left : Nat) :
    Reads IsReadable d (c :: s) (if d = 0 then .error ⟨.tooDeep, left⟩ else x) := by
  split
  · rename_i hd
    have hopen : d < openings (c :: s) := by
      rw [hd, openings_cons hc]
      exact Nat.succ_pos _
    exact hopen
  · rename_i hd
    obtain ⟨d, rfl⟩ := Nat.exists_eq_add_one_of_ne_zero hd
    exact Reads.behind h hc

/-- Fields set one by one leave no name twice. -/
theorem isReadable_merge {fs : Fields} (h : ∀ f ∈ fs, f.1.IsJoined ∧ IsReadable f.2) :
    IsReadable (obj (merge [] fs)) := by
  have hnone : (([] : Fields).map Prod.fst).Nodup := List.nodup_nil
  have hall : ∀ f ∈ merge [] fs, f.1.IsJoined ∧ IsReadable f.2 := fun f hf =>
    h f ((mem_of_mem_merge hf).resolve_left List.not_mem_nil)
  exact .obj (nodup_names_merge hnone fs) (fun f hf => (hall f hf).1) fun f hf => (hall f hf).2

include hitems hmembers in

/-- A value that is read can be stored, and reading too deeply takes as many openings. -/
theorem reads_valueAt (d : Nat) (s : Text) : Reads IsReadable d s (valueAt d (n + 1) s) := by
  rw [valueAt.eq_def]
  dsimp only
  split
  · rename_i r
    exact ((reads_stringBody _ d r).of_suffix (List.suffix_cons _ r)).map fun t ht => .str ht.1
  · rename_i r
    refine reads_bracket (.inl rfl) ?_ _
    split
    · rename_i t ht
      exact ⟨.arr (by simp), suffix_behind ht List.suffix_rfl⟩
    · exact ((hitems _ _).of_suffix (skip_suffix r)).map fun vs hvs => .arr hvs
  · rename_i r
    refine reads_bracket (.inr rfl) ?_ _
    split
    · rename_i t ht
      exact ⟨.obj (by simp) (by simp) (by simp), suffix_behind ht List.suffix_rfl⟩
    · exact ((hmembers _ _).of_suffix (skip_suffix r)).map fun fs hfs => isReadable_merge hfs
  · exact reads_scalar d s

include hvalue hitems in
theorem reads_itemsAt (d : Nat) (s : Text) :
    Reads (fun vs => ∀ v ∈ vs, IsReadable v) d s (itemsAt d (n + 1) s) := by
  rw [itemsAt]
  refine (hvalue d s).bind fun v r hv hr => ?_
  dsimp only
  split
  · rename_i t ht
    exact ⟨by simpa using hv, suffix_behind ht hr⟩
  · rename_i t ht
    have hnext := (skip_suffix t).trans (suffix_behind ht hr)
    exact ((hitems d (skip t)).of_suffix hnext).bind fun vs u hvs hu =>
      ⟨List.forall_mem_cons.2 ⟨hv, hvs⟩, hu⟩
  · trivial

include hvalue hmembers in
theorem reads_membersAt (d : Nat) (s : Text) :
    Reads (fun fs => ∀ f ∈ fs, f.1.IsJoined ∧ IsReadable f.2) d s (membersAt d (n + 1) s) := by
  rw [membersAt.eq_def]
  dsimp only
  split
  · rename_i r
    refine ((reads_stringBody _ d r).of_suffix (List.suffix_cons _ r)).bind fun k t hk ht => ?_
    dsimp only
    split
    · rename_i u hu
      have hcolon := (skip_suffix u).trans (suffix_behind hu ht)
      refine ((hvalue d (skip u)).of_suffix hcolon).bind fun v w hv hw => ?_
      dsimp only
      split
      · rename_i x hx
        exact ⟨List.forall_mem_singleton.2 ⟨hk.1, hv⟩, suffix_behind hx hw⟩
      · rename_i x hx
        have hnext := (skip_suffix x).trans (suffix_behind hx hw)
        exact ((hmembers d (skip x)).of_suffix hnext).bind fun fs y hfs hy =>
          ⟨List.forall_mem_cons.2 ⟨⟨hk.1, hv⟩, hfs⟩, hy⟩
      · trivial
    · trivial
  · trivial

end

/-- **Each reader keeps the contract**: of values, of the items of an array, and of the fields of an
object. -/
theorem reads_values (n d : Nat) (s : Text) :
    Reads IsReadable d s (valueAt d n s) ∧
      Reads (fun vs => ∀ v ∈ vs, IsReadable v) d s (itemsAt d n s) ∧
      Reads (fun fs => ∀ f ∈ fs, f.1.IsJoined ∧ IsReadable f.2) d s (membersAt d n s) := by
  -- On the bound of the readers, which each of them takes down by one.
  induction n generalizing d s with
  | zero => exact ⟨trivial, trivial, trivial⟩
  | succ n ih =>
    have hvalue := fun d s => (ih d s).1
    have hitems := fun d s => (ih d s).2.1
    have hmembers := fun d s => (ih d s).2.2
    exact ⟨reads_valueAt hitems hmembers d s, reads_itemsAt hvalue hitems d s,
      reads_membersAt hvalue hmembers d s⟩

/-! ## Texts -/

theorem reads_parse (d : Nat) (text : Text) :
    Reads IsReadable d text ((parse d text).map fun v => (v, [])) := by
  unfold parse
  split
  · trivial
  · have hvalue := (reads_values (2 * text.length + 2) d (skip text)).1.of_suffix
      (skip_suffix text)
    cases hv : valueAt d (2 * text.length + 2) (skip text) with
    | error e =>
      rw [hv] at hvalue
      exact hvalue
    | ok p =>
      rw [hv] at hvalue
      rw [ok_bind]
      dsimp only
      split
      · exact ⟨hvalue.1, List.nil_suffix⟩
      · trivial

/-- What is read can be read. -/
theorem isReadable_of_parse {text : Text} {v : Json} (h : parse d text = .ok v) : IsReadable v := by
  have hread := reads_parse d text
  rw [h] at hread
  exact hread.1

/-- An integer is too long only if there are its digits. -/
theorem hasDigits_of_parse {text : Text} {k l : Nat}
    (h : parse d text = .error ⟨.longInteger k, l⟩) : maxDigits < k ∧ HasDigits k text := by
  have hread := reads_parse d text
  rw [h] at hread
  exact hread

/-- A text is nested too deeply only if it has the brackets. -/
theorem lt_openings_of_parse {text : Text} {l : Nat} (h : parse d text = .error ⟨.tooDeep, l⟩) :
    d < openings text := by
  have hread := reads_parse d text
  rw [h] at hread
  exact hread

end AsmLens.Json
