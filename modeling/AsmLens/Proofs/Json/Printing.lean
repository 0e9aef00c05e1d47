import AsmLens.Proofs.Json.Strings
import AsmLens.Proofs.Text.Decimal

/-!
# Values and their text

The text of a value without binary fractions, whose strings and names are joined, tells the value:
whatever follows it, if only no digit does, no other such value has a text that begins alike
(`toldApart_render`), so two values with the same text are the same (`print_inj`). The first
character tells the kind of a value; an integer ends before the first character that is no digit, a
string at its quote, and an item before a comma or a line feed. All that is written is seen or a
line feed (`isShown_of_mem_render`).
-/

namespace AsmLens

open Text

namespace Text

/-- A character that is seen, or a line feed. -/
def IsShown (c : Char) : Prop :=
  c = '\n' ∨ IsVisible c

instance : DecidablePred IsShown :=
  fun c => inferInstanceAs (Decidable (c = '\n' ∨ IsVisible c))

/-- The text does not begin with a digit. -/
def Ends (r : Text) : Prop :=
  ∀ c ∈ r.head?, c.isDigit = false

theorem ends_nil : Ends [] := by simp [Ends]

theorem ends_cons {c : Char} (h : c.isDigit = false) (r : Text) : Ends (c :: r) := by
  simpa [Ends] using h

/-- The text of `x` is not the start of another one's. -/
def ToldApart {α : Type} (S : α → Prop) (text : α → Text) (x : α) : Prop :=
  ∀ y, S y → ∀ r r', Ends r → Ends r' → text x ++ r = text y ++ r' → x = y ∧ r = r'

/-! ## Integers -/

/-- The digits of a number are read up to what follows it. -/
theorem digitRun_natural (n : Nat) {r : Text} (hr : Ends r) :
    Json.digitRun (natural n ++ r) = (natural n, r) := by
  have hdigits : ∀ c ∈ natural n, c.isDigit = true := fun _ hc => isDigit_of_mem_natural hc
  rw [Json.digitRun, takeWhile_run hdigits hr, dropWhile_run hdigits hr]

/-- A numeral is told from what stands behind it. -/
theorem natural_append_inj {n m : Nat} {r r' : Text} (hr : Ends r) (hr' : Ends r')
    (h : natural n ++ r = natural m ++ r') : n = m ∧ r = r' := by
  have hrun : (natural n, r) = (natural m, r') := by
    rw [← digitRun_natural n hr, h, digitRun_natural m hr']
  obtain ⟨hnat, hrest⟩ := Prod.mk.inj hrun
  refine ⟨?_, hrest⟩
  rw [← ofDigits_natural n, hnat, ofDigits_natural]

theorem integer_append_inj {n m : Int} {r r' : Text} (hr : Ends r) (hr' : Ends r')
    (h : integer n ++ r = integer m ++ r') : n = m ∧ r = r' := by
  have hsign : ∀ (k : Nat) (s s' : Text), natural k ++ s ≠ '-' :: s' := by
    intro k s s' he
    obtain ⟨c, ds, hds⟩ := List.exists_cons_of_ne_nil (natural_ne_nil k)
    have hc := isDigit_of_mem_natural (hds ▸ List.mem_cons_self : c ∈ natural k)
    rw [hds, List.cons_append] at he
    cases he
    exact absurd hc (by decide)
  cases n with
  | ofNat n =>
    cases m with
    | ofNat m =>
      obtain ⟨rfl, hrest⟩ := natural_append_inj hr hr' h
      exact ⟨rfl, hrest⟩
    | negSucc m => exact absurd h (hsign _ _ _)
  | negSucc n =>
    cases m with
    | ofNat m => exact absurd h.symm (hsign _ _ _)
    | negSucc m =>
      obtain ⟨hnat, hrest⟩ := natural_append_inj hr hr' (List.cons.inj h).2
      cases hnat
      exact ⟨rfl, hrest⟩

end Text

namespace Json

/-- The value holds no binary fraction. -/
inductive IsExact : Json → Prop where
  | null : IsExact null
  | bool (b : Bool) : IsExact (bool b)
  | int (n : Int) : IsExact (int n)
  | str (s : Str) : IsExact (str s)
  | arr {vs : List Json} (h : ∀ v ∈ vs, IsExact v) : IsExact (arr vs)
  | obj {fs : Fields} (h : ∀ f ∈ fs, IsExact f.2) : IsExact (obj fs)

attribute [simp] IsExact.null IsExact.bool IsExact.int IsExact.str

@[simp] theorem isExact_arr_iff {vs : List Json} : IsExact (arr vs) ↔ ∀ v ∈ vs, IsExact v := by
  constructor
  · rintro ⟨⟩
    assumption
  · exact .arr

@[simp] theorem isExact_obj_iff {fs : Fields} : IsExact (obj fs) ↔ ∀ f ∈ fs, IsExact f.2 := by
  constructor
  · rintro ⟨⟩
    assumption
  · exact .obj

/-- A value that its text tells: it holds no binary fraction, and its strings and names are
joined. -/
inductive IsTold : Json → Prop where
  | null : IsTold null
  | bool (b : Bool) : IsTold (bool b)
  | int (n : Int) : IsTold (int n)
  | str {s : Str} (h : s.IsJoined) : IsTold (str s)
  | arr {vs : List Json} (h : ∀ v ∈ vs, IsTold v) : IsTold (arr vs)
  | obj {fs : Fields} (names : ∀ f ∈ fs, f.1.IsJoined) (h : ∀ f ∈ fs, IsTold f.2) :
    IsTold (obj fs)

attribute [simp] IsTold.null IsTold.int

@[simp] theorem isTold_str_iff {s : Str} : IsTold (str s) ↔ s.IsJoined := by
  constructor
  · rintro ⟨⟩
    assumption
  · exact .str

@[simp] theorem isTold_arr_iff {vs : List Json} : IsTold (arr vs) ↔ ∀ v ∈ vs, IsTold v := by
  constructor
  · rintro ⟨⟩
    assumption
  · exact .arr

@[simp] theorem isTold_obj_iff {fs : Fields} :
    IsTold (obj fs) ↔ ∀ f ∈ fs, f.1.IsJoined ∧ IsTold f.2 := by
  constructor
  · intro h
    cases h with
    | obj names h => exact fun f hf => ⟨names f hf, h f hf⟩
  · exact fun h => .obj (fun f hf => (h f hf).1) fun f hf => (h f hf).2

theorem IsTold.isExact {v : Json} (h : IsTold v) : IsExact v := by
  induction h with
  | null => exact .null
  | bool b => exact .bool b
  | int n => exact .int n
  | str => exact .str _
  | arr _ ih => exact .arr ih
  | obj _ _ ih => exact .obj ih

/-- The character begins texts of values of the kind. -/
inductive Leads : Char → Json → Prop where
  | null : Leads 'n' null
  | true : Leads 't' (bool true)
  | false : Leads 'f' (bool false)
  | minus (n : Int) : Leads '-' (int n)
  | digit {c : Char} (h : c.isDigit = Bool.true) (n : Int) : Leads c (int n)
  | str (s : Str) : Leads '"' (str s)
  | arr (vs : List Json) : Leads '[' (arr vs)
  | obj (fs : Fields) : Leads '\x7b' (obj fs)

/-- Two values of one kind. -/
inductive SameKind : Json → Json → Prop where
  | null : SameKind null null
  | bool (a b : Bool) : SameKind (bool a) (bool b)
  | int (n m : Int) : SameKind (int n) (int m)
  | str (s t : Str) : SameKind (str s) (str t)
  | arr (vs ws : List Json) : SameKind (arr vs) (arr ws)
  | obj (fs gs : Fields) : SameKind (obj fs) (obj gs)

/-- A field at a level. -/
def renderField (level : Nat) (f : Str × Json) : Text :=
  quote f.1 ++ ':' :: ' ' :: render level f.2

/-- Items behind commas, each on a line of its own. -/
def trailing {α : Type} (level : Nat) (item : α → Text) (xs : List α) : Text :=
  xs.flatMap fun x => ',' :: newline level ++ item x

/-- Items between brackets, as an array or an object at a level has them. -/
def bracketed {α : Type} (first last : Char) (level : Nat) (item : α → Text) : List α → Text
  | [] => [first, last]
  | x :: xs => first :: newline (level + 1) ++ item x ++ trailing (level + 1) item xs
      ++ newline level ++ [last]

variable {v w : Json} {level : Nat} {r r' : Text}

/-! ## Arrays and objects -/

/-- The items behind the first are each led by a comma. -/
theorem renderItems_eq (level : Nat) (vs : List Json) :
    renderItems level vs = trailing level (render level) vs := by
  induction vs with
  | nil => rfl
  | cons v vs ih => simp [renderItems, trailing, ih]

theorem renderFields_eq (level : Nat) (fs : Fields) :
    renderFields level fs = trailing level (renderField level) fs := by
  induction fs with
  | nil => rfl
  | cons f fs ih => simp [renderFields, trailing, renderField, ih]

theorem render_arr (level : Nat) (vs : List Json) :
    render level (arr vs) = bracketed '[' ']' level (render (level + 1)) vs := by
  cases vs with
  | nil => rfl
  | cons v vs => simp [render, bracketed, renderItems_eq]

theorem render_obj (level : Nat) (fs : Fields) :
    render level (obj fs) = bracketed '\x7b' '\x7d' level (renderField (level + 1)) fs := by
  cases fs with
  | nil => rfl
  | cons f fs => simp [render, bracketed, renderField, renderFields_eq]

section

variable {α : Type} {S : α → Prop} {item : α → Text} {xs ys : List α} {x y : α} {first last : Char}

theorem bracketed_eq_cons (first last : Char) (level : Nat) (item : α → Text) (xs : List α) :
    ∃ s, bracketed first last level item xs = first :: s := by
  cases xs with
  | nil => exact ⟨_, rfl⟩
  | cons x xs => exact ⟨_, rfl⟩

theorem trailing_cons (level : Nat) (item : α → Text) (x : α) (xs : List α) :
    trailing level item (x :: xs) =
      ',' :: (newline level ++ (item x ++ trailing level item xs)) := by
  simp [trailing]

theorem bracketed_cons_append (first last : Char) (level : Nat) (item : α → Text) (x : α)
    (xs : List α) (r : Text) :
    bracketed first last level item (x :: xs) ++ r =
      first :: (newline (level + 1) ++ (item x ++
        (trailing (level + 1) item xs ++ (newline level ++ last :: r)))) := by
  simp [bracketed]

/-- Items are followed by a comma or a line feed. -/
theorem ends_trailing (level : Nat) (item : α → Text) (xs : List α) (r : Text) :
    Ends (trailing level item xs ++ '\n' :: r) := by
  cases xs with
  | nil => exact ends_cons (by decide) _
  | cons x xs => exact ends_cons (by decide) _

/-- Items are told one by one, up to the line feed after the last. -/
theorem trailing_append_inj (hxs : ∀ z ∈ x :: xs, ToldApart S item z) (hys : ∀ z ∈ y :: ys, S z)
    (h : item x ++ (trailing level item xs ++ '\n' :: r) =
      item y ++ (trailing level item ys ++ '\n' :: r')) : x :: xs = y :: ys ∧ r = r' := by
  -- After an item, a comma or a line feed tells whether another one comes.
  induction xs generalizing x y ys with
  | nil =>
    obtain ⟨rfl, htail⟩ := hxs x List.mem_cons_self y (hys y List.mem_cons_self) _ _
      (ends_trailing _ _ _ _) (ends_trailing _ _ _ _) h
    cases ys with
    | nil => exact ⟨rfl, (List.cons.inj htail).2⟩
    | cons z ys => cases (List.cons.inj htail).1
  | cons w xs ih =>
    obtain ⟨rfl, htail⟩ := hxs x List.mem_cons_self y (hys y List.mem_cons_self) _ _
      (ends_trailing _ _ _ _) (ends_trailing _ _ _ _) h
    cases ys with
    | nil => cases (List.cons.inj htail).1
    | cons z ys =>
      simp only [trailing_cons, List.cons_append, List.append_assoc] at htail
      obtain ⟨heqs, hr⟩ := ih (List.forall_mem_cons.1 hxs).2 (List.forall_mem_cons.1 hys).2
        (List.append_cancel_left (List.cons.inj htail).2)
      exact ⟨congrArg (x :: ·) heqs, hr⟩

/-- Two lists that are printed alike are equal, item by item, and so is what stands behind them. -/
theorem bracketed_append_inj (hlast : last ≠ '\n') (hxs : ∀ z ∈ xs, ToldApart S item z)
    (hys : ∀ z ∈ ys, S z)
    (h : bracketed first last level item xs ++ r = bracketed first last level item ys ++ r') :
    xs = ys ∧ r = r' := by
  cases xs with
  | nil =>
    cases ys with
    | nil => exact ⟨rfl, List.append_cancel_left h⟩
    | cons y ys => exact absurd (List.cons.inj (List.cons.inj h).2).1 hlast
  | cons x xs =>
    cases ys with
    | nil => exact absurd (List.cons.inj (List.cons.inj h).2).1.symm hlast
    | cons y ys =>
      rw [bracketed_cons_append, bracketed_cons_append] at h
      obtain ⟨heqs, hr⟩ := trailing_append_inj hxs hys (List.append_cancel_left (List.cons.inj h).2)
      exact ⟨heqs, (List.cons.inj (List.append_cancel_left hr)).2⟩

theorem isShown_of_mem_newline {d : Char} (hd : d ∈ newline level) : IsShown d := by
  rcases List.mem_cons.1 hd with rfl | hd
  · exact .inl rfl
  · rw [List.eq_of_mem_replicate hd]
    decide

/-- A printed list holds nothing that a console drops, if its items do not. -/
theorem isShown_of_mem_bracketed (hfirst : IsShown first) (hlast : IsShown last)
    (h : ∀ x ∈ xs, ∀ d ∈ item x, IsShown d) :
    ∀ d ∈ bracketed first last level item xs, IsShown d := by
  intro d hd
  cases xs with
  | nil =>
    rcases List.mem_cons.1 hd with rfl | hd
    · exact hfirst
    · exact List.mem_singleton.1 hd ▸ hlast
  | cons x xs =>
    obtain ⟨hx, hxs⟩ := List.forall_mem_cons.1 h
    simp only [bracketed, trailing, List.mem_append, List.mem_flatMap, List.mem_cons,
      List.not_mem_nil, or_false] at hd
    rcases hd with ((((rfl | hd) | hd) | ⟨y, hy, (rfl | hd) | hd⟩) | hd) | rfl
    · exact hfirst
    · exact isShown_of_mem_newline hd
    · exact hx d hd
    · decide
    · exact isShown_of_mem_newline hd
    · exact hxs y hy d hd
    · exact isShown_of_mem_newline hd
    · exact hlast

end

/-! ## Values -/

/-- The first character of a text tells the kind of its value. -/
theorem sameKind_of_leads {c : Char} (hv : Leads c v) (hw : Leads c w) : SameKind v w := by
  -- No word, quote or bracket begins with a digit.
  cases hv <;> cases hw <;> first
    | constructor
    | exact absurd ‹Char.isDigit _ = Bool.true› (by decide)

/-- The first character of a printed value tells its kind. -/
theorem leads_render (level : Nat) (h : IsExact v) :
    ∃ c s, render level v = c :: s ∧ Leads c v := by
  cases h with
  | null => exact ⟨_, _, rfl, .null⟩
  | bool b =>
    cases b with
    | true => exact ⟨_, _, rfl, .true⟩
    | false => exact ⟨_, _, rfl, .false⟩
  | int n =>
    cases n with
    | ofNat n =>
      obtain ⟨c, ds, hds⟩ := List.exists_cons_of_ne_nil (natural_ne_nil n)
      have hc := isDigit_of_mem_natural (hds ▸ List.mem_cons_self : c ∈ natural n)
      exact ⟨c, ds, hds, .digit hc _⟩
    | negSucc n => exact ⟨_, _, rfl, .minus _⟩
  | str s => exact ⟨_, _, rfl, .str s⟩
  | @arr vs h =>
    obtain ⟨s, hs⟩ := bracketed_eq_cons '[' ']' level (render (level + 1)) vs
    exact ⟨_, s, (render_arr level vs).trans hs, .arr vs⟩
  | @obj fs h =>
    obtain ⟨s, hs⟩ := bracketed_eq_cons '\x7b' '\x7d' level (renderField (level + 1)) fs
    exact ⟨_, s, (render_obj level fs).trans hs, .obj fs⟩

/-- Values that are printed alike are of one kind. -/
theorem sameKind_of_render (hv : IsExact v) (hw : IsExact w)
    (h : render level v ++ r = render level w ++ r') : SameKind v w := by
  obtain ⟨c, s, hs, hc⟩ := leads_render level hv
  obtain ⟨c', s', hs', hc'⟩ := leads_render level hw
  rw [hs, hs'] at h
  obtain ⟨rfl, -⟩ := List.cons.inj h
  exact sameKind_of_leads hc hc'

theorem toldApart_renderField {f : Str × Json} (hname : f.1.IsJoined)
    (h : ToldApart IsTold (render level) f.2) :
    ToldApart (fun f => f.1.IsJoined ∧ IsTold f.2) (renderField level) f := by
  intro g hg r r' hr hr' heq
  have heq : quote f.1 ++ (':' :: ' ' :: (render level f.2 ++ r)) =
      quote g.1 ++ (':' :: ' ' :: (render level g.2 ++ r')) := by
    simpa [renderField] using heq
  obtain ⟨hnames, htail⟩ := quote_append_inj hname hg.1 heq
  have htail := (List.cons.inj (List.cons.inj htail).2).2
  obtain ⟨hvalue, hrest⟩ := h g.2 hg.2 r r' hr hr' htail
  exact ⟨Prod.ext hnames hvalue, hrest⟩

/-- **The text of a value tells the value**, whatever follows that is no digit. -/
theorem toldApart_render (h : IsTold v) (level : Nat) : ToldApart IsTold (render level) v := by
  -- On what makes the value told: items and fields come one level further in.
  induction h generalizing level with
  | null =>
    intro w hw r r' hr hr' heq
    cases sameKind_of_render .null hw.isExact heq with
    | null => exact ⟨rfl, List.append_cancel_left heq⟩
  | bool b =>
    intro w hw r r' hr hr' heq
    cases sameKind_of_render (.bool b) hw.isExact heq with
    | bool _ b' =>
      cases b <;> cases b'
      · exact ⟨rfl, List.append_cancel_left heq⟩
      · cases (List.cons.inj heq).1
      · cases (List.cons.inj heq).1
      · exact ⟨rfl, List.append_cancel_left heq⟩
  | int n =>
    intro w hw r r' hr hr' heq
    cases sameKind_of_render (.int n) hw.isExact heq with
    | int _ m => exact (integer_append_inj hr hr' heq).imp_left (congrArg int)
  | @str s hs =>
    intro w hw r r' hr hr' heq
    cases sameKind_of_render (.str s) hw.isExact heq with
    | str _ t =>
      cases hw with
      | str ht => exact (quote_append_inj hs ht heq).imp_left (congrArg str)
  | @arr vs hvs ih =>
    intro w hw r r' hr hr' heq
    cases sameKind_of_render (IsTold.arr hvs).isExact hw.isExact heq with
    | arr _ ws =>
      cases hw with
      | arr hws =>
        rw [render_arr, render_arr] at heq
        exact (bracketed_append_inj (by decide) (fun v hv => ih v hv _) hws heq).imp_left
          (congrArg arr)
  | @obj fs hnames hfs ih =>
    intro w hw r r' hr hr' heq
    cases sameKind_of_render (IsTold.obj hnames hfs).isExact hw.isExact heq with
    | obj _ gs =>
      rw [isTold_obj_iff] at hw
      rw [render_obj, render_obj] at heq
      refine (bracketed_append_inj (by decide) (fun f hf => ?_) hw heq).imp_left (congrArg obj)
      exact toldApart_renderField (hnames f hf) (ih f hf (level + 1))

/-- **Values with the same text are the same.** -/
theorem print_inj (hv : IsTold v) (hw : IsTold w) (h : print v = print w) : v = w :=
  (toldApart_render hv 0 w hw [] [] ends_nil ends_nil (by simpa [print] using h)).1

/-! ## What is seen -/

/-- What is written of a value is seen, or a line feed. -/
theorem isShown_of_mem_render (h : IsExact v) (level : Nat) :
    ∀ d ∈ render level v, IsShown d := by
  have hword : ∀ s : Text, (s.all fun d => decide (IsShown d)) = true → ∀ d ∈ s, IsShown d := by
    simp
  induction h generalizing level with
  | null => exact hword "null".toList (by decide)
  | bool b =>
    cases b with
    | false => exact hword "false".toList (by decide)
    | true => exact hword "true".toList (by decide)
  | int n =>
    intro d hd
    rcases mem_integer hd with rfl | hd
    · decide
    · obtain ⟨hlow, hhigh⟩ := toNat_of_isDigit hd
      exact .inr ⟨by omega, by omega⟩
  | str s => exact fun d hd => .inr (isVisible_of_mem_quote hd)
  | @arr vs hvs ih =>
    rw [render_arr]
    exact isShown_of_mem_bracketed (by decide) (by decide) fun v hv => ih v hv (level + 1)
  | @obj fs hfs ih =>
    rw [render_obj]
    refine isShown_of_mem_bracketed (by decide) (by decide) fun f hf d hd => ?_
    rw [renderField, List.mem_append, List.mem_cons, List.mem_cons] at hd
    rcases hd with hd | rfl | rfl | hd
    · exact .inr (isVisible_of_mem_quote hd)
    · decide
    · decide
    · exact ih f hf (level + 1) d hd

end Json

end AsmLens
