import AsmLens.Assembly.Locator
import AsmLens.Proofs.Outcome
import AsmLens.Proofs.Symbol.Learning

/-!
# Going through files

A search passes over the texts that do not have what is looked for, learning on the way (`Passes`).
It ends at the first text that has it (`searchFiles_found`) or cannot be scanned
(`searchFiles_error`), or behind the last with the names of all of them
(`searchFiles_notFound_iff`). Where what is learnt does not change what the scans
answer, the search is one that learns nothing (`searchFiles_eq_searchTexts`).
-/

namespace AsmLens

section

variable {α : Type} (scan : Demangler → Text → Except Failure (Scanned α) × Demangler)

/-- Goes through texts in order with a scan that learns nothing. -/
def searchTexts (scan : Text → Except Failure (Scanned α)) :
    List Text → List (Except Failure Text) → Except Failure (Located α)
  | seen, [] => .ok (.notFound (Text.sortDedup seen))
  | _, .error e :: _ => .error e
  | seen, .ok text :: rest =>
    match scan text with
    | .error e => .error e
    | .ok (.found r) => .ok (.found r)
    | .ok (.absent names) => searchTexts scan (seen ++ names) rest

/-- From `d` on the scan passes over texts, notes names, and gets to `d'`. -/
inductive Passes : Demangler → List Text → List Text → Demangler → Prop where
  | nil {d} : Passes d [] [] d
  | cons {d d' d'' text texts names more}
      (absent : scan d text = (.ok (.absent names), d')) (rest : Passes d' texts more d'') :
      Passes d (text :: texts) (names ++ more) d''

variable {scan}

/-- A scan in vain adds its names and goes on. -/
theorem searchFiles_absent {d : Demangler} {seen names : List Text} {text : Text}
    {files : List (Except Failure Text)} (h : (scan d text).1 = .ok (.absent names)) :
    searchFiles scan d seen (.ok text :: files) =
      searchFiles scan (scan d text).2 (seen ++ names) files := by
  rw [searchFiles]
  rcases hs : scan d text with ⟨x, d'⟩
  rw [hs] at h
  cases h
  rfl

/-- Where all scans that keep an invariant answer alike, so does the search. -/
theorem searchFiles_eq_searchTexts {known : Text → Except Failure (Scanned α)}
    (Inv : Demangler → Prop) {files : List (Except Failure Text)}
    (hscan : ∀ d text, Inv d → .ok text ∈ files →
      (scan d text).1 = known text ∧ Inv (scan d text).2)
    {d : Demangler} (hd : Inv d) (seen : List Text) :
    (searchFiles scan d seen files).1 = searchTexts known seen files := by
  induction files generalizing d seen with
  | nil => rfl
  | cons file files ih =>
    rcases file with e | text
    · rfl
    · obtain ⟨hanswer, hinv⟩ := hscan d text hd List.mem_cons_self
      rw [searchFiles, searchTexts, ← hanswer]
      rcases hs : scan d text with ⟨e | ⟨r | names⟩, d'⟩
      · rfl
      · rfl
      · rw [hs] at hinv
        exact ih (fun d text hd ht => hscan d text hd (List.mem_cons_of_mem _ ht)) hinv _

/-- What is found is in a text, and in none of those before it. -/
theorem searchFiles_found {d d' : Demangler} {seen : List Text}
    {files : List (Except Failure Text)} {r : α}
    (h : searchFiles scan d seen files = (.ok (.found r), d')) :
    ∃ texts names d₁ text later, files = texts.map .ok ++ .ok text :: later ∧
      Passes scan d texts names d₁ ∧ scan d₁ text = (.ok (.found r), d') := by
  induction files generalizing d seen with
  | nil => cases h
  | cons file files ih =>
    rcases file with e | text
    · cases h
    · unfold searchFiles at h
      rcases hs : scan d text with ⟨e | ⟨r' | names⟩, d₁⟩
      · rw [hs] at h
        cases h
      · rw [hs] at h
        cases h
        exact ⟨[], [], d, text, files, rfl, .nil, hs⟩
      · rw [hs] at h
        obtain ⟨texts, more, d₂, text', later, rfl, hp, hf⟩ := ih h
        exact ⟨text :: texts, names ++ more, d₂, text', later, rfl, .cons hs hp, hf⟩

theorem searchFiles_notFound_iff {d d' : Demangler} {seen names : List Text}
    {files : List (Except Failure Text)} :
    searchFiles scan d seen files = (.ok (.notFound names), d') ↔
      ∃ texts noted, files = texts.map .ok ∧ Passes scan d texts noted d' ∧
        names = Text.sortDedup (seen ++ noted) := by
  constructor
  · intro h
    induction files generalizing d seen with
    | nil =>
      cases h
      exact ⟨[], [], rfl, .nil, by rw [List.append_nil]⟩
    | cons file files ih =>
      rcases file with e | text
      · cases h
      · unfold searchFiles at h
        rcases hs : scan d text with ⟨e | ⟨r | noted⟩, d₁⟩
        · rw [hs] at h
          cases h
        · rw [hs] at h
          cases h
        · rw [hs] at h
          obtain ⟨texts, more, rfl, hp, hn⟩ := ih h
          exact ⟨text :: texts, noted ++ more, rfl, .cons hs hp,
            by rw [hn, List.append_assoc]⟩
  · rintro ⟨texts, noted, rfl, hp, rfl⟩
    induction hp generalizing seen with
    | nil =>
      rw [List.append_nil]
      rfl
    | cons absent _ ih =>
      rw [List.map_cons, searchFiles_absent (congrArg Prod.fst absent), absent, ih,
        List.append_assoc]

/-- A search that fails was given no text, or its scan of a text fails. -/
theorem searchFiles_error {d d' : Demangler} {seen : List Text}
    {files : List (Except Failure Text)} {e : Failure}
    (h : searchFiles scan d seen files = (.error e, d')) :
    ∃ texts names d₁ file later, files = texts.map .ok ++ file :: later ∧
      Passes scan d texts names d₁ ∧
        (file = .error e ∧ d' = d₁ ∨ ∃ text, file = .ok text ∧ scan d₁ text = (.error e, d')) := by
  induction files generalizing d seen with
  | nil => cases h
  | cons file files ih =>
    rcases file with e' | text
    · cases h
      exact ⟨[], [], _, _, files, rfl, .nil, .inl ⟨rfl, rfl⟩⟩
    · unfold searchFiles at h
      rcases hs : scan d text with ⟨e' | ⟨r | names⟩, d₁⟩
      · rw [hs] at h
        cases h
        exact ⟨[], [], d, _, files, rfl, .nil, .inr ⟨text, rfl, hs⟩⟩
      · rw [hs] at h
        cases h
      · rw [hs] at h
        obtain ⟨texts, more, d₂, file, later, rfl, hp, hf⟩ := ih h
        exact ⟨text :: texts, names ++ more, d₂, file, later, rfl, .cons hs hp, hf⟩

/-- Passing over texts only learns if the scan does. -/
theorem Passes.extends {d d' : Demangler} {texts names : List Text}
    (h : Passes scan d texts names d')
    (hscan : ∀ d text, Demangler.Extends d (scan d text).2) : Demangler.Extends d d' := by
  induction h with
  | nil => exact .refl _
  | @cons d d₁ _ text _ _ _ absent _ ih =>
    have h := hscan d text
    rw [absent] at h
    exact h.trans ih

/-- A search only learns if the scan does. -/
theorem extends_searchFiles (hscan : ∀ d text, Demangler.Extends d (scan d text).2) (d : Demangler)
    (seen : List Text) (files : List (Except Failure Text)) :
    Demangler.Extends d (searchFiles scan d seen files).2 := by
  induction files generalizing d seen with
  | nil => exact .refl d
  | cons file files ih =>
    cases file with
    | error e => exact .refl d
    | ok text =>
      have h := hscan d text
      rw [searchFiles]
      rcases hs : scan d text with ⟨e | r | names, d₁⟩
      · rwa [hs] at h
      · rwa [hs] at h
      · rw [hs] at h
        exact h.trans (ih d₁ _)

/-- Each text was scanned in vain by a demangler that had learnt since the start. -/
theorem Passes.absent_of_mem {d d' : Demangler} {texts names : List Text} {text : Text}
    (h : Passes scan d texts names d') (hscan : ∀ d text, Demangler.Extends d (scan d text).2)
    (hmem : text ∈ texts) :
    ∃ d₁ noted d₂, Demangler.Extends d d₁ ∧ scan d₁ text = (.ok (.absent noted), d₂) := by
  induction h with
  | nil => cases hmem
  | @cons d d₁ _ first _ noted _ absent _ ih =>
    rcases List.mem_cons.1 hmem with rfl | hmem
    · exact ⟨d, noted, d₁, .refl d, absent⟩
    · obtain ⟨d₂, more, d₃, he, hs⟩ := ih hmem
      have hfirst := hscan d first
      rw [absent] at hfirst
      exact ⟨d₂, more, d₃, hfirst.trans he, hs⟩

end

namespace Locator

variable {d d' : Demangler} {path : Text} {ls : List Text}

/-- A scan of a file only learns. -/
theorem extends_learnFile (d : Demangler) (path : Text) (ls : List Text) :
    Demangler.Extends d (learnFile d path ls).2 := by
  rw [learnFile]
  rcases h : d.learn (ls.filterMap (functionLabel? d.target)) with ⟨e | u, d₁⟩
  · exact Demangler.extends_of_learn h
  · have h₁ := Demangler.extends_of_learn h
    dsimp only
    split
    · exact h₁.trans (Demangler.extends_learn _ _)
    · exact h₁

/-- The batches of a file fail only if the tool may write what is no text. -/
theorem learnFile_error {e : Failure} (h : learnFile d path ls = (.error e, d')) :
    e = .notText ∧ d.MayGarble := by
  rw [learnFile] at h
  rcases hl : d.learn (ls.filterMap (functionLabel? d.target)) with ⟨e | u, d₁⟩
  · rw [hl] at h
    cases h
    exact (Demangler.Extends.refl d).mayGarble_of_learn hl
  · rw [hl] at h
    dsimp only at h
    split at h
    · exact (Demangler.extends_of_learn hl).mayGarble_of_learn h
    · cases h

/-- Once the batches of a file are learnt, its labels are known. -/
theorem knows_of_mem_learnFile {symbol : Text} (h : learnFile d path ls = (.ok (), d'))
    (hs : symbol ∈ ls.filterMap (functionLabel? d.target)) : d'.Knows symbol := by
  rw [learnFile] at h
  rcases hl : d.learn (ls.filterMap (functionLabel? d.target)) with ⟨e | u, d₁⟩
  · rw [hl] at h
    cases h
  · have hk := Demangler.knows_of_mem_learn hl hs
    rw [hl] at h
    dsimp only at h
    split at h
    · exact (Demangler.extends_of_learn h).knows hk
    · cases h
      exact hk

/-- A scan with a demangler learns the batches of the file and goes by the names then, or what the
tool writes about them is no text. -/
theorem scan_cases (path : Text) (d : Demangler) (text : Text) :
    (∃ d', scan path d text = (.error .notText, d') ∧ Demangler.Extends d d' ∧ d.MayGarble) ∨
      ∃ d', learnFile d path (fileLines text) = (.ok (), d') ∧ Demangler.Extends d d' ∧
        scan path d text = (scanWith d.target d'.name path (fileLines text), d') := by
  have he := extends_learnFile d path (fileLines text)
  rw [scan]
  rcases h : learnFile d path (fileLines text) with ⟨e | u, d'⟩
  · obtain ⟨rfl, hmay⟩ := learnFile_error h
    rw [h] at he
    exact .inl ⟨d', rfl, he, hmay⟩
  · rw [h] at he
    have htarget : d'.target = d.target := he.target
    refine .inr ⟨d', rfl, he, ?_⟩
    dsimp only
    rw [htarget]

theorem extends_scan (path : Text) (d : Demangler) (text : Text) :
    Demangler.Extends d (scan path d text).2 := by
  rcases scan_cases path d text with ⟨d', hscan, he, -⟩ | ⟨d', -, he, hscan⟩
  · rw [hscan]
    exact he
  · rw [hscan]
    exact he

/-- A scan that does not fail goes by the names that the demangler has then. -/
theorem scan_eq_ok {text : Text} {r : Scanned Found} (h : scan path d text = (.ok r, d')) :
    learnFile d path (fileLines text) = (.ok (), d') ∧ d'.target = d.target ∧
      scanWith d.target d'.name path (fileLines text) = .ok r := by
  rcases scan_cases path d text with ⟨_, hscan, -⟩ | ⟨d₁, hlearn, he, hscan⟩
  · cases hscan.symm.trans h
  · obtain ⟨hr, rfl⟩ := Prod.mk.inj (hscan.symm.trans h)
    exact ⟨hlearn, he.target, hr⟩

end Locator

end AsmLens
