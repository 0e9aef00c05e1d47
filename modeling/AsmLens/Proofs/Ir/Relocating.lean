import AsmLens.Ir.Definition
import AsmLens.Proofs.Symbol.Surveying
import Mathlib.Data.List.TakeWhile

/-!
# Scanning LLVM IR again

A scan of a file of LLVM IR finds the definition asked for or lists the names of all symbols
(`scanWith_cases`). The batch of a file leaves an empty symbol out, but a scan in vain comes to it
and learns it then, so it has surveyed every symbol too (`surveyed_of_scan`). A later scan of the file
asks for nothing (`learnFile_of_knows`).
-/

namespace AsmLens

open Text

namespace Ir

/-- The symbols that the lines of a file define. -/
def symbols (text : Text) : List Text :=
  (lines text).filterMap lineSymbol?

variable {name : Text → Text} {path : Text} {ls : List Text} {d d' : Demangler}

/-- A scan is in vain exactly if no symbol has the name. -/
theorem scanWith_cases (name : Text → Text) (path : Text) (ls : List Text) :
    (scanWith name path ls = .absent ((ls.filterMap lineSymbol?).map name) ∧
        ∀ s ∈ ls.filterMap lineSymbol?, name s ≠ path) ∨
      ∃ r, scanWith name path ls = .found r ∧ r.path = path := by
  induction ls with
  | nil => exact .inl ⟨rfl, fun _ h => absurd h List.not_mem_nil⟩
  | cons line ls ih =>
    unfold scanWith
    cases hs : lineSymbol? line with
    | none =>
      rw [List.filterMap_cons_none hs]
      exact ih
    | some symbol =>
      rw [List.filterMap_cons_some hs]
      dsimp only
      by_cases hp : name symbol = path
      · rw [if_pos hp]
        exact .inr ⟨_, rfl, rfl⟩
      · rw [if_neg hp]
        rcases ih with ⟨ha, hno⟩ | ⟨r, hr, hpath⟩
        · rw [ha]
          refine .inl ⟨rfl, fun s hmem => ?_⟩
          rcases List.mem_cons.1 hmem with rfl | hmem
          · exact hp
          · exact hno s hmem
        · rw [hr]
          exact .inr ⟨r, rfl, hpath⟩

theorem extends_learnFile (d : Demangler) (path : Text) (ls : List Text) :
    Demangler.Extends d (learnFile d path ls).2 := by
  rw [learnFile]
  rcases h : d.learn ((ls.filterMap lineSymbol?).filter fun s => !s.isEmpty) with ⟨e | u, d₁⟩
  · exact Demangler.extends_of_learn h
  · have h₁ := Demangler.extends_of_learn h
    dsimp only
    split
    · exact h₁.trans (Demangler.extends_learn _ _)
    · exact h₁

/-- The batch of a file fails only if the tool may write what is no text. -/
theorem learnFile_error {e : Failure} (h : learnFile d path ls = (.error e, d')) :
    e = .notText ∧ d.MayGarble := by
  rw [learnFile] at h
  rcases hl : d.learn ((ls.filterMap lineSymbol?).filter fun s => !s.isEmpty) with ⟨e | u, d₁⟩
  · rw [hl] at h
    cases h
    exact (Demangler.Extends.refl d).mayGarble_of_learn hl
  · rw [hl] at h
    dsimp only at h
    split at h
    · exact (Demangler.extends_of_learn hl).mayGarble_of_learn h
    · cases h

/-- A scan with a demangler learns the batch of the file and goes by the names then, or what the
tool writes about it is no text. -/
theorem scan_cases (path : Text) (d : Demangler) (text : Text) :
    (∃ d', scan path d text = (.error .notText, d') ∧ Demangler.Extends d d' ∧ d.MayGarble) ∨
      ∃ d', learnFile d path (lines text) = (.ok (), d') ∧ Demangler.Extends d d' ∧
        scan path d text = (.ok (scanWith d'.name path (lines text)), d') := by
  have he := extends_learnFile d path (lines text)
  rw [scan]
  rcases h : learnFile d path (lines text) with ⟨e | u, d'⟩
  · obtain ⟨rfl, hmay⟩ := learnFile_error h
    rw [h] at he
    exact .inl ⟨d', rfl, he, hmay⟩
  · rw [h] at he
    exact .inr ⟨d', rfl, he, rfl⟩

theorem extends_scan (path : Text) (d : Demangler) (text : Text) :
    Demangler.Extends d (scan path d text).2 := by
  rcases scan_cases path d text with ⟨d', hscan, he, -⟩ | ⟨d', -, he, hscan⟩
  · rw [hscan]
    exact he
  · rw [hscan]
    exact he

/-- If no symbol of a file is called `path`, all are known after it, the empty one as well. -/
theorem knows_of_mem_learnFile (hlearn : learnFile d path ls = (.ok (), d'))
    (hno : ∀ s ∈ ls.filterMap lineSymbol?, d'.name s ≠ path) {symbol : Text}
    (h : symbol ∈ ls.filterMap lineSymbol?) : d'.Knows symbol := by
  rw [learnFile] at hlearn
  rcases hl : d.learn ((ls.filterMap lineSymbol?).filter fun s => !s.isEmpty) with ⟨e | u, d₁⟩
  · rw [hl] at hlearn
    cases hlearn
  have hbatch : ∀ s ∈ ls.filterMap lineSymbol?, s ≠ [] → d₁.Knows s := by
    intro s hs hne
    refine Demangler.knows_of_mem_learn hl (List.mem_filter.2 ⟨hs, ?_⟩)
    simpa [List.isEmpty_iff] using hne
  rw [hl] at hlearn
  dsimp only at hlearn
  split at hlearn
  · by_cases hne : symbol = []
    · exact Demangler.knows_of_mem_learn hlearn (by simp [hne])
    · exact (Demangler.extends_of_learn hlearn).knows (hbatch symbol h hne)
  · rename_i hempty
    cases hlearn
    -- The scan got past every symbol, so it would have come to an empty one.
    have hall : (ls.filterMap lineSymbol?).takeWhile (fun s => s.isEmpty || d'.name s != path) =
        ls.filterMap lineSymbol? := by
      apply List.takeWhile_eq_self_iff.2
      intro s hs
      simp [hno s hs]
    apply hbatch symbol h
    rintro rfl
    rw [hall] at hempty
    exact hempty (List.contains_iff_mem.2 h)

/-- A scan in vain has surveyed the symbols of the file. -/
theorem surveyed_of_scan {text : Text} {names : List Text}
    (h : scan path d text = (.ok (.absent names), d')) :
    Surveyed path (symbols text) names d' := by
  rcases scan_cases path d text with ⟨_, hscan, -⟩ | ⟨d₁, hlearn, -, hscan⟩
  · cases hscan.symm.trans h
  · obtain ⟨habsent, rfl⟩ := Prod.mk.inj (hscan.symm.trans h)
    have habsent := Except.ok.inj habsent
    rcases scanWith_cases d₁.name path (lines text) with ⟨ha, hno⟩ | ⟨r, hr, -⟩
    · rw [habsent] at ha
      exact ⟨fun s hs => knows_of_mem_learnFile hlearn hno hs, Scanned.absent.inj ha, hno⟩
    · cases hr.symm.trans habsent

end Ir

end AsmLens
