import AsmLens.Proofs.Actions
import AsmLens.Proofs.Assembly.FileTable
import AsmLens.Proofs.Source.References
import AsmLens.Source.Correlation
import AsmLens.Toolchain

/-!
# What correlating may fail for

Correlating fails for a location whose file is not in the table, for a reason of the sysroot, or
for a source file that cannot be read or has not the lines asked for (`mayFail_ofFunction`). With a
table that has every file that the function refers to, the first of these cannot happen
(`wanted_ne_error`), and the toolchain never gives it as its own (`Toolchain.mayFail_sysroot`).
-/

namespace AsmLens

namespace Correlation

variable {fs : FileSystem} {f : Function} {table : FileTable} {limit : Int} {e : Failure}

/-- The excerpts can be named if and only if the table has the files of all references. -/
theorem exists_wanted_iff :
    (∃ asked, wanted limit f table = .ok asked) ↔
      ∀ r ∈ Source.referencedLocs f, ∃ file, table.get? r.file = some file := by
  rw [wanted, exists_mapM_eq_ok_iff]
  constructor
  · intro h r hr
    have hmem := Source.mem_references_iff.2 ⟨⟨r, hr, rfl⟩, rfl⟩
    obtain ⟨x, hx⟩ := h (r.file, Source.linesOf f r.file) hmem
    cases hg : table.get? r.file with
    | some file => exact ⟨file, rfl⟩
    | none => simp [hg] at hx
  · rintro h ⟨i, ls⟩ hmem
    obtain ⟨⟨r, hr, rfl⟩, -⟩ := Source.mem_references_iff.1 hmem
    obtain ⟨file, hfile⟩ := h r hr
    exact ⟨_, by simp [hfile]; rfl⟩

/-- With all its files in the table, a function has its excerpts. -/
theorem wanted_ne_error
    (h : ∀ s ∈ f.statements, ∀ l, s.reference? = some l → l.file ∈ table.indices) :
    wanted limit f table ≠ .error e := by
  intro he
  obtain ⟨asked, hok⟩ := exists_wanted_iff.2 fun r hr => by
    obtain ⟨s, hs, hr⟩ := List.mem_filterMap.1 hr
    exact FileTable.mem_indices_iff.1 (h s hs r hr)
  cases he.symm.trans hok

/-- A source file cannot be opened, or a line of it is missing. -/
def IsSourceFailure (e : Failure) : Prop :=
  (∃ problem, e = .cannotOpen problem) ∨ ∃ path line, e = .missingLine path line

theorem isSourceFailure_of_readText {path : Text} (h : fs.readText path = .error e) :
    IsSourceFailure e := by
  have h := map_eq_error.1 h
  unfold FileSystem.read at h
  split at h
  · cases h
    exact .inl ⟨_, rfl⟩
  · split at h
    · cases h
      exact .inl ⟨_, rfl⟩
    · cases h
      exact .inl ⟨_, rfl⟩
    · split at h
      · cases h
        exact .inl ⟨_, rfl⟩
      · cases h

theorem isSourceFailure_of_load {x : Excerpt} (h : load fs x = .error e) : IsSourceFailure e := by
  unfold load at h
  rcases bind_eq_error.1 h with h | ⟨text, -, h⟩
  · exact isSourceFailure_of_readText h
  · dsimp only at h
    split at h
    · cases h
      exact .inr ⟨_, _, rfl⟩
    · cases h

/-- Reading the excerpts fails at a source file only. -/
theorem mayFail_readAll {s : Sources} (h : (readAll fs s).MayFail e) : IsSourceFailure e := by
  have hload : ∀ {missing : List Text}, Action.MayFail (do
      let sources ← Action.ofExcept <|
        (s.filter fun e => isPresent fs e.2).mapM fun x => (load fs x.2).map fun e => (x.1, e)
      return (⟨sources, missing⟩ : Correlation)) e → IsSourceFailure e := by
    intro missing h
    rcases Action.mayFail_of_bind h with h | ⟨sources, h⟩
    · obtain ⟨x, -, h⟩ := mapM_eq_error (Action.mayFail_ofExcept h)
      exact isSourceFailure_of_load (map_eq_error.1 h)
    · exact absurd h (Action.not_mayFail_pure _)
  unfold readAll at h
  dsimp only at h
  split at h
  · exact hload h
  · rcases Action.mayFail_of_bind h with h | ⟨u, h⟩
    · exact absurd h (Action.not_mayFail_modify _)
    · exact hload h

theorem mayFail_corrected {sysroot : Action Text} {s : Sources}
    (h : (corrected fs sysroot s).MayFail e) : sysroot.MayFail e := by
  unfold corrected at h
  split at h
  · rcases Action.mayFail_of_bind h with h | ⟨root, h⟩
    · exact h
    · exact absurd h (Action.not_mayFail_pure _)
  · exact absurd h (Action.not_mayFail_pure _)

/-- Correlating fails for the table, the sysroot or a source file. -/
theorem mayFail_ofFunction {sysroot : Action Text} {limit : Int} {base : Option Text}
    (h : (ofFunction fs sysroot limit base f table).MayFail e) :
    wanted limit f table = .error e ∨ sysroot.MayFail e ∨ IsSourceFailure e := by
  unfold ofFunction at h
  rcases Action.mayFail_of_bind h with h | ⟨asked, h⟩
  · exact .inl (Action.mayFail_ofExcept h)
  · rcases Action.mayFail_of_bind h with h | ⟨s, h⟩
    · exact .inr (.inl (mayFail_corrected h))
    · exact .inr (.inr (mayFail_readAll h))

end Correlation

namespace Toolchain

variable {t : Toolchain} {e : Failure}

/-- A command may not start, be interrupted, or write what is no text. -/
theorem mayFail_ask {query : Query} {words : List Text} {flags : Option Text}
    {notStarted : Text → Failure} (h : (t.ask query words flags notStarted).MayFail e) :
    (∃ reason, e = notStarted reason) ∨ e = .interrupted ∨ e = .notText := by
  unfold ask at h
  rcases Action.mayFail_of_bind h with h | ⟨u, h⟩
  · exact absurd h (Action.not_mayFail_modify _)
  · split at h
    · exact absurd h (Action.not_mayFail_pure _)
    · exact .inr (.inr (Action.mayFail_throw h))
    · exact .inl ⟨_, Action.mayFail_throw h⟩
    · exact .inr (.inl (Action.mayFail_throw h))

/-- Asking for the sysroot fails with a problem of the toolchain, an interrupt, or because the
answer is no text. -/
theorem mayFail_sysroot (h : t.sysroot.MayFail e) :
    (∃ problem, e = .toolchain problem) ∨ e = .interrupted ∨ e = .notText := by
  unfold sysroot at h
  rcases Action.mayFail_of_bind h with h | ⟨⟨code, output, diagnostics⟩, h⟩
  · exact (mayFail_ask h).imp_left fun ⟨_, he⟩ => ⟨_, he⟩
  · dsimp only at h
    split at h
    · rcases Action.mayFail_of_bind h with h | ⟨u, h⟩
      · exact .inl ⟨_, Action.mayFail_throw h⟩
      · exact absurd h (Action.not_mayFail_pure _)
    · exact absurd h (Action.not_mayFail_pure _)

end Toolchain

end AsmLens
