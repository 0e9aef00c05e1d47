import AsmLens.Path.Display
import AsmLens.Proofs.Path.Components

/-!
# What a shown path leads to

An absolute path is shown by what follows the library's sources, or else by what follows the
working directory, wherever in the path that stands. So a path below the working directory is shown
by its components below it, and one that does not contain the working directory is shown as it is;
but a path that contains it further down loses the components before it (`display_below_cwd`).
-/

namespace AsmLens.Path

open Text

variable {p librarySources cwd : Text} {a b : List Text}

/-- A path with the library's sources is shown by what follows them. -/
theorem display_of_library (habs : isAbsolute p = true)
    (h : IsFirstRun (components librarySources) (components p) a b) :
    display p librarySources cwd = join [separator p] b := by
  rw [display, if_pos habs, after?_eq_some h]
  rfl

/-- A path with the working directory alone is shown by what follows that. -/
theorem display_of_cwd (habs : isAbsolute p = true)
    (hlibrary : ¬ components librarySources <:+: components p)
    (h : IsFirstRun (components cwd) (components p) a b) :
    display p librarySources cwd = join [separator p] b := by
  rw [display, if_pos habs, after?_eq_none hlibrary, after?_eq_some h]
  rfl

/-- A path with neither is shown as it is. -/
theorem display_of_neither (hlibrary : ¬ components librarySources <:+: components p)
    (hcwd : ¬ components cwd <:+: components p) : display p librarySources cwd = p := by
  rw [display, after?_eq_none hlibrary, after?_eq_none hcwd]
  exact ite_self p

/-- **Paths below the working directory.** Of the absolute paths that are not in the library's
sources, one that begins with the components of the working directory is shown by those that follow
them, and one that does not have them in a row is shown as it is. One that has them further down is
shown shortened too, by what follows them where they stand first: what stands before them is not
shown. -/
theorem display_below_cwd (p librarySources cwd : Text) (habs : isAbsolute p = true)
    (hlibrary : ¬ components librarySources <:+: components p) :
    (components cwd <+: components p →
      components cwd ++ components (display p librarySources cwd) = components p) ∧
    (¬ components cwd <:+: components p → display p librarySources cwd = p) ∧
    (components cwd <:+: components p → ¬ components cwd <+: components p →
      display p librarySources cwd ≠ p ∧ ∃ a, a ≠ [] ∧
        IsFirstRun (components cwd) (components p) a
          (components (display p librarySources cwd))) := by
  have hshown : ∀ {a b}, IsFirstRun (components cwd) (components p) a b →
      components (display p librarySources cwd) = b := fun h => by
    rw [display_of_cwd habs hlibrary h, components_after h]
  refine ⟨?_, display_of_neither hlibrary, fun hin hbegins => ?_⟩
  · rintro ⟨b, hb⟩
    have hrun : IsFirstRun (components cwd) (components p) [] b := hb ▸ .of_begins _ b
    rw [hshown hrun, hb]
  · obtain ⟨b, hb⟩ := Option.ne_none_iff_exists'.1 fun hnone => afterRun?_eq_none_iff.1 hnone hin
    obtain ⟨a, hrun⟩ := afterRun?_eq_some_iff.1 hb
    have hne : a ≠ [] := by
      rintro rfl
      exact hbegins ⟨b, hrun.eq.symm⟩
    refine ⟨fun hsame => ?_, a, hne, (hshown hrun).symm ▸ hrun⟩
    -- Shown as it is, the path would have no components before the working directory.
    have hlen := congrArg List.length hrun.eq
    rw [← hsame, hshown hrun] at hlen
    have hpos := List.length_pos_iff.2 hne
    simp only [List.length_append] at hlen
    omega

/-- A working directory that a path begins with and has once more, one that a path does not have
with a name in between, and one that a path has twice further down. -/
theorem display_below_cwd_twice :
    let librarySources : Text := "lib/rustlib/src/rust".toList
    let cwd : Text := "/b//c/".toList
    let below : Text := "/b/c/b/c/d.rs".toList
    let other : Text := "/b/a/c/d.rs".toList
    let within : Text := "/a/b\\c/b/c/d.rs".toList
    ((isAbsolute below = true ∧ ¬ components librarySources <:+: components below) ∧
      components cwd <+: components below ∧
      components cwd ++ components (display below librarySources cwd) = components below) ∧
    ((isAbsolute other = true ∧ ¬ components librarySources <:+: components other) ∧
      ¬ components cwd <:+: components other ∧ display other librarySources cwd = other) ∧
    (isAbsolute within = true ∧ ¬ components librarySources <:+: components within) ∧
    (components cwd <:+: components within ∧ ¬ components cwd <+: components within) ∧
    display within librarySources cwd ≠ within ∧ ∃ a, a ≠ [] ∧
      IsFirstRun (components cwd) (components within) a
        (components (display within librarySources cwd)) := by
  intro librarySources cwd below other within
  have hbelow : isAbsolute below = true ∧ ¬ components librarySources <:+: components below := by
    decide +kernel
  have hother : isAbsolute other = true ∧ ¬ components librarySources <:+: components other := by
    decide +kernel
  have hwithin : isAbsolute within = true ∧ ¬ components librarySources <:+: components within := by
    decide +kernel
  have hbegins : components cwd <+: components below := by decide +kernel
  have hnot : ¬ components cwd <:+: components other := by decide +kernel
  have hin : components cwd <:+: components within := by decide +kernel
  have hinside : ¬ components cwd <+: components within := by decide +kernel
  exact ⟨⟨hbelow, hbegins,
      (display_below_cwd below librarySources cwd hbelow.1 hbelow.2).1 hbegins⟩,
    ⟨hother, hnot, (display_below_cwd other librarySources cwd hother.1 hother.2).2.1 hnot⟩,
    hwithin, ⟨hin, hinside⟩,
    (display_below_cwd within librarySources cwd hwithin.1 hwithin.2).2.2 hin hinside⟩

/-- A path that has the components of the working directory below another directory is shown as
if it were below the working directory, which names another file. -/
theorem displayed_elsewhere :
    let p : Text := "/mnt/home/u/a.rs".toList
    let librarySources : Text := "lib/rustlib/src/rust".toList
    let cwd : Text := "/home/u".toList
    (isAbsolute cwd = true ∧ isAbsolute p = true ∧
      ¬ components librarySources <:+: components p ∧ ¬ components cwd <+: components p) ∧
    display p librarySources cwd = "a.rs".toList ∧
      components cwd ++ components (display p librarySources cwd) ≠ components p := by
  decide +kernel

end AsmLens.Path
