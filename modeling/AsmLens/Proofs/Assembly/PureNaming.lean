import AsmLens.Proofs.Assembly.Naming
import AsmLens.Proofs.Assembly.Searching
import AsmLens.Proofs.Symbol.Batching

/-!
# Locating by the names of symbols on their own

A scan with a faithful demangler is the scan that names each symbol on its own, and leaves the
demangler faithful (`Demangler.Faithful.scan`). So is a search through several files, whatever the
demangler was asked before (`calls_answer_each_alone`).
-/

namespace AsmLens

open Text Demangler

/-- Looks for a function in several files with any naming of symbols. -/
def Locator.locateWith (t : Target) (name : Text → Text) (path : Text)
    (files : List (Except Failure Text)) : Except Failure (Located Found) :=
  searchTexts (fun text => scanWith t name path (fileLines text)) [] files

/-- Once the labels of a file are learnt, the batch of the body follows. -/
theorem Locator.learnFile_of_learn {d d' : Demangler} {path : Text} {ls : List Text}
    (h : d.learn (ls.filterMap (functionLabel? d.target)) = (.ok (), d')) :
    learnFile d path ls = d'.learn (bodySymbols d.target d'.name path ls) := by
  rw [learnFile, h]
  dsimp only
  rw [(extends_of_learn h).target]
  split
  · rename_i hseek
    rw [bodySymbols_of_seek hseek]
  · rename_i hseek
    have hnone : bodySymbols d.target d'.name path ls = [] := by
      unfold bodySymbols
      split
      · rename_i hsome
        exact (hseek _ _ _ hsome).elim
      · rfl
    rw [hnone, learn_nil]

namespace Demangler.Faithful

variable {t : Target} {f : Text → Text} {d : Demangler} {path text : Text}

/-- After a scan each symbol that it asks for has the name that it has on its own. -/
theorem learnFile (h : Faithful t f d)
    (hask : ∀ s ∈ Locator.asked t (pureName t f) path text, IsAskable t f s) :
    ∃ d', Locator.learnFile d path (Locator.fileLines text) = (.ok (), d') ∧ Faithful t f d' ∧
      ∀ s ∈ Locator.asked t (pureName t f) path text, d'.name s = pureName t f s := by
  obtain rfl := h.target
  rw [Locator.asked] at hask ⊢
  rw [List.forall_mem_append] at hask
  have hlabels := h.learn hask.1
  have hlearn := h.learn_eq ((Locator.fileLines text).filterMap (Locator.functionLabel? d.target))
  have hnames := fun s
      (hs : s ∈ (Locator.fileLines text).filterMap (Locator.functionLabel? d.target)) =>
    hlabels.name_eq (knows_of_mem_learn hlearn hs)
  have hbody := hlabels.learn hask.2
  have hlearn' := hlabels.learn_eq
    (Locator.bodySymbols d.target (pureName d.target f) path (Locator.fileLines text))
  rw [Locator.learnFile_of_learn hlearn, Locator.bodySymbols_congr hnames]
  exact ⟨_, hlearn', hbody, List.forall_mem_append.2
    ⟨fun s hs => hbody.name_eq ((extends_of_learn hlearn').knows (knows_of_mem_learn hlearn hs)),
      fun s hs => hbody.name_eq (knows_of_mem_learn hlearn' hs)⟩⟩

/-- A scan is the one that names each symbol on its own. -/
theorem scan (h : Faithful t f d)
    (hask : ∀ s ∈ Locator.asked t (pureName t f) path text, IsOneLine (f (prepare t s))) :
    (Locator.scan path d text).1 =
        Locator.scanWith t (pureName t f) path (Locator.fileLines text) ∧
      Faithful t f (Locator.scan path d text).2 := by
  obtain ⟨d', hlearn, hfaithful, hnames⟩ := h.learnFile fun s hs =>
    ⟨Locator.newline_notMem_of_mem_asked hs, hask s hs⟩
  rw [Locator.scan, hlearn]
  refine ⟨?_, hfaithful⟩
  dsimp only
  rw [hfaithful.target]
  exact (Locator.scanWith_congr fun s hs => (hnames s hs).symm).symm

/-- A search is the one that names each symbol on its own. -/
theorem locate (h : Faithful t f d) {files : List (Except Failure Text)}
    (hask : ∀ text, .ok text ∈ files →
      ∀ s ∈ Locator.asked t (pureName t f) path text, IsOneLine (f (prepare t s))) :
    (Locator.locate d path files).1 = Locator.locateWith t (pureName t f) path files := by
  rw [Locator.locate, Locator.locateWith]
  refine searchFiles_eq_searchTexts (Faithful t f) (fun d text hd ht => ?_) h []
  exact hd.scan (hask text ht)

end Demangler.Faithful

/-- **Batches and known names do not show.** A tool that answers line by line gives every symbol the
same name in each of any calls: that of the symbol on its own, cut for the tool and stripped of its
hash. After these calls functions are located as by these names. -/
theorem calls_answer_each_alone (t : Target) {tool : Text} (ht : tool ≠ [])
    {behaviour : ToolBehaviour} {f : Text → Text} (hmaps : behaviour.Maps f) {calls : List Call}
    (hcalls : ∀ c ∈ calls, ∀ s ∈ c.symbols, IsAskable t f s) :
    (Call.runAll (.new t (some tool) behaviour) calls).1 =
        calls.map (fun c => .ok (c.symbols.map fun s => Symbol.stripHash (f (prepare t s)))) ∧
      (∀ s, if t.isLinux then IsCutAt "@PLT".toList s (prepare t s) else prepare t s = s) ∧
      ∀ path files,
        (∀ text, .ok text ∈ files → ∀ s ∈ Locator.asked t (pureName t f) path text,
          IsOneLine (f (prepare t s))) →
        (Locator.locate (Call.runAll (.new t (some tool) behaviour) calls).2 path files).1 =
          Locator.locateWith t (pureName t f) path files := by
  obtain ⟨hanswers, hfaithful⟩ := (faithful_new t ht hmaps).runAll hcalls
  exact ⟨hanswers, prepare_cuts t, fun path files hfiles => hfaithful.locate hfiles⟩

/-- A symbol may come twice in a batch, be known, or be nothing when it is cut. -/
theorem calls_answer_each_alone_with_repeats :
    let t : Target := ⟨"x86_64-unknown-linux-gnu".toList⟩
    let f : Text → Text := fun s => 'd' :: s ++ "::h0123456789abcdef".toList
    let behaviour : ToolBehaviour := fun _ input => .finished 0 (unlines ((lines input).map f)) []
    let calls : List Call := [.many ["_f@PLT".toList, "_g".toList, "_f@PLT".toList],
      .one "@PLT".toList, .one "_g".toList]
    let assembly := "_g:\ncall _f@PLT\n.cfi_endproc\n".toList
    let r := Call.runAll (.new t (some "rustfilt".toList) behaviour) calls
    (behaviour.Maps f ∧ (∀ c ∈ calls, ∀ s ∈ c.symbols, IsAskable t f s) ∧
      ∀ s ∈ Locator.asked t (pureName t f) "d_g".toList assembly, IsOneLine (f (prepare t s))) ∧
    r.1 = [.ok ["d_f".toList, "d_g".toList, "d_f".toList], .ok ["d".toList],
      .ok ["d_g".toList]] ∧
    (Locator.locate r.2 "d_g".toList [.ok assembly]).1 =
      Locator.locateWith t (pureName t f) "d_g".toList [.ok assembly] := by
  intro t f behaviour calls assembly r
  have hmaps : behaviour.Maps f := fun _ _ => ⟨[], rfl⟩
  have hhash : IsOneLine "::h0123456789abcdef".toList := by decide +kernel
  have hone : ∀ s, IsOneLine s → IsAskable t f s := fun s hs =>
    ⟨fun hn => absurd (hs _ hn) (by decide), List.forall_mem_append.2
      ⟨List.forall_mem_cons.2 ⟨by decide, fun c hc => hs c ((prepare_begins t s).subset hc)⟩,
        hhash⟩⟩
  have hlines : ∀ c ∈ calls, ∀ s ∈ c.symbols, IsOneLine s := by decide +kernel
  have hcalls : ∀ c ∈ calls, ∀ s ∈ c.symbols, IsAskable t f s :=
    fun c hc s hs => hone s (hlines c hc s hs)
  have hasked : Locator.asked t (pureName t f) "d_g".toList assembly =
      ["_g".toList, "_f@PLT".toList] := by decide +kernel
  have hfile : ∀ s ∈ Locator.asked t (pureName t f) "d_g".toList assembly,
      IsOneLine (f (prepare t s)) := by
    rw [hasked]
    exact List.forall_mem_cons.2 ⟨(hone _ (by decide)).answer,
      List.forall_mem_singleton.2 (hone _ (by decide)).answer⟩
  have hnames : calls.map (fun c => c.symbols.map fun s => Symbol.stripHash (f (prepare t s))) =
      [["d_f".toList, "d_g".toList, "d_f".toList], ["d".toList], ["d_g".toList]] := by
    decide +kernel
  obtain ⟨hr, -, hlocate⟩ :=
    @calls_answer_each_alone t "rustfilt".toList (by decide) behaviour f hmaps calls hcalls
  refine ⟨⟨hmaps, hcalls, hfile⟩, hr.trans (congrArg (List.map Except.ok) hnames),
    hlocate _ _ fun text h => ?_⟩
  obtain ⟨⟩ := List.mem_singleton.1 h
  exact hfile

end AsmLens
