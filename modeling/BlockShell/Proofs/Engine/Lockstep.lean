import BlockShell.Proofs.Engine.Changes
import BlockShell.Proofs.Journal.Opening

/-!
# Memory and disk in lockstep

An engine is opened over a journal on a disk on which operations may fail in any order, and carries
out changes.  After each of them the journal is loaded as the registry of the engine
(`lockstep_of_changes`).  The one exception is a journal with a name that no file can have and
without a directory: it is opened as the empty registry and never stored, but once a store has
created its directory, it cannot be loaded any more (`Journal.Stranded`).
-/

namespace BlockShell

open FileTree (Usable)

namespace Journal

variable {j : Journal} {name : String} {r : Registry}

/-! ## The exception -/

/-- No file can have the name of the journal.  In `t` it had no directory; in `u` it has one, so that
loading it fails. -/
def Stranded (j : Journal) (t u : FileTree) : Prop :=
  ∃ name, j.path.fileName? = some name ∧ ¬ Usable name ∧
    (t.directory j.directory).isOk = false ∧ (u.directory j.directory).isOk = true ∧
    j.content? u = none ∧ ∃ e, j.loaded u = .error (.access j.path e)

theorem Refused.stranded {t u : FileTree} (h : j.Refused u) (hload : j.loaded t = .ok r) :
    j.Stranded t u := by
  obtain ⟨name, l, hname, hn, hl⟩ := h
  refine ⟨name, hname, hn, ?_, by rw [hl]; rfl, ?_, loaded_of_not_usable hname hl hn⟩
  · cases ht : t.directory j.directory with
    | error e => rfl
    | ok k =>
      obtain ⟨e, he⟩ := loaded_of_not_usable hname ht hn
      cases he.symm.trans hload
  · unfold content?
    rw [hname, Option.bind_some]
    cases hread : u.readFile j.directory name with
    | error e => rfl
    | ok content =>
      obtain ⟨_, -, hn', -⟩ := FileTree.readFile_eq_ok_iff.1 hread
      exact absurd hn' hn

/-! ## A name that is too long -/

section LongName

variable {name : String} (hslash : '/' ∉ name.toList)
  (hlong : FileTree.nameLimit < name.utf8ByteSize)

/-- The journal under a name in the directory `d`. -/
def inside (name : String) : Journal := ⟨⟨"d/" ++ name⟩⟩

theorem anchor?_inside (name : String) : (inside name).path.anchor? = none := by
  unfold inside Path.anchor?
  rw [String.toList_append]
  rfl

include hslash in
theorem segments_inside : (inside name).path.segments = ["d", name] := by
  have htext : ("d/" ++ name).toList = ['d'] ++ '/' :: name.toList := by
    rw [String.toList_append]
    rfl
  unfold inside Path.segments
  rw [htext]
  show ((['d'] ++ '/' :: name.toList).splitOn '/').map String.ofList = _
  rw [List.splitOn_append_cons_self_of_not_mem (by decide), List.splitOn_eq_singleton hslash]
  simp

include hlong

theorem isFiller_of_long : Path.isFiller name = false := by
  rw [Path.isFiller, Bool.eq_false_iff]
  intro h
  rcases Bool.or_eq_true_iff.1 h with h | h
  · rw [beq_iff_eq.1 h] at hlong
    exact absurd hlong (by decide)
  · rw [beq_iff_eq.1 h] at hlong
    exact absurd hlong (by decide)

theorem ne_up_of_long : name ≠ ".." := by
  rintro rfl
  exact absurd hlong (by decide)

include hslash

theorem backward_inside : (inside name).path.backward = [name, "d"] := by
  have hfiller : ¬ Path.isFiller name = true := by
    rw [isFiller_of_long hlong]
    decide
  unfold Path.backward
  rw [segments_inside hslash]
  show ([name, "d"]).dropWhile Path.isFiller = _
  rw [List.dropWhile_cons_of_neg hfiller]

theorem fileName?_inside : (inside name).path.fileName? = some name := by
  unfold Path.fileName?
  rw [backward_inside hslash hlong]
  exact if_neg (ne_up_of_long hlong)

theorem directory_inside : (inside name).directory = ⟨"d"⟩ := by
  have hparent : (inside name).path.parent? = some ⟨"d"⟩ := by
    unfold Path.parent?
    rw [backward_inside hslash hlong, anchor?_inside]
    show some (Path.ofBackward none (["d"].dropWhile Path.isFiller)) = some ⟨"d"⟩
    decide
  unfold Journal.directory Journal.directoryOf
  rw [hparent]
  exact if_neg (by decide)

theorem up_not_mem_inside : Path.Component.up ∉ (inside name).path.components := by
  have hd : Path.isFiller "d" = false := by decide
  unfold Path.components
  rw [segments_inside hslash, anchor?_inside]
  simp [isFiller_of_long hlong, hd, Path.componentOf, ne_up_of_long hlong]

end LongName

/-- A name of `n` letters. -/
def letters (n : Nat) : String := String.ofList (List.replicate n 'a')

theorem utf8ByteSize_letters (n : Nat) : (letters n).utf8ByteSize = n := by
  unfold letters
  induction n with
  | zero => rfl
  | succ n ih =>
    rw [List.replicate_succ', String.ofList_append, String.utf8ByteSize_append, ih]
    rfl

theorem slash_not_mem_letters (n : Nat) : '/' ∉ (letters n).toList := by
  rw [letters, String.toList_ofList]
  intro h
  exact absurd (List.eq_of_mem_replicate h) (by decide)

end Journal

namespace Engine

variable {j : Journal} {t t₀ t₁ t₂ : FaultyTree} {r₀ r₁ r₂ : Registry} {changes : List Change}
  {c : Change} {answers : List (Except EngineError Unit)} {answer : Except EngineError Unit}

/-- Whatever faults are planned, memory and disk stay in step. -/
theorem run_inStep (hup : Path.Component.up ∉ j.path.components) (ht : t₀.tree.Sound)
    (hin : j.InStep t₀.tree r₀)
    (hrun : changes.mapM (journaled FaultyTree.disk j).change r₀ t₀ = ((answers, r₁), t₁)) :
    t₁.tree.Sound ∧ j.InStep t₁.tree r₁ := by
  refine run_induction (P := fun r s => s.tree.Sound ∧ j.InStep s.tree r) (Q := fun _ => True)
    (fun h _ ⟨hs, hin⟩ => ?_) hrun (fun _ _ => trivial) ?_
  · exact ⟨ht, hin⟩
  · exact (change_inStep FaultyTree.actsOn (Journal.up_not_mem_directory hup) hs hin h).1

/-- An engine is opened, then come changes, then one more.  It is answered as it should be, and the
journal is loaded as the registry. -/
theorem lockstep_of_changes (hup : Path.Component.up ∉ j.path.components) (ht : t.tree.Sound)
    (hopen : j.load FaultyTree.disk t = (.ok r₀, t₀))
    (hrun : changes.mapM (journaled FaultyTree.disk j).change r₀ t₀ = ((answers, r₁), t₁))
    (hnext : (journaled FaultyTree.disk j).change c r₁ t₁ = ((answer, r₂), t₂)) :
    Answered j c r₁ t₁.tree r₂ t₂.tree answer ∧
      (j.loaded t₂.tree = .ok r₂ ∨ (j.Stranded t.tree t₂.tree ∧ r₂ = .empty)) := by
  obtain ⟨hload, htree⟩ := Journal.loaded_of_load hopen
  rw [← htree] at ht hload ⊢
  obtain ⟨hsound, hin⟩ := run_inStep hup ht (.inl hload) hrun
  obtain ⟨⟨-, hin⟩, hanswer⟩ :=
    change_inStep FaultyTree.actsOn (Journal.up_not_mem_directory hup) hsound hin hnext
  exact ⟨hanswer, hin.imp_right fun ⟨h, hr⟩ => ⟨h.stranded hload, hr⟩⟩

/-- A target without any device. -/
def blank : Target := ⟨"t", 8, none, .null⟩

/-- The first store creates the directory, and then its write fails on the way. -/
def tornTree : FaultyTree :=
  ⟨.ofDirectory [], [none, none, some (.torn (some "half".toUTF8) .invalidArgument)]⟩

theorem lockstep_of_torn_write :
    ∃ r₁ t₁ r₂ t₂,
      Journal.load FaultyTree.disk ⟨⟨"d/j"⟩⟩ ⟨tornTree.tree, none :: tornTree.plan⟩ =
        (.ok .empty, tornTree) ∧
      [Change.create blank].mapM (journaled FaultyTree.disk ⟨⟨"d/j"⟩⟩).change .empty tornTree =
        (([.error (.journal (.access ⟨"d/j"⟩ .invalidArgument))], r₁), t₁) ∧
      (journaled FaultyTree.disk ⟨⟨"d/j"⟩⟩).change (.create blank) r₁ t₁ = ((.ok (), r₂), t₂) ∧
      Answered ⟨⟨"d/j"⟩⟩ (.create blank) r₁ t₁.tree r₂ t₂.tree (.ok ()) ∧
      (Journal.loaded ⟨⟨"d/j"⟩⟩ t₂.tree = .ok r₂ ∨
        (Journal.Stranded ⟨⟨"d/j"⟩⟩ tornTree.tree t₂.tree ∧ r₂ = .empty)) := by
  have hname : (Path.mk "d/j").fileName? = some "j" := by decide
  have hload : Journal.loaded ⟨⟨"d/j"⟩⟩ tornTree.tree = .ok .empty :=
    (Journal.loaded_eq_ok_iff hname).2 (.inr ⟨by decide, rfl⟩)
  have hopen : Journal.load FaultyTree.disk ⟨⟨"d/j"⟩⟩ ⟨tornTree.tree, none :: tornTree.plan⟩ =
      (.ok .empty, tornTree) := by
    rw [Journal.load_of_no_fault hname rfl]
    exact Prod.ext hload rfl
  have hfailed : ([Change.create blank].mapM (journaled FaultyTree.disk ⟨⟨"d/j"⟩⟩).change .empty
      tornTree).1.1 = [.error (.journal (.access ⟨"d/j"⟩ .invalidArgument))] := by
    decide +kernel
  have hstored : ((journaled FaultyTree.disk ⟨⟨"d/j"⟩⟩).change (.create blank)
      ([Change.create blank].mapM (journaled FaultyTree.disk ⟨⟨"d/j"⟩⟩).change .empty
        tornTree).1.2
      ([Change.create blank].mapM (journaled FaultyTree.disk ⟨⟨"d/j"⟩⟩).change .empty
        tornTree).2).1.1 = .ok () := by
    decide +kernel
  obtain ⟨answers, r₁, t₁, hrun⟩ := exists_outcome ([Change.create blank].mapM
    (journaled FaultyTree.disk ⟨⟨"d/j"⟩⟩).change .empty tornTree)
  obtain ⟨answer, r₂, t₂, hnext⟩ := exists_outcome
    ((journaled FaultyTree.disk ⟨⟨"d/j"⟩⟩).change (.create blank) r₁ t₁)
  rw [hrun] at hfailed hstored
  rw [hnext] at hstored
  cases hfailed
  cases hstored
  have hlockstep := lockstep_of_changes (by decide) (FileTree.sound_ofDirectory []) hopen hrun hnext
  exact ⟨r₁, t₁, r₂, t₂, hopen, hrun, hnext, hlockstep⟩

/-! ## A journal that is stranded -/

open Journal (inside letters fileName?_inside directory_inside up_not_mem_inside)

section Stranded

variable {name : String} (hslash : '/' ∉ name.toList)
  (hlong : FileTree.nameLimit < name.utf8ByteSize)
include hslash hlong

theorem load_inside : (inside name).load FaultyTree.disk ⟨.ofDirectory [], []⟩ =
    (.ok .empty, ⟨.ofDirectory [], []⟩) := by
  have hname := fileName?_inside hslash hlong
  rw [Journal.load_of_no_fault hname rfl]
  refine Prod.ext ((Journal.loaded_eq_ok_iff hname).2 (.inr ⟨?_, rfl⟩)) rfl
  rw [directory_inside hslash hlong]
  decide

/-- The store of the first target creates the directory and nothing in it. -/
theorem loaded_inside {t₁ : FaultyTree} {r₁ : Registry} {answer : Except EngineError Unit}
    (h : (journaled FaultyTree.disk (inside name)).change (.create blank) .empty
      ⟨.ofDirectory [], []⟩ = ((answer, r₁), t₁)) :
    ∃ e, (inside name).loaded t₁.tree = .error (.access (inside name).path e) := by
  have hname := fileName?_inside hslash hlong
  have hn : ¬ Usable name := fun hn => absurd hn.2 (Nat.not_le.2 hlong)
  have happly : Registry.empty.apply (.create blank) =
      .ok ⟨Table.empty.insert "t" blank, .empty⟩ := by
    decide
  have hl : (FaultyTree.disk.createDirectories (inside name).directory
      ⟨.ofDirectory [], []⟩).2.tree.directory (inside name).directory = .ok ["d"] := by
    rw [directory_inside hslash hlong]
    decide +kernel
  generalize hu : t₁.tree = u
  cases hu ▸ change_ends FaultyTree.actsOn hname h with
  | rejected e he => cases happly.symm.trans he
  | unsaved next e _ _ hleft =>
    exact Journal.loaded_of_not_usable hname (hleft.directory_iff.2 hl) hn
  | saved _ _ _ hstored =>
    obtain ⟨_, -, hn', -⟩ := hstored.directory
    exact absurd hn' hn

end Stranded

/-- After a change the journal `d/aaa…` is not loaded as the registry any more. -/
theorem loaded_ne_registry_of_long_name :
    Path.Component.up ∉ (inside (letters 256)).path.components ∧ (FileTree.ofDirectory []).Sound ∧
      (inside (letters 256)).load FaultyTree.disk ⟨.ofDirectory [], []⟩ =
        (.ok .empty, ⟨.ofDirectory [], []⟩) ∧
      ∃ answer r t, (journaled FaultyTree.disk (inside (letters 256))).change (.create blank) .empty
          ⟨.ofDirectory [], []⟩ = ((answer, r), t) ∧
        (inside (letters 256)).loaded t.tree ≠ .ok r := by
  have hslash := Journal.slash_not_mem_letters 256
  have hlong : FileTree.nameLimit < (letters 256).utf8ByteSize := by
    rw [Journal.utf8ByteSize_letters]
    decide
  generalize letters 256 = name at hslash hlong ⊢
  obtain ⟨answer, r, t, hchange⟩ := exists_outcome ((journaled FaultyTree.disk (inside name)).change
    (.create blank) .empty ⟨.ofDirectory [], []⟩)
  obtain ⟨e, he⟩ := loaded_inside hslash hlong hchange
  refine ⟨up_not_mem_inside hslash hlong, FileTree.sound_ofDirectory [],
    load_inside hslash hlong, answer, r, t, hchange, fun h => ?_⟩
  cases he.symm.trans h

end Engine

end BlockShell
