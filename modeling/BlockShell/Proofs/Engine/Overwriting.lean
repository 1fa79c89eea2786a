import BlockShell.Proofs.Engine.Lockstep

/-!
# What the first store overwrites

An engine is opened, its first changes fail, and then one is stored and overwrites a file with a
registry.  If the directory of the journal could be reached when the engine was opened, that registry
is the one that was loaded; otherwise it is lost (`loaded_eq_overwritten_iff`).  For a path without
`..` it is never lost.  But `x/../j` leads to a file `j` as soon as the store has created `x`.
-/

namespace BlockShell

open FileTree (Usable Grown SameFiles steps)
open Disk (Fresh)

namespace Journal

variable {j : Journal} {name : String} {t g u v : FileTree} {content : ByteArray}

/-- The journal leads to the same location, and to the same file, if it leads to one. -/
structure SameFile (j : Journal) (name : String) (t u : FileTree) : Prop where
  current : u.current = t.current
  file (content : ByteArray) : u.node? (j.location t name) = some (.file content) ↔
    t.node? (j.location t name) = some (.file content)

namespace SameFile

theorem refl (j : Journal) (name : String) (t : FileTree) : j.SameFile name t t :=
  ⟨rfl, fun _ => .rfl⟩

theorem location (h : j.SameFile name t u) : j.location u name = j.location t name := by
  unfold Journal.location
  rw [FileTree.goalOf_congr h.current]

theorem trans (h : j.SameFile name t u) (huv : j.SameFile name u v) : j.SameFile name t v := by
  refine ⟨huv.current.trans h.current, fun content => ?_⟩
  rw [← h.file, ← h.location]
  exact huv.file content

theorem of_grown {fresh : Location → Prop} (h : Grown fresh t u) : j.SameFile name t u :=
  ⟨h.current, fun _ => h.file_iff⟩

theorem of_unfinished (h : j.Unfinished name t u) : j.SameFile name t u := by
  refine ⟨h.current, fun content => ?_⟩
  unfold Journal.location
  rw [h.node?_eq]

end SameFile

end Journal

namespace Engine

variable {j : Journal} {name : String} {t t₀ t₁ t₂ : FaultyTree} {r₀ r₁ r₂ : Registry}
  {changes : List Change} {c : Change} {answers : List (Except EngineError Unit)}
  {answer : Except EngineError Unit}

/-- A change that fails leaves the journal's file. -/
theorem sameFile_of_failed (hname : j.path.fileName? = some name) (ht : t₁.tree.Sound)
    (h : (journaled FaultyTree.disk j).change c r₁ t₁ = ((answer, r₂), t₂))
    (hfailed : answer.isOk = false) : t₂.tree.Sound ∧ j.SameFile name t₁.tree t₂.tree := by
  obtain ⟨hgrown, hsound⟩ := Disk.createDirectories_grown FaultyTree.actsOn j.directory ht
  generalize hu : t₂.tree = u
  cases hu ▸ change_ends FaultyTree.actsOn hname h with
  | rejected e _ => exact ⟨ht, .refl ..⟩
  | unsaved next e _ _ hleft =>
    exact ⟨hleft.sound hsound, (Journal.SameFile.of_grown hgrown).trans (.of_unfinished hleft)⟩
  | saved => cases hfailed

theorem sameFile_of_run (hname : j.path.fileName? = some name) (ht : t₀.tree.Sound)
    (hrun : changes.mapM (journaled FaultyTree.disk j).change r₀ t₀ = ((answers, r₁), t₁))
    (hfailed : ∀ a ∈ answers, a.isOk = false) :
    t₁.tree.Sound ∧ j.SameFile name t₀.tree t₁.tree := by
  refine run_induction (P := fun _ s => s.tree.Sound ∧ j.SameFile name t₀.tree s.tree)
    (Q := fun a => a.isOk = false) (fun h hfailed ⟨hs, hsame⟩ => ?_) hrun hfailed ⟨ht, .refl ..⟩
  obtain ⟨hsound, hsame'⟩ := sameFile_of_failed hname hs h hfailed
  exact ⟨hsound, hsame.trans hsame'⟩

/-- A change that is stored replaces the file at the journal's location. -/
theorem place_of_stored (hname : j.path.fileName? = some name) (ht : t₁.tree.Sound)
    (h : (journaled FaultyTree.disk j).change c r₁ t₁ = ((.ok (), r₂), t₂)) {l : Location}
    (hl : t₂.tree.place j.directory name = .ok l) :
    l = j.location t₁.tree name ∧ Usable name ∧ FileTree.checkPath j.directory = .ok () ∧
      FileTree.Short (steps j.directory) := by
  obtain ⟨hgrown, -⟩ := Disk.createDirectories_grown FaultyTree.actsOn j.directory ht
  obtain ⟨k, hk, hn, rfl⟩ := FileTree.place_eq_ok_iff.1 hl
  obtain ⟨hcheck, -, hshort, -⟩ := FileTree.directory_eq_ok_iff.1 hk
  refine ⟨?_, hn, hcheck, hshort⟩
  generalize hu : t₂.tree = u at hk
  cases hu ▸ change_ends FaultyTree.actsOn hname h with
  | saved _ _ _ hstored =>
    rw [Journal.location_of_directory hk, Journal.location, Journal.location,
      FileTree.goalOf_congr (hstored.current.trans hgrown.current)]

/-- The registry that the first store overwrites was loaded, if the directory was there. -/
theorem loaded_eq_overwritten_iff (ht : t.tree.Sound)
    (hopen : j.load FaultyTree.disk t = (.ok r₀, t₀))
    (hrun : changes.mapM (journaled FaultyTree.disk j).change r₀ t₀ = ((answers, r₁), t₁))
    (hfailed : ∀ a ∈ answers, a.isOk = false)
    (hstored : (journaled FaultyTree.disk j).change c r₁ t₁ = ((.ok (), r₂), t₂))
    (hname : j.path.fileName? = some name) {l : Location} {content : ByteArray} {r : Registry}
    (hl : t₂.tree.place j.directory name = .ok l)
    (hfile : t₁.tree.node? l = some (.file content)) (hdecode : j.decode content = .ok r) :
    (r₀ = r ↔ (t.tree.directory j.directory).isOk = true ∨ r = .empty) ∧
      (Path.Component.up ∉ j.path.components → r₀ = r) := by
  obtain ⟨hload, htree⟩ := Journal.loaded_of_load hopen
  obtain ⟨hsound, hsame⟩ := sameFile_of_run hname (htree ▸ ht) hrun hfailed
  rw [htree] at hsame
  obtain ⟨rfl, hn, hcheck, hshort⟩ := place_of_stored hname hsound hstored hl
  rw [hsame.location, hsame.file] at hfile
  have hthere {k : Location} (hk : t.tree.directory j.directory = .ok k) : r₀ = r := by
    rw [Journal.loaded_of_directory hname hk hn, Journal.location_of_directory hk, hfile] at hload
    exact Except.ok.inj (hload.symm.trans hdecode)
  refine ⟨?_, fun hup => ?_⟩
  · cases hk : t.tree.directory j.directory with
    | ok k => exact ⟨fun _ => .inl rfl, fun _ => hthere hk⟩
    | error e =>
      rcases (Journal.loaded_eq_ok_iff hname).1 hload with ⟨k, hk', -⟩ | ⟨-, rfl⟩
      · cases hk.symm.trans hk'
      · exact ⟨fun hr => .inr hr.symm, fun h => (h.resolve_left nofun).symm⟩
  · -- A file stands in a directory, and without `..` that is where the path leads.
    refine hthere ((ht.directory_eq_ok_iff (Journal.up_not_mem_directory hup)).2
      ⟨hcheck, hshort, rfl, ht name _ ?_⟩)
    show (t.tree.node? (j.location t.tree name)).isSome = true
    rw [hfile]
    rfl

/-- The registry with a single target. -/
def saved : Registry := ⟨Table.empty.insert "t" blank, .empty⟩

/-- A file `j` with a registry and nothing else. -/
def savedTree : FileTree :=
  (FileTree.ofDirectory []).set ["j"] (some (.file saved.text.toUTF8))

theorem sound_savedTree : savedTree.Sound :=
  (FileTree.sound_ofDirectory []).of_set_in (d := ⟨"."⟩) (l := []) rfl rfl

theorem load_savedTree (plan : List (Option Fault)) :
    Journal.load FaultyTree.disk ⟨⟨"j"⟩⟩ ⟨savedTree, none :: plan⟩ = (.ok saved, ⟨savedTree, plan⟩) := by
  have hname : (Path.mk "j").fileName? = some "j" := by decide
  have hn : Usable "j" := by
    unfold Usable
    decide
  have hl : savedTree.directory (Journal.directory ⟨⟨"j"⟩⟩) = .ok [] := rfl
  have hnode : savedTree.node? ["j"] = some (.file saved.text.toUTF8) := rfl
  have hloaded : Journal.loaded ⟨⟨"j"⟩⟩ savedTree = .ok saved := by
    rw [Journal.loaded_of_directory hname hl hn, hnode]
    exact Journal.decode_text _ saved
  rw [Journal.load_of_no_fault hname rfl]
  show (Journal.loaded ⟨⟨"j"⟩⟩ savedTree, (⟨savedTree, plan⟩ : FaultyTree)) = _
  rw [hloaded]

/-- What is planned after `j` has been opened: the first write fails on the way. -/
def tornWrite : List (Option Fault) := [none, none, none, some (.torn none .invalidArgument)]

/-- A change that is not stored, and then the same one stored. -/
def tornRun : (List (Except EngineError Unit) × Registry) × FaultyTree :=
  [Change.destroy "t"].mapM (journaled FaultyTree.disk ⟨⟨"j"⟩⟩).change saved ⟨savedTree, tornWrite⟩

/-- The second of these changes. -/
def storedRun : (Except EngineError Unit × Registry) × FaultyTree :=
  (journaled FaultyTree.disk ⟨⟨"j"⟩⟩).change (.destroy "t") tornRun.1.2 tornRun.2

theorem loaded_eq_overwritten_of_torn_write :
    ∃ r₀, Journal.load FaultyTree.disk ⟨⟨"j"⟩⟩ ⟨savedTree, none :: tornWrite⟩ =
        (.ok r₀, ⟨savedTree, tornWrite⟩) ∧
      tornRun.1.1 = [.error (.journal (.access ⟨"j"⟩ .invalidArgument))] ∧
      storedRun.1.1 = .ok () ∧ storedRun.2.tree.place ⟨"."⟩ "j" = .ok ["j"] ∧
      tornRun.2.tree.node? ["j"] = some (.file saved.text.toUTF8) ∧ r₀ = saved := by
  have hname : (Path.mk "j").fileName? = some "j" := by decide
  have hfailed : tornRun.1.1 = [.error (.journal (.access ⟨"j"⟩ .invalidArgument))] := by
    decide +kernel
  have hstored : storedRun.1.1 = .ok () := by decide +kernel
  have hplace : storedRun.2.tree.place ⟨"."⟩ "j" = .ok ["j"] := by decide +kernel
  have hanswers : ∀ a ∈ tornRun.1.1, a.isOk = false := by
    rw [hfailed]
    decide
  have hrun : [Change.destroy "t"].mapM (journaled FaultyTree.disk ⟨⟨"j"⟩⟩).change saved
      ⟨savedTree, tornWrite⟩ = ((tornRun.1.1, tornRun.1.2), tornRun.2) := rfl
  have hnext : (journaled FaultyTree.disk ⟨⟨"j"⟩⟩).change (.destroy "t") tornRun.1.2 tornRun.2 =
      ((.ok (), storedRun.1.2), storedRun.2) := Prod.ext (Prod.ext hstored rfl) rfl
  have hfile : tornRun.2.tree.node? ["j"] = some (.file saved.text.toUTF8) :=
    ((sameFile_of_run hname sound_savedTree hrun hanswers).2.file _).2 rfl
  refine ⟨saved, load_savedTree tornWrite, hfailed, hstored, hplace, hfile, ?_⟩
  exact (loaded_eq_overwritten_iff sound_savedTree (load_savedTree tornWrite) hrun hanswers hnext
    hname hplace hfile (Journal.decode_text _ saved)).2 (by decide)

/-- Opened through a missing directory, a journal is empty, and its first store creates the
directory and overwrites the registry that was there. -/
theorem overwritten_of_missing_directory :
    ∃ t₀ r₂ t₂,
      Journal.load FaultyTree.disk ⟨⟨"x/../j"⟩⟩ ⟨savedTree, []⟩ = (.ok .empty, t₀) ∧
      (journaled FaultyTree.disk ⟨⟨"x/../j"⟩⟩).change (.create blank) .empty t₀ =
        ((.ok (), r₂), t₂) ∧
      t₂.tree.place (Journal.directory ⟨⟨"x/../j"⟩⟩) "j" = .ok ["j"] ∧
      t₀.tree.node? ["j"] = some (.file saved.text.toUTF8) ∧
      Journal.decode ⟨⟨"x/../j"⟩⟩ saved.text.toUTF8 = .ok saved ∧ saved ≠ .empty := by
  have hload : (Journal.load FaultyTree.disk ⟨⟨"x/../j"⟩⟩ ⟨savedTree, []⟩).1 = .ok .empty := by
    decide +kernel
  have hstored : ((journaled FaultyTree.disk ⟨⟨"x/../j"⟩⟩).change (.create blank) .empty
      ⟨savedTree, []⟩).1.1 = .ok () := by
    decide +kernel
  have hplace : ((journaled FaultyTree.disk ⟨⟨"x/../j"⟩⟩).change (.create blank) .empty
      ⟨savedTree, []⟩).2.tree.place (Journal.directory ⟨⟨"x/../j"⟩⟩) "j" = .ok ["j"] := by
    decide +kernel
  obtain ⟨answer, r₂, t₂, hchange⟩ := exists_outcome
    ((journaled FaultyTree.disk ⟨⟨"x/../j"⟩⟩).change (.create blank) .empty ⟨savedTree, []⟩)
  rw [hchange] at hstored hplace
  cases hstored
  exact ⟨⟨savedTree, []⟩, r₂, t₂, Prod.ext hload rfl, hchange, hplace, rfl,
    Journal.decode_text _ saved, by decide⟩

end Engine

end BlockShell
