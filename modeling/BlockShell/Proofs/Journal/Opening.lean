import BlockShell.Proofs.Disk.Faults
import BlockShell.Proofs.Journal.Load

/-!
# Opening a journal in spite of faults

Over a faulty tree, loading either gives what the tree holds or fails (`loaded_of_load`): a refused
operation does not make another registry of it.
-/

namespace BlockShell.Journal

variable {j : Journal} {name : String} {r : Registry} {t t' : FaultyTree}

theorem load_of_fault {fault : Fault} (hname : j.path.fileName? = some name)
    (h : t.fault? = some fault) :
    j.load FaultyTree.disk t =
      (if (t.tree.locate j.directory).isOk then .error (.access j.directory fault.cause)
        else .ok .empty, t.advance t.tree) := by
  have hopen : FaultyTree.disk.openDirectory j.directory t =
      (.error fault.cause, t.advance t.tree) := by
    unfold FaultyTree.disk
    dsimp only
    rw [h]
  have hexists : FaultyTree.disk.pathExists j.directory (t.advance t.tree) =
      ((t.tree.locate j.directory).isOk, t.advance t.tree) := rfl
  rw [load_apply _ hname, hopen]
  dsimp only
  rw [hexists]
  cases (t.tree.locate j.directory).isOk <;> rfl

theorem load_of_no_fault (hname : j.path.fileName? = some name) (h : t.fault? = none) :
    j.load FaultyTree.disk t = (j.loaded t.tree, t.advance t.tree) := by
  have hopen : FaultyTree.disk.openDirectory j.directory t =
      ((t.tree.directory j.directory).map fun _ => (), t.advance t.tree) := by
    unfold FaultyTree.disk
    dsimp only
    rw [h]
  have hexists : FaultyTree.disk.pathExists j.directory (t.advance t.tree) =
      ((t.tree.locate j.directory).isOk, t.advance t.tree) := rfl
  have hread : FaultyTree.disk.readFile j.directory name (t.advance t.tree) =
      (t.tree.readFile j.directory name, t.advance t.tree) := rfl
  unfold loaded
  rw [load_apply _ hname, load_fileTree hname, hopen]
  cases t.tree.directory j.directory with
  | ok l =>
    dsimp only [Except.map]
    rw [hread]
    cases t.tree.readFile j.directory name with
    | ok content => rfl
    | error e => cases e <;> rfl
  | error e =>
    dsimp only [Except.map]
    rw [hexists]
    cases (t.tree.locate j.directory).isOk <;> rfl

/-- A fault may keep a journal from being loaded, but not change what is loaded. -/
theorem loaded_of_load (h : j.load FaultyTree.disk t = (.ok r, t')) :
    j.loaded t.tree = .ok r ∧ t'.tree = t.tree := by
  cases hname : j.path.fileName? with
  | none =>
    unfold load openParent at h
    rw [hname] at h
    cases h
  | some name =>
    cases hfault : t.fault? with
    | none =>
      rw [load_of_no_fault hname hfault] at h
      obtain ⟨hload, rfl⟩ := Prod.mk.inj h
      exact ⟨hload, rfl⟩
    | some fault =>
      rw [load_of_fault hname hfault] at h
      obtain ⟨hempty, rfl⟩ := Prod.mk.inj h
      split at hempty
      · cases hempty
      · next hlocate =>
        cases hempty
        exact ⟨(loaded_eq_ok_iff hname).2 (.inr ⟨Bool.eq_false_iff.2 hlocate, rfl⟩), rfl⟩

end BlockShell.Journal
