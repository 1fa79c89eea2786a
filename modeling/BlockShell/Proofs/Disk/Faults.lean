import BlockShell.Proofs.Disk.ActsOn

/-!
# A disk with faults

A faulty tree is a file tree together with what will happen to the coming operations: each of them is
carried out, is refused, or, if it is a write, fails on the way.  Every order of faults can be
planned, so what holds of this disk holds however operations fail.
-/

namespace BlockShell

/-- How an operation may fail. -/
inductive Fault where
  /-- The operation fails and changes nothing. -/
  | refused (cause : FileError)
  /-- A write fails and leaves some content in its file, or no file. -/
  | torn (left : Option ByteArray) (cause : FileError)

/-- The reason that is given for the failure. -/
def Fault.cause : Fault → FileError
  | refused cause => cause
  | torn _ cause => cause

/-- A file tree with failures to come. -/
structure FaultyTree where
  tree : FileTree
  /-- What happens to the operations to come; those after them are carried out. -/
  plan : List (Option Fault)

namespace FaultyTree

open FileTree (SameFiles)

/-- The fault that meets the next operation, if one does. -/
def fault? (t : FaultyTree) : Option Fault := t.plan.head?.join

/-- The same plan after one more operation, which has left `tree`. -/
def advance (t : FaultyTree) (tree : FileTree) : FaultyTree := ⟨tree, t.plan.tail⟩

/-- An operation that changes the tree if it succeeds. -/
def update (f : FileTree → Except FileError FileTree) :
    StateM FaultyTree (Except FileError Unit) := fun t =>
  match t.fault? with
  | some fault => (.error fault.cause, t.advance t.tree)
  | none => ((FileTree.update f t.tree).1, t.advance (FileTree.update f t.tree).2)

/-- The tree after a write that has failed on the way. -/
def tear (t : FileTree) (directory : Path) (name : String) (left : Option ByteArray) : FileTree :=
  match t.place directory name with
  | .ok l => if t.isDirectory l then t else t.set l (left.map .file)
  | .error _ => t

/-- A write, which may fail on the way. -/
def write (directory : Path) (name : String) (content : ByteArray) :
    StateM FaultyTree (Except FileError Unit) := fun t =>
  match t.fault? with
  | some (.torn left cause) => (.error cause, t.advance (tear t.tree directory name left))
  | _ => update (·.writeFile directory name content) t

/-- Only what a store does may fail; reading is carried out. -/
def disk : Disk (StateM FaultyTree) where
  createDirectory p := update (·.createDirectory p)
  openDirectory p := fun t => match t.fault? with
    | some fault => (.error fault.cause, t.advance t.tree)
    | none => ((t.tree.directory p).map fun _ => (), t.advance t.tree)
  pathExists p := fun t => ((t.tree.locate p).isOk, t)
  readFile directory name := fun t => (t.tree.readFile directory name, t)
  openFile directory name := fun t => match t.tree.openNode directory name with
    | .ok u =>
      (.ok fun position u => (u.tree.block t.tree.opened.length position, u), { t with tree := u })
    | .error e => (.error e, t)
  writeFile := write
  rename directory name newName := update (·.rename directory name newName)
  removeFile directory name := update (·.removeFile directory name)

theorem attempt_update (f : FileTree → Except FileError FileTree) (t : FaultyTree) :
    Disk.Attempt f t.tree (update f t).2.tree (update f t).1 := by
  unfold update
  split
  · exact .refl t.tree
  · exact Disk.attempt_update f t.tree

theorem torn_tear (t : FileTree) (directory : Path) (name : String) (left : Option ByteArray) :
    (tear t directory name left).SameFiles t ∨
      ∀ cause, Disk.Torn directory name t (tear t directory name left) (.error cause) := by
  unfold tear
  split
  · next l hl =>
    by_cases hdir : t.isDirectory l = true
    · rw [if_pos hdir]
      exact .inl (.refl t)
    · rw [if_neg hdir]
      refine .inr fun _ => ⟨l, left.map .file, hl, Bool.eq_false_iff.2 hdir, ?_, .refl _⟩
      cases left <;> simp
  · exact .inl (.refl t)

theorem actsOn : disk.ActsOn FaultyTree.tree where
  createDirectory p := attempt_update _
  openDirectory p t := by
    show SameFiles (disk.openDirectory p t).2.tree t.tree ∧ _
    unfold disk
    dsimp only
    split
    · exact ⟨.refl _, nofun⟩
    · refine ⟨.refl _, fun h => ?_⟩
      obtain ⟨l, hl, -⟩ := map_eq_ok_iff.1 h
      exact ⟨l, hl⟩
  writeFile directory name content t := by
    show Disk.Attempt _ t.tree (write directory name content t).2.tree _ ∨ _
    unfold disk
    dsimp only
    unfold write
    split
    · next left cause _ =>
      rcases torn_tear t.tree directory name left with hsame | htorn
      · exact .inl hsame
      · exact .inr (htorn cause)
    · exact .inl (attempt_update _ t)
  rename directory name newName := attempt_update _
  removeFile directory name := attempt_update _

end FaultyTree

end BlockShell
