import BlockShell.Proofs.Disk.Sound

/-!
# Disks whose operations may fail

A disk acts on file trees if each of its operations does what it does to a tree or fails
(`Disk.ActsOn`).  A failed operation leaves the tree as it was, but for a failed write, which may
leave anything in its file.  A directory created above a path makes the tree grow towards the path
(`grown_createDirectory`).
-/

namespace BlockShell

open FileTree (steps Sound Grown)

/-- Two trees that hold the same, whatever has been opened in them. -/
structure FileTree.SameFiles (t u : FileTree) : Prop where
  node : t.node? = u.node?
  current : t.current = u.current

theorem FileTree.SameFiles.refl (t : FileTree) : t.SameFiles t := ⟨rfl, rfl⟩

theorem FileTree.SameFiles.sound {t u : FileTree} (h : t.SameFiles u) (hu : u.Sound) : t.Sound := by
  intro name l hsome
  rw [h.node] at hsome
  rw [isDirectory_iff, h.node, ← isDirectory_iff]
  exact hu name l hsome

theorem FileTree.SameFiles.grown {fresh : Location → Prop} {t g u : FileTree} (h : u.SameFiles g)
    (hg : Grown fresh t g) : Grown fresh t u :=
  ⟨h.current.trans hg.current, fun l => by rw [h.node]; exact hg.node l⟩

namespace Disk

/-! ## What an operation does to a tree -/

/-- An operation with the answer `r` changed `t` into `u` as `f` does, or failed and changed
nothing. -/
def Attempt (f : FileTree → Except FileError FileTree) (t u : FileTree) :
    Except FileError Unit → Prop
  | .ok () => ∃ v, f t = .ok v ∧ u.SameFiles v
  | .error _ => u.SameFiles t

/-- A write that failed on the way and left something in its file, or nothing. -/
def Torn (directory : Path) (name : String) (t u : FileTree) : Except FileError Unit → Prop
  | .ok () => False
  | .error _ => ∃ l left, t.place directory name = .ok l ∧ t.isDirectory l = false ∧
      left ≠ some .directory ∧ u.SameFiles (t.set l left)

variable {σ : Type}

/-- Each operation of a disk whose states hold a tree is carried out on the tree or fails. -/
structure ActsOn (disk : Disk (StateM σ)) (tree : σ → FileTree) : Prop where
  createDirectory (p : Path) (s : σ) : Attempt (·.createDirectory p) (tree s)
    (tree (disk.createDirectory p s).2) (disk.createDirectory p s).1
  openDirectory (p : Path) (s : σ) : (tree (disk.openDirectory p s).2).SameFiles (tree s) ∧
    ((disk.openDirectory p s).1 = .ok () → ∃ l, (tree s).directory p = .ok l)
  writeFile (directory : Path) (name : String) (content : ByteArray) (s : σ) :
    Attempt (·.writeFile directory name content) (tree s)
        (tree (disk.writeFile directory name content s).2)
        (disk.writeFile directory name content s).1 ∨
      Torn directory name (tree s) (tree (disk.writeFile directory name content s).2)
        (disk.writeFile directory name content s).1
  rename (directory : Path) (name newName : String) (s : σ) :
    Attempt (·.rename directory name newName) (tree s)
      (tree (disk.rename directory name newName s).2) (disk.rename directory name newName s).1
  removeFile (directory : Path) (name : String) (s : σ) :
    Attempt (·.removeFile directory name) (tree s) (tree (disk.removeFile directory name s).2)
      (disk.removeFile directory name s).1

theorem attempt_update (f : FileTree → Except FileError FileTree) (t : FileTree) :
    Attempt f t (FileTree.update f t).2 (FileTree.update f t).1 := by
  unfold FileTree.update
  split
  · next u hu => exact ⟨u, hu, .refl u⟩
  · exact .refl t

/-- File trees act on themselves, and nothing fails without a reason in the tree. -/
theorem actsOn_fileTree : FileTree.disk.ActsOn id where
  createDirectory p := attempt_update _
  openDirectory p t := by
    refine ⟨.refl t, fun h => ?_⟩
    obtain ⟨l, hl, -⟩ := map_eq_ok_iff.1 h
    exact ⟨l, hl⟩
  writeFile directory name content t := .inl (attempt_update _ t)
  rename directory name newName := attempt_update _
  removeFile directory name := attempt_update _

theorem bind_apply {α β : Type} (x : StateM σ α) (f : α → StateM σ β) (s : σ) :
    (x >>= f) s = f (x s).1 (x s).2 := rfl

/-! ## Growing towards a path -/

/-- Where a directory may appear when those above a path are created. -/
def Fresh (t : FileTree) (p : Path) (l : Location) : Prop :=
  (t.directory p).isOk = false ∧ (".." ∉ steps p → l <:+ t.goalOf p)

theorem grown_createDirectory {t g u : FileTree} {p q : Path} (hg : Grown (Fresh t p) t g)
    (hq : q ∈ p.ancestors) (hu : g.createDirectory q = .ok u) : Grown (Fresh t p) t u := by
  obtain ⟨l, hl, rfl⟩ := map_eq_ok_iff.1 hu
  obtain ⟨hbare, rfl, hnone, -⟩ := FileTree.freeLocation_spec hl
  have habove : q = p ∨ q.IsAbove p := (Path.mem_ancestors hq).imp_right (·.resolve_left hbare)
  have hvisit := FileTree.goalOf_mem_visits (t := g) habove fun he => hbare (.inl he)
  refine hg.set_directory ⟨?_, fun hup => ?_⟩ hnone
  · cases hp : t.directory p with
    | error e => rfl
    | ok k =>
      obtain ⟨-, hall, -⟩ := FileTree.directory_eq_ok_iff.1 (hg.directory hp)
      have hdir := FileTree.isSome_of_isDirectory (hall _ hvisit)
      rw [hnone] at hdir
      cases hdir
  · rw [← hg.goalOf p]
    exact FileTree.suffix_of_mem_visits hup hvisit

theorem sound_createDirectory {t u : FileTree} {p : Path} (h : t.Sound)
    (hu : t.createDirectory p = .ok u) : u.Sound := by
  obtain ⟨l, hl, rfl⟩ := map_eq_ok_iff.1 hu
  obtain ⟨-, -, hnone, name, k, rfl, hk⟩ := FileTree.freeLocation_spec hl
  refine h.of_set (fun name' k' he => ?_) (fun _ => rfl) rfl
  cases he
  exact hk

end Disk

end BlockShell
