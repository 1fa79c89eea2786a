import BlockShell.Proofs.Disk.ActsOn

/-!
# What file operations do

Each operation on a file succeeds only if its directory can be reached and its name can be used, and
then sets the file's location and nothing else.  As long as a location is no directory, what it
holds does not matter for where paths lead (`directory_set_iff`).
-/

namespace BlockShell.FileTree

variable {t u : FileTree} {d : Path} {name : String} {k l : Location}

/-- A name that a file can have. -/
def Usable (name : String) : Prop := '\x00' ∉ name.toList ∧ name.utf8ByteSize ≤ nameLimit

/-! ## Trees with the same files -/

namespace SameFiles

theorem isDirectory (h : t.SameFiles u) (l : Location) : t.isDirectory l = u.isDirectory l := by
  unfold FileTree.isDirectory
  rw [h.node]

theorem directory (h : t.SameFiles u) (p : Path) : t.directory p = u.directory p := by
  obtain ⟨node, current, opened⟩ := t
  obtain ⟨node', current', opened'⟩ := u
  obtain ⟨hnode, hcurrent⟩ := h
  cases hnode
  cases hcurrent
  rfl

theorem locate (h : t.SameFiles u) (p : Path) : t.locate p = u.locate p := by
  obtain ⟨node, current, opened⟩ := t
  obtain ⟨node', current', opened'⟩ := u
  obtain ⟨hnode, hcurrent⟩ := h
  cases hnode
  cases hcurrent
  rfl

theorem trans {v : FileTree} (h : t.SameFiles u) (huv : u.SameFiles v) : t.SameFiles v :=
  ⟨h.node.trans huv.node, h.current.trans huv.current⟩

theorem set (h : t.SameFiles u) (l : Location) (node : Option Node) :
    (t.set l node).SameFiles (u.set l node) := by
  refine ⟨?_, h.current⟩
  unfold FileTree.set
  rw [h.node]

end SameFiles

theorem sameFiles_notify (t : FileTree) (change : OpenNode → OpenNode) :
    (t.notify change).SameFiles t := ⟨rfl, rfl⟩

theorem isOk_locate_of_directory {p : Path} (h : t.directory p = .ok l) :
    (t.locate p).isOk = true := by
  obtain ⟨k, hk, -⟩ := bind_eq_ok_iff.1 h
  rw [hk]
  rfl

/-! ## Setting a location -/

theorem node?_set_self (t : FileTree) (l : Location) (node : Option Node) :
    (t.set l node).node? l = node := if_pos rfl

theorem node?_set_of_ne (t : FileTree) (node : Option Node) (h : k ≠ l) :
    (t.set l node).node? k = t.node? k := if_neg h

theorem sameFiles_set_set (t : FileTree) (l : Location) (node node' : Option Node) :
    ((t.set l node).set l node').SameFiles (t.set l node') := by
  refine ⟨funext fun k => ?_, rfl⟩
  by_cases hk : k = l
  · subst hk
    rw [node?_set_self, node?_set_self]
  · rw [node?_set_of_ne _ _ hk, node?_set_of_ne _ _ hk, node?_set_of_ne _ _ hk]

theorem isDirectory_set {node : Option Node} (hl : t.isDirectory l = false)
    (hnode : node ≠ some .directory) (k : Location) :
    (t.set l node).isDirectory k = t.isDirectory k := by
  by_cases hk : k = l
  · subst hk
    rw [hl, Bool.eq_false_iff]
    intro h
    rw [isDirectory_iff, node?_set_self] at h
    exact hnode h
  · unfold isDirectory
    rw [node?_set_of_ne t node hk]

theorem directory_iff_of_isDirectory (h : ∀ l, u.isDirectory l = t.isDirectory l)
    (hc : u.current = t.current) : u.directory d = .ok l ↔ t.directory d = .ok l := by
  rw [directory_eq_ok_iff, directory_eq_ok_iff, start_congr hc, goalOf_congr hc]
  simp only [h]

theorem directory_set_iff {node : Option Node} (hl : t.isDirectory l = false)
    (hnode : node ≠ some .directory) : (t.set l node).directory d = .ok k ↔ t.directory d = .ok k :=
  directory_iff_of_isDirectory (isDirectory_set hl hnode) rfl

/-- A file in a directory may be written or removed. -/
theorem Sound.of_set_in (h : t.Sound) {node : Option Node} (hd : t.directory d = .ok l)
    (hl : t.isDirectory (name :: l) = false) :
    (t.set (name :: l) node).Sound := by
  refine h.of_set (fun _ _ he => ?_) (fun hdir => ?_) rfl
  · cases he
    exact isDirectory_of_directory hd
  · rw [hl] at hdir
    cases hdir

/-! ## Operations -/

theorem place_eq_ok_iff : t.place d name = .ok k ↔
    ∃ l, t.directory d = .ok l ∧ Usable name ∧ k = name :: l := by
  unfold place
  rw [bind_eq_ok_iff]
  refine exists_congr fun l => and_congr_right fun _ => ?_
  constructor
  · intro h
    by_cases hnul : '\x00' ∈ name.toList
    · rw [if_pos hnul] at h
      cases h
    by_cases hlen : nameLimit < name.utf8ByteSize
    · rw [if_neg hnul, if_pos hlen] at h
      cases h
    rw [if_neg hnul, if_neg hlen] at h
    cases h
    exact ⟨⟨hnul, Nat.not_lt.1 hlen⟩, rfl⟩
  · rintro ⟨⟨hnul, hlen⟩, rfl⟩
    rw [if_neg hnul, if_neg (Nat.not_lt.2 hlen)]
    rfl

theorem place_of_directory (hd : t.directory d = .ok l) (hn : Usable name) :
    t.place d name = .ok (name :: l) :=
  place_eq_ok_iff.2 ⟨l, hd, hn, rfl⟩

theorem place_of_not_usable (hd : t.directory d = .ok l) (hn : ¬ Usable name) :
    ∃ e, t.place d name = .error e ∧ e ≠ .notFound := by
  unfold place
  rw [hd]
  by_cases hnul : '\x00' ∈ name.toList
  · refine ⟨.invalidArgument, ?_, by decide⟩
    simp only [bind, Except.bind, if_pos hnul]
    rfl
  · have hlen : nameLimit < name.utf8ByteSize := Nat.not_le.1 fun hle => hn ⟨hnul, hle⟩
    refine ⟨.nameTooLong, ?_, by decide⟩
    simp only [bind, Except.bind, if_neg hnul, if_pos hlen]
    rfl

theorem readFile_eq_ok_iff {content : ByteArray} : t.readFile d name = .ok content ↔
    ∃ l, t.directory d = .ok l ∧ Usable name ∧ t.node? (name :: l) = some (.file content) := by
  unfold readFile
  rw [bind_eq_ok_iff]
  simp only [place_eq_ok_iff]
  constructor
  · rintro ⟨_, ⟨l, hd, hn, rfl⟩, h⟩
    refine ⟨l, hd, hn, ?_⟩
    split at h
    · cases h
    · cases h
    · next hnode =>
      cases h
      exact hnode
  · rintro ⟨l, hd, hn, hnode⟩
    refine ⟨_, ⟨l, hd, hn, rfl⟩, ?_⟩
    rw [hnode]
    rfl

/-- What is read depends on where the directory is and on what is there under the name. -/
theorem readFile_congr (ht : t.directory d = .ok l) (hu : u.directory d = .ok l)
    (hnode : u.node? (name :: l) = t.node? (name :: l)) : u.readFile d name = t.readFile d name := by
  have hplace : u.place d name = t.place d name := by
    unfold place
    rw [ht, hu]
  unfold readFile
  rw [hplace]
  cases hk : t.place d name with
  | error e => rfl
  | ok k =>
    obtain ⟨l', hl', -, rfl⟩ := place_eq_ok_iff.1 hk
    cases ht.symm.trans hl'
    simp only [bind, Except.bind, hnode]

theorem writeFile_spec {content : ByteArray} (h : t.writeFile d name content = .ok u) :
    ∃ l, t.directory d = .ok l ∧ Usable name ∧ t.isDirectory (name :: l) = false ∧
      u.SameFiles (t.set (name :: l) (some (.file content))) := by
  unfold writeFile at h
  obtain ⟨_, hplace, h⟩ := bind_eq_ok_iff.1 h
  obtain ⟨l, hd, hn, rfl⟩ := place_eq_ok_iff.1 hplace
  split at h
  · cases h
  · next hdir =>
    cases h
    exact ⟨l, hd, hn, Bool.eq_false_iff.2 hdir, sameFiles_notify _ _⟩

theorem rename_spec {newName : String} (h : t.rename d name newName = .ok u) :
    ∃ l content, t.directory d = .ok l ∧ Usable newName ∧
      t.node? (name :: l) = some (.file content) ∧ t.isDirectory (newName :: l) = false ∧
      u.SameFiles ((t.set (name :: l) none).set (newName :: l) (some (.file content))) := by
  unfold rename at h
  obtain ⟨content, hread, h⟩ := bind_eq_ok_iff.1 h
  obtain ⟨source, hsource, h⟩ := bind_eq_ok_iff.1 h
  obtain ⟨target, htarget, h⟩ := bind_eq_ok_iff.1 h
  obtain ⟨l, hd, -, hnode⟩ := readFile_eq_ok_iff.1 hread
  obtain ⟨l', hd', -, rfl⟩ := place_eq_ok_iff.1 hsource
  cases hd.symm.trans hd'
  obtain ⟨l', hd', hn, rfl⟩ := place_eq_ok_iff.1 htarget
  cases hd.symm.trans hd'
  split at h
  · cases h
  · next hdir =>
    cases h
    exact ⟨l, content, hd, hn, hnode, Bool.eq_false_iff.2 hdir, sameFiles_notify _ _⟩

theorem removeFile_spec (h : t.removeFile d name = .ok u) :
    ∃ l, t.directory d = .ok l ∧ t.isDirectory (name :: l) = false ∧
      u.SameFiles (t.set (name :: l) none) := by
  unfold removeFile at h
  obtain ⟨⟨⟩, hread, h⟩ := bind_eq_ok_iff.1 h
  obtain ⟨content, hread, -⟩ := map_eq_ok_iff.1 hread
  obtain ⟨_, hplace, h⟩ := bind_eq_ok_iff.1 h
  obtain ⟨l, hd, -, hnode⟩ := readFile_eq_ok_iff.1 hread
  obtain ⟨l', hd', -, rfl⟩ := place_eq_ok_iff.1 hplace
  cases hd.symm.trans hd'
  cases h
  refine ⟨l, hd, ?_, sameFiles_notify _ _⟩
  unfold isDirectory
  rw [hnode]

end BlockShell.FileTree
