import BlockShell.Proofs.Disk.Files
import BlockShell.Proofs.Registry.Text

/-!
# What a journal holds

Over a file tree, loading a journal only looks at the journal's file (`loaded_eq_ok_iff`).  It gives
the empty registry if there is no file, or if the directory of the file cannot be reached, and what a
file with the text of a registry gives is that registry.
-/

namespace BlockShell.Journal

open FileTree (Usable)

/-- The registry that is loaded from a file tree. -/
def loaded (j : Journal) (t : FileTree) : Except JournalError Registry :=
  (j.load FileTree.disk t).1

/-- The content of the journal's file, if there is one. -/
def content? (j : Journal) (t : FileTree) : Option ByteArray :=
  j.path.fileName?.bind fun name => (t.readFile j.directory name).toOption

variable {j : Journal} {t : FileTree} {name : String} {l : Location} {r : Registry}

/-! ## Decoding -/

theorem fromUTF8?_toUTF8 (s : String) : String.fromUTF8? s.toUTF8 = some s :=
  dif_pos s.isValidUTF8

theorem fromUTF8?_eq_some_iff {content : ByteArray} {s : String} :
    String.fromUTF8? content = some s ↔ content = s.toUTF8 := by
  constructor
  · intro h
    unfold String.fromUTF8? at h
    split at h
    · cases h
      rfl
    · cases h
  · rintro rfl
    exact fromUTF8?_toUTF8 s

/-- What is malformed is a text that is not blank and writes no registry. -/
theorem decode_eq_malformed_iff {content : ByteArray} :
    j.decode content = .error (.malformed j.path) ↔
      ∃ text : String, content = text.toUTF8 ∧ Text.allBlank text = false ∧
        Registry.ofText? text = none := by
  constructor
  · intro h
    unfold decode at h
    split at h
    · cases h
    · next text htext =>
      split at h
      · cases h
      · next hblank =>
        split at h
        · next hnone =>
          exact ⟨text, fromUTF8?_eq_some_iff.1 htext, Bool.eq_false_iff.2 hblank, hnone⟩
        · cases h
  · rintro ⟨text, rfl, hblank, hnone⟩
    unfold decode
    rw [fromUTF8?_toUTF8]
    dsimp only
    rw [hblank, hnone]
    rfl

/-- A wording of a registry is decoded as the registry, unless it is damaged. -/
theorem decode_wording (j : Journal) {damaged : Bool} {text : String}
    (h : r.Wording damaged text) :
    j.decode text.toUTF8 = if damaged then .error (.malformed j.path) else .ok r := by
  unfold decode
  rw [fromUTF8?_toUTF8]
  simp only [h.allBlank, h.ofText?]
  cases damaged <;> rfl

theorem decode_text (j : Journal) (r : Registry) : j.decode r.text.toUTF8 = .ok r :=
  j.decode_wording r.wording_text

/-! ## Loading -/

section Effects

variable {σ α β : Type}

theorem bind_apply (x : ExceptT JournalError (StateM σ) α)
    (f : α → ExceptT JournalError (StateM σ) β) (s : σ) :
    (x >>= f) s = match (x s).1 with
      | .ok a => f a (x s).2
      | .error e => (.error e, (x s).2) := by
  show (ExceptT.bindCont f (x s).1) (x s).2 = _
  cases (x s).1 <;> rfl

theorem accessing_apply (p : Path) (operation : StateM σ (Except FileError α)) (s : σ) :
    (accessing p operation : ExceptT JournalError (StateM σ) α) s =
      ((operation s).1.mapError (.access p), (operation s).2) := rfl

end Effects

theorem openParent_apply {σ : Type} (disk : Disk (StateM σ)) (hname : j.path.fileName? = some name)
    (s : σ) :
    j.openParent disk s = (match (disk.openDirectory j.directory s).1 with
      | .ok _ => .ok name
      | .error e => .error (.access j.directory e), (disk.openDirectory j.directory s).2) := by
  unfold openParent
  rw [hname]
  dsimp only
  rw [bind_apply, accessing_apply]
  rcases disk.openDirectory j.directory s with ⟨e | _, s'⟩ <;> rfl

/-- Loading reads the file, if its directory can be opened. -/
theorem load_apply {σ : Type} (disk : Disk (StateM σ)) (hname : j.path.fileName? = some name)
    (s : σ) :
    j.load disk s = match disk.openDirectory j.directory s with
      | (.ok _, s') => match disk.readFile j.directory name s' with
        | (.ok content, s') => (j.decode content, s')
        | (.error .notFound, s') => (.ok .empty, s')
        | (.error e, s') => (.error (.access j.path e), s')
      | (.error e, s') => match disk.pathExists j.directory s' with
        | (true, s') => (.error (.access j.directory e), s')
        | (false, s') => (.ok .empty, s') := by
  unfold load
  rw [Disk.bind_apply, ExceptT.run, openParent_apply disk hname]
  rcases disk.openDirectory j.directory s with ⟨e | _, s'⟩
  · dsimp only
    rw [Disk.bind_apply]
    rcases disk.pathExists j.directory s' with ⟨_ | _, s'⟩ <;> rfl
  · dsimp only
    rw [Disk.bind_apply]
    rcases disk.readFile j.directory name s' with ⟨e | content, s'⟩
    · cases e <;> rfl
    · rfl

theorem load_fileTree (hname : j.path.fileName? = some name) :
    j.load FileTree.disk t = (match t.directory j.directory with
      | .ok _ =>
        match t.readFile j.directory name with
        | .ok content => j.decode content
        | .error .notFound => .ok .empty
        | .error e => .error (.access j.path e)
      | .error e =>
        if (t.locate j.directory).isOk then .error (.access j.directory e) else .ok .empty, t) := by
  have hopen : FileTree.disk.openDirectory j.directory t =
      ((t.directory j.directory).map fun _ => (), t) := rfl
  have hread : FileTree.disk.readFile j.directory name t = (t.readFile j.directory name, t) := rfl
  have hexists : FileTree.disk.pathExists j.directory t = ((t.locate j.directory).isOk, t) := rfl
  rw [load_apply _ hname, hopen]
  cases t.directory j.directory with
  | ok l =>
    dsimp only [Except.map]
    rw [hread]
    cases t.readFile j.directory name with
    | ok content => rfl
    | error e => cases e <;> rfl
  | error e =>
    dsimp only [Except.map]
    rw [hexists]
    cases (t.locate j.directory).isOk <;> rfl

theorem content?_eq_none (hno : (t.directory j.directory).isOk = false) : j.content? t = none := by
  unfold content?
  cases j.path.fileName? with
  | none => rfl
  | some name =>
    rw [Option.bind_some]
    cases hread : t.readFile j.directory name with
    | error e => rfl
    | ok content =>
      obtain ⟨l, hl, -⟩ := FileTree.readFile_eq_ok_iff.1 hread
      rw [hl] at hno
      cases hno

theorem content?_eq_some {content : ByteArray} (hname : j.path.fileName? = some name)
    (hd : t.directory j.directory = .ok l) (hn : Usable name)
    (hnode : t.node? (name :: l) = some (.file content)) : j.content? t = some content := by
  unfold content?
  rw [hname, Option.bind_some, FileTree.readFile_eq_ok_iff.2 ⟨l, hd, hn, hnode⟩]
  rfl

theorem content?_eq_none_of_node? (hname : j.path.fileName? = some name)
    (hd : t.directory j.directory = .ok l) (hnode : t.node? (name :: l) = none) :
    j.content? t = none := by
  unfold content?
  rw [hname, Option.bind_some]
  cases hread : t.readFile j.directory name with
  | error e => rfl
  | ok content =>
    obtain ⟨_, hd', -, hsome⟩ := FileTree.readFile_eq_ok_iff.1 hread
    cases hd.symm.trans hd'
    rw [hnode] at hsome
    cases hsome

theorem loaded_of_no_name (hname : j.path.fileName? = none) :
    j.loaded t = .error (.noFileName j.path) := by
  unfold loaded load openParent
  rw [hname]
  rfl

theorem load_state (j : Journal) (t : FileTree) : (j.load FileTree.disk t).2 = t := by
  cases hname : j.path.fileName? with
  | none =>
    unfold load openParent
    rw [hname]
    rfl
  | some name => rw [load_fileTree hname]

section Congr

variable {u : FileTree} (hname : j.path.fileName? = some name)
  (ht : t.directory j.directory = .ok l) (hu : u.directory j.directory = .ok l)
  (hnode : u.node? (name :: l) = t.node? (name :: l))
include hname ht hu hnode

/-- What is loaded depends on where the directory is and on what is there under the name. -/
theorem loaded_congr : j.loaded u = j.loaded t := by
  unfold loaded
  rw [load_fileTree hname, load_fileTree hname, ht, hu, FileTree.readFile_congr ht hu hnode]

theorem content?_congr : j.content? u = j.content? t := by
  unfold content?
  rw [hname, Option.bind_some, Option.bind_some, FileTree.readFile_congr ht hu hnode]

end Congr

theorem loaded_of_directory (hname : j.path.fileName? = some name)
    (hd : t.directory j.directory = .ok l) (hn : Usable name) :
    j.loaded t = match t.node? (name :: l) with
      | none => .ok .empty
      | some .directory => .error (.access j.path .isDirectory)
      | some (.file content) => j.decode content := by
  unfold loaded
  rw [load_fileTree hname, hd]
  dsimp only
  unfold FileTree.readFile
  rw [FileTree.place_of_directory hd hn]
  show (match (match t.node? (name :: l) with
    | none => .error .notFound
    | some .directory => .error .isDirectory
    | some (.file content) => .ok content : Except FileError ByteArray) with
    | .ok content => j.decode content
    | .error .notFound => .ok .empty
    | .error e => .error (.access j.path e)) = _
  cases t.node? (name :: l) with
  | none => rfl
  | some node => cases node <;> rfl

theorem loaded_of_content? {content : ByteArray} (h : j.content? t = some content) :
    j.loaded t = j.decode content := by
  obtain ⟨name, hname, hcontent⟩ := Option.bind_eq_some_iff.1 h
  cases hread : t.readFile j.directory name with
  | error e =>
    rw [hread] at hcontent
    cases hcontent
  | ok content' =>
    rw [hread] at hcontent
    cases hcontent
    obtain ⟨l, hd, hn, hnode⟩ := FileTree.readFile_eq_ok_iff.1 hread
    rw [loaded_of_directory hname hd hn, hnode]

/-- A directory with a name that no file can have is there, but the file cannot be looked up. -/
theorem loaded_of_not_usable (hname : j.path.fileName? = some name)
    (hd : t.directory j.directory = .ok l) (hn : ¬ Usable name) :
    ∃ e, j.loaded t = .error (.access j.path e) := by
  obtain ⟨e, hplace, hne⟩ := FileTree.place_of_not_usable hd hn
  have hread : t.readFile j.directory name = .error e := by
    unfold FileTree.readFile
    rw [hplace]
    rfl
  refine ⟨e, ?_⟩
  unfold loaded
  rw [load_fileTree hname, hd, hread]
  cases e <;> first | rfl | exact absurd rfl hne

/-- A journal is loaded in three ways: from its file, from no file in its directory, and from no
directory. -/
theorem loaded_eq_ok_iff (hname : j.path.fileName? = some name) :
    j.loaded t = .ok r ↔
      (∃ l, t.directory j.directory = .ok l ∧ Usable name ∧
        ((∃ content, t.node? (name :: l) = some (.file content) ∧ j.decode content = .ok r) ∨
          (t.node? (name :: l) = none ∧ r = .empty))) ∨
        ((t.locate j.directory).isOk = false ∧ r = .empty) := by
  cases hd : t.directory j.directory with
  | ok l =>
    have hlocate : ¬ (t.locate j.directory).isOk = false := by
      simp [FileTree.isOk_locate_of_directory hd]
    by_cases hn : Usable name
    · rw [loaded_of_directory hname hd hn]
      constructor
      · intro h
        refine .inl ⟨l, rfl, hn, ?_⟩
        split at h
        · next hnode =>
          cases h
          exact .inr ⟨hnode, rfl⟩
        · cases h
        · next content hnode => exact .inl ⟨content, hnode, h⟩
      · rintro (⟨_, ⟨⟩, -, ⟨content, hnode, h⟩ | ⟨hnode, rfl⟩⟩ | ⟨h, -⟩)
        · rw [hnode]
          exact h
        · rw [hnode]
        · exact absurd h hlocate
    · obtain ⟨e, he⟩ := loaded_of_not_usable hname hd hn
      rw [he]
      constructor
      · rintro ⟨⟩
      · rintro (⟨_, -, h, -⟩ | ⟨h, -⟩)
        · exact absurd h hn
        · exact absurd h hlocate
  | error e =>
    unfold loaded
    rw [load_fileTree hname, hd]
    dsimp only
    cases (t.locate j.directory).isOk with
    | true =>
      constructor
      · rintro ⟨⟩
      · rintro (⟨_, ⟨⟩, -⟩ | ⟨⟨⟩, -⟩)
    | false =>
      constructor
      · rintro ⟨⟩
        exact .inr ⟨rfl, rfl⟩
      · rintro (⟨_, ⟨⟩, -⟩ | ⟨-, rfl⟩)
        rfl

/-- There is no file of the journal: its directory has none with its name, or is missing. -/
def Absent (j : Journal) (t : FileTree) : Prop :=
  ∃ name, j.path.fileName? = some name ∧
    ((∃ l, t.directory j.directory = .ok l ∧ Usable name ∧ t.node? (name :: l) = none) ∨
      (t.locate j.directory).isOk = false)

theorem Absent.loaded (h : j.Absent t) : j.loaded t = .ok .empty := by
  obtain ⟨name, hname, ⟨l, hl, hn, hnode⟩ | hlocate⟩ := h
  · exact (loaded_eq_ok_iff hname).2 (.inl ⟨l, hl, hn, .inr ⟨hnode, rfl⟩⟩)
  · exact (loaded_eq_ok_iff hname).2 (.inr ⟨hlocate, rfl⟩)

/-! ## A journal with a text in it -/

/-- The root directory with a file `j` in it. -/
def withFile (text : String) : FileTree :=
  (FileTree.ofDirectory []).set ["j"] (some (.file text.toUTF8))

theorem content?_withFile (text : String) :
    content? ⟨⟨"j"⟩⟩ (withFile text) = some text.toUTF8 := by
  have hname : (Path.mk "j").fileName? = some "j" := by decide
  have hn : Usable "j" := by
    unfold Usable
    decide
  have hl : (withFile text).directory (directory ⟨⟨"j"⟩⟩) = .ok [] := rfl
  exact content?_eq_some hname hl hn rfl

end BlockShell.Journal
