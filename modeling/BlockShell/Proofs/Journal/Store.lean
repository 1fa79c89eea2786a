import BlockShell.Proofs.Disk.Procedure
import BlockShell.Proofs.Journal.Load

/-!
# What storing leaves behind

A store first makes the tree grow towards the directory of the journal.  What it leaves of the tree
from there on depends, however its operations end, on whether the staging file has been renamed: if
it has, the journal's file holds the text of the registry and there is no staging file (`Replaced`);
otherwise nothing has changed but the staging file (`Unfinished`).  This holds after each operation
(`Stage`), and a store that ends is successful just if the staging file has been renamed (`Finished`).
-/

namespace BlockShell.Journal

open FileTree (Usable SameFiles)
open Procedure (Reaches Upholds Follows Undisturbed)

/-- The name of the staging file of a file. -/
def stagingName (name : String) : String := name ++ stagingSuffix

theorem stagingName_ne (name : String) : stagingName name ≠ name := by
  intro h
  have := congrArg String.length h
  simp [stagingName, stagingSuffix] at this

/-- The location of the journal's file, whether or not anything is there. -/
def location (j : Journal) (t : FileTree) (name : String) : Location :=
  name :: t.goalOf j.directory

variable {σ : Type} {disk : Disk (StateM σ)} {tree : σ → FileTree} {j : Journal} {name : String}
  {content : ByteArray} {g u : FileTree} {l : Location}

/-- A directory is where its path leads. -/
theorem location_of_directory {l : Location} (h : t.directory j.directory = .ok l) :
    name :: l = j.location t name := by
  obtain ⟨-, -, -, hl⟩ := FileTree.directory_eq_ok_iff.1 h
  rw [location, hl]

/-! ## What is left behind -/

/-- `u` is `g`, but for what may have been left in the staging file. -/
def Unfinished (j : Journal) (name : String) (g u : FileTree) : Prop :=
  u.SameFiles g ∨ ∃ l left, g.directory j.directory = .ok l ∧
    g.isDirectory (stagingName name :: l) = false ∧ left ≠ some .directory ∧
    u.SameFiles (g.set (stagingName name :: l) left)

/-- `u` is `g` with the given content in the journal's file and without a staging file. -/
def Replaced (j : Journal) (name : String) (content : ByteArray) (g u : FileTree) : Prop :=
  ∃ l, g.directory j.directory = .ok l ∧ Usable name ∧ g.isDirectory (name :: l) = false ∧
    g.isDirectory (stagingName name :: l) = false ∧
    u.SameFiles ((g.set (stagingName name :: l) none).set (name :: l) (some (.file content)))

/-- How a store of `content` may end once the directories are there. -/
def Ends (j : Journal) (name : String) (content : ByteArray) (g : FileTree) (tree : σ → FileTree) :
    Except JournalError Unit × σ → Prop
  | (.ok (), s) => j.Replaced name content g (tree s)
  | (.error _, s) => j.Unfinished name g (tree s)

/-! ## What is left on the way -/

variable {log : List Deed}

/-- The staging file has been given the name of the journal's file. -/
def Renamed (j : Journal) (name : String) (log : List Deed) : Prop :=
  ⟨.rename j.directory (stagingName name) name, .ok ()⟩ ∈ log

/-- The staging file has been removed. -/
def Cleared (j : Journal) (name : String) (log : List Deed) : Prop :=
  ⟨.removeFile j.directory (stagingName name), .ok ()⟩ ∈ log

/-- What the deeds in `log` may have made of `g`. -/
def Stage (j : Journal) (name : String) (content : ByteArray) (g : FileTree) (log : List Deed)
    (u : FileTree) : Prop :=
  (j.Renamed name log ∧ j.Replaced name content g u) ∨
    (¬ j.Renamed name log ∧ j.Unfinished name g u)

/-- How a store may end. -/
structure Finished (j : Journal) (name : String) (g : FileTree) (result : Except JournalError Unit)
    (log : List Deed) (u : FileTree) : Prop where
  isOk : result = .ok () ↔ j.Renamed name log
  cleared : result = .ok () ∨ j.Cleared name log → u.node? (j.location g (stagingName name)) = none
  /-- If the staging file could not be renamed, a removal has been tried. -/
  clears : ∀ e, ⟨.rename j.directory (stagingName name) name, .error e⟩ ∈ log →
    ∃ answer, ⟨.removeFile j.directory (stagingName name), answer⟩ ∈ log

/-- Nothing has been tried yet that would rename or remove the staging file. -/
def Untouched (j : Journal) (name : String) (log : List Deed) : Prop :=
  (∀ answer, ⟨.rename j.directory (stagingName name) name, answer⟩ ∉ log) ∧
    ∀ answer, ⟨.removeFile j.directory (stagingName name), answer⟩ ∉ log

theorem Untouched.of_undisturbed {P : FileTree → Prop} (h : Undisturbed P log u) :
    j.Untouched name log :=
  ⟨fun _ hmem => (h.2 _ hmem _ _).1 _ rfl, fun _ hmem => (h.2 _ hmem _ _).2 rfl⟩

section Untouched

variable (hlog : j.Untouched name log)
include hlog

theorem Untouched.stage (hu : j.Unfinished name g u) : j.Stage name content g log u :=
  .inr ⟨hlog.1 _, hu⟩

theorem Untouched.finished (e : JournalError) : j.Finished name g (.error e) log u where
  isOk := iff_of_false nofun (hlog.1 _)
  cleared h := absurd (h.resolve_left nofun) (hlog.2 _)
  clears _ h := absurd h (hlog.1 _)

theorem Untouched.snoc (deed : Deed) (hrename : ∀ d n n', deed.1 ≠ .rename d n n')
    (hremove : ∀ d n, deed.1 ≠ .removeFile d n) : j.Untouched name (log ++ [deed]) := by
  refine ⟨fun answer => List.not_mem_append (hlog.1 answer) fun h => ?_,
    fun answer => List.not_mem_append (hlog.2 answer) fun h => ?_⟩
  · exact hrename _ _ _ (congrArg Sigma.fst (List.mem_singleton.1 h)).symm
  · exact hremove _ _ (congrArg Sigma.fst (List.mem_singleton.1 h)).symm

end Untouched

/-! ## The steps of a store -/

theorem upholds_accessing {α : Type} {I : List Deed → FileTree → Prop}
    {Q : Except JournalError α → List Deed → FileTree → Prop} {p : Path}
    {operation : Procedure (Except FileError α)}
    (h : operation.Upholds I (fun r => Q (r.mapError (.access p))) log u) :
    Upholds I Q (accessing p operation).run log u :=
  h.bind fun _ _ _ hI hQ => ⟨hI, hQ⟩

section Staged

variable (hl : g.directory j.directory = .ok l)
  (hstaging : g.isDirectory (stagingName name :: l) = false)
  (hu : u.SameFiles (g.set (stagingName name :: l) (some (.file content))))
include hl hstaging hu

theorem directory_of_staged {k : Location} (hk : u.directory j.directory = .ok k) : k = l := by
  rw [hu.directory, FileTree.directory_set_iff hstaging (by simp)] at hk
  exact Except.ok.inj (hk.symm.trans hl)

theorem unfinished_of_staged : j.Unfinished name g u :=
  .inr ⟨l, some (.file content), hl, hstaging, by simp, hu⟩

omit hl hstaging in
theorem unstaged_of_staged :
    (u.set (stagingName name :: l) none).SameFiles (g.set (stagingName name :: l) none) :=
  (hu.set _ none).trans (FileTree.sameFiles_set_set _ _ _ _)

/-- From a complete staging file on that could not be renamed. -/
theorem upholds_removeFile (hrenamed : ¬ j.Renamed name log) (hcleared : ¬ j.Cleared name log)
    (e : JournalError) :
    Upholds (j.Stage name content g) (j.Finished name g) (do
      let _ ← Procedure.disk.removeFile j.directory (stagingName name)
      return .error e) log u := by
  refine ⟨.inr ⟨hrenamed, unfinished_of_staged hl hstaging hu⟩, fun answer v hv => ?_⟩
  have htried : ⟨.removeFile j.directory (stagingName name), answer⟩ ∈
      log ++ [⟨.removeFile j.directory (stagingName name), answer⟩] :=
    List.mem_append_right _ (List.mem_singleton_self _)
  have hnot : ¬ j.Renamed name (log ++ [⟨.removeFile j.directory (stagingName name), answer⟩]) :=
    List.not_mem_append hrenamed (by simp)
  cases answer with
  | ok =>
    obtain ⟨w, hw, hv⟩ := hv
    obtain ⟨k, hk, -, hw⟩ := FileTree.removeFile_spec hw
    cases directory_of_staged hl hstaging hu hk
    have hv := hv.trans (hw.trans (unstaged_of_staged hu))
    refine ⟨.inr ⟨hnot, .inr ⟨l, none, hl, hstaging, by simp, hv⟩⟩, iff_of_false nofun hnot,
      fun _ => ?_, fun _ _ => ⟨_, htried⟩⟩
    rw [← location_of_directory hl, hv.node, FileTree.node?_set_self]
  | error e' =>
    have hstill : ¬ j.Cleared name
        (log ++ [⟨.removeFile j.directory (stagingName name), .error e'⟩]) :=
      List.not_mem_append hcleared (by simp)
    exact ⟨.inr ⟨hnot, unfinished_of_staged hl hstaging (SameFiles.trans hv hu)⟩,
      iff_of_false nofun hnot, fun h => absurd (h.resolve_left nofun) hstill, fun _ _ => ⟨_, htried⟩⟩

/-- From a complete staging file on. -/
theorem upholds_replaceFile (hlog : j.Untouched name log) :
    Upholds (j.Stage name content g) (j.Finished name g)
      (j.replaceFile Procedure.disk name (stagingName name)).run log u := by
  refine ⟨hlog.stage (unfinished_of_staged hl hstaging hu), fun answer v hv => ?_⟩
  cases answer with
  | ok =>
    obtain ⟨w, hw, hv⟩ := hv
    obtain ⟨k, content', hk, hn, hnode, hname, hw⟩ := FileTree.rename_spec hw
    cases directory_of_staged hl hstaging hu hk
    rw [hu.node, FileTree.node?_set_self] at hnode
    cases hnode
    rw [hu.isDirectory, FileTree.isDirectory_set hstaging (by simp)] at hname
    have hv := hv.trans (hw.trans ((unstaged_of_staged hu).set (name :: l) (some (.file content))))
    have hrenamed : j.Renamed name (log ++ [⟨.rename j.directory (stagingName name) name, .ok ()⟩]) :=
      List.mem_append_right _ (List.mem_singleton_self _)
    refine ⟨.inl ⟨hrenamed, l, hl, hn, hname, hstaging, hv⟩, iff_of_true rfl hrenamed, fun _ => ?_,
      fun e h => absurd h (List.not_mem_append (hlog.1 _) (by simp))⟩
    rw [← location_of_directory hl, hv.node, FileTree.node?_set_of_ne _ _ (by simp [stagingName_ne]),
      FileTree.node?_set_self]
  | error e =>
    exact upholds_removeFile hl hstaging (SameFiles.trans hv hu)
      (List.not_mem_append (hlog.1 _) (by simp)) (List.not_mem_append (hlog.2 _) (by simp))
      (.access j.path e)

end Staged

/-- From a directory that can be reached on. -/
theorem upholds_writeFile (hl : g.directory j.directory = .ok l) (hlog : j.Untouched name log)
    (hu : u.SameFiles g) :
    Upholds (j.Stage name content g) (j.Finished name g)
      (accessing j.path (Procedure.disk.writeFile j.directory (stagingName name) content) >>= fun _ =>
        j.replaceFile Procedure.disk name (stagingName name)).run log u := by
  have hdir {k : Location} (hk : u.directory j.directory = .ok k) : k = l := by
    rw [hu.directory] at hk
    exact Except.ok.inj (hk.symm.trans hl)
  refine ⟨hlog.stage (.inl hu), fun answer v hv => ?_⟩
  have hlog := hlog.snoc ⟨.writeFile j.directory (stagingName name) content, answer⟩
    (by simp) (by simp)
  cases answer with
  | ok =>
    obtain ⟨w, hw, hv⟩ := hv.resolve_right id
    obtain ⟨k, hk, -, hfile, hw⟩ := FileTree.writeFile_spec hw
    cases hdir hk
    rw [hu.isDirectory] at hfile
    exact upholds_replaceFile hl hfile (hv.trans (hw.trans (hu.set _ _))) hlog
  | error cause =>
    refine ⟨hlog.stage ?_, hlog.finished _⟩
    rcases hv with hsame | ⟨_, left, hplace, hfile, hleft, hv⟩
    · exact .inl (SameFiles.trans hsame hu)
    · obtain ⟨k, hk, -, rfl⟩ := FileTree.place_eq_ok_iff.1 hplace
      cases hdir hk
      rw [hu.isDirectory] at hfile
      exact .inr ⟨l, left, hl, hfile, hleft, hv.trans (hu.set _ left)⟩

/-- What a store does once the directories are there. -/
def saveFile {m : Type → Type} [Monad m] (disk : Disk m) (j : Journal) (content : ByteArray) :
    ExceptT JournalError m PUnit := do
  let name ← j.openParent disk
  accessing j.path (disk.writeFile j.directory (name ++ stagingSuffix) content)
  j.replaceFile disk name (name ++ stagingSuffix)

theorem store_eq {m : Type → Type} [Monad m] (disk : Disk m) (j : Journal) (r : Registry) :
    j.store disk r = (accessing j.directory (disk.createDirectories j.directory) >>= fun _ =>
      j.saveFile disk r.text.toUTF8).run := rfl

theorem upholds_saveFile (hname : j.path.fileName? = some name) (hlog : j.Untouched name log)
    (g : FileTree) : Upholds (j.Stage name content g) (j.Finished name g)
      (j.saveFile Procedure.disk content).run log g := by
  unfold saveFile openParent
  rw [hname]
  refine ⟨hlog.stage (.inl (.refl g)), fun answer u hu => ?_⟩
  obtain ⟨hsame, hopen⟩ := hu
  have hlog := hlog.snoc ⟨.openDirectory j.directory, answer⟩ (by simp) (by simp)
  cases answer with
  | error e => exact ⟨hlog.stage (.inl hsame), hlog.finished _⟩
  | ok =>
    obtain ⟨l, hl⟩ := hopen rfl
    exact upholds_writeFile hl hlog hsame

/-- Without a name there is nothing to be done. -/
theorem saveFile_of_no_name {m : Type → Type} [Monad m] [LawfulMonad m] {disk : Disk m}
    (hname : j.path.fileName? = none) :
    (j.saveFile disk content).run = pure (.error (.noFileName j.path)) := by
  unfold saveFile openParent
  rw [hname]
  simp

/-! ## Stores as they are carried out -/

theorem follows_saveFile (hd : disk.ActsOn tree) (j : Journal) (content : ByteArray) :
    Follows tree (j.saveFile Procedure.disk content).run (j.saveFile disk content).run := by
  have haccessing {α : Type} {p : Path} {x : Procedure (Except FileError α)}
      {y : StateM σ (Except FileError α)} (h : Follows tree x y) :
      Follows tree (accessing p x).run (accessing p y).run :=
    h.bind fun _ => .pure _
  refine Follows.except_bind ?_ fun name => ?_
  · unfold openParent
    cases j.path.fileName? with
    | none => exact .pure _
    | some name =>
      exact Follows.except_bind (haccessing (Procedure.follows_openDirectory hd _)) fun _ => .pure _
  · refine Follows.except_bind (haccessing (Procedure.follows_ask (hd.writeFile _ _ _))) fun _ => ?_
    refine Follows.bind (Procedure.follows_ask (hd.rename _ _ _)) fun r => ?_
    cases r with
    | ok => exact .pure _
    | error e => exact .bind (Procedure.follows_ask (hd.removeFile _ _)) fun _ => .pure _

theorem follows_store (hd : disk.ActsOn tree) (j : Journal) (r : Registry) :
    Follows tree (j.store Procedure.disk r) (j.store disk r) := by
  rw [store_eq, store_eq]
  exact Follows.except_bind (.bind (Procedure.follows_createDirectories hd _) fun _ => .pure _)
    fun _ => follows_saveFile hd j _

/-- Up to the staging file a store may be the one that is carried out, and then go on in another way. -/
theorem reaches_replaceFile (hd : disk.ActsOn tree) (hname : j.path.fileName? = some name)
    (r : Registry) {s s₁ s₂ s₃ : σ} (hdirs : disk.createDirectories j.directory s = (.ok (), s₁))
    (hopen : disk.openDirectory j.directory s₁ = (.ok (), s₂))
    (hwrite : disk.writeFile j.directory (stagingName name) r.text.toUTF8 s₂ = (.ok (), s₃)) :
    ∃ log, Reaches (tree s) (j.store Procedure.disk r) log (tree s₃)
      (j.replaceFile Procedure.disk name (stagingName name)).run := by
  obtain ⟨log, hlog⟩ := Procedure.follows_createDirectories hd j.directory s
  rw [hdirs] at hlog
  have hopened := hd.openDirectory j.directory s₁
  rw [hopen] at hopened
  have hwritten := hd.writeFile j.directory (stagingName name) r.text.toUTF8 s₂
  rw [hwrite] at hwritten
  have hsave : Reaches (tree s₁) (j.saveFile Procedure.disk r.text.toUTF8).run
      [⟨.openDirectory j.directory, .ok ()⟩,
        ⟨.writeFile j.directory (stagingName name) r.text.toUTF8, .ok ()⟩] (tree s₃)
      (j.replaceFile Procedure.disk name (stagingName name)).run := by
    unfold saveFile openParent
    rw [hname]
    exact .step hopened (.step hwritten (.here _ _))
  rw [store_eq]
  exact ⟨_, ((hlog.bind _).bind _).trans hsave⟩

theorem store_apply (disk : Disk (StateM σ)) (j : Journal) (r : Registry) (s : σ) :
    j.store disk r s = match disk.createDirectories j.directory s with
      | (.ok _, s') => (j.saveFile disk r.text.toUTF8).run s'
      | (.error e, s') => (.error (.access j.directory e), s') := by
  rw [store_eq]
  refine (bind_apply (accessing j.directory (disk.createDirectories j.directory)) _ s).trans ?_
  rw [accessing_apply]
  rcases disk.createDirectories j.directory s with ⟨_ | _, s'⟩ <;> rfl

/-- A store ends in one of two ways, after the directories above the file have been created. -/
theorem store_ends (hd : disk.ActsOn tree) (hname : j.path.fileName? = some name) (s : σ)
    (r : Registry) :
    Ends j name r.text.toUTF8 (tree (disk.createDirectories j.directory s).2) tree
      (j.store disk r s) := by
  rw [store_apply]
  generalize disk.createDirectories j.directory s = out
  obtain ⟨_ | _, s'⟩ := out
  · exact .inl (.refl _)
  obtain ⟨log, hlog⟩ := follows_saveFile hd j r.text.toUTF8 s'
  have hupholds : Upholds (j.Stage name r.text.toUTF8 (tree s')) (j.Finished name (tree s'))
      (j.saveFile Procedure.disk r.text.toUTF8).run [] (tree s') :=
    upholds_saveFile hname ⟨fun _ => List.not_mem_nil, fun _ => List.not_mem_nil⟩ _
  obtain ⟨hstage, hfinished⟩ := hupholds.of_reaches hlog
  show Ends j name _ (tree s') tree ((j.saveFile disk r.text.toUTF8).run s')
  generalize (j.saveFile disk r.text.toUTF8).run s' = out at hstage hfinished ⊢
  obtain ⟨_ | _, s''⟩ := out
  · exact (hstage.resolve_left fun h => by simpa using hfinished.isOk.2 h.1).2
  · exact (hstage.resolve_right fun h => h.1 (hfinished.isOk.1 rfl)).2

end BlockShell.Journal
