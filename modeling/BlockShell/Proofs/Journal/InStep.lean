import BlockShell.Proofs.Journal.Store

/-!
# A journal in step with a registry

A journal is in step with a registry if it is loaded as that registry (`InStep`).  A store that fails
keeps it in step with the registry it was in step with (`Unfinished.inStep`), for paths without `..`;
one that succeeds puts it in step with the stored registry (`Replaced.loaded`).  There is one
exception, a name that no file can have: once a store has created the directory of such a file, its
absence is no longer seen, and loading fails.
-/

namespace BlockShell

open FileTree (Usable SameFiles Grown steps)
open Disk (Fresh)

/-! ## Growing towards the directory of a journal -/

namespace FileTree.Grown

variable {t g : FileTree} {p : Path} {l : Location}

/-- Nothing grows towards a directory that is there. -/
theorem sameFiles_of_directory (h : Grown (Fresh t p) t g) (hp : t.directory p = .ok l) :
    g.SameFiles t := by
  refine ⟨funext fun k => ?_, h.current⟩
  rcases h.node k with he | ⟨⟨hno, -⟩, -⟩
  · exact he
  · rw [hp] at hno
    cases hno

/-- A directory that has appeared holds nothing. -/
theorem node?_eq_none (h : Grown (Fresh t p) t g) (ht : t.Sound) (hup : ".." ∉ steps p)
    (hno : (t.directory p).isOk = false) (hg : g.directory p = .ok l) (name : String) :
    g.node? (name :: l) = none := by
  obtain ⟨hcheck, -, hshort, hl⟩ := directory_eq_ok_iff.1 hg
  rw [h.goalOf] at hl
  rcases h.node (name :: l) with he | ⟨⟨-, hsuffix⟩, -⟩
  · rw [he]
    by_contra hsome
    have hdir := ht name l (Option.isSome_iff_ne_none.2 hsome)
    rw [(ht.directory_eq_ok_iff hup).2 ⟨hcheck, hshort, hl, hdir⟩] at hno
    cases hno
  · have := (hsuffix hup).length_le
    rw [← hl, List.length_cons] at this
    omega

/-- Where there was nothing, there is either nothing still or a directory. -/
theorem isOk_locate_eq_false (h : Grown (Fresh t p) t g) (ht : t.Sound) (hg : g.Sound)
    (hup : ".." ∉ steps p) (hno : (t.locate p).isOk = false)
    (hdir : (g.directory p).isOk = false) : (g.locate p).isOk = false := by
  cases hk : g.locate p with
  | error e => rfl
  | ok k =>
    obtain ⟨hcheck, hall, hshort, hgoal, hsome⟩ := hg.locate_eq_ok_iff.1 hk
    have hfile : g.isDirectory k = false := by
      rw [Bool.eq_false_iff]
      intro hk
      rw [(hg.directory_eq_ok_iff hup).2 ⟨hcheck, hshort, hgoal, hk⟩] at hdir
      cases hdir
    have hnode : t.node? k = g.node? k := by
      rcases h.node k with he | ⟨-, -, he⟩
      · exact he.symm
      · rw [isDirectory_iff.2 he] at hfile
        cases hfile
    have hvisits : ∀ v ∈ (visits (t.start p) (steps p)).dropLast, t.isDirectory v = true := by
      intro v hv
      rw [← h.start] at hv
      refine ht.isDirectory_of_suffix (hnode ▸ hsome) ?_ fun he => ?_
      · rw [hgoal]
        exact suffix_of_mem_visits hup (List.dropLast_subset _ hv)
      · have hdir := hall v hv
        rw [he, hfile] at hdir
        cases hdir
    have hlocate : t.locate p = .ok k :=
      ht.locate_eq_ok_iff.2 ⟨hcheck, hvisits, hshort, h.goalOf p ▸ hgoal, hnode ▸ hsome⟩
    rw [hlocate] at hno
    cases hno

end FileTree.Grown

namespace Journal

variable {j : Journal} {name : String} {content : ByteArray} {t g u : FileTree} {l : Location}
  {r : Registry}

/-! ## After a store that succeeded -/

namespace Replaced

theorem sound (h : j.Replaced name content g u) (hg : g.Sound) : u.Sound := by
  obtain ⟨l, hl, -, hname, hstaging, hu⟩ := h
  have hcleared : (g.set (stagingName name :: l) none).Sound :=
    hg.of_set_in hl hstaging
  have hdir : (g.set (stagingName name :: l) none).directory j.directory = .ok l :=
    (FileTree.directory_set_iff hstaging (by simp)).2 hl
  refine hu.sound (hcleared.of_set_in hdir ?_)
  rw [FileTree.isDirectory_set hstaging (by simp), hname]

theorem current (h : j.Replaced name content g u) : u.current = g.current := by
  obtain ⟨_, -, -, -, -, hu⟩ := h
  exact hu.current

theorem directory (h : j.Replaced name content g u) :
    ∃ l, u.directory j.directory = .ok l ∧ Usable name ∧
      u.node? (name :: l) = some (.file content) := by
  obtain ⟨l, hl, hn, hname, hstaging, hu⟩ := h
  refine ⟨l, ?_, hn, ?_⟩
  · rw [hu.directory, FileTree.directory_set_iff _ (by simp), FileTree.directory_set_iff hstaging
      (by simp)]
    · exact hl
    · rw [FileTree.isDirectory_set hstaging (by simp), hname]
  · rw [hu.node, FileTree.node?_set_self]

/-- What was stored is loaded. -/
theorem loaded (h : j.Replaced name r.text.toUTF8 g u) (hname : j.path.fileName? = some name) :
    j.loaded u = .ok r := by
  obtain ⟨l, hl, hn, hnode⟩ := h.directory
  rw [loaded_of_directory hname hl hn, hnode]
  exact j.decode_text r

theorem content?_eq (h : j.Replaced name content g u) (hname : j.path.fileName? = some name) :
    j.content? u = some content := by
  obtain ⟨l, hl, hn, hnode⟩ := h.directory
  exact content?_eq_some hname hl hn hnode

end Replaced

/-! ## After a store that failed -/

/-- The directory of the journal is there, but no file can have the journal's name. -/
def Refused (j : Journal) (t : FileTree) : Prop :=
  ∃ name l, j.path.fileName? = some name ∧ ¬ Usable name ∧ t.directory j.directory = .ok l

/-- The journal is loaded as `r`; if no file can have its name, `r` is empty. -/
def InStep (j : Journal) (t : FileTree) (r : Registry) : Prop :=
  j.loaded t = .ok r ∨ (j.Refused t ∧ r = .empty)

namespace InStep

theorem exists_name (h : j.InStep t r) : ∃ name, j.path.fileName? = some name := by
  rcases h with hload | ⟨⟨name, -, hname, -⟩, -⟩
  · cases hname : j.path.fileName? with
    | none =>
      rw [loaded_of_no_name hname] at hload
      cases hload
    | some name => exact ⟨name, rfl⟩
  · exact ⟨name, hname⟩

/-- Without a directory there is nothing on the way to it, and the registry is empty. -/
theorem of_no_directory (h : j.InStep t r) (hname : j.path.fileName? = some name)
    (hno : (t.directory j.directory).isOk = false) :
    (t.locate j.directory).isOk = false ∧ r = .empty := by
  have hne (l : Location) : t.directory j.directory ≠ .ok l := by
    intro hl
    rw [hl] at hno
    cases hno
  rcases h with hload | ⟨⟨_, l, -, -, hl⟩, -⟩
  · rcases (loaded_eq_ok_iff hname).1 hload with ⟨l, hl, -⟩ | hempty
    · exact absurd hl (hne l)
    · exact hempty
  · exact absurd hl (hne l)

/-- A directory without the journal's file is in step with the empty registry. -/
theorem of_no_file (hname : j.path.fileName? = some name) (hl : t.directory j.directory = .ok l)
    (hnone : t.node? (name :: l) = none) : j.InStep t .empty := by
  by_cases hn : Usable name
  · exact .inl ((loaded_eq_ok_iff hname).2 (.inl ⟨l, hl, hn, .inr ⟨hnone, rfl⟩⟩))
  · exact .inr ⟨⟨name, l, hname, hn, hl⟩, rfl⟩

/-- A journal stays in step as long as its directory and its file stay the same. -/
theorem of_same (h : j.InStep t r) (hname : j.path.fileName? = some name)
    (ht : t.directory j.directory = .ok l) (hu : u.directory j.directory = .ok l)
    (hnode : u.node? (name :: l) = t.node? (name :: l)) : j.InStep u r := by
  rcases h with hload | ⟨⟨name, _, hname, hn, -⟩, hr⟩
  · left
    rw [loaded_congr hname ht hu hnode]
    exact hload
  · exact .inr ⟨⟨name, l, hname, hn, hu⟩, hr⟩

end InStep

namespace Unfinished

theorem sound (h : j.Unfinished name g u) (hg : g.Sound) : u.Sound := by
  rcases h with hu | ⟨l, left, hl, hstaging, -, hu⟩
  · exact hu.sound hg
  · exact hu.sound (hg.of_set_in hl hstaging)

theorem current (h : j.Unfinished name g u) : u.current = g.current := by
  rcases h with hu | ⟨_, _, -, -, -, hu⟩
  · exact hu.current
  · exact hu.current

theorem directory_iff (h : j.Unfinished name g u) :
    u.directory j.directory = .ok l ↔ g.directory j.directory = .ok l := by
  rcases h with hu | ⟨_, left, -, hstaging, hleft, hu⟩
  · rw [hu.directory]
  · rw [hu.directory, FileTree.directory_set_iff hstaging hleft]

theorem node?_eq (h : j.Unfinished name g u) (l : Location) :
    u.node? (name :: l) = g.node? (name :: l) := by
  rcases h with hu | ⟨k, left, -, -, -, hu⟩
  · rw [hu.node]
  · rw [hu.node, FileTree.node?_set_of_ne]
    exact fun he => stagingName_ne name (List.cons.inj he).1.symm

/-- Without a directory there is no staging file. -/
theorem sameFiles (h : j.Unfinished name g u) (hno : (g.directory j.directory).isOk = false) :
    u.SameFiles g := by
  rcases h with hu | ⟨l, -, hl, -⟩
  · exact hu
  · rw [hl] at hno
    cases hno

variable (h : j.Unfinished name g u) (hg : Grown (Fresh t j.directory) t g)
include h hg

/-- A directory that could be reached before holds the same journal after. -/
theorem of_directory (hl : t.directory j.directory = .ok l) :
    u.directory j.directory = .ok l ∧ u.node? (name :: l) = t.node? (name :: l) := by
  refine ⟨h.directory_iff.2 (hg.directory hl), ?_⟩
  rw [h.node?_eq, (hg.sameFiles_of_directory hl).node]

/-- The journal's file is as it was. -/
theorem content?_eq (hname : j.path.fileName? = some name) (ht : t.Sound)
    (hup : ".." ∉ steps j.directory) : j.content? u = j.content? t := by
  cases hl : t.directory j.directory with
  | ok l =>
    obtain ⟨hl', hnode⟩ := h.of_directory hg hl
    exact content?_congr hname hl hl' hnode
  | error e =>
    have hno : (t.directory j.directory).isOk = false := by
      rw [hl]
      rfl
    rw [content?_eq_none hno]
    cases hk : g.directory j.directory with
    | ok k =>
      -- The store created the directory, and nothing is in it but a staging file.
      refine content?_eq_none_of_node? hname (h.directory_iff.2 hk) ?_
      rw [h.node?_eq]
      exact hg.node?_eq_none ht hup hno hk name
    | error e' =>
      have hno' : (g.directory j.directory).isOk = false := by
        rw [hk]
        rfl
      refine content?_eq_none ?_
      rw [(h.sameFiles hno').directory, hno']

/-- A journal that had no directory is still loaded as empty. -/
theorem of_no_directory (hname : j.path.fileName? = some name) (ht : t.Sound) (hgs : g.Sound)
    (hup : ".." ∉ steps j.directory) (hno : (t.directory j.directory).isOk = false)
    (hlocate : (t.locate j.directory).isOk = false) : j.InStep u .empty := by
  cases hk : g.directory j.directory with
  | ok k =>
    refine .of_no_file hname (h.directory_iff.2 hk) ?_
    rw [h.node?_eq]
    exact hg.node?_eq_none ht hup hno hk name
  | error e =>
    have hno' : (g.directory j.directory).isOk = false := by
      rw [hk]
      rfl
    refine .inl ((loaded_eq_ok_iff hname).2 (.inr ⟨?_, rfl⟩))
    rw [(h.sameFiles hno').locate]
    exact hg.isOk_locate_eq_false ht hgs hup hlocate hno'

/-- A journal that was in step still is, and its file is as it was. -/
theorem inStep (hname : j.path.fileName? = some name) (ht : t.Sound) (hgs : g.Sound)
    (hup : ".." ∉ steps j.directory) (hin : j.InStep t r) :
    j.InStep u r ∧ j.content? u = j.content? t := by
  refine ⟨?_, h.content?_eq hg hname ht hup⟩
  cases hl : t.directory j.directory with
  | ok l =>
    obtain ⟨hl', hnode⟩ := h.of_directory hg hl
    exact hin.of_same hname hl hl' hnode
  | error e =>
    have hno : (t.directory j.directory).isOk = false := by
      rw [hl]
      rfl
    obtain ⟨hlocate, rfl⟩ := hin.of_no_directory hname hno
    exact h.of_no_directory hg hname ht hgs hup hno hlocate

end Unfinished

end Journal

end BlockShell
