import BlockShell.Proofs.Disk.Faults
import BlockShell.Proofs.Journal.InStep

/-!
# All or nothing

A store replaces the journal's file in one step, or not at all (`store_allOrNothing`): however its
operations end, and wherever it is broken off, the file holds the text of the registry if the staging
file has been renamed, and otherwise what it held before.  Nothing else changes but the staging file
and the directories that were missing.
-/

namespace BlockShell.Journal

open FileTree (Grown steps)
open Disk (Fresh)
open Procedure (Reaches Upholds Undisturbed)

variable {j : Journal} {name : String} {content : ByteArray} {t g u : FileTree} {l : Location}
  {log : List Deed} {r : Registry}

/-! ## A stage of a store -/

namespace Stage

theorem replaced (h : j.Stage name content g log u) (hlog : j.Renamed name log) :
    j.Replaced name content g u := (h.resolve_right fun h => h.1 hlog).2

theorem unfinished (h : j.Stage name content g log u) (hlog : ¬ j.Renamed name log) :
    j.Unfinished name g u := (h.resolve_left fun h => hlog h.1).2

/-- Only the journal's file and the staging file are touched. -/
theorem node?_of_ne (h : j.Stage name content g log u) (hname : l ≠ j.location g name)
    (hstaging : l ≠ j.location g (stagingName name)) : u.node? l = g.node? l := by
  rcases h with ⟨-, k, hk, -, -, -, hu⟩ | ⟨-, hu | ⟨k, left, hk, -, -, hu⟩⟩
  · rw [← location_of_directory hk] at hname hstaging
    rw [hu.node, FileTree.node?_set_of_ne _ _ hname, FileTree.node?_set_of_ne _ _ hstaging]
  · rw [hu.node]
  · rw [← location_of_directory hk] at hstaging
    rw [hu.node, FileTree.node?_set_of_ne _ _ hstaging]

theorem node?_of_renamed (h : j.Stage name content g log u) (hlog : j.Renamed name log) :
    u.node? (j.location g name) = some (.file content) := by
  obtain ⟨k, hk, -, -, -, hu⟩ := h.replaced hlog
  rw [← location_of_directory hk, hu.node, FileTree.node?_set_self]

end Stage

/-! ## Growing towards the directory -/

/-- Nothing was here and a directory has been made on the way to the directory of the journal. -/
def IsMade (j : Journal) (t u : FileTree) (l : Location) : Prop :=
  l <:+ t.goalOf j.directory ∧ t.node? l = none ∧ u.node? l = some .directory

section Grown

variable (hg : Grown (Fresh t j.directory) t g)
include hg

theorem location_of_grown (name : String) : j.location g name = j.location t name := by
  rw [location, location, hg.goalOf]

variable (hup : ".." ∉ steps j.directory)
include hup

theorem node?_location_of_grown (name : String) :
    g.node? (j.location t name) = t.node? (j.location t name) := by
  refine (hg.node _).resolve_right fun ⟨⟨_, hfresh⟩, _⟩ => ?_
  -- The directories that are made are above the file.
  have := (hfresh hup).length_le
  rw [location, List.length_cons] at this
  omega

theorem isMade_of_grown (l : Location) : g.node? l = t.node? l ∨ j.IsMade t g l :=
  (hg.node l).imp_right fun ⟨⟨_, hfresh⟩, hnone, hmade⟩ => ⟨hfresh hup, hnone, hmade⟩

end Grown

/-! ## A store from its start -/

/-- The directories are being made and nothing else. -/
abbrev Making (j : Journal) (t : FileTree) : List Deed → FileTree → Prop :=
  Undisturbed fun u => Grown (Fresh t j.directory) t u ∧ u.Sound

theorem upholds_createDirectories (j : Journal) (ht : t.Sound) :
    Upholds (j.Making t) (fun _ => j.Making t) (Procedure.disk.createDirectories j.directory) [] t :=
  (Procedure.keeps_createDirectories t j.directory [] t ⟨⟨.refl _ t, ht⟩, nofun⟩).mono
    (fun _ _ h => h) fun _ _ _ h _ => h

/-- There is a tree that has only grown, and of which the rest of the store has made the stage. -/
theorem upholds_store (hname : j.path.fileName? = some name) (ht : t.Sound) (r : Registry) :
    Upholds (fun log u => ∃ g, Grown (Fresh t j.directory) t g ∧ j.Stage name r.text.toUTF8 g log u)
      (fun result log u => ∃ g, Grown (Fresh t j.directory) t g ∧ j.Finished name g result log u)
      (j.store Procedure.disk r) [] t := by
  rw [store_eq]
  refine Upholds.except_bind (Q := fun _ => j.Making t) (upholds_accessing
    ((upholds_createDirectories j ht).mono (fun log u h => ?_) fun _ _ _ _ h => h))
    (fun e log u _ h => ?_) fun _ log u _ h => ?_
  · exact ⟨u, h.1.1, (Untouched.of_undisturbed h).stage (.inl (.refl u))⟩
  · exact ⟨u, h.1.1, (Untouched.of_undisturbed h).finished e⟩
  · exact (upholds_saveFile hname (.of_undisturbed h) u).mono (fun log v hv => ⟨u, h.1.1, hv⟩)
      fun result log v _ hv => ⟨u, h.1.1, hv⟩

theorem upholds_store_of_no_name (hname : j.path.fileName? = none) (ht : t.Sound) (r : Registry) :
    Upholds (j.Making t) (fun result _ _ => result ≠ .ok ()) (j.store Procedure.disk r) [] t := by
  rw [store_eq]
  refine Upholds.except_bind (Q := fun _ => j.Making t)
    (upholds_accessing (upholds_createDirectories j ht)) (fun _ _ _ _ _ => nofun) fun _ log u h _ => ?_
  unfold saveFile openParent
  rw [hname]
  exact ⟨h, nofun⟩

/-- However the operations of a store end and wherever it is broken off: the journal's file holds the
text of the registry if the staging file has been renamed, and what it held before otherwise; a store
that ends is successful just if the staging file has been renamed, and then or if the staging file
could be removed there is none; a store that could not rename the staging file does not end before it
has tried to remove it; and nothing else changes but directories that were missing. -/
theorem store_allOrNothing (j : Journal) (hup : Path.Component.up ∉ j.path.components) (r : Registry)
    (ht : t.Sound) {rest : Procedure (Except JournalError Unit)}
    (h : Reaches t (j.store Procedure.disk r) log u rest) :
    (∀ name, j.path.fileName? = some name →
      (j.Renamed name log → u.node? (j.location t name) = some (.file r.text.toUTF8) ∧
        j.content? u = some r.text.toUTF8) ∧
      (¬ j.Renamed name log → u.node? (j.location t name) = t.node? (j.location t name) ∧
        j.content? u = j.content? t) ∧
      ∀ result, rest = .done result → (result = .ok () ↔ j.Renamed name log) ∧
        (result = .ok () ∨ j.Cleared name log →
          u.node? (j.location t (stagingName name)) = none) ∧
        ∀ e, ⟨.rename j.directory (stagingName name) name, .error e⟩ ∈ log →
          ∃ answer, ⟨.removeFile j.directory (stagingName name), answer⟩ ∈ log) ∧
    (j.path.fileName? = none → rest ≠ .done (.ok ())) ∧
    ∀ l, (∀ name, j.path.fileName? = some name →
        l ≠ j.location t name ∧ l ≠ j.location t (stagingName name)) →
      u.node? l = t.node? l ∨ j.IsMade t u l := by
  have hup := up_not_mem_directory hup
  cases hname : j.path.fileName? with
  | none =>
    have hrest := (upholds_store_of_no_name hname ht r).of_reaches h
    refine ⟨nofun, fun _ hdone => ?_, fun l _ => isMade_of_grown hrest.now.1.1 hup l⟩
    rw [hdone] at hrest
    exact hrest.2 rfl
  | some name =>
    have hrest := (upholds_store hname ht r).of_reaches h
    obtain ⟨g, hg, hstage⟩ := hrest.now
    refine ⟨?_, nofun, fun l hl => ?_⟩
    · rintro _ ⟨⟩
      refine ⟨fun hlog => ⟨?_, (hstage.replaced hlog).content?_eq hname⟩,
        fun hlog => ⟨?_, (hstage.unfinished hlog).content?_eq hg hname ht hup⟩, ?_⟩
      · rw [← location_of_grown hg]
        exact hstage.node?_of_renamed hlog
      · rw [location, ← hg.goalOf, (hstage.unfinished hlog).node?_eq, hg.goalOf]
        exact node?_location_of_grown hg hup name
      · rintro result rfl
        obtain ⟨g', hg', hfinished⟩ := hrest.2
        rw [← location_of_grown hg']
        exact ⟨hfinished.isOk, hfinished.cleared, hfinished.clears⟩
    · obtain ⟨hne, hne'⟩ := hl name rfl
      rw [← location_of_grown hg] at hne hne'
      unfold IsMade
      rw [hstage.node?_of_ne hne hne']
      exact isMade_of_grown hg hup l

theorem sound_withFile (text : String) : (withFile text).Sound :=
  FileTree.Sound.of_set_in (d := ⟨"."⟩) (FileTree.sound_ofDirectory []) (by decide +kernel)
    (by decide +kernel)

/-- A store over a tree without faults comes to a staging file that can be removed. -/
theorem exists_staged : ∃ log u, Reaches (withFile "before") (store Procedure.disk ⟨⟨"j"⟩⟩ .empty) log u
    (replaceFile Procedure.disk ⟨⟨"j"⟩⟩ "j" (stagingName "j")).run ∧
      ∃ v, u.removeFile (directory ⟨⟨"j"⟩⟩) (stagingName "j") = .ok v := by
  let made := (FileTree.disk.createDirectories (directory ⟨⟨"j"⟩⟩) (withFile "before")).2
  let opened := (FileTree.disk.openDirectory (directory ⟨⟨"j"⟩⟩) made).2
  let written := (FileTree.disk.writeFile (directory ⟨⟨"j"⟩⟩) (stagingName "j")
    Registry.empty.text.toUTF8 opened).2
  have hmade : FileTree.disk.createDirectories (directory ⟨⟨"j"⟩⟩) (withFile "before") = (.ok (), made) :=
    Prod.ext (by decide +kernel) rfl
  have hopened : FileTree.disk.openDirectory (directory ⟨⟨"j"⟩⟩) made = (.ok (), opened) :=
    Prod.ext (by decide +kernel) rfl
  have hwritten : FileTree.disk.writeFile (directory ⟨⟨"j"⟩⟩) (stagingName "j")
      Registry.empty.text.toUTF8 opened = (.ok (), written) :=
    Prod.ext (by decide +kernel) rfl
  have hremoved : (written.removeFile (directory ⟨⟨"j"⟩⟩) (stagingName "j")).isOk = true := by
    decide +kernel
  clear_value made opened written
  obtain ⟨log, hlog⟩ := reaches_replaceFile Disk.actsOn_fileTree (by decide +kernel) .empty hmade hopened
    hwritten
  refine ⟨log, written, hlog, ?_⟩
  cases hremove : written.removeFile (directory ⟨⟨"j"⟩⟩) (stagingName "j") with
  | ok v => exact ⟨v, rfl⟩
  | error e =>
    rw [hremove] at hremoved
    cases hremoved

/-- Right before the staging file is renamed there is the old file, and in the end the new one; if
renaming fails there is still the old one, and the staging file is gone once it has been removed. -/
theorem store_allOrNothing_withFile :
    (∃ log u rest log' v, Reaches (withFile "before") (store Procedure.disk ⟨⟨"j"⟩⟩ .empty) log u rest ∧
      content? ⟨⟨"j"⟩⟩ u = some "before".toUTF8 ∧ Reaches u rest log' v (.done (.ok ())) ∧
      content? ⟨⟨"j"⟩⟩ v = some Registry.empty.text.toUTF8) ∧
    ∃ log u e, Reaches (withFile "before") (store Procedure.disk ⟨⟨"j"⟩⟩ .empty) log u (.done (.error e)) ∧
      ⟨.rename (directory ⟨⟨"j"⟩⟩) (stagingName "j") "j", .error .notFound⟩ ∈ log ∧
      (∃ answer, ⟨.removeFile (directory ⟨⟨"j"⟩⟩) (stagingName "j"), answer⟩ ∈ log) ∧
      content? ⟨⟨"j"⟩⟩ u = some "before".toUTF8 ∧
      u.node? (location ⟨⟨"j"⟩⟩ (withFile "before") (stagingName "j")) = none := by
  have hup : Path.Component.up ∉ (⟨"j"⟩ : Path).components := by decide +kernel
  have hname : (⟨"j"⟩ : Path).fileName? = some "j" := by decide +kernel
  have hbefore : content? ⟨⟨"j"⟩⟩ (withFile "before") = some "before".toUTF8 :=
    content?_withFile "before"
  constructor
  · obtain ⟨log, hlog⟩ := follows_store Disk.actsOn_fileTree ⟨⟨"j"⟩⟩ .empty (withFile "before")
    have hok : (store FileTree.disk ⟨⟨"j"⟩⟩ .empty (withFile "before")).1 = .ok () := by decide +kernel
    rw [hok] at hlog
    obtain ⟨hfile, -⟩ := store_allOrNothing ⟨⟨"j"⟩⟩ hup .empty (sound_withFile _) hlog
    obtain ⟨hafter, -, hdone⟩ := hfile "j" hname
    have hrenamed := (hdone _ rfl).1.1 rfl
    obtain ⟨log, log', rfl, hfirst⟩ := List.eq_append_cons_of_mem hrenamed
    obtain ⟨u, rest, hu, hrest⟩ := hlog.split
    obtain ⟨hfile, -⟩ := store_allOrNothing ⟨⟨"j"⟩⟩ hup .empty (sound_withFile _) hu
    exact ⟨log, u, rest, _, _, hu, ((hfile "j" hname).2.1 hfirst).2.trans hbefore, hrest,
      (hafter hrenamed).2⟩
  · obtain ⟨log, u, hlog, v, hv⟩ := exists_staged
    -- The staging file is refused its new name and then removed.
    let refused : Deed := ⟨.rename (directory ⟨⟨"j"⟩⟩) (stagingName "j") "j", .error .notFound⟩
    let removed : Deed := ⟨.removeFile (directory ⟨⟨"j"⟩⟩) (stagingName "j"), .ok ()⟩
    have hrest : Reaches u (replaceFile Procedure.disk ⟨⟨"j"⟩⟩ "j" (stagingName "j")).run
        [refused, removed] v (.done (.error (.access ⟨"j"⟩ .notFound))) :=
      .step (FileTree.SameFiles.refl u) (.step ⟨v, hv, .refl v⟩ (.here _ _))
    have hall := hlog.trans hrest
    obtain ⟨hfile, -⟩ := store_allOrNothing ⟨⟨"j"⟩⟩ hup .empty (sound_withFile _) hall
    obtain ⟨-, hleft, hdone⟩ := hfile "j" hname
    obtain ⟨hok, hcleared, hclears⟩ := hdone _ rfl
    have hrefused : refused ∈ log ++ [refused, removed] :=
      List.mem_append_right log (List.mem_cons_self ..)
    have hremoved : removed ∈ log ++ [refused, removed] :=
      List.mem_append_right log (List.mem_cons_of_mem _ (List.mem_singleton_self _))
    exact ⟨_, v, _, hall, hrefused, hclears _ hrefused, (hleft fun h => nomatch hok.2 h).2.trans hbefore,
      hcleared (.inr hremoved)⟩

end BlockShell.Journal
