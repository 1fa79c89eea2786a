import BlockShell.Proofs.Engine.Changes
import BlockShell.Proofs.Engine.Commands
import BlockShell.Proofs.Engine.InMemory

/-!
# Shells one after the other

Lines may be carried out by one shell, or block by block by several shells, each opened over the
journal that the ones before have left.  If every registry could be stored, there is no difference:
the answers and the registry are those of a single shell without a journal (`shells_eq_single`).
-/

namespace BlockShell.Engine

/-- What a line comes to. -/
abbrev Answer := Except (LineError EngineError) Flow

/-- Whether the registry could not be stored. -/
def Answer.isUnsaved : Answer → Bool
  | .error (.rejected ⟨_, .journal _⟩) => true
  | _ => false

/-- A shell without a journal. -/
def single (lines : List String) : StateT Registry Id (List Answer) :=
  lines.mapM (inMemory (m := Id)).execute

/-- A shell that is opened over a journal. -/
def shell {σ : Type} (disk : Disk (StateM σ)) (j : Journal) (lines : List String) :
    StateM σ (Except JournalError (List Answer × Registry)) := do
  match ← j.load disk with
  | .error e => return .error e
  | .ok r => return .ok (← (lines.mapM (journaled disk j).execute).run r)

variable {σ : Type} {disk : Disk (StateM σ)} {tree : σ → FileTree} {j : Journal} {name : String}

/-! ## A single line -/

/-- A change in memory is answered as the registry answers it. -/
theorem run_change_inMemory (c : Change) (r : Registry) :
    (inMemory (m := Id)).run (.change c) r = match r.apply c with
      | .error e => (changeAnswer c (.error (.registry e)), r)
      | .ok next => (changeAnswer c (.ok ()), next) := by
  refine (inMemory.run_change (.self Registry) c r).trans ?_
  show (let ran := (inMemory (m := Id)).change c r; (changeAnswer c ran.1, ran.2)) = _
  rw [change_inMemory]
  cases r.apply c <;> rfl

/-- A line is answered as in memory, and what it changes is stored, unless storing fails. -/
theorem execute_cases (disk : Disk (StateM σ)) (j : Journal) (line : String) (r : Registry) (s : σ) :
    (((inMemory (m := Id)).execute line r).2 = r ∧
      (journaled disk j).execute line r s = ((inMemory (m := Id)).execute line r, s)) ∨
    (∃ s', j.store disk ((inMemory (m := Id)).execute line r).2 s = (.ok (), s') ∧
      (journaled disk j).execute line r s = ((inMemory (m := Id)).execute line r, s')) ∨
    Answer.isUnsaved ((journaled disk j).execute line r s).1.1 = true := by
  unfold execute
  rcases Command.read? line with err | _ | command
  · exact .inl ⟨rfl, rfl⟩
  · exact .inl ⟨rfl, rfl⟩
  cases command with
  | list => exact .inl ⟨rfl, rfl⟩
  | help topic => exact .inl ⟨rfl, rfl⟩
  | exit => exact .inl ⟨rfl, rfl⟩
  | change c =>
    have hchange := change_apply (j.store disk) c r s
    dsimp only
    rw [run_change_inMemory]
    cases happly : r.apply c with
    | error e =>
      rw [happly] at hchange
      exact .inl ⟨rfl, run_of_change hchange⟩
    | ok next =>
      dsimp only
      rcases hstore : j.store disk next s with ⟨e | _, s'⟩
      · rw [happly] at hchange
        dsimp only at hchange
        rw [hstore] at hchange
        rw [journaled, run_of_change hchange]
        exact .inr (.inr rfl)
      · rw [happly] at hchange
        dsimp only at hchange
        rw [hstore] at hchange
        exact .inr (.inl ⟨s', rfl, run_of_change hchange⟩)

variable {line : String} {lines : List String} {answer : Answer} {answers : List Answer}
  {r r' : Registry} {s s' : σ}

theorem execute_of_saved (hd : disk.ActsOn tree) (hname : j.path.fileName? = some name)
    (h : (journaled disk j).execute line r s = ((answer, r'), s'))
    (hsaved : answer.isUnsaved = false) (hload : j.loaded (tree s) = .ok r) :
    (inMemory (m := Id)).execute line r = (answer, r') ∧ j.loaded (tree s') = .ok r' := by
  rcases execute_cases disk j line r s with ⟨hr, he⟩ | ⟨s'', hstore, he⟩ | hunsaved
  · obtain ⟨he, rfl⟩ := Prod.mk.inj (he.symm.trans h)
    rw [he] at hr
    cases hr
    exact ⟨he, hload⟩
  · obtain ⟨he, rfl⟩ := Prod.mk.inj (he.symm.trans h)
    rw [he] at hstore
    have hends := Journal.store_ends hd hname s r'
    rw [hstore] at hends
    exact ⟨he, hends.loaded hname⟩
  · rw [h, hsaved] at hunsaved
    cases hunsaved

/-! ## Runs of lines -/

theorem single_cons (line : String) (lines : List String) (r : Registry) :
    single (line :: lines) r =
      let first := (inMemory (m := Id)).execute line r
      let rest := single lines first.2
      (first.1 :: rest.1, rest.2) :=
  mapM_cons_apply ..

theorem single_append (lines lines' : List String) (r : Registry) :
    single (lines ++ lines') r =
      let first := single lines r
      let rest := single lines' first.2
      (first.1 ++ rest.1, rest.2) :=
  mapM_append_apply ..

theorem single_of_saved (hd : disk.ActsOn tree) (hname : j.path.fileName? = some name)
    (h : lines.mapM (journaled disk j).execute r s = ((answers, r'), s'))
    (hsaved : ∀ a ∈ answers, a.isUnsaved = false) (hload : j.loaded (tree s) = .ok r) :
    single lines r = (answers, r') ∧ j.loaded (tree s') = .ok r' := by
  induction lines generalizing r s answers with
  | nil =>
    cases h
    exact ⟨rfl, hload⟩
  | cons line lines ih =>
    obtain ⟨_, _, _, _, hfirst, hrest, rfl⟩ := exists_of_mapM_cons h
    obtain ⟨hanswer, hanswers⟩ := List.forall_mem_cons.1 hsaved
    obtain ⟨he, hload⟩ := execute_of_saved hd hname hfirst hanswer hload
    obtain ⟨hsingle, hload⟩ := ih hrest hanswers hload
    refine ⟨?_, hload⟩
    rw [single_cons, he]
    dsimp only
    rw [hsingle]

/-! ## Shells -/

section Shells

variable {t t' : FileTree} {blocks : List (List String)}

/-- Whatever had to be stored was stored. -/
def Saved (outcomes : List (Except JournalError (List Answer × Registry))) : Prop :=
  ∀ o ∈ outcomes, ∀ answers r, o = .ok (answers, r) → ∀ a ∈ answers, a.isUnsaved = false

/-- The registry of the last shell; before the first one it is `r`. -/
def lastRegistry (r : Registry) (shells : List (List Answer × Registry)) : Registry :=
  (shells.getLast?.map (·.2)).getD r

theorem lastRegistry_cons (r r₁ : Registry) (answers : List Answer)
    (shells : List (List Answer × Registry)) :
    lastRegistry r ((answers, r₁) :: shells) = lastRegistry r₁ shells := by
  unfold lastRegistry
  rw [List.getLast?_cons]
  cases shells.getLast? <;> rfl

theorem shells_cons {first : List Answer × Registry} (blocks : List (List String))
    (hload : j.loaded t = .ok r)
    (hfirst : lines.mapM (journaled FileTree.disk j).execute r t = (first, t')) :
    (lines :: blocks).mapM (shell FileTree.disk j) t =
      let rest := blocks.mapM (shell FileTree.disk j) t'
      (.ok first :: rest.1, rest.2) := by
  have hstate := j.load_state t
  have hshell : shell FileTree.disk j lines t = (.ok first, t') := by
    unfold shell
    rw [Disk.bind_apply, hstate]
    unfold Journal.loaded at hload
    rw [hload]
    show (Except.ok (lines.mapM (journaled FileTree.disk j).execute r t).1,
      (lines.mapM (journaled FileTree.disk j).execute r t).2) = _
    rw [hfirst]
  rw [List.mapM_cons, Disk.bind_apply, hshell]
  rfl

/-- Shells over a journal that is loaded as `r` do what one shell does that starts from `r`. -/
theorem single_of_shells {outcomes : List (Except JournalError (List Answer × Registry))}
    (hname : j.path.fileName? = some name)
    (h : blocks.mapM (shell FileTree.disk j) t = (outcomes, t')) (hsaved : Saved outcomes)
    (hload : j.loaded t = .ok r) :
    ∃ shells : List (List Answer × Registry), outcomes = shells.map .ok ∧
      single blocks.flatten r = ((shells.map (·.1)).flatten, lastRegistry r shells) ∧
      j.loaded t' = .ok (lastRegistry r shells) := by
  induction blocks generalizing r t outcomes with
  | nil =>
    cases h
    exact ⟨[], rfl, rfl, hload⟩
  | cons lines blocks ih =>
    rcases hfirst : lines.mapM (journaled FileTree.disk j).execute r t with ⟨⟨answers, r₁⟩, t₁⟩
    rcases hrest : blocks.mapM (shell FileTree.disk j) t₁ with ⟨rest, t₂⟩
    rw [shells_cons blocks hload hfirst, hrest] at h
    cases h
    obtain ⟨hanswers, hsaved⟩ := List.forall_mem_cons.1 hsaved
    obtain ⟨hsingle, hload⟩ :=
      single_of_saved Disk.actsOn_fileTree hname hfirst (hanswers answers r₁ rfl) hload
    obtain ⟨shells, rfl, hshells, hload⟩ := ih hrest hsaved hload
    refine ⟨(answers, r₁) :: shells, rfl, ?_, ?_⟩
    · rw [List.flatten_cons, single_append, hsingle]
      dsimp only
      rw [hshells, lastRegistry_cons]
      rfl
    · rw [lastRegistry_cons]
      exact hload

/-- Shells over a journal that has no file yet do what one shell without a journal does. -/
theorem shells_eq_single {outcomes : List (Except JournalError (List Answer × Registry))}
    (habsent : j.Absent t) (h : blocks.mapM (shell FileTree.disk j) t = (outcomes, t'))
    (hsaved : Saved outcomes) :
    ∃ shells : List (List Answer × Registry), outcomes = shells.map .ok ∧
      single blocks.flatten .empty = ((shells.map (·.1)).flatten, lastRegistry .empty shells) ∧
      j.loaded t' = .ok (lastRegistry .empty shells) := by
  have hload := habsent.loaded
  obtain ⟨name, hname, -⟩ := habsent
  exact single_of_shells hname h hsaved hload

/-- A target is created by one shell and destroyed by the next one. -/
def twoBlocks : List (List String) :=
  [["target_create name=t capacity_sectors=8 type=null"], ["target_destroy name=t"]]

/-- The directory of the journal is missing. -/
theorem shells_eq_single_of_twoBlocks :
    ∃ outcomes t', twoBlocks.mapM (shell FileTree.disk ⟨⟨"d/j"⟩⟩) (.ofDirectory []) =
        (outcomes, t') ∧
      Saved outcomes ∧
      ∃ shells : List (List Answer × Registry), outcomes = shells.map .ok ∧
        single twoBlocks.flatten .empty =
          ((shells.map (·.1)).flatten, lastRegistry .empty shells) ∧
        Journal.loaded ⟨⟨"d/j"⟩⟩ t' = .ok (lastRegistry .empty shells) := by
  have hname : (Path.mk "d/j").fileName? = some "j" := by decide
  have habsent : Journal.Absent ⟨⟨"d/j"⟩⟩ (.ofDirectory []) := ⟨"j", hname, .inr (by decide)⟩
  have hcreated : ∀ a ∈ (["target_create name=t capacity_sectors=8 type=null"].mapM
      (journaled FileTree.disk ⟨⟨"d/j"⟩⟩).execute .empty (.ofDirectory [])).1.1,
      Answer.isUnsaved a = false := by
    decide +kernel
  have hdestroyed : ∀ a ∈ (["target_destroy name=t"].mapM
      (journaled FileTree.disk ⟨⟨"d/j"⟩⟩).execute
        (["target_create name=t capacity_sectors=8 type=null"].mapM
          (journaled FileTree.disk ⟨⟨"d/j"⟩⟩).execute .empty (.ofDirectory [])).1.2
        (["target_create name=t capacity_sectors=8 type=null"].mapM
          (journaled FileTree.disk ⟨⟨"d/j"⟩⟩).execute .empty (.ofDirectory [])).2).1.1,
      Answer.isUnsaved a = false := by
    decide +kernel
  obtain ⟨created, r₁, t₁, hfirst⟩ := exists_outcome
    (["target_create name=t capacity_sectors=8 type=null"].mapM
      (journaled FileTree.disk ⟨⟨"d/j"⟩⟩).execute .empty (.ofDirectory []))
  rw [hfirst] at hcreated hdestroyed
  dsimp only at hcreated hdestroyed
  obtain ⟨destroyed, r₂, t₂, hsecond⟩ := exists_outcome (["target_destroy name=t"].mapM
    (journaled FileTree.disk ⟨⟨"d/j"⟩⟩).execute r₁ t₁)
  rw [hsecond] at hdestroyed
  have hload : Journal.loaded ⟨⟨"d/j"⟩⟩ t₁ = .ok r₁ :=
    (single_of_saved Disk.actsOn_fileTree hname hfirst hcreated habsent.loaded).2
  have hrun : twoBlocks.mapM (shell FileTree.disk ⟨⟨"d/j"⟩⟩) (.ofDirectory []) =
      ([.ok (created, r₁), .ok (destroyed, r₂)], t₂) := by
    have hrest := shells_cons [] hload hsecond
    rw [twoBlocks, shells_cons _ habsent.loaded hfirst]
    dsimp only
    rw [hrest]
    rfl
  have hsaved : Saved [.ok (created, r₁), .ok (destroyed, r₂)] := by
    refine List.forall_mem_cons.2 ⟨?_, List.forall_mem_cons.2 ⟨?_, nofun⟩⟩
    · rintro answers r ⟨⟩
      exact hcreated
    · rintro answers r ⟨⟩
      exact hdestroyed
  exact ⟨_, t₂, hrun, hsaved, shells_eq_single habsent hrun hsaved⟩

end Shells

end BlockShell.Engine
