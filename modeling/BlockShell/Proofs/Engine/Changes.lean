import BlockShell.Engine.Registry
import BlockShell.Proofs.Disk.Faults
import BlockShell.Proofs.Journal.InStep

/-!
# Changes over a journal

What a change does to the registry of an engine and to its journal, however the operations of the
disk fail (`change_inStep`): an answer without an error puts both at the new registry, an error leaves
both as they were.  What each change keeps, a run of changes keeps (`run_induction`).
-/

namespace BlockShell.Engine

open Disk (Fresh)
open FileTree (Grown steps)

variable {σ : Type}

/-! ## A single change -/

/-- A change is applied to the registry and the result is saved; only then is it kept. -/
theorem change_apply (save : Registry → StateM σ (Except JournalError Unit)) (c : Change)
    (r : Registry) (s : σ) :
    (saving save).change c r s = match r.apply c with
      | .error e => ((.error (.registry e), r), s)
      | .ok next => match save next s with
        | (.error e, s') => ((.error (.journal e), r), s')
        | (.ok (), s') => ((.ok (), next), s') := by
  unfold saving
  dsimp only [bind, StateT.bind, get, getThe, MonadStateOf.get, StateT.get, pure, StateT.pure]
  cases r.apply c with
  | error e => rfl
  | ok next =>
    dsimp only [liftM, monadLift, MonadLift.monadLift, StateT.lift, bind, StateT.bind, pure,
      StateT.pure]
    rcases save next s with ⟨_ | _, s'⟩ <;> rfl

/-- What a change does to a registry and to the file of a journal. -/
def Answered (j : Journal) (c : Change) (r : Registry) (t : FileTree) (r' : Registry)
    (t' : FileTree) : Except EngineError Unit → Prop
  | .ok () => r.apply c = .ok r' ∧ j.content? t' = some r'.text.toUTF8 ∧ j.loaded t' = .ok r'
  | .error (.registry e) => r.apply c = .error e ∧ r' = r ∧ t'.SameFiles t
  | .error (.journal _) => r' = r ∧ j.content? t' = j.content? t

section Journaled

variable {disk : Disk (StateM σ)} {tree : σ → FileTree} {j : Journal} {name : String} {c : Change}
  {r r' : Registry} {s s' : σ} {answer : Except EngineError Unit}

/-- The ways in which a change may end. -/
inductive Ends (disk : Disk (StateM σ)) (tree : σ → FileTree) (j : Journal) (name : String)
    (c : Change) (r : Registry) (s : σ) : Except EngineError Unit → Registry → FileTree → Prop
  | rejected (e : RegistryError) : r.apply c = .error e →
      Ends disk tree j name c r s (.error (.registry e)) r (tree s)
  | unsaved (next : Registry) (e : JournalError) (u : FileTree) : r.apply c = .ok next →
      j.Unfinished name (tree (disk.createDirectories j.directory s).2) u →
      Ends disk tree j name c r s (.error (.journal e)) r u
  | saved (next : Registry) (u : FileTree) : r.apply c = .ok next →
      j.Replaced name next.text.toUTF8 (tree (disk.createDirectories j.directory s).2) u →
      Ends disk tree j name c r s (.ok ()) next u

theorem change_ends (hd : disk.ActsOn tree) (hname : j.path.fileName? = some name)
    (h : (journaled disk j).change c r s = ((answer, r'), s')) :
    Ends disk tree j name c r s answer r' (tree s') := by
  unfold journaled at h
  rw [change_apply] at h
  cases happly : r.apply c with
  | error e =>
    rw [happly] at h
    cases h
    exact .rejected e happly
  | ok next =>
    have hends := Journal.store_ends hd hname s next
    rw [happly] at h
    dsimp only at h
    rcases hstore : j.store disk next s with ⟨e | _, s''⟩
    · rw [hstore] at h hends
      cases h
      exact .unsaved next e _ happly hends
    · rw [hstore] at h hends
      cases h
      exact .saved _ _ happly hends

/-- Memory and disk stay in step. -/
theorem change_inStep (hd : disk.ActsOn tree) (hup : ".." ∉ steps j.directory)
    (hs : (tree s).Sound) (hin : j.InStep (tree s) r)
    (h : (journaled disk j).change c r s = ((answer, r'), s')) :
    ((tree s').Sound ∧ j.InStep (tree s') r') ∧
      Answered j c r (tree s) r' (tree s') answer := by
  obtain ⟨name, hname⟩ := hin.exists_name
  obtain ⟨hgrown, hsound⟩ := Disk.createDirectories_grown hd j.directory hs
  generalize hu : tree s' = u
  cases hu ▸ change_ends hd hname h with
  | rejected e happly => exact ⟨⟨hs, hin⟩, happly, rfl, .refl _⟩
  | unsaved next e _ happly hleft =>
    obtain ⟨hin', hcontent⟩ := hleft.inStep hgrown hname hs hsound hup hin
    exact ⟨⟨hleft.sound hsound, hin'⟩, rfl, hcontent⟩
  | saved _ _ happly hstored =>
    have hload := hstored.loaded hname
    exact ⟨⟨hstored.sound hsound, .inl hload⟩, happly, hstored.content?_eq hname, hload⟩

end Journaled

/-! ## Runs of changes -/

/-- What a computation comes to, taken apart without computing it. -/
theorem exists_outcome {α : Type} (x : (α × Registry) × σ) : ∃ a r s, x = ((a, r), s) :=
  ⟨_, _, _, rfl⟩

/-- A run starts with its first step. -/
theorem exists_of_mapM_cons {α β : Type} {f : α → StateT Registry (StateM σ) β} {x : α} {xs : List α}
    {answers : List β} {r r' : Registry} {s s' : σ}
    (h : (x :: xs).mapM f r s = ((answers, r'), s')) :
    ∃ first r₁ s₁ rest, f x r s = ((first, r₁), s₁) ∧ xs.mapM f r₁ s₁ = ((rest, r'), s') ∧
      answers = first :: rest := by
  have happly : (x :: xs).mapM f r s =
      let (first, s₁) := f x r s
      let (rest, s₂) := xs.mapM f first.2 s₁
      ((first.1 :: rest.1, rest.2), s₂) := by
    rw [List.mapM_cons]
    rfl
  rcases hfirst : f x r s with ⟨⟨first, r₁⟩, s₁⟩
  rcases hrest : xs.mapM f r₁ s₁ with ⟨⟨rest, r₂⟩, s₂⟩
  simp only [happly, hfirst, hrest] at h
  cases h
  exact ⟨first, r₁, s₁, rest, rfl, hrest, rfl⟩

variable {ε : Type} {e : Engine (StateT Registry (StateM σ)) ε}

/-- What every change with an answer of a kind keeps, a run with such answers keeps. -/
theorem run_induction {P : Registry → σ → Prop} {Q : Except ε Unit → Prop}
    (hstep : ∀ {c r s answer r' s'}, e.change c r s = ((answer, r'), s') → Q answer → P r s → P r' s')
    {changes : List Change} {answers : List (Except ε Unit)} {r r' : Registry} {s s' : σ}
    (h : changes.mapM e.change r s = ((answers, r'), s')) (hanswers : ∀ a ∈ answers, Q a)
    (hP : P r s) : P r' s' := by
  induction changes generalizing r s answers with
  | nil =>
    cases h
    exact hP
  | cons c changes ih =>
    obtain ⟨_, _, _, _, hfirst, hrest, rfl⟩ := exists_of_mapM_cons h
    obtain ⟨hanswer, hanswers⟩ := List.forall_mem_cons.1 hanswers
    exact ih hrest hanswers (hstep hfirst hanswer hP)

end BlockShell.Engine
