import BlockShell.Proofs.Runs
import BlockShell.Shell

/-!
# Commands over an engine

A command that asks for a change or for a listing asks the engine once, and the state after it is the
state that the engine leaves (`run_change`, `run_list`).
-/

namespace BlockShell.Engine

variable {m : Type → Type} [Monad m] {ε σ : Type}

/-- What a command that asks for a change comes to, given what the engine answers. -/
def changeAnswer (c : Change) : Except ε Unit → Except (LineError ε) Flow
  | .ok () => .ok (.proceed none)
  | .error cause => .error (.rejected ⟨.change c, cause⟩)

/-- What a command that asks for a listing comes to, given what the engine answers. -/
def listAnswer : Except ε (List Summary) → Except (LineError ε) Flow
  | .ok summaries => .ok (.proceed (Summary.listing? summaries))
  | .error cause => .error (.rejected ⟨.list, cause⟩)

section

variable (e : Engine m ε) (runs : Stateful m σ)

theorem run_change (c : Change) (s : σ) :
    runs.run (e.run (.change c)) s =
      let ran := runs.run (e.change c) s
      (changeAnswer c ran.1, ran.2) := by
  unfold run perform
  rw [runs.bind_apply, runs.bind_apply, runs.pure_apply]
  dsimp only
  cases (runs.run (e.change c) s).1 <;> exact runs.pure_apply ..

theorem run_list (s : σ) :
    runs.run (e.run .list) s =
      let ran := runs.run e.list s
      (listAnswer ran.1, ran.2) := by
  unfold run summaries
  rw [runs.bind_apply, runs.bind_apply, runs.pure_apply]
  dsimp only
  cases (runs.run e.list s).1 <;> exact runs.pure_apply ..

end

/-- A change over a state on top of another one. -/
theorem run_of_change {ρ : Type} {e : Engine (StateT ρ (StateM σ)) ε} {c : Change}
    {answer : Except ε Unit} {r r' : ρ} {s s' : σ}
    (h : e.change c r s = ((answer, r'), s')) :
    e.run (.change c) r s = ((changeAnswer c answer, r'), s') := by
  have hrun := e.run_change (.layered ρ σ) c (r, s)
  rw [Stateful.layered_eq_iff.2 h] at hrun
  exact Stateful.layered_eq_iff.1 hrun

end BlockShell.Engine
