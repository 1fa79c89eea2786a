import BlockShell.Engine.Basic
import BlockShell.Journal

/-!
# The registry engine

An engine over a registry that is saved before a change counts: the change is applied to the
registry, the result is saved, and only then does it become the state.  A change that is rejected
is not saved, and one that cannot be saved is given up.
-/

namespace BlockShell

/-- Why a call is rejected: the registry does not allow it, or it could not be saved. -/
inductive EngineError where
  | registry (e : RegistryError)
  | journal (e : JournalError)
  deriving Repr, DecidableEq

/-- The error in words. -/
def EngineError.message : EngineError → String
  | registry e => e.message
  | journal e => "journal error: " ++ e.message

namespace Engine

variable {m : Type → Type} [Monad m]

/-- The engine over a registry that `save` keeps. -/
def saving (save : Registry → m (Except JournalError Unit)) :
    Engine (StateT Registry m) EngineError where
  change c := do
    match (← get).apply c with
    | .error e => return .error (.registry e)
    | .ok next =>
      match ← save next with
      | .error e => return .error (.journal e)
      | .ok () => do
        set next
        return .ok ()
  list := return .ok (← get).summaries
  describe := EngineError.message

/-- The engine over a registry that is in memory only. -/
def inMemory : Engine (StateT Registry m) EngineError := saving fun _ => return .ok ()

/-- The engine over a registry that is kept in a journal. -/
def journaled (disk : Disk m) (j : Journal) : Engine (StateT Registry m) EngineError :=
  saving (j.store disk)

end Engine

end BlockShell
