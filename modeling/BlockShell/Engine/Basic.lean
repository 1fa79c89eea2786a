import BlockShell.Change

/-!
# Engines

An engine carries out changes and lists targets, with effects in some monad `m` and errors of its
own, which it can put into words.  A rejection is an engine's error together with the call it
rejected.
-/

namespace BlockShell

/-- What carries out changes and lists targets. -/
structure Engine (m : Type → Type) (ε : Type) where
  change : Change → m (Except ε Unit)
  list : m (Except ε (List Summary))
  describe : ε → String

/-- An engine's error, with the call that it rejected. -/
structure Rejection (ε : Type) where
  call : Call
  cause : ε
  deriving Repr, DecidableEq

namespace Engine

variable {m : Type → Type} [Monad m] {ε : Type} (e : Engine m ε)

/-- Asks for a change. -/
def perform (c : Change) : m (Except (Rejection ε) Unit) := do
  return (← e.change c).mapError fun cause => ⟨.change c, cause⟩

/-- Asks for a listing. -/
def summaries : m (Except (Rejection ε) (List Summary)) := do
  return (← e.list).mapError fun cause => ⟨.list, cause⟩

/-- What failed, and the engine's own words on it. -/
def rejectionMessage (r : Rejection ε) : String := r.call.failure ++ ": " ++ e.describe r.cause

end Engine

end BlockShell
