import BlockShell.Command.Basic
import BlockShell.Engine.Basic

/-!
# The shell

The shell carries out one line at a time over an engine.  A line that cannot be read as a command
never reaches the engine.  What a line comes to is a flow: the session goes on, with a reply or
without one, or it is left.
-/

namespace BlockShell

/-- What a line comes to if it does not fail. -/
inductive Flow where
  | proceed (reply : Option String)
  | leave
  deriving Repr, DecidableEq

/-- Why a line fails: it is no command, or the engine rejects what it asks for. -/
inductive LineError (ε : Type) where
  | command (e : CommandError)
  | rejected (r : Rejection ε)
  deriving Repr, DecidableEq

namespace Summary

/-- A target in a listing. -/
def line (s : Summary) : String :=
  "name=" ++ s.name ++ " type=" ++ s.kind.name ++ " capacity_sectors=" ++
    toString s.capacity.toNat ++ " mappings=" ++ toString s.mappings

/-- One line for each target; without targets there is nothing to say. -/
def listing? (summaries : List Summary) : Option String :=
  if summaries.isEmpty then none else some ("\n".intercalate (summaries.map line))

end Summary

namespace Engine

variable {m : Type → Type} [Monad m] {ε : Type} (e : Engine m ε)

/-- The failure of a line in words. -/
def lineErrorMessage : LineError ε → String
  | .command err => err.message
  | .rejected r => e.rejectionMessage r

/-- Carries out a command. -/
def run : Command → m (Except (LineError ε) Flow)
  | .change c => do
    match ← e.perform c with
    | .ok () => return .ok (.proceed none)
    | .error r => return .error (.rejected r)
  | .list => do
    match ← e.summaries with
    | .ok summaries => return .ok (.proceed (Summary.listing? summaries))
    | .error r => return .error (.rejected r)
  | .help topic => return .ok (.proceed (some (Word.helpOn topic)))
  | .exit => return .ok .leave

/-- Carries out one line. -/
def execute (line : String) : m (Except (LineError ε) Flow) :=
  match Command.read? line with
  | .error err => return .error (.command err)
  | .ok none => return .ok (.proceed none)
  | .ok (some command) => e.run command

end Engine

end BlockShell
