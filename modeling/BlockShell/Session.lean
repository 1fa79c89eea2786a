import BlockShell.Disk.Basic
import BlockShell.Shell

/-!
# Sessions

A session carries out the lines of a script one after the other.  A failing line does not end it;
an exit command, the end of the script, or a line that is not UTF-8 does.  Replies and failures are
written to two separate texts, and a session that is not broken off says goodbye.
-/

namespace BlockShell

/-- A sequence of bytes. -/
abbrev Bytes := List UInt8

/-! ## Lines -/

/-- A line without the carriage return at its end, if it has one. -/
def dropReturn (line : Bytes) : Bytes := if line.getLast? = some 13 then line.dropLast else line

/-- The lines of a script.  A line feed ends a line, and a carriage return before it is dropped;
what follows the last line feed is a line unless it is empty. -/
def Bytes.lines (script : Bytes) : List Bytes :=
  let pieces := script.splitOn 10
  pieces.dropLast.map dropReturn ++ pieces.getLast?.toList.filter (· ≠ [])

/-- The text that bytes encode in UTF-8, if they do. -/
def Bytes.text? (bytes : Bytes) : Option String := String.fromUTF8? bytes.toByteArray

/-! ## What one line comes to -/

/-- What a line comes to in a session. -/
inductive Outcome where
  /-- The line is blank. -/
  | skipped
  | done (reply : Option String)
  | failed (message : String)
  | left
  /-- The line is not UTF-8. -/
  | unreadable
  deriving Repr, DecidableEq

/-- What a session writes when it ends of its own accord. -/
def farewell : String := "Bye\n"

/-- What has been written and counted so far. -/
structure Transcript where
  output : String
  errors : String
  commands : Nat
  failures : Nat
  /-- Why the session was broken off, if it was: a line is not UTF-8, or no line could be read. -/
  brokenBy : Option FileError
  deriving Repr, DecidableEq

/-- One transcript after the other; the first reason for breaking off counts. -/
def Transcript.append (s t : Transcript) : Transcript where
  output := s.output ++ t.output
  errors := s.errors ++ t.errors
  commands := s.commands + t.commands
  failures := s.failures + t.failures
  brokenBy := s.brokenBy <|> t.brokenBy

instance : Append Transcript := ⟨Transcript.append⟩

namespace Outcome

/-- Whether no line is read after this one. -/
def ends : Outcome → Bool
  | left | unreadable => true
  | _ => false

/-- What the line adds to the transcript. -/
def transcript : Outcome → Transcript
  | skipped => ⟨"", "", 0, 0, none⟩
  | done none => ⟨"", "", 1, 0, none⟩
  | done (some reply) => ⟨reply ++ "\n", "", 1, 0, none⟩
  | failed message => ⟨"", message ++ "\n", 1, 1, none⟩
  | left => ⟨farewell, "", 1, 0, none⟩
  | unreadable => ⟨"", "", 0, 0, some .notText⟩

end Outcome

namespace Engine

variable {m : Type → Type} [Monad m] {ε : Type} (e : Engine m ε)

/-- Carries out one line as bytes. -/
def outcome (line : Bytes) : m Outcome :=
  match line.text? with
  | none => return .unreadable
  | some text =>
    if Text.allBlank text then return .skipped
    else do
      match ← e.execute text with
      | .ok (.proceed reply) => return .done reply
      | .ok .leave => return .left
      | .error err => return .failed (e.lineErrorMessage err)

/-- The transcript of a prompt alone. -/
def prompted (prompt : String) : Transcript := ⟨prompt, "", 0, 0, none⟩

/-- The session over the given lines; `prompt` is written before each attempt to read one. -/
def sessionOver (prompt : String) : List Bytes → m Transcript
  | [] => return prompted prompt ++ prompted farewell
  | line :: rest => do
    let o ← e.outcome line
    let t := prompted prompt ++ o.transcript
    if o.ends then return t
    else return t ++ (← sessionOver prompt rest)

/-- The session over the lines of a script. -/
def session (prompt : String) (script : Bytes) : m Transcript := e.sessionOver prompt script.lines

end Engine

/-! ## Consoles -/

/-- Where a session reads its lines, one at a time, and where it writes. -/
structure Console (m : Type → Type) where
  /-- The bytes up to and with the next line feed; none at the end of the input. -/
  read : m Bytes
  /-- Writes what is new in the transcript. -/
  write : Transcript → m Unit

namespace Console

variable {m : Type → Type} [Monad m] (console : Console m) (answer : Bytes → m Outcome)

/-- The prompt is written, then a line is read and answered.  At the end of the input there is no line,
and the session says goodbye. -/
def turn (prompt : String) : m (Option Outcome) := do
  console.write (Engine.prompted prompt)
  match (← console.read).lines.head? with
  | none =>
    console.write (Engine.prompted farewell)
    return none
  | some line =>
    let o ← answer line
    console.write o.transcript
    return some o

/-- A session that answers each line before it reads the next one, in a limited number of turns.  It
tells why it was broken off, if it was. -/
def converse (prompt : String) : Nat → m (Option FileError)
  | 0 => return none
  | limit + 1 => do
    match ← console.turn answer prompt with
    | none => return none
    | some o => if o.ends then return o.transcript.brokenBy else converse prompt limit

end Console

end BlockShell
