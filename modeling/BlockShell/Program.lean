import BlockShell.Engine.Registry
import BlockShell.Invocation
import BlockShell.Script
import BlockShell.Settings.Basic

/-!
# The program

A run of the program settles the settings, opens the registry, and then carries out a single
command, a script, or the standard input.  A session succeeds whatever its lines come to; a single
command succeeds if its line does.
-/

namespace BlockShell

/-- Why a run stops before its work is done. -/
inductive ProgramError where
  | settings (e : SettingsError)
  | engine (e : EngineError)
  /-- The script at `path` could not be opened. -/
  | script (path : Path) (cause : FileError)
  | scriptName (path : Path)
  | io (cause : FileError)
  deriving Repr, DecidableEq

/-- The error in words. -/
def ProgramError.message : ProgramError → String
  | settings e => "configuration error: " ++ e.message
  | engine e => "engine error: " ++ e.message
  | script path cause => "failed to open script " ++ path.text ++ ": " ++ cause.message
  | scriptName path => "failed to open script " ++ path.text ++ ": path has no file name"
  | io cause => "i/o error: " ++ cause.message

/-- What a run of the program leaves behind. -/
structure Result where
  code : Nat
  output : String
  errors : String
  deriving Repr, DecidableEq

namespace Result

/-- A run that was stopped by an error after it had written a transcript. -/
def stopped (e : ProgramError) (t : Transcript) : Result :=
  ⟨1, t.output, t.errors ++ e.message ++ "\n"⟩

/-- A run that was stopped by an error before it wrote anything. -/
def ofError (e : ProgramError) : Result := ⟨1, "", e.message ++ "\n"⟩

/-- The result of a session: a session that was not broken off succeeds. -/
def ofTranscript (t : Transcript) : Result :=
  match t.brokenBy with
  | some cause => stopped (.io cause) t
  | none => ⟨0, t.output, t.errors⟩

/-- Wrong arguments are answered by exit code 2. -/
def misuse : Result :=
  ⟨2, "", "Usage: ublksh [OPTIONS] [COMMAND]...\n\nFor more information, try '--help'.\n"⟩

end Result

namespace Program

/-- The help text of the program. -/
def usage : String := "\n".intercalate [
  "Compose virtual block-storage targets and map them to block devices",
  "",
  "Usage: ublksh [OPTIONS] [COMMAND]...",
  "",
  "Arguments:",
  "  [COMMAND]...  Run a single shell command and exit (for example `target_create name=t1" ++
    " capacity_sectors=8 type=null`)",
  "",
  "Options:",
  "      --script <PATH>   Read commands from a file instead of standard input",
  "      --journal <PATH>  Persist the target registry to this journal file, overriding the" ++
    " configured `journal_path`",
  "  -h, --help            Print help",
  "",
  "Without a COMMAND, commands are read one per line from standard input (or --script). Type" ++
    " 'help' inside the shell to list commands.",
  ""]

/-- Where the lines of a run come from. -/
inductive Source where
  | command (line : String)
  | script (path : Path)
  | standardInput
  deriving Repr, DecidableEq

/-- The words of a command come first, then a script; without both it is the standard input. -/
def Source.ofOptions (o : Options) : Source :=
  if !o.words.isEmpty then command (" ".intercalate o.words)
  else
    match o.script with
    | some path => script ⟨path⟩
    | none => standardInput

/-- What a run has to do: answer at once, or work through a source with the given settings. -/
inductive Plan where
  | answer (r : Result)
  | work (settings : Settings) (source : Source)
  deriving Repr, DecidableEq

/-- What a run with the given arguments has to do, by its environment. -/
def plan (arguments : List String) (env : Environment) : Plan :=
  match Invocation.read arguments with
  | .misuse => .answer .misuse
  | .help => .answer ⟨0, usage, ""⟩
  | .start o =>
    match Settings.resolve env o.journal with
    | .error e => .answer (.ofError (.settings e))
    | .ok settings => .work settings (.ofOptions o)

variable {m : Type → Type} [Monad m] (disk : Disk m)

/-- The registry to start from. -/
def openRegistry (s : Settings) : m (Except ProgramError Registry) :=
  match s.journal? with
  | none => return .ok .empty
  | some j => do return (← j.load disk).mapError fun e => .engine (.journal e)

/-- The engine that the settings ask for. -/
def engine (s : Settings) : Engine (StateT Registry m) EngineError :=
  match s.journal? with
  | none => .inMemory
  | some j => .journaled disk j

/-- Opens a script for reading. -/
def openScript (p : Path) : m (Except ProgramError (FileReader m)) :=
  match p.fileName? with
  | none => return .error (.scriptName p)
  | some name => do
    match ← disk.openDirectory (Journal.directoryOf p) with
    | .error e => return .error (.script p e)
    | .ok () => return (← disk.openFile (Journal.directoryOf p) name).mapError (.script p)

/-- Carries out a single command line. -/
def once {n : Type → Type} [Monad n] {ε : Type} (e : Engine n ε) (line : String) :
    n Result := do
  match ← e.execute line with
  | .ok (.proceed none) => return ⟨0, "", ""⟩
  | .ok (.proceed (some reply)) => return ⟨0, reply ++ "\n", ""⟩
  | .ok .leave => return ⟨0, farewell, ""⟩
  | .error err => return ⟨1, "", e.lineErrorMessage err ++ "\n"⟩

/-- A session over a console, which writes turn by turn, so that only the end of it is left to report.
There are at most as many lines as a file has bytes. -/
def conversation {n : Type → Type} [Monad n] (console : Console n) (answer : Bytes → n Outcome)
    (prompt : String) : n Result := do
  return .ofTranscript ⟨"", "", 0, 0, ← console.converse answer prompt fileLimit⟩

/-- Works through a source over the registry to start from; `conversation` is the session over the
standard input. -/
def work (s : Settings) (source : Source) (conversation : StateT Registry m Result) :
    StateT Registry m Result :=
  match source with
  | .command line => once (engine disk s) line
  | .standardInput => conversation
  | .script p => do
    match ← StateT.lift (openScript disk p) with
    | .error e => return .ofError e
    | .ok file =>
      return .ofTranscript (← (engine disk s).script fun position => StateT.lift (file position))

/-- A whole run of the program, whatever a session over the standard input is. -/
def runWith (arguments : List String) (env : Environment)
    (conversation : Settings → StateT Registry m Result) : m Result :=
  match plan arguments env with
  | .answer r => return r
  | .work s source => do
    match ← openRegistry disk s with
    | .error e => return .ofError e
    | .ok r => (work disk s source (conversation s)).run' r

/-- A whole run of the program, where `input` is the standard input and no terminal. -/
def run (arguments : List String) (env : Environment) (input : Bytes) : m Result :=
  runWith disk arguments env fun s => do
    return .ofTranscript (← (engine disk s).session "" input)

end Program

end BlockShell
