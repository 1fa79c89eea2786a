import BlockShell.Program

/-!
# The executable

Runs the program on the real environment, files and standard streams.
-/

namespace BlockShell.Main

/-! ## The real disk -/

/-- The failure of a file operation, by its number. -/
def fileError : IO.Error → FileError
  | .noFileOrDirectory .. => .notFound
  | .alreadyExists .. => .alreadyExists
  | .inappropriateType _ 20 _ => .notDirectory
  | .inappropriateType _ 21 _ => .isDirectory
  | .invalidArgument _ 36 _ => .nameTooLong
  | .invalidArgument _ 22 _ => .invalidArgument
  | e => .other (toString e)

/-- A file operation, whose failure is a result. -/
def attempt {α : Type} (action : IO α) : IO (Except FileError α) := do
  try
    return .ok (← action)
  catch e =>
    return .error (fileError e)

/-- The text of the path of a name in a directory. -/
def inside (directory : Path) (name : String) : String := directory.text ++ "/" ++ name

/-- Opens something to see whether it is there. -/
def probe (text : String) : IO Unit := do
  let _ ← IO.FS.Handle.mk text .read

/-- The operations on the real files. -/
def disk : Disk IO where
  createDirectory p := attempt (IO.FS.createDir p.text)
  openDirectory p := attempt (probe (inside p "."))
  pathExists p := do return (← attempt (probe p.text)).isOk
  readFile directory name := attempt (IO.FS.readBinFile (inside directory name))
  openFile directory name := attempt do
    let file ← IO.FS.Handle.mk (inside directory name) .read
    return fun _ => attempt (file.read blockLimit.toUSize)
  writeFile directory name content := attempt (IO.FS.writeBinFile (inside directory name) content)
  rename directory name newName :=
    attempt (IO.FS.rename (inside directory name) (inside directory newName))
  removeFile directory name := attempt (IO.FS.removeFile (inside directory name))

/-! ## Streams -/

/-- Writes what is new in a transcript, the replies first. -/
def write (t : Transcript) : IO Unit := do
  (← IO.getStdout).putStr t.output
  (← IO.getStdout).flush
  (← IO.getStderr).putStr t.errors

/-- Writes what a run leaves to report, and gives its exit code. -/
def report (r : Result) : IO UInt32 := do
  write ⟨r.output, r.errors, 0, 0, none⟩
  return r.code.toUInt32

/-- The bytes up to and with the next line feed; none at the end of the input. -/
partial def readLine (input : IO.FS.Stream) (line : ByteArray) : IO ByteArray := do
  let next ← input.read 1
  if next.isEmpty || next.data.contains 10 then return line ++ next
  else readLine input (line ++ next)

/-- The standard streams as a console. -/
def console (input : IO.FS.Stream) : Console (StateT Registry IO) where
  read := do return (← readLine input .empty).data.toList
  write t := write t

/-- The session over the standard input, which prompts if that is a terminal. -/
def conversation (s : Settings) : StateT Registry IO Result := do
  let input ← IO.getStdin
  let prompt := if ← input.isTty then s.prompt else ""
  Program.conversation (console input) (Program.engine disk s).outcome prompt

/-! ## The real environment -/

/-- The environment at the start of the program, whose entries end with a NUL character. -/
def environment : IO Environment := do
  let entries := (← IO.FS.readBinFile "/proc/self/environ").data.toList.splitOn 0
  return .ofEntries (entries.filterMap Bytes.text?)

/-! ## A run -/

/-- A run of the program, with its exit code. -/
def run (arguments : List String) : IO UInt32 := do
  report (← Program.runWith disk arguments (← environment) conversation)

end BlockShell.Main

/-- The entry point. -/
def main (arguments : List String) : IO UInt32 := BlockShell.Main.run arguments
