import BlockShell.Path

/-!
# Disks

A disk carries out the file operations that journals and scripts need, with effects in some monad
`m`.  A file is addressed by a directory and a name in it.  Every operation may fail, for one of the
reasons in `FileError`, each with a fixed wording.
-/

namespace BlockShell

/-- Why a file operation fails. -/
inductive FileError where
  | notFound
  | alreadyExists
  | notDirectory
  | isDirectory
  | nameTooLong
  | invalidArgument
  /-- A path to be created has a NUL character. -/
  | nulInPath
  /-- A file that is read as a text is not UTF-8. -/
  | notText
  /-- Any other reason, in the words of whoever gives it. -/
  | other (reason : String)
  deriving Repr, DecidableEq

/-- The reason in words. -/
def FileError.message : FileError → String
  | notFound => "No such file or directory (os error 2)"
  | alreadyExists => "File exists (os error 17)"
  | notDirectory => "Not a directory (os error 20)"
  | isDirectory => "Is a directory (os error 21)"
  | nameTooLong => "File name too long (os error 36)"
  | invalidArgument => "Invalid argument (os error 22)"
  | nulInPath => "file name contained an unexpected NUL byte"
  | notText => "stream did not contain valid UTF-8"
  | other reason => reason

/-- A file that is open for reading: it gives the block that starts at a position, which is empty at
the end of the file and nowhere else. -/
abbrev FileReader (m : Type → Type) := Nat → m (Except FileError ByteArray)

/-- The greatest length of a block, in bytes. -/
def blockLimit : Nat := 8192

/-- The greatest length of a file, in bytes. -/
def fileLimit : Nat := 0x7fffffffffffffff

/-- The file operations of a disk. -/
structure Disk (m : Type → Type) where
  /-- Creates a single directory. -/
  createDirectory : Path → m (Except FileError Unit)
  /-- Fails unless the path leads to a directory. -/
  openDirectory : Path → m (Except FileError Unit)
  /-- Whether the path leads to anything. -/
  pathExists : Path → m Bool
  readFile (directory : Path) (name : String) : m (Except FileError ByteArray)
  /-- Opens a file, to be read while it may change.  A directory can be opened but not read. -/
  openFile (directory : Path) (name : String) : m (Except FileError (FileReader m))
  /-- Writes a file, replacing what it held. -/
  writeFile (directory : Path) (name : String) (content : ByteArray) : m (Except FileError Unit)
  /-- Gives a file another name, replacing a file that has it. -/
  rename (directory : Path) (name newName : String) : m (Except FileError Unit)
  removeFile (directory : Path) (name : String) : m (Except FileError Unit)

namespace Disk

variable {m : Type → Type} [Monad m] (disk : Disk m)

/-- A directory that could not be created is no failure if it is there. -/
def orPresent (p : Path) : Except FileError Unit → m (Except FileError Unit)
  | .ok () => return .ok ()
  | .error e => do return if (← disk.openDirectory p).isOk then .ok () else .error e

/-- Creates the first of the given directories; if its parent is missing, the others before it. -/
def createChain : List Path → m (Except FileError Unit)
  | [] => return .ok ()
  | p :: above => do
    match ← disk.createDirectory p with
    | .error .notFound =>
      match ← createChain above with
      | .ok () => disk.orPresent p (← disk.createDirectory p)
      | .error e => return .error e
    | r => disk.orPresent p r

/-- Creates a directory and those above it, as far as they are missing. -/
def createDirectories (p : Path) : m (Except FileError Unit) :=
  if p.text = "" then return .ok () else disk.createChain p.ancestors

end Disk

end BlockShell
