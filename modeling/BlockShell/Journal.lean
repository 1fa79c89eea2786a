import BlockShell.Disk.Basic
import BlockShell.Registry.Text

/-!
# Journals

A journal keeps a registry in a file.  Loading gives the empty registry if there is no file, or only
blanks in it.  Storing creates the directories above the file where they are missing, writes the
text to a staging file beside it, and puts that in its place in a single step, so that the file
holds the old registry or the new one and never a part.
-/

namespace BlockShell

/-- Why a journal cannot be loaded or stored. -/
inductive JournalError where
  /-- The file operation on `path` that failed. -/
  | access (path : Path) (cause : FileError)
  /-- The file holds a text that writes no registry.  What is wrong with the text is not told. -/
  | malformed (path : Path)
  | noFileName (path : Path)
  deriving Repr, DecidableEq

/-- The error in words, except for those of the reader of a malformed text, which would follow after
a colon. -/
def JournalError.message : JournalError → String
  | access path cause => "failed to access " ++ path.text ++ ": " ++ cause.message
  | malformed path => "failed to parse " ++ path.text
  | noFileName path => "journal path " ++ path.text ++ " is missing a filename"

/-- A journal is known by the path of its file. -/
structure Journal where
  path : Path
  deriving Repr, DecidableEq

namespace Journal

/-- The directory of a file; a bare name is in the current one. -/
def directoryOf (p : Path) : Path :=
  match p.parent? with
  | some parent => if parent.text = "" then ⟨"."⟩ else parent
  | none => ⟨"."⟩

/-- The directory of the journal's file. -/
def directory (j : Journal) : Path := directoryOf j.path

/-- What is added to the name of a file to name its staging file. -/
def stagingSuffix : String := ".tmp"

variable {m : Type → Type} [Monad m] (disk : Disk m) (j : Journal)

/-- Reports a failed file operation on `p`. -/
def accessing {α : Type} (p : Path) (operation : m (Except FileError α)) :
    ExceptT JournalError m α :=
  ExceptT.mk do return (← operation).mapError (.access p)

/-- The name of the journal's file, once its directory could be opened. -/
def openParent : ExceptT JournalError m String :=
  match j.path.fileName? with
  | none => throw (.noFileName j.path)
  | some name => do
    accessing j.directory (disk.openDirectory j.directory)
    return name

/-! ## Loading -/

/-- The registry in the content of the file. -/
def decode (content : ByteArray) : Except JournalError Registry :=
  match String.fromUTF8? content with
  | none => .error (.access j.path .notText)
  | some text =>
    if Text.allBlank text then .ok .empty
    else
      match Registry.ofText? text with
      | none => .error (.malformed j.path)
      | some r => .ok r

/-- The registry that the journal holds, the empty one if there is no file.  A directory that cannot be
opened is a failure only if something is there. -/
def load : m (Except JournalError Registry) := do
  match ← (j.openParent disk).run with
  | .ok name =>
    match ← disk.readFile j.directory name with
    | .ok content => return j.decode content
    | .error .notFound => return .ok .empty
    | .error e => return .error (.access j.path e)
  | .error (.access p e) =>
    if ← disk.pathExists j.directory then return .error (.access p e) else return .ok .empty
  | .error e => return .error e

/-! ## Storing -/

/-- Puts the staging file in the place of `name`; if that fails, the staging file is removed. -/
def replaceFile (name staging : String) : ExceptT JournalError m PUnit := ExceptT.mk do
  match ← disk.rename j.directory staging name with
  | .ok () => return .ok ()
  | .error e => do
    let _ ← disk.removeFile j.directory staging
    return .error (.access j.path e)

/-- Writes a registry to the journal by way of a staging file beside it. -/
def store (r : Registry) : m (Except JournalError Unit) := ExceptT.run do
  accessing j.directory (disk.createDirectories j.directory)
  let name ← j.openParent disk
  let staging := name ++ stagingSuffix
  accessing j.path (disk.writeFile j.directory staging r.text.toUTF8)
  j.replaceFile disk name staging

end Journal

end BlockShell
