import BlockShell.Disk.Basic

/-!
# File trees

A file tree says for every location whether there is a file, with its content, or a directory, and
which directory is the current one.  Paths are followed from left to right, and each step needs a
directory to stand in, so `x/..` leads nowhere unless `x` is a directory.  A file that has been
opened sees what is written to it, under whatever name, and outlives its removal.  A tree is a disk:
its operations are functions from trees to trees.
-/

namespace BlockShell

/-- The names on the way up to the root, the innermost first. -/
abbrev Location := List String

/-- What may be at a location. -/
inductive Node where
  | directory
  | file (content : ByteArray)

/-- What has been opened for reading. -/
structure OpenNode where
  /-- Where it is, unless it has been replaced or removed. -/
  location : Option Location
  node : Node

namespace OpenNode

variable (o : OpenNode)

/-- The file at `l` gets a new content. -/
def written (l : Location) (content : ByteArray) : OpenNode :=
  if o.location = some l then { o with node := .file content } else o

/-- What is at `l` is removed. -/
def removed (l : Location) : OpenNode :=
  if o.location = some l then { o with location := none } else o

/-- The file at `source` takes the place of what is at `target`. -/
def moved (source target : Location) : OpenNode :=
  if o.location = some source then { o with location := some target } else o.removed target

/-- The block that starts at a position. -/
def block (position : Nat) : Except FileError ByteArray :=
  match o.node with
  | .directory => .error .isDirectory
  | .file content => .ok (content.extract position (position + blockLimit))

end OpenNode

/-- All files and directories, and what has been opened. -/
structure FileTree where
  node? : Location → Option Node
  current : Location
  /-- All that has been opened, in this order. -/
  opened : List OpenNode

namespace FileTree

/-- The tree with the directory `current`, those above it, and nothing else. -/
def ofDirectory (current : Location) : FileTree where
  node? l := if l.isSuffixOf current then some .directory else none
  current := current
  opened := []

variable (t : FileTree)

/-- Puts something at a location, or nothing. -/
def set (l : Location) (node : Option Node) : FileTree :=
  { t with node? := fun k => if k = l then node else t.node? k }

/-- Tells everything that has been opened of a change. -/
def notify (change : OpenNode → OpenNode) : FileTree := { t with opened := t.opened.map change }

/-- Whether there is a directory at a location. -/
def isDirectory (l : Location) : Bool :=
  match t.node? l with
  | some .directory => true
  | _ => false

/-! ## Following paths -/

/-- The greatest length of a name, and the greatest of a path, in bytes. -/
def nameLimit : Nat := 255
/-- The greatest length of a path, in bytes. -/
def pathLimit : Nat := 4095

/-- One step from a directory. -/
def step (l : Location) (segment : String) : Except FileError Location :=
  match t.node? l with
  | none => .error .notFound
  | some (.file _) => .error .notDirectory
  | some .directory =>
    if Path.isFiller segment then .ok l
    else if segment = ".." then .ok l.tail
    else if nameLimit < segment.utf8ByteSize then .error .nameTooLong
    else if (t.node? (segment :: l)).isNone then .error .notFound
    else .ok (segment :: l)

/-- Where a path starts. -/
def start (p : Path) : Location := if p.text.toList.head? = some '/' then [] else t.current

/-- Refuses what cannot be the text of a path. -/
def checkPath (p : Path) : Except FileError Unit :=
  if p.text = "" then .error .notFound
  else if '\x00' ∈ p.text.toList then .error .nulInPath
  else if pathLimit < p.text.utf8ByteSize then .error .nameTooLong
  else .ok ()

/-- The parts of a path between separators, the anchor's included. -/
def steps (p : Path) : List String := Text.pieces '/' p.text

/-- Follows a path to the location where it leads. -/
def locate (p : Path) : Except FileError Location := do
  checkPath p
  (steps p).foldlM t.step (t.start p)

/-- Follows a path to a directory. -/
def directory (p : Path) : Except FileError Location := do t.step (← t.locate p) "."

/-! ## Creating directories -/

/-- The location at which a new directory would be created. -/
def freeLocation (p : Path) : Except FileError Location := do
  checkPath p
  match (steps p).reverse.dropWhile (· == "") with
  | [] => throw .alreadyExists
  | last :: above =>
    let l ← t.step (← above.reverse.foldlM t.step (t.start p)) "."
    if last = "." ∨ last = ".." then throw .alreadyExists
    if nameLimit < last.utf8ByteSize then throw .nameTooLong
    if (t.node? (last :: l)).isSome then throw .alreadyExists
    return last :: l

/-- Creates a single directory. -/
def createDirectory (p : Path) : Except FileError FileTree :=
  (t.freeLocation p).map fun l => t.set l (some .directory)

/-! ## Files -/

/-- The location of a name in a directory, whether or not there is anything. -/
def place (directory : Path) (name : String) : Except FileError Location := do
  let l ← t.directory directory
  if '\x00' ∈ name.toList then throw .invalidArgument
  if nameLimit < name.utf8ByteSize then throw .nameTooLong
  return name :: l

/-- The content of the file with a name in a directory. -/
def readFile (directory : Path) (name : String) : Except FileError ByteArray := do
  match t.node? (← t.place directory name) with
  | none => throw .notFound
  | some .directory => throw .isDirectory
  | some (.file content) => return content

/-- Writes a file, replacing what it held. -/
def writeFile (directory : Path) (name : String) (content : ByteArray) :
    Except FileError FileTree := do
  let l ← t.place directory name
  if t.isDirectory l then throw .isDirectory
  return (t.set l (some (.file content))).notify (·.written l content)

/-- Gives a file another name in its directory, replacing a file that has it. -/
def rename (directory : Path) (name newName : String) : Except FileError FileTree := do
  let content ← t.readFile directory name
  let source ← t.place directory name
  let target ← t.place directory newName
  if t.isDirectory target then throw .isDirectory
  return ((t.set source none).set target (some (.file content))).notify (·.moved source target)

/-- Removes a file. -/
def removeFile (directory : Path) (name : String) : Except FileError FileTree := do
  discard (t.readFile directory name)
  let l ← t.place directory name
  return (t.set l none).notify (·.removed l)

/-- Opens what has a name in a directory. -/
def openNode (directory : Path) (name : String) : Except FileError FileTree := do
  let l ← t.place directory name
  match t.node? l with
  | none => throw .notFound
  | some node => return { t with opened := t.opened ++ [⟨some l, node⟩] }

/-- The block at a position of what has been opened after `n` others. -/
def block (n position : Nat) : Except FileError ByteArray :=
  match t.opened[n]? with
  | none => .error .notFound
  | some o => o.block position

/-- An operation that changes the tree if it succeeds. -/
def update (f : FileTree → Except FileError FileTree) : StateM FileTree (Except FileError Unit) :=
  fun t => match f t with
  | .ok t => (.ok (), t)
  | .error e => (.error e, t)

/-- File trees as a disk. -/
def disk : Disk (StateM FileTree) where
  createDirectory p := update fun t => t.createDirectory p
  openDirectory p := fun t => ((t.directory p).map fun _ => (), t)
  pathExists p := fun t => ((t.locate p).isOk, t)
  readFile directory name := fun t => (t.readFile directory name, t)
  openFile directory name := fun t => match t.openNode directory name with
    | .ok u => (.ok fun position u => (u.block t.opened.length position, u), u)
    | .error e => (.error e, t)
  writeFile directory name content := update fun t => t.writeFile directory name content
  rename directory name newName := update fun t => t.rename directory name newName
  removeFile directory name := update fun t => t.removeFile directory name

end FileTree

end BlockShell
