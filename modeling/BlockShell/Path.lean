import BlockShell.Text.Split

/-!
# Paths

A path is a text, kept as it was given.  What it names depends only on its components: an anchor
(`/` for the root, a leading `.` for the current directory), then names and `..` steps.  Repeated
separators, a separator at the end, and every other `.` are no components.  `parent?` cuts a path's
text behind its last component but one, `fileName?` is the last component if that is a name.
-/

namespace BlockShell

/-- A path as it was given. -/
structure Path where
  text : String
  deriving Repr, DecidableEq, Inhabited

namespace Path

/-! ## Components -/

/-- A step of a path. -/
inductive Component where
  /-- The root directory, for a path that starts with a separator. -/
  | root
  /-- The current directory, written as a leading `.`. -/
  | here
  /-- The directory above. -/
  | up
  | name (s : String)
  deriving Repr, DecidableEq

/-- The text of a path split into its anchor, if it has one, and the rest. -/
def splitAnchor : List Char → Option Component × List Char
  | '/' :: rest => (some .root, rest)
  | ['.'] => (some .here, [])
  | '.' :: '/' :: rest => (some .here, '/' :: rest)
  | cs => (none, cs)

/-- Where a path starts, if it does not start where it is used. -/
def anchor? (p : Path) : Option Component := (splitAnchor p.text.toList).1

/-- The text of an anchor. -/
def anchorText : Option Component → String
  | some .root => "/"
  | some .here => "."
  | _ => ""

/-- The parts between separators behind the anchor, some of which are no components. -/
def segments (p : Path) : List String :=
  ((splitAnchor p.text.toList).2.splitOn '/').map String.ofList

/-- A segment that is no component. -/
def isFiller (segment : String) : Bool := segment == "" || segment == "."

/-- The component that a segment writes. -/
def componentOf (segment : String) : Component := if segment = ".." then .up else .name segment

/-- What a path names, step by step. -/
def components (p : Path) : List Component :=
  p.anchor?.toList ++ (p.segments.filter fun s => !isFiller s).map componentOf

/-- Two paths are spelled alike up to filler if they have the same components. -/
def SameAs (p q : Path) : Prop := p.components = q.components

instance (p q : Path) : Decidable (p.SameAs q) := inferInstanceAs (Decidable (_ = _))

/-! ## The last component and what is above it -/

/-- The segments from the last component backwards. -/
def backward (p : Path) : List String := p.segments.reverse.dropWhile isFiller

/-- The last component, if it is a name. -/
def fileName? (p : Path) : Option String :=
  match p.backward with
  | [] => none
  | last :: _ => if last = ".." then none else some last

/-- The path made of an anchor and of segments, the last one first. -/
def ofBackward (anchor : Option Component) (segments : List String) : Path :=
  ⟨anchorText anchor ++ "/".intercalate segments.reverse⟩

/-- The path without its last component.  The root and the empty path have none above them. -/
def parent? (p : Path) : Option Path :=
  match p.backward with
  | [] => if p.anchor? = some .here then some ⟨""⟩ else none
  | _ :: above => some (ofBackward p.anchor? (above.dropWhile isFiller))

/-- The paths above a path with the given anchor whose segments above the last component are
given, the last one first. -/
def pathsAbove (anchor : Option Component) : List String → List Path
  | [] => if anchor.isSome then [ofBackward anchor []] else []
  | segment :: rest =>
    if isFiller segment then pathsAbove anchor rest
    else ofBackward anchor (segment :: rest) :: pathsAbove anchor rest

/-- A path and the paths above it, from the longest to the shortest, without the empty one. -/
def ancestors (p : Path) : List Path :=
  match p.backward with
  | [] => [p]
  | _ :: above => p :: pathsAbove p.anchor? above

end Path

end BlockShell
