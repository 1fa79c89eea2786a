import BlockShell.Command.Word
import BlockShell.Proofs.Arguments.Writing
import BlockShell.Target.OfArguments

/-!
# Targets as command lines

`Target.createLine` is the line that asks for a target: the fields every target has, those of its
cache, then those of its layout.  The legs of a composite are texts of their own, with delimiters of
their own.  `Target.Writable` says which targets a line can ask for; what a text must not hold
depends on the delimiters around it.
-/

namespace BlockShell

/-! ## Fields -/

/-- The digits of a count of sectors. -/
def Sectors.text (n : Sectors) : String := toString n.toNat

/-- Paths with commas between them. -/
def pathsText (paths : List Path) : String := Text.join Arguments.itemDelimiter (paths.map Path.text)

/-- The fields of a stripe. -/
def Raid0.arguments (s : Raid0) : List (String × String) :=
  [("strip_len_sectors", s.stripLength.text), ("paths", pathsText s.paths)]

/-- The fields of copies. -/
def Raid1.arguments (s : Raid1) : List (String × String) :=
  [("paths", pathsText s.paths), ("read_len_sectors_per_path", s.readLength.text)]

/-- The fields of a stripe with parity. -/
def Raid4.arguments (s : Raid4) : List (String × String) :=
  [("strip_len_sectors", s.stripLength.text), ("data_paths", pathsText s.dataPaths),
    ("parity_path", s.parityPath.text)]

/-- The fields of a stripe with distributed parity. -/
def Raid5.arguments (s : Raid5) : List (String × String) :=
  [("strip_len_sectors", s.stripLength.text), ("paths", pathsText s.paths)]

/-- Legs with their delimiter between them, given the fields of each. -/
def legsText (legs : List (List (String × String))) : String :=
  Text.join Arguments.legDelimiter (legs.map (Arguments.textOf Arguments.fieldDelimiter))

/-- The fields of a composite whose legs stand under `key`. -/
def compositeArguments (key : String) (stripLength : Sectors)
    (legs : List (List (String × String))) : List (String × String) :=
  [("strip_len_sectors", stripLength.text), (key, legsText legs)]

/-- The fields of a layout, without its kind. -/
def Layout.arguments : Layout → List (String × String)
  | null | inMemory => []
  | plain path => [("path", path.text)]
  | raid0 s => s.arguments
  | raid1 s => s.arguments
  | raid4 s => s.arguments
  | raid5 s => s.arguments
  | raid10 n legs => compositeArguments "raid1s" n (legs.map Raid1.arguments)
  | raid40 n legs => compositeArguments "raid4s" n (legs.map Raid4.arguments)
  | raid50 n legs => compositeArguments "raid5s" n (legs.map Raid5.arguments)

/-- The digit of a flag. -/
def flagText (b : Bool) : String := if b then "1" else "0"

/-- The fields of a cache. -/
def Cache.arguments (c : Cache) : List (String × String) :=
  [("cache_len_sectors", c.length.text), ("cache_write_through_enable", flagText c.writeThrough)]

/-- The fields of a target, those of its kind last. -/
def Target.arguments (t : Target) : List (String × String) :=
  [("name", t.name), ("capacity_sectors", t.capacity.text), ("type", t.layout.kind.name)] ++
    (t.cache.map Cache.arguments).getD [] ++ t.layout.arguments

/-- The line that asks for a target. -/
def Target.createLine (t : Target) : String :=
  Word.targetCreate.text ++ " " ++ Arguments.textOf Arguments.wordDelimiter t.arguments

/-! ## What a line can ask for -/

/-- A text that can be the value of a field where none of the characters in `avoid` may stand. -/
structure IsValue (avoid : List Char) (s : String) : Prop where
  nonempty : s ≠ ""
  trimmed : Text.Trimmed s
  avoids : ∀ c ∈ avoid, c ∉ s.toList

/-- Paths that can be the items of a list. -/
def AreItems (avoid : List Char) (paths : List Path) : Prop :=
  paths ≠ [] ∧ ∀ p ∈ paths, IsValue (Arguments.itemDelimiter :: avoid) p.text

/-- The strip length is not zero, and the paths can be written. -/
def Raid0.Writable (avoid : List Char) (s : Raid0) : Prop :=
  0 < s.stripLength ∧ AreItems avoid s.paths

/-- The paths can be written; a read length of zero is allowed. -/
def Raid1.Writable (avoid : List Char) (s : Raid1) : Prop := AreItems avoid s.paths

/-- The strip length is not zero, the paths can be written, and the parity path is none of the
others. -/
def Raid4.Writable (avoid : List Char) (s : Raid4) : Prop :=
  0 < s.stripLength ∧ AreItems avoid s.dataPaths ∧ IsValue avoid s.parityPath.text ∧
    ∀ p ∈ s.dataPaths, ¬ p.SameAs s.parityPath

/-- The strip length is not zero, and the paths can be written. -/
def Raid5.Writable (avoid : List Char) (s : Raid5) : Prop :=
  0 < s.stripLength ∧ AreItems avoid s.paths

/-- What no value of a line may hold. -/
def lineDelimiters : List Char := [' ']

/-- What no value of a leg may hold: every delimiter around it, and quotes, which are dropped. -/
def legDelimiters : List Char := [' ', ':', ';', '"', '\'']

/-- Legs that can be the legs of a composite. -/
def AreLegs {α : Type} (writable : List Char → α → Prop) (legs : List α) : Prop :=
  legs ≠ [] ∧ ∀ l ∈ legs, writable legDelimiters l

/-- A layout that a line can ask for. -/
def Layout.Writable : Layout → Prop
  | null | inMemory => True
  | plain path => IsValue lineDelimiters path.text
  | raid0 s => s.Writable lineDelimiters
  | raid1 s => s.Writable lineDelimiters
  | raid4 s => s.Writable lineDelimiters
  | raid5 s => s.Writable lineDelimiters
  | raid10 n legs => 0 < n ∧ AreLegs Raid1.Writable legs
  | raid40 n legs => 0 < n ∧ AreLegs Raid4.Writable legs
  | raid50 n legs => 0 < n ∧ AreLegs Raid5.Writable legs

/-- A target that a line can ask for. -/
structure Target.Writable (t : Target) : Prop where
  name : IsValue lineDelimiters t.name
  capacity : 0 < t.capacity
  cache : ∀ c ∈ t.cache, 0 < c.length
  layout : t.layout.Writable

end BlockShell
