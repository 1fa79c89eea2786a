import BlockShell.Arguments.Basic
import BlockShell.Arguments.Error
import BlockShell.Path
import BlockShell.Text.Decimal

/-!
# Typed fields

A field of the arguments is read as a text, a count of sectors, a flag or a list of paths.  A field
may be required, required to be nonempty, or have a default for when it is absent; a default never
stands in for a value that is there and wrong.  An invalid value is reported as it was given.
-/

namespace BlockShell

/-- A count of sectors. -/
abbrev Sectors := UInt64

namespace Arguments

/-! ## Values -/

/-- The count of sectors that a value writes. -/
def readSectors (field value : String) : Except FieldError Sectors :=
  match Text.word? (Text.trim value) with
  | some n => .ok n
  | none => .error (.invalid field value)

/-- A flag is a number, set unless it is zero. -/
def readFlag (field value : String) : Except FieldError Bool :=
  match Text.flag? (Text.trim value) with
  | some b => .ok b
  | none => .error (.invalid field value)

/-- The items of a list; the empty text has one item, which is empty. -/
def readItems (value : String) : List String := (Text.pieces itemDelimiter value).map Text.trim

/-! ## Fields -/

variable (args : Arguments)

/-- The value of a required field. -/
def text (field : String) : Except FieldError String :=
  match args.get? field with
  | some value => .ok value
  | none => .error (.missing field)

/-- The value of a required field, which must not be the empty text. -/
def nonemptyText (field : String) : Except FieldError String := do
  let value ← args.text field
  if value = "" then throw (.missing field)
  return value

/-- The count of sectors in a required field, which must not be zero. -/
def positiveSectors (field : String) : Except FieldError Sectors := do
  let value ← args.text field
  let n ← readSectors field value
  if n = 0 then throw (.invalid field value)
  return n

/-- The count of sectors in a field that may be absent. -/
def sectorsOr (field : String) (default : Sectors) : Except FieldError Sectors :=
  match args.get? field with
  | some value => readSectors field value
  | none => .ok default

/-- The flag in a field that may be absent. -/
def flagOr (field : String) (default : Bool) : Except FieldError Bool :=
  match args.get? field with
  | some value => readFlag field value
  | none => .ok default

/-- A list in which no item may be empty. -/
def items (field : String) : Except FieldError (List String) := do
  let items := readItems (← args.text field)
  if "" ∈ items then throw (.missing field)
  return items

/-- The paths in a required field. -/
def paths (field : String) : Except FieldError (List Path) :=
  (args.items field).map (·.map Path.mk)

end Arguments

end BlockShell
