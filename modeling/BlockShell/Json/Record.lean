import BlockShell.Json.Basic
import BlockShell.Table

/-!
# Records in JSON

A record has named fields in a fixed order.  It is written as an object, in which the fields stand
in any order among others that are ignored, or as an array of the fields and nothing else.  A field
that stands twice in an object, or a key without text, makes it no record.  A tagged record holds
the name of its variant under a key of its own, or as the first item of the array.
-/

namespace BlockShell.Json

/-! ## Scalars -/

/-- A truth value. -/
def bool? : Json → Option Bool
  | bool b => some b
  | _ => none

/-- A string that has text. -/
def string? : Json → Option String
  | string s => s
  | _ => none

/-- An unsigned number of 64 bits, written without sign, point and exponent. -/
def word? : Json → Option UInt64
  | number n => n.natural?.bind fun k =>
    if h : k < UInt64.size then some (UInt64.ofNatLT k h) else none
  | _ => none

/-- An array of items that can all be read. -/
def list? {α : Type} (item? : Json → Option α) : Json → Option (List α)
  | array items => items.mapM item?
  | _ => none

/-- The value of an optional field, which is absent if it is null. -/
def option? {α : Type} (value? : Json → Option α) : Json → Option (Option α)
  | null => some none
  | v => (value? v).map some

/-! ## Objects -/

/-- The member `name`, or `none` if there is none; refused if there are several. -/
def member? (members : List (Text × Json)) (name : String) : Option (Option Json) :=
  match members.filter fun e => e.1 == some name with
  | [] => some none
  | [e] => some (some e.2)
  | _ => none

/-- The fields of a record in order; an object may leave some out. -/
def fields? (names : List String) : Json → Option (List (Option Json))
  | array items => if items.length = names.length then some (items.map some) else none
  | object members =>
    if members.all fun e => e.1.isSome then names.mapM (member? members) else none
  | _ => none

/-- A tag and what stands beside it. -/
def tagged? (key : String) : Json → Option (String × Json)
  | array (tag :: items) => tag.string?.map fun s => (s, array items)
  | object members => do
    let tag ← ← member? members key
    return (← tag.string?, object (members.filter fun e => e.1 != some key))
  | _ => none

/-- A member whose key has text and whose value can be read. -/
def keyed? {α : Type} (value? : Json → Option α) (e : Text × Json) : Option (String × α) := do
  return (← e.1, ← value? e.2)

/-- The entries of an object as a table; of two entries with the same key the later one counts. -/
def table? {α : Type} (value? : Json → Option α) : Json → Option (Table α)
  | object members => (members.mapM (keyed? value?)).map Table.ofList
  | _ => none

/-- The object with the entries of a table. -/
def ofTable {α : Type} (ofValue : α → Json) (t : Table α) : Json :=
  record (t.toList.map fun e => (e.1, ofValue e.2))

end BlockShell.Json
