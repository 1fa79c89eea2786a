import BlockShell.Json.Literal
import BlockShell.Json.Number

/-!
# JSON values

A value keeps what its text says: the digits of its numbers, the order of the members of an object
and their repetitions, and string literals that have no text.  Whoever reads a value decides what
of that is acceptable; `isPlain` asks for text and range throughout, and `depth` counts the
containers inside one another.
-/

namespace BlockShell

/-- A JSON value. -/
inductive Json where
  | null
  | bool (b : Bool)
  | number (n : Json.Number)
  | string (s : Json.Text)
  | array (items : List Json)
  | object (members : List (Json.Text × Json))
  deriving Repr

namespace Json

instance : Inhabited Json := ⟨null⟩

/-- The string with a given text. -/
def ofString (s : String) : Json := string (some s)

/-- The number with the digits of a natural number. -/
def ofNat (n : Nat) : Json := number (.ofNat n)

/-- The object with the given keys and values. -/
def record (fields : List (String × Json)) : Json :=
  object (fields.map fun e => (some e.1, e.2))

mutual

/-- Whether every string in a value has text and every number is in range. -/
def isPlain : Json → Bool
  | null | bool _ => true
  | number n => n.inRange
  | string s => s.isSome
  | array items => arePlain items
  | object members => membersPlain members

/-- Whether all items are plain. -/
def arePlain : List Json → Bool
  | [] => true
  | item :: items => item.isPlain && arePlain items

/-- Whether all members are plain and their keys have text. -/
def membersPlain : List (Text × Json) → Bool
  | [] => true
  | (key, value) :: members => key.isSome && value.isPlain && membersPlain members

end

mutual

/-- The greatest number of containers inside one another. -/
def depth : Json → Nat
  | null | bool _ | number _ | string _ => 0
  | array items => depthOfAll items + 1
  | object members => depthOfMembers members + 1

/-- The greatest depth of an item. -/
def depthOfAll : List Json → Nat
  | [] => 0
  | item :: items => max item.depth (depthOfAll items)

/-- The greatest depth of the value of a member. -/
def depthOfMembers : List (Text × Json) → Nat
  | [] => 0
  | (_, value) :: members => max value.depth (depthOfMembers members)

end

end Json

end BlockShell
