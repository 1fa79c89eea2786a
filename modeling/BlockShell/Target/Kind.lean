import BlockShell.Arguments.Error

/-!
# Kinds of targets

There are ten kinds, each with one name, written exactly so.
-/

namespace BlockShell

/-- The kinds of targets. -/
inductive Kind where
  /-- Discards writes and reads zeroes. -/
  | null
  /-- Keeps its data in memory. -/
  | inMemory
  /-- Backed by a single path. -/
  | plain
  | raid0
  | raid1
  | raid4
  | raid5
  /-- A stripe over legs of kind `raid1`. -/
  | raid10
  /-- A stripe over legs of kind `raid4`. -/
  | raid40
  /-- A stripe over legs of kind `raid5`. -/
  | raid50
  deriving Repr, DecidableEq

namespace Kind

/-- Every kind, in the order in which help lists them. -/
def all : List Kind :=
  [null, inMemory, plain, raid0, raid1, raid4, raid5, raid10, raid40, raid50]

/-- The name of a kind, as it is written. -/
def name : Kind → String
  | null => "null"
  | inMemory => "inmem"
  | plain => "default"
  | raid0 => "raid0"
  | raid1 => "raid1"
  | raid4 => "raid4"
  | raid5 => "raid5"
  | raid10 => "raid10"
  | raid40 => "raid40"
  | raid50 => "raid50"

/-- The kind with a given name. -/
def ofName? (s : String) : Option Kind := all.find? fun k => k.name == s

/-- The kind that a value names. -/
def read (s : String) : Except FieldError Kind :=
  match ofName? s with
  | some k => .ok k
  | none => .error (.unknownKind s)

theorem mem_all (k : Kind) : k ∈ all := by cases k <;> decide

theorem name_injective {k l : Kind} (h : k.name = l.name) : k = l := by
  revert h; cases k <;> cases l <;> decide

@[simp] theorem ofName?_name (k : Kind) : ofName? k.name = some k := by cases k <;> decide

theorem name_of_ofName? {s : String} {k : Kind} (h : ofName? s = some k) : k.name = s := by
  simpa using List.find?_some (p := fun k : Kind => k.name == s) h

end Kind

end BlockShell
