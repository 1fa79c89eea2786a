import BlockShell.Target.Basic

/-!
# Targets from arguments

The fields of a target are checked in a fixed order and the first one that is wrong is reported:
name, capacity, the two cache fields, the kind, then the fields of that kind.  The legs of a
composite are checked from left to right, each as a target of the leg's kind would be.
-/

namespace BlockShell

/-- A stripe, from its own fields. -/
def Raid0.ofArguments (args : Arguments) : Except FieldError Raid0 := do
  let stripLength ← args.positiveSectors "strip_len_sectors"
  let paths ← args.paths "paths"
  return { stripLength, paths }

/-- Copies, from their own fields. -/
def Raid1.ofArguments (args : Arguments) : Except FieldError Raid1 := do
  let readLength ← args.sectorsOr "read_len_sectors_per_path" 0
  let paths ← args.paths "paths"
  return { readLength, paths }

/-- The parity path must differ, as a path, from every data path. -/
def Raid4.ofArguments (args : Arguments) : Except FieldError Raid4 := do
  let stripLength ← args.positiveSectors "strip_len_sectors"
  let dataPaths ← args.paths "data_paths"
  let parityPath : Path := ⟨← args.nonemptyText "parity_path"⟩
  if ∃ p ∈ dataPaths, p.SameAs parityPath then
    throw (.reusedPath "parity_path" parityPath.text)
  return { stripLength, dataPaths, parityPath }

/-- A stripe with distributed parity, from its own fields. -/
def Raid5.ofArguments (args : Arguments) : Except FieldError Raid5 := do
  let stripLength ← args.positiveSectors "strip_len_sectors"
  let paths ← args.paths "paths"
  return { stripLength, paths }

/-! ## Legs -/

/-- A leg may be quoted in any way; quotes are no part of its fields. -/
def dropQuotes (s : String) : String :=
  String.ofList (s.toList.filter fun c => c != '"' && c != '\'')

/-- The arguments of the leg written as `group`. -/
def Arguments.ofLeg (group : String) : Arguments :=
  .ofText Arguments.fieldDelimiter (dropQuotes group)

/-- The leg lists built from the groups, which stand at `position` and after. -/
def buildLegs {α : Type} (build : Arguments → Except FieldError α) (field : String) :
    Nat → List String → Except FieldError (List α)
  | _, [] => .ok []
  | position, group :: groups =>
    match build (.ofLeg group) with
    | .error cause => .error (.inLeg field position cause)
    | .ok leg => (buildLegs build field (position + 1) groups).map (leg :: ·)

/-- The legs in a required field, each from its own fields. -/
def Arguments.legs {α : Type} (build : Arguments → Except FieldError α) (args : Arguments)
    (field : String) : Except FieldError (List α) := do
  let list ← args.nonemptyText field
  buildLegs build field 0 (Text.pieces Arguments.legDelimiter list)

/-! ## Layouts and targets -/

/-- Fields that belong to other kinds are ignored. -/
def Layout.ofArguments (kind : Kind) (args : Arguments) : Except FieldError Layout :=
  match kind with
  | .null => .ok .null
  | .inMemory => .ok .inMemory
  | .plain => (args.nonemptyText "path").map fun s => .plain ⟨s⟩
  | .raid0 => (Raid0.ofArguments args).map .raid0
  | .raid1 => (Raid1.ofArguments args).map .raid1
  | .raid4 => (Raid4.ofArguments args).map .raid4
  | .raid5 => (Raid5.ofArguments args).map .raid5
  | .raid10 => do
    let stripLength ← args.positiveSectors "strip_len_sectors"
    return .raid10 stripLength (← args.legs Raid1.ofArguments "raid1s")
  | .raid40 => do
    let stripLength ← args.positiveSectors "strip_len_sectors"
    return .raid40 stripLength (← args.legs Raid4.ofArguments "raid4s")
  | .raid50 => do
    let stripLength ← args.positiveSectors "strip_len_sectors"
    return .raid50 stripLength (← args.legs Raid5.ofArguments "raid5s")

/-- Both cache fields are checked even when no cache results, which is when the length is zero. -/
def Cache.ofArguments (args : Arguments) : Except FieldError (Option Cache) := do
  let length ← args.sectorsOr "cache_len_sectors" 0
  let writeThrough ← args.flagOr "cache_write_through_enable" true
  return if 0 < length then some { length, writeThrough } else none

/-- A target, from all of its fields. -/
def Target.ofArguments (args : Arguments) : Except FieldError Target := do
  let name ← args.nonemptyText "name"
  let capacity ← args.positiveSectors "capacity_sectors"
  let cache ← Cache.ofArguments args
  let kind ← Kind.read (← args.text "type")
  let layout ← Layout.ofArguments kind args
  return { name, capacity, cache, layout }

end BlockShell
