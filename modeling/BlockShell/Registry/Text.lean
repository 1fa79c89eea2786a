import BlockShell.Json.Printer
import BlockShell.Json.Reader
import BlockShell.Json.Record
import BlockShell.Registry.Basic

/-!
# The text of a registry

A registry is written as JSON, its fields in the order of their declaration and its tables in the
order of their keys.  It is read from any JSON text that writes the same records; the values are
not checked beyond their types.  What stands beside the tag of a layout is kept until the tag is
known, so it must be plain and must not nest too deeply, even where it is then ignored.
-/

namespace BlockShell

/-! ## Writing -/

/-- A count of sectors as a number. -/
def Sectors.toJson (n : Sectors) : Json := .ofNat n.toNat

/-- A path as a string. -/
def Path.toJson (p : Path) : Json := .ofString p.text

/-- Paths as an array. -/
def pathsToJson (paths : List Path) : Json := .array (paths.map Path.toJson)

/-- A cache as a record. -/
def Cache.toJson (c : Cache) : Json :=
  .record [("len_sectors", c.length.toJson), ("write_through_enable", .bool c.writeThrough)]

/-- The fields of a stripe. -/
def Raid0.fields (s : Raid0) : List (String × Json) :=
  [("strip_len_sectors", s.stripLength.toJson), ("paths", pathsToJson s.paths)]

/-- The fields of copies. -/
def Raid1.fields (s : Raid1) : List (String × Json) :=
  [("read_len_sectors_per_path", s.readLength.toJson), ("paths", pathsToJson s.paths)]

/-- The fields of a stripe with parity. -/
def Raid4.fields (s : Raid4) : List (String × Json) :=
  [("strip_len_sectors", s.stripLength.toJson), ("data_paths", pathsToJson s.dataPaths),
    ("parity_path", s.parityPath.toJson)]

/-- The fields of a stripe with distributed parity. -/
def Raid5.fields (s : Raid5) : List (String × Json) :=
  [("strip_len_sectors", s.stripLength.toJson), ("paths", pathsToJson s.paths)]

/-- The fields of a composite whose legs stand under `key`. -/
def legFields {α : Type} (key : String) (fields : α → List (String × Json)) (stripLength : Sectors)
    (legs : List α) : List (String × Json) :=
  [("strip_len_sectors", stripLength.toJson),
    (key, .array (legs.map fun l => .record (fields l)))]

/-- The fields of a layout, without its tag. -/
def Layout.fields : Layout → List (String × Json)
  | null | inMemory => []
  | plain path => [("path", path.toJson)]
  | raid0 s => s.fields
  | raid1 s => s.fields
  | raid4 s => s.fields
  | raid5 s => s.fields
  | raid10 n legs => legFields "raid1s" Raid1.fields n legs
  | raid40 n legs => legFields "raid4s" Raid4.fields n legs
  | raid50 n legs => legFields "raid5s" Raid5.fields n legs

/-- A layout as a record tagged with its kind. -/
def Layout.toJson (l : Layout) : Json := .record (("type", .ofString l.kind.name) :: l.fields)

/-- A target as a record. -/
def Target.toJson (t : Target) : Json :=
  .record [("name", .ofString t.name), ("capacity_sectors", t.capacity.toJson),
    ("cache", (t.cache.map Cache.toJson).getD .null), ("target", t.layout.toJson)]

/-- A mapping as a record. -/
def Mapping.toJson (m : Mapping) : Json :=
  .record [("target_name", .ofString m.target), ("read_only", .bool m.readOnly)]

/-- A registry as a record of two tables. -/
def Registry.toJson (r : Registry) : Json :=
  .record [("targets", .ofTable Target.toJson r.targets),
    ("mappings", .ofTable Mapping.toJson r.mappings)]

/-- The text of a registry. -/
def Registry.text (r : Registry) : String := r.toJson.pretty

/-! ## Reading -/

/-- The path that a string writes. -/
def Path.ofJson? (v : Json) : Option Path := v.string?.map Path.mk

/-- The paths in an array. -/
def pathsOfJson? : Json → Option (List Path) := Json.list? Path.ofJson?

/-- The cache that a record writes. -/
def Cache.ofJson? (v : Json) : Option Cache := do
  match ← v.fields? ["len_sectors", "write_through_enable"] with
  | [some length, some writeThrough] => return ⟨← length.word?, ← writeThrough.bool?⟩
  | _ => none

/-- The stripe that a record writes. -/
def Raid0.ofJson? (v : Json) : Option Raid0 := do
  match ← v.fields? ["strip_len_sectors", "paths"] with
  | [some stripLength, some paths] => return ⟨← stripLength.word?, ← pathsOfJson? paths⟩
  | _ => none

/-- The copies that a record writes. -/
def Raid1.ofJson? (v : Json) : Option Raid1 := do
  match ← v.fields? ["read_len_sectors_per_path", "paths"] with
  | [some readLength, some paths] => return ⟨← readLength.word?, ← pathsOfJson? paths⟩
  | _ => none

/-- The stripe with parity that a record writes. -/
def Raid4.ofJson? (v : Json) : Option Raid4 := do
  match ← v.fields? ["strip_len_sectors", "data_paths", "parity_path"] with
  | [some stripLength, some dataPaths, some parityPath] =>
    return ⟨← stripLength.word?, ← pathsOfJson? dataPaths, ← Path.ofJson? parityPath⟩
  | _ => none

/-- The stripe with distributed parity that a record writes. -/
def Raid5.ofJson? (v : Json) : Option Raid5 := do
  match ← v.fields? ["strip_len_sectors", "paths"] with
  | [some stripLength, some paths] => return ⟨← stripLength.word?, ← pathsOfJson? paths⟩
  | _ => none

/-- The strip length of a composite and its legs under `key`. -/
def legsOfJson? {α : Type} (key : String) (leg? : Json → Option α) (v : Json) :
    Option (Sectors × List α) := do
  match ← v.fields? ["strip_len_sectors", key] with
  | [some stripLength, some legs] => return (← stripLength.word?, ← Json.list? leg? legs)
  | _ => none

/-- What may stand beside the tag of a kind without fields: any members, but no items. -/
def noFields? {α : Type} (a : α) : Json → Option α
  | .object _ | .array [] => some a
  | _ => none

/-- How deep a layout may nest: it stands inside three containers, and 127 are allowed in all. -/
def Layout.depthLimit : Nat := 124

/-- The layout of a kind from what stands beside the tag. -/
def Layout.ofFields? (v : Json) : Kind → Option Layout
  | .null => noFields? null v
  | .inMemory => noFields? inMemory v
  | .plain => do
    match ← v.fields? ["path"] with
    | [some path] => return plain (← Path.ofJson? path)
    | _ => none
  | .raid0 => (Raid0.ofJson? v).map raid0
  | .raid1 => (Raid1.ofJson? v).map raid1
  | .raid4 => (Raid4.ofJson? v).map raid4
  | .raid5 => (Raid5.ofJson? v).map raid5
  | .raid10 => (legsOfJson? "raid1s" Raid1.ofJson? v).map fun e => raid10 e.1 e.2
  | .raid40 => (legsOfJson? "raid4s" Raid4.ofJson? v).map fun e => raid40 e.1 e.2
  | .raid50 => (legsOfJson? "raid5s" Raid5.ofJson? v).map fun e => raid50 e.1 e.2

/-- The layout that a tagged record writes. -/
def Layout.ofJson? (v : Json) : Option Layout :=
  if v.isPlain && v.depth ≤ depthLimit then do
    let (tag, rest) ← v.tagged? "type"
    Layout.ofFields? rest (← Kind.ofName? tag)
  else none

/-- A target that is written without a cache has none. -/
def Target.ofJson? (v : Json) : Option Target := do
  match ← v.fields? ["name", "capacity_sectors", "cache", "target"] with
  | [some name, some capacity, cache, some layout] =>
    return ⟨← name.string?, ← capacity.word?, ← (cache.getD .null).option? Cache.ofJson?,
      ← Layout.ofJson? layout⟩
  | _ => none

/-- The mapping that a record writes. -/
def Mapping.ofJson? (v : Json) : Option Mapping := do
  match ← v.fields? ["target_name", "read_only"] with
  | [some target, some readOnly] => return ⟨← target.string?, ← readOnly.bool?⟩
  | _ => none

/-- The registry that a record writes. -/
def Registry.ofJson? (v : Json) : Option Registry := do
  match ← v.fields? ["targets", "mappings"] with
  | [some targets, some mappings] =>
    return ⟨← targets.table? Target.ofJson?, ← mappings.table? Mapping.ofJson?⟩
  | _ => none

/-- The registry that a text writes. -/
def Registry.ofText? (s : String) : Option Registry := (Json.read? s).bind Registry.ofJson?

end BlockShell
