import BlockShell.Arguments.Field
import BlockShell.Target.Kind

/-!
# Targets

A target is a named virtual disk: its capacity, a cache in front of it or none, and its layout on
the backing paths.  A composite layout stripes over legs that have a layout of their own.
-/

namespace BlockShell

/-- A cache of some length, which may pass writes on at once. -/
structure Cache where
  length : Sectors
  writeThrough : Bool
  deriving Repr, DecidableEq

/-- A stripe without redundancy. -/
structure Raid0 where
  stripLength : Sectors
  paths : List Path
  deriving Repr, DecidableEq

/-- The same data on every path.  A read length of zero reads whole requests from a single one. -/
structure Raid1 where
  readLength : Sectors
  paths : List Path
  deriving Repr, DecidableEq

/-- A stripe with dedicated parity. -/
structure Raid4 where
  stripLength : Sectors
  dataPaths : List Path
  parityPath : Path
  deriving Repr, DecidableEq

/-- A stripe with distributed parity. -/
structure Raid5 where
  stripLength : Sectors
  paths : List Path
  deriving Repr, DecidableEq

/-- How the data of a target lies on its paths. -/
inductive Layout where
  | null
  | inMemory
  | plain (path : Path)
  | raid0 (stripe : Raid0)
  | raid1 (copies : Raid1)
  | raid4 (stripe : Raid4)
  | raid5 (stripe : Raid5)
  | raid10 (stripLength : Sectors) (legs : List Raid1)
  | raid40 (stripLength : Sectors) (legs : List Raid4)
  | raid50 (stripLength : Sectors) (legs : List Raid5)
  deriving Repr, DecidableEq

/-- The kind of a layout. -/
def Layout.kind : Layout → Kind
  | null => .null
  | inMemory => .inMemory
  | plain _ => .plain
  | raid0 _ => .raid0
  | raid1 _ => .raid1
  | raid4 _ => .raid4
  | raid5 _ => .raid5
  | raid10 .. => .raid10
  | raid40 .. => .raid40
  | raid50 .. => .raid50

/-- A virtual disk. -/
structure Target where
  name : String
  capacity : Sectors
  cache : Option Cache
  layout : Layout
  deriving Repr, DecidableEq

end BlockShell
