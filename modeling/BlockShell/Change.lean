import BlockShell.Target.OfArguments

/-!
# Changes

A change is what a shell may ask for that alters live state: a target is created or destroyed, a
block device is mapped onto a target or unmapped.  A call is a change or a request to list the
targets.
-/

namespace BlockShell

/-- A block device, known by its suffix, exposes a target. -/
structure Mapping where
  target : String
  readOnly : Bool
  deriving Repr, DecidableEq

/-- A change of live state. -/
inductive Change where
  | create (target : Target)
  | destroy (name : String)
  | map (suffix : String) (mapping : Mapping)
  | unmap (suffix : String)
  deriving Repr, DecidableEq

/-- What an engine may be asked for. -/
inductive Call where
  | change (c : Change)
  | list
  deriving Repr, DecidableEq

/-- A live target as a listing shows it. -/
structure Summary where
  name : String
  kind : Kind
  capacity : Sectors
  mappings : Nat
  deriving Repr, DecidableEq

namespace Change

/-! ## Changes from arguments -/

/-- The creation that the arguments describe. -/
def createOf (args : Arguments) : Except FieldError Change := (Target.ofArguments args).map create

/-- The destruction that the arguments describe; nothing but the name counts. -/
def destroyOf (args : Arguments) : Except FieldError Change :=
  (args.nonemptyText "name").map destroy

/-- The mapping that the arguments describe, which can be written to unless they say otherwise. -/
def mapOf (args : Arguments) : Except FieldError Change := do
  let suffix ← args.nonemptyText "bdev_suffix"
  let target ← args.nonemptyText "target_name"
  let readOnly ← args.flagOr "read_only" false
  return map suffix { target, readOnly }

/-- The unmapping that the arguments describe; nothing but the suffix counts. -/
def unmapOf (args : Arguments) : Except FieldError Change :=
  (args.nonemptyText "bdev_suffix").map unmap

end Change

/-- What failed, when a call is rejected. -/
def Call.failure : Call → String
  | change (.create target) => s!"failed to create target '{target.name}'"
  | change (.destroy name) => s!"failed to destroy target '{name}'"
  | change (.map suffix mapping) =>
    s!"failed to map block device '{suffix}' to target '{mapping.target}'"
  | change (.unmap suffix) => s!"failed to unmap block device '{suffix}'"
  | list => "failed to list targets"

end BlockShell
