import BlockShell.Change

/-!
# The registry

The registry holds the live targets by name and the mapped block devices by suffix.  A change is
applied to it or rejected with the reason; a rejected change leaves no trace.
-/

namespace BlockShell

/-- The live targets by name, and the mapped block devices by suffix. -/
structure Registry where
  targets : Table Target
  mappings : Table Mapping
  deriving Repr, DecidableEq

/-- Why a change is rejected. -/
inductive RegistryError where
  | targetExists (name : String)
  | targetNotFound (name : String)
  | targetBusy (name : String) (mappings : Nat)
  | alreadyMapped (suffix : String)
  | notMapped (suffix : String)
  deriving Repr, DecidableEq

/-- The reason in words. -/
def RegistryError.message : RegistryError → String
  | targetExists name => s!"target '{name}' already exists"
  | targetNotFound name => s!"target '{name}' does not exist"
  | targetBusy name mappings =>
    s!"target '{name}' has " ++ toString mappings ++ " active mapping(s)"
  | alreadyMapped suffix => s!"block device suffix '{suffix}' is already mapped"
  | notMapped suffix => s!"block device suffix '{suffix}' is not mapped"

namespace Registry

/-- The registry without targets and block devices. -/
def empty : Registry := ⟨.empty, .empty⟩

instance : Inhabited Registry := ⟨empty⟩

variable (r : Registry)

/-- The number of block devices mapped onto the target `name`. -/
def mappingsOf (name : String) : Nat := r.mappings.values.countP fun m => m.target == name

/-! ## Changes -/

/-- Adds a target, whose name must be free. -/
def create (target : Target) : Except RegistryError Registry :=
  if r.targets.contains target.name then .error (.targetExists target.name)
  else .ok { r with targets := r.targets.insert target.name target }

/-- Takes away a target, which must be there and must have no block device mapped onto it. -/
def destroy (name : String) : Except RegistryError Registry :=
  if !r.targets.contains name then .error (.targetNotFound name)
  else if 0 < r.mappingsOf name then .error (.targetBusy name (r.mappingsOf name))
  else .ok { r with targets := r.targets.erase name }

/-- Maps a block device, whose suffix must be free, onto a target, which must be there. -/
def map (suffix : String) (mapping : Mapping) : Except RegistryError Registry :=
  if !r.targets.contains mapping.target then .error (.targetNotFound mapping.target)
  else if r.mappings.contains suffix then .error (.alreadyMapped suffix)
  else .ok { r with mappings := r.mappings.insert suffix mapping }

/-- Takes away a block device, which must be mapped. -/
def unmap (suffix : String) : Except RegistryError Registry :=
  if !r.mappings.contains suffix then .error (.notMapped suffix)
  else .ok { r with mappings := r.mappings.erase suffix }

/-- The registry after a change, unless the change is rejected. -/
def apply : Change → Except RegistryError Registry
  | .create target => r.create target
  | .destroy name => r.destroy name
  | .map suffix mapping => r.map suffix mapping
  | .unmap suffix => r.unmap suffix

/-! ## Listing -/

/-- A target with the number of block devices mapped onto it. -/
def summary (target : Target) : Summary where
  name := target.name
  kind := target.layout.kind
  capacity := target.capacity
  mappings := r.mappingsOf target.name

/-- The live targets, in the order of the names they are kept under. -/
def summaries : List Summary := r.targets.values.map r.summary

end Registry

end BlockShell
