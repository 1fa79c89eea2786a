import BlockShell.Proofs.Registry.Sight
import BlockShell.Proofs.Target.Reading

/-!
# Valid registries

What the sizes and paths of a target must be, at both levels of a composite, and what a registry of
such targets must be (`Registry.Valid`).  A change that a line asks for creates nothing else
(`Change.valid_of_read?`), and such a change keeps a registry valid (`Registry.Accepts.valid`).
-/

namespace BlockShell

/-! ## Targets -/

/-- There are paths, and none of them is empty. -/
def ArePaths (paths : List Path) : Prop := paths ≠ [] ∧ ∀ p ∈ paths, p.text ≠ ""

/-- The strip length is not zero, and the paths are proper. -/
def Raid0.Valid (s : Raid0) : Prop := 0 < s.stripLength ∧ ArePaths s.paths

/-- The paths are proper; a read length of zero is allowed. -/
def Raid1.Valid (s : Raid1) : Prop := ArePaths s.paths

/-- The parity path is none of the data paths. -/
def Raid4.Valid (s : Raid4) : Prop :=
  0 < s.stripLength ∧ ArePaths s.dataPaths ∧ s.parityPath.text ≠ "" ∧
    ∀ p ∈ s.dataPaths, ¬ p.SameAs s.parityPath

/-- The strip length is not zero, and the paths are proper. -/
def Raid5.Valid (s : Raid5) : Prop := 0 < s.stripLength ∧ ArePaths s.paths

/-- The strip length and the legs of a composite. -/
def ValidLegs {α : Type} (valid : α → Prop) (stripLength : Sectors) (legs : List α) : Prop :=
  0 < stripLength ∧ legs ≠ [] ∧ ∀ l ∈ legs, valid l

/-- What a layout holds is what its kind requires. -/
def Layout.Valid : Layout → Prop
  | null | inMemory => True
  | plain path => path.text ≠ ""
  | raid0 s => s.Valid
  | raid1 s => s.Valid
  | raid4 s => s.Valid
  | raid5 s => s.Valid
  | raid10 n legs => ValidLegs Raid1.Valid n legs
  | raid40 n legs => ValidLegs Raid4.Valid n legs
  | raid50 n legs => ValidLegs Raid5.Valid n legs

/-- The lengths of a target are not zero, and its layout is valid. -/
structure Target.Valid (t : Target) : Prop where
  capacity : 0 < t.capacity
  cache : ∀ c ∈ t.cache, 0 < c.length
  layout : t.layout.Valid

/-! ## What lines ask for -/

section Writable

variable {avoid : List Char}

theorem AreItems.arePaths {paths : List Path} (h : AreItems avoid paths) : ArePaths paths :=
  ⟨h.1, fun p hp => (h.2 p hp).nonempty⟩

theorem Raid0.valid_of_writable {s : Raid0} (h : s.Writable avoid) : s.Valid := ⟨h.1, h.2.arePaths⟩

theorem Raid1.valid_of_writable {s : Raid1} (h : s.Writable avoid) : s.Valid := AreItems.arePaths h

theorem Raid4.valid_of_writable {s : Raid4} (h : s.Writable avoid) : s.Valid :=
  let ⟨hstrip, hpaths, hparity, hapart⟩ := h
  ⟨hstrip, hpaths.arePaths, hparity.nonempty, hapart⟩

theorem Raid5.valid_of_writable {s : Raid5} (h : s.Writable avoid) : s.Valid := ⟨h.1, h.2.arePaths⟩

theorem validLegs_of_areLegs {α : Type} {writable : List Char → α → Prop} {valid : α → Prop}
    {n : Sectors} {legs : List α} (hvalid : ∀ {l}, writable legDelimiters l → valid l) (hn : 0 < n)
    (hlegs : AreLegs writable legs) : ValidLegs valid n legs :=
  ⟨hn, hlegs.1, fun l hl => hvalid (hlegs.2 l hl)⟩

theorem Layout.valid_of_writable {l : Layout} (h : l.Writable) : l.Valid := by
  cases l with
  | null | inMemory => trivial
  | plain path => exact IsValue.nonempty h
  | raid0 s => exact Raid0.valid_of_writable h
  | raid1 s => exact Raid1.valid_of_writable h
  | raid4 s => exact Raid4.valid_of_writable h
  | raid5 s => exact Raid5.valid_of_writable h
  | raid10 n legs => exact validLegs_of_areLegs Raid1.valid_of_writable h.1 h.2
  | raid40 n legs => exact validLegs_of_areLegs Raid4.valid_of_writable h.1 h.2
  | raid50 n legs => exact validLegs_of_areLegs Raid5.valid_of_writable h.1 h.2

end Writable

/-- What the change creates is valid. -/
def Change.Valid (c : Change) : Prop := ∀ target, c = .create target → target.Valid

theorem Change.valid_of_read? {c : Change} {line : String}
    (h : Command.read? line = .ok (some (.change c))) : c.Valid := by
  rintro target rfl
  have hw : target.Writable := Change.writable_of_read? h
  exact ⟨hw.capacity, hw.cache, Layout.valid_of_writable hw.layout⟩

/-! ## Registries -/

namespace Registry

/-- Mappings name live targets, and the targets are kept under their own names and are valid. -/
structure Valid (r : Registry) : Prop where
  consistent : r.Consistent
  target : ∀ name target, r.targets.get? name = some target → target.Valid

theorem valid_empty : Registry.empty.Valid := ⟨consistent_empty, nofun⟩

variable {r r' : Registry} {c : Change}

theorem Accepts.valid (h : r.Accepts c r') (hr : r.Valid) (hc : c.Valid) : r'.Valid := by
  refine ⟨h.consistent hr.consistent, fun name target htarget => ?_⟩
  rw [h.get?_targets] at htarget
  split at htarget
  · cases c with
    | create target₀ =>
      cases htarget
      exact hc target rfl
    | destroy name₀ | map suffix m | unmap suffix => cases htarget
  · exact hr.target name target htarget

end Registry

end BlockShell
