import BlockShell.Proofs.Table
import BlockShell.Registry.Basic
import Mathlib.Data.Set.Basic

/-!
# What an accepted change does

A change is accepted by a registry in one of four ways (`Accepts`), each with what had to hold
before and what the registry is afterwards; there is no other way (`accepts_of_apply`).  What is
looked up afterwards (`Accepts.get?_targets`, `Accepts.get?_mappings`) and what a change keeps is
proved from there, without the definitions of the four changes.
-/

namespace BlockShell

/-- The target that a change creates or destroys. -/
def Change.targetName? : Change → Option String
  | create target => some target.name
  | destroy name => some name
  | _ => none

/-- The target that is there after a change that concerns it. -/
def Change.target? : Change → Option Target
  | create target => some target
  | _ => none

/-- The block device that a change maps or unmaps. -/
def Change.suffix? : Change → Option String
  | map suffix _ => some suffix
  | unmap suffix => some suffix
  | _ => none

/-- The mapping that is there after a change that concerns it. -/
def Change.mapping? : Change → Option Mapping
  | map _ m => some m
  | _ => none

namespace Registry

variable {r r' : Registry} {c : Change} {name suffix : String} {target : Target} {m : Mapping}

/-- No block device is mapped onto the target `name`. -/
def Unused (r : Registry) (name : String) : Prop :=
  ∀ suffix m, r.mappings.get? suffix = some m → m.target ≠ name

theorem mappingsOf_eq_zero_iff : r.mappingsOf name = 0 ↔ r.Unused name := by
  simp only [mappingsOf, List.countP_eq_zero, beq_iff_eq, Table.mem_values_iff, Unused]
  constructor
  · intro h suffix m hm
    exact h m ⟨suffix, hm⟩
  · rintro h m ⟨suffix, hm⟩
    exact h suffix m hm

/-- The ways in which a change is accepted, `r'` being the registry it leaves. -/
inductive Accepts (r : Registry) : Change → Registry → Prop
  | create (target : Target) : r.targets.get? target.name = none →
      Accepts r (.create target) { r with targets := r.targets.insert target.name target }
  | destroy (name : String) (target : Target) : r.targets.get? name = some target → r.Unused name →
      Accepts r (.destroy name) { r with targets := r.targets.erase name }
  | map (suffix : String) (m : Mapping) (target : Target) :
      r.targets.get? m.target = some target → r.mappings.get? suffix = none →
      Accepts r (.map suffix m) { r with mappings := r.mappings.insert suffix m }
  | unmap (suffix : String) (m : Mapping) : r.mappings.get? suffix = some m →
      Accepts r (.unmap suffix) { r with mappings := r.mappings.erase suffix }

theorem accepts_of_apply (h : r.apply c = .ok r') : r.Accepts c r' := by
  cases c with
  | create target =>
    change r.create target = .ok r' at h
    unfold Registry.create at h
    split at h
    · cases h
    · next hfree =>
      cases h
      exact .create target (Table.contains_eq_false_iff.1 (Bool.eq_false_iff.2 hfree))
  | destroy name =>
    change r.destroy name = .ok r' at h
    unfold Registry.destroy at h
    split at h
    · cases h
    · next hlive =>
      split at h
      · cases h
      · next hidle =>
        cases h
        obtain ⟨target, htarget⟩ := Table.contains_iff.1 (by simpa using hlive)
        exact .destroy name target htarget (mappingsOf_eq_zero_iff.1 (by omega))
  | map suffix m =>
    change r.map suffix m = .ok r' at h
    unfold Registry.map at h
    split at h
    · cases h
    · next hlive =>
      split at h
      · cases h
      · next hfree =>
        cases h
        obtain ⟨target, htarget⟩ := Table.contains_iff.1 (by simpa using hlive)
        exact .map suffix m target htarget (Table.contains_eq_false_iff.1 (Bool.eq_false_iff.2 hfree))
  | unmap suffix =>
    change r.unmap suffix = .ok r' at h
    unfold Registry.unmap at h
    split at h
    · cases h
    · next hmapped =>
      cases h
      obtain ⟨m, hm⟩ := Table.contains_iff.1 (by simpa using hmapped)
      exact .unmap suffix m hm

theorem Accepts.apply (h : r.Accepts c r') : r.apply c = .ok r' := by
  cases h with
  | create target hfree =>
    exact if_neg (Bool.eq_false_iff.1 (Table.contains_eq_false_iff.2 hfree))
  | destroy name target htarget hidle =>
    have hlive : r.targets.contains name = true := Table.contains_iff.2 ⟨target, htarget⟩
    have hzero := mappingsOf_eq_zero_iff.2 hidle
    simp [Registry.apply, Registry.destroy, hlive, hzero]
  | map suffix m target htarget hfree =>
    have hlive : r.targets.contains m.target = true := Table.contains_iff.2 ⟨target, htarget⟩
    have hfree := Table.contains_eq_false_iff.2 hfree
    simp [Registry.apply, Registry.map, hlive, hfree]
  | unmap suffix m hm =>
    have hmapped : r.mappings.contains suffix = true := Table.contains_iff.2 ⟨m, hm⟩
    simp [Registry.apply, Registry.unmap, hmapped]

/-! ## What is found afterwards -/

theorem Accepts.get?_targets (h : r.Accepts c r') (name : String) :
    r'.targets.get? name =
      if c.targetName? = some name then c.target? else r.targets.get? name := by
  cases h with
  | create target hfree =>
    rw [Table.get?_insert]
    simp only [Change.targetName?, Change.target?, Option.some.injEq, eq_comm]
  | destroy name₀ target htarget hidle =>
    rw [Table.get?_erase]
    simp only [Change.targetName?, Change.target?, Option.some.injEq, eq_comm]
  | map suffix m target htarget hfree => rfl
  | unmap suffix m hm => rfl

theorem Accepts.get?_mappings (h : r.Accepts c r') (suffix : String) :
    r'.mappings.get? suffix =
      if c.suffix? = some suffix then c.mapping? else r.mappings.get? suffix := by
  cases h with
  | create target hfree => rfl
  | destroy name target htarget hidle => rfl
  | map suffix₀ m target htarget hfree =>
    rw [Table.get?_insert]
    simp only [Change.suffix?, Change.mapping?, Option.some.injEq, eq_comm]
  | unmap suffix₀ m hm =>
    rw [Table.get?_erase]
    simp only [Change.suffix?, Change.mapping?, Option.some.injEq, eq_comm]

/-- Two registries that answer every look-up alike are equal. -/
theorem ext_get? (htarget : ∀ name, r.targets.get? name = r'.targets.get? name)
    (hmapping : ∀ suffix, r.mappings.get? suffix = r'.mappings.get? suffix) : r = r' := by
  obtain ⟨targets, mappings⟩ := r
  obtain ⟨targets', mappings'⟩ := r'
  exact congrArg₂ Registry.mk (Table.ext_get? htarget) (Table.ext_get? hmapping)

/-! ## Integrity -/

/-- The suffixes whose mapping names a target that is not live. -/
def dangling (r : Registry) : Set String :=
  {suffix | ∃ m, r.mappings.get? suffix = some m ∧ r.targets.get? m.target = none}

/-- The keys under which a target with another name is kept. -/
def misnamed (r : Registry) : Set String :=
  {key | ∃ target, r.targets.get? key = some target ∧ target.name ≠ key}

/-- Every mapping names a live target, and every target is kept under its own name. -/
structure Consistent (r : Registry) : Prop where
  live : ∀ suffix m, r.mappings.get? suffix = some m → r.targets.contains m.target = true
  named : ∀ key target, r.targets.get? key = some target → target.name = key

theorem consistent_iff : r.Consistent ↔ r.dangling = ∅ ∧ r.misnamed = ∅ := by
  rw [Set.eq_empty_iff_forall_notMem, Set.eq_empty_iff_forall_notMem]
  constructor
  · rintro ⟨hlive, hnamed⟩
    constructor
    · rintro suffix ⟨m, hm, hdead⟩
      exact Bool.eq_false_iff.1 (Table.contains_eq_false_iff.2 hdead) (hlive suffix m hm)
    · rintro key ⟨target, ht, hne⟩
      exact hne (hnamed key target ht)
  · rintro ⟨hlive, hnamed⟩
    constructor
    · intro suffix m hm
      by_contra hdead
      exact hlive suffix ⟨m, hm, Table.contains_eq_false_iff.1 (Bool.eq_false_iff.2 hdead)⟩
    · intro key target ht
      by_contra hne
      exact hnamed key ⟨target, ht, hne⟩

theorem consistent_empty : Registry.empty.Consistent := ⟨nofun, nofun⟩

theorem Accepts.dangling_subset (h : r.Accepts c r') : r'.dangling ⊆ r.dangling := by
  rintro s ⟨m, hm, hdead⟩
  cases h with
  | create target hfree =>
    rw [Table.get?_insert] at hdead
    split at hdead
    · cases hdead
    · exact ⟨m, hm, hdead⟩
  | destroy name target htarget hidle =>
    rw [Table.get?_erase, if_neg (hidle s m hm)] at hdead
    exact ⟨m, hm, hdead⟩
  | map suffix m₀ target htarget hfree =>
    rw [Table.get?_insert] at hm
    split at hm
    · cases hm
      cases hdead.symm.trans htarget
    · exact ⟨m, hm, hdead⟩
  | unmap suffix m₀ hm₀ =>
    rw [Table.get?_erase] at hm
    split at hm
    · cases hm
    · exact ⟨m, hm, hdead⟩

theorem Accepts.misnamed_subset (h : r.Accepts c r') : r'.misnamed ⊆ r.misnamed := by
  rintro key ⟨target, ht, hne⟩
  cases h with
  | create target₀ hfree =>
    rw [Table.get?_insert] at ht
    split at ht
    · next hkey =>
      cases ht
      exact absurd hkey.symm hne
    · exact ⟨target, ht, hne⟩
  | destroy name target₀ htarget₀ hidle =>
    rw [Table.get?_erase] at ht
    split at ht
    · cases ht
    · exact ⟨target, ht, hne⟩
  | map suffix m target₀ htarget₀ hfree => exact ⟨target, ht, hne⟩
  | unmap suffix m hm => exact ⟨target, ht, hne⟩

theorem Accepts.consistent (h : r.Accepts c r') (hr : r.Consistent) : r'.Consistent := by
  rw [consistent_iff] at hr ⊢
  exact ⟨Set.subset_eq_empty h.dangling_subset hr.1, Set.subset_eq_empty h.misnamed_subset hr.2⟩

end Registry

end BlockShell
