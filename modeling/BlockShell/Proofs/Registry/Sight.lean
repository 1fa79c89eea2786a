import BlockShell.Proofs.Registry.Changes

/-!
# What a change sees

How a change is answered depends on little of the registry: on whether the target that it names is
live, on whether its block device is mapped, and, if it destroys the target, on the number of block
devices that the target has (`Alike.answer_eq`).  So a change does not see what others do elsewhere
(`Unseen`), and of two changes that do not see each other either one may come first
(`Unseen.after_comm`).
-/

namespace BlockShell

/-- The target that a change names. -/
def Change.subject? : Change → Option String
  | create target => some target.name
  | destroy name => some name
  | map _ m => some m.target
  | unmap _ => none

theorem Change.subject?_of_targetName? {c : Change} {name : String} (h : c.targetName? = some name) :
    c.subject? = some name := by
  cases c with
  | create target => exact h
  | destroy name₀ => exact h
  | map suffix m => cases h
  | unmap suffix => cases h

namespace Registry

variable {r r' ra rb : Registry} {a b c : Change}

/-! ## Answers -/

/-- Whether the registry accepts a change, and why not if it does not. -/
def answer (r : Registry) (c : Change) : Except RegistryError Unit := (r.apply c).map fun _ => ()

/-- The registry after a change, accepted or not. -/
def after (r : Registry) (c : Change) : Registry := (r.apply c).toOption.getD r

theorem Accepts.answer (h : r.Accepts c r') : r.answer c = .ok () := by
  unfold Registry.answer
  rw [h.apply]
  rfl

theorem Accepts.after (h : r.Accepts c r') : r.after c = r' := by
  unfold Registry.after
  rw [h.apply]
  rfl

theorem accepts_after (h : r.answer c = .ok ()) : r.Accepts c (r.after c) := by
  unfold answer at h
  cases happly : r.apply c with
  | error e =>
    rw [happly] at h
    cases h
  | ok r' =>
    have haccepts := accepts_of_apply happly
    exact haccepts.after ▸ haccepts

theorem after_of_error {e : RegistryError} (h : r.answer c = .error e) : r.after c = r := by
  unfold answer at h
  unfold after
  cases happly : r.apply c with
  | error e' => rfl
  | ok r' =>
    rw [happly] at h
    cases h

/-- What holds before a change and after an accepted one, holds after any. -/
theorem after_cases {P : Registry → Prop} (hr : P r) (hstep : ∀ r', r.Accepts c r' → P r') :
    P (r.after c) := by
  cases hanswer : r.answer c with
  | error e => exact (after_of_error hanswer).symm ▸ hr
  | ok => exact hstep _ (accepts_after hanswer)

/-- The two registries do not differ in what the change depends on. -/
structure Alike (c : Change) (r r' : Registry) : Prop where
  subject (name : String) : c.subject? = some name →
    r'.targets.contains name = r.targets.contains name
  suffix (suffix : String) : c.suffix? = some suffix →
    r'.mappings.contains suffix = r.mappings.contains suffix
  users (name : String) : c = .destroy name → r'.mappingsOf name = r.mappingsOf name

theorem Alike.answer_eq (h : Alike c r r') : r'.answer c = r.answer c := by
  cases c with
  | create target =>
    have hlive := h.subject target.name rfl
    simp only [answer, apply, create, hlive]
    split <;> rfl
  | destroy name =>
    have hlive := h.subject name rfl
    have husers := h.users name rfl
    simp only [answer, apply, destroy, hlive, husers]
    split_ifs <;> rfl
  | map suffix m =>
    have hlive := h.subject m.target rfl
    have hmapped := h.suffix suffix rfl
    simp only [answer, apply, map, hlive, hmapped]
    split_ifs <;> rfl
  | unmap suffix =>
    have hmapped := h.suffix suffix rfl
    simp only [answer, apply, unmap, hmapped]
    split <;> rfl

/-! ## Changes that are not seen -/

/-- What the change `a` does to the registry, the change `b` does not see. -/
structure Unseen (r : Registry) (a b : Change) : Prop where
  target (name : String) : a.targetName? = some name → b.subject? ≠ some name
  suffix (suffix : String) : a.suffix? = some suffix → b.suffix? ≠ some suffix
  /-- The mapping that `a` makes or removes is not one of a target that `b` destroys. -/
  user (suffix name : String) (m : Mapping) : b = .destroy name →
    a = .map suffix m ∨ a = .unmap suffix ∧ r.mappings.get? suffix = some m → m.target ≠ name

theorem mappingsOf_congr {name : String} (h : ∀ suffix m, m.target = name →
    (r'.mappings.get? suffix = some m ↔ r.mappings.get? suffix = some m)) :
    r'.mappingsOf name = r.mappingsOf name :=
  Table.countP_values_congr fun suffix m hm => h suffix m (beq_iff_eq.1 hm)

theorem Accepts.alike (ha : r.Accepts a ra) (hab : r.Unseen a b) : Alike b r ra where
  subject name hname := by
    unfold Table.contains
    rw [ha.get?_targets, if_neg fun h => hab.target name h hname]
  suffix suffix hsuffix := by
    unfold Table.contains
    rw [ha.get?_mappings, if_neg fun h => hab.suffix suffix h hsuffix]
  users name hname := by
    refine mappingsOf_congr fun suffix m hm => ?_
    rw [ha.get?_mappings]
    split
    · next hsuffix =>
      -- Neither before nor afterwards is the block device of `a` mapped onto the target.
      cases ha with
      | create target hfree => cases hsuffix
      | destroy name₀ target htarget hidle => cases hsuffix
      | map suffix₀ m₀ target htarget hfree =>
        cases hsuffix
        rw [hfree]
        refine ⟨?_, nofun⟩
        rintro ⟨⟩
        exact absurd hm (hab.user suffix name m hname (.inl rfl))
      | unmap suffix₀ m₀ hm₀ =>
        cases hsuffix
        refine ⟨nofun, fun hmapped => ?_⟩
        exact absurd hm (hab.user suffix name m hname (.inr ⟨rfl, hmapped⟩))
    · rfl

theorem Accepts.answer_eq (ha : r.Accepts a ra) (hab : r.Unseen a b) : ra.answer b = r.answer b :=
  (ha.alike hab).answer_eq

theorem Unseen.answer_after (hab : r.Unseen a b) : (r.after a).answer b = r.answer b := by
  cases hanswer : r.answer a with
  | error e => rw [after_of_error hanswer]
  | ok => exact (accepts_after hanswer).answer_eq hab

/-- Of two accepted changes that do not see each other either one may come first. -/
theorem Accepts.square (ha : r.Accepts a ra) (hb : r.Accepts b rb) (hab : r.Unseen a b)
    (hba : r.Unseen b a) : ∃ r', ra.Accepts b r' ∧ rb.Accepts a r' := by
  have h₁ := accepts_after ((ha.answer_eq hab).trans hb.answer)
  have h₂ := accepts_after ((hb.answer_eq hba).trans ha.answer)
  -- Whatever is looked up, at most one of the two changes concerns it.
  have heq : rb.after a = ra.after b := by
    refine ext_get? (fun name => ?_) fun suffix => ?_
    · rw [h₂.get?_targets, hb.get?_targets, h₁.get?_targets, ha.get?_targets]
      by_cases hname : a.targetName? = some name
      · have hother : b.targetName? ≠ some name := fun h =>
          hab.target name hname (Change.subject?_of_targetName? h)
        rw [if_pos hname, if_neg hother, if_pos hname]
      · rw [if_neg hname, if_neg hname]
    · rw [h₂.get?_mappings, hb.get?_mappings, h₁.get?_mappings, ha.get?_mappings]
      by_cases hsuffix : a.suffix? = some suffix
      · rw [if_pos hsuffix, if_neg (hab.suffix suffix hsuffix), if_pos hsuffix]
      · rw [if_neg hsuffix, if_neg hsuffix]
  exact ⟨ra.after b, h₁, heq ▸ h₂⟩

/-- A change that was accepted would be accepted after another change too, and change the same. -/
theorem Accepts.after_accepts (ha : r.Accepts a ra) (hab : r.Unseen a b)
    (hba : ∀ rb, r.Accepts b rb → r.Unseen b a) : (r.after b).Accepts a (ra.after b) := by
  cases hanswer : r.answer b with
  | error e =>
    have hanswer' : ra.answer b = .error e := (ha.answer_eq hab).trans hanswer
    rw [after_of_error hanswer, after_of_error hanswer']
    exact ha
  | ok =>
    have hb := accepts_after hanswer
    obtain ⟨r', hra, hrb⟩ := ha.square hb hab (hba _ hb)
    exact hra.after.symm ▸ hrb

theorem Unseen.after_comm (hab : r.Unseen a b) (hba : r.Unseen b a) :
    (r.after a).after b = (r.after b).after a := by
  cases hanswer : r.answer a with
  | error e =>
    have hanswer' : (r.after b).answer a = .error e := hba.answer_after.trans hanswer
    rw [after_of_error hanswer, after_of_error hanswer']
  | ok => exact ((accepts_after hanswer).after_accepts hab fun _ _ => hba).after.symm

end Registry

end BlockShell
