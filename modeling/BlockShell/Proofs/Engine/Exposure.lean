import BlockShell.Proofs.Engine.History

/-!
# What a block device exposes

From the time it is mapped until it is unmapped, a block device exposes the target that it was mapped
onto (`exposed_until_unmapped`).  A target with a block device can neither be destroyed nor created
anew, and no suffix is mapped twice, so there is no other target under the same name in between.
-/

namespace BlockShell

/-- The block device `suffix` is mapped as `m`, onto the live target `target`. -/
structure Registry.Exposes (r : Registry) (suffix : String) (m : Mapping) (target : Target) :
    Prop where
  mapped : r.mappings.get? suffix = some m
  live : r.targets.get? m.target = some target

namespace Registry.Exposes

variable {r r' : Registry} {c : Change} {suffix : String} {m : Mapping} {target : Target}

theorem of_map (h : r.Accepts (.map suffix m) r') : ∃ target, r'.Exposes suffix m target := by
  cases h with
  | map _ _ target htarget hfree => exact ⟨target, Table.get?_insert_self .., htarget⟩

/-- A target with a block device is neither destroyed nor created. -/
theorem keeps_target (h : r.Exposes suffix m target) (hc : r.Accepts c r') :
    c ≠ .destroy m.target ∧ ∀ t, c = .create t → t.name ≠ m.target := by
  constructor
  · rintro rfl
    cases hc with
    | destroy _ _ _ hidle => exact hidle suffix m h.mapped rfl
  · rintro t rfl hname
    cases hc with
    | create _ hfree =>
      rw [hname, h.live] at hfree
      cases hfree

theorem of_accepts (h : r.Exposes suffix m target) (hc : r.Accepts c r')
    (hkept : c ≠ .unmap suffix) : r'.Exposes suffix m target := by
  obtain ⟨hdestroy, hcreate⟩ := h.keeps_target hc
  obtain ⟨hmapped, hlive⟩ := h
  cases hc with
  | create t hfree =>
    have hname : m.target ≠ t.name := fun hname => hcreate t rfl hname.symm
    refine ⟨hmapped, ?_⟩
    rw [Table.get?_insert_of_ne _ hname, hlive]
  | destroy name t htarget hidle =>
    have hname : m.target ≠ name := fun hname => hdestroy (hname ▸ rfl)
    refine ⟨hmapped, ?_⟩
    rw [Table.get?_erase, if_neg hname, hlive]
  | map s m₀ t htarget hfree =>
    have hsuffix : suffix ≠ s := by
      rintro rfl
      cases hfree.symm.trans hmapped
    refine ⟨?_, hlive⟩
    rw [Table.get?_insert_of_ne _ hsuffix, hmapped]
  | unmap s m₀ hm =>
    have hsuffix : suffix ≠ s := fun hsuffix => hkept (hsuffix ▸ rfl)
    refine ⟨?_, hlive⟩
    rw [Table.get?_erase, if_neg hsuffix, hmapped]

end Registry.Exposes

namespace Event

variable {r : Registry} {e : Event} {between after : List Event} {suffix : String} {m : Mapping}
  {target : Target}

theorem Possible.exposes (h : e.Possible r) (hr : r.Exposes suffix m target)
    (hkept : e.Accepted → e.change ≠ .unmap suffix) :
    e.registry.Exposes suffix m target ∧
      (e.Accepted → e.change ≠ .destroy m.target ∧ ∀ t, e.change = .create t → t.name ≠ m.target) := by
  cases h with
  | accepted hc => exact ⟨hr.of_accepts hc (hkept rfl), fun _ => hr.keeps_target hc⟩
  | refused c cause => exact ⟨hr, nofun⟩

theorem IsHistory.exposes (h : IsHistory r (between ++ after)) (hr : r.Exposes suffix m target)
    (hkept : ∀ e ∈ between, e.Accepted → e.change ≠ .unmap suffix) :
    ∀ e ∈ between, e.registry.Exposes suffix m target ∧
      (e.Accepted → e.change ≠ .destroy m.target ∧ ∀ t, e.change = .create t → t.name ≠ m.target) := by
  induction between generalizing r with
  | nil => exact List.forall_mem_nil _
  | cons e between ih =>
    obtain ⟨hfirst, hkept⟩ := List.forall_mem_cons.1 hkept
    cases h with
    | cons hpossible hrest =>
      have he := hpossible.exposes hr hfirst
      exact List.forall_mem_cons.2 ⟨he, ih hrest he.1 hkept⟩

end Event

namespace Engine

variable {σ : Type} (save : Registry → StateM σ (Except JournalError Unit))

/-- A block device is mapped, and in the time `between` it is not unmapped: all that time it is mapped
as at first, and its target is the one it had at first. -/
theorem exposed_until_unmapped {changes : List Change} {r r₀ : Registry} {s : σ} {suffix : String}
    {m : Mapping} {before between after : List Event}
    (hmap : (saving save).history changes r s =
      before ++ ⟨.map suffix m, .ok (), r₀⟩ :: (between ++ after))
    (hkept : ∀ e ∈ between, e.Accepted → e.change ≠ .unmap suffix) :
    ∃ target, r₀.Exposes suffix m target ∧
      ∀ e ∈ between, e.registry.Exposes suffix m target ∧
        (e.Accepted →
          e.change ≠ .destroy m.target ∧ ∀ t, e.change = .create t → t.name ≠ m.target) := by
  obtain ⟨r₁, hpossible, hrest⟩ := (hmap ▸ isHistory_history save changes r s).of_append
  cases hpossible with
  | accepted hc =>
    obtain ⟨target, hr⟩ := Registry.Exposes.of_map hc
    exact ⟨target, hr, hrest.exposes hr hkept⟩

/-- Between the second attempt to map and the second attempt to unmap. -/
def lifetimeBetween : List Event :=
  [⟨.destroy "t", .error (.registry (.targetBusy "t" 1)), lifetimeMapped⟩,
    ⟨.unmap "0", .error (.journal (.noFileName ⟨"/"⟩)), lifetimeMapped⟩]

theorem exposed_in_lifetime :
    ∃ before after, (saving saveEveryOther).history lifetime .empty false =
        before ++ ⟨.map "0" ⟨"t", true⟩, .ok (), lifetimeMapped⟩ :: (lifetimeBetween ++ after) ∧
      (∀ e ∈ lifetimeBetween, e.Accepted → e.change ≠ .unmap "0") ∧
      ∃ target, lifetimeMapped.Exposes "0" ⟨"t", true⟩ target ∧
        ∀ e ∈ lifetimeBetween, e.registry.Exposes "0" ⟨"t", true⟩ target ∧
          (e.Accepted → e.change ≠ .destroy "t" ∧ ∀ t, e.change = .create t → t.name ≠ "t") := by
  have hmap : (saving saveEveryOther).history lifetime .empty false =
      ((saving saveEveryOther).history lifetime .empty false).take 2 ++
        ⟨.map "0" ⟨"t", true⟩, .ok (), lifetimeMapped⟩ :: (lifetimeBetween ++
          ((saving saveEveryOther).history lifetime .empty false).drop 5) := by
    decide +kernel
  have hkept : ∀ e ∈ lifetimeBetween, e.Accepted → e.change ≠ .unmap "0" := by
    simp [lifetimeBetween, Event.Accepted]
  exact ⟨_, _, hmap, hkept, exposed_until_unmapped saveEveryOther hmap hkept⟩

end Engine

end BlockShell
