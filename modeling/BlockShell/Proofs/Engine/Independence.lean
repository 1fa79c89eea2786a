import BlockShell.Proofs.Engine.InMemory

/-!
# Independent changes

Over a registry in memory, changes that do not see each other are answered alike in any order and
leave the same registry.  Two independent changes may be exchanged (`changes_comm`).  A target or a
block device that is there for a time, and that no change names meanwhile, makes no difference to the
others (`changes_around_temporary`).
-/

namespace BlockShell

/-! ## Two changes -/

/-- The changes name different block devices, and different targets unless both map; and none of them
destroys a target of which the other one unmaps a block device. -/
structure Registry.Independent (r : Registry) (a b : Change) : Prop where
  suffix (suffix : String) : a.suffix? = some suffix → b.suffix? ≠ some suffix
  subject (name : String) : a.subject? = some name → b.subject? = some name →
    a.mapping?.isSome = true ∧ b.mapping?.isSome = true
  user (suffix name : String) (m : Mapping) :
    a = .unmap suffix ∧ b = .destroy name ∨ a = .destroy name ∧ b = .unmap suffix →
      r.mappings.get? suffix = some m → m.target ≠ name

namespace Registry

variable {r : Registry} {a b : Change}

theorem Independent.symm (h : r.Independent a b) : r.Independent b a where
  suffix suffix hb ha := h.suffix suffix ha hb
  subject name hb ha := (h.subject name ha hb).symm
  user suffix name m hab := h.user suffix name m (hab.symm.imp And.symm And.symm)

theorem Independent.unseen (h : r.Independent a b) : r.Unseen a b where
  target name ha hb := by
    obtain ⟨hmaps, -⟩ := h.subject name (Change.subject?_of_targetName? ha) hb
    cases a with
    | create target | destroy name₀ => cases hmaps
    | map suffix m | unmap suffix => cases ha
  suffix := h.suffix
  user suffix name m hb ha := by
    subst hb
    rcases ha with rfl | ⟨rfl, hm⟩
    · rintro rfl
      cases (h.subject m.target rfl rfl).2
    · exact h.user suffix name m (.inl ⟨rfl, rfl⟩) hm

end Registry

namespace Engine

variable {r : Registry} {a b : Change}

/-- Independent changes have the same answers in either order, and the same registry after them. -/
theorem changes_comm (h : r.Independent a b) :
    ∃ (answerA answerB : Except EngineError Unit) (r' : Registry),
      changes [a, b] r = ([answerA, answerB], r') ∧ changes [b, a] r = ([answerB, answerA], r') := by
  have hab := h.unseen
  have hba := h.symm.unseen
  refine ⟨(r.answer a).mapError .registry, (r.answer b).mapError .registry, (r.after a).after b, ?_, ?_⟩
  · rw [changes_cons, changes_cons, hab.answer_after]
    rfl
  · rw [changes_cons, changes_cons, hba.answer_after, hab.after_comm hba]
    rfl

/-- A block device is mapped onto a target, another one onto a target that is not live. -/
def halfDangling : Registry :=
  ⟨.ofList [("t", ⟨"t", 8, none, .null⟩)], .ofList [("0", ⟨"t", true⟩), ("1", ⟨"u", false⟩)]⟩

theorem independent_halfDangling : halfDangling.Independent (.destroy "t") (.unmap "1") where
  suffix := nofun
  subject := nofun
  user suffix name m hab hm := by
    rcases hab with ⟨ha, -⟩ | ⟨ha, hb⟩
    · cases ha
    · cases ha
      cases hb
      cases (show halfDangling.mappings.get? "1" = some ⟨"u", false⟩ by decide).symm.trans hm
      decide

/-- The target is in use, whether or not the other block device is still mapped. -/
theorem changes_comm_of_halfDangling :
    halfDangling.Independent (.destroy "t") (.unmap "1") ∧
    ∃ (answerA answerB : Except EngineError Unit) (r' : Registry),
      changes [.destroy "t", .unmap "1"] halfDangling = ([answerA, answerB], r') ∧
      changes [.unmap "1", .destroy "t"] halfDangling = ([answerB, answerA], r') :=
  ⟨independent_halfDangling, changes_comm independent_halfDangling⟩

end Engine

/-! ## A change that is undone -/

namespace Registry

variable {r r' : Registry} {target : Target} {suffix : String} {m : Mapping}

/-- In a consistent registry nothing is mapped onto a target that is yet to be created. -/
theorem Accepts.destroy_create (h : r.Accepts (.create target) r') (hr : r.Consistent) :
    r'.Accepts (.destroy target.name) r := by
  cases h with
  | create _ hfree =>
    have hunused : r.Unused target.name := by
      intro suffix m hm hname
      have hlive := hr.live suffix m hm
      rw [hname, Table.contains_eq_false_iff.2 hfree] at hlive
      cases hlive
    have hdestroy : Accepts { r with targets := r.targets.insert target.name target }
        (.destroy target.name) { r with targets := (r.targets.insert target.name target).erase _ } :=
      .destroy target.name target (Table.get?_insert_self ..) hunused
    rwa [Table.erase_insert hfree] at hdestroy

theorem Accepts.unmap_map (h : r.Accepts (.map suffix m) r') : r'.Accepts (.unmap suffix) r := by
  cases h with
  | map _ _ target htarget hfree =>
    have hunmap : Accepts { r with mappings := r.mappings.insert suffix m }
        (.unmap suffix) { r with mappings := (r.mappings.insert suffix m).erase _ } :=
      .unmap suffix m (Table.get?_insert_self ..)
    rwa [Table.erase_insert hfree] at hunmap

/-- A change that concerns a live target destroys it. -/
theorem Accepts.eq_destroy {c : Change} {name : String} (h : r.Accepts c r')
    (hname : c.targetName? = some name) (hlive : r.targets.get? name = some target) :
    c = .destroy name := by
  cases h with
  | create target₀ hfree =>
    cases hname
    cases hfree.symm.trans hlive
  | destroy name₀ target₀ htarget hunused =>
    cases hname
    rfl
  | map suffix m target₀ htarget hfree => cases hname
  | unmap suffix m hm => cases hname

end Registry

namespace Change

/-- Wherever the change `a` is accepted, it and the change `b` do not see each other, unless `b` is
rejected. -/
def Apart (a b : Change) : Prop :=
  ∀ r ra : Registry, r.Accepts a ra → r.Unseen a b ∧ ∀ rb, r.Accepts b rb → r.Unseen b a

variable {b : Change} {target : Target} {suffix : String} {m : Mapping}

theorem apart_create (h : b.subject? ≠ some target.name) : (create target).Apart b := by
  intro r ra _
  refine ⟨⟨?_, nofun, ?_⟩, fun rb _ => ⟨?_, fun _ _ => nofun, fun _ _ _ => nofun⟩⟩
  · rintro name ⟨⟩
    exact h
  · rintro suffix name m - (ha | ⟨ha, -⟩) <;> cases ha
  · rintro name hb ⟨⟩
    exact h (subject?_of_targetName? hb)

theorem apart_map (hsuffix : b.suffix? ≠ some suffix) (htarget : b ≠ .destroy m.target) :
    (map suffix m).Apart b := by
  intro r ra hmap
  refine ⟨⟨nofun, ?_, ?_⟩, fun rb hb => ⟨?_, ?_, fun _ _ _ => nofun⟩⟩
  · rintro suffix ⟨⟩
    exact hsuffix
  · rintro suffix name m' hb (⟨⟨⟩⟩ | ⟨ha, -⟩)
    · rintro rfl
      exact htarget hb
    · cases ha
  · -- The target of the mapping is live, so that it cannot be created.
    rintro name hname ⟨⟩
    cases hmap with
    | map _ _ target hlive hfree => exact htarget (hb.eq_destroy hname hlive)
  · rintro suffix' hb ⟨⟩
    exact hsuffix hb

end Change

namespace Engine

variable {r ra : Registry} {a : Change} {cs : List Change}

/-- What a change did stays done, and other changes are answered as they are without it. -/
theorem changes_apart (ha : r.Accepts a ra) (hcs : ∀ c ∈ cs, a.Apart c) :
    (changes cs ra).1 = (changes cs r).1 ∧ (changes cs r).2.Accepts a (changes cs ra).2 := by
  -- All along, the two registries differ in what `a` does.
  induction cs generalizing r ra with
  | nil => exact ⟨rfl, ha⟩
  | cons c cs ih =>
    obtain ⟨hapart, hcs⟩ := List.forall_mem_cons.1 hcs
    obtain ⟨hac, hca⟩ := hapart r ra ha
    obtain ⟨hanswers, haccepts⟩ := ih (ha.after_accepts hac hca) hcs
    rw [changes_cons, changes_cons, ha.answer_eq hac]
    exact ⟨congrArg (List.cons _) hanswers, haccepts⟩

/-- A change `a` and later its undoing `a'` leave no trace in the changes between them. -/
theorem changes_undone {a' : Change} (ha : r.Accepts a ra) (hcs : ∀ c ∈ cs, a.Apart c)
    (hundo : ∀ s, (changes cs r).2.Accepts a s → s.Accepts a' (changes cs r).2) :
    changes (a :: cs ++ [a']) r = (.ok () :: (changes cs r).1 ++ [.ok ()], (changes cs r).2) := by
  obtain ⟨hanswers, haccepts⟩ := changes_apart ha hcs
  have hundone := hundo _ haccepts
  have hlast : changes [a'] (changes cs ra).2 = ([.ok ()], (changes cs r).2) := by
    rw [changes_cons, hundone.answer, hundone.after]
    rfl
  rw [List.cons_append, changes_cons, changes_append, ha.answer, ha.after]
  dsimp only
  rw [hlast, hanswers]
  rfl

/-- A target or a block device that is there for a time makes no difference to changes that do not
name it and do not destroy its target. -/
theorem changes_around_temporary (hr : Reachable r) (cs : List Change) :
    (∀ target : Target, r.targets.get? target.name = none →
      (∀ c ∈ cs, c.subject? ≠ some target.name) →
      changes (.create target :: cs ++ [.destroy target.name]) r =
        (.ok () :: (changes cs r).1 ++ [.ok ()], (changes cs r).2)) ∧
    ∀ (suffix : String) (m : Mapping), r.mappings.get? suffix = none →
      r.targets.contains m.target = true →
      (∀ c ∈ cs, c.suffix? ≠ some suffix ∧ c ≠ .destroy m.target) →
      changes (.map suffix m :: cs ++ [.unmap suffix]) r =
        (.ok () :: (changes cs r).1 ++ [.ok ()], (changes cs r).2) := by
  constructor
  · intro target hfree hcs
    have hconsistent := changes_consistent cs (reachable_iff_consistent.1 hr)
    exact changes_undone (.create target hfree) (fun c hc => Change.apart_create (hcs c hc))
      fun s hs => hs.destroy_create hconsistent
  · intro suffix m hfree hlive hcs
    obtain ⟨target, htarget⟩ := Table.contains_iff.1 hlive
    exact changes_undone (.map suffix m target htarget hfree)
      (fun c hc => Change.apart_map (hcs c hc).1 (hcs c hc).2) fun s hs => hs.unmap_map

/-- A target with one block device. -/
def inUse : Registry := (changes [.create ⟨"t", 8, none, .null⟩, .map "0" ⟨"t", true⟩] .empty).2

/-- The first and the last of these are accepted, the two between them are not. -/
def meanwhile : List Change :=
  [.map "1" ⟨"t", false⟩, .create ⟨"t", 16, none, .inMemory⟩, .unmap "9", .unmap "0"]

theorem changes_around_temporary_of_inUse :
    Reachable inUse ∧
    (inUse.targets.get? "u" = none ∧ (∀ c ∈ meanwhile, c.subject? ≠ some "u") ∧
      changes (.create ⟨"u", 8, none, .null⟩ :: meanwhile ++ [.destroy "u"]) inUse =
        (.ok () :: (changes meanwhile inUse).1 ++ [.ok ()], (changes meanwhile inUse).2)) ∧
    inUse.mappings.get? "2" = none ∧ inUse.targets.contains "t" = true ∧
      (∀ c ∈ meanwhile, c.suffix? ≠ some "2" ∧ c ≠ .destroy "t") ∧
      changes (.map "2" ⟨"t", false⟩ :: meanwhile ++ [.unmap "2"]) inUse =
        (.ok () :: (changes meanwhile inUse).1 ++ [.ok ()], (changes meanwhile inUse).2) := by
  have hreachable : Reachable inUse := ⟨_, rfl⟩
  have hfree : inUse.targets.get? "u" = none := by decide
  have hunnamed : ∀ c ∈ meanwhile, c.subject? ≠ some "u" := by decide
  have hunmapped : inUse.mappings.get? "2" = none := by decide
  have hlive : inUse.targets.contains "t" = true := by decide
  have hothers : ∀ c ∈ meanwhile, c.suffix? ≠ some "2" ∧ c ≠ .destroy "t" := by decide
  obtain ⟨htarget, hdevice⟩ := changes_around_temporary hreachable meanwhile
  exact ⟨hreachable, ⟨hfree, hunnamed, htarget ⟨"u", 8, none, .null⟩ hfree hunnamed⟩, hunmapped,
    hlive, hothers, hdevice "2" ⟨"t", false⟩ hunmapped hlive hothers⟩

end Engine

end BlockShell
