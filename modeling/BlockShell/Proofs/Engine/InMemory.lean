import BlockShell.Engine.Registry
import BlockShell.Proofs.Registry.Sight
import BlockShell.Proofs.Runs

/-!
# Changes in memory

Changes over a registry that is in memory only: each is answered as the registry answers it, and the
next one starts from the registry after it (`changes_cons`).  The registries that changes make of the
empty one are the consistent ones (`reachable_iff_consistent`).
-/

namespace BlockShell

namespace Engine

/-- The changes carried out one after the other over a registry in memory. -/
def changes (cs : List Change) : StateT Registry Id (List (Except EngineError Unit)) :=
  cs.mapM (inMemory (m := Id)).change

variable {r : Registry}

theorem change_inMemory (c : Change) (r : Registry) :
    (inMemory (m := Id)).change c r = match r.apply c with
      | .error e => (.error (.registry e), r)
      | .ok next => (.ok (), next) := by
  unfold inMemory saving
  dsimp only [bind, StateT.bind, get, getThe, MonadStateOf.get, StateT.get, pure]
  cases r.apply c <;> rfl

theorem change_inMemory_eq (c : Change) (r : Registry) :
    (inMemory (m := Id)).change c r = ((r.answer c).mapError .registry, r.after c) := by
  rw [change_inMemory]
  unfold Registry.answer Registry.after
  cases r.apply c <;> rfl

theorem changes_cons (c : Change) (cs : List Change) (r : Registry) :
    changes (c :: cs) r =
      let rest := changes cs (r.after c)
      ((r.answer c).mapError .registry :: rest.1, rest.2) := by
  unfold changes
  rw [mapM_cons_apply, change_inMemory_eq]

theorem changes_append (cs cs' : List Change) (r : Registry) :
    changes (cs ++ cs') r =
      let first := changes cs r
      let rest := changes cs' first.2
      (first.1 ++ rest.1, rest.2) :=
  mapM_append_apply ..

/-- What every accepted change keeps, a run of changes keeps. -/
theorem changes_induction {P : Registry → Prop} {cs : List Change}
    (hstep : ∀ c ∈ cs, ∀ {r r'}, Registry.Accepts r c r' → P r → P r') (hP : P r) :
    P (changes cs r).2 := by
  induction cs generalizing r with
  | nil => exact hP
  | cons c cs ih =>
    obtain ⟨hc, hcs⟩ := List.forall_mem_cons.1 hstep
    rw [changes_cons]
    exact ih hcs (Registry.after_cases hP fun _ h => hc h hP)

theorem changes_consistent (cs : List Change) (hr : r.Consistent) :
    (changes cs r).2.Consistent :=
  changes_induction (fun _ _ _ _ h => h.consistent) hr

/-! ## What changes can make -/

theorem changes_create {l : List (String × Target)} (hnamed : ∀ e ∈ l, e.2.name = e.1)
    (hl : (l.map Prod.fst).Nodup) (hfree : ∀ e ∈ l, r.targets.get? e.1 = none) :
    (changes (l.map fun e => .create e.2) r).2 =
      { r with targets := l.foldl (fun t e => t.insert e.1 e.2) r.targets } := by
  induction l generalizing r with
  | nil => rfl
  | cons e l ih =>
    obtain ⟨key, target⟩ := e
    obtain ⟨(rfl : target.name = key), hrest⟩ := List.forall_mem_cons.1 hnamed
    obtain ⟨hnot, hl⟩ := List.nodup_cons.1 hl
    obtain ⟨hkey, hfree⟩ := List.forall_mem_cons.1 hfree
    rw [List.map_cons, changes_cons, (Registry.Accepts.create target hkey).after]
    refine ih hrest hl fun e he => ?_
    have hne : e.1 ≠ target.name := fun h => hnot (List.mem_map.2 ⟨e, he, h⟩)
    exact (Table.get?_insert_of_ne _ hne _).trans (hfree e he)

theorem changes_map {l : List (String × Mapping)}
    (hlive : ∀ e ∈ l, r.targets.contains e.2.target = true) (hl : (l.map Prod.fst).Nodup)
    (hfree : ∀ e ∈ l, r.mappings.get? e.1 = none) :
    (changes (l.map fun e => .map e.1 e.2) r).2 =
      { r with mappings := l.foldl (fun t e => t.insert e.1 e.2) r.mappings } := by
  induction l generalizing r with
  | nil => rfl
  | cons e l ih =>
    obtain ⟨suffix, m⟩ := e
    obtain ⟨htarget, hlive⟩ := List.forall_mem_cons.1 hlive
    obtain ⟨hnot, hl⟩ := List.nodup_cons.1 hl
    obtain ⟨hsuffix, hfree⟩ := List.forall_mem_cons.1 hfree
    obtain ⟨target, htarget⟩ := Table.contains_iff.1 htarget
    rw [List.map_cons, changes_cons, (Registry.Accepts.map suffix m target htarget hsuffix).after]
    refine ih hlive hl fun e he => ?_
    have hne : e.1 ≠ suffix := fun h => hnot (List.mem_map.2 ⟨e, he, h⟩)
    exact (Table.get?_insert_of_ne _ hne _).trans (hfree e he)

/-- The targets of a registry are created, then its block devices are mapped. -/
def building (r : Registry) : List Change :=
  r.targets.entries.map (fun e => .create e.2) ++ r.mappings.entries.map fun e => .map e.1 e.2

theorem changes_building (hr : r.Consistent) : (changes (building r) .empty).2 = r := by
  have hcreate : (changes (r.targets.entries.map fun e => .create e.2) .empty).2 =
      ⟨r.targets, .empty⟩ := by
    refine (changes_create (fun e he => ?_) r.targets.nodup_keys fun _ _ => rfl).trans ?_
    · exact hr.named e.1 e.2 ((r.targets.mem_entries_iff _ _).1 he)
    · exact congrArg (Registry.mk · _) r.targets.ofList_entries
  have hmap : (changes (r.mappings.entries.map fun e => .map e.1 e.2) ⟨r.targets, .empty⟩).2 = r := by
    refine (changes_map (fun e he => ?_) r.mappings.nodup_keys fun _ _ => rfl).trans ?_
    · exact hr.live e.1 e.2 ((r.mappings.mem_entries_iff _ _).1 he)
    · exact congrArg (Registry.mk _) r.mappings.ofList_entries
  rw [building, changes_append]
  dsimp only
  rw [hcreate, hmap]

/-- The registry is what some changes make of the empty one. -/
def Reachable (r : Registry) : Prop := ∃ cs, (changes cs .empty).2 = r

theorem reachable_iff_consistent : Reachable r ↔ r.Consistent := by
  constructor
  · rintro ⟨cs, rfl⟩
    exact changes_consistent cs Registry.consistent_empty
  · intro hr
    exact ⟨building r, changes_building hr⟩

end Engine

end BlockShell
