import BlockShell.Proofs.Registry.Changes
import Mathlib.Algebra.BigOperators.Group.Finset.Basic
import Mathlib.Data.Set.Card

/-!
# What a registry lists

In a consistent registry a row of the listing is what the registry has under the row's name
(`mem_summaries_iff`), so that the rows come in the order of their names and their mappings add up to
all there are (`sum_mappings`).
-/

namespace BlockShell.Registry

variable {r : Registry} {name : String}

/-- The block devices that are mapped onto a target. -/
def mappedOnto (r : Registry) (name : String) : Set String :=
  {suffix | ∃ m, r.mappings.get? suffix = some m ∧ m.target = name}

theorem mappingsOf_eq_ncard (r : Registry) (name : String) :
    r.mappingsOf name = (r.mappedOnto name).ncard := by
  let users := (r.mappings.keysWith fun m => m.target == name).toFinset
  have husers (suffix : String) : suffix ∈ users ↔
      ∃ m, r.mappings.get? suffix = some m ∧ (m.target == name) = true := by
    rw [List.mem_toFinset, Table.mem_keysWith_iff]
  have hset : r.mappedOnto name = users := by
    ext suffix
    rw [Finset.mem_coe, husers]
    simp only [mappedOnto, Set.mem_ofPred_eq, beq_iff_eq]
  rw [mappingsOf, Table.countP_values husers, hset, Set.ncard_coe_finset]

/-! ## Rows -/

theorem mem_summaries_iff (hr : r.Consistent) {row : Summary} : row ∈ r.summaries ↔
    ∃ target, r.targets.get? row.name = some target ∧ r.summary target = row := by
  simp only [summaries, List.mem_map, Table.mem_values_iff]
  constructor
  · rintro ⟨target, ⟨key, htarget⟩, rfl⟩
    obtain rfl : target.name = key := hr.named key target htarget
    exact ⟨target, htarget, rfl⟩
  · rintro ⟨target, htarget, hrow⟩
    exact ⟨target, ⟨row.name, htarget⟩, hrow⟩

/-- The names of the rows are the keys of the targets. -/
theorem map_name_summaries (hr : r.Consistent) : r.summaries.map Summary.name = r.targets.keys := by
  unfold summaries Table.values Table.keys
  rw [List.map_map, List.map_map]
  exact List.map_congr_left fun e he => hr.named e.1 e.2 ((r.targets.mem_entries_iff _ _).1 he)

theorem pairwise_summaries (hr : r.Consistent) :
    r.summaries.Pairwise fun a b => a.name < b.name := by
  have hkeys : r.targets.keys.Pairwise (· < ·) := List.pairwise_map.2 r.targets.increasing
  rw [← map_name_summaries hr] at hkeys
  exact List.pairwise_map.1 hkeys

/-- Names without repetitions, each counted as often as it is used, make up all the uses of them. -/
theorem sum_count {names uses : List String} (hnames : names.Nodup) (h : ∀ u ∈ uses, u ∈ names) :
    (names.map fun name => uses.count name).sum = uses.length := by
  have hsum := Multiset.sum_count_eq_card (s := names.toFinset) (m := (uses : Multiset String))
    (by simpa using h)
  simpa only [Multiset.coe_count, Multiset.coe_card, List.sum_toFinset _ hnames] using hsum

theorem sum_mappings (hr : r.Consistent) :
    (r.summaries.map Summary.mappings).sum = r.mappings.size := by
  -- A mapping counts for the target that it names, which is live.
  let uses := r.mappings.values.map Mapping.target
  have hrows : r.summaries.map Summary.mappings = r.targets.keys.map fun name => uses.count name := by
    rw [← map_name_summaries hr, List.map_map]
    refine List.map_congr_left fun row hrow => ?_
    obtain ⟨target, -, rfl⟩ := (mem_summaries_iff hr).1 hrow
    show r.mappingsOf target.name = uses.count target.name
    rw [mappingsOf, List.count, List.countP_map]
    rfl
  have huses : ∀ u ∈ uses, u ∈ r.targets.keys := by
    intro u hu
    obtain ⟨m, hm, rfl⟩ := List.mem_map.1 hu
    obtain ⟨suffix, hm⟩ := Table.mem_values_iff.1 hm
    exact Table.mem_keys_iff.2 (Table.contains_iff.1 (hr.live suffix m hm))
  rw [hrows, sum_count r.targets.nodup_keys huses]
  simp only [uses, Table.values, Table.size, List.length_map]

/-- There is a row for each live target, and for no other one. -/
theorem exists_row_iff (hr : r.Consistent) {k : Nat} :
    (∃ row ∈ r.summaries, row.name = name ∧ row.mappings = k) ↔
      r.targets.contains name = true ∧ r.mappingsOf name = k := by
  rw [Table.contains_iff]
  constructor
  · rintro ⟨row, hrow, rfl, rfl⟩
    obtain ⟨target, htarget, rfl⟩ := (mem_summaries_iff hr).1 hrow
    exact ⟨⟨target, htarget⟩, rfl⟩
  · rintro ⟨⟨target, htarget⟩, rfl⟩
    obtain rfl : target.name = name := hr.named name target htarget
    exact ⟨r.summary target, (mem_summaries_iff hr).2 ⟨target, htarget, rfl⟩, rfl, rfl⟩

theorem forall_row_ne_iff (hr : r.Consistent) :
    (∀ row ∈ r.summaries, row.name ≠ name) ↔ r.targets.contains name = false := by
  constructor
  · intro h
    by_contra hlive
    obtain ⟨row, hrow, hname, -⟩ := (exists_row_iff hr).2 ⟨Bool.of_not_eq_false hlive, rfl⟩
    exact h row hrow hname
  · rintro hdead row hrow rfl
    obtain ⟨hlive, -⟩ := (exists_row_iff hr).1 ⟨row, hrow, rfl, rfl⟩
    exact Bool.false_ne_true (hdead.symm.trans hlive)

end BlockShell.Registry
