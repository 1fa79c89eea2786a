import BlockShell.Table
import Mathlib.Data.Finset.Sort
import Mathlib.Data.List.Nodup
import Mathlib.Data.String.Basic

/-!
# Tables of lists

`Table.ofList` gives every key the value of its last pair.  A table is the table of its entries
(`ofList_entries`).  Its values are what is looked up under its keys (`values_eq_filterMap_keys`),
which are those with a value, in order (`sort_eq_keys`).
-/

namespace BlockShell.Table

universe u
variable {α : Type u}

theorem lookup_singleton (e : String × α) (key : String) :
    [e].lookup key = if key = e.1 then some e.2 else none := by
  obtain ⟨k, v⟩ := e
  by_cases h : key = k
  · simp [h]
  · simp [List.lookup_cons, beq_eq_false_iff_ne.2 h, h]

theorem get?_foldl_insert (l : List (String × α)) (t : Table α) (key : String) :
    (l.foldl (fun t e => t.insert e.1 e.2) t).get? key = (l.reverse.lookup key).or (t.get? key) := by
  induction l generalizing t with
  | nil => simp
  | cons e l ih =>
    rw [List.foldl_cons, ih, get?_insert, List.reverse_cons, List.lookup_append, Option.or_assoc,
      lookup_singleton]
    split <;> rfl

theorem get?_ofList (l : List (String × α)) (key : String) :
    (ofList l).get? key = l.reverse.lookup key := by
  rw [ofList, get?_foldl_insert]
  simp

theorem mem_of_lookup {l : List (String × α)} {key : String} {value : α}
    (h : l.lookup key = some value) : (key, value) ∈ l := by
  induction l with
  | nil => simp at h
  | cons e l ih =>
    rw [List.lookup_cons] at h
    split at h
    · next hk =>
      cases h
      exact List.mem_cons.2 (.inl (Prod.ext (beq_iff_eq.1 hk) rfl))
    · exact List.mem_cons_of_mem _ (ih h)

theorem lookup_of_mem {l : List (String × α)} (hl : (l.map Prod.fst).Nodup) {key : String}
    {value : α} (h : (key, value) ∈ l) : l.lookup key = some value := by
  induction l with
  | nil => simp at h
  | cons e l ih =>
    obtain ⟨k, v⟩ := e
    obtain ⟨hnot, hl⟩ := List.nodup_cons.1 hl
    rcases List.mem_cons.1 h with he | hm
    · cases he
      simp
    · have hne : key ≠ k := by
        rintro rfl
        exact hnot (List.mem_map.2 ⟨_, hm, rfl⟩)
      rw [List.lookup_cons, beq_eq_false_iff_ne.2 hne]
      exact ih hl hm

theorem mem_of_get?_ofList {l : List (String × α)} {key : String} {value : α}
    (h : (ofList l).get? key = some value) : (key, value) ∈ l := by
  rw [get?_ofList] at h
  exact List.mem_reverse.1 (mem_of_lookup h)

theorem get?_ofList_of_not_mem {l : List (String × α)} {key : String}
    (h : key ∉ l.map Prod.fst) : (ofList l).get? key = none := by
  cases hg : (ofList l).get? key with
  | none => rfl
  | some value => exact absurd (List.mem_map.2 ⟨_, mem_of_get?_ofList hg, rfl⟩) h

theorem get?_ofList_of_mem {l : List (String × α)} (hl : (l.map Prod.fst).Nodup) {key : String}
    {value : α} (h : (key, value) ∈ l) : (ofList l).get? key = some value := by
  rw [get?_ofList]
  refine lookup_of_mem ?_ (List.mem_reverse.2 h)
  rw [List.map_reverse]
  exact List.nodup_reverse.2 hl

/-- What stands later in a list is looked up first. -/
theorem get?_ofList_append {l r : List (String × α)} {key : String} :
    (ofList (l ++ r)).get? key = ((ofList r).get? key).or ((ofList l).get? key) := by
  rw [get?_ofList, get?_ofList, get?_ofList, List.reverse_append, List.lookup_append]

/-- A pair counts for its own key only. -/
theorem get?_ofList_insert_of_ne {l r : List (String × α)} {e : String × α} {key : String}
    (h : key ≠ e.1) : (ofList (l ++ e :: r)).get? key = (ofList (l ++ r)).get? key := by
  have hnone : (ofList [e]).get? key = none := by
    rw [get?_ofList, List.reverse_singleton, lookup_singleton, if_neg h]
  rw [← List.singleton_append, get?_ofList_append, get?_ofList_append, hnone, Option.or_none,
    get?_ofList_append]

/-- A pair does not count if its key is given again later. -/
theorem ofList_insert_of_mem {l r : List (String × α)} {e : String × α} (h : e.1 ∈ r.map Prod.fst) :
    ofList (l ++ e :: r) = ofList (l ++ r) := by
  refine ext_get? fun key => ?_
  by_cases hkey : key = e.1
  · subst hkey
    obtain ⟨later, hlater, hkey⟩ := List.mem_map.1 h
    have hsome : ((ofList r).get? e.1).isSome = true := by
      rw [get?_ofList, List.lookup_isSome_iff]
      exact ⟨later, List.mem_reverse.2 hlater, beq_iff_eq.2 hkey.symm⟩
    obtain ⟨value, hvalue⟩ := Option.isSome_iff_exists.1 hsome
    rw [← List.singleton_append, get?_ofList_append, get?_ofList_append, hvalue, get?_ofList_append,
      hvalue]
    rfl
  · exact get?_ofList_insert_of_ne hkey

/-- Pairs with keys of their own may stand in any order. -/
theorem ofList_perm {l r : List (String × α)} (h : l.Perm r) (hl : (l.map Prod.fst).Nodup) :
    ofList l = ofList r := by
  have hr : (r.map Prod.fst).Nodup := (h.map Prod.fst).nodup_iff.1 hl
  refine ext_get? fun key => Option.ext fun value => ?_
  calc (ofList l).get? key = some value
      ↔ (key, value) ∈ l := ⟨mem_of_get?_ofList, get?_ofList_of_mem hl⟩
    _ ↔ (key, value) ∈ r := h.mem_iff
    _ ↔ (ofList r).get? key = some value := ⟨get?_ofList_of_mem hr, mem_of_get?_ofList⟩

theorem contains_iff {t : Table α} {key : String} :
    t.contains key = true ↔ ∃ value, t.get? key = some value :=
  Option.isSome_iff_exists

theorem contains_eq_false_iff {t : Table α} {key : String} :
    t.contains key = false ↔ t.get? key = none :=
  Option.isSome_eq_false_iff.trans Option.isNone_iff_eq_none

theorem nodup_keys (t : Table α) : t.keys.Nodup := by
  rw [keys, List.nodup_iff_pairwise_ne, List.pairwise_map]
  exact t.increasing.imp fun {a b} h (e : a.1 = b.1) => String.lt_irrefl b.1 (e ▸ h)

theorem mem_keys_iff {t : Table α} {key : String} :
    key ∈ t.keys ↔ ∃ value, t.get? key = some value := by
  simp only [keys, List.mem_map, ← t.mem_entries_iff]
  constructor
  · rintro ⟨⟨_, value⟩, he, rfl⟩
    exact ⟨value, he⟩
  · rintro ⟨value, he⟩
    exact ⟨_, he, rfl⟩

theorem mem_values_iff {t : Table α} {value : α} :
    value ∈ t.values ↔ ∃ key, t.get? key = some value := by
  simp only [values, List.mem_map, ← t.mem_entries_iff, Prod.exists, exists_eq_right]

theorem values_eq_filterMap_keys (t : Table α) : t.values = t.keys.filterMap t.get? := by
  rw [values, keys, List.filterMap_map, ← List.filterMap_eq_map]
  refine List.filterMap_congr fun e he => ?_
  exact ((t.mem_entries_iff e.1 e.2).1 he).symm

/-- The keys are those with a value, in increasing order. -/
theorem sort_eq_keys {t : Table α} {s : Finset String}
    (h : ∀ key, key ∈ s ↔ ∃ value, t.get? key = some value) : s.sort = t.keys := by
  have hs : s = t.keys.toFinset := by
    ext key
    rw [h, List.mem_toFinset, mem_keys_iff]
  have hsorted : t.keys.Pairwise (· ≤ ·) := by
    rw [keys, List.pairwise_map]
    exact t.increasing.imp le_of_lt
  rw [hs, (List.toFinset_sort _ t.nodup_keys).2 hsorted]

/-- The keys whose value passes a test. -/
def keysWith (t : Table α) (p : α → Bool) : List String :=
  t.keys.filter fun key => (t.get? key).any p

theorem mem_keysWith_iff {t : Table α} {p : α → Bool} {key : String} :
    key ∈ t.keysWith p ↔ ∃ value, t.get? key = some value ∧ p value = true := by
  simp only [keysWith, List.mem_filter, mem_keys_iff, Option.any_eq_true]
  exact ⟨fun ⟨_, hany⟩ => hany, fun ⟨value, hget, hp⟩ => ⟨⟨value, hget⟩, value, hget, hp⟩⟩

theorem countP_values {t : Table α} {p : α → Bool} {s : Finset String}
    (h : ∀ key, key ∈ s ↔ ∃ value, t.get? key = some value ∧ p value = true) :
    t.values.countP p = s.card := by
  have hs : s = (t.keysWith p).toFinset := by
    ext key
    rw [h, List.mem_toFinset, mem_keysWith_iff]
  rw [hs, keysWith, List.toFinset_card_of_nodup (t.nodup_keys.filter _), values_eq_filterMap_keys,
    List.countP_filterMap, List.countP_eq_length_filter]
  congr 1
  refine List.filter_congr fun key _ => ?_
  cases t.get? key <;> rfl

theorem countP_values_congr {s t : Table α} {p : α → Bool}
    (h : ∀ key value, p value = true → (s.get? key = some value ↔ t.get? key = some value)) :
    s.values.countP p = t.values.countP p := by
  have hkeys (key : String) : key ∈ (t.keysWith p).toFinset ↔
      ∃ value, t.get? key = some value ∧ p value = true := by
    rw [List.mem_toFinset, mem_keysWith_iff]
  rw [countP_values hkeys]
  refine countP_values fun key => (hkeys key).trans (exists_congr fun value => ?_)
  exact and_congr_left fun hp => (h key value hp).symm

/-- What is put where nothing was can be taken away again. -/
theorem erase_insert {t : Table α} {key : String} (h : t.get? key = none) (value : α) :
    (t.insert key value).erase key = t := by
  refine ext_get? fun other => ?_
  rw [get?_erase, get?_insert]
  split
  · next heq => rw [heq, h]
  · rfl

theorem ofList_entries (t : Table α) : ofList t.entries = t := by
  refine ext_get? fun key => Option.ext fun value => ?_
  rw [← t.mem_entries_iff]
  exact ⟨mem_of_get?_ofList, get?_ofList_of_mem t.nodup_keys⟩

end BlockShell.Table
