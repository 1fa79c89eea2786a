/-!
# Tables

A table holds at most one value for each key and keeps its keys in increasing order, compared
character by character by code point.  It is determined by what `get?` answers (`Table.ext_get?`),
and each operation is described by its effect on `get?`.
-/

namespace BlockShell

universe u
variable {α : Type u}

/-- The entries of a table, in increasing order of their keys. -/
structure Table (α : Type u) where
  entries : List (String × α)
  increasing : entries.Pairwise fun a b => a.1 < b.1
  deriving Repr, DecidableEq

namespace Table

/-! ## Operations -/

/-- The table without entries. -/
def empty : Table α := ⟨[], .nil⟩

instance : EmptyCollection (Table α) := ⟨empty⟩

instance : Inhabited (Table α) := ⟨empty⟩

/-- The value of a key, if it has one. -/
def get? (t : Table α) (key : String) : Option α := t.entries.lookup key

/-- Whether a key has a value. -/
def contains (t : Table α) (key : String) : Bool := (t.get? key).isSome

/-- The keys in increasing order. -/
def keys (t : Table α) : List String := t.entries.map Prod.fst

/-- The values in the order of their keys. -/
def values (t : Table α) : List α := t.entries.map Prod.snd

/-- The number of keys. -/
def size (t : Table α) : Nat := t.entries.length

/-- The entries with `key` at its place, replacing the value it had. -/
def insertEntry (key : String) (value : α) : List (String × α) → List (String × α)
  | [] => [(key, value)]
  | (k, v) :: rest =>
    if key < k then (key, value) :: (k, v) :: rest
    else if k < key then (k, v) :: insertEntry key value rest
    else (key, value) :: rest

theorem mem_insertEntry {key : String} {value : α} {l : List (String × α)} {e : String × α}
    (h : e ∈ insertEntry key value l) : e = (key, value) ∨ e ∈ l := by
  induction l with
  | nil => simp_all [insertEntry]
  | cons a l ih =>
    unfold insertEntry at h
    split at h
    · simp_all
    · split at h
      · rcases List.mem_cons.1 h with rfl | h
        · exact .inr (List.mem_cons_self ..)
        · exact (ih h).imp_right (List.mem_cons_of_mem _)
      · exact (List.mem_cons.1 h).imp_right (List.mem_cons_of_mem _)

theorem pairwise_insertEntry {key : String} {value : α} {l : List (String × α)}
    (h : l.Pairwise fun a b => a.1 < b.1) :
    (insertEntry key value l).Pairwise fun a b => a.1 < b.1 := by
  induction l with
  | nil => simp [insertEntry]
  | cons a l ih =>
    obtain ⟨k, v⟩ := a
    have ⟨hk, hl⟩ := List.pairwise_cons.1 h
    unfold insertEntry
    split
    · next hlt =>
      refine List.pairwise_cons.2 ⟨fun e he => ?_, h⟩
      rcases List.mem_cons.1 he with rfl | he
      · exact hlt
      · exact String.lt_trans hlt (hk e he)
    · next hnlt =>
      split
      · next hgt =>
        refine List.pairwise_cons.2 ⟨fun e he => ?_, ih hl⟩
        rcases mem_insertEntry he with rfl | he
        · exact hgt
        · exact hk e he
      · next hngt =>
        have : key = k := String.le_antisymm (String.not_lt.1 hngt) (String.not_lt.1 hnlt)
        subst this
        exact List.pairwise_cons.2 ⟨hk, hl⟩

/-- Gives `key` the value `value`, in place of any it had. -/
def insert (t : Table α) (key : String) (value : α) : Table α :=
  ⟨insertEntry key value t.entries, pairwise_insertEntry t.increasing⟩

/-- Takes away a key and its value. -/
def erase (t : Table α) (key : String) : Table α :=
  ⟨t.entries.filter fun e => e.1 != key, t.increasing.filter _⟩

/-- The table of a list of pairs, in which a later pair replaces an earlier one of its key. -/
def ofList (l : List (String × α)) : Table α := l.foldl (fun t e => t.insert e.1 e.2) empty

/-- The entries in increasing order of their keys. -/
def toList (t : Table α) : List (String × α) := t.entries

/-! ## What is looked up -/

theorem lookup_insertEntry_self (key : String) (value : α) (l : List (String × α)) :
    (insertEntry key value l).lookup key = some value := by
  induction l with
  | nil => simp [insertEntry]
  | cons a l ih =>
    obtain ⟨k, v⟩ := a
    unfold insertEntry
    split
    · simp
    · split
      · next hgt =>
        have : (key == k) = false := by
          simpa using fun h : key = k => String.lt_irrefl k (h ▸ hgt)
        simp [List.lookup_cons, this, ih]
      · simp

theorem lookup_insertEntry_of_ne {key other : String} (h : other ≠ key) (value : α)
    (l : List (String × α)) : (insertEntry key value l).lookup other = l.lookup other := by
  induction l with
  | nil => simp [insertEntry, List.lookup_cons, beq_eq_false_iff_ne.2 h]
  | cons a l ih =>
    obtain ⟨k, v⟩ := a
    have hne : (other == key) = false := by simpa using h
    unfold insertEntry
    split
    · simp [List.lookup_cons, hne]
    · next hnlt =>
      split
      · simp [List.lookup_cons, ih]
      · next hngt =>
        have : key = k := String.le_antisymm (String.not_lt.1 hngt) (String.not_lt.1 hnlt)
        subst this
        simp [List.lookup_cons, hne]

theorem lookup_filter_ne (key other : String) (l : List (String × α)) :
    (l.filter fun e => e.1 != key).lookup other =
      if other = key then none else l.lookup other := by
  induction l with
  | nil => simp
  | cons a l ih =>
    obtain ⟨k, v⟩ := a
    by_cases hk : k = key <;> by_cases ho : other = k <;> grind

@[simp] theorem get?_empty (key : String) : (empty : Table α).get? key = none := rfl

@[simp] theorem get?_insert_self (t : Table α) (key : String) (value : α) :
    (t.insert key value).get? key = some value :=
  lookup_insertEntry_self key value t.entries

theorem get?_insert_of_ne (t : Table α) {key other : String} (h : other ≠ key) (value : α) :
    (t.insert key value).get? other = t.get? other :=
  lookup_insertEntry_of_ne h value t.entries

theorem get?_insert (t : Table α) (key other : String) (value : α) :
    (t.insert key value).get? other = if other = key then some value else t.get? other := by
  split
  · next h => rw [h, get?_insert_self]
  · next h => exact t.get?_insert_of_ne h value

theorem get?_erase (t : Table α) (key other : String) :
    (t.erase key).get? other = if other = key then none else t.get? other :=
  lookup_filter_ne key other t.entries

@[simp] theorem get?_erase_self (t : Table α) (key : String) : (t.erase key).get? key = none := by
  simp [get?_erase]

theorem mem_entries_iff (t : Table α) (key : String) (value : α) :
    (key, value) ∈ t.entries ↔ t.get? key = some value := by
  obtain ⟨l, hl⟩ := t
  unfold get?
  dsimp only
  induction l with
  | nil => simp
  | cons a l ih =>
    obtain ⟨k, v⟩ := a
    have ⟨hk, hl⟩ := List.pairwise_cons.1 hl
    by_cases h : key = k
    · subst h
      have : (key, value) ∉ l := fun hm => String.lt_irrefl key (hk (key, value) hm)
      simp [this, eq_comm]
    · have : (key == k) = false := by simpa using h
      simp [List.lookup_cons, this, h, ih hl]

/-- Two tables that answer every look-up alike are equal. -/
theorem ext_get? {s t : Table α} (h : ∀ key, s.get? key = t.get? key) : s = t := by
  have hmem (e : String × α) : e ∈ s.entries ↔ e ∈ t.entries := by
    rw [mem_entries_iff, mem_entries_iff, h]
  obtain ⟨l, hl⟩ := s
  obtain ⟨r, hr⟩ := t
  congr
  dsimp only at hmem
  clear h
  induction l generalizing r with
  | nil =>
    cases r with
    | nil => rfl
    | cons b r => exact absurd ((hmem b).2 (List.mem_cons_self ..)) List.not_mem_nil
  | cons a l ih =>
    have ⟨ha, hl'⟩ := List.pairwise_cons.1 hl
    cases r with
    | nil => exact absurd ((hmem a).1 (List.mem_cons_self ..)) List.not_mem_nil
    | cons b r =>
      have ⟨hb, hr'⟩ := List.pairwise_cons.1 hr
      have hab : a = b := by
        rcases List.mem_cons.1 ((hmem a).1 (List.mem_cons_self ..)) with hab | har
        · exact hab
        · rcases List.mem_cons.1 ((hmem b).2 (List.mem_cons_self ..)) with hba | hbl
          · exact hba.symm
          · exact absurd (String.lt_trans (ha b hbl) (hb a har)) (String.lt_irrefl _)
      subst hab
      congr 1
      refine ih hl' r hr' fun e => ⟨fun he => ?_, fun he => ?_⟩
      · rcases List.mem_cons.1 ((hmem e).1 (List.mem_cons_of_mem _ he)) with rfl | h
        · exact absurd (ha _ he) (String.lt_irrefl _)
        · exact h
      · rcases List.mem_cons.1 ((hmem e).2 (List.mem_cons_of_mem _ he)) with rfl | h
        · exact absurd (hb _ he) (String.lt_irrefl _)
        · exact h

theorem size_eq_zero_iff (t : Table α) : t.size = 0 ↔ t = empty := by
  obtain ⟨l, hl⟩ := t
  simp [size, empty]

end Table

end BlockShell
