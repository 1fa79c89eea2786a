import BlockShell.Arguments.Field

/-!
# When a field is read

Each way to read a field succeeds in exactly one case, stated through `Table.get?`.  The first
lemmas take a computation that may fail apart; the proofs about targets use them throughout.
-/

namespace BlockShell

theorem bind_eq_ok_iff {ε α β : Type} {x : Except ε α} {f : α → Except ε β} {b : β} :
    x >>= f = .ok b ↔ ∃ a, x = .ok a ∧ f a = .ok b := by
  cases x <;> simp [bind, Except.bind]

theorem map_eq_ok_iff {ε α β : Type} {x : Except ε α} {f : α → β} {b : β} :
    x.map f = .ok b ↔ ∃ a, x = .ok a ∧ f a = b := by
  cases x <;> simp [Except.map]

theorem both_eq_ok_iff {ε α β γ : Type} {x : Except ε α} {y : Except ε β} {f : α → β → γ} {c : γ} :
    (do let a ← x; let b ← y; return f a b) = .ok c ↔
      ∃ a b, x = .ok a ∧ y = .ok b ∧ f a b = c := by
  cases x <;> cases y <;> simp [bind, Except.bind, pure, Except.pure]

namespace Arguments

/-! ## Values -/

theorem readSectors_eq_ok_iff {field value : String} {n : Sectors} :
    readSectors field value = .ok n ↔ Text.word? (Text.trim value) = some n := by
  unfold readSectors
  split <;> simp_all

theorem readFlag_eq_ok_iff {field value : String} {b : Bool} :
    readFlag field value = .ok b ↔ Text.flag? (Text.trim value) = some b := by
  unfold readFlag
  split <;> simp_all

theorem readItems_ne_nil (value : String) : readItems value ≠ [] := by
  simp [readItems, Text.pieces_ne_nil]

/-! ## Fields -/

variable {args : Arguments} {field : String}

theorem text_eq_ok_iff {value : String} : args.text field = .ok value ↔ args.get? field = some value := by
  unfold text
  split <;> simp_all

theorem nonemptyText_eq_ok_iff {value : String} :
    args.nonemptyText field = .ok value ↔ args.get? field = some value ∧ value ≠ "" := by
  unfold nonemptyText
  rw [bind_eq_ok_iff]
  constructor
  · rintro ⟨v, hv, h⟩
    rw [text_eq_ok_iff] at hv
    by_cases he : v = ""
    · simp [he] at h; cases h
    · simp [he] at h; cases h
      exact ⟨hv, he⟩
  · rintro ⟨hv, he⟩
    exact ⟨value, text_eq_ok_iff.2 hv, by simp [he]; rfl⟩

theorem positiveSectors_eq_ok_iff {n : Sectors} :
    args.positiveSectors field = .ok n ↔
      ∃ value, args.get? field = some value ∧ Text.word? (Text.trim value) = some n ∧ n ≠ 0 := by
  unfold positiveSectors
  simp only [bind_eq_ok_iff, text_eq_ok_iff, readSectors_eq_ok_iff]
  constructor
  · rintro ⟨v, hv, k, hk, h⟩
    by_cases hz : k = 0
    · simp [hz] at h; cases h
    · simp [hz] at h; cases h
      exact ⟨v, hv, hk, hz⟩
  · rintro ⟨v, hv, hn, hz⟩
    exact ⟨v, hv, n, hn, by simp [hz]; rfl⟩

theorem sectorsOr_of_get? {value : String} (h : args.get? field = some value) (n : Sectors) :
    args.sectorsOr field n = readSectors field value := by
  simp [sectorsOr, h]

theorem sectorsOr_of_absent (h : args.get? field = none) (n : Sectors) :
    args.sectorsOr field n = .ok n := by
  simp [sectorsOr, h]

theorem flagOr_of_get? {value : String} (h : args.get? field = some value) (b : Bool) :
    args.flagOr field b = readFlag field value := by
  simp [flagOr, h]

theorem flagOr_of_absent (h : args.get? field = none) (b : Bool) :
    args.flagOr field b = .ok b := by
  simp [flagOr, h]

theorem items_eq_ok_iff {items : List String} :
    args.items field = .ok items ↔
      ∃ value, args.get? field = some value ∧ readItems value = items ∧ "" ∉ items := by
  unfold Arguments.items
  simp only [bind_eq_ok_iff, text_eq_ok_iff]
  refine exists_congr fun v => and_congr_right fun _ => ?_
  constructor
  · intro h
    by_cases he : "" ∈ readItems v
    · simp [he] at h; cases h
    · simp [he] at h; cases h
      exact ⟨rfl, he⟩
  · rintro ⟨rfl, he⟩
    simp [he]; rfl

theorem paths_eq_ok_iff {paths : List Path} :
    args.paths field = .ok paths ↔
      ∃ value, args.get? field = some value ∧ readItems value = paths.map Path.text ∧
        ∀ p ∈ paths, p.text ≠ "" := by
  unfold Arguments.paths
  rw [map_eq_ok_iff]
  constructor
  · rintro ⟨items, h, rfl⟩
    obtain ⟨v, hv, rfl, he⟩ := items_eq_ok_iff.1 h
    refine ⟨v, hv, by simp [Function.comp_def], fun p hp => ?_⟩
    obtain ⟨item, hi, rfl⟩ := List.mem_map.1 hp
    exact fun e => he (e ▸ hi)
  · rintro ⟨v, hv, hi, he⟩
    refine ⟨paths.map Path.text, items_eq_ok_iff.2 ⟨v, hv, hi, fun hm => ?_⟩, ?_⟩
    · obtain ⟨p, hp, h⟩ := List.mem_map.1 hm
      exact he p hp h
    · simp [Function.comp_def]

end Arguments

end BlockShell
