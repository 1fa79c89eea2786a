import BlockShell.Json.Literal

/-!
# String literals are read as they are written

A text can be written in many ways, since any character may be escaped and some must be (`Writes`).
However it is written, it is read back (`read?_of_writes`).  The literal of a text is one of these
ways (`writes_flatMap_escape`).
-/

namespace BlockShell.Json.Literal

/-- The three ways in which a character is written. -/
theorem escape_cases (c : Char) :
    (∃ e, shortEscape? e = some c ∧ escape c = ['\\', e]) ∨
      (c.toNat < 0x20 ∧ escape c =
        ['\\', 'u', '0', '0', Nat.digitChar (c.toNat / 16), Nat.digitChar (c.toNat % 16)]) ∨
      (c ≠ '"' ∧ c ≠ '\\' ∧ isControl c = false ∧ escape c = [c]) := by
  unfold escape
  split
  · next h => exact .inl ⟨'"', congrArg some h.symm, rfl⟩
  · next hquote =>
    split
    · next h => exact .inl ⟨'\\', congrArg some h.symm, rfl⟩
    · next hslash =>
      split
      · next h => exact .inl ⟨'b', congrArg some h.symm, rfl⟩
      split
      · next h => exact .inl ⟨'f', congrArg some h.symm, rfl⟩
      split
      · next h => exact .inl ⟨'n', congrArg some h.symm, rfl⟩
      split
      · next h => exact .inl ⟨'r', congrArg some h.symm, rfl⟩
      split
      · next h => exact .inl ⟨'t', congrArg some h.symm, rfl⟩
      by_cases hc : isControl c = true
      · rw [if_pos hc]
        exact .inr (.inl ⟨by simpa [isControl] using hc, rfl⟩)
      · rw [if_neg hc]
        exact .inr (.inr ⟨hquote, hslash, Bool.eq_false_iff.2 hc, rfl⟩)

theorem readUnits?_short {e c : Char} (h : shortEscape? e = some c) (rest : List Char) :
    readUnits? ('\\' :: e :: rest) = (readUnits? rest).map fun p => (.char c :: p.1, p.2) := by
  rw [readUnits?]
  · rw [h]
    cases readUnits? rest <;> rfl
  · rintro _ _ _ _ _ rfl -
    cases h

theorem readUnits?_plain {c : Char} (hquote : c ≠ '"') (hslash : c ≠ '\\')
    (hc : isControl c = false) (rest : List Char) :
    readUnits? (c :: rest) = (readUnits? rest).map fun p => (.char c :: p.1, p.2) := by
  rw [readUnits?]
  · rw [hc]
    cases readUnits? rest <;> rfl
  · exact hquote
  · rintro a b c d r rfl
    exact absurd rfl hslash
  · rintro e r rfl
    exact absurd rfl hslash

theorem code?_control : ∀ n < 0x20,
    code? '0' '0' (Nat.digitChar (n / 16)) (Nat.digitChar (n % 16)) = some n := by decide

theorem readUnits?_code {a b c d : Char} {n : Nat} (h : code? a b c d = some n)
    (rest : List Char) :
    readUnits? ('\\' :: 'u' :: a :: b :: c :: d :: rest) =
      (readUnits? rest).map fun p => (.code n :: p.1, p.2) := by
  rw [readUnits?, h]
  cases readUnits? rest <;> rfl

/-- A unit that is no half of a pair stands for itself. -/
theorem chars?_code {n : Nat} (hn : n < 0xD800 ∨ 0xE000 ≤ n) (units : List Unit) :
    chars? (.code n :: units) = (chars? units).map (Char.ofNat n :: ·) := by
  have hl : isLeading n = false := by
    simp only [isLeading, Bool.and_eq_false_iff, decide_eq_false_iff_not]
    omega
  have ht : isTrailing n = false := by
    simp only [isTrailing, Bool.and_eq_false_iff, decide_eq_false_iff_not]
    omega
  cases units with
  | nil => simp [chars?, hl, ht]
  | cons u units => cases u <;> simp [chars?, hl, ht]

theorem chars?_pair {n k : Nat} (hn : 0xD800 ≤ n ∧ n < 0xDC00) (hk : 0xDC00 ≤ k ∧ k < 0xE000)
    (units : List Unit) : chars? (.code n :: .code k :: units) =
      (chars? units).map (Char.ofNat (0x10000 + 0x400 * (n - 0xD800) + (k - 0xDC00)) :: ·) := by
  have hl : isLeading n = true := by simp [isLeading, hn]
  have ht : isTrailing k = true := by simp [isTrailing, hk]
  rw [chars?, if_pos hl, if_pos ht]

/-! ## Ways of writing a text -/

/-- The second list, put between quotes, writes the characters of the first. -/
inductive Writes : List Char → List Char → Prop
  | nil : Writes [] []
  | plain {c : Char} {cs body : List Char} (hquote : c ≠ '"') (hslash : c ≠ '\\')
      (hc : isControl c = false) (h : Writes cs body) : Writes (c :: cs) (c :: body)
  | short {e c : Char} {cs body : List Char} (he : shortEscape? e = some c) (h : Writes cs body) :
      Writes (c :: cs) ('\\' :: e :: body)
  | code {a b c d : Char} {n : Nat} {cs body : List Char} (hcode : code? a b c d = some n)
      (hn : n < 0xD800 ∨ 0xE000 ≤ n) (h : Writes cs body) :
      Writes (Char.ofNat n :: cs) ('\\' :: 'u' :: a :: b :: c :: d :: body)
  /-- A character past the first plane, written as two halves. -/
  | pair {a b c d a' b' c' d' : Char} {n k : Nat} {cs body : List Char}
      (hcode : code? a b c d = some n) (hcode' : code? a' b' c' d' = some k)
      (hn : 0xD800 ≤ n ∧ n < 0xDC00) (hk : 0xDC00 ≤ k ∧ k < 0xE000) (h : Writes cs body) :
      Writes (Char.ofNat (0x10000 + 0x400 * (n - 0xD800) + (k - 0xDC00)) :: cs)
        ('\\' :: 'u' :: a :: b :: c :: d :: '\\' :: 'u' :: a' :: b' :: c' :: d' :: body)

theorem readUnits?_of_writes {cs body : List Char} (h : Writes cs body) (rest : List Char) :
    ∃ units, readUnits? (body ++ '"' :: rest) = some (units, rest) ∧ chars? units = some cs := by
  induction h with
  | nil => exact ⟨[], rfl, rfl⟩
  | @plain c cs body hquote hslash hc _ ih =>
    obtain ⟨units, hread, htext⟩ := ih
    refine ⟨.char c :: units, ?_, by rw [chars?, htext, Option.map_some]⟩
    rw [List.cons_append, readUnits?_plain hquote hslash hc, hread, Option.map_some]
  | @short e c cs body he _ ih =>
    obtain ⟨units, hread, htext⟩ := ih
    refine ⟨.char c :: units, ?_, by rw [chars?, htext, Option.map_some]⟩
    rw [List.cons_append, List.cons_append, readUnits?_short he, hread, Option.map_some]
  | @code a b c d n cs body hcode hn _ ih =>
    obtain ⟨units, hread, htext⟩ := ih
    refine ⟨.code n :: units, ?_, by rw [chars?_code hn, htext, Option.map_some]⟩
    simp only [List.cons_append, readUnits?_code hcode, hread, Option.map_some]
  | @pair a b c d a' b' c' d' n k cs body hcode hcode' hn hk _ ih =>
    obtain ⟨units, hread, htext⟩ := ih
    refine ⟨.code n :: .code k :: units, ?_, by rw [chars?_pair hn hk, htext, Option.map_some]⟩
    simp only [List.cons_append, readUnits?_code hcode, readUnits?_code hcode', hread,
      Option.map_some]

theorem read?_of_writes {cs body : List Char} (h : Writes cs body) (rest : List Char) :
    read? (body ++ '"' :: rest) = some (some (String.ofList cs), rest) := by
  obtain ⟨units, hread, htext⟩ := readUnits?_of_writes h rest
  unfold read?
  rw [hread, Option.map_some]
  simp only [htext, Option.map_some]

theorem writes_flatMap_escape (cs : List Char) : Writes cs (cs.flatMap escape) := by
  induction cs with
  | nil => exact .nil
  | cons c cs ih =>
    rw [List.flatMap_cons]
    rcases escape_cases c with ⟨e, he, h⟩ | ⟨hlt, h⟩ | ⟨hquote, hslash, hc, h⟩
    · rw [h]
      exact .short he ih
    · rw [h]
      have hwrites := Writes.code (code?_control _ hlt) (.inl (by omega)) ih
      rwa [Char.ofNat_toNat] at hwrites
    · rw [h]
      exact .plain hquote hslash hc ih

end BlockShell.Json.Literal
