import BlockShell.Json.Number
import Mathlib.Data.List.Basic

/-!
# Number literals are read as they are written

A literal is read back as far as it goes, that is, up to a character that cannot stand in a literal
(`Stops`, `read?_chars`).  The literal of a natural number stands for the number (`natural?_ofNat`).
If an integer fits into 64 bits its literal is in range (`inRange_ofInt`): rounding at most doubles a
number.
-/

namespace BlockShell

/-! ## Rounding -/

theorem roundDiv_le (n d : Nat) : roundDiv n d ≤ n / d + 1 := by
  unfold roundDiv
  split <;> omega

theorem roundBinary_one_le (n : Nat) : roundBinary n 1 ≤ 2 * n + 1 := by
  have hunit : 2 ^ ((n / 1).log2 - 52) ≤ n + 1 := by
    rw [Nat.div_one]
    by_cases hn : n = 0
    · subst hn
      decide
    · have hle : 2 ^ (n.log2 - 52) ≤ 2 ^ n.log2 := Nat.pow_le_pow_right (by decide) (by omega)
      have := Nat.log2_self_le hn
      omega
  unfold roundBinary
  generalize hu : Nat.pow 2 ((n / 1).log2 - 52) = unit
  have hle : unit ≤ n + 1 := hu ▸ hunit
  dsimp only
  rw [Nat.one_mul]
  have hround : roundDiv n unit * unit ≤ (n / unit + 1) * unit :=
    Nat.mul_le_mul_right unit (roundDiv_le n unit)
  have hdiv : n / unit * unit ≤ n := Nat.div_mul_le_self n unit
  rw [Nat.add_mul, Nat.one_mul] at hround
  omega

namespace Json.Number

/-! ## Digits -/

theorem isDigit_of_mem_toDigits {n : Nat} {c : Char} (h : c ∈ Nat.toDigits 10 n) :
    c.isDigit = true :=
  Nat.isDigit_of_mem_toDigits (by decide) (by decide) h

theorem digitChar_ne_zero : ∀ n < 10, n ≠ 0 → Nat.digitChar n ≠ '0' := by decide

/-- Only zero has a zero as its first digit. -/
theorem head?_toDigits_ne {n : Nat} (hn : n ≠ 0) : (Nat.toDigits 10 n).head? ≠ some '0' := by
  induction n using Nat.strongRecOn with
  | _ n ih =>
    rw [Nat.toDigits_eq_if (by decide)]
    split
    · next hlt =>
      intro h
      exact digitChar_ne_zero n hlt hn (Option.some.inj h)
    · next hge =>
      rw [List.head?_append_of_ne_nil _ Nat.toDigits_ne_nil]
      exact ih (n / 10) (by omega) (by omega)

theorem takeDigits_eq {digits : List Char} {value : Nat}
    (h : Nat.ofDigitChars 10 digits value < UInt64.size) :
    takeDigits value digits = (Nat.ofDigitChars 10 digits value, []) := by
  induction digits generalizing value with
  | nil => simp [takeDigits]
  | cons c cs ih =>
    rw [Nat.ofDigitChars_cons] at h ⊢
    have hnext : 10 * value + (c.toNat - '0'.toNat) < UInt64.size := by
      rw [Nat.ofDigitChars_eq_ofDigitChars_zero] at h
      have hle := Nat.le_mul_of_pos_left (10 * value + (c.toNat - '0'.toNat))
        (Nat.pow_pos (n := cs.length) (show 0 < 10 by decide))
      omega
    unfold takeDigits
    dsimp only
    rw [if_pos hnext]
    exact ih h

theorem scientific_ofNat {n : Nat} (hn : n < UInt64.size) : (ofNat n).scientific = (n, 0) := by
  have hwhole : takeDigits 0 (Nat.toDigits 10 n) = (n, []) := by
    rw [takeDigits_eq (by rwa [Nat.ofDigitChars_ten_toDigits]), Nat.ofDigitChars_ten_toDigits]
  unfold scientific
  simp only [ofNat, hwhole]
  rfl

theorem inRange_ofNat {n : Nat} (hn : n < UInt64.size) : (ofNat n).inRange = true := by
  have hone : roundBinary 1 1 = 1 := by decide
  have hbound : roundBinary (roundBinary n 1) 1 < Nat.pow 2 1024 := by
    have hinner := roundBinary_one_le n
    have houter := roundBinary_one_le (roundBinary n 1)
    have hsize : 4 * UInt64.size + 3 ≤ 2 ^ 67 := by decide
    have hlt : roundBinary (roundBinary n 1) 1 < 2 ^ 67 := by omega
    have hpow : ∀ k, 67 ≤ k → 2 ^ 67 ≤ Nat.pow 2 k := fun k hk =>
      Nat.pow_le_pow_right (by decide) hk
    exact Nat.lt_of_lt_of_le hlt (hpow 1024 (by decide))
  have hscaled : roundBinary (roundBinary n 1 * roundBinary 1 1) 1 < Nat.pow 2 1024 := by
    rwa [hone, Nat.mul_one]
  unfold inRange
  rw [scientific_ofNat hn]
  exact Bool.or_eq_true_iff.2 (.inr (Bool.and_eq_true_iff.2 ⟨rfl, decide_eq_true hscaled⟩))

theorem natural?_ofNat (n : Nat) : (ofNat n).natural? = some n := by
  simp [natural?, ofNat]

/-- The literal of an integer. -/
def ofInt : Int → Number
  | .ofNat n => ofNat n
  | .negSucc n => { ofNat (n + 1) with negative := true }

theorem inRange_ofInt {z : Int} (hz : z.natAbs < UInt64.size) : (ofInt z).inRange = true := by
  cases z with
  | ofNat n => exact inRange_ofNat hz
  | negSucc n => exact inRange_ofNat (n := n + 1) hz

/-! ## Literals -/

/-- Digits stand where there must be some, and zeros in front only where there are no others. -/
structure IsLiteral (n : Number) : Prop where
  whole_ne_nil : n.whole ≠ []
  whole : ∀ c ∈ n.whole, c.isDigit = true
  leading : n.whole.head? = some '0' → n.whole = ['0']
  fraction : ∀ c ∈ n.fraction, c.isDigit = true
  exponent : ∀ negative digits, n.exponent = some (negative, digits) →
    digits ≠ [] ∧ ∀ c ∈ digits, c.isDigit = true

theorem isLiteral_ofNat (n : Nat) : (ofNat n).IsLiteral where
  whole_ne_nil := Nat.toDigits_ne_nil
  whole _ hc := isDigit_of_mem_toDigits hc
  leading h := by
    by_cases hn : n = 0
    · subst hn
      rfl
    · exact absurd h (head?_toDigits_ne hn)
  fraction := nofun
  exponent := nofun

theorem isLiteral_ofInt (z : Int) : (ofInt z).IsLiteral := by
  cases z with
  | ofNat n => exact isLiteral_ofNat n
  | negSucc n =>
    obtain ⟨hne, hwhole, hleading, hfraction, hexponent⟩ := isLiteral_ofNat (n + 1)
    exact ⟨hne, hwhole, hleading, hfraction, hexponent⟩

/-! ## Reading -/

/-- What may follow a literal without being taken as a part of it. -/
def Stops (rest : List Char) : Prop :=
  ∀ c ∈ rest.head?, c.isDigit = false ∧ c ≠ '.' ∧ c ≠ 'e' ∧ c ≠ 'E'

/-- What may follow a run of digits. -/
def NoDigit (rest : List Char) : Prop := ∀ c ∈ rest.head?, c.isDigit = false

theorem stops_nil : Stops [] := fun _ h => absurd h (by simp)

theorem stops_cons {c : Char} {rest : List Char}
    (h : c.isDigit = false ∧ c ≠ '.' ∧ c ≠ 'e' ∧ c ≠ 'E') : Stops (c :: rest) := by
  intro d hd
  cases hd
  exact h

theorem Stops.noDigit {rest : List Char} (h : Stops rest) : NoDigit rest := fun c hc => (h c hc).1

theorem noDigit_cons {c : Char} (hc : c.isDigit = false) (rest : List Char) : NoDigit (c :: rest) := by
  intro d hd
  cases hd
  exact hc

theorem readDigits?_append {digits rest : List Char} (hne : digits ≠ [])
    (hall : ∀ c ∈ digits, c.isDigit = true) (h : NoDigit rest) :
    readDigits? (digits ++ rest) = some (digits, rest) := by
  have htake : rest.takeWhile Char.isDigit = [] := by
    cases rest with
    | nil => rfl
    | cons c rest => simp [h c rfl]
  have hdrop : rest.dropWhile Char.isDigit = rest := by
    cases rest with
    | nil => rfl
    | cons c rest => simp [h c rfl]
  unfold readDigits?
  rw [List.takeWhile_append_of_pos hall, List.dropWhile_append_of_pos hall, htake, hdrop,
    List.append_nil]
  cases digits with
  | nil => exact absurd rfl hne
  | cons => rfl

variable {n : Number} {rest : List Char}

theorem readWhole?_append (hn : n.IsLiteral) (h : NoDigit rest) :
    readWhole? (n.whole ++ rest) = some (n.whole, rest) := by
  by_cases hzero : n.whole.head? = some '0'
  · rw [hn.leading hzero]
    rfl
  · unfold readWhole?
    split
    · next hcons =>
      have hhead := congrArg List.head? hcons
      rw [List.head?_append_of_ne_nil _ hn.whole_ne_nil] at hhead
      exact absurd hhead hzero
    · exact readDigits?_append hn.whole_ne_nil hn.whole h

/-- The fraction of a literal with its point, if it has one. -/
def fractionChars (n : Number) : List Char :=
  if n.fraction.isEmpty then [] else '.' :: n.fraction

/-- The exponent of a literal with its letter, if it has one. -/
def exponentChars (n : Number) : List Char :=
  match n.exponent with
  | none => []
  | some (negative, digits) => 'e' :: (if negative then '-' :: digits else digits)

theorem chars_eq (n : Number) : n.chars =
    (if n.negative then ['-'] else []) ++ (n.whole ++ (n.fractionChars ++ n.exponentChars)) := by
  rw [chars, ← List.append_assoc, ← List.append_assoc]
  rfl

theorem exponentChars_cases (n : Number) (h : Stops rest) :
    Stops (n.exponentChars ++ rest) ∨ ∃ cs, n.exponentChars ++ rest = 'e' :: cs := by
  unfold exponentChars
  split
  · exact .inl h
  · exact .inr ⟨_, rfl⟩

theorem noDigit_exponentChars (n : Number) (h : Stops rest) : NoDigit (n.exponentChars ++ rest) := by
  rcases n.exponentChars_cases h with hstops | ⟨cs, hcs⟩
  · exact hstops.noDigit
  · rw [hcs]
    exact noDigit_cons (by decide) cs

theorem readFraction?_append (hn : n.IsLiteral) (h : Stops rest) :
    readFraction? (n.fractionChars ++ (n.exponentChars ++ rest)) =
      some (n.fraction, n.exponentChars ++ rest) := by
  unfold fractionChars
  split
  · next hnil =>
    rw [List.isEmpty_iff.1 hnil, List.nil_append]
    unfold readFraction?
    split
    · next hdot =>
      rcases n.exponentChars_cases h with hstops | ⟨cs, hcs⟩
      · rw [hdot] at hstops
        exact absurd rfl (hstops '.' rfl).2.1
      · rw [hcs] at hdot
        cases hdot
    · rfl
  · next hne =>
    rw [List.isEmpty_iff] at hne
    exact readDigits?_append hne hn.fraction (n.noDigit_exponentChars h)

theorem readSign_append {negative : Bool} {digits : List Char} (hne : digits ≠ [])
    (hall : ∀ c ∈ digits, c.isDigit = true) (rest : List Char) :
    readSign ((if negative then '-' :: digits else digits) ++ rest) = (negative, digits ++ rest) := by
  cases negative with
  | true => rfl
  | false =>
    obtain ⟨c, cs, rfl⟩ := List.exists_cons_of_ne_nil hne
    have hc := hall c (List.mem_cons_self ..)
    simp only [Bool.false_eq_true, if_false, List.cons_append]
    unfold readSign
    split
    · next heq =>
      cases heq
      exact absurd hc (by decide)
    · next heq =>
      cases heq
      exact absurd hc (by decide)
    · rfl

theorem readExponent?_append (hn : n.IsLiteral) (h : Stops rest) :
    readExponent? (n.exponentChars ++ rest) = some (n.exponent, rest) := by
  unfold exponentChars
  split
  · next hnone =>
    rw [hnone, List.nil_append]
    cases rest with
    | nil => rfl
    | cons c rest =>
      have hc := (h c rfl).2.2
      simp [readExponent?, hc]
  · next negative digits hsome =>
    obtain ⟨hne, hall⟩ := hn.exponent negative digits hsome
    rw [hsome, List.cons_append, readExponent?, if_pos (by decide),
      readSign_append hne hall, readDigits?_append hne hall h.noDigit]
    rfl

theorem noDigit_fractionChars (n : Number) (h : Stops rest) :
    NoDigit (n.fractionChars ++ (n.exponentChars ++ rest)) := by
  unfold fractionChars
  split
  · exact n.noDigit_exponentChars h
  · exact noDigit_cons (by decide) _

/-- A literal is read back. -/
theorem read?_chars (hn : n.IsLiteral) (h : Stops rest) : read? (n.chars ++ rest) = some (n, rest) := by
  have hunsigned : readUnsigned? n.negative
      (n.whole ++ (n.fractionChars ++ (n.exponentChars ++ rest))) = some (n, rest) := by
    simp [readUnsigned?, readWhole?_append hn (n.noDigit_fractionChars h),
      readFraction?_append hn h, readExponent?_append hn h]
  rw [chars_eq, List.append_assoc, List.append_assoc, List.append_assoc]
  cases hnegative : n.negative with
  | true =>
    rw [hnegative] at hunsigned
    exact hunsigned
  | false =>
    rw [hnegative] at hunsigned
    rw [if_neg Bool.false_ne_true, List.nil_append]
    unfold read?
    split
    · next hcons =>
      have hhead := congrArg List.head? hcons
      rw [List.head?_append_of_ne_nil _ hn.whole_ne_nil] at hhead
      exact absurd (hn.whole _ (List.mem_of_mem_head? hhead)) (by decide)
    · exact hunsigned

end Json.Number

end BlockShell
