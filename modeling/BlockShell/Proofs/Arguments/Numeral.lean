import BlockShell.Proofs.Arguments.Field
import BlockShell.Proofs.Text.Decimal
import Mathlib.Data.Nat.Digits.Defs

/-!
# Numerals

A numeral is a sign or none and then ASCII digits, at least one and as many as one likes.  `WritesDigits`,
`WritesNatural` and `WritesInteger` say of which number: a digit counts ten times what it would count
one place further to the right.  Sectors and flags are read from the numerals of numbers that have
64 bits, and from no other texts (`numbers_read_exactly`).
-/

namespace BlockShell

namespace Text

/-! ## Numbers as they are written -/

/-- A nonempty run of ASCII digits and its value; the last digit counts least. -/
structure WritesDigits (cs : List Char) (n : Nat) : Prop where
  ne_nil : cs ≠ []
  digits : ∀ c ∈ cs, '0' ≤ c ∧ c ≤ '9'
  value : Nat.ofDigits 10 (cs.map fun c => c.toNat - '0'.toNat).reverse = n

/-- Digits, after a plus sign or none. -/
inductive WritesNatural : List Char → Nat → Prop
  | bare {cs : List Char} {n : Nat} : WritesDigits cs n → WritesNatural cs n
  | plus {cs : List Char} {n : Nat} : WritesDigits cs n → WritesNatural ('+' :: cs) n

/-- Digits, after either sign or none. -/
inductive WritesInteger : List Char → Int → Prop
  | natural {cs : List Char} {n : Nat} : WritesNatural cs n → WritesInteger cs n
  | minus {cs : List Char} {n : Nat} : WritesDigits cs n → WritesInteger ('-' :: cs) (-n)

/-! ## Digits -/

/-- Digits that are read one after the other come to the sum of what each of them counts. -/
theorem ofDigitChars_eq_ofDigits (cs : List Char) :
    Nat.ofDigitChars 10 cs 0 = Nat.ofDigits 10 (cs.map fun c => c.toNat - '0'.toNat).reverse := by
  induction cs with
  | nil => rfl
  | cons c cs ih =>
    rw [Nat.ofDigitChars_cons, Nat.ofDigitChars_eq_ofDigitChars_zero, ih, List.map_cons,
      Nat.ofDigits_reverse_cons, List.length_map, Nat.mul_zero, Nat.zero_add, Nat.add_comm]

theorem isDigit_iff {c : Char} : c.isDigit = true ↔ '0' ≤ c ∧ c ≤ '9' := Char.isDigit_iff_toNat

theorem digits?_eq_some_iff {cs : List Char} {n : Nat} : digits? cs = some n ↔ WritesDigits cs n := by
  unfold digits?
  simp only [List.all_eq_true, isDigit_iff, ofDigitChars_eq_ofDigits, Option.ite_none_right_eq_some,
    Option.some.injEq]
  exact ⟨fun ⟨⟨hne, hall⟩, hvalue⟩ => ⟨hne, hall, hvalue⟩,
    fun ⟨hne, hall, hvalue⟩ => ⟨⟨hne, hall⟩, hvalue⟩⟩

/-- A sign is no digit. -/
theorem WritesDigits.head_ne {c : Char} {cs : List Char} {n : Nat} (h : WritesDigits (c :: cs) n) :
    c ≠ '+' ∧ c ≠ '-' := by
  have hc := h.digits c (List.mem_cons_self ..)
  constructor <;> rintro rfl <;> exact absurd hc (by decide)

theorem natural?_eq_some_iff {cs : List Char} {n : Nat} :
    natural? cs = some n ↔ WritesNatural cs n := by
  unfold natural?
  split
  · rw [digits?_eq_some_iff]
    refine ⟨.plus, fun h => ?_⟩
    cases h with
    | bare h => exact absurd rfl h.head_ne.1
    | plus h => exact h
  · next hplus =>
    rw [digits?_eq_some_iff]
    refine ⟨.bare, fun h => ?_⟩
    cases h with
    | bare h => exact h
    | plus h => exact absurd rfl (hplus _)

theorem integer?_eq_some_iff {cs : List Char} {n : Int} :
    integer? cs = some n ↔ WritesInteger cs n := by
  unfold integer?
  split
  · simp only [Option.map_eq_some_iff, Option.bind_eq_bind, Option.bind_eq_some_iff, Option.pure_def,
      Option.some.injEq, digits?_eq_some_iff]
    constructor
    · rintro ⟨_, ⟨n, h, rfl⟩, rfl⟩
      exact .minus h
    · intro h
      cases h with
      | natural h =>
        cases h with
        | bare h => exact absurd rfl h.head_ne.2
      | minus h => exact ⟨_, ⟨_, h, rfl⟩, rfl⟩
  · next hminus =>
    simp only [Option.map_eq_some_iff, Option.bind_eq_bind, Option.bind_eq_some_iff, Option.pure_def,
      Option.some.injEq, natural?_eq_some_iff]
    constructor
    · rintro ⟨_, ⟨n, h, rfl⟩, rfl⟩
      exact .natural h
    · intro h
      cases h with
      | natural h => exact ⟨_, ⟨_, h, rfl⟩, rfl⟩
      | minus h => exact absurd rfl (hminus _)

/-- A text writes no two numbers. -/
theorem WritesNatural.unique {cs : List Char} {m n : Nat} (hm : WritesNatural cs m)
    (hn : WritesNatural cs n) : m = n := by
  rw [← natural?_eq_some_iff] at hm hn
  exact Option.some.inj (hm.symm.trans hn)

theorem WritesDigits.trimmed {cs : List Char} {n : Nat} (h : WritesDigits cs n) :
    Trimmed (.ofList cs) := by
  have hblank : ∀ c ∈ cs, isBlank c = false := by
    intro c hc
    obtain ⟨hlow, hhigh⟩ : 48 ≤ c.toNat ∧ c.toNat ≤ 57 := h.digits c hc
    simp [isBlank]
    omega
  unfold Trimmed
  rw [String.toList_ofList]
  exact ⟨fun c hc => hblank c (List.mem_of_mem_head? hc),
    fun c hc => hblank c (List.mem_of_mem_getLast? hc)⟩

/-! ## Numbers of 64 bits -/

theorem word?_eq_some_iff {s : String} {n : UInt64} :
    word? s = some n ↔ WritesNatural s.toList n.toNat := by
  unfold word?
  simp only [Option.bind_eq_some_iff, natural?_eq_some_iff, Option.dite_none_right_eq_some,
    Option.some.injEq]
  constructor
  · rintro ⟨k, h, hlt, rfl⟩
    rwa [UInt64.toNat_ofNatLT]
  · intro h
    exact ⟨n.toNat, h, n.toNat_lt_size, UInt64.ofNatLT_toNat n⟩

theorem word?_eq_none_iff {s : String} :
    word? s = none ↔ ∀ n ≤ 2 ^ 64 - 1, ¬ WritesNatural s.toList n := by
  rw [Option.eq_none_iff_forall_ne_some]
  constructor
  · intro h n hn hwrites
    have hlt : n < UInt64.size := Nat.lt_of_le_pred (by decide) hn
    refine h (.ofNatLT n hlt) (word?_eq_some_iff.2 ?_)
    rwa [UInt64.toNat_ofNatLT]
  · intro h n hn
    exact h n.toNat (Nat.le_pred_of_lt n.toNat_lt_size) (word?_eq_some_iff.1 hn)

/-- A numeral with a sign or none, and the number of 64 bits, one of them for the sign, that it writes. -/
def WritesSignedWord (cs : List Char) (n : Int) : Prop :=
  WritesInteger cs n ∧ -(2 ^ 63) ≤ n ∧ n ≤ 2 ^ 63 - 1

theorem signedWord?_eq_some_iff {s : String} {n : Int} :
    signedWord? s = some n ↔ WritesSignedWord s.toList n := by
  unfold signedWord? WritesSignedWord
  simp only [Option.bind_eq_some_iff, integer?_eq_some_iff, Option.ite_none_right_eq_some,
    Option.some.injEq]
  constructor
  · rintro ⟨k, h, ⟨hlow, hhigh⟩, rfl⟩
    exact ⟨h, by omega, by omega⟩
  · rintro ⟨h, hlow, hhigh⟩
    exact ⟨n, h, ⟨by omega, by omega⟩, rfl⟩

theorem flag?_eq_some_iff {s : String} {b : Bool} :
    flag? s = some b ↔ ∃ n, WritesSignedWord s.toList n ∧ b = (n != 0) := by
  unfold flag?
  simp only [Option.map_eq_some_iff, signedWord?_eq_some_iff]
  exact exists_congr fun n => and_congr_right fun _ => eq_comm

theorem flag?_eq_none_iff {s : String} : flag? s = none ↔ ∀ n, ¬ WritesSignedWord s.toList n := by
  unfold flag?
  rw [Option.map_eq_none_iff, Option.eq_none_iff_forall_ne_some]
  exact forall_congr' fun n => not_congr signedWord?_eq_some_iff

end Text

/-! ## Fields -/

namespace Arguments

variable {field value : String}

theorem readSectors_eq_error_iff {e : FieldError} : readSectors field value = .error e ↔
    (∀ n ≤ 2 ^ 64 - 1, ¬ Text.WritesNatural (Text.trim value).toList n) ∧
      e = .invalid field value := by
  rw [← Text.word?_eq_none_iff]
  unfold readSectors
  cases Text.word? (Text.trim value) <;> simp [eq_comm]

theorem readFlag_eq_error_iff {e : FieldError} : readFlag field value = .error e ↔
    (∀ n, ¬ Text.WritesSignedWord (Text.trim value).toList n) ∧ e = .invalid field value := by
  rw [← Text.flag?_eq_none_iff]
  unfold readFlag
  cases Text.flag? (Text.trim value) <;> simp [eq_comm]

/-- Digits are read as they stand, however many there are. -/
theorem readSectors_digits {digits : List Char} {n : Nat} (h : Text.WritesDigits digits n) :
    readSectors field (.ofList digits) =
      if n < 2 ^ 64 then .ok (.ofNat n) else .error (.invalid field (.ofList digits)) := by
  have htrim : Text.trim (.ofList digits) = .ofList digits := Text.trim_eq_self h.trimmed
  have hwrites : Text.WritesNatural (Text.trim (.ofList digits)).toList n := by
    rw [htrim, String.toList_ofList]
    exact .bare h
  split
  · next hlt =>
    refine readSectors_eq_ok_iff.2 (Text.word?_eq_some_iff.2 ?_)
    rwa [UInt64.toNat_ofNat_of_lt' hlt]
  · next hge =>
    refine readSectors_eq_error_iff.2 ⟨fun k hk hwrites' => ?_, rfl⟩
    have := hwrites.unique hwrites'
    omega

/-- Sectors are read from the numerals, with a plus sign or none, of numbers below `2 ^ 64`, and flags from
those of signed numbers of 64 bits.  Blanks around them do not count, and any other text is reported as it
was given. -/
theorem numbers_read_exactly (field value : String) :
    let t := Text.trim value
    (∃ before after, value = before ++ t ++ after ∧ Text.allBlank before = true ∧
      Text.allBlank after = true ∧ Text.Trimmed t) ∧
    (∀ n, readSectors field value = .ok n ↔ Text.WritesNatural t.toList n.toNat) ∧
    (∀ e, readSectors field value = .error e ↔
      (∀ n ≤ 2 ^ 64 - 1, ¬ Text.WritesNatural t.toList n) ∧ e = .invalid field value) ∧
    (∀ b, readFlag field value = .ok b ↔ ∃ n, Text.WritesSignedWord t.toList n ∧ b = (n != 0)) ∧
    (∀ e, readFlag field value = .error e ↔
      (∀ n, ¬ Text.WritesSignedWord t.toList n) ∧ e = .invalid field value) ∧
    (∀ digits n, Text.WritesDigits digits n → readSectors field (.ofList digits) =
      if n < 2 ^ 64 then .ok (.ofNat n) else .error (.invalid field (.ofList digits))) ∧
    ∀ n : Sectors, readSectors field (toString n.toNat) = .ok n := by
  intro t
  obtain ⟨before, after, hvalue, hbefore, hafter⟩ := Text.exists_trim value
  refine ⟨⟨before, after, hvalue, hbefore, hafter, Text.trimmed_trim value⟩,
    fun n => readSectors_eq_ok_iff.trans Text.word?_eq_some_iff, fun e => readSectors_eq_error_iff,
    fun b => readFlag_eq_ok_iff.trans Text.flag?_eq_some_iff, fun e => readFlag_eq_error_iff,
    fun digits n => readSectors_digits, fun n => ?_⟩
  have hdigits : Text.WritesDigits (toString n.toNat).toList n.toNat := by
    rw [Text.toList_toString, ← Text.digits?_eq_some_iff]
    exact Text.digits?_toDigits n.toNat
  have hread : readSectors field (.ofList (toString n.toNat).toList) = _ := readSectors_digits hdigits
  rwa [String.ofList_toList, if_pos n.toNat_lt, UInt64.ofNat_toNat] at hread

/-- The first number that is too large, with zeros in front, and a zero with a minus sign. -/
theorem numbers_read_exactly_of_extremes :
    let tooLarge := "00018446744073709551616".toList
    Text.WritesDigits tooLarge (2 ^ 64) ∧
      readSectors "capacity_sectors" (.ofList tooLarge) =
        .error (.invalid "capacity_sectors" (.ofList tooLarge)) ∧
      Text.WritesSignedWord (Text.trim "\t-0 ").toList 0 ∧ readFlag "read_only" "\t-0 " = .ok false := by
  intro tooLarge
  have hdigits : Text.WritesDigits tooLarge (2 ^ 64) := Text.digits?_eq_some_iff.1 (by decide +kernel)
  have hzero : Text.WritesSignedWord (Text.trim "\t-0 ").toList 0 :=
    ⟨Text.integer?_eq_some_iff.1 (by decide +kernel), by decide, by decide⟩
  obtain ⟨-, -, -, -, -, hlong, -⟩ := numbers_read_exactly "capacity_sectors" ""
  obtain ⟨-, -, -, hflag, -⟩ := numbers_read_exactly "read_only" "\t-0 "
  exact ⟨hdigits, (hlong tooLarge _ hdigits).trans (if_neg (Nat.lt_irrefl _)), hzero,
    (hflag false).2 ⟨0, hzero, rfl⟩⟩

end Arguments

end BlockShell
