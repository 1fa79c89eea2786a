import BlockShell.Proofs.Text.Cut
import BlockShell.Text.Decimal

/-!
# Numbers in decimal

A number of 64 bits is read back from its decimal digits (`word?_toString`).
-/

namespace BlockShell.Text

theorem digits?_toDigits (n : Nat) : digits? (Nat.toDigits 10 n) = some n := by
  have hall : (Nat.toDigits 10 n).all Char.isDigit = true := by
    rw [List.all_eq_true]
    exact fun c hc => Nat.isDigit_of_mem_toDigits (by decide) (by decide) hc
  unfold digits?
  rw [if_pos ⟨Nat.toDigits_ne_nil, hall⟩, Nat.ofDigitChars_ten_toDigits]

theorem natural?_toDigits (n : Nat) : natural? (Nat.toDigits 10 n) = some n := by
  have h := digits?_toDigits n
  unfold natural?
  split
  · next cs hcs =>
    have : ('+' : Char).isDigit = true :=
      Nat.isDigit_of_mem_toDigits (b := 10) (n := n) (by decide) (by decide)
        (hcs ▸ List.mem_cons_self ..)
    exact absurd this (by decide)
  · exact h

theorem toList_toString (n : Nat) : (toString n).toList = Nat.toDigits 10 n := Nat.toList_repr

theorem word?_toString (n : UInt64) : word? (toString n.toNat) = some n := by
  unfold word?
  rw [toList_toString, natural?_toDigits, Option.bind_some, dif_pos n.toNat_lt_size]
  exact congrArg some (UInt64.ofNatLT_toNat n)

theorem isDigit_of_mem_toString {n : Nat} {c : Char} (h : c ∈ (toString n).toList) :
    c.isDigit = true := by
  rw [toList_toString] at h
  exact Nat.isDigit_of_mem_toDigits (by decide) (by decide) h

theorem toString_injective {m n : Nat} (h : toString m = toString n) : m = n := by
  have hm := natural?_toDigits m
  rw [← toList_toString, h, toList_toString, natural?_toDigits] at hm
  exact (Option.some.inj hm).symm

theorem toString_ne_empty (n : Nat) : toString n ≠ "" := Nat.repr_ne_empty

end BlockShell.Text
