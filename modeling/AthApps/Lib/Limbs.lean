import Mathlib.Data.Nat.Bitwise
import Mathlib.Tactic.Ring

/-!
# Numbers as words of 32 bits, the highest first

The carry out of a word is read off the top bits of the operands and of the sum.
-/

set_option autoImplicit false

namespace AthApps.Lib

open List

def limbs : List UInt32 → Nat
  | [] => 0
  | word :: rest => word.toNat * 2 ^ (32 * rest.length) + limbs rest

theorem limbs_lt (words : List UInt32) : limbs words < 2 ^ (32 * words.length) := by
  induction words with
  | nil => exact Nat.zero_lt_one
  | cons word rest ih =>
    have small : word.toNat + 1 ≤ 2 ^ 32 := word.toNat_lt
    calc limbs (word :: rest) < word.toNat * 2 ^ (32 * rest.length) + 2 ^ (32 * rest.length) :=
          Nat.add_lt_add_left ih _
      _ = (word.toNat + 1) * 2 ^ (32 * rest.length) := by ring
      _ ≤ 2 ^ 32 * 2 ^ (32 * rest.length) := Nat.mul_le_mul_right _ small
      _ = 2 ^ (32 * (word :: rest).length) := by
          rw [length_cons, ← Nat.pow_add, Nat.mul_add, Nat.mul_one, Nat.add_comm]

theorem limbs_injective {left right : List UInt32} (same : left.length = right.length)
    (equal : limbs left = limbs right) : left = right := by
  induction left generalizing right with
  | nil => exact (eq_nil_of_length_eq_zero same.symm).symm
  | cons word rest ih =>
    cases right with
    | nil => exact absurd same (by simp)
    | cons other others =>
      have lengths : rest.length = others.length := by simpa using same
      have low := limbs_lt rest
      have lowOther := limbs_lt others
      rw [limbs, limbs, lengths] at equal
      rw [lengths] at low
      have positive : 0 < 2 ^ (32 * others.length) := Nat.two_pow_pos _
      have high : word.toNat = other.toNat := by
        have divided := congrArg (· / 2 ^ (32 * others.length)) equal
        simp only [Nat.mul_comm _ (2 ^ (32 * others.length)), Nat.mul_add_div positive,
          Nat.div_eq_of_lt low, Nat.div_eq_of_lt lowOther, Nat.add_zero] at divided
        exact divided
      rw [high] at equal
      rw [UInt32.toNat_inj.mp high, ih lengths (Nat.add_left_cancel equal)]

theorem topBit_eq_zero (word : UInt32) : word &&& 0x80000000 = 0 ↔ word.toNat < 2 ^ 31 := by
  have small := word.toNat_lt
  have bit := Nat.testBit_eq_decide_div_mod_eq (x := word.toNat) (i := 31)
  rw [← UInt32.toNat_inj, UInt32.toNat_and]
  change word.toNat &&& 2 ^ 31 = 0 ↔ _
  rw [Nat.and_two_pow, bit]
  by_cases top : word.toNat < 2 ^ 31
  · rw [Nat.div_eq_of_lt top]
    exact iff_of_true rfl top
  · have one : word.toNat / 2 ^ 31 = 1 := by omega
    rw [one]
    exact iff_of_false (by decide) top

theorem topBit_cases (word : UInt32) :
    word &&& 0x80000000 = 0 ∨ word &&& 0x80000000 = 0x80000000 := by
  rw [← UInt32.toNat_inj, ← UInt32.toNat_inj, UInt32.toNat_and]
  change word.toNat &&& 2 ^ 31 = 0 ∨ word.toNat &&& 2 ^ 31 = 2 ^ 31
  rw [Nat.and_two_pow]
  cases word.toNat.testBit 31 with
  | false => exact Or.inl rfl
  | true => exact Or.inr rfl

theorem limbs_ones (words : List UInt32) :
    words.all (· == 0xFFFFFFFF) = true ↔ limbs words + 1 = 2 ^ (32 * words.length) := by
  induction words with
  | nil => exact iff_of_true rfl rfl
  | cons word rest ih =>
    have low := limbs_lt rest
    have small := word.toNat_lt
    have ones : word = 0xFFFFFFFF ↔ word.toNat = 2 ^ 32 - 1 := by rw [← UInt32.toNat_inj]; rfl
    rw [all_cons, Bool.and_eq_true, ih, beq_iff_eq, ones, limbs, length_cons,
      Nat.mul_add, Nat.mul_one, Nat.add_comm _ 32, Nat.pow_add]
    generalize 2 ^ (32 * rest.length) = power at low ⊢
    constructor
    · intro both
      rw [both.1, Nat.add_assoc, both.2]
      ring
    · intro full
      have top : word.toNat = 2 ^ 32 - 1 := by
        by_contra other
        have less : word.toNat + 2 ≤ 2 ^ 32 := by omega
        have bound := Nat.mul_le_mul_right power less
        rw [Nat.add_mul] at bound
        omega
      refine ⟨top, ?_⟩
      rw [top, Nat.sub_mul] at full
      omega

end AthApps.Lib
