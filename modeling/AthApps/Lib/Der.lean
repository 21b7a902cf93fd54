import AthApps.Lib.BigEndian
import Mathlib.Data.Nat.Digits.Lemmas

/-!
# Distinguished encoding

Values with a tag of one byte, in the shortest form of the length, and positive
integers in the shortest two's complement.
-/

set_option autoImplicit false

namespace AthApps.Lib

open Sha256 (number bigEndian)
open List

def octets (n : Nat) : Bytes := (Nat.digits 256 n).reverse.map UInt8.ofNat

def derLength (n : Nat) : Bytes :=
  if n < 128 then [UInt8.ofNat n] else UInt8.ofNat (128 + (octets n).length) :: octets n

def der (tag : UInt8) (content : Bytes) : Bytes :=
  tag :: (derLength content.length ++ content)

/-- The contents of an integer: a zero byte in front of a set top bit. -/
def derInteger (n : Nat) : Bytes :=
  if 128 ≤ ((octets n).headD 0).toNat then 0 :: octets n else octets n

theorem octets_step {n : Nat} (positive : 0 < n) :
    octets n = octets (n / 256) ++ [UInt8.ofNat n] := by
  have low : UInt8.ofNat (n % 256) = UInt8.ofNat n := by
    apply UInt8.toNat_inj.mp
    simp
  rw [octets, Nat.digits_def' (by decide) positive, reverse_cons, map_append,
    map_singleton, low, ← octets]

theorem number_octets (n : Nat) : number (octets n) = n := by
  induction n using Nat.strongRecOn with
  | ind n ih =>
    rcases Nat.eq_zero_or_pos n with rfl | positive
    · rfl
    · have single : number [UInt8.ofNat n] = n % 256 := by simp [number]
      rw [octets_step positive, Sha256.number_append, ih (n / 256) (Nat.div_lt_self positive
        (by decide)), single, length_singleton, Nat.pow_one, Nat.mul_comm, Nat.div_add_mod]

theorem octets_length_le {n bytes : Nat} (small : n < 256 ^ bytes) : (octets n).length ≤ bytes := by
  induction bytes generalizing n with
  | zero =>
    have zero : n = 0 := by simpa using small
    simp [zero, octets]
  | succ bytes ih =>
    rcases Nat.eq_zero_or_pos n with rfl | positive
    · simp [octets]
    · have less : n / 256 < 256 ^ bytes := by
        apply Nat.div_lt_of_lt_mul
        rwa [Nat.pow_succ, Nat.mul_comm] at small
      rw [octets_step positive, length_append, length_singleton]
      exact Nat.succ_le_succ (ih less)

theorem bigEndian_number (bytes : Bytes) : bigEndian (number bytes) bytes.length = bytes := by
  induction bytes with
  | nil => rfl
  | cons byte rest ih =>
    have below := Sha256.number_lt rest
    have power : 2 ^ (8 * rest.length) = 256 ^ rest.length := by rw [Nat.pow_mul]
    have positive : 0 < 256 ^ rest.length := Nat.lt_of_le_of_lt (Nat.zero_le _) below
    have high : (byte.toNat * 256 ^ rest.length + number rest) / 256 ^ rest.length =
        byte.toNat := by
      rw [Nat.mul_comm, Nat.mul_add_div positive, Nat.div_eq_of_lt below, Nat.add_zero]
    have low : (byte.toNat * 256 ^ rest.length + number rest) % 256 ^ rest.length =
        number rest := by
      rw [Nat.mul_comm, Nat.mul_add_mod, Nat.mod_eq_of_lt below]
    rw [Sha256.number_cons, length_cons, bigEndian, Nat.shiftRight_eq_div_pow, power, high,
      UInt8.ofNat_toNat, ← Sha256.bigEndian_mod, low, ih]

theorem octets_ne_nil {n : Nat} (positive : 0 < n) : octets n ≠ [] := by
  rw [octets_step positive]
  simp

theorem number_derInteger (n : Nat) : number (derInteger n) = n := by
  unfold derInteger
  split
  · rw [Sha256.number_cons, number_octets]
    simp
  · exact number_octets n

theorem derInteger_length_le {n bytes : Nat} (positive : 0 < n) :
    (derInteger n).length ≤ bytes + 1 ↔ n < 2 ^ (8 * bytes + 7) := by
  obtain ⟨first, rest, shape⟩ := exists_cons_of_ne_nil (octets_ne_nil positive)
  have value := number_octets n
  have below := Sha256.number_lt rest
  have power : ∀ k, 2 ^ (8 * k + 7) = 128 * 256 ^ k := by
    intro k
    rw [Nat.pow_add, Nat.pow_mul, Nat.mul_comm]
  rw [shape, Sha256.number_cons] at value
  rw [derInteger, shape, headD_cons, power]
  constructor
  · intro short
    split at short
    next high =>
      have room : rest.length + 1 ≤ bytes := by simpa using short
      have small := Sha256.number_lt (octets n)
      rw [number_octets, shape, length_cons] at small
      have grows := Nat.pow_le_pow_right (n := 256) (by decide) room
      omega
    next low =>
      have room : rest.length ≤ bytes := by simpa using short
      have grows := Nat.pow_le_pow_right (n := 256) (by decide) room
      have first : (first.toNat + 1) * 256 ^ rest.length ≤ 128 * 256 ^ rest.length :=
        Nat.mul_le_mul_right _ (by omega)
      rw [Nat.add_mul, Nat.one_mul] at first
      omega
  · intro small
    have length : rest.length + 1 ≤ bytes + 1 := by
      have bound := @octets_length_le n (bytes + 1) (by rw [Nat.pow_succ]; omega)
      rwa [shape, length_cons] at bound
    split
    next high =>
      rcases Nat.lt_or_ge rest.length bytes with shorter | full
      · simpa using shorter
      · exfalso
        have same : rest.length = bytes := by omega
        have top : 128 * 256 ^ rest.length ≤ first.toNat * 256 ^ rest.length :=
          Nat.mul_le_mul_right _ high
        rw [same] at top value
        omega
    next => exact length

end AthApps.Lib
