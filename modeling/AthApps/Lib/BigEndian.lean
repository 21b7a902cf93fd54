import AthApps.Lib.Sha256
import Mathlib.Tactic.Linarith
import Mathlib.Tactic.Ring

/-!
# Numbers as big endian bytes

`number` and `bigEndian` are inverse to each other up to the size, and leading
zero bytes do not change a number.
-/

set_option autoImplicit false

namespace AthApps.Lib.Sha256

open List

theorem foldl_number (bytes : Bytes) : ∀ start : Nat,
    bytes.foldl (fun value byte => value * 256 + byte.toNat) start =
      start * 256 ^ bytes.length + number bytes := by
  induction bytes with
  | nil =>
    intro start
    simp [number]
  | cons byte rest ih =>
    intro start
    have here : number (byte :: rest) = byte.toNat * 256 ^ rest.length + number rest := by
      rw [number, foldl_cons, ih, Nat.zero_mul, Nat.zero_add]
    rw [foldl_cons, ih, here, length_cons, Nat.pow_succ]
    ring

theorem number_cons (byte : UInt8) (rest : Bytes) :
    number (byte :: rest) = byte.toNat * 256 ^ rest.length + number rest := by
  rw [number, foldl_cons, foldl_number, Nat.zero_mul, Nat.zero_add]

theorem number_append (front rest : Bytes) :
    number (front ++ rest) = number front * 256 ^ rest.length + number rest := by
  rw [number, foldl_append, foldl_number]
  rfl

theorem number_lt (bytes : Bytes) : number bytes < 256 ^ bytes.length := by
  induction bytes with
  | nil => exact Nat.zero_lt_one
  | cons byte rest ih =>
    have small : byte.toNat < 256 := byte.toNat_lt
    have most := Nat.mul_le_mul_right (256 ^ rest.length) (Nat.le_of_lt_succ small)
    rw [number_cons, length_cons, Nat.pow_succ]
    linarith

theorem number_bigEndian (value bytes : Nat) :
    number (bigEndian value bytes) = value % 256 ^ bytes := by
  induction bytes with
  | zero =>
    rw [Nat.pow_zero, Nat.mod_one]
    rfl
  | succ bytes ih =>
    have power : 2 ^ (8 * bytes) = 256 ^ bytes := by rw [Nat.pow_mul]
    have digit : (UInt8.ofNat (value >>> (8 * bytes))).toNat = value / 256 ^ bytes % 256 := by
      rw [UInt8.toNat_ofNat', Nat.shiftRight_eq_div_pow, power]
    rw [bigEndian, number_cons, ih, bigEndian_length, digit, Nat.pow_succ, Nat.mod_mul]
    ring

theorem bigEndian_append (value high low : Nat) :
    bigEndian value (high + low) = bigEndian (value >>> (8 * low)) high ++ bigEndian value low := by
  induction high with
  | zero => rw [Nat.zero_add, bigEndian, nil_append]
  | succ high ih =>
    rw [Nat.add_right_comm, bigEndian, bigEndian, ih, ← Nat.shiftRight_add, cons_append,
      Nat.mul_add, Nat.add_comm (8 * high)]

theorem bigEndian_mod (value bytes : Nat) :
    bigEndian (value % 256 ^ bytes) bytes = bigEndian value bytes := by
  induction bytes generalizing value with
  | zero => rfl
  | succ bytes ih =>
    have power : 2 ^ (8 * bytes) = 256 ^ bytes := by rw [Nat.pow_mul]
    have low : value % 256 ^ (bytes + 1) % 256 ^ bytes = value % 256 ^ bytes :=
      Nat.mod_mod_of_dvd _ (Nat.pow_dvd_pow 256 (Nat.le_succ bytes))
    have high : value % 256 ^ (bytes + 1) / 256 ^ bytes = value / 256 ^ bytes % 256 := by
      rw [Nat.pow_succ, Nat.mod_mul_right_div_self]
    have digit : UInt8.ofNat (value / 256 ^ bytes % 256) = UInt8.ofNat (value / 256 ^ bytes) := by
      apply UInt8.toNat_inj.mp
      simp
    rw [bigEndian, bigEndian, ← ih, low, ih, Nat.shiftRight_eq_div_pow, Nat.shiftRight_eq_div_pow,
      power, high, digit]

theorem number_dropWhile (bytes : Bytes) :
    number (bytes.dropWhile (· == 0)) = number bytes := by
  induction bytes with
  | nil => rfl
  | cons byte rest ih =>
    rw [dropWhile_cons]
    split
    · rename_i zero
      rw [ih, number_cons, beq_iff_eq.mp zero]
      simp
    · rfl

theorem number_replicate (count : Nat) (bytes : Bytes) :
    number (List.replicate count 0 ++ bytes) = number bytes := by
  induction count with
  | zero => rfl
  | succ count ih =>
    rw [replicate_succ, cons_append, number_cons, ih]
    simp

end AthApps.Lib.Sha256
