import Mathlib.Data.List.Basic
import Mathlib.Data.Vector.Defs
import Mathlib.Algebra.Group.Nat.Defs
import Mathlib.Algebra.Group.Int.Defs

/-!
# Four byte words in memory

A `Word` is a 32-bit word as it lies in memory: four bytes, lowest address
first.  Xor and complement act byte by byte, so neither depends on the byte
order of the machine; the number a word stands for in a little endian format
is `Word.toNat`.  `Word.xorSum` folds the words of a byte string into an
accumulator and leaves out an incomplete last word.
-/

set_option autoImplicit false

namespace AthApps.Lib

abbrev Bytes := List UInt8

structure Word where
  byte0 : UInt8
  byte1 : UInt8
  byte2 : UInt8
  byte3 : UInt8
  deriving DecidableEq

namespace Word

def zero : Word := ⟨0, 0, 0, 0⟩

def xor (left right : Word) : Word :=
  ⟨left.byte0 ^^^ right.byte0, left.byte1 ^^^ right.byte1,
    left.byte2 ^^^ right.byte2, left.byte3 ^^^ right.byte3⟩

def complement (word : Word) : Word :=
  ⟨~~~word.byte0, ~~~word.byte1, ~~~word.byte2, ~~~word.byte3⟩

def toBytes (word : Word) : Bytes :=
  [word.byte0, word.byte1, word.byte2, word.byte3]

def toNat (word : Word) : Nat :=
  word.byte0.toNat + 256 * (word.byte1.toNat + 256 * (word.byte2.toNat + 256 * word.byte3.toNat))

def ofNat (value : Nat) : Word :=
  ⟨UInt8.ofNat value, UInt8.ofNat (value / 256),
    UInt8.ofNat (value / 256 / 256), UInt8.ofNat (value / 256 / 256 / 256)⟩

def ofBytes (bytes : Bytes) : Word :=
  ⟨bytes.getD 0 0, bytes.getD 1 0, bytes.getD 2 0, bytes.getD 3 0⟩

/-- The xor of `accumulator` with all complete words of a byte string. -/
@[grind =] def xorSum : Bytes → Word → Word
  | b0 :: b1 :: b2 :: b3 :: rest, accumulator => xorSum rest (accumulator.xor ⟨b0, b1, b2, b3⟩)
  | _, accumulator => accumulator

theorem xor_assoc (a b c : Word) : (a.xor b).xor c = a.xor (b.xor c) := by
  simp [xor, UInt8.xor_assoc]

theorem xor_comm (a b : Word) : a.xor b = b.xor a := by
  simp [xor, UInt8.xor_comm]

@[simp] theorem xor_zero (a : Word) : a.xor zero = a := by
  simp [xor, zero]

@[simp] theorem xor_self (a : Word) : a.xor a = zero := by
  simp [xor, zero]

@[simp] theorem complement_complement (a : Word) : a.complement.complement = a := by
  simp [complement]

theorem complement_eq_zero_iff (a : Word) :
    a.complement = zero ↔ a = zero.complement := by
  constructor
  · intro h
    rw [← h, complement_complement]
  · rintro rfl
    exact complement_complement zero

theorem byte_xor_not (a b : UInt8) : a ^^^ ~~~b = ~~~(a ^^^ b) := by
  apply UInt8.toBitVec_inj.mp
  simp only [UInt8.toBitVec_xor, UInt8.toBitVec_not]
  exact BitVec.not_xor_right.symm

theorem xor_complement (a b : Word) : a.xor b.complement = (a.xor b).complement := by
  simp only [xor, complement, mk.injEq]
  exact ⟨byte_xor_not _ _, byte_xor_not _ _, byte_xor_not _ _, byte_xor_not _ _⟩

theorem xor_eq_allOnes_iff (a b : Word) :
    a.xor b = zero.complement ↔ b = a.complement := by
  constructor
  · intro h
    calc b = a.xor (a.xor b) := by rw [← xor_assoc, xor_self, xor_comm, xor_zero]
      _ = a.complement := by rw [h, xor_complement, xor_zero]
  · rintro rfl
    rw [xor_complement, xor_self]

variable (word : Word)

@[simp] theorem toBytes_length : word.toBytes.length = 4 := rfl

@[simp] theorem ofBytes_toBytes : ofBytes word.toBytes = word := rfl

theorem toBytes_ofBytes (bytes : Bytes) (exact : bytes.length = 4) :
    (ofBytes bytes).toBytes = bytes := by
  match bytes, exact with
  | [b0, b1, b2, b3], _ => rfl

theorem toNat_lt : word.toNat < 2 ^ 32 := by
  have h0 := word.byte0.toNat_lt
  have h1 := word.byte1.toNat_lt
  have h2 := word.byte2.toNat_lt
  have h3 := word.byte3.toNat_lt
  unfold toNat
  omega

theorem toNat_ofNat (value : Nat) (fits : value < 2 ^ 32) : (ofNat value).toNat = value := by
  simp only [ofNat, toNat, UInt8.toNat_ofNat']
  omega

theorem toNat_injective {a b : Word} (same : a.toNat = b.toNat) : a = b := by
  have a0 := a.byte0.toNat_lt
  have a1 := a.byte1.toNat_lt
  have a2 := a.byte2.toNat_lt
  have b0 := b.byte0.toNat_lt
  have b1 := b.byte1.toNat_lt
  have b2 := b.byte2.toNat_lt
  unfold toNat at same
  obtain ⟨x0, x1, x2, x3⟩ := a
  obtain ⟨y0, y1, y2, y3⟩ := b
  simp only [mk.injEq]
  refine ⟨UInt8.toNat_inj.mp ?_, UInt8.toNat_inj.mp ?_, UInt8.toNat_inj.mp ?_,
    UInt8.toNat_inj.mp ?_⟩ <;> simp only at * <;> omega

theorem ofNat_toNat : ofNat word.toNat = word :=
  toNat_injective (toNat_ofNat word.toNat word.toNat_lt)

@[simp] theorem toNat_zero : zero.toNat = 0 := rfl

theorem toNat_eq_zero_iff : word.toNat = 0 ↔ word = zero := by
  constructor
  · intro h
    exact toNat_injective (by rw [h, toNat_zero])
  · rintro rfl
    rfl

@[simp] theorem xorSum_toBytes (word accumulator : Word) :
    xorSum word.toBytes accumulator = accumulator.xor word := by
  simp [xorSum, toBytes]

theorem xorSum_append : ∀ (n : Nat) (front rest : Bytes) (accumulator : Word),
    front.length = 4 * n →
      xorSum (front ++ rest) accumulator = xorSum rest (xorSum front accumulator) := by
  intro n
  induction n with
  | zero =>
    intro front rest accumulator exact
    have empty : front = [] := List.eq_nil_of_length_eq_zero exact
    simp [empty, xorSum]
  | succ n ih =>
    intro front rest accumulator exact
    match front, exact with
    | b0 :: b1 :: b2 :: b3 :: tail, exact =>
      have tailExact : tail.length = 4 * n := by
        simp only [List.length_cons] at exact
        omega
      simp only [List.cons_append, xorSum]
      exact ih tail rest _ tailExact

theorem xorSum_xor (bytes : Bytes) (summand accumulator : Word) :
    xorSum bytes (summand.xor accumulator) = summand.xor (xorSum bytes accumulator) := by
  fun_induction xorSum bytes accumulator with
  | case1 b0 b1 b2 b3 rest accumulator ih => rw [xorSum, xor_assoc, ih]
  | case2 bytes accumulator short =>
    unfold xorSum
    split
    · exact absurd rfl (short _ _ _ _ _)
    · rfl

end Word

end AthApps.Lib
