import AthApps.Lib.Der
import AthApps.Lib.Logged
import Mathlib.Data.Nat.Bitwise

/-!
# Reading a certificate

The functions of `cert_info.c` that walk over tags and lengths.  A pointer is its
distance from the first byte of the certificate; the memory goes on behind the
certificate, and every place that is read is noted.  The callers here do not ask
for the class, the tag and the construction of a value, so `parseSequence` keeps
only what it has to read for them.
-/

set_option autoImplicit false

namespace AthApps.Wapi

open AthApps.Lib List

def readByte (memory : Nat → UInt8) (p : Nat) : Logged Nat UInt8 := ⟨memory p, [p]⟩

def readBlock (memory : Nat → UInt8) (p count : Nat) : Logged Nat Bytes :=
  ⟨(List.range' p count).map memory, List.range' p count⟩

/-- The loop of `ParseLength`: the length is an `unsigned int`. -/
def lengthLoop (memory : Nat → UInt8) (pMax : Nat) : Nat → Nat → Nat → Logged Nat (Nat × Nat)
  | 0, p, l => pure (l, p)
  | n + 1, p, l =>
    if p < pMax then do
      let byte ← readByte memory p
      lengthLoop memory pMax n (p + 1) (l * 256 % 2 ^ 32 + byte.toNat)
    else
      pure (l, p)

def parseLength (memory : Nat → UInt8) (pMax p : Nat) : Logged Nat (Nat × Nat) := do
  let first ← readByte memory p
  if first &&& 0x80 ≠ 0 then
    lengthLoop memory pMax (first &&& 0x7F).toNat (p + 1) 0
  else
    pure (first.toNat, p + 1)

/-- The loop over a tag of several bytes; it ends before `pMax`. -/
def tagLoop (memory : Nat → UInt8) (pMax : Nat) : Nat → Nat → Logged Nat Nat
  | 0, p => do
      let _ ← readByte memory p
      pure (p + 1)
  | left + 1, p => do
      let byte ← readByte memory p
      if byte &&& 0x80 ≠ 0 ∧ p + 1 < pMax then tagLoop memory pMax left (p + 1) else pure (p + 1)

/-- `ParseSequence`: the length of the value and the place of its contents. -/
def parseSequence (memory : Nat → UInt8) (pMax p : Nat) : Logged Nat (Nat × Nat) := do
  let first ← readByte memory p
  let p ←
    if first &&& 0x1F = 0x1F then tagLoop memory pMax (pMax - (p + 1)) (p + 1) else pure (p + 1)
  parseLength memory pMax p

def StandsAt (memory : Nat → UInt8) : Nat → Bytes → Prop
  | _, [] => True
  | p, byte :: rest => memory p = byte ∧ StandsAt memory (p + 1) rest

section Reading

variable {memory : Nat → UInt8} {pMax p : Nat}

theorem standsAt_append {front rest : Bytes} :
    StandsAt memory p (front ++ rest) ↔
      StandsAt memory p front ∧ StandsAt memory (p + front.length) rest := by
  induction front generalizing p with
  | nil => simp [StandsAt]
  | cons byte others ih =>
    rw [cons_append, StandsAt, StandsAt, ih, length_cons, and_assoc, Nat.add_assoc, Nat.add_comm 1]

theorem readBlock_holds {bytes : Bytes} (holds : StandsAt memory p bytes) :
    (readBlock memory p bytes.length).value = bytes := by
  rw [readBlock]
  dsimp only
  induction bytes generalizing p with
  | nil => rfl
  | cons byte rest ih => rw [length_cons, range'_succ, map_cons, holds.1, ih holds.2]

theorem readBlock_take {bytes : Bytes} {count : Nat} (holds : StandsAt memory p bytes)
    (longer : bytes.length ≤ count) : (readBlock memory p count).value.take bytes.length = bytes := by
  have whole := readBlock_holds holds
  rw [readBlock] at whole ⊢
  dsimp only at whole ⊢
  obtain ⟨more, rfl⟩ := Nat.exists_eq_add_of_le longer
  rw [← range'_append_1, map_append, take_left' (by simp), whole]

theorem readBlock_length (count : Nat) : (readBlock memory p count).value.length = count := by
  simp [readBlock]

theorem lengthLoop_holds {bytes : Bytes} (holds : StandsAt memory p bytes) (l : Nat)
    (inside : p + bytes.length ≤ pMax)
    (small : l * 256 ^ bytes.length + Sha256.number bytes < 2 ^ 32) :
    (lengthLoop memory pMax bytes.length p l).value =
      (l * 256 ^ bytes.length + Sha256.number bytes, p + bytes.length) := by
  induction bytes generalizing p l with
  | nil => simp [lengthLoop, Sha256.number]
  | cons byte rest ih =>
    rw [length_cons] at inside
    have room : p < pMax := by omega
    have value : l * 256 ^ (rest.length + 1) + Sha256.number (byte :: rest) =
        (l * 256 + byte.toNat) * 256 ^ rest.length + Sha256.number rest := by
      rw [Sha256.number_cons]
      ring
    have positive : 0 < 256 ^ rest.length := Nat.pow_pos (by decide)
    rw [length_cons, value] at small ⊢
    have fits : l * 256 < 2 ^ 32 := by
      have most := Nat.le_mul_of_pos_right (l * 256 + byte.toNat) positive
      omega
    rw [lengthLoop, if_pos room, Logged.bind_value, readByte, holds.1, Nat.mod_eq_of_lt fits,
      ih holds.2 _ (by omega) small, Nat.add_assoc p, Nat.add_comm 1]

theorem topBit_byte (byte : UInt8) : byte &&& 0x80 = 0 ↔ byte.toNat < 128 := by
  have small := byte.toNat_lt
  have bit := Nat.testBit_eq_decide_div_mod_eq (x := byte.toNat) (i := 7)
  rw [← UInt8.toNat_inj, UInt8.toNat_and]
  change byte.toNat &&& 2 ^ 7 = 0 ↔ _
  rw [Nat.and_two_pow, bit]
  by_cases top : byte.toNat < 128
  · rw [Nat.div_eq_of_lt top]
    exact iff_of_true rfl top
  · have one : byte.toNat / 2 ^ 7 = 1 := by omega
    rw [one]
    exact iff_of_false (by decide) top

theorem low7 (byte : UInt8) : (byte &&& 0x7F).toNat = byte.toNat % 128 :=
  (UInt8.toNat_and byte 0x7F).trans (Nat.and_two_pow_sub_one_eq_mod byte.toNat 7)

theorem parseLength_holds {n : Nat} (holds : StandsAt memory p (derLength n)) (small : n < 2 ^ 32)
    (inside : p + (derLength n).length ≤ pMax) :
    (parseLength memory pMax p).value = (n, p + (derLength n).length) := by
  rw [parseLength, Logged.bind_value, readByte]
  dsimp only
  unfold derLength at holds inside ⊢
  split at holds
  next short =>
    have byte : (UInt8.ofNat n).toNat = n := by
      rw [UInt8.toNat_ofNat']
      omega
    rw [if_pos short, holds.1, if_neg (not_not.mpr ((topBit_byte _).mpr (by omega))), byte]
    rfl
  next long =>
    have few : (octets n).length ≤ 4 := octets_length_le small
    have byte : (UInt8.ofNat (128 + (octets n).length)).toNat = 128 + (octets n).length := by
      rw [UInt8.toNat_ofNat']
      omega
    have value := number_octets n
    have count : (UInt8.ofNat (128 + (octets n).length) &&& 0x7F).toNat = (octets n).length := by
      rw [low7, byte]
      omega
    rw [if_neg long, length_cons] at inside
    have loop := @lengthLoop_holds _ pMax _ _ holds.2 0 (by omega) (by omega)
    rw [if_neg long, holds.1, if_pos (fun low => by have := (topBit_byte _).mp low; omega), count,
      loop, value, length_cons]
    simp only [Nat.zero_mul, Nat.zero_add, Prod.mk.injEq, true_and]
    omega

theorem parseSequence_holds {tag : UInt8} {content : Bytes}
    (holds : StandsAt memory p (der tag content)) (single : tag &&& 0x1F ≠ 0x1F)
    (small : content.length < 2 ^ 32) (inside : p + (der tag content).length ≤ pMax) :
    (parseSequence memory pMax p).value =
        (content.length, p + 1 + (derLength content.length).length) ∧
      StandsAt memory (p + 1 + (derLength content.length).length) content := by
  rw [der] at holds inside
  have parts := standsAt_append.mp holds.2
  rw [length_cons, length_append] at inside
  refine ⟨?_, parts.2⟩
  rw [parseSequence, Logged.bind_value, readByte]
  dsimp only
  rw [holds.1, if_neg single]
  exact parseLength_holds parts.1 small (by rw [Logged.pure_value]; omega)

end Reading

end AthApps.Wapi
