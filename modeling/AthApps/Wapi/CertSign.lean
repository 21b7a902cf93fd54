import AthApps.Lib.Stream
import AthApps.Wapi.CertInfo

/-!
# The signature of a certificate

`x509_get_cert_sign` turns the two integers of a signature into 48 bytes.  It
knows integers of 25, 24 and 23 bytes; a shorter one is not padded, the second
one then lies in the wrong place, and a short second one is copied with the length
of the first.
-/

set_option autoImplicit false

namespace AthApps.Wapi

open AthApps.Lib List Option
open AthApps.Lib.Sha256 (number bigEndian)

/-- The part of `x509_get_cert_sign` before the first integer. -/
def toSignature (memory : Nat → UInt8) (pMax : Nat) : Logged Nat Nat := do
  let (_, p) ← parseSequence memory pMax 0
  let (tmp, p) ← parseSequence memory pMax p
  -- the certificate, then the algorithm of the signature
  let (tmp, p) ← parseSequence memory pMax (p + tmp)
  let (_, p) ← parseSequence memory pMax (p + tmp)
  -- the unused bits of the string
  let (_, p) ← parseSequence memory pMax (p + 1)
  pure p

/-- What is stored for an integer of `tmp` bytes, and where it was taken from; `count` is
the number of bytes that the last branch copies. -/
def signPart (memory : Nat → UInt8) (p tmp count : Nat) : Logged Nat (Bytes × Nat) := do
  let padded ← if tmp > 0x18 then do pure ((← readByte memory p) == 0) else pure false
  if padded then do
    let bytes ← readBlock memory (p + 1) (tmp - 1)
    pure (bytes, p + 1)
  else if tmp = 0x17 then do
    let bytes ← readBlock memory (p - 1) (tmp + 1)
    pure (bytes.set 0 0, p - 1)
  else do
    let bytes ← readBlock memory p count
    pure (bytes, p)

/-- A copy into the buffer of the signature, if it has room for it. -/
def storeSign (out : Bytes) (offset : Nat) (bytes : Bytes) : Option Bytes :=
  if offset + bytes.length ≤ out.length then some (overlay out offset bytes) else none

/-- `x509_get_cert_sign`, which always returns 0; without a result it wrote behind the buffer. -/
def x509GetCertSign (memory : Nat → UInt8) (length : Nat) (out : Bytes) :
    Logged Nat (Option Bytes) := do
  let pMax := length
  let p ← toSignature memory pMax
  let (tmp, p) ← parseSequence memory pMax p
  let (first, p) ← signPart memory p tmp tmp
  let tmpLen := first.length
  let (tmp, p) ← parseSequence memory pMax (p + tmpLen)
  let (second, _) ← signPart memory p tmp tmpLen
  pure (do storeSign (← storeSign out 0 first) tmpLen second)

def signaturePair (r s : Nat) : Bytes := der 0x02 (derInteger r) ++ der 0x02 (derInteger s)

def signedCertificate (tbs algorithm : Bytes) (r s : Nat) : Bytes :=
  der 0x30 (der 0x30 tbs ++ (der 0x30 algorithm ++ der 0x03 (0 :: der 0x30 (signaturePair r s))))

theorem der_length (tag : UInt8) (content : Bytes) :
    (der tag content).length = 1 + (derLength content.length).length + content.length := by
  rw [der, length_cons, length_append]
  omega

section Integers

variable {n : Nat}

theorem derInteger_ne_take (positive : 0 < n) {k : Nat} (short : (derInteger n).length < k) :
    derInteger n ≠ (bigEndian n k).take (derInteger n).length := by
  intro same
  obtain ⟨low, rfl⟩ := Nat.exists_eq_add_of_lt short
  have value := number_derInteger n
  rw [Nat.add_assoc, Sha256.bigEndian_append, take_left' (Sha256.bigEndian_length _ _)] at same
  rw [same, Sha256.number_bigEndian, Nat.shiftRight_eq_div_pow] at value
  have less : n / 2 ^ (8 * (low + 1)) < n :=
    Nat.div_lt_self positive (Nat.one_lt_two_pow (by omega))
  have most := Nat.mod_le (n / 2 ^ (8 * (low + 1))) (256 ^ (derInteger n).length)
  omega

theorem bigEndian_of_number {bytes : Bytes} {size : Nat} (length : bytes.length = size)
    (value : number bytes = n) : bytes = bigEndian n size := by
  rw [← length, ← value, bigEndian_number]

end Integers

section Parts

variable {memory : Nat → UInt8} {p n count : Nat}

theorem signPart_short {tmp : Nat} (short : tmp < 0x17) :
    (signPart memory p tmp count).value = ((readBlock memory p count).value, p) := by
  rw [signPart, if_neg (by omega), if_neg (by omega)]
  rfl

theorem signPart_long (holds : StandsAt memory p (derInteger n)) (small : n < 2 ^ 192)
    (before : 0 < p) (long : 0x17 ≤ (derInteger n).length)
    (whole : (derInteger n).length = 0x18 → count = 0x18) :
    ∃ place, (signPart memory p (derInteger n).length count).value = (bigEndian n 24, place) ∧
      place + 24 = p + (derInteger n).length := by
  have positive : 0 < n := by
    rcases Nat.eq_zero_or_pos n with rfl | positive
    · exact absurd long (by decide)
    · exact positive
  have most : (derInteger n).length ≤ 25 :=
    (derInteger_length_le positive).mpr (Nat.lt_trans small (by decide))
  have value := number_derInteger n
  have cases : (derInteger n).length = 0x17 ∨ (derInteger n).length = 0x18 ∨
      (derInteger n).length = 0x19 := by omega
  rcases cases with size | size | size
  · obtain ⟨p, rfl⟩ := Nat.exists_eq_add_of_lt before
    have block := readBlock_holds holds
    refine ⟨p, ?_, by omega⟩
    rw [signPart, size, if_neg (by decide), if_pos rfl]
    have stored : (readBlock memory p (0x17 + 1)).value.set 0 0 = 0 :: derInteger n := by
      rw [← block, size, readBlock, readBlock]
      dsimp only
      rw [range'_succ, map_cons, set_cons_zero, Nat.zero_add]
    have padded : 0 :: derInteger n = bigEndian n 24 := by
      apply bigEndian_of_number
      · rw [length_cons, size]
      · rw [Sha256.number_cons, value]
        simp
    rw [← padded, ← stored, Nat.zero_add]
    rfl
  · have block := readBlock_holds holds
    refine ⟨p, ?_, by omega⟩
    rw [size] at block
    rw [signPart, size, if_neg (by decide), if_neg (by decide), whole size,
      ← bigEndian_of_number size value, ← block]
    rfl
  · obtain ⟨first, rest, shape⟩ := exists_cons_of_length_eq_add_one size
    have length : rest.length = 24 := by simpa [shape] using size
    rw [shape] at value holds
    rw [Sha256.number_cons, length] at value
    have zero : first.toNat = 0 := by omega
    have lead : first = 0 := UInt8.toNat_inj.mp zero
    have block := readBlock_holds holds.2
    rw [length] at block
    have tail : rest = bigEndian n 24 := bigEndian_of_number length (by omega)
    refine ⟨p + 1, ?_, by omega⟩
    rw [signPart, size, if_pos (by decide), ← tail, ← block]
    simp only [Logged.bind_value, readByte, holds.1, lead]
    rfl

end Parts

section Walk

variable {memory : Nat → UInt8} {tbs algorithm : Bytes} {r s : Nat}

theorem toSignature_holds (holds : StandsAt memory 0 (signedCertificate tbs algorithm r s))
    (fits : (signedCertificate tbs algorithm r s).length < 2 ^ 32) :
    ∃ place, (toSignature memory (signedCertificate tbs algorithm r s).length).value = place ∧
      StandsAt memory place (signaturePair r s) ∧
      place + (signaturePair r s).length ≤ (signedCertificate tbs algorithm r s).length := by
  generalize whole : (signedCertificate tbs algorithm r s).length = pMax at fits ⊢
  rw [signedCertificate] at holds whole
  simp only [der_length, length_append, length_cons] at whole
  obtain ⟨outer, inOuter⟩ := @parseSequence_holds _ pMax _ _ _ holds (by decide)
    (by simp only [der_length, length_append, length_cons]; omega)
    (by simp only [der_length, length_append, length_cons]; omega)
  generalize behind : 0 + 1 + (derLength (der 0x30 tbs ++ (der 0x30 algorithm ++
    der 0x03 (0 :: der 0x30 (signaturePair r s)))).length).length = p at outer inOuter
  simp only [der_length, length_append, length_cons] at behind
  obtain ⟨holdsTbs, rest⟩ := standsAt_append.mp inOuter
  obtain ⟨holdsAlgorithm, holdsValue⟩ := standsAt_append.mp rest
  obtain ⟨walkTbs, -⟩ := @parseSequence_holds _ pMax _ _ _ holdsTbs (by decide) (by omega)
    (by rw [der_length]; omega)
  obtain ⟨walkAlgorithm, -⟩ := @parseSequence_holds _ pMax _ _ _ holdsAlgorithm (by decide)
    (by omega) (by simp only [der_length]; omega)
  obtain ⟨walkValue, inValue⟩ := @parseSequence_holds _ pMax _ _ _ holdsValue (by decide)
    (by simp only [der_length, length_cons]; omega)
    (by simp only [der_length, length_cons]; omega)
  obtain ⟨walkPair, inPair⟩ := @parseSequence_holds _ pMax _ _ _ inValue.2 (by decide)
    (by omega) (by simp only [der_length, length_cons]; omega)
  refine ⟨_, ?_, inPair, ?_⟩
  · have skipTbs : p + 1 + (derLength tbs.length).length + tbs.length =
        p + (der 0x30 tbs).length := by
      rw [der_length]
      omega
    have skipAlgorithm : p + (der 0x30 tbs).length + 1 + (derLength algorithm.length).length +
        algorithm.length = p + (der 0x30 tbs).length + (der 0x30 algorithm).length := by
      rw [der_length 0x30 algorithm]
      omega
    simp only [toSignature, Logged.bind_value, Logged.pure_value, outer, walkTbs, skipTbs,
      walkAlgorithm, skipAlgorithm, walkValue, walkPair]
  · simp only [der_length, length_cons]
    omega

variable {out first second : Bytes}

theorem storeSign_front {result : Bytes}
    (stored : (do storeSign (← storeSign out 0 first) first.length second) = some result) :
    result.take first.length = first := by
  simp only [bind_eq_bind, bind_eq_some_iff, storeSign, ite_none_right_eq_some,
    some.injEq, Nat.zero_add] at stored
  obtain ⟨middle, ⟨room, rfl⟩, _, rfl⟩ := stored
  simp [overlay]

theorem storeSign_pair (room : out.length = 48) (half : first.length = 24)
    (other : second.length = 24) :
    (do storeSign (← storeSign out 0 first) 24 second) = some (first ++ second) := by
  have begun : storeSign out 0 first = some (first ++ out.drop 24) := by
    rw [storeSign, if_pos (by omega)]
    simp [overlay, half]
  rw [begun]
  change storeSign (first ++ out.drop 24) 24 second = _
  have done : (out.drop first.length).drop second.length = [] := by
    apply drop_of_length_le
    rw [length_drop, room, half, other]
  rw [storeSign, if_pos (by simp; omega), ← half, overlay_append_right, append_assoc, done,
    append_nil]

/-- The 48 bytes are the two numbers exactly if neither is so small that its encoding has
less than 23 bytes. -/
theorem certSign_pair (tbs algorithm : Bytes) {r s : Nat} (positiveR : 0 < r)
    (smallR : r < 2 ^ 192) (positiveS : 0 < s) (smallS : s < 2 ^ 192) {memory : Nat → UInt8}
    (holds : StandsAt memory 0 (signedCertificate tbs algorithm r s))
    (fits : (signedCertificate tbs algorithm r s).length < 2 ^ 32) {out : Bytes}
    (room : out.length = 48) :
    (x509GetCertSign memory (signedCertificate tbs algorithm r s).length out).value =
        some (bigEndian r 24 ++ bigEndian s 24) ↔
      2 ^ 175 ≤ r ∧ 2 ^ 175 ≤ s := by
  obtain ⟨place, walk, pair, inside⟩ := toSignature_holds holds fits
  generalize (signedCertificate tbs algorithm r s).length = pMax at fits inside walk ⊢
  rw [signaturePair, length_append, der_length, der_length] at inside
  obtain ⟨holdsR, holdsS⟩ := standsAt_append.mp pair
  obtain ⟨walkR, inR⟩ := @parseSequence_holds _ pMax _ _ _ holdsR (by decide) (by omega)
    (by rw [der_length]; omega)
  obtain ⟨walkS, inS⟩ := @parseSequence_holds _ pMax _ _ _ holdsS (by decide) (by omega)
    (by rw [der_length, der_length]; omega)
  have lengthR : (derInteger r).length ≤ 22 ↔ r < 2 ^ 175 := derInteger_length_le positiveR
  have lengthS : (derInteger s).length ≤ 22 ↔ s < 2 ^ 175 := derInteger_length_le positiveS
  simp only [x509GetCertSign, Logged.bind_value, Logged.pure_value, walk, walkR]
  rcases Nat.lt_or_ge r (2 ^ 175) with shortR | longR
  · refine iff_of_false ?_ (fun both => by omega)
    have size := lengthR.mpr shortR
    rw [signPart_short (by omega)]
    intro stored
    have front := storeSign_front stored
    dsimp only at front
    rw [readBlock_holds inR, take_append_of_le_length
      (by rw [Sha256.bigEndian_length]; omega)] at front
    exact derInteger_ne_take positiveR (by omega) front.symm
  · obtain ⟨next, firstPart, behind⟩ := @signPart_long _ _ _ (derInteger r).length inR smallR
      (by omega) (by omega) id
    have there : next + 24 = place + (der 0x02 (derInteger r)).length := by
      rw [der_length]
      omega
    have half : (bigEndian r 24).length = 24 := Sha256.bigEndian_length r 24
    simp only [firstPart, half, there, walkS]
    rcases Nat.lt_or_ge s (2 ^ 175) with shortS | longS
    · refine iff_of_false ?_ (fun both => by omega)
      have size := lengthS.mpr shortS
      rw [signPart_short (by omega)]
      dsimp only
      rw [storeSign_pair room half (readBlock_length 24), some.injEq, append_cancel_left_eq]
      intro same
      have front := @readBlock_take _ _ _ 24 inS (by omega)
      rw [same] at front
      exact derInteger_ne_take positiveS (by omega) front.symm
    · refine iff_of_true ?_ ⟨longR, longS⟩
      obtain ⟨_, secondPart, _⟩ := @signPart_long _ _ _ 24 inS smallS (by omega) (by omega)
        (fun _ => rfl)
      rw [secondPart]
      exact storeSign_pair room half (Sha256.bigEndian_length s 24)

end Walk

def memoryOf (bytes : Bytes) (p : Nat) : UInt8 := bytes.getD p 0

theorem memoryOf_holds (front bytes : Bytes) :
    StandsAt (memoryOf (front ++ bytes)) front.length bytes := by
  induction bytes generalizing front with
  | nil => trivial
  | cons byte rest ih =>
    refine ⟨by simp [memoryOf], ?_⟩
    have behind := ih (front ++ [byte])
    rwa [append_assoc, singleton_append, length_append, length_singleton] at behind

theorem certSign_pair_padded :
    (x509GetCertSign (memoryOf (signedCertificate [] [] (2 ^ 175) (2 ^ 191)))
        (signedCertificate [] [] (2 ^ 175) (2 ^ 191)).length (List.replicate 48 0)).value =
      some (bigEndian (2 ^ 175) 24 ++ bigEndian (2 ^ 191) 24) :=
  (certSign_pair [] [] (by decide) (by decide) (by decide) (by decide) (memoryOf_holds [] _)
    (by decide) rfl).mpr ⟨by decide, by decide⟩

/-- A first integer of 22 bytes is stored at the beginning of its 24. -/
theorem certSign_short : ¬∀ (tbs algorithm : Bytes) (r s : Nat) (memory : Nat → UInt8)
    (out : Bytes), 0 < r → r < 2 ^ 192 → 0 < s → s < 2 ^ 192 →
      StandsAt memory 0 (signedCertificate tbs algorithm r s) →
      (signedCertificate tbs algorithm r s).length < 2 ^ 32 → out.length = 48 →
      (x509GetCertSign memory (signedCertificate tbs algorithm r s).length out).value =
        some (bigEndian r 24 ++ bigEndian s 24) := by
  intro always
  have stored := always [] [] (2 ^ 174) (2 ^ 191) _ (List.replicate 48 0) (by decide) (by decide)
    (by decide) (by decide) (memoryOf_holds [] _) (by decide) rfl
  exact absurd stored (by decide)

end AthApps.Wapi
