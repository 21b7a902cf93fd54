import AthApps.Lib.Text
import AthApps.Wps.Job
import Mathlib.Data.List.TakeWhile

/-!
# Device passwords

A PIN is made of eight random bytes, and one that came in is checked.  A seed
with more than seven digits gives a number with more than eight, of which the
last ones are cut off; and the number is read from a PIN that is to be checked
with white space and a sign in front of it.
-/

set_option autoImplicit false

namespace AthApps.Wps

open Lib (Bytes Sha256.number fixedDigits fixedDigits_length fixedDigits_lt lowerDigit numeralValue
  numeralValue_fixedDigits)
open List hiding Vector

/-- `*(u32 *)dev_pwd` -/
def seed (bigEndian : Bool) (random : Bytes) : Nat :=
  Sha256.number (if bigEndian then random.take 4 else (random.take 4).reverse)

/-- `"%08u"`, for 32 bits. -/
def format08 (n : Nat) : Bytes :=
  (fixedDigits 10 (if n < 10 ^ 8 then 8 else if n < 10 ^ 9 then 9 else 10) n).map lowerDigit

def eapWpsGenerateDevicePassword (bigEndian : Bool) (random : Bytes) :
    Option Bytes :=
  if random = [] then none
  else if random.length = 8 then
    let val := seed bigEndian random
    let checkSum := eapWpsComputeDevicePasswordChecksum val
    some ((format08 ((val * 10 + checkSum) % 4294967296)).take 8)
  else some random

def HasCheckDigit (pin : Nat) : Prop :=
  eapWpsComputeDevicePasswordChecksum (pin / 10) = pin % 10

instance : DecidablePred HasCheckDigit := fun _ => inferInstanceAs (Decidable (_ = _))

/-- What is left of a number of 32 bits when eight characters are printed. -/
def leading (n : Nat) : Nat := if n < 10 ^ 8 then n else if n < 10 ^ 9 then n / 10 else n / 100

theorem leading_lt {n : Nat} (small : n < 4294967296) : leading n < 10 ^ 8 := by
  unfold leading
  split <;> try split
  all_goals omega

theorem fixedDigits_take (radix width n : Nat) :
    (fixedDigits radix (width + 1) n).take width = fixedDigits radix width (n / radix) := by
  rw [fixedDigits, take_left' (fixedDigits_length radix width _)]

theorem format08_take (n : Nat) :
    (format08 n).take 8 = (fixedDigits 10 8 (leading n)).map lowerDigit := by
  rw [format08, leading, ← map_take]
  split
  · rw [take_of_length_le (by simp)]
  · split
    · rw [fixedDigits_take]
    · have nine := congrArg (List.take 8) (fixedDigits_take 10 9 n)
      rw [take_take, fixedDigits_take, Nat.div_div_eq_div_mul] at nine
      exact congrArg (List.map lowerDigit) nine

theorem checksum_lt (pin : Nat) : eapWpsComputeDevicePasswordChecksum pin < 10 := by
  simp only [eapWpsComputeDevicePasswordChecksum]
  omega

theorem hasCheckDigit_appended {val : Nat} (short : val < 10 ^ 7) :
    HasCheckDigit (leading ((val * 10 + eapWpsComputeDevicePasswordChecksum val) % 4294967296)) := by
  have digit := checksum_lt val
  have whole : (val * 10 + eapWpsComputeDevicePasswordChecksum val) % 4294967296 =
      val * 10 + eapWpsComputeDevicePasswordChecksum val := Nat.mod_eq_of_lt (by omega)
  rw [whole, leading, if_pos (by omega), HasCheckDigit]
  have front : (val * 10 + eapWpsComputeDevicePasswordChecksum val) / 10 = val := by omega
  rw [front]
  omega

def spelled (digits : Bytes) : Nat :=
  digits.foldl (fun value digit => value * 10 + (digit.toNat - 48)) 0

/-- A text that `strtoul` reads to its end. -/
structure Numeral (text blanks sign digits : Bytes) : Prop where
  parts : text = blanks ++ (sign ++ digits)
  blank : ∀ c ∈ blanks, isSpace c = true
  sign : sign = [] ∨ sign = [0x2B] ∨ sign = [0x2D]
  some : digits ≠ []
  digit : ∀ c ∈ digits, isDigit c = true

def signedValue (sign digits : Bytes) : Nat :=
  if sign = [0x2D] then (4294967296 - spelled digits) % 4294967296 else spelled digits

variable {c : UInt8}

theorem isDigit_facts (digit : isDigit c = true) : isSpace c = false ∧ c ≠ 0x2B ∧ c ≠ 0x2D := by
  simp only [isDigit, Bool.and_eq_true, decide_eq_true_eq, UInt8.le_iff_toNat_le] at digit
  refine ⟨?_, ?_, ?_⟩
  · simp only [isSpace, Bool.or_eq_false_iff, Bool.and_eq_false_iff, beq_eq_false_iff_ne,
      decide_eq_false_iff_not, UInt8.le_iff_toNat_le]
    exact ⟨by rintro rfl; simp at digit, .inr (by simp at digit ⊢; omega)⟩
  · rintro rfl
    simp at digit
  · rintro rfl
    simp at digit

theorem isSpace_sign : isSpace 0x2B = false ∧ isSpace 0x2D = false := by decide

theorem takeWhile_digits {digits : Bytes} (digit : ∀ c ∈ digits, isDigit c = true) :
    digits.takeWhile isDigit = digits := takeWhile_eq_self_iff.mpr digit

theorem Numeral.reads {text blanks sign digits : Bytes}
    (numeral : Numeral text blanks sign digits) : strtoul text = (signedValue sign digits, true) := by
  obtain ⟨rfl, blank, sign, some, digit⟩ := numeral
  obtain ⟨first, rest, rfl⟩ := exists_cons_of_ne_nil some
  have ⟨black, noPlus, noMinus⟩ := isDigit_facts (digit first mem_cons_self)
  have all : (first :: rest).all isDigit = true := all_eq_true.mpr digit
  unfold strtoul
  rw [dropWhile_append_of_pos blank]
  rcases sign with rfl | rfl | rfl
  · simp only [nil_append, dropWhile_cons, black, Bool.false_eq_true, if_false]
    split
    · exact absurd (List.cons.inj ‹_›).1 noMinus
    · exact absurd (List.cons.inj ‹_›).1 noPlus
    · simp [takeWhile_digits digit, all, signedValue, spelled]
  · simp [isSpace_sign.1, takeWhile_digits digit, all, signedValue, spelled]
  · simp [isSpace_sign.2, takeWhile_digits digit, all, signedValue, spelled]

theorem Numeral.of_reads {text : Bytes} (whole : (strtoul text).2 = true) :
    ∃ blanks sign digits, Numeral text blanks sign digits := by
  have blank : ∀ c ∈ text.takeWhile isSpace, isSpace c = true := fun _ => mem_takeWhile_imp
  have cut : text = text.takeWhile isSpace ++ text.dropWhile isSpace :=
    takeWhile_append_dropWhile.symm
  unfold strtoul at whole
  dsimp only at whole
  refine ⟨text.takeWhile isSpace, ?_⟩
  generalize text.dropWhile isSpace = body at cut whole
  have taken : ∀ sign digits, (sign = [] ∨ sign = [0x2B] ∨ sign = [0x2D]) →
      body = sign ++ digits → digits ≠ [] ∧ digits.all isDigit = true →
      ∃ sign digits, Numeral text (text.takeWhile isSpace) sign digits := by
    rintro sign digits kind rfl ⟨some, digit⟩
    exact ⟨sign, digits, cut, blank, kind, some, all_eq_true.mp digit⟩
  split at whole
  · exact taken [0x2D] _ (.inr (.inr rfl)) rfl (of_decide_eq_true whole)
  · exact taken [0x2B] _ (.inr (.inl rfl)) rfl (of_decide_eq_true whole)
  · exact taken [] _ (.inl rfl) rfl (of_decide_eq_true whole)

variable {pwd : Bytes}

/-- `eap_wps_device_password_validation` accepts the numerals of eight characters with a
check digit. -/
theorem accepted_iff (eight : pwd.length = 8) : eapWpsDevicePasswordValidation pwd = true ↔
      ∃ blanks sign digits, Numeral pwd blanks sign digits ∧
        HasCheckDigit (signedValue sign digits) := by
  unfold eapWpsDevicePasswordValidation
  constructor
  · intro accepted
    simp only [Bool.and_eq_true, beq_iff_eq] at accepted
    obtain ⟨⟨-, whole⟩, check⟩ := accepted
    obtain ⟨blanks, sign, digits, numeral⟩ := Numeral.of_reads whole
    refine ⟨blanks, sign, digits, numeral, ?_⟩
    rwa [numeral.reads] at check
  · rintro ⟨blanks, sign, digits, numeral, check⟩
    rw [numeral.reads]
    simpa [eight, HasCheckDigit] using check

def weightedSum : Bytes → Nat
  | [] => 0
  | [digit] => 3 * (digit.toNat - 48)
  | first :: second :: rest => 3 * (first.toNat - 48) + (second.toNat - 48) + weightedSum rest

structure IsPin (pwd : Bytes) : Prop where
  digit : ∀ c ∈ pwd, isDigit c = true
  checked : weightedSum pwd % 10 = 0

theorem isDigit_range (digit : isDigit c = true) : 48 ≤ c.toNat ∧ c.toNat < 58 := by
  simp only [isDigit, Bool.and_eq_true, decide_eq_true_eq, UInt8.le_iff_toNat_le] at digit
  simp at digit
  omega

theorem isDigit_value (digit : isDigit c = true) : c.toNat - 48 < 10 := by
  have range := isDigit_range digit
  omega

theorem checksum_digits {a b c d e f g : Nat}
    (digit : a < 10 ∧ b < 10 ∧ c < 10 ∧ d < 10 ∧ e < 10 ∧ f < 10 ∧ g < 10) :
    eapWpsComputeDevicePasswordChecksum
        ((((((a * 10 + b) * 10 + c) * 10 + d) * 10 + e) * 10 + f) * 10 + g) =
      (10 - (3 * a + b + 3 * c + d + 3 * e + f + 3 * g) % 10) % 10 := by
  obtain ⟨a10, b10, c10, d10, e10, f10, g10⟩ := digit
  generalize whole : (((((a * 10 + b) * 10 + c) * 10 + d) * 10 + e) * 10 + f) * 10 + g = pin
  have fits : pin * 10 < 4294967296 := by omega
  rw [eapWpsComputeDevicePasswordChecksum, Nat.mod_eq_of_lt fits]
  generalize shifted : pin * 10 = tmp
  have first : tmp / 10000000 % 10 = a := by omega
  have second : tmp / 1000000 % 10 = b := by omega
  have third : tmp / 100000 % 10 = c := by omega
  have fourth : tmp / 10000 % 10 = d := by omega
  have fifth : tmp / 1000 % 10 = e := by omega
  have sixth : tmp / 100 % 10 = f := by omega
  have seventh : tmp / 10 % 10 = g := by omega
  rw [first, second, third, fourth, fifth, sixth, seventh]

theorem hasCheckDigit_spelled (eight : pwd.length = 8) (digit : ∀ c ∈ pwd, isDigit c = true) :
    HasCheckDigit (spelled pwd) ↔ weightedSum pwd % 10 = 0 := by
  match pwd, eight with
  | [a, b, c, d, e, f, g, h], _ =>
    have value := fun x member => isDigit_value (digit x member)
    simp only [mem_cons, not_mem_nil, or_false, forall_eq_or_imp, forall_eq] at value
    obtain ⟨a10, b10, c10, d10, e10, f10, g10, last⟩ := value
    have check := checksum_digits ⟨a10, b10, c10, d10, e10, f10, g10⟩
    simp only [spelled, weightedSum, foldl_cons, foldl_nil, HasCheckDigit, Nat.zero_mul,
      Nat.zero_add]
    generalize front : (((((((a.toNat - 48) * 10 + (b.toNat - 48)) * 10 + (c.toNat - 48)) * 10 +
      (d.toNat - 48)) * 10 + (e.toNat - 48)) * 10 + (f.toNat - 48)) * 10 + (g.toNat - 48)) = pin
      at check ⊢
    have cut : (pin * 10 + (h.toNat - 48)) / 10 = pin ∧
        (pin * 10 + (h.toNat - 48)) % 10 = h.toNat - 48 := by omega
    rw [cut.1, cut.2, check]
    omega

/-- An accepted text that is not a PIN: white space or a sign comes before a numeral with a
check digit. -/
def Lenient (pwd : Bytes) : Prop :=
  ∃ blanks sign digits, Numeral pwd blanks sign digits ∧ blanks ++ sign ≠ [] ∧
    HasCheckDigit (signedValue sign digits)

theorem IsPin.numeral (pin : IsPin pwd) (eight : pwd.length = 8) : Numeral pwd [] [] pwd where
  parts := rfl
  blank := by simp
  sign := .inl rfl
  some := by
    rintro rfl
    simp at eight
  digit := pin.digit

theorem Numeral.bare {pwd blanks sign digits : Bytes}
    (numeral : Numeral pwd blanks sign digits) (digit : ∀ c ∈ pwd, isDigit c = true) :
    blanks ++ sign = [] := by
  by_contra more
  obtain ⟨c, member⟩ := exists_mem_of_ne_nil _ more
  obtain ⟨black, noPlus, noMinus⟩ := isDigit_facts (digit c (by
    rw [numeral.parts, ← append_assoc]
    exact mem_append_left _ member))
  rcases mem_append.mp member with member | member
  · rw [numeral.blank c member] at black
    contradiction
  · rcases numeral.sign with same | same | same <;> simp_all

theorem validation_exact (eight : pwd.length = 8) :
    (eapWpsDevicePasswordValidation pwd = true ↔ IsPin pwd) ↔ ¬ Lenient pwd := by
  rw [accepted_iff eight]
  constructor
  · rintro exact ⟨blanks, sign, digits, numeral, more, check⟩
    exact more (numeral.bare (exact.mp ⟨blanks, sign, digits, numeral, check⟩).digit)
  · intro strict
    constructor
    · rintro ⟨blanks, sign, digits, numeral, check⟩
      have bare : blanks ++ sign = [] :=
        not_not.mp fun more => strict ⟨blanks, sign, digits, numeral, more, check⟩
      obtain ⟨rfl, rfl⟩ := append_eq_nil_iff.mp bare
      have same : pwd = digits := numeral.parts
      subst same
      exact ⟨numeral.digit, (hasCheckDigit_spelled eight numeral.digit).mp check⟩
    · intro pin
      exact ⟨[], [], pwd, pin.numeral eight, (hasCheckDigit_spelled eight pin.digit).mpr pin.checked⟩

/-! ## Mistyped digits -/

theorem validation_digits (eight : pwd.length = 8) (digit : ∀ c ∈ pwd, isDigit c = true) :
    eapWpsDevicePasswordValidation pwd = true ↔ weightedSum pwd % 10 = 0 := by
  have strict : ¬ Lenient pwd := by
    rintro ⟨_, _, _, numeral, more, -⟩
    exact more (numeral.bare digit)
  rw [(validation_exact eight).mpr strict]
  exact ⟨IsPin.checked, fun checked => ⟨digit, checked⟩⟩

def weight (i : Nat) : Nat := if i % 2 = 0 then 3 else 1

theorem weightedSum_set (digits : Bytes) (i : Nat) (inside : i < digits.length) (c : UInt8) :
    weightedSum (digits.set i c) + weight i * (digits[i].toNat - 48) =
      weightedSum digits + weight i * (c.toNat - 48) := by
  induction digits using weightedSum.induct generalizing i with
  | case1 => simp at inside
  | case2 digit =>
    obtain rfl : i = 0 := by simpa using inside
    simp [weightedSum, weight, Nat.add_comm]
  | case3 first second rest ih =>
    rcases i with _ | _ | i
    · have here : weight 0 = 3 := rfl
      simp only [set_cons_zero, weightedSum, here, getElem_cons_zero]
      omega
    · have here : weight (0 + 1) = 1 := rfl
      simp only [set_cons_succ, set_cons_zero, weightedSum, here,
        getElem_cons_succ, getElem_cons_zero]
      omega
    · have after := ih i (by simpa using inside)
      have same : weight (i + 1 + 1) = weight i := by
        rw [weight, weight, Nat.add_assoc, Nat.add_mod_right]
      simp only [set_cons_succ, weightedSum, getElem_cons_succ, same]
      omega

theorem weight_or (i : Nat) :
    weight i = 3 ∧ weight (i + 1) = 1 ∨ weight i = 1 ∧ weight (i + 1) = 3 := by
  unfold weight
  split <;> split <;> simp <;> omega

/-- A PIN with one digit mistyped is refused, and one with two neighbours exchanged is refused
unless they are the same or five apart. -/
theorem mistyped_refused (pwd : Vector UInt8 8) (digit : ∀ c ∈ pwd.toList, isDigit c = true)
    (accepted : eapWpsDevicePasswordValidation pwd.toList = true) :
    (∀ (i : Nat) (inside : i < 8) (c : UInt8), isDigit c = true →
      (eapWpsDevicePasswordValidation (pwd.toList.set i c) = true ↔ c = pwd[i])) ∧
    ∀ (i : Nat) (inside : i + 1 < 8),
      (eapWpsDevicePasswordValidation ((pwd.toList.set i pwd[i + 1]).set (i + 1) pwd[i]) = true ↔
        pwd[i].toNat % 5 = pwd[i + 1].toNat % 5) := by
  have sum := (validation_digits pwd.length_toList digit).mp accepted
  have range : ∀ (i : Nat) (inside : i < 8), isDigit pwd[i] = true := fun i inside =>
    digit _ (Vector.mem_toList_iff.mpr (Vector.getElem_mem inside))
  have digits : ∀ (text : Bytes) (i : Nat) (c : UInt8), isDigit c = true →
      (∀ c ∈ text, isDigit c = true) → ∀ d ∈ text.set i c, isDigit d = true :=
    fun text i c new old d member => (mem_or_eq_of_mem_set member).elim (old d) (· ▸ new)
  constructor
  · intro i inside c new
    have changed := weightedSum_set pwd.toList i (by simpa using inside) c
    have old := isDigit_range (range i inside)
    have typed := isDigit_range new
    rw [validation_digits (by simp) (digits _ _ _ new digit), ← UInt8.toNat_inj]
    simp only [Vector.getElem_toList] at changed
    rcases weight_or i with ⟨here, -⟩ | ⟨here, -⟩ <;> rw [here] at changed <;> omega
  · intro i inside
    have left := range i (by omega)
    have right := range (i + 1) inside
    have once := weightedSum_set pwd.toList i (by simp; omega) pwd[i + 1]
    have twice := weightedSum_set (pwd.toList.set i pwd[i + 1]) (i + 1) (by simpa using inside)
      pwd[i]
    rw [validation_digits (by simp) (digits _ _ _ left (digits _ _ _ right digit))]
    have leftRange := isDigit_range left
    have rightRange := isDigit_range right
    have apart : i ≠ i + 1 := by omega
    simp only [Vector.getElem_toList, getElem_set_ne apart] at once twice
    rcases weight_or i with ⟨here, there⟩ | ⟨here, there⟩ <;> rw [here] at once <;>
      rw [there] at twice <;> omega

theorem mistyped_refused_first :
    eapWpsDevicePasswordValidation ((Vector.replicate 8 48).toList.set 0 50) ≠ true :=
  fun accepted => absurd (((mistyped_refused (Vector.replicate 8 48) (by decide) (by decide)).1
    0 (by decide) 50 (by decide)).mp accepted) (by decide)

theorem spelled_digits {digits : List Nat} (small : ∀ digit ∈ digits, digit < 10) :
    spelled (digits.map lowerDigit) = numeralValue 10 0 digits := by
  have value : ∀ digit < 10, (lowerDigit digit).toNat - 48 = digit := by decide
  rw [spelled, numeralValue, foldl_map]
  exact foldl_ext _ _ _ fun total digit member => by rw [value digit (small digit member)]

theorem isDigit_lowerDigit : ∀ digit < 10, isDigit (lowerDigit digit) = true := by decide

/-- The PIN that is made of a number of 32 bits is accepted when the digits that are left
have a check digit. -/
theorem accepted_format08 {n : Nat} (small : n < 4294967296) :
    eapWpsDevicePasswordValidation ((format08 n).take 8) = true ↔ HasCheckDigit (leading n) := by
  rw [format08_take]
  have digits := fixedDigits_lt (show 0 < 10 by decide) 8 (leading n)
  have eight : ((fixedDigits 10 8 (leading n)).map lowerDigit).length = 8 := by simp
  have numeral : Numeral ((fixedDigits 10 8 (leading n)).map lowerDigit) [] []
      ((fixedDigits 10 8 (leading n)).map lowerDigit) := by
    refine ⟨rfl, by simp, .inl rfl, fun none => by simp [none] at eight, ?_⟩
    intro c member
    obtain ⟨digit, inside, rfl⟩ := mem_map.mp member
    exact isDigit_lowerDigit digit (digits digit inside)
  have value : signedValue [] ((fixedDigits 10 8 (leading n)).map lowerDigit) = leading n := by
    have whole := numeralValue_fixedDigits (leading_lt small) 0
    rw [signedValue, if_neg (by decide), spelled_digits digits, whole, Nat.zero_mul, Nat.zero_add]
  unfold eapWpsDevicePasswordValidation
  rw [numeral.reads, value]
  simp [HasCheckDigit]

/-- A PIN is accepted when the eight leading digits of its number have a check digit. A seed of
at most seven digits is sure of it (`hasCheckDigit_appended`); those of a longer one that does not
wrap are the seed's own, and the eighth must be the check digit of the first seven by luck. Whether
a text is a PIN is told but where white space or a sign comes before a numeral. -/
theorem devicePassword_exact (bigEndian : Bool) (random text : Vector UInt8 8) :
    ((∃ pwd, eapWpsGenerateDevicePassword bigEndian random.toList = some pwd ∧
        eapWpsDevicePasswordValidation pwd = true) ↔
      seed bigEndian random.toList < 10 ^ 7 ∨
        HasCheckDigit (leading ((seed bigEndian random.toList * 10 +
          eapWpsComputeDevicePasswordChecksum (seed bigEndian random.toList)) % 4294967296))) ∧
    ((eapWpsDevicePasswordValidation text.toList = true ↔ IsPin text.toList) ↔
      ¬ Lenient text.toList) := by
  refine ⟨?_, validation_exact text.length_toList⟩
  have eight : random.toList.length = 8 := random.length_toList
  have given : random.toList ≠ [] := fun none => by simp [none] at eight
  rw [eapWpsGenerateDevicePassword, if_neg given, if_pos eight]
  simp only [Option.some.injEq, exists_eq_left']
  rw [accepted_format08 (Nat.mod_lt _ (by decide))]
  exact ⟨.inr, Or.rec hasCheckDigit_appended id⟩

theorem devicePassword_inexact : (¬ ∀ (bigEndian : Bool) (random : Vector UInt8 8),
      ∃ pwd, eapWpsGenerateDevicePassword bigEndian random.toList = some pwd ∧
        eapWpsDevicePasswordValidation pwd = true) ∧
    ¬ ∀ pwd : Vector UInt8 8,
      eapWpsDevicePasswordValidation pwd.toList = true ↔ IsPin pwd.toList := by
  constructor
  · intro all
    obtain ⟨pwd, made, accepted⟩ := all true (.replicate 8 0xFF)
    have cut : eapWpsGenerateDevicePassword true (Vector.replicate 8 0xFF).toList =
        some [0x34, 0x32, 0x39, 0x34, 0x39, 0x36, 0x37, 0x32] := by decide
    cases cut.symm.trans made
    exact absurd accepted (by decide)
  · intro all
    have pin := (all #v[0x20, 0x20, 0x20, 0x20, 0x20, 0x20, 0x20, 0x30]).mp (by decide)
    exact absurd (pin.digit 0x20 (by decide)) (by decide)

end AthApps.Wps
