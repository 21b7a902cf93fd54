import AthApps.Lib.Word

/-!
# Numerals and words in byte strings

Texts are strings of bytes.  A numeral is read digit by digit with an upper
limit on its value and is written either with a fixed number of digits or, in
decimal, with as many as it needs.  What is written reads back.  A line of
plain words is the words with one blank between them, and splitting it at the
blanks gives the words again.
-/

set_option autoImplicit false

namespace AthApps.Lib

open List

def letters (text : String) : Bytes := text.toList.map fun c => UInt8.ofNat c.toNat

def isSpace (c : UInt8) : Bool := c == 32 || (9 ≤ c && c ≤ 13)

def toLower (c : UInt8) : UInt8 := if 65 ≤ c ∧ c ≤ 90 then c + 32 else c

def equalFold (left right : Bytes) : Bool := left.map toLower == right.map toLower

def digitValue (c : UInt8) : Nat :=
  if 48 ≤ c ∧ c ≤ 57 then (c - 48).toNat
  else if 65 ≤ c ∧ c ≤ 90 then (c - 65).toNat + 10
  else if 97 ≤ c ∧ c ≤ 122 then (c - 97).toNat + 10
  else 255

/-- The digits at the front of a text are read into `value`; a value above the
limit is an error. -/
@[grind =] def scanDigits (radix limit : Nat) : Bytes → Nat → Option (Nat × Bytes)
  | [], value => some (value, [])
  | c :: rest, value =>
    if digitValue c < radix then
      if value * radix + digitValue c > limit then none
      else scanDigits radix limit rest (value * radix + digitValue c)
    else some (value, c :: rest)

def numeralValue (radix : Nat) (value : Nat) (digits : List Nat) : Nat :=
  digits.foldl (fun value digit => value * radix + digit) value

theorem le_numeralValue (radix : Nat) (positive : 0 < radix) (digits : List Nat) (value : Nat) :
    value ≤ numeralValue radix value digits := by
  induction digits generalizing value with
  | nil => exact Nat.le_refl value
  | cons digit rest ih =>
    have here : value ≤ value * radix + digit :=
      Nat.le_trans (Nat.le_mul_of_pos_right value positive) (Nat.le_add_right _ _)
    exact Nat.le_trans here (ih _)

theorem numeralValue_append (radix value : Nat) (front back : List Nat) :
    numeralValue radix value (front ++ back) =
      numeralValue radix (numeralValue radix value front) back := by
  simp [numeralValue]

def NoDigit (radix : Nat) (text : Bytes) : Prop :=
  ∀ c ∈ text.head?, radix ≤ digitValue c

variable {radix width n : Nat}

theorem scanDigits_noDigit {text : Bytes} (stop : NoDigit radix text) (limit value : Nat) :
    scanDigits radix limit text value = some (value, text) := by
  cases text with
  | nil => rfl
  | cons c rest =>
    have large : ¬ digitValue c < radix := Nat.not_lt.mpr (stop c rfl)
    simp [scanDigits, large]

theorem scanDigits_numeral {limit : Nat} {character : Nat → UInt8} {digits : List Nat}
    {rest : Bytes} (reads : ∀ digit < radix, digitValue (character digit) = digit)
    (small : ∀ digit ∈ digits, digit < radix) (stop : NoDigit radix rest) (value : Nat)
    (fits : numeralValue radix value digits ≤ limit) :
    scanDigits radix limit (digits.map character ++ rest) value =
      some (numeralValue radix value digits, rest) := by
  induction digits generalizing value with
  | nil => exact scanDigits_noDigit stop limit value
  | cons digit others ih =>
    have digitSmall := small digit (by simp)
    have positive : 0 < radix := Nat.lt_of_le_of_lt (Nat.zero_le digit) digitSmall
    have within : ¬ limit < value * radix + digit := by
      have grows := le_numeralValue radix positive others (value * radix + digit)
      exact Nat.not_lt.mpr (Nat.le_trans grows fits)
    simp only [map_cons, cons_append, scanDigits, reads digit digitSmall, digitSmall,
      if_true, gt_iff_lt, within, if_false]
    exact ih (fun other member => small other (by simp [member])) _ fits

def upperDigit (digit : Nat) : UInt8 :=
  if digit < 10 then 48 + UInt8.ofNat digit else 55 + UInt8.ofNat digit

def lowerDigit (digit : Nat) : UInt8 :=
  if digit < 10 then 48 + UInt8.ofNat digit else 87 + UInt8.ofNat digit

theorem digitValue_upperDigit : ∀ digit < 16, digitValue (upperDigit digit) = digit := by
  decide

theorem digitValue_lowerDigit : ∀ digit < 16, digitValue (lowerDigit digit) = digit := by
  decide

/-- The last `width` digits of a number, most significant first. -/
@[grind =] def fixedDigits (radix : Nat) : Nat → Nat → List Nat
  | 0, _ => []
  | width + 1, n => fixedDigits radix width (n / radix) ++ [n % radix]

@[simp] theorem fixedDigits_length (radix width n : Nat) :
    (fixedDigits radix width n).length = width := by
  induction width generalizing n with
  | zero => rfl
  | succ width ih => simp [fixedDigits, ih]

theorem fixedDigits_lt (positive : 0 < radix) (width n : Nat) :
    ∀ digit ∈ fixedDigits radix width n, digit < radix := by
  induction width generalizing n with
  | zero => simp [fixedDigits]
  | succ width ih =>
    intro digit member
    rcases mem_append.mp member with member | member
    · exact ih _ digit member
    · rw [mem_singleton.mp member]
      exact Nat.mod_lt n positive

theorem numeralValue_fixedDigits (fits : n < radix ^ width) (value : Nat) :
    numeralValue radix value (fixedDigits radix width n) = value * radix ^ width + n := by
  induction width generalizing n with
  | zero =>
    have none : n = 0 := by simpa using fits
    rw [none]
    simp [fixedDigits, numeralValue]
  | succ width ih =>
    have front : n / radix < radix ^ width := by
      apply Nat.div_lt_of_lt_mul
      rwa [Nat.pow_succ, Nat.mul_comm] at fits
    rw [fixedDigits, numeralValue_append, ih front]
    calc (value * radix ^ width + n / radix) * radix + n % radix
        = value * (radix ^ width * radix) + (n / radix * radix + n % radix) := by
          rw [Nat.add_mul, Nat.mul_assoc, Nat.add_assoc]
      _ = value * radix ^ (width + 1) + n := by rw [Nat.div_add_mod' n radix, Nat.pow_succ]

/-- The decimal digits of a number; `fuel` bounds how many there are. -/
@[grind =] def decimalDigits : Nat → Nat → List Nat
  | 0, _ => []
  | fuel + 1, n => if n < 10 then [n] else decimalDigits fuel (n / 10) ++ [n % 10]

theorem decimalDigits_lt (fuel n : Nat) : ∀ digit ∈ decimalDigits fuel n, digit < 10 := by
  induction fuel generalizing n with
  | zero => simp [decimalDigits]
  | succ fuel ih =>
    intro digit member
    rw [decimalDigits] at member
    split at member
    case isTrue small => rwa [mem_singleton.mp member]
    case isFalse =>
      rcases mem_append.mp member with member | member
      · exact ih _ digit member
      · rw [mem_singleton.mp member]
        exact Nat.mod_lt n (by decide)

theorem numeralValue_decimalDigits {fuel : Nat} (enough : n < 10 ^ fuel) :
    numeralValue 10 0 (decimalDigits fuel n) = n := by
  induction fuel generalizing n with
  | zero =>
    have none : n = 0 := by simpa using enough
    rw [none]
    rfl
  | succ fuel ih =>
    rw [decimalDigits]
    split
    case isTrue => simp [numeralValue]
    case isFalse =>
      have front : n / 10 < 10 ^ fuel := by
        apply Nat.div_lt_of_lt_mul
        rwa [Nat.pow_succ, Nat.mul_comm] at enough
      rw [numeralValue_append, ih front]
      exact Nat.div_add_mod' n 10

theorem decimalDigits_length_le (fuel : Nat) (small : n < 10 ^ (width + 1)) :
    (decimalDigits fuel n).length ≤ width + 1 := by
  induction fuel generalizing width n with
  | zero => simp [decimalDigits]
  | succ fuel ih =>
    rw [decimalDigits]
    split
    case isTrue => simp
    case isFalse large =>
      cases width with
      | zero => exact absurd small large
      | succ width =>
        have front : n / 10 < 10 ^ (width + 1) := by
          apply Nat.div_lt_of_lt_mul
          rwa [Nat.pow_succ, Nat.mul_comm] at small
        simp only [length_append, length_singleton]
        exact Nat.succ_le_succ (ih front)

theorem decimalDigits_ne_nil (fuel n : Nat) : decimalDigits (fuel + 1) n ≠ [] := by
  rw [decimalDigits]
  split <;> simp

/-- A printed character other than the number sign and the dash. -/
def isPlain (c : UInt8) : Bool := 33 ≤ c && c ≤ 126 && c != 35 && c != 45

structure NumeralWord (word : Bytes) : Prop where
  ne_nil : word ≠ []
  short : word.length ≤ 40
  plain : ∀ c ∈ word, isPlain c = true

structure PlainWord (word : Bytes) : Prop where
  ne_nil : word ≠ []
  short : word.length ≤ 40
  plain : ∀ c ∈ word, isPlain c = true ∨ c = 45

/-- Bytes of a list are tested one after the other. -/
instance decidableBytes (p : UInt8 → Prop) [DecidablePred p] (bytes : Bytes) :
    Decidable (∀ c ∈ bytes, p c) :=
  List.decidableBAll p bytes

instance (word : Bytes) : Decidable (NumeralWord word) :=
  decidable_of_iff (word ≠ [] ∧ word.length ≤ 40 ∧ ∀ c ∈ word, isPlain c = true)
    ⟨fun ⟨a, b, c⟩ => ⟨a, b, c⟩, fun ⟨a, b, c⟩ => ⟨a, b, c⟩⟩

instance (word : Bytes) : Decidable (PlainWord word) :=
  decidable_of_iff (word ≠ [] ∧ word.length ≤ 40 ∧ ∀ c ∈ word, isPlain c = true ∨ c = 45)
    ⟨fun ⟨a, b, c⟩ => ⟨a, b, c⟩, fun ⟨a, b, c⟩ => ⟨a, b, c⟩⟩

variable {words : List Bytes} {word : Bytes}

theorem NumeralWord.plainWord (numeral : NumeralWord word) : PlainWord word :=
  ⟨numeral.ne_nil, numeral.short, fun c member => Or.inl (numeral.plain c member)⟩

theorem NumeralWord.head (numeral : NumeralWord word) : word.head? ≠ some 45 := by
  intro dash
  have member : (45 : UInt8) ∈ word := mem_of_head? dash
  exact absurd (numeral.plain 45 member) (by decide)

def line (words : List Bytes) : Bytes := [32].intercalate words

theorem isPlain_facts {c : UInt8} (plain : isPlain c = true ∨ c = 45) :
    isSpace c = false ∧ c ≠ 35 ∧ c ≠ 0 ∧ c ≠ 32 := by
  rcases plain with plain | rfl
  · simp only [isPlain, isSpace, Bool.and_eq_true, decide_eq_true_eq, bne_iff_ne, ne_eq,
      Bool.or_eq_false_iff, beq_eq_false_iff_ne, UInt8.le_iff_toNat_le] at plain ⊢
    obtain ⟨⟨⟨low, -⟩, number⟩, -⟩ := plain
    refine ⟨⟨?_, ?_⟩, number, ?_, ?_⟩
    · rintro rfl
      exact absurd low (by decide)
    · rw [Bool.and_eq_false_iff]
      right
      simp only [decide_eq_false_iff_not]
      have printed : (33 : UInt8).toNat = 33 := rfl
      have control : (13 : UInt8).toNat = 13 := rfl
      omega
    · rintro rfl
      exact absurd low (by decide)
    · rintro rfl
      exact absurd low (by decide)
  · decide

theorem line_cons (more : words ≠ []) : line (word :: words) = word ++ 32 :: line words := by
  cases words with
  | nil => exact absurd rfl more
  | cons next rest => simp [line, List.intercalate]

theorem line_append {front back : List Bytes} (some : front ≠ []) (more : back ≠ []) :
    line (front ++ back) = line front ++ 32 :: line back := by
  induction front with
  | nil => exact absurd rfl some
  | cons word rest ih =>
    by_cases last : rest = []
    · subst last
      rw [singleton_append, line_cons more]
      simp [line, List.intercalate]
    · rw [cons_append, line_cons (by simp [last]), line_cons last, ih last]
      simp

theorem line_eq_flatMap (word : Bytes) (words : List Bytes) :
    line (word :: words) = word ++ words.flatMap (32 :: ·) := by
  induction words generalizing word with
  | nil => simp [line, List.intercalate]
  | cons next rest ih =>
    rw [line_cons (by simp), ih next]
    simp

theorem splitOn_clean (separator : UInt8) (text : Bytes) :
    ∀ part ∈ text.splitOn separator, separator ∉ part := by
  induction text with
  | nil => simp
  | cons c rest ih =>
    rw [splitOn_cons_eq_if_modifyHead]
    split
    next => simpa using ih
    next other =>
      obtain ⟨first, others, found⟩ := exists_cons_of_ne_nil (splitOn_ne_nil separator rest)
      rw [found] at ih ⊢
      intro part member
      rw [modifyHead_cons, mem_cons] at member
      rcases member with rfl | later
      · intro inside
        rcases mem_cons.mp inside with same | behind
        · exact other (by simp [← same])
        · exact ih first (by simp) behind
      · exact ih part (by simp [later])

theorem splitOn_line (some : words ≠ [])
    (plain : ∀ word ∈ words, PlainWord word) : (line words).splitOn 32 = words := by
  apply splitOn_intercalate
  · intro word member blank
    exact (isPlain_facts ((plain word member).plain 32 blank)).2.2.2 rfl
  · exact some

theorem line_length (plain : ∀ word ∈ words, PlainWord word) :
    (line words).length ≤ 41 * words.length := by
  induction words with
  | nil => simp [line, List.intercalate]
  | cons word rest ih =>
    have here := (plain word (by simp)).short
    have there := ih fun other member => plain other (by simp [member])
    by_cases more : rest = []
    · subst more
      simp only [line, intercalate_singleton, length_singleton]
      omega
    · rw [line_cons more]
      simp only [length_append, length_cons]
      omega

theorem line_mem (plain : ∀ word ∈ words, PlainWord word) : ∀ c ∈ line words, c ≠ 0 := by
  induction words with
  | nil => simp [line, List.intercalate]
  | cons word rest ih =>
    have here := (plain word (by simp)).plain
    have there := ih fun other member => plain other (by simp [member])
    intro c member
    by_cases more : rest = []
    · subst more
      simp only [line, intercalate_singleton] at member
      exact (isPlain_facts (here c member)).2.2.1
    · rw [line_cons more] at member
      rcases mem_append.mp member with member | member
      · exact (isPlain_facts (here c member)).2.2.1
      · rcases mem_cons.mp member with rfl | member
        · decide
        · exact there c member

end AthApps.Lib
