import Mathlib.Data.List.TakeWhile
import AthApps.Plc.RuleDump

/-!
# A dumped rule parses

Every classifier that `ParseRule` stores has a value of the width of its field.
Such an entry of a rule table is dumped as one line of plain words; the reader
of `pibruin` finds the line again with its word count, and `handle_rule` takes
from it the entry that was dumped, up to the flow label and to the `cspec` of
a rule that is not `TagTX`.
-/

set_option autoImplicit false

namespace AthApps.Plc

open AthApps.Lib List Option

/-! ## What is stored -/

/-- A classifier whose value has the width of its field. -/
structure Condition where
  field : Field
  operator : Operator
  bytes : Bytes
  exact : bytes.length = field.width

namespace Condition

def classifier (condition : Condition) : Classifier :=
  ⟨condition.field.code, condition.operator.code, paddedValue condition.bytes⟩

theorem reread_length {field : Field} {bytes : Bytes} (exact : bytes.length = field.width) :
    (field.reread bytes).length = field.width := by
  cases field
  case ipv6Fl =>
    match bytes, exact with
    | [a, b, c], _ => rfl
  all_goals exact exact

def reread (condition : Condition) : Condition :=
  ⟨condition.field, condition.operator, condition.field.reread condition.bytes,
    reread_length condition.exact⟩

end Condition

/-- The bytes of a value as the printer of a big endian host takes them. -/
def Field.swapped : Field → Bytes → Bytes
  | .ethType, a :: b :: rest => b :: a :: rest
  | .hpavMme, a :: b :: c :: rest => a :: c :: b :: rest
  | _, bytes => bytes

theorem Field.swapped_length (field : Field) (bytes : Bytes) :
    (field.swapped bytes).length = bytes.length := by
  unfold Field.swapped
  split <;> rfl

theorem Field.swapped_twice (field : Field) (bytes : Bytes) :
    field.swapped (field.swapped bytes) = bytes := by
  cases field
  case ethType =>
    match bytes with
    | [] | [_] | _ :: _ :: _ => rfl
  case hpavMme =>
    match bytes with
    | [] | [_] | [_, _] | _ :: _ :: _ :: _ => rfl
  all_goals simp only [Field.swapped]

def Condition.swapped (condition : Condition) : Condition :=
  ⟨condition.field, condition.operator, condition.field.swapped condition.bytes,
    (condition.field.swapped_length condition.bytes).trans condition.exact⟩

def Classifier.swapped (bigEndian : Bool) (classifier : Classifier) : Classifier :=
  match bigEndian, Field.ofCode classifier.crId with
  | true, some field => { classifier with crValue := field.swapped classifier.crValue }
  | _, _ => classifier

theorem Condition.paddedValue_swapped (condition : Condition) :
    paddedValue (condition.field.swapped condition.bytes) =
      condition.field.swapped (paddedValue condition.bytes) := by
  obtain ⟨field, operator, bytes, exact⟩ := condition
  cases field
  case ethType =>
    obtain ⟨a, b, rfl⟩ := length_eq_two.mp exact
    rfl
  case hpavMme =>
    obtain ⟨a, b, c, rfl⟩ := length_eq_three.mp exact
    rfl
  all_goals simp only [Field.swapped]

theorem Condition.classifier_swapped (condition : Condition) :
    condition.swapped.classifier = condition.classifier.swapped true := by
  simp only [Condition.swapped, Condition.classifier, Classifier.swapped, Field.ofCode_code,
    condition.paddedValue_swapped]

/-- Dumping on a big endian host is dumping the swapped classifier on a little endian one. -/
theorem Condition.dump_swapped (condition : Condition) :
    dumpClassifier true condition.classifier = dumpClassifier false condition.swapped.classifier := by
  obtain ⟨field, operator, bytes, exact⟩ := condition
  have same : dumpValue true field (paddedValue bytes) =
      dumpValue false field (paddedValue (field.swapped bytes)) := by
    cases field
    case ethType =>
      obtain ⟨a, b, rfl⟩ := length_eq_two.mp exact
      rfl
    case hpavMme =>
      obtain ⟨a, b, c, rfl⟩ := length_eq_three.mp exact
      rfl
    case tcpAck | vlanTag =>
      obtain rfl := eq_nil_of_length_eq_zero exact
      decide
    all_goals simp only [dumpValue, Field.swapped]
  simp only [dumpClassifier, Condition.swapped, Condition.classifier, Field.ofCode_code,
    bind_eq_bind, bind_some, same]

def Classifier.Stored (classifier : Classifier) : Prop :=
  ∃ condition : Condition, condition.classifier = classifier

def Classifier.reread (classifier : Classifier) : Classifier :=
  if classifier.crId = Field.code .ipv6Fl then
    { classifier with crValue := paddedValue ((classifier.crValue.take 3).drop 1 ++ [0]) }
  else classifier

theorem Field.code_injective {left right : Field} (same : left.code = right.code) : left = right := by
  have found := congrArg Field.ofCode same
  rw [Field.ofCode_code, Field.ofCode_code] at found
  exact some.inj found

theorem Condition.classifier_reread (condition : Condition) :
    condition.reread.classifier = condition.classifier.reread := by
  obtain ⟨field, operator, bytes, exact⟩ := condition
  by_cases label : field = .ipv6Fl
  · subst label
    match bytes, exact with
    | [a, b, c], _ => rfl
  · have other : field.code ≠ Field.code .ipv6Fl := fun same => label (Field.code_injective same)
    have same : field.reread bytes = bytes := by
      cases field
      case ipv6Fl => exact absurd rfl label
      all_goals rfl
    simp [Condition.reread, Condition.classifier, Classifier.reread, other, same]

/-- A stored classifier survives exactly if it is no flow label but zero. -/
theorem Classifier.Stored.reread_eq_iff {classifier : Classifier} (stored : classifier.Stored) :
    classifier.reread = classifier ↔
      (classifier.crId = Field.code .ipv6Fl → classifier.crValue = paddedValue []) := by
  obtain ⟨⟨field, operator, bytes, exact⟩, rfl⟩ := stored
  by_cases label : field = .ipv6Fl
  · subst label
    match bytes, exact with
    | [a, b, c], _ =>
      simp only [Condition.classifier, Classifier.reread, paddedValue, if_true, true_imp_iff,
        Classifier.mk.injEq, true_and]
      simp
      constructor
      · rintro ⟨rfl, rfl, rfl⟩
        exact ⟨rfl, rfl, rfl⟩
      · rintro ⟨rfl, rfl, rfl⟩
        exact ⟨rfl, rfl, rfl⟩
  · have other : field.code ≠ Field.code .ipv6Fl := fun same => label (Field.code_injective same)
    simp [Condition.classifier, Classifier.reread, other]

/-- Three times are enough to clear every flow label. -/
theorem Classifier.Stored.reread_thrice {classifier : Classifier} (stored : classifier.Stored) :
    classifier.reread.reread.reread.crId = Field.code .ipv6Fl →
      classifier.reread.reread.reread.crValue = paddedValue [] := by
  obtain ⟨⟨field, operator, bytes, exact⟩, rfl⟩ := stored
  by_cases label : field = .ipv6Fl
  · subst label
    match bytes, exact with
    | [a, b, c], _ =>
      intro _
      rfl
  · have other : field.code ≠ Field.code .ipv6Fl := fun same => label (Field.code_injective same)
    simp [Condition.classifier, Classifier.reread, other]

theorem Classifier.Stored.swapped {classifier : Classifier} (stored : classifier.Stored)
    (bigEndian : Bool) : (classifier.swapped bigEndian).Stored := by
  cases bigEndian with
  | false => exact stored
  | true =>
    obtain ⟨condition, rfl⟩ := stored
    exact ⟨condition.swapped, condition.classifier_swapped⟩

theorem Classifier.Stored.dump {classifier : Classifier} (stored : classifier.Stored)
    (bigEndian : Bool) :
    dumpClassifier bigEndian classifier = dumpClassifier false (classifier.swapped bigEndian) := by
  cases bigEndian with
  | false => rfl
  | true =>
    obtain ⟨condition, rfl⟩ := stored
    rw [condition.dump_swapped, condition.classifier_swapped]

theorem Classifier.swapped_twice (bigEndian : Bool) (classifier : Classifier) :
    (classifier.swapped bigEndian).swapped bigEndian = classifier := by
  cases bigEndian with
  | false => rfl
  | true =>
    cases found : Field.ofCode classifier.crId with
    | none => simp only [Classifier.swapped, found]
    | some field => simp only [Classifier.swapped, found, Field.swapped_twice]

theorem Classifier.swapped_label (bigEndian : Bool) (classifier : Classifier) :
    (classifier.swapped bigEndian).crId = classifier.crId ∧
      (classifier.crId = Field.code .ipv6Fl → classifier.swapped bigEndian = classifier) := by
  cases bigEndian with
  | false => exact ⟨rfl, fun _ => rfl⟩
  | true =>
    unfold Classifier.swapped
    cases found : Field.ofCode classifier.crId with
    | none => exact ⟨rfl, fun _ => rfl⟩
    | some field =>
      refine ⟨rfl, fun label => ?_⟩
      rw [label, Field.ofCode_code] at found
      obtain rfl := some.inj found
      simp only [Field.swapped]

/-! ## What the parser stores -/

theorem bytespec_length {string bytes : Bytes} {extent : Nat}
    (read : bytespec string extent = some bytes) : bytes.length = extent := by
  unfold bytespec at read
  split at read
  case h_1 found left scanned =>
    split at read
    case isTrue both =>
      rw [← some.inj read]
      exact both.2
    case isFalse => exact absurd read (by simp)
  case h_2 => exact absurd read (by simp)

theorem ipv4spec_length {string bytes : Bytes} (read : ipv4spec string = some bytes) :
    bytes.length = 4 := by
  unfold ipv4spec at read
  split at read
  case h_1 found left scanned =>
    split at read
    case isTrue both =>
      rw [← some.inj read]
      exact both.1
    case isFalse => exact absurd read (by simp)
  case h_2 => exact absurd read (by simp)

theorem ipv6Fields_length {extent : Nat} {stored number bytes left : Bytes}
    {marker mark : Option Nat}
    (read : ipv6Fields extent stored marker number = some (bytes, mark, left)) :
    bytes.length ≤ stored.length + 2 * extent := by
  induction extent generalizing stored marker number with
  | zero =>
    simp only [ipv6Fields, some.injEq, Prod.mk.injEq] at read
    rw [read.1]
    omega
  | succ extent ih =>
    cases number with
    | nil =>
      simp only [ipv6Fields, some.injEq, Prod.mk.injEq] at read
      rw [read.1]
      omega
    | cons c rest =>
      simp only [ipv6Fields] at read
      split at read
      case h_1 value number scanned =>
        have bound := ih read
        simp only [length_append, length_cons, length_nil] at bound
        omega
      case h_2 => exact absurd read (by simp)

theorem ipv6spec_length {string bytes : Bytes} (read : ipv6spec string = some bytes) :
    bytes.length = 16 := by
  unfold ipv6spec at read
  split at read
  case h_1 stored marker scanned =>
    have bound := ipv6Fields_length scanned
    rw [← some.inj read]
    simp only [length_append, length_take, length_replicate, length_drop]
    simp only [length_nil] at bound
    omega
  case h_2 stored scanned =>
    split at read
    case isTrue whole =>
      rw [← some.inj read]
      exact whole
    case isFalse => exact absurd read (by simp)
  case h_3 => exact absurd read (by simp)

@[simp] theorem bigEndian_length (size n : Nat) : (bigEndian size n).length = size := by
  simp [bigEndian]

theorem parseValue_length {field : Field} {operator after : Operator} {word bytes : Bytes}
    (parsed : parseValue field operator word = some (after, bytes)) :
    bytes.length = field.width := by
  cases field
  case ethSa | ethDa =>
    obtain ⟨found, read, same⟩ := map_eq_some_iff.mp parsed
    rw [← (Prod.mk.inj same).2]
    exact bytespec_length read
  case ipv4Sa | ipv4Da =>
    obtain ⟨found, read, same⟩ := map_eq_some_iff.mp parsed
    rw [← (Prod.mk.inj same).2]
    exact ipv4spec_length read
  case ipv6Sa | ipv6Da =>
    obtain ⟨found, read, same⟩ := map_eq_some_iff.mp parsed
    rw [← (Prod.mk.inj same).2]
    exact ipv6spec_length read
  case hpavMme =>
    obtain ⟨found, read, same⟩ := map_eq_some_iff.mp parsed
    rw [← (Prod.mk.inj same).2]
    have exact := bytespec_length read
    simp only [length_append, length_take, length_reverse, length_drop, exact]
    rfl
  all_goals
    obtain ⟨found, read, same⟩ := map_eq_some_iff.mp parsed
    rw [← (Prod.mk.inj same).2]
    simp [Field.width]

theorem parseClassifier_stored {field operator value : Bytes} {classifier : Classifier}
    (parsed : parseClassifier field operator value = some classifier) : classifier.Stored := by
  simp only [parseClassifier, bind_eq_bind, bind_eq_some_iff] at parsed
  obtain ⟨id, -, before, -, ⟨after, bytes⟩, read, same⟩ := parsed
  exact ⟨⟨id, after, bytes, parseValue_length read⟩, some.inj same⟩

/-! ## Reading a line -/

theorem extendLine_short {line : Bytes} (short : line.length + 1 < 1023) (c : UInt8) :
    extendLine line c = some (line ++ [c]) := by
  have other : line.length + 1 ≠ lineSize - 1 := by
    unfold lineSize
    omega
  rw [extendLine, if_neg other]

theorem ruleLines_word {word rest line : Bytes} {wc : Nat}
    (plain : ∀ c ∈ word, isPlain c = true ∨ c = 45) (short : line.length + word.length < 1023) :
    ruleLines (.rule line wc) (word ++ rest) = ruleLines (.rule (line ++ word) wc) rest := by
  induction word generalizing line with
  | nil => simp
  | cons c others ih =>
    simp only [length_cons] at short
    have facts := isPlain_facts (plain c (by simp))
    have newline : c ≠ 10 := by
      rintro rfl
      exact absurd facts.1 (by decide)
    have extended := @extendLine_short line (by omega) c
    simp only [cons_append, ruleLines, newline, if_false, facts.1, Bool.false_eq_true,
      facts.2.1, extended, bind_some]
    rw [ih (fun other member => plain other (by simp [member]))
      (by simp only [length_append, length_singleton]; omega)]
    simp

theorem ruleLines_blank_word {word rest line : Bytes} {wc : Nat} (word_plain : PlainWord word)
    (short : line.length + word.length + 1 < 1023) :
    ruleLines (.rule line wc) (32 :: word ++ rest) =
      ruleLines (.rule (line ++ 32 :: word) (wc + 1)) rest := by
  obtain ⟨c, others, rfl⟩ := exists_cons_of_ne_nil word_plain.ne_nil
  have plain := word_plain.plain
  simp only [length_cons] at short
  have facts := isPlain_facts (plain c (by simp))
  have newline : c ≠ 10 := by
    rintro rfl
    exact absurd facts.1 (by decide)
  have blank := @extendLine_short line (by omega) 32
  have extended := @extendLine_short (line ++ [32])
    (by simp only [length_append, length_singleton]; omega) c
  have space : isSpace 32 = true := by decide
  have notNewline : (32 : UInt8) ≠ 10 := by decide
  simp only [cons_append, ruleLines, notNewline, if_false, space, if_true, newline, facts.1,
    Bool.false_eq_true, facts.2.1, blank, extended, bind_some]
  rw [ruleLines_word (fun other member => plain other (by simp [member]))
    (by simp only [length_append, length_singleton]; omega)]
  simp

theorem ruleLines_words {words : List Bytes} {rest line : Bytes} {wc : Nat}
    (plain : ∀ word ∈ words, PlainWord word)
    (short : line.length + (words.flatMap (32 :: ·)).length < 1023) :
    ruleLines (.rule line wc) (words.flatMap (32 :: ·) ++ 10 :: rest) =
      (ruleLines .outside rest).map
        ((line ++ words.flatMap (32 :: ·), wc + words.length + 1) :: ·) := by
  induction words generalizing line wc with
  | nil => simp [ruleLines]
  | cons word others ih =>
    simp only [flatMap_cons, length_append, length_cons] at short
    have first : (word :: others).flatMap (32 :: ·) ++ 10 :: rest =
        32 :: word ++ (others.flatMap (32 :: ·) ++ 10 :: rest) := by simp
    rw [first, ruleLines_blank_word (plain word (by simp)) (by omega),
      ih (fun other member => plain other (by simp [member]))
        (by simp only [length_append, length_cons]; omega)]
    have count : wc + 1 + others.length + 1 = wc + (word :: others).length + 1 := by
      simp only [length_cons]
      omega
    rw [count]
    simp

theorem ruleLines_line {words : List Bytes} {rest : Bytes} (some : words ≠ [])
    (plain : ∀ word ∈ words, PlainWord word) (short : (line words).length < 1023) :
    ruleLines .outside (line words ++ 10 :: rest) =
      (ruleLines .outside rest).map ((line words, words.length) :: ·) := by
  obtain ⟨word, others, rfl⟩ := exists_cons_of_ne_nil some
  have first := plain word (by simp)
  have written := line_eq_flatMap word others
  obtain ⟨c, letters, rfl⟩ := exists_cons_of_ne_nil first.ne_nil
  have facts := isPlain_facts (first.plain c (by simp))
  rw [written] at short ⊢
  simp only [length_append, length_cons] at short
  simp only [cons_append, append_assoc, ruleLines, facts.1, Bool.false_eq_true, if_false,
    facts.2.1]
  rw [ruleLines_word (fun other member => first.plain other (by simp [member]))
      (by simp only [length_singleton]; omega),
    ruleLines_words (fun other member => plain other (by simp [member]))
      (by simp only [length_append, length_singleton]; omega)]
  simp

theorem ruleLines_comment {comment rest : Bytes} (one : ∀ c ∈ comment, c ≠ 10) :
    ruleLines .comment (comment ++ 10 :: rest) = ruleLines .outside rest := by
  induction comment with
  | nil => simp [ruleLines]
  | cons c others ih =>
    have here := one c (by simp)
    simp only [cons_append, ruleLines, here, if_false]
    exact ih fun other member => one other (by simp [member])

/-! ## Options -/

theorem getoptv_word {word : Bytes} (noOption : word.head? ≠ some 45) (budget : Nat)
    (rest : List Bytes) (cspec : Cspec) :
    getoptv (budget + 1) (word :: rest) cspec =
      (getoptv budget rest cspec).map fun (cspec, left) => (cspec, word :: left) := by
  rw [getoptv]
  all_goals
    intros
    subst_vars
    simp at noOption

theorem getoptv_words {words : List Bytes}
    (noOption : ∀ word ∈ words, word.head? ≠ some 45) {budget : Nat} (enough : budget ≤ words.length)
    (cspec : Cspec) : getoptv budget words cspec = some (cspec, words) := by
  induction words generalizing budget with
  | nil =>
    rw [Nat.le_zero.mp enough]
    rfl
  | cons word rest ih =>
    cases budget with
    | zero => rfl
    | succ budget =>
      rw [getoptv_word (noOption word (by simp)),
        ih (fun other member => noOption other (by simp [member])) (Nat.le_of_succ_le_succ enough)]
      rfl

theorem getoptv_option (option : UInt8) (ordinary : option ≠ 45) (budget : Nat)
    (operand : Bytes) (rest : List Bytes) (cspec : Cspec) :
    getoptv (budget + 2) ([45, option] :: operand :: rest) cspec =
      (ruleOption option operand cspec).bind (getoptv budget rest) := by
  rw [getoptv]
  intro same
  exact ordinary same

/-! ## Well-formed entries -/

theorem scanDigits_le {radix limit start value : Nat} {text left : Bytes}
    (below : start ≤ limit) (read : scanDigits radix limit text start = some (value, left)) :
    value ≤ limit := by
  induction text generalizing start with
  | nil =>
    simp only [scanDigits, some.injEq, Prod.mk.injEq] at read
    rw [← read.1]
    exact below
  | cons c rest ih =>
    simp only [scanDigits] at read
    split at read
    case isTrue =>
      split at read
      case isTrue => exact absurd read (by simp)
      case isFalse within => exact ih (Nat.le_of_not_lt within) read
    case isFalse =>
      rw [← (Prod.mk.inj (some.inj read)).1]
      exact below

theorem basespec_lt {string : Bytes} {base size value : Nat}
    (read : basespec string base size = some value) : value < 256 ^ size := by
  have positive : 0 < 256 ^ size := Nat.pow_pos (by decide)
  unfold basespec at read
  generalize (if base = 0 then 10 else base) = start at read
  dsimp only at read
  split at read
  case isTrue => exact absurd read (by simp)
  case isFalse =>
    split at read
    case h_1 found scanned =>
      rw [← some.inj read]
      have bound := scanDigits_le (Nat.zero_le _) scanned
      omega
    case h_2 => exact absurd read (by simp)

/-- The members of a `cspec` fit their types. -/
structure Cspec.Fits (cspec : Cspec) : Prop where
  version : cspec.cspecVersion < 65536
  tag : cspec.vlanTag < 4294967296

theorem Cspec.zero_fits : Cspec.zero.Fits := ⟨by decide, by decide⟩

theorem ruleOption_fits {option : UInt8} {operand : Bytes} {before after : Cspec}
    (fits : before.Fits) (taken : ruleOption option operand before = some after) : after.Fits := by
  unfold ruleOption at taken
  split at taken
  case isTrue =>
    obtain ⟨tag, read, rfl⟩ := map_eq_some_iff.mp taken
    exact ⟨fits.version, by simpa using basespec_lt read⟩
  case isFalse =>
    split at taken
    case isTrue =>
      obtain ⟨version, read, rfl⟩ := map_eq_some_iff.mp taken
      exact ⟨by simpa using basespec_lt read, fits.tag⟩
    case isFalse => exact absurd taken (by simp)

theorem getoptv_fits {budget : Nat} {words left : List Bytes} {before after : Cspec}
    (fits : before.Fits) (taken : getoptv budget words before = some (after, left)) :
    after.Fits := by
  fun_induction getoptv budget words before generalizing after left with
  | case1 words cspec =>
    rw [← (Prod.mk.inj (some.inj taken)).1]
    exact fits
  | case2 => exact absurd taken (by simp)
  | case3 budget rest cspec ih => exact ih fits taken
  | case4 => exact absurd taken (by simp)
  | case5 =>
    rw [← (Prod.mk.inj (some.inj taken)).1]
    exact fits
  | case6 => exact absurd taken (by simp)
  | case7 option operand rest cspec ordinary budget ih =>
    obtain ⟨next, option, later⟩ := bind_eq_some_iff.mp taken
    exact ih next (ruleOption_fits fits option) later
  | case8 => exact absurd taken (by simp)
  | case9 budget option operand rest cspec _ _ _ ih =>
    obtain ⟨next, option, later⟩ := bind_eq_some_iff.mp taken
    exact ih next (ruleOption_fits fits option) later
  | case10 budget word rest cspec _ _ _ _ ih =>
    obtain ⟨⟨next, words⟩, later, same⟩ := map_eq_some_iff.mp taken
    rw [← (Prod.mk.inj same).1]
    exact ih fits later

theorem parseClassifiers_stored {argc : Int} {words left : List Bytes}
    {classifiers : List Classifier} (parsed : parseClassifiers argc words = some (classifiers, left)) :
    ∀ classifier ∈ classifiers, classifier.Stored := by
  fun_induction parseClassifiers argc words generalizing classifiers left with
  | case1 =>
    rw [← (Prod.mk.inj (some.inj parsed)).1]
    simp
  | case2 =>
    rw [← (Prod.mk.inj (some.inj parsed)).1]
    simp
  | case3 => exact absurd parsed (by simp)
  | case4 argc field noControl operator value rest more ih =>
    simp only [bind_eq_bind, bind_eq_some_iff] at parsed
    obtain ⟨first, firstParsed, ⟨others, rest⟩, othersParsed, same⟩ := parsed
    rw [← (Prod.mk.inj (some.inj same)).1]
    intro classifier member
    rcases mem_cons.mp member with rfl | member
    · exact parseClassifier_stored firstParsed
    · exact ih othersParsed classifier member
  | case5 => exact absurd parsed (by simp)

structure Rule.WellFormed (rule : Rule) : Prop where
  stored : ∀ classifier ∈ rule.classifiers, classifier.Stored
  few : rule.classifiers.length ≤ 3
  fits : rule.trailer.Fits

theorem ruleOfLine_wellFormed {str : Bytes} {argc : Nat} {rule : Rule}
    (parsed : ruleOfLine str argc = some rule) : rule.WellFormed := by
  unfold ruleOfLine at parsed
  dsimp only at parsed
  split at parsed
  case isTrue => exact absurd parsed (by simp)
  case isFalse =>
    split at parsed
    case h_1 cspec argv options =>
      have fits := getoptv_fits Cspec.zero_fits options
      unfold parseRule at parsed
      split at parsed
      case h_1 actionWord operandWord rest =>
        simp only [bind_eq_bind, bind_eq_some_iff] at parsed
        obtain ⟨action, -, operand, -, ⟨classifiers, left⟩, read, parsed⟩ := parsed
        have stored := parseClassifiers_stored read
        split at parsed
        case isTrue => exact absurd parsed (by simp)
        case isFalse few =>
          split at parsed
          case h_1 =>
            simp only [bind_eq_some_iff] at parsed
            obtain ⟨control, -, volatility, -, same⟩ := parsed
            rw [← some.inj same]
            exact ⟨stored, Nat.le_of_not_lt few, fits⟩
          case h_2 => exact absurd parsed (by simp)
      case h_2 => exact absurd parsed (by simp)
    case h_2 => exact absurd parsed (by simp)

structure AutoConnection.WellFormed (entry : AutoConnection) : Prop where
  stored : ∀ classifier ∈ entry.classifiers, classifier.Stored
  few : entry.classifiers.length ≤ 3
  fits : entry.cspec.Fits
  bare : entry.classifiers.length ≠ 3 → entry.cspec = Cspec.zero

theorem Rule.WellFormed.autoConnection {rule : Rule} (formed : rule.WellFormed) :
    rule.autoConnection.WellFormed := by
  refine ⟨formed.stored, formed.few, ?_, ?_⟩
  · change rule.cspec.Fits
    unfold Rule.cspec
    split
    · exact formed.fits
    · exact Cspec.zero_fits
  · intro other
    exact if_neg other

/-! ## The line of an entry -/

namespace Condition

def value (condition : Condition) : Bytes :=
  (dumpValue false condition.field (paddedValue condition.bytes)).getD []

def words (condition : Condition) : List Bytes :=
  [condition.field.name, condition.operator.name, condition.value]

variable (condition : Condition)

theorem value_spec :
    dumpValue false condition.field (paddedValue condition.bytes) = some condition.value ∧
      NumeralWord condition.value ∧
      parseValue condition.field condition.operator condition.value =
        some (condition.operator, condition.field.reread condition.bytes) := by
  obtain ⟨word, dumped, numeral, parsed⟩ :=
    parseValue_dumpValue condition.field condition.operator condition.exact
  have same : condition.value = word := by
    rw [value, dumped]
    rfl
  rw [same]
  exact ⟨dumped, numeral, parsed⟩

theorem dump : dumpClassifier false condition.classifier = some (line condition.words) := by
  have dumped := condition.value_spec.1
  have text : line condition.words =
      condition.field.name ++ 32 :: condition.operator.name ++ 32 :: condition.value := by
    simp [words, line_eq_flatMap]
  simp only [dumpClassifier, classifier, Field.ofCode_code, Operator.ofCode_code,
    condition.field.named.prints, condition.operator.named.prints, dumped, bind_eq_bind,
    bind_some, text]

theorem parse : parseClassifier condition.field.name condition.operator.name condition.value =
      some condition.classifier.reread := by
  have parsed := condition.value_spec.2.2
  simp only [parseClassifier, condition.field.named.reads, condition.operator.named.reads, parsed,
    bind_eq_bind, bind_some]
  rw [← condition.classifier_reread]
  rfl

theorem words_plain : ∀ word ∈ condition.words, PlainWord word ∧ word.head? ≠ some 45 := by
  intro word member
  have numeral := condition.value_spec.2.1
  rcases mem_cons.mp member with rfl | member
  · exact ⟨condition.field.named.plain, condition.field.named.noOption⟩
  · rcases mem_cons.mp member with rfl | member
    · exact ⟨condition.operator.named.plain, condition.operator.named.noOption⟩
    · rw [mem_singleton.mp member]
      exact ⟨numeral.plainWord, numeral.head⟩

end Condition

theorem exists_conditions {classifiers : List Classifier}
    (stored : ∀ classifier ∈ classifiers, classifier.Stored) :
    ∃ conditions : List Condition, conditions.map Condition.classifier = classifiers := by
  induction classifiers with
  | nil => exact ⟨[], rfl⟩
  | cons classifier rest ih =>
    obtain ⟨condition, here⟩ := stored classifier (by simp)
    obtain ⟨conditions, there⟩ := ih fun other member => stored other (by simp [member])
    exact ⟨condition :: conditions, by rw [map_cons, here, there]⟩

variable (entry : AutoConnection) (conditions : List Condition)

theorem mapM_dumpClassifier : (conditions.map Condition.classifier).mapM (dumpClassifier false) =
      some (conditions.map fun condition => line condition.words) := by
  induction conditions with
  | nil => rfl
  | cons condition rest ih =>
    rw [map_cons, mapM_cons, condition.dump, ih]
    rfl

theorem flatMap_line {tail : List Bytes} (more : tail ≠ []) :
    (conditions.map fun condition => line condition.words).flatMap (· ++ [32]) ++ line tail =
      line (conditions.flatMap Condition.words ++ tail) := by
  induction conditions with
  | nil => rfl
  | cons condition rest ih =>
    have behind : rest.flatMap Condition.words ++ tail ≠ [] := by simp [more]
    rw [flatMap_cons, append_assoc, line_append (by simp [Condition.words]) behind, ← ih]
    simp

/-- The options that stand in front of a `TagTX` rule. -/
def tagWords (entry : AutoConnection) : List Bytes :=
  if entry.mAction = .tagTx then
    [letters "-T", letters "0x" ++ upperHex 8 entry.cspec.vlanTag, letters "-V",
      decimal entry.cspec.cspecVersion]
  else []

def ruleWords (entry : AutoConnection) (conditions : List Condition) : List Bytes :=
  entry.mAction.name :: entry.mOperand.name ::
    (conditions.flatMap Condition.words ++ [letters "add", letters "perm"])

theorem line_ruleWords (conditions : List Condition) : line (ruleWords entry conditions) =
      entry.mAction.name ++ 32 :: entry.mOperand.name ++ 32 ::
        ((conditions.map fun condition => line condition.words).flatMap (· ++ [32]) ++
          line [letters "add", letters "perm"]) := by
  have behind : conditions.flatMap Condition.words ++ [letters "add", letters "perm"] ≠ [] := by
    simp
  calc line (ruleWords entry conditions)
      = entry.mAction.name ++ 32 :: line (entry.mOperand.name ::
          (conditions.flatMap Condition.words ++ [letters "add", letters "perm"])) :=
        line_cons (by simp)
    _ = entry.mAction.name ++ 32 :: (entry.mOperand.name ++ 32 ::
          line (conditions.flatMap Condition.words ++ [letters "add", letters "perm"])) := by
        rw [line_cons behind]
    _ = _ := by
        rw [flatMap_line conditions (by simp)]
        simp

theorem dumpAutoConnection_line {entry : AutoConnection} {conditions : List Condition}
    (same : conditions.map Condition.classifier = entry.classifiers) :
    dumpAutoConnection false entry =
      some (line (tagWords entry ++ ruleWords entry conditions) ++ [10]) := by
  have last : letters "add perm\n" = line [letters "add", letters "perm"] ++ [10] := by decide
  have body := line_ruleWords entry conditions
  simp only [dumpAutoConnection, entry.mAction.named.prints, entry.mOperand.named.prints, ← same,
    mapM_dumpClassifier, bind_eq_bind, bind_some, tagWords]
  split
  case isTrue tagged =>
    have first : letters "-T 0x" = letters "-T" ++ 32 :: letters "0x" := by decide
    have second : letters " -V " = 32 :: letters "-V" ++ [32] := by decide
    rw [line_append (by simp) (by simp [ruleWords]), body, last, first, second]
    simp [line_eq_flatMap]
  case isFalse =>
    rw [nil_append, nil_append, body, last]
    simp

theorem tagWords_plain {entry : AutoConnection} (fits : entry.cspec.Fits) :
    ∀ word ∈ tagWords entry, PlainWord word := by
  intro word member
  unfold tagWords at member
  split at member
  case isTrue =>
    have small : entry.cspec.cspecVersion < 10 ^ 10 :=
      Nat.lt_trans fits.version (by decide)
    simp only [mem_cons, not_mem_nil, or_false] at member
    rcases member with rfl | rfl | rfl | rfl
    · decide
    · exact (upperHex_word 8 _ (by decide)).plainWord
    · decide
    · exact (decimal_word small).plainWord
  case isFalse => exact absurd member (by simp)

theorem ruleWords_plain (conditions : List Condition) :
    ∀ word ∈ ruleWords entry conditions, PlainWord word ∧ word.head? ≠ some 45 := by
  intro word member
  rcases mem_cons.mp member with rfl | member
  · exact ⟨entry.mAction.named.plain, entry.mAction.named.noOption⟩
  · rcases mem_cons.mp member with rfl | member
    · exact ⟨entry.mOperand.named.plain, entry.mOperand.named.noOption⟩
    · rcases mem_append.mp member with member | member
      · obtain ⟨condition, -, inside⟩ := mem_flatMap.mp member
        exact condition.words_plain word inside
      · simp only [mem_cons, not_mem_nil, or_false] at member
        rcases member with rfl | rfl
        · exact ⟨by decide, by decide⟩
        · exact ⟨by decide, by decide⟩

theorem flatMap_words_length :
    (conditions.flatMap Condition.words).length = 3 * conditions.length := by
  induction conditions with
  | nil => rfl
  | cons condition rest ih =>
    rw [flatMap_cons, length_append, ih, length_cons]
    simp only [Condition.words, length_cons, length_nil]
    omega

theorem ruleWords_length (conditions : List Condition) :
    (ruleWords entry conditions).length = 3 * conditions.length + 4 := by
  simp only [ruleWords, length_cons, length_append, flatMap_words_length, length_nil]

theorem tagWords_length : (tagWords entry).length ≤ 4 := by
  unfold tagWords
  split <;> simp

/-! ## The line parses -/

theorem parseClassifiers_words : parseClassifiers (3 * conditions.length + 1)
        (conditions.flatMap Condition.words ++ [letters "add", letters "perm"]) =
      some (conditions.map fun condition => condition.classifier.reread,
        [letters "add", letters "perm"]) := by
  induction conditions with
  | nil =>
    have control : (lookup (letters "add") controls).isSome = true := by decide
    simp [parseClassifiers, control]
  | cons condition rest ih =>
    have noControl : (lookup condition.field.name controls).isSome = false := by
      rw [condition.field.named.noControl]
      rfl
    have count : 3 * ((rest.length + 1 : Nat) : Int) + 1 - 3 = 3 * rest.length + 1 := by omega
    have value : ¬ 3 * ((rest.length + 1 : Nat) : Int) + 1 = 2 := by omega
    simp only [flatMap_cons, Condition.words, cons_append, nil_append,
      length_cons, parseClassifiers, noControl,
      Bool.false_eq_true, if_false, value, condition.parse, count, ih, bind_eq_bind,
      bind_some, map_cons]

def AutoConnection.rule (entry : AutoConnection) : Rule :=
  ⟨.add, .perm, entry.mAction, entry.mOperand, entry.classifiers, entry.cspec⟩

def AutoConnection.reread (entry : AutoConnection) : AutoConnection :=
  { entry with
    classifiers := entry.classifiers.map Classifier.reread
    cspec := if entry.mAction = .tagTx then entry.cspec else Cspec.zero }

theorem parseRule_words {conditions : List Condition}
    (same : conditions.map Condition.classifier = entry.classifiers)
    (few : conditions.length ≤ 3) (cspec : Cspec) :
    parseRule (3 * conditions.length + 3) (ruleWords entry conditions) cspec =
      some ⟨.add, .perm, entry.mAction, entry.mOperand, entry.classifiers.map Classifier.reread,
        cspec⟩ := by
  have count : (3 * (conditions.length : Int) + 3) - 2 = 3 * conditions.length + 1 := by omega
  have short : ¬ 3 < (entry.classifiers.map Classifier.reread).length := by
    rw [← same, length_map, length_map]
    exact Nat.not_lt.mpr few
  have control : lookup (letters "add") controls = some .add := by decide
  have volatility : lookup (letters "perm") volatilities = some .perm := by decide
  have mapped : (conditions.map fun condition => condition.classifier.reread) =
      entry.classifiers.map Classifier.reread := by
    rw [← same, List.map_map]
    rfl
  simp only [parseRule, ruleWords, entry.mAction.named.reads, entry.mOperand.named.reads, count,
    parseClassifiers_words, mapped, short, if_false, control, volatility, bind_eq_bind,
    bind_some]

theorem getoptv_tag {entry : AutoConnection} (fits : entry.cspec.Fits)
    {words : List Bytes} (noOption : ∀ word ∈ words, word.head? ≠ some 45)
    (some_word : words ≠ []) :
    getoptv ((tagWords entry ++ words).length - 1) (tagWords entry ++ words) Cspec.zero =
      some (entry.reread.cspec, words) := by
  have positive := length_pos_of_ne_nil some_word
  unfold tagWords AutoConnection.reread
  dsimp only
  split
  case isTrue =>
    have tag : basespec (letters "0x" ++ upperHex 8 entry.cspec.vlanTag) 16 4 =
        some entry.cspec.vlanTag :=
      basespec_upperHex (Or.inr rfl) (Nat.lt_of_lt_of_le fits.tag (by decide))
        (Nat.lt_of_lt_of_le fits.tag (by decide))
    have version : basespec (decimal entry.cspec.cspecVersion) 10 2 =
        some entry.cspec.cspecVersion :=
      basespec_decimal (Or.inr rfl) (Nat.lt_trans fits.version (by decide))
        (Nat.lt_of_lt_of_le fits.version (by decide))
    have optionT : letters "-T" = [45, 84] := by decide
    have optionV : letters "-V" = [45, 86] := by decide
    have budget : (([letters "-T", letters "0x" ++ upperHex 8 entry.cspec.vlanTag, letters "-V",
        decimal entry.cspec.cspecVersion] ++ words).length - 1) = (words.length - 1 + 2) + 2 := by
      simp only [length_append, length_cons, length_nil]
      omega
    rw [budget, optionT, optionV]
    simp only [cons_append, nil_append]
    rw [getoptv_option 84 (by decide)]
    simp only [ruleOption, if_true, tag, map_some, bind_some]
    rw [getoptv_option 86 (by decide)]
    have other : ¬ (86 : UInt8) = 84 := by decide
    simp only [ruleOption, other, if_false, if_true, version, map_some, bind_some]
    rw [getoptv_words noOption (Nat.sub_le _ _)]
  case isFalse =>
    rw [nil_append, getoptv_words noOption (Nat.sub_le _ _)]

theorem ruleOfLine_dumped {entry : AutoConnection} (formed : entry.WellFormed)
    {conditions : List Condition}
    (same : conditions.map Condition.classifier = entry.classifiers) :
    ruleOfLine (line (tagWords entry ++ ruleWords entry conditions))
        (tagWords entry ++ ruleWords entry conditions).length =
      some entry.reread.rule := by
  have few : conditions.length ≤ 3 := by
    have bound := formed.few
    rwa [← same, length_map] at bound
  have plain : ∀ word ∈ tagWords entry ++ ruleWords entry conditions, PlainWord word := by
    intro word member
    rcases mem_append.mp member with member | member
    · exact tagWords_plain formed.fits word member
    · exact (ruleWords_plain entry conditions word member).1
  have some_word : tagWords entry ++ ruleWords entry conditions ≠ [] := by simp [ruleWords]
  have whole : (line (tagWords entry ++ ruleWords entry conditions)).takeWhile (· != 0) =
      line (tagWords entry ++ ruleWords entry conditions) := by
    rw [takeWhile_eq_self_iff]
    intro c member
    simpa using line_mem plain c member
  have long := ruleWords_length entry conditions
  have several : (tagWords entry ++ ruleWords entry conditions).length ≠ 1 := by
    rw [length_append]
    omega
  have options := getoptv_tag formed.fits
    (fun word member => (ruleWords_plain entry conditions word member).2)
    (by simp [ruleWords] : ruleWords entry conditions ≠ [])
  have count : ((tagWords entry ++ ruleWords entry conditions).length : Int) - 1 -
      ((tagWords entry ++ ruleWords entry conditions).length -
        (ruleWords entry conditions).length) = 3 * conditions.length + 3 := by
    rw [long]
    push_cast
    omega
  unfold ruleOfLine
  dsimp only
  rw [whole, splitOn_line some_word plain, if_neg several, options]
  dsimp only
  rw [count, parseRule_words entry same few]
  rfl

end AthApps.Plc
