import Mathlib.Data.List.TakeWhile
import AthApps.Plc.Rule

/-!
# The words of a rule and the room for them

The loop of `main` in `pib/pibruin.c` counts the words of a rule, and the loop of
`handle_rule` cuts the line up again.  A word is counted at the blank behind it,
and a newline is such a blank; a word in front of a comment or at the end of the
input is not counted, and the line is cut into one word more than there is room
for.
-/

set_option autoImplicit false

namespace AthApps.Plc

open AthApps.Lib List Option

/-- What `handle_rule` stores into `argv`. -/
inductive Argument
  | programName
  -- the text from a place of the line on
  | text (place : Nat)
  | null
  deriving DecidableEq

/-- The loop of `handle_rule` from `str [i]` on. -/
@[grind =] def cutLoop : Nat → Bytes → List Argument
  | _, [] => []
  | i, c :: rest => if c = 32 then .text (i + 1) :: cutLoop (i + 1) rest else cutLoop (i + 1) rest

/-- The arguments that `handle_rule` makes of the line; there is room for `argc + 2`. -/
def arguments (str : Bytes) : List Argument :=
  let str := str.takeWhile (· ≠ 0)
  [.programName, .text 0] ++ cutLoop 1 str.tail ++ [.null]

/-- The calls of `handle_rule`, up to the first that ends the program. -/
@[grind =] def callsMade (tables : RuleTables) : List (Bytes × Nat) → List (Bytes × Nat)
  | [] => []
  | (line, wc) :: rest =>
    (line, wc) ::
      match handleRule tables line wc with
      | some tables => callsMade tables rest
      | none => []

def HasRoom (call : Bytes × Nat) : Prop := (arguments call.1).length ≤ call.2 + 2

inductive Ending
  | newline
  | comment
  | eof
  deriving DecidableEq

/-- The text of a rule, from its first word to a comment or the end of the line. -/
structure RuleText where
  text : Bytes
  ending : Ending
  deriving DecidableEq

def lineRule (ending : Ending) (line : Bytes) : Option RuleText :=
  let text := (line.dropWhile isSpace).takeWhile (· ≠ 35)
  if text = [] then none else some ⟨text, if 35 ∈ line then .comment else ending⟩

@[grind =] def linesRules : List Bytes → List RuleText
  | [] => []
  | [line] => (lineRule .eof line).toList
  | line :: next :: rest => (lineRule .newline line).toList ++ linesRules (next :: rest)

def ruleTexts (input : Bytes) : List RuleText := linesRules (input.splitOn 10)

@[grind =] def squeeze : Bytes → Bytes
  | [] => []
  | c :: rest =>
    if isSpace c then
      if (rest.head?.map isSpace).getD false then squeeze rest else 32 :: squeeze rest
    else
      c :: squeeze rest

namespace RuleText

variable (rule : RuleText)

def Spaced : Prop := (rule.text.getLast?.map isSpace).getD false = true

instance : Decidable rule.Spaced := inferInstanceAs (Decidable (_ = true))

/-- A blank behind a character 0, where `strlen` does not see it. -/
def Hides : Prop := ∃ c ∈ rule.text.dropWhile (· ≠ 0), isSpace c = true

instance : Decidable rule.Hides := inferInstanceAs (Decidable (∃ c ∈ _, _))

def call : Bytes × Nat :=
  let line := squeeze rule.text
  match rule.ending with
  | .eof => (if rule.Spaced then line ++ [0xFF] else line, line.count 32)
  | .comment => (if rule.Spaced then line.dropLast else line, line.count 32)
  | .newline =>
    if rule.Spaced then (line.dropLast, line.count 32) else (line, line.count 32 + 1)

/-- The last word is counted, or a blank in front of it is not seen. -/
def Counted : Prop :=
  rule.ending = .newline ∨ rule.ending = .comment ∧ rule.Spaced ∨ rule.Hides

end RuleText

variable {c : UInt8}

theorem squeeze_blanks (blank : isSpace c = true) (rest : Bytes) :
    squeeze (c :: rest) = 32 :: squeeze (rest.dropWhile isSpace) := by
  induction rest generalizing c with
  | nil => simp [squeeze, blank]
  | cons d more ih =>
    rw [squeeze, if_pos blank, head?_cons, map_some, getD_some, dropWhile_cons]
    split
    next also => exact ih also
    next => rfl

theorem squeeze_plain (plain : isSpace c = false) (rest : Bytes) :
    squeeze (c :: rest) = c :: squeeze rest := by
  rw [squeeze, plain]
  rfl

theorem squeeze_eq_nil {text : Bytes} : squeeze text = [] ↔ text = [] := by
  cases text with
  | nil => simp [squeeze]
  | cons c rest =>
    cases blank : isSpace c with
    | false => simp [squeeze_plain blank]
    | true => simp [squeeze_blanks blank]

theorem ne_blank (plain : isSpace c = false) : c ≠ 32 ∧ c ≠ 10 := by
  constructor
  · rintro rfl
    exact absurd plain (by decide)
  · rintro rfl
    exact absurd plain (by decide)

theorem spaced_iff (text : Bytes) :
    (text.getLast?.map isSpace).getD false = true ↔ (squeeze text).getLast? = some 32 := by
  induction text with
  | nil => simp [squeeze]
  | cons c rest ih =>
    by_cases none : rest = []
    · subst none
      cases blank : isSpace c with
      | false => simp [squeeze, blank, (ne_blank blank).1]
      | true => simp [squeeze, blank]
    · have more : squeeze rest ≠ [] := mt squeeze_eq_nil.mp none
      have ends := getLast?_eq_some_getLast none
      have finishes := getLast?_eq_some_getLast more
      rw [getLast?_cons, ends, getD_some, ← ends, ih, squeeze]
      split
      · split
        · rfl
        · rw [getLast?_cons, finishes, getD_some]
      · rw [getLast?_cons, finishes, getD_some]

def callOf (ending : Ending) (line : Bytes) : Bytes × Nat :=
  let spaced := line.getLast? = some 32
  match ending with
  | .eof => (if spaced then line ++ [0xFF] else line, line.count 32)
  | .comment => (if spaced then line.dropLast else line, line.count 32)
  | .newline => if spaced then (line.dropLast, line.count 32) else (line, line.count 32 + 1)

theorem RuleText.call_eq (rule : RuleText) : rule.call = callOf rule.ending (squeeze rule.text) := by
  have spaced : rule.Spaced ↔ (squeeze rule.text).getLast? = some 32 := spaced_iff rule.text
  rw [RuleText.call]
  cases rule.ending with
  | newline => simp only [callOf, spaced]
  | comment => simp only [callOf, spaced]
  | eof => simp only [callOf, spaced]

theorem callOf_cons {ending : Ending} {c : UInt8} {line : Bytes} (inner : line ≠ [] ∨ c ≠ 32) :
    callOf ending (c :: line) =
      (c :: (callOf ending line).1, (callOf ending line).2 + if c = 32 then 1 else 0) := by
  have last : (c :: line).getLast? = some 32 ↔ line.getLast? = some 32 := by
    cases line with
    | nil => simpa using inner
    | cons d rest => simp [getLast?_cons]
  have front : line.getLast? = some 32 → (c :: line).dropLast = c :: line.dropLast := by
    intro ends
    apply dropLast_cons_of_ne_nil
    rintro rfl
    exact absurd ends (by simp)
  have count : (c :: line).count 32 = line.count 32 + if c = 32 then 1 else 0 := by
    rw [count_cons]
    simp
  cases ending with
  | eof =>
    simp only [callOf, last, count]
    split
    · rw [cons_append]
    · rfl
  | comment =>
    simp only [callOf, last, count]
    split
    next ends => rw [front ends]
    next => rfl
  | newline =>
    simp only [callOf, last, count]
    split
    next ends => rw [front ends]
    next => rw [Nat.add_right_comm]

theorem callOf_nil (ending : Ending) :
    callOf ending [] = ([], if ending = .newline then 1 else 0) := by
  cases ending with
  | eof => rfl
  | comment => rfl
  | newline => rfl

theorem callOf_blank (ending : Ending) :
    callOf ending [32] = (if ending = .eof then [32, 0xFF] else [], 1) := by
  cases ending with
  | eof => rfl
  | comment => rfl
  | newline => rfl

/-- What stands behind a text. -/
inductive Stops : Ending → Bytes → Prop
  | newline (rest : Bytes) : Stops .newline (10 :: rest)
  | comment (rest : Bytes) : Stops .comment (35 :: rest)
  | eof : Stops .eof []

def rulesBehind : Ending → Bytes → Option (List (Bytes × Nat))
  | .newline, stop => ruleLines .outside stop.tail
  | .comment, stop => ruleLines .comment stop.tail
  | .eof, _ => some []

/-- A rule in front of others, if it fits into the buffer. -/
def ruleThen (line : Bytes) (wc : Nat) (later : Option (List (Bytes × Nat))) :
    Option (List (Bytes × Nat)) :=
  if line.length < lineSize - 1 then later.map ((line, wc) :: ·) else none

theorem extendLine_eq {line : Bytes} (room : line.length < lineSize - 1) (c : UInt8) :
    extendLine line c =
      if (line ++ [c]).length < lineSize - 1 then some (line ++ [c]) else none := by
  rw [extendLine, length_append, length_singleton]
  split
  next full => rw [if_neg (by omega)]
  next other => rw [if_pos (by omega)]

theorem ruleThen_long {line : Bytes} {wc : Nat} {later : Option (List (Bytes × Nat))}
    (long : lineSize - 1 ≤ line.length) : ruleThen line wc later = none :=
  if_neg (Nat.not_lt.mpr long)

theorem ruleLines_text {ending : Ending} {stop : Bytes} (stops : Stops ending stop) :
    ∀ (text : Bytes), 10 ∉ text → 35 ∉ text → ∀ (line : Bytes) (wc : Nat),
      line.length < lineSize - 1 →
      ruleLines (.rule line wc) (text ++ stop) = ruleThen (line ++ (callOf ending (squeeze text)).1)
          (wc + (callOf ending (squeeze text)).2) (rulesBehind ending stop) ∧
      ruleLines (.gap line wc) (text ++ stop) =
        ruleThen (line ++ (callOf ending (squeeze (32 :: text))).1)
          (wc + (callOf ending (squeeze (32 :: text))).2) (rulesBehind ending stop) := by
  intro text
  induction text with
  | nil =>
    intro _ _ line wc room
    have one : squeeze [32] = [32] := rfl
    rw [one, squeeze, callOf_nil, callOf_blank, append_nil]
    cases stops with
    | newline rest =>
      constructor
      · exact (if_pos room).symm
      · rw [if_neg (by simp), append_nil]
        exact (if_pos room).symm
    | comment rest =>
      constructor
      · exact (if_pos room).symm
      · rw [if_neg (by simp), append_nil]
        exact (if_pos room).symm
    | eof =>
      constructor
      · exact (if_pos room).symm
      · rw [if_pos rfl, nil_append, ruleLines, extendLine_eq room]
        by_cases full : (line ++ [32]).length < lineSize - 1
        · rw [if_pos full]
          change Option.bind (extendLine (line ++ [32]) 0xFF) _ = _
          rw [extendLine_eq full, append_assoc]
          split
          next fits => exact (if_pos fits).symm
          next long => exact (if_neg long).symm
        · rw [if_neg full, ruleThen_long (by simp at full ⊢; omega)]
          rfl
  | cons c rest ih =>
    intro noNewline noComment line wc room
    rw [mem_cons, not_or] at noNewline noComment
    have behind := ih noNewline.2 noComment.2
    cases blank : isSpace c with
    | true =>
      have same : squeeze (c :: rest) = squeeze (32 :: rest) := by
        rw [squeeze_blanks blank, squeeze_blanks (by decide)]
      have again : squeeze (32 :: c :: rest) = squeeze (32 :: rest) := by
        rw [squeeze_blanks (by decide), squeeze_blanks (by decide), dropWhile_cons,
          if_pos blank]
      rw [same, again, cons_append]
      constructor
      · rw [ruleLines, if_neg (Ne.symm noNewline.1), if_pos blank]
        exact (behind line wc room).2
      · rw [ruleLines, if_neg (Ne.symm noNewline.1), if_pos blank]
        exact (behind line wc room).2
    | false =>
      have gap : squeeze (32 :: c :: rest) = 32 :: c :: squeeze rest := by
        rw [squeeze_blanks (by decide), dropWhile_cons, blank]
        exact congrArg _ (squeeze_plain blank rest)
      have plain : ¬isSpace c = true := by simp [blank]
      have other := (ne_blank blank).1
      have step : ∀ (line : Bytes) (wc : Nat), line.length < lineSize - 1 →
          ((extendLine line c).bind fun line => ruleLines (.rule line wc) (rest ++ stop)) =
            ruleThen (line ++ c :: (callOf ending (squeeze rest)).1)
              (wc + (callOf ending (squeeze rest)).2) (rulesBehind ending stop) := by
        intro line wc room
        rw [extendLine_eq room]
        split
        next fits => rw [bind_some, (behind _ wc fits).1, append_assoc, singleton_append]
        next long =>
          rw [ruleThen_long (by simp at long ⊢; omega)]
          rfl
      have plainCall := @callOf_cons ending _ (squeeze rest) (Or.inr other)
      have gapCall := @callOf_cons ending 32 (c :: squeeze rest) (Or.inl (by simp))
      rw [if_neg other, Nat.add_zero] at plainCall
      rw [plainCall, if_pos rfl] at gapCall
      dsimp only at gapCall
      rw [gap, squeeze_plain blank, plainCall, gapCall, cons_append]
      constructor
      · rw [ruleLines, if_neg (Ne.symm noNewline.1), if_neg plain, if_neg (Ne.symm noComment.1)]
        exact step line wc room
      · rw [ruleLines, if_neg (Ne.symm noNewline.1), if_neg plain, if_neg (Ne.symm noComment.1),
          bind_assoc, extendLine_eq room]
        split
        next fits =>
          rw [bind_some, step _ _ fits, append_assoc]
          rw [singleton_append, Nat.add_assoc, Nat.add_comm 1]
        next long =>
          rw [ruleThen_long (by simp at long ⊢; omega)]
          rfl

section Lines

variable {ending : Ending} {tail : Bytes}

theorem ruleLines_remark (stops : Stops ending tail) (whole : ending ≠ .comment)
    {comment : Bytes} (noNewline : 10 ∉ comment) :
    ruleLines .comment (comment ++ tail) = rulesBehind ending tail := by
  induction comment with
  | nil =>
    cases stops with
    | newline rest => rfl
    | comment rest => exact absurd rfl whole
    | eof => rfl
  | cons c rest ih =>
    rw [mem_cons, not_or] at noNewline
    rw [cons_append, ruleLines, if_neg (Ne.symm noNewline.1)]
    exact ih noNewline.2

theorem rule_of_line (stops : Stops ending tail) (whole : ending ≠ .comment) {c : UInt8}
    {rest : Bytes} (plain : isSpace c = false) (mark : c ≠ 35) (noNewline : 10 ∉ c :: rest) :
    ∃ text kind stop, Stops kind stop ∧
      lineRule ending (c :: rest) = some ⟨c :: text, kind⟩ ∧ rest ++ tail = text ++ stop ∧
      10 ∉ text ∧ 35 ∉ text ∧ rulesBehind kind stop = rulesBehind ending tail := by
  have start : (c :: rest).dropWhile isSpace = c :: rest := by
    rw [dropWhile_cons, plain]
    rfl
  rw [lineRule, start]
  by_cases inside : 35 ∈ rest
  · obtain ⟨front, comment, rfl, noMark⟩ := eq_append_cons_of_mem inside
    have clean : 35 ∉ c :: front := by simp [Ne.symm mark, noMark]
    have text : (c :: (front ++ 35 :: comment)).takeWhile (· ≠ 35) = c :: front := by
      rw [← cons_append, takeWhile_append_of_pos (fun d member => by
        have other : d ≠ 35 := fun same => clean (same ▸ member)
        simpa using other)]
      simp
    rw [mem_cons, mem_append, mem_cons] at noNewline
    refine ⟨front, .comment, 35 :: (comment ++ tail), .comment _, ?_, by simp, by tauto, noMark, ?_⟩
    · rw [text, if_neg (by simp), if_pos (by simp)]
    · exact ruleLines_remark stops whole (by tauto)
  · have clean : 35 ∉ c :: rest := by simp [Ne.symm mark, inside]
    have text : (c :: rest).takeWhile (· ≠ 35) = c :: rest := by
      rw [takeWhile_eq_self_iff]
      intro d member
      have other : d ≠ 35 := fun same => clean (same ▸ member)
      simpa using other
    refine ⟨rest, ending, tail, stops, ?_, rfl, fun member => noNewline (by simp [member]), inside,
      rfl⟩
    rw [text, if_neg (by simp), if_neg clean]

theorem ruleLines_outside (stops : Stops ending tail) (whole : ending ≠ .comment) :
    ∀ (line : Bytes), 10 ∉ line → ruleLines .outside (line ++ tail) =
        match lineRule ending line with
        | none => rulesBehind ending tail
        | some rule => ruleThen rule.call.1 rule.call.2 (rulesBehind ending tail) := by
  intro line
  induction line with
  | nil =>
    intro _
    cases stops with
    | newline rest =>
      rw [nil_append, ruleLines, if_pos (by decide)]
      rfl
    | comment rest => exact absurd rfl whole
    | eof => rfl
  | cons c rest ih =>
    intro noNewline
    have other : 10 ∉ rest := fun member => noNewline (mem_cons_of_mem c member)
    cases blank : isSpace c with
    | true =>
      have noMark : 35 ≠ c := by
        rintro rfl
        exact absurd blank (by decide)
      have same : lineRule ending (c :: rest) = lineRule ending rest := by
        rw [lineRule, lineRule, dropWhile_cons, if_pos blank]
        simp [noMark]
      rw [cons_append, ruleLines, if_pos blank, same]
      exact ih other
    | false =>
      rw [cons_append, ruleLines, if_neg (by simp [blank])]
      by_cases mark : c = 35
      · have none : lineRule ending (c :: rest) = none := by
          rw [lineRule, dropWhile_cons, blank, mark]
          rfl
        rw [if_pos mark, none]
        exact ruleLines_remark stops whole other
      · obtain ⟨text, kind, stop, ends, rule, parts, clean, quiet, behind⟩ :=
          rule_of_line stops whole blank mark noNewline
        have loop := (ruleLines_text ends text clean quiet [c] 0 (Nat.le_of_ble_eq_true rfl)).1
        rw [if_neg mark, rule, parts, loop, behind]
        dsimp only
        rw [RuleText.call_eq, squeeze_plain blank, callOf_cons (Or.inr (ne_blank blank).1),
          if_neg (ne_blank blank).1, singleton_append, Nat.zero_add, Nat.add_zero]

theorem ruleLines_lines : ∀ (lines : List Bytes), lines ≠ [] → (∀ line ∈ lines, 10 ∉ line) →
    ruleLines .outside ([10].intercalate lines) =
      (linesRules lines).foldr (fun rule => ruleThen rule.call.1 rule.call.2) (some []) := by
  intro lines
  induction lines with
  | nil =>
    intro some
    exact absurd rfl some
  | cons line rest ih =>
    intro _ clean
    have here := clean line mem_cons_self
    cases rest with
    | nil =>
      have text : [10].intercalate [line] = line ++ [] := by simp [List.intercalate]
      rw [text, ruleLines_outside .eof (by simp) line here, linesRules]
      cases lineRule .eof line with
      | none => rfl
      | some rule => rfl
    | cons next more =>
      have text : [10].intercalate (line :: next :: more) =
          line ++ (10 :: [10].intercalate (next :: more)) := by simp [List.intercalate]
      have others := ih (by simp) fun line member => clean line (mem_cons_of_mem _ member)
      have one := ruleLines_outside (.newline ([10].intercalate (next :: more))) (by simp) line here
      have behind : rulesBehind .newline (10 :: [10].intercalate (next :: more)) =
          ruleLines .outside ([10].intercalate (next :: more)) := rfl
      rw [text, one, behind, others, linesRules, foldr_append]
      cases lineRule .newline line with
      | none => rfl
      | some rule => rfl

variable {lines : List (Bytes × Nat)}

theorem foldr_ruleThen {rules : List RuleText}
    (read : rules.foldr (fun rule => ruleThen rule.call.1 rule.call.2) (some []) = some lines) :
    lines = rules.map RuleText.call := by
  induction rules generalizing lines with
  | nil => exact (Option.some.inj read).symm
  | cons rule rest ih =>
    rw [foldr_cons, ruleThen] at read
    split at read
    · obtain ⟨later, found, rfl⟩ := map_eq_some_iff.mp read
      rw [ih found]
      rfl
    · exact absurd read (by simp)

theorem ruleLines_calls {input : Bytes} (read : ruleLines .outside input = some lines) :
    lines = (ruleTexts input).map RuleText.call := by
  apply foldr_ruleThen
  have text : [10].intercalate (input.splitOn 10) = input := intercalate_splitOn 10
  rw [← text, ruleLines_lines _ (splitOn_ne_nil 10 input) (splitOn_clean 10 input)] at read
  exact read

theorem ruleTexts_word {input : Bytes} {rule : RuleText} (member : rule ∈ ruleTexts input) :
    ∃ c rest, rule.text = c :: rest ∧ isSpace c = false := by
  have line : ∀ ending line, rule ∈ (lineRule ending line).toList →
      ∃ c rest, rule.text = c :: rest ∧ isSpace c = false := by
    intro ending line found
    rw [mem_toList, lineRule] at found
    split at found
    · exact absurd found (by simp)
    next some =>
      rw [← Option.some.inj found]
      dsimp only
      cases text : line.dropWhile isSpace with
      | nil => simp [text] at some
      | cons c rest =>
        have plain : isSpace c = false := by
          have head := head_dropWhile_not isSpace (l := line) (by rw [text]; simp)
          simpa [text] using head
        rw [text, takeWhile_cons] at some
        rw [takeWhile_cons]
        split
        · exact ⟨c, _, rfl, plain⟩
        next mark => exact absurd (if_neg mark) some
  have lines : ∀ lines, rule ∈ linesRules lines →
      ∃ c rest, rule.text = c :: rest ∧ isSpace c = false := by
    intro lines
    induction lines with
    | nil => simp [linesRules]
    | cons first rest ih =>
      cases rest with
      | nil => exact line .eof first
      | cons next more =>
        rw [linesRules, mem_append]
        rintro (here | later)
        · exact line .newline first here
        · exact ih later
  exact lines _ member

end Lines

theorem cutLoop_length (place : Nat) (line : Bytes) :
    (cutLoop place line).length = line.count 32 := by
  induction line generalizing place with
  | nil => rfl
  | cons c rest ih =>
    rw [cutLoop, count_cons]
    split
    next blank => simp [ih, blank]
    next other => simp [ih, other]

theorem arguments_length (plain : c ≠ 32) (rest : Bytes) :
    (arguments (c :: rest)).length = 3 + ((c :: rest).takeWhile (· ≠ 0)).count 32 := by
  rw [arguments]
  simp only [length_append, length_cons, length_nil, cutLoop_length]
  rw [takeWhile_cons]
  split
  · rw [tail_cons, count_cons]
    simp [plain]
    omega
  · rfl

theorem squeeze_blank (text : Bytes) : 32 ∈ squeeze text ↔ ∃ c ∈ text, isSpace c = true := by
  induction text with
  | nil => simp [squeeze]
  | cons c rest ih =>
    cases blank : isSpace c with
    | false =>
      rw [squeeze_plain blank, mem_cons, ih]
      simp [blank, Ne.symm (ne_blank blank).1]
    | true =>
      rw [squeeze_blanks blank]
      simp [blank]

theorem squeeze_hidden (text : Bytes) :
    (squeeze text).dropWhile (· ≠ 0) = squeeze (text.dropWhile (· ≠ 0)) := by
  induction text with
  | nil => rfl
  | cons c rest ih =>
    cases blank : isSpace c with
    | false =>
      rw [squeeze_plain blank, dropWhile_cons, dropWhile_cons]
      split
      · exact ih
      · rw [squeeze_plain blank]
    | true =>
      have nonzero : c ≠ 0 := by
        rintro rfl
        exact absurd blank (by decide)
      rw [dropWhile_cons, if_pos (by simpa using nonzero), ← ih, squeeze, if_pos blank]
      split
      · rfl
      · rw [dropWhile_cons, if_pos (by decide)]

theorem count_hidden (rule : RuleText) :
    ((squeeze rule.text).takeWhile (· ≠ 0)).count 32 < (squeeze rule.text).count 32 ↔ rule.Hides := by
  have parts := congrArg (List.count 32)
    (takeWhile_append_dropWhile (p := (· ≠ (0 : UInt8))) (l := squeeze rule.text))
  rw [count_append] at parts
  rw [RuleText.Hides, ← squeeze_blank, ← squeeze_hidden, ← count_pos_iff]
  omega

theorem seen_le (line : Bytes) : (line.takeWhile (· ≠ 0)).count 32 ≤ line.count 32 :=
  List.Sublist.count_le 32 (takeWhile_sublist _)

theorem seen_eof (line : Bytes) :
    ((line ++ [0xFF]).takeWhile (· ≠ 0)).count 32 = (line.takeWhile (· ≠ 0)).count 32 := by
  induction line with
  | nil => decide
  | cons c rest ih =>
    rw [cons_append, takeWhile_cons, takeWhile_cons]
    split
    · rw [count_cons, count_cons, ih]
    · rfl

/-- The pointers of a rule have room exactly if its last word is counted or a blank is hidden. -/
theorem call_hasRoom {rule : RuleText} {rest : Bytes} (shape : rule.text = c :: rest)
    (plain : isSpace c = false) : HasRoom rule.call ↔ rule.Counted := by
  have other := (ne_blank plain).1
  have head : rule.call.1 = c :: (callOf rule.ending (squeeze rest)).1 := by
    rw [rule.call_eq, shape, squeeze_plain plain, callOf_cons (Or.inr other)]
  have pointers : (arguments rule.call.1).length = 3 + (rule.call.1.takeWhile (· ≠ 0)).count 32 := by
    rw [head]
    exact arguments_length other _
  have spaced : rule.Spaced ↔ (squeeze rule.text).getLast? = some 32 := spaced_iff rule.text
  have cut : rule.Spaced →
      ((squeeze rule.text).dropLast).count 32 + 1 = (squeeze rule.text).count 32 := by
    intro ends
    have last := dropLast_append_getLast? 32 (spaced.mp ends)
    have count := congrArg (List.count 32) last
    rw [count_append] at count
    simpa using count
  have hidden := count_hidden rule
  have seen := seen_le (squeeze rule.text)
  have seenCut := seen_le (squeeze rule.text).dropLast
  rw [HasRoom, pointers, RuleText.Counted]
  unfold RuleText.call
  cases rule.ending with
  | newline =>
    refine iff_of_true ?_ (Or.inl rfl)
    dsimp only
    split
    next ends =>
      have count := cut ends
      dsimp only
      omega
    next =>
      dsimp only
      omega
  | comment =>
    dsimp only
    split
    next ends =>
      have count := cut ends
      exact iff_of_true (by omega) (Or.inr (Or.inl ⟨rfl, ends⟩))
    next ends =>
      simp only [reduceCtorEq, false_or, ends, and_false]
      rw [← hidden]
      omega
  | eof =>
    dsimp only
    simp only [reduceCtorEq, false_or, false_and]
    rw [← hidden]
    split
    · rw [seen_eof]
      omega
    · omega

theorem callsMade_prefix (tables : RuleTables) (lines : List (Bytes × Nat)) :
    callsMade tables lines = lines.take (callsMade tables lines).length := by
  induction lines generalizing tables with
  | nil => rfl
  | cons line rest ih =>
    rw [callsMade]
    split
    next later _ => rw [length_cons, take_succ_cons, ← ih later]
    next => rfl

/-- Every call that is made has room for its pointers exactly if each rule that is handled ends
in a newline or in blanks before a comment, or hides a blank. -/
theorem handle_rule_hasRoom {input : Bytes} {lines : List (Bytes × Nat)}
    (short : ruleLines .outside input = some lines) (tables : RuleTables) :
    (∀ call ∈ callsMade tables lines, HasRoom call) ↔
      ∀ rule ∈ (ruleTexts input).take (callsMade tables lines).length, rule.Counted := by
  have made := callsMade_prefix tables lines
  generalize (callsMade tables lines).length = calls at made ⊢
  rw [made, ruleLines_calls short, ← map_take, List.forall_mem_map]
  constructor
  · intro room rule member
    obtain ⟨c, rest, shape, plain⟩ := ruleTexts_word (mem_of_mem_take member)
    exact (call_hasRoom shape plain).mp (room rule member)
  · intro counted rule member
    obtain ⟨c, rest, shape, plain⟩ := ruleTexts_word (mem_of_mem_take member)
    exact (call_hasRoom shape plain).mpr (counted rule member)

instance (rule : RuleText) : Decidable rule.Counted :=
  inferInstanceAs (Decidable (_ ∨ _ ∧ _ ∨ _))

def ruleText : Bytes := letters "CAP3 Any IPv4TOS Is 16 Add Perm"

theorem handle_rule_hasRoom_newline : callsMade .empty [(ruleText, 7)] ≠ [] ∧
    ∀ call ∈ callsMade .empty [(ruleText, 7)], HasRoom call :=
  ⟨by decide, (@handle_rule_hasRoom (ruleText ++ [10]) _ (by decide) .empty).mpr
    (by decide +kernel)⟩

/-- Without the newline the last word is not counted. -/
theorem handle_rule_overflows : ¬∀ (input : Bytes) (lines : List (Bytes × Nat)),
    ruleLines .outside input = some lines → ∀ call ∈ callsMade .empty lines, HasRoom call := by
  intro always
  have room := always ruleText [(ruleText, 6)] (by decide) (ruleText, 6)
    mem_cons_self
  exact absurd room (by unfold HasRoom; decide)

end AthApps.Plc
