import AthApps.Config.Lines

/-!
# What a configuration text means

The meaning of a text is a map from section and tag to the value of the last
line of the section that assigns one.  This is said here without the bounds: a
text is a list of lines, each line is of some kind, and the lines that open and
close sections tell where the others are.  A line that is set changes the map
at its tag, and outside of the named sections it removes the tags that are in
conflict with it.
-/

set_option autoImplicit false

namespace AthApps.Config

open AthApps.Lib List

inductive Kind
  | marker
  | comment
  | blank
  | untagged
  | close
  | bare
  | opens (name : Bytes)
  | assigns (tag value : Bytes)
  deriving DecidableEq

def kindOf (line : Bytes) : Kind :=
  let text := skipWhite line
  if text = markerLine then .marker
  else if text.headD 0 = hash then .comment
  else if text.headD 0 = newline then .blank
  else if text.headD 0 = equalSign then .untagged
  else if text.headD 0 = closeBrace then .close
  else
    match tagValue text with
    | none => .bare
    | some value =>
      if value.headD 0 = openBrace then .opens (tagOf text)
      else .assigns (tagOf text) (value.takeWhile fun c => c ≠ newline)

@[grind =] def linesOf : Bytes → List Bytes
  | [] => []
  | c :: rest =>
    if c = newline then [c] :: linesOf rest
    else
      match linesOf rest with
      | [] => [[c]]
      | line :: lines => (c :: line) :: lines

@[grind =] def located : Option Bytes → List Bytes → List (Option Bytes × Bytes)
  | _, [] => []
  | current, line :: rest =>
    match kindOf line with
    | .close => located none rest
    | .opens name => located (some (current.getD name)) rest
    | _ => (current, line) :: located current rest

def Flat : Option Bytes → List Bytes → Prop
  | _, [] => True
  | current, line :: rest =>
    match kindOf line with
    | .close => Flat none rest
    | .opens name => current = none ∧ Flat (some name) rest
    | _ => Flat current rest

def linesIn (part : Option Bytes) (text : Bytes) : List Bytes :=
  (located none (linesOf text)).filterMap fun found => if found.1 = part then some found.2 else none

def valueIn (tag line : Bytes) : Option Bytes :=
  match kindOf line with
  | .assigns other value => if other = tag then some value else none
  | _ => none

def Meaning : Type := Option Bytes → Bytes → Option Bytes

def lastValue (tag : Bytes) (lines : List Bytes) : Option Bytes :=
  (lines.filterMap (valueIn tag)).getLast?

def meaning (text : Bytes) : Meaning := fun part tag => lastValue tag (linesIn part text)

/-- Every tag is in a section at most once, but for comments. -/
def Once (text : Bytes) : Prop :=
  ∀ part tag, tag ≠ [] → (linesIn part text).countP (fun line => tagOf line = tag) ≤ 1

def commentsOf (lines : List Bytes) : List Bytes :=
  (lines.filter fun line => kindOf line = .comment).map skipWhite

def wpaTag : Bytes := [119, 112, 97]

/-- The value is `1`, `2` or `3`, whatever follows it. -/
def enablesWpa (value : Bytes) : Bool :=
  [[49], [50], [51]].contains (value.takeWhile fun c => isGraph c && c ≠ hash)

/-- The tags that may not stand beside an assignment. -/
def excluded (tag value : Bytes) : List Bytes :=
  if tag = wpaPassphrase then [wpaPsk]
  else if tag = wpaPsk then [wpaPassphrase]
  else if tag = wpaTag ∧ enablesWpa value then wepTags
  else []

def update (m : Meaning) (part : Option Bytes) (tag value : Bytes) : Meaning :=
  fun part' tag' =>
    if part' = part ∧ tag' = tag then some value
    else if part' = none ∧ part = none ∧ tag' ∈ excluded tag value then none
    else m part' tag'

/-- What the lines of a file amount to if each is set after the other. -/
@[grind =] def resolved : Meaning → List (Option Bytes × Bytes) → Meaning
  | m, [] => m
  | m, (part, line) :: rest =>
    match kindOf line with
    | .assigns tag value => resolved (update m part tag value) rest
    | _ => resolved m rest

/-- Where `wpa` is set to something else than `1`, `2` or `3`, there is no WEP key. -/
def Harmless (m : Meaning) (part : Option Bytes) (tag value : Bytes) : Prop :=
  part = none → tag = wpaTag → enablesWpa value = true ∨ ∀ wep ∈ wepTags, m none wep = none

def HarmlessAll : Meaning → List (Option Bytes × Bytes) → Prop
  | _, [] => True
  | m, (part, line) :: rest =>
    match kindOf line with
    | .assigns tag value => Harmless m part tag value ∧ HarmlessAll (update m part tag value) rest
    | _ => HarmlessAll m rest

theorem linesOf_append {line : Bytes} (isLine : IsLine line) (rest : Bytes) :
    linesOf (line ++ rest) = line :: linesOf rest := by
  obtain ⟨front, rfl, none⟩ := isLine
  induction front with
  | nil => simp [linesOf]
  | cons c front ih =>
    simp only [mem_cons, not_or] at none
    rw [cons_append, cons_append, linesOf, if_neg (Ne.symm none.1), ih none.2]

theorem linesOf_flatten {lines : List Bytes} (isLine : ∀ line ∈ lines, IsLine line) :
    linesOf lines.flatten = lines := by
  induction lines with
  | nil => rfl
  | cons line lines ih =>
    rw [flatten_cons, linesOf_append (isLine line (by simp)),
      ih fun other member => isLine other (by simp [member])]

theorem flatten_linesOf (text : Bytes) : (linesOf text).flatten = text := by
  induction text with
  | nil => rfl
  | cons c rest ih =>
    rw [linesOf]
    split
    · rw [flatten_cons, ih]
      rfl
    · split
      next none =>
        rw [none] at ih
        rw [← ih]
        rfl
      next line lines known =>
        rw [known] at ih
        rw [← ih]
        rfl

theorem linesOf_isLine {text : Bytes} (ended : text = [] ∨ Ended text) :
    ∀ line ∈ linesOf text, IsLine line := by
  induction text with
  | nil => simp [linesOf]
  | cons c rest ih =>
    have ended := ended.resolve_left (by simp)
    rw [linesOf]
    split
    next same =>
      intro line member
      rcases mem_cons.mp member with rfl | member
      · exact ⟨[], by simp [same], by simp⟩
      · refine ih ?_ line member
        obtain ⟨front, split⟩ := ended
        cases front with
        | nil =>
          simp only [nil_append, List.cons.injEq] at split
          exact Or.inl split.2
        | cons d front =>
          simp only [cons_append, List.cons.injEq] at split
          exact Or.inr ⟨front, split.2⟩
    next other =>
      have later := ended.of_cons other
      have all := ih (Or.inr later)
      have inhabited := flatten_linesOf rest
      split
      next none =>
        rw [none] at inhabited
        exact absurd inhabited.symm later.ne_nil
      next line lines known =>
        rw [known] at all
        intro line' member
        rcases mem_cons.mp member with rfl | member
        · obtain ⟨front, rfl, none⟩ := all line (by simp)
          refine ⟨c :: front, rfl, ?_⟩
          simp only [mem_cons, not_or]
          exact ⟨Ne.symm other, none⟩
        · exact all line' (by simp [member])

end AthApps.Config
