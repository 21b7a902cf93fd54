import AthApps.Art.Parameter
import AthApps.Lib.Checked

/-!
# Lists of integers with ranges

`ParseIntegerList` of `ParameterParse.c` expands values such as `1`, `1:5` and
`1:9:2` into an array that has room for as many values as the parameter allows.
After too many values the count becomes -1 but the loop over the values goes
on, and the values after that are stored in front of the array.
-/

set_option autoImplicit false

namespace AthApps.Art

open AthApps.Lib List Option

/-! ## The source -/

/-- The descriptor of a parameter of integers, with its limits and special values. -/
structure IntegerParameter extends Parameter where
  minimum : Option Int32
  maximum : Option Int32
  special : List Parameter

structure IntegerRange where
  vmin : Int32
  vmax : Int32
  vinc : Int32
  deriving DecidableEq

def parameterValueMaximum (list : Parameter) : Option Int :=
  (checked (max 1 list.nx.toInt * max 1 list.ny.toInt)).bind fun product =>
    checked (product * max 1 list.nz.toInt)

/-- The format that is tried first and those of `TryOtherFormats`; `true` where the value is
negated. -/
def integerFormats : List (String × Bool) :=
  [(" %d %1c", false), (" 0x%x %1c", false), (" x%x %1c", false), (" h%x %1c", false),
    (" d%d %1c", false), (" t%d %1c", false), (" +%d %1c", false), (" -%d %1c", true),
    (" u%u %1c", false)]

def readInteger (text : Bytes) : Option Int32 :=
  integerFormats.findSome? fun format =>
    match sscanf text format.1 with
    | [value] => some (if format.2 then -value else value)
    | _ => none

def specialCode (list : IntegerParameter) (text : Bytes) : Option Int32 :=
  let index := parameterSelectIndex text list.special
  if 0 ≤ index then (list.special[index.toNat]?).map Parameter.code else none

def readLimit (list : IntegerParameter) (key text : Bytes) : Option Int32 :=
  match specialCode list key with
  | some code => some code
  | none =>
    (readInteger text).bind fun value =>
      if list.minimum.any (value < ·) then none
      else if list.maximum.any (value > ·) then none
      else some value

/-- `strchr(text, ':')`: what is in front of the colon and what is behind it. -/
def splitColon (text : Bytes) : Bytes × Option Bytes :=
  match text.dropWhile (· ≠ 58) with
  | [] => (text, none)
  | _ :: rest => (text.takeWhile (· ≠ 58), some rest)

/-- The special value of the maximum is looked up with `tmin`, the increment has no limits, and the
copy of the text has room for 1022 letters. -/
def readRange (list : IntegerParameter) (text : Bytes) : Option IntegerRange :=
  let tmin := (splitColon (text.take 1022)).1
  (readLimit list tmin tmin).bind fun vmin =>
    match (splitColon (text.take 1022)).2 with
    | none => some ⟨vmin, vmin, 1⟩
    | some rest =>
      let tmax := (splitColon rest).1
      (readLimit list tmin tmax).bind fun vmax =>
        match (splitColon rest).2 with
        | none => some ⟨vmin, vmax, 1⟩
        | some tinc => (readInteger tinc).map fun vinc => ⟨vmin, vmax, vinc⟩

/-- `nvalue`, and what was stored at which index of `value`. -/
structure Expansion where
  nvalue : Int
  stores : List (Int × Int)
  deriving DecidableEq

def Expansion.store (expansion : Expansion) (iv : Int) : Expansion :=
  { nvalue := expansion.nvalue + 1, stores := expansion.stores ++ [(expansion.nvalue, iv)] }

def Expansion.tooMany (expansion : Expansion) : Expansion := { expansion with nvalue := -1 }

def Inside (vmax vinc iv : Int) : Prop := (0 < vinc ∧ iv ≤ vmax) ∨ (vinc < 0 ∧ vmax ≤ iv)

instance (vmax vinc iv : Int) : Decidable (Inside vmax vinc iv) := inferInstanceAs (Decidable (_ ∨ _))

section Loops

variable (most : Int)

@[grind =] def rangeLoop (vmax vinc : Int) : Nat → Int → Expansion → Option Expansion
  | 0, _, expansion => some expansion
  | rounds + 1, iv, expansion =>
    if Inside vmax vinc iv then
      if most > 0 ∧ expansion.nvalue ≥ most then some expansion.tooMany
      else
        (checked (iv + vinc)).bind fun next =>
          rangeLoop vmax vinc rounds next (expansion.store iv)
    else some expansion

/-- The branches on the sign of the increment; a range that runs the other way is reported. -/
def expandRange (range : IntegerRange) (expansion : Expansion) : Option Expansion :=
  let vmin := range.vmin.toInt
  let vmax := range.vmax.toInt
  let vinc := range.vinc.toInt
  let rounds := (vmax - vmin).natAbs + 2
  if vinc > 0 then
    if vmax ≥ vmin then rangeLoop most vmax vinc rounds vmin expansion else some expansion
  else if vinc < 0 then
    if vmax ≤ vmin then rangeLoop most vmax vinc rounds vmin expansion else some expansion
  else some (expansion.store vmin)

/-- The loop over the values; one that is not read ends it without an error code. -/
@[grind =] def expandValues (list : IntegerParameter) : List Bytes → Expansion → Option Expansion
  | [], expansion => some expansion
  | text :: rest, expansion =>
    if most > 0 ∧ expansion.nvalue > most then some expansion.tooMany
    else
      match readRange list text with
      | none => some expansion
      | some range => (expandRange most range expansion).bind (expandValues list rest)

end Loops

def parseIntegerList (replacement : Option (Bytes → Bytes)) (list : IntegerParameter)
    (values : List Bytes) : Option Expansion :=
  (parameterValueMaximum list.toParameter).bind fun most =>
    expandValues most list (values.map (replacement.getD id)) ⟨0, []⟩

/-! ## What the values denote -/

/-- A number can have letters in front of it. -/
structure Form where
  front : Bytes
  signed : Bool
  radix : Nat
  negated : Bool

def forms : List Form :=
  [⟨[], true, 10, false⟩, ⟨[48, 120], false, 16, false⟩, ⟨[120], false, 16, false⟩,
    ⟨[104], false, 16, false⟩, ⟨[100], true, 10, false⟩, ⟨[116], true, 10, false⟩,
    ⟨[43], true, 10, false⟩, ⟨[45], true, 10, true⟩, ⟨[117], false, 10, false⟩]

/-- The number that is written in a form, with nothing but blanks behind it. -/
def Form.number (form : Form) (text : Bytes) : Option Int :=
  (form.front.isPrefixOf? (text.dropWhile isSpace)).bind fun rest =>
    (scanNumber form.radix rest).bind fun read =>
      if read.2.dropWhile isSpace = [] then some read.1 else none

def written (text : Bytes) : Option (Form × Int) :=
  forms.findSome? fun form => (form.number text).map fun n => (form, n)

def Form.value (form : Form) (n : Int) : Int := if form.negated then -n else n

/-- A number that is not an `int` has no value. -/
def denotedNumber (text : Bytes) : Option Int32 :=
  (written text).bind fun number =>
    if FitsInt (number.1.value number.2) then some (Int32.ofInt (number.1.value number.2)) else none

/-- What such a number becomes in an `int`. -/
def cutNumber (text : Bytes) : Option Int32 :=
  (written text).map fun number =>
    if number.1.negated then -cut number.1.signed number.2 else cut number.1.signed number.2

def limited (list : IntegerParameter) (number : Bytes → Option Int32)
    (key text : Bytes) : Option Int32 :=
  (specialCode list key).or ((number text).filter fun value =>
    list.minimum.all (· ≤ value) && list.maximum.all (value ≤ ·))

def ranged (limit : Bytes → Bytes → Option Int32) (number : Bytes → Option Int32)
    (text : Bytes) : Option IntegerRange :=
  match splitColon text with
  | (tmin, none) => (limit tmin tmin).map fun vmin => ⟨vmin, vmin, 1⟩
  | (tmin, some rest) =>
    match limit tmin tmin, limit tmin (splitColon rest).1, (splitColon rest).2 with
    | some vmin, some vmax, none => some ⟨vmin, vmax, 1⟩
    | some vmin, some vmax, some tinc => (number tinc).map fun vinc => ⟨vmin, vmax, vinc⟩
    | _, _, _ => none

/-- The maximum can be a special value as well as the minimum. -/
def denotedRange (list : IntegerParameter) (text : Bytes) : Option IntegerRange :=
  ranged (fun _ part => limited list denotedNumber part part) denotedNumber text

/-- The same with the first 1022 letters, with numbers that are cut, and with the maximum looked up
among the special values by the name of the minimum. -/
def heardRange (list : IntegerParameter) (text : Bytes) : Option IntegerRange :=
  ranged (limited list cutNumber) cutNumber (text.take 1022)

def steps (vmax vinc iv : Int) : Nat :=
  if Inside vmax vinc iv then (vmax - iv).natAbs / vinc.natAbs + 1 else 0

def progressionFrom (vmax vinc iv : Int) : List Int :=
  (List.range (steps vmax vinc iv)).map fun (k : Nat) => iv + (k : Int) * vinc

def IntegerRange.progression (range : IntegerRange) : List Int :=
  if range.vinc = 0 then [range.vmin.toInt]
  else progressionFrom range.vmax.toInt range.vinc.toInt range.vmin.toInt

def denoted (list : IntegerParameter) (texts : List Bytes) : List Int :=
  (texts.filterMap (denotedRange list)).flatMap IntegerRange.progression

def Expansion.value (expansion : Expansion) (index : Nat) : Option Int :=
  (expansion.stores.reverse.find? fun store => store.1 = (index : Int)).map Prod.snd

structure Expanded (most : Int) (values : List Int) (expansion : Expansion) : Prop where
  inBounds : ∀ store ∈ expansion.stores, 0 ≤ store.1 ∧ store.1 < most
  error : expansion.nvalue = -1 ↔ most < values.length
  whole : values.length ≤ most → expansion.nvalue = values.length ∧
    ∀ (k : Nat) (inside : k < values.length), expansion.value k = some values[k]

/-! ## What is read -/

def Form.directives (form : Form) : List Directive :=
  .blanks :: (form.front.map .literal ++ [.integer form.signed form.radix, .blanks, .char])

theorem scan_front (front text : Bytes) (signed : Bool) (radix : Nat) :
    scan (front.map .literal ++ [.integer signed radix, .blanks, .char]) text =
      match (front.isPrefixOf? text).bind (scanNumber radix) with
      | none => []
      | some (n, rest) => cut signed n :: scan [.blanks, .char] rest := by
  induction front generalizing text with
  | nil =>
    rw [map_nil, nil_append, scan, scanInteger, isPrefixOf?, bind_some]
    cases scanNumber radix text with
    | none => rfl
    | some read => rfl
  | cons c front ih =>
    cases text with
    | nil => rfl
    | cons d text =>
      rw [map_cons, cons_append, scan, isPrefixOf?]
      by_cases same : c = d
      · rw [if_pos same, if_pos (by simp [same]), ih]
      · rw [if_neg same, if_neg (by simpa using same)]
        rfl

theorem Form.scan_directives (form : Form) (text : Bytes) :
    (match scan form.directives text with
      | [value] => some (if form.negated then -value else value)
      | _ => none) =
      (form.number text).map fun n =>
        if form.negated then -cut form.signed n else cut form.signed n := by
  rw [Form.directives, scan, scan_front, Form.number]
  cases form.front.isPrefixOf? (text.dropWhile isSpace) with
  | none => rfl
  | some rest =>
    simp only [bind_some]
    cases scanNumber form.radix rest with
    | none => rfl
    | some read =>
      simp only [bind_some, scan]
      cases read.2.dropWhile isSpace with
      | nil => rfl
      | cons c behind => rfl

theorem readInteger_cut (text : Bytes) : readInteger text = cutNumber text := by
  have same : integerFormats.map (fun format => (AthApps.Lib.directives (letters format.1), format.2)) =
      forms.map fun form => (form.directives, form.negated) := by
    decide
  calc
    readInteger text =
        (integerFormats.map fun format =>
          (AthApps.Lib.directives (letters format.1), format.2)).findSome? fun format =>
            match scan format.1 text with
            | [value] => some (if format.2 then -value else value)
            | _ => none := by
      rw [findSome?_map]
      rfl
    _ = forms.findSome? fun form => (form.number text).map fun n =>
          if form.negated then -cut form.signed n else cut form.signed n := by
      rw [same, findSome?_map]
      exact congrArg (findSome? · forms) (funext fun form => form.scan_directives text)
    _ = cutNumber text := by
      rw [cutNumber, written, map_findSome?]
      congr 1
      funext form
      rw [Function.comp, Option.map_map]
      rfl

theorem readLimit_limited (list : IntegerParameter) (key text : Bytes) :
    readLimit list key text = limited list cutNumber key text := by
  rw [readLimit, limited, readInteger_cut]
  cases specialCode list key with
  | some code => rfl
  | none =>
    rw [none_or]
    cases cutNumber text with
    | none => rfl
    | some value =>
      have low : list.minimum.all (· ≤ value) = !list.minimum.any (value < ·) := by
        cases list.minimum <;> simp [← Int32.not_lt]
      have high : list.maximum.all (value ≤ ·) = !list.maximum.any (value > ·) := by
        cases list.maximum <;> simp [← Int32.not_lt]
      rw [bind_some, Option.filter, low, high]
      cases list.minimum.any (value < ·) with
      | true => rfl
      | false => cases list.maximum.any (value > ·) <;> rfl

theorem readRange_heard (list : IntegerParameter) (text : Bytes) :
    readRange list text = heardRange list text := by
  rw [readRange, heardRange, ranged]
  simp only [readLimit_limited, readInteger_cut]
  obtain ⟨tmin, behind⟩ := splitColon (text.take 1022)
  cases first : limited list cutNumber tmin tmin with
  | none => cases behind <;> simp [first]
  | some vmin =>
    cases behind with
    | none => simp [first]
    | some rest =>
      simp only [first, bind_some]
      cases limited list cutNumber tmin (splitColon rest).1 with
      | none => rfl
      | some vmax => cases (splitColon rest).2 <;> rfl

/-! ## A range -/

def numbered (start : Nat) (values : List Int) : List (Int × Int) :=
  (values.zipIdx start).map fun entry => ((entry.2 : Int), entry.1)

def full (done : List Int) : Expansion := { nvalue := done.length, stores := numbered 0 done }

def Stops (range : IntegerRange) : Prop :=
  range.progression ≠ [] → range.vinc ≠ 0 →
    FitsInt (range.vmin.toInt + range.progression.length * range.vinc.toInt)

section Range

variable {most vmax vinc iv : Int} {done : List Int}

theorem full_store (iv : Int) : (full done).store iv = full (done ++ [iv]) := by
  simp [full, Expansion.store, numbered, zipIdx_append]

theorem steps_inside (inside : Inside vmax vinc iv) :
    steps vmax vinc iv = steps vmax vinc (iv + vinc) + 1 := by
  have positive : 0 < vinc.natAbs := by
    unfold Inside at inside
    omega
  rw [steps, if_pos inside]
  congr 1
  by_cases next : Inside vmax vinc (iv + vinc)
  · have less : vinc.natAbs ≤ (vmax - iv).natAbs := by
      unfold Inside at next
      omega
    have rest : (vmax - (iv + vinc)).natAbs = (vmax - iv).natAbs - vinc.natAbs := by
      unfold Inside at next
      omega
    rw [steps, if_pos next, rest]
    exact Nat.div_eq_sub_div positive less
  · have less : (vmax - iv).natAbs < vinc.natAbs := by
      unfold Inside at inside next
      omega
    rw [steps, if_neg next]
    exact Nat.div_eq_of_lt less

theorem steps_outside (outside : ¬Inside vmax vinc iv) : steps vmax vinc iv = 0 := if_neg outside

theorem progressionFrom_inside (inside : Inside vmax vinc iv) :
    progressionFrom vmax vinc iv = iv :: progressionFrom vmax vinc (iv + vinc) := by
  rw [progressionFrom, steps_inside inside, range_succ_eq_map, map_cons, List.map_map,
    progressionFrom]
  congr 1
  · simp
  · apply map_congr_left
    intro k _
    simp only [Function.comp, Nat.succ_eq_add_one]
    push_cast
    rw [Int.add_mul]
    omega

theorem progressionFrom_outside (outside : ¬Inside vmax vinc iv) : progressionFrom vmax vinc iv = [] := by
  rw [progressionFrom, steps_outside outside]
  rfl

theorem progressionFrom_length : (progressionFrom vmax vinc iv).length = steps vmax vinc iv := by
  rw [progressionFrom, length_map, length_range]

theorem rangeLoop_fits (rounds : Nat) (enough : steps vmax vinc iv < rounds)
    (limit : FitsInt vmax) (here : FitsInt iv)
    (stops : steps vmax vinc iv ≠ 0 → FitsInt (iv + steps vmax vinc iv * vinc))
    (room : (done.length : Int) + steps vmax vinc iv ≤ most) :
    rangeLoop most vmax vinc rounds iv (full done) =
      some (full (done ++ progressionFrom vmax vinc iv)) := by
  induction rounds generalizing iv done with
  | zero => omega
  | succ rounds ih =>
    unfold rangeLoop
    by_cases inside : Inside vmax vinc iv
    · have count := steps_inside inside
      have next : FitsInt (iv + vinc) := by
        by_cases again : Inside vmax vinc (iv + vinc)
        · apply fitsInt_between here limit
          unfold Inside at inside again
          omega
        · rw [count, steps_outside again] at stops
          simpa using stops (by omega)
      rw [if_pos inside, if_neg (by simp only [full]; omega), checked_of_fits next,
        bind_some, full_store, progressionFrom_inside inside]
      refine (ih (by omega) next ?_ ?_).trans ?_
      · intro more
        have last := stops (by omega)
        rw [count] at last
        push_cast at last
        rw [Int.add_mul, Int.one_mul, Int.add_comm _ vinc, ← Int.add_assoc] at last
        exact last
      · rw [length_append, length_singleton]
        push_cast
        omega
      · rw [append_assoc]
        rfl
    · rw [if_neg inside, progressionFrom_outside inside, append_nil]

/-- There is room for the range, but the increment behind its last element has no value. -/
theorem rangeLoop_overflows (rounds : Nat) (enough : steps vmax vinc iv < rounds)
    (limit : FitsInt vmax) (here : FitsInt iv) (nonempty : steps vmax vinc iv ≠ 0)
    (overflows : ¬FitsInt (iv + steps vmax vinc iv * vinc))
    (room : (done.length : Int) + steps vmax vinc iv ≤ most) :
    rangeLoop most vmax vinc rounds iv (full done) = none := by
  induction rounds generalizing iv done with
  | zero => omega
  | succ rounds ih =>
    have inside : Inside vmax vinc iv :=
      Classical.byContradiction fun outside => nonempty (steps_outside outside)
    have count := steps_inside inside
    unfold rangeLoop
    rw [if_pos inside, if_neg (by simp only [full]; omega)]
    by_cases again : Inside vmax vinc (iv + vinc)
    · have next : FitsInt (iv + vinc) := by
        apply fitsInt_between here limit
        unfold Inside at inside again
        omega
      rw [checked_of_fits next, bind_some, full_store]
      apply ih (by omega) next
      · rw [steps_inside again]
        omega
      · rw [count] at overflows
        push_cast at overflows
        rw [Int.add_mul, Int.one_mul, Int.add_comm _ vinc, ← Int.add_assoc] at overflows
        exact overflows
      · rw [length_append, length_singleton]
        push_cast
        omega
    · rw [count, steps_outside again] at overflows
      have last : checked (iv + vinc) = none := if_neg (by simpa using overflows)
      rw [last, bind_none]

theorem rangeLoop_exceeds (rounds : Nat) (enough : steps vmax vinc iv < rounds)
    (limit : FitsInt vmax) (here : FitsInt iv) (room : (done.length : Int) ≤ most)
    (positive : 0 < most) (more : most < done.length + steps vmax vinc iv) :
    rangeLoop most vmax vinc rounds iv (full done) =
      some { nvalue := -1
             stores := numbered 0 ((done ++ progressionFrom vmax vinc iv).take most.toNat) } := by
  induction rounds generalizing iv done with
  | zero => omega
  | succ rounds ih =>
    have inside : Inside vmax vinc iv :=
      Classical.byContradiction fun outside => by
        have none := steps_outside outside
        omega
    have count := steps_inside inside
    unfold rangeLoop
    rw [if_pos inside]
    by_cases last : (done.length : Int) = most
    · rw [if_pos (by simp only [full]; omega), take_left' (by omega)]
      rfl
    · have again : Inside vmax vinc (iv + vinc) :=
        Classical.byContradiction fun outside => by
          have none := steps_outside outside
          omega
      have next : FitsInt (iv + vinc) := by
        apply fitsInt_between here limit
        unfold Inside at inside again
        omega
      rw [if_neg (by simp only [full]; omega), checked_of_fits next, bind_some, full_store,
        progressionFrom_inside inside]
      refine (ih (by omega) next ?_ ?_).trans ?_
      · rw [length_append, length_singleton]
        push_cast
        omega
      · rw [length_append, length_singleton]
        push_cast
        omega
      · rw [append_assoc]
        rfl

theorem steps_le : steps vmax vinc iv < (vmax - iv).natAbs + 2 := by
  unfold steps
  split
  · have quotient := Nat.div_le_self (vmax - iv).natAbs vinc.natAbs
    omega
  · omega

variable {expansion result : Expansion}

theorem rangeLoop_keeps (rounds : Nat)
    (returned : rangeLoop most vmax vinc rounds iv expansion = some result) :
    ∀ store ∈ expansion.stores, store ∈ result.stores := by
  induction rounds generalizing iv expansion with
  | zero =>
    cases returned
    exact fun store member => member
  | succ rounds ih =>
    unfold rangeLoop at returned
    split at returned
    · split at returned
      · cases returned
        exact fun store member => member
      · obtain ⟨next, -, later⟩ := bind_eq_some_iff.mp returned
        exact fun store member => ih later store (mem_append_left _ member)
    · cases returned
      exact fun store member => member

theorem rangeLoop_stray (rounds : Nat) (positive : 0 < most) (inside : Inside vmax vinc iv)
    (negative : expansion.nvalue = -1)
    (returned : rangeLoop most vmax vinc (rounds + 1) iv expansion = some result) :
    (-1, iv) ∈ result.stores := by
  unfold rangeLoop at returned
  rw [if_pos inside, if_neg (by omega)] at returned
  obtain ⟨next, -, later⟩ := bind_eq_some_iff.mp returned
  apply rangeLoop_keeps rounds later
  rw [Expansion.store, negative]
  simp

variable {range : IntegerRange} {expansion result : Expansion}

theorem expandRange_still (still : range.vinc = 0) :
    expandRange most range expansion = some (expansion.store range.vmin.toInt) := by
  unfold expandRange
  rw [still]
  rfl

theorem vinc_ne_zero (moves : range.vinc ≠ 0) : range.vinc.toInt ≠ 0 := fun zero =>
  moves (Int32.toInt_inj.mp (zero.trans Int32.toInt_zero.symm))

theorem expandRange_moves (moves : range.vinc ≠ 0) :
    expandRange most range expansion =
      rangeLoop most range.vmax.toInt range.vinc.toInt
        ((range.vmax.toInt - range.vmin.toInt).natAbs + 2) range.vmin.toInt expansion := by
  have nonzero := vinc_ne_zero moves
  have none : ¬Inside range.vmax.toInt range.vinc.toInt range.vmin.toInt →
      rangeLoop most range.vmax.toInt range.vinc.toInt
        ((range.vmax.toInt - range.vmin.toInt).natAbs + 2) range.vmin.toInt expansion =
        some expansion := fun outside => by
    unfold rangeLoop
    exact if_neg outside
  simp only [expandRange]
  by_cases up : range.vinc.toInt > 0
  · rw [if_pos up]
    split
    · rfl
    · rename_i wrong
      exact (none (by unfold Inside; omega)).symm
  · rw [if_neg up, if_pos (by omega)]
    split
    · rfl
    · rename_i wrong
      exact (none (by unfold Inside; omega)).symm

theorem progression_moves (moves : range.vinc ≠ 0) : range.progression =
    progressionFrom range.vmax.toInt range.vinc.toInt range.vmin.toInt := if_neg moves

theorem progression_still (still : range.vinc = 0) : range.progression = [range.vmin.toInt] :=
  if_pos still

theorem steps_ne_zero (moves : range.vinc ≠ 0) (nonempty : range.progression ≠ []) :
    steps range.vmax.toInt range.vinc.toInt range.vmin.toInt ≠ 0 := by
  intro zero
  apply nonempty
  rw [progression_moves moves]
  apply eq_nil_of_length_eq_zero
  rw [progressionFrom_length, zero]

theorem expandRange_fits (stops : Stops range)
    (room : (done.length : Int) + range.progression.length ≤ most) :
    expandRange most range (full done) = some (full (done ++ range.progression)) := by
  by_cases moves : range.vinc = 0
  · rw [expandRange_still moves, full_store, progression_still moves]
  · have shape := progression_moves moves
    rw [shape, progressionFrom_length] at room
    rw [expandRange_moves moves, shape]
    refine rangeLoop_fits _ steps_le (fitsInt_toInt _) (fitsInt_toInt _) ?_ room
    intro some
    have last := stops (fun empty => by
      rw [← progressionFrom_length, ← shape, empty] at some
      exact some rfl) moves
    rw [shape, progressionFrom_length] at last
    exact last

theorem expandRange_overflows (overflows : ¬Stops range)
    (room : (done.length : Int) + range.progression.length ≤ most) :
    expandRange most range (full done) = none := by
  unfold Stops at overflows
  push Not at overflows
  obtain ⟨nonempty, moves, last⟩ := overflows
  have shape := progression_moves moves
  rw [shape, progressionFrom_length] at room last
  rw [expandRange_moves moves]
  exact rangeLoop_overflows _ steps_le (fitsInt_toInt _) (fitsInt_toInt _)
    (steps_ne_zero moves nonempty) last room

theorem expandRange_exceeds (moves : range.vinc ≠ 0) (positive : 0 < most)
    (room : (done.length : Int) ≤ most)
    (more : most < done.length + range.progression.length) :
    expandRange most range (full done) =
      some { nvalue := -1
             stores := numbered 0 ((done ++ range.progression).take most.toNat) } := by
  have shape := progression_moves moves
  rw [shape, progressionFrom_length] at more
  rw [expandRange_moves moves, shape]
  exact rangeLoop_exceeds _ steps_le (fitsInt_toInt _) (fitsInt_toInt _) room positive more

theorem expandRange_empty (empty : range.progression = []) :
    expandRange most range expansion = some expansion := by
  by_cases moves : range.vinc = 0
  · rw [progression_still moves] at empty
    cases empty
  · rw [progression_moves moves] at empty
    have outside : ¬Inside range.vmax.toInt range.vinc.toInt range.vmin.toInt := by
      intro inside
      rw [progressionFrom_inside inside] at empty
      cases empty
    rw [expandRange_moves moves]
    unfold rangeLoop
    exact if_neg outside

theorem expandRange_keeps (returned : expandRange most range expansion = some result) :
    ∀ store ∈ expansion.stores, store ∈ result.stores := by
  by_cases moves : range.vinc = 0
  · rw [expandRange_still moves] at returned
    cases returned
    exact fun store member => mem_append_left _ member
  · rw [expandRange_moves moves] at returned
    exact rangeLoop_keeps _ returned

theorem expandRange_stray (positive : 0 < most) (nonempty : range.progression ≠ [])
    (negative : expansion.nvalue = -1)
    (returned : expandRange most range expansion = some result) :
    (-1, range.vmin.toInt) ∈ result.stores := by
  by_cases moves : range.vinc = 0
  · rw [expandRange_still moves] at returned
    cases returned
    rw [Expansion.store, negative]
    simp
  · have inside : Inside range.vmax.toInt range.vinc.toInt range.vmin.toInt :=
      Classical.byContradiction fun outside =>
        steps_ne_zero moves nonempty (steps_outside outside)
    rw [expandRange_moves moves] at returned
    exact rangeLoop_stray _ positive inside negative returned

end Range

/-! ## The values -/

@[grind =] def readable (list : IntegerParameter) : List Bytes → List IntegerRange
  | [] => []
  | text :: rest =>
    match heardRange list text with
    | none => []
    | some range => range :: readable list rest

def expanded (ranges : List IntegerRange) : List Int := ranges.flatMap IntegerRange.progression

/-- The ranges have room together, or the first one without room is a true range and only empty ones
follow it; no increment overflows before that. -/
inductive Roomy (most : Int) (ranges : List IntegerRange) : Prop
  | fits (room : (expanded ranges).length ≤ most) (stops : ∀ range ∈ ranges, Stops range)
  | exceeds (front : List IntegerRange) (range : IntegerRange) (back : List IntegerRange)
      (split : ranges = front ++ range :: back) (room : (expanded front).length ≤ most)
      (stops : ∀ before ∈ front, Stops before) (moves : range.vinc ≠ 0)
      (more : most < (expanded front).length + range.progression.length)
      (rest : ∀ after ∈ back, after.progression = [])

/-- A value that is read as what it denotes: it denotes a range, is not cut, and neither of two limits
is a special value. -/
structure Plain (list : IntegerParameter) (text : Bytes) : Prop where
  short : text.length ≤ 1022
  valid : denotedRange list text ≠ none
  limits : ∀ rest, (splitColon text).2 = some rest →
    specialCode list (splitColon text).1 = none ∧ specialCode list (splitColon rest).1 = none

/-- Other values can be heard wrong and still give the same numbers, or too many. -/
def Alike (most : Int) (list : IntegerParameter) (texts : List Bytes) : Prop :=
  denoted list texts = expanded (readable list texts) ∨
    most < (expanded (readable list texts)).length ∧ most < (denoted list texts).length

inductive Expandable (most : Int) (list : IntegerParameter) (texts : List Bytes) : Prop
  | plain (all : ∀ text ∈ texts, Plain list text)
      (roomy : Roomy most (texts.filterMap (denotedRange list)))
  | lucky (misheard : ∃ text ∈ texts, ¬Plain list text) (roomy : Roomy most (readable list texts))
      (alike : Alike most list texts)

theorem cutNumber_of_denoted {text : Bytes} {value : Int32}
    (denotes : denotedNumber text = some value) : cutNumber text = some value := by
  obtain ⟨number, read, fits⟩ := bind_eq_some_iff.mp denotes
  rw [cutNumber, read, map_some]
  split at fits
  · rename_i inside
    have value := some.inj fits
    have cutting : cut number.1.signed number.2 = Int32.ofInt number.2 := by
      unfold FitsInt Form.value at inside
      have small : -2147483648 ≤ number.2 ∧ number.2 ≤ 2147483648 := by
        split at inside <;> omega
      unfold cut
      split
      · congr 1
        omega
      · rw [if_pos (by omega)]
    rw [← value, cutting, Form.value]
    split
    · rw [Int32.neg_ofInt]
    · rfl
  · cases fits

theorem limited_of_denoted {list : IntegerParameter} {key text : Bytes} {value : Int32}
    (denotes : limited list denotedNumber key text = some value) :
    limited list cutNumber key text = some value := by
  unfold limited at denotes ⊢
  cases special : specialCode list key with
  | some code =>
    rw [special] at denotes
    exact denotes
  | none =>
    rw [special, none_or, filter_eq_some_iff] at denotes
    rw [none_or, filter_eq_some_iff]
    exact ⟨cutNumber_of_denoted denotes.1, denotes.2⟩

theorem Plain.heard {list : IntegerParameter} {text : Bytes} (plain : Plain list text) :
    heardRange list text = denotedRange list text := by
  obtain ⟨short, valid, limits⟩ := plain
  rw [heardRange, take_of_length_le short]
  unfold denotedRange ranged at valid ⊢
  generalize splitColon text = parts at valid limits ⊢
  obtain ⟨tmin, behind⟩ := parts
  cases lower : limited list denotedNumber tmin tmin with
  | none => cases behind <;> simp [lower] at valid
  | some vmin =>
    have first := limited_of_denoted lower
    cases behind with
    | none => simp only [lower, first]
    | some rest =>
      obtain ⟨noMin, noMax⟩ := limits rest rfl
      have key : limited list denotedNumber tmin (splitColon rest).1 =
          limited list denotedNumber (splitColon rest).1 (splitColon rest).1 := by
        rw [limited, limited, noMin, noMax]
      cases upper : limited list denotedNumber (splitColon rest).1 (splitColon rest).1 with
      | none => simp [lower, upper] at valid
      | some vmax =>
        have second := limited_of_denoted (key.trans upper)
        cases last : (splitColon rest).2 with
        | none => simp only [lower, first, upper, second, last]
        | some tinc =>
          simp only [lower, first, upper, second, last] at valid ⊢
          cases number : denotedNumber tinc with
          | none => simp [number] at valid
          | some vinc => rw [cutNumber_of_denoted number]

theorem readable_plain {list : IntegerParameter} {texts : List Bytes}
    (all : ∀ text ∈ texts, Plain list text) :
    readable list texts = texts.filterMap (denotedRange list) := by
  induction texts with
  | nil => rfl
  | cons text rest ih =>
    have first := all text (by simp)
    rw [readable, first.heard, filterMap_cons, ih fun other member => all other (by simp [member])]
    cases denotes : denotedRange list text with
    | none => exact absurd denotes first.valid
    | some range => rfl

section Values

variable {most : Int} {list : IntegerParameter} {texts : List Bytes} {done : List Int}
  {expansion result : Expansion}

theorem expandValues_keeps (returned : expandValues most list texts expansion = some result) :
    ∀ store ∈ expansion.stores, store ∈ result.stores := by
  induction texts generalizing expansion with
  | nil =>
    cases returned
    exact fun store member => member
  | cons text rest ih =>
    unfold expandValues at returned
    split at returned
    · cases returned
      exact fun store member => member
    · split at returned
      · cases returned
        exact fun store member => member
      · obtain ⟨next, first, later⟩ := bind_eq_some_iff.mp returned
        exact fun store member => ih later store (expandRange_keeps first store member)

variable {range : IntegerRange} {values : List Int}

theorem expandValues_read {text : Bytes} {rest : List Bytes}
    (below : ¬(most > 0 ∧ expansion.nvalue > most)) (read : readRange list text = some range) :
    expandValues most list (text :: rest) expansion =
      (expandRange most range expansion).bind (expandValues most list rest) := by
  simp only [expandValues, if_neg below, read]

theorem expandValues_front (front back : List IntegerRange)
    (ranges : readable list texts = front ++ back)
    (room : (done.length : Int) + (expanded front).length ≤ most)
    (stops : ∀ range ∈ front, Stops range) :
    ∃ rest, readable list rest = back ∧ expandValues most list texts (full done) =
      expandValues most list rest (full (done ++ expanded front)) := by
  induction front generalizing texts done with
  | nil => exact ⟨texts, ranges, by simp [expanded]⟩
  | cons range front ih =>
    cases texts with
    | nil => cases ranges
    | cons text texts =>
      unfold readable at ranges
      rw [← readRange_heard] at ranges
      have cons : expanded (range :: front) = range.progression ++ expanded front := by
        simp [expanded]
      rw [cons, length_append] at room
      push_cast at room
      cases read : readRange list text with
      | none =>
        rw [read] at ranges
        cases ranges
      | some here =>
        rw [read] at ranges
        obtain ⟨rfl, later⟩ := List.cons.inj ranges
        obtain ⟨rest, left, same⟩ := @ih texts (done ++ here.progression) later
          (by
            rw [length_append]
            push_cast
            omega)
          (fun other member => stops other (by simp [member]))
        refine ⟨rest, left, ?_⟩
        rw [expandValues_read (by simp only [full]; omega) read,
          expandRange_fits (stops here (by simp)) (by omega), bind_some, same, cons,
          append_assoc]

/-- After too many values, ranges without elements change nothing. -/
theorem expandValues_empty (negative : expansion.nvalue = -1)
    (empty : ∀ range ∈ readable list texts, range.progression = []) :
    expandValues most list texts expansion = some expansion := by
  induction texts with
  | nil => rfl
  | cons text rest ih =>
    unfold readable at empty
    rw [← readRange_heard] at empty
    cases read : readRange list text with
    | none =>
      unfold expandValues
      rw [if_neg (by omega), read]
    | some range =>
      rw [read] at empty
      rw [expandValues_read (by omega) read, expandRange_empty (empty range (by simp)),
        bind_some]
      exact ih fun other member => empty other (by simp [member])

/-- After too many values, the next element is stored in front of the array. -/
theorem expandValues_stray (positive : 0 < most) (negative : expansion.nvalue = -1)
    (member : range ∈ readable list texts)
    (nonempty : range.progression ≠ [])
    (returned : expandValues most list texts expansion = some result) :
    ∃ value, (-1, value) ∈ result.stores := by
  induction texts generalizing expansion with
  | nil => cases member
  | cons text rest ih =>
    unfold readable at member
    rw [← readRange_heard] at member
    cases read : readRange list text with
    | none =>
      rw [read] at member
      cases member
    | some here =>
      rw [read] at member
      rw [expandValues_read (by omega) read] at returned
      obtain ⟨next, first, later⟩ := bind_eq_some_iff.mp returned
      by_cases empty : here.progression = []
      · rw [expandRange_empty empty] at first
        cases first
        rcases mem_cons.mp member with rfl | inside
        · exact absurd empty nonempty
        · exact ih negative inside later
      · exact ⟨_, expandValues_keeps later _ (expandRange_stray positive empty negative first)⟩

theorem exists_first (ranges : List IntegerRange) (done : Int) (room : done ≤ most)
    (fails : ¬(done + (expanded ranges).length ≤ most ∧ ∀ range ∈ ranges, Stops range)) :
    ∃ front range back, ranges = front ++ range :: back ∧
      done + (expanded front).length ≤ most ∧ (∀ before ∈ front, Stops before) ∧
      (most < done + (expanded front).length + range.progression.length ∨
        (done + (expanded front).length + range.progression.length ≤ most ∧ ¬Stops range)) := by
  induction ranges generalizing done with
  | nil => exact absurd ⟨by simpa [expanded] using room, by simp⟩ fails
  | cons range rest ih =>
    have cons : ∀ others, ((expanded (range :: others)).length : Int) =
        range.progression.length + (expanded others).length := by
      intro others
      simp [expanded]
    by_cases good : done + range.progression.length ≤ most ∧ Stops range
    · have later : ¬(done + range.progression.length + (expanded rest).length ≤ most ∧
          ∀ other ∈ rest, Stops other) := by
        rintro ⟨short, stops⟩
        apply fails
        rw [cons]
        refine ⟨by omega, ?_⟩
        intro other member
        rcases mem_cons.mp member with rfl | member
        · exact good.2
        · exact stops other member
      obtain ⟨front, first, back, split, short, stops, problem⟩ :=
        ih (done + range.progression.length) good.1 later
      refine ⟨range :: front, first, back, by rw [split]; rfl, ?_, ?_, ?_⟩
      · rw [cons]
        omega
      · intro other member
        rcases mem_cons.mp member with rfl | member
        · exact good.2
        · exact stops other member
      · rw [cons]
        rcases problem with more | ⟨short, overflows⟩
        · exact Or.inl (by omega)
        · exact Or.inr ⟨by omega, overflows⟩
    · refine ⟨[], range, rest, rfl, by simpa [expanded] using room, by simp, ?_⟩
      simp only [expanded, flatMap_nil, length_nil, Int.natCast_zero, Int.add_zero]
      by_cases more : most < done + range.progression.length
      · exact Or.inl more
      · exact Or.inr ⟨by omega, fun stops => good ⟨by omega, stops⟩⟩

theorem expandValues_end (last : readable list texts = []) (below : expansion.nvalue ≤ most) :
    expandValues most list texts expansion = some expansion := by
  cases texts with
  | nil => rfl
  | cons text rest =>
    unfold readable at last
    rw [← readRange_heard] at last
    cases read : readRange list text with
    | none =>
      unfold expandValues
      rw [if_neg (by omega), read]
    | some range =>
      rw [read] at last
      cases last

theorem readable_cons {back : List IntegerRange} (ranges : readable list texts = range :: back) :
    ∃ text rest, texts = text :: rest ∧ readRange list text = some range ∧
      readable list rest = back := by
  cases texts with
  | nil => cases ranges
  | cons text rest =>
    unfold readable at ranges
    rw [← readRange_heard] at ranges
    cases read : readRange list text with
    | none =>
      rw [read] at ranges
      cases ranges
    | some here =>
      rw [read] at ranges
      obtain ⟨rfl, later⟩ := List.cons.inj ranges
      exact ⟨text, rest, rfl, read, later⟩

theorem mem_numbered {store : Int × Int} (member : store ∈ numbered 0 values) :
    ∃ k : Nat, values[k]? = some store.2 ∧ store.1 = (k : Int) := by
  obtain ⟨entry, inside, rfl⟩ := mem_map.mp member
  have found := mem_zipIdx_iff_getElem?.mp inside
  exact ⟨entry.2, found, rfl⟩

theorem numbered_inBounds (short : (values.length : Int) ≤ most) :
    ∀ store ∈ numbered 0 values, 0 ≤ store.1 ∧ store.1 < most := by
  intro store member
  obtain ⟨k, found, place⟩ := mem_numbered member
  have inside := (List.getElem?_eq_some_iff.mp found).1
  omega

theorem full_value (values : List Int) (k : Nat) (inside : k < values.length) :
    (full values).value k = some values[k] := by
  have member : ((k : Int), values[k]) ∈ (numbered 0 values).reverse := by
    rw [mem_reverse, numbered, List.mem_map]
    exact ⟨(values[k], k), mem_zipIdx_iff_getElem?.mpr (getElem?_eq_getElem inside), rfl⟩
  have present : ((numbered 0 values).reverse.find? fun store => store.1 = (k : Int)).isSome := by
    rw [find?_isSome]
    exact ⟨_, member, by simp⟩
  obtain ⟨store, found⟩ := isSome_iff_exists.mp present
  have place : store.1 = (k : Int) := by simpa using find?_some found
  obtain ⟨l, here, index⟩ := mem_numbered (mem_reverse.mp (mem_of_find?_eq_some found))
  have same : l = k := by omega
  rw [same, getElem?_eq_getElem inside] at here
  unfold Expansion.value full
  rw [found, map_some, some.inj here]

theorem expanded_fits (room : (expanded (readable list texts)).length ≤ most)
    (stops : ∀ range ∈ readable list texts, Stops range) :
    expandValues most list texts ⟨0, []⟩ = some (full (expanded (readable list texts))) := by
  obtain ⟨rest, last, same⟩ := @expandValues_front most list texts [] (readable list texts) []
    (by rw [append_nil]) (by simpa using room) stops
  refine same.trans ?_
  rw [nil_append]
  exact expandValues_end last room

theorem full_expanded {other : List Int} (room : (values.length : Int) ≤ most) :
    Expanded most other (full values) ↔ other = values := by
  constructor
  · intro expanded
    have short : (other.length : Int) ≤ most := by
      apply Int.not_lt.mp
      intro long
      have error := expanded.error.mpr long
      have count : (full values).nvalue = values.length := rfl
      omega
    obtain ⟨count, contents⟩ := expanded.whole short
    have lengths : other.length = values.length := (Int.ofNat_inj.mp count).symm
    apply ext_getElem lengths
    intro k first second
    have value := contents k first
    rw [full_value values k second] at value
    exact (some.inj value).symm
  · intro same
    subst same
    refine ⟨numbered_inBounds room, ?_, fun _ => ⟨rfl, full_value other⟩⟩
    have count : (full other).nvalue = other.length := rfl
    omega

end Values

theorem parameterValueMaximum_pos {list : Parameter} {most : Int}
    (maximum : parameterValueMaximum list = some most) : 0 < most := by
  unfold parameterValueMaximum at maximum
  obtain ⟨product, first, second⟩ := bind_eq_some_iff.mp maximum
  have value : ∀ {whole result : Int}, checked whole = some result → result = whole := by
    intro whole result fits
    unfold checked at fits
    split at fits
    · exact (some.inj fits).symm
    · cases fits
  rw [value second, value first]
  exact Int.mul_pos (Int.mul_pos (by omega) (by omega)) (by omega)

section Result

variable {most : Int} {list : IntegerParameter} {texts : List Bytes}

theorem expanded_more {ranges front back : List IntegerRange} {range : IntegerRange}
    (split : ranges = front ++ range :: back)
    (more : most < (expanded front).length + range.progression.length) :
    most < (expanded ranges).length := by
  rw [split, expanded, flatMap_append, flatMap_cons, length_append, length_append]
  push_cast
  rw [expanded] at more
  omega

/-- The run up to the first range without room, or with an increment that overflows. -/
theorem Expanded.roomy {result : Expansion} (positive : 0 < most)
    (returned : expandValues most list texts ⟨0, []⟩ = some result)
    (whole : Expanded most (denoted list texts) result) :
    Roomy most (readable list texts) ∧ Alike most list texts := by
  by_cases good : (expanded (readable list texts)).length ≤ most ∧
      ∀ range ∈ readable list texts, Stops range
  · rw [expanded_fits good.1 good.2] at returned
    cases returned
    exact ⟨.fits good.1 good.2, Or.inl ((full_expanded good.1).mp whole)⟩
  · obtain ⟨front, range, back, ranges, room, stops, problem⟩ :=
      exists_first (readable list texts) 0 (Int.le_of_lt positive) (by rwa [Int.zero_add])
    rw [Int.zero_add] at room problem
    obtain ⟨suffix, left, same⟩ := @expandValues_front most list texts [] front (range :: back)
      ranges (by simpa using room) stops
    obtain ⟨text, rest, rfl, read, later⟩ := readable_cons left
    rw [nil_append] at same
    have run := same.symm.trans returned
    rw [expandValues_read (by simp only [full]; omega) read] at run
    rcases problem with more | ⟨short, overflows⟩
    · by_cases moves : range.vinc = 0
      · -- the branch for an increment of zero stores without looking at the count
        rw [expandRange_still moves, bind_some] at run
        have place := expandValues_keeps run _ (by
          unfold Expansion.store
          exact mem_append_right _ (mem_singleton.mpr rfl))
        have bounds := whole.inBounds _ place
        rw [progression_still moves, length_singleton] at more
        simp only [full] at bounds
        push_cast at more
        omega
      · rw [expandRange_exceeds moves positive room more, bind_some] at run
        have empty : ∀ after ∈ back, after.progression = [] := by
          intro after member
          apply Classical.byContradiction
          intro nonempty
          rw [← later] at member
          obtain ⟨value, stray⟩ := expandValues_stray positive rfl member nonempty run
          have lower : (0 : Int) ≤ -1 := (whole.inBounds _ stray).1
          omega
        rw [expandValues_empty rfl (later ▸ empty)] at run
        cases run
        refine ⟨.exceeds front range back ranges room stops moves more empty,
          Or.inr ⟨expanded_more ranges more, whole.error.mp rfl⟩⟩
    · rw [expandRange_overflows overflows short] at run
      cases run

theorem Roomy.expanded (positive : 0 < most) (roomy : Roomy most (readable list texts))
    (alike : Alike most list texts) :
    ∃ result, expandValues most list texts ⟨0, []⟩ = some result ∧
      Expanded most (denoted list texts) result := by
  cases roomy with
  | fits room stops =>
    have same := alike.resolve_right fun many => by omega
    exact ⟨_, expanded_fits room stops, (full_expanded room).mpr same⟩
  | exceeds front range back ranges room stops moves more rest =>
    have tooMany : most < (denoted list texts).length := by
      rcases alike with same | many
      · rw [same]
        exact expanded_more ranges more
      · exact many.2
    obtain ⟨suffix, left, same⟩ := @expandValues_front most list texts [] front (range :: back)
      ranges (by simpa using room) stops
    obtain ⟨text, others, rfl, read, later⟩ := readable_cons left
    rw [nil_append] at same
    have empty : ∀ after ∈ readable list others, after.progression = [] := by
      rw [later]
      exact rest
    rw [expandValues_read (by simp only [full]; omega) read,
      expandRange_exceeds moves positive room more, bind_some,
      expandValues_empty rfl empty] at same
    refine ⟨_, same, ?_, ?_, ?_⟩
    · apply numbered_inBounds
      rw [length_take]
      omega
    · exact ⟨fun _ => tooMany, fun _ => rfl⟩
    · intro short
      omega

end Result

/-- The expansion is bounded and all-or-error exactly for the expandable lists of values. -/
theorem parseIntegerList_expanded (replacement : Option (Bytes → Bytes))
    (list : IntegerParameter) (values : List Bytes) (most : Int)
    (maximum : parameterValueMaximum list.toParameter = some most) :
    (∃ result, parseIntegerList replacement list values = some result ∧
      Expanded most (denoted list (values.map (replacement.getD id))) result) ↔
      Expandable most list (values.map (replacement.getD id)) := by
  have positive := parameterValueMaximum_pos maximum
  rw [parseIntegerList, maximum, bind_some]
  constructor
  · rintro ⟨result, returned, whole⟩
    obtain ⟨roomy, alike⟩ := whole.roomy positive returned
    by_cases all : ∀ text ∈ values.map (replacement.getD id), Plain list text
    · rw [readable_plain all] at roomy
      exact .plain all roomy
    · push Not at all
      exact .lucky all roomy alike
  · rintro (⟨all, roomy⟩ | ⟨-, roomy, alike⟩)
    · have same := readable_plain all
      rw [← same] at roomy
      refine roomy.expanded positive (Or.inl ?_)
      rw [same]
      rfl
    · exact roomy.expanded positive alike

def roomForTwo : IntegerParameter where
  code := 0
  word := #v[some [112], none, none]
  nx := 2
  ny := 1
  nz := 1
  minimum := none
  maximum := none
  special := []

/-- The values `1:3` and `5`: after the error the 5 is stored in front of the array and 0 is
returned. -/
theorem parseIntegerList_stray :
    ¬∃ result, parseIntegerList none roomForTwo [letters "1:3", letters "5"] = some result ∧
      Expanded 2 (denoted roomForTwo [letters "1:3", letters "5"]) result := by
  rintro ⟨result, returned, whole⟩
  have value : parseIntegerList none roomForTwo [letters "1:3", letters "5"] =
      some ⟨0, [(0, 1), (1, 2), (-1, 5)]⟩ := by decide
  rw [value] at returned
  cases returned
  have lower : (0 : Int) ≤ -1 := (whole.inBounds (-1, 5) (by decide)).1
  omega

/-- The values `6:5:-1` and `x1f` -/
theorem parseIntegerList_expanded_down :
    ∃ result, parseIntegerList none { roomForTwo with ny := 2 } [letters "6:5:-1", letters "x1f"] =
        some result ∧
      Expanded 4 (denoted { roomForTwo with ny := 2 } [letters "6:5:-1", letters "x1f"]) result := by
  apply (parseIntegerList_expanded none { roomForTwo with ny := 2 } [letters "6:5:-1", letters "x1f"] 4
    (by decide)).mpr
  have ranges : [letters "6:5:-1", letters "x1f"].filterMap
      (denotedRange { roomForTwo with ny := 2 }) = [⟨6, 5, -1⟩, ⟨31, 31, 1⟩] := by decide
  have values : expanded [⟨6, 5, -1⟩, ⟨31, 31, 1⟩] = [6, 5, 31] := by decide +kernel
  have special : ∀ text, specialCode { roomForTwo with ny := 2 } text = none := fun text => by
    cases text <;> rfl
  refine .plain ?_ ?_
  · intro text member
    have either : text = letters "6:5:-1" ∨ text = letters "x1f" := by simpa using member
    rcases either with rfl | rfl
    · exact ⟨by decide, by decide, fun _ _ => ⟨special _, special _⟩⟩
    · exact ⟨by decide, by decide, fun _ _ => ⟨special _, special _⟩⟩
  · change Roomy 4 ([letters "6:5:-1", letters "x1f"].filterMap _)
    rw [ranges]
    refine .fits (by rw [values]; decide) ?_
    intro range member
    rcases mem_cons.mp member with rfl | last
    · exact fun _ _ => by decide
    · rw [mem_singleton.mp last]
      exact fun _ _ => by decide

end AthApps.Art
