import AthApps.Art.Parameter

/-!
# The subscripts of a selected parameter

The range checks of `ParameterSelectIndexArray` are written once for each number
of subscripts.  The `return` that belongs to an error stands behind the last of
them: one or two subscripts out of range are only reported, and three are
refused even when they are in range.
-/

set_option autoImplicit false

namespace AthApps.Art

open AthApps.Lib List

def subscriptText (buffer : Bytes) : Bytes := buffer.dropWhile (· ≠ 91)

/-! ## What is written -/

/-- What stands behind a mark that may have blanks in front of it. -/
def mark (c : UInt8) (text : Bytes) : Option Bytes :=
  match text.dropWhile isSpace with
  | [] => none
  | d :: rest => if c = d then some rest else none

def comma (text : Bytes) : Option Bytes := mark 44 text

def brackets (text : Bytes) : Option Bytes := (mark 93 text).bind (mark 91)

def either (text : Bytes) : Option Bytes := (comma text).or (brackets text)

/-- Numbers at the front of a text, and what is behind them. -/
inductive Series (apart : Bytes → Option Bytes) :
    Bytes → List Int → Bytes → Prop
  | last {text rest : Bytes} {x : Int} (number : scanNumber 10 text = some (x, rest)) :
      Series apart text [x] rest
  | more {text behind next rest : Bytes} {x : Int} {others : List Int}
      (number : scanNumber 10 text = some (x, behind)) (separated : apart behind = some next)
      (later : Series apart next others rest) : Series apart text (x :: others) rest

/-- Subscripts are given behind the first bracket, whatever follows them. -/
def Given (start : Bytes) (subscripts : List Int) : Prop :=
  ∃ rest, Series either start subscripts rest

/-- Subscripts with commas or brackets between them, a bracket, and nothing but blanks after it. -/
def Written (start : Bytes) (subscripts : List Int) : Prop :=
  ∃ rest tail, (Series comma start subscripts rest ∨ Series brackets start subscripts rest) ∧
    mark 93 rest = some tail ∧ tail.dropWhile isSpace = []

def Within (subscript : Int) (limit : Int32) : Prop := 0 ≤ subscript ∧ subscript < limit.toInt

def AllWithin (entry : Parameter) : List Int → Prop
  | [xi] => Within xi entry.nx
  | [xi, yi] => Within xi entry.nx ∧ Within yi entry.ny
  | [xi, yi, zi] => Within xi entry.nx ∧ Within yi entry.ny ∧ Within zi entry.nz
  | _ => False

/-- Accepted subscripts are in range, and subscripts in range are accepted. -/
structure SubscriptsValid (cl : List Parameter) (buffer : Bytes) : Prop where
  accepted : ∀ (good : Nat) entry, (parameterSelectIndexArray buffer cl).index = good →
    cl[good]? = some entry →
    Within (parameterSelectIndexArray buffer cl).xindex.toInt entry.nx ∧
      ∀ subscripts, Given (subscriptText buffer).tail subscripts → (2 ≤ subscripts.length →
          Within (parameterSelectIndexArray buffer cl).yindex.toInt entry.ny) ∧
        (3 ≤ subscripts.length → Within (parameterSelectIndexArray buffer cl).zindex.toInt entry.nz)
  answered : ∀ (good : Nat) entry subscripts, selectName buffer cl = some good →
    cl[good]? = some entry → Written (subscriptText buffer).tail subscripts →
    AllWithin entry subscripts → (parameterSelectIndexArray buffer cl).index = good

/-- One or two subscripts that were read are in range and no more are given; three are not both
written properly and in range. -/
def Fitting (entry : Parameter) (start : Bytes) : List Int32 → Prop
  | [xi] => Within xi.toInt entry.nx ∧ ∀ subscripts, Given start subscripts → subscripts.length ≤ 1
  | [xi, yi] =>
    Within xi.toInt entry.nx ∧ Within yi.toInt entry.ny ∧
      ∀ subscripts, Given start subscripts → subscripts.length ≤ 2
  | _ => ∀ subscripts, Written start subscripts → ¬AllWithin entry subscripts

/-! ## What the notations read -/

def series (apart : List Directive) : Nat → List Directive
  | 0 => [.blanks, .integer true 10]
  | count + 1 => .blanks :: .integer true 10 :: (apart ++ series apart count)

def closing : List Directive := [.blanks, .literal 93, .blanks, .char]

def commaRead : List Directive := [.blanks, .literal 44]

def bracketsRead : List Directive := [.blanks, .literal 93, .blanks, .literal 91]

/-- The separator of a format is that of the written subscripts. -/
def Separates (format : List Directive) (apart : Bytes → Option Bytes) : Prop :=
  ∀ behind text, scan (format ++ behind) text =
    match apart text with
    | none => []
    | some rest => scan behind rest

section Formats

variable {apart : Bytes → Option Bytes} {format : List Directive}
  {text start rest : Bytes} {subscripts : List Int}

theorem scan_mark (c : UInt8) : Separates [.blanks, .literal c] (mark c) := by
  intro behind text
  rw [cons_append, cons_append, nil_append, scan, mark]
  cases text.dropWhile isSpace with
  | nil => rfl
  | cons d rest =>
    rw [scan]
    dsimp only
    split
    · rfl
    · rfl

theorem bracketsRead_separates : Separates bracketsRead brackets := by
  intro behind text
  have first := scan_mark 93 ([.blanks, .literal 91] ++ behind) text
  rw [show bracketsRead ++ behind = [.blanks, .literal 93] ++ ([.blanks, .literal 91] ++ behind)
    from rfl, first, brackets]
  cases mark 93 text with
  | none => rfl
  | some middle => exact scan_mark 91 behind middle

theorem Series.scanned (read : Series apart start subscripts rest)
    (separates : Separates format apart) (behind : List Directive) :
    scan (series format (subscripts.length - 1) ++ behind) start =
      subscripts.map (cut true) ++ scan behind rest := by
  induction read with
  | last number =>
    rw [length_singleton, Nat.sub_self, series, cons_append, cons_append, scan_number, number]
    rfl
  | @more text middle next rest x others number separated later ih =>
    have count : others.length = others.length - 1 + 1 := by cases later <;> simp
    rw [length_cons, Nat.add_sub_cancel, count, series, cons_append, cons_append,
      scan_number, number]
    simp only [append_assoc]
    rw [separates, separated, map_cons, cons_append]
    exact congrArg _ ih

theorem series_given (separates : Separates format apart) (count : Nat) (behind : List Directive)
    (enough : count < (scan (series format count ++ behind) start).length) :
    ∃ subscripts rest, subscripts.length = count + 1 ∧ Series apart start subscripts rest := by
  induction count generalizing start with
  | zero =>
    rw [series, cons_append, cons_append, scan_number] at enough
    cases number : scanNumber 10 start with
    | none =>
      rw [number] at enough
      cases enough
    | some read => exact ⟨[read.1], read.2, rfl, .last number⟩
  | succ count ih =>
    rw [series, cons_append, cons_append, scan_number] at enough
    cases number : scanNumber 10 start with
    | none =>
      rw [number] at enough
      cases enough
    | some read =>
      rw [number] at enough
      simp only [length_cons, append_assoc] at enough
      rw [separates] at enough
      cases separated : apart read.2 with
      | none =>
        rw [separated] at enough
        simp at enough
      | some next =>
        rw [separated] at enough
        obtain ⟨others, rest, length, later⟩ := ih (Nat.lt_of_succ_lt_succ enough)
        exact ⟨read.1 :: others, rest, by rw [length_cons, length],
          .more number separated later⟩

theorem Series.either {other : Bytes → Option Bytes} (read : Series other start subscripts rest)
    (weaker : ∀ text next, other text = some next → AthApps.Art.either text = some next) :
    Series AthApps.Art.either start subscripts rest := by
  induction read with
  | last number => exact .last number
  | more number separated later ih => exact .more number (weaker _ _ separated) ih

theorem either_comma {next : Bytes} (separated : comma text = some next) :
    either text = some next := by
  rw [either, separated]
  rfl

theorem either_brackets {next : Bytes} (separated : brackets text = some next) :
    either text = some next := by
  have closed : comma text = none := by
    obtain ⟨middle, first, -⟩ := Option.bind_eq_some_iff.mp separated
    unfold mark at first
    unfold comma mark
    cases shape : text.dropWhile isSpace with
    | nil => rfl
    | cons c behind =>
      rw [shape] at first
      split at first
      · cases first
      · rename_i d tail cons
        obtain ⟨rfl, rfl⟩ := List.cons.inj cons
        split at first
        · rename_i same
          subst same
          rfl
        · cases first
  rw [either, closed, separated]
  rfl

def subscriptSeries : List (List Directive × Nat) :=
  [(series commaRead 2, 3), (series bracketsRead 2, 3), (series commaRead 1, 2),
    (series bracketsRead 1, 2), (series commaRead 0, 1)]

theorem readSubscripts_series (start : Bytes) :
    readSubscripts (91 :: start) = subscriptSeries.findSome? fun format =>
      let read := scan (format.1 ++ closing) start
      if read.length = format.2 then some read else none := by
  have formats : subscriptFormats.map (fun format => (directives (letters format.1), format.2)) =
      subscriptSeries.map fun format => (.literal 91 :: (format.1 ++ closing), format.2) := by
    decide
  calc
    readSubscripts (91 :: start) =
        (subscriptFormats.map fun format => (directives (letters format.1), format.2)).findSome?
          fun format =>
            let read := scan format.1 (91 :: start)
            if read.length = format.2 then some read else none := by
      rw [findSome?_map]
      rfl
    _ = _ := by
      rw [formats, findSome?_map]
      rfl

/-- Where two subscripts are read, two are given. -/
theorem readSubscripts_given {xi yi : Int32} (read : readSubscripts (91 :: start) = some [xi, yi]) :
    ∃ subscripts, subscripts.length = 2 ∧ Given start subscripts := by
  rw [readSubscripts_series] at read
  obtain ⟨format, member, found⟩ := exists_of_findSome?_eq_some read
  simp only at found
  split at found
  · rename_i count
    have values := Option.some.inj found
    rw [values] at count
    rcases mem_cons.mp member with rfl | member
    · cases count
    rcases mem_cons.mp member with rfl | member
    · cases count
    have two : 1 < (scan (format.1 ++ closing) start).length := by
      rw [values]
      exact Nat.lt_succ_self 1
    rcases mem_cons.mp member with rfl | member
    · obtain ⟨subscripts, rest, length, series⟩ := series_given (scan_mark 44) 1 closing two
      exact ⟨subscripts, length, rest, series.either fun _ _ => either_comma⟩
    rcases mem_cons.mp member with rfl | member
    · obtain ⟨subscripts, rest, length, series⟩ :=
        series_given bracketsRead_separates 1 closing two
      exact ⟨subscripts, length, rest, series.either fun _ _ => either_brackets⟩
    rw [mem_singleton.mp member] at count
    cases count
  · cases found

theorem closing_scan {tail : Bytes} (closed : mark 93 rest = some tail)
    (blank : tail.dropWhile isSpace = []) : scan closing rest = [] := by
  have shape := scan_mark 93 [.blanks, .char] rest
  rw [closed] at shape
  refine shape.trans ?_
  simp only [scan, blank]

/-- Written subscripts are read, if there are not more than three. -/
theorem Written.read (written : Written start subscripts) (few : subscripts.length ≤ 3) :
    readSubscripts (91 :: start) ≠ none := by
  obtain ⟨rest, tail, read, closed, blank⟩ := written
  have silent := closing_scan closed blank
  rw [readSubscripts_series]
  intro none
  have fails := findSome?_eq_none_iff.mp none
  have lengths : ∀ {apart format}, Series apart start subscripts rest → Separates format apart →
      (series format (subscripts.length - 1), subscripts.length) ∉ subscriptSeries := by
    intro apart format series separates member
    have fail := fails _ member
    simp only [series.scanned separates closing, silent, append_nil, length_map, if_true] at fail
    cases fail
  have positive : 0 < subscripts.length := by
    rcases read with read | read
    · cases read <;> simp
    · cases read <;> simp
  have counts : subscripts.length = 1 ∨ subscripts.length = 2 ∨ subscripts.length = 3 := by omega
  rcases read with read | read
  · have absent := lengths read (scan_mark 44)
    rcases counts with one | two | three
    · exact absent (by rw [one]; decide)
    · exact absent (by rw [two]; decide)
    · exact absent (by rw [three]; decide)
  · have absent := lengths read bracketsRead_separates
    rcases counts with one | two | three
    · exact absent (by rw [one]; decide)
    · exact absent (by rw [two]; decide)
    · exact absent (by rw [three]; decide)

end Formats

/-! ## The subscripts of an input -/

section Buffer

variable {cl : List Parameter} {buffer : Bytes} {good : Nat} {entry : Parameter}

theorem index_refused (errors : List ParseError) (i : Nat) : (refused errors).index ≠ i := by
  intro same
  have negative : (-1 : Int) = i := same
  omega

theorem select_unnamed (unnamed : selectName buffer cl = none) :
    parameterSelectIndexArray buffer cl = refused [] := by
  rw [parameterSelectIndexArray, unnamed]

theorem subscriptText_opened (opened : 91 ∈ buffer) :
    ∃ start, subscriptText buffer = 91 :: start := by
  cases text : subscriptText buffer with
  | nil =>
    have all := dropWhile_eq_nil_iff.mp text 91 opened
    exact absurd all (by decide)
  | cons c start =>
    have head := head?_dropWhile_not (· ≠ (91 : UInt8)) buffer
    rw [show buffer.dropWhile (· ≠ 91) = c :: start from text] at head
    have same : c = 91 := by simpa using head
    exact ⟨start, by rw [same]⟩

theorem select_named (opened : 91 ∈ buffer) (named : selectName buffer cl = some good) :
    parameterSelectIndexArray buffer cl =
      match cl[good]? with
      | none => refused []
      | some entry => selectSubscripts good entry (subscriptText buffer) := by
  obtain ⟨start, shape⟩ := subscriptText_opened opened
  unfold parameterSelectIndexArray
  rw [named, shape]
  unfold subscriptText at shape
  dsimp only
  rw [shape]
  cases cl[good]? with
  | none => rfl
  | some entry => rfl

theorem selectSubscripts_index {text : Bytes} {other : Nat}
    (accepted : (selectSubscripts good entry text).index = other) : good = other := by
  unfold selectSubscripts at accepted
  split at accepted
  · exact absurd accepted (index_refused _ other)
  · exact Int.ofNat_inj.mp accepted
  · exact Int.ofNat_inj.mp accepted
  · exact absurd accepted (index_refused _ other)
  · exact absurd accepted (index_refused _ other)

end Buffer

/-- The subscripts of an input are treated rightly exactly when those that are read from it fit. -/
theorem selectSubscripts_valid (cl : List Parameter) (buffer : Bytes) (opened : 91 ∈ buffer) :
    SubscriptsValid cl buffer ↔
      ∀ (good : Nat) entry subscripts, selectName buffer cl = some good → cl[good]? = some entry →
        readSubscripts (subscriptText buffer) = some subscripts →
        Fitting entry (subscriptText buffer).tail subscripts := by
  have missing : ∀ limit, ¬Within (-1 : Int32).toInt limit := by
    have negative : ¬0 ≤ (-1 : Int32).toInt := by decide
    exact fun limit within => negative within.1
  obtain ⟨start, shape⟩ := subscriptText_opened opened
  constructor
  · intro valid good entry subscripts named here read
    have result := select_named opened named
    rw [here] at result
    simp only [selectSubscripts, read] at result
    match subscripts with
    | [] =>
      intro written proper within
      have answered := valid.answered good entry _ named here proper within
      rw [result] at answered
      exact index_refused _ good answered
    | [xi] =>
      obtain ⟨within, others⟩ := valid.accepted good entry (by rw [result]) here
      simp only [result] at within others
      refine ⟨within, fun given here => ?_⟩
      exact Nat.le_of_lt_succ (Nat.lt_of_not_le fun two => missing _ ((others given here).1 two))
    | [xi, yi] =>
      obtain ⟨within, others⟩ := valid.accepted good entry (by rw [result]) here
      simp only [result] at within others
      obtain ⟨given, two, present⟩ : ∃ given, given.length = 2 ∧
          Given (subscriptText buffer).tail given := by
        rw [shape] at read ⊢
        exact readSubscripts_given read
      refine ⟨within, (others given present).1 (Nat.le_of_eq two.symm), fun given here => ?_⟩
      exact Nat.le_of_lt_succ (Nat.lt_of_not_le fun three => missing _ ((others given here).2 three))
    | xi :: yi :: zi :: rest =>
      intro written proper within
      have answered := valid.answered good entry _ named here proper within
      rw [result] at answered
      exact index_refused _ good answered
  · intro fitting
    constructor
    · intro good entry accepted here
      cases named : selectName buffer cl with
      | none =>
        rw [select_unnamed named] at accepted
        exact absurd accepted (index_refused _ good)
      | some found =>
        have same : found = good := by
          rw [select_named opened named] at accepted
          cases at_found : cl[found]? with
          | none =>
            rw [at_found] at accepted
            exact absurd accepted (index_refused _ good)
          | some other =>
            rw [at_found] at accepted
            exact selectSubscripts_index accepted
        subst same
        rw [select_named opened named, here] at accepted ⊢
        have fits := fitting found entry
        simp only [selectSubscripts] at accepted ⊢
        cases read : readSubscripts (subscriptText buffer) with
        | none =>
          rw [read] at accepted
          exact absurd accepted (index_refused _ found)
        | some subscripts =>
          rw [read] at accepted
          have fit := fits subscripts named here read
          match subscripts with
          | [] => exact absurd accepted (index_refused _ found)
          | [xi] =>
            obtain ⟨within, few⟩ := fit
            refine ⟨within, fun given present => ?_⟩
            have one := few given present
            exact ⟨fun two => by omega, fun three => by omega⟩
          | [xi, yi] =>
            obtain ⟨first, second, few⟩ := fit
            refine ⟨first, fun given present => ⟨fun _ => second, fun three => ?_⟩⟩
            have two := few given present
            omega
          | xi :: yi :: zi :: rest => exact absurd accepted (index_refused _ found)
    · intro good entry written named here proper within
      have few : written.length ≤ 3 := by
        match written with
        | [] => exact within.elim
        | [_] => simp
        | [_, _] => simp
        | [_, _, _] => simp
        | _ :: _ :: _ :: _ :: _ => exact within.elim
      have fits := fitting good entry
      rw [select_named opened named, here]
      simp only [selectSubscripts]
      cases read : readSubscripts (subscriptText buffer) with
      | none =>
        rw [shape] at proper read
        exact absurd read (proper.read few)
      | some subscripts =>
        have fit := fits subscripts named here read
        match subscripts with
        | [] => exact absurd within (fit written proper)
        | [xi] => rfl
        | [xi, yi] => rfl
        | xi :: yi :: zi :: rest => exact absurd within (fit written proper)

theorem oneWord_size : (#[some [112], none, none] : Array (Option Bytes)).size = 3 := rfl

def twoValues : List Parameter := [⟨0, ⟨#[some [112], none, none], oneWord_size⟩, 2, 1, 1⟩]

/-- `p[5]` is accepted, and `p[0,0,0]` is not. -/
theorem selectSubscripts_bounds : ¬SubscriptsValid twoValues (letters "p[5]") ∧
    ¬SubscriptsValid twoValues (letters "p[0,0,0]") := by
  constructor
  · intro valid
    have result : parameterSelectIndexArray (letters "p[5]") twoValues =
        ⟨0, 5, -1, -1, [.arrayIndexBound 5 2]⟩ := by decide
    have bounds := (valid.accepted 0 _ (by rw [result]; rfl) rfl).1.2
    rw [result] at bounds
    revert bounds
    decide
  · intro valid
    have named : selectName (letters "p[0,0,0]") twoValues = some 0 := by decide
    have zero : ∀ rest, scanNumber 10 (48 :: 44 :: rest) = some (0, 44 :: rest) := fun rest => rfl
    have proper : Written (subscriptText (letters "p[0,0,0]")).tail [0, 0, 0] :=
      ⟨[93], [], Or.inl (.more (zero _) rfl (.more (zero _) rfl (.last rfl))), rfl, rfl⟩
    have answered := valid.answered 0 _ [0, 0, 0] named rfl proper
      ⟨⟨by decide, by decide⟩, ⟨by decide, by decide⟩, by decide, by decide⟩
    revert answered
    decide

/-- `p[1]` -/
theorem selectSubscripts_valid_one : SubscriptsValid twoValues (letters "p[1]") := by
  apply (selectSubscripts_valid twoValues (letters "p[1]") (by decide)).mpr
  intro good entry subscripts named here read
  have first : selectName (letters "p[1]") twoValues = some 0 := by decide
  have one : readSubscripts (subscriptText (letters "p[1]")) = some [1] := by decide
  have alone : either [93] = none := by decide
  have number : scanNumber 10 [49, 93] = some (1, [93]) := by decide
  rw [first] at named
  rw [one] at read
  cases named
  cases here
  cases read
  refine ⟨⟨by decide, by decide⟩, ?_⟩
  rintro given ⟨rest, series⟩
  cases series with
  | last => exact Nat.le_refl 1
  | more first separated later =>
    cases number.symm.trans first
    rw [alone] at separated
    cases separated

end AthApps.Art
