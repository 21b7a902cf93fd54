import AthApps.Plc.RuleText

/-!
# Addresses in colon-hexadecimal form

What `tools/ipv6spec.c` reads, against the form it is documented to read: eight
fields, or fewer with one `::` for those that are zero.  The loop stores a field
of zeros for an empty piece between colons and only remembers the last place
where there were two colons, so pieces that are empty for another reason pass
for zero fields.
-/

set_option autoImplicit false

namespace AthApps.Plc

open AthApps.Lib List Option

/-! ## Addresses -/

def fieldValue (digits : Bytes) : Nat := numeralValue 16 0 (digits.map digitValue)

def fieldBytes (digits : Bytes) : Bytes :=
  [UInt8.ofNat (fieldValue digits / 256), UInt8.ofNat (fieldValue digits)]

def addressBytes (fields : List Bytes) : Bytes := fields.flatMap fieldBytes

/-- Hexadecimal digits, if any, with a value of 16 bits. -/
structure Readable (digits : Bytes) : Prop where
  hex : ∀ c ∈ digits, digitValue c < 16
  small : fieldValue digits ≤ 0xFFFF

structure Hextet (digits : Bytes) : Prop extends Readable digits where
  some : digits ≠ []

def joined (fields : List Bytes) : Bytes := [58].intercalate fields

/-- A text that spells an address, and the bytes of the address. -/
inductive Ipv6Address : Bytes → Bytes → Prop
  | full {fields : List Bytes} (fine : ∀ field ∈ fields, Hextet field)
      (eight : fields.length = 8) :
      Ipv6Address (joined fields) (addressBytes fields)
  | shortened {front back : List Bytes} (before : ∀ field ∈ front, Hextet field)
      (behind : ∀ field ∈ back, Hextet field) (few : front.length + back.length < 8) :
      Ipv6Address (joined front ++ [58, 58] ++ joined back)
        (addressBytes front ++ List.replicate (2 * (8 - (front.length + back.length))) 0 ++
          addressBytes back)

/-! ## Pieces -/

def pieces (string : Bytes) : List Bytes := string.splitOn 58

/-- The pieces with a colon on either side; an empty one is a `::`. -/
def innerPieces (string : Bytes) : List Bytes := (pieces string).tail.dropLast

def LoneStart (string : Bytes) : Prop :=
  (pieces string).head? = some [] ∧ (innerPieces string).head? ≠ some []

def LoneEnd (string : Bytes) : Prop :=
  (pieces string).getLast? = some [] ∧ (innerPieces string).getLast? ≠ some []

/-- A `::` for a single field at either end, with the seven other fields. -/
def SingleAtEnd (string : Bytes) : Prop :=
  ∃ fields, fields.length = 7 ∧ (∀ field ∈ fields, field ≠ []) ∧
    (pieces string = [] :: [] :: fields ∨ pieces string = fields ++ [[], []])

/-- The strings that `ipv6spec` takes for something else. -/
def Misread (string : Bytes) : Prop :=
  (∀ piece ∈ pieces string, Readable piece) ∧ (SingleAtEnd string ∨
      (pieces string).length ≤ 8 ∧ ((pieces string).length = 8 ∨ [] ∈ innerPieces string) ∧
        (LoneStart string ∨ LoneEnd string ∨ 2 ≤ (innerPieces string).count []))

theorem digitValue_colon : digitValue 58 = 255 := by decide

theorem fieldBytes_nil : fieldBytes [] = [0, 0] := rfl

theorem readable_nil : Readable [] := ⟨by simp, by decide⟩

theorem addressBytes_cons (field : Bytes) (rest : List Bytes) :
    addressBytes (field :: rest) = fieldBytes field ++ addressBytes rest := rfl

theorem addressBytes_append (front back : List Bytes) :
    addressBytes (front ++ back) = addressBytes front ++ addressBytes back :=
  flatMap_append

theorem addressBytes_length (fields : List Bytes) :
    (addressBytes fields).length = 2 * fields.length := by
  induction fields with
  | nil => rfl
  | cons field rest ih =>
    rw [addressBytes_cons, length_append, ih]
    simp only [fieldBytes, length_cons, length_nil]
    omega

variable {digits rest piece : Bytes}

theorem Readable.colon (readable : Readable digits) : 58 ∉ digits := by
  intro member
  have value := readable.hex 58 member
  rw [digitValue_colon] at value
  exact absurd value (by decide)

theorem pieces_colon (string : Bytes) : ∀ piece ∈ pieces string, 58 ∉ piece :=
  splitOn_clean 58 string

theorem pieces_joined {fields : List Bytes} (some : fields ≠ [])
    (plain : ∀ field ∈ fields, 58 ∉ field) : pieces (joined fields) = fields :=
  splitOn_intercalate 58 plain some

theorem joined_pieces (string : Bytes) : joined (pieces string) = string :=
  intercalate_splitOn 58

theorem joined_cons (first : Bytes) (rest : List Bytes) :
    joined (first :: rest) = first ++ rest.flatMap (58 :: ·) := by
  induction rest generalizing first with
  | nil => simp [joined, List.intercalate]
  | cons next others ih =>
    have step : joined (first :: next :: others) = first ++ 58 :: joined (next :: others) := by
      simp [joined, List.intercalate]
    rw [step, ih next]
    simp

/-! ## The loop -/

theorem scanDigits_hex {limit : Nat} (stop : NoDigit 16 rest) :
    ∀ (digits : Bytes) (value : Nat), (∀ c ∈ digits, digitValue c < 16) → value ≤ limit →
      scanDigits 16 limit (digits ++ rest) value =
        if numeralValue 16 value (digits.map digitValue) ≤ limit then
          some (numeralValue 16 value (digits.map digitValue), rest)
        else none := by
  intro digits
  induction digits with
  | nil =>
    intro value _ within
    rw [nil_append, scanDigits_noDigit stop]
    exact (if_pos within).symm
  | cons c others ih =>
    intro value hex within
    have digit : digitValue c < 16 := hex c (by simp)
    have later : ∀ c ∈ others, digitValue c < 16 := fun c member => hex c (by simp [member])
    have next : numeralValue 16 value ((c :: others).map digitValue) =
        numeralValue 16 (value * 16 + digitValue c) (others.map digitValue) := rfl
    rw [cons_append, scanDigits, if_pos digit, next]
    by_cases large : value * 16 + digitValue c > limit
    · have grows := le_numeralValue 16 (by decide) (others.map digitValue)
        (value * 16 + digitValue c)
      rw [if_pos large, if_neg (by omega)]
    · rw [if_neg large]
      exact ih _ later (Nat.not_lt.mp large)

theorem scanDigits_readable (readable : Readable digits) (stop : NoDigit 16 rest) :
    scanDigits 16 0xFFFF (digits ++ rest) 0 = some (fieldValue digits, rest) := by
  rw [scanDigits_hex stop digits 0 readable.hex (by decide)]
  exact if_pos readable.small

/-- In front of a character that is neither digit nor colon the loop does not move. -/
theorem ipv6Fields_stuck {c : UInt8} (other : 16 ≤ digitValue c) (noColon : c ≠ 58)
    (rest : Bytes) : ∀ (extent : Nat) (stored : Bytes) (marker : Option Nat)
      (left : Bytes) (result : Bytes × Option Nat),
      ipv6Fields extent stored marker (c :: rest) = some (result.1, result.2, left) →
        left = c :: rest := by
  intro extent
  induction extent with
  | zero =>
    intro stored marker left result returned
    simp only [ipv6Fields, some.injEq, Prod.mk.injEq] at returned
    exact returned.2.2.symm
  | succ extent ih =>
    intro stored marker left result returned
    have stop : NoDigit 16 (c :: rest) := by
      intro first member
      rw [head?_cons, mem_some] at member
      exact member ▸ other
    simp only [ipv6Fields, noColon, and_false, if_false, head?_cons, some.injEq,
      scanDigits_noDigit stop] at returned
    exact ih _ _ _ _ returned

theorem ipv6Fields_unreadable {tail : Bytes} (plain : 58 ∉ piece) (bad : ¬Readable piece)
    (stop : NoDigit 16 tail) :
    ∀ value left, scanDigits 16 0xFFFF (piece ++ tail) 0 = some (value, left) →
      ∃ c rest, left = c :: rest ∧ 16 ≤ digitValue c ∧ c ≠ 58 := by
  intro value left scanned
  let hex : UInt8 → Bool := fun c => decide (digitValue c < 16)
  have parts : piece.takeWhile hex ++ piece.dropWhile hex = piece := takeWhile_append_dropWhile
  have front : ∀ c ∈ piece.takeWhile hex, digitValue c < 16 := by
    intro c member
    have taken : hex c = true := mem_takeWhile_imp member
    exact of_decide_eq_true taken
  cases behind : piece.dropWhile hex with
  | nil =>
    rw [behind, append_nil] at parts
    rw [parts] at front
    rw [scanDigits_hex stop piece 0 front (by decide)] at scanned
    split at scanned
    next small => exact absurd ⟨front, small⟩ bad
    next => exact absurd scanned (by simp)
  | cons c rest =>
    have other : ¬digitValue c < 16 := by
      have head := head_dropWhile_not hex (l := piece) (by rw [behind]; simp)
      simpa [behind, hex] using head
    have noColon : c ≠ 58 := by
      rintro rfl
      apply plain
      rw [← parts, behind]
      simp
    have halt : NoDigit 16 (c :: rest ++ tail) := by
      intro first member
      rw [cons_append, head?_cons, mem_some] at member
      exact member ▸ Nat.not_lt.mp other
    rw [← parts, behind, append_assoc, scanDigits_hex halt _ 0 front (by decide)] at scanned
    split at scanned
    next =>
      simp only [some.injEq, Prod.mk.injEq] at scanned
      exact ⟨c, rest ++ tail, scanned.2.symm, Nat.not_lt.mp other, noColon⟩
    next => exact absurd scanned (by simp)

/-- The place that the loop remembers, with the first of the pieces at `place`. -/
@[grind =] def lastMarker : Nat → Option Nat → List Bytes → Option Nat
  | _, marker, [] => marker
  | place, marker, piece :: rest =>
    lastMarker (place + 2) (if piece = [] ∧ rest ≠ [] then some place else marker) rest

theorem noDigit_pieces (rest : List Bytes) : NoDigit 16 (rest.flatMap (58 :: ·)) := by
  cases rest with
  | nil => exact noDigit_nil 16
  | cons piece others => exact noDigit_cons (by decide) _

theorem head_pieces (rest : List Bytes) (more : rest ≠ []) :
    (rest.flatMap (58 :: ·)).head? = some 58 := by
  obtain ⟨piece, others, rfl⟩ := exists_cons_of_ne_nil more
  rfl

theorem ipv6Fields_turn {extent : Nat} {stored : Bytes} {others : List Bytes}
    (marker : Option Nat) (started : stored ≠ []) (plain : 58 ∉ piece) :
    ipv6Fields (extent + 1) stored marker ((piece :: others).flatMap (58 :: ·)) =
      match scanDigits 16 0xFFFF (piece ++ others.flatMap (58 :: ·)) 0 with
      | some (value, number) =>
        ipv6Fields extent (stored ++ [UInt8.ofNat (value / 256), UInt8.ofNat value])
          (if piece = [] ∧ others ≠ [] then some stored.length else marker) number
      | none => none := by
  have mark : (piece ++ others.flatMap (58 :: ·)).head? = some 58 ↔ piece = [] ∧ others ≠ [] := by
    cases piece with
    | nil =>
      constructor
      · intro head
        refine ⟨rfl, ?_⟩
        rintro rfl
        exact absurd head (by simp)
      · rintro ⟨_, more⟩
        exact head_pieces others more
    | cons c rest =>
      have other : c ≠ 58 := fun same => plain (by simp [same])
      simp [other]
  have marked : (if stored ≠ [] ∧ (piece ++ others.flatMap (58 :: ·)).head? = some 58 then
      some stored.length else marker) =
        if piece = [] ∧ others ≠ [] then some stored.length else marker :=
    if_congr ((and_iff_right started).trans mark) rfl rfl
  rewrite [flatMap_cons, cons_append, ipv6Fields, if_pos ⟨started, rfl⟩, marked]
  rfl

/-- The loop behind the first field: it gets to the end of the string exactly if every
piece is readable and there is room for all. -/
theorem ipv6Fields_pieces : ∀ (rest : List Bytes) (extent : Nat) (stored : Bytes)
    (marker : Option Nat) (result : Bytes × Option Nat), stored ≠ [] →
      (∀ piece ∈ rest, 58 ∉ piece) →
      (ipv6Fields extent stored marker (rest.flatMap (58 :: ·)) = some (result.1, result.2, []) ↔
        (∀ piece ∈ rest, Readable piece) ∧ rest.length ≤ extent ∧
          result = (stored ++ addressBytes rest, lastMarker stored.length marker rest)) := by
  intro rest
  induction rest with
  | nil =>
    intro extent stored marker result started plain
    have ends : ipv6Fields extent stored marker [] = some (stored, marker, []) := by
      cases extent <;> rfl
    obtain ⟨bytes, place⟩ := result
    simp only [flatMap_nil, ends, some.injEq, Prod.mk.injEq, addressBytes,
      append_nil, lastMarker, not_mem_nil, false_implies, implies_true, true_and,
      length_nil, Nat.zero_le, and_true]
    constructor
    · rintro ⟨rfl, rfl⟩
      exact ⟨rfl, rfl⟩
    · rintro ⟨rfl, rfl⟩
      exact ⟨rfl, rfl⟩
  | cons piece others ih =>
    intro extent stored marker result started plain
    have here : 58 ∉ piece := plain piece (by simp)
    have there : ∀ piece ∈ others, 58 ∉ piece := fun other member => plain other (by simp [member])
    have stop := noDigit_pieces others
    cases extent with
    | zero => simp [ipv6Fields]
    | succ extent =>
      rw [ipv6Fields_turn marker started here]
      by_cases readable : Readable piece
      · rw [scanDigits_readable readable stop]
        have turn := ih extent (stored ++ fieldBytes piece)
          (if piece = [] ∧ others ≠ [] then some stored.length else marker) result
          (by simp [started]) there
        have length : (stored ++ fieldBytes piece).length = stored.length + 2 := by
          simp [fieldBytes]
        change ipv6Fields extent (stored ++ fieldBytes piece) _ _ = _ ↔ _
        rw [turn, length, lastMarker, addressBytes_cons, ← append_assoc,
          forall_mem_cons, length_cons, Nat.add_le_add_iff_right]
        simp only [readable, true_and]
      · constructor
        · intro returned
          exfalso
          cases scanned : scanDigits 16 0xFFFF (piece ++ others.flatMap (58 :: ·)) 0 with
          | none => simp [scanned] at returned
          | some scan =>
            obtain ⟨c, rest, left, other, noColon⟩ :=
              ipv6Fields_unreadable here readable stop scan.1 scan.2 scanned
            rw [scanned] at returned
            dsimp only at returned
            rw [left] at returned
            exact absurd (ipv6Fields_stuck other noColon rest _ _ _ _ _ returned) (by simp)
        · rintro ⟨all, _⟩
          exact absurd (all piece (by simp)) readable

section Marker

variable {place : Nat} {marker : Option Nat}

theorem lastMarker_none : ∀ {rest : List Bytes} {place : Nat}, [] ∉ rest.dropLast →
    lastMarker place marker rest = marker := by
  intro rest
  induction rest with
  | nil =>
    intro place _
    rfl
  | cons piece others ih =>
    intro place absent
    cases others with
    | nil => simp [lastMarker]
    | cons next more =>
      rw [dropLast_cons_cons, mem_cons, not_or] at absent
      rw [lastMarker, if_neg (fun both => absent.1 both.1.symm)]
      exact ih absent.2

theorem lastMarker_some {back : List Bytes} (more : back ≠ []) (absent : [] ∉ back.dropLast) :
    ∀ (front : List Bytes) (place : Nat) (marker : Option Nat),
      lastMarker place marker (front ++ [] :: back) = some (place + 2 * front.length) := by
  intro front
  induction front with
  | nil =>
    intro place marker
    rw [nil_append, lastMarker, if_pos ⟨rfl, more⟩, lastMarker_none absent]
    rfl
  | cons piece others ih =>
    intro place marker
    rw [cons_append, lastMarker, ih, length_cons]
    congr 1
    omega

end Marker

/-- What `ipv6spec` makes of the stored fields. -/
def widened : Bytes × Option Nat → Option Bytes
  | (stored, some marker) =>
    some (stored.take marker ++ List.replicate (16 - stored.length) 0 ++ stored.drop marker)
  | (stored, none) => if stored.length = 16 then some stored else none

theorem ipv6spec_eq_some (string bytes : Bytes) :
    ipv6spec string = some bytes ↔ ∃ result : Bytes × Option Nat,
      ipv6Fields 8 [] none string = some (result.1, result.2, []) ∧ widened result = some bytes := by
  unfold ipv6spec
  cases run : ipv6Fields 8 [] none string with
  | none => simp
  | some final =>
    obtain ⟨stored, marker, left⟩ := final
    cases left with
    | nil => cases marker <;> simp [widened]
    | cons c rest => cases marker <;> simp

/-- The string is read exactly if its pieces are readable, there are at most eight and
there are eight or two colons in a row. -/
theorem ipv6spec_pieces {string first : Bytes} {rest : List Bytes}
    (found : pieces string = first :: rest) (bytes : Bytes) :
    ipv6spec string = some bytes ↔ (∀ piece ∈ first :: rest, Readable piece) ∧ rest.length ≤ 7 ∧
        widened (addressBytes (first :: rest), lastMarker 2 none rest) = some bytes := by
  have text : string = first ++ rest.flatMap (58 :: ·) := by
    rw [← joined_cons, ← found, joined_pieces]
  have plain := pieces_colon string
  rw [found, forall_mem_cons] at plain
  have stop := noDigit_pieces rest
  rw [ipv6spec_eq_some]
  by_cases empty : string = []
  · have none : first = [] ∧ rest = [] := by
      subst empty
      have single : pieces [] = [[]] := rfl
      rw [single, List.cons.injEq] at found
      exact ⟨found.1.symm, found.2.symm⟩
    obtain ⟨rfl, rfl⟩ := none
    subst empty
    constructor
    · rintro ⟨⟨stored, marker⟩, run, wide⟩
      simp only [ipv6Fields, some.injEq, Prod.mk.injEq] at run
      obtain ⟨rfl, rfl, _⟩ := run
      exact absurd wide (by simp [widened])
    · rintro ⟨_, _, wide⟩
      exact absurd wide (by simp [widened, lastMarker, addressBytes, fieldBytes])
  · have turn : ipv6Fields 8 [] none string =
        match scanDigits 16 0xFFFF string 0 with
        | some (value, number) =>
          ipv6Fields 7 [UInt8.ofNat (value / 256), UInt8.ofNat value] none number
        | none => none := by
      obtain ⟨c, others, rfl⟩ := exists_cons_of_ne_nil empty
      rewrite [ipv6Fields, if_neg fun both => both.1 rfl, if_neg fun both => both.1 rfl]
      rfl
    rw [turn, text]
    by_cases readable : Readable first
    · rw [scanDigits_readable readable stop]
      have loop := fun result => ipv6Fields_pieces rest 7 (fieldBytes first) none result
        (by simp [fieldBytes]) plain.2
      dsimp only
      rw [← fieldBytes]
      simp only [loop, forall_mem_cons, readable, true_and]
      have length : (fieldBytes first).length = 2 := rfl
      constructor
      · rintro ⟨result, ⟨all, room, rfl⟩, wide⟩
        exact ⟨all, room, wide⟩
      · rintro ⟨all, room, wide⟩
        exact ⟨_, ⟨all, room, rfl⟩, wide⟩
    · constructor
      · rintro ⟨result, returned, _⟩
        exfalso
        cases scanned : scanDigits 16 0xFFFF (first ++ rest.flatMap (58 :: ·)) 0 with
        | none => simp [scanned] at returned
        | some scan =>
          obtain ⟨c, others, left, other, noColon⟩ :=
            ipv6Fields_unreadable plain.1 readable stop scan.1 scan.2 scanned
          rw [scanned] at returned
          dsimp only at returned
          rw [left] at returned
          exact absurd (ipv6Fields_stuck other noColon others _ _ _ _ _ returned) (by simp)
      · rintro ⟨all, _⟩
        exact absurd (all first (by simp)) readable

section Outer

variable {string first last : Bytes} {inner : List Bytes}

/-- Without two colons in a row all eight fields are needed. -/
theorem ipv6spec_plain (found : pieces string = first :: (inner ++ [last])) (plain : [] ∉ inner)
    (bytes : Bytes) :
    ipv6spec string = some bytes ↔ (∀ piece ∈ pieces string, Readable piece) ∧ inner.length = 6 ∧
        bytes = addressBytes (pieces string) := by
  have none : lastMarker 2 none (inner ++ [last]) = none :=
    lastMarker_none (by rwa [dropLast_concat])
  have length := addressBytes_length (first :: (inner ++ [last]))
  simp only [length_cons, length_append, length_nil] at length
  rw [ipv6spec_pieces found, none, found]
  simp only [widened, length, length_append, length_singleton]
  constructor
  · rintro ⟨all, room, wide⟩
    split at wide
    next full => exact ⟨all, by omega, (some.inj wide).symm⟩
    next => exact absurd wide (by simp)
  · rintro ⟨all, six, rfl⟩
    exact ⟨all, by omega, if_pos (by omega)⟩

/-- The last two colons in a row are taken for the zeros that are left out. -/
theorem ipv6spec_marked {front back : List Bytes}
    (found : pieces string = first :: (front ++ [] :: back) ++ [last]) (absent : [] ∉ back)
    (bytes : Bytes) :
    ipv6spec string = some bytes ↔
      (∀ piece ∈ pieces string, Readable piece) ∧ front.length + back.length ≤ 5 ∧
        bytes = addressBytes (first :: front) ++
          List.replicate (2 * (5 - (front.length + back.length))) 0 ++
            addressBytes ([] :: (back ++ [last])) := by
  have shape : pieces string = first :: (front ++ [] :: (back ++ [last])) := by simp [found]
  have marker := @lastMarker_some (back ++ [last]) (by simp)
    (by rwa [dropLast_concat]) front 2 none
  have length := addressBytes_length (first :: (front ++ [] :: (back ++ [last])))
  simp only [length_cons, length_append, length_nil] at length
  have before : (addressBytes (first :: front)).length = 2 + 2 * front.length := by
    rw [addressBytes_length, length_cons]
    omega
  have split : addressBytes (first :: (front ++ [] :: (back ++ [last]))) =
      addressBytes (first :: front) ++ addressBytes ([] :: (back ++ [last])) := by
    rw [← addressBytes_append, cons_append]
  have zeros : 16 - 2 * (front.length + (back.length + (0 + 1) + 1) + 1) =
      2 * (5 - (front.length + back.length)) := by omega
  rw [ipv6spec_pieces shape, marker, shape]
  simp only [widened, length, length_append, length_cons, length_nil, zeros]
  rw [split, ← before, take_left, drop_left]
  constructor
  · rintro ⟨all, room, wide⟩
    exact ⟨all, by omega, (some.inj wide).symm⟩
  · rintro ⟨all, room, rfl⟩
    exact ⟨all, by omega, rfl⟩

end Outer

/-! ## Addresses in pieces -/

/-- The pieces of one side of a `::`; an empty side is an empty piece. -/
def padded (fields : List Bytes) : List Bytes :=
  if fields = [] then [[]] else fields

section Sides

variable {fields front back : List Bytes}

theorem padded_ne_nil : padded fields ≠ [] := by
  unfold padded
  split
  · simp
  next more => exact more

theorem joined_padded : joined (padded fields) = joined fields := by
  unfold padded
  split
  next none => rw [none]; rfl
  next => rfl

theorem joined_append (some : front ≠ []) (more : back ≠ []) :
    joined (front ++ back) = joined front ++ 58 :: joined back := by
  obtain ⟨first, others, rfl⟩ := exists_cons_of_ne_nil some
  obtain ⟨next, rest, rfl⟩ := exists_cons_of_ne_nil more
  rw [cons_append, joined_cons, joined_cons, joined_cons, flatMap_append]
  simp

theorem joined_shortened :
    joined (padded front ++ [] :: padded back) = joined front ++ [58, 58] ++ joined back := by
  have behind : joined ([] :: padded back) = 58 :: joined (padded back) := by
    have two := @joined_append [[]] (padded back) (by simp) padded_ne_nil
    rw [singleton_append] at two
    rw [two]
    rfl
  rw [joined_append padded_ne_nil (by simp), behind, joined_padded, joined_padded]
  simp

theorem padded_mem {field : Bytes} (member : field ∈ padded fields) :
    field ∈ fields ∨ field = [] := by
  unfold padded at member
  split at member
  · right
    simpa using member
  · left
    exact member

theorem padded_colon (fine : ∀ field ∈ fields, Hextet field) : ∀ field ∈ padded fields, 58 ∉ field := by
  intro field member
  rcases padded_mem member with inside | rfl
  · exact (fine field inside).toReadable.colon
  · simp

theorem pieces_shortened (before : ∀ field ∈ front, Hextet field)
    (behind : ∀ field ∈ back, Hextet field) :
    pieces (joined front ++ [58, 58] ++ joined back) = padded front ++ [] :: padded back := by
  rw [← joined_shortened]
  apply pieces_joined (by simp)
  intro field member
  rw [mem_append, mem_cons] at member
  rcases member with first | rfl | last
  · exact padded_colon before field first
  · simp
  · exact padded_colon behind field last

theorem padded_bytes : ∃ zeros, 2 * fields.length + zeros = 2 * (padded fields).length ∧
    addressBytes (padded fields) = addressBytes fields ++ List.replicate zeros 0 ∧
    addressBytes (padded fields) = List.replicate zeros 0 ++ addressBytes fields := by
  unfold padded
  split
  next none =>
    subst none
    exact ⟨2, rfl, rfl, rfl⟩
  next => exact ⟨0, rfl, by simp, by simp⟩

theorem shortened_bytes {middle : Nat} (room : middle + (padded front).length +
    (padded back).length = 7) (few : front.length + back.length < 8) :
    addressBytes (padded front) ++ List.replicate (2 * middle) 0 ++ addressBytes ([] :: padded back) =
      addressBytes front ++ List.replicate (2 * (8 - (front.length + back.length))) 0 ++
        addressBytes back := by
  obtain ⟨left, leftCount, leftBytes, _⟩ := @padded_bytes front
  obtain ⟨right, rightCount, _, rightBytes⟩ := @padded_bytes back
  have zeros : 2 * (8 - (front.length + back.length)) = left + (2 * middle + (2 + right)) := by omega
  have two : fieldBytes [] = List.replicate 2 0 := rfl
  rw [addressBytes_cons, leftBytes, rightBytes, zeros, two, replicate_add,
    replicate_add, replicate_add]
  simp only [append_assoc]

/-- A side whose fields are not empty: only its outermost piece may be. -/
theorem padded_front (fine : ∀ field ∈ front, field ≠ []) :
    ∃ first rest, padded front = first :: rest ∧ [] ∉ rest ∧ (first = [] → rest = [] ∧ front = []) := by
  unfold padded
  split
  next none => exact ⟨[], [], rfl, by simp, fun _ => ⟨rfl, none⟩⟩
  next more =>
    obtain ⟨first, rest, rfl⟩ := exists_cons_of_ne_nil more
    exact ⟨first, rest, rfl, fun member => fine [] (by simp [member]) rfl,
      fun blank => absurd blank (fine first (by simp))⟩

theorem padded_back (fine : ∀ field ∈ back, field ≠ []) :
    ∃ rest last, padded back = rest ++ [last] ∧ [] ∉ rest ∧ (last = [] → rest = [] ∧ back = []) := by
  unfold padded
  split
  next none => exact ⟨[], [], rfl, by simp, fun _ => ⟨rfl, none⟩⟩
  next more =>
    have parts := dropLast_concat_getLast more
    refine ⟨back.dropLast, back.getLast more, parts.symm, ?_, ?_⟩
    · exact fun member => fine [] (dropLast_subset back member) rfl
    · exact fun blank => absurd blank (fine _ (getLast_mem more))

theorem shortened_shape (before : ∀ field ∈ front, Hextet field)
    (behind : ∀ field ∈ back, Hextet field) :
    ∃ first inside beyond last, pieces (joined front ++ [58, 58] ++ joined back) =
        first :: (inside ++ [] :: beyond) ++ [last] ∧
      padded front = first :: inside ∧ padded back = beyond ++ [last] ∧
      [] ∉ inside ∧ [] ∉ beyond ∧ (first = [] → inside = []) ∧ (last = [] → beyond = []) := by
  obtain ⟨first, inside, left, noInside, firstBlank⟩ :=
    padded_front fun field member => (before field member).some
  obtain ⟨beyond, last, right, noBeyond, lastBlank⟩ :=
    padded_back fun field member => (behind field member).some
  refine ⟨first, inside, beyond, last, ?_, left, right, noInside, noBeyond,
    fun blank => (firstBlank blank).1, fun blank => (lastBlank blank).1⟩
  rw [pieces_shortened before behind, left, right]
  simp

end Sides

/-! ## What is misread -/

section Reading

variable {string first last bytes : Bytes} {inner : List Bytes}

theorem innerPieces_eq (found : pieces string = first :: (inner ++ [last])) :
    innerPieces string = inner := by
  rw [innerPieces, found, tail_cons, dropLast_concat]

theorem loneStart_iff (found : pieces string = first :: (inner ++ [last])) :
    LoneStart string ↔ first = [] ∧ inner.head? ≠ some [] := by
  rw [LoneStart, innerPieces_eq found, found, head?_cons, some.injEq]

theorem loneEnd_iff (found : pieces string = first :: (inner ++ [last])) :
    LoneEnd string ↔ last = [] ∧ inner.getLast? ≠ some [] := by
  rw [LoneEnd, innerPieces_eq found, found, ← cons_append, getLast?_concat, some.injEq]

theorem pieces_ends (string : Bytes) : (∃ piece, pieces string = [piece]) ∨
      ∃ first inner last, pieces string = first :: (inner ++ [last]) := by
  obtain ⟨first, rest, found⟩ := exists_cons_of_ne_nil (splitOn_ne_nil 58 string)
  rw [← pieces] at found
  by_cases more : rest = []
  · exact Or.inl ⟨first, more ▸ found⟩
  · refine Or.inr ⟨first, rest.dropLast, rest.getLast more, ?_⟩
    rw [found, dropLast_concat_getLast]

theorem ipv6spec_single {piece : Bytes} (found : pieces string = [piece]) :
    ipv6spec string ≠ some bytes := by
  rw [Ne, ipv6spec_pieces found]
  rintro ⟨_, _, wide⟩
  exact absurd wide (by simp [widened, lastMarker, addressBytes, fieldBytes])

theorem last_empty {inner : List Bytes} (member : [] ∈ inner) :
    ∃ front back, inner = front ++ [] :: back ∧ [] ∉ back := by
  induction inner with
  | nil => exact absurd member (by simp)
  | cons piece others ih =>
    by_cases later : [] ∈ others
    · obtain ⟨front, back, rfl, absent⟩ := ih later
      exact ⟨piece :: front, back, rfl, absent⟩
    · have here : [] = piece := (mem_cons.mp member).resolve_right later
      exact ⟨[], others, by rw [nil_append, here], later⟩

theorem ipv6spec_readable (all : ∀ piece ∈ pieces string, Readable piece)
    (room : (pieces string).length ≤ 8)
    (enough : (pieces string).length = 8 ∨ [] ∈ innerPieces string) :
    ∃ bytes, ipv6spec string = some bytes := by
  rcases pieces_ends string with ⟨piece, found⟩ | ⟨first, inner, last, found⟩
  · rcases enough with eight | member
    · simp [found] at eight
    · simp [innerPieces, found] at member
  · rw [innerPieces_eq found] at enough
    have length : (pieces string).length = inner.length + 2 := by simp [found]
    by_cases member : [] ∈ inner
    · obtain ⟨front, back, rfl, absent⟩ := last_empty member
      rw [length_append, length_cons] at length
      exact ⟨_, (ipv6spec_marked found absent _).mpr ⟨all, by omega, rfl⟩⟩
    · have eight := enough.resolve_right member
      exact ⟨_, (ipv6spec_plain found member _).mpr ⟨all, by omega, rfl⟩⟩

theorem Ipv6Address.tidy (address : Ipv6Address string bytes) :
    ¬LoneStart string ∧ ¬LoneEnd string ∧ (innerPieces string).count [] < 2 := by
  cases address with
  | full fine eight =>
    rename_i fields
    have found : pieces (joined fields) = fields :=
      pieces_joined (by intro none; simp [none] at eight)
        fun field member => (fine field member).toReadable.colon
    have absent : [] ∉ fields := fun member => (fine [] member).some rfl
    refine ⟨?_, ?_, ?_⟩
    · intro lone
      rw [LoneStart, found] at lone
      exact absent (mem_of_head? lone.1)
    · intro lone
      rw [LoneEnd, found] at lone
      exact absent (mem_of_getLast? lone.1)
    · have none : [] ∉ innerPieces (joined fields) := by
        rw [innerPieces, found]
        exact fun member => absent (mem_of_mem_tail (dropLast_subset _ member))
      rw [count_eq_zero_of_not_mem none]
      decide
  | shortened before behind few =>
    obtain ⟨first, inside, beyond, last, shape, _, _, noInside, noBeyond, firstBlank, lastBlank⟩ :=
      shortened_shape before behind
    rw [cons_append] at shape
    rw [loneStart_iff shape, loneEnd_iff shape, innerPieces_eq shape]
    refine ⟨?_, ?_, ?_⟩
    · rintro ⟨blank, other⟩
      exact other (by rw [firstBlank blank]; rfl)
    · rintro ⟨blank, other⟩
      exact other (by rw [lastBlank blank]; simp)
    · rw [count_append, count_cons_self, count_eq_zero_of_not_mem noInside,
        count_eq_zero_of_not_mem noBeyond]
      decide

theorem side_front {front : List Bytes} (all : ∀ field ∈ first :: front, Readable field)
    (absent : [] ∉ front) (start : first = [] → front = []) :
    ∃ fields, padded fields = first :: front ∧ fields.length ≤ front.length + 1 ∧
      ∀ field ∈ fields, Hextet field := by
  by_cases blank : first = []
  · refine ⟨[], ?_, by simp, by simp⟩
    rw [padded, if_pos rfl, blank, start blank]
  · refine ⟨first :: front, by simp [padded], by simp, ?_⟩
    intro field inside
    refine ⟨all field inside, ?_⟩
    rintro rfl
    exact (mem_cons.mp inside).elim (fun same => blank same.symm) absent

theorem side_back {back : List Bytes} (all : ∀ field ∈ back ++ [last], Readable field)
    (absent : [] ∉ back) (finish : last = [] → back = []) :
    ∃ fields, padded fields = back ++ [last] ∧ fields.length ≤ back.length + 1 ∧
      ∀ field ∈ fields, Hextet field := by
  by_cases blank : last = []
  · refine ⟨[], ?_, by simp, by simp⟩
    rw [padded, if_pos rfl, blank, finish blank, nil_append]
  · refine ⟨back ++ [last], by simp [padded], by simp, ?_⟩
    intro field inside
    refine ⟨all field inside, ?_⟩
    rintro rfl
    rcases mem_append.mp inside with within | same
    · exact absent within
    · exact blank (mem_singleton.mp same).symm

theorem ipv6spec_address (read : ipv6spec string = some bytes) (proper : ¬Misread string) :
    Ipv6Address string bytes := by
  rcases pieces_ends string with ⟨piece, found⟩ | ⟨first, inner, last, found⟩
  · exact absurd read (ipv6spec_single found)
  have text : joined (pieces string) = string := joined_pieces string
  have length : (pieces string).length = inner.length + 2 := by simp [found]
  have tidy : (∀ piece ∈ pieces string, Readable piece) → (pieces string).length ≤ 8 →
      ((pieces string).length = 8 ∨ [] ∈ innerPieces string) →
      ¬LoneStart string ∧ ¬LoneEnd string ∧ (innerPieces string).count [] < 2 := by
    intro all room enough
    refine ⟨fun lone => ?_, fun lone => ?_, Nat.not_le.mp fun many => ?_⟩
    · exact proper ⟨all, Or.inr ⟨room, enough, Or.inl lone⟩⟩
    · exact proper ⟨all, Or.inr ⟨room, enough, Or.inr (Or.inl lone)⟩⟩
    · exact proper ⟨all, Or.inr ⟨room, enough, Or.inr (Or.inr many)⟩⟩
  rw [loneStart_iff found, loneEnd_iff found, innerPieces_eq found] at tidy
  by_cases member : [] ∈ inner
  · obtain ⟨front, back, rfl, absent⟩ := last_empty member
    obtain ⟨all, few, rfl⟩ := (ipv6spec_marked found absent bytes).mp read
    rw [length_append, length_cons] at length
    obtain ⟨start, finish, once⟩ := tidy all (by omega) (Or.inr member)
    have before : [] ∉ front := by
      intro twice
      have more := count_pos_iff.mpr twice
      rw [count_append, count_cons_self] at once
      omega
    rw [found] at all
    have left : first = [] → front = [] := by
      intro blank
      have head := not_and_not_right.mp start blank
      cases front with
      | nil => rfl
      | cons next more =>
        rw [cons_append, head?_cons, some.injEq] at head
        exact absurd (mem_cons.mpr (Or.inl head.symm)) before
    have right : last = [] → back = [] := by
      intro blank
      have final := not_and_not_right.mp finish blank
      rw [getLast?_append, getLast?_cons] at final
      rcases eq_nil_or_concat back with none | ⟨more, next, rfl⟩
      · exact none
      · exfalso
        apply absent
        simp at final ⊢
        exact Or.inr final
    rw [forall_mem_cons, append_assoc, forall_mem_append, cons_append, forall_mem_cons] at all
    obtain ⟨ahead, aheadPieces, aheadFew, aheadFine⟩ :=
      side_front (forall_mem_cons.mpr ⟨all.1, all.2.1⟩) before left
    obtain ⟨beyond, beyondPieces, beyondFew, beyondFine⟩ := side_back all.2.2.2 absent right
    have address := Ipv6Address.shortened aheadFine beyondFine (by omega)
    have aheadLength : (padded ahead).length = front.length + 1 := by simp [aheadPieces]
    have beyondLength : (padded beyond).length = back.length + 1 := by simp [beyondPieces]
    rw [← @shortened_bytes _ _ (5 - (front.length + back.length)) (by omega) (by omega),
      ← joined_shortened, aheadPieces, beyondPieces] at address
    rw [← text, found]
    simpa using address
  · obtain ⟨all, six, rfl⟩ := (ipv6spec_plain found member bytes).mp read
    obtain ⟨start, finish, _⟩ := tidy all (by omega) (Or.inl (by omega))
    have address := @Ipv6Address.full (pieces string) ?_ (by omega)
    · rwa [text] at address
    · intro field inside
      refine ⟨all field inside, ?_⟩
      rintro rfl
      rw [found, mem_cons, mem_append, mem_singleton] at inside
      rcases inside with same | within | same
      · exact start ⟨same.symm, fun head => member (mem_of_head? head)⟩
      · exact member within
      · exact finish ⟨same.symm, fun final => member (mem_of_getLast? final)⟩

theorem address_ipv6spec (address : Ipv6Address string bytes) (proper : ¬SingleAtEnd string) :
    ipv6spec string = some bytes := by
  cases address with
  | full fine eight =>
    rename_i fields
    have found : pieces (joined fields) = fields :=
      pieces_joined (by intro none; simp [none] at eight)
        fun field member => (fine field member).toReadable.colon
    have absent : [] ∉ fields := fun member => (fine [] member).some rfl
    rcases pieces_ends (joined fields) with ⟨piece, single⟩ | ⟨first, inner, last, shape⟩
    · simp [found.symm.trans single] at eight
    · have parts := found.symm.trans shape
      have length : fields.length = inner.length + 2 := by simp [parts]
      have plain : [] ∉ inner := by
        intro member
        apply absent
        rw [parts]
        simp [member]
      rw [ipv6spec_plain shape plain, found]
      exact ⟨fun piece member => (fine piece member).toReadable, by omega, rfl⟩
  | shortened before behind few =>
    rename_i front back
    obtain ⟨first, inside, beyond, last, shape, left, right, noInside, noBeyond, _, _⟩ :=
      shortened_shape before behind
    have leftLength : (padded front).length = inside.length + 1 := by simp [left]
    have rightLength : (padded back).length = beyond.length + 1 := by simp [right]
    have room : (padded front).length + (padded back).length ≤ 7 := by
      have apart := pieces_shortened before behind
      by_cases noFront : front = []
      · subst noFront
        by_cases noBack : back = []
        · subst noBack
          decide
        · rw [padded, if_pos rfl, padded, if_neg noBack] at apart ⊢
          have seven : back.length ≠ 7 := fun seven =>
            proper ⟨back, seven, fun field member => (behind field member).some, Or.inl apart⟩
          simp only [length_singleton, length_nil] at few ⊢
          omega
      · by_cases noBack : back = []
        · subst noBack
          rw [padded, if_neg noFront, padded, if_pos rfl] at apart ⊢
          have seven : front.length ≠ 7 := fun seven =>
            proper ⟨front, seven, fun field member => (before field member).some, Or.inr apart⟩
          simp only [length_singleton, length_nil] at few ⊢
          omega
        · rw [padded, if_neg noFront, padded, if_neg noBack]
          omega
    rw [ipv6spec_marked shape noBeyond, shape, ← @shortened_bytes _ _
      (5 - (inside.length + beyond.length)) (by omega) few, left, right]
    refine ⟨?_, by omega, rfl⟩
    intro piece member
    rw [cons_append, append_assoc, cons_append, ← cons_append, ← left,
      ← right, mem_append, mem_cons] at member
    have side : ∀ fields : List Bytes, (∀ field ∈ fields, Hextet field) →
        piece ∈ padded fields → Readable piece := by
      intro fields fine inPadded
      rcases padded_mem inPadded with within | rfl
      · exact (fine piece within).toReadable
      · exact readable_nil
    rcases member with inFront | rfl | inBack
    · exact side front before inFront
    · exact readable_nil
    · exact side back behind inBack

theorem single_unread (all : ∀ piece ∈ pieces string, Readable piece) (single : SingleAtEnd string) :
    (∃ bytes, Ipv6Address string bytes) ∧ ∀ bytes, ipv6spec string ≠ some bytes := by
  obtain ⟨fields, seven, some, ends⟩ := single
  have text : joined (pieces string) = string := joined_pieces string
  have none : fields ≠ [] := by
    intro none
    simp [none] at seven
  have long : (pieces string).length = 9 := by
    rcases ends with found | found
    · simp [found, seven]
    · simp [found, seven]
  have fine : ∀ field ∈ fields, Hextet field := by
    intro field member
    refine ⟨all field ?_, some field member⟩
    rcases ends with found | found
    · simp [found, member]
    · simp [found, member]
  constructor
  · rcases ends with found | found
    · have address := @Ipv6Address.shortened [] _ (by simp) fine (by simp [seven])
      rw [← joined_shortened, padded, if_pos rfl, padded, if_neg none] at address
      rw [← text, found]
      exact ⟨_, address⟩
    · have address := @Ipv6Address.shortened _ [] fine (by simp) (by simp [seven])
      rw [← joined_shortened, padded, if_neg none, padded, if_pos rfl] at address
      rw [← text, found]
      exact ⟨_, address⟩
  · intro bytes read
    obtain ⟨first, rest, found⟩ := exists_cons_of_ne_nil (splitOn_ne_nil 58 string)
    rw [← pieces] at found
    have room := ((ipv6spec_pieces found bytes).mp read).2.1
    rw [found, length_cons] at long
    omega

end Reading

/-- The string is read as the address it spells, and as nothing else, exactly if it is none
of those that are misread. -/
theorem ipv6spec_iff (string : Bytes) :
    (∀ bytes, ipv6spec string = some bytes ↔ Ipv6Address string bytes) ↔ ¬Misread string := by
  constructor
  · rintro agrees ⟨all, single | ⟨room, enough, stray⟩⟩
    · obtain ⟨⟨bytes, address⟩, unread⟩ := single_unread all single
      exact unread bytes ((agrees bytes).mpr address)
    · obtain ⟨bytes, read⟩ := ipv6spec_readable all room enough
      obtain ⟨start, finish, once⟩ := ((agrees bytes).mp read).tidy
      rcases stray with lone | lone | many
      · exact start lone
      · exact finish lone
      · omega
  · intro proper bytes
    constructor
    · intro read
      exact ipv6spec_address read proper
    · intro address
      apply address_ipv6spec address
      intro single
      apply proper
      refine ⟨?_, Or.inl single⟩
      cases address with
      | full fine eight =>
        rw [pieces_joined (by intro none; simp [none] at eight)
          fun field member => (fine field member).toReadable.colon]
        exact fun piece member => (fine piece member).toReadable
      | shortened before behind few =>
        rw [pieces_shortened before behind]
        intro piece member
        rw [mem_append, mem_cons] at member
        rcases member with inFront | rfl | inBack
        · rcases padded_mem inFront with within | rfl
          · exact (before piece within).toReadable
          · exact readable_nil
        · exact readable_nil
        · rcases padded_mem inBack with within | rfl
          · exact (behind piece within).toReadable
          · exact readable_nil

/-- The text `1::2::3` is read, with the first `::` as one field of zeros. -/
theorem ipv6spec_twice :
    ¬∀ bytes, ipv6spec [49, 58, 58, 50, 58, 58, 51] = some bytes ↔
      Ipv6Address [49, 58, 58, 50, 58, 58, 51] bytes := by
  intro agrees
  have read : ipv6spec [49, 58, 58, 50, 58, 58, 51] =
      some [0, 1, 0, 0, 0, 2, 0, 0, 0, 0, 0, 0, 0, 0, 0, 3] := by decide
  have once := ((agrees _).mp read).tidy.2.2
  exact absurd once (by decide)

end AthApps.Plc
