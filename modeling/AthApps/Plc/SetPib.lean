import AthApps.Plc.PibEdit
import AthApps.Plc.Rule

/-!
# Raw edits of a parameter information block

`pib/setpib.c` reads a PIB file into a buffer and stores values there, one
behind the other, from an offset on.  All types of values look at the room that
is left but one: `key` stores the bytes its text has.  An edit without a result
ends the program.
-/

set_option autoImplicit false

namespace AthApps.Plc

open AthApps.Lib List Option

/-! ## Numbers of 64 bits -/

@[grind =] def wrapDigits (radix : Nat) : Bytes → Nat → Nat × Bytes
  | [], value => (value, [])
  | c :: rest, value =>
    if todigit c < radix then wrapDigits radix rest ((value * radix + todigit c) % 2 ^ 64)
    else (value, c :: rest)

def wrapNumber : Nat × Bytes → Option Nat
  | (radix, number) =>
    match wrapDigits radix number 0 with
    | (value, []) => some value
    | _ => none

variable (string : Bytes)

/-- `basespec` of eight bytes to any base: no value is above its limit. -/
def hugespec : Option Nat := wrapNumber (announcedRadix 10 string)

/-- The radix of `uintspec` and the text behind its announcement. -/
def uintRadix : Bytes → Nat × Bytes
  | 48 :: c :: rest =>
    if c = 98 ∨ c = 66 then (2, rest)
    else if c = 120 ∨ c = 88 then (16, rest)
    else (10, c :: rest)
  | [48] => (10, [])
  | text => (10, text)

def uintValue : Option Nat := wrapNumber (uintRadix string)

def uintspec (minimum maximum : Nat) : Option Nat :=
  (uintValue string).filter fun value => minimum ≤ value ∧ value ≤ maximum

/-! ## Edits -/

/-- What an edit stores from `memory` on, and what it returns. -/
structure Edit where
  bytes : Bytes
  advance : Option Nat
  deriving DecidableEq

def Edit.exit : Edit := ⟨[], none⟩

/-- The loop of `bytespec` and `dataspec`: the bytes that it stores and the text
it leaves, if it does not end the program.  Behind the text is a zero, which is
no digit. -/
@[grind =] def hexBytes : Nat → Bool → Bytes → Bytes × Option Bytes
  | 0, _, number => ([], some number)
  | _ + 1, _, [] => ([], some [])
  | extent + 1, first, c :: rest =>
    let number := if first = false ∧ c = 58 then rest else c :: rest
    let high := todigit (number.headD 0)
    let low := todigit (number.tail.headD 0)
    if 16 ≤ high then ([], none)
    -- the upper half is stored before the lower one is read
    else if 16 ≤ low then ([UInt8.ofNat (high * 16)], none)
    else
      let (bytes, left) := hexBytes extent false (number.drop 2)
      (UInt8.ofNat (high * 16 + low) :: bytes, left)

/-- `bytespec` with what it stores before it ends the program. -/
def bytespecEdit (extent : Nat) : Edit :=
  let (bytes, left) := hexBytes extent true (string.dropWhile isSpace)
  ⟨bytes, left.bind fun left =>
    if left.dropWhile isSpace = [] ∧ bytes.length = extent then some bytes.length else none⟩

def dataspec (extent : Nat) : Edit :=
  let (bytes, left) := hexBytes extent true string
  ⟨bytes, left.bind fun left => if left = [] then some bytes.length else none⟩

inductive EditType
  | byte
  | word
  | long
  | huge
  | hfid
  | key
  | hex
  | data
  | zero
  | fill
  | skip
  deriving DecidableEq

def editTypes : List (EditType × String) :=
  [(.byte, "byte"), (.word, "word"), (.long, "long"), (.huge, "huge"), (.hfid, "hfid"),
    (.key, "key"), (.hex, "hex"), (.data, "data"), (.zero, "zero"), (.fill, "fill"),
    (.skip, "skip")]

def editType (type : Bytes) : Option EditType :=
  (editTypes.find? fun item => letters item.2 = type).map Prod.fst

def pibHfidLen : Nat := 64

/-- A little endian number of `size` bytes. -/
def numberEdit (size extent : Nat) (number : Option Nat) : Edit :=
  if extent < size then .exit
  else
    match number with
    | some value => ⟨(bigEndian size value).reverse, some size⟩
    | none => .exit

def hfidEdit (data : Bytes) (extent : Nat) : Edit :=
  if extent < pibHfidLen then .exit
  else
    let string := data.take (pibHfidLen - 1)
    ⟨string ++ List.replicate (pibHfidLen - string.length) 0, some pibHfidLen⟩

def fillEdit (byte : UInt8) (extent : Option Nat) : Edit :=
  match extent with
  | some extent => ⟨List.replicate extent byte, some extent⟩
  | none => .exit

def setpib (type data : Bytes) (extent : Nat) : Edit :=
  match editType type with
  | some .byte => numberEdit 1 extent (basespec data 0 1)
  | some .word => numberEdit 2 extent (basespec data 0 2)
  | some .long => numberEdit 4 extent (basespec data 0 4)
  | some .huge => numberEdit 8 extent (hugespec data)
  | some .hfid => hfidEdit data extent
  | some .key => bytespecEdit data 16
  | some .hex => dataspec data extent
  | some .data => dataspec data extent
  | some .zero => fillEdit 0 (uintspec data 0 extent)
  | some .fill => fillEdit 0xFF (uintspec data 0 extent)
  | some .skip => ⟨[], uintspec data 0 extent⟩
  | none => .exit

/-! ## The program -/

/-- The memory from `buffer` on, the pointer into it, and every place where
something was stored. -/
structure Editor where
  buffer : Bytes
  memory : Nat
  stored : List Nat
  deriving DecidableEq

def Editor.store (editor : Editor) (place : Nat) (bytes : Bytes) : Editor :=
  { editor with
    buffer := overlay editor.buffer place bytes
    stored := editor.stored ++ List.range' place bytes.length }

def remaining (extent memory : Nat) : Nat := (((extent : Int) - memory) % 2 ^ 32).toNat

@[grind =] def edits (extent : Nat) : List Bytes → Editor → Editor × Bool
  | type :: data :: rest, editor =>
    let edit := setpib type data (remaining extent editor.memory)
    let editor := editor.store editor.memory edit.bytes
    match edit.advance with
    | some size => edits extent rest { editor with memory := editor.memory + size }
    | none => (editor, false)
  | [_], editor => (editor, false)
  | [], editor => (editor, true)

def repairChecksum (extent : Nat) (editor : Editor) : Editor :=
  let editor := editor.store 8 Word.zero.toBytes
  editor.store 8 (checksum32 (editor.buffer.take extent) Word.zero).toBytes

/-- `finish` is the last position of a run that completes, and `file` what the
file has after the run. -/
structure SetpibRun where
  stored : List Nat
  finish : Option Nat
  file : Bytes
  deriving DecidableEq

/-- `main` of `setpib.c` behind its options; `repair` says that one of them was
`x`, and `argv` has the words behind the name of the file. -/
def setpibMain (repair : Bool) (content : Bytes) (argv : List Bytes) : SetpibRun :=
  let extent := content.length % 2 ^ 32
  let buffer := content.take extent
  if extent ≠ le16toh (slice buffer 4 2) then ⟨[], none, content⟩
  else if repair = false ∧ checksum32 buffer Word.zero ≠ Word.zero then ⟨[], none, content⟩
  else
    match argv with
    | [] => ⟨[], none, content⟩
    | start :: argv =>
      match basespec start 16 4 with
      | none => ⟨[], none, content⟩
      | some offset =>
        if extent ≤ offset then ⟨[], none, content⟩
        else
          let (editor, complete) := edits extent argv ⟨buffer, offset, []⟩
          if complete = false then ⟨editor.stored, none, content⟩
          else if repair = false ∧ argv = [] then
            ⟨editor.stored, some editor.memory, content⟩
          else
            let editor := repairChecksum extent editor
            ⟨editor.stored, some editor.memory, editor.buffer.take extent⟩

/-! ## What is asked of it -/

/-- The program stores inside the file, and a file it leaves behind is a valid
block with the old bytes, up to `CHECKSUM` and the edited ones. -/
structure StaysInside (file : NamedFile) (offset : Nat) (run : SetpibRun) : Prop where
  stores : ∀ place ∈ run.stored, place < file.content.length
  valid : ∀ finish, run.finish = some finish → slice run.file 4 2 = slice file.content 4 2 →
      (∃ checked, pibfile { file with file := ⟨run.file, 0⟩ } = .ok checked) ∧
        SameOutside (fun index => PibField.checksum.Covers index ∨
          offset ≤ index ∧ index < finish) file.content run.file

/-- The bytes that a text begins: both digits of a byte, or the upper one and
something else. -/
@[grind =] def begunBytes : Bytes → Nat
  | [] => 0
  | high :: rest =>
    if 16 ≤ todigit high then 0
    else
      match rest with
      | [] => 1
      | low :: 58 :: more => if 16 ≤ todigit low then 1 else begunBytes more + 1
      | low :: more => if 16 ≤ todigit low then 1 else begunBytes more + 1

def keyBytes (data : Bytes) : Nat := min 16 (begunBytes (data.dropWhile isSpace))

/-- The bytes a well formed edit passes over where there is room for them. -/
def editSize (type data : Bytes) : Option Nat :=
  match editType type with
  | some .byte => (basespec data 0 1).map fun _ => 1
  | some .word => (basespec data 0 2).map fun _ => 2
  | some .long => (basespec data 0 4).map fun _ => 4
  | some .huge => (hugespec data).map fun _ => 8
  | some .hfid => some pibHfidLen
  | some .key => (bytespec data 16).map fun _ => 16
  | some .hex => (dataspec data data.length).advance
  | some .data => (dataspec data data.length).advance
  | some .zero => uintValue data
  | some .fill => uintValue data
  | some .skip => uintValue data
  | none => none

/-- Each key that is come to has room for what its text begins. -/
def KeysFit (extent : Nat) : List Bytes → Nat → Prop
  | type :: data :: rest, memory =>
    (editType type = some .key → memory + keyBytes data ≤ extent) ∧
      ∀ size, editSize type data = some size → memory + size ≤ extent →
        KeysFit extent rest (memory + size)
  | _, _ => True

/-! ## The loop over the digits -/

theorem not_digit_end : 16 ≤ todigit 0 := by decide

theorem begunBytes_pair (high low : UInt8) (more : Bytes) :
    begunBytes (high :: low :: more) =
      if 16 ≤ todigit high then 0
      else if 16 ≤ todigit low then 1
      else begunBytes (if more.head? = some 58 then more.tail else more) + 1 := by
  rw [begunBytes.eq_def]
  simp only
  split
  next => rfl
  next =>
    cases more with
    | nil => simp [begunBytes]
    | cons c rest =>
      by_cases colon : c = 58
      · simp [colon]
      · simp [colon]

theorem hexBytes_length (extent : Nat) (first : Bool) (text : Bytes) :
    (hexBytes extent first text).1.length =
      min extent (begunBytes (if first = false ∧ text.head? = some 58 then text.tail else text)) := by
  induction extent generalizing first text with
  | zero => simp [hexBytes]
  | succ extent ih =>
    cases text with
    | nil => simp [hexBytes, begunBytes]
    | cons c rest =>
      simp only [hexBytes, head?_cons, Option.some.injEq, tail_cons]
      generalize (if first = false ∧ c = 58 then rest else c :: rest) = number
      have behind := not_digit_end
      match number with
      | [] => simp [begunBytes, behind]
      | [high] =>
        by_cases upper : 16 ≤ todigit high
        · simp [begunBytes, upper]
        · simp [begunBytes, upper, behind]
      | high :: low :: more =>
        rw [begunBytes_pair]
        by_cases upper : 16 ≤ todigit high
        · simp [upper]
        by_cases lower : 16 ≤ todigit low
        · simp [upper, lower]
        have later := ih false more
        simp only [true_and] at later
        simp [upper, lower, later]

variable {extent : Nat} {first : Bool}

variable {bytes left text type : Bytes}

theorem hexBytes_pass {c : UInt8} {rest : Bytes}
    (reads : hexBytes (extent + 1) first (c :: rest) = (bytes, some left)) :
    ∃ high low more others,
      (if first = false ∧ c = 58 then rest else c :: rest) = high :: low :: more ∧
        bytes = UInt8.ofNat (todigit high * 16 + todigit low) :: others ∧
        hexBytes extent false more = (others, some left) ∧
        ∀ room, hexBytes (room + 1) first (c :: rest) =
          (UInt8.ofNat (todigit high * 16 + todigit low) :: (hexBytes room false more).1,
            (hexBytes room false more).2) := by
  simp only [hexBytes] at reads ⊢
  generalize (if first = false ∧ c = 58 then rest else c :: rest) = number at reads ⊢
  by_cases upper : 16 ≤ todigit (number.headD 0)
  · rw [if_pos upper] at reads
    simp at reads
  by_cases lower : 16 ≤ todigit (number.tail.headD 0)
  · rw [if_neg upper, if_pos lower] at reads
    simp at reads
  match number with
  | [] => exact absurd not_digit_end upper
  | [high] => exact absurd not_digit_end lower
  | high :: low :: more =>
    rw [if_neg upper, if_neg lower] at reads
    obtain ⟨rfl, rest_left⟩ := Prod.mk.inj reads
    refine ⟨high, low, more, _, rfl, rfl, Prod.ext rfl rest_left, fun room => ?_⟩
    rw [if_neg upper, if_neg lower]
    rfl

theorem hexBytes_room (reads : hexBytes extent first text = (bytes, some [])) {room : Nat}
    (fits : bytes.length ≤ room) : hexBytes room first text = (bytes, some []) := by
  induction extent generalizing first text bytes room with
  | zero =>
    simp only [hexBytes, Prod.mk.injEq, Option.some.injEq] at reads
    obtain ⟨rfl, rfl⟩ := reads
    cases room <;> rfl
  | succ extent ih =>
    cases text with
    | nil =>
      obtain ⟨rfl, -⟩ := Prod.mk.inj reads
      cases room <;> rfl
    | cons c rest =>
      obtain ⟨high, low, more, others, -, rfl, later, passes⟩ := hexBytes_pass reads
      cases room with
      | zero => simp at fits
      | succ room => rw [passes, ih later (Nat.le_of_succ_le_succ fits)]

theorem hexBytes_le (reads : hexBytes extent first text = (bytes, some left)) :
    bytes.length ≤ text.length := by
  induction extent generalizing first text bytes with
  | zero =>
    obtain ⟨rfl, -⟩ := Prod.mk.inj reads
    exact Nat.zero_le _
  | succ extent ih =>
    cases text with
    | nil =>
      obtain ⟨rfl, -⟩ := Prod.mk.inj reads
      exact Nat.zero_le _
    | cons c rest =>
      obtain ⟨high, low, more, others, number, rfl, later, -⟩ := hexBytes_pass reads
      have shorter : (high :: low :: more).length ≤ (c :: rest).length := by
        rw [← number]
        split <;> simp
      have others_le := ih later
      simp only [length_cons] at shorter ⊢
      omega

theorem hexBytes_bytespecBytes (extent : Nat) (first : Bool) (text : Bytes) :
    bytespecBytes extent first text =
      (hexBytes extent first text).2.map fun left => ((hexBytes extent first text).1, left) := by
  induction extent generalizing first text with
  | zero => rfl
  | succ extent ih =>
    cases text with
    | nil => rfl
    | cons c rest =>
      simp only [hexBytes, bytespecBytes]
      generalize (if first = false ∧ c = 58 then rest else c :: rest) = number
      rcases number with _ | ⟨high, _ | ⟨low, more⟩⟩
      · simp [not_digit_end]
      · by_cases upper : 16 ≤ todigit high
        · simp [upper]
        · simp [upper, not_digit_end]
      · by_cases upper : 16 ≤ todigit high
        · simp [upper, Nat.not_lt.mpr upper]
        by_cases lower : 16 ≤ todigit low
        · simp [upper, lower, Nat.not_lt.mpr lower]
        · simp [upper, lower, Nat.not_le.mp upper, Nat.not_le.mp lower, ih, Option.map_map]
          rfl

/-! ## One edit -/

/-- An edit that stores within its room and passes over what it stores. -/
structure Edit.Fits (edit : Edit) (size : Option Nat) (extent : Nat) : Prop where
  inside : edit.bytes.length ≤ extent
  passes : ∀ n, edit.advance = some n ↔ size = some n ∧ n ≤ extent
  covers : ∀ n, edit.advance = some n → edit.bytes.length ≤ n

theorem exit_fits {size : Option Nat} (beyond : ∀ n, size = some n → extent < n) :
    Edit.exit.Fits size extent := by
  constructor
  · exact Nat.zero_le _
  · intro n
    simp only [Edit.exit, reduceCtorEq, false_iff, not_and, Nat.not_le]
    exact beyond n
  · intro n passed
    cases passed

theorem numberEdit_fits (size extent : Nat) (number : Option Nat) :
    (numberEdit size extent number).Fits (number.map fun _ => size) extent := by
  unfold numberEdit
  split
  next beyond =>
    refine exit_fits fun n some => ?_
    obtain ⟨_, -, rfl⟩ := map_eq_some_iff.mp some
    exact beyond
  next room =>
    cases number with
    | none => exact exit_fits (by simp)
    | some value =>
      have length : (bigEndian size value).reverse.length = size := by simp [bigEndian]
      constructor
      · simp only [length]
        exact Nat.not_lt.mp room
      · intro n
        simp only [Option.some.injEq, map_some]
        omega
      · intro n passed
        rw [← Option.some.inj passed]
        exact Nat.le_of_eq length

variable (data : Bytes)

theorem hfidEdit_fits (extent : Nat) : (hfidEdit data extent).Fits (some pibHfidLen) extent := by
  unfold hfidEdit
  split
  next beyond =>
    refine exit_fits fun n some => ?_
    rwa [← Option.some.inj some]
  next room =>
    have length : (data.take (pibHfidLen - 1) ++ List.replicate
        (pibHfidLen - (data.take (pibHfidLen - 1)).length) (0 : UInt8)).length = pibHfidLen := by
      simp only [length_append, length_replicate, length_take]
      omega
    constructor
    · simp only [length]
      exact Nat.not_lt.mp room
    · intro n
      simp only [Option.some.injEq]
      omega
    · intro n passed
      rw [← Option.some.inj passed]
      exact Nat.le_of_eq length

theorem uintspec_eq_some (extent n : Nat) :
    uintspec data 0 extent = some n ↔ uintValue data = some n ∧ n ≤ extent := by
  simp [uintspec, filter_eq_some_iff]

theorem fillEdit_fits (byte : UInt8) (data : Bytes) (extent : Nat) :
    (fillEdit byte (uintspec data 0 extent)).Fits (uintValue data) extent := by
  have values := uintspec_eq_some data extent
  cases spec : uintspec data 0 extent with
  | none =>
    refine exit_fits fun n some => ?_
    refine Nat.not_le.mp fun room => ?_
    have spelled := (values n).mpr ⟨some, room⟩
    rw [spec] at spelled
    cases spelled
  | some value =>
    rw [spec] at values
    have length : (fillEdit byte (some value)).bytes.length = value := length_replicate
    refine ⟨?_, values, fun n passed => ?_⟩
    · rw [length]
      exact ((values value).mp rfl).2
    · exact Nat.le_of_eq (length.trans (Option.some.inj passed))

theorem skip_fits (extent : Nat) : Edit.Fits ⟨[], uintspec data 0 extent⟩ (uintValue data) extent :=
  ⟨Nat.zero_le _, uintspec_eq_some data extent, fun _ _ => Nat.zero_le _⟩

theorem dataspec_eq_some (extent n : Nat) : (dataspec data extent).advance = some n ↔
      ∃ bytes, hexBytes extent true data = (bytes, some []) ∧ bytes.length = n := by
  simp only [dataspec]
  constructor
  · intro passed
    obtain ⟨left, some, ended⟩ := bind_eq_some_iff.mp passed
    split at ended
    next none => exact ⟨_, Prod.ext rfl (by rw [some, none]), Option.some.inj ended⟩
    next => cases ended
  · rintro ⟨bytes, reads, rfl⟩
    simp [reads]

theorem hexBytes_length_le (extent : Nat) (first : Bool) (text : Bytes) :
    (hexBytes extent first text).1.length ≤ extent := by
  rw [hexBytes_length]
  exact Nat.min_le_left _ _

theorem dataspec_fits (extent : Nat) :
    (dataspec data extent).Fits (dataspec data data.length).advance extent := by
  constructor
  · exact hexBytes_length_le extent true data
  · intro n
    rw [dataspec_eq_some, dataspec_eq_some]
    constructor
    · rintro ⟨bytes, reads, rfl⟩
      refine ⟨⟨bytes, hexBytes_room reads (hexBytes_le reads), rfl⟩, ?_⟩
      have room := hexBytes_length_le extent true data
      rwa [reads] at room
    · rintro ⟨⟨bytes, reads, rfl⟩, room⟩
      exact ⟨bytes, hexBytes_room reads room, rfl⟩
  · intro n passed
    obtain ⟨bytes, reads, rfl⟩ := (dataspec_eq_some data extent n).mp passed
    simp [dataspec, reads]

theorem setpib_fits (type data : Bytes) (extent : Nat) (other : editType type ≠ some .key) :
    (setpib type data extent).Fits (editSize type data) extent := by
  unfold setpib editSize
  cases known : editType type with
  | none => exact exit_fits (by simp)
  | some edit =>
    cases edit with
    | byte => exact numberEdit_fits 1 extent _
    | word => exact numberEdit_fits 2 extent _
    | long => exact numberEdit_fits 4 extent _
    | huge => exact numberEdit_fits 8 extent _
    | hfid => exact hfidEdit_fits data extent
    | key => exact absurd known other
    | hex => exact dataspec_fits data extent
    | data => exact dataspec_fits data extent
    | zero => exact fillEdit_fits 0 data extent
    | fill => exact fillEdit_fits 0xFF data extent
    | skip => exact skip_fits data extent

theorem setpib_key (key : editType type = some .key) (data : Bytes) (extent : Nat) :
    (setpib type data extent).bytes.length = keyBytes data ∧
      (setpib type data extent).advance = editSize type data ∧
      ∀ n, (setpib type data extent).advance = some n →
        (setpib type data extent).bytes.length = n := by
  simp only [setpib, editSize, key]
  refine ⟨?_, ?_, fun n passed => ?_⟩
  · simp [bytespecEdit, hexBytes_length, keyBytes]
  · simp only [bytespecEdit, bytespec, hexBytes_bytespecBytes]
    cases (hexBytes 16 true (data.dropWhile isSpace)).2 with
    | none => rfl
    | some left =>
      simp only [bind_some, map_some]
      split
      next whole => simp [whole.2]
      next => rfl
  · obtain ⟨left, -, ended⟩ := bind_eq_some_iff.mp passed
    split at ended
    next => exact Option.some.inj ended
    next => cases ended

/-! ## The loop over the pairs -/

theorem remaining_eq {extent memory : Nat} (small : extent < 2 ^ 32) (inside : memory ≤ extent) :
    remaining extent memory = extent - memory := by
  unfold remaining
  omega

variable {editor : Editor}

theorem mem_store {place other : Nat} :
    other ∈ (editor.store place bytes).stored ↔
      other ∈ editor.stored ∨ place ≤ other ∧ other < place + bytes.length := by
  simp [Editor.store, mem_range'_1]

theorem edits_stored (extent : Nat) (argv : List Bytes) (editor : Editor) :
    ∀ place ∈ editor.stored, place ∈ (edits extent argv editor).1.stored := by
  intro place stored
  fun_induction edits extent argv editor with
  | case1 type data rest editor edit next size advance ih => exact ih (mem_store.mpr (.inl stored))
  | case2 type data rest editor edit next advance => exact mem_store.mpr (.inl stored)
  | case3 word editor => exact stored
  | case4 editor => exact stored

section Step

variable {type data : Bytes} {memory extent : Nat}

theorem setpib_inside (small : extent < 2 ^ 32) (inside : memory ≤ extent)
    (fit : editType type = some .key → memory + keyBytes data ≤ extent) :
    memory + (setpib type data (remaining extent memory)).bytes.length ≤ extent ∧
      ∀ n, (setpib type data (remaining extent memory)).advance = some n →
        (setpib type data (remaining extent memory)).bytes.length ≤ n ∧ memory + n ≤ extent ∧
          editSize type data = some n := by
  by_cases key : editType type = some .key
  · obtain ⟨length, size, whole⟩ := setpib_key key data (remaining extent memory)
    have room := fit key
    refine ⟨by rw [length]; exact room, fun n passed => ⟨Nat.le_of_eq (whole n passed), ?_, ?_⟩⟩
    · rw [← whole n passed, length]
      exact room
    · rw [← size, passed]
  · rw [remaining_eq small inside]
    have fits := setpib_fits type data (extent - memory) key
    refine ⟨Nat.add_le_of_le_sub' inside fits.inside, fun n passed => ⟨fits.covers n passed, ?_⟩⟩
    obtain ⟨size, room⟩ := (fits.passes n).mp passed
    exact ⟨Nat.add_le_of_le_sub' inside room, size⟩

theorem setpib_passes (small : extent < 2 ^ 32) {n : Nat} (size : editSize type data = some n)
    (room : memory + n ≤ extent) :
    (setpib type data (remaining extent memory)).advance = some n := by
  by_cases key : editType type = some .key
  · rw [(setpib_key key data _).2.1, size]
  · rw [remaining_eq small (by omega)]
    exact ((setpib_fits type data (extent - memory) key).passes n).mpr ⟨size, by omega⟩

end Step

variable {extent : Nat}

/-- Without a key that is too long the edits store in the buffer, from the
pointer on and up to the pointer they leave. -/
theorem edits_inside (small : extent < 2 ^ 32) (argv : List Bytes)
    (editor : Editor) (length : editor.buffer.length = extent) (inside : editor.memory ≤ extent)
    (fit : KeysFit extent argv editor.memory) (within : ∀ place ∈ editor.stored, place < extent) :
    (edits extent argv editor).1.buffer.length = extent ∧
      (∀ place ∈ (edits extent argv editor).1.stored, place < extent) ∧
      ((edits extent argv editor).2 = true → editor.memory ≤ (edits extent argv editor).1.memory ∧
          SameOutside (fun index => editor.memory ≤ index ∧
              index < (edits extent argv editor).1.memory)
            editor.buffer (edits extent argv editor).1.buffer) := by
  fun_induction edits extent argv editor with
  | case1 type data rest editor edit next size advance ih =>
    have here : editor.memory + edit.bytes.length ≤ extent := (setpib_inside small inside fit.1).1
    obtain ⟨covers, room, known⟩ := (setpib_inside small inside fit.1).2 size advance
    have stores : ∀ place ∈ next.stored, place < extent := by
      intro place stored
      rcases mem_store.mp stored with before | now
      · exact within place before
      · exact Nat.lt_of_lt_of_le now.2 here
    have sameLength : next.buffer.length = extent :=
      (overlay_length_of_le _ _ _ (by rw [length]; exact here)).trans length
    obtain ⟨size_eq, places, frame⟩ := ih sameLength room (fit.2 size known room) stores
    refine ⟨size_eq, places, fun complete => ?_⟩
    obtain ⟨grows, later⟩ := frame complete
    have start : editor.memory ≤ editor.memory + size := Nat.le_add_right _ _
    refine ⟨Nat.le_trans start grows, SameOutside.trans (SameOutside.mono
      (SameOutside.overlay _ _ _ (by rw [length]; exact here)) ?_) (later.mono ?_)⟩
    · rintro index ⟨low, high⟩
      have reached : editor.memory + edit.bytes.length ≤ editor.memory + size :=
        Nat.add_le_add_left covers _
      exact ⟨low, Nat.lt_of_lt_of_le high (Nat.le_trans reached grows)⟩
    · rintro index ⟨low, high⟩
      exact ⟨Nat.le_trans start low, high⟩
  | case2 type data rest editor edit next advance =>
    have here : editor.memory + edit.bytes.length ≤ extent := (setpib_inside small inside fit.1).1
    refine ⟨?_, ?_, fun complete => by cases complete⟩
    · exact (overlay_length_of_le _ _ _ (by rw [length]; exact here)).trans length
    · intro place stored
      rcases mem_store.mp stored with before | now
      · exact within place before
      · exact Nat.lt_of_lt_of_le now.2 here
  | case3 word editor => exact ⟨length, within, fun complete => by cases complete⟩
  | case4 editor => exact ⟨length, within, fun _ => ⟨Nat.le_refl _, SameOutside.refl _ _⟩⟩

theorem store_outside {data : Bytes} (inside : editor.memory ≤ extent)
    (key : editType type = some .key) (long : extent < editor.memory + keyBytes data) (room : Nat) :
    extent ∈ (editor.store editor.memory (setpib type data room).bytes).stored := by
  rw [mem_store, (setpib_key key data room).1]
  exact .inr ⟨inside, long⟩

theorem edits_outside (small : extent < 2 ^ 32) (argv : List Bytes)
    (editor : Editor) (inside : editor.memory ≤ extent)
    (long : ¬KeysFit extent argv editor.memory) :
    extent ∈ (edits extent argv editor).1.stored := by
  fun_induction edits extent argv editor with
  | case1 type data rest editor edit next size advance ih =>
    by_cases here : editType type = some .key ∧ extent < editor.memory + keyBytes data
    · exact edits_stored _ _ _ _ (store_outside inside here.1 here.2 _)
    · have fit : editType type = some .key → editor.memory + keyBytes data ≤ extent := by
        intro key
        exact Nat.not_lt.mp fun long => here ⟨key, long⟩
      obtain ⟨-, room, known⟩ := (setpib_inside small inside fit).2 size advance
      refine ih room fun later => long ⟨fit, fun n other _ => ?_⟩
      obtain rfl : size = n := Option.some.inj (known.symm.trans other)
      exact later
  | case2 type data rest editor edit next advance =>
    by_cases here : editType type = some .key ∧ extent < editor.memory + keyBytes data
    · exact store_outside inside here.1 here.2 _
    · refine absurd ⟨fun key => ?_, fun n size room => ?_⟩ long
      · exact Nat.not_lt.mp fun long => here ⟨key, long⟩
      · have passed := setpib_passes small size room
        rw [passed] at advance
        cases advance
  | case3 word editor => exact absurd trivial long
  | case4 editor => exact absurd trivial long

/-! ## The checksum -/

theorem pibfile_content (pib : NamedFile) (aligned : pib.content.length % 4 = 0) :
    (∃ checked, pibfile pib = .ok checked) ↔ simplePibSize ≤ pib.content.length ∧
        pib.content.length = le16toh (slice pib.content 4 2) ∧
        checksum32 pib.content Word.zero = Word.zero := by
  have words : pib.content.length = 4 * (pib.content.length / 4) := by omega
  have sum : (fdchecksum32 (pib.file.seek 0) pib.content.length Word.zero).1 =
      checksum32 pib.content Word.zero := by
    rw [words, fdchecksum32_inside _ _ _ (by rw [← words]; simp [NamedFile.content]), ← words]
    exact congrArg (checksum32 · Word.zero) (slice_all pib.content)
  have field : ∀ header : SimplePib, header.bytes = slice pib.content 0 simplePibSize →
      header.get .pibLength = slice pib.content 4 2 := by
    intro header bytes
    rw [SimplePib.get, bytes, slice_slice _ _ _ _ _ PibField.pibLength.inside]
    rfl
  rw [pibfile_ok_iff]
  constructor
  · rintro ⟨header, found, length, zero⟩
    obtain ⟨bytes, large⟩ := readSimplePib_some _ _ found
    rw [← length, sum] at zero
    rw [field header bytes] at length
    exact ⟨large, length, zero⟩
  · rintro ⟨large, length, zero⟩
    obtain ⟨size, found⟩ := readSimplePib_of_le pib.file large
    refine ⟨_, found, ?_⟩
    rw [field _ rfl, ← length, sum]
    exact ⟨rfl, zero⟩

theorem overlay_checksum (bytes : Bytes) (word : Word) (large : 12 ≤ bytes.length) :
    (overlay bytes 8 word.toBytes).length = bytes.length ∧
      SameOutside PibField.checksum.Covers bytes (overlay bytes 8 word.toBytes) :=
  ⟨overlay_length_of_le _ _ _ large, SameOutside.overlay bytes 8 word.toBytes large⟩

theorem repairChecksum_spec (editor : Editor)
    (length : editor.buffer.length = extent) (large : 12 ≤ extent) :
    (repairChecksum extent editor).buffer.length = extent ∧
      checksum32 (repairChecksum extent editor).buffer Word.zero = Word.zero ∧
      SameOutside PibField.checksum.Covers editor.buffer (repairChecksum extent editor).buffer ∧
      ∀ place ∈ (repairChecksum extent editor).stored, place ∈ editor.stored ∨ place < extent := by
  obtain ⟨blankLength, blank⟩ := overlay_checksum editor.buffer Word.zero (by rw [length]; exact large)
  rw [length] at blankLength
  have whole : (overlay editor.buffer 8 Word.zero.toBytes).take extent =
      overlay editor.buffer 8 Word.zero.toBytes :=
    take_of_length_le (Nat.le_of_eq blankLength)
  simp only [repairChecksum, Editor.store, whole]
  obtain ⟨sameLength, sum⟩ := overlay_checksum (overlay editor.buffer 8 Word.zero.toBytes)
    (checksum32 (overlay editor.buffer 8 Word.zero.toBytes) Word.zero)
    (by rw [blankLength]; exact large)
  refine ⟨sameLength.trans blankLength, ?_, blank.trans sum, ?_⟩
  · rw [checksum32, xorSum_overlay _ 2 _ _ (by rw [blankLength]; exact large)
      (slice_overlay_self _ _ _), Word.complement_eq_zero_iff, Word.xor_comm,
      Word.xor_eq_allOnes_iff]
    rfl
  · intro place stored
    simp only [mem_append, mem_range'_1, Word.toBytes_length] at stored
    rcases stored with (before | cleared) | summed
    · exact .inl before
    · exact .inr (by omega)
    · exact .inr (by omega)

/-! ## The program -/

theorem setpibMain_valid {content : Bytes} {start : Bytes} {offset : Nat}
    (length : content.length = le16toh (slice content 4 2))
    (sum : checksum32 content Word.zero = Word.zero) (some : basespec start 16 4 = some offset)
    (below : offset < content.length) (repair : Bool) (argv : List Bytes) :
    setpibMain repair content (start :: argv) =
      let (editor, complete) := edits content.length argv ⟨content, offset, []⟩
      if complete = false then ⟨editor.stored, none, content⟩
      else if repair = false ∧ argv = [] then ⟨editor.stored, .some editor.memory, content⟩
      else
        let editor := repairChecksum content.length editor
        ⟨editor.stored, .some editor.memory, editor.buffer.take content.length⟩ := by
  have small : content.length < 2 ^ 32 := by
    rw [length]
    exact Nat.lt_of_lt_of_le (le16toh_lt _) (by decide)
  unfold setpibMain
  simp only [Nat.mod_eq_of_lt small, take_length, some]
  rw [if_neg (not_not.mpr length), if_neg (by simp [sum]), if_neg (by omega)]

theorem mem_repairChecksum {extent place : Nat} (stored : place ∈ editor.stored) :
    place ∈ (repairChecksum extent editor).stored :=
  mem_store.mpr (.inl (mem_store.mpr (.inl stored)))

/-- The program stores inside the file and leaves a valid block, exactly when
each key that it comes to has room for the bytes its text begins. -/
theorem setpibMain_staysInside_iff (file : NamedFile) (valid : ∃ checked, pibfile file = .ok checked)
    (aligned : file.content.length % 4 = 0) (start : Bytes) (offset : Nat)
    (some : basespec start 16 4 = some offset) (below : offset < file.content.length)
    (repair : Bool) (argv : List Bytes) :
    StaysInside file offset (setpibMain repair file.content (start :: argv)) ↔
      KeysFit file.content.length argv offset := by
  obtain ⟨large, length, sum⟩ := (pibfile_content file aligned).mp valid
  have small : file.content.length < 2 ^ 32 := by
    rw [length]
    exact Nat.lt_of_lt_of_le (le16toh_lt _) (by decide)
  rw [setpibMain_valid length sum some below]
  constructor
  · intro stays
    by_contra long
    have outside := edits_outside small argv ⟨file.content, offset, []⟩ (Nat.le_of_lt below) long
    refine absurd (stays.stores file.content.length ?_) (Nat.lt_irrefl _)
    simp only
    split
    next => exact outside
    next =>
      split
      next => exact outside
      next => exact mem_repairChecksum outside
  · intro fit
    obtain ⟨sameLength, places, frame⟩ := edits_inside small argv ⟨file.content, offset, []⟩ rfl
      (Nat.le_of_lt below) fit (by simp)
    simp only
    split
    next => exact ⟨places, fun finish ended => by cases ended⟩
    next complete =>
      have changed := (frame (Bool.not_eq_false _ ▸ complete)).2
      split
      next idle =>
        refine ⟨places, fun finish ended _ => ⟨?_, SameOutside.refl _ _⟩⟩
        exact (pibfile_content _ aligned).mpr ⟨large, length, sum⟩
      next =>
        obtain ⟨newLength, newSum, repaired, stored⟩ := repairChecksum_spec
          (edits file.content.length argv ⟨file.content, offset, []⟩).1 sameLength
          (Nat.le_trans (by decide) large)
        refine ⟨fun place member => ?_, fun finish ended field => ?_⟩
        · rcases stored place member with before | inside
          · exact places place before
          · exact inside
        · simp only at ended field ⊢
          rw [take_of_length_le (Nat.le_of_eq newLength)] at field ⊢
          refine ⟨(pibfile_content _ ?_).mpr ⟨?_, ?_, newSum⟩, ?_⟩
          · exact (congrArg (· % 4) newLength).trans aligned
          · exact Nat.le_trans large (Nat.le_of_eq newLength.symm)
          · exact newLength.trans (length.trans (congrArg le16toh field.symm))
          · refine SameOutside.trans (changed.mono fun index covered => .inr ?_)
              (repaired.mono fun index covered => .inl covered)
            rw [← Option.some.inj ended]
            exact covered

/-- A key in the last sixteen bytes of a block. -/
theorem setpibMain_staysInside_last :
    StaysInside headerOnlyPib 444 (setpibMain false headerOnlyPib.content
      [letters "1BC", letters "key", letters "000102030405060708090A0B0C0D0E0F"]) :=
  (setpibMain_staysInside_iff headerOnlyPib headerOnlyPib_accepted
    (by rw [headerOnlyPib_length]; rfl) (letters "1BC") 444 (by decide)
    (by rw [headerOnlyPib_length]; decide) false _).mpr
    ⟨fun _ => by rw [headerOnlyPib_length]; decide +kernel, fun _ _ _ => trivial⟩

/-- The same key four bytes later is stored behind the buffer. -/
theorem setpibMain_key_outside :
    (∃ checked, pibfile headerOnlyPib = .ok checked) ∧ headerOnlyPib.content.length = 460 ∧
      basespec (letters "1C0") 16 4 = some 448 ∧
      ¬StaysInside headerOnlyPib 448 (setpibMain false headerOnlyPib.content
        [letters "1C0", letters "key", letters "000102030405060708090A0B0C0D0E0F"]) := by
  refine ⟨headerOnlyPib_accepted, headerOnlyPib_length, by decide, fun stays => ?_⟩
  have inside := stays.stores 463 (by decide +kernel)
  rw [headerOnlyPib_length] at inside
  exact absurd inside (by decide)

end AthApps.Plc
