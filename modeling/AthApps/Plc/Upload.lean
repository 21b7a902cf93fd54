import AthApps.Lib.Patch
import AthApps.Plc.NvmMerge
import AthApps.Plc.PibEdit

/-!
# Writing modules to a device and reading them back

`WriteNVM` and `WritePIB` send a file in blocks of 1024 bytes.  `ReadNVM` and
`ReadPIB` ask for such blocks and have to find the end themselves: the one
follows the image headers, the other takes the length from the first block.
Both read a number of the little endian format without `LE32TOH` or `LE16TOH`,
so they work on a little endian machine only, unless the two bytes of a
parameter block length are the same.
-/

set_option autoImplicit false

namespace AthApps.Plc

open AthApps.Lib List

/-- `VS_MODULE_MAC` and `VS_MODULE_PIB` -/
inductive ModuleId where
  | mac
  | pib
  deriving DecidableEq

def blockSize : Nat := 1024

/-- `struct vs_wr_mod_request` -/
structure WriteRequest where
  moduleId : ModuleId
  mlength : Nat
  moffset : Nat
  mchksum : Word
  mbuffer : Bytes

/-- `struct vs_wr_mod_confirm` -/
structure WriteConfirm where
  mstatus : UInt8
  mlength : Nat
  moffset : Nat

/-- `struct vs_rd_mod_request` -/
structure ReadRequest where
  moduleId : ModuleId
  mlength : Nat
  moffset : Nat

/-- `struct vs_rd_mod_confirm` -/
structure ReadConfirm where
  mstatus : UInt8
  mlength : Nat
  moffset : Nat
  chksum : Word
  buffer : Bytes

/-- What a device makes of a request; `none` where no confirmation arrives. -/
structure PlcDevice (σ : Type) where
  write : σ → WriteRequest → σ × Option WriteConfirm
  read : σ → ReadRequest → σ × Option ReadConfirm

section Host

variable {σ : Type} (device : PlcDevice σ)

/-- The loop of `WriteNVM` and `WritePIB`, with `extent` bytes left. -/
@[grind =]
def writeBlocks (moduleId : ModuleId) (file : Stream) (extent offset : Nat) (state : σ) : Bool × σ :=
  if extent = 0 then (true, state)
  else
    let length := if blockSize > extent then extent else blockSize
    let (buffer, file) := file.read length
    let request : WriteRequest :=
      { moduleId := moduleId
        mlength := length
        moffset := offset
        mchksum := checksum32 buffer Word.zero
        mbuffer := buffer }
    match device.write state request with
    | (state, none) => (false, state)
    | (state, some confirm) =>
      if confirm.mstatus ≠ 0 then (false, state)
      else if confirm.mlength ≠ length then (false, state)
      else if confirm.moffset ≠ offset then (false, state)
      else writeBlocks moduleId file (extent - length) (offset + length) state
termination_by extent
decreasing_by
  by_cases short : blockSize > extent
  · simp only [short, dite_true]
    omega
  · simp only [short, dite_false]
    simp only [blockSize] at short ⊢
    omega

def writeNvm (content : Bytes) (state : σ) : Bool × σ :=
  writeBlocks device .mac ⟨content, 0⟩ content.length 0 state

def writePib (content : Bytes) (state : σ) : Bool × σ :=
  writeBlocks device .pib ⟨content, 0⟩ content.length 0 state

/-- The number in a word of a structure as the machine reads it. -/
def rawWord (bigEndian : Bool) (word : Word) : Nat :=
  if bigEndian then (⟨word.byte3, word.byte2, word.byte1, word.byte0⟩ : Word).toNat else word.toNat

def le32toh (bigEndian : Bool) (raw : Nat) : Nat :=
  if bigEndian then rawWord true (Word.ofNat raw) else raw

/-- `LE16TOH` of a number of 32 bits. -/
def le16tohWide (bigEndian : Bool) (raw : Nat) : Nat :=
  if bigEndian then raw % 256 * 256 + raw / 256 % 256 else raw

/-- One request of a read loop: the block, if it passes the tests. -/
def readBlock (moduleId : ModuleId) (length offset : Nat) (state : σ) : σ × Option Bytes :=
  match device.read state { moduleId := moduleId, mlength := length, moffset := offset } with
  | (state, none) => (state, none)
  | (state, some confirm) =>
    if confirm.mstatus ≠ 0 then (state, none)
    else if confirm.mlength ≠ length then (state, none)
    else if confirm.moffset ≠ offset then (state, none)
    else if checksum32 (confirm.buffer.take length) confirm.chksum ≠ Word.zero then (state, none)
    else (state, some confirm.buffer)

/-- The locals of `ReadNVM`, and the file. -/
structure NvmRead where
  header : Nat
  extent : Nat
  offset : Nat
  file : Stream

/-- The part of a round of `ReadNVM` that looks at a header: `header` and
`extent`. -/
def nvmExtent (bigEndian : Bool) (read : NvmRead) (buffer : Bytes) : Option (Nat × Nat) :=
  if read.offset = read.extent then
    let header := HeaderNvm.ofBytes (buffer.take headerNvmSize)
    if checksum32 (buffer.take headerNvmSize) Word.zero ≠ Word.zero then none
    else if rawWord bigEndian header.headerVersion ≠ nvmHeaderVersion.toNat then none
    else
      some (le16tohWide bigEndian (rawWord bigEndian header.nextHeader),
        read.extent + headerNvmSize + le32toh bigEndian (rawWord bigEndian header.imageLength))
  else some (read.header, read.extent)

/-- The end of a round: the block is saved as far as it belongs to the module. -/
def saveBlock (file : Stream) (offset extent length : Nat) (buffer : Bytes) : Nat × Stream :=
  let length := if offset + length > extent then extent - offset else length
  (length, (file.seek offset).write (buffer.take length))

@[grind =] def readNvmLoop (bigEndian : Bool) : Nat → NvmRead → σ → Option (Bool × Stream)
  | 0, _, _ => none
  | fuel + 1, read, state =>
    match readBlock device .mac blockSize read.offset state with
    | (_, none) => some (false, read.file)
    | (state, some buffer) =>
      match nvmExtent bigEndian read buffer with
      | none => some (false, read.file)
      | some (header, extent) =>
        let (length, file) := saveBlock read.file read.offset extent blockSize buffer
        let offset := read.offset + length
        if header ≠ 0 ∨ offset < extent then
          readNvmLoop bigEndian fuel
            { header := header, extent := extent, offset := offset, file := file } state
        else some (true, file)

def readNvm (bigEndian : Bool) (fuel : Nat) (state : σ) : Option (Bool × Stream) :=
  readNvmLoop device bigEndian fuel { header := 0, extent := 0, offset := 0, file := ⟨[], 0⟩ } state

/-- `header_pib->PIBLENGTH` as the machine reads it. -/
def rawPibLength (bigEndian : Bool) (buffer : Bytes) : Nat :=
  if bigEndian then ntohs (slice buffer 4 2) else le16toh (slice buffer 4 2)

/-- The locals of `ReadPIB`, and the file. -/
structure PibRead where
  extent : Nat
  offset : Nat
  length : Nat
  file : Stream

@[grind =] def readPibLoop (bigEndian : Bool) : Nat → PibRead → σ → Option (Bool × Stream)
  | 0, _, _ => none
  | fuel + 1, read, state =>
    match readBlock device .pib read.length read.offset state with
    | (_, none) => some (false, read.file)
    | (state, some buffer) =>
      let extent :=
        if read.offset = read.extent then rawPibLength bigEndian buffer else read.extent
      let (length, file) := saveBlock read.file read.offset extent read.length buffer
      let offset := read.offset + length
      if offset < extent then
        readPibLoop bigEndian fuel
          { extent := extent, offset := offset, length := length, file := file } state
      else some (true, file)

def readPib (bigEndian : Bool) (fuel : Nat) (state : σ) : Option (Bool × Stream) :=
  readPibLoop device bigEndian fuel
    { extent := 0, offset := 0, length := blockSize, file := ⟨[], 0⟩ } state

end Host

abbrev Modules : Type := ModuleId → Bytes

/-- What is stored in a module from an offset on, with zeros behind its end. -/
def storedBytes (image : Bytes) (offset length : Nat) : Bytes :=
  window (fun index => image.getD index 0) offset length

/-- It stores a block at its offset and returns what is asked for with the
right checksum. -/
def storingDevice : PlcDevice Modules where
  write modules request :=
    (Function.update modules request.moduleId
        (overlay (modules request.moduleId) request.moffset request.mbuffer),
      some { mstatus := 0, mlength := request.mlength, moffset := request.moffset })
  read modules request :=
    let buffer := storedBytes (modules request.moduleId) request.moffset request.mlength
    (modules, some
      { mstatus := 0
        mlength := request.mlength
        moffset := request.moffset
        chksum := checksum32 buffer Word.zero
        buffer := buffer })

theorem window_take (space : Nat → UInt8) (start length extent : Nat) (inside : length ≤ extent) :
    (window space start extent).take length = window space start length := by
  obtain ⟨rest, rfl⟩ := Nat.exists_eq_add_of_le inside
  rw [window_append, take_append_of_le_length (by rw [window_length]),
    take_of_length_le (by rw [window_length])]

@[simp] theorem storedBytes_length (image : Bytes) (offset length : Nat) :
    (storedBytes image offset length).length = length := window_length _ _ _

theorem storedBytes_take (image : Bytes) (offset length extent : Nat)
    (inside : length ≤ extent) :
    (storedBytes image offset extent).take length = storedBytes image offset length :=
  window_take _ _ _ _ inside

theorem storedBytes_inside (front body rest : Bytes) :
    storedBytes (front ++ (body ++ rest)) front.length body.length = body := by
  apply ext_getElem?
  intro index
  by_cases inside : index < body.length
  · rw [storedBytes, window_getElem? _ _ _ _ inside, getD_eq_getElem?_getD,
      getElem?_append_right (Nat.le_add_right _ _), Nat.add_sub_cancel_left,
      getElem?_append_left inside, getElem?_eq_getElem inside]
    rfl
  · rw [List.getElem?_eq_none (by rw [storedBytes_length]; omega),
      List.getElem?_eq_none (by omega)]

theorem storedBytes_front (content tail : Bytes) :
    storedBytes (content ++ tail) 0 content.length = content :=
  storedBytes_inside [] content tail

theorem checksum32_own (buffer : Bytes) :
    checksum32 buffer (checksum32 buffer Word.zero) = Word.zero := by
  have sum := Word.xorSum_xor buffer (checksum32 buffer Word.zero) Word.zero
  rw [Word.xor_zero] at sum
  rw [checksum32, sum, checksum32, Word.xor_comm, Word.xor_complement, Word.xor_self]
  rfl

theorem readBlock_storing (moduleId : ModuleId) (length offset : Nat) (modules : Modules) :
    readBlock storingDevice moduleId length offset modules =
      (modules, some (storedBytes (modules moduleId) offset length)) := by
  have whole : (storedBytes (modules moduleId) offset length).take length =
      storedBytes (modules moduleId) offset length := storedBytes_take _ _ _ _ (Nat.le_refl _)
  simp [readBlock, storingDevice, whole, checksum32_own]

theorem overlay_take (content tail : Bytes) (offset length : Nat)
    (inside : offset + length ≤ content.length) :
    overlay (content.take offset ++ tail) offset (slice content offset length) =
      content.take (offset + length) ++ tail.drop length := by
  have front : (content.take offset).length = offset := by
    rw [length_take]
    omega
  have noHole : offset - (content.take offset ++ tail).length = 0 := by
    rw [length_append, front]
    omega
  have taken : (content.take offset ++ tail).take offset = content.take offset :=
    take_left' front
  have left : (content.take offset ++ tail).drop (offset + length) = tail.drop length := by
    rw [← drop_drop, drop_left' front]
  rw [overlay, noHole, taken, slice_length_of_le _ _ _ inside, left, take_add]
  simp [slice]

/-- The write succeeds and leaves the file at the front of the module, whatever
was stored before. -/
theorem writeBlocks_storing (moduleId : ModuleId) (content : Bytes) :
    ∀ (extent offset : Nat) (modules : Modules) (tail : Bytes),
      offset + extent = content.length → modules moduleId = content.take offset ++ tail →
        ∃ after tail, writeBlocks storingDevice moduleId ⟨content, offset⟩ extent offset modules =
            (true, after) ∧
          after moduleId = content ++ tail := by
  intro extent
  induction extent using Nat.strongRecOn with
  | _ extent ih =>
    intro offset modules tail whole stored
    unfold writeBlocks
    by_cases done : extent = 0
    · rw [if_pos done]
      refine ⟨modules, tail, rfl, ?_⟩
      rw [stored, take_of_length_le (by omega)]
    · rw [if_neg done]
      obtain ⟨length, length_eq⟩ : ∃ length,
          (if blockSize > extent then extent else blockSize) = length := ⟨_, rfl⟩
      have bound : 0 < length ∧ length ≤ extent := by
        rw [← length_eq]
        split
        · omega
        · simp only [blockSize] at *
          omega
      have chunk : (slice content offset length).length = length :=
        slice_length_of_le _ _ _ (by omega)
      simp only [length_eq, Stream.read, chunk, storingDevice, ne_eq, not_true_eq_false, if_false]
      refine ih (extent - length) (by omega) (offset + length) _ (tail.drop length) (by omega) ?_
      rw [Function.update_self, stored, overlay_take _ _ _ _ (by omega)]

theorem writeNvm_storing (content : Bytes) (modules : Modules) :
    ∃ after tail, writeNvm storingDevice content modules = (true, after) ∧
      after .mac = content ++ tail :=
  writeBlocks_storing .mac content content.length 0 modules _ (by omega) rfl

theorem writePib_storing (content : Bytes) (modules : Modules) :
    ∃ after tail, writePib storingDevice content modules = (true, after) ∧
      after .pib = content ++ tail :=
  writeBlocks_storing .pib content content.length 0 modules _ (by omega) rfl

theorem saveBlock_stored (image : Bytes) (file : Stream) (offset extent length : Nat)
    (saved : file.content = storedBytes image 0 offset) (inside : offset ≤ extent) :
    ∃ position, saveBlock file offset extent length (storedBytes image offset length) =
      (min length (extent - offset),
        ⟨storedBytes image 0 (offset + min length (extent - offset)), position⟩) := by
  have cut : (if offset + length > extent then extent - offset else length) =
      min length (extent - offset) := by
    split <;> omega
  have grown : overlay (storedBytes image 0 offset) offset
      (storedBytes image offset (min length (extent - offset))) =
        storedBytes image 0 (offset + min length (extent - offset)) := by
    have last := overlay_at_end (storedBytes image 0 offset)
      (storedBytes image offset (min length (extent - offset)))
    rw [storedBytes_length] at last
    rw [last, storedBytes, storedBytes, storedBytes, window_append, Nat.zero_add]
  refine ⟨offset + min length (extent - offset), ?_⟩
  simp only [saveBlock, cut, storedBytes_take _ _ _ _ (Nat.min_le_left _ _), Stream.seek,
    Stream.write, saved, grown, storedBytes_length]

theorem readPibLoop_ends (bigEndian : Bool) (modules : Modules) (extent : Nat) :
    ∀ (left offset : Nat) (file : Stream), offset + left = extent → 0 < offset → 0 < left →
      file.content = storedBytes (modules .pib) 0 offset →
        ∃ rounds position, ∀ fuel,
          readPibLoop storingDevice bigEndian fuel
              { extent := extent, offset := offset, length := blockSize, file := file } modules =
            if rounds ≤ fuel then
              some (true, ⟨storedBytes (modules .pib) 0 extent, position⟩)
            else none := by
  intro left
  induction left using Nat.strongRecOn with
  | _ left ih =>
    intro offset file whole started more saved
    obtain ⟨position, save⟩ := saveBlock_stored (modules .pib) file offset extent blockSize saved
      (by omega)
    have inside : offset ≠ extent := by omega
    by_cases last : left ≤ blockSize
    · have cut : min blockSize (extent - offset) = left := by omega
      rw [cut, whole] at save
      refine ⟨1, position, fun fuel => ?_⟩
      cases fuel with
      | zero => rfl
      | succ fuel =>
        simp only [readPibLoop, readBlock_storing, if_neg inside, save, whole,
          if_neg (Nat.lt_irrefl extent), Nat.le_add_left, if_true]
    · have cut : min blockSize (extent - offset) = blockSize := by omega
      rw [cut] at save
      have positive : 0 < blockSize := by decide
      obtain ⟨rounds, finish, ends⟩ := ih (left - blockSize) (by omega) (offset + blockSize)
        ⟨storedBytes (modules .pib) 0 (offset + blockSize), position⟩ (by omega) (by omega)
        (by omega) (by simp only)
      refine ⟨rounds + 1, finish, fun fuel => ?_⟩
      cases fuel with
      | zero => rfl
      | succ fuel =>
        simp only [readPibLoop, readBlock_storing, if_neg inside, save,
          if_pos (show offset + blockSize < extent by omega), ends, Nat.add_le_add_iff_right]

theorem readPib_ends (bigEndian : Bool) (modules : Modules) :
    ∃ rounds position, ∀ fuel, readPib storingDevice bigEndian fuel modules =
      if rounds ≤ fuel then
        some (true, ⟨storedBytes (modules .pib) 0
          (rawPibLength bigEndian (storedBytes (modules .pib) 0 blockSize)), position⟩)
      else none := by
  obtain ⟨extent, extent_eq⟩ : ∃ extent,
      rawPibLength bigEndian (storedBytes (modules .pib) 0 blockSize) = extent := ⟨_, rfl⟩
  obtain ⟨position, save⟩ := saveBlock_stored (modules .pib) ⟨[], 0⟩ 0 extent blockSize rfl
    (Nat.zero_le _)
  rw [Nat.sub_zero, Nat.zero_add] at save
  rw [extent_eq]
  by_cases last : extent ≤ blockSize
  · rw [Nat.min_eq_right last] at save
    refine ⟨1, position, fun fuel => ?_⟩
    cases fuel with
    | zero => rfl
    | succ fuel =>
      simp only [readPib, readPibLoop, readBlock_storing, if_true, extent_eq, save, Nat.zero_add,
        if_neg (Nat.lt_irrefl extent), Nat.le_add_left]
  · rw [Nat.min_eq_left (by omega)] at save
    obtain ⟨rounds, finish, ends⟩ := readPibLoop_ends bigEndian modules extent
      (extent - blockSize) blockSize ⟨storedBytes (modules .pib) 0 blockSize, position⟩ (by omega)
      (by decide) (by omega) (by simp only)
    refine ⟨rounds + 1, finish, fun fuel => ?_⟩
    cases fuel with
    | zero => rfl
    | succ fuel =>
      simp only [readPib, readPibLoop, readBlock_storing, if_true, extent_eq, save, Nat.zero_add,
        if_pos (show blockSize < extent by omega), ends, Nat.add_le_add_iff_right]

theorem pibfile_length (pib accepted : NamedFile) (valid : pibfile pib = .ok accepted) :
    simplePibSize ≤ pib.content.length ∧ le16toh (slice pib.content 4 2) = pib.content.length := by
  obtain ⟨header, read, length, -⟩ := (pibfile_ok_iff pib).mp ⟨accepted, valid⟩
  obtain ⟨bytes, large⟩ := readSimplePib_some pib.file header read
  refine ⟨large, ?_⟩
  rw [length, SimplePib.get, bytes]
  exact congrArg le16toh (slice_slice _ 0 simplePibSize 4 2 (by decide)).symm

theorem slice_stored (content tail : Bytes) (long : 6 ≤ content.length) :
    slice (storedBytes (content ++ tail) 0 blockSize) 4 2 = slice content 4 2 := by
  have split : content ++ tail = content.take 4 ++ (slice content 4 2 ++ (content.drop 6 ++ tail)) := by
    rw [← append_assoc (slice content 4 2), ← drop_eq_slice_append, ← append_assoc,
      take_append_drop]
  have front : (content.take 4).length = 4 := by
    rw [length_take]
    omega
  have field : (slice content 4 2).length = 2 := slice_length_of_le _ _ _ (by omega)
  have stored := storedBytes_inside (content.take 4) (slice content 4 2) (content.drop 6 ++ tail)
  rw [← split, front, field] at stored
  rw [← stored, slice]
  have back : storedBytes (content ++ tail) 0 blockSize =
      storedBytes (content ++ tail) 0 4 ++ storedBytes (content ++ tail) 4 1020 :=
    window_append _ 0 4 1020
  rw [back, drop_left' (storedBytes_length _ _ _), storedBytes_take _ _ _ _ (by decide)]

theorem ntohs_eq_le16toh_iff (bytes : Bytes) :
    ntohs bytes = le16toh bytes ↔ bytes.getD 0 0 = bytes.getD 1 0 := by
  have low := (bytes.getD 0 0).toNat_lt
  have high := (bytes.getD 1 0).toNat_lt
  rw [ntohs, le16toh, ← UInt8.toNat_inj]
  omega

theorem readPib_restores_iff (bigEndian : Bool) (pib accepted : NamedFile)
    (valid : pibfile pib = .ok accepted) (modules : Modules) (tail : Bytes)
    (stored : modules .pib = pib.content ++ tail) :
    (∃ fuel position, readPib storingDevice bigEndian fuel modules =
        some (true, ⟨pib.content, position⟩)) ↔
      bigEndian = false ∨ pib.content.getD 4 0 = pib.content.getD 5 0 := by
  obtain ⟨large, length⟩ := pibfile_length pib accepted valid
  have long : 6 ≤ pib.content.length := Nat.le_trans (by decide) large
  have field := slice_stored pib.content tail long
  have bytes : ∀ index, index < 2 →
      (slice pib.content 4 2).getD index 0 = pib.content.getD (4 + index) 0 := by
    intro index bound
    rw [getD_eq_getElem?_getD, getD_eq_getElem?_getD, slice_getElem? _ _ _ _ bound]
  obtain ⟨rounds, position, ends⟩ := readPib_ends bigEndian modules
  rw [stored] at ends
  have extent_iff : rawPibLength bigEndian (storedBytes (pib.content ++ tail) 0 blockSize) =
      pib.content.length ↔ bigEndian = false ∨ pib.content.getD 4 0 = pib.content.getD 5 0 := by
    cases bigEndian with
    | false => simp only [rawPibLength, field, length, Bool.false_eq_true, if_false, true_or]
    | true =>
      rw [rawPibLength, if_pos rfl, field, ← length, ntohs_eq_le16toh_iff, bytes 0 (by decide),
        bytes 1 (by decide)]
      simp
  rw [← extent_iff]
  constructor
  · rintro ⟨fuel, finish, restored⟩
    rw [ends fuel] at restored
    split at restored
    · simp only [Option.some.injEq, Prod.mk.injEq, true_and, Stream.mk.injEq] at restored
      have same := congrArg List.length restored.1
      rw [storedBytes_length] at same
      exact same
    · cases restored
  · intro exact
    refine ⟨rounds, position, ?_⟩
    rw [ends rounds, if_pos (Nat.le_refl _), exact, storedBytes_front]

/-- The loop of `ReadNVM` before the header of the next image. -/
structure AtHeader (content : Bytes) (read : NvmRead) (front : Bytes)
    (images : List NvmImage) : Prop where
  layout : content = front ++ chain front.length false images
  nonempty : images ≠ []
  valid : ∀ image ∈ images, image.Valid
  offset : read.offset = front.length
  extent : read.extent = front.length

/-- The loop of `ReadNVM` with the header of an image seen and the image not
yet complete. -/
structure Inside (content : Bytes) (read : NvmRead) (front : Bytes) (image : NvmImage)
    (rest : List NvmImage) : Prop where
  layout : content = front ++ chain front.length false (image :: rest)
  valid : ∀ later ∈ image :: rest, later.Valid
  header : read.header = (nextAddress (front.length + image.size) false rest).toNat
  extent : read.extent = front.length + image.size
  offset : read.offset < read.extent

section Chain

variable (content tail : Bytes)

theorem storedBytes_header (read : NvmRead) (front : Bytes) (image : NvmImage)
    (rest : List NvmImage) (place : AtHeader content read front (image :: rest)) (next : Word)
    (next_eq : nextAddress (front.length + image.size) false rest = next) :
    (storedBytes (content ++ tail) read.offset blockSize).take headerNvmSize =
      (image.sealed next).toBytes := by
  have layout := place.layout
  rw [chain, next_eq] at layout
  rw [storedBytes_take _ _ _ _ (by decide), place.offset, layout, append_assoc,
    append_assoc]
  exact storedBytes_inside front (image.sealed next).toBytes _

theorem nvmExtent_header (read : NvmRead) (front : Bytes) (image : NvmImage)
    (rest : List NvmImage) (place : AtHeader content read front (image :: rest)) :
    nvmExtent false read (storedBytes (content ++ tail) read.offset blockSize) =
      some ((nextAddress (front.length + image.size) false rest).toNat,
        front.length + image.size) := by
  obtain ⟨next, next_eq⟩ : ∃ next,
      nextAddress (front.length + image.size) false rest = next := ⟨_, rfl⟩
  have valid := place.valid image mem_cons_self
  have header := storedBytes_header content tail read front image rest place next next_eq
  have sum : checksum32 (image.sealed next).toBytes Word.zero = Word.zero :=
    (HeaderNvm.checksum32_eq_zero_iff _).mpr (HeaderNvm.withChecksum_withChecksum _)
  have version : (image.sealed next).headerVersion = nvmHeaderVersion := valid.version
  have length : (image.sealed next).imageLength.toNat = image.bytes.length := valid.length
  have following : (image.sealed next).nextHeader = next := rfl
  have here : read.offset = read.extent := place.offset.trans place.extent.symm
  rw [next_eq, nvmExtent, if_pos here]
  simp only [header, sum, ne_eq, not_true_eq_false, if_false,
    HeaderNvm.ofBytes_toBytes, version, rawWord, le32toh, le16tohWide, following, length,
    place.extent, Bool.false_eq_true, NvmImage.size, Nat.add_assoc]

theorem nvmExtent_bigEndian (read : NvmRead) (front : Bytes) (images : List NvmImage)
    (place : AtHeader content read front images) :
    nvmExtent true read (storedBytes (content ++ tail) read.offset blockSize) = none := by
  cases images with
  | nil => exact absurd rfl place.nonempty
  | cons image rest =>
    have header := storedBytes_header content tail read front image rest place _ rfl
    have version : (image.sealed (nextAddress (front.length + image.size) false
        rest)).headerVersion = nvmHeaderVersion :=
      (place.valid image mem_cons_self).version
    have other : rawWord true nvmHeaderVersion ≠ nvmHeaderVersion.toNat := by decide
    have here : read.offset = read.extent := place.offset.trans place.extent.symm
    simp only [nvmExtent, if_pos here, header, HeaderNvm.ofBytes_toBytes, version, if_pos other,
      ite_self]

/-- Whether at a header or inside an image, after the first half of a round
the extent is the end of an image. -/
theorem nvmExtent_seen (read : NvmRead)
    (place : (∃ front images, AtHeader content read front images) ∨
      ∃ front image rest, Inside content read front image rest) :
    ∃ header extent front image rest,
      nvmExtent false read (storedBytes (content ++ tail) read.offset blockSize) =
        some (header, extent) ∧
      Inside content { read with header := header, extent := extent } front image rest := by
  rcases place with ⟨front, images, place⟩ | ⟨front, image, rest, place⟩
  · cases images with
    | nil => exact absurd rfl place.nonempty
    | cons image rest =>
      refine ⟨_, _, front, image, rest, nvmExtent_header content tail read front image rest place,
        place.layout, place.valid, rfl, rfl, ?_⟩
      simp only [place.offset, NvmImage.size, headerNvmSize]
      omega
  · refine ⟨read.header, read.extent, front, image, rest, ?_, place⟩
    rw [nvmExtent, if_neg (Nat.ne_of_lt place.offset)]

variable {content tail}

theorem Inside.complete {read : NvmRead} {front : Bytes} {image : NvmImage}
    {rest : List NvmImage} (place : Inside content read front image rest)
    (small : content.length < 2 ^ 31) (file : Stream) :
    (read.header = 0 ∧ read.extent = content.length) ∨
      (read.header ≠ 0 ∧ ∃ front,
        AtHeader content { read with offset := read.extent, file := file } front rest) := by
  obtain ⟨next, next_eq⟩ : ∃ next,
      nextAddress (front.length + image.size) false rest = next := ⟨_, rfl⟩
  have length := congrArg List.length place.layout
  rw [length_append, chain_length] at length
  obtain ⟨last_iff, -⟩ := chain_next front image rest next (by omega) next_eq
  have header := place.header
  rw [next_eq] at header
  by_cases last : rest = []
  · left
    refine ⟨?_, ?_⟩
    · rw [header, last_iff.mpr last, Word.toNat_zero]
    · rw [place.extent, length, last]
      simp [chainLength]
  · right
    refine ⟨?_, front ++ (image.sealed next).toBytes ++ image.bytes, ?_, last,
      fun later member => place.valid later (mem_cons_of_mem _ member), ?_, ?_⟩
    · rw [header]
      exact mt (Word.toNat_eq_zero_iff next).mp (mt last_iff.mp last)
    · rw [place.layout, chain, next_eq, front_image_length]
      simp only [append_assoc]
    · rw [front_image_length]
      exact place.extent
    · rw [front_image_length]
      exact place.extent

theorem Inside.extent_le {read : NvmRead} {front : Bytes} {image : NvmImage}
    {rest : List NvmImage} (place : Inside content read front image rest) :
    read.extent ≤ content.length := by
  have length := congrArg List.length place.layout
  rw [length_append, chain_length, chainLength_cons] at length
  rw [place.extent]
  omega

theorem readNvmLoop_restores (small : content.length < 2 ^ 31) (modules : Modules)
    (stored : modules .mac = content ++ tail) :
    ∀ (left : Nat) (read : NvmRead), read.offset + left = content.length →
      read.file.content = storedBytes (content ++ tail) 0 read.offset →
      ((∃ front images, AtHeader content read front images) ∨
        ∃ front image rest, Inside content read front image rest) →
        ∃ fuel position, readNvmLoop storingDevice false fuel read modules =
          some (true, ⟨content, position⟩) := by
  intro left
  induction left using Nat.strongRecOn with
  | _ left ih =>
    intro read whole saved place
    obtain ⟨header, extent, front, image, rest, seen, inside⟩ :=
      nvmExtent_seen content tail read place
    have offset_lt : read.offset < extent := inside.offset
    have extent_le : extent ≤ content.length := inside.extent_le
    obtain ⟨position, save⟩ := saveBlock_stored (content ++ tail) read.file read.offset extent
      blockSize saved (by omega)
    obtain ⟨length, length_eq⟩ : ∃ length, min blockSize (extent - read.offset) = length :=
      ⟨_, rfl⟩
    rw [length_eq] at save
    have positive : 0 < length ∧ read.offset + length ≤ extent := by
      simp only [blockSize] at length_eq
      omega
    have round : ∀ fuel, readNvmLoop storingDevice false (fuel + 1) read modules =
        if header ≠ 0 ∨ read.offset + length < extent then
          readNvmLoop storingDevice false fuel
            { header := header
              extent := extent
              offset := read.offset + length
              file := ⟨storedBytes (content ++ tail) 0 (read.offset + length), position⟩ } modules
        else some (true, ⟨storedBytes (content ++ tail) 0 (read.offset + length), position⟩) := by
      intro fuel
      simp only [readNvmLoop, readBlock_storing, stored, seen, save]
    have later := ih (left - length) (by omega)
      { header := header
        extent := extent
        offset := read.offset + length
        file := ⟨storedBytes (content ++ tail) 0 (read.offset + length), position⟩ }
      (by simp only; omega) (by simp only)
    by_cases complete : read.offset + length = extent
    · rcases inside.complete small
        ⟨storedBytes (content ++ tail) 0 (read.offset + length), position⟩ with
        ⟨none, last⟩ | ⟨more, front, next⟩
      · simp only at none last
        refine ⟨1, position, ?_⟩
        rw [round, none, complete, last, if_neg (by simp), storedBytes_front]
      · simp only at more
        rw [complete] at later round next
        obtain ⟨fuel, finish, ends⟩ := later (.inl ⟨front, rest, next⟩)
        refine ⟨fuel + 1, finish, ?_⟩
        rw [round, if_pos (.inl more), ends]
    · have less : read.offset + length < extent := by omega
      obtain ⟨fuel, finish, ends⟩ := later
        (.inr ⟨front, image, rest, inside.layout, inside.valid, inside.header, inside.extent, less⟩)
      refine ⟨fuel + 1, finish, ?_⟩
      rw [round, if_pos (.inr less), ends]

end Chain

theorem readNvm_restores_iff (bigEndian : Bool) (file : String × Bytes)
    (accepted : Accepted file) (aligned : WordAligned file.2) (small : file.2.length < 2 ^ 31)
    (modules : Modules) (tail : Bytes) (stored : modules .mac = file.2 ++ tail) :
    (∃ fuel position, readNvm storingDevice bigEndian fuel modules =
        some (true, ⟨file.2, position⟩)) ↔ bigEndian = false := by
  have isChain := isChain_of_accepted file accepted aligned
  have start : AtHeader file.2 { header := 0, extent := 0, offset := 0, file := ⟨[], 0⟩ } []
      (nvmImages file.2) :=
    ⟨isChain.layout, isChain.nonempty, isChain.valid, rfl, rfl⟩
  cases bigEndian with
  | false =>
    refine ⟨fun _ => rfl, fun _ => ?_⟩
    exact readNvmLoop_restores small modules stored file.2.length _ (Nat.zero_add _) rfl
      (.inl ⟨[], _, start⟩)
  | true =>
    refine ⟨?_, fun absurd => by cases absurd⟩
    rintro ⟨fuel, position, restored⟩
    cases fuel with
    | zero => cases restored
    | succ fuel =>
      have seen := nvmExtent_bigEndian file.2 tail _ _ _ start
      simp only [readNvm, readNvmLoop, readBlock_storing, stored, seen] at restored
      cases restored

/-- Every accepted file can be written, and it is read back as it was exactly on
a little endian machine; a parameter block also where the two bytes of its length
are the same. -/
theorem upload_undoes_download (bigEndian : Bool) :
    (∀ file : String × Bytes, Accepted file → WordAligned file.2 → file.2.length < 2 ^ 31 →
      ∀ modules : Modules,
        (writeNvm storingDevice file.2 modules).1 = true ∧
        ((∃ fuel position,
            readNvm storingDevice bigEndian fuel (writeNvm storingDevice file.2 modules).2 =
              some (true, ⟨file.2, position⟩)) ↔ bigEndian = false)) ∧
    (∀ pib accepted : NamedFile, pibfile pib = .ok accepted →
      ∀ modules : Modules,
        (writePib storingDevice pib.content modules).1 = true ∧
        ((∃ fuel position,
            readPib storingDevice bigEndian fuel (writePib storingDevice pib.content modules).2 =
              some (true, ⟨pib.content, position⟩)) ↔
          bigEndian = false ∨ pib.content.getD 4 0 = pib.content.getD 5 0)) := by
  constructor
  · intro file accepted aligned small modules
    obtain ⟨after, tail, written, stored⟩ := writeNvm_storing file.2 modules
    rw [written]
    exact ⟨rfl, readNvm_restores_iff bigEndian file accepted aligned small after tail stored⟩
  · intro pib accepted valid modules
    obtain ⟨after, tail, written, stored⟩ := writePib_storing pib.content modules
    rw [written]
    exact ⟨rfl, readPib_restores_iff bigEndian pib accepted valid after tail stored⟩

def emptyModules : Modules := fun _ => []

def smallPib : NamedFile :=
  { name := "small.pib"
    file := ⟨[0, 0, 0, 0, 0xCC, 0x01, 0, 0, 0x33, 0xFE, 0xFF, 0xFF] ++ List.replicate 448 0, 0⟩ }

/-- A little endian machine reads both files back. -/
theorem small_files_restored :
    (∃ fuel position, readNvm storingDevice false fuel
        (writeNvm storingDevice smallNvm.2 emptyModules).2 = some (true, ⟨smallNvm.2, position⟩)) ∧
    (∃ fuel position, readPib storingDevice false fuel
        (writePib storingDevice smallPib.content emptyModules).2 =
          some (true, ⟨smallPib.content, position⟩)) := by
  have valid : ∃ accepted, pibfile smallPib = .ok accepted := by
    have success : (pibfile smallPib).isOk = true := by decide +kernel
    cases outcome : pibfile smallPib with
    | error message =>
      rw [outcome] at success
      cases success
    | ok accepted => exact ⟨accepted, rfl⟩
  obtain ⟨accepted, valid⟩ := valid
  exact ⟨((upload_undoes_download false).1 smallNvm smallNvm_accepted smallNvm_aligned (by decide)
      emptyModules).2.mpr rfl,
    ((upload_undoes_download false).2 smallPib accepted valid emptyModules).2.mpr (.inl rfl)⟩

/-- A big endian machine writes the file and then refuses to read it back. -/
theorem firmware_not_read_back :
    Accepted smallNvm ∧ WordAligned smallNvm.2 ∧ smallNvm.2.length < 2 ^ 31 ∧
      (writeNvm storingDevice smallNvm.2 emptyModules).1 = true ∧
      readNvm storingDevice true 1 (writeNvm storingDevice smallNvm.2 emptyModules).2 =
        some (false, ⟨[], 0⟩) ∧
      ¬∃ fuel position, readNvm storingDevice true fuel
        (writeNvm storingDevice smallNvm.2 emptyModules).2 = some (true, ⟨smallNvm.2, position⟩) := by
  refine ⟨smallNvm_accepted, smallNvm_aligned, by decide, by decide +kernel, by decide +kernel, ?_⟩
  obtain ⟨after, tail, written, stored⟩ := writeNvm_storing smallNvm.2 emptyModules
  rw [written, readNvm_restores_iff true smallNvm smallNvm_accepted smallNvm_aligned (by decide)
    after tail stored]
  decide

end AthApps.Plc
