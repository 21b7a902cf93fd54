import AthApps.Pcie.Table
import Mathlib.Data.List.GetD

/-!
# PCIe configuration in EEPROM

The table is stored behind a header of six bytes, six bytes for an entry, and
ends with the first address word that reads as blank.  The module has the
commit of `Ar9300ConfigSpaceCommitEeprom`, the reader and the caller of the
reader that loads the default table when it is not content.
-/

set_option autoImplicit false

namespace AthApps.Pcie

abbrev Eeprom := Nat → UInt8

def ar9300EepromSize : Nat := 16 * 1024

def eepromRead (eeprom : Eeprom) (address many : Nat) : Option (List UInt8) :=
  if ar9300EepromSize < address + many then
    none
  else
    some ((List.range many).map fun index => eeprom (address + index))

/-- `Ar9300EepromWrite`: nothing is written to a bad address. -/
def eepromWrite (eeprom : Eeprom) (address : Nat) (buffer : List UInt8) : Eeprom :=
  if ar9300EepromSize - 1 < address + buffer.length then
    eeprom
  else
    fun place =>
      if address ≤ place ∧ place < address + buffer.length then
        buffer.getD (place - address) 0
      else
        eeprom place

def pcieConfigHeader : List UInt8 := [0x5a, 0xa5, 0, 0, 3, 0]

/-- The start address in the last two bytes of the header, in words. -/
def configStart : Nat :=
  ((pcieConfigHeader.getD 4 0).toNat + (pcieConfigHeader.getD 5 0).toNat * 256) * 2

def lowByte (value : UInt16) : UInt8 := value.toUInt8

def highByte (value : UInt16) : UInt8 := (value >>> 8).toUInt8

namespace PcieConfig

def toBytes (entry : PcieConfig) : List UInt8 :=
  [lowByte entry.address, highByte entry.address, lowByte entry.dataLow, highByte entry.dataLow,
    lowByte entry.dataHigh, highByte entry.dataHigh]

@[simp] theorem toBytes_length (entry : PcieConfig) : entry.toBytes.length = 6 := rfl

end PcieConfig

/-- `pcieByteArray` after the conversion: the entries, and 0xff behind them. -/
def pcieByteArray (table : PcieTable) : List UInt8 :=
  table.entries.flatMap PcieConfig.toBytes ++
    List.replicate (6 * (maxPcieAddressValueData - table.num) + 2) 0xff

def markEnd (table : PcieTable) : PcieTable :=
  if table.num + 1 < maxPcieAddressValueData then
    let last := { table.data table.num with address := 0xFFFF }
    { table with data := Function.update table.data table.num last }
  else
    table

/-- `Ar9300ConfigSpaceCommitEeprom`; `limit` is what `Ar9300EepromUsed` returns.
The comparison is one of unsigned numbers. -/
def configSpaceCommitEeprom (limit : Int) (table : PcieTable) (eeprom : Eeprom) :
    Int × PcieTable × Eeprom :=
  let addr := configStart
  if (limit % 2 ^ 32).toNat ≤ addr + table.num * 6 + 2 then
    (-1, table, eeprom)
  else
    let eeprom := eepromWrite eeprom 0 pcieConfigHeader
    let table := markEnd table
    (0, table, eepromWrite eeprom addr ((pcieByteArray table).take (table.num * 6 + 2)))

def toWord (low high : UInt8) : UInt16 := low.toUInt16 + (high.toUInt16 <<< 8)

def decodeEntry (set : List UInt8) : PcieConfig :=
  ⟨toWord (set.getD 0 0) (set.getD 1 0), toWord (set.getD 2 0) (set.getD 3 0),
    toWord (set.getD 4 0) (set.getD 5 0)⟩

def blankSet (set : List UInt8) : Bool :=
  (set.getD 0 0 == 0 && set.getD 1 0 == 0) || (set.getD 0 0 == 0xFF && set.getD 1 0 == 0xFF)

/-- The loop of `Ar9300pcieAddressValueDataInitEeprom`; `room` is the number of
free elements, and none is left when the last one has just been filled. -/
def initEepromLoop (eeprom : Eeprom) : Nat → Nat → PcieTable → Int × PcieTable
  | 0, _, table => (errMaxReached, table)
  | room + 1, addr, table =>
    match eepromRead eeprom addr 6 with
    | none => (-1, table)
    | some set =>
      if blankSet set then
        (valueOk, table)
      else
        initEepromLoop eeprom room (addr + 6) (table.push (decodeEntry set))

def initEeprom (eeprom : Eeprom) (table : PcieTable) : Int × PcieTable :=
  match eepromRead eeprom 0 6 with
  | none => (errEepRead, table)
  | some header =>
    let table := table.cleared
    if header.getD 0 0 = 0 ∨ header.getD 0 0 = 0xFF then
      (valueOk, table)
    else if header ≠ pcieConfigHeader then
      (errValueBad, table)
    else
      initEepromLoop eeprom maxPcieAddressValueData configStart table

/-- `Ar9300pcieAddressValueDataInit` once the reader of the selected memory has
returned: the default table replaces a failed or empty result. -/
def finishInit (ar9580 : Bool) (result : Int × PcieTable) : Int × PcieTable :=
  if result.1 ≠ valueOk ∨ result.2.num = 0 then
    result.2.initDefault ar9580
  else
    result

/-- `Ar9300pcieAddressValueDataInit` with EEPROM as the calibration source. -/
def initFromEeprom (ar9580 : Bool) (eeprom : Eeprom) (table : PcieTable) : Int × PcieTable :=
  finishInit ar9580 (initEeprom eeprom table)

theorem toWord_lowByte_highByte (value : UInt16) : toWord (lowByte value) (highByte value) = value := by
  apply UInt16.toNat_inj.mp
  have bound := value.toNat_lt
  simp [toWord, lowByte, highByte, UInt16.toNat_add, UInt16.toNat_shiftLeft,
    UInt16.toNat_shiftRight, Nat.shiftRight_eq_div_pow, Nat.shiftLeft_eq]
  omega

theorem decodeEntry_toBytes (entry : PcieConfig) : decodeEntry entry.toBytes = entry := by
  simp [decodeEntry, PcieConfig.toBytes, toWord_lowByte_highByte]

theorem blankSet_toBytes (entry : PcieConfig) (rest : List UInt8) (zero : entry.address ≠ 0)
    (ones : entry.address ≠ 0xFFFF) : blankSet (entry.toBytes ++ rest) = false := by
  rw [Bool.eq_false_iff]
  intro blank
  have word := toWord_lowByte_highByte entry.address
  simp only [blankSet, PcieConfig.toBytes, List.cons_append, List.getD_cons_zero,
    List.getD_cons_succ, Bool.or_eq_true, Bool.and_eq_true, beq_iff_eq] at blank
  rcases blank with ⟨low, high⟩ | ⟨low, high⟩
  · rw [low, high] at word
    exact zero word.symm
  · rw [low, high] at word
    exact ones word.symm

def Holds (eeprom : Eeprom) (address : Nat) (bytes : List UInt8) : Prop :=
  ∀ index, index < bytes.length → eeprom (address + index) = bytes.getD index 0

namespace Holds

variable {eeprom : Eeprom} {address : Nat} {front rest : List UInt8}

theorem left (holds : Holds eeprom address (front ++ rest)) : Holds eeprom address front := by
  intro index bound
  rw [holds index (by rw [List.length_append]; omega), List.getD_append _ _ _ _ bound]

theorem right (holds : Holds eeprom address (front ++ rest)) :
    Holds eeprom (address + front.length) rest := by
  intro index bound
  rw [Nat.add_assoc, holds (front.length + index) (by rw [List.length_append]; omega),
    List.getD_append_right _ _ _ _ (by omega), Nat.add_sub_cancel_left]

theorem read_eq (holds : Holds eeprom address front)
    (inside : address + front.length ≤ ar9300EepromSize) :
    eepromRead eeprom address front.length = some front := by
  rw [eepromRead, if_neg (by omega)]
  congr 1
  apply List.ext_getElem
  · simp
  · intro index low high
    rw [List.getElem_map, List.getElem_range, holds index high, List.getD_eq_getElem _ _ high]

end Holds

theorem holds_eepromWrite (eeprom : Eeprom) (address : Nat) (buffer : List UInt8)
    (inside : address + buffer.length < ar9300EepromSize) :
    Holds (eepromWrite eeprom address buffer) address buffer := by
  intro index bound
  rw [eepromWrite, if_neg (by omega), if_pos (by omega), Nat.add_sub_cancel_left]

theorem holds_eepromWrite_of_lt (eeprom : Eeprom) (address place : Nat)
    (buffer bytes : List UInt8) (before : place + bytes.length ≤ address)
    (holds : Holds eeprom place bytes) : Holds (eepromWrite eeprom address buffer) place bytes := by
  intro index bound
  rw [eepromWrite]
  split
  · exact holds index bound
  · simp only
    rw [if_neg (by omega)]
    exact holds index bound

theorem entries_markEnd (table : PcieTable) : (markEnd table).entries = table.entries := by
  rw [markEnd]
  split
  · refine List.map_congr_left fun index member => ?_
    exact Function.update_of_ne (Nat.ne_of_lt (List.mem_range.mp member)) _ _
  · rfl

theorem flatMap_toBytes_length (list : List PcieConfig) :
    (list.flatMap PcieConfig.toBytes).length = list.length * 6 := by
  induction list with
  | nil => rfl
  | cons entry rest ih =>
    rw [List.flatMap_cons, List.length_append, ih, List.length_cons, PcieConfig.toBytes_length]
    omega

theorem entries_length (table : PcieTable) : table.entries.length = table.num := by
  simp [PcieTable.entries]

theorem pcieByteArray_take (table : PcieTable) : (pcieByteArray table).take (table.num * 6 + 2) =
      table.entries.flatMap PcieConfig.toBytes ++ [0xff, 0xff] := by
  have length := flatMap_toBytes_length table.entries
  rw [entries_length] at length
  rw [pcieByteArray, List.take_append, List.take_of_length_le (by omega), length,
    List.take_replicate]
  congr 1
  rw [show min (table.num * 6 + 2 - table.num * 6)
    (6 * (maxPcieAddressValueData - table.num) + 2) = 2 by omega]
  rfl

theorem initEepromLoop_entries (eeprom : Eeprom) : ∀ (list : List PcieConfig) (room addr : Nat)
    (table : PcieTable),
    (∀ entry ∈ list, entry.address ≠ 0 ∧ entry.address ≠ 0xFFFF) → list.length < room →
    Holds eeprom addr (list.flatMap PcieConfig.toBytes ++ [0xff, 0xff]) →
    addr + list.length * 6 + 6 ≤ ar9300EepromSize →
      initEepromLoop eeprom room addr table = (valueOk, table.pushAll list) := by
  intro list
  induction list with
  | nil =>
    intro room addr table registers enough holds inside
    obtain ⟨room, rfl⟩ : ∃ less, room = less + 1 := ⟨room - 1, by
      simp only [List.length_nil] at enough
      omega⟩
    have low := holds 0 (by decide)
    have high := holds 1 (by decide)
    simp only [List.flatMap_nil, List.nil_append, Nat.add_zero] at low high
    rw [initEepromLoop, eepromRead, if_neg (by simp only [List.length_nil] at inside; omega)]
    simp only
    rw [if_pos (by simp [blankSet, low, high])]
    rfl
  | cons entry rest ih =>
    intro room addr table registers enough holds inside
    rw [List.length_cons] at enough inside
    obtain ⟨room, rfl⟩ : ∃ less, room = less + 1 := ⟨room - 1, by omega⟩
    rw [List.flatMap_cons, List.append_assoc] at holds
    obtain ⟨zero, ones⟩ := registers entry List.mem_cons_self
    have notBlank : blankSet entry.toBytes = false := by
      have general := blankSet_toBytes entry [] zero ones
      rwa [List.append_nil] at general
    have read : eepromRead eeprom addr 6 = some entry.toBytes :=
      holds.left.read_eq (by rw [PcieConfig.toBytes_length]; omega)
    rw [initEepromLoop, read]
    simp only
    rw [notBlank, if_neg Bool.false_ne_true, decodeEntry_toBytes]
    exact ih room (addr + 6) (table.push entry)
      (fun later member => registers later (List.mem_cons_of_mem _ member)) (by omega)
      holds.right (by omega)

theorem holds_commit (limit : Int) (table after : PcieTable) (eeprom written : Eeprom)
    (bound : table.num ≤ maxPcieAddressValueData)
    (committed : configSpaceCommitEeprom limit table eeprom = (0, after, written)) :
    Holds written 0 pcieConfigHeader ∧
      Holds written configStart (table.entries.flatMap PcieConfig.toBytes ++ [0xff, 0xff]) := by
  rw [configSpaceCommitEeprom] at committed
  by_cases wontFit : (limit % 2 ^ 32).toNat ≤ configStart + table.num * 6 + 2
  · rw [if_pos wontFit] at committed
    cases committed
  · rw [if_neg wontFit] at committed
    simp only [pcieByteArray_take, entries_markEnd] at committed
    have written_eq := (Prod.mk.inj (Prod.mk.inj committed).2).2
    have length := flatMap_toBytes_length table.entries
    rw [entries_length] at length
    have start : configStart = 6 := rfl
    have most : maxPcieAddressValueData = 340 := rfl
    have size : ar9300EepromSize = 16384 := rfl
    rw [← written_eq]
    constructor
    · refine holds_eepromWrite_of_lt _ _ _ _ _ (by rw [start]; decide) ?_
      exact holds_eepromWrite _ _ _ (by decide)
    · refine holds_eepromWrite _ _ _ ?_
      rw [List.length_append, length, List.length_cons, List.length_singleton]
      omega

/-- The reader finds exactly the committed entries, as long as it has an
element left when it meets the blank word. -/
theorem initEeprom_after_commit (limit : Int) (table after start : PcieTable)
    (eeprom written : Eeprom) (bound : table.num < maxPcieAddressValueData)
    (registers : ∀ index < table.num,
      (table.data index).address ≠ 0 ∧ (table.data index).address ≠ 0xFFFF)
    (committed : configSpaceCommitEeprom limit table eeprom = (0, after, written)) :
    initEeprom written start = (valueOk, start.cleared.pushAll table.entries) := by
  obtain ⟨header, body⟩ := holds_commit limit table after eeprom written (Nat.le_of_lt bound)
    committed
  have read : eepromRead written 0 6 = some pcieConfigHeader := header.read_eq (by decide)
  have most : maxPcieAddressValueData = 340 := rfl
  have size : ar9300EepromSize = 16384 := rfl
  have first : configStart = 6 := rfl
  have length := entries_length table
  rw [initEeprom, read]
  simp only
  rw [if_neg (by decide), if_neg (by simp)]
  refine initEepromLoop_entries written table.entries _ _ _ ?_ (by omega) body (by omega)
  intro entry member
  obtain ⟨index, range, rfl⟩ := List.mem_map.mp member
  exact registers index (List.mem_range.mp range)

/-- A committed table with at least one entry and a free element is read back
as it was; an empty one is taken for a blank card, and the default table is
loaded. -/
theorem initFromEeprom_after_commit (ar9580 : Bool) (limit : Int) (table after start : PcieTable)
    (eeprom written : Eeprom) (bound : table.num < maxPcieAddressValueData)
    (registers : ∀ index < table.num,
      (table.data index).address ≠ 0 ∧ (table.data index).address ≠ 0xFFFF)
    (committed : configSpaceCommitEeprom limit table eeprom = (0, after, written)) :
    (0 < table.num → ∃ result, initFromEeprom ar9580 written start = (valueOk, result) ∧
      initEeprom written start = (valueOk, result) ∧ result.num = table.num ∧
      ∀ index < table.num, result.data index = table.data index) ∧
    (table.num = 0 → initFromEeprom ar9580 written start = start.cleared.initDefault ar9580) := by
  have read := initEeprom_after_commit limit table after start eeprom written bound registers
    committed
  have num : (start.cleared.pushAll table.entries).num = table.num := by
    rw [PcieTable.pushAll_num, entries_length, PcieTable.cleared, Nat.zero_add]
  constructor
  · intro positive
    refine ⟨_, ?_, read, num, fun index below => ?_⟩
    · have content : ¬(valueOk ≠ valueOk ∨ (start.cleared.pushAll table.entries).num = 0) := by
        rw [num]
        simp
        omega
      rw [initFromEeprom, read, finishInit, if_neg content]
    · have entry := PcieTable.pushAll_data table.entries start.cleared index
        (by rw [entries_length]; exact below)
      rw [PcieTable.entries, List.getElem?_map, List.getElem?_range below, Option.map_some,
        Option.some.injEq] at entry
      rw [entry, PcieTable.cleared, Nat.zero_add]
      rfl
  · intro zero
    have empty : table.entries = [] :=
      List.eq_nil_of_length_eq_zero (by rw [entries_length]; exact zero)
    rw [initFromEeprom, read, finishInit, if_pos (Or.inr (by rw [num]; exact zero)), empty]
    rfl

def blankEeprom : Eeprom := fun _ => 0xff

def emptyTable : PcieTable := ⟨fun _ => ⟨0, 0, 0⟩, 0, 0⟩

def oneEntry : PcieTable := emptyTable.push ⟨0x5008, 0x0001, 0x0280⟩

def threeEntries : PcieTable :=
  (oneEntry.push ⟨0x5010, 0x0003, 0x0280⟩).push ⟨0x5014, 0xfffe, 0x0001⟩

theorem commit_threeEntries (eeprom : Eeprom) : ∃ after written,
    configSpaceCommitEeprom 0x3ff threeEntries eeprom = (0, after, written) := by
  rw [configSpaceCommitEeprom, if_neg (by decide)]
  exact ⟨_, _, rfl⟩

/-- Three entries, committed to a card that holds one already, and read back. -/
theorem initFromEeprom_three_entries : ∃ after written,
    configSpaceCommitEeprom 0x3ff threeEntries
        (configSpaceCommitEeprom 0x3ff oneEntry blankEeprom).2.2 = (0, after, written) ∧
      ∃ result, initFromEeprom false written emptyTable = (valueOk, result) ∧
        initEeprom written emptyTable = (valueOk, result) ∧ result.num = threeEntries.num ∧
        ∀ index < threeEntries.num, result.data index = threeEntries.data index := by
  obtain ⟨after, written, committed⟩ := commit_threeEntries
    (configSpaceCommitEeprom 0x3ff oneEntry blankEeprom).2.2
  have registers : ∀ index < threeEntries.num,
      (threeEntries.data index).address ≠ 0 ∧ (threeEntries.data index).address ≠ 0xFFFF := by
    decide
  exact ⟨after, written, committed, (initFromEeprom_after_commit false 0x3ff threeEntries after
    emptyTable _ written (by decide) registers committed).1 (by decide)⟩

/-- An empty table is committed, and the default table is read back. -/
theorem initFromEeprom_empty_table : (configSpaceCommitEeprom 0x3ff emptyTable blankEeprom).1 = 0 ∧
      (initFromEeprom false (configSpaceCommitEeprom 0x3ff emptyTable blankEeprom).2.2
        emptyTable).2.num ≠ emptyTable.num := by
  decide

end AthApps.Pcie
