import AthApps.Lib.Stream
import AthApps.Spectral.Interference

/-!
# The response to the display

`server_build_single_samp_rsp` builds the packed structures of
`spec_msg_proto.h` in a buffer of fixed size.  The block of interferers comes
behind as many samples as the report has bins, not behind the 128 samples that
the response says it has, and the length is stored in the order of the host.

The builder is the list of its stores.  The value of a sample is a matter of
floating point numbers and of the options; `Power` has it.
-/

set_option autoImplicit false

namespace AthApps.Spectral

open AthApps.Lib
open List hiding Vector

inductive ByteOrder where
  | big
  | little
  deriving DecidableEq

namespace ByteOrder

def swap (value : UInt16) : UInt16 := .ofNat (value.toNat % 256 * 256 + value.toNat / 256)

def htons : ByteOrder → UInt16 → UInt16
  | .big, value => value
  | .little, value => swap value

def bytes : ByteOrder → UInt16 → Bytes
  | .big, value => [.ofNat (value.toNat / 256), .ofNat value.toNat]
  | .little, value => [.ofNat value.toNat, .ofNat (value.toNat / 256)]

end ByteOrder

/-- `struct INTERF_RSP`, with any type. -/
structure InterfEntry where
  interfType : UInt8
  interfMinFreq : UInt16
  interfMaxFreq : UInt16
  deriving DecidableEq

abbrev InterfReports := Fin maxInterfCount → InterfEntry

def present (reports : InterfReports) : List InterfEntry :=
  (List.ofFn reports).filter fun entry => entry.interfType ≠ 0

/-- The value of a sample: `level` is the computation, `fake` what 255 stands for, and with
`global_indexdata` the first sample is the number of the response. -/
structure Power where
  indexdata : Bool
  respNum : UInt8
  fake : UInt8
  level : Nat → UInt8 → UInt8

def Power.sample (power : Power) (binPwr : Nat → UInt8) (i : Nat) : UInt8 :=
  let val := if binPwr i = 0 then 1 else binPwr i
  if i = 0 ∧ power.indexdata then power.respNum
  else if val = 255 then power.fake
  else power.level i val

structure Store where
  offset : Nat
  data : Bytes

def Store.Fits (size : Nat) (store : Store) : Prop := store.offset + store.data.length ≤ size

def applyStores (buffer : Bytes) (stores : List Store) : Bytes :=
  stores.foldl (fun buffer store => overlay buffer store.offset store.data) buffer

/-- `sizeof` the `TLV`, the `SAMPLE_RSP`, the `INTERF_SRC_RSP`, 128 samples and an
`INTERF_RSP`. -/
def respAllocSize : Nat := 4 + 5 + 52 + 128 * 1 + 5

def entryBytes (host : ByteOrder) (entry : InterfEntry) : Bytes :=
  [entry.interfType] ++ host.bytes (host.htons entry.interfMinFreq) ++
    host.bytes (host.htons entry.interfMaxFreq)

/-- The loop over `global_interf_rsp`. -/
def entryStores (host : ByteOrder) : Nat → List InterfEntry → List Store
  | _, [] => []
  | offset, entry :: rest =>
    if entry.interfType ≠ 0 then
      ⟨offset, entryBytes host entry⟩ :: entryStores host (offset + 5) rest
    else entryStores host offset rest

def addFromGlobalInterferenceReport (host : ByteOrder) (reports : InterfReports) (offset : Nat) :
    List Store × UInt16 :=
  let count := host.htons (.ofNat (present reports).length)
  (entryStores host (offset + 2) (List.ofFn reports) ++ [⟨offset, host.bytes count⟩], count)

def serverBuildSingleSampRsp (host : ByteOrder) (freq : UInt16) (pwrCount : Nat) (power : Power)
    (binPwr : Nat → UInt8) (isClassify : Bool) (reports : InterfReports) : List Store :=
  let srcResp := 7 + pwrCount
  let added :=
    if isClassify then addFromGlobalInterferenceReport host reports srcResp
    else ([], host.htons 0)
  [⟨0, [2]⟩, ⟨1, host.bytes (.ofNat (respAllocSize - 3))⟩, ⟨3, host.bytes (host.htons freq)⟩,
      ⟨5, host.bytes (host.htons 128)⟩] ++
    (List.range pwrCount).map (fun i => ⟨7 + i, [power.sample binPwr i]⟩) ++
    [⟨srcResp, List.replicate 52 0⟩, ⟨srcResp, host.bytes (host.htons 0)⟩] ++
    added.1 ++
    if added.2 ≠ 0 then [⟨srcResp, host.bytes (host.htons added.2)⟩] else []

def netU16 (buffer : Bytes) (offset : Nat) : Nat :=
  (buffer.getD offset 0).toNat * 256 + (buffer.getD (offset + 1) 0).toNat

def readEntry (buffer : Bytes) (offset : Nat) : InterfEntry :=
  ⟨buffer.getD offset 0, .ofNat (netU16 buffer (offset + 1)), .ofNat (netU16 buffer (offset + 3))⟩

def readEntries (buffer : Bytes) : Nat → Nat → List InterfEntry
  | _, 0 => []
  | offset, count + 1 => readEntry buffer offset :: readEntries buffer (offset + 5) count

/-- The members of the packed structures, with 128 samples. -/
structure Decodes (freq : UInt16) (reports : InterfReports) (buffer : Bytes) : Prop where
  len : netU16 buffer 1 = buffer.length - 3
  freq : netU16 buffer 3 = freq.toNat
  sampleCount : netU16 buffer 5 = 128
  count : netU16 buffer (7 + 128) = (present reports).length
  interf : readEntries buffer (7 + 128 + 2) (present reports).length = present reports

/-- What the display is promised of a response in classify mode: nothing is stored behind the
buffer, and with the 128 bins of a report the response reads back. -/
structure WellBuilt (host : ByteOrder) (memory : Vector UInt8 respAllocSize) (freq : UInt16)
    (pwrCount : UInt16) (power : Power) (binPwr : Nat → UInt8) (reports : InterfReports) :
    Prop where
  inside : ∀ store ∈ serverBuildSingleSampRsp host freq pwrCount.toNat power binPwr true reports,
    store.Fits respAllocSize
  decodes : pwrCount = 128 → Decodes freq reports (applyStores memory.toList
        (serverBuildSingleSampRsp host freq pwrCount.toNat power binPwr true reports))

namespace ByteOrder

variable (value : UInt16)

theorem swap_toNat : (swap value).toNat = value.toNat % 256 * 256 + value.toNat / 256 := by
  have small := value.toNat_lt
  rw [swap, UInt16.toNat_ofNat']
  omega

theorem swap_high : (swap value).toNat / 256 = value.toNat % 256 := by
  have small := value.toNat_lt
  have high : value.toNat / 256 < 256 := by omega
  rw [swap_toNat, Nat.mul_comm, Nat.mul_add_div (by decide), Nat.div_eq_of_lt high, Nat.add_zero]

theorem swap_low : (swap value).toNat % 256 = value.toNat / 256 := by
  have small := value.toNat_lt
  rw [swap_toNat]
  omega

variable (host : ByteOrder)

@[simp] theorem bytes_htons : host.bytes (host.htons value) = big.bytes value := by
  cases host with
  | big => rfl
  | little =>
    have low := swap_low value
    have high := swap_high value
    simp only [bytes, htons, high, List.cons.injEq, and_true, ← UInt8.toNat_inj, UInt8.toNat_ofNat']
    omega

@[simp] theorem htons_htons : host.htons (host.htons value) = value := by
  cases host with
  | big => rfl
  | little =>
    have low := swap_low value
    have high := swap_high value
    rw [htons, htons, ← UInt16.toNat_inj, swap_toNat, low, high]
    omega

@[simp] theorem htons_eq_zero : host.htons value = 0 ↔ value = 0 := by
  constructor
  · intro zero
    rw [← host.htons_htons value, zero]
    cases host <;> rfl
  · rintro rfl
    cases host <;> rfl

@[simp] theorem bytes_length : (host.bytes value).length = 2 := by
  cases host <;> rfl

end ByteOrder

/-- Stores of these byte strings, each where the one before ends. -/
def consecutive : Nat → List Bytes → List Store
  | _, [] => []
  | offset, data :: rest => ⟨offset, data⟩ :: consecutive (offset + data.length) rest

theorem applyStores_append (buffer : Bytes) (first second : List Store) :
    applyStores buffer (first ++ second) = applyStores (applyStores buffer first) second :=
  foldl_append

theorem overlay_behind (front back data : Bytes) :
    overlay (front ++ back) front.length data = front ++ (data ++ back.drop data.length) := by
  simp [overlay, drop_append]

theorem applyStores_consecutive (front back : Bytes) (pieces : List Bytes) :
    applyStores (front ++ back) (consecutive front.length pieces) =
      front ++ (pieces.flatten ++ back.drop pieces.flatten.length) := by
  induction pieces generalizing front back with
  | nil => simp [applyStores, consecutive]
  | cons data rest ih =>
    have next := ih (front ++ data) (back.drop data.length)
    simp only [length_append, append_assoc] at next
    simp only [applyStores, consecutive, foldl_cons] at next ⊢
    rw [overlay_behind, next]
    simp [drop_drop]

theorem consecutive_fits (offset : Nat) (pieces : List Bytes) :
    ∀ store ∈ consecutive offset pieces, store.Fits (offset + pieces.flatten.length) := by
  induction pieces generalizing offset with
  | nil => simp [consecutive]
  | cons data rest ih =>
    intro store stored
    rw [consecutive, mem_cons] at stored
    obtain rfl | later := stored
    · simp only [Store.Fits, flatten_cons, length_append]
      omega
    · have within := ih (offset + data.length) store later
      simpa [Store.Fits, Nat.add_assoc] using within

theorem consecutive_append (offset : Nat) (first second : List Bytes) :
    consecutive offset (first ++ second) =
      consecutive offset first ++ consecutive (offset + first.flatten.length) second := by
  induction first generalizing offset with
  | nil => simp [consecutive]
  | cons data rest ih => simp [consecutive, ih, Nat.add_assoc]

theorem bytes_consecutive (offset count : Nat) (byte : Nat → UInt8) :
    (List.range count).map (fun i => (⟨offset + i, [byte i]⟩ : Store)) =
      consecutive offset ((List.range count).map fun i => [byte i]) := by
  induction count generalizing offset byte with
  | zero => rfl
  | succ count ih =>
    have rest := ih (offset + 1) (fun i => byte (i + 1))
    have shifted : (fun i => (⟨offset + i, [byte i]⟩ : Store)) ∘ Nat.succ =
        fun i => ⟨offset + 1 + i, [byte (i + 1)]⟩ := by
      funext i
      simp only [Function.comp, Nat.succ_eq_add_one, Store.mk.injEq, and_true]
      omega
    simp only [range_succ_eq_map, map_cons, map_map, consecutive,
      length_singleton, Nat.add_zero, shifted, rest]
    rfl

theorem entryStores_eq (host : ByteOrder) (offset : Nat) (entries : List InterfEntry) :
    entryStores host offset entries = consecutive offset
        ((entries.filter fun entry => entry.interfType ≠ 0).map (entryBytes .big)) := by
  induction entries generalizing offset with
  | nil => rfl
  | cons entry rest ih =>
    by_cases none : entry.interfType = 0
    · simp [entryStores, none, ih]
    · simp [entryStores, none, ih, consecutive, entryBytes]

section Buffer

variable (host : ByteOrder) (freq : UInt16) (pwrCount : Nat) (power : Power)
  (binPwr : Nat → UInt8) (reports : InterfReports)

def head : Bytes :=
  [2] ++ host.bytes (.ofNat (respAllocSize - 3)) ++ ByteOrder.big.bytes freq ++
    ByteOrder.big.bytes 128 ++ (List.range pwrCount).map (power.sample binPwr)

def tail : Bytes :=
  host.bytes (.ofNat (present reports).length) ++ (present reports).flatMap (entryBytes .big)

theorem head_length : (head host freq pwrCount power binPwr).length = 7 + pwrCount := by
  simp [head]
  omega

theorem present_length_le : (present reports).length ≤ maxInterfCount := by
  have all := length_filter_le (fun entry : InterfEntry => decide (entry.interfType ≠ 0))
    (List.ofFn reports)
  simpa [present] using all

theorem entries_length (entries : List InterfEntry) :
    (entries.flatMap (entryBytes .big)).length = 5 * entries.length := by
  simp [length_flatMap, entryBytes, Nat.mul_comm]

theorem head_stores (memory : Bytes) :
    applyStores memory
        ([⟨0, [2]⟩, ⟨1, host.bytes (.ofNat (respAllocSize - 3))⟩, ⟨3, host.bytes (host.htons freq)⟩,
          ⟨5, host.bytes (host.htons 128)⟩] ++
        (List.range pwrCount).map (fun i => (⟨7 + i, [power.sample binPwr i]⟩ : Store))) =
      head host freq pwrCount power binPwr ++ memory.drop (7 + pwrCount) := by
  have pieces := applyStores_consecutive [] memory
    ([[2], host.bytes (.ofNat (respAllocSize - 3)), host.bytes (host.htons freq),
      host.bytes (host.htons 128)] ++ (List.range pwrCount).map fun i => [power.sample binPwr i])
  rw [consecutive_append] at pieces
  simp only [nil_append, consecutive, length_nil, Nat.zero_add, length_singleton,
    ByteOrder.bytes_length, flatten_cons, flatten_nil, length_append,
    flatten_append, Nat.reduceAdd, Nat.add_zero, ByteOrder.bytes_htons] at pieces
  rw [bytes_consecutive]
  simp only [ByteOrder.bytes_htons]
  have samples : ((List.range pwrCount).map fun i => [power.sample binPwr i]).flatten =
      (List.range pwrCount).map (power.sample binPwr) := by
    rw [← flatMap_def, ← map_eq_flatMap]
  refine pieces.trans ?_
  rw [samples]
  simp [head]

theorem buffer_eq (memory : Bytes) (room : 7 + pwrCount + 52 ≤ memory.length) :
    ∃ rest, applyStores memory
        (serverBuildSingleSampRsp host freq pwrCount power binPwr true reports) =
      head host freq pwrCount power binPwr ++ (tail host reports ++ rest) ∧
      (head host freq pwrCount power binPwr ++ (tail host reports ++ rest)).length =
        memory.length := by
  have extent := head_length host freq pwrCount power binPwr
  have few := present_length_le reports
  have size := entries_length (present reports)
  have entries := entryStores_eq host (7 + pwrCount + 2) (List.ofFn reports)
  have zero : ByteOrder.big.bytes 0 = [0, 0] := rfl
  have written := head_stores host freq pwrCount power binPwr memory
  generalize head host freq pwrCount power binPwr = front at extent written ⊢
  -- the block after its count was stored over zeros
  have cleared : overlay (overlay (front ++ memory.drop (7 + pwrCount)) (7 + pwrCount)
      (List.replicate 52 0)) (7 + pwrCount) [0, 0] =
      front ++ [0, 0] ++ (List.replicate 50 0 ++ memory.drop (7 + pwrCount + 52)) := by
    rw [← extent, overlay_behind, overlay_behind]
    simp
  have counted (block : Bytes) (count : UInt16) : overlay (front ++ block) (7 + pwrCount)
      (host.bytes count) = front ++ (host.bytes count ++ block.drop 2) := by
    rw [← extent, overlay_behind, ByteOrder.bytes_length]
  have listed (block : Bytes) : applyStores (front ++ [0, 0] ++ block)
      (entryStores host (7 + pwrCount + 2) (List.ofFn reports)) =
      front ++ [0, 0] ++ ((present reports).flatMap (entryBytes .big) ++
        block.drop (5 * (present reports).length)) := by
    have offset : 7 + pwrCount + 2 = (front ++ [0, 0]).length := by simp [extent]
    rw [entries, offset, applyStores_consecutive, ← size]
    rfl
  refine ⟨(List.replicate 50 0 ++ memory.drop (7 + pwrCount + 52)).drop
    (5 * (present reports).length), ?_, ?_⟩
  · unfold serverBuildSingleSampRsp addFromGlobalInterferenceReport
    simp only [if_true]
    rw [applyStores_append, applyStores_append, applyStores_append, applyStores_append, written]
    have blank : applyStores (front ++ memory.drop (7 + pwrCount))
        [⟨7 + pwrCount, List.replicate 52 0⟩, ⟨7 + pwrCount, host.bytes (host.htons 0)⟩] =
        front ++ [0, 0] ++ (List.replicate 50 0 ++ memory.drop (7 + pwrCount + 52)) := by
      rw [ByteOrder.bytes_htons]
      exact cleared
    rw [blank, listed, append_assoc]
    have stored (block : Bytes) (count : UInt16) :
        applyStores (front ++ block) [⟨7 + pwrCount, host.bytes count⟩] =
          front ++ (host.bytes count ++ block.drop 2) := counted block count
    rw [stored, ByteOrder.bytes_htons, ByteOrder.htons_htons]
    split
    next some =>
      rw [stored, tail]
      simp
    next none =>
      have count : UInt16.ofNat (present reports).length = 0 := by simpa using none
      have same : host.bytes 0 = ByteOrder.big.bytes 0 := by cases host <;> rfl
      rw [tail, count, same]
      simp [applyStores]
  · simp only [tail, length_append, extent, ByteOrder.bytes_length, size, length_drop,
      length_replicate]
    simp only [maxInterfCount] at few
    omega

end Buffer

theorem netU16_behind (front back : Bytes) (value : UInt16) :
    netU16 (front ++ (ByteOrder.big.bytes value ++ back)) front.length = value.toNat := by
  have small := value.toNat_lt
  simp only [netU16, getD_eq_getElem?_getD, getElem?_append_right (Nat.le_refl _),
    getElem?_append_right (Nat.le_add_right _ _), Nat.sub_self, Nat.add_sub_cancel_left,
    ByteOrder.bytes, cons_append, nil_append, getElem?_cons_zero,
    getElem?_cons_succ, Option.getD_some, UInt8.toNat_ofNat']
  omega

theorem readEntries_behind (front back : Bytes) (entries : List InterfEntry) :
    readEntries (front ++ (entries.flatMap (entryBytes .big) ++ back)) front.length
      entries.length = entries := by
  induction entries generalizing front with
  | nil => rfl
  | cons entry rest ih =>
    have low := netU16_behind (front ++ [entry.interfType])
      (ByteOrder.big.bytes entry.interfMaxFreq ++ (rest.flatMap (entryBytes .big) ++ back))
      entry.interfMinFreq
    have high := netU16_behind
      (front ++ [entry.interfType] ++ ByteOrder.big.bytes entry.interfMinFreq)
      (rest.flatMap (entryBytes .big) ++ back) entry.interfMaxFreq
    have others := ih (front ++ entryBytes .big entry)
    have width : (entryBytes .big entry).length = 5 := by simp [entryBytes]
    have kind : (front ++ ((entry :: rest).flatMap (entryBytes .big) ++ back)).getD
        front.length 0 = entry.interfType := by
      simp [entryBytes, ByteOrder.htons]
    have split : front ++ ((entry :: rest).flatMap (entryBytes .big) ++ back) =
        front ++ entryBytes .big entry ++ (rest.flatMap (entryBytes .big) ++ back) := by
      simp
    simp only [length_append, length_singleton, ByteOrder.bytes_length, Nat.add_assoc,
      Nat.reduceAdd, width] at low high others
    rw [length_cons, readEntries, readEntry, kind, split, others]
    simp only [entryBytes, ByteOrder.htons, append_assoc] at low high ⊢
    rw [low, high, UInt16.ofNat_toNat, UInt16.ofNat_toNat]

theorem len_iff (host : ByteOrder) (back : Bytes) :
    netU16 ([2] ++ (host.bytes (.ofNat (respAllocSize - 3)) ++ back)) 1 = respAllocSize - 3 ↔
      host = .big := by
  cases host <;> simp [netU16, ByteOrder.bytes, respAllocSize]

section Decodes

variable (host : ByteOrder) (freq : UInt16) (power : Power) (binPwr : Nat → UInt8)
  (reports : InterfReports)

theorem decodes_iff (memory : Bytes) (size : memory.length = respAllocSize) :
    Decodes freq reports (applyStores memory
        (serverBuildSingleSampRsp host freq 128 power binPwr true reports)) ↔ host = .big := by
  obtain ⟨rest, stored, kept⟩ := buffer_eq host freq 128 power binPwr reports memory
    (by rw [size]; decide)
  have few := present_length_le reports
  have extent := head_length host freq 128 power binPwr
  rw [stored]
  have len := len_iff host (ByteOrder.big.bytes freq ++ (ByteOrder.big.bytes 128 ++
    ((List.range 128).map (power.sample binPwr) ++ (tail host reports ++ rest))))
  constructor
  · intro decoded
    have found := decoded.len
    rw [kept, size, head] at found
    simp only [append_assoc] at found
    exact len.mp found
  · rintro rfl
    have known := netU16_behind ([2] ++ ByteOrder.big.bytes (.ofNat (respAllocSize - 3)))
      (ByteOrder.big.bytes 128 ++ ((List.range 128).map (power.sample binPwr) ++
        (tail .big reports ++ rest))) freq
    have samples := netU16_behind
      ([2] ++ ByteOrder.big.bytes (.ofNat (respAllocSize - 3)) ++ ByteOrder.big.bytes freq)
      ((List.range 128).map (power.sample binPwr) ++ (tail .big reports ++ rest)) 128
    have counted := netU16_behind (head .big freq 128 power binPwr)
      ((present reports).flatMap (entryBytes .big) ++ rest) (.ofNat (present reports).length)
    have listed := readEntries_behind (head .big freq 128 power binPwr ++
      ByteOrder.big.bytes (.ofNat (present reports).length)) rest (present reports)
    simp only [length_append, length_singleton, ByteOrder.bytes_length, extent,
      Nat.reduceAdd, append_assoc] at known samples counted listed
    refine ⟨?_, ?_, ?_, ?_, ?_⟩
    · have first := len.mpr rfl
      rw [kept, size]
      simpa only [head, append_assoc] using first
    · simpa only [head, append_assoc] using known
    · have samples' := samples.trans (show (128 : UInt16).toNat = 128 from rfl)
      simpa only [head, append_assoc] using samples'
    · rw [UInt16.toNat_ofNat', Nat.mod_eq_of_lt (by simp only [maxInterfCount] at few; omega)]
        at counted
      simpa only [tail, append_assoc] using counted
    · simpa only [tail, append_assoc] using listed

theorem fits_iff (pwrCount : Nat) :
    (∀ store ∈ serverBuildSingleSampRsp host freq pwrCount power binPwr true reports,
      store.Fits respAllocSize) ↔ pwrCount ≤ 135 := by
  have few := present_length_le reports
  have size := entries_length (present reports)
  constructor
  · intro all
    have block := all ⟨7 + pwrCount, List.replicate 52 0⟩ (by simp [serverBuildSingleSampRsp])
    simp only [Store.Fits, length_replicate, respAllocSize] at block
    omega
  · intro small
    have entry (store : Store)
        (stored : store ∈ entryStores host (7 + pwrCount + 2) (List.ofFn reports)) :
        store.Fits respAllocSize := by
      rw [entryStores_eq] at stored
      have within := consecutive_fits _ _ store stored
      have total : (((List.ofFn reports).filter fun entry => entry.interfType ≠ 0).map
          (entryBytes .big)).flatten.length = 5 * (present reports).length := size
      rw [Store.Fits, total] at within
      simp only [Store.Fits, respAllocSize, maxInterfCount] at few ⊢
      omega
    unfold serverBuildSingleSampRsp addFromGlobalInterferenceReport
    simp only [if_true, forall_mem_append, forall_mem_cons, forall_mem_map,
      not_mem_nil, false_implies, implies_true, and_true, Store.Fits, length_singleton,
      ByteOrder.bytes_length, length_replicate, mem_range]
    refine ⟨⟨⟨⟨⟨?_, ?_, ?_, ?_⟩, ?_⟩, ?_, ?_⟩, entry, ?_⟩, ?_⟩
    all_goals simp only [respAllocSize]
    -- the four members in front, the samples, and the number of interferers twice
    · omega
    · omega
    · omega
    · omega
    · intro i below
      omega
    · omega
    · omega
    · omega
    · split
      · simp only [forall_mem_singleton, ByteOrder.bytes_length]
        omega
      · simp

end Decodes

theorem response_wellBuilt (host : ByteOrder) (memory : Vector UInt8 respAllocSize)
    (freq : UInt16) (pwrCount : UInt16) (power : Power) (binPwr : Nat → UInt8)
    (reports : InterfReports) :
    WellBuilt host memory freq pwrCount power binPwr reports ↔
      (pwrCount = 128 → host = .big) ∧ pwrCount.toNat ≤ 135 := by
  have fits := fits_iff host freq power binPwr reports pwrCount.toNat
  have decodes := decodes_iff host freq power binPwr reports memory.toList (by simp)
  constructor
  · intro built
    refine ⟨?_, fits.mp built.inside⟩
    intro full
    have read := built.decodes full
    rw [full] at read
    exact decodes.mp read
  · rintro ⟨order, small⟩
    refine ⟨fits.mpr small, ?_⟩
    intro full
    rw [full]
    exact decodes.mpr (order full)

/-- On a little endian host the length reads back as 48896, and the block behind 136 bins ends
behind the buffer. -/
theorem response_not_wellBuilt :
    ¬ WellBuilt .little (Vector.replicate respAllocSize 0) 2437 128 ⟨false, 0, 1, fun _ val => val⟩
      (fun _ => 10) (fun _ => ⟨0, 0, 0⟩) ∧
    ¬ WellBuilt .big (Vector.replicate respAllocSize 0) 2437 136 ⟨false, 0, 1, fun _ val => val⟩
      (fun _ => 10) (fun _ => ⟨0, 0, 0⟩) := by
  constructor
  · intro built
    have order := (decodes_iff .little 2437 _ _ _ _ (by simp)).mp (built.decodes rfl)
    contradiction
  · intro built
    have small := (fits_iff .big 2437 _ _ _ _).mp built.inside
    simp at small

end AthApps.Spectral
