import AthApps.Cal.Block

/-!
# Calibration memory and the records in it

Calibration data is written downwards: the byte with index `i` of a record that
starts at `address` is at `address - i`.  A record is a header of four bytes,
`length` bytes of data and a checksum of two bytes.  A read outside the memory
fails and leaves the byte of the buffer as it was.
-/

set_option autoImplicit false

namespace AthApps.Cal

open AthApps.Lib List

/-- `CalibrationDataEeprom` or `CalibrationDataOtp`. -/
inductive MemoryKind where
  | eeprom
  | otp
  deriving DecidableEq

/-- The first address above the memory: `AR9300_EEPROM_SIZE`, or 0x400. -/
def MemoryKind.limit : MemoryKind → Int
  | .eeprom => 16 * 1024
  | .otp => 0x400

structure Memory where
  kind : MemoryKind
  byte : Nat → UInt8

abbrev Buffer : Type := Nat → UInt8

namespace Memory

/-- `ar9300CalibrationDataRead` of one byte. -/
def read (memory : Memory) (address : Int) : Option UInt8 :=
  if 0 ≤ address ∧ address + 1 ≤ memory.kind.limit then some (memory.byte address.toNat) else none

def write (memory : Memory) (address : Int) (value : UInt8) : Memory :=
  { memory with
    byte := fun index => if (index : Int) = address then value else memory.byte index }

/-- `ar9300CalibrationDataReadArray` -/
def readArray (memory : Memory) (address : Int) (buffer : Buffer) (many : Nat) : Buffer :=
  fun index =>
    if index < many then (memory.read (address - index)).getD (buffer index) else buffer index

def Holds (memory : Memory) (address : Int) (bytes : Bytes) : Prop :=
  ∀ (index : Nat) (value : UInt8), bytes[index]? = some value →
    memory.read (address - index) = some value

/-- Only bytes at `low + 1 .. high` are different. -/
def SameOutside (low high : Int) (old new : Memory) : Prop :=
  new.kind = old.kind ∧ ∀ address, (address ≤ low ∨ high < address) →
    new.read address = old.read address

@[simp] theorem write_kind (memory : Memory) (address : Int) (value : UInt8) :
    (memory.write address value).kind = memory.kind := rfl

theorem read_write_self (memory : Memory) (address : Int) (value : UInt8)
    (low : 0 ≤ address) (high : address < memory.kind.limit) :
    (memory.write address value).read address = some value := by
  have inside : 0 ≤ address ∧ address + 1 ≤ (memory.write address value).kind.limit := by
    rw [write_kind]
    omega
  rw [read, if_pos inside]
  simp only [write]
  rw [if_pos (Int.toNat_of_nonneg low)]

theorem read_write_other (memory : Memory) (address other : Int) (value : UInt8)
    (different : other ≠ address) :
    (memory.write address value).read other = memory.read other := by
  by_cases inside : 0 ≤ other ∧ other + 1 ≤ memory.kind.limit
  · have still : 0 ≤ other ∧ other + 1 ≤ (memory.write address value).kind.limit := inside
    rw [read, read, if_pos still, if_pos inside]
    simp only [write]
    rw [if_neg (by omega)]
  · have still : ¬(0 ≤ other ∧ other + 1 ≤ (memory.write address value).kind.limit) := inside
    rw [read, read, if_neg still, if_neg inside]

namespace SameOutside

theorem refl (low high : Int) (memory : Memory) : SameOutside low high memory memory :=
  ⟨rfl, fun _ _ => rfl⟩

variable {old new : Memory} {low high : Int}

theorem trans {old middle new : Memory}
    (first : SameOutside low high old middle) (second : SameOutside low high middle new) :
    SameOutside low high old new :=
  ⟨second.1.trans first.1,
    fun address outside => (second.2 address outside).trans (first.2 address outside)⟩

theorem mono {low high low' high' : Int}
    (same : SameOutside low high old new) (below : low' ≤ low) (above : high ≤ high') :
    SameOutside low' high' old new :=
  ⟨same.1, fun address outside => same.2 address (by omega)⟩

theorem widen (same : SameOutside low high old new)
    (address : Int) (bytes : Bytes) (below : address - bytes.length ≤ low)
    (above : high ≤ address) : SameOutside (address - bytes.length) address old new :=
  same.mono below above

theorem write (memory : Memory) (address : Int) (value : UInt8) :
    SameOutside (address - 1) address memory (memory.write address value) :=
  ⟨rfl, fun other outside => read_write_other memory address other value (by omega)⟩

theorem holds_above (same : SameOutside low high old new)
    (address : Int) (bytes : Bytes) (above : high ≤ address - bytes.length)
    (held : old.Holds address bytes) : new.Holds address bytes := by
  intro index value found
  have bound : index < bytes.length := (List.getElem?_eq_some_iff.mp found).1
  rw [same.2 _ (by omega)]
  exact held index value found

end SameOutside

variable (memory : Memory)

variable (address : Int) (bytes : Bytes) (buffer : Buffer)

theorem holds_append (front rest : Bytes) : memory.Holds address (front ++ rest) ↔
      memory.Holds address front ∧ memory.Holds (address - front.length) rest := by
  constructor
  · intro held
    refine ⟨fun index value found => held index value ?_, fun index value found => ?_⟩
    · rw [getElem?_append_left (List.getElem?_eq_some_iff.mp found).1]
      exact found
    · have later := held (front.length + index) value (by
        rw [getElem?_append_right (by omega), Nat.add_sub_cancel_left]
        exact found)
      rw [show address - (front.length : Int) - (index : Int) =
        address - ((front.length + index : Nat) : Int) by omega]
      exact later
  · rintro ⟨atFront, atRest⟩ index value found
    by_cases bound : index < front.length
    · rw [getElem?_append_left bound] at found
      exact atFront index value found
    · rw [getElem?_append_right (by omega)] at found
      have later := atRest (index - front.length) value found
      rw [show address - (front.length : Int) - ((index - front.length : Nat) : Int) =
        address - (index : Int) by omega] at later
      exact later

theorem holds_cons (head : UInt8) (tail : Bytes) : memory.Holds address (head :: tail) ↔
      memory.read address = some head ∧ memory.Holds (address - 1) tail := by
  have split := holds_append memory address [head] tail
  have first : memory.Holds address [head] ↔ memory.read address = some head := by
    constructor
    · intro held
      simpa using held 0 head rfl
    · intro found index value here
      cases index with
      | zero =>
        obtain rfl : head = value := by simpa using here
        simpa using found
      | succ index => simp at here
  rw [first] at split
  exact split

theorem holds_nil : memory.Holds address [] := by
  intro index value found
  simp at found

theorem readArray_holds
    (many : Nat) (enough : bytes.length ≤ many) (held : memory.Holds address bytes) :
    window (memory.readArray address buffer many) 0 bytes.length = bytes := by
  apply ext_getElem?
  intro index
  by_cases bound : index < bytes.length
  · rw [window_getElem? _ _ _ _ bound, getElem?_eq_getElem bound, Nat.zero_add]
    congr 1
    simp only [readArray]
    rw [if_pos (by omega), held index bytes[index] (getElem?_eq_getElem bound)]
    rfl
  · rw [List.getElem?_eq_none (by rw [window_length]; omega),
      List.getElem?_eq_none (by omega)]

theorem readArray_apply (many index : Nat)
    (value : UInt8) (bound : index < many) (found : memory.read (address - index) = some value) :
    memory.readArray address buffer many index = value := by
  simp only [readArray]
  rw [if_pos bound, found]
  rfl

end Memory

/-- `enum CompressAlgorithm` -/
inductive CompressAlgorithm where
  | none
  | lzma
  | pairs
  | block
  | compress4
  | compress5
  | compress6
  | compress7
  deriving DecidableEq

namespace CompressAlgorithm

def code : CompressAlgorithm → Nat
  | none => 0
  | lzma => 1
  | pairs => 2
  | block => 3
  | compress4 => 4
  | compress5 => 5
  | compress6 => 6
  | compress7 => 7

def ofCode : Nat → CompressAlgorithm
  | 0 => none
  | 1 => lzma
  | 2 => pairs
  | 3 => block
  | 4 => compress4
  | 5 => compress5
  | 6 => compress6
  | _ => compress7

theorem code_lt (algorithm : CompressAlgorithm) : algorithm.code < 8 := by
  cases algorithm <;> decide

@[simp] theorem ofCode_code (algorithm : CompressAlgorithm) :
    ofCode algorithm.code = algorithm := by
  cases algorithm <;> rfl

end CompressAlgorithm

structure Header where
  code : CompressAlgorithm
  reference : Nat
  length : Nat
  major : Nat
  minor : Nat
  deriving DecidableEq

def compressionHeaderLength : Nat := 4

def compressionChecksumLength : Nat := 2

def referenceCurrent : Nat := 0

variable (header : Header) (data : Bytes)

def compressionHeaderPack : Bytes :=
  [ UInt8.ofNat (((header.code.code &&& 0x7) <<< 5) ||| (header.reference &&& 0x1f)),
    UInt8.ofNat (((header.reference &&& 0x20) <<< 2) ||| ((header.length &&& 0x7f0) >>> 4)),
    UInt8.ofNat (((header.length &&& 0xf) <<< 4) ||| (header.major &&& 0xf)),
    UInt8.ofNat (header.minor &&& 0xff) ]

def compressionHeaderUnpack (best : Buffer) : Header where
  code := .ofCode (((best 0).toNat >>> 5) &&& 0x7)
  reference := ((best 0).toNat &&& 0x1f) ||| (((best 1).toNat >>> 2) &&& 0x20)
  length := (((best 1).toNat <<< 4) &&& 0x7f0) ||| (((best 2).toNat >>> 4) &&& 0xf)
  major := (best 2).toNat &&& 0xf
  minor := (best 3).toNat &&& 0xff

theorem header_reference_high : ∀ reference < 64,
    (reference &&& 0x20) <<< 2 = (reference / 32) <<< 7 := by
  decide

theorem header_length_high : ∀ value < 256, (value <<< 4) &&& 0x7f0 = (value % 128) <<< 4 := by
  decide +kernel

theorem header_reference_bit : ∀ value < 256, (value >>> 2) &&& 0x20 = (value / 128) <<< 5 := by
  decide +kernel

theorem pack_byte0 (code reference : Nat) :
    ((code &&& 0x7) <<< 5) ||| (reference &&& 0x1f) = code % 8 * 32 + reference % 32 := by
  rw [show (0x7 : Nat) = 2 ^ 3 - 1 from rfl, show (0x1f : Nat) = 2 ^ 5 - 1 from rfl,
    Nat.and_two_pow_sub_one_eq_mod, Nat.and_two_pow_sub_one_eq_mod,
    ← Nat.shiftLeft_add_eq_or_of_lt (Nat.mod_lt _ (by decide)), Nat.shiftLeft_eq]

theorem pack_byte1 (reference length : Nat) (small : reference < 64) :
    ((reference &&& 0x20) <<< 2) ||| ((length &&& 0x7f0) >>> 4) =
      reference / 32 * 128 + length / 16 % 128 := by
  rw [header_reference_high reference small, Nat.shiftRight_and_distrib,
    show (0x7f0 : Nat) >>> 4 = 2 ^ 7 - 1 from rfl, Nat.and_two_pow_sub_one_eq_mod,
    Nat.shiftRight_eq_div_pow, ← Nat.shiftLeft_add_eq_or_of_lt (Nat.mod_lt _ (by decide)),
    Nat.shiftLeft_eq]

theorem pack_byte2 (length major : Nat) :
    ((length &&& 0xf) <<< 4) ||| (major &&& 0xf) = length % 16 * 16 + major % 16 := by
  rw [show (0xf : Nat) = 2 ^ 4 - 1 from rfl, Nat.and_two_pow_sub_one_eq_mod,
    Nat.and_two_pow_sub_one_eq_mod, ← Nat.shiftLeft_add_eq_or_of_lt (Nat.mod_lt _ (by decide)),
    Nat.shiftLeft_eq]

theorem unpack_code (value : Nat) : (value >>> 5) &&& 0x7 = value / 32 % 8 := by
  rw [show (0x7 : Nat) = 2 ^ 3 - 1 from rfl, Nat.and_two_pow_sub_one_eq_mod,
    Nat.shiftRight_eq_div_pow]

theorem unpack_reference (value0 value1 : Nat) (small : value1 < 256) :
    (value0 &&& 0x1f) ||| ((value1 >>> 2) &&& 0x20) = value1 / 128 * 32 + value0 % 32 := by
  rw [header_reference_bit value1 small, show (0x1f : Nat) = 2 ^ 5 - 1 from rfl,
    Nat.and_two_pow_sub_one_eq_mod, Nat.or_comm,
    ← Nat.shiftLeft_add_eq_or_of_lt (Nat.mod_lt _ (by decide)), Nat.shiftLeft_eq]

theorem unpack_length (value1 value2 : Nat) (small : value1 < 256) :
    ((value1 <<< 4) &&& 0x7f0) ||| ((value2 >>> 4) &&& 0xf) =
      value1 % 128 * 16 + value2 / 16 % 16 := by
  rw [header_length_high value1 small, show (0xf : Nat) = 2 ^ 4 - 1 from rfl,
    Nat.and_two_pow_sub_one_eq_mod, Nat.shiftRight_eq_div_pow,
    ← Nat.shiftLeft_add_eq_or_of_lt (Nat.mod_lt _ (by decide)), Nat.shiftLeft_eq]

structure Header.Fits (header : Header) : Prop where
  reference : header.reference < 64
  length : header.length < 2048

@[simp] theorem compressionHeaderPack_length :
    (compressionHeaderPack header).length = compressionHeaderLength := rfl

theorem unpack_pack (word : Buffer) (fits : header.Fits)
    (held : window word 0 (compressionHeaderPack header).length = compressionHeaderPack header) :
    (compressionHeaderUnpack word).code = header.code ∧
      (compressionHeaderUnpack word).reference = header.reference ∧
      (compressionHeaderUnpack word).length = header.length := by
  obtain ⟨referenceLt, lengthLt⟩ := fits
  have codeLt := header.code.code_lt
  rw [compressionHeaderPack, window_eq_cons, window_eq_cons, window_eq_cons] at held
  obtain ⟨byte0, byte1, byte2, -⟩ := held
  have value0 : (word 0).toNat = header.code.code * 32 + header.reference % 32 := by
    rw [byte0, pack_byte0, UInt8.toNat_ofNat']
    omega
  have value1 : (word 1).toNat = header.reference / 32 * 128 + header.length / 16 % 128 := by
    rw [byte1, pack_byte1 _ _ referenceLt, UInt8.toNat_ofNat']
    omega
  have value2 : (word 2).toNat = header.length % 16 * 16 + header.major % 16 := by
    rw [byte2, pack_byte2, UInt8.toNat_ofNat']
    omega
  simp only [compressionHeaderUnpack]
  rw [unpack_code, unpack_reference _ _ (word 1).toNat_lt, unpack_length _ _ (word 1).toNat_lt,
    value0, value1, value2]
  refine ⟨?_, by omega, by omega⟩
  rw [show (header.code.code * 32 + header.reference % 32) / 32 % 8 = header.code.code by omega]
  exact header.code.ofCode_code

def compressionChecksum : Nat :=
  data.foldl (fun checksum byte => (checksum + byte.toNat) % 0x10000) 0

def checksumBytes (checksum : Nat) : Bytes :=
  [UInt8.ofNat (checksum &&& 0xff), UInt8.ofNat ((checksum >>> 8) &&& 0xff)]

@[simp] theorem checksumBytes_length (checksum : Nat) :
    (checksumBytes checksum).length = compressionChecksumLength := rfl

/-- The checksum behind `osize` bytes of data in the buffer of a scanner. -/
def storedChecksum (word : Buffer) (osize : Nat) : Nat :=
  (word (compressionHeaderLength + osize)).toNat |||
    ((word (compressionHeaderLength + osize + 1)).toNat <<< 8)

theorem compressionChecksum_lt : compressionChecksum data < 0x10000 := by
  rw [compressionChecksum]
  rcases eq_nil_or_concat data with rfl | ⟨front, last, rfl⟩
  · decide
  · rw [concat_eq_append, foldl_append]
    exact Nat.mod_lt _ (by decide)

theorem storedChecksum_bytes (word : Buffer) (osize checksum : Nat) (small : checksum < 0x10000)
    (held : window word (compressionHeaderLength + osize) (checksumBytes checksum).length =
      checksumBytes checksum) :
    storedChecksum word osize = checksum := by
  rw [checksumBytes, window_eq_cons, window_eq_cons] at held
  obtain ⟨low, high, -⟩ := held
  have lowEq : (word (compressionHeaderLength + osize)).toNat = checksum % 256 := by
    rw [low, show (0xff : Nat) = 2 ^ 8 - 1 from rfl, Nat.and_two_pow_sub_one_eq_mod,
      UInt8.toNat_ofNat']
    omega
  have highEq : (word (compressionHeaderLength + osize + 1)).toNat = checksum / 256 := by
    rw [high, show (0xff : Nat) = 2 ^ 8 - 1 from rfl, Nat.and_two_pow_sub_one_eq_mod,
      Nat.shiftRight_eq_div_pow, UInt8.toNat_ofNat']
    omega
  rw [storedChecksum, lowEq, highEq, Nat.or_comm,
    ← Nat.shiftLeft_add_eq_or_of_lt (Nat.mod_lt _ (by decide)), Nat.shiftLeft_eq]
  omega

def recordBytes : Bytes :=
  compressionHeaderPack header ++ (data ++ checksumBytes (compressionChecksum data))

/-- The bytes a record with `osize` bytes of data takes. -/
def recordLength (osize : Nat) : Nat :=
  compressionHeaderLength + osize + compressionChecksumLength

theorem recordBytes_length : (recordBytes header data).length = recordLength data.length := by
  simp only [recordBytes, length_append, compressionHeaderPack_length, recordLength]
  rw [Nat.add_assoc]
  rfl

/-- The test of the scanners for the end of the records. -/
def headerBlank (word : Buffer) : Bool :=
  (word 0 = 0 ∧ word 1 = 0 ∧ word 2 = 0 ∧ word 3 = 0) ∨
    (word 0 = 0xff ∧ word 1 = 0xff ∧ word 2 = 0xff ∧ word 3 = 0xff)

end AthApps.Cal
