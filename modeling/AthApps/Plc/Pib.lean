import AthApps.Plc.Checksum
import AthApps.Plc.Sha256

/-!
# Parameter information blocks

`pib/pibfile.c` accepts a PIB file whose length field gives its size and whose
words sum up to zero.  `pibedit` of `pib/modpib.c` rewrites the fields of the
`simple_pib` header that its flags select, derives the network identifier from
the network key, clears the membership word and computes the checksum again.
-/

set_option autoImplicit false

namespace AthApps.Plc

open AthApps.Lib

/-- The `_file_` structure of the tools: an open file and its name. -/
structure NamedFile where
  name : String
  file : Stream

namespace NamedFile

def content (file : NamedFile) : Bytes := file.file.content

end NamedFile

def simplePibSize : Nat := 460

/-- A member of the packed structure `simple_pib`. -/
structure PibField where
  offset : Nat
  extent : Nat
  inside : offset + extent ≤ simplePibSize

namespace PibField

def pibVersion : PibField := ⟨0, 2, by decide⟩
def pibLength : PibField := ⟨4, 2, by decide⟩
def checksum : PibField := ⟨8, 4, by decide⟩
def mac : PibField := ⟨12, 6, by decide⟩
def dak : PibField := ⟨18, 16, by decide⟩
def mfg : PibField := ⟨36, 64, by decide⟩
def nmk : PibField := ⟨100, 16, by decide⟩
def usr : PibField := ⟨116, 64, by decide⟩
def net : PibField := ⟨180, 64, by decide⟩
def ccoSelection : PibField := ⟨244, 1, by decide⟩
def preferredNid : PibField := ⟨248, 7, by decide⟩

def Covers (field : PibField) (index : Nat) : Prop :=
  field.offset ≤ index ∧ index < field.offset + field.extent

instance (field : PibField) (index : Nat) : Decidable (field.Covers index) :=
  inferInstanceAs (Decidable (_ ∧ _))

end PibField

/-- The structure `simple_pib` as it lies in memory. -/
structure SimplePib where
  bytes : Bytes
  size : bytes.length = simplePibSize

namespace SimplePib

variable (pib : SimplePib) (field : PibField)

def get : Bytes :=
  slice pib.bytes field.offset field.extent

def set (data : Bytes) (fits : data.length = field.extent) : SimplePib where
  bytes := overlay pib.bytes field.offset data
  size := by rw [overlay_length_of_le _ _ _ (by rw [pib.size, fits]; exact field.inside), pib.size]

@[simp] theorem get_length : (pib.get field).length = field.extent := by
  rw [get, slice_length_of_le _ _ _ (by rw [pib.size]; exact field.inside)]

def copy (pib sample : SimplePib) (field : PibField) : SimplePib :=
  pib.set field (sample.get field) (sample.get_length field)

end SimplePib

def pibMac : UInt32 := (1 : UInt32) <<< 3
def pibMacinc : UInt32 := (1 : UInt32) <<< 4
def pibNmk : UInt32 := (1 : UInt32) <<< 5
def pibDak : UInt32 := (1 : UInt32) <<< 6
def pibMfgstring : UInt32 := (1 : UInt32) <<< 7
def pibUser : UInt32 := (1 : UInt32) <<< 8
def pibNetwork : UInt32 := (1 : UInt32) <<< 9
def pibCcoMode : UInt32 := (1 : UInt32) <<< 10
def pibNid : UInt32 := (1 : UInt32) <<< 11

def anyset (flags mask : UInt32) : Bool := flags &&& mask != 0

def allclr (flags mask : UInt32) : Bool := flags &&& mask == 0

/-- `tools/memincr.c`: the carry runs from the last byte to the first.  The
recursion is on the reversed region, lowest byte first. -/
def memincrReversed : Bytes → Bytes
  | [] => []
  | byte :: rest =>
    if byte + 1 ≠ 0 then (byte + 1) :: rest else (byte + 1) :: memincrReversed rest

def memincr (memory : Bytes) : Bytes := (memincrReversed memory.reverse).reverse

def hash (memory : Bytes) : Bytes := sha256Fetch (sha256Write sha256Reset memory)

def hpavKeyNid (nmk : Bytes) (level : UInt8) : Bytes :=
  let digest := hash nmk
  let digest := hash (hash (hash (hash digest)))
  let last := (digest.getD 6 0 >>> 4) ||| (level <<< 4)
  digest.take 6 ++ [last]

variable (flags : UInt32) (level : Int) (pib : SimplePib)

/-- The low bit of a `signed` level, as the callee receives it. -/
def levelBit : UInt8 := UInt8.ofNat (level % 2).toNat

def le16toh (bytes : Bytes) : Nat := (bytes.getD 0 0).toNat + 256 * (bytes.getD 1 0).toNat

def ntohs (bytes : Bytes) : Nat := 256 * (bytes.getD 0 0).toNat + (bytes.getD 1 0).toNat

@[simp] theorem memincrReversed_length (memory : Bytes) :
    (memincrReversed memory).length = memory.length := by
  induction memory with
  | nil => rfl
  | cons byte rest ih =>
    unfold memincrReversed
    split <;> simp [ih]

@[simp] theorem memincr_length (memory : Bytes) : (memincr memory).length = memory.length := by
  simp [memincr]

@[simp] theorem hpavKeyNid_length (nmk : Bytes) (level : UInt8) :
    (hpavKeyNid nmk level).length = 7 := by
  simp [hpavKeyNid, hash]

def readSimplePib (file : Stream) : Option SimplePib :=
  let memory := ((file.seek 0).read simplePibSize).1
  if exact : memory.length = simplePibSize then some ⟨memory, exact⟩ else none

def pibfile (pib : NamedFile) : Except String NamedFile :=
  match readSimplePib pib.file with
  | none => .error ("Can't read header: " ++ pib.name)
  | some simplePib =>
    let length := le16toh (simplePib.get .pibLength)
    if pib.content.length ≠ length then
      .error ("Bad PIB length: " ++ pib.name)
    else if (fdchecksum32 (pib.file.seek 0) length Word.zero).1 ≠ Word.zero then
      .error ("Bad PIB checksum: " ++ pib.name)
    else
      .ok { pib with file := pib.file.seek 0 }

def membershipOffset : Nat := 0x1E8C

def membershipStatus : Word := Word.zero

def copyIf (flags mask : UInt32) (field : PibField) (sample pib : SimplePib) : SimplePib :=
  if anyset flags mask then pib.copy sample field else pib

def incrementMacIf : SimplePib :=
  if anyset flags pibMacinc then
    pib.set .mac (memincr (pib.get .mac)) (by rw [memincr_length, SimplePib.get_length])
  else
    pib

def editFields (sample pib : SimplePib) : SimplePib :=
  let pib := copyIf flags pibMac .mac sample pib
  let pib := incrementMacIf flags pib
  let pib := copyIf flags pibDak .dak sample pib
  let pib := copyIf flags pibNmk .nmk sample pib
  let pib := copyIf flags pibNetwork .net sample pib
  let pib := copyIf flags pibMfgstring .mfg sample pib
  let pib := copyIf flags pibUser .usr sample pib
  copyIf flags pibCcoMode .ccoSelection sample pib

/-- The level that goes into the network identifier: the caller's one, or the
one of the old identifier when only the network key changes. -/
def nidLevel : Int :=
  if allclr flags pibNid then
    ((pib.get .preferredNid).getD 6 0 >>> 4).toNat
  else
    level

def deriveNid : SimplePib :=
  if anyset flags (pibNmk ||| pibNid) then
    pib.set .preferredNid (hpavKeyNid (pib.get .nmk) (levelBit (nidLevel flags level pib)))
      (hpavKeyNid_length _ _)
  else
    pib

/-- The key or the level changes in a block newer than version 2.0. -/
def WritesMembership : Prop :=
  anyset flags (pibNmk ||| pibNid) = true ∧ 0x0200 < ntohs (pib.get .pibVersion)

instance (flags : UInt32) (pib : SimplePib) : Decidable (WritesMembership flags pib) :=
  inferInstanceAs (Decidable (_ ∧ _))

def clearMembership (file : Stream) : Stream :=
  if WritesMembership flags pib then
    (file.seek membershipOffset).write membershipStatus.toBytes
  else
    file

def setChecksum (checksum : Word) : SimplePib :=
  pib.set .checksum checksum.toBytes rfl

def pibedit (file : NamedFile) (samplePib : SimplePib) (level : Int) (flags : UInt32) :
    Except String NamedFile :=
  match readSimplePib file.file with
  | none => .error ("Can't read header: " ++ file.name)
  | some simplePib =>
    let simplePib := editFields flags samplePib simplePib
    let stream := clearMembership flags simplePib file.file
    let simplePib := deriveNid flags level simplePib
    let simplePib := setChecksum simplePib Word.zero
    let stream := (stream.seek 0).write simplePib.bytes
    let checksum := (fdchecksum32 (stream.seek 0) (le16toh (simplePib.get .pibLength)) Word.zero).1
    let simplePib := setChecksum simplePib checksum
    let stream := (stream.seek 0).write simplePib.bytes
    .ok { file with file := stream }

end AthApps.Plc
