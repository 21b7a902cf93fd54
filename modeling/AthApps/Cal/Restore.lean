import AthApps.Cal.Record

/-!
# Restoring the calibration data

`ar9300EepromRestoreInternalAddress` walks down the records from a start
address, for at most `MSTATE` records, and applies each record with a good
checksum to the image.  `ar9300EepromRestoreInternal` tries the places where a
first record may be and falls back on a template.
-/

set_option autoImplicit false

namespace AthApps.Cal

open AthApps.Lib

/-- `sizeof(ar9300_eeprom_t)` -/
def structSize : Nat := 1088

/-- The length of the buffer `word`. -/
def moutput : Nat := 2048

/-- The most records a scan looks at. -/
def mstate : Nat := 100

def eepromVersion (image : Bytes) : UInt8 := image.getD 0 0

def templateVersion (image : Bytes) : Nat := (image.getD 1 0).toNat

/-- The table `default9300`, with the template versions of its six entries. -/
structure Templates where
  default9300 : List Bytes
  size_eq : ∀ template ∈ default9300, template.length = structSize
  versions : default9300.map templateVersion = [2, 5, 4, 3, 6, 10]

/-- `Ar9300EepromTemplateDefault` -/
def templateDefault : Nat := 2

variable (templates : Templates) (memory : Memory) (word : Buffer) (mptr : Bytes)
    (mdataSize : Nat)

def Templates.structDefaultFindById (id : Nat) : Option Bytes :=
  templates.default9300.find? fun template => templateVersion template = id

structure Scan where
  cptr : Int
  word : Buffer
  image : Bytes
  restored : Bool

inductive Round where
  | blank
  | mismatch
  | next (scan : Scan)

/-- What a record with a good checksum does to the image. -/
inductive Applied where
  | mismatch
  | skipped
  | image (image : Bytes)

def referenceImage (reference : Nat) (image : Bytes) : Option Bytes :=
  if reference = referenceCurrent then some image
  else templates.structDefaultFindById reference

def restoreRecord (header : Header) (word : Buffer) (image : Bytes) : Except Fault Applied :=
  match header.code with
  | .none =>
    if header.length ≠ mdataSize then .ok .mismatch
    else .ok (.image (window word compressionHeaderLength header.length))
  | .block =>
    match referenceImage templates header.reference image with
    | none => .ok .skipped
    | some reference =>
      match ar9300UncompressBlock reference mdataSize
          (fun index => word (compressionHeaderLength + index))
          (moutput - compressionHeaderLength) header.length with
      | .error fault => .error fault
      | .ok (_, image) => .ok (.image image)
  | _ => .ok .skipped

def restoreRound (scan : Scan) : Except Fault Round :=
  let word := memory.readArray scan.cptr scan.word compressionHeaderLength
  if headerBlank word = true then .ok .blank
  else
    let header := compressionHeaderUnpack word
    if recordLength header.length > moutput then .error .word
    else
      let word := memory.readArray scan.cptr word (recordLength header.length)
      let cptr := scan.cptr - recordLength header.length
      if compressionChecksum (window word compressionHeaderLength header.length) =
          storedChecksum word header.length then
        match restoreRecord templates mdataSize header word scan.image with
        | .error fault => .error fault
        | .ok .mismatch => .ok .mismatch
        | .ok .skipped => .ok (.next { scan with cptr := cptr, word := word })
        | .ok (.image image) =>
          .ok (.next { cptr := cptr, word := word, image := image, restored := true })
      else .ok (.next { scan with cptr := cptr, word := word })

/-- What the scan returns when it has ended: the address behind the records, or -1. -/
def Scan.result (scan : Scan) : Int × Bytes :=
  (if scan.restored then scan.cptr else -1, scan.image)

@[irreducible] def restoreRounds (templates : Templates) (memory : Memory) (mdataSize : Nat) :
    Nat → Scan → Except Fault (Int × Bytes)
  | 0, scan => .ok scan.result
  | rounds + 1, scan =>
    match restoreRound templates memory mdataSize scan with
    | .error fault => .error fault
    | .ok .blank => .ok scan.result
    | .ok .mismatch => .ok (-1, scan.image)
    | .ok (.next scan) => restoreRounds templates memory mdataSize rounds scan

/-- `ar9300EepromRestoreInternalAddress`, with what was on the stack in `word`
and in the buffer `mptr`. -/
def restoreInternalAddress (cptr : Int) : Except Fault (Int × Bytes) :=
  restoreRounds templates memory mdataSize mstate
    { cptr := cptr, word := word, image := mptr, restored := false }

/-- What is fixed for a board: where its calibration data is and what it is
told about that.  The data is saved at the address that is scanned first. -/
structure Board where
  /-- The memory the data is in. -/
  kind : MemoryKind
  /-- `ar9300EepromSize`, 0 when there is no EEPROM. -/
  eepromSize : Int
  /-- The chip has 512 bytes of OTP. -/
  shortOtp : Bool
  /-- `CalibrationDataTryAddress` -/
  tryAddress : Int
  /-- `SaveAddress` -/
  saveAddress : Int

namespace Board

def otpBaseAddress (board : Board) : Int := if board.shortOtp then 0x1ff else 0x3ff

def eepromBaseAddress (board : Board) : Int :=
  if board.eepromSize > 0 then board.eepromSize - 1 else board.otpBaseAddress

def firstAddress (board : Board) : Int :=
  match board.kind with
  | .eeprom => if board.tryAddress ≠ 0 then board.tryAddress else board.eepromBaseAddress
  | .otp => board.otpBaseAddress

def otherAddresses (board : Board) : List Int :=
  match board.kind with
  | .eeprom =>
    if board.tryAddress ≠ 0 then []
    else if board.eepromBaseAddress ≠ 0x3ff then [0x3ff] else []
  | .otp => []

def startAddress (board : Board) : Int :=
  if board.saveAddress = 0 then board.eepromBaseAddress else board.saveAddress

/-- The data is saved where it is looked for first, and there is memory there. -/
structure Aligned (board : Board) : Prop where
  start : board.startAddress = board.firstAddress
  low : 0x40 ≤ board.firstAddress
  high : board.firstAddress < board.kind.limit

end Board

def restoreFrom (templates : Templates) (memory : Memory) (word : Buffer) (mdataSize : Nat) :
    List Int → Bytes → Except Fault (Int × Bytes)
  | [], mptr => .ok (-1, mptr)
  | address :: rest, mptr =>
    match restoreInternalAddress templates memory word mptr mdataSize address with
    | .error fault => .error fault
    | .ok (nptr, mptr) =>
      if nptr < 0 then restoreFrom templates memory word mdataSize rest mptr
      else .ok (nptr, mptr)

def restoreSomething (templates : Templates) (preference : Nat) (mptr : Bytes) :
    Int × Bytes :=
  match templates.structDefaultFindById preference with
  | some template => (0, template)
  | none =>
    match templates.structDefaultFindById templateDefault with
    | some template => (0, template)
    | none =>
      match templates.default9300.getLast? with
      | some template => (0, template)
      | none => (-1, mptr)

/-- `ar9300EepromRestoreInternal` -/
def restoreInternal (templates : Templates) (board : Board) (preference : Nat) (memory : Memory)
    (word : Buffer) (mptr : Bytes) (mdataSize : Nat) : Except Fault (Int × Bytes) :=
  match restoreFrom templates memory word mdataSize
      (board.firstAddress :: board.otherAddresses) mptr with
  | .error fault => .error fault
  | .ok (nptr, mptr) =>
    if nptr < 0 then .ok (restoreSomething templates preference mptr) else .ok (nptr, mptr)

def scanAfter (templates : Templates) (memory : Memory) (mdataSize : Nat) :
    Nat → Scan → Option Scan
  | 0, scan => some scan
  | rounds + 1, scan =>
    match restoreRound templates memory mdataSize scan with
    | .ok (.next scan) => scanAfter templates memory mdataSize rounds scan
    | _ => none

end AthApps.Cal
