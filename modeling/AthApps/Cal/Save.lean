import AthApps.Cal.Chain

/-!
# Saving the calibration data

`Ar9300EepromSave` looks for the shortest way to write the structure: as a
difference to one of the allowed templates, as a difference to what is in the
memory, or as it is.  Then it writes a record, with up to three attempts.  Each
byte is read back; a record whose data or checksum did not verify is left there
with a bad checksum, and a header that did not verify is overwritten with ones.
-/

set_option autoImplicit false

namespace AthApps.Cal

open AthApps.Lib List

/-- A memory together with what will happen to the next byte writes: `none` is
a write that succeeds, `some byte` one that leaves that byte.  Behind the end of
the list every write succeeds. -/
structure Device where
  memory : Memory
  outcomes : List (Option UInt8)

namespace Device

def writeByte (device : Device) (address : Int) (value : UInt8) : Device where
  memory := device.memory.write address ((device.outcomes.headD none).getD value)
  outcomes := device.outcomes.tail

@[grind =] def calibrationDataWrite : Device → Int → Bytes → Device
  | device, _, [] => device
  | device, address, value :: rest =>
    calibrationDataWrite (device.writeByte address value) (address - 1) rest

@[grind =] def calibrationDataWriteAndVerify : Device → Int → Bytes → Bool × Device
  | device, _, [] => (true, device)
  | device, address, value :: rest =>
    if (device.writeByte address value).memory.read address = some value then
      calibrationDataWriteAndVerify (device.writeByte address value) (address - 1) rest
    else (false, device.writeByte address value)

end Device

structure Settings where
  overwrite : Bool
  compress : Bool
  /-- `TemplateAllowed`; the empty list allows every template. -/
  templateAllowed : List Nat
  /-- `Ar9300ConfigSpaceUsed` -/
  configSpaceUsed : Int
  /-- `Ar9300EepromTemplatePreference` -/
  preference : Nat
  /-- `NartVersionMajor` and `NartVersionMinor` -/
  major : Nat
  minor : Nat

def Settings.lowLimit (settings : Settings) : Int :=
  if settings.configSpaceUsed < 0x40 then 0x40 else settings.configSpaceUsed

/-- One call of `Ar9300EepromSave`: the structure to save, the settings, and
what was on the stack in `word` and `xptr`. -/
structure Request where
  mptr : Bytes
  settings : Settings
  word : Buffer
  xptr : Bytes
  size_eq : mptr.length = structSize

/-- The locals `balgorithm`, `breference`, `bsize` and `best`. -/
structure Best where
  algorithm : CompressAlgorithm
  reference : Int
  size : Nat
  data : Bytes

/-- `CheckCompression`; its other two schemes always fail. -/
def checkCompression (mptr dptr : Bytes) (it : Nat) (best : Best) : Best :=
  match compressBlock (List.zipWith (· ^^^ ·) mptr dptr) mptr mptr.length moutput with
  | none => best
  | some output =>
    if output.length + 4 < best.size then
      { algorithm := .block, reference := it, size := output.length, data := output }
    else best

variable (templates : Templates) (board : Board) (request : Request) (restored : Int)
    (xptr : Bytes) (best : Best)

def allowedTemplates (settings : Settings) : List Bytes :=
  if settings.templateAllowed = [] then templates.default9300
  else settings.templateAllowed.filterMap templates.structDefaultFindById

/-- The save starts over at the top of the memory. -/
def overwriting (settings : Settings) : Bool :=
  settings.overwrite && decide (board.kind ≠ .otp)

def nextAddress (settings : Settings) (restored : Int) : Int :=
  let next := if restored = 0 then -1 else restored
  if overwriting board settings = true ∨ next < 0 then board.startAddress else next

def triesCompression (settings : Settings) (restored : Int) : Prop :=
  settings.compress = true ∨
    nextAddress board settings restored - structSize - compressionHeaderLength -
      compressionChecksumLength ≤ settings.lowLimit

instance (board : Board) (settings : Settings) (restored : Int) :
    Decidable (triesCompression board settings restored) := inferInstanceAs (Decidable (_ ∨ _))

def triesCurrent : Prop :=
  overwriting board request.settings = false ∧ 0 < restored ∧
    eepromVersion xptr = eepromVersion request.mptr

instance (board : Board) (request : Request) (restored : Int) (xptr : Bytes) :
    Decidable (triesCurrent board request restored xptr) := inferInstanceAs (Decidable (_ ∧ _))

def differences : Best :=
  let best := (allowedTemplates templates request.settings).foldl
    (fun best dptr => checkCompression request.mptr dptr (templateVersion dptr) best) best
  if triesCurrent board request restored xptr then
    checkCompression request.mptr xptr referenceCurrent best
  else best

def bestRecord : Best :=
  let best : Best := { algorithm := .none, reference := -1, size := structSize, data := [] }
  let best :=
    if triesCompression board request.settings restored then
      differences templates board request restored xptr best
    else best
  if best.size ≥ structSize then
    { algorithm := .none, reference := referenceCurrent, size := structSize, data := request.mptr }
  else best

/-- An attempt that failed, with the address of its header: at the header, or
behind it. -/
inductive Attempt where
  | header (address : Int)
  | body (address : Int)
  deriving DecidableEq

inductive Outcome where
  | failed (status : Int)
  | written (address next : Int)
  deriving DecidableEq

structure Attempts where
  device : Device
  failures : List Attempt
  outcome : Outcome

def Attempts.after (attempts : Attempts) (failure : Attempt) : Attempts :=
  { attempts with failures := failure :: attempts.failures }

/-- Four ones, which the scanners take for the end of the records. -/
def ones : Bytes := [0xff, 0xff, 0xff, 0xff]

def otpBlank (memory : Memory) (address : Int) (many : Nat) : Prop :=
  ∀ it < many, memory.read (address - it) = some 0

instance (memory : Memory) (address : Int) (many : Nat) :
    Decidable (otpBlank memory address many) :=
  inferInstanceAs (Decidable (∀ it < many, _))

def headerKept (before after : Buffer) : Prop := ∃ it < compressionHeaderLength, after it = before it

instance (before after : Buffer) : Decidable (headerKept before after) :=
  inferInstanceAs (Decidable (∃ it < compressionHeaderLength, _))

def readHeader (memory : Memory) (address : Int) : Buffer :=
  memory.readArray address (fun _ => 0) compressionHeaderLength

@[grind =] def saveLoop (header best : Bytes) (limit : Int) : Nat → Device → Int → Attempts
  | tries, device, nextaddress =>
    if nextaddress - best.length - compressionHeaderLength - compressionChecksumLength > limit then
      if device.memory.kind = .otp ∧
          ¬otpBlank device.memory nextaddress (recordLength best.length) then
        { device := device, failures := [], outcome := .failed (-5) }
      else
        match tries with
        | 0 => { device := device, failures := [], outcome := .failed (-2) }
        | tries + 1 =>
          let before := readHeader device.memory nextaddress
          let data := nextaddress - compressionHeaderLength
          let csum := data - best.length
          let next := csum - compressionChecksumLength
          match device.calibrationDataWriteAndVerify nextaddress header with
          | (true, device) =>
            match device.calibrationDataWriteAndVerify data best with
            | (true, device) =>
              match device.calibrationDataWriteAndVerify csum
                  (checksumBytes (compressionChecksum best)) with
              | (true, device) =>
                { device := device, failures := [],
                  outcome := .written nextaddress next }
              | (false, device) =>
                (saveLoop header best limit tries device next).after (.body nextaddress)
            | (false, device) =>
              let bad := device.calibrationDataWriteAndVerify csum
                (checksumBytes (compressionChecksum best ^^^ 0xffff))
              (saveLoop header best limit tries bad.2 next).after (.body nextaddress)
          | (false, device) =>
            if headerKept before (readHeader device.memory nextaddress) then
              let device := device.calibrationDataWrite nextaddress ones
              if (compressionHeaderUnpack
                  (readHeader device.memory nextaddress)).length < 1024 then
                { device := device, failures := [], outcome := .failed (-3) }
              else
                (saveLoop header best limit tries device data).after (.header nextaddress)
            else { device := device, failures := [], outcome := .failed (-1) }
    else { device := device, failures := [], outcome := .failed (-1) }

structure Saved where
  status : Int
  device : Device
  failures : List Attempt
  /-- The address of the record that was written. -/
  written : Option Int

def recordHeader (settings : Settings) : Header where
  code := best.algorithm
  reference := best.reference.toNat
  length := best.size
  major := settings.major
  minor := settings.minor

/-- `Ar9300EepromSave` behind the restore that it starts with. -/
def saveRestored (device : Device) (restored : Int) (xptr : Bytes) : Saved :=
  let best := bestRecord templates board request restored xptr
  if best.size > 0 ∨ restored = 0 then
    let loop := saveLoop (compressionHeaderPack (recordHeader best request.settings)) best.data
      request.settings.lowLimit 3 device (nextAddress board request.settings restored)
    match loop.outcome with
    | .failed status =>
      { status := status, device := loop.device, failures := loop.failures, written := none }
    | .written address next =>
      { status := best.size
        device :=
          if board.kind ≠ .otp then loop.device.calibrationDataWrite next ones else loop.device
        failures := loop.failures
        written := some address }
  else { status := best.size, device := device, failures := [], written := none }

/-- `Ar9300EepromSave` -/
def save (device : Device) : Except Fault Saved :=
  match restoreInternal templates board request.settings.preference device.memory request.word
      request.xptr structSize with
  | .error fault => .error fault
  | .ok (restored, xptr) => .ok (saveRestored templates board request device restored xptr)

namespace Device

variable (device : Device)

theorem eq_of_clean (clean : device.outcomes = []) : device = ⟨device.memory, []⟩ := by
  rw [← clean]

variable (memory : Memory) (address : Int) (bytes : Bytes)

theorem writeByte_sameOutside (value : UInt8) :
    Memory.SameOutside (address - 1) address device.memory
      (device.writeByte address value).memory :=
  Memory.SameOutside.write _ _ _

theorem calibrationDataWrite_sameOutside :
    Memory.SameOutside (address - bytes.length) address device.memory
      (device.calibrationDataWrite address bytes).memory := by
  induction bytes generalizing device address with
  | nil => exact .refl _ _ _
  | cons value rest ih =>
    have first := (device.writeByte_sameOutside address value).widen address (value :: rest)
      (by simp only [length_cons]; omega) (Int.le_refl _)
    have later := (ih (device.writeByte address value) (address - 1)).widen address
      (value :: rest) (by simp only [length_cons]; omega) (by omega)
    exact first.trans later

theorem writeAndVerify_sameOutside :
    Memory.SameOutside (address - bytes.length) address device.memory
      (device.calibrationDataWriteAndVerify address bytes).2.memory := by
  induction bytes generalizing device address with
  | nil => exact .refl _ _ _
  | cons value rest ih =>
    have first := (device.writeByte_sameOutside address value).widen address (value :: rest)
      (by simp only [length_cons]; omega) (Int.le_refl _)
    rw [calibrationDataWriteAndVerify]
    by_cases verified : (device.writeByte address value).memory.read address = some value
    · rw [if_pos verified]
      have later := (ih (device.writeByte address value) (address - 1)).widen address
        (value :: rest) (by simp only [length_cons]; omega) (by omega)
      exact first.trans later
    · rw [if_neg verified]
      exact first

theorem writeAndVerify_holds
    (verified : (device.calibrationDataWriteAndVerify address bytes).1 = true) :
    (device.calibrationDataWriteAndVerify address bytes).2.memory.Holds address bytes := by
  induction bytes generalizing device address with
  | nil => exact Memory.holds_nil _ _
  | cons value rest ih =>
    rw [calibrationDataWriteAndVerify] at verified ⊢
    by_cases here : (device.writeByte address value).memory.read address = some value
    · rw [if_pos here] at verified ⊢
      rw [Memory.holds_cons]
      have same := writeAndVerify_sameOutside (device.writeByte address value) (address - 1) rest
      exact ⟨(same.2 address (by omega)).trans here, ih _ _ verified⟩
    · rw [if_neg here] at verified
      simp at verified

theorem writeAndVerify_verifies
    (low : bytes.length ≤ address + 1) (high : address < memory.kind.limit) :
    ∃ memory', calibrationDataWriteAndVerify ⟨memory, []⟩ address bytes = (true, ⟨memory', []⟩) := by
  induction bytes generalizing memory address with
  | nil => exact ⟨memory, rfl⟩
  | cons value rest ih =>
    simp only [length_cons] at low
    have here : (writeByte ⟨memory, []⟩ address value).memory.read address = some value :=
      memory.read_write_self address value (by omega) high
    rw [calibrationDataWriteAndVerify, if_pos here]
    exact ih (memory.write address value) (address - 1) (by omega)
      (by rw [Memory.write_kind]; omega)

theorem writeAndVerify_clean
    (low : bytes.length ≤ address + 1) (high : address < memory.kind.limit) :
    ∃ memory', calibrationDataWriteAndVerify ⟨memory, []⟩ address bytes = (true, ⟨memory', []⟩) ∧
      memory'.Holds address bytes ∧
      Memory.SameOutside (address - bytes.length) address memory memory' := by
  obtain ⟨memory', written⟩ := writeAndVerify_verifies memory address bytes low high
  have same := writeAndVerify_sameOutside ⟨memory, []⟩ address bytes
  have held := writeAndVerify_holds ⟨memory, []⟩ address bytes (by rw [written])
  rw [written] at same held
  exact ⟨memory', written, held, same⟩

theorem calibrationDataWrite_clean
    (low : bytes.length ≤ address + 1) (high : address < memory.kind.limit) :
    (calibrationDataWrite ⟨memory, []⟩ address bytes).memory.Holds address bytes ∧
      (calibrationDataWrite ⟨memory, []⟩ address bytes).outcomes = [] := by
  induction bytes generalizing memory address with
  | nil => exact ⟨Memory.holds_nil _ _, rfl⟩
  | cons value rest ih =>
    simp only [length_cons] at low
    obtain ⟨held, clean⟩ := ih (memory.write address value) (address - 1) (by omega)
      (by rw [Memory.write_kind]; omega)
    refine ⟨?_, clean⟩
    rw [Memory.holds_cons]
    refine ⟨?_, held⟩
    have same := calibrationDataWrite_sameOutside ⟨memory.write address value, []⟩ (address - 1)
      rest
    exact (same.2 address (by omega)).trans
      (memory.read_write_self address value (by omega) high)

end Device

/-- Without faults the first attempt that may start writes the record. -/
theorem saveLoop_clean (header : Header) (best : Bytes) (limit : Int) (tries : Nat)
    (memory : Memory) (address : Int) (positive : 0 ≤ limit)
    (fit : address - best.length - compressionHeaderLength - compressionChecksumLength > limit)
    (high : address < memory.kind.limit)
    (blank : memory.kind = .otp → otpBlank memory address (recordLength best.length)) :
    ∃ memory', saveLoop (compressionHeaderPack header) best limit (tries + 1) ⟨memory, []⟩ address =
        { device := ⟨memory', []⟩, failures := [],
          outcome := .written address (address - recordLength best.length) } ∧
      memory'.Holds address (recordBytes header best) ∧
      Memory.SameOutside (address - recordLength best.length) address memory memory' := by
  have four : (compressionHeaderLength : Int) = 4 := rfl
  have two : (compressionChecksumLength : Int) = 2 := rfl
  obtain ⟨memory1, write1, held1, same1⟩ := Device.writeAndVerify_clean memory address
    (compressionHeaderPack header) (by rw [compressionHeaderPack_length]; omega) high
  rw [compressionHeaderPack_length] at same1
  obtain ⟨memory2, write2, held2, same2⟩ := Device.writeAndVerify_clean memory1
    (address - compressionHeaderLength) best (by omega) (by rw [same1.1]; omega)
  obtain ⟨memory3, write3, held3, same3⟩ := Device.writeAndVerify_clean memory2
    (address - compressionHeaderLength - best.length) (checksumBytes (compressionChecksum best))
    (by rw [checksumBytes_length]; omega) (by rw [same2.1, same1.1]; omega)
  rw [checksumBytes_length] at same3
  have behind : address - compressionHeaderLength - best.length - compressionChecksumLength =
      address - recordLength best.length := by
    simp only [recordLength]
    omega
  refine ⟨memory3, ?_, ?_, ?_⟩
  · rw [saveLoop, if_pos fit, if_neg (fun bad => bad.2 (blank bad.1))]
    simp only [write1, write2, write3, behind]
  · rw [recordBytes, Memory.holds_append, Memory.holds_append, compressionHeaderPack_length]
    refine ⟨?_, ?_, held3⟩
    · have step := same2.holds_above address _ (Int.le_refl _) held1
      exact same3.holds_above address _ (by rw [compressionHeaderPack_length]; omega) step
    · exact same3.holds_above _ _ (Int.le_refl _) held2
  · rw [← behind]
    exact ((same1.mono (by omega) (by omega)).trans (same2.mono (by omega) (by omega))).trans
      (same3.mono (by omega) (by omega))

end AthApps.Cal
