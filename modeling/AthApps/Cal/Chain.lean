import AthApps.Cal.Restore

/-!
# Chains of records

The memory a run of saves leaves is a chain: records that follow one another
down from the start address, each of which takes the image to the next one, and
behind them a header that ends the scan.
-/

set_option autoImplicit false

namespace AthApps.Cal

open AthApps.Lib

/-- The data of a record turns `image` into `image'`. -/
inductive Decodes (templates : Templates) (mdataSize : Nat) (header : Header) (data : Bytes)
    (image : Bytes) : Bytes → Prop
  | whole (code : header.code = .none) (size : data.length = mdataSize) (some_ : 0 < mdataSize) :
      Decodes templates mdataSize header data image data
  | difference (reference image' : Bytes) (code : header.code = .block)
      (found : referenceImage templates header.reference image = some reference)
      (decoded : ∀ block : Buffer, window block 0 data.length = data →
        ar9300UncompressBlock reference mdataSize block (moutput - compressionHeaderLength)
          data.length = .ok (true, image')) :
      Decodes templates mdataSize header data image image'

/-- At `address` there is a record that turns `image` into `image'`, and it
ends above `next`. -/
structure RecordAt (templates : Templates) (memory : Memory) (mdataSize : Nat)
    (address : Int) (image : Bytes) (next : Int) (image' : Bytes)
    (header : Header) (data : Bytes) : Prop where
  fits : header.Fits
  length : header.length = data.length
  room : recordLength data.length ≤ moutput
  held : memory.Holds address (recordBytes header data)
  next_eq : next = address - recordLength data.length
  decodes : Decodes templates mdataSize header data image image'

theorem headerBlank_unpack (word : Buffer) (blank : headerBlank word = true) :
    ((compressionHeaderUnpack word).code = .none ∧ (compressionHeaderUnpack word).length = 0) ∨
      (compressionHeaderUnpack word).code = .compress7 := by
  rcases of_decide_eq_true blank with ⟨zero0, zero1, zero2, -⟩ | ⟨ones0, -, -, -⟩
  · left
    simp only [compressionHeaderUnpack, zero0, zero1, zero2]
    decide
  · right
    simp only [compressionHeaderUnpack, ones0]
    decide

theorem read_record (memory : Memory) (address : Int) (word : Buffer) (header : Header)
    (data : Bytes) (fits : header.Fits) (length : header.length = data.length)
    (held : memory.Holds address (recordBytes header data)) :
    let first := memory.readArray address word compressionHeaderLength
    let second := memory.readArray address first (recordLength data.length)
    ((compressionHeaderUnpack first).code = header.code ∧
      (compressionHeaderUnpack first).reference = header.reference ∧
      (compressionHeaderUnpack first).length = data.length) ∧
    window second compressionHeaderLength data.length = data ∧
    storedChecksum second data.length = compressionChecksum data := by
  intro first second
  have headerHeld := ((memory.holds_append _ _ _).mp held).1
  have headerRead := memory.readArray_holds address (compressionHeaderPack header) word
    compressionHeaderLength (by simp) headerHeld
  have fields := unpack_pack header first fits headerRead
  have recordRead := memory.readArray_holds address (recordBytes header data) first
    (recordLength data.length) (Nat.le_of_eq (recordBytes_length header data)) held
  rw [recordBytes, window_eq_append, window_eq_append] at recordRead
  obtain ⟨-, dataRead, checksumRead⟩ := recordRead
  rw [compressionHeaderPack_length, Nat.zero_add] at dataRead checksumRead
  refine ⟨⟨fields.1, fields.2.1, fields.2.2.trans length⟩, dataRead, ?_⟩
  exact storedChecksum_bytes second data.length _ (compressionChecksum_lt data) checksumRead

variable {templates : Templates} {mdataSize : Nat}

variable {data image image' : Bytes} {header : Header}

theorem Decodes.not_blank (decodes : Decodes templates mdataSize header data image image')
    (word : Buffer) (code : (compressionHeaderUnpack word).code = header.code)
    (length : (compressionHeaderUnpack word).length = data.length) : ¬headerBlank word = true := by
  intro blank
  rcases headerBlank_unpack word blank with ⟨codeNone, lengthZero⟩ | code7
  · cases decodes with
    | whole code' size some_ => omega
    | difference reference _ code' found decoded =>
      rw [code, code'] at codeNone
      exact absurd codeNone (by decide)
  · cases decodes with
    | whole code' size some_ =>
      rw [code, code'] at code7
      exact absurd code7 (by decide)
    | difference reference _ code' found decoded =>
      rw [code, code'] at code7
      exact absurd code7 (by decide)

theorem Decodes.restoreRecord {header read : Header}
    (decodes : Decodes templates mdataSize header data image image')
    (word : Buffer) (code : read.code = header.code) (reference : read.reference = header.reference)
    (length : read.length = data.length)
    (dataRead : window word compressionHeaderLength data.length = data) :
    restoreRecord templates mdataSize read word image = .ok (.image image') := by
  cases decodes with
  | whole code' size some_ =>
    simp only [Cal.restoreRecord, code, code', length]
    rw [if_neg (not_not.mpr size), dataRead]
  | difference base _ code' found decoded =>
    simp only [Cal.restoreRecord, code, code', length, reference, found]
    rw [decoded]
    simpa [window] using dataRead

variable {memory : Memory} {address next : Int}

theorem RecordAt.restoreRound {image image' : Bytes} {data : Bytes}
    (record : RecordAt templates memory mdataSize address image next image' header data)
    (word : Buffer) (restored : Bool) :
    ∃ word', restoreRound templates memory mdataSize ⟨address, word, image, restored⟩ =
      .ok (.next ⟨next, word', image', true⟩) := by
  obtain ⟨fits, length, room, held, nextEq, decodes⟩ := record
  obtain ⟨⟨code, reference, lengthRead⟩, dataRead, checksumRead⟩ :=
    read_record memory address word header data fits length held
  refine ⟨memory.readArray address (memory.readArray address word compressionHeaderLength)
    (recordLength data.length), ?_⟩
  simp only [Cal.restoreRound]
  rw [if_neg (decodes.not_blank _ code lengthRead)]
  simp only [lengthRead]
  rw [if_neg (by omega), dataRead, checksumRead, if_pos rfl,
    decodes.restoreRecord _ code reference lengthRead dataRead, nextEq]

theorem RecordAt.frame {old new : Memory} {image image' : Bytes} {data : Bytes} {low high : Int}
    (record : RecordAt templates old mdataSize address image next image' header data)
    (same : Memory.SameOutside low high old new) (below : high ≤ next) :
    RecordAt templates new mdataSize address image next image' header data := by
  obtain ⟨fits, length, room, held, nextEq, decodes⟩ := record
  refine ⟨fits, length, room, ?_, nextEq, decodes⟩
  exact same.holds_above address _ (by rw [recordBytes_length]; omega) held

inductive Leads (templates : Templates) (memory : Memory) (mdataSize : Nat) :
    Int → Bytes → Nat → Int → Bytes → Prop
  | here (address : Int) (image : Bytes) :
      Leads templates memory mdataSize address image 0 address image
  | step {address middle next : Int} {image image' image'' : Bytes} {count : Nat}
      {header : Header} {data : Bytes}
      (record : RecordAt templates memory mdataSize address image middle image' header data)
      (rest : Leads templates memory mdataSize middle image' count next image'') :
      Leads templates memory mdataSize address image (count + 1) next image''

namespace Leads

variable {templates : Templates} {memory : Memory} {mdataSize : Nat}

variable {image image' : Bytes} {count : Nat}

variable {address next : Int}

theorem next_le (leads : Leads templates memory mdataSize address image count next image') :
    next ≤ address := by
  induction leads with
  | here address image => exact Int.le_refl address
  | step record rest ih =>
    have := record.next_eq
    omega

theorem snoc {address middle next : Int} {image image' image'' : Bytes}
    {header : Header} {data : Bytes}
    (leads : Leads templates memory mdataSize address image count middle image')
    (record : RecordAt templates memory mdataSize middle image' next image'' header data) :
    Leads templates memory mdataSize address image (count + 1) next image'' := by
  induction leads with
  | here address image => exact .step record (.here _ _)
  | step first rest ih => exact .step first (ih record)

theorem frame {new : Memory} {address next low high : Int}
    (leads : Leads templates memory mdataSize address image count next image')
    (same : Memory.SameOutside low high memory new) (below : high ≤ next) :
    Leads templates new mdataSize address image count next image' := by
  induction leads with
  | here address image => exact .here address image
  | step record rest ih =>
    have order := rest.next_le
    exact .step (record.frame same (by omega)) (ih below)

theorem restoreRounds (leads : Leads templates memory mdataSize address image count next image')
    (rounds : Nat) (word : Buffer) (restored : Bool) :
    ∃ word', Cal.restoreRounds templates memory mdataSize (count + rounds)
        ⟨address, word, image, restored⟩ =
      Cal.restoreRounds templates memory mdataSize rounds
        ⟨next, word', image', restored || decide (0 < count)⟩ := by
  induction leads generalizing word restored with
  | here address image => exact ⟨word, by simp⟩
  | @step address middle next image image' image'' count header data record rest ih =>
    obtain ⟨word', round⟩ := record.restoreRound word restored
    obtain ⟨word'', later⟩ := ih word' true
    refine ⟨word'', ?_⟩
    rw [show count + 1 + rounds = (count + rounds) + 1 by omega, Cal.restoreRounds, round]
    simpa using later

theorem scanAfter (leads : Leads templates memory mdataSize address image count next image')
    (rounds : Nat) (word : Buffer) (restored : Bool) :
    ∃ word', Cal.scanAfter templates memory mdataSize (count + rounds)
        ⟨address, word, image, restored⟩ =
      Cal.scanAfter templates memory mdataSize rounds
        ⟨next, word', image', restored || decide (0 < count)⟩ := by
  induction leads generalizing word restored with
  | here address image => exact ⟨word, by simp⟩
  | @step address middle next image image' image'' count header data record rest ih =>
    obtain ⟨word', round⟩ := record.restoreRound word restored
    obtain ⟨word'', later⟩ := ih word' true
    refine ⟨word'', ?_⟩
    rw [show count + 1 + rounds = (count + rounds) + 1 by omega, Cal.scanAfter, round]
    simpa using later

end Leads

/-- The four bytes at `address` end a scan. -/
def EndsAt (memory : Memory) (address : Int) : Prop :=
  memory.Holds address (List.replicate 4 0) ∨ memory.Holds address (List.replicate 4 0xff)

theorem EndsAt.restoreRound (templates : Templates) (mdataSize : Nat)
    (ends : EndsAt memory address) (word : Buffer) (image : Bytes) (restored : Bool) :
    restoreRound templates memory mdataSize ⟨address, word, image, restored⟩ = .ok .blank := by
  have blank : headerBlank (memory.readArray address word compressionHeaderLength) = true := by
    rw [headerBlank, decide_eq_true_eq]
    rcases ends with zeros | ones
    · left
      have read := memory.readArray_holds address _ word compressionHeaderLength (by simp
        [compressionHeaderLength]) zeros
      simpa [window, List.range_succ, List.replicate] using read
    · right
      have read := memory.readArray_holds address _ word compressionHeaderLength (by simp
        [compressionHeaderLength]) ones
      simpa [window, List.range_succ, List.replicate] using read
  simp only [Cal.restoreRound]
  rw [if_pos blank]

theorem EndsAt.restoreInternalAddress (templates : Templates) (mdataSize : Nat)
    (ends : EndsAt memory address) (word : Buffer) (mptr : Bytes) :
    restoreInternalAddress templates memory word mptr mdataSize address = .ok (-1, mptr) := by
  rw [Cal.restoreInternalAddress, mstate, restoreRounds, ends.restoreRound]
  rfl

end AthApps.Cal
