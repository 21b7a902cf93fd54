import AthApps.Cal.Save

/-!
# Saves and the restore that follows them

Without faults a run of saves keeps the memory either blank or a chain of
records, and the chain leads to what the last save wrote.  What a save was asked
to write is what a restore finds, unless the save took the empty difference to a
template for no change at all, or wrote a record behind the last one that a scan
looks at.
-/

set_option autoImplicit false

namespace AthApps.Cal

open AthApps.Lib List

/-! ## The templates -/

theorem find?_of_nodup_map {α β : Type} [DecidableEq β] (key : α → β) (items : List α)
    (distinct : (items.map key).Nodup) (item : α) (member : item ∈ items) :
    items.find? (fun other => key other = key item) = some item := by
  induction items with
  | nil => simp at member
  | cons head rest ih =>
    rw [map_cons, nodup_cons] at distinct
    rcases mem_cons.mp member with rfl | inRest
    · simp
    · have different : key head ≠ key item := by
        intro same
        exact distinct.1 (same ▸ mem_map_of_mem inRest)
      rw [find?_cons_of_neg (by simpa using different)]
      exact ih distinct.2 inRest

namespace Templates

variable (templates : Templates)

theorem version_mem (template : Bytes) (member : template ∈ templates.default9300) :
    templateVersion template ∈ [2, 5, 4, 3, 6, 10] := by
  rw [← templates.versions]
  exact mem_map_of_mem member

theorem version_bounds (template : Bytes) (member : template ∈ templates.default9300) :
    0 < templateVersion template ∧ templateVersion template < 64 := by
  have version := templates.version_mem template member
  have bounds : ∀ version ∈ [2, 5, 4, 3, 6, 10], 0 < version ∧ version < 64 := by decide
  exact bounds _ version

theorem find_own (template : Bytes) (member : template ∈ templates.default9300) :
    templates.structDefaultFindById (templateVersion template) = some template := by
  apply find?_of_nodup_map templateVersion templates.default9300
  · rw [templates.versions]
    decide
  · exact member

theorem allowed_mem (settings : Settings) (template : Bytes)
    (member : template ∈ allowedTemplates templates settings) :
    template ∈ templates.default9300 := by
  rw [allowedTemplates] at member
  by_cases all : settings.templateAllowed = []
  · rw [if_pos all] at member
    exact member
  · rw [if_neg all, mem_filterMap] at member
    obtain ⟨id, -, found⟩ := member
    exact mem_of_find?_eq_some found

theorem restoreSomething_zero (preference : Nat) (mptr : Bytes) :
    (restoreSomething templates preference mptr).1 = 0 := by
  have found : ∃ template, templates.structDefaultFindById templateDefault = some template := by
    have member : templateDefault ∈ templates.default9300.map templateVersion := by
      rw [templates.versions]
      decide
    obtain ⟨template, inTable, version⟩ := mem_map.mp member
    exact ⟨template, version ▸ templates.find_own template inTable⟩
  obtain ⟨template, found⟩ := found
  rw [restoreSomething]
  cases preferred : templates.structDefaultFindById preference with
  | some other => rfl
  | none => simp only [found]

end Templates

/-! ## The shortest record -/

/-- A difference that the save may choose, with its reference image. -/
inductive Candidate (templates : Templates) (board : Board) (request : Request) (restored : Int)
    (xptr : Bytes) : Nat → Bytes → Prop
  | template (dptr : Bytes) (tried : triesCompression board request.settings restored)
      (allowed : dptr ∈ allowedTemplates templates request.settings) :
      Candidate templates board request restored xptr (templateVersion dptr) dptr
  | current (tried : triesCurrent board request restored xptr) :
      Candidate templates board request restored xptr referenceCurrent xptr

structure Difference (templates : Templates) (board : Board) (request : Request) (restored : Int)
    (xptr : Bytes) (best : Best) (reference : Nat) (dptr : Bytes) : Prop where
  candidate : Candidate templates board request restored xptr reference dptr
  algorithm : best.algorithm = .block
  reference_eq : best.reference = reference
  size : best.size = best.data.length
  short : best.size + 4 < structSize
  coded : compressBlock (List.zipWith (· ^^^ ·) request.mptr dptr) request.mptr
    request.mptr.length moutput = some best.data

section best

variable {templates : Templates} {board : Board} {request : Request} {restored : Int}
  {xptr : Bytes}

theorem Candidate.size_eq {reference : Nat} {dptr : Bytes}
    (candidate : Candidate templates board request restored xptr reference dptr)
    (xptrSize : triesCurrent board request restored xptr → xptr.length = structSize) :
    dptr.length = structSize := by
  cases candidate with
  | template _ tried allowed =>
    exact templates.size_eq dptr (templates.allowed_mem request.settings dptr allowed)
  | current tried => exact xptrSize tried

def Searching (templates : Templates) (board : Board) (request : Request) (restored : Int)
    (xptr : Bytes) (best : Best) : Prop :=
  best.size = structSize ∨
    ∃ reference dptr, Difference templates board request restored xptr best reference dptr

variable {best : Best}

theorem Searching.size_le (searching : Searching templates board request restored xptr best) :
    best.size ≤ structSize := by
  rcases searching with whole | ⟨reference, dptr, difference⟩
  · omega
  · have := difference.short
    omega

theorem Searching.checkCompression {dptr : Bytes} {it : Nat}
    (searching : Searching templates board request restored xptr best)
    (candidate : Candidate templates board request restored xptr it dptr) :
    Searching templates board request restored xptr (checkCompression request.mptr dptr it best) := by
  rw [Cal.checkCompression]
  cases coded : compressBlock (List.zipWith (· ^^^ ·) request.mptr dptr) request.mptr
      request.mptr.length moutput with
  | none => exact searching
  | some output =>
    simp only
    by_cases shorter : output.length + 4 < best.size
    · rw [if_pos shorter]
      have bound := searching.size_le
      exact .inr ⟨it, dptr, candidate, rfl, rfl, rfl, by simp only; omega, coded⟩
    · rw [if_neg shorter]
      exact searching

theorem Searching.fold (list : List Bytes)
    (searching : Searching templates board request restored xptr best)
    (candidates : ∀ dptr ∈ list,
      Candidate templates board request restored xptr (templateVersion dptr) dptr) :
    Searching templates board request restored xptr
      (list.foldl (fun best dptr =>
        Cal.checkCompression request.mptr dptr (templateVersion dptr) best) best) := by
  induction list generalizing best with
  | nil => exact searching
  | cons dptr rest ih =>
    rw [foldl_cons]
    exact ih (searching.checkCompression (candidates dptr mem_cons_self))
      fun other member => candidates other (mem_cons_of_mem dptr member)

variable (templates : Templates)

theorem bestRecord_cases (board : Board) (request : Request) (restored : Int) (xptr : Bytes) :
    bestRecord templates board request restored xptr =
        { algorithm := .none, reference := referenceCurrent, size := structSize,
          data := request.mptr } ∨
      ∃ reference dptr, Difference templates board request restored xptr
        (bestRecord templates board request restored xptr) reference dptr := by
  have searching : Searching templates board request restored xptr
      (if triesCompression board request.settings restored then
        differences templates board request restored xptr
          { algorithm := .none, reference := -1, size := structSize, data := [] }
      else { algorithm := .none, reference := -1, size := structSize, data := [] }) := by
    have start : Searching templates board request restored xptr
        { algorithm := .none, reference := -1, size := structSize, data := [] } := .inl rfl
    by_cases tried : triesCompression board request.settings restored
    · rw [if_pos tried, differences]
      have folded := start.fold (allowedTemplates templates request.settings)
        fun dptr allowed => .template dptr tried allowed
      by_cases current : triesCurrent board request restored xptr
      · simp only [if_pos current]
        exact folded.checkCompression (.current current)
      · simp only [if_neg current]
        exact folded
    · rw [if_neg tried]
      exact start
  rw [bestRecord]
  rcases searching with whole | difference
  · left
    rw [if_pos (by omega)]
  · obtain ⟨reference, dptr, difference⟩ := difference
    have short := difference.short
    rw [if_neg (by omega)]
    exact .inr ⟨reference, dptr, difference⟩

theorem bestRecord_decodes (board : Board) (request : Request) (restored : Int) (xptr image : Bytes)
    (current : triesCurrent board request restored xptr → image = xptr)
    (xptrSize : triesCurrent board request restored xptr → xptr.length = structSize) :
    let best := bestRecord templates board request restored xptr
    Decodes templates structSize (recordHeader best request.settings) best.data image request.mptr := by
  intro best
  rcases bestRecord_cases templates board request restored xptr with whole | difference
  · have bestEq : best = _ := whole
    rw [bestEq]
    exact .whole rfl request.size_eq (by decide)
  · obtain ⟨reference, dptr, difference⟩ := difference
    have referenceEq : (recordHeader best request.settings).reference = reference := by
      simp only [recordHeader]
      rw [difference.reference_eq]
      rfl
    have dptrSize := difference.candidate.size_eq xptrSize
    refine .difference dptr request.mptr difference.algorithm ?_ ?_
    · rw [referenceEq, referenceImage]
      cases difference.candidate with
      | template _ tried allowed =>
        have member := templates.allowed_mem request.settings dptr allowed
        have positive := (templates.version_bounds dptr member).1
        rw [if_neg (by simp only [referenceCurrent]; omega)]
        exact templates.find_own dptr member
      | current tried => rw [if_pos rfl, current tried]
    · intro block held
      have short : best.size + 4 < structSize := difference.short
      have size : best.size = best.data.length := difference.size
      have room : best.data.length ≤ moutput - compressionHeaderLength := by
        simp only [moutput, compressionHeaderLength]
        simp only [structSize] at short
        omega
      have decoded := uncompress_compressBlock request.mptr dptr moutput
        (moutput - compressionHeaderLength) best.data block (request.size_eq.trans dptrSize.symm)
        difference.coded held room
      rw [request.size_eq] at decoded
      exact decoded

theorem bestRecord_fits (board : Board) (request : Request) (restored : Int) (xptr : Bytes) :
    let best := bestRecord templates board request restored xptr
    (recordHeader best request.settings).Fits ∧ best.size = best.data.length ∧
      best.size ≤ structSize := by
  intro best
  rcases bestRecord_cases templates board request restored xptr with whole | difference
  · have bestEq : best = _ := whole
    rw [bestEq]
    exact ⟨⟨by simp only [recordHeader]; decide, by simp only [recordHeader]; decide⟩, request.size_eq.symm, Nat.le_refl _⟩
  · obtain ⟨reference, dptr, difference⟩ := difference
    have short : best.size + 4 < structSize := difference.short
    refine ⟨⟨?_, ?_⟩, difference.size, by omega⟩
    · have referenceEq : best.reference = reference := difference.reference_eq
      simp only [recordHeader]
      rw [referenceEq]
      cases difference.candidate with
      | template _ tried allowed =>
        exact (templates.version_bounds dptr
          (templates.allowed_mem request.settings dptr allowed)).2
      | current tried => decide
    · simp only [structSize] at short
      simp only [recordHeader]
      omega

theorem bestRecord_empty (board : Board) (request : Request) (restored : Int) (xptr : Bytes)
    (xptrSize : triesCurrent board request restored xptr → xptr.length = structSize)
    (empty : (bestRecord templates board request restored xptr).size = 0) :
    ∃ reference, Candidate templates board request restored xptr reference request.mptr := by
  rcases bestRecord_cases templates board request restored xptr with whole | difference
  · rw [whole] at empty
    exact absurd empty (by simp only [structSize]; decide)
  · obtain ⟨reference, dptr, difference⟩ := difference
    have dptrSize := difference.candidate.size_eq xptrSize
    have same : request.mptr.length = dptr.length := request.size_eq.trans dptrSize.symm
    have noData : (bestRecord templates board request restored xptr).data = [] :=
      eq_nil_of_length_eq_zero (difference.size.symm.trans empty)
    have coded := difference.coded
    rw [noData] at coded
    have equal := compressBlock_nil _ request.mptr dptr moutput same
      (marks_xor request.mptr dptr same) coded
    exact ⟨reference, equal ▸ difference.candidate⟩

end best

/-! ## The memory between saves -/

def MemoryKind.blankByte : MemoryKind → UInt8
  | .eeprom => 0xff
  | .otp => 0

def Memory.blank (kind : MemoryKind) : Memory where
  kind := kind
  byte := fun _ => kind.blankByte

/-- The records lead to `image`, whatever was in the buffer before, and a scan
ends behind them. -/
structure Stored (templates : Templates) (board : Board) (memory : Memory) (count : Nat)
    (next : Int) (image : Bytes) : Prop where
  some_ : 0 < count
  few : count ≤ mstate
  leads : ∀ start, Leads templates memory structSize board.firstAddress start count next image
  size : image.length = structSize
  above : 0x40 < next
  ends : count < mstate → EndsAt memory next
  unused : board.kind = .otp → count < mstate →
    ∀ address, 0 ≤ address → address ≤ next → memory.read address = some 0

inductive Kept (templates : Templates) (board : Board) (memory : Memory) : Prop
  | blank (eq : memory = Memory.blank board.kind)
  | stored (count : Nat) (next : Int) (image : Bytes) (kind : memory.kind = board.kind)
      (records : Stored templates board memory count next image)

theorem Kept.kind_eq {templates : Templates} {board : Board} {memory : Memory}
    (kept : Kept templates board memory) : memory.kind = board.kind := by
  cases kept with
  | blank eq => rw [eq, Memory.blank]
  | stored count next image kind records => exact kind

theorem Memory.blank_read (kind : MemoryKind) (address : Int) (low : 0 ≤ address)
    (high : address < kind.limit) : (Memory.blank kind).read address = some kind.blankByte := by
  have inside : 0 ≤ address ∧ address + 1 ≤ (Memory.blank kind).kind.limit := ⟨low, high⟩
  rw [read, if_pos inside]
  rfl

theorem Memory.holds_replicate (memory : Memory) (address : Int) (many : Nat) (value : UInt8)
    (same : ∀ index < many, memory.read (address - index) = some value) :
    memory.Holds address (List.replicate many value) := by
  intro index other found
  rw [getElem?_replicate] at found
  by_cases bound : index < many
  · rw [if_pos bound] at found
    rw [same index bound]
    exact found
  · rw [if_neg bound] at found
    simp at found

theorem Memory.blank_endsAt (kind : MemoryKind) (address : Int) (low : 4 ≤ address)
    (high : address < kind.limit) : EndsAt (Memory.blank kind) address := by
  cases kind with
  | eeprom =>
    right
    apply holds_replicate
    intro index bound
    exact blank_read .eeprom (address - index) (by omega) (by omega)
  | otp =>
    left
    apply holds_replicate
    intro index bound
    exact blank_read .otp (address - index) (by omega) (by omega)

section runs

variable (templates : Templates) {board : Board}

theorem Board.other_bounds (board : Board) (address : Int)
    (other : address ∈ board.otherAddresses) : 4 ≤ address ∧ address < board.kind.limit := by
  simp only [Board.otherAddresses] at other
  cases kind : board.kind with
  | eeprom =>
    simp only [kind] at other
    split at other
    · simp at other
    · split at other
      · obtain rfl := mem_singleton.mp other
        decide
      · simp at other
  | otp =>
    simp only [kind] at other
    simp at other

theorem restoreFrom_blank (addresses : List Int) (word : Buffer) (mptr : Bytes)
    (kind : MemoryKind) (inside : ∀ address ∈ addresses, 4 ≤ address ∧ address < kind.limit) :
    restoreFrom templates (Memory.blank kind) word structSize addresses mptr = .ok (-1, mptr) := by
  induction addresses with
  | nil => rfl
  | cons address rest ih =>
    obtain ⟨low, high⟩ := inside address mem_cons_self
    rw [restoreFrom,
      (Memory.blank_endsAt kind address low high).restoreInternalAddress templates structSize]
    simp only
    rw [if_pos (by decide)]
    exact ih fun other member => inside other (mem_cons_of_mem address member)

theorem restoreInternal_blank (aligned : board.Aligned) (preference : Nat) (word : Buffer)
    (mptr : Bytes) :
    ∃ xptr, restoreInternal templates board preference (Memory.blank board.kind) word mptr
      structSize = .ok (0, xptr) := by
  have nothing := restoreFrom_blank templates
    (board.firstAddress :: board.otherAddresses) word mptr board.kind (by
      intro address member
      rcases mem_cons.mp member with rfl | other
      · have low := aligned.low
        exact ⟨by omega, aligned.high⟩
      · exact board.other_bounds address other)
  refine ⟨(restoreSomething templates preference mptr).2, ?_⟩
  rw [restoreInternal, nothing]
  simp only
  rw [if_pos (by decide)]
  congr 1
  exact Prod.ext (templates.restoreSomething_zero preference mptr) rfl

variable {templates}

variable {xptr : Bytes} {memory : Memory}

variable {request : Request} {count : Nat} {memory memory' : Memory}

variable {next restored : Int}

theorem Stored.restoreInternal {image : Bytes}
    (stored : Stored templates board memory count next image) (preference : Nat) (word : Buffer)
    (mptr : Bytes) :
    restoreInternal templates board preference memory word mptr structSize = .ok (next, image) := by
  have positive := stored.some_
  have few := stored.few
  have above := stored.above
  have scanned : restoreInternalAddress templates memory word mptr structSize board.firstAddress =
      .ok (next, image) := by
    obtain ⟨word', rounds⟩ := (stored.leads mptr).restoreRounds (mstate - count) word false
    rw [show count + (mstate - count) = mstate by omega, Bool.false_or,
      decide_eq_true positive] at rounds
    rw [restoreInternalAddress, rounds]
    by_cases full : count = mstate
    · rw [full, Nat.sub_self, restoreRounds]
      rfl
    · rw [show mstate - count = (mstate - count - 1) + 1 by omega, restoreRounds,
        (stored.ends (by omega)).restoreRound]
      rfl
  rw [Cal.restoreInternal, restoreFrom, scanned]
  simp only
  rw [if_neg (by omega)]
  simp only
  rw [if_neg (by omega)]

theorem Stored.scanAfter_full {image : Bytes}
    (stored : Stored templates board memory mstate next image) (word : Buffer) (mptr : Bytes) :
    scanAfter templates memory structSize mstate ⟨board.firstAddress, word, mptr, false⟩ ≠ none := by
  obtain ⟨word', rounds⟩ := (stored.leads mptr).scanAfter 0 word false
  rw [Nat.add_zero] at rounds
  rw [rounds]
  simp [scanAfter]

/-! ## One save -/

variable (settings : Settings)

theorem lowLimit_ge : 0x40 ≤ settings.lowLimit := by
  rw [Settings.lowLimit]
  split <;> omega

structure Wrote (templates : Templates) (board : Board) (request : Request) (memory : Memory)
    (restored : Int) (xptr : Bytes) (memory' : Memory) (next : Int) : Prop where
  record : ∀ image, (triesCurrent board request restored xptr → image = xptr) →
    ∃ header data, RecordAt templates memory' structSize
      (nextAddress board request.settings restored) image next request.mptr header data
  above : 0x40 < next
  same : board.kind = .otp →
    Memory.SameOutside next (nextAddress board request.settings restored) memory memory'
  sameAbove : ∃ low, Memory.SameOutside low (nextAddress board request.settings restored)
    memory memory'
  ends : board.kind ≠ .otp → EndsAt memory' next

def roomFor (templates : Templates) (board : Board) (request : Request) (restored : Int)
    (xptr : Bytes) : Prop :=
  nextAddress board request.settings restored -
      (bestRecord templates board request restored xptr).data.length - compressionHeaderLength -
      compressionChecksumLength > request.settings.lowLimit

/-- Without faults a save finds nothing to write, finds no room, or writes one record. -/
inductive SaveCases (templates : Templates) (board : Board) (request : Request) (memory : Memory)
    (restored : Int) (xptr : Bytes) (saved : Saved) : Prop
  | nothing (empty : (bestRecord templates board request restored xptr).size = 0)
      (found : restored ≠ 0) (status : saved.status = 0) (device : saved.device = ⟨memory, []⟩)
  | refused (status : saved.status < 0) (device : saved.device = ⟨memory, []⟩)
      (reason : ¬roomFor templates board request restored xptr ∨
        (memory.kind = .otp ∧ ¬otpBlank memory (nextAddress board request.settings restored)
          (recordLength (bestRecord templates board request restored xptr).data.length)))
  | wrote (memory' : Memory) (next : Int) (status : 0 ≤ saved.status)
      (device : saved.device = ⟨memory', []⟩)
      (wrote : Wrote templates board request memory restored xptr memory' next)

theorem saveLoop_refused (header best : Bytes) (limit : Int) (tries : Nat) (memory : Memory)
    (address : Int)
    (refused : ¬(address - best.length - compressionHeaderLength - compressionChecksumLength >
        limit) ∨
      (memory.kind = .otp ∧ ¬otpBlank memory address (recordLength best.length))) :
    ∃ status < 0, saveLoop header best limit (tries + 1) ⟨memory, []⟩ address =
      { device := ⟨memory, []⟩, failures := [], outcome := .failed status } := by
  by_cases fit : address - best.length - compressionHeaderLength - compressionChecksumLength > limit
  · rcases refused with unfit | notBlank
    · exact absurd fit unfit
    · refine ⟨-5, by decide, ?_⟩
      rw [saveLoop, if_pos fit, if_pos notBlank]
  · refine ⟨-1, by decide, ?_⟩
    rw [saveLoop, if_neg fit]

theorem saveRestored_cases (templates : Templates) (request : Request) (memory : Memory) (restored : Int)
    (xptr : Bytes) (kind : memory.kind = board.kind)
    (high : nextAddress board request.settings restored < board.kind.limit)
    (xptrSize : triesCurrent board request restored xptr → xptr.length = structSize) :
    SaveCases templates board request memory restored xptr
      (saveRestored templates board request ⟨memory, []⟩ restored xptr) := by
  obtain ⟨fits, size, sizeLe⟩ := bestRecord_fits templates board request restored xptr
  have decodes := bestRecord_decodes templates board request restored xptr
  have limitLow := lowLimit_ge request.settings
  have four : (compressionHeaderLength : Int) = 4 := rfl
  have two : (compressionChecksumLength : Int) = 2 := rfl
  generalize bestEq : bestRecord templates board request restored xptr = best
    at fits size sizeLe decodes
  rw [saveRestored, bestEq]
  by_cases writes : best.size > 0 ∨ restored = 0
  · simp only [if_pos writes]
    by_cases refused : ¬(nextAddress board request.settings restored - best.data.length -
          compressionHeaderLength - compressionChecksumLength > request.settings.lowLimit) ∨
        (memory.kind = .otp ∧ ¬otpBlank memory (nextAddress board request.settings restored)
            (recordLength best.data.length))
    · obtain ⟨status, negative, result⟩ := saveLoop_refused
        (compressionHeaderPack (recordHeader best request.settings)) best.data
        request.settings.lowLimit 2 memory _ refused
      rw [result]
      rw [← bestEq] at refused
      exact .refused negative rfl refused
    · rw [not_or, not_not, not_and, not_not] at refused
      obtain ⟨memory', result, held, same⟩ := saveLoop_clean (recordHeader best request.settings)
        best.data request.settings.lowLimit 2 memory _ (by omega) refused.1
        (by rw [kind]; exact high) refused.2
      have roomy : recordLength best.data.length ≤ moutput := by
        simp only [recordLength, moutput, compressionHeaderLength, compressionChecksumLength]
        simp only [structSize] at sizeLe
        omega
      obtain ⟨next, nextEq⟩ : ∃ next, next =
          nextAddress board request.settings restored - recordLength best.data.length := ⟨_, rfl⟩
      have above : 0x40 < next := by
        rw [nextEq, recordLength]
        omega
      rw [← nextEq] at result same
      have record : ∀ image, (triesCurrent board request restored xptr → image = xptr) →
          RecordAt templates memory' structSize (nextAddress board request.settings restored) image
            next request.mptr (recordHeader best request.settings) best.data := by
        intro image current
        exact ⟨fits, size, roomy, held, nextEq, decodes image current xptrSize⟩
      rw [result]
      by_cases isOtp : board.kind = .otp
      · refine .wrote memory' next (Int.natCast_nonneg _) (by simp only [if_neg (not_not.mpr isOtp)]) ?_
        exact ⟨fun image current => ⟨_, _, record image current⟩, above, fun _ => same,
          ⟨next, same⟩, fun notOtp => absurd isOtp notOtp⟩
      · obtain ⟨onesHeld, clean⟩ := Device.calibrationDataWrite_clean memory' next ones
          (by simp only [ones, length_cons, length_nil]; omega)
          (by rw [same.1, kind]; omega)
        have sameOnes := Device.calibrationDataWrite_sameOutside ⟨memory', []⟩ next ones
        have sameAll := (same.mono (by omega) (Int.le_refl _)).trans
          (sameOnes.mono (Int.le_refl _) (by omega))
        refine .wrote (Device.calibrationDataWrite ⟨memory', []⟩ next ones).memory next
          (Int.natCast_nonneg _) ?_
          ⟨fun image current => ⟨_, _, (record image current).frame sameOnes (Int.le_refl _)⟩,
            above, fun otp => absurd otp isOtp, ⟨_, sameAll⟩, fun _ => .inr onesHeld⟩
        simp only [if_pos isOtp]
        exact Device.eq_of_clean _ clean
  · rw [if_neg writes]
    rw [not_or] at writes
    have empty : best.size = 0 := by omega
    exact .nothing (bestEq ▸ empty) writes.2 (by simp [empty]) rfl

/-- The save is one that the restore sees: when the memory holds another image
than the one to save, that one is not an allowed template whose difference may
be taken, and a record that is appended is not beyond the reach of a scan. -/
structure Seen (templates : Templates) (board : Board) (request : Request) (memory : Memory) :
    Prop where
  template : ∀ restored xptr,
    restoreInternal templates board request.settings.preference memory request.word request.xptr
      structSize = .ok (restored, xptr) →
    restored ≠ 0 → triesCompression board request.settings restored →
    request.mptr ∈ allowedTemplates templates request.settings → request.mptr = xptr
  reach : overwriting board request.settings = false → scanAfter templates memory structSize mstate
      ⟨board.firstAddress, request.word, request.xptr, false⟩ = none

theorem Wrote.first (wrote : Wrote templates board request memory restored xptr memory' next)
    (top : nextAddress board request.settings restored = board.firstAddress)
    (notCurrent : ¬triesCurrent board request restored xptr)
    (unused : board.kind = .otp → ∀ address, 0 ≤ address → address ≤ next →
      memory.read address = some 0) : Stored templates board memory' 1 next request.mptr := by
  have above := wrote.above
  have blank : board.kind = .otp → ∀ address, 0 ≤ address → address ≤ next →
      memory'.read address = some 0 := by
    intro otp address low high
    rw [(wrote.same otp).2 address (.inl high)]
    exact unused otp address low high
  refine ⟨by decide, by decide, ?_, request.size_eq, above, ?_, fun otp _ => blank otp⟩
  · intro start
    obtain ⟨header, data, record⟩ := wrote.record start fun tried => absurd tried notCurrent
    rw [top] at record
    exact .step record (.here _ _)
  · intro _
    by_cases otp : board.kind = .otp
    · left
      apply Memory.holds_replicate
      intro index bound
      exact blank otp (next - index) (by omega) (by omega)
    · exact wrote.ends otp

/-- A record behind the ones that are there adds to them, as long as a scan gets there. -/
theorem Wrote.append {request : Request} {memory memory' : Memory} {count : Nat}
    {restored next : Int} {xptr : Bytes}
    (stored : Stored templates board memory count restored xptr)
    (wrote : Wrote templates board request memory restored xptr memory' next)
    (behind : nextAddress board request.settings restored = restored) :
    (count < mstate → Stored templates board memory' (count + 1) next request.mptr) ∧
      (count = mstate → Stored templates board memory' count restored xptr) := by
  have above := wrote.above
  obtain ⟨low, sameAbove⟩ := wrote.sameAbove
  rw [behind] at sameAbove
  obtain ⟨header, data, record⟩ := wrote.record xptr fun _ => rfl
  rw [behind] at record
  constructor
  · intro room
    have nextLe : next ≤ restored := by
      rw [record.next_eq]
      omega
    have blank : board.kind = .otp → ∀ address, 0 ≤ address → address ≤ next →
        memory'.read address = some 0 := by
      intro otp address low high
      rw [(wrote.same otp).2 address (.inl high)]
      exact stored.unused otp room address low (by omega)
    refine ⟨by omega, by omega, ?_, request.size_eq, above, ?_, fun otp _ => blank otp⟩
    · intro start
      exact ((stored.leads start).frame sameAbove (Int.le_refl _)).snoc record
    · intro _
      by_cases otp : board.kind = .otp
      · left
        apply Memory.holds_replicate
        intro index bound
        exact blank otp (next - index) (by omega) (by omega)
      · exact wrote.ends otp
  · intro full
    refine ⟨stored.some_, stored.few, ?_, stored.size, stored.above, by omega, by omega⟩
    intro start
    exact (stored.leads start).frame sameAbove (Int.le_refl _)

theorem nextAddress_over (restored : Int) (beyond : overwriting board settings = true) :
    nextAddress board settings restored = board.startAddress := by
  rw [nextAddress, if_pos (.inl beyond)]

theorem nextAddress_nothing : nextAddress board settings 0 = board.startAddress := by
  rw [nextAddress, if_pos (.inr (by decide))]

theorem nextAddress_append (restored : Int)
    (append : overwriting board settings = false) (positive : 0 < restored) :
    nextAddress board settings restored = restored := by
  rw [nextAddress, if_neg (show ¬restored = 0 by omega), if_neg]
  rintro (beyond | negative)
  · rw [append] at beyond
    exact Bool.false_ne_true beyond
  · omega

theorem save_blank (templates : Templates) (aligned : board.Aligned) (request : Request) :
    ∃ saved, save templates board request ⟨Memory.blank board.kind, []⟩ = .ok saved ∧
      Kept templates board saved.device.memory ∧
      (0 ≤ saved.status →
        ∃ count next, Stored templates board saved.device.memory count next request.mptr) := by
  obtain ⟨xptr, restored⟩ := restoreInternal_blank templates aligned
    request.settings.preference request.word request.xptr
  have top : nextAddress board request.settings 0 = board.firstAddress :=
    (nextAddress_nothing request.settings).trans aligned.start
  have notCurrent : ¬triesCurrent board request 0 xptr := fun tried => absurd tried.2.1 (by decide)
  have high := aligned.high
  refine ⟨_, by rw [save, restored], ?_⟩
  cases saveRestored_cases templates request (Memory.blank board.kind) 0 xptr
      rfl (by rw [top]; exact high)
      (fun tried => absurd tried notCurrent) with
  | nothing empty found status device => exact absurd rfl found
  | refused status device reason =>
    rw [device]
    exact ⟨.blank rfl, fun success => by omega⟩
  | wrote memory' next status device wrote =>
    rw [device]
    obtain ⟨header, data, record⟩ := wrote.record xptr fun _ => rfl
    have nextEq := record.next_eq
    have stored := wrote.first top notCurrent (by
      intro otp address low below
      have read := Memory.blank_read board.kind address low (by omega)
      rw [read, otp]
      rfl)
    obtain ⟨low, same⟩ := wrote.sameAbove
    exact ⟨.stored 1 next request.mptr same.1 stored,
      fun _ => ⟨1, next, stored⟩⟩

theorem Stored.nothing (stored : Stored templates board memory count restored xptr)
    (seen : Seen templates board request memory)
    (empty : (bestRecord templates board request restored xptr).size = 0) :
    request.mptr = xptr := by
  have found := stored.restoreInternal request.settings.preference request.word request.xptr
  have above := stored.above
  obtain ⟨reference, candidate⟩ := bestRecord_empty templates board request restored xptr
    (fun _ => stored.size) empty
  generalize image : request.mptr = mptr at candidate
  cases candidate with
  | template _ tried allowed =>
    rw [← image] at allowed ⊢
    exact seen.template restored xptr found (by omega) tried allowed
  | current tried => rfl

theorem Stored.nextAddress_high (stored : Stored templates board memory count restored xptr)
    (aligned : board.Aligned) (settings : Settings) :
    nextAddress board settings restored < board.kind.limit := by
  have above := stored.above
  have below := (stored.leads xptr).next_le
  have high := aligned.high
  by_cases beyond : overwriting board settings = true
  · rw [nextAddress_over settings restored beyond, aligned.start]
    exact high
  · rw [nextAddress_append settings restored (Bool.eq_false_iff.mpr beyond) (by omega)]
    omega

theorem Stored.wrote (stored : Stored templates board memory count restored xptr)
    (aligned : board.Aligned) (kind : memory.kind = board.kind)
    (wrote : Wrote templates board request memory restored xptr memory' next) :
    Kept templates board memory' ∧ (Seen templates board request memory →
      ∃ count next, Stored templates board memory' count next request.mptr) := by
  have above := stored.above
  have few := stored.few
  obtain ⟨low, same⟩ := wrote.sameAbove
  by_cases beyond : overwriting board request.settings = true
  · have notCurrent : ¬triesCurrent board request restored xptr := by
      intro tried
      rw [tried.1] at beyond
      exact Bool.false_ne_true beyond
    have notOtp : board.kind ≠ .otp := by
      intro otp
      rw [overwriting, otp] at beyond
      simp at beyond
    have first := wrote.first
      ((nextAddress_over request.settings restored beyond).trans aligned.start) notCurrent
      fun otp => absurd otp notOtp
    exact ⟨.stored 1 next request.mptr (same.1.trans kind) first, fun _ => ⟨1, next, first⟩⟩
  · have append : overwriting board request.settings = false := Bool.eq_false_iff.mpr beyond
    obtain ⟨room, full⟩ := wrote.append stored
      (nextAddress_append request.settings restored append (by omega))
    by_cases last : count = mstate
    · refine ⟨.stored count restored xptr (same.1.trans kind) (full last), fun seen => ?_⟩
      subst last
      exact absurd (seen.reach append) (stored.scanAfter_full request.word request.xptr)
    · have more := room (by omega)
      exact ⟨.stored (count + 1) next request.mptr (same.1.trans kind) more,
        fun _ => ⟨count + 1, next, more⟩⟩

/-- One save: the memory stays blank or a chain of records, and a save that
succeeds and is seen leads to what it saved. -/
theorem save_kept (aligned : board.Aligned) (request : Request) (memory : Memory)
    (kept : Kept templates board memory) :
    ∃ saved, save templates board request ⟨memory, []⟩ = .ok saved ∧
      Kept templates board saved.device.memory ∧
      (0 ≤ saved.status → Seen templates board request memory →
        ∃ count next, Stored templates board saved.device.memory count next request.mptr) := by
  cases kept with
  | blank eq =>
    subst eq
    obtain ⟨saved, result, after, success⟩ := save_blank templates aligned request
    exact ⟨saved, result, after, fun ok _ => success ok⟩
  | stored count restored xptr kind stored =>
    have found := stored.restoreInternal request.settings.preference request.word request.xptr
    refine ⟨_, by rw [save, found], ?_⟩
    cases saveRestored_cases templates request memory restored xptr kind
        (stored.nextAddress_high aligned request.settings) (fun _ => stored.size) with
    | nothing empty nonzero status device =>
      rw [device]
      refine ⟨.stored count restored xptr kind stored, fun _ seen => ⟨count, restored, ?_⟩⟩
      rw [stored.nothing seen empty]
      exact stored
    | refused status device reason =>
      rw [device]
      exact ⟨.stored count restored xptr kind stored, fun success => by omega⟩
    | wrote memory' next status device wrote =>
      rw [device]
      obtain ⟨after, seen⟩ := stored.wrote aligned kind wrote
      exact ⟨after, fun _ => seen⟩

/-! ## Runs of saves -/

def runSaves (templates : Templates) (board : Board) :
    List Request → Memory → Except Fault Memory
  | [], memory => .ok memory
  | request :: rest, memory =>
    match save templates board request ⟨memory, []⟩ with
    | .error fault => .error fault
    | .ok saved => runSaves templates board rest saved.device.memory

theorem runSaves_kept (aligned : board.Aligned) (requests : List Request) (memory : Memory)
    (kept : Kept templates board memory) :
    ∃ memory', runSaves templates board requests memory = .ok memory' ∧
      Kept templates board memory' := by
  induction requests generalizing memory with
  | nil => exact ⟨memory, rfl, kept⟩
  | cons request rest ih =>
    obtain ⟨saved, result, after, -⟩ := save_kept aligned request memory kept
    rw [runSaves, result]
    exact ih saved.device.memory after

/-- After any run of saves into blank memory, a last save that succeeds and is
seen is what a restore finds. -/
theorem restore_after_saves (templates : Templates) (board : Board) (aligned : board.Aligned)
    (earlier : List Request) (last : Request) (memory : Memory) (saved : Saved)
    (run : runSaves templates board earlier (Memory.blank board.kind) = .ok memory)
    (result : save templates board last ⟨memory, []⟩ = .ok saved) (success : 0 ≤ saved.status)
    (seen : Seen templates board last memory) (preference : Nat) (word : Buffer)
    (mptr : Bytes) :
    ∃ next, restoreInternal templates board preference saved.device.memory word mptr structSize =
      .ok (next, last.mptr) := by
  obtain ⟨memory', run', kept⟩ :=
    runSaves_kept aligned earlier (Memory.blank board.kind) (.blank rfl)
  obtain rfl : memory' = memory := by
    rw [run] at run'
    exact (Except.ok.inj run').symm
  obtain ⟨saved', result', -, leads⟩ := save_kept aligned last memory' kept
  obtain rfl : saved' = saved := by
    rw [result] at result'
    exact (Except.ok.inj result').symm
  obtain ⟨count, next, stored⟩ := leads success seen
  exact ⟨next, stored.restoreInternal preference word mptr⟩

end runs

/-! ## The template that is lost -/

def RoundTrip (templates : Templates) (board : Board) : Prop :=
  ∀ (earlier : List Request) (last : Request) (memory : Memory) (saved : Saved),
    runSaves templates board earlier (Memory.blank board.kind) = .ok memory →
    save templates board last ⟨memory, []⟩ = .ok saved → 0 ≤ saved.status →
    ∀ (preference : Nat) (word : Buffer) (mptr : Bytes),
      ∃ next, restoreInternal templates board preference saved.device.memory word mptr structSize =
        .ok (next, last.mptr)

def eepromBoard : Board where
  kind := .eeprom
  eepromSize := 4096
  shortOtp := false
  tryAddress := 0
  saveAddress := 0

theorem eepromBoard_aligned : eepromBoard.Aligned := ⟨rfl, by decide, by decide⟩

def plainSettings (compress : Bool) (id : Nat) : Settings where
  overwrite := true
  compress := compress
  templateAllowed := [id]
  configSpaceUsed := 0
  preference := templateDefault
  major := 2
  minor := 3

theorem zipWith_xor_self (image : Bytes) (index : Nat) :
    (List.zipWith (· ^^^ ·) image image).getD index 0 = 0 := by
  rw [getD_eq_getElem?_getD, getElem?_zipWith]
  cases image[index]? with
  | none => rfl
  | some byte => simp

variable (templates : Templates)

theorem bestRecord_template (request : Request) (id : Nat)
    (restored : Int) (xptr : Bytes) (settings : request.settings = plainSettings true id)
    (found : templates.structDefaultFindById id = some request.mptr) :
    bestRecord templates eepromBoard request restored xptr =
      { algorithm := .block, reference := templateVersion request.mptr, size := 0, data := [] } := by
  have tried : triesCompression eepromBoard request.settings restored := by
    rw [settings]
    exact .inl rfl
  have notCurrent : ¬triesCurrent eepromBoard request restored xptr := by
    intro current
    rw [triesCurrent, settings] at current
    exact absurd current.1 (by simp [overwriting, plainSettings, eepromBoard])
  have allowed : allowedTemplates templates request.settings = [request.mptr] := by
    rw [allowedTemplates, settings]
    simp [plainSettings, found]
  have coded := compressBlock_all_zero (List.zipWith (· ^^^ ·) request.mptr request.mptr)
    request.mptr request.mptr.length moutput (zipWith_xor_self request.mptr)
  simp only [bestRecord, if_pos tried, differences, if_neg notCurrent, allowed, foldl_cons,
    foldl_nil, checkCompression, coded]
  have short : 0 + 4 < structSize := by decide
  have small : ¬0 ≥ structSize := by decide
  simp only [length_nil, if_pos short, if_neg small]

theorem save_template_first (request : Request) (id : Nat)
    (settings : request.settings = plainSettings true id)
    (found : templates.structDefaultFindById id = some request.mptr) :
    ∃ saved count next, save templates eepromBoard request ⟨Memory.blank .eeprom, []⟩ = .ok saved ∧
      saved.device.memory.kind = .eeprom ∧
      Stored templates eepromBoard saved.device.memory count next request.mptr := by
  obtain ⟨xptr, nothing⟩ := restoreInternal_blank templates eepromBoard_aligned
    request.settings.preference request.word request.xptr
  obtain ⟨saved, result, kept, success⟩ := save_blank templates eepromBoard_aligned request
  have best := bestRecord_template templates request id 0 xptr settings found
  have status : 0 ≤ saved.status := by
    rw [save, nothing] at result
    obtain rfl := Except.ok.inj result
    by_contra negative
    have top : nextAddress eepromBoard request.settings 0 = 4095 := nextAddress_nothing _
    have low : request.settings.lowLimit = 0x40 := by
      rw [settings]
      rfl
    cases saveRestored_cases templates request (Memory.blank .eeprom) 0 xptr rfl
        (by rw [top]; decide) (fun tried => absurd tried.2.1 (by decide)) with
    | nothing empty nonzero status device => exact nonzero rfl
    | refused _ device reason =>
      rcases reason with unfit | notBlank
      · rw [roomFor, top, low, best] at unfit
        exact unfit (by simp only [length_nil]; decide)
      · exact absurd notBlank.1 (by decide)
    | wrote memory' next status device wrote => exact negative status
  obtain ⟨count, next, stored⟩ := success status
  exact ⟨saved, count, next, result, kept.kind_eq, stored⟩

def templateRequest (template : Bytes) (size : template.length = structSize) (id : Nat) :
    Request where
  mptr := template
  settings := plainSettings true id
  word := fun _ => 0
  xptr := []
  size_eq := size

theorem Templates.find_version (id : Nat) (known : id ∈ [2, 5, 4, 3, 6, 10]) :
    ∃ template, templates.structDefaultFindById id = some template ∧
      template.length = structSize ∧ templateVersion template = id := by
  rw [← templates.versions] at known
  obtain ⟨template, member, rfl⟩ := mem_map.mp known
  exact ⟨template, templates.find_own template member, templates.size_eq template member, rfl⟩

/-- A template that is saved after another one is lost: its difference to itself
is empty, so nothing is written, and the restore finds the other one. -/
theorem save_template_second (first second : Request) (id : Nat)
    (memory : Memory) (count : Nat) (next : Int)
    (stored : Stored templates eepromBoard memory count next first.mptr)
    (settings : second.settings = plainSettings true id)
    (found : templates.structDefaultFindById id = some second.mptr) :
    save templates eepromBoard second ⟨memory, []⟩ =
      .ok { status := 0, device := ⟨memory, []⟩, failures := [], written := none } := by
  have above := stored.above
  have best := bestRecord_template templates second id next first.mptr settings found
  rw [save, stored.restoreInternal]
  simp only [saveRestored, best]
  rw [if_neg (by omega)]
  rfl

/-- Whatever the templates are, saving one and then another one is no round trip. -/
theorem template_after_template_lost :
    ¬∃ templates : Templates, RoundTrip templates eepromBoard := by
  rintro ⟨templates, trip⟩
  obtain ⟨xb112, foundXb112, sizeXb112, versionXb112⟩ := templates.find_version 5 (by decide)
  obtain ⟨generic, foundGeneric, sizeGeneric, versionGeneric⟩ :=
    templates.find_version templateDefault (by decide)
  obtain ⟨saved, count, next, result, -, stored⟩ :=
    save_template_first templates (templateRequest xb112 sizeXb112 5) 5 rfl foundXb112
  have second := save_template_second templates (templateRequest xb112 sizeXb112 5)
    (templateRequest generic sizeGeneric templateDefault) templateDefault saved.device.memory
    count next stored rfl foundGeneric
  have run : runSaves templates eepromBoard [templateRequest xb112 sizeXb112 5]
      (Memory.blank .eeprom) = .ok saved.device.memory := by
    rw [runSaves, result]
    rfl
  obtain ⟨found, restored⟩ := trip _ _ _ _ run second (Int.le_refl 0) 0 (fun _ => 0) []
  rw [stored.restoreInternal] at restored
  have same : xb112 = generic := (Prod.mk.inj (Except.ok.inj restored)).2
  rw [same, versionGeneric] at versionXb112
  exact absurd versionXb112 (by decide)

def blankTemplates : Templates where
  default9300 := [2, 5, 4, 3, 6, 10].map fun version => 2 :: version :: List.replicate 1086 0
  size_eq := by
    intro template member
    obtain ⟨version, -, rfl⟩ := mem_map.mp member
    rw [length_cons, length_cons, length_replicate]
    rfl
  versions := by
    rw [map_map]
    rfl

def sevensRequest : Request where
  mptr := List.replicate structSize 7
  settings := plainSettings false templateDefault
  word := fun _ => 0
  xptr := []
  size_eq := length_replicate

theorem sevens_not_compressed (restored : Int) :
    ¬triesCompression eepromBoard sevensRequest.settings restored := by
  rintro (asked | full)
  · exact absurd asked (by decide)
  · rw [nextAddress_over sevensRequest.settings restored rfl] at full
    exact absurd full (by decide)

theorem save_sevens_second (memory : Memory) (count : Nat) (next : Int) (xptr : Bytes)
    (kind : memory.kind = .eeprom)
    (stored : Stored blankTemplates eepromBoard memory count next xptr) :
    ∃ saved, save blankTemplates eepromBoard sevensRequest ⟨memory, []⟩ = .ok saved ∧
      0 ≤ saved.status := by
  refine ⟨_, by rw [save, stored.restoreInternal], ?_⟩
  have best : bestRecord blankTemplates eepromBoard sevensRequest next xptr =
      { algorithm := .none, reference := referenceCurrent, size := structSize,
        data := sevensRequest.mptr } := by
    simp only [bestRecord, if_neg (sevens_not_compressed next)]
    rw [if_pos (Nat.le_refl _)]
  cases saveRestored_cases blankTemplates sevensRequest memory next xptr kind
      (stored.nextAddress_high eepromBoard_aligned _) (fun _ => stored.size) with
  | nothing empty nonzero status device =>
    rw [best] at empty
    exact absurd empty (by simp only [structSize]; decide)
  | refused status device reason =>
    rcases reason with unfit | notBlank
    · rw [roomFor, best, nextAddress_over sevensRequest.settings next rfl] at unfit
      simp only [sevensRequest.size_eq] at unfit
      exact absurd (by decide) unfit
    · rw [kind] at notBlank
      exact absurd notBlank.1 (by decide)
  | wrote memory' next' status device wrote => exact status

def blankXb112 : Bytes := 2 :: 5 :: List.replicate 1086 0

theorem blankXb112_mem : blankXb112 ∈ blankTemplates.default9300 :=
  mem_map.mpr ⟨5, by decide, rfl⟩

theorem blankXb112_size : blankXb112.length = structSize :=
  blankTemplates.size_eq blankXb112 blankXb112_mem

theorem restore_after_sevens :
    ∃ memory saved next,
      runSaves blankTemplates eepromBoard [templateRequest blankXb112 blankXb112_size 5]
        (Memory.blank .eeprom) = .ok memory ∧
      save blankTemplates eepromBoard sevensRequest ⟨memory, []⟩ = .ok saved ∧
      0 ≤ saved.status ∧
      restoreInternal blankTemplates eepromBoard templateDefault saved.device.memory (fun _ => 0) []
        structSize = .ok (next, List.replicate structSize 7) := by
  obtain ⟨first, count, next, result, kind, stored⟩ := save_template_first blankTemplates
    (templateRequest blankXb112 blankXb112_size 5) 5 rfl
    (blankTemplates.find_own blankXb112 blankXb112_mem)
  have run : runSaves blankTemplates eepromBoard [templateRequest blankXb112 blankXb112_size 5]
      (Memory.blank .eeprom) = .ok first.device.memory := by
    rw [runSaves, result]
    rfl
  obtain ⟨saved, second, success⟩ := save_sevens_second first.device.memory count next _ kind stored
  have seen : Seen blankTemplates eepromBoard sevensRequest first.device.memory :=
    ⟨fun restored xptr _ _ tried _ => absurd tried (sevens_not_compressed restored),
      fun append => absurd append (by decide)⟩
  obtain ⟨found, restored⟩ := restore_after_saves blankTemplates eepromBoard eepromBoard_aligned
    [templateRequest blankXb112 blankXb112_size 5] sevensRequest first.device.memory saved run
    second success seen templateDefault (fun _ => 0) []
  exact ⟨first.device.memory, saved, found, run, second, success, restored⟩

end AthApps.Cal
