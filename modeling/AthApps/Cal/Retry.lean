import AthApps.Cal.SaveRestore

/-!
# Attempts that fail and the scan that follows

When the header of an attempt does not verify, the save overwrites it with ones
and tries again four bytes below.  A scan takes the ones for the end of the
records, so it never gets to what was written below them.  This holds for any
memory and any pattern of failing writes.
-/

set_option autoImplicit false

namespace AthApps.Cal

open AthApps.Lib Option List

/-! ## Where a scan goes -/

def headerAt (memory : Memory) (address : Int) : Header :=
  compressionHeaderUnpack (readHeader memory address)

@[grind =] def walk (memory : Memory) : Nat → Int → Int
  | 0, address => address
  | rounds + 1, address =>
    walk memory rounds (address - recordLength (headerAt memory address).length)

def Memory.SameAbove (high : Int) (old new : Memory) : Prop :=
  new.kind = old.kind ∧ ∀ address, high < address → new.read address = old.read address

namespace Memory.SameAbove

theorem refl (high : Int) (memory : Memory) : SameAbove high memory memory :=
  ⟨rfl, fun _ _ => rfl⟩

theorem trans {high high' : Int} {old middle new : Memory} (first : SameAbove high old middle)
    (second : SameAbove high' middle new) (order : high' ≤ high) : SameAbove high old new :=
  ⟨second.1.trans first.1, fun address above =>
    (second.2 address (by omega)).trans (first.2 address above)⟩

variable {old new : Memory}

theorem of_sameOutside {low high : Int}
    (same : Memory.SameOutside low high old new) : SameAbove high old new :=
  ⟨same.1, fun address above => same.2 address (.inr above)⟩

theorem headerAt_eq {high : Int} (same : SameAbove high old new)
    (address : Int) (above : high + 4 ≤ address) :
    headerAt new address = headerAt old address := by
  have buffers : readHeader new address = readHeader old address := by
    funext index
    simp only [readHeader, Memory.readArray]
    by_cases bound : index < compressionHeaderLength
    · rw [if_pos bound, if_pos bound, same.2 _ (by
        simp only [compressionHeaderLength] at bound
        omega)]
    · rw [if_neg bound, if_neg bound]
  rw [headerAt, headerAt, buffers]

theorem holds {high : Int} (same : SameAbove high old new) (address : Int)
    (bytes : Bytes) (above : high + bytes.length ≤ address)
    (held : old.Holds address bytes) : new.Holds address bytes := by
  intro index value found
  have bound : index < bytes.length := (List.getElem?_eq_some_iff.mp found).1
  rw [same.2 _ (by omega)]
  exact held index value found

end Memory.SameAbove

theorem readArray_header (memory : Memory) (address : Int) (word : Buffer) (low : 3 ≤ address)
    (high : address < memory.kind.limit) :
    compressionHeaderUnpack (memory.readArray address word compressionHeaderLength) =
      headerAt memory address := by
  have same : ∀ index < compressionHeaderLength,
      memory.readArray address word compressionHeaderLength index =
        readHeader memory address index := by
    intro index bound
    have inside : 0 ≤ address - index ∧ address - index + 1 ≤ memory.kind.limit := by
      simp only [compressionHeaderLength] at bound
      omega
    simp only [readHeader, Memory.readArray, Memory.read]
    rw [if_pos bound, if_pos bound, if_pos inside]
    rfl
  simp only [headerAt, compressionHeaderUnpack]
  rw [same 0 (by decide), same 1 (by decide), same 2 (by decide), same 3 (by decide)]

section scans

variable {templates : Templates} {memory : Memory} {mdataSize : Nat}

theorem restoreRound_next {scan next : Scan}
    (round : restoreRound templates memory mdataSize scan = .ok (.next next)) :
    next.cptr = scan.cptr - recordLength (compressionHeaderUnpack
      (memory.readArray scan.cptr scan.word compressionHeaderLength)).length := by
  rw [restoreRound] at round
  simp only at round
  split at round
  · simp at round
  · split at round
    · simp at round
    · split at round
      · split at round
        · simp at round
        · simp at round
        · rw [← Round.next.inj (Except.ok.inj round)]
        · rw [← Round.next.inj (Except.ok.inj round)]
      · rw [← Round.next.inj (Except.ok.inj round)]

variable {scan last : Scan}

variable {rounds : Nat}

theorem scanAfter_succ
    (after : scanAfter templates memory mdataSize (rounds + 1) scan = some last) :
    ∃ next, restoreRound templates memory mdataSize scan = .ok (.next next) ∧
      scanAfter templates memory mdataSize rounds next = some last := by
  rw [scanAfter] at after
  split at after
  · exact ⟨_, by assumption, after⟩
  · simp at after

theorem scanAfter_add {first second : Nat}
    (after : scanAfter templates memory mdataSize (first + second) scan = some last) :
    ∃ middle, scanAfter templates memory mdataSize first scan = some middle ∧
      scanAfter templates memory mdataSize second middle = some last := by
  induction first generalizing scan with
  | zero =>
    rw [Nat.zero_add] at after
    exact ⟨scan, rfl, after⟩
  | succ first ih =>
    rw [Nat.succ_add] at after
    obtain ⟨next, round, later⟩ := scanAfter_succ after
    obtain ⟨middle, front, rest⟩ := ih later
    refine ⟨middle, ?_, rest⟩
    rw [scanAfter, round]
    exact front

theorem scanAfter_le (after : scanAfter templates memory mdataSize rounds scan = some last) :
    last.cptr + 6 * rounds ≤ scan.cptr := by
  induction rounds generalizing scan with
  | zero =>
    rw [← some.inj after]
    omega
  | succ rounds ih =>
    obtain ⟨next, round, later⟩ := scanAfter_succ after
    have here := restoreRound_next round
    have rest := ih later
    simp only [recordLength, compressionHeaderLength, compressionChecksumLength] at here
    omega

theorem scanAfter_walk (after : scanAfter templates memory mdataSize rounds scan = some last)
    (high : scan.cptr < memory.kind.limit) (low : 0 ≤ last.cptr) :
    last.cptr = walk memory rounds scan.cptr := by
  induction rounds generalizing scan with
  | zero =>
    rw [← some.inj after]
    rfl
  | succ rounds ih =>
    obtain ⟨next, round, later⟩ := scanAfter_succ after
    have here := restoreRound_next round
    have total := scanAfter_le after
    have rest := scanAfter_le later
    rw [readArray_header memory scan.cptr scan.word (by omega) high] at here
    rw [walk, ← here]
    exact ih later (by omega)

end scans

theorem walk_le (memory : Memory) (rounds : Nat) (address : Int) :
    walk memory rounds address ≤ address := by
  induction rounds generalizing address with
  | zero => exact Int.le_refl address
  | succ rounds ih =>
    rw [walk]
    have rest := ih (address - recordLength (headerAt memory address).length)
    omega

theorem walk_add (memory : Memory) (first second : Nat) (address : Int) :
    walk memory (first + second) address = walk memory second (walk memory first address) := by
  induction first generalizing address with
  | zero => rw [Nat.zero_add, walk]
  | succ first ih =>
    rw [Nat.succ_add, walk, walk]
    exact ih _

theorem Memory.SameAbove.walk_eq {high : Int} {old new : Memory}
    (same : Memory.SameAbove high old new) (rounds : Nat) (address : Int)
    (above : high ≤ walk old rounds address) :
    walk new rounds address = walk old rounds address := by
  induction rounds generalizing address with
  | zero => rfl
  | succ rounds ih =>
    rw [walk] at above ⊢
    have order := walk_le old rounds (address - recordLength (headerAt old address).length)
    have step : high + 4 ≤ address := by
      simp only [recordLength, compressionHeaderLength, compressionChecksumLength] at order above
      omega
    rw [same.headerAt_eq address step, ih _ above]
    rfl

/-! ## Where a restore found its data -/

theorem restoreRounds_scanAfter (templates : Templates) (memory : Memory) (mdataSize rounds : Nat)
    (scan : Scan) (next : Int) (image : Bytes)
    (result : restoreRounds templates memory mdataSize rounds scan = .ok (next, image))
    (found : 0 ≤ next) :
    ∃ count last, scanAfter templates memory mdataSize count scan = some last ∧
      last.cptr = next := by
  have stop : ∀ scan : Scan, scan.result = (next, image) → scan.cptr = next := by
    intro scan ended
    have address := congrArg Prod.fst ended
    simp only [Scan.result] at address
    split at address
    · exact address
    · omega
  induction rounds generalizing scan with
  | zero =>
    rw [restoreRounds] at result
    exact ⟨0, scan, rfl, stop scan (Except.ok.inj result)⟩
  | succ rounds ih =>
    rw [restoreRounds] at result
    cases round : restoreRound templates memory mdataSize scan with
    | error fault => simp [round] at result
    | ok outcome =>
      simp only [round] at result
      cases outcome with
      | blank => exact ⟨0, scan, rfl, stop scan (Except.ok.inj result)⟩
      | mismatch =>
        have address := congrArg Prod.fst (Except.ok.inj result)
        simp only at address
        omega
      | next later =>
        obtain ⟨count, last, after, address⟩ := ih later result
        refine ⟨count + 1, last, ?_, address⟩
        rw [scanAfter, round]
        exact after

@[grind =] def restoreSource (templates : Templates) (memory : Memory) (word : Buffer) (mdataSize : Nat) :
    List Int → Bytes → Option Int
  | [], _ => none
  | address :: rest, mptr =>
    match restoreInternalAddress templates memory word mptr mdataSize address with
    | .error _ => none
    | .ok (nptr, mptr) =>
      if nptr < 0 then restoreSource templates memory word mdataSize rest mptr
      else some address

theorem restoreFrom_source (templates : Templates) (memory : Memory) (word : Buffer)
    (mdataSize : Nat) (addresses : List Int) (mptr : Bytes) (next : Int) (image : Bytes)
    (result : restoreFrom templates memory word mdataSize addresses mptr = .ok (next, image))
    (found : 0 ≤ next) :
    ∃ start ∈ addresses, ∃ mptr',
      restoreSource templates memory word mdataSize addresses mptr = some start ∧
      restoreInternalAddress templates memory word mptr' mdataSize start = .ok (next, image) := by
  induction addresses generalizing mptr with
  | nil =>
    have address := congrArg Prod.fst (Except.ok.inj result)
    simp only at address
    omega
  | cons address rest ih =>
    rw [restoreFrom] at result
    rw [restoreSource]
    cases scanned : restoreInternalAddress templates memory word mptr mdataSize address with
    | error fault => simp [scanned] at result
    | ok pair =>
      obtain ⟨nptr, mptr'⟩ := pair
      simp only [scanned] at result ⊢
      by_cases negative : nptr < 0
      · rw [if_pos negative] at result ⊢
        obtain ⟨start, member, mptr'', source, scanned'⟩ := ih mptr' result
        exact ⟨start, mem_cons_of_mem address member, mptr'', source, scanned'⟩
      · rw [if_neg negative] at result ⊢
        obtain ⟨rfl, rfl⟩ := Prod.mk.inj (Except.ok.inj result)
        exact ⟨address, mem_cons_self, mptr, rfl, scanned⟩

/-- Where the records start that a save goes on with: where its restore found
them, or at the top when it starts over. -/
def dataStart (templates : Templates) (board : Board) (request : Request) (memory : Memory) : Int :=
  match restoreInternal templates board request.settings.preference memory request.word
      request.xptr structSize with
  | .error _ => board.startAddress
  | .ok (restored, _) =>
    if overwriting board request.settings = true ∨ restored ≤ 0 then board.startAddress
    else (restoreSource templates memory request.word structSize
      (board.firstAddress :: board.otherAddresses) request.xptr).getD board.startAddress

/-! ## What the attempts leave -/

/-- One round of the loop: it gives up, writes the record, or fails at the data
or at the header and goes on below. -/
inductive LoopStep (header best : Bytes) (limit : Int) (tries : Nat) (device : Device)
    (address : Int) (result : Attempts) : Prop
  | failed (status : Int) (negative : status < 0) (outcome : result.outcome = .failed status)
  | written (outcome : result.outcome =
        .written address (address - compressionHeaderLength - best.length -
          compressionChecksumLength))
      (failures : result.failures = [])
      (fit : address - best.length - compressionHeaderLength - compressionChecksumLength > limit)
      (same : Memory.SameAbove address device.memory result.device.memory)
  | body (device' : Device)
      (same : Memory.SameAbove address device.memory device'.memory)
      (held : device'.memory.Holds address header)
      (eq : result = (saveLoop header best limit tries device'
        (address - compressionHeaderLength - best.length - compressionChecksumLength)).after
          (.body address))
  | header (device' : Device)
      (same : Memory.SameAbove address device.memory device'.memory)
      (long : 1024 ≤ (headerAt device'.memory address).length)
      (eq : result = (saveLoop header best limit tries device'
        (address - compressionHeaderLength)).after (.header address))

variable (header best : Bytes) (limit : Int) (tries : Nat) (device : Device) (address : Int)

theorem Device.writeAndVerify_sameAbove (bytes : Bytes) :
    Memory.SameAbove address device.memory
      (device.calibrationDataWriteAndVerify address bytes).2.memory :=
  .of_sameOutside (device.writeAndVerify_sameOutside address bytes)

theorem saveLoop_step (headerLength : header.length = compressionHeaderLength) :
    LoopStep header best limit tries device address
      (saveLoop header best limit (tries + 1) device address) := by
  have four : (compressionHeaderLength : Int) = 4 := rfl
  rw [saveLoop]
  by_cases fit : address - best.length - compressionHeaderLength - compressionChecksumLength > limit
  · rw [if_pos fit]
    by_cases used : device.memory.kind = .otp ∧
        ¬otpBlank device.memory address (recordLength best.length)
    · rw [if_pos used]
      exact .failed (-5) (by decide) rfl
    · rw [if_neg used]
      simp only
      have same1 := device.writeAndVerify_sameAbove address header
      have held1 := device.writeAndVerify_holds address header
      generalize device.calibrationDataWriteAndVerify address header = write1 at same1 held1
      obtain ⟨verified1, device1⟩ := write1
      cases verified1 with
      | true =>
        have held1 := held1 rfl
        simp only at same1 held1 ⊢
        have same2 := device1.writeAndVerify_sameAbove (address - compressionHeaderLength) best
        generalize device1.calibrationDataWriteAndVerify (address - compressionHeaderLength) best =
          write2 at same2
        obtain ⟨verified2, device2⟩ := write2
        have below2 := same2.holds address header (by omega) held1
        cases verified2 with
        | true =>
          simp only at same2 below2 ⊢
          have same3 := device2.writeAndVerify_sameAbove
            (address - compressionHeaderLength - best.length)
            (checksumBytes (compressionChecksum best))
          generalize device2.calibrationDataWriteAndVerify
            (address - compressionHeaderLength - best.length)
            (checksumBytes (compressionChecksum best)) = write3 at same3
          obtain ⟨verified3, device3⟩ := write3
          have all := (same1.trans same2 (by omega)).trans same3 (by omega)
          have below3 := same3.holds address header (by omega) below2
          cases verified3 with
          | true => exact .written rfl rfl fit all
          | false => exact .body device3 all below3 rfl
        | false =>
          simp only at same2 below2 ⊢
          have same3 := device2.writeAndVerify_sameAbove
            (address - compressionHeaderLength - best.length)
            (checksumBytes (compressionChecksum best ^^^ 0xffff))
          have all := (same1.trans same2 (by omega)).trans same3 (by omega)
          have below3 := same3.holds address header (by omega) below2
          exact .body _ all below3 rfl
      | false =>
        simp only at same1 ⊢
        by_cases keeps : headerKept (readHeader device.memory address)
            (readHeader device1.memory address)
        · rw [if_pos keeps]
          by_cases short : (compressionHeaderUnpack (readHeader
              (device1.calibrationDataWrite address ones).memory address)).length < 1024
          · rw [if_pos short]
            exact .failed (-3) (by decide) rfl
          · rw [if_neg short]
            have same2 := Memory.SameAbove.of_sameOutside
              (device1.calibrationDataWrite_sameOutside address ones)
            exact .header _ (same1.trans same2 (Int.le_refl _)) (Nat.le_of_not_lt short) rfl
        · rw [if_neg keeps]
          exact .failed (-1) (by decide) rfl
  · rw [if_neg fit]
    exact .failed (-1) (by decide) rfl

theorem saveLoop_none :
    ∃ status < 0, (saveLoop header best limit 0 device address).outcome = .failed status := by
  rw [saveLoop]
  split
  · split
    · exact ⟨-5, by decide, rfl⟩
    · exact ⟨-2, by decide, rfl⟩
  · exact ⟨-1, by decide, rfl⟩

theorem saveLoop_negative
    (address status : Int) (headerLength : header.length = compressionHeaderLength)
    (outcome : (saveLoop header best limit tries device address).outcome = .failed status) :
    status < 0 := by
  induction tries generalizing device address with
  | zero =>
    obtain ⟨other, negative, failed⟩ := saveLoop_none header best limit device address
    rw [failed] at outcome
    exact Outcome.failed.inj outcome ▸ negative
  | succ tries ih =>
    cases saveLoop_step header best limit tries device address headerLength with
    | failed other negative failed =>
      rw [failed] at outcome
      exact Outcome.failed.inj outcome ▸ negative
    | written done failures fit same =>
      rw [done] at outcome
      simp at outcome
    | body device' same held eq =>
      rw [eq] at outcome
      exact ih device' _ outcome
    | header device' same long eq =>
      rw [eq] at outcome
      exact ih device' _ outcome

/-- The way from the first attempt to the record that was written, as the
headers in the memory show it. -/
inductive Trail (memory : Memory) (osize : Nat) : Int → List Attempt → Int → Prop
  | here (address : Int) : Trail memory osize address [] address
  | body (address written : Int) (failures : List Attempt)
      (length : (headerAt memory address).length = osize)
      (rest : Trail memory osize (address - recordLength osize) failures written) :
      Trail memory osize address (.body address :: failures) written
  | header (address written : Int) (failures : List Attempt)
      (length : 1024 ≤ (headerAt memory address).length)
      (rest : Trail memory osize (address - compressionHeaderLength) failures written) :
      Trail memory osize address (.header address :: failures) written

theorem headerAt_pack (memory : Memory) (address : Int) (header : Header) (fits : header.Fits)
    (held : memory.Holds address (compressionHeaderPack header)) :
    (headerAt memory address).length = header.length := by
  have read := memory.readArray_holds address (compressionHeaderPack header) (fun _ => 0)
    compressionHeaderLength (Nat.le_refl _) held
  exact (unpack_pack header _ fits read).2.2

theorem saveLoop_trail (header : Header) (best : Bytes) (limit : Int) (tries : Nat)
    (device : Device) (address written next : Int) (fits : header.Fits)
    (length : header.length = best.length)
    (outcome : (saveLoop (compressionHeaderPack header) best limit tries device address).outcome =
      .written written next) :
    let result := saveLoop (compressionHeaderPack header) best limit tries device address
    Trail result.device.memory best.length address result.failures written ∧
      next = written - recordLength best.length ∧ limit < next ∧
      result.failures.length < tries ∧
      Memory.SameAbove address device.memory result.device.memory := by
  intro result
  have four : (compressionHeaderLength : Int) = 4 := rfl
  have behind : ∀ address : Int, address - compressionHeaderLength - best.length -
      compressionChecksumLength = address - recordLength best.length := by
    intro address
    simp only [recordLength]
    omega
  induction tries generalizing device address with
  | zero =>
    obtain ⟨status, -, failed⟩ := saveLoop_none (compressionHeaderPack header) best limit device
      address
    rw [failed] at outcome
    simp at outcome
  | succ tries ih =>
    cases saveLoop_step (compressionHeaderPack header) best limit tries device address rfl with
    | failed status negative failed =>
      rw [failed] at outcome
      simp at outcome
    | written done failures fit same =>
      rw [done] at outcome
      obtain ⟨rfl, rfl⟩ := Outcome.written.inj outcome
      refine ⟨?_, behind address, by omega, ?_, same⟩
      · rw [show result.failures = [] from failures]
        exact .here address
      · rw [show result.failures = [] from failures]
        exact Nat.succ_pos tries
    | body device' same held eq =>
      rw [eq] at outcome
      obtain ⟨trail, nextEq, above, few, later⟩ := ih device' _ outcome
      have resultEq : result = _ := eq
      rw [resultEq]
      have lower : address - compressionHeaderLength - best.length -
          compressionChecksumLength + 4 ≤ address := by
        rw [behind, recordLength]
        omega
      refine ⟨?_, nextEq, above, Nat.succ_lt_succ few, same.trans later (by omega)⟩
      refine .body address written _ ?_ (behind address ▸ trail)
      simp only [Attempts.after]
      rw [later.headerAt_eq address lower, headerAt_pack _ _ header fits held, length]
    | header device' same long eq =>
      rw [eq] at outcome
      obtain ⟨trail, nextEq, above, few, later⟩ := ih device' _ outcome
      have resultEq : result = _ := eq
      rw [resultEq]
      refine ⟨?_, nextEq, above, Nat.succ_lt_succ few, same.trans later (by omega)⟩
      refine .header address written _ ?_ trail
      simp only [Attempts.after]
      rw [later.headerAt_eq address (by omega)]
      exact long

variable {failures : List Attempt}

variable {osize : Nat}

theorem Trail.written_le {memory : Memory} {address written : Int}
    (trail : Trail memory osize address failures written) :
    written ≤ address := by
  induction trail with
  | here address => exact Int.le_refl address
  | body address written failures length rest ih => omega
  | header address written failures length rest ih => omega

theorem Trail.frame {old new : Memory} {address written : Int}
    (trail : Trail old osize address failures written)
    (high : Int) (same : Memory.SameAbove high old new) (below : high ≤ written) :
    Trail new osize address failures written := by
  have four : (compressionHeaderLength : Int) = 4 := rfl
  induction trail with
  | here address => exact .here address
  | body address written failures length rest ih =>
    have order := rest.written_le
    simp only [recordLength] at order
    refine .body address written failures ?_ (ih below)
    rw [same.headerAt_eq address (by omega)]
    exact length
  | header address written failures length rest ih =>
    have order := rest.written_le
    refine .header address written failures ?_ (ih below)
    rw [same.headerAt_eq address (by omega)]
    exact length

/-! ## The record below an obliterated header -/

def Reaches (templates : Templates) (memory : Memory) (start address : Int) : Prop :=
  ∃ word mptr, ∃ rounds < mstate, ∃ scan,
    scanAfter templates memory structSize rounds ⟨start, word, mptr, false⟩ = some scan ∧
      scan.cptr = address

theorem scanAfter_ones (templates : Templates) (memory : Memory) (rounds : Nat) (scan last : Scan)
    (held : memory.Holds scan.cptr ones)
    (after : scanAfter templates memory structSize rounds scan = some last) :
    last.cptr = scan.cptr := by
  cases rounds with
  | zero => rw [← some.inj after]
  | succ rounds =>
    obtain ⟨next, round, -⟩ := scanAfter_succ after
    obtain ⟨cptr, word, image, restored⟩ := scan
    have ends : EndsAt memory cptr := .inr held
    rw [ends.restoreRound] at round
    exact absurd (Except.ok.inj round) (by simp)

/-- A header that was left behind leads a scan more than 1024 bytes down. -/
theorem scanAfter_long (templates : Templates) (memory : Memory) (rounds : Nat) (scan last : Scan)
    (high : scan.cptr < memory.kind.limit) (low : 0 ≤ last.cptr)
    (long : 1024 ≤ (headerAt memory scan.cptr).length) (moved : last.cptr ≠ scan.cptr)
    (after : scanAfter templates memory structSize rounds scan = some last) :
    last.cptr + 1030 ≤ scan.cptr := by
  cases rounds with
  | zero =>
    rw [← some.inj after] at moved
    exact absurd rfl moved
  | succ rounds =>
    obtain ⟨next, round, later⟩ := scanAfter_succ after
    have total := scanAfter_le after
    have rest := scanAfter_le later
    have here := restoreRound_next round
    rw [readArray_header memory scan.cptr scan.word (by omega) high] at here
    simp only [recordLength, compressionHeaderLength, compressionChecksumLength] at here
    omega

/-- With at most two failures, one of them a header that was left as ones, no
scan from the first attempt gets to the record. -/
theorem Trail.not_reached {memory : Memory} {address written obliterated : Int}
    (trail : Trail memory osize address failures written)
    (few : failures.length < 3) (failed : .header obliterated ∈ failures)
    (held : memory.Holds obliterated ones) (high : address < memory.kind.limit)
    (low : 0 ≤ written) (templates : Templates) (rounds : Nat) (scan last : Scan)
    (start : scan.cptr = address)
    (after : scanAfter templates memory structSize rounds scan = some last) :
    last.cptr ≠ written := by
  intro reached
  have four : (compressionHeaderLength : Int) = 4 := rfl
  cases trail with
  | here => simp at failed
  | body _ _ failures length rest =>
    -- The record with the bad checksum is passed by its length, so the scan
    -- is at the header that failed.
    cases rest with
    | here => simp at failed
    | body _ _ failures length' rest' =>
      have none : failures = [] := eq_nil_of_length_eq_zero (by simp at few; omega)
      subst none
      simp at failed
    | header _ _ failures length' rest' =>
      have none : failures = [] := eq_nil_of_length_eq_zero (by simp at few; omega)
      subst none
      cases rest' with
      | here =>
        cases rounds with
        | zero =>
          rw [← some.inj after, start] at reached
          simp only [recordLength] at reached
          omega
        | succ rounds =>
          obtain ⟨next, round, later⟩ := scanAfter_succ after
          have total := scanAfter_le after
          have here := restoreRound_next round
          rw [readArray_header memory scan.cptr scan.word (by omega) (by omega), start,
            length] at here
          have far := scanAfter_long templates memory rounds next last
            (by rw [here, recordLength]; omega) (by omega)
            (by rw [here]; exact length') (by omega) later
          omega
  | header _ _ failures length rest =>
    cases rest with
    | here =>
      have far := scanAfter_long templates memory rounds scan last (by omega) (by omega)
        (by rw [start]; exact length) (by omega) after
      omega
    | header _ _ failures length' rest' =>
      have none : failures = [] := eq_nil_of_length_eq_zero (by simp at few; omega)
      subst none
      cases rest' with
      | here =>
        have far := scanAfter_long templates memory rounds scan last (by omega) (by omega)
          (by rw [start]; exact length) (by omega) after
        omega
    | body _ _ failures length' rest' =>
      have none : failures = [] := eq_nil_of_length_eq_zero (by simp at few; omega)
      subst none
      obtain rfl : obliterated = address := by simpa using failed
      have stuck := scanAfter_ones templates memory rounds scan last (start ▸ held) after
      have below := rest'.written_le
      simp only [recordLength] at below
      omega

theorem dataStart_walk (templates : Templates) (board : Board) (aligned : board.Aligned)
    (request : Request) (memory : Memory) (kind : memory.kind = board.kind) (restored : Int)
    (xptr : Bytes)
    (found : restoreInternal templates board request.settings.preference memory request.word
      request.xptr structSize = .ok (restored, xptr)) :
    dataStart templates board request memory < memory.kind.limit ∧
      ∃ count, walk memory count (dataStart templates board request memory) =
        nextAddress board request.settings restored := by
  have top : board.startAddress < memory.kind.limit := by
    rw [kind, aligned.start]
    exact aligned.high
  simp only [dataStart, found]
  by_cases beyond : overwriting board request.settings = true ∨ restored ≤ 0
  · rw [if_pos beyond]
    refine ⟨top, 0, ?_⟩
    rw [walk, nextAddress, if_pos]
    rcases beyond with beyond | nothing
    · exact .inl beyond
    · right
      split <;> omega
  · rw [not_or] at beyond
    have positive : 0 < restored := by omega
    have append : overwriting board request.settings = false := Bool.eq_false_iff.mpr beyond.1
    rw [if_neg (not_or.mpr beyond), nextAddress_append request.settings restored append positive]
    rw [restoreInternal] at found
    cases scans : restoreFrom templates memory request.word structSize
        (board.firstAddress :: board.otherAddresses) request.xptr with
    | error fault => simp [scans] at found
    | ok pair =>
      obtain ⟨nptr, image⟩ := pair
      simp only [scans] at found
      by_cases negative : nptr < 0
      · -- A template was put in place: then the restore returned 0.
        rw [if_pos negative] at found
        have zero := templates.restoreSomething_zero request.settings.preference image
        rw [Except.ok.inj found] at zero
        simp only at zero
        omega
      · rw [if_neg negative] at found
        obtain ⟨rfl, rfl⟩ := Prod.mk.inj (Except.ok.inj found)
        obtain ⟨start, member, mptr', source, scanned⟩ := restoreFrom_source templates memory
          request.word structSize _ request.xptr nptr image scans (by omega)
        have high : start < memory.kind.limit := by
          rw [kind]
          rcases mem_cons.mp member with rfl | other
          · exact aligned.high
          · exact (board.other_bounds start other).2
        rw [source, getD_some]
        rw [restoreInternalAddress] at scanned
        obtain ⟨count, last, after, address⟩ := restoreRounds_scanAfter templates memory
          structSize mstate _ nptr image scanned (by omega)
        refine ⟨high, count, ?_⟩
        rw [← scanAfter_walk after high (by omega), address]

theorem Trail.not_reaches {templates : Templates} {old memory : Memory} {osize count : Nat}
    {start address written obliterated : Int}
    (trail : Trail memory osize address failures written) (few : failures.length < 3)
    (failed : .header obliterated ∈ failures) (held : memory.Holds obliterated ones)
    (same : Memory.SameAbove address old memory) (high : start < old.kind.limit)
    (low : 0 ≤ written) (leads : walk old count start = address) :
    ¬Reaches templates memory start written := by
  rintro ⟨word, mptr, rounds, bound, scan, after, reached⟩
  have below : written < address := by
    have four : (compressionHeaderLength : Int) = 4 := rfl
    cases trail with
    | here => simp at failed
    | body _ _ failures length rest =>
      have order := rest.written_le
      simp only [recordLength] at order
      omega
    | header _ _ failures length rest =>
      have order := rest.written_le
      omega
  have path := same.walk_eq count start (Int.le_of_eq leads.symm)
  have high' : start < memory.kind.limit := by
    rw [same.1]
    exact high
  have start_le := walk_le old count start
  by_cases early : rounds ≤ count
  · -- The scan has not come to the first attempt yet.
    have here := scanAfter_walk after high' (by omega)
    have later : walk old count start ≤ walk old rounds start := by
      rw [show count = rounds + (count - rounds) by omega, walk_add]
      exact walk_le old _ _
    have sameHere := same.walk_eq rounds start (by omega)
    simp only at here
    omega
  · rw [show rounds = count + (rounds - count) by omega] at after
    obtain ⟨middle, first, second⟩ := scanAfter_add after
    have order := scanAfter_le second
    have here := scanAfter_walk first high' (by omega)
    simp only at here
    exact trail.not_reached few failed held (by omega) low templates (rounds - count) middle scan
      (by omega) second reached

/-- When a save succeeds although the header of an attempt failed and was
overwritten with ones, no scan of the records gets to the one it wrote. -/
theorem obliterated_header_hides_record (templates : Templates) (board : Board)
    (aligned : board.Aligned) (request : Request) (device : Device) (saved : Saved)
    (obliterated : Int) (kind : device.memory.kind = board.kind)
    (result : save templates board request device = .ok saved) (success : 0 ≤ saved.status)
    (failed : .header obliterated ∈ saved.failures)
    (overwritten : saved.device.memory.Holds obliterated ones) :
    ∃ address, saved.written = some address ∧
      ¬Reaches templates saved.device.memory
        (dataStart templates board request device.memory) address := by
  rw [save] at result
  cases restore : restoreInternal templates board request.settings.preference device.memory
      request.word request.xptr structSize with
  | error fault => simp [restore] at result
  | ok pair =>
    obtain ⟨restored, xptr⟩ := pair
    simp only [restore] at result
    obtain rfl := Except.ok.inj result
    obtain ⟨high, count, leads⟩ := dataStart_walk templates board aligned request
      device.memory kind restored xptr restore
    obtain ⟨fits, size, -⟩ := bestRecord_fits templates board request restored xptr
    have limitLow := lowLimit_ge request.settings
    rw [saveRestored] at success failed overwritten ⊢
    generalize bestRecord templates board request restored xptr = best
      at fits size success failed overwritten ⊢
    by_cases writes : best.size > 0 ∨ restored = 0
    · simp only [if_pos writes] at success failed overwritten ⊢
      generalize loopEq : saveLoop (compressionHeaderPack (recordHeader best request.settings))
        best.data request.settings.lowLimit 3 device
        (nextAddress board request.settings restored) = loop at success failed overwritten ⊢
      cases outcome : loop.outcome with
      | failed status =>
        simp only [outcome] at success
        rw [← loopEq] at outcome
        have negative := saveLoop_negative _ _ _ _ _ _ _ rfl outcome
        omega
      | written address next =>
        simp only [outcome] at failed overwritten ⊢
        refine ⟨address, rfl, ?_⟩
        rw [← loopEq] at outcome
        obtain ⟨trail, nextEq, above, few, same⟩ :=
          saveLoop_trail _ _ _ _ _ _ _ _ fits size outcome
        rw [loopEq] at trail few same
        simp only [recordLength] at nextEq
        have order := trail.written_le
        by_cases isOtp : board.kind = .otp
        · simp only [if_neg (not_not.mpr isOtp)] at overwritten ⊢
          exact trail.not_reaches few failed overwritten same high (by omega) leads
        · simp only [if_pos isOtp] at overwritten ⊢
          have sameOnes := Memory.SameAbove.of_sameOutside
            (loop.device.calibrationDataWrite_sameOutside next ones)
          exact (trail.frame next sameOnes (by omega)).not_reaches few failed overwritten
            (same.trans sameOnes (by omega)) high (by omega) leads
    · rw [if_neg writes] at failed
      simp at failed

/-! ## A header that fails once -/

/-- The record of a save that succeeds over an obliterated header is one that
a scan of the records gets to. -/
def RetryReached (templates : Templates) (board : Board) (request : Request) (device : Device) :
    Prop :=
  ∀ saved obliterated, save templates board request device = .ok saved → 0 ≤ saved.status →
    .header obliterated ∈ saved.failures → saved.device.memory.Holds obliterated ones →
    ∃ address, saved.written = some address ∧
      Reaches templates saved.device.memory (dataStart templates board request device.memory)
        address

def xb112Request : Request := templateRequest blankXb112 blankXb112_size 5

def stuckDevice : Device := ⟨Memory.blank .eeprom, [some 0]⟩

def xb112Header : Header where
  code := .block
  reference := 5
  length := 0
  major := 2
  minor := 3

def xb112Attempts : Attempts :=
  saveLoop (compressionHeaderPack xb112Header) [] 0x40 3 stuckDevice 4095

theorem xb112_saved :
    save blankTemplates eepromBoard xb112Request stuckDevice =
      .ok { status := 0
            device := xb112Attempts.device.calibrationDataWrite 4085 ones
            failures := [.header 4095]
            written := some 4091 } := by
  obtain ⟨xptr, nothing⟩ := restoreInternal_blank blankTemplates eepromBoard_aligned
    xb112Request.settings.preference xb112Request.word xb112Request.xptr
  have best := bestRecord_template blankTemplates xb112Request 5 0 xptr rfl
    (blankTemplates.find_own blankXb112 blankXb112_mem)
  have loop : saveLoop (compressionHeaderPack (recordHeader
      { algorithm := .block, reference := templateVersion xb112Request.mptr, size := 0, data := [] }
      xb112Request.settings)) [] xb112Request.settings.lowLimit 3 stuckDevice
      (nextAddress eepromBoard xb112Request.settings 0) = xb112Attempts := rfl
  have outcome : xb112Attempts.outcome = .written 4091 4085 := by decide
  have failures : xb112Attempts.failures = [.header 4095] := by decide
  rw [save, show stuckDevice.memory = Memory.blank eepromBoard.kind from rfl, nothing]
  simp only [saveRestored, best, or_true, if_true, loop, outcome, failures]
  rfl

theorem xb112_ones :
    (xb112Attempts.device.calibrationDataWrite 4085 ones).memory.Holds 4095 ones := by
  rw [ones, Memory.holds_cons, Memory.holds_cons, Memory.holds_cons, Memory.holds_cons]
  refine ⟨by decide, by decide, by decide, by decide, ?_⟩
  exact Memory.holds_nil _ _

theorem xb112_dataStart :
    dataStart blankTemplates eepromBoard xb112Request stuckDevice.memory = 4095 := by
  obtain ⟨xptr, nothing⟩ := restoreInternal_blank blankTemplates eepromBoard_aligned
    xb112Request.settings.preference xb112Request.word xb112Request.xptr
  rw [dataStart, show stuckDevice.memory = Memory.blank eepromBoard.kind from rfl, nothing]
  rfl

theorem stuck_header_hides_record :
    ¬Reaches blankTemplates (xb112Attempts.device.calibrationDataWrite 4085 ones).memory
      4095 4091 := by
  obtain ⟨address, written, hidden⟩ := obliterated_header_hides_record blankTemplates eepromBoard
    eepromBoard_aligned xb112Request stuckDevice _ 4095 rfl xb112_saved (Int.le_refl 0)
    (mem_singleton.mpr rfl) xb112_ones
  rw [xb112_dataStart, ← some.inj written] at hidden
  exact hidden

theorem stuck_header_not_reached :
    ¬RetryReached blankTemplates eepromBoard xb112Request stuckDevice := by
  intro reached
  obtain ⟨address, written, word, mptr, rounds, -, scan, after, there⟩ := reached _ 4095 xb112_saved
    (Int.le_refl 0) (mem_singleton.mpr rfl) xb112_ones
  have address_eq : (4091 : Int) = address := some.inj written
  rw [xb112_dataStart] at after
  have stuck := scanAfter_ones blankTemplates _ rounds _ scan xb112_ones after
  simp only at stuck
  omega

end AthApps.Cal
