import AthApps.Cal.Retry

/-!
# The report and the restore

`Ar9300EepromReportAddress` is a second copy of the scan of the restore.  It
keeps every image it makes and returns the address behind the records.  It
differs from the restore in what it does with records it does not know, with a
first difference to the current image, with more than `MCHECK` images, and with
a block that ends where the structure ends.
-/

set_option autoImplicit false

namespace AthApps.Cal

open AthApps.Lib List Option

/-! ## Ar9300EepromReportAddress -/

def mcheck : Nat := 20

/-- The locals of the report's scan; `states` is `mptr[0 .. mcount-1]`. -/
structure ReportScan where
  cptr : Int
  word : Buffer
  states : List Bytes

inductive Reported where
  | failed
  | again
  | states (states : List Bytes)

/-- The copy of an image to `mptr[mcount]`, and `mcount++`. -/
def pushState (states : List Bytes) (image : Bytes) :
    Except Fault (List Bytes) :=
  if states.length < mcheck then .ok (states ++ [image]) else .error .states

def pushDifference (mdataSize : Nat) (header : Header) (word : Buffer)
    (states : List Bytes) (reference : Bytes) : Except Fault Reported :=
  match pushState states reference with
  | .error fault => .error fault
  | .ok _ =>
    match localUncompressBlock reference mdataSize
        (fun index => word (compressionHeaderLength + index))
        (moutput - compressionHeaderLength) header.length with
    | .error fault => .error fault
    | .ok (_, image) => .ok (.states (states ++ [image]))

def reportRecord (templates : Templates) (mdataSize : Nat) (header : Header) (word : Buffer)
    (states : List Bytes) : Except Fault Reported :=
  match header.code with
  | .none =>
    if header.length ≠ mdataSize then .ok .again
    else
      match pushState states (window word compressionHeaderLength header.length) with
      | .error fault => .error fault
      | .ok states => .ok (.states states)
  | .block =>
    if header.reference ≠ referenceCurrent then
      match templates.structDefaultFindById header.reference with
      | none => .ok .again
      | some dptr =>
        if states = [] then
          match pushState states dptr with
          | .error fault => .error fault
          | .ok states => pushDifference mdataSize header word states dptr
        else pushDifference mdataSize header word states dptr
    else
      match states.getLast? with
      -- `mptr[-1]`
      | none => .error .states
      | some last => pushDifference mdataSize header word states last
  | _ => .ok .failed

inductive ReportRound where
  | blank
  | failed
  | next (scan : ReportScan)

def reportRound (templates : Templates) (memory : Memory) (mdataSize : Nat) (scan : ReportScan) :
    Except Fault ReportRound :=
  let word := memory.readArray scan.cptr scan.word compressionHeaderLength
  if headerBlank word = true then .ok .blank
  else
    let header := compressionHeaderUnpack word
    if recordLength header.length > moutput then .error .word
    else
      let word := memory.readArray scan.cptr word (recordLength header.length)
      let cptr := scan.cptr - recordLength header.length
      if compressionChecksum (window word compressionHeaderLength header.length) =
          storedChecksum word header.length then
        match reportRecord templates mdataSize header word scan.states with
        | .error fault => .error fault
        | .ok .failed => .ok .failed
        | .ok .again => .ok (.next { scan with word := word })
        | .ok (.states states) => .ok (.next { cptr := cptr, word := word, states := states })
      else .ok (.next { scan with cptr := cptr, word := word })

/-- The end of the report.  With a print function the current structure is
added to the images. -/
def ReportScan.result (current : Option Bytes) (scan : ReportScan) :
    Int × List Bytes :=
  let states :=
    match current with
    | none => scan.states
    | some image => if scan.states.length < mcheck then scan.states ++ [image] else scan.states
  (if states = [] then -1 else scan.cptr, states)

@[irreducible] def reportRounds (templates : Templates) (memory : Memory) (mdataSize : Nat)
    (current : Option Bytes) :
    Nat → ReportScan → Except Fault (Int × List Bytes)
  | 0, scan => .ok (scan.result current)
  | rounds + 1, scan =>
    match reportRound templates memory mdataSize scan with
    | .error fault => .error fault
    | .ok .blank => .ok (scan.result current)
    | .ok .failed => .ok (-1, scan.states)
    | .ok (.next scan) => reportRounds templates memory mdataSize current rounds scan

/-- `Ar9300EepromReportAddress`, with what was on the stack in `word`;
`current` is the current structure when there is a print function. -/
def reportAddress (templates : Templates) (memory : Memory) (current : Option Bytes)
    (word : Buffer) (cptr : Int) : Except Fault (Int × List Bytes) :=
  reportRounds templates memory structSize current mstate
    { cptr := cptr, word := word, states := [] }

/-! ## The records of a scan -/

/-- A record as it is in the memory. -/
structure Found where
  header : Header
  data : Bytes
  good : Bool
  deriving DecidableEq

def foundAt (memory : Memory) (address : Int) : Found :=
  let header := headerAt memory address
  let word := memory.readArray address (fun _ => 0) (recordLength header.length)
  let data := window word compressionHeaderLength header.length
  { header := header
    data := data
    good := compressionChecksum data = storedChecksum word header.length }

/-- The records with a good checksum that a scan of so many rounds comes by
before it leaves the memory. -/
@[grind =] def goodRecords (memory : Memory) : Nat → Int → List Found
  | 0, _ => []
  | rounds + 1, address =>
    if headerBlank (readHeader memory address) = true ∨
        address < recordLength (headerAt memory address).length then []
    else
      let rest := goodRecords memory rounds
        (address - recordLength (headerAt memory address).length)
      if (foundAt memory address).good = true then foundAt memory address :: rest else rest

/-- How many images the report has after a record, if it can follow it: it
knows the code and the template, it has an image that is current when the
record refers to it, and there is room for the new image. -/
def nextCount (templates : Templates) (mcount : Nat) (found : Found) : Option Nat :=
  match found.header.code with
  | .none => if mcount < mcheck then some (mcount + 1) else none
  | .block =>
    if found.header.reference = referenceCurrent then
      if 0 < mcount ∧ mcount < mcheck then some (mcount + 1) else none
    else if templates.structDefaultFindById found.header.reference = none then none
    else if mcount = 0 then some 2
    else if mcount < mcheck then some (mcount + 1) else none
  | _ => none

def Reportable (templates : Templates) : Nat → List Found → Prop
  | _, [] => True
  | mcount, found :: rest =>
    ∃ mcount', nextCount templates mcount found = some mcount' ∧ Reportable templates mcount' rest

/-- The blocks of a difference stay inside the record, and none of them ends
where the structure ends. -/
def Contained (mdataSize : Nat) (data : Bytes) (spot : Nat) : Prop :=
  match data with
  | [] => True
  | [_] => False
  | offset :: length :: rest =>
    if length.toNat = 0 then Contained mdataSize rest (spot + offset.toNat)
    else if spot + offset.toNat + length.toNat > mdataSize then True
    else
      spot + offset.toNat + length.toNat < mdataSize ∧ length.toNat ≤ rest.length ∧
        Contained mdataSize (rest.drop length.toNat) (spot + offset.toNat + length.toNat)
termination_by data.length

/-! ## Reading a record -/

def recordWord (memory : Memory) (address : Int) (word : Buffer) : Buffer :=
  memory.readArray address (memory.readArray address word compressionHeaderLength)
    (recordLength (headerAt memory address).length)

section reading

variable {memory : Memory} {address : Int}

structure Inside (memory : Memory) (address : Int) : Prop where
  low : 0 ≤ address - recordLength (headerAt memory address).length
  high : address < memory.kind.limit

theorem Inside.three_le (inside : Inside memory address) : 3 ≤ address := by
  have low := inside.low
  simp only [recordLength, compressionHeaderLength, compressionChecksumLength] at low
  omega

theorem Inside.unpack (inside : Inside memory address) (word : Buffer) :
    compressionHeaderUnpack (memory.readArray address word compressionHeaderLength) =
      headerAt memory address :=
  readArray_header memory address word inside.three_le inside.high

theorem Inside.read (inside : Inside memory address) (index : Nat)
    (bound : index < recordLength (headerAt memory address).length) :
    ∃ value, memory.read (address - index) = some value := by
  have low := inside.low
  have high := inside.high
  refine ⟨memory.byte (address - index).toNat, ?_⟩
  rw [Memory.read, if_pos (by omega)]

theorem Inside.header (inside : Inside memory address) (word other : Buffer) (index : Nat)
    (bound : index < compressionHeaderLength) :
    memory.readArray address word compressionHeaderLength index =
      memory.readArray address other compressionHeaderLength index := by
  obtain ⟨value, found⟩ := inside.read index (by simp only [recordLength]; omega)
  rw [memory.readArray_apply address word _ index value bound found,
    memory.readArray_apply address other _ index value bound found]

theorem headerBlank_congr (word other : Buffer)
    (same : ∀ index < compressionHeaderLength, word index = other index) :
    headerBlank word = headerBlank other := by
  simp only [headerBlank]
  rw [same 0 (by decide), same 1 (by decide), same 2 (by decide), same 3 (by decide)]

theorem Inside.blank (inside : Inside memory address) (word : Buffer) :
    headerBlank (memory.readArray address word compressionHeaderLength) =
      headerBlank (readHeader memory address) :=
  headerBlank_congr _ _ fun index bound => inside.header word _ index bound

theorem Inside.word (inside : Inside memory address) (word other : Buffer) (index : Nat)
    (bound : index < recordLength (headerAt memory address).length) :
    recordWord memory address word index =
      memory.readArray address other (recordLength (headerAt memory address).length) index := by
  obtain ⟨value, found⟩ := inside.read index bound
  rw [recordWord, memory.readArray_apply address _ _ index value bound found,
    memory.readArray_apply address other _ index value bound found]

theorem Inside.data (inside : Inside memory address) (word : Buffer) :
    window (recordWord memory address word) compressionHeaderLength
      (headerAt memory address).length = (foundAt memory address).data := by
  apply window_congr
  intro index bound
  exact inside.word word _ _ (by simp only [recordLength]; omega)

theorem Inside.stored (inside : Inside memory address) (word : Buffer) :
    storedChecksum (recordWord memory address word) (headerAt memory address).length =
      storedChecksum (memory.readArray address (fun _ => 0)
        (recordLength (headerAt memory address).length)) (headerAt memory address).length := by
  simp only [storedChecksum]
  rw [inside.word word (fun _ => 0) _ (by
      simp only [recordLength, compressionChecksumLength]
      omega),
    inside.word word (fun _ => 0) _ (by
      simp only [recordLength, compressionChecksumLength]
      omega)]

theorem Inside.good (inside : Inside memory address) (word : Buffer) :
    (compressionChecksum (window (recordWord memory address word) compressionHeaderLength
        (headerAt memory address).length) =
      storedChecksum (recordWord memory address word) (headerAt memory address).length) ↔
      (foundAt memory address).good = true := by
  rw [inside.data, inside.stored]
  simp only [foundAt, decide_eq_true_eq]

end reading

/-! ## The two decoders -/

theorem localUncompress_ok (block other : Buffer) (room mdataSize size it spot : Nat)
    (image image' : Bytes) (flag : Bool) (decoded : Bytes)
    (same : ∀ index ≤ size, block index = other index)
    (result : uncompressWith (fun finish mdataSize => finish ≤ mdataSize) block room mdataSize size
      it spot image = .ok (flag, decoded)) :
    ∃ flag' decoded', uncompressWith (fun finish mdataSize => finish < mdataSize) other room
      mdataSize size it spot image' = .ok (flag', decoded') := by
  fun_induction uncompressWith (fun finish mdataSize => decide (finish ≤ mdataSize)) block room
      mdataSize size it spot image generalizing image' with
  | case1 it spot image inside short => simp at result
  | case2 it spot image inside enough spot' length copied short => simp at result
  | case3 it spot image inside enough spot' length copied long ih =>
    rw [uncompressWith, if_pos inside, if_neg enough]
    simp only [← same it (by omega), ← same (it + 1) (by omega)]
    by_cases fits : spot' + length < mdataSize
    · rw [if_pos ⟨copied.1, by simpa using fits⟩, if_neg long]
      exact ih _ result
    · rw [if_neg (by simpa using fun _ => Nat.le_of_not_lt fits), if_pos copied.1]
      exact ⟨false, image', rfl⟩
  | case4 it spot image inside enough spot' length notCopied positive =>
    rw [uncompressWith, if_pos inside, if_neg enough]
    simp only [← same it (by omega), ← same (it + 1) (by omega)]
    have outside : ¬spot' + length ≤ mdataSize := fun fits =>
      notCopied ⟨positive, by simpa using fits⟩
    rw [if_neg (by simp only [decide_eq_true_eq]; omega), if_pos positive]
    exact ⟨false, image', rfl⟩
  | case5 it spot image inside enough spot' length notCopied empty ih =>
    rw [uncompressWith, if_pos inside, if_neg enough]
    simp only [← same it (by omega), ← same (it + 1) (by omega)]
    rw [if_neg (fun bad => empty bad.1), if_neg empty]
    exact ih _ result
  | case6 it spot image outside =>
    rw [uncompressWith, if_neg outside]
    exact ⟨true, image', rfl⟩

theorem uncompress_contained (block other : Buffer) (room mdataSize it spot : Nat)
    (data image : Bytes) (contained : Contained mdataSize data spot)
    (held : window block it data.length = data) (held' : window other it data.length = data)
    (enough : it + data.length ≤ room) :
    uncompressWith (fun finish mdataSize => finish ≤ mdataSize) block room mdataSize
        (it + data.length) it spot image =
      uncompressWith (fun finish mdataSize => finish < mdataSize) other room mdataSize
        (it + data.length) it spot image := by
  fun_induction Contained mdataSize data spot generalizing it image with
  | case1 spot =>
    rw [length_nil, Nat.add_zero, uncompressWith_end _ block _ _ _ _ _ _ (Nat.le_refl it),
      uncompressWith_end _ other _ _ _ _ _ _ (Nat.le_refl it)]
  | case2 spot byte => exact absurd contained id
  | case3 spot offset length rest empty ih =>
    rw [window_eq_cons, window_eq_cons] at held held'
    obtain ⟨atOffset, atLength, atRest⟩ := held
    obtain ⟨atOffset', atLength', atRest'⟩ := held'
    simp only [length_cons] at enough ⊢
    rw [uncompressWith_skip _ block _ _ _ _ _ _ (by omega) (by rw [atLength]; exact empty) (by omega),
      uncompressWith_skip _ other _ _ _ _ _ _ (by omega) (by rw [atLength']; exact empty) (by omega),
      atOffset, atOffset', show it + (rest.length + 1 + 1) = (it + 2) + rest.length by omega]
    exact ih (it + 2) image contained atRest atRest' (by omega)
  | case4 spot offset length rest some_ outside =>
    rw [window_eq_cons, window_eq_cons] at held held'
    obtain ⟨atOffset, atLength, -⟩ := held
    obtain ⟨atOffset', atLength', -⟩ := held'
    simp only [length_cons] at enough ⊢
    rw [uncompressWith_stop _ block _ _ _ _ _ _ (by omega) (by omega) (by rw [atLength]; omega)
        (by rw [atOffset, atLength, decide_eq_false_iff_not]; omega),
      uncompressWith_stop _ other _ _ _ _ _ _ (by omega) (by omega) (by rw [atLength']; omega)
        (by rw [atOffset', atLength', decide_eq_false_iff_not]; omega)]
  | case5 spot offset length rest some_ inside ih =>
    obtain ⟨before, whole, later⟩ := contained
    rw [window_eq_cons, window_eq_cons] at held held'
    obtain ⟨atOffset, atLength, atRest⟩ := held
    obtain ⟨atOffset', atLength', atRest'⟩ := held'
    have split : rest = rest.take length.toNat ++ rest.drop length.toNat :=
      (take_append_drop _ _).symm
    have takeLength : (rest.take length.toNat).length = length.toNat := by
      rw [length_take]
      omega
    rw [split, window_eq_append, takeLength] at atRest atRest'
    simp only [length_cons] at enough ⊢
    rw [uncompressWith_copy _ block _ _ _ _ _ _ (by omega) (by rw [atLength]; omega)
        (by rw [atOffset, atLength, decide_eq_true_eq]; omega) (by rw [atLength]; omega),
      uncompressWith_copy _ other _ _ _ _ _ _ (by omega) (by rw [atLength']; omega)
        (by rw [atOffset', atLength', decide_eq_true_eq]; omega) (by rw [atLength']; omega),
      atOffset, atOffset', atLength, atLength', atRest.1, atRest'.1]
    have size : it + (rest.length + 1 + 1) =
        (it + length.toNat + 2) + (rest.drop length.toNat).length := by
      rw [length_drop]
      omega
    rw [size]
    have start : it + 1 + 1 + length.toNat = it + length.toNat + 2 := by omega
    rw [start] at atRest atRest'
    exact ih _ _ later atRest.2 atRest'.2 (by rw [length_drop]; omega)

/-! ## One round of both scans -/

section rounds

variable {templates : Templates} {memory : Memory}

/-- What a round of the restore does that goes on to another record. -/
inductive RestoreStep (templates : Templates) (memory : Memory) (scan next : Scan) : Prop
  | bad (bad : (foundAt memory scan.cptr).good = false) (image : next.image = scan.image)
      (restored : next.restored = scan.restored)
  | skipped (good : (foundAt memory scan.cptr).good = true)
      (record : restoreRecord templates structSize (headerAt memory scan.cptr)
        (recordWord memory scan.cptr scan.word) scan.image = .ok .skipped)
      (image : next.image = scan.image) (restored : next.restored = scan.restored)
  | applied (good : (foundAt memory scan.cptr).good = true)
      (record : restoreRecord templates structSize (headerAt memory scan.cptr)
        (recordWord memory scan.cptr scan.word) scan.image = .ok (.image next.image))
      (restored : next.restored = true)

structure RestoreMoves (templates : Templates) (memory : Memory) (scan next : Scan) : Prop where
  inside : Inside memory scan.cptr
  notBlank : ¬headerBlank (readHeader memory scan.cptr) = true
  room : recordLength (headerAt memory scan.cptr).length ≤ moutput
  cptr : next.cptr = scan.cptr - recordLength (headerAt memory scan.cptr).length
  word : next.word = recordWord memory scan.cptr scan.word
  step : RestoreStep templates memory scan next

variable {address : Int} {scan next : Scan}

theorem restoreRound_moves
    (round : restoreRound templates memory structSize scan = .ok (.next next))
    (high : scan.cptr < memory.kind.limit) (low : 0 ≤ next.cptr) :
    RestoreMoves templates memory scan next := by
  have length := restoreRound_next round
  have three : 3 ≤ scan.cptr := by
    simp only [recordLength, compressionHeaderLength, compressionChecksumLength] at length
    omega
  have header := readArray_header memory scan.cptr scan.word three high
  rw [header] at length
  have inside : Inside memory scan.cptr := ⟨by omega, high⟩
  have blank := inside.blank scan.word
  have good := inside.good scan.word
  simp only [recordWord] at good
  rw [restoreRound] at round
  simp only [header, blank] at round
  by_cases isBlank : headerBlank (readHeader memory scan.cptr) = true
  · rw [if_pos isBlank] at round
    exact absurd (Except.ok.inj round) (by simp)
  · rw [if_neg isBlank] at round
    by_cases large : recordLength (headerAt memory scan.cptr).length > moutput
    · rw [if_pos large] at round
      simp at round
    · rw [if_neg large] at round
      by_cases checks : (foundAt memory scan.cptr).good = true
      · rw [if_pos (good.mpr checks)] at round
        cases record : restoreRecord templates structSize (headerAt memory scan.cptr)
            (recordWord memory scan.cptr scan.word) scan.image with
        | error fault =>
          rw [recordWord] at record
          simp [record] at round
        | ok applied =>
          have recordEq := record
          rw [recordWord] at recordEq
          simp only [recordEq] at round
          cases applied with
          | mismatch => exact absurd (Except.ok.inj round) (by simp)
          | skipped =>
            have eq := Round.next.inj (Except.ok.inj round)
            rw [← eq]
            exact ⟨inside, isBlank, by omega, rfl, rfl, .skipped checks record rfl rfl⟩
          | image image =>
            have eq := Round.next.inj (Except.ok.inj round)
            rw [← eq]
            exact ⟨inside, isBlank, by omega, rfl, rfl, .applied checks record rfl⟩
      · rw [if_neg (mt good.mp checks)] at round
        have eq := Round.next.inj (Except.ok.inj round)
        rw [← eq]
        exact ⟨inside, isBlank, by omega, rfl, rfl, .bad (Bool.eq_false_iff.mpr checks) rfl rfl⟩

theorem RestoreMoves.reportRound (moves : RestoreMoves templates memory scan next)
    (report : ReportScan) (there : report.cptr = scan.cptr) :
    reportRound templates memory structSize report =
      if (foundAt memory scan.cptr).good = true then
        match reportRecord templates structSize (headerAt memory scan.cptr)
            (recordWord memory scan.cptr report.word) report.states with
        | .error fault => .error fault
        | .ok .failed => .ok .failed
        | .ok .again => .ok (.next { report with word := recordWord memory scan.cptr report.word })
        | .ok (.states states) =>
          .ok (.next { cptr := next.cptr, word := recordWord memory scan.cptr report.word,
                       states := states })
      else
        .ok (.next { report with cptr := next.cptr,
                                 word := recordWord memory scan.cptr report.word }) := by
  have inside := moves.inside
  have good := inside.good report.word
  rw [Cal.reportRound]
  simp only [there, inside.unpack, inside.blank]
  rw [if_neg moves.notBlank, if_neg (Nat.not_lt.mpr moves.room), moves.cptr]
  simp only [recordWord] at good ⊢
  by_cases checks : (foundAt memory scan.cptr).good = true
  · rw [if_pos (good.mpr checks), if_pos checks]
  · rw [if_neg (mt good.mp checks), if_neg checks]

theorem pushDifference_ok (inside : Inside memory address)
    (room : recordLength (headerAt memory address).length ≤ moutput) (word other : Buffer)
    (states : List Bytes) (reference base decoded : Bytes) (flag : Bool)
    (few : states.length < mcheck)
    (result : ar9300UncompressBlock reference structSize
      (fun index => recordWord memory address word (compressionHeaderLength + index))
      (moutput - compressionHeaderLength) (headerAt memory address).length = .ok (flag, decoded)) :
    ∃ image, pushDifference structSize (headerAt memory address) (recordWord memory address other)
        states base = .ok (.states (states ++ [image])) ∧
      (Contained structSize (foundAt memory address).data 0 → base = reference →
        image = decoded) := by
  have data := inside.data word
  have data' := inside.data other
  have dataLength : (foundAt memory address).data.length = (headerAt memory address).length := by
    rw [← data, window_length]
  obtain ⟨flag', image, decoded'⟩ := localUncompress_ok _
    (fun index => recordWord memory address other (compressionHeaderLength + index)) _ _ _ _ _ _
    base _ _ (by
      intro index bound
      have within : compressionHeaderLength + index <
          recordLength (headerAt memory address).length := by
        simp only [recordLength, compressionChecksumLength]
        omega
      exact (inside.word word word _ within).trans (inside.word other word _ within).symm) result
  refine ⟨image, ?_, ?_⟩
  · rw [pushDifference, pushState, if_pos few]
    simp only [localUncompressBlock, decoded']
  · rintro contained rfl
    have held : window (fun index => recordWord memory address word
        (compressionHeaderLength + index)) 0 (foundAt memory address).data.length =
        (foundAt memory address).data := by
      rw [dataLength]
      simpa [window] using data
    have held' : window (fun index => recordWord memory address other
        (compressionHeaderLength + index)) 0 (foundAt memory address).data.length =
        (foundAt memory address).data := by
      rw [dataLength]
      simpa [window] using data'
    have same := uncompress_contained _ _ (moutput - compressionHeaderLength) structSize 0 0
      (foundAt memory address).data base contained held held' (by
        rw [dataLength]
        simp only [recordLength] at room
        omega)
    rw [dataLength, Nat.zero_add] at same
    rw [ar9300UncompressBlock, same, decoded'] at result
    exact (Prod.mk.inj (Except.ok.inj result)).2

/-- What a record that turned `image` into `image'` needs of the report, and
gives it. -/
structure Follows (templates : Templates) (memory : Memory) (address : Int) (word : Buffer)
    (states : List Bytes) (image image' : Bytes) : Prop where
  goes : ∀ mcount, nextCount templates states.length (foundAt memory address) = some mcount →
    ∃ states', reportRecord templates structSize (headerAt memory address)
        (recordWord memory address word) states = .ok (.states states') ∧
      states'.length = mcount ∧ states' ≠ [] ∧
      (((headerAt memory address).code = .block →
          Contained structSize (foundAt memory address).data 0) →
        (states ≠ [] → states.getLast? = some image) → states'.getLast? = some image')
  faults : nextCount templates states.length (foundAt memory address) = none →
    ∃ fault, reportRecord templates structSize (headerAt memory address)
      (recordWord memory address word) states = .error fault

theorem nextCount_none (templates : Templates) (mcount : Nat)
    (code : (headerAt memory address).code = .none) :
    nextCount templates mcount (foundAt memory address) =
      if mcount < mcheck then some (mcount + 1) else none := by
  have headerEq : (foundAt memory address).header = headerAt memory address := rfl
  simp only [nextCount, headerEq, code]

theorem nextCount_block (templates : Templates) (mcount : Nat)
    (code : (headerAt memory address).code = .block) :
    nextCount templates mcount (foundAt memory address) =
      if (headerAt memory address).reference = referenceCurrent then
        if 0 < mcount ∧ mcount < mcheck then some (mcount + 1) else none
      else if templates.structDefaultFindById (headerAt memory address).reference = none then none
      else if mcount = 0 then some 2
      else if mcount < mcheck then some (mcount + 1) else none := by
  have headerEq : (foundAt memory address).header = headerAt memory address := rfl
  simp only [nextCount, headerEq, code]

theorem follows_none (inside : Inside memory address) (word other : Buffer)
    (image image' : Bytes) (states : List Bytes)
    (code : (headerAt memory address).code = .none)
    (applied : restoreRecord templates structSize (headerAt memory address)
      (recordWord memory address word) image = .ok (.image image')) :
    Follows templates memory address other states image image' := by
  simp only [restoreRecord, code] at applied
  by_cases size : (headerAt memory address).length ≠ structSize
  · rw [if_pos size] at applied
    exact absurd (Except.ok.inj applied) (by simp)
  · rw [if_neg size] at applied
    have imageEq := Applied.image.inj (Except.ok.inj applied)
    have count := nextCount_none templates states.length code
    by_cases few : states.length < mcheck
    · rw [if_pos few] at count
      refine ⟨fun mcount next => ?_, fun full => by rw [count] at full; simp at full⟩
      obtain rfl := some.inj (count.symm.trans next)
      refine ⟨states ++ [window (recordWord memory address other) compressionHeaderLength
        (headerAt memory address).length], ?_, by simp, by simp, fun _ _ => ?_⟩
      · simp only [reportRecord, code, if_neg size, pushState, if_pos few]
      · rw [getLast?_concat, ← imageEq, inside.data, inside.data]
    · rw [if_neg few] at count
      refine ⟨fun mcount next => by rw [count] at next; simp at next, fun _ => ⟨.states, ?_⟩⟩
      simp only [reportRecord, code, if_neg size, pushState, if_neg few]

theorem follows_current (inside : Inside memory address)
    (room : recordLength (headerAt memory address).length ≤ moutput) (word other : Buffer)
    (image image' : Bytes) (flag : Bool) (states : List Bytes)
    (code : (headerAt memory address).code = .block)
    (current : (headerAt memory address).reference = referenceCurrent)
    (decoded : ar9300UncompressBlock image structSize
      (fun index => recordWord memory address word (compressionHeaderLength + index))
      (moutput - compressionHeaderLength) (headerAt memory address).length = .ok (flag, image')) :
    Follows templates memory address other states image image' := by
  have count := nextCount_block templates states.length code
  rw [if_pos current] at count
  have record : reportRecord templates structSize (headerAt memory address)
      (recordWord memory address other) states =
        match states.getLast? with
        | none => .error .states
        | some last => pushDifference structSize (headerAt memory address)
            (recordWord memory address other) states last := by
    simp only [reportRecord, code, if_neg (not_not.mpr current)]
  by_cases fits : 0 < states.length ∧ states.length < mcheck
  · rw [if_pos fits] at count
    have some_ : states ≠ [] := ne_nil_of_length_pos fits.1
    obtain ⟨last, lastEq⟩ : ∃ last, states.getLast? = some last :=
      isSome_iff_exists.mp (getLast?_isSome.mpr some_)
    obtain ⟨new, pushed, sameImage⟩ := pushDifference_ok inside room word other states image last
      image' flag fits.2 decoded
    refine ⟨fun mcount next => ?_, fun full => by rw [count] at full; simp at full⟩
    obtain rfl := some.inj (count.symm.trans next)
    refine ⟨states ++ [new], ?_, by simp, by simp, fun contained same => ?_⟩
    · rw [record, lastEq]
      exact pushed
    · rw [lastEq] at same
      rw [getLast?_concat, sameImage (contained code) (some.inj (same some_))]
  · rw [if_neg fits] at count
    refine ⟨fun mcount next => by rw [count] at next; simp at next, fun _ => ⟨.states, ?_⟩⟩
    rw [record]
    cases lastEq : states.getLast? with
    | none => rfl
    | some last =>
      have some_ : states ≠ [] := by
        rintro rfl
        simp at lastEq
      have full : ¬states.length < mcheck := fun few => fits ⟨length_pos_iff.mpr some_, few⟩
      simp only [pushDifference, pushState, if_neg full]

theorem follows_template (inside : Inside memory address)
    (room : recordLength (headerAt memory address).length ≤ moutput) (word other : Buffer)
    (image image' dptr : Bytes) (flag : Bool) (states : List Bytes)
    (code : (headerAt memory address).code = .block)
    (notCurrent : ¬(headerAt memory address).reference = referenceCurrent)
    (known : templates.structDefaultFindById (headerAt memory address).reference = some dptr)
    (decoded : ar9300UncompressBlock dptr structSize
      (fun index => recordWord memory address word (compressionHeaderLength + index))
      (moutput - compressionHeaderLength) (headerAt memory address).length = .ok (flag, image')) :
    Follows templates memory address other states image image' := by
  have count := nextCount_block templates states.length code
  rw [if_neg notCurrent, known, if_neg (by simp)] at count
  have record : reportRecord templates structSize (headerAt memory address)
      (recordWord memory address other) states =
        if states = [] then
          match pushState states dptr with
          | .error fault => .error fault
          | .ok states => pushDifference structSize (headerAt memory address)
              (recordWord memory address other) states dptr
        else pushDifference structSize (headerAt memory address)
          (recordWord memory address other) states dptr := by
    simp only [reportRecord, code, if_pos notCurrent, known, ne_eq]
  by_cases empty : states = []
  · subst empty
    rw [if_pos length_nil] at count
    obtain ⟨new, pushed, sameImage⟩ := pushDifference_ok inside room word other [dptr] dptr dptr
      image' flag (by rw [length_singleton]; decide) decoded
    refine ⟨fun mcount next => ?_, fun full => by rw [count] at full; simp at full⟩
    obtain rfl := some.inj (count.symm.trans next)
    refine ⟨[dptr] ++ [new], ?_, rfl, by simp, fun contained _ => ?_⟩
    · rw [record, if_pos rfl]
      exact pushed
    · rw [getLast?_concat, sameImage (contained code) rfl]
  · have positive : ¬states.length = 0 := fun zero =>
      empty (eq_nil_of_length_eq_zero zero)
    rw [if_neg positive] at count
    rw [if_neg empty] at record
    by_cases few : states.length < mcheck
    · rw [if_pos few] at count
      obtain ⟨new, pushed, sameImage⟩ := pushDifference_ok inside room word other states dptr dptr
        image' flag few decoded
      refine ⟨fun mcount next => ?_, fun full => by rw [count] at full; simp at full⟩
      obtain rfl := some.inj (count.symm.trans next)
      refine ⟨states ++ [new], record.trans pushed, by simp, by simp, fun contained _ => ?_⟩
      rw [getLast?_concat, sameImage (contained code) rfl]
    · rw [if_neg few] at count
      refine ⟨fun mcount next => by rw [count] at next; simp at next, fun _ => ⟨.states, ?_⟩⟩
      rw [record]
      simp only [pushDifference, pushState, if_neg few]

theorem follows_applied (inside : Inside memory address)
    (room : recordLength (headerAt memory address).length ≤ moutput) (word other : Buffer)
    (image image' : Bytes) (states : List Bytes)
    (applied : restoreRecord templates structSize (headerAt memory address)
      (recordWord memory address word) image = .ok (.image image')) :
    Follows templates memory address other states image image' := by
  cases code : (headerAt memory address).code with
  | none => exact follows_none inside word other image image' states code applied
  | block =>
    simp only [restoreRecord, code, referenceImage] at applied
    by_cases current : (headerAt memory address).reference = referenceCurrent
    · simp only [if_pos current] at applied
      split at applied
      · simp at applied
      · obtain rfl := Applied.image.inj (Except.ok.inj applied)
        exact follows_current inside room word other image _ _ states code current (by assumption)
    · simp only [if_neg current] at applied
      cases known : templates.structDefaultFindById (headerAt memory address).reference with
      | none => simp [known] at applied
      | some dptr =>
        simp only [known] at applied
        split at applied
        · simp at applied
        · obtain rfl := Applied.image.inj (Except.ok.inj applied)
          exact follows_template inside room word other image _ dptr _ states code current known
            (by assumption)
  | lzma => simp [restoreRecord, code] at applied
  | pairs => simp [restoreRecord, code] at applied
  | compress4 => simp [restoreRecord, code] at applied
  | compress5 => simp [restoreRecord, code] at applied
  | compress6 => simp [restoreRecord, code] at applied
  | compress7 => simp [restoreRecord, code] at applied

theorem reportRecord_skipped (word other : Buffer) (image : Bytes) (states : List Bytes)
    (skipped : restoreRecord templates structSize (headerAt memory address)
      (recordWord memory address word) image = .ok .skipped) :
    nextCount templates states.length (foundAt memory address) = none ∧
      (reportRecord templates structSize (headerAt memory address)
          (recordWord memory address other) states = .ok .failed ∨
        reportRecord templates structSize (headerAt memory address)
          (recordWord memory address other) states = .ok .again) := by
  have headerEq : (foundAt memory address).header = headerAt memory address := rfl
  simp only [nextCount, headerEq]
  cases code : (headerAt memory address).code with
  | none =>
    simp only [restoreRecord, code] at skipped
    split at skipped <;> simp at skipped
  | block =>
    simp only [restoreRecord, code, referenceImage] at skipped
    by_cases current : (headerAt memory address).reference = referenceCurrent
    · simp only [if_pos current] at skipped
      split at skipped <;> simp at skipped
    · simp only [if_neg current] at skipped
      cases known : templates.structDefaultFindById (headerAt memory address).reference with
      | none =>
        simp only [reportRecord, code, ne_eq, current, not_false_eq_true, if_true, known,
          if_false, true_and]
        exact .inr trivial
      | some dptr =>
        simp only [known] at skipped
        split at skipped <;> simp at skipped
  | lzma => simp [reportRecord, code]
  | pairs => simp [reportRecord, code]
  | compress4 => simp [reportRecord, code]
  | compress5 => simp [reportRecord, code]
  | compress6 => simp [reportRecord, code]
  | compress7 => simp [reportRecord, code]

/-! ## Both scans -/

/-- The two scans are at the same record and have both an image or both none. -/
structure Together (scan : Scan) (report : ReportScan) : Prop where
  cptr : report.cptr = scan.cptr
  some_ : scan.restored = true ↔ report.states ≠ []
  word : scan.restored = true →
    ∀ index < compressionHeaderLength, scan.word index = report.word index

variable {scan : Scan} {image : Bytes}

theorem restoreRounds_le {rounds : Nat} {next : Int}
    (result : restoreRounds templates memory structSize rounds scan = .ok (next, image))
    (found : 0 ≤ next) : next ≤ scan.cptr := by
  obtain ⟨count, last, after, rfl⟩ :=
    restoreRounds_scanAfter templates memory structSize rounds scan next image result found
  have order := scanAfter_le after
  omega

theorem Scan.result_found {next : Int} (result : scan.result = (next, image)) (found : 0 ≤ next) :
    scan.restored = true ∧ scan.cptr = next ∧ scan.image = image := by
  obtain ⟨address, imageEq⟩ := Prod.mk.inj result
  by_cases restored : scan.restored = true
  · rw [if_pos restored] at address
    exact ⟨restored, address, imageEq⟩
  · rw [if_neg restored] at address
    omega

theorem Together.result {report : ReportScan} {next : Int}
    (together : Together scan report) (result : scan.result = (next, image)) (found : 0 ≤ next) :
    report.result none = (next, report.states) ∧
      ((scan.restored = true → report.states.getLast? = some scan.image) →
        report.states.getLast? = some image) := by
  obtain ⟨restored, rfl, rfl⟩ := Scan.result_found result found
  refine ⟨?_, fun same => same restored⟩
  simp only [ReportScan.result]
  rw [if_neg (together.some_.mp restored), together.cptr]

/-- The end of the records is the same for both once they have an image. -/
theorem Together.blank {report : ReportScan} (together : Together scan report)
    (restored : scan.restored = true)
    (round : restoreRound templates memory structSize scan = .ok .blank) :
    reportRound templates memory structSize report = .ok .blank := by
  have same : headerBlank (memory.readArray report.cptr report.word compressionHeaderLength) =
      headerBlank (memory.readArray scan.cptr scan.word compressionHeaderLength) := by
    apply headerBlank_congr
    intro index bound
    simp only [Memory.readArray]
    rw [if_pos bound, if_pos bound, together.cptr, together.word restored index bound]
  rw [restoreRound] at round
  rw [Cal.reportRound]
  simp only at round ⊢
  rw [same]
  by_cases isBlank : headerBlank (memory.readArray scan.cptr scan.word
      compressionHeaderLength) = true
  · rw [if_pos isBlank]
  · rw [if_neg isBlank] at round
    split at round
    · simp at round
    · split at round
      · split at round <;> simp at round
      · simp at round

theorem blank_ends (round : restoreRound templates memory structSize scan = .ok .blank)
    (high : scan.cptr < memory.kind.limit) :
    headerBlank (readHeader memory scan.cptr) = true ∨
      scan.cptr < recordLength (headerAt memory scan.cptr).length := by
  by_cases small : scan.cptr < recordLength (headerAt memory scan.cptr).length
  · exact .inr small
  · left
    have inside : Inside memory scan.cptr := ⟨by omega, high⟩
    rw [← inside.blank scan.word]
    by_contra notBlank
    rw [restoreRound] at round
    simp only at round
    rw [if_neg notBlank] at round
    split at round
    · simp at round
    · split at round
      · split at round <;> simp at round
      · simp at round

theorem RestoreMoves.goodRecords (moves : RestoreMoves templates memory scan next) (rounds : Nat) :
    goodRecords memory (rounds + 1) scan.cptr =
      if (foundAt memory scan.cptr).good = true then
        foundAt memory scan.cptr :: Cal.goodRecords memory rounds next.cptr
      else Cal.goodRecords memory rounds next.cptr := by
  have low := moves.inside.low
  rw [Cal.goodRecords, if_neg (not_or.mpr ⟨moves.notBlank, by omega⟩), moves.cptr]

theorem RestoreMoves.words (moves : RestoreMoves templates memory scan next)
    (word : Buffer) (index : Nat) (bound : index < compressionHeaderLength) :
    next.word index = recordWord memory scan.cptr word index := by
  have within : index < recordLength (headerAt memory scan.cptr).length := by
    simp only [recordLength]
    omega
  rw [moves.word, moves.inside.word scan.word word index within,
    moves.inside.word word word index within]

theorem RestoreMoves.together (moves : RestoreMoves templates memory scan next)
    (word : Buffer) (states : List Bytes) (some_ : next.restored = true ↔ states ≠ []) :
    Together next ⟨next.cptr, recordWord memory scan.cptr word, states⟩ :=
  ⟨rfl, some_, fun _ index bound => moves.words word index bound⟩

/-- As long as it can follow the records the report comes to the same end. -/
theorem report_goes (rounds : Nat) (scan : Scan) (report : ReportScan) (next : Int) (image : Bytes)
    (result : restoreRounds templates memory structSize rounds scan = .ok (next, image))
    (found : 0 ≤ next) (high : scan.cptr < memory.kind.limit) (together : Together scan report)
    (reportable : Reportable templates report.states.length (goodRecords memory rounds scan.cptr)) :
    ∃ states, reportRounds templates memory structSize none rounds report = .ok (next, states) ∧
      ((∀ record ∈ goodRecords memory rounds scan.cptr, record.header.code = .block →
          Contained structSize record.data 0) →
        (scan.restored = true → report.states.getLast? = some scan.image) →
        states.getLast? = some image) := by
  induction rounds generalizing scan report with
  | zero =>
    rw [restoreRounds] at result
    obtain ⟨ended, same⟩ := together.result (Except.ok.inj result) found
    refine ⟨report.states, ?_, fun _ => same⟩
    rw [reportRounds, ended]
  | succ rounds ih =>
    rw [restoreRounds] at result
    cases round : restoreRound templates memory structSize scan with
    | error fault => simp [round] at result
    | ok outcome =>
      simp only [round] at result
      cases outcome with
      | blank =>
        obtain ⟨ended, same⟩ := together.result (Except.ok.inj result) found
        have restored := (Scan.result_found (Except.ok.inj result) found).1
        refine ⟨report.states, ?_, fun _ => same⟩
        rw [reportRounds, together.blank restored round]
        simp only [ended]
      | mismatch =>
        have address := congrArg Prod.fst (Except.ok.inj result)
        simp only at address
        omega
      | next scan' =>
        have order := restoreRounds_le result found
        have moves := restoreRound_moves round high (by omega)
        have lower : scan'.cptr < memory.kind.limit := by
          rw [moves.cptr]
          omega
        have step := moves.reportRound report together.cptr
        rw [moves.goodRecords] at reportable ⊢
        cases moves.step with
        | bad bad sameImage sameRestored =>
          rw [bad, if_neg Bool.false_ne_true] at step reportable ⊢
          obtain ⟨states, ended, same⟩ := ih scan' _ result lower
            (moves.together report.word report.states
              (by rw [sameRestored]; exact together.some_)) reportable
          refine ⟨states, ?_, ?_⟩
          · rw [reportRounds, step]
            exact ended
          · intro contained last
            refine same contained fun restored => ?_
            rw [sameImage]
            exact last (sameRestored ▸ restored)
        | skipped good record sameImage sameRestored =>
          rw [if_pos good] at reportable
          obtain ⟨mcount, follows, -⟩ := reportable
          rw [(reportRecord_skipped scan.word report.word scan.image report.states
            record).1] at follows
          simp at follows
        | applied good record restored =>
          rw [if_pos good] at step reportable ⊢
          obtain ⟨mcount, follows, later⟩ := reportable
          obtain ⟨states', reported, length, some_, last'⟩ :=
            (follows_applied moves.inside moves.room scan.word report.word scan.image
              scan'.image report.states record).goes mcount follows
          rw [reported] at step
          rw [← length] at later
          obtain ⟨states, ended, same⟩ := ih scan' _ result lower
            (moves.together report.word states' (by simp [restored, some_])) later
          refine ⟨states, ?_, ?_⟩
          · rw [reportRounds, step]
            exact ended
          · intro contained last
            refine same (fun other member => contained other (mem_cons_of_mem _ member)) fun _ => ?_
            exact last' (contained _ mem_cons_self)
              fun someState => last (together.some_.mpr someState)

/-- At a record that the restore skipped the report gives up, or stays there
until it has used up its rounds. -/
theorem report_stuck (moves : RestoreMoves templates memory scan next)
    (good : (foundAt memory scan.cptr).good = true)
    (skipped : restoreRecord templates structSize (headerAt memory scan.cptr)
      (recordWord memory scan.cptr scan.word) scan.image = .ok .skipped)
    (rounds : Nat) (report : ReportScan) (there : report.cptr = scan.cptr) (address : Int)
    (states : List Bytes)
    (result : reportRounds templates memory structSize none rounds report = .ok (address, states)) :
    address = -1 ∨ address = scan.cptr := by
  induction rounds generalizing report with
  | zero =>
    rw [reportRounds] at result
    have eq := congrArg Prod.fst (Except.ok.inj result)
    simp only [ReportScan.result] at eq
    split at eq
    · exact .inl eq.symm
    · exact .inr (eq.symm.trans there)
  | succ rounds ih =>
    have step := moves.reportRound report there
    rw [if_pos good] at step
    rw [reportRounds] at result
    rcases (reportRecord_skipped scan.word report.word scan.image report.states skipped).2 with
      failed | again
    · rw [failed] at step
      rw [step] at result
      exact .inl (Prod.mk.inj (Except.ok.inj result)).1.symm
    · rw [again] at step
      rw [step] at result
      exact ih ⟨report.cptr, recordWord memory scan.cptr report.word, report.states⟩ there result

theorem report_needs (rounds : Nat) (scan : Scan) (report : ReportScan) (next : Int)
    (image : Bytes) (states : List Bytes)
    (result : restoreRounds templates memory structSize rounds scan = .ok (next, image))
    (found : 0 ≤ next) (high : scan.cptr < memory.kind.limit) (together : Together scan report)
    (reported : reportRounds templates memory structSize none rounds report = .ok (next, states)) :
    Reportable templates report.states.length (goodRecords memory rounds scan.cptr) := by
  induction rounds generalizing scan report with
  | zero => exact trivial
  | succ rounds ih =>
    rw [restoreRounds] at result
    cases round : restoreRound templates memory structSize scan with
    | error fault => simp [round] at result
    | ok outcome =>
      simp only [round] at result
      cases outcome with
      | blank =>
        rw [goodRecords, if_pos (blank_ends round high)]
        exact trivial
      | mismatch =>
        have address := congrArg Prod.fst (Except.ok.inj result)
        simp only at address
        omega
      | next scan' =>
        have order := restoreRounds_le result found
        have moves := restoreRound_moves round high (by omega)
        have below : scan'.cptr < scan.cptr := by
          rw [moves.cptr, recordLength, compressionHeaderLength]
          omega
        have step := moves.reportRound report together.cptr
        rw [moves.goodRecords]
        cases moves.step with
        | bad bad sameImage sameRestored =>
          rw [bad, if_neg Bool.false_ne_true] at step ⊢
          rw [reportRounds, step] at reported
          exact ih scan' ⟨scan'.cptr, recordWord memory scan.cptr report.word, report.states⟩
            result (by omega) (moves.together report.word report.states
              (by rw [sameRestored]; exact together.some_)) reported
        | skipped good record sameImage sameRestored =>
          -- The report does not get past this record, the restore did.
          rcases report_stuck moves good record (rounds + 1) report together.cptr next states
            reported with negative | stayed
          · omega
          · omega
        | applied good record restored =>
          rw [if_pos good] at step ⊢
          have follows := follows_applied moves.inside moves.room scan.word report.word
            scan.image scan'.image report.states record
          cases count : nextCount templates report.states.length
              (foundAt memory scan.cptr) with
          | none =>
            obtain ⟨fault, faulted⟩ := follows.faults count
            rw [faulted] at step
            rw [reportRounds, step] at reported
            simp at reported
          | some mcount =>
            obtain ⟨states', recorded, length, some_, -⟩ := follows.goes mcount count
            rw [recorded] at step
            rw [reportRounds, step] at reported
            refine ⟨mcount, count, ?_⟩
            rw [← length]
            exact ih scan' _ result (by omega)
              (moves.together report.word states' (by simp [restored, some_])) reported

end rounds

/-- For a start address inside the memory: when the restore returns an address,
the report returns the same one exactly when it can follow the records, and then
its last image is the restored one if all blocks are contained. -/
theorem report_agrees_with_restore (templates : Templates) (memory : Memory) (word other : Buffer)
    (mptr : Bytes) (start next : Int) (image : Bytes)
    (high : start < memory.kind.limit)
    (restored : restoreInternalAddress templates memory word mptr structSize start =
      .ok (next, image))
    (found : 0 ≤ next) :
    ((∃ states, reportAddress templates memory none other start = .ok (next, states)) ↔
      Reportable templates 0 (goodRecords memory mstate start)) ∧
    (Reportable templates 0 (goodRecords memory mstate start) →
      (∀ record ∈ goodRecords memory mstate start, record.header.code = .block →
        Contained structSize record.data 0) →
      ∃ states, reportAddress templates memory none other start = .ok (next, states) ∧
        states.getLast? = some image) := by
  have together : Together ⟨start, word, mptr, false⟩ ⟨start, other, []⟩ := ⟨rfl, by simp, by simp⟩
  refine ⟨⟨?_, ?_⟩, ?_⟩
  · rintro ⟨states, reported⟩
    exact report_needs mstate _ _ next image states restored found high together reported
  · intro reportable
    obtain ⟨states, reported, -⟩ :=
      report_goes mstate _ _ next image restored found high together reportable
    exact ⟨states, reported⟩
  · intro reportable contained
    obtain ⟨states, reported, last⟩ :=
      report_goes mstate _ _ next image restored found high together reportable
    exact ⟨states, reported, last contained (by simp)⟩

/-! ## A difference in the last byte -/

def ReportAgrees (templates : Templates) (memory : Memory) (word other : Buffer)
    (mptr : Bytes) (start : Int) : Prop :=
  ∀ next image, restoreInternalAddress templates memory word mptr structSize start =
      .ok (next, image) → 0 ≤ next →
    ∃ states, reportAddress templates memory none other start = .ok (next, states) ∧
      states.getLast? = some image

def eepromWith (bytes : Bytes) : Memory where
  kind := .eeprom
  byte := fun address => bytes.getD (4095 - address) 0xff

def lastByteData : Bytes := [255, 0, 255, 0, 255, 0, 255, 0, 67, 1, 1]

def lastByteMemory : Memory :=
  eepromWith (recordBytes { code := .block, reference := 2, length := 11, major := 2, minor := 3 }
    lastByteData)

/-- The report leaves the last byte as it is in the template. -/
theorem last_byte_disagrees :
    ¬ReportAgrees blankTemplates lastByteMemory (fun _ => 0) (fun _ => 0) [] 4095 := by
  have restored : restoreInternalAddress blankTemplates lastByteMemory (fun _ => 0) [] structSize
      4095 = .ok (4078, 2 :: 2 :: (List.replicate 1085 0 ++ [1])) := by
    decide +kernel
  have reported : reportAddress blankTemplates lastByteMemory none (fun _ => 0) 4095 =
      .ok (4078, List.replicate 2 (2 :: 2 :: List.replicate 1086 0)) := by
    decide +kernel
  intro agrees
  obtain ⟨states, again, last⟩ := agrees 4078 _ restored (by decide)
  rw [reported] at again
  rw [← (Prod.mk.inj (Except.ok.inj again)).2] at last
  exact absurd last (by decide +kernel)

/-- A template, and a difference to it in the byte behind the versions. -/
def twoRecordsMemory : Memory :=
  eepromWith
    (recordBytes { code := .block, reference := 5, length := 0, major := 2, minor := 3 } [] ++
      recordBytes { code := .block, reference := 0, length := 3, major := 2, minor := 3 } [2, 1, 9])

def twoRecords : List Found :=
  [ { header := { code := .block, reference := 5, length := 0, major := 2, minor := 3 }
      data := []
      good := true },
    { header := { code := .block, reference := 0, length := 3, major := 2, minor := 3 }
      data := [2, 1, 9]
      good := true } ]

theorem two_records_agree :
    ∃ states, reportAddress blankTemplates twoRecordsMemory none (fun _ => 7) 4095 =
        .ok (4080, states) ∧
      states.getLast? = some (2 :: 5 :: 9 :: List.replicate 1085 0) := by
  have restored : restoreInternalAddress blankTemplates twoRecordsMemory (fun _ => 0) [] structSize
      4095 = .ok (4080, 2 :: 5 :: 9 :: List.replicate 1085 0) := by
    decide +kernel
  have records : goodRecords twoRecordsMemory mstate 4095 = twoRecords := by decide +kernel
  have reportable : Reportable blankTemplates 0 twoRecords := ⟨2, by decide, 3, by decide, trivial⟩
  have contained : ∀ record ∈ twoRecords, record.header.code = .block →
      Contained structSize record.data 0 := by
    intro record member _
    simp only [twoRecords, mem_cons, not_mem_nil, or_false] at member
    rcases member with rfl | rfl
    · simp [Contained]
    · simp [Contained, structSize]
  rw [← records] at reportable contained
  exact (report_agrees_with_restore blankTemplates twoRecordsMemory (fun _ => 0) (fun _ => 7) [] 4095
    4080 _ (by decide) restored (by decide)).2 reportable contained

end AthApps.Cal
