import AthApps.Cal.Report

/-!
# The indices that a restore uses

Every place where `ar9300EepromRestoreInternalAddress` and its decoder index an
array, in the order in which they do.  The length field of a record goes up to
2047 and no check keeps a record inside the buffer `word`; and the decoder
reads the two bytes of a block header and the bytes of the block without a look
at the end of the record.  All other indices are in range.
-/

set_option autoImplicit false

namespace AthApps.Cal

open AthApps.Lib List

inductive Access where
  /-- Of the buffer `word`. -/
  | word (index : Nat)
  /-- Of the `size` bytes behind the header in `word`, which the decoder is given. -/
  | block (index size : Nat)
  /-- Of the `mdataSize` bytes of the image. -/
  | image (index mdataSize : Nat)
  deriving DecidableEq

def Access.InRange : Access → Prop
  | .word index => index < moutput
  | .block index size => index < size ∧ compressionHeaderLength + index < moutput
  | .image index mdataSize => index < mdataSize

def Safe (accesses : List Access) : Prop :=
  ∀ access ∈ accesses, access.InRange

theorem safe_nil : Safe [] := by
  intro access mem
  cases mem

theorem safe_cons (access : Access) (rest : List Access) :
    Safe (access :: rest) ↔ access.InRange ∧ Safe rest :=
  forall_mem_cons

theorem safe_append (front rest : List Access) :
    Safe (front ++ rest) ↔ Safe front ∧ Safe rest :=
  forall_mem_append

def eachAccess (access : Nat → Access) (many : Nat) : List Access :=
  (List.range many).map access

theorem safe_eachAccess (access : Nat → Access) (many : Nat) :
    Safe (eachAccess access many) ↔ ∀ index < many, (access index).InRange := by
  rw [Safe, eachAccess, forall_mem_map]
  simp only [mem_range]

theorem safe_image (mdataSize start many : Nat) (fits : start + many ≤ mdataSize) :
    Safe (eachAccess (fun index => .image (start + index) mdataSize) many) := by
  rw [safe_eachAccess]
  intro index bound
  show start + index < mdataSize
  omega

theorem safe_word (start many : Nat) (fits : start + many ≤ moutput) :
    Safe (eachAccess (fun index => .word (start + index)) many) := by
  rw [safe_eachAccess]
  intro index bound
  show start + index < moutput
  omega

def uncompressAccesses (block : Nat → UInt8) (mdataSize size it spot : Nat) : List Access :=
  if it < size then
    let spot := spot + (block it).toNat
    let length := (block (it + 1)).toNat
    .block it size :: .block (it + 1) size ::
      if length > 0 ∧ spot + length ≤ mdataSize then
        eachAccess (fun index => .block (it + 2 + index) size) length ++
          eachAccess (fun index => .image (spot + index) mdataSize) length ++
          uncompressAccesses block mdataSize size (it + length + 2) (spot + length)
      else if length > 0 then []
      else uncompressAccesses block mdataSize size (it + length + 2) spot
  else []
termination_by size - it

/-- The blocks of a difference end with the record, or with one that does not
fit into the image. -/
def Tiled (mdataSize : Nat) (data : Bytes) (spot : Nat) : Prop :=
  match data with
  | [] => True
  | [_] => False
  | offset :: length :: rest =>
    if length.toNat = 0 then Tiled mdataSize rest (spot + offset.toNat)
    else if spot + offset.toNat + length.toNat > mdataSize then True
    else
      length.toNat ≤ rest.length ∧
        Tiled mdataSize (rest.drop length.toNat) (spot + offset.toNat + length.toNat)
termination_by data.length

section Decoder

variable (block : Nat → UInt8) (mdataSize size : Nat)

theorem window_cons (start extent : Nat) :
    window block start (extent + 1) = block start :: window block (start + 1) extent := by
  have split := window_append block start 1 extent
  rw [Nat.add_comm 1 extent] at split
  rw [split]
  rfl

theorem window_drop (start extent less : Nat) (bound : less ≤ extent) :
    (window block start extent).drop less = window block (start + less) (extent - less) := by
  have split := window_append block start less (extent - less)
  rw [Nat.add_sub_cancel' bound] at split
  rw [split, drop_left' (window_length _ _ _)]

variable (roomy : compressionHeaderLength + size ≤ moutput)

include roomy in
theorem block_inRange (index : Nat) : (Access.block index size).InRange ↔ index < size := by
  show (index < size ∧ compressionHeaderLength + index < moutput) ↔ index < size
  omega

include roomy in
theorem safe_blocks (start many : Nat) (some : 0 < many) :
    Safe (eachAccess (fun index => .block (start + index) size) many) ↔ start + many ≤ size := by
  rw [safe_eachAccess]
  constructor
  · intro all
    have last := (block_inRange size roomy _).mp (all (many - 1) (by omega))
    omega
  · intro enough index bound
    rw [block_inRange size roomy]
    omega

include roomy in
/-- The decoder stays in range exactly when the blocks end with the record. -/
theorem uncompressAccesses_safe (left : Nat) : ∀ it spot, size - it = left →
    (Safe (uncompressAccesses block mdataSize size it spot) ↔
      Tiled mdataSize (window block it left) spot) := by
  induction left using Nat.strongRecOn with
  | _ left ih =>
  intro it spot leftEq
  rw [uncompressAccesses]
  match left, leftEq with
  | 0, leftEq =>
    have ended : ¬it < size := by omega
    rw [if_neg ended]
    simp only [window, range_zero, map_nil, Tiled, iff_true]
    exact safe_nil
  | 1, leftEq =>
    have inside : it < size := by omega
    have last : ¬it + 1 < size := by omega
    rw [if_pos inside, window_cons, safe_cons, safe_cons, block_inRange size roomy (it + 1)]
    simp only [last, false_and, and_false, window, range_zero, map_nil, Tiled]
  | left + 2, leftEq =>
    have inside : it < size := by omega
    have second : it + 1 < size := by omega
    rw [if_pos inside, window_cons, window_cons, safe_cons, safe_cons,
      block_inRange size roomy, block_inRange size roomy, Tiled]
    simp only [inside, second, true_and]
    by_cases empty : (block (it + 1)).toNat = 0
    · have short : ¬((block (it + 1)).toNat > 0 ∧
          spot + (block it).toNat + (block (it + 1)).toNat ≤ mdataSize) := by omega
      have zero : ¬(block (it + 1)).toNat > 0 := by omega
      rw [if_neg short, if_neg zero, if_pos empty, empty, Nat.add_zero]
      exact ih left (by omega) (it + 2) _ (by omega)
    · have positive : (block (it + 1)).toNat > 0 := by omega
      rw [if_neg empty]
      by_cases beyond : spot + (block it).toNat + (block (it + 1)).toNat > mdataSize
      · have unfit : ¬((block (it + 1)).toNat > 0 ∧
            spot + (block it).toNat + (block (it + 1)).toNat ≤ mdataSize) := by omega
        rw [if_neg unfit, if_pos positive, if_pos beyond]
        simp only [safe_nil]
      · rw [if_pos ⟨positive, by omega⟩, if_neg beyond, safe_append, safe_append,
          safe_blocks size roomy _ _ positive, window_length]
        have copied := safe_image mdataSize (spot + (block it).toNat) (block (it + 1)).toNat
          (by omega)
        simp only [copied, and_true]
        by_cases enough : it + 2 + (block (it + 1)).toNat ≤ size
        · rw [window_drop _ _ _ _ (by omega)]
          have rest := ih (left - (block (it + 1)).toNat) (by omega)
            (it + (block (it + 1)).toNat + 2)
            (spot + (block it).toNat + (block (it + 1)).toNat) (by omega)
          have place : it + (block (it + 1)).toNat + 2 = it + 1 + 1 + (block (it + 1)).toNat := by
            omega
          rw [place] at rest ⊢
          rw [rest]
          have within : (block (it + 1)).toNat ≤ left := by omega
          simp only [enough, within, true_and]
        · have beyond : ¬(block (it + 1)).toNat ≤ left := by omega
          simp only [enough, beyond, false_and]

include roomy in
theorem uncompressWith_of_safe (room : Nat) (inside : size ≤ room) (it spot : Nat)
    (image : Bytes) (safe : Safe (uncompressAccesses block mdataSize size it spot)) :
    ∃ result, uncompressWith (fun finish mdataSize => finish ≤ mdataSize) block room mdataSize size
      it spot image = .ok result := by
  fun_induction uncompressWith (fun finish mdataSize => decide (finish ≤ mdataSize)) block room
      mdataSize size it spot image with
  | case1 it spot image more beyond =>
    rw [uncompressAccesses, if_pos more, safe_cons, safe_cons, block_inRange size roomy,
      block_inRange size roomy] at safe
    omega
  | case2 it spot image more near spot' length fits beyond =>
    rw [decide_eq_true_eq] at fits
    rw [uncompressAccesses, if_pos more, safe_cons, safe_cons] at safe
    rw [if_pos fits, safe_append, safe_append, safe_blocks size roomy _ _ fits.1] at safe
    omega
  | case3 it spot image more near spot' length fits enough ih =>
    rw [decide_eq_true_eq] at fits
    rw [uncompressAccesses, if_pos more, safe_cons, safe_cons] at safe
    rw [if_pos fits, safe_append, safe_append] at safe
    exact ih safe.2.2.2
  | case4 it spot image more near spot' length unfit positive => exact ⟨_, rfl⟩
  | case5 it spot image more near spot' length unfit empty ih =>
    rw [decide_eq_true_eq] at unfit
    rw [uncompressAccesses, if_pos more, safe_cons, safe_cons] at safe
    rw [if_neg unfit, if_neg empty] at safe
    exact ih safe.2.2
  | case6 it spot image ended => exact ⟨_, rfl⟩

end Decoder

def recordAccesses (templates : Templates) (mdataSize : Nat) (header : Header) (word : Buffer) :
    List Access :=
  let data := fun index => word (compressionHeaderLength + index)
  match header.code with
  | .none =>
    if header.length ≠ mdataSize then []
    else
      eachAccess (fun index => .word (compressionHeaderLength + index)) header.length ++
        eachAccess (fun index => .image (0 + index) mdataSize) header.length
  | .block =>
    if header.reference = referenceCurrent then
      uncompressAccesses data mdataSize header.length 0 0
    else
      match templates.structDefaultFindById header.reference with
      | none => []
      | some _ =>
        eachAccess (fun index => .image (0 + index) mdataSize) mdataSize ++
          uncompressAccesses data mdataSize header.length 0 0
  | _ => []

def roundAccesses (templates : Templates) (memory : Memory) (mdataSize : Nat) (scan : Scan) :
    List Access :=
  let word := memory.readArray scan.cptr scan.word compressionHeaderLength
  eachAccess (fun index => .word (0 + index)) compressionHeaderLength ++
    if headerBlank word = true then []
    else
      let header := compressionHeaderUnpack word
      let word := memory.readArray scan.cptr word (recordLength header.length)
      eachAccess (fun index => .word (0 + index)) (recordLength header.length) ++
        (eachAccess (fun index => .word (compressionHeaderLength + index)) header.length ++
        (.word (compressionHeaderLength + header.length) ::
        .word (compressionHeaderLength + header.length + 1) ::
        if compressionChecksum (window word compressionHeaderLength header.length) =
            storedChecksum word header.length then
          recordAccesses templates mdataSize header word
        else []))

def scanAccesses (templates : Templates) (memory : Memory) (mdataSize : Nat) :
    Nat → Scan → List Access
  | 0, _ => []
  | rounds + 1, scan =>
    roundAccesses templates memory mdataSize scan ++
      match restoreRound templates memory mdataSize scan with
      | .ok (.next scan) => scanAccesses templates memory mdataSize rounds scan
      | _ => []

/-- The accesses of `ar9300EepromRestoreInternalAddress`. -/
def restoreAccesses (templates : Templates) (memory : Memory) (word : Buffer) (mptr : Bytes)
    (mdataSize : Nat) (cptr : Int) : List Access :=
  scanAccesses templates memory mdataSize mstate
    { cptr := cptr, word := word, image := mptr, restored := false }

/-- A record as a scan reads it into `word`. -/
structure Met where
  header : Header
  word : Buffer

namespace Met

def data (met : Met) : Bytes := window met.word compressionHeaderLength met.header.length

def Good (met : Met) : Prop :=
  compressionChecksum met.data = storedChecksum met.word met.header.length

instance (met : Met) : Decidable met.Good := inferInstanceAs (Decidable (_ = _))

/-- A whole structure of another size ends the scan. -/
def Ends (mdataSize : Nat) (met : Met) : Prop :=
  met.Good ∧ met.header.code = .none ∧ met.header.length ≠ mdataSize

instance (mdataSize : Nat) (met : Met) : Decidable (met.Ends mdataSize) :=
  inferInstanceAs (Decidable (_ ∧ _))

def Referenced (templates : Templates) (met : Met) : Prop :=
  met.header.reference = referenceCurrent ∨
    (templates.structDefaultFindById met.header.reference).isSome = true

/-- The record has room in `word`, and if it is a difference that is applied
its blocks end with it. -/
def Fits (templates : Templates) (mdataSize : Nat) (met : Met) : Prop :=
  recordLength met.header.length ≤ moutput ∧
    (met.Good → met.header.code = .block → met.Referenced templates → Tiled mdataSize met.data 0)

end Met

def recordsMet (memory : Memory) (mdataSize : Nat) : Nat → Int → Buffer → List Met
  | 0, _, _ => []
  | rounds + 1, address, word =>
    let word := memory.readArray address word compressionHeaderLength
    if headerBlank word = true then []
    else
      let header := compressionHeaderUnpack word
      let word := memory.readArray address word (recordLength header.length)
      let met : Met := { header := header, word := word }
      met ::
        if met.Ends mdataSize then []
        else recordsMet memory mdataSize rounds (address - recordLength header.length) word

section Scan

variable (templates : Templates) (memory : Memory) (mdataSize : Nat)

def metAt (address : Int) (word : Buffer) : Met :=
  let word := memory.readArray address word compressionHeaderLength
  let header := compressionHeaderUnpack word
  { header := header, word := memory.readArray address word (recordLength header.length) }

theorem recordAccesses_safe (met : Met) (roomy : recordLength met.header.length ≤ moutput) :
    Safe (recordAccesses templates mdataSize met.header met.word) ↔
      (met.header.code = .block → met.Referenced templates → Tiled mdataSize met.data 0) := by
  have enough : compressionHeaderLength + met.header.length ≤ moutput := by
    simp only [recordLength] at roomy
    omega
  have decoder := uncompressAccesses_safe
    (fun index => met.word (compressionHeaderLength + index)) mdataSize met.header.length enough
    met.header.length 0 0 (Nat.sub_zero _)
  have dataEq : window (fun index => met.word (compressionHeaderLength + index)) 0
      met.header.length = met.data := by
    simp only [Met.data, window, Nat.zero_add]
  rw [dataEq] at decoder
  unfold recordAccesses
  cases codeEq : met.header.code with
  | none =>
    have others : ¬CompressAlgorithm.none = CompressAlgorithm.block := by decide
    simp only [others, false_implies, iff_true]
    by_cases whole : met.header.length ≠ mdataSize
    · rw [if_pos whole]
      exact safe_nil
    · rw [if_neg whole, safe_append]
      constructor
      · exact safe_word _ _ enough
      · exact safe_image _ _ _ (by omega)
  | block =>
    simp only [true_implies]
    by_cases current : met.header.reference = referenceCurrent
    · have referenced : met.Referenced templates := Or.inl current
      rw [if_pos current, decoder]
      simp only [referenced, true_implies]
    · rw [if_neg current]
      cases found : templates.structDefaultFindById met.header.reference with
      | none =>
        have unknown : ¬met.Referenced templates := by
          rintro (is | known)
          · exact current is
          · rw [found] at known
            cases known
        simp only [unknown, false_implies, iff_true]
        exact safe_nil
      | some template =>
        have referenced : met.Referenced templates := Or.inr (by rw [found]; rfl)
        simp only [referenced, true_implies]
        rw [safe_append, decoder]
        have copied := safe_image mdataSize 0 mdataSize (by omega)
        simp only [copied, true_and]
  | _ =>
    simp only [reduceCtorEq, false_implies, iff_true]
    exact safe_nil

variable (scan : Scan)

theorem roundAccesses_blank (blank : headerBlank
    (memory.readArray scan.cptr scan.word compressionHeaderLength) = true) :
    Safe (roundAccesses templates memory mdataSize scan) := by
  simp only [roundAccesses, blank, if_true, append_nil]
  exact safe_word 0 _ (by decide)

variable (filled : ¬headerBlank
  (memory.readArray scan.cptr scan.word compressionHeaderLength) = true)

def metAccesses (met : Met) : List Access :=
  eachAccess (fun index => .word (0 + index)) (recordLength met.header.length) ++
    (eachAccess (fun index => .word (compressionHeaderLength + index)) met.header.length ++
    (.word (compressionHeaderLength + met.header.length) ::
    .word (compressionHeaderLength + met.header.length + 1) ::
    if met.Good then recordAccesses templates mdataSize met.header met.word else []))

include filled in
theorem roundAccesses_filled :
    roundAccesses templates memory mdataSize scan =
      eachAccess (fun index => .word (0 + index)) compressionHeaderLength ++
        metAccesses templates mdataSize (metAt memory scan.cptr scan.word) := by
  simp only [roundAccesses, if_neg filled]
  rfl

theorem metAccesses_safe (met : Met) :
    Safe (metAccesses templates mdataSize met) ↔ met.Fits templates mdataSize := by
  rw [metAccesses, safe_append, safe_append, safe_cons, safe_cons, Met.Fits]
  by_cases roomy : recordLength met.header.length ≤ moutput
  · have inner : compressionHeaderLength + met.header.length + 2 ≤ moutput := roomy
    have record := recordAccesses_safe templates mdataSize met roomy
    constructor
    · intro all
      refine ⟨roomy, ?_⟩
      intro good
      have rest := all.2.2.2.2
      rw [if_pos good] at rest
      exact record.mp rest
    · intro fits
      refine ⟨safe_word 0 _ (by omega), safe_word _ _ (by omega), ?_, ?_, ?_⟩
      · show _ < moutput
        omega
      · show _ < moutput
        omega
      · by_cases good : met.Good
        · rw [if_pos good]
          exact record.mpr (fits.2 good)
        · rw [if_neg good]
          exact safe_nil
  · have long : 0 < recordLength met.header.length := Nat.succ_pos _
    constructor
    · intro all
      have last : 0 + (recordLength met.header.length - 1) < moutput :=
        (safe_eachAccess _ _).mp all.1 (recordLength met.header.length - 1) (by omega)
      omega
    · intro fits
      exact absurd fits.1 roomy

include filled in
theorem roundAccesses_met :
    Safe (roundAccesses templates memory mdataSize scan) ↔
      (metAt memory scan.cptr scan.word).Fits templates mdataSize := by
  rw [roundAccesses_filled templates memory mdataSize scan filled, safe_append, metAccesses_safe]
  have header := safe_word 0 compressionHeaderLength (by decide)
  simp only [header, true_and]

theorem restoreRecord_fits (met : Met) (image : Bytes) (good : met.Good)
    (fits : met.Fits templates mdataSize) :
    (met.Ends mdataSize ∧
      restoreRecord templates mdataSize met.header met.word image = .ok .mismatch) ∨
    (¬met.Ends mdataSize ∧
      (restoreRecord templates mdataSize met.header met.word image = .ok .skipped ∨
        ∃ image', restoreRecord templates mdataSize met.header met.word image =
          .ok (.image image'))) := by
  have roomy := fits.1
  have safe := (recordAccesses_safe templates mdataSize met roomy).mpr (fits.2 good)
  have enough : compressionHeaderLength + met.header.length ≤ moutput := by
    simp only [recordLength] at roomy
    omega
  unfold restoreRecord
  unfold recordAccesses at safe
  cases codeEq : met.header.code with
  | none =>
    by_cases whole : met.header.length ≠ mdataSize
    · rw [if_pos whole]
      exact Or.inl ⟨⟨good, codeEq, whole⟩, rfl⟩
    · rw [if_neg whole]
      exact Or.inr ⟨fun ends => whole ends.2.2, Or.inr ⟨_, rfl⟩⟩
  | block =>
    have going : ¬met.Ends mdataSize := by
      rintro ⟨-, noneEq, -⟩
      rw [codeEq] at noneEq
      cases noneEq
    have decodes : ∀ reference, Safe (uncompressAccesses
        (fun index => met.word (compressionHeaderLength + index)) mdataSize met.header.length
        0 0) → ∃ result, ar9300UncompressBlock reference mdataSize
          (fun index => met.word (compressionHeaderLength + index))
          (moutput - compressionHeaderLength) met.header.length = .ok result := by
      intro reference
      exact uncompressWith_of_safe _ mdataSize met.header.length enough _ (by omega) 0 0 reference
    simp only [codeEq] at safe
    refine Or.inr ⟨going, ?_⟩
    simp only [referenceImage]
    by_cases current : met.header.reference = referenceCurrent
    · rw [if_pos current] at safe ⊢
      obtain ⟨result, decoded⟩ := decodes image safe
      simp only [decoded]
      exact Or.inr ⟨_, rfl⟩
    · rw [if_neg current] at safe ⊢
      cases found : templates.structDefaultFindById met.header.reference with
      | none => exact Or.inl rfl
      | some template =>
        simp only [found, safe_append] at safe
        obtain ⟨result, decoded⟩ := decodes template safe.2
        simp only [decoded]
        exact Or.inr ⟨_, rfl⟩
  | _ =>
    refine Or.inr ⟨?_, Or.inl rfl⟩
    rintro ⟨-, noneEq, -⟩
    rw [codeEq] at noneEq
    cases noneEq

include filled in
theorem restoreRound_met (fits : (metAt memory scan.cptr scan.word).Fits templates mdataSize) :
    ((metAt memory scan.cptr scan.word).Ends mdataSize ∧
      restoreRound templates memory mdataSize scan = .ok .mismatch) ∨
    (¬(metAt memory scan.cptr scan.word).Ends mdataSize ∧
      ∃ after, restoreRound templates memory mdataSize scan = .ok (.next after) ∧
        after.cptr = scan.cptr - recordLength (metAt memory scan.cptr scan.word).header.length ∧
        after.word = (metAt memory scan.cptr scan.word).word) := by
  have roomy : ¬recordLength (compressionHeaderUnpack
      (memory.readArray scan.cptr scan.word compressionHeaderLength)).length > moutput :=
    Nat.not_lt.mpr fits.1
  by_cases good : (metAt memory scan.cptr scan.word).Good
  · have applied := restoreRecord_fits templates mdataSize _ scan.image good fits
    simp only [Met.Good, Met.data, metAt] at good
    simp only [metAt] at applied ⊢
    simp only [restoreRound, if_neg filled, if_neg roomy, if_pos good]
    rcases applied with ⟨ends, stopped⟩ | ⟨going, skipped | ⟨image, restored⟩⟩
    · rw [stopped]
      exact Or.inl ⟨ends, rfl⟩
    · rw [skipped]
      exact Or.inr ⟨going, _, rfl, rfl, rfl⟩
    · rw [restored]
      exact Or.inr ⟨going, _, rfl, rfl, rfl⟩
  · refine Or.inr ⟨fun ends => good ends.1, ?_⟩
    simp only [Met.Good, Met.data, metAt] at good
    simp only [restoreRound, if_neg filled, if_neg roomy, if_neg good]
    exact ⟨_, rfl, rfl, rfl⟩

theorem scanAccesses_safe (rounds : Nat) : ∀ scan : Scan,
    (Safe (scanAccesses templates memory mdataSize rounds scan) ↔
      ∀ met ∈ recordsMet memory mdataSize rounds scan.cptr scan.word,
        met.Fits templates mdataSize) := by
  induction rounds with
  | zero =>
    intro scan
    simp only [scanAccesses, recordsMet, not_mem_nil, false_implies, implies_true, iff_true]
    exact safe_nil
  | succ rounds ih =>
    intro scan
    rw [scanAccesses, safe_append, recordsMet]
    by_cases blank : headerBlank
        (memory.readArray scan.cptr scan.word compressionHeaderLength) = true
    · have stopped : restoreRound templates memory mdataSize scan = .ok .blank := by
        simp only [restoreRound, if_pos blank]
      simp only [if_pos blank, stopped, not_mem_nil, false_implies, implies_true, iff_true]
      exact ⟨roundAccesses_blank templates memory mdataSize scan blank, safe_nil⟩
    · rw [roundAccesses_met templates memory mdataSize scan blank, if_neg blank]
      show _ ↔ ∀ met ∈ metAt memory scan.cptr scan.word ::
        if (metAt memory scan.cptr scan.word).Ends mdataSize then []
        else recordsMet memory mdataSize rounds
          (scan.cptr - recordLength (metAt memory scan.cptr scan.word).header.length)
          (metAt memory scan.cptr scan.word).word, met.Fits templates mdataSize
      rw [forall_mem_cons]
      apply and_congr_right
      intro fits
      rcases restoreRound_met templates memory mdataSize scan blank fits with
        ⟨ends, stopped⟩ | ⟨going, after, went, cptrEq, wordEq⟩
      · rw [stopped, if_pos ends]
        simp only [not_mem_nil, false_implies, implies_true, iff_true]
        exact safe_nil
      · rw [went, if_neg going, ← cptrEq, ← wordEq]
        exact ih after

end Scan

/-- Every index that a restore uses is in range if and only if each record it
meets has room in `word` and, where it is a difference that is applied, blocks
that end with it. -/
theorem restore_in_range (templates : Templates) (memory : Memory) (word : Buffer)
    (mptr : Bytes) (mdataSize : Nat) (cptr : Int) :
    (∀ access ∈ restoreAccesses templates memory word mptr mdataSize cptr, access.InRange) ↔
      ∀ met ∈ recordsMet memory mdataSize mstate cptr word, met.Fits templates mdataSize :=
  scanAccesses_safe templates memory mdataSize mstate _

/-- Four bytes in an erased memory are a header that announces 2047 bytes. -/
theorem long_record_overruns :
    .word 2052 ∈ restoreAccesses blankTemplates (eepromWith [0, 0x7f, 0xf0, 0]) (fun _ => 0) []
        structSize 4095 ∧
      ¬∀ access ∈ restoreAccesses blankTemplates (eepromWith [0, 0x7f, 0xf0, 0]) (fun _ => 0) []
        structSize 4095, access.InRange := by
  have reached : .word 2052 ∈ restoreAccesses blankTemplates (eepromWith [0, 0x7f, 0xf0, 0])
      (fun _ => 0) [] structSize 4095 := by
    decide +kernel
  refine ⟨reached, ?_⟩
  intro all
  have bound : 2052 < moutput := all _ reached
  exact absurd bound (by decide)

end AthApps.Cal
