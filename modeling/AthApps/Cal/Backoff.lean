import AthApps.Cal.EdgePower

/-!
# The PAPRD back-off

`ar9300EepromSetTransmitPower` lowers the target powers of the rates that PAPRD
is used for, until the PAPRD table is written.  It walks over the 24 MCS
indices of the rate mask, but several of them share an entry of the power
table, and such an entry is lowered once for each of them.
-/

set_option autoImplicit false

namespace AthApps.Cal

open List

/-- The rate masks of `modalHeader2G` or `modalHeader5G`; their upper bits hold
the scale factors. -/
structure PapdRateMasks where
  ht20 : UInt32
  ht40 : UInt32
  deriving DecidableEq

structure PapdHeaders where
  modalHeader2G : PapdRateMasks
  modalHeader5G : PapdRateMasks
  deriving DecidableEq

def upper5GSubBandStart : UInt16 := 5700
def mid5GSubBandStart : UInt16 := 5400

/-- `AH_PAPRD_GET_SCALE_FACTOR`; no channel gets to the field of the middle band. -/
def paprdScaleFactor (eep : PapdHeaders) (is2GHz : Bool) (channel : UInt16) : UInt32 :=
  if is2GHz then (eep.modalHeader2G.ht20 >>> 25) &&& 7
  else if channel ≥ upper5GSubBandStart then (eep.modalHeader5G.ht20 >>> 25) &&& 7
  else if upper5GSubBandStart < channel ∧ channel ≥ mid5GSubBandStart then
    (eep.modalHeader5G.ht40 >>> 28) &&& 7
  else (eep.modalHeader5G.ht40 >>> 25) &&& 7

def papdRateMask (eep : PapdHeaders) (chan : Channel) : UInt32 :=
  let masks := if chan.is2GHz then eep.modalHeader2G else eep.modalHeader5G
  if chan.isHt40 then masks.ht40 else masks.ht20

def mcsRate2powerTableIndexht20 : List Nat :=
  [8, 9, 9, 9, 10, 11, 12, 13, 8, 9, 9, 9, 14, 15, 16, 17, 8, 9, 9, 9, 18, 19, 20, 21]

def mcsRate2powerTableIndexht40 : List Nat :=
  [22, 23, 23, 23, 24, 25, 26, 27, 22, 23, 23, 23, 28, 29, 30, 31, 22, 23, 23, 23, 32, 33, 34, 35]

def mcsRate2powerTableIndex (isHt40 : Bool) (i : Nat) : Nat :=
  (if isHt40 then mcsRate2powerTableIndexht40 else mcsRate2powerTableIndexht20).getD i 0

/-- The subtraction is made in an `int` and stored in a byte. -/
def lower (paprdScaleFactor : Int32) (power : UInt8) : UInt8 :=
  UInt8.ofInt ((power.toNat : Int) - paprdScaleFactor.toInt)

section Loop

variable (isHt40 : Bool) (mask : UInt32) (factor : Int32)

def scaleRate (targetPowerValT2 : RateArray) (i : Nat) : RateArray :=
  if mask.toNat.testBit i then
    fun entry =>
      if mcsRate2powerTableIndex isHt40 i = entry then lower factor (targetPowerValT2 entry)
      else targetPowerValT2 entry
  else targetPowerValT2

def scaleDown (targetPowerValT2 : RateArray) : RateArray :=
  (List.range 24).foldl (scaleRate isHt40 mask factor) targetPowerValT2

end Loop

def paprdPowers (eep : PapdHeaders) (chan : Channel) (paprdEnabled paprdTableWriteDone : Bool)
    (targetPowerValT2 : RateArray) : RateArray :=
  if paprdEnabled ∧ paprdTableWriteDone = false then
    scaleDown chan.isHt40 (papdRateMask eep chan)
      (paprdScaleFactor eep chan.is2GHz chan.channel).toInt32 targetPowerValT2
  else targetPowerValT2

def maskedOn (isHt40 : Bool) (mask : UInt32) (entry i : Nat) : Bool :=
  mask.toNat.testBit i && decide (mcsRate2powerTableIndex isHt40 i = entry)

def hits (isHt40 : Bool) (mask : UInt32) (entry : Nat) : Nat :=
  (List.range 24).countP (maskedOn isHt40 mask entry)

structure BackedOff (isHt40 : Bool) (mask : UInt32) (factor : Int32) (old new : RateArray) :
    Prop where
  changed : ∀ entry, new entry ≠ old entry ↔
    ∃ i < 24, mask.toNat.testBit i = true ∧ mcsRate2powerTableIndex isHt40 i = entry
  lowered : ∀ entry, new entry ≠ old entry →
    new entry < old entry ∧ ((new entry).toNat : Int) = (old entry).toNat - factor.toInt

def FitsOnce (isHt40 : Bool) (mask : UInt32) (factor : Int32) (old : RateArray) : Prop :=
  ∀ entry, 0 < hits isHt40 mask entry → 0 < factor.toInt ∧ factor.toInt ≤ (old entry).toNat ∧
      256 ∣ ((hits isHt40 mask entry : Int) - 1) * factor.toInt

section Entries

variable {isHt40 : Bool} {mask : UInt32} {factor : Int32} {old : RateArray} {entry : Nat}

theorem ofInt_toNat (value : Int) : ((UInt8.ofInt value).toNat : Int) = value % 256 := by
  have range : 0 ≤ value % 256 ∧ value % 256 < 256 := by omega
  rw [UInt8.ofInt, UInt8.toNat_ofNat']
  omega

theorem scaleDown_from (indices : List Nat) :
    ((indices.foldl (scaleRate isHt40 mask factor) old entry).toNat : Int) =
      ((old entry).toNat - indices.countP (maskedOn isHt40 mask entry) * factor.toInt) % 256 := by
  induction indices generalizing old with
  | nil =>
    have range := (old entry).toNat_lt
    simp only [foldl_nil, countP_nil]
    omega
  | cons i rest ih =>
    rw [foldl_cons, ih, countP_cons]
    by_cases masked : maskedOn isHt40 mask entry i = true
    · obtain ⟨bit, here⟩ := Bool.and_eq_true_iff.mp masked
      rw [scaleRate, if_pos bit, if_pos (of_decide_eq_true here), lower, if_pos masked, ofInt_toNat,
        Int.emod_sub_emod]
      congr 1
      push_cast
      rw [Int.add_mul]
      omega
    · have same : scaleRate isHt40 mask factor old i entry = old entry := by
        unfold scaleRate
        split
        · rename_i bit
          apply if_neg
          intro here
          exact masked (Bool.and_eq_true_iff.mpr ⟨bit, decide_eq_true here⟩)
        · rfl
      rw [same, if_neg masked, Nat.add_zero]

theorem hits_pos : 0 < hits isHt40 mask entry ↔
    ∃ i < 24, mask.toNat.testBit i = true ∧ mcsRate2powerTableIndex isHt40 i = entry := by
  rw [hits, countP_pos_iff]
  simp only [mem_range, maskedOn, Bool.and_eq_true, decide_eq_true_eq]

theorem scaleDown_unmasked (none : hits isHt40 mask entry = 0) :
    scaleDown isHt40 mask factor old entry = old entry := by
  have value := @scaleDown_from isHt40 mask factor old entry (List.range 24)
  have range := (old entry).toNat_lt
  unfold hits at none
  rw [none] at value
  apply UInt8.toNat_inj.mp
  unfold scaleDown
  omega

theorem scaleDown_once : (scaleDown isHt40 mask factor old entry < old entry ∧
        ((scaleDown isHt40 mask factor old entry).toNat : Int) = (old entry).toNat - factor.toInt) ↔
      0 < factor.toInt ∧ factor.toInt ≤ (old entry).toNat ∧
        256 ∣ ((hits isHt40 mask entry : Int) - 1) * factor.toInt := by
  have value : ((scaleDown isHt40 mask factor old entry).toNat : Int) =
      ((old entry).toNat - hits isHt40 mask entry * factor.toInt) % 256 :=
    scaleDown_from (List.range 24)
  have range := (old entry).toNat_lt
  have rest : ((hits isHt40 mask entry : Int) - 1) * factor.toInt =
      hits isHt40 mask entry * factor.toInt - factor.toInt := by
    rw [Int.sub_mul, Int.one_mul]
  rw [UInt8.lt_iff_toNat_lt, rest]
  generalize (hits isHt40 mask entry : Int) * factor.toInt = product at value
  omega

end Entries

theorem backedOff_iff (isHt40 : Bool) (mask : UInt32) (factor : Int32) (old : RateArray) :
    BackedOff isHt40 mask factor old (scaleDown isHt40 mask factor old) ↔
      FitsOnce isHt40 mask factor old := by
  constructor
  · intro backedOff entry masked
    have changed := (backedOff.changed entry).mpr (hits_pos.mp masked)
    exact scaleDown_once.mp (backedOff.lowered entry changed)
  · intro fits
    have lowered : ∀ entry, 0 < hits isHt40 mask entry →
        scaleDown isHt40 mask factor old entry < old entry ∧
          ((scaleDown isHt40 mask factor old entry).toNat : Int) =
            (old entry).toNat - factor.toInt :=
      fun entry masked => scaleDown_once.mpr (fits entry masked)
    constructor
    · intro entry
      rw [← hits_pos]
      constructor
      · intro differ
        apply Nat.pos_of_ne_zero
        intro none
        exact differ (scaleDown_unmasked none)
      · intro masked same
        have less := (lowered entry masked).1
        rw [same] at less
        exact UInt8.lt_irrefl _ less
    · intro entry differ
      apply lowered entry
      apply Nat.pos_of_ne_zero
      intro none
      exact differ (scaleDown_unmasked none)

theorem paprdScaleFactor_lt (eep : PapdHeaders) (is2GHz : Bool) (channel : UInt16) :
    (paprdScaleFactor eep is2GHz channel).toNat < 8 := by
  have field : ∀ word : UInt32, (word &&& 7).toNat < 8 := by
    intro word
    rw [UInt32.toNat_and]
    exact Nat.lt_succ_of_le Nat.and_le_right
  unfold paprdScaleFactor
  split
  · exact field _
  · split
    · exact field _
    · split
      · exact field _
      · exact field _

theorem hits_le (isHt40 : Bool) (mask : UInt32) (entry : Nat) : hits isHt40 mask entry ≤ 24 := by
  have limit := @List.countP_le_length _ (maskedOn isHt40 mask entry) (List.range 24)
  rw [length_range] at limit
  exact limit

/-- With a factor of three bits the condition says that no two masked rates share an entry. -/
theorem fitsOnce_small (isHt40 : Bool) (mask : UInt32) (factor : Int32) (old : RateArray)
    (small : factor.toInt < 8) :
    FitsOnce isHt40 mask factor old ↔ ∀ entry, 0 < hits isHt40 mask entry →
      hits isHt40 mask entry = 1 ∧ 0 < factor.toInt ∧ factor.toInt ≤ (old entry).toNat := by
  have one : ∀ {count : Nat}, 0 < count → count ≤ 24 → 0 < factor.toInt →
      (256 ∣ ((count : Int) - 1) * factor.toInt ↔ count = 1) := by
    intro count positive limit factorPositive
    have upper : ((count : Int) - 1) * factor.toInt ≤ 23 * 7 :=
      Int.mul_le_mul (by omega) (by omega) (by omega) (by omega)
    constructor
    · intro divides
      have lower : 0 ≤ ((count : Int) - 1) * factor.toInt := Int.mul_nonneg (by omega) (by omega)
      have zero : ((count : Int) - 1) * factor.toInt = 0 := by
        generalize ((count : Int) - 1) * factor.toInt = product at divides upper lower
        omega
      rcases Int.mul_eq_zero.mp zero with single | none
      · omega
      · omega
    · intro single
      rw [single]
      simp
  constructor
  · intro fits entry masked
    obtain ⟨positive, enough, divides⟩ := fits entry masked
    exact ⟨(one masked (hits_le isHt40 mask entry) positive).mp divides, positive, enough⟩
  · intro single entry masked
    obtain ⟨count, positive, enough⟩ := single entry masked
    exact ⟨positive, enough, (one masked (hits_le isHt40 mask entry) positive).mpr count⟩

theorem paprdPowers_iff (eep : PapdHeaders) (chan : Channel) (old : RateArray) :
    let factor := (paprdScaleFactor eep chan.is2GHz chan.channel).toInt32
    BackedOff chan.isHt40 (papdRateMask eep chan) factor old (paprdPowers eep chan true false old) ↔
      ∀ entry, 0 < hits chan.isHt40 (papdRateMask eep chan) entry →
        hits chan.isHt40 (papdRateMask eep chan) entry = 1 ∧ 0 < factor.toInt ∧
          factor.toInt ≤ (old entry).toNat := by
  intro factor
  have limit := paprdScaleFactor_lt eep chan.is2GHz chan.channel
  have small : factor.toInt < 8 := by
    have whole : factor.toInt = (paprdScaleFactor eep chan.is2GHz chan.channel).toNat :=
      BitVec.toInt_eq_toNat_of_lt (by
        change 2 * (paprdScaleFactor eep chan.is2GHz chan.channel).toNat < 2 ^ 32
        omega)
    omega
  rw [← fitsOnce_small chan.isHt40 (papdRateMask eep chan) factor old small]
  exact backedOff_iff chan.isHt40 (papdRateMask eep chan) factor old

/-- An entry with a masked rate is lowered once, without wrapping, exactly under the condition; with
the factors that the EEPROM can hold, exactly when no two masked rates share an entry and the factor
is positive and fits. -/
theorem scaleDown_backedOff (old : RateArray) :
    (∀ isHt40 mask factor, BackedOff isHt40 mask factor old (scaleDown isHt40 mask factor old) ↔
      FitsOnce isHt40 mask factor old) ∧
    ∀ (eep : PapdHeaders) (chan : Channel),
      let factor := (paprdScaleFactor eep chan.is2GHz chan.channel).toInt32
      BackedOff chan.isHt40 (papdRateMask eep chan) factor old
          (paprdPowers eep chan true false old) ↔
        ∀ entry, 0 < hits chan.isHt40 (papdRateMask eep chan) entry →
          hits chan.isHt40 (papdRateMask eep chan) entry = 1 ∧ 0 < factor.toInt ∧
            factor.toInt ≤ (old entry).toNat :=
  ⟨fun isHt40 mask factor => backedOff_iff isHt40 mask factor old,
    fun eep chan => paprdPowers_iff eep chan old⟩

/-- Both bits of an entry that two MCS indices share: 10 is lowered by 5 twice. -/
theorem scaleDown_twice :
    ¬BackedOff false 6 5 (fun _ => 20) (scaleDown false 6 5 fun _ => 20) := by
  intro backedOff
  have lowered := backedOff.lowered 9 (by decide)
  revert lowered
  decide

end AthApps.Cal
