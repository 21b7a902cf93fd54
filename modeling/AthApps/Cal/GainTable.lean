/-!
# The gain for a training

A gain table has 32 entries with the gain in their uppermost byte.  For a training the
entry is forced whose gain reaches the desired one.  The desired gain is computed with a
sign and compared without one.
-/

set_option autoImplicit false

namespace AthApps.Cal

/-- `OS_REG_READ_FIELD_ALT` -/
def regField (word : UInt32) (shift mask : UInt32) : Int32 := ((word >>> shift) &&& mask).toInt32

/-- The words that a training reads; `tpc11` and `clTab` are there for each chain. -/
structure GainRegisters where
  tpc12 : UInt32
  tpc19 : UInt32
  tpc18 : UInt32
  thermAdc4 : UInt32
  tpc11 : Nat → UInt32
  clTab : Nat → UInt32

structure GainHal where
  txchainmask : UInt8
  poseidon : Bool
  paprdTrainingPower : UInt32
  /-- `AR_PHY_TXGAIN_TAB(1)` and the words after it. -/
  txgainTab : Vector UInt32 32
  regs : GainRegisters

namespace GainHal

variable (ah : GainHal)

def hasChain (chainNum : Nat) : Bool :=
  chainNum = 0 || (chainNum = 1 || chainNum = 2) && !ah.poseidon

def olpcGainDelta (chainNum : Nat) : Int32 :=
  let delta := if ah.hasChain chainNum then regField (ah.regs.tpc11 chainNum) 16 0xFF else 0
  if delta < 128 then delta else delta - 256

def thermalGainCorr : Int32 :=
  (regField ah.regs.tpc19 0 0xFF *
    (regField ah.regs.thermAdc4 0 0xFF - regField ah.regs.tpc18 0 0xFF) + 128) >>> 8

def voltageGainCorr : Int32 :=
  (regField ah.regs.tpc19 16 0x1F *
    (regField ah.regs.thermAdc4 8 0xFF - regField ah.regs.tpc18 8 0xFF) + 64) >>> 7

/-- `desired_gain`, before it is returned as an `unsigned int`. -/
def desiredGain (chainNum : Nat) : Int32 :=
  ah.paprdTrainingPower.toInt32 - ah.olpcGainDelta chainNum - ah.thermalGainCorr -
      ah.voltageGainCorr + regField ah.regs.tpc12 25 0x1F +
    if ah.hasChain chainNum then regField (ah.regs.clTab chainNum) 0 0x1F else 0

def getDesiredGainForChain (chainNum : Nat) : UInt32 := (ah.desiredGain chainNum).toUInt32

/-- `paprd_gain_table_index` -/
def gains : List UInt32 := ah.txgainTab.toList.map fun entry : UInt32 => (entry >>> 24) &&& 0xff

end GainHal

/-- What is written to `AR_PHY_TX_FORCED_GAIN`. -/
structure ForcedGain where
  txbb1dbgain : UInt32
  txbb6dbgain : UInt32
  txmxrgain : UInt32
  padrvgnA : UInt32
  padrvgnB : UInt32
  padrvgnC : UInt32
  padrvgnD : UInt32
  deriving DecidableEq

def ForcedGain.ofEntry (entry : UInt32) : ForcedGain where
  txbb1dbgain := entry &&& 0x7
  txbb6dbgain := (entry >>> 3) &&& 0x3
  txmxrgain := (entry >>> 5) &&& 0xf
  padrvgnA := (entry >>> 9) &&& 0xf
  padrvgnB := (entry >>> 13) &&& 0xf
  padrvgnC := (entry >>> 17) &&& 0xf
  padrvgnD := (entry >>> 21) &&& 0x3

/-- `none` if the index is outside of `paprd_gain_table_entries`. -/
def ar9300TxForceGain (ah : GainHal) (gainIndex : Nat) : Option ForcedGain :=
  ah.txgainTab.toList[gainIndex]?.map ForcedGain.ofEntry

/-- The loop over the table, which stops at the first gain that is not smaller. -/
def gainIndexLoop (desiredGain : UInt32) : List UInt32 → Nat → Nat
  | [], gainIndex => gainIndex
  | gain :: gains, gainIndex =>
    if gain < desiredGain then gainIndexLoop desiredGain gains (gainIndex + 1) else gainIndex

inductive GainSetup
  | inactive
  | outside
  | forced (gain : ForcedGain)
  deriving DecidableEq

def ar9300PaprdSetupGainTable (ah : GainHal) (chainNum : Nat) : GainSetup :=
  if ah.txchainmask.toNat.testBit chainNum = false then .inactive
  else
    match ar9300TxForceGain ah (gainIndexLoop (ah.getDesiredGainForChain chainNum) ah.gains 0) with
    | none => .outside
    | some gain => .forced gain

/-- The first gain that is at least the desired one, or the last one of the table. -/
structure Selects (gains : List UInt32) (desired : Int) (i : Nat) : Prop where
  inside : i < gains.length
  smaller : ∀ j gain, j < i → gains[j]? = some gain → (gain.toNat : Int) < desired
  reaches : ∀ gain, gains[i]? = some gain → desired ≤ gain.toNat ∨ i + 1 = gains.length

section Selecting

variable {gains : List UInt32} {wanted : UInt32} {ah : GainHal} {chainNum : Nat}

theorem gainIndexLoop_eq (wanted : UInt32) (gains : List UInt32) (first : Nat) :
    gainIndexLoop wanted gains first = first + gains.findIdx fun gain => decide (wanted ≤ gain) := by
  induction gains generalizing first with
  | nil => rfl
  | cons gain gains ih =>
    rw [gainIndexLoop, List.findIdx_cons]
    split
    next smaller =>
      rw [ih, decide_eq_false (UInt32.not_le.mpr smaller), cond_false]
      omega
    next reaches => rw [decide_eq_true (UInt32.not_lt.mp reaches), cond_true, Nat.add_zero]

theorem gain_small (ah : GainHal) {gain : UInt32} (member : gain ∈ ah.gains) : gain.toNat < 256 := by
  obtain ⟨entry, -, rfl⟩ := List.mem_map.mp member
  rw [UInt32.toNat_and]
  exact Nat.lt_of_le_of_lt Nat.and_le_right (by decide)

/-- Compared without a sign, a negative gain is above every gain of a table. -/
theorem wanted_le_iff {g : Int32} {gain : UInt32} (small : gain.toNat < 256) :
    g.toUInt32 ≤ gain ↔ 0 ≤ g.toInt ∧ g.toInt ≤ gain.toNat := by
  have signed : g.toInt = if 2 * g.toUInt32.toNat < 2 ^ 32 then (g.toUInt32.toNat : Int)
      else g.toUInt32.toNat - 2 ^ 32 := BitVec.toInt_eq_toNat_cond g.toBitVec
  have word := g.toUInt32.toNat_lt
  rw [UInt32.le_iff_toNat_le]
  split at signed <;> omega

theorem exists_wanted (ah : GainHal) (g : Int32) :
    (∃ gain ∈ ah.gains, decide (g.toUInt32 ≤ gain) = true) ↔
      0 ≤ g.toInt ∧ ∃ gain ∈ ah.gains, g.toInt ≤ gain.toNat := by
  simp only [decide_eq_true_iff]
  constructor
  · rintro ⟨gain, member, reaches⟩
    obtain ⟨positive, reaches⟩ := (wanted_le_iff (gain_small ah member)).mp reaches
    exact ⟨positive, gain, member, reaches⟩
  · rintro ⟨positive, gain, member, reaches⟩
    exact ⟨gain, member, (wanted_le_iff (gain_small ah member)).mpr ⟨positive, reaches⟩⟩

/-- The entry that is forced is the one for the desired gain exactly if this is not negative and
an entry of the table reaches it; otherwise the index is behind the table. -/
theorem setup_selects_iff (active : ah.txchainmask.toNat.testBit chainNum = true) :
    (∃ i entry, Selects ah.gains (ah.desiredGain chainNum).toInt i ∧
        ah.txgainTab.toList[i]? = some entry ∧
        ar9300PaprdSetupGainTable ah chainNum = .forced (.ofEntry entry)) ↔
      0 ≤ (ah.desiredGain chainNum).toInt ∧
        ∃ gain ∈ ah.gains, (ah.desiredGain chainNum).toInt ≤ gain.toNat := by
  have found := exists_wanted ah (ah.desiredGain chainNum)
  have lengths : ah.gains.length = ah.txgainTab.toList.length := List.length_map _
  rw [← found, ← List.findIdx_lt_length, ar9300PaprdSetupGainTable, if_neg (by simp [active]),
    ar9300TxForceGain,
    gainIndexLoop_eq, Nat.zero_add, GainHal.getDesiredGainForChain]
  constructor
  · rintro ⟨_, _, -, -, forced⟩
    refine Nat.lt_of_not_le fun behind => ?_
    rw [List.getElem?_eq_none (lengths ▸ behind)] at forced
    cases forced
  · intro inside
    have inside' := lengths ▸ inside
    have positive := (found.mp (List.findIdx_lt_length.mp inside)).1
    refine ⟨_, _, ⟨inside, ?_, ?_⟩, List.getElem?_eq_getElem inside', ?_⟩
    · intro j gain before known
      obtain ⟨small, rfl⟩ := List.getElem?_eq_some_iff.mp known
      have short := of_decide_eq_false (List.not_of_lt_findIdx before)
      rw [wanted_le_iff (gain_small ah (List.getElem_mem small))] at short
      omega
    · intro gain known
      obtain ⟨small, rfl⟩ := List.getElem?_eq_some_iff.mp known
      have reaches := of_decide_eq_true (@List.findIdx_getElem _ _ _ inside)
      exact .inl ((wanted_le_iff (gain_small ah (List.getElem_mem small))).mp reaches).2
    · rw [List.getElem?_eq_getElem inside']
      rfl

def plainGains (trainingPower : UInt32) : GainHal where
  txchainmask := 1
  poseidon := false
  paprdTrainingPower := trainingPower
  txgainTab := .ofFn fun i => UInt32.ofNat (i + 1) <<< 24
  regs := ⟨0, 0, 0, 0, fun _ => 0, fun _ => 0⟩

theorem setup_selects_iff_twenty : (plainGains 20).txchainmask.toNat.testBit 0 = true ∧
      ∃ i entry, Selects (plainGains 20).gains ((plainGains 20).desiredGain 0).toInt i ∧
        (plainGains 20).txgainTab.toList[i]? = some entry ∧
        ar9300PaprdSetupGainTable (plainGains 20) 0 = .forced (.ofEntry entry) :=
  ⟨by decide, (setup_selects_iff (by decide)).mpr ⟨by decide, 20, by decide, by decide⟩⟩

/-- A desired gain of -1 is above the whole table. -/
theorem negative_gain_outside :
    ¬ ∀ (ah : GainHal) (chainNum : Nat), ah.gains.Pairwise (· ≤ ·) →
      ah.txchainmask.toNat.testBit chainNum = true →
      ∃ i entry, Selects ah.gains (ah.desiredGain chainNum).toInt i ∧
        ah.txgainTab.toList[i]? = some entry ∧
        ar9300PaprdSetupGainTable ah chainNum = .forced (.ofEntry entry) := by
  intro always
  obtain ⟨i, entry, -, -, forced⟩ := always (plainGains (-1)) 0 (by decide) (by decide)
  have outside : ar9300PaprdSetupGainTable (plainGains (-1)) 0 = .outside := by decide
  cases outside.symm.trans forced

end Selecting

end AthApps.Cal
