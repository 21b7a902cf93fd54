import Mathlib.Data.List.Induction

/-!
# Regulatory limits of the rate table

`ar9300EepromSetPowerPerRateTable` lowers the target power of every rate to the
conformance test limit (CTL) of the rate's mode and to the scaled power.  The
variable `twiceMaxEdgePower` is set once before the loop over the modes, so a
mode without an entry of its own in the EEPROM, and every mode when there is no
CTL group, is limited by the modes before it as well.
-/

set_option autoImplicit false

namespace AthApps.Cal

open List Option

/-- A band edge: `ctl_freqbin[idx][i]` and `ctlEdges[i]` of `ctlPowerData[idx]`. -/
structure BandEdge where
  freqbin : UInt8
  tPower : Fin 64
  flag : Fin 4
  deriving DecidableEq

/-- The entry with one index in the three tables of a band. -/
structure CtlEntry where
  ctlIndex : UInt8
  edges : List BandEdge
  deriving DecidableEq

structure CtlTables where
  ctls2G : List CtlEntry
  ctls5G : List CtlEntry
  /-- `OSPREY_NUM_CTLS_2G`, `OSPREY_NUM_CTLS_5G` -/
  count2G : ctls2G.length = 12
  count5G : ctls5G.length = 9
  /-- `OSPREY_NUM_BAND_EDGES_2G`, `OSPREY_NUM_BAND_EDGES_5G` -/
  edges2G : ∀ entry ∈ ctls2G, entry.edges.length = 4
  edges5G : ∀ entry ∈ ctls5G, entry.edges.length = 8

def bchanUnused : UInt8 := 0xff

def maxRatePower : Nat := 63

def fbin2freq (fbin : UInt8) (is2GHz : Bool) : Nat :=
  if fbin = bchanUnused then fbin.toNat
  else if is2GHz then 2300 + fbin.toNat
  else 4800 + 5 * fbin.toNat

/-- The loop of `ar9300EepDefGetMaxEdgePower`; `lower` is the edge before, which
the first edge does not have. -/
@[grind =] def maxEdgePowerFrom (freq : Nat) (is2GHz : Bool) : Option BandEdge → List BandEdge → Nat
  | _, [] => maxRatePower
  | lower, edge :: rest =>
    if edge.freqbin = bchanUnused then maxRatePower
    else if freq = fbin2freq edge.freqbin is2GHz then edge.tPower
    else
      match lower with
      | none => maxEdgePowerFrom freq is2GHz (some edge) rest
      | some below =>
        if freq < fbin2freq edge.freqbin is2GHz then
          if fbin2freq below.freqbin is2GHz < freq ∧ below.flag ≠ 0 then below.tPower
          else maxRatePower
        else maxEdgePowerFrom freq is2GHz (some edge) rest

/-- `ar9300EepDefGetMaxEdgePower` -/
def getMaxEdgePower (freq : Nat) (is2GHz : Bool) (entry : CtlEntry) : Nat :=
  maxEdgePowerFrom freq is2GHz none entry.edges

/-- The fields of `HAL_CHANNEL_INTERNAL` that are read here. -/
structure Channel where
  channel : UInt16
  is2GHz : Bool
  ht40Plus : Bool
  ht40Minus : Bool
  deriving DecidableEq

def Channel.isHt40 (chan : Channel) : Bool := chan.ht40Plus || chan.ht40Minus

structure ChanCenters where
  synthCenter : UInt16
  ctlCenter : UInt16
  extCenter : UInt16
  deriving DecidableEq

def ht40ChannelCenterShift : UInt16 := 10

/-- `ar9300GetChannelCenters`; `spacing20` is `HAL_HT_EXTPROTSPACING_20`. -/
def getChannelCenters (spacing20 : Bool) (chan : Channel) : ChanCenters :=
  let spacing : UInt16 := if spacing20 then ht40ChannelCenterShift else 15
  if chan.isHt40 = false then
    { synthCenter := chan.channel, ctlCenter := chan.channel, extCenter := chan.channel }
  else if chan.ht40Plus then
    let synth := chan.channel + ht40ChannelCenterShift
    { synthCenter := synth
      ctlCenter := synth - ht40ChannelCenterShift
      extCenter := synth + spacing }
  else
    let synth := chan.channel - ht40ChannelCenterShift
    { synthCenter := synth
      ctlCenter := synth + ht40ChannelCenterShift
      extCenter := synth - spacing }

/-- The CTL modes of the two tables; `Ext` is `EXT_ADDITIVE`. -/
inductive CtlMode where
  | ctl11A
  | ctl11B
  | ctl11G
  | ctl2GHT20
  | ctl5GHT20
  | ctl2GHT40
  | ctl5GHT40
  | ctl11AExt
  | ctl11BExt
  | ctl11GExt
  deriving DecidableEq

namespace CtlMode

def code : CtlMode → UInt16
  | .ctl11A | .ctl11AExt => 0
  | .ctl11B | .ctl11BExt => 1
  | .ctl11G | .ctl11GExt => 2
  | .ctl2GHT20 => 5
  | .ctl5GHT20 => 6
  | .ctl2GHT40 => 7
  | .ctl5GHT40 => 8

def freq (mode : CtlMode) (centers : ChanCenters) : UInt16 :=
  match mode with
  | .ctl2GHT40 | .ctl5GHT40 => centers.synthCenter
  | .ctl11AExt | .ctl11BExt | .ctl11GExt => centers.extCenter
  | _ => centers.ctlCenter

/-- The first and the last rate of the set that belongs to a mode, as indices
of `ALL_TARGET_POWERS`.  The `switch` has no case for the extension modes. -/
def rates : CtlMode → Option (Nat × Nat)
  | .ctl11A | .ctl11G => some (0, 3)
  | .ctl11B => some (4, 7)
  | .ctl2GHT20 | .ctl5GHT20 => some (8, 21)
  | .ctl2GHT40 | .ctl5GHT40 => some (22, 35)
  | .ctl11AExt | .ctl11BExt | .ctl11GExt => none

def covers (mode : CtlMode) (rate : Nat) : Bool :=
  match mode.rates with
  | none => false
  | some (first, last) => first ≤ rate ∧ rate ≤ last

end CtlMode

def ctlModes (chan : Channel) : List CtlMode :=
  if chan.is2GHz then
    if chan.isHt40 then [.ctl11B, .ctl11G, .ctl2GHT20, .ctl11BExt, .ctl11GExt, .ctl2GHT40]
    else [.ctl11B, .ctl11G, .ctl2GHT20]
  else
    if chan.isHt40 then [.ctl11A, .ctl5GHT20, .ctl11AExt, .ctl5GHT40]
    else [.ctl11A, .ctl5GHT20]

def int16 (value : Int) : Int := value.bmod 0x10000

/-- `HAL_TP_SCALE`, with its entry of `tpScaleReductionTable`. -/
inductive TpScale where
  | max
  | half
  | quarter
  | eighth
  | min
  deriving DecidableEq

def TpScale.reduction : TpScale → Int
  | .max => 0
  | .half => 3
  | .quarter => 6
  | .eighth => 9
  | .min => maxRatePower

def getNtxchains (mask : UInt8) : Nat :=
  ((mask >>> 2) &&& 1).toNat + ((mask >>> 1) &&& 1).toNat + (mask &&& 1).toNat

/-- What the device holds besides the CTL tables. -/
structure Radio where
  antennaGain2G : Int8
  antennaGain5G : Int8
  tpScale : TpScale
  txchainmask : UInt8
  spacing20 : Bool

/-- The arguments of a call. -/
structure PowerRequest where
  chan : Channel
  cfgCtl : UInt16
  antennaReduction : UInt16
  twiceMaxRegulatoryPower : UInt16
  powerLimit : UInt16
  chainmask : UInt8

def scaledPower (radio : Radio) (request : PowerRequest) : Nat :=
  let mask := if request.chainmask ≠ 0 then request.chainmask else radio.txchainmask
  let gain : Int :=
    if request.chan.is2GHz then radio.antennaGain2G.toInt else radio.antennaGain5G.toInt
  let twiceLargestAntenna := int16 (min (request.antennaReduction.toNat - gain) 0)
  let maxRegAllowedPower := int16 (request.twiceMaxRegulatoryPower.toNat + twiceLargestAntenna)
  let maxRegAllowedPower :=
    if radio.tpScale ≠ .max then int16 (maxRegAllowedPower - radio.tpScale.reduction * 2)
    else maxRegAllowedPower
  let scaled := int16 (min (request.powerLimit.toNat : Int) maxRegAllowedPower)
  let scaled :=
    match getNtxchains mask with
    | 2 => int16 (scaled - 6)
    | 3 => int16 (scaled - 9)
    | _ => scaled
  (max 0 scaled).toNat

def ctlModeM : UInt16 := 0x0f

def sdNoCtl : UInt16 := 0xf0

def ctlGroup (cfgCtl : UInt16) : UInt16 := cfgCtl &&& ~~~ctlModeM

def CtlMatches (cfgCtl : UInt16) (mode : CtlMode) (entry : CtlEntry) : Prop :=
  ctlGroup cfgCtl ||| mode.code = entry.ctlIndex.toUInt16 ∨
    ctlGroup cfgCtl ||| mode.code = (entry.ctlIndex.toUInt16 &&& ctlModeM) ||| sdNoCtl

instance (cfgCtl : UInt16) (mode : CtlMode) (entry : CtlEntry) :
    Decidable (CtlMatches cfgCtl mode entry) :=
  inferInstanceAs (Decidable (_ ∨ _))

/-- The loop over the entries, with what `twiceMaxEdgePower` is at its start. -/
@[grind =] def searchCtl (cfgCtl : UInt16) (mode : CtlMode) (power : CtlEntry → Nat) :
    List CtlEntry → Nat → Nat
  | [], twiceMaxEdgePower => twiceMaxEdgePower
  | entry :: rest, twiceMaxEdgePower =>
    if entry.ctlIndex = 0 then twiceMaxEdgePower
    else if CtlMatches cfgCtl mode entry then
      if ctlGroup cfgCtl = sdNoCtl then
        searchCtl cfgCtl mode power rest (min twiceMaxEdgePower (power entry))
      else power entry
    else searchCtl cfgCtl mode power rest twiceMaxEdgePower

/-- `pPwrArray`, indexed by `ALL_TARGET_POWERS`. -/
abbrev RateArray : Type := Nat → UInt8

/-- The `switch` that applies the limit to the rates of the mode. -/
def applyCtl (mode : CtlMode) (minCtlPower : UInt8) (pPwrArray : RateArray) : RateArray :=
  fun rate => if mode.covers rate then min (pPwrArray rate) minCtlPower else pPwrArray rate

/-- The locals that live across the loop. -/
structure LimitState where
  twiceMaxEdgePower : Nat
  pPwrArray : RateArray

section Call

variable (tables : CtlTables) (radio : Radio) (request : PowerRequest)

/-- `ctlIndex`, `ctl_freqbin` and `ctlPowerData` of the band. -/
def ctlEntries : List CtlEntry :=
  if request.chan.is2GHz then tables.ctls2G else tables.ctls5G

def edgePower (mode : CtlMode) (entry : CtlEntry) : Nat :=
  getMaxEdgePower (mode.freq (getChannelCenters radio.spacing20 request.chan)).toNat
    request.chan.is2GHz entry

def limitMode (state : LimitState) (mode : CtlMode) : LimitState :=
  let twiceMaxEdgePower := searchCtl request.cfgCtl mode (edgePower radio request mode)
    (ctlEntries tables request) state.twiceMaxEdgePower
  let minCtlPower := UInt8.ofNat (min twiceMaxEdgePower (scaledPower radio request))
  { twiceMaxEdgePower := twiceMaxEdgePower
    pPwrArray := applyCtl mode minCtlPower state.pPwrArray }

/-- `ar9300EepromSetPowerPerRateTable` -/
def setPowerPerRateTable (pPwrArray : RateArray) : RateArray :=
  ((ctlModes request.chan).foldl (limitMode tables radio request)
    { twiceMaxEdgePower := maxRatePower, pPwrArray := pPwrArray }).pPwrArray

def matching (mode : CtlMode) : List CtlEntry :=
  ((ctlEntries tables request).takeWhile fun entry => entry.ctlIndex ≠ 0).filter fun entry =>
    CtlMatches request.cfgCtl mode entry

/-- The limit that the entries of a mode give by themselves: the least of them
without a CTL group, else the first. -/
def edge (mode : CtlMode) : Nat :=
  let powers := (matching tables request mode).map (edgePower radio request mode)
  if ctlGroup request.cfgCtl = sdNoCtl then powers.min?.getD maxRatePower
  else powers.head?.getD maxRatePower

/-- The limits of earlier modes that are still in `twiceMaxEdgePower` when a
mode has been looked up. -/
def carried (earlier : List CtlMode) (mode : CtlMode) : List Nat :=
  if ctlGroup request.cfgCtl = sdNoCtl then earlier.map (edge tables radio request)
  else if matching tables request mode = [] then
    ((earlier.filter fun other => matching tables request other ≠ []).getLast?.map
      (edge tables radio request)).toList
  else []

theorem maxEdgePowerFrom_le (freq : Nat) (is2GHz : Bool) (edges : List BandEdge) :
    ∀ lower, maxEdgePowerFrom freq is2GHz lower edges ≤ maxRatePower := by
  induction edges with
  | nil =>
    intro lower
    exact Nat.le_refl _
  | cons edge rest ih =>
    intro lower
    have power : ∀ edge : BandEdge, (edge.tPower : Nat) ≤ maxRatePower := by
      intro edge
      exact Nat.le_of_lt_succ edge.tPower.isLt
    unfold maxEdgePowerFrom
    split
    · exact Nat.le_refl _
    · split
      · exact power edge
      · split
        · exact ih _
        · split
          · split
            · exact power _
            · exact Nat.le_refl _
          · exact ih _

theorem edgePower_le (mode : CtlMode) (entry : CtlEntry) :
    edgePower radio request mode entry ≤ maxRatePower :=
  maxEdgePowerFrom_le _ _ _ _

theorem searchCtl_noCtl (cfgCtl : UInt16) (mode : CtlMode) (power : CtlEntry → Nat)
    (noCtl : ctlGroup cfgCtl = sdNoCtl) (entries : List CtlEntry) :
    ∀ start, searchCtl cfgCtl mode power entries start =
      (((entries.takeWhile fun entry => entry.ctlIndex ≠ 0).filter fun entry =>
        CtlMatches cfgCtl mode entry).map power).foldl min start := by
  induction entries with
  | nil =>
    intro start
    rfl
  | cons entry rest ih =>
    intro start
    rw [searchCtl, takeWhile_cons]
    by_cases ended : entry.ctlIndex = 0
    · simp only [ended, ne_eq, not_true_eq_false, decide_false, if_true, Bool.false_eq_true,
        if_false, filter_nil, map_nil, foldl_nil]
    · simp only [ended, ne_eq, not_false_eq_true, decide_true, if_true, if_false]
      by_cases found : CtlMatches cfgCtl mode entry
      · rw [if_pos found, if_pos noCtl, filter_cons_of_pos (by simpa using found),
          map_cons, foldl_cons]
        exact ih _
      · rw [if_neg found, filter_cons_of_neg (by simpa using found)]
        exact ih _

theorem searchCtl_specific (cfgCtl : UInt16) (mode : CtlMode) (power : CtlEntry → Nat)
    (specific : ctlGroup cfgCtl ≠ sdNoCtl) (entries : List CtlEntry) (start : Nat) :
    searchCtl cfgCtl mode power entries start =
      (((entries.takeWhile fun entry => entry.ctlIndex ≠ 0).filter fun entry =>
        CtlMatches cfgCtl mode entry).map power).head?.getD start := by
  induction entries with
  | nil => rfl
  | cons entry rest ih =>
    rw [searchCtl, takeWhile_cons]
    by_cases ended : entry.ctlIndex = 0
    · simp only [ended, ne_eq, not_true_eq_false, decide_false, if_true, Bool.false_eq_true,
        if_false, filter_nil, map_nil, head?_nil, getD_none]
    · simp only [ended, ne_eq, not_false_eq_true, decide_true, if_true, if_false]
      by_cases found : CtlMatches cfgCtl mode entry
      · rw [if_pos found, if_neg specific, filter_cons_of_pos (by simpa using found),
          map_cons, head?_cons, getD_some]
      · rw [if_neg found, filter_cons_of_neg (by simpa using found)]
        exact ih

theorem limitMode_twice (state : LimitState) (mode : CtlMode)
    (small : state.twiceMaxEdgePower ≤ maxRatePower) :
    (limitMode tables radio request state mode).twiceMaxEdgePower =
      if ctlGroup request.cfgCtl = sdNoCtl then
        min state.twiceMaxEdgePower (edge tables radio request mode)
      else if matching tables request mode = [] then state.twiceMaxEdgePower
      else edge tables radio request mode := by
  simp only [limitMode, edge]
  by_cases noCtl : ctlGroup request.cfgCtl = sdNoCtl
  · rw [if_pos noCtl, if_pos noCtl, searchCtl_noCtl _ _ _ noCtl]
    show ((matching tables request mode).map _).foldl min _ = _
    rw [foldl_min]
    cases ((matching tables request mode).map (edgePower radio request mode)).min? with
    | none =>
      simp only [getD_none]
      omega
    | some least => rfl
  · rw [if_neg noCtl, if_neg noCtl, searchCtl_specific _ _ _ noCtl]
    show (((matching tables request mode).map _).head?).getD _ = _
    cases matching tables request mode with
    | nil => rfl
    | cons entry rest => rfl

theorem edge_le (mode : CtlMode) : edge tables radio request mode ≤ maxRatePower := by
  have all : ∀ power ∈ (matching tables request mode).map (edgePower radio request mode),
      power ≤ maxRatePower := by
    intro power mem
    obtain ⟨entry, -, rfl⟩ := mem_map.mp mem
    exact edgePower_le radio request mode entry
  simp only [edge]
  split
  · cases least : ((matching tables request mode).map (edgePower radio request mode)).min? with
    | none => exact Nat.le_refl _
    | some power => exact all power (min?_mem least)
  · cases first : ((matching tables request mode).map (edgePower radio request mode)).head? with
    | none => exact Nat.le_refl _
    | some power => exact all power (mem_of_mem_head? first)

def limitModes (modes : List CtlMode) (pPwrArray : RateArray) : LimitState :=
  modes.foldl (limitMode tables radio request)
    { twiceMaxEdgePower := maxRatePower, pPwrArray := pPwrArray }

variable (pPwrArray : RateArray)

theorem limitModes_snoc (earlier : List CtlMode) (mode : CtlMode) :
    limitModes tables radio request (earlier ++ [mode]) pPwrArray =
      limitMode tables radio request (limitModes tables radio request earlier pPwrArray) mode := by
  rw [limitModes, foldl_append]
  rfl

theorem limitModes_small (modes : List CtlMode) :
    (limitModes tables radio request modes pPwrArray).twiceMaxEdgePower ≤ maxRatePower := by
  induction modes using List.reverseRecOn with
  | nil => exact Nat.le_refl _
  | append_singleton earlier mode ih =>
    have bound := edge_le tables radio request mode
    rw [limitModes_snoc, limitMode_twice tables radio request _ mode ih]
    split
    · omega
    · split
      · exact ih
      · exact bound

theorem limitModes_noCtl (noCtl : ctlGroup request.cfgCtl = sdNoCtl) (modes : List CtlMode)
    (bound : Nat) (small : bound ≤ maxRatePower) :
    bound ≤ (limitModes tables radio request modes pPwrArray).twiceMaxEdgePower ↔
      ∀ limit ∈ modes.map (edge tables radio request), bound ≤ limit := by
  induction modes using List.reverseRecOn with
  | nil =>
    simp only [map_nil, not_mem_nil, false_implies, implies_true, iff_true]
    exact small
  | append_singleton earlier mode ih =>
    rw [limitModes_snoc, limitMode_twice tables radio request _ mode
      (limitModes_small tables radio request pPwrArray earlier), if_pos noCtl, Nat.le_min, ih,
      map_append, forall_mem_append]
    simp only [map_cons, map_nil, mem_singleton, forall_eq]

theorem limitModes_specific (specific : ctlGroup request.cfgCtl ≠ sdNoCtl) (modes : List CtlMode) :
    (limitModes tables radio request modes pPwrArray).twiceMaxEdgePower =
      ((modes.filter fun other => matching tables request other ≠ []).getLast?.map
        (edge tables radio request)).getD maxRatePower := by
  induction modes using List.reverseRecOn with
  | nil => rfl
  | append_singleton earlier mode ih =>
    rw [limitModes_snoc, limitMode_twice tables radio request _ mode
      (limitModes_small tables radio request pPwrArray earlier), if_neg specific,
      filter_append]
    by_cases unmatched : matching tables request mode = []
    · rw [if_pos unmatched, ih, filter_cons_of_neg (by simpa using unmatched),
        filter_nil, append_nil]
    · rw [if_neg unmatched, filter_cons_of_pos (by simpa using unmatched),
        filter_nil, getLast?_append]
      rfl

theorem carried_spec (earlier : List CtlMode) (mode : CtlMode) (bound : Nat)
    (below : bound ≤ edge tables radio request mode) :
    bound ≤ (limitModes tables radio request (earlier ++ [mode]) pPwrArray).twiceMaxEdgePower ↔
      ∀ limit ∈ carried tables radio request earlier mode, bound ≤ limit := by
  have small := edge_le tables radio request mode
  rw [limitModes_snoc, limitMode_twice tables radio request _ mode
    (limitModes_small tables radio request pPwrArray earlier), carried]
  by_cases noCtl : ctlGroup request.cfgCtl = sdNoCtl
  · rw [if_pos noCtl, if_pos noCtl, Nat.le_min,
      limitModes_noCtl tables radio request pPwrArray noCtl earlier bound (by omega)]
    simp only [below, and_true]
  · rw [if_neg noCtl, if_neg noCtl]
    by_cases unmatched : matching tables request mode = []
    · rw [if_pos unmatched, if_pos unmatched,
        limitModes_specific tables radio request pPwrArray noCtl]
      cases (earlier.filter fun other => matching tables request other ≠ []).getLast? with
      | none =>
        simp only [map_none, getD_none, toList_none, not_mem_nil,
          false_implies, implies_true, iff_true]
        omega
      | some last => simp only [map_some, getD_some, toList_some, mem_singleton, forall_eq]
    · rw [if_neg unmatched, if_neg unmatched]
      simp only [not_mem_nil, false_implies, implies_true, iff_true]
      exact below

theorem limitModes_le_edge (earlier : List CtlMode) (mode : CtlMode) :
    (limitModes tables radio request (earlier ++ [mode]) pPwrArray).twiceMaxEdgePower ≤
      edge tables radio request mode := by
  have small := limitModes_small tables radio request pPwrArray earlier
  rw [limitModes_snoc, limitMode_twice tables radio request _ mode small]
  by_cases noCtl : ctlGroup request.cfgCtl = sdNoCtl
  · rw [if_pos noCtl]
    exact Nat.min_le_right _ _
  · rw [if_neg noCtl]
    by_cases unmatched : matching tables request mode = []
    · rw [if_pos unmatched, edge, if_neg noCtl, unmatched]
      exact small
    · exact Nat.le_of_eq (if_neg unmatched)

theorem limitMode_other (state : LimitState) (mode : CtlMode) (rate : Nat)
    (other : mode.covers rate = false) :
    (limitMode tables radio request state mode).pPwrArray rate = state.pPwrArray rate := by
  simp only [limitMode, applyCtl, other, Bool.false_eq_true, if_false]

theorem foldl_limitMode_other (modes : List CtlMode) (rate : Nat)
    (others : ∀ mode ∈ modes, mode.covers rate = false) :
    ∀ state : LimitState, (modes.foldl (limitMode tables radio request) state).pPwrArray rate =
      state.pPwrArray rate := by
  induction modes with
  | nil =>
    intro state
    rfl
  | cons mode rest ih =>
    intro state
    rw [foldl_cons, ih (fun other mem => others other (mem_cons_of_mem _ mem)),
      limitMode_other tables radio request state mode rate (others mode mem_cons_self)]

theorem ctlModes_disjoint (chan : Channel) :
    (ctlModes chan).Pairwise fun first second =>
      ∀ rate, first.covers rate = true → second.covers rate = false := by
  unfold ctlModes
  split
  all_goals split
  all_goals
    simp only [pairwise_cons, mem_cons, not_mem_nil, or_false, forall_eq_or_imp,
      forall_eq, CtlMode.covers, CtlMode.rates, List.Pairwise.nil, decide_eq_true_eq,
      decide_eq_false_iff_not, false_implies, implies_true, and_true]
  all_goals grind

theorem setPowerPerRateTable_rate (earlier later : List CtlMode) (mode : CtlMode)
    (modesEq : ctlModes request.chan = earlier ++ mode :: later) (rate : Nat)
    (covered : mode.covers rate = true) :
    (setPowerPerRateTable tables radio request pPwrArray rate).toNat = min (pPwrArray rate).toNat
        (min (limitModes tables radio request (earlier ++ [mode]) pPwrArray).twiceMaxEdgePower
          (scaledPower radio request)) := by
  have disjoint := ctlModes_disjoint request.chan
  rw [modesEq, pairwise_append, pairwise_cons] at disjoint
  obtain ⟨-, ⟨behind, -⟩, before⟩ := disjoint
  have otherBefore : ∀ other ∈ earlier, other.covers rate = false := by
    intro other mem
    cases both : other.covers rate with
    | false => rfl
    | true =>
      have clash := before other mem mode mem_cons_self rate both
      rw [covered] at clash
      cases clash
  have otherBehind : ∀ other ∈ later, other.covers rate = false :=
    fun other mem => behind other mem rate covered
  have small := limitModes_small tables radio request pPwrArray (earlier ++ [mode])
  have fits : min (limitModes tables radio request (earlier ++ [mode])
      pPwrArray).twiceMaxEdgePower (scaledPower radio request) < 256 := by
    simp only [maxRatePower] at small
    omega
  rw [setPowerPerRateTable, modesEq, foldl_append, foldl_cons,
    foldl_limitMode_other tables radio request later rate otherBehind]
  show (applyCtl mode (UInt8.ofNat (min (limitMode tables radio request
    (limitModes tables radio request earlier pPwrArray) mode).twiceMaxEdgePower
      (scaledPower radio request))) (limitModes tables radio request earlier pPwrArray).pPwrArray
      rate).toNat = _
  have unchanged : (limitModes tables radio request earlier pPwrArray).pPwrArray rate =
      pPwrArray rate := foldl_limitMode_other tables radio request earlier rate otherBefore _
  rw [← limitModes_snoc, applyCtl, if_pos covered, unchanged, UInt8.toNat_min,
    UInt8.toNat_ofNat_of_lt' fits]

end Call

/-- Every rate of a mode gets the limit of that mode alone if and only if no
limit that is carried over from an earlier mode is below it. -/
theorem limits_per_mode (tables : CtlTables) (radio : Radio) (request : PowerRequest)
    (pPwrArray : RateArray) :
    (∀ mode ∈ ctlModes request.chan, ∀ rate, mode.covers rate = true →
      (setPowerPerRateTable tables radio request pPwrArray rate).toNat = min (pPwrArray rate).toNat
          (min (edge tables radio request mode) (scaledPower radio request))) ↔
    ∀ earlier mode later, ctlModes request.chan = earlier ++ mode :: later →
      ∀ rate, mode.covers rate = true → ∀ limit ∈ carried tables radio request earlier mode,
        min (pPwrArray rate).toNat
          (min (edge tables radio request mode) (scaledPower radio request)) ≤ limit := by
  constructor
  · intro all earlier mode later modesEq rate covered
    have same := all mode (by rw [modesEq]; simp) rate covered
    rw [setPowerPerRateTable_rate tables radio request pPwrArray earlier later mode modesEq rate
      covered] at same
    rw [← carried_spec tables radio request pPwrArray earlier mode _ (by omega)]
    omega
  · intro harmless mode mem rate covered
    obtain ⟨earlier, later, modesEq⟩ := append_of_mem mem
    have enough := harmless earlier mode later modesEq rate covered
    rw [← carried_spec tables radio request pPwrArray earlier mode _ (by omega)] at enough
    rw [setPowerPerRateTable_rate tables radio request pPwrArray earlier later mode modesEq rate
      covered]
    have below : (limitModes tables radio request (earlier ++ [mode])
        pPwrArray).twiceMaxEdgePower ≤ edge tables radio request mode :=
      limitModes_le_edge tables radio request pPwrArray earlier mode
    omega

def loneEdge (freqbin : UInt8) (tPower : Fin 64) (many : Nat) : List BandEdge :=
  { freqbin := freqbin, tPower := tPower, flag := 0 } ::
    List.replicate many { freqbin := bchanUnused, tPower := 0, flag := 0 }

/-- A table with one entry, for CCK in the group 0x10, of 10 dBm at 2412 MHz. -/
def cckTables : CtlTables where
  ctls2G := { ctlIndex := 0x11, edges := loneEdge 112 20 3 } ::
    List.replicate 11 { ctlIndex := 0, edges := loneEdge bchanUnused 0 3 }
  ctls5G := List.replicate 9 { ctlIndex := 0, edges := loneEdge bchanUnused 0 7 }
  count2G := by decide
  count5G := by decide
  edges2G := by decide
  edges5G := by decide

def plainRadio : Radio where
  antennaGain2G := 0
  antennaGain5G := 0
  tpScale := .max
  txchainmask := 1
  spacing20 := true

def channelOne : PowerRequest where
  chan := { channel := 2412, is2GHz := true, ht40Plus := false, ht40Minus := false }
  cfgCtl := 0x10
  antennaReduction := 0
  twiceMaxRegulatoryPower := 60
  powerLimit := 60
  chainmask := 0

/-- The limit of CCK is applied to OFDM, which has no entry. -/
theorem cck_limits_ofdm :
    setPowerPerRateTable cckTables plainRadio channelOne (fun _ => 40) 0 = 20 ∧
      ¬∀ mode ∈ ctlModes channelOne.chan, ∀ rate, mode.covers rate = true →
        (setPowerPerRateTable cckTables plainRadio channelOne (fun _ => 40) rate).toNat =
          min 40 (min (edge cckTables plainRadio channelOne mode)
            (scaledPower plainRadio channelOne)) := by
  have lowered : setPowerPerRateTable cckTables plainRadio channelOne (fun _ => 40) 0 = 20 := by
    decide
  have own : edge cckTables plainRadio channelOne .ctl11G = 63 := by decide
  have scaled : scaledPower plainRadio channelOne = 60 := by decide
  refine ⟨lowered, ?_⟩
  intro all
  have ofdm := all .ctl11G (by decide) 0 (by decide)
  rw [lowered, own, scaled] at ofdm
  exact absurd ofdm (by decide)

end AthApps.Cal
