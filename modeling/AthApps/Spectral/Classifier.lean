import AthApps.Lib.Trace
import Mathlib.Algebra.Group.Int.Defs
import Mathlib.Algebra.Group.Nat.Defs

/-!
# The classifier of interferers

`classifier.c` collects the narrow captures of a band into bursts, looks at
each burst with the three before it, and counts an interferer when enough
bursts of its kind stopped within the observation window.  Every `int` is an
`Int32`: differences of times wrap.  The video bridge (its test is compiled
out), the wide captures and the signal strengths decide nothing here and are
left out.

The band also keeps what happened to it: which burst was taken as a frame of
which interferer, when the frames were forgotten, and what was counted.
-/

set_option autoImplicit false

namespace AthApps.Spectral

open AthApps.Lib

def observationWindow : Int32 := 1000000

def minPreviousNb : Int32 := 1

def maximumSamplingInterval : Int32 := 500

def minimumRssi : Int32 := 5

def singleFrequencyMaxBinspan : Int32 := 3

def cwaWidthThreshold : Int32 := 10000

def mwoWidthThreshold : Int32 := 2500

def mwoMinimumBurstDiff : Int32 := 10000

def mwoMaxLength : Int32 := 8000

def mwoMaxBinspan : Int32 := 8

def lburstMinBurstwidth : Int32 := 110

def sburstMinBurstwidth : Int32 := 110

def sburstMaxBurstwidth : Int32 := 600

def cphMaxWidth : Int32 := 1100

def cphBurstWidthDelta : Int32 := 1000

def bthMaxBurstDiff : Int32 := 1000

def bthMinPrevburstDiff : Int32 := 3500

/-- `SAMPLING_FREQUENCY / 128`. -/
def binWidth : Int32 := 312500

def subcarrierSpacingNoDecimal : Int32 := 3125

/-- Twice and three times the spacing of 312.5 kHz, cast to `int`. -/
def doubleFrequencyHoppingMinFreqChange : Int32 := 625

def tripleFrequencyHoppingMinFreqChange : Int32 := 937

/-- `INT_MIN / 2`, which a reset leaves in place of a time. -/
def noTime : Int32 := Int32.minValue / 2

def spectralAbsDiff (a b : Int32) : Int32 :=
  (if a > b then a else b) - (if a < b then a else b)

inductive Interferer where
  | cph
  | bth
  | bts
  | mwo
  | cwa
  deriving DecidableEq

def Interferer.minNumberOfFrames : Interferer → Nat
  | .cph => 5
  | .bth => 8
  | .bts => 2
  | .mwo => 5
  | .cwa => 10

/-- A burst that was checked: its number in the band and its stop. -/
structure Frame where
  burst : Nat
  stop : Int32
  deriving DecidableEq

inductive Mark where
  | found (kind : Interferer) (frame : Frame)
  | reset (kind : Interferer)
  | counted (kind : Interferer) (frame : Frame) (freqKhz : Int32)
  deriving DecidableEq

structure Detector where
  timestamps : List Int32
  count : Int32
  minFreq : Int32
  maxFreq : Int32

structure LongBurst where
  frequency : Int32
  start : Int32
  width : Int32
  maxMin : Int32

structure ShortBurst where
  frequency : Int32
  start : Int32

/-- `struct ss`.  `bursts` and `past` are no fields of the source. -/
structure Ss where
  dynamicHt2040En : Int32
  dcIndex : Int32
  bChanInMhz : Int32
  lwrBandData : Int32
  previousNb : Int32
  maxBin : Int32
  minBin : Int32
  currentBurstWidth : Int32
  currentBurstStartTime : Int32
  currentBurstStop : Int32
  numIdentifiedBursts : Int32
  numIdentifiedShortBursts : Int32
  burst : LongBurst
  burstprev1 : LongBurst
  burstprev2 : LongBurst
  burstprev3 : LongBurst
  sburst : ShortBurst
  sburstprev1 : ShortBurst
  sburstprev2 : ShortBurst
  burst0InFreqRange : Bool
  mwoLongBurstTimestamp : Int32
  mwoLongBurstFrequencyBins : Int32
  mwoLongBurstFrequencyBins1 : Int32
  detectors : Interferer → Detector
  bursts : Nat
  past : List Mark

namespace Ss

def currentFrame (bd : Ss) : Frame := ⟨bd.bursts, bd.currentBurstStop⟩

def setDetector (kind : Interferer) (detector : Detector) (bd : Ss) : Ss :=
  { bd with detectors := Function.update bd.detectors kind detector }

def mark (event : Mark) (bd : Ss) : Ss := { bd with past := bd.past ++ [event] }

def reset (kind : Interferer) (bd : Ss) : Ss :=
  (bd.setDetector kind ⟨List.replicate kind.minNumberOfFrames noTime, (bd.detectors kind).count,
      Int32.maxValue, Int32.minValue⟩).mark (.reset kind)

def resetCph : Ss → Ss := reset .cph

def resetBth : Ss → Ss := reset .bth

def resetBts : Ss → Ss := reset .bts

def resetMwo : Ss → Ss := reset .mwo

def resetCwa : Ss → Ss := reset .cwa

/-- `mwo_long_burst_timestamp1` is reset too, but decides nothing. -/
def resetMwoLong (bd : Ss) : Ss := { bd with mwoLongBurstTimestamp := noTime }

def resetNbCounters (bd : Ss) : Ss :=
  { bd with
    previousNb := 0
    maxBin := Int32.minValue
    minBin := Int32.maxValue
    currentBurstWidth := 0 }

def detectedFrequencyKhz (bd : Ss) : Int32 :=
  if bd.dynamicHt2040En ≠ 0 ∧ bd.lwrBandData = 0 then
    bd.bChanInMhz * 1000 + (bd.maxBin + bd.minBin) / 2 * binWidth / 1000
  else
    bd.bChanInMhz * 1000 + ((bd.maxBin + bd.minBin) / 2 - bd.dcIndex) * binWidth / 1000

def thisBurstIsNarrowband (bd : Ss) : Bool := bd.maxBin - bd.minBin < singleFrequencyMaxBinspan

def thisBurstIsMwoNarrowband (bd : Ss) : Bool := bd.maxBin - bd.minBin < mwoMaxBinspan

end Ss

/-- The `found_` flags. -/
structure Findings where
  cph : Bool
  bth : Bool
  bts : Bool
  mwo : Bool
  cwa : Bool
  mwoLongBurst : Bool
  cwaLongBurst : Bool

namespace Findings

def none : Findings := ⟨false, false, false, false, false, false, false⟩

def of (found : Findings) : Interferer → Bool
  | .cph => found.cph
  | .bth => found.bth
  | .bts => found.bts
  | .mwo => found.mwo
  | .cwa => found.cwa

end Findings

namespace Ss

def examineMwoLongBurst (timestamp : Int32) (bd : Ss) : Ss × Findings :=
  let mwoFrequencyBins := (bd.maxBin + bd.minBin) / 2
  let mwoFreqChanges01 : Bool := spectralAbsDiff bd.mwoLongBurstFrequencyBins mwoFrequencyBins > 2
  let mwoFreqChanges12 : Bool :=
    spectralAbsDiff bd.mwoLongBurstFrequencyBins1 bd.mwoLongBurstFrequencyBins > 2
  let mwoBursts01InRange : Bool :=
    timestamp - bd.mwoLongBurstTimestamp > mwoMinimumBurstDiff &&
      timestamp - bd.mwoLongBurstTimestamp < 4 * mwoMinimumBurstDiff
  ({ bd with
      mwoLongBurstTimestamp := timestamp
      mwoLongBurstFrequencyBins1 := bd.mwoLongBurstFrequencyBins
      mwoLongBurstFrequencyBins := mwoFrequencyBins },
    { Findings.none with
      mwoLongBurst := mwoBursts01InRange && !mwoFreqChanges01 && !mwoFreqChanges12 &&
        !bd.burst0InFreqRange })

variable (kind : Interferer) (freqKhz : Int32) (bd : Ss)

def shiftBursts : Ss :=
  { bd with
    numIdentifiedBursts := bd.numIdentifiedBursts + 1
    -- the source leaves out the width of the third burst, which is never read
    burstprev3 := bd.burstprev2
    burstprev2 := bd.burstprev1
    burstprev1 := bd.burst
    burst :=
      ⟨(bd.maxBin + bd.minBin) * subcarrierSpacingNoDecimal / 20, bd.currentBurstStartTime,
        bd.currentBurstWidth, bd.maxBin - bd.minBin⟩ }

def burstFindings : Findings :=
  let changes (a b : LongBurst) : Bool :=
    spectralAbsDiff a.frequency b.frequency > tripleFrequencyHoppingMinFreqChange
  let testFreq01Changes := changes bd.burst bd.burstprev1
  let testFreq12Changes := changes bd.burstprev1 bd.burstprev2
  let testFreq02Changes := changes bd.burst bd.burstprev2
  let testFreq03Changes := changes bd.burst bd.burstprev3
  let testFreq13Changes := changes bd.burstprev1 bd.burstprev3
  let conseqBurstDiff01 := bd.burst.start - bd.burstprev1.start
  let conseqBurstDiff12 := bd.burstprev1.start - bd.burstprev2.start
  let testCphWidth : Bool := bd.burst.width < cphMaxWidth && bd.burstprev1.width < cphMaxWidth
  let testCphClosewidthBursts : Bool :=
    spectralAbsDiff bd.burstprev1.width bd.burst.width < cphBurstWidthDelta
  let oneHandset : Bool := conseqBurstDiff01 < 6000 && conseqBurstDiff01 > 4000
  let twoHandset : Bool := conseqBurstDiff01 < 3000 && conseqBurstDiff01 > 2000
  { Findings.none with
    bts := conseqBurstDiff01 < bthMaxBurstDiff && bd.burst.width > 600 &&
      !testFreq01Changes && testFreq02Changes && testFreq13Changes
    cph := testCphWidth && (oneHandset || twoHandset) && !testFreq01Changes &&
      testFreq03Changes && testFreq12Changes && testCphClosewidthBursts
    mwo := !testFreq01Changes && !testFreq02Changes && !testFreq03Changes &&
      bd.burst.width > 500 && bd.maxBin > bd.minBin && conseqBurstDiff01 > 8000 &&
      conseqBurstDiff12 > 8000 && !bd.burst0InFreqRange
    cwa := bd.burst.maxMin == 0 && bd.burstprev1.maxMin == 0 && bd.burstprev2.maxMin == 0 &&
      bd.burstprev3.maxMin == 0 && bd.burst.frequency == bd.burstprev1.frequency &&
      bd.burst.frequency == bd.burstprev2.frequency &&
      bd.burst.frequency == bd.burstprev3.frequency && bd.burst.width > 800 &&
      conseqBurstDiff01 < 10000 }

def examineLongBurst (timestamp : Int32) (bd : Ss) : Ss × Findings :=
  if bd.thisBurstIsNarrowband ∧ bd.currentBurstWidth > cwaWidthThreshold then
    (bd, { Findings.none with cwaLongBurst := true })
  else if bd.thisBurstIsMwoNarrowband ∧ bd.currentBurstWidth > mwoWidthThreshold ∧
      bd.maxBin > bd.minBin + 2 ∧ bd.currentBurstWidth < mwoMaxLength then
    examineMwoLongBurst timestamp bd
  else if bd.currentBurstWidth > lburstMinBurstwidth ∧ bd.thisBurstIsNarrowband then
    let bd := shiftBursts bd
    (bd, if bd.numIdentifiedBursts > 3 then burstFindings bd else Findings.none)
  else (bd, Findings.none)

def shiftShortBursts : Ss :=
  { bd with
    numIdentifiedShortBursts := bd.numIdentifiedShortBursts + 1
    sburstprev2 := bd.sburstprev1
    sburstprev1 := bd.sburst
    sburst :=
      ⟨(bd.maxBin + bd.minBin) * subcarrierSpacingNoDecimal / 20, bd.currentBurstStartTime⟩ }

def foundBth : Bool :=
  let changes (a b : ShortBurst) : Bool :=
    spectralAbsDiff a.frequency b.frequency > doubleFrequencyHoppingMinFreqChange
  let testBthTimeDiffOk : Bool := bd.sburst.start - bd.sburstprev1.start < bthMaxBurstDiff
  let testBthDiff12Large : Bool := bd.sburstprev1.start - bd.sburstprev2.start > bthMinPrevburstDiff
  testBthTimeDiffOk && testBthDiff12Large && !changes bd.sburst bd.sburstprev1 &&
    changes bd.sburst bd.sburstprev2 && changes bd.sburstprev1 bd.sburstprev2

def examineShortBurst : Ss × Bool :=
  if bd.currentBurstWidth < sburstMaxBurstwidth ∧ bd.currentBurstWidth > sburstMinBurstwidth ∧
      bd.thisBurstIsNarrowband then
    let bd := shiftShortBursts bd
    (bd, bd.numIdentifiedShortBursts > 2 && foundBth bd)
  else (bd, false)

/-- The first part of `nb_classifier`: which interferers the burst looks like. -/
def examine (timestamp : Int32) (bd : Ss) : Ss × Findings :=
  let (bd, found) := examineLongBurst timestamp bd
  let (bd, bth) := examineShortBurst bd
  (bd, { found with bth := bth })

def recordFrame : Ss :=
  let detector := bd.detectors kind
  (bd.setDetector kind
    { detector with timestamps := detector.timestamps.tail ++ [bd.currentBurstStop] }).mark
    (.found kind bd.currentFrame)

def record (found : Findings) (bd : Ss) : Ss :=
  [Interferer.bth, .bts, .cph, .mwo, .cwa].foldl
    (fun bd kind => if found.of kind then recordFrame kind bd else bd) bd

/-- The oldest of the recorded times is inside the observation window. -/
def recent : Bool :=
  bd.currentBurstStop - (bd.detectors kind).timestamps.headD 0 < observationWindow

def count (kind : Interferer) (freqKhz : Int32) (bd : Ss) : Ss :=
  let detector := bd.detectors kind
  (bd.setDetector kind
    { detector with
      count := detector.count + 1
      minFreq := if freqKhz < detector.minFreq then freqKhz else detector.minFreq
      maxFreq := if freqKhz > detector.maxFreq then freqKhz else detector.maxFreq }).mark
    (.counted kind bd.currentFrame freqKhz)

def detect (longBurst : Bool) (resets : List (Ss → Ss)) (freqKhz : Int32)
    (found : Findings) (bd : Ss) : Ss :=
  if (bd.recent kind && found.of kind) || longBurst then
    resets.foldl (fun bd reset => reset bd) (bd.count kind freqKhz)
  else bd

def detectCph (found : Findings) : Ss → Ss :=
  detect .cph false [resetBts, resetBth, resetMwo, resetMwoLong, resetCwa] freqKhz found

def detectBth (found : Findings) : Ss → Ss :=
  detect .bth false [resetBts, resetCwa, resetMwo, resetMwoLong, resetCph] freqKhz found

def detectBts (found : Findings) : Ss → Ss :=
  detect .bts false [resetBth, resetMwo, resetCph, resetMwoLong, resetCwa] freqKhz found

def detectMwo (found : Findings) : Ss → Ss :=
  detect .mwo found.mwoLongBurst [resetBts, resetBth, resetCph, resetCwa] freqKhz found

-- the cordless phone is not reset here, the oven twice
def detectCwa (found : Findings) : Ss → Ss :=
  detect .cwa found.cwaLongBurst [resetMwo, resetMwoLong, resetBts, resetBth, resetMwo] freqKhz
    found

def nbClassifier (timestamp : Int32) (bd : Ss) : Ss :=
  let freqKhz := bd.detectedFrequencyKhz
  let (bd, found) := examine timestamp bd
  let bd := record found { bd with bursts := bd.bursts + 1 }
  detectCwa freqKhz found (detectMwo freqKhz found (detectBts freqKhz found
    (detectBth freqKhz found (detectCph freqKhz found bd))))

end Ss

/-- The arguments of `classifier`. -/
structure Capture where
  timestamp : Int32
  lastCaptureTime : Int32
  rssi : Int32
  narrowband : Int32
  peakIndex : Int32

namespace Ss

variable (capture : Capture) (bd : Ss)

def extendBurst : Ss :=
  let previousNb := bd.previousNb + 1
  { bd with
    previousNb := previousNb
    currentBurstStop := capture.timestamp
    currentBurstStartTime :=
      if previousNb = 1 then capture.timestamp else bd.currentBurstStartTime
    currentBurstWidth :=
      if previousNb = 1 then bd.currentBurstWidth
      else capture.timestamp - bd.currentBurstStartTime
    maxBin := if capture.peakIndex > bd.maxBin then capture.peakIndex else bd.maxBin
    minBin := if capture.peakIndex < bd.minBin then capture.peakIndex else bd.minBin }

/-- The second component is `do_burst_check`, which is 0 between two calls. -/
def endBurst : Ss × Bool :=
  if bd.previousNb > minPreviousNb then (bd, true) else (resetNbCounters bd, false)

def sample : Ss × Bool :=
  let delay := capture.timestamp - capture.lastCaptureTime
  if delay > 0 ∧ delay < maximumSamplingInterval then
    if capture.narrowband = 1 ∧ capture.rssi > minimumRssi then (extendBurst capture bd, false)
    else endBurst bd
  else if delay > 0 then endBurst bd
  else (bd, false)

/-- Bursts at the edge of the spectrum and, with 20 MHz, around its centre are dropped. -/
def dropFalseAlarm : Ss × Bool :=
  let burstNotAtEdgeHt20 : Bool := bd.maxBin > 5 && bd.minBin < 52 && bd.dynamicHt2040En == 0
  let burstNotAtEdgeHt40 : Bool := bd.maxBin > 5 && bd.dynamicHt2040En == 1
  let (bd, check) :=
    if burstNotAtEdgeHt20 || burstNotAtEdgeHt40 then (bd, true) else (resetNbCounters bd, false)
  if bd.dynamicHt2040En = 0 ∧ bd.maxBin < bd.dcIndex + 2 ∧ bd.minBin > bd.dcIndex - 2 then
    (resetNbCounters bd, false)
  else (bd, check)

/-- Everything in `classifier` up to the final burst check. -/
def collect : Ss × Bool :=
  let (bd, doBurstCheck) := sample capture bd
  if doBurstCheck ∨ bd.currentBurstWidth > cwaWidthThreshold then dropFalseAlarm bd
  else (bd, false)

end Ss

def classifier (bd : Ss) (capture : Capture) : Ss :=
  let (bd, doBurstCheck) := bd.collect capture
  if doBurstCheck then Ss.resetNbCounters (bd.nbClassifier capture.timestamp) else bd

structure ClassifierParams where
  spectral2040Mode : Int32
  spectralDcIndex : Int32
  upperChanInMhz : Int32
  lowerChanInMhz : Int32

/-- A band that `memset` cleared, after `ms_classifier_initialize`. -/
def msClassifierInitialize (dynamicHt2040En dcIndex bChanInMhz lwrBandData : Int32) : Ss where
  dynamicHt2040En := dynamicHt2040En
  dcIndex := dcIndex
  bChanInMhz := bChanInMhz
  lwrBandData := lwrBandData
  previousNb := 0
  maxBin := Int32.minValue
  minBin := Int32.maxValue
  currentBurstWidth := 0
  currentBurstStartTime := 0
  currentBurstStop := 0
  numIdentifiedBursts := 0
  numIdentifiedShortBursts := 0
  burst := ⟨0, 0, 0, 0⟩
  burstprev1 := ⟨0, 0, 0, 0⟩
  burstprev2 := ⟨0, 0, 0, 0⟩
  burstprev3 := ⟨0, 0, 0, 0⟩
  sburst := ⟨0, 0⟩
  sburstprev1 := ⟨0, 0⟩
  sburstprev2 := ⟨0, 0⟩
  burst0InFreqRange := false
  mwoLongBurstTimestamp := 0
  mwoLongBurstFrequencyBins := 0
  mwoLongBurstFrequencyBins1 := 0
  detectors kind :=
    ⟨List.replicate kind.minNumberOfFrames noTime, 0, Int32.maxValue, Int32.minValue⟩
  bursts := 0
  past := []

def msInitClassifier (cp : ClassifierParams) : Ss × Ss :=
  (msClassifierInitialize cp.spectral2040Mode cp.spectralDcIndex cp.lowerChanInMhz 1,
    if cp.spectral2040Mode ≠ 0 then
      msClassifierInitialize cp.spectral2040Mode cp.spectralDcIndex cp.upperChanInMhz 0
    else msClassifierInitialize 0 0 0 0)

end AthApps.Spectral
