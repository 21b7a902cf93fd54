import AthApps.Spectral.Frames

/-!
# The published interference report

Every report of the kernel goes through the classifier of its band or bands,
and `print_detection` then writes what they have counted into one table, a
slot for each type that the display knows.  The table is cleared with every
second report.  The block of one interferer resets the ranges of others whose
counts stay, and the upper band writes over the lower band's slot.

When the dynamic channel selection is on, a report may end the process; the
state that it leaves is that of the step.
-/

set_option autoImplicit false

namespace AthApps.Spectral

open AthApps.Lib List

inductive InterfType where
  | none
  | mw
  | bt
  | dect
  | tone
  | other
  deriving DecidableEq

structure InterfRsp where
  interfType : InterfType
  interfMinFreq : UInt16
  interfMaxFreq : UInt16
  deriving DecidableEq

def maxInterfCount : Nat := 10

def InterfType.slot : InterfType → Fin maxInterfCount
  | .none => ⟨0, by decide⟩
  | .mw => ⟨1, by decide⟩
  | .bt => ⟨2, by decide⟩
  | .dect => ⟨3, by decide⟩
  | .tone => ⟨4, by decide⟩
  | .other => ⟨5, by decide⟩

abbrev InterfTable := Fin maxInterfCount → InterfRsp

/-- What `update_global_interf` looks at, in its order, and the type it is published as.
The headset is not. -/
def publishedAs : List (Interferer × InterfType) :=
  [(.mwo, .mw), (.bts, .bt), (.cph, .dect), (.cwa, .tone)]

def toMhz (freqKhz : Int32) : UInt16 := (freqKhz / 1000).toUInt32.toUInt16

def publish (bd : Ss) (table : InterfTable) (entry : Interferer × InterfType) : InterfTable :=
  let detector := bd.detectors entry.1
  if detector.count ≠ 0 then
    Function.update table entry.2.slot ⟨entry.2, toMhz detector.minFreq, toMhz detector.maxFreq⟩
  else table

def updateGlobalInterf (bd : Ss) (table : InterfTable) : InterfTable :=
  publishedAs.foldl (publish bd) table

/-- The bands, the table and the counters that are `static` in the source. -/
structure InterfServer where
  lwrband : Ss
  uprband : Ss
  onceOnly : Int32
  currFreq : Int32
  globalInterfRsp : InterfTable
  numResets : Int32

namespace InterfServer

def clearGlobalInterfRsp (server : InterfServer) : InterfServer :=
  { server with
    globalInterfRsp :=
      if server.numResets % 2 = 0 then fun _ => ⟨.none, 0, 0⟩ else server.globalInterfRsp
    numResets := server.numResets + 1 }

def printDetection (server : InterfServer) : InterfServer :=
  let cleared := server.clearGlobalInterfRsp
  { cleared with
    globalInterfRsp :=
      updateGlobalInterf server.uprband (updateGlobalInterf server.lwrband cleared.globalInterfRsp) }

end InterfServer

/-- The fields of a report that are read here. -/
structure SpectralSampMsg where
  freq : UInt16
  cwInterferer : UInt8
  spectralDataLen : Int16
  spectralTstamp : Int32
  spectralLastTstamp : Int32
  spectralLowerRssi : Int8
  spectralUpperRssi : Int8
  spectralLowerMaxIndex : Int16
  spectralUpperMaxIndex : Int16
  spectralNbLower : UInt8
  spectralNbUpper : UInt8
  classifierParams : ClassifierParams

namespace SpectralSampMsg

def isHt2040 (msg : SpectralSampMsg) : Bool := msg.spectralDataLen > 100

def lowerCapture (msg : SpectralSampMsg) : Capture :=
  ⟨msg.spectralTstamp, msg.spectralLastTstamp, msg.spectralLowerRssi.toInt32,
    msg.spectralNbLower.toUInt32.toInt32, msg.spectralLowerMaxIndex.toInt32⟩

def upperCapture (msg : SpectralSampMsg) : Capture :=
  ⟨msg.spectralTstamp, msg.spectralLastTstamp, msg.spectralUpperRssi.toInt32,
    msg.spectralNbUpper.toUInt32.toInt32, msg.spectralUpperMaxIndex.toInt32⟩

end SpectralSampMsg

namespace InterfServer

def initBands (msg : SpectralSampMsg) (server : InterfServer) : InterfServer :=
  if server.onceOnly = 0 ∨ msg.freq.toUInt32.toInt32 ≠ server.currFreq then
    { server with
      lwrband := (msInitClassifier msg.classifierParams).1
      uprband := (msInitClassifier msg.classifierParams).2
      onceOnly := server.onceOnly + 1
      currFreq := msg.freq.toUInt32.toInt32 }
  else server

def classifyBands (msg : SpectralSampMsg) (server : InterfServer) : InterfServer :=
  { server with
    lwrband := classifier server.lwrband msg.lowerCapture
    uprband :=
      if msg.isHt2040 then classifier server.uprband msg.upperCapture else server.uprband }

end InterfServer

/-- `doEacs` is `global_do_eacs`, which is set when the server starts. -/
def serverProcessKernelSpectralMsg (doEacs : Bool) (server : InterfServer)
    (msg : SpectralSampMsg) : InterfServer :=
  if doEacs ∧ msg.cwInterferer = 1 then server
  else ((server.initBands msg).classifyBands msg).printDetection

def zeroBand : Ss :=
  { msClassifierInitialize 0 0 0 0 with
    maxBin := 0
    minBin := 0
    detectors := fun kind => ⟨List.replicate kind.minNumberOfFrames 0, 0, 0, 0⟩ }

def InterfServer.start : InterfServer :=
  ⟨zeroBand, zeroBand, 0, 2412, fun _ => ⟨.none, 0, 0⟩, 0⟩

def latest (kind : Interferer) (past : List Mark) : Option Int32 :=
  past.foldl (fun freq event =>
    match event with
    | .counted other _ freqKhz => if other = kind then some freqKhz else freq
    | _ => freq) none

def Shows (entry : InterfRsp) (kind : Interferer) (bd : Ss) : Prop :=
  ∀ freqKhz ∈ latest kind bd.past, (entry.interfMinFreq.toNat : Int) ≤ (freqKhz / 1000).toInt ∧
      (freqKhz / 1000).toInt ≤ entry.interfMaxFreq.toNat

structure RealRanges (server : InterfServer) : Prop where
  ordered : ∀ slot, (server.globalInterfRsp slot).interfType ≠ .none →
    (server.globalInterfRsp slot).interfMinFreq ≤ (server.globalInterfRsp slot).interfMaxFreq
  shown : ∀ kind interfType, (kind, interfType) ∈ publishedAs →
    ∀ bd, bd = server.lwrband ∨ bd = server.uprband → (bd.detectors kind).count ≠ 0 →
      (server.globalInterfRsp interfType.slot).interfType = interfType ∧
        Shows (server.globalInterfRsp interfType.slot) kind bd

/-- The range that is left of the detections, as lowest and highest frequency. -/
def rangeSince (kind : Interferer) (past : List Mark) : Int32 × Int32 :=
  past.foldl (fun range event =>
    match event with
    | .found _ _ => range
    | .reset other => if other = kind then (Int32.maxValue, Int32.minValue) else range
    | .counted other _ freqKhz =>
      if other = kind then
        (if freqKhz < range.1 then freqKhz else range.1,
          if freqKhz > range.2 then freqKhz else range.2)
      else range) (Int32.maxValue, Int32.minValue)

structure Ranged (bd : Ss) : Prop where
  minFreq : ∀ kind, (bd.detectors kind).minFreq = (rangeSince kind bd.past).1
  maxFreq : ∀ kind, (bd.detectors kind).maxFreq = (rangeSince kind bd.past).2

namespace Ranged

theorem reset {bd : Ss} (ranged : Ranged bd) (kind : Interferer) : Ranged (bd.reset kind) := by
  constructor
  all_goals
    intro other
    by_cases same : other = kind
    · subst same
      simp [Ss.reset, Ss.mark, Ss.setDetector, rangeSince]
  · simpa [Ss.reset, Ss.mark, Ss.setDetector, rangeSince, same, Ne.symm same] using
      ranged.minFreq other
  · simpa [Ss.reset, Ss.mark, Ss.setDetector, rangeSince, same, Ne.symm same] using
      ranged.maxFreq other

theorem recordFrame {bd : Ss} (ranged : Ranged bd) (kind : Interferer) :
    Ranged (bd.recordFrame kind) := by
  constructor
  · intro other
    by_cases same : other = kind
    · subst same
      simpa [Ss.recordFrame, Ss.mark, Ss.setDetector, rangeSince] using ranged.minFreq other
    · simpa [Ss.recordFrame, Ss.mark, Ss.setDetector, rangeSince, same] using ranged.minFreq other
  · intro other
    by_cases same : other = kind
    · subst same
      simpa [Ss.recordFrame, Ss.mark, Ss.setDetector, rangeSince] using ranged.maxFreq other
    · simpa [Ss.recordFrame, Ss.mark, Ss.setDetector, rangeSince, same] using ranged.maxFreq other

theorem count {bd : Ss} (ranged : Ranged bd) (kind : Interferer) (freqKhz : Int32) :
    Ranged (bd.count kind freqKhz) := by
  constructor
  · intro other
    have old := ranged.minFreq other
    by_cases same : other = kind
    · subst same
      simp only [rangeSince] at old
      simp [Ss.count, Ss.mark, Ss.setDetector, rangeSince, old]
    · simpa [Ss.count, Ss.mark, Ss.setDetector, rangeSince, same, Ne.symm same] using old
  · intro other
    have old := ranged.maxFreq other
    by_cases same : other = kind
    · subst same
      simp only [rangeSince] at old
      simp [Ss.count, Ss.mark, Ss.setDetector, rangeSince, old]
    · simpa [Ss.count, Ss.mark, Ss.setDetector, rangeSince, same, Ne.symm same] using old

end Ranged

/-- The highest frequency whose MHz fit the field. -/
def maxFreqKhz : Int32 := 65535999

/-- No reset meets an interferer that is published and has been counted, and the frequencies
that are counted can be published. -/
def Clean (before : List Mark) : Mark → Prop
  | .found _ _ => True
  | .reset kind => kind ≠ .bth → timesCounted kind before = 0
  | .counted kind _ freqKhz => kind ≠ .bth → 0 ≤ freqKhz ∧ freqKhz ≤ maxFreqKhz

instance (before : List Mark) : (event : Mark) → Decidable (Clean before event)
  | .found _ _ => inferInstanceAs (Decidable True)
  | .reset _ => inferInstanceAs (Decidable (_ → _))
  | .counted _ _ _ => inferInstanceAs (Decidable (_ → _))

def CleanFrom : List Mark → List Mark → Prop
  | _, [] => True
  | before, event :: rest => Clean before event ∧ CleanFrom (before ++ [event]) rest

def CleanFrom.decide : (before events : List Mark) → Decidable (CleanFrom before events)
  | _, [] => inferInstanceAs (Decidable True)
  | before, event :: rest =>
    @instDecidableAnd _ _ (inferInstance : Decidable (Clean before event))
      (CleanFrom.decide (before ++ [event]) rest)

instance (before events : List Mark) : Decidable (CleanFrom before events) :=
  CleanFrom.decide before events

def Undisturbed (bd : Ss) (capture : Capture) : Prop :=
  CleanFrom bd.past ((classifier bd capture).past.drop bd.past.length)

instance (bd : Ss) (capture : Capture) : Decidable (Undisturbed bd capture) :=
  inferInstanceAs (Decidable (CleanFrom _ _))

/-- The range is empty and nothing was counted, or it is a range of frequencies around the
latest detection. -/
def Fits (kind : Interferer) (past : List Mark) : Prop :=
  (rangeSince kind past = (Int32.maxValue, Int32.minValue) ∧ timesCounted kind past = 0) ∨
    ∃ freqKhz, latest kind past = some freqKhz ∧ 0 ≤ (rangeSince kind past).1 ∧
      (rangeSince kind past).1 ≤ freqKhz ∧ freqKhz ≤ (rangeSince kind past).2 ∧
      (rangeSince kind past).2 ≤ maxFreqKhz

variable {kind : Interferer} {past : List Mark}

theorem Fits.found (fits : Fits kind past)
    (other : Interferer) (frame : Frame) : Fits kind (past ++ [.found other frame]) := by
  simpa [Fits, rangeSince, latest, timesCounted] using fits

variable {kind other : Interferer} {bd : Ss}

theorem Fits.reset (fits : Fits kind past) (uncounted : other = kind → timesCounted kind past = 0) :
    Fits kind (past ++ [.reset other]) := by
  by_cases same : other = kind
  · left
    subst same
    refine ⟨by simp [rangeSince], ?_⟩
    simpa [timesCounted] using uncounted rfl
  · simpa [Fits, rangeSince, latest, timesCounted, same] using fits

theorem Fits.counted {frame : Frame} {freqKhz : Int32} (fits : Fits kind past)
    (bounded : other = kind → 0 ≤ freqKhz ∧ freqKhz ≤ maxFreqKhz) :
    Fits kind (past ++ [.counted other frame freqKhz]) := by
  by_cases same : other = kind
  · subst same
    obtain ⟨low, high⟩ := bounded rfl
    right
    refine ⟨freqKhz, by simp [latest], ?_⟩
    have range : rangeSince other (past ++ [.counted other frame freqKhz]) =
        (if freqKhz < (rangeSince other past).1 then freqKhz else (rangeSince other past).1,
          if freqKhz > (rangeSince other past).2 then freqKhz else (rangeSince other past).2) := by
      simp [rangeSince]
    rw [range]
    dsimp only
    rcases fits with ⟨empty, -⟩ | ⟨last, -, lowest, below, above, highest⟩
    · have under : freqKhz < Int32.maxValue := by
        apply Int32.lt_of_le_of_lt high
        decide
      have beyond : Int32.minValue < freqKhz := by
        apply Int32.lt_of_lt_of_le _ low
        decide
      rw [empty, if_pos under, if_pos beyond]
      exact ⟨low, Int32.le_refl _, Int32.le_refl _, high⟩
    · simp only [Int32.le_iff_toInt_le, Int32.lt_iff_toInt_lt, gt_iff_lt] at *
      split <;> split <;> omega
  · simpa [Fits, rangeSince, latest, timesCounted, same] using fits

theorem Fits.event (published : kind ≠ .bth) {event : Mark}
    (fits : Fits kind past) (clean : Clean past event) : Fits kind (past ++ [event]) := by
  cases event with
  | found other frame => exact fits.found other frame
  | reset other =>
    apply fits.reset
    rintro rfl
    exact clean published
  | counted other frame freqKhz =>
    apply fits.counted
    rintro rfl
    exact clean published

theorem Fits.append {kind : Interferer} (published : kind ≠ .bth) {events : List Mark} :
    ∀ {past : List Mark}, Fits kind past → CleanFrom past events → Fits kind (past ++ events) := by
  induction events with
  | nil =>
    intro past fits _
    simpa using fits
  | cons event rest ih =>
    intro past fits clean
    simpa using ih (fits.event published clean.1) clean.2

structure Sound (bd : Ss) : Prop where
  tracks : Tracks bd
  ranged : Ranged bd
  fits : ∀ kind, kind ≠ .bth → Fits kind bd.past

theorem classifier_tracks (bd : Ss) (capture : Capture) (tracks : Tracks bd) :
    Tracks (classifier bd capture) := by
  apply classifier_invariant _ _ _ _ bd capture tracks
  · intro reset bd known tracks
    cases known with
    | times kind => exact tracks.reset kind
    | mwoLong => exact tracks.of_eq rfl rfl
  · intro kind bd tracks
    exact tracks.recordFrame kind
  · intro kind freqKhz bd tracks
    exact tracks.count kind freqKhz
  · intro bd other detectors past tracks
    exact tracks.of_eq detectors past

theorem classifier_ranged (bd : Ss) (capture : Capture) (ranged : Ranged bd) :
    Ranged (classifier bd capture) := by
  apply classifier_invariant _ _ _ _ bd capture ranged
  · intro reset bd known ranged
    cases known with
    | times kind => exact ranged.reset kind
    | mwoLong => exact ⟨ranged.minFreq, ranged.maxFreq⟩
  · intro kind bd ranged
    exact ranged.recordFrame kind
  · intro kind freqKhz bd ranged
    exact ranged.count kind freqKhz
  · intro bd other detectors past ranged
    constructor
    · rw [detectors, past]
      exact ranged.minFreq
    · rw [detectors, past]
      exact ranged.maxFreq

theorem classifier_past (bd : Ss) (capture : Capture) :
    bd.past <+: (classifier bd capture).past := by
  refine @classifier_invariant (fun after => bd.past <+: after.past) ?_ ?_ ?_ ?_ bd capture
    (prefix_refl bd.past)
  · intro reset after known grown
    cases known with
    | times kind => exact grown.trans (prefix_append _ _)
    | mwoLong => exact grown
  · intro kind after grown
    exact grown.trans (prefix_append _ _)
  · intro kind freqKhz after grown
    exact grown.trans (prefix_append _ _)
  · intro after other _ past grown
    rwa [past]

theorem classifier_sound {capture : Capture} (sound : Sound bd)
    (undisturbed : Undisturbed bd capture) : Sound (classifier bd capture) where
  tracks := classifier_tracks bd capture sound.tracks
  ranged := classifier_ranged bd capture sound.ranged
  fits kind published := by
    have whole := prefix_iff_eq_append.mp (classifier_past bd capture)
    rw [← whole]
    exact (sound.fits kind published).append published undisturbed

theorem initialize_sound (dynamicHt2040En dcIndex bChanInMhz lwrBandData : Int32) :
    Sound (msClassifierInitialize dynamicHt2040En dcIndex bChanInMhz lwrBandData) where
  tracks := (initialize_honest _ _ _ _).tracks
  ranged := ⟨fun _ => rfl, fun _ => rfl⟩
  fits _ _ := Or.inl ⟨rfl, rfl⟩

theorem msInitClassifier_sound (cp : ClassifierParams) :
    Sound (msInitClassifier cp).1 ∧ Sound (msInitClassifier cp).2 := by
  refine ⟨initialize_sound _ _ _ _, ?_⟩
  unfold msInitClassifier
  dsimp only
  split <;> exact initialize_sound _ _ _ _

theorem toInt_div_thousand (freqKhz : Int32) : (freqKhz / 1000).toInt = freqKhz.toInt.tdiv 1000 :=
  Int32.toInt_div_of_ne_right freqKhz 1000 (by decide)

theorem toNat_toMhz {freqKhz : Int32} (low : 0 ≤ freqKhz) (high : freqKhz ≤ maxFreqKhz) :
    ((toMhz freqKhz).toNat : Int) = freqKhz.toInt / 1000 := by
  have bound : maxFreqKhz.toInt = 65535999 := by decide
  rw [Int32.le_iff_toInt_le] at low high
  rw [bound] at high
  have value := toInt_div_thousand freqKhz
  rw [Int.tdiv_eq_ediv_of_nonneg low] at value
  have zero : (0 : Int32).toInt = 0 := by decide
  rw [zero] at low
  have positive : (0 : Int32) ≤ freqKhz / 1000 := by
    rw [Int32.le_iff_toInt_le, value, zero]
    omega
  rw [toMhz, UInt32.toNat_toUInt16, Int32.toNat_toUInt32_of_le positive, Int32.toNatClampNeg, value]
  omega

theorem Sound.publishes (sound : Sound bd) (published : kind ≠ .bth)
    (counted : (bd.detectors kind).count ≠ 0) (interfType : InterfType) :
    toMhz (bd.detectors kind).minFreq ≤ toMhz (bd.detectors kind).maxFreq ∧
      Shows ⟨interfType, toMhz (bd.detectors kind).minFreq, toMhz (bd.detectors kind).maxFreq⟩
        kind bd := by
  rcases sound.fits kind published with ⟨-, uncounted⟩ | ⟨freqKhz, last, low, below, above, high⟩
  · rw [sound.tracks.counts, uncounted] at counted
    exact absurd rfl counted
  rw [sound.ranged.minFreq, sound.ranged.maxFreq]
  have lowest := toNat_toMhz low (Int32.le_trans below (Int32.le_trans above high))
  have highest := toNat_toMhz (Int32.le_trans low (Int32.le_trans below above)) high
  have value := toInt_div_thousand freqKhz
  rw [Int32.le_iff_toInt_le] at low below above
  have zero : (0 : Int32).toInt = 0 := by decide
  rw [zero] at low
  rw [Int.tdiv_eq_ediv_of_nonneg (Int.le_trans low below)] at value
  constructor
  · rw [UInt16.le_iff_toNat_le]
    omega
  · intro other member
    rw [last, Option.mem_some_iff] at member
    subst member
    dsimp only
    rw [lowest, highest, value]
    omega

def OrderedTable (table : InterfTable) : Prop :=
  ∀ slot, (table slot).interfType ≠ .none → (table slot).interfMinFreq ≤ (table slot).interfMaxFreq

theorem publishedAs_ne_bth : ∀ entry ∈ publishedAs, entry.1 ≠ .bth := by decide

theorem updateGlobalInterf_ordered (sound : Sound bd) {table : InterfTable}
    (ordered : OrderedTable table) : OrderedTable (updateGlobalInterf bd table) := by
  have step : ∀ entry ∈ publishedAs, ∀ table, OrderedTable table → OrderedTable (publish bd table entry) := by
    intro entry member table ordered slot
    unfold publish
    split
    next counted =>
      by_cases same : slot = entry.2.slot
      · subst same
        rw [Function.update_self]
        intro _
        exact (sound.publishes (publishedAs_ne_bth entry member) counted entry.2).1
      · rw [Function.update_of_ne same]
        exact ordered slot
    next => exact ordered slot
  unfold updateGlobalInterf
  generalize publishedAs = entries at step
  induction entries generalizing table with
  | nil => exact ordered
  | cons entry rest ih =>
    apply ih (step entry mem_cons_self table ordered)
    intro other member
    exact step other (mem_cons_of_mem entry member)

theorem updateGlobalInterf_slot (bd : Ss) (table : InterfTable)
    {interfType : InterfType} (member : (kind, interfType) ∈ publishedAs) :
    updateGlobalInterf bd table interfType.slot =
      if (bd.detectors kind).count ≠ 0 then
        ⟨interfType, toMhz (bd.detectors kind).minFreq, toMhz (bd.detectors kind).maxFreq⟩
      else table interfType.slot := by
  have apart : ∀ (entry : Interferer × InterfType) (table : InterfTable),
      entry.2.slot ≠ interfType.slot →
        publish bd table entry interfType.slot = table interfType.slot := by
    intro entry table different
    unfold publish
    split
    · exact Function.update_of_ne (Ne.symm different) _ _
    · rfl
  have own : ∀ table : InterfTable, publish bd table (kind, interfType) interfType.slot =
      if (bd.detectors kind).count ≠ 0 then
        ⟨interfType, toMhz (bd.detectors kind).minFreq, toMhz (bd.detectors kind).maxFreq⟩
      else table interfType.slot := by
    intro table
    unfold publish
    dsimp only
    split
    · exact Function.update_self _ _ _
    · rfl
  simp only [publishedAs, mem_cons, Prod.mk.injEq, not_mem_nil, or_false] at member
  simp only [updateGlobalInterf, publishedAs, foldl_cons, foldl_nil]
  rcases member with ⟨rfl, rfl⟩ | ⟨rfl, rfl⟩ | ⟨rfl, rfl⟩ | ⟨rfl, rfl⟩
  · rw [apart _ _ (by decide), apart _ _ (by decide), apart _ _ (by decide), own]
  · rw [apart _ _ (by decide), apart _ _ (by decide), own, apart _ _ (by decide)]
  · rw [apart _ _ (by decide), own, apart _ _ (by decide), apart _ _ (by decide)]
  · rw [own, apart _ _ (by decide), apart _ _ (by decide), apart _ _ (by decide)]

variable (doEacs : Bool) (server : InterfServer) (msg : SpectralSampMsg)

def Apart : Prop :=
  ∀ entry ∈ publishedAs, timesCounted entry.1 server.lwrband.past = 0 ∨
    timesCounted entry.1 server.uprband.past = 0

instance (server : InterfServer) : Decidable (Apart server) :=
  inferInstanceAs (Decidable (∀ entry ∈ publishedAs, _))

def Undisputed : Prop :=
  ¬ (doEacs ∧ msg.cwInterferer = 1) → Undisturbed (server.initBands msg).lwrband msg.lowerCapture ∧
      (msg.isHt2040 = true → Undisturbed (server.initBands msg).uprband msg.upperCapture) ∧
      Apart ((server.initBands msg).classifyBands msg)

instance (doEacs : Bool) (server : InterfServer) (msg : SpectralSampMsg) :
    Decidable (Undisputed doEacs server msg) :=
  inferInstanceAs (Decidable (_ → _))

def Prepared : Prop :=
  (server.onceOnly = 0 ∧ (∀ kind, (server.lwrband.detectors kind).count = 0) ∧
      ∀ kind, (server.uprband.detectors kind).count = 0) ∨
    (Sound server.lwrband ∧ Sound server.uprband)

theorem initBands_sound {server : InterfServer} (prepared : Prepared server)
    (msg : SpectralSampMsg) :
    Sound (server.initBands msg).lwrband ∧ Sound (server.initBands msg).uprband := by
  unfold InterfServer.initBands
  split
  · exact msInitClassifier_sound msg.classifierParams
  next old =>
    rcases prepared with ⟨never, -⟩ | sound
    · exact absurd (Or.inl never) old
    · exact sound

theorem initBands_table : (server.initBands msg).globalInterfRsp = server.globalInterfRsp := by
  unfold InterfServer.initBands
  split <;> rfl

theorem Sound.uncounted (sound : Sound bd)
    (never : timesCounted kind bd.past = 0) : (bd.detectors kind).count = 0 := by
  rw [sound.tracks.counts, never]
  rfl

theorem printDetection_real {server : InterfServer} (lower : Sound server.lwrband)
    (upper : Sound server.uprband) (apart : Apart server)
    (ordered : OrderedTable server.globalInterfRsp) : RealRanges server.printDetection where
  ordered := by
    apply updateGlobalInterf_ordered upper
    apply updateGlobalInterf_ordered lower
    unfold InterfServer.clearGlobalInterfRsp
    dsimp only
    split
    · intro slot cleared
      exact absurd rfl cleared
    · exact ordered
  shown kind interfType member bd which counted := by
    have published := publishedAs_ne_bth _ member
    show (updateGlobalInterf server.uprband (updateGlobalInterf server.lwrband _)
      interfType.slot).interfType = interfType ∧ Shows (updateGlobalInterf server.uprband
        (updateGlobalInterf server.lwrband _) interfType.slot) kind bd
    rw [updateGlobalInterf_slot server.uprband _ member]
    rcases which with rfl | rfl
    · -- the upper band has not counted it, so the slot is the lower band's
      have alone : (server.uprband.detectors kind).count = 0 := by
        rcases apart _ member with never | never
        · exact absurd (lower.uncounted never) counted
        · exact upper.uncounted never
      rw [if_neg (not_not_intro alone), updateGlobalInterf_slot server.lwrband _ member]
      have counted : (server.lwrband.detectors kind).count ≠ 0 := counted
      rw [if_pos counted]
      exact ⟨rfl, (lower.publishes published counted interfType).2⟩
    · have counted : (server.uprband.detectors kind).count ≠ 0 := counted
      rw [if_pos counted]
      exact ⟨rfl, (upper.publishes published counted interfType).2⟩

theorem serverProcessKernelSpectralMsg_real (undisputed : Undisputed doEacs server msg)
    (holds : Prepared server ∧ RealRanges server) :
    Prepared (serverProcessKernelSpectralMsg doEacs server msg) ∧
      RealRanges (serverProcessKernelSpectralMsg doEacs server msg) := by
  obtain ⟨prepared, real⟩ := holds
  unfold serverProcessKernelSpectralMsg
  split
  · exact ⟨prepared, real⟩
  next taken =>
    obtain ⟨lower, upper, apart⟩ := undisputed taken
    obtain ⟨lowerSound, upperSound⟩ := initBands_sound prepared msg
    have lowerAfter : Sound ((server.initBands msg).classifyBands msg).lwrband :=
      classifier_sound lowerSound lower
    have upperAfter : Sound ((server.initBands msg).classifyBands msg).uprband := by
      unfold InterfServer.classifyBands
      dsimp only
      split
      next wide => exact classifier_sound upperSound (upper wide)
      next => exact upperSound
    have ordered : OrderedTable ((server.initBands msg).classifyBands msg).globalInterfRsp := by
      show OrderedTable (server.initBands msg).globalInterfRsp
      rw [initBands_table]
      exact real.ordered
    exact ⟨Or.inr ⟨lowerAfter, upperAfter⟩, printDetection_real lowerAfter upperAfter apart ordered⟩

theorem start_real : Prepared InterfServer.start ∧ RealRanges InterfServer.start := by
  refine ⟨Or.inl ⟨rfl, fun _ => rfl, fun _ => rfl⟩, ?_, ?_⟩
  · intro slot published
    exact absurd rfl published
  · intro kind interfType _ bd which counted
    rcases which with rfl | rfl
    · exact absurd rfl counted
    · exact absurd rfl counted

/-- In every run of undisputed reports the published ranges are real after each of them. -/
theorem published_ranges_real (doEacs : Bool) (msgs : List SpectralSampMsg)
    (undisputed : Along (serverProcessKernelSpectralMsg doEacs) (Undisputed doEacs)
      InterfServer.start msgs) :
    RealRanges (run (serverProcessKernelSpectralMsg doEacs) InterfServer.start msgs) :=
  (undisputed.invariant (serverProcessKernelSpectralMsg_real doEacs) start_real).2

def reportAt (tstamp lastTstamp : Int32) (narrow : UInt8) (bin : Int16) : SpectralSampMsg :=
  ⟨2412, 0, 56, tstamp, lastTstamp, 10, 10, bin, bin, narrow, narrow, channelOne⟩

/-- Two reports of one burst of more than 10 ms. -/
def toneReports : List SpectralSampMsg :=
  [reportAt 1000 900 1 10, reportAt 11001 10900 1 10]

/-- A burst of 3 ms over four bins. -/
def ovenReports (start : Int32) : List SpectralSampMsg :=
  [reportAt start (start - 100) 1 10, reportAt (start + 3000) (start + 2900) 1 13,
    reportAt (start + 3050) (start + 3000) 0 0]

theorem published_ranges_real_tone :
    (run (serverProcessKernelSpectralMsg false) InterfServer.start toneReports).globalInterfRsp
        InterfType.tone.slot = ⟨.tone, 2406, 2406⟩ ∧
      RealRanges (run (serverProcessKernelSpectralMsg false) InterfServer.start toneReports) :=
  ⟨by decide +kernel, published_ranges_real false toneReports (by decide +kernel)⟩

/-- An oven heard after a tone turns the tone's range inside out. -/
theorem published_range_inverted :
    ¬ ∀ msgs : List SpectralSampMsg,
      RealRanges (run (serverProcessKernelSpectralMsg false) InterfServer.start msgs) := by
  intro all
  have entry : (run (serverProcessKernelSpectralMsg false) InterfServer.start
      (toneReports ++ ovenReports 20000 ++ ovenReports 40000 ++ ovenReports 60000)).globalInterfRsp
        InterfType.tone.slot = ⟨.tone, 50331, 15205⟩ := by
    decide +kernel
  have order := (all (toneReports ++ ovenReports 20000 ++ ovenReports 40000 ++
    ovenReports 60000)).ordered InterfType.tone.slot
  rw [entry] at order
  exact absurd (order (by decide)) (by decide)

end AthApps.Spectral
