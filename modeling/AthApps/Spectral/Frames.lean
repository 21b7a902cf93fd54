import AthApps.Lib.Window
import AthApps.Spectral.Classifier

/-!
# The frames behind a count

An interferer is counted when the oldest of its recorded times lies within the
observation window.  The slots of a detector show the latest frames since its
last reset, and `INT_MIN / 2` where there are too few; a burst that stops in
the half of the 32-bit range where that value looks recent is counted on fewer
frames than it takes.
-/

set_option autoImplicit false

namespace AthApps.Spectral

open AthApps.Lib List

def framesSince (kind : Interferer) (past : List Mark) : List Frame :=
  past.foldl (fun frames event =>
    match event with
    | .found other frame => if other = kind then frames ++ [frame] else frames
    | .reset other => if other = kind then [] else frames
    | .counted _ _ _ => frames) []

def timesCounted (kind : Interferer) (past : List Mark) : Nat :=
  past.countP fun event =>
    match event with
    | .counted other _ _ => other = kind
    | _ => false

@[simp] theorem framesSince_found (kind other : Interferer) (frame : Frame) (past : List Mark) :
    framesSince kind (past ++ [.found other frame]) =
      if other = kind then framesSince kind past ++ [frame] else framesSince kind past := by
  simp [framesSince]

@[simp] theorem framesSince_reset (kind other : Interferer) (past : List Mark) :
    framesSince kind (past ++ [.reset other]) =
      if other = kind then [] else framesSince kind past := by
  simp [framesSince]

@[simp] theorem framesSince_counted (kind other : Interferer) (frame : Frame) (freqKhz : Int32)
    (past : List Mark) :
    framesSince kind (past ++ [.counted other frame freqKhz]) = framesSince kind past := by
  simp [framesSince]

/-- The interferers that hop between frequencies are counted on their frames alone. -/
def hoppers : List Interferer := [.cph, .bth, .bts]

/-- Behind the count stands a full number of frames since the last reset: the last is the
burst that is counted, and the first stopped less than the observation window before it. -/
def Genuine (before : List Mark) : Mark → Prop
  | .counted kind frame _ =>
    kind ∈ hoppers → ∃ earlier window, framesSince kind before = earlier ++ window ∧
      window.length = kind.minNumberOfFrames ∧ window.getLast? = some frame ∧
      ∀ first ∈ window.head?, frame.stop - first.stop < observationWindow
  | _ => True

/-- The times at which `INT_MIN / 2` looks recent. -/
def Blind (stop : Int32) : Prop := stop < -1072741824 ∨ 1073741824 ≤ stop

instance (stop : Int32) : Decidable (Blind stop) :=
  inferInstanceAs (Decidable (_ ∨ _))

theorem blind_iff (stop : Int32) : Blind stop ↔ stop - noTime < observationWindow := by
  have high := stop.toInt_lt
  have low := stop.le_toInt
  have none : noTime.toInt = -1073741824 := by decide
  have window : observationWindow.toInt = 1000000 := by decide
  have left : (-1072741824 : Int32).toInt = -1072741824 := by decide
  have right : (1073741824 : Int32).toInt = 1073741824 := by decide
  rw [Blind, Int32.lt_iff_toInt_lt, Int32.le_iff_toInt_le, Int32.lt_iff_toInt_lt,
    left, right, Int32.toInt_sub, none, window]
  simp only [Int.bmod]
  omega

structure Tracks (bd : Ss) : Prop where
  times : ∀ kind, (bd.detectors kind).timestamps =
    slots kind.minNumberOfFrames noTime ((framesSince kind bd.past).map Frame.stop)
  counts : ∀ kind, (bd.detectors kind).count = Int32.ofNat (timesCounted kind bd.past)

theorem minNumberOfFrames_pos (kind : Interferer) : 0 < kind.minNumberOfFrames := by
  cases kind <;> decide

/-- A burst stands at the end of the frames of each interferer that it was found for, unless
these have been forgotten since. -/
structure Consistent (found : Findings) (frame : Frame) (bd : Ss) : Prop where
  tracks : Tracks bd
  genuine : Justified Genuine bd.past
  current : bd.currentFrame = frame
  ends : ∀ kind, found.of kind = true →
    framesSince kind bd.past = [] ∨ (framesSince kind bd.past).getLast? = some frame

namespace Tracks

theorem reset {bd : Ss} (tracks : Tracks bd) (kind : Interferer) : Tracks (bd.reset kind) := by
  constructor
  · intro other
    by_cases same : other = kind
    · subst same
      simp [Ss.reset, Ss.mark, Ss.setDetector]
    · simp [Ss.reset, Ss.mark, Ss.setDetector, same, Ne.symm same, tracks.times]
  · intro other
    by_cases same : other = kind
    · subst same
      simp [Ss.reset, Ss.mark, Ss.setDetector, timesCounted, tracks.counts]
    · simp [Ss.reset, Ss.mark, Ss.setDetector, timesCounted, same, tracks.counts]

theorem recordFrame {bd : Ss} (tracks : Tracks bd) (kind : Interferer) :
    Tracks (bd.recordFrame kind) := by
  constructor
  · intro other
    by_cases same : other = kind
    · subst same
      simp [Ss.recordFrame, Ss.mark, Ss.setDetector, tracks.times, Ss.currentFrame,
        slots_snoc _ _ _ _ (minNumberOfFrames_pos other)]
    · simp [Ss.recordFrame, Ss.mark, Ss.setDetector, same, Ne.symm same, tracks.times]
  · intro other
    by_cases same : other = kind
    · subst same
      simp [Ss.recordFrame, Ss.mark, Ss.setDetector, timesCounted, tracks.counts]
    · simp [Ss.recordFrame, Ss.mark, Ss.setDetector, timesCounted, same, tracks.counts]

theorem count {bd : Ss} (tracks : Tracks bd) (kind : Interferer) (freqKhz : Int32) :
    Tracks (bd.count kind freqKhz) := by
  constructor
  · intro other
    by_cases same : other = kind
    · subst same
      simp [Ss.count, Ss.mark, Ss.setDetector, tracks.times]
    · simp [Ss.count, Ss.mark, Ss.setDetector, same, tracks.times]
  · intro other
    by_cases same : other = kind
    · subst same
      simp [Ss.count, Ss.mark, Ss.setDetector, timesCounted, tracks.counts, Int32.ofNat_add]
    · simp [Ss.count, Ss.mark, Ss.setDetector, timesCounted, same, Ne.symm same, tracks.counts]

end Tracks

/-- The resets that a block of detection makes. -/
inductive IsReset : (Ss → Ss) → Prop
  | times (kind : Interferer) : IsReset (Ss.reset kind)
  | mwoLong : IsReset Ss.resetMwoLong

variable {property : Ss → Prop}

theorem foldl_resets (keeps : ∀ reset bd, IsReset reset → property bd → property (reset bd))
    (resets : List (Ss → Ss)) (all : ∀ reset ∈ resets, IsReset reset) (bd : Ss)
    (holds : property bd) : property (resets.foldl (fun bd reset => reset bd) bd) := by
  induction resets generalizing bd with
  | nil => exact holds
  | cons reset rest ih =>
    apply ih (fun other member => all other (mem_cons_of_mem reset member))
    exact keeps reset bd (all reset mem_cons_self) holds

theorem genuine_reset (past : List Mark) (kind : Interferer) : Genuine past (.reset kind) :=
  True.intro

namespace Consistent

variable {found : Findings} {frame : Frame} {bd : Ss}

theorem reset (here : Consistent found frame bd) (kind : Interferer) :
    Consistent found frame (bd.reset kind) where
  tracks := here.tracks.reset kind
  genuine := here.genuine.snoc (genuine_reset bd.past kind)
  current := here.current
  ends other known := by
    show framesSince other (bd.past ++ [.reset kind]) = [] ∨ _
    by_cases same : kind = other
    · exact Or.inl (by simp [same])
    · simpa [Ss.reset, Ss.mark, Ss.setDetector, same] using here.ends other known

theorem resetMwoLong (here : Consistent found frame bd) :
    Consistent found frame bd.resetMwoLong where
  tracks := ⟨here.tracks.times, here.tracks.counts⟩
  genuine := here.genuine
  current := here.current
  ends := here.ends

variable {kind : Interferer} {freqKhz : Int32}

theorem count (here : Consistent found frame bd)
    (rests : Genuine bd.past (.counted kind frame freqKhz)) :
    Consistent found frame (bd.count kind freqKhz) where
  tracks := here.tracks.count kind freqKhz
  genuine := by
    rw [← here.current] at rests
    exact here.genuine.snoc rests
  current := here.current
  ends other known := by simpa [Ss.count, Ss.mark, Ss.setDetector] using here.ends other known

theorem detect (here : Consistent found frame bd) {longBurst : Bool}
    {resets : List (Ss → Ss)} (all : ∀ reset ∈ resets, IsReset reset)
    (rests : ((bd.recent kind && found.of kind) || longBurst) = true →
      Genuine bd.past (.counted kind frame freqKhz)) :
    Consistent found frame (bd.detect kind longBurst resets freqKhz found) := by
  unfold Ss.detect
  split
  next hit =>
    apply foldl_resets _ resets all _ (here.count (rests hit))
    intro reset bd known holds
    cases known with
    | times kind => exact holds.reset kind
    | mwoLong => exact holds.resetMwoLong
  next => exact here

/-- The window test tells the truth about a full window, and outside the blind times about
any window. -/
theorem genuine_of_recent (here : Consistent found frame bd)
    (known : found.of kind = true) (recent : bd.recent kind = true)
    (seen : ¬ Blind frame.stop ∨ kind.minNumberOfFrames ≤ (framesSince kind bd.past).length) :
    Genuine bd.past (.counted kind frame freqKhz) := by
  intro _
  have stop : bd.currentBurstStop = frame.stop := by rw [← here.current]; rfl
  simp only [Ss.recent, decide_eq_true_eq, here.tracks.times, stop] at recent
  have full : kind.minNumberOfFrames ≤ (framesSince kind bd.past).length := by
    rcases seen with clear | full
    · by_contra short
      have few : ((framesSince kind bd.past).map Frame.stop).length < kind.minNumberOfFrames := by
        simpa using short
      obtain ⟨rest, front⟩ := slots_of_short noTime few
      rw [front] at recent
      exact clear ((blind_iff frame.stop).mpr recent)
    · exact full
  have positive := minNumberOfFrames_pos kind
  refine ⟨(framesSince kind bd.past).rdrop kind.minNumberOfFrames,
    (framesSince kind bd.past).rtake kind.minNumberOfFrames, ?_, ?_, ?_, ?_⟩
  · simp [List.rdrop, List.rtake]
  · simp only [List.rtake, length_drop]
    omega
  · rcases here.ends kind known with empty | last
    · rw [empty] at full
      simp only [length_nil] at full
      omega
    · rw [List.rtake, getLast?_drop, if_neg (by omega), last]
  · intro first member
    rw [slots_of_full noTime (by simpa using full)] at recent
    have front : (((framesSince kind bd.past).map Frame.stop).rtake
        kind.minNumberOfFrames).headD 0 = first.stop := by
      rw [List.rtake, length_map, ← map_drop, headD_eq_head?_getD, head?_map]
      rw [List.rtake] at member
      rw [Option.mem_def.mp member]
      rfl
    rwa [front] at recent

end Consistent

/-- The burst is seen rightly: it stops outside the blind times, or it is found for one
hopper only, whose slots hold no `INT_MIN / 2` behind the oldest. -/
def SeenRightly (found : Findings) (bd : Ss) : Prop :=
  ∀ kind ∈ hoppers, found.of kind = true → ¬ Blind bd.currentBurstStop ∨
    (noTime ∉ (bd.detectors kind).timestamps.tail ∧
      ∀ other ∈ hoppers, found.of other = true → other = kind)

instance (found : Findings) (bd : Ss) : Decidable (SeenRightly found bd) :=
  inferInstanceAs (Decidable (∀ kind ∈ hoppers, _))

/-- The condition on a call: the burst that it checks, if any, is seen rightly. -/
def Sighted (bd : Ss) (capture : Capture) : Prop :=
  (bd.collect capture).2 = true →
    SeenRightly ((bd.collect capture).1.examine capture.timestamp).2 (bd.collect capture).1

instance (bd : Ss) (capture : Capture) : Decidable (Sighted bd capture) :=
  inferInstanceAs (Decidable (_ → _))

variable (found : Findings)

theorem framesSince_recordIf (kind other : Interferer) (bd : Ss) :
    framesSince kind (if found.of other then bd.recordFrame other else bd).past =
      framesSince kind bd.past ++
        if other = kind ∧ found.of other = true then [bd.currentFrame] else [] := by
  by_cases known : found.of other = true
  · by_cases same : other = kind
    · subst same
      simp [known, Ss.recordFrame, Ss.mark, Ss.setDetector]
    · simp [known, same, Ss.recordFrame, Ss.mark, Ss.setDetector]
  · simp [known]

theorem currentFrame_recordIf (other : Interferer) (bd : Ss) :
    (if found.of other then bd.recordFrame other else bd).currentFrame = bd.currentFrame := by
  split <;> rfl

theorem framesSince_record (kind : Interferer) (bd : Ss) : framesSince kind (bd.record found).past =
      framesSince kind bd.past ++ if found.of kind = true then [bd.currentFrame] else [] := by
  simp only [Ss.record, foldl_cons, foldl_nil, framesSince_recordIf, currentFrame_recordIf]
  cases kind <;> simp

theorem currentFrame_record (bd : Ss) : (bd.record found).currentFrame = bd.currentFrame := by
  simp only [Ss.record, foldl_cons, foldl_nil, currentFrame_recordIf]

theorem record_invariant {found : Findings} {property : Ss → Prop}
    (keeps : ∀ kind bd, property bd → property (bd.recordFrame kind)) {bd : Ss}
    (holds : property bd) : property (bd.record found) := by
  have step : ∀ kind bd, property bd →
      property (if found.of kind then bd.recordFrame kind else bd) := by
    intro kind bd holds
    split
    · exact keeps kind bd holds
    · exact holds
  simp only [Ss.record, foldl_cons, foldl_nil]
  exact step _ _ (step _ _ (step _ _ (step _ _ (step _ _ holds))))

variable {bd : Ss}

theorem Consistent.record {found : Findings} (tracks : Tracks bd)
    (genuine : Justified Genuine bd.past) :
    Consistent found bd.currentFrame (bd.record found) where
  tracks := record_invariant (fun kind _ tracks => tracks.recordFrame kind) tracks
  genuine := by
    refine @record_invariant found (fun bd => Justified Genuine bd.past) ?_ bd genuine
    intro kind bd holds
    exact holds.snoc True.intro
  current := currentFrame_record found bd
  ends kind known := by
    right
    simp [framesSince_record, known]

theorem detect_of_not_found {found : Findings} {kind : Interferer} (absent : found.of kind = false)
    (resets : List (Ss → Ss)) (freqKhz : Int32) (bd : Ss) :
    bd.detect kind false resets freqKhz found = bd := by
  simp [Ss.detect, absent]

theorem isReset_cph : ∀ reset ∈ [Ss.resetBts, Ss.resetBth, Ss.resetMwo, Ss.resetMwoLong,
    Ss.resetCwa], IsReset reset := by
  simp [Ss.resetBts, Ss.resetBth, Ss.resetMwo, Ss.resetCwa, IsReset.times, IsReset.mwoLong]

theorem isReset_bth : ∀ reset ∈ [Ss.resetBts, Ss.resetCwa, Ss.resetMwo, Ss.resetMwoLong,
    Ss.resetCph], IsReset reset := by
  simp [Ss.resetBts, Ss.resetCwa, Ss.resetMwo, Ss.resetCph, IsReset.times, IsReset.mwoLong]

theorem isReset_bts : ∀ reset ∈ [Ss.resetBth, Ss.resetMwo, Ss.resetCph, Ss.resetMwoLong,
    Ss.resetCwa], IsReset reset := by
  simp [Ss.resetBth, Ss.resetMwo, Ss.resetCph, Ss.resetCwa, IsReset.times, IsReset.mwoLong]

theorem isReset_mwo : ∀ reset ∈ [Ss.resetBts, Ss.resetBth, Ss.resetCph, Ss.resetCwa],
    IsReset reset := by
  simp [Ss.resetBts, Ss.resetBth, Ss.resetCph, Ss.resetCwa, IsReset.times]

theorem isReset_cwa : ∀ reset ∈ [Ss.resetMwo, Ss.resetMwoLong, Ss.resetBts, Ss.resetBth,
    Ss.resetMwo], IsReset reset := by
  simp [Ss.resetMwo, Ss.resetBts, Ss.resetBth, IsReset.times, IsReset.mwoLong]

namespace Consistent

variable {found : Findings} {frame : Frame} {bd : Ss}

theorem detect_hopper (here : Consistent found frame bd) {kind : Interferer}
    {resets : List (Ss → Ss)} {freqKhz : Int32} (all : ∀ reset ∈ resets, IsReset reset)
    (seen : found.of kind = true →
      ¬ Blind frame.stop ∨ kind.minNumberOfFrames ≤ (framesSince kind bd.past).length) :
    Consistent found frame (bd.detect kind false resets freqKhz found) := by
  apply here.detect all
  intro hit
  simp only [Bool.or_false, Bool.and_eq_true] at hit
  exact here.genuine_of_recent hit.2 hit.1 (seen hit.2)

theorem detect_hoppers (here : Consistent found frame bd) (freqKhz : Int32)
    (seen : ∀ kind ∈ hoppers, found.of kind = true → ¬ Blind frame.stop ∨
      (kind.minNumberOfFrames ≤ (framesSince kind bd.past).length ∧
        ∀ other ∈ hoppers, found.of other = true → other = kind)) :
    Consistent found frame
      (((bd.detectCph freqKhz found).detectBth freqKhz found).detectBts freqKhz found) := by
  have first : Consistent found frame (bd.detectCph freqKhz found) := by
    apply here.detect_hopper isReset_cph
    intro known
    exact (seen .cph (by decide) known).imp_right And.left
  have second : Consistent found frame ((bd.detectCph freqKhz found).detectBth freqKhz found) := by
    apply first.detect_hopper isReset_bth
    intro known
    apply (seen .bth (by decide) known).imp_right
    rintro ⟨full, only⟩
    have absent : found.of .cph = false := by
      by_contra other
      exact absurd (only .cph (by decide) (by simpa using other)) (by decide)
    rwa [Ss.detectCph, detect_of_not_found absent]
  apply second.detect_hopper isReset_bts
  intro known
  apply (seen .bts (by decide) known).imp_right
  rintro ⟨full, only⟩
  have noCph : found.of .cph = false := by
    by_contra other
    exact absurd (only .cph (by decide) (by simpa using other)) (by decide)
  have noBth : found.of .bth = false := by
    by_contra other
    exact absurd (only .bth (by decide) (by simpa using other)) (by decide)
  rwa [Ss.detectBth, detect_of_not_found noBth, Ss.detectCph, detect_of_not_found noCph]

theorem detectMwo (here : Consistent found frame bd) (freqKhz : Int32) :
    Consistent found frame (bd.detectMwo freqKhz found) := by
  apply here.detect isReset_mwo
  intro _ hopper
  exact absurd hopper (by decide)

theorem detectCwa (here : Consistent found frame bd) (freqKhz : Int32) :
    Consistent found frame (bd.detectCwa freqKhz found) := by
  apply here.detect isReset_cwa
  intro _ hopper
  exact absurd hopper (by decide)

end Consistent

theorem examine_keeps (timestamp : Int32) (bd : Ss) :
    (bd.examine timestamp).1.detectors = bd.detectors ∧ (bd.examine timestamp).1.past = bd.past ∧
      (bd.examine timestamp).1.currentBurstStop = bd.currentBurstStop := by
  have long : (bd.examineLongBurst timestamp).1.detectors = bd.detectors ∧
      (bd.examineLongBurst timestamp).1.past = bd.past ∧
      (bd.examineLongBurst timestamp).1.currentBurstStop = bd.currentBurstStop := by
    unfold Ss.examineLongBurst
    split
    · exact ⟨rfl, rfl, rfl⟩
    split
    · exact ⟨rfl, rfl, rfl⟩
    split <;> exact ⟨rfl, rfl, rfl⟩
  have short : ∀ bd : Ss, bd.examineShortBurst.1.detectors = bd.detectors ∧
      bd.examineShortBurst.1.past = bd.past ∧
      bd.examineShortBurst.1.currentBurstStop = bd.currentBurstStop := by
    intro bd
    unfold Ss.examineShortBurst
    split <;> exact ⟨rfl, rfl, rfl⟩
  have after := short (bd.examineLongBurst timestamp).1
  exact ⟨after.1.trans long.1, after.2.1.trans long.2.1, after.2.2.trans long.2.2⟩

theorem collect_keeps (capture : Capture) (bd : Ss) :
    (bd.collect capture).1.detectors = bd.detectors ∧ (bd.collect capture).1.past = bd.past := by
  have ended : bd.endBurst.1.detectors = bd.detectors ∧ bd.endBurst.1.past = bd.past := by
    unfold Ss.endBurst
    split <;> exact ⟨rfl, rfl⟩
  have sampled : (bd.sample capture).1.detectors = bd.detectors ∧
      (bd.sample capture).1.past = bd.past := by
    unfold Ss.sample
    dsimp only
    split
    · split
      · exact ⟨rfl, rfl⟩
      · exact ended
    split
    · exact ended
    · exact ⟨rfl, rfl⟩
  have dropped : ∀ bd : Ss, bd.dropFalseAlarm.1.detectors = bd.detectors ∧
      bd.dropFalseAlarm.1.past = bd.past := by
    intro bd
    unfold Ss.dropFalseAlarm
    dsimp only
    split <;> split <;> exact ⟨rfl, rfl⟩
  unfold Ss.collect
  dsimp only
  split
  · have after := dropped (bd.sample capture).1
    exact ⟨after.1.trans sampled.1, after.2.trans sampled.2⟩
  · exact sampled

theorem detect_invariant (resets : ∀ reset bd, IsReset reset → property bd → property (reset bd))
    (counts : ∀ kind freqKhz bd, property bd → property (Ss.count kind freqKhz bd))
    {kind : Interferer} {longBurst : Bool} {chain : List (Ss → Ss)} {freqKhz : Int32}
    {found : Findings} (all : ∀ reset ∈ chain, IsReset reset) (holds : property bd) :
    property (bd.detect kind longBurst chain freqKhz found) := by
  unfold Ss.detect
  split
  · exact foldl_resets resets chain all _ (counts kind freqKhz bd holds)
  · exact holds

theorem classifier_invariant {property : Ss → Prop}
    (resets : ∀ reset bd, IsReset reset → property bd → property (reset bd))
    (records : ∀ kind bd, property bd → property (Ss.recordFrame kind bd))
    (counts : ∀ kind freqKhz bd, property bd → property (Ss.count kind freqKhz bd))
    (same : ∀ bd other : Ss, other.detectors = bd.detectors → other.past = bd.past →
      property bd → property other)
    (bd : Ss) (capture : Capture) (holds : property bd) : property (classifier bd capture) := by
  have clears : ∀ bd : Ss, property bd → property bd.resetNbCounters := by
    intro bd holds
    exact same bd bd.resetNbCounters rfl rfl holds
  have collected := collect_keeps capture bd
  have start := same bd (bd.collect capture).1 collected.1 collected.2 holds
  unfold classifier
  dsimp only
  generalize (bd.collect capture).1 = burst at start
  split
  · apply clears
    have looked := examine_keeps capture.timestamp burst
    unfold Ss.nbClassifier
    dsimp only
    generalize (burst.examine capture.timestamp).2 = found
    generalize (burst.examine capture.timestamp).1 = examined at looked
    apply detect_invariant resets counts isReset_cwa
    apply detect_invariant resets counts isReset_mwo
    apply detect_invariant resets counts isReset_bts
    apply detect_invariant resets counts isReset_bth
    apply detect_invariant resets counts isReset_cph
    apply record_invariant records
    exact same burst _ looked.1 looked.2.1 start
  · exact start

theorem Tracks.of_eq {other : Ss} (tracks : Tracks bd)
    (detectors : other.detectors = bd.detectors) (past : other.past = bd.past) : Tracks other := by
  constructor
  · rw [detectors, past]
    exact tracks.times
  · rw [detectors, past]
    exact tracks.counts

structure Honest (bd : Ss) : Prop where
  tracks : Tracks bd
  genuine : Justified Genuine bd.past

theorem Honest.resetNbCounters (honest : Honest bd) : Honest bd.resetNbCounters :=
  ⟨honest.tracks.of_eq rfl rfl, honest.genuine⟩

theorem nbClassifier_honest (honest : Honest bd) {timestamp : Int32}
    (seen : SeenRightly (bd.examine timestamp).2 bd) : Honest (bd.nbClassifier timestamp) := by
  obtain ⟨detectors, past, stop⟩ := examine_keeps timestamp bd
  unfold Ss.nbClassifier
  dsimp only
  generalize (bd.examine timestamp).2 = found at seen ⊢
  generalize (bd.examine timestamp).1 = examined at detectors past stop ⊢
  have tracks : Tracks { examined with bursts := examined.bursts + 1 } :=
    honest.tracks.of_eq detectors past
  have genuine : Justified Genuine { examined with bursts := examined.bursts + 1 }.past := by
    show Justified Genuine examined.past
    rw [past]
    exact honest.genuine
  have recorded : Consistent found _ _ := Consistent.record tracks genuine
  have hopped := recorded.detect_hoppers bd.detectedFrequencyKhz (by
    intro kind member known
    rcases seen kind member known with clear | ⟨filled, only⟩
    · left
      show ¬ Blind examined.currentBurstStop
      rwa [stop]
    · right
      refine ⟨?_, only⟩
      rw [honest.tracks.times kind] at filled
      have enough := full_of_blank_not_mem filled
      rw [length_map] at enough
      show _ ≤ (framesSince kind _).length
      rw [framesSince_record, if_pos known]
      show _ ≤ (framesSince kind examined.past ++ _).length
      rwa [past, length_append, length_singleton])
  have oven := Consistent.detectMwo hopped bd.detectedFrequencyKhz
  have tone := Consistent.detectCwa oven bd.detectedFrequencyKhz
  exact ⟨tone.tracks, tone.genuine⟩

theorem classifier_honest (bd : Ss) (capture : Capture) (sighted : Sighted bd capture)
    (honest : Honest bd) : Honest (classifier bd capture) := by
  obtain ⟨detectors, past⟩ := collect_keeps capture bd
  have collected : Honest (bd.collect capture).1 :=
    ⟨honest.tracks.of_eq detectors past, by rw [past]; exact honest.genuine⟩
  unfold classifier
  dsimp only
  split
  next check => exact (nbClassifier_honest collected (sighted check)).resetNbCounters
  next => exact collected

theorem initialize_honest (dynamicHt2040En dcIndex bChanInMhz lwrBandData : Int32) :
    Honest (msClassifierInitialize dynamicHt2040En dcIndex bChanInMhz lwrBandData) where
  tracks := ⟨fun _ => (slots_nil _ _).symm, fun _ => rfl⟩
  genuine := Justified.nil Genuine

theorem msInitClassifier_honest (cp : ClassifierParams) :
    Honest (msInitClassifier cp).1 ∧ Honest (msInitClassifier cp).2 := by
  refine ⟨initialize_honest _ _ _ _, ?_⟩
  unfold msInitClassifier
  dsimp only
  split <;> exact initialize_honest _ _ _ _

/-- In every run in which each checked burst is seen rightly, the counters tell how often
each interferer was counted, and every count of a hopper is genuine. -/
theorem counts_are_genuine (cp : ClassifierParams) (bd : Ss)
    (initially : bd = (msInitClassifier cp).1 ∨ bd = (msInitClassifier cp).2)
    (captures : List Capture) (sighted : Along classifier Sighted bd captures) :
    (∀ kind, ((run classifier bd captures).detectors kind).count =
      Int32.ofNat (timesCounted kind (run classifier bd captures).past)) ∧
    Justified Genuine (run classifier bd captures).past := by
  have start : Honest bd := by
    rcases initially with rfl | rfl
    · exact (msInitClassifier_honest cp).1
    · exact (msInitClassifier_honest cp).2
  have honest := sighted.invariant classifier_honest start
  exact ⟨honest.tracks.counts, honest.genuine⟩

def hop (start peakIndex : Int32) : List Capture :=
  [⟨start, start - 150, 10, 1, peakIndex⟩, ⟨start + 350, start, 10, 1, peakIndex⟩,
    ⟨start + 700, start + 350, 10, 1, peakIndex⟩, ⟨start + 750, start + 700, 0, 0, peakIndex⟩]

def channelOne : ClassifierParams := ⟨0, 28, 2432, 2412⟩

def hopping (start : Int32) : List Capture :=
  hop start 10 ++ hop (start + 900) 10 ++ hop (start + 1800) 20 ++ hop (start + 2700) 20

theorem counts_are_genuine_hopping :
    timesCounted .bts (run classifier (msInitClassifier channelOne).1
      (hopping 1000 ++ hop 4600 10 ++ hop 5500 10)).past = 1 ∧
    ((∀ kind, ((run classifier (msInitClassifier channelOne).1
        (hopping 1000 ++ hop 4600 10 ++ hop 5500 10)).detectors kind).count =
      Int32.ofNat (timesCounted kind (run classifier (msInitClassifier channelOne).1
        (hopping 1000 ++ hop 4600 10 ++ hop 5500 10)).past)) ∧
    Justified Genuine (run classifier (msInitClassifier channelOne).1
      (hopping 1000 ++ hop 4600 10 ++ hop 5500 10)).past) := by
  refine ⟨by decide +kernel, ?_⟩
  exact counts_are_genuine channelOne (msInitClassifier channelOne).1 (Or.inl rfl) _
    (by decide +kernel)

/-- After 2^30 microseconds the same bursts are counted at the first frame. -/
theorem counted_on_one_frame :
    ¬ ∀ captures : List Capture,
      Justified Genuine (run classifier (msInitClassifier channelOne).1 captures).past := by
  intro all
  have early : ∃ before frame freqKhz,
      (run classifier (msInitClassifier channelOne).1 (hopping 1073741824)).past.take 2 =
        before ++ [.counted .bts frame freqKhz] ∧
      (framesSince .bts before).length < Interferer.bts.minNumberOfFrames :=
    ⟨[.found .bts ⟨4, 1073745224⟩], ⟨4, 1073745224⟩, 2409500, by decide +kernel, by decide⟩
  obtain ⟨before, frame, freqKhz, front, few⟩ := early
  have split := take_append_drop 2
    (run classifier (msInitClassifier channelOne).1 (hopping 1073741824)).past
  rw [front, append_assoc, singleton_append] at split
  obtain ⟨earlier, window, whole, length, -, -⟩ :=
    all (hopping 1073741824) before (.counted .bts frame freqKhz) _ split.symm (by decide)
  rw [whole, length_append] at few
  omega

end AthApps.Spectral
