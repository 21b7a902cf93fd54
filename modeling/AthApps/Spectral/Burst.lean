import Mathlib.Data.List.Induction
import AthApps.Spectral.Classifier
import Mathlib.Algebra.Ring.Int.Defs

/-!
# What a burst adds up

`Ss` has the members of `struct ss` that decide what is counted.  A `Band` has
with them the sum of the signal strengths of the current burst and the strengths
that `nb_classifier` records, and keeps the calls since the counters were reset.
The sums and differences of the code are `int`s and wrap; what a burst should
add up to is said with integers that do not.
-/

set_option autoImplicit false

namespace AthApps.Spectral

open AthApps.Lib List Option

namespace Capture

def delay (capture : Capture) : Int := capture.timestamp.toInt - capture.lastCaptureTime.toInt

/-- The calls of `classifier` that are to extend a burst. -/
def Accepted (capture : Capture) : Prop :=
  (0 < capture.delay ∧ capture.delay < maximumSamplingInterval.toInt) ∧
    capture.narrowband = 1 ∧ capture.rssi > minimumRssi

/-- The calls that do, as the difference of the times is an `int`. -/
def Extends (capture : Capture) : Prop :=
  let delay := capture.timestamp - capture.lastCaptureTime
  (delay > 0 ∧ delay < maximumSamplingInterval) ∧
    capture.narrowband = 1 ∧ capture.rssi > minimumRssi

instance (capture : Capture) : Decidable capture.Accepted := inferInstanceAs (Decidable (_ ∧ _))

instance (capture : Capture) : Decidable capture.Extends := inferInstanceAs (Decidable (_ ∧ _))

variable {time earlier : Int32}

theorem toInt_delay (room : Int32.minValue.toInt ≤ time.toInt - earlier.toInt ∧
      time.toInt - earlier.toInt ≤ Int32.maxValue.toInt) :
    (time - earlier).toInt = time.toInt - earlier.toInt := by
  obtain ⟨low, high⟩ := room
  rw [Int32.toInt_sub]
  simp only [Int32.toInt_minValue, Int32.toInt_maxValue] at low high
  exact Int.bmod_eq_of_le (by omega) (by omega)

theorem toInt_delay_lt (big : Int32.maxValue.toInt < time.toInt - earlier.toInt) :
    (time - earlier).toInt < 0 := by
  have few := time.toInt_lt
  have many := earlier.le_toInt
  simp only [Int32.toInt_maxValue] at big
  rw [Int32.toInt_sub]
  unfold Int.bmod
  simp only [Nat.reducePow, Nat.cast_ofNat]
  split
  · omega
  · omega

theorem Accepted.extends {capture : Capture} (accepted : capture.Accepted) : capture.Extends := by
  obtain ⟨⟨after, soon⟩, signal⟩ := accepted
  have interval : maximumSamplingInterval.toInt = 500 := rfl
  have least : Int32.minValue.toInt = -2147483648 := rfl
  have most : Int32.maxValue.toInt = 2147483647 := rfl
  have delay : (capture.timestamp - capture.lastCaptureTime).toInt = capture.delay :=
    toInt_delay (by unfold Capture.delay at after soon; omega)
  refine ⟨⟨?_, ?_⟩, signal⟩
  · rw [gt_iff_lt, Int32.lt_iff_toInt_lt, delay]
    exact after
  · rw [Int32.lt_iff_toInt_lt, delay]
    exact soon

theorem Extends.accepted {capture : Capture} (extends_it : capture.Extends)
    (room : Int32.minValue.toInt ≤ capture.delay) : capture.Accepted := by
  obtain ⟨⟨after, soon⟩, signal⟩ := extends_it
  rw [gt_iff_lt, Int32.lt_iff_toInt_lt] at after
  rw [Int32.lt_iff_toInt_lt] at soon
  by_cases big : Int32.maxValue.toInt < capture.delay
  · exact absurd (toInt_delay_lt big) (Int.not_lt.mpr (Int.le_of_lt after))
  · rw [toInt_delay ⟨room, Int.not_lt.mp big⟩] at after soon
    exact ⟨⟨after, soon⟩, signal⟩

end Capture

/-- `rssi` is `x_rssi`; `calls` is no member of the source. -/
structure Band where
  ss : Ss
  currentBurstRssi : Int32
  rssi : Interferer → List Int32
  calls : List Capture

namespace Band

/-- The samples that count, and the ones that the code counts. -/
def accepted (band : Band) : List Capture := band.calls.filter fun call => call.Accepted

def counted (band : Band) : List Capture := band.calls.filter fun call => call.Extends

/-- A band that `memset` and `ms_classifier_initialize` prepared. -/
def start (ss : Ss) : Band := ⟨ss, 0, fun kind => List.replicate kind.minNumberOfFrames 0, []⟩

def resetNbCounters (band : Band) : Band :=
  { band with ss := band.ss.resetNbCounters, currentBurstRssi := 0, calls := [] }

def extendBurst (capture : Capture) (band : Band) : Band :=
  { band with
    ss := band.ss.extendBurst capture
    currentBurstRssi := band.currentBurstRssi + capture.rssi }

def endBurst (band : Band) : Band × Bool :=
  if band.ss.previousNb > minPreviousNb then (band, true) else (resetNbCounters band, false)

def hear (capture : Capture) (band : Band) : Band :=
  { band with calls := band.calls ++ [capture] }

def sample (capture : Capture) (band : Band) : Band × Bool :=
  let delay := capture.timestamp - capture.lastCaptureTime
  if delay > 0 ∧ delay < maximumSamplingInterval then
    if capture.narrowband = 1 ∧ capture.rssi > minimumRssi then (extendBurst capture band, false)
    else endBurst band
  else if delay > 0 then endBurst band
  else (band, false)

def dropFalseAlarm (band : Band) : Band × Bool :=
  let bd := band.ss
  let burstNotAtEdgeHt20 : Bool := bd.maxBin > 5 && bd.minBin < 52 && bd.dynamicHt2040En == 0
  let burstNotAtEdgeHt40 : Bool := bd.maxBin > 5 && bd.dynamicHt2040En == 1
  let (band, check) :=
    if burstNotAtEdgeHt20 || burstNotAtEdgeHt40 then (band, true)
    else (resetNbCounters band, false)
  let bd := band.ss
  if bd.dynamicHt2040En = 0 ∧ bd.maxBin < bd.dcIndex + 2 ∧ bd.minBin > bd.dcIndex - 2 then
    (resetNbCounters band, false)
  else (band, check)

/-- Everything in `classifier` up to the final burst check. -/
def collect (capture : Capture) (band : Band) : Band × Bool :=
  let (band, doBurstCheck) := sample capture (hear capture band)
  if doBurstCheck ∨ band.ss.currentBurstWidth > cwaWidthThreshold then dropFalseAlarm band
  else (band, false)

/-- The mean strength of the burst, but for an oven, where the source forgets to divide. -/
def recordedRssi (band : Band) : Interferer → Int32
  | .mwo => band.currentBurstRssi
  | _ => band.currentBurstRssi / band.ss.previousNb

/-- The part of the recording that `Ss.record` leaves out. -/
def recordRssi (found : Findings) (band : Band) : Interferer → List Int32 := fun kind =>
  if found.of kind then (band.rssi kind).tail ++ [band.recordedRssi kind] else band.rssi kind

def nbClassifier (timestamp : Int32) (band : Band) : Band :=
  { band with
    ss := band.ss.nbClassifier timestamp
    rssi := recordRssi (band.ss.examine timestamp).2 band }

def classifier (band : Band) (capture : Capture) : Band :=
  let (band, doBurstCheck) := band.collect capture
  if doBurstCheck then resetNbCounters (band.nbClassifier capture.timestamp) else band

def rssiSum (samples : List Capture) : Int := (samples.map fun capture => capture.rssi.toInt).sum

structure Tallies (ss : Ss) (samples : List Capture) : Prop where
  number : ss.previousNb.toInt = samples.length
  least : ∀ capture ∈ samples, ss.minBin ≤ capture.peakIndex
  greatest : ∀ capture ∈ samples, capture.peakIndex ≤ ss.maxBin
  least_is : ss.minBin = Int32.maxValue ∨ ∃ capture ∈ samples, capture.peakIndex = ss.minBin
  greatest_is : ss.maxBin = Int32.minValue ∨ ∃ capture ∈ samples, capture.peakIndex = ss.maxBin
  begins : ∀ capture ∈ samples.head?, ss.currentBurstStartTime = capture.timestamp
  stops : ∀ capture ∈ samples.getLast?, ss.currentBurstStop = capture.timestamp
  width : ss.currentBurstWidth =
    if samples.length < 2 then 0 else ss.currentBurstStop - ss.currentBurstStartTime

/-- The counter wraps after 2³¹ samples; the sum of the strengths may wrap any time. -/
structure Adding (band : Band) : Prop where
  tallies : band.counted.length < 2 ^ 31 → Tallies band.ss band.counted
  sum : band.currentBurstRssi = Int32.ofInt (rssiSum band.counted)

variable {band : Band} {samples : List Capture}

theorem counted_hear (capture : Capture) (band : Band) : (hear capture band).counted =
    if capture.Extends then band.counted ++ [capture] else band.counted := by
  by_cases extends_it : capture.Extends
  · simp [hear, counted, extends_it]
  · simp [hear, counted, extends_it]

theorem Adding.reset (cleared : band.ss.previousNb = 0 ∧ band.ss.maxBin = Int32.minValue ∧
      band.ss.minBin = Int32.maxValue ∧ band.ss.currentBurstWidth = 0)
    (empty : band.calls = []) (zero : band.currentBurstRssi = 0) : Adding band := by
  obtain ⟨number, greatest, least, width⟩ := cleared
  have none : band.counted = [] := by rw [counted, empty, filter_nil]
  refine ⟨fun _ => ?_, ?_⟩
  · constructor <;> simp [none, number, greatest, least, width]
  · rw [none, zero]
    rfl

theorem bin_extend {le : Int32 → Int32 → Prop} {none bin : Int32} {beats : Prop} [Decidable beats]
    (capture : Capture) (refl : le capture.peakIndex capture.peakIndex)
    (better : beats → ∀ other, le other bin → le other capture.peakIndex)
    (worse : ¬beats → le capture.peakIndex bin) (all : ∀ earlier ∈ samples, le earlier.peakIndex bin)
    (is_one : bin = none ∨ ∃ earlier ∈ samples, earlier.peakIndex = bin) :
    let next := if beats then capture.peakIndex else bin
    (∀ earlier ∈ samples ++ [capture], le earlier.peakIndex next) ∧
      (next = none ∨ ∃ earlier ∈ samples ++ [capture], earlier.peakIndex = next) := by
  intro next
  by_cases beaten : beats
  · have now : next = capture.peakIndex := if_pos beaten
    rw [now]
    refine ⟨fun other met => ?_, .inr ⟨capture, by simp, rfl⟩⟩
    rcases mem_append.mp met with earlier | last
    · exact better beaten _ (all other earlier)
    · rwa [mem_singleton.mp last]
  · have now : next = bin := if_neg beaten
    rw [now]
    refine ⟨fun other met => ?_, is_one.imp_right fun ⟨earlier, met, same⟩ =>
      ⟨earlier, mem_append_left _ met, same⟩⟩
    rcases mem_append.mp met with earlier | last
    · exact all other earlier
    · rw [mem_singleton.mp last]
      exact worse beaten

theorem Tallies.extend {ss : Ss} (tallies : Tallies ss samples) (capture : Capture)
    (few : samples.length + 1 < 2 ^ 31) :
    Tallies (ss.extendBurst capture) (samples ++ [capture]) := by
  have number : (ss.previousNb + 1).toInt = samples.length + 1 := by
    rw [Int32.toInt_add, tallies.number]
    exact Int.bmod_eq_of_le (by simp; omega) (by simp; omega)
  have first_iff : ss.previousNb + 1 = 1 ↔ samples = [] := by
    rw [← Int32.toInt_inj, number, show (1 : Int32).toInt = 1 from rfl, ← length_eq_zero_iff]
    omega
  obtain ⟨greatest, greatest_is⟩ := bin_extend capture (Int32.le_refl _)
    (fun higher _ below => Int32.le_trans below (Int32.le_of_lt higher)) Int32.not_lt.mp
    tallies.greatest tallies.greatest_is
  obtain ⟨least, least_is⟩ := @bin_extend _ (fun first second => second ≤ first) _ _ _ _ capture
    (Int32.le_refl _) (fun lower _ above => Int32.le_trans (Int32.le_of_lt lower) above)
    Int32.not_lt.mp tallies.least tallies.least_is
  refine ⟨?_, least, greatest, least_is, greatest_is, ?_, ?_, ?_⟩
  · simp [Ss.extendBurst, number]
  · intro oldest head
    by_cases first : samples = []
    · simp only [first, nil_append, head?_cons, mem_some_iff] at head
      simp [Ss.extendBurst, first_iff, first, head]
    · simp only [Ss.extendBurst, first_iff, first, if_false]
      refine tallies.begins oldest ?_
      rwa [← head?_append_of_ne_nil _ first]
  · intro latest last
    simp only [getLast?_append, getLast?_singleton, some_or, mem_some_iff] at last
    simp [Ss.extendBurst, last]
  · by_cases first : samples = []
    · simp [Ss.extendBurst, first_iff, first, tallies.width]
    · have more : ¬ (samples ++ [capture]).length < 2 := by
        have some := length_pos_iff.mpr first
        simp only [length_append, length_singleton]
        omega
      simp only [Ss.extendBurst, first_iff, first, if_false, more]

variable {capture : Capture}

theorem Adding.extend (adding : Adding band) (extends_it : capture.Extends) :
    Adding (extendBurst capture (hear capture band)) := by
  obtain ⟨tallies, sum⟩ := adding
  have more : (extendBurst capture (hear capture band)).counted = band.counted ++ [capture] := by
    have heard := counted_hear capture band
    rwa [if_pos extends_it] at heard
  refine ⟨fun few => ?_, ?_⟩
  · rw [more] at few ⊢
    simp only [length_append, length_singleton] at few
    exact (tallies (by omega)).extend capture few
  · rw [more]
    simp only [extendBurst, hear, rssiSum, map_append, sum_append, map_cons, map_nil,
      sum_cons, sum_nil, Int.add_zero, Int32.ofInt_add, Int32.ofInt_toInt]
    rw [sum, rssiSum]

theorem Adding.hear (adding : Adding band) (ignored : ¬ capture.Extends) :
    Adding (hear capture band) := by
  obtain ⟨tallies, sum⟩ := adding
  have same : (Band.hear capture band).counted = band.counted := by
    rw [counted_hear, if_neg ignored]
  refine ⟨?_, ?_⟩
  · rw [same]
    exact tallies
  · rw [same]
    exact sum

theorem Adding.resetNbCounters (band : Band) : Adding (resetNbCounters band) :=
  .reset ⟨rfl, rfl, rfl, rfl⟩ rfl rfl

theorem sample_ignored (ignored : ¬ capture.Extends) (band : Band) :
    sample capture band = (band, false) ∨ sample capture band = (resetNbCounters band, false) ∨
      (sample capture band = (band, true) ∧ band.ss.previousNb > minPreviousNb) := by
  have ends : endBurst band = (resetNbCounters band, false) ∨
      (endBurst band = (band, true) ∧ band.ss.previousNb > minPreviousNb) := by
    unfold endBurst
    split
    next several => exact .inr ⟨rfl, several⟩
    next single => exact .inl rfl
  rw [sample]
  split
  next sampling =>
    rw [if_neg fun signal => ignored ⟨sampling, signal⟩]
    exact .inr ends
  next =>
    split
    · exact .inr ends
    · exact .inl rfl

theorem sample_extends (extends_it : capture.Extends) (band : Band) :
    sample capture band = (extendBurst capture band, false) := by
  unfold sample
  rw [if_pos extends_it.1, if_pos extends_it.2]

theorem Adding.sample (adding : Adding band) (capture : Capture) :
    Adding (sample capture (Band.hear capture band)).1 := by
  by_cases extends_it : capture.Extends
  · rw [sample_extends extends_it]
    exact adding.extend extends_it
  · rcases sample_ignored extends_it (Band.hear capture band) with same | reset | ⟨check, _⟩
    · rw [same]
      exact adding.hear extends_it
    · rw [reset]
      exact .resetNbCounters _
    · rw [check]
      exact adding.hear extends_it

theorem dropFalseAlarm_cases (band : Band) :
    dropFalseAlarm band = (band, true) ∨ ∃ dropped, dropFalseAlarm band = (dropped, false) ∧
      (dropped = resetNbCounters band ∨ dropped = resetNbCounters (resetNbCounters band)) := by
  unfold dropFalseAlarm
  simp only
  split
  · split
    · exact .inr ⟨_, rfl, .inl rfl⟩
    · exact .inl rfl
  · split
    · exact .inr ⟨_, rfl, .inr rfl⟩
    · exact .inr ⟨_, rfl, .inl rfl⟩

theorem Adding.collect (adding : Adding band) (capture : Capture) :
    Adding (band.collect capture).1 := by
  unfold Band.collect
  simp only
  split
  · rcases dropFalseAlarm_cases (Band.sample capture (Band.hear capture band)).1 with
      same | ⟨dropped, result, rfl | rfl⟩
    · rw [same]
      exact adding.sample capture
    · rw [result]
      exact .resetNbCounters _
    · rw [result]
      exact .resetNbCounters _
  · exact adding.sample capture

theorem Adding.classifier (adding : Adding band) (capture : Capture) :
    Adding (band.classifier capture) := by
  unfold Band.classifier
  simp only
  split
  · exact .resetNbCounters _
  · exact adding.collect capture

/-- What the accumulators stand for when a burst is looked at. -/
structure IsBurst (band : Band) : Prop where
  several : 2 ≤ band.ss.previousNb.toInt
  number : band.ss.previousNb.toInt = band.accepted.length
  least : (∃ capture ∈ band.accepted, capture.peakIndex = band.ss.minBin) ∧
    ∀ capture ∈ band.accepted, band.ss.minBin ≤ capture.peakIndex
  greatest : (∃ capture ∈ band.accepted, capture.peakIndex = band.ss.maxBin) ∧
    ∀ capture ∈ band.accepted, capture.peakIndex ≤ band.ss.maxBin
  sum : band.currentBurstRssi.toInt = rssiSum band.accepted
  begins : ∀ capture ∈ band.accepted.head?, band.ss.currentBurstStartTime = capture.timestamp
  stops : ∀ capture ∈ band.accepted.getLast?, band.ss.currentBurstStop = capture.timestamp
  width : band.ss.currentBurstWidth.toInt =
    band.ss.currentBurstStop.toInt - band.ss.currentBurstStartTime.toInt
  means : ∀ kind, minimumRssi < band.recordedRssi kind

/-- The delays of the calls that the code counts, the strengths of the samples and the times of
the first and the last of them differ and add up within an `int`. -/
structure InRange (band : Band) : Prop where
  delays : ∀ call ∈ band.counted, Int32.minValue.toInt ≤ call.delay
  sum : rssiSum band.accepted ≤ Int32.maxValue.toInt
  width : ∀ first ∈ band.accepted.head?, ∀ last ∈ band.accepted.getLast?,
    Int32.minValue.toInt ≤ last.timestamp.toInt - first.timestamp.toInt ∧
      last.timestamp.toInt - first.timestamp.toInt ≤ Int32.maxValue.toInt

theorem rssiSum_ge (strong : ∀ capture ∈ samples, capture.rssi > minimumRssi) :
    6 * (samples.length : Int) ≤ rssiSum samples := by
  induction samples with
  | nil => exact Int.le_refl _
  | cons capture rest ih =>
    have strength := Int32.lt_iff_toInt_lt.mp (strong capture (by simp))
    have others := ih fun later met => strong later (by simp [met])
    have bound : minimumRssi.toInt = 5 := rfl
    simp only [rssiSum, map_cons, sum_cons, length_cons] at others ⊢
    omega

theorem accepted_eq (band : Band) :
    band.accepted = band.counted.filter fun call => call.Accepted := by
  rw [accepted, counted, List.filter_filter]
  refine filter_congr fun call _ => ?_
  by_cases accepted : call.Accepted
  · simp [accepted, accepted.extends]
  · simp [accepted]

/-- No call is counted that should not be as soon as none is missing. -/
theorem accepted_eq_counted (number : band.accepted.length = band.counted.length) :
    band.accepted = band.counted := by
  rw [accepted_eq] at number ⊢
  exact filter_sublist.eq_of_length number

theorem InRange.same (range : InRange band) : band.accepted = band.counted := by
  rw [accepted_eq, filter_eq_self]
  intro call met
  have extends_it : call.Extends := by simpa using (mem_filter.mp met).2
  exact decide_eq_true (extends_it.accepted (range.delays call met))

theorem several_of_enters (adding : Adding band) (enters : (band.collect capture).2 = true)
    (few : (band.collect capture).1.counted.length < 2 ^ 31) :
    2 ≤ (band.collect capture).1.counted.length := by
  have sampled := adding.sample capture
  unfold Band.collect at enters few ⊢
  simp only at enters few ⊢
  split at enters
  next checked =>
    rw [if_pos checked] at few ⊢
    rcases dropFalseAlarm_cases (Band.sample capture (Band.hear capture band)).1 with
      same | ⟨dropped, result, _⟩
    · rw [same] at few ⊢
      have tallies := sampled.tallies few
      refine Nat.not_lt.mp fun short => ?_
      rcases checked with check | wide
      · by_cases extends_it : capture.Extends
        · simp [sample_extends extends_it] at check
        · rcases sample_ignored extends_it (Band.hear capture band) with
            same | reset | ⟨ends, several⟩
          · simp [same] at check
          · simp [reset] at check
          · rw [ends] at tallies short
            have number := tallies.number
            have more := Int32.lt_iff_toInt_lt.mp several
            have one : minPreviousNb.toInt = 1 := rfl
            simp only at short number
            omega
      · rw [tallies.width, if_pos short] at wide
        exact absurd wide (by decide)
    · rw [result] at enters
      cases enters
  next => cases enters

theorem accepted_strong : ∀ capture ∈ band.accepted, capture.rssi > minimumRssi := by
  intro capture met
  have accepted : capture.Accepted := by simpa using (mem_filter.mp met).2
  exact accepted.2.2

theorem Tallies.mean_gt {ss : Ss} {currentBurstRssi : Int32} (tallies : Tallies ss samples)
    (two : 2 ≤ samples.length) (sum : currentBurstRssi.toInt = rssiSum samples)
    (strong : ∀ capture ∈ samples, capture.rssi > minimumRssi) :
    minimumRssi < currentBurstRssi / ss.previousNb := by
  have least_sum := rssiSum_ge strong
  have nonneg : ss.previousNb ≠ -1 := by
    intro wrapped
    have value := tallies.number
    rw [wrapped, show (-1 : Int32).toInt = -1 from rfl] at value
    omega
  have divided : (currentBurstRssi / ss.previousNb).toInt = rssiSum samples / samples.length := by
    rw [Int32.toInt_div_of_ne_right _ _ nonneg, sum, tallies.number]
    exact Int.tdiv_eq_ediv_of_nonneg (by omega)
  rw [Int32.lt_iff_toInt_lt, divided, show minimumRssi.toInt = 5 from rfl]
  exact Int.lt_of_lt_of_le (by omega) (Int.le_ediv_of_mul_le (by omega) least_sum)

theorem InRange.isBurst (range : InRange band) (adding : Adding band)
    (several : band.counted.length < 2 ^ 31 → 2 ≤ band.counted.length) : IsBurst band := by
  have least_sum := rssiSum_ge (@accepted_strong band)
  have most : Int32.maxValue.toInt = 2147483647 := rfl
  have room := range.sum
  have few : band.accepted.length < 2 ^ 31 := by omega
  rw [← range.same] at several
  have two := several few
  have tallies := range.same ▸ adding.tallies (range.same ▸ few)
  have sum : band.currentBurstRssi.toInt = rssiSum band.accepted := by
    rw [adding.sum, ← range.same, Int32.toInt_ofInt_of_le (by omega) (by omega)]
  have mean := tallies.mean_gt two sum accepted_strong
  have total : minimumRssi < band.currentBurstRssi := by
    rw [Int32.lt_iff_toInt_lt, sum, show minimumRssi.toInt = 5 from rfl]
    omega
  obtain ⟨oldest, others, split⟩ :=
    exists_cons_of_length_pos (show 0 < band.accepted.length by omega)
  have member : oldest ∈ band.accepted := by simp [split]
  refine ⟨?_, tallies.number, ⟨?_, tallies.least⟩, ⟨?_, tallies.greatest⟩, sum, tallies.begins,
    tallies.stops, ?_, ?_⟩
  · rw [tallies.number]
    omega
  · refine tallies.least_is.elim (fun none => ⟨oldest, member, ?_⟩) id
    exact Int32.le_antisymm (none ▸ Int32.le_maxValue _) (tallies.least oldest member)
  · refine tallies.greatest_is.elim (fun none => ⟨oldest, member, ?_⟩) id
    exact Int32.le_antisymm (tallies.greatest oldest member) (none ▸ Int32.minValue_le _)
  · have first : oldest ∈ band.accepted.head? := by simp [split]
    obtain ⟨newest, last⟩ := ne_none_iff_exists'.mp
      (mt getLast?_eq_none_iff.mp (ne_nil_of_mem member))
    rw [tallies.width, if_neg (by omega)]
    refine Capture.toInt_delay ?_
    rw [tallies.begins oldest first, tallies.stops newest last]
    exact range.width oldest first newest last
  · intro kind
    cases kind with
    | mwo => exact total
    | cph => exact mean
    | bth => exact mean
    | bts => exact mean
    | cwa => exact mean

theorem IsBurst.inRange (burst : IsBurst band) (adding : Adding band)
    (few : band.counted.length < 2 ^ 31) : InRange band := by
  have most : Int32.maxValue.toInt = 2147483647 := rfl
  have least : Int32.minValue.toInt = -2147483648 := rfl
  have same : band.accepted = band.counted := by
    have number := (adding.tallies few).number
    rw [burst.number] at number
    exact accepted_eq_counted (by omega)
  refine ⟨fun call met => ?_, ?_, fun first head last tail => ?_⟩
  · rw [← same] at met
    have accepted : call.Accepted := by simpa using (mem_filter.mp met).2
    have after := accepted.1.1
    omega
  · rw [← burst.sum]
    exact Int32.toInt_le _
  · rw [← burst.begins first head, ← burst.stops last tail, ← burst.width]
    exact ⟨Int32.minValue_le_toInt _, Int32.toInt_le _⟩

theorem Adding.run {ss : Ss} (cleared : ss.previousNb = 0 ∧ ss.maxBin = Int32.minValue ∧
      ss.minBin = Int32.maxValue ∧ ss.currentBurstWidth = 0) (captures : List Capture) :
    Adding (Lib.run Band.classifier (start ss) captures) := by
  have initially : Adding (start ss) := .reset cleared rfl rfl
  exact (Along.trivial (start ss) captures).invariant
    (fun _ capture _ adding => adding.classifier capture) initially

end Band

/-- Whenever `nb_classifier` is entered, on either band, the accumulators stand for the burst if
no delay, sum or width leaves the `int`s; with less than 2³¹ samples, only if none does. -/
theorem nbClassifier_burst (cp : ClassifierParams) (captures : List Capture) (capture : Capture)
    (ss : Ss) (initial : ss = (msInitClassifier cp).1 ∨ ss = (msInitClassifier cp).2)
    (enters : ((run Band.classifier (Band.start ss) captures).collect capture).2 = true) :
    let band := ((run Band.classifier (Band.start ss) captures).collect capture).1
    (Band.InRange band → Band.IsBurst band) ∧
      (band.counted.length < 2 ^ 31 → Band.IsBurst band → Band.InRange band) := by
  have cleared : ss.previousNb = 0 ∧ ss.maxBin = Int32.minValue ∧
      ss.minBin = Int32.maxValue ∧ ss.currentBurstWidth = 0 := by
    rcases initial with rfl | rfl
    · exact ⟨rfl, rfl, rfl, rfl⟩
    · unfold msInitClassifier
      simp only
      split
      · exact ⟨rfl, rfl, rfl, rfl⟩
      · exact ⟨rfl, rfl, rfl, rfl⟩
  have adding := Band.Adding.run cleared captures
  have collected := adding.collect capture
  exact ⟨fun range => range.isBurst collected (Band.several_of_enters adding enters),
    fun few burst => burst.inRange collected few⟩

def twoSamples (start rssi : Int32) : Band × Bool :=
  (run Band.classifier (Band.start (msInitClassifier ⟨0, 28, 2432, 2412⟩).1)
    [⟨start, start - 100, rssi, 1, 10⟩, ⟨start + 100, start, rssi, 1, 10⟩]).collect
      ⟨start + 200, start + 100, 0, 0, 0⟩

/-- The clock passes the greatest `int` between two samples: the code counts two where one is
accepted.  Two samples of the greatest strength have a sum of -2. -/
theorem clock_wraps :
    ((twoSamples 2147483600 20).2 = true ∧ (twoSamples 2147483600 20).1.ss.previousNb = 2 ∧
      (twoSamples 2147483600 20).1.accepted.length = 1 ∧
      ¬ Band.IsBurst (twoSamples 2147483600 20).1) ∧
    (twoSamples 200 2147483647).2 = true ∧ (twoSamples 200 2147483647).1.recordedRssi .cph = -1 ∧
      ¬ Band.IsBurst (twoSamples 200 2147483647).1 := by
  have number : (twoSamples 2147483600 20).1.ss.previousNb = 2 := by decide
  have one : (twoSamples 2147483600 20).1.accepted.length = 1 := by decide
  have mean : (twoSamples 200 2147483647).1.recordedRssi .cph = -1 := by decide
  refine ⟨⟨by decide, number, one, fun burst => ?_⟩, by decide, mean, fun burst => ?_⟩
  · have counts := burst.number
    rw [number, one] at counts
    exact absurd counts (by decide)
  · have means := burst.means .cph
    rw [mean] at means
    exact absurd means (by decide)

theorem weak_samples_add_up : Band.IsBurst (twoSamples 200 20).1 :=
  (nbClassifier_burst ⟨0, 28, 2432, 2412⟩ [⟨200, 200 - 100, 20, 1, 10⟩, ⟨200 + 100, 200, 20, 1, 10⟩]
    ⟨200 + 200, 200 + 100, 0, 0, 0⟩ _ (.inl rfl) (by decide)).1
    ⟨by decide, by decide, by decide⟩

end AthApps.Spectral
