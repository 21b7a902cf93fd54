import Mathlib.Data.List.Induction
import AthApps.Lib.Trace
import Mathlib.Algebra.Group.Int.Defs
import Mathlib.Algebra.Group.Nat.Defs

/-!
# The decision to leave a channel

While it monitors a channel, the daemon calls `is_dynamic_chan_change_reqd`
with each report.  A load over the running average opens a streak, and a
report more than `global_cload_timeout` after its opening asks for another
channel.  The time of the opening is also the mark of a streak: it is 0 when
there is none, and is looked at only when positive.

`Monitor` keeps the reports with the average each of them met, newest first.
-/

set_option autoImplicit false

namespace AthApps.Spectral

open AthApps.Lib List

def globalCloadTimeout : Int32 := 10000000

/-- The static variables of `spectral_daemon_eacs.c`. -/
structure Eacs where
  avgChanLoad : Int32
  numScanReports : Int32
  tstampStartHigherLoad : Int32
  deriving DecidableEq

structure Report where
  chanLoad : Int32
  tstamp : Int32
  deriving DecidableEq

namespace Eacs

def startEacsMonitorScan : Eacs := ⟨30, 0, 0⟩

def addToAverage (chanLoad : Int32) (eacs : Eacs) : Eacs :=
  let total := if eacs.avgChanLoad ≠ 0 then eacs.avgChanLoad * eacs.numScanReports
    else eacs.avgChanLoad
  { eacs with
    avgChanLoad := (total + chanLoad) / (eacs.numScanReports + 1)
    numScanReports := eacs.numScanReports + 1 }

def isDynamicChanChangeReqd (report : Report) (eacs : Eacs) : Eacs × Bool :=
  if report.chanLoad > eacs.avgChanLoad then
    if eacs.tstampStartHigherLoad > 0 ∧
        report.tstamp - eacs.tstampStartHigherLoad > globalCloadTimeout then
      (eacs, true)
    else if eacs.tstampStartHigherLoad = 0 then
      (addToAverage report.chanLoad { eacs with tstampStartHigherLoad := report.tstamp }, false)
    else (addToAverage report.chanLoad eacs, false)
  else (addToAverage report.chanLoad { eacs with tstampStartHigherLoad := 0 }, false)

end Eacs

/-- A report, the running average when it came, and what the call returned. -/
structure Call where
  report : Report
  average : Int32
  returned : Bool
  deriving DecidableEq

def Call.Over (call : Call) : Prop := call.average.toInt < call.report.chanLoad.toInt

instance (call : Call) : Decidable call.Over := inferInstanceAs (Decidable (_ < _))

structure Monitor where
  eacs : Eacs
  past : List Call

namespace Monitor

def start : Monitor := ⟨Eacs.startEacsMonitorScan, []⟩

def call (monitor : Monitor) (report : Report) : Call :=
  ⟨report, monitor.eacs.avgChanLoad, (monitor.eacs.isDynamicChanChangeReqd report).2⟩

def step (monitor : Monitor) (report : Report) : Monitor :=
  ⟨(monitor.eacs.isDynamicChanChangeReqd report).1, monitor.call report :: monitor.past⟩

end Monitor

/-- The loads from some report on were over the average, and that report came more than the
timeout before this one. -/
def Persists (now : Call) (past : List Call) : Prop :=
  ∃ (between : List Call) (opening : Call) (before : List Call),
    past = between ++ opening :: before ∧
    now.Over ∧ (∀ call ∈ between, call.Over) ∧ opening.Over ∧
    globalCloadTimeout.toInt < now.report.tstamp.toInt - opening.report.tstamp.toInt

/-- What is reported: loads are percentages and the times increase. -/
structure Proper (reports : List Report) : Prop where
  loads : ∀ report ∈ reports, 0 ≤ report.chanLoad.toInt ∧ report.chanLoad.toInt ≤ 100
  increasing : reports.Pairwise (fun earlier later => earlier.tstamp.toInt < later.tstamp.toInt)
  span : ∀ earlier ∈ reports, ∀ later ∈ reports, later.tstamp.toInt - earlier.tstamp.toInt < 2 ^ 31
  few : reports.length < 2 ^ 24

def OpensAfterZero (monitor : Monitor) (report : Report) : Prop :=
  (monitor.call report).Over → (∀ last ∈ monitor.past.head?, ¬ last.Over) → 0 < report.tstamp.toInt

instance (monitor : Monitor) (report : Report) : Decidable (OpensAfterZero monitor report) :=
  inferInstanceAs (Decidable (_ → _ → _))

theorem average_between {average count load low high : Int} (counted : 0 ≤ count)
    (average_in : count = 0 ∨ (low ≤ average ∧ average ≤ high))
    (load_in : low ≤ load ∧ load ≤ high) :
    low ≤ (average * count + load) / (count + 1) ∧
      (average * count + load) / (count + 1) ≤ high := by
  obtain ⟨low_le, le_high⟩ := load_in
  have bounds : low * count ≤ average * count ∧ average * count ≤ high * count := by
    rcases average_in with none | ⟨above, below⟩
    · simp [none]
    · exact ⟨Int.mul_le_mul_of_nonneg_right above counted,
        Int.mul_le_mul_of_nonneg_right below counted⟩
  constructor
  · refine Int.le_ediv_of_mul_le (by omega) ?_
    rw [Int.mul_add]
    omega
  · refine Int.ediv_le_of_le_mul (by omega) ?_
    rw [Int.mul_add]
    omega

namespace Eacs

theorem bmod_small {value : Int} (low : 0 ≤ value) (high : value < 2 ^ 31) :
    value.bmod (2 ^ 32) = value :=
  Int.bmod_eq_of_le (by omega) (by omega)

theorem addToAverage_toInt {chanLoad : Int32} {eacs : Eacs}
    (average : 0 ≤ eacs.avgChanLoad.toInt ∧ eacs.avgChanLoad.toInt ≤ 100)
    (reports : 0 ≤ eacs.numScanReports.toInt ∧ eacs.numScanReports.toInt < 2 ^ 24)
    (load : 0 ≤ chanLoad.toInt ∧ chanLoad.toInt ≤ 100) :
    (addToAverage chanLoad eacs).avgChanLoad.toInt =
        (eacs.avgChanLoad.toInt * eacs.numScanReports.toInt + chanLoad.toInt) /
          (eacs.numScanReports.toInt + 1) ∧
      (addToAverage chanLoad eacs).numScanReports.toInt = eacs.numScanReports.toInt + 1 := by
  obtain ⟨average_low, average_high⟩ := average
  obtain ⟨reports_low, reports_high⟩ := reports
  obtain ⟨load_low, load_high⟩ := load
  have product_low : 0 ≤ eacs.avgChanLoad.toInt * eacs.numScanReports.toInt :=
    Int.mul_nonneg average_low reports_low
  have product_high :
      eacs.avgChanLoad.toInt * eacs.numScanReports.toInt ≤ 100 * eacs.numScanReports.toInt :=
    Int.mul_le_mul_of_nonneg_right average_high reports_low
  have next : (eacs.numScanReports + 1).toInt = eacs.numScanReports.toInt + 1 := by
    rw [Int32.toInt_add, show (1 : Int32).toInt = 1 from rfl]
    exact bmod_small (by omega) (by omega)
  refine ⟨?_, next⟩
  have total : (if eacs.avgChanLoad ≠ 0 then eacs.avgChanLoad * eacs.numScanReports
      else eacs.avgChanLoad).toInt = eacs.avgChanLoad.toInt * eacs.numScanReports.toInt := by
    split
    next =>
      rw [Int32.toInt_mul]
      exact bmod_small product_low (by omega)
    next zero =>
      rw [not_not.mp zero]
      simp
  have sum : ((if eacs.avgChanLoad ≠ 0 then eacs.avgChanLoad * eacs.numScanReports
      else eacs.avgChanLoad) + chanLoad).toInt =
      eacs.avgChanLoad.toInt * eacs.numScanReports.toInt + chanLoad.toInt := by
    rw [Int32.toInt_add, total]
    exact bmod_small (by omega) (by omega)
  have divisor : eacs.numScanReports + 1 ≠ -1 := by
    intro wrapped
    have value := congrArg Int32.toInt wrapped
    rw [next, show (-1 : Int32).toInt = -1 from rfl] at value
    omega
  rw [addToAverage, Int32.toInt_div_of_ne_right _ _ divisor, sum, next]
  exact Int.tdiv_eq_ediv_of_nonneg (by omega)

end Eacs

inductive Marks : Int32 → List Call → Prop
  | idle {past : List Call} (still : ∀ last ∈ past.head?, ¬ last.Over) : Marks 0 past
  | streak (between : List Call) (opening : Call) (before : List Call)
      (high : ∀ call ∈ between, call.Over) (opens : opening.Over)
      (still : ∀ last ∈ before.head?, ¬ last.Over)
      (positive : 0 < opening.report.tstamp.toInt) :
      Marks opening.report.tstamp (between ++ opening :: before)

def Monitor.Marked (monitor : Monitor) : Prop :=
  Marks monitor.eacs.tstampStartHigherLoad monitor.past

def counted (past : List Call) : List Call := past.filter (fun call => !call.returned)

structure Averaging (monitor : Monitor) : Prop where
  percent : 0 ≤ monitor.eacs.avgChanLoad.toInt ∧ monitor.eacs.avgChanLoad.toInt ≤ 100
  count : monitor.eacs.numScanReports.toInt = (counted monitor.past).length
  between : ∀ low high : Int, (∀ call ∈ counted monitor.past,
      low ≤ call.report.chanLoad.toInt ∧ call.report.chanLoad.toInt ≤ high) →
    counted monitor.past = [] ∨
      (low ≤ monitor.eacs.avgChanLoad.toInt ∧ monitor.eacs.avgChanLoad.toInt ≤ high)

/-- A call either asks for another channel and changes nothing, or averages the report. -/
theorem isDynamicChanChangeReqd_cases (report : Report) (eacs : Eacs) :
    eacs.isDynamicChanChangeReqd report = (eacs, true) ∨
      ∃ mark : Int32, eacs.isDynamicChanChangeReqd report =
        (Eacs.addToAverage report.chanLoad { eacs with tstampStartHigherLoad := mark }, false) := by
  unfold Eacs.isDynamicChanChangeReqd
  split
  · split
    · exact .inl rfl
    · split
      · exact .inr ⟨_, rfl⟩
      · exact .inr ⟨eacs.tstampStartHigherLoad, rfl⟩
  · exact .inr ⟨_, rfl⟩

theorem Averaging.step {monitor : Monitor} {report : Report} (averaging : Averaging monitor)
    (load : 0 ≤ report.chanLoad.toInt ∧ report.chanLoad.toInt ≤ 100)
    (few : monitor.past.length < 2 ^ 24) : Averaging (monitor.step report) := by
  obtain ⟨percent, count, between⟩ := averaging
  have room : (counted monitor.past).length < 2 ^ 24 :=
    Nat.lt_of_le_of_lt (length_filter_le _ _) few
  rcases isDynamicChanChangeReqd_cases report monitor.eacs with asks | ⟨mark, averages⟩
  · have same : counted (monitor.step report).past = counted monitor.past := by
      simp [Monitor.step, Monitor.call, counted, asks]
    have kept : (monitor.step report).eacs = monitor.eacs := by simp [Monitor.step, asks]
    constructor
    · rwa [kept]
    · rwa [kept, same]
    · rwa [kept, same]
  · have more : counted (monitor.step report).past =
        monitor.call report :: counted monitor.past := by
      simp [Monitor.step, Monitor.call, counted, averages]
    have after : (monitor.step report).eacs = Eacs.addToAverage report.chanLoad
          { monitor.eacs with tstampStartHigherLoad := mark } := by
      simp [Monitor.step, averages]
    have reports : 0 ≤ monitor.eacs.numScanReports.toInt ∧
        monitor.eacs.numScanReports.toInt < 2 ^ 24 := by omega
    obtain ⟨average, next⟩ := @Eacs.addToAverage_toInt report.chanLoad
      { monitor.eacs with tstampStartHigherLoad := mark } percent reports load
    simp only at average next
    constructor
    · rw [after, average]
      exact average_between (by omega) (.inr percent) load
    · rw [after, next, more, count]
      simp
    · intro low high bounds
      rw [more] at bounds
      rw [after, average]
      refine .inr (average_between (by omega) ?_ (bounds _ (mem_cons_self ..)))
      rcases between low high (fun call met => bounds call (mem_cons_of_mem _ met)) with
        none | inside
      · left
        rw [count, none]
        rfl
      · exact .inr inside

theorem not_still {between before : List Call} {opening : Call}
    (high : ∀ call ∈ between, call.Over) (opens : opening.Over) :
    ¬ ∀ last ∈ (between ++ opening :: before).head?, ¬ last.Over := by
  intro still
  cases between with
  | nil => exact still opening rfl opens
  | cons last rest => exact still last rfl (high last (mem_cons_self ..))

/-- While the times increase, a streak asks for another channel exactly when it persists. -/
theorem persists_iff {mark : Int32} {past : List Call} (marks : Marks mark past) {now : Call}
    (increasing : past.Pairwise
      (fun later earlier => earlier.report.tstamp.toInt < later.report.tstamp.toInt))
    (after : ∀ call ∈ past, call.report.tstamp.toInt < now.report.tstamp.toInt)
    (span : ∀ call ∈ past, now.report.tstamp.toInt - call.report.tstamp.toInt < 2 ^ 31) :
    Persists now past ↔ now.Over ∧ mark > 0 ∧ now.report.tstamp - mark > globalCloadTimeout := by
  cases marks with
  | idle still =>
    constructor
    · rintro ⟨between, opening, before, rfl, _, high, opens, _⟩
      exact absurd still (not_still high opens)
    · rintro ⟨_, positive, _⟩
      exact absurd positive (Int32.lt_irrefl)
  | streak between opening before high opens still positive =>
    have member : opening ∈ between ++ opening :: before := by simp
    have difference : (now.report.tstamp - opening.report.tstamp).toInt =
        now.report.tstamp.toInt - opening.report.tstamp.toInt := by
      have later := after opening member
      rw [Int32.toInt_sub]
      exact Eacs.bmod_small (by omega) (span opening member)
    have marked : opening.report.tstamp > 0 := Int32.lt_iff_toInt_lt.mpr positive
    rw [gt_iff_lt, gt_iff_lt, Int32.lt_iff_toInt_lt (x := globalCloadTimeout), difference]
    constructor
    · rintro ⟨since, first, others, split, over_now, highs, first_over, long⟩
      refine ⟨over_now, marked, ?_⟩
      have no_earlier : opening.report.tstamp.toInt ≤ first.report.tstamp.toInt := by
        rcases append_eq_append_iff.mp split with ⟨more, rfl, rest⟩ | ⟨more, rfl, rest⟩
        · cases more with
          | nil =>
            obtain ⟨rfl, -⟩ := List.cons.inj rest
            exact Int.le_refl _
          | cons head tail =>
            -- the report lies before the streak: it was followed by a low load
            obtain ⟨rfl, rfl⟩ := List.cons.inj rest
            have highs : ∀ call ∈ tail, call.Over := fun call met => highs call (by simp [met])
            exact absurd still (not_still highs first_over)
        · cases more with
          | nil =>
            obtain ⟨rfl, -⟩ := List.cons.inj rest
            exact Int.le_refl _
          | cons head tail =>
            obtain ⟨rfl, rfl⟩ := List.cons.inj rest
            have order := (pairwise_append.mp increasing).2.2 first (by simp)
            exact Int.le_of_lt (order opening (by simp))
      omega
    · rintro ⟨over_now, _, long⟩
      exact ⟨between, opening, before, rfl, over_now, high, opens, long⟩

theorem Monitor.Marked.step {monitor : Monitor} {report : Report} (marked : monitor.Marked)
    (opens : OpensAfterZero monitor report) : (monitor.step report).Marked := by
  obtain ⟨⟨average, reports, mark⟩, past⟩ := monitor
  have marks : Marks mark past := marked
  rw [Marked]
  by_cases high : report.chanLoad > average
  · have over_now : (Monitor.call ⟨⟨average, reports, mark⟩, past⟩ report).Over :=
      Int32.lt_iff_toInt_lt.mp high
    cases marks with
    | idle still =>
      have opened : (Monitor.step ⟨⟨average, reports, 0⟩, past⟩ report).eacs.tstampStartHigherLoad
          = report.tstamp := by
        simp [Monitor.step, Eacs.isDynamicChanChangeReqd, high, Eacs.addToAverage]
      rw [opened]
      exact .streak [] _ past (by simp) over_now still (opens over_now still)
    | streak between opening before highs first_over still positive =>
      have running : opening.report.tstamp ≠ 0 := by
        rintro zero
        rw [zero] at positive
        exact absurd positive (by decide)
      have same : (Monitor.step ⟨⟨average, reports, opening.report.tstamp⟩,
          between ++ opening :: before⟩ report).eacs.tstampStartHigherLoad =
          opening.report.tstamp := by
        simp only [Monitor.step, Eacs.isDynamicChanChangeReqd, high, if_true, running, if_false]
        split <;> rfl
      rw [same]
      refine .streak (Monitor.call _ report :: between) opening before ?_ first_over still positive
      intro call met
      rcases mem_cons.mp met with rfl | earlier
      · exact over_now
      · exact highs call earlier
  · have closed : (Monitor.step ⟨⟨average, reports, mark⟩, past⟩ report).eacs.tstampStartHigherLoad
        = 0 := by
      simp [Monitor.step, Eacs.isDynamicChanChangeReqd, high, Eacs.addToAverage]
    rw [closed]
    refine .idle fun last latest => ?_
    cases latest
    exact fun over_now => high (Int32.lt_iff_toInt_lt.mpr over_now)

theorem past_reports (reports : List Report) :
    (run Monitor.step Monitor.start reports).past.map Call.report = reports.reverse := by
  induction reports using List.reverseRecOn with
  | nil => rfl
  | append_singleton first report ih =>
    rw [run_append, reverse_append, run_cons, run_nil]
    simp [Monitor.step, Monitor.call, ih]

variable {reports : List Report}

theorem mem_past {call : Call} (earlier : call ∈ (run Monitor.step Monitor.start reports).past) :
    call.report ∈ reports := by
  have member : call.report ∈ reports.reverse := by
    rw [← past_reports]
    exact mem_map_of_mem earlier
  exact mem_reverse.mp member

theorem Proper.first {first rest : List Report} (proper : Proper (first ++ rest)) :
    Proper first where
  loads := fun report met => proper.loads report (mem_append_left _ met)
  increasing := (pairwise_append.mp proper.increasing).1
  span := fun earlier met later met_later =>
    proper.span earlier (mem_append_left _ met) later (mem_append_left _ met_later)
  few := by
    have few := proper.few
    rw [length_append] at few
    omega

theorem averaging_run (proper : Proper reports) :
    Averaging (run Monitor.step Monitor.start reports) := by
  induction reports using List.reverseRecOn with
  | nil => refine ⟨by decide, rfl, fun _ _ _ => .inl rfl⟩
  | append_singleton first report ih =>
    rw [run_append]
    refine (ih proper.first).step (proper.loads report (by simp)) ?_
    rw [← length_map Call.report, past_reports, length_reverse]
    exact proper.first.few

/-- A call asks for another channel exactly when the loads persist. -/
def DecidesRightly (reports : List Report) : Prop :=
  ∀ (first : List Report) (report : Report) (rest : List Report),
    reports = first ++ report :: rest →
    let monitor := run Monitor.step Monitor.start first
    ((monitor.call report).returned = true ↔ Persists (monitor.call report) monitor.past)

def AveragesRightly (reports : List Report) : Prop :=
  ∀ first rest : List Report, reports = first ++ rest → first ≠ [] →
    let monitor := run Monitor.step Monitor.start first
    (∀ call ∈ monitor.past, call.returned = false) →
    ∀ low high : Int,
      (∀ report ∈ first, low ≤ report.chanLoad.toInt ∧ report.chanLoad.toInt ≤ high) →
      low ≤ monitor.eacs.avgChanLoad.toInt ∧ monitor.eacs.avgChanLoad.toInt ≤ high

theorem returned_iff (monitor : Monitor) (report : Report) : (monitor.call report).returned = true ↔
      (monitor.call report).Over ∧ monitor.eacs.tstampStartHigherLoad > 0 ∧
        report.tstamp - monitor.eacs.tstampStartHigherLoad > globalCloadTimeout := by
  have high : (monitor.call report).Over ↔ report.chanLoad > monitor.eacs.avgChanLoad :=
    Int32.lt_iff_toInt_lt.symm
  rw [high, Monitor.call, Eacs.isDynamicChanChangeReqd]
  split
  next over_now =>
    split
    next long => simp [over_now, long]
    next short => split <;> simp [over_now, short]
  next low => simp [low]

theorem decidesRightly_of_opens (proper : Proper reports)
    (opens : Along Monitor.step OpensAfterZero Monitor.start reports) :
    DecidesRightly reports := by
  rintro first report rest rfl monitor
  have marks : monitor.Marked :=
    opens.front.invariant (fun _ _ met marked => Monitor.Marked.step marked met)
      (.idle (by simp [Monitor.start]))
  obtain ⟨_, later, order⟩ := pairwise_append.mp proper.increasing
  have increasing : monitor.past.Pairwise
      (fun later earlier => earlier.report.tstamp.toInt < later.report.tstamp.toInt) := by
    rw [← pairwise_map (R := fun later earlier : Report =>
      earlier.tstamp.toInt < later.tstamp.toInt), past_reports, pairwise_reverse]
    exact proper.first.increasing
  rw [returned_iff, persists_iff marks increasing]
  · rfl
  · intro call met
    exact order _ (mem_past met) _ (by simp [Monitor.call])
  · intro call met
    exact proper.span _ (by simp [mem_past met]) _ (by simp [Monitor.call])

theorem averagesRightly (proper : Proper reports) : AveragesRightly reports := by
  rintro first rest rfl some monitor zeros low high bounds
  have all : counted monitor.past = monitor.past :=
    filter_eq_self.mpr fun call met => by simp [zeros call met]
  rcases (averaging_run proper.first).between low high
      (fun call met => bounds call.report (mem_past (mem_of_mem_filter met))) with
    none | inside
  · have empty : first.reverse = [] := by
      rw [← past_reports]
      exact map_eq_nil_iff.mpr (all ▸ none)
    exact absurd (reverse_eq_nil_iff.mp empty) some
  · exact inside

/-- The daemon decides rightly in every run whose streaks open after time 0, and averages
rightly in every run. -/
theorem monitor_decides {reports : List Report} (proper : Proper reports) :
    (Along Monitor.step OpensAfterZero Monitor.start reports → DecidesRightly reports) ∧
      AveragesRightly reports :=
  ⟨decidesRightly_of_opens proper, averagesRightly proper⟩

/-- The times of a counter that has passed 2³¹: the last report comes 15 seconds after the
streak has opened, and nothing is asked for. -/
theorem negative_streak_ignored :
    Proper [⟨50, -20000000⟩, ⟨60, -5000000⟩] ∧
      ¬ DecidesRightly [⟨50, -20000000⟩, ⟨60, -5000000⟩] := by
  refine ⟨⟨by decide, by decide, by decide, by decide⟩, fun decides => ?_⟩
  have asks := (decides [⟨50, -20000000⟩] ⟨60, -5000000⟩ [] rfl).mpr
    ⟨[], ⟨⟨50, -20000000⟩, 30, false⟩, [], by decide, by decide, by decide, by decide, by decide⟩
  exact absurd asks (by decide)

theorem positive_streak_noticed :
    DecidesRightly [⟨50, 1⟩, ⟨60, 15000001⟩] ∧ AveragesRightly [⟨50, 1⟩, ⟨60, 15000001⟩] := by
  have decides := @monitor_decides [⟨50, 1⟩, ⟨60, 15000001⟩]
    ⟨by decide, by decide, by decide, by decide⟩
  exact ⟨decides.1 (by decide), decides.2⟩

end AthApps.Spectral
