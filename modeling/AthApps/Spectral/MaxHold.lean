import AthApps.Spectral.Pool

/-!
# The report with the highest level of an interval

`save_this_samp_message` and `server_send_samp_data_to_gui` keep, for each of
the two frequencies of the display, the report with the highest RSSI since the
last one that was handed on.  An interval that has not begun has the time 0,
and one without a report the level -120; both are values that a report can
have too.

`Receiver` keeps the reports since the last one that was handed on.
-/

set_option autoImplicit false

namespace AthApps.Spectral

open AthApps.Lib List

variable {α : Type}

/-- `SPECTRAL_SAMP_DATA`: the time, the level and the other members. -/
structure LevelData (α : Type) where
  spectralTstamp : Int32
  spectralRssi : Int16
  others : α
  deriving DecidableEq

abbrev LevelMsg (α : Type) := SampMsg (LevelData α)

def SampMsg.time (msg : LevelMsg α) : Int := msg.sampData.spectralTstamp.toInt

def SampMsg.level (msg : LevelMsg α) : Int := msg.sampData.spectralRssi.toInt

structure MaxRssi (α : Type) where
  maxRssiMsg : LevelMsg α
  maxrssi : Int16
  lastTstamp : Int32

structure MaxHold (α : Type) where
  lower : MaxRssi α
  upper : MaxRssi α

/-- `zeros` are the other members of a report of zeros. -/
def clearMaxRssiData (zeros : α) : MaxHold α :=
  ⟨⟨⟨0, 0, 0, zeros⟩, -120, 0⟩, ⟨⟨0, 0, 0, zeros⟩, -120, 0⟩⟩

namespace MaxRssi

def raise (msg : LevelMsg α) (held : MaxRssi α) : MaxRssi α where
  lastTstamp :=
    if held.lastTstamp = 0 then msg.sampData.spectralTstamp else held.lastTstamp
  maxrssi :=
    if msg.sampData.spectralRssi > held.maxrssi then msg.sampData.spectralRssi else held.maxrssi
  maxRssiMsg := if msg.sampData.spectralRssi > held.maxrssi then msg else held.maxRssiMsg

def report (interval : Int32) (msg : LevelMsg α) (held : MaxRssi α) :
    MaxRssi α × Option (LevelMsg α) :=
  let held := held.raise msg
  if msg.sampData.spectralTstamp - held.lastTstamp ≥ interval then
    ({ held with maxrssi := -120, lastTstamp := 0 }, some held.maxRssiMsg)
  else (held, none)

end MaxRssi

/-- `save_maxrssi_samp_message` or `server_send_maxrssi_samp_data_to_gui`. -/
inductive Receipt (α : Type) where
  | saved (msg : LevelMsg α)
  | sent (msg : LevelMsg α)
  deriving DecidableEq

def holdMax (handOn : LevelMsg α → Receipt α) (interval : Int32) (msg : LevelMsg α)
    (hold : MaxHold α) : MaxHold α × List (Receipt α) :=
  let lower := if msg.freq = guiLowerFreq then hold.lower.report interval msg
    else (hold.lower, none)
  let upper := if msg.freq = guiUpperFreq then hold.upper.report interval msg
    else (hold.upper, none)
  (⟨lower.1, upper.1⟩, (lower.2.toList ++ upper.2.toList).map handOn)

def saveThisSampMessage : Int32 → LevelMsg α → MaxHold α → MaxHold α × List (Receipt α) :=
  holdMax .saved

def serverSendSampDataToGui : Int32 → LevelMsg α → MaxHold α → MaxHold α × List (Receipt α) :=
  holdMax .sent

/-- Whether the server classifies: it saves the reports then, and sends them otherwise. -/
inductive Mode where
  | classify
  | scan

def Mode.handler : Mode → Int32 → LevelMsg α → MaxHold α → MaxHold α × List (Receipt α)
  | .classify => saveThisSampMessage
  | .scan => serverSendSampDataToGui

def Mode.receipt : Mode → LevelMsg α → Receipt α
  | .classify => .saved
  | .scan => .sent

structure Receiver (α : Type) where
  hold : MaxHold α
  pending : List (LevelMsg α)

namespace Receiver

variable (mode : Mode) (interval : Int32)

def start (zeros : α) : Receiver α := ⟨clearMaxRssiData zeros, []⟩

def handedOn (receiver : Receiver α) (msg : LevelMsg α) : List (Receipt α) :=
  (mode.handler interval msg receiver.hold).2

def step (receiver : Receiver α) (msg : LevelMsg α) : Receiver α :=
  ⟨(mode.handler interval msg receiver.hold).1,
    if (receiver.handedOn mode interval msg).isEmpty then receiver.pending ++ [msg] else []⟩

end Receiver

/-- The interval that began with the first of these reports is over at the last. -/
def Due (interval : Int32) (pending : List (LevelMsg α)) (msg : LevelMsg α) : Prop :=
  ∃ opening ∈ (pending ++ [msg]).head?, interval.toInt ≤ msg.time - opening.time

/-- One of these reports is handed on, and none of them has a higher level. -/
def Greatest (pending : List (LevelMsg α)) (msg : LevelMsg α) : Prop :=
  msg ∈ pending ∧ ∀ other ∈ pending, other.level ≤ msg.level

/-- Each report brings the greatest of the interval if it ends the interval, and nothing
otherwise. -/
def HoldsMax (mode : Mode) (interval : Int32) (zeros : α) (messages : List (LevelMsg α)) : Prop :=
  ∀ (first : List (LevelMsg α)) (msg : LevelMsg α) (rest : List (LevelMsg α)),
    messages = first ++ msg :: rest →
    let receiver := run (Receiver.step mode interval) (Receiver.start zeros) first
    (Due interval receiver.pending msg → ∃ greatest, Greatest (receiver.pending ++ [msg]) greatest ∧
        receiver.handedOn mode interval msg = [mode.receipt greatest]) ∧
      (¬ Due interval receiver.pending msg → receiver.handedOn mode interval msg = [])

/-- What is reported: one frequency of the display, and times that increase. -/
structure Orderly (freq : Int) (messages : List (LevelMsg α)) : Prop where
  displayed : freq = guiLowerFreq ∨ freq = guiUpperFreq
  freqs : ∀ msg ∈ messages, msg.freq = freq
  increasing : messages.Pairwise (fun earlier later => earlier.time < later.time)
  span : ∀ earlier ∈ messages, ∀ later ∈ messages, later.time - earlier.time < 2 ^ 31

/-- No interval begins at time 0, and none ends without a report over -120. -/
structure Unmistaken (interval : Int32) (receiver : Receiver α) (msg : LevelMsg α) : Prop where
  begins : receiver.pending = [] → msg.time ≠ 0
  heard : Due interval receiver.pending msg →
    ∃ other ∈ receiver.pending ++ [msg], -120 < other.level

/-- What is held of the reports since the last one that was handed on. -/
structure Held (held : MaxRssi α) (pending : List (LevelMsg α)) : Prop where
  opening : held.lastTstamp = ((pending.head?.map fun msg => msg.sampData.spectralTstamp).getD 0)
  begun : ∀ opening ∈ pending.head?, opening.time ≠ 0
  greatest : (held.maxrssi = -120 ∧ ∀ other ∈ pending, other.level ≤ -120) ∨
    (Greatest pending held.maxRssiMsg ∧ held.maxRssiMsg.sampData.spectralRssi = held.maxrssi ∧
      -120 < held.maxrssi.toInt)

namespace Held

theorem bound {held : MaxRssi α} {pending : List (LevelMsg α)} (holds : Held held pending) :
    -120 ≤ held.maxrssi.toInt ∧ ∀ other ∈ pending, other.level ≤ held.maxrssi.toInt := by
  rcases holds.greatest with ⟨lowest, low⟩ | ⟨⟨_, highest⟩, level, high⟩
  · rw [lowest]
    exact ⟨by decide, low⟩
  · rw [← level] at high ⊢
    exact ⟨by omega, highest⟩

theorem raise {held : MaxRssi α} {pending : List (LevelMsg α)} (holds : Held held pending)
    {msg : LevelMsg α} (begins : pending = [] → msg.time ≠ 0) :
    Held (held.raise msg) (pending ++ [msg]) := by
  obtain ⟨opening, begun, greatest⟩ := holds
  refine ⟨?_, ?_, ?_⟩
  · cases pending with
    | nil => simp [MaxRssi.raise, opening]
    | cons oldest others =>
      have marked : oldest.sampData.spectralTstamp ≠ 0 := by
        intro zero
        exact begun oldest rfl (by simp [SampMsg.time, zero])
      simp only [head?_cons, Option.map_some, Option.getD_some] at opening
      simp [MaxRssi.raise, opening, marked]
  · cases pending with
    | nil => simpa using begins rfl
    | cons oldest others => simpa using begun
  · have bound := Held.bound ⟨opening, begun, greatest⟩
    by_cases higher : msg.sampData.spectralRssi > held.maxrssi
    · have above : held.maxrssi.toInt < msg.level := Int16.lt_iff_toInt_lt.mp higher
      simp only [MaxRssi.raise, higher, if_true]
      refine .inr ⟨⟨by simp, fun other met => ?_⟩, trivial, Int.lt_of_le_of_lt bound.1 above⟩
      rcases mem_append.mp met with earlier | now
      · have low := bound.2 other earlier
        omega
      · rw [mem_singleton.mp now]
    · have below : msg.level ≤ held.maxrssi.toInt :=
        Int.not_lt.mp fun above => higher (Int16.lt_iff_toInt_lt.mpr above)
      simp only [MaxRssi.raise, higher, if_false]
      have lower : ∀ other ∈ pending ++ [msg], other.level ≤ held.maxrssi.toInt := by
        intro other met
        rcases mem_append.mp met with earlier | now
        · exact bound.2 other earlier
        · rwa [mem_singleton.mp now]
      rcases greatest with ⟨lowest, _⟩ | ⟨⟨kept, _⟩, level, high⟩
      · rw [lowest] at lower
        exact .inl ⟨lowest, lower⟩
      · have same : SampMsg.level held.maxRssiMsg = held.maxrssi.toInt :=
          congrArg Int16.toInt level
        rw [← same] at lower
        exact .inr ⟨⟨mem_append_left _ kept, lower⟩, level, high⟩

theorem ended (held : MaxRssi α) :
    Held { held with maxrssi := -120, lastTstamp := 0 } [] where
  opening := rfl
  begun := by simp
  greatest := .inl ⟨rfl, by simp⟩

end Held

theorem time_since {held : MaxRssi α} {pending : List (LevelMsg α)} {msg : LevelMsg α}
    (holds : Held held (pending ++ [msg]))
    (later : ∀ earlier ∈ pending, earlier.time < msg.time)
    (span : ∀ earlier ∈ pending, msg.time - earlier.time < 2 ^ 31) (interval : Int32) :
    msg.sampData.spectralTstamp - held.lastTstamp ≥ interval ↔ Due interval pending msg := by
  cases pending with
  | nil =>
    have opening : held.lastTstamp = msg.sampData.spectralTstamp := by simpa using holds.opening
    simp [Due, opening, Int32.le_iff_toInt_le]
  | cons oldest others =>
    have opening : held.lastTstamp = oldest.sampData.spectralTstamp := by simpa using holds.opening
    have first := later oldest (mem_cons_self ..)
    have near := span oldest (mem_cons_self ..)
    simp only [SampMsg.time] at first near
    have difference : (msg.sampData.spectralTstamp - oldest.sampData.spectralTstamp).toInt =
        msg.sampData.spectralTstamp.toInt - oldest.sampData.spectralTstamp.toInt := by
      rw [Int32.toInt_sub]
      exact Int.bmod_eq_of_le (by omega) (by omega)
    simp [Due, opening, Int32.le_iff_toInt_le, difference, SampMsg.time]

section Report

variable {held : MaxRssi α} {pending : List (LevelMsg α)} {msg : LevelMsg α} {interval : Int32}

theorem report_ends (holds : Held held pending) (begins : pending = [] → msg.time ≠ 0)
    (later : ∀ earlier ∈ pending, earlier.time < msg.time)
    (span : ∀ earlier ∈ pending, msg.time - earlier.time < 2 ^ 31)
    (due : Due interval pending msg) (heard : ∃ other ∈ pending ++ [msg], -120 < other.level) :
    ∃ greatest, Greatest (pending ++ [msg]) greatest ∧
      (held.report interval msg).2 = some greatest ∧ Held (held.report interval msg).1 [] := by
  have raised := holds.raise begins
  have ends := (time_since raised later span interval).mpr due
  simp only [MaxRssi.report, ends, if_true]
  refine ⟨_, ?_, rfl, Held.ended _⟩
  rcases raised.greatest with ⟨_, low⟩ | ⟨greatest, _⟩
  · obtain ⟨other, met, high⟩ := heard
    exact absurd (low other met) (Int.not_le.mpr high)
  · exact greatest

theorem report_waits (holds : Held held pending) (begins : pending = [] → msg.time ≠ 0)
    (later : ∀ earlier ∈ pending, earlier.time < msg.time)
    (span : ∀ earlier ∈ pending, msg.time - earlier.time < 2 ^ 31)
    (early : ¬ Due interval pending msg) :
    (held.report interval msg).2 = none ∧ Held (held.report interval msg).1 (pending ++ [msg]) := by
  have raised := holds.raise begins
  have waits := (not_congr (time_since raised later span interval)).mpr early
  simp only [MaxRssi.report, waits, if_false]
  exact ⟨trivial, raised⟩

end Report

def MaxHold.at (hold : MaxHold α) (freq : Int) : MaxRssi α :=
  if freq = guiLowerFreq then hold.lower else hold.upper

theorem handler_at (mode : Mode) (interval : Int32) {msg : LevelMsg α}
    (displayed : msg.freq = guiLowerFreq ∨ msg.freq = guiUpperFreq) (hold : MaxHold α) :
    (mode.handler interval msg hold).1.at msg.freq = ((hold.at msg.freq).report interval msg).1 ∧
      (mode.handler interval msg hold).2 =
        ((hold.at msg.freq).report interval msg).2.toList.map mode.receipt := by
  have apart : guiUpperFreq ≠ guiLowerFreq := by decide
  have same : mode.handler interval msg hold = holdMax mode.receipt interval msg hold := by
    cases mode <;> rfl
  rw [same]
  rcases displayed with lower | upper
  · simp [holdMax, MaxHold.at, lower, apart.symm]
  · simp [holdMax, MaxHold.at, upper, apart]

/-- The reports of one frequency that a receiver has met and the interval it is in. -/
structure Receiving (freq : Int) (met : List (LevelMsg α)) (receiver : Receiver α) : Prop where
  held : Held (receiver.hold.at freq) receiver.pending
  since : ∀ msg ∈ receiver.pending, msg ∈ met

theorem Receiving.step {mode : Mode} {interval : Int32} {freq : Int} {met : List (LevelMsg α)}
    {receiver : Receiver α} {msg : LevelMsg α} (receiving : Receiving freq met receiver)
    (orderly : Orderly freq (met ++ [msg])) (unmistaken : Unmistaken interval receiver msg) :
    (Due interval receiver.pending msg → ∃ greatest, Greatest (receiver.pending ++ [msg]) greatest ∧
          receiver.handedOn mode interval msg = [mode.receipt greatest]) ∧
      (¬ Due interval receiver.pending msg → receiver.handedOn mode interval msg = []) ∧
      Receiving freq (met ++ [msg]) (receiver.step mode interval msg) := by
  obtain ⟨held, since⟩ := receiving
  have own : msg.freq = freq := orderly.freqs msg (by simp)
  have displayed : msg.freq = guiLowerFreq ∨ msg.freq = guiUpperFreq := by
    rw [own]
    exact orderly.displayed
  have later : ∀ earlier ∈ receiver.pending, earlier.time < msg.time := fun earlier pending =>
    (pairwise_append.mp orderly.increasing).2.2 earlier (since earlier pending) msg (by simp)
  have span : ∀ earlier ∈ receiver.pending, msg.time - earlier.time < 2 ^ 31 :=
    fun earlier pending => orderly.span earlier (by simp [since earlier pending]) msg (by simp)
  obtain ⟨state, output⟩ := handler_at mode interval displayed receiver.hold
  rw [own] at state output
  by_cases due : Due interval receiver.pending msg
  · obtain ⟨greatest, is_greatest, handed, ended⟩ :=
      report_ends held unmistaken.begins later span due (unmistaken.heard due)
    have hands : receiver.handedOn mode interval msg = [mode.receipt greatest] := by
      rw [Receiver.handedOn, output, handed]
      rfl
    refine ⟨fun _ => ⟨greatest, is_greatest, hands⟩, fun early => absurd due early, ?_, ?_⟩
    · simp only [Receiver.step, hands, isEmpty_cons, Bool.false_eq_true, if_false, state]
      exact ended
    · simp [Receiver.step, hands]
  · obtain ⟨handed, still⟩ := report_waits held unmistaken.begins later span due
    have hands : receiver.handedOn mode interval msg = [] := by
      rw [Receiver.handedOn, output, handed]
      rfl
    refine ⟨fun ends => absurd ends due, fun _ => hands, ?_, ?_⟩
    · simp only [Receiver.step, hands, isEmpty_nil, if_true, state]
      exact still
    · intro other pending
      simp only [Receiver.step, hands, isEmpty_nil, if_true, mem_append] at pending
      exact mem_append.mpr (pending.imp_left (since other))

theorem Orderly.first {freq : Int} {first rest : List (LevelMsg α)}
    (orderly : Orderly freq (first ++ rest)) : Orderly freq first where
  displayed := orderly.displayed
  freqs := fun msg met => orderly.freqs msg (mem_append_left _ met)
  increasing := (pairwise_append.mp orderly.increasing).1
  span := fun earlier met later met_later =>
    orderly.span earlier (mem_append_left _ met) later (mem_append_left _ met_later)

theorem receiving_run {mode : Mode} {interval : Int32} {zeros : α} {freq : Int}
    {messages : List (LevelMsg α)} (orderly : Orderly freq messages)
    (unmistaken : Along (Receiver.step mode interval) (Unmistaken interval)
      (Receiver.start zeros) messages) :
    Receiving freq messages
      (run (Receiver.step mode interval) (Receiver.start zeros) messages) := by
  induction messages using List.reverseRecOn with
  | nil =>
    refine ⟨?_, by simp [Receiver.start]⟩
    rw [run_nil, MaxHold.at]
    split <;> exact Held.ended ⟨⟨0, 0, 0, zeros⟩, -120, 0⟩
  | append_singleton first msg ih =>
    rw [run_append]
    exact ((ih orderly.first unmistaken.front).step orderly unmistaken.at).2.2

/-- In every run in which no interval begins at time 0 or ends unheard, each report that ends
an interval brings the greatest of it, and no other report brings anything. -/
theorem holdsMax {mode : Mode} {interval : Int32} {zeros : α} {freq : Int}
    {messages : List (LevelMsg α)} (orderly : Orderly freq messages)
    (unmistaken : Along (Receiver.step mode interval) (Unmistaken interval)
      (Receiver.start zeros) messages) :
    HoldsMax mode interval zeros messages := by
  rintro first msg rest rfl receiver
  have receiving := receiving_run orderly.first unmistaken.front
  rw [append_cons] at orderly
  have turn := @Receiving.step α mode interval freq first receiver msg receiving orderly.first
    unmistaken.at
  exact ⟨turn.1, turn.2.1⟩

def levelMsg (tstamp : Int32) (rssi : Int16) : LevelMsg Unit := ⟨guiLowerFreq, tstamp, rssi, ()⟩

/-- An interval of reports that are all at most -120 ends with the report of zeros, and one
that begins at time 0 does not end in time. -/
theorem sentinels_mistaken :
    Orderly guiLowerFreq [levelMsg 1 (-130), levelMsg 5001 (-125)] ∧
      ¬ HoldsMax .scan 5000 () [levelMsg 1 (-130), levelMsg 5001 (-125)] ∧
      Orderly guiLowerFreq [levelMsg 0 5, levelMsg 5000 6] ∧
      ¬ HoldsMax .classify 5000 () [levelMsg 0 5, levelMsg 5000 6] := by
  refine ⟨⟨by decide, by decide, by decide, by decide⟩, fun holds => ?_,
    ⟨by decide, by decide, by decide, by decide⟩, fun holds => ?_⟩
  · obtain ⟨greatest, ⟨member, _⟩, handed⟩ := (holds [levelMsg 1 (-130)] (levelMsg 5001 (-125)) []
      rfl).1 ⟨levelMsg 1 (-130), by decide, by decide⟩
    have sent : Receipt.sent ⟨0, 0, 0, ()⟩ = Receipt.sent greatest := (List.cons.inj handed).1
    cases sent
    exact absurd member (by decide)
  · obtain ⟨greatest, _, handed⟩ := (holds [levelMsg 0 5] (levelMsg 5000 6) [] rfl).1
      ⟨levelMsg 0 5, by decide, by decide⟩
    exact absurd handed (cons_ne_nil _ _).symm

theorem two_reports_held :
    HoldsMax .scan 5000 () [levelMsg 1 7, levelMsg 5001 (-125)] :=
  @holdsMax _ _ _ _ guiLowerFreq _ ⟨by decide, by decide, by decide, by decide⟩
    ⟨⟨by decide, fun _ => ⟨levelMsg 1 7, by decide, by decide⟩⟩,
      ⟨by decide, fun _ => ⟨levelMsg 1 7, by decide, by decide⟩⟩, True.intro⟩

end AthApps.Spectral
