import AthApps.Wps.Calls
import AthApps.Wps.Eap

/-!
# Who may configure the access point

As an enrollee we are configured at the end of a session.  The settings come
from M8, and only a registrar that knows our device password gets that far; or
they come from an M2 with encrypted settings, for which nothing of the kind
holds.  `PlainM2` excludes the latter.
-/

set_option autoImplicit false

namespace AthApps.Wps

open AthApps.Lib Option
open List hiding Vector

def Accepted (message : Message) (log : List Event) : Prop :=
  ∃ who devPwd, Event.processed message .ok who devPwd ∈ log

theorem Accepted.grows {message : Message} {kind : Event → Prop} {before after : List Event}
    (accepted : Accepted message before) (grows : Grows kind before after) :
    Accepted message after := by
  obtain ⟨who, devPwd, member⟩ := accepted
  exact ⟨who, devPwd, grows.mem member⟩

theorem Accepted.last {message : Message} {log : List Event} {verdict : Verdict}
    (who : ConfigWho) (devPwd : Bytes) (ok : verdict = .ok) :
    Accepted message (log ++ [.processed message verdict who devPwd]) :=
  ⟨who, devPwd, by simp [ok]⟩

section

variable (crypto : Crypto) (device : Device)

def KeyWrapped (config : Bytes) (authKey : Vector UInt8 32) : Prop :=
  (eapWpsEncrsettingsValidation crypto config authKey none).isSome

/-- The keys that M4 and M6 are compared with are those of the device password. -/
structure Halves (data : EapWpsData) : Prop where
  first : data.exchange.half1.psk = bufferOf 16 ((crypto.hmacSha256
    data.exchange.keys.authKey.toList (firstHalf data.password.devPwd)).toList.take 16)
  second : data.exchange.half2.psk = bufferOf 16 ((crypto.hmacSha256
    data.exchange.keys.authKey.toList (secondHalf data.password.devPwd)).toList.take 16)

/-- What a session has behind it, by the state of an enrollee. -/
structure EnrolleePast (plain : Prop) (machine : Machine) : Prop where
  halves : machine.data.state ∈ [.m4, .m5, .m6] → Halves crypto machine.data
  first : machine.data.state ∈ [.m5, .m6, .m7, .m8] → Accepted .m4 machine.log
  second : machine.data.state ∈ [.m7, .m8] → Accepted .m6 machine.log
  settings : plain → machine.data.state ∈ [.done, .ack] →
    Accepted .m4 machine.log ∧ Accepted .m6 machine.log ∧
      ∀ config, machine.target.config = some config →
        KeyWrapped crypto config machine.data.exchange.keys.authKey

def EnrolleeCause (plain : Prop) (log : List Event) : Event → Prop
  | .building .m7 => Accepted .m4 log ∧ Accepted .m6 log
  | .setSsidConfiguration .enrollee config authKey =>
    plain → Accepted .m4 log ∧ Accepted .m6 log ∧ KeyWrapped crypto config authKey
  | _ => True

structure EnrolleeGood (plain : Prop) (machine : Machine) : Prop where
  present : machine.data.target.isSome
  past : EnrolleePast crypto plain machine
  log : Justified (EnrolleeCause crypto plain) machine.log

variable {crypto} {plain : Prop}

variable {identity : Bytes} {machine : Machine} {before after : Machine} {env : Env}
  {rcvMsg : Bytes} {exchange : Exchange} {target : TargetInfo}

theorem EnrolleePast.mono (past : EnrolleePast crypto plain before)
    (state : after.data.state = before.data.state)
    (halves : Halves crypto before.data → Halves crypto after.data)
    (accepted : ∀ message, Accepted message before.log → Accepted message after.log)
    (config : after.target.config = before.target.config)
    (keys : after.data.exchange.keys = before.data.exchange.keys) :
    EnrolleePast crypto plain after := by
  constructor
  case halves => exact fun now => halves (past.halves (state ▸ now))
  case first => exact fun now => accepted _ (past.first (state ▸ now))
  case second => exact fun now => accepted _ (past.second (state ▸ now))
  case settings =>
    intro holds now
    obtain ⟨m4, m6, wrapped⟩ := past.settings holds (state ▸ now)
    rw [config, keys]
    exact ⟨accepted _ m4, accepted _ m6, wrapped⟩

theorem EnrolleePast.free
    (state : machine.data.state ∈ [.start, .m1, .m2, .m2d1, .m2d2, .m3, .nack, .failure]) :
    EnrolleePast crypto plain machine := by
  simp only [mem_cons, not_mem_nil, or_false] at state
  rcases state with state | state | state | state | state | state | state | state <;>
    constructor <;> simp [state]

theorem EnrolleePast.sent {kind : Event → Prop}
    (past : EnrolleePast crypto plain before) (sent : Sent kind before after) :
    EnrolleePast crypto plain after := by
  obtain ⟨sndMsg, same⟩ := sent.data
  refine past.mono (by rw [same]) ?_ (fun _ accepted => accepted.grows sent.log)
    (by rw [Machine.target, same]; rfl) (by rw [same])
  rintro ⟨first, second⟩
  rw [same]
  exact ⟨first, second⟩

/-! ## Requests -/

theorem eapWpsConfigBuildMessageM3_halves {random : Random} {password : Password}
    (built : (eapWpsConfigBuildMessageM3 crypto device random rcvMsg target password
      exchange).1.isSome) (data : EapWpsData) :
    Halves crypto
      { data with
        exchange := (eapWpsConfigBuildMessageM3 crypto device random rcvMsg target password
          exchange).2.1
        password := (eapWpsConfigBuildMessageM3 crypto device random rcvMsg target password
          exchange).2.2 } := by
  simp only [eapWpsConfigBuildMessageM3] at built ⊢
  split at built
  · cases built
  · next version =>
      split at built
      · cases built
      · next password chosen =>
          simp only [version, if_false]
          exact ⟨rfl, rfl⟩

def Harmless (crypto : Crypto) (plain : Prop) (event : Event) : Prop :=
  ∀ log, EnrolleeCause crypto plain log event

theorem EnrolleeGood.sent (good : EnrolleeGood crypto plain before)
    (sent : Sent (Harmless crypto plain) before after) : EnrolleeGood crypto plain after := by
  refine ⟨?_, good.past.sent sent, good.log.grows sent.log fun log event free => free log⟩
  obtain ⟨sndMsg, same⟩ := sent.data
  rw [same]
  exact good.present

theorem refuse_good {call : Nat} (good : EnrolleeGood crypto plain machine) :
    EnrolleeGood crypto plain (refuse device env call machine).2 := by
  obtain ⟨sent, changed, same⟩ := refuse_cases device env (Harmless crypto plain) call
    machine (fun _ => trivial) (fun _ => trivial)
  have here := good.sent changed
  rw [same]
  split
  · exact ⟨here.present, .free (by simp), here.log⟩
  · exact here

theorem eapWpsBuildMessageM3_target (env : Env) (machine : Machine) :
    (eapWpsBuildMessageM3 crypto device env machine).2.data.target = machine.data.target := by
  simp only [eapWpsBuildMessageM3]
  split <;> rfl

theorem eapWpsBuildMessageM3_state (env : Env) (machine : Machine) :
    (eapWpsBuildMessageM3 crypto device env machine).2.data.state = machine.data.state := by
  simp only [eapWpsBuildMessageM3]
  split <;> rfl

theorem eapWpsBuildMessageM3_halves
    (built : (eapWpsBuildMessageM3 crypto device env machine).1.isSome) (state : State) :
    Halves crypto
      { (eapWpsBuildMessageM3 crypto device env machine).2.data with state := state } := by
  have halves := eapWpsConfigBuildMessageM3_halves device built machine.data
  simp only [eapWpsBuildMessageM3] at built ⊢
  rw [if_pos built]
  exact ⟨halves.first, halves.second⟩

theorem eapWpsBuildReqEnrollee_good (good : EnrolleeGood crypto plain machine) :
    EnrolleeGood crypto plain (eapWpsBuildReqEnrollee crypto device env machine).2 := by
  simp only [eapWpsBuildReqEnrollee]
  split
  case h_1 state =>
    have grows : Grows (Harmless crypto plain) machine.log
        (eapWpsBuildMessageM1 crypto device env machine).2.log :=
      (growing _).runBuilder _ machine (fun _ => trivial) fun _ => trivial
    have log := good.log.grows grows fun log event free => free log
    rw [sendMessage_snd]
    split
    · exact ⟨by simpa [eapWpsBuildMessageM1] using good.present, .free (by simp), log⟩
    · exact ⟨by simpa [eapWpsBuildMessageM1] using good.present,
        .free (by simp [eapWpsBuildMessageM1, state]), log⟩
  case h_2 state =>
    have present : (eapWpsBuildMessageM3 crypto device env machine).2.data.target.isSome := by
      rw [eapWpsBuildMessageM3_target]
      exact good.present
    have grows : Grows (Harmless crypto plain) machine.log _ :=
      (growing _).eapWpsBuildMessageM3 crypto device env machine (fun _ => trivial) fun _ => trivial
    have log := good.log.grows grows fun log event free => free log
    rw [sendMessage_snd]
    split
    · next built =>
        refine ⟨present, ⟨fun _ => eapWpsBuildMessageM3_halves device built .m4, ?_, ?_, ?_⟩, log⟩
          <;> simp
    · exact ⟨present, .free (by simp [eapWpsBuildMessageM3_state, state]), log⟩
  case h_3 state =>
    have here := good.sent (runBuilder_sent (Harmless crypto plain) .m5
      (eapWpsConfigBuildMessageM5 crypto device env.random machine.data.rcvMsg machine.target)
      machine (fun _ => trivial) (fun _ => trivial)
      (eapWpsConfigBuildMessageM5_snd crypto device env.random _ _))
    rw [sendMessage_snd]
    split
    · have halves := here.past.halves (by simp [state])
      have first := here.past.first (by simp [state])
      refine ⟨here.present, ⟨fun _ => ⟨halves.first, halves.second⟩, fun _ => first, ?_, ?_⟩,
        here.log⟩ <;> simp
    · exact here
  case h_4 state =>
    have first := good.past.first (by simp [state])
    have second := good.past.second (by simp [state])
    have sent := runBuilder_sent (fun _ => True) .m7
      (eapWpsConfigBuildMessageM7 crypto device env.random machine.data.rcvMsg machine.target
        machine.data.config) machine trivial trivial
      (eapWpsConfigBuildMessageM7_snd crypto device env.random _ _ _)
    have log := runBuilder_justified .m7
      (eapWpsConfigBuildMessageM7 crypto device env.random machine.data.rcvMsg machine.target
        machine.data.config) machine good.log ⟨first, second⟩ fun _ => trivial
    have present : (eapWpsBuildMessageM7 crypto device env machine).2.data.target.isSome := by
      simpa [eapWpsBuildMessageM7] using good.present
    rw [sendMessage_snd]
    split
    · refine ⟨present, ⟨?_, fun _ => first.grows sent.log, fun _ => second.grows sent.log, ?_⟩,
        log⟩ <;> simp
    · exact ⟨present, good.past.sent sent, log⟩
  case h_5 state =>
    have here := good.sent (eapWpsBuildMessageSpecial_sent device env (Harmless crypto plain) 0
      .nack machine (fun _ => trivial) fun _ => trivial)
    rw [sendMessage_snd]
    split
    · split <;> exact ⟨here.present, .free (by simp), here.log⟩
    · exact here
  case h_6 state =>
    have cleared : EnrolleeGood crypto plain machine.failureClear :=
      ⟨good.present, good.past.mono rfl id (fun _ => id) rfl rfl, good.log⟩
    have here := cleared.sent (eapWpsBuildMessageSpecial_sent device env (Harmless crypto plain) 0
      .done machine.failureClear (fun _ => trivial) fun _ => trivial)
    obtain ⟨sndMsg, same⟩ := (eapWpsBuildMessageSpecial_sent device env (fun _ => True) 0 .done
      machine.failureClear trivial trivial).data
    rw [sendMessage_snd]
    split
    · refine ⟨here.present, ⟨?_, ?_, ?_, fun holds _ => ?_⟩, here.log⟩
      · simp
      · simp
      · simp
      · exact here.past.settings holds (by simp [same, state])
    · exact here
  case h_7 => exact refuse_good device good

/-! ## Responses -/

def m2WithSettings (msg : Bytes) : Bool :=
  match wpsParseWpsData msg with
  | none => false
  | some wps =>
    wpsGetU8 wps WpsType.msgType == some Message.m2.code &&
      wpsGetLength wps WpsType.encrSettings 0 != 0

theorem m2WithSettings_of_withConfig
    (taken : (eapWpsConfigProcessMessageM2 crypto device rcvMsg target exchange).withConfig =
      some true) : m2WithSettings rcvMsg = true := by
  simp only [eapWpsConfigProcessMessageM2] at taken
  -- every way out but the last returns an error or no configuration
  split at taken
  · cases taken
  next wps parsed =>
  split at taken
  · cases taken
  next type =>
  repeat' split at taken
  all_goals first | cases taken; done | skip
  next settings _ _ _ => simp_all [m2WithSettings]

theorem eapWpsConfigProcessMessageM8_ok
    (ok : (eapWpsConfigProcessMessageM8 crypto rcvMsg exchange target).1 = .ok) :
    ∀ config, (eapWpsConfigProcessMessageM8 crypto rcvMsg exchange target).2.config =
      some config → KeyWrapped crypto config exchange.keys.authKey := by
  intro config
  simp only [eapWpsConfigProcessMessageM8] at ok ⊢
  split at ok
  · cases ok
  next wps opened =>
  split at ok
  · cases ok
  next decrypted settings =>
  split at ok
  · cases ok
  next nonce validated =>
  split at ok
  · next genuine =>
      simp only [genuine, if_true, some.injEq]
      rintro rfl
      simp [KeyWrapped, validated]
  · cases ok

theorem finishEnrollee_good (good : EnrolleeGood crypto plain machine)
    (state : machine.data.state = .ack) :
    EnrolleeGood crypto plain (finishEnrollee device machine) := by
  have data := finishEnrollee_data device machine
  refine ⟨by rw [data]; exact good.present, .free (by simp [data]), ?_⟩
  rw [finishEnrollee_log, applied]
  split
  · simpa using good.log
  · next config settings =>
      split
      · refine good.log.snoc ?_
        intro holds
        obtain ⟨first, second, wrapped⟩ := good.past.settings holds (by simp [state])
        exact ⟨first, second, wrapped config settings⟩
      · simpa using good.log

theorem EnrolleeGood.processed (good : EnrolleeGood crypto plain machine)
    (message : Message) (process : TargetInfo → Verdict × TargetInfo)
    (state : machine.data.state ∈ [.m4, .m6, .m8]) :
    EnrolleeGood crypto plain (runProcessor message process machine).2 := by
  have grows : Grows (fun _ => True) machine.log (runProcessor message process machine).2.log :=
    Grows.one machine.log trivial
  refine ⟨rfl, ?_, good.log.snoc trivial⟩
  constructor
  case halves =>
    intro now
    obtain ⟨first, second⟩ := good.past.halves now
    exact ⟨first, second⟩
  case first => exact fun now => (good.past.first now).grows grows
  case second => exact fun now => (good.past.second now).grows grows
  case settings =>
    intro holds now
    simp only [runProcessor_data, mem_cons, not_mem_nil, or_false] at state now
    rcases now with now | now <;> rw [now] at state <;> simp at state

theorem eapWpsProcessEnrollee_good {opCode : UInt8} (good : EnrolleeGood crypto plain machine)
    (calm : plain → machine.data.state = .m2 → m2WithSettings machine.data.rcvMsg = false) :
    EnrolleeGood crypto plain (eapWpsProcessEnrollee crypto device env opCode machine) := by
  have start : ∀ after : Machine,
      (if opCode = OpCode.nack.code then (machine.setState .nack).countFailure else machine) =
        after → EnrolleeGood crypto plain after ∧
      (plain → after.data.state = .m2 → m2WithSettings after.data.rcvMsg = false) := by
    rintro after rfl
    split
    · exact ⟨⟨good.present, .free (by simp), good.log⟩, fun _ state => by simp at state⟩
    · exact ⟨good, calm⟩
  simp only [eapWpsProcessEnrollee]
  generalize begun : (if opCode = OpCode.nack.code then _ else machine) = after
  obtain ⟨good, calm⟩ := start after begun
  split
  case h_1 state =>
    have present : (eapWpsProcessMessageM2 crypto device after).2.data.target.isSome := rfl
    have same : (eapWpsProcessMessageM2 crypto device after).2.data.state = .m2 := state
    have log : Justified (EnrolleeCause crypto plain)
        (eapWpsProcessMessageM2 crypto device after).2.log := good.log.snoc trivial
    split
    · next final processed =>
        rw [processed] at log
        refine ⟨by rw [processed] at present; exact present, ?_, log⟩
        constructor
        case settings =>
          intro holds _
          have taken := m2WithSettings_of_withConfig device (congrArg Prod.fst processed)
          rw [calm holds state] at taken
          cases taken
        all_goals simp
    · next final processed =>
        rw [processed] at log present
        exact ⟨present, .free (by simp), log⟩
    · next final processed =>
        rw [processed] at log same
        have log : Justified (EnrolleeCause crypto plain) (eapWpsProcessMessageM2D final).2.log :=
          log.snoc trivial
        split
        · exact ⟨rfl, .free (by simp), log⟩
        · refine ⟨rfl, .free ?_, log⟩
          simp only [eapWpsProcessMessageM2D, runProcessor_data]
          simp [show final.data.state = .m2 from same]
  case h_2 state =>
    have here := good.processed .m4
      (eapWpsConfigProcessMessageM4 crypto after.data.rcvMsg after.data.exchange) (by simp [state])
    split
    · next ok =>
        have halves := here.past.halves (by simp [state])
        refine ⟨rfl, ⟨fun _ => ⟨halves.first, halves.second⟩,
          fun _ => Accepted.last _ _ ok, ?_, ?_⟩, here.log⟩ <;> simp
    · exact here
  case h_3 state =>
    have here := good.processed .m6
      (eapWpsConfigProcessMessageM6 crypto after.data.rcvMsg after.data.exchange) (by simp [state])
    split
    · next ok =>
        have first := here.past.first (by simp [state])
        refine ⟨rfl, ⟨?_, fun _ => first, fun _ => Accepted.last _ _ ok, ?_⟩, here.log⟩ <;> simp
    · exact here
  case h_4 state =>
    have here := good.processed .m8
      (eapWpsConfigProcessMessageM8 crypto after.data.rcvMsg after.data.exchange) (by simp [state])
    have first := here.past.first (by simp [state])
    have second := here.past.second (by simp [state])
    split
    · next ok =>
        split
        · refine ⟨rfl, ⟨?_, ?_, ?_, fun _ _ => ⟨first, second, ?_⟩⟩, here.log⟩
          · simp
          · simp
          · simp
          · exact eapWpsConfigProcessMessageM8_ok ok
        · exact ⟨rfl, .free (by simp), here.log⟩
    · exact here
  case h_5 state =>
    obtain ⟨target, same, config, present⟩ := eapWpsProcessMessageSpecial_snd env .ack after
    have here : EnrolleeGood crypto plain (eapWpsProcessMessageSpecial env .ack after).2 := by
      rw [same]
      refine ⟨present good.present, good.past.mono rfl ?_ (fun _ => id) config rfl, good.log⟩
      exact fun halves => ⟨halves.first, halves.second⟩
    have ack : (eapWpsProcessMessageSpecial env .ack after).2.data.state = .ack := by
      rw [same]
      exact state
    split
    · next final processed =>
        rw [processed] at here ack
        exact finishEnrollee_good device here ack
    · next final processed =>
        rw [processed] at here
        exact here
  case h_6 state =>
    obtain ⟨target, same, -, present⟩ := eapWpsProcessMessageSpecial_snd env .nack after
    rw [same]
    exact ⟨present good.present, .free (by simp), good.log⟩
  case h_7 => exact good

/-! ## Whole runs -/

/-- What holds of every session: nothing is asked of a registrar but its log,
and an enrollee without a target has not begun. -/
structure EnrolleeSession (crypto : Crypto) (plain : Prop) (identity : Bytes)
    (machine : Machine) : Prop where
  log : Justified (EnrolleeCause crypto plain) machine.log
  begun : interfaceOf identity = some .enrollee →
    machine.data.target = none ∧ machine.data.state ∈ [.start, .nack] ∨
      EnrolleeGood crypto plain machine

theorem harmless_of_registrar {event : Event} (fits : event.fits .registrar) :
    Harmless crypto plain event := by
  intro log
  cases event with
  | building message => cases message <;> trivial
  | setSsidConfiguration role config authKey =>
    cases fits
    trivial
  | _ => trivial

theorem EnrolleeSession.initialised {ok : Bool}
    (session : EnrolleeSession crypto plain identity before)
    (absent : before.data.target = none) (made : Initialised before ok after) :
    EnrolleeSession crypto plain identity after := by
  have log : Justified (EnrolleeCause crypto plain) after.log := by
    rw [made.log]
    exact session.log.snoc trivial
  refine ⟨log, fun enrollee => ?_⟩
  have early : before.data.state ∈ [.start, .nack] := by
    rcases session.begun enrollee with ⟨-, state⟩ | good
    · exact state
    · have present := good.present
      simp [absent] at present
  have state : after.data.state ∈ [.start, .nack] := by
    rcases made.state with same | same
    · rw [same]
      exact early
    · simp [same]
  cases target : after.data.target with
  | none => exact Or.inl ⟨rfl, state⟩
  | some info =>
    refine Or.inr ⟨by simp [target], .free ?_, log⟩
    simp only [mem_cons, not_mem_nil, or_false] at state ⊢
    tauto

theorem EnrolleeSession.data
    (session : EnrolleeSession crypto plain identity before) (log : after.log = before.log)
    (state : after.data.state = before.data.state)
    (password : after.data.password = before.data.password)
    (exchange : after.data.exchange = before.data.exchange)
    (target : after.data.target = before.data.target) :
    EnrolleeSession crypto plain identity after := by
  refine ⟨log ▸ session.log, fun enrollee => ?_⟩
  rcases session.begun enrollee with ⟨absent, early⟩ | good
  · exact Or.inl ⟨target.trans absent, state ▸ early⟩
  · refine Or.inr ⟨target ▸ good.present, good.past.mono state ?_ ?_ ?_ ?_, log ▸ good.log⟩
    · rintro ⟨first, second⟩
      exact ⟨by rw [exchange, password]; exact first, by rw [exchange, password]; exact second⟩
    · exact fun message accepted => log ▸ accepted
    · rw [Machine.target, target, ← Machine.target]
    · rw [exchange]

variable {machine after : Machine}

theorem EnrolleeSession.enters {ok : Bool} (session : EnrolleeSession crypto plain identity machine)
    (entered : Enters device env identity machine ok after) :
    EnrolleeSession crypto plain identity after := by
  cases entered with
  | unknown role => exact session
  | again interface role present => exact session.data rfl rfl rfl rfl rfl
  | first interface role absent =>
    have here : EnrolleeSession crypto plain identity
        { machine with data := { machine.data with interface := interface } } :=
      session.data rfl rfl rfl rfl rfl
    exact here.initialised absent (eapWpsConfigInitData_initialised device env _ absent)

theorem EnrolleeSession.good (session : EnrolleeSession crypto plain identity after)
    (entered : Enters device env identity machine true after)
    (role : after.data.interface = .enrollee) : EnrolleeGood crypto plain after := by
  have enrollee := entered.role device env rfl
  rw [role] at enrollee
  rcases session.begun enrollee with ⟨absent, -⟩ | good
  · have present := entered.present device env rfl
    simp [absent] at present
  · exact good

theorem EnrolleeSession.registrar (session : EnrolleeSession crypto plain identity before)
    (role : interfaceOf identity = some .registrar)
    (grows : Grows (Event.fits .registrar) before.log after.log) :
    EnrolleeSession crypto plain identity after := by
  refine ⟨session.log.grows grows fun log event fits => harmless_of_registrar fits log, ?_⟩
  intro enrollee
  rw [role] at enrollee
  cases enrollee

theorem EnrolleeSession.requests (session : EnrolleeSession crypto plain identity machine)
    (requests : Requests crypto device env identity machine after) :
    EnrolleeSession crypto plain identity after := by
  cases requests with
  | fragment more => exact session
  | refused ok after entered stuck => exact session.enters device entered
  | registrar after entered role =>
    refine (session.enters device entered).registrar ?_
      (eapWpsBuildReqRegistrar_grows crypto device env after)
    rw [entered.role device env rfl, role]
  | enrollee after entered role =>
    have good : EnrolleeGood crypto plain (eapWpsBuildReqEnrollee crypto device env after).2 :=
      eapWpsBuildReqEnrollee_good device ((session.enters device entered).good device entered role)
    exact ⟨good.log, fun _ => Or.inr good⟩

theorem EnrolleeSession.failed (session : EnrolleeSession crypto plain identity machine) :
    EnrolleeSession crypto plain identity (machine.setState .nack).countFailure := by
  refine ⟨session.log, fun enrollee => ?_⟩
  rcases session.begun enrollee with ⟨absent, -⟩ | good
  · exact Or.inl ⟨absent, by simp⟩
  · exact Or.inr ⟨good.present, .free (by simp), good.log⟩

theorem EnrolleeSession.processes {frame : Frame}
    (session : EnrolleeSession crypto plain identity machine)
    (calm : plain → interfaceOf identity = some .enrollee → machine.data.state = .m2 →
      frame.moreFragments = false → ∀ msgLen, frame.msgLen device = some msgLen →
        m2WithSettings (receive frame msgLen machine.data).rcvMsg = false)
    (processes : Processes crypto device env identity frame machine after) :
    EnrolleeSession crypto plain identity after := by
  have received : ∀ msgLen, EnrolleeSession crypto plain identity (machine.received frame msgLen) :=
    fun _ => session.data rfl rfl rfl rfl rfl
  cases processes with
  | mismatch => exact session.failed
  | fragment msgLen length => exact received msgLen
  | refused msgLen ok after length entered => exact ((received msgLen).enters device entered).failed
  | registrar msgLen after length entered role =>
    refine ((received msgLen).enters device entered).registrar ?_
      (eapWpsProcessRegistrar_grows crypto device env frame.opCode after)
    rw [entered.role device env rfl, role]
  | enrollee msgLen after length last entered role =>
    have good := ((received msgLen).enters device entered).good device entered role
    have enrollee := entered.role device env rfl
    rw [role] at enrollee
    suffices calm : plain → after.data.state = .m2 → m2WithSettings after.data.rcvMsg = false by
      have final : EnrolleeGood crypto plain
          (eapWpsProcessEnrollee crypto device env frame.opCode after) :=
        eapWpsProcessEnrollee_good device good calm
      exact ⟨final.log, fun _ => Or.inr final⟩
    · intro holds state
      have waiting : machine.data.state = .m2 ∧
          after.data.rcvMsg = (receive frame msgLen machine.data).rcvMsg := by
        generalize ok : true = passed at entered
        cases entered with
        | unknown role => cases ok
        | again interface role present => exact ⟨state, rfl⟩
        | first interface known absent =>
          -- a session without a target has not sent its M1
          have early : machine.data.state ∈ [.start, .nack] := by
            rcases session.begun enrollee with ⟨-, early⟩ | good
            · exact early
            · exact absurd absent (isSome_iff_ne_none.mp good.present)
          have made := eapWpsConfigInitData_initialised device env
            { machine.received frame msgLen with
              data := { (machine.received frame msgLen).data with
                interface := interface } } absent
          rcases made.state with same | same
          · rw [state] at same
            rw [← show State.m2 = machine.data.state from same] at early
            simp at early
          · rw [state] at same
            cases same
      rw [waiting.2]
      exact calm holds enrollee waiting.1 last msgLen length

def plainM2 (device : Device) (system : System) : Action → Bool
  | .respond id frame _ _ =>
    match system.sessions id with
    | none => true
    | some session =>
      !(decide (session.pending = .idle) && eapWpsCheck device frame &&
        decide (interfaceOf session.identity = some .enrollee) &&
        decide (session.data.state = .m2) && !frame.moreFragments &&
        (frame.msgLen device).any fun msgLen =>
          m2WithSettings (receive frame msgLen session.data).rcvMsg)
  | _ => true

theorem EnrolleeSession.step {system : System} {action : Action}
    (now : Throughout (EnrolleeSession crypto plain) system)
    (calm : plain → plainM2 device system action = true) :
    Throughout (EnrolleeSession crypto plain) (step crypto device system action) := by
  apply now.moves crypto device (step_moves crypto device system action)
  case start =>
    exact fun identity => ⟨Justified.nil _, fun _ => Or.inl ⟨rfl, by simp [EapWpsData.zero]⟩⟩
  case request =>
    intro identity env machine session
    exact session.requests device (eapWpsBuildReq_requests crypto device env identity machine)
  case process =>
    rintro id frame env next session rfl found ⟨idle, checked⟩
    have here := now id session found
    refine here.processes device ?_ (eapWpsProcess_processes crypto device env _ frame _)
    intro holds enrollee state last msgLen length
    have condition := calm holds
    simp only [plainM2, found, idle, checked, enrollee, show session.data.state = .m2 from state,
      last, length] at condition
    simpa [Session.machine] using condition
  case shared =>
    intro id session found kept here
    exact here.data rfl rfl rfl rfl rfl

/-- A registrar configures us behind an M4 and an M6 that proved both halves of
the device password, with settings whose key wrap authenticator is right. -/
def PinProved (crypto : Crypto) (log : List Event) (event : Event) : Prop :=
  ∀ config authKey, event = .setSsidConfiguration .enrollee config authKey →
    Accepted .m4 log ∧ Accepted .m6 log ∧ KeyWrapped crypto config authKey

/-- In every run without an M2 that brings settings along, a session applies a
configuration only if the registrar has proved the device password, and what
M4 and M6 are compared with comes from that password. -/
theorem configured_only_with_pin (crypto : Crypto) (device : Device) (actions : List Action)
    (plain : Along (step crypto device) (fun system action => plainM2 device system action)
      System.initial actions)
    (id : Nat) (session : Session)
    (found : (run (step crypto device) System.initial actions).sessions id = some session) :
    Justified (PinProved crypto) session.log ∧
      (interfaceOf session.identity = some .enrollee → session.data.state ∈ [.m4, .m6] →
        Halves crypto session.data) := by
  have keeps : ∀ system action, plainM2 device system action = true →
      Throughout (EnrolleeSession crypto True) system →
      Throughout (EnrolleeSession crypto True) (step crypto device system action) :=
    fun _ _ condition now => EnrolleeSession.step device now fun _ => condition
  have holds := plain.invariant keeps Throughout.initial id session found
  constructor
  · intro before event after same config authKey configured
    have cause := holds.log before event after same
    rw [configured] at cause
    exact cause trivial
  · intro enrollee state
    rcases holds.begun enrollee with ⟨-, early⟩ | good
    · have early : session.data.state ∈ [.start, .nack] := early
      simp only [mem_cons, not_mem_nil, or_false] at state early
      rcases state with state | state <;> rw [state] at early <;> simp at early
    · refine good.past.halves ?_
      simp only [mem_cons, not_mem_nil, or_false] at state ⊢
      tauto

end

/-! ## A session that skips M3 to M8 -/

theorem exampleMac_size : (#[0, 3, 0x7F, 0, 0, 1] : Array UInt8).size = 6 := rfl

/-- The access point of the runs below: PIN `12345670`, no job. -/
def exampleDevice : Device where
  bigEndian := true
  wpsDisable := false
  wpsUpnpDisable := false
  version := 0x10
  uuid := zeros 16
  uuidSet := true
  mac := ⟨#[0, 3, 0x7F, 0, 0, 1], exampleMac_size⟩
  macSet := true
  authTypeFlags := 0x22
  encrTypeFlags := 0x0C
  connTypeFlags := 1
  configMethods := 0x84
  wpsState := 2
  manufacturer := ⟨[0x41], 64⟩
  modelName := ⟨[0x41], 32⟩
  modelNumber := ⟨[0x41], 32⟩
  serialNumber := ⟨[0x41], 32⟩
  primDevType := zeros 8
  devName := ⟨[0x41], 32⟩
  rfBands := 1
  osVersion := 0
  defaultPin := [0x31, 0x32, 0x33, 0x34, 0x35, 0x36, 0x37, 0x30]
  defaultTimeout := 120

/-- Its private Diffie-Hellman key is one. -/
def exampleEnv : Env where
  identifier := 1
  random :=
    { nonce := Vector.replicate 16 1
      secret := bufferOf 192 (List.replicate 191 0 ++ [1])
      snonce1 := Vector.replicate 16 2
      snonce2 := Vector.replicate 16 3
      iv := Vector.replicate 16 4 }
  pbcRefused := false
  apSsidConfiguration := fun _ _ _ _ => some [0x10, 0x45, 0x00, 0x01, 0x41]
  upnpSent := true
  upnpReplies := []
  upnpQueued := false

/-- Bytes written as numbers of 32 bytes each, the last one filled up. -/
def bytesOf (length : Nat) (lines : List Nat) : Bytes :=
  (lines.flatMap fun line => Lib.Sha256.bigEndian line 32).take length

/-- An M2 of a registrar that does not know the PIN, with the encrypted
settings `SSID = "B"` and no key wrap authenticator in them. -/
def settingsInM2 : Frame where
  beyond _ := 0
  bytes := bytesOf 419 [0x020101A3FE00372A000000010400104A0001101022000105101A001001010101,
      0x0101010101010101010101011039001005050505050505050505050505050505,
      0x1048001000000000000000000000000000000010103200C00000000000000000,
      0, 0, 0, 0, 0,
      0x0000000000000000000000000000000000000000000000021004000200221010,
      0x0002000C100D0001011008000200841021000141102300014110240001411042,
      0x0001411054000800000000000000001011000141103C00010110020002000010,
      0x0900020000101200020000102D00040000000010180020080808080808080808,
      0x08080808080808CD9068B3C32D3D05DAD30A4F74A378C610050008398CA2A6E7,
      0x0EB5890000000000000000000000000000000000000000000000000000000000]

def acknowledgement : Frame where
  beyond _ := 0
  bytes := bytesOf 64 [0x02010040FE00372A000000010200104A000110102200010D101A001001010101,
      0x0101010101010101010101011039001005050505050505050505050505050505]

def takeOver : List Action :=
  [.propose 0 wpsIdentityRegistrar exampleEnv, .respond 0 settingsInM2 exampleEnv exampleEnv,
    .respond 0 acknowledgement exampleEnv exampleEnv]

def logOf (system : System) (id : Nat) : List Event :=
  ((system.sessions id).map Session.log).getD []

/-- The key that both sides derive in these runs. -/
def exampleAuthKey : Vector UInt8 32 :=
  bufferOf 32 (bytesOf 32 [0x9045F49FE28336EAF014990A5DE41B019277D48157A776E422D4D6B0AADA80FA])

theorem takeOver_log :
    logOf (run (step Crypto.internal exampleDevice) System.initial takeOver) 0 =
      [.initData true, .building .m1, .built .m1,
        .processed .m2 .ok .unknown exampleDevice.defaultPin, .building .done, .built .done,
        .setSsidConfiguration .enrollee [0x10, 0x45, 0x00, 0x01, 0x42] exampleAuthKey] := by
  rw [Crypto.internal_eq]
  decide +kernel

theorem takeOver_configures_without_pin :
    ∃ session, (run (step Crypto.internal exampleDevice) System.initial takeOver).sessions 0 =
        some session ∧ ¬Justified (PinProved Crypto.internal) session.log := by
  have log := takeOver_log
  simp only [logOf] at log
  generalize (run (step Crypto.internal exampleDevice) System.initial takeOver).sessions 0 = found
    at log ⊢
  cases found with
  | none => simp at log
  | some session =>
    refine ⟨session, rfl, fun justified => ?_⟩
    simp only [map_some, getD_some] at log
    -- the configuration is the last event, and nothing before it is an accepted M4
    obtain ⟨⟨who, devPwd, member⟩, -⟩ := justified (session.log.take 6) _ []
      (by rw [log]; rfl) _ _ rfl
    rw [log] at member
    simp at member

/-! ## A session that goes through -/

/-- M2, M4, M6 and M8 of a registrar that knows the PIN, with the settings
`SSID = "B"` in the last one. -/
def registrarM2 : Frame where
  beyond _ := 0
  bytes := bytesOf 383 [0x0201017FFE00372A000000010400104A0001101022000105101A001001010101,
      0x0101010101010101010101011039001005050505050505050505050505050505,
      0x1048001000000000000000000000000000000010103200C00000000000000000,
      0, 0, 0, 0, 0,
      0x0000000000000000000000000000000000000000000000021004000200221010,
      0x0002000C100D0001011008000200841021000141102300014110240001411042,
      0x0001411054000800000000000000001011000141103C00010110020002000010,
      0x0900020000101200020000102D00040000000010050008417DCBF600E1A10200]

def registrarM4 : Frame where
  beyond _ := 0
  bytes := bytesOf 196 [0x020100C4FE00372A000000010400104A0001101022000108101A001001010101,
      0x010101010101010101010101103D0020471DF335D67A5707E2EBF544B1F9C18D,
      0x142665ED9FD7CBF54DA2B863F25BAE04103E0020AA498566C944B3ED4C956140,
      0x3DBB2B78F0F104186BF6E7C14D6A62B173C46359101800400808080808080808,
      0x080808080808080835DBA12F70E37462706E04478482DEB1BA3B44C0F172381B,
      0xDC5035EFB17C0A28DF051AD94EE8D92E5C79CEF1838ED4CA10050008286D6BB8,
      0xF84A20E900000000000000000000000000000000000000000000000000000000]

def registrarM6 : Frame where
  beyond _ := 0
  bytes := bytesOf 124 [0x0201007CFE00372A000000010400104A000110102200010A101A001001010101,
      0x0101010101010101010101011018004008080808080808080808080808080808,
      0x12EC73ACA8BEAA036CC9964E5293B0C778BBE732C2C8C82515DEE58ECAC5E69D,
      0x116AC54E19E2F71768EDAAC95AAD1204100500089C123F5557BE9DF100000000]

def registrarM8 : Frame where
  beyond _ := 0
  bytes := bytesOf 108 [0x0201006CFE00372A000000010400104A000110102200010C101A001001010101,
      0x0101010101010101010101011018003008080808080808080808080808080808,
      0x8BF91427403FCB65D634BD141EB3BCAEE8CB06FE3E18F9DC5A5A52DEF79184C3,
      0x10050008BFCF028F07198B780000000000000000000000000000000000000000]

def configuring : List Action :=
  .propose 0 wpsIdentityRegistrar exampleEnv ::
    [registrarM2, registrarM4, registrarM6, registrarM8, acknowledgement].map fun frame =>
      .respond 0 frame exampleEnv exampleEnv

/-- The settings with the attributes that are added to them. -/
def givenSettings : Bytes :=
  bytesOf 21 [0x104500014210270000101E0008374CA80376D511F30000000000000000000000]

theorem configuring_log :
    logOf (run (step Crypto.internal exampleDevice) System.initial configuring) 0 =
      [.initData true, .building .m1, .built .m1,
        .processed .m2 .ok .unknown exampleDevice.defaultPin, .building .m3, .built .m3,
        .processed .m4 .ok .unknown exampleDevice.defaultPin, .building .m5, .built .m5,
        .processed .m6 .ok .unknown exampleDevice.defaultPin, .building .m7, .built .m7,
        .processed .m8 .ok .unknown exampleDevice.defaultPin, .building .done, .built .done,
        .setSsidConfiguration .enrollee givenSettings exampleAuthKey] := by
  rw [Crypto.internal_eq]
  decide +kernel

theorem configuring_plain :
    Along (step Crypto.internal exampleDevice)
      (fun system action => plainM2 exampleDevice system action) System.initial configuring := by
  rw [Crypto.internal_eq]
  decide +kernel

theorem registrar_with_pin_configures :
    ∃ session, (run (step Crypto.internal exampleDevice) System.initial configuring).sessions 0 =
        some session ∧
      (∃ config authKey, .setSsidConfiguration .enrollee config authKey ∈ session.log) ∧
      Justified (PinProved Crypto.internal) session.log := by
  have log := configuring_log
  simp only [logOf] at log
  cases found : (run (step Crypto.internal exampleDevice) System.initial configuring).sessions 0 with
  | none => simp [found] at log
  | some session =>
    simp only [found, map_some, getD_some] at log
    exact ⟨session, rfl, ⟨givenSettings, exampleAuthKey, by rw [log]; simp⟩,
      (configured_only_with_pin Crypto.internal exampleDevice _ configuring_plain 0 session found).1⟩

end AthApps.Wps
