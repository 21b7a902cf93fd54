import AthApps.Wps.Credentials

/-!
# How often a PIN can be guessed

Without a job the access point answers to its default PIN.  Every session with
a wrong proof of the PIN counts as a failure, and an enrollee is refused once
more than `EAP_WPS_FAILURE_LIMIT` of them were counted, in an `int` that the
failures behind the limit may fill.  Sessions are served one after the other
here, each from the configuration the last one left.
-/

set_option autoImplicit false

namespace AthApps.Wps

open AthApps.Lib Option
open List hiding Vector

/-- One session, with everything that is sent in it. -/
inductive Input
  | respond (frame : Frame) (env next : Env)
  | wake (env : Env)
  | timeout (env : Env)

def Input.action : Input → Action
  | .respond frame env next => .respond 0 frame env next
  | .wake env => .wake 0 env
  | .timeout env => .timeout 0 env

structure Visit where
  identity : Bytes
  env : Env
  inputs : List Input

def Event.isWrong : Event → Bool
  | .processed .m4 .wrongHash _ _ => true
  | .processed .m6 .wrongHash _ _ => true
  | _ => false

def Event.isAccepted (message : Message) : Event → Bool
  | .processed other .ok _ _ => other == message
  | _ => false

/-- An M4 or M6 with a wrong R-Hash1 or R-Hash2 was met. -/
def wrong (log : List Event) : Bool := log.any Event.isWrong

def provedBoth (log : List Event) : Bool :=
  log.any (Event.isAccepted .m4) && log.any (Event.isAccepted .m6)

theorem any_isAccepted {message : Message} {log : List Event} (accepted : Accepted message log) :
    log.any (Event.isAccepted message) = true := by
  obtain ⟨who, devPwd, member⟩ := accepted
  exact any_eq_true.mpr ⟨_, member, by simp [Event.isAccepted]⟩

theorem provedBoth_of_accepted {log : List Event} (first : Accepted .m4 log)
    (second : Accepted .m6 log) : provedBoth log = true := by
  simp [provedBoth, any_isAccepted first, any_isAccepted second]

variable {before after : List Event}

theorem provedBoth_grows {kind : Event → Prop}
    (grows : Grows kind before after) (proved : provedBoth before = true) :
    provedBoth after = true := by
  obtain ⟨events, rfl, -⟩ := grows
  simp only [provedBoth, any_append, Bool.and_eq_true, Bool.or_eq_true] at proved ⊢
  exact ⟨Or.inl proved.1, Or.inl proved.2⟩

theorem wrong_grows (grows : Grows (fun event => event.isWrong = false) before after) :
    wrong after = wrong before := by
  obtain ⟨events, rfl, none⟩ := grows
  have rest : events.any Event.isWrong = false := by
    rw [List.any_eq_false]
    intro event member
    simp [none event member]
  simp [wrong, rest]

def wrongCount (log : List Event) : Nat := if wrong log then 1 else 0

section

variable (crypto : Crypto) (device : Device)

def serve (conf : Conf) (visit : Visit) : System :=
  run (step crypto device)
    (step crypto device ⟨conf, fun _ => none, []⟩ (.propose 0 visit.identity visit.env))
    (visit.inputs.map Input.action)

/-- The configuration, and how many sessions with a wrong proof were served
since start-up or since the last one in which both halves were proved. -/
structure Record where
  conf : Conf
  streak : Nat

def Record.next (record : Record) (visit : Visit) : Record :=
  let system := serve crypto device record.conf visit
  let log := logOf system 0
  { conf := system.conf
    streak :=
      if provedBoth log then 0 else if wrong log then record.streak + 1 else record.streak }

def Record.initial : Record := ⟨Conf.initial, 0⟩

def Idle (conf : Conf) : Prop := conf.job = Conf.initial.job

theorem Idle.fields {conf : Conf} (idle : Idle conf) :
    conf.wpsJobBusy = false ∧ conf.configWho = .unknown ∧ conf.devPwd = [] ∧
      conf.upnpEnabled = false := by
  simpa only [Idle, Conf.job, Conf.initial, Prod.mk.injEq] using idle

/-! ## A session of an enrollee -/

/-- `owes` says that a wrong proof has not been counted yet. -/
structure EnrolleeVisit (failures : Nat) (identity : Bytes) (owes : Bool)
    (machine : Machine) : Prop where
  session : EnrolleeSession crypto True identity machine
  idle : Idle machine.conf
  password : machine.data.target.isSome → machine.data.password.devPwd ≠ []
  version : machine.data.state ∈ [.m2, .m3, .m4, .m5, .m6] → device.version ≠ 0
  count : provedBoth machine.log ∨
    failures + wrongCount machine.log ≤ machine.conf.failures + owes.toNat
  owing : owes → machine.data.state ∈ [.m4, .m6] ∧ machine.data.fragment = false

variable {crypto device} {failures : Nat} {identity : Bytes}

variable {machine : Machine} {env : Env} {before after : Machine} {conf : Conf} {owes : Bool}
  {visit : Visit}

theorem count_grows (count : provedBoth before.log ∨
      failures + wrongCount before.log ≤ before.conf.failures + owes.toNat)
    (grows : Grows (fun event => event.isWrong = false) before.log after.log)
    (counted : before.conf.failures ≤ after.conf.failures) :
    provedBoth after.log ∨ failures + wrongCount after.log ≤ after.conf.failures + owes.toNat := by
  rcases count with proved | count
  · exact Or.inl (provedBoth_grows grows proved)
  · refine Or.inr ?_
    rw [wrongCount, wrong_grows grows, ← wrongCount]
    omega

structure EnrolleeRequested (device : Device) (before after : Machine) : Prop where
  target : after.data.target = before.data.target
  password : before.data.password.devPwd ≠ [] → after.data.password.devPwd ≠ []
  version : after.data.state ∈ [.m2, .m3, .m4, .m5, .m6] →
    before.data.state ∈ [.m2, .m3, .m4, .m5, .m6] ∨ device.version ≠ 0
  failures : before.data.state ≠ .done → before.conf.failures ≤ after.conf.failures
  counted : before.data.state ∈ [.m4, .m6] → device.version ≠ 0 → ¬before.conf.upnpEnabled →
    after.conf.failures = before.conf.failures + 1

theorem Refused.requested {kind : Event → Prop} (refused : Refused kind before after)
    (counted : before.data.state ∈ [.m4, .m6] → device.version ≠ 0 → ¬before.conf.upnpEnabled →
      after.conf.failures = before.conf.failures + 1) :
    EnrolleeRequested device before after := by
  obtain ⟨sndMsg, state, same, kept⟩ := refused.data
  refine ⟨by rw [same], by rw [same]; exact id, ?_, fun _ => refused.failures, counted⟩
  rw [same]
  rcases kept with rfl | rfl
  · exact Or.inl
  · simp

theorem eapWpsConfigBuildMessageM1_version {random : Random} {password : Password}
    {exchange : Exchange}
    (built : (eapWpsConfigBuildMessageM1 crypto device random password exchange).1.isSome) :
    device.version ≠ 0 := by
  intro none
  simp [eapWpsConfigBuildMessageM1, none] at built

theorem eapWpsConfigBuildMessageM3_password (crypto : Crypto) (device : Device) (random : Random)
    (rcvMsg : Bytes) (target : TargetInfo) {password : Password} (exchange : Exchange)
    (some : password.devPwd ≠ []) :
    (eapWpsConfigBuildMessageM3 crypto device random rcvMsg target password
      exchange).2.2.devPwd ≠ [] := by
  simp only [eapWpsConfigBuildMessageM3, ensurePassword]
  rw [if_pos some]
  split <;> exact some

def Source.shape : Source → ValType × Nat
  | .u8 _ => (.u8, 1)
  | .u16 _ => (.u16, 2)
  | .u32 _ => (.u32, 4)
  | .bytes value => (.ptr, value.length % 65536)

theorem wpsSetValue_isSome (bigEndian : Bool) (wps : WpsData) {type : Nat} {source : Source}
    (known : (wpsGetTlvSet type).map TlvSet.valueType = some source.shape.1)
    (admits : (wpsMatchTlv type source.shape.2).isSome) :
    ∃ next, wpsSetValue bigEndian wps type source = some next := by
  obtain ⟨set, found, kind⟩ := map_eq_some_iff.mp known
  obtain ⟨other, matched⟩ := isSome_iff_exists.mp admits
  cases source <;> simp_all [wpsSetValue, wpsAddTlv, Source.shape]

theorem eapWpsConfigBuildMessageSpecial_nack {eNonce rNonce : Vector UInt8 16}
    {target : TargetInfo} {exchange : Exchange} (version : device.version ≠ 0) :
    (eapWpsConfigBuildMessageSpecial device .nack eNonce rNonce target exchange).1.isSome := by
  have nonce : ∀ (wps : WpsData) (bytes : Vector UInt8 16) (type : Nat),
      type = WpsType.enrolleeNonce ∨ type = WpsType.registrarNonce →
      ∃ next, wpsSetValue device.bigEndian wps type (.bytes bytes.toList) = some next := by
    rintro wps bytes type (rfl | rfl) <;> apply wpsSetValue_isSome <;>
      simp only [Source.shape, Vector.length_toList] <;> decide
  obtain ⟨first, one⟩ : ∃ next, wpsSetValue device.bigEndian [] WpsType.version
      (.u8 device.version) = some next := by
    apply wpsSetValue_isSome <;> simp only [Source.shape] <;> decide
  obtain ⟨second, two⟩ : ∃ next, wpsSetValue device.bigEndian first WpsType.msgType
      (.u8 Message.nack.code) = some next := by
    apply wpsSetValue_isSome <;> simp only [Source.shape] <;> decide
  obtain ⟨third, three⟩ := nonce second eNonce WpsType.enrolleeNonce (Or.inl rfl)
  obtain ⟨fourth, four⟩ := nonce third rNonce WpsType.registrarNonce (Or.inr rfl)
  obtain ⟨fifth, five⟩ : ∃ next, wpsSetValue device.bigEndian fourth WpsType.configError
      (.u16 target.configError) = some next := by
    apply wpsSetValue_isSome <;> simp only [Source.shape] <;> decide
  simp [eapWpsConfigBuildMessageSpecial, version, keepMessage, messageHead, wpsSetValues, one, two,
    three, four, five]

theorem refuse_requested : EnrolleeRequested device machine (refuse device env 0 machine).2 := by
  refine (refuse_refused device env (fun _ => True) 0 machine trivial trivial).requested ?_
  intro _ version flag
  obtain ⟨sent, changed, same⟩ := refuse_cases device env (fun _ => True) 0 machine trivial trivial
  have built : (eapWpsBuildMessageSpecial device env 0 .nack machine).1.isSome := by
    simp only [eapWpsBuildMessageSpecial, eapWpsBuildProxied, flag]
    exact eapWpsConfigBuildMessageSpecial_nack version
  rw [same, if_pos built]
  simp [Conf.countFailure, changed.conf]

theorem eapWpsBuildReqEnrollee_requested :
    EnrolleeRequested device machine (eapWpsBuildReqEnrollee crypto device env machine).2 := by
  simp only [eapWpsBuildReqEnrollee]
  split
  case h_1 state =>
    rw [sendMessage_snd]
    split
    · next built =>
        refine ⟨by simp [eapWpsBuildMessageM1], by simp [eapWpsBuildMessageM1],
          fun _ => Or.inr (eapWpsConfigBuildMessageM1_version built), ?_, ?_⟩
        · simp [eapWpsBuildMessageM1]
        · simp [state]
    · refine ⟨?_, ?_, ?_, ?_, ?_⟩ <;> simp [eapWpsBuildMessageM1, state]
  case h_2 state =>
    have password : machine.data.password.devPwd ≠ [] →
        (eapWpsBuildMessageM3 crypto device env machine).2.data.password.devPwd ≠ [] := by
      intro some
      have kept := eapWpsConfigBuildMessageM3_password crypto device env.random
        machine.data.rcvMsg machine.target machine.data.exchange some
      simp only [eapWpsBuildMessageM3]
      split <;> exact kept
    rw [sendMessage_snd]
    split
    · exact ⟨eapWpsBuildMessageM3_target device env machine, password,
        fun _ => Or.inl (by simp [state]), by simp, by simp [state]⟩
    · exact ⟨eapWpsBuildMessageM3_target device env machine, password,
        fun _ => Or.inl (by simp [state]), by simp, by simp [state]⟩
  case h_3 state =>
    rw [sendMessage_snd]
    split <;> refine ⟨?_, ?_, ?_, ?_, ?_⟩ <;> simp [eapWpsBuildMessageM5, state]
  case h_4 state =>
    rw [sendMessage_snd]
    split <;> refine ⟨?_, ?_, ?_, ?_, ?_⟩ <;> simp [eapWpsBuildMessageM7, state]
  case h_5 state =>
    have sent := eapWpsBuildMessageSpecial_sent device env (fun _ => True) 0 .nack machine trivial
      trivial
    obtain ⟨sndMsg, same⟩ := sent.data
    rw [sendMessage_snd]
    split
    · split <;> refine ⟨?_, ?_, ?_, ?_, ?_⟩ <;> simp [same, sent.conf, state, Conf.countFailure]
    · refine ⟨?_, ?_, ?_, ?_, ?_⟩ <;> simp [same, sent.conf, state]
  case h_6 state =>
    have sent := eapWpsBuildMessageSpecial_sent device env (fun _ => True) 0 .done
      machine.failureClear trivial trivial
    obtain ⟨sndMsg, same⟩ := sent.data
    rw [sendMessage_snd]
    split <;> refine ⟨?_, ?_, ?_, ?_, ?_⟩ <;> simp [same, state]
  case h_7 => exact refuse_requested

theorem EnrolleeVisit.requested (visit : EnrolleeVisit crypto device failures identity owes machine)
    (good : EnrolleeGood crypto True machine) :
    EnrolleeVisit crypto device failures identity false
      (eapWpsBuildReqEnrollee crypto device env machine).2 := by
  have requested : EnrolleeRequested device machine
      (eapWpsBuildReqEnrollee crypto device env machine).2 := eapWpsBuildReqEnrollee_requested
  have after : EnrolleeGood crypto True (eapWpsBuildReqEnrollee crypto device env machine).2 :=
    eapWpsBuildReqEnrollee_good device good
  have grows := (growing fun event => event.isWrong = false).eapWpsBuildReqEnrollee crypto device
    env machine (fun _ _ => rfl) fun _ _ => rfl
  have job := eapWpsBuildReqEnrollee_job crypto device env machine
  refine ⟨⟨after.log, fun _ => Or.inr after⟩, job.trans visit.idle,
    fun _ => requested.password (visit.password good.present), ?_, ?_, by simp⟩
  · intro state
    exact (requested.version state).elim visit.version id
  · by_cases done : machine.data.state = .done
    · -- the counter is cleared, but only behind a proof of both halves
      obtain ⟨first, second, -⟩ := good.past.settings trivial (by simp [done])
      exact Or.inl (provedBoth_grows grows (provedBoth_of_accepted first second))
    · cases owes with
      | false => exact count_grows visit.count grows (requested.failures done)
      | true =>
        have flag : ¬machine.conf.upnpEnabled := by simp [Idle.fields visit.idle]
        have state := (visit.owing rfl).1
        have version : device.version ≠ 0 := by
          apply visit.version
          simp only [mem_cons, not_mem_nil, or_false] at state ⊢
          tauto
        have counted := requested.counted state version flag
        rcases visit.count with proved | count
        · exact Or.inl (provedBoth_grows grows proved)
        · refine Or.inr ?_
          rw [wrongCount, wrong_grows grows, ← wrongCount, counted]
          exact count

/-- What a response does to the count: nothing, unless both halves were proved
before or a proof is wrong now. -/
structure EnrolleeProcessed (before after : Machine) : Prop where
  password : after.data.password = before.data.password
  fragment : after.data.fragment = before.data.fragment
  version : after.data.state ∈ [.m2, .m3, .m4, .m5, .m6] →
    before.data.state ∈ [.m2, .m3, .m4, .m5, .m6]
  outcome : Grows (fun event => event.isWrong = false) before.log after.log ∧
        before.conf.failures ≤ after.conf.failures ∨
      provedBoth after.log ∨
      after.data.state ∈ [.m4, .m6] ∧ after.conf.failures = before.conf.failures ∧
        ∃ event, after.log = before.log ++ [event]

theorem runProcessor_processed (message : Message) (process : TargetInfo → Verdict × TargetInfo)
    (machine : Machine) (state : machine.data.state ∈ [.m4, .m6]) :
    EnrolleeProcessed machine (runProcessor message process machine).2 := by
  refine ⟨rfl, rfl, id, ?_⟩
  exact Or.inr (Or.inr ⟨state, rfl, _, rfl⟩)

variable {machine after : Machine} {property : Machine → Prop} {opCode : UInt8} {frame : Frame}

theorem eapWpsProcessEnrollee_processed (good : EnrolleeGood crypto True machine)
    (calm : machine.data.state = .m2 → m2WithSettings machine.data.rcvMsg = false) :
    EnrolleeProcessed machine (eapWpsProcessEnrollee crypto device env opCode machine) := by
  by_cases nack : opCode = OpCode.nack.code
  · simp only [eapWpsProcessEnrollee, nack, if_true]
    obtain ⟨target, same, -⟩ := eapWpsProcessMessageSpecial_snd env .nack
      (machine.setState .nack).countFailure
    simp only [Machine.countFailure_data, Machine.setState_data]
    rw [same]
    exact ⟨rfl, rfl, by simp, Or.inl ⟨Grows.refl _ machine.log, Nat.le_succ _⟩⟩
  · simp only [eapWpsProcessEnrollee, nack, if_false]
    split
    case h_1 state =>
      have password : (eapWpsProcessMessageM2 crypto device machine).2.data.password =
        machine.data.password := rfl
      have fragment : (eapWpsProcessMessageM2 crypto device machine).2.data.fragment =
        machine.data.fragment := rfl
      have conf : (eapWpsProcessMessageM2 crypto device machine).2.conf = machine.conf := rfl
      have grows : Grows (fun event : Event => event.isWrong = false) machine.log
          (eapWpsProcessMessageM2 crypto device machine).2.log := Grows.one machine.log rfl
      split
      · next final processed =>
          have taken := m2WithSettings_of_withConfig device (congrArg Prod.fst processed)
          rw [calm state] at taken
          cases taken
      · next final processed =>
          rw [processed] at password fragment conf grows
          exact ⟨password, fragment, by simp [state], Or.inl ⟨grows, Nat.le_of_eq (by rw [← conf]; rfl)⟩⟩
      · next final processed =>
          rw [processed] at password fragment conf grows
          have more : Grows (fun event : Event => event.isWrong = false) machine.log
              (eapWpsProcessMessageM2D final).2.log := grows.trans (Grows.one final.log rfl)
          split
          · exact ⟨password, fragment, by simp, Or.inl ⟨more, Nat.le_of_eq (by rw [← conf]; rfl)⟩⟩
          · exact ⟨password, fragment, by simp [state], Or.inl ⟨more, Nat.le_of_eq (by rw [← conf]; rfl)⟩⟩
    case h_2 state =>
      split
      · next ok =>
          refine ⟨rfl, rfl, by simp [state], Or.inl ⟨Grows.one machine.log ?_, Nat.le_refl _⟩⟩
          rw [show (eapWpsConfigProcessMessageM4 crypto machine.data.rcvMsg machine.data.exchange
            machine.target).1 = .ok from ok]
          rfl
      · exact runProcessor_processed .m4 _ machine (by simp [state])
    case h_3 state =>
      split
      · next ok =>
          refine ⟨rfl, rfl, by simp, Or.inl ⟨Grows.one machine.log ?_, Nat.le_refl _⟩⟩
          rw [show (eapWpsConfigProcessMessageM6 crypto machine.data.rcvMsg machine.data.exchange
            machine.target).1 = .ok from ok]
          rfl
      · exact runProcessor_processed .m6 _ machine (by simp [state])
    case h_4 state =>
      have grows : Grows (fun event : Event => event.isWrong = false) machine.log
          (eapWpsProcessMessageM8 crypto machine).2.log := Grows.one machine.log rfl
      have proved := provedBoth_grows grows (provedBoth_of_accepted
        (good.past.first (by simp [state])) (good.past.second (by simp [state])))
      split
      · split
        · exact ⟨rfl, rfl, by simp, Or.inr (Or.inl proved)⟩
        · exact ⟨rfl, rfl, by simp, Or.inr (Or.inl proved)⟩
      · exact ⟨rfl, rfl, id, Or.inr (Or.inl proved)⟩
    case h_5 state =>
      obtain ⟨target, same, -⟩ := eapWpsProcessMessageSpecial_snd env .ack machine
      split
      · next final processed =>
          rw [processed] at same
          have same : final = _ := same
          have first : Accepted .m4 machine.log ∧ Accepted .m6 machine.log := by
            obtain ⟨first, second, -⟩ := good.past.settings trivial (by simp [state])
            exact ⟨first, second⟩
          subst same
          refine ⟨by rw [finishEnrollee_data], by rw [finishEnrollee_data],
            by simp [finishEnrollee_data], Or.inr (Or.inl ?_)⟩
          rw [finishEnrollee_log]
          exact provedBoth_grows (⟨_, rfl, fun _ _ => trivial⟩ : Grows (fun _ => True) _ _)
            (provedBoth_of_accepted first.1 first.2)
      · next final processed =>
          rw [processed] at same
          have same : final = _ := same
          subst same
          exact ⟨rfl, rfl, id, Or.inl ⟨Grows.refl _ machine.log, Nat.le_refl _⟩⟩
    case h_6 state =>
      obtain ⟨target, same, -⟩ := eapWpsProcessMessageSpecial_snd env .nack machine
      rw [same]
      exact ⟨rfl, rfl, by simp, Or.inl ⟨Grows.refl _ machine.log, Nat.le_refl _⟩⟩
    case h_7 => exact ⟨rfl, rfl, id, Or.inl ⟨Grows.refl _ machine.log, Nat.le_refl _⟩⟩

theorem EnrolleeVisit.processed
    (visit : EnrolleeVisit crypto device failures identity false machine)
    (good : EnrolleeGood crypto True machine) (last : machine.data.fragment = false)
    (calm : machine.data.state = .m2 → m2WithSettings machine.data.rcvMsg = false) :
    ∃ owes, EnrolleeVisit crypto device failures identity owes
      (eapWpsProcessEnrollee crypto device env opCode machine) := by
  have processed : EnrolleeProcessed machine
      (eapWpsProcessEnrollee crypto device env opCode machine) :=
    eapWpsProcessEnrollee_processed good calm
  have after : EnrolleeGood crypto True (eapWpsProcessEnrollee crypto device env opCode machine) :=
    eapWpsProcessEnrollee_good device good fun _ => calm
  have idle : Idle (eapWpsProcessEnrollee crypto device env opCode machine).conf := by
    rcases eapWpsProcessEnrollee_job crypto device env opCode machine with same | ⟨busy, -⟩
    · exact same.trans visit.idle
    · rw [(Idle.fields visit.idle).1] at busy
      cases busy
  have session : EnrolleeSession crypto True identity
      (eapWpsProcessEnrollee crypto device env opCode machine) := ⟨after.log, fun _ => Or.inr after⟩
  have password := visit.password good.present
  rw [← processed.password] at password
  rcases processed.outcome with ⟨grows, counted⟩ | proved | ⟨state, same, event, log⟩
  · exact ⟨false, session, idle, fun _ => password, visit.version ∘ processed.version,
      count_grows visit.count grows counted, by simp⟩
  · exact ⟨false, session, idle, fun _ => password, visit.version ∘ processed.version,
      Or.inl proved, by simp⟩
  · refine ⟨true, session, idle, fun _ => password, visit.version ∘ processed.version, ?_,
      fun _ => ⟨state, processed.fragment.trans last⟩⟩
    rcases visit.count with proved | count
    · have grows : Grows (fun _ => True) machine.log
          (eapWpsProcessEnrollee crypto device env opCode machine).log :=
        ⟨[event], log, fun _ _ => trivial⟩
      exact Or.inl (provedBoth_grows grows proved)
    · refine Or.inr ?_
      have most : wrongCount (eapWpsProcessEnrollee crypto device env opCode machine).log ≤ 1 := by
        simp only [wrongCount]
        split <;> omega
      simp only [Bool.toNat_false, Bool.toNat_true] at count ⊢
      omega

/-- Without a job an enrollee takes the default PIN and leaves the counter alone. -/
theorem eapWpsConfigInitData_enrollee (env : Env)
    (pin : device.defaultPin ≠ [] ∧ device.defaultPin.length < 64)
    (role : machine.data.interface = .enrollee) (idle : Idle machine.conf)
    (absent : machine.data.target = none) :
    (eapWpsConfigInitData device env machine).2.conf.failures = machine.conf.failures ∧
      ((eapWpsConfigInitData device env machine).2.data.target.isSome →
        (eapWpsConfigInitData device env machine).2.data.password.devPwd = device.defaultPin) := by
  simp only [eapWpsConfigInitData, initData]
  split
  · exact ⟨rfl, by simp [absent]⟩
  · split
    · exact ⟨rfl, by simp [absent]⟩
    · have forget : forgetFailures machine.data.interface machine.conf = machine.conf := by
        simp [forgetFailures, role]
      have busy := idle.fields.1
      refine ⟨by simp [forget], fun _ => ?_⟩
      have kept := prepareData_password device env machine.conf
        { machine.data with target := some TargetInfo.zero }
      simp only [Machine.emit_data, forget, kept]
      simp [takeJobParameters, busy, pin, role]

theorem EnrolleeVisit.data (visit : EnrolleeVisit crypto device failures identity owes before)
    (conf : after.conf = before.conf) (log : after.log = before.log)
    (state : after.data.state = before.data.state)
    (password : after.data.password = before.data.password)
    (exchange : after.data.exchange = before.data.exchange)
    (target : after.data.target = before.data.target)
    (fragment : owes → after.data.fragment = before.data.fragment) :
    EnrolleeVisit crypto device failures identity owes after := by
  refine ⟨visit.session.data log state password exchange target, conf ▸ visit.idle, ?_, ?_, ?_,
    fun owed => ?_⟩
  · rw [target, password]
    exact visit.password
  · rw [state]
    exact visit.version
  · rw [log, conf]
    exact visit.count
  · rw [state, fragment owed]
    exact visit.owing owed

theorem EnrolleeVisit.early (role : interfaceOf identity = some .enrollee)
    (visit : EnrolleeVisit crypto device failures identity owes machine)
    (absent : machine.data.target = none) :
    machine.data.state ∉ [.m2, .m3, .m4, .m5, .m6] ∧ owes = false := by
  have early : machine.data.state ∈ [.start, .nack] := by
    rcases visit.session.begun role with ⟨-, early⟩ | good
    · exact early
    · exact absurd absent (isSome_iff_ne_none.mp good.present)
  simp only [mem_cons, not_mem_nil, or_false] at early
  constructor
  · rcases early with early | early <;> simp [early]
  · cases owes with
    | false => rfl
    | true =>
      have owing := (visit.owing rfl).1
      rcases early with early | early <;> simp [early] at owing

variable {ok : Bool}

theorem EnrolleeVisit.enters {owes : Bool}
    (pin : device.defaultPin ≠ [] ∧ device.defaultPin.length < 64)
    (role : interfaceOf identity = some .enrollee)
    (visit : EnrolleeVisit crypto device failures identity owes machine)
    (entered : Enters device env identity machine ok after) :
    EnrolleeVisit crypto device failures identity owes after := by
  have session := visit.session.enters device entered
  cases entered with
  | unknown known => exact visit
  | again interface known present => exact visit.data rfl rfl rfl rfl rfl rfl fun _ => rfl
  | first interface known absent =>
    have same : interface = .enrollee := by
      rw [known] at role
      exact some.inj role
    subst same
    obtain ⟨early, rfl⟩ := visit.early role absent
    have made := eapWpsConfigInitData_initialised device env
      { machine with data := { machine.data with interface := .enrollee } } absent
    have job := eapWpsConfigInitData_job device env
      { machine with data := { machine.data with interface := .enrollee } }
    obtain ⟨counted, password⟩ := eapWpsConfigInitData_enrollee env pin
      (show ({ machine with data := { machine.data with interface := .enrollee } } :
        Machine).data.interface = .enrollee from rfl) visit.idle absent
    refine ⟨session, job.trans visit.idle, fun present => ?_, ?_, ?_, by simp⟩
    · rw [password present]
      exact pin.1
    · intro state
      exfalso
      rcases made.state with same | same
      · rw [same] at state
        exact early state
      · simp [same] at state
    · refine count_grows visit.count ?_ (Nat.le_of_eq counted.symm)
      rw [made.log]
      exact Grows.one machine.log rfl

theorem EnrolleeVisit.requests (pin : device.defaultPin ≠ [] ∧ device.defaultPin.length < 64)
    (role : interfaceOf identity = some .enrollee)
    (visit : EnrolleeVisit crypto device failures identity owes machine)
    (requests : Requests crypto device env identity machine after) :
    EnrolleeVisit crypto device failures identity false after := by
  cases requests with
  | fragment more =>
    cases owes with
    | false => exact visit
    | true =>
      have last := (visit.owing rfl).2
      rw [more] at last
      cases last
  | refused ok after entered stuck =>
    have here := visit.enters pin role entered
    cases owes with
    | false => exact here
    | true =>
      cases entered with
      | unknown known =>
        rw [role] at known
        cases known
      | again interface known present =>
        rcases stuck with stuck | stuck
        · cases stuck
        · rw [role, show interface = .none from stuck] at known
          cases known
      | first interface known absent => cases (visit.early role absent).2
  | registrar after entered known =>
    have registrar := entered.role device env rfl
    rw [role, known] at registrar
    cases registrar
  | enrollee after entered known =>
    have here := visit.enters pin role entered
    exact here.requested (here.session.good device entered known)

theorem EnrolleeVisit.failed (visit : EnrolleeVisit crypto device failures identity false machine) :
    EnrolleeVisit crypto device failures identity false (machine.setState .nack).countFailure :=
  ⟨visit.session.failed, visit.idle, visit.password, by simp,
    count_grows visit.count (Grows.refl _ machine.log) (Nat.le_succ _), by simp⟩

theorem EnrolleeVisit.processes (pin : device.defaultPin ≠ [] ∧ device.defaultPin.length < 64)
    (role : interfaceOf identity = some .enrollee)
    (visit : EnrolleeVisit crypto device failures identity false machine)
    (calm : machine.data.state = .m2 → frame.moreFragments = false →
      ∀ msgLen, frame.msgLen device = some msgLen →
        m2WithSettings (receive frame msgLen machine.data).rcvMsg = false)
    (processes : Processes crypto device env identity frame machine after) :
    ∃ owes, EnrolleeVisit crypto device failures identity owes after := by
  have received : ∀ msgLen, EnrolleeVisit crypto device failures identity false
      (machine.received frame msgLen) :=
    fun _ => visit.data rfl rfl rfl rfl rfl rfl (by simp)
  cases processes with
  | mismatch => exact ⟨false, visit.failed⟩
  | fragment msgLen length => exact ⟨false, received msgLen⟩
  | refused msgLen ok after length entered =>
    exact ⟨false, ((received msgLen).enters pin role entered).failed⟩
  | registrar msgLen after length entered known =>
    have registrar := entered.role device env rfl
    rw [role, known] at registrar
    cases registrar
  | enrollee msgLen after length last entered known =>
    have here := (received msgLen).enters pin role entered
    refine here.processed (here.session.good device entered known) ?_ ?_
    · rw [entered.fragment]
      exact last
    · intro state
      generalize ok : true = passed at entered
      cases entered with
      | unknown none => cases ok
      | again interface known present => exact calm state last msgLen length
      | first interface known absent =>
        have early := ((received msgLen).early role absent).1
        have made := eapWpsConfigInitData_initialised device env
          { machine.received frame msgLen with
            data := { (machine.received frame msgLen).data with
              interface := interface } } absent
        rcases made.state with same | same
        · rw [state] at same
          rw [← show State.m2 = (machine.received frame msgLen).data.state from same] at early
          simp at early
        · rw [state] at same
          cases same

/-! ## One session on its own -/

def At (identity : Bytes) (property : Machine → Prop) (system : System) : Prop :=
  ∃ session, system.sessions 0 = some session ∧ session.identity = identity ∧
    property (session.machine system.conf)

theorem At.update {property : Machine → Prop} (system : System) (pending : Pending)
    {machine : Machine} (here : property machine) :
    At identity property (system.update 0 identity pending machine) :=
  ⟨⟨identity, pending, machine.data, machine.log⟩, Function.update_self 0 _ system.sessions, rfl,
    here⟩

variable {system : System}

theorem At.input (before between property : Machine → Prop) (now : At identity before system)
    (input : Input) (keep : ∀ machine, before machine → property machine)
    (weaken : ∀ machine, before machine → between machine)
    (request : ∀ env machine, between machine →
      property (eapWpsBuildReq crypto device env identity machine).2)
    (process : ∀ frame env next session, input = .respond frame env next →
      system.sessions 0 = some session → session.pending = .idle ∧ eapWpsCheck device frame →
      session.identity = identity → before (session.machine system.conf) →
      between (eapWpsProcess crypto device env identity frame (session.machine system.conf)).2)
    (settle : ∀ env frame machine,
      between (eapWpsProcess crypto device env identity frame machine).2 →
      (eapWpsProcess crypto device env identity frame machine).2.data.state = .failure ∨
        (eapWpsProcess crypto device env identity frame machine).1 = true →
      property (eapWpsProcess crypto device env identity frame machine).2) :
    At identity property (step crypto device system input.action) := by
  obtain ⟨session, present, rfl, here⟩ := now
  have moves := step_moves crypto device system input.action
  generalize step crypto device system input.action = after at moves
  generalize same : input.action = action at moves
  cases moves with
  | proposed id identity env => cases input <;> cases same
  | processed id frame env next other pending found delivered stays =>
    cases input <;> cases same
    rw [present] at found
    cases found
    exact At.update system pending (settle env frame _
      (process frame env next session rfl present delivered rfl here) stays)
  | answered id frame env next other found delivered proceeds =>
    cases input <;> cases same
    rw [present] at found
    cases found
    exact At.update system .idle (request next _
      (process frame env next session rfl present delivered rfl here))
  | requested id env other action found asks =>
    have own : id = 0 := by rcases asks with rfl | rfl <;> cases input <;> cases same <;> rfl
    subst own
    rw [present] at found
    cases found
    exact At.update system .idle (request env _ (weaken _ here))
  | ignored action => exact ⟨session, present, rfl, keep _ here⟩
  | reset id => cases input <;> cases same
  | enabled params time ieSet => cases input <;> cases same
  | disabled => cases input <;> cases same
  | ticked time => cases input <;> cases same

theorem EnrolleeVisit.input (pin : device.defaultPin ≠ [] ∧ device.defaultPin.length < 64)
    (role : interfaceOf identity = some .enrollee)
    (now : At identity (EnrolleeVisit crypto device failures identity false) system)
    (input : Input) (calm : plainM2 device system input.action = true) :
    At identity (EnrolleeVisit crypto device failures identity false)
      (step crypto device system input.action) := by
  refine At.input _ (fun machine => ∃ owes,
    EnrolleeVisit crypto device failures identity owes machine) _ now input (fun _ => id)
    (fun machine visit => ⟨false, visit⟩) ?_ ?_ ?_
  · rintro env machine ⟨owes, visit⟩
    exact visit.requests pin role (eapWpsBuildReq_requests crypto device env identity machine)
  · rintro frame env next session rfl present ⟨idle, checked⟩ rfl visit
    refine visit.processes pin role ?_ (eapWpsProcess_processes crypto device env _ frame _)
    intro state last msgLen length
    simp only [Input.action, plainM2, present, idle, checked, role,
      show session.data.state = .m2 from state, last, length] at calm
    simpa [Session.machine] using calm
  · rintro env frame machine ⟨owes, visit⟩ stays
    cases owes with
    | false => exact visit
    | true =>
      exfalso
      have state := (visit.owing rfl).1
      rcases stays with ended | waits
      · simp [ended] at state
      · -- with a password and without the flag nothing waits
        have must := eapWpsProcess_waits crypto device waits
        have flag := (Idle.fields visit.idle).2.2.2
        have some : (eapWpsProcess crypto device env identity frame
            machine).2.data.password.devPwd ≠ [] := by
          rcases visit.session.begun role with ⟨absent, -⟩ | good
          · have owed := (visit.early role absent).2
            cases owed
          · exact visit.password good.present
        simp [mustWait, some, flag] at must

/-! ## The counter -/

def Conf.HasRoom (conf : Conf) : Prop := (conf.failures : Int) < Int32.maxValue.toInt

instance (conf : Conf) : Decidable conf.HasRoom := inferInstanceAs (Decidable (_ < _))

theorem Conf.nfailure_toInt (room : (conf.failures : Int) ≤ Int32.maxValue.toInt) :
    conf.nfailure.toInt = conf.failures := by
  rw [Int32.toInt_maxValue] at room
  exact Int32.toInt_ofNat_of_lt (by omega)

/-- The counter has not wrapped where a call will look at it. -/
def Machine.Exact (machine : Machine) : Prop :=
  machine.data.target = none → (machine.conf.failures : Int) ≤ Int32.maxValue.toInt

theorem Enters.failures_le (entered : Enters device env identity machine ok after) :
    after.conf.failures ≤ machine.conf.failures := by
  cases entered with
  | unknown known => exact Nat.le_refl _
  | again interface known present => exact Nat.le_refl _
  | first interface known absent =>
    simp only [eapWpsConfigInitData, initData]
    split
    · exact Nat.le_refl _
    · split
      · exact Nat.le_refl _
      · simp only [forgetFailures]
        split
        · exact Nat.zero_le _
        · exact Nat.le_refl _

/-! ## A session in which nothing is guessed -/

def withoutPassword : List State := [.start, .m1, .m2d1, .m2d2, .m3, .m4, .ack, .nack, .failure]

/-- What a registrar without a password does in a call. -/
structure Powerless (before after : Machine) : Prop where
  job : after.conf.job = before.conf.job
  password : after.data.password = before.data.password
  target : before.data.target.isSome → after.data.target.isSome
  state : after.data.state ∈ withoutPassword
  failures : before.conf.failures ≤ after.conf.failures

theorem Refused.powerless {kind : Event → Prop} {before after : Machine}
    (refused : Refused kind before after) (state : before.data.state ∈ withoutPassword) :
    Powerless before after := by
  obtain ⟨sndMsg, next, same, kept⟩ := refused.data
  refine ⟨refused.job, by rw [same], by rw [same]; exact id, ?_, refused.failures⟩
  rw [same]
  rcases kept with rfl | rfl
  · exact state
  · simp [withoutPassword]

theorem eapWpsBuildReqRegistrar_powerless (flag : machine.conf.upnpEnabled = false)
    (none : machine.data.password.devPwd = []) (allowed : machine.data.state ∈ withoutPassword) :
    Powerless machine (eapWpsBuildReqRegistrar crypto device env machine).2 := by
  have states := allowed
  simp only [withoutPassword] at states
  simp only [eapWpsBuildReqRegistrar]
  split
  case h_1 => exact ⟨rfl, rfl, id, by simp [sendMessage, withoutPassword], Nat.le_refl _⟩
  case h_2 state => simp [state] at states
  case h_3 state =>
    have sent := eapWpsBuildMessageM2D_advertised device env machine
    have moved : (eapWpsBuildMessageM2D device env machine).2.data.state ∈ withoutPassword := by
      rcases sent.state with same | moved
      · exact same ▸ allowed
      · simp only [withoutPassword, mem_cons, not_mem_nil, or_false] at moved ⊢
        tauto
    rw [sendMessage_snd]
    split
    · simp only [afterM2D]
      split
      · exact ⟨sent.job, sent.password, sent.target, by simp [withoutPassword], sent.failures⟩
      · exact ⟨sent.job, sent.password, sent.target, moved, sent.failures⟩
    · exact ⟨sent.job, sent.password, sent.target, moved, sent.failures⟩
  case h_4 state =>
    split
    · exact ⟨rfl, rfl, id, by simp [withoutPassword], Nat.le_refl _⟩
    · exact ⟨rfl, rfl, id, by simp [sendMessage, withoutPassword], Nat.le_refl _⟩
  case h_5 state =>
    -- M4 needs a password
    obtain ⟨conf, exchange, data⟩ := eapWpsBuildProxied_data env 0 .m4
      (eapWpsConfigBuildMessageM4 crypto device env.random machine.data.rcvMsg machine.target
        machine.data.password) machine
    have nothing : (eapWpsBuildMessageM4 crypto device env machine).1 = .none := by
      simp [eapWpsBuildMessageM4, eapWpsBuildProxied, flag, eapWpsConfigBuildMessageM4, none]
    rw [sendMessage_snd, nothing]
    simp only [eapWpsBuildMessageM4, isSome_none, Bool.false_eq_true, if_false]
    exact ⟨by rw [conf], by rw [data], by rw [data]; exact id, by rw [data]; exact allowed,
      Nat.le_of_eq (by rw [conf])⟩
  case h_6 state => simp [state] at states
  case h_7 state => simp [state] at states
  case h_8 =>
    exact (refuseTwice_refused device env (fun _ => True) machine trivial trivial).powerless allowed
  case h_9 =>
    exact (refuse_refused device env (fun _ => True) 0 machine trivial trivial).powerless allowed

theorem acceptOrRefuse_powerless {next : State} {result : Verdict × Machine}
    (job : result.2.conf = machine.conf) (password : result.2.data.password = machine.data.password)
    (target : machine.data.target.isSome → result.2.data.target.isSome)
    (allowed : next ∈ withoutPassword) : Powerless machine (acceptOrRefuse next result) := by
  simp only [acceptOrRefuse]
  split
  · exact ⟨congrArg Conf.job job, password, target, allowed, Nat.le_of_eq (by rw [← job]; rfl)⟩
  · refine ⟨?_, password, target, by simp [withoutPassword], ?_⟩
    · show result.2.conf.job = machine.conf.job
      rw [job]
    · rw [← job]
      exact Nat.le_succ _

theorem eapWpsProcessRegistrar_powerless (none : machine.data.password.devPwd = [])
    (allowed : machine.data.state ∈ withoutPassword) :
    Powerless machine (eapWpsProcessRegistrar crypto device env opCode machine) := by
  have start : ∀ after : Machine,
      (if opCode = OpCode.nack.code then
        (if machine.data.state.rank < State.m7.rank then machine.countFailure
          else machine).setState .nack
      else machine) = after → Powerless machine after := by
    rintro after rfl
    split
    · split
      · exact ⟨rfl, rfl, id, by simp [withoutPassword], Nat.le_succ _⟩
      · exact ⟨rfl, rfl, id, by simp [withoutPassword], Nat.le_refl _⟩
    · exact ⟨rfl, rfl, id, allowed, Nat.le_refl _⟩
  simp only [eapWpsProcessRegistrar]
  generalize begun : (if opCode = OpCode.nack.code then _ else machine) = after
  have first := start after begun
  suffices second : Powerless after _ from ⟨second.job.trans first.job,
    second.password.trans first.password, second.target ∘ first.target, second.state,
    Nat.le_trans first.failures second.failures⟩
  have states := first.state
  simp only [withoutPassword] at states
  split
  case h_1 state =>
    refine acceptOrRefuse_powerless rfl rfl (fun _ => rfl) ?_
    simp [first.password, none, withoutPassword]
  case h_2 state =>
    obtain ⟨conf, target, data, kept⟩ := eapWpsProcessProxied_data env .m3
      (eapWpsConfigProcessMessageM3 crypto after.data.rcvMsg after.data.exchange) after
    exact acceptOrRefuse_powerless conf (by rw [eapWpsProcessMessageM3, data])
      (by rw [eapWpsProcessMessageM3, data]; exact kept) (by simp [withoutPassword])
  case h_3 state => simp [state] at states
  case h_4 state => simp [state] at states
  case h_5 state => simp [state] at states
  case h_6 state =>
    obtain ⟨target, same, -, kept⟩ := eapWpsProcessMessageSpecial_snd env .ack after
    split
    · next final processed =>
        rw [processed] at same
        subst same
        exact ⟨rfl, rfl, kept, by simp [withoutPassword], Nat.le_refl _⟩
    · next final processed =>
        rw [processed] at same
        subst same
        exact ⟨rfl, rfl, kept, by simp [withoutPassword], Nat.le_refl _⟩
  case h_7 state =>
    obtain ⟨target, same, -, kept⟩ := eapWpsProcessMessageSpecial_snd env .nack after
    rw [same]
    exact ⟨rfl, rfl, kept, by simp [withoutPassword], Nat.le_refl _⟩
  case h_8 => exact ⟨rfl, rfl, id, first.state, Nat.le_refl _⟩

/-- A session in which we are not the enrollee, or one that is refused. -/
structure QuietVisit (failures : Nat) (identity : Bytes) (machine : Machine) : Prop where
  idle : Idle machine.conf
  password : machine.data.password.devPwd = []
  state : machine.data.state ∈ withoutPassword
  count : failures ≤ machine.conf.failures
  log : ∀ event ∈ machine.log, event.fits .registrar ∧
    (interfaceOf identity = some .enrollee → event = .initData false)
  absent : interfaceOf identity = some .enrollee → machine.data.target = none

theorem QuietVisit.powerless (visit : QuietVisit failures identity before)
    (role : interfaceOf identity = some .registrar) (kept : Powerless before after)
    (grows : Grows (Event.fits .registrar) before.log after.log) :
    QuietVisit failures identity after := by
  have other : interfaceOf identity ≠ some .enrollee := by simp [role]
  refine ⟨kept.job.trans visit.idle, by rw [kept.password]; exact visit.password, kept.state,
    Nat.le_trans visit.count kept.failures, fun event member => ⟨?_, fun role => absurd role other⟩,
    fun role => absurd role other⟩
  exact (grows.mem_cases member).elim (fun earlier => (visit.log event earlier).1) id

theorem QuietVisit.failed (visit : QuietVisit failures identity machine) :
    QuietVisit failures identity (machine.setState .nack).countFailure :=
  ⟨visit.idle, visit.password, by simp [withoutPassword], Nat.le_succ_of_le visit.count,
    visit.log, visit.absent⟩

theorem eapWpsConfigInitData_count (spare : failures = 0 ∨ eapWpsFailureLimit ≤ failures)
    (exact_count : (machine.conf.failures : Int) ≤ Int32.maxValue.toInt)
    (count : failures ≤ machine.conf.failures) :
    failures ≤ (eapWpsConfigInitData device env machine).2.conf.failures := by
  simp only [eapWpsConfigInitData, initData]
  split
  · exact count
  · split
    · exact count
    · simp only [forgetFailures, Conf.nfailure_toInt exact_count]
      split
      · next few =>
          rcases spare with none | many
          · simp [none]
          · omega
      · exact count

theorem eapWpsConfigInitData_locked (device : Device) (env : Env) (idle : Idle machine.conf)
    (role : machine.data.interface = .enrollee)
    (many : eapWpsFailureLimit < machine.conf.nfailure.toInt) :
    ∃ locked, eapWpsConfigInitData device env machine =
      (false, { machine with conf := { machine.conf with apSetupLocked := locked } }.emit
        (.initData false)) := by
  simp only [eapWpsConfigInitData, initData]
  split
  · exact ⟨machine.conf.apSetupLocked, rfl⟩
  · rw [if_pos ⟨many, role, idle.fields.2.1⟩]
    exact ⟨true, rfl⟩

/-- What the count is at the start: there is nothing to forget for a registrar,
and an enrollee comes behind the limit. -/
structure Spare (failures : Nat) (identity : Bytes) : Prop where
  registrar : interfaceOf identity = some .registrar →
    failures = 0 ∨ eapWpsFailureLimit ≤ failures
  enrollee : interfaceOf identity = some .enrollee → eapWpsFailureLimit < failures

theorem QuietVisit.enters {ok : Bool} (spare : Spare failures identity)
    (visit : QuietVisit failures identity machine) (exact_count : machine.Exact)
    (entered : Enters device env identity machine ok after) :
    QuietVisit failures identity after ∧
      (ok = true → interfaceOf identity = some .registrar) := by
  cases entered with
  | unknown known => exact ⟨visit, fun ok => by cases ok⟩
  | again interface known present =>
    refine ⟨⟨visit.idle, visit.password, visit.state, visit.count, visit.log, visit.absent⟩,
      fun _ => ?_⟩
    cases interface with
    | none => exact absurd known (interfaceOf_ne_none identity)
    | registrar => exact known
    | enrollee => simp [visit.absent known] at present
  | first interface known absent =>
    have snoc : ∀ ok, (interface = .enrollee → ok = false) →
        ∀ event ∈ machine.log ++ [.initData ok], event.fits .registrar ∧
          (interfaceOf identity = some .enrollee → event = .initData false) := by
      intro ok locked event member
      rcases mem_append.mp member with member | member
      · exact visit.log event member
      · rw [mem_singleton.mp member]
        refine ⟨trivial, fun role => ?_⟩
        rw [known] at role
        rw [locked (some.inj role)]
    cases interface with
    | none => exact absurd known (interfaceOf_ne_none identity)
    | registrar =>
      have other : interfaceOf identity ≠ some .enrollee := by simp [known]
      have made := eapWpsConfigInitData_initialised device env
        { machine with data := { machine.data with interface := .registrar } } absent
      have job := eapWpsConfigInitData_job device env
        { machine with data := { machine.data with interface := .registrar } }
      have password := eapWpsConfigInitData_password device env
        (show ({ machine with data := { machine.data with interface := .registrar } } :
          Machine).data.interface = .registrar from rfl)
      refine ⟨⟨job.trans visit.idle, ?_, ?_, eapWpsConfigInitData_count (spare.registrar known)
        (exact_count absent) visit.count, ?_, fun role => absurd role other⟩, fun _ => known⟩
      · rcases password with ⟨same, -⟩ | ⟨busy, -⟩
        · rw [same]
          exact visit.password
        · rw [show machine.conf.wpsJobBusy = false from (Idle.fields visit.idle).1] at busy
          cases busy
      · rcases made.state with same | same
        · rw [same]
          exact visit.state
        · simp [same, withoutPassword]
      · rw [made.log]
        exact snoc _ fun none => by cases none
    | enrollee =>
      have many : eapWpsFailureLimit < machine.conf.nfailure.toInt := by
        rw [Conf.nfailure_toInt (exact_count absent)]
        exact Int.ofNat_lt.mpr (Nat.lt_of_lt_of_le (spare.enrollee known) visit.count)
      obtain ⟨locked, same⟩ := eapWpsConfigInitData_locked device env
        (show Idle ({ machine with data := { machine.data with interface := .enrollee } } :
          Machine).conf from visit.idle) rfl many
      rw [same]
      exact ⟨⟨visit.idle, visit.password, visit.state, visit.count, snoc false fun _ => rfl,
        visit.absent⟩, fun ok => by cases ok⟩

theorem Enters.registrar {ok : Bool} (entered : Enters device env identity machine ok after)
    (good : ok = true) (role : interfaceOf identity = some .registrar) :
    after.data.interface = .registrar := by
  have known := entered.role device env good
  rw [role] at known
  exact (some.inj known).symm

theorem QuietVisit.requests (spare : Spare failures identity)
    (visit : QuietVisit failures identity machine) (exact_count : machine.Exact)
    (requests : Requests crypto device env identity machine after) :
    QuietVisit failures identity after := by
  cases requests with
  | fragment more => exact visit
  | refused ok after entered stuck => exact (visit.enters spare exact_count entered).1
  | registrar after entered known =>
    obtain ⟨here, role⟩ := visit.enters spare exact_count entered
    exact here.powerless (role rfl)
      (eapWpsBuildReqRegistrar_powerless (Idle.fields here.idle).2.2.2 here.password here.state)
      (eapWpsBuildReqRegistrar_grows crypto device env after)
  | enrollee after entered known =>
    have registrar := entered.registrar rfl ((visit.enters spare exact_count entered).2 rfl)
    rw [known] at registrar
    cases registrar

/-- A response counts at most one failure where no session is under way. -/
theorem QuietVisit.processes (spare : Spare failures identity)
    (visit : QuietVisit failures identity machine) (room : machine.conf.HasRoom)
    (processes : Processes crypto device env identity frame machine after) :
    QuietVisit failures identity after ∧ after.Exact := by
  have received : ∀ msgLen, QuietVisit failures identity (machine.received frame msgLen) :=
    fun _ => ⟨visit.idle, visit.password, visit.state, visit.count, visit.log, visit.absent⟩
  have exact_count : ∀ msgLen, (machine.received frame msgLen).Exact :=
    fun _ _ => Int.le_of_lt room
  have few : ∀ count, count ≤ machine.conf.failures + 1 → (count : Int) ≤ Int32.maxValue.toInt := by
    intro count most
    unfold Conf.HasRoom at room
    omega
  cases processes with
  | mismatch => exact ⟨visit.failed, fun _ => few _ (Nat.le_refl _)⟩
  | fragment msgLen length => exact ⟨received msgLen, fun _ => few _ (Nat.le_succ _)⟩
  | refused msgLen ok after length entered =>
    exact ⟨((received msgLen).enters spare (exact_count msgLen) entered).1.failed,
      fun _ => few _ (Nat.succ_le_succ entered.failures_le)⟩
  | registrar msgLen after length entered known =>
    obtain ⟨here, role⟩ := (received msgLen).enters spare (exact_count msgLen) entered
    have kept : Powerless after (eapWpsProcessRegistrar crypto device env frame.opCode after) :=
      eapWpsProcessRegistrar_powerless here.password here.state
    refine ⟨here.powerless (role rfl) kept
      (eapWpsProcessRegistrar_grows crypto device env frame.opCode after), fun absent => ?_⟩
    exact absurd absent (isSome_iff_ne_none.mp (kept.target (entered.present device env rfl)))
  | enrollee msgLen after length last entered known =>
    have registrar := entered.registrar rfl
      (((received msgLen).enters spare (exact_count msgLen) entered).2 rfl)
    rw [known] at registrar
    cases registrar

theorem QuietVisit.input {system : System} (spare : Spare failures identity)
    (now : At identity (QuietVisit failures identity) system) (room : system.conf.HasRoom)
    (input : Input) :
    At identity (QuietVisit failures identity) (step crypto device system input.action) := by
  obtain ⟨session, found, same, here⟩ := now
  refine At.input (fun machine => QuietVisit failures identity machine ∧ machine.conf.HasRoom)
    (fun machine => QuietVisit failures identity machine ∧ machine.Exact) _
    ⟨session, found, same, here, room⟩ input (fun _ now => now.1)
    (fun _ now => ⟨now.1, fun _ => Int.le_of_lt now.2⟩) ?_ ?_ (fun _ _ _ now _ => now.1)
  · rintro env machine ⟨here, exact_count⟩
    exact here.requests spare exact_count (eapWpsBuildReq_requests crypto device env identity machine)
  · rintro frame env next other - - - - ⟨here, room⟩
    exact here.processes spare room (eapWpsProcess_processes crypto device env identity frame _)

/-! ## Sessions one after the other -/

/-- A registrar is served only where there are no failures to forget, no M2 with
encrypted settings reaches an enrollee, and the counter has room before every step. -/
structure Careful (crypto : Crypto) (device : Device) (record : Record) (visit : Visit) : Prop where
  spare : interfaceOf visit.identity = some .registrar →
    record.conf.nfailure = 0 ∨ eapWpsFailureLimit ≤ record.conf.nfailure.toInt
  room : record.conf.HasRoom
  steps : Along (step crypto device)
    (fun system action => plainM2 device system action ∧ system.conf.HasRoom)
    (step crypto device ⟨record.conf, fun _ => none, []⟩ (.propose 0 visit.identity visit.env))
    (visit.inputs.map Input.action)

theorem At.serve {condition : System → Action → Prop}
    (start : property (eapWpsBuildReq crypto device visit.env visit.identity
      ⟨conf, EapWpsData.zero, []⟩).2)
    (input : ∀ system (input : Input), condition system input.action →
      At visit.identity property system →
      At visit.identity property (step crypto device system input.action))
    (along : Along (step crypto device) condition
      (step crypto device ⟨conf, fun _ => none, []⟩ (.propose 0 visit.identity visit.env))
      (visit.inputs.map Input.action)) :
    property ⟨(serve crypto device conf visit).conf,
      (((serve crypto device conf visit).sessions 0).map Session.data).getD EapWpsData.zero,
      logOf (serve crypto device conf visit) 0⟩ := by
  have first : At visit.identity property (step crypto device ⟨conf, fun _ => none, []⟩
      (.propose 0 visit.identity visit.env)) := At.update _ .idle start
  have final : At visit.identity property (Wps.serve crypto device conf visit) := by
    simp only [Wps.serve]
    generalize step crypto device ⟨conf, fun _ => none, []⟩
      (.propose 0 visit.identity visit.env) = system at first along
    generalize visit.inputs = inputs at along
    induction inputs generalizing system with
    | nil => exact first
    | cons head rest ih =>
      obtain ⟨here, later⟩ := along
      exact ih _ (input system head here first) later
  obtain ⟨session, found, -, holds⟩ := final
  simp only [logOf, found]
  exact holds

section

variable {record : Record}

theorem serve_enrollee
    (pin : device.defaultPin ≠ [] ∧ device.defaultPin.length < 64) (idle : Idle record.conf)
    (role : interfaceOf visit.identity = some .enrollee)
    (careful : Careful crypto device record visit) :
    Idle (serve crypto device record.conf visit).conf ∧
      (provedBoth (logOf (serve crypto device record.conf visit) 0) ∨
        record.conf.failures + wrongCount (logOf (serve crypto device record.conf visit) 0) ≤
          (serve crypto device record.conf visit).conf.failures) := by
  have fresh : EnrolleeVisit crypto device record.conf.failures visit.identity false
      ⟨record.conf, EapWpsData.zero, []⟩ :=
    ⟨⟨Justified.nil _, fun _ => Or.inl ⟨rfl, by simp [EapWpsData.zero]⟩⟩, idle,
      by simp [EapWpsData.zero], by simp [EapWpsData.zero], Or.inr (by simp [wrongCount, wrong]),
      by simp⟩
  have final := At.serve (fresh.requests pin role (eapWpsBuildReq_requests crypto device _ _ _))
    (fun system input calm now => EnrolleeVisit.input pin role now input calm.1) careful.steps
  exact ⟨final.idle, final.count⟩

theorem serve_quiet (idle : Idle record.conf) (careful : Careful crypto device record visit)
    (locked : interfaceOf visit.identity = some .enrollee →
      eapWpsFailureLimit < record.conf.failures) :
    QuietVisit record.conf.failures visit.identity
      ⟨(serve crypto device record.conf visit).conf,
        (((serve crypto device record.conf visit).sessions 0).map Session.data).getD
          EapWpsData.zero, logOf (serve crypto device record.conf visit) 0⟩ := by
  have counted := Conf.nfailure_toInt (Int.le_of_lt careful.room)
  have spare : Spare record.conf.failures visit.identity := by
    refine ⟨fun registrar => ?_, locked⟩
    rcases careful.spare registrar with none | many
    · rw [none, show (0 : Int32).toInt = 0 from rfl] at counted
      exact Or.inl (by omega)
    · exact Or.inr (by omega)
  have fresh : QuietVisit record.conf.failures visit.identity
      ⟨record.conf, EapWpsData.zero, []⟩ :=
    ⟨idle, rfl, by simp [EapWpsData.zero, withoutPassword], Nat.le_refl _, by simp, fun _ => rfl⟩
  exact At.serve (fresh.requests spare (fun _ => Int.le_of_lt careful.room)
    (eapWpsBuildReq_requests crypto device _ _ _))
    (fun system input calm now => QuietVisit.input spare now calm.2 input) careful.steps

end

theorem wrong_of_registrar {log : List Event} (fits : ∀ event ∈ log, event.fits .registrar) :
    wrong log = false ∧ provedBoth log = false := by
  have none : ∀ event ∈ log, event.isWrong = false ∧ event.isAccepted .m4 = false := by
    intro event member
    have role := fits event member
    cases event with
    | processed message verdict who devPwd =>
      cases message <;> cases verdict <;> first | exact ⟨rfl, rfl⟩ | cases role
    | _ => exact ⟨rfl, rfl⟩
  constructor
  · rw [wrong, List.any_eq_false]
    intro event member
    simp [(none event member).1]
  · rw [provedBoth, Bool.and_eq_false_iff, List.any_eq_false]
    refine Or.inl fun event member => ?_
    simp [(none event member).2]

/-- The wrong sessions so far are among the failures that were counted. -/
structure Bounded (record : Record) : Prop where
  idle : Idle record.conf
  counted : record.streak ≤ record.conf.failures
  limit : record.streak ≤ eapWpsFailureLimit + 1

theorem Bounded.next {record : Record} {visit : Visit}
    (pin : device.defaultPin ≠ [] ∧ device.defaultPin.length < 64)
    (careful : Careful crypto device record visit) (bounded : Bounded record) :
    Bounded (record.next crypto device visit) := by
  by_cases role : interfaceOf visit.identity = some .enrollee
  · obtain ⟨idle, count⟩ := serve_enrollee pin bounded.idle role careful
    simp only [Record.next]
    split
    · exact ⟨idle, Nat.zero_le _, Nat.zero_le _⟩
    · next unproved =>
        have count := count.resolve_left unproved
        simp only [wrongCount] at count
        split
        · next wrongly =>
            rw [if_pos wrongly] at count
            refine ⟨idle, Nat.le_trans (Nat.succ_le_succ bounded.counted) count, ?_⟩
            -- behind the limit the session would have been refused
            have few : record.conf.failures ≤ eapWpsFailureLimit := by
              refine Nat.le_of_not_lt fun many => ?_
              have refused := (serve_quiet bounded.idle careful fun _ => many).log
              obtain ⟨event, member, isWrong⟩ := any_eq_true.mp wrongly
              rw [(refused event member).2 role] at isWrong
              cases isWrong
            exact Nat.succ_le_succ (Nat.le_trans bounded.counted few)
        · next rightly =>
            rw [if_neg rightly] at count
            exact ⟨idle, Nat.le_trans bounded.counted count, bounded.limit⟩
  · have quiet := serve_quiet bounded.idle careful fun enrollee => absurd enrollee role
    obtain ⟨rightly, unproved⟩ := wrong_of_registrar fun event member => (quiet.log event member).1
    simp only [Record.next, rightly, unproved]
    exact ⟨quiet.idle, Nat.le_trans bounded.counted quiet.count, bounded.limit⟩

/-- At most `EAP_WPS_FAILURE_LIMIT + 1` sessions with a wrong proof are served
since start-up or the last full proof, and from then on every session in which
we are the enrollee is refused. -/
theorem pin_guesses_bounded (crypto : Crypto) (device : Device)
    (pin : device.defaultPin ≠ [] ∧ device.defaultPin.length < 64) (visits : List Visit)
    (careful : Along (Record.next crypto device) (Careful crypto device) Record.initial visits) :
    let record := run (Record.next crypto device) Record.initial visits
    record.streak ≤ eapWpsFailureLimit + 1 ∧ (record.streak = eapWpsFailureLimit + 1 →
        ∀ visit, interfaceOf visit.identity = some .enrollee → Careful crypto device record visit →
          ∀ event ∈ logOf (serve crypto device record.conf visit) 0, event = .initData false) := by
  have start : Bounded Record.initial := ⟨rfl, Nat.le_refl _, Nat.zero_le _⟩
  have bounded := careful.invariant (fun _ _ condition now => Bounded.next pin condition now) start
  refine ⟨bounded.limit, fun full visit role careful event member => ?_⟩
  have counted := bounded.counted
  rw [full] at counted
  exact ((serve_quiet bounded.idle careful fun _ => counted).log event member).2 role

end

/-! ## Guesses without a bound -/

/-- M4 of a registrar that tries the PIN `00000000`. -/
def guessM4 : Frame where
  beyond _ := 0
  bytes := bytesOf 196 [0x020100C4FE00372A000000010400104A0001101022000108101A001001010101,
      0x010101010101010101010101103D00203DF7644474AFD16B4ED9CE4082A2C992,
      0x86916F62C56C2FF3D625EF2D2A0B8B44103E0020AC38E8AF07E59288F0B6C32E,
      0xCBB0C6C6D38B63D8B651E648DA5C88AEA6892F8A101800400808080808080808,
      0x080808080808080835DBA12F70E37462706E04478482DEB1BA3B44C0F172381B,
      0xDC5035EFB17C0A28DF051AD94EE8D92E5C79CEF1838ED4CA1005000898867C8B,
      0xC43D985900000000000000000000000000000000000000000000000000000000]

def guess : Visit where
  identity := wpsIdentityRegistrar
  env := exampleEnv
  inputs := [.respond registrarM2 exampleEnv exampleEnv, .respond guessM4 exampleEnv exampleEnv]

/-- A session of a station that names itself an enrollee and goes away. -/
def probe : Visit where
  identity := wpsIdentityEnrollee
  env := exampleEnv
  inputs := []

def outcome (system : System) : Conf × List Event := (system.conf, logOf system 0)

theorem serve_guess :
    outcome (serve Crypto.internal exampleDevice Conf.initial guess) =
      ({ Conf.initial with failures := 1 }, [.initData true, .building .m1, .built .m1,
          .processed .m2 .ok .unknown exampleDevice.defaultPin, .building .m3, .built .m3,
          .processed .m4 .wrongHash .unknown exampleDevice.defaultPin,
          .building .nack, .built .nack]) := by
  rw [Crypto.internal_eq]
  decide +kernel

theorem serve_probe :
    outcome (serve Crypto.internal exampleDevice { Conf.initial with failures := 1 } probe) =
      (Conf.initial, [.initData true]) := by
  decide

theorem guess_careful : Careful Crypto.internal exampleDevice Record.initial guess where
  spare role := by cases role
  room := by decide
  steps := by
    rw [Crypto.internal_eq]
    refine ⟨⟨?_, ?_⟩, ⟨?_, ?_⟩, trivial⟩ <;> decide +kernel

theorem guess_is_counted :
    (run (Record.next Crypto.internal exampleDevice) Record.initial [guess]).streak = 1 ∧
      (run (Record.next Crypto.internal exampleDevice) Record.initial [guess]).streak ≤
        eapWpsFailureLimit + 1 := by
  refine ⟨?_, (pin_guesses_bounded Crypto.internal exampleDevice (by decide) [guess]
    ⟨guess_careful, trivial⟩).1⟩
  obtain ⟨conf, log⟩ := Prod.mk.inj serve_guess
  simp only [run_cons, run_nil, Record.next, Record.initial, conf, log]
  rfl

theorem guess_and_probe (streak : Nat) :
    run (Record.next Crypto.internal exampleDevice) ⟨Conf.initial, streak⟩ [guess, probe] =
      ⟨Conf.initial, streak + 1⟩ := by
  have first : Record.next Crypto.internal exampleDevice ⟨Conf.initial, streak⟩ guess =
      ⟨{ Conf.initial with failures := 1 }, streak + 1⟩ := by
    obtain ⟨conf, log⟩ := Prod.mk.inj serve_guess
    simp only [Record.next, conf, log]
    rfl
  have second : Record.next Crypto.internal exampleDevice
      ⟨{ Conf.initial with failures := 1 }, streak + 1⟩ probe = ⟨Conf.initial, streak + 1⟩ := by
    obtain ⟨conf, log⟩ := Prod.mk.inj serve_probe
    simp only [Record.next, conf, log]
    rfl
  rw [run_cons, first, run_cons, second, run_nil]

theorem guesses_and_probes (rounds streak : Nat) :
    run (Record.next Crypto.internal exampleDevice) ⟨Conf.initial, streak⟩
      (List.replicate rounds [guess, probe]).flatten = ⟨Conf.initial, streak + rounds⟩ := by
  induction rounds generalizing streak with
  | zero => rfl
  | succ rounds ih =>
    rw [replicate_succ, flatten_cons, run_append, guess_and_probe, ih]
    congr 1
    omega

theorem probes_allow_more_guesses :
    eapWpsFailureLimit + 1 < (run (Record.next Crypto.internal exampleDevice) Record.initial
      (List.replicate 22 [guess, probe]).flatten).streak := by
  rw [Record.initial, guesses_and_probes]
  decide

end AthApps.Wps
