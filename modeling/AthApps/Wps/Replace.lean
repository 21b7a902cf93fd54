import AthApps.Wps.JobCycle

/-!
# Who may replace the configuration file

The comments at `eap_wps_set_ssid_configuration` and at the function it calls
state a policy: an access point that is marked as configured takes a new
configuration only from an explicit command to configure itself.  The one
function computes `do_save` from it, the other one does not look at `do_save`.
What is left are the tests of the state machines, and the one of the enrollee
passes whenever there is no job.
-/

set_option autoImplicit false

namespace AthApps.Wps

open AthApps.Lib

/-! ## The functions -/

/-- `WPS_WPSSTATE_UNCONFIGURED` and `WPS_WPSSTATE_CONFIGURED` -/
def Device.unconfigured (device : Device) : Bool := device.wpsState == 0x01

def Device.configured (device : Device) : Bool := device.wpsState == 0x02

/-- `wps_set_ssid_configuration`: the new contents of the file, `none` where it
is not replaced.  `make` is `eap_wps_config_set_ssid_configuration` writing the
temporary file, and `renamed` tells whether `rename` succeeds. -/
def wpsSetSsidConfiguration (make : Bytes → Option Bytes) (renamed : Bool)
    (rawData : Bytes) (_doSave _doRestart : Bool) : Option Bytes :=
  if rawData = [] then none
  else
    match make rawData with
    | none => none
    | some file => if renamed then some file else none

def eapWpsSetSsidConfiguration (device : Device) (protect : Bool)
    (make : Bytes → Option Bytes) (renamed : Bool) (conf : Conf)
    (rawData : Bytes) : Option Bytes :=
  if protect then none
  else wpsSetSsidConfiguration make renamed rawData (conf.doSave || device.unconfigured) true

/-- A call of `eap_wps_set_ssid_configuration`, with the configuration at that
moment. -/
structure SaveCall where
  conf : Conf
  rawData : Bytes

section

variable (crypto : Crypto) (device : Device) (env : Env)

def finishEnrolleeCall (machine : Machine) : Option SaveCall :=
  match machine.target.config with
  | none => none
  | some config =>
    if machine.conf.maySave then some ⟨{ machine.conf with autoconfig := false }, config⟩
    else none

def finishRegistrarCall (machine : Machine) : Option SaveCall :=
  if machine.data.autoconfig then
    some ⟨(finishRegistrar device machine).conf, machine.data.config⟩
  else
    none

def enrolleeCall (opCode : UInt8) (machine : Machine) : Option SaveCall :=
  if opCode = OpCode.nack.code ∨ machine.data.state ≠ .ack then none
  else
    match eapWpsProcessMessageSpecial env .ack machine with
    | (true, machine) => finishEnrolleeCall machine
    | (false, _) => none

def registrarCall (opCode : UInt8) (machine : Machine) : Option SaveCall :=
  if opCode = OpCode.nack.code ∨ machine.data.state ≠ .done then none
  else finishRegistrarCall device (eapWpsProcessMessageSpecial env .done machine).2

def eapWpsProcessCall (identity : Bytes) (frame : Frame) (machine : Machine) : Option SaveCall :=
  match frame.msgLen device with
  | none => none
  | some msgLen =>
    if frame.moreFragments then none
    else
      match enterSession device env identity (machine.received frame msgLen) with
      | (false, _) => none
      | (true, machine) =>
        match machine.data.interface with
        | .registrar => registrarCall device env frame.opCode machine
        | .enrollee => enrolleeCall env frame.opCode machine
        | .none => none

def stepCall (system : System) : Action → Option SaveCall
  | .respond id frame env _ =>
    match system.sessions id with
    | none => none
    | some session =>
      if session.pending = .idle ∧ eapWpsCheck device frame then
        eapWpsProcessCall device env session.identity frame (session.machine system.conf)
      else none
  | _ => none

end

/-! ## Calls and the log -/

def settingsOf : Event → Option Bytes
  | .setSsidConfiguration _ config _ => some config
  | _ => none

def settings (log : List Event) : List Bytes := log.filterMap settingsOf

def Conf.saves (conf : Conf) : Bool × ConfigWho × Bool :=
  (conf.wpsJobBusy, conf.configWho, conf.doSave)

/-- Nothing happened that matters to the policy, except that a configuration may
have been made up for an access point that is not configured. -/
structure Uneventful (device : Device) (before after : Machine) : Prop where
  saves : after.conf.saves = before.conf.saves
  autoconfig : after.data.autoconfig = true →
    before.data.autoconfig = true ∨ device.configured = false
  log : settings after.log = settings before.log

namespace Uneventful

variable {device : Device}

theorem refl (machine : Machine) : Uneventful device machine machine := ⟨rfl, Or.inl, rfl⟩

theorem trans {first second third : Machine} (early : Uneventful device first second)
    (late : Uneventful device second third) : Uneventful device first third := by
  refine ⟨late.saves.trans early.saves, ?_, late.log.trans early.log⟩
  intro now
  rcases late.autoconfig now with before | marked
  · exact early.autoconfig before
  · exact Or.inr marked

variable {before after : Machine}

theorem of_eq (saves : after.conf.saves = before.conf.saves)
    (autoconfig : after.data.autoconfig = before.data.autoconfig)
    (log : settings after.log = settings before.log) : Uneventful device before after :=
  ⟨saves, fun now => Or.inl (autoconfig ▸ now), log⟩

end Uneventful

section

variable (crypto : Crypto) (device : Device) (env : Env)

/-! ## Requests -/

theorem Uneventful.stable : Stable (fun event => settingsOf event = none) (Uneventful device) where
  refl := Uneventful.refl
  trans := Uneventful.trans
  failures _ _ _ := .of_eq rfl rfl rfl
  data _ _ _ _ _ := .of_eq rfl rfl rfl
  emit machine event none := .of_eq rfl rfl (by simp [settings, none])

variable {machine after : Machine}

theorem loadConfig_autoconfig (data : EapWpsData)
    (made : (loadConfig device env data).2.autoconfig = true) :
    data.autoconfig = true ∨ device.configured = false := by
  simp only [loadConfig] at made
  split at made
  · simpa [Device.configured, bne] using made
  · simpa [Device.configured, bne] using made

theorem reloadConfig_uneventful (machine : Machine) :
    Uneventful device machine (reloadConfig device env machine) :=
  ⟨rfl, loadConfig_autoconfig device env machine.data, rfl⟩

theorem eapWpsBuildReqRegistrar_uneventful (machine : Machine) :
    Uneventful device machine (eapWpsBuildReqRegistrar crypto device env machine).2 :=
  (Uneventful.stable device).eapWpsBuildReqRegistrar crypto device env machine
    (fun _ => .of_eq rfl rfl rfl) (reloadConfig_uneventful device env) (fun _ _ => rfl) fun _ _ => rfl

theorem eapWpsBuildReqEnrollee_uneventful (machine : Machine) :
    Uneventful device machine (eapWpsBuildReqEnrollee crypto device env machine).2 :=
  (Uneventful.stable device).eapWpsBuildReqEnrollee crypto device env machine (fun _ _ => rfl) fun _ _ => rfl

/-! ## The start of a session -/

theorem eapWpsConfigInitData_uneventful (machine : Machine) :
    Uneventful device machine (eapWpsConfigInitData device env machine).2 := by
  have quiet : ∀ (ok : Bool) (after : Machine), Uneventful device machine after →
      Uneventful device machine (after.emit (.initData ok)) := by
    intro ok after before
    refine before.trans (Uneventful.of_eq rfl rfl ?_)
    simp [settings, settingsOf, Machine.emit]
  simp only [eapWpsConfigInitData]
  apply quiet
  simp only [initData]
  split
  · exact Uneventful.refl machine
  · split
    · exact Uneventful.of_eq rfl rfl rfl
    · refine ⟨?_, ?_, rfl⟩
      · simp only [forgetFailures]
        split <;> rfl
      · intro made
        obtain ⟨password, configWho, isPushButton, taken⟩ := takeJobParameters_snd device env
          (forgetFailures machine.data.interface machine.conf)
          { machine.data with target := some TargetInfo.zero }
        simp only [prepareData] at made
        split at made
        · next data result =>
            rw [result] at taken
            subst taken
            exact Or.inl made
        · next data result =>
            rw [result] at taken
            subst taken
            have loaded := loadConfig_autoconfig device env
              { { machine.data with target := some TargetInfo.zero } with
                password := password, configWho := configWho, isPushButton := isPushButton }
            split at made
            · next final result =>
                rw [result] at loaded
                exact loaded made
            · next final result =>
                rw [result] at loaded
                exact loaded made

theorem Enters.uneventful {identity : Bytes} {ok : Bool}
    (entered : Enters device env identity machine ok after) : Uneventful device machine after := by
  cases entered with
  | unknown role => exact Uneventful.refl machine
  | again interface role present => exact Uneventful.of_eq rfl rfl rfl
  | first interface role absent =>
    have named : Uneventful device machine
        { machine with data := { machine.data with interface := interface } } :=
      Uneventful.of_eq rfl rfl rfl
    exact named.trans (eapWpsConfigInitData_uneventful device env _)

theorem eapWpsBuildReq_uneventful (identity : Bytes) (machine : Machine) :
    Uneventful device machine (eapWpsBuildReq crypto device env identity machine).2 := by
  have requests := eapWpsBuildReq_requests crypto device env identity machine
  generalize (eapWpsBuildReq crypto device env identity machine).2 = answer at requests ⊢
  cases requests with
  | fragment more => exact Uneventful.refl machine
  | refused ok after entered stuck => exact entered.uneventful device env
  | registrar after entered role =>
    exact (entered.uneventful device env).trans (eapWpsBuildReqRegistrar_uneventful crypto device env after)
  | enrollee after entered role =>
    exact (entered.uneventful device env).trans (eapWpsBuildReqEnrollee_uneventful crypto device env after)

/-! ## Responses -/

theorem eapWpsProcessRegistrar_cases (opCode : UInt8) (machine : Machine) :
    (registrarCall device env opCode machine =
        finishRegistrarCall device (eapWpsProcessMessageSpecial env .done machine).2 ∧
      machine.data.state = .done ∧
      eapWpsProcessRegistrar crypto device env opCode machine =
        finishRegistrar device (eapWpsProcessMessageSpecial env .done machine).2) ∨
    (registrarCall device env opCode machine = none ∧
      Uneventful device machine (eapWpsProcessRegistrar crypto device env opCode machine)) := by
  by_cases early : opCode = OpCode.nack.code ∨ machine.data.state ≠ .done
  · exact Or.inr ⟨if_pos early, (Uneventful.stable device).eapWpsProcessRegistrar crypto device env
      (fun _ _ _ _ _ => rfl) early⟩
  · obtain ⟨nack, last⟩ := not_or.mp early
    exact Or.inl ⟨if_neg early, not_not.mp last,
      eapWpsProcessRegistrar_done crypto device env nack (not_not.mp last)⟩

theorem eapWpsProcessEnrollee_cases (opCode : UInt8) (machine : Machine) :
    (∃ after, eapWpsProcessMessageSpecial env .ack machine = (true, after) ∧
      enrolleeCall env opCode machine = finishEnrolleeCall after ∧
      machine.data.state = .ack ∧
      eapWpsProcessEnrollee crypto device env opCode machine = finishEnrollee device after) ∨
    (enrolleeCall env opCode machine = none ∧
      Uneventful device machine (eapWpsProcessEnrollee crypto device env opCode machine)) := by
  by_cases early : opCode = OpCode.nack.code ∨ machine.data.state ≠ .ack
  · exact Or.inr ⟨if_pos early, (Uneventful.stable device).eapWpsProcessEnrollee crypto device env
      (fun _ _ _ _ _ => rfl) early⟩
  · obtain ⟨nack, last⟩ := not_or.mp early
    have special := (Uneventful.stable device).eapWpsProcessMessageSpecial env .ack machine
    rw [enrolleeCall, if_neg early,
      eapWpsProcessEnrollee_ack crypto device env nack (not_not.mp last)]
    generalize eapWpsProcessMessageSpecial env .ack machine = result at special ⊢
    obtain ⟨accepted, after⟩ := result
    cases accepted with
    | true => exact Or.inl ⟨after, rfl, rfl, not_not.mp last, rfl⟩
    | false => exact Or.inr ⟨rfl, special⟩

theorem Enters.state {identity : Bytes} {ok : Bool}
    (entered : Enters device env identity machine ok after) :
    after.data.state = machine.data.state ∨ after.data.state = .start := by
  cases entered with
  | unknown role => exact Or.inl rfl
  | again interface role present => exact Or.inl rfl
  | first interface role absent =>
    exact (eapWpsConfigInitData_initialised device env
      { machine with data := { machine.data with interface := interface } } absent).state

/-- An answer ends a session of one of the two kinds, or nothing happens that
matters. -/
inductive Ends (identity : Bytes) (machine : Machine) : Option SaveCall → Machine → Prop
  | going (after : Machine) (uneventful : Uneventful device machine after) :
      Ends identity machine none after
  | registrar (before : Machine) (uneventful : Uneventful device machine before)
      (role : interfaceOf identity = some .registrar) (state : machine.data.state = .done) :
      Ends identity machine
        (finishRegistrarCall device (eapWpsProcessMessageSpecial env .done before).2)
        (finishRegistrar device (eapWpsProcessMessageSpecial env .done before).2)
  | enrollee (before after : Machine) (uneventful : Uneventful device machine before)
      (role : interfaceOf identity = some .enrollee) (state : machine.data.state = .ack)
      (special : eapWpsProcessMessageSpecial env .ack before = (true, after)) :
      Ends identity machine (finishEnrolleeCall after) (finishEnrollee device after)

theorem eapWpsProcess_ends (identity : Bytes) (frame : Frame) (machine : Machine) :
    Ends device env identity machine (eapWpsProcessCall device env identity frame machine)
      (eapWpsProcess crypto device env identity frame machine).2 := by
  have failed : ∀ after : Machine, Uneventful device machine after →
      Ends device env identity machine none (after.setState .nack).countFailure :=
    fun after quiet => .going _ (quiet.trans (.of_eq rfl rfl rfl))
  unfold eapWpsProcess eapWpsProcessCall
  cases length : frame.msgLen device with
  | none => exact failed machine (Uneventful.refl machine)
  | some msgLen =>
    have arrived : Uneventful device machine (machine.received frame msgLen) :=
      Uneventful.of_eq rfl rfl rfl
    have entered := enterSession_enters device env identity (machine.received frame msgLen)
    by_cases more : frame.moreFragments = true
    · simp only [if_pos more]
      exact .going _ arrived
    · simp only [if_neg more]
      change Ends device env identity machine _ (match enterSession device env identity
        (machine.received frame msgLen) with
          | (false, machine) => (false, (machine.setState .nack).countFailure)
          | (true, machine) => _).2
      generalize enterSession device env identity (machine.received frame msgLen) = result
        at entered ⊢
      obtain ⟨ok, after⟩ := result
      have begun := arrived.trans (entered.uneventful device env)
      cases ok with
      | false => exact failed after begun
      | true =>
        have role := entered.role device env rfl
        have state := entered.state device env
        simp only at begun role state ⊢
        cases named : after.data.interface with
        | none => exact failed after begun
        | registrar =>
          rw [named] at role
          rcases eapWpsProcessRegistrar_cases crypto device env frame.opCode after with
            ⟨call, last, same⟩ | ⟨call, uneventful⟩
          · simp only [call, same]
            rw [last] at state
            refine .registrar after begun role ?_
            rcases state with state | state
            · exact state.symm
            · cases state
          · simp only [call]
            exact .going _ (begun.trans uneventful)
        | enrollee =>
          rw [named] at role
          rcases eapWpsProcessEnrollee_cases crypto device env frame.opCode after with
            ⟨final, special, call, last, same⟩ | ⟨call, uneventful⟩
          · simp only [call, same]
            rw [last] at state
            refine .enrollee after final begun role ?_ special
            rcases state with state | state
            · exact state.symm
            · cases state
          · simp only [call]
            exact .going _ (begun.trans uneventful)

/-! ## Jobs that save -/

def SavesOwn (conf : Conf) : Prop :=
  conf.doSave = true → conf.wpsJobBusy = true ∧ conf.configWho = .me

variable {device}

theorem SavesOwn.congr {before after : Conf} (own : SavesOwn before)
    (same : after.saves = before.saves) : SavesOwn after := by
  simp only [Conf.saves, Prod.mk.injEq] at same
  obtain ⟨busy, who, save⟩ := same
  rw [SavesOwn, busy, who, save]
  exact own

variable {conf : Conf}

theorem SavesOwn.disabled (own : SavesOwn conf) : SavesOwn (eapWpsDisable device conf) := by
  intro save
  unfold eapWpsDisable at save
  by_cases busy : conf.wpsJobBusy = true
  · rw [if_pos busy] at save
    cases save
  · rw [if_neg busy] at save
    exact absurd (own save).1 busy

theorem SavesOwn.stopped {conf : Conf} (busy : conf.wpsJobBusy = true) :
    SavesOwn (eapWpsDisable device conf) := by
  intro save
  unfold eapWpsDisable at save
  rw [if_pos busy] at save
  cases save

theorem startJob_own (conf : Conf) (params : EnableParams) (now : Time)
    (known : params.configWho ≠ .unknown) : SavesOwn (startJob device conf params now) := by
  intro save
  unfold startJob at save ⊢
  cases who : params.configWho with
  | unknown => exact absurd who known
  | me => exact ⟨rfl, rfl⟩
  | them =>
    rw [who] at save
    cases save
  | externalRegistrar =>
    rw [who] at save
    cases save

theorem announce_saves {after : Conf} {params : EnableParams}
    (announced : announce conf params = some after) : after.saves = conf.saves := by
  unfold announce at announced
  split at announced
  · cases announced
    rfl
  · split at announced
    · cases announced
      rfl
    · split at announced
      · split at announced
        · cases announced
          rfl
        · cases announced
      · cases announced
        rfl

theorem launch_own (own : SavesOwn conf) (params : EnableParams) (now : Time) (ieSet : Bool) :
    SavesOwn (launch device conf params now ieSet).2 := by
  have busy := (@startJob_busy device conf params now).1
  unfold launch
  split
  · exact own.disabled
  · simp only
    split
    · exact .stopped busy
    · next known =>
        cases announced : announce (startJob device conf params now) params with
        | none => exact .stopped busy
        | some after =>
          have started : SavesOwn after := (startJob_own conf params now known).congr
            (announce_saves announced)
          have marked : SavesOwn { after with selreg := true } := started.congr rfl
          simp only
          split
          · exact marked.disabled
          · exact started.congr rfl

theorem SavesOwn.enabled (own : SavesOwn conf) (params : EnableParams) (now : Time) (ieSet : Bool) :
    SavesOwn (eapWpsEnable device conf params now ieSet).2 := by
  have other : SavesOwn (retarget device conf params) := by
    unfold retarget
    split
    · exact own.disabled
    · exact own
  have again : SavesOwn (restart device (retarget device conf params) params) := by
    unfold restart
    split
    · split
      · exact other.congr rfl
      · exact other.disabled
    · exact other
  rw [eapWpsEnable_eq]
  split
  · exact other
  · split
    · exact other
    · split
      · exact other
      · exact launch_own again params now ieSet

theorem SavesOwn.ticked (own : SavesOwn conf) (now : Time) :
    SavesOwn (eapWpsTimerTick device conf now) := by
  have fewer : SavesOwn { conf with timers := conf.timers - 1 } := own.congr rfl
  simp only [eapWpsTimerTick]
  split
  · exact fewer
  · split
    · exact fewer.disabled
    · exact fewer.congr rfl

/-! ## Ends of sessions -/

theorem finishRegistrar_conf (machine : Machine) : (finishRegistrar device machine).conf =
      { (if machine.conf.failureClear.wpsJobBusy then eapWpsDisable device machine.conf.failureClear
        else machine.conf.failureClear) with autoconfig := true } := by
  simp only [finishRegistrar]
  rw [apply_ite Machine.conf, Machine.emit_conf, ite_self]
  rfl

theorem finishRegistrar_own {machine : Machine} (own : SavesOwn machine.conf) :
    SavesOwn (finishRegistrar device machine).conf := by
  have cleared : SavesOwn machine.conf.failureClear := own.congr rfl
  have stopped : SavesOwn (if machine.conf.failureClear.wpsJobBusy = true then
      eapWpsDisable device machine.conf.failureClear else machine.conf.failureClear) := by
    split
    · exact cleared.disabled
    · exact cleared
  rw [finishRegistrar_conf]
  exact stopped.congr rfl

theorem finishEnrollee_own {machine : Machine} (own : SavesOwn machine.conf) :
    SavesOwn (finishEnrollee device machine).conf := by
  have applied : ∀ after : Machine, SavesOwn after.conf → SavesOwn
      ((if after.conf.wpsJobBusy = true then
        { after with conf := eapWpsDisable device after.conf }.failureClear
      else after).setState .failure).conf := by
    intro after own
    split
    · have stopped : SavesOwn (eapWpsDisable device after.conf) := own.disabled
      exact stopped.congr rfl
    · exact own
  unfold finishEnrollee
  simp only
  cases machine.target.config with
  | none => exact applied machine own
  | some config =>
    simp only
    split
    · exact applied _ (own.congr rfl)
    · exact applied machine own

variable {machine after : Machine} {identity : Bytes}

theorem Ends.own {call : Option SaveCall}
    (ends : Ends device env identity machine call after) (own : SavesOwn machine.conf) :
    SavesOwn after.conf := by
  cases ends with
  | going after uneventful => exact own.congr uneventful.saves
  | registrar before uneventful role state =>
    have special := (Uneventful.stable device).eapWpsProcessMessageSpecial env .done before
    exact finishRegistrar_own (own.congr (special.saves.trans uneventful.saves))
  | enrollee before after uneventful role state result =>
    have special := (Uneventful.stable device).eapWpsProcessMessageSpecial env .ack before
    rw [result] at special
    exact finishEnrollee_own (own.congr (special.saves.trans uneventful.saves))

def NotMadeUp (device : Device) (machine : Machine) : Prop :=
  machine.data.autoconfig = true → device.configured = false

theorem NotMadeUp.uneventful {before after : Machine} (good : NotMadeUp device before)
    (uneventful : Uneventful device before after) : NotMadeUp device after := by
  intro now
  rcases uneventful.autoconfig now with made | marked
  · exact good made
  · exact marked

theorem Ends.notMadeUp {call : Option SaveCall}
    (ends : Ends device env identity machine call after) (good : NotMadeUp device machine) :
    NotMadeUp device after := by
  cases ends with
  | going after uneventful => exact good.uneventful uneventful
  | registrar before uneventful role state =>
    have special := (Uneventful.stable device).eapWpsProcessMessageSpecial env .done before
    intro now
    rw [finishRegistrar_data] at now
    exact good.uneventful (uneventful.trans special) now
  | enrollee before after uneventful role state result =>
    have special := (Uneventful.stable device).eapWpsProcessMessageSpecial env .ack before
    rw [result] at special
    intro now
    rw [finishEnrollee_data] at now
    exact good.uneventful (uneventful.trans special) now

/-! ## The policy -/

/-- What the comments allow: we are not configured yet, or there is a command
to configure us. -/
def Allowed (device : Device) (call : SaveCall) : Prop :=
  device.unconfigured = true ∨
    (call.conf.wpsJobBusy = true ∧ call.conf.configWho = .me ∧ call.conf.doSave = true)

/-- The states before a step in which the tests of the state machines do not
enforce the policy: a registrar that waits for our peer's DONE when the state
is neither of the two, and an enrollee that waits for an ACK without a job. -/
def Unguarded (device : Device) (conf : Conf) (identity : Bytes) (state : State) : Prop :=
  device.unconfigured = false ∧
    ((interfaceOf identity = some .registrar ∧ state = .done ∧ device.configured = false) ∨
      (interfaceOf identity = some .enrollee ∧ state = .ack ∧ conf.wpsJobBusy = false))

instance (device : Device) (conf : Conf) (identity : Bytes) (state : State) :
    Decidable (Unguarded device conf identity state) := inferInstanceAs (Decidable (_ ∧ _))

theorem Ends.allowed {call : SaveCall}
    (ends : Ends device env identity machine (some call) after) (own : SavesOwn machine.conf)
    (good : NotMadeUp device machine)
    (guarded : ¬Unguarded device machine.conf identity machine.data.state) :
    Allowed device call := by
  cases unconfigured : device.unconfigured with
  | true => exact Or.inl unconfigured
  | false =>
    generalize made : some call = result at ends
    cases ends with
    | going after uneventful => cases made
    | registrar before uneventful role state =>
      have special := (Uneventful.stable device).eapWpsProcessMessageSpecial env .done before
      unfold finishRegistrarCall at made
      split at made
      · next autoconfig =>
          have marked := good.uneventful (uneventful.trans special) autoconfig
          exact absurd ⟨unconfigured, Or.inl ⟨role, state, marked⟩⟩ guarded
      · cases made
    | enrollee before after uneventful role state result =>
      have special := (Uneventful.stable device).eapWpsProcessMessageSpecial env .ack before
      rw [result] at special
      have same := special.saves.trans uneventful.saves
      unfold finishEnrolleeCall at made
      split at made
      · cases made
      · split at made
        · next config found may =>
            cases made
            simp only [Conf.saves, Prod.mk.injEq] at same
            have busy : after.conf.wpsJobBusy = true := by
              rw [same.1]
              cases busy : machine.conf.wpsJobBusy with
              | true => rfl
              | false => exact absurd ⟨unconfigured, Or.inr ⟨role, state, busy⟩⟩ guarded
            have save : after.conf.doSave = true := by simpa [Conf.maySave, busy] using may
            refine Or.inr ⟨busy, ?_, save⟩
            exact ((own.congr (special.saves.trans uneventful.saves)) save).2
        · cases made

end

/-! ## Runs -/

/-- The access point and the file it is configured from. -/
structure Ap where
  system : System
  file : Bytes

/-- A step, and whether `rename` would succeed in it. -/
structure Attempt where
  action : Action
  renamed : Bool

section

variable (crypto : Crypto) (device : Device)
  (make : Bytes → Bytes → Option Bytes)

/-- The new contents of the file; `make` writes the temporary file from the old
one and the settings. -/
def Ap.replaces (ap : Ap) (attempt : Attempt) : Option Bytes :=
  (stepCall device ap.system attempt.action).bind fun call =>
    eapWpsSetSsidConfiguration device false (make ap.file) attempt.renamed call.conf call.rawData

def Ap.step (ap : Ap) (attempt : Attempt) : Ap where
  system := Wps.step crypto device ap.system attempt.action
  file := (ap.replaces device make attempt).getD ap.file

def Ap.Obeys (ap : Ap) (attempt : Attempt) : Prop :=
  ∀ call, stepCall device ap.system attempt.action = some call →
    (ap.replaces device make attempt).isSome → Allowed device call

def Guarded (system : System) : Action → Prop
  | .respond id _ _ _ => ∀ session ∈ system.sessions id,
      ¬Unguarded device system.conf session.identity session.data.state
  | _ => True

instance (system : System) (action : Action) : Decidable (Guarded device system action) :=
  match action with
  | .respond id _ _ _ => inferInstanceAs (Decidable (∀ session ∈ system.sessions id, _))
  | .propose _ _ _ => inferInstanceAs (Decidable True)
  | .wake _ _ => inferInstanceAs (Decidable True)
  | .timeout _ _ => inferInstanceAs (Decidable True)
  | .reset _ => inferInstanceAs (Decidable True)
  | .enable _ _ _ => inferInstanceAs (Decidable True)
  | .disable => inferInstanceAs (Decidable True)
  | .tick _ => inferInstanceAs (Decidable True)

structure ReplaceInv (system : System) : Prop where
  own : SavesOwn system.conf
  sessions : Throughout (fun _ machine => NotMadeUp device machine) system

theorem ReplaceInv.initial : ReplaceInv device System.initial := by
  refine ⟨?_, Throughout.initial⟩
  intro save
  cases save

variable {device}

theorem ReplaceInv.moves {system after : System} {action : Action}
    (inv : ReplaceInv device system) (moves : Moves crypto device system action after) :
    ReplaceInv device after := by
  constructor
  case own =>
    cases moves with
    | proposed id identity env =>
      exact inv.own.congr (eapWpsBuildReq_uneventful crypto device env identity _).saves
    | processed id frame env next session pending found delivered stays =>
      exact (eapWpsProcess_ends crypto device env session.identity frame
        (session.machine system.conf)).own env inv.own
    | answered id frame env next session found delivered proceeds =>
      have processed := (eapWpsProcess_ends crypto device env session.identity frame
        (session.machine system.conf)).own env inv.own
      exact processed.congr (eapWpsBuildReq_uneventful crypto device next session.identity _).saves
    | requested id env session action found asks =>
      exact inv.own.congr (eapWpsBuildReq_uneventful crypto device env session.identity
        (session.machine system.conf)).saves
    | ignored action => exact inv.own
    | reset id => exact inv.own
    | enabled params now ieSet => exact inv.own.enabled params now ieSet
    | disabled => exact inv.own.disabled
    | ticked now => exact inv.own.ticked now
  case sessions =>
    refine Throughout.moves crypto device moves inv.sessions ?_ ?_ ?_ ?_
    · intro identity made
      cases made
    · intro identity env machine good
      exact good.uneventful (eapWpsBuildReq_uneventful crypto device env identity machine)
    · intro id frame env next session _ found _
      exact (eapWpsProcess_ends crypto device env session.identity frame
        (session.machine system.conf)).notMadeUp env (inv.sessions id session found)
    · intro id session _ _ good
      exact good

theorem ReplaceInv.obeys (crypto : Crypto) {ap : Ap} (inv : ReplaceInv device ap.system) (attempt : Attempt)
    (guarded : Guarded device ap.system attempt.action) : ap.Obeys device make attempt := by
  intro call called _
  obtain ⟨action, renamed⟩ := attempt
  cases action with
  | respond id frame env next =>
    simp only [stepCall] at called
    split at called
    · cases called
    · next session found =>
        split at called
        · have ends := eapWpsProcess_ends crypto device env session.identity frame
            (session.machine ap.system.conf)
          rw [called] at ends
          exact ends.allowed env inv.own (inv.sessions id session found) (guarded session found)
        · cases called
  | _ => cases called

end

/-- In a run in which every answer meets a guarded state, the session code
replaces the file only as the policy allows. -/
theorem replaced_only_by_command (crypto : Crypto) (device : Device)
    (make : Bytes → Bytes → Option Bytes) (file : Bytes)
    (attempts : List Attempt)
    (guarded : Along (Ap.step crypto device make)
      (fun ap attempt => Guarded device ap.system attempt.action) ⟨System.initial, file⟩ attempts) :
    Along (Ap.step crypto device make) (fun ap attempt => ap.Obeys device make attempt)
      ⟨System.initial, file⟩ attempts := by
  have from_inv : ∀ (attempts : List Attempt) (ap : Ap), ReplaceInv device ap.system →
      Along (Ap.step crypto device make)
        (fun ap attempt => Guarded device ap.system attempt.action) ap attempts →
      Along (Ap.step crypto device make) (fun ap attempt => ap.Obeys device make attempt)
        ap attempts := by
    intro attempts
    induction attempts with
    | nil =>
      intro ap inv guarded
      exact trivial
    | cons attempt rest ih =>
      intro ap inv guarded
      obtain ⟨here, later⟩ := guarded
      refine ⟨inv.obeys make crypto attempt here, ih _ ?_ later⟩
      exact inv.moves crypto (step_moves crypto device ap.system attempt.action)
  exact from_inv attempts _ (ReplaceInv.initial device) guarded

def settingsFile (_ rawData : Bytes) : Option Bytes := some rawData

def takeOverAttempts (commands : List Action) : List Attempt :=
  (commands ++ takeOver).map fun action => ⟨action, true⟩

def configureMeAction : Action :=
  .enable
    { devPwd := exampleDevice.defaultPin
      devPwdId := 0
      selregConfigMethods := 0
      filterSsidLength := 0
      secondsTimeout := 0
      configWho := .me
      doSave := true }
    ⟨1, 0⟩ true

/-- After the command the file is replaced as the policy allows. -/
theorem replaced_after_command :
    (run (Ap.step Crypto.internal exampleDevice settingsFile) ⟨System.initial, []⟩
        (takeOverAttempts [configureMeAction])).file = [0x10, 0x45, 0x00, 0x01, 0x42] ∧
    Along (Ap.step Crypto.internal exampleDevice settingsFile)
      (fun ap attempt => ap.Obeys exampleDevice settingsFile attempt) ⟨System.initial, []⟩
      (takeOverAttempts [configureMeAction]) := by
  constructor
  · rw [Crypto.internal_eq]
    decide +kernel
  · exact replaced_only_by_command Crypto.internal exampleDevice settingsFile []
      (takeOverAttempts [configureMeAction]) (by decide +kernel)

/-- Without a command the file of a configured access point is replaced too. -/
theorem replaced_without_command :
    exampleDevice.configured = true ∧
    (run (Ap.step Crypto.internal exampleDevice settingsFile) ⟨System.initial, []⟩
        (takeOverAttempts [])).file = [0x10, 0x45, 0x00, 0x01, 0x42] ∧
    ¬Along (Ap.step Crypto.internal exampleDevice settingsFile)
      (fun ap attempt => ap.Obeys exampleDevice settingsFile attempt) ⟨System.initial, []⟩
      (takeOverAttempts []) := by
  refine ⟨rfl, by rw [Crypto.internal_eq]; decide +kernel, ?_⟩
  intro along
  -- the last of the three steps
  obtain ⟨before, before_eq⟩ : ∃ before, run (Ap.step Crypto.internal exampleDevice settingsFile)
      ⟨System.initial, []⟩ ((takeOverAttempts []).take 2) = before := ⟨_, rfl⟩
  have obeys := @Along.at _ _ _ _ _ ((takeOverAttempts []).take 2) []
    ⟨.respond 0 acknowledgement exampleEnv exampleEnv, true⟩ along
  have idle : (stepCall exampleDevice before.system
      (.respond 0 acknowledgement exampleEnv exampleEnv)).map
        (fun call => call.conf.wpsJobBusy) = some false := by
    rw [← before_eq, Crypto.internal_eq]
    decide +kernel
  have replaced : (before.replaces exampleDevice settingsFile
      ⟨.respond 0 acknowledgement exampleEnv exampleEnv, true⟩).isSome = true := by
    rw [← before_eq, Crypto.internal_eq]
    decide +kernel
  rw [before_eq] at obeys
  obtain ⟨call, called, free⟩ := Option.map_eq_some_iff.mp idle
  rcases obeys call called replaced with unconfigured | ⟨busy, -⟩
  · cases unconfigured
  · rw [free] at busy
    cases busy

end AthApps.Wps
