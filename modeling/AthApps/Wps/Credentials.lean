import AthApps.Wps.Enrollee

/-!
# Who gets our credentials

As a registrar we send the credentials of the network in M8.  Which messages
are handled here and which are passed on to an external registrar is decided
by `conf->upnp_enabled` anew for each message; the statements below are about
runs in which that flag does not change under a session.
-/

set_option autoImplicit false

namespace AthApps.Wps

open AthApps.Lib List Option

/-! ## Jobs -/

/-- A device password that a command gave for a registration of our own. -/
structure Trusted (commands : List EnableParams) (who : ConfigWho) (devPwd : Bytes) : Prop where
  own : who = .me ∨ who = .them
  given : ∃ params ∈ commands, params.configWho = who ∧ params.password = devPwd

/-- The job that is under way comes from a command. -/
structure JobGood (commands : List EnableParams) (conf : Conf) : Prop where
  known : conf.wpsJobBusy → conf.configWho ≠ .unknown
  proxied : conf.wpsJobBusy → conf.configWho = .externalRegistrar → conf.upnpEnabled
  given : conf.wpsJobBusy →
    ∃ params ∈ commands, params.configWho = conf.configWho ∧ params.password = conf.devPwd

variable {commands : List EnableParams}

variable {conf : Conf}

theorem JobGood.idle (idle : conf.wpsJobBusy = false) : JobGood commands conf := by
  constructor <;> simp [idle]

theorem JobGood.congr {before after : Conf} (good : JobGood commands before)
    (same : after.job = before.job) : JobGood commands after := by
  simp only [Conf.job, Prod.mk.injEq] at same
  obtain ⟨busy, who, devPwd, flag⟩ := same
  constructor
  · rw [busy, who]
    exact good.known
  · rw [busy, who, flag]
    exact good.proxied
  · rw [busy, who, devPwd]
    exact good.given

theorem JobGood.more (good : JobGood commands conf) (params : EnableParams) :
    JobGood (commands ++ [params]) conf := by
  refine ⟨good.known, good.proxied, fun busy => ?_⟩
  obtain ⟨given, member, same⟩ := good.given busy
  exact ⟨given, mem_append_left _ member, same⟩

@[simp] theorem eapWpsDisable_idle (device : Device) (conf : Conf) :
    (eapWpsDisable device conf).wpsJobBusy = false := rfl

theorem startJob_job (device : Device) (conf : Conf) (params : EnableParams) (now : Time) :
    (startJob device conf params now).job =
      (true, params.configWho, params.password, decide (params.configWho = .externalRegistrar)) := by
  cases who : params.configWho <;> simp [startJob, who, Conf.job, Conf.failureClear]

theorem announce_job {conf after : Conf} {params : EnableParams}
    (announced : announce conf params = some after) : after.job = conf.job := by
  simp only [announce] at announced
  split at announced
  · cases announced
    rfl
  · split at announced
    · cases announced
      rfl
    · split at announced
      · split at announced <;> cases announced
        rfl
      · cases announced
        rfl

theorem eapWpsEnable_good (device : Device) (good : JobGood commands conf)
    (params : EnableParams) (now : Time) (ieSet : Bool) :
    JobGood (commands ++ [params]) (eapWpsEnable device conf params now ieSet).2 := by
  simp only [eapWpsEnable]
  -- an early return leaves the old job or none
  have old : JobGood (commands ++ [params])
      (if conf.wpsJobBusy ∧ params.configWho ≠ conf.configWho then eapWpsDisable device conf
        else conf) := by
    split
    · exact .idle rfl
    · exact good.more params
  split
  · exact old
  · split
    · exact old
    · split
      · exact old
      · split
        · exact .idle rfl
        · split
          · exact .idle rfl
          · next known =>
              split
              · exact .idle rfl
              · next announced found =>
                  have job := announce_job found
                  rw [startJob_job] at job
                  split
                  · exact .idle rfl
                  · simp only [Conf.job, Prod.mk.injEq] at job
                    obtain ⟨busy, who, devPwd, flag⟩ := job
                    refine ⟨fun _ => ?_, fun _ external => ?_, fun _ => ?_⟩
                    · simp [who, known]
                    · simp only [who] at external
                      simp [flag, external]
                    · exact ⟨params, by simp, by simp [who, devPwd]⟩

theorem eapWpsTimerTick_good (device : Device) (good : JobGood commands conf)
    (now : Time) : JobGood commands (eapWpsTimerTick device conf now) := by
  simp only [eapWpsTimerTick]
  split
  · exact good.congr rfl
  · split
    · exact .idle rfl
    · exact good.congr rfl

/-! ## What a registrar has behind it -/

/-- The message was accepted here, with a device password that can be trusted. -/
def Proved (commands : List EnableParams) (message : Message) (log : List Event) : Prop :=
  ∃ who devPwd, Event.processed message .ok who devPwd ∈ log ∧ Trusted commands who devPwd

theorem Proved.grows {message : Message} {kind : Event → Prop} {before after : List Event}
    (proved : Proved commands message before) (grows : Grows kind before after) :
    Proved commands message after := by
  obtain ⟨who, devPwd, member, trusted⟩ := proved
  exact ⟨who, devPwd, grows.mem member, trusted⟩

/-- A fact about the past, unless messages are passed on or there is no password. -/
def Locally (machine : Machine) (fact : Prop) : Prop :=
  machine.conf.upnpEnabled ∨ machine.data.password.devPwd = [] ∨ fact

theorem Locally.mono {before after : Machine} {fact next : Prop} (here : Locally before fact)
    (flag : after.conf.upnpEnabled = before.conf.upnpEnabled)
    (password : after.data.password = before.data.password) (implies : fact → next) :
    Locally after next := by
  rw [Locally, flag, password]
  rcases here with proxied | none | fact
  · exact Or.inl proxied
  · exact Or.inr (Or.inl none)
  · exact Or.inr (Or.inr (implies fact))

/-- What a session has behind it, by the state of a registrar. -/
structure RegistrarPast (commands : List EnableParams) (machine : Machine) : Prop where
  trusted : machine.data.password.devPwd ≠ [] → machine.data.configWho ≠ .externalRegistrar →
    Trusted commands machine.data.configWho machine.data.password.devPwd
  external : machine.data.state ∉ [.nack, .failure] →
    machine.data.configWho = .externalRegistrar → machine.conf.upnpEnabled
  local2 : machine.data.state = .m2 → ¬machine.conf.upnpEnabled ∧ machine.data.password.devPwd ≠ []
  proxied : machine.data.state ∈ [.m2d1, .m2d2, .ack] → Locally machine False
  built : machine.data.state ∈ [.m3, .m4, .m5, .m6, .m7, .m8] →
    Locally machine (.built .m2 ∈ machine.log)
  first : machine.data.state ∈ [.m4, .m5, .m6, .m7, .m8] →
    Locally machine (Proved commands .m3 machine.log)
  second : machine.data.state ∈ [.m6, .m7, .m8] → Locally machine (Proved commands .m5 machine.log)
  third : machine.data.state = .m8 → Locally machine (Proved commands .m7 machine.log)
  needs : machine.data.state ∈ [.m5, .m6, .m7, .m8] →
    machine.conf.upnpEnabled ∨ machine.data.password.devPwd ≠ []

theorem RegistrarPast.mono {kind : Event → Prop} {before after : Machine}
    (past : RegistrarPast commands before) (state : after.data.state = before.data.state)
    (flag : after.conf.upnpEnabled = before.conf.upnpEnabled)
    (password : after.data.password = before.data.password)
    (who : after.data.configWho = before.data.configWho)
    (grows : Grows kind before.log after.log) : RegistrarPast commands after := by
  constructor
  case trusted => rw [password, who]; exact past.trusted
  case external => rw [state, who, flag]; exact past.external
  case local2 => rw [state, flag, password]; exact past.local2
  case proxied => exact fun now => (past.proxied (state ▸ now)).mono flag password id
  case built => exact fun now => (past.built (state ▸ now)).mono flag password grows.mem
  case first =>
    exact fun now => (past.first (state ▸ now)).mono flag password fun proved => proved.grows grows
  case second =>
    exact fun now => (past.second (state ▸ now)).mono flag password fun proved => proved.grows grows
  case third =>
    exact fun now => (past.third (state ▸ now)).mono flag password fun proved => proved.grows grows
  case needs => rw [state, flag, password]; exact past.needs

variable {machine : Machine}

/-- A session that has failed, or failed to begin, is not asked for anything. -/
theorem RegistrarPast.ended (trusted : machine.data.password.devPwd ≠ [] →
      machine.data.configWho ≠ .externalRegistrar →
      Trusted commands machine.data.configWho machine.data.password.devPwd)
    (state : machine.data.state ∈ [.nack, .failure]) : RegistrarPast commands machine := by
  simp only [mem_cons, not_mem_nil, or_false] at state
  rcases state with state | state
  · refine ⟨trusted, ?_, ?_, ?_, ?_, ?_, ?_, ?_, ?_⟩ <;> simp [state]
  · refine ⟨trusted, ?_, ?_, ?_, ?_, ?_, ?_, ?_, ?_⟩ <;> simp [state]

theorem RegistrarPast.early (trusted : machine.data.password.devPwd ≠ [] →
      machine.data.configWho ≠ .externalRegistrar →
      Trusted commands machine.data.configWho machine.data.password.devPwd)
    (external : machine.data.configWho = .externalRegistrar → machine.conf.upnpEnabled)
    (state : machine.data.state ∈ [.start, .m1, .done]) : RegistrarPast commands machine := by
  simp only [mem_cons, not_mem_nil, or_false] at state
  rcases state with state | state | state
  · refine ⟨trusted, fun _ => external, ?_, ?_, ?_, ?_, ?_, ?_, ?_⟩ <;> simp [state]
  · refine ⟨trusted, fun _ => external, ?_, ?_, ?_, ?_, ?_, ?_, ?_⟩ <;> simp [state]
  · refine ⟨trusted, fun _ => external, ?_, ?_, ?_, ?_, ?_, ?_, ?_⟩ <;> simp [state]

def RegistrarCause (commands : List EnableParams) (log : List Event) : Event → Prop
  | .building .m8 => .built .m2 ∈ log ∧ Proved commands .m3 log ∧ Proved commands .m5 log ∧
      Proved commands .m7 log
  | _ => True

structure RegistrarGood (commands : List EnableParams) (machine : Machine) : Prop where
  present : machine.data.target.isSome
  job : JobGood commands machine.conf
  past : RegistrarPast commands machine
  log : Justified (RegistrarCause commands) machine.log

theorem Locally.fact {fact : Prop} (here : Locally machine fact)
    (flag : ¬machine.conf.upnpEnabled) (needs : machine.data.password.devPwd ≠ []) : fact := by
  rcases here with proxied | none | fact
  · exact absurd proxied flag
  · exact absurd none needs
  · exact fact

theorem RegistrarPast.idle (trusted : machine.data.password.devPwd ≠ [] →
      machine.data.configWho ≠ .externalRegistrar →
      Trusted commands machine.data.configWho machine.data.password.devPwd)
    (external : machine.data.configWho = .externalRegistrar → machine.conf.upnpEnabled)
    (idle : Locally machine False) (state : machine.data.state ∈ [.m2d1, .m2d2, .m3, .ack, .nack]) :
    RegistrarPast commands machine := by
  simp only [mem_cons, not_mem_nil, or_false] at state
  constructor
  case trusted => exact trusted
  case external => exact fun _ => external
  case proxied => exact fun _ => idle
  case built => exact fun _ => idle.mono rfl rfl False.elim
  all_goals rcases state with state | state | state | state | state <;> simp [state]

/-- What a registrar learns in a state before it goes on to the next one. -/
def Gained (commands : List EnableParams) (machine : Machine) : State → Prop
  | .m3 => Locally machine (Proved commands .m3 machine.log)
  | .m4 => machine.conf.upnpEnabled ∨ machine.data.password.devPwd ≠ []
  | .m5 => Locally machine (Proved commands .m5 machine.log)
  | .m7 => Locally machine (Proved commands .m7 machine.log)
  | _ => True

theorem RegistrarPast.advance {state next : State} (past : RegistrarPast commands machine)
    (same : machine.data.state = state)
    (step : (state, next) ∈ [(.m3, .m4), (.m4, .m5), (.m5, .m6), (.m6, .m7), (.m7, .m8)])
    (gained : Gained commands machine state) : RegistrarPast commands (machine.setState next) := by
  simp only [mem_cons, Prod.mk.injEq, not_mem_nil, or_false] at step
  have active : state ∈ [.m3, .m4, .m5, .m6, .m7] := by
    rcases step with ⟨rfl, -⟩ | ⟨rfl, -⟩ | ⟨rfl, -⟩ | ⟨rfl, -⟩ | ⟨rfl, -⟩ <;> simp
  simp only [mem_cons, not_mem_nil, or_false] at active
  constructor
  case trusted => exact past.trusted
  case external =>
    refine fun _ => past.external ?_
    rcases active with rfl | rfl | rfl | rfl | rfl <;> simp [same]
  case built =>
    refine fun _ => past.built ?_
    rcases active with rfl | rfl | rfl | rfl | rfl <;> simp [same]
  case first =>
    intro _
    rcases active with rfl | rfl | rfl | rfl | rfl
    · exact gained
    all_goals exact past.first (by simp [same])
  case second =>
    intro now
    rcases step with ⟨rfl, rfl⟩ | ⟨rfl, rfl⟩ | ⟨rfl, rfl⟩ | ⟨rfl, rfl⟩ | ⟨rfl, rfl⟩
    · simp at now
    · simp at now
    · exact gained
    all_goals exact past.second (by simp [same])
  case needs =>
    intro now
    rcases step with ⟨rfl, rfl⟩ | ⟨rfl, rfl⟩ | ⟨rfl, rfl⟩ | ⟨rfl, rfl⟩ | ⟨rfl, rfl⟩
    · simp at now
    · exact gained
    all_goals exact past.needs (by simp [same])
  all_goals rcases step with ⟨rfl, rfl⟩ | ⟨rfl, rfl⟩ | ⟨rfl, rfl⟩ | ⟨rfl, rfl⟩ | ⟨rfl, rfl⟩
  all_goals first | exact fun _ => gained | simp

def Unconditional (commands : List EnableParams) (event : Event) : Prop :=
  ∀ log, RegistrarCause commands log event

section

variable (crypto : Crypto) (device : Device)

theorem RegistrarGood.refused {before after : Machine} (good : RegistrarGood commands before)
    (refused : Refused (Unconditional commands) before after) : RegistrarGood commands after := by
  obtain ⟨sndMsg, state, same, kept⟩ := refused.data
  have job := refused.job
  simp only [Conf.job, Prod.mk.injEq] at job
  refine ⟨by rw [same]; exact good.present, good.job.congr refused.job, ?_,
    good.log.grows refused.log fun log event free => free log⟩
  rcases kept with rfl | rfl
  · exact good.past.mono (by rw [same]) job.2.2.2 (by rw [same]) (by rw [same]) refused.log
  · exact .ended (by rw [same]; exact good.past.trusted) (by simp [same])

/-! ## Requests -/

theorem eapWpsBuildProxied_data (env : Env) (call : Nat) (message : Message)
    (build : Exchange → Option Bytes × Exchange) (machine : Machine) :
    (eapWpsBuildProxied env call message build machine).2.conf = machine.conf ∧
      ∃ exchange, (eapWpsBuildProxied env call message build machine).2.data =
        { machine.data with exchange := exchange } := by
  simp only [eapWpsBuildProxied]
  split
  · obtain ⟨sndMsg, same⟩ := wpsOptUpnpReceivedMessage_snd env call machine
    rw [same]
    exact ⟨rfl, _, rfl⟩
  · exact ⟨runBuilder_conf message build machine, _, runBuilder_data message build machine⟩

variable {identity : Bytes} {machine : Machine} {env : Env}

theorem RegistrarGood.proxied (good : RegistrarGood commands machine)
    (env : Env) (message : Message) (build : Exchange → Option Bytes × Exchange)
    (cause : ¬machine.conf.upnpEnabled → RegistrarCause commands machine.log (.building message)) :
    RegistrarGood commands (eapWpsBuildProxied env 0 message build machine).2 := by
  obtain ⟨conf, exchange, data⟩ := eapWpsBuildProxied_data env 0 message build machine
  have grows : Grows (fun _ => True) machine.log
      (eapWpsBuildProxied env 0 message build machine).2.log :=
    (growing _).eapWpsBuildProxied env 0 build machine trivial trivial
  refine ⟨by rw [data]; exact good.present, by rw [conf]; exact good.job,
    good.past.mono (by rw [data]) (by rw [conf]) (by rw [data]) (by rw [data]) grows, ?_⟩
  simp only [eapWpsBuildProxied]
  split
  · obtain ⟨sndMsg, same⟩ := wpsOptUpnpReceivedMessage_snd env 0 machine
    rw [same]
    exact good.log
  · next flag =>
      refine runBuilder_justified message build machine good.log (cause flag) fun log => ?_
      trivial

theorem eapWpsConfigBuildMessageM4_password {random : Random} {rcvMsg : Bytes}
    {target : TargetInfo} {password : Password} {exchange : Exchange}
    (built : (eapWpsConfigBuildMessageM4 crypto device random rcvMsg target password
      exchange).1.isSome) : password.devPwd ≠ [] := by
  intro none
  simp [eapWpsConfigBuildMessageM4, none] at built

theorem RegistrarGood.sendsM2 (good : RegistrarGood commands machine)
    (state : machine.data.state = .m2) : RegistrarGood commands (sendMessage env .msg (·.setState .m3)
      (eapWpsBuildMessageM2 crypto device env machine)).2 := by
  have trusted := good.past.trusted
  obtain ⟨flag, needs⟩ := good.past.local2 state
  -- clearing the flag changes nothing here
  have same : ({ machine with conf := { machine.conf with upnpEnabled := false } } : Machine) =
      machine := by
    rcases machine with ⟨conf, data, log⟩
    simp only [Bool.not_eq_true] at flag
    simp [← flag]
  rw [sendMessage_snd, eapWpsBuildMessageM2, same]
  have log := runBuilder_justified .m2 (eapWpsConfigBuildMessageM2 crypto device env.random
    machine.data.password machine.data.rcvMsg machine.target) machine good.log trivial
    fun _ => trivial
  split
  · next built =>
      refine ⟨by simpa using good.present, by simpa using good.job, ?_, log⟩
      constructor
      case trusted => simpa using trusted
      case external => simpa using good.past.external (by simp [state])
      case built =>
        intro _
        refine Or.inr (Or.inr ?_)
        rw [Machine.setState_log, runBuilder_log]
        simp only [runBuilder_fst] at built
        simp [built]
      all_goals simp
  · refine ⟨by simpa using good.present, by simpa using good.job, ?_, log⟩
    exact good.past.mono (by simp) (by simp) (by simp) (by simp)
      ((growing fun _ => True).runBuilder _ machine trivial trivial)

theorem RegistrarGood.sendsM2D (good : RegistrarGood commands machine)
    (state : machine.data.state = .m2d1) : RegistrarGood commands (sendMessage env .msg afterM2D
      (eapWpsBuildMessageM2D device env machine)).2 := by
  have trusted := good.past.trusted
  have sent := eapWpsBuildMessageM2D_advertised device env machine
  have grows : Grows (Unconditional commands) machine.log
      (eapWpsBuildMessageM2D device env machine).2.log :=
    (growing _).eapWpsBuildMessageM2D device env machine (fun _ => trivial) fun _ => trivial
  have log := good.log.grows grows fun log event free => free log
  have job := sent.job
  simp only [Conf.job, Prod.mk.injEq] at job
  have idle : Locally (eapWpsBuildMessageM2D device env machine).2 False :=
    (good.past.proxied (by simp [state])).mono job.2.2.2 sent.password id
  have trusted : _ ≠ [] → _ ≠ ConfigWho.externalRegistrar → Trusted commands _ _ := trusted
  rw [← sent.password, ← sent.configWho] at trusted
  have external := good.past.external (by simp [state])
  rw [← job.2.2.2, ← sent.configWho] at external
  have states : (eapWpsBuildMessageM2D device env machine).2.data.state ∈
      [.m2d1, .m2d2, .m3, .ack, .nack] := by
    rcases sent.state with same | moved
    · simp [same, state]
    · simp only [mem_cons, not_mem_nil, or_false] at moved ⊢
      tauto
  rw [sendMessage_snd]
  split
  · simp only [afterM2D]
    split
    · exact ⟨sent.target good.present, good.job.congr sent.job,
        .idle trusted external (idle.mono rfl rfl id) (by simp), log⟩
    · exact ⟨sent.target good.present, good.job.congr sent.job,
        .idle trusted external idle states, log⟩
  · exact ⟨sent.target good.present, good.job.congr sent.job,
      .idle trusted external idle states, log⟩

theorem RegistrarGood.sendsM8 (good : RegistrarGood commands machine)
    (state : machine.data.state = .m8) : RegistrarGood commands (sendMessage env .msg
      (fun machine => (machine.setState .done).failureClear)
      (eapWpsBuildMessageM8 crypto device env (reloadConfig device env machine))).2 := by
  obtain ⟨autoconfig, config, loaded⟩ := loadConfig_snd device env machine.data
  have reloaded : RegistrarGood commands (reloadConfig device env machine) := by
    refine ⟨by rw [reloadConfig, loaded]; exact good.present, good.job, ?_, good.log⟩
    exact good.past.mono (by rw [reloadConfig, loaded]) rfl (by rw [reloadConfig, loaded])
      (by rw [reloadConfig, loaded]) (Grows.refl (fun _ => True) machine.log)
  have m8 : (reloadConfig device env machine).data.state = .m8 := by
    rw [reloadConfig, loaded]
    exact state
  generalize reloadConfig device env machine = ready at reloaded m8
  have here : RegistrarGood commands (eapWpsBuildMessageM8 crypto device env ready).2 := by
    refine reloaded.proxied env .m8 _ fun flag => ?_
    have needs := (reloaded.past.needs (by simp [m8])).resolve_left flag
    exact ⟨(reloaded.past.built (by simp [m8])).fact flag needs,
      (reloaded.past.first (by simp [m8])).fact flag needs,
      (reloaded.past.second (by simp [m8])).fact flag needs,
      (reloaded.past.third m8).fact flag needs⟩
  obtain ⟨-, exchange, data⟩ := eapWpsBuildProxied_data env 0 .m8
    (eapWpsConfigBuildMessageM8 crypto device env.random ready.data.rcvMsg ready.target
      ready.data.config) ready
  have same : (eapWpsBuildMessageM8 crypto device env ready).2.data.state = .m8 := by
    rw [eapWpsBuildMessageM8, data]
    exact m8
  rw [sendMessage_snd]
  split
  · exact ⟨here.present, here.job.congr rfl, .early here.past.trusted
      (here.past.external (by simp [same])) (by simp), here.log⟩
  · exact here

theorem eapWpsBuildReqRegistrar_good (good : RegistrarGood commands machine) :
    RegistrarGood commands (eapWpsBuildReqRegistrar crypto device env machine).2 := by
  have trusted := good.past.trusted
  simp only [eapWpsBuildReqRegistrar]
  split
  case h_1 state =>
    refine ⟨good.present, good.job, .early trusted ?_ ?_, good.log⟩
    · exact good.past.external (by simp [state])
    · simp [sendMessage]
  case h_2 state => exact good.sendsM2 crypto device state
  case h_3 state => exact good.sendsM2D device state
  case h_4 state =>
    have idle := good.past.proxied (by simp [state])
    split
    · exact ⟨good.present, good.job, .ended trusted (by simp), good.log⟩
    · exact ⟨good.present, good.job, .idle trusted (good.past.external (by simp [state]))
        (idle.mono rfl rfl id) (by simp [sendMessage]), good.log⟩
  case h_5 state =>
    have here : RegistrarGood commands (eapWpsBuildMessageM4 crypto device env machine).2 :=
      good.proxied env .m4 _ fun _ => trivial
    obtain ⟨conf, exchange, data⟩ := eapWpsBuildProxied_data env 0 .m4
      (eapWpsConfigBuildMessageM4 crypto device env.random machine.data.rcvMsg machine.target
        machine.data.password) machine
    have same : (eapWpsBuildMessageM4 crypto device env machine).2.data.state = .m4 := by
      rw [eapWpsBuildMessageM4, data]
      exact state
    rw [sendMessage_snd]
    split
    · next built =>
        -- a message of our own needs a password
        have needs : machine.conf.upnpEnabled ∨ machine.data.password.devPwd ≠ [] := by
          by_cases flag : machine.conf.upnpEnabled
          · exact Or.inl flag
          · simp only [eapWpsBuildMessageM4, eapWpsBuildProxied, flag] at built
            exact Or.inr (eapWpsConfigBuildMessageM4_password crypto device built)
        refine ⟨here.present, here.job, here.past.advance same (by simp) ?_, here.log⟩
        show _ ∨ _
        rw [eapWpsBuildMessageM4, conf, data]
        exact needs
    · exact here
  case h_6 state =>
    have here : RegistrarGood commands (eapWpsBuildMessageM6 crypto device env machine).2 :=
      good.proxied env .m6 _ fun _ => trivial
    obtain ⟨-, exchange, data⟩ := eapWpsBuildProxied_data env 0 .m6
      (eapWpsConfigBuildMessageM6 crypto device env.random machine.data.rcvMsg machine.target)
      machine
    have same : (eapWpsBuildMessageM6 crypto device env machine).2.data.state = .m6 := by
      rw [eapWpsBuildMessageM6, data]
      exact state
    rw [sendMessage_snd]
    split
    · exact ⟨here.present, here.job, here.past.advance same (by simp) trivial, here.log⟩
    · exact here
  case h_7 state => exact good.sendsM8 crypto device state
  case h_8 =>
    exact good.refused (refuseTwice_refused device env _ machine (fun _ => trivial)
      fun _ => trivial)
  case h_9 =>
    exact good.refused (refuse_refused device env _ 0 machine (fun _ => trivial) fun _ => trivial)

/-! ## Responses -/

theorem eapWpsProcessProxied_data (env : Env) (message : Message)
    (process : TargetInfo → Verdict × TargetInfo) (machine : Machine) :
    (eapWpsProcessProxied env message process machine).2.conf = machine.conf ∧
      ∃ target, (eapWpsProcessProxied env message process machine).2.data =
          { machine.data with target := target } ∧
        (machine.data.target.isSome → target.isSome) := by
  simp only [eapWpsProcessProxied]
  split
  · exact ⟨rfl, machine.data.target, rfl, id⟩
  · exact ⟨rfl, _, rfl, fun _ => rfl⟩

/-- M3, M5 or M7 has been passed on or looked at, with the state as it was. -/
theorem RegistrarGood.received (good : RegistrarGood commands machine)
    (env : Env) (message : Message) (process : TargetInfo → Verdict × TargetInfo) :
    RegistrarGood commands (eapWpsProcessProxied env message process machine).2 := by
  obtain ⟨conf, target, data, present⟩ := eapWpsProcessProxied_data env message process machine
  have grows : Grows (Unconditional commands) machine.log
      (eapWpsProcessProxied env message process machine).2.log :=
    (growing _).eapWpsProcessProxied env process machine fun _ _ _ _ => trivial
  exact ⟨by rw [data]; exact present good.present, by rw [conf]; exact good.job,
    good.past.mono (by rw [data]) (by rw [conf]) (by rw [data]) (by rw [data]) grows,
    good.log.grows grows fun log event free => free log⟩

theorem RegistrarGood.accepted {machine : Machine} (good : RegistrarGood commands machine)
    (active : machine.data.state ∉ [.nack, .failure]) {env : Env} {message : Message}
    {process : TargetInfo → Verdict × TargetInfo}
    (ok : (eapWpsProcessProxied env message process machine).1 = .ok) :
    Locally (eapWpsProcessProxied env message process machine).2
      (Proved commands message (eapWpsProcessProxied env message process machine).2.log) := by
  simp only [eapWpsProcessProxied] at ok ⊢
  split
  · next flag => exact Or.inl flag
  · next flag =>
      simp only [flag] at ok
      by_cases none : machine.data.password.devPwd = []
      · exact Or.inr (Or.inl none)
      · have own : machine.data.configWho ≠ .externalRegistrar :=
          fun external => flag (good.past.external active external)
        refine Or.inr (Or.inr ⟨machine.data.configWho, machine.data.password.devPwd, ?_,
          good.past.trusted none own⟩)
        simp only [runProcessor_log, show (process machine.target).1 = .ok from ok]
        simp

theorem acceptOrRefuse_good {next : State} {result : Verdict × Machine}
    (here : RegistrarGood commands result.2)
    (accepted : result.1 = .ok → RegistrarPast commands (result.2.setState next)) :
    RegistrarGood commands (acceptOrRefuse next result) := by
  simp only [acceptOrRefuse]
  split
  · next ok => exact ⟨here.present, here.job, accepted ok, here.log⟩
  · exact ⟨here.present, here.job.congr rfl, .ended here.past.trusted (by simp), here.log⟩

theorem RegistrarGood.exchanged {state next : State} {message : Message}
    {process : TargetInfo → Verdict × TargetInfo} (good : RegistrarGood commands machine)
    (waits : machine.data.state = state)
    (step : (message, state, next) ∈ [(.m3, .m3, .m4), (.m5, .m5, .m6), (.m7, .m7, .m8)]) :
    RegistrarGood commands
      (acceptOrRefuse next (eapWpsProcessProxied env message process machine)) := by
  have here := good.received env message process
  obtain ⟨-, target, data, -⟩ := eapWpsProcessProxied_data env message process machine
  have same : (eapWpsProcessProxied env message process machine).2.data.state = state := by
    rw [data]
    exact waits
  refine acceptOrRefuse_good here fun ok => ?_
  simp only [mem_cons, Prod.mk.injEq, not_mem_nil, or_false] at step
  rcases step with ⟨rfl, rfl, rfl⟩ | ⟨rfl, rfl, rfl⟩ | ⟨rfl, rfl, rfl⟩ <;>
    exact here.past.advance same (by simp) (good.accepted (by simp [waits]) ok)

theorem finishRegistrar_good (good : RegistrarGood commands machine) :
    RegistrarGood commands (finishRegistrar device machine) := by
  have data := finishRegistrar_data device machine
  refine ⟨by rw [data]; exact good.present, ?_, .ended (by rw [data]; exact good.past.trusted)
    (by simp [data]), ?_⟩
  · have job : JobGood commands (if machine.conf.wpsJobBusy then
        eapWpsDisable device machine.conf.failureClear else machine.conf.failureClear) := by
      split
      · exact .idle rfl
      · exact good.job.congr rfl
    cases save : machine.data.autoconfig <;> simp only [finishRegistrar, Machine.setState_data,
      Machine.failureClear_data, save] <;> exact job.congr rfl
  · rw [finishRegistrar_log]
    split
    · exact good.log.snoc trivial
    · simpa using good.log

theorem eapWpsProcessRegistrar_good {opCode : UInt8} (good : RegistrarGood commands machine) :
    RegistrarGood commands (eapWpsProcessRegistrar crypto device env opCode machine) := by
  have start : ∀ after : Machine,
      (if opCode = OpCode.nack.code then
        (if machine.data.state.rank < State.m7.rank then machine.countFailure
          else machine).setState .nack
      else machine) = after → RegistrarGood commands after := by
    rintro after rfl
    split
    · split
      · exact ⟨good.present, good.job.congr rfl, .ended good.past.trusted (by simp), good.log⟩
      · exact ⟨good.present, good.job, .ended good.past.trusted (by simp), good.log⟩
    · exact good
  simp only [eapWpsProcessRegistrar]
  generalize begun : (if opCode = OpCode.nack.code then _ else machine) = after
  have good := start after begun
  have trusted := good.past.trusted
  split
  case h_1 state =>
    have here : RegistrarGood commands (eapWpsProcessMessageM1 after).2 := by
      have grows : Grows (fun _ => True) after.log (eapWpsProcessMessageM1 after).2.log :=
        Grows.one after.log trivial
      exact ⟨rfl, good.job, good.past.mono rfl rfl rfl rfl grows, good.log.snoc trivial⟩
    refine acceptOrRefuse_good here fun _ => ?_
    have external := good.past.external (by simp [state])
    split
    · next locally =>
        refine ⟨trusted, fun _ => external, fun _ => ⟨locally.2, locally.1⟩, ?_, ?_, ?_, ?_, ?_, ?_⟩
          <;> simp
    · next proxied =>
        refine .idle trusted external ?_ (by simp)
        by_cases flag : after.conf.upnpEnabled
        · exact Or.inl flag
        · exact Or.inr (Or.inl (show after.data.password.devPwd = [] by simpa [flag] using proxied))
  case h_2 state => exact good.exchanged state (by simp)
  case h_3 state => exact good.exchanged state (by simp)
  case h_4 state => exact good.exchanged state (by simp)
  case h_5 => exact finishRegistrar_good device good
  case h_6 state =>
    obtain ⟨target, same, -, present⟩ := eapWpsProcessMessageSpecial_snd env .ack after
    have idle := good.past.proxied (by simp [state])
    have external := good.past.external (by simp [state])
    split
    · next final processed =>
        rw [processed] at same
        subst same
        exact ⟨present good.present, good.job, .idle trusted external (idle.mono rfl rfl id)
          (by simp), good.log⟩
    · next final processed =>
        rw [processed] at same
        subst same
        exact ⟨present good.present, good.job, .ended trusted (by simp), good.log⟩
  case h_7 =>
    obtain ⟨target, same, -, present⟩ := eapWpsProcessMessageSpecial_snd env .nack after
    rw [same]
    exact ⟨present good.present, good.job, .ended trusted (by simp), good.log⟩
  case h_8 => exact good

/-! ## Sessions of either role -/

theorem keepingJob :
    Stable (fun _ => True) fun before after => after.conf.job = before.conf.job where
  refl _ := rfl
  trans early late := late.trans early
  failures _ _ _ := rfl
  data _ _ _ _ _ := rfl
  emit _ _ _ := rfl

theorem eapWpsBuildReqEnrollee_job (env : Env) (machine : Machine) :
    (eapWpsBuildReqEnrollee crypto device env machine).2.conf.job = machine.conf.job :=
  keepingJob.eapWpsBuildReqEnrollee crypto device env machine (fun _ _ => trivial) fun _ _ => trivial

theorem finishEnrollee_job (machine : Machine) :
    (finishEnrollee device machine).conf.job = machine.conf.job ∨
      machine.conf.wpsJobBusy ∧ (finishEnrollee device machine).conf.wpsJobBusy = false := by
  cases settings : machine.target.config with
  | none =>
    cases busy : machine.conf.wpsJobBusy <;>
      simp [finishEnrollee, settings, busy, Conf.failureClear]
  | some config =>
    cases save : machine.conf.maySave <;> cases busy : machine.conf.wpsJobBusy <;>
      simp [finishEnrollee, settings, save, busy, Conf.failureClear, Conf.job]

theorem eapWpsProcessEnrollee_job (env : Env) (opCode : UInt8) (machine : Machine) :
    (eapWpsProcessEnrollee crypto device env opCode machine).conf.job = machine.conf.job ∨
      machine.conf.wpsJobBusy ∧
        (eapWpsProcessEnrollee crypto device env opCode machine).conf.wpsJobBusy = false := by
  by_cases early : opCode = OpCode.nack.code ∨ machine.data.state ≠ .ack
  · exact Or.inl (keepingJob.eapWpsProcessEnrollee crypto device env (fun _ _ _ _ _ => trivial) early)
  · obtain ⟨nack, last⟩ := not_or.mp early
    obtain ⟨target, same, -⟩ := eapWpsProcessMessageSpecial_snd env .ack machine
    rw [eapWpsProcessEnrollee_ack crypto device env nack (not_not.mp last)]
    split
    · next after result =>
        rw [result] at same
        subst same
        exact finishEnrollee_job device _
    · next after result =>
        rw [result] at same
        subst same
        exact Or.inl rfl

structure RegistrarSession (commands : List EnableParams) (identity : Bytes)
    (machine : Machine) : Prop where
  job : JobGood commands machine.conf
  log : Justified (RegistrarCause commands) machine.log
  begun : interfaceOf identity = some .registrar →
    machine.data.target = none ∧ machine.data.password.devPwd = [] ∧
        machine.data.configWho = .unknown ∧ machine.data.state ∈ [.start, .nack] ∨
      RegistrarGood commands machine

theorem unconditional_of_enrollee {event : Event} (fits : event.fits .enrollee) :
    Unconditional commands event := by
  intro log
  cases event with
  | building message => cases message <;> trivial
  | _ => trivial

theorem takeJobParameters_registrar (env : Env) (conf : Conf) {data : EapWpsData}
    (role : data.interface = .registrar) :
    (takeJobParameters device env conf data).2.password = data.password ∧
        (takeJobParameters device env conf data).2.configWho = data.configWho ∨
      conf.wpsJobBusy ∧ (takeJobParameters device env conf data).2.password.devPwd = conf.devPwd ∧
        (takeJobParameters device env conf data).2.configWho = conf.configWho := by
  simp only [takeJobParameters]
  split
  · next busy =>
      split
      · exact Or.inl ⟨rfl, rfl⟩
      · exact Or.inr ⟨busy, rfl, rfl⟩
  · split
    · next pin => exact absurd role pin.2.2
    · exact Or.inl ⟨rfl, rfl⟩

theorem prepareData_password (env : Env) (conf : Conf) (data : EapWpsData) :
    (prepareData device env conf data).2.password =
        (takeJobParameters device env conf data).2.password ∧
      (prepareData device env conf data).2.configWho =
        (takeJobParameters device env conf data).2.configWho := by
  simp only [prepareData]
  split
  · next job result => exact ⟨by rw [result], by rw [result]⟩
  · next job result =>
      obtain ⟨autoconfig, config, loaded⟩ := loadConfig_snd device env job
      split
      · next final same =>
          rw [same] at loaded
          have loaded : final = _ := loaded
          subst loaded
          exact ⟨by rw [result], by rw [result]⟩
      · next final same =>
          rw [same] at loaded
          have loaded : final = _ := loaded
          subst loaded
          exact ⟨by rw [result], by rw [result]⟩

theorem forgetFailures_job (interface : Interface) (conf : Conf) :
    (forgetFailures interface conf).job = conf.job := by
  simp only [forgetFailures]
  split <;> rfl

theorem eapWpsConfigInitData_job (env : Env) (machine : Machine) :
    (eapWpsConfigInitData device env machine).2.conf.job = machine.conf.job := by
  simp only [eapWpsConfigInitData, initData]
  split
  · rfl
  · split
    · rfl
    · exact forgetFailures_job machine.data.interface machine.conf

theorem eapWpsConfigInitData_password (env : Env) (role : machine.data.interface = .registrar) :
    (eapWpsConfigInitData device env machine).2.data.password = machine.data.password ∧
        (eapWpsConfigInitData device env machine).2.data.configWho = machine.data.configWho ∨
      machine.conf.wpsJobBusy ∧
        (eapWpsConfigInitData device env machine).2.data.password.devPwd = machine.conf.devPwd ∧
        (eapWpsConfigInitData device env machine).2.data.configWho = machine.conf.configWho := by
  simp only [eapWpsConfigInitData, initData]
  split
  · exact Or.inl ⟨rfl, rfl⟩
  · split
    · exact Or.inl ⟨rfl, rfl⟩
    · have job := forgetFailures_job machine.data.interface machine.conf
      simp only [Conf.job, Prod.mk.injEq] at job
      obtain ⟨busy, who, devPwd, -⟩ := job
      have taken := takeJobParameters_registrar device env
        (forgetFailures machine.data.interface machine.conf)
        (show ({ machine.data with target := some TargetInfo.zero } : EapWpsData).interface =
          .registrar from role)
      have kept := prepareData_password device env
        (forgetFailures machine.data.interface machine.conf)
        { machine.data with target := some TargetInfo.zero }
      simp only [Machine.emit_data, kept]
      rw [← busy, ← who, ← devPwd]
      exact taken

theorem RegistrarSession.initialised (session : RegistrarSession commands identity machine)
    (known : interfaceOf identity = some machine.data.interface)
    (absent : machine.data.target = none) :
    RegistrarSession commands identity (eapWpsConfigInitData device env machine).2 := by
  have made := eapWpsConfigInitData_initialised device env machine absent
  have same := eapWpsConfigInitData_job device env machine
  have password := fun role : machine.data.interface = .registrar =>
    eapWpsConfigInitData_password device env role
  generalize (eapWpsConfigInitData device env machine).2 = after at made same password ⊢
  have log : Justified (RegistrarCause commands) after.log := by
    rw [made.log]
    exact session.log.snoc trivial
  have job := session.job.congr same
  refine ⟨job, log, fun registrar => ?_⟩
  have role : machine.data.interface = .registrar := by
    rw [known] at registrar
    exact some.inj registrar
  obtain ⟨none, unknown, early⟩ : machine.data.password.devPwd = [] ∧
      machine.data.configWho = .unknown ∧ machine.data.state ∈ [.start, .nack] := by
    rcases session.begun registrar with ⟨-, fresh⟩ | good
    · exact fresh
    · exact absurd absent (isSome_iff_ne_none.mp good.present)
  cases target : after.data.target with
  | none =>
    obtain ⟨-, data⟩ := made.early target
    rw [data]
    exact Or.inl ⟨rfl, none, unknown, early⟩
  | some info =>
    refine Or.inr ⟨by simp [target], job, ?_, log⟩
    have trusted : after.data.password.devPwd ≠ [] → after.data.configWho ≠ .externalRegistrar →
        Trusted commands after.data.configWho after.data.password.devPwd := by
      intro some own
      rcases password role with ⟨kept, -⟩ | ⟨busy, devPwd, who⟩
      · rw [kept] at some
        exact absurd none some
      · rw [devPwd, who]
        rw [who] at own
        refine ⟨?_, session.job.given busy⟩
        have known := session.job.known busy
        cases given : machine.conf.configWho <;> simp_all
    have external : after.data.configWho = .externalRegistrar → after.conf.upnpEnabled := by
      intro external
      rcases password role with ⟨-, kept⟩ | ⟨busy, -, who⟩
      · rw [kept, unknown] at external
        cases external
      · have flag := session.job.proxied busy (who ▸ external)
        simp only [Conf.job, Prod.mk.injEq] at same
        rw [same.2.2.2]
        exact flag
    by_cases nack : after.data.state = .nack
    · exact .ended trusted (by simp [nack])
    · refine .early trusted external ?_
      rcases made.state with kept | start
      · rw [kept] at nack ⊢
        simp only [mem_cons, not_mem_nil, or_false] at early ⊢
        exact Or.inl (early.resolve_right nack)
      · simp [start]

theorem RegistrarSession.data {before after : Machine}
    (session : RegistrarSession commands identity before) (conf : after.conf = before.conf)
    (log : after.log = before.log) (state : after.data.state = before.data.state)
    (password : after.data.password = before.data.password)
    (who : after.data.configWho = before.data.configWho)
    (target : after.data.target = before.data.target) :
    RegistrarSession commands identity after := by
  refine ⟨conf ▸ session.job, log ▸ session.log, fun registrar => ?_⟩
  rw [target, password, who, state]
  refine (session.begun registrar).imp id fun good => ?_
  have grows : Grows (fun _ => True) before.log after.log := by
    rw [log]
    exact Grows.refl _ before.log
  exact ⟨target ▸ good.present, conf ▸ good.job,
    good.past.mono state (by rw [conf]) password who grows, log ▸ good.log⟩

variable {machine after : Machine}

theorem RegistrarSession.enters {ok : Bool} (session : RegistrarSession commands identity machine)
    (entered : Enters device env identity machine ok after) :
    RegistrarSession commands identity after := by
  cases entered with
  | unknown role => exact session
  | again interface role present => exact session.data rfl rfl rfl rfl rfl rfl
  | first interface role absent =>
    have here : RegistrarSession commands identity
        { machine with data := { machine.data with interface := interface } } :=
      session.data rfl rfl rfl rfl rfl rfl
    exact here.initialised device role absent

theorem RegistrarSession.good (session : RegistrarSession commands identity after)
    (entered : Enters device env identity machine true after)
    (role : after.data.interface = .registrar) : RegistrarGood commands after := by
  have registrar := entered.role device env rfl
  rw [role] at registrar
  rcases session.begun registrar with ⟨absent, -⟩ | good
  · exact absurd absent (isSome_iff_ne_none.mp (entered.present device env rfl))
  · exact good

theorem RegistrarSession.enrollee {before after : Machine}
    (session : RegistrarSession commands identity before)
    (role : interfaceOf identity = some .enrollee)
    (job : after.conf.job = before.conf.job ∨ after.conf.wpsJobBusy = false)
    (grows : Grows (Event.fits .enrollee) before.log after.log) :
    RegistrarSession commands identity after := by
  refine ⟨?_, session.log.grows grows fun log event fits => unconditional_of_enrollee fits log, ?_⟩
  · rcases job with same | idle
    · exact session.job.congr same
    · exact .idle idle
  · intro registrar
    rw [role] at registrar
    cases registrar

theorem RegistrarSession.requests (session : RegistrarSession commands identity machine)
    (requests : Requests crypto device env identity machine after) :
    RegistrarSession commands identity after := by
  cases requests with
  | fragment more => exact session
  | refused ok after entered stuck => exact session.enters device entered
  | registrar after entered role =>
    have good : RegistrarGood commands (eapWpsBuildReqRegistrar crypto device env after).2 :=
      eapWpsBuildReqRegistrar_good crypto device
        ((session.enters device entered).good device entered role)
    exact ⟨good.job, good.log, fun _ => Or.inr good⟩
  | enrollee after entered role =>
    refine (session.enters device entered).enrollee ?_
      (Or.inl (eapWpsBuildReqEnrollee_job crypto device env after))
      (eapWpsBuildReqEnrollee_grows crypto device env after)
    rw [entered.role device env rfl, role]

theorem RegistrarSession.failed (session : RegistrarSession commands identity machine) :
    RegistrarSession commands identity (machine.setState .nack).countFailure := by
  refine ⟨session.job.congr rfl, session.log, fun registrar => ?_⟩
  rcases session.begun registrar with ⟨absent, none, unknown, -⟩ | good
  · exact Or.inl ⟨absent, none, unknown, by simp⟩
  · exact Or.inr ⟨good.present, good.job.congr rfl, .ended good.past.trusted (by simp), good.log⟩

theorem RegistrarSession.processes {frame : Frame}
    (session : RegistrarSession commands identity machine)
    (processes : Processes crypto device env identity frame machine after) :
    RegistrarSession commands identity after := by
  have received : ∀ msgLen, RegistrarSession commands identity (machine.received frame msgLen) :=
    fun _ => session.data rfl rfl rfl rfl rfl rfl
  cases processes with
  | mismatch => exact session.failed
  | fragment msgLen length => exact received msgLen
  | refused msgLen ok after length entered => exact ((received msgLen).enters device entered).failed
  | registrar msgLen after length entered role =>
    have good : RegistrarGood commands
        (eapWpsProcessRegistrar crypto device env frame.opCode after) :=
      eapWpsProcessRegistrar_good crypto device
        (((received msgLen).enters device entered).good device entered role)
    exact ⟨good.job, good.log, fun _ => Or.inr good⟩
  | enrollee msgLen after length last entered role =>
    refine ((received msgLen).enters device entered).enrollee ?_
      ((eapWpsProcessEnrollee_job crypto device env frame.opCode after).imp_right And.right)
      (eapWpsProcessEnrollee_grows crypto device env frame.opCode after)
    rw [entered.role device env rfl, role]

/-! ## Whole runs -/

/-- A session in which we are the registrar and that has begun and not failed. -/
structure UnderWay (session : Session) : Prop where
  role : interfaceOf session.identity = some .registrar
  present : session.data.target.isSome
  active : session.data.state ∉ [.nack, .failure]

def Steady (system : System) (action : Action) : Prop :=
  (step crypto device system action).conf.upnpEnabled = system.conf.upnpEnabled ∨
    ∀ id before after, system.sessions id = some before →
      (step crypto device system action).sessions id = some after →
      ¬(UnderWay before ∧ UnderWay after)

theorem RegistrarSession.more
    (session : RegistrarSession commands identity machine) (params : EnableParams) :
    RegistrarSession (commands ++ [params]) identity machine := by
  have trusted : ∀ who devPwd, Trusted commands who devPwd →
      Trusted (commands ++ [params]) who devPwd := by
    rintro who devPwd ⟨own, given, member, same⟩
    exact ⟨own, given, mem_append_left _ member, same⟩
  have proved : ∀ message log, Proved commands message log →
      Proved (commands ++ [params]) message log := by
    rintro message log ⟨who, devPwd, member, given⟩
    exact ⟨who, devPwd, member, trusted who devPwd given⟩
  have log : Justified (RegistrarCause (commands ++ [params])) machine.log := by
    intro before event after same
    have cause := session.log before event after same
    cases event with
    | building message =>
      cases message with
      | m8 =>
        obtain ⟨built, first, second, third⟩ := cause
        exact ⟨built, proved _ _ first, proved _ _ second, proved _ _ third⟩
      | _ => trivial
    | _ => trivial
  refine ⟨session.job.more params, log, fun registrar => ?_⟩
  refine (session.begun registrar).imp id fun good => ?_
  have past := good.past
  refine ⟨good.present, good.job.more params, ?_, log⟩
  exact ⟨fun some own => trusted _ _ (past.trusted some own), past.external, past.local2,
    past.proxied, past.built, fun now => (past.first now).mono rfl rfl (proved _ _),
    fun now => (past.second now).mono rfl rfl (proved _ _),
    fun now => (past.third now).mono rfl rfl (proved _ _), past.needs⟩

theorem RegistrarSession.fresh {conf : Conf} (job : JobGood commands conf) (identity : Bytes) :
    RegistrarSession commands identity ⟨conf, EapWpsData.zero, []⟩ :=
  ⟨job, Justified.nil _, fun _ => Or.inl ⟨rfl, rfl, rfl, by simp [EapWpsData.zero]⟩⟩

/-- The configuration and all sessions, with the commands so far. -/
structure RegistrarSystem (system : System) : Prop where
  job : JobGood system.commands system.conf
  sessions : Throughout (RegistrarSession system.commands) system

theorem RegistrarSystem.job_moves {system after : System} {action : Action}
    (now : RegistrarSystem system) (moves : Moves crypto device system action after) :
    JobGood after.commands after.conf := by
  cases moves with
  | proposed id identity env =>
    exact ((RegistrarSession.fresh now.job identity).requests crypto device
      (eapWpsBuildReq_requests crypto device env identity _)).job
  | processed id frame env next session pending found delivered stays =>
    exact ((now.sessions id session found).processes crypto device
      (eapWpsProcess_processes crypto device env _ frame _)).job
  | answered id frame env next session found delivered proceeds =>
    exact (((now.sessions id session found).processes crypto device
      (eapWpsProcess_processes crypto device env _ frame _)).requests crypto device
      (eapWpsBuildReq_requests crypto device next _ _)).job
  | requested id env session action found asks =>
    exact ((now.sessions id session found).requests crypto device
      (eapWpsBuildReq_requests crypto device env _ _)).job
  | ignored action => exact now.job
  | reset id => exact now.job
  | enabled params time ieSet => exact eapWpsEnable_good device now.job params time ieSet
  | disabled => exact .idle rfl
  | ticked time => exact eapWpsTimerTick_good device now.job time

theorem RegistrarSystem.later {system after : System} {action : Action}
    (now : RegistrarSystem system) (moves : Moves crypto device system action after) :
    JobGood after.commands system.conf ∧ Throughout (RegistrarSession after.commands) system := by
  cases moves with
  | enabled params time ieSet =>
    exact ⟨now.job.more params, fun id session found => (now.sessions id session found).more params⟩
  | _ => exact ⟨now.job, now.sessions⟩

theorem RegistrarSystem.step {system : System} {action : Action} (now : RegistrarSystem system)
    (steady : Steady crypto device system action) :
    RegistrarSystem (step crypto device system action) := by
  have moves := step_moves crypto device system action
  have job := now.job_moves crypto device moves
  obtain ⟨earlier, sessions⟩ := now.later crypto device moves
  refine ⟨job, ?_⟩
  apply sessions.moves crypto device moves
  case start => exact RegistrarSession.fresh earlier
  case request =>
    intro identity env machine session
    exact session.requests crypto device (eapWpsBuildReq_requests crypto device env identity machine)
  case process =>
    intro id frame env next session same found delivered
    exact (sessions id session found).processes crypto device
      (eapWpsProcess_processes crypto device env _ frame _)
  case shared =>
    intro id session found kept here
    refine ⟨job, here.log, fun registrar =>
      (here.begun registrar).imp (fun fresh => fresh) fun good => ?_⟩
    refine ⟨good.present, job, ?_, good.log⟩
    by_cases active : session.data.state ∈ [.nack, .failure]
    · exact .ended good.past.trusted active
    · have underWay : UnderWay session := ⟨registrar, good.present, active⟩
      have flag := steady.resolve_right fun never =>
        never id session session found kept ⟨underWay, underWay⟩
      exact good.past.mono rfl flag rfl rfl (Grows.refl (fun _ => True) session.log)

/-- In every run, M7 is built behind an accepted M4 and M6; and as long as the
flag is steady, M8 is built behind an M2 of our own and an M3, M5 and M7 that
were accepted here, with a device password that a command gave. -/
theorem credentials_only_with_pin (actions : List Action) (id : Nat) (session : Session)
    (found : (run (Wps.step crypto device) System.initial actions).sessions id = some session) :
    (∀ before after, session.log = before ++ .building .m7 :: after →
      Accepted .m4 before ∧ Accepted .m6 before) ∧
    (Along (Wps.step crypto device) (Steady crypto device) System.initial actions →
      ∀ before after, session.log = before ++ .building .m8 :: after →
        .built .m2 ∈ before ∧ ∀ message ∈ [Message.m3, .m5, .m7],
          Proved (run (Wps.step crypto device) System.initial actions).commands message before) := by
  constructor
  · have keeps : ∀ system action, True → Throughout (EnrolleeSession crypto False) system →
        Throughout (EnrolleeSession crypto False) (Wps.step crypto device system action) :=
      fun _ _ _ now => EnrolleeSession.step device now False.elim
    have holds := (Along.trivial System.initial actions).invariant keeps Throughout.initial
      id session found
    exact fun before after same => holds.log before _ after same
  · intro steady before after same
    have start : RegistrarSystem System.initial := ⟨.idle rfl, Throughout.initial⟩
    have holds := steady.invariant
      (fun _ _ condition now => RegistrarSystem.step crypto device now condition) start
    obtain ⟨built, first, second, third⟩ :=
      (holds.sessions id session found).log before _ after same
    refine ⟨built, fun message member => ?_⟩
    simp only [mem_cons, not_mem_nil, or_false] at member
    rcases member with rfl | rfl | rfl
    · exact first
    · exact second
    · exact third

end

/-! ## An enrollee with the PIN of the command -/

def enableWithPin : EnableParams where
  devPwd := exampleDevice.defaultPin
  devPwdId := 0
  selregConfigMethods := 0x84
  filterSsidLength := 0
  secondsTimeout := 0
  configWho := .them
  doSave := false

/-- M1 of an enrollee, whatever its PIN is. -/
def placeholderM1 : Frame where
  beyond _ := 0
  bytes := bytesOf 366 [0x0201016EFE00372A000000010400104A00011010220001041047001000000000,
      0x0000000000000000000000101020000600037F000001101A0010050505050505,
      0x05050505050505050505103200C0000000000000000000000000000000000000,
      0, 0, 0, 0, 0,
      0x000000000000000000000000000210040002002210100002000C100D00010110,
      0x0800020084104400010210210001411023000141102400014110420001411054,
      0x000800000000000000001011000141103C000101100200020000101200020000,
      0x100900020000102D000400000000000000000000000000000000000000000000]

/-- Its further messages for the PIN `12345670`. -/
def enrolleeM3 : Frame where
  beyond _ := 0
  bytes := bytesOf 128 [0x02010080FE00372A000000010400104A00011010220001071039001001010101,
      0x01010101010101010101010110140020CB12B2FA98BE934F8AB7845EDF6E5180,
      0x2A06FB361C8ACE06CBA56676470E0A0D101500204F835B66D582C8A3DBFFC13F,
      0x2F77BFCF352E6D88AF726AFF1F6C45F9E18867AE10050008EB20671FB43E7CE8]

def enrolleeM5 : Frame where
  beyond _ := 0
  bytes := bytesOf 124 [0x0201007CFE00372A000000010400104A00011010220001091039001001010101,
      0x0101010101010101010101011018004008080808080808080808080808080808,
      0x7CB6070DCC183358A3C5C460F8593E4A406F2D167D2A205EDD6549083CE8F07A,
      0xE47A2B253158D31D8666A6F387EC692C10050008EBF489A72C0A2A5F00000000]

def enrolleeM7 : Frame where
  beyond _ := 0
  bytes := bytesOf 124 [0x0201007CFE00372A000000010400104A000110102200010B1039001001010101,
      0x0101010101010101010101011018004008080808080808080808080808080808,
      0xA0691B149FADE484D86200FAEAB5D4FA249161B7C6236FB1E3A1FB2FA78757DB,
      0x5AE4674F8D1B9D420BF9B34339B4299810050008793E3E2F50326D7D00000000]

def sendingCredentials : List Action :=
  [.enable enableWithPin ⟨0, 0⟩ true, .propose 0 wpsIdentityEnrollee exampleEnv] ++
    [placeholderM1, enrolleeM3, enrolleeM5, enrolleeM7].map fun frame =>
      .respond 0 frame exampleEnv exampleEnv

theorem sendingCredentials_log :
    logOf (run (step Crypto.internal exampleDevice) System.initial sendingCredentials) 0 =
      [.initData true, .processed .m1 .ok .them enableWithPin.devPwd, .building .m2, .built .m2,
        .processed .m3 .ok .them enableWithPin.devPwd, .building .m4, .built .m4,
        .processed .m5 .ok .them enableWithPin.devPwd, .building .m6, .built .m6,
        .processed .m7 .ok .them enableWithPin.devPwd, .building .m8, .built .m8] := by
  rw [Crypto.internal_eq]
  decide +kernel

theorem sendingCredentials_steady :
    Along (step Crypto.internal exampleDevice) (Steady Crypto.internal exampleDevice)
      System.initial sendingCredentials := by
  have flag : Along (step Crypto.internal exampleDevice) (fun system action =>
      (step Crypto.internal exampleDevice system action).conf.upnpEnabled =
        system.conf.upnpEnabled) System.initial sendingCredentials := by
    rw [Crypto.internal_eq]
    decide +kernel
  exact flag.mono fun _ _ => .inl

theorem credentials_for_the_pin :
    ∃ session before after,
      (run (step Crypto.internal exampleDevice) System.initial sendingCredentials).sessions 0 =
        some session ∧
      session.log = before ++ .building .m8 :: after ∧
      Proved (run (step Crypto.internal exampleDevice) System.initial sendingCredentials).commands
        .m7 before := by
  have log := sendingCredentials_log
  simp only [logOf] at log
  cases found : (run (step Crypto.internal exampleDevice) System.initial
    sendingCredentials).sessions 0 with
  | none => simp [found] at log
  | some session =>
    simp only [found, map_some, getD_some] at log
    have split : session.log = session.log.take 11 ++ .building .m8 :: [.built .m8] := by
      rw [log]
      rfl
    have holds := (credentials_only_with_pin Crypto.internal exampleDevice sendingCredentials 0
      session found).2 sendingCredentials_steady _ _ split
    exact ⟨session, _, _, rfl, split, holds.2 .m7 (by simp)⟩

/-! ## A session that outlives its external registrar -/

def selectExternalRegistrar : EnableParams where
  devPwd := []
  devPwdId := 0
  selregConfigMethods := 0x0100
  filterSsidLength := 0
  secondsTimeout := 0
  configWho := .externalRegistrar
  doSave := false

/-- The further messages of an enrollee whose PIN is `00000000`. -/
def placeholderM3 : Frame where
  beyond _ := 0
  bytes := bytesOf 128 [0x02010080FE00372A000000010400104A00011010220001071039001001010101,
      0x01010101010101010101010110140020964613B20EFC3589B98CEBE12FAD20B0,
      0xCFD7F0B1059513A9712153C84D385967101500202DB4CD8E30A4128CAB7A51ED,
      0x2238111D142B5DCF7739649CD4B5A79A7C48D006100500089D5D3F6650DDFEA6]

def placeholderM5 : Frame where
  beyond _ := 0
  bytes := bytesOf 124 [0x0201007CFE00372A000000010400104A00011010220001091039001001010101,
      0x0101010101010101010101011018004008080808080808080808080808080808,
      0x7CB6070DCC183358A3C5C460F8593E4A406F2D167D2A205EDD6549083CE8F07A,
      0xE47A2B253158D31D8666A6F387EC692C10050008E100B1067DD9720600000000]

def placeholderM7 : Frame where
  beyond _ := 0
  bytes := bytesOf 124 [0x0201007CFE00372A000000010400104A000110102200010B1039001001010101,
      0x0101010101010101010101011018004008080808080808080808080808080808,
      0xA0691B149FADE484D86200FAEAB5D4FA3EBA8CA2EB71B0AD3C2E854040075C8E,
      0x32C5524E47AACA68704A8A15EE5C297F100500085A5C762F4FBF4D5200000000]

/-- The job of an external registrar ends while a session waits for its M1. -/
def outlivedRegistrar : List Action :=
  [.enable selectExternalRegistrar ⟨0, 0⟩ true, .propose 0 wpsIdentityEnrollee exampleEnv, .disable,
    .respond 0 placeholderM1 exampleEnv exampleEnv,
    .respond 0 placeholderM3 exampleEnv exampleEnv,
    .respond 0 placeholderM5 exampleEnv exampleEnv,
    .respond 0 placeholderM7 exampleEnv exampleEnv]

theorem outlivedRegistrar_log :
    logOf (run (step Crypto.internal exampleDevice) System.initial outlivedRegistrar) 0 =
      [.initData true, .processed .m1 .ok .externalRegistrar zeroPin,
        .building .m2, .built .m2, .processed .m3 .ok .externalRegistrar zeroPin,
        .building .m4, .built .m4, .processed .m5 .ok .externalRegistrar zeroPin,
        .building .m6, .built .m6, .processed .m7 .ok .externalRegistrar zeroPin,
        .building .m8, .built .m8] := by
  rw [Crypto.internal_eq]
  decide +kernel

theorem outlivedRegistrar_sends_credentials :
    ∃ session before after,
      (run (step Crypto.internal exampleDevice) System.initial outlivedRegistrar).sessions 0 =
        some session ∧
      session.log = before ++ .building .m8 :: after ∧
      ¬Proved (run (step Crypto.internal exampleDevice) System.initial outlivedRegistrar).commands
        .m3 before := by
  have log := outlivedRegistrar_log
  simp only [logOf] at log
  generalize (run (step Crypto.internal exampleDevice) System.initial outlivedRegistrar).commands =
    commands
  generalize (run (step Crypto.internal exampleDevice) System.initial
    outlivedRegistrar).sessions 0 = found at log ⊢
  cases found with
  | none => simp at log
  | some session =>
    simp only [map_some, getD_some] at log
    refine ⟨session, session.log.take 11, [.built .m8], rfl, by rw [log]; rfl, ?_⟩
    rintro ⟨who, devPwd, member, trusted⟩
    rw [log] at member
    -- the only M3 was checked against the placeholder of the external registrar
    have same : who = .externalRegistrar := by
      simp only [List.take, mem_cons, not_mem_nil, or_false, reduceCtorEq,
        Event.processed.injEq, false_and, false_or, true_and] at member
      tauto
    rcases trusted.own with own | own <;> rw [same] at own <;> cases own

end AthApps.Wps
