import AthApps.Wps.Enrollee

/-!
# The life cycle of a job

Between a successful `eap_wps_enable` and the end of the job exactly one
timeout is registered, and without a job nothing of it is left.  The comment at
`eap_wps_enable` says that an error leaves no job; the refusal of the push
button method for the access point itself returns before that is done, and a
job of the same kind keeps running.
-/

set_option autoImplicit false

namespace AthApps.Wps

open AthApps.Lib

inductive JobEvent where
  | enable (params : EnableParams) (now : Time) (ieSet : Bool)
  | disable
  /-- The timeout that is registered expires. -/
  | tick (now : Time)

section

variable (device : Device)

def jobStep (conf : Conf) : JobEvent → Conf
  | .enable params now ieSet => (eapWpsEnable device conf params now ieSet).2
  | .disable => eapWpsDisable device conf
  | .tick now => if 0 < conf.timers then eapWpsTimerTick device conf now else conf

/-- What there is of a job when there is none. -/
structure Cleared (conf : Conf) : Prop where
  devPwd : conf.devPwd = []
  selreg : conf.selreg = false
  upnpEnabled : conf.upnpEnabled = false
  configWho : conf.configWho = .unknown

/-- What is asked of the configuration after an event. -/
structure Orderly (conf : Conf) (event : JobEvent) : Prop where
  timed : (jobStep device conf event).wpsJobBusy = true ↔ (jobStep device conf event).timers = 1
  cleared : (jobStep device conf event).wpsJobBusy = false → Cleared (jobStep device conf event)
  failed : ∀ params now ieSet, event = .enable params now ieSet →
    (eapWpsEnable device conf params now ieSet).1 = false →
      (jobStep device conf event).wpsJobBusy = false

/-- A push button command to configure the access point itself comes while
there is a job that does so. -/
def RefusedOverJob (conf : Conf) : JobEvent → Prop
  | .enable params _ _ => conf.wpsJobBusy = true ∧ conf.configWho = .me ∧
      params.configWho = .me ∧ params.isPushButton = true
  | _ => False

instance (conf : Conf) (event : JobEvent) : Decidable (RefusedOverJob conf event) :=
  match event with
  | .enable _ _ _ => inferInstanceAs (Decidable (_ ∧ _))
  | .disable => inferInstanceAs (Decidable False)
  | .tick _ => inferInstanceAs (Decidable False)

def Settled (conf : Conf) : Prop :=
  conf.wpsJobBusy = false → Cleared conf ∧ conf.timers = 0

structure JobInv (conf : Conf) : Prop where
  settled : Settled conf
  timed : conf.wpsJobBusy = true → conf.timers = 1
  allowed : conf.wpsJobBusy = true → device.wpsDisable = false
  proxied : conf.wpsJobBusy = true → conf.configWho = .externalRegistrar →
    device.wpsUpnpDisable = false

variable {device} {conf : Conf}

theorem JobInv.initial : JobInv device Conf.initial := by
  refine ⟨fun _ => ⟨⟨rfl, rfl, rfl, rfl⟩, rfl⟩, ?_, ?_, ?_⟩
  all_goals
    intro busy
    cases busy

theorem JobInv.idle (settled : Settled conf) (free : conf.wpsJobBusy = false) :
    JobInv device conf := by
  refine ⟨settled, ?_, ?_, ?_⟩
  all_goals
    intro busy
    rw [free] at busy
    cases busy

theorem JobInv.busy_iff (inv : JobInv device conf) :
    conf.wpsJobBusy = true ↔ conf.timers = 1 := by
  constructor
  · exact inv.timed
  · intro one
    cases free : conf.wpsJobBusy with
    | true => rfl
    | false =>
      rw [(inv.settled free).2] at one
      cases one

theorem eapWpsDisable_settled (settled : Settled conf) : Settled (eapWpsDisable device conf) := by
  intro _
  cases busy : conf.wpsJobBusy with
  | true =>
    unfold eapWpsDisable
    rw [busy]
    exact ⟨⟨rfl, rfl, rfl, rfl⟩, rfl⟩
  | false =>
    obtain ⟨cleared, none⟩ := settled busy
    unfold eapWpsDisable
    rw [busy]
    exact ⟨⟨rfl, cleared.selreg, rfl, cleared.configWho⟩, none⟩

theorem eapWpsDisable_inv (settled : Settled conf) : JobInv device (eapWpsDisable device conf) :=
  JobInv.idle (eapWpsDisable_settled settled) rfl

def retarget (device : Device) (conf : Conf) (params : EnableParams) : Conf :=
  if conf.wpsJobBusy ∧ params.configWho ≠ conf.configWho then eapWpsDisable device conf else conf

def restart (device : Device) (conf : Conf) (params : EnableParams) : Conf :=
  if conf.wpsJobBusy then
    if params.password = conf.devPwd then { conf with timers := 0 } else eapWpsDisable device conf
  else conf

theorem retarget_inv (inv : JobInv device conf) (params : EnableParams) :
    JobInv device (retarget device conf params) := by
  unfold retarget
  split
  · exact eapWpsDisable_inv inv.settled
  · exact inv

theorem retarget_busy (params : EnableParams) (busy : (retarget device conf params).wpsJobBusy = true) :
    retarget device conf params = conf ∧ conf.wpsJobBusy = true ∧
      params.configWho = conf.configWho := by
  unfold retarget at busy ⊢
  by_cases other : conf.wpsJobBusy ∧ params.configWho ≠ conf.configWho
  · rw [if_pos other] at busy
    cases busy
  · rw [if_neg other] at busy ⊢
    refine ⟨rfl, busy, ?_⟩
    by_contra different
    exact other ⟨busy, different⟩

theorem restart_settled (inv : JobInv device conf) (params : EnableParams) :
    Settled (restart device conf params) ∧ (restart device conf params).timers = 0 := by
  unfold restart
  cases busy : conf.wpsJobBusy with
  | true =>
    simp only [if_true]
    split
    · refine ⟨?_, rfl⟩
      intro free
      cases free
    · have settled : Settled (eapWpsDisable device conf) := eapWpsDisable_settled inv.settled
      exact ⟨settled, (settled rfl).2⟩
  | false =>
    simp only [Bool.false_eq_true, if_false]
    exact ⟨inv.settled, (inv.settled busy).2⟩

/-- The three returns before a running job is looked at. -/
def Refuses (device : Device) (params : EnableParams) : Prop :=
  device.wpsDisable = true ∨
    (params.configWho = .externalRegistrar ∧ device.wpsUpnpDisable = true) ∨
    (params.isPushButton = true ∧ params.configWho = .me)

theorem startJob_busy (params : EnableParams) (now : Time) :
    (startJob device conf params now).wpsJobBusy = true ∧
      (startJob device conf params now).configWho = params.configWho ∧
      (startJob device conf params now).timers = conf.timers := by
  unfold startJob
  cases params.configWho with
  | _ => exact ⟨rfl, rfl, rfl⟩

theorem announce_busy {params : EnableParams} {after : Conf}
    (announced : announce conf params = some after) :
    after.wpsJobBusy = conf.wpsJobBusy ∧ after.configWho = conf.configWho ∧
      after.timers = conf.timers := by
  unfold announce at announced
  split at announced
  · cases announced
    exact ⟨rfl, rfl, rfl⟩
  · split at announced
    · cases announced
      exact ⟨rfl, rfl, rfl⟩
    · split at announced
      · split at announced
        · cases announced
          exact ⟨rfl, rfl, rfl⟩
        · cases announced
      · cases announced
        exact ⟨rfl, rfl, rfl⟩

theorem settled_of_busy (busy : conf.wpsJobBusy = true) : Settled conf := by
  intro free
  rw [busy] at free
  cases free

/-- The part of `eap_wps_enable` that ends the job where it fails. -/
def launch (device : Device) (conf : Conf) (params : EnableParams) (now : Time) (ieSet : Bool) :
    Bool × Conf :=
  if 64 < params.password.length then
    (false, eapWpsDisable device conf)
  else
    let conf := startJob device conf params now
    if params.configWho = .unknown then
      (false, eapWpsDisable device conf)
    else
      match announce conf params with
      | none => (false, eapWpsDisable device conf)
      | some conf =>
        let conf := { conf with selreg := true }
        if ¬ieSet ∨ 32 < params.filterSsidLength then
          (false, eapWpsDisable device conf)
        else
          (true, { conf with timers := conf.timers + 1 })

theorem eapWpsEnable_eq (conf : Conf) (params : EnableParams) (now : Time) (ieSet : Bool) :
    eapWpsEnable device conf params now ieSet =
      if device.wpsDisable then (false, retarget device conf params)
      else if params.configWho = .externalRegistrar ∧ device.wpsUpnpDisable then
        (false, retarget device conf params)
      else if params.isPushButton ∧ params.configWho = .me then
        (false, retarget device conf params)
      else launch device (restart device (retarget device conf params) params) params now ieSet :=
  rfl

theorem launch_cases (settled : Settled conf) (cancelled : conf.timers = 0)
    (params : EnableParams) (now : Time) (ieSet : Bool) :
    (∃ before, Settled before ∧
      launch device conf params now ieSet = (false, eapWpsDisable device before)) ∨
    (∃ after, launch device conf params now ieSet = (true, after) ∧
      after.wpsJobBusy = true ∧ after.timers = 1 ∧ after.configWho = params.configWho) := by
  obtain ⟨busy, who, timers⟩ := @startJob_busy device conf params now
  unfold launch
  split
  · exact Or.inl ⟨conf, settled, rfl⟩
  · simp only
    split
    · exact Or.inl ⟨_, settled_of_busy busy, rfl⟩
    · cases announced : announce (startJob device conf params now) params with
      | none => exact Or.inl ⟨_, settled_of_busy busy, rfl⟩
      | some after =>
        obtain ⟨busy', who', timers'⟩ := announce_busy announced
        simp only
        split
        · refine Or.inl ⟨{ after with selreg := true }, settled_of_busy ?_, rfl⟩
          exact busy'.trans busy
        · refine Or.inr ⟨_, rfl, busy'.trans busy, ?_, who'.trans who⟩
          show after.timers + 1 = 1
          rw [timers', timers, cancelled]

/-- What `eap_wps_enable` returns: it refuses before it looks at a running job,
or it fails and ends the job, or there is a new job with one timeout. -/
theorem eapWpsEnable_cases (inv : JobInv device conf) (params : EnableParams) (now : Time)
    (ieSet : Bool) :
    (Refuses device params ∧
      eapWpsEnable device conf params now ieSet = (false, retarget device conf params)) ∨
    (¬Refuses device params ∧ ((∃ before, Settled before ∧
        eapWpsEnable device conf params now ieSet = (false, eapWpsDisable device before)) ∨
      (∃ after, eapWpsEnable device conf params now ieSet = (true, after) ∧
        after.wpsJobBusy = true ∧ after.timers = 1 ∧ after.configWho = params.configWho))) := by
  rw [eapWpsEnable_eq]
  by_cases disabled : device.wpsDisable = true
  · rw [if_pos disabled]
    exact Or.inl ⟨Or.inl disabled, rfl⟩
  · rw [if_neg disabled]
    by_cases proxy : params.configWho = .externalRegistrar ∧ device.wpsUpnpDisable = true
    · rw [if_pos proxy]
      exact Or.inl ⟨Or.inr (Or.inl proxy), rfl⟩
    · rw [if_neg proxy]
      by_cases button : params.isPushButton = true ∧ params.configWho = .me
      · rw [if_pos button]
        exact Or.inl ⟨Or.inr (Or.inr button), rfl⟩
      · rw [if_neg button]
        have accepted : ¬Refuses device params := by
          rintro (is | is | is)
          · exact disabled is
          · exact proxy is
          · exact button is
        obtain ⟨settled, cancelled⟩ := restart_settled (retarget_inv inv params) params
        exact Or.inr ⟨accepted, launch_cases settled cancelled params now ieSet⟩

theorem eapWpsTimerTick_inv (inv : JobInv device conf) (registered : 0 < conf.timers) (now : Time) :
    JobInv device (eapWpsTimerTick device conf now) := by
  have busy : conf.wpsJobBusy = true := by
    cases busy : conf.wpsJobBusy with
    | true => rfl
    | false =>
      rw [(inv.settled busy).2] at registered
      cases registered
  have going : ¬¬conf.wpsJobBusy = true := fun free => free busy
  simp only [eapWpsTimerTick, if_neg going]
  split
  · exact eapWpsDisable_inv (settled_of_busy busy)
  · refine ⟨settled_of_busy busy, ?_, inv.allowed, inv.proxied⟩
    intro _
    show conf.timers - 1 + 1 = 1
    rw [inv.timed busy]

theorem JobInv.step (inv : JobInv device conf) (event : JobEvent) :
    JobInv device (jobStep device conf event) := by
  cases event with
  | enable params now ieSet =>
    simp only [jobStep]
    rcases eapWpsEnable_cases inv params now ieSet with
      ⟨-, result⟩ | ⟨accepted, ⟨before, settled, result⟩ | ⟨after, result, busy, one, who⟩⟩
    · rw [result]
      exact retarget_inv inv params
    · rw [result]
      exact eapWpsDisable_inv settled
    · rw [result]
      refine ⟨settled_of_busy busy, fun _ => one, fun _ => ?_, fun _ external => ?_⟩
      · cases disabled : device.wpsDisable with
        | false => rfl
        | true => exact absurd (Or.inl disabled) accepted
      · cases disabled : device.wpsUpnpDisable with
        | false => rfl
        | true => exact absurd (Or.inr (Or.inl ⟨who.symm.trans external, disabled⟩)) accepted
  | disable => exact eapWpsDisable_inv inv.settled
  | tick now =>
    simp only [jobStep]
    split
    · exact eapWpsTimerTick_inv inv ‹_› now
    · exact inv

theorem JobInv.orderly (inv : JobInv device conf) (event : JobEvent) :
    Orderly device conf event ↔ ¬RefusedOverJob conf event := by
  have after := inv.step event
  constructor
  · intro orderly refused
    cases event with
    | disable => exact refused
    | tick now => exact refused
    | enable params now ieSet =>
      obtain ⟨busy, me, same, button⟩ := refused
      have unchanged : retarget device conf params = conf := by
        rw [retarget, if_neg]
        rintro ⟨-, different⟩
        exact different (same.trans me.symm)
      rcases eapWpsEnable_cases inv params now ieSet with ⟨-, result⟩ | ⟨accepted, -⟩
      · have stopped := orderly.failed params now ieSet rfl (by rw [result])
        simp only [jobStep, result, unchanged] at stopped
        rw [busy] at stopped
        cases stopped
      · exact accepted (Or.inr (Or.inr ⟨button, same⟩))
  · intro fine
    refine ⟨after.busy_iff, fun free => (after.settled free).1, ?_⟩
    rintro params now ieSet rfl failed
    rcases eapWpsEnable_cases inv params now ieSet with
      ⟨refuses, result⟩ | ⟨-, ⟨before, settled, result⟩ | ⟨conf', result, -⟩⟩
    · simp only [jobStep, result]
      by_contra running
      have busy : (retarget device conf params).wpsJobBusy = true := by simpa using running
      obtain ⟨unchanged, going, same⟩ := retarget_busy params busy
      rcases refuses with disabled | ⟨external, disabled⟩ | ⟨button, me⟩
      · rw [inv.allowed going] at disabled
        cases disabled
      · rw [inv.proxied going (same.symm.trans external)] at disabled
        cases disabled
      · exact fine ⟨going, same.symm.trans me, me, button⟩
    · simp only [jobStep, result]
      rfl
    · rw [result] at failed
      cases failed

theorem orderly_along (events : List JobEvent) : ∀ conf : Conf, JobInv device conf →
    (Along (jobStep device) (Orderly device) conf events ↔
      Along (jobStep device) (fun conf event => ¬RefusedOverJob conf event) conf events) := by
  induction events with
  | nil =>
    intro conf inv
    exact Iff.rfl
  | cons event rest ih =>
    intro conf inv
    exact and_congr (inv.orderly event) (ih _ (inv.step event))

end

/-- A run is orderly in every step if and only if no push button command for
the access point itself comes while there is a job of that kind. -/
theorem job_life_cycle (device : Device) (events : List JobEvent) :
    Along (jobStep device) (Orderly device) Conf.initial events ↔
      Along (jobStep device) (fun conf event => ¬RefusedOverJob conf event) Conf.initial events :=
  orderly_along events Conf.initial JobInv.initial

/-- The access point is to be configured, with a PIN or with a push button. -/
def configureMe (devPwd : Bytes) : JobEvent :=
  .enable
    { devPwd := devPwd
      devPwdId := 0
      selregConfigMethods := 0
      filterSsidLength := 0
      secondsTimeout := 0
      configWho := .me
      doSave := true }
    ⟨1, 0⟩ true

/-- A push button command after one with the PIN 12345670 fails and leaves the job. -/
theorem refused_button_leaves_job : (run (jobStep exampleDevice) Conf.initial
        [configureMe [0x31, 0x32, 0x33, 0x34, 0x35, 0x36, 0x37, 0x30], configureMe []]).wpsJobBusy =
      true ∧
    ¬Along (jobStep exampleDevice) (Orderly exampleDevice) Conf.initial
      [configureMe [0x31, 0x32, 0x33, 0x34, 0x35, 0x36, 0x37, 0x30], configureMe []] := by
  have busy : (run (jobStep exampleDevice) Conf.initial
      [configureMe [0x31, 0x32, 0x33, 0x34, 0x35, 0x36, 0x37, 0x30],
        configureMe []]).wpsJobBusy = true := by
    decide
  refine ⟨busy, ?_⟩
  rintro ⟨-, second, -⟩
  have stopped := second.failed _ _ _ rfl (by decide)
  have running := stopped.symm.trans busy
  cases running

end AthApps.Wps
