import AthApps.Lib.Trace
import AthApps.Wps.Session

/-!
# The access point

What `hostapd/eap.c` makes of the method: a session is proposed to a station,
answers pass the integrity check, are processed and lead to the next request,
unless the method is done or has to wait for the external registrar.  All
sessions share one configuration, which the commands and the timer of the job
change as well.
-/

set_option autoImplicit false

namespace AthApps.Wps

open AthApps.Lib
open Function (update_of_ne update_self)

/-- Where the EAP state machine of a session stands: it waits for an answer,
for the external registrar (`METHOD_PENDING_WAIT`), or is at its end. -/
inductive Pending
  | idle
  | waiting
  | ended
  deriving DecidableEq

structure Session where
  identity : Bytes
  pending : Pending
  data : EapWpsData
  log : List Event

structure System where
  conf : Conf
  sessions : Nat → Option Session
  -- the `eap_wps_enable` commands so far
  commands : List EnableParams

def System.initial : System where
  conf := Conf.initial
  sessions := fun _ => none
  commands := []

inductive Action
  -- PROPOSE_METHOD and METHOD_REQUEST, after the identity is known
  | propose (id : Nat) (identity : Bytes) (env : Env)
  -- an answer; `next` is what the following request meets
  | respond (id : Nat) (frame : Frame) (env next : Env)
  -- the external registrar has answered
  | wake (id : Nat) (env : Env)
  -- the last retransmission was not answered either
  | timeout (id : Nat) (env : Env)
  | reset (id : Nat)
  | enable (params : EnableParams) (now : Time) (ieSet : Bool)
  | disable
  | tick (now : Time)

section

variable (crypto : Crypto) (device : Device)

def Session.machine (session : Session) (conf : Conf) : Machine :=
  ⟨conf, session.data, session.log⟩

def System.update (system : System) (id : Nat) (identity : Bytes) (pending : Pending)
    (machine : Machine) : System :=
  { system with
    conf := machine.conf
    sessions := Function.update system.sessions id
      (some ⟨identity, pending, machine.data, machine.log⟩) }

variable (system : System) (id : Nat) (identity : Bytes)

def System.request (env : Env) (machine : Machine) : System :=
  system.update id identity .idle (eapWpsBuildReq crypto device env identity machine).2

def System.response (frame : Frame) (env next : Env) (machine : Machine) : System :=
  let result := eapWpsProcess crypto device env identity frame machine
  if result.2.data.state = .failure then
    system.update id identity .ended result.2
  else if result.1 then
    system.update id identity .waiting result.2
  else
    system.request crypto device id identity next result.2

def step (system : System) : Action → System
  | .propose id identity env =>
    system.request crypto device id identity env ⟨system.conf, EapWpsData.zero, []⟩
  | .respond id frame env next =>
    match system.sessions id with
    | none => system
    | some session =>
      if session.pending = .idle ∧ eapWpsCheck device frame then
        system.response crypto device id session.identity frame env next
          (session.machine system.conf)
      else
        system
  | .wake id env =>
    match system.sessions id with
    | none => system
    | some session =>
      if session.pending = .waiting then
        system.request crypto device id session.identity env (session.machine system.conf)
      else
        system
  | .timeout id env =>
    match system.sessions id with
    | none => system
    | some session =>
      if session.pending = .idle ∧ session.data.state ≠ .failure then
        system.request crypto device id session.identity env (session.machine system.conf)
      else
        system
  | .reset id => { system with sessions := Function.update system.sessions id none }
  | .enable params now ieSet =>
    { system with
      conf := (eapWpsEnable device system.conf params now ieSet).2
      commands := system.commands ++ [params] }
  | .disable => { system with conf := eapWpsDisable device system.conf }
  | .tick now => { system with conf := eapWpsTimerTick device system.conf now }

/-- What a step can do. -/
inductive Moves (system : System) : Action → System → Prop
  | proposed (id : Nat) (identity : Bytes) (env : Env) :
      Moves system (.propose id identity env)
        (system.request crypto device id identity env ⟨system.conf, EapWpsData.zero, []⟩)
  | processed (id : Nat) (frame : Frame) (env next : Env) (session : Session) (pending : Pending)
      (found : system.sessions id = some session)
      (delivered : session.pending = .idle ∧ eapWpsCheck device frame)
      (stays : (eapWpsProcess crypto device env session.identity frame
          (session.machine system.conf)).2.data.state = .failure ∨
        (eapWpsProcess crypto device env session.identity frame
          (session.machine system.conf)).1 = true) :
      Moves system (.respond id frame env next)
        (system.update id session.identity pending (eapWpsProcess crypto device env
          session.identity frame (session.machine system.conf)).2)
  | answered (id : Nat) (frame : Frame) (env next : Env) (session : Session)
      (found : system.sessions id = some session)
      (delivered : session.pending = .idle ∧ eapWpsCheck device frame)
      (proceeds : (eapWpsProcess crypto device env session.identity frame
        (session.machine system.conf)).1 = false) :
      Moves system (.respond id frame env next)
        (system.request crypto device id session.identity next (eapWpsProcess crypto device env
          session.identity frame (session.machine system.conf)).2)
  | requested (id : Nat) (env : Env) (session : Session) (action : Action)
      (found : system.sessions id = some session)
      (asks : action = .wake id env ∨ action = .timeout id env) :
      Moves system action (system.request crypto device id session.identity env
        (session.machine system.conf))
  | ignored (action : Action) : Moves system action system
  | reset (id : Nat) :
      Moves system (.reset id)
        { system with sessions := Function.update system.sessions id none }
  | enabled (params : EnableParams) (now : Time) (ieSet : Bool) :
      Moves system (.enable params now ieSet)
        { system with
          conf := (eapWpsEnable device system.conf params now ieSet).2
          commands := system.commands ++ [params] }
  | disabled : Moves system .disable { system with conf := eapWpsDisable device system.conf }
  | ticked (now : Time) :
      Moves system (.tick now) { system with conf := eapWpsTimerTick device system.conf now }

theorem step_moves (action : Action) :
    Moves crypto device system action (step crypto device system action) := by
  cases action with
  | propose id identity env => exact .proposed id identity env
  | respond id frame env next =>
    simp only [step]
    split
    · exact .ignored _
    · next session found =>
        split
        · next delivered =>
            simp only [System.response]
            split
            · next ended =>
                exact .processed id frame env next session .ended found delivered (Or.inl ended)
            · split
              · next waits =>
                  exact .processed id frame env next session .waiting found delivered (Or.inr waits)
              · next proceeds =>
                  exact .answered id frame env next session found delivered
                    (by simpa using proceeds)
        · exact .ignored _
  | wake id env =>
    simp only [step]
    split
    · exact .ignored _
    · next session found =>
        split
        · exact .requested id env session _ found (Or.inl rfl)
        · exact .ignored _
  | timeout id env =>
    simp only [step]
    split
    · exact .ignored _
    · next session found =>
        split
        · exact .requested id env session _ found (Or.inr rfl)
        · exact .ignored _
  | reset id => exact .reset id
  | enable params now ieSet => exact .enabled params now ieSet
  | disable => exact .disabled
  | tick now => exact .ticked now

theorem eapWpsProcess_waits {env : Env} {identity : Bytes} {frame : Frame}
    {machine : Machine} (waits : (eapWpsProcess crypto device env identity frame machine).1 = true) :
    mustWait device env (eapWpsProcess crypto device env identity frame machine).2 = true := by
  simp only [eapWpsProcess] at waits ⊢
  split at waits
  · cases waits
  · split at waits
    · next more => simpa [more] using waits
    · next more =>
        simp only [more] at waits ⊢
        split at waits
        · cases waits
        · split at waits
          · exact waits
          · exact waits
          · cases waits

/-- A property holds of every session, together with the shared configuration. -/
def Throughout (property : Bytes → Machine → Prop) (system : System) : Prop :=
  ∀ id session, system.sessions id = some session →
    property session.identity (session.machine system.conf)

variable {property : Bytes → Machine → Prop}

theorem Throughout.initial : Throughout property System.initial := by
  intro id session found
  cases found

theorem Throughout.update {system : System} {id : Nat} {identity : Bytes}
    {pending : Pending} {machine : Machine} (here : property identity machine)
    (others : ∀ other session, other ≠ id → system.sessions other = some session →
      property session.identity (session.machine machine.conf)) :
    Throughout property (system.update id identity pending machine) := by
  intro other session found
  by_cases same : other = id
  · subst same
    simp only [System.update, update_self, Option.some.injEq] at found
    subst found
    exact here
  · simp only [System.update, update_of_ne same] at found
    exact others other session same found

/-- The rule for one step: the property holds at the start of a session, the
two entry points keep it, and so does what the step does to the configuration
that the other sessions share. -/
theorem Throughout.moves {system after : System} {action : Action}
    (moves : Moves crypto device system action after) (now : Throughout property system)
    (start : ∀ identity, property identity ⟨system.conf, EapWpsData.zero, []⟩)
    (request : ∀ identity env machine, property identity machine →
      property identity (eapWpsBuildReq crypto device env identity machine).2)
    (process : ∀ id frame env next session, action = .respond id frame env next →
      system.sessions id = some session → session.pending = .idle ∧ eapWpsCheck device frame →
      property session.identity (eapWpsProcess crypto device env session.identity frame
        (session.machine system.conf)).2)
    (shared : ∀ id session, system.sessions id = some session → after.sessions id = some session →
      property session.identity (session.machine system.conf) →
      property session.identity (session.machine after.conf)) :
    Throughout property after := by
  -- a step that writes one session
  have write : ∀ id identity pending machine,
      after = system.update id identity pending machine → property identity machine →
      Throughout property (system.update id identity pending machine) := by
    intro id identity pending machine same here
    refine Throughout.update here ?_
    intro other session different found
    have kept := shared other session found
    rw [same] at kept
    exact kept (by simpa [System.update, different] using found) (now other session found)
  cases moves with
  | proposed id identity env => exact write id identity .idle _ rfl (request _ env _ (start _))
  | processed id frame env next session pending found delivered stays =>
    exact write id _ pending _ rfl (process id frame env next session rfl found delivered)
  | answered id frame env next session found delivered proceeds =>
    exact write id _ .idle _ rfl
      (request _ next _ (process id frame env next session rfl found delivered))
  | requested id env session action found asks =>
    exact write id _ .idle _ rfl (request _ env _ (now id session found))
  | ignored action => exact now
  | reset id =>
    intro other session found
    by_cases same : other = id
    · subst same
      simp [update_self] at found
    · simp only [update_of_ne same] at found
      exact now other session found
  | enabled params time ieSet =>
    exact fun id session found => shared id session found found (now id session found)
  | disabled => exact fun id session found => shared id session found found (now id session found)
  | ticked time =>
    exact fun id session found => shared id session found found (now id session found)

end

end AthApps.Wps
