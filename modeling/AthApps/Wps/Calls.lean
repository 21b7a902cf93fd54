import AthApps.Lib.Trace
import AthApps.Wps.Session

/-!
# What the calls of a session change

One lemma for each building block of the two roles: which part of the machine
it writes and which events it adds to the log.
-/

set_option autoImplicit false

namespace AthApps.Wps

open AthApps.Lib
open List hiding Vector

namespace Machine

variable (machine : Machine)

@[simp] theorem emit_conf (event : Event) : (machine.emit event).conf = machine.conf := rfl
@[simp] theorem emit_data (event : Event) : (machine.emit event).data = machine.data := rfl
@[simp] theorem emit_log (event : Event) : (machine.emit event).log = machine.log ++ [event] := rfl
@[simp] theorem setState_conf (state : State) : (machine.setState state).conf = machine.conf := rfl
@[simp] theorem setState_log (state : State) : (machine.setState state).log = machine.log := rfl
@[simp] theorem setState_data (state : State) :
    (machine.setState state).data = { machine.data with state := state } := rfl
@[simp] theorem setTarget_conf (target : TargetInfo) :
    (machine.setTarget target).conf = machine.conf := rfl
@[simp] theorem setTarget_log (target : TargetInfo) :
    (machine.setTarget target).log = machine.log := rfl
@[simp] theorem setTarget_data (target : TargetInfo) :
    (machine.setTarget target).data = { machine.data with target := some target } := rfl
@[simp] theorem setExchange_conf (exchange : Exchange) :
    (machine.setExchange exchange).conf = machine.conf := rfl
@[simp] theorem setExchange_log (exchange : Exchange) :
    (machine.setExchange exchange).log = machine.log := rfl
@[simp] theorem setExchange_data (exchange : Exchange) :
    (machine.setExchange exchange).data = { machine.data with exchange := exchange } := rfl
@[simp] theorem countFailure_conf : machine.countFailure.conf = machine.conf.countFailure := rfl
@[simp] theorem countFailure_data : machine.countFailure.data = machine.data := rfl
@[simp] theorem countFailure_log : machine.countFailure.log = machine.log := rfl
@[simp] theorem failureClear_conf : machine.failureClear.conf = machine.conf.failureClear := rfl
@[simp] theorem failureClear_data : machine.failureClear.data = machine.data := rfl
@[simp] theorem failureClear_log : machine.failureClear.log = machine.log := rfl

end Machine

/-- What a session takes from the configuration at its start, and the flag that
decides which messages are proxied. -/
def Conf.job (conf : Conf) : Bool × ConfigWho × Bytes × Bool :=
  (conf.wpsJobBusy, conf.configWho, conf.devPwd, conf.upnpEnabled)

@[simp] theorem Conf.countFailure_job (conf : Conf) : conf.countFailure.job = conf.job := rfl
@[simp] theorem Conf.failureClear_job (conf : Conf) : conf.failureClear.job = conf.job := rfl

/-! ## The events of a role -/

def Interface.builds : Interface → Message → Bool
  | .registrar, message => message ∈ [.m2, .m2d, .m4, .m6, .m8, .nack]
  | .enrollee, message => message ∈ [.m1, .m3, .m5, .m7, .nack, .done]
  | .none, _ => false

def Interface.processes : Interface → Message → Bool
  | .registrar, message => message ∈ [.m1, .m3, .m5, .m7]
  | .enrollee, message => message ∈ [.m2, .m2d, .m4, .m6, .m8]
  | .none, _ => false

def Event.fits (interface : Interface) : Event → Prop
  | .initData _ => True
  | .building message => interface.builds message
  | .built message => interface.builds message
  | .processed message _ _ _ => interface.processes message
  | .setSsidConfiguration role _ _ => role = interface

section

variable (crypto : Crypto) (device : Device) (env : Env)

/-! ## Building blocks -/

section

variable (kind : Event → Prop) (message : Message)
  (build : Exchange → Option Bytes × Exchange)
  (process : TargetInfo → Verdict × TargetInfo) (machine : Machine)

@[simp] theorem runBuilder_fst :
    (runBuilder message build machine).1 = (build machine.data.exchange).1 := rfl

@[simp] theorem runBuilder_conf : (runBuilder message build machine).2.conf = machine.conf := by
  simp only [runBuilder]
  split <;> rfl

@[simp] theorem runBuilder_data : (runBuilder message build machine).2.data =
      { machine.data with exchange := (build machine.data.exchange).2 } := by
  simp only [runBuilder]
  split <;> rfl

theorem runBuilder_log :
    (runBuilder message build machine).2.log = machine.log ++ .building message ::
      if (build machine.data.exchange).1.isSome then [.built message] else [] := by
  cases answer : (build machine.data.exchange).1 <;>
    simp [runBuilder, answer, Machine.emit, Machine.setExchange]

theorem runBuilder_justified {relation : List Event → Event → Prop}
    (earlier : Justified relation machine.log) (building : relation machine.log (.building message))
    (built : ∀ log, relation log (.built message)) :
    Justified relation (runBuilder message build machine).2.log := by
  have first := earlier.snoc building
  rw [runBuilder_log]
  split
  · simpa using first.snoc (built _)
  · exact first

@[simp] theorem runProcessor_conf :
    (runProcessor message process machine).2.conf = machine.conf := rfl

@[simp] theorem runProcessor_data : (runProcessor message process machine).2.data =
      { machine.data with target := some (process machine.target).2 } := rfl

@[simp] theorem runProcessor_log : (runProcessor message process machine).2.log = machine.log ++
      [.processed message (process machine.target).1 machine.data.configWho
        machine.data.password.devPwd] := rfl

end

theorem sendMessage_snd (opCode : OpCode) (next : Machine → Machine)
    (built : Option Bytes × Machine) :
    (sendMessage env opCode next built).2 =
      if built.1.isSome then next built.2 else built.2 := by
  rcases built with ⟨_ | msg, machine⟩ <;> rfl

/-- A message from the external registrar only becomes the one we sent last. -/
theorem wpsOptUpnpReceivedMessage_snd (call : Nat) (machine : Machine) :
    ∃ sndMsg, (wpsOptUpnpReceivedMessage env call machine).2 =
      machine.setExchange { machine.data.exchange with sndMsg := sndMsg } := by
  simp only [wpsOptUpnpReceivedMessage]
  split
  · exact ⟨machine.data.exchange.sndMsg, rfl⟩
  · exact ⟨_, rfl⟩

/-- A processed ACK, NACK or DONE changes at most the error the peer reported. -/
theorem eapWpsProcessMessageSpecial_snd (message : Message) (machine : Machine) :
    ∃ target, (eapWpsProcessMessageSpecial env message machine).2 =
        { machine with data := { machine.data with target := target } } ∧
      (target.getD TargetInfo.zero).config = machine.target.config ∧
      (machine.data.target.isSome → target.isSome) := by
  simp only [eapWpsProcessMessageSpecial]
  split
  · exact ⟨machine.data.target, rfl, rfl, id⟩
  · split
    · exact ⟨machine.data.target, rfl, rfl, id⟩
    · refine ⟨_, rfl, ?_, fun _ => rfl⟩
      simp only [eapWpsConfigProcessMessageSpecial, Option.getD_some]
      split
      · rfl
      · split
        · split <;> rfl
        · rfl

/-! ## Relations that calls keep -/

/-- A relation between machines that every small step of a call keeps, as long
as the events it adds are of the kind. -/
structure Stable (kind : Event → Prop) (related : Machine → Machine → Prop) : Prop where
  refl : ∀ machine, related machine machine
  trans : ∀ {first second third}, related first second → related second third →
    related first third
  failures : ∀ (machine : Machine) failures locked, related machine
    { machine with
      conf := { machine.conf with failures := failures, apSetupLocked := locked } }
  data : ∀ (machine : Machine) state exchange target password, related machine
    { machine with
      data := { machine.data with
        state := state, exchange := exchange, target := target, password := password } }
  emit : ∀ (machine : Machine) event, kind event → related machine (machine.emit event)

theorem growing (kind : Event → Prop) :
    Stable kind fun before after => Grows kind before.log after.log where
  refl machine := Grows.refl kind machine.log
  trans := Grows.trans
  failures machine _ _ := Grows.refl kind machine.log
  data machine _ _ _ _ := Grows.refl kind machine.log
  emit machine _ here := Grows.one machine.log here

variable {kind : Event → Prop} {machine after : Machine} {identity : Bytes}

namespace Stable

variable {related : Machine → Machine → Prop} (stable : Stable kind related) {before : Machine}
  {message : Message}

include stable

theorem setState (earlier : related before machine) (state : State) :
    related before (machine.setState state) :=
  stable.trans earlier (stable.data machine state _ _ _)

theorem countFailure (earlier : related before machine) : related before machine.countFailure :=
  stable.trans earlier (stable.failures machine _ machine.conf.apSetupLocked)

theorem failureClear (earlier : related before machine) : related before machine.failureClear :=
  stable.trans earlier (stable.failures machine 0 false)

theorem sendMessage (opCode : OpCode) (next : Machine → Machine)
    (built : Option Bytes × Machine) (earlier : related before built.2)
    (changes : related built.2 (next built.2)) :
    related before (sendMessage env opCode next built).2 := by
  rw [sendMessage_snd]
  split
  · exact stable.trans earlier changes
  · exact earlier

theorem runBuilder (build : Exchange → Option Bytes × Exchange) (machine : Machine)
    (building : kind (.building message)) (built : kind (.built message)) :
    related machine (runBuilder message build machine).2 := by
  have first : related machine
      ((machine.emit (.building message)).setExchange (build machine.data.exchange).2) :=
    stable.trans (stable.emit machine _ building) (stable.data _ _ _ _ _)
  simp only [Wps.runBuilder]
  split
  · exact stable.trans first (stable.emit _ _ built)
  · exact first

theorem wpsOptUpnpReceivedMessage (call : Nat) (machine : Machine) :
    related machine (wpsOptUpnpReceivedMessage env call machine).2 := by
  obtain ⟨sndMsg, same⟩ := wpsOptUpnpReceivedMessage_snd env call machine
  rw [same]
  exact stable.data machine _ _ _ _

theorem eapWpsBuildProxied (call : Nat) (build : Exchange → Option Bytes × Exchange)
    (machine : Machine) (building : kind (.building message)) (built : kind (.built message)) :
    related machine (eapWpsBuildProxied env call message build machine).2 := by
  simp only [Wps.eapWpsBuildProxied]
  split
  · exact stable.wpsOptUpnpReceivedMessage env call machine
  · exact stable.runBuilder build machine building built

theorem adoptNonces (machine : Machine) : related machine (adoptNonces machine) := by
  simp only [Wps.adoptNonces]
  split
  · exact stable.refl machine
  · split <;> exact stable.data machine _ _ _ _

theorem adoptState {msg : Bytes} (adopted : adoptState msg machine = some after) :
    related machine after := by
  simp only [Wps.adoptState] at adopted
  split at adopted
  · cases adopted
    exact stable.data machine _ _ _ _
  · split at adopted
    · cases adopted
      exact stable.data machine _ _ _ _
    · split at adopted
      · cases adopted
        exact stable.countFailure (stable.data machine _ _ _ _)
      · cases adopted

theorem eapWpsBuildMessageM2D (machine : Machine)
    (building : kind (.building .m2d)) (built : kind (.built .m2d)) :
    related machine (eapWpsBuildMessageM2D device env machine).2 := by
  -- our own M2D, whatever the messages of the external registrar left of the machine
  have own : ∀ after : Machine, related machine after → related machine
      (if after.data.state = .m2d1 then
        Wps.runBuilder .m2d (eapWpsConfigBuildMessageM2D device env.random after.target) after
      else (none, after)).2 := by
    intro after earlier
    split
    · exact stable.trans earlier (stable.runBuilder _ after building built)
    · exact earlier
  simp only [Wps.eapWpsBuildMessageM2D]
  split
  · exact own machine (stable.refl machine)
  · have received := stable.wpsOptUpnpReceivedMessage env 0 machine
    split
    · next after result =>
        rw [result] at received
        exact own after received
    · next msg after result =>
        rw [result] at received
        have known := stable.trans received (stable.adoptNonces after)
        split
        · next adopted found => exact stable.trans known (stable.adoptState found)
        · exact own _ known

theorem refuse (call : Nat) (machine : Machine)
    (building : kind (.building .nack)) (built : kind (.built .nack)) :
    related machine (refuse device env call machine).2 :=
  stable.sendMessage env .nack _ _ (stable.eapWpsBuildProxied env call _ machine building built)
    (stable.countFailure (stable.data _ _ _ _ _))

theorem refuseTwice (machine : Machine)
    (building : kind (.building .nack)) (built : kind (.built .nack)) :
    related machine (refuseTwice device env machine).2 := by
  have first := stable.sendMessage env .nack (·.setState .nack)
    (eapWpsBuildMessageSpecial device env 0 .nack machine)
    (stable.eapWpsBuildProxied env 0 _ machine building built) (stable.data _ _ _ _ _)
  simp only [Wps.refuseTwice]
  split
  · next after answer =>
      rw [answer] at first
      exact first
  · next req after answer =>
      rw [answer] at first
      have second := stable.refuse device env 1 after building built
      split
      · next final refused =>
          rw [refused] at second
          exact stable.trans first second
      · next final refused =>
          rw [refused] at second
          exact stable.trans first second

theorem eapWpsBuildReqRegistrar (machine : Machine)
    (flag : ∀ machine : Machine,
      related machine { machine with conf := { machine.conf with upnpEnabled := false } })
    (reload : ∀ machine, related machine (reloadConfig device env machine))
    (building : ∀ message, Interface.builds .registrar message → kind (.building message))
    (built : ∀ message, Interface.builds .registrar message → kind (.built message)) :
    related machine (eapWpsBuildReqRegistrar crypto device env machine).2 := by
  simp only [Wps.eapWpsBuildReqRegistrar]
  split
  case h_1 => exact stable.data machine .m1 _ _ _
  case h_2 =>
    refine stable.sendMessage env .msg _ _ ?_ (stable.data _ .m3 _ _ _)
    exact stable.trans (flag machine) (stable.runBuilder _ _ (building _ rfl) (built _ rfl))
  case h_3 =>
    refine stable.sendMessage env .msg _ _
      (stable.eapWpsBuildMessageM2D device env machine (building _ rfl) (built _ rfl)) ?_
    simp only [afterM2D]
    split
    · exact stable.data _ .ack _ _ _
    · exact stable.refl _
  case h_4 => split <;> exact stable.data machine _ _ _ _
  case h_5 =>
    exact stable.sendMessage env .msg _ _
      (stable.eapWpsBuildProxied env 0 _ machine (building .m4 rfl) (built .m4 rfl))
      (stable.data _ .m5 _ _ _)
  case h_6 =>
    exact stable.sendMessage env .msg _ _
      (stable.eapWpsBuildProxied env 0 _ machine (building .m6 rfl) (built .m6 rfl))
      (stable.data _ .m7 _ _ _)
  case h_7 =>
    refine stable.sendMessage env .msg _ _ ?_ (stable.failureClear (stable.data _ .done _ _ _))
    exact stable.trans (reload machine)
      (stable.eapWpsBuildProxied env 0 _ _ (building .m8 rfl) (built .m8 rfl))
  case h_8 => exact stable.refuseTwice device env machine (building _ rfl) (built _ rfl)
  case h_9 => exact stable.refuse device env 0 machine (building _ rfl) (built _ rfl)

theorem eapWpsBuildMessageM3 (machine : Machine)
    (building : kind (.building .m3)) (built : kind (.built .m3)) :
    related machine (eapWpsBuildMessageM3 crypto device env machine).2 := by
  simp only [Wps.eapWpsBuildMessageM3]
  split
  · exact stable.trans (stable.trans (stable.emit machine _ building) (stable.data _ _ _ _ _))
      (stable.emit _ _ built)
  · exact stable.trans (stable.emit machine _ building) (stable.data _ _ _ _ _)

theorem eapWpsBuildReqEnrollee (machine : Machine)
    (building : ∀ message, Interface.builds .enrollee message → kind (.building message))
    (built : ∀ message, Interface.builds .enrollee message → kind (.built message)) :
    related machine (eapWpsBuildReqEnrollee crypto device env machine).2 := by
  simp only [Wps.eapWpsBuildReqEnrollee]
  split
  case h_1 =>
    exact stable.sendMessage env .msg _ _
      (stable.runBuilder _ machine (building .m1 rfl) (built .m1 rfl)) (stable.data _ .m2 _ _ _)
  case h_2 =>
    exact stable.sendMessage env .msg _ _
      (stable.eapWpsBuildMessageM3 crypto device env machine (building _ rfl) (built _ rfl))
      (stable.data _ .m4 _ _ _)
  case h_3 =>
    exact stable.sendMessage env .msg _ _
      (stable.runBuilder _ machine (building .m5 rfl) (built .m5 rfl)) (stable.data _ .m6 _ _ _)
  case h_4 =>
    exact stable.sendMessage env .msg _ _
      (stable.runBuilder _ machine (building .m7 rfl) (built .m7 rfl)) (stable.data _ .m8 _ _ _)
  case h_5 =>
    refine stable.sendMessage env .nack _ _
      (stable.eapWpsBuildProxied env 0 _ machine (building .nack rfl) (built .nack rfl)) ?_
    split
    · exact stable.setState (stable.countFailure (stable.refl _)) .nack
    · exact stable.data _ .nack _ _ _
  case h_6 =>
    refine stable.sendMessage env .done _ _ ?_ (stable.data _ .ack _ _ _)
    exact stable.trans (stable.failureClear (stable.refl machine))
      (stable.eapWpsBuildProxied env 0 _ _ (building .done rfl) (built .done rfl))
  case h_7 => exact stable.refuse device env 0 machine (building _ rfl) (built _ rfl)

theorem runProcessor (process : TargetInfo → Verdict × TargetInfo) (machine : Machine)
    (processed : ∀ verdict who devPwd, kind (.processed message verdict who devPwd)) :
    related machine (runProcessor message process machine).2 :=
  stable.trans (stable.data machine _ _ (some (process machine.target).2) _)
    (stable.emit _ _ (processed _ _ _))

theorem eapWpsProcessProxied (process : TargetInfo → Verdict × TargetInfo) (machine : Machine)
    (processed : ∀ verdict who devPwd, kind (.processed message verdict who devPwd)) :
    related machine (eapWpsProcessProxied env message process machine).2 := by
  simp only [Wps.eapWpsProcessProxied]
  split
  · exact stable.refl machine
  · exact stable.runProcessor process machine processed

theorem acceptOrRefuse (next : State) (result : Verdict × Machine)
    (earlier : related before result.2) : related before (acceptOrRefuse next result) := by
  simp only [Wps.acceptOrRefuse]
  split
  · exact stable.setState earlier next
  · exact stable.countFailure (stable.setState earlier .nack)

theorem eapWpsProcessMessageSpecial (message : Message) (machine : Machine) :
    related machine (eapWpsProcessMessageSpecial env message machine).2 := by
  obtain ⟨target, same, -⟩ := eapWpsProcessMessageSpecial_snd env message machine
  rw [same]
  exact stable.data machine _ _ target _

/-- Every response of the peer but the DONE that ends the session. -/
theorem eapWpsProcessRegistrar {opCode : UInt8} {machine : Machine}
    (processed : ∀ message verdict who devPwd, Interface.processes .registrar message →
      kind (.processed message verdict who devPwd))
    (early : opCode = OpCode.nack.code ∨ machine.data.state ≠ .done) :
    related machine (eapWpsProcessRegistrar crypto device env opCode machine) := by
  by_cases nack : opCode = OpCode.nack.code
  · have refused : related machine ((if machine.data.state.rank < State.m7.rank then
        machine.countFailure else machine).setState .nack) := by
      split
      · exact stable.setState (stable.countFailure (stable.refl machine)) .nack
      · exact stable.data machine .nack _ _ _
    simp only [Wps.eapWpsProcessRegistrar, if_pos nack]
    exact stable.setState (stable.trans refused (stable.eapWpsProcessMessageSpecial env .nack _))
      .failure
  · have proxied : ∀ message process, Interface.processes .registrar message →
        related machine (Wps.eapWpsProcessProxied env message process machine).2 :=
      fun message process role =>
        stable.eapWpsProcessProxied env process machine fun _ _ _ => processed _ _ _ _ role
    simp only [Wps.eapWpsProcessRegistrar, if_neg nack]
    split
    case h_1 =>
      exact stable.acceptOrRefuse _ _
        (stable.runProcessor _ machine fun _ _ _ => processed .m1 _ _ _ rfl)
    case h_2 => exact stable.acceptOrRefuse _ _ (proxied .m3 _ rfl)
    case h_3 => exact stable.acceptOrRefuse _ _ (proxied .m5 _ rfl)
    case h_4 => exact stable.acceptOrRefuse _ _ (proxied .m7 _ rfl)
    case h_5 done => exact absurd done (early.resolve_left nack)
    case h_6 =>
      have special := stable.eapWpsProcessMessageSpecial env .ack machine
      split
      · next after result =>
          rw [result] at special
          exact stable.setState special .m2d1
      · next after result =>
          rw [result] at special
          exact stable.setState special .failure
    case h_7 => exact stable.setState (stable.eapWpsProcessMessageSpecial env .nack machine) .failure
    case h_8 => exact stable.refl machine

/-- Every response of the peer but the ACK that ends the session. -/
theorem eapWpsProcessEnrollee {opCode : UInt8} {machine : Machine}
    (processed : ∀ message verdict who devPwd, Interface.processes .enrollee message →
      kind (.processed message verdict who devPwd))
    (early : opCode = OpCode.nack.code ∨ machine.data.state ≠ .ack) :
    related machine (eapWpsProcessEnrollee crypto device env opCode machine) := by
  by_cases nack : opCode = OpCode.nack.code
  · have refused := stable.countFailure (stable.setState (stable.refl machine) .nack)
    simp only [Wps.eapWpsProcessEnrollee, if_pos nack]
    exact stable.setState (stable.trans refused (stable.eapWpsProcessMessageSpecial env .nack _))
      .failure
  · have own : ∀ message process, Interface.processes .enrollee message → ∀ before : Machine,
        related machine before → related machine (Wps.runProcessor message process before).2 :=
      fun message process role before earlier => stable.trans earlier
        (stable.runProcessor process before fun _ _ _ => processed _ _ _ _ role)
    simp only [Wps.eapWpsProcessEnrollee, if_neg nack]
    split
    case h_1 =>
      have first : related machine (eapWpsProcessMessageM2 crypto device machine).2 :=
        stable.trans (stable.data machine _ _ _ _) (stable.emit _ _ (processed .m2 _ _ _ rfl))
      split
      · next after result =>
          rw [result] at first
          exact stable.failureClear (stable.setState first .done)
      · next after result =>
          rw [result] at first
          exact stable.setState first .m3
      · next after result =>
          rw [result] at first
          have second : related machine (eapWpsProcessMessageM2D after).2 :=
            own .m2d _ rfl after first
          split
          · exact stable.setState second .nack
          · exact second
    case h_2 =>
      have first : related machine (eapWpsProcessMessageM4 crypto machine).2 :=
        own .m4 _ rfl machine (stable.refl machine)
      split
      · exact stable.setState first .m5
      · exact first
    case h_3 =>
      have first : related machine (eapWpsProcessMessageM6 crypto machine).2 :=
        own .m6 _ rfl machine (stable.refl machine)
      split
      · exact stable.setState first .m7
      · exact first
    case h_4 =>
      have first : related machine (eapWpsProcessMessageM8 crypto machine).2 :=
        own .m8 _ rfl machine (stable.refl machine)
      split
      · split
        · exact stable.failureClear (stable.setState first .done)
        · exact stable.setState first .nack
      · exact first
    case h_5 ack => exact absurd ack (early.resolve_left nack)
    case h_6 => exact stable.setState (stable.eapWpsProcessMessageSpecial env .nack machine) .failure
    case h_7 => exact stable.refl machine

end Stable

/-! ## Messages that leave the keys alone -/

variable (random : Random) (rcvMsg : Bytes) (target : TargetInfo) (config : Bytes)
    (exchange : Exchange)

theorem keepMessage_snd (message : Option Bytes) :
    ∃ sndMsg, (keepMessage exchange message).2 = { exchange with sndMsg := sndMsg } :=
  ⟨_, rfl⟩

theorem special_snd (message : Message) (eNonce rNonce : Vector UInt8 16) (target : TargetInfo)
    (exchange : Exchange) :
    ∃ sndMsg, (eapWpsConfigBuildMessageSpecial device message eNonce rNonce target exchange).2 =
      { exchange with sndMsg := sndMsg } := by
  simp only [eapWpsConfigBuildMessageSpecial]
  split
  · exact ⟨exchange.sndMsg, rfl⟩
  · exact keepMessage_snd exchange _

theorem eapWpsConfigBuildMessageM5_snd :
    ∃ sndMsg, (eapWpsConfigBuildMessageM5 crypto device random rcvMsg target exchange).2 =
      { exchange with sndMsg := sndMsg } := by
  simp only [eapWpsConfigBuildMessageM5]
  split
  · exact ⟨exchange.sndMsg, rfl⟩
  · exact keepMessage_snd exchange _

theorem eapWpsConfigBuildMessageM7_snd :
    ∃ sndMsg, (eapWpsConfigBuildMessageM7 crypto device random rcvMsg target config exchange).2 =
      { exchange with sndMsg := sndMsg } := by
  simp only [eapWpsConfigBuildMessageM7]
  split
  · exact ⟨exchange.sndMsg, rfl⟩
  · exact keepMessage_snd exchange _

/-- `after` is `before` with a message sent and events of the kind added. -/
structure Sent (kind : Event → Prop) (before after : Machine) : Prop where
  conf : after.conf = before.conf
  data : ∃ sndMsg, after.data =
    { before.data with exchange := { before.data.exchange with sndMsg := sndMsg } }
  log : Grows kind before.log after.log

theorem runBuilder_sent (kind : Event → Prop) (message : Message)
    (build : Exchange → Option Bytes × Exchange) (machine : Machine)
    (building : kind (.building message)) (built : kind (.built message))
    (keeps : ∀ exchange, ∃ sndMsg, (build exchange).2 = { exchange with sndMsg := sndMsg }) :
    Sent kind machine (runBuilder message build machine).2 := by
  refine ⟨runBuilder_conf message build machine, ?_,
    (growing kind).runBuilder build machine building built⟩
  obtain ⟨sndMsg, same⟩ := keeps machine.data.exchange
  exact ⟨sndMsg, by rw [runBuilder_data, same]⟩

theorem eapWpsBuildProxied_sent (kind : Event → Prop) (call : Nat) (message : Message)
    (build : Exchange → Option Bytes × Exchange) (machine : Machine)
    (building : kind (.building message)) (built : kind (.built message))
    (keeps : ∀ exchange, ∃ sndMsg, (build exchange).2 = { exchange with sndMsg := sndMsg }) :
    Sent kind machine (eapWpsBuildProxied env call message build machine).2 := by
  simp only [eapWpsBuildProxied]
  split
  · obtain ⟨sndMsg, same⟩ := wpsOptUpnpReceivedMessage_snd env call machine
    rw [same]
    exact ⟨rfl, ⟨sndMsg, rfl⟩, Grows.refl kind machine.log⟩
  · exact runBuilder_sent kind message build machine building built keeps

theorem eapWpsBuildMessageSpecial_sent (kind : Event → Prop) (call : Nat) (message : Message)
    (machine : Machine) (building : kind (.building message)) (built : kind (.built message)) :
    Sent kind machine (eapWpsBuildMessageSpecial device env call message machine).2 :=
  eapWpsBuildProxied_sent env kind call message _ machine building built
    fun exchange => special_snd device message _ _ machine.target exchange

theorem refuse_cases (kind : Event → Prop) (call : Nat) (machine : Machine)
    (building : kind (.building .nack)) (built : kind (.built .nack)) :
    ∃ sent, Sent kind machine sent ∧ (refuse device env call machine).2 =
        if (eapWpsBuildMessageSpecial device env call .nack machine).1.isSome then
          (sent.setState .nack).countFailure
        else
          sent :=
  ⟨_, eapWpsBuildMessageSpecial_sent device env kind call .nack machine building built,
    sendMessage_snd env .nack _ _⟩

/-! ## What requests leave alone -/

/-- What an M2D, our own or a proxied message in its place, leaves alone. -/
structure Advertised (before after : Machine) : Prop where
  job : after.conf.job = before.conf.job
  failures : before.conf.failures ≤ after.conf.failures
  password : after.data.password = before.data.password
  configWho : after.data.configWho = before.data.configWho
  target : before.data.target.isSome → after.data.target.isSome
  state : after.data.state = before.data.state ∨ after.data.state ∈ [.m3, .ack, .nack]

variable {first second third : Machine}

theorem Advertised.trans (early : Advertised first second) (late : Advertised second third) :
    Advertised first third := by
  refine ⟨late.job.trans early.job, Nat.le_trans early.failures late.failures,
    late.password.trans early.password, late.configWho.trans early.configWho,
    fun present => late.target (early.target present), ?_⟩
  rcases late.state with same | moved
  · rw [same]
    exact early.state
  · exact Or.inr moved

theorem adoptNonces_advertised (machine : Machine) : Advertised machine (adoptNonces machine) := by
  simp only [adoptNonces]
  split
  · exact ⟨rfl, Nat.le_refl _, rfl, rfl, id, Or.inl rfl⟩
  · split <;> exact ⟨rfl, Nat.le_refl _, rfl, rfl, fun _ => rfl, Or.inl rfl⟩

theorem adoptState_advertised {msg : Bytes}
    (adopted : adoptState msg machine = some after) : Advertised machine after := by
  simp only [adoptState] at adopted
  split at adopted
  · cases adopted
    exact ⟨rfl, Nat.le_refl _, rfl, rfl, id, Or.inr (by simp)⟩
  · split at adopted
    · cases adopted
      exact ⟨rfl, Nat.le_refl _, rfl, rfl, id, Or.inr (by simp)⟩
    · split at adopted <;> cases adopted
      exact ⟨rfl, Nat.le_succ _, rfl, rfl, id, Or.inr (by simp)⟩

theorem eapWpsBuildMessageM2D_advertised (machine : Machine) :
    Advertised machine (eapWpsBuildMessageM2D device env machine).2 := by
  have own : ∀ after : Machine, Advertised machine after → Advertised machine
      (if after.data.state = .m2d1 then
        runBuilder .m2d (eapWpsConfigBuildMessageM2D device env.random after.target) after
      else (none, after)).2 := by
    intro after same
    split
    · refine same.trans ⟨?_, Nat.le_of_eq ?_, ?_, ?_, ?_, Or.inl ?_⟩ <;> simp
    · exact same
  simp only [eapWpsBuildMessageM2D]
  split
  · exact own machine ⟨rfl, Nat.le_refl _, rfl, rfl, id, Or.inl rfl⟩
  · obtain ⟨sndMsg, same⟩ := wpsOptUpnpReceivedMessage_snd env 0 machine
    have first : Advertised machine (wpsOptUpnpReceivedMessage env 0 machine).2 := by
      rw [same]
      exact ⟨rfl, Nat.le_refl _, rfl, rfl, id, Or.inl rfl⟩
    split
    · next after received =>
        rw [received] at first
        exact own after first
    · next msg after received =>
        rw [received] at first
        have second := first.trans (adoptNonces_advertised after)
        split
        · next adopted found => exact second.trans (adoptState_advertised found)
        · exact own _ second

/-- The default branches: at most the state goes to NACK and a failure is counted. -/
structure Refused (kind : Event → Prop) (before after : Machine) : Prop where
  job : after.conf.job = before.conf.job
  failures : before.conf.failures ≤ after.conf.failures
  data : ∃ sndMsg state, after.data =
      { before.data with
        exchange := { before.data.exchange with sndMsg := sndMsg }, state := state } ∧
    (state = before.data.state ∨ state = .nack)
  log : Grows kind before.log after.log

theorem Refused.trans (early : Refused kind first second) (late : Refused kind second third) :
    Refused kind first third := by
  refine ⟨late.job.trans early.job, Nat.le_trans early.failures late.failures, ?_,
    early.log.trans late.log⟩
  obtain ⟨sndMsg, state, same, kept⟩ := early.data
  obtain ⟨sndMsg', state', same', kept'⟩ := late.data
  refine ⟨sndMsg', state', by rw [same', same], ?_⟩
  rw [same] at kept'
  rcases kept' with rfl | rfl
  · exact kept
  · exact Or.inr rfl

theorem Sent.refused {kind : Event → Prop} {before after : Machine}
    (sent : Sent kind before after) : Refused kind before after := by
  obtain ⟨sndMsg, same⟩ := sent.data
  exact ⟨by rw [sent.conf], Nat.le_of_eq (by rw [sent.conf]), ⟨sndMsg, _, same, Or.inl rfl⟩,
    sent.log⟩

theorem Sent.refusedNack {before after : Machine}
    (sent : Sent kind before after) : Refused kind before (after.setState .nack) := by
  obtain ⟨sndMsg, same⟩ := sent.data
  refine ⟨by rw [Machine.setState_conf, sent.conf],
    Nat.le_of_eq (by rw [Machine.setState_conf, sent.conf]),
    ⟨sndMsg, .nack, ?_, Or.inr rfl⟩, sent.log⟩
  rw [Machine.setState_data, same]

theorem refuse_refused (kind : Event → Prop) (call : Nat) (machine : Machine)
    (building : kind (.building .nack)) (built : kind (.built .nack)) :
    Refused kind machine (refuse device env call machine).2 := by
  obtain ⟨sent, changed, same⟩ := refuse_cases device env kind call machine building built
  rw [same]
  split
  · have refused := changed.refusedNack
    exact ⟨refused.job, Nat.le_succ_of_le refused.failures, refused.data, refused.log⟩
  · exact changed.refused

theorem refuseTwice_refused (kind : Event → Prop) (machine : Machine)
    (building : kind (.building .nack)) (built : kind (.built .nack)) :
    Refused kind machine (refuseTwice device env machine).2 := by
  have sent := eapWpsBuildMessageSpecial_sent device env kind 0 .nack machine building built
  have first : Refused kind machine (sendMessage env .nack (·.setState .nack)
      (eapWpsBuildMessageSpecial device env 0 .nack machine)).2 := by
    rw [sendMessage_snd]
    split
    · exact sent.refusedNack
    · exact sent.refused
  simp only [refuseTwice]
  split
  · next after answer =>
      rw [answer] at first
      exact first
  · next req after answer =>
      rw [answer] at first
      have second := refuse_refused device env kind 1 after building built
      split
      · next final refused =>
          rw [refused] at second
          exact first.trans second
      · next final refused =>
          rw [refused] at second
          exact first.trans second

theorem finishRegistrar_data (machine : Machine) :
    (finishRegistrar device machine).data = { machine.data with state := .failure } := by
  cases save : machine.data.autoconfig <;> simp [finishRegistrar, save]

theorem finishRegistrar_log (machine : Machine) :
    (finishRegistrar device machine).log = machine.log ++
      if machine.data.autoconfig then
        [.setSsidConfiguration .registrar machine.data.config machine.data.exchange.keys.authKey]
      else [] := by
  cases save : machine.data.autoconfig <;> simp [finishRegistrar, save]

theorem finishRegistrar_grows (machine : Machine) :
    Grows (Event.fits .registrar) machine.log (finishRegistrar device machine).log := by
  refine ⟨_, finishRegistrar_log device machine, ?_⟩
  intro event member
  split at member
  · rw [mem_singleton.mp member]
    rfl
  · cases member

theorem eapWpsProcessRegistrar_done {opCode : UInt8} {machine : Machine}
    (nack : opCode ≠ OpCode.nack.code) (last : machine.data.state = .done) :
    eapWpsProcessRegistrar crypto device env opCode machine =
      finishRegistrar device (eapWpsProcessMessageSpecial env .done machine).2 := by
  simp only [eapWpsProcessRegistrar, if_neg nack, last]

theorem eapWpsBuildReqRegistrar_grows (machine : Machine) :
    Grows (Event.fits .registrar) machine.log
      (eapWpsBuildReqRegistrar crypto device env machine).2.log :=
  (growing _).eapWpsBuildReqRegistrar crypto device env machine
    (fun machine => Grows.refl _ machine.log) (fun machine => Grows.refl _ machine.log)
    (fun _ => id) fun _ => id

theorem eapWpsProcessRegistrar_grows (opCode : UInt8) (machine : Machine) :
    Grows (Event.fits .registrar) machine.log
      (eapWpsProcessRegistrar crypto device env opCode machine).log := by
  by_cases early : opCode = OpCode.nack.code ∨ machine.data.state ≠ .done
  · exact (growing _).eapWpsProcessRegistrar crypto device env (fun _ _ _ _ => id) early
  · obtain ⟨nack, last⟩ := not_or.mp early
    have special := (growing (Event.fits .registrar)).eapWpsProcessMessageSpecial env .done machine
    rw [eapWpsProcessRegistrar_done crypto device env nack (not_not.mp last)]
    exact special.trans (finishRegistrar_grows device _)

/-! ## The end of an enrollee -/

theorem eapWpsBuildReqEnrollee_grows (machine : Machine) :
    Grows (Event.fits .enrollee) machine.log
      (eapWpsBuildReqEnrollee crypto device env machine).2.log :=
  (growing _).eapWpsBuildReqEnrollee crypto device env machine (fun _ => id) fun _ => id

@[simp] theorem eapWpsBuildMessageM3_conf (machine : Machine) :
    (eapWpsBuildMessageM3 crypto device env machine).2.conf = machine.conf := by
  simp only [eapWpsBuildMessageM3]
  split <;> rfl

theorem finishEnrollee_data (machine : Machine) :
    (finishEnrollee device machine).data = { machine.data with state := .failure } := by
  cases settings : machine.target.config with
  | none => cases busy : machine.conf.wpsJobBusy <;> simp [finishEnrollee, settings, busy]
  | some config =>
    cases save : machine.conf.maySave <;> cases busy : machine.conf.wpsJobBusy <;>
      simp [finishEnrollee, settings, save, busy]

def applied (machine : Machine) : List Event :=
  match machine.target.config with
  | none => []
  | some config =>
    if machine.conf.maySave then
      [.setSsidConfiguration .enrollee config machine.data.exchange.keys.authKey]
    else
      []

theorem finishEnrollee_log (machine : Machine) :
    (finishEnrollee device machine).log = machine.log ++ applied machine := by
  cases settings : machine.target.config with
  | none => cases busy : machine.conf.wpsJobBusy <;> simp [finishEnrollee, applied, settings, busy]
  | some config =>
    cases save : machine.conf.maySave <;> cases busy : machine.conf.wpsJobBusy <;>
      simp [finishEnrollee, applied, settings, save, busy]

theorem finishEnrollee_grows (machine : Machine) :
    Grows (Event.fits .enrollee) machine.log (finishEnrollee device machine).log := by
  refine ⟨applied machine, finishEnrollee_log device machine, ?_⟩
  intro event member
  simp only [applied] at member
  split at member
  · cases member
  · split at member
    · rw [mem_singleton.mp member]
      rfl
    · cases member

theorem eapWpsProcessEnrollee_ack {opCode : UInt8} {machine : Machine}
    (nack : opCode ≠ OpCode.nack.code) (last : machine.data.state = .ack) :
    eapWpsProcessEnrollee crypto device env opCode machine =
      match eapWpsProcessMessageSpecial env .ack machine with
      | (true, machine) => finishEnrollee device machine
      | (false, machine) => machine := by
  cases special : eapWpsProcessMessageSpecial env .ack machine with
  | mk known after => cases known <;> simp [eapWpsProcessEnrollee, nack, last, special]

theorem eapWpsProcessEnrollee_grows (opCode : UInt8) (machine : Machine) :
    Grows (Event.fits .enrollee) machine.log
      (eapWpsProcessEnrollee crypto device env opCode machine).log := by
  by_cases early : opCode = OpCode.nack.code ∨ machine.data.state ≠ .ack
  · exact (growing _).eapWpsProcessEnrollee crypto device env (fun _ _ _ _ => id) early
  · obtain ⟨nack, last⟩ := not_or.mp early
    have special := (growing (Event.fits .enrollee)).eapWpsProcessMessageSpecial env .ack machine
    rw [eapWpsProcessEnrollee_ack crypto device env nack (not_not.mp last)]
    split
    · next after result =>
        rw [result] at special
        exact special.trans (finishEnrollee_grows device after)
    · next after result =>
        rw [result] at special
        exact special

/-! ## The start of a session -/

/-- What `eap_wps_config_init_data` leaves alone, and the few ways it can end. -/
structure Initialised (before : Machine) (ok : Bool) (after : Machine) : Prop where
  interface : after.data.interface = before.data.interface
  exchange : after.data.exchange = before.data.exchange
  rcvMsg : after.data.rcvMsg = before.data.rcvMsg
  fragment : after.data.fragment = before.data.fragment
  log : after.log = before.log ++ [.initData ok]
  early : after.data.target = none → ok = false ∧ after.data = before.data
  target : after.data.target.isSome → after.data.target = some TargetInfo.zero
  state : after.data.state = before.data.state ∨ after.data.state = .start

theorem takeJobParameters_snd (conf : Conf) (data : EapWpsData) :
    ∃ password configWho isPushButton, (takeJobParameters device env conf data).2 =
      { data with
        password := password, configWho := configWho, isPushButton := isPushButton } := by
  simp only [takeJobParameters]
  split
  · split
    · exact ⟨data.password, data.configWho, data.isPushButton, rfl⟩
    · exact ⟨_, _, _, rfl⟩
  · split
    · exact ⟨_, data.configWho, _, rfl⟩
    · exact ⟨data.password, data.configWho, data.isPushButton, rfl⟩

theorem loadConfig_snd (data : EapWpsData) :
    ∃ autoconfig config, (loadConfig device env data).2 =
      { data with autoconfig := autoconfig, config := config } := by
  simp only [loadConfig]
  split <;> exact ⟨_, _, rfl⟩

theorem prepareData_snd (conf : Conf) (data : EapWpsData) :
    ∃ password configWho isPushButton autoconfig config state,
      (prepareData device env conf data).2 =
        { data with
          password := password, configWho := configWho, isPushButton := isPushButton
          autoconfig := autoconfig, config := config, state := state } ∧
      (state = data.state ∨ state = .start) := by
  obtain ⟨password, configWho, isPushButton, taken⟩ := takeJobParameters_snd device env conf data
  simp only [prepareData]
  split
  · next job result =>
      rw [result] at taken
      subst taken
      exact ⟨password, configWho, isPushButton, _, _, _, rfl, Or.inl rfl⟩
  · next job result =>
      rw [result] at taken
      subst taken
      obtain ⟨autoconfig, config, loaded⟩ := loadConfig_snd device env
        { data with password := password, configWho := configWho, isPushButton := isPushButton }
      split
      · next final result =>
          rw [result] at loaded
          subst loaded
          exact ⟨password, configWho, isPushButton, autoconfig, config, _, rfl, Or.inl rfl⟩
      · next final result =>
          rw [result] at loaded
          subst loaded
          exact ⟨password, configWho, isPushButton, autoconfig, config, _, rfl, Or.inr rfl⟩

theorem eapWpsConfigInitData_initialised (machine : Machine) (absent : machine.data.target = none) :
    Initialised machine (eapWpsConfigInitData device env machine).1
      (eapWpsConfigInitData device env machine).2 := by
  simp only [eapWpsConfigInitData, initData]
  split
  · exact ⟨rfl, rfl, rfl, rfl, rfl, fun _ => ⟨rfl, rfl⟩, by simp [absent], Or.inl rfl⟩
  · split
    · exact ⟨rfl, rfl, rfl, rfl, rfl, fun _ => ⟨rfl, rfl⟩, by simp [absent], Or.inl rfl⟩
    · obtain ⟨password, configWho, isPushButton, autoconfig, config, state, same, kept⟩ :=
        prepareData_snd device env (forgetFailures machine.data.interface machine.conf)
          { machine.data with target := some TargetInfo.zero }
      constructor
      case log => rfl
      case state => simpa [same] using kept
      all_goals simp [same]

/-! ## Entry points -/

theorem interfaceOf_ne_none (identity : Bytes) : interfaceOf identity ≠ some .none := by
  simp only [interfaceOf]
  split
  · simp
  · split <;> simp

/-- How a call comes to its role: it has its data already, or they are made now. -/
inductive Enters (identity : Bytes) (machine : Machine) : Bool → Machine → Prop
  | unknown (role : interfaceOf identity = none) : Enters identity machine false machine
  | again (interface : Interface) (role : interfaceOf identity = some interface)
      (present : machine.data.target.isSome) :
      Enters identity machine true
        { machine with data := { machine.data with interface := interface } }
  | first (interface : Interface) (role : interfaceOf identity = some interface)
      (absent : machine.data.target = none) :
      Enters identity machine (eapWpsConfigInitData device env
          { machine with data := { machine.data with interface := interface } }).1
        (eapWpsConfigInitData device env
          { machine with data := { machine.data with interface := interface } }).2

theorem enterSession_enters (identity : Bytes) (machine : Machine) :
    Enters device env identity machine (enterSession device env identity machine).1
      (enterSession device env identity machine).2 := by
  simp only [enterSession]
  split
  · next role => exact .unknown role
  · next interface role =>
      split
      · next absent => exact .first interface role (by simpa using absent)
      · next present =>
          exact .again interface role (Option.isSome_iff_ne_none.mpr (by simpa using present))

variable {ok : Bool}

theorem Enters.present (entered : Enters device env identity machine ok after) (good : ok = true) :
    after.data.target.isSome := by
  cases entered with
  | unknown role => cases good
  | again interface role present => exact present
  | first interface role absent =>
    have made := eapWpsConfigInitData_initialised device env
      { machine with data := { machine.data with interface := interface } } absent
    refine Option.isSome_iff_ne_none.mpr fun none => ?_
    rw [(made.early none).1] at good
    cases good

theorem Enters.role (entered : Enters device env identity machine ok after) (good : ok = true) :
    interfaceOf identity = some after.data.interface := by
  cases entered with
  | unknown role => cases good
  | again interface role present => exact role
  | first interface role absent =>
    have made := eapWpsConfigInitData_initialised device env
      { machine with data := { machine.data with interface := interface } } absent
    rw [made.interface]
    exact role

theorem Enters.fragment (entered : Enters device env identity machine ok after) :
    after.data.fragment = machine.data.fragment := by
  cases entered with
  | unknown role => rfl
  | again interface role present => rfl
  | first interface role absent =>
    exact (eapWpsConfigInitData_initialised device env
      { machine with data := { machine.data with interface := interface } } absent).fragment

inductive Requests (identity : Bytes) (machine : Machine) : Machine → Prop
  | fragment (more : machine.data.fragment) : Requests identity machine machine
  | refused (ok : Bool) (after : Machine) (entered : Enters device env identity machine ok after)
      (stuck : ok = false ∨ after.data.interface = .none) : Requests identity machine after
  | registrar (after : Machine) (entered : Enters device env identity machine true after)
      (role : after.data.interface = .registrar) :
      Requests identity machine (eapWpsBuildReqRegistrar crypto device env after).2
  | enrollee (after : Machine) (entered : Enters device env identity machine true after)
      (role : after.data.interface = .enrollee) :
      Requests identity machine (eapWpsBuildReqEnrollee crypto device env after).2

theorem eapWpsBuildReq_requests (identity : Bytes) (machine : Machine) :
    Requests crypto device env identity machine
      (eapWpsBuildReq crypto device env identity machine).2 := by
  have entered := enterSession_enters device env identity machine
  simp only [eapWpsBuildReq]
  split
  · next more => exact .fragment more
  · split
    · next after result =>
        rw [result] at entered
        exact .refused false after entered (Or.inl rfl)
    · next after result =>
        rw [result] at entered
        split
        · next role => exact .registrar after entered role
        · next role => exact .enrollee after entered role
        · next role => exact .refused true after entered (Or.inr role)

def Machine.received (machine : Machine) (frame : Frame) (msgLen : Nat) : Machine :=
  { machine with data := receive frame msgLen machine.data }

inductive Processes (identity : Bytes) (frame : Frame) (machine : Machine) : Machine → Prop
  | mismatch : Processes identity frame machine (machine.setState .nack).countFailure
  | fragment (msgLen : Nat) (length : frame.msgLen device = some msgLen) :
      Processes identity frame machine (machine.received frame msgLen)
  | refused (msgLen : Nat) (ok : Bool) (after : Machine)
      (length : frame.msgLen device = some msgLen)
      (entered : Enters device env identity (machine.received frame msgLen) ok after) :
      Processes identity frame machine (after.setState .nack).countFailure
  | registrar (msgLen : Nat) (after : Machine) (length : frame.msgLen device = some msgLen)
      (entered : Enters device env identity (machine.received frame msgLen) true after)
      (role : after.data.interface = .registrar) :
      Processes identity frame machine (eapWpsProcessRegistrar crypto device env frame.opCode after)
  | enrollee (msgLen : Nat) (after : Machine) (length : frame.msgLen device = some msgLen)
      (last : frame.moreFragments = false)
      (entered : Enters device env identity (machine.received frame msgLen) true after)
      (role : after.data.interface = .enrollee) :
      Processes identity frame machine (eapWpsProcessEnrollee crypto device env frame.opCode after)

theorem eapWpsProcess_processes (identity : Bytes) (frame : Frame) (machine : Machine) :
    Processes crypto device env identity frame machine
      (eapWpsProcess crypto device env identity frame machine).2 := by
  simp only [eapWpsProcess]
  split
  · exact .mismatch
  · next msgLen length =>
      have entered := enterSession_enters device env identity (machine.received frame msgLen)
      simp only [Machine.received] at entered
      split
      · exact .fragment msgLen length
      · next more =>
          split
          · next after result =>
              rw [result] at entered
              exact .refused msgLen false after length entered
          · next after result =>
              rw [result] at entered
              split
              · next role => exact .registrar msgLen after length entered role
              · next role => exact .enrollee msgLen after length (by simpa using more) entered role
              · exact .refused msgLen true after length entered

end

end AthApps.Wps
