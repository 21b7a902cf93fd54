import AthApps.Wps.Job

/-!
# One EAP-WPS session

The state machine of `hostapd/eap_wps.c`: `eap_wps_config_init_data`, the
functions that build a request and process a response in either role, and the
entry points `eap_wps_build_req`, `eap_wps_check` and `eap_wps_process`.

A `Machine` is one session together with the configuration it shares with the
others.  Its `log` is not in the source; it records the calls that statements
about the protocol speak of, in the order they are made.
-/

set_option autoImplicit false

namespace AthApps.Wps

open Lib (Bytes)

/-- `enum STATE` -/
inductive State
  | start
  | m1
  | m2
  | m2d1
  | m2d2
  | m3
  | m4
  | m5
  | m6
  | m7
  | m8
  | done
  | ack
  | nack
  | failure
  deriving DecidableEq

def State.rank : State → Nat
  | .start => 0
  | .m1 => 1
  | .m2 => 2
  | .m2d1 => 3
  | .m2d2 => 4
  | .m3 => 5
  | .m4 => 6
  | .m5 => 7
  | .m6 => 8
  | .m7 => 9
  | .m8 => 10
  | .done => 11
  | .ack => 12
  | .nack => 13
  | .failure => 14

/-- The role we play. -/
inductive Interface
  | none
  | registrar
  | enrollee
  deriving DecidableEq

structure EapWpsData where
  state : State
  interface : Interface
  rcvMsg : Bytes
  fragment : Bool
  password : Password
  exchange : Exchange
  configWho : ConfigWho
  isPushButton : Bool
  autoconfig : Bool
  config : Bytes
  target : Option TargetInfo

def EapWpsData.zero : EapWpsData where
  state := .start
  interface := .none
  rcvMsg := []
  fragment := false
  password := ⟨[], 0⟩
  exchange := Exchange.zero
  configWho := .unknown
  isPushButton := false
  autoconfig := false
  config := []
  target := none

inductive Event
  -- `eap_wps_config_init_data` returned, with success or not
  | initData (ok : Bool)
  -- `eap_wps_config_build_message_*` was called
  | building (message : Message)
  -- and returned a message
  | built (message : Message)
  -- `eap_wps_config_process_message_*` returned; who gave the session its
  -- device password, and the password
  | processed (message : Message) (verdict : Verdict) (who : ConfigWho) (devPwd : Bytes)
  -- `eap_wps_set_ssid_configuration` was called
  | setSsidConfiguration (interface : Interface) (config : Bytes)
      (authKey : Vector UInt8 32)
  deriving DecidableEq

structure Machine where
  conf : Conf
  data : EapWpsData
  log : List Event

/-- What a call meets outside of the session. -/
structure Env where
  identifier : UInt8
  random : Random
  -- the push button checks refuse the station
  pbcRefused : Bool
  -- `wps_get_ap_ssid_configuration`: is_M7, network index, quality, autoconfig
  apSsidConfiguration : Bool → Nat → Nat → Bool → Option Bytes
  -- `wps_opt_upnp_send_wlan_eap_event` succeeds
  upnpSent : Bool
  -- what `wps_opt_upnp_received_message` returns, call by call
  upnpReplies : List Bytes
  -- a message from the external registrar is queued already
  upnpQueued : Bool

namespace Machine

def target (machine : Machine) : TargetInfo := machine.data.target.getD TargetInfo.zero

def emit (machine : Machine) (event : Event) : Machine :=
  { machine with log := machine.log ++ [event] }

def setState (machine : Machine) (state : State) : Machine :=
  { machine with data := { machine.data with state := state } }

def setTarget (machine : Machine) (target : TargetInfo) : Machine :=
  { machine with data := { machine.data with target := some target } }

def setExchange (machine : Machine) (exchange : Exchange) : Machine :=
  { machine with data := { machine.data with exchange := exchange } }

def countFailure (machine : Machine) : Machine :=
  { machine with conf := machine.conf.countFailure }

def failureClear (machine : Machine) : Machine :=
  { machine with conf := machine.conf.failureClear }

end Machine

def eapWpsFailureLimit : Nat := 20

section

variable (crypto : Crypto) (device : Device) (env : Env)

/-- The credentials for a station: best first if it can use AES, worst first
otherwise, the second one only where it differs. -/
def eapWpsConfigGetSsidConfiguration (autoconfig : Bool) (encrTypeFlags : UInt16)
    (wrapCredential : Bool) : Option Bytes :=
  if wrapCredential then do
    let (first, second) := if encrTypeFlags &&& 0x0008 ≠ 0 then (0, 1) else (1, 0)
    let credential1 ← env.apSsidConfiguration false (first + 1) first autoconfig
    let credential2 ← env.apSsidConfiguration false (second + 1) second autoconfig
    let wps ← wpsSetValues device.bigEndian [] <|
      (WpsType.credential, .bytes credential1) ::
        if credential1 = credential2 then [] else [(WpsType.credential, .bytes credential2)]
    some (wpsWriteWpsData wps)
  else
    env.apSsidConfiguration true 0 0 autoconfig

def takeJobParameters (conf : Conf) (data : EapWpsData) : Bool × EapWpsData :=
  if conf.wpsJobBusy then
    if conf.devPwd = [] then
      (false, data)
    else
      (¬(conf.isPushButton ∧ env.pbcRefused),
        { data with
          password := ⟨conf.devPwd, conf.devPwdId⟩
          configWho := conf.configWho
          isPushButton := conf.isPushButton })
  else if device.defaultPin ≠ [] ∧ device.defaultPin.length < 64 ∧
      data.interface ≠ .registrar then
    (true, { data with password := ⟨device.defaultPin, 0⟩, isPushButton := false })
  else
    (true, data)

/-- The current configuration of the access point into `data->config`. -/
def loadConfig (data : EapWpsData) : Bool × EapWpsData :=
  let autoconfig := data.autoconfig || device.wpsState != 0x02
  let target := data.target.getD TargetInfo.zero
  match eapWpsConfigGetSsidConfiguration device env autoconfig target.encrTypeFlags
    (data.interface = .registrar) with
  | none => (false, { data with autoconfig := autoconfig, config := [] })
  | some config => (true, { data with autoconfig := autoconfig, config := config })

/-- The failures counted so far are forgotten where we are not the enrollee. -/
def forgetFailures (interface : Interface) (conf : Conf) : Conf :=
  if interface ≠ .enrollee ∧ conf.nfailure.toInt < eapWpsFailureLimit then
    { conf with failures := 0 }
  else
    conf

/-- The part behind the allocation of the target, which an error leaves in place. -/
def prepareData (conf : Conf) (data : EapWpsData) : Bool × EapWpsData :=
  match takeJobParameters device env conf data with
  | (false, data) => (false, data)
  | (true, data) =>
    match loadConfig device env data with
    | (false, data) => (false, data)
    | (true, data) => (true, { data with state := .start })

def initData (machine : Machine) : Bool × Machine :=
  if device.wpsDisable then
    (false, machine)
  else if eapWpsFailureLimit < machine.conf.nfailure.toInt ∧ machine.data.interface = .enrollee ∧
      machine.conf.configWho = .unknown then
    (false, { machine with conf := { machine.conf with apSetupLocked := true } })
  else
    let conf := forgetFailures machine.data.interface machine.conf
    let result := prepareData device env conf
      { machine.data with target := some TargetInfo.zero }
    (result.1, { machine with conf := conf, data := result.2 })

def eapWpsConfigInitData (machine : Machine) : Bool × Machine :=
  let result := initData device env machine
  (result.1, result.2.emit (.initData result.1))

def runBuilder (message : Message) (build : Exchange → Option Bytes × Exchange)
    (machine : Machine) : Option Bytes × Machine :=
  let result := build machine.data.exchange
  let machine := (machine.emit (.building message)).setExchange result.2
  (result.1, if result.1.isSome then machine.emit (.built message) else machine)

/-- `wps_opt_upnp_received_message`: its message becomes the one we sent last. -/
def wpsOptUpnpReceivedMessage (call : Nat) (machine : Machine) :
    Option Bytes × Machine :=
  match env.upnpReplies[call]? with
  | none => (none, machine)
  | some msg => (some msg, machine.setExchange { machine.data.exchange with sndMsg := msg })

def eapWpsBuildMessageM1 (machine : Machine) : Option Bytes × Machine :=
  runBuilder .m1 (eapWpsConfigBuildMessageM1 crypto device env.random machine.data.password) machine

def eapWpsBuildMessageM2 (machine : Machine) : Option Bytes × Machine :=
  let machine := { machine with conf := { machine.conf with upnpEnabled := false } }
  runBuilder .m2 (eapWpsConfigBuildMessageM2 crypto device env.random machine.data.password
    machine.data.rcvMsg machine.target) machine

/-- The nonces that a proxied M2 or M2D brings along: the enrollee's from the
M1 received last, the registrar's from the message to be sent. -/
def adoptNonces (machine : Machine) : Machine :=
  let nonceE := (wpsParseWpsData machine.data.rcvMsg).bind fun wps =>
    if wpsGetU8 wps WpsType.msgType = some Message.m1.code then
      wpsGetBytes wps WpsType.enrolleeNonce 16
    else
      none
  match nonceE with
  | none => machine
  | some nonceE =>
    let machine := machine.setTarget { machine.target with nonce := bufferOf 16 nonceE }
    let nonceR := (wpsParseWpsData machine.data.exchange.sndMsg).bind fun wps =>
      if wpsGetU8 wps WpsType.msgType = some Message.m2.code ∨
          wpsGetU8 wps WpsType.msgType = some Message.m2d.code then
        wpsGetBytes wps WpsType.registrarNonce 16
      else
        none
    match nonceR with
    | none => machine
    | some nonceR => machine.setExchange { machine.data.exchange with nonce := bufferOf 16 nonceR }

/-- The state after a message of an external registrar; `none` drops it. -/
def adoptState (msg : Bytes) (machine : Machine) : Option Machine :=
  let msgType := wpsGetMessageType msg
  if msgType = Message.m2.code then
    some (machine.setState .m3)
  else if msgType = Message.m2d.code then
    some (machine.setState .ack)
  else if msgType = Message.nack.code then
    some (machine.setState .nack).countFailure
  else
    none

def eapWpsBuildMessageM2D (machine : Machine) : Option Bytes × Machine :=
  let own (machine : Machine) :=
    if machine.data.state = .m2d1 then
      runBuilder .m2d (eapWpsConfigBuildMessageM2D device env.random machine.target) machine
    else
      (none, machine)
  if device.wpsUpnpDisable then
    own machine
  else
    match wpsOptUpnpReceivedMessage env 0 machine with
    | (none, machine) => own machine
    | (some msg, machine) =>
      let machine := adoptNonces machine
      match adoptState msg machine with
      | some machine => (some msg, machine)
      | none => own machine

def eapWpsBuildMessageM3 (machine : Machine) : Option Bytes × Machine :=
  let result := eapWpsConfigBuildMessageM3 crypto device env.random machine.data.rcvMsg
    machine.target machine.data.password machine.data.exchange
  let machine := (machine.emit (.building .m3)).setExchange result.2.1
  let machine := { machine with data := { machine.data with password := result.2.2 } }
  (result.1, if result.1.isSome then machine.emit (.built .m3) else machine)

/-- Messages that are only passed on while an external registrar is selected. -/
def eapWpsBuildProxied (call : Nat) (message : Message)
    (build : Exchange → Option Bytes × Exchange) (machine : Machine) :
    Option Bytes × Machine :=
  if machine.conf.upnpEnabled then
    wpsOptUpnpReceivedMessage env call machine
  else
    runBuilder message build machine

def eapWpsBuildMessageM4 (machine : Machine) : Option Bytes × Machine :=
  eapWpsBuildProxied env 0 .m4 (eapWpsConfigBuildMessageM4 crypto device env.random
    machine.data.rcvMsg machine.target machine.data.password) machine

def eapWpsBuildMessageM5 (machine : Machine) : Option Bytes × Machine :=
  runBuilder .m5 (eapWpsConfigBuildMessageM5 crypto device env.random machine.data.rcvMsg
    machine.target) machine

def eapWpsBuildMessageM6 (machine : Machine) : Option Bytes × Machine :=
  eapWpsBuildProxied env 0 .m6 (eapWpsConfigBuildMessageM6 crypto device env.random
    machine.data.rcvMsg machine.target) machine

def eapWpsBuildMessageM7 (machine : Machine) : Option Bytes × Machine :=
  runBuilder .m7 (eapWpsConfigBuildMessageM7 crypto device env.random machine.data.rcvMsg
    machine.target machine.data.config) machine

def eapWpsBuildMessageM8 (machine : Machine) : Option Bytes × Machine :=
  eapWpsBuildProxied env 0 .m8 (eapWpsConfigBuildMessageM8 crypto device env.random
    machine.data.rcvMsg machine.target machine.data.config) machine

def eapWpsBuildMessageSpecial (call : Nat) (message : Message) (machine : Machine) :
    Option Bytes × Machine :=
  -- the enrollee's nonce is our own where we are the enrollee
  let own := machine.data.exchange.nonce
  let other := machine.target.nonce
  let (eNonce, rNonce) :=
    if machine.data.interface = .registrar then (other, own) else (own, other)
  eapWpsBuildProxied env call message
    (eapWpsConfigBuildMessageSpecial device message eNonce rNonce machine.target) machine

def runProcessor (message : Message) (process : TargetInfo → Verdict × TargetInfo)
    (machine : Machine) : Verdict × Machine :=
  let result := process machine.target
  (result.1, (machine.setTarget result.2).emit
    (.processed message result.1 machine.data.configWho machine.data.password.devPwd))

/-- M3, M5 and M7 go to the external registrar while one is selected. -/
def eapWpsProcessProxied (message : Message) (process : TargetInfo → Verdict × TargetInfo)
    (machine : Machine) : Verdict × Machine :=
  if machine.conf.upnpEnabled then
    (if env.upnpSent then .ok else .invalid, machine)
  else
    runProcessor message process machine

def eapWpsProcessMessageM1 (machine : Machine) : Verdict × Machine :=
  runProcessor .m1 (fun _ =>
    let result := eapWpsConfigProcessMessageM1 machine.data.rcvMsg
    (if result.1 then .ok else .invalid, result.2)) machine

def eapWpsProcessMessageM2 (machine : Machine) : Option Bool × Machine :=
  let result := eapWpsConfigProcessMessageM2 crypto device machine.data.rcvMsg machine.target
    machine.data.exchange
  let verdict : Verdict := if result.withConfig.isSome then .ok else .invalid
  let machine := (machine.setTarget result.target).setExchange
    { machine.data.exchange with keys := result.keys }
  (result.withConfig, machine.emit
    (.processed .m2 verdict machine.data.configWho machine.data.password.devPwd))

def eapWpsProcessMessageM2D (machine : Machine) : Verdict × Machine :=
  runProcessor .m2d (fun target =>
    let result := eapWpsConfigProcessMessageM2D machine.data.rcvMsg target machine.data.exchange
    (if result.1 then .ok else .invalid, result.2)) machine

def eapWpsProcessMessageM3 (machine : Machine) : Verdict × Machine :=
  eapWpsProcessProxied env .m3
    (eapWpsConfigProcessMessageM3 crypto machine.data.rcvMsg machine.data.exchange) machine

def eapWpsProcessMessageM4 (machine : Machine) : Verdict × Machine :=
  runProcessor .m4
    (eapWpsConfigProcessMessageM4 crypto machine.data.rcvMsg machine.data.exchange) machine

def eapWpsProcessMessageM5 (machine : Machine) : Verdict × Machine :=
  eapWpsProcessProxied env .m5
    (eapWpsConfigProcessMessageM5 crypto machine.data.rcvMsg machine.data.exchange) machine

def eapWpsProcessMessageM6 (machine : Machine) : Verdict × Machine :=
  runProcessor .m6
    (eapWpsConfigProcessMessageM6 crypto machine.data.rcvMsg machine.data.exchange) machine

def eapWpsProcessMessageM7 (machine : Machine) : Verdict × Machine :=
  eapWpsProcessProxied env .m7
    (eapWpsConfigProcessMessageM7 crypto machine.data.rcvMsg machine.data.exchange) machine

def eapWpsProcessMessageM8 (machine : Machine) : Verdict × Machine :=
  runProcessor .m8
    (eapWpsConfigProcessMessageM8 crypto machine.data.rcvMsg machine.data.exchange) machine

/-- DONE is always passed on and accepted, ACK always looked at here. -/
def eapWpsProcessMessageSpecial (message : Message) (machine : Machine) : Bool × Machine :=
  let own := machine.data.exchange.nonce
  let other := machine.target.nonce
  let (eNonce, rNonce) :=
    if machine.data.interface = .registrar then (other, own) else (own, other)
  if message = .done then
    (true, machine)
  else if machine.conf.upnpEnabled ∧ message ≠ .ack then
    (env.upnpSent, machine)
  else
    let result := eapWpsConfigProcessMessageSpecial machine.data.rcvMsg message eNonce rNonce
      machine.target
    (result.1, machine.setTarget result.2)

/-- `EAP_OPCODE_WPS_*` -/
inductive OpCode
  | start
  | ack
  | nack
  | msg
  | done
  | flagAck
  deriving DecidableEq

def OpCode.code : OpCode → UInt8
  | .start => 0x01
  | .ack => 0x02
  | .nack => 0x03
  | .msg => 0x04
  | .done => 0x05
  | .flagAck => 0x06

/-- `EAP_TYPE_EXPANDED`, `EAP_VENDOR_ID_WPS` and `EAP_VENDOR_TYPE_WPS` -/
def wpsMethod : Bytes := [254, 0x00, 0x37, 0x2A, 0x00, 0x00, 0x00, 0x01]

/-- A request without flags; the type of the message overrides the operation code. -/
def eapWpsBuildPacket (opCode : OpCode) (msg : Bytes) : Bytes :=
  let msgType := wpsGetMessageType msg
  let opCode :=
    if msgType = Message.ack.code then OpCode.ack
    else if msgType = Message.done.code then OpCode.done
    else if msgType = Message.nack.code then OpCode.nack
    else opCode
  [1, env.identifier] ++ putBe16 (14 + msg.length) ++ wpsMethod ++ [opCode.code, 0] ++ msg

/-- Sends what a builder returned and goes on to `next`; without a message
nothing changes. -/
def sendMessage (opCode : OpCode) (next : Machine → Machine)
    (built : Option Bytes × Machine) : Option Bytes × Machine :=
  match built with
  | (none, machine) => (none, machine)
  | (some msg, machine) => (some (eapWpsBuildPacket env opCode msg), next machine)

def refuse (call : Nat) (machine : Machine) : Option Bytes × Machine :=
  sendMessage env .nack (fun machine => (machine.setState .nack).countFailure)
    (eapWpsBuildMessageSpecial device env call .nack machine)

/-- The NACK branch falls through to the default branch. -/
def refuseTwice (machine : Machine) : Option Bytes × Machine :=
  match sendMessage env .nack (·.setState .nack)
    (eapWpsBuildMessageSpecial device env 0 .nack machine) with
  | (none, machine) => (none, machine)
  | (some req, machine) =>
    match refuse device env 1 machine with
    | (none, machine) => (some req, machine)
    | (some req, machine) => (some req, machine)

/-- M2D is followed by an ACK unless the proxied message changed the state. -/
def afterM2D (machine : Machine) : Machine :=
  if machine.data.state ≠ .nack ∧ machine.data.state ≠ .m3 then machine.setState .ack
  else machine

/-- The configuration is fetched again before M8; an error leaves none. -/
def reloadConfig (machine : Machine) : Machine :=
  { machine with data := (loadConfig device env machine.data).2 }

def eapWpsBuildReqRegistrar (machine : Machine) : Option Bytes × Machine :=
  match machine.data.state with
  | .start => sendMessage env .start (·.setState .m1) (some [], machine)
  | .m2 => sendMessage env .msg (·.setState .m3) (eapWpsBuildMessageM2 crypto device env machine)
  | .m2d1 => sendMessage env .msg afterM2D (eapWpsBuildMessageM2D device env machine)
  | .m2d2 =>
    if machine.data.exchange.sndMsg = [] then
      (none, machine.setState .failure)
    else
      sendMessage env .msg (·.setState .ack) (some machine.data.exchange.sndMsg, machine)
  | .m4 => sendMessage env .msg (·.setState .m5) (eapWpsBuildMessageM4 crypto device env machine)
  | .m6 => sendMessage env .msg (·.setState .m7) (eapWpsBuildMessageM6 crypto device env machine)
  | .m8 =>
    sendMessage env .msg (fun machine => (machine.setState .done).failureClear)
      (eapWpsBuildMessageM8 crypto device env (reloadConfig device env machine))
  | .nack => refuseTwice device env machine
  | _ => refuse device env 0 machine

def acceptOrRefuse (next : State) (result : Verdict × Machine) : Machine :=
  if result.1 = .ok then result.2.setState next else (result.2.setState .nack).countFailure

def finishRegistrar (machine : Machine) : Machine :=
  let machine := machine.failureClear
  let conf := if machine.conf.wpsJobBusy then eapWpsDisable device machine.conf else machine.conf
  let machine := { machine with conf := { conf with autoconfig := true } }.setState .failure
  if machine.data.autoconfig then
    machine.emit
      (.setSsidConfiguration .registrar machine.data.config machine.data.exchange.keys.authKey)
  else
    machine

def eapWpsProcessRegistrar (opCode : UInt8) (machine : Machine) : Machine :=
  let machine :=
    if opCode = OpCode.nack.code then
      (if machine.data.state.rank < State.m7.rank then machine.countFailure else machine).setState
        .nack
    else
      machine
  match machine.data.state with
  | .m1 =>
    let result := eapWpsProcessMessageM1 machine
    acceptOrRefuse
      (if machine.data.password.devPwd ≠ [] ∧ ¬machine.conf.upnpEnabled then .m2 else .m2d1)
      result
  | .m3 => acceptOrRefuse .m4 (eapWpsProcessMessageM3 crypto env machine)
  | .m5 => acceptOrRefuse .m6 (eapWpsProcessMessageM5 crypto env machine)
  | .m7 => acceptOrRefuse .m8 (eapWpsProcessMessageM7 crypto env machine)
  | .done => finishRegistrar device (eapWpsProcessMessageSpecial env .done machine).2
  | .ack =>
    match eapWpsProcessMessageSpecial env .ack machine with
    | (true, machine) => machine.setState .m2d1
    | (false, machine) => machine.setState .failure
  | .nack => (eapWpsProcessMessageSpecial env .nack machine).2.setState .failure
  | _ => machine

def eapWpsBuildReqEnrollee (machine : Machine) : Option Bytes × Machine :=
  match machine.data.state with
  | .start => sendMessage env .msg (·.setState .m2) (eapWpsBuildMessageM1 crypto device env machine)
  | .m3 => sendMessage env .msg (·.setState .m4) (eapWpsBuildMessageM3 crypto device env machine)
  | .m5 => sendMessage env .msg (·.setState .m6) (eapWpsBuildMessageM5 crypto device env machine)
  | .m7 => sendMessage env .msg (·.setState .m8) (eapWpsBuildMessageM7 crypto device env machine)
  | .nack =>
    sendMessage env .nack
      (fun machine =>
        (if machine.data.state.rank < State.m7.rank then machine.countFailure
          else machine).setState .nack)
      (eapWpsBuildMessageSpecial device env 0 .nack machine)
  | .done =>
    sendMessage env .done (·.setState .ack)
      (eapWpsBuildMessageSpecial device env 0 .done machine.failureClear)
  | _ => refuse device env 0 machine

def Conf.maySave (conf : Conf) : Bool := !conf.wpsJobBusy || conf.doSave

def finishEnrollee (machine : Machine) : Machine :=
  let machine :=
    match machine.target.config with
    | none => machine
    | some config =>
      if machine.conf.maySave then
        { machine with conf := { machine.conf with autoconfig := false } }.emit
          (.setSsidConfiguration .enrollee config machine.data.exchange.keys.authKey)
      else
        machine
  let machine :=
    if machine.conf.wpsJobBusy then
      { machine with conf := eapWpsDisable device machine.conf }.failureClear
    else
      machine
  machine.setState .failure

def eapWpsProcessEnrollee (opCode : UInt8) (machine : Machine) : Machine :=
  let machine :=
    if opCode = OpCode.nack.code then (machine.setState .nack).countFailure else machine
  match machine.data.state with
  | .m2 =>
    match eapWpsProcessMessageM2 crypto device machine with
    | (some true, machine) => (machine.setState .done).failureClear
    | (some false, machine) => machine.setState .m3
    | (none, machine) =>
      let result := eapWpsProcessMessageM2D machine
      if result.1 = .ok then result.2.setState .nack else result.2
  | .m4 =>
    let result := eapWpsProcessMessageM4 crypto machine
    if result.1 = .ok then result.2.setState .m5 else result.2
  | .m6 =>
    let result := eapWpsProcessMessageM6 crypto machine
    if result.1 = .ok then result.2.setState .m7 else result.2
  | .m8 =>
    let result := eapWpsProcessMessageM8 crypto machine
    if result.1 = .ok then
      if result.2.conf.maySave then (result.2.setState .done).failureClear
      else result.2.setState .nack
    else
      result.2
  | .ack =>
    match eapWpsProcessMessageSpecial env .ack machine with
    | (true, machine) => finishEnrollee device machine
    | (false, machine) => machine
  | .nack => (eapWpsProcessMessageSpecial env .nack machine).2.setState .failure
  | _ => machine

/-- `"WFA-SimpleConfig-Enrollee-1-0"` -/
def wpsIdentityEnrollee : Bytes :=
  [0x57, 0x46, 0x41, 0x2D, 0x53, 0x69, 0x6D, 0x70, 0x6C, 0x65, 0x43, 0x6F, 0x6E, 0x66, 0x69, 0x67,
    0x2D, 0x45, 0x6E, 0x72, 0x6F, 0x6C, 0x6C, 0x65, 0x65, 0x2D, 0x31, 0x2D, 0x30]

/-- `"WFA-SimpleConfig-Registrar-1-0"` -/
def wpsIdentityRegistrar : Bytes :=
  [0x57, 0x46, 0x41, 0x2D, 0x53, 0x69, 0x6D, 0x70, 0x6C, 0x65, 0x43, 0x6F, 0x6E, 0x66, 0x69, 0x67,
    0x2D, 0x52, 0x65, 0x67, 0x69, 0x73, 0x74, 0x72, 0x61, 0x72, 0x2D, 0x31, 0x2D, 0x30]

/-- Our role is the other one than the identity of the peer names. -/
def interfaceOf (identity : Bytes) : Option Interface :=
  if wpsIdentityRegistrar.isPrefixOf identity then some .enrollee
  else if wpsIdentityEnrollee.isPrefixOf identity then some .registrar
  else none

/-- The role and, at the first call, the data of the session; `none` is an error. -/
def enterSession (identity : Bytes) (machine : Machine) : Bool × Machine :=
  match interfaceOf identity with
  | none => (false, machine)
  | some interface =>
    let machine := { machine with data := { machine.data with interface := interface } }
    if machine.data.target.isNone then eapWpsConfigInitData device env machine
    else (true, machine)

def eapWpsBuildReq (identity : Bytes) (machine : Machine) :
    Option Bytes × Machine :=
  if machine.data.fragment then
    (some (eapWpsBuildPacket env .flagAck []), machine)
  else
    match enterSession device env identity machine with
    | (false, machine) => (none, machine)
    | (true, machine) =>
      match machine.data.interface with
      | .registrar => eapWpsBuildReqRegistrar crypto device env machine
      | .enrollee => eapWpsBuildReqEnrollee crypto device env machine
      | .none => (none, machine)

/-- A received EAP packet and what lies behind it in memory. -/
structure Frame where
  bytes : Bytes
  beyond : Nat → UInt8

def Frame.byte (frame : Frame) (place : Nat) : UInt8 :=
  frame.bytes.getD place (frame.beyond place)

def Frame.read (frame : Frame) (offset extent : Nat) : Bytes :=
  let inside := (frame.bytes.drop offset).take extent
  inside ++ (List.range (extent - inside.length)).map fun place =>
    frame.beyond (offset + inside.length + place)

def Frame.opCode (frame : Frame) : UInt8 := frame.byte 12

def Frame.moreFragments (frame : Frame) : Bool := frame.byte 13 &&& 0x01 != 0

/-- The length of the message, `none` where the length flag is set and the two
numbers that are compared differ. -/
def Frame.msgLen (frame : Frame) : Option Nat :=
  if frame.byte 13 &&& 0x02 ≠ 0 then
    -- the length field in the byte order of the machine; what it is compared
    -- with is the vendor identifier
    let length := host16 device.bigEndian (frame.byte 2) (frame.byte 3)
    let msgLen := (length + 65536 - 14) % 65536
    if msgLen = be16 (frame.byte 5) (frame.byte 6) then some msgLen else none
  else
    some ((frame.bytes.length + 65536 - 14) % 65536)

/-- `eap_wps_check`, as whether the packet is let through. -/
def eapWpsCheck (frame : Frame) : Bool :=
  be16 (frame.byte 2) (frame.byte 3) == frame.bytes.length &&
    (List.range 8).map (fun place => frame.byte (4 + place)) == wpsMethod &&
    (frame.msgLen device).isSome

def receive (frame : Frame) (msgLen : Nat) (data : EapWpsData) : EapWpsData :=
  let raw := frame.read 14 msgLen
  { data with
    rcvMsg := if data.fragment then data.rcvMsg ++ raw else raw
    fragment := frame.moreFragments }

/-- Whether the EAP state machine has to wait for the external registrar. -/
def mustWait (machine : Machine) : Bool :=
  !device.wpsUpnpDisable &&
    !(machine.data.password.devPwd ≠ [] && !machine.conf.upnpEnabled) && !env.upnpQueued

/-- `eap_wps_process`, and whether to wait before the next request is built. -/
def eapWpsProcess (identity : Bytes) (frame : Frame) (machine : Machine) : Bool × Machine :=
  let fail (machine : Machine) := (false, (machine.setState .nack).countFailure)
  match frame.msgLen device with
  | none => fail machine
  | some msgLen =>
    let machine := { machine with data := receive frame msgLen machine.data }
    if frame.moreFragments then
      (mustWait device env machine, machine)
    else
      match enterSession device env identity machine with
      | (false, machine) => fail machine
      | (true, machine) =>
        match machine.data.interface with
        | .registrar =>
          let machine := eapWpsProcessRegistrar crypto device env frame.opCode machine
          (mustWait device env machine, machine)
        | .enrollee =>
          let machine := eapWpsProcessEnrollee crypto device env frame.opCode machine
          (mustWait device env machine, machine)
        | .none => fail machine

end

end AthApps.Wps
