import AthApps.Wps.Message

/-!
# WPS jobs

The part of `struct wps_config` that changes while hostapd runs, and the
functions that start and end a job: `eap_wps_enable`, `eap_wps_disable` and
`eap_wps_timer_tick`.
-/

set_option autoImplicit false

namespace AthApps.Wps

open Lib (Bytes)

/-- `enum wps_config_who` -/
inductive ConfigWho
  | unknown
  | me
  | them
  | externalRegistrar
  deriving DecidableEq

structure Time where
  sec : Int
  usec : Int
  deriving DecidableEq

structure Conf where
  wpsJobBusy : Bool
  configWho : ConfigWho
  -- the first `dev_pwd_len` bytes of `dev_pwd`; the others are zero
  devPwd : Bytes
  devPwdId : UInt16
  isPushButton : Bool
  upnpEnabled : Bool
  doSave : Bool
  secondsTimeout : Int
  endTime : Time
  selreg : Bool
  selregConfigMethods : UInt16
  -- how many failures were counted since the count was cleared
  failures : Nat
  apSetupLocked : Bool
  autoconfig : Bool
  -- how many `eap_wps_timer_tick` timeouts are registered
  timers : Nat
  deriving DecidableEq

def Conf.initial : Conf where
  wpsJobBusy := false
  configWho := .unknown
  devPwd := []
  devPwdId := 0
  isPushButton := false
  upnpEnabled := false
  doSave := false
  secondsTimeout := 0
  endTime := ⟨0, 0⟩
  selreg := false
  selregConfigMethods := 0
  failures := 0
  apSetupLocked := false
  autoconfig := false
  timers := 0

/-- `eap_wps_failure_clear`; the clearing of the push button table is not part
of the model. -/
def Conf.failureClear (conf : Conf) : Conf := { conf with failures := 0, apSetupLocked := false }

def Conf.countFailure (conf : Conf) : Conf := { conf with failures := conf.failures + 1 }

/-- The `int` that counts the failures and wraps. -/
def Conf.nfailure (conf : Conf) : Int32 := Int32.ofNat conf.failures

def isSpace (byte : UInt8) : Bool := byte == 0x20 || (0x09 ≤ byte && byte ≤ 0x0D)

def isDigit (byte : UInt8) : Bool := 0x30 ≤ byte && byte ≤ 0x39

/-- `strtoul (text, &end, 10)` stored in 32 bits, and whether `end` is behind
all of the text. -/
def strtoul (text : Bytes) : Nat × Bool :=
  let body := text.dropWhile isSpace
  let (negative, digits) :=
    match body with
    | 0x2D :: rest => (true, rest)
    | 0x2B :: rest => (false, rest)
    | _ => (false, body)
  let value := (digits.takeWhile isDigit).foldl (fun value digit => value * 10 + (digit.toNat - 48)) 0
  (if negative then (4294967296 - value) % 4294967296 else value,
    digits ≠ [] ∧ digits.all isDigit)

def eapWpsComputeDevicePasswordChecksum (pin : Nat) : Nat :=
  let tmp := pin * 10 % 4294967296
  let acc := 3 * (tmp / 10000000 % 10) + tmp / 1000000 % 10 + 3 * (tmp / 100000 % 10) +
    tmp / 10000 % 10 + 3 * (tmp / 1000 % 10) + tmp / 100 % 10 + 3 * (tmp / 10 % 10)
  (10 - acc % 10) % 10

def eapWpsDevicePasswordValidation (pwd : Bytes) : Bool :=
  let (pin, complete) := strtoul pwd
  pwd.length == 8 && complete && eapWpsComputeDevicePasswordChecksum (pin / 10) == pin % 10

section

variable (device : Device)

def eapWpsDisable (conf : Conf) : Conf :=
  let conf :=
    if conf.wpsJobBusy then
      { conf with
        timers := 0
        selregConfigMethods := if device.defaultPin = [] then 0 else 0x0004
        selreg := false
        doSave := false
        configWho := .unknown }
    else
      conf
  { conf with
    endTime := ⟨0, 0⟩
    wpsJobBusy := false
    devPwdId := 0
    devPwd := []
    upnpEnabled := false }

structure EnableParams where
  devPwd : Bytes
  devPwdId : UInt16
  selregConfigMethods : UInt16
  filterSsidLength : Int
  secondsTimeout : Int
  configWho : ConfigWho
  doSave : Bool
  deriving DecidableEq

/-- `"00000000"`: the push button password and the placeholder for an external
registrar. -/
def zeroPin : Bytes := List.replicate 8 0x30

def EnableParams.isPushButton (params : EnableParams) : Bool :=
  params.configWho ≠ .externalRegistrar ∧ (params.devPwd = zeroPin ∨ params.devPwd = [])

def EnableParams.password (params : EnableParams) : Bytes :=
  if params.configWho = .externalRegistrar ∨ params.devPwd = [] then zeroPin else params.devPwd

def EnableParams.timeout (params : EnableParams) : Int :=
  let timeout := if params.secondsTimeout = 0 then device.defaultTimeout else params.secondsTimeout
  if timeout = 0 then 120 else timeout

/-- The fields `eap_wps_enable` sets before it can fail again. -/
def startJob (conf : Conf) (params : EnableParams) (now : Time) : Conf :=
  let conf :=
    { conf with
      wpsJobBusy := true
      isPushButton := params.isPushButton
      upnpEnabled := params.configWho = .externalRegistrar
      configWho := params.configWho
      secondsTimeout := params.timeout device
      endTime :=
        if 0 < params.timeout device then ⟨now.sec + params.timeout device, now.usec⟩
        else conf.endTime
      devPwd := params.password }
  match params.configWho with
  | .externalRegistrar => { conf with doSave := false }
  | .me => { conf with doSave := params.doSave }.failureClear
  | .them => { conf with doSave := false }.failureClear
  | .unknown => conf

/-- The values for the beacon, `none` where the PIN has a bad checksum. -/
def announce (conf : Conf) (params : EnableParams) : Option Conf :=
  if params.configWho = .externalRegistrar then
    some { conf with
      devPwdId := params.devPwdId, selregConfigMethods := params.selregConfigMethods }
  else if params.isPushButton then
    some { conf with devPwdId := 0x0004, selregConfigMethods := 0x0080 }
  else if params.password.length = 8 then
    if eapWpsDevicePasswordValidation params.password then
      some { conf with devPwdId := 0x0000, selregConfigMethods := 0x0100 }
    else
      none
  else
    some { conf with devPwdId := 0x0001, selregConfigMethods := 0x0100 }

/-- `eap_wps_enable`: whether it returned zero, and the configuration.
`ieSet` tells whether `eap_wps_set_ie` succeeds. -/
def eapWpsEnable (conf : Conf) (params : EnableParams) (now : Time) (ieSet : Bool) :
    Bool × Conf :=
  let conf :=
    if conf.wpsJobBusy ∧ params.configWho ≠ conf.configWho then eapWpsDisable device conf else conf
  if device.wpsDisable then
    (false, conf)
  else if params.configWho = .externalRegistrar ∧ device.wpsUpnpDisable then
    (false, conf)
  else if params.isPushButton ∧ params.configWho = .me then
    (false, conf)
  else
    let conf :=
      if conf.wpsJobBusy then
        if params.password = conf.devPwd then { conf with timers := 0 }
        else eapWpsDisable device conf
      else
        conf
    if 64 < params.password.length then
      (false, eapWpsDisable device conf)
    else
      let conf := startJob device conf params now
      if params.configWho = .unknown then
        (false, eapWpsDisable device conf)
      else
        match announce conf params with
        | none => (false, eapWpsDisable device conf)
        | some conf =>
          let conf := { conf with selreg := true }
          if ¬ieSet ∨ 32 < params.filterSsidLength then
            (false, eapWpsDisable device conf)
          else
            (true, { conf with timers := conf.timers + 1 })

def eapWpsTimerTick (conf : Conf) (now : Time) : Conf :=
  let conf := { conf with timers := conf.timers - 1 }
  if ¬conf.wpsJobBusy then
    conf
  else if 0 < conf.secondsTimeout ∧ (conf.endTime.sec < now.sec ∨
      now.sec = conf.endTime.sec ∧ conf.endTime.usec ≤ now.usec) then
    eapWpsDisable device conf
  else
    { conf with timers := conf.timers + 1 }

end

end AthApps.Wps
