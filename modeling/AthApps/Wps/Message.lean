import AthApps.Wps.Crypto

/-!
# The messages M1 to M8

The functions `eap_wps_config_build_message_*` and
`eap_wps_config_process_message_*` of `hostapd/eap_wps.c`.

What they read and write of `struct eap_wps_data` is split by who may write
it: the builders write an `Exchange`, the processors a `TargetInfo`; only M2
(which derives the keys) and M3 (which falls back on the default PIN) do more.
A processor that is left by `break` keeps what it had written so far.
-/

set_option autoImplicit false

namespace AthApps.Wps

open Lib (Bytes)

inductive Message
  | m1
  | m2
  | m2d
  | m3
  | m4
  | m5
  | m6
  | m7
  | m8
  | ack
  | nack
  | done
  deriving DecidableEq

def Message.code : Message → UInt8
  | .m1 => 0x04
  | .m2 => 0x05
  | .m2d => 0x06
  | .m3 => 0x07
  | .m4 => 0x08
  | .m5 => 0x09
  | .m6 => 0x0A
  | .m7 => 0x0B
  | .m8 => 0x0C
  | .ack => 0x0D
  | .nack => 0x0E
  | .done => 0x0F

/-- A configured text in a zero padded array; `size` is its `_len` field. -/
structure Text where
  text : Bytes
  size : Nat

def Text.padded (text : Text) : Bytes :=
  (text.text ++ List.replicate (text.size - text.text.length) 0).take text.size

/-- The fields of `struct wps_config` that come from the configuration file
or the driver, and the byte order of the machine. -/
structure Device where
  bigEndian : Bool
  wpsDisable : Bool
  wpsUpnpDisable : Bool
  version : UInt8
  uuid : Vector UInt8 16
  uuidSet : Bool
  mac : Vector UInt8 6
  macSet : Bool
  authTypeFlags : UInt16
  encrTypeFlags : UInt16
  connTypeFlags : UInt8
  configMethods : UInt16
  wpsState : UInt8
  manufacturer : Text
  modelName : Text
  modelNumber : Text
  serialNumber : Text
  primDevType : Vector UInt8 8
  devName : Text
  rfBands : UInt8
  osVersion : UInt32
  defaultPin : Bytes
  defaultTimeout : Int

/-- What `RAND_bytes` gives during one call. -/
structure Random where
  nonce : Vector UInt8 16
  secret : Vector UInt8 192
  snonce1 : Vector UInt8 16
  snonce2 : Vector UInt8 16
  iv : Vector UInt8 16

/-- `struct eap_wps_target_info` -/
structure TargetInfo where
  version : UInt8
  uuid : Vector UInt8 16
  mac : Vector UInt8 6
  macSet : Bool
  authTypeFlags : UInt16
  encrTypeFlags : UInt16
  connTypeFlags : UInt8
  configMethods : UInt16
  manufacturer : Bytes
  modelName : Bytes
  modelNumber : Bytes
  serialNumber : Bytes
  primDevType : Vector UInt8 8
  devName : Bytes
  rfBands : UInt8
  assocState : UInt16
  configError : UInt16
  osVersion : UInt32
  nonce : Vector UInt8 16
  pubKey : Vector UInt8 192
  devPwdId : UInt16
  hash1 : Vector UInt8 32
  hash2 : Vector UInt8 32
  config : Option Bytes

/-- What `eap_wps_clear_target_info` leaves. -/
def TargetInfo.zero : TargetInfo where
  version := 0
  uuid := zeros 16
  mac := zeros 6
  macSet := false
  authTypeFlags := 0
  encrTypeFlags := 0
  connTypeFlags := 0
  configMethods := 0
  manufacturer := []
  modelName := []
  modelNumber := []
  serialNumber := []
  primDevType := zeros 8
  devName := []
  rfBands := 0
  assocState := 0
  configError := 0
  osVersion := 0
  nonce := zeros 16
  pubKey := zeros 192
  devPwdId := 0
  hash1 := zeros 32
  hash2 := zeros 32
  config := none

structure Password where
  devPwd : Bytes
  devPwdId : UInt16

structure Exchange where
  sndMsg : Bytes
  nonce : Vector UInt8 16
  pubKey : Vector UInt8 192
  dhSecret : Option (Vector UInt8 192)
  keys : Keys
  half1 : Half
  half2 : Half

def Exchange.zero : Exchange where
  sndMsg := []
  nonce := zeros 16
  pubKey := zeros 192
  dhSecret := none
  keys := ⟨zeros 32, zeros 16, zeros 32⟩
  half1 := Half.zero
  half2 := Half.zero

/-- How a processor ends: `wrongHash` is the `break` after
`eap_wps_hash_validation`, `invalid` any other one. -/
inductive Verdict
  | ok
  | wrongHash
  | invalid
  deriving DecidableEq

def devPwdAuthFail : UInt16 := 18

section

variable (crypto : Crypto) (device : Device)

def ownUuid : Bytes := device.uuid.toList.take 15 ++ [0x10]

def messageHead (message : Message) : List (Nat × Source) :=
  [(WpsType.version, .u8 device.version), (WpsType.msgType, .u8 message.code)]

variable (random : Random) (rcvMsg : Bytes) (target : TargetInfo) (password : Password)
    (exchange : Exchange)

/-- The end of the builders from M2 on: the authenticator over the message
received last and this one. -/
def authenticate (keys : Keys) (wps : WpsData) : Option Bytes :=
  (wpsSetValue device.bigEndian wps WpsType.authenticator
    (.bytes (eapWpsCalcurateAuthenticator crypto rcvMsg (wpsWriteWpsData wps) keys.authKey))).map
      wpsWriteWpsData

/-- A builder ends by keeping a copy of the message it returns. -/
def keepMessage (message : Option Bytes) : Option Bytes × Exchange :=
  (message, { exchange with sndMsg := message.getD exchange.sndMsg })

def eapWpsConfigBuildMessageM1 : Option Bytes × Exchange :=
  if device.version = 0 ∨ ¬device.uuidSet ∨ ¬device.macSet then
    (none, exchange)
  else
    let exchange := { exchange with nonce := random.nonce }
    match eapWpsGeneratePublicKey crypto random.secret with
    | none => (none, { exchange with dhSecret := none })
    | some pubKey =>
      let exchange := { exchange with dhSecret := some random.secret, pubKey := pubKey }
      keepMessage exchange <| (wpsSetValues device.bigEndian [] <| messageHead device .m1 ++
        [(WpsType.uuidE, .bytes (ownUuid device)), (WpsType.macAddr, .bytes device.mac.toList),
          (WpsType.enrolleeNonce, .bytes exchange.nonce.toList),
          (WpsType.publicKey, .bytes exchange.pubKey.toList),
          (WpsType.authTypeFlags, .u16 device.authTypeFlags),
          (WpsType.encrTypeFlags, .u16 device.encrTypeFlags),
          (WpsType.connTypeFlags, .u8 device.connTypeFlags),
          (WpsType.configMethods, .u16 device.configMethods),
          (WpsType.wpsstate, .u8 device.wpsState),
          (WpsType.manufacturer, .bytes device.manufacturer.text),
          (WpsType.modelName, .bytes device.modelName.text),
          (WpsType.modelNumber, .bytes device.modelNumber.text),
          (WpsType.serialNum, .bytes device.serialNumber.text),
          (WpsType.primDevType, .bytes device.primDevType.toList),
          (WpsType.deviceName, .bytes device.devName.text),
          (WpsType.rfBands, .u8 device.rfBands),
          (WpsType.assocState, .u16 0),
          (WpsType.devicePwdId, .u16 password.devPwdId),
          (WpsType.configError, .u16 0),
          (WpsType.osVersion, .u32 device.osVersion)]).map wpsWriteWpsData

/-- `eap_wps_config_build_message_M2_M2D`; unlike M1 it sends the texts with
their padding. -/
def commonM2M2D : List (Nat × Source) :=
  [(WpsType.authTypeFlags, .u16 device.authTypeFlags),
    (WpsType.encrTypeFlags, .u16 device.encrTypeFlags),
    (WpsType.connTypeFlags, .u8 device.connTypeFlags),
    (WpsType.configMethods, .u16 device.configMethods),
    (WpsType.manufacturer, .bytes device.manufacturer.padded),
    (WpsType.modelName, .bytes device.modelName.padded),
    (WpsType.modelNumber, .bytes device.modelNumber.padded),
    (WpsType.serialNum, .bytes device.serialNumber.padded),
    (WpsType.primDevType, .bytes device.primDevType.toList),
    (WpsType.deviceName, .bytes device.devName.padded),
    (WpsType.rfBands, .u8 device.rfBands),
    (WpsType.assocState, .u16 0),
    (WpsType.configError, .u16 0)]

/-- The nonces and the identity of the registrar, as M2 and M2D begin. -/
def registrarHead (message : Message) (eNonce rNonce : Vector UInt8 16) : List (Nat × Source) :=
  messageHead device message ++ [(WpsType.enrolleeNonce, .bytes eNonce.toList),
      (WpsType.registrarNonce, .bytes rNonce.toList),
      (WpsType.uuidR, .bytes (ownUuid device))]

def eapWpsConfigBuildMessageM2 (rcvMsg : Bytes)
    (target : TargetInfo) (exchange : Exchange) : Option Bytes × Exchange :=
  if device.version = 0 then
    (none, exchange)
  else
    let exchange := { exchange with nonce := random.nonce }
    if ¬device.uuidSet then
      (none, exchange)
    else
      match eapWpsGeneratePublicKey crypto random.secret with
      | none => (none, { exchange with dhSecret := none })
      | some pubKey =>
        let exchange := { exchange with dhSecret := some random.secret, pubKey := pubKey }
        match wpsSetValues device.bigEndian [] <|
          registrarHead device .m2 target.nonce exchange.nonce ++
            [(WpsType.publicKey, .bytes exchange.pubKey.toList)] ++ commonM2M2D device ++
            [(WpsType.devicePwdId, .u16 password.devPwdId),
              (WpsType.osVersion, .u32 device.osVersion)] with
        | none => (none, exchange)
        | some wps =>
          if ¬target.macSet then
            (none, exchange)
          else
            match eapWpsGenerateKdk crypto exchange.dhSecret target.pubKey target.nonce
              target.mac exchange.nonce with
            | none => (none, exchange)
            | some kdk =>
              let keys := Keys.ofDerived (eapWpsKeyDeriveFunc crypto kdk)
              keepMessage { exchange with keys := keys }
                (authenticate crypto device rcvMsg keys wps)

def eapWpsConfigBuildMessageM2D : Option Bytes × Exchange :=
  if device.version = 0 then
    (none, exchange)
  else
    let exchange := { exchange with nonce := random.nonce }
    if ¬device.uuidSet then
      (none, exchange)
    else
      keepMessage exchange <| (wpsSetValues device.bigEndian [] <|
        registrarHead device .m2d target.nonce exchange.nonce ++ commonM2M2D device ++
          [(WpsType.osVersion, .u32 device.osVersion)]).map wpsWriteWpsData

/-- The default PIN where the session has no password; `dev_pwd` has room for
63 characters and the terminator. -/
def ensurePassword : Option Password :=
  if password.devPwd ≠ [] then
    some password
  else if device.defaultPin ≠ [] ∧ device.defaultPin.length < 64 then
    some ⟨device.defaultPin, 0⟩
  else
    none

/-- The two hashes of M3 and of M4, over the enrollee's key and the registrar's. -/
def proveHalves (pubKeyE pubKeyR : Vector UInt8 192) (exchange : Exchange) : Exchange :=
  let prove src es := eapWpsGenerateHash crypto src pubKeyE pubKeyR exchange.keys.authKey es
  { exchange with
    half1 := prove (firstHalf password.devPwd) random.snonce1
    half2 := prove (secondHalf password.devPwd) random.snonce2 }

def eapWpsConfigBuildMessageM3 : Option Bytes × Exchange × Password :=
  if device.version = 0 then
    (none, exchange, password)
  else
    match ensurePassword device password with
    | none => (none, exchange, password)
    | some password =>
      let exchange := proveHalves crypto random password exchange.pubKey target.pubKey exchange
      let built := keepMessage exchange <|
        (wpsSetValues device.bigEndian [] <| messageHead device .m3 ++
          [(WpsType.registrarNonce, .bytes target.nonce.toList),
            (WpsType.eHash1, .bytes exchange.half1.hash.toList),
            (WpsType.eHash2, .bytes exchange.half2.hash.toList)]).bind
              (authenticate crypto device rcvMsg exchange.keys)
      (built.1, built.2, password)

def buildSettingsMessage (iv : Vector UInt8 16) (rcvMsg : Bytes)
    (head : List (Nat × Source)) (nonce : Option (Nat × Vector UInt8 16)) (config : Bytes)
    (exchange : Exchange) : Option Bytes × Exchange :=
  keepMessage exchange do
    let encrs ← eapWpsEncrsettingsCreation crypto device.bigEndian iv nonce config exchange.keys
    let wps ← wpsSetValues device.bigEndian [] (head ++ [(WpsType.encrSettings, .bytes encrs)])
    authenticate crypto device rcvMsg exchange.keys wps

def eapWpsConfigBuildMessageM4 : Option Bytes × Exchange :=
  if device.version = 0 ∨ password.devPwd = [] then
    (none, exchange)
  else
    let exchange := proveHalves crypto random password target.pubKey exchange.pubKey exchange
    buildSettingsMessage crypto device random.iv rcvMsg (messageHead device .m4 ++
        [(WpsType.enrolleeNonce, .bytes target.nonce.toList),
          (WpsType.rHash1, .bytes exchange.half1.hash.toList),
          (WpsType.rHash2, .bytes exchange.half2.hash.toList)])
      (some (WpsType.rSnonce1, exchange.half1.snonce)) [] exchange

def eapWpsConfigBuildMessageM5 : Option Bytes × Exchange :=
  if device.version = 0 then
    (none, exchange)
  else
    buildSettingsMessage crypto device random.iv rcvMsg
      (messageHead device .m5 ++ [(WpsType.registrarNonce, .bytes target.nonce.toList)])
      (some (WpsType.eSnonce1, exchange.half1.snonce)) [] exchange

def eapWpsConfigBuildMessageM6 : Option Bytes × Exchange :=
  if device.version = 0 then
    (none, exchange)
  else
    buildSettingsMessage crypto device random.iv rcvMsg
      (messageHead device .m6 ++ [(WpsType.enrolleeNonce, .bytes target.nonce.toList)])
      (some (WpsType.rSnonce2, exchange.half2.snonce)) [] exchange

def eapWpsConfigBuildMessageM7 (config : Bytes) (exchange : Exchange) : Option Bytes × Exchange :=
  if device.version = 0 then
    (none, exchange)
  else
    buildSettingsMessage crypto device random.iv rcvMsg
      (messageHead device .m7 ++ [(WpsType.registrarNonce, .bytes target.nonce.toList)])
      (some (WpsType.eSnonce2, exchange.half2.snonce)) config exchange

def eapWpsConfigBuildMessageM8 (config : Bytes) (exchange : Exchange) : Option Bytes × Exchange :=
  if device.version = 0 then
    (none, exchange)
  else
    buildSettingsMessage crypto device random.iv rcvMsg
      (messageHead device .m8 ++ [(WpsType.enrolleeNonce, .bytes target.nonce.toList)])
      none config exchange

def eapWpsConfigBuildMessageSpecial (message : Message) (eNonce rNonce : Vector UInt8 16)
    (target : TargetInfo) (exchange : Exchange) : Option Bytes × Exchange :=
  if device.version = 0 then
    (none, exchange)
  else
    keepMessage exchange <| (wpsSetValues device.bigEndian [] <| messageHead device message ++
      [(WpsType.enrolleeNonce, .bytes eNonce.toList),
        (WpsType.registrarNonce, .bytes rNonce.toList)] ++
      if message = .nack then [(WpsType.configError, .u16 target.configError)] else []).map
        wpsWriteWpsData

/-- `WPS_VERSION` or `WPS_VERSION_EX` -/
def knownVersion (version : UInt8) : Bool := version == 0x10 || version == 0x11

def getText (wps : WpsData) (type : Nat) : Option Bytes :=
  let length := wpsGetLength wps type 0
  if length = 0 then none else wpsGetBytes wps type length

/-- The description of the peer that M1, M2 and M2D have in common, read in
the order of the source after the flags. -/
def readDescription (wps : WpsData) (target : TargetInfo) : Option TargetInfo := do
  let authTypeFlags ← wpsGetU16 wps WpsType.authTypeFlags
  let encrTypeFlags ← wpsGetU16 wps WpsType.encrTypeFlags
  let connTypeFlags ← wpsGetU8 wps WpsType.connTypeFlags
  let configMethods ← wpsGetU16 wps WpsType.configMethods
  let manufacturer ← getText wps WpsType.manufacturer
  let modelName ← getText wps WpsType.modelName
  let modelNumber ← getText wps WpsType.modelNumber
  let serialNumber ← getText wps WpsType.serialNum
  let primDevType ← wpsGetBytes wps WpsType.primDevType 8
  let devName ← getText wps WpsType.deviceName
  let rfBands ← wpsGetU8 wps WpsType.rfBands
  let assocState ← wpsGetU16 wps WpsType.assocState
  let configError ← wpsGetU16 wps WpsType.configError
  let osVersion ← wpsGetU32 wps WpsType.osVersion
  some { target with
    authTypeFlags := authTypeFlags
    encrTypeFlags := encrTypeFlags
    connTypeFlags := connTypeFlags
    configMethods := configMethods
    manufacturer := manufacturer
    modelName := modelName
    modelNumber := modelNumber
    serialNumber := serialNumber
    primDevType := bufferOf 8 primDevType
    devName := devName
    rfBands := rfBands
    assocState := assocState
    configError := configError
    osVersion := osVersion }

def getPublicKey (wps : WpsData) : Option (Vector UInt8 192) :=
  (wpsGetBytes wps WpsType.publicKey 192).bind fixedSize

def eapWpsConfigProcessMessageM1 : Bool × TargetInfo :=
  let read : Option TargetInfo := do
    let wps ← wpsParseWpsData rcvMsg
    let version ← wpsGetU8 wps WpsType.version
    let msgType ← wpsGetU8 wps WpsType.msgType
    if ¬knownVersion version ∨ msgType ≠ Message.m1.code then
      none
    else
      let uuid ← wpsGetBytes wps WpsType.uuidE 16
      let mac ← wpsGetBytes wps WpsType.macAddr 6
      let nonce ← wpsGetBytes wps WpsType.enrolleeNonce 16
      let pubKey ← getPublicKey wps
      readDescription wps { TargetInfo.zero with
        version := version
        uuid := bufferOf 16 uuid
        mac := bufferOf 6 mac
        macSet := true
        nonce := bufferOf 16 nonce
        pubKey := pubKey }
  (read.isSome, read.getD TargetInfo.zero)

def eapWpsConfigProcessMessageM2M2D (nonce : Vector UInt8 16) : Option TargetInfo := do
  let wps ← wpsParseWpsData rcvMsg
  let version ← wpsGetU8 wps WpsType.version
  let msgType ← wpsGetU8 wps WpsType.msgType
  if ¬knownVersion version ∨ (msgType ≠ Message.m2.code ∧ msgType ≠ Message.m2d.code) then
    none
  else
    let eNonce ← wpsGetBytes wps WpsType.enrolleeNonce 64
    if eNonce ≠ nonce.toList then
      none
    else
      let rNonce ← wpsGetBytes wps WpsType.registrarNonce 16
      let uuid ← wpsGetBytes wps WpsType.uuidR 16
      readDescription wps { TargetInfo.zero with
        version := version
        uuid := bufferOf 16 uuid
        nonce := bufferOf 16 rNonce }

structure M2Result where
  -- `none` is an error, `some` the flag `with_config`
  withConfig : Option Bool
  target : TargetInfo
  keys : Keys

def eapWpsConfigProcessMessageM2 : M2Result :=
  let fail (target : TargetInfo) (keys : Keys) : M2Result := ⟨none, target, keys⟩
  match wpsParseWpsData rcvMsg with
  | none => fail target exchange.keys
  | some wps =>
    if wpsGetU8 wps WpsType.msgType ≠ some Message.m2.code then
      fail target exchange.keys
    else
      match eapWpsConfigProcessMessageM2M2D rcvMsg exchange.nonce with
      | none => fail TargetInfo.zero exchange.keys
      | some target =>
        match getPublicKey wps with
        | none => fail target exchange.keys
        | some pubKey =>
          let target := { target with pubKey := pubKey }
          match wpsGetU16 wps WpsType.devicePwdId with
          | none => fail target exchange.keys
          | some devPwdId =>
            let target := { target with devPwdId := devPwdId }
            match wpsGetBytes wps WpsType.authenticator 8 with
            | none => fail target exchange.keys
            | some authenticator =>
              match eapWpsGenerateKdk crypto exchange.dhSecret target.pubKey
                exchange.nonce device.mac target.nonce with
              | none => fail target exchange.keys
              | some kdk =>
                let keys := Keys.ofDerived (eapWpsKeyDeriveFunc crypto kdk)
                if ¬eapWpsHmacValidation crypto exchange.sndMsg rcvMsg authenticator
                    keys.authKey then
                  fail target keys
                else if wpsGetLength wps WpsType.encrSettings 0 = 0 then
                  ⟨some false, target, keys⟩
                else
                  -- no validation of a key wrap authenticator here
                  match openSettings crypto wps keys with
                  | none => fail target keys
                  | some config => ⟨some true, { target with config := some config }, keys⟩

def eapWpsConfigProcessMessageM2D : Bool × TargetInfo :=
  if (wpsParseWpsData rcvMsg).bind (wpsGetU8 · WpsType.msgType) ≠ some Message.m2d.code then
    (false, target)
  else
    match eapWpsConfigProcessMessageM2M2D rcvMsg exchange.nonce with
    | none => (false, TargetInfo.zero)
    | some target => (true, target)

/-- The checks M4 to M8 begin with: version, type and our own nonce. -/
def openMessage (message : Message) (nonceType : Nat)
    (nonce : Vector UInt8 16) : Option WpsData := do
  let wps ← wpsParseWpsData rcvMsg
  let version ← wpsGetU8 wps WpsType.version
  let msgType ← wpsGetU8 wps WpsType.msgType
  let received ← wpsGetBytes wps nonceType 16
  if knownVersion version ∧ msgType = message.code ∧ received = nonce.toList then
    some wps
  else
    none

def authenticated (wps : WpsData) : Bool :=
  match wpsGetBytes wps WpsType.authenticator 8 with
  | none => false
  | some authenticator =>
    eapWpsHmacValidation crypto exchange.sndMsg rcvMsg authenticator exchange.keys.authKey

def settingsNonce (wps : WpsData) (nonceType : Nat) : Option (Bytes × Bytes) := do
  let decrypted ← openSettings crypto wps exchange.keys
  let rsnonce ←
    eapWpsEncrsettingsValidation crypto decrypted exchange.keys.authKey (some nonceType)
  some (decrypted, rsnonce)

def eapWpsConfigProcessMessageM3 (target : TargetInfo) : Verdict × TargetInfo :=
  let opened : Option WpsData := do
    let wps ← wpsParseWpsData rcvMsg
    let msgType ← wpsGetU8 wps WpsType.msgType
    let received ← wpsGetBytes wps WpsType.registrarNonce 64
    if msgType = Message.m3.code ∧ received = exchange.nonce.toList then some wps else none
  match opened with
  | none => (.invalid, target)
  | some wps =>
    match wpsGetBytes wps WpsType.eHash1 32 with
    | none => (.invalid, target)
    | some hash1 =>
      let target := { target with hash1 := bufferOf 32 hash1 }
      match wpsGetBytes wps WpsType.eHash2 32 with
      | none => (.invalid, target)
      | some hash2 =>
        let target := { target with hash2 := bufferOf 32 hash2 }
        if authenticated crypto rcvMsg exchange wps then (.ok, target) else (.invalid, target)

def eapWpsConfigProcessMessageM4 (target : TargetInfo) : Verdict × TargetInfo :=
  match openMessage rcvMsg .m4 WpsType.enrolleeNonce exchange.nonce with
  | none => (.invalid, target)
  | some wps =>
    match wpsGetBytes wps WpsType.rHash1 32 with
    | none => (.invalid, target)
    | some hash1 =>
      let target := { target with hash1 := bufferOf 32 hash1 }
      match wpsGetBytes wps WpsType.rHash2 32 with
      | none => (.invalid, target)
      | some hash2 =>
        let target := { target with hash2 := bufferOf 32 hash2 }
        match settingsNonce crypto exchange wps WpsType.rSnonce1 with
        | none => (.invalid, target)
        | some (_, rsnonce) =>
          if ¬authenticated crypto rcvMsg exchange wps then
            (.invalid, target)
          else if eapWpsHashValidation crypto target.hash1 rsnonce exchange.half1.psk
              exchange.pubKey target.pubKey exchange.keys.authKey then
            (.ok, target)
          else
            (.wrongHash, { target with configError := devPwdAuthFail })

def eapWpsConfigProcessMessageM5 (target : TargetInfo) : Verdict × TargetInfo :=
  match openMessage rcvMsg .m5 WpsType.registrarNonce exchange.nonce with
  | none => (.invalid, target)
  | some wps =>
    match settingsNonce crypto exchange wps WpsType.eSnonce1 with
    | none => (.invalid, target)
    | some (_, rsnonce) =>
      if ¬authenticated crypto rcvMsg exchange wps then
        (.invalid, target)
      else if eapWpsHashValidation crypto target.hash1 rsnonce exchange.half1.psk
          target.pubKey exchange.pubKey exchange.keys.authKey then
        (.ok, target)
      else
        (.wrongHash, target)

def eapWpsConfigProcessMessageM6 (target : TargetInfo) : Verdict × TargetInfo :=
  match openMessage rcvMsg .m6 WpsType.enrolleeNonce exchange.nonce with
  | none => (.invalid, target)
  | some wps =>
    match settingsNonce crypto exchange wps WpsType.rSnonce2 with
    | none => (.invalid, target)
    | some (_, rsnonce) =>
      if ¬authenticated crypto rcvMsg exchange wps then
        (.invalid, target)
      else if eapWpsHashValidation crypto target.hash2 rsnonce exchange.half2.psk
          exchange.pubKey target.pubKey exchange.keys.authKey then
        (.ok, target)
      else
        (.wrongHash, { target with configError := devPwdAuthFail })

/-- `eap_wps_config_process_message_M7`: the enrollee's second half and its
configuration, which an error after the decryption takes away again. -/
def eapWpsConfigProcessMessageM7 (target : TargetInfo) : Verdict × TargetInfo :=
  match openMessage rcvMsg .m7 WpsType.registrarNonce exchange.nonce with
  | none => (.invalid, target)
  | some wps =>
    match openSettings crypto wps exchange.keys with
    | none => (.invalid, target)
    | some decrypted =>
      match eapWpsEncrsettingsValidation crypto decrypted exchange.keys.authKey
        (some WpsType.eSnonce2) with
      | none => (.invalid, { target with config := none })
      | some rsnonce =>
        if ¬authenticated crypto rcvMsg exchange wps then
          (.invalid, { target with config := none })
        else if eapWpsHashValidation crypto target.hash2 rsnonce exchange.half2.psk
            target.pubKey exchange.pubKey exchange.keys.authKey then
          (.ok, { target with config := some decrypted })
        else
          (.wrongHash, { target with config := none })

def eapWpsConfigProcessMessageM8 (target : TargetInfo) : Verdict × TargetInfo :=
  match openMessage rcvMsg .m8 WpsType.enrolleeNonce exchange.nonce with
  | none => (.invalid, target)
  | some wps =>
    match openSettings crypto wps exchange.keys with
    | none => (.invalid, target)
    | some decrypted =>
      match eapWpsEncrsettingsValidation crypto decrypted exchange.keys.authKey none with
      | none => (.invalid, target)
      | some _ =>
        if authenticated crypto rcvMsg exchange wps then
          (.ok, { target with config := some decrypted })
        else
          (.invalid, target)

def eapWpsConfigProcessMessageSpecial (message : Message)
    (eNonce rNonce : Vector UInt8 16) (target : TargetInfo) : Bool × TargetInfo :=
  match (openMessage rcvMsg message WpsType.enrolleeNonce eNonce).filter fun wps =>
    wpsGetBytes wps WpsType.registrarNonce 16 == some rNonce.toList with
  | none => (false, target)
  | some wps =>
    if message = .nack then
      match wpsGetU16 wps WpsType.configError with
      | none => (false, target)
      | some configError => (true, { target with configError := configError })
    else
      (true, target)

end

end AthApps.Wps
