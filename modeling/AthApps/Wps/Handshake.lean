import AthApps.Wps.ApConfig

/-!
# The messages M1 to M8 between two peers

An enrollee and a registrar build M1 to M8 in turn, and each processes what the
other one has built.
-/

set_option autoImplicit false

namespace AthApps.Wps

open Lib (Bytes)
open Option
open List hiding Vector

/-- One side: what `struct eap_wps_data` holds of a session, and the device. -/
structure Peer where
  device : Device
  password : Password
  config : Bytes
  rcvMsg : Bytes
  exchange : Exchange
  target : TargetInfo

inductive Outcome
  | unbuilt (message : Message)
  | rejected (message : Message)
  | completed (enrollee registrar : Peer)

section

variable (crypto : Crypto)

def Peer.build (random : Random) (peer : Peer) : Message → Option Bytes × Peer
  | .m1 =>
    let built := eapWpsConfigBuildMessageM1 crypto peer.device random peer.password peer.exchange
    (built.1, { peer with exchange := built.2 })
  | .m2 =>
    let built := eapWpsConfigBuildMessageM2 crypto peer.device random peer.password peer.rcvMsg
      peer.target peer.exchange
    (built.1, { peer with exchange := built.2 })
  | .m3 =>
    let built := eapWpsConfigBuildMessageM3 crypto peer.device random peer.rcvMsg peer.target
      peer.password peer.exchange
    (built.1, { peer with exchange := built.2.1, password := built.2.2 })
  | .m4 =>
    let built := eapWpsConfigBuildMessageM4 crypto peer.device random peer.rcvMsg peer.target
      peer.password peer.exchange
    (built.1, { peer with exchange := built.2 })
  | .m5 =>
    let built := eapWpsConfigBuildMessageM5 crypto peer.device random peer.rcvMsg peer.target
      peer.exchange
    (built.1, { peer with exchange := built.2 })
  | .m6 =>
    let built := eapWpsConfigBuildMessageM6 crypto peer.device random peer.rcvMsg peer.target
      peer.exchange
    (built.1, { peer with exchange := built.2 })
  | .m7 =>
    let built := eapWpsConfigBuildMessageM7 crypto peer.device random peer.rcvMsg peer.target
      peer.config peer.exchange
    (built.1, { peer with exchange := built.2 })
  | .m8 =>
    let built := eapWpsConfigBuildMessageM8 crypto peer.device random peer.rcvMsg peer.target
      peer.config peer.exchange
    (built.1, { peer with exchange := built.2 })
  | _ => (none, peer)

/-- The processor of a message that was received, and whether it returns 0. -/
def Peer.process (rcvMsg : Bytes) (peer : Peer) : Message → Bool × Peer
  | .m1 =>
    let read := eapWpsConfigProcessMessageM1 rcvMsg
    (read.1, { peer with rcvMsg := rcvMsg, target := read.2 })
  | .m2 =>
    let read := eapWpsConfigProcessMessageM2 crypto peer.device rcvMsg peer.target peer.exchange
    (read.withConfig.isSome,
      { peer with
        rcvMsg := rcvMsg
        target := read.target
        exchange := { peer.exchange with keys := read.keys } })
  | .m3 => verdict (eapWpsConfigProcessMessageM3 crypto rcvMsg peer.exchange peer.target)
  | .m4 => verdict (eapWpsConfigProcessMessageM4 crypto rcvMsg peer.exchange peer.target)
  | .m5 => verdict (eapWpsConfigProcessMessageM5 crypto rcvMsg peer.exchange peer.target)
  | .m6 => verdict (eapWpsConfigProcessMessageM6 crypto rcvMsg peer.exchange peer.target)
  | .m7 => verdict (eapWpsConfigProcessMessageM7 crypto rcvMsg peer.exchange peer.target)
  | .m8 => verdict (eapWpsConfigProcessMessageM8 crypto rcvMsg peer.exchange peer.target)
  | _ => (false, peer)
where
  verdict (read : Verdict × TargetInfo) : Bool × Peer :=
    (read.1 == .ok, { peer with rcvMsg := rcvMsg, target := read.2 })

/-- Messages that are built and processed in turn; after each the peers change
places. -/
@[grind =] def exchangeMessages (random : Message → Random) : List Message → Peer → Peer → Outcome
  | [], sender, receiver => .completed sender receiver
  | message :: rest, sender, receiver =>
    match sender.build crypto (random message) message with
    | (none, _) => .unbuilt message
    | (some rcvMsg, sender) =>
      match receiver.process crypto rcvMsg message with
      | (false, _) => .rejected message
      | (true, receiver) => exchangeMessages random rest receiver sender

def handshake (random : Message → Random) (enrollee registrar : Peer) : Outcome :=
  exchangeMessages crypto random [.m1, .m2, .m3, .m4, .m5, .m6, .m7, .m8] enrollee registrar

end

/-! ## Reading a description -/

structure Described (calls : List (Nat × Source)) : Prop where
  authTypeFlags : ∃ value, calls.find? (·.1 == WpsType.authTypeFlags) =
    some (WpsType.authTypeFlags, .u16 value)
  encrTypeFlags : ∃ value, calls.find? (·.1 == WpsType.encrTypeFlags) =
    some (WpsType.encrTypeFlags, .u16 value)
  connTypeFlags : ∃ value, calls.find? (·.1 == WpsType.connTypeFlags) =
    some (WpsType.connTypeFlags, .u8 value)
  configMethods : ∃ value, calls.find? (·.1 == WpsType.configMethods) =
    some (WpsType.configMethods, .u16 value)
  texts : ∀ type ∈ [WpsType.manufacturer, WpsType.modelName, WpsType.modelNumber,
    WpsType.serialNum, WpsType.deviceName], ∃ value, calls.find? (·.1 == type) =
      some (type, .bytes value) ∧ 0 < value.length ∧ value.length < 65536
  primDevType : ∃ value : Vector UInt8 8, calls.find? (·.1 == WpsType.primDevType) =
    some (WpsType.primDevType, .bytes value.toList)
  rfBands : ∃ value, calls.find? (·.1 == WpsType.rfBands) = some (WpsType.rfBands, .u8 value)
  assocState : ∃ value, calls.find? (·.1 == WpsType.assocState) =
    some (WpsType.assocState, .u16 value)
  configError : ∃ value, calls.find? (·.1 == WpsType.configError) =
    some (WpsType.configError, .u16 value)
  osVersion : ∃ value, calls.find? (·.1 == WpsType.osVersion) = some (WpsType.osVersion, .u32 value)

/-- What the handshake reads of the target is not part of the description. -/
structure SameIdentity (before after : TargetInfo) : Prop where
  nonce : after.nonce = before.nonce
  pubKey : after.pubKey = before.pubKey
  mac : after.mac = before.mac
  macSet : after.macSet = before.macSet

variable {calls : List (Nat × Source)}

variable {bigEndian : Bool}

theorem getText_sent {type : Nat}
    {value : Bytes} (found : calls.find? (·.1 == type) = some (type, .bytes value))
    (positive : 0 < value.length) (small : value.length < 65536) (rest : WpsData) :
    getText (sent bigEndian calls ++ rest) type = some value := by
  have length := @sent_bytes_length bigEndian calls type 0 value found small rest
  rw [getText, length]
  simp only [if_neg (Nat.ne_of_gt positive)]
  exact sent_bytes found small (Nat.le_refl _) rest

theorem Described.read (described : Described calls)
    (bigEndian : Bool) (rest : WpsData) (target : TargetInfo) :
    ∃ after, readDescription (sent bigEndian calls ++ rest) target = some after ∧
      SameIdentity target after := by
  obtain ⟨authTypeFlags, authTypeFlagsAt⟩ := described.authTypeFlags
  obtain ⟨encrTypeFlags, encrTypeFlagsAt⟩ := described.encrTypeFlags
  obtain ⟨connTypeFlags, connTypeFlagsAt⟩ := described.connTypeFlags
  obtain ⟨configMethods, configMethodsAt⟩ := described.configMethods
  obtain ⟨manufacturer, manufacturerAt, manufacturerFits⟩ :=
    described.texts WpsType.manufacturer (by decide)
  obtain ⟨modelName, modelNameAt, modelNameFits⟩ := described.texts WpsType.modelName (by decide)
  obtain ⟨modelNumber, modelNumberAt, modelNumberFits⟩ :=
    described.texts WpsType.modelNumber (by decide)
  obtain ⟨serialNumber, serialNumberAt, serialNumberFits⟩ :=
    described.texts WpsType.serialNum (by decide)
  obtain ⟨devName, devNameAt, devNameFits⟩ := described.texts WpsType.deviceName (by decide)
  obtain ⟨primDevType, primDevTypeAt⟩ := described.primDevType
  obtain ⟨rfBands, rfBandsAt⟩ := described.rfBands
  obtain ⟨assocState, assocStateAt⟩ := described.assocState
  obtain ⟨configError, configErrorAt⟩ := described.configError
  obtain ⟨osVersion, osVersionAt⟩ := described.osVersion
  obtain ⟨half, halfIs⟩ := @sent_u32 bigEndian _ _ _ osVersionAt rest
  have eight : primDevType.toList.length = 8 := Vector.length_toList
  have device : wpsGetBytes (sent bigEndian calls ++ rest) WpsType.primDevType 8 =
      some primDevType.toList :=
    sent_bytes primDevTypeAt (by rw [eight]; decide) (Nat.le_of_eq eight) rest
  simp only [readDescription, sent_u16 authTypeFlagsAt, sent_u16 encrTypeFlagsAt,
    sent_u8 connTypeFlagsAt (by decide), sent_u16 configMethodsAt,
    getText_sent manufacturerAt manufacturerFits.1 manufacturerFits.2,
    getText_sent modelNameAt modelNameFits.1 modelNameFits.2,
    getText_sent modelNumberAt modelNumberFits.1 modelNumberFits.2,
    getText_sent serialNumberAt serialNumberFits.1 serialNumberFits.2, device,
    getText_sent devNameAt devNameFits.1 devNameFits.2, sent_u8 rfBandsAt (by decide),
    sent_u16 assocStateAt, sent_u16 configErrorAt, halfIs, bind_eq_bind, bind_some]
  exact ⟨_, rfl, rfl, rfl, rfl, rfl⟩

/-! ## Devices -/

/-- A text of the configuration that is not empty, in a buffer of its own size. -/
structure Text.Given (text : Text) : Prop where
  nonempty : text.text ≠ []
  fits : text.text.length ≤ text.size
  small : text.size < 65536

theorem Text.Given.text_length {text : Text} (given : text.Given) :
    0 < text.text.length ∧ text.text.length < 65536 := by
  have positive := length_pos_iff.mpr given.nonempty
  have fits := given.fits
  have small := given.small
  omega

theorem Text.Given.padded_length {text : Text} (given : text.Given) :
    0 < text.padded.length ∧ text.padded.length < 65536 := by
  have positive := length_pos_iff.mpr given.nonempty
  have fits := given.fits
  have small := given.small
  rw [Text.padded, length_take, length_append, length_replicate]
  omega

/-- `WPS_VERSION` and texts that are not empty. -/
structure Device.Described (device : Device) : Prop where
  version : device.version = 0x10
  manufacturer : device.manufacturer.Given
  modelName : device.modelName.Given
  modelNumber : device.modelNumber.Given
  serialNumber : device.serialNumber.Given
  devName : device.devName.Given

theorem Device.Described.known {device : Device} (described : device.Described) :
    device.version ≠ 0 ∧ knownVersion device.version = true := by
  rw [described.version]
  decide

theorem fixedSize_vector (bytes : Vector UInt8 192) : fixedSize bytes.toList = some bytes := by
  have length : bytes.toList.length = 192 := Vector.length_toList
  rw [fixedSize, if_pos (by rw [length]; decide), length, Nat.sub_self, replicate_zero,
    nil_append, bufferOf_vector]

theorem getPublicKey_sent
    {pubKey : Vector UInt8 192} (found : calls.find? (·.1 == WpsType.publicKey) =
      some (WpsType.publicKey, .bytes pubKey.toList)) (rest : WpsData) :
    getPublicKey (sent bigEndian calls ++ rest) = some pubKey := by
  have length : pubKey.toList.length = 192 := Vector.length_toList
  rw [getPublicKey, sent_bytes found (by rw [length]; decide) (Nat.le_of_eq length),
    bind_some, fixedSize_vector]

theorem sent_vector {type n capacity : Nat}
    {value : Vector UInt8 n} (found : calls.find? (·.1 == type) = some (type, .bytes value.toList))
    (small : n < 65536) (room : n ≤ capacity) (rest : WpsData) :
    wpsGetBytes (sent bigEndian calls ++ rest) type capacity = some value.toList := by
  have length : value.toList.length = n := Vector.length_toList
  exact sent_bytes found (by omega) (by omega) rest

section

variable (crypto : Crypto)

/-! ## M1 and M2 -/

variable {first second enrollee registrar : Peer} {random : Message → Random}
  {calls : List (Nat × Source)} {rest : List Message} {bigEndian : Bool}
  {attrs : WpsData} {exchange : Exchange} {nonce : Vector UInt8 16} {device : Device}

variable {exchange sender own : Exchange} {rcvMsg message : Bytes} {wps : WpsData}

theorem parse_sent {call : Nat × Source} (few : calls.length ≤ 255)
    (set : wpsSetValues bigEndian [] calls = some wps) (last : calls.getLast? = some call)
    (filled : (call.2.narrowed bigEndian).size ≠ 0) :
    wpsParseWpsData (wpsWriteWpsData wps) = some (sent bigEndian calls ++ []) := by
  obtain ⟨rfl, valid⟩ := wpsSetValues_spec few set
  have present : sent bigEndian calls ≠ [] := by
    intro none
    rw [map_eq_nil_iff.mp none] at last
    cases last
  have bytes : lastBytes (sent bigEndian calls) [] ≠ [] := by
    rw [lastBytes, sent, getLast?_map, last]
    intro empty
    have lengths := congrArg List.length empty
    simp only [map_some, given, append_nil, valueAs_bytes, length_nil] at lengths
    exact filled lengths
  have parsed := wpsParseWpsData_write valid (by rw [sent_length]; omega) [] (Nat.zero_le 4) present
    bytes
  rw [append_nil] at parsed
  rw [parsed, append_nil]

variable {pubKey secret other otherKey : Vector UInt8 192}

theorem processM1_sent {rest : WpsData} {message uuid : Bytes} {version : UInt8}
    {mac : Vector UInt8 6}
    (parsed : wpsParseWpsData message = some (sent bigEndian calls ++ rest))
    (versionAt : calls.find? (·.1 == WpsType.version) = some (WpsType.version, .u8 version))
    (known : knownVersion version = true)
    (typeAt : calls.find? (·.1 == WpsType.msgType) = some (WpsType.msgType, .u8 Message.m1.code))
    (uuidAt : calls.find? (·.1 == WpsType.uuidE) = some (WpsType.uuidE, .bytes uuid))
    (sixteen : uuid.length = 16)
    (macAt : calls.find? (·.1 == WpsType.macAddr) = some (WpsType.macAddr, .bytes mac.toList))
    (nonceAt : calls.find? (·.1 == WpsType.enrolleeNonce) =
      some (WpsType.enrolleeNonce, .bytes nonce.toList))
    (keyAt : calls.find? (·.1 == WpsType.publicKey) =
      some (WpsType.publicKey, .bytes pubKey.toList)) (described : Described calls) :
    ∃ target, eapWpsConfigProcessMessageM1 message = (true, target) ∧ target.nonce = nonce ∧
      target.pubKey = pubKey ∧ target.mac = mac ∧ target.macSet = true := by
  obtain ⟨after, read, same⟩ := described.read bigEndian rest
    { TargetInfo.zero with
      version := version
      uuid := bufferOf 16 uuid
      mac := bufferOf 6 mac.toList
      macSet := true
      nonce := bufferOf 16 nonce.toList
      pubKey := pubKey }
  have fine : ¬(¬knownVersion version = true ∨ Message.m1.code ≠ Message.m1.code) := by
    rw [known]
    simp
  refine ⟨after, ?_, ?_, same.pubKey, ?_, same.macSet⟩
  · simp only [eapWpsConfigProcessMessageM1, parsed, bind_eq_bind, bind_some,
      sent_u8 versionAt (by decide), sent_u8 typeAt (by decide), if_neg fine,
      sent_bytes uuidAt (by omega) (Nat.le_of_eq sixteen),
      sent_vector macAt (by decide) (Nat.le_refl 6),
      sent_vector nonceAt (by decide) (Nat.le_refl 16), getPublicKey_sent keyAt, read]
    rfl
  · exact same.nonce.trans (bufferOf_vector nonce)
  · exact same.mac.trans (bufferOf_vector mac)

theorem ownUuid_length (device : Device) : (ownUuid device).length = 16 := by
  rw [ownUuid, length_append, length_take, Vector.length_toList]
  rfl

theorem m1_accepted {random : Random} {password : Password}
    {message : Bytes} (described : device.Described)
    (built : (eapWpsConfigBuildMessageM1 crypto device random password exchange).1 = some message) :
    ∃ pubKey, eapWpsGeneratePublicKey crypto random.secret = some pubKey ∧
      (eapWpsConfigBuildMessageM1 crypto device random password exchange).2 =
        { exchange with
          nonce := random.nonce, dhSecret := some random.secret, pubKey := pubKey,
          sndMsg := message } ∧
      ∃ target, eapWpsConfigProcessMessageM1 message = (true, target) ∧
        target.nonce = random.nonce ∧ target.pubKey = pubKey ∧ target.mac = device.mac ∧
        target.macSet = true := by
  unfold eapWpsConfigBuildMessageM1 at built ⊢
  split at built
  · cases built
  · rename_i ready
    simp only [if_neg ready]
    cases generated : eapWpsGeneratePublicKey crypto random.secret with
    | none =>
      rw [generated] at built
      cases built
    | some pubKey =>
      simp only [generated, keepMessage] at built ⊢
      refine ⟨pubKey, rfl, ?_, ?_⟩
      · rw [built]
        rfl
      · obtain ⟨wps, set, rfl⟩ := map_eq_some_iff.mp built
        have parsed := parse_sent (Nat.le_of_ble_eq_true rfl) set rfl (Nat.succ_ne_zero 3)
        apply processM1_sent parsed rfl described.known.2 rfl rfl (ownUuid_length device) rfl rfl
          rfl
        refine ⟨⟨_, rfl⟩, ⟨_, rfl⟩, ⟨_, rfl⟩, ⟨_, rfl⟩, ?_, ⟨_, rfl⟩, ⟨_, rfl⟩, ⟨_, rfl⟩, ⟨_, rfl⟩,
          ⟨_, rfl⟩⟩
        intro type mem
        simp only [mem_cons, not_mem_nil, or_false] at mem
        rcases mem with rfl | rfl | rfl | rfl | rfl
        · exact ⟨_, rfl, described.manufacturer.text_length⟩
        · exact ⟨_, rfl, described.modelName.text_length⟩
        · exact ⟨_, rfl, described.modelNumber.text_length⟩
        · exact ⟨_, rfl, described.serialNumber.text_length⟩
        · exact ⟨_, rfl, described.devName.text_length⟩

def signed (wps : WpsData) (tag : Bytes) : WpsData :=
  wps ++ [⟨WpsType.authenticator, 8, .ptr tag⟩]

theorem signed_tag (absent : calls.find? (·.1 == WpsType.authenticator) = none) (tag : Bytes) :
    wpsGetBytes (signed (sent bigEndian calls) tag) WpsType.authenticator 8 = some tag := by
  rw [wpsGetBytes, wpsGetValue, signed, sent_find_none absent]
  rfl

variable {type nonceType : Nat}

theorem sent_absent (absent : calls.find? (·.1 == type) = none) :
    wpsFind (sent bigEndian calls) type = none := by
  have none := @sent_find_none bigEndian calls type absent []
  rw [append_nil] at none
  rw [none]
  rfl

theorem message_arrives {keys : Keys} (few : calls.length < 255)
    (absent : calls.find? (·.1 == WpsType.authenticator) = none)
    (set : wpsSetValues device.bigEndian [] calls = some wps)
    (done : authenticate crypto device rcvMsg keys wps = some message) :
    ∃ tag, wpsParseWpsData message = some (signed (sent device.bigEndian calls) tag) ∧
      eapWpsHmacValidation crypto rcvMsg message tag keys.authKey = true := by
  obtain ⟨rfl, valid⟩ := wpsSetValues_spec (by omega) set
  obtain ⟨tag, parsed, same, -⟩ := (authenticate_arrives crypto device valid
    (by rw [sent_length]; omega) (sent_absent absent) done).parsed
  exact ⟨tag, parsed, same⟩

theorem processM2_sent {bigEndian : Bool} {calls : List (Nat × Source)} {device : Device}
    {message uuid tag : Bytes} {version : UInt8} {nonce : Vector UInt8 16}
    {pubKey : Vector UInt8 192} {devPwdId : UInt16} {target : TargetInfo} {exchange : Exchange}
    {kdk : Vector UInt8 32}
    (parsed : wpsParseWpsData message = some (signed (sent bigEndian calls) tag))
    (versionAt : calls.find? (·.1 == WpsType.version) = some (WpsType.version, .u8 version))
    (known : knownVersion version = true)
    (typeAt : calls.find? (·.1 == WpsType.msgType) = some (WpsType.msgType, .u8 Message.m2.code))
    (ownAt : calls.find? (·.1 == WpsType.enrolleeNonce) =
      some (WpsType.enrolleeNonce, .bytes exchange.nonce.toList))
    (nonceAt : calls.find? (·.1 == WpsType.registrarNonce) =
      some (WpsType.registrarNonce, .bytes nonce.toList))
    (uuidAt : calls.find? (·.1 == WpsType.uuidR) = some (WpsType.uuidR, .bytes uuid))
    (sixteen : uuid.length = 16)
    (keyAt : calls.find? (·.1 == WpsType.publicKey) =
      some (WpsType.publicKey, .bytes pubKey.toList))
    (pwdAt : calls.find? (·.1 == WpsType.devicePwdId) = some (WpsType.devicePwdId, .u16 devPwdId))
    (described : Described calls)
    (noTag : calls.find? (·.1 == WpsType.authenticator) = none)
    (noSettings : calls.find? (·.1 == WpsType.encrSettings) = none)
    (derived : eapWpsGenerateKdk crypto exchange.dhSecret pubKey exchange.nonce device.mac nonce =
      some kdk)
    (valid : eapWpsHmacValidation crypto exchange.sndMsg message tag
      (Keys.ofDerived (eapWpsKeyDeriveFunc crypto kdk)).authKey = true) :
    ∃ after, eapWpsConfigProcessMessageM2 crypto device message target exchange =
        ⟨some false, after, Keys.ofDerived (eapWpsKeyDeriveFunc crypto kdk)⟩ ∧
      after.nonce = nonce ∧ after.pubKey = pubKey := by
  obtain ⟨after, read, same⟩ := described.read bigEndian [⟨WpsType.authenticator, 8, .ptr tag⟩]
    { TargetInfo.zero with
      version := version
      uuid := bufferOf 16 uuid
      nonce := bufferOf 16 nonce.toList }
  have common : eapWpsConfigProcessMessageM2M2D message exchange.nonce = some after := by
    simp only [eapWpsConfigProcessMessageM2M2D, parsed, signed, bind_eq_bind,
      bind_some, sent_u8 versionAt (by decide), sent_u8 typeAt (by decide), known, ne_eq,
      not_true_eq_false, false_and, or_false, if_false,
      sent_vector ownAt (by decide) (show 16 ≤ 64 by decide),
      sent_vector nonceAt (by decide) (Nat.le_refl 16),
      sent_bytes uuidAt (by omega) (Nat.le_of_eq sixteen), read]
  have nonceSame : after.nonce = nonce := same.nonce.trans (bufferOf_vector nonce)
  have length : wpsGetLength (signed (sent bigEndian calls) tag) WpsType.encrSettings 0 = 0 := by
    rw [wpsGetLength, signed, sent_find_none noSettings]
    rfl
  have type : wpsGetU8 (signed (sent bigEndian calls) tag) WpsType.msgType =
      some Message.m2.code := sent_u8 typeAt (by decide) _
  have key : getPublicKey (signed (sent bigEndian calls) tag) = some pubKey :=
    getPublicKey_sent keyAt _
  have pwd : wpsGetU16 (signed (sent bigEndian calls) tag) WpsType.devicePwdId = some devPwdId :=
    sent_u16 pwdAt _
  refine ⟨{ after with pubKey := pubKey, devPwdId := devPwdId }, ?_, nonceSame, rfl⟩
  simp only [eapWpsConfigProcessMessageM2, parsed, type, ne_eq, not_true_eq_false, if_false, common,
    key, pwd, signed_tag noTag, nonceSame, derived, valid, length, if_true]

theorem m2_accepted {device ownDevice : Device} {random : Random} {password : Password}
    {rcvMsg message : Bytes} {target ownTarget : TargetInfo} {exchange sender own : Exchange}
    (described : device.Described)
    (built : eapWpsConfigBuildMessageM2 crypto device random password rcvMsg target exchange =
      (some message, sender))
    (nonce : target.nonce = own.nonce) (mac : target.mac = ownDevice.mac)
    (last : own.sndMsg = rcvMsg)
    (shared : ∀ pubKey, eapWpsGeneratePublicKey crypto random.secret = some pubKey →
      eapWpsGenerateKdk crypto own.dhSecret pubKey own.nonce ownDevice.mac random.nonce =
        eapWpsGenerateKdk crypto (some random.secret) target.pubKey own.nonce ownDevice.mac
          random.nonce) :
    ∃ pubKey kdk after, eapWpsGeneratePublicKey crypto random.secret = some pubKey ∧
      eapWpsGenerateKdk crypto (some random.secret) target.pubKey own.nonce ownDevice.mac
        random.nonce = some kdk ∧
      sender =
        { exchange with
          nonce := random.nonce, dhSecret := some random.secret, pubKey := pubKey,
          keys := Keys.ofDerived (eapWpsKeyDeriveFunc crypto kdk), sndMsg := message } ∧
      eapWpsConfigProcessMessageM2 crypto ownDevice message ownTarget own =
        ⟨some false, after, Keys.ofDerived (eapWpsKeyDeriveFunc crypto kdk)⟩ ∧
      after.nonce = random.nonce ∧ after.pubKey = pubKey := by
  unfold eapWpsConfigBuildMessageM2 at built
  rw [if_neg described.known.1] at built
  simp only at built
  split at built
  · cases built
  · split at built
    · cases built
    · rename_i pubKey generated
      split at built
      · cases built
      · rename_i wps set
        split at built
        · cases built
        · split at built
          · cases built
          · rename_i kdk derived
            obtain ⟨done, rfl⟩ := Prod.mk.inj built
            obtain ⟨tag, parsed, valid⟩ :=
              message_arrives crypto (Nat.le_of_ble_eq_true rfl) rfl set done
            rw [nonce, mac] at derived
            have agreed := (shared pubKey generated).trans derived
            rw [← last] at valid
            have description : Described (registrarHead device .m2 target.nonce random.nonce ++
                [(WpsType.publicKey, .bytes pubKey.toList)] ++ commonM2M2D device ++
                [(WpsType.devicePwdId, .u16 password.devPwdId),
                  (WpsType.osVersion, .u32 device.osVersion)]) := by
              refine ⟨⟨_, rfl⟩, ⟨_, rfl⟩, ⟨_, rfl⟩, ⟨_, rfl⟩, ?_, ⟨_, rfl⟩, ⟨_, rfl⟩, ⟨_, rfl⟩,
                ⟨_, rfl⟩, ⟨_, rfl⟩⟩
              intro type mem
              simp only [mem_cons, not_mem_nil, or_false] at mem
              rcases mem with rfl | rfl | rfl | rfl | rfl
              · exact ⟨_, rfl, described.manufacturer.padded_length⟩
              · exact ⟨_, rfl, described.modelName.padded_length⟩
              · exact ⟨_, rfl, described.modelNumber.padded_length⟩
              · exact ⟨_, rfl, described.serialNumber.padded_length⟩
              · exact ⟨_, rfl, described.devName.padded_length⟩
            rw [nonce] at parsed description
            obtain ⟨after, processed, sameNonce, sameKey⟩ := @processM2_sent crypto _ _ ownDevice _
              _ _ _ random.nonce pubKey _ ownTarget own kdk parsed rfl described.known.2 rfl rfl rfl
              rfl (ownUuid_length device) rfl rfl description rfl rfl agreed valid
            refine ⟨pubKey, kdk, after, generated, derived, ?_, processed, sameNonce, sameKey⟩
            rw [done]
            rfl

/-! ## M3 -/

variable {tag received plain : Bytes}

theorem authenticated_signed {message : Bytes}
    (absent : calls.find? (·.1 == WpsType.authenticator) = none)
    (valid : eapWpsHmacValidation crypto exchange.sndMsg message tag exchange.keys.authKey = true) :
    authenticated crypto message exchange (signed (sent bigEndian calls) tag) = true := by
  rw [authenticated, signed_tag absent]
  exact valid

theorem processM3_sent {message : Bytes} {hash1 hash2 : Vector UInt8 32} {target : TargetInfo}
    (parsed : wpsParseWpsData message = some (signed (sent bigEndian calls) tag))
    (typeAt : calls.find? (·.1 == WpsType.msgType) = some (WpsType.msgType, .u8 Message.m3.code))
    (nonceAt : calls.find? (·.1 == WpsType.registrarNonce) =
      some (WpsType.registrarNonce, .bytes exchange.nonce.toList))
    (hash1At : calls.find? (·.1 == WpsType.eHash1) = some (WpsType.eHash1, .bytes hash1.toList))
    (hash2At : calls.find? (·.1 == WpsType.eHash2) = some (WpsType.eHash2, .bytes hash2.toList))
    (noTag : calls.find? (·.1 == WpsType.authenticator) = none)
    (valid : eapWpsHmacValidation crypto exchange.sndMsg message tag exchange.keys.authKey = true) :
    eapWpsConfigProcessMessageM3 crypto message exchange target =
      (.ok, { target with hash1 := hash1, hash2 := hash2 }) := by
  have type : wpsGetU8 (signed (sent bigEndian calls) tag) WpsType.msgType =
      some Message.m3.code := sent_u8 typeAt (by decide) _
  have nonce : wpsGetBytes (signed (sent bigEndian calls) tag) WpsType.registrarNonce 64 =
      some exchange.nonce.toList := sent_vector nonceAt (by decide) (by decide) _
  have first : wpsGetBytes (signed (sent bigEndian calls) tag) WpsType.eHash1 32 =
      some hash1.toList := sent_vector hash1At (by decide) (Nat.le_refl 32) _
  have second : wpsGetBytes (signed (sent bigEndian calls) tag) WpsType.eHash2 32 =
      some hash2.toList := sent_vector hash2At (by decide) (Nat.le_refl 32) _
  simp only [eapWpsConfigProcessMessageM3, parsed, bind_eq_bind, bind_some, type,
    nonce, and_self, if_true, first, second, authenticated_signed crypto noTag valid,
    bufferOf_vector]

theorem m3_accepted {device : Device} {random : Random} {password after : Password}
    {rcvMsg message : Bytes} {target ownTarget : TargetInfo} {exchange sender own : Exchange}
    (described : device.Described) (nonempty : password.devPwd ≠ [])
    (built : eapWpsConfigBuildMessageM3 crypto device random rcvMsg target password exchange =
      (some message, sender, after))
    (nonce : target.nonce = own.nonce) (keys : own.keys = exchange.keys)
    (last : own.sndMsg = rcvMsg) :
    after = password ∧
      sender = { proveHalves crypto random password exchange.pubKey target.pubKey exchange with
        sndMsg := message } ∧
      eapWpsConfigProcessMessageM3 crypto message own ownTarget =
        (.ok, { ownTarget with hash1 := sender.half1.hash, hash2 := sender.half2.hash }) := by
  unfold eapWpsConfigBuildMessageM3 at built
  rw [if_neg described.known.1] at built
  simp only [ensurePassword, if_pos nonempty] at built
  obtain ⟨done, rest⟩ := Prod.mk.inj built
  obtain ⟨senderIs, rfl⟩ := Prod.mk.inj rest
  obtain ⟨wps, set, signs⟩ := bind_eq_some_iff.mp (show Option.bind _ _ = some message from done)
  obtain ⟨tag, parsed, valid⟩ := message_arrives crypto (Nat.le_of_ble_eq_true rfl) rfl set signs
  have shape : sender = { proveHalves crypto random password exchange.pubKey target.pubKey exchange
      with sndMsg := message } := by
    rw [← senderIs, keepMessage]
    simp only [keepMessage] at done
    simp only [done]
    rfl
  refine ⟨rfl, shape, ?_⟩
  rw [nonce] at parsed
  rw [← last] at valid
  have same : own.keys.authKey = exchange.keys.authKey := congrArg Keys.authKey keys
  rw [shape]
  exact processM3_sent crypto parsed rfl rfl rfl rfl rfl (by rw [same]; exact valid)

/-! ## M4 to M8 -/

theorem openMessage_signed {version : UInt8} {message : Message}
    (parsed : wpsParseWpsData received = some (signed (sent bigEndian calls) tag))
    (versionAt : calls.find? (·.1 == WpsType.version) = some (WpsType.version, .u8 version))
    (known : knownVersion version = true)
    (typeAt : calls.find? (·.1 == WpsType.msgType) = some (WpsType.msgType, .u8 message.code))
    (nonceAt : calls.find? (·.1 == nonceType) = some (nonceType, .bytes nonce.toList)) :
    openMessage received message nonceType nonce = some (signed (sent bigEndian calls) tag) := by
  have versionIs : wpsGetU8 (signed (sent bigEndian calls) tag) WpsType.version = some version :=
    sent_u8 versionAt (by decide) _
  have typeIs : wpsGetU8 (signed (sent bigEndian calls) tag) WpsType.msgType =
      some message.code := sent_u8 typeAt (by decide) _
  have nonceIs : wpsGetBytes (signed (sent bigEndian calls) tag) nonceType 16 =
      some nonce.toList := sent_vector nonceAt (by decide) (Nat.le_refl 16) _
  simp only [openMessage, parsed, bind_eq_bind, bind_some, versionIs, typeIs, nonceIs,
    known, and_self, if_true]

structure Delivered (crypto : Crypto) (exchange : Exchange) (message : Message) (nonceType : Nat)
    (nonce : Option (Nat × Vector UInt8 16)) (attrs : WpsData) (head : List (Nat × Source))
    (received : Bytes) : Prop where
  opened : ∃ wps settings, openMessage received message nonceType exchange.nonce = some wps ∧
    (∀ type value, head.find? (·.1 == type) = some (type, .bytes value) → value.length < 65536 →
      ∀ capacity, value.length ≤ capacity → wpsGetBytes wps type capacity = some value) ∧
    authenticated crypto received exchange wps = true ∧
    openSettings crypto wps exchange.keys = some (wpsWriteWpsData settings) ∧
    (∃ added tag, (added = [] ∨ added = [emptyNwKey]) ∧
      settings = nonceAttribute nonce ++ attrs ++ added ++ [⟨WpsType.keyWrapAuth, 8, .ptr tag⟩]) ∧
    wpsParseWpsData (wpsWriteWpsData settings) = some settings ∧
    eapWpsEncrsettingsValidation crypto (wpsWriteWpsData settings) exchange.keys.authKey
      (nonce.map Prod.fst) = some ((nonce.map fun nonce => nonce.2.toList).getD [])

variable {head : List (Nat × Source)}

theorem find_append {rest : List (Nat × Source)} {call : Nat × Source}
    (found : head.find? (·.1 == type) = some call) :
    (head ++ rest).find? (·.1 == type) = some call := by
  rw [find?_append, found]
  rfl

theorem openSettings_signed {encrs : Bytes} {keys : Keys}
    (found : calls.find? (·.1 == WpsType.encrSettings) = some (WpsType.encrSettings, .bytes encrs))
    (sized : 0 < encrs.length ∧ encrs.length < 65536)
    (opens : eapWpsDecryptData crypto (encrs.take 16) (encrs.drop 16) keys.keyWrapKey = some plain) :
    openSettings crypto (signed (sent bigEndian calls) tag) keys = some plain := by
  have length : wpsGetLength (signed (sent bigEndian calls) tag) WpsType.encrSettings 0 =
      encrs.length := sent_bytes_length found sized.2 _
  have bytes : wpsGetBytes (signed (sent bigEndian calls) tag) WpsType.encrSettings encrs.length =
      some encrs := sent_bytes found sized.2 (Nat.le_refl _) _
  have positive : ¬encrs.length = 0 := Nat.ne_of_gt sized.1
  simp only [openSettings, length, if_neg positive, bytes, bind_eq_bind, bind_some, opens]

/-- The message before the one that is built is the last one of the receiver. -/
structure Awaits (own exchange : Exchange) (target : TargetInfo) (rcvMsg : Bytes) : Prop where
  nonce : target.nonce = own.nonce
  keys : own.keys = exchange.keys
  last : own.sndMsg = rcvMsg

theorem settings_delivered
    (inverse : ∀ key block, crypto.aesDecrypt key (crypto.aesEncrypt key block) = block)
    {iv : Vector UInt8 16} {rcvMsg : Bytes} {target : TargetInfo}
    {nonce : Option (Nat × Vector UInt8 16)} (message : Message) (nonceType : Nat)
    (described : device.Described) (carried : Carried attrs)
    (other : ∀ type value, nonce = some (type, value) → type ≠ WpsType.keyWrapAuth)
    (few : head.length ≤ 100)
    (versionAt : head.find? (·.1 == WpsType.version) = some (WpsType.version, .u8 device.version))
    (typeAt : head.find? (·.1 == WpsType.msgType) = some (WpsType.msgType, .u8 message.code))
    (nonceAt : head.find? (·.1 == nonceType) = some (nonceType, .bytes target.nonce.toList))
    (noTag : head.find? (·.1 == WpsType.authenticator) = none)
    (noSettings : head.find? (·.1 == WpsType.encrSettings) = none)
    (built : buildSettingsMessage crypto device iv rcvMsg head nonce (wpsWriteWpsData attrs)
      exchange = (some received, sender)) (awaits : Awaits own exchange target rcvMsg) :
    sender = { exchange with sndMsg := received } ∧
      Delivered crypto own message nonceType nonce attrs head received := by
  unfold buildSettingsMessage keepMessage at built
  obtain ⟨done, rfl⟩ := Prod.mk.inj built
  constructor
  · rw [done]
    rfl
  · obtain ⟨encrs, made, done⟩ := bind_eq_some_iff.mp done
    obtain ⟨wps, set, done⟩ := bind_eq_some_iff.mp done
    have seals := eapWpsEncrsettingsCreation_opens crypto inverse carried other made
    obtain ⟨added, kwa, alternatives, opens, settingsParsed, validated⟩ := seals.opened
    have tagAbsent : (head ++ [(WpsType.encrSettings, Source.bytes encrs)]).find?
        (·.1 == WpsType.authenticator) = none := by
      rw [find?_append, noTag]
      rfl
    have settingsAt : (head ++ [(WpsType.encrSettings, Source.bytes encrs)]).find?
        (·.1 == WpsType.encrSettings) = some (WpsType.encrSettings, .bytes encrs) := by
      rw [find?_append, noSettings]
      rfl
    have short : (head ++ [(WpsType.encrSettings, Source.bytes encrs)]).length < 255 := by
      rw [length_append, length_singleton]
      omega
    obtain ⟨tag, parsed, valid⟩ := message_arrives crypto short tagAbsent set done
    rw [← awaits.last, ← awaits.keys] at valid
    rw [← awaits.keys] at opens validated
    rw [awaits.nonce] at nonceAt
    refine ⟨_, _, openMessage_signed parsed (find_append versionAt) described.known.2
      (find_append typeAt) (find_append nonceAt), ?_, authenticated_signed crypto tagAbsent valid,
      openSettings_signed crypto settingsAt seals.sized opens, ⟨added, kwa, alternatives, rfl⟩,
      settingsParsed, validated⟩
    intro type value found small capacity room
    exact sent_bytes (find_append found) small room _

theorem carried_nil : Carried [] :=
  ⟨by simp, by simp, fun present => absurd rfl present, rfl, Nat.zero_le _⟩

theorem settingsNonce_eq {nonce : Bytes}
    (opens : openSettings crypto wps exchange.keys = some plain)
    (validated : eapWpsEncrsettingsValidation crypto plain exchange.keys.authKey (some type) =
      some nonce) : settingsNonce crypto exchange wps type = some (plain, nonce) := by
  simp only [settingsNonce, opens, validated, bind_eq_bind, bind_some]

theorem notKeyWrapAuth (distinct : nonceType ≠ WpsType.keyWrapAuth) :
    ∀ type value, some (nonceType, nonce) = some (type, value) → type ≠ WpsType.keyWrapAuth := by
  intro type value same
  cases same
  exact distinct

section

variable {random : Random} {password : Password} {target : TargetInfo} (ownTarget : TargetInfo)
  (inverse : ∀ key block, crypto.aesDecrypt key (crypto.aesEncrypt key block) = block)
  (described : device.Described) (awaits : Awaits own exchange target rcvMsg)

include inverse described awaits

theorem m4_processed
    (built : eapWpsConfigBuildMessageM4 crypto device random rcvMsg target password exchange =
      (some message, sender)) :
    sender = { proveHalves crypto random password target.pubKey exchange.pubKey exchange with
        sndMsg := message } ∧
      eapWpsConfigProcessMessageM4 crypto message own ownTarget =
        let after := { ownTarget with hash1 := sender.half1.hash, hash2 := sender.half2.hash }
        if eapWpsHashValidation crypto sender.half1.hash sender.half1.snonce.toList own.half1.psk
            own.pubKey ownTarget.pubKey own.keys.authKey then
          (.ok, after)
        else
          (.wrongHash, { after with configError := devPwdAuthFail }) := by
  unfold eapWpsConfigBuildMessageM4 at built
  split at built
  · cases built
  · obtain ⟨rfl, delivered⟩ := settings_delivered crypto inverse .m4 WpsType.enrolleeNonce described
      carried_nil (notKeyWrapAuth (by decide)) (Nat.le_of_ble_eq_true rfl) rfl rfl
      rfl rfl rfl built { awaits with }
    refine ⟨rfl, ?_⟩
    obtain ⟨wps, settings, opened, given, signs, opens, -, -, validated⟩ := delivered.opened
    have first := given WpsType.rHash1 _ rfl (by rw [Vector.length_toList]; decide) 32
      (Nat.le_of_eq Vector.length_toList)
    have second := given WpsType.rHash2 _ rfl (by rw [Vector.length_toList]; decide) 32
      (Nat.le_of_eq Vector.length_toList)
    simp only [eapWpsConfigProcessMessageM4, opened, first, second,
      settingsNonce_eq crypto opens validated, signs, not_true_eq_false, if_false, bufferOf_vector]
    rfl

theorem m5_processed
    (built : eapWpsConfigBuildMessageM5 crypto device random rcvMsg target exchange =
      (some message, sender)) :
    sender = { exchange with sndMsg := message } ∧
      eapWpsConfigProcessMessageM5 crypto message own ownTarget =
        if eapWpsHashValidation crypto ownTarget.hash1 exchange.half1.snonce.toList own.half1.psk
            ownTarget.pubKey own.pubKey own.keys.authKey then
          (.ok, ownTarget)
        else
          (.wrongHash, ownTarget) := by
  unfold eapWpsConfigBuildMessageM5 at built
  rw [if_neg described.known.1] at built
  obtain ⟨rfl, delivered⟩ := settings_delivered crypto inverse .m5 WpsType.registrarNonce described
    carried_nil (notKeyWrapAuth (by decide)) (Nat.le_of_ble_eq_true rfl) rfl rfl
    rfl rfl rfl built awaits
  refine ⟨rfl, ?_⟩
  obtain ⟨wps, settings, opened, -, signs, opens, -, -, validated⟩ := delivered.opened
  simp only [eapWpsConfigProcessMessageM5, opened, settingsNonce_eq crypto opens validated, signs,
    not_true_eq_false, if_false]
  rfl

theorem m6_processed
    (built : eapWpsConfigBuildMessageM6 crypto device random rcvMsg target exchange =
      (some message, sender)) :
    sender = { exchange with sndMsg := message } ∧
      eapWpsConfigProcessMessageM6 crypto message own ownTarget =
        if eapWpsHashValidation crypto ownTarget.hash2 exchange.half2.snonce.toList own.half2.psk
            own.pubKey ownTarget.pubKey own.keys.authKey then
          (.ok, ownTarget)
        else
          (.wrongHash, { ownTarget with configError := devPwdAuthFail }) := by
  unfold eapWpsConfigBuildMessageM6 at built
  rw [if_neg described.known.1] at built
  obtain ⟨rfl, delivered⟩ := settings_delivered crypto inverse .m6 WpsType.enrolleeNonce described
    carried_nil (notKeyWrapAuth (by decide)) (Nat.le_of_ble_eq_true rfl) rfl rfl
    rfl rfl rfl built awaits
  refine ⟨rfl, ?_⟩
  obtain ⟨wps, settings, opened, -, signs, opens, -, -, validated⟩ := delivered.opened
  simp only [eapWpsConfigProcessMessageM6, opened, settingsNonce_eq crypto opens validated, signs,
    not_true_eq_false, if_false]
  rfl

theorem m7_processed (carried : Carried attrs)
    (built : eapWpsConfigBuildMessageM7 crypto device random rcvMsg target (wpsWriteWpsData attrs)
      exchange = (some message, sender))
    (proved : eapWpsHashValidation crypto ownTarget.hash2 exchange.half2.snonce.toList own.half2.psk
      ownTarget.pubKey own.pubKey own.keys.authKey = true) :
    sender = { exchange with sndMsg := message } ∧
      ∃ config, eapWpsConfigProcessMessageM7 crypto message own ownTarget =
        (.ok, { ownTarget with config := some config }) := by
  unfold eapWpsConfigBuildMessageM7 at built
  rw [if_neg described.known.1] at built
  obtain ⟨rfl, delivered⟩ := settings_delivered crypto inverse .m7 WpsType.registrarNonce described
    carried (notKeyWrapAuth (by decide)) (Nat.le_of_ble_eq_true rfl) rfl rfl
    rfl rfl rfl built awaits
  refine ⟨rfl, ?_⟩
  obtain ⟨wps, settings, opened, -, signs, opens, -, -, validated⟩ := delivered.opened
  simp only [map_some, getD_some] at validated
  simp only [eapWpsConfigProcessMessageM7, opened, opens, validated, signs, not_true_eq_false,
    if_false, proved, if_true]
  exact ⟨_, rfl⟩

theorem m8_processed (carried : Carried attrs)
    (built : eapWpsConfigBuildMessageM8 crypto device random rcvMsg target (wpsWriteWpsData attrs)
      exchange = (some message, sender)) :
    ∃ settings added tag, eapWpsConfigProcessMessageM8 crypto message own ownTarget =
        (.ok, { ownTarget with config := some settings }) ∧
      wpsParseWpsData settings = some (attrs ++ added ++ [⟨WpsType.keyWrapAuth, 8, .ptr tag⟩]) ∧
      (added = [] ∨ added = [emptyNwKey]) := by
  unfold eapWpsConfigBuildMessageM8 at built
  rw [if_neg described.known.1] at built
  obtain ⟨rfl, delivered⟩ := settings_delivered crypto inverse .m8 WpsType.enrolleeNonce described
    carried (fun _ _ none => by cases none) (Nat.le_of_ble_eq_true rfl) rfl rfl
    rfl rfl rfl built awaits
  obtain ⟨wps, settings, opened, -, signs, opens, ⟨added, tag, alternatives, shape⟩, parsed,
    validated⟩ := delivered.opened
  simp only [map_none, getD_none] at validated
  refine ⟨wpsWriteWpsData settings, added, tag, ?_, ?_, alternatives⟩
  · simp only [eapWpsConfigProcessMessageM8, opened, opens, validated, signs, if_true]
  · rw [parsed, shape]
    rfl

end

/-! ## The peers -/

/-- What the messages rest on: decryption is inverse to encryption, and both
sides of the key exchange compute the same number. -/
structure SoundCrypto (crypto : Crypto) : Prop where
  inverse : ∀ key block, crypto.aesDecrypt key (crypto.aesEncrypt key block) = block
  commutes : ∀ secret other pubKey otherKey, eapWpsGeneratePublicKey crypto secret = some pubKey →
    eapWpsGeneratePublicKey crypto other = some otherKey →
    fixedSize (crypto.modExp otherKey.toList secret.toList dhPValue) =
      fixedSize (crypto.modExp pubKey.toList other.toList dhPValue)

theorem fixedSize_number {value : Nat} {key : Vector UInt8 192} (small : value < 256 ^ 192)
    (made : fixedSize (unsignedBin 192 value) = some key) :
    Lib.Sha256.number key.toList = value := by
  unfold fixedSize at made
  split at made
  · rename_i sized
    cases made
    have whole : (List.replicate (192 - (unsignedBin 192 value).length) 0 ++
        unsignedBin 192 value).length = 192 := by
      rw [length_append, length_replicate]
      omega
    rw [bufferOf_toList whole, Lib.Sha256.number_replicate, unsignedBin,
      Lib.Sha256.number_dropWhile, Lib.Sha256.number_bigEndian, Nat.mod_eq_of_lt small]
  · cases made

theorem modExp_commutes {crypto : Crypto} (internal : crypto.modExp = Crypto.internal.modExp)
    (generated : eapWpsGeneratePublicKey crypto secret = some pubKey)
    (otherGenerated : eapWpsGeneratePublicKey crypto other = some otherKey) :
    fixedSize (crypto.modExp otherKey.toList secret.toList dhPValue) =
      fixedSize (crypto.modExp pubKey.toList other.toList dhPValue) := by
  have size : dhPValue.length = 192 := by decide +kernel
  have bound := Lib.Sha256.number_lt dhPValue
  rw [size] at bound
  have positive : 0 < Lib.Sha256.number dhPValue := by decide +kernel
  have reduced : ∀ value, value % Lib.Sha256.number dhPValue < 256 ^ 192 :=
    fun value => Nat.lt_trans (Nat.mod_lt value positive) bound
  simp only [eapWpsGeneratePublicKey, internal, Crypto.internal, size] at generated otherGenerated
  simp only [internal, Crypto.internal, size, fixedSize_number (reduced _) generated,
    fixedSize_number (reduced _) otherGenerated]
  rw [← Nat.pow_mod, ← Nat.pow_mod, ← Nat.pow_mul, ← Nat.pow_mul, Nat.mul_comm]

/-- A side of a session before M1: the password fills at most `dev_pwd`, and the
configuration is the one that `eap_wps_config_get_ssid_configuration` gives. -/
structure Peer.Ready (peer : Peer) (wrapCredential : Bool) : Prop where
  described : peer.device.Described
  password : 0 < peer.password.devPwd.length ∧ peer.password.devPwd.length ≤ 64
  config : ∃ env bss invented autoconfig encrTypeFlags,
    env.Serves peer.device.bigEndian bss invented ∧
    eapWpsConfigGetSsidConfiguration peer.device env autoconfig encrTypeFlags wrapCredential =
      some peer.config

variable {wrapCredential : Bool}

theorem Peer.Ready.nonempty {peer : Peer} (ready : peer.Ready wrapCredential) :
    peer.password.devPwd ≠ [] :=
  length_pos_iff.mp ready.password.1

theorem exchangeMessages_step {message : Message} {sender receiver : Peer}
    (complete : ∀ unbuilt, exchangeMessages crypto random (message :: rest) sender receiver ≠
      .unbuilt unbuilt) :
    ∃ received after, sender.build crypto (random message) message = (some received, after) ∧
      (∀ next, receiver.process crypto received message = (true, next) →
        exchangeMessages crypto random (message :: rest) sender receiver =
          exchangeMessages crypto random rest next after) ∧
      ((receiver.process crypto received message).1 = false →
        exchangeMessages crypto random (message :: rest) sender receiver = .rejected message) := by
  cases built : sender.build crypto (random message) message with
  | mk made after =>
    cases made with
    | none =>
      refine absurd ?_ (complete message)
      simp only [exchangeMessages, built]
    | some received =>
      refine ⟨received, after, rfl, ?_, ?_⟩
      · intro next processed
        simp only [exchangeMessages, built, processed]
      · intro refused
        cases processed : receiver.process crypto received message with
        | mk accepted next =>
          rw [processed] at refused
          simp only at refused
          simp only [exchangeMessages, built, processed, refused]

def Kept (before after : Peer) : Prop :=
  after.device = before.device ∧ after.password = before.password ∧ after.config = before.config

/-- The public keys and the keys that M1 and M2 lead to. -/
structure Agreed where
  keyE : Vector UInt8 192
  keyR : Vector UInt8 192
  keys : Keys

def agreedKeys (random : Message → Random) (enrollee : Device) : Option Agreed := do
  let keyE ← eapWpsGeneratePublicKey crypto (random .m1).secret
  let keyR ← eapWpsGeneratePublicKey crypto (random .m2).secret
  let kdk ← eapWpsGenerateKdk crypto (some (random .m2).secret) keyE (random .m1).nonce enrollee.mac
    (random .m2).nonce
  some ⟨keyE, keyR, Keys.ofDerived (eapWpsKeyDeriveFunc crypto kdk)⟩

/-- What both sides know of each other from M2 on. -/
structure Paired (first second : Peer) (agreed : Agreed) (enrollee registrar : Peer) : Prop where
  keptE : Kept first enrollee
  keptR : Kept second registrar
  nonces : registrar.target.nonce = enrollee.exchange.nonce ∧
    enrollee.target.nonce = registrar.exchange.nonce
  keyE : enrollee.exchange.pubKey = agreed.keyE ∧ registrar.target.pubKey = agreed.keyE
  keyR : registrar.exchange.pubKey = agreed.keyR ∧ enrollee.target.pubKey = agreed.keyR
  keys : enrollee.exchange.keys = agreed.keys ∧ registrar.exchange.keys = agreed.keys

variable {agreed : Agreed}

theorem Paired.registrarAwaits (paired : Paired first second agreed enrollee registrar)
    (turn : registrar.exchange.sndMsg = enrollee.rcvMsg) :
    Awaits registrar.exchange enrollee.exchange enrollee.target enrollee.rcvMsg :=
  ⟨paired.nonces.2, paired.keys.2.trans paired.keys.1.symm, turn⟩

theorem Paired.enrolleeAwaits (paired : Paired first second agreed enrollee registrar)
    (turn : enrollee.exchange.sndMsg = registrar.rcvMsg) :
    Awaits enrollee.exchange registrar.exchange registrar.target registrar.rcvMsg :=
  ⟨paired.nonces.1, paired.keys.1.trans paired.keys.2.symm, turn⟩

theorem SoundCrypto.shared {crypto : Crypto} (sound : SoundCrypto crypto)
    {eNonce rNonce : Vector UInt8 16} {mac : Vector UInt8 6}
    (generated : eapWpsGeneratePublicKey crypto secret = some pubKey)
    (otherGenerated : eapWpsGeneratePublicKey crypto other = some otherKey) :
    eapWpsGenerateKdk crypto (some secret) otherKey eNonce mac rNonce =
      eapWpsGenerateKdk crypto (some other) pubKey eNonce mac rNonce := by
  simp only [eapWpsGenerateKdk, bind_eq_bind, bind_some,
    sound.commutes secret other pubKey otherKey generated otherGenerated]

theorem opening (sound : SoundCrypto crypto)
    {enrollee registrar : Peer} (describedE : enrollee.device.Described)
    (describedR : registrar.device.Described)
    (complete : ∀ unbuilt, exchangeMessages crypto random (.m1 :: .m2 :: rest) enrollee registrar ≠
      .unbuilt unbuilt) :
    ∃ agreed nextE nextR, agreedKeys crypto random enrollee.device = some agreed ∧
      exchangeMessages crypto random (.m1 :: .m2 :: rest) enrollee registrar =
        exchangeMessages crypto random rest nextE nextR ∧
      Paired enrollee registrar agreed nextE nextR ∧ nextR.exchange.sndMsg = nextE.rcvMsg := by
  obtain ⟨m1, afterE, built1, accepted1, -⟩ := exchangeMessages_step crypto complete
  obtain ⟨made1, rfl⟩ := Prod.mk.inj built1
  obtain ⟨keyE, generatedE, exchangeE, target, processed1, nonceE, targetKey, mac, -⟩ :=
    m1_accepted crypto describedE made1
  have step1 := accepted1 { registrar with rcvMsg := m1, target := target }
    (by simp only [Peer.process, processed1])
  rw [exchangeE] at step1
  rw [step1] at complete ⊢
  obtain ⟨m2, afterR, built2, accepted2, -⟩ := exchangeMessages_step crypto complete
  cases made2 : eapWpsConfigBuildMessageM2 crypto registrar.device (random .m2) registrar.password m1
    target registrar.exchange with
  | mk message sender =>
    simp only [Peer.build, made2] at built2
    obtain ⟨rfl, rfl⟩ := Prod.mk.inj built2
    obtain ⟨keyR, kdk, after, generatedR, derived, rfl, processed2, nonceR, afterKey⟩ :=
      @m2_accepted crypto _ enrollee.device _ _ _ _ _ enrollee.target _ _
        { enrollee.exchange with
          nonce := (random .m1).nonce
          dhSecret := some (random .m1).secret
          pubKey := keyE
          sndMsg := m1 } describedR made2 nonceE mac rfl (by
        intro keyR generatedR
        rw [targetKey]
        exact sound.shared generatedE generatedR)
    have step2 := accepted2 _ (by simp only [Peer.process, processed2]; rfl)
    rw [targetKey] at derived
    refine ⟨⟨keyE, keyR, Keys.ofDerived (eapWpsKeyDeriveFunc crypto kdk)⟩, _, _, ?_, step2,
      ⟨⟨rfl, rfl, rfl⟩, ⟨rfl, rfl, rfl⟩, ⟨nonceE, nonceR⟩, ⟨rfl, targetKey⟩, ⟨rfl, afterKey⟩,
      rfl, rfl⟩, rfl⟩
    simp only [agreedKeys, generatedE, generatedR, derived, bind_eq_bind, bind_some]

/-! ## The halves of the password -/

def proofOf (agreed : Agreed) (es : Vector UInt8 16) (half : Bytes) : Half :=
  eapWpsGenerateHash crypto half agreed.keyE agreed.keyR agreed.keys.authKey es

/-- A side has sent the hashes over both halves of its password. -/
structure Proves (crypto : Crypto) (random : Random) (agreed : Agreed) (password : Bytes)
    (prover verifier : Peer) : Prop where
  half1 : prover.exchange.half1 = proofOf crypto agreed random.snonce1 (firstHalf password)
  half2 : prover.exchange.half2 = proofOf crypto agreed random.snonce2 (secondHalf password)
  hash1 : verifier.target.hash1 = prover.exchange.half1.hash
  hash2 : verifier.target.hash2 = prover.exchange.half2.hash

/-- Both sides have sent their hashes. -/
structure Pledged (random : Message → Random) (first second : Peer) (agreed : Agreed)
    (enrollee registrar : Peer) : Prop extends Paired first second agreed enrollee registrar where
  proofE : Proves crypto (random .m3) agreed first.password.devPwd enrollee registrar
  proofR : Proves crypto (random .m4) agreed second.password.devPwd registrar enrollee

def accepts (agreed : Agreed) (proof own : Half) : Bool :=
  eapWpsHashValidation crypto proof.hash proof.snonce.toList own.psk agreed.keyE agreed.keyR
    agreed.keys.authKey

theorem accepts_same (agreed : Agreed) (es other : Vector UInt8 16) (half : Bytes) :
    accepts crypto agreed (proofOf crypto agreed es half) (proofOf crypto agreed other half) =
      true :=
  beq_self_eq_true _

/-- No two of the texts have codes that begin with the same sixteen bytes. -/
def CollisionFree (authKey : Vector UInt8 32) (texts : List Bytes) : Prop :=
  ∀ left ∈ texts, ∀ right ∈ texts, (crypto.hmacSha256 authKey.toList left).toList.take 16 =
      (crypto.hmacSha256 authKey.toList right).toList.take 16 → left = right

def hashedTexts (agreed : Agreed) (es : Vector UInt8 16) (half : Bytes) :
    List Bytes :=
  [half, es.toList ++ (proofOf crypto agreed es half).psk.toList ++ agreed.keyE.toList ++
    agreed.keyR.toList]

instance (authKey : Vector UInt8 32) (texts : List Bytes) :
    Decidable (CollisionFree crypto authKey texts) :=
  inferInstanceAs (Decidable (∀ left ∈ texts, ∀ right ∈ texts,
    (crypto.hmacSha256 authKey.toList left).toList.take 16 =
      (crypto.hmacSha256 authKey.toList right).toList.take 16 → left = right))

theorem accepts_other {half other : Bytes} {agreed : Agreed} {es es' : Vector UInt8 16}
    {texts : List Bytes} (free : CollisionFree crypto agreed.keys.authKey texts)
    (own : ∀ text ∈ hashedTexts crypto agreed es half, text ∈ texts)
    (others : ∀ text ∈ hashedTexts crypto agreed es other, text ∈ texts)
    (distinct : half ≠ other) :
    accepts crypto agreed (proofOf crypto agreed es other) (proofOf crypto agreed es' half) =
      false := by
  apply Bool.eq_false_iff.mpr
  intro valid
  have same : (proofOf crypto agreed es other).hash =
      hashOf crypto es.toList (proofOf crypto agreed es half).psk.toList agreed.keyE agreed.keyR
        agreed.keys.authKey := beq_iff_eq.mp valid
  have texts := free _ (others _ (mem_cons_of_mem _ (mem_singleton.mpr rfl))) _
    (own _ (mem_cons_of_mem _ (mem_singleton.mpr rfl)))
    (congrArg (fun hash : Vector UInt8 32 => hash.toList.take 16) same)
  -- the nonces and the public keys are the same, so the keys made of the halves are
  have psks := append_cancel_left (append_cancel_right (append_cancel_right texts))
  have sixteen : ∀ text,
      ((crypto.hmacSha256 agreed.keys.authKey.toList text).toList.take 16).length = 16 := by
    intro text
    rw [length_take, Vector.length_toList]
    rfl
  simp only [proofOf, eapWpsGenerateHash, bufferOf_toList (sixteen _)] at psks
  exact distinct (free half (own _ mem_cons_self) other (others _ mem_cons_self) psks.symm)

/-! ## M3 to M8 -/

theorem third (described : first.device.Described) (nonempty : first.password.devPwd ≠ [])
    (paired : Paired first second agreed enrollee registrar)
    (turn : registrar.exchange.sndMsg = enrollee.rcvMsg)
    (complete : ∀ unbuilt, exchangeMessages crypto random (.m3 :: rest) enrollee registrar ≠
      .unbuilt unbuilt) :
    ∃ nextE nextR, exchangeMessages crypto random (.m3 :: rest) enrollee registrar =
        exchangeMessages crypto random rest nextR nextE ∧
      Paired first second agreed nextE nextR ∧ nextE.exchange.sndMsg = nextR.rcvMsg ∧
      Proves crypto (random .m3) agreed first.password.devPwd nextE nextR := by
  obtain ⟨m3, after, built, accepted, -⟩ := exchangeMessages_step crypto complete
  cases made : eapWpsConfigBuildMessageM3 crypto enrollee.device (random .m3) enrollee.rcvMsg
    enrollee.target enrollee.password enrollee.exchange with
  | mk message written =>
    obtain ⟨sender, password⟩ := written
    simp only [Peer.build, made] at built
    obtain ⟨rfl, rfl⟩ := Prod.mk.inj built
    rw [← paired.keptE.1] at described
    rw [← paired.keptE.2.1] at nonempty
    obtain ⟨rfl, shape, processed⟩ := @m3_accepted crypto _ _ _ _ _ _ _ registrar.target _ _
      registrar.exchange described nonempty made paired.nonces.2
      (paired.keys.2.trans paired.keys.1.symm) turn
    have step := accepted _ (by simp only [Peer.process, Peer.process.verdict, processed]; rfl)
    subst shape
    refine ⟨_, _, step, { paired with }, rfl, ?_, ?_, rfl, rfl⟩
    · simp only [proveHalves, proofOf, paired.keptE.2.1, paired.keyE.1, paired.keyR.2,
        paired.keys.1]
    · simp only [proveHalves, proofOf, paired.keptE.2.1, paired.keyE.1, paired.keyR.2,
        paired.keys.1]

theorem fourth (sound : SoundCrypto crypto) (described : second.device.Described)
    (paired : Paired first second agreed enrollee registrar)
    (turn : enrollee.exchange.sndMsg = registrar.rcvMsg)
    (proof : Proves crypto (random .m3) agreed first.password.devPwd enrollee registrar)
    (complete : ∀ unbuilt, exchangeMessages crypto random (.m4 :: rest) registrar enrollee ≠
      .unbuilt unbuilt) :
    ∃ nextE nextR, exchangeMessages crypto random (.m4 :: rest) registrar enrollee =
        (if accepts crypto agreed
            (proofOf crypto agreed (random .m4).snonce1 (firstHalf second.password.devPwd))
            (proofOf crypto agreed (random .m3).snonce1 (firstHalf first.password.devPwd)) then
          exchangeMessages crypto random rest nextE nextR
        else .rejected .m4) ∧
      Pledged crypto random first second agreed nextE nextR ∧
      nextR.exchange.sndMsg = nextE.rcvMsg := by
  obtain ⟨m4, after, built, accepted, refused⟩ := exchangeMessages_step crypto complete
  cases made : eapWpsConfigBuildMessageM4 crypto registrar.device (random .m4) registrar.rcvMsg
    registrar.target registrar.password registrar.exchange with
  | mk message sender =>
    simp only [Peer.build, made] at built
    obtain ⟨rfl, rfl⟩ := Prod.mk.inj built
    rw [← paired.keptR.1] at described
    obtain ⟨shape, processed⟩ := m4_processed crypto enrollee.target sound.inverse described
      (paired.enrolleeAwaits turn) made
    subst shape
    have half1 : (proveHalves crypto (random .m4) registrar.password registrar.target.pubKey
        registrar.exchange.pubKey registrar.exchange).half1 =
        proofOf crypto agreed (random .m4).snonce1 (firstHalf second.password.devPwd) := by
      simp only [proveHalves, proofOf, paired.keptR.2.1, paired.keyE.2, paired.keyR.1,
        paired.keys.2]
    have half2 : (proveHalves crypto (random .m4) registrar.password registrar.target.pubKey
        registrar.exchange.pubKey registrar.exchange).half2 =
        proofOf crypto agreed (random .m4).snonce2 (secondHalf second.password.devPwd) := by
      simp only [proveHalves, proofOf, paired.keptR.2.1, paired.keyE.2, paired.keyR.1,
        paired.keys.2]
    have check : eapWpsHashValidation crypto
        (proofOf crypto agreed (random .m4).snonce1 (firstHalf second.password.devPwd)).hash
        (proofOf crypto agreed (random .m4).snonce1
          (firstHalf second.password.devPwd)).snonce.toList
        enrollee.exchange.half1.psk enrollee.exchange.pubKey enrollee.target.pubKey
        enrollee.exchange.keys.authKey =
        accepts crypto agreed
          (proofOf crypto agreed (random .m4).snonce1 (firstHalf second.password.devPwd))
          (proofOf crypto agreed (random .m3).snonce1 (firstHalf first.password.devPwd)) := by
      rw [proof.half1, paired.keyE.1, paired.keyR.2, paired.keys.1]
      rfl
    simp only [half1, half2, check] at processed
    refine ⟨{ enrollee with
        rcvMsg := m4
        target := { enrollee.target with
          hash1 := (proofOf crypto agreed (random .m4).snonce1
            (firstHalf second.password.devPwd)).hash
          hash2 := (proofOf crypto agreed (random .m4).snonce2
            (secondHalf second.password.devPwd)).hash } },
      { registrar with
        exchange := { proveHalves crypto (random .m4) registrar.password registrar.target.pubKey
            registrar.exchange.pubKey registrar.exchange with sndMsg := m4 } }, ?_,
      { paired with
        proofE := { proof with }
        proofR := ⟨half1, half2, congrArg Half.hash half1.symm, congrArg Half.hash half2.symm⟩ },
      rfl⟩
    split
    · rename_i valid
      rw [if_pos valid] at processed
      exact accepted _ (by simp only [Peer.process, Peer.process.verdict, processed]; rfl)
    · rename_i invalid
      rw [if_neg invalid] at processed
      exact refused (by simp only [Peer.process, Peer.process.verdict, processed]; rfl)

theorem fifth (sound : SoundCrypto crypto) (described : first.device.Described)
    (pledged : Pledged crypto random first second agreed enrollee registrar)
    (turn : registrar.exchange.sndMsg = enrollee.rcvMsg)
    (same : firstHalf first.password.devPwd = firstHalf second.password.devPwd)
    (complete : ∀ unbuilt, exchangeMessages crypto random (.m5 :: rest) enrollee registrar ≠
      .unbuilt unbuilt) :
    ∃ nextE nextR, exchangeMessages crypto random (.m5 :: rest) enrollee registrar =
        exchangeMessages crypto random rest nextR nextE ∧
      Pledged crypto random first second agreed nextE nextR ∧
      nextE.exchange.sndMsg = nextR.rcvMsg := by
  obtain ⟨m5, after, built, accepted, -⟩ := exchangeMessages_step crypto complete
  cases made : eapWpsConfigBuildMessageM5 crypto enrollee.device (random .m5) enrollee.rcvMsg
    enrollee.target enrollee.exchange with
  | mk message sender =>
    simp only [Peer.build, made] at built
    obtain ⟨rfl, rfl⟩ := Prod.mk.inj built
    rw [← pledged.keptE.1] at described
    obtain ⟨shape, processed⟩ := m5_processed crypto registrar.target sound.inverse described
      (pledged.registrarAwaits turn) made
    subst shape
    have valid := accepts_same crypto agreed (random .m3).snonce1 (random .m4).snonce1
      (firstHalf first.password.devPwd)
    simp only [pledged.proofE.hash1, pledged.proofE.half1, pledged.proofR.half1, pledged.keyE.2,
      pledged.keyR.1, pledged.keys.2, ← accepts.eq_1, ← same, valid, if_true] at processed
    have step := accepted _ (by simp only [Peer.process, Peer.process.verdict, processed]; rfl)
    exact ⟨_, _, step,
      { pledged with proofE := { pledged.proofE with }, proofR := { pledged.proofR with } }, rfl⟩

theorem sixth (sound : SoundCrypto crypto) (described : second.device.Described)
    (pledged : Pledged crypto random first second agreed enrollee registrar)
    (turn : enrollee.exchange.sndMsg = registrar.rcvMsg)
    (complete : ∀ unbuilt, exchangeMessages crypto random (.m6 :: rest) registrar enrollee ≠
      .unbuilt unbuilt) :
    ∃ nextE nextR, exchangeMessages crypto random (.m6 :: rest) registrar enrollee =
        (if accepts crypto agreed
            (proofOf crypto agreed (random .m4).snonce2 (secondHalf second.password.devPwd))
            (proofOf crypto agreed (random .m3).snonce2 (secondHalf first.password.devPwd)) then
          exchangeMessages crypto random rest nextE nextR
        else .rejected .m6) ∧
      Pledged crypto random first second agreed nextE nextR ∧
      nextR.exchange.sndMsg = nextE.rcvMsg := by
  obtain ⟨m6, after, built, accepted, refused⟩ := exchangeMessages_step crypto complete
  cases made : eapWpsConfigBuildMessageM6 crypto registrar.device (random .m6) registrar.rcvMsg
    registrar.target registrar.exchange with
  | mk message sender =>
    simp only [Peer.build, made] at built
    obtain ⟨rfl, rfl⟩ := Prod.mk.inj built
    rw [← pledged.keptR.1] at described
    obtain ⟨shape, processed⟩ := m6_processed crypto enrollee.target sound.inverse described
      (pledged.enrolleeAwaits turn) made
    subst shape
    simp only [pledged.proofR.hash2, pledged.proofR.half2, pledged.proofE.half2, pledged.keyE.1, pledged.keyR.2,
      pledged.keys.1, ← accepts.eq_1] at processed
    refine ⟨{ enrollee with rcvMsg := m6 },
      { registrar with exchange := { registrar.exchange with sndMsg := m6 } }, ?_,
      { pledged with proofE := { pledged.proofE with }, proofR := { pledged.proofR with } }, rfl⟩
    split
    · rename_i valid
      rw [if_pos valid] at processed
      exact accepted _ (by simp only [Peer.process, Peer.process.verdict, processed]; rfl)
    · rename_i invalid
      rw [if_neg invalid] at processed
      exact refused (by simp only [Peer.process, Peer.process.verdict, processed]; rfl)

theorem seventh (sound : SoundCrypto crypto)
    (described : first.device.Described) (carried : Carried attrs)
    (written : first.config = wpsWriteWpsData attrs)
    (pledged : Pledged crypto random first second agreed enrollee registrar)
    (turn : registrar.exchange.sndMsg = enrollee.rcvMsg)
    (same : secondHalf first.password.devPwd = secondHalf second.password.devPwd)
    (complete : ∀ unbuilt, exchangeMessages crypto random (.m7 :: rest) enrollee registrar ≠
      .unbuilt unbuilt) :
    ∃ nextE nextR, exchangeMessages crypto random (.m7 :: rest) enrollee registrar =
        exchangeMessages crypto random rest nextR nextE ∧
      Paired first second agreed nextE nextR ∧ nextE.exchange.sndMsg = nextR.rcvMsg := by
  obtain ⟨m7, after, built, accepted, -⟩ := exchangeMessages_step crypto complete
  cases made : eapWpsConfigBuildMessageM7 crypto enrollee.device (random .m7) enrollee.rcvMsg
    enrollee.target enrollee.config enrollee.exchange with
  | mk message sender =>
    simp only [Peer.build, made] at built
    obtain ⟨rfl, rfl⟩ := Prod.mk.inj built
    rw [← pledged.keptE.1] at described
    rw [pledged.keptE.2.2, written] at made
    have valid : eapWpsHashValidation crypto registrar.target.hash2
        enrollee.exchange.half2.snonce.toList registrar.exchange.half2.psk
        registrar.target.pubKey registrar.exchange.pubKey registrar.exchange.keys.authKey =
        true := by
      rw [pledged.proofE.hash2, pledged.proofE.half2, pledged.proofR.half2, pledged.keyE.2,
        pledged.keyR.1, pledged.keys.2, same]
      exact accepts_same crypto agreed _ _ _
    obtain ⟨shape, config, processed⟩ := m7_processed crypto registrar.target sound.inverse
      described (pledged.registrarAwaits turn) carried made valid
    subst shape
    have step := accepted _ (by simp only [Peer.process, Peer.process.verdict, processed]; rfl)
    exact ⟨_, _, step, { pledged.toPaired with }, rfl⟩

theorem eighth (sound : SoundCrypto crypto)
    (described : second.device.Described) (carried : Carried attrs)
    (written : second.config = wpsWriteWpsData attrs)
    (paired : Paired first second agreed enrollee registrar)
    (turn : enrollee.exchange.sndMsg = registrar.rcvMsg)
    (complete : ∀ unbuilt, exchangeMessages crypto random [.m8] registrar enrollee ≠
      .unbuilt unbuilt) :
    ∃ nextE nextR settings added tag,
      exchangeMessages crypto random [.m8] registrar enrollee = .completed nextE nextR ∧
      nextE.target.config = some settings ∧
      wpsParseWpsData settings = some (attrs ++ added ++ [⟨WpsType.keyWrapAuth, 8, .ptr tag⟩]) ∧
      (added = [] ∨ added = [emptyNwKey]) := by
  obtain ⟨m8, after, built, accepted, -⟩ := exchangeMessages_step crypto complete
  cases made : eapWpsConfigBuildMessageM8 crypto registrar.device (random .m8) registrar.rcvMsg
    registrar.target registrar.config registrar.exchange with
  | mk message sender =>
    simp only [Peer.build, made] at built
    obtain ⟨rfl, rfl⟩ := Prod.mk.inj built
    rw [← paired.keptR.1] at described
    rw [paired.keptR.2.2, written] at made
    obtain ⟨settings, added, tag, processed, parsed, alternatives⟩ :=
      m8_processed crypto enrollee.target sound.inverse described (paired.enrolleeAwaits turn)
        carried made
    have step := accepted _ (by simp only [Peer.process, Peer.process.verdict, processed]; rfl)
    exact ⟨_, _, settings, added, tag, step, rfl, parsed, alternatives⟩

/-! ## The whole exchange -/

def provedTexts (agreed : Agreed) (random : Random) (own other : Bytes) :
    List Bytes :=
  [own, other].flatMap fun password =>
    hashedTexts crypto agreed random.snonce1 (firstHalf password) ++
      hashedTexts crypto agreed random.snonce2 (secondHalf password)

theorem halves_differ {own other : Bytes} (distinct : own ≠ other) :
    firstHalf own ≠ firstHalf other ∨ secondHalf own ≠ secondHalf other := by
  by_cases first : firstHalf own = firstHalf other
  · refine Or.inr fun second => distinct ?_
    have whole : ∀ password : Bytes, firstHalf password ++ secondHalf password = password :=
      fun password => take_append_drop _ _
    rw [← whole own, ← whole other, first, second]
  · exact Or.inl first

theorem Peer.Ready.carried {peer : Peer} (ready : peer.Ready wrapCredential) :
    ∃ attrs, peer.config = wpsWriteWpsData attrs ∧ attrs ≠ [] ∧ Carried attrs := by
  obtain ⟨env, bss, invented, autoconfig, encrTypeFlags, serves, got⟩ := ready.config
  exact eapWpsConfigGetSsidConfiguration_carried serves got

theorem Carried.parsed (carried : Carried attrs) (present : attrs ≠ []) :
    wpsParseWpsData (wpsWriteWpsData attrs) = some attrs := by
  have few := carried.few
  have parsed := wpsParseWpsData_write carried.valid (by omega) [] (Nat.zero_le 4) present
    (carried.last present)
  rw [append_nil] at parsed
  exact parsed

theorem before_m4 (sound : SoundCrypto crypto)
    {enrollee registrar : Peer} (readyE : enrollee.Ready false) (readyR : registrar.Ready true)
    (complete : ∀ unbuilt, handshake crypto random enrollee registrar ≠ .unbuilt unbuilt) :
    ∃ agreed nextE nextR, agreedKeys crypto random enrollee.device = some agreed ∧
      handshake crypto random enrollee registrar =
        exchangeMessages crypto random [.m4, .m5, .m6, .m7, .m8] nextR nextE ∧
      Paired enrollee registrar agreed nextE nextR ∧ nextE.exchange.sndMsg = nextR.rcvMsg ∧
      Proves crypto (random .m3) agreed enrollee.password.devPwd nextE nextR := by
  unfold handshake at complete ⊢
  obtain ⟨agreed, enrollee2, registrar2, derived, run, paired, turn⟩ :=
    opening crypto sound readyE.described readyR.described complete
  rw [run] at complete ⊢
  obtain ⟨enrollee3, registrar3, run, paired, turn, proof⟩ :=
    third crypto readyE.described readyE.nonempty paired turn complete
  exact ⟨agreed, enrollee3, registrar3, derived, run, paired, turn, proof⟩

theorem before_m6 (sound : SoundCrypto crypto) (describedE : first.device.Described)
    (describedR : second.device.Described)
    (paired : Paired first second agreed enrollee registrar)
    (turn : enrollee.exchange.sndMsg = registrar.rcvMsg)
    (proof : Proves crypto (random .m3) agreed first.password.devPwd enrollee registrar)
    (same : firstHalf first.password.devPwd = firstHalf second.password.devPwd)
    (complete : ∀ unbuilt, exchangeMessages crypto random (.m4 :: .m5 :: rest) registrar enrollee ≠
      .unbuilt unbuilt) :
    ∃ nextE nextR, exchangeMessages crypto random (.m4 :: .m5 :: rest) registrar enrollee =
        exchangeMessages crypto random rest nextR nextE ∧
      Pledged crypto random first second agreed nextE nextR ∧
      nextE.exchange.sndMsg = nextR.rcvMsg := by
  obtain ⟨enrollee4, registrar4, run, pledged, turn⟩ :=
    fourth crypto sound describedR paired turn proof complete
  rw [same, if_pos (accepts_same crypto agreed _ _ _)] at run
  rw [run] at complete ⊢
  exact fifth crypto sound describedE pledged turn same complete

/-- Where all messages are built, two sides with the same password accept all of
them and the enrollee is left with the configuration of the registrar; with
different passwords the enrollee rejects M4 or M6. -/
theorem peers_agree (sound : SoundCrypto crypto) (random : Message → Random)
    (enrollee registrar : Peer) (readyE : enrollee.Ready false) (readyR : registrar.Ready true)
    (complete : ∀ unbuilt, handshake crypto random enrollee registrar ≠ .unbuilt unbuilt) :
    (enrollee.password.devPwd = registrar.password.devPwd → ∃ nextE nextR settings attrs added tag,
        handshake crypto random enrollee registrar = .completed nextE nextR ∧
        nextE.target.config = some settings ∧
        wpsParseWpsData registrar.config = some attrs ∧
        wpsParseWpsData settings = some (attrs ++ added ++ [⟨WpsType.keyWrapAuth, 8, .ptr tag⟩]) ∧
        (added = [] ∨ added = [emptyNwKey])) ∧
    (enrollee.password.devPwd ≠ registrar.password.devPwd →
      (∀ agreed, agreedKeys crypto random enrollee.device = some agreed →
        CollisionFree crypto agreed.keys.authKey (provedTexts crypto agreed (random .m4)
          enrollee.password.devPwd registrar.password.devPwd)) →
      handshake crypto random enrollee registrar = .rejected .m4 ∨
        handshake crypto random enrollee registrar = .rejected .m6) := by
  obtain ⟨agreed, enrollee3, registrar3, derived, run, paired, turn, proof⟩ :=
    before_m4 crypto sound readyE readyR complete
  rw [run] at complete ⊢
  constructor
  · intro same
    obtain ⟨enrollee5, registrar5, run, pledged, turn⟩ := before_m6 crypto sound
      readyE.described readyR.described paired turn proof (by rw [same]) complete
    rw [run] at complete ⊢
    obtain ⟨enrollee6, registrar6, run, pledged, turn⟩ :=
      sixth crypto sound readyR.described pledged turn complete
    rw [same, if_pos (accepts_same crypto agreed _ _ _)] at run
    rw [run] at complete ⊢
    obtain ⟨attrsE, writtenE, -, carriedE⟩ := readyE.carried
    obtain ⟨enrollee7, registrar7, run, paired, turn⟩ := seventh crypto sound readyE.described
      carriedE writtenE pledged turn (by rw [same]) complete
    rw [run] at complete ⊢
    obtain ⟨attrs, written, present, carried⟩ := readyR.carried
    obtain ⟨enrollee8, registrar8, settings, added, tag, run, kept, parsed, alternatives⟩ :=
      eighth crypto sound readyR.described carried written paired turn complete
    exact ⟨enrollee8, registrar8, settings, attrs, added, tag, run, kept,
      by rw [written]; exact carried.parsed present, parsed, alternatives⟩
  · intro distinct free
    have texts := free agreed derived
    by_cases first : firstHalf enrollee.password.devPwd = firstHalf registrar.password.devPwd
    · obtain ⟨enrollee5, registrar5, run, pledged, turn⟩ := before_m6 crypto sound
        readyE.described readyR.described paired turn proof first complete
      rw [run] at complete ⊢
      obtain ⟨enrollee6, registrar6, run, -⟩ :=
        sixth crypto sound readyR.described pledged turn complete
      have second := (halves_differ distinct).resolve_left (not_not_intro first)
      have refused := @accepts_other crypto _ _ agreed (random .m4).snonce2 (random .m3).snonce2 _
        texts (by simp +contextual [provedTexts]) (by simp +contextual [provedTexts]) second
      rw [refused] at run
      exact Or.inr run
    · obtain ⟨enrollee4, registrar4, run, -⟩ :=
        fourth crypto sound readyR.described paired turn proof complete
      have refused := @accepts_other crypto _ _ agreed (random .m4).snonce1 (random .m3).snonce1 _
        texts (by simp +contextual [provedTexts]) (by simp +contextual [provedTexts]) first
      rw [refused] at run
      exact Or.inl run

end

/-! ## Two sides that meet -/

def Outcome.isBuilt : Outcome → Bool
  | .unbuilt _ => false
  | _ => true

theorem Outcome.isBuilt_ne {outcome : Outcome} (built : outcome.isBuilt = true) :
    ∀ unbuilt, outcome ≠ .unbuilt unbuilt := by
  intro unbuilt same
  rw [same] at built
  cases built

theorem soundCrypto_quick : SoundCrypto quickCrypto := by
  constructor
  · intro key block
    exact xorBlock_cancel block key
  · intro secret other pubKey otherKey generated otherGenerated
    have internal : quickCrypto.modExp = Crypto.internal.modExp := rfl
    exact modExp_commutes internal generated otherGenerated

def homeBss : Bss where
  ssid := [0x68, 0x6F, 0x6D, 0x65]
  wpa := 2
  wpaKeyMgmt := 2
  wpaPairwise := 16
  authAlgs := 1
  wep := ⟨0, Vector.replicate 4 [], false⟩
  wpaPassphrase := some [0x31, 0x32, 0x33, 0x34, 0x35, 0x36, 0x37, 0x38]
  wpaPsk := none
  ownAddr := Vector.replicate 6 2
  ssidFits := by decide
  keysFit := by decide
  passphraseFits := by
    intro passphrase same
    cases same
    decide

def homeDevice : Device where
  bigEndian := true
  wpsDisable := false
  wpsUpnpDisable := true
  version := 0x10
  uuid := zeros 16
  uuidSet := true
  mac := zeros 6
  macSet := true
  authTypeFlags := 0x22
  encrTypeFlags := 0x0C
  connTypeFlags := 1
  configMethods := 0x84
  wpsState := 2
  manufacturer := ⟨[0x41], 1⟩
  modelName := ⟨[0x41], 1⟩
  modelNumber := ⟨[0x41], 1⟩
  serialNumber := ⟨[0x41], 1⟩
  primDevType := zeros 8
  devName := ⟨[0x41], 1⟩
  rfBands := 1
  osVersion := 0
  defaultPin := []
  defaultTimeout := 120

def homeRandom (byte : UInt8) : Random where
  nonce := Vector.replicate 16 byte
  secret := bufferOf 192 (List.replicate 191 0 ++ [byte])
  snonce1 := Vector.replicate 16 (byte + 1)
  snonce2 := Vector.replicate 16 (byte + 2)
  iv := Vector.replicate 16 byte

def homeEnv : Env where
  identifier := 1
  random := homeRandom 1
  pbcRefused := false
  apSsidConfiguration := wpsGetApSsidConfiguration true homeBss ⟨zeros 6, zeros 32⟩
  upnpSent := true
  upnpReplies := []
  upnpQueued := false

def homePeer (wrapCredential : Bool) (digit : UInt8) : Peer where
  device := homeDevice
  password := ⟨[digit], 0⟩
  config := (eapWpsConfigGetSsidConfiguration homeDevice homeEnv false 0x08 wrapCredential).getD []
  rcvMsg := []
  exchange := Exchange.zero
  target := TargetInfo.zero

theorem homePeer_ready (wrapCredential : Bool) (digit : UInt8) :
    (homePeer wrapCredential digit).Ready wrapCredential := by
  have text : Text.Given ⟨[0x41], 1⟩ :=
    ⟨cons_ne_nil _ _, Nat.le_refl 1, Nat.lt_of_lt_of_le (by decide) (Nat.le_refl 65536)⟩
  refine ⟨⟨rfl, text, text, text, text, text⟩, ⟨Nat.zero_lt_one, Nat.le_of_ble_eq_true rfl⟩,
    homeEnv, homeBss, ⟨zeros 6, zeros 32⟩, false, 0x08, rfl, ?_⟩
  have got : ∀ wrapCredential, (eapWpsConfigGetSsidConfiguration homeDevice homeEnv false 0x08
      wrapCredential).isSome = true := by
    decide
  obtain ⟨config, is⟩ := isSome_iff_exists.mp (got wrapCredential)
  show eapWpsConfigGetSsidConfiguration homeDevice homeEnv false 0x08 wrapCredential =
    some (Option.getD _ _)
  rw [is]
  rfl

def homeRandoms (message : Message) : Random := homeRandom message.code

theorem home_built : (handshake quickCrypto homeRandoms (homePeer false 0x31)
    (homePeer true 0x31)).isBuilt = true := by
  decide +kernel

theorem home_built_other : (handshake quickCrypto homeRandoms (homePeer false 0x31)
    (homePeer true 0x32)).isBuilt = true := by
  decide +kernel

theorem home_free : (agreedKeys quickCrypto homeRandoms homeDevice).map (fun agreed =>
    decide (CollisionFree quickCrypto agreed.keys.authKey
      (provedTexts quickCrypto agreed (homeRandoms .m4) [0x31] [0x32]))) = some true := by
  decide +kernel

/-- The same digit on both sides, and then different ones. -/
theorem peers_agree_home : (∃ nextE nextR settings attrs added tag,
      handshake quickCrypto homeRandoms (homePeer false 0x31) (homePeer true 0x31) =
        .completed nextE nextR ∧
      nextE.target.config = some settings ∧
      wpsParseWpsData (homePeer true 0x31).config = some attrs ∧
      wpsParseWpsData settings = some (attrs ++ added ++ [⟨WpsType.keyWrapAuth, 8, .ptr tag⟩]) ∧
      (added = [] ∨ added = [emptyNwKey])) ∧
    (handshake quickCrypto homeRandoms (homePeer false 0x31) (homePeer true 0x32) = .rejected .m4 ∨
      handshake quickCrypto homeRandoms (homePeer false 0x31) (homePeer true 0x32) =
        .rejected .m6) := by
  have same := peers_agree quickCrypto soundCrypto_quick homeRandoms (homePeer false 0x31)
    (homePeer true 0x31) (homePeer_ready false 0x31) (homePeer_ready true 0x31)
    (Outcome.isBuilt_ne home_built)
  have other := peers_agree quickCrypto soundCrypto_quick homeRandoms (homePeer false 0x31)
    (homePeer true 0x32) (homePeer_ready false 0x31) (homePeer_ready true 0x32)
    (Outcome.isBuilt_ne home_built_other)
  refine ⟨same.1 rfl, other.2 (by decide) ?_⟩
  intro agreed derived
  have free := home_free
  rw [show homeDevice = (homePeer false 0x31).device from rfl, derived] at free
  exact of_decide_eq_true (some.inj free)

end AthApps.Wps
