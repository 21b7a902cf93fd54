import AthApps.Lib.Attempt
import AthApps.Wapi.AccessRequest
import AthApps.Wapi.Defrag

/-!
# The bytes that the supplicant reads and stores

`iwn_wpa_defrag`, `check_wai_frame` and the handlers of `wapi.c` once more, step by
step, with what they read of a frame, how far they fill an array, and which of the
two unicast keys they take.  Behind the first place that is not there nothing is known
any more.  Some lengths are compared with the end of the frame only, some with
nothing, and a key is often taken where the frame says.  A dump is a read too, if
more is dumped than was read; one of them is printed at the level `MSG_DEBUG` only.
-/

set_option autoImplicit false

namespace AthApps.Wapi

open AthApps.Lib

/-- The arrays that bytes of a frame are copied to, and `tbuf` of the access request. -/
inductive Target
  | rxfrag
  | asuId
  | aeCert
  | ecdh
  | aeKeyData
  | tbuf
  deriving DecidableEq, Repr

def Target.size : Target → Nat
  | rxfrag => 4096
  | asuId => 1000
  | aeCert => 2048
  | ecdh => 256
  | aeKeyData => 256
  | tbuf => 2048

inductive Touch
  | read (start count : Nat)
  -- the array is filled up to `last`
  | fill (target : Target) (last : Nat)
  -- `usksa.usk[index]`
  | usk (index : Nat)
  deriving DecidableEq, Repr

def Touch.Inside (length : Nat) : Touch → Prop
  | read start count => start + count ≤ length
  | fill target last => last ≤ target.size
  | usk index => index < 2

instance (length : Nat) : (touch : Touch) → Decidable (touch.Inside length)
  | .read start count => inferInstanceAs (Decidable (start + count ≤ length))
  | .fill target last => inferInstanceAs (Decidable (last ≤ target.size))
  | .usk index => inferInstanceAs (Decidable (index < 2))

/-- Why a handler ends early. -/
inductive Halt
  -- -1 or -2
  | returned
  | outside
  | nullPointer
  deriving DecidableEq, Repr

abbrev Receive (α : Type) : Type := Attempt Touch Halt α

/-- A buffer that `malloc_rxfrag` made and `wpa_put_frag` filled. -/
def RxFrag.Made (frag : RxFrag) : Prop := frag.maxlen = pageLen ∧ frag.dataLen ≤ pageLen

/-- The supplicant; `uskid` is the stored index, which may be behind the array. -/
structure Listener where
  supplicant : Supplicant
  uskid : UInt8
  rxfrag : Option RxFrag
  made : ∀ frag ∈ rxfrag, frag.Made

def Listener.usk (listener : Listener) (index : Nat) : AsueUsk :=
  listener.supplicant.asue.usk (Fin.ofNat 2 index)

namespace Receive

open Attempt

/-! ## The reassembly -/

section Frames

variable (frame : Bytes)

def touch (touched : Touch) : Receive Unit := do
  notes [touched]
  require (touched.Inside frame.length) .outside

def expect (condition : Prop) [Decidable condition] (start count : Nat) : Receive Unit :=
  if condition then pure ()
  else do
    touch frame (.read start count)
    stop .returned

def debugDump (debug : Bool) (start count : Nat) : Receive Unit :=
  if debug then touch frame (.read start count) else pure ()

def iwnWpaDefrag (rxfrag : Option RxFrag) : Receive Unit := do
  touch frame (.read 8 4)
  let more := byteAt frame 11 != 0
  let first := byteAt frame 10 == 0
  if more = false ∧ first ∧ rxfrag = none then pure ()
  else
    match rxfrag.filter fun frag => frag.expects frame with
    | none =>
      if first ∧ more then touch frame (.fill .rxfrag frame.length) else pure ()
    | some frag => do
        touch frame (.read headLen (frame.length - headLen))
        touch frame (.fill .rxfrag (frag.dataLen + (frame.length - headLen)))

def checkWaiFrame : Receive Unit := do
  require (headLen ≤ frame.length) .returned
  touch frame (.read 0 4)
  touch frame (.read 6 4)

end Frames

/-! ## The handlers

They get the payload of a frame. -/

section Handlers

variable (message : Bytes)

/-- `waigroup_cert_2_3_send`; the end of the message is there once it is signed. -/
def waigroupCert23Send (cfg : AsueConfig) (supplicant : Supplicant) : Receive Unit := do
  let supplicant := { supplicant with flag := 0x04 ||| supplicant.flag }
  touch message (.fill .tbuf (headLen + (accessRequestData cfg supplicant).length))
  match cfg.x509.sign cfg.privateKey (accessRequestData cfg supplicant) with
  | none => stop .returned
  | some sign =>
    touch message (.fill .tbuf (packAccessRequest cfg supplicant (fixed 48 sign)).length)

def takeActive (cfg : AsueConfig) (draw : Draw) (supplicant : Supplicant) : Supplicant :=
  let certAt := 37 + readWord message 35
  let certLen := readWord message (certAt + 2)
  let ecdhAt := certAt + 4 + certLen
  let aeCert : CertId := ⟨readWord message certAt, certLen,
    overlay supplicant.aeCert.data 0 (slice message (certAt + 4) certLen)⟩
  { supplicant with
    aeAuthFlag := fixed 32 (slice message 1 32)
    aeCert := aeCert
    aeId := fixdataIdByIdent cfg supplicant.aeId aeCert
    ecdh := ⟨byteAt message ecdhAt, slice message (ecdhAt + 3) (readWord message (ecdhAt + 1))⟩
    asueEck := draw.eck.toList
    asueKeyData := draw.keyData.toList
    nasue := draw.nonce }

def waigroupCert13 (cfg : AsueConfig) (draw : Option Draw) (supplicant : Supplicant) :
    Receive Unit := do
  require (44 ≤ message.length) .returned
  touch message (.read 0 1)
  let update := byteAt message 0 &&& 1 != 0
  require (supplicant.asue.psk = false ∧ acceptsActive supplicant.asue update = true) .returned
  touch message (.read 1 32)
  require (update → fixed 32 (slice message 1 32) = supplicant.aeAuthFlag) .returned
  touch message (.read 33 4)
  let idLen := readWord message 35
  require (44 + idLen ≤ message.length) .returned
  touch message (.read 37 idLen)
  touch message (.fill .asuId idLen)
  let certAt := 37 + idLen
  touch message (.read certAt 4)
  let certLen := readWord message (certAt + 2)
  require (44 + idLen + certLen ≤ message.length) .returned
  touch message (.read (certAt + 4) certLen)
  touch message (.fill .aeCert certLen)
  let ecdhAt := certAt + 4 + certLen
  touch message (.read ecdhAt 3)
  let paraLen := readWord message (ecdhAt + 1)
  require (44 + idLen + certLen + paraLen ≤ message.length) .returned
  touch message (.read (ecdhAt + 3) paraLen)
  touch message (.fill .ecdh paraLen)
  require (message.length = 44 + idLen + certLen + paraLen) .returned
  match draw with
  | none => stop .returned
  | some draw => waigroupCert23Send message cfg (takeActive message cfg draw supplicant)

def cmpVarStruct (start : Nat) (id : FixdataId) : Receive Bool := do
  touch message (.read start 4)
  if readWord message start = id.idFlag ∧ readWord message (start + 2) = id.idData.length then do
    touch message (.read (start + 4) id.idData.length)
    pure (slice message (start + 4) id.idData.length == id.idData)
  else pure false

/-- The certificate results at `start`, with the offset behind them and their signature. -/
def certResultBlock (cfg : AsueConfig) (start : Nat) : Receive Nat := do
  touch message (.read start 1)
  require (byteAt message start = 2) .returned
  touch message (.read (start + 70) 2)
  let second := start + 72 + readWord message (start + 70)
  touch message (.read second 1)
  require (byteAt message second = 0) .returned
  touch message (.read (second + 3) 2)
  let asuSign := second + 5 + readWord message (second + 3)
  touch message (.read (asuSign + 1) 2)
  let signLen := readWord message (asuSign + 1)
  touch message (.read (start + 1) 2)
  let extent := readWord message (start + 1) + 3
  touch message (.read start extent)
  touch message (.read (asuSign + 3 + signLen - 48) 48)
  require (cfg.x509.verify cfg.asuPubkey (slice message start extent)
    (slice message (asuSign + 3 + signLen - 48) 48) = true) .returned
  pure (start + extent + signLen + 3)

def resultBlock (cfg : AsueConfig) (start : Nat) : Receive Nat :=
  if byteAt message 0 &&& 0x08 ≠ 0 then certResultBlock message cfg start else pure start

/-- The signature of the access point, and the length of its attribute at `signAt`. -/
def acceptSigned (cfg : AsueConfig) (supplicant : Supplicant) (signAt : Nat) : Receive Unit :=
  match (cfg.getCertObj supplicant.aeCert.certFlag).bind fun certObj =>
      certObj.getPublicKey supplicant.aeCert.bytes with
  | none => stop .nullPointer
  | some pubkey => do
      touch message (.read 0 signAt)
      touch message (.read (message.length - 48) 48)
      require (cfg.x509.verify pubkey (slice message 0 signAt)
        (slice message (message.length - 48) 48) = true) .returned
      touch message (.read (signAt + 1) 2)

def waigroupCert33 (cfg : AsueConfig) (supplicant : Supplicant) : Receive Unit := do
  let keyData := supplicant.asueKeyData
  let keyAt := aeKeyAt supplicant
  require (supplicant.asue.state = .cntReq) .returned
  touch message (.read 0 1)
  require (byteAt message 0 &&& 0x03 = supplicant.flag &&& 0x03) .returned
  touch message (.read 1 32)
  require (slice message 1 32 = supplicant.nasue.toList) .returned
  touch message (.read 33 32)
  touch message (.read 65 1)
  require (byteAt message 65 = 0) .returned
  touch message (.read 66 1)
  require ((byteAt message 66).toNat = keyData.length) .returned
  touch message (.read 67 keyData.length)
  require (slice message 67 keyData.length = keyData) .returned
  touch message (.read keyAt 1)
  let length := (byteAt message keyAt).toNat
  touch message (.read (keyAt + 1) length)
  touch message (.fill .aeKeyData length)
  let sameAe ← cmpVarStruct message (keyAt + 1 + length) supplicant.aeId
  expect message (sameAe = true) (keyAt + 1 + length) (supplicant.aeId.idData.length + 4)
  let sameAsue ← cmpVarStruct message
    (keyAt + 1 + length + supplicant.aeId.idData.length + 4) cfg.asueId
  require (sameAsue = true) .returned
  let signAt ← resultBlock message cfg (resultAt cfg supplicant message)
  acceptSigned message cfg supplicant signAt

/-- `waigroup_unicast_1_3` and `waigroup_unicast_2_3_send` -/
def waigroupUnicast13 (listener : Listener) : Receive Unit := do
  let asue := listener.supplicant.asue
  require (62 ≤ message.length) .returned
  touch message (.read 0 1)
  let update := byteAt message 0 &&& 0x10 != 0
  touch message (.read 17 1)
  let uskid := (byteAt message 17).toNat
  require (acceptsRequest asue update = true) .returned
  touch message (.read 1 16)
  require (slice message 1 16 = asue.bkid.toList) .returned
  if update then do
    require (uskid = if listener.uskid = 0 then 1 else 0) .returned
    touch message (.usk listener.uskid.toNat)
    touch message (.read 30 32)
    require ((listener.usk listener.uskid.toNat).aeChallenge = fixed 32 (slice message 30 32))
      .returned
  else
    pure ()
  touch message (.usk uskid)
  touch message (.read 18 12)
  touch message (.read 30 32)
  -- the response repeats the request
  touch message (.read 0 30)
  touch message (.read 30 32)

/-- `waigroup_unicast_3_3` and `wapi_install_usk`; the address of the stored key is
taken before anything is looked at. -/
def waigroupUnicast33 (cfg : AsueConfig) (debug : Bool) (listener : Listener) :
    Receive Unit := do
  let asue := listener.supplicant.asue
  let stored := listener.uskid.toNat
  let micAt := message.length - 20
  touch message (.usk stored)
  require (asue.state = .uniResp) .returned
  touch message (.read 30 32)
  require ((listener.usk stored).asueChallenge.toList = slice message 30 32) .returned
  touch message (.read 0 micAt)
  touch message (.read micAt 20)
  require (cfg.base.mic (listener.usk stored).mak (slice message 0 micAt) = message.drop micAt)
    .returned
  touch message (.read 63 1)
  let wieLen := ((byteAt message 63).toNat + 2) % 256
  debugDump message debug 62 wieLen
  if byteAt message 0 &&& 0x10 = 0 then do
    expect message (wieLen = asue.apWapiIe.length) 62 wieLen
    touch message (.read 62 wieLen)
    require (slice message 62 wieLen = asue.apWapiIe) .returned
  else
    pure ()
  touch message (.read 17 1)
  touch message (.usk (byteAt message 17).toNat)

def checkAddid (asue : Asue) (addid : Nat) : Receive Unit := do
  touch message (.read addid 6)
  expect message (slice message addid 6 = asue.bssid.toList) addid 12
  touch message (.read (addid + 6) 6)
  expect message (slice message (addid + 6) 6 = asue.ownAddr.toList) addid 12

def waigroupMulticast12 (cfg : AsueConfig) (listener : Listener) : Receive Unit := do
  let asue := listener.supplicant.asue
  let stored := listener.uskid.toNat
  let micAt := message.length - 20
  require (asue.state = .uniAck ∨ asue.state = .finish) .returned
  touch message (.read 0 1)
  require (byteAt message 0 &&& 0x20 = 0) .returned
  touch message (.read 1 1)
  checkAddid message asue 3
  touch message (.read 31 16)
  require (memcmpLess (slice message 31 16) asue.mskAnnId = false) .returned
  touch message (.read 2 1)
  require ((byteAt message 2).toNat = stored) .returned
  touch message (.usk stored)
  touch message (.read 0 micAt)
  touch message (.read micAt 20)
  require (cfg.base.mic (listener.usk stored).mak (slice message 0 micAt) = message.drop micAt)
    .returned
  touch message (.read 48 16)
  touch message (.read 47 1)
  -- the answer repeats the announcement
  touch message (.usk stored)
  touch message (.read 0 15)
  touch message (.read 31 16)
  touch message (.read 15 16)

end Handlers

/-- `iwn_wapi_sm_rx_wai`, after the tests of the state and the head. -/
def handle (cfg : AsueConfig) (debug : Bool) (draw : Option Draw) (listener : Listener)
    (whole : Bytes) : Receive Unit :=
  let asue := listener.supplicant.asue
  let stype := getPacketSubType whole
  let message := payload whole
  if asue.state = .noAssoc ∨ (asue.psk = false ∧ asue.hasCert = false) ∨
      Wapi.checkWaiFrame asue whole = false then
    pure ()
  else if stype = SubType.authactive.code then waigroupCert13 message cfg draw listener.supplicant
  else if stype = SubType.staAccessResponse.code then
    waigroupCert33 message cfg listener.supplicant
  else if stype = SubType.uskNegRequest.code then waigroupUnicast13 message listener
  else if stype = SubType.uskNegConfirm.code then waigroupUnicast33 message cfg debug listener
  else if stype = SubType.mskAnnounce.code then waigroupMulticast12 message cfg listener
  else pure ()

end Receive

/-! ## The frames that fit -/

section Fits

variable (message : Bytes)

/-- The access request ends in `tbuf`: up to the signature, and, once it is signed, as a
whole. -/
def RequestFits (cfg : AsueConfig) (supplicant : Supplicant) : Prop :=
  let covered := 89 + supplicant.asueKeyData.length + supplicant.aeId.idData.length +
    cfg.certBin.length + supplicant.ecdh.paraData.length
  covered ≤ 2048 ∧ ((cfg.x509.sign cfg.privateKey
        (accessRequestData cfg { supplicant with flag := 0x04 ||| supplicant.flag })).isSome →
      covered + 75 + cfg.asueId.idData.length ≤ 2048)

def TakesActive (supplicant : Supplicant) : Prop :=
  let update := byteAt message 0 &&& 1 != 0
  44 ≤ message.length ∧ supplicant.asue.psk = false ∧ acceptsActive supplicant.asue update = true ∧
    (update → fixed 32 (slice message 1 32) = supplicant.aeAuthFlag)

/-- The identity, the certificate and the parameter of the curve fit in their arrays, as far
as the message goes. -/
def ActiveFits (cfg : AsueConfig) (draw : Option Draw) (supplicant : Supplicant) : Prop :=
  let idLen := readWord message 35
  let certLen := readWord message (37 + idLen + 2)
  let paraLen := readWord message (37 + idLen + 4 + certLen + 1)
  TakesActive message supplicant → 44 + idLen ≤ message.length →
    idLen ≤ 1000 ∧ (44 + idLen + certLen ≤ message.length →
      certLen ≤ 2048 ∧ (44 + idLen + certLen + paraLen ≤ message.length →
        paraLen ≤ 256 ∧ (message.length = 44 + idLen + certLen + paraLen →
          ∀ drawn ∈ draw, RequestFits cfg (Receive.takeActive message cfg drawn supplicant))))

/-- The head of the identity is there, and the identity if it may be this one. -/
def IdThere (start : Nat) (id : FixdataId) : Prop :=
  start + 4 ≤ message.length ∧
    (readWord message start = id.idFlag → readWord message (start + 2) = id.idData.length →
      start + 4 + id.idData.length ≤ message.length)

def ResultThere (start : Nat) : Prop :=
  let second := start + 72 + readWord message (start + 70)
  let asuSign := second + 5 + readWord message (second + 3)
  start < message.length ∧ (byteAt message start = 2 →
    second < message.length ∧ (byteAt message second = 0 →
      asuSign + 3 ≤ message.length ∧ asuSign + 3 + readWord message (asuSign + 1) ≤ message.length ∧
        start + 3 + readWord message (start + 1) ≤ message.length))

/-- The covered part is there, and the length behind it if the signature is right. -/
def SignedThere (cfg : AsueConfig) (supplicant : Supplicant) (signAt : Nat) : Prop :=
  ∀ certObj ∈ cfg.getCertObj supplicant.aeCert.certFlag,
    ∀ pubkey ∈ certObj.getPublicKey supplicant.aeCert.bytes, signAt ≤ message.length ∧
        (cfg.x509.verify pubkey (slice message 0 signAt)
          (slice message (message.length - 48) 48) = true → signAt + 3 ≤ message.length)

def ResponseFits (cfg : AsueConfig) (supplicant : Supplicant) : Prop :=
  let keyData := supplicant.asueKeyData
  let keyAt := aeKeyAt supplicant
  let idAt := keyAt + 1 + (byteAt message keyAt).toNat
  let asueIdAt := idAt + supplicant.aeId.idData.length + 4
  let start := resultAt cfg supplicant message
  supplicant.asue.state = .cntReq → 1 ≤ message.length ∧
    (byteAt message 0 &&& 0x03 = supplicant.flag &&& 0x03 → 33 ≤ message.length ∧
    (slice message 1 32 = supplicant.nasue.toList → 66 ≤ message.length ∧
    (byteAt message 65 = 0 → 67 ≤ message.length ∧
    ((byteAt message 66).toNat = keyData.length → keyAt ≤ message.length ∧
    (slice message 67 keyData.length = keyData → asueIdAt ≤ message.length ∧
    (sameId message idAt supplicant.aeId = true → IdThere message asueIdAt cfg.asueId ∧
    (sameId message asueIdAt cfg.asueId = true →
      (byteAt message 0 &&& 0x08 ≠ 0 → ResultThere message start) ∧
      ∀ signAt, resultBlock cfg supplicant message = .passed signAt →
        SignedThere message cfg supplicant signAt)))))))

/-- A request that is taken names the first or the second key; for an update the stored
key is one of the two. -/
def RequestNamesKey (listener : Listener) : Prop :=
  let asue := listener.supplicant.asue
  let update := byteAt message 0 &&& 0x10 != 0
  let uskid := (byteAt message 17).toNat
  62 ≤ message.length → acceptsRequest asue update = true → slice message 1 16 = asue.bkid.toList →
      (update = true → uskid = (if listener.uskid = 0 then 1 else 0) →
        listener.uskid.toNat < 2) ∧
      (update = false → uskid < 2)

/-- The stored key is one of the two, and a confirmation that is waited for has its
challenge; if its check value is right, it has its information element and names a key. -/
def ConfirmationFits (cfg : AsueConfig) (debug : Bool) (listener : Listener) : Prop :=
  let asue := listener.supplicant.asue
  let usk := listener.usk listener.uskid.toNat
  let micAt := message.length - 20
  let wieLen := ((byteAt message 63).toNat + 2) % 256
  let update := byteAt message 0 &&& 0x10 ≠ 0
  listener.uskid.toNat < 2 ∧ (asue.state = .uniResp → 62 ≤ message.length ∧
    (usk.asueChallenge.toList = slice message 30 32 →
    cfg.base.mic usk.mak (slice message 0 micAt) = message.drop micAt → 64 ≤ message.length ∧
      (debug = true ∨ ¬update → 62 + wieLen ≤ message.length) ∧
      (update ∨ wieLen = asue.apWapiIe.length ∧ slice message 62 wieLen = asue.apWapiIe →
        (byteAt message 17).toNat < 2)))

/-- As far as the announcement is for this pair, each of its parts is there, and the stored
key, if it names that, is one of the two. -/
def AnnouncementFits (cfg : AsueConfig) (listener : Listener) : Prop :=
  let asue := listener.supplicant.asue
  let usk := listener.usk listener.uskid.toNat
  let micAt := message.length - 20
  asue.state = .uniAck ∨ asue.state = .finish → 1 ≤ message.length ∧
    (byteAt message 0 &&& 0x20 = 0 → 15 ≤ message.length ∧
    (slice message 3 6 = asue.bssid.toList → slice message 9 6 = asue.ownAddr.toList →
      47 ≤ message.length ∧
    (memcmpLess (slice message 31 16) asue.mskAnnId = false →
    byteAt message 2 = listener.uskid → listener.uskid.toNat < 2 ∧
      (cfg.base.mic usk.mak (slice message 0 micAt) = message.drop micAt → 64 ≤ message.length))))

def HandledFits (cfg : AsueConfig) (debug : Bool) (draw : Option Draw) (listener : Listener)
    (whole : Bytes) : Prop :=
  let asue := listener.supplicant.asue
  let stype := getPacketSubType whole
  let message := payload whole
  ¬(asue.state = .noAssoc ∨ (asue.psk = false ∧ asue.hasCert = false) ∨
      checkWaiFrame asue whole = false) →
    (stype = SubType.authactive.code → ActiveFits message cfg draw listener.supplicant) ∧
    (stype = SubType.staAccessResponse.code → ResponseFits message cfg listener.supplicant) ∧
    (stype = SubType.uskNegRequest.code → RequestNamesKey message listener) ∧
    (stype = SubType.uskNegConfirm.code → ConfirmationFits message cfg debug listener) ∧
    (stype = SubType.mskAnnounce.code → AnnouncementFits message cfg listener)

def ReceiveFits (cfg : AsueConfig) (debug : Bool) (draw : Option Draw) (listener : Listener)
    (frame : Bytes) : Prop :=
  headLen ≤ frame.length ∧ ∀ whole, (iwnWpaDefrag listener.rxfrag frame).2 = some whole →
      HandledFits cfg debug draw listener whole

end Fits

namespace Receive

open Attempt

/-! ## The handlers that stay inside -/

section Inside

variable {message : Bytes} {α : Type}

variable {cfg : AsueConfig} {debug : Bool} {supplicant : Supplicant}

variable {frame : Bytes} {listener : Listener}

variable {touched : Touch} {next : Unit → Receive α} {start : Nat}

theorem all_touch_bind : (touch frame touched >>= next).All (Touch.Inside frame.length) ↔
      touched.Inside frame.length ∧ (next ()).All (Touch.Inside frame.length) := by
  simp only [touch, all_bind, all_notes, List.forall_mem_singleton, all_require, bind_eq_ok,
    notes_eq_ok, require_eq_ok, implies_true, and_true, exists_const, true_and]
  exact and_congr_right fun inside => ⟨fun all => all () inside, fun all _ _ => all⟩

theorem all_touch :
    (touch frame touched).All (Touch.Inside frame.length) ↔ touched.Inside frame.length := by
  simp [touch, all_bind]

variable {count signAt : Nat}

theorem all_expect_bind {condition : Prop} [Decidable condition] :
    (expect frame condition start count >>= next).All (Touch.Inside frame.length) ↔
      (¬condition → start + count ≤ frame.length) ∧
        (condition → (next ()).All (Touch.Inside frame.length)) := by
  unfold expect
  split
  next holds =>
    simp only [holds, not_true_eq_false, false_implies, true_and, forall_const, all_bind, all_pure]
    exact ⟨fun all => all () rfl, fun all _ _ => all⟩
  next fails =>
    rw [bind_bind, all_touch_bind]
    simp [all_bind, Touch.Inside, fails]

theorem all_debugDump_bind :
    (debugDump frame debug start count >>= next).All (Touch.Inside frame.length) ↔
      (debug = true → start + count ≤ frame.length) ∧
        (next ()).All (Touch.Inside frame.length) := by
  unfold debugDump
  cases debug with
  | true =>
    rw [if_pos rfl, all_touch_bind, forall_prop_of_true rfl]
    rfl
  | false =>
    simp only [Bool.false_eq_true, false_implies, true_and, if_false, all_bind, all_pure]
    exact ⟨fun all => all () rfl, fun all _ _ => all⟩

theorem packAccessRequest_length (cfg : AsueConfig) (supplicant : Supplicant)
    (sign : Vector UInt8 48) :
    (packAccessRequest cfg supplicant sign).length =
      164 + supplicant.asueKeyData.length + supplicant.aeId.idData.length + cfg.certBin.length +
        supplicant.ecdh.paraData.length + cfg.asueId.idData.length := by
  have twelve : headLen = 12 := rfl
  have oid : curveOid.length = 11 := rfl
  simp only [packAccessRequest, buildFrame, packMessage, List.length_append, packHead_length,
    accessRequestData_length, packAuthPayload, packFixdata_length, packFixdataAlg,
    packParaAlg_length, word_length, List.length_cons, List.length_nil, Vector.length_toList,
    asueInitializeAlg, standardEcdh]
  omega

theorem waigroupCert23Send_inside :
    (waigroupCert23Send message cfg supplicant).All (Touch.Inside message.length) ↔
      RequestFits cfg supplicant := by
  have twelve : headLen = 12 := rfl
  simp only [waigroupCert23Send, all_touch_bind, Touch.Inside, Target.size,
    accessRequestData_length, RequestFits]
  cases cfg.x509.sign cfg.privateKey
      (accessRequestData cfg { supplicant with flag := 0x04 ||| supplicant.flag }) with
  | none =>
    simp
    omega
  | some sign =>
    simp only [all_touch, Touch.Inside, Target.size, packAccessRequest_length,
      Option.isSome_some, forall_const]
    omega

theorem there {here more condition : Prop} (holds : here) (rest : more ↔ condition) :
    here ∧ more ↔ condition :=
  (and_iff_right holds).trans rest

theorem waigroupCert13_inside {draw : Option Draw} :
    (waigroupCert13 message cfg draw supplicant).All (Touch.Inside message.length) ↔
      ActiveFits message cfg draw supplicant := by
  simp only [waigroupCert13, all_touch_bind, all_require_bind, Touch.Inside, Target.size,
    ActiveFits, TakesActive, and_imp]
  refine imp_congr_right fun large => there (by omega) ?_
  refine imp_congr_right fun _ => imp_congr_right fun _ => there (by omega) ?_
  refine imp_congr_right fun _ => there (by omega) ?_
  refine imp_congr_right fun idRoom => there (by omega) (and_congr_right fun _ => ?_)
  refine there (by omega) (imp_congr_right fun certRoom => there (by omega) ?_)
  refine and_congr_right fun _ => there (by omega) (imp_congr_right fun paraRoom => ?_)
  refine there (by omega) (and_congr_right fun _ => imp_congr_right fun _ => ?_)
  cases draw with
  | none => simp
  | some draw => simp only [waigroupCert23Send_inside, Option.mem_def, Option.some.injEq, forall_eq']

theorem cmpVarStruct_bind {id : FixdataId} {next : Bool → Receive α} :
    (cmpVarStruct message start id >>= next).All (Touch.Inside message.length) ↔
      IdThere message start id ∧
        (next (sameId message start id)).All (Touch.Inside message.length) := by
  simp only [cmpVarStruct, bind_bind, all_touch_bind, Touch.Inside, IdThere, and_assoc]
  refine and_congr_right fun _ => ?_
  by_cases fields : readWord message start = id.idFlag ∧
      readWord message (start + 2) = id.idData.length
  · have same : sameId message start id =
        (slice message (start + 4) id.idData.length == id.idData) := by
      simp [sameId, fields]
    rw [if_pos fields, bind_bind, all_touch_bind, same]
    simp only [all_bind, all_pure, true_and, pure_eq_ok, forall_eq', Touch.Inside, fields,
      forall_const]
  · have other : sameId message start id = false := by
      rcases not_and_or.mp fields with kind | size
      · simp [sameId, kind]
      · simp [sameId, size]
    rw [if_neg fields, other]
    simp only [all_bind, all_pure, true_and, pure_eq_ok, forall_eq']
    exact (and_iff_right fun kind size => absurd ⟨kind, size⟩ fields).symm

/-- An identity that is dumped if it is another is there in any case. -/
theorem expectId_bind {id : FixdataId} :
    (cmpVarStruct message start id >>= fun same =>
        (expect message (same = true) start (id.idData.length + 4) >>= next)).All
          (Touch.Inside message.length) ↔
      start + id.idData.length + 4 ≤ message.length ∧
        (sameId message start id = true → (next ()).All (Touch.Inside message.length)) := by
  rw [cmpVarStruct_bind, all_expect_bind, ← and_assoc]
  refine and_congr_left fun _ => ?_
  unfold IdThere
  by_cases same : sameId message start id = true
  · have fields := same
    simp only [sameId, Bool.and_eq_true, beq_iff_eq] at fields
    obtain ⟨⟨kind, size⟩, -⟩ := fields
    simp only [kind, size, same, forall_const, not_true_eq_false, false_implies, and_true]
    omega
  · simp only [same, not_false_eq_true, forall_const, Bool.false_eq_true]
    exact ⟨fun there => by omega, fun room => ⟨⟨by omega, fun _ _ => by omega⟩, by omega⟩⟩

theorem checkAddid_bind {asue : Asue} :
    (checkAddid message asue start >>= next).All (Touch.Inside message.length) ↔
      start + 12 ≤ message.length ∧ (slice message start 6 = asue.bssid.toList →
        slice message (start + 6) 6 = asue.ownAddr.toList →
          (next ()).All (Touch.Inside message.length)) := by
  simp only [checkAddid, bind_bind, all_touch_bind, all_expect_bind, Touch.Inside]
  constructor
  · rintro ⟨first, dumped, rest⟩
    by_cases bssid : slice message start 6 = asue.bssid.toList
    · obtain ⟨second, -, more⟩ := rest bssid
      exact ⟨by omega, fun _ => more⟩
    · exact ⟨dumped bssid, fun same => absurd same bssid⟩
  · rintro ⟨room, rest⟩
    exact ⟨by omega, fun _ => room, fun bssid => ⟨by omega, fun _ => room, rest bssid⟩⟩

theorem certResultBlock_inside :
    (certResultBlock message cfg start).All (Touch.Inside message.length) ↔
      ResultThere message start := by
  simp only [certResultBlock, all_touch_bind, all_require_bind, Touch.Inside, all_pure,
    implies_true, and_true, ResultThere]
  constructor
  · rintro ⟨there, rest⟩
    refine ⟨by omega, fun kind => ?_⟩
    obtain ⟨-, there, rest⟩ := rest kind
    refine ⟨by omega, fun fine => ?_⟩
    have room := rest fine
    omega
  · rintro ⟨there, rest⟩
    refine ⟨by omega, fun kind => ?_⟩
    obtain ⟨there, rest⟩ := rest kind
    refine ⟨by omega, by omega, fun fine => ?_⟩
    have room := rest fine
    omega

theorem touch_eq_ok {result : Unit} :
    (touch frame touched).value = .ok result ↔ touched.Inside frame.length := by
  simp [touch, bind_eq_ok]

theorem certResultBlock_eq_ok {start : Nat} (there : ResultThere message start) :
    (certResultBlock message cfg start).value = .ok signAt ↔
      Wapi.certResultBlock cfg message start = .passed signAt := by
  simp only [certResultBlock, bind_eq_ok, touch_eq_ok, require_eq_ok, pure_eq_ok, exists_const,
    Touch.Inside, Wapi.certResultBlock]
  obtain ⟨-, there⟩ := there
  by_cases kind : byteAt message start = 2
  · obtain ⟨here, there⟩ := there kind
    by_cases fine : byteAt message (start + 72 + readWord message (start + 70)) = 0
    · have room := there fine
      rw [if_neg (not_not.mpr kind), if_neg (not_not.mpr fine)]
      constructor
      · rintro ⟨-, -, -, -, -, -, -, -, -, -, verified, same⟩
        rw [if_neg (by rw [verified]; decide), same]
      · intro passed
        split at passed
        next => cases passed
        next verified =>
          rw [Bool.not_eq_false] at verified
          refine ⟨by omega, kind, by omega, by omega, fine, by omega, by omega, by omega, by omega,
            by omega, verified, ?_⟩
          injection passed
    · simp [kind, fine]
  · simp [kind]

theorem resultBlock_bind {next : Nat → Receive α} :
    (resultBlock message cfg (resultAt cfg supplicant message) >>= next).All
        (Touch.Inside message.length) ↔
      (byteAt message 0 &&& 0x08 ≠ 0 → ResultThere message (resultAt cfg supplicant message)) ∧
        ∀ signAt, Wapi.resultBlock cfg supplicant message = .passed signAt →
          (next signAt).All (Touch.Inside message.length) := by
  simp only [all_bind, resultBlock, Wapi.resultBlock]
  split
  next listed =>
    rw [certResultBlock_inside, forall_prop_of_true listed]
    exact and_congr_right fun there =>
      forall_congr' fun signAt => imp_congr_left (certResultBlock_eq_ok there)
  next plain => simp [plain]

theorem acceptSigned_inside (long : 48 ≤ message.length) :
    (acceptSigned message cfg supplicant signAt).All (Touch.Inside message.length) ↔
      SignedThere message cfg supplicant signAt := by
  unfold acceptSigned SignedThere
  cases cfg.getCertObj supplicant.aeCert.certFlag with
  | none => simp
  | some certObj =>
    simp only [Option.bind_some, Option.mem_def, Option.some.injEq, forall_eq']
    cases certObj.getPublicKey supplicant.aeCert.bytes with
    | none => simp
    | some pubkey =>
      simp only [all_touch_bind, all_require_bind, all_touch, Touch.Inside, Option.some.injEq,
        forall_eq', Nat.zero_add]
      refine and_congr_right fun _ => there (by omega) (imp_congr_right fun _ => ?_)
      omega

theorem waigroupCert33_inside :
    (waigroupCert33 message cfg supplicant).All (Touch.Inside message.length) ↔
      ResponseFits message cfg supplicant := by
  have keyAt : aeKeyAt supplicant = 67 + supplicant.asueKeyData.length := rfl
  have short := (byteAt message (aeKeyAt supplicant)).toNat_lt
  simp only [waigroupCert33, all_touch_bind, all_require_bind, expectId_bind]
  simp only [all_require_bind, cmpVarStruct_bind, resultBlock_bind, Touch.Inside, Target.size,
    ResponseFits]
  refine imp_congr_right fun _ => and_congr (by omega) (imp_congr_right fun _ => ?_)
  refine and_congr (by omega) (imp_congr_right fun _ => ?_)
  rw [← and_assoc]
  refine and_congr (by omega) (imp_congr_right fun _ => ?_)
  refine and_congr (by omega) (imp_congr_right fun _ => ?_)
  refine and_congr (by omega) (imp_congr_right fun _ => ?_)
  rw [← and_assoc, ← and_assoc, ← and_assoc]
  refine and_congr (by omega) (imp_congr_right fun _ => ?_)
  refine and_congr_right fun room => imp_congr_right fun _ => and_congr_right fun _ => ?_
  refine forall_congr' fun signAt => imp_congr_right fun _ => acceptSigned_inside ?_
  have head := room.1
  omega

theorem waigroupUnicast13_inside :
    (waigroupUnicast13 message listener).All (Touch.Inside message.length) ↔
      RequestNamesKey message listener := by
  simp only [waigroupUnicast13, all_touch_bind, all_require_bind, Touch.Inside, RequestNamesKey]
  refine imp_congr_right fun large => there (by omega) (there (by omega) ?_)
  refine imp_congr_right fun _ => there (by omega) (imp_congr_right fun _ => ?_)
  split
  next update =>
    simp only [all_touch_bind, all_require_bind, all_touch, Touch.Inside, update, forall_const,
      Bool.true_eq_false, false_implies, and_true]
    refine imp_congr_right fun names => ⟨fun all => all.1, fun stored => ⟨stored, by omega, ?_⟩⟩
    intro _
    refine ⟨?_, by omega⟩
    split at names <;> omega
  next plain =>
    simp only [all_touch_bind, all_touch, Touch.Inside, plain, Bool.false_eq_true,
      false_implies, true_and, forall_const]
    omega

theorem waigroupUnicast33_inside :
    (waigroupUnicast33 message cfg debug listener).All (Touch.Inside message.length) ↔
      ConfirmationFits message cfg debug listener := by
  simp only [waigroupUnicast33, all_touch_bind, all_require_bind, all_debugDump_bind,
    Touch.Inside, ConfirmationFits]
  refine and_congr_right fun _ => imp_congr_right fun _ => and_congr_right fun large => ?_
  refine imp_congr_right fun _ => there (by omega) (there (by omega) ?_)
  refine imp_congr_right fun _ => and_congr_right fun _ => ?_
  split
  next plain =>
    simp only [all_touch_bind, all_require_bind, all_expect_bind, all_touch, Touch.Inside, plain,
      ne_eq, not_true_eq_false, not_false_eq_true, or_true, forall_const, false_or]
    constructor
    · rintro ⟨-, other, same⟩
      refine ⟨?_, fun ⟨size, element⟩ => ((same size).2 element).2⟩
      by_cases size : ((byteAt message 63).toNat + 2) % 256 =
          listener.supplicant.asue.apWapiIe.length
      · exact (same size).1
      · exact other size
    · rintro ⟨room, key⟩
      exact ⟨fun _ => room, fun _ => room, fun size => ⟨room, fun element =>
        ⟨by omega, key ⟨size, element⟩⟩⟩⟩
  next update =>
    simp only [all_touch_bind, all_touch, Touch.Inside, ne_eq, update, not_false_eq_true,
      not_true_eq_false, or_false, true_or, forall_const]
    exact and_congr_right fun _ => and_iff_right (by omega)

theorem waigroupMulticast12_inside :
    (waigroupMulticast12 message cfg listener).All (Touch.Inside message.length) ↔
      AnnouncementFits message cfg listener := by
  simp only [waigroupMulticast12, all_touch_bind, all_require_bind, checkAddid_bind, all_touch,
    Touch.Inside, AnnouncementFits, UInt8.toNat_inj]
  refine imp_congr_right fun _ => and_congr (by omega) (imp_congr_right fun _ => ?_)
  rw [← and_assoc]
  refine and_congr (by omega) (imp_congr_right fun _ => imp_congr_right fun _ => ?_)
  refine and_congr_right fun large => imp_congr_right fun _ => ?_
  refine there (by omega) (imp_congr_right fun _ => and_congr_right fun _ => ?_)
  refine there (by omega) (there (by omega) (imp_congr_right fun _ => ?_))
  omega

theorem handle_inside {draw : Option Draw} {whole : Bytes} :
    (handle cfg debug draw listener whole).All (Touch.Inside (payload whole).length) ↔
      HandledFits cfg debug draw listener whole := by
  simp only [handle, HandledFits, SubType.code]
  split
  next ignored => simp [ignored]
  next heard =>
    rw [forall_prop_of_true heard]
    generalize getPacketSubType whole = stype
    by_cases active : stype = 3
    · simp [active, waigroupCert13_inside]
    by_cases response : stype = 5
    · simp [response, waigroupCert33_inside]
    by_cases request : stype = 8
    · simp [request, waigroupUnicast13_inside]
    by_cases confirmation : stype = 10
    · simp [confirmation, waigroupUnicast33_inside]
    by_cases announcement : stype = 11
    · simp [announcement, waigroupMulticast12_inside]
    simp [active, response, request, confirmation, announcement]

theorem iwnWpaDefrag_inside {rxfrag : Option RxFrag}
    (made : ∀ frag ∈ rxfrag, frag.Made) (short : frame.length ≤ pageLen) :
    (iwnWpaDefrag frame rxfrag).All (Touch.Inside frame.length) ↔ headLen ≤ frame.length := by
  have twelve : headLen = 12 := rfl
  have page : pageLen = 4096 := rfl
  simp only [iwnWpaDefrag, all_touch_bind, Touch.Inside]
  refine and_iff_left_of_imp fun head => ?_
  split
  · exact all_pure
  · split
    · split
      · exact all_touch.mpr (by simp only [Touch.Inside, Target.size]; omega)
      · exact all_pure
    next frag kept =>
      obtain ⟨present, expects⟩ := Option.filter_eq_some_iff.mp kept
      obtain ⟨size, filled⟩ := made frag present
      simp only [RxFrag.expects, Bool.and_eq_true, decide_eq_true_eq] at expects
      have room := expects.2
      simp only [all_touch_bind, all_touch, Touch.Inside, Target.size]
      omega

theorem checkWaiFrame_inside : (checkWaiFrame frame).All (Touch.Inside frame.length) := by
  have twelve : headLen = 12 := rfl
  simp only [checkWaiFrame, all_touch_bind, all_require_bind, all_touch, Touch.Inside]
  omega

end Inside

end Receive

theorem iwnWpaDefrag_made {rxfrag : Option RxFrag} {frame : Bytes}
    (made : ∀ frag ∈ rxfrag, frag.Made) (short : frame.length ≤ pageLen) :
    ∀ frag ∈ (iwnWpaDefrag rxfrag frame).1, frag.Made := by
  have twelve : headLen = 12 := rfl
  simp only [iwnWpaDefrag]
  split
  · exact made
  · split
    · split
      · simp only [Option.mem_def, Option.some.injEq, forall_eq']
        split
        · exact ⟨rfl, by simpa [wpaPutFrag, mallocRxfrag] using short⟩
        · exact ⟨rfl, Nat.zero_le _⟩
      · exact fun _ none => absurd none (by simp)
    next frag kept =>
      simp only [Option.mem_def, Option.some.injEq, forall_eq']
      obtain ⟨present, expects⟩ := Option.filter_eq_some_iff.mp kept
      obtain ⟨size, filled⟩ := made frag present
      simp only [RxFrag.expects, Bool.and_eq_true, decide_eq_true_eq] at expects
      refine ⟨size, ?_⟩
      simp only [RxFrag.append, wpaPutFrag, List.length_drop]
      omega

/-- While a frame is put together and handled, all that is read is in the frame or in the
payload, the arrays have room, and the keys that are taken exist. -/
structure ReceiveSafe (cfg : AsueConfig) (debug : Bool) (draw : Option Draw) (listener : Listener)
    (frame : Bytes) : Prop where
  defrag : (Receive.iwnWpaDefrag frame listener.rxfrag).All (Touch.Inside frame.length)
  check : ∀ whole, (iwnWpaDefrag listener.rxfrag frame).2 = some whole →
    (Receive.checkWaiFrame whole).All (Touch.Inside whole.length)
  handled : ∀ whole, (iwnWpaDefrag listener.rxfrag frame).2 = some whole →
    (Receive.handle cfg debug draw listener whole).All (Touch.Inside (payload whole).length)

theorem receiveSafe_iff (cfg : AsueConfig) (debug : Bool) (draw : Option Draw) (listener : Listener)
    {frame : Bytes} (short : frame.length ≤ pageLen) :
    ReceiveSafe cfg debug draw listener frame ↔ ReceiveFits cfg debug draw listener frame := by
  simp only [ReceiveFits, ← Receive.handle_inside,
    ← Receive.iwnWpaDefrag_inside listener.made short]
  exact ⟨fun safe => ⟨safe.defrag, safe.handled⟩,
    fun ⟨defrag, handled⟩ => ⟨defrag, fun _ _ => Receive.checkWaiFrame_inside, handled⟩⟩

/-- A station with a preshared key, associated. -/
def pskListener : Listener where
  supplicant := { activatedSupplicant with asue := { activatedSupplicant.asue with psk := true } }
  uskid := 1
  rxfrag := none
  made := fun _ none => nomatch none

def sixthKey : Bytes :=
  [0, 1, 1, 8, 0, 0, 0, 74, 0, 1, 0, 0] ++ List.replicate 17 0 ++ [5] ++ List.replicate 44 0

theorem receiveSafe_iff_sixthKey :
    sixthKey.length ≤ pageLen ∧ (ReceiveSafe certificateConfig false none pskListener sixthKey ↔
        ReceiveFits certificateConfig false none pskListener sixthKey) :=
  ⟨by decide, receiveSafe_iff certificateConfig false none pskListener (by decide)⟩

theorem sixthKey_outside :
    sixthKey.length ≤ 4096 ∧ ¬ReceiveSafe certificateConfig false none pskListener sixthKey := by
  refine ⟨by decide, fun safe => ?_⟩
  have fits := Receive.handle_inside.mp (safe.handled sixthKey (by decide))
  obtain ⟨-, -, named, -⟩ := fits (by decide)
  obtain ⟨-, plain⟩ := named (by decide) (by decide) (by decide) (by decide)
  exact absurd (plain (by decide)) (by decide)

end AthApps.Wapi
