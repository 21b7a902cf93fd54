import AthApps.Wapi.Asue

/-!
# Certificate authentication in the supplicant

The certificate part of `libiwnwai_asue`: `waigroup_cert_1_3`,
`waigroup_cert_2_3_send` and `waigroup_cert_3_3` of `wapi.c`, and around them the
whole library, with the association of `WAI_Msg_Input`, `iwn_wapi_sm_rx_wai` and
the timer.

A certificate, the elliptic curve and its keys are the functions of `X509`.  The
handlers read a received frame at offsets that the frame itself gives, so they may
look behind its end; what is there is an input, `behind`.  A copy to an array that
is too small for it leaves the program without a meaning.
-/

set_option autoImplicit false

namespace AthApps.Wapi

open AthApps.Lib

/-- `cert_id`; `data` is the array. -/
structure CertId where
  certFlag : Nat
  length : Nat
  data : Bytes

def CertId.bytes (cert : CertId) : Bytes := cert.data.take cert.length

/-- `byte_data`; `data` is the array. -/
structure ByteData where
  length : Nat
  data : Bytes

/-- The certificates of `iwn_eloop`, its identity, and the base key of a password. -/
structure AsueConfig where
  -- the hash functions and the cipher
  base : Config
  x509 : X509
  usedCert : Nat
  certBin : Bytes
  asueId : FixdataId
  asuPubkey : Bytes
  privateKey : Bytes
  pskBk : Vector UInt8 16

/-- `get_cert_obj`; only the X.509 object is ever registered. -/
def AsueConfig.getCertObj (cfg : AsueConfig) (index : Nat) : Option X509 :=
  if index = 1 then some cfg.x509 else none

/-- `struct wapi_asue_st`, with the fields of certificate authentication. -/
structure Supplicant where
  asue : Asue
  flag : UInt8
  aeAuthFlag : Vector UInt8 32
  nasue : Vector UInt8 32
  nae : Vector UInt8 32
  aeCert : CertId
  aeId : FixdataId
  ecdh : ParaAlg
  asueEck : Bytes
  asueKeyData : Bytes
  aeKeyData : ByteData

/-- What `get_random` and `ecc192_genkey` give to one handler. -/
structure Draw where
  nonce : Vector UInt8 32
  eck : Vector UInt8 24
  keyData : Vector UInt8 49

/-- The results 0, -1 and -2 of a handler. -/
inductive CertHandled
  | undefined
  | done (supplicant : Supplicant) (marks : List AsueMark)
  | discarded (supplicant : Supplicant)
  | refused (supplicant : Supplicant)

def asueInitializeAlg : FixdataAlg := ⟨16, 1, 1, standardEcdh⟩

def packFixdataAlg (alg : FixdataAlg) : Bytes :=
  word alg.algLength ++ [alg.sha256Flag, alg.signAlg] ++ packParaAlg alg.signPara

def accessRequestData (cfg : AsueConfig) (supplicant : Supplicant) : Bytes :=
  [supplicant.flag] ++ supplicant.aeAuthFlag.toList ++ supplicant.nasue.toList ++
    packByteData supplicant.asueKeyData ++
    packFixdata supplicant.aeId.idFlag supplicant.aeId.idData ++
    packFixdata cfg.usedCert cfg.certBin ++ packParaAlg supplicant.ecdh

def packAuthPayload (id : FixdataId) (alg : FixdataAlg) (sign : Bytes) : Bytes :=
  let content := packFixdata id.idFlag id.idData ++ packFixdataAlg alg ++
    word sign.length ++ sign
  [1] ++ word content.length ++ content

def packAccessRequest (cfg : AsueConfig) (supplicant : Supplicant)
    (sign : Vector UInt8 48) : Bytes :=
  buildFrame .staAcessRequest supplicant.asue.txseq (accessRequestData cfg supplicant ++
      packAuthPayload cfg.asueId asueInitializeAlg sign.toList)

/-- `waigroup_cert_2_3_send`; `tbuf` has 2048 bytes. -/
def waigroupCert23Send (cfg : AsueConfig) (supplicant : Supplicant) : CertHandled :=
  let supplicant := { supplicant with
    asue := { supplicant.asue with txseq := supplicant.asue.txseq + 1 }
    flag := 0x04 ||| supplicant.flag }
  match cfg.x509.sign cfg.privateKey (accessRequestData cfg supplicant) with
  | none => .discarded supplicant
  | some sign =>
    let frame := packAccessRequest cfg supplicant (fixed 48 sign)
    if 2048 < frame.length then .undefined
    else
      .done { supplicant with
        asue := timerSet 1 frame { supplicant.asue with state := .cntReq } } [.sent frame]

/-- `iwn_wai_fixdata_id_by_ident`; without a name the old data stays. -/
def fixdataIdByIdent (cfg : AsueConfig) (old : FixdataId) (cert : CertId) : FixdataId :=
  let names := do
    let certObj ← cfg.getCertObj cert.certFlag
    let subject ← certObj.getSubject cert.bytes
    let issuer ← certObj.getIssuer cert.bytes
    let serial ← certObj.getSerial cert.bytes
    return subject ++ issuer ++ serial
  ⟨cert.certFlag, names.getD old.idData⟩

/-- The states in which `waigroup_cert_1_3` takes a message. -/
def acceptsActive (asue : Asue) (update : Bool) : Bool :=
  asue.state == (if update then .finish else .alAssoc) ||
    (asue.uskUpdated && update && asue.state == .uniAck)

def waigroupCert13 (cfg : AsueConfig) (draw : Draw) (supplicant : Supplicant)
    (frame : Bytes) : CertHandled :=
  let message := payload frame
  let update := byteAt message 0 &&& 1 != 0
  let aeAuthFlag := fixed 32 (slice message 1 32)
  if message.length < 44 ∨ supplicant.asue.psk ∨
      acceptsActive supplicant.asue update = false ∨
      (update ∧ aeAuthFlag ≠ supplicant.aeAuthFlag) then
    .discarded supplicant
  else
    let supplicant := { supplicant with aeAuthFlag := aeAuthFlag }
    let idLen := readWord message 35
    if message.length < 44 + idLen then .discarded supplicant
    else if 1000 < idLen then .undefined
    else
      let certAt := 37 + idLen
      let certLen := readWord message (certAt + 2)
      -- the length is set before it is looked at
      let supplicant := { supplicant with aeCert := { supplicant.aeCert with
        certFlag := readWord message certAt
        length := certLen } }
      if message.length < 44 + idLen + certLen then .discarded supplicant
      else if 2048 < certLen then .undefined
      else
        let aeCert := { supplicant.aeCert with
          data := overlay supplicant.aeCert.data 0 (slice message (certAt + 4) certLen) }
        let ecdhAt := certAt + 4 + certLen
        let paraLen := readWord message (ecdhAt + 1)
        let supplicant := { supplicant with
          aeCert := aeCert
          aeId := fixdataIdByIdent cfg supplicant.aeId aeCert }
        if message.length < 44 + idLen + certLen + paraLen then .discarded supplicant
        else if 256 < paraLen then .undefined
        else
          let supplicant := { supplicant with
            ecdh := ⟨byteAt message ecdhAt, slice message (ecdhAt + 3) paraLen⟩ }
          if message.length ≠ 44 + idLen + certLen + paraLen then .discarded supplicant
          else
            waigroupCert23Send cfg { supplicant with
              asueEck := draw.eck.toList
              asueKeyData := draw.keyData.toList
              nasue := draw.nonce }

/-- `cmp_var_struct`; whether the identity is there. -/
def sameId (memory : Bytes) (offset : Nat) (id : FixdataId) : Bool :=
  readWord memory offset == id.idFlag && readWord memory (offset + 2) == id.idData.length &&
    slice memory (offset + 4) id.idData.length == id.idData

/-- `asue_certauthbk_derivation`; the caller does not look at the result. -/
def asueCertauthbkDerivation (cfg : AsueConfig) (supplicant : Supplicant) : Supplicant :=
  match cfg.x509.dh supplicant.aeKeyData.data supplicant.asueEck with
  | none => supplicant
  | some ecdhkey =>
    let expanded := cfg.base.crypto.kdHmacSha256
      (supplicant.nae.toList ++ supplicant.nasue.toList ++ bkText) ecdhkey 48
    let bk := fixed 16 (slice expanded 0 16)
    let addid := supplicant.asue.bssid.toList ++ supplicant.asue.ownAddr.toList
    { supplicant with
      asue := { supplicant.asue with
        bk := bk
        bkid := fixed 16 (cfg.base.crypto.kdHmacSha256 addid bk.toList 16) }
      aeAuthFlag := cfg.base.crypto.mhashSha256 (slice expanded 16 32) }

/-- The attribute with the results of the certificates, at `start`: how the block of
`waigroup_cert_3_3` that reads it ends, with the offset behind the attribute and its
signature. -/
inductive ResultBlock
  | wrong
  | refused
  | passed (next : Nat)

/-- The result that counts is the second one.  Where the result of the second certificate
and the signature are is told by the lengths inside, what is signed by the length of the
attribute. -/
def certResultBlock (cfg : AsueConfig) (memory : Bytes) (start : Nat) : ResultBlock :=
  let second := start + 72 + readWord memory (start + 70)
  let asuSign := second + 5 + readWord memory (second + 3)
  let signLen := readWord memory (asuSign + 1)
  let extent := readWord memory (start + 1) + 3
  if byteAt memory start ≠ 2 then .wrong
  else if byteAt memory second ≠ 0 then .refused
  else if cfg.x509.verify cfg.asuPubkey (slice memory start extent)
      (slice memory (asuSign + 3 + signLen - 48) 48) = false then .wrong
  else .passed (start + extent + signLen + 3)

/-- The end of `waigroup_cert_3_3`: the signature of the access point at `signAt`, and the
base key. -/
def acceptSigned (cfg : AsueConfig) (supplicant : Supplicant) (memory : Bytes)
    (len signAt : Nat) : CertHandled :=
  let pubkey := (cfg.getCertObj supplicant.aeCert.certFlag).bind fun certObj =>
    certObj.getPublicKey supplicant.aeCert.bytes
  match pubkey with
  | none => .undefined
  | some pubkey =>
    if cfg.x509.verify pubkey (slice memory 0 signAt) (slice memory (len - 48) 48) = false ∨
        len ≠ signAt + 3 + readWord memory (signAt + 1) then
      .discarded supplicant
    else
      let supplicant := asueCertauthbkDerivation cfg supplicant
      .done { supplicant with asue := { supplicant.asue with state := .cntResp } } []

/-- The offset of the key data of the access point, behind the echoed key data. -/
def aeKeyAt (supplicant : Supplicant) : Nat := 67 + supplicant.asueKeyData.length

def resultAt (cfg : AsueConfig) (supplicant : Supplicant) (memory : Bytes) : Nat :=
  aeKeyAt supplicant + 1 + (byteAt memory (aeKeyAt supplicant)).toNat +
    supplicant.aeId.idData.length + 4 + cfg.asueId.idData.length + 4

/-- `waigroup_cert_3_3` looks at the certificate results if the message says that there
are some. -/
def resultBlock (cfg : AsueConfig) (supplicant : Supplicant) (memory : Bytes) : ResultBlock :=
  if byteAt memory 0 &&& 0x08 ≠ 0 then
    certResultBlock cfg memory (resultAt cfg supplicant memory)
  else
    .passed (resultAt cfg supplicant memory)

def takeKeyData (supplicant : Supplicant) (memory : Bytes) : Supplicant :=
  let length := (byteAt memory (aeKeyAt supplicant)).toNat
  { supplicant with aeKeyData := ⟨length, overlay supplicant.aeKeyData.data 0
    (slice memory (aeKeyAt supplicant + 1) length)⟩ }

/-- `waigroup_cert_3_3`; `memory` starts with the payload, which has `len` bytes. -/
def waigroupCert33 (cfg : AsueConfig) (supplicant : Supplicant) (memory : Bytes)
    (len : Nat) : CertHandled :=
  if supplicant.asue.state ≠ .cntReq ∨
      byteAt memory 0 &&& 0x03 ≠ supplicant.flag &&& 0x03 ∨
      slice memory 1 32 ≠ supplicant.nasue.toList then
    .discarded supplicant
  else
    let supplicant := { supplicant with nae := fixed 32 (slice memory 33 32) }
    let keyData := supplicant.asueKeyData
    if byteAt memory 65 ≠ 0 then .refused supplicant
    else if (byteAt memory 66).toNat ≠ keyData.length ∨
        slice memory 67 keyData.length ≠ keyData then
      .discarded supplicant
    else
      let supplicant := takeKeyData supplicant memory
      let aeIdAt := aeKeyAt supplicant + 1 + (byteAt memory (aeKeyAt supplicant)).toNat
      if sameId memory aeIdAt supplicant.aeId = false ∨
          sameId memory (aeIdAt + supplicant.aeId.idData.length + 4) cfg.asueId = false then
        .discarded supplicant
      else
        match resultBlock cfg supplicant memory with
        | .wrong => .discarded supplicant
        | .refused => .refused supplicant
        | .passed signAt => acceptSigned cfg supplicant memory len signAt

def initIv : Bytes :=
  [0x5c, 0x36, 0x5c, 0x36, 0x5c, 0x36, 0x5c, 0x36, 0x5c, 0x36, 0x5c, 0x36, 0x5c, 0x36, 0x5c, 0x35]

/-- `WAI_Msg_Input` with `CONN_ASSOC` -/
def connAssoc (cfg : AsueConfig) (bssid ownAddr : Mac) (assocIe : Bytes)
    (supplicant : Supplicant) : Supplicant :=
  let asue := { supplicant.asue with
    ownAddr := ownAddr
    state := .alAssoc
    uskUpdated := false
    rxseq := 0
    txseq := 1
    timer := { supplicant.asue.timer with t := 0, running := true } }
  let asue :=
    if asue.bssid = bssid then asue
    else
      let addid := bssid.toList ++ ownAddr.toList
      { asue with
        bssid := bssid
        mskAnnId := initIv
        bk := if asue.psk then cfg.pskBk else asue.bk
        bkid :=
          if asue.psk then
            fixed 16 (cfg.base.crypto.kdHmacSha256 addid cfg.pskBk.toList 16)
          else
            asue.bkid
        apWapiIe := assocIe.take 255 }
  { supplicant with asue := asue }

/-- What happens while the supplicant is associated. -/
inductive AsueInput
  -- `ok` is the outcome of the call that installs a key
  | frame (bytes behind : Bytes) (draw : Draw) (ok : Bool)
  | tick

/-- The supplicant, and the calls it made. -/
structure AsueRun where
  supplicant : Supplicant
  marks : List AsueMark

def smRxWai (cfg : AsueConfig) (bytes behind : Bytes) (draw : Draw) (ok : Bool)
    (supplicant : Supplicant) : Option (Supplicant × List AsueMark) :=
  let asue := supplicant.asue
  let lift (result : Asue × List AsueMark) (supplicant : Supplicant) :=
    ({ supplicant with asue := result.1 }, result.2)
  if asue.state = .noAssoc ∨ (asue.psk = false ∧ asue.hasCert = false) ∨
      checkWaiFrame asue bytes = false then
    some (supplicant, [])
  else if getPacketSubType bytes = SubType.authactive.code then
    match waigroupCert13 cfg draw supplicant bytes with
    | .undefined | .refused _ => none
    | .done supplicant marks => some (supplicant, marks)
    | .discarded supplicant => some (supplicant, [])
  else if getPacketSubType bytes = SubType.staAccessResponse.code then
    match waigroupCert33 cfg supplicant (payload bytes ++ behind) (payload bytes).length with
    | .undefined => none
    | .done supplicant marks => some (lift (timerReset supplicant.asue, marks) supplicant)
    | .discarded supplicant => some (lift (timerResend supplicant.asue) supplicant)
    | .refused supplicant => some (lift (wlanDeauthForOtherc supplicant.asue) supplicant)
  else
    (iwnWapiSmRxWai cfg.base draw.nonce ok asue bytes).map (lift · supplicant)

def asueStep (cfg : AsueConfig) (run : AsueRun) : AsueInput → Option AsueRun
  | .frame bytes behind draw ok =>
    (smRxWai cfg bytes behind draw ok run.supplicant).map fun result =>
      ⟨result.1, run.marks ++ result.2⟩
  | .tick =>
    let result := timerRun run.supplicant.asue
    some ⟨{ run.supplicant with asue := result.1 }, run.marks ++ result.2⟩

end AthApps.Wapi
