import AthApps.Wapi.KeyNeg

/-!
# Certificate authentication

The functions of `cert_auth.c` that speak with a station and with the server
about certificates.  An access point that has no certificate has empty ones.

A message that does not fit in its buffer is written beyond it, and from there
on the program has no meaning.
-/

set_option autoImplicit false

namespace AthApps.Wapi

open AthApps.Lib Option

def fromMtLen : Nat := 1500

def fromAsLen : Nat := 3000

def waiFixdataIdByIdent (cfg : Config) (cert : Bytes) (index : Nat) : Option FixdataId := do
  let certObj ← cfg.getCertObj index
  let subject ← certObj.getSubject cert
  let issuer ← certObj.getIssuer cert
  let serial ← certObj.getSerial cert
  if subject.length + issuer.length + serial.length > 1000 then
    none
  else
    some ⟨index, subject ++ issuer ++ serial⟩

def packAuthActive (cfg : Config) (sta : Sta) (flag : UInt8) (aeAuthFlag : Vector UInt8 32)
    (asuId : FixdataId) : Bytes :=
  packMessage .authactive sta.aeGroupSc.toNat
    ([flag] ++ aeAuthFlag.toList ++ packFixdata asuId.idFlag asuId.idData ++
      packFixdata cfg.usedCert cfg.userCert ++ packParaAlg standardEcdh)

/-- `ap_activate_sta`, once the message is packed. -/
def sendActivation (cfg : Config) (now : UInt32) (ok : Bool) (flag : UInt8)
    (aeAuthFlag : Vector UInt8 32) (frame : Bytes) (sta : Sta) : Sta × List Mark :=
  let sta := { sta with
    flag := (sta.flag &&& 0xFC) ||| (flag &&& 0x03)
    bksa := { sta.bksa with aeAuthFlag := aeAuthFlag }
    ecdh := standardEcdh }
  let sta := setTableItem cfg now sta .sta .buf0 frame .authactive
  let sta :=
    if ok then
      { sta with
        aeGroupSc := sta.aeGroupSc + 1
        status := if sta.status = .noAuth then .waitingAccessReq else sta.status }
    else sta
  (sta, [.sent frame])

theorem sendActivation_eq (cfg : Config) (now : UInt32) (ok : Bool) (flag : UInt8)
    (aeAuthFlag : Vector UInt8 32) (frame : Bytes) (sta : Sta) :
    sendActivation cfg now ok flag aeAuthFlag frame sta =
      ({ sta with
        status := if ok ∧ sta.status = .noAuth then .waitingAccessReq else sta.status
        flag := (sta.flag &&& 0xFC) ||| (flag &&& 0x03)
        bksa := { sta.bksa with aeAuthFlag := aeAuthFlag }
        ecdh := standardEcdh
        sendinfo := ⟨now, 1, 1, .sta, cfg.maxCount .authactive⟩
        buf0 := some frame
        aeGroupSc := if ok then sta.aeGroupSc + 1 else sta.aeGroupSc }, [.sent frame]) := by
  by_cases idle : sta.status = .noAuth <;> cases ok <;> simp [sendActivation, setTableItem, idle]

def apActivateSta (cfg : Config) (now : UInt32) (nonce : Vector UInt8 32) (ok : Bool) (sta : Sta) :
    Option (Sta × List Mark) :=
  if cfg.hasCert = false then some (sta, [])
  else
    let flag : UInt8 := if sta.bksa.bkUpdate then 0x01 else 0
    let aeAuthFlag := if sta.bksa.bkUpdate then sta.bksa.aeAuthFlag else nonce
    match waiFixdataIdByIdent cfg cfg.asuCert cfg.usedCert with
    | none => some (sta, [])
    | some asuId =>
      let frame := packAuthActive cfg sta flag aeAuthFlag asuId
      if fromMtLen < frame.length then none
      else some (sendActivation cfg now ok flag aeAuthFlag frame sta)

variable {cfg : Config} {now : UInt32} {table : Slot → Sta} {sta : Sta}

variable {frame : Bytes} {seed : Bytes} {result : Sta × List Mark}
  {nonce : Vector UInt8 32}

theorem apActivateSta_cases {ok : Bool}
    (activated : apActivateSta cfg now nonce ok sta = some result) :
    result = (sta, []) ∨ ∃ flag aeAuthFlag asuId, result =
      sendActivation cfg now ok flag aeAuthFlag (packAuthActive cfg sta flag aeAuthFlag asuId)
        sta := by
  unfold apActivateSta at activated
  split at activated
  · exact Or.inl (some.inj activated).symm
  · cases named : waiFixdataIdByIdent cfg cfg.asuCert cfg.usedCert with
    | none =>
      rw [named] at activated
      exact Or.inl (some.inj activated).symm
    | some asuId =>
      simp only [named, ite_none_left_eq_some] at activated
      exact Or.inr ⟨_, _, asuId, (some.inj activated.2).symm⟩

/-- `certificate_auth_req`, after the challenge was drawn. -/
def packApAuthRequest (cfg : Config) (request : StaAuthRequest) (sta : Sta) : Bytes :=
  let trusted := match request.asuIdList with
    | none => []
    | some list =>
      [3] ++ word list.length ++ [list.rev] ++ word list.ids.length ++
        list.ids.flatMap fun id => packFixdata id.idFlag id.idData
  packMessage .apAuthRequest 1 (cfg.addid sta ++ sta.aeNonce.toList ++ sta.asueNonce.toList ++
      packFixdata request.asueCert.certFlag request.asueCert.certBin ++
      packFixdata cfg.usedCert cfg.userCert ++ trusted)

/-- What `access_auth_req` ends in. -/
inductive RequestResult
  | undefined
  | refused
  | accepted (sta : Sta) (frame : Bytes)

def authRequestValid (cfg : Config) (sta : Sta) (frame : Bytes) (request : StaAuthRequest) :
    Bool :=
  request.aeAuthFlag == sta.bksa.aeAuthFlag &&
    (sta.status ≠ .waitingAccessReq || request.flag &&& 0x03 == sta.flag &&& 0x03) &&
    request.aeId == cfg.aeId && request.ecdh == sta.ecdh && request.asueCert.certFlag == 1 &&
    match cfg.x509.getPublicKey request.asueCert.certBin with
    | none => false
    | some publicKey =>
      cfg.x509.verify publicKey (slice frame headLen (request.signOffset - headLen))
        request.asueSign.signData

/-- What `access_auth_req` keeps of a request. -/
def requestTaken (cfg : Config) (nonce : Vector UInt8 32) (request : StaAuthRequest) (sta : Sta) :
    Sta :=
  { sta with
    asueNonce := request.asueChallenge
    asueKeyData := request.keyData
    asueId := (waiFixdataIdByIdent cfg request.asueCert.certBin request.asueCert.certFlag).getD
      sta.asueId
    asueCertHash := cfg.crypto.mhashSha256 request.asueCert.certBin
    flag := (sta.flag &&& 0xFB) ||| (request.flag &&& 0x04)
    aeNonce := nonce }

def accessAuthReq (cfg : Config) (nonce : Vector UInt8 32) (sta : Sta) (frame : Bytes) :
    RequestResult :=
  -- a request that was sent again
  if sta.status = .waitingAuthFromAs then .refused
  else
    match unpackStaAuthRequest frame with
    | .error .packError => .refused
    | .error .overrun => .undefined
    | .ok request =>
      if authRequestValid cfg sta frame request then
        let sta := requestTaken cfg nonce request sta
        let message := packApAuthRequest cfg request sta
        if fromMtLen < message.length then .undefined
        else .accepted (resetTableItem sta) message
      else
        .refused

theorem accessAuthReq_accepted {sta later : Sta} {frame message : Bytes}
    (accepted : accessAuthReq cfg nonce sta frame = .accepted later message) :
    sta.status ≠ .waitingAuthFromAs ∧ ∃ request,
      later = resetTableItem (requestTaken cfg nonce request sta) ∧
      message = packApAuthRequest cfg request (requestTaken cfg nonce request sta) := by
  unfold accessAuthReq at accepted
  split at accepted
  · cases accepted
  next status =>
    split at accepted
    · cases accepted
    · cases accepted
    next request unpacked =>
      dsimp only at accepted
      split at accepted
      · split at accepted
        · cases accepted
        · cases accepted
          exact ⟨status, request, rfl, rfl⟩
      · cases accepted

/-- `ap_certauthbk_derivation`; without a result the entry stays as it is. -/
def apCertauthbkDerivation (cfg : Config) (seed : Bytes) (sta : Sta) : Option Sta := do
  let certObj ← cfg.getCertObj cfg.usedCert
  let (publicKey, privateKey) ← certObj.genkey seed
  let shared ← certObj.dh sta.asueKeyData privateKey
  let expanded := cfg.crypto.kdHmacSha256
    (sta.aeNonce.toList ++ sta.asueNonce.toList ++ bkText) shared 48
  let bk := fixed 16 (slice expanded 0 16)
  return { sta with
    aeKeyData := publicKey
    bksa := { sta.bksa with
      bk := bk
      aeAuthFlag := cfg.crypto.mhashSha256 (slice expanded 16 32)
      bkid := fixed 16 (cfg.crypto.kdHmacSha256 (cfg.addid sta) bk.toList 16) } }

/-- What `certificate_auth_res` ends in. -/
inductive ResponseResult
  | undefined
  -- it returned -3 or -4
  | refused
  -- it returned -1 or -2: the certificate of the station is not valid
  | rejected (i : Slot) (sta : Sta)
  -- it returned 0
  | accepted (i : Slot) (sta : Sta)

/-- The key that verifies the response: the one of the server, or of the authority
above it, by the identity of the signer.  `ca_id` is zero unless `cert_mode` is 2. -/
def trustedKey (cfg : Config) (signer : FixdataId) : Option Bytes := do
  let asId ← waiFixdataIdByIdent cfg cfg.asuCert cfg.usedCert
  let caId ←
    if cfg.certMode = 2 then waiFixdataIdByIdent cfg cfg.caCert cfg.usedCert else some ⟨0, []⟩
  if signer.idData = asId.idData then some cfg.asuPublickey
  else if signer.idData = caId.idData then some cfg.caPubkey
  else none

/-- What the signature of the response covers: from behind the ADDID to the signature. -/
def signedData (frame : Bytes) (response : ApAuthResponse) : Bytes :=
  slice frame (headLen + 12) (response.aeSignOffset - headLen - 12)

/-- The tests of `certificate_auth_res` on an entry. -/
def authResponseValid (cfg : Config) (sta : Sta) (frame : Bytes)
    (response : ApAuthResponse) : Bool :=
  sta.status == .waitingAuthFromAs && sta.aeNonce == response.certResult.aeChallenge &&
    match trustedKey cfg response.aeTrustAsuSign.id with
    | none => false
    | some key =>
      sta.asueCertHash == cfg.crypto.mhashSha256 response.certResult.cert1.certBin &&
        response.aeTrustAsuSign.alg.signPara.paraData == curveOid &&
        match cfg.getCertObj cfg.usedCert with
        | none => false
        | some certObj =>
          certObj.verify key (signedData frame response) response.aeTrustAsuSign.signData

/-- What `certificate_auth_res` makes of the entry if it returns 0; a failure of the
derivation is not looked at. -/
def responseTaken (cfg : Config) (now : UInt32) (seed : Bytes) (sta : Sta) : Sta :=
  let sta := { sta with authResult := 0 }
  let sta := (apCertauthbkDerivation cfg seed sta).getD sta
  resetTableItem { sta with
    bkLifeTimeout := now + cfg.bkLifetime
    bkReauthTimeout := now + cfg.bkLifetime * cfg.bkReauthThreshold / 100 }

/-- Only the base key and the lifetimes are new, and nothing is left to be sent again. -/
theorem responseTaken_eq (cfg : Config) (now : UInt32) (seed : Bytes) (sta : Sta) :
    ∃ aeKeyData bksa bkLifeTimeout bkReauthTimeout, responseTaken cfg now seed sta =
      resetTableItem { sta with
        authResult := 0
        aeKeyData := aeKeyData
        bksa := bksa
        bkLifeTimeout := bkLifeTimeout
        bkReauthTimeout := bkReauthTimeout } := by
  simp only [responseTaken]
  cases derived : apCertauthbkDerivation cfg seed { sta with authResult := 0 } with
  | none => exact ⟨sta.aeKeyData, sta.bksa, _, _, rfl⟩
  | some later =>
    simp only [apCertauthbkDerivation, bind_eq_bind, bind_eq_some_iff,
      pure_def, some.injEq] at derived
    obtain ⟨certObj, -, keys, -, shared, -, rfl⟩ := derived
    exact ⟨keys.1, _, _, _, rfl⟩

def certificateAuthRes (cfg : Config) (now : UInt32) (seed : Bytes) (table : Slot → Sta)
    (frame : Bytes) : ResponseResult :=
  match unpackApAuthResponse frame with
  | .error .packError => .refused
  | .error .overrun => .undefined
  | .ok response =>
    match apGetSta response.mac2 table with
    | none => .refused
    | some i =>
      if authResponseValid cfg (table i) frame response = false then .refused
      else if response.certResult.authResult1 ≠ 0 then
        .rejected i { table i with authResult := 2 }
      else
        .accepted i (responseTaken cfg now seed (table i))

variable {i : Slot}

theorem certificateAuthRes_accepted :
    certificateAuthRes cfg now seed table frame = .accepted i sta ↔
      ∃ response, unpackApAuthResponse frame = .ok response ∧
        apGetSta response.mac2 table = some i ∧
        authResponseValid cfg (table i) frame response = true ∧
        response.certResult.authResult1 = 0 ∧ sta = responseTaken cfg now seed (table i) := by
  constructor
  · intro accepted
    unfold certificateAuthRes at accepted
    split at accepted
    · cases accepted
    · cases accepted
    next response unpacked =>
      split at accepted
      · cases accepted
      next j found =>
        split at accepted
        · cases accepted
        next valid =>
          split at accepted
          · cases accepted
          next result =>
            cases accepted
            exact ⟨response, unpacked, found, by simpa using valid, by simpa using result, rfl⟩
  · rintro ⟨response, unpacked, found, valid, result, rfl⟩
    simp [certificateAuthRes, unpacked, found, valid, result]

theorem certificateAuthRes_taken
    (accepted : certificateAuthRes cfg now seed table frame = .accepted i sta) :
    (table i).status = .waitingAuthFromAs ∧ sta = responseTaken cfg now seed (table i) := by
  obtain ⟨response, -, -, valid, -, taken⟩ := certificateAuthRes_accepted.mp accepted
  simp only [authResponseValid, Bool.and_eq_true, beq_iff_eq] at valid
  exact ⟨valid.1.1, taken⟩

theorem certificateAuthRes_rejected
    (rejected : certificateAuthRes cfg now seed table frame = .rejected i sta) :
    (table i).status = .waitingAuthFromAs ∧ sta = { table i with authResult := 2 } := by
  unfold certificateAuthRes at rejected
  split at rejected
  · cases rejected
  · cases rejected
  next response unpacked =>
    split at rejected
    · cases rejected
    next j found =>
      split at rejected
      · cases rejected
      next valid =>
        split at rejected
        · cases rejected
          simp only [authResponseValid, Bool.not_eq_false, Bool.and_eq_true, beq_iff_eq] at valid
          exact ⟨valid.1.1, rfl⟩
        · cases rejected

def packAccessResponse (cfg : Config) (sta : Sta) (content : Bytes) : Bytes :=
  let flag := (sta.flag &&& 0x03) ||| (if sta.flag &&& 0x04 ≠ 0 then 0x08 else 0)
  [flag] ++ sta.asueNonce.toList ++ sta.aeNonce.toList ++ [sta.authResult] ++
    packByteData sta.asueKeyData ++ packByteData sta.aeKeyData ++
    packFixdata cfg.aeId.idFlag cfg.aeId.idData ++
    packFixdata sta.asueId.idFlag sta.asueId.idData ++
    (if flag &&& 0x08 ≠ 0 then content else [])

def packSignature (cfg : Config) (signature : Bytes) : Bytes :=
  let content := packFixdata cfg.aeId.idFlag cfg.aeId.idData ++ packSignAlg ++
    word signature.length ++ signature
  [1] ++ word content.length ++ content

/-- `access_auth_res`; it does not look at the outcome of the sending. -/
def accessAuthRes (cfg : Config) (now : UInt32) (sta : Sta) (content : Bytes) :
    Option (Sta × List Mark) :=
  let body := packAccessResponse cfg sta content
  if fromAsLen < headLen + body.length then none
  else
    match cfg.x509.sign cfg.userPrivatekey body with
    | none | some [] => some (sta, [])
    | some signature =>
      let frame := packMessage .staAccessResponse sta.aeGroupSc.toNat
        (body ++ packSignature cfg signature)
      if fromAsLen < frame.length then none
      else
        let sta := setTableItem cfg now sta .sta .buf0 frame .staAccessResponse
        some ({ sta with aeGroupSc := sta.aeGroupSc + 1 }, [.sent frame])

theorem accessAuthRes_cases {content : Bytes}
    (responded : accessAuthRes cfg now sta content = some result) :
    result = (sta, []) ∨ ∃ frame, result =
      ({ setTableItem cfg now sta .sta .buf0 frame .staAccessResponse with
        aeGroupSc := (setTableItem cfg now sta .sta .buf0 frame .staAccessResponse).aeGroupSc + 1 },
        [.sent frame]) := by
  unfold accessAuthRes at responded
  dsimp only at responded
  split at responded
  · cases responded
  · split at responded
    · exact Or.inl (some.inj responded).symm
    · exact Or.inl (some.inj responded).symm
    · split at responded
      · cases responded
      · exact Or.inr ⟨_, (some.inj responded).symm⟩

end AthApps.Wapi
