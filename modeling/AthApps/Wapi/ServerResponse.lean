import AthApps.Wapi.Change

/-!
# The responses of the server that are accepted

`certificate_auth_res` compares the identity of the signer with the one of the
server and then with `ca_id`, which is all zeros unless `cert_mode` is 2.  A
response without an identity passes that comparison, and its signature is tried
with whatever `ca_pubkey` holds.
-/

set_option autoImplicit false

namespace AthApps.Wapi

open AthApps.Lib Option

variable {cfg : Config} {table : Slot → Sta} {frame : Bytes} {i : Slot}

def SignedByServer (cfg : Config) (frame : Bytes) (response : ApAuthResponse) : Prop :=
  ∃ key certObj, cfg.getCertObj cfg.usedCert = some certObj ∧
    certObj.verify key (slice frame (headLen + 12) (response.aeSignOffset - (headLen + 12)))
      response.aeTrustAsuSign.signData = true ∧
    ((key = cfg.asuPublickey ∧ ∃ id, waiFixdataIdByIdent cfg cfg.asuCert cfg.usedCert = some id ∧
        response.aeTrustAsuSign.id.idData = id.idData) ∨
      (cfg.certMode = 2 ∧ key = cfg.caPubkey ∧
        ∃ id, waiFixdataIdByIdent cfg cfg.caCert cfg.usedCert = some id ∧
          response.aeTrustAsuSign.id.idData = id.idData))

def Genuine (cfg : Config) (table : Slot → Sta) (frame : Bytes) (i : Slot) : Prop :=
  ∃ response, unpackApAuthResponse frame = .ok response ∧ apGetSta response.mac2 table = some i ∧
    (table i).status = .waitingAuthFromAs ∧
    response.certResult.aeChallenge = (table i).aeNonce ∧
    cfg.crypto.mhashSha256 response.certResult.cert1.certBin = (table i).asueCertHash ∧
    response.certResult.authResult1 = 0 ∧
    (∃ rest, unpackAuthPayload frame response.aeSignOffset (frame.length % 65536) =
      .ok (response.aeTrustAsuSign, rest)) ∧
    SignedByServer cfg frame response

/-- The response names no signer while the server has an identity, `cert_mode` is not 2, and
nothing else is wrong: the signature is that of `ca_pubkey`. -/
structure Anonymous (cfg : Config) (sta : Sta) (frame : Bytes) (response : ApAuthResponse) :
    Prop where
  mode : cfg.certMode ≠ 2
  signer : response.aeTrustAsuSign.id.idData = []
  server : ∃ id, waiFixdataIdByIdent cfg cfg.asuCert cfg.usedCert = some id ∧ id.idData ≠ []
  status : sta.status = .waitingAuthFromAs
  challenge : sta.aeNonce = response.certResult.aeChallenge
  hash : sta.asueCertHash = cfg.crypto.mhashSha256 response.certResult.cert1.certBin
  result : response.certResult.authResult1 = 0
  curve : response.aeTrustAsuSign.alg.signPara.paraData = curveOid
  signature : ∃ certObj, cfg.getCertObj cfg.usedCert = some certObj ∧
    certObj.verify cfg.caPubkey (signedData frame response) response.aeTrustAsuSign.signData = true

variable {response : ApAuthResponse}

/-- The signature that the access point looks at starts where the signed bytes end. -/
theorem unpackApAuthResponse_sign (unpacked : unpackApAuthResponse frame = .ok response) :
    ∃ rest, unpackAuthPayload frame response.aeSignOffset (frame.length % 65536) =
      .ok (response.aeTrustAsuSign, rest) := by
  simp only [unpackApAuthResponse, unpack_bind_ok] at unpacked
  obtain ⟨-, -, -, -, ⟨certResult, offset⟩, -, -, -, -, -, unpacked⟩ := unpacked
  dsimp only at unpacked
  split at unpacked
  · obtain ⟨first, -, unpacked⟩ := unpack_bind_ok.mp unpacked
    obtain ⟨⟨sign, rest⟩, payload, same⟩ := unpack_bind_ok.mp unpacked
    cases same
    exact ⟨rest, payload⟩
  · split at unpacked
    · obtain ⟨⟨sign, rest⟩, payload, same⟩ := unpack_bind_ok.mp unpacked
      cases same
      exact ⟨rest, payload⟩
    · cases unpacked

theorem trustedKey_eq_some {signer : FixdataId} {key : Bytes}
    (trusts : trustedKey cfg signer = some key) :
    ∃ asId, waiFixdataIdByIdent cfg cfg.asuCert cfg.usedCert = some asId ∧
      ((signer.idData = asId.idData ∧ key = cfg.asuPublickey) ∨
        (signer.idData ≠ asId.idData ∧ key = cfg.caPubkey ∧
          ((cfg.certMode = 2 ∧ ∃ id, waiFixdataIdByIdent cfg cfg.caCert cfg.usedCert = some id ∧
              signer.idData = id.idData) ∨
            (cfg.certMode ≠ 2 ∧ signer.idData = [])))) := by
  simp only [trustedKey, bind_eq_bind, bind_eq_some_iff] at trusts
  obtain ⟨asId, server, chosen⟩ := trusts
  refine ⟨asId, server, ?_⟩
  split at chosen
  next mode =>
    obtain ⟨caId, authority, chosen⟩ := bind_eq_some_iff.mp chosen
    split at chosen
    next same => exact Or.inl ⟨same, (some.inj chosen).symm⟩
    next differs =>
      obtain ⟨same, trusted⟩ := ite_none_right_eq_some.mp chosen
      exact Or.inr ⟨differs, (some.inj trusted).symm, Or.inl ⟨mode, caId, authority, same⟩⟩
  next mode =>
    rw [bind_some] at chosen
    split at chosen
    next same => exact Or.inl ⟨same, (some.inj chosen).symm⟩
    next differs =>
      obtain ⟨same, trusted⟩ := ite_none_right_eq_some.mp chosen
      exact Or.inr ⟨differs, (some.inj trusted).symm, Or.inr ⟨mode, same⟩⟩

theorem authResponseValid_iff {sta : Sta} : authResponseValid cfg sta frame response = true ↔
      sta.status = .waitingAuthFromAs ∧ sta.aeNonce = response.certResult.aeChallenge ∧
      ∃ key, trustedKey cfg response.aeTrustAsuSign.id = some key ∧
        sta.asueCertHash = cfg.crypto.mhashSha256 response.certResult.cert1.certBin ∧
        response.aeTrustAsuSign.alg.signPara.paraData = curveOid ∧
        ∃ certObj, cfg.getCertObj cfg.usedCert = some certObj ∧
          certObj.verify key (signedData frame response)
            response.aeTrustAsuSign.signData = true := by
  rw [authResponseValid]
  cases trustedKey cfg response.aeTrustAsuSign.id with
  | none => simp
  | some key =>
    cases cfg.getCertObj cfg.usedCert with
    | none => simp
    | some certObj => simp [and_assoc]

theorem accepted_genuine_or_anonymous {now : UInt32} {seed : Bytes} {sta : Sta}
    (accepted : certificateAuthRes cfg now seed table frame = .accepted i sta) :
    Genuine cfg table frame i ∨ ∃ response, unpackApAuthResponse frame = .ok response ∧
      apGetSta response.mac2 table = some i ∧ Anonymous cfg (table i) frame response := by
  obtain ⟨response, unpacked, found, valid, result, -⟩ := certificateAuthRes_accepted.mp accepted
  obtain ⟨status, challenge, key, trusts, hash, curve, certObj, object, verifies⟩ :=
    authResponseValid_iff.mp valid
  have genuine (signed : SignedByServer cfg frame response) : Genuine cfg table frame i :=
    ⟨response, unpacked, found, status, challenge.symm, hash.symm, result,
      unpackApAuthResponse_sign unpacked, signed⟩
  obtain ⟨asId, server, ⟨same, rfl⟩ | ⟨differs, rfl, ⟨mode, authority⟩ | ⟨mode, empty⟩⟩⟩ :=
    trustedKey_eq_some trusts
  · exact Or.inl (genuine ⟨_, certObj, object, verifies, Or.inl ⟨rfl, asId, server, same⟩⟩)
  · exact Or.inl (genuine ⟨_, certObj, object, verifies, Or.inr ⟨mode, rfl, authority⟩⟩)
  · refine Or.inr ⟨response, unpacked, found, mode, empty, ⟨asId, server, ?_⟩, status, challenge,
      hash, result, curve, certObj, object, verifies⟩
    intro nothing
    exact differs (empty.trans nothing.symm)

theorem Anonymous.accepted {response : ApAuthResponse} (now : UInt32) (seed : Bytes)
    (unpacked : unpackApAuthResponse frame = .ok response)
    (found : apGetSta response.mac2 table = some i)
    (anonymous : Anonymous cfg (table i) frame response) :
    certificateAuthRes cfg now seed table frame =
      .accepted i (responseTaken cfg now seed (table i)) := by
  apply certificateAuthRes_accepted.mpr
  refine ⟨response, unpacked, found, ?_, anonymous.result, rfl⟩
  apply authResponseValid_iff.mpr
  obtain ⟨id, server, named⟩ := anonymous.server
  refine ⟨anonymous.status, anonymous.challenge, cfg.caPubkey, ?_, anonymous.hash, anonymous.curve,
    anonymous.signature⟩
  have differs : [] ≠ id.idData := Ne.symm named
  simp only [trustedKey, server, anonymous.mode, anonymous.signer, bind_eq_bind,
    bind_some, if_false, if_neg differs, if_true]

theorem Anonymous.not_genuine (unpacked : unpackApAuthResponse frame = .ok response)
    (anonymous : Anonymous cfg (table i) frame response) : ¬ Genuine cfg table frame i := by
  rintro ⟨other, again, -, -, -, -, -, -, key, certObj, -, -, server | authority⟩
  · rw [unpacked] at again
    cases again
    obtain ⟨-, id, known, same⟩ := server
    obtain ⟨asId, serverId, named⟩ := anonymous.server
    rw [serverId] at known
    cases known
    exact named (same.symm.trans anonymous.signer)
  · exact anonymous.mode authority.1

/-- `certificate_auth_res` accepts nothing but genuine responses just if no response that it can
be given is anonymous. -/
theorem accepted_response_genuine_iff (cfg : Config) (now : UInt32) (seed : Bytes)
    (table : Slot → Sta) (frame : Bytes) :
    (∀ i sta, certificateAuthRes cfg now seed table frame = .accepted i sta →
      Genuine cfg table frame i) ↔
    ∀ response i, unpackApAuthResponse frame = .ok response →
      apGetSta response.mac2 table = some i → ¬ Anonymous cfg (table i) frame response := by
  constructor
  · intro genuine response i unpacked found anonymous
    exact anonymous.not_genuine unpacked (genuine i _ (anonymous.accepted now seed unpacked found))
  · intro named i sta accepted
    rcases accepted_genuine_or_anonymous accepted with genuine | ⟨response, unpacked, found, bad⟩
    · exact genuine
    · exact absurd bad (named response i unpacked found)

def plainCertificates : X509 where
  getPublicKey cert := some cert
  getSubject cert := some cert
  getIssuer cert := some cert
  getSerial _ := some [1]
  verify key data signature := signature == (Sha256.hash (key ++ data)).toList
  sign key data := some (Sha256.hash (key ++ data)).toList
  genkey seed := some (seed, seed)
  dh _ _ := none

/-- An access point that was reconfigured from three certificates to two: the key of the
authority is still there. -/
def reconfigured : Config :=
  { network 0x0B with
    x509 := plainCertificates
    hasCert := true
    certMode := 1
    asuCert := ascii "server"
    asuPublickey := ascii "server"
    caPubkey := ascii "authority" }

def waitingStation : Sta :=
  { resetStaInfo with
    status := .waitingAuthFromAs
    mac := stationMac 1
    aeNonce := challenge 0x61
    asueCertHash := Sha256.hash (ascii "station") }

def waitingTable : Slot → Sta := Function.update (fun _ => resetStaInfo) 0 waitingStation

def anonymousResponse (key : Bytes) : Bytes :=
  let content := (challenge 0x61).toList ++ (challenge 0x62).toList ++ [0] ++
    packFixdata 1 (ascii "station") ++ [0] ++ packFixdata 1 (ascii "access point")
  let result := [2] ++ word content.length ++ content
  let signature := (Sha256.hash (key ++ result)).toList
  let payload := packFixdata 0 [] ++ packSignAlg ++ word signature.length ++ signature
  packMessage .apAuthResponse 1 (reconfigured.macaddr.toList ++ (stationMac 1).toList ++ result ++
      [1] ++ word payload.length ++ payload)

def anonymousParts (response : ApAuthResponse) : Bool :=
  response.mac2 == stationMac 1 && response.aeTrustAsuSign.id.idData == [] &&
    response.certResult.aeChallenge == challenge 0x61 &&
    response.certResult.cert1.certBin == ascii "station" &&
    response.certResult.authResult1 == 0 &&
    response.aeTrustAsuSign.alg.signPara.paraData == curveOid &&
    plainCertificates.verify (ascii "authority")
      (signedData (anonymousResponse (ascii "authority")) response)
      response.aeTrustAsuSign.signData

theorem anonymousResponse_parts :
    (unpackApAuthResponse (anonymousResponse (ascii "authority"))).toOption.map anonymousParts =
      some true := by
  decide +kernel

/-- The response is accepted, though `cert_mode` is 1 and it is not from the server. -/
theorem anonymous_response_accepted : ∃ i sta,
    certificateAuthRes reconfigured 1000 [] waitingTable
      (anonymousResponse (ascii "authority")) = .accepted i sta ∧
    ¬ Genuine reconfigured waitingTable (anonymousResponse (ascii "authority")) i := by
  have parts := anonymousResponse_parts
  cases unpacked : unpackApAuthResponse (anonymousResponse (ascii "authority")) with
  | error fault =>
    rw [unpacked] at parts
    cases parts
  | ok response =>
    rw [unpacked] at parts
    have same := some.inj parts
    simp only [anonymousParts, Bool.and_eq_true, beq_iff_eq] at same
    obtain ⟨⟨⟨⟨⟨⟨mac, signer⟩, nonce⟩, cert⟩, result⟩, curve⟩, verifies⟩ := same
    have anonymous : Anonymous reconfigured (waitingTable 0)
        (anonymousResponse (ascii "authority")) response := by
      refine ⟨by decide, signer, ⟨_, rfl, by decide⟩, rfl, nonce.symm, ?_, result, curve,
        plainCertificates, rfl, verifies⟩
      rw [cert]
      rfl
    have found : apGetSta response.mac2 waitingTable = some 0 := by
      rw [mac]
      decide
    exact ⟨0, _, anonymous.accepted 1000 [] unpacked found, anonymous.not_genuine unpacked⟩

end AthApps.Wapi
