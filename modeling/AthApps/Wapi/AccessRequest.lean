import AthApps.Wapi.Supplicant
import AthApps.Wapi.Change

/-!
# The access request on its way

The supplicant packs an access request and signs it, `wapid` unpacks it: two
programs with offsets of their own.  Each unpacker returns what was packed, and the
signature covers what `wapid` takes for the signed part.
-/

set_option autoImplicit false

namespace AthApps.Wapi

open AthApps.Lib
open List hiding Vector

section Unpackers

variable {buffer rest : Bytes} {offset : Nat}

theorem demand_bind {α : Type} {test : Bool} (holds : test = true) (fault : Fault)
    (next : Unit → Except Fault α) : (demand test fault >>= next) = next () := by
  rw [holds]
  rfl

theorem demand_ok {test : Bool} (holds : test = true) (fault : Fault) :
    demand test fault = .ok () := by
  rw [holds]
  rfl

variable {data : Bytes}

theorem unpackByteData_packed
    (found : buffer.drop offset = packByteData data ++ rest) (some : data ≠ [])
    (small : data.length ≤ 255) :
    unpackByteData buffer offset buffer.length = .ok (data, offset + 1 + data.length) := by
  have count : (byteAt buffer offset).toNat = data.length := by
    rw [byteAt_of_drop found, UInt8.toNat_ofNat']
    omega
  have ends := drop_length found (cons_ne_nil _ _)
  rw [packByteData, cons_append, length_cons, length_append] at ends
  have behind : buffer.drop (offset + 1) = data ++ rest :=
    @drop_next buffer [UInt8.ofNat data.length] (data ++ rest) offset found _ rfl
  have content : slice buffer (offset + 1) data.length = data := slice_of_drop behind rfl
  have positive : data.length ≠ 0 := by simpa using some
  unfold unpackByteData
  rw [demand_bind (by simp; omega)]
  dsimp only
  rw [count, demand_bind (by simp [positive]; omega), content]
  rfl

theorem packFixdata_length (kind : Nat) (data : Bytes) :
    (packFixdata kind data).length = 4 + data.length := by
  simp only [packFixdata, length_append, word_length]

theorem packFixdata_found {kind : Nat}
    (found : buffer.drop offset = packFixdata kind data ++ rest) (kindSmall : kind < 65536)
    (small : data.length < 65536) :
    readWord buffer offset = kind ∧ readWord buffer (offset + 2) = data.length ∧
      slice buffer (offset + 4) data.length = data ∧
      offset + 4 + data.length + rest.length = buffer.length := by
  have nonempty : packFixdata kind data ++ rest ≠ [] := by
    simp [packFixdata, word, Sha256.bigEndian]
  have ends := drop_length found nonempty
  rw [length_append, packFixdata_length] at ends
  have flat : buffer.drop offset = word kind ++ (word data.length ++ (data ++ rest)) := by
    rw [found]
    simp only [packFixdata, append_assoc]
  have second := drop_next flat (rfl : offset + 2 = offset + (word kind).length)
  have third := drop_next second (rfl : offset + 4 = offset + 2 + (word data.length).length)
  exact ⟨readWord_of_drop flat kindSmall, readWord_of_drop second small,
    slice_of_drop third rfl, by omega⟩

theorem unpackFixdataId_packed {id : FixdataId}
    (found : buffer.drop offset = packFixdata id.idFlag id.idData ++ rest)
    (flagSmall : id.idFlag < 65536) (small : id.idData.length ≤ 1000) :
    unpackFixdataId buffer offset buffer.length = .ok (id, offset + 4 + id.idData.length) := by
  obtain ⟨flag, length, data, ends⟩ := packFixdata_found found flagSmall (by omega)
  unfold unpackFixdataId
  rw [demand_bind (by simp; omega), demand_bind (by simp; omega)]
  dsimp only
  rw [length, demand_bind (by simp; omega), demand_bind (by simpa using small), flag, data]
  rfl

theorem unpackFixdataCert_packed {flag : Nat} {cert : Bytes}
    (found : buffer.drop offset = packFixdata flag cert ++ rest) (flagSmall : flag < 65536)
    (small : cert.length < 65536) (more : rest ≠ []) :
    unpackFixdataCert buffer offset buffer.length =
      .ok (⟨flag, cert⟩, offset + 4 + cert.length) := by
  obtain ⟨kind, length, data, ends⟩ := packFixdata_found found flagSmall small
  have positive : 0 < rest.length := length_pos_of_ne_nil more
  unfold unpackFixdataCert
  rw [demand_bind (by simp; omega)]
  dsimp only
  rw [length, demand_bind (by simp; omega), kind, data]
  rfl

theorem packParaAlg_length (para : ParaAlg) :
    (packParaAlg para).length = 3 + para.paraData.length := by
  simp only [packParaAlg, cons_append, length_cons, length_append, word_length]
  omega

theorem packParaAlg_found {para : ParaAlg}
    (found : buffer.drop offset = packParaAlg para ++ rest) (small : para.paraData.length < 65536) :
    byteAt buffer offset = para.paraFlag ∧ readWord buffer (offset + 1) = para.paraData.length ∧
      slice buffer (offset + 3) para.paraData.length = para.paraData ∧
      offset + 3 + para.paraData.length + rest.length = buffer.length := by
  have flat : buffer.drop offset =
      [para.paraFlag] ++ (word para.paraData.length ++ (para.paraData ++ rest)) := by
    rw [found]
    simp only [packParaAlg, append_assoc, cons_append, nil_append]
  have ends := drop_length found (by simp [packParaAlg])
  rw [length_append, packParaAlg_length] at ends
  have second := drop_next flat (rfl : offset + 1 = offset + [para.paraFlag].length)
  have third := drop_next second
    (rfl : offset + 3 = offset + 1 + (word para.paraData.length).length)
  exact ⟨byteAt_of_drop flat, readWord_of_drop second small, slice_of_drop third rfl, by omega⟩

theorem unpackSignAlg_packed {alg : FixdataAlg}
    (found : buffer.drop offset = packFixdataAlg alg ++ rest) (lengthSmall : alg.algLength < 65536)
    (small : alg.signPara.paraData.length ≤ 20) :
    unpackSignAlg buffer offset buffer.length =
      .ok (alg, offset + 7 + alg.signPara.paraData.length) := by
  have flat : buffer.drop offset = word alg.algLength ++
      ([alg.sha256Flag] ++ ([alg.signAlg] ++ (packParaAlg alg.signPara ++ rest))) := by
    rw [found]
    simp only [packFixdataAlg, append_assoc, cons_append, nil_append]
  have second := drop_next flat (rfl : offset + 2 = offset + (word alg.algLength).length)
  have third := drop_next second (rfl : offset + 3 = offset + 2 + [alg.sha256Flag].length)
  have fourth := drop_next third (rfl : offset + 4 = offset + 3 + [alg.signAlg].length)
  obtain ⟨flag, length, data, ends⟩ := packParaAlg_found fourth (by omega)
  unfold unpackSignAlg
  rw [demand_bind (by simp; omega)]
  dsimp only
  rw [show offset + 5 = offset + 4 + 1 from rfl, length, demand_bind (by simp; omega),
    demand_bind (by simpa using small), readWord_of_drop flat lengthSmall,
    byteAt_of_drop second, byteAt_of_drop third, flag, data]
  rfl

theorem unpackCommData_packed
    (found : buffer.drop offset = word data.length ++ data ++ rest) (some : data ≠ [])
    (small : data.length ≤ 256) :
    unpackCommData buffer offset buffer.length = .ok (data, offset + 2 + data.length) := by
  have flat : buffer.drop offset = word data.length ++ (data ++ rest) := by rw [found, append_assoc]
  have ends := drop_length found (by simp [some])
  rw [length_append, length_append, word_length] at ends
  have behind := drop_next flat (rfl : offset + 2 = offset + (word data.length).length)
  have length := readWord_of_drop flat (by omega : data.length < 65536)
  have content : slice buffer (offset + 2) data.length = data := slice_of_drop behind rfl
  have positive : data.length ≠ 0 := by simpa using some
  unfold unpackCommData
  rw [demand_bind (by simp; omega)]
  dsimp only
  rw [length, demand_bind (by simp [positive]; omega), demand_bind (by simpa using small), content]
  rfl

def FixdataAlg.Counted (alg : FixdataAlg) : Prop := alg.algLength = 5 + alg.signPara.paraData.length

theorem packFixdataAlg_length (alg : FixdataAlg) :
    (packFixdataAlg alg).length = 7 + alg.signPara.paraData.length := by
  simp only [packFixdataAlg, length_append, word_length, packParaAlg_length, length_cons,
    length_nil]
  omega

theorem unpackAuthPayload_packed {id : FixdataId} {alg : FixdataAlg} {sign : Bytes}
    (found : buffer.drop offset = packAuthPayload id alg sign ++ rest)
    (flagSmall : id.idFlag < 65536) (idSmall : id.idData.length ≤ 1000) (counted : alg.Counted)
    (algSmall : alg.signPara.paraData.length ≤ 20) (some : sign ≠ [])
    (small : sign.length ≤ 256) :
    unpackAuthPayload buffer offset buffer.length =
      .ok (⟨id, alg, sign⟩, offset + (packAuthPayload id alg sign).length) := by
  have size : (packFixdata id.idFlag id.idData ++ packFixdataAlg alg ++ word sign.length ++
      sign).length = 4 + id.idData.length + 2 + alg.algLength + 2 + sign.length := by
    simp only [length_append, packFixdata_length, packFixdataAlg_length, word_length]
    rw [counted]
    omega
  have total : (packAuthPayload id alg sign).length =
      3 + (4 + id.idData.length + 2 + alg.algLength + 2 + sign.length) := by
    simp only [packAuthPayload, length_append, word_length, length_singleton] at size ⊢
    omega
  rw [FixdataAlg.Counted] at counted
  have flat : buffer.drop offset = [1] ++ (word (4 + id.idData.length + 2 + alg.algLength + 2 +
      sign.length) ++ (packFixdata id.idFlag id.idData ++ (packFixdataAlg alg ++
        (word sign.length ++ sign ++ rest)))) := by
    rw [found, packAuthPayload, size]
    simp only [append_assoc]
  have ends := drop_length found (by simp [packAuthPayload])
  rw [length_append, total] at ends
  have second := drop_next flat (rfl : offset + 1 = offset + ([1] : Bytes).length)
  have third := drop_next second (rfl : offset + 3 = offset + 1 + (word _).length)
  have fourth := drop_next third (by rw [packFixdata_length]; omega :
      offset + 3 + 4 + id.idData.length = offset + 3 + (packFixdata id.idFlag id.idData).length)
  have fifth := drop_next fourth (by rw [packFixdataAlg_length]; omega :
      offset + 3 + 4 + id.idData.length + 7 + alg.signPara.paraData.length =
        offset + 3 + 4 + id.idData.length + (packFixdataAlg alg).length)
  unfold unpackAuthPayload
  rw [demand_bind (by simp; omega), demand_bind (by rw [byteAt_of_drop flat]; rfl),
    demand_bind (by simp; omega)]
  dsimp only
  rw [readWord_of_drop second (by omega), unpackFixdataId_packed third flagSmall idSmall]
  simp only [bind, Except.bind]
  rw [unpackSignAlg_packed fourth (by omega) algSmall]
  dsimp only
  rw [unpackCommData_packed fifth some small]
  dsimp only
  have same : (4 + id.idData.length + 2 + alg.algLength + 2 + sign.length ==
      4 + id.idData.length + 2 + alg.algLength + 2 + sign.length) = true := beq_self_eq_true _
  rw [same]
  simp only [demand, if_true, pure, Except.pure, Except.ok.injEq, Prod.mk.injEq, true_and]
  omega

end Unpackers

/-- The fields that the messages can carry: 16-bit numbers, and what fits in the arrays of
`wapid`. -/
structure Sendable (cfg : AsueConfig) (supplicant : Supplicant) : Prop where
  keyData : supplicant.asueKeyData ≠ []
  keyDataSmall : supplicant.asueKeyData.length ≤ 255
  aeIdFlag : supplicant.aeId.idFlag < 65536
  aeId : supplicant.aeId.idData.length ≤ 1000
  usedCert : cfg.usedCert < 65536
  ecdh : supplicant.ecdh.paraData.length ≤ 20
  asueIdFlag : cfg.asueId.idFlag < 65536
  asueId : cfg.asueId.idData.length ≤ 1000

/-- The state when the message is written: its number and the flag are set. -/
def beforeSend (supplicant : Supplicant) : Supplicant := { supplicant with
  asue := { supplicant.asue with txseq := supplicant.asue.txseq + 1 }
  flag := 0x04 ||| supplicant.flag }

variable {supplicant : Supplicant} {cfg : AsueConfig}

theorem Sendable.beforeSend
    (sendable : Sendable cfg supplicant) : Sendable cfg (beforeSend supplicant) :=
  ⟨sendable.keyData, sendable.keyDataSmall, sendable.aeIdFlag, sendable.aeId, sendable.usedCert,
    sendable.ecdh, sendable.asueIdFlag, sendable.asueId⟩

def decodedRequest (cfg : AsueConfig) (supplicant : Supplicant) (sign : Vector UInt8 48) :
    StaAuthRequest where
  flag := supplicant.flag
  aeAuthFlag := supplicant.aeAuthFlag
  asueChallenge := supplicant.nasue
  keyData := supplicant.asueKeyData
  aeId := supplicant.aeId
  asueCert := ⟨cfg.usedCert, cfg.certBin⟩
  ecdh := supplicant.ecdh
  asuIdList := none
  asueSign := ⟨cfg.asueId, asueInitializeAlg, sign.toList⟩
  signOffset := headLen + (accessRequestData cfg supplicant).length

theorem accessRequestData_length (cfg : AsueConfig) (supplicant : Supplicant) :
    (accessRequestData cfg supplicant).length =
      65 + (1 + supplicant.asueKeyData.length) + (4 + supplicant.aeId.idData.length) +
        (4 + cfg.certBin.length) + (3 + supplicant.ecdh.paraData.length) := by
  simp only [accessRequestData, length_append, length_nil, Vector.length_toList,
    packByteData, length_cons, packFixdata_length, packParaAlg_length]
  omega

theorem unpackHead_packed {subType : SubType} {groupSc : Nat} {body : Bytes}
    (small : headLen + body.length < 65536) :
    unpackHead (packMessage subType groupSc body) (packMessage subType groupSc body).length =
      .ok () := by
  have size : (packMessage subType groupSc body).length = headLen + body.length := by
    rw [packMessage, length_append, packHead_length]
  have version : (packMessage subType groupSc body).drop 0 =
      word 1 ++ ([1, subType.code] ++ word 0 ++ word (headLen + body.length) ++ word groupSc ++
        [0, 0] ++ body) := by
    simp only [packMessage, packHead, drop_zero, append_assoc]
  have lengthField : (packMessage subType groupSc body).drop 6 =
      word (headLen + body.length) ++ (word groupSc ++ [0, 0] ++ body) := by
    have flat : (packMessage subType groupSc body).drop 0 =
        (word 1 ++ [1, subType.code] ++ word 0) ++
          (word (headLen + body.length) ++ (word groupSc ++ [0, 0] ++ body)) := by
      simp only [packMessage, packHead, drop_zero, append_assoc]
    exact drop_next flat rfl
  unfold unpackHead
  rw [readWord_of_drop version (by omega), readWord_of_drop lengthField small, size,
    beq_self_eq_true, beq_self_eq_true]
  rfl

theorem unpackStaAuthRequest_packed (sendable : Sendable cfg supplicant) (sign : Vector UInt8 48)
    (fits : (packAccessRequest cfg supplicant sign).length ≤ 2048) :
    unpackStaAuthRequest (packAccessRequest cfg supplicant sign) =
      .ok (decodedRequest cfg supplicant sign) := by
  have dataLength := accessRequestData_length cfg supplicant
  have size : (packAccessRequest cfg supplicant sign).length =
      headLen + ((accessRequestData cfg supplicant).length +
        (packAuthPayload cfg.asueId asueInitializeAlg sign.toList).length) := by
    simp only [packAccessRequest, buildFrame, packMessage, length_append, packHead_length]
  have twelve : headLen = 12 := rfl
  have headed : unpackHead (packAccessRequest cfg supplicant sign)
      (packAccessRequest cfg supplicant sign).length = .ok () := by
    apply unpackHead_packed
    rw [length_append]
    omega
  -- the message from the end of its head on, field by field
  have flagAt : (packAccessRequest cfg supplicant sign).drop 12 =
      [supplicant.flag] ++ (supplicant.aeAuthFlag.toList ++ (supplicant.nasue.toList ++
        (packByteData supplicant.asueKeyData ++
          (packFixdata supplicant.aeId.idFlag supplicant.aeId.idData ++
            (packFixdata cfg.usedCert cfg.certBin ++ (packParaAlg supplicant.ecdh ++
              (packAuthPayload cfg.asueId asueInitializeAlg sign.toList ++ []))))))) := by
    have whole : (packAccessRequest cfg supplicant sign).drop 0 =
        packHead .staAcessRequest (headLen + (accessRequestData cfg supplicant ++
          packAuthPayload cfg.asueId asueInitializeAlg sign.toList).length)
            supplicant.asue.txseq.toNat ++ (accessRequestData cfg supplicant ++
          packAuthPayload cfg.asueId asueInitializeAlg sign.toList) := rfl
    rw [drop_next whole (by rw [packHead_length, headLen])]
    simp only [accessRequestData, append_assoc, append_nil]
  have authFlagAt := drop_next flagAt (rfl : 13 = 12 + [supplicant.flag].length)
  have nasueAt := drop_next authFlagAt (by simp : 45 = 13 + supplicant.aeAuthFlag.toList.length)
  have keyAt := drop_next nasueAt (by simp : 77 = 45 + supplicant.nasue.toList.length)
  have idAt := drop_next keyAt
    (by simp [packByteData]; omega : 77 + 1 + supplicant.asueKeyData.length =
      77 + (packByteData supplicant.asueKeyData).length)
  have certAt := drop_next idAt (by rw [packFixdata_length]; omega :
      77 + 1 + supplicant.asueKeyData.length + 4 + supplicant.aeId.idData.length =
        77 + 1 + supplicant.asueKeyData.length +
          (packFixdata supplicant.aeId.idFlag supplicant.aeId.idData).length)
  have ecdhAt := drop_next certAt (by rw [packFixdata_length]; omega :
      77 + 1 + supplicant.asueKeyData.length + 4 + supplicant.aeId.idData.length + 4 +
        cfg.certBin.length = 77 + 1 + supplicant.asueKeyData.length + 4 +
          supplicant.aeId.idData.length + (packFixdata cfg.usedCert cfg.certBin).length)
  have signAt := drop_next ecdhAt (by rw [packParaAlg_length]; omega :
      77 + 1 + supplicant.asueKeyData.length + 4 + supplicant.aeId.idData.length + 4 +
        cfg.certBin.length + 3 + supplicant.ecdh.paraData.length =
          77 + 1 + supplicant.asueKeyData.length + 4 + supplicant.aeId.idData.length + 4 +
            cfg.certBin.length + (packParaAlg supplicant.ecdh).length)
  obtain ⟨paraFlag, paraLen, paraData, ecdhEnds⟩ :=
    packParaAlg_found ecdhAt (by have := sendable.ecdh; omega)
  have notList : byteAt (packAccessRequest cfg supplicant sign)
      (77 + 1 + supplicant.asueKeyData.length + 4 + supplicant.aeId.idData.length + 4 +
        cfg.certBin.length + 3 + supplicant.ecdh.paraData.length) = 1 :=
    byteAt_of_drop signAt
  have modulo : (packAccessRequest cfg supplicant sign).length % 65536 =
      (packAccessRequest cfg supplicant sign).length := Nat.mod_eq_of_lt (by omega)
  unfold unpackStaAuthRequest
  dsimp only
  rw [modulo, demand_bind (by simp; omega), headed]
  simp only [bind, Except.bind]
  rw [unpackByteData_packed keyAt sendable.keyData sendable.keyDataSmall]
  dsimp only
  rw [unpackFixdataId_packed idAt sendable.aeIdFlag sendable.aeId]
  dsimp only
  rw [unpackFixdataCert_packed certAt sendable.usedCert (by omega) (by simp [packParaAlg])]
  dsimp only
  rw [demand_ok (by simp; omega)]
  dsimp only
  rw [paraLen, demand_ok (by simpa using sendable.ecdh)]
  dsimp only
  rw [notList, if_neg (by simp)]
  simp only [pure, Except.pure]
  rw [unpackAuthPayload_packed signAt sendable.asueIdFlag sendable.asueId rfl (by decide)
    (by simp [← length_eq_zero_iff]) (by simp)]
  simp only [Except.ok.injEq, decodedRequest]
  rw [byteAt_of_drop flagAt, slice_of_drop authFlagAt (by simp), slice_of_drop nasueAt (by simp),
    fixed_vector, fixed_vector, paraFlag, paraData, dataLength]
  simp only [StaAuthRequest.mk.injEq, true_and]
  omega

theorem waigroupCert23Send_done {sign : Bytes}
    (signed : cfg.x509.sign cfg.privateKey (accessRequestData cfg (beforeSend supplicant)) =
      some sign)
    (fits : (packAccessRequest cfg (beforeSend supplicant) (fixed 48 sign)).length ≤ 2048) :
    ∃ after, waigroupCert23Send cfg supplicant =
      .done after [.sent (packAccessRequest cfg (beforeSend supplicant) (fixed 48 sign))] := by
  dsimp only [waigroupCert23Send]
  split
  next none => cases signed.symm.trans none
  next sign' found =>
    cases signed.symm.trans found
    exact ⟨_, if_neg (Nat.not_lt.mpr fits)⟩

/-- `wapid` gets out of an access request what the supplicant put in, and the part it checks the
signature for is the part that was signed. -/
theorem access_request_decodes {cfg : AsueConfig} {supplicant : Supplicant} {sign : Bytes}
    (sendable : Sendable cfg supplicant)
    (signed : cfg.x509.sign cfg.privateKey (accessRequestData cfg (beforeSend supplicant)) =
      some sign)
    (fits : (packAccessRequest cfg (beforeSend supplicant) (fixed 48 sign)).length ≤ 2048) :
    ∃ after frame, waigroupCert23Send cfg supplicant = .done after [.sent frame] ∧
      unpackStaAuthRequest frame =
        .ok (decodedRequest cfg (beforeSend supplicant) (fixed 48 sign)) ∧
      slice frame headLen
        ((decodedRequest cfg (beforeSend supplicant) (fixed 48 sign)).signOffset - headLen) =
          accessRequestData cfg (beforeSend supplicant) := by
  obtain ⟨after, done⟩ := waigroupCert23Send_done signed fits
  have whole : (packAccessRequest cfg (beforeSend supplicant) (fixed 48 sign)).drop headLen =
      accessRequestData cfg (beforeSend supplicant) ++
        packAuthPayload cfg.asueId asueInitializeAlg (fixed 48 sign).toList := by
    simp only [packAccessRequest, buildFrame, packMessage]
    exact drop_left' (packHead_length _ _ _)
  exact ⟨after, _, done, unpackStaAuthRequest_packed sendable.beforeSend _ fits,
    slice_of_drop whole (by simp [decodedRequest])⟩

section Station

/-- Certificates that are their own keys and names.  The signature of a text is the hash of
the key and the text, with 48 bytes; a key for the agreement starts with 4. -/
def namedCertificates : X509 where
  getPublicKey cert := some cert
  getSubject cert := some cert
  getIssuer _ := some (ascii "server")
  getSerial _ := some [1]
  verify key data signature :=
    signature == (Sha256.hash (key ++ data)).toList ++ List.replicate 16 0
  sign key data := some ((Sha256.hash (key ++ data)).toList ++ List.replicate 16 0)
  genkey seed := some (seed, seed)
  dh publicKey privateKey :=
    if byteAt publicKey 0 = 4 then
      some ((Sha256.hash (publicKey.take 49 ++ privateKey)).toList.take 24)
    else
      none

def certificateConfig : AsueConfig where
  base := network 0x0B
  x509 := namedCertificates
  usedCert := 1
  certBin := ascii "station"
  asueId := ⟨1, ascii "stationserver1"⟩
  asuPubkey := ascii "server"
  privateKey := ascii "station"
  pskBk := zeros 16

def activatedSupplicant : Supplicant where
  asue :=
    { state := .alAssoc
      psk := false
      hasCert := true
      uskUpdated := false
      bk := zeros 16
      bkid := zeros 16
      uskid := 1
      usk _ := ⟨zeros 16, zeros 16, zeros 16, zeros 16, zeros 32, zeros 32⟩
      mskid := 1
      msk := List.replicate 32 0
      mskAnnId := initIv
      bssid := (network 0x0B).macaddr
      ownAddr := stationMac 1
      assocWapiIe := stationWie
      apWapiIe := stationWie
      rxseq := 0
      txseq := 1
      timer := ⟨0, [], 0, 0, true⟩ }
  flag := 0
  aeAuthFlag := challenge 0x63
  nasue := challenge 0x62
  nae := zeros 32
  aeCert := ⟨1, 5, ascii "point" ++ List.replicate 2043 0⟩
  aeId := ⟨1, ascii "pointserver" ++ [1]⟩
  ecdh := standardEcdh
  asueEck := List.replicate 24 9
  asueKeyData := 4 :: List.replicate 48 5
  aeKeyData := ⟨0, List.replicate 256 0⟩

theorem access_request_decodes_station : ∃ after frame request,
    waigroupCert23Send certificateConfig activatedSupplicant = .done after [.sent frame] ∧
      unpackStaAuthRequest frame = .ok request ∧ request.aeId = activatedSupplicant.aeId ∧
      slice frame headLen (request.signOffset - headLen) =
        accessRequestData certificateConfig (beforeSend activatedSupplicant) := by
  obtain ⟨after, frame, done, decoded, signed⟩ :=
    @access_request_decodes certificateConfig activatedSupplicant _
      ⟨by decide, by decide, by decide, by decide, by decide, by decide, by decide, by decide⟩ rfl
      (by decide +kernel)
  exact ⟨after, frame, _, done, decoded, rfl, signed⟩

end Station

end AthApps.Wapi
