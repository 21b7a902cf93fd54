import AthApps.Wapi.AccessRequest
import AthApps.Wapi.Waiting

/-!
# The base key of a verified access point

`waigroup_cert_3_3` accepts the answer to an access request and derives the base
key.  What it makes sure of, and what it leaves out: a message without the flag for
certificate results is not asked for any, the certificate that the results speak of
is not compared with the one of the access point, and the result of the key
agreement is not looked at.
-/

set_option autoImplicit false

namespace AthApps.Wapi

open AthApps.Lib Option
open List hiding Vector

/-- The second certificate of the results is this one, and all of its entry is inside. -/
structure NamesCert (results : Bytes) (cert : CertId) : Prop where
  flag : readWord results (72 + readWord results 70 + 1) = cert.certFlag
  length : readWord results (72 + readWord results 70 + 3) = cert.bytes.length
  data : slice results (72 + readWord results 70 + 5) cert.bytes.length = cert.bytes
  inside : 72 + readWord results 70 + 5 + cert.bytes.length ≤ results.length

instance (results : Bytes) (cert : CertId) : Decidable (NamesCert results cert) :=
  decidable_of_iff (readWord results (72 + readWord results 70 + 1) = cert.certFlag ∧
      readWord results (72 + readWord results 70 + 3) = cert.bytes.length ∧
      slice results (72 + readWord results 70 + 5) cert.bytes.length = cert.bytes ∧
      72 + readWord results 70 + 5 + cert.bytes.length ≤ results.length)
    ⟨fun ⟨flag, length, data, inside⟩ => ⟨flag, length, data, inside⟩,
      fun ⟨flag, length, data, inside⟩ => ⟨flag, length, data, inside⟩⟩

/-- The attribute with certificate results says that the certificate is valid. -/
structure ReportsValid (results : Bytes) (cert : CertId) : Prop where
  kind : byteAt results 0 = 2
  result : byteAt results (72 + readWord results 70) = 0
  names : NamesCert results cert

def resultAttribute (cfg : AsueConfig) (supplicant : Supplicant) (message : Bytes) :
    Bytes :=
  let start := resultAt cfg supplicant message
  slice message start (readWord message (start + 1) + 3)

def baseKey (cfg : AsueConfig) (nae nasue : Bytes) (ecdhkey : Bytes) : Vector UInt8 16 :=
  fixed 16 (slice (cfg.base.crypto.kdHmacSha256 (nae ++ nasue ++ bkText) ecdhkey 48) 0 16)

/-- What has to be true of an accepted message: `before` and `after` are the supplicant before
and after it, the frame in the timer is the access request that was sent. -/
structure Verified (cfg : AsueConfig) (before after : Supplicant) (message : Bytes) :
    Prop where
  state : after.asue.state = .cntResp
  nonce : slice message 1 32 = slice before.asue.timer.dat 45 32
  keyData : slice message 66 (1 + before.asueKeyData.length) =
    slice before.asue.timer.dat 77 (1 + before.asueKeyData.length)
  -- the message has certificate results, signed by the server
  results : byteAt message 0 &&& 0x08 ≠ 0 ∧
    ∃ signature, cfg.x509.verify cfg.asuPubkey (resultAttribute cfg before message) signature ∧
      ReportsValid (resultAttribute cfg before message) before.aeCert
  -- all of the message in front of the attribute with the signature is signed
  signed : ∃ certObj pubkey signAt, cfg.getCertObj before.aeCert.certFlag = some certObj ∧
    certObj.getPublicKey before.aeCert.bytes = some pubkey ∧
    cfg.x509.verify pubkey (message.take signAt) (message.drop (message.length - 48)) ∧
    message.length = signAt + 3 + readWord message (signAt + 1)
  key : after.aeKeyData.data.take after.aeKeyData.length =
      slice message (aeKeyAt before + 1) (byteAt message (aeKeyAt before)).toNat ∧
    ∃ ecdhkey, cfg.x509.dh after.aeKeyData.data before.asueEck = some ecdhkey ∧
      after.asue.bk = baseKey cfg (slice message 33 32) before.nasue.toList ecdhkey

def CarriesRequest (supplicant : Supplicant) : Prop :=
  supplicant.asue.state = .cntReq →
    slice supplicant.asue.timer.dat 45 32 = supplicant.nasue.toList ∧
      slice supplicant.asue.timer.dat 77 (1 + supplicant.asueKeyData.length) =
        packByteData supplicant.asueKeyData

theorem packAccessRequest_fields (cfg : AsueConfig) (supplicant : Supplicant)
    (sign : Vector UInt8 48) :
    slice (packAccessRequest cfg supplicant sign) 45 32 = supplicant.nasue.toList ∧
      slice (packAccessRequest cfg supplicant sign) 77 (1 + supplicant.asueKeyData.length) =
        packByteData supplicant.asueKeyData := by
  have whole : ∃ rest, (packAccessRequest cfg supplicant sign).drop headLen =
      ([supplicant.flag] ++ supplicant.aeAuthFlag.toList) ++ (supplicant.nasue.toList ++
        (packByteData supplicant.asueKeyData ++ rest)) := by
    simp only [packAccessRequest, buildFrame, packMessage, accessRequestData]
    rw [drop_left' (packHead_length _ _ _)]
    refine ⟨packFixdata supplicant.aeId.idFlag supplicant.aeId.idData ++
      packFixdata cfg.usedCert cfg.certBin ++ packParaAlg supplicant.ecdh ++
      packAuthPayload cfg.asueId asueInitializeAlg sign.toList, ?_⟩
    simp only [append_assoc]
  obtain ⟨rest, whole⟩ := whole
  have nasueAt := drop_next whole (by simp [headLen] : 45 = headLen + _)
  have keyAt := drop_next nasueAt (by simp : 77 = 45 + supplicant.nasue.toList.length)
  exact ⟨slice_of_drop nasueAt (by simp), slice_of_drop keyAt (by simp [packByteData]; omega)⟩

variable {cfg : AsueConfig} {supplicant after : Supplicant} {marks : List AsueMark}
  {message behind : Bytes} {signAt : Nat} {memory : Bytes}

theorem waigroupCert23Send_carries (done : waigroupCert23Send cfg supplicant = .done after marks) :
    CarriesRequest after := by
  unfold waigroupCert23Send at done
  dsimp only at done
  split at done
  · contradiction
  · split at done
    · contradiction
    · cases done
      exact fun _ => packAccessRequest_fields cfg _ _

theorem CarriesRequest.congr {before after : Supplicant}
    {taken : AsueState → Prop} (carries : CarriesRequest before)
    (pending : before.asue.state.waits = true → before.asue.timer.t = before.asue.state.timerKind)
    (change : AsueChange taken before.asue after.asue marks) (other : ¬ taken .cntReq)
    (nasue : after.nasue = before.nasue) (keyData : after.asueKeyData = before.asueKeyData) :
    CarriesRequest after := by
  intro waiting
  cases change with
  | stays state timer sent =>
    rw [state] at waiting
    rw [timer.dat, nasue, keyData]
    exact carries waiting
  | settles calm => simp [waiting, AsueState.waits] at calm
  | drops state kind often =>
    rw [state] at waiting
    have waits : before.asue.state.waits = true := by
      rw [waiting]
      rfl
    exact absurd ((pending waits).symm.trans kind) (AsueState.timerKind_ne_three _)
  | opens taken => exact absurd (waiting ▸ taken) other

theorem CarriesRequest.step {cfg : AsueConfig} {run after : AsueRun} {input : AsueInput}
    (stepped : asueStep cfg run input = some after)
    (pending : run.supplicant.asue.state.waits = true → Pending run.supplicant.asue run.marks)
    (carries : CarriesRequest run.supplicant) : CarriesRequest after.supplicant := by
  have kind := fun waits => (pending waits).kind
  cases input with
  | tick =>
    cases stepped
    exact carries.congr kind (@timerRun_change (fun _ => False) _) not_false rfl rfl
  | frame bytes behind draw ok =>
    obtain ⟨⟨supplicant, marks⟩, handled, rfl⟩ := map_eq_some_iff.mp stepped
    change CarriesRequest supplicant
    unfold smRxWai at handled
    dsimp only at handled
    split at handled
    · cases handled
      exact carries
    split at handled
    · rcases waigroupCert13_cases cfg draw run.supplicant bytes with
        undefined | ⟨left, discarded, same, nasue, keyData⟩ | ⟨parsed, sends, same, idle⟩
      · simp [undefined] at handled
      · simp only [discarded] at handled
        cases handled
        exact carries.congr kind (@AsueChange.quiet (fun _ => False) _ _ [] (by rw [same])
          (by rw [same]) rfl) not_false nasue keyData
      · rw [sends] at handled
        rcases waigroupCert23Send_cases cfg parsed with
          undefined | ⟨left, discarded, state, timer⟩ | ⟨opened, done, -⟩
        · simp [undefined] at handled
        · simp only [discarded] at handled
          cases handled
          intro waiting
          rw [state, same] at waiting
          exact absurd waiting idle
        · simp only [done] at handled
          cases handled
          exact waigroupCert23Send_carries done
    split at handled
    · rcases waigroupCert33_cases cfg run.supplicant (payload bytes ++ behind)
          (payload bytes).length with
        undefined | ⟨left, discarded, same, nasue, keyData⟩ | ⟨left, refused⟩ |
          ⟨settled, done, state, timer⟩
      · simp [undefined] at handled
      · simp only [discarded] at handled
        cases handled
        exact carries.congr kind ((@timerResend_change (fun _ => False) left.asue).of_same
          (by rw [same]) (by rw [same])) not_false nasue keyData
      · simp only [refused] at handled
        cases handled
        intro waiting
        cases waiting
      · simp only [done] at handled
        cases handled
        intro waiting
        change settled.asue.state = .cntReq at waiting
        rw [state] at waiting
        cases waiting
    · obtain ⟨result, received, lifted⟩ := map_eq_some_iff.mp handled
      cases lifted
      exact carries.congr kind (iwnWapiSmRxWai_change received) (fun taken => by cases taken.1)
        rfl rfl

def takeMessage (supplicant : Supplicant) (memory : Bytes) : Supplicant :=
  takeKeyData { supplicant with nae := fixed 32 (slice memory 33 32) } memory

theorem takeMessage_eq (supplicant : Supplicant) (memory : Bytes) :
    takeMessage supplicant memory = { supplicant with
      nae := fixed 32 (slice memory 33 32)
      aeKeyData := ⟨(byteAt memory (aeKeyAt supplicant)).toNat,
        overlay supplicant.aeKeyData.data 0 (slice memory (aeKeyAt supplicant + 1)
          (byteAt memory (aeKeyAt supplicant)).toNat)⟩ } := rfl

theorem acceptSigned_done {len signAt : Nat}
    (done : acceptSigned cfg supplicant memory len signAt = .done after marks) :
    (∃ certObj pubkey, cfg.getCertObj supplicant.aeCert.certFlag = some certObj ∧
      certObj.getPublicKey supplicant.aeCert.bytes = some pubkey ∧
      cfg.x509.verify pubkey (slice memory 0 signAt) (slice memory (len - 48) 48) = true) ∧
    len = signAt + 3 + readWord memory (signAt + 1) ∧
    after = { asueCertauthbkDerivation cfg supplicant with
      asue := { (asueCertauthbkDerivation cfg supplicant).asue with state := .cntResp } } := by
  unfold acceptSigned at done
  dsimp only at done
  split at done
  · contradiction
  rename_i pubkey found
  split at done
  · contradiction
  rename_i passed
  push Not at passed
  obtain ⟨certObj, registered, key⟩ := bind_eq_some_iff.mp found
  cases done
  exact ⟨⟨certObj, pubkey, registered, key, by simpa using passed.1⟩, passed.2, rfl⟩

theorem waigroupCert33_done {len : Nat}
    (done : waigroupCert33 cfg supplicant memory len = .done after marks) :
    supplicant.asue.state = .cntReq ∧ slice memory 1 32 = supplicant.nasue.toList ∧
      (byteAt memory 66).toNat = supplicant.asueKeyData.length ∧
      slice memory 67 supplicant.asueKeyData.length = supplicant.asueKeyData ∧
      ∃ signAt, resultBlock cfg supplicant memory = .passed signAt ∧
        acceptSigned cfg (takeMessage supplicant memory) memory len signAt = .done after marks := by
  unfold waigroupCert33 at done
  dsimp only at done
  split at done
  · contradiction
  rename_i echoed
  split at done
  · contradiction
  split at done
  · contradiction
  rename_i sameKey
  split at done
  · contradiction
  split at done
  · contradiction
  · contradiction
  rename_i signAt passed
  push Not at echoed sameKey
  exact ⟨echoed.1, echoed.2.2, sameKey.1, sameKey.2, signAt, passed, done⟩

variable {supplicant : Supplicant}

theorem resultBlock_passed (passed : resultBlock cfg supplicant memory = .passed signAt) :
    let start := resultAt cfg supplicant memory
    start ≤ signAt ∧ (byteAt memory 0 &&& 0x08 ≠ 0 →
        start + (readWord memory (start + 1) + 3) ≤ signAt ∧ byteAt memory start = 2 ∧
          byteAt memory (start + (72 + readWord memory (start + 70))) = 0 ∧
          ∃ signature, cfg.x509.verify cfg.asuPubkey
            (slice memory start (readWord memory (start + 1) + 3)) signature = true) := by
  unfold resultBlock at passed
  dsimp only
  split at passed
  · unfold certResultBlock at passed
    dsimp only at passed
    split at passed
    · contradiction
    rename_i kind
    split at passed
    · contradiction
    rename_i result
    split at passed
    · contradiction
    rename_i verified
    cases passed
    push Not at kind result
    refine ⟨by omega, fun _ => ⟨by omega, kind, ?_, _, by simpa using verified⟩⟩
    rw [← Nat.add_assoc]
    exact result
  · rename_i plain
    cases passed
    exact ⟨le_rfl, fun flagged => absurd flagged plain⟩

theorem asueCertauthbkDerivation_aeKeyData (cfg : AsueConfig) (supplicant : Supplicant) :
    (asueCertauthbkDerivation cfg supplicant).aeKeyData = supplicant.aeKeyData := by
  unfold asueCertauthbkDerivation
  split
  · rfl
  · rfl

theorem asueCertauthbkDerivation_bk {ecdhkey : Bytes}
    (agreed : cfg.x509.dh supplicant.aeKeyData.data supplicant.asueEck = some ecdhkey) :
    (asueCertauthbkDerivation cfg supplicant).asue.bk =
      baseKey cfg supplicant.nae.toList supplicant.nasue.toList ecdhkey := by
  unfold asueCertauthbkDerivation
  rw [agreed]
  rfl

/-- The message of `len` bytes that was accepted, and the places in it: no place is behind
the end. -/
structure Accepted (cfg : AsueConfig) (supplicant : Supplicant) (message behind : Bytes)
    (signAt : Nat) : Prop where
  keyAt : aeKeyAt supplicant + 1 + (byteAt message (aeKeyAt supplicant)).toNat ≤
    resultAt cfg supplicant message
  start : resultAt cfg supplicant message ≤ signAt
  length : message.length = signAt + 3 + readWord message (signAt + 1)
  taken : takeMessage supplicant (message ++ behind) = takeMessage supplicant message

theorem accepted_of_done (passed : resultBlock cfg supplicant (message ++ behind) = .passed signAt)
    (accepted : acceptSigned cfg (takeMessage supplicant (message ++ behind)) (message ++ behind)
      message.length signAt = .done after marks) :
    Accepted cfg supplicant message behind signAt ∧
      resultAt cfg supplicant (message ++ behind) = resultAt cfg supplicant message := by
  obtain ⟨start, -⟩ := resultBlock_passed passed
  obtain ⟨-, length, -⟩ := acceptSigned_done accepted
  have keyAt : aeKeyAt supplicant + 1 + (byteAt (message ++ behind) (aeKeyAt supplicant)).toNat ≤
        resultAt cfg supplicant (message ++ behind) := by
    rw [resultAt]
    omega
  have sixty : 67 ≤ aeKeyAt supplicant := Nat.le_add_right _ _
  have keyByte : byteAt (message ++ behind) (aeKeyAt supplicant) =
      byteAt message (aeKeyAt supplicant) := byteAt_append_left _ (by omega)
  have same : resultAt cfg supplicant (message ++ behind) = resultAt cfg supplicant message := by
    rw [resultAt, resultAt, keyByte]
  rw [same] at start keyAt
  rw [keyByte] at keyAt
  refine ⟨⟨keyAt, start, ?_, ?_⟩, same⟩
  · rw [length, readWord_append_left _ (by omega)]
  · rw [takeMessage_eq, takeMessage_eq, keyByte, slice_append_left _ _ _ _ (by omega),
      slice_append_left _ _ _ _ (by omega)]

theorem Accepted.results (accepted : Accepted cfg supplicant message behind signAt)
    (same : resultAt cfg supplicant (message ++ behind) = resultAt cfg supplicant message)
    (passed : resultBlock cfg supplicant (message ++ behind) = .passed signAt)
    (flagged : byteAt message 0 &&& 0x08 ≠ 0)
    (names : NamesCert (resultAttribute cfg supplicant message) supplicant.aeCert) :
    ∃ signature, cfg.x509.verify cfg.asuPubkey (resultAttribute cfg supplicant message) signature ∧
      ReportsValid (resultAttribute cfg supplicant message) supplicant.aeCert := by
  have keyAt := accepted.keyAt
  have start := accepted.start
  have length := accepted.length
  have first : byteAt (message ++ behind) 0 = byteAt message 0 := byteAt_append_left _ (by omega)
  obtain ⟨-, checked⟩ := resultBlock_passed passed
  rw [same, first, readWord_append_left _ (by omega)] at checked
  obtain ⟨extent, kind, result, signature, verified⟩ := checked flagged
  rw [slice_append_left _ _ _ _ (by omega)] at verified
  have sized : (resultAttribute cfg supplicant message).length =
      readWord message (resultAt cfg supplicant message + 1) + 3 :=
    slice_length_of_le _ _ _ (by omega)
  have inside := names.inside
  refine ⟨signature, verified, ?_, ?_, names⟩
  · rw [byteAt_append_left _ (by omega)] at kind
    rw [resultAttribute, byteAt_slice (by rw [← resultAttribute]; omega), Nat.add_zero, kind]
  · have second : readWord (resultAttribute cfg supplicant message) 70 =
        readWord message (resultAt cfg supplicant message + 70) := by
      rw [resultAttribute, readWord_slice (by rw [← resultAttribute]; omega)]
    rw [readWord_append_left _ (by omega), byteAt_append_left _ (by omega), ← second] at result
    rw [← result]
    exact byteAt_slice (by rw [← resultAttribute]; omega)

theorem Accepted.key (accepted : Accepted cfg supplicant message behind signAt) {ecdhkey : Bytes}
    (agreed : cfg.x509.dh (takeMessage supplicant message).aeKeyData.data supplicant.asueEck =
      some ecdhkey) :
    let after := asueCertauthbkDerivation cfg (takeMessage supplicant message)
    after.aeKeyData.data.take after.aeKeyData.length =
        slice message (aeKeyAt supplicant + 1) (byteAt message (aeKeyAt supplicant)).toNat ∧
      cfg.x509.dh after.aeKeyData.data supplicant.asueEck = some ecdhkey ∧
      after.asue.bk = baseKey cfg (slice message 33 32) supplicant.nasue.toList ecdhkey := by
  have keyAt := accepted.keyAt
  have start := accepted.start
  have length := accepted.length
  have sixty : 67 ≤ aeKeyAt supplicant := Nat.le_add_right _ _
  dsimp only
  rw [asueCertauthbkDerivation_aeKeyData]
  refine ⟨?_, agreed, ?_⟩
  · have counted : (slice message (aeKeyAt supplicant + 1)
        (byteAt message (aeKeyAt supplicant)).toNat).length =
        (byteAt message (aeKeyAt supplicant)).toNat := slice_length_of_le _ _ _ (by omega)
    have front := slice_overlay_self supplicant.aeKeyData.data 0
      (slice message (aeKeyAt supplicant + 1) (byteAt message (aeKeyAt supplicant)).toNat)
    rw [counted, slice, drop_zero] at front
    exact front
  · rw [asueCertauthbkDerivation_bk agreed]
    have nae : (takeMessage supplicant message).nae.toList = slice message 33 32 :=
      fixed_toList _ _ (slice_length_of_le _ _ _ (by omega))
    rw [nae]
    rfl

theorem connAssoc_state (cfg : AsueConfig) (bssid ownAddr : Mac) (assocIe : Bytes)
    (prior : Supplicant) : (connAssoc cfg bssid ownAddr assocIe prior).asue.state = .alAssoc := by
  unfold connAssoc
  dsimp only
  split
  · rfl
  · rfl

theorem reached_carries {prior : Supplicant} {bssid ownAddr : Mac}
    {assocIe : Bytes} {run : AsueRun}
    (reached : Reaches (asueStep cfg) (fun _ _ => True)
      ⟨connAssoc cfg bssid ownAddr assocIe prior, []⟩ run) : CarriesRequest run.supplicant := by
  have both : (run.supplicant.asue.state.waits = true →
      Pending run.supplicant.asue run.marks) ∧ CarriesRequest run.supplicant := by
    apply @Reaches.invariant _ _ _ _ (fun run : AsueRun =>
      (run.supplicant.asue.state.waits = true → Pending run.supplicant.asue run.marks) ∧
        CarriesRequest run.supplicant) _ _ _ reached
    · constructor
      · intro waits
        rw [connAssoc_state] at waits
        cases waits
      · intro waiting
        rw [connAssoc_state] at waiting
        cases waiting
    · intro run input after _ stepped held
      exact ⟨pending_step stepped held.1, held.2.step stepped held.1⟩
  exact both.2

theorem Accepted.signed (accepted : Accepted cfg supplicant message behind signAt)
    (done : acceptSigned cfg (takeMessage supplicant (message ++ behind)) (message ++ behind)
      message.length signAt = .done after marks) :
    ∃ certObj pubkey signAt, cfg.getCertObj supplicant.aeCert.certFlag = some certObj ∧
      certObj.getPublicKey supplicant.aeCert.bytes = some pubkey ∧
      cfg.x509.verify pubkey (message.take signAt) (message.drop (message.length - 48)) ∧
      message.length = signAt + 3 + readWord message (signAt + 1) := by
  have keyAt := accepted.keyAt
  have start := accepted.start
  have length := accepted.length
  have sixty : 67 ≤ aeKeyAt supplicant := Nat.le_add_right _ _
  obtain ⟨⟨certObj, pubkey, registered, key, verified⟩, -, -⟩ := acceptSigned_done done
  refine ⟨certObj, pubkey, signAt, registered, key, ?_, length⟩
  rw [slice_append_left _ _ _ _ (by omega), slice_append_left _ _ _ _ (by omega)] at verified
  have tail : slice message (message.length - 48) 48 = message.drop (message.length - 48) := by
    rw [slice]
    apply take_of_length_le
    rw [length_drop]
    omega
  rw [tail] at verified
  exact verified

theorem echoed_keyData {message keyData : Bytes} (long : 67 + keyData.length ≤ message.length)
    (count : (byteAt message 66).toNat = keyData.length)
    (same : slice message 67 keyData.length = keyData) :
    slice message 66 (1 + keyData.length) = packByteData keyData := by
  have front : slice message 66 1 = [byteAt message 66] := by
    have here : message.drop 66 = byteAt message 66 :: message.drop 67 := by
      rw [drop_eq_getElem_cons (by omega)]
      simp [byteAt, getElem?_eq_getElem (by omega : 66 < message.length)]
    rw [slice, here]
    rfl
  rw [← slice_append_slice, front, same, packByteData, ← count, UInt8.ofNat_toNat]
  rfl

/-- A message that is accepted in a state that is reached is verified exactly if it says that
it has certificate results, these speak of the certificate of the access point, and
the key agreement succeeds. -/
theorem accepted_message_verified_iff {cfg : AsueConfig} {prior : Supplicant}
    {bssid ownAddr : Mac} {assocIe : Bytes} {run : AsueRun}
    (reached : Reaches (asueStep cfg) (fun _ _ => True)
      ⟨connAssoc cfg bssid ownAddr assocIe prior, []⟩ run)
    {message behind : Bytes} {after : Supplicant} {marks : List AsueMark}
    (done : waigroupCert33 cfg run.supplicant (message ++ behind) message.length =
      .done after marks) :
    Verified cfg run.supplicant after message ↔ byteAt message 0 &&& 0x08 ≠ 0 ∧
        NamesCert (resultAttribute cfg run.supplicant message) run.supplicant.aeCert ∧
        (cfg.x509.dh (takeKeyData run.supplicant message).aeKeyData.data
          run.supplicant.asueEck).isSome := by
  obtain ⟨waiting, nonce, count, sameKey, signAt, passed, signing⟩ := waigroupCert33_done done
  obtain ⟨accepted, sameAt⟩ := accepted_of_done passed signing
  have keyAt := accepted.keyAt
  have start := accepted.start
  have length := accepted.length
  have sixty : aeKeyAt run.supplicant = 67 + run.supplicant.asueKeyData.length := rfl
  obtain ⟨carriedNonce, carriedKey⟩ := reached_carries reached waiting
  obtain ⟨-, -, rfl⟩ := acceptSigned_done signing
  rw [accepted.taken]
  constructor
  · intro verified
    obtain ⟨flagged, signature, -, reports⟩ := verified.results
    obtain ⟨-, ecdhkey, agreed, -⟩ := verified.key
    refine ⟨flagged, reports.names, isSome_iff_exists.mpr ⟨ecdhkey, ?_⟩⟩
    rw [← agreed]
    change _ = cfg.x509.dh (asueCertauthbkDerivation cfg
      (takeMessage run.supplicant message)).aeKeyData.data _
    rw [asueCertauthbkDerivation_aeKeyData]
    rfl
  · rintro ⟨flagged, names, agreed⟩
    obtain ⟨ecdhkey, agreed⟩ := isSome_iff_exists.mp agreed
    obtain ⟨keyData, agreedAfter, bk⟩ := accepted.key agreed
    refine ⟨rfl, ?_, ?_, ⟨flagged, accepted.results sameAt passed flagged names⟩,
      accepted.signed signing, keyData, ecdhkey, agreedAfter, bk⟩
    · rw [carriedNonce, ← nonce, slice_append_left _ _ _ _ (by omega)]
    · rw [byteAt_append_left _ (by omega)] at count
      rw [slice_append_left _ _ _ _ (by omega)] at sameKey
      rw [carriedKey, echoed_keyData (by omega) count sameKey]

section Answers

def certificateStart : AsueRun :=
  ⟨connAssoc certificateConfig (network 0x0B).macaddr (stationMac 1) stationWie
    activatedSupplicant, []⟩

def activation : AsueInput :=
  .frame (buildFrame .authactive 1
    ([0] ++ (challenge 0x63).toList ++ packFixdata 1 (ascii "server") ++
      packFixdata 1 (ascii "point") ++ packParaAlg standardEcdh)) []
    ⟨challenge 0x62, Vector.replicate 24 9, ⟨#[4] ++ Array.replicate 48 5, rfl⟩⟩ true

def answerFields (flag : UInt8) : Bytes :=
  [flag] ++ (challenge 0x62).toList ++ (challenge 0x61).toList ++ [0] ++
    packByteData (4 :: List.replicate 48 5) ++ packByteData (4 :: List.replicate 48 6) ++
    packFixdata 1 (ascii "pointserver" ++ [1]) ++ packFixdata 1 (ascii "stationserver1")

def signatureBy (signer data : Bytes) : Bytes :=
  packAuthPayload ⟨1, signer⟩ asueInitializeAlg ((namedCertificates.sign signer data).getD [])

def certificateResults (point : Bytes) : Bytes :=
  let content := (challenge 0x61).toList ++ (challenge 0x62).toList ++ [0] ++
    packFixdata 1 (ascii "station") ++ [0] ++ packFixdata 1 point
  [2] ++ word content.length ++ content

def answerWithResults : Bytes :=
  let results := certificateResults (ascii "point")
  let data := answerFields 0x08 ++ results ++ signatureBy (ascii "server") results
  data ++ signatureBy (ascii "point") data

/-- The answer of an access point that says that there are no certificate results. -/
def answerWithout : Bytes := answerFields 0x00 ++ signatureBy (ascii "point") (answerFields 0x00)

def CertHandled.isDone : CertHandled → Bool
  | .done _ _ => true
  | _ => false

theorem CertHandled.exists_of_isDone {handled : CertHandled} (done : handled.isDone = true) :
    ∃ after marks, handled = .done after marks := by
  cases handled with
  | done after marks => exact ⟨after, marks, rfl⟩
  | _ => cases done

theorem accepted_message_verified_results : ∃ run after marks,
    Reaches (asueStep certificateConfig) (fun _ _ => True) certificateStart run ∧
      waigroupCert33 certificateConfig run.supplicant (answerWithResults ++ [])
        answerWithResults.length = .done after marks ∧
      Verified certificateConfig run.supplicant after answerWithResults := by
  have ends : (follows (asueStep certificateConfig) (fun _ _ => True) certificateStart
      [fun _ => activation]).map (fun run =>
        (waigroupCert33 certificateConfig run.supplicant (answerWithResults ++ [])
          answerWithResults.length).isDone &&
        decide (NamesCert (resultAttribute certificateConfig run.supplicant answerWithResults)
          run.supplicant.aeCert) &&
        (namedCertificates.dh (takeKeyData run.supplicant answerWithResults).aeKeyData.data
          run.supplicant.asueEck).isSome) = some true := by
    decide +kernel
  obtain ⟨run, ends, facts⟩ := map_eq_some_iff.mp ends
  simp only [Bool.and_eq_true, decide_eq_true_eq] at facts
  obtain ⟨⟨done, names⟩, agreed⟩ := facts
  obtain ⟨after, marks, done⟩ := CertHandled.exists_of_isDone done
  have reached := reaches_of_follows ends
  exact ⟨run, after, marks, reached, done, (accepted_message_verified_iff reached done).mpr
    ⟨by decide, names, agreed⟩⟩

/-- The answer without certificate results is accepted: nobody but the access point itself says
that its certificate is valid. -/
theorem accepted_without_results : ∃ run after marks,
    Reaches (asueStep certificateConfig) (fun _ _ => True) certificateStart run ∧
      waigroupCert33 certificateConfig run.supplicant (answerWithout ++ []) answerWithout.length =
        .done after marks ∧
      ¬ Verified certificateConfig run.supplicant after answerWithout := by
  have ends : (follows (asueStep certificateConfig) (fun _ _ => True) certificateStart
      [fun _ => activation]).map (fun run =>
        (waigroupCert33 certificateConfig run.supplicant (answerWithout ++ [])
          answerWithout.length).isDone) = some true := by
    decide +kernel
  obtain ⟨run, ends, done⟩ := map_eq_some_iff.mp ends
  obtain ⟨after, marks, done⟩ := CertHandled.exists_of_isDone done
  refine ⟨run, after, marks, reaches_of_follows ends, done, fun verified => ?_⟩
  exact verified.results.1 (by decide)

end Answers

end AthApps.Wapi
