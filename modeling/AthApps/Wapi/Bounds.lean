import AthApps.Lib.Attempt
import AthApps.Wapi.KeyNeg

/-!
# The bytes that the unpackers read and store

The unpackers of `pack.c` once more, step by step, with every index of the message
that is read and every place of an array that is stored into.  They return what the
unpackers of the messages return.  Most lengths are compared with the end of the
message only, or with the size of another array.
-/

set_option autoImplicit false

namespace AthApps.Wapi

open AthApps.Lib List

/-- `unpack_ucastkey_neg_response` and the others store into these arrays. -/
inductive Field
  | idData
  | paraData
  | signData
  | wieAsue
  -- the identities of a list
  | id
  deriving DecidableEq

/-- `MAX_ID_DATA_LEN`, `MAX_PARA_LEN`, `MAX_BYTE_DATA_LEN`, the array of the response
and `MAX_ID_NO`. -/
def Field.size : Field → Nat
  | idData => 1000
  | paraData => 20
  | signData => 256
  | wieAsue => 255
  | id => 10

inductive Access
  | read (index : Nat)
  | store (field : Field) (index : Nat)
  deriving DecidableEq

def Access.Inside (bufflen : Nat) : Access → Prop
  | read index => index < bufflen
  | store field index => index < field.size

abbrev Unpack (α : Type) : Type := Attempt Access Fault α

namespace Bounds

open Attempt

/-! ## Single steps -/

def bytes (buffer : Bytes) (offset count : Nat) : Unpack Bytes := do
  notes ((List.range' offset count).map .read)
  pure (slice buffer offset count)

def readByte (buffer : Bytes) (offset : Nat) : Unpack UInt8 := do
  notes [.read offset]
  pure (byteAt buffer offset)

def readWord (buffer : Bytes) (offset : Nat) : Unpack Nat := do
  notes [.read offset, .read (offset + 1)]
  pure (Wapi.readWord buffer offset)

/-- A copy to an array; behind the array nothing is known any more. -/
def copy (buffer : Bytes) (offset count : Nat) (field : Field) : Unpack Bytes := do
  let data ← bytes buffer offset count
  notes ((List.range count).map (.store field))
  require (count ≤ field.size) .overrun
  pure data

/-! ## Parts of messages -/

section Parts

variable (buffer : Bytes)

def unpackHead (bufflen : Nat) : Unpack Unit := do
  let version ← readWord buffer 0
  require (version = 1) .packError
  let _ ← readByte buffer 2
  let _ ← readByte buffer 3
  let _ ← readWord buffer 4
  let dataLen ← readWord buffer 6
  require (dataLen = bufflen) .packError
  let _ ← readWord buffer 8
  let _ ← readByte buffer 10
  let _ ← readByte buffer 11
  pure ()

/-- `unpack_wai_fixdata_cert`; a certificate is not copied. -/
def unpackFixdataCert (offset bufflen : Nat) : Unpack (FixdataCert × Nat) := do
  require (offset + 4 < bufflen) .packError
  let certFlag ← readWord buffer offset
  let length ← readWord buffer (offset + 2)
  require (offset + 4 + length ≤ bufflen) .packError
  pure (⟨certFlag, slice buffer (offset + 4) length⟩, offset + 4 + length)

def unpackFixdataId (offset bufflen : Nat) : Unpack (FixdataId × Nat) := do
  require (offset + 2 ≤ bufflen) .packError
  let idFlag ← readWord buffer offset
  require (offset + 4 ≤ bufflen) .packError
  let length ← readWord buffer (offset + 2)
  require (offset + 4 + length ≤ bufflen) .packError
  let data ← copy buffer (offset + 4) length .idData
  pure (⟨idFlag, data⟩, offset + 4 + length)

def unpackSignAlg (offset bufflen : Nat) : Unpack (FixdataAlg × Nat) := do
  require (offset + 2 ≤ bufflen) .packError
  let algLength ← readWord buffer offset
  require (offset + 3 ≤ bufflen) .packError
  let sha256Flag ← readByte buffer (offset + 2)
  require (offset + 4 ≤ bufflen) .packError
  let signAlg ← readByte buffer (offset + 3)
  require (offset + 5 ≤ bufflen) .packError
  let paraFlag ← readByte buffer (offset + 4)
  require (offset + 7 ≤ bufflen) .packError
  let length ← readWord buffer (offset + 5)
  require (offset + 7 + length ≤ bufflen) .packError
  let data ← copy buffer (offset + 7) length .paraData
  pure (⟨algLength, sha256Flag, signAlg, ⟨paraFlag, data⟩⟩, offset + 7 + length)

def unpackCommData (offset bufflen : Nat) : Unpack (Bytes × Nat) := do
  require (offset + 2 ≤ bufflen) .packError
  let length ← readWord buffer offset
  require (offset + 2 + length ≤ bufflen ∧ length ≤ 3000 ∧ length ≠ 0) .packError
  let data ← copy buffer (offset + 2) length .signData
  pure (data, offset + 2 + length)

/-- `c_unpack_byte_data`; the array has 256 bytes and room for any length. -/
def unpackByteData (offset bufflen : Nat) : Unpack (Bytes × Nat) := do
  require (offset + 1 ≤ bufflen) .packError
  let length ← readByte buffer offset
  require (offset + 1 + length.toNat ≤ bufflen ∧ length.toNat ≠ 0) .packError
  let data ← bytes buffer (offset + 1) length.toNat
  pure (data, offset + 1 + length.toNat)

def unpackAuthPayload (offset bufflen : Nat) : Unpack (AuthPayload × Nat) := do
  require (offset + 1 ≤ bufflen) .packError
  let identifier ← readByte buffer offset
  require (identifier = 1) .packError
  require (offset + 3 ≤ bufflen) .packError
  let length ← readWord buffer (offset + 1)
  let (id, offset) ← unpackFixdataId buffer (offset + 3) bufflen
  let (alg, offset) ← unpackSignAlg buffer offset bufflen
  let (signData, offset) ← unpackCommData buffer offset bufflen
  require (length = 4 + id.idData.length + 2 + alg.algLength + 2 + signData.length) .packError
  pure (⟨id, alg, signData⟩, offset)

def unpackCertCheckResult (offset bufflen : Nat) : Unpack (AuthResult × Nat) := do
  require (offset + 3 ≤ bufflen) .packError
  let _ ← readByte buffer offset
  let length ← readWord buffer (offset + 1)
  require (offset + 3 + length ≤ bufflen) .packError
  require (offset + 3 + 32 + 32 + 1 ≤ bufflen) .packError
  let aeChallenge ← bytes buffer (offset + 3) 32
  let asueChallenge ← bytes buffer (offset + 35) 32
  let authResult1 ← readByte buffer (offset + 67)
  let (cert1, offset) ← unpackFixdataCert buffer (offset + 68) bufflen
  require (offset + 1 ≤ bufflen) .packError
  let authResult2 ← readByte buffer offset
  let (cert2, offset) ← unpackFixdataCert buffer (offset + 1) bufflen
  require (length = 32 + 32 + 1 + 4 + cert1.certBin.length + 1 + 4 + cert2.certBin.length)
    .packError
  pure (⟨fixed 32 aeChallenge, fixed 32 asueChallenge, authResult1, cert1, authResult2, cert2⟩,
    offset)

/-- The loop of `unpack_wai_attridata_id_list`: a place of the array is stored into
once the kind of its identity is there. -/
@[grind =] def unpackIds (bufflen : Nat) : Nat → Nat → Nat → Unpack (List FixdataId × Nat)
  | 0, _, offset => pure ([], offset)
  | count + 1, index, offset => do
      require (offset + 2 ≤ bufflen) .packError
      notes [.store .id index]
      require (index < 10) .overrun
      let (id, offset) ← unpackFixdataId buffer offset bufflen
      let (ids, offset) ← unpackIds bufflen count (index + 1) offset
      pure (id :: ids, offset)

def unpackIdList (offset bufflen : Nat) : Unpack (IdList × Nat) := do
  require (offset + 6 ≤ bufflen) .packError
  let _ ← readByte buffer offset
  let length ← readWord buffer (offset + 1)
  let rev ← readByte buffer (offset + 3)
  let idNo ← readWord buffer (offset + 4)
  let (ids, next) ← unpackIds buffer bufflen idNo 0 (offset + 6)
  pure (⟨length, rev, ids⟩, next)

end Parts

/-! ## Messages -/

section Messages

variable (buffer : Bytes)

def trustedList (flag : UInt8) (offset bufflen : Nat) : Unpack (Option IdList × Nat) := do
  let identifier ← readByte buffer offset
  if identifier == 3 && flag &&& 0x08 != 0 then do
    let (list, offset) ← unpackIdList buffer offset bufflen
    pure (some list, offset)
  else
    pure (none, offset)

def unpackStaAuthRequest : Unpack StaAuthRequest := do
  let bufflen := buffer.length % 65536
  require (headLen + 1 + 32 + 32 < bufflen) .packError
  unpackHead buffer bufflen
  let flag ← readByte buffer 12
  let aeAuthFlag ← bytes buffer 13 32
  let asueChallenge ← bytes buffer 45 32
  let (keyData, offset) ← unpackByteData buffer 77 bufflen
  let (aeId, offset) ← unpackFixdataId buffer offset bufflen
  let (asueCert, offset) ← unpackFixdataCert buffer offset bufflen
  require (offset + 1 ≤ bufflen) .packError
  let paraFlag ← readByte buffer offset
  require (offset + 3 ≤ bufflen) .packError
  let paraLen ← readWord buffer (offset + 1)
  -- not compared with the end of the message
  let paraData ← copy buffer (offset + 3) paraLen .paraData
  let (asuIdList, offset) ← trustedList buffer flag (offset + 3 + paraLen) bufflen
  let (asueSign, _) ← unpackAuthPayload buffer offset bufflen
  pure ⟨flag, fixed 32 aeAuthFlag, fixed 32 asueChallenge, keyData, aeId, asueCert,
    ⟨paraFlag, paraData⟩, asuIdList, asueSign, offset⟩

/-- The signatures of `unpack_ap_auth_response`: the one that the access point
trusts, and where it is. -/
def trustedSigns (authResult1 : UInt8) (offset bufflen : Nat) : Unpack (AuthPayload × Nat) := do
  require (offset + 2 ≤ bufflen) .packError
  let signdataLen ← readWord buffer (offset + 1)
  let taken := offset + 3 + signdataLen
  require (authResult1 ≠ certifIssuerUnknown ∨ taken = bufflen) .packError
  if taken < bufflen then do
    let (_, offset) ← unpackAuthPayload buffer offset bufflen
    -- a length that is not used
    let _ ← readWord buffer (offset + 1)
    let (sign, _) ← unpackAuthPayload buffer offset bufflen
    pure (sign, offset)
  else do
    require (taken = bufflen) .packError
    let (sign, _) ← unpackAuthPayload buffer offset bufflen
    pure (sign, offset)

def unpackApAuthResponse : Unpack ApAuthResponse := do
  let bufflen := buffer.length % 65536
  require (headLen + 12 ≤ bufflen) .packError
  unpackHead buffer bufflen
  let mac1 ← bytes buffer 12 6
  let mac2 ← bytes buffer 18 6
  let (certResult, offset) ← unpackCertCheckResult buffer 24 bufflen
  let (sign, offset) ← trustedSigns buffer certResult.authResult1 offset bufflen
  pure ⟨fixed 6 mac1, fixed 6 mac2, certResult, sign, offset⟩

def unpackUcastkeyNegResponse : Unpack SessionKeyNegResponse := do
  let bufflen := buffer.length % 65536
  require (headLen + 1 + 16 + 1 + 12 + 32 + 32 + 2 < bufflen) .packError
  unpackHead buffer bufflen
  let flag ← readByte buffer 12
  let bkid ← bytes buffer 13 16
  let uskid ← readByte buffer 29
  let addid ← bytes buffer 30 12
  let asueChallenge ← bytes buffer 42 32
  let aeChallenge ← bytes buffer 74 32
  let length ← readByte buffer 107
  let wieLen := length.toNat + 2
  require (106 + wieLen ≤ bufflen) .packError
  let wieAsue ← copy buffer 106 wieLen .wieAsue
  require (106 + wieLen + 20 ≤ bufflen) .packError
  let mic ← bytes buffer (106 + wieLen) 20
  pure ⟨flag, fixed 16 bkid, uskid, addid, fixed 32 asueChallenge, fixed 32 aeChallenge, wieAsue,
    mic⟩

def unpackMskAnnouncementRes : Unpack GroupkeyNoticeResponse := do
  let bufflen := buffer.length % 65536
  require (headLen + 1 + 1 + 1 + 12 + 16 + 20 ≤ bufflen) .packError
  unpackHead buffer bufflen
  let flag ← readByte buffer 12
  let noticeKeyid ← readByte buffer 13
  let uskid ← readByte buffer 14
  let mac1 ← bytes buffer 15 6
  let mac2 ← bytes buffer 21 6
  let _ ← bytes buffer 27 16
  let mic ← bytes buffer 43 20
  pure ⟨flag, noticeKeyid, uskid, fixed 6 mac1, fixed 6 mac2,
    [27, 31, 35, 39].map (readDword buffer), mic⟩

end Messages

end Bounds

/-- The places of `usk` that `usk_negotiation_res` uses, with those that
`ae_usk_derivation` uses for it. -/
def uskIndices (sta : Sta) (frame : Bytes) : List Nat :=
  if acceptsUskResponse sta.status = false then []
  else
    match unpackUcastkeyNegResponse frame with
    | .error _ => []
    | .ok res =>
      let uskid := res.uskid.toNat
      let update := res.flag &&& 0x10
      let valid := if inside : uskid < 2 then (sta.usksa.usk ⟨uskid, inside⟩).validFlag else false
      (if update ≠ 0 then [uskid] else []) ++
        -- the derivation stores the keys there, and the authenticator takes one
        if ¬(update ≠ 0 ∧ valid = true) ∧ res.aeChallenge = sta.aeNonce then [uskid, uskid]
        else []

/-! ## The lengths that fit -/

section Fits

variable (buffer : Bytes)

/-- An identity that ends in the message fits into `id_data`. -/
def IdFits (offset bufflen : Nat) : Prop :=
  offset + 4 ≤ bufflen → offset + 4 + readWord buffer (offset + 2) ≤ bufflen →
    readWord buffer (offset + 2) ≤ 1000

/-- A parameter that ends in the message fits into `para_data`. -/
def AlgFits (offset bufflen : Nat) : Prop :=
  offset + 7 ≤ bufflen → offset + 7 + readWord buffer (offset + 5) ≤ bufflen →
    readWord buffer (offset + 5) ≤ 20

/-- A signature that ends in the message and has at most 3000 bytes has at most 256. -/
def CommFits (offset bufflen : Nat) : Prop :=
  offset + 2 ≤ bufflen → offset + 2 + readWord buffer offset ≤ bufflen →
    readWord buffer offset ≤ 3000 → readWord buffer offset ≤ 256

/-- The parts of a signature attribute that are come to. -/
def PayloadFits (offset bufflen : Nat) : Prop :=
  offset + 3 ≤ bufflen → byteAt buffer offset = 1 → IdFits buffer (offset + 3) bufflen ∧
      ∀ id next, unpackFixdataId buffer (offset + 3) bufflen = .ok (id, next) →
        AlgFits buffer next bufflen ∧
          ∀ alg last, unpackSignAlg buffer next bufflen = .ok (alg, last) →
            CommFits buffer last bufflen

/-- There are at most ten identities, as far as the message goes, and they fit. -/
def IdsFit (bufflen : Nat) : Nat → Nat → Nat → Prop
  | 0, _, _ => True
  | count + 1, index, offset =>
    offset + 2 ≤ bufflen → index < 10 ∧ IdFits buffer offset bufflen ∧
      ∀ id next, unpackFixdataId buffer offset bufflen = .ok (id, next) →
        IdsFit bufflen count (index + 1) next

def ListFits (offset bufflen : Nat) : Prop :=
  offset + 6 ≤ bufflen → IdsFit buffer bufflen (readWord buffer (offset + 4)) 0 (offset + 6)

def Listed (flag : UInt8) (offset : Nat) : Prop := byteAt buffer offset = 3 ∧ flag &&& 0x08 ≠ 0

/-- The parameter of the curve fits into `para_data` and ends before the message does;
behind it stands a list that fits, or the signature. -/
def EcdhFits (flag : UInt8) (offset bufflen : Nat) : Prop :=
  offset + 3 ≤ bufflen →
    let next := offset + 3 + readWord buffer (offset + 1)
    readWord buffer (offset + 1) ≤ 20 ∧ next < bufflen ∧
      (Listed buffer flag next → ListFits buffer next bufflen ∧
        ∀ list last, unpackIdList buffer next bufflen = .ok (list, last) →
          PayloadFits buffer last bufflen) ∧
      (¬Listed buffer flag next → PayloadFits buffer next bufflen)

def StaAuthRequestFits : Prop :=
  let bufflen := buffer.length % 65536
  headLen + 1 + 32 + 32 < bufflen → unpackHead buffer bufflen = .ok () →
    ∀ keyData c, unpackByteData buffer 77 bufflen = .ok (keyData, c) → IdFits buffer c bufflen ∧
        ∀ id d, unpackFixdataId buffer c bufflen = .ok (id, d) →
          ∀ cert e, unpackFixdataCert buffer d bufflen = .ok (cert, e) →
            EcdhFits buffer (byteAt buffer 12) e bufflen

/-- Both bytes of a length are there, and the signatures fit. -/
def SignsFit (authResult1 : UInt8) (offset bufflen : Nat) : Prop :=
  offset + 2 ≤ bufflen →
    let taken := offset + 3 + readWord buffer (offset + 1)
    offset + 3 ≤ bufflen ∧ (authResult1 ≠ certifIssuerUnknown ∨ taken = bufflen →
        (taken ≤ bufflen → PayloadFits buffer offset bufflen) ∧
        (taken < bufflen → ∀ sign next, unpackAuthPayload buffer offset bufflen = .ok (sign, next) →
            next + 3 ≤ bufflen ∧ PayloadFits buffer next bufflen))

def ApAuthResponseFits : Prop :=
  let bufflen := buffer.length % 65536
  headLen + 12 ≤ bufflen → unpackHead buffer bufflen = .ok () →
    ∀ result c, unpackCertCheckResult buffer 24 bufflen = .ok (result, c) →
      SignsFit buffer result.authResult1 c bufflen

/-- An information element that ends in the message fits into `wie_asue`. -/
def UcastkeyNegResponseFits : Prop :=
  let bufflen := buffer.length % 65536
  headLen + 1 + 16 + 1 + 12 + 32 + 32 + 2 < bufflen → unpackHead buffer bufflen = .ok () →
    106 + ((byteAt buffer 107).toNat + 2) ≤ bufflen → (byteAt buffer 107).toNat + 2 ≤ 255

def UcastkeyNegResponseWhole : Prop :=
  let bufflen := buffer.length % 65536
  let wieLen := (byteAt buffer 107).toNat + 2
  headLen + 1 + 16 + 1 + 12 + 32 + 32 + 2 < bufflen ∧ unpackHead buffer bufflen = .ok () ∧
    106 + wieLen ≤ bufflen ∧ wieLen ≤ 255 ∧ 106 + wieLen + 20 ≤ bufflen

/-- A response that is looked at, because it is an update or because it has the nonce
of the access point, selects the first or the second key. -/
def UskidFits (sta : Sta) : Prop :=
  acceptsUskResponse sta.status = true → UcastkeyNegResponseWhole buffer →
    byteAt buffer 12 &&& 0x10 ≠ 0 ∨ fixed 32 (slice buffer 74 32) = sta.aeNonce →
      (byteAt buffer 29).toNat < 2

end Fits

namespace Bounds

open Attempt

/-! ## What the steps return and note -/

section Steps

variable {buffer : Bytes} {offset bufflen count : Nat} {field : Field}

@[simp] theorem bytes_eq_ok {data : Bytes} :
    (bytes buffer offset count).value = .ok data ↔ slice buffer offset count = data := by
  simp [bytes, bind_eq_ok]

@[simp] theorem readByte_eq_ok {value : UInt8} :
    (readByte buffer offset).value = .ok value ↔ byteAt buffer offset = value := by
  simp [readByte, bind_eq_ok]

@[simp] theorem readWord_eq_ok {value : Nat} :
    (readWord buffer offset).value = .ok value ↔ Wapi.readWord buffer offset = value := by
  simp [readWord, bind_eq_ok]

@[simp] theorem copy_eq_ok {data : Bytes} : (copy buffer offset count field).value = .ok data ↔
      count ≤ field.size ∧ slice buffer offset count = data := by
  simp [copy, bind_eq_ok]

theorem bytes_inside : (bytes buffer offset count).All (Access.Inside bufflen) ↔
    count = 0 ∨ offset + count ≤ bufflen := by
  simp only [bytes, all_bind, all_notes, all_pure, implies_true, and_true, forall_mem_map,
    mem_range'_1, Access.Inside]
  constructor
  · intro inside
    rcases Nat.eq_zero_or_pos count with zero | positive
    · exact .inl zero
    · have last := inside (offset + count - 1) (by omega)
      exact .inr (by omega)
  · intro room index member
    omega

theorem readByte_inside :
    (readByte buffer offset).All (Access.Inside bufflen) ↔ offset < bufflen := by
  simp [readByte, all_bind, Access.Inside]

theorem readWord_inside :
    (readWord buffer offset).All (Access.Inside bufflen) ↔ offset + 2 ≤ bufflen := by
  simp [readWord, all_bind, Access.Inside]
  omega

theorem copy_inside : (copy buffer offset count field).All (Access.Inside bufflen) ↔
    (count = 0 ∨ offset + count ≤ bufflen) ∧ count ≤ field.size := by
  simp only [copy, all_bind, bytes_inside, bytes_eq_ok, forall_eq', all_notes, all_require,
    all_pure, implies_true, and_true, forall_mem_map, mem_range, Access.Inside]
  refine and_congr_right fun _ => ?_
  constructor
  · intro inside
    rcases Nat.eq_zero_or_pos count with rfl | positive
    · exact Nat.zero_le _
    · have last := inside (count - 1) (by omega)
      omega
  · intro room index below
    omega

end Steps

/-! ## The unpackers return what the others do -/

section Results

variable {buffer : Bytes} {offset bufflen : Nat}

theorem demand_eq_ok {test : Bool} {fault : Fault} {result : Unit} :
    demand test fault = .ok result ↔ test = true := by
  cases test <;> simp [demand]

theorem result_eq_ok {α : Type} {value result : α} :
    (pure value : Except Fault α) = .ok result ↔ value = result := by
  change Except.ok value = .ok result ↔ _
  rw [Except.ok.injEq]

theorem unpackHead_eq_ok {result : Unit} : (unpackHead buffer bufflen).value = .ok result ↔
      Wapi.unpackHead buffer bufflen = .ok result := by
  simp [unpackHead, Wapi.unpackHead, bind_eq_ok, unpack_bind_ok, demand_eq_ok]

theorem unpackFixdataCert_eq_ok {result : FixdataCert × Nat} :
    (unpackFixdataCert buffer offset bufflen).value = .ok result ↔
      Wapi.unpackFixdataCert buffer offset bufflen = .ok result := by
  simp [-bind_pure_comp, unpackFixdataCert, Wapi.unpackFixdataCert, bind_eq_ok,
    unpack_bind_ok, demand_eq_ok, result_eq_ok]

theorem unpackFixdataId_eq_ok {result : FixdataId × Nat} :
    (unpackFixdataId buffer offset bufflen).value = .ok result ↔
      Wapi.unpackFixdataId buffer offset bufflen = .ok result := by
  simp [-bind_pure_comp, unpackFixdataId, Wapi.unpackFixdataId, bind_eq_ok,
    unpack_bind_ok, demand_eq_ok, result_eq_ok, Field.size, and_assoc]

theorem unpackSignAlg_eq_ok {result : FixdataAlg × Nat} :
    (unpackSignAlg buffer offset bufflen).value = .ok result ↔
      Wapi.unpackSignAlg buffer offset bufflen = .ok result := by
  simp only [unpackSignAlg, Wapi.unpackSignAlg, bind_eq_ok, unpack_bind_ok, require_eq_ok,
    demand_eq_ok, readWord_eq_ok, readByte_eq_ok, copy_eq_ok, pure_eq_ok, result_eq_ok,
    decide_eq_true_eq, Field.size, and_assoc, exists_and_left, ↓existsAndEq, exists_eq_left',
    exists_const, true_and]
  constructor
  · rintro ⟨-, -, -, -, passed⟩
    exact passed
  · intro passed
    exact ⟨by omega, by omega, by omega, by omega, passed⟩

variable {result : Bytes × Nat}

theorem unpackCommData_eq_ok : (unpackCommData buffer offset bufflen).value = .ok result ↔
      Wapi.unpackCommData buffer offset bufflen = .ok result := by
  simp [-bind_pure_comp, unpackCommData, Wapi.unpackCommData, bind_eq_ok,
    unpack_bind_ok, demand_eq_ok, result_eq_ok, Field.size, and_assoc]

theorem unpackByteData_eq_ok : (unpackByteData buffer offset bufflen).value = .ok result ↔
      Wapi.unpackByteData buffer offset bufflen = .ok result := by
  simp [-bind_pure_comp, unpackByteData, Wapi.unpackByteData, bind_eq_ok,
    unpack_bind_ok, demand_eq_ok, result_eq_ok, and_assoc]

theorem unpackAuthPayload_eq_ok {result : AuthPayload × Nat} :
    (unpackAuthPayload buffer offset bufflen).value = .ok result ↔
      Wapi.unpackAuthPayload buffer offset bufflen = .ok result := by
  simp [-bind_pure_comp, unpackAuthPayload, Wapi.unpackAuthPayload, bind_eq_ok,
    unpack_bind_ok, demand_eq_ok, result_eq_ok, unpackFixdataId_eq_ok,
    unpackSignAlg_eq_ok, unpackCommData_eq_ok]

theorem unpackCertCheckResult_eq_ok {result : AuthResult × Nat} :
    (unpackCertCheckResult buffer offset bufflen).value = .ok result ↔
      Wapi.unpackCertCheckResult buffer offset bufflen = .ok result := by
  simp [-bind_pure_comp, unpackCertCheckResult, Wapi.unpackCertCheckResult, bind_eq_ok,
    unpack_bind_ok, demand_eq_ok, result_eq_ok, unpackFixdataCert_eq_ok]

theorem unpackFixdataId_starts {result : FixdataId × Nat}
    (unpacked : Wapi.unpackFixdataId buffer offset bufflen = .ok result) :
    offset + 2 ≤ bufflen := by
  obtain ⟨_, kind, -⟩ := unpack_bind_ok.mp unpacked
  exact of_decide_eq_true (demand_eq_ok.mp kind)

theorem unpackIds_eq_ok {count index : Nat} (room : index ≤ 10)
    {result : List FixdataId × Nat} :
    (unpackIds buffer bufflen count index offset).value = .ok result ↔
      Wapi.unpackIds buffer bufflen count (10 - index) offset = .ok result := by
  induction count generalizing index offset result with
  | zero => simp [unpackIds, Wapi.unpackIds]
  | succ count ih =>
    rcases Nat.lt_or_ge index 10 with more | full
    · obtain ⟨free, same⟩ : ∃ free, 10 - index = free + 1 := ⟨9 - index, by omega⟩
      have later : 10 - (index + 1) = free := by omega
      rw [same]
      simp only [unpackIds, Wapi.unpackIds, bind_eq_ok, unpack_bind_ok, require_eq_ok,
        notes_eq_ok, pure_eq_ok, result_eq_ok, more, unpackFixdataId_eq_ok, ih more, later,
        Prod.exists, exists_const, true_and, and_iff_right_iff_imp, forall_exists_index, and_imp]
      intro id next unpacked _ _ _ _
      exact unpackFixdataId_starts unpacked
    · have none : 10 - index = 0 := by omega
      rw [none]
      simp [unpackIds, Wapi.unpackIds, bind_eq_ok, unpack_bind_ok, Nat.not_lt.mpr full]

theorem unpackIdList_eq_ok {result : IdList × Nat} :
    (unpackIdList buffer offset bufflen).value = .ok result ↔
      Wapi.unpackIdList buffer offset bufflen = .ok result := by
  simp [-bind_pure_comp, unpackIdList, Wapi.unpackIdList, bind_eq_ok, unpack_bind_ok, demand_eq_ok,
    result_eq_ok, unpackIds_eq_ok]

theorem unpackUcastkeyNegResponse_eq_ok {result : SessionKeyNegResponse} :
    (unpackUcastkeyNegResponse buffer).value = .ok result ↔
      Wapi.unpackUcastkeyNegResponse buffer = .ok result := by
  simp [-bind_pure_comp, unpackUcastkeyNegResponse, Wapi.unpackUcastkeyNegResponse, bind_eq_ok,
    unpack_bind_ok, demand_eq_ok, result_eq_ok, unpackHead_eq_ok, Field.size, and_assoc]

theorem unpackMskAnnouncementRes_eq_ok {result : GroupkeyNoticeResponse} :
    (unpackMskAnnouncementRes buffer).value = .ok result ↔
      Wapi.unpackMskAnnouncementRes buffer = .ok result := by
  simp [-bind_pure_comp, unpackMskAnnouncementRes, Wapi.unpackMskAnnouncementRes, bind_eq_ok,
    unpack_bind_ok, demand_eq_ok, result_eq_ok, unpackHead_eq_ok]

theorem unpackApAuthResponse_eq_ok {result : ApAuthResponse} :
    (unpackApAuthResponse buffer).value = .ok result ↔
      Wapi.unpackApAuthResponse buffer = .ok result := by
  simp [-bind_pure_comp, unpackApAuthResponse, trustedSigns, Wapi.unpackApAuthResponse, bind_eq_ok,
    unpack_bind_ok, demand_eq_ok, unpackHead_eq_ok, unpackCertCheckResult_eq_ok]
  intro _ _ _
  refine exists_congr fun checked => exists_congr fun offset => and_congr_right fun _ => ?_
  rcases Nat.lt_trichotomy (offset + 3 + Wapi.readWord buffer (offset + 1))
    (buffer.length % 65536) with more | last | beyond
  · simp only [if_pos more, bind_eq_ok, unpack_bind_ok, readWord_eq_ok, exists_eq_left',
      pure_eq_ok, result_eq_ok, unpackAuthPayload_eq_ok, and_assoc]
    constructor
    · rintro ⟨_, _, room, kind, ⟨first, one, second, two, ⟨⟩⟩, same⟩
      exact ⟨room, kind, first, one, second, two, same⟩
    · rintro ⟨room, kind, first, one, second, two, same⟩
      exact ⟨_, _, room, kind, ⟨first, one, second, two, rfl⟩, same⟩
  · simp only [if_neg (Nat.lt_irrefl _), if_true, last, bind_eq_ok, unpack_bind_ok, require_eq_ok,
      exists_const, true_and, pure_eq_ok, result_eq_ok, unpackAuthPayload_eq_ok, and_assoc]
    constructor
    · rintro ⟨_, _, room, kind, ⟨sign, signed, ⟨⟩⟩, same⟩
      exact ⟨room, kind, sign, signed, same⟩
    · rintro ⟨room, kind, sign, signed, same⟩
      exact ⟨_, _, room, kind, ⟨sign, signed, rfl⟩, same⟩
  · simp [Nat.not_lt.mpr (Nat.le_of_lt beyond), Nat.ne_of_gt beyond, bind_eq_ok]

theorem unpackStaAuthRequest_eq_ok {result : StaAuthRequest} :
    (unpackStaAuthRequest buffer).value = .ok result ↔
      Wapi.unpackStaAuthRequest buffer = .ok result := by
  simp [-bind_pure_comp, unpackStaAuthRequest, trustedList, Wapi.unpackStaAuthRequest, bind_eq_ok,
    unpack_bind_ok, demand_eq_ok, unpackHead_eq_ok, unpackByteData_eq_ok,
    unpackFixdataId_eq_ok, unpackFixdataCert_eq_ok, unpackAuthPayload_eq_ok,
    Field.size, and_assoc]
  intro _ _ _
  refine exists_congr fun keyData => exists_congr fun a => and_congr_right fun _ => ?_
  refine exists_congr fun id => exists_congr fun b => and_congr_right fun _ => ?_
  refine exists_congr fun cert => exists_congr fun offset => and_congr_right fun _ => ?_
  refine (and_iff_right_of_imp fun room => by omega).trans ?_
  refine and_congr_right fun _ => and_congr_right fun _ => ?_
  split
  · simp only [bind_eq_ok, unpack_bind_ok, pure_eq_ok, result_eq_ok, unpackIdList_eq_ok]
    constructor
    · rintro ⟨_, _, ⟨list, listed, ⟨⟩⟩, sign, ⟨next, signed⟩, same⟩
      exact ⟨list, listed, (sign, next), signed, same⟩
    · rintro ⟨list, listed, sign, signed, same⟩
      exact ⟨_, _, ⟨list, listed, rfl⟩, sign.1, ⟨sign.2, signed⟩, same⟩
  · simp only [pure_eq_ok, unpack_bind_ok, result_eq_ok]
    constructor
    · rintro ⟨_, _, ⟨⟩, sign, ⟨next, signed⟩, same⟩
      exact ⟨(sign, next), signed, same⟩
    · rintro ⟨sign, signed, same⟩
      exact ⟨_, _, rfl, sign.1, ⟨sign.2, signed⟩, same⟩

end Results

/-! ## The unpackers that stay inside -/

section Inside

variable {buffer : Bytes} {offset bufflen : Nat}

theorem unpackHead_inside (large : headLen ≤ bufflen) :
    (unpackHead buffer bufflen).All (Access.Inside bufflen) := by
  have room : 12 ≤ bufflen := large
  simp only [unpackHead, all_bind, readWord_inside, readByte_inside, all_require, all_pure,
    implies_true, and_true, true_and, require_eq_ok, readWord_eq_ok, readByte_eq_ok, forall_eq',
    forall_const]
  omega

theorem unpackFixdataCert_inside :
    (unpackFixdataCert buffer offset bufflen).All (Access.Inside bufflen) := by
  simp only [unpackFixdataCert, all_bind, readWord_inside, all_require, all_pure,
    implies_true, and_true, true_and, require_eq_ok, readWord_eq_ok, forall_eq', forall_const]
  omega

theorem unpackFixdataId_inside :
    (unpackFixdataId buffer offset bufflen).All (Access.Inside bufflen) ↔
      IdFits buffer offset bufflen := by
  simp only [unpackFixdataId, all_bind, readWord_inside, all_require, all_pure, copy_inside,
    implies_true, and_true, true_and, require_eq_ok, readWord_eq_ok, forall_eq', forall_const,
    IdFits, Field.size]
  omega

theorem unpackSignAlg_inside : (unpackSignAlg buffer offset bufflen).All (Access.Inside bufflen) ↔
      AlgFits buffer offset bufflen := by
  simp only [unpackSignAlg, all_bind, readWord_inside, readByte_inside, all_require, all_pure,
    copy_inside, implies_true, and_true, true_and, require_eq_ok, readWord_eq_ok, readByte_eq_ok,
    forall_eq', forall_const, AlgFits, Field.size]
  omega

theorem unpackCommData_inside : (unpackCommData buffer offset bufflen).All (Access.Inside bufflen) ↔
      CommFits buffer offset bufflen := by
  simp only [unpackCommData, all_bind, readWord_inside, all_require, all_pure, copy_inside,
    implies_true, and_true, true_and, require_eq_ok, readWord_eq_ok, forall_eq', forall_const,
    CommFits, Field.size]
  omega

theorem unpackByteData_inside :
    (unpackByteData buffer offset bufflen).All (Access.Inside bufflen) := by
  simp only [unpackByteData, all_bind, readByte_inside, all_require, all_pure, bytes_inside,
    implies_true, and_true, true_and, require_eq_ok, readByte_eq_ok, forall_eq', forall_const]
  omega

theorem unpackAuthPayload_inside :
    (unpackAuthPayload buffer offset bufflen).All (Access.Inside bufflen) ↔
      PayloadFits buffer offset bufflen := by
  simp only [unpackAuthPayload, all_bind, readWord_inside, readByte_inside, all_require, all_pure,
    implies_true, and_true, true_and, require_eq_ok, readWord_eq_ok, readByte_eq_ok, forall_eq',
    forall_const, unpackFixdataId_inside, unpackFixdataId_eq_ok, unpackSignAlg_inside,
    unpackSignAlg_eq_ok, unpackCommData_inside, Prod.forall, PayloadFits]
  constructor
  · intro inside room identifier
    exact ((inside (by omega)).2 identifier room).2
  · intro fits _
    exact ⟨by omega, fun identifier room => ⟨by omega, fits room identifier⟩⟩

theorem unpackCertCheckResult_inside :
    (unpackCertCheckResult buffer offset bufflen).All (Access.Inside bufflen) := by
  simp only [unpackCertCheckResult, all_bind, readWord_inside, readByte_inside, bytes_inside,
    all_require, all_pure, implies_true, and_true, true_and, require_eq_ok, readWord_eq_ok,
    readByte_eq_ok, bytes_eq_ok, forall_eq', forall_const, unpackFixdataCert_inside, Prod.forall]
  intro _
  refine ⟨by omega, by omega, fun _ _ => ⟨by omega, by omega, by omega, ?_⟩⟩
  intro _ next _ room
  omega

theorem unpackIds_inside (count index : Nat) :
    (unpackIds buffer bufflen count index offset).All (Access.Inside bufflen) ↔
      IdsFit buffer bufflen count index offset := by
  induction count generalizing index offset with
  | zero => simp [unpackIds, IdsFit]
  | succ count ih =>
    simp only [unpackIds, all_bind, all_notes, all_require, all_pure, require_eq_ok, notes_eq_ok,
      forall_mem_singleton, Access.Inside, Field.size, unpackFixdataId_inside,
      unpackFixdataId_eq_ok, ih, IdsFit, implies_true, and_true, true_and, forall_const,
      Prod.forall]
    refine imp_congr_right fun _ => and_congr_right fun free => ?_
    rw [forall_prop_of_true free]

theorem unpackIdList_inside : (unpackIdList buffer offset bufflen).All (Access.Inside bufflen) ↔
      ListFits buffer offset bufflen := by
  simp only [unpackIdList, all_bind, readWord_inside, readByte_inside, all_require, all_pure,
    implies_true, and_true, true_and, require_eq_ok, readWord_eq_ok, readByte_eq_ok, forall_eq',
    forall_const, unpackIds_inside, ListFits]
  refine imp_congr_right fun _ => ?_
  constructor
  · exact fun inside => inside.2.2.2.2
  · exact fun fits => ⟨by omega, by omega, by omega, by omega, fits⟩

variable {flag : UInt8}

theorem listed_iff :
    (byteAt buffer offset == 3 && flag &&& 0x08 != 0) = true ↔ Listed buffer flag offset := by
  simp [Listed]

theorem trustedList_inside : (trustedList buffer flag offset bufflen).All (Access.Inside bufflen) ↔
      offset < bufflen ∧ (Listed buffer flag offset → ListFits buffer offset bufflen) := by
  simp only [trustedList, all_bind, readByte_inside, readByte_eq_ok, forall_eq']
  refine and_congr_right fun _ => ?_
  split
  next listed =>
    simp only [all_bind, unpackIdList_inside, all_pure, implies_true, and_true,
      forall_prop_of_true (listed_iff.mp listed)]
  next unlisted => exact iff_of_true all_pure fun listed => absurd (listed_iff.mpr listed) unlisted

theorem trustedList_forall {property : Nat → Prop} :
    (∀ list next, (trustedList buffer flag offset bufflen).value = .ok (list, next) →
        property next) ↔
      (Listed buffer flag offset →
        ∀ list next, Wapi.unpackIdList buffer offset bufflen = .ok (list, next) → property next) ∧
      (¬Listed buffer flag offset → property offset) := by
  simp only [trustedList, bind_eq_ok, readByte_eq_ok, exists_eq_left']
  split
  next listed =>
    have present := listed_iff.mp listed
    simp only [bind_eq_ok, unpackIdList_eq_ok, pure_eq_ok, Prod.mk.injEq, present,
      forall_true_left, not_true_eq_false, false_implies, and_true]
    constructor
    · intro holds list next unpacked
      exact holds (some list) next ⟨(list, next), unpacked, rfl, rfl⟩
    · rintro holds _ _ ⟨⟨list, next⟩, unpacked, -, rfl⟩
      exact holds list next unpacked
  next unlisted =>
    have absent := mt listed_iff.mpr unlisted
    simp only [pure_eq_ok, Prod.mk.injEq, absent, false_implies, not_false_eq_true,
      forall_true_left, true_and]
    constructor
    · exact fun holds => holds none offset ⟨rfl, rfl⟩
    · rintro holds _ _ ⟨-, rfl⟩
      exact holds

theorem trustedSigns_inside {authResult1 : UInt8} :
    (trustedSigns buffer authResult1 offset bufflen).All (Access.Inside bufflen) ↔
      SignsFit buffer authResult1 offset bufflen := by
  simp only [trustedSigns, all_bind, readWord_inside, all_require, true_and, require_eq_ok,
    readWord_eq_ok, forall_eq', forall_const, SignsFit]
  refine imp_congr_right fun _ => and_congr_right fun _ => imp_congr_right fun _ => ?_
  split
  next more =>
    simp only [all_bind, unpackAuthPayload_inside, unpackAuthPayload_eq_ok, readWord_inside,
      readWord_eq_ok, forall_eq', all_pure, implies_true, and_true, Prod.forall,
      forall_prop_of_true more, forall_prop_of_true (Nat.le_of_lt more)]
  next last =>
    simp only [all_bind, unpackAuthPayload_inside, all_require, require_eq_ok, all_pure, true_and,
      implies_true, and_true, forall_const, last, false_implies]
    exact imp_congr_left (by omega)

theorem unpackUcastkeyNegResponse_inside :
    (unpackUcastkeyNegResponse buffer).All (Access.Inside (buffer.length % 65536)) ↔
      UcastkeyNegResponseFits buffer := by
  have head : headLen = 12 := rfl
  simp only [unpackUcastkeyNegResponse, all_bind, readByte_inside, bytes_inside, copy_inside,
    all_require, all_pure, implies_true, and_true, true_and, require_eq_ok, readByte_eq_ok,
    bytes_eq_ok, forall_eq', forall_const, unpackHead_eq_ok, UcastkeyNegResponseFits, Field.size]
  refine imp_congr_right fun large => ?_
  constructor
  · rintro ⟨-, inside⟩ headed
    obtain ⟨_, _, _, _, _, _, _, stored⟩ := inside () headed
    exact fun room => (stored room).1.2
  · intro fits
    refine ⟨unpackHead_inside (by omega), fun _ headed => ?_⟩
    have room := fits headed
    refine ⟨by omega, by omega, by omega, by omega, by omega, by omega, by omega, ?_⟩
    exact fun whole => ⟨⟨.inr whole, room whole⟩, fun _ _ => .inr⟩

theorem unpackMskAnnouncementRes_inside :
    (unpackMskAnnouncementRes buffer).All (Access.Inside (buffer.length % 65536)) := by
  have head : headLen = 12 := rfl
  simp only [unpackMskAnnouncementRes, all_bind, readByte_inside, bytes_inside, all_require,
    all_pure, implies_true, and_true, true_and, require_eq_ok, readByte_eq_ok, bytes_eq_ok,
    forall_eq']
  intro _ large
  exact ⟨unpackHead_inside (by omega), fun _ _ => by omega⟩

theorem unpackApAuthResponse_inside :
    (unpackApAuthResponse buffer).All (Access.Inside (buffer.length % 65536)) ↔
      ApAuthResponseFits buffer := by
  have head : headLen = 12 := rfl
  simp only [unpackApAuthResponse, all_bind, bytes_inside, all_require, all_pure, implies_true,
    and_true, true_and, require_eq_ok, bytes_eq_ok, forall_eq', forall_const, unpackHead_eq_ok,
    unpackCertCheckResult_inside, unpackCertCheckResult_eq_ok, trustedSigns_inside, Prod.forall,
    ApAuthResponseFits]
  refine imp_congr_right fun large => ?_
  constructor
  · rintro ⟨-, inside⟩ headed
    exact (inside () headed).2.2
  · intro fits
    refine ⟨unpackHead_inside (by omega), fun _ headed => ?_⟩
    exact ⟨by omega, by omega, fits headed⟩

theorem unpackStaAuthRequest_inside :
    (unpackStaAuthRequest buffer).All (Access.Inside (buffer.length % 65536)) ↔
      StaAuthRequestFits buffer := by
  have head : headLen = 12 := rfl
  simp only [unpackStaAuthRequest, all_bind, readByte_inside, readWord_inside, bytes_inside,
    copy_inside, copy_eq_ok, and_imp, all_require, all_pure, implies_true, and_true, true_and,
    require_eq_ok, bytes_eq_ok, readByte_eq_ok, readWord_eq_ok, forall_eq', forall_const,
    unpackHead_eq_ok, unpackByteData_inside, unpackByteData_eq_ok, unpackFixdataId_inside,
    unpackFixdataId_eq_ok, unpackFixdataCert_inside, unpackFixdataCert_eq_ok, trustedList_inside,
    unpackAuthPayload_inside, Prod.forall, trustedList_forall, StaAuthRequestFits, EcdhFits,
    Field.size]
  refine imp_congr_right fun large => ?_
  constructor
  · rintro ⟨-, inside⟩ headed keyData c taken
    obtain ⟨-, -, -, next⟩ := inside () headed
    obtain ⟨fits, next⟩ := next keyData c taken
    refine ⟨fits, fun id d identified cert e certified room => ?_⟩
    obtain ⟨-, next⟩ := next id d identified cert e certified (by omega)
    obtain ⟨-, ⟨-, small⟩, next⟩ := next room
    obtain ⟨⟨before, list⟩, listed, unlisted⟩ := next _ small rfl
    exact ⟨small, before, fun present => ⟨list present, listed present⟩, unlisted⟩
  · intro fits
    refine ⟨unpackHead_inside (by omega), fun _ headed => ⟨by omega, by omega, by omega, ?_⟩⟩
    intro keyData c taken
    obtain ⟨id, next⟩ := fits headed keyData c taken
    refine ⟨id, fun id d identified cert e certified _ => ⟨by omega, fun room => ?_⟩⟩
    obtain ⟨small, before, listed, unlisted⟩ := next id d identified cert e certified room
    refine ⟨by omega, ⟨.inr (by omega), small⟩, fun _ _ _ => ⟨⟨before, ?_⟩, ?_, unlisted⟩⟩
    · exact fun present => (listed present).1
    · exact fun present => (listed present).2

end Inside

end Bounds

/-! ## The places of the keys -/

section Uskid

variable {sta : Sta} {frame : Bytes}

def ucastkeyNegResponseOf (frame : Bytes) : SessionKeyNegResponse :=
  let wieLen := (byteAt frame 107).toNat + 2
  { flag := byteAt frame 12
    bkid := fixed 16 (slice frame 13 16)
    uskid := byteAt frame 29
    addid := slice frame 30 12
    asueChallenge := fixed 32 (slice frame 42 32)
    aeChallenge := fixed 32 (slice frame 74 32)
    wieAsue := slice frame 106 wieLen
    mic := slice frame (106 + wieLen) 20 }

theorem unpackUcastkeyNegResponse_whole {res : SessionKeyNegResponse} :
    unpackUcastkeyNegResponse frame = .ok res ↔
      UcastkeyNegResponseWhole frame ∧ ucastkeyNegResponseOf frame = res := by
  simp only [unpackUcastkeyNegResponse, unpack_bind_ok, Bounds.demand_eq_ok,
    Bounds.result_eq_ok, decide_eq_true_eq, exists_and_left, exists_const,
    UcastkeyNegResponseWhole, ucastkeyNegResponseOf]
  constructor
  · rintro ⟨large, ⟨⟩, headed, whole, room, checked, same⟩
    exact ⟨⟨large, headed, whole, room, checked⟩, same⟩
  · rintro ⟨⟨large, headed, whole, room, checked⟩, same⟩
    exact ⟨large, (), headed, whole, room, checked, same⟩

theorem mem_uskIndices {index : Nat} :
    index ∈ uskIndices sta frame ↔ acceptsUskResponse sta.status = true ∧
        ∃ res, unpackUcastkeyNegResponse frame = .ok res ∧
          (res.flag &&& 0x10 ≠ 0 ∨ res.aeChallenge = sta.aeNonce) ∧ index = res.uskid.toNat := by
  unfold uskIndices
  split
  next ignored => simp [ignored]
  next waiting =>
    rw [Bool.not_eq_false] at waiting
    split
    next reason failed => simp [failed]
    next res unpacked =>
      simp only [unpacked, waiting, Except.ok.injEq, exists_eq_left', true_and, mem_append]
      by_cases update : res.flag &&& 0x10 = 0 <;> by_cases challenge : res.aeChallenge = sta.aeNonce
        <;> simp [update, challenge]

theorem uskIndices_inside : (∀ index ∈ uskIndices sta frame, index < 2) ↔ UskidFits frame sta := by
  simp only [mem_uskIndices, unpackUcastkeyNegResponse_whole, UskidFits]
  constructor
  · intro inside waiting whole used
    exact inside _ ⟨waiting, _, ⟨whole, rfl⟩, used, rfl⟩
  · rintro fits _ ⟨waiting, _, ⟨whole, rfl⟩, used, rfl⟩
    exact fits waiting whole used

end Uskid

/-- All that the four unpackers read is in the message, what they store is in its
array, and the keys that a response selects exist. -/
structure BoundsSafe (sta : Sta) (buffer : Bytes) : Prop where
  staAuthRequest : (Bounds.unpackStaAuthRequest buffer).All (Access.Inside (buffer.length % 65536))
  apAuthResponse : (Bounds.unpackApAuthResponse buffer).All (Access.Inside (buffer.length % 65536))
  ucastkeyNegResponse :
    (Bounds.unpackUcastkeyNegResponse buffer).All (Access.Inside (buffer.length % 65536))
  mskAnnouncementRes :
    (Bounds.unpackMskAnnouncementRes buffer).All (Access.Inside (buffer.length % 65536))
  uskid : ∀ index ∈ uskIndices sta buffer, index < 2

theorem boundsSafe_iff (sta : Sta) (buffer : Bytes) :
    BoundsSafe sta buffer ↔
      StaAuthRequestFits buffer ∧ ApAuthResponseFits buffer ∧ UcastkeyNegResponseFits buffer ∧
        UskidFits buffer sta := by
  rw [← Bounds.unpackStaAuthRequest_inside, ← Bounds.unpackApAuthResponse_inside,
    ← Bounds.unpackUcastkeyNegResponse_inside, ← uskIndices_inside]
  constructor
  · intro safe
    exact ⟨safe.staAuthRequest, safe.apAuthResponse, safe.ucastkeyNegResponse, safe.uskid⟩
  · rintro ⟨request, response, key, uskid⟩
    exact ⟨request, response, key, Bounds.unpackMskAnnouncementRes_inside, uskid⟩

/-- A response of 382 bytes whose information element has 256. -/
def longElement : Bytes :=
  [0, 1, 1, 9, 0, 0, 1, 126, 0, 1, 0, 0] ++ List.replicate 94 0 ++ [68, 254] ++ List.replicate 274 0

theorem longElement_overruns :
    longElement.length ≤ 3000 ∧ ¬BoundsSafe Sta.zero longElement := by
  refine ⟨by decide +kernel, fun safe => ?_⟩
  have fits := Bounds.unpackUcastkeyNegResponse_inside.mp safe.ucastkeyNegResponse
  have stored := fits (by decide +kernel) (by decide +kernel) (by decide +kernel)
  exact absurd stored (by decide)

end AthApps.Wapi
