import AthApps.Wapi.Station

/-!
# WAI messages

`pack.c`: the messages that `wapid` sends, and the unpackers of those it
receives.  An unpacker returns `PACK_ERROR`, or it copies more bytes to an array
than the array holds; from there on the program has no meaning, and the
unpackers of the model stop with `overrun`.

The offsets are 16-bit numbers in the source.  They never exceed the length of
the message, which is one too, so they do not wrap around.
-/

set_option autoImplicit false

namespace AthApps.Wapi

open AthApps.Lib
open List hiding Vector

def byteAt (buffer : Bytes) (offset : Nat) : UInt8 := buffer.getD offset 0

def readWord (buffer : Bytes) (offset : Nat) : Nat :=
  (byteAt buffer offset).toNat * 256 + (byteAt buffer (offset + 1)).toNat

def readDword (buffer : Bytes) (offset : Nat) : UInt32 :=
  UInt32.ofNat (readWord buffer offset * 65536 + readWord buffer (offset + 2))

def word (value : Nat) : Bytes := Sha256.bigEndian value 2

def dword (value : UInt32) : Bytes := Sha256.bigEndian value.toNat 4

def getPacketSubType (buffer : Bytes) : UInt8 := byteAt buffer 3

def getPacketGroupSc (buffer : Bytes) : Nat := readWord buffer 8

def htonlBuffer (littleEndian : Bool) : Bytes → Bytes
  | b0 :: b1 :: b2 :: b3 :: rest =>
    (if littleEndian then [b3, b2, b1, b0] else [b0, b1, b2, b3]) ++
      htonlBuffer littleEndian rest
  | bytes => bytes

variable {buffer rest : Bytes} {offset : Nat}

variable {front bytes : Bytes}

theorem byteAt_append_left (rest : Bytes) (inside : offset < front.length) :
    byteAt (front ++ rest) offset = byteAt front offset := by
  simp [byteAt, getElem?_append_left inside]

theorem readWord_append_left (rest : Bytes) (inside : offset + 1 < front.length) :
    readWord (front ++ rest) offset = readWord front offset := by
  simp only [readWord, byteAt_append_left rest inside,
    byteAt_append_left rest (Nat.lt_of_succ_lt inside)]

theorem word_length (value : Nat) : (word value).length = 2 := Sha256.bigEndian_length value 2

variable {value extent index : Nat}

theorem readWord_word (small : value < 65536) : readWord (word value) 0 = value := by
  simp only [readWord, word, Sha256.bigEndian, byteAt, getD_cons_zero, getD_cons_succ,
    UInt8.toNat_ofNat', Nat.shiftRight_eq_div_pow]
  omega

theorem byteAt_slice {offset : Nat} (inside : index < (slice bytes offset extent).length) :
    byteAt (slice bytes offset extent) index = byteAt bytes (offset + index) := by
  have bound : index < extent := by
    rw [slice_length] at inside
    omega
  simp only [byteAt, getD_eq_getElem?_getD, slice_getElem? _ _ _ _ bound]

theorem readWord_slice {offset : Nat} (inside : index + 1 < (slice bytes offset extent).length) :
    readWord (slice bytes offset extent) index = readWord bytes (offset + index) := by
  simp only [readWord]
  rw [byteAt_slice (by omega), byteAt_slice inside, Nat.add_assoc]

theorem byteAt_of_drop {value : UInt8}
    (found : buffer.drop offset = value :: rest) : byteAt buffer offset = value := by
  have first : buffer[offset]? = some value := by
    rw [← head?_drop, found]
    rfl
  simp [byteAt, first]

theorem readWord_of_drop {offset : Nat} (found : buffer.drop offset = word value ++ rest)
    (small : value < 65536) : readWord buffer offset = value := by
  have high : byteAt buffer offset = byteAt (word value) 0 := by
    rw [byteAt_of_drop found]
    rfl
  have low : byteAt buffer (offset + 1) = byteAt (word value) 1 := by
    apply byteAt_of_drop
    rw [← drop_drop, found]
    rfl
  rw [readWord, high, low]
  exact readWord_word small

theorem drop_next {buffer piece rest : Bytes} {offset : Nat}
    (found : buffer.drop offset = piece ++ rest) {next : Nat} (there : next = offset + piece.length) :
    buffer.drop next = rest := by
  rw [there, ← drop_drop, found, drop_left]

theorem slice_of_drop {buffer piece rest : Bytes} (found : buffer.drop offset = piece ++ rest)
    (exactly : extent = piece.length) : slice buffer offset extent = piece := by
  rw [slice, found, exactly, take_left]

theorem drop_length (found : buffer.drop offset = rest)
    (some : rest ≠ []) : offset + rest.length = buffer.length := by
  have counted := congrArg List.length found
  rw [length_drop] at counted
  have positive : 0 < rest.length := length_pos_of_ne_nil some
  omega

def headLen : Nat := 12

/-- `c_pack_packet_head` and `set_packet_data_len`: version 1, type WAI. -/
def packHead (subType : SubType) (dataLen groupSc : Nat) : Bytes :=
  word 1 ++ [1, subType.code] ++ word 0 ++ word dataLen ++ word groupSc ++ [0, 0]

theorem packHead_length (subType : SubType) (dataLen groupSc : Nat) :
    (packHead subType dataLen groupSc).length = headLen := by
  simp [packHead, word_length, headLen]

def packMessage (subType : SubType) (groupSc : Nat) (body : Bytes) : Bytes :=
  packHead subType (headLen + body.length) groupSc ++ body

/-- A `wai_fixdata_id` or a certificate: kind, length and data. -/
def packFixdata (kind : Nat) (data : Bytes) : Bytes :=
  word kind ++ word data.length ++ data

def packByteData (data : Bytes) : Bytes := UInt8.ofNat data.length :: data

/-- The parameter of the curve, set by `wai_initialize_ecdh` and `ap_initialize_alg`. -/
def curveOid : Bytes :=
  [0x06, 0x09, 0x2A, 0x81, 0x1C, 0xD7, 0x63, 0x01, 0x01, 0x02, 0x01]

def standardEcdh : ParaAlg := ⟨1, curveOid⟩

def packParaAlg (para : ParaAlg) : Bytes :=
  para.paraFlag :: word para.paraData.length ++ para.paraData

def packSignAlg : Bytes := word 16 ++ [1, 1] ++ packParaAlg standardEcdh

inductive Fault
  | packError
  | overrun
  deriving DecidableEq

def demand (holds : Bool) (fault : Fault) : Except Fault Unit :=
  if holds then .ok () else .error fault

theorem unpack_bind_ok {α β : Type} {first : Except Fault α} {rest : α → Except Fault β}
    {result : β} :
    (first >>= rest) = .ok result ↔ ∃ value, first = .ok value ∧ rest value = .ok result := by
  cases first with
  | error fault => simp [bind, Except.bind]
  | ok value => simp [bind, Except.bind]

/-- `unpack_head` accepts the version 1 and a length field that tells the truth;
all callers made sure that there is a head. -/
def unpackHead (buffer : Bytes) (bufflen : Nat) : Except Fault Unit := do
  demand (readWord buffer 0 == 1) .packError
  demand (readWord buffer 6 == bufflen) .packError

/-- `wai_fixdata_cert` -/
structure FixdataCert where
  certFlag : Nat
  certBin : Bytes
  deriving DecidableEq

def unpackFixdataCert (buffer : Bytes) (offset bufflen : Nat) :
    Except Fault (FixdataCert × Nat) := do
  demand (offset + 4 < bufflen) .packError
  let length := readWord buffer (offset + 2)
  demand (offset + 4 + length ≤ bufflen) .packError
  return (⟨readWord buffer offset, slice buffer (offset + 4) length⟩, offset + 4 + length)

/-- `unpack_wai_fixdata_id`; `id_data` has `MAX_ID_DATA_LEN` bytes. -/
def unpackFixdataId (buffer : Bytes) (offset bufflen : Nat) :
    Except Fault (FixdataId × Nat) := do
  demand (offset + 2 ≤ bufflen) .packError
  demand (offset + 4 ≤ bufflen) .packError
  let length := readWord buffer (offset + 2)
  demand (offset + 4 + length ≤ bufflen) .packError
  demand (length ≤ 1000) .overrun
  return (⟨readWord buffer offset, slice buffer (offset + 4) length⟩, offset + 4 + length)

/-- `wai_fixdata_alg` -/
structure FixdataAlg where
  algLength : Nat
  sha256Flag : UInt8
  signAlg : UInt8
  signPara : ParaAlg

/-- `c_unpack_sign_alg`; `para_data` has `MAX_PARA_LEN` bytes. -/
def unpackSignAlg (buffer : Bytes) (offset bufflen : Nat) :
    Except Fault (FixdataAlg × Nat) := do
  demand (offset + 7 ≤ bufflen) .packError
  let length := readWord buffer (offset + 5)
  demand (offset + 7 + length ≤ bufflen) .packError
  demand (length ≤ 20) .overrun
  return (⟨readWord buffer offset, byteAt buffer (offset + 2), byteAt buffer (offset + 3),
    ⟨byteAt buffer (offset + 4), slice buffer (offset + 7) length⟩⟩, offset + 7 + length)

/-- `c_unpack_comm_data`; it compares with `COMM_DATA_LEN`, but `data` has
`MAX_BYTE_DATA_LEN` bytes. -/
def unpackCommData (buffer : Bytes) (offset bufflen : Nat) :
    Except Fault (Bytes × Nat) := do
  demand (offset + 2 ≤ bufflen) .packError
  let length := readWord buffer offset
  demand (offset + 2 + length ≤ bufflen ∧ length ≤ 3000 ∧ length ≠ 0) .packError
  demand (length ≤ 256) .overrun
  return (slice buffer (offset + 2) length, offset + 2 + length)

def unpackByteData (buffer : Bytes) (offset bufflen : Nat) :
    Except Fault (Bytes × Nat) := do
  demand (offset + 1 ≤ bufflen) .packError
  let length := (byteAt buffer offset).toNat
  demand (offset + 1 + length ≤ bufflen ∧ length ≠ 0) .packError
  return (slice buffer (offset + 1) length, offset + 1 + length)

/-- `wai_attridata_auth_payload` -/
structure AuthPayload where
  id : FixdataId
  alg : FixdataAlg
  signData : Bytes

def unpackAuthPayload (buffer : Bytes) (offset bufflen : Nat) :
    Except Fault (AuthPayload × Nat) := do
  demand (offset + 1 ≤ bufflen) .packError
  demand (byteAt buffer offset == 1) .packError
  demand (offset + 3 ≤ bufflen) .packError
  let length := readWord buffer (offset + 1)
  let (id, offset) ← unpackFixdataId buffer (offset + 3) bufflen
  let (alg, offset) ← unpackSignAlg buffer offset bufflen
  let (signData, offset) ← unpackCommData buffer offset bufflen
  demand (length == 4 + id.idData.length + 2 + alg.algLength + 2 + signData.length) .packError
  return (⟨id, alg, signData⟩, offset)

/-- `wai_attridata_auth_result` -/
structure AuthResult where
  aeChallenge : Vector UInt8 32
  asueChallenge : Vector UInt8 32
  authResult1 : UInt8
  cert1 : FixdataCert
  authResult2 : UInt8
  cert2 : FixdataCert

/-- `unpack_wai_attridata_cert_check_result`; the error of the second certificate
is returned after the comparison of lengths, which changes nothing. -/
def unpackCertCheckResult (buffer : Bytes) (offset bufflen : Nat) :
    Except Fault (AuthResult × Nat) := do
  demand (offset + 3 ≤ bufflen) .packError
  let length := readWord buffer (offset + 1)
  demand (offset + 3 + length ≤ bufflen) .packError
  demand (offset + 3 + 32 + 32 + 1 ≤ bufflen) .packError
  let aeChallenge := fixed 32 (slice buffer (offset + 3) 32)
  let asueChallenge := fixed 32 (slice buffer (offset + 35) 32)
  let authResult1 := byteAt buffer (offset + 67)
  let (cert1, offset) ← unpackFixdataCert buffer (offset + 68) bufflen
  demand (offset + 1 ≤ bufflen) .packError
  let authResult2 := byteAt buffer offset
  let (cert2, offset) ← unpackFixdataCert buffer (offset + 1) bufflen
  demand (length == 32 + 32 + 1 + 4 + cert1.certBin.length + 1 + 4 + cert2.certBin.length)
    .packError
  return (⟨aeChallenge, asueChallenge, authResult1, cert1, authResult2, cert2⟩, offset)

def certifIssuerUnknown : UInt8 := 1

/-- `ap_auth_response`, with the offset `no_signdata_len1` of the signature that the
access point trusts. -/
structure ApAuthResponse where
  mac1 : Mac
  mac2 : Mac
  certResult : AuthResult
  aeTrustAsuSign : AuthPayload
  aeSignOffset : Nat

def unpackApAuthResponse (buffer : Bytes) : Except Fault ApAuthResponse := do
  let bufflen := buffer.length % 65536
  demand (headLen + 12 ≤ bufflen) .packError
  unpackHead buffer bufflen
  let mac1 := fixed 6 (slice buffer 12 6)
  let mac2 := fixed 6 (slice buffer 18 6)
  let (certResult, offset) ← unpackCertCheckResult buffer 24 bufflen
  demand (offset + 2 ≤ bufflen) .packError
  -- a second signature is recognised by what the first leaves of the message
  let taken := offset + 3 + readWord buffer (offset + 1)
  demand (certResult.authResult1 ≠ certifIssuerUnknown ∨ taken = bufflen) .packError
  if taken < bufflen then
    let (_, offset) ← unpackAuthPayload buffer offset bufflen
    let (sign, _) ← unpackAuthPayload buffer offset bufflen
    return ⟨mac1, mac2, certResult, sign, offset⟩
  else if taken = bufflen then
    let (sign, _) ← unpackAuthPayload buffer offset bufflen
    return ⟨mac1, mac2, certResult, sign, offset⟩
  else
    .error .packError

/-- The identities of `wai_attridata_id_list`; `id` has `MAX_ID_NO` places, of which
`free` are left. -/
def unpackIds (buffer : Bytes) (bufflen : Nat) :
    Nat → Nat → Nat → Except Fault (List FixdataId × Nat)
  | 0, _, offset => .ok ([], offset)
  | _ + 1, 0, offset => do
      demand (offset + 2 ≤ bufflen) .packError
      .error .overrun
  | count + 1, free + 1, offset => do
      let (id, offset) ← unpackFixdataId buffer offset bufflen
      let (ids, offset) ← unpackIds buffer bufflen count free offset
      return (id :: ids, offset)

/-- `wai_attridata_id_list` -/
structure IdList where
  length : Nat
  rev : UInt8
  ids : List FixdataId

def unpackIdList (buffer : Bytes) (offset bufflen : Nat) : Except Fault (IdList × Nat) := do
  demand (offset + 6 ≤ bufflen) .packError
  let (ids, next) ← unpackIds buffer bufflen (readWord buffer (offset + 4)) 10 (offset + 6)
  return (⟨readWord buffer (offset + 1), byteAt buffer (offset + 3), ids⟩, next)

/-- `sta_auth_request`, with the offset `no_signdata_len` of the signature. -/
structure StaAuthRequest where
  flag : UInt8
  aeAuthFlag : Vector UInt8 32
  asueChallenge : Vector UInt8 32
  keyData : Bytes
  aeId : FixdataId
  asueCert : FixdataCert
  ecdh : ParaAlg
  asuIdList : Option IdList
  asueSign : AuthPayload
  signOffset : Nat

/-- `unpack_sta_auth_request`; `para_data` has `MAX_PARA_LEN` bytes, and its length is
not compared with the end of the message. -/
def unpackStaAuthRequest (buffer : Bytes) : Except Fault StaAuthRequest := do
  let bufflen := buffer.length % 65536
  demand (headLen + 1 + 32 + 32 < bufflen) .packError
  unpackHead buffer bufflen
  let flag := byteAt buffer 12
  let aeAuthFlag := fixed 32 (slice buffer 13 32)
  let asueChallenge := fixed 32 (slice buffer 45 32)
  let (keyData, offset) ← unpackByteData buffer 77 bufflen
  let (aeId, offset) ← unpackFixdataId buffer offset bufflen
  let (asueCert, offset) ← unpackFixdataCert buffer offset bufflen
  demand (offset + 3 ≤ bufflen) .packError
  let paraLen := readWord buffer (offset + 1)
  demand (paraLen ≤ 20) .overrun
  let ecdh : ParaAlg := ⟨byteAt buffer offset, slice buffer (offset + 3) paraLen⟩
  let offset := offset + 3 + paraLen
  let (asuIdList, offset) ←
    if byteAt buffer offset == 3 && flag &&& 0x08 != 0 then do
      let (list, offset) ← unpackIdList buffer offset bufflen
      pure (some list, offset)
    else
      pure (none, offset)
  let (asueSign, _) ← unpackAuthPayload buffer offset bufflen
  return ⟨flag, aeAuthFlag, asueChallenge, keyData, aeId, asueCert, ecdh, asuIdList, asueSign,
    offset⟩

structure SessionKeyNegResponse where
  flag : UInt8
  bkid : Vector UInt8 16
  uskid : UInt8
  addid : Bytes
  asueChallenge : Vector UInt8 32
  aeChallenge : Vector UInt8 32
  wieAsue : Bytes
  mic : Bytes

def unpackUcastkeyNegResponse (buffer : Bytes) : Except Fault SessionKeyNegResponse := do
  let bufflen := buffer.length % 65536
  demand (headLen + 1 + 16 + 1 + 12 + 32 + 32 + 2 < bufflen) .packError
  unpackHead buffer bufflen
  let wieLen := (byteAt buffer 107).toNat + 2
  demand (106 + wieLen ≤ bufflen) .packError
  demand (wieLen ≤ 255) .overrun
  demand (106 + wieLen + 20 ≤ bufflen) .packError
  return {
    flag := byteAt buffer 12
    bkid := fixed 16 (slice buffer 13 16)
    uskid := byteAt buffer 29
    addid := slice buffer 30 12
    asueChallenge := fixed 32 (slice buffer 42 32)
    aeChallenge := fixed 32 (slice buffer 74 32)
    wieAsue := slice buffer 106 wieLen
    mic := slice buffer (106 + wieLen) 20 }

structure GroupkeyNoticeResponse where
  flag : UInt8
  noticeKeyid : UInt8
  uskid : UInt8
  mac1 : Mac
  mac2 : Mac
  gNonce : List UInt32
  mic : Bytes

def unpackMskAnnouncementRes (buffer : Bytes) : Except Fault GroupkeyNoticeResponse := do
  let bufflen := buffer.length % 65536
  demand (headLen + 1 + 1 + 1 + 12 + 16 + 20 ≤ bufflen) .packError
  unpackHead buffer bufflen
  return {
    flag := byteAt buffer 12
    noticeKeyid := byteAt buffer 13
    uskid := byteAt buffer 14
    mac1 := fixed 6 (slice buffer 15 6)
    mac2 := fixed 6 (slice buffer 21 6)
    gNonce := [27, 31, 35, 39].map (readDword buffer)
    mic := slice buffer 43 20 }

end AthApps.Wapi
