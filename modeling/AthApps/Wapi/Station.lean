import AthApps.Lib.Sms4
import AthApps.Lib.Stream

/-!
# The station table of `wapid`

The data model of `include/auth.h` and the functions of `wai_sta.c` that find,
reset and fill the entries of a station table, in the build of the makefile
(`LSDK6` and `DOT11_WAPI_MIB`).

An entry loses its pointer `pap` only while it is `NO_AUTH`, and every function
that follows the pointer is called for another entry, so the pointer is left
out.  So are the statistics, the texts of the debug output and the type that is
kept beside a message to be sent again, which only that output reads.
-/

set_option autoImplicit false

namespace AthApps.Wapi

open Lib (Bytes)

/-- The `status` of an entry. -/
inductive Status
  | noAuth
  | waitingAccessReq
  | waitingAuthFromAs
  | waitingSession
  | waitingGrouping
  | sessionkeying
  | groupnoticeing
  | sessiongrouping
  | waitingDynamicSession
  | waitingDynamicGrouping
  | authenticated
  | preAuthOver
  deriving DecidableEq

/-- `MAX_AUTH_MT_SIMU` entries. -/
abbrev Slot := Fin 32

scoped instance neZeroTwo : NeZero 2 := ⟨by decide⟩

scoped instance neZeroSlots : NeZero 32 := ⟨by decide⟩

abbrev Mac := Vector UInt8 6

def zeros (n : Nat) : Vector UInt8 n := Vector.replicate n 0

/-- `memcpy` of bytes to an array that was zero before. -/
def fixed (n : Nat) (bytes : Bytes) : Vector UInt8 n :=
  ⟨((bytes ++ List.replicate n 0).take n).toArray, by simp⟩

theorem fixed_toList (n : Nat) (bytes : Bytes) (exact : bytes.length = n) :
    (fixed n bytes).toList = bytes := by
  simp only [fixed, Vector.toList_mk]
  rw [← exact, List.take_left]

@[simp] theorem fixed_vector (n : Nat) (bytes : Vector UInt8 n) : fixed n bytes.toList = bytes := by
  apply Vector.toList_inj.mp
  exact fixed_toList n bytes.toList bytes.length_toList

inductive Direction
  | sta
  | as
  deriving DecidableEq

/-- `resendinfo_st` -/
structure ResendInfo where
  sendTime : UInt32
  curCount : Nat
  timeout : UInt32
  direction : Direction
  maxCount : Nat

/-- `struct _sta_key` -/
structure Usk where
  uek : Vector UInt8 16
  uck : Vector UInt8 16
  kek : Vector UInt8 16
  mck : Vector UInt8 16
  validFlag : Bool
  deriving DecidableEq

def Usk.zero : Usk := ⟨zeros 16, zeros 16, zeros 16, zeros 16, false⟩

/-- `struct sta_usksa`; the code only ever stores 0 and 1 in the two indices. -/
structure Usksa where
  uskid : Fin 2
  dynamicKeyUsed : Fin 2
  usk : Fin 2 → Usk

/-- The index `uskid ^ 0x01`. -/
def other (uskid : Fin 2) : Fin 2 := 1 - uskid

@[simp] theorem other_other (uskid : Fin 2) : other (other uskid) = uskid := by
  revert uskid
  decide

@[simp] theorem other_ne (uskid : Fin 2) : other uskid ≠ uskid := by
  revert uskid
  decide

@[simp] theorem ne_other (uskid : Fin 2) : uskid ≠ other uskid :=
  (other_ne uskid).symm

def Usksa.setValid (usksa : Usksa) (uskid : Fin 2) (valid : Bool) : Usksa :=
  { usksa with usk := Function.update usksa.usk uskid { usksa.usk uskid with validFlag := valid } }

/-- `struct sta_bksa`, without the suites of the station, which nothing reads. -/
structure Bksa where
  bkid : Vector UInt8 16
  bk : Vector UInt8 16
  aeAuthFlag : Vector UInt8 32
  bkUpdate : Bool

/-- `para_alg`; `para_len` is the length of the data. -/
structure ParaAlg where
  paraFlag : UInt8
  paraData : Bytes
  deriving DecidableEq

/-- `wai_fixdata_id`; `id_len` is the length of the data. -/
structure FixdataId where
  idFlag : Nat
  idData : Bytes
  deriving DecidableEq

structure Sta where
  status : Status
  mac : Mac
  authMode : UInt8
  authResult : UInt8
  preAuthSaveTime : UInt32
  sendinfo : ResendInfo
  buf0 : Option Bytes
  buf1 : Option Bytes
  gsn : Vector UInt8 16
  asueNonce : Vector UInt8 32
  asueCertHash : Vector UInt8 32
  aeNonce : Vector UInt8 32
  wie : Vector UInt8 256
  asueKeyData : Bytes
  aeKeyData : Bytes
  ecdh : ParaAlg
  flag : UInt8
  asueId : FixdataId
  bksa : Bksa
  usksa : Usksa
  aeGroupSc : UInt16
  asueGroupSc : UInt16
  uskRekeyTimer : UInt32
  rekeying : Bool
  saTimeout : UInt32
  bkLifeTimeout : UInt32
  bkReauthTimeout : UInt32

/-- An entry after `memset`. -/
def Sta.zero : Sta where
  status := .noAuth
  mac := zeros 6
  authMode := 0
  authResult := 0
  preAuthSaveTime := 0
  sendinfo := ⟨0, 0, 0, .sta, 0⟩
  buf0 := none
  buf1 := none
  gsn := zeros 16
  asueNonce := zeros 32
  asueCertHash := zeros 32
  aeNonce := zeros 32
  wie := zeros 256
  asueKeyData := []
  aeKeyData := []
  ecdh := ⟨0, []⟩
  flag := 0
  asueId := ⟨0, []⟩
  bksa := ⟨zeros 16, zeros 16, zeros 32, false⟩
  usksa := ⟨0, 0, fun _ => Usk.zero⟩
  aeGroupSc := 0
  asueGroupSc := 0
  uskRekeyTimer := 0
  rekeying := false
  saTimeout := 0
  bkLifeTimeout := 0
  bkReauthTimeout := 0

def resetStaInfo : Sta :=
  { Sta.zero with
    usksa := (Sta.zero.usksa.setValid 0 false).setValid 1 true
    aeGroupSc := 1 }

def resetTableItem (sta : Sta) : Sta :=
  { sta with
    buf0 := none
    buf1 := none
    sendinfo := { sta.sendinfo with curCount := 0, maxCount := 0, direction := .sta } }

/-- The hash functions of `hmac.c` and the cipher of `lib/sms4`. -/
structure Crypto where
  mhashSha256 : Bytes → Vector UInt8 32
  -- key and text; the callers copy as much of the digest as they need
  hmacSha256 : Bytes → Bytes → Vector UInt8 32
  -- initial vector, data and key
  wpiEncrypt : Bytes → Bytes → Bytes → Vector UInt8 16

def Crypto.wapid : Crypto where
  mhashSha256 := Lib.Sha256.hash
  hmacSha256 := Lib.Sha256.hmac
  wpiEncrypt iv block key :=
    let stream := Lib.Sms4.crypt (Lib.Sms4.keyExt key) iv
    fixed 16 (List.zipWith (· ^^^ ·) block stream)

def Crypto.digests (crypto : Crypto) (key : Bytes) : Nat → Bytes → Bytes
  | 0, _ => []
  | blocks + 1, text =>
    let digest := (crypto.hmacSha256 key text).toList
    digest ++ crypto.digests key blocks digest

def Crypto.kdHmacSha256 (crypto : Crypto) (text key : Bytes) (outLen : Nat) : Bytes :=
  (crypto.digests key ((outLen + 31) / 32) text).take outLen

/-- The functions of the X.509 object, `cert_obj_x509`. -/
structure X509 where
  getPublicKey : Bytes → Option Bytes
  getSubject : Bytes → Option Bytes
  getIssuer : Bytes → Option Bytes
  getSerial : Bytes → Option Bytes
  -- key, data and signature
  verify : Bytes → Bytes → Bytes → Bool
  sign : Bytes → Bytes → Option Bytes
  -- public and private key out of random bytes
  genkey : Bytes → Option (Bytes × Bytes)
  -- public key of the station and private key
  dh : Bytes → Bytes → Option Bytes

/-- What `struct eloop_data`, `struct wapid_interfaces` and the configuration of
one `apdata_info` hold for the whole run. -/
structure Config where
  crypto : Crypto
  x509 : X509
  -- the descriptor `as_udp_sk` is positive
  asUdpSk : Bool
  hasCert : Bool
  usedCert : Nat
  certMode : Nat
  aeId : FixdataId
  asuCert : Bytes
  userCert : Bytes
  caCert : Bytes
  asuPublickey : Bytes
  caPubkey : Bytes
  userPrivatekey : Bytes
  macaddr : Mac
  waiPolicy : UInt8
  password : Bytes
  certificateUpdateCount : Nat
  unicastUpdateCount : Nat
  multicastUpdateCount : Nat
  bkLifetime : UInt32
  bkReauthThreshold : UInt32
  saTimeout : UInt32
  multicastRekeyStrict : Bool
  -- the rekey method is by time, or by time and packets
  unicastRekeyTimed : Bool
  multicastRekeyTimed : Bool
  uskRekeyPeriod : UInt32
  mskRekeyPeriod : UInt32
  -- the host is little endian, so `htonl` swaps
  littleEndian : Bool

/-- Bit 2 of `wai_policy`: the suite with a preshared key. -/
def Config.pskEnabled (cfg : Config) : Bool := cfg.waiPolicy &&& 0x04 != 0

/-- Bit 3 of `wai_policy`: the suite with certificates. -/
def Config.certEnabled (cfg : Config) : Bool := cfg.waiPolicy &&& 0x08 != 0

/-- `get_cert_obj`; only the X.509 object is ever registered. -/
def Config.getCertObj (cfg : Config) (index : Nat) : Option X509 :=
  if index = 1 then some cfg.x509 else none

def ascii (text : String) : Bytes := text.toList.map fun c => UInt8.ofNat c.toNat

def pskText : Bytes :=
  ascii "preshared key expansion for authentication and key negotiation"

def bkText : Bytes := ascii "base key expansion for key and additional nonce"

def uskText : Bytes :=
  ascii "pairwise key expansion for unicast and additional keys and nonce"

/-- `pap->psk.bk`: `ap_initialize` calls `ap_pskbk_derivation` only if the suite
with a preshared key is enabled, and the field is zero otherwise. -/
def Config.pskBk (cfg : Config) : Vector UInt8 16 :=
  if cfg.pskEnabled then
    fixed 16 (cfg.crypto.kdHmacSha256 pskText cfg.password 16)
  else
    zeros 16

def apGetSta (mac : Mac) (table : Slot → Sta) : Option Slot :=
  (List.finRange 32).find? fun i => (table i).status ≠ .noAuth ∧ (table i).mac = mac

/-- The loop of `ap_get_sta_pos`; `k` is the last free entry so far. -/
@[grind =] def apGetStaPosLoop (mac : Mac) (table : Slot → Sta) : List Slot → Option Slot → Option Slot
  | [], k => k
  | i :: rest, k =>
    if (table i).status = .noAuth then
      apGetStaPosLoop mac table rest (some i)
    else if (table i).mac = mac then
      some i
    else
      apGetStaPosLoop mac table rest k

def apGetStaPos (mac : Mac) (table : Slot → Sta) : Option Slot :=
  apGetStaPosLoop mac table (List.finRange 32) none

/-- The `sub_type` of a WAI message. -/
inductive SubType
  | authactive
  | staAcessRequest
  | staAccessResponse
  | apAuthRequest
  | apAuthResponse
  | uskNegRequest
  | uskNegResponse
  | uskNegConfirm
  | mskAnnounce
  | mskResponse
  deriving DecidableEq

def SubType.code : SubType → UInt8
  | .authactive => 0x03
  | .staAcessRequest => 0x04
  | .staAccessResponse => 0x05
  | .apAuthRequest => 0x06
  | .apAuthResponse => 0x07
  | .uskNegRequest => 0x08
  | .uskNegResponse => 0x09
  | .uskNegConfirm => 0x0A
  | .mskAnnounce => 0x0B
  | .mskResponse => 0x0C

/-- `MAX_RESEND_COUNT`, or what the configuration says for the message. -/
def Config.maxCount (cfg : Config) : SubType → Nat
  | .authactive | .apAuthRequest | .staAccessResponse => cfg.certificateUpdateCount
  | .uskNegRequest | .uskNegConfirm => cfg.unicastUpdateCount
  | .mskAnnounce => cfg.multicastUpdateCount
  | _ => 3

/-- The two buffers of an entry, selected by the argument `flag`. -/
inductive Buffer
  | buf0
  | buf1
  deriving DecidableEq

def setTableItem (cfg : Config) (now : UInt32) (sta : Sta) (direction : Direction)
    (buffer : Buffer) (frame : Bytes) (subtype : SubType) : Sta :=
  -- a confirmation is not repeated, it only ends the request
  if subtype = .uskNegConfirm then
    { sta with buf1 := none }
  else
    let sta := { sta with sendinfo := ⟨now, 1, 1, direction, cfg.maxCount subtype⟩ }
    match buffer with
    | .buf0 => { sta with buf0 := some frame }
    | .buf1 => { sta with buf1 := some frame }

section SetTableItem

variable (cfg : Config) (now : UInt32) (sta : Sta) (direction : Direction) (buffer : Buffer)
  (frame : Bytes) (subtype : SubType)

theorem setTableItem_eq : ∃ sendinfo buf0 buf1,
    setTableItem cfg now sta direction buffer frame subtype =
      { sta with sendinfo := sendinfo, buf0 := buf0, buf1 := buf1 } := by
  unfold setTableItem
  split
  · exact ⟨sta.sendinfo, sta.buf0, none, rfl⟩
  · cases buffer with
    | buf0 => exact ⟨_, some frame, sta.buf1, rfl⟩
    | buf1 => exact ⟨_, sta.buf0, some frame, rfl⟩

variable {α : Type} (field : Sta → α)

theorem setTableItem_field (blind : ∀ sta sendinfo buf0 buf1,
      field { sta with sendinfo := sendinfo, buf0 := buf0, buf1 := buf1 } = field sta) :
    field (setTableItem cfg now sta direction buffer frame subtype) = field sta := by
  obtain ⟨sendinfo, buf0, buf1, result⟩ :=
    setTableItem_eq cfg now sta direction buffer frame subtype
  rw [result]
  exact blind sta sendinfo buf0 buf1

@[simp] theorem setTableItem_status :
    (setTableItem cfg now sta direction buffer frame subtype).status = sta.status :=
  setTableItem_field cfg now sta direction buffer frame subtype Sta.status fun _ _ _ _ => rfl

@[simp] theorem setTableItem_mac :
    (setTableItem cfg now sta direction buffer frame subtype).mac = sta.mac :=
  setTableItem_field cfg now sta direction buffer frame subtype Sta.mac fun _ _ _ _ => rfl

@[simp] theorem setTableItem_authMode :
    (setTableItem cfg now sta direction buffer frame subtype).authMode = sta.authMode :=
  setTableItem_field cfg now sta direction buffer frame subtype Sta.authMode fun _ _ _ _ => rfl

@[simp] theorem setTableItem_bksa :
    (setTableItem cfg now sta direction buffer frame subtype).bksa = sta.bksa :=
  setTableItem_field cfg now sta direction buffer frame subtype Sta.bksa fun _ _ _ _ => rfl

@[simp] theorem setTableItem_usksa :
    (setTableItem cfg now sta direction buffer frame subtype).usksa = sta.usksa :=
  setTableItem_field cfg now sta direction buffer frame subtype Sta.usksa fun _ _ _ _ => rfl

@[simp] theorem setTableItem_aeNonce :
    (setTableItem cfg now sta direction buffer frame subtype).aeNonce = sta.aeNonce :=
  setTableItem_field cfg now sta direction buffer frame subtype Sta.aeNonce fun _ _ _ _ => rfl

@[simp] theorem setTableItem_asueNonce :
    (setTableItem cfg now sta direction buffer frame subtype).asueNonce = sta.asueNonce :=
  setTableItem_field cfg now sta direction buffer frame subtype Sta.asueNonce fun _ _ _ _ => rfl

@[simp] theorem setTableItem_flag :
    (setTableItem cfg now sta direction buffer frame subtype).flag = sta.flag :=
  setTableItem_field cfg now sta direction buffer frame subtype Sta.flag fun _ _ _ _ => rfl

end SetTableItem

end AthApps.Wapi
