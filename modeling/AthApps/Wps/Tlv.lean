import AthApps.Lib.Stream

/-!
# WPS attributes

`common/wps_parser.c`: the table of known attributes, the parser and the writer
of attribute lists, and the functions that get, set and remove single values.

Types and lengths are the 16-bit numbers of the wire format.  The C code keeps
the number of attributes in a byte, so the 256th attribute empties the list.
`bigEndian` is the byte order of the machine; it matters where the source
reads a number through a pointer of another width.
-/

set_option autoImplicit false

namespace AthApps.Wps

open Lib (Bytes)

inductive LenType
  | fix
  | max
  | min
  deriving DecidableEq

inductive ValType
  | bool
  | u8
  | u16
  | u32
  | ptr
  deriving DecidableEq

structure TlvSet where
  type : Nat
  length : Nat
  lengthType : LenType
  valueType : ValType

inductive Value
  | bool (value : UInt8)
  | u8 (value : UInt8)
  | u16 (value : UInt16)
  | u32 (value : UInt32)
  | ptr (value : Bytes)
  deriving DecidableEq

structure Tlv where
  type : Nat
  length : Nat
  value : Value
  deriving DecidableEq

/-- `struct wps_data`: the attributes in order. -/
abbrev WpsData := List Tlv

namespace WpsType

def apChannel : Nat := 0x1001
def assocState : Nat := 0x1002
def authType : Nat := 0x1003
def authTypeFlags : Nat := 0x1004
def authenticator : Nat := 0x1005
def configMethods : Nat := 0x1008
def configError : Nat := 0x1009
def confUrl4 : Nat := 0x100A
def confUrl6 : Nat := 0x100B
def connType : Nat := 0x100C
def connTypeFlags : Nat := 0x100D
def credential : Nat := 0x100E
def deviceName : Nat := 0x1011
def devicePwdId : Nat := 0x1012
def eHash1 : Nat := 0x1014
def eHash2 : Nat := 0x1015
def eSnonce1 : Nat := 0x1016
def eSnonce2 : Nat := 0x1017
def encrSettings : Nat := 0x1018
def encrType : Nat := 0x100F
def encrTypeFlags : Nat := 0x1010
def enrolleeNonce : Nat := 0x101A
def featureId : Nat := 0x101B
def identity : Nat := 0x101C
def identityProof : Nat := 0x101D
def keyWrapAuth : Nat := 0x101E
def keyIdentifier : Nat := 0x101F
def macAddr : Nat := 0x1020
def manufacturer : Nat := 0x1021
def msgType : Nat := 0x1022
def modelName : Nat := 0x1023
def modelNumber : Nat := 0x1024
def nwIndex : Nat := 0x1026
def nwKey : Nat := 0x1027
def nwKeyIndex : Nat := 0x1028
def newDeviceName : Nat := 0x1029
def newPwd : Nat := 0x102A
def oobDevPwd : Nat := 0x102C
def osVersion : Nat := 0x102D
def powerLevel : Nat := 0x102F
def pskCurrent : Nat := 0x1030
def pskMax : Nat := 0x1031
def publicKey : Nat := 0x1032
def radioEnabled : Nat := 0x1033
def reboot : Nat := 0x1034
def registrarCurrent : Nat := 0x1035
def registrarEstblshd : Nat := 0x1036
def registrarList : Nat := 0x1037
def registrarMax : Nat := 0x1038
def registrarNonce : Nat := 0x1039
def reqType : Nat := 0x103A
def respType : Nat := 0x103B
def rfBands : Nat := 0x103C
def rHash1 : Nat := 0x103D
def rHash2 : Nat := 0x103E
def rSnonce1 : Nat := 0x103F
def rSnonce2 : Nat := 0x1040
def selRegistrar : Nat := 0x1041
def serialNum : Nat := 0x1042
def wpsstate : Nat := 0x1044
def ssid : Nat := 0x1045
def totNetworks : Nat := 0x1046
def uuidE : Nat := 0x1047
def uuidR : Nat := 0x1048
def vendorExt : Nat := 0x1049
def version : Nat := 0x104A
def x509CertReq : Nat := 0x104B
def x509Cert : Nat := 0x104C
def eapIdentity : Nat := 0x104D
def msgCounter : Nat := 0x104E
def pubkeyHash : Nat := 0x104F
def rekeyKey : Nat := 0x1050
def keyLifetime : Nat := 0x1051
def permCfgMethods : Nat := 0x1052
def selRegCfgMethods : Nat := 0x1053
def primDevType : Nat := 0x1054
def secDevTypeList : Nat := 0x1055
def portableDevice : Nat := 0x1056
def apSetupLocked : Nat := 0x1057
def appExt : Nat := 0x1058
def eapType : Nat := 0x1059
def initVector : Nat := 0x1060
def keyProvidedAuto : Nat := 0x1061
def ieee8021xEnabled : Nat := 0x1062
def appSessKey : Nat := 0x1063
def wepTxKey : Nat := 0x1064

end WpsType

def wpsTlvSets : List TlvSet :=
  [⟨WpsType.apChannel, 2, .fix, .u16⟩, ⟨WpsType.assocState, 2, .fix, .u16⟩,
    ⟨WpsType.authType, 2, .fix, .u16⟩,
    ⟨WpsType.authTypeFlags, 2, .fix, .u16⟩,
    ⟨WpsType.authenticator, 8, .fix, .ptr⟩,
    ⟨WpsType.configMethods, 2, .fix, .u16⟩,
    ⟨WpsType.configError, 2, .fix, .u16⟩,
    ⟨WpsType.confUrl4, 64, .max, .ptr⟩,
    ⟨WpsType.confUrl6, 76, .max, .ptr⟩,
    ⟨WpsType.connType, 1, .fix, .u8⟩,
    ⟨WpsType.connTypeFlags, 1, .fix, .u8⟩,
    ⟨WpsType.credential, 0xFFFF, .max, .ptr⟩,
    ⟨WpsType.deviceName, 32, .max, .ptr⟩,
    ⟨WpsType.devicePwdId, 2, .fix, .u16⟩,
    ⟨WpsType.eHash1, 32, .fix, .ptr⟩,
    ⟨WpsType.eHash2, 32, .fix, .ptr⟩,
    ⟨WpsType.eSnonce1, 16, .fix, .ptr⟩,
    ⟨WpsType.eSnonce2, 16, .fix, .ptr⟩,
    ⟨WpsType.encrSettings, 0xFFFF, .max, .ptr⟩,
    ⟨WpsType.encrType, 2, .fix, .u16⟩,
    ⟨WpsType.encrTypeFlags, 2, .fix, .u16⟩,
    ⟨WpsType.enrolleeNonce, 16, .fix, .ptr⟩,
    ⟨WpsType.featureId, 4, .fix, .u32⟩,
    ⟨WpsType.identity, 80, .max, .ptr⟩,
    ⟨WpsType.identityProof, 0xFFFF, .max, .ptr⟩,
    ⟨WpsType.keyWrapAuth, 8, .fix, .ptr⟩,
    ⟨WpsType.keyIdentifier, 16, .fix, .ptr⟩,
    ⟨WpsType.macAddr, 6, .fix, .ptr⟩,
    ⟨WpsType.manufacturer, 64, .max, .ptr⟩,
    ⟨WpsType.msgType, 1, .fix, .u8⟩,
    ⟨WpsType.modelName, 32, .max, .ptr⟩,
    ⟨WpsType.modelNumber, 32, .max, .ptr⟩,
    ⟨WpsType.nwIndex, 1, .fix, .u8⟩,
    ⟨WpsType.nwKey, 64, .max, .ptr⟩,
    ⟨WpsType.nwKeyIndex, 1, .fix, .u8⟩,
    ⟨WpsType.newDeviceName, 32, .max, .ptr⟩,
    ⟨WpsType.newPwd, 64, .max, .ptr⟩,
    ⟨WpsType.oobDevPwd, 58, .max, .ptr⟩,
    ⟨WpsType.osVersion, 4, .fix, .u32⟩,
    ⟨WpsType.powerLevel, 1, .fix, .u8⟩,
    ⟨WpsType.pskCurrent, 1, .fix, .u8⟩,
    ⟨WpsType.pskMax, 1, .fix, .u8⟩,
    ⟨WpsType.publicKey, 192, .fix, .ptr⟩,
    ⟨WpsType.radioEnabled, 1, .fix, .bool⟩,
    ⟨WpsType.reboot, 1, .fix, .bool⟩,
    ⟨WpsType.registrarCurrent, 1, .fix, .u8⟩,
    ⟨WpsType.registrarEstblshd, 1, .fix, .bool⟩,
    ⟨WpsType.registrarList, 512, .max, .ptr⟩,
    ⟨WpsType.registrarMax, 1, .fix, .u8⟩,
    ⟨WpsType.registrarNonce, 16, .fix, .ptr⟩,
    ⟨WpsType.reqType, 1, .fix, .u8⟩,
    ⟨WpsType.respType, 1, .fix, .u8⟩,
    ⟨WpsType.rfBands, 1, .fix, .u8⟩,
    ⟨WpsType.rHash1, 32, .fix, .ptr⟩,
    ⟨WpsType.rHash2, 32, .fix, .ptr⟩,
    ⟨WpsType.rSnonce1, 16, .fix, .ptr⟩,
    ⟨WpsType.rSnonce2, 16, .fix, .ptr⟩,
    ⟨WpsType.selRegistrar, 1, .fix, .bool⟩,
    ⟨WpsType.serialNum, 32, .max, .ptr⟩,
    ⟨WpsType.wpsstate, 1, .fix, .u8⟩,
    ⟨WpsType.ssid, 32, .max, .ptr⟩,
    ⟨WpsType.totNetworks, 1, .fix, .u8⟩,
    ⟨WpsType.uuidE, 16, .fix, .ptr⟩,
    ⟨WpsType.uuidR, 16, .fix, .ptr⟩,
    ⟨WpsType.vendorExt, 1024, .max, .ptr⟩,
    ⟨WpsType.version, 1, .fix, .u8⟩,
    ⟨WpsType.x509CertReq, 0xFFFF, .max, .ptr⟩,
    ⟨WpsType.x509Cert, 0xFFFF, .max, .ptr⟩,
    ⟨WpsType.eapIdentity, 64, .max, .ptr⟩,
    ⟨WpsType.msgCounter, 8, .fix, .ptr⟩,
    ⟨WpsType.pubkeyHash, 20, .fix, .ptr⟩,
    ⟨WpsType.rekeyKey, 32, .fix, .ptr⟩,
    ⟨WpsType.keyLifetime, 4, .fix, .u32⟩,
    ⟨WpsType.permCfgMethods, 2, .fix, .u16⟩,
    ⟨WpsType.selRegCfgMethods, 2, .fix, .u16⟩,
    ⟨WpsType.primDevType, 8, .fix, .ptr⟩,
    ⟨WpsType.secDevTypeList, 128, .max, .ptr⟩,
    ⟨WpsType.portableDevice, 1, .fix, .bool⟩,
    ⟨WpsType.apSetupLocked, 1, .fix, .bool⟩,
    ⟨WpsType.appExt, 512, .max, .ptr⟩,
    ⟨WpsType.eapType, 8, .max, .ptr⟩,
    ⟨WpsType.initVector, 32, .fix, .ptr⟩,
    ⟨WpsType.keyProvidedAuto, 1, .fix, .bool⟩,
    ⟨WpsType.ieee8021xEnabled, 1, .fix, .bool⟩,
    ⟨WpsType.appSessKey, 128, .max, .ptr⟩,
    ⟨WpsType.wepTxKey, 1, .fix, .bool⟩]

def be16 (high low : UInt8) : Nat := high.toNat * 256 + low.toNat

def putBe16 (value : Nat) : Bytes := [UInt8.ofNat (value / 256), UInt8.ofNat value]

def putBe32 (value : Nat) : Bytes := putBe16 (value / 65536) ++ putBe16 value

variable (bigEndian : Bool) (wps : WpsData) (type : Nat)

def host16 (first second : UInt8) : Nat :=
  if bigEndian then be16 first second else be16 second first

def wpsGetTlvSet : Option TlvSet := wpsTlvSets.find? (·.type == type)

def TlvSet.admits (set : TlvSet) (length : Nat) : Bool :=
  match set.lengthType with
  | .fix => length == set.length
  | .max => length ≤ set.length
  | .min => length < set.length

def wpsMatchTlv (type length : Nat) : Option TlvSet :=
  wpsTlvSets.find? fun set => set.type == type && set.admits length

def readValue (valueType : ValType) (length : Nat) (bytes : Bytes) : Option Value :=
  match valueType, length, bytes with
  | .bool, 1, b0 :: _ => some (.bool b0)
  | .u8, 1, b0 :: _ => some (.u8 b0)
  | .u16, 2, b0 :: b1 :: _ => some (.u16 (UInt16.ofNat (be16 b0 b1)))
  | .u32, 4, b0 :: b1 :: b2 :: b3 :: _ =>
    some (.u32 (UInt32.ofNat (be16 b0 b1 * 65536 + be16 b2 b3)))
  | .ptr, length, bytes => some (.ptr (bytes.take length))
  | _, _, _ => none

def wpsGetTlv (buf : Bytes) : Option Tlv :=
  match buf with
  | t0 :: t1 :: l0 :: l1 :: rest =>
    let type := be16 t0 t1
    let length := be16 l0 l1
    if rest = [] then
      none
    else
      match wpsMatchTlv type length with
      | none => none
      | some set =>
        if rest.length < length then
          none
        else
          (readValue set.valueType length rest).map fun value => ⟨type, length, value⟩
  | _ => none

/-- `wps_add_tlv`: with the 256th attribute the count is `0` again. -/
def wpsAddTlv (tlv : Tlv) : Option WpsData :=
  match wpsMatchTlv tlv.type tlv.length with
  | none => none
  | some _ => some (if wps.length = 255 then [] else wps ++ [tlv])

/-- The loop of `wps_parse_wps_data`; every round takes at least four bytes. -/
def parseTlvs : Nat → Bytes → WpsData → Option WpsData
  | 0, _, wps => some wps
  | rounds + 1, buf, wps =>
    if buf.length ≤ 4 then
      some wps
    else
      match wpsGetTlv buf with
      | none => none
      | some tlv => parseTlvs rounds (buf.drop (4 + tlv.length)) ((wpsAddTlv wps tlv).getD wps)

def wpsParseWpsData (buf : Bytes) : Option WpsData :=
  if buf.length ≤ 4 then none else parseTlvs buf.length buf []

def Value.bytes : Value → Bytes
  | .bool value => [value]
  | .u8 value => [value]
  | .u16 value => putBe16 value.toNat
  | .u32 value => putBe32 value.toNat
  | .ptr value => value

def Tlv.write (tlv : Tlv) : Bytes :=
  putBe16 tlv.type ++ putBe16 tlv.length ++ tlv.value.bytes

def wpsWriteWpsData : Bytes := wps.flatMap Tlv.write

/-- `wps_tlv_get_value`: `capacity` is what `*length` holds on entry, `none`
for a null pointer. -/
def wpsTlvGetValue (tlv : Tlv) (capacity : Option Nat) : Option Value :=
  match tlv.value, capacity with
  | .ptr _, none => none
  | .ptr value, some capacity => if capacity < tlv.length then none else some (.ptr value)
  | value, _ => some value

def wpsFind : Option Tlv := wps.find? (·.type == type)

def wpsGetValue (capacity : Option Nat) : Option Value :=
  (wpsFind wps type).bind (wpsTlvGetValue · capacity)

def wpsGetU8 : Option UInt8 :=
  match wpsGetValue wps type none with
  | some (.u8 value) => some value
  | _ => none

def wpsGetU16 : Option UInt16 :=
  match wpsGetValue wps type none with
  | some (.u16 value) => some value
  | _ => none

def wpsGetU32 : Option UInt32 :=
  match wpsGetValue wps type none with
  | some (.u32 value) => some value
  | _ => none

def wpsGetBytes (type capacity : Nat) : Option Bytes :=
  match wpsGetValue wps type (some capacity) with
  | some (.ptr value) => some value
  | _ => none

/-- The call of `wps_get_value` without a value: only `*length` is set, and
only when the attribute is there. -/
def wpsGetLength (type length : Nat) : Nat :=
  match wpsFind wps type with
  | some tlv => tlv.length
  | none => length

/-- What the `value` pointer of `wps_set_value` points to. -/
inductive Source
  | u8 (value : UInt8)
  | u16 (value : UInt16)
  | u32 (value : UInt32)
  | bytes (value : Bytes)
  deriving DecidableEq

def wpsSetValue (source : Source) : Option WpsData :=
  match wpsGetTlvSet type with
  | none => none
  | some set =>
    match set.valueType, source with
    | .bool, .u8 value => wpsAddTlv wps ⟨type, 1, .bool value⟩
    | .u8, .u8 value => wpsAddTlv wps ⟨type, 1, .u8 value⟩
    | .u16, .u16 value => wpsAddTlv wps ⟨type, 2, .u16 value⟩
    | .u32, .u32 value =>
      -- the source reads the number through a pointer to 16 bits
      let half := if bigEndian then value.toNat / 65536 else value.toNat % 65536
      wpsAddTlv wps ⟨type, 4, .u32 (UInt32.ofNat half)⟩
    | .ptr, .bytes value =>
      let length := value.length % 65536
      wpsAddTlv wps ⟨type, length, .ptr (value.take length)⟩
    | _, _ => none

/-- A run of `wps_set_value` calls that stops at the first error. -/
def wpsSetValues (bigEndian : Bool) : WpsData → List (Nat × Source) → Option WpsData
  | wps, [] => some wps
  | wps, (type, source) :: rest =>
    (wpsSetValue bigEndian wps type source).bind (wpsSetValues bigEndian · rest)

def wpsRemoveValue : Option WpsData :=
  match wpsFind wps type with
  | none => none
  | some _ => some (wps.eraseP (·.type == type))

/-- The walk of `wps_get_nw_key_len` through one credential. -/
def credentialKeyLen (bigEndian : Bool) : Nat → Bytes → Option Nat
  | 0, _ => none
  | rounds + 1, b0 :: b1 :: b2 :: b3 :: rest =>
    if host16 bigEndian b0 b1 = WpsType.nwKey then
      some (host16 bigEndian b2 b3)
    else
      credentialKeyLen bigEndian rounds (rest.drop (host16 bigEndian b2 b3))
  | _ + 1, _ => none

def wpsGetNwKeyLen : Nat :=
  let inCredential :=
    match wps with
    | tlv :: rest =>
      if rest.length ≤ 1 ∧ tlv.type = WpsType.credential then
        match tlv.value with
        | .ptr value => credentialKeyLen bigEndian value.length value
        | _ => none
      else
        none
    | [] => none
  inCredential.getD (wpsGetLength wps WpsType.nwKey 0)

def wpsGetMessageType (buf : Bytes) : UInt8 :=
  ((wpsParseWpsData buf).bind (wpsGetU8 · WpsType.msgType)).getD 0xFF

end AthApps.Wps
