import AthApps.Lib.Aes
import AthApps.Lib.Digest
import AthApps.Wps.Tlv

/-!
# Keys, authenticators and encrypted settings

The cryptographic helpers of `hostapd/eap_wps.c` in the build with
`CONFIG_CRYPTO_INTERNAL`.  The primitives they call are the fields of `Crypto`;
`Crypto.internal` are the functions of that build.
-/

set_option autoImplicit false

namespace AthApps.Wps

open Lib (Bytes)
open List hiding Vector

structure Crypto where
  sha256 : Bytes → Vector UInt8 32
  -- key and message
  hmacSha256 : Bytes → Bytes → Vector UInt8 32
  aesEncrypt : Vector UInt8 16 → Vector UInt8 16 → Vector UInt8 16
  aesDecrypt : Vector UInt8 16 → Vector UInt8 16 → Vector UInt8 16
  -- base, power and modulus; the result is without leading zero bytes
  modExp : Bytes → Bytes → Bytes → Bytes

def store {n : Nat} (buffer : Vector UInt8 n) (bytes : Bytes) : Vector UInt8 n :=
  ⟨((bytes ++ buffer.toList.drop bytes.length).take n).toArray, by
    simp only [size_toArray, length_take, length_append, length_drop, Vector.length_toList]
    omega⟩

def zeros (n : Nat) : Vector UInt8 n := Vector.replicate n 0

def bufferOf (n : Nat) (bytes : Bytes) : Vector UInt8 n := store (zeros n) bytes

/-- Big endian bytes without leading zero bytes, at most `size` of them. -/
def unsignedBin (size value : Nat) : Bytes :=
  (Lib.Sha256.bigEndian value size).dropWhile (· == 0)

def Crypto.internal : Crypto where
  sha256 := Lib.Sha256.hash
  hmacSha256 := Lib.Sha256.hmac
  aesEncrypt := Lib.Aes.encrypt
  aesDecrypt := Lib.Aes.decrypt
  modExp base power modulus :=
    unsignedBin modulus.length (Lib.Sha256.number base ^ Lib.Sha256.number power % Lib.Sha256.number modulus)

theorem Crypto.internal_eq : Crypto.internal =
    { Crypto.internal with
      sha256 := Lib.Sha256.quickHash
      hmacSha256 := Lib.Sha256.quickHmac } := by
  rw [← Lib.Sha256.hash_eq, ← Lib.Sha256.hmac_eq]
  rfl

def dhPValue : Bytes :=
  [0xFF, 0xFF, 0xFF, 0xFF, 0xFF, 0xFF, 0xFF, 0xFF, 0xC9, 0x0F, 0xDA, 0xA2, 0x21, 0x68, 0xC2, 0x34,
    0xC4, 0xC6, 0x62, 0x8B, 0x80, 0xDC, 0x1C, 0xD1, 0x29, 0x02, 0x4E, 0x08, 0x8A, 0x67, 0xCC, 0x74,
    0x02, 0x0B, 0xBE, 0xA6, 0x3B, 0x13, 0x9B, 0x22, 0x51, 0x4A, 0x08, 0x79, 0x8E, 0x34, 0x04, 0xDD,
    0xEF, 0x95, 0x19, 0xB3, 0xCD, 0x3A, 0x43, 0x1B, 0x30, 0x2B, 0x0A, 0x6D, 0xF2, 0x5F, 0x14, 0x37,
    0x4F, 0xE1, 0x35, 0x6D, 0x6D, 0x51, 0xC2, 0x45, 0xE4, 0x85, 0xB5, 0x76, 0x62, 0x5E, 0x7E, 0xC6,
    0xF4, 0x4C, 0x42, 0xE9, 0xA6, 0x37, 0xED, 0x6B, 0x0B, 0xFF, 0x5C, 0xB6, 0xF4, 0x06, 0xB7, 0xED,
    0xEE, 0x38, 0x6B, 0xFB, 0x5A, 0x89, 0x9F, 0xA5, 0xAE, 0x9F, 0x24, 0x11, 0x7C, 0x4B, 0x1F, 0xE6,
    0x49, 0x28, 0x66, 0x51, 0xEC, 0xE4, 0x5B, 0x3D, 0xC2, 0x00, 0x7C, 0xB8, 0xA1, 0x63, 0xBF, 0x05,
    0x98, 0xDA, 0x48, 0x36, 0x1C, 0x55, 0xD3, 0x9A, 0x69, 0x16, 0x3F, 0xA8, 0xFD, 0x24, 0xCF, 0x5F,
    0x83, 0x65, 0x5D, 0x23, 0xDC, 0xA3, 0xAD, 0x96, 0x1C, 0x62, 0xF3, 0x56, 0x20, 0x85, 0x52, 0xBB,
    0x9E, 0xD5, 0x29, 0x07, 0x70, 0x96, 0x96, 0x6D, 0x67, 0x0C, 0x35, 0x4E, 0x4A, 0xBC, 0x98, 0x04,
    0xF1, 0x74, 0x6C, 0x08, 0xCA, 0x23, 0x73, 0x27, 0xFF, 0xFF, 0xFF, 0xFF, 0xFF, 0xFF, 0xFF, 0xFF]

def dhGValue : Bytes := [2]

section

variable (crypto : Crypto)

/-- The result of `crypto_mod_exp` as a big endian number of fixed size. -/
def fixedSize (result : Bytes) : Option (Vector UInt8 192) :=
  if 0 < result.length ∧ result.length ≤ 192 then
    some (bufferOf 192 (List.replicate (192 - result.length) 0 ++ result))
  else
    none

/-- `secret` are the random bytes that become the private key. -/
def eapWpsGeneratePublicKey (secret : Vector UInt8 192) : Option (Vector UInt8 192) :=
  fixedSize (crypto.modExp dhGValue secret.toList dhPValue)

def eapWpsGenerateKdk (dhSecret : Option (Vector UInt8 192)) (pubKey : Vector UInt8 192)
    (eNonce : Vector UInt8 16) (mac : Vector UInt8 6) (rNonce : Vector UInt8 16) :
    Option (Vector UInt8 32) := do
  let secret ← dhSecret
  let sharedSecret ← fixedSize (crypto.modExp pubKey.toList secret.toList dhPValue)
  let dhkey := crypto.sha256 sharedSecret.toList
  some (crypto.hmacSha256 dhkey.toList (eNonce.toList ++ mac.toList ++ rNonce.toList))

/-- `"Wi-Fi Easy and Secure Key Derivation"` -/
def wpsPersonalizationString : Bytes :=
  [0x57, 0x69, 0x2D, 0x46, 0x69, 0x20, 0x45, 0x61, 0x73, 0x79, 0x20, 0x61, 0x6E, 0x64, 0x20, 0x53,
    0x65, 0x63, 0x75, 0x72, 0x65, 0x20, 0x4B, 0x65, 0x79, 0x20, 0x44, 0x65, 0x72, 0x69, 0x76, 0x61,
    0x74, 0x69, 0x6F, 0x6E]

def kdfKeyBits : Nat := 640

def eapWpsKeyDeriveFunc (kdk : Vector UInt8 32) : Bytes :=
  [1, 2, 3].flatMap fun iteration =>
    (crypto.hmacSha256 kdk.toList
      (putBe32 iteration ++ wpsPersonalizationString ++ putBe32 kdfKeyBits)).toList

structure Keys where
  authKey : Vector UInt8 32
  keyWrapKey : Vector UInt8 16
  emsk : Vector UInt8 32

/-- The last sixteen derived bytes are unused. -/
def Keys.ofDerived (keys : Bytes) : Keys where
  authKey := bufferOf 32 (keys.take 32)
  keyWrapKey := bufferOf 16 ((keys.drop 32).take 16)
  emsk := bufferOf 32 ((keys.drop 48).take 32)

def eapWpsHmacValidation (sndMsg rcvMsg authenticator : Bytes) (authKey : Vector UInt8 32) :
    Bool :=
  match (wpsParseWpsData rcvMsg).bind (wpsRemoveValue · WpsType.authenticator) with
  | none => false
  | some wps =>
    (crypto.hmacSha256 authKey.toList (sndMsg ++ wpsWriteWpsData wps)).toList.take 8 ==
      authenticator

def eapWpsCalcurateAuthenticator (rcvMsg sndmsg : Bytes) (authKey : Vector UInt8 32) :
    Bytes :=
  (crypto.hmacSha256 authKey.toList (rcvMsg ++ sndmsg)).toList.take 8

def xorBlock (left right : Vector UInt8 16) : Vector UInt8 16 := left.zipWith (· ^^^ ·) right

/-- The block loop of `eap_wps_encrypt_data`: a last block that is not full is
filled up with the number of padding bytes. -/
def encryptBlocks (key : Vector UInt8 16) : Nat → Bytes → Vector UInt8 16 → Bytes
  | 0, _, _ => []
  | blocks + 1, inbuf, lastcipher =>
    let npad := 16 - inbuf.length
    let block := bufferOf 16 (inbuf.take 16 ++ List.replicate npad (UInt8.ofNat npad))
    let thiscipher := crypto.aesEncrypt key (xorBlock block lastcipher)
    if inbuf.length < 16 then
      thiscipher.toList
    else
      thiscipher.toList ++ encryptBlocks key blocks (inbuf.drop 16) thiscipher

def eapWpsEncryptData (iv : Vector UInt8 16) (inbuf : Bytes) (encrKey : Vector UInt8 16) :
    Bytes :=
  encryptBlocks crypto encrKey (inbuf.length / 16 + 1) inbuf iv

theorem padding_lt : 15 < 16 := by decide

/-- The block loop of `eap_wps_decrypt_data`; the last block says how much of
it is padding. -/
def decryptBlocks (key : Vector UInt8 16) :
    Nat → Bytes → Vector UInt8 16 → Option Bytes
  | 0, _, _ => some []
  | blocks + 1, cipher, iv =>
    let block := bufferOf 16 (cipher.take 16)
    let out := xorBlock (crypto.aesDecrypt key block) iv
    if blocks = 0 then
      let npad := (getElem out 15 padding_lt).toNat
      if 0 < npad ∧ npad ≤ 16 then some (out.toList.take (16 - npad)) else none
    else
      (decryptBlocks key blocks (cipher.drop 16) block).map (out.toList ++ ·)

def eapWpsDecryptData (iv cipher : Bytes) (encrKey : Vector UInt8 16) :
    Option Bytes :=
  if cipher.length = 0 ∨ cipher.length % 16 ≠ 0 then
    none
  else
    decryptBlocks crypto encrKey (cipher.length / 16) cipher (bufferOf 16 iv)

/-- What stands before the key wrap authenticator: the nonce, and the
configuration with a network key attribute even if it has none. -/
def settingsBody (bigEndian : Bool) (nonce : Option (Nat × Vector UInt8 16))
    (config : Bytes) : Option WpsData := do
  let wps ← match nonce with
    | none => some []
    | some (nonceType, nonce) => wpsSetValue bigEndian [] nonceType (.bytes nonce.toList)
  if config = [] then
    some wps
  else
    let wps ← wpsParseWpsData (wpsWriteWpsData wps ++ config)
    if wpsGetNwKeyLen bigEndian wps = 0 then
      wpsSetValue bigEndian wps WpsType.nwKey (.bytes [])
    else
      some wps

def eapWpsEncrsettingsCreation (bigEndian : Bool) (iv : Vector UInt8 16)
    (nonce : Option (Nat × Vector UInt8 16)) (config : Bytes) (keys : Keys) :
    Option Bytes := do
  let body ← settingsBody bigEndian nonce config
  let hmac := crypto.hmacSha256 keys.authKey.toList (wpsWriteWpsData body)
  let wps ← wpsSetValue bigEndian body WpsType.keyWrapAuth (.bytes (hmac.toList.take 8))
  some (iv.toList ++ eapWpsEncryptData crypto iv (wpsWriteWpsData wps) keys.keyWrapKey)

/-- Returns the nonce of the settings, nothing where `nonceType` is `none`. -/
def eapWpsEncrsettingsValidation (plain : Bytes) (authKey : Vector UInt8 32)
    (nonceType : Option Nat) : Option Bytes := do
  let wps ← wpsParseWpsData plain
  let nonce ← match nonceType with
    | none => some []
    | some nonceType => wpsGetBytes wps nonceType 16
  let keyWrapAuth ← wpsGetBytes wps WpsType.keyWrapAuth 8
  let wps ← wpsRemoveValue wps WpsType.keyWrapAuth
  let hmac := crypto.hmacSha256 authKey.toList (wpsWriteWpsData wps)
  if hmac.toList.take 8 = keyWrapAuth then some nonce else none

/-- The part of the message processors that opens an encrypted settings attribute. -/
def openSettings (wps : WpsData) (keys : Keys) : Option Bytes := do
  let length := wpsGetLength wps WpsType.encrSettings 0
  if length = 0 then
    none
  else
    let encrs ← wpsGetBytes wps WpsType.encrSettings length
    eapWpsDecryptData crypto (encrs.take 16) (encrs.drop 16) keys.keyWrapKey

structure Half where
  psk : Vector UInt8 16
  snonce : Vector UInt8 16
  hash : Vector UInt8 32

def Half.zero : Half := ⟨zeros 16, zeros 16, zeros 32⟩

def hashOf (nonce psk : Bytes) (pubKey1 pubKey2 : Vector UInt8 192)
    (authKey : Vector UInt8 32) : Vector UInt8 32 :=
  crypto.hmacSha256 authKey.toList (nonce ++ psk ++ pubKey1.toList ++ pubKey2.toList)

/-- `es` are the random bytes of the nonce. -/
def eapWpsGenerateHash (src : Bytes) (pubKey1 pubKey2 : Vector UInt8 192)
    (authKey : Vector UInt8 32) (es : Vector UInt8 16) : Half :=
  let psk := bufferOf 16 ((crypto.hmacSha256 authKey.toList src).toList.take 16)
  ⟨psk, es, hashOf crypto es.toList psk.toList pubKey1 pubKey2 authKey⟩

def eapWpsHashValidation (compared : Vector UInt8 32) (rsnonce : Bytes)
    (psk : Vector UInt8 16) (pubKey1 pubKey2 : Vector UInt8 192) (authKey : Vector UInt8 32) :
    Bool :=
  compared == hashOf crypto rsnonce psk.toList pubKey1 pubKey2 authKey

def firstHalf (pwd : Bytes) : Bytes := pwd.take (pwd.length / 2 + pwd.length % 2)

def secondHalf (pwd : Bytes) : Bytes := pwd.drop (pwd.length / 2 + pwd.length % 2)

end

/-- Functions that are quick to compute; the key exchange is that of the build. -/
def quickCrypto : Crypto where
  sha256 message := bufferOf 32 (Lib.Sha256.bigEndian (Lib.Sha256.number message) 32)
  hmacSha256 key message :=
    bufferOf 32 (Lib.Sha256.bigEndian
      ((Lib.Sha256.number key + 1) * Lib.Sha256.number message % (2 ^ 255 - 19)) 32)
  aesEncrypt key block := xorBlock block key
  aesDecrypt key block := xorBlock block key
  modExp := Crypto.internal.modExp

end AthApps.Wps
