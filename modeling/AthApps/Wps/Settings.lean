import AthApps.Wps.Sealing

/-!
# Encrypted settings and their buffers

Data that is encrypted and decrypted stays within the buffers that are
allocated for it and comes back.  So do settings of fewer than 255 attributes
that have no key wrap authenticator of their own; with 255 of them the counter
of the attributes wraps, and another authenticator is found before the one that
was computed.
-/

set_option autoImplicit false

namespace AthApps.Wps

open Lib (Bytes)
open Option
open List hiding Vector

/-- Sixteen bytes stored at `place`; `none` is a store behind the buffer. -/
def storeBlock (buffer : Bytes) (place : Nat) (block : Vector UInt8 16) :
    Option Bytes :=
  if place + 16 ≤ buffer.length then
    some (buffer.take place ++ block.toList ++ buffer.drop (place + 16))
  else none

theorem storeBlock_behind {buffer done rest : Bytes} (parts : buffer = done ++ rest)
    (room : 16 ≤ rest.length) (block : Vector UInt8 16) :
    storeBlock buffer done.length block = some (done ++ block.toList ++ rest.drop 16) := by
  subst parts
  rw [storeBlock, if_pos (by rw [length_append]; omega), take_left', ← drop_drop,
    drop_left']
  all_goals rfl

section

variable (crypto : Crypto)

/-- The block loop of `eap_wps_encrypt_data` on `*cipher`, from `thiscipher` on. -/
def encryptInto (key : Vector UInt8 16) :
    Nat → Bytes → Vector UInt8 16 → Bytes → Nat → Option Bytes
  | 0, _, _, buffer, _ => some buffer
  | blocks + 1, inbuf, lastcipher, buffer, place => do
      let npad := 16 - inbuf.length
      let block := bufferOf 16 (inbuf.take 16 ++ List.replicate npad (UInt8.ofNat npad))
      let thiscipher := crypto.aesEncrypt key (xorBlock block lastcipher)
      let buffer ← storeBlock buffer place thiscipher
      if inbuf.length < 16 then some buffer
      else encryptInto key blocks (inbuf.drop 16) thiscipher buffer (place + 16)

/-- The block loop of `eap_wps_decrypt_data` on `*plain`, from `out` on, with the length of
what was decrypted; the inner `none` is an error. -/
def decryptInto (key : Vector UInt8 16) :
    Nat → Bytes → Vector UInt8 16 → Bytes → Nat → Option (Bytes × Option Nat)
  | 0, _, _, buffer, place => some (buffer, some place)
  | blocks + 1, cipher, iv, buffer, place => do
      let block := bufferOf 16 (cipher.take 16)
      let out := xorBlock (crypto.aesDecrypt key block) iv
      let buffer ← storeBlock buffer place out
      if blocks = 0 then
        some (buffer, if 0 < out[15].toNat ∧ out[15].toNat ≤ 16 then
          some (place + (16 - out[15].toNat)) else none)
      else decryptInto key blocks (cipher.drop 16) block buffer (place + 16)

theorem encryptInto_eq (key : Vector UInt8 16) (blocks : Nat) :
    ∀ (inbuf : Bytes) (last : Vector UInt8 16) (done rest : Bytes),
      inbuf.length / 16 + 1 = blocks → 16 * blocks ≤ rest.length →
        encryptInto crypto key blocks inbuf last (done ++ rest) done.length =
          some (done ++ encryptBlocks crypto key blocks inbuf last ++ rest.drop (16 * blocks)) := by
  induction blocks with
  | zero =>
    intro inbuf last done rest count
    cases count
  | succ blocks ih =>
    intro inbuf last done rest count room
    rw [encryptInto, encryptBlocks]
    generalize crypto.aesEncrypt key (xorBlock _ last) = thiscipher
    rw [storeBlock_behind rfl (by omega), bind_eq_bind, bind_some]
    split
    · have single : blocks = 0 := by omega
      rw [single]
    · have next := ih (inbuf.drop 16) thiscipher (done ++ thiscipher.toList) (rest.drop 16)
        (by rw [length_drop]; omega) (by rw [length_drop]; omega)
      rw [length_append, Vector.length_toList] at next
      rw [next, drop_drop, Nat.mul_succ, Nat.add_comm 16, append_assoc done]

theorem decryptInto_eq (key : Vector UInt8 16) (blocks : Nat) :
    ∀ (cipher : Bytes) (iv : Vector UInt8 16) (done rest plain : Bytes),
      16 * blocks ≤ rest.length → decryptBlocks crypto key blocks cipher iv = some plain →
        ∃ buffer, decryptInto crypto key blocks cipher iv (done ++ rest) done.length =
            some (buffer, some (done ++ plain).length) ∧
          buffer.take (done ++ plain).length = done ++ plain := by
  induction blocks with
  | zero =>
    intro cipher iv done rest plain _ decrypted
    cases decrypted
    exact ⟨done ++ rest, by simp [decryptInto], by simp⟩
  | succ blocks ih =>
    intro cipher iv done rest plain room decrypted
    rw [decryptBlocks] at decrypted
    rw [decryptInto]
    generalize xorBlock (crypto.aesDecrypt key _) iv = out at decrypted ⊢
    rw [storeBlock_behind rfl (by omega), bind_eq_bind, bind_some]
    split at decrypted
    · next single =>
        obtain ⟨padding, same⟩ := ite_none_right_eq_some.mp decrypted
        obtain rfl := some.inj same
        have length : (out.toList.take (16 - out[15].toNat)).length = 16 - out[15].toNat := by
          rw [length_take, Vector.length_toList]
          omega
        rw [if_pos single, if_pos padding, length_append, length]
        refine ⟨_, rfl, ?_⟩
        rw [append_assoc, take_length_add_append, take_append_of_le_length]
        rw [Vector.length_toList]
        omega
    · next more =>
        obtain ⟨later, read, rfl⟩ := map_eq_some_iff.mp decrypted
        rw [if_neg more]
        obtain ⟨buffer, ran, holds⟩ := ih (cipher.drop 16) _ (done ++ out.toList) (rest.drop 16)
          later (by rw [length_drop]; omega) read
        have place : (done ++ out.toList).length = done.length + 16 := by simp
        rw [place, append_assoc done out.toList later] at ran
        rw [append_assoc done out.toList later] at holds
        exact ⟨buffer, ran, holds⟩

end

/-- What the parser takes of a list that was written: the last attribute only if it is not
empty. -/
def kept (wps : WpsData) : WpsData := if lastBytes wps [] = [] then wps.dropLast else wps

variable {wps : WpsData}

theorem mem_kept {tlv : Tlv} (mem : tlv ∈ kept wps) : tlv ∈ wps := by
  rw [kept] at mem
  split at mem
  · exact dropLast_subset _ mem
  · exact mem

theorem parse_kept (valid : ∀ tlv ∈ wps, tlv.Valid) (few : (kept wps).length ≤ 255)
    (more : kept wps ≠ []) : wpsParseWpsData (wpsWriteWpsData wps) = some (kept wps) := by
  have nonempty : wps ≠ [] := fun none => more (by rw [none]; rfl)
  obtain ⟨front, last, rfl⟩ : ∃ front last, wps = front ++ [last] :=
    ⟨_, _, (dropLast_append_getLast nonempty).symm⟩
  have bytes : lastBytes (front ++ [last]) [] = last.value.bytes := by simp [lastBytes]
  rw [kept, bytes] at few more ⊢
  by_cases empty : last.value.bytes = []
  · simp only [if_pos empty, dropLast_concat] at few more ⊢
    have four : last.write.length = 4 := by rw [Tlv.write_length, empty]; rfl
    have tail : lastBytes front last.write ≠ [] := by
      intro none
      have bound := lastBytes_le front last.write more
      rw [lastBytes] at none
      split at none
      · rw [none] at four
        cases four
      · rw [(append_eq_nil_iff.mp none).2] at four
        cases four
    have front := wpsParseWpsData_write (fun tlv mem => valid tlv (mem_append_left _ mem)) few
      last.write (Nat.le_of_eq four) more tail
    rwa [wpsWriteWpsData_append, wpsWriteWpsData_cons, show wpsWriteWpsData [] = [] from rfl,
      append_nil]
  · rw [if_neg empty] at few ⊢
    have parsed := wpsParseWpsData_write valid few [] (Nat.zero_le 4) nonempty (by rwa [bytes])
    rwa [append_nil] at parsed

theorem wpsSetValue_bytes (bigEndian : Bool) {type length : Nat} {value : Bytes}
    (valid : (⟨type, length, .ptr value⟩ : Tlv).Valid) (room : wps.length < 255) :
    wpsSetValue bigEndian wps type (.bytes value) = some (wps ++ [⟨type, length, .ptr value⟩]) := by
  obtain rfl : value.length = length := valid.sized
  obtain ⟨set, matched, kind⟩ := valid.matched
  obtain ⟨mem, same, -⟩ := wpsMatchTlv_spec matched
  unfold wpsSetValue
  cases found : wpsGetTlvSet type with
  | none => exact absurd (beq_iff_eq.mpr same) (find?_eq_none.mp found set mem)
  | some entry =>
    obtain ⟨inside, sameType⟩ := wpsGetTlvSet_spec found
    have ptr : entry.valueType = .ptr :=
      (tlvSets_kind entry inside set mem (sameType.trans same.symm)).trans kind.symm
    have whole : value.length % 65536 = value.length :=
      Nat.mod_eq_of_lt (wpsMatchTlv_small matched).2
    simp only [ptr, whole, take_length, wpsAddTlv, matched]
    rw [if_neg (by omega)]

section

variable {bigEndian : Bool} {nonce : Option (Nat × Vector UInt8 16)} {attrs : WpsData}

/-- The nonce and the configuration, with a network key if there is none. -/
def closing (bigEndian : Bool) (nonce : Option (Nat × Vector UInt8 16)) (attrs : WpsData) :
    WpsData :=
  let wps := kept (nonceAttribute nonce ++ attrs)
  if attrs ≠ [] ∧ wpsGetNwKeyLen bigEndian wps = 0 then wps ++ [emptyNwKey] else wps

theorem emptyNwKey_valid : emptyNwKey.Valid := ⟨⟨_, rfl, rfl⟩, rfl⟩

theorem kept_nonce : kept (nonceAttribute nonce) = nonceAttribute nonce := by
  match nonce with
  | none => rfl
  | some (type, value) =>
    have full : value.toList ++ [] ≠ [] := by
      intro none
      have length := congrArg List.length none
      simp at length
    exact if_neg full

theorem settingsBody_closing (valid : ∀ tlv ∈ nonceAttribute nonce ++ attrs, tlv.Valid)
    (more : attrs ≠ [] → kept (nonceAttribute nonce ++ attrs) ≠ [])
    (few : (closing bigEndian nonce attrs).length < 255) :
    settingsBody bigEndian nonce (wpsWriteWpsData attrs) =
      some (closing bigEndian nonce attrs) := by
  have body : settingsBody bigEndian nonce (wpsWriteWpsData attrs) =
      if wpsWriteWpsData attrs = [] then some (nonceAttribute nonce)
      else (wpsParseWpsData (wpsWriteWpsData (nonceAttribute nonce) ++ wpsWriteWpsData attrs)).bind
        fun wps =>
          if wpsGetNwKeyLen bigEndian wps = 0 then
            wpsSetValue bigEndian wps WpsType.nwKey (.bytes [])
          else some wps := by
    cases nonce with
    | none => rfl
    | some given =>
      have here := valid ⟨given.1, 16, .ptr given.2.toList⟩ mem_cons_self
      exact congrArg (Option.bind · _) (wpsSetValue_bytes bigEndian here
        (show [].length < 255 by decide))
  rw [body]
  by_cases empty : attrs = []
  · subst empty
    have none : wpsWriteWpsData [] = [] := rfl
    rw [if_pos none, closing, if_neg (fun both => both.1 rfl), append_nil, kept_nonce]
  · have small : (kept (nonceAttribute nonce ++ attrs)).length < 255 := by
      rw [closing] at few
      split at few
      · rw [length_append] at few
        omega
      · exact few
    rw [if_neg fun none => empty (wpsWriteWpsData_eq_nil none), ← wpsWriteWpsData_append,
      parse_kept valid (Nat.le_of_lt small) (more empty), bind_some, closing]
    by_cases key : wpsGetNwKeyLen bigEndian (kept (nonceAttribute nonce ++ attrs)) = 0
    · rw [if_pos key, if_pos ⟨empty, key⟩]
      exact wpsSetValue_bytes bigEndian emptyNwKey_valid small
    · rw [if_neg key, if_neg fun both => key both.2]

theorem closing_mem {tlv : Tlv} (mem : tlv ∈ closing bigEndian nonce attrs) :
    tlv ∈ nonceAttribute nonce ++ attrs ∨ tlv = emptyNwKey := by
  rw [closing] at mem
  split at mem
  · rcases mem_append.mp mem with mem | mem
    · exact .inl (mem_kept mem)
    · exact .inr (mem_singleton.mp mem)
  · exact .inl (mem_kept mem)

theorem closing_nonce {type : Nat} {value : Vector UInt8 16} :
    ∃ rest, closing bigEndian (some (type, value)) attrs =
      ⟨type, 16, .ptr value.toList⟩ :: rest := by
  have first : ∃ rest, kept (nonceAttribute (some (type, value)) ++ attrs) =
      ⟨type, 16, .ptr value.toList⟩ :: rest := by
    cases attrs with
    | nil => exact ⟨[], (congrArg kept (append_nil _)).trans kept_nonce⟩
    | cons tlv rest =>
      rw [kept]
      split
      · exact ⟨_, rfl⟩
      · exact ⟨_, rfl⟩
  obtain ⟨rest, first⟩ := first
  rw [closing, first]
  split
  · exact ⟨_, rfl⟩
  · exact ⟨_, rfl⟩

theorem keyWrapAuth_valid {tag : Bytes} (eight : tag.length = 8) :
    (⟨WpsType.keyWrapAuth, 8, .ptr tag⟩ : Tlv).Valid := ⟨⟨_, rfl, rfl⟩, eight⟩

theorem settings_opened {crypto : Crypto} (iv : Vector UInt8 16) (keys : Keys)
    (inverse : ∀ key block, crypto.aesDecrypt key (crypto.aesEncrypt key block) = block)
    (valid : ∀ tlv ∈ nonceAttribute nonce ++ attrs, tlv.Valid)
    (more : attrs ≠ [] → kept (nonceAttribute nonce ++ attrs) ≠ [])
    (alone : ∀ tlv ∈ nonceAttribute nonce ++ attrs, tlv.type ≠ WpsType.keyWrapAuth)
    (few : (closing bigEndian nonce attrs).length < 255) :
    ∃ encrs plain,
      eapWpsEncrsettingsCreation crypto bigEndian iv nonce (wpsWriteWpsData attrs) keys =
        some encrs ∧
      eapWpsDecryptData crypto (encrs.take 16) (encrs.drop 16) keys.keyWrapKey = some plain ∧
      eapWpsEncrsettingsValidation crypto plain keys.authKey (nonce.map Prod.fst) =
        some ((nonce.map fun nonce => nonce.2.toList).getD []) := by
  have eight := hmac_take_length (crypto.hmacSha256 keys.authKey.toList
    (wpsWriteWpsData (closing bigEndian nonce attrs)))
  have set := wpsSetValue_bytes bigEndian (keyWrapAuth_valid eight) few
  have absent : wpsFind (closing bigEndian nonce attrs) WpsType.keyWrapAuth = none := by
    refine find?_eq_none.mpr fun tlv mem same => ?_
    rcases closing_mem mem with mem | rfl
    · exact alone tlv mem (beq_iff_eq.mp same)
    · cases same
  have found : ∀ type, nonce.map Prod.fst = some type → ∀ rest,
      wpsGetBytes (closing bigEndian nonce attrs ++ rest) type 16 =
        some ((nonce.map fun nonce => nonce.2.toList).getD []) := by
    intro type isType rest
    obtain ⟨⟨named, value⟩, rfl, rfl⟩ := map_eq_some_iff.mp isType
    obtain ⟨others, first⟩ := @closing_nonce bigEndian attrs named value
    simp [first, wpsGetBytes, wpsGetValue, wpsFind, wpsTlvGetValue]
  have all : ∀ tlv ∈ closing bigEndian nonce attrs, tlv.Valid := fun tlv mem =>
    (closing_mem mem).elim (valid tlv) fun same => same ▸ emptyNwKey_valid
  have opened := closed_opens crypto inverse iv keys all few absent found
    (fun isNone => by rw [map_eq_none_iff.mp isNone]; rfl) set
  refine ⟨_, _, ?_, opened.1, opened.2⟩
  rw [eapWpsEncrsettingsCreation, settingsBody_closing valid more few]
  exact congrArg (Option.bind · _) set

end

/-- Data that is encrypted and decrypted with one key stays within the buffers and comes back.
The settings of a message are accepted with their nonce when there is room for the key wrap
authenticator, and no other one. -/
theorem settings_roundTrip (crypto : Crypto)
    (inverse : ∀ key block, crypto.aesDecrypt key (crypto.aesEncrypt key block) = block) :
    (∀ (iv key : Vector UInt8 16) (plain cipherBuffer : Bytes),
      cipherBuffer.length = plain.length + 16 →
        ∃ stored, encryptInto crypto key (plain.length / 16 + 1) plain iv cipherBuffer 0 =
            some stored ∧
          (let cipher := stored.take (16 * (plain.length / 16 + 1))
          eapWpsDecryptData crypto iv.toList cipher key = some plain ∧
          ∀ plainBuffer : Bytes, plainBuffer.length = cipher.length →
            ∃ buffer, decryptInto crypto key (cipher.length / 16) cipher iv plainBuffer 0 =
                some (buffer, some plain.length) ∧
              buffer.take plain.length = plain)) ∧
    ∀ (bigEndian : Bool) (iv : Vector UInt8 16) (nonce : Option (Nat × Vector UInt8 16))
      (attrs : WpsData) (keys : Keys),
      (∀ tlv ∈ nonceAttribute nonce ++ attrs, tlv.Valid) →
      (attrs ≠ [] → kept (nonceAttribute nonce ++ attrs) ≠ []) →
      (∀ tlv ∈ nonceAttribute nonce ++ attrs, tlv.type ≠ WpsType.keyWrapAuth) →
      (closing bigEndian nonce attrs).length < 255 → ∃ encrs plain,
          eapWpsEncrsettingsCreation crypto bigEndian iv nonce (wpsWriteWpsData attrs) keys =
            some encrs ∧
          eapWpsDecryptData crypto (encrs.take 16) (encrs.drop 16) keys.keyWrapKey = some plain ∧
          eapWpsEncrsettingsValidation crypto plain keys.authKey (nonce.map Prod.fst) =
            some ((nonce.map fun nonce => nonce.2.toList).getD []) := by
  refine ⟨fun iv key plain cipherBuffer allocated => ?_,
    fun _ iv _ _ keys valid more alone few => settings_opened iv keys inverse valid more alone few⟩
  have stored := encryptInto_eq crypto key _ plain iv [] cipherBuffer rfl (by omega)
  have length := encryptBlocks_length crypto key _ plain iv rfl
  refine ⟨_, stored, ?_⟩
  rw [nil_append, take_left' length]
  have decrypted := eapWpsDecryptData_encrypt crypto inverse iv plain key
  refine ⟨decrypted, fun plainBuffer whole => ?_⟩
  have blocks : (encryptBlocks crypto key (plain.length / 16 + 1) plain iv).length / 16 =
      plain.length / 16 + 1 := by omega
  rw [blocks]
  exact decryptInto_eq crypto key _ _ iv [] plainBuffer plain (by omega)
    (decryptBlocks_encryptBlocks crypto inverse key _ plain iv rfl)

def exampleKeys : Keys := ⟨Vector.replicate 32 5, Vector.replicate 16 6, zeros 32⟩

def exampleSettings : WpsData :=
  [⟨WpsType.ssid, 4, .ptr [0x68, 0x6F, 0x6D, 0x65]⟩, ⟨WpsType.nwKey, 3, .ptr [0x6B, 0x65, 0x79]⟩]

theorem settings_roundTrip_example :
    (∃ stored, encryptInto quickCrypto (Vector.replicate 16 6) 2 (List.range 20 |>.map UInt8.ofNat)
        (Vector.replicate 16 4) (List.replicate 36 0) 0 = some stored ∧
      eapWpsDecryptData quickCrypto (List.replicate 16 4) (stored.take 32)
        (Vector.replicate 16 6) = some (List.range 20 |>.map UInt8.ofNat)) ∧
    ∃ encrs plain, eapWpsEncrsettingsCreation quickCrypto true (Vector.replicate 16 4)
        (some (WpsType.rSnonce1, Vector.replicate 16 2)) (wpsWriteWpsData exampleSettings)
        exampleKeys = some encrs ∧
      eapWpsDecryptData quickCrypto (encrs.take 16) (encrs.drop 16) (Vector.replicate 16 6) =
        some plain ∧
      eapWpsEncrsettingsValidation quickCrypto plain (Vector.replicate 32 5)
        (some WpsType.rSnonce1) = some (List.replicate 16 2) := by
  have both := settings_roundTrip quickCrypto fun key block => xorBlock_cancel block key
  obtain ⟨stored, done, decrypted, -⟩ := both.1 (Vector.replicate 16 4) (Vector.replicate 16 6)
    (List.range 20 |>.map UInt8.ofNat) (List.replicate 36 0) rfl
  refine ⟨⟨stored, done, decrypted⟩, both.2 true (Vector.replicate 16 4)
    (some (WpsType.rSnonce1, Vector.replicate 16 2)) exampleSettings exampleKeys ?_ ?_ ?_ ?_⟩
  · rintro tlv (_ | ⟨_, _ | ⟨_, _ | ⟨_, ⟨⟩⟩⟩⟩)
    · exact ⟨⟨_, rfl, rfl⟩, rfl⟩
    · exact ⟨⟨_, rfl, rfl⟩, rfl⟩
    · exact ⟨⟨_, rfl, rfl⟩, rfl⟩
  · decide
  · decide
  · decide

/-- Functions that do nothing, of which one undoes the other. -/
def plainCrypto : Crypto where
  sha256 _ := zeros 32
  hmacSha256 _ _ := zeros 32
  aesEncrypt _ block := block
  aesDecrypt _ block := block
  modExp base _ _ := base

def plainKeys : Keys := ⟨zeros 32, zeros 16, zeros 32⟩

/-- A configuration with a key wrap authenticator of its own. -/
def ownKeyWrapAuth : WpsData := [⟨WpsType.keyWrapAuth, 8, .ptr (List.replicate 8 1)⟩]

theorem settings_refused : (∀ tlv ∈ ownKeyWrapAuth, tlv.Valid) ∧
      ((eapWpsEncrsettingsCreation plainCrypto true (zeros 16) (some (WpsType.rSnonce1, zeros 16))
          (wpsWriteWpsData ownKeyWrapAuth) plainKeys).bind fun encrs =>
        (eapWpsDecryptData plainCrypto (encrs.take 16) (encrs.drop 16) (zeros 16)).map fun plain =>
          eapWpsEncrsettingsValidation plainCrypto plain (zeros 32) (some WpsType.rSnonce1)) =
        some none := by
  constructor
  · rintro tlv (_ | ⟨_, ⟨⟩⟩)
    exact keyWrapAuth_valid rfl
  · decide +kernel

end AthApps.Wps
