import AthApps.Wps.Attributes
import AthApps.Wps.Message

/-!
# What a message carries

A message that a builder has written is parsed to the attributes it was built
from, its authenticator is the one that the receiver computes after taking it
out again, and its encrypted settings are opened to what was sealed.
-/

set_option autoImplicit false

namespace AthApps.Wps

open Lib (Bytes)
open Option
open List hiding Vector

/-- The attributes that a list of calls of `wps_set_value` makes. -/
def sent (bigEndian : Bool) (calls : List (Nat × Source)) : WpsData :=
  calls.map fun call => given (call.1, call.2.narrowed bigEndian)

theorem wpsSetValues_eq_build (bigEndian : Bool) (calls : List (Nat × Source)) :
    ∀ wps : WpsData, wpsSetValues bigEndian wps calls =
      build bigEndian wps (calls.map fun call => Call.set call.1 call.2) := by
  induction calls with
  | nil =>
    intro wps
    rfl
  | cons call rest ih =>
    intro wps
    rw [wpsSetValues, map_cons, build]
    exact congrArg _ (funext ih)

theorem remaining_set (calls : List (Nat × Source)) :
    ∀ before : List (Nat × Source),
      remaining before (calls.map fun call => Call.set call.1 call.2) = before ++ calls := by
  induction calls with
  | nil =>
    intro before
    exact (append_nil before).symm
  | cons call rest ih =>
    intro before
    rw [map_cons, remaining, ih, append_assoc]
    rfl

variable {calls : List (Nat × Source)} {bigEndian : Bool}

/-- Calls that all return 0 make their attributes, if the counter has room. -/
theorem wpsSetValues_spec {wps : WpsData}
    (few : calls.length ≤ 255) (set : wpsSetValues bigEndian [] calls = some wps) :
    wps = sent bigEndian calls ∧ ∀ tlv ∈ wps, tlv.Valid := by
  have start : Built bigEndian [] [] := ⟨by simp, by simp, by simp, 0, rfl, fun _ => rfl⟩
  rw [wpsSetValues_eq_build] at set
  have built := build_built _ [] [] wps start set
  rw [remaining_set, nil_append] at built
  obtain ⟨laps, lengths, same⟩ := built.counted
  exact ⟨same (by omega), built.valid⟩

theorem sent_length (bigEndian : Bool) (calls : List (Nat × Source)) :
    (sent bigEndian calls).length = calls.length :=
  length_map _

variable {type : Nat}

theorem sent_find {source : Source} (found : calls.find? (·.1 == type) = some (type, source))
    (rest : WpsData) :
    wpsFind (sent bigEndian calls ++ rest) type =
      some (given (type, source.narrowed bigEndian)) := by
  rw [wpsFind, find?_append, sent, find?_map]
  show (Option.map _ (calls.find? (·.1 == type))).or _ = _
  rw [found]
  rfl

theorem sent_find_none {bigEndian : Bool} {calls : List (Nat × Source)} {type : Nat}
    (absent : calls.find? (·.1 == type) = none) (rest : WpsData) :
    wpsFind (sent bigEndian calls ++ rest) type = wpsFind rest type := by
  rw [wpsFind, find?_append, sent, find?_map]
  show (Option.map _ (calls.find? (·.1 == type))).or _ = _
  rw [absent]
  rfl

theorem sent_bytes {capacity : Nat} {value : Bytes}
    (found : calls.find? (·.1 == type) = some (type, .bytes value)) (small : value.length < 65536)
    (room : value.length ≤ capacity) (rest : WpsData) :
    wpsGetBytes (sent bigEndian calls ++ rest) type capacity = some value := by
  have kept : (Source.bytes value).narrowed bigEndian = .bytes value :=
    (Source.narrowed_eq_self bigEndian _).mpr small
  rw [wpsGetBytes, wpsGetValue, sent_find found, kept, bind_some, wpsTlvGetValue_given _ _ room]
  rfl

theorem sent_bytes_length {bigEndian : Bool} {calls : List (Nat × Source)} {type length : Nat}
    {value : Bytes} (found : calls.find? (·.1 == type) = some (type, .bytes value))
    (small : value.length < 65536) (rest : WpsData) :
    wpsGetLength (sent bigEndian calls ++ rest) type length = value.length := by
  have kept : (Source.bytes value).narrowed bigEndian = .bytes value :=
    (Source.narrowed_eq_self bigEndian _).mpr small
  rw [wpsGetLength, sent_find found, kept]
  rfl

theorem sent_u8 {value : UInt8} (found : calls.find? (·.1 == type) = some (type, .u8 value))
    (kind : ((wpsGetTlvSet type).map TlvSet.valueType).getD .ptr ≠ .bool) (rest : WpsData) :
    wpsGetU8 (sent bigEndian calls ++ rest) type = some value := by
  rw [wpsGetU8, wpsGetValue, sent_find found]
  simp only [Source.narrowed, given, valueAs, if_neg kind, bind_some, wpsTlvGetValue]

theorem sent_u16 {value : UInt16} (found : calls.find? (·.1 == type) = some (type, .u16 value))
    (rest : WpsData) : wpsGetU16 (sent bigEndian calls ++ rest) type = some value := by
  rw [wpsGetU16, wpsGetValue, sent_find found]
  rfl

theorem sent_u32 {bigEndian : Bool} {calls : List (Nat × Source)} {type : Nat} {value : UInt32}
    (found : calls.find? (·.1 == type) = some (type, .u32 value)) (rest : WpsData) :
    ∃ half, wpsGetU32 (sent bigEndian calls ++ rest) type = some half := by
  rw [wpsGetU32, wpsGetValue, sent_find found]
  exact ⟨_, rfl⟩

section

variable (crypto : Crypto) (device : Device)

variable {bigEndian : Bool}

variable {after attrs body : WpsData} {tag : Bytes}

/-- An attribute of eight bytes behind the others: the list is parsed with it,
and taking it out gives the others back. -/
theorem parse_closing {wps : WpsData} {type : Nat} (eight : tag.length = 8)
    (valid : ∀ tlv ∈ wps, tlv.Valid) (few : wps.length < 255) (absent : wpsFind wps type = none)
    (set : wpsSetValue bigEndian wps type (.bytes tag) = some after) :
    after = wps ++ [⟨type, 8, .ptr tag⟩] ∧ wpsParseWpsData (wpsWriteWpsData after) = some after ∧
      wpsRemoveValue after type = some wps ∧ ∀ capacity, 8 ≤ capacity →
        wpsGetBytes after type capacity = some tag := by
  obtain ⟨last, rfl⟩ := wpsSetValue_spec set
  have small : (Source.bytes tag).Kept bigEndian := by
    show tag.length < 65536
    omega
  have closing : given (type, (Source.bytes tag).narrowed bigEndian) = ⟨type, 8, .ptr tag⟩ := by
    rw [(Source.narrowed_eq_self bigEndian _).mpr small, given]
    simp only [Source.size, eight, valueAs]
  rw [closing] at last ⊢
  have room : ¬wps.length = 255 := by omega
  rw [if_neg room]
  have found : wpsFind (wps ++ [(⟨type, 8, .ptr tag⟩ : Tlv)]) type = some ⟨type, 8, .ptr tag⟩ := by
    unfold wpsFind at absent ⊢
    rw [find?_append, absent]
    simp
  refine ⟨rfl, ?_, ?_, ?_⟩
  · have parsed := @wpsParseWpsData_write (wps ++ [⟨type, 8, .ptr tag⟩]) ?_ ?_ [] (Nat.zero_le 4)
      (by simp) ?_
    · rw [append_nil] at parsed
      exact parsed
    · intro tlv mem
      rcases mem_append.mp mem with mem | mem
      · exact valid tlv mem
      · rw [mem_singleton] at mem
        rw [mem]
        exact last
    · rw [length_append, length_singleton]
      omega
    · rw [lastBytes, getLast?_concat]
      show tag ++ [] ≠ []
      rw [append_nil]
      intro empty
      rw [empty] at eight
      cases eight
  · rw [wpsRemoveValue, found]
    have others : ∀ tlv ∈ wps, ¬(tlv.type == type) = true := find?_eq_none.mp absent
    simp only
    rw [eraseP_append_right _ others]
    simp
  · intro capacity enough
    simp only [wpsGetBytes, wpsGetValue, found, bind_some, wpsTlvGetValue,
      if_neg (Nat.not_lt.mpr enough)]

/-- The message that a builder makes of its attributes, as the receiver reads it. -/
structure Arrives (crypto : Crypto) (before message : Bytes) (authKey : Vector UInt8 32)
    (wps : WpsData) : Prop where
  parsed : ∃ tag, wpsParseWpsData message = some (wps ++ [⟨WpsType.authenticator, 8, .ptr tag⟩]) ∧
    eapWpsHmacValidation crypto before message tag authKey = true ∧ tag.length = 8

theorem hmac_take_length (hmac : Vector UInt8 32) : (hmac.toList.take 8).length = 8 := by
  rw [length_take, Vector.length_toList]
  rfl

variable {nonce : Option (Nat × Vector UInt8 16)} {wps : WpsData}

theorem authenticate_arrives {rcvMsg message : Bytes} {keys : Keys}
    (valid : ∀ tlv ∈ wps, tlv.Valid) (few : wps.length < 255)
    (absent : wpsFind wps WpsType.authenticator = none)
    (done : authenticate crypto device rcvMsg keys wps = some message) :
    Arrives crypto rcvMsg message keys.authKey wps := by
  obtain ⟨after, set, rfl⟩ := map_eq_some_iff.mp done
  have eight := hmac_take_length
    (crypto.hmacSha256 keys.authKey.toList (rcvMsg ++ wpsWriteWpsData wps))
  obtain ⟨rfl, parsed, removed, -⟩ := parse_closing eight valid few absent set
  refine ⟨_, parsed, ?_, eight⟩
  rw [eapWpsHmacValidation, parsed, bind_some, removed]
  exact beq_self_eq_true _

theorem bufferOf_toList {n : Nat} {bytes : Bytes} (full : bytes.length = n) :
    (bufferOf n bytes).toList = bytes := by
  have all : (bytes ++ (zeros n).toList.drop bytes.length).take n = bytes := by
    rw [drop_of_length_le (by rw [Vector.length_toList]; omega), append_nil,
      take_of_length_le (by omega)]
  show ((bytes ++ (zeros n).toList.drop bytes.length).take n).toArray.toList = bytes
  rw [all]

theorem bufferOf_vector {n : Nat} (bytes : Vector UInt8 n) : bufferOf n bytes.toList = bytes := by
  apply Vector.toList_inj.mp
  exact bufferOf_toList (Vector.length_toList)

theorem xorBlock_cancel (block mask : Vector UInt8 16) :
    xorBlock (xorBlock block mask) mask = block := by
  apply Vector.ext
  intro place inside
  simp only [xorBlock, Vector.getElem_zipWith]
  rw [UInt8.xor_assoc, UInt8.xor_self, UInt8.xor_zero]

theorem encryptBlocks_length (key : Vector UInt8 16) (blocks : Nat) :
    ∀ (inbuf : Bytes) (last : Vector UInt8 16), inbuf.length / 16 + 1 = blocks →
      (encryptBlocks crypto key blocks inbuf last).length = 16 * blocks := by
  induction blocks with
  | zero =>
    intro inbuf last count
    cases count
  | succ blocks ih =>
    intro inbuf last count
    rw [encryptBlocks]
    split
    · rw [Vector.length_toList]
      omega
    · rw [length_append, Vector.length_toList, ih _ _ (by rw [length_drop]; omega)]
      omega

theorem padded_block {inbuf : Bytes} (short : inbuf.length < 16) :
    let npad := 16 - inbuf.length
    let block := bufferOf 16 (inbuf.take 16 ++ List.replicate npad (UInt8.ofNat npad))
    block[15].toNat = npad ∧ block.toList.take (16 - npad) = inbuf := by
  intro npad block
  have whole : inbuf.take 16 = inbuf := take_of_length_le (by omega)
  have bytes : block.toList = inbuf ++ List.replicate npad (UInt8.ofNat npad) := by
    show (bufferOf 16 _).toList = _
    rw [whole, bufferOf_toList]
    rw [length_append, length_replicate]
    omega
  constructor
  · have last : block.toList[15]? = some (UInt8.ofNat npad) := by
      rw [bytes, getElem?_append_right (by omega), getElem?_replicate_of_lt (by omega)]
    have same : block[15] = UInt8.ofNat npad := by
      rw [Vector.getElem?_toList] at last
      exact (Vector.getElem?_eq_some_iff.mp last).2
    rw [same]
    exact UInt8.toNat_ofNat_of_lt' (show npad < 256 by omega)
  · rw [bytes, take_left' (by omega)]

theorem decryptBlocks_encryptBlocks
    (inverse : ∀ key block, crypto.aesDecrypt key (crypto.aesEncrypt key block) = block)
    (key : Vector UInt8 16) (blocks : Nat) :
    ∀ (inbuf : Bytes) (last : Vector UInt8 16), inbuf.length / 16 + 1 = blocks →
      decryptBlocks crypto key blocks (encryptBlocks crypto key blocks inbuf last) last =
        some inbuf := by
  induction blocks with
  | zero =>
    intro inbuf last count
    cases count
  | succ blocks ih =>
    intro inbuf last count
    rw [decryptBlocks, encryptBlocks]
    simp only
    by_cases short : inbuf.length < 16
    · obtain ⟨npad, plain⟩ := padded_block short
      have single : blocks = 0 := by omega
      have room : 0 < 16 - inbuf.length ∧ 16 - inbuf.length ≤ 16 := by omega
      rw [if_pos short, if_pos single, take_of_length_le (Nat.le_of_eq Vector.length_toList),
        bufferOf_vector, inverse, xorBlock_cancel, npad, if_pos room, plain]
    · have more : ¬blocks = 0 := by omega
      have none : 16 - inbuf.length = 0 := by omega
      have sixteen : (inbuf.take 16).length = 16 := by
        rw [length_take]
        omega
      rw [if_neg short, if_neg more, take_left' Vector.length_toList,
        drop_left' Vector.length_toList, bufferOf_vector, inverse, xorBlock_cancel, none,
        replicate_zero, append_nil, bufferOf_toList sixteen,
        ih _ _ (by rw [length_drop]; omega), map_some, take_append_drop]

theorem eapWpsDecryptData_encrypt
    (inverse : ∀ key block, crypto.aesDecrypt key (crypto.aesEncrypt key block) = block)
    (iv : Vector UInt8 16) (plain : Bytes) (key : Vector UInt8 16) :
    eapWpsDecryptData crypto iv.toList (eapWpsEncryptData crypto iv plain key) key =
      some plain := by
  have length := encryptBlocks_length crypto key _ plain iv rfl
  rw [← eapWpsEncryptData] at length
  have whole : ¬((eapWpsEncryptData crypto iv plain key).length = 0 ∨
      (eapWpsEncryptData crypto iv plain key).length % 16 ≠ 0) := by
    rw [length]
    omega
  have count : (eapWpsEncryptData crypto iv plain key).length / 16 = plain.length / 16 + 1 := by
    rw [length]
    omega
  rw [eapWpsDecryptData, if_neg whole, count, bufferOf_vector]
  exact decryptBlocks_encryptBlocks crypto inverse key _ plain iv rfl

/-- Attributes that the settings of a message can carry. -/
structure Carried (attrs : WpsData) : Prop where
  valid : ∀ tlv ∈ attrs, tlv.Valid
  few : attrs.length ≤ 250
  last : attrs ≠ [] → lastBytes attrs [] ≠ []
  absent : wpsFind attrs WpsType.keyWrapAuth = none
  short : (wpsWriteWpsData attrs).length ≤ 60000

def nonceAttribute : Option (Nat × Vector UInt8 16) → WpsData
  | none => []
  | some (type, nonce) => [⟨type, 16, .ptr nonce.toList⟩]

def emptyNwKey : Tlv := ⟨WpsType.nwKey, 0, .ptr []⟩

theorem wpsWriteWpsData_eq_nil (empty : wpsWriteWpsData wps = []) : wps = [] := by
  apply Classical.byContradiction
  intro present
  have long := wpsWriteWpsData_length_pos present
  rw [empty] at long
  cases long

theorem set_nonce {type : Nat} {nonce : Vector UInt8 16}
    (set : wpsSetValue bigEndian [] type (.bytes nonce.toList) = some wps) :
    wps = [⟨type, 16, .ptr nonce.toList⟩] ∧ ∀ tlv ∈ wps, tlv.Valid := by
  obtain ⟨valid, rfl⟩ := wpsSetValue_spec set
  have sixteen : nonce.toList.length = 16 := Vector.length_toList
  have small : (Source.bytes nonce.toList).Kept bigEndian := by
    show nonce.toList.length < 65536
    omega
  have same : given (type, (Source.bytes nonce.toList).narrowed bigEndian) =
      ⟨type, 16, .ptr nonce.toList⟩ := by
    rw [(Source.narrowed_eq_self bigEndian _).mpr small, given]
    simp only [Source.size, sixteen, valueAs]
  rw [same] at valid ⊢
  refine ⟨rfl, ?_⟩
  intro tlv mem
  cases mem_singleton.mp mem
  exact valid

theorem settingsBody_behind {head : WpsData} (carried : Carried attrs) (headFew : head.length ≤ 1)
    (headValid : ∀ tlv ∈ head, tlv.Valid) (made : (if wpsWriteWpsData attrs = [] then some head
      else (wpsParseWpsData (wpsWriteWpsData head ++ wpsWriteWpsData attrs)).bind fun wps =>
        if wpsGetNwKeyLen bigEndian wps = 0 then
          wpsSetValue bigEndian wps WpsType.nwKey (.bytes [])
        else some wps) = some body) :
    ∃ added, body = head ++ attrs ++ added ∧ (added = [] ∨ added = [emptyNwKey]) ∧
      ∀ tlv ∈ body, tlv.Valid := by
  have few := carried.few
  by_cases empty : wpsWriteWpsData attrs = []
  · rw [if_pos empty] at made
    cases made
    have none := wpsWriteWpsData_eq_nil empty
    subst none
    exact ⟨[], by simp, Or.inl rfl, headValid⟩
  · rw [if_neg empty] at made
    have present : attrs ≠ [] := by
      intro none
      exact empty (by rw [none]; rfl)
    have valid : ∀ tlv ∈ head ++ attrs, tlv.Valid := by
      intro tlv mem
      rcases mem_append.mp mem with mem | mem
      · exact headValid tlv mem
      · exact carried.valid tlv mem
    have last : lastBytes (head ++ attrs) [] ≠ [] := by
      have behind := carried.last present
      unfold lastBytes at behind ⊢
      rw [getLast?_append_of_ne_nil _ present]
      exact behind
    have parsed := wpsParseWpsData_write valid (by rw [length_append]; omega) []
      (Nat.zero_le 4) (by simp [present]) last
    rw [append_nil, wpsWriteWpsData_append] at parsed
    rw [parsed, bind_some] at made
    split at made
    · obtain ⟨key, rfl⟩ := wpsSetValue_spec made
      have room : ¬(head ++ attrs).length = 255 := by
        rw [length_append]
        omega
      rw [if_neg room]
      refine ⟨[emptyNwKey], rfl, Or.inr rfl, ?_⟩
      intro tlv mem
      rcases mem_append.mp mem with mem | mem
      · exact valid tlv mem
      · cases mem_singleton.mp mem
        exact key
    · cases made
      exact ⟨[], (append_nil _).symm, Or.inl rfl, valid⟩

theorem settingsBody_spec (carried : Carried attrs)
    (made : settingsBody bigEndian nonce (wpsWriteWpsData attrs) = some body) :
    ∃ added, body = nonceAttribute nonce ++ attrs ++ added ∧ (added = [] ∨ added = [emptyNwKey]) ∧
      ∀ tlv ∈ body, tlv.Valid := by
  match nonce, made with
  | none, made =>
    have headValid : ∀ tlv ∈ nonceAttribute none, tlv.Valid := by simp [nonceAttribute]
    exact settingsBody_behind carried (Nat.zero_le 1) headValid made
  | some (type, nonce), made =>
    obtain ⟨wps, first, made⟩ := bind_eq_some_iff.mp
      (show (wpsSetValue bigEndian [] type (.bytes nonce.toList)).bind _ = some body from made)
    obtain ⟨rfl, headValid⟩ := set_nonce first
    exact settingsBody_behind carried (Nat.le_refl 1) headValid made

/-- Settings that the owner of the same keys opens. -/
structure Opens (crypto : Crypto) (keys : Keys) (nonce : Option (Nat × Vector UInt8 16))
    (attrs : WpsData) (encrs : Bytes) : Prop where
  sized : 0 < encrs.length ∧ encrs.length < 65536
  opened : ∃ added tag, (added = [] ∨ added = [emptyNwKey]) ∧
    let settings := nonceAttribute nonce ++ attrs ++ added ++ [⟨WpsType.keyWrapAuth, 8, .ptr tag⟩]
    eapWpsDecryptData crypto (encrs.take 16) (encrs.drop 16) keys.keyWrapKey =
      some (wpsWriteWpsData settings) ∧
    wpsParseWpsData (wpsWriteWpsData settings) = some settings ∧
    eapWpsEncrsettingsValidation crypto (wpsWriteWpsData settings) keys.authKey
      (nonce.map Prod.fst) = some ((nonce.map fun nonce => nonce.2.toList).getD [])

variable {nonceType : Option Nat}

theorem eapWpsEncrsettingsValidation_eq {plain nonce : Bytes} {wps : WpsData}
    {authKey : Vector UInt8 32} (parsed : wpsParseWpsData plain = some wps)
    (found : ∀ type, nonceType = some type → wpsGetBytes wps type 16 = some nonce)
    (absent : nonceType = none → nonce = [])
    (auth : wpsGetBytes wps WpsType.keyWrapAuth 8 = some tag)
    (removed : wpsRemoveValue wps WpsType.keyWrapAuth = some body)
    (same : (crypto.hmacSha256 authKey.toList (wpsWriteWpsData body)).toList.take 8 = tag) :
    eapWpsEncrsettingsValidation crypto plain authKey nonceType = some nonce := by
  rw [eapWpsEncrsettingsValidation, parsed]
  match nonceType with
  | none =>
    rw [absent rfl]
    simp only [bind_eq_bind, bind_some, auth, removed, if_pos same]
  | some type => simp only [bind_eq_bind, bind_some, found type rfl, auth, removed, if_pos same]

theorem write_closing_length (type : Nat) (eight : tag.length = 8) (wps : WpsData) :
    (wpsWriteWpsData (wps ++ [⟨type, 8, .ptr tag⟩])).length =
      (wpsWriteWpsData wps).length + 12 := by
  rw [wpsWriteWpsData_append, length_append, wpsWriteWpsData_cons, length_append, Tlv.write_length]
  show _ + (4 + tag.length + 0) = _
  rw [eight]

theorem sealed_length (iv : Vector UInt8 16) (plain : Bytes) (key : Vector UInt8 16) :
    (iv.toList ++ eapWpsEncryptData crypto iv plain key).length =
      16 + 16 * (plain.length / 16 + 1) := by
  rw [length_append, Vector.length_toList, eapWpsEncryptData,
    encryptBlocks_length crypto key _ plain iv rfl]

/-- Settings that are closed with their authenticator are opened with the same keys. -/
theorem closed_opens
    (inverse : ∀ key block, crypto.aesDecrypt key (crypto.aesEncrypt key block) = block)
    (iv : Vector UInt8 16) (keys : Keys) {value : Bytes} (valid : ∀ tlv ∈ body, tlv.Valid)
    (room : body.length < 255) (absent : wpsFind body WpsType.keyWrapAuth = none)
    (found : ∀ type, nonceType = some type →
      ∀ rest, wpsGetBytes (body ++ rest) type 16 = some value)
    (none : nonceType = none → value = [])
    (set : wpsSetValue bigEndian body WpsType.keyWrapAuth (.bytes
      ((crypto.hmacSha256 keys.authKey.toList (wpsWriteWpsData body)).toList.take 8)) =
        some after) :
    let encrs := iv.toList ++ eapWpsEncryptData crypto iv (wpsWriteWpsData after) keys.keyWrapKey
    eapWpsDecryptData crypto (encrs.take 16) (encrs.drop 16) keys.keyWrapKey =
      some (wpsWriteWpsData after) ∧
    eapWpsEncrsettingsValidation crypto (wpsWriteWpsData after) keys.authKey nonceType =
      some value := by
  have eight := hmac_take_length (crypto.hmacSha256 keys.authKey.toList (wpsWriteWpsData body))
  obtain ⟨rfl, parsed, removed, got⟩ := parse_closing eight valid room absent set
  have sixteen : iv.toList.length = 16 := Vector.length_toList
  constructor
  · rw [take_left' sixteen, drop_left' sixteen]
    exact eapWpsDecryptData_encrypt crypto inverse iv _ _
  · exact eapWpsEncrsettingsValidation_eq crypto parsed (fun type isType => found type isType _)
      none (got 8 (Nat.le_refl 8)) removed rfl

theorem eapWpsEncrsettingsCreation_opens
    (inverse : ∀ key block, crypto.aesDecrypt key (crypto.aesEncrypt key block) = block)
    {iv : Vector UInt8 16} {keys : Keys} {encrs : Bytes} (carried : Carried attrs)
    (other : ∀ type value, nonce = some (type, value) → type ≠ WpsType.keyWrapAuth)
    (made : eapWpsEncrsettingsCreation crypto bigEndian iv nonce (wpsWriteWpsData attrs) keys =
      some encrs) : Opens crypto keys nonce attrs encrs := by
  obtain ⟨body, bodyMade, made⟩ := bind_eq_some_iff.mp made
  obtain ⟨after, set, made⟩ := bind_eq_some_iff.mp made
  cases made
  obtain ⟨added, rfl, alternatives, valid⟩ := settingsBody_spec carried bodyMade
  have few := carried.few
  have short := carried.short
  have head : (nonceAttribute nonce).length ≤ 1 ∧
      (wpsWriteWpsData (nonceAttribute nonce)).length ≤ 20 ∧
      wpsFind (nonceAttribute nonce) WpsType.keyWrapAuth = none := by
    match nonce, other with
    | none, _ => exact ⟨Nat.zero_le 1, Nat.zero_le 20, rfl⟩
    | some (type, value), other =>
      have distinct := other type value rfl
      refine ⟨Nat.le_refl 1, ?_, ?_⟩
      · simp [nonceAttribute, wpsWriteWpsData, Tlv.write, Value.bytes]
      · simp [nonceAttribute, wpsFind, distinct]
  have key : added.length ≤ 1 ∧ (wpsWriteWpsData added).length ≤ 4 ∧
      wpsFind added WpsType.keyWrapAuth = none := by
    rcases alternatives with rfl | rfl
    · exact ⟨Nat.zero_le 1, Nat.zero_le 4, rfl⟩
    · exact ⟨Nat.le_refl 1, Nat.le_refl 4, rfl⟩
  have room : (nonceAttribute nonce ++ attrs ++ added).length < 255 := by
    simp only [length_append]
    omega
  have absent : wpsFind (nonceAttribute nonce ++ attrs ++ added) WpsType.keyWrapAuth = none := by
    have none := carried.absent
    unfold wpsFind at none head key ⊢
    rw [find?_append, find?_append, head.2.2, none, key.2.2]
    rfl
  have eight := hmac_take_length (crypto.hmacSha256 keys.authKey.toList
    (wpsWriteWpsData (nonceAttribute nonce ++ attrs ++ added)))
  have nonceFound : ∀ type, nonce.map Prod.fst = some type → ∀ rest,
      wpsGetBytes (nonceAttribute nonce ++ attrs ++ added ++ rest) type 16 =
        some ((nonce.map fun nonce => nonce.2.toList).getD []) := by
    intro type isType rest
    obtain ⟨⟨_, value⟩, rfl, rfl⟩ := map_eq_some_iff.mp isType
    simp [nonceAttribute, wpsGetBytes, wpsGetValue, wpsFind, wpsTlvGetValue]
  have opened := closed_opens crypto inverse iv keys valid room absent nonceFound
    (fun isNone => by rw [map_eq_none_iff.mp isNone]; rfl) set
  obtain ⟨rfl, parsed, -⟩ := parse_closing eight valid room absent set
  constructor
  · have plain : (wpsWriteWpsData (nonceAttribute nonce ++ attrs ++ added)).length ≤ 60024 := by
      rw [wpsWriteWpsData_append, wpsWriteWpsData_append, length_append, length_append]
      omega
    rw [sealed_length, write_closing_length WpsType.keyWrapAuth eight]
    omega
  · exact ⟨added, _, alternatives, opened.1, parsed, opened.2⟩

end

end AthApps.Wps
