import AthApps.Wps.Sealing
import AthApps.Wps.Session

/-!
# The configuration an access point hands out

`wps_get_ap_ssid_configuration` of `hostapd/wps_config.c`: the network of the
access point as a list of attributes, for a credential or for M7.  A mixed
configuration has no attribute of its own, so the caller asks twice, for the
best and for the worst of it.
-/

set_option autoImplicit false

namespace AthApps.Wps

open Lib (Bytes)
open Option
open List hiding Vector

/-- `struct hostapd_wep_keys`; a key that is not set is empty. -/
structure WepKeys where
  idx : Nat
  keys : Vector Bytes 4
  keysSet : Bool

/-- The fields of `struct hostapd_bss_config` and `struct hostapd_ssid` that
make up the network, and the address of the access point.  The reader of the
configuration file checks the lengths of the SSID and the passphrase; a line of
the file is shorter than 256 bytes. -/
structure Bss where
  ssid : Bytes
  wpa : Nat
  wpaKeyMgmt : Nat
  wpaPairwise : Nat
  authAlgs : Nat
  wep : WepKeys
  wpaPassphrase : Option Bytes
  wpaPsk : Option (Vector UInt8 32)
  ownAddr : Vector UInt8 6
  ssidFits : ssid.length ≤ 32
  keysFit : ∀ key ∈ wep.keys.toList, key.length < 256
  passphraseFits : ∀ passphrase, wpaPassphrase = some passphrase → passphrase.length ≤ 63

/-- The two static buffers, filled when a configuration is first invented. -/
structure Invented where
  addr : Vector UInt8 6
  psk : Vector UInt8 32

def isHex (data : Bytes) : Bool := data.any fun byte => byte < 32 || 127 ≤ byte

/-- The digits of `%02X`, or of `%02x` where `letter` is the lower case one. -/
def hexDigits (letter : Nat) (byte : UInt8) : Bytes :=
  [byte.toNat / 16, byte.toNat % 16].map fun digit =>
    UInt8.ofNat (if digit < 10 then 48 + digit else letter + (digit - 10))

def wpaSnprintfHexUppercase (data : Bytes) : Bytes := data.flatMap (hexDigits 65)

/-- `"Network-"` and the address in lower case digits. -/
def newSsid (addr : Vector UInt8 6) : Bytes :=
  [0x4E, 0x65, 0x74, 0x77, 0x6F, 0x72, 0x6B, 0x2D] ++ addr.toList.flatMap (hexDigits 97)

/-- `WPS_CONFIG_QUALITY_WORST`; any other number asks for the best. -/
def qualityWorst : Nat := 1

def byQuality (quality flags better worse : Nat) (best worst : UInt16) : UInt16 :=
  if flags &&& (better ||| worse) = better ||| worse then
    if quality = qualityWorst then worst else best
  else if flags &&& better ≠ 0 then
    best
  else if flags &&& worse ≠ 0 then
    worst
  else
    0

def byVersion (quality wpa : Nat) (wpa2 wpa1 : UInt16) : UInt16 :=
  byQuality quality wpa 2 1 wpa2 wpa1

/-- `WPS_ENCRTYPE_AES` for CCMP before `WPS_ENCRTYPE_TKIP` -/
def byCipher (quality wpaPairwise : Nat) : UInt16 := byQuality quality wpaPairwise 16 8 0x08 0x04

/-- The local variables `auth`, `encr`, `enabled8021x` and `nwKeyIdx`. -/
structure Security where
  auth : UInt16
  encr : UInt16
  enabled8021x : Bool
  nwKeyIdx : Int

def Bss.security (bss : Bss) (quality : Nat) : Option Security :=
  if bss.wpaKeyMgmt &&& 1 ≠ 0 then
    let auth := byVersion quality bss.wpa 0x10 0x08
    if auth = 0 then some ⟨0x01, 0x02, true, -1⟩
    else some ⟨auth, byCipher quality bss.wpaPairwise, true, -1⟩
  else if bss.wpaKeyMgmt &&& 2 ≠ 0 then
    let auth := byVersion quality bss.wpa 0x20 0x02
    if auth = 0 then none else some ⟨auth, byCipher quality bss.wpaPairwise, false, 0⟩
  else
    let shared : Bool := bss.authAlgs &&& 2 ≠ 0
    some
      { auth := if shared then 0x04 else 0x01
        encr := if bss.wep.keysSet then 0x02 else 0x01
        enabled8021x := false
        nwKeyIdx := if shared || bss.wep.keysSet then (bss.wep.idx : Int) + 1 else -1 }

def autoSecurity (quality : Nat) : Security :=
  if quality = qualityWorst then ⟨0x02, 0x04, false, -1⟩ else ⟨0x20, 0x08, false, -1⟩

def Bss.wepKey (bss : Bss) (idx : Nat) : Bytes := bss.wep.keys.toList.getD idx []

/-- The network key as it is sent; nothing is sent for an empty one. -/
def Bss.networkKey (bss : Bss) (invented : Option Invented) (nwKeyIdx : Int) : Bytes :=
  match invented with
  | some invented => wpaSnprintfHexUppercase invented.psk.toList
  | none =>
    if 0 < nwKeyIdx then
      let key := bss.wepKey (nwKeyIdx.toNat - 1)
      if isHex key then wpaSnprintfHexUppercase key else key
    else if nwKeyIdx = 0 then
      match bss.wpaPassphrase, bss.wpaPsk with
      | some passphrase, _ => passphrase
      | none, some psk => wpaSnprintfHexUppercase psk.toList
      | none, none => []
    else
      []

/-- The calls of `wps_set_value` in order. -/
def Bss.attributes (bss : Bss) (invented : Option Invented) (security : Security)
    (inband : Bool) (nwIdx : Nat) : List (Nat × Source) :=
  let key := bss.networkKey invented security.nwKeyIdx
  let macAddr : Nat × Source := (WpsType.macAddr, .bytes bss.ownAddr.toList)
  (if 0 < nwIdx then [(WpsType.nwIndex, .u8 (UInt8.ofNat nwIdx))] else []) ++
    [(WpsType.ssid, .bytes ((invented.map fun invented => newSsid invented.addr).getD bss.ssid))] ++
    (if inband then [macAddr] else []) ++
    [(WpsType.authType, .u16 security.auth), (WpsType.encrType, .u16 security.encr)] ++
    (if 0 < security.nwKeyIdx then
      [(WpsType.nwKeyIndex, .u8 (UInt8.ofNat security.nwKeyIdx.toNat))]
    else []) ++
    (if key ≠ [] then [(WpsType.nwKey, .bytes key)] else []) ++
    (if inband then [] else [macAddr]) ++
    (if security.enabled8021x then [(WpsType.ieee8021xEnabled, .u8 1)] else [])

def wpsGetApSsidConfiguration (bigEndian : Bool) (bss : Bss) (invented : Invented)
    (inband : Bool) (nwIdx quality : Nat) (autoconfig : Bool) : Option Bytes := do
  let security ← bss.security quality
  let security := if autoconfig then autoSecurity quality else security
  let calls := bss.attributes (if autoconfig then some invented else none) security inband nwIdx
  (wpsSetValues bigEndian [] calls).map wpsWriteWpsData

theorem wpaSnprintfHexUppercase_length (data : Bytes) :
    (wpaSnprintfHexUppercase data).length = 2 * data.length := by
  induction data with
  | nil => rfl
  | cons byte rest ih =>
    rw [wpaSnprintfHexUppercase, flatMap_cons, length_append]
    show 2 + (wpaSnprintfHexUppercase rest).length = _
    rw [ih, length_cons]
    omega

theorem Bss.wepKey_length (bss : Bss) (idx : Nat) : (bss.wepKey idx).length < 256 := by
  unfold Bss.wepKey
  rw [getD_eq_getElem?_getD]
  cases found : bss.wep.keys.toList[idx]? with
  | none => exact Nat.zero_lt_succ 255
  | some key => exact bss.keysFit key (mem_of_getElem? found)

theorem Bss.networkKey_length (bss : Bss) (invented : Option Invented) (nwKeyIdx : Int) :
    (bss.networkKey invented nwKeyIdx).length ≤ 512 := by
  unfold Bss.networkKey
  split
  · rw [wpaSnprintfHexUppercase_length, Vector.length_toList]
    omega
  · have short := bss.wepKey_length (nwKeyIdx.toNat - 1)
    split
    · simp only
      split
      · rw [wpaSnprintfHexUppercase_length]
        omega
      · omega
    · split
      · split
        · rename_i passphrase found
          have fits := bss.passphraseFits passphrase found
          omega
        · rw [wpaSnprintfHexUppercase_length, Vector.length_toList]
          omega
        · exact Nat.zero_le _
      · exact Nat.zero_le _

theorem newSsid_length (addr : Vector UInt8 6) : (newSsid addr).length = 20 := by
  have each : ∀ bytes : Bytes, (bytes.flatMap (hexDigits 97)).length = 2 * bytes.length := by
    intro bytes
    induction bytes with
    | nil => rfl
    | cons byte rest ih =>
      rw [flatMap_cons, length_append, ih, length_cons]
      show 2 + _ = _
      omega
  rw [newSsid, length_append, each, Vector.length_toList]
  rfl

def networkTypes : List Nat :=
  [WpsType.nwIndex, WpsType.ssid, WpsType.macAddr, WpsType.authType, WpsType.encrType,
    WpsType.nwKeyIndex, WpsType.nwKey, WpsType.ieee8021xEnabled]

/-- An attribute of a network: its type, its size, and whether it may be empty. -/
structure NetworkCall (call : Nat × Source) : Prop where
  type : call.1 ∈ networkTypes
  size : call.2.size ≤ 512
  filled : call.1 ≠ WpsType.ssid → call.2.size ≠ 0

theorem Bss.attributes_network (bss : Bss) (invented : Option Invented) (security : Security)
    (inband : Bool) (nwIdx : Nat) :
    ∀ call ∈ bss.attributes invented security inband nwIdx, NetworkCall call := by
  have keyShort := bss.networkKey_length invented security.nwKeyIdx
  have mac : (Source.bytes bss.ownAddr.toList).size = 6 := Vector.length_toList
  have name : ((invented.map fun invented => newSsid invented.addr).getD bss.ssid).length ≤ 32 := by
    cases invented with
    | none => exact bss.ssidFits
    | some invented =>
      show (newSsid invented.addr).length ≤ 32
      rw [newSsid_length]
      omega
  have macCall : NetworkCall (WpsType.macAddr, .bytes bss.ownAddr.toList) :=
    ⟨show WpsType.macAddr ∈ networkTypes by decide, by rw [mac]; omega, by intro _; rw [mac]; omega⟩
  have number : ∀ type ∈ networkTypes, ∀ source : Source, source.size ≤ 512 → source.size ≠ 0 →
      NetworkCall (type, source) := by
    intro type mem source size filled
    exact ⟨mem, size, fun _ => filled⟩
  intro call mem
  simp only [Bss.attributes, mem_append, mem_ite_nil_right, mem_ite_nil_left,
    mem_cons, not_mem_nil, or_false] at mem
  rcases mem with ((((((⟨-, rfl⟩ | rfl) | ⟨-, rfl⟩) | rfl | rfl) | ⟨-, rfl⟩) | ⟨key, rfl⟩) |
    ⟨-, rfl⟩) | ⟨-, rfl⟩
  · exact number _ (by decide) _ (Nat.le_of_ble_eq_true rfl) Nat.one_ne_zero
  · exact ⟨show WpsType.ssid ∈ networkTypes by decide, Nat.le_trans name (by decide),
      fun other => absurd rfl other⟩
  · exact macCall
  · exact number _ (by decide) _ (Nat.le_of_ble_eq_true rfl) (Nat.succ_ne_zero 1)
  · exact number _ (by decide) _ (Nat.le_of_ble_eq_true rfl) (Nat.succ_ne_zero 1)
  · exact number _ (by decide) _ (Nat.le_of_ble_eq_true rfl) Nat.one_ne_zero
  · refine number _ (by decide) _ keyShort ?_
    intro empty
    exact key (length_eq_zero_iff.mp empty)
  · exact macCall
  · exact number _ (by decide) _ (Nat.le_of_ble_eq_true rfl) Nat.one_ne_zero

theorem Bss.attributes_last (bss : Bss) (invented : Option Invented) (security : Security)
    (inband : Bool) (nwIdx : Nat) :
    (bss.attributes invented security inband nwIdx).length ≤ 9 ∧
      ∃ call, (bss.attributes invented security inband nwIdx).getLast? = some call ∧
        call.1 ≠ WpsType.ssid := by
  have piece : ∀ (present : Prop) [Decidable present] (call : Nat × Source),
      (if present then [call] else []).length ≤ 1 ∧ (if present then [] else [call]).length ≤ 1 := by
    intro present _ call
    split
    · exact ⟨Nat.le_refl 1, Nat.zero_le 1⟩
    · exact ⟨Nat.zero_le 1, Nat.le_refl 1⟩
  have extend : ∀ (calls added : List (Nat × Source)),
      (∃ call, calls.getLast? = some call ∧ call.1 ≠ WpsType.ssid) →
      (∀ call ∈ added, call.1 ≠ WpsType.ssid) →
      ∃ call, (calls ++ added).getLast? = some call ∧ call.1 ≠ WpsType.ssid := by
    intro calls added last other
    rcases eq_nil_or_concat added with rfl | ⟨front, call, rfl⟩
    · rw [append_nil]
      exact last
    · rw [concat_eq_append] at other ⊢
      rw [← append_assoc]
      exact ⟨call, getLast?_concat, other call (by simp)⟩
  unfold Bss.attributes
  constructor
  · simp only [length_append, length_cons, length_nil]
    have first := (piece (0 < nwIdx) (WpsType.nwIndex, .u8 (UInt8.ofNat nwIdx))).1
    have mac := piece (inband = true) (WpsType.macAddr, .bytes bss.ownAddr.toList)
    have index := (piece (0 < security.nwKeyIdx)
      (WpsType.nwKeyIndex, .u8 (UInt8.ofNat security.nwKeyIdx.toNat))).1
    have key := (piece (bss.networkKey invented security.nwKeyIdx ≠ [])
      (WpsType.nwKey, .bytes (bss.networkKey invented security.nwKeyIdx))).1
    have port := (piece (security.enabled8021x = true) (WpsType.ieee8021xEnabled, .u8 1)).1
    omega
  · have other : ∀ (present : Prop) [Decidable present] (type : Nat) (source : Source),
        type ≠ WpsType.ssid →
        (∀ call ∈ (if present then [(type, source)] else []), call.1 ≠ WpsType.ssid) ∧
          ∀ call ∈ (if present then [] else [(type, source)]), call.1 ≠ WpsType.ssid := by
      intro present _ type source distinct
      constructor
      · intro call mem
        obtain ⟨-, mem⟩ := mem_ite_nil_right.mp mem
        rw [mem_singleton.mp mem]
        exact distinct
      · intro call mem
        obtain ⟨-, mem⟩ := mem_ite_nil_left.mp mem
        rw [mem_singleton.mp mem]
        exact distinct
    refine extend _ _ (extend _ _ (extend _ _ (extend _ _ ?_ ?_) ?_) ?_) ?_
    · refine ⟨_, getLast?_append_of_ne_nil _ (by simp), ?_⟩
      show WpsType.encrType ≠ WpsType.ssid
      decide
    · exact (other _ _ _ (by decide)).1
    · exact (other _ _ _ (by decide)).1
    · exact (other _ _ _ (by decide)).2
    · exact (other _ _ _ (by decide)).1

variable {bigEndian autoconfig : Bool}

theorem carried_of_calls {calls : List (Nat × Source)} {wps : WpsData} (bound : Nat)
    (set : wpsSetValues bigEndian [] calls = some wps) (few : calls.length ≤ 9)
    (small : ∀ call ∈ calls, call.2.size ≤ bound) (fits : bound ≤ 6000)
    (last : ∀ call, calls.getLast? = some call → call.2.size ≠ 0)
    (absent : ∀ call ∈ calls, call.1 ≠ WpsType.keyWrapAuth) :
    Carried wps ∧ (wpsWriteWpsData wps).length ≤ calls.length * (4 + bound) := by
  obtain ⟨rfl, valid⟩ := wpsSetValues_spec (by omega) set
  have same : sent bigEndian calls = calls.map fun call => given (call.1, call.2.narrowed bigEndian) :=
    rfl
  have narrow : ∀ source : Source, (source.narrowed bigEndian).size ≤ source.size ∧
      (source.size ≤ 6000 → (source.narrowed bigEndian).size = source.size) := by
    intro source
    cases source with
    | u8 value => exact ⟨Nat.le_refl _, fun _ => rfl⟩
    | u16 value => exact ⟨Nat.le_refl _, fun _ => rfl⟩
    | u32 value => exact ⟨Nat.le_refl _, fun _ => rfl⟩
    | bytes value =>
      simp only [Source.narrowed, Source.size, length_take]
      omega
  have length : (wpsWriteWpsData (sent bigEndian calls)).length ≤ calls.length * (4 + bound) := by
    clear last absent set valid same few
    induction calls with
    | nil => exact Nat.zero_le _
    | cons call rest ih =>
      have here := small call mem_cons_self
      have shorter := (narrow call.2).1
      have later := ih fun other mem => small other (mem_cons_of_mem _ mem)
      rw [sent, map_cons, wpsWriteWpsData_cons, length_append, Tlv.write_length,
        given, valueAs_bytes, length_cons, Nat.add_mul]
      rw [sent] at later
      simp only at shorter ⊢
      omega
  refine ⟨⟨valid, ?_, ?_, ?_, ?_⟩, length⟩
  · rw [sent_length]
    omega
  · intro present
    rw [lastBytes, same, getLast?_map]
    cases final : calls.getLast? with
    | none =>
      rw [getLast?_eq_none_iff.mp final] at present
      exact absurd rfl present
    | some call =>
      have size := small call (mem_of_getLast? final)
      have whole := (narrow call.2).2 (by omega)
      intro empty
      have lengths := congrArg List.length empty
      simp only [map_some, given, append_nil, valueAs_bytes, length_nil] at lengths
      exact last call final (whole.symm.trans lengths)
  · rw [wpsFind, same, find?_map, map_eq_none_iff]
    apply find?_eq_none.mpr
    intro call mem found
    exact absent call mem (beq_iff_eq.mp found)
  · have product : calls.length * (4 + bound) ≤ 9 * 6004 := Nat.mul_le_mul few (by omega)
    omega

theorem wpsGetApSsidConfiguration_carried {bss : Bss} {invented : Invented} {inband : Bool}
    {nwIdx quality : Nat} {config : Bytes}
    (got : wpsGetApSsidConfiguration bigEndian bss invented inband nwIdx quality autoconfig =
      some config) :
    ∃ attrs, config = wpsWriteWpsData attrs ∧ attrs ≠ [] ∧ Carried attrs ∧ config.length ≤ 5000 := by
  obtain ⟨security, -, got⟩ := bind_eq_some_iff.mp got
  obtain ⟨attrs, set, rfl⟩ := map_eq_some_iff.mp got
  have network := bss.attributes_network (if autoconfig then some invented else none)
    (if autoconfig then autoSecurity quality else security) inband nwIdx
  obtain ⟨few, last, isLast, notSsid⟩ := bss.attributes_last (if autoconfig then some invented else none)
    (if autoconfig then autoSecurity quality else security) inband nwIdx
  have filled : ∀ call, (bss.attributes (if autoconfig then some invented else none)
      (if autoconfig then autoSecurity quality else security) inband nwIdx).getLast? = some call →
      call.2.size ≠ 0 := by
    intro call final
    rw [isLast] at final
    cases final
    exact (network last (mem_of_getLast? isLast)).filled notSsid
  have absent : ∀ call ∈ bss.attributes (if autoconfig then some invented else none)
      (if autoconfig then autoSecurity quality else security) inband nwIdx,
      call.1 ≠ WpsType.keyWrapAuth := by
    intro call mem same
    have type := (network call mem).type
    rw [same] at type
    revert type
    decide
  obtain ⟨carried, length⟩ := carried_of_calls 512 set few (fun call mem => (network call mem).size)
    (by decide) filled absent
  refine ⟨attrs, rfl, ?_, carried, ?_⟩
  · intro none
    have count := (wpsSetValues_spec (Nat.le_trans few (by decide)) set).1
    rw [none] at count
    have lengths := congrArg List.length count
    rw [sent_length] at lengths
    have empty := length_eq_zero_iff.mp lengths.symm
    rw [empty] at isLast
    cases isLast
  · have product := Nat.mul_le_mul few (Nat.le_refl (4 + 512))
    omega

def Env.Serves (env : Env) (bigEndian : Bool) (bss : Bss) (invented : Invented) : Prop :=
  env.apSsidConfiguration = wpsGetApSsidConfiguration bigEndian bss invented

theorem eapWpsConfigGetSsidConfiguration_carried {device : Device} {env : Env} {bss : Bss}
    {invented : Invented} {wrapCredential : Bool} {encrTypeFlags : UInt16} {config : Bytes}
    (serves : env.Serves device.bigEndian bss invented)
    (got : eapWpsConfigGetSsidConfiguration device env autoconfig encrTypeFlags wrapCredential =
      some config) : ∃ attrs, config = wpsWriteWpsData attrs ∧ attrs ≠ [] ∧ Carried attrs := by
  unfold eapWpsConfigGetSsidConfiguration at got
  rw [serves] at got
  split at got
  · obtain ⟨credential1, got1, got⟩ := bind_eq_some_iff.mp got
    obtain ⟨credential2, got2, got⟩ := bind_eq_some_iff.mp got
    obtain ⟨wps, set, got⟩ := bind_eq_some_iff.mp got
    cases got
    obtain ⟨attrs1, written1, present1, -, length1⟩ := wpsGetApSsidConfiguration_carried got1
    obtain ⟨attrs2, written2, present2, -, length2⟩ := wpsGetApSsidConfiguration_carried got2
    have long1 := wpsWriteWpsData_length_pos present1
    have long2 := wpsWriteWpsData_length_pos present2
    rw [← written1] at long1
    rw [← written2] at long2
    have calls : ∀ call ∈ ((WpsType.credential, Source.bytes credential1) ::
        if credential1 = credential2 then [] else [(WpsType.credential, .bytes credential2)]),
        call.1 = WpsType.credential ∧ call.2.size ≤ 5000 ∧ call.2.size ≠ 0 := by
      intro call mem
      rcases mem_cons.mp mem with rfl | mem
      · exact ⟨rfl, length1, Nat.ne_of_gt (Nat.lt_of_lt_of_le (by decide) long1)⟩
      · obtain ⟨-, mem⟩ := mem_ite_nil_left.mp mem
        cases mem_singleton.mp mem
        exact ⟨rfl, length2, Nat.ne_of_gt (Nat.lt_of_lt_of_le (by decide) long2)⟩
    have few : ((WpsType.credential, Source.bytes credential1) ::
        if credential1 = credential2 then [] else [(WpsType.credential, .bytes credential2)]).length
          ≤ 9 := by
      split
      · exact Nat.le_of_ble_eq_true rfl
      · exact Nat.le_of_ble_eq_true rfl
    obtain ⟨carried, -⟩ := carried_of_calls 5000 set few (fun call mem => (calls call mem).2.1)
      (by decide) (fun call final => (calls call (mem_of_getLast? final)).2.2)
      (fun call mem same => absurd ((calls call mem).1.symm.trans same) (by decide))
    refine ⟨wps, rfl, ?_, carried⟩
    rw [(wpsSetValues_spec (Nat.le_trans few (by decide)) set).1]
    exact cons_ne_nil _ _
  · obtain ⟨attrs, written, present, carried, -⟩ := wpsGetApSsidConfiguration_carried got
    exact ⟨attrs, written, present, carried⟩

end AthApps.Wps
