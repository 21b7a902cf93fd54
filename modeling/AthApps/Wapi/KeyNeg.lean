import AthApps.Wapi.Frame

/-!
# Unicast negotiation and group key announcement

The functions of `Key_neg.c` on one entry, with `ae_usk_derivation`,
`ap_pskbkid_derivation` and `set_ucastkey` of `cert_auth.c`.  A function that
sends takes the outcome of the sending as an argument where the source looks at
it, and one that draws random bytes takes the bytes.

The calls that statements about a run speak of leave a `Mark`; the marks are
not in the source.
-/

set_option autoImplicit false

namespace AthApps.Wapi

open AthApps.Lib

/-- What a station proves its identity with. -/
inductive Suite
  | psk
  | certificate
  deriving DecidableEq

inductive Mark
  -- `wapi_process_from_sta` found the entry for a frame
  | received (frame : Bytes)
  -- and the handler of its subtype succeeded
  | accepted (frame : Bytes)
  -- the base key was derived
  | bkSet (suite : Suite) (bk : Vector UInt8 16)
  -- `usk_negotiation_res` returned 0, with the base key of the entry
  | uskVerified (frame : Bytes) (bk : Vector UInt8 16)
  -- `usk_negotiation_confirmation` built a frame; `uskid` and the key it selects
  | confirmed (frame : Bytes) (uskid : Fin 2) (usk : Usk)
  -- `set_ucastkey` was called; `uskid`, the key it selects and the base key
  | unicastKey (uskid : Fin 2) (usk : Usk) (bk : Vector UInt8 16)
  -- a frame was handed to `send_rs_data`, or to the socket of the server
  | sent (frame : Bytes)
  | sentAs (frame : Bytes)
  | deauth
  -- the entry was cleared
  | reset
  deriving DecidableEq

/-- `struct sta_msksa` -/
structure Msksa where
  mskid : Fin 2
  msk : Vector UInt8 16
  deriving DecidableEq

def Config.addid (cfg : Config) (sta : Sta) : Bytes := cfg.macaddr.toList ++ sta.mac.toList

/-- The first `HMAC_LEN` bytes of the authenticator. -/
def Config.mic (cfg : Config) (mck : Vector UInt8 16) (text : Bytes) : Bytes :=
  (cfg.crypto.hmacSha256 mck.toList text).toList.take 20

def Config.masterKey (cfg : Config) (bk : Vector UInt8 16) (addid : Bytes)
    (aeNonce asueNonce : Vector UInt8 32) : Bytes :=
  cfg.crypto.kdHmacSha256 (addid ++ aeNonce.toList ++ asueNonce.toList ++ uskText) bk.toList 96

def Usk.ofMaster (master : Bytes) (validFlag : Bool) : Usk where
  uek := fixed 16 (slice master 0 16)
  uck := fixed 16 (slice master 16 16)
  mck := fixed 16 (slice master 32 16)
  kek := fixed 16 (slice master 48 16)
  validFlag := validFlag

def Config.nextNonce (cfg : Config) (master : Bytes) : Vector UInt8 32 :=
  cfg.crypto.mhashSha256 (slice master 64 32)

def aeUskDerivation (cfg : Config) (sta : Sta) (uskid : Fin 2) (addid : Bytes) : Sta :=
  let master := cfg.masterKey sta.bksa.bk addid sta.aeNonce sta.asueNonce
  { sta with
    usksa := { sta.usksa with
      usk := Function.update sta.usksa.usk uskid
        (Usk.ofMaster master (sta.usksa.usk uskid).validFlag) }
    aeNonce := cfg.nextNonce master }

def apPskbkidDerivation (cfg : Config) (sta : Sta) : Sta :=
  { sta with
    bksa := { sta.bksa with
      bk := cfg.pskBk
      bkid := fixed 16 (cfg.crypto.kdHmacSha256 (cfg.addid sta) cfg.pskBk.toList 16) } }

def packUskRequest (cfg : Config) (sta : Sta) (flag : UInt8) : Bytes :=
  packMessage .uskNegRequest sta.aeGroupSc.toNat
    ([flag] ++ sta.bksa.bkid.toList ++ [UInt8.ofNat sta.usksa.uskid] ++ cfg.addid sta ++
      sta.aeNonce.toList)

def uskRekeyHandle (cfg : Config) (now : UInt32) (ok : Bool) (sta : Sta) : Sta × List Mark :=
  let uskid := other sta.usksa.uskid
  let sta := { sta with
    status := .sessionkeying
    usksa := { sta.usksa.setValid uskid false with
      uskid := uskid
      dynamicKeyUsed := sta.usksa.uskid } }
  let frame := packUskRequest cfg sta 0x10
  let sta := setTableItem cfg now sta .sta .buf1 frame .uskNegRequest
  let sta :=
    if ok then { sta with aeGroupSc := sta.aeGroupSc + 1, rekeying := true } else sta
  (sta, [.sent frame])

def Usksa.rekeyed (usksa : Usksa) : Usksa :=
  { usksa.setValid (other usksa.uskid) false with
    uskid := other usksa.uskid
    dynamicKeyUsed := usksa.uskid }

def rekeyRequest (cfg : Config) (sta : Sta) : Bytes :=
  packUskRequest cfg { sta with usksa := sta.usksa.rekeyed } 0x10

variable (cfg : Config)

variable (now : UInt32) (msksa : Msksa) (gnonce : List UInt32) (ok : Bool) (sta : Sta)

theorem uskRekeyHandle_eq : uskRekeyHandle cfg now ok sta = ({ sta with
        status := .sessionkeying
        usksa := sta.usksa.rekeyed
        sendinfo := ⟨now, 1, 1, .sta, cfg.maxCount .uskNegRequest⟩
        buf1 := some (rekeyRequest cfg sta)
        aeGroupSc := if ok then sta.aeGroupSc + 1 else sta.aeGroupSc
        rekeying := ok || sta.rekeying }, [.sent (rekeyRequest cfg sta)]) := by
  cases ok <;> rfl

/-- The index that `usk_negotiation_req` negotiates: the last one that is not valid. -/
def Usksa.invalid (usksa : Usksa) : Fin 2 :=
  if (usksa.usk 1).validFlag = false then 1
  else if (usksa.usk 0).validFlag = false then 0
  else usksa.uskid

def uskNegotiationReq (cfg : Config) (now : UInt32) (nonce : Vector UInt8 32) (ok : Bool)
    (sta : Sta) : Sta × List Mark :=
  let sta := { sta with
    usksa := { sta.usksa with uskid := sta.usksa.invalid }
    flag := sta.flag &&& 0xEF
    aeNonce := nonce }
  let frame := packUskRequest cfg sta 0
  let sta := setTableItem cfg now sta .sta .buf1 frame .uskNegRequest
  let sta :=
    if ok then { sta with aeGroupSc := sta.aeGroupSc + 1, status := .waitingSession } else sta
  (sta, [.sent frame])

def firstRequest (cfg : Config) (nonce : Vector UInt8 32) (sta : Sta) : Bytes :=
  packUskRequest cfg
    { sta with usksa := { sta.usksa with uskid := sta.usksa.invalid }, aeNonce := nonce } 0

theorem uskNegotiationReq_eq (nonce : Vector UInt8 32) (ok : Bool) (sta : Sta) :
    uskNegotiationReq cfg now nonce ok sta =
      ({ sta with
        status := if ok then .waitingSession else sta.status
        usksa := { sta.usksa with uskid := sta.usksa.invalid }
        flag := sta.flag &&& 0xEF
        aeNonce := nonce
        sendinfo := ⟨now, 1, 1, .sta, cfg.maxCount .uskNegRequest⟩
        buf1 := some (firstRequest cfg nonce sta)
        aeGroupSc := if ok then sta.aeGroupSc + 1 else sta.aeGroupSc },
        [.sent (firstRequest cfg nonce sta)]) := by
  cases ok <;> rfl

/-- What `usk_negotiation_res` ends in. -/
inductive UskResult
  -- it used an index outside of the array, or copied too much
  | undefined
  -- it returned -1; a response with a wrong authenticator has changed the entry
  | refused (sta : Sta)
  -- it returned 0 after it cleared the entry for a different information element
  | disauthenticated (sta : Sta)
  | accepted (sta : Sta)

def authenticated (frame : Bytes) : Bytes := slice frame headLen (frame.length - 32)

def acceptsUskResponse (status : Status) : Bool :=
  status == .waitingSession || status == .sessionkeying || status == .sessiongrouping ||
    status == .waitingDynamicSession

def uskDerived (cfg : Config) (sta : Sta) (res : SessionKeyNegResponse) (uskid : Fin 2) : Sta :=
  aeUskDerivation cfg { sta with asueNonce := res.asueChallenge } uskid res.addid

/-- What is left of an entry that was disauthenticated during the negotiation. -/
def uskReset (res : SessionKeyNegResponse) : Sta :=
  { resetStaInfo with flag := (resetStaInfo.flag &&& 0xEF) ||| (res.flag &&& 0x10) }

def uskTaken (cfg : Config) (sta : Sta) (res : SessionKeyNegResponse) (uskid : Fin 2) : Sta :=
  { uskDerived cfg sta res uskid with
    flag := (sta.flag &&& 0xEF) ||| (res.flag &&& 0x10) }

def uskNegotiationRes (cfg : Config) (sta : Sta) (frame : Bytes) : UskResult :=
  if acceptsUskResponse sta.status = false then .refused sta
  else
    match unpackUcastkeyNegResponse frame with
    | .error .packError => .refused sta
    | .error .overrun => .undefined
    | .ok res =>
      let update := res.flag &&& 0x10
      if inside : res.uskid.toNat < 2 then
        let uskid : Fin 2 := ⟨res.uskid.toNat, inside⟩
        if update ≠ 0 ∧ (sta.usksa.usk uskid).validFlag then .refused sta
        else if res.aeChallenge ≠ sta.aeNonce then .refused sta
        else
          let mck := ((uskDerived cfg sta res uskid).usksa.usk uskid).mck
          if cfg.mic mck (authenticated frame) ≠ res.mic then
            .refused (uskDerived cfg sta res uskid)
          else if update = 0 ∧ res.wieAsue ≠ sta.wie.toList.take res.wieAsue.length then
            .disauthenticated (uskReset res)
          else
            .accepted (uskTaken cfg sta res uskid)
      else if update ≠ 0 then .undefined
      else if res.aeChallenge ≠ sta.aeNonce then .refused sta
      else .undefined

/-- The tests of `usk_negotiation_res` before the derivation. -/
structure UskResponse (sta : Sta) (frame : Bytes) (res : SessionKeyNegResponse)
    (uskid : Fin 2) : Prop where
  status : acceptsUskResponse sta.status = true
  unpacked : unpackUcastkeyNegResponse frame = .ok res
  index : res.uskid.toNat = uskid.val
  update : res.flag &&& 0x10 ≠ 0 → (sta.usksa.usk uskid).validFlag = false
  challenge : res.aeChallenge = sta.aeNonce

/-- How `usk_negotiation_res` comes to its result. -/
inductive UskOutcome (cfg : Config) (sta : Sta) (frame : Bytes) : UskResult → Prop
  | undefined : UskOutcome cfg sta frame .undefined
  | refused : UskOutcome cfg sta frame (.refused sta)
  | mismatch {res : SessionKeyNegResponse} {uskid : Fin 2}
      (response : UskResponse sta frame res uskid)
      (mic : cfg.mic ((uskDerived cfg sta res uskid).usksa.usk uskid).mck (authenticated frame) ≠
        res.mic) :
      UskOutcome cfg sta frame (.refused (uskDerived cfg sta res uskid))
  | disauthenticated {res : SessionKeyNegResponse} {uskid : Fin 2}
      (response : UskResponse sta frame res uskid)
      (mic : cfg.mic ((uskDerived cfg sta res uskid).usksa.usk uskid).mck (authenticated frame) =
        res.mic)
      (update : res.flag &&& 0x10 = 0)
      (wie : res.wieAsue ≠ sta.wie.toList.take res.wieAsue.length) :
      UskOutcome cfg sta frame (.disauthenticated (uskReset res))
  | accepted {res : SessionKeyNegResponse} {uskid : Fin 2}
      (response : UskResponse sta frame res uskid)
      (mic : cfg.mic ((uskDerived cfg sta res uskid).usksa.usk uskid).mck (authenticated frame) =
        res.mic)
      (wie : res.flag &&& 0x10 = 0 → res.wieAsue = sta.wie.toList.take res.wieAsue.length) :
      UskOutcome cfg sta frame (.accepted (uskTaken cfg sta res uskid))

theorem uskNegotiationRes_outcome (frame : Bytes) :
    UskOutcome cfg sta frame (uskNegotiationRes cfg sta frame) := by
  unfold uskNegotiationRes
  split
  · exact .refused
  next waiting =>
    split
    · exact .refused
    · exact .undefined
    next res unpacked =>
      dsimp only
      split
      next inside =>
        split
        · exact .refused
        next invalid =>
          split
          · exact .refused
          next challenge =>
            have response : UskResponse sta frame res ⟨res.uskid.toNat, inside⟩ := by
              refine ⟨by simpa using waiting, unpacked, rfl, ?_, by simpa using challenge⟩
              intro update
              simpa [update] using invalid
            split
            next mic => exact .mismatch response mic
            next mic =>
              rw [ne_eq, not_not] at mic
              split
              next wie => exact .disauthenticated response mic wie.1 wie.2
              next wie =>
                refine .accepted response mic ?_
                intro update
                simpa [update] using wie
      next =>
        split
        · exact .undefined
        · split
          · exact .refused
          · exact .undefined

theorem uskNegotiationRes_accepted {cfg : Config} {sta : Sta} {frame : Bytes}
    {res : SessionKeyNegResponse} {uskid : Fin 2} (response : UskResponse sta frame res uskid)
    (mic : cfg.mic ((uskDerived cfg sta res uskid).usksa.usk uskid).mck (authenticated frame) =
      res.mic)
    (update : res.flag &&& 0x10 ≠ 0) :
    uskNegotiationRes cfg sta frame = .accepted (uskTaken cfg sta res uskid) := by
  obtain ⟨status, unpacked, index, invalid, challenge⟩ := response
  have inside : res.uskid.toNat < 2 := by omega
  have same : (⟨res.uskid.toNat, inside⟩ : Fin 2) = uskid := Fin.ext index
  have unused := invalid update
  unfold uskNegotiationRes
  rw [if_neg (by simp [status]), unpacked]
  simp only [dif_pos inside, same, unused, challenge, update, mic]
  simp

def leWord (value : Nat) : Bytes := [UInt8.ofNat value, UInt8.ofNat (value / 256)]

def apInitializeWie (policy : UInt8) : Bytes :=
  let suites := (if policy &&& 0x08 != 0 then [0x00, 0x14, 0x72, 0x01] else []) ++
    (if policy &&& 0x04 != 0 then [0x00, 0x14, 0x72, 0x02] else [])
  let unicast := if policy &&& 0x02 != 0 then [0x00, 0x14, 0x72, 0x01] else []
  let multicast := if policy &&& 0x01 != 0 then [0x00, 0x14, 0x72, 0x01] else []
  let body := leWord 1 ++ leWord (suites.length / 4) ++ suites ++ leWord (unicast.length / 4) ++
    unicast ++ multicast ++ leWord (if policy &&& 0x10 != 0 then 1 else 0)
  [68, UInt8.ofNat body.length] ++ body

def packUskConfirm (cfg : Config) (sta : Sta) : Bytes :=
  let used := sta.usksa.dynamicKeyUsed
  let body := [sta.flag &&& 0x10] ++ sta.bksa.bkid.toList ++ [UInt8.ofNat used] ++
    cfg.addid sta ++ sta.asueNonce.toList ++ apInitializeWie cfg.waiPolicy
  packMessage .uskNegConfirm sta.aeGroupSc.toNat (body ++ cfg.mic (sta.usksa.usk used).mck body)

def uskNegotiationConfirmation (cfg : Config) (now : UInt32) (ok : Bool) (sta : Sta) :
    Sta × List Mark :=
  let frame := packUskConfirm cfg sta
  let uskid := sta.usksa.uskid
  let marks := [.confirmed frame uskid (sta.usksa.usk uskid), .sent frame]
  let sta := setTableItem cfg now sta .sta .buf1 frame .uskNegConfirm
  (if ok then { sta with aeGroupSc := sta.aeGroupSc + 1 } else sta, marks)

theorem uskNegotiationConfirmation_eq : uskNegotiationConfirmation cfg now ok sta =
      ({ sta with
        buf1 := none
        aeGroupSc := if ok then sta.aeGroupSc + 1 else sta.aeGroupSc },
        [.confirmed (packUskConfirm cfg sta) sta.usksa.uskid (sta.usksa.usk sta.usksa.uskid),
          .sent (packUskConfirm cfg sta)]) := by
  cases ok <;> rfl

def setUcastkey : Sta × List Mark :=
  ({ sta with uskRekeyTimer := now, rekeying := false },
    [.unicastKey sta.usksa.uskid (sta.usksa.usk sta.usksa.uskid) sta.bksa.bk])

/-- The serial number of an announcement to all stations. -/
def rekeyGsn : Bytes := (List.replicate 8 [0x5C, 0x36]).flatten

/-- `pack_msk_announcement`, called with `stakey_flag` 0; it also clears two flags. -/
def packMskAnnouncement (cfg : Config) (msksa : Msksa) (gnonce : List UInt32) (sta : Sta)
    (gsn : Bytes) : Bytes :=
  let usk := sta.usksa.usk sta.usksa.dynamicKeyUsed
  let identifier := gnonce.flatMap dword
  let body := [0, UInt8.ofNat msksa.mskid, UInt8.ofNat sta.usksa.dynamicKeyUsed] ++
    cfg.addid sta ++ gsn ++ identifier ++ [16] ++
    (cfg.crypto.wpiEncrypt identifier msksa.msk.toList usk.kek.toList).toList
  packMessage .mskAnnounce sta.aeGroupSc.toNat (body ++ cfg.mic usk.mck body)

def mskAnnouncementTx (cfg : Config) (now : UInt32) (msksa : Msksa) (gnonce : List UInt32)
    (ok : Bool) (sta : Sta) : Sta × List Mark :=
  let frame := packMskAnnouncement cfg msksa gnonce sta sta.gsn.toList
  let sta := { sta with flag := sta.flag &&& 0x9F }
  let sta := setTableItem cfg now sta .sta .buf0 frame .mskAnnounce
  let sta :=
    if ok then { sta with aeGroupSc := sta.aeGroupSc + 1, status := .waitingGrouping } else sta
  (sta, [.sent frame])

theorem mskAnnouncementTx_eq : mskAnnouncementTx cfg now msksa gnonce ok sta =
      ({ sta with
        status := if ok then .waitingGrouping else sta.status
        flag := sta.flag &&& 0x9F
        sendinfo := ⟨now, 1, 1, .sta, cfg.maxCount .mskAnnounce⟩
        buf0 := some (packMskAnnouncement cfg msksa gnonce sta sta.gsn.toList)
        aeGroupSc := if ok then sta.aeGroupSc + 1 else sta.aeGroupSc },
        [.sent (packMskAnnouncement cfg msksa gnonce sta sta.gsn.toList)]) := by
  cases ok <;> rfl

def acceptsMskResponse (status : Status) : Bool :=
  status == .waitingGrouping || status == .groupnoticeing || status == .sessiongrouping ||
    status == .waitingDynamicGrouping

def mskResponseValid (cfg : Config) (msksa : Msksa) (gnonce : List UInt32) (sta : Sta)
    (frame : Bytes) : Bool :=
  acceptsMskResponse sta.status &&
    match unpackMskAnnouncementRes frame with
    | .error _ => false
    | .ok res =>
      let used := sta.usksa.dynamicKeyUsed
      cfg.mic (sta.usksa.usk used).mck (authenticated frame) == res.mic &&
        (res.flag &&& 0x60) == (sta.flag &&& 0x60) &&
        res.noticeKeyid.toNat == msksa.mskid.val && res.uskid.toNat == used.val &&
        res.mac1 == cfg.macaddr && res.mac2 == sta.mac && res.gNonce == gnonce

/-- `msk_announcement_res`; `none` if it returns -1. -/
def mskAnnouncementRes (cfg : Config) (msksa : Msksa) (gnonce : List UInt32) (sta : Sta)
    (frame : Bytes) : Option Sta :=
  if mskResponseValid cfg msksa gnonce sta frame then some (resetTableItem sta) else none

end AthApps.Wapi
