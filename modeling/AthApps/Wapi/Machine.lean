import AthApps.Lib.Trace
import AthApps.Wapi.CertAuth
import Mathlib.Data.List.FinRange

/-!
# One access point as a state machine

`Vap` is the part of an `apdata_info` that changes, `Event` is what the loop of
`main.c` reacts to, and `step` is the reaction.  The time, the random bytes and
the outcomes of the sendings are part of the input.  `get_random` hashes what
the generator of the system returns; a value of the input is its result.

The loop runs `timeout_retry` and `rekey_handle` after an event under conditions
on the clock; here they are events of their own, in any order.
-/

set_option autoImplicit false

namespace AthApps.Wapi

open AthApps.Lib Option

structure Vap where
  table : Slot → Sta
  -- what happened to each entry
  past : Slot → List Mark
  gnonce : List UInt32
  groupNo : Int
  groupStatus : Bool
  rekeying : Bool
  msksa : Msksa
  mskRekeyTimer : UInt32
  -- the key of the last `set_mcastkey`
  installed : Option Msksa

structure AssoMt where
  mac : Mac
  gsn : Vector UInt8 16
  wie : Vector UInt8 256

inductive Event
  | assoc (mt : AssoMt)
  | aging (mac : Mac)
  | unicastRekey (mac : Mac)
  | multiRekey
  -- the command of `ctrl_iface.c`
  | ctrlRekey (mac : Mac)
  | fromSta (mac : Mac) (frame : Bytes)
  | fromAs (frame : Bytes)
  | timeoutRetry
  | rekeyHandle

structure Input where
  event : Event
  now : UInt32
  -- the challenge that is drawn for an entry
  nonce : Slot → Vector UInt8 32
  -- what `genkey` makes a key of
  seed : Bytes
  msk : Vector UInt8 16
  -- whether the first and the second sending for an entry succeed
  sent : Slot → Fin 2 → Bool

def Input.AllSent (input : Input) : Prop := ∀ i number, input.sent i number = true

instance (input : Input) : Decidable input.AllSent :=
  inferInstanceAs (Decidable (∀ i number, input.sent i number = true))

/-- A handler changed an entry and left marks. -/
def Vap.put (vap : Vap) (i : Slot) (result : Sta × List Mark) : Vap :=
  { vap with
    table := Function.update vap.table i result.1
    past := Function.update vap.past i (vap.past i ++ result.2) }

/-- Two handlers one after the other. -/
def andThen (first : Sta × List Mark) (second : Sta → Sta × List Mark) : Sta × List Mark :=
  ((second first.1).1, first.2 ++ (second first.1).2)

variable (now : UInt32) (sta : Sta)

def setMcastkey (vap : Vap) : Vap :=
  { vap with installed := some vap.msksa, mskRekeyTimer := now }

def updateGnonce : List UInt32 → List UInt32
  | [] => []
  | word :: rest =>
    if rest.all (· == 0xFFFFFFFF) then
      (word + 1) :: rest.map fun _ => 0
    else
      word :: updateGnonce rest

/-- `overflow` returned 0: the first two words are all ones. -/
def overflow (gnonce : List UInt32) : Bool := (gnonce.take 2).all (· == 0xFFFFFFFF)

/-- The statuses that `check_groupkey_response_result` looks for. -/
def outstanding (status : Status) : Bool :=
  status == .groupnoticeing || status == .sessiongrouping || status == .waitingDynamicGrouping

/-- The stations that `send_msk_announcement_to_all` tells. -/
def announced (status : Status) : Bool := status == .authenticated || status == .sessionkeying

def announceTo (cfg : Config) (now : UInt32) (msksa : Msksa) (gnonce : List UInt32) (ok : Bool)
    (sta : Sta) : Sta × List Mark :=
  let frame := packMskAnnouncement cfg msksa gnonce sta rekeyGsn
  let sta := { sta with flag := sta.flag &&& 0x9F }
  if ok then
    let sta := { sta with
      status := if sta.status = .authenticated then .groupnoticeing else .sessiongrouping }
    let sta := setTableItem cfg now sta .sta .buf0 frame .mskAnnounce
    ({ sta with aeGroupSc := sta.aeGroupSc + 1 }, [.sent frame])
  else
    (sta, [.sent frame])

theorem announceTo_sent (cfg : Config) (now : UInt32) (msksa : Msksa) (gnonce : List UInt32)
    (sta : Sta) :
    announceTo cfg now msksa gnonce true sta =
      ({ sta with
        status := if sta.status = .authenticated then .groupnoticeing else .sessiongrouping
        flag := sta.flag &&& 0x9F
        sendinfo := ⟨now, 1, 1, .sta, cfg.maxCount .mskAnnounce⟩
        buf0 := some (packMskAnnouncement cfg msksa gnonce sta rekeyGsn)
        aeGroupSc := sta.aeGroupSc + 1 },
        [.sent (packMskAnnouncement cfg msksa gnonce sta rekeyGsn)]) := rfl

def announceLoop (cfg : Config) (input : Input) : List Slot → Vap → Vap
  | [], vap =>
    if vap.groupStatus ∧ vap.groupNo = 0 then setMcastkey input.now vap else vap
  | i :: rest, vap =>
    if announced (vap.table i).status then
      let after := vap.put i (announceTo cfg input.now vap.msksa vap.gnonce (input.sent i 0)
        (vap.table i))
      -- the first failure ends the loop, and nothing follows
      if input.sent i 0 then
        announceLoop cfg input rest { after with groupNo := after.groupNo + 1 }
      else
        after
    else
      announceLoop cfg input rest vap

def sendMskAnnouncementToAll (cfg : Config) (input : Input) (vap : Vap) : Vap :=
  announceLoop cfg input (List.finRange 32)
    { vap with msksa := { vap.msksa with mskid := other vap.msksa.mskid }, groupNo := 0 }

def mskRekeyHandle (cfg : Config) (input : Input) (vap : Vap) : Vap :=
  let vap := { vap with gnonce := updateGnonce vap.gnonce }
  if overflow vap.gnonce then vap
  else
    let vap := sendMskAnnouncementToAll cfg input
      { vap with msksa := { vap.msksa with msk := input.msk }, groupStatus := true }
    if 0 < vap.groupNo then { vap with rekeying := true } else vap

def staMskRekeyHandle (cfg : Config) (input : Input) (vap : Vap) : Vap :=
  if vap.rekeying then vap
  else if cfg.waiPolicy &&& 0x03 ≠ 0 then mskRekeyHandle cfg input vap
  else vap

/-- `check_groupkey_response_result` is not 0. -/
def someOutstanding (table : Slot → Sta) : Bool :=
  (List.finRange 32).any fun i => outstanding (table i).status

def notifyGroupnotice (vap : Vap) : Vap :=
  if someOutstanding vap.table then vap else { setMcastkey now vap with rekeying := false }

/-- `ap_add_sta` on the entry that was found; the element has `ie_len + 2` bytes. -/
def apAddSta (cfg : Config) (mt : AssoMt) : Sta :=
  { resetStaInfo with
    mac := mt.mac
    gsn := fixed 16 (htonlBuffer cfg.littleEndian mt.gsn.toList)
    wie := fixed 256 (mt.wie.toList.take ((byteAt mt.wie.toList 1).toNat + 2)) }

/-- The number `akm_no` of suites in the element. -/
def akmNo (mt : AssoMt) : Nat :=
  (byteAt mt.wie.toList 5).toNat * 256 + (byteAt mt.wie.toList 4).toNat

/-- What `auth_initiate` picks: certificates if the station offers them. -/
def chosenSuite (mt : AssoMt) : Option Suite :=
  let offered := (List.range (akmNo mt)).map fun i => slice mt.wie.toList (6 + i * 4) 4
  if offered.contains [0x00, 0x14, 0x72, 0x01] then some .certificate
  else if offered.contains [0x00, 0x14, 0x72, 0x02] then some .psk
  else none

def initiateEntry (cfg : Config) (input : Input) (i : Slot) (mt : AssoMt) :
    Option (Sta × List Mark) :=
  let sta := apAddSta cfg mt
  let started := match chosenSuite mt with
    | some .certificate => apActivateSta cfg input.now (input.nonce i) (input.sent i 0) sta
    | some .psk =>
      some (andThen (apPskbkidDerivation cfg sta, [.bkSet .psk cfg.pskBk])
        (uskNegotiationReq cfg input.now (input.nonce i) (input.sent i 0)))
    | none => some (sta, [])
  started.map fun result =>
    ({ result.1 with saTimeout := input.now + cfg.saTimeout }, .reset :: result.2)

/-- `auth_initiate`; the element may be longer than the array of the entry, and
`akm` has room for `MAX_AKM_NO` suites. -/
def authInitiate (cfg : Config) (input : Input) (mt : AssoMt) (vap : Vap) : Option Vap :=
  match apGetStaPos mt.mac vap.table with
  | none => some vap
  | some i =>
    if 254 < (byteAt mt.wie.toList 1).toNat ∨ 2 < akmNo mt then none
    else (initiateEntry cfg input i mt).map (vap.put i)

/-- The conditions of `sta_timeout_handle`: `AUTH_MODE` is 0, `PRE_AUTH_MODE` is 1. -/
def mayAge : Bool :=
  sta.authMode == 0 || (sta.authMode == 1 && sta.status == .authenticated)

def staTimeoutHandle (cfg : Config) (input : Input) (mac : Mac) (vap : Vap) : Vap :=
  match apGetSta mac vap.table with
  | none => vap
  | some i =>
    if mayAge (vap.table i) then
      let vap := vap.put i (Sta.zero, [.reset])
      if cfg.multicastRekeyStrict then staMskRekeyHandle cfg input vap else vap
    else
      vap

def forwardRequest (cfg : Config) (input : Input) (i : Slot) (frame message : Bytes)
    (sta : Sta) : Sta × List Mark :=
  let sta := setTableItem cfg input.now sta .as .buf0 message .apAuthRequest
  let sta := { sta with sendinfo := { sta.sendinfo with timeout := 10 } }
  if cfg.asUdpSk then
    (if input.sent i 0 then { sta with status := .waitingAuthFromAs } else sta,
      [.accepted frame, .sentAs message])
  else
    ({ sta with authResult := 0, status := .authenticated }, [.accepted frame])

/-- The branch `STA_ACESS_REQUEST` of `wapi_process_from_sta`. -/
def processAccessRequest (cfg : Config) (input : Input) (i : Slot) (frame : Bytes)
    (sta : Sta) : Option (Sta × List Mark) :=
  match accessAuthReq cfg (input.nonce i) sta frame with
  | .undefined => none
  | .refused => some (sta, [])
  | .accepted sta message => some (forwardRequest cfg input i frame message sta)

variable {result : Sta × List Mark} {input : Input} {cfg : Config}

variable {i : Slot}

theorem processAccessRequest_cases {frame : Bytes} {sta : Sta}
    (processed : processAccessRequest cfg input i frame sta = some result) :
    result = (sta, []) ∨ sta.status ≠ .waitingAuthFromAs ∧ ∃ request, result =
      forwardRequest cfg input i frame
        (packApAuthRequest cfg request (requestTaken cfg (input.nonce i) request sta))
        (resetTableItem (requestTaken cfg (input.nonce i) request sta)) := by
  unfold processAccessRequest at processed
  split at processed
  · cases processed
  · exact Or.inl (some.inj processed).symm
  next later message accepted =>
    obtain ⟨status, request, rfl, rfl⟩ := accessAuthReq_accepted accepted
    exact Or.inr ⟨status, request, (some.inj processed).symm⟩

/-- The key index in use and the two flags, as the branches set them. -/
def useKey (status : Status) (valid : Bool) : Sta :=
  { sta with
    status := status
    usksa := { (sta.usksa.setValid sta.usksa.uskid valid).setValid (other sta.usksa.uskid) (!valid)
      with dynamicKeyUsed := sta.usksa.uskid } }

def confirmKey (cfg : Config) (input : Input) (i : Slot) (sta : Sta) : Sta × List Mark :=
  andThen (uskNegotiationConfirmation cfg input.now (input.sent i 0) sta) (setUcastkey input.now)

theorem confirmKey_eq (cfg : Config) (input : Input) (i : Slot) (sta : Sta) :
    confirmKey cfg input i sta =
      ({ sta with
        buf1 := none
        aeGroupSc := if input.sent i 0 then sta.aeGroupSc + 1 else sta.aeGroupSc
        uskRekeyTimer := input.now
        rekeying := false },
        [.confirmed (packUskConfirm cfg sta) sta.usksa.uskid (sta.usksa.usk sta.usksa.uskid),
          .sent (packUskConfirm cfg sta),
          .unicastKey sta.usksa.uskid (sta.usksa.usk sta.usksa.uskid) sta.bksa.bk]) := by
  rw [confirmKey, uskNegotiationConfirmation_eq]
  rfl

def uskAccepted (cfg : Config) (input : Input) (i : Slot) (msksa : Msksa) (gnonce : List UInt32)
    (sta : Sta) : Sta × List Mark :=
  match sta.status with
  | .sessionkeying => confirmKey cfg input i (useKey sta .authenticated true)
  | .sessiongrouping =>
    let result := confirmKey cfg input i (useKey sta .waitingDynamicGrouping true)
    -- the answer to the announcement is still under the old key
    ({ result.1 with
      usksa := { result.1.usksa with dynamicKeyUsed := other result.1.usksa.uskid } }, result.2)
  | .waitingDynamicSession => confirmKey cfg input i (useKey sta .authenticated false)
  | .waitingSession =>
    if sta.authMode = 0 then
      andThen (uskNegotiationConfirmation cfg input.now (input.sent i 0) sta)
        (mskAnnouncementTx cfg input.now msksa gnonce (input.sent i 1))
    else
      ({ sta with status := .preAuthOver, preAuthSaveTime := input.now }, [])
  | _ => (sta, [])

def processUskResponse (cfg : Config) (input : Input) (i : Slot) (msksa : Msksa)
    (gnonce : List UInt32) (frame : Bytes) (sta : Sta) : Option (Sta × List Mark) :=
  match uskNegotiationRes cfg sta frame with
  | .undefined => none
  | .refused sta => some (sta, [])
  | .disauthenticated sta => some (sta, [.accepted frame, .deauth, .reset])
  | .accepted sta =>
    some (andThen (sta, [.accepted frame, .uskVerified frame sta.bksa.bk])
      (uskAccepted cfg input i msksa gnonce))

theorem processUskResponse_cases {msksa : Msksa} {gnonce : List UInt32} {frame : Bytes}
    {sta : Sta} (processed : processUskResponse cfg input i msksa gnonce frame sta = some result) :
    (∃ later, UskOutcome cfg sta frame (.refused later) ∧ result = (later, [])) ∨
    (∃ later, UskOutcome cfg sta frame (.disauthenticated later) ∧
      result = (later, [.accepted frame, .deauth, .reset])) ∨
    (∃ later, UskOutcome cfg sta frame (.accepted later) ∧
      result = andThen (later, [.accepted frame, .uskVerified frame later.bksa.bk])
        (uskAccepted cfg input i msksa gnonce)) := by
  have outcome := uskNegotiationRes_outcome cfg sta frame
  unfold processUskResponse at processed
  split at processed
  · cases processed
  next later result =>
    rw [result] at outcome
    exact Or.inl ⟨later, outcome, (some.inj processed).symm⟩
  next later result =>
    rw [result] at outcome
    exact Or.inr (Or.inl ⟨later, outcome, (some.inj processed).symm⟩)
  next later result =>
    rw [result] at outcome
    exact Or.inr (Or.inr ⟨later, outcome, (some.inj processed).symm⟩)

def mskAnswered : Sta :=
  { sta with
    status := .authenticated
    usksa := { sta.usksa with dynamicKeyUsed := sta.usksa.uskid } }

def mskAccepted (input : Input) (frame : Bytes) (sta : Sta) : Sta × List Mark :=
  match sta.status with
  | .groupnoticeing | .waitingDynamicGrouping => (mskAnswered sta, [.accepted frame])
  | .waitingGrouping =>
    let result := andThen (mskAnswered sta, [.accepted frame]) (setUcastkey input.now)
    ({ result.1 with saTimeout := 0 }, result.2)
  | .sessiongrouping => ({ sta with status := .waitingDynamicSession }, [.accepted frame])
  | _ => (sta, [.accepted frame])

/-- A frame was heard from the station of an entry, and its handler has a result. -/
def Vap.hear (vap : Vap) (i : Slot) (frame : Bytes) (result : Sta × List Mark) : Vap :=
  vap.put i (result.1, .received frame :: result.2)

def processMskResponse (cfg : Config) (input : Input) (i : Slot) (frame : Bytes) (vap : Vap) :
    Vap :=
  match mskAnnouncementRes cfg vap.msksa vap.gnonce (vap.table i) frame with
  | none => vap.hear i frame (vap.table i, [])
  | some sta =>
    let after := vap.hear i frame (mskAccepted input frame sta)
    -- the answer of a group rekey
    if outstanding sta.status then
      notifyGroupnotice input.now { after with groupNo := after.groupNo - 1 }
    else
      after

def wapiProcessFromSta (cfg : Config) (input : Input) (mac : Mac) (frame : Bytes)
    (vap : Vap) : Option Vap :=
  match apGetSta mac vap.table with
  | none => some vap
  | some i =>
    let sta := vap.table i
    let packID := getPacketSubType frame
    if getPacketGroupSc frame % 256 < sta.asueGroupSc.toNat then
      some (vap.hear i frame (sta, []))
    else if packID = SubType.staAcessRequest.code then
      (processAccessRequest cfg input i frame sta).map (vap.hear i frame)
    else if packID = SubType.uskNegResponse.code then
      (processUskResponse cfg input i vap.msksa vap.gnonce frame sta).map (vap.hear i frame)
    else if packID = SubType.mskResponse.code then
      some (processMskResponse cfg input i frame vap)
    else
      some (vap.hear i frame (sta, []))

/-- What `wapi_process_1_of_1_from_as` does to the entry after an accepted response. -/
def serverAccepted (cfg : Config) (input : Input) (i : Slot) (frame : Bytes) (sta : Sta) :
    Option (Sta × List Mark) :=
  (accessAuthRes cfg input.now sta (frame.drop (headLen + 12))).map fun result =>
    andThen result (uskNegotiationReq cfg input.now (input.nonce i) (input.sent i 0))

/-- The mark of the derivation in `certificate_auth_res`, if it has a result. -/
def bkMarks (cfg : Config) (seed : Bytes) (sta : Sta) : List Mark :=
  match apCertauthbkDerivation cfg seed sta with
  | none => []
  | some sta => [.bkSet .certificate sta.bksa.bk]

def wapiProcessFromAs (cfg : Config) (input : Input) (frame : Bytes) (vap : Vap) :
    Option Vap :=
  if getPacketSubType frame ≠ SubType.apAuthResponse.code then some vap
  else
    match certificateAuthRes cfg input.now input.seed vap.table frame with
    | .undefined => none
    | .refused => some vap
    | .rejected i sta =>
      (accessAuthRes cfg input.now sta (frame.drop (headLen + 12))).map fun result =>
        vap.put i (resetStaInfo, result.2 ++ [.deauth, .reset])
    | .accepted i sta =>
      (serverAccepted cfg input i frame sta).map fun result =>
        vap.put i (result.1, bkMarks cfg input.seed (vap.table i) ++ result.2)

/-- What is left of an entry that a timer removed; `notify_driver_disauthenticate_sta` is
called in `AUTH_MODE`. -/
def removed : Sta × List Mark :=
  (resetStaInfo, if sta.authMode = 0 then [.deauth, .reset] else [.reset])

def resendMarks (cfg : Config) (sta : Sta) : List Mark :=
  (match sta.buf0 with
    | none => []
    | some frame =>
      if sta.sendinfo.direction = .as then (if cfg.asUdpSk then [.sentAs frame] else [])
      else [.sent frame]) ++
  (match sta.buf1 with
    | none => []
    | some frame => [.sent frame])

/-- The message is sent once more, and the try is counted. -/
def resent : Sta :=
  { sta with
    sendinfo := { sta.sendinfo with sendTime := now, curCount := sta.sendinfo.curCount + 1 } }

def bkUpdating : Sta :=
  { sta with status := .noAuth, bksa := { sta.bksa with bkUpdate := true } }

def retryEntry (cfg : Config) (input : Input) (i : Slot) (sta : Sta) :
    Option ((Sta × List Mark) × Bool) :=
  let now := input.now
  if sta.status = .noAuth then some ((sta, []), false)
  else if sta.status = .authenticated ∧ sta.bkReauthTimeout ≠ 0 ∧ sta.bkReauthTimeout < now then
    (apActivateSta cfg now (input.nonce i) (input.sent i 0) (bkUpdating sta)).map
      fun result => (result, false)
  else if (sta.saTimeout ≠ 0 ∧ sta.saTimeout < now) ∨
      (sta.bkLifeTimeout ≠ 0 ∧ sta.bkLifeTimeout < now) then
    some (removed sta, outstanding sta.status)
  else if sta.status = .authenticated ∨ sta.sendinfo.curCount = 0 then some ((sta, []), false)
  else if sta.sendinfo.timeout ≤ now - sta.sendinfo.sendTime then
    if sta.sendinfo.maxCount ≤ sta.sendinfo.curCount then
      some (removed sta, outstanding sta.status)
    else
      some ((resent now sta, resendMarks cfg sta), false)
  else some ((sta, []), false)

/-- What `timeout_retry` does to an entry, and whether it counts. -/
inductive RetryOutcome (cfg : Config) (input : Input) (i : Slot) (sta : Sta) :
    Sta × List Mark → Bool → Prop
  | same : RetryOutcome cfg input i sta (sta, []) false
  | update {result : Sta × List Mark} (status : sta.status = .authenticated)
      (activated : apActivateSta cfg input.now (input.nonce i) (input.sent i 0) (bkUpdating sta) =
        some result) :
      RetryOutcome cfg input i sta result false
  | removed (status : sta.status ≠ .noAuth) :
      RetryOutcome cfg input i sta (removed sta) (outstanding sta.status)
  | resent (status : sta.status ≠ .noAuth) :
      RetryOutcome cfg input i sta (resent input.now sta, resendMarks cfg sta) false

theorem retryEntry_outcome {sta : Sta} {counts : Bool}
    (retried : retryEntry cfg input i sta = some (result, counts)) :
    RetryOutcome cfg input i sta result counts := by
  unfold retryEntry at retried
  dsimp only at retried
  split at retried
  · cases retried
    exact .same
  next active =>
    split at retried
    next expired =>
      obtain ⟨other, activated, same⟩ := map_eq_some_iff.mp retried
      cases same
      exact .update expired.1 activated
    next =>
      split at retried
      · cases retried
        exact .removed active
      · split at retried
        · cases retried
          exact .same
        · split at retried
          · split at retried
            · cases retried
              exact .removed active
            · cases retried
              exact .resent active
          · cases retried
            exact .same

def retryLoop (cfg : Config) (input : Input) : List Slot → Vap → Nat → Option (Vap × Nat)
  | [], vap, waiting => some (vap, waiting)
  | i :: rest, vap, waiting =>
    match retryEntry cfg input i (vap.table i) with
    | none => none
    | some (result, counts) =>
      let vap := vap.put i result
      if counts then
        retryLoop cfg input rest { vap with groupNo := vap.groupNo - 1 } (waiting + 1)
      else
        retryLoop cfg input rest vap waiting

def timeoutRetry (cfg : Config) (input : Input) (vap : Vap) : Option Vap :=
  (retryLoop cfg input (List.finRange 32) vap 0).map fun result =>
    if result.1.groupStatus ∧ result.1.groupNo = 0 ∧ result.2 ≠ 0 then
      { setMcastkey input.now result.1 with groupStatus := false, rekeying := false }
    else
      result.1

def wapidRekeyMsk (cfg : Config) (input : Input) (vap : Vap) : Vap :=
  if cfg.multicastRekeyTimed ∧ cfg.waiPolicy &&& 0x03 ≠ 0 ∧
      vap.mskRekeyTimer + cfg.mskRekeyPeriod ≤ input.now then
    if vap.rekeying then vap else mskRekeyHandle cfg input vap
  else
    vap

/-- The condition of `wapid_rekey_usk` on an entry. -/
def uskRekeyDue (cfg : Config) (input : Input) (sta : Sta) : Bool :=
  sta.status == .authenticated && !sta.rekeying &&
    sta.uskRekeyTimer + cfg.uskRekeyPeriod ≤ input.now

def rekeyLoop (cfg : Config) (input : Input) : List Slot → Vap → Vap
  | [], vap => vap
  | i :: rest, vap =>
    if uskRekeyDue cfg input (vap.table i) then
      rekeyLoop cfg input rest
        (vap.put i (uskRekeyHandle cfg input.now (input.sent i 1) (vap.table i)))
    else
      rekeyLoop cfg input rest vap

def wapidRekeyUsk (cfg : Config) (input : Input) (vap : Vap) : Vap :=
  if cfg.unicastRekeyTimed then rekeyLoop cfg input (List.finRange 32) vap else vap

/-- `usk_rekey_handle` on the entry of a station, if it meets a condition. -/
def rekeyStation (cfg : Config) (input : Input) (mac : Mac) (may : Sta → Bool) (vap : Vap) : Vap :=
  match apGetSta mac vap.table with
  | none => vap
  | some i =>
    if may (vap.table i) then
      vap.put i (uskRekeyHandle cfg input.now (input.sent i 0) (vap.table i))
    else
      vap

def staUskRekeyHandle (cfg : Config) (input : Input) (mac : Mac) (vap : Vap) : Vap :=
  rekeyStation cfg input mac
    (fun sta => !sta.rekeying && sta.authMode == 0 && sta.status == .authenticated) vap

def wapidCtrlRekey (cfg : Config) (input : Input) (mac : Mac) (vap : Vap) : Vap :=
  rekeyStation cfg input mac (fun sta => sta.status == .authenticated) vap

/-- What `recv_rs_data` returns of a frame: the buffer holds its header too. -/
def received (frame : Bytes) : Bytes := frame.take (fromAsLen - 14)

/-- The reaction of `eloop_run`; there is no result where the program has no meaning. -/
def step (cfg : Config) (vap : Vap) (input : Input) : Option Vap :=
  match input.event with
  | .assoc mt => authInitiate cfg input mt vap
  | .aging mac => some (staTimeoutHandle cfg input mac vap)
  | .unicastRekey mac => some (staUskRekeyHandle cfg input mac vap)
  | .multiRekey => some (staMskRekeyHandle cfg input vap)
  | .ctrlRekey mac => some (wapidCtrlRekey cfg input mac vap)
  | .fromSta mac frame =>
    if (received frame).length < headLen ∨ cfg.waiPolicy &&& 0x0C = 0 then some vap
    else wapiProcessFromSta cfg input mac (received frame) vap
  | .fromAs frame =>
    let frame := frame.take fromAsLen
    if frame.length ≤ headLen ∨ slice frame headLen 6 ≠ cfg.macaddr.toList then some vap
    else wapiProcessFromAs cfg input frame vap
  | .timeoutRetry => timeoutRetry cfg input vap
  | .rekeyHandle => some (wapidRekeyUsk cfg input (wapidRekeyMsk cfg input vap))

/-- `ap_initialize`, `ap_initialize_akm` and `ap_initialize_sta_table`. -/
def Vap.init (cfg : Config) (now : UInt32) (msk : Vector UInt8 16) : Vap :=
  let vap : Vap :=
    { table := fun _ => resetStaInfo
      past := fun _ => []
      gnonce := List.replicate 4 0x5C365C36
      groupNo := 0xFFFF
      groupStatus := false
      rekeying := false
      msksa := ⟨0, msk⟩
      mskRekeyTimer := 0
      installed := none }
  if cfg.waiPolicy &&& 0x0C = 0 then vap else setMcastkey now vap

end AthApps.Wapi
