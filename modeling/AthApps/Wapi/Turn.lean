import AthApps.Wapi.Change

/-!
# The turns of an entry

`Change` says which handler a step calls for an entry.  A `Turn` says what comes
of it, branch by branch, so that a property of entries is proved by one case
analysis.
-/

set_option autoImplicit false

namespace AthApps.Wapi

open AthApps.Lib

/-- A response of the unicast negotiation came in and its authenticator was compared. -/
structure UskHeard (cfg : Config) (vap : Vap) (input : Input) (i : Slot) (frame : Bytes)
    (res : SessionKeyNegResponse) (uskid : Fin 2) : Prop where
  heard : Heard cfg vap input i frame
  kind : getPacketSubType frame = SubType.uskNegResponse.code
  response : UskResponse (vap.table i) frame res uskid

def MicHolds (cfg : Config) (sta : Sta) (frame : Bytes) (res : SessionKeyNegResponse)
    (uskid : Fin 2) : Prop :=
  cfg.mic ((uskDerived cfg sta res uskid).usksa.usk uskid).mck (authenticated frame) = res.mic

def uskMarks (frame : Bytes) (bk : Vector UInt8 16) : List Mark :=
  [.received frame, .accepted frame, .uskVerified frame bk]

/-- The entry after the answer of a rekey that overlaps with a group rekey; the answer to the
announcement is still under the old key. -/
def regrouped (cfg : Config) (input : Input) (i : Slot) (sta : Sta) : Sta × List Mark :=
  let result := confirmKey cfg input i (useKey sta .waitingDynamicGrouping true)
  ({ result.1 with
    usksa := { result.1.usksa with dynamicKeyUsed := other result.1.usksa.uskid } }, result.2)

inductive Turn (cfg : Config) (vap : Vap) (input : Input) (i : Slot) : Sta × List Mark → Prop
  | same : Turn cfg vap input i (vap.table i, [])
  | ignored {frame : Bytes} (heard : Heard cfg vap input i frame) :
      Turn cfg vap input i (vap.table i, [.received frame])
  -- an association
  | associated (mt : AssoMt) (event : input.event = .assoc mt)
      (position : apGetStaPos mt.mac vap.table = some i) (saTimeout : UInt32) :
      Turn cfg vap input i ({ apAddSta cfg mt with saTimeout := saTimeout }, [.reset])
  | activated (mt : AssoMt) (event : input.event = .assoc mt)
      (position : apGetStaPos mt.mac vap.table = some i) (saTimeout : UInt32)
      (suite : chosenSuite mt = some .certificate) (flag : UInt8) (aeAuthFlag : Vector UInt8 32)
      (frame : Bytes) :
      Turn cfg vap input i ({ (sendActivation cfg input.now (input.sent i 0) flag aeAuthFlag frame
            (apAddSta cfg mt)).1 with saTimeout := saTimeout }, [.reset, .sent frame])
  | negotiated (mt : AssoMt) (event : input.event = .assoc mt)
      (position : apGetStaPos mt.mac vap.table = some i) (saTimeout : UInt32)
      (suite : chosenSuite mt = some .psk) :
      Turn cfg vap input i ({ (uskNegotiationReq cfg input.now (input.nonce i) (input.sent i 0)
            (apPskbkidDerivation cfg (apAddSta cfg mt))).1 with saTimeout := saTimeout },
          [.reset, .bkSet .psk cfg.pskBk,
            .sent (firstRequest cfg (input.nonce i) (apPskbkidDerivation cfg (apAddSta cfg mt)))])
  | aged (mac : Mac) (event : input.event = .aging mac) (found : apGetSta mac vap.table = some i) :
      Turn cfg vap input i (Sta.zero, [.reset])
  -- rekeys
  | rekeyed (ok : Bool) (status : (vap.table i).status = .authenticated) :
      Turn cfg vap input i (uskRekeyHandle cfg input.now ok (vap.table i))
  | announced (msksa : Msksa) (gnonce : List UInt32) (sent : input.sent i 0 = true)
      (told : announced (vap.table i).status = true) :
      Turn cfg vap input i (announceTo cfg input.now msksa gnonce true (vap.table i))
  | unannounced (frame : Bytes) (failed : input.sent i 0 = false)
      (told : Wapi.announced (vap.table i).status = true) :
      Turn cfg vap input i ({ vap.table i with flag := (vap.table i).flag &&& 0x9F }, [.sent frame])
  | unannouncedRekey (frame : Bytes) (ok : Bool) (failed : input.sent i 0 = false)
      (status : (vap.table i).status = .authenticated) :
      Turn cfg vap input i
        (andThen ({ vap.table i with flag := (vap.table i).flag &&& 0x9F }, [.sent frame])
          (uskRekeyHandle cfg input.now ok))
  -- certificates
  | requested {frame : Bytes} (heard : Heard cfg vap input i frame)
      (status : (vap.table i).status ≠ .waitingAuthFromAs) (request : StaAuthRequest) :
      Turn cfg vap input i
        (andThen (vap.table i, [.received frame]) fun sta =>
          forwardRequest cfg input i frame
            (packApAuthRequest cfg request (requestTaken cfg (input.nonce i) request sta))
            (resetTableItem (requestTaken cfg (input.nonce i) request sta)))
  | rejected (status : (vap.table i).status = .waitingAuthFromAs) (marks : List Mark)
      (sent : ∀ mark ∈ marks, ∃ frame, mark = .sent frame) :
      Turn cfg vap input i (resetStaInfo, marks ++ [.deauth, .reset])
  | served {frame : Bytes} {sta : Sta} (answered : Answered cfg input frame)
      (accepts : certificateAuthRes cfg input.now input.seed vap.table frame = .accepted i sta)
      (message : Option Bytes) :
      Turn cfg vap input i
        (andThen (sta, bkMarks cfg input.seed (vap.table i)) fun sta =>
          andThen
            (match message with
              | none => (sta, [])
              | some message => ({ setTableItem cfg input.now sta .sta .buf0 message
                  .staAccessResponse with aeGroupSc := sta.aeGroupSc + 1 }, [.sent message]))
            (uskNegotiationReq cfg input.now (input.nonce i) (input.sent i 0)))
  -- unicast negotiation
  | mismatched {frame : Bytes} {res : SessionKeyNegResponse} {uskid : Fin 2}
      (answer : UskHeard cfg vap input i frame res uskid)
      (mic : ¬ MicHolds cfg (vap.table i) frame res uskid) :
      Turn cfg vap input i (uskDerived cfg (vap.table i) res uskid, [.received frame])
  | disauthenticated {frame : Bytes} {res : SessionKeyNegResponse} {uskid : Fin 2}
      (answer : UskHeard cfg vap input i frame res uskid)
      (mic : MicHolds cfg (vap.table i) frame res uskid) :
      Turn cfg vap input i (uskReset res, [.received frame, .accepted frame, .deauth, .reset])
  | keyed {frame : Bytes} {res : SessionKeyNegResponse} {uskid : Fin 2}
      (answer : UskHeard cfg vap input i frame res uskid)
      (mic : MicHolds cfg (vap.table i) frame res uskid)
      (status : (vap.table i).status = .sessionkeying) :
      Turn cfg vap input i
        (andThen (uskTaken cfg (vap.table i) res uskid, uskMarks frame (vap.table i).bksa.bk)
          fun sta => confirmKey cfg input i (useKey sta .authenticated true))
  | keyedGrouping {frame : Bytes} {res : SessionKeyNegResponse} {uskid : Fin 2}
      (answer : UskHeard cfg vap input i frame res uskid)
      (mic : MicHolds cfg (vap.table i) frame res uskid)
      (status : (vap.table i).status = .sessiongrouping) :
      Turn cfg vap input i
        (andThen (uskTaken cfg (vap.table i) res uskid, uskMarks frame (vap.table i).bksa.bk)
          (regrouped cfg input i))
  | keyedDynamic {frame : Bytes} {res : SessionKeyNegResponse} {uskid : Fin 2}
      (answer : UskHeard cfg vap input i frame res uskid)
      (mic : MicHolds cfg (vap.table i) frame res uskid)
      (status : (vap.table i).status = .waitingDynamicSession) :
      Turn cfg vap input i
        (andThen (uskTaken cfg (vap.table i) res uskid, uskMarks frame (vap.table i).bksa.bk)
          fun sta => confirmKey cfg input i (useKey sta .authenticated false))
  | keyedFirst {frame : Bytes} {res : SessionKeyNegResponse} {uskid : Fin 2}
      (answer : UskHeard cfg vap input i frame res uskid)
      (mic : MicHolds cfg (vap.table i) frame res uskid)
      (status : (vap.table i).status = .waitingSession) (mode : (vap.table i).authMode = 0) :
      Turn cfg vap input i
        (andThen (uskTaken cfg (vap.table i) res uskid, uskMarks frame (vap.table i).bksa.bk)
          fun sta => andThen (uskNegotiationConfirmation cfg input.now (input.sent i 0) sta)
            (mskAnnouncementTx cfg input.now vap.msksa vap.gnonce (input.sent i 1)))
  | preAuthenticated {frame : Bytes} {res : SessionKeyNegResponse} {uskid : Fin 2}
      (answer : UskHeard cfg vap input i frame res uskid)
      (mic : MicHolds cfg (vap.table i) frame res uskid)
      (status : (vap.table i).status = .waitingSession) :
      Turn cfg vap input i
        ({ uskTaken cfg (vap.table i) res uskid with
          status := .preAuthOver
          preAuthSaveTime := input.now }, uskMarks frame (vap.table i).bksa.bk)
  -- the group key
  | told {frame : Bytes} (heard : Heard cfg vap input i frame)
      (kind : getPacketSubType frame = SubType.mskResponse.code)
      (valid : mskResponseValid cfg vap.msksa vap.gnonce (vap.table i) frame = true)
      (status : (vap.table i).status = .groupnoticeing ∨
        (vap.table i).status = .waitingDynamicGrouping) :
      Turn cfg vap input i
        (mskAnswered (resetTableItem (vap.table i)), [.received frame, .accepted frame])
  | toldFirst {frame : Bytes} (heard : Heard cfg vap input i frame)
      (kind : getPacketSubType frame = SubType.mskResponse.code)
      (valid : mskResponseValid cfg vap.msksa vap.gnonce (vap.table i) frame = true)
      (status : (vap.table i).status = .waitingGrouping) :
      Turn cfg vap input i
        ({ (setUcastkey input.now (mskAnswered (resetTableItem (vap.table i)))).1 with
          saTimeout := 0 },
          [.received frame, .accepted frame, .unicastKey (vap.table i).usksa.uskid
              ((vap.table i).usksa.usk (vap.table i).usksa.uskid) (vap.table i).bksa.bk])
  | toldKeying {frame : Bytes} (heard : Heard cfg vap input i frame)
      (kind : getPacketSubType frame = SubType.mskResponse.code)
      (valid : mskResponseValid cfg vap.msksa vap.gnonce (vap.table i) frame = true)
      (status : (vap.table i).status = .sessiongrouping) :
      Turn cfg vap input i ({ resetTableItem (vap.table i) with status := .waitingDynamicSession },
          [.received frame, .accepted frame])
  -- timers
  | unrenewed (status : (vap.table i).status = .authenticated) :
      Turn cfg vap input i (bkUpdating (vap.table i), [])
  | renewed (status : (vap.table i).status = .authenticated) (flag : UInt8)
      (aeAuthFlag : Vector UInt8 32) (frame : Bytes) :
      Turn cfg vap input i (sendActivation cfg input.now (input.sent i 0) flag aeAuthFlag frame
          (bkUpdating (vap.table i)))
  | removed (status : (vap.table i).status ≠ .noAuth) :
      Turn cfg vap input i (removed (vap.table i))
  | resent (status : (vap.table i).status ≠ .noAuth) :
      Turn cfg vap input i (resent input.now (vap.table i), resendMarks cfg (vap.table i))

variable {cfg : Config} {vap : Vap} {input : Input} {i : Slot}

variable {result : Sta × List Mark}

theorem initiateEntry_turn {mt : AssoMt}
    (event : input.event = .assoc mt) (position : apGetStaPos mt.mac vap.table = some i)
    (initiated : initiateEntry cfg input i mt = some result) : Turn cfg vap input i result := by
  rw [initiateEntry, Option.map_eq_some_iff] at initiated
  obtain ⟨started, begun, rfl⟩ := initiated
  split at begun
  next suite =>
    obtain rfl | ⟨flag, aeAuthFlag, asuId, rfl⟩ := apActivateSta_cases begun
    · exact .associated mt event position _
    · exact .activated mt event position _ suite flag aeAuthFlag _
  next suite =>
    cases begun
    exact .negotiated mt event position _ suite
  next =>
    cases begun
    exact .associated mt event position _

theorem uskAccepted_cases {sta : Sta} (msksa : Msksa) (gnonce : List UInt32)
    (accepts : acceptsUskResponse sta.status = true) :
    (sta.status = .sessionkeying ∧ uskAccepted cfg input i msksa gnonce sta =
      confirmKey cfg input i (useKey sta .authenticated true)) ∨
    (sta.status = .sessiongrouping ∧ uskAccepted cfg input i msksa gnonce sta =
      regrouped cfg input i sta) ∨
    (sta.status = .waitingDynamicSession ∧ uskAccepted cfg input i msksa gnonce sta =
      confirmKey cfg input i (useKey sta .authenticated false)) ∨
    (sta.status = .waitingSession ∧ sta.authMode = 0 ∧ uskAccepted cfg input i msksa gnonce sta =
      andThen (uskNegotiationConfirmation cfg input.now (input.sent i 0) sta)
        (mskAnnouncementTx cfg input.now msksa gnonce (input.sent i 1))) ∨
    (sta.status = .waitingSession ∧ uskAccepted cfg input i msksa gnonce sta =
      ({ sta with status := .preAuthOver, preAuthSaveTime := input.now }, [])) := by
  simp only [acceptsUskResponse, Bool.or_eq_true, beq_iff_eq] at accepts
  rcases accepts with ((status | status) | status) | status
  · by_cases mode : sta.authMode = 0
    · exact Or.inr (Or.inr (Or.inr (Or.inl ⟨status, mode, by simp [uskAccepted, status, mode]⟩)))
    · exact Or.inr (Or.inr (Or.inr (Or.inr ⟨status, by simp [uskAccepted, status, mode]⟩)))
  · exact Or.inl ⟨status, by simp only [uskAccepted, status]⟩
  · exact Or.inr (Or.inl ⟨status, by simp only [uskAccepted, status, regrouped]⟩)
  · exact Or.inr (Or.inr (Or.inl ⟨status, by simp only [uskAccepted, status]⟩))

theorem processUskResponse_turn {frame : Bytes} (heard : Heard cfg vap input i frame)
    (kind : getPacketSubType frame = SubType.uskNegResponse.code)
    (processed :
      processUskResponse cfg input i vap.msksa vap.gnonce frame (vap.table i) = some result) :
    Turn cfg vap input i (result.1, .received frame :: result.2) := by
  obtain ⟨later, outcome, rfl⟩ | ⟨later, outcome, rfl⟩ | ⟨later, outcome, rfl⟩ :=
    processUskResponse_cases processed
  · cases outcome with
    | refused => exact .ignored heard
    | mismatch response mic => exact .mismatched ⟨heard, kind, response⟩ mic
  · cases outcome with
    | disauthenticated response mic => exact .disauthenticated ⟨heard, kind, response⟩ mic
  · cases outcome with
    | @accepted res uskid response mic wie =>
      have answer : UskHeard cfg vap input i frame res uskid := ⟨heard, kind, response⟩
      simp only [andThen]
      rcases @uskAccepted_cases cfg input i (uskTaken cfg (vap.table i) res uskid) vap.msksa
        vap.gnonce response.status with
        ⟨status, result⟩ | ⟨status, result⟩ | ⟨status, result⟩ | ⟨status, mode, result⟩ |
          ⟨status, result⟩
      · rw [result]
        exact .keyed answer mic status
      · rw [result]
        exact .keyedGrouping answer mic status
      · rw [result]
        exact .keyedDynamic answer mic status
      · rw [result]
        exact .keyedFirst answer mic status mode
      · rw [result]
        exact .preAuthenticated answer mic status

theorem mskResponse_turn {frame : Bytes} (heard : Heard cfg vap input i frame)
    (kind : getPacketSubType frame = SubType.mskResponse.code)
    (valid : mskResponseValid cfg vap.msksa vap.gnonce (vap.table i) frame = true) :
    Turn cfg vap input i ((mskAccepted input frame (resetTableItem (vap.table i))).1,
        .received frame :: (mskAccepted input frame (resetTableItem (vap.table i))).2) := by
  have accepts : acceptsMskResponse (vap.table i).status = true := by
    simp only [mskResponseValid, Bool.and_eq_true] at valid
    exact valid.1
  unfold mskAccepted
  split
  next status => exact .told heard kind valid (Or.inl status)
  next status => exact .told heard kind valid (Or.inr status)
  next status => exact .toldFirst heard kind valid status
  next status => exact .toldKeying heard kind valid status
  next notice dynamic first keying =>
    exfalso
    simp only [acceptsMskResponse, Bool.or_eq_true, beq_iff_eq] at accepts
    rcases accepts with ((status | status) | status) | status
    · exact first status
    · exact notice status
    · exact keying status
    · exact dynamic status

theorem retryEntry_turn {counts : Bool}
    (retried : retryEntry cfg input i (vap.table i) = some (result, counts)) :
    Turn cfg vap input i result := by
  cases retryEntry_outcome retried with
  | same => exact .same
  | update status activated =>
    obtain rfl | ⟨flag, aeAuthFlag, asuId, rfl⟩ := apActivateSta_cases activated
    · exact .unrenewed status
    · exact .renewed status flag aeAuthFlag _
  | removed status => exact .removed status
  | resent status => exact .resent status

theorem Change.turn (change : Change cfg vap input i result) : Turn cfg vap input i result := by
  cases change with
  | none => exact .same
  | assoc mt event position initiated => exact initiateEntry_turn event position initiated
  | aging mac event found => exact .aged mac event found
  | rekey ok status => exact .rekeyed ok status
  | announce msksa gnonce told =>
    cases sent : input.sent i 0 with
    | true => exact .announced msksa gnonce sent told
    | false => exact .unannounced _ sent told
  | announceRekey msksa gnonce ok failed status => exact .unannouncedRekey _ ok failed status
  | ignored heard => exact .ignored heard
  | access heard kind processed =>
    obtain rfl | ⟨status, request, rfl⟩ := processAccessRequest_cases processed
    · exact .ignored heard
    · exact .requested heard status request
  | usk heard kind processed => exact processUskResponse_turn heard kind processed
  | msk heard kind valid => exact mskResponse_turn heard kind valid
  | rejected answered rejects responded =>
    obtain ⟨status, -⟩ := certificateAuthRes_rejected rejects
    obtain rfl | ⟨frame, rfl⟩ := accessAuthRes_cases responded
    · exact .rejected status [] (by simp)
    · exact .rejected status [.sent frame] (by simp)
  | server answered accepts responded =>
    obtain ⟨first, sent, rfl⟩ := Option.map_eq_some_iff.mp responded
    obtain rfl | ⟨message, rfl⟩ := accessAuthRes_cases sent
    · exact .served answered accepts Option.none
    · exact .served answered accepts (some message)
  | retry event retried => exact retryEntry_turn retried

theorem reaches_turn (holds : List Mark → Sta → Prop) {condition : Vap → Input → Prop}
    {now : UInt32} {msk : Vector UInt8 16} (initially : holds [] resetStaInfo)
    (keeps : ∀ vap input i result, condition vap input →
      (∀ j, holds (vap.past j) (vap.table j)) → Turn cfg vap input i result →
      holds (vap.past i ++ result.2) result.1)
    (reached : Reaches (step cfg) condition (Vap.init cfg now msk) vap) (i : Slot) :
    holds (vap.past i) (vap.table i) := by
  refine reaches_entry holds initially ?_ reached i
  intro vap input i result met all change
  exact keeps vap input i result met all change.turn

end AthApps.Wapi
