import AthApps.Wapi.Resend
import AthApps.Wapi.Turn

/-!
# The answers of two rekeys at once

A station in `MT_SESSIONGROUPING` owes an answer to a unicast request and one to
a group announcement.  Whichever comes first, the same key is installed and the
station ends authenticated, but the branch `MT_WAITING_DYNAMIC_SESSION` sets the
two flags the other way round, so the records differ.
-/

set_option autoImplicit false

namespace AthApps.Wapi

open AthApps.Lib Option
open List hiding Vector

variable {cfg : Config} {vap : Vap} {input : Input} {i : Slot} {sta later : Sta}

/-- During a rekey the old key is in use; and the number that frames are compared with is 0. -/
structure Rekeys (sta : Sta) : Prop where
  number : sta.asueGroupSc = 0
  used : sta.status = .sessionkeying ∨ sta.status = .sessiongrouping →
    sta.usksa.dynamicKeyUsed = other sta.usksa.uskid

theorem Rekeys.idle (number : sta.asueGroupSc = 0) (keying : sta.status ≠ .sessionkeying)
    (grouping : sta.status ≠ .sessiongrouping) : Rekeys sta := by
  refine ⟨number, ?_⟩
  rintro (status | status)
  · exact absurd status keying
  · exact absurd status grouping

theorem Rekeys.congr (rekeys : Rekeys sta) (number : later.asueGroupSc = sta.asueGroupSc)
    (status : later.status = sta.status) (uskid : later.usksa.uskid = sta.usksa.uskid)
    (used : later.usksa.dynamicKeyUsed = sta.usksa.dynamicKeyUsed) : Rekeys later := by
  refine ⟨number.trans rekeys.number, ?_⟩
  rw [status, uskid, used]
  exact rekeys.used

theorem uskRekeyHandle_rekeys (now : UInt32) (ok : Bool) (number : sta.asueGroupSc = 0) :
    Rekeys (uskRekeyHandle cfg now ok sta).1 := by
  rw [uskRekeyHandle_eq]
  refine ⟨number, fun _ => ?_⟩
  simp [Usksa.rekeyed]

variable {result : Sta × List Mark} {now : UInt32}

variable {frame usk msk : Bytes}

theorem sendActivation_rekeys {ok : Bool} {flag : UInt8} {aeAuthFlag : Vector UInt8 32}
    (number : sta.asueGroupSc = 0) (status : sta.status = .noAuth) :
    Rekeys (sendActivation cfg now ok flag aeAuthFlag frame sta).1 := by
  rw [sendActivation_eq]
  apply Rekeys.idle
  · exact number
  · cases ok <;> simp [status]
  · cases ok <;> simp [status]

theorem uskNegotiationReq_rekeys {nonce : Vector UInt8 32} {ok : Bool}
    (number : sta.asueGroupSc = 0) (keying : sta.status ≠ .sessionkeying)
    (grouping : sta.status ≠ .sessiongrouping) :
    Rekeys (uskNegotiationReq cfg now nonce ok sta).1 := by
  rw [uskNegotiationReq_eq]
  apply Rekeys.idle
  · exact number
  · cases ok <;> simp [keying]
  · cases ok <;> simp [grouping]

theorem announceTo_rekeys {msksa : Msksa} {gnonce : List UInt32}
    (told : announced sta.status = true) (rekeys : Rekeys sta) :
    Rekeys (announceTo cfg now msksa gnonce true sta).1 := by
  rw [announceTo_sent]
  by_cases idle : sta.status = .authenticated
  · apply Rekeys.idle
    · exact rekeys.number
    · simp [idle]
    · simp [idle]
  · have keying : sta.status = .sessionkeying := by simpa [announced, idle] using told
    exact ⟨rekeys.number, fun _ => rekeys.used (Or.inl keying)⟩

theorem forwardRequest_rekeys {message : Bytes} (rekeys : Rekeys sta) :
    Rekeys (forwardRequest cfg input i frame message sta).1 := by
  simp only [forwardRequest]
  split
  · cases input.sent i 0 with
    | false => exact rekeys.congr rfl rfl rfl rfl
    | true => exact Rekeys.idle rekeys.number (by simp) (by simp)
  · exact Rekeys.idle rekeys.number (by simp) (by simp)

theorem Turn.rekeys (rekeys : Rekeys (vap.table i))
    (turn : Turn cfg vap input i result) : Rekeys result.1 := by
  have number := rekeys.number
  cases turn with
  | same => exact rekeys
  | ignored => exact rekeys
  | associated => exact Rekeys.idle rfl (by rintro ⟨⟩) (by rintro ⟨⟩)
  | activated => exact (sendActivation_rekeys rfl rfl).congr rfl rfl rfl rfl
  | negotiated =>
    refine (uskNegotiationReq_rekeys ?_ ?_ ?_).congr rfl rfl rfl rfl
    · rfl
    · rintro ⟨⟩
    · rintro ⟨⟩
  | aged => exact Rekeys.idle rfl (by rintro ⟨⟩) (by rintro ⟨⟩)
  | rekeyed ok status => exact uskRekeyHandle_rekeys input.now ok number
  | announced msksa gnonce sent told => exact announceTo_rekeys told rekeys
  | unannounced => exact rekeys.congr rfl rfl rfl rfl
  | unannouncedRekey frame ok => exact uskRekeyHandle_rekeys input.now ok number
  | requested heard status request =>
    apply forwardRequest_rekeys
    exact rekeys.congr rfl rfl rfl rfl
  | rejected => exact Rekeys.idle rfl (by rintro ⟨⟩) (by rintro ⟨⟩)
  | served answered accepts message =>
    obtain ⟨status, rfl⟩ := certificateAuthRes_taken accepts
    obtain ⟨aeKeyData, bksa, life, reauth, taken⟩ :=
      responseTaken_eq cfg input.now input.seed (vap.table i)
    rw [taken]
    cases message with
    | none =>
      apply uskNegotiationReq_rekeys
      · exact number
      · simp [resetTableItem, status]
      · simp [resetTableItem, status]
    | some message =>
      apply uskNegotiationReq_rekeys
      · exact number
      · simp [resetTableItem, status]
      · simp [resetTableItem, status]
  | mismatched => exact rekeys.congr rfl rfl rfl rfl
  | disauthenticated => exact Rekeys.idle rfl (by rintro ⟨⟩) (by rintro ⟨⟩)
  | keyed =>
    rw [andThen, confirmKey_eq]
    exact Rekeys.idle number (by rintro ⟨⟩) (by rintro ⟨⟩)
  | keyedGrouping =>
    rw [andThen, regrouped, confirmKey_eq]
    exact Rekeys.idle number (by rintro ⟨⟩) (by rintro ⟨⟩)
  | keyedDynamic =>
    rw [andThen, confirmKey_eq]
    exact Rekeys.idle number (by rintro ⟨⟩) (by rintro ⟨⟩)
  | @keyedFirst frame res uskid answer mic status mode =>
    rw [andThen, uskNegotiationConfirmation_eq, andThen, mskAnnouncementTx_eq]
    have waiting : (uskTaken cfg (vap.table i) res uskid).status = .waitingSession := status
    apply Rekeys.idle
    · exact number
    · cases input.sent i 1 <;> simp [waiting]
    · cases input.sent i 1 <;> simp [waiting]
  | preAuthenticated => exact Rekeys.idle number (by rintro ⟨⟩) (by rintro ⟨⟩)
  | told => exact Rekeys.idle number (by rintro ⟨⟩) (by rintro ⟨⟩)
  | toldFirst => exact Rekeys.idle number (by rintro ⟨⟩) (by rintro ⟨⟩)
  | toldKeying => exact Rekeys.idle number (by rintro ⟨⟩) (by rintro ⟨⟩)
  | unrenewed => exact Rekeys.idle number (by rintro ⟨⟩) (by rintro ⟨⟩)
  | renewed =>
    apply sendActivation_rekeys
    · exact number
    · rfl
  | removed => exact Rekeys.idle rfl (by rintro ⟨⟩) (by rintro ⟨⟩)
  | resent => exact rekeys.congr rfl rfl rfl rfl

theorem reaches_rekeys {condition : Vap → Input → Prop} {msk : Vector UInt8 16}
    (reached : Reaches (step cfg) condition (Vap.init cfg now msk) vap) (i : Slot) :
    Rekeys (vap.table i) := by
  refine reaches_turn (fun _ sta => Rekeys sta) ?_ ?_ reached i
  · exact Rekeys.idle rfl (by rintro ⟨⟩) (by rintro ⟨⟩)
  · intro vap input i result met rekeys turn
    exact turn.rekeys (rekeys i)

/-- A station follows the request for a rekey: its response has the index and the challenge of
the request and an authenticator under the new key. -/
def uskAnswerValid (cfg : Config) (sta : Sta) (frame : Bytes) : Bool :=
  match unpackUcastkeyNegResponse frame with
  | .error _ => false
  | .ok res =>
    let uskid := sta.usksa.uskid
    getPacketSubType frame == SubType.uskNegResponse.code && res.uskid.toNat == uskid.val &&
      res.flag &&& 0x10 != 0 && !(sta.usksa.usk uskid).validFlag &&
      res.aeChallenge == sta.aeNonce &&
      cfg.mic ((uskDerived cfg sta res uskid).usksa.usk uskid).mck (authenticated frame) == res.mic

def mskAnswerValid (cfg : Config) (vap : Vap) (i : Slot) (frame : Bytes) : Bool :=
  getPacketSubType frame == SubType.mskResponse.code &&
    mskResponseValid cfg vap.msksa vap.gnonce (vap.table i) frame

/-- The parts of two records that agree: all but the flags. -/
structure SameButFlags (first second : Sta) : Prop where
  status : first.status = second.status
  uskid : first.usksa.uskid = second.usksa.uskid
  dynamicKeyUsed : first.usksa.dynamicKeyUsed = second.usksa.dynamicKeyUsed
  keys : ∀ uskid, { first.usksa.usk uskid with validFlag := false } =
    { second.usksa.usk uskid with validFlag := false }

/-- Index and keys of each call of `set_ucastkey`. -/
def installedKeys (past : List Mark) : List (Fin 2 × Vector UInt8 16 × Vector UInt8 16) :=
  past.filterMap fun mark => match mark with
    | .unicastKey uskid usk _ => some (uskid, usk.uek, usk.uck)
    | _ => none

variable {mac : Mac}

theorem apGetSta_update {table : Slot → Sta} (found : apGetSta mac table = some i)
    (status : sta.status ≠ .noAuth) (same : sta.mac = (table i).mac) :
    apGetSta mac (Function.update table i sta) = some i := by
  obtain ⟨active, own⟩ : (table i).status ≠ .noAuth ∧ (table i).mac = mac := by
    simpa using find?_some found
  rw [apGetSta] at found ⊢
  rw [← found]
  congr 1
  funext j
  by_cases equal : j = i
  · subst equal
    rw [Function.update_self]
    simp [status, same, active, own]
  · rw [Function.update_of_ne equal]

theorem uskNegotiationRes_valid (accepts : acceptsUskResponse sta.status = true)
    (valid : uskAnswerValid cfg sta frame = true) :
    getPacketSubType frame = SubType.uskNegResponse.code ∧ ∃ res,
      uskNegotiationRes cfg sta frame = .accepted (uskTaken cfg sta res sta.usksa.uskid) ∧
      unpackUcastkeyNegResponse frame = .ok res := by
  rw [uskAnswerValid] at valid
  split at valid
  · cases valid
  next res unpacked =>
    simp only [Bool.and_eq_true, beq_iff_eq, bne_iff_ne, Bool.not_eq_eq_eq_not, Bool.not_true]
      at valid
    obtain ⟨⟨⟨⟨⟨kind, index⟩, update⟩, unused⟩, challenge⟩, mic⟩ := valid
    refine ⟨kind, res, ?_, unpacked⟩
    exact uskNegotiationRes_accepted ⟨accepts, unpacked, index, fun _ => unused, challenge⟩ mic
      update

/-- What `wapi_process_from_sta` leaves alone. -/
structure Processed (vap : Vap) (i : Slot) (result : Sta × List Mark) (after : Vap) : Prop where
  table : after.table = Function.update vap.table i result.1
  past : after.past i = vap.past i ++ result.2
  msksa : after.msksa = vap.msksa
  gnonce : after.gnonce = vap.gnonce

theorem Processed.entry {after : Vap} (processed : Processed vap i result after) :
    after.table i = result.1 := by
  rw [processed.table, Function.update_self]

theorem notifyGroupnotice_processed {after : Vap} (processed : Processed vap i result after) :
    Processed vap i result (notifyGroupnotice now after) := by
  rw [notifyGroupnotice]
  split
  · exact processed
  · exact ⟨processed.table, processed.past, processed.msksa, processed.gnonce⟩

theorem number_fresh (number : sta.asueGroupSc = 0) (frame : Bytes) :
    ¬ getPacketGroupSc frame % 256 < sta.asueGroupSc.toNat := by
  rw [number]
  exact Nat.not_lt_zero _

theorem wapiProcessFromSta_usk {mac : Mac} {frame : Bytes}
    (found : apGetSta mac vap.table = some i) (number : (vap.table i).asueGroupSc = 0)
    (accepts : acceptsUskResponse (vap.table i).status = true)
    (valid : uskAnswerValid cfg (vap.table i) frame = true) :
    ∃ res, unpackUcastkeyNegResponse frame = .ok res ∧ ∃ after,
      wapiProcessFromSta cfg input mac frame vap = some after ∧
      Processed vap i (andThen (uskTaken cfg (vap.table i) res (vap.table i).usksa.uskid,
            uskMarks frame (vap.table i).bksa.bk)
          (uskAccepted cfg input i vap.msksa vap.gnonce)) after := by
  obtain ⟨kind, res, accepted, unpacked⟩ := uskNegotiationRes_valid accepts valid
  refine ⟨res, unpacked, ?_⟩
  have other : ¬ SubType.uskNegResponse.code = SubType.staAcessRequest.code := by decide
  have runs : wapiProcessFromSta cfg input mac frame vap =
      some (vap.hear i frame (andThen (uskTaken cfg (vap.table i) res (vap.table i).usksa.uskid,
          [.accepted frame, .uskVerified frame (vap.table i).bksa.bk])
        (uskAccepted cfg input i vap.msksa vap.gnonce))) := by
    rw [wapiProcessFromSta, found]
    dsimp only
    rw [if_neg (number_fresh number frame), kind, if_neg other, if_pos rfl, processUskResponse,
      accepted]
    rfl
  refine ⟨_, runs, rfl, ?_, rfl, rfl⟩
  exact put_past_self vap i _

theorem wapiProcessFromSta_msk {mac : Mac} {frame : Bytes}
    (found : apGetSta mac vap.table = some i) (number : (vap.table i).asueGroupSc = 0)
    (valid : mskAnswerValid cfg vap i frame = true) : ∃ after,
    wapiProcessFromSta cfg input mac frame vap = some after ∧ Processed vap i
        (andThen (resetTableItem (vap.table i), [.received frame]) (mskAccepted input frame))
        after := by
  simp only [mskAnswerValid, Bool.and_eq_true, beq_iff_eq] at valid
  obtain ⟨kind, valid⟩ := valid
  have access : ¬ SubType.mskResponse.code = SubType.staAcessRequest.code := by decide
  have usk : ¬ SubType.mskResponse.code = SubType.uskNegResponse.code := by decide
  have runs : wapiProcessFromSta cfg input mac frame vap =
      some (processMskResponse cfg input i frame vap) := by
    rw [wapiProcessFromSta, found]
    dsimp only
    rw [if_neg (number_fresh number frame), kind, if_neg access, if_neg usk, if_pos rfl]
  refine ⟨_, runs, ?_⟩
  unfold processMskResponse
  rw [mskAnnouncementRes, if_pos valid]
  dsimp only
  have here : Processed vap i
      (andThen (resetTableItem (vap.table i), [.received frame]) (mskAccepted input frame))
      (vap.hear i frame (mskAccepted input frame (resetTableItem (vap.table i)))) := by
    refine ⟨rfl, ?_, rfl, rfl⟩
    exact put_past_self vap i _
  split
  · apply notifyGroupnotice_processed
    exact ⟨here.table, here.past, here.msksa, here.gnonce⟩
  · exact here

theorem mskResponseValid_congr {msksa : Msksa} {gnonce : List UInt32}
    (valid : mskResponseValid cfg msksa gnonce sta frame = true)
    (accepts : acceptsMskResponse later.status = true) (mac : later.mac = sta.mac)
    (used : later.usksa.dynamicKeyUsed = sta.usksa.dynamicKeyUsed)
    (mck : (later.usksa.usk sta.usksa.dynamicKeyUsed).mck =
      (sta.usksa.usk sta.usksa.dynamicKeyUsed).mck)
    (flag : later.flag &&& 0x60 = sta.flag &&& 0x60) :
    mskResponseValid cfg msksa gnonce later frame = true := by
  simp only [mskResponseValid, Bool.and_eq_true] at valid ⊢
  refine ⟨accepts, ?_⟩
  rw [mac, used, mck, flag]
  exact valid.2

theorem regrouped_eq (cfg : Config) (input : Input) (i : Slot) (sta : Sta) :
    regrouped cfg input i sta =
      ({ sta with
        status := .waitingDynamicGrouping
        usksa := { (useKey sta .authenticated true).usksa with
          dynamicKeyUsed := other sta.usksa.uskid }
        buf1 := none
        aeGroupSc := if input.sent i 0 then sta.aeGroupSc + 1 else sta.aeGroupSc
        uskRekeyTimer := input.now
        rekeying := false },
        (confirmKey cfg input i (useKey sta .waitingDynamicGrouping true)).2) := by
  rw [regrouped, confirmKey_eq]
  rfl

theorem useKey_usk (sta : Sta) (status : Status) (valid : Bool) (uskid : Fin 2) :
    { (useKey sta status valid).usksa.usk uskid with validFlag := false } =
      { sta.usksa.usk uskid with validFlag := false } := by
  by_cases here : uskid = sta.usksa.uskid
  · subst here
    simp [useKey, Usksa.setValid]
  · by_cases there : uskid = other sta.usksa.uskid
    · subst there
      simp [useKey, Usksa.setValid]
    · simp [useKey, Usksa.setValid, here, there]

theorem useKey_validFlag (sta : Sta) (status : Status) (valid : Bool) (uskid : Fin 2) :
    ((useKey sta status valid).usksa.usk uskid).validFlag =
      if uskid = sta.usksa.uskid then valid else !valid := by
  by_cases here : uskid = sta.usksa.uskid
  · subst here
    simp [useKey, Usksa.setValid]
  · have there : uskid = other sta.usksa.uskid := by
      revert here
      generalize sta.usksa.uskid = used
      revert uskid used
      decide
    rw [if_neg here]
    subst there
    simp [useKey, Usksa.setValid]

theorem installedKeys_append (first second : List Mark) :
    installedKeys (first ++ second) = installedKeys first ++ installedKeys second :=
  filterMap_append

theorem installedKeys_confirmKey (input : Input) (sta : Sta) (status : Status) (valid : Bool) :
    installedKeys (confirmKey cfg input i (useKey sta status valid)).2 =
      [(sta.usksa.uskid, (sta.usksa.usk sta.usksa.uskid).uek,
        (sta.usksa.usk sta.usksa.uskid).uck)] := by
  rw [confirmKey_eq]
  simp [installedKeys, useKey, Usksa.setValid]

theorem installedKeys_uskMarks (frame : Bytes) (bk : Vector UInt8 16) :
    installedKeys (uskMarks frame bk) = [] := rfl

/-- A record with the new key in use, and the key installed. -/
structure Settled (vap : Vap) (i : Slot) (taken : Sta) (valid : Bool) (after : Vap) : Prop where
  status : (after.table i).status = .authenticated
  usksa : (after.table i).usksa = (useKey taken .authenticated valid).usksa
  installed : installedKeys (after.past i) = installedKeys (vap.past i) ++
    [(taken.usksa.uskid, (taken.usksa.usk taken.usksa.uskid).uek,
      (taken.usksa.usk taken.usksa.uskid).uck)]

theorem groupFlags_kept (flag update : UInt8) :
    ((flag &&& 0xEF) ||| (update &&& 0x10)) &&& 0x60 = flag &&& 0x60 := by
  apply UInt8.toBitVec_inj.mp
  simp [BitVec.and_or_distrib_right, BitVec.and_assoc]

theorem usk_then_msk (first second : Input) (found : apGetSta mac vap.table = some i)
    (rekeys : Rekeys (vap.table i)) (status : (vap.table i).status = .sessiongrouping)
    (uskValid : uskAnswerValid cfg (vap.table i) usk = true)
    (mskValid : mskAnswerValid cfg vap i msk = true) :
    ∃ res, unpackUcastkeyNegResponse usk = .ok res ∧ ∃ after,
      (wapiProcessFromSta cfg first mac usk vap).bind (wapiProcessFromSta cfg second mac msk) =
        some after ∧
      Settled vap i (uskTaken cfg (vap.table i) res (vap.table i).usksa.uskid) true after := by
  have accepts : acceptsUskResponse (vap.table i).status = true := by
    rw [status]
    rfl
  obtain ⟨res, unpacked, middle, runs, processed⟩ :=
    @wapiProcessFromSta_usk cfg vap first i mac usk found rekeys.number accepts uskValid
  refine ⟨res, unpacked, ?_⟩
  have begun : uskAccepted cfg first i vap.msksa vap.gnonce
      (uskTaken cfg (vap.table i) res (vap.table i).usksa.uskid) =
        regrouped cfg first i (uskTaken cfg (vap.table i) res (vap.table i).usksa.uskid) := by
    have same : (uskTaken cfg (vap.table i) res (vap.table i).usksa.uskid).status =
        .sessiongrouping := status
    simp only [uskAccepted, same, regrouped]
  rw [andThen, begun, regrouped_eq] at processed
  have entry := processed.entry
  have position : apGetSta mac middle.table = some i := by
    rw [processed.table]
    apply apGetSta_update found
    · rintro ⟨⟩
    · rfl
  have again : mskAnswerValid cfg middle i msk = true := by
    simp only [mskAnswerValid, Bool.and_eq_true, beq_iff_eq] at mskValid ⊢
    refine ⟨mskValid.1, ?_⟩
    rw [processed.msksa, processed.gnonce]
    have used := rekeys.used (Or.inr status)
    apply mskResponseValid_congr mskValid.2
    · rw [entry]
      rfl
    · rw [entry]
      rfl
    · rw [entry, used]
      rfl
    · rw [entry, used]
      simp [useKey, Usksa.setValid, uskTaken, uskDerived, aeUskDerivation]
    · rw [entry]
      exact groupFlags_kept (vap.table i).flag res.flag
  have number : (middle.table i).asueGroupSc = 0 := by
    rw [entry]
    exact rekeys.number
  obtain ⟨after, later, finished⟩ := @wapiProcessFromSta_msk cfg middle second i mac msk position
    number again
  refine ⟨after, ?_, ?_, ?_, ?_⟩
  · rw [runs, bind_some, later]
  · rw [finished.entry, entry]
    rfl
  · rw [finished.entry, entry]
    rfl
  · have quiet : installedKeys (andThen (resetTableItem (middle.table i), [.received msk])
        (mskAccepted second msk)).2 = [] := by
      rw [entry]
      rfl
    rw [finished.past, processed.past, installedKeys_append, quiet]
    simp only [installedKeys_append, installedKeys_uskMarks, installedKeys_confirmKey,
      append_nil, nil_append]

theorem msk_then_usk (first second : Input) (found : apGetSta mac vap.table = some i)
    (rekeys : Rekeys (vap.table i)) (status : (vap.table i).status = .sessiongrouping)
    (uskValid : uskAnswerValid cfg (vap.table i) usk = true)
    (mskValid : mskAnswerValid cfg vap i msk = true) :
    ∃ res, unpackUcastkeyNegResponse usk = .ok res ∧ ∃ after,
      (wapiProcessFromSta cfg first mac msk vap).bind (wapiProcessFromSta cfg second mac usk) =
        some after ∧
      Settled vap i (uskTaken cfg (vap.table i) res (vap.table i).usksa.uskid) false after := by
  obtain ⟨middle, runs, processed⟩ :=
    @wapiProcessFromSta_msk cfg vap first i mac msk found rekeys.number mskValid
  have begun : mskAccepted first msk (resetTableItem (vap.table i)) =
      ({ resetTableItem (vap.table i) with status := .waitingDynamicSession },
        [.accepted msk]) := by
    have same : (resetTableItem (vap.table i)).status = .sessiongrouping := status
    simp only [mskAccepted, same]
  rw [andThen, begun] at processed
  have entry := processed.entry
  have position : apGetSta mac middle.table = some i := by
    rw [processed.table]
    apply apGetSta_update found
    · rintro ⟨⟩
    · rfl
  have number : (middle.table i).asueGroupSc = 0 := by
    rw [entry]
    exact rekeys.number
  have accepts : acceptsUskResponse (middle.table i).status = true := by
    rw [entry]
    rfl
  have again : uskAnswerValid cfg (middle.table i) usk = true := by
    rw [entry]
    exact uskValid
  obtain ⟨res, unpacked, after, later, finished⟩ :=
    @wapiProcessFromSta_usk cfg middle second i mac usk position number accepts again
  have ended : uskAccepted cfg second i middle.msksa middle.gnonce
      (uskTaken cfg (middle.table i) res (middle.table i).usksa.uskid) = confirmKey cfg second i
          (useKey (uskTaken cfg (middle.table i) res (middle.table i).usksa.uskid)
            .authenticated false) := by
    have same : (uskTaken cfg (middle.table i) res (middle.table i).usksa.uskid).status =
        .waitingDynamicSession := by
      rw [entry]
      rfl
    simp only [uskAccepted, same]
  rw [andThen, ended] at finished
  refine ⟨res, unpacked, after, ?_, ?_, ?_, ?_⟩
  · rw [runs, bind_some, later]
  · rw [finished.entry, confirmKey_eq]
    rfl
  · rw [finished.entry, confirmKey_eq, entry]
    rfl
  · have quiet : installedKeys ([.received msk] ++ [.accepted msk]) = [] := rfl
    rw [finished.past, processed.past]
    simp only [installedKeys_append, installedKeys_uskMarks, installedKeys_confirmKey, entry]
    rw [← installedKeys_append, quiet]
    simp only [append_nil, nil_append]
    rfl

/-- Whichever of the two answers is processed first, the records agree and the same key is
installed, but both flags differ. -/
theorem rekey_answers_flags_differ {now : UInt32} {key : Vector UInt8 16} {mac : Mac}
    {usk msk : Bytes}
    (reached : Reaches (step cfg) (fun _ _ => True) (Vap.init cfg now key) vap)
    (found : apGetSta mac vap.table = some i)
    (status : (vap.table i).status = .sessiongrouping)
    (uskValid : uskAnswerValid cfg (vap.table i) usk = true)
    (mskValid : mskAnswerValid cfg vap i msk = true) (inputs : Fin 4 → Input) :
    ∃ first second, (wapiProcessFromSta cfg (inputs 0) mac usk vap).bind
        (wapiProcessFromSta cfg (inputs 1) mac msk) = some first ∧
      (wapiProcessFromSta cfg (inputs 2) mac msk vap).bind
        (wapiProcessFromSta cfg (inputs 3) mac usk) = some second ∧
      (∀ uskid, ((first.table i).usksa.usk uskid).validFlag ≠
        ((second.table i).usksa.usk uskid).validFlag) ∧
      SameButFlags (first.table i) (second.table i) ∧
      installedKeys (first.past i) = installedKeys (second.past i) := by
  have rekeys := reaches_rekeys reached i
  obtain ⟨res, unpacked, first, runs, settled⟩ :=
    usk_then_msk (inputs 0) (inputs 1) found rekeys status uskValid mskValid
  obtain ⟨other, unpackedToo, second, runsToo, settledToo⟩ :=
    msk_then_usk (inputs 2) (inputs 3) found rekeys status uskValid mskValid
  have same : other = res := by
    rw [unpacked] at unpackedToo
    exact (Except.ok.inj unpackedToo).symm
  subst same
  refine ⟨first, second, runs, runsToo, ?_, ?_, ?_⟩
  · intro uskid
    rw [settled.usksa, settledToo.usksa, useKey_validFlag, useKey_validFlag]
    split <;> simp
  · refine ⟨?_, ?_, ?_, ?_⟩
    · rw [settled.status, settledToo.status]
    · rw [settled.usksa, settledToo.usksa]
      rfl
    · rw [settled.usksa, settledToo.usksa]
      rfl
    · intro uskid
      rw [settled.usksa, settledToo.usksa, useKey_usk, useKey_usk]
  · rw [settled.installed, settledToo.installed]

def bothRekeys : List (Vap → Input) :=
  [associates 1, answersUsk (network 0x07) 31 0, answersMsk (network 0x07) 31 0, unicastRekeys 31,
    multicastRekeys]

def uskOf (vap : Vap) : Bytes :=
  uskAnswer (network 0x07) (vap.table 31).bksa.bk (challenge 0x63) 0 ((vap.table 31).buf1.getD [])

def mskOf (vap : Vap) : Bytes :=
  mskAnswer (network 0x07) ((vap.table 31).usksa.usk (vap.table 31).usksa.dynamicKeyUsed).mck 0
    ((vap.table 31).buf0.getD [])

theorem rekey_answers_flags_differ_station : ∃ vap first second,
    Reaches (step (network 0x07)) (fun _ _ => True) (networkStart 0x07) vap ∧
      (wapiProcessFromSta (network 0x07) (multicastRekeys vap) (stationMac 1) (uskOf vap) vap).bind
        (wapiProcessFromSta (network 0x07) (multicastRekeys vap) (stationMac 1) (mskOf vap)) =
          some first ∧
      (wapiProcessFromSta (network 0x07) (multicastRekeys vap) (stationMac 1) (mskOf vap) vap).bind
        (wapiProcessFromSta (network 0x07) (multicastRekeys vap) (stationMac 1) (uskOf vap)) =
          some second ∧
      ∀ uskid, ((first.table 31).usksa.usk uskid).validFlag ≠
        ((second.table 31).usksa.usk uskid).validFlag := by
  have ends : (follows (step (network 0x07)) (fun _ _ => True) (networkStart 0x07) bothRekeys).map
      (fun vap => (apGetSta (stationMac 1) vap.table, (vap.table 31).status,
        uskAnswerValid (network 0x07) (vap.table 31) (uskOf vap),
        mskAnswerValid (network 0x07) vap 31 (mskOf vap))) =
      some (some 31, .sessiongrouping, true, true) := by
    rw [networkStart, bothRekeys, network_eq]
    decide +kernel
  obtain ⟨vap, ends, facts⟩ := map_eq_some_iff.mp ends
  simp only [Prod.mk.injEq] at facts
  obtain ⟨found, status, uskValid, mskValid⟩ := facts
  have reached := reaches_of_follows ends
  obtain ⟨first, second, runs, runsToo, flags, -, -⟩ := rekey_answers_flags_differ reached found
    status uskValid mskValid (fun _ => multicastRekeys vap)
  exact ⟨vap, first, second, reached, runs, runsToo, flags⟩

def validFlags (vap : Vap) : Bool × Bool :=
  (((vap.table 31).usksa.usk 0).validFlag, ((vap.table 31).usksa.usk 1).validFlag)

/-- After the same two frames, the key of index 1 is valid in one order and the key of index 0 in
the other. -/
theorem rekey_answers_do_not_commute : ∃ vap first second,
    Reaches (step (network 0x07)) (fun _ _ => True) (networkStart 0x07) vap ∧
      (vap.table 31).status = .sessiongrouping ∧
      (wapiProcessFromSta (network 0x07) (multicastRekeys vap) (stationMac 1) (uskOf vap) vap).bind
        (wapiProcessFromSta (network 0x07) (multicastRekeys vap) (stationMac 1) (mskOf vap)) =
          some first ∧
      (wapiProcessFromSta (network 0x07) (multicastRekeys vap) (stationMac 1) (mskOf vap) vap).bind
        (wapiProcessFromSta (network 0x07) (multicastRekeys vap) (stationMac 1) (uskOf vap)) =
          some second ∧
      validFlags first = (false, true) ∧ validFlags second = (true, false) := by
  have ends : (follows (step (network 0x07)) (fun _ _ => True) (networkStart 0x07) bothRekeys).map
      (fun vap => ((vap.table 31).status,
        ((wapiProcessFromSta (network 0x07) (multicastRekeys vap) (stationMac 1) (uskOf vap)
          vap).bind (wapiProcessFromSta (network 0x07) (multicastRekeys vap) (stationMac 1)
            (mskOf vap))).map validFlags,
        ((wapiProcessFromSta (network 0x07) (multicastRekeys vap) (stationMac 1) (mskOf vap)
          vap).bind (wapiProcessFromSta (network 0x07) (multicastRekeys vap) (stationMac 1)
            (uskOf vap))).map validFlags)) =
      some (.sessiongrouping, some (false, true), some (true, false)) := by
    rw [networkStart, bothRekeys, network_eq]
    decide +kernel
  obtain ⟨vap, ends, facts⟩ := map_eq_some_iff.mp ends
  simp only [Prod.mk.injEq] at facts
  obtain ⟨status, one, two⟩ := facts
  obtain ⟨first, runs, flags⟩ := map_eq_some_iff.mp one
  obtain ⟨second, runsToo, flagsToo⟩ := map_eq_some_iff.mp two
  exact ⟨vap, first, second, reaches_of_follows ends, status, runs, runsToo, flags, flagsToo⟩

end AthApps.Wapi
