import AthApps.Wapi.GroupKey
import Mathlib.Algebra.Order.BigOperators.Group.Finset

/-!
# The stations that a group rekey waits for

`group_No` is the number of stations that have been told the new group key and
have not answered.  The answers and the retry timer keep it; the other ways out
of the table or back to its beginning do not, and then the rekey never ends.
-/

set_option autoImplicit false

namespace AthApps.Wapi

open AthApps.Lib Option

def outstandingCount (table : Slot → Sta) : Nat :=
  ∑ i, (outstanding (table i).status).toNat

theorem outstandingCount_update (table : Slot → Sta) (i : Slot) (sta : Sta) :
    outstandingCount (Function.update table i sta) + (outstanding (table i).status).toNat =
      outstandingCount table + (outstanding sta.status).toNat := by
  have others : ∑ j ∈ Finset.univ.erase i,
      (outstanding (Function.update table i sta j).status).toNat =
        ∑ j ∈ Finset.univ.erase i, (outstanding (table j).status).toNat := by
    refine Finset.sum_congr rfl fun j member => ?_
    rw [Function.update_of_ne (Finset.ne_of_mem_erase member)]
  rw [outstandingCount, outstandingCount, ← Finset.add_sum_erase _ _ (Finset.mem_univ i), others,
    ← Finset.add_sum_erase _ (fun j => (outstanding (table j).status).toNat) (Finset.mem_univ i)]
  simp only [Function.update_self]
  omega

variable {table : Slot → Sta}

theorem outstandingCount_same {i : Slot} {sta : Sta}
    (same : outstanding sta.status = outstanding (table i).status) :
    outstandingCount (Function.update table i sta) = outstandingCount table := by
  have changed := outstandingCount_update table i sta
  rw [same] at changed
  omega

theorem outstandingCount_pos :
    0 < outstandingCount table ↔ ∃ i, outstanding (table i).status = true := by
  rw [outstandingCount, Finset.sum_pos_iff]
  constructor
  · rintro ⟨i, -, positive⟩
    exact ⟨i, by simpa [Nat.pos_iff_ne_zero] using positive⟩
  · rintro ⟨i, waits⟩
    exact ⟨i, Finset.mem_univ i, by simp [waits]⟩

theorem someOutstanding_iff : someOutstanding table = true ↔ 0 < outstandingCount table := by
  rw [outstandingCount_pos, someOutstanding, List.any_eq_true]
  simp

/-- The counter of a group rekey is right, and a rekey is under way just as long as
it waits for a station. -/
structure Balanced (vap : Vap) : Prop where
  busy : vap.rekeying = true → vap.groupStatus = true ∧
    vap.groupNo = outstandingCount vap.table ∧ 0 < outstandingCount vap.table
  idle : vap.rekeying = false → outstandingCount vap.table = 0

theorem Balanced.congr {before after : Vap} (balanced : Balanced before)
    (rekeying : after.rekeying = before.rekeying) (status : after.groupStatus = before.groupStatus)
    (number : after.groupNo = before.groupNo)
    (count : outstandingCount after.table = outstandingCount before.table) : Balanced after := by
  refine ⟨?_, ?_⟩
  · rw [rekeying, status, number, count]
    exact balanced.busy
  · rw [rekeying, count]
    exact balanced.idle

theorem Balanced.put {vap : Vap} (balanced : Balanced vap) {i : Slot} {result : Sta × List Mark}
    (same : outstanding result.1.status = outstanding (vap.table i).status) :
    Balanced (vap.put i result) :=
  balanced.congr rfl rfl rfl (outstandingCount_same same)

variable {cfg : Config} {vap after : Vap} {input : Input}

variable {result : Sta × List Mark} {frame : Bytes} {i : Slot} {gnonce : List UInt32}

variable {msksa : Msksa} {sta : Sta}

theorem announceTo_outstanding {now : UInt32} (sta : Sta) :
    outstanding (announceTo cfg now msksa gnonce true sta).1.status = true := by
  rw [announceTo_sent]
  dsimp only
  split <;> rfl

theorem announced_not_outstanding {status : Status} (told : announced status = true) :
    outstanding status = false := by
  cases status <;> simp_all [announced, outstanding]

theorem announceLoop_counts {slots : List Slot} {vap : Vap} (sent : ∀ i, input.sent i 0 = true)
    (counts : vap.groupNo = outstandingCount vap.table) :
    (announceLoop cfg input slots vap).groupNo =
      outstandingCount (announceLoop cfg input slots vap).table := by
  induction slots generalizing vap with
  | nil =>
    rw [announceLoop]
    split <;> exact counts
  | cons i rest ih =>
    rw [announceLoop]
    split
    next told =>
      dsimp only
      rw [if_pos (sent i)]
      apply ih
      have changed := outstandingCount_update vap.table i (announceTo cfg input.now vap.msksa
        vap.gnonce (input.sent i 0) (vap.table i)).1
      rw [announced_not_outstanding told, sent i, announceTo_outstanding] at changed
      simp only [Vap.put, sent i, Bool.toNat_true, Bool.toNat_false] at changed ⊢
      omega
    next => exact ih counts

theorem mskRekeyHandle_balanced (sent : ∀ i, input.sent i 0 = true) (balanced : Balanced vap)
    (idle : vap.rekeying = false) : Balanced (mskRekeyHandle cfg input vap) := by
  have nobody := balanced.idle idle
  rw [mskRekeyHandle]
  dsimp only
  split
  · exact balanced.congr rfl rfl rfl rfl
  · rw [sendMskAnnouncementToAll]
    dsimp only
    generalize begun : Vap.mk _ _ _ _ _ _ _ _ _ = start
    have counts : (announceLoop cfg input (List.finRange 32) start).groupNo =
        outstandingCount (announceLoop cfg input (List.finRange 32) start).table := by
      apply announceLoop_counts sent
      rw [← begun]
      simp [nobody]
    obtain ⟨rekeying, status, -⟩ := announceLoop_frame cfg input (List.finRange 32) start
    split
    next told =>
      refine ⟨fun _ => ⟨?_, counts, ?_⟩, ?_⟩
      · rw [status, ← begun]
      · dsimp only
        omega
      · rintro ⟨⟩
    next told =>
      refine ⟨?_, fun _ => ?_⟩
      · intro running
        rw [rekeying, ← begun] at running
        exact absurd (idle.symm.trans running) Bool.false_ne_true
      · omega

theorem rekeyLoop_count (cfg : Config) (input : Input) (slots : List Slot) (vap : Vap) :
    outstandingCount (rekeyLoop cfg input slots vap).table = outstandingCount vap.table := by
  induction slots generalizing vap with
  | nil => rfl
  | cons i rest ih =>
    rw [rekeyLoop]
    split
    next due =>
      rw [ih]
      apply outstandingCount_same
      simp only [uskRekeyDue, Bool.and_eq_true, beq_iff_eq] at due
      rw [due.1.1, uskRekeyHandle_eq]
      rfl
    next => exact ih vap

theorem retryLoop_counts {slots : List Slot} {start later : Vap} {waiting waited : Nat}
    (runs : retryLoop cfg input slots start waiting = some (later, waited)) :
    outstandingCount later.table + waited = outstandingCount start.table + waiting ∧
      later.groupNo + waited = start.groupNo + waiting := by
  induction slots generalizing start waiting with
  | nil =>
    cases runs
    exact ⟨rfl, rfl⟩
  | cons i rest ih =>
    rw [retryLoop] at runs
    split at runs
    · cases runs
    next result counts retried =>
      have changed := outstandingCount_update start.table i result.1
      have left : (outstanding result.1.status).toNat + counts.toNat =
          (outstanding (start.table i).status).toNat := by
        cases retryEntry_outcome retried with
        | same => rfl
        | update status activated =>
          rw [status]
          obtain rfl | ⟨flag, aeAuthFlag, asuId, rfl⟩ := apActivateSta_cases activated
          · rfl
          · rw [sendActivation_eq]
            cases input.sent i 0 <;> rfl
        | removed => simp [removed, resetStaInfo, Sta.zero, outstanding]
        | resent => rfl
      dsimp only at runs
      cases counts with
      | true =>
        obtain ⟨count, number⟩ := ih runs
        simp only [Vap.put, Bool.toNat_true] at count number left
        omega
      | false =>
        obtain ⟨count, number⟩ := ih runs
        simp only [Vap.put, Bool.toNat_false] at count number left
        omega

theorem timeoutRetry_balanced (balanced : Balanced vap)
    (runs : timeoutRetry cfg input vap = some after) : Balanced after := by
  rw [timeoutRetry, map_eq_some_iff] at runs
  obtain ⟨⟨later, waited⟩, loop, final⟩ := runs
  obtain ⟨count, number⟩ := retryLoop_counts loop
  obtain ⟨table, past, groupNo, rfl⟩ := retryLoop_eq loop
  dsimp only at final count number
  cases rekeying : vap.rekeying with
  | false =>
    have nobody := balanced.idle rekeying
    rw [if_neg (by omega)] at final
    subst final
    refine ⟨?_, fun _ => ?_⟩
    · intro running
      exact absurd (rekeying.symm.trans running) Bool.false_ne_true
    · show outstandingCount table = 0
      omega
  | true =>
    obtain ⟨status, counts, positive⟩ := balanced.busy rekeying
    split at final
    next done =>
      subst final
      refine ⟨?_, fun _ => ?_⟩
      · rintro ⟨⟩
      · show outstandingCount table = 0
        omega
    next waits =>
      subst final
      refine ⟨fun _ => ⟨status, ?_, ?_⟩, ?_⟩
      · show groupNo = outstandingCount table
        omega
      · show 0 < outstandingCount table
        rw [Nat.pos_iff_ne_zero]
        intro nobody
        apply waits
        refine ⟨status, ?_, ?_⟩
        · omega
        · omega
      · simp [rekeying]

/-- The frame sends the entry back to the beginning: an access request was accepted, or the
information element in the response is not the one of the association. -/
def startsOver (cfg : Config) (nonce : Vector UInt8 32) (sta : Sta) (frame : Bytes) : Bool :=
  if getPacketSubType frame = SubType.staAcessRequest.code then
    match accessAuthReq cfg nonce sta frame with
    | .accepted _ _ => true
    | _ => false
  else if getPacketSubType frame = SubType.uskNegResponse.code then
    match uskNegotiationRes cfg sta frame with
    | .disauthenticated _ => true
    | _ => false
  else false

/-- The entry is given up by a way that does not touch `group_No`. -/
def leaves (cfg : Config) (vap : Vap) (input : Input) (i : Slot) : Bool :=
  match input.event with
  | .assoc mt => apGetStaPos mt.mac vap.table = some i
  | .aging mac => apGetSta mac vap.table = some i ∧ mayAge (vap.table i)
  | .fromSta mac whole => cfg.waiPolicy &&& 0x0C ≠ 0 ∧ apGetSta mac vap.table = some i ∧
      startsOver cfg (input.nonce i) (vap.table i) (received whole)
  | _ => false

/-- All frames are sent, and no outstanding station is aged out, associates again, asks for
access or answers with another information element. -/
def Stays (cfg : Config) (vap : Vap) (input : Input) : Prop :=
  input.AllSent ∧ ∀ i, outstanding (vap.table i).status = true → leaves cfg vap input i = false

instance : Decidable (Stays cfg vap input) :=
  inferInstanceAs (Decidable (_ ∧ _))

theorem Stays.not_outstanding (stays : Stays cfg vap input)
    (leave : leaves cfg vap input i = true) : outstanding (vap.table i).status = false := by
  cases waits : outstanding (vap.table i).status with
  | false => rfl
  | true =>
    rw [stays.2 i waits] at leave
    cases leave

theorem initiateEntry_not_outstanding {mt : AssoMt}
    (initiated : initiateEntry cfg input i mt = some result) :
    outstanding result.1.status = false := by
  rw [initiateEntry, map_eq_some_iff] at initiated
  obtain ⟨started, begun, rfl⟩ := initiated
  dsimp only at begun ⊢
  split at begun
  · obtain rfl | ⟨flag, aeAuthFlag, asuId, rfl⟩ := apActivateSta_cases begun
    · rfl
    · rw [sendActivation_eq]
      cases input.sent i 0 <;> rfl
  · cases begun
    rw [andThen, uskNegotiationReq_eq]
    cases input.sent i 0 <;> rfl
  · cases begun
    rfl

theorem processAccessRequest_outstanding
    (processed : processAccessRequest cfg input i frame sta = some result)
    (kind : getPacketSubType frame = SubType.staAcessRequest.code)
    (stays : startsOver cfg (input.nonce i) sta frame = true → outstanding sta.status = false) :
    outstanding result.1.status = outstanding sta.status := by
  rw [processAccessRequest] at processed
  split at processed
  · cases processed
  · cases processed
    rfl
  next later message accepted =>
    have before := stays (by simp [startsOver, kind, accepted])
    obtain ⟨-, request, rfl, rfl⟩ := accessAuthReq_accepted accepted
    cases processed
    rw [before, forwardRequest]
    dsimp only
    split
    · cases sent : input.sent i 0
      · simpa [resetTableItem, requestTaken] using before
      · simp [outstanding]
    · simp [outstanding]

theorem uskAccepted_outstanding :
    outstanding (uskAccepted cfg input i msksa gnonce sta).1.status = outstanding sta.status := by
  unfold uskAccepted
  split
  next status =>
    rw [confirmKey_eq, status]
    rfl
  next status =>
    rw [confirmKey_eq, status]
    rfl
  next status =>
    rw [confirmKey_eq, status]
    rfl
  next status =>
    split
    · rw [uskNegotiationConfirmation_eq, andThen, mskAnnouncementTx_eq, status]
      cases input.sent i 1 <;> rfl
    · rw [status]
      rfl
  next => rfl

theorem processUskResponse_outstanding
    (processed : processUskResponse cfg input i msksa gnonce frame sta = some result)
    (kind : getPacketSubType frame = SubType.uskNegResponse.code)
    (stays : startsOver cfg (input.nonce i) sta frame = true → outstanding sta.status = false) :
    outstanding result.1.status = outstanding sta.status := by
  have other : getPacketSubType frame ≠ SubType.staAcessRequest.code := by
    rw [kind]
    decide
  have outcome := uskNegotiationRes_outcome cfg sta frame
  rw [processUskResponse] at processed
  split at processed
  · cases processed
  next later refused =>
    cases processed
    rw [refused] at outcome
    cases outcome <;> rfl
  next later left =>
    cases processed
    rw [left] at outcome
    rw [stays (by rw [startsOver, if_neg other, if_pos kind, left])]
    cases outcome
    rfl
  next later accepted =>
    cases processed
    rw [accepted] at outcome
    cases outcome
    exact uskAccepted_outstanding

/-- An answer of an outstanding station ends its part in the rekey, and only such an answer. -/
theorem mskAccepted_outstanding {sta : Sta} {frame : Bytes}
    (accepts : acceptsMskResponse sta.status = true) :
    outstanding (mskAccepted input frame sta).1.status = false := by
  rw [mskAccepted]
  cases status : sta.status <;> rw [status] at accepts <;> first | rfl | cases accepts

theorem notifyGroupnotice_balanced {now : UInt32} (rekeying : vap.rekeying = true)
    (status : vap.groupStatus = true) (counts : vap.groupNo = outstandingCount vap.table) :
    Balanced (notifyGroupnotice now vap) := by
  rw [notifyGroupnotice]
  split
  next waits =>
    refine ⟨fun _ => ⟨status, counts, someOutstanding_iff.mp waits⟩, ?_⟩
    simp [rekeying]
  next none =>
    rw [someOutstanding_iff] at none
    refine ⟨?_, fun _ => ?_⟩
    · rintro ⟨⟩
    · exact Nat.eq_zero_of_not_pos none

theorem processMskResponse_balanced (balanced : Balanced vap) :
    Balanced (processMskResponse cfg input i frame vap) := by
  rw [processMskResponse]
  split
  · exact balanced.put rfl
  next sta answered =>
    rw [mskAnnouncementRes, ite_none_right_eq_some] at answered
    obtain ⟨valid, same⟩ := answered
    cases same
    have accepts : acceptsMskResponse (vap.table i).status = true := by
      simp only [mskResponseValid, Bool.and_eq_true] at valid
      exact valid.1
    have done := @mskAccepted_outstanding input (resetTableItem (vap.table i)) frame accepts
    dsimp only
    split
    next waits =>
      have positive : 0 < outstandingCount vap.table := outstandingCount_pos.mpr ⟨i, waits⟩
      have rekeying : vap.rekeying = true := by
        cases rekeying : vap.rekeying with
        | true => rfl
        | false =>
          have nobody := balanced.idle rekeying
          omega
      obtain ⟨status, counts, -⟩ := balanced.busy rekeying
      apply notifyGroupnotice_balanced
      · exact rekeying
      · exact status
      · have changed := outstandingCount_update vap.table i
          (mskAccepted input frame (resetTableItem (vap.table i))).1
        rw [done, show outstanding (vap.table i).status = true from waits] at changed
        simp only [Vap.hear, Vap.put, Bool.toNat_true, Bool.toNat_false] at changed ⊢
        omega
    next waits =>
      apply balanced.put
      rw [done]
      exact (Bool.eq_false_iff.mpr waits).symm

variable {mac : Mac}

theorem wapiProcessFromSta_balanced {whole : Bytes} (event : input.event = .fromSta mac whole)
    (enabled : cfg.waiPolicy &&& 0x0C ≠ 0) (stays : Stays cfg vap input) (balanced : Balanced vap)
    (runs : wapiProcessFromSta cfg input mac (received whole) vap = some after) :
    Balanced after := by
  rw [wapiProcessFromSta] at runs
  split at runs
  · cases runs
    exact balanced
  next i found =>
    have beyond : startsOver cfg (input.nonce i) (vap.table i) (received whole) = true →
        outstanding (vap.table i).status = false := by
      intro beyond
      apply stays.not_outstanding
      simp [leaves, event, enabled, found, beyond]
    dsimp only at runs
    split at runs
    · cases runs
      exact balanced.put rfl
    split at runs
    next kind =>
      obtain ⟨result, processed, rfl⟩ := map_eq_some_iff.mp runs
      have same := processAccessRequest_outstanding processed kind beyond
      apply balanced.put
      exact same
    split at runs
    next kind =>
      obtain ⟨result, processed, rfl⟩ := map_eq_some_iff.mp runs
      have same := processUskResponse_outstanding processed kind beyond
      apply balanced.put
      exact same
    split at runs
    · cases runs
      exact processMskResponse_balanced balanced
    · cases runs
      exact balanced.put rfl

theorem serverAccepted_not_outstanding (status : sta.status = .waitingAuthFromAs)
    (responded : serverAccepted cfg input i frame sta = some result) :
    outstanding result.1.status = false := by
  rw [serverAccepted, map_eq_some_iff] at responded
  obtain ⟨first, sent, rfl⟩ := responded
  have before : first.1.status = .waitingAuthFromAs := by
    obtain rfl | ⟨message, rfl⟩ := accessAuthRes_cases sent
    · exact status
    · simpa using status
  rw [andThen, uskNegotiationReq_eq, before]
  cases input.sent i 0 <;> rfl

theorem wapiProcessFromAs_balanced (balanced : Balanced vap)
    (runs : wapiProcessFromAs cfg input frame vap = some after) : Balanced after := by
  rw [wapiProcessFromAs] at runs
  split at runs
  · cases runs
    exact balanced
  · split at runs
    · cases runs
    · cases runs
      exact balanced
    next i sta rejects =>
      obtain ⟨result, responded, rfl⟩ := map_eq_some_iff.mp runs
      obtain ⟨status, -⟩ := certificateAuthRes_rejected rejects
      apply balanced.put
      rw [status]
      rfl
    next i sta accepts =>
      obtain ⟨result, responded, rfl⟩ := map_eq_some_iff.mp runs
      obtain ⟨status, rfl⟩ := certificateAuthRes_taken accepts
      obtain ⟨aeKeyData, bksa, life, reauth, taken⟩ :=
        responseTaken_eq cfg input.now input.seed (vap.table i)
      apply balanced.put
      rw [serverAccepted_not_outstanding ?_ responded, status]
      · rfl
      · rw [taken]
        exact status

theorem staMskRekeyHandle_balanced (sent : ∀ i, input.sent i 0 = true) (balanced : Balanced vap) :
    Balanced (staMskRekeyHandle cfg input vap) := by
  rw [staMskRekeyHandle]
  split
  · exact balanced
  next idle =>
    split
    · exact mskRekeyHandle_balanced sent balanced (by simpa using idle)
    · exact balanced

theorem staTimeoutHandle_balanced (event : input.event = .aging mac) (stays : Stays cfg vap input)
    (balanced : Balanced vap) : Balanced (staTimeoutHandle cfg input mac vap) := by
  rw [staTimeoutHandle]
  split
  · exact balanced
  next i found =>
    split
    next aged =>
      have before : outstanding (vap.table i).status = false := by
        apply stays.not_outstanding
        simp [leaves, event, found, aged]
      have cleared : Balanced (vap.put i (Sta.zero, [.reset])) := by
        apply balanced.put
        rw [before]
        rfl
      dsimp only
      split
      · exact staMskRekeyHandle_balanced (fun j => stays.1 j 0) cleared
      · exact cleared
    next => exact balanced

theorem rekeyStation_balanced {may : Sta → Bool}
    (only : ∀ sta, may sta = true → sta.status = .authenticated) (balanced : Balanced vap) :
    Balanced (rekeyStation cfg input mac may vap) := by
  rw [rekeyStation]
  split
  · exact balanced
  · split
    next permitted =>
      apply balanced.put
      rw [uskRekeyHandle_eq, only _ permitted]
      rfl
    next => exact balanced

theorem rekeyHandle_balanced (sent : ∀ i, input.sent i 0 = true) (balanced : Balanced vap) :
    Balanced (wapidRekeyUsk cfg input (wapidRekeyMsk cfg input vap)) := by
  have group : Balanced (wapidRekeyMsk cfg input vap) := by
    rw [wapidRekeyMsk]
    split
    · split
      · exact balanced
      next idle => exact mskRekeyHandle_balanced sent balanced (by simpa using idle)
    · exact balanced
  rw [wapidRekeyUsk]
  split
  · obtain ⟨table, past, rekeyed⟩ :=
      rekeyLoop_eq cfg input (List.finRange 32) (wapidRekeyMsk cfg input vap)
    have count := rekeyLoop_count cfg input (List.finRange 32) (wapidRekeyMsk cfg input vap)
    rw [rekeyed] at count ⊢
    exact group.congr rfl rfl rfl count
  · exact group

theorem step_balanced (stays : Stays cfg vap input) (runs : step cfg vap input = some after)
    (balanced : Balanced vap) : Balanced after := by
  rw [step] at runs
  split at runs
  next mt event =>
    rw [authInitiate] at runs
    split at runs
    · cases runs
      exact balanced
    next i position =>
      split at runs
      · cases runs
      · obtain ⟨result, initiated, rfl⟩ := map_eq_some_iff.mp runs
        apply balanced.put
        rw [initiateEntry_not_outstanding initiated, stays.not_outstanding]
        simp [leaves, event, position]
  next mac event =>
    cases runs
    exact staTimeoutHandle_balanced event stays balanced
  next mac event =>
    cases runs
    apply rekeyStation_balanced
    · intro sta permitted
      simp only [Bool.and_eq_true, beq_iff_eq] at permitted
      exact permitted.2
    · exact balanced
  next event =>
    cases runs
    exact staMskRekeyHandle_balanced (fun i => stays.1 i 0) balanced
  next mac event =>
    cases runs
    apply rekeyStation_balanced
    · intro sta permitted
      simpa using permitted
    · exact balanced
  next mac whole event =>
    split at runs
    · cases runs
      exact balanced
    next usable =>
      push Not at usable
      exact wapiProcessFromSta_balanced event usable.2 stays balanced runs
  next whole event =>
    dsimp only at runs
    split at runs
    · cases runs
      exact balanced
    · exact wapiProcessFromAs_balanced balanced runs
  next event => exact timeoutRetry_balanced balanced runs
  next event =>
    cases runs
    exact rekeyHandle_balanced (fun i => stays.1 i 0) balanced

/-- As long as no outstanding station leaves uncounted, a group rekey waits for exactly the
stations that have not answered, and it ends with the last of them. -/
theorem group_rekey_balanced {now : UInt32} {msk : Vector UInt8 16}
    (reached : Reaches (step cfg) (Stays cfg) (Vap.init cfg now msk) vap) :
    (vap.rekeying = true → vap.groupNo = outstandingCount vap.table ∧
      0 < outstandingCount vap.table) ∧
    (outstandingCount vap.table = 0 → vap.rekeying = false) := by
  have balanced : Balanced vap := by
    apply reached.invariant
    · intro vap input after stays runs balanced
      exact step_balanced stays runs balanced
    · have nobody : outstandingCount (Vap.init cfg now msk).table = 0 := by
        have table : (Vap.init cfg now msk).table = fun _ => resetStaInfo := by
          rw [Vap.init]
          split <;> rfl
        rw [table]
        exact Finset.sum_eq_zero fun _ _ => rfl
      refine ⟨?_, fun _ => nobody⟩
      rw [Vap.init]
      split <;> rintro ⟨⟩
  refine ⟨fun rekeying => (balanced.busy rekeying).2, ?_⟩
  intro nobody
  cases rekeying : vap.rekeying with
  | false => rfl
  | true =>
    obtain ⟨-, -, positive⟩ := balanced.busy rekeying
    omega

def agesOut (i : Slot) (vap : Vap) : Input := at1000 (.aging (vap.table i).mac)

def groupCounts (vap : Vap) : Bool × Int × Nat :=
  (vap.rekeying, vap.groupNo, outstandingCount vap.table)

theorem group_rekey_balanced_one : ∃ vap,
    Reaches (step (network 0x07)) (Stays (network 0x07)) (networkStart 0x07) vap ∧
      vap.rekeying = true ∧ vap.groupNo = outstandingCount vap.table ∧
      0 < outstandingCount vap.table := by
  have ends : (follows (step (network 0x07)) (Stays (network 0x07)) (networkStart 0x07)
      [associates 1, answersUsk (network 0x07) 31 0, answersMsk (network 0x07) 31 0,
        groupRekeys true]).map Vap.rekeying = some true := by
    rw [networkStart, network_eq]
    decide +kernel
  obtain ⟨vap, ends, rekeying⟩ := map_eq_some_iff.mp ends
  have reached := reaches_of_follows ends
  exact ⟨vap, reached, rekeying, (group_rekey_balanced reached).1 rekeying⟩

/-- The only outstanding station is aged out: nobody is left to answer, and the rekey goes on. -/
theorem group_rekey_blocked : ∃ vap,
    Reaches (step (network 0x07)) (fun _ input => input.AllSent) (networkStart 0x07) vap ∧
      vap.rekeying = true ∧ vap.groupNo = 1 ∧ outstandingCount vap.table = 0 := by
  have ends : (follows (step (network 0x07)) (fun _ input => input.AllSent) (networkStart 0x07)
      [associates 1, answersUsk (network 0x07) 31 0, answersMsk (network 0x07) 31 0,
        groupRekeys true, agesOut 31]).map groupCounts = some (true, 1, 0) := by
    rw [networkStart, network_eq]
    decide +kernel
  obtain ⟨vap, ends, counts⟩ := map_eq_some_iff.mp ends
  simp only [groupCounts, Prod.mk.injEq] at counts
  exact ⟨vap, reaches_of_follows ends, counts⟩

end AthApps.Wapi
