import AthApps.Wapi.Change

/-!
# Messages that wait for an answer

The exchanges of an entry share one counter and two buffers.  An entry that
waits for an answer keeps the message to be sent again, except that an answer
to the group announcement in the midst of a unicast rekey throws away the
request of the latter too.
-/

set_option autoImplicit false

namespace AthApps.Wapi

open AthApps.Lib Option
open List hiding Vector

def awaits : Status → List (Buffer × SubType)
  | .waitingAccessReq => [(.buf0, .authactive)]
  | .waitingAuthFromAs => [(.buf0, .apAuthRequest)]
  | .waitingSession | .sessionkeying | .waitingDynamicSession => [(.buf1, .uskNegRequest)]
  | .waitingGrouping | .groupnoticeing | .waitingDynamicGrouping => [(.buf0, .mskAnnounce)]
  | .sessiongrouping => [(.buf0, .mskAnnounce), (.buf1, .uskNegRequest)]
  | .noAuth | .authenticated | .preAuthOver => []

def Sta.buffer (sta : Sta) : Buffer → Option Bytes
  | .buf0 => sta.buf0
  | .buf1 => sta.buf1

def Sta.Keeps (sta : Sta) (message : Buffer × SubType) : Prop :=
  ∃ frame, sta.buffer message.1 = some frame ∧ frame ≠ [] ∧ getPacketSubType frame = message.2.code

/-- An entry that waits for an answer can send its messages again. -/
structure Armed (cfg : Config) (sta : Sta) : Prop where
  counts : awaits sta.status ≠ [] → 0 < sta.sendinfo.curCount
  keeps : ∀ message ∈ awaits sta.status, sta.Keeps message
  reaches : awaits sta.status ≠ [] → sta.sendinfo.direction = .as → cfg.asUdpSk = true

variable {cfg : Config}

variable {sta : Sta}

theorem Armed.idle (nothing : awaits sta.status = []) : Armed cfg sta := by
  refine ⟨?_, ?_, ?_⟩
  · intro waits
    exact absurd nothing waits
  · rw [nothing]
    simp
  · intro waits
    exact absurd nothing waits

theorem Armed.congr {later : Sta} (armed : Armed cfg sta) (status : later.status = sta.status)
    (sendinfo : later.sendinfo = sta.sendinfo) (buf0 : later.buf0 = sta.buf0)
    (buf1 : later.buf1 = sta.buf1) : Armed cfg later := by
  have buffers : later.buffer = sta.buffer := by
    funext buffer
    cases buffer with
    | buf0 => exact buf0
    | buf1 => exact buf1
  refine ⟨?_, ?_, ?_⟩
  · rw [status, sendinfo]
    exact armed.counts
  · rw [status]
    intro message member
    rw [Sta.Keeps, buffers]
    exact armed.keeps message member
  · rw [status, sendinfo]
    exact armed.reaches

theorem Armed.one {message : Buffer × SubType} {number : Nat} {body : Bytes}
    (waits : awaits sta.status = [message]) (counts : 0 < sta.sendinfo.curCount)
    (keeps : sta.buffer message.1 = some (packMessage message.2 number body))
    (reaches : sta.sendinfo.direction = .as → cfg.asUdpSk = true) : Armed cfg sta := by
  refine ⟨fun _ => counts, ?_, fun _ => reaches⟩
  rw [waits]
  intro other member
  rw [mem_singleton.mp member]
  exact ⟨_, keeps, by simp [packMessage, packHead], rfl⟩

variable {cfg : Config} {vap : Vap} {input : Input} {i : Slot} {sta : Sta}

theorem resetStaInfo_armed : Armed cfg resetStaInfo := Armed.idle rfl

theorem uskRekeyHandle_armed (now : UInt32) (ok : Bool) :
    Armed cfg (uskRekeyHandle cfg now ok sta).1 := by
  rw [uskRekeyHandle_eq]
  apply Armed.one
  · rfl
  · exact Nat.one_pos
  · rfl
  · rintro ⟨⟩

theorem uskNegotiationReq_armed (now : UInt32) (nonce : Vector UInt8 32) :
    Armed cfg (uskNegotiationReq cfg now nonce true sta).1 := by
  rw [uskNegotiationReq_eq]
  apply Armed.one
  · rfl
  · exact Nat.one_pos
  · rfl
  · rintro ⟨⟩

variable {result : Sta × List Mark}

theorem apActivateSta_armed {now : UInt32} {nonce : Vector UInt8 32} (status : sta.status = .noAuth)
    (activated : apActivateSta cfg now nonce true sta = some result) : Armed cfg result.1 := by
  obtain rfl | ⟨flag, aeAuthFlag, asuId, rfl⟩ := apActivateSta_cases activated
  · apply Armed.idle
    rw [status]
    rfl
  · rw [sendActivation_eq]
    apply Armed.one
    · simp only [status]
      rfl
    · exact Nat.one_pos
    · rfl
    · rintro ⟨⟩

theorem initiateEntry_armed {mt : AssoMt} (sent : input.AllSent)
    (initiated : initiateEntry cfg input i mt = some result) : Armed cfg result.1 := by
  rw [initiateEntry, map_eq_some_iff] at initiated
  obtain ⟨started, begun, rfl⟩ := initiated
  simp only [sent i 0] at begun
  have armed : Armed cfg started.1 := by
    split at begun
    · exact apActivateSta_armed rfl begun
    · cases begun
      exact uskNegotiationReq_armed input.now (input.nonce i)
    · cases begun
      exact Armed.idle rfl
  exact armed.congr rfl rfl rfl rfl

theorem forwardRequest_armed {frame message body : Bytes} {number : Nat}
    (sent : input.AllSent) (packed : message = packMessage .apAuthRequest number body) :
    Armed cfg (forwardRequest cfg input i frame message sta).1 := by
  subst packed
  simp only [forwardRequest]
  split
  next socket =>
    rw [sent i 0]
    apply Armed.one
    · rfl
    · exact Nat.one_pos
    · rfl
    · exact fun _ => socket
  next => exact Armed.idle rfl

theorem announceTo_armed {now : UInt32} {msksa : Msksa} {gnonce : List UInt32}
    (told : announced sta.status = true) (armed : Armed cfg sta) :
    Armed cfg (announceTo cfg now msksa gnonce true sta).1 := by
  rw [announceTo_sent]
  by_cases idle : sta.status = .authenticated
  · apply Armed.one
    · rw [if_pos idle]
      rfl
    · exact Nat.one_pos
    · rfl
    · rintro ⟨⟩
  · have keying : sta.status = .sessionkeying := by simpa [announced, idle] using told
    have request : sta.Keeps (.buf1, .uskNegRequest) := by
      apply armed.keeps
      simp [keying, awaits]
    refine ⟨fun _ => Nat.one_pos, ?_, ?_⟩
    · rw [if_neg idle]
      simp only [awaits, mem_cons, not_mem_nil, or_false]
      rintro message (rfl | rfl)
      · exact ⟨_, rfl, by simp [packMskAnnouncement, packMessage, packHead], rfl⟩
      · exact request
    · rintro - ⟨⟩

theorem uskAccepted_armed (sent : input.AllSent) (msksa : Msksa) (gnonce : List UInt32)
    (armed : Armed cfg sta) : Armed cfg (uskAccepted cfg input i msksa gnonce sta).1 := by
  unfold uskAccepted
  split
  · rw [confirmKey_eq]
    exact Armed.idle rfl
  next status =>
    -- the announcement stays in its buffer
    have waits : awaits sta.status ≠ [] := by simp [status, awaits]
    have announcement : sta.Keeps (.buf0, .mskAnnounce) := by
      apply armed.keeps
      simp [status, awaits]
    rw [confirmKey_eq]
    refine ⟨fun _ => armed.counts waits, ?_, fun _ => armed.reaches waits⟩
    intro message member
    rw [mem_singleton.mp member]
    exact announcement
  · rw [confirmKey_eq]
    exact Armed.idle rfl
  · split
    · rw [uskNegotiationConfirmation_eq, andThen, mskAnnouncementTx_eq, sent i 1]
      apply Armed.one
      · rfl
      · exact Nat.one_pos
      · rfl
      · rintro ⟨⟩
    · exact Armed.idle rfl
  · exact armed

variable {frame : Bytes}

theorem processUskResponse_armed {msksa : Msksa} {gnonce : List UInt32}
    (sent : input.AllSent) (armed : Armed cfg sta)
    (processed : processUskResponse cfg input i msksa gnonce frame sta = some result) :
    Armed cfg result.1 := by
  obtain ⟨later, outcome, rfl⟩ | ⟨later, outcome, rfl⟩ | ⟨later, outcome, rfl⟩ :=
    processUskResponse_cases processed
  · cases outcome with
    | refused => exact armed
    | mismatch => exact armed.congr rfl rfl rfl rfl
  · cases outcome with
    | disauthenticated => exact Armed.idle rfl
  · cases outcome with
    | accepted =>
      apply uskAccepted_armed sent
      exact armed.congr rfl rfl rfl rfl

theorem mskAccepted_armed (accepts : acceptsMskResponse sta.status = true)
    (alone : sta.status ≠ .sessiongrouping) :
    Armed cfg (mskAccepted input frame (resetTableItem sta)).1 := by
  unfold mskAccepted
  split
  · exact Armed.idle rfl
  · exact Armed.idle rfl
  · exact Armed.idle rfl
  next status => exact absurd status alone
  next none dynamic first both =>
    simp only [acceptsMskResponse, Bool.or_eq_true, beq_iff_eq] at accepts
    rcases accepts with ((status | status) | status) | status
    · exact absurd status first
    · exact absurd status none
    · exact absurd status both
    · exact absurd status dynamic

theorem retryEntry_armed {counts : Bool} (sent : input.AllSent)
    (armed : Armed cfg sta) (retried : retryEntry cfg input i sta = some (result, counts)) :
    Armed cfg result.1 := by
  cases retryEntry_outcome retried with
  | same => exact armed
  | update status activated =>
    rw [sent i 0] at activated
    exact apActivateSta_armed rfl activated
  | removed => exact resetStaInfo_armed
  | resent =>
    refine ⟨?_, armed.keeps, armed.reaches⟩
    intro waits
    exact Nat.lt_add_right 1 (armed.counts waits)

/-- All frames are sent, and no station answers the announcement of a group key while a unicast
rekey of it is under way. -/
def Unmixed (cfg : Config) (vap : Vap) (input : Input) : Prop :=
  input.AllSent ∧ ∀ i frame, Heard cfg vap input i frame → (vap.table i).status = .sessiongrouping →
    getPacketSubType frame = SubType.mskResponse.code →
    mskResponseValid cfg vap.msksa vap.gnonce (vap.table i) frame = false

instance : Decidable (Unmixed cfg vap input) :=
  inferInstanceAs (Decidable (_ ∧ _))

theorem Change.armed (unmixed : Unmixed cfg vap input)
    (armed : Armed cfg (vap.table i)) (change : Change cfg vap input i result) :
    Armed cfg result.1 := by
  obtain ⟨sent, alone⟩ := unmixed
  cases change with
  | none => exact armed
  | assoc mt event position initiated => exact initiateEntry_armed sent initiated
  | aging => exact Armed.idle rfl
  | rekey ok => exact uskRekeyHandle_armed input.now ok
  | announce msksa gnonce told =>
    rw [sent i 0]
    exact announceTo_armed told armed
  | announceRekey msksa gnonce ok failed =>
    rw [sent i 0] at failed
    cases failed
  | ignored => exact armed
  | access heard kind processed =>
    obtain rfl | ⟨-, request, rfl⟩ := processAccessRequest_cases processed
    · exact armed
    · exact forwardRequest_armed sent rfl
  | usk heard kind processed =>
    have later := processUskResponse_armed sent armed processed
    exact later
  | @msk frame heard kind valid =>
    apply mskAccepted_armed
    · simp only [mskResponseValid, Bool.and_eq_true] at valid
      exact valid.1
    · intro status
      rw [alone i frame heard status kind] at valid
      cases valid
  | rejected => exact resetStaInfo_armed
  | server answered accepts responded =>
    obtain ⟨first, -, rfl⟩ := map_eq_some_iff.mp responded
    rw [sent i 0]
    exact uskNegotiationReq_armed input.now (input.nonce i)
  | retry event retried => exact retryEntry_armed sent armed retried

theorem resendMarks_mem {buffer : Buffer} (kept : sta.buffer buffer = some frame)
    (reaches : sta.sendinfo.direction = .as → cfg.asUdpSk = true) :
    .sent frame ∈ resendMarks cfg sta ∨ .sentAs frame ∈ resendMarks cfg sta := by
  cases buffer with
  | buf1 =>
    have here : sta.buf1 = some frame := kept
    simp [resendMarks, here]
  | buf0 =>
    have here : sta.buf0 = some frame := kept
    by_cases server : sta.sendinfo.direction = .as
    · simp [resendMarks, here, server, reaches server]
    · simp [resendMarks, here, server]

def Sta.due (sta : Sta) (now : UInt32) : Prop :=
  sta.sendinfo.timeout ≤ now - sta.sendinfo.sendTime

theorem retryEntry_due (waits : awaits sta.status ≠ []) (armed : Armed cfg sta)
    (due : sta.due input.now) :
    retryEntry cfg input i sta = some (removed sta, outstanding sta.status) ∨
      retryEntry cfg input i sta = some ((resent input.now sta, resendMarks cfg sta), false) := by
  have active : sta.status ≠ .noAuth := by
    intro status
    simp [status, awaits] at waits
  have busy : sta.status ≠ .authenticated := by
    intro status
    simp [status, awaits] at waits
  have counted : sta.sendinfo.curCount ≠ 0 := by
    have positive := armed.counts waits
    omega
  rw [Sta.due] at due
  unfold retryEntry
  dsimp only
  rw [if_neg active, if_neg (fun expired => busy expired.1)]
  split
  · exact Or.inl rfl
  · rw [if_neg (not_or.mpr ⟨busy, counted⟩)]
    split
    · exact Or.inl rfl
    · exact Or.inr rfl

/-- In every state of a run of that kind, an entry that waits for answers counts its tries and
keeps the messages; the timer sends them again or removes the entry. -/
theorem waiting_station_resends {now : UInt32} {msk : Vector UInt8 16}
    (reached : Reaches (step cfg) (Unmixed cfg) (Vap.init cfg now msk) vap) (i : Slot)
    (waits : awaits (vap.table i).status ≠ []) :
    0 < (vap.table i).sendinfo.curCount ∧
    (∀ message ∈ awaits (vap.table i).status, (vap.table i).Keeps message) ∧
    ∀ input, (vap.table i).due input.now → retryEntry cfg input i (vap.table i) =
        some (removed (vap.table i), outstanding (vap.table i).status) ∨
      retryEntry cfg input i (vap.table i) =
        some ((resent input.now (vap.table i), resendMarks cfg (vap.table i)), false) ∧
      ∀ message ∈ awaits (vap.table i).status, ∃ frame,
        (vap.table i).buffer message.1 = some frame ∧
        (.sent frame ∈ resendMarks cfg (vap.table i) ∨
          .sentAs frame ∈ resendMarks cfg (vap.table i)) := by
  have armed : Armed cfg (vap.table i) := by
    refine reaches_entry (fun _ sta => Armed cfg sta) resetStaInfo_armed ?_ reached i
    intro vap input i result unmixed armed change
    exact change.armed unmixed (armed i)
  refine ⟨armed.counts waits, armed.keeps, ?_⟩
  intro input due
  rcases retryEntry_due waits armed due with result | result
  · exact Or.inl result
  · refine Or.inr ⟨result, ?_⟩
    intro message member
    obtain ⟨frame, kept, -⟩ := armed.keeps message member
    exact ⟨frame, kept, resendMarks_mem kept (armed.reaches waits)⟩

/-- The driver asks for a rekey of the station of an entry. -/
def unicastRekeys (i : Slot) (vap : Vap) : Input := at1000 (.unicastRekey (vap.table i).mac)

def multicastRekeys (_ : Vap) : Input := at1000 .multiRekey

def waitingRecord (i : Slot) (vap : Vap) : Status × Nat × Bool × Bool :=
  ((vap.table i).status, (vap.table i).sendinfo.curCount, (vap.table i).buf0.isSome,
    (vap.table i).buf1.isSome)

theorem waiting_station_resends_both : ∃ vap,
    Reaches (step (network 0x07)) (Unmixed (network 0x07)) (networkStart 0x07) vap ∧
      (vap.table 31).status = .sessiongrouping ∧ 0 < (vap.table 31).sendinfo.curCount ∧
      ∀ message ∈ awaits (vap.table 31).status, (vap.table 31).Keeps message := by
  have ends : (follows (step (network 0x07)) (Unmixed (network 0x07)) (networkStart 0x07)
      [associates 1, answersUsk (network 0x07) 31 0, answersMsk (network 0x07) 31 0,
        unicastRekeys 31, multicastRekeys]).map (waitingRecord 31) =
          some (.sessiongrouping, 1, true, true) := by
    rw [networkStart, network_eq]
    decide +kernel
  obtain ⟨vap, ends, fields⟩ := map_eq_some_iff.mp ends
  simp only [waitingRecord, Prod.mk.injEq] at fields
  have reached := reaches_of_follows ends
  have waits : awaits (vap.table 31).status ≠ [] := by simp [fields.1, awaits]
  obtain ⟨counts, keeps, -⟩ := waiting_station_resends reached 31 waits
  exact ⟨vap, reached, fields.1, counts, keeps⟩

/-- Both rekeys of a station are under way and it answers the announcement first: it goes on
waiting for the unicast negotiation with nothing to send again. -/
theorem waiting_station_silent : ∃ vap,
    Reaches (step (network 0x07)) (fun _ input => input.AllSent) (networkStart 0x07) vap ∧
      (vap.table 31).status = .waitingDynamicSession ∧ (vap.table 31).sendinfo.curCount = 0 ∧
      (vap.table 31).buf0 = none ∧ (vap.table 31).buf1 = none := by
  have ends : (follows (step (network 0x07)) (fun _ input => input.AllSent) (networkStart 0x07)
      [associates 1, answersUsk (network 0x07) 31 0, answersMsk (network 0x07) 31 0,
        unicastRekeys 31, multicastRekeys, answersMsk (network 0x07) 31 0]).map
          (waitingRecord 31) = some (.waitingDynamicSession, 0, false, false) := by
    rw [networkStart, network_eq]
    decide +kernel
  obtain ⟨vap, ends, fields⟩ := map_eq_some_iff.mp ends
  simp only [waitingRecord, Prod.mk.injEq, isSome_eq_false_iff, isNone_iff_eq_none] at fields
  exact ⟨vap, reaches_of_follows ends, fields⟩

end AthApps.Wapi
