import AthApps.Wapi.Turn

/-!
# Where the unicast keys come from

`set_ucastkey` is called from several branches of `wapi_process_from_sta`.  Each
of them comes after a response whose authenticator is under a key derived from
the base key of the entry.  The base key is set by the suite that the station
picks, and `auth_initiate` does not compare it with the policy.
-/

set_option autoImplicit false

namespace AthApps.Wapi

open AthApps.Lib Option
open List hiding Vector

variable {cfg : Config} {vap : Vap} {input : Input} {i : Slot} {sta later : Sta}
  {past marks recent : List Mark} {bk : Vector UInt8 16}

/-- The bit of a suite in `wai_policy`. -/
def Config.enabled (cfg : Config) : Suite → Bool
  | .psk => cfg.pskEnabled
  | .certificate => cfg.certEnabled

def Verifies (cfg : Config) (bk : Vector UInt8 16) (frame : Bytes) : Prop :=
  ∃ res, unpackUcastkeyNegResponse frame = .ok res ∧
    cfg.mic (Usk.ofMaster (cfg.masterKey bk res.addid res.aeChallenge res.asueChallenge) false).mck
      (authenticated frame) = res.mic

def HasAnswer (cfg : Config) (recent : List Mark) (bk : Vector UInt8 16) : Prop :=
  ∃ frame, .uskVerified frame bk ∈ recent ∧ Verifies cfg bk frame

def HasOrigin (cfg : Config) (recent : List Mark) (bk : Vector UInt8 16) : Prop :=
  ∃ suite, cfg.enabled suite = true ∧ .bkSet suite bk ∈ recent

/-- A key is installed only after a response that was verified under the base key, which a suite
that is enabled has set; both since the entry was cleared. -/
def Entitled (cfg : Config) (before : List Mark) (mark : Mark) : Prop :=
  ∀ uskid usk bk, mark = .unicastKey uskid usk bk →
    HasAnswer cfg (sinceReset before) bk ∧ HasOrigin cfg (sinceReset before) bk

/-- The statuses that an entry comes to with its base key. -/
def trusted : Status → Bool
  | .noAuth | .waitingAccessReq | .waitingAuthFromAs => false
  | _ => true

structure Keyed (cfg : Config) (past : List Mark) (sta : Sta) : Prop where
  entitled : Justified (Entitled cfg) past
  origin : trusted sta.status = true → HasOrigin cfg (sinceReset past) sta.bksa.bk
  verified : sta.status = .waitingGrouping → HasAnswer cfg (sinceReset past) sta.bksa.bk

def Mark.keyless : Mark → Bool
  | .unicastKey _ _ _ => false
  | _ => true

def Mark.plain : Mark → Bool
  | .unicastKey _ _ _ | .reset => false
  | _ => true

theorem plain_keyless {mark : Mark} (plain : mark.plain = true) : mark.keyless = true := by
  cases mark with
  | unicastKey => cases plain
  | _ => rfl

theorem plain_no_reset (plain : ∀ mark ∈ marks, mark.plain = true) : .reset ∉ marks := by
  intro member
  have := plain _ member
  cases this

theorem entitled_keyless (entitled : Justified (Entitled cfg) past)
    (keyless : ∀ mark ∈ marks, mark.keyless = true) :
    Justified (Entitled cfg) (past ++ marks) := by
  apply entitled.grows ⟨marks, rfl, keyless⟩
  rintro trace mark free uskid usk bk rfl
  cases free

theorem HasAnswer.more (answer : HasAnswer cfg recent bk) : HasAnswer cfg (recent ++ marks) bk := by
  obtain ⟨frame, member, verifies⟩ := answer
  exact ⟨frame, mem_append_left marks member, verifies⟩

theorem HasOrigin.more (origin : HasOrigin cfg recent bk) : HasOrigin cfg (recent ++ marks) bk := by
  obtain ⟨suite, enabled, member⟩ := origin
  exact ⟨suite, enabled, mem_append_left marks member⟩

theorem Keyed.untrusted (keyed : Keyed cfg past sta)
    (keyless : ∀ mark ∈ marks, mark.keyless = true) (status : trusted later.status = false) :
    Keyed cfg (past ++ marks) later := by
  refine ⟨entitled_keyless keyed.entitled keyless, ?_, ?_⟩
  · rw [status]
    rintro ⟨⟩
  · intro grouping
    rw [grouping] at status
    cases status

theorem Keyed.move (keyed : Keyed cfg past sta) (plain : ∀ mark ∈ marks, mark.plain = true)
    (bk : later.bksa.bk = sta.bksa.bk)
    (status : trusted later.status = true → trusted sta.status = true)
    (verified : later.status = .waitingGrouping → sta.status = .waitingGrouping ∨
      HasAnswer cfg marks sta.bksa.bk) : Keyed cfg (past ++ marks) later := by
  have recent := sinceReset_append past marks (plain_no_reset plain)
  refine ⟨entitled_keyless keyed.entitled fun mark member => plain_keyless (plain mark member), ?_, ?_⟩
  · intro here
    rw [recent, bk]
    exact (keyed.origin (status here)).more
  · intro grouping
    rw [recent, bk]
    rcases verified grouping with before | ⟨frame, member, verifies⟩
    · exact (keyed.verified before).more
    · exact ⟨frame, mem_append_right _ member, verifies⟩

theorem Keyed.keep (keyed : Keyed cfg past sta) (plain : ∀ mark ∈ marks, mark.plain = true)
    (bk : later.bksa.bk = sta.bksa.bk) (status : later.status = sta.status) :
    Keyed cfg (past ++ marks) later := by
  apply keyed.move plain bk
  · rw [status]
    exact id
  · rw [status]
    exact Or.inl

/-- The entry moves to a status that is as trusted as the one before. -/
theorem Keyed.advance {status : Status} (keyed : Keyed cfg past sta) (before : sta.status = status)
    (plain : ∀ mark ∈ marks, mark.plain = true) (bk : later.bksa.bk = sta.bksa.bk)
    (same : trusted later.status = trusted status) (ungrouped : later.status ≠ .waitingGrouping) :
    Keyed cfg (past ++ marks) later := by
  apply keyed.move plain bk
  · rw [before, same]
    exact id
  · exact fun grouping => absurd grouping ungrouped

theorem Keyed.install (keyed : Keyed cfg past sta) (plain : ∀ mark ∈ marks, mark.plain = true)
    (bk : later.bksa.bk = sta.bksa.bk) (trustedBefore : trusted sta.status = true)
    (grouped : later.status ≠ .waitingGrouping)
    (verified : sta.status = .waitingGrouping ∨ HasAnswer cfg marks sta.bksa.bk) (uskid : Fin 2)
    (usk : Usk) : Keyed cfg (past ++ (marks ++ [.unicastKey uskid usk sta.bksa.bk])) later := by
  have before := sinceReset_append past marks (plain_no_reset plain)
  have after : sinceReset (past ++ marks ++ [.unicastKey uskid usk sta.bksa.bk]) =
      sinceReset (past ++ marks) ++ [.unicastKey uskid usk sta.bksa.bk] := by
    rw [sinceReset_snoc, if_neg (by simp)]
  have origin := keyed.origin trustedBefore
  have front := entitled_keyless keyed.entitled fun mark member => plain_keyless (plain mark member)
  rw [← append_assoc]
  refine ⟨front.snoc ?_, ?_, ?_⟩
  · rintro uskid usk bk ⟨⟩
    rw [before]
    refine ⟨?_, origin.more⟩
    rcases verified with grouping | ⟨frame, member, verifies⟩
    · exact (keyed.verified grouping).more
    · exact ⟨frame, mem_append_right _ member, verifies⟩
  · intro _
    rw [after, before, bk]
    exact origin.more.more
  · intro grouping
    exact absurd grouping grouped

def suiteAllowed (cfg : Config) (vap : Vap) (input : Input) : Bool :=
  match input.event with
  | .assoc mt => chosenSuite mt != some .psk || cfg.pskEnabled
  | .fromAs whole =>
    match certificateAuthRes cfg input.now input.seed vap.table (whole.take fromAsLen) with
    | .accepted i _ =>
      cfg.certEnabled && (apCertauthbkDerivation cfg input.seed (vap.table i)).isSome
    | _ => true
  | _ => true

variable {frame : Bytes} {res : SessionKeyNegResponse}

theorem UskHeard.verifies {uskid : Fin 2} (answer : UskHeard cfg vap input i frame res uskid)
    (mic : MicHolds cfg (vap.table i) frame res uskid) :
    HasAnswer cfg (uskMarks frame (vap.table i).bksa.bk) (vap.table i).bksa.bk := by
  refine ⟨frame, by simp [uskMarks], res, answer.response.unpacked, ?_⟩
  rw [← mic, answer.response.challenge]
  simp [uskDerived, aeUskDerivation, Usk.ofMaster]

theorem resendMarks_plain : ∀ mark ∈ resendMarks cfg sta, mark.plain = true := by
  intro mark member
  rcases mem_append.mp member with member | member
  · split at member
    · simp at member
    · split at member
      · split at member <;> simp_all [Mark.plain]
      · simp_all [Mark.plain]
  · split at member <;> simp_all [Mark.plain]

theorem Keyed.negotiated {mt : AssoMt} {saTimeout : UInt32} {nonce : Vector UInt8 32} {ok : Bool}
    {now : UInt32} (keyed : Keyed cfg past sta) (enabled : cfg.pskEnabled = true) :
    Keyed cfg (past ++ [.reset, .bkSet .psk cfg.pskBk, .sent frame])
      { (uskNegotiationReq cfg now nonce ok (apPskbkidDerivation cfg (apAddSta cfg mt))).1 with
        saTimeout := saTimeout } := by
  have recent : sinceReset (past ++ [.reset, .bkSet .psk cfg.pskBk, .sent frame]) =
      [.bkSet .psk cfg.pskBk, .sent frame] := by
    apply sinceReset_reset
    simp
  rw [uskNegotiationReq_eq]
  refine ⟨entitled_keyless keyed.entitled (by simp [Mark.keyless]), ?_, ?_⟩
  · intro _
    rw [recent]
    exact ⟨.psk, enabled, by simp [apPskbkidDerivation]⟩
  · cases ok <;> rintro ⟨⟩

theorem responseTaken_status (cfg : Config) (now : UInt32) (seed : Bytes) (sta : Sta) :
    (responseTaken cfg now seed sta).status = sta.status := by
  obtain ⟨aeKeyData, bksa, life, reauth, taken⟩ := responseTaken_eq cfg now seed sta
  rw [taken, resetTableItem]

theorem bkMarks_mem {now : UInt32} {seed : Bytes}
    (derives : (apCertauthbkDerivation cfg seed sta).isSome = true) :
    bkMarks cfg seed sta = [.bkSet .certificate (responseTaken cfg now seed sta).bksa.bk] := by
  rw [bkMarks]
  obtain ⟨derived, result⟩ := isSome_iff_exists.mp derives
  simp only [result, responseTaken, resetTableItem]
  simp only [apCertauthbkDerivation, bind_eq_bind, bind_eq_some_iff, Option.pure_def,
    some.injEq] at result
  obtain ⟨certObj, object, keys, generated, shared, agreed, rfl⟩ := result
  simp [apCertauthbkDerivation, object, generated, agreed, Config.addid]

theorem Keyed.served {seed : Bytes} {now : UInt32} {nonce : Vector UInt8 32} {ok : Bool}
    {first : Sta × List Mark} (keyed : Keyed cfg past sta) (enabled : cfg.certEnabled = true)
    (derives : (apCertauthbkDerivation cfg seed sta).isSome = true)
    (plain : ∀ mark ∈ first.2, mark.plain = true)
    (bk : first.1.bksa.bk = (responseTaken cfg now seed sta).bksa.bk)
    (status : first.1.status ≠ .waitingGrouping) :
    Keyed cfg (past ++ (bkMarks cfg seed sta ++ (first.2 ++
        (uskNegotiationReq cfg now nonce ok first.1).2)))
      (uskNegotiationReq cfg now nonce ok first.1).1 := by
  rw [uskNegotiationReq_eq, bkMarks_mem derives]
  have none : ∀ mark ∈ [.bkSet .certificate (responseTaken cfg now seed sta).bksa.bk] ++
      (first.2 ++ [.sent (firstRequest cfg nonce first.1)]), mark.plain = true := by
    intro mark member
    simp only [mem_append, mem_singleton] at member
    rcases member with rfl | member | rfl
    · rfl
    · exact plain mark member
    · rfl
  refine ⟨entitled_keyless keyed.entitled fun mark member => plain_keyless (none mark member),
    ?_, ?_⟩
  · intro _
    rw [sinceReset_append _ _ (plain_no_reset none)]
    refine ⟨.certificate, enabled, ?_⟩
    simp [bk]
  · intro grouping
    cases ok with
    | true => cases grouping
    | false => exact absurd grouping status

theorem Keyed.confirm {confirmation : Bytes} {uskid index : Fin 2} {usk : Usk} {status : Status}
    (keyed : Keyed cfg (vap.past i) (vap.table i))
    (answer : UskHeard cfg vap input i frame res uskid)
    (mic : MicHolds cfg (vap.table i) frame res uskid)
    (before : (vap.table i).status = status) (entitled : trusted status = true)
    (bk : later.bksa.bk = (vap.table i).bksa.bk)
    (grouped : later.status ≠ .waitingGrouping) :
    Keyed cfg (vap.past i ++ (uskMarks frame (vap.table i).bksa.bk ++
      [.confirmed confirmation index usk, .sent confirmation,
        .unicastKey index usk (vap.table i).bksa.bk])) later := by
  have split : uskMarks frame (vap.table i).bksa.bk ++
      [.confirmed confirmation index usk, .sent confirmation,
        .unicastKey index usk (vap.table i).bksa.bk] =
      (uskMarks frame (vap.table i).bksa.bk ++
        [.confirmed confirmation index usk, .sent confirmation]) ++
          [.unicastKey index usk (vap.table i).bksa.bk] := by simp
  rw [split]
  apply keyed.install
  · simp [uskMarks, Mark.plain]
  · exact bk
  · rw [before]
    exact entitled
  · exact grouped
  · exact Or.inr (answer.verifies mic).more

theorem Turn.keepsKeyed {result : Sta × List Mark} (socket : cfg.asUdpSk = true)
    (allowed : suiteAllowed cfg vap input = true) (keyed : Keyed cfg (vap.past i) (vap.table i))
    (turn : Turn cfg vap input i result) : Keyed cfg (vap.past i ++ result.2) result.1 := by
  cases turn with
  | same => simpa using keyed
  | ignored => exact keyed.keep (by simp [Mark.plain]) rfl rfl
  | associated => exact keyed.untrusted (by simp [Mark.keyless]) rfl
  | activated =>
    rw [sendActivation_eq]
    apply keyed.untrusted (by simp [Mark.keyless])
    cases input.sent i 0 <;> rfl
  | negotiated mt event position saTimeout suite =>
    apply keyed.negotiated
    simpa [suiteAllowed, event, suite] using allowed
  | aged => exact keyed.untrusted (by simp [Mark.keyless]) rfl
  | rekeyed ok status =>
    rw [uskRekeyHandle_eq]
    exact keyed.advance status (by simp [Mark.plain]) rfl rfl (by rintro ⟨⟩)
  | announced msksa gnonce sent told =>
    rw [announceTo_sent]
    apply keyed.move
    · simp [Mark.plain]
    · rfl
    · intro _
      cases status : (vap.table i).status <;> rw [status] at told <;> first | rfl | cases told
    · dsimp only
      split <;> rintro ⟨⟩
  | unannounced => exact keyed.keep (by simp [Mark.plain]) rfl rfl
  | unannouncedRekey frame ok failed status =>
    rw [andThen, uskRekeyHandle_eq]
    exact keyed.advance status (by simp [Mark.plain]) rfl rfl (by rintro ⟨⟩)
  | requested heard status request =>
    simp only [andThen, forwardRequest, socket, if_true]
    cases input.sent i 0 with
    | true => exact keyed.untrusted (by simp [Mark.keyless]) rfl
    | false => exact keyed.keep (by simp [Mark.plain]) rfl rfl
  | rejected status marks sent =>
    apply keyed.untrusted _ rfl
    intro mark member
    rcases mem_append.mp member with member | member
    · obtain ⟨frame, rfl⟩ := sent mark member
      rfl
    · simp only [mem_cons, not_mem_nil, or_false] at member
      rcases member with rfl | rfl <;> rfl
  | @served frame sta answered accepts message =>
    obtain ⟨whole, event, rfl, -⟩ := answered
    obtain ⟨status, rfl⟩ := certificateAuthRes_taken accepts
    simp only [suiteAllowed, event, accepts, Bool.and_eq_true] at allowed
    have waiting := (responseTaken_status cfg input.now input.seed (vap.table i)).trans status
    cases message with
    | none =>
      apply keyed.served allowed.1 allowed.2
      · simp
      · rfl
      · simp [waiting]
    | some message =>
      apply keyed.served allowed.1 allowed.2
      · simp [Mark.plain]
      · simp
      · simp [waiting]
  | mismatched => exact keyed.keep (by simp [Mark.plain]) rfl rfl
  | disauthenticated => exact keyed.untrusted (by simp [Mark.keyless]) rfl
  | keyed answer mic status =>
    rw [andThen, confirmKey_eq]
    exact keyed.confirm answer mic status rfl rfl (by rintro ⟨⟩)
  | keyedGrouping answer mic status =>
    rw [andThen, regrouped, confirmKey_eq]
    exact keyed.confirm answer mic status rfl rfl (by rintro ⟨⟩)
  | keyedDynamic answer mic status =>
    rw [andThen, confirmKey_eq]
    exact keyed.confirm answer mic status rfl rfl (by rintro ⟨⟩)
  | keyedFirst answer mic status =>
    rw [andThen, uskNegotiationConfirmation_eq, andThen, mskAnnouncementTx_eq]
    apply keyed.move
    · simp [uskMarks, Mark.plain]
    · rfl
    · rw [status]
      exact fun _ => rfl
    · exact fun _ => Or.inr (answer.verifies mic).more
  | preAuthenticated answer mic status =>
    exact keyed.advance status (by simp [uskMarks, Mark.plain]) rfl rfl (by rintro ⟨⟩)
  | told heard kind valid status =>
    apply keyed.move
    · simp [Mark.plain]
    · rfl
    · intro _
      rcases status with status | status <;> rw [status] <;> rfl
    · rintro ⟨⟩
  | @toldFirst frame heard kind valid status =>
    apply @Keyed.install cfg (vap.table i) _ (vap.past i) [.received frame, .accepted frame]
    · exact keyed
    · simp [Mark.plain]
    · rfl
    · rw [status]
      rfl
    · rintro ⟨⟩
    · exact Or.inl status
  | toldKeying heard kind valid status =>
    exact keyed.advance status (by simp [Mark.plain]) rfl rfl (by rintro ⟨⟩)
  | unrenewed => exact keyed.untrusted (by simp) rfl
  | renewed =>
    rw [sendActivation_eq]
    apply keyed.untrusted (by simp [Mark.keyless])
    cases input.sent i 0 <;> rfl
  | removed =>
    apply keyed.untrusted _ rfl
    rw [Wapi.removed]
    dsimp only
    split <;> simp [Mark.keyless]
  | resent => exact keyed.keep resendMarks_plain rfl rfl

/-- As long as every suite that sets a base key is enabled, a unicast key is only installed
after a completed authentication under it. -/
theorem unicast_key_entitled {now : UInt32} {msk : Vector UInt8 16} (socket : cfg.asUdpSk = true)
    (reached : Reaches (step cfg) (fun vap input => suiteAllowed cfg vap input = true)
      (Vap.init cfg now msk) vap) (i : Slot) : Justified (Entitled cfg) (vap.past i) := by
  have keyed : Keyed cfg (vap.past i) (vap.table i) := by
    refine reaches_turn (Keyed cfg) ?_ ?_ reached i
    · refine ⟨Justified.nil _, ?_, ?_⟩
      · rintro ⟨⟩
      · rintro ⟨⟩
    · intro vap input i result allowed keyed turn
      exact turn.keepsKeyed socket allowed (keyed i)
  exact keyed.entitled

def keyInstalled (past : List Mark) : Bool := past.any fun mark => !mark.keyless

theorem unicast_key_entitled_psk : ∃ vap,
    Reaches (step (network 0x07)) (fun vap input => suiteAllowed (network 0x07) vap input = true)
      (networkStart 0x07) vap ∧
      keyInstalled (vap.past 31) = true ∧ Justified (Entitled (network 0x07)) (vap.past 31) := by
  have ends : (follows (step (network 0x07))
      (fun vap input => suiteAllowed (network 0x07) vap input = true) (networkStart 0x07)
      [associates 1, answersUsk (network 0x07) 31 0, answersMsk (network 0x07) 31 0]).map
        (fun vap => keyInstalled (vap.past 31)) = some true := by
    rw [networkStart, network_eq]
    decide +kernel
  obtain ⟨vap, ends, installed⟩ := map_eq_some_iff.mp ends
  have reached := reaches_of_follows ends
  exact ⟨vap, reached, installed, unicast_key_entitled rfl reached 31⟩

theorem mem_of_mem_sinceReset {mark : Mark} (member : mark ∈ sinceReset past) : mark ∈ past := by
  induction past using List.reverseRecOn with
  | nil => exact member
  | append_singleton front last ih =>
    rw [sinceReset_snoc] at member
    split at member
    · simp at member
    · rcases mem_append.mp member with member | member
      · exact mem_append_left _ (ih member)
      · exact mem_append_right _ member

def Mark.uncertified : Mark → Bool
  | .bkSet .certificate _ => false
  | _ => true

/-- The access point only allows certificates.  A station that picks the preshared key is served
with the base key of all zeros, and its unicast key is installed. -/
theorem unicast_key_without_suite : ∃ vap,
    Reaches (step (network 0x0B)) (fun _ _ => True) (networkStart 0x0B) vap ∧
      (network 0x0B).asUdpSk = true ∧ ¬ Justified (Entitled (network 0x0B)) (vap.past 31) := by
  have ends : (follows (step (network 0x0B)) (fun _ _ => True) (networkStart 0x0B)
      [associates 1, answersUsk (network 0x0B) 31 0, answersMsk (network 0x0B) 31 0]).map
        (fun vap => (keyInstalled (vap.past 31), (vap.past 31).all Mark.uncertified)) =
      some (true, true) := by
    rw [networkStart, network_eq]
    decide +kernel
  obtain ⟨vap, ends, facts⟩ := map_eq_some_iff.mp ends
  simp only [Prod.mk.injEq, keyInstalled, List.any_eq_true, List.all_eq_true] at facts
  obtain ⟨⟨mark, member, installs⟩, uncertified⟩ := facts
  refine ⟨vap, reaches_of_follows ends, rfl, ?_⟩
  intro entitled
  obtain ⟨before, after, split⟩ := append_of_mem member
  have here := entitled before mark after split
  cases mark with
  | unicastKey uskid usk bk =>
    obtain ⟨-, suite, enabled, origin⟩ := here uskid usk bk rfl
    cases suite with
    | psk => exact absurd enabled (by decide)
    | certificate =>
      have later : .bkSet .certificate bk ∈ vap.past 31 := by
        rw [split]
        exact mem_append_left _ (mem_of_mem_sinceReset origin)
      exact absurd (uncertified _ later) (by simp [Mark.uncertified])
  | _ => cases installs

end AthApps.Wapi
