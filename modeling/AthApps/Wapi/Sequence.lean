import AthApps.Wapi.Change

/-!
# The numbers of the frames

`wapi_process_from_sta` compares the low byte of the number of a frame with
`asue_group_sc`, which nothing ever writes, so it accepts frames in any order.
What it does look at is whether a frame `Answers` the exchange that the entry is
in: by the state, and by the flag, the nonce or the identifier that it repeats.
Only the frames that do have to come in order.
-/

set_option autoImplicit false

namespace AthApps.Wapi

open AthApps.Lib Option
open List hiding Vector

def repeatsFlag (sta : Sta) (frame : Bytes) : Bool :=
  match unpackStaAuthRequest frame with
  | .ok request => request.aeAuthFlag == sta.bksa.aeAuthFlag
  | .error _ => false

def repeatsNonce (sta : Sta) (frame : Bytes) : Bool :=
  match unpackUcastkeyNegResponse frame with
  | .ok res => res.aeChallenge == sta.aeNonce
  | .error _ => false

def repeatsIdentifier (gnonce : List UInt32) (frame : Bytes) : Bool :=
  match unpackMskAnnouncementRes frame with
  | .ok res => res.gNonce == gnonce
  | .error _ => false

/-- The frame is one that the exchange of the entry may end with. -/
def Answers (vap : Vap) (i : Slot) (frame : Bytes) : Prop :=
  let sta := vap.table i
  let stype := getPacketSubType frame
  (stype = SubType.staAcessRequest.code ∧ sta.status ≠ .waitingAuthFromAs ∧
      repeatsFlag sta frame = true) ∨
    (stype = SubType.uskNegResponse.code ∧ acceptsUskResponse sta.status = true ∧
      repeatsNonce sta frame = true) ∨
    (stype = SubType.mskResponse.code ∧ acceptsMskResponse sta.status = true ∧
      repeatsIdentifier vap.gnonce frame = true)

instance (vap : Vap) (i : Slot) (frame : Bytes) : Decidable (Answers vap i frame) :=
  inferInstanceAs (Decidable (_ ∨ _))

def Mark.quiet : Mark → Bool
  | .accepted _ => false
  | _ => true

/-- The marks of a step: only a frame that came in and answers something can be accepted. -/
inductive FrameMarks (cfg : Config) (vap : Vap) (input : Input) (i : Slot) : List Mark → Prop
  | quiet {marks : List Mark} (quiet : ∀ mark ∈ marks, mark.quiet = true) :
      FrameMarks cfg vap input i marks
  | accepted {frame : Bytes} {marks : List Mark} (heard : Heard cfg vap input i frame)
      (answers : Answers vap i frame) (quiet : ∀ mark ∈ marks, mark.quiet = true) :
      FrameMarks cfg vap input i (.received frame :: .accepted frame :: marks)

section Handlers

variable {cfg : Config} {input : Input} {i : Slot} {sta : Sta}

variable {result : Sta × List Mark}

variable {nonce : Vector UInt8 32}

theorem apActivateSta_quiet {now : UInt32} {ok : Bool}
    (activated : apActivateSta cfg now nonce ok sta = some result) :
    ∀ mark ∈ result.2, mark.quiet = true := by
  obtain rfl | ⟨flag, aeAuthFlag, asuId, rfl⟩ := apActivateSta_cases activated
  · simp
  · simp [sendActivation, Mark.quiet]

theorem initiateEntry_quiet {mt : AssoMt} (initiated : initiateEntry cfg input i mt = some result) :
    ∀ mark ∈ result.2, mark.quiet = true := by
  rw [initiateEntry, map_eq_some_iff] at initiated
  obtain ⟨started, begun, rfl⟩ := initiated
  dsimp only at begun ⊢
  refine forall_mem_cons.mpr ⟨rfl, ?_⟩
  split at begun
  · exact apActivateSta_quiet begun
  · cases begun
    simp [andThen, uskNegotiationReq, Mark.quiet]
  · cases begun
    simp

theorem confirmKey_quiet : ∀ mark ∈ (confirmKey cfg input i sta).2, mark.quiet = true := by
  simp [confirmKey, andThen, uskNegotiationConfirmation, setUcastkey, Mark.quiet]

theorem uskAccepted_quiet (msksa : Msksa) (gnonce : List UInt32) :
    ∀ mark ∈ (uskAccepted cfg input i msksa gnonce sta).2, mark.quiet = true := by
  unfold uskAccepted
  split
  · exact confirmKey_quiet
  · exact confirmKey_quiet
  · exact confirmKey_quiet
  · split
    · simp [andThen, uskNegotiationConfirmation, mskAnnouncementTx, Mark.quiet]
    · simp
  · simp

theorem accessAuthRes_quiet {now : UInt32} {content : Bytes}
    (responded : accessAuthRes cfg now sta content = some result) :
    ∀ mark ∈ result.2, mark.quiet = true := by
  obtain rfl | ⟨frame, rfl⟩ := accessAuthRes_cases responded
  · simp
  · simp [Mark.quiet]

theorem retryEntry_quiet {counts : Bool}
    (retried : retryEntry cfg input i sta = some (result, counts)) :
    ∀ mark ∈ result.2, mark.quiet = true := by
  cases retryEntry_outcome retried with
  | same => simp
  | update status activated => exact apActivateSta_quiet activated
  | removed =>
    rw [removed]
    dsimp only
    split <;> simp [Mark.quiet]
  | resent =>
    intro mark member
    simp only [resendMarks, mem_append] at member
    rcases member with member | member
    · split at member
      · simp at member
      · split at member
        · split at member
          · simp_all [Mark.quiet]
          · simp at member
        · simp_all [Mark.quiet]
    · split at member
      · simp at member
      · simp_all [Mark.quiet]

variable {frame : Bytes}

theorem accessAuthReq_answers {message : Bytes} {later : Sta}
    (accepted : accessAuthReq cfg nonce sta frame = .accepted later message) :
    sta.status ≠ .waitingAuthFromAs ∧ repeatsFlag sta frame = true := by
  refine ⟨(accessAuthReq_accepted accepted).1, ?_⟩
  unfold accessAuthReq at accepted
  split at accepted
  · cases accepted
  · split at accepted
    · cases accepted
    · cases accepted
    next request unpacked =>
      dsimp only at accepted
      split at accepted
      next valid =>
        simp only [authRequestValid, Bool.and_eq_true] at valid
        simp only [repeatsFlag, unpacked]
        exact valid.1.1.1.1.1
      next => cases accepted

theorem UskResponse.answers {res : SessionKeyNegResponse} {uskid : Fin 2}
    (response : UskResponse sta frame res uskid) :
    acceptsUskResponse sta.status = true ∧ repeatsNonce sta frame = true := by
  refine ⟨response.status, ?_⟩
  simp only [repeatsNonce, response.unpacked, response.challenge, beq_self_eq_true]

theorem mskResponseValid_answers {msksa : Msksa} {gnonce : List UInt32}
    (valid : mskResponseValid cfg msksa gnonce sta frame = true) :
    acceptsMskResponse sta.status = true ∧ repeatsIdentifier gnonce frame = true := by
  simp only [mskResponseValid, Bool.and_eq_true] at valid
  obtain ⟨status, valid⟩ := valid
  refine ⟨status, ?_⟩
  unfold repeatsIdentifier
  split at valid
  · cases valid
  next res unpacked =>
    simp only [Bool.and_eq_true] at valid
    simp only [unpacked]
    exact valid.2

end Handlers

variable {cfg : Config} {vap : Vap} {input : Input}

theorem Change.frameMarks {i : Slot} {result : Sta × List Mark}
    (change : Change cfg vap input i result) : FrameMarks cfg vap input i result.2 := by
  cases change with
  | none => exact .quiet (by simp)
  | assoc mt event position initiated => exact .quiet (initiateEntry_quiet initiated)
  | aging => exact .quiet (by simp [Mark.quiet])
  | rekey => exact .quiet (by simp [uskRekeyHandle, Mark.quiet])
  | announce msksa gnonce =>
    apply FrameMarks.quiet
    rw [announceTo]
    split <;> simp [Mark.quiet]
  | announceRekey => exact .quiet (by simp [andThen, announceTo, uskRekeyHandle, Mark.quiet])
  | ignored heard => exact .quiet (by simp [Mark.quiet])
  | access heard kind processed =>
    unfold processAccessRequest at processed
    split at processed
    · cases processed
    · cases processed
      exact .quiet (by simp [Mark.quiet])
    next later message accepted =>
      have answers : Answers vap i _ := .inl ⟨kind, accessAuthReq_answers accepted⟩
      cases processed
      simp only [forwardRequest]
      split
      · exact .accepted heard answers (by simp [Mark.quiet])
      · exact .accepted heard answers (by simp)
  | usk heard kind processed =>
    obtain ⟨later, -, rfl⟩ | ⟨later, outcome, rfl⟩ | ⟨later, outcome, rfl⟩ :=
      processUskResponse_cases processed
    · exact .quiet (by simp [Mark.quiet])
    · cases outcome with
      | disauthenticated response mic update wie =>
        exact .accepted heard (.inr (.inl ⟨kind, response.answers⟩)) (by simp [Mark.quiet])
    · cases outcome with
      | accepted response mic wie =>
        refine .accepted heard (.inr (.inl ⟨kind, response.answers⟩))
          (forall_mem_cons.mpr ⟨rfl, ?_⟩)
        exact uskAccepted_quiet vap.msksa vap.gnonce
  | msk heard kind valid =>
    have answers : Answers vap i _ := .inr (.inr ⟨kind, mskResponseValid_answers valid⟩)
    unfold mskAccepted
    split
    · exact .accepted heard answers (by simp)
    · exact .accepted heard answers (by simp)
    · exact .accepted heard answers (by simp [setUcastkey, Mark.quiet])
    · exact .accepted heard answers (by simp)
    · exact .accepted heard answers (by simp)
  | rejected answered rejects responded =>
    apply FrameMarks.quiet
    intro mark member
    rcases mem_append.mp member with member | member
    · exact accessAuthRes_quiet responded mark member
    · simp only [mem_cons, not_mem_nil, or_false] at member
      rcases member with rfl | rfl <;> rfl
  | server answered accepts responded =>
    apply FrameMarks.quiet
    obtain ⟨first, sent, rfl⟩ := map_eq_some_iff.mp responded
    intro mark member
    rcases mem_append.mp member with member | member
    · simp only [bkMarks] at member
      split at member <;> simp_all [Mark.quiet]
    · rcases mem_append.mp member with member | member
      · exact accessAuthRes_quiet sent mark member
      · simp only [uskNegotiationReq, mem_singleton] at member
        rw [member]
        rfl
  | retry event retried => exact .quiet (retryEntry_quiet retried)

def Ordered (before : List Mark) (mark : Mark) : Prop :=
  ∀ frame, mark = .accepted frame → ∀ earlier, .accepted earlier ∈ sinceReset before →
    getPacketGroupSc earlier ≤ getPacketGroupSc frame

/-- A frame that answers the exchange of its entry is not numbered below those that were
accepted for the entry since it was cleared. -/
def InSequence (cfg : Config) (vap : Vap) (input : Input) : Prop :=
  ∀ i frame, Heard cfg vap input i frame → Answers vap i frame →
    ∀ earlier, .accepted earlier ∈ sinceReset (vap.past i) →
      getPacketGroupSc earlier ≤ getPacketGroupSc frame

def Mark.notAbove (number : Nat) : Mark → Bool
  | .accepted earlier => getPacketGroupSc earlier ≤ number
  | _ => true

instance : Decidable (InSequence cfg vap input) :=
  decidable_of_iff (∀ i frame, Heard cfg vap input i frame → Answers vap i frame →
      ∀ mark ∈ sinceReset (vap.past i), mark.notAbove (getPacketGroupSc frame) = true) (by
    constructor
    · intro all i frame came answers earlier member
      simpa [Mark.notAbove] using all i frame came answers _ member
    · intro sequence i frame came answers mark member
      cases mark with
      | accepted earlier => simpa [Mark.notAbove] using sequence i frame came answers earlier member
      | _ => rfl)

variable {past : List Mark}

theorem ordered_quiet {past marks : List Mark} (ordered : Justified Ordered past)
    (quiet : ∀ mark ∈ marks, mark.quiet = true) : Justified Ordered (past ++ marks) := by
  induction marks generalizing past with
  | nil => simpa using ordered
  | cons mark rest ih =>
    have here := quiet mark mem_cons_self
    rw [append_cons]
    refine ih (ordered.snoc ?_) fun other member => quiet other (mem_cons_of_mem mark member)
    rintro frame rfl
    simp [Mark.quiet] at here

theorem ordered_accepted (ordered : Justified Ordered past) {frame : Bytes}
    (sequence : ∀ earlier, .accepted earlier ∈ sinceReset past →
      getPacketGroupSc earlier ≤ getPacketGroupSc frame) :
    Justified Ordered (past ++ [.received frame] ++ [.accepted frame]) := by
  refine (ordered_quiet ordered (by simp [Mark.quiet])).snoc ?_
  rintro other ⟨⟩ earlier member
  rw [sinceReset_snoc, if_neg (by simp)] at member
  exact sequence earlier (by simpa using member)

def acceptedNumbers (marks : List Mark) : List Nat :=
  marks.filterMap fun mark => match mark with
    | .accepted frame => some (getPacketGroupSc frame)
    | _ => none

theorem Ordered.numbers (ordered : Justified Ordered past) :
    (acceptedNumbers (sinceReset past)).Pairwise (· ≤ ·) := by
  induction past using List.reverseRecOn with
  | nil => simp [acceptedNumbers]
  | append_singleton front mark ih =>
    obtain ⟨earlier, here⟩ := ordered.front
    rw [sinceReset_snoc]
    split
    · simp [acceptedNumbers]
    · rw [acceptedNumbers, filterMap_append]
      refine pairwise_append.mpr ⟨ih earlier, ?_, ?_⟩
      · cases mark <;> simp
      · intro low lower high higher
        obtain ⟨first, member, named⟩ := mem_filterMap.mp lower
        cases mark <;> simp at higher
        cases first <;> simp at named
        rw [higher, ← named]
        exact here _ rfl _ member

end AthApps.Wapi
