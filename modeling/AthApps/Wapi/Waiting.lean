import AthApps.Wapi.Supplicant
import AthApps.Wapi.Change

/-!
# Waits and the timer

While the supplicant waits for the answer to an access request or to the response
of a unicast key negotiation, the timer has to be there, or the wait has no end
when the answer is lost.  The timer is made at association only.  It ends with the
association, and also when the response to a group key announcement was sent three
times; nothing answers that response, and the association goes on without a timer.

`AsueChange` says what a step can do to state and timer.
-/

set_option autoImplicit false

namespace AthApps.Wapi

open AthApps.Lib Option
open List hiding Vector

def AsueState.waits : AsueState → Bool
  | .cntReq | .uniResp => true
  | _ => false

def AsueState.timerKind : AsueState → Nat
  | .cntReq => 1
  | _ => 2

theorem AsueState.timerKind_ne_three (state : AsueState) : state.timerKind ≠ 3 := by
  cases state with
  | cntReq => decide
  | _ => decide

def AsueState.pendingKind : AsueState → SubType
  | .cntReq => .staAcessRequest
  | _ => .uskNegResponse

def AsueMark.frame : AsueMark → Option Bytes
  | .sent frame => some frame
  | _ => none

def sentFrames (marks : List AsueMark) : List Bytes := marks.filterMap AsueMark.frame

@[simp] theorem sentFrames_append (front back : List AsueMark) :
    sentFrames (front ++ back) = sentFrames front ++ sentFrames back :=
  filterMap_append

/-- The frame that waits for its answer is in the timer, and was the last one sent. -/
structure Pending (asue : Asue) (marks : List AsueMark) : Prop where
  kind : asue.timer.t = asue.state.timerKind
  frame : getPacketSubType asue.timer.dat = asue.state.pendingKind.code
  sent : (sentFrames marks).getLast? = some asue.timer.dat

/-- A wait has a timer, which will send the frame again. -/
def Guarded (run : AsueRun) : Prop :=
  run.supplicant.asue.state.waits = true →
    run.supplicant.asue.timer.running = true ∧ Pending run.supplicant.asue run.marks

/-- The timer is as it was, apart from the counters. -/
structure SameTimer (before after : AsueTimer) : Prop where
  t : after.t = before.t
  dat : after.dat = before.dat
  running : after.running = before.running

/-- `taken` says that a request was taken that starts the wait in a state. -/
inductive AsueChange (taken : AsueState → Prop) (before after : Asue) (marks : List AsueMark) : Prop
  | stays (state : after.state = before.state) (timer : SameTimer before.timer after.timer)
      (sent : sentFrames marks = [] ∨ sentFrames marks = [before.timer.dat])
  | settles (state : after.state.waits = false)
      (running : after.timer.running = before.timer.running ∨ after.state = .noAssoc)
  -- the group key response was sent often enough
  | drops (state : after.state = before.state) (kind : before.timer.t = 3)
      (often : 3 ≤ before.timer.ctx + 1)
  | opens (taken : taken after.state) (state : after.state.waits = true) (kind : after.timer.t = after.state.timerKind)
      (frame : getPacketSubType after.timer.dat = after.state.pendingKind.code)
      (sent : sentFrames marks = [after.timer.dat])
      (running : after.timer.running = before.timer.running)

theorem SameTimer.refl (timer : AsueTimer) : SameTimer timer timer := ⟨rfl, rfl, rfl⟩

theorem AsueChange.quiet {taken : AsueState → Prop} {before after : Asue} {marks : List AsueMark}
    (state : after.state = before.state) (timer : after.timer = before.timer)
    (sent : sentFrames marks = []) : AsueChange taken before after marks :=
  .stays state (timer ▸ SameTimer.refl _) (.inl sent)

variable {taken : AsueState → Prop} {before after : Asue}

theorem AsueChange.of_same {first : Asue} {marks : List AsueMark}
    (state : before.state = first.state) (timer : before.timer = first.timer)
    (change : AsueChange taken before after marks) : AsueChange taken first after marks := by
  cases change with
  | stays same same_timer sent =>
    rw [timer] at same_timer sent
    exact .stays (same.trans state) same_timer sent
  | settles calm running =>
    rw [timer] at running
    exact .settles calm running
  | drops same kind often =>
    rw [timer] at kind often
    exact .drops (same.trans state) kind often
  | opens taken waits kind frame sent running =>
    rw [timer] at running
    exact .opens taken waits kind frame sent running

theorem AsueChange.marks_front {front marks : List AsueMark} (none : sentFrames front = [])
    (change : AsueChange taken before after marks) :
    AsueChange taken before after (front ++ marks) := by
  have same : sentFrames (front ++ marks) = sentFrames marks := by simp [none]
  cases change with
  | stays state timer sent => exact .stays state timer (same ▸ sent)
  | settles calm running => exact .settles calm running
  | drops state kind often => exact .drops state kind often
  | opens taken waits kind frame sent running =>
    exact .opens taken waits kind frame (same.trans sent) running

section Timer

variable {taken : AsueState → Prop}

theorem wlanDeauthForOtherc_change (before asue : Asue) (marks : List AsueMark) :
    AsueChange taken before (wlanDeauthForOtherc asue).1 marks :=
  .settles rfl (.inr rfl)

theorem timerRetry_change (asue : Asue) :
    AsueChange taken asue (timerRetry asue).1 (timerRetry asue).2 ∨
      (3 ≤ asue.timer.ctx + 1 ∧ asue.timer.t ≠ 1 ∧ asue.timer.t ≠ 2) := by
  by_cases often : 3 ≤ asue.timer.ctx + 1
  · by_cases awaited : asue.timer.t = 1 ∨ asue.timer.t = 2
    · left
      simp only [timerRetry, often, awaited, if_true]
      exact wlanDeauthForOtherc_change asue asue _
    · right
      push Not at awaited
      exact ⟨often, awaited⟩
  · left
    simp only [timerRetry, often, if_false]
    exact .stays rfl ⟨rfl, rfl, rfl⟩ (.inr rfl)

theorem timerRun_change (asue : Asue) :
    AsueChange taken asue (timerRun asue).1 (timerRun asue).2 := by
  by_cases idle : asue.timer.running = false ∨ asue.timer.t = 0 ∨ 3 < asue.timer.t
  · simp only [timerRun, idle, if_true]
    exact .quiet rfl rfl rfl
  · by_cases early : asue.timer.ctm + 1 < if asue.timer.t = 1 then 124 else 4
    · simp only [timerRun, idle, early, if_true, if_false]
      exact .stays rfl ⟨rfl, rfl, rfl⟩ (.inl rfl)
    · have retried : timerRun asue = timerRetry asue := by
        simp only [timerRun, idle, early, if_false]
      rw [retried]
      rcases timerRetry_change asue with change | ⟨often, notOne, notTwo⟩
      · exact change
      · have three : asue.timer.t = 3 := by omega
        refine .drops ?_ three often
        simp [timerRetry, often, notOne, notTwo, timerDestory]

theorem timerResend_change (asue : Asue) :
    AsueChange taken asue (timerResend asue).1 (timerResend asue).2 := by
  by_cases awaited : asue.timer.t = 1 ∨ asue.timer.t = 2
  · simp only [timerResend, awaited, if_true]
    rcases timerRetry_change asue with change | ⟨-, notOne, notTwo⟩
    · exact change
    · omega
  · simp only [timerResend, awaited, if_false]
    exact .quiet rfl rfl rfl

end Timer

variable {marks : List AsueMark} {frame : Bytes} {asue after : Asue} {nonce : Vector UInt8 32}
  {cfg : Config}

theorem waigroupUnicast13_done
    (taken : waigroupUnicast13 cfg nonce asue frame = .done after marks) :
    after.state = .uniResp ∧ after.timer.t = 2 ∧
      getPacketSubType after.timer.dat = SubType.uskNegResponse.code ∧
      sentFrames marks = [after.timer.dat] ∧
      after.timer.running = asue.timer.running := by
  unfold waigroupUnicast13 at taken
  dsimp only at taken
  split at taken <;> try contradiction
  split at taken <;> try contradiction
  split at taken <;> try contradiction
  split at taken <;> try contradiction
  split at taken <;> try contradiction
  obtain ⟨rfl, rfl⟩ := taken
  exact ⟨rfl, rfl, rfl, rfl, rfl⟩

theorem waigroupUnicast13_discarded
    (left : waigroupUnicast13 cfg nonce asue frame = .discarded after marks) :
    after = asue ∧ marks = [] := by
  unfold waigroupUnicast13 at left
  dsimp only at left
  split at left
  · cases left
    exact ⟨rfl, rfl⟩
  split at left <;> try contradiction
  split at left
  · cases left
    exact ⟨rfl, rfl⟩
  split at left
  · cases left
    exact ⟨rfl, rfl⟩
  split at left <;> contradiction

variable {ok : Bool}

theorem waigroupUnicast33_done (taken : waigroupUnicast33 cfg ok asue frame = .done after marks) :
    after.state = .uniAck ∧ after.timer = asue.timer := by
  unfold waigroupUnicast33 at taken
  split at taken <;> try contradiction
  split at taken <;> try contradiction
  dsimp only at taken
  split at taken
  · cases taken
    exact ⟨rfl, rfl⟩
  · contradiction

theorem waigroupUnicast33_discarded
    (left : waigroupUnicast33 cfg ok asue frame = .discarded after marks) :
    after.state = asue.state ∧ after.timer = asue.timer ∧ sentFrames marks = [] := by
  unfold waigroupUnicast33 at left
  split at left
  · cases left
    exact ⟨rfl, rfl, rfl⟩
  split at left <;> try contradiction
  dsimp only at left
  split at left
  · contradiction
  · cases left
    exact ⟨rfl, rfl, rfl⟩

theorem waigroupMulticast12_change (cfg : Config) (ok : Bool) (asue : Asue) (frame : Bytes) :
    AsueChange taken asue (waigroupMulticast12 cfg ok asue frame).1
      (waigroupMulticast12 cfg ok asue frame).2 := by
  unfold waigroupMulticast12
  split
  · exact .quiet rfl rfl rfl
  dsimp only
  split
  · exact .quiet rfl rfl rfl
  split
  · exact .quiet rfl rfl rfl
  · apply AsueChange.settles
    · cases ok
      · rfl
      · rfl
    · exact .inl rfl

theorem iwnWapiSmRxWai_change {asue : Asue} {result : Asue × List AsueMark}
    (stepped : iwnWapiSmRxWai cfg nonce ok asue frame = some result) :
    AsueChange (fun state => state = .uniResp ∧
      getPacketSubType frame = SubType.uskNegRequest.code ∧
      ∃ after marks, waigroupUnicast13 cfg nonce asue frame = .done after marks)
      asue result.1 result.2 := by
  unfold iwnWapiSmRxWai at stepped
  split at stepped
  · cases stepped
    exact .quiet rfl rfl rfl
  dsimp only at stepped
  split at stepped
  · contradiction
  split at stepped
  · rename_i request
    split at stepped
    · contradiction
    · rename_i after marks taken
      cases stepped
      obtain ⟨state, kind, frame, sent, running⟩ := waigroupUnicast13_done taken
      exact .opens ⟨state, request, _, _, taken⟩ (by rw [state]; rfl) (by rw [state, kind]; rfl) (by rw [state, frame]; rfl)
        sent running
    · rename_i after marks left
      cases stepped
      obtain ⟨rfl, rfl⟩ := waigroupUnicast13_discarded left
      exact .quiet rfl rfl rfl
    · cases stepped
      exact wlanDeauthForOtherc_change _ _ _
  split at stepped
  · split at stepped
    · contradiction
    · contradiction
    · rename_i after marks taken
      cases stepped
      obtain ⟨state, timer⟩ := waigroupUnicast33_done taken
      apply AsueChange.settles
      · change after.state.waits = false
        rw [state]
        rfl
      · left
        change after.timer.running = asue.timer.running
        rw [timer]
    · rename_i after marks left
      cases stepped
      obtain ⟨state, timer, sent⟩ := waigroupUnicast33_discarded left
      exact ((timerResend_change after).of_same state timer).marks_front sent
  split at stepped
  · cases stepped
    exact waigroupMulticast12_change cfg ok asue frame
  · cases stepped
    exact .quiet rfl rfl rfl

variable (cfg : AsueConfig)

variable (draw : Draw) (supplicant : Supplicant)

theorem waigroupCert23Send_cases : waigroupCert23Send cfg supplicant = .undefined ∨
      (∃ after, waigroupCert23Send cfg supplicant = .discarded after ∧
        after.asue.state = supplicant.asue.state ∧ after.asue.timer = supplicant.asue.timer) ∨
      ∃ after, waigroupCert23Send cfg supplicant = .done after [.sent after.asue.timer.dat] ∧
        after.asue.state = .cntReq ∧ after.asue.timer.t = 1 ∧
        getPacketSubType after.asue.timer.dat = SubType.staAcessRequest.code ∧
        after.asue.timer.running = supplicant.asue.timer.running := by
  unfold waigroupCert23Send
  dsimp only
  split
  · exact .inr (.inl ⟨_, rfl, rfl, rfl⟩)
  · split
    · exact .inl rfl
    · exact .inr (.inr ⟨_, rfl, rfl, rfl, rfl, rfl⟩)

theorem waigroupCert13_cases (frame : Bytes) :
    waigroupCert13 cfg draw supplicant frame = .undefined ∨
      (∃ after, waigroupCert13 cfg draw supplicant frame = .discarded after ∧
        after.asue = supplicant.asue ∧ after.nasue = supplicant.nasue ∧
        after.asueKeyData = supplicant.asueKeyData) ∨
      ∃ parsed, waigroupCert13 cfg draw supplicant frame = waigroupCert23Send cfg parsed ∧
        parsed.asue = supplicant.asue ∧ supplicant.asue.state ≠ .cntReq := by
  generalize equation : waigroupCert13 cfg draw supplicant frame = result
  unfold waigroupCert13 at equation
  dsimp only at equation
  split at equation
  · exact .inr (.inl ⟨_, equation.symm, rfl, rfl, rfl⟩)
  rename_i taken
  have idle : supplicant.asue.state ≠ .cntReq := by
    intro waiting
    apply taken
    right; right; left
    unfold acceptsActive
    rw [waiting]
    cases byteAt (payload frame) 0 &&& 1 != 0 <;> simp
  split at equation
  · exact .inr (.inl ⟨_, equation.symm, rfl, rfl, rfl⟩)
  split at equation
  · exact .inl equation.symm
  split at equation
  · exact .inr (.inl ⟨_, equation.symm, rfl, rfl, rfl⟩)
  split at equation
  · exact .inl equation.symm
  split at equation
  · exact .inr (.inl ⟨_, equation.symm, rfl, rfl, rfl⟩)
  split at equation
  · exact .inl equation.symm
  split at equation
  · exact .inr (.inl ⟨_, equation.symm, rfl, rfl, rfl⟩)
  · exact .inr (.inr ⟨_, equation.symm, rfl, idle⟩)

theorem asueCertauthbkDerivation_timer :
    (asueCertauthbkDerivation cfg supplicant).asue.timer = supplicant.asue.timer := by
  unfold asueCertauthbkDerivation
  split
  · rfl
  · rfl

theorem acceptSigned_cases (memory : Bytes) (len signAt : Nat) :
    acceptSigned cfg supplicant memory len signAt = .undefined ∨
      acceptSigned cfg supplicant memory len signAt = .discarded supplicant ∨
      ∃ after, acceptSigned cfg supplicant memory len signAt = .done after [] ∧
        after.asue.state = .cntResp ∧ after.asue.timer = supplicant.asue.timer := by
  unfold acceptSigned
  dsimp only
  split
  · exact .inl rfl
  split
  · exact .inr (.inl rfl)
  · exact .inr (.inr ⟨_, rfl, rfl, asueCertauthbkDerivation_timer cfg supplicant⟩)

theorem waigroupCert33_cases (memory : Bytes) (len : Nat) :
    waigroupCert33 cfg supplicant memory len = .undefined ∨
      (∃ after, waigroupCert33 cfg supplicant memory len = .discarded after ∧
        after.asue = supplicant.asue ∧ after.nasue = supplicant.nasue ∧
        after.asueKeyData = supplicant.asueKeyData) ∨
      (∃ after, waigroupCert33 cfg supplicant memory len = .refused after) ∨
      ∃ after, waigroupCert33 cfg supplicant memory len = .done after [] ∧
        after.asue.state = .cntResp ∧ after.asue.timer = supplicant.asue.timer := by
  unfold waigroupCert33
  dsimp only
  split
  · exact .inr (.inl ⟨_, rfl, rfl, rfl, rfl⟩)
  split
  · exact .inr (.inr (.inl ⟨_, rfl⟩))
  split
  · exact .inr (.inl ⟨_, rfl, rfl, rfl, rfl⟩)
  split
  · exact .inr (.inl ⟨_, rfl, rfl, rfl, rfl⟩)
  split
  · exact .inr (.inl ⟨_, rfl, rfl, rfl, rfl⟩)
  · exact .inr (.inr (.inl ⟨_, rfl⟩))
  · rcases acceptSigned_cases cfg _ memory len _ with undefined | discarded | ⟨after, done, facts⟩
    · exact .inl undefined
    · exact .inr (.inl ⟨_, discarded, rfl, rfl, rfl⟩)
    · exact .inr (.inr (.inr ⟨after, done, facts⟩))

def Admitted (asue : Asue) (bytes : Bytes) : Prop :=
  ¬ (asue.state = .noAssoc ∨ (asue.psk = false ∧ asue.hasCert = false) ∨
    checkWaiFrame asue bytes = false)

/-- A frame that starts a wait: the access request or the response of a unicast key
negotiation is sent. -/
def StartsWait (cfg : AsueConfig) (supplicant : Supplicant) : AsueInput → AsueState → Prop
  | .tick, _ => False
  | .frame bytes _ draw _, state =>
    Admitted supplicant.asue bytes ∧
      ((state = .cntReq ∧ getPacketSubType bytes = SubType.authactive.code ∧
        ∃ after marks, waigroupCert13 cfg draw supplicant bytes = .done after marks) ∨
      (state = .uniResp ∧ getPacketSubType bytes = SubType.uskNegRequest.code ∧ ∃ after marks,
          waigroupUnicast13 cfg.base draw.nonce supplicant.asue bytes = .done after marks))

theorem AsueChange.mono {other : AsueState → Prop} {after : Asue}
    (weaker : ∀ state, taken state → other state) (change : AsueChange taken before after marks) :
    AsueChange other before after marks := by
  cases change with
  | stays state timer sent => exact .stays state timer sent
  | settles calm running => exact .settles calm running
  | drops state kind often => exact .drops state kind often
  | opens taken waits kind frame sent running =>
    exact .opens (weaker _ taken) waits kind frame sent running

theorem waigroupCert13_change {cfg : AsueConfig} {draw : Draw} {supplicant : Supplicant}
    {bytes : Bytes} :
    match waigroupCert13 cfg draw supplicant bytes with
    | .undefined => True
    | .refused _ => False
    | .discarded after => after.asue.state = supplicant.asue.state ∧
        after.asue.timer = supplicant.asue.timer
    | .done after marks => after.asue.state = .cntReq ∧ after.asue.timer.t = 1 ∧
        getPacketSubType after.asue.timer.dat = SubType.staAcessRequest.code ∧
        sentFrames marks = [after.asue.timer.dat] ∧
        after.asue.timer.running = supplicant.asue.timer.running := by
  rcases waigroupCert13_cases cfg draw supplicant bytes with
    undefined | ⟨left, discarded, same, -, -⟩ | ⟨parsed, sends, same, -⟩
  · simp [undefined]
  · simp [discarded, same]
  · rw [sends]
    rcases waigroupCert23Send_cases cfg parsed with
      undefined | ⟨left, discarded, state, timer⟩ | ⟨opened, done, state, kind, frame, running⟩
    · simp [undefined]
    · simp [discarded, state, timer, same]
    · simp only [done]
      exact ⟨state, kind, frame, rfl, by rw [running, same]⟩

theorem asueStep_change {cfg : AsueConfig} {run after : AsueRun} {input : AsueInput}
    (stepped : asueStep cfg run input = some after) :
    ∃ marks, after.marks = run.marks ++ marks ∧
      AsueChange (StartsWait cfg run.supplicant input) run.supplicant.asue after.supplicant.asue
        marks := by
  cases input with
  | tick =>
    cases stepped
    exact ⟨_, rfl, timerRun_change _⟩
  | frame bytes behind draw ok =>
    obtain ⟨⟨supplicant, marks⟩, handled, rfl⟩ := map_eq_some_iff.mp stepped
    refine ⟨marks, rfl, ?_⟩
    change AsueChange _ run.supplicant.asue supplicant.asue marks
    unfold smRxWai at handled
    dsimp only at handled
    split at handled
    · cases handled
      exact .quiet rfl rfl rfl
    rename_i admitted
    split at handled
    · rename_i active
      have change := @waigroupCert13_change cfg draw run.supplicant bytes
      split at handled
      · contradiction
      · contradiction
      · rename_i opened marks taken
        cases handled
        rw [taken] at change
        obtain ⟨state, kind, frame, sent, running⟩ := change
        exact .opens ⟨admitted, .inl ⟨state, active, _, _, taken⟩⟩ (by rw [state]; rfl)
          (by rw [state, kind]; rfl) (by rw [state, frame]; rfl) sent running
      · rename_i left discarded
        cases handled
        rw [discarded] at change
        exact .quiet change.1 change.2 rfl
    split at handled
    · rcases waigroupCert33_cases cfg run.supplicant (payload bytes ++ behind)
          (payload bytes).length with
        undefined | ⟨left, discarded, same, -, -⟩ | ⟨left, refused⟩ | ⟨settled, done, state, timer⟩
      · simp [undefined] at handled
      · simp only [discarded] at handled
        cases handled
        exact (timerResend_change left.asue).of_same (by rw [same]) (by rw [same])
      · simp only [refused] at handled
        cases handled
        exact wlanDeauthForOtherc_change _ _ _
      · simp only [done] at handled
        cases handled
        apply AsueChange.settles
        · change settled.asue.state.waits = false
          rw [state]
          rfl
        · left
          change settled.asue.timer.running = run.supplicant.asue.timer.running
          rw [timer]
    · obtain ⟨result, received, lifted⟩ := map_eq_some_iff.mp handled
      cases lifted
      exact (iwnWapiSmRxWai_change received).mono fun _ taken => ⟨admitted, .inr taken⟩

def FindsTimer (cfg : AsueConfig) (run : AsueRun) (input : AsueInput) : Prop :=
  ∀ state, StartsWait cfg run.supplicant input state → run.supplicant.asue.timer.running = true

theorem pending_step {cfg : AsueConfig} {run after : AsueRun} {input : AsueInput}
    (stepped : asueStep cfg run input = some after)
    (pending : run.supplicant.asue.state.waits = true → Pending run.supplicant.asue run.marks)
    (waits : after.supplicant.asue.state.waits = true) :
    Pending after.supplicant.asue after.marks := by
  obtain ⟨marks, grown, change⟩ := asueStep_change stepped
  cases change with
  | stays state timer sent =>
    rw [state] at waits
    obtain ⟨kind, frame, last⟩ := pending waits
    refine ⟨?_, ?_, ?_⟩
    · rw [timer.t, state, kind]
    · rw [timer.dat, state, frame]
    · rw [grown, sentFrames_append, timer.dat]
      rcases sent with none | again
      · rw [none, append_nil, last]
      · rw [again, getLast?_concat]
  | settles calm => simp [calm] at waits
  | drops state kind often =>
    rw [state] at waits
    exact absurd ((pending waits).kind.symm.trans kind) (AsueState.timerKind_ne_three _)
  | opens taken waits kind frame sent running =>
    refine ⟨kind, frame, ?_⟩
    rw [grown, sentFrames_append, sent, getLast?_concat]

theorem Guarded.step {cfg : AsueConfig} {run after : AsueRun} {input : AsueInput}
    (finds : FindsTimer cfg run input) (stepped : asueStep cfg run input = some after)
    (guarded : Guarded run) : Guarded after := by
  intro waits
  have pending := pending_step stepped (fun waits => (guarded waits).2) waits
  refine ⟨?_, pending⟩
  obtain ⟨marks, grown, change⟩ := asueStep_change stepped
  cases change with
  | stays state timer sent =>
    rw [state] at waits
    rw [timer.running, (guarded waits).1]
  | settles calm => simp [calm] at waits
  | drops state kind often =>
    rw [state] at waits
    exact absurd ((guarded waits).2.kind.symm.trans kind) (AsueState.timerKind_ne_three _)
  | opens taken waits kind frame sent running => rw [running, finds _ taken]

/-- Every wait has its timer as long as each request that starts one finds a timer. -/
theorem waits_guarded {cfg : AsueConfig} {prior : Supplicant} {bssid ownAddr : Mac}
    {assocIe : Bytes} {run : AsueRun}
    (reached : Reaches (asueStep cfg) (FindsTimer cfg)
      ⟨connAssoc cfg bssid ownAddr assocIe prior, []⟩ run) : Guarded run := by
  have initially : Guarded ⟨connAssoc cfg bssid ownAddr assocIe prior, []⟩ := by
    intro waits
    unfold connAssoc at waits
    dsimp only at waits
    split at waits
    · simp [AsueState.waits] at waits
    · simp [AsueState.waits] at waits
  exact Reaches.invariant (fun _ _ _ finds stepped guarded => guarded.step finds stepped)
    reached initially

section Station

def stationConfig : AsueConfig where
  base := network 0x07
  x509 := noCertificates
  usedCert := 1
  certBin := []
  asueId := ⟨1, []⟩
  asuPubkey := []
  privateKey := []
  pskBk := (network 0x07).pskBk

def freshSupplicant : Supplicant where
  asue :=
    { state := .noAssoc
      psk := true
      hasCert := false
      uskUpdated := false
      bk := zeros 16
      bkid := zeros 16
      uskid := 1
      usk _ := ⟨zeros 16, zeros 16, zeros 16, zeros 16, zeros 32, zeros 32⟩
      mskid := 1
      msk := List.replicate 32 0
      mskAnnId := initIv
      bssid := zeros 6
      ownAddr := zeros 6
      assocWapiIe := stationWie
      apWapiIe := []
      rxseq := 0
      txseq := 0
      timer := ⟨0, [], 0, 0, false⟩ }
  flag := 0
  aeAuthFlag := zeros 32
  nasue := zeros 32
  nae := zeros 32
  aeCert := ⟨0, 0, List.replicate 2048 0⟩
  aeId := ⟨0, []⟩
  ecdh := ⟨0, []⟩
  asueEck := []
  asueKeyData := []
  aeKeyData := ⟨0, List.replicate 256 0⟩

def stationStart : AsueRun :=
  ⟨connAssoc stationConfig (network 0x07).macaddr (stationMac 1) stationWie freshSupplicant, []⟩

def receives (bytes : Bytes) : AsueInput :=
  .frame bytes [] ⟨challenge 0x62, Vector.replicate 24 0, Vector.replicate 49 0⟩ true

def Asue.addid (asue : Asue) : Bytes := asue.bssid.toList ++ asue.ownAddr.toList

def asksUsk (flag uskid : UInt8) (aeChallenge : Asue → Vector UInt8 32) (run : AsueRun) :
    AsueInput :=
  let asue := run.supplicant.asue
  receives (buildFrame .uskNegRequest 1
    ([flag] ++ asue.bkid.toList ++ [uskid] ++ asue.addid ++ (aeChallenge asue).toList))

def confirmsUsk (run : AsueRun) : AsueInput :=
  let asue := run.supplicant.asue
  let usk := asue.usk asue.uskid
  let body := [0] ++ asue.bkid.toList ++ [0] ++ asue.addid ++ usk.asueChallenge.toList ++
    asue.apWapiIe
  receives (buildFrame .uskNegConfirm 1 (body ++ stationConfig.base.mic usk.mak body))

def announcesMsk (run : AsueRun) : AsueInput :=
  let asue := run.supplicant.asue
  let body := [0, 0, 0] ++ asue.addid ++ List.replicate 16 0 ++ initIv ++ [16] ++
    List.replicate 16 7
  receives (buildFrame .mskAnnounce 1
    (body ++ stationConfig.base.mic (asue.usk asue.uskid).mak body))

theorem waits_guarded_station : ∃ run,
    Reaches (asueStep stationConfig) (FindsTimer stationConfig) stationStart run ∧
      run.supplicant.asue.state = .uniResp ∧ Guarded run := by
  have ends : (follows (asueStep stationConfig)
      (fun run _ => run.supplicant.asue.timer.running = true) stationStart
      [asksUsk 0 0 fun _ => challenge 0x61]).map (fun run => run.supplicant.asue.state) =
        some .uniResp := by
    decide +kernel
  obtain ⟨run, ends, state⟩ := map_eq_some_iff.mp ends
  have reached : Reaches (asueStep stationConfig) (FindsTimer stationConfig) stationStart run :=
    (reaches_of_follows ends).mono fun _ _ running _ _ => running
  exact ⟨run, reached, state, waits_guarded reached⟩

/-- Twelve ticks after the group key was announced there is no timer any more, and the next
unicast key is negotiated without one. -/
theorem wait_without_timer : ∃ run,
    Reaches (asueStep stationConfig) (fun _ _ => True) stationStart run ∧ ¬ Guarded run := by
  have ends : (follows (asueStep stationConfig) (fun _ _ => True) stationStart
      ([asksUsk 0 0 fun _ => challenge 0x61, confirmsUsk, announcesMsk] ++
        List.replicate 12 (fun _ => .tick) ++
        [asksUsk 0x10 1 fun asue => (asue.usk asue.uskid).aeChallenge])).map
          (fun run => (run.supplicant.asue.state, run.supplicant.asue.timer.running)) =
        some (.uniResp, false) := by
    decide +kernel
  obtain ⟨run, ends, facts⟩ := map_eq_some_iff.mp ends
  simp only [Prod.mk.injEq] at facts
  refine ⟨run, reaches_of_follows ends, fun guarded => ?_⟩
  have running := (guarded (by rw [facts.1]; rfl)).1
  simp [facts.2] at running

end Station

end AthApps.Wapi
