import AthApps.Upnp.Machine

/-!
# Waiting events and expiring subscriptions

What one call into the module keeps of the list of subscriptions and of the
wake-ups for queued events, and what follows for every run of the device.

A queued event can be left without a wake-up in two ways: the handler of the
timeout gives up the event before it without asking for more to be sent, and
the loop over all subscriptions ends early if it removes the head.
-/

set_option autoImplicit false

namespace AthApps.Upnp

open AthApps.Lib Option

namespace Device

def inTime (d : Device) : Call → Bool
  | .request _ (some (.subscribe r)) => d.clock ≤ r.now
  | .request _ (some (.renew now _)) => d.clock ≤ now
  | _ => true

/-- The sender is woken for what is left in the queues. -/
def heeds (d : Device) : Call → Bool
  | .sendAll _ => d.heedsAll
  | .event i occurrence =>
    match d.subscription i with
    | none => true
    | some s => (d.outbox s).heeded occurrence
  | _ => true

section Steps

variable {d after : Device} {steady : Prop} {subs : List Nat}

def drops (d : Device) : Option Request → Bool
  | some (.action _ memory) => d.dropsLast memory
  | _ => false

theorem Subs.checkData {c : Nat} {request : Option Request} (sound : d.Subs steady subs)
    (inTime : steady → d.inTime (.request c request) = true) (registers : Bool) :
    (d.drops request = true ∧ d.webConnectionCheckData request registers = none) ∨
    (d.drops request = false ∧
      ∃ after left, d.webConnectionCheckData request registers = some after ∧
        after.Subs steady left ∧ d.Frame after ∧ (registers = true → d.Awake → after.Awake)) := by
  cases request with
  | none => exact Or.inr ⟨rfl, d, subs, rfl, sound, .refl d, fun _ => id⟩
  | some asked =>
    cases asked with
    | other => exact Or.inr ⟨rfl, d, subs, rfl, sound, .refl d, fun _ => id⟩
    | subscribe r =>
      exact Or.inr ⟨rfl, sound.start (fun steadily => of_decide_eq_true (inTime steadily))
        registers⟩
    | renew now uuid =>
      obtain ⟨after, left, done, sound', frame, awake⟩ :=
        sound.renew (fun steadily => of_decide_eq_true (inTime steadily)) uuid
      exact Or.inr ⟨rfl, after, left, done, sound', frame, fun _ => awake⟩
    | unsubscribe uuid =>
      obtain ⟨after, left, done, sound', frame, awake⟩ := sound.unsubscribe uuid
      exact Or.inr ⟨rfl, after, left, done, sound', frame, fun _ => awake⟩
    | action data memory => exact sound.sendVar data memory registers

theorem Kempt.request {c : Nat} {request : Option Request} {registers : Bool}
    (kempt : d.Kempt steady subs) (inTime : steady → d.inTime (.request c request) = true)
    (steps : d.webConnectionGotFileHandler c request registers = some after) :
    (∃ left, after.Kempt steady left) ∧ (registers = true → d.Awake → after.Awake) := by
  obtain ⟨middle, first, stops⟩ := bind_eq_some_iff.mp steps
  have less := webConnectionStop_less stops
  rcases kempt.subs.checkData inTime registers with
    ⟨-, lost⟩ | ⟨-, checked, left, done, sound, frame, awake⟩
  · cases lost.symm.trans first
  · cases first.symm.trans done
    exact ⟨⟨left, (kempt.frame sound frame).less less⟩,
      fun works before => (awake works before).aside less.aside⟩

theorem Kempt.eventCall {i : Nat} {occurrence : Occurrence} {registers : Bool}
    (kempt : d.Kempt steady subs)
    (steps : d.step (.event i occurrence, registers) = some after) :
    (∃ left, after.Kempt steady left) ∧
      (registers = true → d.heeds (.event i occurrence) = true → d.Awake → after.Awake) := by
  obtain ⟨s, here, done⟩ : ∃ s, d.subscription i = some s ∧
      d.eventCall i occurrence registers = some after := by
    cases here : d.subscription i with
    | none => cases occurrence <;> simp [Device.step, Device.eventCall, here] at steps
    | some s => cases occurrence <;> first | exact ⟨s, rfl, steps⟩ | cases steps
  obtain ⟨callback, calls⟩ : ∃ callback, (d.outbox s).calls occurrence = some callback := by
    cases occurrence with
    | add data memory => cases steps
    | wake outcome => cases steps
    | txReady e outcome => exact ⟨_, rfl⟩
    | timeout e => exact ⟨_, rfl⟩
    | response e response => exact ⟨_, rfl⟩
  have member : callback ∈ d.eloop := by
    rw [Device.eventCall] at done
    simp only [here, bind_eq_bind, bind_some] at done
    obtain ⟨result, occurs, -⟩ := bind_eq_some_iff.mp done
    exact Outbox.occurs_registered calls occurs
  obtain ⟨reached, left, same, sound, frame, awake⟩ := kempt.subs.event here calls member registers
  cases done.symm.trans same
  refine ⟨⟨left, kempt.frame sound frame⟩, ?_⟩
  intro works heeds before
  refine awake works ?_ before
  simpa [Device.heeds, here] using heeds

theorem Kempt.step {call : Call} {registers : Bool} (kempt : d.Kempt steady subs)
    (inTime : steady → d.inTime call = true) (steps : d.step (call, registers) = some after) :
    (∃ left, after.Kempt steady left) ∧
      (registers = true → d.heeds call = true → d.Awake → after.Awake) := by
  cases call with
  | start outcome =>
    obtain ⟨final, awake⟩ := kempt.start steps
    exact ⟨final, fun _ _ => awake⟩
  | stop =>
    obtain ⟨-, final, awake⟩ := kempt.stop steps
    exact ⟨final, fun _ _ => awake⟩
  | readvertise =>
    cases steps
    obtain ⟨final, aside⟩ := kempt.advertise registers
    exact ⟨⟨subs, final⟩, fun _ _ awake => awake.aside aside⟩
  | advertise =>
    simp only [Device.step] at steps
    split at steps
    · cases steps
      have less := fires_less d outside_advertisement
      have unused : .advertisement ∉ (d.fires .advertisement).eloop :=
        fun again => absurd rfl (kempt.subs.nodup.mem_erase_iff.mp again).1
      split
      · have registered := registers_advertisement unused
        exact ⟨⟨subs, (kempt.less less).register registered⟩,
          fun _ _ awake => (awake.aside less.aside).aside registered.aside⟩
      · exact ⟨⟨subs, kempt.less less⟩, fun _ _ awake => awake.aside less.aside⟩
    · cases steps
  | accept memory hread =>
    simp only [Device.step] at steps
    split at steps
    · obtain ⟨final, awake⟩ := kempt.webStart steps
      exact ⟨⟨subs, final⟩, fun _ _ => awake⟩
    · cases steps
  | request c request =>
    simp only [Device.step] at steps
    split at steps
    · obtain ⟨final, awake⟩ := kempt.request inTime steps
      exact ⟨final, fun works _ => awake works⟩
    · cases steps
  | msearch memory =>
    simp only [Device.step] at steps
    split at steps
    · obtain ⟨final, awake⟩ := kempt.msearchStart steps
      exact ⟨⟨subs, final⟩, fun _ _ => awake⟩
    · cases steps
  | msearchTimeout a memory =>
    simp only [Device.step] at steps
    split at steps
    next member =>
      obtain ⟨final, awake⟩ := kempt.msearchHandler member steps
      exact ⟨⟨subs, final⟩, fun _ _ => awake⟩
    next => cases steps
  | sendVar data memory =>
    rcases kempt.subs.sendVar data memory registers with
      ⟨-, lost⟩ | ⟨-, reached, left, sent, sound, frame, awake⟩
    · cases lost.symm.trans steps
    · cases steps.symm.trans sent
      exact ⟨⟨left, kempt.frame sound frame⟩, fun works _ => awake works⟩
  | sendAll outcome =>
    simp only [Device.step] at steps
    split at steps
    · obtain ⟨reached, left, sent, sound, frame, awake⟩ :=
        kempt.subs.sendAllHandler outcome registers
      cases steps.symm.trans sent
      exact ⟨⟨left, kempt.frame sound frame⟩, awake⟩
    · cases steps
  | event i occurrence => exact kempt.eventCall steps

theorem kempt_init (steady : Prop) : Device.init.Kempt steady [] := by
  refine ⟨⟨Ring.holds_empty, rfl, by decide, by simp [Device.init], by simp, by simp [Device.init],
    fun _ => List.Pairwise.nil, by simp [Device.init], by simp [Device.init], List.nodup_nil,
    by simp [Device.init]⟩, by simp [Device.init], by simp [Device.init], by simp [Device.init]⟩

theorem kempt_of_reaches {d : Device} (reached : Reaches step (fun _ _ => True) Device.init d) :
    ∃ subs, d.Kempt False subs := by
  refine @Reaches.invariant _ _ _ _ (fun d => ∃ subs, d.Kempt False subs) _ _ ?_ reached
    ⟨[], kempt_init False⟩
  rintro before ⟨call, registers⟩ after _ steps ⟨subs, kempt⟩
  exact (kempt.step False.elim steps).1

theorem awake_init : Device.init.Awake := ⟨by simp [Device.init], by simp [Device.init]⟩

end Steps

/-- The subscriptions are listed once each in order of expiry, so looking at the head is enough to
remove all that have expired and to make room. -/
structure Orderly (d : Device) (subs : List Nat) : Prop where
  held : d.subscriptions.Holds subs
  count : d.nSubscriptions = subs.length
  few : d.nSubscriptions ≤ maxSubscriptions
  live : ∀ i, d.subscription i ≠ none ↔ i ∈ subs
  sorted : subs.Pairwise d.NotLater
  ages : ∀ now, ∃ after, d.subscriptionListAge now = some after ∧
    ∀ i s, after.subscription i = some s → now ≤ s.timeoutTime
  discards : maxSubscriptions ≤ d.nSubscriptions →
    ∃ first, first ∈ subs ∧ d.subscriptionMakeRoom = d.subscriptionRemove first ∧
      ∀ i ∈ subs, d.NotLater first i

theorem Subs.discards {d : Device} {subs : List Nat} (sound : d.Subs True subs)
    (full : maxSubscriptions ≤ d.nSubscriptions) :
    ∃ first, first ∈ subs ∧ d.subscriptionMakeRoom = d.subscriptionRemove first ∧
      ∀ i ∈ subs, d.NotLater first i := by
  cases subs with
  | nil =>
    rw [sound.count] at full
    exact absurd full (by decide)
  | cons first rest =>
    have head : d.subscriptions.head = some first := sound.held.head
    refine ⟨first, by simp, ?_, ?_⟩
    · rw [subscriptionMakeRoom, if_pos full, head]
      rfl
    · intro i member s t here known
      exact sound.head_first True.intro here i member t known

/-- As long as the clock does not go back. -/
theorem subscriptions_in_order {d : Device}
    (reached : Reaches step (fun d input => d.inTime input.1 = true) Device.init d) :
    ∃ subs, d.Orderly subs := by
  have kept : ∃ subs, d.Kempt True subs := by
    refine @Reaches.invariant _ _ _ _ (fun d => ∃ subs, d.Kempt True subs) _ _ ?_ reached
      ⟨[], kempt_init True⟩
    rintro before ⟨call, registers⟩ after inTime steps ⟨subs, kempt⟩
    exact (kempt.step (fun _ => inTime) steps).1
  obtain ⟨subs, sound, -⟩ := kept
  refine ⟨subs, sound.held, sound.count, ?_, sound.live, sound.sorted True.intro, ?_,
    sound.discards⟩
  · rw [sound.count]
    exact sound.few
  · intro now
    obtain ⟨after, left, aged, -, -, -, fresh⟩ := sound.listAge now
    exact ⟨after, aged, fresh True.intro⟩

def renewal : List (Device → Call × Bool) :=
  [fun _ => (.start .fine, true),
    fun _ => (.accept true true, true),
    fun _ => (.request 0 (some (.subscribe ⟨5, true, [1], 1, [7], true⟩)), true),
    fun _ => (.accept true true, true),
    fun _ => (.request 2 (some (.subscribe ⟨6, true, [2], 1, [7], true⟩)), true),
    fun _ => (.accept true true, true),
    fun _ => (.request 4 (some (.renew 9 [1])), true)]

theorem subscriptions_in_order_renewal :
    ∃ d, Reaches step (fun d input => d.inTime input.1 = true) Device.init d ∧
      d.subscriptions.reads 2 = [3, 1] ∧ ∃ subs, d.Orderly subs := by
  have runs : (follows step (fun d input => d.inTime input.1 = true) Device.init renewal).map
      (fun d => d.subscriptions.reads 2) = some [3, 1] := by decide
  obtain ⟨d, ends, shows⟩ := map_eq_some_iff.mp runs
  have reached := reaches_of_follows ends
  exact ⟨d, reached, shows, subscriptions_in_order reached⟩

def WokenUp (d : Device) : Prop :=
  ∀ i s, d.subscription i = some s → s.nAddr ≠ 0 →
    (s.currentEvent = none → s.eventQueue.head ≠ none →
      d.eventSendAllQueued = true ∧ .sendAllLater ∈ d.eloop) ∧
    ∀ e, s.currentEvent = some e → .eventTimeout i e ∈ d.eloop ∧
      (.eventTxReady i e ∈ d.eloop ∨ .eventResponse i e ∈ d.eloop)

theorem Awake.wokenUp {d : Device} {subs : List Nat} {steady : Prop} (awake : d.Awake)
    (sound : d.Subs steady subs) : d.WokenUp := by
  intro i s here addresses
  obtain ⟨-, waits, timed⟩ := awake.each i s here
  obtain ⟨rfl, -⟩ := sound.each i s here
  refine ⟨?_, timed⟩
  intro idle more
  have queued : d.eventSendAllQueued = true := waits addresses idle (isSome_iff_ne_none.mpr more)
  exact ⟨queued, awake.flagged queued⟩

/-- As long as no event is given up in the handler of its timeout while others wait, and the sender
does not remove the head before others that wait. -/
theorem waiting_events_woken {d : Device}
    (reached : Reaches step (fun d input => input.2 = true ∧ d.heeds input.1 = true)
      Device.init d) : d.WokenUp := by
  have kept : (∃ subs, d.Kempt False subs) ∧ d.Awake := by
    refine @Reaches.invariant _ _ _ _ (fun d => (∃ subs, d.Kempt False subs) ∧ d.Awake) _ _ ?_
      reached ⟨⟨[], kempt_init False⟩, awake_init⟩
    rintro before ⟨call, registers⟩ after ⟨works, heeds⟩ steps ⟨⟨subs, kempt⟩, awake⟩
    obtain ⟨final, wakes⟩ := kempt.step False.elim steps
    exact ⟨final, wakes works heeds awake⟩
  obtain ⟨⟨subs, kempt⟩, awake⟩ := kept
  exact awake.wokenUp kempt.subs

/-- The first event is being sent to the only address of the subscriber, and another waits. -/
def twoWaiting : List (Device → Call × Bool) :=
  [fun _ => (.start .fine, true),
    fun _ => (.accept true true, true),
    fun _ => (.request 0 (some (.subscribe ⟨5, true, [1], 1, [7], true⟩)), true),
    fun _ => (.sendAll fun _ => .started, true),
    fun _ => (.sendVar [8] fun _ => true, true),
    fun _ => (.sendAll fun _ => .started, true)]

theorem waiting_events_woken_two :
    ∃ d, Reaches step (fun d input => input.2 = true ∧ d.heeds input.1 = true) Device.init d ∧
      (d.subscription 1).map (fun s => s.currentEvent) = some (some 0) ∧ d.WokenUp := by
  have runs : (follows step (fun d input => input.2 = true ∧ d.heeds input.1 = true) Device.init
      twoWaiting).map (fun d => (d.subscription 1).map fun s => s.currentEvent) =
        some (some (some 0)) := by decide
  obtain ⟨d, ends, shows⟩ := map_eq_some_iff.mp runs
  have reached := reaches_of_follows ends
  exact ⟨d, reached, shows, waiting_events_woken reached⟩

/-- The first event times out and is given up; the other has no wake-up. -/
theorem timeout_forgets_waiting :
    ¬ ∀ d, Reaches step (fun _ input => input.2 = true) Device.init d → d.WokenUp := by
  intro always
  have runs : (follows step (fun _ input => input.2 = true) Device.init
      (twoWaiting ++ [fun _ => (.event 1 (.timeout 0), true)])).map (fun d =>
        ((d.subscription 1).map (fun s => (s.nAddr, s.currentEvent, s.eventQueue.head)),
          d.eventSendAllQueued)) = some (some (1, none, some 1), false) := by decide
  obtain ⟨d, ends, shows⟩ := map_eq_some_iff.mp runs
  obtain ⟨subscribed, quiet⟩ := Prod.mk.inj shows
  obtain ⟨s, here, fields⟩ := map_eq_some_iff.mp subscribed
  simp only [Prod.mk.injEq] at fields
  obtain ⟨addresses, idle, more⟩ := fields
  obtain ⟨waits, -⟩ := always d (reaches_of_follows ends) 1 s here (by simp [addresses])
  obtain ⟨queued, -⟩ := waits idle (by simp [more])
  rw [quiet] at queued
  cases queued

end Device

end AthApps.Upnp
