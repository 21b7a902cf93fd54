import AthApps.Upnp.Order
import AthApps.Upnp.Subscriptions

/-!
# Sending to the subscribers

The calls of the event loop for the event of one subscription, and the two
loops over all subscriptions.  The loops go on until they meet the head of the
list, so removing the head ends them early.
-/

set_option autoImplicit false

namespace AthApps.Upnp

open AthApps.Lib List Option

namespace Device

variable {d : Device} {steady : Prop} {subs : List Nat}

variable {after : Device} {i : Nat}

theorem Subs.event {s : Subscription} {occurrence : Occurrence} {callback : Callback}
    (sound : d.Subs steady subs) (here : d.subscription i = some s)
    (calls : (d.outbox s).calls occurrence = some callback) (member : callback ∈ d.eloop)
    (registers : Bool) :
    ∃ after left, d.eventCall i occurrence registers = some after ∧ after.Subs steady left ∧
      d.Frame after ∧
      (registers = true → (d.outbox s).heeded occurrence = true → d.Awake → after.Awake) := by
  obtain ⟨name, q, good⟩ := sound.each i s here
  obtain ⟨t, gone, left, done, does, awake⟩ := @Outbox.Sound.handles _ q registers (fun _ => True)
    occurrence callback good calls member fun _ => True.intro
  obtain ⟨sound', frame, apart⟩ := sound.setOutbox here does.same does.sound
  have id : t.s.id = i := does.same.id.trans name
  rw [eventCall, here]
  simp only [bind_eq_bind, bind_some, done]
  cases gone with
  | true =>
    obtain ⟨pre, post, rfl⟩ := append_of_mem (sound.mem here)
    obtain ⟨after, removed, sound'', kept⟩ := sound'.remove_kept
    refine ⟨after, pre ++ post, removed, sound'', frame.trans kept.frame, ?_⟩
    intro works _ before
    have out : i ∉ pre ++ post := by
      have nodup := sound.held.nodup
      rw [nodup_middle] at nodup
      exact (nodup_cons.mp nodup).1
    have flagged := does.flagged works before.flagged
    refine awake_kept sound' sound'' kept flagged ?_
    intro j u inside known
    have other : j ≠ i := by
      rintro rfl
      exact out inside
    rw [apart.others j other] at known
    apply @awake_elsewhere d (d.setOutbox t) u (before.each j u known) flagged apart.flag
    intro callback e about
    rw [(sound.each j u known).1] at about
    exact apart.events callback j e other about
  | false =>
    refine ⟨_, subs, rfl, sound', frame, ?_⟩
    intro works heeded before
    have awake' := awake rfl works heeded (before.each i s here)
    refine awake_apart sound (fun j u _ => before.each j u) apart ?_ awake'.flagged
    intro u known
    obtain rfl := setOutbox_inj id known
    exact awake'

theorem Subs.sendVarTo {pre post : List Nat} {i : Nat} (sound : d.Subs steady (pre ++ i :: post))
    (data : Bytes) (memory registers : Bool) :
    ∃ after, d.sendVarTo data memory registers i = some after ∧ d.Frame after ∧
      ((after.Subs steady (pre ++ i :: post) ∧
          ∀ s, d.subscription i = some s → ¬ maxEventsQueued ≤ s.nQueue ∧ memory = true) ∨
        (after.Subs steady (pre ++ post) ∧
          ∀ s, d.subscription i = some s → maxEventsQueued ≤ s.nQueue ∨ memory = false)) ∧
      (registers = true → d.Awake → after.Awake) := by
  obtain ⟨s, here, name, q, good⟩ := sound.find (i := i) (by simp)
  obtain ⟨t, failed, left, added, does, drops, unchanged, queued, timed⟩ :=
    @Outbox.Sound.eventAdd _ q registers (fun _ => True) good data memory
  obtain ⟨sound', frame, apart⟩ := sound.setOutbox here does.same does.sound
  have id : t.s.id = i := does.same.id.trans name
  have awake' : registers = true → d.Awake → (d.setOutbox t).Awake := by
    intro works before
    have flagged := does.flagged works before.flagged
    refine awake_apart sound (fun j u _ => before.each j u) apart ?_ flagged
    intro u known
    obtain rfl := setOutbox_inj id known
    refine ⟨flagged, ?_, timed (before.each i s here).timed⟩
    intro addresses idle more
    cases failed with
    | true =>
      obtain rfl := unchanged rfl
      exact (before.each i s here).waits addresses idle more
    | false => exact queued rfl
  rw [Device.sendVarTo, here]
  simp only [bind_eq_bind, bind_some, added]
  cases failed with
  | true =>
    obtain ⟨after, removed, sound'', kept⟩ := sound'.remove_kept
    refine ⟨after, removed, frame.trans kept.frame, Or.inr ⟨sound'', ?_⟩,
      fun works before => (awake' works before).kept sound' sound'' kept⟩
    intro u known
    cases known
    exact drops.mp rfl
  | false =>
    refine ⟨_, rfl, frame, Or.inl ⟨sound', ?_⟩, awake'⟩
    intro u known
    cases known
    have fits : ¬ (maxEventsQueued ≤ s.nQueue ∨ memory = false) := fun full => by
      cases drops.mpr full
    exact ⟨fun full => fits (Or.inl full), by simpa using fun lost => fits (Or.inr lost)⟩

def dropsLast (d : Device) (memory : Nat → Bool) : Bool :=
  match d.subscriptions.head with
  | none => false
  | some i =>
    d.nSubscriptions = 1 &&
      match d.subscription i with
      | none => false
      | some s => decide (maxEventsQueued ≤ s.nQueue) || !memory i

theorem Subs.sendVarLoop {pre post : List Nat} {i fuel : Nat} {data : Bytes}
    {memory : Nat → Bool} {registers : Bool} (sound : d.Subs steady (pre ++ i :: post))
    (enough : post.length < fuel) (others : pre ++ post ≠ []) :
    ∃ after left, Device.sendVarLoop data memory registers fuel i d = some after ∧
      after.Subs steady left ∧ d.Frame after ∧ (registers = true → d.Awake → after.Awake) := by
  induction post generalizing d pre i fuel with
  | nil =>
    obtain ⟨fuel, rfl⟩ : ∃ k, fuel = k + 1 := ⟨fuel - 1, by omega⟩
    obtain ⟨first, rest, rfl⟩ : ∃ first rest, pre = first :: rest := by
      cases pre with
      | nil => exact absurd rfl others
      | cons first rest => exact ⟨first, rest, rfl⟩
    have next : d.subscriptions.next i = some first := by
      rw [sound.held.next_last, sound.held.head]
      rfl
    obtain ⟨after, sent, frame, kept, awake⟩ := sound.sendVarTo data (memory i) registers
    obtain ⟨left, sound', head⟩ : ∃ left, after.Subs steady left ∧
        after.subscriptions.head = some first := by
      rcases kept with ⟨sound', -⟩ | ⟨sound', -⟩
      · exact ⟨_, sound', sound'.held.head⟩
      · exact ⟨_, sound', sound'.held.head⟩
    refine ⟨after, left, ?_, sound', frame, awake⟩
    rw [Device.sendVarLoop]
    simp only [bind_eq_bind, next, bind_some, sent, head, if_true]
  | cons k post ih =>
    obtain ⟨fuel, rfl⟩ : ∃ k, fuel = k + 1 := ⟨fuel - 1, by omega⟩
    have next : d.subscriptions.next i = some k := sound.held.next_inner
    obtain ⟨after, sent, frame, kept, awake⟩ := sound.sendVarTo data (memory i) registers
    rw [Device.sendVarLoop]
    simp only [bind_eq_bind, next, bind_some, sent]
    split
    next met =>
      rcases kept with ⟨sound', -⟩ | ⟨sound', -⟩
      · exact ⟨after, _, rfl, sound', frame, awake⟩
      · exact ⟨after, _, rfl, sound', frame, awake⟩
    next further =>
      rcases kept with ⟨sound', -⟩ | ⟨sound', -⟩
      · have shifted : after.Subs steady ((pre ++ [i]) ++ k :: post) := by simpa using sound'
        obtain ⟨final, left, done, sound'', frame', awake'⟩ :=
          ih shifted (by simpa using enough) (by simp)
        exact ⟨final, left, done, sound'', frame.trans frame',
          fun works before => awake' works (awake works before)⟩
      · have fewer : pre ++ post ≠ [] := by
          intro empty
          apply further
          obtain ⟨rfl, rfl⟩ := append_eq_nil_iff.mp empty
          exact sound'.held.head
        obtain ⟨final, left, done, sound'', frame', awake'⟩ :=
          ih sound' (by simpa using enough) fewer
        exact ⟨final, left, done, sound'', frame.trans frame',
          fun works before => awake' works (awake works before)⟩

theorem dropsLast_single {i : Nat} {s : Subscription} {memory : Nat → Bool}
    (sound : d.Subs steady [i]) (here : d.subscription i = some s) :
    d.dropsLast memory = true ↔ maxEventsQueued ≤ s.nQueue ∨ memory i = false := by
  have head : d.subscriptions.head = some i := sound.held.head
  have one : d.nSubscriptions = 1 := sound.count
  simp [dropsLast, head, one, here]

theorem Subs.sendVar (sound : d.Subs steady subs) (data : Bytes) (memory : Nat → Bool)
    (registers : Bool) :
    (d.dropsLast memory = true ∧ d.upnpWpsDeviceSendVar data memory registers = none) ∨
    (d.dropsLast memory = false ∧
      ∃ after left, d.upnpWpsDeviceSendVar data memory registers = some after ∧
        after.Subs steady left ∧ d.Frame after ∧ (registers = true → d.Awake → after.Awake)) := by
  have fuel : d.nSubscriptions.toNat = subs.length := by
    rw [sound.count]
    exact Int.toNat_natCast _
  match subs, sound, fuel with
  | [], sound, _ =>
    have head : d.subscriptions.head = none := sound.held.head
    refine Or.inr ⟨by simp [dropsLast, head], d, [], ?_, sound, .refl d, fun _ => id⟩
    rw [upnpWpsDeviceSendVar, head]
  | [i], sound, fuel =>
    have head : d.subscriptions.head = some i := sound.held.head
    have next : d.subscriptions.next i = some i := by
      have last : d.subscriptions.next i = d.subscriptions.head := @Ring.Holds.next_last _ _ [] i
        sound.held
      rw [last, head]
    obtain ⟨s, here, -⟩ := sound.find (i := i) (by simp)
    have drops := @dropsLast_single d steady i s memory sound here
    obtain ⟨after, sent, frame, kept, awake⟩ :=
      @Subs.sendVarTo d steady [] [] i sound data (memory i) registers
    have whole : d.upnpWpsDeviceSendVar data memory registers =
        if after.subscriptions.head = some i then some after else none := by
      rw [upnpWpsDeviceSendVar, head]
      dsimp only
      rw [fuel]
      simp [Device.sendVarLoop, next, sent]
    rcases kept with ⟨sound', fits⟩ | ⟨sound', full⟩
    · obtain ⟨room, memory'⟩ := fits s here
      refine Or.inr ⟨?_, after, [i], ?_, sound', frame, awake⟩
      · rw [← Bool.not_eq_true, drops]
        simp [room, memory']
      · have head' : after.subscriptions.head = some i := sound'.held.head
        rw [whole, if_pos head']
    · refine Or.inl ⟨drops.mpr (full s here), ?_⟩
      have head' : after.subscriptions.head = none := sound'.held.head
      rw [whole, if_neg (by simp [head'])]
  | i :: k :: rest, sound, fuel =>
    have head : d.subscriptions.head = some i := sound.held.head
    refine Or.inr ⟨?_, ?_⟩
    · have many : d.nSubscriptions ≠ 1 := by
        rw [sound.count]
        simp
        omega
      simp [dropsLast, head, many]
    · rw [upnpWpsDeviceSendVar, head]
      dsimp only
      rw [fuel]
      exact @Subs.sendVarLoop d steady [] (k :: rest) i _ data memory registers sound (by simp)
        (by simp)

/-- Nothing waits in the queue of the subscription, or something is being sent. -/
def Attended (d : Device) (i : Nat) : Prop :=
  ∀ s, d.subscription i = some s → s.nAddr ≠ 0 → s.currentEvent = none → s.eventQueue.head = none

/-- The flag and the timeouts of the events that are being sent. -/
structure Timely (d : Device) : Prop where
  flagged : d.eventSendAllQueued = true → .sendAllLater ∈ d.eloop
  timed : ∀ i s, d.subscription i = some s → (d.outbox s).Timed

theorem timed_elsewhere {s : Subscription} (timed : (d.outbox s).Timed)
    (events : ∀ (callback : Callback) e, callback.eventOf s.id = some e →
      (callback ∈ after.eloop ↔ callback ∈ d.eloop)) : (after.outbox s).Timed := by
  intro e current
  obtain ⟨timer, sends⟩ := timed e current
  exact ⟨(events _ e (Callback.eventOf_timeout s.id e)).mpr timer,
    sends.imp (events _ e (Callback.eventOf_txReady s.id e)).mpr
      (events _ e (Callback.eventOf_response s.id e)).mpr⟩

theorem Timely.apart (timely : d.Timely) (sound : d.Subs steady subs)
    (apart : d.Apart i after) (here : ∀ s, after.subscription i = some s → (after.outbox s).Timed)
    (flagged : after.eventSendAllQueued = true → .sendAllLater ∈ after.eloop) : after.Timely := by
  refine ⟨flagged, ?_⟩
  intro j s known
  by_cases same : j = i
  · subst same
    exact here s known
  · rw [apart.others j same] at known
    apply timed_elsewhere (timely.timed j s known)
    intro callback e about
    rw [(sound.each j s known).1] at about
    exact apart.events callback j e same about

theorem Attended.apart {i j : Nat} (attended : d.Attended j)
    (apart : d.Apart i after) (other : j ≠ i) : after.Attended j := by
  intro s known
  rw [apart.others j other] at known
  exact attended s known

theorem Subs.sendAllTo {pre post : List Nat} {i : Nat} (sound : d.Subs steady (pre ++ i :: post))
    (outcome : Outbox.SendStart) (registers : Bool) :
    ∃ after failed, d.sendAllTo outcome registers i = some (after, failed) ∧ d.Frame after ∧
      d.Apart i after ∧
      (after.Subs steady (pre ++ i :: post) ∨
        (after.Subs steady (pre ++ post) ∧ ∀ s, d.subscription i = some s → s.nAddr = 0)) ∧
      (registers = true → d.Timely → after.Timely) ∧ (failed = false → after.Attended i) := by
  obtain ⟨s, here, name, q, good⟩ := sound.find (i := i) (by simp)
  rw [Device.sendAllTo, here]
  simp only [bind_eq_bind, bind_some]
  split
  next none =>
    obtain ⟨after, removed, sound', frame, apart, -, flag⟩ := sound.remove
    have gone : after.subscription i = Option.none := by
      by_contra lives
      have inside := (sound'.live i).mp lives
      have nodup := sound.held.nodup
      rw [nodup_middle] at nodup
      exact (nodup_cons.mp nodup).1 inside
    refine ⟨after, false, by rw [removed]; rfl, frame, apart, Or.inr ⟨sound', ?_⟩, ?_, ?_⟩
    · intro u known
      cases known
      exact none
    · intro _ timely
      refine timely.apart sound apart ?_ ?_
      · intro u known
        cases gone.symm.trans known
      · intro queued
        exact apart.timer (timely.flagged (flag ▸ queued))
    · intro _ u known
      cases gone.symm.trans known
  next addresses =>
    obtain ⟨t, failed, left, visited, does, timed, attended⟩ := @Outbox.Sound.visit _ q registers
      (fun _ => True) good addresses outcome (by intros; trivial)
    obtain ⟨sound', frame, apart⟩ := sound.setOutbox here does.same does.sound
    have id : t.s.id = i := does.same.id.trans name
    refine ⟨_, failed, by rw [visited]; rfl, frame, apart, Or.inl sound', ?_, ?_⟩
    · intro works timely
      refine timely.apart sound apart ?_ (does.flagged works timely.flagged)
      intro u known
      obtain rfl := setOutbox_inj id known
      exact timed (timely.timed i s here)
    · intro fine u known _ idle
      obtain rfl := setOutbox_inj id known
      rw [does.sound.queue.head, attended fine idle]
      rfl

def attends (d : Device) (i : Nat) : Bool :=
  match d.subscription i with
  | none => true
  | some s => s.nAddr = 0 || s.currentEvent.isSome || s.eventQueue.head.isNone

theorem attended_of_attends (attends : d.attends i = true) : d.Attended i := by
  intro s here addresses idle
  simpa [Device.attends, here, addresses, idle] using attends

/-- The handler meets every subscription that waits: it stops early where it removes the head. -/
def heedsAll (d : Device) : Bool :=
  match d.subscriptions.head with
  | none => true
  | some i =>
    match d.subscription i with
    | none => true
    | some s =>
      s.nAddr ≠ 0 ||
        (d.subscriptions.reads d.nSubscriptions.toNat).all fun j => j = i || d.attends j

theorem Subs.sendAllLoop {pre post : List Nat} {i fuel : Nat} {nerrors : Bool}
    {outcome : Nat → Outbox.SendStart} {registers : Bool} (sound : d.Subs steady (pre ++ i :: post))
    (enough : post.length < fuel) :
    ∃ after failed left, Device.sendAllLoop outcome registers fuel i d nerrors =
        some (after, failed) ∧
      after.Subs steady left ∧ d.Frame after ∧ (registers = true → d.Timely → after.Timely) ∧
      (failed = false → nerrors = false ∧ ((∀ j ∈ pre, d.Attended j) →
        (pre = [] → (∀ s, d.subscription i = some s → s.nAddr = 0) →
          ∀ j ∈ post, d.Attended j) → ∀ j ∈ left, after.Attended j)) := by
  induction post generalizing d pre i fuel nerrors with
  | nil =>
    obtain ⟨fuel, rfl⟩ : ∃ k, fuel = k + 1 := ⟨fuel - 1, by omega⟩
    obtain ⟨first, head⟩ : ∃ first, d.subscriptions.head = some first := by
      rw [sound.held.head]
      cases pre <;> simp
    have next : d.subscriptions.next i = some first := by rw [sound.held.next_last, head]
    obtain ⟨after, failed, sent, frame, apart, kept, timely, attended⟩ :=
      sound.sendAllTo (outcome i) registers
    have ends : after.subscriptions.head = none ∨ after.subscriptions.head = some first := by
      rw [sound.held.head] at head
      rcases kept with sound' | ⟨sound', -⟩
      · exact Or.inr (sound'.held.head.trans head)
      · rw [sound'.held.head]
        cases pre with
        | nil => exact Or.inl rfl
        | cons a pre => exact Or.inr (by simpa using head)
    obtain ⟨left, sound', inside⟩ : ∃ left, after.Subs steady left ∧ ∀ j ∈ left, j = i ∨ j ∈ pre := by
      rcases kept with sound' | ⟨sound', -⟩
      · exact ⟨_, sound', by simp [or_comm]⟩
      · exact ⟨_, sound', fun j member => Or.inr (by simpa using member)⟩
    refine ⟨after, nerrors || failed, left, ?_, sound', frame, timely, ?_⟩
    · rw [Device.sendAllLoop]
      simp only [bind_eq_bind, next, bind_some, sent]
      rw [if_pos ends]
    · intro fine
      obtain ⟨before, here⟩ := Bool.or_eq_false_iff.mp fine
      refine ⟨before, ?_⟩
      intro visited _ j member
      by_cases same : j = i
      · subst same
        exact attended here
      · exact (visited j ((inside j member).resolve_left same)).apart apart same
  | cons k post ih =>
    obtain ⟨fuel, rfl⟩ : ∃ k, fuel = k + 1 := ⟨fuel - 1, by omega⟩
    have nodup := sound.held.nodup
    rw [nodup_middle] at nodup
    have other : ∀ {j : Nat}, j ∈ pre ++ k :: post → j ≠ i := by
      rintro j member rfl
      exact (nodup_cons.mp nodup).1 member
    have next : d.subscriptions.next i = some k := sound.held.next_inner
    obtain ⟨after, failed, sent, frame, apart, kept, timely, attended⟩ :=
      sound.sendAllTo (outcome i) registers
    rw [Device.sendAllLoop]
    simp only [bind_eq_bind, next, bind_some, sent]
    split
    next ends =>
      rcases kept with sound' | ⟨sound', without⟩
      · -- the ring is as before, and its head is not the next one
        have head : after.subscriptions.head ≠ some k := sound'.held.head_apart (by simp)
        have head' : after.subscriptions.head ≠ none := by
          rw [sound'.held.head]
          cases pre <;> simp
        exact absurd ends (by simp [head, head'])
      · refine ⟨after, nerrors || failed, pre ++ k :: post, rfl, sound', frame, timely, ?_⟩
        intro fine
        obtain ⟨before, -⟩ := Bool.or_eq_false_iff.mp fine
        refine ⟨before, ?_⟩
        intro visited unvisited j member
        have first : pre = [] := by
          by_contra more
          obtain ⟨a, pre, rfl⟩ := exists_cons_of_ne_nil more
          have head : after.subscriptions.head = some a := sound'.held.head
          rw [head] at ends
          have apart : a ≠ k := by
            rintro rfl
            simp at nodup
          simp [apart] at ends
        subst first
        exact (unvisited rfl without j member).apart apart (other member)
    next further =>
      obtain ⟨pre', sound', inside, more⟩ : ∃ pre', after.Subs steady (pre' ++ k :: post) ∧
          (∀ j ∈ pre', j = i ∨ j ∈ pre) ∧ pre' ≠ [] := by
        rcases kept with sound' | ⟨sound', -⟩
        · exact ⟨pre ++ [i], by simpa using sound', by simp [or_comm], by simp⟩
        · refine ⟨pre, sound', fun j member => Or.inr member, ?_⟩
          rintro rfl
          exact further (Or.inr sound'.held.head)
      obtain ⟨final, failed', left, done, sound'', frame', timely', attended'⟩ :=
        @ih after pre' k fuel (nerrors || failed) sound' (by simpa using enough)
      refine ⟨final, failed', left, done, sound'', frame.trans frame',
        fun works before => timely' works (timely works before), ?_⟩
      intro fine
      obtain ⟨before, rest⟩ := attended' fine
      obtain ⟨before, here⟩ := Bool.or_eq_false_iff.mp before
      refine ⟨before, ?_⟩
      intro visited _
      apply rest
      · intro j member
        by_cases same : j = i
        · subst same
          exact attended here
        · exact (visited j ((inside j member).resolve_left same)).apart apart same
      · intro empty
        exact absurd empty more

theorem Subs.fires (sound : d.Subs steady subs) :
    Subs { d.fires .sendAllLater with eventSendAllQueued := false } steady subs := by
  have other : ∀ {callback : Callback} {i e : Nat}, callback.eventOf i = some e →
      (callback ∈ d.eloop.erase .sendAllLater ↔ callback ∈ d.eloop) := by
    intro callback i e about
    apply mem_erase_of_ne
    rintro rfl
    cases about
  have quiet : .sendAllLater ∈ d.eloop.erase .sendAllLater → false = true := by
    intro member
    exact absurd rfl (sound.nodup.mem_erase_iff.mp member).1
  refine ⟨sound.held, sound.count, sound.few, sound.live, sound.old, ?_, sound.sorted,
    sound.expiry, ?_, sound.nodup.erase _, quiet⟩
  · intro i s here
    obtain ⟨name, q, good⟩ := sound.each i s here
    exact ⟨name, q, good.elsewhere (fun callback e about => other about) (sound.nodup.erase _)
      quiet⟩
  · intro callback member i e about
    exact sound.about callback ((other about).mp member) i e about

theorem Timely.sendAllLater (timely : d.Timely) : (d.eventSendAllLater true).Awake := by
  have awake : ∀ {after : Device}, after.subscription = d.subscription →
      (∀ (callback : Callback), callback ≠ .sendAllLater →
        (callback ∈ after.eloop ↔ callback ∈ d.eloop)) →
      after.eventSendAllQueued = true → .sendAllLater ∈ after.eloop → after.Awake := by
    intro after same events queued timer
    refine ⟨fun _ => timer, ?_⟩
    intro i s here
    rw [same] at here
    refine ⟨fun _ => timer, fun _ _ _ => queued, ?_⟩
    apply timed_elsewhere (timely.timed i s here)
    intro callback e about
    apply events
    rintro rfl
    cases about
  unfold eventSendAllLater
  split
  next queued => exact awake rfl (fun _ _ => Iff.rfl) queued (timely.flagged queued)
  next =>
    refine awake rfl ?_ rfl (by simp [register])
    intro callback other
    simp [register, other]

theorem Subs.eventSendAllLater (sound : d.Subs steady subs) (registers : Bool) :
    (d.eventSendAllLater registers).Subs steady subs ∧ d.Frame (d.eventSendAllLater registers) := by
  unfold Device.eventSendAllLater
  split
  · exact ⟨sound, .refl d⟩
  next idle =>
    have quiet : .sendAllLater ∉ d.eloop := fun member => idle (sound.later member)
    have more : ∀ (eloop : List Callback), eloop.Nodup →
        (∀ (callback : Callback), callback ≠ .sendAllLater →
          (callback ∈ eloop ↔ callback ∈ d.eloop)) →
        Subs { d with eloop := eloop, eventSendAllQueued := true } steady subs ∧
          d.Frame { d with eloop := eloop, eventSendAllQueued := true } := by
      intro eloop nodup same
      have events : ∀ {callback : Callback} {i e : Nat}, callback.eventOf i = some e →
          (callback ∈ eloop ↔ callback ∈ d.eloop) := by
        intro callback i e about
        apply same
        rintro rfl
        cases about
      refine ⟨⟨sound.held, sound.count, sound.few, sound.live, sound.old, ?_, sound.sorted,
        sound.expiry, ?_, nodup, fun _ => rfl⟩,
        ⟨rfl, rfl, rfl, rfl, rfl, rfl, rfl, Nat.le_refl _, fun callback _ other =>
          same callback other⟩⟩
      · intro i s here
        obtain ⟨name, q, good⟩ := sound.each i s here
        exact ⟨name, q, good.elsewhere (fun callback e about => events about) nodup fun _ => rfl⟩
      · intro callback member i e about
        exact sound.about callback ((events about).mp member) i e about
    split
    · apply more _ (nodup_cons.mpr ⟨quiet, sound.nodup⟩)
      intro callback other
      simp [other]
    · exact more d.eloop sound.nodup fun _ _ => Iff.rfl

theorem Subs.heedsAll {rest : List Nat} (sound : d.Subs steady (i :: rest))
    (heeds : d.heedsAll = true) (without : ∀ s, d.subscription i = some s → s.nAddr = 0) :
    ∀ j ∈ rest, d.Attended j := by
  intro j member
  have head : d.subscriptions.head = some i := sound.held.head
  obtain ⟨s, here, -⟩ := sound.find (i := i) (by simp)
  have listed : d.subscriptions.reads d.nSubscriptions.toNat = i :: rest := by
    rw [sound.count, Int.toNat_natCast, sound.held.reads_eq (Nat.le_refl _)]
  have apart : j ≠ i := by
    rintro rfl
    exact (nodup_cons.mp sound.held.nodup).1 member
  rw [Device.heedsAll, head] at heeds
  simp only [here, without s here, listed, ne_eq, not_true_eq_false, decide_false, Bool.false_or,
    List.all_eq_true] at heeds
  apply attended_of_attends
  simpa [apart] using heeds j (mem_cons_of_mem i member)

theorem Awake.fires (awake : d.Awake) :
    Timely { d.fires .sendAllLater with eventSendAllQueued := false } := by
  refine ⟨fun queued => absurd queued Bool.false_ne_true, ?_⟩
  intro i s here
  apply timed_elsewhere (awake.each i s here).timed
  intro callback e about
  apply mem_erase_of_ne
  rintro rfl
  cases about

theorem Timely.awake (timely : d.Timely) (sound : d.Subs steady subs)
    (attended : ∀ i ∈ subs, d.Attended i) : d.Awake := by
  refine ⟨timely.flagged, ?_⟩
  intro i s here
  refine ⟨timely.flagged, ?_, timely.timed i s here⟩
  intro addresses idle more
  have empty : s.eventQueue.head = none := attended i (sound.mem here) s here addresses idle
  have more' : s.eventQueue.head.isSome = true := more
  simp [empty] at more'

theorem Subs.sendAllHandler (sound : d.Subs steady subs) (outcome : Nat → Outbox.SendStart)
    (registers : Bool) :
    ∃ after left, (d.fires .sendAllLater).eventSendAllLaterHandler outcome registers = some after ∧
      after.Subs steady left ∧ d.Frame after ∧
      (registers = true → d.heedsAll = true → d.Awake → after.Awake) := by
  have first := sound.fires
  have frame : d.Frame { d.fires .sendAllLater with eventSendAllQueued := false } :=
    ⟨rfl, rfl, rfl, rfl, rfl, rfl, rfl, Nat.le_refl _, fun callback _ other =>
      mem_erase_of_ne other⟩
  rw [eventSendAllLaterHandler]
  dsimp only
  generalize known : { d.fires .sendAllLater with eventSendAllQueued := false } = c at first frame
  have awakes : d.Awake → c.Timely := by
    intro awake
    subst known
    exact awake.fires
  cases subs with
  | nil =>
    have head : c.subscriptions.head = none := first.held.head
    refine ⟨c, [], ?_, first, frame, fun _ _ awake => (awakes awake).awake first (by simp)⟩
    rw [Device.sendAll, head]
    rfl
  | cons i rest =>
    have head : c.subscriptions.head = some i := first.held.head
    have fuel : c.nSubscriptions.toNat = rest.length + 1 := by
      rw [first.count]
      rfl
    obtain ⟨after, failed, left, done, final, frame', timely, attended⟩ :=
      @Subs.sendAllLoop c steady [] rest i (rest.length + 1) false outcome registers first
        (Nat.lt_succ_self _)
    obtain ⟨later, laterFrame⟩ := final.eventSendAllLater registers
    rw [Device.sendAll, head]
    simp only [fuel, done, bind_eq_bind, bind_some]
    cases failed with
    | true =>
      refine ⟨_, left, rfl, later, frame.trans (frame'.trans laterFrame), ?_⟩
      intro works _ awake
      subst works
      exact (timely rfl (awakes awake)).sendAllLater
    | false =>
      refine ⟨after, left, rfl, final, frame.trans frame', ?_⟩
      intro works heeds awake
      refine (timely works (awakes awake)).awake final ?_
      refine (attended rfl).2 (by simp) ?_
      intro _ without j member
      subst known
      exact sound.heedsAll heeds without j member

end Device

end AthApps.Upnp
