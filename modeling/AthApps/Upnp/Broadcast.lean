import AthApps.Upnp.Wakeup

/-!
# Broadcasts

`upnp_wps_device_send_var` and `event_send_all_later_handler` go round the list
of subscriptions until they are back at its head, and remove subscriptions on the
way.  Where they remove the head, the next one is the head and the loop is over.
-/

set_option autoImplicit false

namespace AthApps.Upnp

open AthApps.Lib List Option
open Function (update update_of_ne)

def Subscription.queued (s : Subscription) : List WpsEvent :=
  (s.eventQueue.reads s.nQueue.toNat).filterMap s.event

namespace Outbox

variable {t after : Outbox} {q : List Nat}

theorem Sound.queued_eq (sound : t.Sound q) : t.s.queued = q.filterMap t.s.event := by
  rw [Subscription.queued, sound.queue.reads_eq]
  rw [sound.count]
  simp

theorem Sound.eventAdd_queued (sound : t.Sound q) {data : Bytes} {memory registers : Bool}
    (added : t.eventAdd data memory registers = some (after, false)) :
    ∃ ev, ev.data = data ∧ after.s.queued = t.s.queued ++ [ev] := by
  obtain ⟨after', failed, left, added', does, -⟩ :=
    @Sound.eventAdd _ q registers (fun _ => True) sound data memory
  obtain ⟨rfl, rfl⟩ : after = after' ∧ false = failed := by simpa [added] using added'
  have out : t.s.added ∉ q := by
    intro member
    obtain ⟨ev, here, -⟩ := sound.waiting _ member
    exact absurd (sound.older _ (by simp [here])) (Nat.lt_irrefl _)
  obtain ⟨queue, linked, holds⟩ := sound.queue.linkToEnd_eq out
  unfold Outbox.eventAdd at added
  split at added
  · cases added
  split at added
  · cases added
  have final := added
  simp only [eventEnqueueAtEnd, Outbox.mark, Outbox.setEvent, linked, bind_eq_bind, bind_some,
    some.injEq, Prod.mk.injEq, and_true] at final
  have queue_eq : after.s.eventQueue = queue := by
    rw [← final]
    simp
  have event_eq : after.s.event = update t.s.event t.s.added (some
      ⟨t.s.nextSubscriberSequence, 0, 0, data, false, false, false⟩) := by
    rw [← final]
    simp
  have left_eq : left = q ++ [t.s.added] := by
    have length : left.length = (q ++ [t.s.added]).length := by
      have count := does.sound.count
      have number : after.s.nQueue = t.s.nQueue + 1 := by
        rw [← final]
        simp
      rw [number, sound.count] at count
      simp only [length_append, length_singleton]
      omega
    have first := does.sound.queue.reads_eq (Nat.le_refl _)
    rw [queue_eq, length, holds.reads_eq (Nat.le_refl _)] at first
    exact first.symm
  refine ⟨⟨t.s.nextSubscriberSequence, 0, 0, data, false, false, false⟩, rfl, ?_⟩
  rw [does.sound.queued_eq, sound.queued_eq, left_eq, event_eq, filterMap_append]
  congr 1
  · apply filterMap_congr
    intro e member
    have apart : e ≠ t.s.added := by
      rintro rfl
      exact out member
    exact update_of_ne apart _ _
  · simp

end Outbox

namespace Device

/-- The subscriptions in the list, in order: any number of them, each with a queue of its own. -/
structure Listed (d : Device) (subs : List Nat) : Prop where
  held : d.subscriptions.Holds subs
  count : d.nSubscriptions = subs.length
  each : ∀ i ∈ subs, ∃ s q, d.subscription i = some s ∧ s.id = i ∧ (d.outbox s).Sound q

section Listed

variable {d : Device} {pre post subs : List Nat} {i : Nat} {s : Subscription}

theorem Listed.setOutbox (listed : d.Listed subs) {after : Outbox} {left : List Nat}
    (here : d.subscription i = some s) (name : s.id = i) (same : (d.outbox s).Same after)
    (final : after.Sound left) : (d.setOutbox after).Listed subs := by
  have id : after.s.id = i := same.id.trans name
  refine ⟨listed.held, listed.count, ?_⟩
  intro j member
  by_cases equal : j = i
  · subst equal
    exact ⟨after.s, left, by simp [Device.setOutbox, id], id, final⟩
  · obtain ⟨u, q, known, name', sound⟩ := listed.each j member
    refine ⟨u, q, by simpa [Device.setOutbox, id, equal] using known, name', ?_⟩
    refine sound.elsewhere ?_ final.nodup final.later
    intro callback e about
    rw [show (d.outbox u).s.id = j from name'] at about
    refine same.foreign callback ?_ ?_
    · have other := eventOf_apart equal about
      rwa [← name] at other
    · rintro rfl
      cases about

theorem Listed.remove (listed : d.Listed (pre ++ i :: post)) :
    ∃ after, d.subscriptionRemove i = some after ∧ after.Listed (pre ++ post) ∧
      after.subscription = update d.subscription i none := by
  obtain ⟨s, q, here, name, good⟩ := listed.each i (by simp)
  obtain ⟨ring, unlinked, holds⟩ := listed.held.unlink_eq
  obtain ⟨t, deleted, final, same, -⟩ := good.eventDeleteAll
  have out : i ∉ pre ++ post := by
    have nodup := listed.held.nodup
    rw [nodup_middle] at nodup
    exact (nodup_cons.mp nodup).1
  have set := listed.setOutbox here name same final
  have id : t.s.id = i := same.id.trans name
  refine ⟨{ d.setOutbox t with
      subscriptions := ring, nSubscriptions := d.nSubscriptions - 1,
      subscription := update (d.setOutbox t).subscription i none }, ?_,
    ⟨holds, ?_, ?_⟩, ?_⟩
  · rw [subscriptionRemove, subscriptionUnlink, unlinked]
    simp only [bind_eq_bind, bind_some, subscriptionDestroy, here]
    rw [show Device.outbox { d with subscriptions := ring, nSubscriptions := d.nSubscriptions - 1 }
      s = d.outbox s from rfl, deleted]
    rfl
  · have count := listed.count
    simp only [count, length_append, length_cons]
    omega
  · intro j member
    have apart : j ≠ i := by
      rintro rfl
      exact out member
    obtain ⟨u, q, known, name', sound⟩ := set.each j (by
      rw [mem_append] at member
      simp only [mem_append, mem_cons]
      exact member.imp_right .inr)
    exact ⟨u, q, by simpa [apart] using known, name', sound⟩
  · simp [Device.setOutbox, id]

/-- A loop has come by the subscriptions in front of `rest`; `stays` tells which of them are left,
and `fate` what became of each. -/
structure Round (d : Device) (stays : Nat → Bool) (fate : Device → Nat → Prop)
    (subs done rest : List Nat) (after : Device) : Prop where
  listed : after.Listed (done ++ rest)
  fresh : ∀ i ∈ rest, after.subscription i = d.subscription i
  split : ∃ past, subs = past ++ rest ∧ done = past.filter stays ∧ ∀ i ∈ past, fate after i

section Round

variable {stays : Nat → Bool} {fate : Device → Nat → Prop} {done rest : List Nat}
  {middle after : Device}

theorem Round.start (listed : d.Listed subs) : d.Round stays fate subs [] subs d :=
  ⟨listed, fun _ _ => rfl, [], rfl, rfl, by simp⟩

theorem Round.ended (round : d.Round stays fate subs done [] after) :
    after.Listed (subs.filter stays) ∧ ∀ i ∈ subs, fate after i := by
  obtain ⟨past, past_eq, done_eq, fates⟩ := round.split
  rw [append_nil] at past_eq
  subst past_eq
  have listed := round.listed
  rw [append_nil, done_eq] at listed
  exact ⟨listed, fates⟩

theorem Round.step (round : d.Round stays fate subs done (i :: rest) middle) (nodup : subs.Nodup)
    (others : ∀ j, j ≠ i → after.subscription j = middle.subscription j)
    (listed : after.Listed (done ++ if stays i then i :: rest else rest)) (here : fate after i)
    (keeps : ∀ {j middle after}, fate middle j → after.subscription j = middle.subscription j →
      fate after j) :
    if stays i then d.Round stays fate subs (done ++ [i]) rest after
    else d.Round stays fate subs done rest after := by
  obtain ⟨past, rfl, done_eq, fates⟩ := round.split
  rw [nodup_middle] at nodup
  obtain ⟨out, -⟩ := nodup_cons.mp nodup
  have other : ∀ j, j ∈ past ∨ j ∈ rest → j ≠ i := by
    rintro j member rfl
    exact out (mem_append.mpr member)
  have fresh : ∀ j ∈ rest, after.subscription j = d.subscription j := by
    intro j member
    rw [others j (other j (.inr member)), round.fresh j (by simp [member])]
  have reached : ∀ j ∈ past ++ [i], fate after j := by
    intro j member
    rcases mem_append.mp member with member | member
    · exact keeps (fates j member) (others j (other j (.inl member)))
    · rwa [mem_singleton.mp member]
  split
  next kept =>
    rw [if_pos kept] at listed
    refine ⟨by simpa using listed, fresh, past ++ [i], by simp, ?_, reached⟩
    rw [filter_append, ← done_eq, filter_cons_of_pos kept, filter_nil]
  next removed =>
    rw [if_neg removed] at listed
    refine ⟨listed, fresh, past ++ [i], by simp, ?_, reached⟩
    rw [filter_append, ← done_eq, filter_cons_of_neg removed, filter_nil, append_nil]

end Round

end Listed

def takes (d : Device) (memory : Nat → Bool) (i : Nat) : Bool :=
  match d.subscription i with
  | none => false
  | some s => decide (s.nQueue < maxEventsQueued) && memory i

/-- The subscription has one event more, the last one, with this message. -/
def Received (d : Device) (data : Bytes) (after : Device) (i : Nat) : Prop :=
  ∃ s u ev, d.subscription i = some s ∧ after.subscription i = some u ∧ ev.data = data ∧
    u.queued = s.queued ++ [ev]

def Served (d : Device) (data : Bytes) (memory : Nat → Bool) (after : Device) (i : Nat) : Prop :=
  if d.takes memory i then d.Received data after i else after.subscription i = none

/-- The broadcast ends, and the subscriptions that take the event are left, in their order. -/
def BroadcastReaches (d : Device) (subs : List Nat) (data : Bytes) (memory : Nat → Bool)
    (registers : Bool) : Prop :=
  ∃ after, d.upnpWpsDeviceSendVar data memory registers = some after ∧
    after.Listed (subs.filter (d.takes memory)) ∧
    ∀ i ∈ subs, d.Served data memory after i

section Broadcast

variable {d : Device} {data : Bytes} {memory : Nat → Bool} {registers : Bool}
  {pre post subs : List Nat} {i : Nat}

variable {after middle : Device}

theorem takes_congr (same : after.subscription i = d.subscription i) :
    after.takes memory i = d.takes memory i := by
  rw [takes, takes, same]

theorem Listed.sendVarTo (listed : d.Listed (pre ++ i :: post)) :
    ∃ after, d.sendVarTo data (memory i) registers i = some after ∧
      (∀ j, j ≠ i → after.subscription j = d.subscription j) ∧
      after.Listed (pre ++ if d.takes memory i then i :: post else post) ∧
      d.Served data memory after i := by
  obtain ⟨s, q, here, name, good⟩ := listed.each i (by simp)
  obtain ⟨t, failed, left, added, does, drops, -⟩ :=
    @Outbox.Sound.eventAdd _ q registers (fun _ => True) good data (memory i)
  have set := listed.setOutbox here name does.same does.sound
  have id : t.s.id = i := does.same.id.trans name
  have takes_eq : d.takes memory i = !failed := by
    have full : ¬ s.nQueue < maxEventsQueued ↔ maxEventsQueued ≤ s.nQueue := Int.not_lt
    rw [show (d.outbox s).s = s from rfl, ← full] at drops
    rw [takes, here, Bool.eq_iff_iff]
    cases lost : memory i <;> cases failed <;> simp_all
  rw [takes_eq, Device.sendVarTo, here]
  simp only [bind_eq_bind, bind_some, added]
  cases failed with
  | true =>
    obtain ⟨after, removed, kept, others⟩ := set.remove
    refine ⟨after, removed, ?_, kept, by simp [Served, takes_eq, others]⟩
    intro j apart
    rw [others, update_of_ne apart]
    simp [Device.setOutbox, id, apart]
  | false =>
    obtain ⟨ev, message, queued⟩ := good.eventAdd_queued added
    have received : d.Received data (d.setOutbox t) i :=
      ⟨s, t.s, ev, here, by simp [Device.setOutbox, id], message, queued⟩
    refine ⟨_, rfl, ?_, set, by simpa [Served, takes_eq] using received⟩
    intro j apart
    simp [Device.setOutbox, id, apart]

theorem sendVarLoop_eq_tour (fuel : Nat) :
    Device.sendVarLoop data memory registers fuel i d =
      Ring.tour Device.subscriptions (fun i d => d.sendVarTo data (memory i) registers i) false
        fuel i d := by
  induction fuel generalizing i d with
  | zero => rfl
  | succ fuel ih => simp [Device.sendVarLoop, Ring.tour, ih]

theorem Served.keep (served : d.Served data memory middle i)
    (same : after.subscription i = middle.subscription i) : d.Served data memory after i := by
  unfold Served Received at served ⊢
  rwa [same]

theorem Served.since (served : middle.Served data memory after i)
    (same : middle.subscription i = d.subscription i) : d.Served data memory after i := by
  unfold Served Received at served ⊢
  rwa [takes_congr same, same] at served

theorem Round.sendVarTo {middle : Device} {done rest : List Nat} (nodup : subs.Nodup)
    (sent : d.Round (d.takes memory) (d.Served data memory) subs done (i :: rest) middle) :
    ∃ after, middle.sendVarTo data (memory i) registers i = some after ∧
      if d.takes memory i then
        d.Round (d.takes memory) (d.Served data memory) subs (done ++ [i]) rest after
      else d.Round (d.takes memory) (d.Served data memory) subs done rest after := by
  obtain ⟨after, visited, others, kept, served⟩ :=
    @Listed.sendVarTo middle data memory registers done rest i sent.listed
  have same := sent.fresh i (by simp)
  refine ⟨after, visited, sent.step nodup others ?_ (served.since same) ?_⟩
  · rwa [takes_congr same] at kept
  · intro j middle after served same
    exact served.keep same

theorem broadcastReaches_iff (listed : d.Listed subs) :
    d.BroadcastReaches subs data memory registers ↔
      ∀ i, subs.head? = some i → d.takes memory i = true := by
  have fuel : d.nSubscriptions.toNat = subs.length := by
    rw [listed.count]
    exact Int.toNat_natCast _
  have nodup := listed.held.nodup
  have head := listed.held.head
  cases subs with
  | nil =>
    refine iff_of_true ⟨d, ?_, listed, by simp⟩ (by simp)
    rw [upnpWpsDeviceSendVar, head]
    rfl
  | cons i rest =>
    have loop : d.upnpWpsDeviceSendVar data memory registers =
        Ring.tour Device.subscriptions (fun i d => d.sendVarTo data (memory i) registers i) false
          (rest.length + 1) i d := by
      rw [upnpWpsDeviceSendVar, head, ← sendVarLoop_eq_tour, fuel]
      rfl
    have starts : d.Round (d.takes memory) (d.Served data memory) (i :: rest) [] (i :: rest) d :=
      .start listed
    obtain ⟨after, visited, kept⟩ :=
      @Round.sendVarTo d data memory registers (i :: rest) i d [] rest nodup starts
    rw [head?_cons]
    constructor
    · rintro ⟨final, sent, left, served⟩ j same
      obtain rfl : i = j := some.inj same
      by_contra drops
      rw [if_neg drops] at kept
      rw [loop, Ring.tour] at sent
      cases rest with
      | nil =>
        -- the list is empty now, and the loop goes on with the subscription that is gone
        have next : d.subscriptions.next i = some i := by
          have last := @Ring.Holds.next_last _ _ [] i listed.held
          rw [last, head]
          rfl
        have empty : after.subscriptions.head = none := kept.listed.held.head
        simp [next, visited, empty, Ring.tour] at sent
      | cons k rest =>
        -- the loop is over, and the next subscription is as it was
        have next : d.subscriptions.next i = some k :=
          @Ring.Holds.next_inner _ _ [] rest i k listed.held
        have first : after.subscriptions.head = some k := kept.listed.held.head
        obtain rfl : after = final := by simpa [next, visited, first] using sent
        have same := kept.fresh k (by simp)
        have here := served k (by simp)
        obtain ⟨u, -, lives, -⟩ := kept.listed.each k (by simp)
        unfold Served at here
        split at here
        · obtain ⟨s, u', ev, known, known', -, longer⟩ := here
          obtain rfl : s = u' := some.inj (known.symm.trans (same.symm.trans known'))
          have lengths := congrArg List.length longer
          simp at lengths
        · cases here.symm.trans lives
    · intro takes
      have first := takes i rfl
      rw [if_pos first] at kept
      have visits : ∀ {done : List Nat} {j : Nat} {later : List Nat} {middle : Device},
          d.Round (d.takes memory) (d.Served data memory) (i :: rest) done (j :: later) middle →
          ∃ after, middle.sendVarTo data (memory j) registers j = some after ∧
            (d.Round (d.takes memory) (d.Served data memory) (i :: rest) (done ++ [j]) later after ∨
              d.Round (d.takes memory) (d.Served data memory) (i :: rest) done later after) := by
        intro done j later middle round
        obtain ⟨after, visited, kept⟩ := Round.sendVarTo nodup round
        refine ⟨after, visited, ?_⟩
        split at kept
        · exact .inl kept
        · exact .inr kept
      obtain ⟨left, final, toured, whole⟩ := @Ring.tour_visits_all Nat Device
        (fun j d => d.sendVarTo data (memory j) registers j)
        (d.Round (d.takes memory) (d.Served data memory) (i :: rest)) _ Device.subscriptions false
        (fun round => round.listed.held) visits _ [] rest i d starts (Nat.lt_succ_self _)
        (.inr ⟨after, visited, kept⟩)
      exact ⟨final, loop.trans toured, whole.ended⟩

end Broadcast

def hasAddress (d : Device) (i : Nat) : Bool :=
  match d.subscription i with
  | none => false
  | some s => decide (s.nAddr ≠ 0)

/-- A loop of `event_send_all_later_handler`: the device, whether there was an error, and the
subscriptions that were visited. -/
abbrev Pass := Device × Bool × List Nat

def passTo (outcome : Nat → Outbox.SendStart) (registers : Bool) (i : Nat) (pass : Pass) :
    Option Pass := do
  let (d, failed) ← pass.1.sendAllTo (outcome i) registers i
  some (d, pass.2.1 || failed, pass.2.2 ++ [i])

def passAll (d : Device) (outcome : Nat → Outbox.SendStart) (registers : Bool) : Option Pass :=
  match d.subscriptions.head with
  | none => some (d, false, [])
  | some i =>
    Ring.tour (fun pass : Pass => pass.1.subscriptions) (passTo outcome registers) true
      d.nSubscriptions.toNat i (d, false, [])

def passHandler (d : Device) (outcome : Nat → Outbox.SendStart) (registers : Bool) :
    Option (Device × List Nat) := do
  let d := { d with eventSendAllQueued := false }
  let (d, nerrors, visited) ← d.passAll outcome registers
  some (if nerrors then d.eventSendAllLater registers else d, visited)

theorem tour_passTo (outcome : Nat → Outbox.SendStart) (registers : Bool) {fuel i : Nat}
    {d : Device} {nerrors : Bool} {visited : List Nat} :
    (Ring.tour (fun pass : Pass => pass.1.subscriptions) (passTo outcome registers) true fuel i
        (d, nerrors, visited)).map (fun pass => (pass.1, pass.2.1)) =
      sendAllLoop outcome registers fuel i d nerrors := by
  induction fuel generalizing i d nerrors visited with
  | zero => rfl
  | succ fuel ih =>
    simp only [Ring.tour, sendAllLoop, passTo]
    cases d.subscriptions.next i with
    | none => rfl
    | some next =>
      simp only [bind_eq_bind, bind_some]
      cases d.sendAllTo (outcome i) registers i with
      | none => rfl
      | some sent =>
        simp only [bind_some, true_and]
        by_cases last : sent.1.subscriptions.head = some next ∨ sent.1.subscriptions.head = none
        · rw [if_pos last, if_pos last.symm]
          rfl
        · rw [if_neg last, if_neg (mt Or.symm last)]
          exact ih

/-- The list of visits aside, the loop is the one of the handler. -/
theorem passHandler_fst (d : Device) (outcome : Nat → Outbox.SendStart) (registers : Bool) :
    (d.passHandler outcome registers).map Prod.fst =
      d.eventSendAllLaterHandler outcome registers := by
  have loop : ∀ d : Device, (d.passAll outcome registers).map (fun pass => (pass.1, pass.2.1)) =
      d.sendAll outcome registers := by
    intro d
    unfold passAll sendAll
    cases d.subscriptions.head with
    | none => rfl
    | some i => exact tour_passTo outcome registers
  simp only [passHandler, eventSendAllLaterHandler, ← loop]
  cases passAll { d with eventSendAllQueued := false } outcome registers with
  | none => rfl
  | some pass => rfl

def PassVisits (d : Device) (subs : List Nat) (outcome : Nat → Outbox.SendStart)
    (registers : Bool) : Prop :=
  ∃ after, (d.fires .sendAllLater).passHandler outcome registers = some (after, subs) ∧
    after.Listed (subs.filter d.hasAddress) ∧
    ∀ i ∈ subs, d.hasAddress i = false → after.subscription i = none

section Pass

variable {d : Device} {outcome : Nat → Outbox.SendStart} {registers : Bool}
  {pre post subs : List Nat} {i : Nat}

theorem eventSendAllLater_subscription (d : Device) (registers : Bool) :
    (d.eventSendAllLater registers).subscription = d.subscription := by
  unfold Device.eventSendAllLater
  split
  · rfl
  · split <;> rfl

theorem Listed.later (listed : d.Listed subs) : (d.eventSendAllLater registers).Listed subs := by
  have same (s : Subscription) : (d.eventSendAllLater registers).outbox s =
      (d.outbox s).eventSendAllLater registers := by
    unfold Device.eventSendAllLater Outbox.eventSendAllLater Device.outbox
    cases queued : d.eventSendAllQueued <;> cases registers <;>
      simp [queued, Device.register, Outbox.register]
  have unchanged : (d.eventSendAllLater registers).subscriptions = d.subscriptions ∧
      (d.eventSendAllLater registers).nSubscriptions = d.nSubscriptions := by
    unfold Device.eventSendAllLater
    split
    · exact ⟨rfl, rfl⟩
    · split <;> exact ⟨rfl, rfl⟩
  obtain ⟨ring, number⟩ := unchanged
  refine ⟨ring ▸ listed.held, number ▸ listed.count, ?_⟩
  intro i member
  obtain ⟨s, q, here, name, sound⟩ := listed.each i member
  refine ⟨s, q, by rw [eventSendAllLater_subscription, here], name, ?_⟩
  rw [same]
  exact sound.eventSendAllLater registers

theorem Listed.fires (listed : d.Listed subs) :
    Listed { d.fires .sendAllLater with eventSendAllQueued := false } subs := by
  refine ⟨listed.held, listed.count, ?_⟩
  intro i member
  obtain ⟨s, q, here, name, sound⟩ := listed.each i member
  refine ⟨s, q, here, name, sound.elsewhere ?_ (sound.nodup.erase _) ?_⟩
  · intro callback e about
    apply mem_erase_of_ne
    rintro rfl
    cases about
  · intro still
    exact absurd still sound.nodup.not_mem_erase

theorem Listed.sendAllTo (listed : d.Listed (pre ++ i :: post)) (start : Outbox.SendStart) :
    ∃ after failed, d.sendAllTo start registers i = some (after, failed) ∧
      (∀ j, j ≠ i → after.subscription j = d.subscription j) ∧
      after.Listed (pre ++ if d.hasAddress i then i :: post else post) ∧
      (d.hasAddress i = false → after.subscription i = none) := by
  obtain ⟨s, q, here, name, good⟩ := listed.each i (by simp)
  rw [Device.sendAllTo, hasAddress, here]
  simp only [bind_eq_bind, bind_some]
  by_cases none : s.nAddr = 0
  · obtain ⟨after, removed, kept, others⟩ := listed.remove
    refine ⟨after, false, by simp [none, removed], ?_, by simpa [none] using kept, ?_⟩
    · intro j apart
      rw [others, update_of_ne apart]
    · simp [others]
  · obtain ⟨t, failed, left, visited, does, -⟩ := @Outbox.Sound.visit _ q registers
      (fun _ => True) good none start (by intros; trivial)
    have id : t.s.id = i := does.same.id.trans name
    refine ⟨d.setOutbox t, failed, by simp [none, visited], ?_, ?_, by simp [none]⟩
    · intro j apart
      simp [Device.setOutbox, id, apart]
    · simpa [none] using listed.setOutbox here name does.same does.sound

def Purged (d after : Device) (i : Nat) : Prop :=
  d.hasAddress i = false → after.subscription i = none

theorem hasAddress_congr {after : Device} (same : after.subscription i = d.subscription i) :
    after.hasAddress i = d.hasAddress i := by
  rw [hasAddress, hasAddress, same]

/-- The pass has visited the subscriptions in front of `rest`. -/
def Passing (d : Device) (subs done rest : List Nat) (pass : Pass) : Prop :=
  d.Round d.hasAddress d.Purged subs done rest pass.1 ∧ subs = pass.2.2 ++ rest

theorem Passing.passTo {pass : Pass} {done rest : List Nat} (nodup : subs.Nodup)
    (passing : d.Passing subs done (i :: rest) pass) :
    ∃ after, Device.passTo outcome registers i pass = some after ∧
      if d.hasAddress i then d.Passing subs (done ++ [i]) rest after
      else d.Passing subs done rest after := by
  obtain ⟨round, visits⟩ := passing
  obtain ⟨after, failed, sent, others, kept, gone⟩ :=
    @Listed.sendAllTo pass.1 registers done rest i round.listed (outcome i)
  have same := hasAddress_congr (round.fresh i (by simp))
  rw [same] at kept gone
  have step := round.step nodup others kept gone (by
    intro j middle after purged same without
    rw [same]
    exact purged without)
  refine ⟨(after, pass.2.1 || failed, pass.2.2 ++ [i]), by rw [Device.passTo, sent]; rfl, ?_⟩
  split
  next kept =>
    rw [if_pos kept] at step
    exact ⟨step, by simp [visits]⟩
  next removed =>
    rw [if_neg removed] at step
    exact ⟨step, by simp [visits]⟩

theorem Passing.ended {pass : Pass} {done : List Nat} (passing : d.Passing subs done [] pass) :
    pass.2.2 = subs ∧ pass.1.Listed (subs.filter d.hasAddress) ∧
      ∀ i ∈ subs, d.hasAddress i = false → pass.1.subscription i = none := by
  obtain ⟨round, visits⟩ := passing
  rw [append_nil] at visits
  exact ⟨visits.symm, round.ended⟩

theorem passAll_cons {rest : List Nat} (listed : d.Listed (i :: rest)) :
    d.passAll outcome registers =
      Ring.tour (fun pass : Pass => pass.1.subscriptions) (Device.passTo outcome registers) true
        (rest.length + 1) i (d, false, []) := by
  have head : d.subscriptions.head = some i := listed.held.head
  have fuel : d.nSubscriptions.toNat = rest.length + 1 := by
    rw [listed.count]
    exact Int.toNat_natCast _
  rw [passAll, head, fuel]

theorem passAll_visits {rest : List Nat} (listed : d.Listed (i :: rest))
    (first : d.hasAddress i = true) :
    ∃ pass, d.passAll outcome registers = some pass ∧ d.Passing (i :: rest)
      ((i :: rest).filter d.hasAddress) [] pass := by
  have nodup := listed.held.nodup
  have starts : d.Passing (i :: rest) [] (i :: rest) (d, false, []) := ⟨.start listed, rfl⟩
  have visits : ∀ {done : List Nat} {j : Nat} {later : List Nat} {pass : Pass},
      d.Passing (i :: rest) done (j :: later) pass →
      ∃ after, Device.passTo outcome registers j pass = some after ∧
        (d.Passing (i :: rest) (done ++ [j]) later after ∨
          d.Passing (i :: rest) done later after) := by
    intro done j later pass passing
    obtain ⟨after, visited, kept⟩ := Passing.passTo nodup passing
    refine ⟨after, visited, ?_⟩
    split at kept
    · exact .inl kept
    · exact .inr kept
  obtain ⟨after, visited, kept⟩ := @Passing.passTo d outcome registers _ i _ _ _ nodup starts
  rw [if_pos first] at kept
  obtain ⟨left, pass, toured, whole⟩ := @Ring.tour_visits_all Nat Pass
    (Device.passTo outcome registers) (d.Passing (i :: rest)) _
    (fun pass => pass.1.subscriptions) true (fun passing => passing.1.listed.held) visits
    _ [] rest i _ starts (Nat.lt_succ_self _) (.inr ⟨after, visited, kept⟩)
  refine ⟨pass, (passAll_cons listed).trans toured, ?_⟩
  obtain ⟨past, past_eq, left_eq, -⟩ := whole.1.split
  rw [append_nil] at past_eq
  rwa [past_eq, ← left_eq, ← past_eq]

theorem passAll_ends {rest : List Nat} (listed : d.Listed (i :: rest))
    (first : d.hasAddress i = false) :
    ∃ pass, d.passAll outcome registers = some pass ∧ pass.2.2 = [i] ∧
      d.Passing (i :: rest) [] rest pass := by
  have starts : d.Passing (i :: rest) [] (i :: rest) (d, false, []) := ⟨.start listed, rfl⟩
  obtain ⟨after, visited, kept⟩ :=
    @Passing.passTo d outcome registers _ i _ _ _ listed.held.nodup starts
  rw [if_neg (by simp [first])] at kept
  have visits : after.2.2 = [i] := by
    have split : [i] ++ rest = after.2.2 ++ rest := kept.2
    exact (append_cancel_right split).symm
  refine ⟨after, ?_, visits, kept⟩
  rw [passAll_cons listed, Ring.tour]
  cases rest with
  | nil =>
    have next : d.subscriptions.next i = some i := by
      have last := @Ring.Holds.next_last _ _ [] i listed.held
      rw [last, listed.held.head]
      rfl
    have empty : after.1.subscriptions.head = none := kept.1.listed.held.head
    simp [next, visited, empty]
  | cons k rest =>
    have next : d.subscriptions.next i = some k :=
      @Ring.Holds.next_inner _ _ [] rest i k listed.held
    have head : after.1.subscriptions.head = some k := kept.1.listed.held.head
    simp [next, visited, head]

theorem passVisits_iff (listed : d.Listed subs) :
    d.PassVisits subs outcome registers ↔
      ∀ i, subs.head? = some i → d.hasAddress i = true ∨ subs = [i] := by
  have fired := listed.fires
  generalize known : ({ d.fires .sendAllLater with eventSendAllQueued := false } : Device) = base
    at fired
  have same : base.hasAddress = d.hasAddress := by
    rw [← known]
    rfl
  have handler : (d.fires .sendAllLater).passHandler outcome registers =
      (base.passAll outcome registers).map fun pass =>
        (if pass.2.1 then pass.1.eventSendAllLater registers else pass.1, pass.2.2) := by
    rw [passHandler, ← known]
    cases passAll { d.fires .sendAllLater with eventSendAllQueued := false } outcome registers <;>
      rfl
  rw [PassVisits, handler, ← same]
  cases subs with
  | nil =>
    have head : base.subscriptions.head = none := fired.held.head
    refine iff_of_true ⟨base, ?_, fired, by simp⟩ (by simp)
    rw [passAll, head]
    rfl
  | cons i rest =>
    have done {pass : Pass} (made : base.passAll outcome registers = some pass)
        (passing : base.Passing (i :: rest) ((i :: rest).filter base.hasAddress) [] pass) :
        ∃ after, (base.passAll outcome registers).map (fun pass =>
            (if pass.2.1 then pass.1.eventSendAllLater registers else pass.1, pass.2.2)) =
            some (after, i :: rest) ∧
          after.Listed ((i :: rest).filter base.hasAddress) ∧
          ∀ j ∈ i :: rest, base.hasAddress j = false → after.subscription j = none := by
      obtain ⟨visits, left, gone⟩ := passing.ended
      rw [made, map_some, visits]
      refine ⟨_, rfl, ?_, ?_⟩
      · split
        · exact left.later
        · exact left
      · intro j member without
        split
        · rw [eventSendAllLater_subscription]
          exact gone j member without
        · exact gone j member without
    by_cases first : base.hasAddress i = true
    · obtain ⟨pass, made, passing⟩ := @passAll_visits base outcome registers i rest fired first
      exact iff_of_true (done made passing) (by simp [first])
    · have without : base.hasAddress i = false := by simpa using first
      obtain ⟨pass, made, visits, passing⟩ :=
        @passAll_ends base outcome registers i rest fired without
      cases rest with
      | nil =>
        refine iff_of_true (done made ?_) (by simp)
        rwa [filter_cons_of_neg first, filter_nil]
      | cons k rest =>
        refine iff_of_false ?_ (by simp [without])
        rintro ⟨after, handled, -⟩
        rw [made, map_some, visits] at handled
        simp at handled

end Pass

theorem broadcasts_reach {d : Device} {subs : List Nat} (listed : d.Listed subs)
    (data : Bytes) (memory : Nat → Bool) (outcome : Nat → Outbox.SendStart)
    (registers : Bool) :
    (d.BroadcastReaches subs data memory registers ↔
      ∀ i, subs.head? = some i → d.takes memory i = true) ∧
    (d.PassVisits subs outcome registers ↔
      ∀ i, subs.head? = some i → d.hasAddress i = true ∨ subs = [i]) :=
  ⟨broadcastReaches_iff listed, passVisits_iff listed⟩

theorem listed_of_reaches {d : Device} (reached : Reaches step (fun _ _ => True) Device.init d) :
    ∃ subs, d.Listed subs := by
  obtain ⟨subs, kempt⟩ := kempt_of_reaches reached
  refine ⟨subs, kempt.subs.held, kempt.subs.count, ?_⟩
  intro i member
  obtain ⟨s, here, name, q, sound⟩ := kempt.subs.find member
  exact ⟨s, q, here, name, sound⟩

/-- Two subscribers, the second with one address; the first has what is given, and gets some
events before the second comes. -/
def twoSubscribers (nAddr events : Nat) : List (Device → Call × Bool) :=
  [fun _ => (.start .fine, true), fun _ => (.accept true true, true),
    fun _ => (.request 0 (some (.subscribe ⟨5, true, [1], nAddr, [7], true⟩)), true)] ++
  List.replicate events (fun _ => (.sendVar [8] fun _ => true, true)) ++
  [fun _ => (.accept true true, true),
    fun _ => (.request 2 (some (.subscribe ⟨6, true, [2], 1, [7], true⟩)), true)]

def firstOf (d : Device) : List Nat × Bool × Bool :=
  (d.subscriptions.reads 2, d.takes (fun _ => true) 1, d.hasAddress 1)

theorem subscribers_of_run {inputs : List (Device → Call × Bool)} {room addressed : Bool}
    (runs : (follows step (fun _ _ => True) Device.init inputs).map (fun d =>
      (firstOf d, d.nSubscriptions)) = some (([1, 3], room, addressed), 2)) :
    ∃ d, Reaches step (fun _ _ => True) Device.init d ∧ d.Listed [1, 3] ∧
      d.takes (fun _ => true) 1 = room ∧ d.hasAddress 1 = addressed := by
  obtain ⟨d, ends, shows⟩ := map_eq_some_iff.mp runs
  have reached := reaches_of_follows ends
  simp only [firstOf, Prod.mk.injEq] at shows
  obtain ⟨⟨reads, room_eq, addressed_eq⟩, number⟩ := shows
  obtain ⟨subs, listed⟩ := listed_of_reaches reached
  have two : subs.length = 2 := by
    have count := listed.count
    omega
  rw [listed.held.reads_eq (Nat.le_of_eq two)] at reads
  subst reads
  exact ⟨d, reached, listed, room_eq, addressed_eq⟩

/-- Both have room and an address. -/
theorem both_subscribers_reached : ∃ d, Reaches step (fun _ _ => True) Device.init d ∧
    d.BroadcastReaches [1, 3] [9] (fun _ => true) true ∧
      d.PassVisits [1, 3] (fun _ => .started) true := by
  obtain ⟨d, reached, listed, room, addressed⟩ :=
    @subscribers_of_run (twoSubscribers 1 1) true true (by decide)
  obtain ⟨broadcast, pass⟩ := broadcasts_reach listed [9] (fun _ => true) (fun _ => .started) true
  exact ⟨d, reached, broadcast.mpr (by simpa using room), pass.mpr (by simp [addressed])⟩

/-- The first has a full queue and no address: the second does not get the event and is not
visited. -/
theorem first_subscriber_ends_loops : ∃ d, Reaches step (fun _ _ => True) Device.init d ∧
    d.Listed [1, 3] ∧ ¬ d.BroadcastReaches [1, 3] [9] (fun _ => true) true ∧
      ¬ d.PassVisits [1, 3] (fun _ => .started) true := by
  obtain ⟨d, reached, listed, room, addressed⟩ :=
    @subscribers_of_run (twoSubscribers 0 19) false false (by decide)
  refine ⟨d, reached, listed, ?_, ?_⟩
  · rw [broadcastReaches_iff listed]
    simp [room]
  · rw [passVisits_iff listed]
    simp [addressed]

end Device

end AthApps.Upnp
