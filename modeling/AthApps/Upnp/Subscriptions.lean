import AthApps.Upnp.Device
import AthApps.Upnp.Outbox

/-!
# The list of subscriptions

New and renewed subscriptions go to the end of the list, with an expiry that is
no earlier than any before, so the list is in order of expiry and it is enough
for `subscription_list_age` to look at its head.
-/

set_option autoImplicit false

namespace AthApps.Upnp

open AthApps.Lib List Option
open Function (update update_self)

namespace Device

/-- What the functions on subscriptions leave alone. -/
structure Frame (d after : Device) : Prop where
  started : after.started = d.started
  msearchReplies : after.msearchReplies = d.msearchReplies
  nMsearchReplies : after.nMsearchReplies = d.nMsearchReplies
  msearchReply : after.msearchReply = d.msearchReply
  webConnections : after.webConnections = d.webConnections
  nWebConnections : after.nWebConnections = d.nWebConnections
  webConnection : after.webConnection = d.webConnection
  allocated : d.allocated ≤ after.allocated
  eloop : ∀ callback : Callback, (∀ i, callback.eventOf i = none) → callback ≠ .sendAllLater →
    (callback ∈ after.eloop ↔ callback ∈ d.eloop)

theorem Frame.refl (d : Device) : d.Frame d :=
  ⟨rfl, rfl, rfl, rfl, rfl, rfl, rfl, Nat.le_refl _, fun _ _ _ => Iff.rfl⟩

theorem Frame.trans {d middle after : Device} (early : d.Frame middle) (late : middle.Frame after) :
    d.Frame after :=
  ⟨late.started.trans early.started, late.msearchReplies.trans early.msearchReplies,
    late.nMsearchReplies.trans early.nMsearchReplies, late.msearchReply.trans early.msearchReply,
    late.webConnections.trans early.webConnections,
    late.nWebConnections.trans early.nWebConnections,
    late.webConnection.trans early.webConnection, early.allocated.trans late.allocated,
    fun callback foreign other =>
      (late.eloop callback foreign other).trans (early.eloop callback foreign other)⟩

def NotLater (d : Device) (i j : Nat) : Prop :=
  ∀ s t, d.subscription i = some s → d.subscription j = some t → s.timeoutTime ≤ t.timeoutTime

structure Subs (d : Device) (steady : Prop) (subs : List Nat) : Prop where
  held : d.subscriptions.Holds subs
  count : d.nSubscriptions = subs.length
  few : (subs.length : Int) ≤ maxSubscriptions
  live : ∀ i, d.subscription i ≠ none ↔ i ∈ subs
  old : ∀ i ∈ subs, i < d.allocated
  each : ∀ i s, d.subscription i = some s → s.id = i ∧ ∃ q, (d.outbox s).Sound q
  sorted : steady → subs.Pairwise d.NotLater
  expiry : steady → ∀ i s, d.subscription i = some s → s.timeoutTime ≤ d.clock + upnpSubscribeSec
  about : ∀ callback ∈ d.eloop, ∀ i e, callback.eventOf i = some e → i ∈ subs
  nodup : d.eloop.Nodup
  later : .sendAllLater ∈ d.eloop → d.eventSendAllQueued = true

/-- What a function on one subscription leaves alone of the others. -/
structure Apart (d : Device) (i : Nat) (after : Device) : Prop where
  others : ∀ j, j ≠ i → after.subscription j = d.subscription j
  events : ∀ (callback : Callback) j e, j ≠ i → callback.eventOf j = some e →
    (callback ∈ after.eloop ↔ callback ∈ d.eloop)
  flag : d.eventSendAllQueued = true → after.eventSendAllQueued = true
  timer : .sendAllLater ∈ d.eloop → .sendAllLater ∈ after.eloop

section Lists

variable {d : Device} {steady : Prop} {subs : List Nat}

variable {i : Nat}

theorem Subs.find (sound : d.Subs steady subs) (member : i ∈ subs) :
    ∃ s, d.subscription i = some s ∧ s.id = i ∧ ∃ q, (d.outbox s).Sound q := by
  cases here : d.subscription i with
  | none => exact absurd here ((sound.live i).mpr member)
  | some s => exact ⟨s, rfl, sound.each i s here⟩

variable {s : Subscription}

theorem Subs.mem (sound : d.Subs steady subs) (here : d.subscription i = some s) : i ∈ subs :=
  (sound.live i).mp (by simp [here])

theorem eventOf_apart {callback : Callback} {i j e : Nat} (apart : i ≠ j)
    (about : callback.eventOf i = some e) : callback.eventOf j = none := by
  rcases Callback.eventOf_some about with rfl | rfl | rfl <;> simp [Callback.eventOf, apart]

theorem setOutbox_inj {t : Outbox} {u : Subscription} (id : t.s.id = i)
    (known : (d.setOutbox t).subscription i = some u) : t.s = u := by
  subst id
  simpa [Device.setOutbox] using known

variable {left : List Nat}

theorem Subs.setOutbox (sound : d.Subs steady subs) {after : Outbox}
    (here : d.subscription i = some s) (same : (d.outbox s).Same after) (final : after.Sound left) :
    (d.setOutbox after).Subs steady subs ∧ d.Frame (d.setOutbox after) ∧ d.Apart i (d.setOutbox after) := by
  obtain ⟨name, -⟩ := sound.each i s here
  have id : after.s.id = i := same.id.trans name
  have foreign : ∀ (callback : Callback) j e, j ≠ i → callback.eventOf j = some e →
      (callback ∈ after.eloop ↔ callback ∈ d.eloop) := by
    intro callback j e apart about
    refine same.foreign callback ?_ ?_
    · have other := eventOf_apart apart about
      rw [← name] at other
      exact other
    · rintro rfl
      cases about
  have found : ∀ {j : Nat} {t : Subscription}, (d.setOutbox after).subscription j = some t →
      (j = i ∧ t = after.s) ∨ (j ≠ i ∧ d.subscription j = some t) := by
    intro j t known
    by_cases same : j = i
    · subst same
      exact Or.inl ⟨rfl, by simpa [Device.setOutbox, id] using known.symm⟩
    · exact Or.inr ⟨same, by simpa [Device.setOutbox, id, same] using known⟩
  refine ⟨⟨sound.held, sound.count, sound.few, ?_, sound.old, ?_, ?_, ?_, ?_, final.nodup,
    final.later⟩, ⟨rfl, rfl, rfl, rfl, rfl, rfl, rfl, Nat.le_refl _, ?_⟩,
    ⟨?_, foreign, same.flag, same.timer⟩⟩
  · intro j
    by_cases same : j = i
    · subst same
      simp [Device.setOutbox, id, sound.mem here]
    · simpa [Device.setOutbox, id, same] using sound.live j
  · intro j t known
    rcases found known with ⟨rfl, rfl⟩ | ⟨apart, known⟩
    · exact ⟨id, left, final⟩
    · obtain ⟨name', q, sound'⟩ := sound.each j t known
      refine ⟨name', q, sound'.elsewhere ?_ final.nodup final.later⟩
      intro callback e about
      exact foreign callback j e apart (name' ▸ about)
  · intro steadily
    refine (sound.sorted steadily).imp ?_
    intro j k before first second known known'
    rcases found known with ⟨rfl, rfl⟩ | ⟨-, known⟩ <;>
      rcases found known' with ⟨rfl, rfl⟩ | ⟨-, known'⟩
    · exact Int.le_refl _
    · rw [same.timeoutTime]
      exact before s second here known'
    · rw [same.timeoutTime]
      exact before first s known here
    · exact before first second known known'
  · intro steadily j t known
    rcases found known with ⟨rfl, rfl⟩ | ⟨-, known⟩
    · rw [same.timeoutTime]
      exact sound.expiry steadily j s here
    · exact sound.expiry steadily j t known
  · intro callback member j e about
    by_cases same : j = i
    · subst same
      exact sound.mem here
    · exact sound.about callback ((foreign callback j e same about).mp member) j e about
  · intro callback foreign other
    exact same.foreign callback (foreign _) other
  · intro j apart
    simp [Device.setOutbox, id, apart]

variable {pre post : List Nat}

variable {after : Device} {i : Nat}

theorem Subs.unlink (sound : d.Subs steady (pre ++ i :: post)) :
    ∃ ring, ring.Holds (pre ++ post) ∧ d.subscriptionUnlink i =
      some { d with subscriptions := ring, nSubscriptions := d.nSubscriptions - 1 } := by
  obtain ⟨ring, unlinked, holds⟩ := sound.held.unlink_eq
  exact ⟨ring, holds, by rw [subscriptionUnlink, unlinked]; rfl⟩

theorem Subs.remove (sound : d.Subs steady (pre ++ i :: post)) :
    ∃ after, d.subscriptionRemove i = some after ∧ after.Subs steady (pre ++ post) ∧ d.Frame after ∧
      d.Apart i after ∧ after.clock = d.clock ∧
      after.eventSendAllQueued = d.eventSendAllQueued := by
  obtain ⟨ring, holds, unlinked⟩ := sound.unlink
  obtain ⟨s, here, name, q, good⟩ := sound.find (i := i) (by simp)
  obtain ⟨t, deleted, final, same, idle, flag⟩ := good.eventDeleteAll
  obtain ⟨sound', frame, apart⟩ := sound.setOutbox here same final
  have id : t.s.id = i := same.id.trans name
  have out : i ∉ pre ++ post := by
    have nodup := sound.held.nodup
    rw [nodup_middle] at nodup
    exact (nodup_cons.mp nodup).1
  have silent : ∀ callback ∈ t.eloop, ∀ e, callback.eventOf i ≠ some e := by
    intro callback member e about
    rw [← id] at about
    cases idle.symm.trans (final.registered callback member e about)
  have kept : ∀ {j : Nat} {u : Subscription},
      update (d.setOutbox t).subscription i none j = some u →
      j ≠ i ∧ (d.setOutbox t).subscription j = some u := by
    intro j u known
    by_cases same : j = i
    · subst same
      simp at known
    · exact ⟨same, by simpa [same] using known⟩
  refine ⟨{ d.setOutbox t with
      subscriptions := ring, nSubscriptions := d.nSubscriptions - 1,
      subscription := update (d.setOutbox t).subscription i none }, ?_, ?_, frame.trans ?_,
    ⟨?_, apart.events, apart.flag, apart.timer⟩, rfl, flag⟩
  · rw [subscriptionRemove, unlinked]
    simp only [bind_eq_bind, bind_some, subscriptionDestroy, here]
    rw [show Device.outbox { d with subscriptions := ring, nSubscriptions := d.nSubscriptions - 1 }
      s = d.outbox s from rfl, deleted]
    rfl
  · refine ⟨holds, ?_, ?_, ?_, ?_, ?_, ?_, ?_, ?_, final.nodup, final.later⟩
    · have count := sound.count
      simp only [count, length_append, length_cons]
      omega
    · have few := sound.few
      simp only [length_append, length_cons] at few ⊢
      omega
    · intro j
      by_cases same : j = i
      · subst same
        simp [out]
      · have live := sound'.live j
        simpa [same] using live
    · intro j member
      exact sound.old j ((show (pre ++ post).Sublist (pre ++ i :: post) by simp).subset member)
    · intro j u known
      obtain ⟨-, known⟩ := kept known
      exact sound'.each j u known
    · intro steadily
      have sorted := (sound'.sorted steadily).sublist
        (show (pre ++ post).Sublist (pre ++ i :: post) by simp)
      refine sorted.imp ?_
      intro j k before first second known known'
      exact before first second (kept known).2 (kept known').2
    · intro steadily j u known
      exact sound'.expiry steadily j u (kept known).2
    · intro callback member j e about
      have listed := sound'.about callback member j e about
      have apart : j ≠ i := by
        rintro rfl
        exact silent callback member e about
      simpa [apart] using listed
  · exact ⟨rfl, rfl, rfl, rfl, rfl, rfl, rfl, Nat.le_refl _, fun _ _ _ => Iff.rfl⟩
  · intro j apart'
    have known := apart.others j apart'
    simpa [apart'] using known

/-- The parts of the state that removing subscriptions keeps. -/
structure Kept (d after : Device) (left : List Nat) : Prop where
  frame : d.Frame after
  clock : after.clock = d.clock
  flag : after.eventSendAllQueued = d.eventSendAllQueued
  timer : .sendAllLater ∈ d.eloop → .sendAllLater ∈ after.eloop
  others : ∀ i ∈ left, after.subscription i = d.subscription i
  events : ∀ (callback : Callback) i e, i ∈ left → callback.eventOf i = some e →
    (callback ∈ after.eloop ↔ callback ∈ d.eloop)

theorem Kept.refl (d : Device) (left : List Nat) : d.Kept d left :=
  ⟨.refl d, rfl, rfl, fun timer => timer, fun _ _ => rfl, fun _ _ _ _ _ => Iff.rfl⟩

theorem Kept.trans {middle after : Device} {fewer : List Nat} (early : d.Kept middle left)
    (late : middle.Kept after fewer) (less : fewer ⊆ left) : d.Kept after fewer := by
  refine ⟨early.frame.trans late.frame, late.clock.trans early.clock, late.flag.trans early.flag,
    fun timer => late.timer (early.timer timer), ?_, ?_⟩
  · intro i member
    exact (late.others i member).trans (early.others i (less member))
  · intro callback i e member about
    exact (late.events callback i e member about).trans
      (early.events callback i e (less member) about)

theorem Subs.remove_kept {i : Nat} (sound : d.Subs steady (pre ++ i :: post)) :
    ∃ after, d.subscriptionRemove i = some after ∧ after.Subs steady (pre ++ post) ∧
      d.Kept after (pre ++ post) := by
  obtain ⟨after, removed, sound', frame, apart, clock, flag⟩ := sound.remove
  have out : i ∉ pre ++ post := by
    have nodup := sound.held.nodup
    rw [nodup_middle] at nodup
    exact (nodup_cons.mp nodup).1
  have other : ∀ {j : Nat}, j ∈ pre ++ post → j ≠ i := by
    rintro j member rfl
    exact out member
  refine ⟨after, removed, sound', frame, clock, flag, apart.timer, ?_, ?_⟩
  · intro j member
    exact apart.others j (other member)
  · intro callback j e member about
    exact apart.events callback j e (other member) about

theorem Subs.head_first (sound : d.Subs steady (i :: post)) (steadily : steady)
    (here : d.subscription i = some s) :
    ∀ j ∈ i :: post, ∀ t, d.subscription j = some t → s.timeoutTime ≤ t.timeoutTime := by
  intro j member t known
  rcases mem_cons.mp member with rfl | member
  · cases here.symm.trans known
    exact Int.le_refl _
  · exact (pairwise_cons.mp (sound.sorted steadily)).1 j member s t here known

theorem Subs.age {fuel : Nat} (sound : d.Subs steady subs) (now : Int) (enough : subs.length ≤ fuel) :
    ∃ after left, ageLoop now fuel d = some after ∧ after.Subs steady left ∧ d.Kept after left ∧
      left <:+ subs ∧ (steady → ∀ i s, after.subscription i = some s → now ≤ s.timeoutTime) := by
  induction subs generalizing d fuel with
  | nil =>
    have head : d.subscriptions.head = none := sound.held.head
    refine ⟨d, [], ?_, sound, .refl d [], suffix_rfl, ?_⟩
    · cases fuel <;> rw [ageLoop, head]
    · intro _ i s here
      cases sound.mem here
  | cons i rest ih =>
    obtain ⟨fuel, rfl⟩ : ∃ k, fuel = k + 1 := ⟨fuel - 1, by simp at enough; omega⟩
    have head : d.subscriptions.head = some i := sound.held.head
    obtain ⟨s, here, -⟩ := sound.find (i := i) (by simp)
    rw [ageLoop, head]
    simp only [bind_eq_bind, here, bind_some]
    split
    next expired =>
      obtain ⟨middle, removed, sound', kept⟩ := @Subs.remove_kept d steady [] rest i sound
      obtain ⟨after, left, done, final, kept', suffix, fresh⟩ := ih sound' (by simpa using enough)
      refine ⟨after, left, by rw [removed]; exact done, final, ?_,
        suffix.trans (suffix_cons i rest), fresh⟩
      exact kept.trans kept' suffix.subset
    next valid =>
      refine ⟨d, i :: rest, rfl, sound, .refl d _, suffix_rfl, ?_⟩
      intro steadily j t known
      have order := sound.head_first steadily here j (sound.mem known) t known
      omega

theorem Subs.listAge (sound : d.Subs steady subs) (now : Int) :
    ∃ after left, d.subscriptionListAge now = some after ∧ after.Subs steady left ∧ d.Kept after left ∧
      left <:+ subs ∧ (steady → ∀ i s, after.subscription i = some s → now ≤ s.timeoutTime) := by
  apply sound.age now
  rw [sound.count]
  simp

theorem Subs.findLoop {uuid : Bytes} {i fuel : Nat} (sound : d.Subs steady (pre ++ i :: post))
    (enough : post.length < fuel) :
    ∃ found, d.findLoop uuid fuel i = some found ∧ ∀ j, found = some j → j ∈ pre ++ i :: post := by
  induction post generalizing pre i fuel with
  | nil =>
    obtain ⟨fuel, rfl⟩ : ∃ k, fuel = k + 1 := ⟨fuel - 1, by omega⟩
    obtain ⟨s, here, -⟩ := sound.find (i := i) (by simp)
    rw [Device.findLoop]
    simp only [bind_eq_bind, here, bind_some]
    split
    · refine ⟨some i, rfl, ?_⟩
      rintro j ⟨⟩
      simp
    · have next : d.subscriptions.next i = d.subscriptions.head := sound.held.next_last
      obtain ⟨first, head⟩ : ∃ first, d.subscriptions.head = some first := by
        rw [sound.held.head]
        cases pre <;> simp
      rw [next, head]
      refine ⟨none, by simp, ?_⟩
      rintro j ⟨⟩
  | cons k post ih =>
    obtain ⟨fuel, rfl⟩ : ∃ k, fuel = k + 1 := ⟨fuel - 1, by omega⟩
    obtain ⟨s, here, -⟩ := sound.find (i := i) (by simp)
    rw [Device.findLoop]
    simp only [bind_eq_bind, here, bind_some]
    split
    · refine ⟨some i, rfl, ?_⟩
      rintro j ⟨⟩
      simp
    · have next : d.subscriptions.next i = some k := sound.held.next_inner
      have apart : d.subscriptions.head ≠ some k := sound.held.head_apart (by simp)
      have sound' : d.Subs steady ((pre ++ [i]) ++ k :: post) := by simpa using sound
      obtain ⟨found, done, inside⟩ := ih sound' (by simpa using enough)
      rw [next]
      simp only [bind_some, if_neg apart]
      exact ⟨found, done, fun j same => by simpa using inside j same⟩

theorem Subs.subscriptionFind (sound : d.Subs steady subs) (uuid : Bytes) :
    ∃ found, d.subscriptionFind uuid = some found ∧ ∀ j, found = some j → j ∈ subs := by
  rw [Device.subscriptionFind, sound.held.head]
  cases subs with
  | nil => exact ⟨none, rfl, by simp⟩
  | cons i rest =>
    apply @Subs.findLoop d steady [] rest uuid i _ sound
    rw [sound.count]
    simp

structure Awake (d : Device) : Prop where
  flagged : d.eventSendAllQueued = true → .sendAllLater ∈ d.eloop
  each : ∀ i s, d.subscription i = some s → (d.outbox s).Awake

theorem awake_elsewhere {after : Device} {s : Subscription} (awake : (d.outbox s).Awake)
    (flagged : after.eventSendAllQueued = true → .sendAllLater ∈ after.eloop)
    (flag : d.eventSendAllQueued = true → after.eventSendAllQueued = true)
    (events : ∀ (callback : Callback) e, callback.eventOf s.id = some e →
      (callback ∈ after.eloop ↔ callback ∈ d.eloop)) : (after.outbox s).Awake := by
  refine ⟨flagged, ?_, ?_⟩
  · intro addresses idle more
    exact flag (awake.waits addresses idle more)
  · intro e current
    obtain ⟨timer, open'⟩ := awake.timed e current
    exact ⟨(events _ e (Callback.eventOf_timeout s.id e)).mpr timer,
      open'.imp (events _ e (Callback.eventOf_txReady s.id e)).mpr
        (events _ e (Callback.eventOf_response s.id e)).mpr⟩

theorem awake_apart (sound : d.Subs steady subs)
    (others : ∀ j s, j ≠ i → d.subscription j = some s → (d.outbox s).Awake)
    (apart : d.Apart i after) (here : ∀ s, after.subscription i = some s → (after.outbox s).Awake)
    (flagged : after.eventSendAllQueued = true → .sendAllLater ∈ after.eloop) : after.Awake := by
  refine ⟨flagged, ?_⟩
  intro j s known
  by_cases same : j = i
  · subst same
    exact here s known
  · rw [apart.others j same] at known
    apply awake_elsewhere (others j s same known) flagged apart.flag
    intro callback e about
    rw [(sound.each j s known).1] at about
    exact apart.events callback j e same about

theorem awake_kept (sound : d.Subs steady subs) (sound' : after.Subs steady left)
    (kept : d.Kept after left) (flagged : d.eventSendAllQueued = true → .sendAllLater ∈ d.eloop)
    (each : ∀ i s, i ∈ left → d.subscription i = some s → (d.outbox s).Awake) : after.Awake := by
  have flagged : after.eventSendAllQueued = true → .sendAllLater ∈ after.eloop := by
    intro queued
    exact kept.timer (flagged (kept.flag ▸ queued))
  refine ⟨flagged, ?_⟩
  intro i s known
  have member := sound'.mem known
  rw [kept.others i member] at known
  apply awake_elsewhere (each i s member known) flagged (fun queued => kept.flag ▸ queued)
  intro callback e about
  rw [(sound.each i s known).1] at about
  exact kept.events callback i e member about

theorem Awake.kept (awake : d.Awake) (sound : d.Subs steady subs)
    (sound' : after.Subs steady left) (kept : d.Kept after left) : after.Awake :=
  awake_kept sound sound' kept awake.flagged fun i s _ => awake.each i s

theorem Subs.advance (sound : d.Subs steady subs) {now : Int} (clock : steady → d.clock ≤ now) :
    Subs { d with clock := now } steady subs := by
  refine ⟨sound.held, sound.count, sound.few, sound.live, sound.old, sound.each, sound.sorted, ?_,
    sound.about, sound.nodup, sound.later⟩
  intro steadily i s here
  have bound := sound.expiry steadily i s here
  have forward := clock steadily
  simp only
  omega

theorem sound_retimed {t : Outbox} {q : List Nat} (sound : t.Sound q) (expire : Int) :
    Outbox.Sound { t with s := { t.s with timeoutTime := expire } } q := by
  refine ⟨sound.queue, sound.count, sound.older, sound.waiting, ?_, sound.registered, sound.later,
    sound.nodup, sound.failures⟩
  intro e current
  obtain ⟨out, ev, here, sends⟩ := sound.sending e current
  exact ⟨out, ev, here, sends.address, sends.retries, sends.writes, sends.reads, sends.connected⟩

theorem Subs.renew (sound : d.Subs steady subs) {now : Int} (clock : steady → d.clock ≤ now)
    (uuid : Bytes) :
    ∃ after left, d.subscriptionRenew now uuid = some after ∧ after.Subs steady left ∧ d.Frame after ∧
      (d.Awake → after.Awake) := by
  have sound := sound.advance clock
  obtain ⟨found, finds, inside⟩ := sound.subscriptionFind uuid
  rw [subscriptionRenew]
  simp only [bind_eq_bind, finds, bind_some]
  have ahead : d.Frame { d with clock := now } :=
    ⟨rfl, rfl, rfl, rfl, rfl, rfl, rfl, Nat.le_refl _, fun _ _ _ => Iff.rfl⟩
  cases found with
  | none => exact ⟨_, subs, rfl, sound, ahead, fun awake => ⟨awake.flagged, awake.each⟩⟩
  | some i =>
    obtain ⟨pre, post, rfl⟩ := append_of_mem (inside i rfl)
    obtain ⟨ring, holds, unlinked⟩ := sound.unlink
    obtain ⟨s, here, name, q, good⟩ := sound.find (i := i) (by simp)
    have out : i ∉ pre ++ post := by
      have nodup := sound.held.nodup
      rw [nodup_middle] at nodup
      exact (nodup_cons.mp nodup).1
    obtain ⟨ring', linked, holds'⟩ := holds.linkToEnd_eq out
    have known : ∀ {j : Nat} {u : Subscription}, update d.subscription i
        (some { s with timeoutTime := now + upnpSubscribeSec }) j = some u →
        (j = i ∧ u = { s with timeoutTime := now + upnpSubscribeSec }) ∨
          (j ≠ i ∧ d.subscription j = some u) := by
      intro j u known
      by_cases same : j = i
      · subst same
        exact Or.inl ⟨rfl, by simpa using known.symm⟩
      · exact Or.inr ⟨same, by simpa [same] using known⟩
    refine ⟨{ d with
        clock := now, subscriptions := ring', nSubscriptions := d.nSubscriptions - 1 + 1,
        subscription := update d.subscription i
          (some { s with timeoutTime := now + upnpSubscribeSec }) }, pre ++ post ++ [i], ?_, ?_,
      ⟨rfl, rfl, rfl, rfl, rfl, rfl, rfl, Nat.le_refl _, fun _ _ _ => Iff.rfl⟩, ?_⟩
    · dsimp only
      rw [unlinked]
      simp only [bind_some, show d.subscription i = some s from here]
      simp [subscriptionLinkToEnd, linked]
    · refine ⟨holds', ?_, ?_, ?_, ?_, ?_, ?_, ?_, ?_, sound.nodup, sound.later⟩
      · have count := sound.count
        simp only [length_append, length_cons, length_nil] at count ⊢
        omega
      · have few := sound.few
        simp only [length_append, length_cons, length_nil] at few ⊢
        omega
      · intro j
        by_cases same : j = i
        · subst same
          simp
        · have live := sound.live j
          simpa [same] using live
      · intro j member
        have old := sound.old j
        simp only [mem_append, mem_cons, not_mem_nil, or_false] at member old
        exact old (by tauto)
      · intro j u here'
        rcases known here' with ⟨rfl, rfl⟩ | ⟨-, here'⟩
        · exact ⟨name, q, sound_retimed good _⟩
        · exact sound.each j u here'
      · intro steadily
        rw [pairwise_append]
        refine ⟨?_, pairwise_singleton _ _, ?_⟩
        · have sorted := (sound.sorted steadily).sublist
            (show (pre ++ post).Sublist (pre ++ i :: post) by simp)
          refine sorted.imp_of_mem ?_
          intro j k inside inside' before first second here' here''
          have apart : ∀ {m}, m ∈ pre ++ post → m ≠ i := by
            rintro m member rfl
            exact out member
          refine before first second ?_ ?_
          · simpa [apart inside] using here'
          · simpa [apart inside'] using here''
        · intro j member k last first second here' here''
          obtain rfl := mem_singleton.mp last
          have apart : j ≠ k := by
            rintro rfl
            exact out member
          rcases known here' with ⟨same, -⟩ | ⟨-, here'⟩
          · exact absurd same apart
          rcases known here'' with ⟨-, rfl⟩ | ⟨other, -⟩
          · exact sound.expiry steadily j first here'
          · exact absurd rfl other
      · intro steadily j u here'
        rcases known here' with ⟨rfl, rfl⟩ | ⟨-, here'⟩
        · exact Int.le_refl _
        · exact sound.expiry steadily j u here'
      · intro callback member j e about
        have listed := sound.about callback member j e about
        simp only [mem_append, mem_cons, not_mem_nil, or_false] at listed ⊢
        tauto
    · intro awake
      refine ⟨awake.flagged, ?_⟩
      intro j u here'
      rcases known here' with ⟨rfl, rfl⟩ | ⟨-, here'⟩
      · have before := awake.each j s here
        exact ⟨before.flagged, before.waits, before.timed⟩
      · exact awake.each j u here'

theorem Subs.unsubscribe (sound : d.Subs steady subs) (uuid : Bytes) :
    ∃ after left, d.webConnectionParseUnsubscribe uuid = some after ∧ after.Subs steady left ∧
      d.Frame after ∧ (d.Awake → after.Awake) := by
  obtain ⟨found, finds, inside⟩ := sound.subscriptionFind uuid
  rw [webConnectionParseUnsubscribe]
  simp only [bind_eq_bind, finds, bind_some]
  cases found with
  | none => exact ⟨d, subs, rfl, sound, .refl d, id⟩
  | some i =>
    obtain ⟨pre, post, rfl⟩ := append_of_mem (inside i rfl)
    obtain ⟨after, removed, sound', kept⟩ := sound.remove_kept
    exact ⟨after, pre ++ post, removed, sound', kept.frame,
      fun awake => awake.kept sound sound' kept⟩

def joined (d : Device) (ring : Lib.Ring Nat) (nAddr : Nat) (uuid : Bytes) : Device :=
  { d with
    allocated := d.allocated + 1,
    subscription := update d.subscription d.allocated
      (some (Outbox.created d.allocated nAddr uuid (d.clock + upnpSubscribeSec))),
    subscriptions := ring,
    nSubscriptions := d.nSubscriptions + 1 }

theorem Subs.link (sound : d.Subs steady subs) (room : (subs.length : Int) < maxSubscriptions)
    (nAddr : Nat) (uuid : Bytes) :
    ∃ ring, d.subscriptions.linkToEnd d.allocated = some ring ∧
      (d.joined ring nAddr uuid).Subs steady (subs ++ [d.allocated]) ∧
      d.Apart d.allocated (d.joined ring nAddr uuid) := by
  have out : d.allocated ∉ subs := fun member => Nat.lt_irrefl _ (sound.old _ member)
  have known : ∀ {j : Nat} {u : Subscription} {ring : Lib.Ring Nat},
      (d.joined ring nAddr uuid).subscription j = some u →
      (j = d.allocated ∧ u = Outbox.created d.allocated nAddr uuid (d.clock + upnpSubscribeSec)) ∨
        (j ≠ d.allocated ∧ d.subscription j = some u) := by
    intro j u ring known
    by_cases same : j = d.allocated
    · subst same
      exact Or.inl ⟨rfl, by simpa [joined] using known.symm⟩
    · exact Or.inr ⟨same, by simpa [joined, same] using known⟩
  obtain ⟨ring, linked, holds⟩ := sound.held.linkToEnd_eq out
  refine ⟨ring, linked, ⟨holds, ?_, ?_, ?_, ?_, ?_, ?_, ?_, ?_, sound.nodup, sound.later⟩,
    ⟨?_, fun _ _ _ _ _ => Iff.rfl, fun flag => flag, fun timer => timer⟩⟩
  · have count := sound.count
    simp only [joined, count, length_append, length_cons, length_nil]
    omega
  · simp only [length_append, length_cons, length_nil]
    omega
  · intro j
    by_cases same : j = d.allocated
    · subst same
      simp [joined]
    · have live := sound.live j
      simpa [joined, same] using live
  · intro j member
    rcases mem_append.mp member with member | last
    · exact Nat.lt_succ_of_lt (sound.old j member)
    · obtain rfl := mem_singleton.mp last
      exact Nat.lt_succ_self _
  · intro j u here
    rcases known here with ⟨rfl, rfl⟩ | ⟨-, here⟩
    · refine ⟨rfl, [], ⟨Ring.holds_empty, rfl, fun _ lives => absurd rfl lives, by simp, ?_, ?_,
        sound.later, sound.nodup, ?_⟩⟩
      · intro e current
        cases current
      · intro callback member e about
        exact absurd (sound.about callback member d.allocated e about) out
      · intro e ev lives
        cases lives
    · exact sound.each j u here
  · intro steadily
    rw [pairwise_append]
    refine ⟨?_, pairwise_singleton _ _, ?_⟩
    · refine (sound.sorted steadily).imp_of_mem ?_
      intro j k inside inside' before first second here here'
      have apart : ∀ {m}, m ∈ subs → m ≠ d.allocated := by
        rintro m member rfl
        exact out member
      refine before first second ?_ ?_
      · simpa [joined, apart inside] using here
      · simpa [joined, apart inside'] using here'
    · intro j member k last first second here here'
      obtain rfl := mem_singleton.mp last
      rcases known here with ⟨rfl, -⟩ | ⟨-, here⟩
      · exact absurd member out
      rcases known here' with ⟨-, rfl⟩ | ⟨other, -⟩
      · exact sound.expiry steadily j first here
      · exact absurd rfl other
  · intro steadily j u here
    rcases known here with ⟨rfl, rfl⟩ | ⟨-, here⟩
    · exact Int.le_refl _
    · exact sound.expiry steadily j u here
  · intro callback member j e about
    exact mem_append_left _ (sound.about callback member j e about)
  · intro j apart
    simp [joined, apart]

theorem Subs.room (sound : d.Subs steady subs) :
    ∃ after left, d.subscriptionMakeRoom = some after ∧
      after.Subs steady left ∧ d.Kept after left ∧ (left.length : Int) < maxSubscriptions := by
  unfold subscriptionMakeRoom
  split
  next full =>
    cases subs with
    | nil =>
      rw [sound.count] at full
      exact absurd full (by decide)
    | cons i rest =>
      have head : d.subscriptions.head = some i := sound.held.head
      obtain ⟨after, removed, sound', kept⟩ := @Subs.remove_kept d steady [] rest i sound
      refine ⟨after, rest, by rw [head]; exact removed, sound', kept, ?_⟩
      have few := sound.few
      rw [length_cons] at few
      omega
  next room =>
    refine ⟨d, subs, rfl, sound, .refl d subs, ?_⟩
    rw [← sound.count]
    omega

theorem joined_frame (d : Device) (ring : Lib.Ring Nat) (nAddr : Nat) (uuid : Bytes) :
    d.Frame (d.joined ring nAddr uuid) :=
  ⟨rfl, rfl, rfl, rfl, rfl, rfl, rfl, Nat.le_succ _, fun _ _ _ => Iff.rfl⟩

theorem eventSendAllLater_queued (queued : d.eventSendAllQueued = true) (registers : Bool) :
    d.eventSendAllLater registers = d := by
  rw [eventSendAllLater, if_pos queued]

theorem Subs.firstEvent (sound : d.Subs steady (subs ++ [i])) (here : d.subscription i = some s)
    (idle : s.currentEvent = none) (data : Bytes) (firstEvent registers : Bool) :
    ∃ after left, ((d.outbox s).eventAdd data firstEvent registers).bind (fun added =>
        if added.2 = true then (d.setOutbox added.1).subscriptionRemove i
        else some ((d.setOutbox added.1).eventSendAllLater registers)) = some after ∧
      after.Subs steady left ∧ d.Frame after ∧
      ((∀ j s, j ≠ i → d.subscription j = some s → (d.outbox s).Awake) → registers = true →
        (d.eventSendAllQueued = true → .sendAllLater ∈ d.eloop) → after.Awake) := by
  obtain ⟨name, q, good⟩ := sound.each i s here
  obtain ⟨t, failed, left, added, does, -, unchanged, queued, timed⟩ :=
    @Outbox.Sound.eventAdd _ q registers (fun _ => True) good data firstEvent
  obtain ⟨sound', frame, apart⟩ := sound.setOutbox here does.same does.sound
  have id : t.s.id = i := does.same.id.trans name
  rw [added]
  cases failed with
  | true =>
    obtain ⟨after, removed, sound'', kept⟩ := @Subs.remove_kept _ steady subs [] i sound'
    simp only [bind_some, if_true]
    refine ⟨after, subs ++ [], removed, sound'', frame.trans kept.frame, ?_⟩
    intro others _ flagged
    have out : i ∉ subs := fun member => disjoint_of_nodup_append sound.held.nodup member (by simp)
    obtain rfl := unchanged rfl
    refine awake_kept sound' sound'' kept flagged ?_
    intro j u member known
    have other : j ≠ i := by
      rintro rfl
      exact out (by simpa using member)
    rw [apart.others j other] at known
    exact others j u other known
  | false =>
    have busy : (d.setOutbox t).eventSendAllQueued = true := queued rfl
    simp only [bind_some]
    rw [eventSendAllLater_queued busy]
    refine ⟨_, subs ++ [i], rfl, sound', frame, ?_⟩
    intro others works flagged
    refine awake_apart sound others apart ?_ (does.flagged works flagged)
    intro u known
    obtain rfl := setOutbox_inj id known
    refine ⟨does.flagged works flagged, fun _ _ _ => busy, ?_⟩
    apply timed
    intro e current
    cases idle.symm.trans current

theorem Subs.start (sound : d.Subs steady subs) {r : Subscribe} (clock : steady → d.clock ≤ r.now)
    (registers : Bool) :
    ∃ after left, d.subscriptionStart r registers = some after ∧ after.Subs steady left ∧
      d.Frame after ∧ (registers = true → d.Awake → after.Awake) := by
  have first := sound.advance clock
  obtain ⟨second, _, aged, sound2, kept2, -⟩ := first.listAge r.now
  obtain ⟨third, left, made, sound3, kept3, room⟩ := sound2.room
  have ahead : d.Frame { d with clock := r.now } :=
    ⟨rfl, rfl, rfl, rfl, rfl, rfl, rfl, Nat.le_refl _, fun _ _ _ => Iff.rfl⟩
  have frame := ahead.trans (kept2.frame.trans kept3.frame)
  have awake3 : d.Awake → third.Awake := by
    intro awake
    have awake1 : Awake { d with clock := r.now } := ⟨awake.flagged, awake.each⟩
    exact (awake1.kept first sound2 kept2).kept sound2 sound3 kept3
  have time : third.clock = r.now := kept3.clock.trans kept2.clock
  rw [subscriptionStart]
  simp only [bind_eq_bind, aged, made, bind_some]
  split
  · exact ⟨third, left, rfl, sound3, frame, fun _ => awake3⟩
  · obtain ⟨ring, linked, sound4, apart4⟩ := sound3.link room r.nAddr r.uuid
    have here : (third.joined ring r.nAddr r.uuid).subscription third.allocated =
        some (Outbox.created third.allocated r.nAddr r.uuid (third.clock + upnpSubscribeSec)) :=
      update_self ..
    obtain ⟨after, final, done, sound5, frame5, awake5⟩ :=
      sound4.firstEvent here rfl r.data r.firstEvent registers
    refine ⟨after, final, ?_, sound5, (frame.trans (joined_frame ..)).trans frame5, ?_⟩
    · rw [subscriptionLinkToEnd, linked, ← time]
      exact done
    · intro works awake
      apply awake5 ?_ works (awake3 awake).flagged
      intro j u other known
      rw [apart4.others j other] at known
      exact (awake3 awake).each j u known

end Lists

end Device

end AthApps.Upnp
