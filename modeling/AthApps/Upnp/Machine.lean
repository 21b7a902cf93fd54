import AthApps.Upnp.Sender

/-!
# Calls into the device

What holds of the lists of web connections and of pending replies, and what one
call into the module does to all three lists.  Two paths have no result: a web
connection whose reader cannot be made is stopped before it is linked, and an
event for the only subscriber that cannot be queued.
-/

set_option autoImplicit false

namespace AthApps.Upnp

open AthApps.Lib Option List

namespace Device

structure Webs (d : Device) (webs : List Nat) : Prop where
  held : d.webConnections.Holds webs
  count : d.nWebConnections = webs.length
  few : (webs.length : Int) ≤ maxWebConnections
  live : ∀ c, d.webConnection c ≠ none ↔ c ∈ webs
  reader : ∀ c w, d.webConnection c = some w → w.hread = true
  old : ∀ c ∈ webs, c < d.allocated
  about : ∀ c, .webRequest c ∈ d.eloop → c ∈ webs

structure Replies (d : Device) (replies : List Nat) : Prop where
  held : d.msearchReplies.Holds replies
  count : d.nMsearchReplies = replies.length
  few : (replies.length : Int) ≤ maxMsearch
  live : ∀ a, d.msearchReply a ≠ none ↔ a ∈ replies
  old : ∀ a ∈ replies, a < d.allocated

/-- The timeout of a reply to M-SEARCH belongs to a reply that is pending. -/
def Tended (d : Device) : Prop := ∀ a, .msearchReply a ∈ d.eloop → d.msearchReply a ≠ none

section Frames

variable {d after : Device} {steady : Prop} {subs webs replies : List Nat}

structure SameWebs (d after : Device) : Prop where
  webConnections : after.webConnections = d.webConnections
  nWebConnections : after.nWebConnections = d.nWebConnections
  webConnection : after.webConnection = d.webConnection
  allocated : d.allocated ≤ after.allocated
  about : ∀ c, .webRequest c ∈ after.eloop → .webRequest c ∈ d.eloop

/-- Nothing is done to the replies; a timeout may be lost. -/
structure SameReplies (d after : Device) : Prop where
  msearchReplies : after.msearchReplies = d.msearchReplies
  nMsearchReplies : after.nMsearchReplies = d.nMsearchReplies
  msearchReply : after.msearchReply = d.msearchReply
  allocated : d.allocated ≤ after.allocated
  about : ∀ a, .msearchReply a ∈ after.eloop → .msearchReply a ∈ d.eloop

theorem Frame.sameWebs (frame : d.Frame after) : d.SameWebs after :=
  ⟨frame.webConnections, frame.nWebConnections, frame.webConnection, frame.allocated,
    fun _ => (frame.eloop _ (fun _ => rfl) (by simp)).mp⟩

theorem Frame.sameReplies (frame : d.Frame after) : d.SameReplies after :=
  ⟨frame.msearchReplies, frame.nMsearchReplies, frame.msearchReply, frame.allocated,
    fun _ => (frame.eloop _ (fun _ => rfl) (by simp)).mp⟩

theorem Webs.same (sound : d.Webs webs) (same : d.SameWebs after) : after.Webs webs := by
  refine ⟨same.webConnections ▸ sound.held, same.nWebConnections ▸ sound.count, sound.few,
    same.webConnection ▸ sound.live, same.webConnection ▸ sound.reader, ?_, ?_⟩
  · intro c member
    exact Nat.lt_of_lt_of_le (sound.old c member) same.allocated
  · intro c member
    exact sound.about c (same.about c member)

theorem Replies.same (sound : d.Replies replies) (same : d.SameReplies after) :
    after.Replies replies := by
  refine ⟨same.msearchReplies ▸ sound.held, same.nMsearchReplies ▸ sound.count, sound.few,
    same.msearchReply ▸ sound.live, ?_⟩
  intro a member
  exact Nat.lt_of_lt_of_le (sound.old a member) same.allocated

theorem Tended.same (tended : d.Tended) (same : d.SameReplies after) : after.Tended := by
  intro a member
  rw [same.msearchReply]
  exact tended a (same.about a member)

/-- What the functions on web connections and replies leave alone. -/
structure Aside (d after : Device) : Prop where
  subscriptions : after.subscriptions = d.subscriptions
  nSubscriptions : after.nSubscriptions = d.nSubscriptions
  subscription : after.subscription = d.subscription
  queued : after.eventSendAllQueued = d.eventSendAllQueued
  clock : after.clock = d.clock
  allocated : d.allocated ≤ after.allocated
  nodup : d.eloop.Nodup → after.eloop.Nodup
  events : ∀ (callback : Callback) i e, callback.eventOf i = some e →
    (callback ∈ after.eloop ↔ callback ∈ d.eloop)
  timer : .sendAllLater ∈ after.eloop ↔ .sendAllLater ∈ d.eloop

theorem Aside.refl (d : Device) : d.Aside d :=
  ⟨rfl, rfl, rfl, rfl, rfl, Nat.le_refl _, fun nodup => nodup, fun _ _ _ _ => Iff.rfl, Iff.rfl⟩

theorem Aside.trans {middle : Device} (early : d.Aside middle) (late : middle.Aside after) :
    d.Aside after :=
  ⟨late.subscriptions.trans early.subscriptions, late.nSubscriptions.trans early.nSubscriptions,
    late.subscription.trans early.subscription, late.queued.trans early.queued,
    late.clock.trans early.clock, early.allocated.trans late.allocated,
    fun nodup => late.nodup (early.nodup nodup),
    fun callback i e about => (late.events callback i e about).trans
      (early.events callback i e about), late.timer.trans early.timer⟩

theorem Subs.aside (sound : d.Subs steady subs) (aside : d.Aside after) : after.Subs steady subs := by
  have nodup := aside.nodup sound.nodup
  have later : .sendAllLater ∈ after.eloop → after.eventSendAllQueued = true := by
    intro member
    rw [aside.queued]
    exact sound.later (aside.timer.mp member)
  refine ⟨aside.subscriptions ▸ sound.held, aside.nSubscriptions ▸ sound.count, sound.few,
    aside.subscription ▸ sound.live, ?_, ?_, ?_, ?_, ?_, nodup, later⟩
  · intro i member
    exact Nat.lt_of_lt_of_le (sound.old i member) aside.allocated
  · intro i s here
    rw [aside.subscription] at here
    obtain ⟨name, q, good⟩ := sound.each i s here
    exact ⟨name, q, good.elsewhere (fun callback e about => aside.events callback _ e about) nodup
      later⟩
  · intro steadily
    refine (sound.sorted steadily).imp ?_
    intro i j before s t here here'
    rw [aside.subscription] at here here'
    exact before s t here here'
  · intro steadily i s here
    rw [aside.subscription] at here
    rw [aside.clock]
    exact sound.expiry steadily i s here
  · intro callback member i e about
    exact sound.about callback ((aside.events callback i e about).mp member) i e about

theorem Awake.aside (awake : d.Awake) (aside : d.Aside after) : after.Awake := by
  have flagged : after.eventSendAllQueued = true → .sendAllLater ∈ after.eloop := by
    intro queued
    rw [aside.queued] at queued
    exact aside.timer.mpr (awake.flagged queued)
  refine ⟨flagged, ?_⟩
  intro i s here
  rw [aside.subscription] at here
  apply awake_elsewhere (awake.each i s here) flagged
  · intro queued
    rw [aside.queued]
    exact queued
  · intro callback e about
    exact aside.events callback _ e about

end Frames

def Outside (callback : Callback) : Prop :=
  callback ≠ .sendAllLater ∧ ∀ i, callback.eventOf i = none

variable {callback : Callback}

theorem cancel_aside (d : Device) (outside : Outside callback) : d.Aside (d.cancel callback) := by
  refine ⟨rfl, rfl, rfl, rfl, rfl, Nat.le_refl _, fun nodup => nodup_cancel nodup, ?_, ?_⟩
  · intro other i e about
    have apart : other ≠ callback := by
      rintro rfl
      cases (outside.2 i).symm.trans about
    simp [cancel, apart]
  · simp [cancel, Ne.symm outside.1]

theorem register_aside (d : Device) (outside : Outside callback)
    (unused : callback ∉ d.eloop) : d.Aside (d.register callback) := by
  refine ⟨rfl, rfl, rfl, rfl, rfl, Nat.le_refl _,
    fun nodup => nodup_cons.mpr ⟨unused, nodup⟩, ?_, ?_⟩
  · intro other i e about
    have apart : other ≠ callback := by
      rintro rfl
      cases (outside.2 i).symm.trans about
    simp [register, apart]
  · simp [register, Ne.symm outside.1]

theorem fires_aside (d : Device) (outside : Outside callback) : d.Aside (d.fires callback) := by
  refine ⟨rfl, rfl, rfl, rfl, rfl, Nat.le_refl _, fun nodup => nodup.erase _, ?_, ?_⟩
  · intro other i e about
    apply mem_erase_of_ne
    rintro rfl
    cases (outside.2 i).symm.trans about
  · exact mem_erase_of_ne (Ne.symm outside.1)

theorem outside_webRequest (c : Nat) : Outside (.webRequest c) := ⟨by simp, fun _ => rfl⟩

theorem outside_msearchReply (a : Nat) : Outside (.msearchReply a) := ⟨by simp, fun _ => rfl⟩

theorem outside_webListener : Outside .webListener := ⟨by simp, fun _ => rfl⟩

theorem outside_ssdpListener : Outside .ssdpListener := ⟨by simp, fun _ => rfl⟩

theorem outside_advertisement : Outside .advertisement := ⟨by simp, fun _ => rfl⟩

/-- No number has been given to an object for the second time. -/
structure Fresh (d : Device) : Prop where
  webs : ∀ c, .webRequest c ∈ d.eloop → c < d.allocated
  replies : ∀ a, .msearchReply a ∈ d.eloop → a < d.allocated
  idle : d.started = false → .webListener ∉ d.eloop ∧ .ssdpListener ∉ d.eloop

section Lists

variable {d after : Device} {steady : Prop} {subs : List Nat}

theorem Fresh.frame (fresh : d.Fresh) (frame : d.Frame after) : after.Fresh := by
  refine ⟨?_, ?_, ?_⟩
  · intro c member
    exact Nat.lt_of_lt_of_le (fresh.webs c ((frame.eloop _ (fun _ => rfl) (by simp)).mp member))
      frame.allocated
  · intro a member
    exact Nat.lt_of_lt_of_le (fresh.replies a ((frame.eloop _ (fun _ => rfl) (by simp)).mp member))
      frame.allocated
  · intro idle
    rw [frame.started] at idle
    obtain ⟨web, ssdp⟩ := fresh.idle idle
    exact ⟨fun member => web ((frame.eloop _ (fun _ => rfl) (by simp)).mp member),
      fun member => ssdp ((frame.eloop _ (fun _ => rfl) (by simp)).mp member)⟩

/-- Something is stopped: handlers are cancelled and none is registered. -/
structure Less (d after : Device) : Prop where
  aside : d.Aside after
  started : after.started = d.started
  allocated : after.allocated = d.allocated
  fewer : ∀ callback ∈ after.eloop, callback ∈ d.eloop

theorem Less.refl (d : Device) : d.Less d := ⟨.refl d, rfl, rfl, fun _ member => member⟩

theorem Less.trans {middle : Device} (early : d.Less middle) (late : middle.Less after) :
    d.Less after :=
  ⟨early.aside.trans late.aside, late.started.trans early.started,
    late.allocated.trans early.allocated,
    fun callback member => early.fewer callback (late.fewer callback member)⟩

theorem Fresh.less (fresh : d.Fresh) (less : d.Less after) : after.Fresh := by
  refine ⟨?_, ?_, ?_⟩
  · intro c member
    rw [less.allocated]
    exact fresh.webs c (less.fewer _ member)
  · intro a member
    rw [less.allocated]
    exact fresh.replies a (less.fewer _ member)
  · intro idle
    rw [less.started] at idle
    obtain ⟨web, ssdp⟩ := fresh.idle idle
    exact ⟨fun member => web (less.fewer _ member), fun member => ssdp (less.fewer _ member)⟩

variable {callback : Callback}

theorem cancel_less (d : Device) (outside : Outside callback) : d.Less (d.cancel callback) :=
  ⟨cancel_aside d outside, rfl, rfl, fun _ member => (mem_cancel.mp member).1⟩

theorem fires_less (d : Device) (outside : Outside callback) : d.Less (d.fires callback) :=
  ⟨fires_aside d outside, rfl, rfl, fun _ member => mem_of_mem_erase member⟩

theorem webConnectionStop_less {c : Nat} (stops : d.webConnectionStop c = some after) :
    d.Less after := by
  obtain ⟨w, -, stops⟩ := bind_eq_some_iff.mp stops
  obtain ⟨ring, -, stops⟩ := bind_eq_some_iff.mp stops
  cases stops
  have less : d.Less (if w.hread = true then d.cancel (.webRequest c) else d) := by
    split
    · exact cancel_less d (outside_webRequest c)
    · exact .refl d
  obtain ⟨aside, started, allocated, fewer⟩ := less
  exact ⟨⟨aside.subscriptions, aside.nSubscriptions, aside.subscription, aside.queued, aside.clock,
    aside.allocated, aside.nodup, aside.events, aside.timer⟩, started, allocated, fewer⟩

theorem msearchStop_less {a : Nat} (stops : d.msearchreplyStateMachineStop a = some after) :
    d.Less after := by
  obtain ⟨m, -, stops⟩ := bind_eq_some_iff.mp stops
  obtain ⟨ring, -, stops⟩ := bind_eq_some_iff.mp stops
  cases stops
  exact ⟨⟨rfl, rfl, rfl, rfl, rfl, Nat.le_refl _, fun nodup => nodup, fun _ _ _ _ => Iff.rfl,
    Iff.rfl⟩, rfl, rfl, fun _ member => member⟩

theorem stopWebLoop_less {fuel : Nat} (stops : stopWebLoop fuel d = some after) :
    d.Less after := by
  induction fuel generalizing d with
  | zero =>
    rw [stopWebLoop] at stops
    split at stops
    · cases stops
      exact .refl _
    · cases stops
  | succ fuel ih =>
    rw [stopWebLoop] at stops
    split at stops
    · cases stops
      exact .refl _
    · obtain ⟨middle, first, rest⟩ := bind_eq_some_iff.mp stops
      exact (webConnectionStop_less first).trans (ih rest)

theorem stopMsearchLoop_less {fuel : Nat} (stops : stopMsearchLoop fuel d = some after) :
    d.Less after := by
  induction fuel generalizing d with
  | zero =>
    rw [stopMsearchLoop] at stops
    split at stops
    · cases stops
      exact .refl _
    · cases stops
  | succ fuel ih =>
    rw [stopMsearchLoop] at stops
    split at stops
    · cases stops
      exact .refl _
    · obtain ⟨middle, first, rest⟩ := bind_eq_some_iff.mp stops
      exact (msearchStop_less first).trans (ih rest)

theorem Subs.stopLoop {fuel : Nat} (sound : d.Subs steady subs) (enough : subs.length ≤ fuel) :
    ∃ after, stopSubscriptionLoop fuel d = some after ∧ after.Subs steady [] ∧ d.Frame after := by
  induction subs generalizing d fuel with
  | nil =>
    have head : d.subscriptions.head = none := sound.held.head
    refine ⟨d, ?_, sound, .refl d⟩
    cases fuel <;> simp [stopSubscriptionLoop, head]
  | cons i rest ih =>
    obtain ⟨fuel, rfl⟩ : ∃ k, fuel = k + 1 := ⟨fuel - 1, by simp at enough; omega⟩
    have head : d.subscriptions.head = some i := sound.held.head
    obtain ⟨middle, removed, sound', kept⟩ := @Subs.remove_kept d steady [] rest i sound
    obtain ⟨after, done, final, frame⟩ := ih sound' (by simpa using enough)
    refine ⟨after, ?_, final, kept.frame.trans frame⟩
    rw [stopSubscriptionLoop, head]
    simp [removed, done]

theorem Subs.eventSendStopAll (sound : d.Subs steady []) :
    d.eventSendStopAll.Subs steady [] ∧ d.eventSendStopAll.Awake ∧
      (∀ callback ∈ d.eventSendStopAll.eloop, callback ∈ d.eloop) ∧
      ∀ callback ∈ d.eloop, callback ≠ .sendAllLater → callback ∈ d.eventSendStopAll.eloop := by
  have none : ∀ {i : Nat} {s : Subscription}, d.subscription i ≠ some s := by
    intro i s here
    cases sound.mem here
  have same : d.eventSendStopAll.subscription = d.subscription := by
    unfold Device.eventSendStopAll
    split <;> rfl
  have eloop : d.eventSendStopAll.eloop =
      if d.eventSendAllQueued = true then Upnp.cancel .sendAllLater d.eloop else d.eloop := by
    unfold Device.eventSendStopAll
    split <;> rfl
  have fewer : ∀ callback ∈ d.eventSendStopAll.eloop, callback ∈ d.eloop := by
    intro callback member
    rw [eloop] at member
    split at member
    · exact (mem_cancel.mp member).1
    · exact member
  have quiet : .sendAllLater ∉ d.eventSendStopAll.eloop := by
    intro member
    rw [eloop] at member
    split at member
    · exact (mem_cancel.mp member).2 rfl
    next idle => exact idle (sound.later member)
  refine ⟨⟨?_, ?_, sound.few, ?_, by simp, ?_, fun _ => List.Pairwise.nil, ?_, ?_, ?_, ?_⟩, ⟨?_, ?_⟩, fewer,
    ?_⟩
  · unfold Device.eventSendStopAll
    split <;> exact sound.held
  · unfold Device.eventSendStopAll
    split <;> exact sound.count
  · rw [same]
    exact sound.live
  · intro i s here
    rw [same] at here
    exact absurd here none
  · intro _ i s here
    rw [same] at here
    exact absurd here none
  · intro callback member i e about
    exact sound.about callback (fewer callback member) i e about
  · rw [eloop]
    split
    · exact nodup_cancel sound.nodup
    · exact sound.nodup
  · intro member
    exact absurd member quiet
  · intro queued
    cases queued
  · intro i s here
    rw [same] at here
    exact absurd here none
  · intro callback member other
    rw [eloop]
    split
    · exact mem_cancel.mpr ⟨member, other⟩
    · exact member

theorem Subs.stop (sound : d.Subs steady subs) (started : d.started = true)
    (stops : d.upnpWpsDeviceStop = some after) :
    after.Subs steady [] ∧ after.Awake ∧ after.started = false ∧ d.allocated ≤ after.allocated ∧
      (∀ callback : Callback, (∀ i, callback.eventOf i = none) → callback ≠ .sendAllLater →
        callback ∈ after.eloop → callback ∈ d.eloop) ∧
      .webListener ∉ after.eloop ∧ .ssdpListener ∉ after.eloop := by
  rw [upnpWpsDeviceStop, if_neg (by simp [started])] at stops
  obtain ⟨second, webs, stops⟩ := bind_eq_some_iff.mp stops
  obtain ⟨third, replies, stops⟩ := bind_eq_some_iff.mp stops
  obtain ⟨fourth, subscriptions, stops⟩ := bind_eq_some_iff.mp stops
  cases stops
  have less := (cancel_less d outside_webListener).trans
    ((stopWebLoop_less webs).trans (stopMsearchLoop_less replies))
  have sound3 := sound.aside less.aside
  obtain ⟨reached, done, sound4, frame⟩ := @Subs.stopLoop third steady subs
    third.nSubscriptions.toNat sound3 (by rw [sound3.count]; simp)
  cases subscriptions.symm.trans done
  have sound5 := sound4.aside (cancel_aside fourth outside_advertisement)
  obtain ⟨sound6, awake6, fewer6, -⟩ := sound5.eventSendStopAll
  have sound7 := sound6.aside (cancel_aside _ outside_ssdpListener)
  have awake7 := awake6.aside (cancel_aside _ outside_ssdpListener)
  have back : ∀ callback : Callback, (∀ i, callback.eventOf i = none) → callback ≠ .sendAllLater →
      callback ∈ ((fourth.cancel .advertisement).eventSendStopAll.cancel .ssdpListener).eloop →
      callback ∈ third.eloop := by
    intro callback foreign other member
    have earlier := fewer6 callback (mem_cancel.mp member).1
    exact (frame.eloop callback foreign other).mp (mem_cancel.mp earlier).1
  refine ⟨⟨sound7.held, sound7.count, sound7.few, sound7.live, sound7.old, sound7.each,
    sound7.sorted, sound7.expiry, sound7.about, sound7.nodup, sound7.later⟩,
    ⟨awake7.flagged, awake7.each⟩, rfl, ?_, ?_, ?_, ?_⟩
  · have same : ∀ (x : Device), x.eventSendStopAll.allocated = x.allocated := by
      intro x
      unfold Device.eventSendStopAll
      split <;> rfl
    exact (less.aside.allocated.trans frame.allocated).trans 
      (Nat.le_of_eq (same (fourth.cancel .advertisement)).symm)
  · intro callback foreign other member
    exact less.fewer callback (back callback foreign other member)
  · intro member
    have earlier := back .webListener (fun _ => rfl) (by simp) member
    have first := (stopWebLoop_less webs).trans (stopMsearchLoop_less replies)
    exact (mem_cancel.mp (first.fewer _ earlier)).2 rfl
  · intro member
    exact (mem_cancel.mp member).2 rfl

/-- What is kept along a run: the subscriptions, and that no number is used twice. -/
structure Kempt (d : Device) (steady : Prop) (subs : List Nat) : Prop where
  subs : d.Subs steady subs
  fresh : d.Fresh

theorem Kempt.frame {left : List Nat} (kempt : d.Kempt steady subs) (sound : after.Subs steady left)
    (frame : d.Frame after) : after.Kempt steady left :=
  ⟨sound, kempt.fresh.frame frame⟩

theorem Kempt.less (kempt : d.Kempt steady subs) (less : d.Less after) : after.Kempt steady subs :=
  ⟨kempt.subs.aside less.aside, kempt.fresh.less less⟩

theorem Kempt.stop (kempt : d.Kempt steady subs) (stops : d.upnpWpsDeviceStop = some after) :
    after.started = false ∧ (∃ left, after.Kempt steady left) ∧ (d.Awake → after.Awake) := by
  cases started : d.started with
  | false =>
    rw [upnpWpsDeviceStop, if_pos started] at stops
    cases stops
    exact ⟨started, ⟨subs, kempt⟩, id⟩
  | true =>
    obtain ⟨sound, awake, idle, allocated, back, noWeb, noSsdp⟩ := kempt.subs.stop started stops
    refine ⟨idle, ⟨[], sound, ?_, ?_, fun _ => ⟨noWeb, noSsdp⟩⟩, fun _ => awake⟩
    · intro c member
      exact Nat.lt_of_lt_of_le (kempt.fresh.webs c (back _ (fun _ => rfl) (by simp) member))
        allocated
    · intro a member
      exact Nat.lt_of_lt_of_le (kempt.fresh.replies a (back _ (fun _ => rfl) (by simp) member))
        allocated

/-- What may be registered, with an object that may be new. -/
structure Registers (d : Device) (callback : Callback) (after : Device) : Prop where
  eloop : after.eloop = callback :: d.eloop
  outside : Outside callback
  unused : callback ∉ d.eloop
  allocated : d.allocated ≤ after.allocated
  started : after.started = d.started
  webs : ∀ c, callback = .webRequest c → c < after.allocated
  replies : ∀ a, callback = .msearchReply a → a < after.allocated
  listeners : d.started = false → callback ≠ .webListener ∧ callback ≠ .ssdpListener
  subscriptions : after.subscriptions = d.subscriptions
  nSubscriptions : after.nSubscriptions = d.nSubscriptions
  subscription : after.subscription = d.subscription
  queued : after.eventSendAllQueued = d.eventSendAllQueued
  clock : after.clock = d.clock

theorem Registers.aside (registers : d.Registers callback after) : d.Aside after := by
  have same := register_aside d registers.outside registers.unused
  have eloop : after.eloop = (d.register callback).eloop := registers.eloop
  exact ⟨registers.subscriptions, registers.nSubscriptions, registers.subscription,
    registers.queued, registers.clock, registers.allocated, eloop ▸ same.nodup,
    eloop ▸ same.events, eloop ▸ same.timer⟩

theorem Kempt.register (kempt : d.Kempt steady subs)
    (registers : d.Registers callback after) : after.Kempt steady subs := by
  refine ⟨kempt.subs.aside registers.aside, ?_, ?_, ?_⟩
  · intro c member
    rw [registers.eloop] at member
    rcases mem_cons.mp member with same | member
    · exact registers.webs c same.symm
    · exact Nat.lt_of_lt_of_le (kempt.fresh.webs c member) registers.allocated
  · intro a member
    rw [registers.eloop] at member
    rcases mem_cons.mp member with same | member
    · exact registers.replies a same.symm
    · exact Nat.lt_of_lt_of_le (kempt.fresh.replies a member) registers.allocated
  · intro idle
    rw [registers.started] at idle
    obtain ⟨web, ssdp⟩ := kempt.fresh.idle idle
    obtain ⟨web', ssdp'⟩ := registers.listeners idle
    rw [registers.eloop]
    simp [web, ssdp, Ne.symm web', Ne.symm ssdp']

theorem registers_advertisement (unused : .advertisement ∉ d.eloop) :
    d.Registers .advertisement (d.register .advertisement) :=
  ⟨rfl, outside_advertisement, unused, Nat.le_refl _, rfl, by simp, by simp, by simp, rfl, rfl, rfl,
    rfl, rfl⟩

theorem Kempt.advertise (kempt : d.Kempt steady subs) (registers : Bool) :
    (d.advertisementStateMachineStart registers).Kempt steady subs ∧
      d.Aside (d.advertisementStateMachineStart registers) := by
  have less := cancel_less d outside_advertisement
  have unused : .advertisement ∉ (d.cancel .advertisement).eloop :=
    fun member => (mem_cancel.mp member).2 rfl
  unfold advertisementStateMachineStart
  dsimp only
  split
  · exact ⟨(kempt.less less).register (registers_advertisement unused),
      less.aside.trans (register_aside _ outside_advertisement unused)⟩
  · exact ⟨kempt.less less, less.aside⟩

/-- The states of a device that is being started. -/
structure SwitchedOn (d : Device) (steady : Prop) (subs : List Nat) (x : Device) : Prop where
  kempt : x.Kempt steady subs
  aside : d.Aside x

theorem Kempt.switchOn (kempt : d.Kempt steady subs) (idle : d.started = false) :
    d.SwitchedOn steady subs { d with started := true } ∧
      d.SwitchedOn steady subs (Device.register { d with started := true } .webListener) ∧
      d.SwitchedOn steady subs
        ((Device.register { d with started := true } .webListener).register .ssdpListener) := by
  obtain ⟨noWeb, noSsdp⟩ := kempt.fresh.idle idle
  have on : d.Aside { d with started := true } :=
    ⟨rfl, rfl, rfl, rfl, rfl, Nat.le_refl _, fun nodup => nodup, fun _ _ _ _ => Iff.rfl, Iff.rfl⟩
  have first : Kempt { d with started := true } steady subs :=
    ⟨kempt.subs.aside on, kempt.fresh.webs, kempt.fresh.replies, fun off => by cases off⟩
  have web : Registers { d with started := true } .webListener
      (Device.register { d with started := true } .webListener) :=
    ⟨rfl, outside_webListener, noWeb, Nat.le_refl _, rfl, by simp, by simp, by simp, rfl, rfl, rfl,
      rfl, rfl⟩
  have second := first.register web
  have listening := on.trans web.aside
  have ssdp : Registers (Device.register { d with started := true } .webListener) .ssdpListener
      ((Device.register { d with started := true } .webListener).register .ssdpListener) :=
    ⟨rfl, outside_ssdpListener, by simpa [Device.register] using noSsdp, Nat.le_refl _, rfl,
      by simp, by simp, by simp [Device.register], rfl, rfl, rfl, rfl, rfl⟩
  exact ⟨⟨first, on⟩, ⟨second, listening⟩, second.register ssdp, listening.trans ssdp.aside⟩

theorem Kempt.start {outcome : Start} (kempt : d.Kempt steady subs)
    (starts : d.upnpWpsDeviceStart outcome = some after) :
    (∃ left, after.Kempt steady left) ∧ (d.Awake → after.Awake) := by
  obtain ⟨second, stops, starts⟩ := bind_eq_some_iff.mp starts
  obtain ⟨idle, ⟨left, kempt2⟩, awake2⟩ := kempt.stop stops
  obtain ⟨on, listening, searched⟩ := kempt2.switchOn idle
  have stopped : ∀ {x : Device}, second.SwitchedOn steady left x →
      x.upnpWpsDeviceStop = some after →
      (∃ left, after.Kempt steady left) ∧ (d.Awake → after.Awake) := by
    intro x switched stops
    obtain ⟨-, final, awake⟩ := switched.kempt.stop stops
    exact ⟨final, fun before => awake ((awake2 before).aside switched.aside)⟩
  cases outcome with
  | noNetwork => exact stopped on starts
  | noWeb => exact stopped on starts
  | noSsdp => exact stopped listening starts
  | noMulticast => exact stopped searched starts
  | noAdvertisement =>
    obtain ⟨final, aside⟩ := searched.kempt.advertise false
    exact stopped ⟨final, searched.aside.trans aside⟩ starts
  | fine =>
    obtain ⟨final, aside⟩ := searched.kempt.advertise true
    cases starts
    exact ⟨⟨left, final⟩, fun before => (awake2 before).aside (searched.aside.trans aside)⟩

variable {memory registers : Bool}

theorem Kempt.webStart {hread : Bool} (kempt : d.Kempt steady subs)
    (starts : d.webConnectionStart memory hread = some after) :
    after.Kempt steady subs ∧ (d.Awake → after.Awake) := by
  unfold webConnectionStart at starts
  split at starts
  · cases starts
    exact ⟨kempt, id⟩
  split at starts
  · cases starts
    exact ⟨kempt, id⟩
  have unused : .webRequest d.allocated ∉ d.eloop :=
    fun member => Nat.lt_irrefl _ (kempt.fresh.webs _ member)
  dsimp only at starts
  split at starts
  · obtain ⟨ring, -, starts⟩ := bind_eq_some_iff.mp starts
    suffices registers : d.Registers (.webRequest d.allocated) after from
      ⟨kempt.register registers, fun before => before.aside registers.aside⟩
    cases starts
    exact ⟨rfl, outside_webRequest _, unused, Nat.le_succ _, rfl,
      fun c same => by cases same; exact Nat.lt_succ_self _, by simp, by simp, rfl, rfl, rfl, rfl,
      rfl⟩
  · have less := webConnectionStop_less starts
    have aside : d.Aside { d with
        allocated := d.allocated + 1,
        webConnection := Function.update d.webConnection d.allocated (some ⟨hread⟩) } :=
      ⟨rfl, rfl, rfl, rfl, rfl, Nat.le_succ _, fun nodup => nodup, fun _ _ _ _ => Iff.rfl, Iff.rfl⟩
    have kempt' : Kempt { d with
        allocated := d.allocated + 1,
        webConnection := Function.update d.webConnection d.allocated (some ⟨hread⟩) } steady subs :=
      ⟨kempt.subs.aside aside, fun c member => Nat.lt_succ_of_lt (kempt.fresh.webs c member),
        fun a member => Nat.lt_succ_of_lt (kempt.fresh.replies a member), kempt.fresh.idle⟩
    exact ⟨kempt'.less less, fun before => (before.aside aside).aside less.aside⟩

theorem Kempt.msearchStart (kempt : d.Kempt steady subs)
    (starts : d.msearchreplyStateMachineStart memory registers = some after) :
    after.Kempt steady subs ∧ (d.Awake → after.Awake) := by
  unfold msearchreplyStateMachineStart at starts
  split at starts
  · cases starts
    exact ⟨kempt, id⟩
  split at starts
  · cases starts
    exact ⟨kempt, id⟩
  split at starts
  · cases starts
    exact ⟨kempt, id⟩
  obtain ⟨ring, -, starts⟩ := bind_eq_some_iff.mp starts
  have unused : .msearchReply d.allocated ∉ d.eloop :=
    fun member => Nat.lt_irrefl _ (kempt.fresh.replies _ member)
  suffices registers : d.Registers (.msearchReply d.allocated) after from
    ⟨kempt.register registers, fun before => before.aside registers.aside⟩
  cases starts
  exact ⟨rfl, outside_msearchReply _, unused, Nat.le_succ _, rfl, by simp,
    fun a same => by cases same; exact Nat.lt_succ_self _, by simp, rfl, rfl, rfl, rfl, rfl⟩

theorem Kempt.msearchHandler {a : Nat} (kempt : d.Kempt steady subs)
    (member : .msearchReply a ∈ d.eloop)
    (steps : (d.fires (.msearchReply a)).msearchreplyStateMachineHandler a memory registers =
      some after) : after.Kempt steady subs ∧ (d.Awake → after.Awake) := by
  have less := fires_less d (outside_msearchReply a)
  have kempt' := kempt.less less
  obtain ⟨m, -, steps⟩ := bind_eq_some_iff.mp steps
  split at steps
  · cases steps
    exact ⟨kempt', fun before => before.aside less.aside⟩
  split at steps
  · have less' := less.trans (msearchStop_less steps)
    exact ⟨kempt.less less', fun before => before.aside less'.aside⟩
  cases registers with
  | true =>
    have unused : .msearchReply a ∉ (d.fires (.msearchReply a)).eloop :=
      fun again => absurd rfl (kempt.subs.nodup.mem_erase_iff.mp again).1
    suffices registered : (d.fires (.msearchReply a)).Registers (.msearchReply a) after from
      ⟨kempt'.register registered, fun before => (before.aside less.aside).aside registered.aside⟩
    cases steps
    exact ⟨rfl, outside_msearchReply a, unused, Nat.le_refl _, rfl, by simp,
      fun b same => by cases same; exact kempt.fresh.replies a member, by simp, rfl, rfl, rfl,
      rfl, rfl⟩
  | false =>
    cases steps
    have same : d.Less { d.fires (.msearchReply a) with
        msearchReply := Function.update (d.fires (.msearchReply a)).msearchReply a
          (some { m with state := m.state + 1 }) } :=
      ⟨⟨rfl, rfl, rfl, rfl, rfl, Nat.le_refl _, less.aside.nodup, less.aside.events,
        less.aside.timer⟩, rfl, rfl, less.fewer⟩
    exact ⟨kempt.less same, fun before => before.aside same.aside⟩

end Lists

end Device

end AthApps.Upnp
