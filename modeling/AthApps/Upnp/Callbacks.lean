import AthApps.Upnp.Wakeup

/-!
# Callbacks and their objects

Every handler that the event loop knows belongs to an object that is still
there, as long as the device is not stopped while a reply to M-SEARCH is
pending: `msearchreply_state_machine_stop` frees the reply and leaves its
timeout.  Then every handler has a result too, unless the reader of a web
connection cannot be made or the only subscriber is dropped.
-/

set_option autoImplicit false

namespace AthApps.Upnp

open AthApps.Lib List
open Function (update update_self)

namespace Device

section Lists

variable {d after : Device} {webs replies : List Nat}

theorem Webs.stop {pre post : List Nat} {c : Nat} (sound : d.Webs (pre ++ c :: post)) :
    ∃ after, d.webConnectionStop c = some after ∧ after.Webs (pre ++ post) ∧
      d.SameReplies after := by
  obtain ⟨ring, unlinked, holds⟩ := sound.held.unlink_eq
  have out : c ∉ pre ++ post := (nodup_cons.mp (nodup_middle.mp sound.held.nodup)).1
  have inside : ∀ {k : Nat}, k ∈ pre ++ post → k ∈ pre ++ c :: post :=
    fun member => (show (pre ++ post).Sublist (pre ++ c :: post) by simp).subset member
  obtain ⟨w, here⟩ := Option.ne_none_iff_exists'.mp ((sound.live c).mpr (by simp))
  have reads := sound.reader c w here
  refine ⟨{ d.cancel (.webRequest c) with
      webConnections := ring, webConnection := update d.webConnection c none,
      nWebConnections := d.nWebConnections - 1 }, ?_, ⟨holds, ?_, ?_, ?_, ?_, ?_, ?_⟩,
    ⟨rfl, rfl, rfl, Nat.le_refl _, fun _ member => (mem_cancel.mp member).1⟩⟩
  · rw [webConnectionStop, here]
    simp only [Option.bind_eq_bind, Option.bind_some, reads, if_true]
    rw [show (d.cancel (.webRequest c)).webConnections = d.webConnections from rfl, unlinked]
    rfl
  · have count := sound.count
    simp only [length_append, length_cons] at count ⊢
    omega
  · have few := sound.few
    simp only [length_append, length_cons] at few ⊢
    omega
  · intro k
    by_cases same : k = c
    · subst same
      simpa using out
    · have live := sound.live k
      simp only [mem_append, mem_cons, same, false_or] at live ⊢
      simpa [same] using live
  · intro k u known
    by_cases same : k = c
    · subst same
      simp at known
    · exact sound.reader k u (by simpa [same] using known)
  · intro k member
    exact sound.old k (inside member)
  · intro k member
    obtain ⟨member, apart⟩ := mem_cancel.mp member
    have listed := sound.about k member
    have other : k ≠ c := by
      rintro rfl
      exact apart rfl
    simpa [other] using listed

theorem Webs.start {memory hread : Bool} (sound : d.Webs webs)
    (careful : maxWebConnections ≤ d.nWebConnections ∨ memory = false ∨ hread = true) :
    ∃ after more, d.webConnectionStart memory hread = some after ∧ after.Webs more ∧
      d.SameReplies after := by
  have same : d.SameReplies d := ⟨rfl, rfl, rfl, Nat.le_refl _, fun _ => id⟩
  unfold webConnectionStart
  split
  · exact ⟨d, webs, rfl, sound, same⟩
  next room =>
  split
  · exact ⟨d, webs, rfl, sound, same⟩
  next works =>
  obtain rfl : hread = true := by
    rcases careful with full | lost | reads
    · exact absurd full room
    · exact absurd lost works
    · exact reads
  have out : d.allocated ∉ webs := fun member => Nat.lt_irrefl _ (sound.old _ member)
  obtain ⟨ring, linked, holds⟩ := sound.held.linkToEnd_eq out
  rw [if_pos rfl]
  refine ⟨{ d.register (.webRequest d.allocated) with
      allocated := d.allocated + 1,
      webConnection := update d.webConnection d.allocated (some ⟨true⟩),
      webConnections := ring, nWebConnections := d.nWebConnections + 1 },
    webs ++ [d.allocated], ?_, ⟨holds, ?_, ?_, ?_, ?_, ?_, ?_⟩,
    ⟨rfl, rfl, rfl, Nat.le_succ _, ?_⟩⟩
  · simp only [Device.register, Option.bind_eq_bind, linked, Option.bind_some]
  · simp [sound.count]
  · rw [sound.count] at room
    simp only [length_append, length_singleton]
    omega
  · intro k
    by_cases same : k = d.allocated
    · simp [same]
    · simpa [same] using sound.live k
  · intro k u known
    by_cases same : k = d.allocated
    · subst same
      simp only [update_self, Option.some.injEq] at known
      rw [← known]
    · exact sound.reader k u (by simpa [same] using known)
  · intro k member
    rcases mem_append.mp member with member | member
    · exact Nat.lt_succ_of_lt (sound.old k member)
    · rw [mem_singleton.mp member]
      exact Nat.lt_succ_self _
  · intro k member
    rcases mem_cons.mp member with same | member
    · cases same
      simp
    · exact mem_append_left _ (sound.about k member)
  · intro a member
    rcases mem_cons.mp member with same | member
    · cases same
    · exact member

variable {middle : Device}

theorem SameReplies.trans (early : d.SameReplies middle) (late : middle.SameReplies after) :
    d.SameReplies after :=
  ⟨late.msearchReplies.trans early.msearchReplies,
    late.nMsearchReplies.trans early.nMsearchReplies, late.msearchReply.trans early.msearchReply,
    early.allocated.trans late.allocated, fun a member => early.about a (late.about a member)⟩

theorem Webs.stopLoop {fuel : Nat} (sound : d.Webs webs) (enough : webs.length ≤ fuel) :
    ∃ after, stopWebLoop fuel d = some after ∧ after.Webs [] ∧ d.SameReplies after := by
  induction webs generalizing d fuel with
  | nil =>
    have head : d.webConnections.head = none := sound.held.head
    refine ⟨d, ?_, sound, rfl, rfl, rfl, Nat.le_refl _, fun _ => id⟩
    cases fuel <;> simp [stopWebLoop, head]
  | cons c rest ih =>
    obtain ⟨fuel, rfl⟩ : ∃ k, fuel = k + 1 := ⟨fuel - 1, by simp at enough; omega⟩
    have head : d.webConnections.head = some c := sound.held.head
    obtain ⟨middle, stopped, sound', same⟩ := @Webs.stop d [] rest c sound
    obtain ⟨after, done, final, same'⟩ := ih sound' (by simpa using enough)
    refine ⟨after, ?_, final, same.trans same'⟩
    rw [stopWebLoop, head]
    simp [stopped, done]

theorem Replies.stop {pre post : List Nat} {a : Nat} (sound : d.Replies (pre ++ a :: post)) :
    ∃ after, d.msearchreplyStateMachineStop a = some after ∧ after.Replies (pre ++ post) ∧
      d.SameWebs after ∧ after.eloop = d.eloop ∧
      after.msearchReply = update d.msearchReply a none := by
  obtain ⟨ring, unlinked, holds⟩ := sound.held.unlink_eq
  have out : a ∉ pre ++ post := (nodup_cons.mp (nodup_middle.mp sound.held.nodup)).1
  have inside : ∀ {k : Nat}, k ∈ pre ++ post → k ∈ pre ++ a :: post :=
    fun member => (show (pre ++ post).Sublist (pre ++ a :: post) by simp).subset member
  obtain ⟨m, here⟩ := Option.ne_none_iff_exists'.mp ((sound.live a).mpr (by simp))
  refine ⟨{ d with
      msearchReplies := ring, msearchReply := update d.msearchReply a none,
      nMsearchReplies := d.nMsearchReplies - 1 }, ?_, ⟨holds, ?_, ?_, ?_, ?_⟩,
    ⟨rfl, rfl, rfl, Nat.le_refl _, fun _ => id⟩, rfl, rfl⟩
  · rw [msearchreplyStateMachineStop, here]
    simp only [Option.bind_eq_bind, Option.bind_some, unlinked]
  · have count := sound.count
    simp only [length_append, length_cons] at count ⊢
    omega
  · have few := sound.few
    simp only [length_append, length_cons] at few ⊢
    omega
  · intro k
    by_cases same : k = a
    · subst same
      simpa using out
    · have live := sound.live k
      simp only [mem_append, mem_cons, same, false_or] at live ⊢
      simpa [same] using live
  · intro k member
    exact sound.old k (inside member)

theorem Replies.stopLoop {fuel : Nat} (sound : d.Replies replies) (enough : replies.length ≤ fuel) :
    ∃ after, stopMsearchLoop fuel d = some after ∧ after.Replies [] ∧ d.SameWebs after ∧
      after.eloop = d.eloop := by
  induction replies generalizing d fuel with
  | nil =>
    have head : d.msearchReplies.head = none := sound.held.head
    refine ⟨d, ?_, sound, ⟨rfl, rfl, rfl, Nat.le_refl _, fun _ => id⟩, rfl⟩
    cases fuel <;> simp [stopMsearchLoop, head]
  | cons a rest ih =>
    obtain ⟨fuel, rfl⟩ : ∃ k, fuel = k + 1 := ⟨fuel - 1, by simp at enough; omega⟩
    have head : d.msearchReplies.head = some a := sound.held.head
    obtain ⟨middle, stopped, sound', same, eloop, -⟩ := @Replies.stop d [] rest a sound
    obtain ⟨after, done, final, same', eloop'⟩ := ih sound' (by simpa using enough)
    refine ⟨after, ?_, final, ?_, eloop'.trans eloop⟩
    · rw [stopMsearchLoop, head]
      simp [stopped, done]
    · exact ⟨same'.webConnections.trans same.webConnections,
        same'.nWebConnections.trans same.nWebConnections,
        same'.webConnection.trans same.webConnection, same.allocated.trans same'.allocated,
        fun c member => same.about c (same'.about c member)⟩

theorem Replies.start {memory registers : Bool} (sound : d.Replies replies) (tended : d.Tended) :
    ∃ after more, d.msearchreplyStateMachineStart memory registers = some after ∧
      after.Replies more ∧ after.Tended ∧ d.SameWebs after := by
  have same : d.SameWebs d := ⟨rfl, rfl, rfl, Nat.le_refl _, fun _ => id⟩
  unfold msearchreplyStateMachineStart
  split
  · exact ⟨d, replies, rfl, sound, tended, same⟩
  next room =>
  split
  · exact ⟨d, replies, rfl, sound, tended, same⟩
  split
  · exact ⟨d, replies, rfl, sound, tended, same⟩
  have out : d.allocated ∉ replies := fun member => Nat.lt_irrefl _ (sound.old _ member)
  obtain ⟨ring, linked, holds⟩ := sound.held.linkToEnd_eq out
  refine ⟨{ d.register (.msearchReply d.allocated) with
      allocated := d.allocated + 1,
      msearchReply := update d.msearchReply d.allocated (some ⟨0⟩),
      msearchReplies := ring, nMsearchReplies := d.nMsearchReplies + 1 },
    replies ++ [d.allocated], ?_, ⟨holds, ?_, ?_, ?_, ?_⟩, ?_,
    ⟨rfl, rfl, rfl, Nat.le_succ _, ?_⟩⟩
  · simp only [Device.register, Option.bind_eq_bind, linked, Option.bind_some]
  · simp [sound.count]
  · rw [sound.count] at room
    simp only [length_append, length_singleton]
    omega
  · intro k
    by_cases same : k = d.allocated
    · simp [same]
    · simpa [same] using sound.live k
  · intro k member
    rcases mem_append.mp member with member | member
    · exact Nat.lt_succ_of_lt (sound.old k member)
    · rw [mem_singleton.mp member]
      exact Nat.lt_succ_self _
  · intro k member
    by_cases same : k = d.allocated
    · simp [same]
    · rcases mem_cons.mp member with this | member
      · cases this
        exact absurd rfl same
      · simpa [same] using tended k member
  · intro c member
    rcases mem_cons.mp member with same | member
    · cases same
    · exact member

theorem Replies.handler {a : Nat} {memory registers : Bool} (sound : d.Replies replies)
    (tended : d.Tended) (nodup : d.eloop.Nodup) (member : .msearchReply a ∈ d.eloop) :
    ∃ after left, (d.fires (.msearchReply a)).msearchreplyStateMachineHandler a memory registers =
        some after ∧
      after.Replies left ∧ after.Tended ∧ d.SameWebs after := by
  obtain ⟨m, here⟩ := Option.ne_none_iff_exists'.mp (tended a member)
  have linked : a ∈ replies := (sound.live a).mp (by simp [here])
  have fires : d.SameReplies (d.fires (.msearchReply a)) :=
    ⟨rfl, rfl, rfl, Nat.le_refl _, fun _ => mem_of_mem_erase⟩
  have same : d.SameWebs (d.fires (.msearchReply a)) :=
    ⟨rfl, rfl, rfl, Nat.le_refl _, fun _ => mem_of_mem_erase⟩
  have others : ∀ {k : Nat}, .msearchReply k ∈ (d.fires (.msearchReply a)).eloop →
      k ≠ a ∧ .msearchReply k ∈ d.eloop := by
    intro k again
    obtain ⟨apart, again⟩ := nodup.mem_erase_iff.mp again
    exact ⟨fun same => apart (by rw [same]), again⟩
  have here' : (d.fires (.msearchReply a)).msearchReply a = some m := here
  rw [msearchreplyStateMachineHandler, here']
  simp only [Option.bind_eq_bind, Option.bind_some]
  split
  · exact ⟨_, replies, rfl, sound.same fires, tended.same fires, same⟩
  split
  · obtain ⟨pre, post, rfl⟩ := append_of_mem linked
    obtain ⟨after, stopped, sound', webs', eloop, reply⟩ := (sound.same fires).stop
    refine ⟨after, pre ++ post, stopped, sound', ?_, ?_⟩
    · intro k again
      rw [eloop] at again
      obtain ⟨apart, again⟩ := others again
      rw [reply]
      simpa [Device.fires, apart] using tended k again
    · exact ⟨webs'.webConnections, webs'.nWebConnections, webs'.webConnection, webs'.allocated,
        fun c again => same.about c (webs'.about c again)⟩
  · refine ⟨_, replies, rfl, ?_, ?_, ?_⟩
    · have live : ∀ k, update d.msearchReply a (some { m with state := m.state + 1 }) k ≠
          none ↔ k ∈ replies := by
        intro k
        by_cases same : k = a
        · subst same
          simpa using linked
        · simpa [same] using sound.live k
      split <;> exact ⟨sound.held, sound.count, sound.few, live, sound.old⟩
    · intro k again
      by_cases same : k = a
      · split <;> simp [Device.register, same]
      · have old : .msearchReply k ∈ d.eloop := by
          split at again
          · rcases mem_cons.mp again with this | again
            · cases this
              exact absurd rfl same
            · exact (others again).2
          · exact (others again).2
        have lives := tended k old
        split <;> simpa [Device.register, Device.fires, same] using lives
    · refine ⟨?_, ?_, ?_, ?_, ?_⟩
      · split <;> rfl
      · split <;> rfl
      · split <;> rfl
      · split <;> exact Nat.le_refl _
      · intro c again
        split at again
        · rcases mem_cons.mp again with this | again
          · cases this
          · exact same.about c again
        · exact same.about c again

theorem SameWebs.trans (early : d.SameWebs middle) (late : middle.SameWebs after) :
    d.SameWebs after :=
  ⟨late.webConnections.trans early.webConnections, late.nWebConnections.trans early.nWebConnections,
    late.webConnection.trans early.webConnection, early.allocated.trans late.allocated,
    fun c member => early.about c (late.about c member)⟩

/-- Handlers of the device as a whole come and go. -/
structure Alike (d after : Device) : Prop where
  webs : d.SameWebs after
  replies : d.SameReplies after

theorem Alike.trans (early : d.Alike middle) (late : middle.Alike after) : d.Alike after :=
  ⟨early.webs.trans late.webs, early.replies.trans late.replies⟩

theorem Frame.alike (frame : d.Frame after) : d.Alike after :=
  ⟨frame.sameWebs, frame.sameReplies⟩

theorem cancel_alike (d : Device) (callback : Callback) : d.Alike (d.cancel callback) :=
  ⟨⟨rfl, rfl, rfl, Nat.le_refl _, fun _ member => (mem_cancel.mp member).1⟩,
    ⟨rfl, rfl, rfl, Nat.le_refl _, fun _ member => (mem_cancel.mp member).1⟩⟩

theorem register_alike (d : Device) {callback : Callback} (web : ∀ c, callback ≠ .webRequest c)
    (reply : ∀ a, callback ≠ .msearchReply a) : d.Alike (d.register callback) := by
  refine ⟨⟨rfl, rfl, rfl, Nat.le_refl _, ?_⟩, ⟨rfl, rfl, rfl, Nat.le_refl _, ?_⟩⟩
  · intro c member
    exact (mem_cons.mp member).resolve_left fun same => web c same.symm
  · intro a member
    exact (mem_cons.mp member).resolve_left fun same => reply a same.symm

theorem started_alike (d : Device) (started : Bool) : d.Alike { d with started := started } :=
  ⟨⟨rfl, rfl, rfl, Nat.le_refl _, fun _ => id⟩, ⟨rfl, rfl, rfl, Nat.le_refl _, fun _ => id⟩⟩

theorem eventSendStopAll_alike (d : Device) : d.Alike d.eventSendStopAll := by
  unfold eventSendStopAll
  split
  · obtain ⟨webs, replies⟩ := cancel_alike d .sendAllLater
    exact ⟨⟨webs.1, webs.2, webs.3, webs.4, webs.5⟩,
      ⟨replies.1, replies.2, replies.3, replies.4, replies.5⟩⟩
  · exact ⟨⟨rfl, rfl, rfl, Nat.le_refl _, fun _ => id⟩,
      ⟨rfl, rfl, rfl, Nat.le_refl _, fun _ => id⟩⟩

theorem advertise_alike (d : Device) (registers : Bool) :
    d.Alike (d.advertisementStateMachineStart registers) := by
  have less := cancel_alike d .advertisement
  unfold advertisementStateMachineStart
  dsimp only
  split
  · exact less.trans (register_alike _ (by simp) (by simp))
  · exact less

def Quiet (d : Device) : Prop := ∀ a, .msearchReply a ∉ d.eloop

/-- The lists of web connections and replies are in order, and no reply waits. -/
structure Still (d : Device) : Prop where
  webs : ∃ webs, d.Webs webs
  replies : ∃ replies, d.Replies replies
  quiet : d.Quiet

theorem Still.alike (still : d.Still) (alike : d.Alike after) : after.Still := by
  obtain ⟨⟨webs, soundWebs⟩, ⟨replies, soundReplies⟩, quiet⟩ := still
  exact ⟨⟨webs, soundWebs.same alike.webs⟩, ⟨replies, soundReplies.same alike.replies⟩,
    fun a member => quiet a (alike.replies.about a member)⟩

variable {steady : Prop} {subs : List Nat}

theorem Still.stop (still : d.Still) (sound : d.Subs steady subs) :
    ∃ after, d.upnpWpsDeviceStop = some after ∧ after.Still := by
  cases started : d.started with
  | false => exact ⟨d, by rw [upnpWpsDeviceStop, if_pos started], still⟩
  | true =>
    have less := cancel_less d outside_webListener
    obtain ⟨⟨webs, soundWebs⟩, ⟨replies, soundReplies⟩, quiet⟩ :=
      still.alike (cancel_alike d .webListener)
    obtain ⟨second, stops, noWebs, same⟩ := @Webs.stopLoop _ webs
      (d.cancel .webListener).nWebConnections.toNat soundWebs (by simp [soundWebs.count])
    have soundReplies2 := soundReplies.same same
    obtain ⟨third, stops', noReplies, same', eloop⟩ := @Replies.stopLoop _ replies
      second.nMsearchReplies.toNat soundReplies2 (by simp [soundReplies2.count])
    have less' := less.trans ((stopWebLoop_less stops).trans (stopMsearchLoop_less stops'))
    have sound3 := sound.aside less'.aside
    obtain ⟨fourth, stops'', -, frame⟩ := @Subs.stopLoop _ steady subs
      third.nSubscriptions.toNat sound3 (by simp [sound3.count])
    have still3 : third.Still := by
      refine ⟨⟨[], noWebs.same same'⟩, ⟨[], noReplies⟩, ?_⟩
      intro a member
      rw [eloop] at member
      exact quiet a (same.about a member)
    refine ⟨_, ?_, still3.alike (frame.alike.trans ((cancel_alike fourth .advertisement).trans
      ((eventSendStopAll_alike _).trans ((cancel_alike _ .ssdpListener).trans
        (started_alike _ false)))))⟩
    rw [upnpWpsDeviceStop, if_neg (by simp [started])]
    simp only [stops, stops', stops'', Option.bind_eq_bind, Option.bind_some]

theorem Still.start {outcome : Start} (still : d.Still) (kempt : d.Kempt steady subs) :
    ∃ after, d.upnpWpsDeviceStart outcome = some after ∧ after.Still := by
  obtain ⟨second, stops, still2⟩ := still.stop kempt.subs
  obtain ⟨idle, ⟨left, kempt2⟩, -⟩ := kempt.stop stops
  obtain ⟨on, listening, searched⟩ := kempt2.switchOn idle
  have still3 := still2.alike (started_alike second true)
  have still4 := still3.alike (@register_alike _ .webListener (by simp) (by simp))
  have still5 := still4.alike (@register_alike _ .ssdpListener (by simp) (by simp))
  have final : ∀ {x : Device}, x.Still → second.SwitchedOn steady left x →
      ∃ after, x.upnpWpsDeviceStop = some after ∧ after.Still :=
    fun still switched => still.stop switched.kempt.subs
  rw [upnpWpsDeviceStart, stops]
  simp only [Option.bind_eq_bind, Option.bind_some]
  cases outcome with
  | noNetwork => exact final still3 on
  | noWeb => exact final still3 on
  | noSsdp => exact final still4 listening
  | noMulticast => exact final still5 searched
  | noAdvertisement =>
    obtain ⟨kempt6, aside6⟩ := searched.kempt.advertise false
    exact final (still5.alike (advertise_alike _ false)) ⟨kempt6, searched.aside.trans aside6⟩
  | fine => exact ⟨_, rfl, still5.alike (advertise_alike _ true)⟩

end Lists

def waitsForReply : Callback → Bool
  | .msearchReply _ => true
  | _ => false

/-- The calls that the code gets right: no stop while a reply to M-SEARCH waits for its timeout, no
connection whose reader cannot be made, and no event that drops the only subscriber. -/
def careful (d : Device) : Call → Bool
  | .start _ => !d.eloop.any waitsForReply
  | .stop => !d.eloop.any waitsForReply
  | .accept memory hread => maxWebConnections ≤ d.nWebConnections || !memory || hread
  | .request _ request => !d.drops request
  | .sendVar _ memory => !d.dropsLast memory
  | _ => true

def enabled (d : Device) : Call → Bool
  | .advertise => .advertisement ∈ d.eloop
  | .accept _ _ => .webListener ∈ d.eloop
  | .request c _ => .webRequest c ∈ d.eloop
  | .msearch _ => .ssdpListener ∈ d.eloop
  | .msearchTimeout a _ => .msearchReply a ∈ d.eloop
  | .sendAll _ => .sendAllLater ∈ d.eloop
  | .event i (.txReady e _) => .eventTxReady i e ∈ d.eloop
  | .event i (.timeout e) => .eventTimeout i e ∈ d.eloop
  | .event i (.response e _) => .eventResponse i e ∈ d.eloop
  | .event _ _ => false
  | _ => true

structure Tidy (d : Device) (subs webs replies : List Nat) : Prop where
  kempt : d.Kempt False subs
  webs : d.Webs webs
  replies : d.Replies replies
  tended : d.Tended

section Calls

variable {d after : Device} {subs webs replies : List Nat}

theorem quiet_of_careful (careful : (!d.eloop.any waitsForReply) = true) : d.Quiet := by
  intro a member
  have waits : d.eloop.any waitsForReply = true := any_eq_true.mpr ⟨_, member, rfl⟩
  simp [waits] at careful

theorem Tidy.still (tidy : d.Tidy subs webs replies) (quiet : d.Quiet) : d.Still :=
  ⟨⟨webs, tidy.webs⟩, ⟨replies, tidy.replies⟩, quiet⟩

def Lists (d : Device) : Prop := ∃ webs replies, d.Webs webs ∧ d.Replies replies ∧ d.Tended

theorem Still.lists (still : d.Still) : d.Lists := by
  obtain ⟨⟨webs, soundWebs⟩, ⟨replies, soundReplies⟩, quiet⟩ := still
  exact ⟨webs, replies, soundWebs, soundReplies, fun a member => absurd member (quiet a)⟩

theorem Tidy.alike (tidy : d.Tidy subs webs replies) (alike : d.Alike after) : after.Lists :=
  ⟨webs, replies, tidy.webs.same alike.webs, tidy.replies.same alike.replies,
    tidy.tended.same alike.replies⟩

theorem Tidy.request {c : Nat} {request : Option Request} (tidy : d.Tidy subs webs replies)
    (careful : d.drops request = false) (member : .webRequest c ∈ d.eloop) (registers : Bool) :
    ∃ after, d.webConnectionGotFileHandler c request registers = some after ∧ after.Lists := by
  rcases @Subs.checkData d False subs c request tidy.kempt.subs False.elim registers with
    ⟨lost, -⟩ | ⟨-, middle, left, checked, -, frame, -⟩
  · cases careful.symm.trans lost
  have soundWebs := tidy.webs.same frame.sameWebs
  obtain ⟨pre, post, rfl⟩ := append_of_mem (tidy.webs.about c member)
  obtain ⟨after, stopped, soundWebs', same⟩ := soundWebs.stop
  have same := frame.sameReplies.trans same
  refine ⟨after, ?_, pre ++ post, replies, soundWebs', tidy.replies.same same,
    tidy.tended.same same⟩
  rw [webConnectionGotFileHandler, checked]
  exact stopped

theorem Tidy.eventCall {i e : Nat} {occurrence : Occurrence} {callback : Callback}
    (tidy : d.Tidy subs webs replies) (about : callback.eventOf i = some e)
    (calls : ∀ s, s.id = i → (d.outbox s).calls occurrence = some callback)
    (member : callback ∈ d.eloop) (registers : Bool) :
    ∃ after, d.eventCall i occurrence registers = some after ∧ after.Lists := by
  have linked := tidy.kempt.subs.about callback member i e about
  obtain ⟨s, here, name, -⟩ := tidy.kempt.subs.find linked
  obtain ⟨after, left, done, -, frame, -⟩ :=
    tidy.kempt.subs.event here (calls s name) member registers
  exact ⟨after, done, tidy.alike frame.alike⟩

theorem Tidy.proceeds {call : Call} {registers : Bool} (tidy : d.Tidy subs webs replies)
    (careful : d.careful call = true) (enabled : d.enabled call = true) :
    ∃ after, d.step (call, registers) = some after ∧ after.Lists := by
  cases call with
  | start outcome =>
    obtain ⟨after, starts, still⟩ :=
      @Still.start d False subs outcome (tidy.still (quiet_of_careful careful)) tidy.kempt
    exact ⟨after, starts, still.lists⟩
  | stop =>
    obtain ⟨after, stops, still⟩ := (tidy.still (quiet_of_careful careful)).stop tidy.kempt.subs
    exact ⟨after, stops, still.lists⟩
  | readvertise => exact ⟨_, rfl, tidy.alike (advertise_alike d registers)⟩
  | advertise =>
    have fires : d.Alike (d.fires .advertisement) :=
      ⟨⟨rfl, rfl, rfl, Nat.le_refl _, fun _ => mem_of_mem_erase⟩,
        ⟨rfl, rfl, rfl, Nat.le_refl _, fun _ => mem_of_mem_erase⟩⟩
    simp only [Device.step]
    rw [if_pos (of_decide_eq_true enabled)]
    refine ⟨_, rfl, ?_⟩
    split
    · exact tidy.alike (fires.trans (register_alike _ (by simp) (by simp)))
    · exact tidy.alike fires
  | accept memory hread =>
    obtain ⟨after, more, starts, sound, same⟩ :=
      @Webs.start d webs memory hread tidy.webs (by simpa [Device.careful, or_assoc] using careful)
    refine ⟨after, ?_, more, replies, sound, tidy.replies.same same, tidy.tended.same same⟩
    simp only [Device.step]
    rw [if_pos (of_decide_eq_true enabled), starts]
  | request c request =>
    have drops : d.drops request = false := by simpa [Device.careful] using careful
    obtain ⟨after, done, lists⟩ := tidy.request drops (of_decide_eq_true enabled) registers
    refine ⟨after, ?_, lists⟩
    simp only [Device.step]
    rw [if_pos (of_decide_eq_true enabled), done]
  | msearch memory =>
    obtain ⟨after, more, starts, sound, tended, same⟩ :=
      @Replies.start d replies memory registers tidy.replies tidy.tended
    refine ⟨after, ?_, webs, more, tidy.webs.same same, sound, tended⟩
    simp only [Device.step]
    rw [if_pos (of_decide_eq_true enabled), starts]
  | msearchTimeout a memory =>
    obtain ⟨after, left, done, sound, tended, same⟩ :=
      @Replies.handler d replies a memory registers tidy.replies tidy.tended
        tidy.kempt.subs.nodup (of_decide_eq_true enabled)
    refine ⟨after, ?_, webs, left, tidy.webs.same same, sound, tended⟩
    simp only [Device.step]
    rw [if_pos (of_decide_eq_true enabled), done]
  | sendVar data memory =>
    rcases tidy.kempt.subs.sendVar data memory registers with
      ⟨lost, -⟩ | ⟨-, after, left, sent, -, frame, -⟩
    · simp [Device.careful, lost] at careful
    · exact ⟨after, sent, tidy.alike frame.alike⟩
  | sendAll outcome =>
    obtain ⟨after, left, sent, -, frame, -⟩ := tidy.kempt.subs.sendAllHandler outcome registers
    refine ⟨after, ?_, tidy.alike frame.alike⟩
    simp only [Device.step]
    rw [if_pos (of_decide_eq_true enabled), sent]
  | event i occurrence =>
    cases occurrence with
    | add data memory => cases enabled
    | wake outcome => cases enabled
    | txReady e outcome =>
      exact tidy.eventCall (Callback.eventOf_txReady i e) (by rintro s rfl; rfl)
        (of_decide_eq_true enabled) registers
    | timeout e =>
      exact tidy.eventCall (Callback.eventOf_timeout i e) (by rintro s rfl; rfl)
        (of_decide_eq_true enabled) registers
    | response e response =>
      exact tidy.eventCall (Callback.eventOf_response i e) (by rintro s rfl; rfl)
        (of_decide_eq_true enabled) registers

theorem Tidy.enabled {call : Call} {registers : Bool} (tidy : d.Tidy subs webs replies)
    (steps : d.step (call, registers) = some after) : d.enabled call = true := by
  cases call with
  | event i occurrence =>
    have registered : ∀ {callback : Callback}, (∀ s, s.id = i →
        (d.outbox s).calls occurrence = some callback) →
        d.eventCall i occurrence registers = some after → callback ∈ d.eloop := by
      intro callback calls done
      obtain ⟨s, here, done⟩ := Option.bind_eq_some_iff.mp done
      obtain ⟨result, occurs, -⟩ := Option.bind_eq_some_iff.mp done
      exact Outbox.occurs_registered (calls s (tidy.kempt.subs.each i s here).1) occurs
    cases occurrence with
    | add data memory => cases steps
    | wake outcome => cases steps
    | txReady e outcome => exact decide_eq_true (registered (by rintro s rfl; rfl) steps)
    | timeout e => exact decide_eq_true (registered (by rintro s rfl; rfl) steps)
    | response e response => exact decide_eq_true (registered (by rintro s rfl; rfl) steps)
  | _ =>
    first
      | rfl
      | (simp only [Device.step] at steps
         split at steps
         · exact decide_eq_true ‹_›
         · cases steps)

theorem tidy_init : Device.init.Tidy [] [] [] := by
  refine ⟨kempt_init False, ⟨Ring.holds_empty, rfl, by decide, by simp [Device.init],
    by simp [Device.init], by simp, by simp [Device.init]⟩, ⟨Ring.holds_empty, rfl, by decide,
    by simp [Device.init], by simp⟩, ?_⟩
  intro a member
  cases member

end Calls

/-- The object that a handler is called for is linked; for an event, it is the one that its
subscription sends. -/
def Refers (d : Device) (subs webs replies : List Nat) : Callback → Prop
  | .webRequest c => c ∈ webs
  | .msearchReply a => a ∈ replies
  | .eventTimeout i e => i ∈ subs ∧ ∃ s, d.subscription i = some s ∧ s.currentEvent = some e
  | .eventTxReady i e => i ∈ subs ∧ ∃ s, d.subscription i = some s ∧ s.currentEvent = some e
  | .eventResponse i e => i ∈ subs ∧ ∃ s, d.subscription i = some s ∧ s.currentEvent = some e
  | _ => True

structure InHand (d : Device) (subs webs replies : List Nat) : Prop where
  subscriptions : d.subscriptions.Holds subs
  webConnections : d.webConnections.Holds webs
  nWebConnections : d.nWebConnections = webs.length ∧ d.nWebConnections ≤ maxWebConnections
  msearchReplies : d.msearchReplies.Holds replies
  nMsearchReplies : d.nMsearchReplies = replies.length ∧ d.nMsearchReplies ≤ maxMsearch
  callbacks : ∀ callback ∈ d.eloop, d.Refers subs webs replies callback

theorem Tidy.inHand {d : Device} {subs webs replies : List Nat}
    (tidy : d.Tidy subs webs replies) : d.InHand subs webs replies := by
  have current : ∀ {callback : Callback} {i e : Nat}, callback ∈ d.eloop →
      callback.eventOf i = some e →
      i ∈ subs ∧ ∃ s, d.subscription i = some s ∧ s.currentEvent = some e := by
    intro callback i e member about
    have linked := tidy.kempt.subs.about callback member i e about
    obtain ⟨s, here, name, q, good⟩ := tidy.kempt.subs.find linked
    rw [← name] at about
    exact ⟨linked, s, here, good.registered callback member e about⟩
  refine ⟨tidy.kempt.subs.held, tidy.webs.held, ⟨tidy.webs.count, ?_⟩, tidy.replies.held,
    ⟨tidy.replies.count, ?_⟩, ?_⟩
  · rw [tidy.webs.count]
    exact tidy.webs.few
  · rw [tidy.replies.count]
    exact tidy.replies.few
  · intro callback member
    cases callback with
    | webRequest c => exact tidy.webs.about c member
    | msearchReply a => exact (tidy.replies.live a).mp (tidy.tended a member)
    | eventTimeout i e => exact current member (Callback.eventOf_timeout i e)
    | eventTxReady i e => exact current member (Callback.eventOf_txReady i e)
    | eventResponse i e => exact current member (Callback.eventOf_response i e)
    | sendAllLater => exact True.intro
    | advertisement => exact True.intro
    | webListener => exact True.intro
    | ssdpListener => exact True.intro

/-- Along a run of careful calls no handler outlives its object, and every handler that the event
loop can call next has a result. -/
theorem callbacks_refer_to_objects {d : Device}
    (reached : Reaches step (fun d input => d.careful input.1 = true) Device.init d) :
    (∃ subs webs replies, d.InHand subs webs replies) ∧
      ∀ call registers, d.careful call = true → d.enabled call = true →
        ∃ after, d.step (call, registers) = some after := by
  have kept : ∃ subs webs replies, d.Tidy subs webs replies := by
    refine @Reaches.invariant _ _ _ _ (fun d => ∃ subs webs replies, d.Tidy subs webs replies)
      _ _ ?_ reached ⟨[], [], [], tidy_init⟩
    rintro before ⟨call, registers⟩ after careful steps ⟨subs, webs, replies, tidy⟩
    obtain ⟨⟨left, kempt⟩, -⟩ := tidy.kempt.step False.elim steps
    obtain ⟨next, proceeds, webs', replies', soundWebs, soundReplies, tended⟩ :=
      @Tidy.proceeds before subs webs replies call registers tidy careful (tidy.enabled steps)
    cases steps.symm.trans proceeds
    exact ⟨left, webs', replies', kempt, soundWebs, soundReplies, tended⟩
  obtain ⟨subs, webs, replies, tidy⟩ := kept
  refine ⟨⟨subs, webs, replies, tidy.inHand⟩, ?_⟩
  intro call registers careful enabled
  obtain ⟨after, steps, -⟩ := @Tidy.proceeds d subs webs replies call registers tidy careful enabled
  exact ⟨after, steps⟩

def replyWaits : List (Device → Call × Bool) :=
  [fun _ => (.start .fine, true), fun _ => (.msearch true, true)]

theorem callbacks_refer_to_objects_reply :
    ∃ d, Reaches step (fun d input => d.careful input.1 = true) Device.init d ∧
      .msearchReply 0 ∈ d.eloop ∧
      (∃ subs webs replies, d.InHand subs webs replies) ∧
      ∀ call registers, d.careful call = true → d.enabled call = true →
        ∃ after, d.step (call, registers) = some after := by
  have runs : (follows step (fun d input => d.careful input.1 = true) Device.init replyWaits).map
      (fun d => decide (.msearchReply 0 ∈ d.eloop)) = some true := by decide
  obtain ⟨d, ends, shows⟩ := Option.map_eq_some_iff.mp runs
  have reached := reaches_of_follows ends
  exact ⟨d, reached, of_decide_eq_true shows, callbacks_refer_to_objects reached⟩

/-- The device is stopped and the timeout is left, for a reply that is no longer there; and a
connection whose reader cannot be made is stopped before it is linked. -/
theorem stop_leaves_timeout :
    ¬ (∀ d, Reaches step (fun _ _ => True) Device.init d →
      ∃ subs webs replies, d.InHand subs webs replies) ∧
    ∃ d, Reaches step (fun _ _ => True) Device.init d ∧
      d.enabled (.accept true false) = true ∧
      d.step (.accept true false, true) = none := by
  constructor
  · intro always
    have runs : (follows step (fun _ _ => True) Device.init
        (replyWaits ++ [fun _ => (.stop, true)])).map
          (fun d => (decide (.msearchReply 0 ∈ d.eloop), d.msearchReplies.head)) =
        some (true, none) := by decide
    obtain ⟨d, ends, shows⟩ := Option.map_eq_some_iff.mp runs
    obtain ⟨waits, empty⟩ := Prod.mk.inj shows
    obtain ⟨subs, webs, replies, inHand⟩ := always d (reaches_of_follows ends)
    have member : 0 ∈ replies := inHand.callbacks _ (of_decide_eq_true waits)
    rw [inHand.msearchReplies.head, head?_eq_none_iff] at empty
    rw [empty] at member
    cases member
  · have runs : (follows step (fun _ _ => True) Device.init
        [fun _ => (.start .fine, true)]).map (fun d => (d.enabled (.accept true false),
          (d.step (.accept true false, true)).isNone)) = some (true, true) := by decide
    obtain ⟨d, ends, shows⟩ := Option.map_eq_some_iff.mp runs
    obtain ⟨enabled, lost⟩ := Prod.mk.inj shows
    exact ⟨d, reaches_of_follows ends, enabled, Option.isNone_iff_eq_none.mp lost⟩

end Device

end AthApps.Upnp
