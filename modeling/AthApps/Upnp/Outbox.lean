import AthApps.Upnp.Line

/-!
# What holds of one subscription

`Sound t q` says that the queue of the subscription holds the events `q` and
that the event loop knows handlers only for the event that is being sent.
There is one lemma for each function of the source: on a sound state it has a
result, the result is sound, and the handlers of others are left alone.
-/

set_option autoImplicit false

namespace AthApps.Upnp

open AthApps.Lib List Option
open Function (update update_self)

/-- The event of the given subscription that the handler is called for. -/
def Callback.eventOf (id : Nat) : Callback → Option Nat
  | .eventTimeout s e => if s = id then some e else none
  | .eventTxReady s e => if s = id then some e else none
  | .eventResponse s e => if s = id then some e else none
  | _ => none

@[simp] theorem Callback.eventOf_timeout (id e : Nat) :
    (Callback.eventTimeout id e).eventOf id = some e := if_pos rfl

@[simp] theorem Callback.eventOf_txReady (id e : Nat) :
    (Callback.eventTxReady id e).eventOf id = some e := if_pos rfl

@[simp] theorem Callback.eventOf_response (id e : Nat) :
    (Callback.eventResponse id e).eventOf id = some e := if_pos rfl

@[simp] theorem Callback.eventOf_sendAllLater (id : Nat) :
    Callback.sendAllLater.eventOf id = none := rfl

variable {eloop : List Callback} {callback : Callback}

theorem Callback.eventOf_some {id e : Nat} (about : callback.eventOf id = some e) :
    callback = .eventTimeout id e ∨ callback = .eventTxReady id e ∨
      callback = .eventResponse id e := by
  cases callback <;> simp_all [Callback.eventOf]

@[simp] theorem mem_register {callback other : Callback} :
    other ∈ register callback eloop ↔ other = callback ∨ other ∈ eloop := mem_cons

@[simp] theorem mem_cancel {callback other : Callback} :
    other ∈ cancel callback eloop ↔ other ∈ eloop ∧ other ≠ callback := by
  simp [cancel]

theorem nodup_cancel (nodup : eloop.Nodup) : (cancel callback eloop).Nodup := nodup.filter _

theorem cancel_eq_self (out : callback ∉ eloop) : cancel callback eloop = eloop := by
  rw [cancel, filter_eq_self]
  intro other member
  simp only [ne_eq, decide_not, Bool.not_eq_true', decide_eq_false_iff_not]
  rintro rfl
  exact out member

def WpsEvent.Idle (ev : WpsEvent) : Prop :=
  ev.sd = false ∧ ev.sdRegistered = false ∧ ev.hread = false

namespace Outbox

/-- The event that is being sent, and what is registered for it besides its timeout. -/
structure Sends (t : Outbox) (e : Nat) (ev : WpsEvent) : Prop where
  address : ev.addr = ev.retry
  retries : ev.retry < t.s.nAddr
  writes : .eventTxReady t.s.id e ∈ t.eloop ↔ ev.sdRegistered = true
  reads : .eventResponse t.s.id e ∈ t.eloop ↔ ev.hread = true
  connected : ev.sdRegistered = true → ev.sd = true ∧ ev.hread = false

structure Sound (t : Outbox) (q : List Nat) : Prop where
  queue : t.s.eventQueue.Holds q
  count : t.s.nQueue = q.length
  older : ∀ e, t.s.event e ≠ none → e < t.s.added
  waiting : ∀ e ∈ q, ∃ ev, t.s.event e = some ev ∧ ev.Idle ∧ (t.s.nAddr ≠ 0 → ev.retry < t.s.nAddr)
  sending : ∀ e, t.s.currentEvent = some e → e ∉ q ∧ ∃ ev, t.s.event e = some ev ∧ t.Sends e ev
  registered : ∀ callback ∈ t.eloop, ∀ e, callback.eventOf t.s.id = some e →
    t.s.currentEvent = some e
  later : .sendAllLater ∈ t.eloop → t.eventSendAllQueued = true
  nodup : t.eloop.Nodup
  failures : ∀ e ev, t.s.event e = some ev → ∀ k < ev.retry, .failed e k ∈ t.s.history

/-- An event in hand: neither queued nor being sent. -/
structure Held (t : Outbox) (q : List Nat) (e : Nat) (ev : WpsEvent) : Prop where
  sound : t.Sound q
  current : t.s.currentEvent = none
  out : e ∉ q
  here : t.s.event e = some ev
  idle : ev.Idle

/-- What the functions on one subscription leave alone. -/
structure Same (t other : Outbox) : Prop where
  id : other.s.id = t.s.id
  nAddr : other.s.nAddr = t.s.nAddr
  timeoutTime : other.s.timeoutTime = t.s.timeoutTime
  uuid : other.s.uuid = t.s.uuid
  foreign : ∀ callback, callback.eventOf t.s.id = none → callback ≠ .sendAllLater →
    (callback ∈ other.eloop ↔ callback ∈ t.eloop)
  flag : t.eventSendAllQueued = true → other.eventSendAllQueued = true
  timer : .sendAllLater ∈ t.eloop → .sendAllLater ∈ other.eloop

theorem Same.refl (t : Outbox) : t.Same t :=
  ⟨rfl, rfl, rfl, rfl, fun _ _ _ => Iff.rfl, fun flag => flag, fun timer => timer⟩

theorem Same.trans {t second third : Outbox} (early : t.Same second) (late : second.Same third) :
    t.Same third := by
  refine ⟨late.id.trans early.id, late.nAddr.trans early.nAddr,
    late.timeoutTime.trans early.timeoutTime, late.uuid.trans early.uuid, ?_,
    fun flag => late.flag (early.flag flag), fun timer => late.timer (early.timer timer)⟩
  intro callback foreign other
  have later := late.foreign callback (early.id ▸ foreign) other
  exact later.trans (early.foreign callback foreign other)

variable {t : Outbox} {q : List Nat} {ev : WpsEvent} {e : Nat}

theorem Sound.elsewhere {eloop : List Callback} {queued : Bool} (sound : t.Sound q)
    (same : ∀ (callback : Callback) e, callback.eventOf t.s.id = some e →
      (callback ∈ eloop ↔ callback ∈ t.eloop))
    (nodup : eloop.Nodup) (later : .sendAllLater ∈ eloop → queued = true) :
    Sound { t with eloop := eloop, eventSendAllQueued := queued } q := by
  refine ⟨sound.queue, sound.count, sound.older, sound.waiting, ?_, ?_, later, nodup,
    sound.failures⟩
  · intro e current
    obtain ⟨out, ev, here, sends⟩ := sound.sending e current
    exact ⟨out, ev, here, sends.address, sends.retries, (same _ e (by simp)).trans sends.writes,
      (same _ e (by simp)).trans sends.reads, sends.connected⟩
  · intro callback member e about
    exact sound.registered callback ((same callback e about).mp member) e about

/-! ## Cleaning and deleting an event -/

/-- The result of `event_clean` for the event that is being sent. -/
def cleaned (t : Outbox) (e : Nat) (ev : WpsEvent) : Outbox :=
  { t with
    s := { t.s with
      currentEvent := none,
      event := update t.s.event e
        (some { ev with sd := false, sdRegistered := false, hread := false }) },
    eloop := Upnp.cancel (.eventResponse t.s.id e) (Upnp.cancel (.eventTxReady t.s.id e)
      (Upnp.cancel (.eventTimeout t.s.id e) t.eloop)) }

theorem mem_cleaned {callback : Callback} : callback ∈ (t.cleaned e ev).eloop ↔
      callback ∈ t.eloop ∧ callback.eventOf t.s.id ≠ some e := by
  cases callback <;> simp [cleaned, Callback.eventOf]

theorem Sound.eventClean_current
    (sound : t.Sound q) (current : t.s.currentEvent = some e) (here : t.s.event e = some ev) :
    t.eventClean e = some (t.cleaned e ev) := by
  obtain ⟨-, ev', here', sends⟩ := sound.sending e current
  obtain rfl : ev = ev' := by simpa [here] using here'
  have writes : ev.sdRegistered = false → .eventTxReady t.s.id e ∉ t.eloop := by
    intro off member
    rw [sends.writes.mp member] at off
    cases off
  have reads : ev.hread = false → .eventResponse t.s.id e ∉ t.eloop := by
    intro off member
    rw [sends.reads.mp member] at off
    cases off
  rw [eventClean, here]
  simp only [bind_eq_bind, bind_some, current, if_true, some.injEq]
  cases written : ev.sdRegistered <;> cases read : ev.hread <;>
    simp_all [setEvent, cancel, cleaned, cancel_eq_self]

theorem Sound.cleaned_held
    (sound : t.Sound q) (current : t.s.currentEvent = some e) (here : t.s.event e = some ev) :
    (t.cleaned e ev).Held q e
        { ev with sd := false, sdRegistered := false, hread := false } := by
  obtain ⟨out, -⟩ := sound.sending e current
  have apart : ∀ other ∈ q, other ≠ e := by
    rintro other member rfl
    exact out member
  refine ⟨⟨sound.queue, sound.count, ?_, ?_, ?_, ?_, ?_,
    nodup_cancel (nodup_cancel (nodup_cancel sound.nodup)), ?_⟩, rfl, out,
    update_self .., rfl, rfl, rfl⟩
  · intro other lives
    by_cases same : other = e
    · subst same
      exact sound.older other (by simp [here])
    · exact sound.older other (by simpa [cleaned, same] using lives)
  · intro other member
    obtain ⟨waits, found, facts⟩ := sound.waiting other member
    exact ⟨waits, by simpa [cleaned, apart other member] using found, facts⟩
  · intro other impossible
    cases impossible
  · intro callback member other about
    obtain ⟨before, kept⟩ := mem_cleaned.mp member
    have old := sound.registered callback before other about
    rw [current] at old
    cases old
    exact absurd about kept
  · intro member
    exact sound.later (mem_cleaned.mp member).1
  · intro other found lives k small
    by_cases same : other = e
    · subst same
      have shape : { ev with sd := false, sdRegistered := false, hread := false } = found := by
        simpa [cleaned] using lives
      rw [← shape] at small
      exact sound.failures other ev here k small
    · exact sound.failures other found (by simpa [cleaned, same] using lives) k small

theorem cleaned_same (t : Outbox) (e : Nat) (ev : WpsEvent) : t.Same (t.cleaned e ev) := by
  refine ⟨rfl, rfl, rfl, rfl, ?_, fun flag => flag, ?_⟩
  · intro callback foreign _
    simp [mem_cleaned, foreign]
  · intro timer
    exact mem_cleaned.mpr ⟨timer, by simp⟩

theorem Sound.mark (sound : t.Sound q) (m : Mark) : (t.mark m).Sound q := by
  refine ⟨sound.queue, sound.count, sound.older, sound.waiting, ?_, sound.registered, sound.later,
    sound.nodup, ?_⟩
  · intro e current
    obtain ⟨out, ev, here, sends⟩ := sound.sending e current
    exact ⟨out, ev, here, sends.address, sends.retries, sends.writes, sends.reads, sends.connected⟩
  · intro e ev here k small
    exact mem_append_left [m] (sound.failures e ev here k small)

theorem mark_same (t : Outbox) (m : Mark) : t.Same (t.mark m) :=
  ⟨rfl, rfl, rfl, rfl, fun _ _ _ => Iff.rfl, fun flag => flag, fun timer => timer⟩

@[simp] theorem mark_eloop (t : Outbox) (m : Mark) : (t.mark m).eloop = t.eloop := rfl

@[simp] theorem mark_id (t : Outbox) (m : Mark) : (t.mark m).s.id = t.s.id := rfl

theorem setEvent_same (t : Outbox) (e : Nat) (ev : Option WpsEvent) : t.Same (t.setEvent e ev) :=
  ⟨rfl, rfl, rfl, rfl, fun _ _ _ => Iff.rfl, fun flag => flag, fun timer => timer⟩

theorem Held.setEvent (held : t.Held q e ev) (other : Option WpsEvent)
    (failures : ∀ ev, other = some ev → ∀ k < ev.retry, .failed e k ∈ t.s.history) :
    (t.setEvent e other).Sound q := by
  have sound := held.sound
  refine ⟨sound.queue, sound.count, ?_, ?_, ?_, sound.registered, sound.later, sound.nodup, ?_⟩
  · intro third lives
    by_cases same : third = e
    · subst same
      exact sound.older third (by simp [held.here])
    · exact sound.older third (by simpa [Outbox.setEvent, same] using lives)
  · intro third member
    have apart : third ≠ e := by
      rintro rfl
      exact held.out member
    obtain ⟨waits, found, facts⟩ := sound.waiting third member
    exact ⟨waits, by simpa [Outbox.setEvent, apart] using found, facts⟩
  · intro third current
    rw [show (t.setEvent e other).s.currentEvent = t.s.currentEvent from rfl, held.current]
      at current
    cases current
  · intro third found lives k small
    by_cases same : third = e
    · subst same
      exact failures found (by simpa [Outbox.setEvent] using lives) k small
    · exact sound.failures third found (by simpa [Outbox.setEvent, same] using lives) k small

theorem Sound.eventDelete_current
    (sound : t.Sound q) (current : t.s.currentEvent = some e) (here : t.s.event e = some ev) :
    t.eventDelete e = some ((t.cleaned e ev).setEvent e none) ∧
      ((t.cleaned e ev).setEvent e none).Sound q := by
  refine ⟨by rw [eventDelete, sound.eventClean_current current here]; rfl, ?_⟩
  apply (sound.cleaned_held current here).setEvent none
  intro ev impossible
  cases impossible

theorem eventDelete_idle {t : Outbox} {e : Nat} {ev : WpsEvent}
    (current : t.s.currentEvent ≠ some e) (here : t.s.event e = some ev) (idle : ev.Idle) :
    t.eventDelete e = some (t.setEvent e none) := by
  obtain ⟨closed, unwritten, unread⟩ := idle
  simp [eventDelete, eventClean, here, current, unwritten, unread, Outbox.setEvent]

/-! ## The queue -/

theorem eventDequeue_nil (sound : t.Sound []) : t.eventDequeue = some (t, none) := by
  rw [eventDequeue, sound.queue.dequeue_nil]
  rfl

theorem eventDequeue_cons (sound : t.Sound (e :: q)) : ∃ queue, queue.Holds q ∧ t.eventDequeue =
      some ({ t with s := { t.s with eventQueue := queue, nQueue := t.s.nQueue - 1 } },
        some e) := by
  obtain ⟨queue, taken, holds⟩ := sound.queue.dequeue_cons
  refine ⟨queue, holds, ?_⟩
  rw [eventDequeue, taken]
  rfl

theorem Held.enqueueAtBegin (held : t.Held q e ev) (few : t.s.nAddr ≠ 0 → ev.retry < t.s.nAddr) :
    ∃ queue, t.eventEnqueueAtBegin e =
        some { t with s := { t.s with eventQueue := queue, nQueue := t.s.nQueue + 1 } } ∧
      Sound { t with s := { t.s with eventQueue := queue, nQueue := t.s.nQueue + 1 } }
        (putBack e q) := by
  have sound := held.sound
  obtain ⟨queue, linked, holds⟩ : ∃ queue, t.s.eventQueue.linkBehindHead e = some queue ∧
      queue.Holds (putBack e q) := by
    cases q with
    | nil => exact sound.queue.linkBehindHead_nil
    | cons first rest => exact sound.queue.linkBehindHead_cons held.out
  refine ⟨queue, by rw [eventEnqueueAtBegin, linked]; rfl, ?_⟩
  refine ⟨holds, ?_, sound.older, ?_, ?_, sound.registered, sound.later, sound.nodup,
    sound.failures⟩
  · have count := sound.count
    rw [length_putBack]
    simp only [count]
    omega
  · intro other member
    rcases mem_putBack.mp member with rfl | member
    · exact ⟨ev, held.here, held.idle, few⟩
    · exact sound.waiting other member
  · intro other current
    have none := held.current
    rw [show t.s.currentEvent = some other from current] at none
    cases none

theorem Sound.enqueueAtEnd (sound : t.Sound q) (out : e ∉ q) (apart : t.s.currentEvent ≠ some e)
    (here : t.s.event e = some ev) (idle : ev.Idle) (few : t.s.nAddr ≠ 0 → ev.retry < t.s.nAddr) :
    ∃ queue, t.eventEnqueueAtEnd e =
        some { t with s := { t.s with eventQueue := queue, nQueue := t.s.nQueue + 1 } } ∧
      Sound { t with s := { t.s with eventQueue := queue, nQueue := t.s.nQueue + 1 } }
        (q ++ [e]) := by
  obtain ⟨queue, linked, holds⟩ := sound.queue.linkToEnd_eq out
  refine ⟨queue, by rw [eventEnqueueAtEnd, linked]; rfl, ?_⟩
  refine ⟨holds, ?_, sound.older, ?_, ?_, sound.registered, sound.later, sound.nodup,
    sound.failures⟩
  · have count := sound.count
    simp only [count, length_append, length_singleton]
    omega
  · intro other member
    rcases mem_append.mp member with member | member
    · exact sound.waiting other member
    · obtain rfl := mem_singleton.mp member
      exact ⟨ev, here, idle, few⟩
  · intro other current
    obtain ⟨outside, found, lives, sends⟩ := sound.sending other current
    refine ⟨?_, found, lives, sends.address, sends.retries, sends.writes, sends.reads,
      sends.connected⟩
    intro member
    rcases mem_append.mp member with member | member
    · exact outside member
    · obtain rfl := mem_singleton.mp member
      exact apart current

/-! ## Waking the sender -/

@[simp] theorem eventSendAllLater_s (t : Outbox) (registers : Bool) :
    (t.eventSendAllLater registers).s = t.s := by
  unfold eventSendAllLater
  split
  · rfl
  · split <;> rfl

@[simp] theorem eventSendAllLater_queued (t : Outbox) (registers : Bool) :
    (t.eventSendAllLater registers).eventSendAllQueued = true := by
  unfold eventSendAllLater
  split
  next queued => exact queued
  next => split <;> rfl

theorem mem_eventSendAllLater {registers : Bool} {callback : Callback}
    (other : callback ≠ .sendAllLater) :
    callback ∈ (t.eventSendAllLater registers).eloop ↔ callback ∈ t.eloop := by
  unfold eventSendAllLater
  split
  · rfl
  · split
    · simp [Outbox.register, other]
    · rfl

/-- The flag stands for a timeout that is registered. -/
def Flagged (t : Outbox) : Prop := t.eventSendAllQueued = true → .sendAllLater ∈ t.eloop

theorem cleaned_flagged (flagged : t.Flagged) : (t.cleaned e ev).Flagged := by
  intro queued
  exact mem_cleaned.mpr ⟨flagged queued, by simp⟩

theorem flagged_eventSendAllLater {registers : Bool} (works : registers = true)
    (flagged : t.Flagged) : (t.eventSendAllLater registers).Flagged := by
  intro _
  subst works
  unfold eventSendAllLater
  split
  next queued => exact flagged queued
  next => simp [Outbox.register]

theorem eventSendAllLater_same (t : Outbox) (registers : Bool) :
    t.Same (t.eventSendAllLater registers) := by
  refine ⟨by simp, by simp, by simp, by simp, ?_, fun _ => by simp, ?_⟩
  · intro callback _ other
    exact mem_eventSendAllLater other
  · intro timer
    unfold eventSendAllLater
    split
    · exact timer
    · split
      · simp [Outbox.register]
      · exact timer

theorem Sound.eventSendAllLater (sound : t.Sound q)
    (registers : Bool) : (t.eventSendAllLater registers).Sound q := by
  refine ⟨by simpa using sound.queue, by simpa using sound.count, by simpa using sound.older,
    by simpa using sound.waiting, ?_, ?_, fun _ => by simp, ?_, by simpa using sound.failures⟩
  · intro e current
    rw [eventSendAllLater_s] at current ⊢
    obtain ⟨out, ev, here, sends⟩ := sound.sending e current
    refine ⟨out, ev, here, ?_⟩
    refine ⟨sends.address, by simpa using sends.retries, ?_, ?_, sends.connected⟩
    · rw [mem_eventSendAllLater (by simp), eventSendAllLater_s]
      exact sends.writes
    · rw [mem_eventSendAllLater (by simp), eventSendAllLater_s]
      exact sends.reads
  · intro callback member e about
    rw [eventSendAllLater_s] at about ⊢
    have other : callback ≠ .sendAllLater := by
      rintro rfl
      cases about
    exact sound.registered callback ((mem_eventSendAllLater other).mp member) e about
  · unfold Outbox.eventSendAllLater
    split
    · exact sound.nodup
    next idle =>
      split
      · refine nodup_cons.mpr ⟨?_, sound.nodup⟩
        intro timer
        exact idle (sound.later timer)
      · exact sound.nodup

/-! ## The handlers -/

def line (t : Outbox) (q : List Nat) : Line :=
  ⟨t.s.currentEvent, q, t.s.added, t.s.history⟩

/-- What each function on a sound subscription does. -/
structure Does (registers : Bool) (keeps : List Nat → Prop) (t : Outbox) (q : List Nat)
    (after : Outbox) (left : List Nat) : Prop where
  sound : after.Sound left
  same : t.Same after
  moves : Moves t.s.nAddr keeps (t.line q) (after.line left)
  flagged : registers = true → t.Flagged → after.Flagged

section Handlers

variable {t : Outbox} {q : List Nat} {e : Nat} {ev : WpsEvent} {registers : Bool}
  {keeps : List Nat → Prop}

theorem Does.trans {middle after : Outbox} {between left : List Nat}
    (early : t.Does registers keeps q middle between)
    (late : middle.Does registers keeps between after left) : t.Does registers keeps q after left := by
  refine ⟨late.sound, early.same.trans late.same, ?_, fun works flagged =>
    late.flagged works (early.flagged works flagged)⟩
  have later := late.moves
  rw [early.same.nAddr] at later
  exact early.moves.trans later

theorem Sound.later_does (sound : t.Sound q) :
    t.Does registers keeps q (t.eventSendAllLater registers) q := by
  refine ⟨sound.eventSendAllLater registers, eventSendAllLater_same t registers, ?_,
    flagged_eventSendAllLater⟩
  rw [line, line, eventSendAllLater_s]

theorem Held.again (held : t.Held q e ev) (few : ev.retry < t.s.nAddr) :
    ∃ after, ((t.eventEnqueueAtBegin e).bind fun t => some (t.eventSendAllLater registers)) =
        some after ∧
      after.Sound (putBack e q) ∧ t.Same after ∧ (registers = true → t.Flagged → after.Flagged) ∧
      after.eventSendAllQueued = true ∧
      after.line (putBack e q) = ⟨none, putBack e q, t.s.added, t.s.history⟩ := by
  obtain ⟨queue, linked, sound⟩ := held.enqueueAtBegin fun _ => few
  refine ⟨_, by rw [linked]; rfl, sound.eventSendAllLater registers, ?_, ?_, by simp, ?_⟩
  · refine Same.trans ?_ (eventSendAllLater_same _ registers)
    exact ⟨rfl, rfl, rfl, rfl, fun _ _ _ => Iff.rfl, fun flag => flag, fun timer => timer⟩
  · intro works flagged
    exact flagged_eventSendAllLater works flagged
  · rw [line, eventSendAllLater_s]
    simp [held.current]

theorem Held.failed (held : t.Held q e ev) (address : ev.addr = ev.retry) :
    ((t.setEvent e (some { ev with retry := ev.retry + 1 })).mark (.failed e ev.addr)).Held q e
      { ev with retry := ev.retry + 1 } := by
  have marked : (t.mark (.failed e ev.addr)).Held q e ev :=
    ⟨held.sound.mark _, held.current, held.out, held.here, held.idle⟩
  refine ⟨marked.setEvent _ ?_, held.current, held.out, update_self .., held.idle⟩
  intro found same k small
  cases same
  rcases Nat.lt_succ_iff_lt_or_eq.mp small with small | rfl
  · exact mem_append_left _ (held.sound.failures e ev held.here k small)
  · rw [address]
    exact mem_append_right _ (mem_singleton.mpr rfl)

theorem eventRetry_same {first : Outbox} (clean : t.eventClean e = some first)
    (here : first.s.event e = some ev) :
    t.eventRetry e false registers =
      if first.s.nAddr ≤ ev.retry then some (first.mark (.gaveUp e))
      else (first.eventEnqueueAtBegin e).bind fun t => some (t.eventSendAllLater registers) := by
  rw [Outbox.eventRetry, clean]
  simp [here]

theorem eventRetry_next {first : Outbox} (clean : t.eventClean e = some first)
    (here : first.s.event e = some ev) :
    t.eventRetry e true registers =
      let second := (first.setEvent e (some { ev with retry := ev.retry + 1 })).mark
        (.failed e ev.addr)
      if first.s.nAddr ≤ ev.retry + 1 then some (second.mark (.gaveUp e))
      else (second.eventEnqueueAtBegin e).bind fun t => some (t.eventSendAllLater registers) := by
  rw [Outbox.eventRetry, clean]
  simp [here, Outbox.setEvent, mark]

/-- An event that failed is in line again or, after the last address, given up. -/
theorem Sound.eventRetry (sound : t.Sound q) (current : t.s.currentEvent = some e)
    (here : t.s.event e = some ev) (next : Bool)
    (kept : ev.retry + next.toNat < t.s.nAddr → keeps q) :
    ∃ after left, t.eventRetry e next registers = some after ∧
      t.Does registers keeps q after left ∧ after.s.currentEvent = none ∧
      (after.eventSendAllQueued = true ∨
        left = q ∧ after.eventSendAllQueued = t.eventSendAllQueued ∧
          t.s.nAddr ≤ ev.retry + next.toNat) := by
  obtain ⟨-, ev', here', sends⟩ := sound.sending e current
  obtain rfl : ev = ev' := by simpa [here] using here'
  have held := sound.cleaned_held current here
  have clean := sound.eventClean_current current here
  have cleanSame := cleaned_same t e ev
  have start : t.line q = ⟨some e, q, t.s.added, t.s.history⟩ := by rw [line, current]
  have flagged : t.Flagged → (t.cleaned e ev).Flagged := cleaned_flagged
  cases next with
  | false =>
    have few : ev.retry < t.s.nAddr := sends.retries
    obtain ⟨after, done, sound', same, flag, queued, final⟩ := @Held.again _ _ _ _ registers held few
    refine ⟨after, putBack e q, ?_, ⟨sound', cleanSame.trans same, ?_, ?_⟩, ?_, Or.inl queued⟩
    · rw [eventRetry_same clean held.here]
      exact (if_neg (Nat.not_le.mpr few)).trans done
    · rw [start, final]
      exact .single (Move.putBack e q t.s.added t.s.history (kept few))
    · intro works flag'
      exact flag works (flagged flag')
    · exact congrArg Line.current final
  | true =>
    have failed := held.failed sends.address
    have failedSame := cleanSame.trans ((setEvent_same _ e _).trans
      (mark_same ((t.cleaned e ev).setEvent e (some { ev with
        sd := false, sdRegistered := false, hread := false, retry := ev.retry + 1 }))
        (.failed e ev.addr)))
    have fails : Move t.s.nAddr keeps (t.line q)
        ⟨some e, q, t.s.added, t.s.history ++ [.failed e ev.addr]⟩ := by
      rw [start]
      exact Move.fail e q t.s.added t.s.history ev.addr
    rw [eventRetry_next clean held.here]
    dsimp only
    split
    next last =>
      have all : ∀ k < t.s.nAddr, .failed e k ∈ t.s.history ++ [.failed e ev.addr] := by
        intro k small
        exact failed.sound.failures e _ failed.here k (Nat.lt_of_lt_of_le small last)
      refine ⟨_, q, rfl, ⟨failed.sound.mark _, failedSame.trans (mark_same _ _), ?_, ?_⟩,
        rfl, Or.inr ⟨rfl, rfl, last⟩⟩
      · exact (Relation.ReflTransGen.single fails).tail
          (Move.giveUp e q t.s.added (t.s.history ++ [.failed e ev.addr]) all)
      · intro _ flag queued
        exact flagged flag queued
    next more =>
      have few : ev.retry + 1 < t.s.nAddr := Nat.lt_of_not_le more
      obtain ⟨after, done, sound', same, flag, queued, final⟩ :=
        @Held.again _ _ _ _ registers failed few
      refine ⟨after, putBack e q, done, ⟨sound', failedSame.trans same, ?_, ?_⟩, ?_, Or.inl queued⟩
      · rw [final]
        exact (Relation.ReflTransGen.single fails).tail
          (Move.putBack e q t.s.added (t.s.history ++ [.failed e ev.addr]) (kept few))
      · intro works flag'
        exact flag works (flagged flag')
      · exact congrArg Line.current final

theorem sendMore_s (t : Outbox) (registers : Bool) : (t.sendMore registers).s = t.s := by
  unfold sendMore
  split
  · exact eventSendAllLater_s t registers
  · rfl

theorem Sound.more_does (sound : t.Sound q) :
    t.Does registers keeps q (t.sendMore registers) q := by
  unfold sendMore
  split
  · exact sound.later_does
  · exact ⟨sound, .refl t, .refl, fun _ flagged => flagged⟩

theorem sendMore_queued (more : t.s.eventQueue.head.isSome = true) :
    (t.sendMore registers).eventSendAllQueued = true := by
  rw [sendMore, if_pos more]
  exact eventSendAllLater_queued t registers

/-- Nothing waits without a wake-up. -/
structure Awake (t : Outbox) : Prop where
  flagged : t.Flagged
  waits : t.s.nAddr ≠ 0 → t.s.currentEvent = none → t.s.eventQueue.head.isSome = true →
    t.eventSendAllQueued = true
  timed : ∀ e, t.s.currentEvent = some e → .eventTimeout t.s.id e ∈ t.eloop ∧
    (.eventTxReady t.s.id e ∈ t.eloop ∨ .eventResponse t.s.id e ∈ t.eloop)

theorem awake_of_idle (flagged : t.Flagged) (idle : t.s.currentEvent = none)
    (waits : t.s.eventQueue.head.isSome = true → t.eventSendAllQueued = true) : t.Awake := by
  refine ⟨flagged, fun _ _ more => waits more, ?_⟩
  intro e current
  rw [idle] at current
  cases current

theorem sendMore_awake (flagged : (t.sendMore registers).Flagged)
    (idle : t.s.currentEvent = none) : (t.sendMore registers).Awake := by
  apply awake_of_idle flagged
  · rw [sendMore_s]
    exact idle
  · rw [sendMore_s]
    exact sendMore_queued

theorem Sound.eventTimeoutHandler (sound : t.Sound q) (current : t.s.currentEvent = some e)
    (here : t.s.event e = some ev) (kept : ev.retry + 1 < t.s.nAddr → keeps q) :
    ∃ after left, t.eventTimeoutHandler e registers = some after ∧
      t.Does registers keeps q after left ∧
      (registers = true → t.Flagged →
        (t.s.nAddr ≤ ev.retry + 1 → t.eventSendAllQueued = false → q = []) → after.Awake) := by
  obtain ⟨after, left, done, does, idle, queued⟩ :=
    @Sound.eventRetry t q e ev registers keeps sound current here true kept
  refine ⟨after, left, by rw [Outbox.eventTimeoutHandler, if_pos current, done], does, ?_⟩
  intro works flagged heeded
  apply awake_of_idle (does.flagged works flagged) idle
  intro more
  rcases queued with queued | ⟨rfl, same, last⟩
  · exact queued
  · rw [same]
    by_contra off
    have empty := heeded last (by simpa using off)
    have head := does.sound.queue.head
    rw [empty] at head
    simp [head] at more

theorem Sound.retry_more (sound : t.Sound q) (current : t.s.currentEvent = some e)
    (here : t.s.event e = some ev) (next : Bool)
    (kept : ev.retry + next.toNat < t.s.nAddr → keeps q) :
    ∃ after left, ((t.eventRetry e next registers).bind fun t => some (t.sendMore registers)) =
        some after ∧
      t.Does registers keeps q after left ∧
      (registers = true → t.Flagged → after.Awake) := by
  obtain ⟨after, left, done, does, idle, -⟩ :=
    @Sound.eventRetry t q e ev registers keeps sound current here next kept
  have more := @Sound.more_does after left registers keeps does.sound
  refine ⟨after.sendMore registers, left, by rw [done]; rfl, does.trans more, ?_⟩
  intro works flagged
  exact sendMore_awake (more.flagged works (does.flagged works flagged)) idle

/-- Fewer handlers of the event that is being sent; its socket and its reader stay. -/
theorem Sound.fewer {eloop : List Callback} (sound : t.Sound q)
    (nodup : eloop.Nodup) (fewer : ∀ callback ∈ eloop, callback ∈ t.eloop)
    (kept : ∀ callback ∈ t.eloop, (∀ e, callback ≠ .eventTimeout t.s.id e) → callback ∈ eloop) :
    Sound { t with eloop := eloop } q := by
  refine ⟨sound.queue, sound.count, sound.older, sound.waiting, ?_, ?_, ?_, nodup, sound.failures⟩
  · intro e current
    obtain ⟨out, ev, here, sends⟩ := sound.sending e current
    refine ⟨out, ev, here, sends.address, sends.retries, ?_, ?_, sends.connected⟩
    · exact ⟨fun member => sends.writes.mp (fewer _ member),
        fun written => kept _ (sends.writes.mpr written) (by simp)⟩
    · exact ⟨fun member => sends.reads.mp (fewer _ member),
        fun read => kept _ (sends.reads.mpr read) (by simp)⟩
  · intro callback member
    exact sound.registered callback (fewer callback member)
  · intro member
    exact sound.later (fewer _ member)

theorem Sound.cancel_timeout (sound : t.Sound q) (e : Nat) :
    t.Does registers keeps q (t.cancel (.eventTimeout t.s.id e)) q := by
  refine ⟨sound.fewer (nodup_cancel sound.nodup) ?_ ?_, ⟨rfl, rfl, rfl, rfl, ?_, fun flag => flag,
    ?_⟩, .refl, ?_⟩
  · intro callback member
    exact (mem_cancel.mp member).1
  · intro callback member other
    exact mem_cancel.mpr ⟨member, other e⟩
  · intro callback foreign _
    have apart : callback ≠ .eventTimeout t.s.id e := by
      rintro rfl
      simp at foreign
    simp [cancel, apart]
  · intro timer
    exact mem_cancel.mpr ⟨timer, by simp⟩
  · intro _ flagged queued
    exact mem_cancel.mpr ⟨flagged queued, by simp⟩

theorem Sound.fired (sound : t.Sound q) (e : Nat) :
    t.Does registers keeps q { t with eloop := t.eloop.erase (.eventTimeout t.s.id e) } q := by
  have equal : t.eloop.erase (.eventTimeout t.s.id e) =
      Upnp.cancel (.eventTimeout t.s.id e) t.eloop := by
    rw [sound.nodup.erase_eq_filter, Upnp.cancel]
    apply filter_congr
    intro callback _
    by_cases same : callback = .eventTimeout t.s.id e <;> simp [same]
  have does := @Sound.cancel_timeout t q registers keeps sound e
  rw [cancel, ← equal] at does
  exact does

theorem Sound.acknowledged (sound : t.Sound q) (current : t.s.currentEvent = some e)
    (here : t.s.event e = some ev) :
    t.Does registers keeps q (((t.cleaned e ev).setEvent e none).mark (.acknowledged e)) q := by
  obtain ⟨-, sound'⟩ := sound.eventDelete_current current here
  refine ⟨sound'.mark _, ?_, .single ?_, ?_⟩
  · exact (cleaned_same t e ev).trans ((setEvent_same _ e none).trans (mark_same _ _))
  · have step := @Move.acknowledge t.s.nAddr keeps e q t.s.added t.s.history
    rw [line, current]
    exact step
  · intro _ flagged
    have cleaned : (t.cleaned e ev).Flagged := cleaned_flagged flagged
    exact cleaned

theorem Sound.eventGotResponseHandler (sound : t.Sound q) (current : t.s.currentEvent = some e)
    (here : t.s.event e = some ev) (response : Response)
    (kept : response = .bogus → ev.retry + 1 < t.s.nAddr → keeps q) :
    ∃ after gone left, t.eventGotResponseHandler e response registers = some (after, gone) ∧
      t.Does registers keeps q after left ∧
      (gone = false → registers = true → t.Flagged → after.Awake) := by
  have first := @Sound.cancel_timeout t q registers keeps sound e
  rw [Outbox.eventGotResponseHandler, if_pos current]
  cases response with
  | reply code =>
    dsimp only
    split
    next =>
      have deleted := (first.sound.eventDelete_current current here).1
      have gone := @Sound.acknowledged _ q e ev registers keeps first.sound current here
      have more := @Sound.more_does _ q registers keeps gone.sound
      refine ⟨_, false, q, by rw [deleted]; rfl, first.trans (gone.trans more), ?_⟩
      intro _ works flagged
      exact sendMore_awake ((first.trans (gone.trans more)).flagged works flagged) rfl
    next => exact ⟨_, true, q, rfl, first, fun gone => by cases gone⟩
  | bogus =>
    obtain ⟨after, left, done, does, awake⟩ := @Sound.retry_more _ q e ev registers keeps
      first.sound current here true (kept rfl)
    refine ⟨after, false, left, ?_, first.trans does, ?_⟩
    · obtain ⟨middle, retried, more⟩ := bind_eq_some_iff.mp done
      dsimp only
      rw [retried]
      simpa using more
    · intro _ works flagged
      exact awake works (first.flagged works flagged)
  | failed => exact ⟨_, true, q, rfl, first, fun gone => by cases gone⟩

theorem Sound.changed {changed : WpsEvent} {eloop : List Callback} (sound : t.Sound q)
    (current : t.s.currentEvent = some e) (here : t.s.event e = some ev)
    (retry : changed.retry = ev.retry) (nodup : eloop.Nodup)
    (others : ∀ callback : Callback, callback.eventOf t.s.id ≠ some e →
      (callback ∈ eloop ↔ callback ∈ t.eloop))
    (sends : Sends { t with eloop := eloop } e changed) :
    t.Does registers keeps q (setEvent { t with eloop := eloop } e (some changed)) q := by
  have timer : Callback.sendAllLater ∈ eloop ↔ Callback.sendAllLater ∈ t.eloop := others _ (by simp)
  refine ⟨⟨sound.queue, sound.count, ?_, ?_, ?_, ?_, ?_, nodup, ?_⟩, ⟨rfl, rfl, rfl, rfl, ?_,
    fun flag => flag, timer.mpr⟩, ?_, ?_⟩
  · intro other lives
    by_cases same : other = e
    · subst same
      exact sound.older other (by simp [here])
    · exact sound.older other (by simpa [setEvent, same] using lives)
  · intro other member
    have apart : other ≠ e := by
      rintro rfl
      exact (sound.sending other current).1 member
    obtain ⟨waits, found, facts⟩ := sound.waiting other member
    exact ⟨waits, by simpa [setEvent, apart] using found, facts⟩
  · intro other now
    obtain rfl : e = other := some.inj (current.symm.trans now)
    exact ⟨(sound.sending e current).1, changed, update_self .., sends.address,
      sends.retries, sends.writes, sends.reads, sends.connected⟩
  · intro callback member other about
    by_cases mine : callback.eventOf t.s.id = some e
    · obtain rfl : e = other := some.inj (mine.symm.trans about)
      exact current
    · exact sound.registered callback ((others callback mine).mp member) other about
  · intro member
    exact sound.later (timer.mp member)
  · intro other found lives k small
    by_cases same : other = e
    · subst same
      obtain rfl : changed = found := by simpa [setEvent] using lives
      exact sound.failures other ev here k (retry ▸ small)
    · exact sound.failures other found (by simpa [setEvent, same] using lives) k small
  · intro callback foreign _
    exact others callback (by simp [foreign])
  · exact .refl
  · intro _ flagged queued
    exact timer.mpr (flagged queued)

theorem Sound.notified (sound : t.Sound q) (current : t.s.currentEvent = some e)
    (address : Nat) : t.Does registers keeps q (t.mark (.notified e address)) q := by
  refine ⟨sound.mark _, mark_same t _, .single ?_, fun _ flagged => flagged⟩
  have step := @Move.notify t.s.nAddr keeps e q t.s.added t.s.history address
  rw [line, line, show (t.mark (.notified e address)).s.currentEvent = some e from current, current]
  exact step

theorem Sends.unread (sends : t.Sends e ev) (writes : ev.sdRegistered = true) :
    .eventResponse t.s.id e ∉ t.eloop := by
  rw [sends.reads, (sends.connected writes).2]
  simp

theorem Sound.eventSendTxReady (sound : t.Sound q) (current : t.s.currentEvent = some e)
    (here : t.s.event e = some ev) (writes : ev.sdRegistered = true) (outcome : TxReady)
    (kept : outcome ≠ .written → ev.retry + (decide (outcome = .writeFails)).toNat < t.s.nAddr →
      keeps q) :
    ∃ after left, t.eventSendTxReady e outcome registers = some after ∧
      t.Does registers keeps q after left ∧
      (registers = true → t.Awake → after.Awake) := by
  obtain ⟨-, ev', here', sends⟩ := sound.sending e current
  obtain rfl : ev = ev' := by simpa [here] using here'
  obtain ⟨connected, unread⟩ := sends.connected writes
  have first := @Sound.notified t q e registers keeps sound current ev.addr
  rw [Outbox.eventSendTxReady, here]
  simp only [bind_eq_bind, bind_some]
  rw [if_pos ⟨current, connected⟩]
  cases outcome with
  | noBuffer =>
    obtain ⟨after, left, done, does, awake⟩ := @Sound.retry_more t q e ev registers keeps
      sound current here false (kept (by simp))
    exact ⟨after, left, done, does, fun works before => awake works before.flagged⟩
  | writeFails =>
    obtain ⟨after, left, done, does, awake⟩ := @Sound.retry_more t q e ev registers keeps
      sound current here true (kept (by simp))
    exact ⟨after, left, done, does, fun works before => awake works before.flagged⟩
  | noHttpread =>
    have quiet : (t.mark (.notified e ev.addr)).Does registers keeps q
        (((t.mark (.notified e ev.addr)).cancel (.eventTxReady t.s.id e)).setEvent e
          (some { ev with sdRegistered := false })) q := by
      refine first.sound.changed current here rfl (nodup_cancel sound.nodup) ?_
        ⟨sends.address, sends.retries, ?_, ?_, ?_⟩
      · intro callback other
        have apart : callback ≠ .eventTxReady t.s.id e := by
          rintro rfl
          exact other (by simp)
        simp [apart]
      · simp
      · simp [sends.reads]
      · intro impossible
        cases impossible
    obtain ⟨after, left, done, does, awake⟩ := @Sound.retry_more _ q e
      { ev with sdRegistered := false } registers keeps quiet.sound current
      (update_self ..) false (kept (by simp))
    refine ⟨after, left, by dsimp only; rw [if_pos writes]; exact done,
      first.trans (quiet.trans does), ?_⟩
    intro works before
    exact awake works ((first.trans quiet).flagged works before.flagged)
  | written =>
    have reads : (t.mark (.notified e ev.addr)).Does registers keeps q
        ((((t.mark (.notified e ev.addr)).cancel (.eventTxReady t.s.id e)).register
          (.eventResponse t.s.id e)).setEvent e
            (some { ev with sdRegistered := false, hread := true })) q := by
      refine first.sound.changed current here rfl (nodup_cons.mpr ⟨?_, nodup_cancel sound.nodup⟩) ?_
        ⟨sends.address, sends.retries, ?_, ?_, ?_⟩
      · intro member
        exact sends.unread writes (mem_cancel.mp member).1
      · intro callback other
        have apart : callback ≠ .eventTxReady t.s.id e := by
          rintro rfl
          exact other (by simp)
        have apart' : callback ≠ .eventResponse t.s.id e := by
          rintro rfl
          exact other (by simp)
        simp [cancel, apart, apart']
      · simp [cancel]
      · simp [cancel]
      · intro impossible
        cases impossible
    refine ⟨_, q, by dsimp only; rw [if_pos writes]; rfl, first.trans reads, ?_⟩
    intro works before
    refine ⟨(first.trans reads).flagged works before.flagged, ?_, ?_⟩
    · intro _ idle
      cases current.symm.trans idle
    · intro other now
      obtain rfl : e = other := some.inj (current.symm.trans now)
      obtain ⟨timer, -⟩ := before.timed e current
      exact ⟨by simp [setEvent, Outbox.register, cancel, timer],
        Or.inr (by simp [setEvent, Outbox.register, cancel])⟩

theorem Sound.taken {queue : Lib.Ring Nat} {found : WpsEvent} (sound : t.Sound (e :: q))
    (idle : t.s.currentEvent = none) (addresses : t.s.nAddr ≠ 0) (holds : queue.Holds q)
    (here : t.s.event e = some ev) (retry : found.retry = ev.retry)
    (address : found.addr = ev.retry) (unwritten : found.sdRegistered = false)
    (unread : found.hread = false) :
    t.Does registers keeps (e :: q)
      (setEvent { t with s := { t.s with
        eventQueue := queue, nQueue := t.s.nQueue - 1, currentEvent := some e } } e
        (some found)) q := by
  have nodup := sound.queue.nodup
  have out : e ∉ q := (nodup_cons.mp nodup).1
  obtain ⟨ev', here', -, few⟩ := sound.waiting e (by simp)
  obtain rfl : ev = ev' := by simpa [here] using here'
  have silent : ∀ callback ∈ t.eloop, ∀ other, callback.eventOf t.s.id ≠ some other := by
    intro callback member other about
    cases idle.symm.trans (sound.registered callback member other about)
  refine ⟨⟨holds, ?_, ?_, ?_, ?_, ?_, sound.later, sound.nodup, ?_⟩,
    ⟨rfl, rfl, rfl, rfl, fun _ _ _ => Iff.rfl, fun flag => flag, fun timer => timer⟩, .single ?_,
    fun _ flagged => flagged⟩
  · have count := sound.count
    simp only [setEvent, count, length_cons]
    omega
  · intro other lives
    by_cases same : other = e
    · subst same
      exact sound.older other (by simp [here])
    · exact sound.older other (by simpa [setEvent, same] using lives)
  · intro other member
    have apart : other ≠ e := by
      rintro rfl
      exact out member
    obtain ⟨waits, lives, facts⟩ := sound.waiting other (mem_cons_of_mem e member)
    exact ⟨waits, by simpa [setEvent, apart] using lives, facts⟩
  · intro other now
    obtain rfl : e = other := some.inj now
    refine ⟨out, found, update_self .., address.trans retry.symm, ?_, ?_, ?_, ?_⟩
    · rw [retry]
      exact few addresses
    · rw [unwritten]
      exact ⟨fun member => absurd (Callback.eventOf_txReady t.s.id e) (silent _ member e), by simp⟩
    · rw [unread]
      exact ⟨fun member => absurd (Callback.eventOf_response t.s.id e) (silent _ member e),
        by simp⟩
    · rw [unwritten]
      intro impossible
      cases impossible
  · intro callback member other about
    exact absurd about (silent callback member other)
  · intro other known lives k small
    by_cases same : other = e
    · subst same
      obtain rfl : found = known := by simpa [setEvent] using lives
      exact sound.failures other ev here k (retry ▸ small)
    · exact sound.failures other known (by simpa [setEvent, same] using lives) k small
  · rw [line, idle]
    exact Move.take e q t.s.added t.s.history

theorem Does.start_fails {middle : Outbox} {between : List Nat}
    (first : t.Does registers keeps q middle between) (current : middle.s.currentEvent = some e)
    (here : middle.s.event e = some ev) (next : Bool)
    (kept : ev.retry + next.toNat < t.s.nAddr → keeps between) :
    ∃ after left, ((middle.eventRetry e next registers).bind fun t => some (t, true)) =
        some (after, true) ∧
      t.Does registers keeps q after left ∧ after.s.currentEvent = none := by
  obtain ⟨after, left, done, does, idle, -⟩ := @Sound.eventRetry middle between e ev registers keeps
    first.sound current here next (by rw [first.same.nAddr]; exact kept)
  exact ⟨after, left, by rw [done]; rfl, first.trans does, idle⟩

def Timed (t : Outbox) : Prop :=
  ∀ e, t.s.currentEvent = some e → .eventTimeout t.s.id e ∈ t.eloop ∧
    (.eventTxReady t.s.id e ∈ t.eloop ∨ .eventResponse t.s.id e ∈ t.eloop)

theorem timed_of_idle (idle : t.s.currentEvent = none) : t.Timed := by
  intro e current
  cases idle.symm.trans current

def SendStart.moves : SendStart → Bool
  | .connectFails => true
  | _ => false

theorem Sound.writing (sound : t.Sound q) (current : t.s.currentEvent = some e)
    (here : t.s.event e = some ev) (unwritten : ev.sdRegistered = false)
    (unread : ev.hread = false) (opened : ev.sd = true)
    (silent : .eventTimeout t.s.id e ∉ t.eloop) (timed : Bool) :
    t.Does registers keeps q (setEvent { t with eloop :=
          (if timed then [.eventTimeout t.s.id e] else []) ++ .eventTxReady t.s.id e :: t.eloop }
        e (some { ev with sdRegistered := true })) q := by
  obtain ⟨-, ev', here', sends⟩ := sound.sending e current
  obtain rfl : ev = ev' := by simpa [here] using here'
  have unheard : .eventTxReady t.s.id e ∉ t.eloop := by
    rw [sends.writes, unwritten]
    simp
  have nodup : (.eventTxReady t.s.id e :: t.eloop).Nodup := nodup_cons.mpr ⟨unheard, sound.nodup⟩
  refine sound.changed current here rfl ?_ ?_ ⟨sends.address, sends.retries, ?_, ?_, ?_⟩
  · cases timed with
    | false => exact nodup
    | true => exact nodup_cons.mpr ⟨by simpa using silent, nodup⟩
  · intro callback other
    have apart : callback ≠ .eventTxReady t.s.id e := by
      rintro rfl
      exact other (by simp)
    have apart' : callback ≠ .eventTimeout t.s.id e := by
      rintro rfl
      exact other (by simp)
    cases timed <;> simp [apart, apart']
  · cases timed <;> simp
  · cases timed <;> simp [sends.reads]
  · exact fun _ => ⟨opened, unread⟩

theorem Sound.eventSendStart (sound : t.Sound (e :: q)) (idle : t.s.currentEvent = none)
    (addresses : t.s.nAddr ≠ 0) (here : t.s.event e = some ev) (outcome : SendStart)
    (kept : outcome ≠ .started → ev.retry + outcome.moves.toNat < t.s.nAddr → keeps q) :
    ∃ after failed left, t.eventSendStart outcome registers = some (after, failed) ∧
      t.Does registers keeps (e :: q) after left ∧ after.Timed ∧
      (failed = false → after.s.currentEvent ≠ none) := by
  obtain ⟨queue, holds, dequeued⟩ := eventDequeue_cons sound
  obtain ⟨ev', here', quiet, few⟩ := sound.waiting e (by simp)
  obtain rfl : ev = ev' := by simpa [here] using here'
  have address : ev.retry % t.s.nAddr = ev.retry := Nat.mod_eq_of_lt (few addresses)
  have take : ∀ opened : Bool, t.Does registers keeps (e :: q)
      (setEvent { t with s := { t.s with
        eventQueue := queue, nQueue := t.s.nQueue - 1, currentEvent := some e } } e
        (some { ev with addr := ev.retry % t.s.nAddr, sd := opened })) q := fun opened =>
    sound.taken idle addresses holds here rfl address quiet.2.1 quiet.2.2
  have silent : .eventTimeout t.s.id e ∉ t.eloop := by
    intro member
    cases idle.symm.trans (sound.registered _ member e (by simp))
  rw [Outbox.eventSendStart, if_pos ⟨addresses, idle⟩, dequeued]
  simp only [bind_eq_bind, bind_some, here]
  have fails : ∀ (opened next : Bool), (ev.retry + next.toNat < t.s.nAddr → keeps q) →
      ∃ after failed left, ((setEvent { t with s := { t.s with
        eventQueue := queue, nQueue := t.s.nQueue - 1, currentEvent := some e } } e
        (some { ev with addr := ev.retry % t.s.nAddr, sd := opened })).eventRetry e next
          registers).bind (fun t => some (t, true)) = some (after, failed) ∧
        t.Does registers keeps (e :: q) after left ∧ after.Timed ∧
        (failed = false → after.s.currentEvent ≠ none) := by
    intro opened next kept
    obtain ⟨after, left, done, does, none⟩ := @Does.start_fails _ _ e
      { ev with addr := ev.retry % t.s.nAddr, sd := opened } _ _ _ _ (take opened) rfl
      (update_self ..) next kept
    exact ⟨after, true, left, done, does, timed_of_idle none, by simp⟩
  cases outcome with
  | noSocket =>
    have quiet' : { ev with addr := ev.retry % t.s.nAddr, sd := false } =
        { ev with addr := ev.retry % t.s.nAddr } := by rw [← quiet.1]
    have failed := fails false false (kept (by simp))
    rw [quiet'] at failed
    exact failed
  | noNonblock => exact fails true false (kept (by simp))
  | connectFails => exact fails true true (kept (by simp))
  | noSockHandler => exact fails true false (kept (by simp))
  | noTimeout =>
    have writes := (take true).trans ((take true).sound.writing rfl (update_self ..)
      quiet.2.1 quiet.2.2 rfl silent false)
    obtain ⟨after, left, done, does, none⟩ := @Does.start_fails _ _ e
      { ev with addr := ev.retry % t.s.nAddr, sd := true, sdRegistered := true } _ _ _ _ writes
      rfl (update_self ..) false (kept (by simp))
    refine ⟨after, true, left, ?_, does, timed_of_idle none, by simp⟩
    simpa [setEvent, Outbox.register, Upnp.register] using done
  | started =>
    have writes := (take true).trans ((take true).sound.writing rfl (update_self ..)
      quiet.2.1 quiet.2.2 rfl silent true)
    refine ⟨_, false, q, rfl, ?_, ?_, by simp [setEvent, Outbox.register]⟩
    · simpa [setEvent, Outbox.register, Upnp.register] using writes
    · intro other now
      obtain rfl : e = other := some.inj now
      exact ⟨by simp [setEvent, Outbox.register], Or.inl (by simp [setEvent, Outbox.register])⟩

theorem Sound.head_isSome (sound : t.Sound q) :
    t.s.eventQueue.head.isSome = true ↔ q ≠ [] := by
  rw [sound.queue.head]
  cases q <;> simp

/-- Unless the start fails, nothing waits without an event that is being sent. -/
theorem Sound.visit (sound : t.Sound q) (addresses : t.s.nAddr ≠ 0) (outcome : SendStart)
    (kept : outcome ≠ .started → t.s.currentEvent = none → ∀ e rest ev, q = e :: rest →
      t.s.event e = some ev → ev.retry + outcome.moves.toNat < t.s.nAddr → keeps rest) :
    ∃ after failed left, t.visit outcome registers = some (after, failed) ∧
      t.Does registers keeps q after left ∧ (t.Timed → after.Timed) ∧
      (failed = false → after.s.currentEvent = none → left = []) := by
  unfold Outbox.visit
  split
  next ready =>
    obtain ⟨idle, more⟩ := ready
    cases q with
    | nil => exact absurd rfl (sound.head_isSome.mp more)
    | cons e rest =>
      obtain ⟨ev, here, -⟩ := sound.waiting e (by simp)
      obtain ⟨after, failed, left, done, does, timed, busy⟩ :=
        @Sound.eventSendStart t rest e ev registers keeps sound idle addresses here outcome
          (fun other few => kept other idle e rest ev rfl here few)
      exact ⟨after, failed, left, done, does, fun _ => timed,
        fun fine none => absurd none (busy fine)⟩
  next busy =>
    refine ⟨t, false, q, rfl, ⟨sound, .refl t, .refl, fun _ flagged => flagged⟩, id, ?_⟩
    intro _ idle
    by_contra more
    exact busy ⟨idle, sound.head_isSome.mpr more⟩

theorem Sound.unused (sound : t.Sound q) : t.s.event t.s.added = none := by
  by_contra lives
  exact Nat.lt_irrefl _ (sound.older t.s.added lives)

theorem Sound.fresh (sound : t.Sound q) (next : UInt32) (retry : ev.retry = 0) :
    Sound (Outbox.mark (Outbox.setEvent { t with s := { t.s with
      nextSubscriberSequence := next, added := t.s.added + 1 } } t.s.added (some ev))
      (.added t.s.added)) q := by
  have unused := sound.unused
  have apart : ∀ {other : Nat} {found : WpsEvent}, t.s.event other = some found →
      other ≠ t.s.added := by
    rintro other found lives rfl
    cases unused.symm.trans lives
  apply Sound.mark
  refine ⟨sound.queue, sound.count, ?_, ?_, ?_, sound.registered, sound.later, sound.nodup, ?_⟩
  · intro other lives
    by_cases same : other = t.s.added
    · subst same
      exact Nat.lt_succ_self _
    · exact Nat.lt_succ_of_lt (sound.older other (by simpa [setEvent, same] using lives))
  · intro other member
    obtain ⟨waits, found, facts⟩ := sound.waiting other member
    exact ⟨waits, by simpa [setEvent, apart found] using found, facts⟩
  · intro other current
    obtain ⟨out, found, lives, sends⟩ := sound.sending other current
    exact ⟨out, found, by simpa [setEvent, apart lives] using lives, sends.address, sends.retries,
      sends.writes, sends.reads, sends.connected⟩
  · intro other found lives k small
    by_cases same : other = t.s.added
    · subst same
      obtain rfl : ev = found := by simpa [setEvent] using lives
      rw [retry] at small
      exact absurd small (Nat.not_lt_zero k)
    · exact sound.failures other found (by simpa [setEvent, same] using lives) k small

/-- A new event goes to the end of the queue, unless there are too many or no memory is left. -/
theorem Sound.eventAdd (sound : t.Sound q) (data : Bytes) (memory : Bool) :
    ∃ after failed left, t.eventAdd data memory registers = some (after, failed) ∧
      t.Does registers keeps q after left ∧
      (failed = true ↔ maxEventsQueued ≤ t.s.nQueue ∨ memory = false) ∧
      (failed = true → after = t) ∧
      (failed = false → after.eventSendAllQueued = true) ∧ (t.Timed → after.Timed) := by
  unfold Outbox.eventAdd
  split
  next full =>
    exact ⟨t, true, q, rfl, ⟨sound, .refl t, .refl, fun _ flagged => flagged⟩, by simp [full],
      fun _ => rfl, by simp, id⟩
  next room =>
  split
  next lost =>
    exact ⟨t, true, q, rfl, ⟨sound, .refl t, .refl, fun _ flagged => flagged⟩, by simp [lost],
      fun _ => rfl, by simp, id⟩
  next memory =>
  dsimp only
  generalize (if t.s.nextSubscriberSequence + 1 = 0 then t.s.nextSubscriberSequence + 1 + 1
    else t.s.nextSubscriberSequence + 1) = next
  have first := @Sound.fresh t q ⟨t.s.nextSubscriberSequence, 0, 0, data, false, false, false⟩
    sound next rfl
  have unused := sound.unused
  have out : t.s.added ∉ q := by
    intro member
    obtain ⟨ev, lives, -⟩ := sound.waiting _ member
    cases unused.symm.trans lives
  have apart : t.s.currentEvent ≠ some t.s.added := by
    intro current
    obtain ⟨-, ev, lives, -⟩ := sound.sending _ current
    cases unused.symm.trans lives
  obtain ⟨queue, linked, sound'⟩ := first.enqueueAtEnd out apart (update_self ..)
    ⟨rfl, rfl, rfl⟩ Nat.pos_of_ne_zero
  refine ⟨_, false, q ++ [t.s.added], by rw [linked]; rfl,
    ⟨sound'.eventSendAllLater registers, ?_, .single ?_, ?_⟩, by simp [room, memory], by simp,
    by simp, ?_⟩
  · refine Same.trans ?_ (eventSendAllLater_same _ registers)
    exact ⟨rfl, rfl, rfl, rfl, fun _ _ _ => Iff.rfl, fun flag => flag, fun timer => timer⟩
  · have step := @Move.add t.s.nAddr keeps t.s.currentEvent q t.s.added t.s.history
    rw [line, line, eventSendAllLater_s]
    exact step
  · intro works flagged
    exact flagged_eventSendAllLater works flagged
  · intro timed e current
    rw [eventSendAllLater_s] at current ⊢
    rw [mem_eventSendAllLater (by simp), mem_eventSendAllLater (by simp),
      mem_eventSendAllLater (by simp)]
    exact timed e current

/-! ## Deleting everything -/

theorem Sound.dropped {queue : Lib.Ring Nat} (sound : t.Sound (e :: q)) (holds : queue.Holds q) :
    Sound (Outbox.setEvent { t with s := { t.s with
      eventQueue := queue, nQueue := t.s.nQueue - 1 } } e none) q := by
  have out : e ∉ q := (nodup_cons.mp sound.queue.nodup).1
  refine ⟨holds, ?_, ?_, ?_, ?_, sound.registered, sound.later, sound.nodup, ?_⟩
  · have count := sound.count
    simp only [Outbox.setEvent, count, length_cons]
    omega
  · intro other lives
    by_cases same : other = e
    · simp [Outbox.setEvent, same] at lives
    · exact sound.older other (by simpa [Outbox.setEvent, same] using lives)
  · intro other member
    have apart : other ≠ e := by
      rintro rfl
      exact out member
    obtain ⟨waits, lives, facts⟩ := sound.waiting other (mem_cons_of_mem e member)
    exact ⟨waits, by simpa [Outbox.setEvent, apart] using lives, facts⟩
  · intro other current
    obtain ⟨outside, found, lives, sends⟩ := sound.sending other current
    have apart : other ≠ e := by
      rintro rfl
      exact outside (by simp)
    exact ⟨fun member => outside (mem_cons_of_mem e member), found,
      by simpa [Outbox.setEvent, apart] using lives, sends.address, sends.retries, sends.writes,
      sends.reads, sends.connected⟩
  · intro other found lives k small
    by_cases same : other = e
    · simp [Outbox.setEvent, same] at lives
    · exact sound.failures other found (by simpa [Outbox.setEvent, same] using lives) k small

theorem Sound.deleteQueue (sound : t.Sound q) :
    ∃ after, Outbox.deleteQueue q.length t = some after ∧ after.Sound [] ∧ t.Same after ∧
      after.eventSendAllQueued = t.eventSendAllQueued := by
  induction q generalizing t with
  | nil =>
    refine ⟨t, ?_, sound, .refl t, rfl⟩
    rw [length_nil, Outbox.deleteQueue, eventDequeue_nil sound]
    rfl
  | cons e q ih =>
    obtain ⟨queue, holds, dequeued⟩ := eventDequeue_cons sound
    obtain ⟨ev, here, idle, -⟩ := sound.waiting e (by simp)
    have apart : t.s.currentEvent ≠ some e := by
      intro current
      exact (sound.sending e current).1 (by simp)
    have dropped := sound.dropped holds
    obtain ⟨after, done, sound', same, flag⟩ := ih dropped
    refine ⟨after, ?_, sound', Same.trans ?_ same, flag⟩
    · rw [length_cons, Outbox.deleteQueue, dequeued]
      have deleted := @eventDelete_idle { t with s := { t.s with
        eventQueue := queue, nQueue := t.s.nQueue - 1 } } e ev apart here idle
      simp only [bind_eq_bind, bind_some, deleted]
      exact done
    · exact ⟨rfl, rfl, rfl, rfl, fun _ _ _ => Iff.rfl, fun flag => flag, fun timer => timer⟩

theorem Sound.eventDeleteAll (sound : t.Sound q) :
    ∃ after, t.eventDeleteAll = some after ∧ after.Sound [] ∧ t.Same after ∧
      after.s.currentEvent = none ∧ after.eventSendAllQueued = t.eventSendAllQueued := by
  obtain ⟨middle, done, sound', same, flag⟩ := sound.deleteQueue
  have fuel : t.s.nQueue.toNat = q.length := by
    rw [sound.count]
    exact Int.toNat_natCast q.length
  rw [Outbox.eventDeleteAll, fuel, done]
  cases current : middle.s.currentEvent with
  | none => exact ⟨middle, by simp [current], sound', same, current, flag⟩
  | some e =>
    obtain ⟨-, ev, here, -⟩ := sound'.sending e current
    obtain ⟨deleted, final⟩ := sound'.eventDelete_current current here
    refine ⟨_, by simpa [current] using deleted, final, ?_, rfl, flag⟩
    exact same.trans ((cleaned_same middle e ev).trans (setEvent_same _ e none))

end Handlers

end Outbox

end AthApps.Upnp
