import AthApps.Upnp.Outbox

/-!
# The order of the events of a subscriber

A failed event that is put back is linked behind the first of the queue and
then made the first, so the one that was first comes last.  With fewer than two
events in the queue this is the order of the line; along a run in which no event
is put back in front of two others, every subscriber is notified in turn.
-/

set_option autoImplicit false

namespace AthApps.Upnp

open AthApps.Lib Option List

namespace Outbox

/-- Whether the event has an address left after this failure. -/
def hasAddress (t : Outbox) (e : Nat) (next : Bool) : Bool :=
  match t.s.event e with
  | none => false
  | some ev => ev.retry + next.toNat < t.s.nAddr

/-- Whether `event_retry` is called and puts an event back. -/
def putsBack (t : Outbox) : Occurrence → Bool
  | .add _ _ => false
  | .wake outcome =>
    match t.s.currentEvent, t.s.eventQueue.head with
    | none, some e => outcome ≠ .started && t.hasAddress e outcome.moves
    | _, _ => false
  | .txReady e outcome => outcome ≠ .written && t.hasAddress e (outcome = .writeFails)
  | .timeout e => t.hasAddress e true
  | .response e response => response = .bogus && t.hasAddress e true

/-- Whether the sender is woken for what is left in the queue: the handler of the timeout does
not do it where it gives up the event. -/
def heeded (t : Outbox) : Occurrence → Bool
  | .timeout e => t.hasAddress e true || t.eventSendAllQueued || t.s.eventQueue.head.isNone
  | _ => true

/-- The length of the queue where an event would be put back. -/
def behind (t : Outbox) : Occurrence → Int
  | .wake _ => t.s.nQueue - 1
  | _ => t.s.nQueue

def calls (t : Outbox) : Occurrence → Option Callback
  | .add _ _ => none
  | .wake _ => none
  | .txReady e _ => some (.eventTxReady t.s.id e)
  | .timeout e => some (.eventTimeout t.s.id e)
  | .response e _ => some (.eventResponse t.s.id e)

def InPlace (t : Outbox) (input : Occurrence × Bool) : Prop :=
  t.putsBack input.1 = true → t.behind input.1 ≤ 1

instance (t : Outbox) (input : Occurrence × Bool) : Decidable (t.InPlace input) :=
  inferInstanceAs (Decidable (_ → _))

/-- The event that is being sent and the queue read from its head along `next`. -/
def listed (t : Outbox) : List Nat :=
  t.s.currentEvent.toList ++ t.s.eventQueue.reads t.s.nQueue.toNat

/-- The events are listed as they were added, all that are pending and each of them once, and
they were sent in turn. -/
def InOrder (t : Outbox) : Prop :=
  t.listed = pending t.s.history ∧ t.listed.Pairwise (· < ·) ∧
    Justified (InTurn t.s.nAddr) t.s.history

/-- A new subscription, with nothing registered for it. -/
def fresh (id nAddr : Nat) (uuid : Bytes) (expire : Int) : Outbox :=
  ⟨created id nAddr uuid expire, [], false⟩

section Steps

variable {t after : Outbox} {q : List Nat}

theorem Sound.wake_erased (sound : t.Sound q) :
    Sound { t with eloop := t.eloop.erase .sendAllLater, eventSendAllQueued := false } q := by
  refine sound.elsewhere ?_ (sound.nodup.erase _) ?_
  · intro callback e about
    apply mem_erase_of_ne
    rintro rfl
    cases about
  · intro member
    exact absurd rfl (sound.nodup.mem_erase_iff.mp member).1

theorem Sound.registered_current {callback : Callback} {e : Nat} (sound : t.Sound q)
    (member : callback ∈ t.eloop) (about : callback.eventOf t.s.id = some e) :
    t.s.currentEvent = some e ∧ ∃ ev, t.s.event e = some ev ∧ t.Sends e ev := by
  have current := sound.registered callback member e about
  exact ⟨current, (sound.sending e current).2⟩

theorem Sound.handles {registers : Bool} {keeps : List Nat → Prop} {occurrence : Occurrence}
    {callback : Callback} (sound : t.Sound q) (calls : t.calls occurrence = some callback)
    (member : callback ∈ t.eloop) (kept : t.putsBack occurrence = true → keeps q) :
    ∃ after gone left, t.occurs occurrence registers = some (after, gone) ∧
      t.Does registers keeps q after left ∧
      (gone = false → registers = true → t.heeded occurrence = true → t.Awake → after.Awake) := by
  cases occurrence with
  | add data memory => cases calls
  | wake outcome => cases calls
  | txReady e outcome =>
    cases calls
    obtain ⟨current, ev, here, sends⟩ := sound.registered_current member
      (Callback.eventOf_txReady t.s.id e)
    obtain ⟨reached, left, done, does, awake⟩ := @Sound.eventSendTxReady t q e ev registers
      keeps sound current here (sends.writes.mp member) outcome (by
        intro other few
        exact kept (by simp [putsBack, other, Outbox.hasAddress, here, few]))
    refine ⟨reached, false, left, ?_, does, fun _ works _ => awake works⟩
    rw [Outbox.occurs, if_pos member, done]
    rfl
  | timeout e =>
    cases calls
    obtain ⟨current, ev, here, -⟩ := sound.registered_current member
      (Callback.eventOf_timeout t.s.id e)
    have fired := @Sound.fired t q registers keeps sound e
    obtain ⟨reached, left, done, does, awake⟩ := @Sound.eventTimeoutHandler _ q e ev registers
      keeps fired.sound current here (by
        intro few
        exact kept (by simpa [putsBack, Outbox.hasAddress, here] using few))
    refine ⟨reached, false, left, ?_, fired.trans does, ?_⟩
    · rw [Outbox.occurs, if_pos member]
      dsimp only
      rw [done]
      rfl
    · intro _ works heeded before
      apply awake works (fired.flagged works before.flagged)
      intro last idle
      have idle' : t.eventSendAllQueued = false := idle
      have last' : t.s.nAddr ≤ ev.retry + 1 := last
      have empty : t.s.eventQueue.head = none := by
        simpa [Outbox.heeded, Outbox.hasAddress, here, idle', Nat.not_lt.mpr last'] using heeded
      rw [sound.queue.head] at empty
      exact head?_eq_none_iff.mp empty
  | response e response =>
    cases calls
    obtain ⟨current, ev, here, -⟩ := sound.registered_current member
      (Callback.eventOf_response t.s.id e)
    obtain ⟨reached, gone, left, done, does, awake⟩ := @Sound.eventGotResponseHandler t q e ev
      registers keeps sound current here response (by
        intro bogus few
        exact kept (by simpa [putsBack, bogus, Outbox.hasAddress, here] using few))
    refine ⟨reached, gone, left, ?_, does, fun stays works _ before =>
      awake stays works before.flagged⟩
    rw [Outbox.occurs, if_pos member, done]

variable {occurrence : Occurrence}

theorem occurs_registered {registers : Bool} {callback : Callback} {result : Outbox × Bool}
    (calls : t.calls occurrence = some callback)
    (occurs : t.occurs occurrence registers = some result) : callback ∈ t.eloop := by
  cases occurrence <;> cases calls <;> rw [Outbox.occurs] at occurs <;> split at occurs <;>
    first | assumption | cases occurs

theorem Sound.occurs {registers gone : Bool} (sound : t.Sound q) (addresses : t.s.nAddr ≠ 0)
    (inPlace : t.InPlace (occurrence, registers))
    (occurs : t.occurs occurrence registers = some (after, gone)) :
    ∃ left, after.Sound left ∧ after.s.nAddr = t.s.nAddr ∧
      Moves t.s.nAddr (fun q => q.length ≤ 1) (t.line q) (after.line left) := by
  cases calls : t.calls occurrence with
  | some callback =>
    have member := occurs_registered calls occurs
    obtain ⟨reached, _, left, done, does, -⟩ := @Sound.handles t q registers
      (fun q => q.length ≤ 1) occurrence callback sound calls member (by
        intro puts
        have bound := inPlace puts
        have here : t.behind occurrence = t.s.nQueue := by
          cases occurrence <;> first | rfl | cases calls
        rw [here, sound.count] at bound
        omega)
    cases occurs.symm.trans done
    exact ⟨left, does.sound, does.same.nAddr, does.moves⟩
  | none =>
    cases occurrence with
    | add data memory =>
      obtain ⟨reached, failed, left, done, does, -⟩ :=
        @Sound.eventAdd t q registers (fun q => q.length ≤ 1) sound data memory
      rw [Outbox.occurs, done] at occurs
      cases occurs
      exact ⟨left, does.sound, does.same.nAddr, does.moves⟩
    | wake outcome =>
      have kept : outcome ≠ .started → t.s.currentEvent = none → ∀ e rest ev, q = e :: rest →
          t.s.event e = some ev → ev.retry + outcome.moves.toNat < t.s.nAddr →
          rest.length ≤ 1 := by
        intro other idle e rest ev shape here few
        have head := sound.queue.head
        rw [shape] at head
        have bound := inPlace (by simp [putsBack, idle, head, other, Outbox.hasAddress, here, few])
        rw [behind, sound.count, shape, length_cons] at bound
        omega
      obtain ⟨reached, failed, left, done, does, -⟩ := @Sound.visit
        { t with eloop := t.eloop.erase .sendAllLater, eventSendAllQueued := false } q
        registers (fun q => q.length ≤ 1) sound.wake_erased addresses outcome kept
      rw [Outbox.occurs] at occurs
      simp only [done, bind_eq_bind, bind_some, some.injEq, Prod.mk.injEq] at occurs
      obtain ⟨rfl, -⟩ := occurs
      have later := @Sound.later_does reached left registers (fun q => q.length ≤ 1) does.sound
      split
      · exact ⟨left, later.sound, (does.trans later).same.nAddr, (does.trans later).moves⟩
      · exact ⟨left, does.sound, does.same.nAddr, does.moves⟩
    | txReady e outcome => cases calls
    | timeout e => cases calls
    | response e response => cases calls

end Steps

theorem fresh_sound (id nAddr : Nat) (uuid : Bytes) (expire : Int) :
    (fresh id nAddr uuid expire).Sound [] := by
  refine ⟨Ring.holds_empty, rfl, fun _ lives => absurd rfl lives, by simp, ?_, by simp [fresh],
    by simp [fresh], nodup_nil, ?_⟩
  · intro e current
    cases current
  · intro e ev lives
    cases lives

theorem fresh_ordered (id nAddr : Nat) (uuid : Bytes) (expire : Int) :
    ((fresh id nAddr uuid expire).line []).Ordered nAddr :=
  ⟨rfl, List.Pairwise.nil, by simp [line, fresh, created], Justified.nil _⟩

theorem Sound.listed_eq {t : Outbox} {q : List Nat} (sound : t.Sound q) :
    t.listed = t.s.currentEvent.toList ++ q := by
  rw [listed, sound.count, Int.toNat_natCast, sound.queue.reads_eq (Nat.le_refl _)]

/-- As long as no event is put back in front of two others, the subscriber gets its events in
order. -/
theorem events_in_order {id nAddr : Nat} {uuid : Bytes} {expire : Int} {t : Outbox}
    (addresses : nAddr ≠ 0) (reached : Reaches step InPlace (fresh id nAddr uuid expire) t) :
    t.InOrder := by
  have invariant : t.s.nAddr = nAddr ∧ ∃ q, t.Sound q ∧ (t.line q).Ordered nAddr := by
    refine @Reaches.invariant _ _ _ _
      (fun t => t.s.nAddr = nAddr ∧ ∃ q, t.Sound q ∧ (t.line q).Ordered nAddr) _ _ ?_ reached
      ⟨rfl, [], fresh_sound id nAddr uuid expire, fresh_ordered id nAddr uuid expire⟩
    rintro before ⟨occurrence, registers⟩ after inPlace steps ⟨same, q, sound, ordered⟩
    obtain ⟨⟨next, gone⟩, occurs, stays⟩ := bind_eq_some_iff.mp steps
    obtain ⟨left, sound', same', moves⟩ :=
      sound.occurs (by rw [same]; exact addresses) inPlace occurs
    dsimp only at stays
    split at stays
    · cases stays
    · cases stays
      rw [same] at moves same'
      exact ⟨same', left, sound', ordered.moves moves⟩
  obtain ⟨same, q, sound, ordered⟩ := invariant
  rw [InOrder, sound.listed_eq, same]
  exact ⟨ordered.pending.symm, ordered.increasing, ordered.turns⟩

/-- Two events; the first fails at one address while the other waits. -/
def twoEvents : List (Outbox → Occurrence × Bool) :=
  [fun _ => (.add [1] true, true), fun _ => (.wake .started, true), fun _ => (.add [2] true, true),
    fun _ => (.txReady 0 .written, true), fun _ => (.timeout 0, true)]

theorem events_in_order_two :
    (2 : Nat) ≠ 0 ∧ ∃ t, Reaches step InPlace (fresh 0 2 [] 1801) t ∧ t.listed = [0, 1] ∧
      t.InOrder := by
  have runs : (follows step InPlace (fresh 0 2 [] 1801) twoEvents).map listed = some [0, 1] := by
    decide
  obtain ⟨t, ends, shows⟩ := map_eq_some_iff.mp runs
  have reached := reaches_of_follows ends
  exact ⟨by decide, t, reached, shows, events_in_order (by decide) reached⟩

/-- With two events waiting, the one that is put back changes their order. -/
def threeEvents : List (Outbox → Occurrence × Bool) :=
  [fun _ => (.add [1] true, true), fun _ => (.wake .started, true), fun _ => (.add [2] true, true),
    fun _ => (.add [3] true, true), fun _ => (.txReady 0 .written, true),
    fun _ => (.timeout 0, true)]

theorem retry_changes_order :
    ¬ ∀ (id nAddr : Nat) (uuid : Bytes) (expire : Int) (t : Outbox), nAddr ≠ 0 →
      Reaches step (fun _ _ => True) (fresh id nAddr uuid expire) t → t.InOrder := by
  intro always
  have runs : (follows step (fun _ _ => True) (fresh 0 2 [] 1801) threeEvents).map listed =
      some [0, 2, 1] := by decide
  obtain ⟨t, ends, shows⟩ := map_eq_some_iff.mp runs
  obtain ⟨-, increasing, -⟩ := always 0 2 [] 1801 t (by decide) (reaches_of_follows ends)
  rw [shows] at increasing
  exact absurd increasing (by decide)

end Outbox

end AthApps.Upnp
