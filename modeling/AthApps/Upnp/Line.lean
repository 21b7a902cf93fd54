import AthApps.Upnp.Event

/-!
# The line of events of a subscriber

What the queue is for: the events of a subscription wait in line, the first of
them is sent, and it leaves the line when it is acknowledged or given up.
`Move` is what can happen to a line, with the order that the code makes when it
puts an event back; `Ordered` is what a subscriber relies on.
-/

set_option autoImplicit false

namespace AthApps.Upnp

open AthApps.Lib List

/-- The events on record that have been neither acknowledged nor given up. -/
def pending : List Mark → List Nat :=
  List.foldl (fun line mark =>
    match mark with
    | .added e => line ++ [e]
    | .acknowledged e => line.erase e
    | .gaveUp e => line.erase e
    | .notified _ _ => line
    | .failed _ _ => line) []

variable (history : List Mark)

theorem pending_added (e : Nat) : pending (history ++ [.added e]) = pending history ++ [e] := by
  simp [pending]

theorem pending_acknowledged (e : Nat) :
    pending (history ++ [.acknowledged e]) = (pending history).erase e := by
  simp [pending]

theorem pending_gaveUp (e : Nat) :
    pending (history ++ [.gaveUp e]) = (pending history).erase e := by
  simp [pending]

theorem pending_notified (e address : Nat) :
    pending (history ++ [.notified e address]) = pending history := by
  simp [pending]

theorem pending_failed (e address : Nat) :
    pending (history ++ [.failed e address]) = pending history := by
  simp [pending]

/-- The order that `event_enqueue_at_begin` makes. -/
def putBack (e : Nat) : List Nat → List Nat
  | [] => [e]
  | first :: rest => e :: (rest ++ [first])

theorem mem_putBack {e other : Nat} {q : List Nat} : other ∈ putBack e q ↔ other = e ∨ other ∈ q := by
  cases q with
  | nil => simp [putBack]
  | cons first rest =>
    simp only [putBack, mem_cons, mem_append, not_mem_nil, or_false]
    tauto

theorem length_putBack (e : Nat) (q : List Nat) : (putBack e q).length = q.length + 1 := by
  cases q <;> simp [putBack]

theorem putBack_short {e : Nat} {q : List Nat} (short : q.length ≤ 1) : putBack e q = e :: q := by
  match q, short with
  | [], _ => rfl
  | [first], _ => rfl

structure Line where
  current : Option Nat
  queue : List Nat
  count : Nat
  history : List Mark

/-- An event is put back only where `keeps` holds of the queue. -/
inductive Move (nAddr : Nat) (keeps : List Nat → Prop) : Line → Line → Prop
  | add (c : Option Nat) (q : List Nat) (n : Nat) (h : List Mark) :
      Move nAddr keeps ⟨c, q, n, h⟩ ⟨c, q ++ [n], n + 1, h ++ [.added n]⟩
  | take (e : Nat) (q : List Nat) (n : Nat) (h : List Mark) :
      Move nAddr keeps ⟨none, e :: q, n, h⟩ ⟨some e, q, n, h⟩
  | notify (e : Nat) (q : List Nat) (n : Nat) (h : List Mark) (address : Nat) :
      Move nAddr keeps ⟨some e, q, n, h⟩ ⟨some e, q, n, h ++ [.notified e address]⟩
  | fail (e : Nat) (q : List Nat) (n : Nat) (h : List Mark) (address : Nat) :
      Move nAddr keeps ⟨some e, q, n, h⟩ ⟨some e, q, n, h ++ [.failed e address]⟩
  | acknowledge (e : Nat) (q : List Nat) (n : Nat) (h : List Mark) :
      Move nAddr keeps ⟨some e, q, n, h⟩ ⟨none, q, n, h ++ [.acknowledged e]⟩
  | giveUp (e : Nat) (q : List Nat) (n : Nat) (h : List Mark)
      (all : ∀ k < nAddr, .failed e k ∈ h) :
      Move nAddr keeps ⟨some e, q, n, h⟩ ⟨none, q, n, h ++ [.gaveUp e]⟩
  | putBack (e : Nat) (q : List Nat) (n : Nat) (h : List Mark) (kept : keeps q) :
      Move nAddr keeps ⟨some e, q, n, h⟩ ⟨none, Upnp.putBack e q, n, h⟩

abbrev Moves (nAddr : Nat) (keeps : List Nat → Prop) : Line → Line → Prop :=
  Relation.ReflTransGen (Move nAddr keeps)

/-- An event is sent only while it is the first that is pending, and it is given up only when it
has failed at every address. -/
def InTurn (nAddr : Nat) (before : List Mark) : Mark → Prop
  | .notified e _ => (pending before).head? = some e
  | .gaveUp e => ∀ k < nAddr, .failed e k ∈ before
  | _ => True

structure Line.Ordered (nAddr : Nat) (line : Line) : Prop where
  pending : Upnp.pending line.history = line.current.toList ++ line.queue
  increasing : (line.current.toList ++ line.queue).Pairwise (· < ·)
  older : ∀ e ∈ line.current.toList ++ line.queue, e < line.count
  turns : Justified (InTurn nAddr) line.history

theorem Line.Ordered.move {nAddr : Nat} {line after : Line}
    (move : Move nAddr (fun q => q.length ≤ 1) line after) (ordered : line.Ordered nAddr) :
    after.Ordered nAddr := by
  obtain ⟨listed, increasing, older, turns⟩ := ordered
  cases move with
  | add c q n h =>
    refine ⟨?_, ?_, ?_, turns.snoc True.intro⟩
    · rw [pending_added]
      simpa using congrArg (· ++ [n]) listed
    · rw [← append_assoc, pairwise_append]
      refine ⟨increasing, pairwise_singleton _ _, ?_⟩
      intro first member second last
      obtain rfl := mem_singleton.mp last
      exact older first member
    · intro e member
      rw [← append_assoc] at member
      rcases mem_append.mp member with member | last
      · exact Nat.lt_succ_of_lt (older e member)
      · obtain rfl := mem_singleton.mp last
        exact Nat.lt_succ_self e
  | take e q n h => exact ⟨listed, increasing, older, turns⟩
  | notify e q n h address =>
    have first : (Upnp.pending h).head? = some e := by
      rw [show Upnp.pending h = _ from listed]
      rfl
    exact ⟨(pending_notified h e address).trans listed, increasing, older, turns.snoc first⟩
  | fail e q n h address =>
    exact ⟨(pending_failed h e address).trans listed, increasing, older, turns.snoc True.intro⟩
  | acknowledge e q n h =>
    refine ⟨?_, (pairwise_cons.mp increasing).2, ?_, turns.snoc True.intro⟩
    · rw [pending_acknowledged, show Upnp.pending h = e :: q from listed]
      simp
    · intro other member
      exact older other (mem_cons_of_mem e member)
  | giveUp e q n h all =>
    refine ⟨?_, (pairwise_cons.mp increasing).2, ?_, turns.snoc all⟩
    · rw [pending_gaveUp, show Upnp.pending h = e :: q from listed]
      simp
    · intro other member
      exact older other (mem_cons_of_mem e member)
  | putBack e q n h short =>
    rw [putBack_short short]
    exact ⟨listed, increasing, older, turns⟩

theorem Line.Ordered.moves {nAddr : Nat} {line after : Line}
    (moves : Moves nAddr (fun q => q.length ≤ 1) line after) (ordered : line.Ordered nAddr) :
    after.Ordered nAddr := by
  induction moves with
  | refl => exact ordered
  | tail _ last ih => exact ih.move last

end AthApps.Upnp
