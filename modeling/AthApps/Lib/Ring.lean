import Mathlib.Data.List.Chain
import Mathlib.Data.List.Nodup

/-!
# Circular doubly linked lists

Nodes carry a link in each direction and there is one entry point.  The
operations follow the links as hand-written list code does; where a null link
would be followed there is no result.  A ring `Holds` a list if the links run
through it in this order and back to its start.
-/

set_option autoImplicit false

namespace AthApps.Lib

open List Option
open Function (update update_of_ne update_self)

structure Ring (ι : Type) where
  head : Option ι
  next : ι → Option ι
  prev : ι → Option ι

namespace Ring

variable {ι : Type}

def empty : Ring ι := { head := none, next := fun _ => none, prev := fun _ => none }

section Operations

variable [DecidableEq ι]

def setNext (r : Ring ι) (x : ι) (y : Option ι) : Ring ι :=
  { r with next := update r.next x y }

def setPrev (r : Ring ι) (x : ι) (y : Option ι) : Ring ι :=
  { r with prev := update r.prev x y }

/-- The node is taken out; its own links stay as they are. -/
def unlink (r : Ring ι) (x : ι) : Option (Ring ι) :=
  if r.next x = some x then some { r with head := none }
  else do
    let r := if r.head = some x then { r with head := r.next x } else r
    let n ← r.next x
    let r := r.setPrev n (r.prev x)
    let p ← r.prev x
    some (r.setNext p (r.next x))

def linkToEnd (r : Ring ι) (x : ι) : Option (Ring ι) :=
  match r.head with
  | some h => do
      let r := r.setNext x (some h)
      let r := r.setPrev x (r.prev h)
      let p ← r.prev x
      let r := r.setNext p (some x)
      some (r.setPrev h (some x))
  | none => some { (r.setNext x (some x)).setPrev x (some x) with head := some x }

def dequeue (r : Ring ι) : Option (Ring ι × Option ι) :=
  match r.head with
  | none => some (r, none)
  | some x => do
      let n ← r.next x
      let r := r.setPrev n (r.prev x)
      let p ← r.prev x
      let r := r.setNext p (r.next x)
      let r := { r with head := if r.next x = some x then none else r.next x }
      some ((r.setNext x none).setPrev x none, some x)

/-- The node is linked behind the first one and then made the first. -/
def linkBehindHead (r : Ring ι) (x : ι) : Option (Ring ι) :=
  match r.head with
  | some h => do
      let r := r.setPrev x (some h)
      let n ← r.next h
      let r := r.setNext x (some n)
      let r := r.setNext h (some x)
      let r := r.setPrev n (some x)
      some { r with head := some x }
  | none => some { (r.setNext x (some x)).setPrev x (some x) with head := some x }

/-- The nodes met from `x` on, at most `fuel` of them, until the start is met again. -/
def walk (r : Ring ι) : Nat → ι → List ι
  | 0, _ => []
  | fuel + 1, x =>
    x :: match r.next x with
      | none => []
      | some y => if r.head = some y then [] else walk r fuel y

def reads (r : Ring ι) (fuel : Nat) : List ι :=
  match r.head with
  | none => []
  | some x => r.walk fuel x

end Operations

def Joins (r : Ring ι) (x y : ι) : Prop := r.next x = some y ∧ r.prev y = some x

def Closed (r : Ring ι) (l : List ι) : Prop := List.IsChain r.Joins (l ++ l.head?.toList)

structure Holds (r : Ring ι) (l : List ι) : Prop where
  head : r.head = l.head?
  nodup : l.Nodup
  closed : r.Closed l

theorem holds_empty : (empty : Ring ι).Holds [] :=
  ⟨rfl, nodup_nil, isChain_nil⟩

theorem Closed.rotate {r : Ring ι} {u v : List ι} (closed : r.Closed (u ++ v)) :
    r.Closed (v ++ u) := by
  cases u with
  | nil => simpa using closed
  | cons a u =>
    cases v with
    | nil => simpa using closed
    | cons b v =>
      have whole : List.IsChain r.Joins ((a :: u) ++ b :: (v ++ [a])) := by
        simpa [Closed] using closed
      rw [isChain_split] at whole
      have turned : List.IsChain r.Joins ((b :: v) ++ a :: (u ++ [b])) := by
        rw [isChain_split]
        exact ⟨by simpa using whole.2, by simpa using whole.1⟩
      simpa [Closed] using turned

variable {l : List ι} {r : Ring ι}

variable {x y first last : ι}

theorem Closed.joins_next (closed : r.Closed (x :: y :: l)) : r.Joins x y := by
  have whole : List.IsChain r.Joins (x :: y :: (l ++ [x])) := by simpa [Closed] using closed
  exact (isChain_cons_cons.mp whole).1

theorem Closed.joins_last (closed : r.Closed (x :: (l ++ [y]))) : r.Joins y x := by
  have turned : r.Closed (y :: x :: l) := @Closed.rotate _ r (x :: l) [y] (by simpa using closed)
  exact turned.joins_next

theorem Closed.joins_self (closed : r.Closed [x]) : r.Joins x x := by
  have whole : List.IsChain r.Joins [x, x] := by simpa [Closed] using closed
  exact (isChain_cons_cons.mp whole).1

theorem chain_agree {r other : Ring ι} (chain : List.IsChain r.Joins l)
    (next : ∀ x ∈ l.dropLast, other.next x = r.next x)
    (prev : ∀ x ∈ l.tail, other.prev x = r.prev x) : List.IsChain other.Joins l := by
  induction l with
  | nil => exact isChain_nil
  | cons x l ih =>
    cases l with
    | nil => exact isChain_singleton x
    | cons y l =>
      obtain ⟨here, later⟩ := isChain_cons_cons.mp chain
      refine isChain_cons_cons.mpr ⟨?_, ih later ?_ ?_⟩
      · exact ⟨(next x (by simp)).trans here.1, (prev y (by simp)).trans here.2⟩
      · intro z member
        exact next z (by simp [member])
      · intro z member
        exact prev z (mem_cons_of_mem y member)

theorem Closed.chain (closed : r.Closed l) : List.IsChain r.Joins l :=
  (isChain_append.mp closed).1

theorem closed_of_chain (chain : List.IsChain r.Joins l) (starts : l.head? = some first)
    (ends : l.getLast? = some last) (joins : r.Joins last first) : r.Closed l := by
  unfold Closed
  rw [starts, isChain_append]
  refine ⟨chain, by simp, ?_⟩
  intro x isLast y isFirst
  rw [ends] at isLast
  cases isLast
  cases isFirst
  exact joins

theorem ne_last_of_mem_dropLast (nodup : l.Nodup) (ends : l.getLast? = some last)
    (member : x ∈ l.dropLast) : x ≠ last := by
  obtain ⟨front, rfl⟩ := getLast?_eq_some_iff.mp ends
  rw [dropLast_concat] at member
  rintro rfl
  have apart := disjoint_of_nodup_append nodup
  exact apart member (by simp)

theorem ne_first_of_mem_tail (nodup : l.Nodup) (starts : l.head? = some first)
    (member : x ∈ l.tail) : x ≠ first := by
  cases l with
  | nil => cases starts
  | cons y l =>
    cases starts
    rintro rfl
    exact (nodup_cons.mp nodup).1 member

theorem Closed.remove {r other : Ring ι} (closed : r.Closed (x :: l)) (nodup : l.Nodup)
    (starts : l.head? = some first) (ends : l.getLast? = some last)
    (next : ∀ y ∈ l, y ≠ last → other.next y = r.next y)
    (prev : ∀ y ∈ l, y ≠ first → other.prev y = r.prev y) (joins : other.Joins last first) :
    other.Closed l := by
  refine closed_of_chain (chain_agree closed.chain.of_cons ?_ ?_) starts ends joins
  · intro y member
    exact next y (dropLast_subset l member) (ne_last_of_mem_dropLast nodup ends member)
  · intro y member
    exact prev y (mem_of_mem_tail member) (ne_first_of_mem_tail nodup starts member)

theorem Closed.insert {r other : Ring ι} {x first last : ι} {l : List ι} (closed : r.Closed l)
    (nodup : l.Nodup) (starts : l.head? = some first) (ends : l.getLast? = some last)
    (next : ∀ y ∈ l, y ≠ last → other.next y = r.next y)
    (prev : ∀ y ∈ l, y ≠ first → other.prev y = r.prev y)
    (behind : other.Joins last x) (before : other.Joins x first) : other.Closed (l ++ [x]) := by
  have chain : List.IsChain other.Joins l := by
    refine chain_agree closed.chain ?_ ?_
    · intro y member
      exact next y (dropLast_subset l member) (ne_last_of_mem_dropLast nodup ends member)
    · intro y member
      exact prev y (mem_of_mem_tail member) (ne_first_of_mem_tail nodup starts member)
  have longer : List.IsChain other.Joins (l ++ [x]) := by
    rw [isChain_append]
    refine ⟨chain, isChain_singleton x, ?_⟩
    intro y isLast z isFirst
    rw [ends] at isLast
    cases isLast
    cases isFirst
    exact behind
  refine closed_of_chain longer ?_ (by simp) before
  cases l with
  | nil => cases starts
  | cons a l => simpa using starts

namespace Holds

variable {r : Ring ι} {pre post : List ι} {x y : ι}

theorem turned (holds : r.Holds (pre ++ x :: post)) : r.Closed (x :: (post ++ pre)) := by
  have turned := holds.closed.rotate
  simpa using turned

theorem next_inner (holds : r.Holds (pre ++ x :: y :: post)) : r.next x = some y := by
  have turned := holds.turned
  exact turned.joins_next.1

theorem next_last (holds : r.Holds (pre ++ [x])) : r.next x = r.head := by
  have turned := holds.turned
  rw [holds.head]
  cases pre with
  | nil => exact turned.joins_self.1
  | cons a pre => exact turned.joins_next.1

theorem head_apart (holds : r.Holds (pre ++ x :: post)) (member : y ∈ post) :
    r.head ≠ some y := by
  rw [holds.head]
  have nodup := holds.nodup
  cases pre with
  | nil =>
    have apart := (nodup_cons.mp nodup).1
    intro same
    cases same
    exact apart member
  | cons a pre =>
    have apart := (nodup_cons.mp nodup).1
    intro same
    cases same
    exact apart (by simp [member])

theorem ends {l : List ι} {a : ι} (holds : r.Holds l) (starts : l.head? = some a) :
    ∃ last, l.getLast? = some last ∧ r.prev a = some last ∧ r.next last = some a := by
  cases l with
  | nil => cases starts
  | cons b l =>
    cases starts
    rcases eq_nil_or_concat l with rfl | ⟨front, last, rfl⟩
    · have joins := holds.closed.joins_self
      exact ⟨a, rfl, joins.2, joins.1⟩
    · have closed := holds.closed
      rw [concat_eq_append] at closed
      have joins := closed.joins_last
      exact ⟨last, by simp [getLast?_cons], joins.2, joins.1⟩

theorem nodup_snoc {l : List ι} (holds : r.Holds l) (out : x ∉ l) : (l ++ [x]).Nodup :=
  nodup_append_comm.mp (nodup_cons.mpr ⟨out, holds.nodup⟩)

variable [DecidableEq ι]

theorem walk_eq {fuel : Nat} (holds : r.Holds (pre ++ x :: post)) (enough : post.length < fuel) :
    r.walk fuel x = x :: post := by
  induction post generalizing pre x fuel with
  | nil =>
    obtain ⟨fuel, rfl⟩ : ∃ k, fuel = k + 1 := ⟨fuel - 1, by omega⟩
    rw [walk, holds.next_last, holds.head]
    cases pre <;> simp
  | cons y post ih =>
    obtain ⟨fuel, rfl⟩ : ∃ k, fuel = k + 1 := ⟨fuel - 1, by omega⟩
    have shorter : post.length < fuel := by simpa using enough
    have later : r.Holds ((pre ++ [x]) ++ y :: post) := by simpa using holds
    rw [walk, holds.next_inner]
    dsimp only
    rw [if_neg (holds.head_apart (by simp)), ih later shorter]

theorem reads_eq {l : List ι} {fuel : Nat} (holds : r.Holds l) (enough : l.length ≤ fuel) :
    r.reads fuel = l := by
  rw [reads, holds.head]
  cases l with
  | nil => rfl
  | cons x l =>
    have shorter : l.length < fuel := by simpa [Nat.succ_le_iff] using enough
    exact @walk_eq _ r [] l x _ fuel holds shorter

theorem unique {l other : List ι} (holds : r.Holds l) (again : r.Holds other) : l = other := by
  have first := holds.reads_eq (Nat.le_max_left l.length other.length)
  have second := again.reads_eq (Nat.le_max_right l.length other.length)
  exact first.symm.trans second

theorem unlink_eq (holds : r.Holds (pre ++ x :: post)) :
    ∃ after, r.unlink x = some after ∧ after.Holds (pre ++ post) := by
  have closed := holds.turned
  have nodup : (x :: (post ++ pre)).Nodup := by
    have turned := perm_append_comm.nodup_iff.mp holds.nodup
    simpa using turned
  obtain ⟨out, rest⟩ := nodup_cons.mp nodup
  have kept : (pre ++ post).Nodup := perm_append_comm.nodup_iff.mp rest
  rcases eq_nil_or_concat (post ++ pre) with alone | ⟨front, last, ends⟩
  · obtain ⟨rfl, rfl⟩ := append_eq_nil_iff.mp alone
    refine ⟨{ r with head := none }, ?_, ⟨rfl, nodup_nil, isChain_nil⟩⟩
    rw [unlink, if_pos closed.joins_self.1]
  rw [concat_eq_append] at ends
  obtain ⟨first, tail, starts⟩ : ∃ first tail, post ++ pre = first :: tail := by
    cases whole : post ++ pre with
    | nil => simp [whole] at ends
    | cons first tail => exact ⟨first, tail, rfl⟩
  have joinsNext : r.Joins x first := by
    rw [starts] at closed
    exact closed.joins_next
  have joinsLast : r.Joins last x := by
    rw [ends] at closed
    exact closed.joins_last
  have firstApart : first ≠ x := by
    rintro rfl
    exact out (by simp [starts])
  have lastApart : last ≠ x := by
    rintro rfl
    exact out (by simp [ends])
  refine ⟨{ head := if r.head = some x then some first else r.head,
            next := update r.next last (some first),
            prev := update r.prev first (some last) }, ?_, ⟨?_, kept, ?_⟩⟩
  · rw [unlink, if_neg (by rw [joinsNext.1]; simpa using firstApart)]
    have reach : (update r.prev first (some last)) x = some last := by
      rw [update_of_ne firstApart.symm, joinsLast.2]
    split <;> simp [setPrev, setNext, joinsNext.1, joinsLast.2, reach]
  · have entry := holds.head
    cases pre with
    | nil =>
      rw [append_nil] at starts
      rw [starts]
      simp [entry]
    | cons a pre =>
      have apart : a ≠ x := by
        rintro rfl
        exact out (by simp)
      simp [entry, apart]
  · have begins : (post ++ pre).head? = some first := by rw [starts]; rfl
    have finishes : (post ++ pre).getLast? = some last := by simp [ends]
    apply Closed.rotate
    refine closed.remove rest begins finishes ?_ ?_ ?_
    · intro y _ apart
      exact update_of_ne apart _ _
    · intro y _ apart
      exact update_of_ne apart _ _
    · exact ⟨update_self .., update_self ..⟩

theorem linkToEnd_eq {l : List ι} (holds : r.Holds l) (out : x ∉ l) :
    ∃ after, r.linkToEnd x = some after ∧ after.Holds (l ++ [x]) := by
  cases starts : l.head? with
  | none =>
    obtain rfl := head?_eq_none_iff.mp starts
    rw [linkToEnd, holds.head]
    refine ⟨_, rfl, ⟨rfl, nodup_singleton x, ?_⟩⟩
    have self : Joins { (r.setNext x (some x)).setPrev x (some x) with head := some x } x x :=
      ⟨update_self .., update_self ..⟩
    exact isChain_cons_cons.mpr ⟨self, isChain_singleton x⟩
  | some a =>
    obtain ⟨last, finishes, prevHead, -⟩ := holds.ends starts
    have entry : r.head = some a := holds.head.trans starts
    have first : a ∈ l := mem_of_head? starts
    have final : last ∈ l := mem_of_getLast? finishes
    have firstApart : a ≠ x := by
      rintro rfl
      exact out first
    have lastApart : last ≠ x := by
      rintro rfl
      exact out final
    refine ⟨{ head := some a,
              next := update (update r.next x (some a)) last (some x),
              prev := update (update r.prev x (some last)) a (some x) },
      ?_, ⟨?_, ?_, ?_⟩⟩
    · rw [linkToEnd, entry]
      simp [setNext, setPrev, prevHead, entry]
    · simp [starts]
    · exact holds.nodup_snoc out
    · refine holds.closed.insert holds.nodup starts finishes ?_ ?_ ?_ ?_
      · intro y member apart
        have other : y ≠ x := by
          rintro rfl
          exact out member
        simp [apart, other]
      · intro y member apart
        have other : y ≠ x := by
          rintro rfl
          exact out member
        simp [apart, other]
      · exact ⟨by simp, by simp [firstApart.symm]⟩
      · exact ⟨by simp [lastApart.symm], by simp⟩

theorem dequeue_nil (holds : r.Holds []) : r.dequeue = some (r, none) := by
  have entry : r.head = none := holds.head
  rw [dequeue, entry]

theorem dequeue_cons {l : List ι} (holds : r.Holds (x :: l)) :
    ∃ after, r.dequeue = some (after, some x) ∧ after.Holds l := by
  have entry : r.head = some x := holds.head
  obtain ⟨out, rest⟩ := nodup_cons.mp holds.nodup
  cases starts : l.head? with
  | none =>
    obtain rfl := head?_eq_none_iff.mp starts
    have joins := holds.closed.joins_self
    rw [dequeue, entry]
    simp [setNext, setPrev, joins.1, joins.2]
    exact ⟨rfl, nodup_nil, isChain_nil⟩
  | some a =>
    obtain ⟨t, rfl⟩ : ∃ t, l = a :: t := head?_eq_some_iff.mp starts
    have joinsNext : r.Joins x a := holds.closed.joins_next
    obtain ⟨last, finishes⟩ : ∃ last, (a :: t).getLast? = some last :=
      ⟨_, getLast?_eq_some_getLast (cons_ne_nil a t)⟩
    have joinsLast : r.Joins last x := by
      obtain ⟨front, whole⟩ := getLast?_eq_some_iff.mp finishes
      have closed := holds.closed
      rw [whole] at closed
      exact closed.joins_last
    have firstApart : a ≠ x := by
      rintro rfl
      exact out (by simp)
    have lastApart : last ≠ x := by
      rintro rfl
      exact out (mem_of_getLast? finishes)
    refine ⟨{ head := some a,
              next := update (update r.next last (some a)) x none,
              prev := update (update r.prev a (some last)) x none },
      ?_, ⟨rfl, rest, ?_⟩⟩
    · rw [dequeue, entry]
      simp [setNext, setPrev, joinsNext.1, joinsLast.2, firstApart, firstApart.symm, lastApart.symm]
    · refine holds.closed.remove rest starts finishes ?_ ?_ ?_
      · intro y member apart
        have other : y ≠ x := by
          rintro rfl
          exact out member
        simp [apart, other]
      · intro y member apart
        have other : y ≠ x := by
          rintro rfl
          exact out member
        simp [apart, other]
      · exact ⟨by simp [lastApart], by simp [firstApart]⟩

theorem linkBehindHead_nil (holds : r.Holds []) :
    ∃ after, r.linkBehindHead x = some after ∧ after.Holds [x] := by
  have entry : r.head = none := holds.head
  rw [linkBehindHead, entry]
  refine ⟨_, rfl, ⟨rfl, nodup_singleton x, ?_⟩⟩
  have self : Joins { (r.setNext x (some x)).setPrev x (some x) with head := some x } x x :=
    ⟨update_self .., update_self ..⟩
  exact isChain_cons_cons.mpr ⟨self, isChain_singleton x⟩

theorem linkBehindHead_cons {l : List ι} {a : ι} (holds : r.Holds (a :: l)) (out : x ∉ a :: l) :
    ∃ after, r.linkBehindHead x = some after ∧ after.Holds (x :: (l ++ [a])) := by
  have entry : r.head = some a := holds.head
  have turned : r.Closed (l ++ [a]) := @Closed.rotate _ r [a] l holds.closed
  have nodup : (l ++ [a]).Nodup := nodup_append_comm.mp holds.nodup
  obtain ⟨n, starts, nextHead⟩ : ∃ n, (l ++ [a]).head? = some n ∧ r.next a = some n := by
    cases l with
    | nil => exact ⟨a, rfl, holds.closed.joins_self.1⟩
    | cons b l => exact ⟨b, rfl, holds.closed.joins_next.1⟩
  have inside : ∀ {y : ι}, y ∈ l ++ [a] → y ≠ x := by
    rintro y member rfl
    apply out
    simpa [or_comm] using member
  have firstApart : n ≠ x := inside (mem_of_head? starts)
  have lastApart : a ≠ x := inside (by simp)
  refine ⟨{ head := some x,
            next := update (update r.next x (some n)) a (some x),
            prev := update (update r.prev x (some a)) n (some x) },
    ?_, ⟨rfl, ?_, ?_⟩⟩
  · rw [linkBehindHead, entry]
    simp [setNext, setPrev, nextHead]
  · refine nodup_cons.mpr ⟨?_, nodup⟩
    intro member
    exact inside member rfl
  · have closed := @Closed.insert _ r ⟨some x, update (update r.next x (some n)) a (some x),
        update (update r.prev x (some a)) n (some x)⟩
      x n a (l ++ [a]) turned nodup starts (by simp)
    have longer := closed (fun y member apart => by simp [apart, inside member])
      (fun y member apart => by simp [apart, inside member])
      ⟨by simp, by simp [firstApart.symm]⟩ ⟨by simp [lastApart.symm], by simp⟩
    exact @Closed.rotate _ _ (l ++ [a]) [x] longer

end Holds

/-- A loop that visits the nodes until it is back at the entry point, or until there is none where
it looks for that.  A visit may take its own node out. -/
def tour {ι σ : Type} [DecidableEq ι] (ring : σ → Ring ι) (visit : ι → σ → Option σ)
    (orEmpty : Bool) : Nat → ι → σ → Option σ
  | 0, _, _ => none
  | fuel + 1, x, s => do
      let next ← (ring s).next x
      let s ← visit x s
      if (ring s).head = some next ∨ orEmpty = true ∧ (ring s).head = none then some s
      else tour ring visit orEmpty fuel next s

section Tour

variable {σ : Type} {visit : ι → σ → Option σ} {inv : List ι → List ι → σ → Prop}

theorem first_after_visit {done rest : List ι} {x : ι} {s : σ}
    (visits : ∃ after, visit x s = some after ∧ (inv (done ++ [x]) rest after ∨ inv done rest after))
    (stays : done ≠ [] ∨ ∃ after, visit x s = some after ∧ inv (done ++ [x]) rest after) :
    ∃ after first tail, visit x s = some after ∧ inv (first :: tail) rest after ∧
      (done ++ [x]).head? = some first := by
  cases done with
  | nil =>
    obtain ⟨after, visited, kept⟩ := stays.resolve_left (· rfl)
    exact ⟨after, x, [], visited, kept, rfl⟩
  | cons first tail =>
    obtain ⟨after, visited, kept | kept⟩ := visits
    · exact ⟨after, first, tail ++ [x], visited, kept, rfl⟩
    · exact ⟨after, first, tail, visited, kept, rfl⟩

variable [DecidableEq ι] {ring : σ → Ring ι} {orEmpty : Bool}

/-- Where the first node stays, all are visited.  The invariant has the nodes that were visited
and stayed, and those to come. -/
theorem tour_visits_all (holds : ∀ {done rest s}, inv done rest s → (ring s).Holds (done ++ rest))
    (visits : ∀ {done x rest s}, inv done (x :: rest) s →
      ∃ after, visit x s = some after ∧ (inv (done ++ [x]) rest after ∨ inv done rest after))
    {fuel : Nat} {done rest : List ι} {x : ι} {s : σ} (starts : inv done (x :: rest) s)
    (enough : rest.length < fuel)
    (stays : done ≠ [] ∨ ∃ after, visit x s = some after ∧ inv (done ++ [x]) rest after) :
    ∃ left after, tour ring visit orEmpty fuel x s = some after ∧ inv left [] after := by
  induction rest generalizing fuel done x s with
  | nil =>
    obtain ⟨fuel, rfl⟩ : ∃ k, fuel = k + 1 := ⟨fuel - 1, by omega⟩
    obtain ⟨after, first, tail, visited, kept, same⟩ := first_after_visit (visits starts) stays
    have before := holds starts
    have next : (ring s).next x = some first := by rw [before.next_last, before.head, same]
    have head : (ring after).head = some first := (holds kept).head
    refine ⟨first :: tail, after, ?_, kept⟩
    rw [tour, next, bind_eq_bind, bind_some, visited, bind_eq_bind, bind_some, if_pos (.inl head)]
  | cons y rest ih =>
    obtain ⟨fuel, rfl⟩ : ∃ k, fuel = k + 1 := ⟨fuel - 1, by omega⟩
    obtain ⟨after, first, tail, visited, kept, -⟩ := first_after_visit (visits starts) stays
    have next : (ring s).next x = some y := (holds starts).next_inner
    have ring' := holds kept
    have head : (ring after).head = some first := ring'.head
    have apart : (ring after).head ≠ some y :=
      @Holds.head_apart _ _ [] (tail ++ y :: rest) first y ring' (by simp)
    have further : ¬ ((ring after).head = some y ∨ orEmpty = true ∧ (ring after).head = none) := by
      rintro (same | ⟨-, empty⟩)
      · exact apart same
      · cases head.symm.trans empty
    obtain ⟨left, final, toured, whole⟩ := ih kept (by simpa using enough)
      (.inl (cons_ne_nil first tail))
    refine ⟨left, final, ?_, whole⟩
    rw [tour, next, bind_eq_bind, bind_some, visited, bind_eq_bind,
      bind_some, if_neg further, toured]

end Tour

end Ring

end AthApps.Lib
