import AthApps.Spectral.Pool

/-!
# The order in which a pool is sent

The writer of a pool goes round the ring while `send_saved_msg_to_gui` always
looks from slot 0 on.  Message `n` of a pool goes to the slot `n + 1` places
behind the write index at the start, so a slot at or below the write index
holds a younger message than a slot above it.  Unless unsent messages lie on
both sides of the write index when one is sent, the first valid slot holds the
oldest of them.
-/

set_option autoImplicit false

namespace AthApps.Spectral

open AthApps.Lib List Option
open Function (update update_of_ne update_self)

variable {α : Type}

def SampMsgPool.sendSaved (pool : SampMsgPool α) : SampMsgPool α × Transmission α :=
  match pool.firstValid with
  | some slot =>
    let msg := (pool.msgPool slot).savedMsg
    let numValid := if msg.freq = pool.freq then pool.numValid - 1 else pool.numValid
    (SampMsgPool.invalidate { pool with numValid := numValid } slot, .saved msg)
  | none => ({ pool with numValid := pool.numValid - 1 }, .dummy pool.freq)

section Server

variable (server : SampServer α)

/-- `sendSaved` is what `send_saved_msg_to_gui` does to the pool that it is called with. -/
theorem sendSavedLower_eq (own : server.lower.freq = guiLowerFreq) :
    server.sendSavedLower.lower = server.lower.sendSaved.1 ∧
      server.sendSavedLower.sent = server.sent ++ [server.lower.sendSaved.2] := by
  obtain ⟨⟨freq, numValid, currentIndex, msgPool⟩, upper, sent⟩ := server
  obtain rfl : freq = guiLowerFreq := own
  unfold SampServer.sendSavedLower SampMsgPool.sendSaved
  generalize SampMsgPool.firstValid _ = found
  cases found with
  | none => simp [SampServer.sendSampDataToGui]
  | some slot =>
    simp only [SampServer.sendSampDataToGui, and_true]
    split <;> rfl

theorem sendSavedUpper_eq (own : server.upper.freq = guiUpperFreq) :
    server.sendSavedUpper.upper = server.upper.sendSaved.1 ∧
      server.sendSavedUpper.sent = server.sent ++ [server.upper.sendSaved.2] := by
  obtain ⟨lower, ⟨freq, numValid, currentIndex, msgPool⟩, sent⟩ := server
  obtain rfl : freq = guiUpperFreq := own
  unfold SampServer.sendSavedUpper SampMsgPool.sendSaved
  generalize SampMsgPool.firstValid _ = found
  cases found with
  | none => simp [SampServer.sendSampDataToGui]
  | some slot =>
    simp only [SampServer.sendSampDataToGui, and_true]
    split <;> rfl

end Server

/-- A pool, the messages saved to it and what it sent, in their order. -/
structure PoolHistory (α : Type) where
  pool : SampMsgPool α
  saved : List (SampMsg α)
  sent : List (Transmission α)

inductive PoolEvent (α : Type) where
  | save (open_value : Int) (msg : SampMsg α)
  | send

def poolStep (history : PoolHistory α) : PoolEvent α → Option (PoolHistory α)
  | .save open_value msg =>
    (history.pool.save open_value msg).map fun pool =>
      { history with pool := pool, saved := history.saved ++ [msg] }
  | .send => some { history with
      pool := history.pool.sendSaved.1
      sent := history.sent ++ [history.pool.sendSaved.2] }

def Transmission.message? : Transmission α → Option (SampMsg α)
  | .saved msg => some msg
  | .dummy _ => none

/-- The slot of message `n` when the write index started at `start`. -/
def slotOf (start : Fin maxSavedSampMsgs) (n : Nat) : Fin maxSavedSampMsgs :=
  ⟨(start + 1 + n) % maxSavedSampMsgs, Nat.mod_lt _ (by decide)⟩

/-- The saved messages that were sent are at increasing positions of those
that were saved, and any other one still waits in its slot or had as many
messages saved after it as there are slots. -/
def InOrder (start : Fin maxSavedSampMsgs) (history : PoolHistory α) : Prop :=
  ∃ positions : List Nat, positions.Pairwise (· < ·) ∧ positions.map (fun n => history.saved[n]?) =
      (history.sent.filterMap Transmission.message?).map some ∧
    ∀ n < history.saved.length, n ∈ positions ∨
      ((history.pool.msgPool (slotOf start n)).msgValid = true ∧
        history.saved[n]? = some (history.pool.msgPool (slotOf start n)).savedMsg) ∨
      n + maxSavedSampMsgs < history.saved.length

/-- Unsent messages do not lie on both sides of the write index. -/
def SampMsgPool.OneSided (pool : SampMsgPool α) : Prop :=
  (∀ slot : Fin maxSavedSampMsgs, (pool.msgPool slot).msgValid = true →
      ((slot : Nat) : Int) ≤ pool.currentIndex) ∨
    ∀ slot : Fin maxSavedSampMsgs, (pool.msgPool slot).msgValid = true →
      pool.currentIndex < ((slot : Nat) : Int)

instance (pool : SampMsgPool α) : Decidable pool.OneSided :=
  inferInstanceAs (Decidable (_ ∨ _))

/-- The condition on a step: a message is sent only from a pool whose unsent
messages lie on one side of the write index. -/
def SendsOldest (history : PoolHistory α) : PoolEvent α → Prop
  | .save _ _ => True
  | .send => history.pool.OneSided

instance (history : PoolHistory α) (event : PoolEvent α) :
    Decidable (SendsOldest history event) :=
  match event with
  | .save _ _ => inferInstanceAs (Decidable True)
  | .send => inferInstanceAs (Decidable history.pool.OneSided)

/-- What holds along a run from write index `start`. -/
structure Ordered (start : Fin maxSavedSampMsgs) (history : PoolHistory α)
    (positions : List Nat) : Prop where
  index : history.pool.currentIndex = (((start + history.saved.length) % maxSavedSampMsgs : Nat) : Int)
  increasing : positions.Pairwise (· < ·)
  past : ∀ n ∈ positions, n < history.saved.length
  contents : positions.map (fun n => history.saved[n]?) =
    (history.sent.filterMap Transmission.message?).map some
  waiting : ∀ slot, (history.pool.msgPool slot).msgValid = true →
    ∃ n, slotOf start n = slot ∧ n < history.saved.length ∧
      history.saved.length ≤ n + maxSavedSampMsgs ∧
      history.saved[n]? = some (history.pool.msgPool slot).savedMsg ∧
      ∀ earlier ∈ positions, earlier < n
  kept : ∀ n < history.saved.length, n ∈ positions ∨
    (history.pool.msgPool (slotOf start n)).msgValid = true ∨
    n + maxSavedSampMsgs < history.saved.length

variable {start : Fin maxSavedSampMsgs} {positions : List Nat} {history : PoolHistory α}

theorem slotOf_window {n m count : Nat}
    (same : slotOf start n = slotOf start m) (nLate : n < count) (nEarly : count ≤ n + maxSavedSampMsgs)
    (mLate : m < count) (mEarly : count ≤ m + maxSavedSampMsgs) : n = m := by
  have values := congrArg Fin.val same
  simp only [slotOf, maxSavedSampMsgs] at values nEarly mEarly
  omega

theorem Ordered.inOrder (ordered : Ordered start history positions) : InOrder start history := by
  refine ⟨positions, ordered.increasing, ordered.contents, ?_⟩
  intro n late
  rcases ordered.kept n late with sent | valid | lost
  · exact Or.inl sent
  · by_cases recent : history.saved.length ≤ n + maxSavedSampMsgs
    · obtain ⟨m, slot, mLate, mEarly, stored, -⟩ := ordered.waiting (slotOf start n) valid
      have equal := slotOf_window slot mLate mEarly late recent
      rw [equal] at stored
      exact Or.inr (Or.inl ⟨valid, stored⟩)
    · exact Or.inr (Or.inr (Nat.not_le.mp recent))
  · exact Or.inr (Or.inr lost)

theorem getNextIndex_ring (open_value : Int) (written : Nat) :
    getNextIndex open_value ((written % maxSavedSampMsgs : Nat) : Int) =
      (((written + 1) % maxSavedSampMsgs : Nat) : Int) := by
  have small : written % maxSavedSampMsgs < 10 := Nat.mod_lt _ (by decide)
  have size : ((maxSavedSampMsgs : Nat) : Int) - 1 = 9 := by decide
  have next : (written + 1) % maxSavedSampMsgs =
      if written % maxSavedSampMsgs < 9 then written % maxSavedSampMsgs + 1 else 0 := by
    rw [maxSavedSampMsgs]
    split <;> omega
  unfold getNextIndex
  rw [size, next]
  rcases Nat.lt_or_ge (written % maxSavedSampMsgs) 9 with below | last
  · rw [if_pos (by omega), if_pos below]
    omega
  · rw [if_neg (by omega), if_pos (by omega), if_neg (by omega)]
    rfl

theorem Ordered.save_eq (ordered : Ordered start history positions) (open_value : Int)
    (msg : SampMsg α) :
    history.pool.save open_value msg = some
      { history.pool with
        numValid := history.pool.numValid + 1
        currentIndex := (((start + (history.saved.length + 1)) % maxSavedSampMsgs : Nat) : Int)
        msgPool := update history.pool.msgPool (slotOf start history.saved.length)
          ⟨true, msg⟩ } := by
  have next : getNextIndex open_value history.pool.currentIndex =
      (((start + (history.saved.length + 1)) % maxSavedSampMsgs : Nat) : Int) := by
    rw [ordered.index, getNextIndex_ring]
    rfl
  have inside : 0 ≤ getNextIndex open_value history.pool.currentIndex ∧
      getNextIndex open_value history.pool.currentIndex < maxSavedSampMsgs := by
    rw [next]
    exact ⟨Int.natCast_nonneg _, Int.ofNat_lt.mpr (Nat.mod_lt _ (by decide))⟩
  have slot : (⟨(getNextIndex open_value history.pool.currentIndex).toNat,
      (Int.toNat_lt inside.1).mpr inside.2⟩ : Fin maxSavedSampMsgs) =
        slotOf start history.saved.length := by
    apply Fin.ext
    simp only [next, Int.toNat_natCast, slotOf]
    rw [Nat.add_right_comm, Nat.add_assoc]
  rw [SampMsgPool.save]
  simp only [dif_pos inside, slot]
  rw [next]

variable {slot other : Fin maxSavedSampMsgs} {history after : PoolHistory α}

theorem Ordered.save (ordered : Ordered start history positions) {open_value : Int}
    {msg : SampMsg α} (steps : poolStep history (.save open_value msg) = some after) :
    Ordered start after positions := by
  simp only [poolStep, ordered.save_eq, map_some, some.injEq] at steps
  subst steps
  have longer : (history.saved ++ [msg]).length = history.saved.length + 1 := by simp
  have old : ∀ n < history.saved.length, (history.saved ++ [msg])[n]? = history.saved[n]? :=
    fun n late => getElem?_append_left late
  refine ⟨?_, ordered.increasing, ?_, ?_, ?_, ?_⟩
  · simp only [longer]
  · intro n member
    have before := ordered.past n member
    simp only [longer]
    omega
  · rw [← ordered.contents]
    apply map_congr_left
    intro n member
    exact old n (ordered.past n member)
  · intro slot valid
    dsimp only at valid ⊢
    by_cases here : slot = slotOf start history.saved.length
    · subst here
      refine ⟨history.saved.length, rfl, ?_, ?_, ?_, ordered.past⟩
      · omega
      · rw [longer, maxSavedSampMsgs]
        omega
      · rw [update_self]
        simp
    · rw [update_of_ne here] at valid ⊢
      obtain ⟨n, isSlot, late, early, stored, young⟩ := ordered.waiting slot valid
      refine ⟨n, isSlot, ?_, ?_, ?_, young⟩
      · omega
      · -- the oldest message of a full round is the one overwritten
        have other : n + maxSavedSampMsgs ≠ history.saved.length := by
          intro full
          apply here
          rw [← isSlot]
          apply Fin.ext
          simp only [slotOf, maxSavedSampMsgs] at full ⊢
          omega
        rw [longer]
        omega
      · rw [old n late, stored]
  · intro n late
    dsimp only at late ⊢
    rw [longer] at late ⊢
    by_cases new : n = history.saved.length
    · subst new
      rw [update_self]
      exact Or.inr (Or.inl rfl)
    · by_cases here : slotOf start n = slotOf start history.saved.length
      · rw [here, update_self]
        exact Or.inr (Or.inl rfl)
      · rw [update_of_ne here]
        rcases ordered.kept n (by omega) with sent | valid | lost
        · exact Or.inl sent
        · exact Or.inr (Or.inl valid)
        · exact Or.inr (Or.inr (by omega))

theorem Ordered.oldest (ordered : Ordered start history positions)
    (oneSided : history.pool.OneSided) {n m : Nat}
    (before : slot < other) (valid : (history.pool.msgPool slot).msgValid = true)
    (otherValid : (history.pool.msgPool other).msgValid = true)
    (isSlot : slotOf start n = slot) (isOther : slotOf start m = other)
    (nLate : n < history.saved.length) (nEarly : history.saved.length ≤ n + maxSavedSampMsgs)
    (mLate : m < history.saved.length) (mEarly : history.saved.length ≤ m + maxSavedSampMsgs) :
    n < m := by
  have index := ordered.index
  have slotValue := congrArg Fin.val isSlot
  have otherValue := congrArg Fin.val isOther
  have less : slot.val < other.val := before
  simp only [slotOf, maxSavedSampMsgs] at slotValue otherValue index nEarly mEarly
  rcases oneSided with below | above
  · have slotBelow := below slot valid
    have otherBelow := below other otherValid
    omega
  · have slotAbove := above slot valid
    have otherAbove := above other otherValid
    omega

theorem firstValid_least {pool : SampMsgPool α}
    (found : pool.firstValid = some slot) (valid : (pool.msgPool other).msgValid = true) :
    slot ≤ other := by
  obtain ⟨-, front, back, split, none⟩ := find?_eq_some_iff_append.mp found
  have sorted : (List.finRange maxSavedSampMsgs).Pairwise (· < ·) := pairwise_lt_finRange _
  rw [split] at sorted
  have member : other ∈ front ++ slot :: back := by
    rw [← split]
    exact mem_finRange other
  rcases mem_append.mp member with early | late
  · have invalid := none other early
    rw [valid] at invalid
    exact absurd invalid (by decide)
  · rcases mem_cons.mp late with rfl | late
    · exact Nat.le_refl _
    · have after := (pairwise_append.mp sorted).2.1
      exact Nat.le_of_lt (rel_of_pairwise_cons after late)

theorem Ordered.send (ordered : Ordered start history positions)
    (oneSided : history.pool.OneSided) (steps : poolStep history .send = some after) :
    ∃ more, Ordered start after more := by
  simp only [poolStep, some.injEq] at steps
  subst steps
  unfold SampMsgPool.sendSaved
  cases found : history.pool.firstValid with
  | none =>
    refine ⟨positions, ordered.index, ordered.increasing, ordered.past, ?_, ordered.waiting,
      ordered.kept⟩
    simp [ordered.contents, Transmission.message?]
  | some slot =>
    have valid := firstValid_valid found
    obtain ⟨n, isSlot, late, early, stored, young⟩ := ordered.waiting slot valid
    refine ⟨positions ++ [n], ordered.index, ?_, ?_, ?_, ?_, ?_⟩
    · apply pairwise_append.mpr
      refine ⟨ordered.increasing, pairwise_singleton _ _, ?_⟩
      intro before member last isLast
      rw [mem_singleton.mp isLast]
      exact young before member
    · intro m member
      rcases mem_append.mp member with member | member
      · exact ordered.past m member
      · rw [mem_singleton.mp member]
        exact late
    · simp [ordered.contents, Transmission.message?, stored]
    · intro other still
      simp only [SampMsgPool.invalidate] at still ⊢
      by_cases here : other = slot
      · subst here
        rw [update_self] at still
        exact absurd still (by simp)
      · rw [update_of_ne here] at still ⊢
        obtain ⟨m, isOther, mLate, mEarly, mStored, mYoung⟩ := ordered.waiting other still
        refine ⟨m, isOther, mLate, mEarly, mStored, ?_⟩
        intro before member
        rcases mem_append.mp member with member | member
        · exact mYoung before member
        · rw [mem_singleton.mp member]
          have less : slot < other := lt_of_le_of_ne (firstValid_least found still) (Ne.symm here)
          exact ordered.oldest oneSided less valid still isSlot isOther late early mLate mEarly
    · intro m mLate
      simp only [SampMsgPool.invalidate]
      rcases ordered.kept m mLate with sent | waits | lost
      · exact Or.inl (mem_append_left _ sent)
      · by_cases here : slotOf start m = slot
        · by_cases recent : history.saved.length ≤ m + maxSavedSampMsgs
          · have same := slotOf_window (here.trans isSlot.symm) mLate recent late early
            rw [same]
            exact Or.inl (mem_append_right _ (mem_singleton_self n))
          · exact Or.inr (Or.inr (Nat.not_le.mp recent))
        · rw [update_of_ne here]
          exact Or.inr (Or.inl waits)
      · exact Or.inr (Or.inr lost)

def PoolHistory.Fresh (history : PoolHistory α) (start : Fin maxSavedSampMsgs) : Prop :=
  history.pool.currentIndex = ((start : Nat) : Int) ∧
    (∀ slot, (history.pool.msgPool slot).msgValid = false) ∧ history.saved = [] ∧ history.sent = []

theorem PoolHistory.Fresh.ordered (fresh : history.Fresh start) : Ordered start history [] := by
  obtain ⟨index, invalid, saved, sent⟩ := fresh
  refine ⟨?_, List.Pairwise.nil, by simp, by simp [sent], ?_, by simp [saved]⟩
  · rw [index, saved, length_nil, Nat.add_zero, Nat.mod_eq_of_lt start.isLt]
  · intro slot valid
    rw [invalid slot] at valid
    exact absurd valid (by decide)

/-- Messages are sent in the order they were saved, and lost only after a full
round of the ring, while every send meets a pool whose unsent messages lie on
one side of the write index. -/
theorem pool_sends_in_order (start : Fin maxSavedSampMsgs) (initial history : PoolHistory α)
    (fresh : initial.Fresh start) (reached : Reaches poolStep SendsOldest initial history) :
    InOrder start history := by
  have ordered : ∃ positions, Ordered start history positions := by
    refine @Reaches.invariant _ _ _ _ (fun state => ∃ positions, Ordered start state positions)
      initial history ?_ reached ⟨[], fresh.ordered⟩
    rintro state event after met steps ⟨positions, earlier⟩
    cases event with
    | save open_value msg => exact ⟨positions, earlier.save steps⟩
    | send => exact earlier.send met steps
  obtain ⟨positions, holds⟩ := ordered
  exact holds.inOrder

def eighthSlot : Fin maxSavedSampMsgs := ⟨8, by decide⟩

/-- A pool of one frequency with write index 8 and nothing saved. -/
def lateRing : PoolHistory Nat :=
  ⟨⟨guiLowerFreq, 0, 8, fun _ => ⟨false, ⟨0, 0⟩⟩⟩, [], []⟩

theorem lateRing_fresh : lateRing.Fresh eighthSlot := by
  refine ⟨rfl, ?_, rfl, rfl⟩
  intro slot
  rfl

theorem pool_sends_in_order_pair :
    ∃ history, Reaches poolStep SendsOldest lateRing history ∧
      history.sent = [.saved ⟨guiLowerFreq, 1⟩, .saved ⟨guiLowerFreq, 2⟩] ∧ InOrder eighthSlot history := by
  have ends : (follows poolStep SendsOldest lateRing
      [fun _ => .save 0 ⟨guiLowerFreq, 1⟩, fun _ => .send, fun _ => .save 0 ⟨guiLowerFreq, 2⟩,
        fun _ => .send]).map PoolHistory.sent =
      some [.saved ⟨guiLowerFreq, 1⟩, .saved ⟨guiLowerFreq, 2⟩] := by
    decide
  obtain ⟨history, followed, sent⟩ := map_eq_some_iff.mp ends
  have reached := reaches_of_follows followed
  exact ⟨history, reached, sent, pool_sends_in_order eighthSlot lateRing history lateRing_fresh reached⟩

/-- Two messages saved across the end of the ring are sent in the wrong order. -/
theorem pool_sends_out_of_order :
    ∃ history, Reaches poolStep (fun _ _ => True) lateRing history ∧ ¬ InOrder eighthSlot history := by
  have ends : (follows poolStep (fun _ _ => True) lateRing
      [fun _ => .save 0 ⟨guiLowerFreq, 1⟩, fun _ => .save 0 ⟨guiLowerFreq, 2⟩, fun _ => .send,
        fun _ => .send]).map (fun history => (history.saved, history.sent)) =
      some ([⟨guiLowerFreq, 1⟩, ⟨guiLowerFreq, 2⟩],
        [.saved ⟨guiLowerFreq, 2⟩, .saved ⟨guiLowerFreq, 1⟩]) := by
    decide
  obtain ⟨history, followed, values⟩ := map_eq_some_iff.mp ends
  refine ⟨history, reaches_of_follows followed, ?_⟩
  obtain ⟨saved, sent⟩ := Prod.mk.inj values
  rintro ⟨positions, increasing, contents, -⟩
  rw [saved, sent] at contents
  simp only [filterMap_cons, Transmission.message?, filterMap_nil, map_cons, map_nil] at contents
  have two : positions.length = 2 := by simpa using congrArg List.length contents
  match positions, two, contents, increasing with
  | [first, second], _, contents, increasing =>
    have less : first < second := by simpa using increasing
    simp only [map_cons, map_nil, List.cons.injEq, and_true] at contents
    have firstAt : first = 1 := by
      match first, contents.1 with
      | 0, wrong => exact absurd wrong (by decide)
      | 1, _ => rfl
      | n + 2, wrong => exact absurd wrong (by simp)
    have secondAt : second = 0 := by
      match second, contents.2 with
      | 0, _ => rfl
      | 1, wrong => exact absurd wrong (by decide)
      | n + 2, wrong => exact absurd wrong (by simp)
    omega

end AthApps.Spectral
