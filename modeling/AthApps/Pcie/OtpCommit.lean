import AthApps.Pcie.Otp

/-!
# Committing to OTP over the pairs that are there

The pairs in the OTP form a chain that starts at `PCIE_OTP_BASE` and ends at
the first blank register.  On this chain the commit is a walk over two lists,
the pairs that exist and the pairs that are new: an existing pair is kept when
it is the next new one and withdrawn when it is not, and what is left of the
new pairs is added at the end.  The one round that does neither is the repair
of a value, which goes to the wrong word.
-/

set_option autoImplicit false

namespace AthApps.Pcie

open List Option

/-! ## The chain in memory -/

def slotAddress (slot : Nat) : Nat := pcieOtpBase + 8 * slot

def blankPair : Pair := ⟨0, 0⟩

/-- The memory holds the pairs `slots` and is blank behind them. -/
structure Chain (otp : Otp) (slots : List Pair) : Prop where
  register : ∀ slot, otp (slotAddress slot) = (slots.getD slot blankPair).register
  value : ∀ slot, otp (slotAddress slot + 4) = (slots.getD slot blankPair).value
  used : ∀ pair ∈ slots, pair.register ≠ 0

def Pair.Withdrawn (pair : Pair) : Prop := pair.register &&& 3 ≠ 0

instance (pair : Pair) : Decidable pair.Withdrawn := inferInstanceAs (Decidable (_ ≠ _))

def livePairs (slots : List Pair) : List Pair := slots.filter fun pair => ¬pair.Withdrawn

/-! ## The walk over both lists -/

def slotRound (slot : Pair) (new : List Pair) : Except UInt32 (UInt32 × Nat) :=
  if slot.Withdrawn then
    .ok (slot.register, 0)
  else
    match new with
    | [] =>
      if slot.value &&& 3 = 0 then .error (slot.register ||| invalidate)
      else .ok (slot.register ||| invalidate, 0)
    | pair :: _ =>
      if slot.register = pair.register then
        if slot.value = pair.value then
          .ok (slot.register, 1)
        else if slot.value &&& ~~~pair.value = 0 then
          if slot.register ||| pair.value = pair.value then
            .ok (slot.register ||| pair.value ||| invalidate, 0)
          else
            .ok (slot.register ||| pair.value, 0)
        else
          .ok (slot.register ||| invalidate, 0)
      else
        .ok (slot.register ||| invalidate, 0)

@[grind =] def walk : List Pair → List Pair → Option (List Pair × List Pair)
  | [], new => some ([], new)
  | slot :: rest, new =>
    match slotRound slot new with
    | .error _ => none
    | .ok (register, accounted) =>
      match walk rest (new.drop accounted) with
      | none => none
      | some (seen, left) => some (⟨register, slot.value⟩ :: seen, left)

/-! ## Bits -/

theorem or_and_three (left right : UInt32) :
    (left ||| right) &&& 3 = 0 ↔ left &&& 3 = 0 ∧ right &&& 3 = 0 := by
  have distributes : (left ||| right) &&& 3 = (left &&& 3) ||| (right &&& 3) :=
    UInt32.toBitVec_inj.mp (by simp [BitVec.and_or_distrib_right])
  rw [distributes, UInt32.or_eq_zero_iff]

theorem invalidate_and_three : invalidate &&& 3 ≠ 0 := by decide

theorem or_ne_zero_of_left (left right : UInt32) (nonzero : left ≠ 0) : left ||| right ≠ 0 := by
  intro zero
  exact nonzero (UInt32.or_eq_zero_iff.mp zero).1

/-! ## The rounds of the source are those of the walk -/

theorem writeIt_eq (otp : Otp) (address : Nat) (value : UInt32) :
    writeIt otp address value = Function.update otp address (otp address ||| value) := rfl

theorem withdraw_self (otp : Otp) (address : Nat) :
    withdraw otp address address =
      .ok (Function.update otp address (otp address ||| invalidate)) := by
  have bits : ¬(otp address ||| invalidate) &&& 3 = 0 := by
    rw [or_and_three]
    exact fun both => invalidate_and_three both.2
  simp only [withdraw, readIt, writeIt_eq, Function.update_self]
  rw [if_neg bits]

theorem existingRound_eq (new : List Pair) (address out : Nat) (otp : Otp) :
    existingRound new address out otp =
      match slotRound ⟨otp address, otp (address + 4)⟩ (new.drop out) with
      | .error register => .error (Function.update otp address register)
      | .ok (register, accounted) =>
        .ok (Function.update otp address register, out + accounted) := by
  have apart : address + 4 ≠ address := by omega
  have head : (new.drop out).head? = new[out]? := by rw [head?_drop]
  simp only [existingRound, slotRound, readIt, Pair.Withdrawn]
  by_cases withdrawn : otp address &&& 3 = 0
  · simp only [withdrawn, ne_eq, not_true_eq_false, if_false]
    cases rest : new.drop out with
    | nil =>
      rw [rest, head?_nil] at head
      rw [← head]
      simp only [withdraw, readIt, writeIt_eq, Function.update_of_ne apart]
      split <;> rfl
    | cons pair more =>
      rw [rest, head?_cons] at head
      rw [← head]
      simp only [withdraw_self, Except.map, writeIt_eq, Function.update_self]
      by_cases register : otp address = pair.register
      · rw [if_pos register, if_pos register]
        by_cases value : otp (address + 4) = pair.value
        · rw [if_pos value, if_pos value]
          simp only [Function.update_eq_self]
        · rw [if_neg value, if_neg value]
          by_cases fixable : otp (address + 4) &&& ~~~pair.value = 0
          · rw [if_pos fixable, if_pos fixable]
            by_cases check : otp address ||| pair.value = pair.value
            · rw [if_pos check, if_pos check]
              simp only [Function.update_idem, Nat.add_zero]
            · rw [if_neg check, if_neg check]
              rfl
          · rw [if_neg fixable, if_neg fixable]
            rfl
      · rw [if_neg register, if_neg register]
        rfl
  · simp only [withdrawn, ne_eq, not_false_eq_true, if_true, Function.update_eq_self, Nat.add_zero]

theorem slotRound_register (slot : Pair) (new : List Pair) :
    (∃ bits, slotRound slot new = .error (slot.register ||| bits)) ∨
      ∃ bits accounted, slotRound slot new = .ok (slot.register ||| bits, accounted) := by
  fun_cases slotRound slot new with
  | case1 => exact Or.inr ⟨0, 0, by rw [UInt32.or_zero]⟩
  | case2 => exact Or.inl ⟨invalidate, rfl⟩
  | case3 => exact Or.inr ⟨invalidate, 0, rfl⟩
  | case4 => exact Or.inr ⟨0, 1, by rw [UInt32.or_zero]⟩
  | case5 _ pair => exact Or.inr ⟨pair.value ||| invalidate, 0, by rw [UInt32.or_assoc]⟩
  | case6 _ pair => exact Or.inr ⟨pair.value, 0, rfl⟩
  | case7 => exact Or.inr ⟨invalidate, 0, rfl⟩
  | case8 => exact Or.inr ⟨invalidate, 0, rfl⟩

namespace Chain

variable {otp : Otp} {front rest : List Pair} {slot : Pair}

theorem update (chain : Chain otp (front ++ slot :: rest)) (register : UInt32)
    (used : register ≠ 0) :
    Chain (Function.update otp (slotAddress front.length) register)
      (front ++ ⟨register, slot.value⟩ :: rest) := by
  have place : ∀ pair : Pair, (front ++ pair :: rest).getD front.length blankPair = pair := by
    intro pair
    rw [getD_append_right _ _ _ _ (Nat.le_refl _), Nat.sub_self, getD_cons_zero]
  have other : ∀ (pair : Pair) (index : Nat), index ≠ front.length →
      (front ++ pair :: rest).getD index blankPair =
        (front ++ slot :: rest).getD index blankPair := by
    intro pair index apart
    by_cases before : index < front.length
    · rw [getD_append _ _ _ _ before, getD_append _ _ _ _ before]
    · obtain ⟨more, rfl⟩ : ∃ more, index = front.length + (more + 1) :=
        ⟨index - front.length - 1, by omega⟩
      rw [getD_append_right _ _ _ _ (by omega), getD_append_right _ _ _ _ (by omega),
        Nat.add_sub_cancel_left, getD_cons_succ, getD_cons_succ]
  refine ⟨fun index => ?_, fun index => ?_, fun pair member => ?_⟩
  · by_cases same : index = front.length
    · rw [same, Function.update_self, place]
    · rw [Function.update_of_ne (by unfold slotAddress; omega), chain.register,
        other ⟨register, slot.value⟩ _ same]
  · rw [Function.update_of_ne (by unfold slotAddress; omega), chain.value]
    by_cases same : index = front.length
    · rw [same, place, place]
    · rw [other ⟨register, slot.value⟩ _ same]
  · rcases mem_append.mp member with before | later
    · exact chain.used pair (mem_append_left _ before)
    · rcases mem_cons.mp later with rfl | later
      · exact used
      · exact chain.used pair (mem_append_right _ (mem_cons_of_mem _ later))

theorem head_register (chain : Chain otp (front ++ slot :: rest)) :
    otp (slotAddress front.length) = slot.register := by
  rw [chain.register, getD_append_right _ _ _ _ (Nat.le_refl _), Nat.sub_self, getD_cons_zero]

theorem head_value (chain : Chain otp (front ++ slot :: rest)) :
    otp (slotAddress front.length + 4) = slot.value := by
  rw [chain.value, getD_append_right _ _ _ _ (Nat.le_refl _), Nat.sub_self, getD_cons_zero]

theorem end_register {slots : List Pair} (chain : Chain otp slots) :
    otp (slotAddress slots.length) = 0 := by
  rw [chain.register, getD_eq_default _ _ (Nat.le_refl _)]
  rfl

theorem end_value {slots : List Pair} (chain : Chain otp slots) :
    otp (slotAddress slots.length + 4) = 0 := by
  rw [chain.value, getD_eq_default _ _ (Nat.le_refl _)]
  rfl

end Chain

/-- What the loop over the existing pairs leaves: a chain in every case, and
unless the chip is rejected the pairs it has seen as the walk leaves them, with
pairs behind the limit untouched. -/
theorem existingLoop_spec (limit : Int) (new : List Pair) : ∀ (rest front : List Pair)
    (out : Nat) (otp : Otp), Chain otp (front ++ rest) →
    match existingLoop limit new (slotAddress front.length) out otp with
    | .error after => ∃ slots, Chain after slots
    | .ok (after, address, count) => ∃ visited seen left, rest = visited ++ left ∧
        walk visited (new.drop out) = some (seen, new.drop count) ∧
        Chain after (front ++ (seen ++ left)) ∧
        address = slotAddress (front.length + seen.length) ∧
        (left ≠ [] → limit < address) := by
  intro rest
  induction rest with
  | nil =>
    intro front out otp chain
    have blank := chain.end_register
    rw [append_nil] at blank
    have result : existingLoop limit new (slotAddress front.length) out otp =
        .ok (otp, slotAddress front.length, out) := by
      rw [existingLoop]
      split
      · rw [readIt, if_pos blank]
      · rfl
    rw [result]
    exact ⟨[], [], [], rfl, rfl, chain, rfl, fun nonempty => absurd rfl nonempty⟩
  | cons slot rest ih =>
    intro front out otp chain
    have register := chain.head_register
    have value := chain.head_value
    have used := chain.used slot (mem_append_right _ mem_cons_self)
    by_cases inside : (slotAddress front.length : Int) ≤ limit
    · rw [existingLoop, if_pos inside, readIt, register, if_neg used, existingRound_eq,
        register, value]
      rcases slotRound_register slot (new.drop out) with
        ⟨bits, round⟩ | ⟨bits, accounted, round⟩
      · rw [round]
        exact ⟨_, chain.update _ (or_ne_zero_of_left _ bits used)⟩
      · rw [round]
        have nonzero := or_ne_zero_of_left _ bits used
        obtain ⟨written, written_eq⟩ : ∃ written, slot.register ||| bits = written := ⟨_, rfl⟩
        rw [written_eq] at round nonzero ⊢
        have step := ih (front ++ [⟨written, slot.value⟩]) (out + accounted)
          (Function.update otp (slotAddress front.length) written)
          (by rw [append_assoc]; exact chain.update written nonzero)
        have next : slotAddress front.length + 8 = slotAddress (front.length + 1) := by
          unfold slotAddress
          omega
        rw [length_append, length_singleton] at step
        simp only
        rw [next]
        revert step
        cases existingLoop limit new (slotAddress (front.length + 1)) (out + accounted)
            (Function.update otp (slotAddress front.length) written) with
        | error after => exact id
        | ok result =>
          obtain ⟨after, address, count⟩ := result
          rintro ⟨visited, seen, left, split, walked, layout, address_eq, cut⟩
          refine ⟨slot :: visited, ⟨written, slot.value⟩ :: seen, left, ?_, ?_, ?_, ?_, cut⟩
          · rw [split]
            rfl
          · rw [walk, round]
            simp only [drop_drop]
            rw [walked]
          · rw [append_assoc] at layout
            exact layout
          · rw [address_eq, length_cons, Nat.add_assoc, Nat.add_comm 1]
    · rw [existingLoop, if_neg inside]
      exact ⟨[], [], slot :: rest, rfl, rfl, chain, rfl, fun _ => by omega⟩

/-- A pair written into the blank words behind a chain makes it longer. -/
theorem Chain.append {otp : Otp} {slots : List Pair} (chain : Chain otp slots) (pair : Pair)
    (used : pair.register ≠ 0) :
    Chain (Function.update (Function.update otp (slotAddress slots.length) pair.register)
      (slotAddress slots.length + 4) pair.value) (slots ++ [pair]) := by
  have other : ∀ index, index ≠ slots.length →
      (slots ++ [pair]).getD index blankPair = slots.getD index blankPair := by
    intro index apart
    by_cases before : index < slots.length
    · rw [getD_append _ _ _ _ before]
    · rw [getD_eq_default _ _ (by rw [length_append, length_singleton]; omega),
        getD_eq_default _ _ (by omega)]
  have place : (slots ++ [pair]).getD slots.length blankPair = pair := by
    rw [getD_append_right _ _ _ _ (Nat.le_refl _), Nat.sub_self, getD_cons_zero]
  refine ⟨fun index => ?_, fun index => ?_, fun later member => ?_⟩
  · rw [Function.update_of_ne (by unfold slotAddress; omega)]
    by_cases same : index = slots.length
    · rw [same, Function.update_self, place]
    · rw [Function.update_of_ne (by unfold slotAddress; omega), other _ same, chain.register]
  · by_cases same : index = slots.length
    · rw [same, Function.update_self, place]
    · rw [Function.update_of_ne (by unfold slotAddress; omega),
        Function.update_of_ne (by unfold slotAddress; omega), other _ same, chain.value]
  · rcases mem_append.mp member with before | last
    · exact chain.used later before
    · rw [mem_singleton.mp last]
      exact used

theorem writeVerified_blank (otp : Otp) (address place : Nat) (value : UInt32) (out : Int)
    (blank : otp place = 0) :
    writeVerified otp address place value out = .ok (Function.update otp place value, out) := by
  have written : (0 : UInt32) ||| value = value := UInt32.zero_or
  simp only [writeVerified, writeIt_eq, readIt, Function.update_self, blank, written]
  rw [if_neg (not_not.mpr rfl)]

theorem appendLoop_spec (limit : Int) (new : List Pair) (stray : Int → Pair)
    (registers : ∀ pair ∈ new, pair.register ≠ 0) : ∀ (left slots : List Pair) (out : Nat)
    (otp : Otp), new.drop out = left → Chain otp slots →
    match appendLoop limit new stray (slotAddress slots.length) out otp with
    | .error after => ∃ slots, Chain after slots
    | .ok (after, address) => Chain after (slots ++ left) ∧
        address = slotAddress (slots ++ left).length := by
  intro left
  induction left with
  | nil =>
    intro slots out otp rest chain
    have done : ¬(out : Int) < new.length := by
      have bound := drop_eq_nil_iff.mp rest
      omega
    rw [appendLoop, if_neg done, append_nil]
    exact ⟨chain, rfl⟩
  | cons pair more ih =>
    intro slots out otp rest chain
    have bound : out < new.length := by
      by_contra beyond
      rw [drop_eq_nil_of_le (by omega)] at rest
      cases rest
    have found : newPairAt new stray out = pair := by
      have head : new[out]? = some pair := by
        rw [← head?_drop, rest]
        rfl
      rw [newPairAt, if_neg (by omega), Int.toNat_natCast, getD_eq_getElem?_getD, head]
      rfl
    have used : pair.register ≠ 0 :=
      registers pair (mem_of_mem_drop (i := out) (by rw [rest]; exact mem_cons_self))
    have next : new.drop (out + 1) = more := by
      rw [← drop_drop, rest]
      rfl
    rw [appendLoop, if_pos (by omega)]
    by_cases full : limit < (slotAddress slots.length : Int)
    · rw [if_pos full]
      exact ⟨slots, chain⟩
    · have value : Function.update otp (slotAddress slots.length) pair.register
          (slotAddress slots.length + 4) = 0 := by
        rw [Function.update_of_ne (by omega)]
        exact chain.end_value
      rw [if_neg full, found, writeVerified_blank _ _ _ _ _ chain.end_register]
      simp only [found]
      rw [writeVerified_blank _ _ _ _ _ value]
      simp only
      have step := ih (slots ++ [pair]) (out + 1) _ next (chain.append pair used)
      have address : slotAddress slots.length + 8 = slotAddress (slots ++ [pair]).length := by
        rw [length_append, length_singleton]
        unfold slotAddress
        omega
      rw [append_assoc] at step
      rw [address]
      exact step

variable {otp : Otp}

theorem Chain.writeIt_zero {slots : List Pair} (chain : Chain otp slots) (value : UInt32) :
    Chain (writeIt otp 0 value) slots := by
  refine ⟨fun index => ?_, fun index => ?_, chain.used⟩
  · rw [writeIt_eq, Function.update_of_ne (by unfold slotAddress pcieOtpBase; omega)]
    exact chain.register index
  · rw [writeIt_eq, Function.update_of_ne (by unfold slotAddress pcieOtpBase; omega)]
    exact chain.value index

theorem enableRead_chain (otp : Otp) (slots : List Pair) (chain : Chain otp slots) :
    match enableRead otp with
    | .error after => Chain after slots
    | .ok after => Chain after slots := by
  have written := chain.writeIt_zero readitBit
  simp only [enableRead]
  by_cases unset : readIt otp 0 &&& readitBit = 0
  · rw [if_pos unset]
    by_cases failed : readitBit ≠ readIt (writeIt otp 0 readitBit) 0 &&& readitBit
    · rw [if_pos failed]
      exact written
    · rw [if_neg failed]
      exact written
  · rw [if_neg unset]
    exact chain

theorem rejected_negative (otp : Otp) : ¬0 ≤ (rejected otp).1 := by
  simp [rejected]

/-- Every commit leaves a chain, and one that succeeds leaves the pairs of the
walk with the rest of the new ones behind them. -/
theorem configSpaceCommitOtp_spec (used : Int) (stray : Int → Pair) (table : PcieTable)
    (otp : Otp) (slots : List Pair) (chain : Chain otp slots)
    (registers : ∀ pair ∈ newPairs table, pair.register ≠ 0) :
    (∃ after, Chain (configSpaceCommitOtp used stray table otp).2 after) ∧
      (0 ≤ (configSpaceCommitOtp used stray table otp).1 → ∃ seen left,
        walk slots (newPairs table) = some (seen, left) ∧
        Chain (configSpaceCommitOtp used stray table otp).2 (seen ++ left)) := by
  have existing := existingLoop_spec (used - 8 - 4) (newPairs table) slots [] 0 otp chain
  rw [length_nil, show slotAddress 0 = pcieOtpBase from rfl] at existing
  rw [configSpaceCommitOtp]
  cases walked : existingLoop (used - 8 - 4) (newPairs table) pcieOtpBase 0 otp with
  | error after =>
    rw [walked] at existing
    exact ⟨existing, fun success => absurd success (rejected_negative _)⟩
  | ok result =>
    obtain ⟨otp, address, out⟩ := result
    rw [walked] at existing
    obtain ⟨visited, seen, left, split, rounds, layout, address_eq, cut⟩ := existing
    simp only [nil_append, Nat.zero_add] at layout address_eq
    simp only
    by_cases whole : left = []
    · rw [whole, append_nil] at layout split
      have appended := appendLoop_spec (used - 8 - 4) (newPairs table) stray registers
        ((newPairs table).drop out) seen out otp rfl layout
      rw [address_eq]
      cases added : appendLoop (used - 8 - 4) (newPairs table) stray (slotAddress seen.length)
          out otp with
      | error after =>
        rw [added] at appended
        exact ⟨appended, fun success => absurd success (rejected_negative _)⟩
      | ok result =>
        obtain ⟨otp, address⟩ := result
        rw [added] at appended
        obtain ⟨longer, -⟩ := appended
        simp only
        by_cases check : readIt otp address ≠ 0
        · rw [if_pos check]
          exact ⟨⟨_, longer⟩, fun success => absurd success (rejected_negative _)⟩
        · have enabled := enableRead_chain otp _ longer
          rw [if_neg check]
          cases final : enableRead otp with
          | error after =>
            rw [final] at enabled
            exact ⟨⟨_, enabled⟩, fun success => absurd success (rejected_negative _)⟩
          | ok after =>
            rw [final] at enabled
            refine ⟨⟨_, enabled⟩, fun _ => ⟨seen, _, ?_, enabled⟩⟩
            rw [split]
            exact rounds
    · -- the chain passes the limit: the word at the end is in use, so nothing succeeds
      obtain ⟨slot, more, rfl⟩ := exists_cons_of_ne_nil whole
      have beyond := cut whole
      have inUse : otp address ≠ 0 := by
        rw [address_eq, layout.head_register]
        exact layout.used slot (mem_append_right _ mem_cons_self)
      by_cases more : (out : Int) < (newPairs table).length
      · rw [appendLoop, if_pos more, if_pos beyond]
        exact ⟨⟨_, layout⟩, fun success => absurd success (rejected_negative _)⟩
      · rw [appendLoop, if_neg more]
        simp only
        rw [if_pos (show readIt otp address ≠ 0 from inUse)]
        exact ⟨⟨_, layout⟩, fun success => absurd success (rejected_negative _)⟩

/-! ## Live pairs after the walk -/

/-- An existing pair that the repair of its value spoils: the value is a proper
part of the new one, the register is not, and the new value leaves the low bits
of the register alone. -/
def SpoiltByRepair (slot pair : Pair) : Prop :=
  slot.register = pair.register ∧ slot.value ≠ pair.value ∧
    slot.value &&& ~~~pair.value = 0 ∧ slot.register ||| pair.value ≠ pair.value ∧
    pair.value &&& 3 = 0

instance (slot pair : Pair) : Decidable (SpoiltByRepair slot pair) :=
  inferInstanceAs (Decidable (_ ∧ _))

def NoneSpoilt : List Pair → List Pair → Prop
  | [], _ => True
  | _ :: _, [] => True
  | slot :: rest, pair :: more =>
    if slot.Withdrawn then NoneSpoilt rest (pair :: more)
    else if slot = pair then NoneSpoilt rest more
    else ¬SpoiltByRepair slot pair ∧ NoneSpoilt rest (pair :: more)

/-- The new pairs lie in the first `room` slots: those that exist stay where
they are, the others follow behind all slots. -/
def WithinSlots : Nat → List Pair → List Pair → Prop
  | room, [], new => new.length ≤ room
  | _, _ :: _, [] => True
  | room, slot :: rest, pair :: more =>
    if slot = pair ∧ ¬slot.Withdrawn then 0 < room ∧ WithinSlots (room - 1) rest more
    else WithinSlots (room - 1) rest (pair :: more)

theorem noneSpoilt_nil (slots : List Pair) : NoneSpoilt slots [] := by
  cases slots with
  | nil => trivial
  | cons slot rest => trivial

theorem withinSlots_nil (room : Nat) (slots : List Pair) : WithinSlots room slots [] := by
  cases slots with
  | nil => exact Nat.zero_le room
  | cons slot rest => trivial

/-- How a round can end: the pair is out of use, it is the next new pair and is
kept, or it is spoilt. -/
inductive RoundOutcome (slot : Pair) : List Pair → UInt32 → Nat → Prop where
  | outOfUse (new : List Pair) (register : UInt32) (bits : register &&& 3 ≠ 0)
      (compared : ∀ pair more, new = pair :: more → ¬slot.Withdrawn →
        slot ≠ pair ∧ ¬SpoiltByRepair slot pair) :
      RoundOutcome slot new register 0
  | kept (more : List Pair) (live : ¬slot.Withdrawn) :
      RoundOutcome slot (slot :: more) slot.register 1
  | spoilt (pair : Pair) (more : List Pair) (register : UInt32) (bits : register &&& 3 = 0)
      (live : ¬slot.Withdrawn) (spoils : SpoiltByRepair slot pair) :
      RoundOutcome slot (pair :: more) register 0

theorem invalidated_bits (register : UInt32) : (register ||| invalidate) &&& 3 ≠ 0 := by
  intro zero
  exact invalidate_and_three ((or_and_three _ _).mp zero).2

theorem slotRound_outcome (slot : Pair) (new : List Pair) (register : UInt32) (accounted : Nat)
    (round : slotRound slot new = .ok (register, accounted)) :
    RoundOutcome slot new register accounted := by
  revert round
  fun_cases slotRound slot new with
  | case1 new withdrawn =>
    intro round
    obtain ⟨rfl, rfl⟩ := Prod.mk.inj (Except.ok.inj round)
    exact .outOfUse new _ withdrawn fun _ _ _ live => absurd withdrawn live
  | case2 =>
    intro round
    cases round
  | case3 live =>
    intro round
    obtain ⟨rfl, rfl⟩ := Prod.mk.inj (Except.ok.inj round)
    exact .outOfUse [] _ (invalidated_bits _) fun _ _ same => by cases same
  | case4 live pair more sameRegister sameValue =>
    intro round
    obtain ⟨rfl, rfl⟩ := Prod.mk.inj (Except.ok.inj round)
    obtain rfl : slot = pair := by
      cases slot
      cases pair
      simp only at sameRegister sameValue
      rw [sameRegister, sameValue]
    exact .kept more live
  | case5 live pair more sameRegister otherValue fixable check =>
    intro round
    obtain ⟨rfl, rfl⟩ := Prod.mk.inj (Except.ok.inj round)
    refine .outOfUse _ _ (invalidated_bits _) fun other tail same _ => ?_
    obtain ⟨rfl, rfl⟩ := List.cons.inj same
    exact ⟨fun equal => otherValue (by rw [equal]), fun spoils => spoils.2.2.2.1 check⟩
  | case6 live pair more sameRegister otherValue fixable check =>
    intro round
    obtain ⟨rfl, rfl⟩ := Prod.mk.inj (Except.ok.inj round)
    by_cases low : pair.value &&& 3 = 0
    · have bits : (slot.register ||| pair.value) &&& 3 = 0 :=
        (or_and_three _ _).mpr ⟨not_not.mp live, low⟩
      exact .spoilt pair more _ bits live ⟨sameRegister, otherValue, fixable, check, low⟩
    · refine .outOfUse _ _ (fun zero => low ((or_and_three _ _).mp zero).2)
        fun other tail same _ => ?_
      obtain ⟨rfl, rfl⟩ := List.cons.inj same
      exact ⟨fun equal => otherValue (by rw [equal]), fun spoils => low spoils.2.2.2.2⟩
  | case7 live pair more sameRegister otherValue unfixable =>
    intro round
    obtain ⟨rfl, rfl⟩ := Prod.mk.inj (Except.ok.inj round)
    refine .outOfUse _ _ (invalidated_bits _) fun other tail same _ => ?_
    obtain ⟨rfl, rfl⟩ := List.cons.inj same
    exact ⟨fun equal => otherValue (by rw [equal]), fun spoils => unfixable spoils.2.2.1⟩
  | case8 live pair more otherRegister =>
    intro round
    obtain ⟨rfl, rfl⟩ := Prod.mk.inj (Except.ok.inj round)
    refine .outOfUse _ _ (invalidated_bits _) fun other tail same _ => ?_
    obtain ⟨rfl, rfl⟩ := List.cons.inj same
    exact ⟨fun equal => otherRegister (by rw [equal]), fun spoils => otherRegister spoils.1⟩

theorem livePairs_cons_withdrawn (pair : Pair) (rest : List Pair) (withdrawn : pair.Withdrawn) :
    livePairs (pair :: rest) = livePairs rest := by
  simp [livePairs, withdrawn]

theorem livePairs_cons_live (pair : Pair) (rest : List Pair) (live : ¬pair.Withdrawn) :
    livePairs (pair :: rest) = pair :: livePairs rest := by
  simp [livePairs, live]

theorem walk_cons (slot : Pair) (rest new seen left : List Pair)
    (walked : walk (slot :: rest) new = some (seen, left)) :
    ∃ register accounted tail, RoundOutcome slot new register accounted ∧
      walk rest (new.drop accounted) = some (tail, left) ∧
      seen = ⟨register, slot.value⟩ :: tail := by
  rw [walk] at walked
  cases round : slotRound slot new with
  | error register => simp [round] at walked
  | ok result =>
    obtain ⟨register, accounted⟩ := result
    simp only [round] at walked
    cases step : walk rest (new.drop accounted) with
    | none => simp [step] at walked
    | some pairs =>
      obtain ⟨tail, more⟩ := pairs
      simp only [step, some.injEq, Prod.mk.injEq] at walked
      obtain ⟨rfl, rfl⟩ := walked
      exact ⟨register, accounted, tail, slotRound_outcome _ _ _ _ round, step, rfl⟩

theorem noneSpoilt_outOfUse (slot : Pair) (rest new : List Pair)
    (compared : ∀ pair more, new = pair :: more → ¬slot.Withdrawn →
      slot ≠ pair ∧ ¬SpoiltByRepair slot pair) :
    NoneSpoilt (slot :: rest) new ↔ NoneSpoilt rest new := by
  cases new with
  | nil => exact ⟨fun _ => noneSpoilt_nil rest, fun _ => trivial⟩
  | cons pair more =>
    rw [NoneSpoilt]
    by_cases withdrawn : slot.Withdrawn
    · rw [if_pos withdrawn]
    · obtain ⟨other, sound⟩ := compared pair more rfl withdrawn
      rw [if_neg withdrawn, if_neg other]
      exact ⟨fun both => both.2, fun tail => ⟨sound, tail⟩⟩

theorem noneSpoilt_kept (slot : Pair) (rest more : List Pair) (live : ¬slot.Withdrawn) :
    NoneSpoilt (slot :: rest) (slot :: more) ↔ NoneSpoilt rest more := by
  rw [NoneSpoilt, if_neg live, if_pos rfl]

theorem not_noneSpoilt (slot pair : Pair) (rest more : List Pair) (live : ¬slot.Withdrawn)
    (spoils : SpoiltByRepair slot pair) : ¬NoneSpoilt (slot :: rest) (pair :: more) := by
  have other : slot ≠ pair := fun same => spoils.2.1 (by rw [same])
  rw [NoneSpoilt, if_neg live, if_neg other]
  exact fun both => both.1 spoils

theorem walk_live : ∀ (slots new seen left : List Pair), walk slots new = some (seen, left) →
    (NoneSpoilt slots new → livePairs seen ++ left = new) ∧
      (¬NoneSpoilt slots new → new.length < (livePairs seen).length + left.length) := by
  intro slots
  induction slots with
  | nil =>
    intro new seen left walked
    obtain ⟨rfl, rfl⟩ := Prod.mk.inj (some.inj walked)
    exact ⟨fun _ => rfl, fun spoilt => absurd trivial spoilt⟩
  | cons slot rest ih =>
    intro new seen left walked
    obtain ⟨register, accounted, tail, outcome, step, rfl⟩ := walk_cons _ _ _ _ _ walked
    cases outcome with
    | outOfUse new register bits compared =>
      rw [noneSpoilt_outOfUse slot rest new compared,
        livePairs_cons_withdrawn ⟨register, slot.value⟩ tail bits]
      exact ih _ _ _ step
    | kept more live =>
      obtain ⟨exact, excess⟩ := ih _ _ _ step
      have same : (⟨slot.register, slot.value⟩ : Pair) = slot := rfl
      rw [noneSpoilt_kept slot rest more live, same, livePairs_cons_live slot tail live]
      constructor
      · intro sound
        rw [cons_append, exact sound]
        rfl
      · intro spoilt
        have more := excess spoilt
        simp only [drop_one, tail_cons, length_cons] at more ⊢
        omega
    | spoilt pair more register bits live spoils =>
      obtain ⟨exact, excess⟩ := ih _ _ _ step
      have unsound := not_noneSpoilt slot pair rest more live spoils
      refine ⟨fun sound => absurd sound unsound, fun _ => ?_⟩
      rw [livePairs_cons_live ⟨register, slot.value⟩ tail (not_not.mpr bits)]
      by_cases sound : NoneSpoilt rest (pair :: more)
      · have all := congrArg List.length (exact sound)
        simp only [drop_zero, length_append, length_cons] at all ⊢
        omega
      · have more := excess sound
        simp only [drop_zero, length_cons] at more ⊢
        omega

theorem mem_of_mem_walk_left : ∀ (slots new seen left : List Pair),
    walk slots new = some (seen, left) → ∀ pair ∈ left, pair ∈ new := by
  intro slots
  induction slots with
  | nil =>
    intro new seen left walked pair member
    obtain ⟨rfl, rfl⟩ := Prod.mk.inj (some.inj walked)
    exact member
  | cons slot rest ih =>
    intro new seen left walked pair member
    obtain ⟨register, accounted, tail, -, step, -⟩ := walk_cons _ _ _ _ _ walked
    exact mem_of_mem_drop (ih _ _ _ step pair member)

theorem livePairs_eq_self (pairs : List Pair) (live : ∀ pair ∈ pairs, ¬pair.Withdrawn) :
    livePairs pairs = pairs := by
  rw [livePairs, filter_eq_self]
  intro pair member
  simpa using live pair member

theorem walk_within : ∀ (slots new seen left : List Pair) (room : Nat),
    (∀ pair ∈ new, ¬pair.Withdrawn) → walk slots new = some (seen, left) →
    NoneSpoilt slots new →
      (WithinSlots room slots new ↔ livePairs ((seen ++ left).drop room) = []) := by
  intro slots
  induction slots with
  | nil =>
    intro new seen left room live walked sound
    obtain ⟨rfl, rfl⟩ := Prod.mk.inj (some.inj walked)
    rw [nil_append, livePairs_eq_self _ fun pair member =>
      live pair (mem_of_mem_drop member), drop_eq_nil_iff, WithinSlots]
  | cons slot rest ih =>
    intro new seen left room live walked sound
    obtain ⟨register, accounted, tail, outcome, step, rfl⟩ := walk_cons _ _ _ _ _ walked
    cases outcome with
    | outOfUse new register bits compared =>
      rw [noneSpoilt_outOfUse slot rest new compared] at sound
      have within : WithinSlots room (slot :: rest) new ↔ WithinSlots (room - 1) rest new := by
        cases new with
        | nil => exact ⟨fun _ => withinSlots_nil _ _, fun _ => trivial⟩
        | cons pair more =>
          rw [WithinSlots, if_neg]
          rintro ⟨same, used⟩
          exact (compared pair more rfl used).1 same
      rw [within, ih _ _ _ (room - 1) live step sound, cons_append]
      cases room with
      | zero => rw [drop_zero, drop_zero, livePairs_cons_withdrawn ⟨register, slot.value⟩ _ bits]
      | succ room => rw [Nat.add_sub_cancel, drop_succ_cons]
    | kept more used =>
      rw [noneSpoilt_kept slot rest more used] at sound
      have tailLive : ∀ pair ∈ more, ¬pair.Withdrawn := fun pair member =>
        live pair (mem_cons_of_mem _ member)
      have same : (⟨slot.register, slot.value⟩ : Pair) = slot := rfl
      rw [WithinSlots, if_pos ⟨rfl, used⟩, ih _ _ _ (room - 1) tailLive step sound,
        cons_append, same]
      cases room with
      | zero =>
        rw [drop_zero, drop_zero, livePairs_cons_live slot _ used]
        exact ⟨fun both => absurd both.1 (Nat.lt_irrefl 0), fun empty => by cases empty⟩
      | succ room =>
        rw [Nat.add_sub_cancel, drop_succ_cons]
        exact ⟨fun both => both.2, fun empty => ⟨Nat.succ_pos room, empty⟩⟩
    | spoilt pair more register bits used spoils =>
      exact absurd sound (not_noneSpoilt slot pair rest more used spoils)

/-! ## The reader on a chain -/

theorem mask16_bit : ∀ index (bound : index < 16), (65535#16)[index] = true := by decide

theorem mask32_bit : ∀ index < 16, (65535#32).getLsbD index = true := by decide

def Pair.toConfig (pair : Pair) : PcieConfig := configOfWords pair.register pair.value

theorem toConfig_toPair (entry : PcieConfig) : entry.toPair.toConfig = entry := by
  have address : (entry.address.toUInt32 &&& 0xffff).toUInt16 = entry.address := by
    apply UInt16.toBitVec_inj.mp
    ext index bound
    simp
    exact fun _ => mask16_bit index bound
  have low : (entry.toPair.value &&& 0xffff).toUInt16 = entry.dataLow := by
    apply UInt16.toBitVec_inj.mp
    ext index bound
    simp [PcieConfig.toPair]
    exact fun _ => mask16_bit index bound
  have high : ((entry.toPair.value >>> 16) &&& 0xffff).toUInt16 = entry.dataHigh := by
    apply UInt16.toBitVec_inj.mp
    ext index bound
    have upper : 16 + index < 32 := by omega
    have notLower : ¬16 + index < 16 := by omega
    have inside : index < 32 := by omega
    simp [PcieConfig.toPair, mask16_bit index bound, mask32_bit index bound,
      BitVec.getLsbD_eq_getElem bound, upper, notLower, inside]
  exact congr (congrArg₂ PcieConfig.mk address low) high

theorem newPairs_toConfig (table : PcieTable) :
    (newPairs table).map Pair.toConfig = table.entries := by
  rw [newPairs, List.map_map]
  exact (map_congr_left fun entry _ => toConfig_toPair entry).trans (map_id _)

theorem initOtpLoop_chain (otp : Otp) : ∀ (room : Nat) (rest front : List Pair)
    (table : PcieTable), Chain otp (front ++ rest) →
    table.num + room < maxPcieAddressValueData →
      initOtpLoop otp room (slotAddress front.length) table =
        (valueOk, table.pushAll ((livePairs (rest.take room)).map Pair.toConfig)) := by
  intro room
  induction room with
  | zero =>
    intro rest front table chain fits
    rfl
  | succ room ih =>
    intro rest front table chain fits
    cases rest with
    | nil =>
      have blank := chain.end_register
      rw [append_nil] at blank
      rw [initOtpLoop, readIt, blank]
      rfl
    | cons slot rest =>
      have next : slotAddress front.length + 8 = slotAddress (front ++ [slot]).length := by
        rw [length_append, length_singleton]
        unfold slotAddress
        omega
      have layout : Chain otp ((front ++ [slot]) ++ rest) := by
        rw [append_assoc]
        exact chain
      have used := chain.used slot (mem_append_right _ mem_cons_self)
      rw [initOtpLoop]
      simp only [readIt, chain.head_register, chain.head_value]
      rw [if_neg used, take_succ_cons, next]
      by_cases live : slot.register &&& 3 = 0
      · have notFull : ¬table.num + 1 = maxPcieAddressValueData := by omega
        rw [if_pos live, PcieTable.push_num, if_neg notFull,
          livePairs_cons_live slot _ (not_not.mpr live), map_cons,
          ih rest _ _ layout (by rw [PcieTable.push_num]; omega)]
        rfl
      · rw [if_neg live, livePairs_cons_withdrawn slot _ live]
        exact ih rest _ _ layout (by omega)

theorem initOtp_chain (otp : Otp) (slots : List Pair) (chain : Chain otp slots)
    (start : PcieTable) :
    initOtp otp start = (valueOk, start.cleared.pushAll
      ((livePairs (slots.take visibleSlots)).map Pair.toConfig)) :=
  initOtpLoop_chain otp visibleSlots slots [] start.cleared chain (by
    change 0 + visibleSlots < maxPcieAddressValueData
    decide)

/-! ## Commits and the reader -/

def RegistersAligned (table : PcieTable) : Prop :=
  ∀ index < table.num, (table.data index).address ≠ 0 ∧ (table.data index).address &&& 3 = 0

/-- The contents a blank OTP can have after any number of commits. -/
inductive Reachable : Otp → Prop where
  | blank : Reachable blankOtp
  | commit (otp : Otp) (used : Int) (stray : Int → Pair) (table : PcieTable)
      (reachable : Reachable otp) (registers : RegistersAligned table) :
      Reachable (configSpaceCommitOtp used stray table otp).2

/-- The reader rebuilds the table from the OTP, and all other pairs in the OTP
are withdrawn. -/
structure RebuiltFrom (otp : Otp) (table start : PcieTable) : Prop where
  rebuilt : ∃ result, initOtp otp start = (valueOk, result) ∧ result.entries = table.entries
  others : ∃ slots, Chain otp slots ∧ livePairs slots = newPairs table

theorem newPairs_aligned (table : PcieTable) (registers : RegistersAligned table) :
    ∀ pair ∈ newPairs table, pair.register ≠ 0 ∧ ¬pair.Withdrawn := by
  intro pair member
  obtain ⟨entry, entryMember, rfl⟩ := mem_map.mp member
  obtain ⟨index, range, rfl⟩ := mem_map.mp entryMember
  obtain ⟨nonzero, aligned⟩ := registers index (mem_range.mp range)
  refine ⟨fun zero => nonzero ?_, fun withdrawn => withdrawn ?_⟩
  · apply UInt16.toNat_inj.mp
    have same := congrArg UInt32.toNat zero
    exact same
  · have wide : (table.data index).address.toUInt32 &&& 3 =
        ((table.data index).address &&& 3).toUInt32 := by
      rw [UInt16.toUInt32_and]
      rfl
    exact wide.trans (by rw [aligned]; rfl)

theorem chain_blankOtp : Chain blankOtp [] :=
  ⟨fun _ => rfl, fun _ => rfl, fun _ member => by cases member⟩

theorem Reachable.chain (reachable : Reachable otp) : ∃ slots, Chain otp slots := by
  induction reachable with
  | blank => exact ⟨[], chain_blankOtp⟩
  | commit otp used stray table reachable registers ih =>
    obtain ⟨slots, chain⟩ := ih
    exact (configSpaceCommitOtp_spec used stray table otp slots chain fun pair member =>
      (newPairs_aligned table registers pair member).1).1

theorem Chain.unique : ∀ {first second : List Pair}, Chain otp first →
    Chain otp second → first = second := by
  intro first second left right
  have shorter : ∀ {a b : List Pair}, Chain otp a → Chain otp b → ¬a.length < b.length := by
    intro a b chainA chainB less
    have zero := chainA.end_register
    rw [chainB.register, getD_eq_getElem _ _ less] at zero
    exact chainB.used _ (getElem_mem less) zero
  have lengths : first.length = second.length := by
    have one := shorter left right
    have other := shorter right left
    omega
  refine ext_getElem lengths fun index low high => ?_
  have register := (left.register index).symm.trans (right.register index)
  have value := (left.value index).symm.trans (right.value index)
  rw [getD_eq_getElem _ _ low, getD_eq_getElem _ _ high] at register value
  cases equal : first[index] with
  | mk r v =>
    cases equal' : second[index] with
    | mk r' v' =>
      rw [equal, equal'] at register value
      simp only at register value
      rw [register, value]

theorem livePairs_take_drop (slots : List Pair) (room : Nat) :
    livePairs (slots.take room) ++ livePairs (slots.drop room) = livePairs slots := by
  rw [livePairs, livePairs, ← filter_append, take_append_drop]
  rfl

/-- After a commit that succeeds, the reader rebuilds exactly the committed
table, with all other pairs withdrawn, if and only if no existing pair was
spoilt by the repair of its value and the committed pairs lie in the slots that
the reader looks at. -/
theorem initOtp_after_commit_iff (otp : Otp) (reachable : Reachable otp) (used : Int)
    (stray : Int → Pair) (table start : PcieTable) (registers : RegistersAligned table)
    (success : 0 ≤ (configSpaceCommitOtp used stray table otp).1) :
    ∃ slots, Chain otp slots ∧
      (RebuiltFrom (configSpaceCommitOtp used stray table otp).2 table start ↔
        NoneSpoilt slots (newPairs table) ∧ WithinSlots visibleSlots slots (newPairs table)) := by
  obtain ⟨slots, chain⟩ := reachable.chain
  have aligned := newPairs_aligned table registers
  obtain ⟨-, spec⟩ := configSpaceCommitOtp_spec used stray table otp slots chain
    fun pair member => (aligned pair member).1
  obtain ⟨seen, left, walked, after⟩ := spec success
  obtain ⟨exact, excess⟩ := walk_live slots _ seen left walked
  have read := initOtp_chain _ _ after start
  have leftLive : livePairs left = left := livePairs_eq_self left fun pair member =>
    (aligned pair (mem_of_mem_walk_left _ _ _ _ walked pair member)).2
  have allLive : livePairs (seen ++ left) = livePairs seen ++ left := by
    rw [livePairs, filter_append]
    exact congrArg (livePairs seen ++ ·) leftLive
  have live : NoneSpoilt slots (newPairs table) → livePairs (seen ++ left) = newPairs table :=
    fun sound => allLive.trans (exact sound)
  have parts := livePairs_take_drop (seen ++ left) visibleSlots
  refine ⟨slots, chain, ?_, ?_⟩
  · rintro ⟨⟨result, rebuilt, entries⟩, slots', chain', others⟩
    obtain rfl := chain'.unique after
    have sound : NoneSpoilt slots (newPairs table) := by
      by_contra spoilt
      have longer := excess spoilt
      have total := congrArg List.length (allLive.symm.trans others)
      rw [length_append] at total
      omega
    refine ⟨sound, ?_⟩
    rw [walk_within slots _ seen left visibleSlots (fun pair member => (aligned pair member).2)
      walked sound]
    have seenEntries : ((livePairs ((seen ++ left).take visibleSlots)).map Pair.toConfig) =
        table.entries := by
      rw [← entries, ← PcieTable.entries_pushAll_cleared start ((livePairs ((seen ++ left).take
        visibleSlots)).map Pair.toConfig), (Prod.mk.inj (read.symm.trans rebuilt)).2]
    have lengths := congrArg List.length seenEntries
    have total := congrArg List.length parts
    rw [live sound] at total
    rw [← newPairs_toConfig, length_map, length_map] at lengths
    rw [length_append, lengths] at total
    exact eq_nil_of_length_eq_zero (by omega)
  · rintro ⟨sound, within⟩
    rw [walk_within slots _ seen left visibleSlots (fun pair member => (aligned pair member).2)
      walked sound] at within
    rw [within, append_nil, live sound] at parts
    refine ⟨⟨_, read, ?_⟩, _, after, live sound⟩
    rw [PcieTable.entries_pushAll_cleared, parts, newPairs_toConfig]

def noStray : Int → Pair := fun _ => blankPair

def oneRegister (value : UInt16) : PcieTable := emptyTable.push ⟨0x5008, value, 0⟩

theorem oneRegister_aligned (value : UInt16) : RegistersAligned (oneRegister value) := by
  intro index below
  obtain rfl : index = 0 := Nat.lt_one_iff.mp below
  exact ⟨by change (0x5008 : UInt16) ≠ 0; decide, by change (0x5008 : UInt16) &&& 3 = 0; decide⟩

def firstCommit : Int × Otp := configSpaceCommitOtp 0x3ff noStray (oneRegister 0x10) blankOtp

def secondCommit : Int × Otp :=
  configSpaceCommitOtp 0x3ff noStray (oneRegister 0x30) firstCommit.2

def twoRegisters (address : UInt16) : PcieTable := (oneRegister 0x10).push ⟨address, 1, 0⟩

theorem twoRegisters_aligned {address : UInt16} (nonzero : address ≠ 0)
    (aligned : address &&& 3 = 0) : RegistersAligned (twoRegisters address) := by
  intro index below
  have few : index < 2 := below
  obtain rfl | rfl : index = 0 ∨ index = 1 := by omega
  · exact oneRegister_aligned 0x10 0 Nat.zero_lt_one
  · exact ⟨nonzero, aligned⟩

/-- A commit keeps the first of two pairs, withdraws the second and adds another one. -/
theorem replacedPair_rebuilt :
    RebuiltFrom (configSpaceCommitOtp 0x3ff noStray (twoRegisters 0x5010)
        (configSpaceCommitOtp 0x3ff noStray (twoRegisters 0x500c) blankOtp).2).2
      (twoRegisters 0x5010) emptyTable := by
  have before := @twoRegisters_aligned 0x500c (by decide) (by decide)
  have now := @twoRegisters_aligned 0x5010 (by decide) (by decide)
  -- the pairs of the first commit are the slots that the second one finds
  obtain ⟨seen, left, walked, after⟩ := (configSpaceCommitOtp_spec 0x3ff noStray
    (twoRegisters 0x500c) blankOtp [] chain_blankOtp fun pair member =>
      (newPairs_aligned _ before pair member).1).2 (by decide +kernel)
  obtain ⟨rfl, rfl⟩ := Prod.mk.inj (Option.some.inj walked)
  obtain ⟨slots, chain, rebuilt⟩ := initOtp_after_commit_iff _
    (.commit _ 0x3ff noStray _ .blank before) 0x3ff noStray (twoRegisters 0x5010) emptyTable now
    (by decide +kernel)
  obtain rfl := chain.unique after
  have slots : newPairs (twoRegisters 0x500c) = [⟨0x5008, 16⟩, ⟨0x500c, 1⟩] := by decide
  have pairs : newPairs (twoRegisters 0x5010) = [⟨0x5008, 16⟩, ⟨0x5010, 1⟩] := by decide
  rw [slots, pairs] at rebuilt
  refine rebuilt.mpr ⟨?_, ?_⟩
  · rw [nil_append, NoneSpoilt, if_neg (by decide), if_pos rfl, NoneSpoilt, if_neg (by decide),
      if_neg (by decide)]
    exact ⟨by decide, trivial⟩
  · rw [nil_append, WithinSlots, if_pos (by decide), WithinSlots, if_neg (by decide)]
    exact ⟨by decide, (by decide : 1 ≤ visibleSlots - 1 - 1)⟩

/-- The second commit adds bits to the value; it succeeds, and the reader finds
two pairs in place of one. -/
theorem secondCommit_not_rebuilt :
    Reachable firstCommit.2 ∧ RegistersAligned (oneRegister 0x30) ∧ 0 ≤ secondCommit.1 ∧
      ¬RebuiltFrom secondCommit.2 (oneRegister 0x30) emptyTable := by
  refine ⟨.commit _ _ _ _ .blank (oneRegister_aligned _), oneRegister_aligned _,
    by decide +kernel, ?_⟩
  rintro ⟨⟨result, read, entries⟩, -⟩
  have num : result.num = 1 := by
    have length := congrArg List.length entries
    rw [entries_length, entries_length] at length
    exact length
  have found : (initOtp secondCommit.2 emptyTable).2.num = 2 := by decide +kernel
  rw [read, num] at found
  exact absurd found (by decide)

end AthApps.Pcie
