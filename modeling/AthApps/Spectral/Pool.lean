import Mathlib.Data.Fintype.BigOperators
import AthApps.Lib.Trace

/-!
# The pools of saved messages

`spectral_samp.c` keeps the report with the highest level of every interval in
a pool for each of the two frequencies of the display, and sends the pools in
pairs.  A pool is a ring of slots for the writer; the index written last
stands in slot 0 and is `MAX_SAVED_SAMP_MSGS` before the first write, a value
for which `get_next_index` has no `return`.  What such a call yields is left
to the caller here.  A write outside the pool has no result.
-/

set_option autoImplicit false

namespace AthApps.Spectral

open AthApps.Lib Option List
open Function (update update_of_ne update_self)

def maxSavedSampMsgs : Nat := 10

def guiLowerFreq : Int := 2432

def guiUpperFreq : Int := 2472

variable {α : Type}

/-- A report: its frequency and the rest of `SPECTRAL_SAMP_MSG`. -/
structure SampMsg (α : Type) where
  freq : Int
  sampData : α
  deriving DecidableEq

structure SavedSampMessage (α : Type) where
  msgValid : Bool
  savedMsg : SampMsg α

/-- `currentIndex` is the member of slot 0; no other slot's is looked at. -/
structure SampMsgPool (α : Type) where
  freq : Int
  numValid : Int
  currentIndex : Int
  msgPool : Fin maxSavedSampMsgs → SavedSampMessage α

inductive Transmission (α : Type) where
  | saved (msg : SampMsg α)
  | dummy (freq : Int)
  deriving DecidableEq

structure SampServer (α : Type) where
  lower : SampMsgPool α
  upper : SampMsgPool α
  sent : List (Transmission α)

/-- `open_value` stands for what a call without `return` leaves behind. -/
def getNextIndex (open_value curIndex : Int) : Int :=
  if curIndex < maxSavedSampMsgs - 1 then curIndex + 1
  else if curIndex = maxSavedSampMsgs - 1 then 0
  else open_value

def initSavedMessagePool [Inhabited α] (freq : Int) : SampMsgPool α :=
  ⟨freq, 0, maxSavedSampMsgs, fun _ => ⟨false, ⟨0, default⟩⟩⟩

def initFreqMessagePools [Inhabited α] : SampServer α :=
  ⟨initSavedMessagePool guiLowerFreq, initSavedMessagePool guiUpperFreq, []⟩

namespace SampMsgPool

/-- `save_maxrssi_samp_message` on the pool of the message's frequency. -/
def save (open_value : Int) (msg : SampMsg α) (pool : SampMsgPool α) : Option (SampMsgPool α) :=
  let index := getNextIndex open_value pool.currentIndex
  if inside : 0 ≤ index ∧ index < maxSavedSampMsgs then
    some { pool with
      numValid := pool.numValid + 1
      currentIndex := index
      msgPool := update pool.msgPool
        ⟨index.toNat, (Int.toNat_lt inside.1).mpr inside.2⟩ ⟨true, msg⟩ }
  else none

def firstValid (pool : SampMsgPool α) : Option (Fin maxSavedSampMsgs) :=
  (List.finRange maxSavedSampMsgs).find? fun slot => (pool.msgPool slot).msgValid

def invalidate (pool : SampMsgPool α) (slot : Fin maxSavedSampMsgs) : SampMsgPool α :=
  { pool with
    msgPool := update pool.msgPool slot { pool.msgPool slot with msgValid := false } }

def validSlots (pool : SampMsgPool α) : Nat :=
  ∑ slot, (pool.msgPool slot).msgValid.toNat

end SampMsgPool

namespace SampServer

def canSendSavedMessages (server : SampServer α) : Bool :=
  decide (server.lower.numValid ≠ 0 ∧ server.upper.numValid ≠ 0)

/-- `send_samp_data_to_gui` counts down the pool of the message's frequency. -/
def sendSampDataToGui (transmission : Transmission α) (freq : Int) (server : SampServer α) :
    SampServer α :=
  { lower := if freq = guiLowerFreq then
      { server.lower with numValid := server.lower.numValid - 1 } else server.lower
    upper := if freq = guiUpperFreq then
      { server.upper with numValid := server.upper.numValid - 1 } else server.upper
    sent := server.sent ++ [transmission] }

def sendSavedLower (server : SampServer α) : SampServer α :=
  match server.lower.firstValid with
  | some slot =>
    let msg := (server.lower.msgPool slot).savedMsg
    let after := sendSampDataToGui (.saved msg) msg.freq server
    { after with lower := after.lower.invalidate slot }
  | none => sendSampDataToGui (.dummy server.lower.freq) server.lower.freq server

def sendSavedUpper (server : SampServer α) : SampServer α :=
  match server.upper.firstValid with
  | some slot =>
    let msg := (server.upper.msgPool slot).savedMsg
    let after := sendSampDataToGui (.saved msg) msg.freq server
    { after with upper := after.upper.invalidate slot }
  | none => sendSampDataToGui (.dummy server.upper.freq) server.upper.freq server

def saveMaxrssiSampMessage (open_value : Int) (msg : SampMsg α) (server : SampServer α) :
    Option (SampServer α) :=
  if msg.freq = guiLowerFreq then
    (server.lower.save open_value msg).map fun lower => { server with lower := lower }
  else if msg.freq = guiUpperFreq then
    (server.upper.save open_value msg).map fun upper => { server with upper := upper }
  else some server

/-- The pools after `classify_mode_server_send_samp_data_to_gui`. -/
def classifyModeSend (isClassify : Bool) (server : SampServer α) : SampServer α :=
  if isClassify && server.canSendSavedMessages then server.sendSavedLower.sendSavedUpper else server

end SampServer

inductive SampEvent (α : Type) where
  | save (open_value : Int) (msg : SampMsg α)
  | send (isClassify : Bool)

def sampStep (server : SampServer α) : SampEvent α → Option (SampServer α)
  | .save open_value msg => server.saveMaxrssiSampMessage open_value msg
  | .send isClassify => some (server.classifyModeSend isClassify)

theorem validSlots_update (pool : SampMsgPool α) (slot : Fin maxSavedSampMsgs)
    (message : SavedSampMessage α) (index count : Int) :
    (SampMsgPool.mk pool.freq count index (update pool.msgPool slot message)).validSlots +
        (pool.msgPool slot).msgValid.toNat =
      pool.validSlots + message.msgValid.toNat := by
  have others : ∑ other ∈ Finset.univ.erase slot,
        (update pool.msgPool slot message other).msgValid.toNat =
      ∑ other ∈ Finset.univ.erase slot, (pool.msgPool other).msgValid.toNat := by
    apply Finset.sum_congr rfl
    intro other member
    rw [update_of_ne (Finset.ne_of_mem_erase member)]
  have before := Finset.add_sum_erase Finset.univ
    (fun other => (pool.msgPool other).msgValid.toNat) (Finset.mem_univ slot)
  have after := Finset.add_sum_erase Finset.univ
    (fun other => (update pool.msgPool slot message other).msgValid.toNat)
    (Finset.mem_univ slot)
  simp only [update_self] at after
  unfold SampMsgPool.validSlots
  dsimp only
  omega

variable {pool : SampMsgPool α} {server : SampServer α}

variable {slot : Fin maxSavedSampMsgs}

theorem firstValid_valid (found : pool.firstValid = some slot) :
    (pool.msgPool slot).msgValid = true :=
  find?_some (p := fun slot => (pool.msgPool slot).msgValid) found

theorem firstValid_isSome (some_valid : pool.validSlots ≠ 0) :
    ∃ slot, pool.firstValid = some slot := by
  apply isSome_iff_exists.mp
  by_contra none
  apply some_valid
  rw [not_isSome_iff_eq_none] at none
  have all := find?_eq_none.mp none
  apply Finset.sum_eq_zero
  intro slot _
  have invalid := all slot (mem_finRange slot)
  simp only [Bool.not_eq_true] at invalid
  rw [invalid]
  rfl

structure SampMsgPool.Counted (pool : SampMsgPool α) (freq : Int) : Prop where
  freq_eq : pool.freq = freq
  index : 0 ≤ pool.currentIndex ∧ pool.currentIndex ≤ maxSavedSampMsgs
  own : ∀ slot, (pool.msgPool slot).msgValid = true → (pool.msgPool slot).savedMsg.freq = freq
  count : pool.numValid = pool.validSlots

theorem initSavedMessagePool_counted [Inhabited α] (freq : Int) :
    (initSavedMessagePool freq : SampMsgPool α).Counted freq := by
  refine ⟨rfl, ⟨Int.natCast_nonneg _, Int.le_refl _⟩, ?_, ?_⟩
  · intro slot valid
    exact absurd valid (by simp [initSavedMessagePool])
  · simp [initSavedMessagePool, SampMsgPool.validSlots]

/-- The first write finds a slot, and no write meets an unsent message. -/
def SampMsgPool.Free (pool : SampMsgPool α) (open_value : Int) : Prop :=
  (pool.currentIndex = maxSavedSampMsgs → 0 ≤ open_value ∧ open_value < maxSavedSampMsgs) ∧
    ∀ slot : Fin maxSavedSampMsgs, ((slot : Nat) : Int) = getNextIndex open_value pool.currentIndex →
      (pool.msgPool slot).msgValid = false

instance (pool : SampMsgPool α) (open_value : Int) : Decidable (pool.Free open_value) :=
  inferInstanceAs (Decidable (_ ∧ _))

variable {freq open_value : Int}

theorem SampMsgPool.Counted.next_inside (counted : pool.Counted freq)
    (free : pool.Free open_value) :
    0 ≤ getNextIndex open_value pool.currentIndex ∧
      getNextIndex open_value pool.currentIndex < maxSavedSampMsgs := by
  have low := counted.index.1
  have high := counted.index.2
  have first := free.1
  unfold getNextIndex
  split
  case isTrue => omega
  case isFalse =>
    split
    case isTrue => exact ⟨by decide, by decide⟩
    case isFalse => exact first (by omega)

theorem SampMsgPool.Counted.save {msg : SampMsg α} (counted : pool.Counted msg.freq)
    (free : pool.Free open_value) :
    ∃ after, pool.save open_value msg = some after ∧ after.Counted msg.freq := by
  have inside := counted.next_inside free
  have empty := free.2 ⟨_, (Int.toNat_lt inside.1).mpr inside.2⟩ (Int.toNat_of_nonneg inside.1)
  refine ⟨_, dif_pos inside, ?_⟩
  refine ⟨counted.freq_eq, ⟨inside.1, Int.le_of_lt inside.2⟩, ?_, ?_⟩
  · intro slot valid
    dsimp only at valid ⊢
    by_cases here : slot = ⟨_, (Int.toNat_lt inside.1).mpr inside.2⟩
    · subst here
      rw [update_self]
    · rw [update_of_ne here] at valid ⊢
      exact counted.own slot valid
  · have one := validSlots_update pool ⟨_, (Int.toNat_lt inside.1).mpr inside.2⟩ ⟨true, msg⟩
      (getNextIndex open_value pool.currentIndex) (pool.numValid + 1)
    rw [empty] at one
    have count := counted.count
    simp only [Bool.toNat_false, Bool.toNat_true] at one
    dsimp only
    omega

theorem SampMsgPool.Counted.invalidate (counted : pool.Counted freq)
    (valid : (pool.msgPool slot).msgValid = true) :
    (SampMsgPool.invalidate { pool with numValid := pool.numValid - 1 } slot).Counted freq := by
  refine ⟨counted.freq_eq, counted.index, ?_, ?_⟩
  · intro other still
    by_cases here : other = slot
    · subst here
      simp [SampMsgPool.invalidate] at still
    · simp only [SampMsgPool.invalidate, update_of_ne here] at still ⊢
      exact counted.own other still
  · have one := validSlots_update pool slot { pool.msgPool slot with msgValid := false }
      pool.currentIndex (pool.numValid - 1)
    have count := counted.count
    rw [valid] at one
    simp only [Bool.toNat_false, Bool.toNat_true] at one
    simp only [SampMsgPool.invalidate]
    omega

structure SampServer.Counted (server : SampServer α) : Prop where
  lower : server.lower.Counted guiLowerFreq
  upper : server.upper.Counted guiUpperFreq

theorem sendSavedLower_counted (counted : server.Counted) (some_valid : server.lower.numValid ≠ 0) :
    server.sendSavedLower.Counted ∧ server.sendSavedLower.upper = server.upper ∧
      ∃ msg, server.sendSavedLower.sent = server.sent ++ [.saved msg] := by
  have positive : server.lower.validSlots ≠ 0 := by
    intro none
    rw [counted.lower.count, none] at some_valid
    exact some_valid rfl
  obtain ⟨slot, found⟩ := firstValid_isSome positive
  have valid := firstValid_valid found
  have own := counted.lower.own slot valid
  have other : ¬ guiLowerFreq = guiUpperFreq := by decide
  have result : server.sendSavedLower =
      { lower := SampMsgPool.invalidate
          { server.lower with numValid := server.lower.numValid - 1 } slot
        upper := server.upper
        sent := server.sent ++ [.saved (server.lower.msgPool slot).savedMsg] } := by
    simp only [SampServer.sendSavedLower, found, SampServer.sendSampDataToGui, own, if_true, other,
      if_false]
  rw [result]
  exact ⟨⟨counted.lower.invalidate valid, counted.upper⟩, rfl, _, rfl⟩

theorem sendSavedUpper_counted (counted : server.Counted) (some_valid : server.upper.numValid ≠ 0) :
    server.sendSavedUpper.Counted ∧
      ∃ msg, server.sendSavedUpper.sent = server.sent ++ [.saved msg] := by
  have positive : server.upper.validSlots ≠ 0 := by
    intro none
    rw [counted.upper.count, none] at some_valid
    exact some_valid rfl
  obtain ⟨slot, found⟩ := firstValid_isSome positive
  have valid := firstValid_valid found
  have own := counted.upper.own slot valid
  have other : ¬ guiUpperFreq = guiLowerFreq := by decide
  have result : server.sendSavedUpper =
      { lower := server.lower
        upper := SampMsgPool.invalidate
          { server.upper with numValid := server.upper.numValid - 1 } slot
        sent := server.sent ++ [.saved (server.upper.msgPool slot).savedMsg] } := by
    simp only [SampServer.sendSavedUpper, found, SampServer.sendSampDataToGui, own, if_true, other,
      if_false]
  rw [result]
  exact ⟨⟨counted.lower, counted.upper.invalidate valid⟩, _, rfl⟩

theorem classifyModeSend_counted (counted : server.Counted)
    (can_send : server.canSendSavedMessages = true) :
    (server.classifyModeSend true).Counted ∧ ∃ first second, (server.classifyModeSend true).sent =
        server.sent ++ [.saved first, .saved second] := by
  obtain ⟨low, high⟩ := of_decide_eq_true can_send
  obtain ⟨afterFirst, untouched, first, firstSent⟩ := sendSavedLower_counted counted low
  rw [← untouched] at high
  obtain ⟨afterSecond, second, secondSent⟩ := sendSavedUpper_counted afterFirst high
  have result : server.classifyModeSend true = server.sendSavedLower.sendSavedUpper := by
    simp [SampServer.classifyModeSend, can_send]
  rw [result]
  refine ⟨afterSecond, first, second, ?_⟩
  rw [secondSent, firstSent, append_assoc]
  rfl

/-- No save overwrites an unsent message or starts outside the pool. -/
def SampServer.Room (server : SampServer α) : SampEvent α → Prop
  | .save open_value msg =>
    (msg.freq = guiLowerFreq → server.lower.Free open_value) ∧
      (msg.freq = guiUpperFreq → server.upper.Free open_value)
  | .send _ => True

instance (server : SampServer α) (event : SampEvent α) : Decidable (server.Room event) :=
  match event with
  | .save _ _ => inferInstanceAs (Decidable (_ ∧ _))
  | .send _ => inferInstanceAs (Decidable True)

theorem sampStep_counted {event : SampEvent α} (counted : server.Counted)
    (room : server.Room event) : ∃ after, sampStep server event = some after ∧ after.Counted := by
  cases event with
  | save open_value msg =>
    by_cases low : msg.freq = guiLowerFreq
    · have pool := counted.lower
      rw [← low] at pool
      obtain ⟨after, saved, poolAfter⟩ := pool.save (room.1 low)
      rw [low] at poolAfter
      refine ⟨{ server with lower := after }, ?_, ⟨poolAfter, counted.upper⟩⟩
      simp [sampStep, SampServer.saveMaxrssiSampMessage, low, saved]
    · by_cases high : msg.freq = guiUpperFreq
      · have pool := counted.upper
        rw [← high] at pool
        obtain ⟨after, saved, poolAfter⟩ := pool.save (room.2 high)
        rw [high] at poolAfter
        refine ⟨{ server with upper := after }, ?_, ⟨counted.lower, poolAfter⟩⟩
        rw [high] at low
        simp [sampStep, SampServer.saveMaxrssiSampMessage, low, high, saved]
      · exact ⟨server, by simp [sampStep, SampServer.saveMaxrssiSampMessage, low, high], counted⟩
  | send isClassify =>
    refine ⟨_, rfl, ?_⟩
    cases isClassify with
    | false => exact counted
    | true =>
      cases can_send : server.canSendSavedMessages with
      | true => exact (classifyModeSend_counted counted can_send).1
      | false =>
        have idle : server.classifyModeSend true = server := by
          simp [SampServer.classifyModeSend, can_send]
        rw [idle]
        exact counted

/-- The count of a pool is the number of its valid slots, and a pair that may
be sent comes from the pools. -/
structure SampServer.Sound (server : SampServer α) : Prop where
  lower : server.lower.numValid = server.lower.validSlots
  upper : server.upper.numValid = server.upper.validSlots
  pairs : server.canSendSavedMessages = true → ∃ first second, (server.classifyModeSend true).sent =
      server.sent ++ [.saved first, .saved second]

/-- While no save meets an unsent message, every index is inside the pool and
the counts are right. -/
theorem pool_counts_right [Inhabited α] (server : SampServer α)
    (reached : Reaches sampStep SampServer.Room (initFreqMessagePools : SampServer α) server) :
    server.Sound ∧ ∀ event, server.Room event → ∃ after, sampStep server event = some after := by
  have counted : server.Counted := by
    apply reached.invariant
    · intro state event after room steps earlier
      obtain ⟨next, stepped, holds⟩ := sampStep_counted earlier room
      rw [stepped] at steps
      rwa [← some.inj steps]
    · exact ⟨initSavedMessagePool_counted guiLowerFreq, initSavedMessagePool_counted guiUpperFreq⟩
  refine ⟨⟨counted.lower.count, counted.upper.count, ?_⟩, ?_⟩
  · intro can_send
    exact (classifyModeSend_counted counted can_send).2
  · intro event room
    obtain ⟨after, stepped, -⟩ := sampStep_counted counted room
    exact ⟨after, stepped⟩

/-- Two messages for one frequency, one for the other and a pair sent. -/
def sampSaves : List (SampServer Nat → SampEvent Nat) :=
  [fun _ => .save 3 ⟨guiLowerFreq, 1⟩, fun _ => .save 0 ⟨guiLowerFreq, 2⟩,
    fun _ => .save 9 ⟨guiUpperFreq, 3⟩, fun _ => .send true]

theorem pool_counts_right_pair :
    ∃ server, Reaches sampStep SampServer.Room (initFreqMessagePools : SampServer Nat) server ∧
      server.lower.numValid = 1 ∧ server.sent.length = 2 ∧
      server.Sound ∧ ∀ event, server.Room event → ∃ after, sampStep server event = some after := by
  have ends : (follows sampStep SampServer.Room (initFreqMessagePools : SampServer Nat)
      sampSaves).map (fun server => (server.lower.numValid, server.sent.length)) = some (1, 2) := by
    decide
  obtain ⟨server, followed, values⟩ := map_eq_some_iff.mp ends
  have reached := reaches_of_follows followed
  exact ⟨server, reached, (Prod.mk.inj values).1, (Prod.mk.inj values).2,
    pool_counts_right server reached⟩

/-- Eleven messages for one frequency before any is sent: whichever slot the
first goes to, the count is eleven and ten slots are valid. -/
theorem saves_exceed : ∀ first : Fin maxSavedSampMsgs,
    ((List.range 11).foldlM (fun server n => sampStep server (.save first ⟨guiLowerFreq, n⟩))
      (initFreqMessagePools : SampServer Nat)).map
        (fun server => (server.lower.numValid, server.lower.validSlots)) = some (11, 10) := by
  decide

theorem pool_count_exceeds :
    ((List.range 11).foldlM (fun server n => sampStep server (.save 0 ⟨guiLowerFreq, n⟩))
      (initFreqMessagePools : SampServer Nat)).map
        (fun server => (server.lower.numValid, server.lower.validSlots)) = some (11, 10) :=
  saves_exceed ⟨0, by decide⟩

end AthApps.Spectral
