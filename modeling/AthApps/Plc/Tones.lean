import Mathlib.Logic.Function.Basic

/-!
# Tone alignment

`align_tones` of `pib/psnotch.c` spreads the tone map, which lies in the first
917 of 1155 carriers, over the carriers of the amplitude map that are not zero.
It works in place from the last carrier to the first and clears what it moved
from, also where that is the place it moved to.
-/

set_option autoImplicit false

namespace AthApps.Plc.Tones

def carrierCount : Nat := 1155

def toneCount : Nat := 917

abbrev Slots := Vector UInt8 6

def zeroSlots : Slots := Vector.replicate 6 0

structure Carrier where
  amplitude : UInt16
  slots : Slots

abbrev Map := Fin carrierCount → Carrier

def setSlots (map : Map) (carrier : Fin carrierCount) (slots : Slots) : Map :=
  Function.update map carrier { map carrier with slots := slots }

theorem setSlots_apply (map : Map) (changed carrier : Fin carrierCount) (slots : Slots) :
    setSlots map changed slots carrier =
      { map carrier with slots := if carrier = changed then slots else (map carrier).slots } := by
  by_cases same : carrier = changed
  · subst same
    rw [setSlots, Function.update_self, if_pos rfl]
  · rw [setSlots, Function.update_of_ne same, if_neg same]

/-- The body of the loop; there is no result where it would leave the array. -/
def alignStep (carrier : Fin carrierCount) (tones : UInt32) (map : Map) :
    Option (UInt32 × Map) :=
  if (map carrier).amplitude ≠ 0 then
    if tones ≠ 0 then
      if inside : (tones - 1).toNat < carrierCount then
        let tone : Fin carrierCount := ⟨(tones - 1).toNat, inside⟩
        let map := setSlots map carrier (map tone).slots
        some (tones - 1, setSlots map tone zeroSlots)
      else none
    else some (tones - 1, map)
  else some (tones, map)

@[grind =] def alignLoop : (carriers : Nat) → carriers ≤ carrierCount → UInt32 → Map → Option Map
  | 0, _, _, map => some map
  | carriers + 1, inside, tones, map =>
    match alignStep ⟨carriers, inside⟩ tones map with
    | some (tones, map) => alignLoop carriers (Nat.le_of_lt inside) tones map
    | none => none

def alignTones (map : Map) : Option Map :=
  alignLoop carrierCount (Nat.le_refl _) (UInt32.ofNat toneCount) map

def Sounds (map : Map) (carrier : Nat) : Prop :=
  ∃ inside : carrier < carrierCount, (map ⟨carrier, inside⟩).amplitude ≠ 0

instance (map : Map) (carrier : Nat) : Decidable (Sounds map carrier) :=
  inferInstanceAs (Decidable (∃ _ : carrier < carrierCount, _))

@[grind =] def rank (map : Map) : Nat → Nat
  | 0 => 0
  | carrier + 1 => rank map carrier + if Sounds map carrier then 1 else 0

/-- The carrier is the one in use with the given number. -/
structure Kth (map : Map) (k : Nat) (carrier : Fin carrierCount) : Prop where
  sounds : Sounds map carrier
  rank : rank map carrier = k

/-- The tones lie in the carriers in use, in order, and nowhere else. -/
structure Aligned (old new : Map) : Prop where
  amplitude : ∀ carrier, (new carrier).amplitude = (old carrier).amplitude
  silent : ∀ carrier, (old carrier).amplitude = 0 → (new carrier).slots = zeroSlots
  tone : ∀ k : Fin carrierCount, k.val < toneCount →
    ∃ carrier, Kth old k carrier ∧ (new carrier).slots = (old k).slots

section Rank

variable (map : Map)

theorem sounds_iff (carrier : Fin carrierCount) :
    Sounds map carrier ↔ (map carrier).amplitude ≠ 0 :=
  ⟨fun ⟨_, amplitude⟩ => amplitude, fun amplitude => ⟨carrier.isLt, amplitude⟩⟩

theorem rank_le (carrier : Nat) : rank map carrier ≤ carrier := by
  induction carrier with
  | zero => exact Nat.le_refl 0
  | succ carrier ih =>
    rw [rank]
    split <;> omega

theorem rank_mono {low high : Nat} (order : low ≤ high) : rank map low ≤ rank map high := by
  induction order with
  | refl => exact Nat.le_refl _
  | step _ ih => exact Nat.le_trans ih (Nat.le_add_right _ _)

theorem rank_lt {low high : Nat} (order : low < high) (sounds : Sounds map low) :
    rank map low < rank map high := by
  have next : rank map (low + 1) = rank map low + 1 := by rw [rank, if_pos sounds]
  have later : rank map (low + 1) ≤ rank map high := rank_mono map order
  omega

theorem rank_eq_self (carrier : Nat) : rank map carrier = carrier ↔
    ∀ below < carrier, Sounds map below := by
  induction carrier with
  | zero => simp [rank]
  | succ carrier ih =>
    have few := rank_le map carrier
    rw [rank]
    constructor
    · intro all below lower
      split at all
      next sounds =>
        by_cases last : below = carrier
        · exact last ▸ sounds
        · exact (ih.mp (by omega)) below (by omega)
      next => omega
    · intro all
      rw [if_pos (all carrier (by omega)), ih.mpr fun below lower => all below (by omega)]

theorem exists_rank {k : Nat} : ∀ carriers : Nat, k < rank map carriers →
    ∃ carrier < carriers, Sounds map carrier ∧ rank map carrier = k := by
  intro carriers
  induction carriers with
  | zero =>
    intro below
    exact absurd below (Nat.not_lt_zero k)
  | succ carriers ih =>
    intro below
    rw [rank] at below
    by_cases earlier : k < rank map carriers
    · obtain ⟨carrier, lower, found⟩ := ih earlier
      exact ⟨carrier, by omega, found⟩
    · split at below
      next sounds => exact ⟨carriers, by omega, sounds, by omega⟩
      next => omega

end Rank

def movedSlots (map : Map) (carriers : Nat) (carrier : Fin carrierCount) : Slots :=
  if carriers ≤ carrier.val ∧ Sounds map carrier then
    if rank map carrier = carrier.val then zeroSlots
    else (map ⟨rank map carrier, Nat.lt_of_le_of_lt (rank_le map carrier) carrier.isLt⟩).slots
  else if rank map carriers ≤ carrier.val ∧ carrier.val < toneCount then zeroSlots
  else (map carrier).slots

def moved (map : Map) (carriers : Nat) : Map := fun carrier =>
  { map carrier with slots := movedSlots map carriers carrier }

section Loop

variable {map : Map} {carriers : Nat}

theorem moved_all (tones : rank map carrierCount = toneCount) : moved map carrierCount = map := by
  funext carrier
  have notDone : ¬(carrierCount ≤ carrier.val ∧ Sounds map carrier) := by
    rintro ⟨outside, _⟩
    exact absurd carrier.isLt (Nat.not_lt.mpr outside)
  have notCleared : ¬(rank map carrierCount ≤ carrier.val ∧ carrier.val < toneCount) := by
    rw [tones]
    rintro ⟨behind, below⟩
    exact absurd below (Nat.not_lt.mpr behind)
  simp only [moved, movedSlots, if_neg notDone, if_neg notCleared]

theorem alignStep_silent (inside : carriers < carrierCount) (silent : ¬Sounds map carriers) :
    alignStep ⟨carriers, inside⟩ (UInt32.ofNat (rank map (carriers + 1)))
        (moved map (carriers + 1)) =
      some (UInt32.ofNat (rank map carriers), moved map carriers) := by
  have zero : (map ⟨carriers, inside⟩).amplitude = 0 := by
    by_contra amplitude
    exact silent ⟨inside, amplitude⟩
  have same : rank map (carriers + 1) = rank map carriers := by rw [rank, if_neg silent, Nat.add_zero]
  have unmoved : moved map (carriers + 1) = moved map carriers := by
    funext carrier
    have done : carriers + 1 ≤ carrier.val ∧ Sounds map carrier ↔
        carriers ≤ carrier.val ∧ Sounds map carrier := by
      constructor
      · rintro ⟨later, sounds⟩
        exact ⟨by omega, sounds⟩
      · rintro ⟨later, sounds⟩
        have other : carriers ≠ carrier.val := fun equal => silent (equal ▸ sounds)
        exact ⟨by omega, sounds⟩
    simp only [moved, movedSlots, done, same]
  have kept : (moved map (carriers + 1) ⟨carriers, inside⟩).amplitude = 0 := zero
  rw [alignStep, if_neg (not_not.mpr kept), same, unmoved]

theorem alignStep_sounds (inside : carriers < carrierCount) (sounds : Sounds map carriers)
    (tones : rank map carrierCount = toneCount) :
    alignStep ⟨carriers, inside⟩ (UInt32.ofNat (rank map (carriers + 1)))
        (moved map (carriers + 1)) =
      some (UInt32.ofNat (rank map carriers), moved map carriers) := by
  have low := rank_le map carriers
  have next : rank map (carriers + 1) = rank map carriers + 1 := by rw [rank, if_pos sounds]
  have most : rank map carriers < toneCount := tones ▸ rank_lt map inside sounds
  have small : rank map carriers + 1 < 2 ^ 32 := by
    unfold toneCount at most
    omega
  have place : (UInt32.ofNat (rank map carriers)).toNat = rank map carriers := by
    rw [UInt32.toNat_ofNat', Nat.mod_eq_of_lt (by omega)]
  have counter : UInt32.ofNat (rank map (carriers + 1)) ≠ 0 := by
    intro zero
    have value := congrArg UInt32.toNat zero
    rw [next, UInt32.toNat_ofNat', Nat.mod_eq_of_lt small] at value
    exact Nat.succ_ne_zero _ value
  have tone : UInt32.ofNat (rank map (carriers + 1)) - 1 = UInt32.ofNat (rank map carriers) := by
    rw [next, UInt32.ofNat_add]
    exact UInt32.add_sub_cancel _ _
  have audible : (moved map (carriers + 1) ⟨carriers, inside⟩).amplitude ≠ 0 :=
    (sounds_iff map ⟨carriers, inside⟩).mp sounds
  rw [alignStep, if_pos audible, if_pos counter]
  simp only [tone, place]
  rw [dif_pos (Nat.lt_of_le_of_lt low inside)]
  refine congrArg (fun result => some (_, result)) ?_
  let source : Fin carrierCount := ⟨rank map carriers, Nat.lt_of_le_of_lt low inside⟩
  let destination : Fin carrierCount := ⟨carriers, inside⟩
  -- the source lies below the carriers that are done and has not been cleared
  have waiting : (moved map (carriers + 1) source).slots = (map source).slots := by
    have notDone : ¬(carriers + 1 ≤ source.val ∧ Sounds map source) := by
      rintro ⟨later, _⟩
      exact absurd (Nat.le_trans later low) (Nat.not_succ_le_self carriers)
    have notCleared : ¬(rank map (carriers + 1) ≤ source.val ∧ source.val < toneCount) := by
      rw [next]
      rintro ⟨behind, _⟩
      exact Nat.not_succ_le_self _ behind
    simp only [moved, movedSlots, if_neg notDone, if_neg notCleared]
  change setSlots (setSlots (moved map (carriers + 1)) destination
    (moved map (carriers + 1) source).slots) source zeroSlots = moved map carriers
  rw [waiting]
  funext carrier
  simp only [setSlots_apply, moved]
  congr 1
  by_cases cleared : carrier = source
  · subst cleared
    rw [if_pos rfl, movedSlots]
    split
    next done =>
      have coincide : rank map carriers = carriers := Nat.le_antisymm low done.1
      have same : source.val = carriers := coincide
      rw [if_pos (by rw [same, coincide])]
    next => rw [if_pos ⟨Nat.le_refl _, most⟩]
  · rw [if_neg cleared]
    by_cases here : carrier = destination
    · subst here
      have apart : rank map carriers ≠ carriers := fun equal => cleared (Fin.ext equal.symm)
      rw [if_pos rfl, movedSlots, if_pos ⟨Nat.le_refl _, sounds⟩, if_neg apart]
    · have below : carrier.val ≠ rank map carriers := fun equal => cleared (Fin.ext equal)
      have other : carrier.val ≠ carriers := fun equal => here (Fin.ext equal)
      have done : carriers + 1 ≤ carrier.val ∧ Sounds map carrier ↔
          carriers ≤ carrier.val ∧ Sounds map carrier := by
        refine and_congr_left fun _ => ?_
        omega
      have free : rank map (carriers + 1) ≤ carrier.val ↔ rank map carriers ≤ carrier.val := by
        rw [next]
        omega
      simp only [if_neg here, movedSlots, done, free]

theorem alignLoop_moved (tones : rank map carrierCount = toneCount) :
    ∀ inside : carriers ≤ carrierCount,
      alignLoop carriers inside (UInt32.ofNat (rank map carriers)) (moved map carriers) =
        some (moved map 0) := by
  induction carriers with
  | zero =>
    intro inside
    rfl
  | succ carriers ih =>
    intro inside
    rw [alignLoop]
    by_cases sounds : Sounds map carriers
    · rw [alignStep_sounds inside sounds tones]
      exact ih _
    · rw [alignStep_silent inside sounds]
      exact ih _

end Loop

variable {map : Map}

theorem alignTones_eq (tones : rank map carrierCount = toneCount) :
    alignTones map = some (moved map 0) := by
  have loop := alignLoop_moved tones (Nat.le_refl carrierCount)
  rw [tones, moved_all tones] at loop
  exact loop

section Aligned

variable {map : Map} {carrier : Fin carrierCount}

theorem moved_moves (sounds : Sounds map carrier) (apart : rank map carrier ≠ carrier.val) :
    (moved map 0 carrier).slots =
      (map ⟨rank map carrier, Nat.lt_of_le_of_lt (rank_le map carrier) carrier.isLt⟩).slots := by
  simp only [moved, movedSlots]
  rw [if_pos ⟨Nat.zero_le _, sounds⟩, if_neg apart]

theorem moved_still (sounds : Sounds map carrier) (fixed : rank map carrier = carrier.val) :
    (moved map 0 carrier).slots = zeroSlots := by
  simp only [moved, movedSlots]
  rw [if_pos ⟨Nat.zero_le _, sounds⟩, if_pos fixed]

theorem moved_silent (zero : (map carrier).amplitude = 0) : (moved map 0 carrier).slots =
      if carrier.val < toneCount then zeroSlots else (map carrier).slots := by
  have silent : ¬(0 ≤ carrier.val ∧ Sounds map carrier) :=
    fun both => (sounds_iff map carrier).mp both.2 zero
  simp only [moved, movedSlots]
  rw [if_neg silent]
  simp only [rank, Nat.zero_le, true_and]

theorem Kth.unique {k : Nat} {other : Fin carrierCount} (first : Kth map k carrier)
    (second : Kth map k other) : carrier = other := by
  rcases Nat.lt_trichotomy carrier.val other.val with before | same | behind
  · have less := rank_lt map before first.sounds
    rw [first.rank, second.rank] at less
    exact absurd less (Nat.lt_irrefl k)
  · exact Fin.ext same
  · have less := rank_lt map behind second.sounds
    rw [first.rank, second.rank] at less
    exact absurd less (Nat.lt_irrefl k)

end Aligned

/-- What `align_tones` needs: a carrier in use with none unused below it, which is its own
source, is blank, and so is every unused carrier behind the tone map. -/
structure Harmless (map : Map) : Prop where
  still : ∀ carrier : Fin carrierCount, (∀ below ≤ carrier.val, Sounds map below) →
    (map carrier).slots = zeroSlots
  behind : ∀ carrier : Fin carrierCount, toneCount ≤ carrier.val → (map carrier).amplitude = 0 →
    (map carrier).slots = zeroSlots

theorem harmless_of_aligned (tones : rank map carrierCount = toneCount)
    (aligned : Aligned map (moved map 0)) : Harmless map := by
  obtain ⟨_, silent, tone⟩ := aligned
  refine ⟨?_, ?_⟩
  · intro carrier all
    have sounds : Sounds map carrier := all carrier.val (Nat.le_refl _)
    have fixed : rank map carrier = carrier.val :=
      (rank_eq_self map carrier.val).mpr fun below lower => all below (Nat.le_of_lt lower)
    have low : carrier.val < toneCount := by
      have less := rank_lt map carrier.isLt sounds
      rwa [fixed, tones] at less
    obtain ⟨other, kth, slots⟩ := tone carrier low
    have same : other = carrier := kth.unique ⟨sounds, fixed⟩
    rw [← slots, same, moved_still sounds fixed]
  · intro carrier behind zero
    have cleared := silent carrier zero
    rwa [moved_silent zero, if_neg (Nat.not_lt.mpr behind)] at cleared

theorem aligned_of_harmless (tones : rank map carrierCount = toneCount) (harmless : Harmless map) :
    Aligned map (moved map 0) := by
  refine ⟨fun _ => rfl, ?_, ?_⟩
  · intro carrier zero
    rw [moved_silent zero]
    split
    · rfl
    next behind => exact harmless.behind carrier (Nat.not_lt.mp behind) zero
  · intro k low
    obtain ⟨place, inside, sounds, number⟩ := exists_rank map carrierCount (tones ▸ low)
    refine ⟨⟨place, inside⟩, ⟨sounds, number⟩, ?_⟩
    by_cases fixed : rank map place = place
    · have same : (⟨place, inside⟩ : Fin carrierCount) = k := Fin.ext (fixed.symm.trans number)
      have all : ∀ below ≤ place, Sounds map below := by
        intro below lower
        rcases Nat.lt_or_eq_of_le lower with less | rfl
        · exact (rank_eq_self map place).mp fixed below less
        · exact sounds
      have blank := harmless.still ⟨place, inside⟩ all
      rw [@moved_still _ ⟨place, inside⟩ sounds fixed, ← same, blank]
    · rw [@moved_moves _ ⟨place, inside⟩ sounds fixed]
      exact congrArg (fun source => (map source).slots) (Fin.ext number)

/-- A tone map without blanks, and an amplitude map whose carriers in use begin at `first`. -/
def consecutive (first : Nat) : Map := fun carrier =>
  ⟨if first ≤ carrier.val ∧ carrier.val < first + toneCount then 1 else 0,
    if carrier.val < toneCount then Vector.replicate 6 7 else zeroSlots⟩

theorem consecutive_sounds (first : Nat) (carrier : Fin carrierCount) :
    Sounds (consecutive first) carrier ↔ first ≤ carrier.val ∧ carrier.val < first + toneCount := by
  rw [sounds_iff, consecutive]
  split <;> simp_all

theorem consecutive_rank (first : Nat) : ∀ carrier ≤ carrierCount,
    rank (consecutive first) carrier = min (carrier - first) toneCount := by
  intro carrier
  induction carrier with
  | zero =>
    intro _
    simp [rank]
  | succ carrier ih =>
    intro inside
    have sounds := consecutive_sounds first ⟨carrier, inside⟩
    rw [rank, ih (Nat.le_of_lt inside)]
    split
    next yes =>
      have place := sounds.mp yes
      dsimp only at place
      omega
    next no =>
      have place : ¬(first ≤ carrier ∧ carrier < first + toneCount) := fun yes => no (sounds.mpr yes)
      omega

/-- With as many carriers in use as there are tones, `align_tones` returns, and it
aligns the tones exactly if no tone has to stay where it is. -/
theorem alignTones_aligned_iff (map : Map) (tones : rank map carrierCount = toneCount) :
    ∃ new, alignTones map = some new ∧ (Aligned map new ↔ Harmless map) :=
  ⟨moved map 0, alignTones_eq tones, harmless_of_aligned tones, aligned_of_harmless tones⟩

/-- Where the carriers in use are the last ones, every tone gets to its place. -/
theorem alignTones_last :
    ∃ new, alignTones (consecutive 238) = some new ∧ Aligned (consecutive 238) new := by
  obtain ⟨new, done, aligned⟩ := alignTones_aligned_iff (consecutive 238)
    (consecutive_rank 238 carrierCount (Nat.le_refl _))
  refine ⟨new, done, aligned.mpr ⟨fun carrier all => ?_, fun carrier behind _ => ?_⟩⟩
  · have first := (consecutive_sounds 238 ⟨0, by decide⟩).mp (all 0 (Nat.zero_le _))
    exact absurd first.1 (by decide)
  · exact if_neg (Nat.not_lt.mpr behind)

/-- Where the carriers in use are the first ones, all tones are lost. -/
theorem alignTones_first :
    rank (consecutive 0) carrierCount = toneCount ∧
      ∃ new, alignTones (consecutive 0) = some new ∧ ¬Aligned (consecutive 0) new ∧
        ∀ carrier, (new carrier).slots = zeroSlots := by
  have tones : rank (consecutive 0) carrierCount = toneCount :=
    consecutive_rank 0 carrierCount (Nat.le_refl _)
  have lost : ∀ carrier, (moved (consecutive 0) 0 carrier).slots = zeroSlots := by
    intro carrier
    by_cases low : carrier.val < toneCount
    · have sounds : Sounds (consecutive 0) carrier :=
        (consecutive_sounds 0 carrier).mpr ⟨Nat.zero_le _, by omega⟩
      have number := consecutive_rank 0 carrier.val (Nat.le_of_lt carrier.isLt)
      exact moved_still sounds (by omega)
    · have zero : (consecutive 0 carrier).amplitude = 0 := if_neg fun within => low (by omega)
      rw [moved_silent zero, if_neg low]
      exact if_neg low
  refine ⟨tones, moved (consecutive 0) 0, alignTones_eq tones, ?_, lost⟩
  intro aligned
  obtain ⟨carrier, _, slots⟩ := aligned.tone ⟨0, by decide⟩ (by decide)
  rw [lost carrier] at slots
  exact absurd slots (by decide)

end AthApps.Plc.Tones
