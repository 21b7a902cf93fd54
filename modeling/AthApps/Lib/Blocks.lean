import Mathlib.Data.List.TakeDrop

/-!
# Absorbing a text block by block

`absorb` cuts the complete blocks off a text, folds a step over them and keeps
the rest.  A text may come in pieces: what an earlier piece left is put in front
of the next one.
-/

set_option autoImplicit false

namespace AthApps.Lib

open List

section Cut

variable {α : Type} (size : Nat)

@[grind =] def blocks : Nat → List α → List (List α)
  | 0, _ => []
  | count + 1, text => text.take size :: blocks count (text.drop size)

theorem blocks_exact : ∀ (count : Nat) (text : List α), text.length = size * count →
    (blocks size count text).flatten = text ∧
      ∀ block ∈ blocks size count text, block.length = size := by
  intro count
  induction count with
  | zero =>
    intro text exact
    rw [length_eq_zero_iff.mp exact]
    exact ⟨rfl, by simp [blocks]⟩
  | succ count ih =>
    intro text exact
    rw [Nat.mul_succ] at exact
    obtain ⟨joined, even⟩ := ih (text.drop size) (by rw [length_drop]; omega)
    refine ⟨by rw [blocks, flatten_cons, joined, take_append_drop], ?_⟩
    intro block member
    rw [blocks, mem_cons] at member
    rcases member with rfl | later
    · rw [length_take]
      omega
    · exact even block later

end Cut

section Absorb

variable {α σ : Type} (step : σ → List α → σ) (size : Nat)

def absorb (state : σ) (text : List α) : σ × List α :=
  ((blocks size (text.length / size) text).foldl step state,
    text.drop (size * (text.length / size)))

theorem absorb_short (state : σ) {text : List α} (short : text.length < size) :
    absorb step size state text = (state, text) := by
  simp [absorb, Nat.div_eq_of_lt short, blocks]

theorem absorb_step (positive : 0 < size) (state : σ) {text : List α}
    (enough : size ≤ text.length) :
    absorb step size state text =
      absorb step size (step state (text.take size)) (text.drop size) := by
  have count : text.length / size = (text.drop size).length / size + 1 := by
    rw [length_drop]
    exact Nat.div_eq_sub_div positive enough
  simp only [absorb, count, blocks, foldl_cons, drop_drop]
  congr 2
  rw [Nat.mul_add, Nat.mul_one, Nat.add_comm]

theorem absorb_rest_length (positive : 0 < size) (state : σ) (text : List α) :
    (absorb step size state text).2.length = text.length % size := by
  have parts := Nat.div_add_mod text.length size
  have inside : text.length % size < size := Nat.mod_lt _ positive
  simp only [absorb, length_drop]
  omega

theorem absorb_append (positive : 0 < size) (front rest : List α) (state : σ) :
    absorb step size state (front ++ rest) =
      absorb step size (absorb step size state front).1
        ((absorb step size state front).2 ++ rest) := by
  by_cases enough : size ≤ front.length
  · have whole : size ≤ (front ++ rest).length := by
      rw [length_append]
      omega
    rw [absorb_step step size positive state enough,
      absorb_step step size positive state whole, take_append_of_le_length enough,
      drop_append_of_le_length enough]
    exact absorb_append positive (front.drop size) rest (step state (front.take size))
  · rw [absorb_short step size state (Nat.lt_of_not_le enough)]
  termination_by front.length
  decreasing_by
    rw [length_drop]
    omega

theorem absorb_complete (positive : 0 < size) (state : σ) {front rest : List α}
    (full : front.length = size) :
    absorb step size state (front ++ rest) = absorb step size (step state front) rest := by
  have enough : size ≤ (front ++ rest).length := by
    rw [length_append]
    omega
  rw [absorb_step step size positive state enough, ← full, take_left, drop_left]

end Absorb

end AthApps.Lib
