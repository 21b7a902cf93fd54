import Mathlib.Data.Rat.Floor

/-!
# Rounding with truncated division

A quotient is rounded to the nearest integer, halves away from zero, by one
truncated division of its double: half of the result and its remainder.
-/

set_option autoImplicit false

namespace AthApps.Lib

/-- The nearest integer; a half is rounded away from zero. -/
def roundAway (q : ℚ) : ℤ := if 0 ≤ q then ⌊q + 1 / 2⌋ else ⌈q - 1 / 2⌉

theorem roundAway_neg (q : ℚ) : roundAway (-q) = -roundAway q := by
  unfold roundAway
  rcases lt_trichotomy q 0 with negative | rfl | positive
  · rw [if_pos (by linarith), if_neg (by linarith), ← Int.floor_neg]
    congr 1
    ring
  · norm_num
  · rw [if_neg (by linarith), if_pos (by linarith), ← Int.ceil_neg]
    congr 1
    ring

theorem roundAway_mem {q : ℚ} {bound : ℤ} (lower : 0 ≤ q) (upper : q ≤ bound) :
    0 ≤ roundAway q ∧ roundAway q ≤ bound := by
  rw [roundAway, if_pos lower]
  constructor
  · apply Int.floor_nonneg.mpr
    linarith
  · apply Int.lt_add_one_iff.mp
    apply Int.floor_lt.mpr
    push_cast
    linarith

theorem halve_nonneg {b : ℤ} (nonneg : 0 ≤ b) : b.tdiv 2 + b.tmod 2 = (b + 1) / 2 := by
  rw [Int.tdiv_eq_ediv_of_nonneg nonneg, Int.tmod_eq_emod_of_nonneg nonneg]
  omega

theorem halve_between (b : ℤ) :
    (0 ≤ b.tdiv 2 + b.tmod 2 → 0 ≤ b.tdiv 2 ∧ b.tdiv 2 ≤ b.tdiv 2 + b.tmod 2) ∧
      (b.tdiv 2 + b.tmod 2 ≤ 0 → b.tdiv 2 + b.tmod 2 ≤ b.tdiv 2 ∧ b.tdiv 2 ≤ 0) := by
  have split : ∀ {c : ℤ}, 0 ≤ c → c.tdiv 2 = c / 2 ∧ c.tmod 2 = c % 2 := fun nonneg =>
    ⟨Int.tdiv_eq_ediv_of_nonneg nonneg, Int.tmod_eq_emod_of_nonneg nonneg⟩
  rcases le_total 0 b with nonneg | negative
  · obtain ⟨quotient, rest⟩ := split nonneg
    omega
  · obtain ⟨c, rfl⟩ : ∃ c, b = -c := ⟨-b, (neg_neg b).symm⟩
    obtain ⟨quotient, rest⟩ := split (neg_nonpos.mp negative)
    rw [Int.neg_tdiv, Int.neg_tmod]
    omega

theorem truncate_round_nonneg {n d : ℤ} (nonneg : 0 ≤ n) (positive : 0 < d) :
    ((2 * n).tdiv d).tdiv 2 + ((2 * n).tdiv d).tmod 2 = roundAway (n / d) := by
  have quotient : (2 * n).tdiv d = 2 * n / d := Int.tdiv_eq_ediv_of_nonneg (by omega)
  have rational : (n / d : ℚ) + 1 / 2 = ((2 * n + d : ℤ) : ℚ) / ((2 * d).toNat : ℕ) := by
    have whole : (((2 * d).toNat : ℕ) : ℚ) = 2 * d := by
      have cast : (((2 * d).toNat : ℕ) : ℤ) = 2 * d := Int.toNat_of_nonneg (by omega)
      exact_mod_cast cast
    have nonzero : (d : ℚ) ≠ 0 := by exact_mod_cast positive.ne'
    rw [whole]
    push_cast
    field_simp
  rw [quotient, halve_nonneg (Int.ediv_nonneg (by omega) positive.le), roundAway,
    if_pos (div_nonneg (by exact_mod_cast nonneg) (by exact_mod_cast positive.le)), rational,
    Rat.floor_intCast_div_natCast, Int.toNat_of_nonneg (by omega), mul_comm 2 d,
    ← Int.ediv_ediv_of_nonneg positive.le, Int.add_ediv_of_dvd_right (dvd_refl d),
    Int.ediv_self positive.ne']

theorem truncate_round {d : ℤ} (n : ℤ) (positive : 0 < d) :
    ((2 * n).tdiv d).tdiv 2 + ((2 * n).tdiv d).tmod 2 = roundAway (n / d) := by
  rcases le_total 0 n with nonneg | negative
  · exact truncate_round_nonneg nonneg positive
  · have mirrored := truncate_round_nonneg (neg_nonneg.mpr negative) positive
    have quotient : ((-n : ℤ) : ℚ) / d = -(n / d) := by
      push_cast
      ring
    rw [quotient, roundAway_neg, mul_neg, Int.neg_tdiv, Int.neg_tdiv, Int.neg_tmod] at mirrored
    omega

end AthApps.Lib
