import Mathlib.Data.Int.Order.Basic

/-!
# Integers of 32 bits

The value of an `int` is an integer in its range; an operation whose result is
not in the range has no result, or goes round.
-/

set_option autoImplicit false

namespace AthApps.Lib

def FitsInt (value : Int) : Prop := -2147483648 ≤ value ∧ value < 2147483648

instance (value : Int) : Decidable (FitsInt value) := inferInstanceAs (Decidable (_ ∧ _))

def checked (value : Int) : Option Int := if FitsInt value then some value else none

variable {value a b : Int}

theorem checked_of_fits (fits : FitsInt value) : checked value = some value :=
  if_pos fits

theorem fitsInt_toInt (value : Int32) : FitsInt value.toInt := ⟨value.le_toInt, value.toInt_lt⟩

theorem fitsInt_between {c : Int} (first : FitsInt a) (second : FitsInt b)
    (inside : (a ≤ c ∧ c ≤ b) ∨ (b ≤ c ∧ c ≤ a)) : FitsInt c := by
  obtain ⟨lower, upper⟩ := first
  obtain ⟨lower', upper'⟩ := second
  constructor <;> omega

theorem fitsInt_of_mul (positive : 1 ≤ b) (fits : FitsInt (a * b)) : FitsInt a := by
  obtain ⟨lower, upper⟩ := fits
  rcases Int.le_total 0 a with nonneg | negative
  · have grows := Int.mul_le_mul_of_nonneg_left positive nonneg
    constructor <;> omega
  · have grows := Int.mul_le_mul_of_nonneg_left positive (Int.neg_nonneg_of_nonpos negative)
    rw [Int.mul_one, Int.neg_mul] at grows
    constructor <;> omega

/-- The `int` that a sum or a difference goes round to. -/
def wrapped (value : Int) : Int := value.bmod 4294967296

theorem wrapped_of_fits (fits : FitsInt value) : wrapped value = value := by
  obtain ⟨lower, upper⟩ := fits
  exact Int.bmod_eq_of_le (by omega) (by omega)

theorem wrapped_of_nonneg (low : 0 ≤ value) (high : value < 4294967296)
    (nonneg : 0 ≤ wrapped value) : wrapped value = value := by
  rw [wrapped, Int.bmod_def] at nonneg ⊢
  omega

theorem wrapped_fits (value : Int) : FitsInt (wrapped value) :=
  ⟨Int.le_bmod (by decide), Int.bmod_lt (by decide)⟩

end AthApps.Lib
