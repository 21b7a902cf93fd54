/-!
# Computations that may have no result

`Yields condition good x` says what is known of a computation that has a result
whenever a condition holds: if there is a result then it is good, and if there
is none then the condition fails.  One statement so covers both what a result
is like and when there is one.
-/

set_option autoImplicit false

namespace AthApps.Lib

universe u

section Results

variable {α β : Type u} {condition stronger : Prop} {good better : α → Prop}
  {x : Option α}

def Yields (condition : Prop) (good : α → Prop) : Option α → Prop
  | none => ¬ condition
  | some a => good a

@[simp] theorem yields_some {a : α} : Yields condition good (some a) ↔ good a := Iff.rfl

@[simp] theorem yields_none : Yields condition good (none : Option α) ↔ ¬ condition := Iff.rfl

theorem Yields.imp (yields : Yields condition good x) (implies : ∀ a, good a → better a) :
    Yields condition better x := by
  cases x with
  | none => exact yields
  | some a => exact implies a yields

/-- A computation that needs less may be used where more is known. -/
theorem Yields.under (yields : Yields condition good x) (implies : stronger → condition) :
    Yields stronger good x := by
  cases x with
  | none => exact fun holds => yields (implies holds)
  | some a => exact yields

theorem Yields.remember (yields : Yields condition good x) :
    Yields condition (fun a => good a ∧ x = some a) x := by
  cases x with
  | none => exact yields
  | some a => exact ⟨yields, rfl⟩

theorem Yields.bind {f : α → Option β} {final : β → Prop} (yields : Yields condition good x)
    (next : ∀ a, good a → Yields condition final (f a)) : Yields condition final (x >>= f) := by
  cases x with
  | none => exact yields
  | some a => exact next a yields

theorem Yields.of_result {a : α} (yields : Yields condition good x) (result : x = some a) : good a := by
  subst result
  exact yields

theorem Yields.exists (yields : Yields condition good x) (holds : condition) :
    ∃ a, x = some a ∧ good a := by
  cases x with
  | none => exact absurd holds yields
  | some a => exact ⟨a, rfl, yields⟩

end Results

end AthApps.Lib
