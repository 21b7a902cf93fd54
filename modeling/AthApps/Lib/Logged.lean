import Mathlib.Data.List.Basic

/-!
# Computations that keep a log

A value, and what was noted on the way to it.
-/

set_option autoImplicit false

namespace AthApps.Lib

structure Logged (ε α : Type) where
  value : α
  log : List ε

namespace Logged

variable {ε α β : Type}

instance : Monad (Logged ε) where
  pure value := ⟨value, []⟩
  bind first next := ⟨(next first.value).value, first.log ++ (next first.value).log⟩

@[simp] theorem pure_value (value : α) : (pure value : Logged ε α).value = value := rfl

@[simp] theorem pure_log (value : α) : (pure value : Logged ε α).log = [] := rfl

@[simp] theorem bind_value (first : Logged ε α) (next : α → Logged ε β) :
    (first >>= next).value = (next first.value).value := rfl

@[simp] theorem bind_log (first : Logged ε α) (next : α → Logged ε β) :
    (first >>= next).log = first.log ++ (next first.value).log := rfl

def All (property : ε → Prop) (computation : Logged ε α) : Prop :=
  ∀ entry ∈ computation.log, property entry

variable {property : ε → Prop}

@[simp] theorem all_pure (value : α) : All property (pure value : Logged ε α) := by
  simp [All]

theorem all_bind (first : Logged ε α) (next : α → Logged ε β) :
    All property (first >>= next) ↔ All property first ∧ All property (next first.value) := by
  simp only [All, bind_log, List.forall_mem_append]

end Logged

end AthApps.Lib
