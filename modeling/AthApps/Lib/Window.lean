import Mathlib.Data.List.DropRight

/-!
# A window over the latest entries

An array of `size` slots that starts out blank; a new entry pushes the others
one slot to the front.
-/

set_option autoImplicit false

namespace AthApps.Lib

open List

variable {α : Type}

/-- The slots after the given entries, oldest first. -/
def slots (size : Nat) (blank : α) (entries : List α) : List α :=
  (List.replicate size blank ++ entries).rtake size

@[simp] theorem slots_nil (size : Nat) (blank : α) :
    slots size blank [] = List.replicate size blank := by
  simp [slots, List.rtake]

theorem slots_eq_drop (size : Nat) (blank : α) (entries : List α) :
    slots size blank entries = (List.replicate size blank ++ entries).drop entries.length := by
  simp [slots, List.rtake]

theorem slots_snoc (size : Nat) (blank entry : α) (entries : List α) (positive : 0 < size) :
    slots size blank (entries ++ [entry]) = (slots size blank entries).tail ++ [entry] := by
  obtain ⟨rest, rfl⟩ := Nat.exists_eq_succ_of_ne_zero (Nat.pos_iff_ne_zero.mp positive)
  have room : entries.length + 1 ≤ (List.replicate (rest + 1) blank ++ entries).length := by
    simp only [length_append, length_replicate]
    omega
  rw [slots_eq_drop, slots_eq_drop, tail_drop, ← append_assoc, length_append,
    length_singleton, drop_append_of_le_length room]

variable {size : Nat} {entries : List α}

theorem slots_of_short (blank : α) (short : entries.length < size) :
    ∃ rest, slots size blank entries = blank :: rest := by
  obtain ⟨missing, rfl⟩ := Nat.exists_eq_add_of_lt short
  refine ⟨List.replicate missing blank ++ entries, ?_⟩
  rw [slots_eq_drop, drop_append_of_le_length (by simp; omega), drop_replicate]
  have left : entries.length + missing + 1 - entries.length = missing + 1 := by omega
  rw [left, replicate_succ, cons_append]

theorem slots_of_full (blank : α) (full : size ≤ entries.length) :
    slots size blank entries = entries.rtake size := by
  rw [slots_eq_drop, drop_append, drop_of_length_le (by simpa using full)]
  simp [List.rtake]

/-- Without a blank behind the oldest slot at most one entry is missing. -/
theorem full_of_blank_not_mem {blank : α} (absent : blank ∉ (slots size blank entries).tail) :
    size ≤ entries.length + 1 := by
  by_contra short
  obtain ⟨missing, rfl⟩ := Nat.exists_eq_add_of_lt (Nat.lt_of_not_le short)
  apply absent
  rw [slots_eq_drop, tail_drop, drop_append_of_le_length (by simp; omega),
    drop_replicate]
  apply mem_append_left
  rw [mem_replicate]
  exact ⟨by omega, rfl⟩

end AthApps.Lib
