import Mathlib.Data.List.TakeWhile
import AthApps.Lib.Text

/-!
# Patterns of field names

`PatternMatch` of `art/Field.c` compares a name with a pattern in which a star
stands for any text.  Behind a star it looks for the next character of the
pattern in the name, and where that is another star, for a star in the name.
-/

set_option autoImplicit false

namespace AthApps.Art

open AthApps.Lib List

/-- `*`. -/
def star : UInt8 := 42

/-- Every occurrence of the next character of the pattern is tried. -/
def searchLoop (matches' : Bytes → Bool) (p : UInt8) : Bytes → Bool
  | [] => false
  | n :: name =>
    if toLower p = toLower n then
      if matches' (n :: name) then true else searchLoop matches' p name
    else searchLoop matches' p name

def patternMatch : Bytes → Bytes → Bool
  | [], name => name = []
  | p :: pattern, [] => (p :: pattern).dropWhile (fun c => c = star) = []
  | p :: pattern, n :: name =>
    if p ≠ star then
      if toLower p ≠ toLower n then false else patternMatch pattern name
    else
      match pattern.head? with
      | none => true
      | some next => searchLoop (patternMatch pattern) next (n :: name)

/-- The name comes from the pattern when every star is replaced by some text. -/
inductive Glob : Bytes → Bytes → Prop
  | nil : Glob [] []
  | letter {p n : UInt8} {pattern name : Bytes} (other : p ≠ star) (same : toLower p = toLower n)
      (rest : Glob pattern name) : Glob (p :: pattern) (n :: name)
  | any {pattern name : Bytes} (text : Bytes) (rest : Glob pattern name) :
      Glob (star :: pattern) (text ++ name)

/-- A match in which every run of several stars stands for a text with a star in it, or for nothing
at the end of the pattern and of the name. -/
inductive Marked : Bytes → Bytes → Prop
  | nil : Marked [] []
  | letter {p n : UInt8} {pattern name : Bytes} (other : p ≠ star) (same : toLower p = toLower n)
      (rest : Marked pattern name) : Marked (p :: pattern) (n :: name)
  | single {pattern name : Bytes} (text : Bytes) (ends : pattern.head? ≠ some star)
      (rest : Marked pattern name) : Marked (star :: pattern) (text ++ name)
  | several {pattern name : Bytes} (more : Nat) (text : Bytes)
      (ends : pattern.head? ≠ some star) (mark : star ∈ text ∨ text = [] ∧ pattern = [])
      (rest : Marked pattern name) :
      Marked (List.replicate (more + 2) star ++ pattern) (text ++ name)

section Patterns

variable {p n : UInt8} {pattern name text : Bytes}

theorem Glob.stars (rest : Glob pattern name) (text : Bytes) (count : Nat) :
    Glob (List.replicate (count + 1) star ++ pattern) (text ++ name) := by
  induction count generalizing text with
  | zero => exact .any text rest
  | succ count ih => exact .any text (ih [])

theorem Marked.glob (marked : Marked pattern name) : Glob pattern name := by
  induction marked with
  | nil => exact .nil
  | letter other same rest ih => exact .letter other same ih
  | single text ends rest ih => exact .any text ih
  | several more text ends mark rest ih => exact ih.stars text (more + 1)

theorem toLower_star (n : UInt8) (same : toLower n = star) : n = star := by
  have all : ∀ code < 256, toLower (UInt8.ofNat code) = star → UInt8.ofNat code = star := by
    decide +kernel
  have here := all n.toNat n.toNat_lt
  rw [UInt8.ofNat_toNat] at here
  exact here same

theorem searchLoop_iff (matches' : Bytes → Bool) : searchLoop matches' p name = true ↔
    ∃ front n rest, name = front ++ n :: rest ∧ toLower p = toLower n ∧
      matches' (n :: rest) = true := by
  induction name with
  | nil => simp [searchLoop]
  | cons first name ih =>
    have here : searchLoop matches' p (first :: name) = true ↔
        (toLower p = toLower first ∧ matches' (first :: name) = true) ∨
          searchLoop matches' p name = true := by
      rw [searchLoop]
      by_cases same : toLower p = toLower first
      · by_cases found : matches' (first :: name) = true
        · simp [same, found]
        · simp [same, found]
      · simp [same]
    rw [here, ih]
    constructor
    · rintro (⟨same, found⟩ | ⟨front, n, rest, rfl, same, found⟩)
      · exact ⟨[], first, name, rfl, same, found⟩
      · exact ⟨first :: front, n, rest, rfl, same, found⟩
    · rintro ⟨front, n, rest, split, same, found⟩
      cases front with
      | nil =>
        obtain ⟨rfl, rfl⟩ := List.cons.inj split
        exact Or.inl ⟨same, found⟩
      | cons c front => exact Or.inr ⟨front, n, rest, (List.cons.inj split).2, same, found⟩

theorem stars_of_dropWhile (all : pattern.dropWhile (fun c => decide (c = star)) = []) :
    pattern = List.replicate pattern.length star := by
  apply eq_replicate_of_mem
  intro c member
  exact of_decide_eq_true (dropWhile_eq_nil_iff.mp all c member)

theorem marked_stars (count : Nat) : Marked (List.replicate count star) [] := by
  match count with
  | 0 => exact .nil
  | 1 => exact .single [] (by simp) .nil
  | count + 2 =>
    have marked := Marked.several count [] (by simp) (Or.inr ⟨rfl, rfl⟩) .nil
    rw [append_nil] at marked
    exact marked

theorem Marked.head {rest : Bytes} (marked : Marked pattern (star :: rest)) :
    pattern.head? = some star := by
  generalize starred : star :: rest = name at marked
  cases marked with
  | nil => cases starred
  | letter other same inner =>
    obtain ⟨rfl, -⟩ := List.cons.inj starred
    exact absurd (toLower_star _ (same.trans (by decide))) other
  | single text ends inner => rfl
  | several more text ends mark inner => rfl

theorem Marked.again {rest : Bytes} (marked : Marked (star :: pattern) (star :: rest))
    (front : Bytes) : Marked (star :: star :: pattern) (front ++ star :: rest) := by
  generalize starred : star :: pattern = whole at marked
  generalize tail : star :: rest = name at marked
  cases marked with
  | nil => cases starred
  | letter other same inner =>
    obtain ⟨rfl, rfl⟩ := List.cons.inj starred
    exact absurd rfl other
  | @single pattern' name' text ends inner =>
    obtain ⟨-, rfl⟩ := List.cons.inj starred
    have mark : star ∈ text := by
      cases text with
      | cons c text =>
        obtain ⟨rfl, -⟩ := List.cons.inj tail
        simp
      | nil =>
        rw [nil_append] at tail
        rw [← tail] at inner
        exact absurd inner.head ends
    have again := Marked.several 0 (front ++ text) ends (Or.inl (by simp [mark])) inner
    rw [append_assoc] at again
    exact again
  | @several pattern' name' more text ends mark inner =>
    have mark : star ∈ text := by
      rcases mark with mark | ⟨rfl, rfl⟩
      · exact mark
      · cases inner
        cases tail
    have again := Marked.several (more + 1) (front ++ text) ends (Or.inl (by simp [mark])) inner
    rw [append_assoc] at again
    rw [← cons_append, ← replicate_succ]
    exact again

theorem Marked.of_patternMatch (found : patternMatch pattern name = true) : Marked pattern name := by
  induction pattern generalizing name with
  | nil =>
    obtain rfl : name = [] := by simpa [patternMatch] using found
    exact .nil
  | cons p pattern ih =>
    cases name with
    | nil =>
      rw [stars_of_dropWhile (of_decide_eq_true found)]
      exact marked_stars _
    | cons n name =>
      rw [patternMatch] at found
      by_cases isStar : p = star
      · subst isStar
        simp only [ne_eq, not_true_eq_false, if_false] at found
        cases pattern with
        | nil =>
          have whole := Marked.single (n :: name) (by simp) .nil
          rw [append_nil] at whole
          exact whole
        | cons q pattern =>
          obtain ⟨front, c, rest, split, same, later⟩ := (searchLoop_iff _).mp found
          have marked := ih later
          rw [split]
          by_cases again : q = star
          · subst again
            obtain rfl := toLower_star c (same.symm.trans (by decide))
            exact marked.again front
          · exact .single front (by simpa using again) marked
      · rw [if_pos isStar] at found
        by_cases same : toLower p = toLower n
        · rw [if_neg (not_not.mpr same)] at found
          exact .letter isStar same (ih found)
        · rw [if_pos same] at found
          cases found

theorem patternMatch_star {c : UInt8} {rest : Bytes} (front : Bytes)
    (same : toLower p = toLower c) (found : patternMatch (p :: pattern) (c :: rest) = true) :
    patternMatch (star :: p :: pattern) (front ++ c :: rest) = true := by
  obtain ⟨first, name, split⟩ : ∃ first name, front ++ c :: rest = first :: name :=
    exists_cons_of_ne_nil (by simp)
  have searched := (@searchLoop_iff p (front ++ c :: rest) (patternMatch (p :: pattern))).mpr
    ⟨front, c, rest, rfl, same, found⟩
  rw [split] at searched ⊢
  rw [patternMatch, if_neg (not_not.mpr rfl)]
  exact searched

theorem patternMatch_stars (count : Nat) : patternMatch (List.replicate count star) [] = true := by
  cases count with
  | zero => rfl
  | succ count =>
    rw [replicate_succ, patternMatch, ← replicate_succ]
    simp

theorem patternMatch_single (ends : pattern.head? ≠ some star)
    (found : patternMatch pattern name = true) :
    patternMatch (star :: pattern) (text ++ name) = true := by
  cases pattern with
  | nil =>
    cases whole : text ++ name with
    | nil => rfl
    | cons n rest => rfl
  | cons p pattern =>
    have other : p ≠ star := by simpa using ends
    cases name with
    | nil => simp [patternMatch, other] at found
    | cons c rest =>
      refine patternMatch_star text ?_ found
      by_contra differs
      rw [patternMatch, if_pos other, if_pos differs] at found
      cases found

theorem patternMatch_several (ends : pattern.head? ≠ some star)
    (found : patternMatch pattern name = true) (mark : star ∈ text) (more : Nat) :
    patternMatch (List.replicate (more + 2) star ++ pattern) (text ++ name) = true := by
  induction more generalizing text with
  | zero =>
    obtain ⟨front, back, rfl⟩ := append_of_mem mark
    have last := @patternMatch_single pattern name (star :: back) ends found
    have whole := patternMatch_star front rfl last
    rw [append_assoc]
    exact whole
  | succ more ih =>
    obtain ⟨front, back, rfl⟩ := append_of_mem mark
    have later := @ih (star :: back) (by simp)
    rw [replicate_succ, cons_append] at later
    have whole := patternMatch_star front rfl later
    rw [append_assoc]
    exact whole

theorem Marked.patternMatch (marked : Marked pattern name) : Art.patternMatch pattern name = true := by
  induction marked with
  | nil => rfl
  | letter other same rest ih =>
    rw [Art.patternMatch, if_pos other, if_neg (not_not.mpr same)]
    exact ih
  | single text ends rest ih => exact patternMatch_single ends ih
  | @several pattern name more text ends mark rest ih =>
    rcases mark with mark | ⟨rfl, rfl⟩
    · exact patternMatch_several ends ih mark more
    · cases rest
      rw [append_nil]
      exact patternMatch_stars (more + 2)

theorem patternMatch_iff : patternMatch pattern name = true ↔ Marked pattern name :=
  ⟨Marked.of_patternMatch, Marked.patternMatch⟩

end Patterns

/-- `PatternMatch` finds a match of the pattern exactly where there is none or where there is one in
which the runs of several stars stand for a text with a star in it, or for nothing at the end. -/
theorem patternMatch_glob (pattern name : Bytes) :
    (patternMatch pattern name = true ↔ Glob pattern name) ↔
      (Glob pattern name → Marked pattern name) := by
  rw [patternMatch_iff]
  exact ⟨fun same => same.mpr, fun found => ⟨Marked.glob, found⟩⟩

/-- `**a` and `a`. -/
theorem patternMatch_two_stars :
    ¬(patternMatch [star, star, 97] [97] = true ↔ Glob [star, star, 97] [97]) := by
  intro same
  have glob : Glob [star, star, 97] [97] := .any [] (.any [] (.letter (by decide) rfl .nil))
  have found := same.mpr glob
  revert found
  decide

end AthApps.Art
