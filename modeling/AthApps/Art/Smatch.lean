import Mathlib.Data.List.DropRight
import AthApps.Lib.Text

/-!
# Liberal comparison of strings

`Smatch` of `shared/smatch.c` compares two strings in both directions with two
cursors that skip blanks.  Up to the strings that consist of nothing or of blanks
only this is equality of normal forms: without the blanks around the text, with
one space for the blanks inside it, and in lower case.
-/

set_option autoImplicit false

namespace AthApps.Art

open AthApps.Lib List

def space (character : UInt8) : Bool := character = 32 || character = 9

def skip (text : Bytes) : Bytes := text.dropWhile space

/-- The loop of `Ssub` and the test behind it, for what is left of the two texts; a round takes
something of `sub`. -/
@[grind =] def ssubLoop : Nat → Bytes → Bytes → Bool
  | _, [], _ => true
  | _, sub, [] => skip sub = []
  | 0, _, _ => false
  | fuel + 1, s :: sub, l :: line =>
    if space s then
      if space l then ssubLoop fuel (skip sub) (skip line) else false
    else if toLower s ≠ toLower l then false
    else ssubLoop fuel sub line

def ssub (sub line : Bytes) : Bool :=
  if sub = [] ∧ line = [] then true
  else if sub = [] ∧ line ≠ [] then false
  else if sub ≠ [] ∧ line = [] then false
  else ssubLoop sub.length (skip sub) (skip line)

def smatch (text1 text2 : Bytes) : Bool := ssub text1 text2 && ssub text2 text1

@[grind =] def oneSpace : Bytes → Bytes
  | [] => []
  | c :: rest =>
    if space c then
      if rest.head?.any space then oneSpace rest else 32 :: oneSpace rest
    else c :: oneSpace rest

/-- Without the blanks behind the text, with single spaces, in lower case. -/
def trimmed (text : Bytes) : Bytes := (oneSpace (text.rdropWhile space)).map toLower

def normal (text : Bytes) : Bytes := trimmed (skip text)

def Blank (text : Bytes) : Prop := ∀ c ∈ text, space c = true

section Blanks

variable {c : UInt8} {text : Bytes}

theorem skip_length_le (text : Bytes) : (skip text).length ≤ text.length :=
  (dropWhile_suffix _).length_le

theorem skip_cons_of_space (isSpace : space c = true) : skip (c :: text) = skip text :=
  dropWhile_cons_of_pos isSpace

theorem skip_cons_of_not (notSpace : space c = false) : skip (c :: text) = c :: text :=
  dropWhile_cons_of_neg (by simp [notSpace])

theorem skip_skip (text : Bytes) : skip (skip text) = skip text :=
  dropWhile_idempotent space text

theorem skip_eq_nil : skip text = [] ↔ Blank text := dropWhile_eq_nil_iff

theorem space_toLower (c : UInt8) : space (toLower c) = space c := by
  have all : ∀ code < 256, space (toLower (UInt8.ofNat code)) = space (UInt8.ofNat code) := by
    decide +kernel
  have here := all c.toNat c.toNat_lt
  rw [UInt8.ofNat_toNat] at here
  exact here

theorem rdropWhile_cons (stays : (c :: text).rdropWhile space ≠ []) :
    (c :: text).rdropWhile space = c :: text.rdropWhile space := by
  induction text using List.reverseRecOn with
  | nil =>
    by_cases isSpace : space c = true
    · exact absurd (by simp [List.rdropWhile, isSpace]) stays
    · simp [List.rdropWhile, isSpace]
  | append_singleton front last ih =>
    by_cases isSpace : space last = true
    · rw [← cons_append, rdropWhile_concat_pos _ _ _ isSpace] at stays ⊢
      rw [rdropWhile_concat_pos _ _ _ isSpace, ih stays]
    · rw [← cons_append, rdropWhile_concat_neg _ _ _ isSpace,
        rdropWhile_concat_neg _ _ _ isSpace, cons_append]

theorem rdropWhile_ne_nil (notBlank : ¬Blank text) : text.rdropWhile space ≠ [] := by
  intro empty
  exact notBlank fun c member => rdropWhile_eq_nil_iff.mp empty c member

theorem trimmed_nil : trimmed [] = [] := rfl

theorem trimmed_blank (blank : Blank text) : trimmed text = [] := by
  rw [trimmed, rdropWhile_eq_nil_iff.mpr blank]
  rfl

theorem trimmed_cons_of_not (notSpace : space c = false) :
    trimmed (c :: text) = toLower c :: trimmed text := by
  have stays : (c :: text).rdropWhile space ≠ [] := by
    apply rdropWhile_ne_nil
    intro blank
    rw [blank c (by simp)] at notSpace
    cases notSpace
  rw [trimmed, rdropWhile_cons stays, oneSpace]
  simp only [notSpace, Bool.false_eq_true, if_false, map_cons, trimmed]

theorem trimmed_cons_of_space (isSpace : space c = true) (notBlank : ¬Blank text) :
    trimmed (c :: text) = 32 :: trimmed (skip text) := by
  induction text generalizing c with
  | nil => exact absurd (by simp [Blank]) notBlank
  | cons d rest ih =>
    have stays : (d :: rest).rdropWhile space ≠ [] := rdropWhile_ne_nil notBlank
    have stays' : (c :: d :: rest).rdropWhile space ≠ [] := by
      apply rdropWhile_ne_nil
      exact fun blank => notBlank fun each member => blank each (by simp [member])
    have unfolds : trimmed (c :: d :: rest) = if space d then trimmed (d :: rest)
        else 32 :: trimmed (d :: rest) := by
      have tail := rdropWhile_cons stays
      rw [trimmed, rdropWhile_cons stays', trimmed, oneSpace, if_pos isSpace, tail]
      by_cases inner : space d = true
      · rw [if_pos (by simp [inner]), if_pos inner]
      · rw [if_neg (by simp [inner]), if_neg inner, map_cons, show toLower 32 = 32 by decide]
    rw [unfolds]
    by_cases inner : space d = true
    · rw [if_pos inner, skip_cons_of_space inner, ih inner]
      exact fun blank => notBlank fun each member => by
        rcases mem_cons.mp member with rfl | member
        · exact inner
        · exact blank each member
    · rw [if_neg inner, skip_cons_of_not (Bool.eq_false_iff.mpr inner)]

theorem trimmed_eq_nil : trimmed text = [] ↔ Blank text := by
  refine ⟨?_, trimmed_blank⟩
  intro empty
  by_contra notBlank
  cases text with
  | nil => exact notBlank (by simp [Blank])
  | cons c rest =>
    by_cases isSpace : space c = true
    · have inner : ¬Blank rest := by
        intro blank
        apply notBlank
        intro each member
        rcases mem_cons.mp member with rfl | member
        · exact isSpace
        · exact blank each member
      rw [trimmed_cons_of_space isSpace inner] at empty
      cases empty
    · rw [trimmed_cons_of_not (Bool.eq_false_iff.mpr isSpace)] at empty
      cases empty

theorem blank_skip : Blank (skip text) ↔ Blank text := by
  rw [← skip_eq_nil, skip_skip, skip_eq_nil]

theorem normal_eq_nil : normal text = [] ↔ Blank text := by
  rw [normal, trimmed_eq_nil, blank_skip]

end Blanks

section Compare

variable {text1 text2 : Bytes}

theorem ssubLoop_nil (fuel : Nat) (line : Bytes) : ssubLoop fuel [] line = true := by
  cases fuel <;> rfl

theorem ssubLoop_end (fuel : Nat) (sub : Bytes) :
    ssubLoop fuel sub [] = true ↔ Blank sub := by
  cases sub with
  | nil => simp [ssubLoop_nil, Blank]
  | cons s sub =>
    have last : ssubLoop fuel (s :: sub) [] = decide (skip (s :: sub) = []) := by cases fuel <;> rfl
    rw [last, decide_eq_true_iff, skip_eq_nil]

theorem trimmed_cons_eq {s l : UInt8} {sub line : Bytes} (first : space s = true)
    (second : space l = true) :
    trimmed (s :: sub) = trimmed (l :: line) ↔ trimmed (skip sub) = trimmed (skip line) := by
  have blank : ∀ {c : UInt8} {rest : Bytes}, space c = true → Blank rest → Blank (c :: rest) := by
    intro c rest isSpace blank each member
    rcases mem_cons.mp member with rfl | member
    · exact isSpace
    · exact blank each member
  by_cases left : Blank sub
  · rw [trimmed_blank (blank first left), trimmed_blank (blank_skip.mpr left), eq_comm,
      trimmed_eq_nil, eq_comm, trimmed_eq_nil, blank_skip]
    exact ⟨fun all each member => all each (by simp [member]), blank second⟩
  by_cases right : Blank line
  · rw [trimmed_blank (blank second right), trimmed_blank (blank_skip.mpr right),
      trimmed_eq_nil, trimmed_eq_nil, blank_skip]
    exact ⟨fun all each member => all each (by simp [member]), blank first⟩
  · rw [trimmed_cons_of_space first left, trimmed_cons_of_space second right, List.cons.injEq]
    exact and_iff_right rfl

theorem trimmed_cons_ne {s l : UInt8} {sub line : Bytes} (first : space s = true)
    (second : space l = false) : trimmed (s :: sub) ≠ trimmed (l :: line) := by
  rw [trimmed_cons_of_not second]
  intro same
  by_cases blank : Blank (s :: sub)
  · rw [trimmed_blank blank] at same
    cases same
  · have inner : ¬Blank sub := by
      intro inner
      apply blank
      intro each member
      rcases mem_cons.mp member with rfl | member
      · exact first
      · exact inner each member
    rw [trimmed_cons_of_space first inner] at same
    have letter := space_toLower l
    rw [← (List.cons.inj same).1, second] at letter
    cases letter

theorem ssubLoop_both {fuel fuel' : Nat} (enough : text1.length ≤ fuel)
    (enough' : text2.length ≤ fuel') :
    (ssubLoop fuel text1 text2 = true ∧ ssubLoop fuel' text2 text1 = true) ↔
      trimmed text1 = trimmed text2 := by
  induction fuel generalizing fuel' text1 text2 with
  | zero =>
    obtain rfl : text1 = [] := eq_nil_of_length_eq_zero (by omega)
    rw [ssubLoop_nil, ssubLoop_end, trimmed_nil, eq_comm (a := []), trimmed_eq_nil]
    exact and_iff_right rfl
  | succ fuel ih =>
    cases text1 with
    | nil =>
      rw [ssubLoop_nil, ssubLoop_end, trimmed_nil, eq_comm (a := []), trimmed_eq_nil]
      exact and_iff_right rfl
    | cons s sub =>
      cases text2 with
      | nil =>
        rw [ssubLoop_nil, ssubLoop_end, trimmed_nil, trimmed_eq_nil]
        exact and_iff_left rfl
      | cons l line =>
        obtain ⟨fuel', rfl⟩ : ∃ n, fuel' = n + 1 :=
          ⟨fuel' - 1, by rw [length_cons] at enough'; omega⟩
        rw [length_cons] at enough enough'
        have shorter := skip_length_le sub
        have shorter' := skip_length_le line
        rw [ssubLoop, ssubLoop]
        by_cases first : space s = true
        · by_cases second : space l = true
          · rw [if_pos first, if_pos second, if_pos second, if_pos first,
              trimmed_cons_eq first second]
            exact ih (by omega) (by omega)
          · have differs := @trimmed_cons_ne s l sub line first (Bool.eq_false_iff.mpr second)
            rw [if_pos first, if_neg second]
            exact iff_of_false (fun both => Bool.false_ne_true both.1) differs
        · have letter := Bool.eq_false_iff.mpr first
          by_cases second : space l = true
          · have differs := @trimmed_cons_ne l s line sub second letter
            rw [if_neg first, if_pos second, if_neg first]
            exact iff_of_false (fun both => Bool.false_ne_true both.2) differs.symm
          · rw [if_neg first, if_neg second, trimmed_cons_of_not letter,
              trimmed_cons_of_not (Bool.eq_false_iff.mpr second), List.cons.injEq]
            by_cases same : toLower s = toLower l
            · rw [if_neg (not_not.mpr same), if_neg (not_not.mpr same.symm),
                ih (by omega) (by omega)]
              exact (and_iff_right same).symm
            · rw [if_pos same]
              exact iff_of_false (fun both => Bool.false_ne_true both.1) fun both => same both.1

theorem smatch_iff : smatch text1 text2 = true ↔
    (text1 = [] ↔ text2 = []) ∧ normal text1 = normal text2 := by
  have first := skip_length_le text1
  have second := skip_length_le text2
  rw [smatch, ssub, ssub, Bool.and_eq_true]
  by_cases left : text1 = []
  · by_cases right : text2 = []
    · simp [left, right]
    · simp [left, right]
  · by_cases right : text2 = []
    · simp [left, right]
    · simp only [left, right, and_self, ne_eq, not_false_eq_true, and_false, false_and, if_false,
        true_and]
      exact ssubLoop_both first second

end Compare

/-- `Smatch` compares the normal forms, unless one text is empty and the other has blanks only. -/
theorem smatch_normal (text1 text2 : Bytes) :
    (Equivalence fun text1 text2 => smatch text1 text2 = true) ∧
    ((smatch text1 text2 = true ↔ normal text1 = normal text2) ↔
      ¬(text1 = [] ∧ text2 ≠ [] ∧ Blank text2) ∧ ¬(text2 = [] ∧ text1 ≠ [] ∧ Blank text1)) := by
  refine ⟨⟨?_, ?_, ?_⟩, ?_⟩
  · intro text
    exact smatch_iff.mpr ⟨Iff.rfl, rfl⟩
  · intro text1 text2 same
    obtain ⟨empty, forms⟩ := smatch_iff.mp same
    exact smatch_iff.mpr ⟨empty.symm, forms.symm⟩
  · intro text1 text2 text3 first second
    obtain ⟨empty, forms⟩ := smatch_iff.mp first
    obtain ⟨empty', forms'⟩ := smatch_iff.mp second
    exact smatch_iff.mpr ⟨empty.trans empty', forms.trans forms'⟩
  · rw [smatch_iff]
    by_cases left : text1 = []
    · subst left
      by_cases right : text2 = []
      · simp [right]
      · have blank : normal [] = normal text2 ↔ Blank text2 := by
          rw [eq_comm, show normal [] = [] from rfl, normal_eq_nil]
        simp [right, blank]
    · by_cases right : text2 = []
      · have blank : normal text1 = normal [] ↔ Blank text1 := by
          rw [show normal [] = [] from rfl, normal_eq_nil]
        simp [left, right, blank]
      · simp [left, right]

/-- The empty string and a single space. -/
theorem smatch_empty_blank : ¬(smatch [] [32] = true ↔ normal [] = normal [32]) := by decide

end AthApps.Art
