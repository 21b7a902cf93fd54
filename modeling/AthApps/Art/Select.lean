import AthApps.Art.Parameter

/-!
# Which entry a name selects

The loops of `ParameterSelectIndexArray` should find the only entry with an
exact match, or else the only one with a match in part.  A match in part after
an exact one of the same entry takes the mark of the exact match away again.
-/

set_option autoImplicit false

namespace AthApps.Art

open Lib (Bytes)
open List Option

/-! ## What a name stands for -/

/-- A name stands for a word when every section of the word but the last is continued after the
period of the name. -/
inductive Matches : Bytes → Bytes → Hit → Prop
  | exact {word : Bytes} (beyond : ended word = true) : Matches [] word .exact
  | part {word : Bytes} (more : ended word = false) : Matches [] word .part
  | letter {c w : UInt8} {name word : Bytes} {hit : Hit} (other : c ≠ 46) (inside : w ≠ 32)
      (same : upperCase w = upperCase c) (rest : Matches name word hit) :
      Matches (c :: name) (w :: word) hit
  | period {name word : Bytes} {hit : Hit} (skipped : Bytes) (none : 46 ∉ skipped)
      (rest : Matches name word hit) : Matches (46 :: name) (skipped ++ 46 :: word) hit

/-- From the first letter to a blank, a bracket or the end. -/
def inputPiece (buffer : Bytes) : Bytes :=
  (input buffer).takeWhile fun c => c ≠ 32 ∧ c ≠ 91

section Words

variable {name word : Bytes} {found : Hit}

theorem matchWord_piece (text word : Bytes) :
    matchWord text word = matchWord (text.takeWhile fun c => c ≠ 32 ∧ c ≠ 91) word := by
  induction text generalizing word with
  | nil => rfl
  | cons c rest ih =>
    by_cases beyond : c = 32 ∨ c = 91
    · rw [takeWhile_cons_of_neg (by simp only [decide_eq_true_eq]; tauto)]
      simp only [matchWord, if_pos beyond]
    · rw [takeWhile_cons_of_pos (by simp only [decide_eq_true_eq]; tauto), matchWord,
        if_neg beyond, matchWord, if_neg beyond]
      cases (if c = 46 then word.dropWhile (· ≠ 46) else word) with
      | nil => rfl
      | cons w tail => simp only [ih]

theorem mem_inputPiece {buffer : Bytes} {c : UInt8} (member : c ∈ inputPiece buffer) :
    c ≠ 32 ∧ c ≠ 91 := by
  have inside := mem_takeWhile_imp member
  simpa using inside

theorem dropWhile_period (word rest : Bytes) (w : UInt8)
    (left : word.dropWhile (· ≠ 46) = w :: rest) :
    ∃ skipped, 46 ∉ skipped ∧ word = skipped ++ 46 :: rest ∧ w = 46 := by
  induction word with
  | nil => cases left
  | cons first tail ih =>
    by_cases stop : first = 46
    · rw [dropWhile_cons_of_neg (by simp [stop])] at left
      obtain ⟨rfl, rfl⟩ := List.cons.inj left
      exact ⟨[], by simp, by rw [stop]; rfl, stop⟩
    · rw [dropWhile_cons_of_pos (by simp [stop])] at left
      obtain ⟨skipped, none, rfl, period⟩ := ih left
      exact ⟨first :: skipped, by simp [none, Ne.symm stop], rfl, period⟩

theorem matchWord_sound (clean : ∀ c ∈ name, c ≠ 32 ∧ c ≠ 91)
    (matched : matchWord name word = some found) : Matches name word found := by
  induction name generalizing word with
  | nil =>
    unfold matchWord at matched
    by_cases beyond : ended word = true
    · rw [if_pos beyond] at matched
      cases matched
      exact .exact beyond
    · rw [if_neg beyond] at matched
      cases matched
      exact .part (Bool.not_eq_true _ ▸ beyond)
  | cons c rest ih =>
    have here := clean c (by simp)
    have tail : ∀ d ∈ rest, d ≠ 32 ∧ d ≠ 91 := fun d member => clean d (by simp [member])
    rw [matchWord, if_neg (by tauto)] at matched
    generalize left : (if c = 46 then word.dropWhile (· ≠ 46) else word) = remaining at matched
    cases remaining with
    | nil => cases matched
    | cons w behind =>
      simp only at matched
      split at matched
      · cases matched
      rename_i inside
      split at matched
      · cases matched
      rename_i same
      have rested := ih tail matched
      by_cases period : c = 46
      · rw [if_pos period] at left
        obtain ⟨skipped, none, rfl, -⟩ := dropWhile_period word behind w left
        rw [period]
        exact .period skipped none rested
      · rw [if_neg period] at left
        rw [left]
        exact .letter period inside (not_not.mp same) rested

theorem matchWord_complete (clean : ∀ c ∈ name, c ≠ 32 ∧ c ≠ 91) (matched : Matches name word found) :
    matchWord name word = some found := by
  induction matched with
  | exact beyond => rw [matchWord, if_pos beyond]
  | part more => rw [matchWord, if_neg (by simp [more])]
  | letter other inside same rest ih =>
    rename_i c w name word found
    have here := clean c (by simp)
    rw [matchWord, if_neg (by tauto), if_neg other]
    simp only
    rw [if_neg inside, if_neg (not_not.mpr same)]
    exact ih fun d member => clean d (by simp [member])
  | period skipped none rest ih =>
    rename_i name word found
    have left : (skipped ++ 46 :: word).dropWhile (· ≠ 46) = 46 :: word := by
      rw [dropWhile_append_of_pos (by
        intro d member
        simp only [decide_eq_true_eq]
        rintro rfl
        exact none member)]
      exact dropWhile_cons_of_neg (by simp)
    rw [matchWord, if_neg (by decide), if_pos rfl, left]
    simp only
    rw [if_neg (by decide), if_neg (by decide)]
    exact ih fun d member => clean d (by simp [member])

theorem mem_hits {buffer : Bytes} {entry : Parameter} :
    found ∈ hits (input buffer) entry ↔
      ∃ word, Option.some word ∈ entry.word.toList ∧ Matches (inputPiece buffer) word found := by
  rw [hits, mem_filterMap]
  constructor
  · rintro ⟨word, member, matched⟩
    cases word with
    | none => cases matched
    | some word =>
      rw [bind_some, matchWord_piece] at matched
      exact ⟨word, member, matchWord_sound (fun c => mem_inputPiece) matched⟩
  · rintro ⟨word, member, matched⟩
    refine ⟨some word, member, ?_⟩
    rw [bind_some, matchWord_piece]
    exact matchWord_complete (fun c => mem_inputPiece) matched

end Words

/-! ## The hits of an entry -/

theorem Best.exactHit_here (best : Best) (il : Nat) (here : best.good = some il) :
    best.exactHit il = some ⟨some il, true, false⟩ := by
  simp [Best.exactHit, Best.elsewhere, here]

def lastMark (mark : Bool) (entry : List Hit) : Bool :=
  match entry.getLast? with
  | none => mark
  | some hit => decide (hit = .exact)

theorem lastMark_cons (mark : Bool) (hit : Hit) (rest : List Hit) :
    lastMark mark (hit :: rest) = lastMark (decide (hit = .exact)) rest := by
  unfold lastMark
  rw [getLast?_cons]
  cases rest.getLast? with
  | none => rfl
  | some final => rfl

theorem hits_here (il : Nat) (entry : List Hit) (exact reject : Bool) :
    entry.foldlM (fun best => best.hit il false) (⟨some il, exact, reject⟩ : Best) =
      some ⟨some il, lastMark exact entry, reject && decide (Hit.exact ∉ entry)⟩ := by
  induction entry generalizing exact reject with
  | nil => simp [lastMark]
  | cons hit rest ih =>
    rw [foldlM_cons, lastMark_cons]
    cases hit with
    | exact =>
      simp only [Best.hit, Best.exactHit_here ⟨some il, exact, reject⟩ il rfl, bind_eq_bind, bind_some]
      rw [ih]
      simp
    | part =>
      have kept : Best.partHit ⟨some il, exact, reject⟩ il false = ⟨some il, false, reject⟩ := by
        simp [Best.partHit, Best.elsewhere]
      simp only [Best.hit, kept, bind_eq_bind, bind_some]
      rw [ih]
      simp

theorem hits_first (il : Nat) (entry : List Hit) (nonempty : entry ≠ []) :
    entry.foldlM (fun best => best.hit il false) (⟨none, false, false⟩ : Best) =
      some ⟨some il, lastMark false entry, false⟩ := by
  cases entry with
  | nil => exact absurd rfl nonempty
  | cons hit rest =>
    rw [foldlM_cons, lastMark_cons]
    cases hit with
    | exact => exact (hits_here il rest true false).trans (by simp)
    | part => exact (hits_here il rest false false).trans (by simp)

section Later

variable {il g : Nat} (other : g ≠ il)

include other

theorem hits_part (entry : List Hit) (none : Hit.exact ∉ entry) (nonempty : entry ≠ [])
    (exact reject : Bool) :
    entry.foldlM (fun best => best.hit il false) (⟨some g, exact, reject⟩ : Best) =
      some ⟨some g, exact, reject || !exact⟩ := by
  have away : ∀ exact reject, Best.partHit ⟨some g, exact, reject⟩ il false =
      ⟨some g, exact, reject || !exact⟩ := by
    intro exact reject
    cases exact <;> simp [Best.partHit, Best.elsewhere, other]
  induction entry generalizing reject with
  | nil => exact absurd rfl nonempty
  | cons hit rest ih =>
    cases hit with
    | exact => exact absurd (by simp) none
    | part =>
      rw [foldlM_cons]
      simp only [Best.hit, away, bind_eq_bind, bind_some]
      cases rest with
      | nil => rfl
      | cons next tail =>
        refine (ih (fun member => none (mem_cons_of_mem _ member)) (by simp) _).trans ?_
        cases exact <;> simp

theorem hits_second (entry : List Hit) (found : Hit.exact ∈ entry) (reject : Bool) :
    entry.foldlM (fun best => best.hit il false) (⟨some g, true, reject⟩ : Best) = none := by
  induction entry generalizing reject with
  | nil => cases found
  | cons hit rest ih =>
    rw [foldlM_cons]
    cases hit with
    | exact => simp [Best.hit, Best.exactHit, Best.elsewhere, other]
    | part =>
      have skipped : Best.partHit ⟨some g, true, reject⟩ il false = ⟨some g, true, reject⟩ := by
        simp [Best.partHit, Best.elsewhere, other]
      simp only [Best.hit, skipped, bind_eq_bind, bind_some]
      exact ih (by simpa using found) reject

theorem hits_better (entry : List Hit) (found : Hit.exact ∈ entry) (reject : Bool) :
    entry.foldlM (fun best => best.hit il false) (⟨some g, false, reject⟩ : Best) =
      some ⟨some il, lastMark false entry, false⟩ := by
  induction entry generalizing reject with
  | nil => cases found
  | cons hit rest ih =>
    rw [foldlM_cons]
    cases hit with
    | exact =>
      rw [lastMark_cons]
      simp only [Best.hit, Best.exactHit, Best.elsewhere, Bool.false_eq_true, and_false, if_false,
        bind_eq_bind, bind_some]
      rw [hits_here]
      simp
    | part =>
      have later : Hit.exact ∈ rest := by simpa using found
      have marked : Best.partHit ⟨some g, false, reject⟩ il false = ⟨some g, false, true⟩ := by
        simp [Best.partHit, Best.elsewhere, other]
      simp only [Best.hit, marked, bind_eq_bind, bind_some]
      rw [ih later true]
      unfold lastMark
      rw [getLast?_cons]
      cases ends : rest.getLast? with
      | none =>
        rw [getLast?_eq_none_iff] at ends
        rw [ends] at later
        cases later
      | some final => rfl

end Later

/-! ## The whole list -/

def At {α : Type} (P : α → Prop) (entries : List α) (i : Nat) : Prop :=
  ∃ entry, entries[i]? = some entry ∧ P entry

def HasExact (entry : List Hit) : Prop := Hit.exact ∈ entry

def KeepsExact (entry : List Hit) : Prop := entry.getLast? = some Hit.exact

theorem At.lt {α : Type} {P : α → Prop} {entries : List α} {i : Nat} (here : At P entries i) :
    i < entries.length := by
  obtain ⟨entry, found, -⟩ := here
  exact (List.getElem?_eq_some_iff.mp found).1

theorem at_concat {α : Type} {P : α → Prop} {front : List α} {entry : α} {i : Nat} :
    At P (front ++ [entry]) i ↔ At P front i ∨ (i = front.length ∧ P entry) := by
  constructor
  · rintro ⟨found, at_i, holds⟩
    by_cases before : i < front.length
    · rw [getElem?_append_left before] at at_i
      exact Or.inl ⟨found, at_i, holds⟩
    · have last : i = front.length := by
        have limit := (List.getElem?_eq_some_iff.mp at_i).1
        rw [length_append, length_singleton] at limit
        omega
      rw [last, getElem?_concat_length] at at_i
      exact Or.inr ⟨last, some.inj at_i ▸ holds⟩
  · rintro (⟨found, at_i, holds⟩ | ⟨rfl, holds⟩)
    · have before := (List.getElem?_eq_some_iff.mp at_i).1
      exact ⟨found, by rw [getElem?_append_left before, at_i], holds⟩
    · exact ⟨entry, getElem?_concat_length, holds⟩

theorem KeepsExact.hasExact {entry : List Hit} (keeps : KeepsExact entry) : HasExact entry :=
  mem_of_getLast? keeps

theorem lastMark_iff {entry : List Hit} (nonempty : entry ≠ []) (mark : Bool) :
    lastMark mark entry = true ↔ KeepsExact entry := by
  unfold lastMark KeepsExact
  cases ends : entry.getLast? with
  | none => exact absurd (getLast?_eq_none_iff.mp ends) nonempty
  | some hit => simp

/-- What the marks say after some of the entries. -/
inductive Tracks (front : List (List Hit)) : Option Best → Prop
  | nothing (absent : ∀ i, ¬At (· ≠ []) front i) : Tracks front (some ⟨none, false, false⟩)
  | parts (i : Nat) (reject : Bool) (noExact : ∀ j, ¬At HasExact front j) (here : At (· ≠ []) front i)
      (rejected : reject = true ↔ ∃ j, j ≠ i ∧ At (· ≠ []) front j) :
      Tracks front (some ⟨some i, false, reject⟩)
  | exact (i : Nat) (mark reject : Bool) (here : At HasExact front i)
      (last : ∀ j, At HasExact front j → j ≤ i) (lost : ∀ j, j < i → ¬At KeepsExact front j)
      (kept : mark = true ↔ At KeepsExact front i)
      (rejected : reject = true ↔ mark = false ∧ ∃ j, i < j ∧ At (· ≠ []) front j) :
      Tracks front (some ⟨some i, mark, reject⟩)
  | twice (i j : Nat) (before : i < j) (first : At KeepsExact front i) (second : At HasExact front j) :
      Tracks front none

section Step

variable {front : List (List Hit)} {entry : List Hit}

theorem at_empty {P : List Hit → Prop} (fails : ¬P entry) (i : Nat) :
    At P (front ++ [entry]) i ↔ At P front i := by
  rw [at_concat]
  exact ⟨fun found => found.resolve_right fun here => fails here.2, Or.inl⟩

theorem Tracks.skip {best : Option Best} (tracks : Tracks front best) :
    Tracks (front ++ [[]]) best := by
  have nonempty := @at_empty front [] (· ≠ []) (by simp)
  have exact := @at_empty front [] HasExact (by simp [HasExact])
  have keeps := @at_empty front [] KeepsExact (by simp [KeepsExact])
  cases tracks with
  | nothing absent => exact .nothing (by simpa only [nonempty] using absent)
  | parts i reject noExact here rejected =>
    exact .parts i reject (by simpa only [exact] using noExact) ((nonempty i).mpr here)
      (by simpa only [nonempty] using rejected)
  | exact i mark reject here last lost kept rejected =>
    exact .exact i mark reject ((exact i).mpr here) (by simpa only [exact] using last)
      (by simpa only [keeps] using lost) (by simpa only [keeps] using kept)
      (by simpa only [nonempty] using rejected)
  | twice i j before first second =>
    exact .twice i j before ((keeps i).mpr first) ((exact j).mpr second)

theorem Tracks.begin (found : HasExact entry) (lost : ∀ j, ¬At KeepsExact front j) :
    Tracks (front ++ [entry]) (some ⟨some front.length, lastMark false entry, false⟩) := by
  have nonempty : entry ≠ [] := ne_nil_of_mem found
  refine .exact front.length _ _ (at_concat.mpr (Or.inr ⟨rfl, found⟩)) ?_ ?_ ?_ ?_
  · intro j at_j
    rcases at_concat.mp at_j with at_j | ⟨rfl, -⟩
    · exact Nat.le_of_lt at_j.lt
    · exact Nat.le_refl _
  · intro j before at_j
    rcases at_concat.mp at_j with at_j | ⟨rfl, -⟩
    · exact lost j at_j
    · exact Nat.lt_irrefl _ before
  · rw [lastMark_iff nonempty, at_concat]
    constructor
    · intro keeps
      exact Or.inr ⟨rfl, keeps⟩
    · rintro (at_j | ⟨-, keeps⟩)
      · exact absurd at_j (lost _)
      · exact keeps
  · constructor
    · intro impossible
      cases impossible
    · rintro ⟨-, j, after, at_j⟩
      have limit := at_j.lt
      rw [length_append, length_singleton] at limit
      omega

theorem Tracks.step {best : Option Best} (tracks : Tracks front best) :
    Tracks (front ++ [entry]) (best.bind fun best =>
      entry.foldlM (fun best => best.hit front.length false) best) := by
  by_cases empty : entry = []
  · rw [empty]
    cases best with
    | none => exact tracks.skip
    | some best => exact tracks.skip
  by_cases found : HasExact entry
  · cases tracks with
    | nothing absent =>
      rw [bind_some, hits_first _ _ empty]
      refine Tracks.begin found fun j at_j => absent j ?_
      obtain ⟨other, at_j, keeps⟩ := at_j
      exact ⟨other, at_j, ne_nil_of_mem keeps.hasExact⟩
    | parts i reject noExact here rejected =>
      rw [bind_some, hits_better here.lt.ne entry found]
      refine Tracks.begin found fun j at_j => noExact j ?_
      obtain ⟨other, at_j, keeps⟩ := at_j
      exact ⟨other, at_j, keeps.hasExact⟩
    | exact i mark reject here last lost kept rejected =>
      rw [bind_some]
      cases mark with
      | false =>
        rw [hits_better here.lt.ne entry found]
        refine Tracks.begin found fun j at_j => ?_
        obtain ⟨other, at_other, keeps⟩ := at_j
        rcases Nat.lt_or_ge j i with less | more
        · exact lost j less ⟨other, at_other, keeps⟩
        · have same : j = i := Nat.le_antisymm (last j ⟨other, at_other, keeps.hasExact⟩) more
          rw [same] at at_other
          exact absurd (kept.mpr ⟨other, at_other, keeps⟩) (by decide)
      | true =>
        rw [hits_second here.lt.ne entry found]
        refine .twice i front.length here.lt (at_concat.mpr (Or.inl (kept.mp rfl)))
          (at_concat.mpr (Or.inr ⟨rfl, found⟩))
    | twice i j before first second =>
      exact .twice i j before (at_concat.mpr (Or.inl first)) (at_concat.mpr (Or.inl second))
  · have exact := @at_empty front entry HasExact found
    have keeps := @at_empty front entry KeepsExact fun keeps => found keeps.hasExact
    cases tracks with
    | nothing absent =>
      rw [bind_some, hits_first _ _ empty]
      have unmarked : lastMark false entry = false := by
        rw [← Bool.not_eq_true, lastMark_iff empty]
        exact fun keeps => found keeps.hasExact
      rw [unmarked]
      refine .parts _ _ ?_ (at_concat.mpr (Or.inr ⟨rfl, empty⟩)) ?_
      · intro j at_j
        obtain ⟨other, at_other, has⟩ := (exact j).mp at_j
        exact absent j ⟨other, at_other, ne_nil_of_mem has⟩
      · constructor
        · intro impossible
          cases impossible
        · rintro ⟨j, differ, at_j⟩
          rcases at_concat.mp at_j with at_j | ⟨same, -⟩
          · exact absurd at_j (absent j)
          · exact absurd same differ
    | parts i reject noExact here rejected =>
      rw [bind_some, hits_part here.lt.ne entry found empty]
      refine .parts i _ (by simpa only [exact] using noExact) (at_concat.mpr (Or.inl here)) ?_
      simp only [Bool.not_false, Bool.or_true, true_iff]
      exact ⟨front.length, here.lt.ne', at_concat.mpr (Or.inr ⟨rfl, empty⟩)⟩
    | exact i mark reject here last lost kept rejected =>
      rw [bind_some, hits_part here.lt.ne entry found empty]
      refine .exact i mark _ ((exact i).mpr here) (by simpa only [exact] using last)
        (by simpa only [keeps] using lost) (by simpa only [keeps] using kept) ?_
      cases mark with
      | false =>
        simp only [Bool.not_false, Bool.or_true, true_and, true_iff]
        exact ⟨front.length, here.lt, at_concat.mpr (Or.inr ⟨rfl, empty⟩)⟩
      | true =>
        have kept : reject = false := by
          rw [← Bool.not_eq_true, rejected]
          simp
        simp [kept]
    | twice i j before first second =>
      exact .twice i j before (at_concat.mpr (Or.inl first)) (at_concat.mpr (Or.inl second))

end Step

/-! ## The result -/

def Only (P : Nat → Prop) (i : Nat) : Prop := P i ∧ ∀ j, P j → j = i

def Last (P : Nat → Prop) (i : Nat) : Prop := P i ∧ ∀ j, P j → j ≤ i

/-- The result that the exact matches and the matches in part ask for. -/
structure Chosen (exactAt partAt : Nat → Prop) (result : Int) : Prop where
  exact : ∀ i, Only exactAt i → result = i
  part : (∀ j, ¬exactAt j) → ∀ i, Only partAt i → result = i
  refused : (∀ i, ¬Only exactAt i) → ((∀ j, ¬exactAt j) → ∀ i, ¬Only partAt i) → result = -1

/-- The marks of the exact matches are not lost, or it makes no difference. -/
inductive Settled (exactAt partAt keepsAt : Nat → Prop) : Prop
  | nowhere (none : ∀ i, ¬exactAt i)
  | once (i : Nat) (only : Only exactAt i) (kept : keepsAt i ∨ ∀ j, i < j → ¬partAt j)
  | several (first last : Nat) (before : first < last) (found : exactAt first)
      (isLast : Last exactAt last)
      (noticed : (∃ i, i < last ∧ keepsAt i) ∨ (¬keepsAt last ∧ ∃ j, last < j ∧ partAt j))

def HasPart (entry : List Hit) : Prop := Hit.part ∈ entry

def answer (best : Option Best) : Int :=
  match best.bind fun best => if best.reject then none else best.good with
  | none => -1
  | some good => good

section Result

variable {entries : List (List Hit)}

theorem hasPart_of_nonempty {entry : List Hit} (nonempty : entry ≠ []) (noExact : ¬HasExact entry) :
    HasPart entry := by
  cases entry with
  | nil => exact absurd rfl nonempty
  | cons hit rest =>
    cases hit with
    | exact => exact absurd (by simp [HasExact]) noExact
    | part => simp [HasPart]

theorem at_part {j : Nat} (noExact : ¬At HasExact entries j) :
    At (· ≠ []) entries j ↔ At HasPart entries j := by
  constructor
  · rintro ⟨entry, found, nonempty⟩
    exact ⟨entry, found, hasPart_of_nonempty nonempty fun has => noExact ⟨entry, found, has⟩⟩
  · rintro ⟨entry, found, has⟩
    exact ⟨entry, found, ne_nil_of_mem has⟩

theorem at_keeps {j : Nat} (keeps : At KeepsExact entries j) : At HasExact entries j := by
  obtain ⟨entry, found, keeps⟩ := keeps
  exact ⟨entry, found, keeps.hasExact⟩

theorem exists_last {α : Type} {P : α → Prop} {entries : List α} {i : Nat}
    (found : At P entries i) : ∃ last, Last (At P entries) last := by
  induction entries using List.reverseRecOn generalizing i with
  | nil => exact absurd found.lt (Nat.not_lt_zero i)
  | append_singleton front entry ih =>
    by_cases holds : P entry
    · refine ⟨front.length, at_concat.mpr (Or.inr ⟨rfl, holds⟩), ?_⟩
      intro j at_j
      have limit := at_j.lt
      rw [length_append, length_singleton] at limit
      omega
    · have same : ∀ j, At P (front ++ [entry]) j ↔ At P front j := by
        intro j
        rw [at_concat]
        exact ⟨fun at_j => at_j.resolve_right fun here => holds here.2, Or.inl⟩
      obtain ⟨last, here, greatest⟩ := ih ((same i).mp found)
      exact ⟨last, (same last).mpr here, fun j at_j => greatest j ((same j).mp at_j)⟩

theorem Tracks.chosen_part {best : Option Best} (tracks : Tracks entries best)
    (noExact : ∀ i, ¬At HasExact entries i) :
    Chosen (At HasExact entries) (At HasPart entries) (answer best) := by
  have partly := fun j => @at_part entries j (noExact j)
  cases tracks with
  | nothing absent =>
    exact ⟨fun i only => absurd only.1 (noExact i),
      fun _ i only => absurd ((partly i).mpr only.1) (absent i), fun _ _ => rfl⟩
  | parts i reject _ here rejected =>
    cases reject with
    | false =>
      have alone : Only (At HasPart entries) i := by
        refine ⟨(partly i).mp here, ?_⟩
        intro j at_j
        apply Classical.byContradiction
        intro differ
        exact absurd (rejected.mpr ⟨j, differ, (partly j).mpr at_j⟩) (by decide)
      refine ⟨fun j only => absurd only.1 (noExact j), ?_, ?_⟩
      · intro _ j only
        rw [only.2 i alone.1]
        rfl
      · intro _ refused
        exact absurd alone (refused noExact i)
    | true =>
      obtain ⟨j, differ, at_j⟩ := rejected.mp rfl
      refine ⟨fun k only => absurd only.1 (noExact k), ?_, fun _ _ => rfl⟩
      intro _ k only
      have first := only.2 i ((partly i).mp here)
      have second := only.2 j ((partly j).mp at_j)
      omega
  | exact i mark reject here last lost kept rejected => exact absurd here (noExact i)
  | twice i j before first second => exact absurd second (noExact j)

theorem Tracks.chosen_exact {best : Option Best} (tracks : Tracks entries best) {i : Nat}
    (found : At HasExact entries i) :
    Chosen (At HasExact entries) (At HasPart entries) (answer best) ↔
      Settled (At HasExact entries) (At HasPart entries) (At KeepsExact entries) := by
  cases tracks with
  | nothing absent =>
    obtain ⟨entry, here, has⟩ := found
    exact absurd ⟨entry, here, ne_nil_of_mem has⟩ (absent i)
  | parts j reject noExact here rejected => exact absurd found (noExact i)
  | twice j k before first second =>
    have apart : ∀ l, ¬Only (At HasExact entries) l := by
      intro l only
      have one := only.2 j (at_keeps first)
      have two := only.2 k second
      omega
    obtain ⟨last, isLast⟩ := exists_last second
    have bound := isLast.2 k second
    refine ⟨fun _ => ?_, fun _ => ?_⟩
    · exact .several j last (by omega) (at_keeps first) isLast (Or.inl ⟨j, by omega, first⟩)
    · exact ⟨fun l only => absurd only (apart l), fun none => absurd found (none i),
        fun _ _ => rfl⟩
  | exact l mark reject here last lost kept rejected =>
    have isLast : Last (At HasExact entries) l := ⟨here, last⟩
    have later : ∀ j, l < j → (At (· ≠ []) entries j ↔ At HasPart entries j) := by
      intro j after
      apply at_part
      intro at_j
      have bound := last j at_j
      omega
    have rejects : reject = true ↔
        ¬At KeepsExact entries l ∧ ∃ j, l < j ∧ At HasPart entries j := by
      rw [rejected, ← Bool.not_eq_true, kept]
      constructor
      · rintro ⟨unmarked, j, after, at_j⟩
        exact ⟨unmarked, j, after, (later j after).mp at_j⟩
      · rintro ⟨unmarked, j, after, at_j⟩
        exact ⟨unmarked, j, after, (later j after).mpr at_j⟩
    by_cases alone : ∃ first, first < l ∧ At HasExact entries first
    · obtain ⟨first, before, at_first⟩ := alone
      have apart : ∀ k, ¬Only (At HasExact entries) k := by
        intro k only
        have one := only.2 l here
        have two := only.2 first at_first
        omega
      constructor
      · intro chosen
        have refused := chosen.refused apart fun none => absurd here (none l)
        cases reject with
        | false => exact absurd refused (by simp [answer])
        | true => exact .several first l before at_first isLast (Or.inr (rejects.mp rfl))
      · intro settled
        have rejection : reject = true := by
          cases settled with
          | nowhere none => exact absurd here (none l)
          | once k only _ => exact absurd only (apart k)
          | several first' last' before' found' isLast' noticed =>
            have same : last' = l := Nat.le_antisymm (last last' isLast'.1) (isLast'.2 l here)
            rw [same] at noticed
            rcases noticed with ⟨k, less, keeps⟩ | noticed
            · exact absurd keeps (lost k less)
            · exact rejects.mpr noticed
        subst rejection
        exact ⟨fun k only => absurd only (apart k), fun none => absurd here (none l),
          fun _ _ => rfl⟩
    · have only : Only (At HasExact entries) l := by
        refine ⟨here, ?_⟩
        intro j at_j
        have bound := last j at_j
        apply Classical.byContradiction
        intro differ
        exact alone ⟨j, by omega, at_j⟩
      constructor
      · intro chosen
        refine .once l only ?_
        have value := chosen.exact l only
        cases reject with
        | true => exact absurd value (by simp [answer])
        | false =>
          by_cases keeps : At KeepsExact entries l
          · exact Or.inl keeps
          · refine Or.inr fun j after at_j => ?_
            exact absurd (rejects.mpr ⟨keeps, j, after, at_j⟩) (by decide)
      · intro settled
        have accepted : reject = false := by
          rw [← Bool.not_eq_true, rejects]
          rintro ⟨unmarked, j, after, at_j⟩
          cases settled with
          | nowhere none => exact absurd here (none l)
          | once k only' kept' =>
            rw [only.2 k only'.1] at kept'
            rcases kept' with keeps | clear
            · exact unmarked keeps
            · exact clear j after at_j
          | several first' last' before' found' isLast' noticed =>
            have same := only.2 last' isLast'.1
            have same' := only.2 first' found'
            omega
        subst accepted
        refine ⟨?_, fun none => absurd here (none l), fun none => absurd only (none l)⟩
        intro k only'
        rw [only'.2 l here]
        rfl

end Result

section Names

variable {cl : List Parameter} {buffer : Bytes}

def MatchAt (hit : Hit) (cl : List Parameter) (buffer : Bytes) (i : Nat) : Prop :=
  buffer ≠ [] ∧ At (fun entry => ∃ word, some word ∈ entry.word.toList ∧
    Matches (inputPiece buffer) word hit) cl i

/-- The last of the words of the entry that match is an exact match. -/
def KeepsAt (cl : List Parameter) (buffer : Bytes) (i : Nat) : Prop :=
  At (fun entry => KeepsExact (hits (input buffer) entry)) cl i

theorem at_map {α β : Type} {P : β → Prop} {f : α → β} {entries : List α} {i : Nat} :
    At P (entries.map f) i ↔ At (fun entry => P (f entry)) entries i := by
  unfold At
  rw [getElem?_map]
  constructor
  · rintro ⟨image, found, holds⟩
    obtain ⟨entry, here, rfl⟩ := map_eq_some_iff.mp found
    exact ⟨entry, here, holds⟩
  · rintro ⟨entry, here, holds⟩
    exact ⟨f entry, by rw [here]; rfl, holds⟩

theorem matchAt_iff (nonempty : buffer ≠ []) (hit : Hit) (i : Nat) :
    At (fun found => hit ∈ found) (cl.map (hits (input buffer))) i ↔ MatchAt hit cl buffer i := by
  rw [at_map]
  simp only [mem_hits]
  exact ⟨fun found => ⟨nonempty, found⟩, And.right⟩

theorem loops_track (plain : ∀ entry ∈ cl, entry.word[0] ≠ some [52, 56]) :
    Tracks (cl.map (hits (input buffer)))
      (cl.zipIdx.foldlM (Best.entry buffer) ⟨none, false, false⟩) := by
  induction cl using List.reverseRecOn with
  | nil => exact .nothing (by simp [At])
  | append_singleton front entry ih =>
    have before : ∀ other ∈ front, other.word[0] ≠ some [52, 56] := fun other member =>
      plain other (mem_append_left _ member)
    have hack : rateHack buffer entry = false := by
      have here := plain entry (by simp)
      simp [rateHack, here]
    have step := @Tracks.step _ (hits (input buffer) entry) _ (ih before)
    rw [zipIdx_append, foldlM_append, map_append]
    simp only [zipIdx_cons, zipIdx_nil, foldlM_cons, foldlM_nil, Best.entry, hack, Nat.zero_add]
    rw [length_map] at step
    simpa using step

theorem index_eq (closed : 91 ∉ buffer) (nonempty : buffer ≠ []) :
    (parameterSelectIndexArray buffer cl).index =
      answer (cl.zipIdx.foldlM (Best.entry buffer) ⟨none, false, false⟩) := by
  have whole : buffer.dropWhile (· ≠ 91) = [] := by
    rw [dropWhile_eq_nil_iff]
    intro c member
    simp only [decide_eq_true_eq]
    rintro rfl
    exact closed member
  unfold parameterSelectIndexArray
  rw [selectName, if_neg nonempty, whole, answer]
  cases (cl.zipIdx.foldlM (Best.entry buffer) ⟨none, false, false⟩).bind fun best =>
      if best.reject then none else best.good with
  | none => rfl
  | some good => rfl

end Names

/-- The index is the right one exactly when the marks of the exact matches are settled. -/
theorem selectIndex_chosen (cl : List Parameter) (buffer : Bytes)
    (plain : ∀ entry ∈ cl, entry.word[0] ≠ some [52, 56]) (closed : 91 ∉ buffer) :
    Chosen (MatchAt .exact cl buffer) (MatchAt .part cl buffer)
        (parameterSelectIndexArray buffer cl).index ↔
      Settled (MatchAt .exact cl buffer) (MatchAt .part cl buffer) (KeepsAt cl buffer) := by
  by_cases nonempty : buffer = []
  · have none : ∀ hit i, ¬MatchAt hit cl buffer i := fun hit i found => found.1 nonempty
    refine ⟨fun _ => .nowhere (none .exact), fun _ => ?_⟩
    refine ⟨fun i only => absurd only.1 (none .exact i),
      fun _ i only => absurd only.1 (none .part i), fun _ _ => ?_⟩
    rw [nonempty]
    rfl
  · have tracks := @loops_track cl buffer plain
    have exact : MatchAt .exact cl buffer = At HasExact (cl.map (hits (input buffer))) :=
      funext fun i => propext (matchAt_iff nonempty .exact i).symm
    have part : MatchAt .part cl buffer = At HasPart (cl.map (hits (input buffer))) :=
      funext fun i => propext (matchAt_iff nonempty .part i).symm
    have keeps : KeepsAt cl buffer = At KeepsExact (cl.map (hits (input buffer))) :=
      funext fun i => propext at_map.symm
    rw [exact, part, keeps, index_eq closed nonempty]
    by_cases found : ∃ i, At HasExact (cl.map (hits (input buffer))) i
    · obtain ⟨i, found⟩ := found
      exact tracks.chosen_exact found
    · have noExact : ∀ i, ¬At HasExact (cl.map (hits (input buffer))) i := fun i at_i =>
        found ⟨i, at_i⟩
      exact ⟨fun _ => .nowhere noExact, fun _ => tracks.chosen_part noExact⟩

/-- `ab` is exactly the first word of the first entry, whose second word `abc` takes the mark away;
then the match in part of `abd` rejects both. -/
def lostMark : List Parameter :=
  [⟨0, #v[some [97, 98], some [97, 98, 99], none], 1, 1, 1⟩,
    ⟨1, #v[some [97, 98, 100], none, none], 1, 1, 1⟩]

theorem lostMark_hits :
    lostMark.map (hits (input [97, 98])) = [[.exact, .part], [.part]] := by decide

theorem selectIndex_lost : ¬Chosen (MatchAt .exact lostMark [97, 98])
    (MatchAt .part lostMark [97, 98]) (parameterSelectIndexArray [97, 98] lostMark).index := by
  intro chosen
  have index : (parameterSelectIndexArray [97, 98] lostMark).index = -1 := by decide
  have only : Only (MatchAt .exact lostMark [97, 98]) 0 := by
    constructor
    · rw [← matchAt_iff (by decide), lostMark_hits]
      exact ⟨[.exact, .part], rfl, by decide⟩
    · intro j found
      rw [← matchAt_iff (by decide), lostMark_hits] at found
      have limit : j < 2 := found.lt
      obtain ⟨entry, here, has⟩ := found
      match j with
      | 0 => rfl
      | 1 =>
        cases here
        revert has
        decide
  have value := chosen.exact 0 only
  rw [index] at value
  cases value

/-- The name `abd` is not rejected there. -/
theorem selectIndex_chosen_other :
    Chosen (MatchAt .exact lostMark [97, 98, 100]) (MatchAt .part lostMark [97, 98, 100])
      (parameterSelectIndexArray [97, 98, 100] lostMark).index := by
  have hitsOf : lostMark.map (hits (input [97, 98, 100])) = [[], [.exact]] := by decide
  have at_hit : ∀ hit i, MatchAt hit lostMark [97, 98, 100] i → i = 1 ∧ hit = .exact := by
    intro hit i found
    rw [← matchAt_iff (by decide), hitsOf] at found
    have limit : i < 2 := found.lt
    obtain ⟨entry, here, has⟩ := found
    match i with
    | 0 =>
      cases here
      cases has
    | 1 =>
      cases here
      exact ⟨rfl, mem_singleton.mp has⟩
  apply (selectIndex_chosen lostMark [97, 98, 100] (by decide) (by decide)).mpr
  refine .once 1 ⟨?_, fun j found => (at_hit .exact j found).1⟩ (Or.inr fun j after found => ?_)
  · rw [← matchAt_iff (by decide), hitsOf]
    exact ⟨[.exact], rfl, by decide⟩
  · have here := (at_hit .part j found).1
    omega

end AthApps.Art
