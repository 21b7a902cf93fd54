import Mathlib.Data.List.Basic
import Mathlib.Data.List.TakeWhile

/-!
# A bounded table and the list behind it

Of a list of entries, the first `k` that qualify go to a table of `k` places
in reduced form; everything else spills into a second list.  Listing the
second list first and the table after it, with the reduced entries brought
back, and filling both again gives the same two lists exactly when nothing
that does not qualify comes after the table is full, every entry that spilled
although it qualifies survives the reduction, and the reduced entries of the
table commute with those that spilled; a twist of the entries on the way is
allowed for.
-/

set_option autoImplicit false

namespace AthApps.Lib

open List

variable {α β : Type}

/-- What is left when the first `k` entries that qualify are taken out. -/
@[grind =] def spill (p : α → Bool) : Nat → List α → List α
  | 0, entries => entries
  | _ + 1, [] => []
  | k + 1, entry :: rest => if p entry then spill p k rest else entry :: spill p (k + 1) rest

def kept (p : α → Bool) (k : Nat) (entries : List α) : List α := (entries.filter p).take k

theorem spill_nil (p : α → Bool) (k : Nat) : spill p k [] = [] := by
  cases k <;> rfl

theorem filter_spill (p : α → Bool) (k : Nat) (entries : List α) :
    (spill p k entries).filter p = (entries.filter p).drop k := by
  induction entries generalizing k with
  | nil => simp [spill_nil]
  | cons entry rest ih =>
    cases k with
    | zero => rfl
    | succ k =>
      cases qualifies : p entry
      · simp [spill, qualifies, ih]
      · simp [spill, qualifies, ih]

theorem spill_append (p : α → Bool) (k : Nat) (front back : List α) :
    spill p k (front ++ back) = spill p k front ++ spill p (k - (front.filter p).length) back := by
  induction front generalizing k with
  | nil => simp [spill_nil]
  | cons entry rest ih =>
    cases k with
    | zero => simp [spill]
    | succ k =>
      cases qualifies : p entry
      · simp [spill, qualifies, ih]
      · simp [spill, qualifies, ih]

variable {p : α → Bool} {entries : List α}

theorem spill_of_all (all : ∀ entry ∈ entries, p entry = true)
    (k : Nat) : spill p k entries = entries.drop k := by
  induction entries generalizing k with
  | nil => simp [spill_nil]
  | cons entry rest ih =>
    cases k with
    | zero => rfl
    | succ k =>
      have here := all entry (by simp)
      simp only [spill, here, if_true, drop_succ_cons]
      exact ih (fun other member => all other (by simp [member])) k

theorem spill_of_none
    (none : ∀ entry ∈ entries, p entry = false) (k : Nat) : spill p k entries = entries := by
  induction entries generalizing k with
  | nil => exact spill_nil p k
  | cons entry rest ih =>
    cases k with
    | zero => rfl
    | succ k =>
      have here := none entry (by simp)
      simp only [spill, here, Bool.false_eq_true, if_false]
      rw [ih (fun other member => none other (by simp [member])) (k + 1)]

theorem spill_length (p : α → Bool) (k : Nat) (entries : List α) :
    (spill p k entries).length + (kept p k entries).length = entries.length := by
  induction entries generalizing k with
  | nil => simp [spill_nil, kept]
  | cons entry rest ih =>
    cases k with
    | zero => simp [spill, kept]
    | succ k =>
      cases qualifies : p entry
      · have later := ih (k + 1)
        simp only [spill, kept, qualifies, Bool.false_eq_true, if_false, filter_cons,
          length_cons] at later ⊢
        omega
      · have later := ih k
        simp only [spill, kept, qualifies, if_true, filter_cons, take_succ_cons,
          length_cons] at later ⊢
        omega

theorem spill_map {q : β → Bool} {f : α → β} (same : ∀ entry, q (f entry) = p entry)
    (k : Nat) (entries : List α) : spill q k (entries.map f) = (spill p k entries).map f := by
  induction entries generalizing k with
  | nil => simp [spill_nil]
  | cons entry rest ih =>
    cases k with
    | zero => rfl
    | succ k =>
      cases qualifies : p entry
      · simp [spill, same, qualifies, ih]
      · simp [spill, same, qualifies, ih]

theorem mem_spill_or_kept {p : α → Bool} {k : Nat} {entries : List α} {entry : α} :
    entry ∈ entries ↔ entry ∈ spill p k entries ∨ entry ∈ kept p k entries := by
  induction entries generalizing k with
  | nil => simp [spill_nil, kept]
  | cons first rest ih =>
    cases k with
    | zero => simp [spill, kept]
    | succ k =>
      cases qualifies : p first
      · rw [mem_cons, @ih (k + 1)]
        simp [spill, kept, qualifies, or_assoc]
      · rw [mem_cons, @ih k]
        simp only [spill, kept, qualifies, if_true, filter_cons, take_succ_cons, mem_cons]
        tauto

/-- Everything that qualifies stands behind everything that does not. -/
def Separated (p : α → Bool) (entries : List α) : Prop :=
  ∃ front back, entries = front ++ back ∧ (∀ entry ∈ front, p entry = false) ∧
    ∀ entry ∈ back, p entry = true

/-- Once `k` entries qualified, every later one does. -/
def FullBefore (p : α → Bool) (k : Nat) (entries : List α) : Prop :=
  ∃ front back, entries = front ++ back ∧ (front.filter p).length ≤ k ∧
    ∀ entry ∈ back, p entry = true

variable {rest : List α} {entry : α} {k : Nat}

theorem Separated.cons_false
    (other : p entry = false) : Separated p (entry :: rest) ↔ Separated p rest := by
  constructor
  · rintro ⟨front, back, split, low, high⟩
    cases front with
    | nil =>
      have inside : entry ∈ back := by
        rw [← nil_append back, ← split]
        exact mem_cons_self
      rw [high entry inside] at other
      exact absurd other (by decide)
    | cons first front =>
      have parts := List.cons.inj split
      exact ⟨front, back, parts.2, fun x member => low x (by simp [member]), high⟩
  · rintro ⟨front, back, rfl, low, high⟩
    refine ⟨entry :: front, back, rfl, ?_, high⟩
    intro x member
    rcases mem_cons.mp member with rfl | member
    · exact other
    · exact low x member

theorem FullBefore.cons_false
    (other : p entry = false) : FullBefore p k (entry :: rest) ↔ FullBefore p k rest := by
  constructor
  · rintro ⟨front, back, split, few, high⟩
    cases front with
    | nil =>
      have inside : entry ∈ back := by
        rw [← nil_append back, ← split]
        exact mem_cons_self
      rw [high entry inside] at other
      exact absurd other (by decide)
    | cons first front =>
      obtain ⟨rfl, tail⟩ := List.cons.inj split
      refine ⟨front, back, tail, ?_, high⟩
      simpa [other] using few
  · rintro ⟨front, back, rfl, few, high⟩
    exact ⟨entry :: front, back, rfl, by simpa [other] using few, high⟩

theorem FullBefore.cons_true (qualifies : p entry = true) :
    FullBefore p (k + 1) (entry :: rest) ↔ FullBefore p k rest := by
  constructor
  · rintro ⟨front, back, split, few, high⟩
    cases front with
    | nil =>
      refine ⟨[], rest, rfl, by simp, ?_⟩
      intro x member
      apply high x
      rw [← nil_append back, ← split]
      exact mem_cons_of_mem entry member
    | cons first front =>
      obtain ⟨rfl, tail⟩ := List.cons.inj split
      refine ⟨front, back, tail, ?_, high⟩
      simpa [qualifies] using few
  · rintro ⟨front, back, rfl, few, high⟩
    exact ⟨entry :: front, back, rfl, by simpa [qualifies] using few, high⟩

theorem separated_spill_iff (p : α → Bool) (k : Nat) (entries : List α) :
    Separated p (spill p k entries) ↔ FullBefore p k entries := by
  induction entries generalizing k with
  | nil =>
    rw [spill_nil]
    exact ⟨fun _ => ⟨[], [], rfl, by simp, by simp⟩, fun _ => ⟨[], [], rfl, by simp, by simp⟩⟩
  | cons entry rest ih =>
    cases k with
    | zero =>
      constructor
      · rintro ⟨front, back, split, low, high⟩
        refine ⟨front, back, split, ?_, high⟩
        rw [filter_eq_nil_iff.mpr (by simpa using low)]
        simp
      · rintro ⟨front, back, split, few, high⟩
        refine ⟨front, back, split, ?_, high⟩
        have empty := eq_nil_of_length_eq_zero (Nat.le_zero.mp few)
        simpa using filter_eq_nil_iff.mp empty
    | succ k =>
      cases qualifies : p entry
      · rw [FullBefore.cons_false qualifies, ← ih (k + 1)]
        simp only [spill, qualifies, Bool.false_eq_true, if_false]
        exact Separated.cons_false qualifies
      · rw [FullBefore.cons_true qualifies, ← ih k]
        simp only [spill, qualifies, if_true]

theorem takeWhile_spill_le (other : ∃ entry ∈ entries, p entry = false) (k : Nat) (more : List α) :
    ((spill p k entries ++ more).takeWhile p).length ≤ (entries.takeWhile p).length := by
  induction entries generalizing k with
  | nil => simp at other
  | cons entry rest ih =>
    cases qualifies : p entry with
    | false =>
      have first : spill p k (entry :: rest) = entry :: spill p k rest := by
        cases k with
        | zero => simp [spill]
        | succ k => simp [spill, qualifies]
      simp [first, qualifies]
    | true =>
      have later : ∃ entry ∈ rest, p entry = false := by
        obtain ⟨found, member, low⟩ := other
        rcases mem_cons.mp member with rfl | member
        · rw [qualifies] at low
          exact absurd low (by decide)
        · exact ⟨found, member, low⟩
      cases k with
      | zero =>
        have bound := ih later 0
        simpa [spill, takeWhile_cons, qualifies] using bound
      | succ k =>
        have bound := ih later k
        simp only [spill, qualifies, if_true, takeWhile_cons, length_cons]
        omega

section Twist

variable {twist : α → α} (invisible : ∀ entry, p (twist entry) = p entry)

include invisible

theorem all_of_spill_cons {rest more : List α}
    (qualifies : p entry = true) (same : spill p k rest ++ more = (entry :: rest).map twist) :
    ∀ other ∈ rest, p other = true := by
  by_contra contrary
  push Not at contrary
  obtain ⟨found, member, low⟩ := contrary
  have bound := takeWhile_spill_le ⟨found, member, by simpa using low⟩ k more
  have tests : p ∘ twist = p := funext invisible
  rw [same, takeWhile_map, tests, takeWhile_cons, if_pos qualifies, length_map, length_cons] at bound
  omega

theorem separated_of_spill_eq {entries more : List α}
    (same : spill p (k + 1) entries ++ more = entries.map twist) : Separated p entries := by
  induction entries with
  | nil => exact ⟨[], [], rfl, by simp, by simp⟩
  | cons entry rest ih =>
    cases qualifies : p entry with
    | false =>
      simp only [spill, qualifies, Bool.false_eq_true, if_false, cons_append, map_cons,
        List.cons.injEq] at same
      exact (Separated.cons_false qualifies).mpr (ih same.2)
    | true =>
      simp only [spill, qualifies, if_true] at same
      refine ⟨[], entry :: rest, rfl, by simp, ?_⟩
      intro other member
      rcases mem_cons.mp member with rfl | member
      · exact qualifies
      · exact all_of_spill_cons invisible qualifies same other member

end Twist

theorem Separated.spill (separated : Separated p entries)
    (k : Nat) : ∃ front, (∀ entry ∈ front, p entry = false) ∧ entries = front ++ entries.filter p ∧
      spill p k entries = front ++ (entries.filter p).drop k := by
  obtain ⟨front, back, rfl, low, high⟩ := separated
  have none : front.filter p = [] := filter_eq_nil_iff.mpr (by simpa using low)
  have all : back.filter p = back := filter_eq_self.mpr high
  refine ⟨front, low, by simp [none, all], ?_⟩
  rw [spill_append, spill_of_none low, none]
  simp only [length_nil, Nat.sub_zero, spill_of_all high, filter_append, none, all, nil_append]

theorem forall_mem_of_drop_eq {P : α → Prop} {k : Nat} {entries more : List α} {twist : α → α}
    (shifted : (entries ++ more).drop (k + 1) = entries.map twist)
    (closed : ∀ entry, P (twist entry) → P entry) (holds : ∀ entry ∈ more, P entry) :
    ∀ entry ∈ entries, P entry := by
  have backwards : ∀ distance i (inside : i < entries.length), entries.length - i ≤ distance →
      P (entries.get ⟨i, inside⟩) := by
    intro distance
    induction distance with
    | zero =>
      intro i inside near
      omega
    | succ distance ih =>
      intro i inside near
      have found : (entries ++ more)[i + (k + 1)]? = some (twist (entries.get ⟨i, inside⟩)) := by
        have at_i : ((entries ++ more).drop (k + 1))[i]? = (entries.map twist)[i]? := by rw [shifted]
        rw [getElem?_drop, Nat.add_comm, getElem?_map, getElem?_eq_getElem inside] at at_i
        exact at_i
      apply closed
      by_cases later : i + (k + 1) < entries.length
      · rw [getElem?_append_left later, getElem?_eq_getElem later] at found
        rw [← Option.some.inj found]
        exact ih (i + (k + 1)) later (by omega)
      · rw [getElem?_append_right (Nat.not_lt.mp later)] at found
        exact holds _ (mem_of_getElem? found)
  intro entry member
  obtain ⟨i, inside, rfl⟩ := mem_iff_getElem.mp member
  exact backwards entries.length i inside (Nat.sub_le _ _)

section Refill

variable (p : α → Bool) (reduce : α → β) (restore : β → α)

def relist (k : Nat) (entries : List α) : List α :=
  spill p k entries ++ ((kept p k entries).map reduce).map restore

variable {p reduce restore}

theorem restored_qualifies
    (qualifies : ∀ entry, p entry = true → p (restore (reduce entry)) = true) (k : Nat)
    (entries : List α) :
    ∀ entry ∈ ((kept p k entries).map reduce).map restore, p entry = true := by
  intro entry member
  obtain ⟨reduced, inside, rfl⟩ := mem_map.mp member
  obtain ⟨original, found, rfl⟩ := mem_map.mp inside
  exact qualifies original (mem_filter.mp (mem_of_mem_take found)).2

theorem filter_relist (qualifies : ∀ entry, p entry = true → p (restore (reduce entry)) = true)
    (k : Nat) (entries : List α) :
    (relist p reduce restore k entries).filter p =
      (entries.filter p).drop k ++ ((kept p k entries).map reduce).map restore := by
  have all : (((kept p k entries).map reduce).map restore).filter p =
      ((kept p k entries).map reduce).map restore :=
    filter_eq_self.mpr (restored_qualifies qualifies k entries)
  rw [relist, filter_append, filter_spill, all]

theorem relist_length (k : Nat) (entries : List α) :
    (relist p reduce restore k entries).length = entries.length := by
  rw [relist, length_append, length_map, length_map, spill_length]

theorem spill_relist_length
    (qualifies : ∀ entry, p entry = true → p (restore (reduce entry)) = true)
    (k : Nat) (entries : List α) :
    (spill p k (relist p reduce restore k entries)).length = (spill p k entries).length := by
  have again := spill_length p k (relist p reduce restore k entries)
  have before := spill_length p k entries
  have counts : (kept p k (relist p reduce restore k entries)).length = (kept p k entries).length := by
    unfold kept
    rw [filter_relist qualifies, length_take, length_take, length_append,
      length_map, length_map, kept, length_take, length_drop]
    omega
  rw [relist_length] at again
  omega

theorem spill_relist (qualifies : ∀ entry, p entry = true → p (restore (reduce entry)) = true)
    (k : Nat) (entries : List α) :
    spill p k (relist p reduce restore k entries) = spill p k (spill p k entries) ++
        (((kept p k entries).map reduce).map restore).drop
          (k - ((entries.filter p).drop k).length) := by
  rw [relist, spill_append, filter_spill, spill_of_all (restored_qualifies qualifies k entries)]

theorem kept_map {q : β → Bool} {f : α → β} (same : ∀ entry, q (f entry) = p entry) (k : Nat)
    (entries : List α) : kept q k (entries.map f) = (kept p k entries).map f := by
  have tests : q ∘ f = p := funext same
  rw [kept, kept, filter_map, tests, map_take]

/-- A twist that goes back when it is done twice may change the entries on the way. -/
theorem refill_eq_iff (qualifies : ∀ entry, p entry = true → p (restore (reduce entry)) = true)
    (inverse : ∀ reduced, reduce (restore reduced) = reduced) (twist : α → α) (turn : β → β)
    (invisible : ∀ entry, p (twist entry) = p entry)
    (twice : ∀ entry, twist (twist entry) = entry)
    (reduces : ∀ entry, reduce (twist entry) = turn (reduce entry))
    (restores : ∀ reduced, twist (restore reduced) = restore (turn reduced))
    (k : Nat) (entries : List α) :
    ((spill p (k + 1) (relist p reduce restore (k + 1) entries)).map twist =
        spill p (k + 1) entries ∧
      ((kept p (k + 1) (relist p reduce restore (k + 1) entries)).map reduce).map turn =
        (kept p (k + 1) entries).map reduce) ↔
      FullBefore p (k + 1) entries ∧ (∀ entry ∈ entries, p entry = false → twist entry = entry) ∧
        (∀ entry ∈ (entries.filter p).drop (k + 1), restore (reduce entry) = entry) ∧
        ((entries.filter p).drop (k + 1)).map reduce ++ (kept p (k + 1) entries).map reduce =
          ((kept p (k + 1) entries).map reduce ++
            ((entries.filter p).drop (k + 1)).map reduce).map turn := by
  generalize spilled : (entries.filter p).drop (k + 1) = late
  generalize table : (kept p (k + 1) entries).map reduce = early
  have size : early.length ≤ k + 1 := by
    rw [← table, length_map, kept, length_take]
    exact Nat.min_le_left _ _
  have full : late ≠ [] → early.length = k + 1 := by
    intro some
    rw [← table, length_map, kept, length_take]
    apply Nat.min_eq_left
    by_contra few
    exact some (spilled ▸ drop_eq_nil_of_le (Nat.le_of_not_le few))
  have back : (early.map restore).map reduce = early := by
    rw [map_map]
    exact (map_congr_left fun reduced _ => inverse reduced).trans (map_id early)
  have turned : ∀ list : List β, (list.map turn).map restore = (list.map restore).map twist := by
    intro list
    rw [map_map, map_map]
    exact map_congr_left fun reduced _ => (restores reduced).symm
  have twisted : ∀ list : List α, (list.map twist).map reduce = (list.map reduce).map turn := by
    intro list
    rw [map_map, map_map]
    exact map_congr_left fun entry _ => reduces entry
  have untwist : ∀ {left right : List α}, left.map twist = right ↔ left = right.map twist := by
    have again : ∀ list : List α, (list.map twist).map twist = list := by
      intro list
      rw [map_map]
      exact (map_congr_left fun entry _ => twice entry).trans (map_id list)
    intro left right
    constructor
    · rintro rfl
      exact (again left).symm
    · rintro rfl
      exact again right
  have again : (kept p (k + 1) (relist p reduce restore (k + 1) entries)).map reduce =
      (late.map reduce ++ early).take (k + 1) := by
    rw [kept, filter_relist qualifies, spilled, table, map_take, map_append, back]
  have rest : spill p (k + 1) (relist p reduce restore (k + 1) entries) =
      spill p (k + 1) (spill p (k + 1) entries) ++ (early.map restore).drop (k + 1 - late.length) := by
    rw [spill_relist qualifies, spilled, table]
  have inside : (spill p (k + 1) entries).filter p = late := by rw [filter_spill, spilled]
  have turnTwice : ∀ list : List β, (list.map turn).map turn = list := by
    intro list
    rw [map_map]
    refine (map_congr_left fun reduced _ => ?_).trans (map_id list)
    have there := reduces (restore reduced)
    rw [inverse] at there
    rw [Function.comp, ← there, ← reduces, twice, inverse]
    rfl
  rw [again, rest, ← separated_spill_iff, untwist]
  constructor
  · rintro ⟨sameRest, sameTable⟩
    have separated := separated_of_spill_eq invisible sameRest
    obtain ⟨front, low, whole, taken⟩ := separated.spill (k + 1)
    rw [inside] at whole taken
    rw [taken, whole, map_append, append_assoc] at sameRest
    obtain ⟨sameFront, shifted⟩ := append_inj sameRest (length_map twist).symm
    have shifted : (late ++ early.map restore).drop (k + 1) = late.map twist := by
      rw [drop_append]
      exact shifted
    refine ⟨separated, ?_, ?_, ?_⟩
    · intro entry member fails
      have outside : entry ∉ kept p (k + 1) entries := by
        intro inside
        rw [(mem_filter.mp (mem_of_mem_take inside)).2] at fails
        cases fails
      have spills := (mem_spill_or_kept.mp member).resolve_right outside
      rw [whole] at spills
      rcases mem_append.mp spills with here | here
      · exact (map_inj_left.mp ((map_id front).trans sameFront) entry here).symm
      · rw [← inside] at here
        rw [(mem_filter.mp here).2] at fails
        cases fails
    · apply @forall_mem_of_drop_eq _ (fun entry => restore (reduce entry) = entry) _ _ _ _ shifted
      · intro entry same
        rw [reduces, ← restores] at same
        rw [← twice (restore (reduce entry)), same, twice]
      · intro entry member
        obtain ⟨reduced, -, rfl⟩ := mem_map.mp member
        rw [inverse]
    · have shiftedTable : (late.map reduce ++ early).drop (k + 1) = (late.map reduce).map turn := by
        have mapped := congrArg (List.map reduce) shifted
        rwa [map_drop, map_append, back, twisted] at mapped
      calc late.map reduce ++ early
          = (late.map reduce ++ early).take (k + 1) ++ (late.map reduce ++ early).drop (k + 1) :=
            (take_append_drop (k + 1) _).symm
        _ = (early ++ late.map reduce).map turn := by
            rw [← turnTwice ((late.map reduce ++ early).take (k + 1)), sameTable, shiftedTable,
              map_append]
  · rintro ⟨separated, still, survive, commute⟩
    obtain ⟨front, low, whole, taken⟩ := separated.spill (k + 1)
    rw [inside] at whole taken
    have sameFront : front.map twist = front := by
      refine (map_congr_left fun entry member => still entry ?_ (low entry member)).trans (map_id front)
      exact mem_spill_or_kept.mpr (Or.inl (by rw [whole]; exact mem_append_left _ member))
    have restored : (late.map reduce).map restore = late := by
      rw [map_map]
      exact (map_congr_left survive).trans (map_id late)
    by_cases none : late = []
    · subst none
      rw [append_nil] at whole
      simp only [drop_nil, append_nil, map_nil, nil_append] at taken commute
      refine ⟨?_, ?_⟩
      · rw [taken, whole, sameFront, drop_eq_nil_of_le (by simpa using size), append_nil]
      · rw [map_nil, nil_append, take_of_length_le size, ← commute]
    · have exactly := full none
      refine ⟨?_, ?_⟩
      · have shifted : (late ++ early.map restore).drop (k + 1) = late.map twist := by
          calc (late ++ early.map restore).drop (k + 1)
              = ((late.map reduce ++ early).map restore).drop (k + 1) := by
                rw [map_append, restored]
            _ = ((early.map restore ++ late).map twist).drop (k + 1) := by
                rw [commute, turned, map_append, restored]
            _ = late.map twist := by
                rw [map_append]
                exact drop_left' (by rw [length_map, length_map, exactly])
        rw [drop_append] at shifted
        rw [taken, append_assoc, shifted, whole, map_append, sameFront]
      · rw [commute, map_append, take_left' (by rw [length_map, exactly]), turnTwice]

end Refill

end AthApps.Lib
