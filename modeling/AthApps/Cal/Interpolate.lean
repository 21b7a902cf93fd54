import Mathlib.Data.List.Induction
import Mathlib.Data.List.Nodup
import AthApps.Lib.Checked
import AthApps.Lib.Round

/-!
# Interpolation between calibration points

`interpolate` of `ar9300_eeprom.c` finds the best point below and the best point
above in one pass over the points, in any order, and rounds what lies between
them.  An operation on integers that overflows has no result here.
-/

set_option autoImplicit false

namespace AthApps.Cal

open AthApps.Lib Option List

/-- `px[ip]` and `py[ip]` -/
structure Point where
  px : Int32
  py : Int32
  deriving DecidableEq

/-- The points that `lhave` and `hhave` tell of. -/
structure Neighbours where
  low : Option Point
  high : Option Point
  deriving DecidableEq

def scanHigh (x dx : Int) (high : Option Point) (point : Point) : Option (Option Point) :=
  if dx ≤ 0 then
    match high with
    | none => some (some point)
    | some best => (checked (x - best.px.toInt)).map fun d => if dx > d then some point else high
  else some high

def scanLow (x dx : Int) (low : Option Point) (point : Point) : Option (Option Point) :=
  if dx ≥ 0 then
    match low with
    | none => some (some point)
    | some best => (checked (x - best.px.toInt)).map fun d => if dx < d then some point else low
  else some low

def scanPoint (x : Int) (found : Neighbours) (point : Point) : Option Neighbours := do
  let dx ← checked (x - point.px.toInt)
  let high ← scanHigh x dx found.high point
  let low ← scanLow x dx found.low point
  some ⟨low, high⟩

def between (x : Int) (low high : Point) : Option Int :=
  if high.px = low.px then some low.py.toInt
  else do
    let height ← checked (high.py.toInt - low.py.toInt)
    let twice ← checked (2 * height)
    let dx ← checked (x - low.px.toInt)
    let product ← checked (twice * dx)
    let width ← checked (high.px.toInt - low.px.toInt)
    let bf := product.tdiv width
    let y ← checked (low.py.toInt + bf.tdiv 2)
    checked (y + bf.tmod 2)

def chosen (x : Int) (found : Neighbours) : Option Int :=
  match found.low, found.high with
  | some low, some high => between x low high
  | some low, none => some low.py.toInt
  | none, some high => some high.py.toInt
  | none, none => some (-1073741824)

def interpolate (x : Int32) (points : List Point) : Option Int :=
  (points.foldlM (scanPoint x.toInt) ⟨none, none⟩).bind (chosen x.toInt)

/-- The best point that is not above `x`. -/
structure IsLow (x : Int) (points : List Point) (low : Point) : Prop where
  member : low ∈ points
  below : low.px.toInt ≤ x
  best : ∀ point ∈ points, point.px.toInt ≤ x → point.px.toInt ≤ low.px.toInt

/-- The best point that is not below `x`. -/
structure IsHigh (x : Int) (points : List Point) (high : Point) : Prop where
  member : high ∈ points
  above : x ≤ high.px.toInt
  best : ∀ point ∈ points, x ≤ point.px.toInt → high.px.toInt ≤ point.px.toInt

def LowOf (x : Int) (points : List Point) : Option Point → Prop
  | none => ∀ point ∈ points, x < point.px.toInt
  | some low => IsLow x points low

def HighOf (x : Int) (points : List Point) : Option Point → Prop
  | none => ∀ point ∈ points, point.px.toInt < x
  | some high => IsHigh x points high

section Scan

variable {x : Int} {points front : List Point} {point : Point} {low high : Option Point}

theorem mem_concat : ∀ {other : Point}, other ∈ front ++ [point] ↔ other ∈ front ∨ other = point := by
  simp

theorem LowOf.scan (lowOf : LowOf x front low)
    (reach : ∀ other ∈ front, FitsInt (x - other.px.toInt)) :
    ∃ low', scanLow x (x - point.px.toInt) low point = some low' ∧
      LowOf x (front ++ [point]) low' := by
  unfold scanLow
  by_cases under : x - point.px.toInt ≥ 0
  · rw [if_pos under]
    cases low with
    | none =>
      refine ⟨some point, rfl, by simp, by omega, ?_⟩
      intro other member below
      rcases mem_concat.mp member with member | rfl
      · have above := lowOf other member
        omega
      · exact Int.le_refl _
    | some best =>
      obtain ⟨member, below, isBest⟩ := lowOf
      simp only
      rw [checked_of_fits (reach best member)]
      refine ⟨if x - point.px.toInt < x - best.px.toInt then some point else some best, rfl, ?_⟩
      by_cases better : x - point.px.toInt < x - best.px.toInt
      · rw [if_pos better]
        refine ⟨by simp, by omega, ?_⟩
        intro other inside lower
        rcases mem_concat.mp inside with inside | rfl
        · have limit := isBest other inside lower
          omega
        · exact Int.le_refl _
      · rw [if_neg better]
        refine ⟨by simp [member], below, ?_⟩
        intro other inside lower
        rcases mem_concat.mp inside with inside | rfl
        · exact isBest other inside lower
        · omega
  · rw [if_neg under]
    refine ⟨low, rfl, ?_⟩
    cases low with
    | none =>
      intro other member
      rcases mem_concat.mp member with member | rfl
      · exact lowOf other member
      · omega
    | some best =>
      refine ⟨by simp [lowOf.member], lowOf.below, ?_⟩
      intro other member lower
      rcases mem_concat.mp member with member | rfl
      · exact lowOf.best other member lower
      · omega

theorem HighOf.scan (highOf : HighOf x front high)
    (reach : ∀ other ∈ front, FitsInt (x - other.px.toInt)) :
    ∃ high', scanHigh x (x - point.px.toInt) high point = some high' ∧
      HighOf x (front ++ [point]) high' := by
  unfold scanHigh
  by_cases beyond : x - point.px.toInt ≤ 0
  · rw [if_pos beyond]
    cases high with
    | none =>
      refine ⟨some point, rfl, by simp, by omega, ?_⟩
      intro other member above
      rcases mem_concat.mp member with member | rfl
      · have below := highOf other member
        omega
      · exact Int.le_refl _
    | some best =>
      obtain ⟨member, above, isBest⟩ := highOf
      simp only
      rw [checked_of_fits (reach best member)]
      refine ⟨if x - point.px.toInt > x - best.px.toInt then some point else some best, rfl, ?_⟩
      by_cases better : x - point.px.toInt > x - best.px.toInt
      · rw [if_pos better]
        refine ⟨by simp, by omega, ?_⟩
        intro other inside higher
        rcases mem_concat.mp inside with inside | rfl
        · have limit := isBest other inside higher
          omega
        · exact Int.le_refl _
      · rw [if_neg better]
        refine ⟨by simp [member], above, ?_⟩
        intro other inside higher
        rcases mem_concat.mp inside with inside | rfl
        · exact isBest other inside higher
        · omega
  · rw [if_neg beyond]
    refine ⟨high, rfl, ?_⟩
    cases high with
    | none =>
      intro other member
      rcases mem_concat.mp member with member | rfl
      · exact highOf other member
      · omega
    | some best =>
      refine ⟨by simp [highOf.member], highOf.above, ?_⟩
      intro other member higher
      rcases mem_concat.mp member with member | rfl
      · exact highOf.best other member higher
      · omega

/-- The pass over the points finds the neighbours; the induction is on the points seen so far. -/
theorem scan_finds (reach : ∀ point ∈ points, FitsInt (x - point.px.toInt)) :
    ∃ found, points.foldlM (scanPoint x) ⟨none, none⟩ = some found ∧ LowOf x points found.low ∧
      HighOf x points found.high := by
  induction points using List.reverseRecOn with
  | nil => exact ⟨⟨none, none⟩, rfl, by simp [LowOf], by simp [HighOf]⟩
  | append_singleton front point ih =>
    have before : ∀ other ∈ front, FitsInt (x - other.px.toInt) := fun other member =>
      reach other (by simp [member])
    obtain ⟨found, scanned, lowOf, highOf⟩ := ih before
    obtain ⟨low, lower, lowOf'⟩ := @LowOf.scan x front point _ lowOf before
    obtain ⟨high, higher, highOf'⟩ := @HighOf.scan x front point _ highOf before
    refine ⟨⟨low, high⟩, ?_, lowOf', highOf'⟩
    rw [foldlM_append, scanned]
    simp only [foldlM_cons, foldlM_nil, bind_eq_bind, bind_some, scanPoint,
      checked_of_fits (reach point (by simp)), higher, lower]
    rfl

theorem px_injective (nodup : (points.map Point.px).Nodup) {p q : Point} (first : p ∈ points)
    (second : q ∈ points) (same : p.px.toInt = q.px.toInt) : p = q :=
  inj_on_of_nodup_map nodup first second (Int32.toInt_inj.mp same)

theorem LowOf.unique {low' : Option Point} (nodup : (points.map Point.px).Nodup)
    (first : LowOf x points low) (second : LowOf x points low') : low = low' := by
  cases low with
  | none =>
    cases low' with
    | none => rfl
    | some other =>
      have above := first other second.member
      have below := second.below
      omega
  | some best =>
    cases low' with
    | none =>
      have above := second best first.member
      have below := first.below
      omega
    | some other =>
      have one := first.best other second.member second.below
      have two := second.best best first.member first.below
      rw [px_injective nodup first.member second.member (by omega)]

theorem HighOf.unique {high' : Option Point} (nodup : (points.map Point.px).Nodup)
    (first : HighOf x points high) (second : HighOf x points high') : high = high' := by
  cases high with
  | none =>
    cases high' with
    | none => rfl
    | some other =>
      have below := first other second.member
      have above := second.above
      omega
  | some best =>
    cases high' with
    | none =>
      have below := second best first.member
      have above := first.above
      omega
    | some other =>
      have one := first.best other second.member second.above
      have two := second.best best first.member first.above
      rw [px_injective nodup first.member second.member (by omega)]

end Scan

/-- The values are small enough that no operation overflows. -/
structure Small (x : Int) (points : List Point) : Prop where
  reach : ∀ point ∈ points, FitsInt (x - point.px.toInt)
  width : ∀ low high, IsLow x points low → IsHigh x points high →
    FitsInt (high.px.toInt - low.px.toInt)
  product : ∀ low high, IsLow x points low → IsHigh x points high →
    FitsInt (2 * (high.py.toInt - low.py.toInt) * (x - low.px.toInt))

def line (x : Int) (low high : Point) : ℚ :=
  ((high.py.toInt - low.py.toInt) * (x - low.px.toInt) : Int) /
    ((high.px.toInt - low.px.toInt : Int) : ℚ)

/-- What the value is to be at `x`. -/
structure Interpolated (x : Int) (points : List Point) (y : Int) : Prop where
  lowest : ∀ point ∈ points, (∀ other ∈ points, point.px.toInt ≤ other.px.toInt) →
    x < point.px.toInt → y = point.py.toInt
  highest : ∀ point ∈ points, (∀ other ∈ points, other.px.toInt ≤ point.px.toInt) →
    point.px.toInt < x → y = point.py.toInt
  exact : ∀ point ∈ points, point.px.toInt = x → y = point.py.toInt
  inner : ∀ low high, IsLow x points low → IsHigh x points high → low ≠ high →
    y = low.py.toInt + roundAway (line x low high)
  between : ∀ low high, IsLow x points low → IsHigh x points high →
    min low.py.toInt high.py.toInt ≤ y ∧ y ≤ max low.py.toInt high.py.toInt

section Values

variable {x : Int} {points : List Point} {low high : Point}

/-- The rounded value is between zero and the difference of the two values. -/
theorem round_line (dx : 0 ≤ x - low.px.toInt) (width : 0 < high.px.toInt - low.px.toInt)
    (inside : x - low.px.toInt ≤ high.px.toInt - low.px.toInt) :
    (0 ≤ high.py.toInt - low.py.toInt → 0 ≤ roundAway (line x low high) ∧
      roundAway (line x low high) ≤ high.py.toInt - low.py.toInt) ∧
    (high.py.toInt - low.py.toInt ≤ 0 → high.py.toInt - low.py.toInt ≤ roundAway (line x low high) ∧
      roundAway (line x low high) ≤ 0) := by
  have scaled : ∀ {height : Int}, 0 ≤ height →
      0 ≤ roundAway ((height * (x - low.px.toInt) : Int) / ((high.px.toInt - low.px.toInt : Int) : ℚ)) ∧
      roundAway ((height * (x - low.px.toInt) : Int) / ((high.px.toInt - low.px.toInt : Int) : ℚ)) ≤
        height := by
    intro height nonneg
    have positive : (0 : ℚ) < ((high.px.toInt - low.px.toInt : Int) : ℚ) := by exact_mod_cast width
    apply roundAway_mem
    · apply div_nonneg
      · exact_mod_cast Int.mul_nonneg nonneg dx
      · exact positive.le
    · rw [div_le_iff₀ positive]
      exact_mod_cast Int.mul_le_mul_of_nonneg_left inside nonneg
  constructor
  · exact scaled
  · intro negative
    have mirrored := scaled (Int.neg_nonneg_of_nonpos negative)
    rw [Int.neg_mul, Int.cast_neg, neg_div, roundAway_neg] at mirrored
    unfold line
    omega

theorem between_eq (isLow : IsLow x points low) (isHigh : IsHigh x points high)
    (small : Small x points) (differ : low.px ≠ high.px) :
    between x low high = some (low.py.toInt + roundAway (line x low high)) ∧
      min low.py.toInt high.py.toInt ≤ low.py.toInt + roundAway (line x low high) ∧
      low.py.toInt + roundAway (line x low high) ≤ max low.py.toInt high.py.toInt := by
  have below := isLow.below
  have above := isHigh.above
  have apart : low.px.toInt ≠ high.px.toInt := fun same => differ (Int32.toInt_inj.mp same)
  have strict : low.px.toInt ≠ x := by
    intro same
    have least := isHigh.best low isLow.member (by omega)
    omega
  have product := small.product low high isLow isHigh
  have width := small.width low high isLow isHigh
  have twice : FitsInt (2 * (high.py.toInt - low.py.toInt)) := fitsInt_of_mul (by omega) product
  have height : FitsInt (high.py.toInt - low.py.toInt) := by
    rw [Int.mul_comm] at twice
    exact fitsInt_of_mul (by omega) twice
  have rounds := @truncate_round (high.px.toInt - low.px.toInt)
    ((high.py.toInt - low.py.toInt) * (x - low.px.toInt)) (by omega)
  rw [← Int.mul_assoc] at rounds
  obtain ⟨up, down⟩ := @round_line x low high (by omega) (by omega) (by omega)
  obtain ⟨half, half'⟩ := halve_between
    ((2 * (high.py.toInt - low.py.toInt) * (x - low.px.toInt)).tdiv (high.px.toInt - low.px.toInt))
  rw [rounds] at half half'
  have limits : min low.py.toInt high.py.toInt ≤ low.py.toInt + roundAway (line x low high) ∧
      low.py.toInt + roundAway (line x low high) ≤ max low.py.toInt high.py.toInt := by
    omega
  refine ⟨?_, limits⟩
  have sum := fitsInt_between (fitsInt_toInt low.py) (fitsInt_toInt high.py) (c := low.py.toInt +
    ((2 * (high.py.toInt - low.py.toInt) * (x - low.px.toInt)).tdiv
      (high.px.toInt - low.px.toInt)).tdiv 2) (by
    unfold line at up down
    omega)
  have total := fitsInt_between (fitsInt_toInt low.py) (fitsInt_toInt high.py)
    (c := low.py.toInt + roundAway (line x low high)) (by omega)
  rw [between, if_neg (Ne.symm differ)]
  simp only [checked_of_fits height, checked_of_fits twice, checked_of_fits (small.reach low isLow.member),
    checked_of_fits product, checked_of_fits width, checked_of_fits sum, bind_eq_bind,
    bind_some]
  rw [Int.add_assoc, rounds]
  exact checked_of_fits total

theorem same_point (nodup : (points.map Point.px).Nodup) (isLow : IsLow x points low)
    (isHigh : IsHigh x points high) {point : Point} (member : point ∈ points)
    (here : point.px.toInt = x) : low = point ∧ high = point := by
  have above := isLow.best point member (by omega)
  have below := isHigh.best point member (by omega)
  have under := isLow.below
  have beyond := isHigh.above
  exact ⟨px_injective nodup isLow.member member (by omega),
    px_injective nodup isHigh.member member (by omega)⟩

theorem chosen_interpolated (nodup : (points.map Point.px).Nodup) (small : Small x points)
    {found : Neighbours} (lowOf : LowOf x points found.low) (highOf : HighOf x points found.high) :
    ∃ y, chosen x found = some y ∧ Interpolated x points y := by
  obtain ⟨low, high⟩ := found
  cases low with
  | none =>
    cases high with
    | none =>
      have none : ∀ point ∈ points, False := by
        intro point member
        have above := lowOf point member
        have below := highOf point member
        omega
      exact ⟨_, rfl, fun point member => (none point member).elim,
        fun point member => (none point member).elim,
        fun point member => (none point member).elim,
        fun low high isLow => (none low isLow.member).elim,
        fun low high isLow => (none low isLow.member).elim⟩
    | some high =>
      have absent : ∀ low, ¬IsLow x points low := by
        intro low isLow
        have above := lowOf low isLow.member
        have below := isLow.below
        omega
      refine ⟨_, rfl, ?_, ?_, ?_, fun low high isLow => (absent low isLow).elim,
        fun low high isLow => (absent low isLow).elim⟩
      · intro point member least _
        have first := least high highOf.member
        have best := highOf.best point member (Int.le_of_lt (lowOf point member))
        rw [px_injective nodup member highOf.member (by omega)]
      · intro point member _ below
        have above := lowOf point member
        omega
      · intro point member here
        have above := lowOf point member
        omega
  | some low =>
    cases high with
    | none =>
      have absent : ∀ high, ¬IsHigh x points high := by
        intro high isHigh
        have below := highOf high isHigh.member
        have above := isHigh.above
        omega
      refine ⟨_, rfl, ?_, ?_, ?_, fun low high isLow isHigh => (absent high isHigh).elim,
        fun low high isLow isHigh => (absent high isHigh).elim⟩
      · intro point member _ above
        have below := highOf point member
        omega
      · intro point member most _
        have last := most low lowOf.member
        have best := lowOf.best point member (Int.le_of_lt (highOf point member))
        rw [px_injective nodup member lowOf.member (by omega)]
      · intro point member here
        have below := highOf point member
        omega
    | some high =>
      have only : ∀ low' high', IsLow x points low' → IsHigh x points high' →
          low' = low ∧ high' = high := by
        intro low' high' isLow isHigh
        have lowFound : LowOf x points (some low') := isLow
        have highFound : HighOf x points (some high') := isHigh
        exact ⟨some.inj (lowFound.unique nodup lowOf), some.inj (highFound.unique nodup highOf)⟩
      have inside : (∀ point ∈ points, (∀ other ∈ points, point.px.toInt ≤ other.px.toInt) →
          ¬x < point.px.toInt) ∧
          ∀ point ∈ points, (∀ other ∈ points, other.px.toInt ≤ point.px.toInt) →
            ¬point.px.toInt < x := by
        constructor
        · intro point _ least
          have first := least low lowOf.member
          have below := lowOf.below
          omega
        · intro point _ most
          have last := most high highOf.member
          have above := highOf.above
          omega
      by_cases differ : low.px = high.px
      · have same : low = high :=
          px_injective nodup lowOf.member highOf.member (by rw [differ])
        subst same
        refine ⟨low.py.toInt, if_pos rfl, fun point member least above =>
          absurd above (inside.1 point member least), fun point member most below =>
          absurd below (inside.2 point member most), ?_, ?_, ?_⟩
        · intro point member here
          rw [(same_point nodup lowOf highOf member here).1]
        · intro low' high' isLow isHigh apart
          obtain ⟨rfl, rfl⟩ := only low' high' isLow isHigh
          exact absurd rfl apart
        · intro low' high' isLow isHigh
          obtain ⟨rfl, rfl⟩ := only low' high' isLow isHigh
          omega
      · obtain ⟨value, limits⟩ := between_eq lowOf highOf small differ
        refine ⟨_, value, fun point member least above =>
          absurd above (inside.1 point member least), fun point member most below =>
          absurd below (inside.2 point member most), ?_, ?_, ?_⟩
        · intro point member here
          obtain ⟨rfl, rfl⟩ := same_point nodup lowOf highOf member here
          exact absurd rfl differ
        · intro low' high' isLow isHigh _
          obtain ⟨rfl, rfl⟩ := only low' high' isLow isHigh
          rfl
        · intro low' high' isLow isHigh
          obtain ⟨rfl, rfl⟩ := only low' high' isLow isHigh
          exact limits

variable {other : List Point}

theorem IsLow.perm (perm : other.Perm points) (isLow : IsLow x points low) : IsLow x other low where
  member := perm.mem_iff.mpr isLow.member
  below := isLow.below
  best := fun point member => isLow.best point (perm.mem_iff.mp member)

theorem IsHigh.perm (perm : other.Perm points)
    (isHigh : IsHigh x points high) : IsHigh x other high where
  member := perm.mem_iff.mpr isHigh.member
  above := isHigh.above
  best := fun point member => isHigh.best point (perm.mem_iff.mp member)

theorem LowOf.perm {low : Option Point} (perm : other.Perm points)
    (lowOf : LowOf x points low) : LowOf x other low := by
  cases low with
  | none => exact fun point member => lowOf point (perm.mem_iff.mp member)
  | some low => exact IsLow.perm perm lowOf

theorem HighOf.perm {high : Option Point} (perm : other.Perm points)
    (highOf : HighOf x points high) : HighOf x other high := by
  cases high with
  | none => exact fun point member => highOf point (perm.mem_iff.mp member)
  | some high => exact IsHigh.perm perm highOf

theorem scan_perm (perm : other.Perm points)
    (nodup : (points.map Point.px).Nodup) (reach : ∀ point ∈ points, FitsInt (x - point.px.toInt)) :
    other.foldlM (scanPoint x) ⟨none, none⟩ = points.foldlM (scanPoint x) ⟨none, none⟩ := by
  obtain ⟨⟨low, high⟩, scanned, lowOf, highOf⟩ := scan_finds reach
  obtain ⟨⟨low', high'⟩, scanned', lowOf', highOf'⟩ := @scan_finds x other
    fun point member => reach point (perm.mem_iff.mp member)
  have lower := LowOf.unique nodup (LowOf.perm perm.symm lowOf') lowOf
  have higher := HighOf.unique nodup (HighOf.perm perm.symm highOf') highOf
  simp only at lower higher
  rw [scanned, scanned', lower, higher]

end Values

/-- The value at `x` of any points with different abscissas, in whatever order they come. -/
theorem interpolate_correct (x : Int32) (points : List Point)
    (nodup : (points.map Point.px).Nodup) (small : Small x.toInt points) :
    ∃ y, interpolate x points = some y ∧ Interpolated x.toInt points y ∧
      ∀ other : List Point, other.Perm points → interpolate x other = some y := by
  obtain ⟨found, scanned, lowOf, highOf⟩ := scan_finds small.reach
  obtain ⟨y, value, interpolated⟩ := chosen_interpolated nodup small lowOf highOf
  have result : interpolate x points = some y := by
    rw [interpolate, scanned]
    exact value
  refine ⟨y, result, interpolated, ?_⟩
  intro other perm
  rw [interpolate, scan_perm perm nodup small.reach]
  exact result

/-- Between 7 at 4 and 0 at 0: 1.75 is rounded to 2. -/
theorem interpolate_correct_two :
    ∃ y, interpolate 1 [⟨4, 7⟩, ⟨0, 0⟩] = some y ∧ Interpolated 1 [⟨4, 7⟩, ⟨0, 0⟩] y ∧
      ∀ other : List Point, other.Perm [⟨4, 7⟩, ⟨0, 0⟩] → interpolate 1 other = some y := by
  apply interpolate_correct 1 [⟨4, 7⟩, ⟨0, 0⟩] (by decide)
  constructor
  · decide
  · intro low high isLow isHigh
    have pairs : ∀ low ∈ [(⟨4, 7⟩ : Point), ⟨0, 0⟩], ∀ high ∈ [(⟨4, 7⟩ : Point), ⟨0, 0⟩],
        FitsInt (high.px.toInt - low.px.toInt) := by decide
    exact pairs low isLow.member high isHigh.member
  · intro low high isLow isHigh
    have pairs : ∀ low ∈ [(⟨4, 7⟩ : Point), ⟨0, 0⟩], ∀ high ∈ [(⟨4, 7⟩ : Point), ⟨0, 0⟩],
        FitsInt (2 * (high.py.toInt - low.py.toInt) * (1 - low.px.toInt)) := by decide
    exact pairs low isLow.member high isHigh.member

example : interpolate 1 [⟨4, 7⟩, ⟨0, 0⟩] = some 2 := by decide

end AthApps.Cal
