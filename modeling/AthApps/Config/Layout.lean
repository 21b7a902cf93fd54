import Mathlib.Data.List.Nodup
import AthApps.Config.Rewrite
import AthApps.Config.Splice

/-!
# The bounds of a configuration text

A configuration text is laid out as one slot after another: the unnamed section
first, then the named ones, each in a wrapper of its own with a line before and
a line after it.  Every slot has a bound that goes over the lines of its
section.  The functions on such a bound exchange lines of its slot and leave all
other slots as they are.
-/

set_option autoImplicit false

namespace AthApps.Config

open AthApps.Lib List Option

/-- A section: `body` is the text of `outer`, and the bound within it is from `first` to `last`. -/
structure Slot where
  wrap : Option Nat
  outer : Nat
  bound : Nat
  header : Bytes
  body : Bytes
  footer : Bytes
  first : Nat
  last : Nat

namespace Slot

def text (x : Slot) : Bytes := x.header ++ (x.body ++ x.footer)

def path (x : Slot) : List Nat := x.bound :: x.outer :: x.wrap.toList

structure At (s : Session) (position : Nat) (x : Slot) : Prop where
  cursor : s.bound x.bound = some ⟨x.outer, x.first, x.last⟩
  order : x.first ≤ x.last
  inside : x.last ≤ x.body.length
  bare : x.wrap = none → x.header = [] ∧ x.footer = [] ∧
    s.bound x.outer = some ⟨0, position, position + x.body.length⟩
  wrapped : ∀ w, x.wrap = some w → s.bound w = some ⟨0, position, position + x.text.length⟩ ∧
    s.bound x.outer = some ⟨w, x.header.length, x.header.length + x.body.length⟩

end Slot

def textOf (slots : List Slot) : Bytes := slots.flatMap Slot.text

def namesOf (slots : List Slot) : List Nat := slots.flatMap Slot.path

def Placed (s : Session) : Nat → List Slot → Prop
  | _, [] => True
  | position, x :: rest => x.At s position ∧ Placed s (position + x.text.length) rest

structure Layout (s : Session) (slots : List Slot) : Prop where
  ranked : s.Ranked
  root : s.bound 0 = some ⟨0, 0, (textOf slots).length⟩
  buf : ∃ junk, s.buf = textOf slots ++ junk
  placed : Placed s 0 slots
  nodup : (namesOf slots).Nodup
  inner : 0 ∉ namesOf slots
  live : ∀ i c, s.bound i = some c → i = 0 ∨ i ∈ namesOf slots

section Slots

variable {s after : Session} {slots pre post : List Slot} {x : Slot}

@[simp] theorem textOf_append (pre post : List Slot) :
    textOf (pre ++ post) = textOf pre ++ textOf post := flatMap_append

@[simp] theorem textOf_cons (x : Slot) (rest : List Slot) :
    textOf (x :: rest) = x.text ++ textOf rest := rfl

@[simp] theorem textOf_nil : textOf [] = [] := rfl

@[simp] theorem namesOf_append (pre post : List Slot) :
    namesOf (pre ++ post) = namesOf pre ++ namesOf post := flatMap_append

@[simp] theorem namesOf_cons (x : Slot) (rest : List Slot) :
    namesOf (x :: rest) = x.path ++ namesOf rest := rfl

@[simp] theorem namesOf_nil : namesOf [] = [] := rfl

variable {position i place j w : Nat}

theorem placed_append :
    Placed s position (pre ++ post) ↔
      Placed s position pre ∧ Placed s (position + (textOf pre).length) post := by
  induction pre generalizing position with
  | nil => simp [Placed]
  | cons y rest ih => simp [Placed, ih, and_assoc, Nat.add_assoc]

theorem Layout.at (layout : Layout s (pre ++ x :: post)) : x.At s (textOf pre).length := by
  have placed := (placed_append.mp layout.placed).2
  simpa using placed.1

variable {y : Slot}

theorem placed_of_mem (placed : Placed s position slots) (member : y ∈ slots) :
    ∃ place, y.At s place := by
  obtain ⟨pre, post, rfl⟩ := append_of_mem member
  exact ⟨_, (placed_append.mp placed).2.1⟩

theorem owner_unique {z : Slot} (nodup : (namesOf slots).Nodup) (first : y ∈ slots)
    (second : z ∈ slots) (mine : i ∈ y.path) (yours : i ∈ z.path) : y = z := by
  induction slots with
  | nil => cases first
  | cons w rest ih =>
    obtain ⟨-, later, disjoint⟩ := nodup_append'.mp nodup
    have apart : ∀ {v : Slot}, v ∈ rest → i ∈ w.path → i ∉ v.path := by
      intro v member here there
      exact disjoint here (mem_flatMap.mpr ⟨v, member, there⟩)
    rcases mem_cons.mp first with rfl | member
    · rcases mem_cons.mp second with rfl | member'
      · rfl
      · exact absurd yours (apart member' mine)
    · rcases mem_cons.mp second with rfl | member'
      · exact absurd mine (apart member yours)
      · exact ih later member member'

variable {k : Bound}

theorem Slot.At.parent (at' : y.At s place) (mine : j ∈ y.path) (here : s.bound j = some k) :
    (j = y.bound ∧ k.parent = y.outer) ∨
      (j = y.outer ∧ k.parent = y.wrap.getD 0) ∨ (y.wrap = some j ∧ k.parent = 0) := by
  simp only [Slot.path, mem_cons, mem_toList] at mine
  rcases mine with rfl | rfl | mine
  · cases at'.cursor.symm.trans here
    exact Or.inl ⟨rfl, rfl⟩
  · right
    left
    cases wrap : y.wrap with
    | none =>
      cases (at'.bare wrap).2.2.symm.trans here
      exact ⟨rfl, rfl⟩
    | some w =>
      cases (at'.wrapped w wrap).2.symm.trans here
      exact ⟨rfl, rfl⟩
  · cases (at'.wrapped j mine).1.symm.trans here
    exact Or.inr (Or.inr ⟨mine, rfl⟩)

theorem Layout.parent (layout : Layout s slots) (here : s.bound j = some k) :
    (j = 0 ∧ k.parent = 0) ∨ ∃ y ∈ slots, j ∈ y.path ∧ ((j = y.bound ∧ k.parent = y.outer) ∨
        (j = y.outer ∧ k.parent = y.wrap.getD 0) ∨ (y.wrap = some j ∧ k.parent = 0)) := by
  rcases layout.live j k here with rfl | member
  · exact Or.inl ⟨rfl, layout.ranked.top k here⟩
  · obtain ⟨y, inSlots, mine⟩ := mem_flatMap.mp member
    obtain ⟨place, at'⟩ := placed_of_mem layout.placed inSlots
    exact Or.inr ⟨y, inSlots, mine, at'.parent mine here⟩

theorem Layout.ne_zero (layout : Layout s slots) (member : x ∈ slots) (mine : i ∈ x.path) :
    i ≠ 0 := by
  rintro rfl
  exact layout.inner (mem_flatMap.mpr ⟨x, member, mine⟩)

theorem Slot.bound_mem (x : Slot) : x.bound ∈ x.path := by simp [Slot.path]

theorem Slot.outer_mem (x : Slot) : x.outer ∈ x.path := by simp [Slot.path]

theorem Slot.wrap_mem (wrap : x.wrap = some w) : w ∈ x.path := by
  simp [Slot.path, wrap]

theorem Layout.path_nodup (layout : Layout s slots) (member : x ∈ slots) : x.path.Nodup := by
  obtain ⟨pre, post, rfl⟩ := append_of_mem member
  have nodup := layout.nodup
  simp only [namesOf_append, namesOf_cons] at nodup
  exact (nodup_append'.mp (nodup_append'.mp nodup).2.1).1

/-- The children of the bounds of a slot are the bounds inside them. -/
theorem Layout.child (layout : Layout s slots) (member : x ∈ slots) (mine : k.parent ∈ x.path)
    (here : s.bound j = some k) :
    k.parent = x.outer ∧ j = x.bound ∨ x.wrap = some k.parent ∧ j = x.outer := by
  have notRoot := layout.ne_zero member mine
  rcases layout.parent here with ⟨-, zero⟩ | ⟨y, inSlots, -, cases'⟩
  · exact absurd zero notRoot
  rcases cases' with ⟨rfl, parent⟩ | ⟨rfl, parent⟩ | ⟨-, parent⟩
  · rw [parent] at mine ⊢
    rw [owner_unique layout.nodup inSlots member y.outer_mem mine]
    exact Or.inl ⟨rfl, rfl⟩
  · cases wrap : y.wrap with
    | none =>
      rw [wrap] at parent
      exact absurd parent notRoot
    | some w =>
      rw [wrap, getD_some] at parent
      rw [parent] at mine ⊢
      obtain rfl := owner_unique layout.nodup inSlots member (Slot.wrap_mem wrap) mine
      exact Or.inr ⟨wrap, rfl⟩
  · exact absurd parent notRoot

theorem Layout.alone_outer (layout : Layout s slots) (member : x ∈ slots)
    (here : s.bound j = some k) (child : k.parent = x.outer) : j = x.bound := by
  have nodup := layout.path_nodup member
  rcases layout.child member (child ▸ x.outer_mem) here with ⟨-, same⟩ | ⟨wrap, -⟩
  · exact same
  · simp [Slot.path, wrap, child] at nodup

theorem Layout.alone_wrap (layout : Layout s slots) (member : x ∈ slots)
    (wrap : x.wrap = some k.parent) (here : s.bound j = some k) : j = x.outer := by
  have nodup := layout.path_nodup member
  rcases layout.child member (Slot.wrap_mem wrap) here with ⟨outer, -⟩ | ⟨-, same⟩
  · simp [Slot.path, wrap, outer] at nodup
  · exact same

theorem Layout.childless (layout : Layout s slots) (member : x ∈ slots)
    (here : s.bound j = some k) : k.parent ≠ x.bound := by
  intro child
  have nodup := layout.path_nodup member
  rcases layout.child member (child ▸ x.bound_mem) here with ⟨outer, -⟩ | ⟨wrap, -⟩
  · simp [Slot.path, ← outer, child] at nodup
  · simp [Slot.path, wrap, child] at nodup

theorem Layout.apart (layout : Layout s (pre ++ x :: post)) (inside : y ∈ pre ++ post)
    (mine : i ∈ y.path) : i ∉ x.path := by
  intro yours
  have nodup := layout.nodup
  simp only [namesOf_append, namesOf_cons] at nodup
  rcases mem_append.mp inside with inside | inside
  · exact (nodup_append'.mp nodup).2.2 (mem_flatMap.mpr ⟨y, inside, mine⟩)
      (mem_append_left _ yours)
  · exact (nodup_append'.mp (nodup_append'.mp nodup).2.1).2.2 yours
      (mem_flatMap.mpr ⟨y, inside, mine⟩)

theorem namesOf_exchange (x : Slot) (body : Bytes) (first last : Nat) :
    namesOf (pre ++ { x with body := body, first := first, last := last } :: post) =
      namesOf (pre ++ x :: post) := by
  simp only [namesOf_append, namesOf_cons]
  rfl

variable {front text back new : Bytes}

theorem Layout.reach (layout : Layout s (pre ++ x :: post)) :
    s.Reach x.bound (x.path ++ [0]) (((textOf pre).length : Int) + x.header.length + x.first) := by
  have member : x ∈ pre ++ x :: post := by simp
  have at' := layout.at
  have inner := fun i (mine : i ∈ x.path) => layout.ne_zero member mine
  have root : s.Reach 0 [0] 0 := .root layout.root
  cases wrap : x.wrap with
  | none =>
    obtain ⟨noHeader, -, outer⟩ := at'.bare wrap
    have reached := Session.Reach.inner at'.cursor (inner _ x.bound_mem)
      (.inner outer (inner _ x.outer_mem) root)
    rw [show x.path ++ [0] = [x.bound, x.outer, 0] by simp [Slot.path, wrap], noHeader]
    simpa using reached
  | some w =>
    obtain ⟨wrapper, outer⟩ := at'.wrapped w wrap
    have reached := Session.Reach.inner at'.cursor (inner _ x.bound_mem)
      (.inner outer (inner _ x.outer_mem) (.inner wrapper (inner w (Slot.wrap_mem wrap)) root))
    rw [show x.path ++ [0] = [x.bound, x.outer, w, 0] by simp [Slot.path, wrap]]
    simpa using reached

theorem Layout.inside (layout : Layout s (pre ++ x :: post))
    (body : x.body = front ++ (text ++ back)) (first : x.first = front.length)
    (last : x.last = front.length + text.length) :
    s.Inside x.bound x.path (textOf pre ++ (x.header ++ front)) text
      (back ++ (x.footer ++ textOf post)) := by
  have member : x ∈ pre ++ x :: post := by simp
  have at' := layout.at
  obtain ⟨junk, buf⟩ := layout.buf
  refine ⟨layout.ranked, ?_, ⟨junk, ?_⟩, ⟨_, at'.cursor, ?_⟩, nofun, ?_, ?_⟩
  · rw [layout.root]
    simp only [textOf_append, textOf_cons, Slot.text, body, length_append, some.injEq,
      Bound.mk.injEq, true_and]
    omega
  · rw [buf]
    simp [Slot.text, body]
  · unfold Bound.size
    simp only [first, last]
    omega
  · have reached := layout.reach
    rw [first] at reached
    simpa [Int.add_assoc] using reached
  · intro j k here out child
    rcases mem_cons.mp child with outer | wrap
    · exact absurd (layout.alone_outer member here outer ▸ x.bound_mem) out
    · exact absurd (layout.alone_wrap member (mem_toList.mp wrap) here ▸ x.outer_mem) out

theorem Slot.At.keep (at' : x.At s place) (same : ∀ i ∈ x.path, after.bound i = s.bound i) :
    x.At after place := by
  refine ⟨?_, at'.order, at'.inside, ?_, ?_⟩
  · rw [same _ x.bound_mem]
    exact at'.cursor
  · rw [same _ x.outer_mem]
    exact at'.bare
  · intro w wrap
    rw [same _ x.outer_mem, same w (Slot.wrap_mem wrap)]
    exact at'.wrapped w wrap

theorem Slot.At.known (at' : y.At s place) (mine : i ∈ y.path) :
    ∃ c, s.bound i = some c ∧ (c.parent = 0 → 0 ∉ y.path → c.begin = place) := by
  simp only [Slot.path, mem_cons, mem_toList, not_or] at mine ⊢
  rcases mine with rfl | rfl | wrap
  · exact ⟨_, at'.cursor, fun top apart => absurd top.symm apart.2.1⟩
  · cases wrap : y.wrap with
    | none => exact ⟨_, (at'.bare wrap).2.2, fun _ _ => rfl⟩
    | some w => exact ⟨_, (at'.wrapped w wrap).2, fun top apart => absurd (congrArg some top) apart.2.2⟩
  · exact ⟨_, (at'.wrapped i wrap).1, fun _ _ => rfl⟩

/-- The bounds of a slot grow with its text. -/
theorem Slot.At.splice {addSize : Int} (at' : x.At s place) (body : x.body = front ++ (text ++ back))
    (first : x.first = front.length) (last : x.last = front.length + text.length)
    (size : (new.length : Int) - text.length = addSize)
    (grows : ∀ {i : Nat} {c : Bound}, s.bound i = some c → i ∈ x.path →
      after.bound i = some { c with stop := c.stop + addSize }) :
    ({ x with body := front ++ (new ++ back), last := front.length + new.length } : Slot).At after
      place := by
  refine ⟨?_, ?_, ?_, ?_, ?_⟩
  · rw [grows at'.cursor x.bound_mem]
    simp only [some.injEq, Bound.mk.injEq, true_and, last]
    omega
  · simp only [first]
    omega
  · simp only [length_append]
    omega
  · intro wrap
    obtain ⟨noHeader, noFooter, outer⟩ := at'.bare wrap
    refine ⟨noHeader, noFooter, ?_⟩
    rw [grows outer x.outer_mem]
    simp only [body, length_append, some.injEq, Bound.mk.injEq, true_and]
    omega
  · intro w wrap
    obtain ⟨wrapper, outer⟩ := at'.wrapped w wrap
    rw [grows wrapper (Slot.wrap_mem wrap), grows outer x.outer_mem]
    simp only [Slot.text, body, length_append, some.injEq, Bound.mk.injEq, true_and]
    omega

theorem Slot.At.move {place' : Nat} {addSize : Int} (at' : x.At s place)
    (inner : ∀ i ∈ x.path, i ≠ 0) (there : (place : Int) + addSize = place')
    (keeps : ∀ i ∈ x.path, ∀ c, s.bound i = some c → c.parent ≠ 0 → after.bound i = some c)
    (moves : ∀ i ∈ x.path, ∀ c, s.bound i = some c → c.parent = 0 →
      after.bound i = some { c with begin := c.begin + addSize, stop := c.stop + addSize }) :
    x.At after place' := by
  refine ⟨keeps _ x.bound_mem _ at'.cursor (inner _ x.outer_mem), at'.order, at'.inside, ?_, ?_⟩
  · intro wrap
    obtain ⟨noHeader, noFooter, outer⟩ := at'.bare wrap
    refine ⟨noHeader, noFooter, ?_⟩
    rw [moves _ x.outer_mem _ outer rfl]
    simp only [some.injEq, Bound.mk.injEq, true_and]
    omega
  · intro w wrap
    obtain ⟨wrapper, outer⟩ := at'.wrapped w wrap
    refine ⟨?_, keeps _ x.outer_mem _ outer (inner _ (Slot.wrap_mem wrap))⟩
    rw [moves w (Slot.wrap_mem wrap) _ wrapper rfl]
    simp only [some.injEq, Bound.mk.injEq, true_and]
    omega

theorem placed_keep (placed : Placed s position slots)
    (same : ∀ y ∈ slots, ∀ place, place < position + (textOf slots).length → y.At s place →
      y.At after place) (filled : ∀ y ∈ slots, y.text ≠ []) : Placed after position slots := by
  induction slots generalizing position with
  | nil => exact True.intro
  | cons y rest ih =>
    obtain ⟨here, later⟩ := placed
    have positive : 0 < y.text.length := length_pos_of_ne_nil (filled y (by simp))
    refine ⟨same y (by simp) position (by simp; omega) here, ih later ?_
      (fun z member => filled z (by simp [member]))⟩
    intro z member place before
    apply same z (by simp [member]) place
    simp only [textOf_cons, length_append]
    omega

theorem placed_move {position position' : Nat} {addSize : Int}
    (there : (position : Int) + addSize = position') (placed : Placed s position slots)
    (moves : ∀ y ∈ slots, ∀ (place place' : Nat), position ≤ place → (place : Int) + addSize = place' →
      y.At s place → y.At after place') : Placed after position' slots := by
  induction slots generalizing position position' with
  | nil => exact True.intro
  | cons y rest ih =>
    obtain ⟨here, later⟩ := placed
    refine ⟨moves y (by simp) position position' (Nat.le_refl _) there here,
      ih (by omega) later ?_⟩
    intro z member place place' behind
    exact moves z (by simp [member]) place place' (by omega)

/-- The text of a bound is exchanged: its slot has it, and all other slots stay as they are. -/
theorem Layout.splice (layout : Layout s (pre ++ x :: post))
    (filled : ∀ y ∈ pre, y.text ≠ []) (body : x.body = front ++ (text ++ back))
    (first : x.first = front.length) (last : x.last = front.length + text.length)
    (spliced : s.Spliced after x.path (textOf pre ++ (x.header ++ front)) text new
      (back ++ (x.footer ++ textOf post))) :
    Layout after (pre ++
      { x with body := front ++ (new ++ back), last := front.length + new.length } :: post) := by
  have member : x ∈ pre ++ x :: post := by simp
  have at' := layout.at
  obtain ⟨junk, buf⟩ := spliced.buf
  have placed := placed_append.mp layout.placed
  generalize size : ((new.length : Int) - text.length) = addSize at spliced
  have bound : ∀ {i : Nat} {c : Bound}, s.bound i = some c →
      after.bound i = some (Session.adjusted x.path
        ((textOf pre ++ (x.header ++ front)).length + text.length) addSize i c) := by
    intro i c here
    rw [spliced.bound i, here, size]
    rfl
  have grows : ∀ {i : Nat} {c : Bound}, s.bound i = some c → i ∈ x.path ∨ i = 0 →
      after.bound i = some { c with stop := c.stop + addSize } := by
    intro i c here onWay
    rw [bound here, Session.adjusted, if_pos onWay]
  have others : ∀ {y : Slot} {i : Nat}, y ∈ pre ++ post → i ∈ y.path → i ∉ x.path ∧ i ≠ 0 := by
    intro y i inside mine
    refine ⟨layout.apart inside mine, layout.ne_zero ?_ mine⟩
    rcases mem_append.mp inside with inside | inside <;> simp [inside]
  have bare : ∀ {y : Slot} {i : Nat} {c : Bound}, y ∈ pre ++ post → i ∈ y.path →
      s.bound i = some c → c.parent ≠ 0 ∨ c.begin < (textOf pre ++ (x.header ++ front)).length +
        text.length → after.bound i = some c := by
    intro y i c inside mine here stays
    obtain ⟨out, notRoot⟩ := others inside mine
    rw [bound here, Session.adjusted, if_neg (by simp [out, notRoot]), if_neg]
    rintro ⟨top, behind⟩
    rcases stays with deep | before
    · exact deep top
    · omega
  -- a bound at the top begins where its slot does
  have begins : ∀ {y : Slot} {i place : Nat}, y ∈ pre ++ post → i ∈ y.path → y.At s place →
      ∃ c, s.bound i = some c ∧ (c.parent = 0 → c.begin = place) := by
    intro y i place inside mine atY
    obtain ⟨c, here, begins⟩ := atY.known mine
    exact ⟨c, here, fun top => begins top fun zero => (others inside zero).2 rfl⟩
  refine ⟨spliced.ranked layout.ranked, ?_, ⟨junk, ?_⟩, ?_, ?_, ?_, ?_⟩
  · rw [grows layout.root (Or.inr rfl)]
    simp only [textOf_append, textOf_cons, Slot.text, body, length_append, some.injEq,
      Bound.mk.injEq, true_and]
    omega
  · rw [buf]
    simp [Slot.text]
  · refine placed_append.mpr ⟨?_, placed.2.1.splice body first last size fun here mine =>
      grows here (Or.inl mine), ?_⟩
    · refine placed_keep placed.1 (fun y inside place before atY => atY.keep fun i mine => ?_) filled
      have inside' : y ∈ pre ++ post := mem_append_left _ inside
      obtain ⟨c, here, begins⟩ := begins inside' mine atY
      rw [here]
      refine bare inside' mine here (or_iff_not_imp_left.mpr fun top => ?_)
      rw [begins (not_not.mp top)]
      simp only [length_append]
      omega
    · refine @placed_move s after post _ _ addSize ?_ placed.2.2 ?_
      · simp only [Slot.text, body, length_append]
        omega
      · intro y inside place place' behind there atY
        have inside' : y ∈ pre ++ post := mem_append_right _ inside
        refine atY.move (fun i mine => (others inside' mine).2) there
          (fun i mine c here deep => bare inside' mine here (Or.inl deep)) fun i mine c here top => ?_
        obtain ⟨out, notRoot⟩ := others inside' mine
        obtain ⟨k, here', begins⟩ := begins inside' mine atY
        obtain rfl := some.inj (here'.symm.trans here)
        rw [bound here, Session.adjusted, if_neg (by simp [out, notRoot]), if_pos]
        refine ⟨top, ?_⟩
        rw [begins top]
        simp only [Slot.text, body, length_append] at behind
        simp only [length_append]
        omega
  · rw [namesOf_exchange x]
    exact layout.nodup
  · rw [namesOf_exchange x]
    exact layout.inner
  · intro i c here
    rw [spliced.bound i] at here
    obtain ⟨k, known, -⟩ := map_eq_some_iff.mp here
    rw [namesOf_exchange x]
    exact layout.live i k known

theorem Layout.cursor {begin stop : Nat} (layout : Layout s (pre ++ x :: post))
    (order : begin ≤ stop) (inside : stop ≤ x.body.length)
    (bound : after.bound = Function.update s.bound x.bound (some ⟨x.outer, begin, stop⟩))
    (buf : after.buf = s.buf) (allocated : after.allocated = s.allocated) :
    Layout after (pre ++ { x with first := begin, last := stop } :: post) := by
  have member : x ∈ pre ++ x :: post := by simp
  have at' := layout.at
  have other : ∀ {i : Nat}, i ≠ x.bound → after.bound i = s.bound i := by
    intro i apart
    rw [bound, Function.update_of_ne apart]
  have nodup := layout.path_nodup member
  have outer : x.outer ≠ x.bound := by
    intro same
    simp [Slot.path, same] at nodup
  have apart : ∀ {y : Slot} {i : Nat}, y ∈ pre ++ post → i ∈ y.path → i ≠ x.bound := by
    rintro y i inside mine rfl
    exact layout.apart inside mine x.bound_mem
  have ranked : after.Ranked := layout.ranked.update bound
    (allocated ▸ layout.ranked.old _ _ at'.cursor) (Nat.le_of_eq allocated.symm)
    (layout.ranked.after x.bound ⟨x.outer, x.first, x.last⟩ at'.cursor
      (layout.ne_zero member x.bound_mem))
  have stays : ∀ {place : Nat} {l : List Slot}, (∀ y ∈ l, y ∈ pre ++ post) →
      Placed s place l → Placed after place l := by
    intro place l
    induction l generalizing place with
    | nil => exact fun _ _ => True.intro
    | cons y rest ih =>
      rintro inside ⟨here, later⟩
      refine ⟨here.keep fun i mine => other (apart (inside y (by simp)) mine), ih ?_ later⟩
      intro z member
      exact inside z (by simp [member])
  have placed := placed_append.mp layout.placed
  refine ⟨ranked, ?_, ?_, ?_, ?_, ?_, ?_⟩
  · rw [other (Ne.symm (layout.ne_zero member x.bound_mem)), layout.root]
    simp only [textOf_append, textOf_cons]
    rfl
  · have shows := layout.buf
    simp only [textOf_append, textOf_cons] at shows ⊢
    rw [buf]
    exact shows
  · refine placed_append.mpr ⟨stays (fun y inside => by simp [inside]) placed.1, ?_,
      stays (fun y inside => by simp [inside]) placed.2.2⟩
    refine ⟨by rw [bound, Function.update_self], order, inside, ?_, ?_⟩
    · intro wrap
      obtain ⟨noHeader, noFooter, here⟩ := placed.2.1.bare wrap
      exact ⟨noHeader, noFooter, by rw [other outer]; exact here⟩
    · intro w wrap
      obtain ⟨wrapper, here⟩ := placed.2.1.wrapped w wrap
      refine ⟨?_, by rw [other outer]; exact here⟩
      rw [other]
      · exact wrapper
      · rintro rfl
        have again : x.wrap = some x.bound := wrap
        simp [Slot.path, again] at nodup
  · rw [namesOf_exchange x]
    exact layout.nodup
  · rw [namesOf_exchange x]
    exact layout.inner
  · intro i c here
    rw [namesOf_exchange x]
    by_cases same : i = x.bound
    · right
      rw [same]
      simp [x.bound_mem]
    · rw [other same] at here
      exact layout.live i c here

theorem freeChildren_leaf {b : Nat} (leaf : ∀ j k, s.bound j = some k → j ≠ 0 → k.parent ≠ b) :
    (s.freeChildren b).bound = s.bound := by
  have free : ∀ {fuel i : Nat}, i ≠ b → s.isUnder b fuel i = false := by
    intro fuel
    induction fuel with
    | zero =>
      intro i apart
      simp [Session.isUnder, apart]
    | succ fuel ih =>
      intro i apart
      rw [Session.isUnder]
      by_cases zero : i = 0
      · simp [zero, Ne.symm (zero ▸ apart.symm)]
      · cases here : s.bound i with
        | none => simp [apart]
        | some k => simp [apart, ih (leaf i k here zero)]
  funext i
  rw [Session.freeChildren, Session.bound_keepNodes]
  by_cases same : i = b
  · simp [same]
  · simp [free same]

theorem Layout.leaf (layout : Layout s (pre ++ x :: post)) :
    (s.freeChildren x.bound).bound = s.bound :=
  freeChildren_leaf fun _ _ here _ => layout.childless (by simp) here

theorem Slot.At.outer (at' : x.At s place) :
    ∃ c, s.bound x.outer = some c ∧ c.size = x.body.length := by
  cases wrap : x.wrap with
  | none =>
    refine ⟨_, (at'.bare wrap).2.2, ?_⟩
    unfold Bound.size
    simp only
    omega
  | some w =>
    refine ⟨_, (at'.wrapped w wrap).2, ?_⟩
    unfold Bound.size
    simp only
    omega

theorem Layout.moved {begin stop : Nat} (layout : Layout s (pre ++ x :: post))
    (order : begin ≤ stop) (inside : stop ≤ x.body.length) :
    Layout ((s.freeChildren x.bound).setBound x.bound ⟨x.outer, begin, stop⟩)
      (pre ++ { x with first := begin, last := stop } :: post) := by
  apply layout.cursor order inside
  · rw [Session.bound_setBound, layout.leaf]
  · rfl
  · rfl

theorem Layout.rewind (layout : Layout s (pre ++ x :: post)) :
    ∃ after, s.configeditRewind x.bound = some after ∧
      Layout after (pre ++ { x with first := 0, last := 0 } :: post) := by
  have moved := @Layout.moved s pre post x 0 0 layout (Nat.le_refl 0) (Nat.zero_le _)
  refine ⟨_, ?_, moved⟩
  rw [Session.configeditRewind, layout.at.cursor]
  rfl

theorem Layout.seekend (layout : Layout s (pre ++ x :: post)) :
    ∃ after, s.configeditSeekend x.bound = some after ∧
      Layout after (pre ++ { x with first := x.body.length, last := x.body.length } :: post) := by
  have moved := @Layout.moved s pre post x x.body.length x.body.length layout (Nat.le_refl _)
    (Nat.le_refl _)
  obtain ⟨c, outer, size⟩ := layout.at.outer
  refine ⟨_, ?_, moved⟩
  rw [Session.configeditSeekend, layout.at.cursor]
  simp only [bind_eq_bind, bind_some, outer, size]

theorem Layout.ptr (layout : Layout s (pre ++ x :: post)) :
    s.configeditPtr x.bound = some (((textOf pre).length : Int) + x.header.length + x.first) :=
  layout.reach.configeditPtr layout.ranked fun c known => by
    cases layout.root.symm.trans known
    rfl

theorem Layout.reads {front rest : Bytes} {offset : Int}
    (layout : Layout s (pre ++ x :: post)) (body : x.body = front ++ rest)
    (start : offset = ((textOf pre).length : Int) + x.header.length + front.length) :
    ∃ junk, s.reads offset = some (rest ++ (x.footer ++ (textOf post ++ junk))) := by
  obtain ⟨junk, buf⟩ := layout.buf
  refine ⟨junk, @Session.reads_eq s (textOf pre ++ (x.header ++ front)) _ offset ?_ ?_⟩
  · rw [buf]
    simp [Slot.text, body]
  · rw [start]
    simp only [length_append]
    omega

theorem Layout.textAt {front rest : Bytes} (layout : Layout s (pre ++ x :: post))
    (body : x.body = front ++ rest) (first : x.first = front.length) :
    ∃ junk, s.textAt x.bound = some (rest ++ (x.footer ++ (textOf post ++ junk))) := by
  obtain ⟨junk, read⟩ := @Layout.reads s pre post x front rest _ layout body rfl
  refine ⟨junk, ?_⟩
  rw [Session.textAt, layout.ptr, first]
  exact read

theorem Layout.nextLine {front rest : Bytes} (layout : Layout s (pre ++ x :: post))
    (body : x.body = front ++ rest) (last : x.last = front.length) :
    ∃ after, s.configeditNextLine x.bound = some (after, (Session.lineSize rest : Int)) ∧
      Layout after (pre ++
        { x with first := front.length,
                 last := front.length + Session.lineSize rest } :: post) := by
  have bound := Session.lineSize_le rest
  have size : x.body.length = front.length + rest.length := by rw [body, length_append]
  have middle := @Layout.moved s pre post x front.length front.length layout (Nat.le_refl _)
    (by omega)
  have moved := @Layout.moved s pre post x front.length (front.length + Session.lineSize rest)
    layout (Nat.le_add_right _ _) (by omega)
  obtain ⟨c, outer, outerSize⟩ := layout.at.outer
  have ptr := middle.ptr
  obtain ⟨junk, read⟩ := @Layout.reads _ pre post
    { x with first := front.length, last := front.length } front rest
    (((textOf pre).length : Int) + x.header.length + front.length) middle body rfl
  obtain ⟨junk', buf⟩ := layout.buf
  have room : ¬ (((textOf pre).length : Int) + x.header.length + front.length +
      (x.body.length - front.length) > ((s.freeChildren x.bound).setBound x.bound
        ⟨x.outer, front.length, front.length⟩).bufSize) := by
    change ¬ (_ > (s.buf.length : Int))
    rw [buf]
    simp only [textOf_append, textOf_cons, Slot.text, length_append]
    omega
  refine ⟨_, ?_, moved⟩
  rw [Session.configeditNextLine, layout.at.cursor]
  simp only [bind_eq_bind, bind_some, outer, outerSize, last]
  have take : (rest ++ (x.footer ++ (textOf post ++ junk))).take
      ((x.body.length : Int) - front.length).toNat = rest := by
    rw [show ((x.body.length : Int) - front.length).toNat = rest.length by omega]
    exact take_left
  have ptr' : ((s.freeChildren x.bound).setBound x.bound
      ⟨x.outer, front.length, front.length⟩).configeditPtr x.bound =
      some (((textOf pre).length : Int) + x.header.length + front.length) := ptr
  have read' : ((s.freeChildren x.bound).setBound x.bound
      ⟨x.outer, front.length, front.length⟩).reads
      (((textOf pre).length : Int) + x.header.length + front.length) =
        some (rest ++ (x.footer ++ (textOf post ++ junk))) := read
  rw [ptr']
  simp only [bind_some]
  rw [if_neg room, read']
  simp only [bind_some, take, Session.setBound_setBound]
  rfl

theorem Slot.fits {size : Nat} (body : x.body = front ++ (text ++ back))
    (later : new.length ≤ text.length + size)
    (room : Session.Small ((textOf (pre ++ x :: post)).length + size)) :
    Session.Fits (textOf pre ++ (x.header ++ front)) text new
      (back ++ (x.footer ++ textOf post)) := by
  unfold Session.Small at room
  simp only [textOf_append, textOf_cons, Slot.text, body, length_append] at room
  refine ⟨?_, ?_⟩
  · unfold Session.Small
    simp only [length_append]
    omega
  · unfold Session.Small
    simp only [length_append]
    omega

theorem Layout.append {more : Bytes} (layout : Layout s (pre ++ x :: post))
    (filled : ∀ y ∈ pre, y.text ≠ []) (body : x.body = front ++ (text ++ back))
    (first : x.first = front.length) (last : x.last = front.length + text.length) :
    Yields (Session.Small ((textOf (pre ++ x :: post)).length + more.length))
      (fun after => Layout after (pre ++ { x with
        body := front ++ ((text ++ more) ++ back),
        last := front.length + (text ++ more).length } :: post))
      (s.append x.bound more) := by
  have inside := layout.inside body first last
  rw [Session.append]
  refine (inside.append.under (Slot.fits body (by simp))).bind ?_
  rintro ⟨after, failed⟩ ⟨-, spliced⟩
  exact layout.splice filled body first last spliced

theorem Layout.replace {new : Bytes} (layout : Layout s (pre ++ x :: post))
    (filled : ∀ y ∈ pre, y.text ≠ []) (body : x.body = front ++ (text ++ back))
    (first : x.first = front.length) (last : x.last = front.length + text.length) :
    Yields (Session.Small ((textOf (pre ++ x :: post)).length + new.length))
      (fun after => Layout after (pre ++ { x with
        body := front ++ (new ++ back), last := front.length + new.length } :: post))
      (s.replace x.bound new) := by
  have inside := layout.inside body first last
  rw [Session.replace]
  refine (inside.replace.under (Slot.fits body (by omega))).bind ?_
  rintro ⟨after, failed⟩ ⟨-, spliced⟩
  exact layout.splice filled body first last spliced

theorem Layout.erase (layout : Layout s (pre ++ x :: post))
    (filled : ∀ y ∈ pre, y.text ≠ []) (body : x.body = front ++ (text ++ back))
    (first : x.first = front.length) (last : x.last = front.length + text.length) :
    Yields (Session.Small (textOf (pre ++ x :: post)).length)
      (fun after => Layout after (pre ++ { x with
        body := front ++ back, last := front.length } :: post))
      (s.erase x.bound) := by
  have inside := layout.inside body first last
  have empty : Session.resized text 0 = [] := by simp [Session.resized]
  rw [Session.erase]
  refine ((@Session.Inside.textResize s x.bound x.path _ text _ 0 inside).under
    (@Slot.fits pre post x front text back _ 0 body (by rw [empty]; simp))).bind ?_
  rintro ⟨after, failed⟩ ⟨-, spliced⟩
  rw [empty] at spliced
  have final := layout.splice filled body first last spliced
  simp only [nil_append, length_nil, Nat.add_zero] at final
  exact final

end Slots

end AthApps.Config
