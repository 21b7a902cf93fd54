import AthApps.Config.Section

/-!
# A new section

A section is built at the end of the text with a bound that first has all of it
in one piece; then a copy of that bound stays around the lines of the section,
and the bound itself is freed.
-/

set_option autoImplicit false

namespace AthApps.Config

open AthApps.Lib List Option
open Function (update_idem update_of_ne update_self)

section Layouts

variable {s after : Session} {pre old new slots : List Slot} {x : Slot} {n : Nat}

theorem Layout.known (layout : Layout s slots) {i : Nat} (member : i ∈ namesOf slots) :
    ∃ c, s.bound i = some c := by
  obtain ⟨y, inside, mine⟩ := mem_flatMap.mp member
  obtain ⟨place, at'⟩ := placed_of_mem layout.placed inside
  simp only [Slot.path, mem_cons, mem_toList] at mine
  rcases mine with rfl | rfl | wrap
  · exact ⟨_, at'.cursor⟩
  · obtain ⟨c, here, -⟩ := at'.outer
    exact ⟨c, here⟩
  · exact ⟨_, (at'.wrapped i wrap).1⟩

theorem Layout.fresh (layout : Layout s slots) {i : Nat} (member : i ∈ namesOf slots) :
    i < s.allocated := by
  obtain ⟨c, here⟩ := layout.known member
  exact layout.ranked.old i c here

theorem placed_same {position : Nat} (placed : Placed s position slots)
    (same : ∀ i ∈ namesOf slots, after.bound i = s.bound i) : Placed after position slots := by
  induction slots generalizing position with
  | nil => exact True.intro
  | cons y rest ih =>
    obtain ⟨here, later⟩ := placed
    refine ⟨here.keep fun i mine => same i (by simp [mine]), ih later ?_⟩
    intro i member
    exact same i (by simp [member])

theorem Layout.renew (layout : Layout s (pre ++ old)) (ranked : after.Ranked)
    (root : after.bound 0 = s.bound 0) (buf : after.buf = s.buf)
    (same : ∀ i ∈ namesOf pre, after.bound i = s.bound i) (text : textOf new = textOf old)
    (placed : Placed after (textOf pre).length new) (nodup : (namesOf new).Nodup)
    (apart : ∀ i ∈ namesOf new, i ∉ namesOf pre ∧ i ≠ 0)
    (live : ∀ i c, after.bound i = some c → i = 0 ∨ i ∈ namesOf pre ∨ i ∈ namesOf new) :
    Layout after (pre ++ new) := by
  have all : textOf (pre ++ new) = textOf (pre ++ old) := by rw [textOf_append, textOf_append, text]
  refine ⟨ranked, ?_, ?_, ?_, ?_, ?_, ?_⟩
  · rw [root, layout.root, all]
  · rw [buf, all]
    exact layout.buf
  · refine placed_append.mpr ⟨placed_same (placed_append.mp layout.placed).1 same, ?_⟩
    simpa using placed
  · rw [namesOf_append]
    have before := layout.nodup
    rw [namesOf_append] at before
    refine nodup_append'.mpr ⟨(nodup_append'.mp before).1, nodup, ?_⟩
    intro i first second
    exact (apart i second).1 first
  · rw [namesOf_append, mem_append]
    rintro (member | member)
    · exact layout.inner (by simp [member])
    · exact (apart 0 member).2 rfl
  · intro i c here
    rw [namesOf_append, mem_append]
    exact live i c here

end Layouts

def draft (wrapper b : Nat) : Slot := ⟨none, wrapper, b, [], [], [], 0, 0⟩

namespace Session

variable {s : Session}

theorem new_eq (parent : Nat) (begin stop : Int) :
    ∃ after, s.configeditNew parent begin stop = (after, s.allocated) ∧
      after.bound = Function.update s.bound s.allocated (some ⟨parent, begin, stop⟩) ∧
      after.buf = s.buf ∧ after.allocated = s.allocated + 1 :=
  ⟨_, rfl, bound_setBound s _ _, rfl, rfl⟩

theorem begin_eq {b : Nat} {c : Bound} (here : s.bound b = some c) :
    ∃ after, s.configeditBegin b = some (after, s.allocated) ∧
      after.bound = Function.update s.bound s.allocated (some ⟨b, 0, 0⟩) ∧
      after.buf = s.buf ∧ after.allocated = s.allocated + 1 := by
  obtain ⟨after, creates, facts⟩ := @new_eq s b 0 0
  refine ⟨after, ?_, facts⟩
  rw [configeditBegin, here]
  simp only [bind_eq_bind, bind_some, creates]

theorem dup_eq {b : Nat} {c : Bound} (here : s.bound b = some c) :
    ∃ after, s.configeditDup b = some (after, s.allocated) ∧
      after.bound = Function.update s.bound s.allocated (some c) ∧
      after.buf = s.buf ∧ after.allocated = s.allocated + 1 := by
  obtain ⟨after, creates, facts⟩ := @new_eq s c.parent c.begin c.stop
  refine ⟨after, ?_, facts⟩
  rw [configeditDup, here]
  simp only [bind_eq_bind, bind_some, creates]

end Session

section Opening

variable {s : Session} {slots : List Slot} {n : Nat}

theorem Layout.open (layout : Layout s slots) :
    ∃ middle final, s.configeditBegin 0 = some (middle, s.allocated) ∧
      (∃ later, middle.configeditSeekend s.allocated = some later ∧
        later.configeditBegin s.allocated = some (final, s.allocated + 1)) ∧
      Layout final (slots ++ [draft s.allocated (s.allocated + 1)]) := by
  have positive : 0 < s.allocated := layout.ranked.old 0 _ layout.root
  have free : ∀ {i : Nat} {c : Bound}, s.bound i = some c → i ≠ s.allocated := by
    intro i c here
    exact Nat.ne_of_lt (layout.ranked.old i c here)
  obtain ⟨middle, opens, bound, buf, allocated⟩ := Session.begin_eq layout.root
  have leaf : (middle.freeChildren s.allocated).bound = middle.bound := by
    apply freeChildren_leaf
    intro j k here inner
    rw [bound] at here
    by_cases same : j = s.allocated
    · rw [same, update_self] at here
      cases here
      exact Nat.ne_of_lt positive
    · rw [update_of_ne same] at here
      have less := layout.ranked.after j k here inner
      have less' := layout.ranked.old j k here
      omega
  obtain ⟨later, seeks, bound', buf', allocated'⟩ : ∃ later,
      middle.configeditSeekend s.allocated = some later ∧
      later.bound = Function.update s.bound s.allocated
        (some ⟨0, (textOf slots).length, (textOf slots).length⟩) ∧
      later.buf = s.buf ∧ later.allocated = s.allocated + 1 := by
    refine ⟨(middle.freeChildren s.allocated).setBound s.allocated
      ⟨0, (textOf slots).length, (textOf slots).length⟩, ?_, ?_, buf, allocated⟩
    · rw [Session.configeditSeekend, bound, update_self]
      simp only [bind_eq_bind, bind_some, update_of_ne (Nat.ne_of_lt positive), layout.root]
      simp [Bound.size]
    · rw [Session.bound_setBound, leaf, bound, update_idem]
  obtain ⟨final, begins, bound'', buf'', allocated''⟩ := @Session.begin_eq later s.allocated
    ⟨0, (textOf slots).length, (textOf slots).length⟩ (by rw [bound', update_self])
  rw [allocated'] at begins bound'' allocated''
  rw [buf'] at buf''
  rw [bound'] at bound''
  refine ⟨middle, final, opens, ⟨later, seeks, begins⟩, ?_⟩
  have others : ∀ {i : Nat}, i < s.allocated → final.bound i = s.bound i := by
    intro i less
    rw [bound'', update_of_ne (by omega), update_of_ne (by omega)]
  have wrapper : final.bound s.allocated =
      some ⟨0, (textOf slots).length, (textOf slots).length⟩ := by
    rw [bound'', update_of_ne (by omega), update_self]
  have inner : final.bound (s.allocated + 1) = some ⟨s.allocated, 0, 0⟩ := by
    rw [bound'', update_self]
  have cases' : ∀ {i : Nat} {c : Bound}, final.bound i = some c →
      s.bound i = some c ∧ i < s.allocated ∨
        i = s.allocated ∧ c = ⟨0, (textOf slots).length, (textOf slots).length⟩ ∨
        i = s.allocated + 1 ∧ c = ⟨s.allocated, 0, 0⟩ := by
    intro i c here
    by_cases first : i = s.allocated + 1
    · subst first
      cases inner.symm.trans here
      exact Or.inr (Or.inr ⟨rfl, rfl⟩)
    by_cases second : i = s.allocated
    · subst second
      cases wrapper.symm.trans here
      exact Or.inr (Or.inl ⟨rfl, rfl⟩)
    rw [bound'', update_of_ne first, update_of_ne second] at here
    exact Or.inl ⟨here, layout.ranked.old i c here⟩
  have ranked : later.Ranked := layout.ranked.update bound' (by omega) (by omega) positive
  apply @Layout.renew s final slots [] [draft s.allocated (s.allocated + 1)] (by simpa using layout)
  · exact @Session.Ranked.update later final ranked (s.allocated + 1) ⟨s.allocated, 0, 0⟩
      (bound''.trans (by rw [bound'])) (by omega) (by omega) (Nat.lt_succ_self _)
  · exact others positive
  · exact buf''
  · intro i member
    exact others (layout.fresh member)
  · rfl
  · refine ⟨⟨inner, Nat.le_refl _, Nat.le_refl _, ?_, ?_⟩, True.intro⟩
    · intro _
      exact ⟨rfl, rfl, by simpa [draft] using wrapper⟩
    · rintro w ⟨⟩
  · simp [draft, Slot.path]
  · intro i member
    simp only [namesOf_cons, draft, Slot.path, toList_none, namesOf_nil, append_nil,
      mem_cons, not_mem_nil, or_false] at member
    refine ⟨fun inside => ?_, by omega⟩
    have less := layout.fresh inside
    omega
  · intro i c here
    rcases cases' here with ⟨here', -⟩ | ⟨rfl, -⟩ | ⟨rfl, -⟩
    · rcases layout.live i c here' with zero | member
      · exact Or.inl zero
      · exact Or.inr (Or.inl member)
    · simp [draft, Slot.path]
    · simp [draft, Slot.path]

end Opening

section Closing

variable {s : Session} {pre post slots : List Slot} {x : Slot} {n : Nat}
  {header body : Bytes}

theorem Layout.next (layout : Layout s (pre ++ x :: post)) :
    Yields (Session.Small x.body.length)
      (fun after => Layout after (pre ++ { x with first := x.last, last := x.last } :: post))
      (s.configeditNext x.bound) := by
  have at' := layout.at
  have order := at'.order
  have inside := at'.inside
  have moved := @Layout.moved s pre post x x.last x.last layout (Nat.le_refl _) inside
  obtain ⟨c, outer, size⟩ := at'.outer
  rw [Session.configeditNext, at'.cursor]
  simp only [bind_eq_bind, bind_some, Session.configeditAdvance, at'.cursor, outer]
  have sum : (x.first : Int) + Bound.size ⟨x.outer, x.first, x.last⟩ = x.last := by
    unfold Bound.size
    simp only
    omega
  rw [sum]
  split
  next overflows =>
    rw [yields_none]
    intro small
    unfold Session.Small at small
    rw [Session.fitsInt_of_le (by omega) (by omega)] at overflows
    cases overflows
  next =>
    have place : min (max (x.last : Int) 0) c.size = x.last := by
      rw [size]
      omega
    rw [place]
    exact moved

theorem Layout.write {wrapper b : Nat} {name : Bytes}
    (layout : Layout s (slots ++ [draft wrapper b])) (filled : ∀ y ∈ slots, y.text ≠ [])
    (size : (textOf slots).length + (name.length + 27) ≤ n) :
    Yields (Session.Small n) (fun after => Layout after (slots ++ [(draft wrapper b).set
        ((name ++ openText) ++ (indentText ++ markerLine)) (name ++ openText).length
        ((name ++ openText).length + (indentText ++ markerLine).length)]))
      (writeSection s b name) := by
  have opening : openText.length = 3 := rfl
  have indenting : indentText.length = 8 := rfl
  have marking : markerLine.length = 14 := rfl
  have bound : ∀ {text : Bytes} {first last m : Nat}, text.length + m ≤ name.length + 27 →
      (textOf (slots ++ [(draft wrapper b).set text first last])).length + m ≤ n := by
    intro text first last m less
    have total := textOf_set slots [] (draft wrapper b) text first last
    simp only [draft, length_nil, textOf_nil] at total
    rw [draft, total]
    omega
  rw [writeSection]
  have named := @Layout.append s slots [] (draft wrapper b) [] [] [] name layout filled rfl rfl rfl
  refine (named.under (Session.Small.mono (@bound [] 0 0 name.length (by simp)))).bind ?_
  intro s1 layout1
  have opened := @Layout.append s1 slots [] ((draft wrapper b).set name 0 name.length)
    [] name [] openText (by simpa [Slot.set, draft] using layout1) filled (by simp [Slot.set]) rfl
    (by simp [Slot.set])
  refine (opened.under (Session.Small.mono (bound (by omega)))).bind ?_
  intro s2 layout2
  have nexts := @Layout.next s2 slots []
    ((draft wrapper b).set (name ++ openText) 0 (name ++ openText).length)
    (by simpa [Slot.set, draft] using layout2)
  refine (nexts.under (Session.Small.mono ?_)).bind ?_
  · simp only [Slot.set, length_append]
    omega
  intro s3 layout3
  have indented := @Layout.append s3 slots []
    ((draft wrapper b).set (name ++ openText) (name ++ openText).length (name ++ openText).length)
    (name ++ openText) [] [] indentText layout3 filled (by simp [Slot.set]) rfl rfl
  refine (indented.under (Session.Small.mono (bound (by
    simp only [length_append]
    omega)))).bind ?_
  intro s4 layout4
  have marked := @Layout.append s4 slots []
    ((draft wrapper b).set (name ++ openText ++ indentText) (name ++ openText).length
      ((name ++ openText).length + indentText.length))
    (name ++ openText) indentText [] markerLine (by simpa [Slot.set, draft] using layout4) filled
    (by simp [Slot.set]) rfl rfl
  refine (marked.under (Session.Small.mono (bound (by
    simp only [length_append]
    omega)))).imp ?_
  intro s5 layout5
  simpa [Slot.set, draft] using layout5

def forget (s : Session) (i allocated : Nat) : Session :=
  { s.keepNodes fun j => j ≠ i with allocated := allocated }

theorem bound_forget (s : Session) (i allocated j : Nat) :
    (forget s i allocated).bound j = if j = i then none else s.bound j := by
  have kept := s.bound_keepNodes (fun k => k ≠ i) j
  simp only [forget]
  exact kept.trans (by by_cases same : j = i <;> simp [same])

theorem Layout.close {wrapper b : Nat} {copied : Session}
    (layout : Layout s (slots ++ [(draft wrapper b).set (header ++ body) header.length
      (header.length + body.length)]))
    (filled : ∀ y ∈ slots, y.text ≠ []) (inhabited : body ≠ [])
    (bound : copied.bound = Function.update s.bound s.allocated
      (some ⟨wrapper, header.length, header.length + body.length⟩))
    (buf : copied.buf = s.buf) (allocated : copied.allocated = s.allocated + 1)
    (size : (textOf slots).length + (header.length + (body.length + closeText.length)) ≤ n) :
    Yields (Session.Small n) (fun after => after.allocated = s.allocated + 1 ∧
        after.bound s.allocated = some ⟨wrapper, header.length, header.length + body.length⟩ ∧
        Layout (forget after s.allocated s.allocated) (slots ++ [(draft wrapper b).set
          (header ++ (body ++ closeText)) header.length
          (header.length + (body ++ closeText).length)]))
      (copied.append b closeText) := by
  have inside := @Layout.inside s slots [] ((draft wrapper b).set (header ++ body) header.length
      (header.length + body.length)) header body [] layout (by simp [Slot.set]) rfl rfl
  have at' := layout.at
  have cursor : s.bound b = some ⟨wrapper, header.length, header.length + body.length⟩ := by
    have here := at'.cursor
    simp only [Slot.set, draft, Int.natCast_add] at here
    exact here
  have outer : s.bound wrapper = some ⟨0, (textOf slots).length,
      (textOf slots).length + (header ++ body).length⟩ := (at'.bare rfl).2.2
  have member : (draft wrapper b).set (header ++ body) header.length
      (header.length + body.length) ∈ slots ++ [(draft wrapper b).set (header ++ body)
        header.length (header.length + body.length)] := by simp
  have fresh : ∀ {i : Nat} {c : Bound}, s.bound i = some c → i ≠ s.allocated := by
    intro i c here
    exact Nat.ne_of_lt (layout.ranked.old i c here)
  have kept : ∀ {i : Nat} {c : Bound}, s.bound i = some c → copied.bound i = some c := by
    intro i c here
    rw [bound, update_of_ne (fresh here), here]
  have innerB : b ≠ 0 := layout.ne_zero member (Slot.bound_mem _)
  have innerW : wrapper ≠ 0 := layout.ne_zero member (Slot.outer_mem _)
  have positive : 0 < body.length := length_pos_of_ne_nil inhabited
  have ranked : copied.Ranked := layout.ranked.update bound (by omega) (by omega)
    (layout.ranked.old wrapper _ outer)
  have inside' : copied.Inside b [b, wrapper] (textOf slots ++ header) body [] := by
    obtain ⟨junk, shows⟩ := inside.buf
    refine ⟨ranked, ?_, ⟨junk, ?_⟩, ⟨_, kept cursor, ?_⟩, cons_ne_nil _ _, ?_, ?_⟩
    · rw [kept layout.root]
      simp only [textOf_append, textOf_cons, textOf_nil, Slot.text, Slot.set, draft,
        length_append, nil_append, append_nil, length_nil, some.injEq,
        Bound.mk.injEq, true_and]
      omega
    · rw [buf, shows]
      simp [Slot.set, draft]
    · unfold Bound.size
      simp only
      omega
    · have reached := Session.Reach.inner (kept cursor) innerB
        (.inner (kept outer) innerW (.root (kept layout.root)))
      simpa using reached
    · intro j k here other child
      have above : k.parent = wrapper := mem_singleton.mp child
      have reached := Session.Reach.inner (kept outer) innerW (.root (kept layout.root))
      by_cases same : j = s.allocated
      · subst same
        rw [bound, update_self] at here
        cases here
        refine ⟨_, _, reached, ?_⟩
        simp only [length_append]
        omega
      · rw [bound, update_of_ne same] at here
        exact absurd (by rw [layout.alone_outer member here above]; exact mem_cons_self) other
  rw [Session.append]
  refine (inside'.append.under ?_).bind ?_
  · intro small
    refine ⟨small.mono ?_, small.mono ?_⟩ <;> simp only [length_append, length_nil] <;> omega
  rintro ⟨after, failed⟩ ⟨-, spliced⟩
  refine ⟨spliced.allocated.trans allocated, ?_, ?_⟩
  · rw [spliced.bound, bound, update_self]
    have out : s.allocated ∉ [b, wrapper] := by
      have first := fresh cursor
      have second := fresh outer
      simp only [mem_cons, not_mem_nil, or_false, not_or]
      exact ⟨Ne.symm first, Ne.symm second⟩
    have notRoot : s.allocated ≠ 0 := Ne.symm (fresh layout.root)
    simp [Session.adjusted, out, notRoot, innerW]
  · have spliced' : s.Spliced (forget after s.allocated s.allocated)
        ((draft wrapper b).set (header ++ body) header.length (header.length + body.length)).path
        (textOf slots ++ ([] ++ header)) body (body ++ closeText)
        ([] ++ ([] ++ textOf [])) := by
      refine ⟨?_, rfl, ?_⟩
      · obtain ⟨junk, shows⟩ := spliced.buf
        exact ⟨junk, by simpa [forget, Session.keepNodes] using shows⟩
      · intro i
        rw [bound_forget]
        by_cases same : i = s.allocated
        · subst same
          cases unknown : s.bound s.allocated with
          | none => simp
          | some c => exact absurd rfl (fresh unknown)
        · rw [if_neg same, spliced.bound, bound, update_of_ne same]
          simp [Slot.path, Slot.set, draft]
    have final := @Layout.splice s (forget after s.allocated s.allocated) slots []
      ((draft wrapper b).set (header ++ body) header.length (header.length + body.length))
      header body [] (body ++ closeText) layout filled (by simp [Slot.set]) rfl rfl spliced'
    simpa [Slot.set] using final

def finished (wrapper outer b : Nat) (header body footer : Bytes) : Slot :=
  ⟨some wrapper, outer, b, header, body, footer, 0, 0⟩

/-- The bound of the draft goes, and the copy of its text gets a bound of its own. -/
theorem Layout.freed {wrapper b first last outer : Nat} {footer : Bytes} {c : Bound}
    (layout : Layout (forget s outer outer)
      (slots ++ [(draft wrapper b).set (header ++ (body ++ footer)) first last]))
    (enough : s.allocated = outer + 1) (copy : s.bound outer = some c) (apart : c.parent ≠ b)
    (less : b < outer) :
    ∃ after, (s.configeditFree b).configeditBegin outer = some (after, outer + 1) ∧
      after.bound = Function.update (s.configeditFree b).bound (outer + 1) (some ⟨outer, 0, 0⟩) ∧
      (∀ i, (s.configeditFree b).bound i = if i = b then none else s.bound i) ∧
      after.buf = s.buf ∧ after.allocated = outer + 2 := by
  have member : (draft wrapper b).set (header ++ (body ++ footer)) first last ∈
      slots ++ [(draft wrapper b).set (header ++ (body ++ footer)) first last] := by simp
  have leaf : (s.freeChildren b).bound = s.bound := by
    apply freeChildren_leaf
    intro j k here inner child
    by_cases same : j = outer
    · subst same
      cases copy.symm.trans here
      exact apart child
    · exact layout.childless member (by rw [bound_forget, if_neg same, here]) child
  have freed : ∀ i, (s.configeditFree b).bound i = if i = b then none else s.bound i := by
    intro i
    have kept := (s.freeChildren b).bound_keepNodes (fun k => k ≠ b) i
    rw [Session.configeditFree]
    refine kept.trans ?_
    rw [leaf]
    by_cases same : i = b <;> simp [same]
  obtain ⟨after, begins, bound, buf, allocated⟩ := @Session.begin_eq (s.configeditFree b) outer _
    (by rw [freed, if_neg (Nat.ne_of_gt less), copy])
  have count : (s.configeditFree b).allocated = outer + 1 := enough
  rw [count] at begins bound allocated
  exact ⟨after, begins, bound, freed, buf, allocated⟩

theorem Layout.finish {wrapper b first last : Nat} {footer : Bytes}
    (layout : Layout (forget s (s.allocated - 1) (s.allocated - 1))
      (slots ++ [(draft wrapper b).set (header ++ (body ++ footer)) first last]))
    (copy : s.bound (s.allocated - 1) =
      some ⟨wrapper, header.length, header.length + body.length⟩) :
    ∃ after, (s.configeditFree b).configeditBegin (s.allocated - 1) = some (after, s.allocated) ∧
      Layout after (slots ++
        [finished wrapper (s.allocated - 1) s.allocated header body footer]) := by
  obtain ⟨outer, enough⟩ : ∃ outer, s.allocated = outer + 1 := by
    refine ⟨s.allocated - 1, ?_⟩
    have root := layout.ranked.old 0 _ layout.root
    simp only [forget] at root
    omega
  rw [enough, Nat.add_sub_cancel] at layout copy ⊢
  have at' := layout.at
  have member : (draft wrapper b).set (header ++ (body ++ footer)) first last ∈
      slots ++ [(draft wrapper b).set (header ++ (body ++ footer)) first last] := by simp
  have known : ∀ {i : Nat} {c : Bound}, (forget s outer outer).bound i = some c →
      s.bound i = some c ∧ i < outer := by
    intro i c here
    have less := layout.ranked.old i c here
    rw [bound_forget] at here
    simp only [forget] at less
    rw [if_neg (by omega)] at here
    exact ⟨here, less⟩
  have lessB : b < outer := (known at'.cursor).2
  have lessW : wrapper < outer := (known (at'.bare rfl).2.2).2
  have innerB : b ≠ 0 := layout.ne_zero member (Slot.bound_mem _)
  have innerW : wrapper ≠ 0 := layout.ne_zero member (Slot.outer_mem _)
  have apart : wrapper ≠ b := by
    intro same
    have nodup := layout.path_nodup member
    simp [Slot.path, Slot.set, draft, same] at nodup
  obtain ⟨after, begins, bound, freed, buf, allocated⟩ := layout.freed enough copy apart lessB
  refine ⟨after, begins, ?_⟩
  have cases' : ∀ {i : Nat} {c : Bound}, after.bound i = some c →
      (forget s outer outer).bound i = some c ∧ i ≠ b ∧ i < outer ∨
        i = outer ∧ c = ⟨wrapper, header.length, header.length + body.length⟩ ∨
        i = outer + 1 ∧ c = ⟨outer, 0, 0⟩ := by
    intro i c here
    rw [bound] at here
    by_cases last : i = outer + 1
    · rw [last, update_self] at here
      cases here
      exact Or.inr (Or.inr ⟨last, rfl⟩)
    rw [update_of_ne last, freed] at here
    by_cases own : i = b
    · rw [if_pos own] at here
      cases here
    rw [if_neg own] at here
    by_cases same : i = outer
    · subst same
      cases copy.symm.trans here
      exact Or.inr (Or.inl ⟨rfl, rfl⟩)
    have here' : (forget s outer outer).bound i = some c := by rw [bound_forget, if_neg same, here]
    exact Or.inl ⟨here', own, (known here').2⟩
  have others : ∀ {i : Nat}, i < outer → i ≠ b → after.bound i = (forget s outer outer).bound i := by
    intro i less own
    rw [bound, update_of_ne (by omega), freed, if_neg own, bound_forget,
      if_neg (by omega)]
  have outside : ∀ {i : Nat}, i ∈ namesOf slots → i < outer ∧ i ≠ b ∧ i ≠ wrapper := by
    intro i inside
    obtain ⟨y, mine, named⟩ := mem_flatMap.mp inside
    have apart := layout.apart (by simpa using mine) named
    simp only [Slot.path, Slot.set, draft, toList_none, mem_cons, not_mem_nil, or_false,
      not_or] at apart
    exact ⟨layout.fresh (by simp [inside] : i ∈ namesOf (slots ++ _)), apart⟩
  apply layout.renew
  · refine ⟨?_, ?_, ?_⟩
    · intro i c here
      rw [allocated]
      rcases cases' here with ⟨-, -, less⟩ | ⟨rfl, -⟩ | ⟨rfl, -⟩ <;> omega
    · intro i c here inner
      rcases cases' here with ⟨here', -⟩ | ⟨rfl, rfl⟩ | ⟨rfl, rfl⟩
      · exact layout.ranked.after i c here' inner
      · exact lessW
      · exact Nat.lt_succ_self _
    · intro c here
      rcases cases' here with ⟨here', -⟩ | ⟨rfl, -⟩ | ⟨zero, -⟩
      · exact layout.ranked.top c here'
      · omega
      · omega
  · have root := layout.ranked.old 0 _ layout.root
    exact others root (Ne.symm innerB)
  · rw [buf]
    rfl
  · intro i inside
    obtain ⟨less, own, -⟩ := outside inside
    exact others less own
  · simp [finished, Slot.text, Slot.set, draft]
  · refine ⟨⟨?_, Nat.le_refl _, Nat.zero_le _, ?_, ?_⟩, True.intro⟩
    · rw [finished, bound, update_self]
      rfl
    · rintro ⟨⟩
    · rintro w ⟨⟩
      refine ⟨?_, ?_⟩
      · rw [others lessW apart]
        have here := (at'.bare rfl).2.2
        simpa [finished, Slot.text, Slot.set, draft] using here
      · show after.bound outer = _
        rw [bound, update_of_ne (by omega), freed, if_neg (by omega), copy]
        rfl
  · simp only [finished, namesOf_cons, namesOf_nil, Slot.path, toList_some, append_nil,
      nodup_cons, mem_cons, not_mem_nil, or_false, not_or, not_false_eq_true,
      nodup_nil, and_true]
    omega
  · intro i inside
    simp only [finished, namesOf_cons, namesOf_nil, Slot.path, toList_some, append_nil,
      mem_cons, not_mem_nil, or_false] at inside
    refine ⟨?_, by omega⟩
    intro also
    obtain ⟨less, -, other⟩ := outside also
    omega
  · intro i c here
    rcases cases' here with ⟨here', own, -⟩ | ⟨rfl, -⟩ | ⟨rfl, -⟩
    · rcases layout.live i c here' with zero | listed
      · exact Or.inl zero
      · rw [namesOf_append, mem_append] at listed
        rcases listed with listed | listed
        · exact Or.inr (Or.inl listed)
        · simp only [namesOf_cons, namesOf_nil, Slot.path, Slot.set, draft, toList_none,
            append_nil, mem_cons, not_mem_nil, or_false] at listed
          rcases listed with same | rfl
          · exact absurd same own
          · simp [finished, Slot.path]
    · simp [finished, Slot.path]
    · simp [finished, Slot.path]

theorem Layout.newSection {name : Bytes} (layout : Layout s slots)
    (filled : ∀ y ∈ slots, y.text ≠ [])
    (size : (textOf slots).length + (name.length + 27) ≤ n) :
    Yields (Session.Small n)
      (fun result => result.2.name = name ∧ ∃ wrapper, Layout result.1 (slots ++
        [finished wrapper result.2.outer result.2.bound (name ++ openText)
          (indentText ++ markerLine) closeText]))
      (newSection s name) := by
  obtain ⟨s1, s3, begins, ⟨s2, seeks, begins'⟩, layout3⟩ := layout.open
  have writes := @Layout.write s3 slots n s.allocated (s.allocated + 1) name layout3 filled size
  rw [Config.newSection, begins]
  simp only [bind_eq_bind, bind_some, seeks, begins']
  refine writes.bind ?_
  intro s4 layout4
  have cursor := layout4.at.cursor
  have opening : (name ++ openText).length = name.length + 3 := by simp [openText]
  have marking : (indentText ++ markerLine).length = 22 := rfl
  obtain ⟨s5, dups, bound, buf, allocated⟩ := Session.dup_eq cursor
  have dups' : s4.configeditDup (s.allocated + 1) = some (s5, s4.allocated) := dups
  rw [dups']
  simp only [bind_some]
  have closes := @Layout.close s4 slots n (name ++ openText) (indentText ++ markerLine) s.allocated
    (s.allocated + 1) s5 layout4 filled (by simp [markerLine]) (by simpa [Slot.set, draft] using bound)
    buf allocated (by
      rw [opening, marking]
      simp only [closeText, length_cons, length_nil]
      omega)
  refine closes.bind ?_
  rintro s6 ⟨allocated', copy, layout6⟩
  have before : s4.allocated = s6.allocated - 1 := by omega
  rw [before] at layout6 copy ⊢
  obtain ⟨s7, begins'', layout7⟩ := layout6.finish copy
  simp only [begins'', bind_some]
  exact ⟨rfl, s.allocated, layout7⟩

end Closing

end AthApps.Config
