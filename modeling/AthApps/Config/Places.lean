import AthApps.Config.Splice

/-!
# The texts of a tree of bounds

What an exchange of the text of one bound does to the texts of all others.  The code
moves the bytes behind the bound once, and then goes up and moves the bounds beside its
way, each by offsets in the space of its parent.
-/

set_option autoImplicit false

namespace AthApps.Config

open AthApps.Lib List Option

namespace Session

/-- The bytes that `configedit_memcpy` copies out of a whole bound. -/
def textOf (s : Session) (b : Nat) : Option Bytes := do
  let c ← s.bound b
  let ptr ← s.configeditPtr b
  some ((s.buf.drop ptr.toNat).take c.size.toNat)

/-- A tree of bounds in which siblings are not empty and do not overlap. -/
structure Tree (s : Session) : Prop where
  ranked : s.Ranked
  nested : s.Nested
  rooted : ∃ c, s.bound 0 = some c
  apart : ∀ i j c k, s.bound i = some c → s.bound j = some k → i ≠ 0 → j ≠ 0 → i ≠ j →
    c.parent = k.parent → c.begin < c.stop ∧ (c.stop ≤ k.begin ∨ k.stop ≤ c.begin)

section Places

variable {s after : Session} {node : Nat} {path : List Nat} {ptr : Int}

theorem Tree.orderly (tree : s.Tree) : s.Orderly := ⟨tree.ranked, tree.nested⟩

theorem Reach.child (reach : s.Reach node path ptr) {p : Nat} (member : p ∈ path.tail) :
    ∃ n ∈ path, n ≠ 0 ∧ ∃ m, s.bound n = some m ∧ m.parent = p := by
  induction reach with
  | root _ => cases member
  | @inner node c _ ptr here inner rest ih =>
    obtain ⟨above, rfl⟩ := rest.head
    rcases mem_cons.mp member with rfl | further
    · exact ⟨node, mem_cons_self, inner, c, here, rfl⟩
    · obtain ⟨n, there, found⟩ := ih further
      exact ⟨n, mem_cons_of_mem _ there, found⟩

/-- Any other bound stays before the text, or it moves behind it. -/
theorem Adjusted.reach_beside {addSize : Int} {b : Nat} {way : List Nat} {start : Int} {c : Bound}
    (tree : s.Tree) (whole : s.Reach b way start) (here : s.bound b = some c)
    (leaf : ∀ i k, s.bound i = some k → i ≠ 0 → k.parent ≠ b)
    (adjusted : s.Adjusted after way (start + c.size) addSize)
    (reach : s.Reach node path ptr) (out : node ∉ way) {k : Bound}
    (known : s.bound node = some k) :
    ∃ k', after.bound node = some k' ∧ k'.size = k.size ∧
      (after.Reach node path ptr ∧ ptr + k.size ≤ start ∨
        after.Reach node path (ptr + addSize) ∧ start + c.size ≤ ptr) := by
  induction reach generalizing k with
  | root _ => exact absurd whole.root_mem out
  | @inner node k' path ptr known' inner rest ih =>
    obtain rfl : k = k' := some.inj (known.symm.trans known')
    obtain ⟨p, above, first, order, last⟩ := tree.nested.inner node k known inner
    by_cases parent : k.parent ∈ way
    · obtain ⟨tail, rfl⟩ := whole.head
      have further : k.parent ∈ tail := (mem_cons.mp parent).resolve_left (leaf node k known inner)
      obtain ⟨n, there, notRoot, m, child, same⟩ := whole.child further
      have apart : node ≠ n := fun again => out (again ▸ there)
      obtain ⟨filled, disjoint⟩ := tree.apart node n k m known child inner notRoot apart same.symm
      have reachN : s.Reach n (n :: path) (ptr + m.begin) := .inner child notRoot (same ▸ rest)
      have inside := tree.orderly.within whole here there reachN child
      have size := tree.nested.size_nonneg here
      have moved := adjusted.beside node k out inner known further path ptr rest
      have kept := adjusted.reach_way rest (whole.sub parent rest)
      unfold Bound.size at *
      rcases disjoint with before | behind
      · rw [if_neg (by omega)] at moved
        exact ⟨k, moved, rfl, .inl ⟨.inner moved inner kept, by omega⟩⟩
      · rw [if_pos (by omega)] at moved
        refine ⟨_, moved, ?_, .inr ⟨?_, by omega⟩⟩
        · change k.stop + addSize - (k.begin + addSize) = k.stop - k.begin
          omega
        have reached := @Reach.inner after node _ _ _ moved inner kept
        rw [show ptr + k.begin + addSize = ptr + (k.begin + addSize) by omega]
        exact reached
    · obtain ⟨p', -, -, place⟩ := ih parent above
      have same : after.bound node = some k := by
        rw [adjusted.other node out ?_, known]
        intro c' again
        cases again.symm.trans known
        exact fun member => parent (mem_of_mem_tail member)
      refine ⟨k, same, rfl, ?_⟩
      rcases place with ⟨kept, before⟩ | ⟨moved, behind⟩
      · exact .inl ⟨.inner same inner kept, by unfold Bound.size at *; omega⟩
      · refine .inr ⟨?_, by omega⟩
        rw [show ptr + k.begin + addSize = ptr + addSize + k.begin by omega]
        exact .inner same inner moved

theorem Reach.textOf (reach : s.Reach node path ptr) (ranked : s.Ranked)
    (first : ∀ c, s.bound 0 = some c → c.begin = 0) {c : Bound} (here : s.bound node = some c) :
    s.textOf node = some ((s.buf.drop ptr.toNat).take c.size.toNat) := by
  rw [Session.textOf, here, reach.configeditPtr ranked first]
  rfl

end Places

section Texts

variable {s after : Session} {b : Nat} {c : Bound} {path : List Nat} {start : Int}
  {front text new back : Bytes}

/-- `i` is above `b`, whose text begins `place` bytes behind its own. -/
def Above (s : Session) (b i place : Nat) : Prop :=
  ∃ path start path' ptr, s.Reach b path start ∧ i ∈ path.tail ∧ s.Reach i path' ptr ∧
    start = ptr + place

/-- The text of a bound is another one, in it and in the bounds above it, and all other texts
are as before. -/
structure Exchanged (s after : Session) (b : Nat) (new : Bytes) : Prop where
  own : after.textOf b = some new
  above : ∀ i place old whole, s.Above b i place → s.textOf b = some old →
    s.textOf i = some whole → (whole.drop place).take old.length = old ∧
      after.textOf i = some (whole.take place ++ (new ++ whole.drop (place + old.length)))
  others : ∀ i, i ≠ b → (∀ place, ¬s.Above b i place) → after.textOf i = s.textOf i

theorem window_left {front rest : Bytes} {p n : Nat} (inside : p + n ≤ front.length) :
    ((front ++ rest).drop p).take n = (front.drop p).take n := by
  rw [drop_append_of_le_length (by omega),
    take_append_of_le_length (by rw [length_drop]; omega)]

theorem window_right (front rest : Bytes) (p n : Nat) :
    ((front ++ rest).drop (front.length + p)).take n = (rest.drop p).take n := by
  rw [drop_append, drop_eq_nil_of_le (by omega), nil_append,
    Nat.add_sub_cancel_left]

theorem window_across {junk : Bytes} {p n m : Nat} (before : p ≤ front.length)
    (size : n = front.length - p + text.length + m) (within : m ≤ back.length) :
    ((front ++ (text ++ (back ++ junk))).drop p).take n =
      front.drop p ++ (text ++ back.take m) := by
  rw [drop_append_of_le_length before, ← append_assoc, ← append_assoc, append_assoc,
    size, show front.length - p + text.length + m = (front.drop p ++ text).length + m by
      rw [length_append, length_drop],
    take_length_add_append, take_append_of_le_length within, append_assoc]

theorem Adjusted.kept {place addSize : Int} (tree : s.Tree) (reach : s.Reach b path start)
    (allocated : after.allocated = s.allocated) (adjusted : s.Adjusted after path place addSize) :
    after.Ranked ∧ ∀ k, after.bound 0 = some k → k.begin = 0 := by
  refine ⟨adjusted.ranked tree.orderly reach allocated, ?_⟩
  intro k known
  obtain ⟨root, top⟩ := tree.rooted
  cases known.symm.trans (adjusted.way 0 reach.root_mem root top)
  exact (tree.nested.root root top).1

theorem Tree.exchanged {junk junk' : Bytes} {root : Bound} (tree : s.Tree)
    (reach : s.Reach b path start) (here : s.bound b = some c) (top : s.bound 0 = some root)
    (leaf : ∀ i k, s.bound i = some k → i ≠ 0 → k.parent ≠ b)
    (buf : s.buf = front ++ (text ++ (back ++ junk)))
    (buf' : after.buf = front ++ (new ++ (back ++ junk'))) (begins : start = front.length)
    (size : c.size = text.length)
    (all : root.stop = front.length + text.length + back.length)
    (allocated : after.allocated = s.allocated)
    (adjusted : s.Adjusted after path (start + c.size) (new.length - c.size)) :
    s.Exchanged after b new := by
  have first : ∀ k, s.bound 0 = some k → k.begin = 0 := fun k known => (tree.nested.root k known).1
  obtain ⟨ranked', first'⟩ := adjusted.kept tree reach allocated
  have ownText : s.textOf b = some text := by
    rw [reach.textOf tree.ranked first here, buf,
      window_across (m := 0) (by omega) (by omega) (Nat.zero_le _)]
    simp [begins]
  refine ⟨?_, ?_, ?_⟩
  · have grown := adjusted.way b (by obtain ⟨rest, rfl⟩ := reach.head; simp) c here
    have reach' := adjusted.reach_way reach fun _ => id
    have sized : (Bound.size { c with stop := c.stop + (new.length - c.size) }) = new.length := by
      unfold Bound.size
      simp only []
      omega
    rw [reach'.textOf ranked' first' grown, buf', sized,
      window_across (m := 0) (by omega) (by omega) (Nat.zero_le _)]
    simp [begins]
  · rintro i place old whole ⟨path', start', pathI, ptr, reachB, member, reachI, placed⟩ oldText
      wholeText
    obtain ⟨rfl, rfl⟩ := reachB.unique reach
    obtain rfl := some.inj (ownText.symm.trans oldText)
    have member' := mem_of_mem_tail member
    obtain ⟨k, known⟩ := reach.all_known i member'
    have inside := tree.orderly.within reach here member' reachI known
    obtain ⟨_, _, _, again, top', positive, -, within⟩ := tree.orderly.reach known
    obtain ⟨rfl, rfl⟩ := again.unique reachI
    cases top.symm.trans top'
    have grown := adjusted.way i member' k known
    have reach' := adjusted.reach_way reachI (reach.sub member' reachI)
    have sized : (Bound.size { k with stop := k.stop + (new.length - c.size) }) =
        k.size + new.length - c.size := by
      unfold Bound.size
      simp only []
      omega
    have behind : (ptr + k.size - start - c.size).toNat ≤ back.length := by omega
    rw [reachI.textOf tree.ranked first known, buf,
      window_across (by omega) (by omega) behind] at wholeText
    rw [reach'.textOf ranked' first' grown, buf', sized, window_across (by omega) (by omega) behind]
    cases wholeText
    have place' : place = (front.drop ptr.toNat).length := by
      rw [length_drop]
      omega
    rw [place', drop_left, take_left, take_left, ← drop_drop, drop_left, drop_left]
    exact ⟨rfl, rfl⟩
  · intro i apart unrelated
    have out : i ∉ path := by
      intro member
      obtain ⟨k, known⟩ := reach.all_known i member
      obtain ⟨pathI, ptr, -, reachI, -⟩ := tree.orderly.reach known
      have inside := tree.orderly.within reach here member reachI known
      obtain ⟨rest, rfl⟩ := reach.head
      refine unrelated (start - ptr).toNat ⟨_, _, _, _, reach, ?_, reachI, by omega⟩
      exact (mem_cons.mp member).resolve_left apart
    cases known : s.bound i with
    | none =>
      have gone : after.bound i = none :=
        (adjusted.other i out fun k again => by cases known.symm.trans again).trans known
      rw [Session.textOf, Session.textOf, known, gone]
      rfl
    | some k =>
      obtain ⟨pathI, ptr, _, reachI, top', positive, filled, within⟩ := tree.orderly.reach known
      cases top.symm.trans top'
      obtain ⟨k', known', same, place⟩ :=
        adjusted.reach_beside tree reach here leaf reachI out known
      rw [reachI.textOf tree.ranked first known, buf]
      rcases place with ⟨kept, before⟩ | ⟨moved, behind⟩
      · rw [kept.textOf ranked' first' known', buf', same, window_left (by omega),
          window_left (by omega)]
      · obtain ⟨q, reaches⟩ : ∃ q : Nat, ptr = start + c.size + q :=
          ⟨(ptr - start - c.size).toNat, by omega⟩
        have old : ptr.toNat = (front ++ text).length + q := by
          rw [length_append]
          omega
        have later : (ptr + (new.length - c.size)).toNat = (front ++ new).length + q := by
          rw [length_append]
          omega
        rw [moved.textOf ranked' first' known', buf', same, old, later,
          ← append_assoc front new, ← append_assoc front text, window_right, window_right,
          window_left (by omega), window_left (by omega)]

theorem Tree.around {root : Bound} (tree : s.Tree) (reach : s.Reach b path start)
    (here : s.bound b = some c) (top : s.bound 0 = some root) :
    ∃ front text back junk, s.buf = front ++ (text ++ (back ++ junk)) ∧ start = front.length ∧
      c.size = text.length ∧ root.stop = front.length + text.length + back.length := by
  obtain ⟨_, _, _, again, top', positive, filled, within⟩ := tree.orderly.reach here
  obtain ⟨rfl, rfl⟩ := again.unique reach
  cases top.symm.trans top'
  obtain ⟨-, -, room⟩ := tree.nested.root root top
  unfold bufSize at room
  let rest := s.buf.drop start.toNat
  let later := rest.drop c.size.toNat
  let behind := (root.stop - start - c.size).toNat
  refine ⟨s.buf.take start.toNat, rest.take c.size.toNat, later.take behind, later.drop behind,
    ?_, ?_, ?_, ?_⟩
  · rw [take_append_drop, take_append_drop, take_append_drop]
  all_goals
    simp only [later, rest, length_take, length_drop]
    omega

theorem Tree.textResize {newSize : Nat} {memory : Bool} (tree : s.Tree) (here : s.bound b = some c)
    (done : s.configeditTextResize b newSize memory = some (after, false)) :
    ∃ path front text back junk junk' root, s.Reach b path front.length ∧
      s.bound 0 = some root ∧ s.buf = front ++ (text ++ (back ++ junk)) ∧
      after.buf = front ++ (resized text newSize ++ (back ++ junk')) ∧ c.size = text.length ∧
      root.stop = front.length + text.length + back.length ∧ after.allocated = s.allocated ∧
      s.Adjusted after path (front.length + c.size) (newSize - c.size) := by
  obtain ⟨path, start, root, reach, top, -⟩ := tree.orderly.reach here
  obtain ⟨front, text, back, junk, buf, rfl, size, all⟩ := tree.around reach here top
  rcases @Reach.textResize s b path front text back c root junk newSize memory reach tree.ranked here
    top (tree.nested.root root top).1 buf size all with
    ⟨none, -⟩ | ⟨⟨s', failed⟩, -⟩ | ⟨final, junk', resizes, buf', allocated, adjusted⟩
  · cases none.symm.trans done
  · cases failed.symm.trans done
  · cases resizes.symm.trans done
    refine ⟨path, front, text, back, junk, junk', root, reach, top, buf, buf', size, all, allocated, ?_⟩
    rw [size]
    exact adjusted

theorem Tree.stored {kept data : Bytes} {memory : Bool} {final : Session}
    (tree : s.Tree) (here : s.bound b = some c)
    (leaf : ∀ i k, s.bound i = some k → i ≠ 0 → k.parent ≠ b)
    (done : s.configeditTextResize b (kept ++ data).length memory = some (after, false))
    (shape : ∀ text, s.textOf b = some text → ∃ room, room.length = data.length ∧
      resized text (kept ++ data).length = kept ++ room)
    {ptr : Int} (place : after.configeditPtr b = some ptr)
    (stores : after.store (ptr + kept.length) data = some final) :
    s.Exchanged final b (kept ++ data) := by
  obtain ⟨path, front, text, back, junk, junk', root, reach, top, buf, buf', size, all, allocated,
    adjusted⟩ := tree.textResize here done
  obtain ⟨ranked', first'⟩ := adjusted.kept tree reach allocated
  have first : ∀ k, s.bound 0 = some k → k.begin = 0 := fun k known => (tree.nested.root k known).1
  have own : s.textOf b = some text := by
    rw [reach.textOf tree.ranked first here, buf,
      window_across (m := 0) (by omega) (by omega) (Nat.zero_le _)]
    simp
  obtain ⟨room, same, shape⟩ := shape text own
  obtain rfl := some.inj (place.symm.trans
    ((adjusted.reach_way reach fun _ => id).configeditPtr ranked' first'))
  have split : after.buf = (front ++ kept) ++ (room ++ (back ++ junk')) := by
    rw [buf', shape]
    simp only [append_assoc]
  rw [store_eq split (by rw [length_append]; omega)
    (by rw [length_append]; omega)] at stores
  cases stores
  refine @Tree.exchanged s _ b c path front.length front text (kept ++ data) back junk junk' root tree
    reach here top leaf buf ?_ rfl size all allocated ⟨adjusted.way, adjusted.beside, adjusted.other⟩
  rw [← same, drop_left]
  simp only [append_assoc]

/-- Text edits touch only their bound: `configedit_text_replace` exchanges its text, and
`configedit_text_append` adds to it. -/
theorem Tree.edits_exchange (tree : s.Tree) (here : s.bound b = some c)
    (leaf : ∀ i k, s.bound i = some k → i ≠ 0 → k.parent ≠ b) (data : Bytes) (memory : Bool) :
    (∀ final, s.configeditTextReplace b data memory = some (final, false) →
      s.Exchanged final b data) ∧
    (∀ final, s.configeditTextAppend b data memory = some (final, false) →
      ∃ old, s.textOf b = some old ∧ s.Exchanged final b (old ++ data)) := by
  constructor
  · intro final done
    rw [configeditTextReplace] at done
    obtain ⟨⟨after, failed⟩, resizes, done⟩ := bind_eq_some_iff.mp done
    cases failed with
    | true => cases done
    | false =>
      obtain ⟨ptr, place, done⟩ := bind_eq_some_iff.mp done
      obtain ⟨_, stores, done⟩ := bind_eq_some_iff.mp done
      cases done
      exact @Tree.stored s after b c [] data memory final tree here leaf resizes
        (fun text _ => ⟨_, resized_length text data.length, rfl⟩) ptr place (by simpa using stores)
  · intro final done
    obtain ⟨path, start, root, reach, top, -⟩ := tree.orderly.reach here
    obtain ⟨front, text, back, junk, buf, rfl, size, -⟩ := tree.around reach here top
    have own : s.textOf b = some text := by
      rw [reach.textOf tree.ranked (fun k known => (tree.nested.root k known).1) here, buf,
        window_across (m := 0) (by omega) (by omega) (Nat.zero_le _)]
      simp
    simp only [configeditTextAppend, here, bind_eq_bind, bind_some] at done
    obtain ⟨⟨after, failed⟩, resizes, done⟩ := bind_eq_some_iff.mp done
    cases failed with
    | true => cases done
    | false =>
      obtain ⟨ptr, place, done⟩ := bind_eq_some_iff.mp done
      obtain ⟨_, stores, done⟩ := bind_eq_some_iff.mp done
      cases done
      rw [size, ← Int.natCast_add, ← length_append] at resizes
      rw [size] at stores
      refine ⟨text, own, tree.stored here leaf resizes (fun old same => ?_) place stores⟩
      obtain rfl := some.inj (own.symm.trans same)
      refine ⟨List.replicate data.length newline, length_replicate, ?_⟩
      rw [resized, length_append, take_of_length_le (Nat.le_add_right _ _), Nat.add_sub_cancel_left]

/-- The words of `ab cd`, beside each other. -/
def twoWords : Session where
  nodes := [(0, ⟨0, 0, 5⟩), (1, ⟨0, 0, 2⟩), (2, ⟨0, 3, 5⟩)]
  allocated := 3
  buf := [97, 98, 32, 99, 100, 0, 0]

theorem twoWords_bound {i : Nat} {k : Bound} (known : twoWords.bound i = some k) :
    (i = 0 ∧ k = ⟨0, 0, 5⟩) ∨ (i = 1 ∧ k = ⟨0, 0, 2⟩) ∨ (i = 2 ∧ k = ⟨0, 3, 5⟩) := by
  match i, known with
  | 0, known => exact .inl ⟨rfl, (some.inj known).symm⟩
  | 1, known => exact .inr (.inl ⟨rfl, (some.inj known).symm⟩)
  | 2, known => exact .inr (.inr ⟨rfl, (some.inj known).symm⟩)
  | i + 3, known => simp [bound, twoWords, List.lookup_cons] at known

theorem twoWords_tree : twoWords.Tree := by
  refine ⟨⟨?_, ?_, ?_⟩, ⟨?_, ?_⟩, ⟨⟨0, 0, 5⟩, rfl⟩, ?_⟩
  · intro b c known
    rcases twoWords_bound known with ⟨rfl, rfl⟩ | ⟨rfl, rfl⟩ | ⟨rfl, rfl⟩ <;> decide
  · intro b c known inner
    rcases twoWords_bound known with ⟨rfl, rfl⟩ | ⟨rfl, rfl⟩ | ⟨rfl, rfl⟩ <;> simp at inner ⊢
  · intro c known
    cases known
    rfl
  · intro c known
    cases known
    decide
  · intro b c known inner
    rcases twoWords_bound known with ⟨rfl, rfl⟩ | ⟨rfl, rfl⟩ | ⟨rfl, rfl⟩
    · exact absurd rfl inner
    all_goals exact ⟨⟨0, 0, 5⟩, rfl, by decide⟩
  · intro i j c k known other inner inner' differ _
    rcases twoWords_bound known with ⟨rfl, rfl⟩ | ⟨rfl, rfl⟩ | ⟨rfl, rfl⟩ <;>
      rcases twoWords_bound other with ⟨rfl, rfl⟩ | ⟨rfl, rfl⟩ | ⟨rfl, rfl⟩ <;>
        simp at inner inner' differ ⊢

theorem edits_exchange_twoWords :
    ∃ final, twoWords.configeditTextReplace 1 [120, 121, 122] true = some (final, false) ∧
      twoWords.Exchanged final 1 [120, 121, 122] := by
  have runs : (twoWords.configeditTextReplace 1 [120, 121, 122] true).map Prod.snd = some false := by
    decide
  obtain ⟨⟨final, _⟩, runs, rfl⟩ := map_eq_some_iff.mp runs
  refine ⟨final, runs, (Tree.edits_exchange twoWords_tree (c := ⟨0, 0, 2⟩) rfl ?_ _ true).1
    final runs⟩
  intro i k known inner
  rcases twoWords_bound known with ⟨rfl, rfl⟩ | ⟨rfl, rfl⟩ | ⟨rfl, rfl⟩ <;> simp

end Texts

end Session

end AthApps.Config
