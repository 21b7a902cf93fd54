import AthApps.Config.Nested
import AthApps.Lib.Partial

/-!
# Changing the text of a bound

What the functions that change text do to the buffer and to all bounds: the
text of the bound is exchanged in place, the bounds on the way to the root grow
and those beside the topmost of them that come later move.  Below the top no
bound beside the way may begin behind the change.
-/

set_option autoImplicit false

namespace AthApps.Config

open AthApps.Lib List Option

namespace Session

section Buffer

variable {s : Session}

theorem setBuf_self {buf : Bytes} (same : s.buf = buf) : { s with buf := buf } = s := by
  subst same
  rfl

theorem store_eq {front rest data : Bytes} {offset : Int} (buf : s.buf = front ++ rest)
    (start : offset = front.length) (room : data.length ≤ rest.length) :
    s.store offset data = some { s with buf := front ++ data ++ rest.drop data.length } := by
  subst start
  rw [store, if_pos]
  · rw [Int.toNat_natCast, buf, overlay_append_right]
  · unfold bufSize
    rw [buf, length_append]
    omega

theorem reads_eq {front rest : Bytes} {offset : Int} (buf : s.buf = front ++ rest)
    (start : offset = front.length) : s.reads offset = some rest := by
  subst start
  rw [reads, if_pos]
  · rw [Int.toNat_natCast, buf, drop_left]
  · unfold bufSize
    rw [buf, length_append]
    omega

theorem moveText_insert {front back junk : Bytes} {added : Nat}
    (buf : s.buf = front ++ (back ++ junk)) (positive : 0 < added)
    (room : added ≤ junk.length) :
    ∃ junk', s.moveText (front.length + back.length) front.length added =
        some { s with buf := front ++ (List.replicate added newline ++ (back ++ junk')) } := by
  have short : added + back.length ≤ (back ++ junk).length := by
    rw [length_append]
    omega
  have moved : ∃ gap junk', gap.length = added ∧
      s.moveTail (front.length + back.length) front.length added =
        some { s with buf := front ++ (gap ++ (back ++ junk')) } := by
    by_cases empty : back = []
    · subst empty
      refine ⟨junk.take added, junk.drop added, ?_, ?_⟩
      · rw [length_take]
        omega
      · rw [moveTail, if_neg (by simp), nil_append, take_append_drop,
          setBuf_self (by simpa using buf)]
    · have behind : (front.length : Int) < front.length + back.length := by
        have positive : 0 < back.length := length_pos_of_ne_nil empty
        omega
      refine ⟨(back ++ junk).take added, ((back ++ junk).drop added).drop back.length, ?_, ?_⟩
      · rw [length_take]
        omega
      · have tail : (back ++ junk).take ((front.length + back.length : Int) -
            front.length).toNat = back := by
          rw [show ((front.length + back.length : Int) - front.length).toNat = back.length by omega]
          exact take_left
        rw [moveTail, if_pos behind, reads_eq buf rfl]
        simp only [bind_eq_bind, bind_some, tail]
        have split : s.buf = (front ++ (back ++ junk).take added) ++ (back ++ junk).drop added := by
          rw [append_assoc, take_append_drop, buf]
        rw [@store_eq s _ _ back _ split (by
          rw [length_append, length_take]
          omega) (by
          rw [length_drop]
          omega)]
        simp only [append_assoc]
  obtain ⟨gap, junk', size, moves⟩ := moved
  refine ⟨junk', ?_⟩
  rw [moveText, moves]
  simp only [bind_eq_bind, bind_some]
  rw [fill, if_pos (by omega), Int.toNat_natCast,
    @store_eq { s with buf := front ++ (gap ++ (back ++ junk')) } front (gap ++ (back ++ junk'))
      (List.replicate added newline) _ rfl rfl (by
        simp only [length_replicate, length_append]
        omega)]
  rw [length_replicate, ← size, drop_left]
  simp only [append_assoc]

theorem moveText_cut {front cut back junk : Bytes}
    (buf : s.buf = front ++ (cut ++ (back ++ junk))) (some' : cut ≠ []) :
    ∃ junk', s.moveText (front.length + cut.length + back.length) (front.length + cut.length)
        (-cut.length) = some { s with buf := front ++ (back ++ junk') } := by
  have positive : 0 < cut.length := length_pos_of_ne_nil some'
  rw [moveText]
  by_cases empty : back = []
  · subst empty
    refine ⟨cut ++ junk, ?_⟩
    rw [moveTail, if_neg (by simp)]
    simp only [bind_eq_bind, bind_some]
    rw [fill, if_neg (by omega), nil_append, setBuf_self (by simpa using buf)]
  · have behind : (front.length + cut.length : Int) < front.length + cut.length + back.length := by
      have positive : 0 < back.length := length_pos_of_ne_nil empty
      omega
    refine ⟨(cut ++ (back ++ junk)).drop back.length, ?_⟩
    have tail : (back ++ junk).take ((front.length + cut.length + back.length : Int) -
        (front.length + cut.length)).toNat = back := by
      rw [show ((front.length + cut.length + back.length : Int) -
        (front.length + cut.length)).toNat = back.length by omega]
      exact take_left
    have split : s.buf = (front ++ cut) ++ (back ++ junk) := by rw [buf, append_assoc]
    rw [moveTail, if_pos behind, reads_eq split (by rw [length_append]; omega)]
    simp only [bind_eq_bind, bind_some, tail]
    rw [store_eq buf (by omega) (by
      simp only [length_append]
      omega)]
    simp only [bind_some]
    rw [fill, if_neg (by omega)]
    simp only [append_assoc]

end Buffer

def adjusted (path : List Nat) (final addSize : Int) (i : Nat) (c : Bound) : Bound :=
  if i ∈ path ∨ i = 0 then { c with stop := c.stop + addSize }
  else if c.parent = 0 ∧ final ≤ c.begin then
    { c with begin := c.begin + addSize, stop := c.stop + addSize }
  else c

structure Inside (s : Session) (b : Nat) (path : List Nat) (front text back : Bytes) :
    Prop where
  ranked : s.Ranked
  root : s.bound 0 = some ⟨0, 0, front.length + text.length + back.length⟩
  buf : ∃ junk, s.buf = front ++ (text ++ (back ++ junk))
  size : ∃ c, s.bound b = some c ∧ c.size = text.length
  inner : path ≠ []
  reach : s.Reach b (path ++ [0]) front.length
  alone : ∀ j k, s.bound j = some k → j ∉ path → k.parent ∈ path.tail →
    ∃ above ptr, s.Reach k.parent above ptr ∧ ptr + k.begin < front.length + text.length

/-- The text has been exchanged for another. -/
structure Spliced (s after : Session) (path : List Nat) (front text new back : Bytes) :
    Prop where
  buf : ∃ junk, after.buf = front ++ (new ++ (back ++ junk))
  allocated : after.allocated = s.allocated
  bound : ∀ i, after.bound i =
    (s.bound i).map (adjusted path (front.length + text.length) (new.length - text.length) i)

section Texts

variable {s after : Session} {b : Nat} {path : List Nat} {front text back : Bytes}

def Small (size : Nat) : Prop := size + 512 ≤ 2147483647

def resized (text : Bytes) (newSize : Nat) : Bytes :=
  text.take newSize ++ List.replicate (newSize - text.length) newline

theorem resized_length (text : Bytes) (newSize : Nat) :
    (resized text newSize).length = newSize := by
  simp only [resized, length_append, length_take, length_replicate]
  omega

theorem fitsInt_of_le {x : Int} (low : -2147483648 ≤ x) (high : x ≤ 2147483647) :
    fitsInt x = true := by
  simp [fitsInt, low, high]

theorem reallocate_some {s' : Session} {newRootSize : Int} {memory : Bool}
    (done : s.reallocate newRootSize memory = some s') :
    ∃ more, s' = { s with buf := s.buf ++ more } ∧ newRootSize ≤ s.bufSize + more.length := by
  unfold reallocate at done
  split at done
  next small =>
    split at done
    next =>
      cases done
      refine ⟨_, rfl, ?_⟩
      rw [length_replicate]
      unfold configeditMallocExtra
      omega
    next => cases done
  next room =>
    cases done
    exact ⟨[], by simp, by simpa using room⟩

theorem reallocate_none {newRootSize : Int} {memory : Bool}
    (failed : s.reallocate newRootSize memory = none) : memory = false := by
  unfold reallocate at failed
  split at failed
  · split at failed
    next => cases failed
    next none => exact Bool.eq_false_iff.mpr none
  · cases failed

theorem Inside.moveText {more : Bytes} {newSize : Nat} {junk : Bytes}
    (buf : s.buf = front ++ (text ++ (back ++ junk))) (differs : newSize ≠ text.length)
    (room : front.length + newSize + back.length ≤ (s.buf ++ more).length) :
    ∃ junk', Session.moveText { s with buf := s.buf ++ more }
        (front.length + text.length + back.length) (front.length + text.length)
        (newSize - text.length) =
      some { s with buf := front ++ (resized text newSize ++ (back ++ junk')) } := by
  by_cases grows : text.length < newSize
  · have all : s.buf ++ more = (front ++ text) ++ (back ++ (junk ++ more)) := by
      rw [buf]
      simp only [append_assoc]
    obtain ⟨junk', moves⟩ := @moveText_insert { s with buf := s.buf ++ more } (front ++ text) back
      (junk ++ more) (newSize - text.length) all (by omega) (by
        rw [all] at room
        simp only [length_append] at room ⊢
        omega)
    refine ⟨junk', ?_⟩
    rw [length_append] at moves
    have shape : resized text newSize = text ++ List.replicate (newSize - text.length) newline := by
      rw [resized, take_of_length_le (by omega)]
    rw [shape]
    simp only [append_assoc] at moves ⊢
    rw [show ((newSize : Int) - text.length) = ((newSize - text.length : Nat) : Int) by omega,
      show (front.length + text.length : Int) = ((front.length + text.length : Nat) : Int) by omega]
    exact moves
  · have split : text = text.take newSize ++ text.drop newSize := (take_append_drop ..).symm
    have all : s.buf ++ more = (front ++ text.take newSize) ++
        (text.drop newSize ++ (back ++ (junk ++ more))) := by
      rw [buf]
      conv_lhs => rw [split]
      simp only [append_assoc]
    obtain ⟨junk', moves⟩ := @moveText_cut { s with buf := s.buf ++ more }
      (front ++ text.take newSize) (text.drop newSize) back (junk ++ more) all (by
        intro empty
        have short := drop_eq_nil_iff.mp empty
        omega)
    refine ⟨junk', ?_⟩
    have shape : resized text newSize = text.take newSize := by
      rw [resized, show newSize - text.length = 0 by omega, replicate_zero, append_nil]
    have kept : (text.take newSize).length = newSize := by
      rw [length_take]
      omega
    have lost : ((text.drop newSize).length : Int) = text.length - newSize := by
      rw [length_drop]
      omega
    rw [length_append, kept, lost] at moves
    rw [shape]
    simp only [append_assoc] at moves ⊢
    rw [show ((front.length + newSize : Nat) : Int) + (text.length - newSize) =
        front.length + text.length by omega,
      show -((text.length : Int) - newSize) = newSize - text.length by omega] at moves
    exact moves

/-- A text is put in place of another without an int that overflows. -/
def Fits (front text new back : Bytes) : Prop :=
  Small (front.length + text.length + back.length) ∧ Small (front.length + new.length + back.length)

/-- A text is resized in place, unless an int would overflow or the memory is short. -/
theorem Reach.textResize {c root : Bound} {junk : Bytes} {newSize : Nat} {memory : Bool}
    (reach : s.Reach b path front.length) (ranked : s.Ranked) (here : s.bound b = some c)
    (top : s.bound 0 = some root) (first : root.begin = 0)
    (buf : s.buf = front ++ (text ++ (back ++ junk))) (size : c.size = text.length)
    (all : root.stop = front.length + text.length + back.length) :
    (s.configeditTextResize b newSize memory = none ∧
      ¬Fits front text (resized text newSize) back) ∨
    ((∃ s', s.configeditTextResize b newSize memory = some (s', true)) ∧ memory = false) ∨
    ∃ after junk', s.configeditTextResize b newSize memory = some (after, false) ∧
      after.buf = front ++ (resized text newSize ++ (back ++ junk')) ∧
      after.allocated = s.allocated ∧
      s.Adjusted after path (front.length + text.length) (newSize - text.length) := by
  rw [configeditTextResize]
  simp only [here, top, bind_eq_bind, bind_some, size, all]
  split
  next equal =>
    have same : newSize = text.length := by omega
    refine .inr (.inr ⟨s, junk, rfl, ?_, rfl, ?_⟩)
    · rw [buf, resized, same]
      simp
    · rw [equal, Int.sub_self]
      exact ⟨fun i _ k known => by simp [known], fun i k _ _ known _ _ _ _ => by simp [known],
        fun _ _ _ => rfl⟩
  next differs =>
    have offset := reach.offset ranked (fun k known => by cases top.symm.trans known; exact first)
      here c.size
    rw [show c.begin + c.size = c.stop by unfold Bound.size; omega, size] at offset
    simp only [offset, bind_some]
    split
    next overflows =>
      refine .inl ⟨rfl, ?_⟩
      rintro ⟨before, later⟩
      rw [resized_length] at later
      unfold Small at before later
      unfold configeditMallocExtra at overflows
      rw [fitsInt_of_le (by omega) (by omega), fitsInt_of_le (by omega) (by omega),
        fitsInt_of_le (by omega) (by omega)] at overflows
      simp at overflows
    next =>
      split
      next none => exact .inr (.inl ⟨⟨_, rfl⟩, reallocate_none none⟩)
      next grown =>
        obtain ⟨more, rfl, room⟩ := reallocate_some grown
        obtain ⟨junk', moves⟩ := @Inside.moveText s front text back more newSize junk buf (by omega)
          (by
            unfold bufSize at room
            rw [length_append]
            omega)
        obtain ⟨after, loops, buf', allocated, adjusted⟩ := @Reach.adjustLoop
          { s with buf := front ++ (resized text newSize ++ (back ++ junk')) } b path front.length
          (newSize - text.length) text.length s.allocated (reach.congr ranked fun _ _ => rfl)
          ⟨ranked.old, ranked.after, ranked.top⟩ (ranked.old b c here)
        simp only [moves, bind_some, loops]
        exact .inr (.inr ⟨after, junk', rfl, buf', allocated, adjusted.way,
          fun i k out inner known member above ptr reach' =>
            adjusted.beside i k out inner known member above ptr
              (reach'.congr ranked fun _ _ => rfl), adjusted.other⟩)

theorem Inside.adjusted {addSize : Int} (inside : s.Inside b path front text back)
    (loop : s.Adjusted after (path ++ [0]) (front.length + text.length) addSize) (i : Nat) :
    after.bound i =
      (s.bound i).map (Session.adjusted path (front.length + text.length) addSize i) := by
  have tail : ∀ j, j ∈ (path ++ [0]).tail ↔ j ∈ path.tail ∨ j = 0 := by
    intro j
    cases path with
    | nil => exact absurd rfl inside.inner
    | cons b path => simp
  by_cases onWay : i ∈ path ∨ i = 0
  · have member : i ∈ path ++ [0] := by simpa using onWay
    obtain ⟨c, known⟩ := inside.reach.all_known i member
    rw [loop.way i member c known, known, map_some, Session.adjusted, if_pos onWay]
  have out : i ∉ path ++ [0] := by simpa using onWay
  obtain ⟨apart, inner⟩ := not_or.mp onWay
  cases known : s.bound i with
  | none => exact (loop.other i out fun c again => by cases known.symm.trans again).trans known
  | some k =>
    rw [map_some, Session.adjusted, if_neg onWay]
    by_cases above : k.parent = 0
    · rw [loop.beside i k out inner known ((tail _).mpr (.inr above)) [0] 0
        (above ▸ .root inside.root), Int.zero_add]
      simp only [above, true_and]
    · rw [if_neg fun both => above both.1]
      by_cases beside : k.parent ∈ path.tail
      · obtain ⟨way, ptr, reach, before⟩ := inside.alone i k known apart beside
        rw [loop.beside i k out inner known ((tail _).mpr (.inl beside)) way ptr reach,
          if_neg (by omega)]
      · refine (loop.other i out fun c again => ?_).trans known
        cases known.symm.trans again
        exact fun member => ((tail _).mp member).elim beside above

theorem Inside.textResize {newSize : Nat} (inside : s.Inside b path front text back) :
    Yields (Fits front text (resized text newSize) back) (fun result => result.2 = false ∧
        s.Spliced result.1 path front text (resized text newSize) back)
      (s.configeditTextResize b newSize true) := by
  obtain ⟨junk, buf⟩ := inside.buf
  obtain ⟨c, here, size⟩ := inside.size
  rcases @Reach.textResize s b (path ++ [0]) front text back c _ junk newSize true inside.reach
    inside.ranked here inside.root rfl buf size rfl with
    ⟨none, tight⟩ | ⟨-, short⟩ | ⟨after, junk', done, buf', allocated, loop⟩
  · rw [none, yields_none]
    exact tight
  · cases short
  · rw [done]
    refine ⟨rfl, ⟨junk', buf'⟩, allocated, ?_⟩
    rw [resized_length]
    exact inside.adjusted loop

variable {new : Bytes}

theorem Spliced.found (spliced : s.Spliced after path front text new back) {i : Nat} {k : Bound}
    (known : after.bound i = some k) : ∃ c, s.bound i = some c ∧
      k = adjusted path (front.length + text.length) (new.length - text.length) i c := by
  rw [spliced.bound i] at known
  obtain ⟨c, here, rfl⟩ := map_eq_some_iff.mp known
  exact ⟨c, here, rfl⟩

theorem Spliced.ranked (spliced : s.Spliced after path front text new back) (ranked : s.Ranked) :
    after.Ranked := by
  refine ranked.keep spliced.allocated fun i k known => ?_
  obtain ⟨c, here, rfl⟩ := spliced.found known
  refine ⟨c, here, ?_⟩
  unfold adjusted
  split
  · rfl
  · split <;> rfl

theorem Spliced.ptr (spliced : s.Spliced after path front text new back)
    (inside : s.Inside b path front text back) :
    after.configeditPtr b = some (front.length : Int) := by
  refine (inside.reach.same fun i member c here => ?_).configeditPtr
    (spliced.ranked inside.ranked) fun k known => ?_
  · refine ⟨{ c with stop := c.stop + (new.length - text.length) }, ?_, rfl, rfl⟩
    rw [spliced.bound i, here, map_some, adjusted, if_pos (by simpa using member)]
  · obtain ⟨c, here, rfl⟩ := spliced.found known
    cases here.symm.trans inside.root
    rw [adjusted, if_pos (.inr rfl)]

theorem Spliced.store {new stored : Bytes} {kept : Bytes}
    (spliced : s.Spliced after path front text (kept ++ new) back)
    (same : stored.length = new.length) :
    ∃ final, after.store (front.length + kept.length) stored = some final ∧
      s.Spliced final path front text (kept ++ stored) back := by
  obtain ⟨⟨junk, buf⟩, allocated, bound⟩ := spliced
  have split : after.buf = (front ++ kept) ++ (new ++ (back ++ junk)) := by
    rw [buf]
    simp only [append_assoc]
  refine ⟨_, store_eq split (by rw [length_append]; omega) (by
    simp only [length_append]
    omega), ⟨⟨junk, ?_⟩, allocated, ?_⟩⟩
  · rw [same, drop_left]
    simp only [append_assoc]
  · intro i
    have lengths : (kept ++ stored).length = (kept ++ new).length := by
      simp only [length_append, same]
    rw [lengths]
    exact bound i

theorem Inside.replace {new : Bytes} (inside : s.Inside b path front text back) :
    Yields (Fits front text new back)
      (fun result => result.2 = false ∧ s.Spliced result.1 path front text new back)
      (s.configeditTextReplace b new true) := by
  have fits : Fits front text new back → Fits front text (resized text new.length) back := by
    unfold Fits
    rw [resized_length]
    exact id
  rw [configeditTextReplace]
  refine (inside.textResize.under fits).bind ?_
  rintro ⟨middle, failed⟩ ⟨rfl, spliced⟩
  have ptr := spliced.ptr inside
  obtain ⟨final, stores, spliced'⟩ := @Spliced.store s middle path front text back
    (resized text new.length) new [] spliced (resized_length ..).symm
  simp only [length_nil, Int.natCast_zero, Int.add_zero] at stores
  simp only [bind_eq_bind, bind_some, Bool.false_eq_true, if_false, ptr, stores]
  exact ⟨rfl, spliced'⟩

theorem Inside.append {more : Bytes} (inside : s.Inside b path front text back) :
    Yields (Fits front text (text ++ more) back)
      (fun result => result.2 = false ∧ s.Spliced result.1 path front text (text ++ more) back)
      (s.configeditTextAppend b more true) := by
  have fits : Fits front text (text ++ more) back →
      Fits front text (resized text (text ++ more).length) back := by
    unfold Fits
    rw [resized_length]
    exact id
  obtain ⟨c, here, size⟩ := inside.size
  rw [configeditTextAppend, here]
  simp only [bind_eq_bind, bind_some, size]
  rw [show (text.length + more.length : Int) = (text ++ more).length by simp]
  refine (inside.textResize.under fits).bind ?_
  rintro ⟨middle, failed⟩ ⟨rfl, spliced⟩
  have ptr := spliced.ptr inside
  have shape : resized text (text ++ more).length = text ++ List.replicate more.length newline := by
    rw [resized, take_of_length_le (by simp), length_append, Nat.add_sub_cancel_left]
  rw [shape] at spliced
  obtain ⟨final, stores, spliced'⟩ := @Spliced.store s middle path front text back
    (List.replicate more.length newline) more text spliced (length_replicate ..).symm
  simp only [bind_some, Bool.false_eq_true, if_false, ptr, stores]
  exact ⟨rfl, spliced'⟩

end Texts

end Session

end AthApps.Config
