import AthApps.Config.Edit

/-!
# The way from a bound to the root

Where the text of a bound is in the buffer, by adding offsets down from the root, and
what the loop that goes up to the root leaves of all bounds: it moves the bounds beside
its way by offsets in the space of their parent.
-/

set_option autoImplicit false

namespace AthApps.Config

open AthApps.Lib List Option
open Function (update_of_ne update_self)

namespace Session

structure Ranked (s : Session) : Prop where
  old : ∀ b c, s.bound b = some c → b < s.allocated
  after : ∀ b c, s.bound b = some c → b ≠ 0 → c.parent < b
  top : ∀ c, s.bound 0 = some c → c.parent = 0

structure Nested (s : Session) : Prop where
  root : ∀ c, s.bound 0 = some c → c.begin = 0 ∧ 0 ≤ c.stop ∧ c.stop ≤ s.bufSize
  inner : ∀ b c, s.bound b = some c → b ≠ 0 → ∃ p, s.bound c.parent = some p ∧
    0 ≤ c.begin ∧ c.begin ≤ c.stop ∧ c.stop ≤ p.size

structure Orderly (s : Session) : Prop where
  ranked : s.Ranked
  nested : s.Nested

/-- `node` begins at `ptr` in the buffer; `path` goes from it to the root. -/
inductive Reach (s : Session) : Nat → List Nat → Int → Prop
  | root {c : Bound} (here : s.bound 0 = some c) : Reach s 0 [0] 0
  | inner {node : Nat} {c : Bound} {path : List Nat} {ptr : Int}
      (here : s.bound node = some c) (inner : node ≠ 0) (rest : Reach s c.parent path ptr) :
      Reach s node (node :: path) (ptr + c.begin)

section Ways

variable {s after : Session} {node : Nat} {path : List Nat} {ptr : Int}

theorem Reach.known (reach : s.Reach node path ptr) : ∃ c, s.bound node = some c := by
  cases reach with
  | root here => exact ⟨_, here⟩
  | inner here _ _ => exact ⟨_, here⟩

theorem Reach.head (reach : s.Reach node path ptr) : ∃ rest, path = node :: rest := by
  cases reach with
  | root _ => exact ⟨[], rfl⟩
  | inner _ _ _ => exact ⟨_, rfl⟩

variable {ptr' : Int}

theorem Reach.unique {other : List Nat} (reach : s.Reach node path ptr)
    (reach' : s.Reach node other ptr') : other = path ∧ ptr' = ptr := by
  induction reach generalizing other ptr' with
  | root here =>
    cases reach' with
    | root _ => exact ⟨rfl, rfl⟩
    | inner _ inner _ => exact absurd rfl inner
  | inner here inner rest ih =>
    cases reach' with
    | root _ => exact absurd rfl inner
    | inner here' _ rest' =>
      cases here.symm.trans here'
      obtain ⟨rfl, rfl⟩ := ih rest'
      exact ⟨rfl, rfl⟩

theorem Reach.falls (reach : s.Reach node path ptr) (ranked : s.Ranked) :
    ∀ i ∈ path.tail, i < node := by
  induction reach with
  | root _ => simp
  | @inner node c path ptr here inner rest ih =>
    have less := ranked.after node c here inner
    obtain ⟨above, rfl⟩ := rest.head
    intro i member
    rcases mem_cons.mp member with rfl | further
    · exact less
    · exact Nat.lt_trans (ih i further) less

theorem Reach.congr (reach : s.Reach node path ptr) (ranked : s.Ranked)
    (same : ∀ i ≤ node, after.bound i = s.bound i) : after.Reach node path ptr := by
  induction reach with
  | root here => exact .root ((same 0 (Nat.le_refl _)).trans here)
  | @inner node c path ptr here inner rest ih =>
    have less := ranked.after node c here inner
    exact .inner ((same node (Nat.le_refl _)).trans here) inner (ih fun i small => same i (by omega))

theorem Reach.offsetLoop (reach : s.Reach node path ptr) (ranked : s.Ranked) (offset : Int)
    {fuel : Nat} (enough : node < fuel) :
    s.offsetLoop fuel node offset = some (offset + ptr) := by
  induction reach generalizing offset fuel with
  | root _ =>
    obtain ⟨fuel, rfl⟩ : ∃ m, fuel = m + 1 := ⟨fuel - 1, by omega⟩
    rw [Session.offsetLoop, if_pos rfl, Int.add_zero]
  | @inner node c path ptr here inner rest ih =>
    obtain ⟨fuel, rfl⟩ : ∃ m, fuel = m + 1 := ⟨fuel - 1, by omega⟩
    have less := ranked.after node c here inner
    rw [Session.offsetLoop, if_neg inner, here]
    simp only [bind_eq_bind, bind_some]
    rw [ih _ (by omega)]
    congr 1
    omega

variable {place addSize : Int} {c : Bound} {i : Nat}

theorem Reach.offset (reach : s.Reach node path ptr) (ranked : s.Ranked)
    (first : ∀ c, s.bound 0 = some c → c.begin = 0) (here : s.bound node = some c)
    (extra : Int) : s.offsetLoop s.allocated c.parent (c.begin + extra) = some (ptr + extra) := by
  have old := ranked.old node c here
  cases reach with
  | root _ =>
    obtain ⟨fuel, same⟩ : ∃ m, s.allocated = m + 1 := ⟨s.allocated - 1, by omega⟩
    rw [same, Session.offsetLoop, if_pos (ranked.top c here), first c here]
  | @inner _ c' path ptr here' inner rest =>
    cases here.symm.trans here'
    have less := ranked.after node c here inner
    rw [rest.offsetLoop ranked _ (by omega)]
    congr 1
    omega

theorem Reach.configeditPtr (reach : s.Reach node path ptr) (ranked : s.Ranked)
    (first : ∀ c, s.bound 0 = some c → c.begin = 0) : s.configeditPtr node = some ptr := by
  obtain ⟨c, here⟩ := reach.known
  have found := reach.offset ranked first here 0
  rw [Int.add_zero, Int.add_zero] at found
  rw [Session.configeditPtr, here]
  exact found

theorem Reach.root_mem (reach : s.Reach node path ptr) : 0 ∈ path := by
  induction reach with
  | root _ => exact mem_singleton.mpr rfl
  | inner _ _ _ ih => exact mem_cons_of_mem _ ih

theorem Reach.sub (reach : s.Reach node path ptr) {path' : List Nat} (member : i ∈ path)
    (reach' : s.Reach i path' ptr') : ∀ j ∈ path', j ∈ path := by
  induction reach with
  | root here =>
    obtain rfl := mem_singleton.mp member
    obtain ⟨rfl, -⟩ := (Reach.root here).unique reach'
    exact fun _ => id
  | inner here inner rest ih =>
    rcases mem_cons.mp member with rfl | further
    · obtain ⟨rfl, -⟩ := (Reach.inner here inner rest).unique reach'
      exact fun _ => id
    · exact fun j again => mem_cons_of_mem _ (ih further j again)

theorem Reach.all_known (reach : s.Reach node path ptr) :
    ∀ i ∈ path, ∃ c, s.bound i = some c := by
  induction reach with
  | root here =>
    intro i member
    obtain rfl := mem_singleton.mp member
    exact ⟨_, here⟩
  | inner here _ _ ih =>
    intro i member
    rcases mem_cons.mp member with rfl | further
    · exact ⟨_, here⟩
    · exact ih i further

theorem Reach.parent_mem (reach : s.Reach node path ptr) (member : i ∈ path)
    (inner : i ≠ 0) (here : s.bound i = some c) : c.parent ∈ path := by
  induction reach with
  | root _ => exact absurd (mem_singleton.mp member) inner
  | inner here' _ rest ih =>
    rcases mem_cons.mp member with rfl | further
    · cases here'.symm.trans here
      obtain ⟨above, rfl⟩ := rest.head
      exact mem_cons_of_mem _ mem_cons_self
    · exact mem_cons_of_mem _ (ih further)

theorem Orderly.reach (orderly : s.Orderly) {b : Nat} (here : s.bound b = some c) :
    ∃ path ptr root, s.Reach b path ptr ∧ s.bound 0 = some root ∧ 0 ≤ ptr ∧ 0 ≤ c.size ∧
      ptr + c.size ≤ root.stop := by
  induction b using Nat.strongRecOn generalizing c with
  | ind b ih =>
    by_cases inner : b = 0
    · subst inner
      obtain ⟨begin, stop, -⟩ := orderly.nested.root _ here
      exact ⟨[0], 0, c, .root here, here, by omega, by unfold Bound.size; omega,
        by unfold Bound.size; omega⟩
    · obtain ⟨p, above, first, order, last⟩ := orderly.nested.inner b c here inner
      have less := orderly.ranked.after b c here inner
      obtain ⟨path, ptr, root, reach, top, start, size, inside⟩ := ih c.parent less above
      refine ⟨b :: path, ptr + c.begin, root, .inner here inner reach, top, by omega, ?_, ?_⟩ <;>
        unfold Bound.size at * <;> omega

theorem Orderly.within (orderly : s.Orderly) (reach : s.Reach node path ptr)
    (here : s.bound node = some c) {path' : List Nat} {k : Bound} (member : i ∈ path)
    (reach' : s.Reach i path' ptr') (known : s.bound i = some k) :
    ptr' ≤ ptr ∧ ptr + c.size ≤ ptr' + k.size := by
  induction reach generalizing c with
  | root top =>
    obtain rfl := mem_singleton.mp member
    obtain ⟨-, rfl⟩ := (Reach.root top).unique reach'
    cases here.symm.trans known
    exact ⟨Int.le_refl _, Int.le_refl _⟩
  | @inner node c' path ptr here' inner rest ih =>
    obtain rfl : c = c' := some.inj (here.symm.trans here')
    rcases mem_cons.mp member with rfl | further
    · obtain ⟨-, rfl⟩ := (Reach.inner here' inner rest).unique reach'
      cases here.symm.trans known
      exact ⟨Int.le_refl _, Int.le_refl _⟩
    · obtain ⟨p, above, first, order, last⟩ := orderly.nested.inner node c here inner
      obtain ⟨start, stop⟩ := ih above further
      unfold Bound.size at *
      omega

/-- What the loop over the parents leaves: the bounds on the way grow, the ones beside it
move if they begin at or behind the place, and nothing else changes. -/
structure Adjusted (s after : Session) (path : List Nat) (place addSize : Int) : Prop where
  way : ∀ i ∈ path, ∀ c, s.bound i = some c →
    after.bound i = some { c with stop := c.stop + addSize }
  beside : ∀ i c, i ∉ path → i ≠ 0 → s.bound i = some c → c.parent ∈ path.tail →
    ∀ above ptr, s.Reach c.parent above ptr →
      after.bound i = some (if place ≤ ptr + c.begin then
        { c with begin := c.begin + addSize, stop := c.stop + addSize } else c)
  other : ∀ i, i ∉ path → (∀ c, s.bound i = some c → c.parent ∉ path.tail) →
    after.bound i = s.bound i

theorem moveSiblings_setBound (s : Session) (node parent : Nat) (grown : Bound)
    (offset addSize : Int) (i : Nat) :
    ((s.setBound node grown).moveSiblings node parent offset addSize).bound i =
      if i = node then some grown
      else (s.bound i).map fun k =>
        if i ≠ 0 ∧ k.parent = parent ∧ offset ≤ k.begin then
          { k with begin := k.begin + addSize, stop := k.stop + addSize }
        else k := by
  rw [moveSiblings, bound_changeNodes, bound_setBound]
  by_cases same : i = node
  · simp [same]
  · simp [same]

theorem Ranked.keep (ranked : s.Ranked) (allocated : after.allocated = s.allocated)
    (parents : ∀ i m, after.bound i = some m → ∃ k, s.bound i = some k ∧ m.parent = k.parent) :
    after.Ranked := by
  refine ⟨fun i m known => ?_, fun i m known inner => ?_, fun m known => ?_⟩
  · obtain ⟨k, known, -⟩ := parents i m known
    exact allocated ▸ ranked.old i k known
  · obtain ⟨k, known, same⟩ := parents i m known
    exact same ▸ ranked.after i k known inner
  · obtain ⟨k, known, same⟩ := parents 0 m known
    exact same ▸ ranked.top k known

theorem Ranked.update (ranked : s.Ranked) {i : Nat} {c : Bound}
    (bound : after.bound = Function.update s.bound i (some c)) (old : i < after.allocated)
    (more : s.allocated ≤ after.allocated) (parent : c.parent < i) : after.Ranked := by
  refine ⟨fun j m known => ?_, fun j m known inner => ?_, fun m known => ?_⟩
  · by_cases same : j = i
    · exact same ▸ old
    · rw [bound, update_of_ne same] at known
      exact Nat.lt_of_lt_of_le (ranked.old j m known) more
  · by_cases same : j = i
    · subst same
      rw [bound, update_self] at known
      cases known
      exact parent
    · rw [bound, update_of_ne same] at known
      exact ranked.after j m known inner
  · rw [bound, update_of_ne (by omega)] at known
    exact ranked.top m known

theorem Orderly.update (orderly : s.Orderly) {i : Nat} {c p : Bound}
    (bound : after.bound = Function.update s.bound i (some c)) (old : i < after.allocated)
    (more : s.allocated ≤ after.allocated) (size : after.bufSize = s.bufSize) (parent : c.parent < i)
    (leaf : ∀ j k, s.bound j = some k → j ≠ 0 → j ≠ i → k.parent ≠ i)
    (above : s.bound c.parent = some p) (first : 0 ≤ c.begin) (order : c.begin ≤ c.stop)
    (last : c.stop ≤ p.size) : after.Orderly := by
  refine ⟨orderly.ranked.update bound old more parent, fun m known => ?_, fun j m known inner => ?_⟩
  · rw [bound, update_of_ne (by omega)] at known
    rw [size]
    exact orderly.nested.root m known
  · by_cases same : j = i
    · subst same
      rw [bound, update_self] at known
      cases known
      exact ⟨p, by rw [bound, update_of_ne (by omega), above], first, order, last⟩
    · rw [bound, update_of_ne same] at known
      obtain ⟨q, above', rest⟩ := orderly.nested.inner j m known inner
      exact ⟨q, by rw [bound, update_of_ne (leaf j m known inner same), above'], rest⟩

theorem Reach.adjustLoop {addSize offset : Int} {fuel : Nat} (reach : s.Reach node path ptr)
    (ranked : s.Ranked) (enough : node < fuel) :
    ∃ after, adjustLoop addSize fuel node offset s = some after ∧ after.buf = s.buf ∧
      after.allocated = s.allocated ∧ s.Adjusted after path (ptr + offset) addSize := by
  induction path generalizing s node ptr offset fuel with
  | nil => obtain ⟨rest, none⟩ := reach.head; cases none
  | cons first rest ih =>
    obtain ⟨fuel, rfl⟩ : ∃ m, fuel = m + 1 := ⟨fuel - 1, by omega⟩
    cases reach with
    | @root c here =>
      have apart : ∀ {i : Nat}, i ∉ [0] → i ≠ 0 := by simp
      refine ⟨s.setBound 0 { c with stop := c.stop + addSize }, ?_, rfl, rfl, ?_⟩
      · rw [Session.adjustLoop, here]
        rfl
      refine ⟨?_, fun i c' _ _ _ none => absurd none (by simp), fun i out _ => ?_⟩
      · intro i member k known
        obtain rfl := mem_singleton.mp member
        cases here.symm.trans known
        rw [bound_setBound, update_self]
      · rw [bound_setBound, update_of_ne (apart out)]
    | @inner _ c _ ptr here inner reach =>
      have less := ranked.after first c here inner
      obtain ⟨above, rfl⟩ := reach.head
      have falls := reach.falls ranked
      have step := s.moveSiblings_setBound first c.parent { c with stop := c.stop + addSize }
        (offset + c.begin) addSize
      -- the way from the parent on is as it was
      have same : ∀ i ≤ c.parent, ((s.setBound first { c with
          stop := c.stop + addSize }).moveSiblings first c.parent (offset + c.begin)
          addSize).bound i = s.bound i := by
        intro i small
        rw [step, if_neg (by omega)]
        cases known : s.bound i with
        | none => rfl
        | some k =>
          rw [map_some, if_neg]
          rintro ⟨notRoot, sibling, -⟩
          have before := ranked.after i k known notRoot
          omega
      generalize next : (s.setBound first { c with
        stop := c.stop + addSize }).moveSiblings first c.parent (offset + c.begin) addSize = s'
        at step same
      have ranked' : s'.Ranked := by
        refine ranked.keep (by rw [← next]; rfl) fun i m known => ?_
        rw [step] at known
        split at known
        next eq => cases known; exact ⟨c, eq ▸ here, rfl⟩
        next =>
          obtain ⟨k, known', changed⟩ := map_eq_some_iff.mp known
          refine ⟨k, known', ?_⟩
          rw [← changed]
          split <;> rfl
      obtain ⟨after, done, buf, allocated, adjusted⟩ :=
        @ih s' c.parent ptr (offset + c.begin) fuel (reach.congr ranked same) ranked' (by omega)
      refine ⟨after, ?_, buf.trans (by rw [← next]; rfl), allocated.trans (by rw [← next]; rfl),
        ?_⟩
      · rw [Session.adjustLoop, here]
        simp only [bind_eq_bind, bind_some]
        rw [if_neg inner, next]
        exact done
      have lower : ∀ i ∈ c.parent :: above, i ≤ c.parent := by
        intro i member
        rcases mem_cons.mp member with rfl | further
        · exact Nat.le_refl _
        · exact Nat.le_of_lt (falls i further)
      have fresh : c.parent ∉ above := fun again => absurd (falls _ again) (Nat.lt_irrefl _)
      have unmoved : ∀ {i : Nat} {k : Bound}, i ≠ first → s.bound i = some k →
          k.parent ≠ c.parent → s'.bound i = some k := by
        intro i k apart known parent
        rw [step, if_neg apart, known, map_some, if_neg fun all => parent all.2.1]
      refine ⟨?_, ?_, ?_⟩
      · intro i member k known
        rcases mem_cons.mp member with rfl | further
        · cases here.symm.trans known
          have grown := step i
          rw [if_pos rfl] at grown
          rw [adjusted.other i (fun again => absurd (lower i again) (by omega)) ?_, grown]
          intro m known
          cases grown.symm.trans known
          exact fresh
        · exact adjusted.way i further k ((same i (lower i further)).trans known)
      · intro i k out notRoot known parent above' ptr' reach'
        obtain ⟨apart, out⟩ := not_or.mp (mt mem_cons.mpr out)
        rcases mem_cons.mp parent with sibling | further
        · rw [sibling] at reach'
          obtain ⟨-, rfl⟩ := reach.unique reach'
          have moved := step i
          rw [if_neg apart, known, map_some] at moved
          rw [adjusted.other i out ?_, moved]
          · congr 1
            refine if_congr ?_ rfl rfl
            constructor
            · rintro ⟨-, -, behind⟩
              omega
            · exact fun behind => ⟨notRoot, sibling, by omega⟩
          · intro m known'
            cases moved.symm.trans known'
            split <;> exact sibling ▸ fresh
        · have different : k.parent ≠ c.parent := fun again => fresh (again ▸ further)
          have small := falls _ further
          rw [adjusted.beside i k out notRoot (unmoved apart known different) further above' ptr'
            (reach'.congr ranked fun j low => same j (by omega))]
          rw [show ptr + (offset + c.begin) = ptr + c.begin + offset by omega]
      · intro i out parents
        obtain ⟨apart, out⟩ := not_or.mp (mt mem_cons.mpr out)
        have kept : s'.bound i = s.bound i := by
          cases known : s.bound i with
          | none => rw [step, if_neg apart, known]; rfl
          | some k => exact unmoved apart known fun again => parents k known (again ▸ mem_cons_self)
        rw [adjusted.other i out ?_, kept]
        intro k known
        exact fun again => parents k (kept ▸ known) (mem_cons_of_mem _ again)

theorem Reach.same (reach : s.Reach node path ptr) (same : ∀ i ∈ path, ∀ c, s.bound i = some c →
      ∃ k, after.bound i = some k ∧ k.parent = c.parent ∧ k.begin = c.begin) :
    after.Reach node path ptr := by
  induction reach with
  | root here =>
    obtain ⟨k, known, -⟩ := same 0 mem_cons_self _ here
    exact .root known
  | @inner node c path ptr here inner rest ih =>
    obtain ⟨k, known, parent, begin⟩ := same node mem_cons_self c here
    rw [← begin]
    exact .inner known inner (parent ▸ ih fun i member => same i (mem_cons_of_mem _ member))

theorem Adjusted.reach_way {way : List Nat}
    (adjusted : s.Adjusted after way place addSize) (reach : s.Reach node path ptr)
    (along : ∀ j ∈ path, j ∈ way) : after.Reach node path ptr :=
  reach.same fun i member c here => ⟨_, adjusted.way i (along i member) c here, rfl, rfl⟩

theorem Adjusted.aside (adjusted : s.Adjusted after path place addSize)
    (orderly : s.Orderly) {k : Bound} (out : i ∉ path) (inner : i ≠ 0)
    (known : s.bound i = some k) :
    ∃ k', after.bound i = some k' ∧ k'.parent = k.parent ∧ k'.size = k.size := by
  by_cases above : k.parent ∈ path.tail
  · obtain ⟨p, known', -⟩ := orderly.nested.inner i k known inner
    obtain ⟨path', ptr', -, reach', -⟩ := orderly.reach known'
    refine ⟨_, adjusted.beside i k out inner known above path' ptr' reach', ?_⟩
    split
    · refine ⟨rfl, ?_⟩
      change k.stop + addSize - (k.begin + addSize) = k.stop - k.begin
      omega
    · exact ⟨rfl, rfl⟩
  · refine ⟨k, (adjusted.other i out fun m again => ?_).trans known, rfl, rfl⟩
    cases known.symm.trans again
    exact above

theorem Adjusted.ranked (adjusted : s.Adjusted after path place addSize)
    (orderly : s.Orderly) (reach : s.Reach node path ptr)
    (allocated : after.allocated = s.allocated) : after.Ranked := by
  refine orderly.ranked.keep allocated fun i m found => ?_
  by_cases member : i ∈ path
  · obtain ⟨k, known⟩ := reach.all_known i member
    cases found.symm.trans (adjusted.way i member k known)
    exact ⟨k, known, rfl⟩
  cases known : s.bound i with
  | none =>
    rw [adjusted.other i member (fun k again => by cases known.symm.trans again), known] at found
    cases found
  | some k =>
    have inner : i ≠ 0 := fun zero => member (zero ▸ reach.root_mem)
    obtain ⟨k', found', parent, -⟩ := adjusted.aside orderly member inner known
    cases found.symm.trans found'
    exact ⟨k, rfl, parent⟩

end Ways

end Session

end AthApps.Config
