import AthApps.Config.Ways

/-!
# Bounds within bounds

Every bound lies within its parent and the root within the buffer, as long as
no text is cut that a child of the bound still covers: `configedit_text_resize`
adjusts the parents and the siblings of a bound, not its children.  Siblings
that overlap the cut are not adjusted either, which the description of the
module warns of.
-/

set_option autoImplicit false

namespace AthApps.Config

open AthApps.Lib List Option

namespace Session

def childrenFit (s : Session) (b : Nat) (newSize : Int) : Bool :=
  (List.range s.allocated).all fun j =>
    match s.bound j with
    | none => true
    | some k => j = 0 || k.parent ≠ b || k.stop ≤ newSize

def siblingsFit (s : Session) (node parent : Nat) (offset left : Int) : Bool :=
  (List.range s.allocated).all fun j =>
    match s.bound j with
    | none => true
    | some k => j = node || j = 0 || k.parent ≠ parent || offset ≤ k.begin || k.stop ≤ left

def besideFit (s : Session) (addSize : Int) : Nat → Nat → Int → Bool
  | 0, _, _ => true
  | fuel + 1, node, offset =>
    match s.bound node with
    | none => true
    | some c =>
      match s.bound c.parent with
      | none => true
      | some p =>
        node = 0 || s.siblingsFit node c.parent (offset + c.begin) (p.size + addSize) &&
            s.besideFit addSize fuel c.parent (offset + c.begin)

/-- A cut takes no text that another bound still covers. -/
def cutFits (s : Session) (b : Nat) (newSize : Int) : Bool :=
  match s.bound b with
  | none => true
  | some c =>
    c.size ≤ newSize ||
      s.childrenFit b newSize && s.besideFit (newSize - c.size) s.allocated b c.size

def obeys : Operation → Bool
  | .dup b _ => b ≠ 0
  | .boundResize b _ => b ≠ 0
  | .advance b _ => b ≠ 0
  | .next b => b ≠ 0
  | .nextLine b => b ≠ 0
  | .nextWord b _ => b ≠ 0
  | .rewind b => b ≠ 0
  | .seekend b => b ≠ 0
  | _ => true

def sized : Operation → Bool
  | .textResize _ newSize _ => 0 ≤ newSize
  | _ => true

def cutsNothing (s : Session) : Operation → Bool
  | .textResize b newSize _ => s.cutFits b newSize
  | .textReplace b text _ => s.cutFits b text.length
  | _ => true

section Bounds

variable {s : Session} {b : Nat} {c : Bound}

theorem Nested.size_nonneg (nested : s.Nested) (here : s.bound b = some c) : 0 ≤ c.size := by
  unfold Bound.size
  by_cases root : b = 0
  · subst root
    obtain ⟨begin, stop, -⟩ := nested.root c here
    omega
  · obtain ⟨p, -, -, order, -⟩ := nested.inner b c here root
    omega

theorem isUnder_enough (ranked : s.Ranked) {fuel more i : Nat} (enough : i ≤ fuel)
    (enough' : i ≤ more) : s.isUnder b fuel i = s.isUnder b more i := by
  induction fuel generalizing i more with
  | zero =>
    obtain rfl := Nat.le_zero.mp enough
    cases more with
    | zero => rfl
    | succ more => simp [isUnder]
  | succ fuel ih =>
    cases more with
    | zero =>
      obtain rfl := Nat.le_zero.mp enough'
      simp [isUnder]
    | succ more =>
      rw [isUnder, isUnder]
      by_cases root : i = 0
      · simp [root]
      cases here : s.bound i with
      | none => rfl
      | some k =>
        have less := ranked.after i k here root
        simp only
        rw [@ih more k.parent (by omega) (by omega)]

variable {after : Session} {k : Bound}

variable {i parent node j fuel : Nat}

theorem isUnder_parent (ranked : s.Ranked) (here : s.bound i = some k) (inner : i ≠ 0)
    (apart : i ≠ b) : s.isUnder b s.allocated i = s.isUnder b s.allocated k.parent := by
  have less := ranked.after i k here inner
  have old := ranked.old i k here
  obtain ⟨fuel, same⟩ : ∃ fuel, s.allocated = fuel + 1 := ⟨s.allocated - 1, by omega⟩
  rw [@isUnder_enough s b ranked (fuel + 1) s.allocated k.parent (by omega) (by omega) |>.symm]
  rw [same, isUnder, isUnder]
  simp only [apart, decide_false, Bool.false_or, here, inner, ne_eq, not_false_eq_true,
    decide_true, Bool.true_and]
  rw [@isUnder_enough s b ranked fuel (fuel + 1) k.parent (by omega) (by omega), isUnder]

theorem freeChildren_some : (s.freeChildren b).bound i = some k ↔
      s.bound i = some k ∧ (i = b ∨ s.isUnder b s.allocated i = false) := by
  rw [freeChildren, bound_keepNodes]
  by_cases same : i = b
  · simp [same]
  · simp [same, and_comm]

theorem isUnder_self (fuel : Nat) : s.isUnder b fuel b = true := by
  cases fuel <;> simp [isUnder]

theorem freeChildren_parent (ranked : s.Ranked) (here : (s.freeChildren b).bound i = some k)
    (inner : i ≠ 0) (apart : i ≠ b) : k.parent ≠ b ∧ s.isUnder b s.allocated k.parent = false := by
  obtain ⟨known, kept⟩ := freeChildren_some.mp here
  have free := kept.resolve_left apart
  rw [isUnder_parent ranked known inner apart] at free
  refine ⟨?_, free⟩
  intro same
  rw [same, isUnder_self] at free
  cases free

theorem Ranked.freeChildren (ranked : s.Ranked) (b : Nat) : (s.freeChildren b).Ranked :=
  ⟨fun i k here => ranked.old i k (freeChildren_some.mp here).1,
    fun i k here => ranked.after i k (freeChildren_some.mp here).1,
    fun k here => ranked.top k (freeChildren_some.mp here).1⟩

theorem Nested.freeChildren (nested : s.Nested) (ranked : s.Ranked) (b : Nat) :
    (s.freeChildren b).Nested := by
  refine ⟨fun k here => nested.root k (freeChildren_some.mp here).1, ?_⟩
  intro i k here inner
  obtain ⟨p, known, first, order, last⟩ := nested.inner i k (freeChildren_some.mp here).1 inner
  refine ⟨p, freeChildren_some.mpr ⟨known, ?_⟩, first, order, last⟩
  by_cases apart : i = b
  · -- the parent of the bound itself comes before it
    subst apart
    right
    have less := ranked.after i k (freeChildren_some.mp here).1 inner
    by_contra under
    have below : ∀ {fuel j : Nat}, j < i → s.isUnder i fuel j = false := by
      intro fuel
      induction fuel with
      | zero =>
        intro j small
        simp [isUnder]
        omega
      | succ fuel ih =>
        intro j small
        rw [isUnder]
        cases known : s.bound j with
        | none => simp; omega
        | some m =>
          by_cases root : j = 0
          · simp [root]
            omega
          · have further := ranked.after j m known root
            simp only [ih (show m.parent < i by omega), Bool.and_false, Bool.or_false,
              decide_eq_false_iff_not]
            omega
    exact under (below less)
  · exact Or.inr (freeChildren_parent ranked here inner apart).2

theorem Orderly.freeChildren (orderly : s.Orderly) (b : Nat) : (s.freeChildren b).Orderly :=
  ⟨orderly.ranked.freeChildren b, orderly.nested.freeChildren orderly.ranked b⟩

variable {p : Bound} {begin stop offset addSize start newSize : Int}

theorem Orderly.place (orderly : s.Orderly) (here : s.bound b = some c) (inner : b ≠ 0)
    (above : s.bound c.parent = some p) (first : 0 ≤ begin) (order : begin ≤ stop)
    (last : stop ≤ p.size) :
    Orderly ((s.freeChildren b).setBound b { c with begin := begin, stop := stop }) := by
  have freed := orderly.freeChildren b
  have kept : (s.freeChildren b).bound b = some c := freeChildren_some.mpr ⟨here, Or.inl rfl⟩
  obtain ⟨q, above', -⟩ := freed.nested.inner b c kept inner
  have parent : q = p := some.inj ((freeChildren_some.mp above').1.symm.trans above)
  exact @Orderly.update _ _ freed b { c with begin := begin, stop := stop } p (bound_setBound ..)
    (freed.ranked.old b c kept) (Nat.le_refl _) rfl (orderly.ranked.after b c here inner)
    (fun j k known notRoot apart => (freeChildren_parent orderly.ranked known notRoot apart).1)
    (parent ▸ above') first order last

theorem configeditNew_bound (s : Session) (parent : Nat) (begin stop : Int) :
    (s.configeditNew parent begin stop).1.bound =
      Function.update s.bound s.allocated (some ⟨parent, begin, stop⟩) :=
  bound_setBound s s.allocated ⟨parent, begin, stop⟩

theorem Orderly.new (orderly : s.Orderly) (above : s.bound parent = some p) (first : 0 ≤ begin)
    (order : begin ≤ stop) (last : stop ≤ p.size) :
    (s.configeditNew parent begin stop).1.Orderly := by
  refine @Orderly.update _ _ orderly s.allocated ⟨parent, begin, stop⟩ p
    (configeditNew_bound s parent begin stop) (Nat.lt_succ_self _) (Nat.le_succ _) rfl
    (orderly.ranked.old parent p above) (fun j k known inner _ => ?_) above first order last
  have less := orderly.ranked.after j k known inner
  have older := orderly.ranked.old j k known
  omega

theorem Orderly.free (orderly : s.Orderly) (b : Nat) : (s.configeditFree b).Orderly := by
  have ranked := orderly.ranked.freeChildren b
  have nested := orderly.nested.freeChildren orderly.ranked b
  have found : ∀ {i : Nat} {k : Bound}, (s.configeditFree b).bound i = some k →
      i ≠ b ∧ (s.freeChildren b).bound i = some k := by
    intro i k known
    by_cases same : i = b
    · simp [configeditFree, bound_keepNodes, same] at known
    · exact ⟨same, by simpa [configeditFree, bound_keepNodes, same] using known⟩
  refine ⟨⟨fun i k known => ranked.old i k (found known).2,
    fun i k known => ranked.after i k (found known).2,
    fun k known => ranked.top k (found known).2⟩,
    ⟨fun k known => nested.root k (found known).2, ?_⟩⟩
  intro i k known root
  obtain ⟨apart, known⟩ := found known
  obtain ⟨q, above, rest⟩ := nested.inner i k known root
  have other := (freeChildren_parent orderly.ranked known root apart).1
  exact ⟨q, by simpa [configeditFree, bound_keepNodes, other] using above, rest⟩

theorem siblingsFit_le {left : Int} (ranked : s.Ranked)
    (fits : s.siblingsFit node parent offset left = true) (here : s.bound j = some k)
    (apart : j ≠ node) (inner : j ≠ 0) (same : k.parent = parent) (before : k.begin < offset) :
    k.stop ≤ left := by
  have each := all_eq_true.mp fits j (mem_range.mpr (ranked.old j k here))
  have less : ¬ offset ≤ k.begin := by omega
  simpa [here, apart, inner, same, less] using each

theorem besideFit_node {before : Session}
    (fits : before.besideFit addSize (fuel + 1) node offset = true) (inner : node ≠ 0)
    (here : before.bound node = some c) (above : before.bound c.parent = some p) :
    before.siblingsFit node c.parent (offset + c.begin) (p.size + addSize) = true ∧
      before.besideFit addSize fuel c.parent (offset + c.begin) = true := by
  rw [besideFit, here] at fits
  simp only [above, inner, decide_false, Bool.false_or] at fits
  exact Bool.and_eq_true_iff.mp fits

theorem besideFit_le {path above : List Nat} {ptr : Int} {k : Bound}
    (reach : s.Reach node path start) (ranked : s.Ranked) (enough : node < fuel)
    (fits : s.besideFit addSize fuel node offset = true) (known : s.bound i = some k)
    (inner : i ≠ 0) (out : i ∉ path) (beside : k.parent ∈ path.tail)
    (upper : s.bound k.parent = some p) (reach' : s.Reach k.parent above ptr)
    (before : ptr + k.begin < start + offset) : k.stop ≤ p.size + addSize := by
  induction reach generalizing fuel offset with
  | root _ => cases beside
  | @inner node c path start here notRoot rest ih =>
    obtain ⟨fuel, rfl⟩ : ∃ m, fuel = m + 1 := ⟨fuel - 1, by omega⟩
    have less := ranked.after node c here notRoot
    obtain ⟨q, parent⟩ := rest.known
    obtain ⟨level, later⟩ := besideFit_node fits notRoot here parent
    obtain ⟨apart, out⟩ := not_or.mp (mt mem_cons.mpr out)
    obtain ⟨tail, rfl⟩ := rest.head
    rcases mem_cons.mp beside with same | further
    · rw [same] at upper reach'
      cases parent.symm.trans upper
      obtain ⟨-, rfl⟩ := rest.unique reach'
      exact siblingsFit_le ranked level known apart inner same (by omega)
    · exact ih (by omega) later out further (by omega)

/-- The bounds are nested after the loop, unless one that does not move ends behind its parent. -/
theorem Orderly.adjusted {path : List Nat} (orderly : s.Orderly) (reach : s.Reach b path start)
    (here : s.bound b = some c) (adjusted : s.Adjusted after path (start + c.size) addSize)
    (allocated : after.allocated = s.allocated) (left : 0 ≤ c.size + addSize)
    (room : ∀ root, s.bound 0 = some root → root.stop + addSize ≤ after.bufSize)
    (children : ∀ i k, s.bound i = some k → i ≠ 0 → k.parent = b → k.stop ≤ c.size + addSize)
    (beside : ∀ i k p above ptr, s.bound i = some k → i ≠ 0 → i ∉ path → k.parent ∈ path.tail →
      s.bound k.parent = some p → s.Reach k.parent above ptr →
      ptr + k.begin < start + c.size → k.stop ≤ p.size + addSize) : after.Orderly := by
  have ranked := adjusted.ranked orderly reach allocated
  obtain ⟨tail, path_eq⟩ := reach.head
  refine ⟨ranked, ?_, ?_⟩
  · intro m found
    obtain ⟨root, top⟩ := reach.all_known 0 reach.root_mem
    cases found.symm.trans (adjusted.way 0 reach.root_mem root top)
    obtain ⟨begin, stop, -⟩ := orderly.nested.root root top
    have inside := orderly.within reach here reach.root_mem (.root top) top
    unfold Bound.size at *
    exact ⟨begin, by simp only; omega, room root top⟩
  · intro i m found inner
    by_cases member : i ∈ path
    · -- a bound on the way, which grows with its parent
      obtain ⟨k, known⟩ := reach.all_known i member
      cases found.symm.trans (adjusted.way i member k known)
      obtain ⟨p, above, first, order, last⟩ := orderly.nested.inner i k known inner
      obtain ⟨way, ptr, root, reachI, -⟩ := orderly.reach known
      have inside := orderly.within reach here member reachI known
      refine ⟨_, adjusted.way _ (reach.parent_mem member inner known) p above, first, ?_, ?_⟩ <;>
        unfold Bound.size at * <;> simp only <;> omega
    obtain ⟨k, known⟩ : ∃ k, s.bound i = some k := by
      by_contra unknown
      have none := eq_none_iff_forall_ne_some.mpr fun k again => unknown ⟨k, again⟩
      rw [adjusted.other i member (fun k again => by cases none.symm.trans again), none] at found
      cases found
    obtain ⟨p, above, first, order, last⟩ := orderly.nested.inner i k known inner
    by_cases up : k.parent ∈ tail
    · -- a bound beside the way
      have further : k.parent ∈ path.tail := by rw [path_eq]; exact up
      have onWay : k.parent ∈ path := mem_of_mem_tail further
      obtain ⟨way, ptr, -, reachP, -⟩ := orderly.reach above
      have inside := orderly.within reach here onWay reachP above
      have fits := beside i k p way ptr known inner member further above reachP
      have parent := adjusted.way _ onWay p above
      have moved := adjusted.beside i k member inner known further way ptr reachP
      rw [found] at moved
      split at moved <;> cases moved
      · refine ⟨_, parent, ?_, ?_, ?_⟩ <;> unfold Bound.size at * <;> simp only <;> omega
      · refine ⟨_, parent, first, order, ?_⟩
        unfold Bound.size at *
        simp only
        omega
    have unmoved : m = k := by
      refine some.inj (found.symm.trans ((adjusted.other i member fun k' again => ?_).trans known))
      cases known.symm.trans again
      rw [path_eq]
      exact up
    subst unmoved
    by_cases child : m.parent = b
    · rw [child] at above
      cases here.symm.trans above
      have grown := adjusted.way b (by rw [path_eq]; exact mem_cons_self) c here
      have fits := children i m known inner child
      rw [← child] at grown
      refine ⟨_, grown, first, order, ?_⟩
      unfold Bound.size at *
      simp only
      omega
    · have out : m.parent ∉ path := by
        rw [path_eq]
        exact fun again => (mem_cons.mp again).elim child up
      obtain ⟨p', above', -, size⟩ := adjusted.aside orderly out
        (fun zero => out (zero ▸ reach.root_mem)) above
      exact ⟨p', above', first, order, size ▸ last⟩

theorem store_inv {data : Bytes} (stores : s.store offset data = some after) :
    after.bound = s.bound ∧ after.allocated = s.allocated ∧ after.bufSize = s.bufSize := by
  rw [store] at stores
  split at stores
  next inside =>
    cases stores
    refine ⟨rfl, rfl, ?_⟩
    unfold bufSize at inside ⊢
    rw [overlay_length_of_le _ _ _ (by omega)]
  next => cases stores

theorem moveText_inv {rootEnd : Int} (moves : s.moveText rootEnd offset addSize = some after) :
    after.bound = s.bound ∧ after.allocated = s.allocated ∧ after.bufSize = s.bufSize := by
  obtain ⟨middle, first, second⟩ := bind_eq_some_iff.mp moves
  have moved : middle.bound = s.bound ∧ middle.allocated = s.allocated ∧
      middle.bufSize = s.bufSize := by
    rw [moveTail] at first
    split at first
    · obtain ⟨tail, -, stores⟩ := bind_eq_some_iff.mp first
      exact store_inv stores
    · cases first
      exact ⟨rfl, rfl, rfl⟩
  rw [fill] at second
  split at second
  · obtain ⟨bound, allocated, size⟩ := store_inv second
    exact ⟨bound.trans moved.1, allocated.trans moved.2.1, size.trans moved.2.2⟩
  · cases second
    exact moved

variable {memory failed : Bool}

theorem reallocate_inv {newRootSize : Int} (grows : s.reallocate newRootSize memory = some after) :
    after.bound = s.bound ∧ after.allocated = s.allocated ∧ s.bufSize ≤ after.bufSize ∧
      newRootSize ≤ after.bufSize := by
  rw [reallocate] at grows
  split at grows
  next small =>
    split at grows
    · cases grows
      refine ⟨rfl, rfl, ?_, ?_⟩
      · simp only [bufSize, length_append, Int.natCast_add]
        omega
      · unfold bufSize at small ⊢
        simp only [configeditMallocExtra, length_append, length_replicate, Int.natCast_add]
        omega
    · cases grows
  next room =>
    cases grows
    exact ⟨rfl, rfl, Int.le_refl _, by omega⟩

theorem Orderly.text (orderly : s.Orderly) (bound : after.bound = s.bound)
    (allocated : after.allocated = s.allocated) (size : s.bufSize ≤ after.bufSize) :
    after.Orderly := by
  obtain ⟨ranked, nested⟩ := orderly
  refine ⟨⟨?_, ?_, ?_⟩, ⟨?_, ?_⟩⟩
  · rw [bound, allocated]
    exact ranked.old
  · rw [bound]
    exact ranked.after
  · rw [bound]
    exact ranked.top
  · intro c here
    rw [bound] at here
    obtain ⟨begin, stop, room⟩ := nested.root c here
    exact ⟨begin, stop, Int.le_trans room size⟩
  · rw [bound]
    exact nested.inner

theorem cutFits_children (fits : s.cutFits b newSize = true) (here : s.bound b = some c)
    (cut : newSize < c.size) :
    s.childrenFit b newSize = true ∧
      s.besideFit (newSize - c.size) s.allocated b c.size = true := by
  have less : ¬ c.size ≤ newSize := by omega
  rw [cutFits, here] at fits
  simp only [less, decide_false, Bool.false_or] at fits
  exact Bool.and_eq_true_iff.mp fits

theorem childrenFit_le (ranked : s.Ranked) (fits : s.childrenFit b newSize = true)
    (here : s.bound j = some k) (inner : j ≠ 0) (child : k.parent = b) : k.stop ≤ newSize := by
  have each := all_eq_true.mp fits j (mem_range.mpr (ranked.old j k here))
  simpa [here, inner, child] using each

theorem Orderly.textResize {after : Session} {newSize : Int} {memory failed : Bool}
    (orderly : s.Orderly) (sized : 0 ≤ newSize) (fits : s.cutFits b newSize = true)
    (resizes : s.configeditTextResize b newSize memory = some (after, failed)) :
    after.Orderly := by
  obtain ⟨c, here, resizes⟩ := bind_eq_some_iff.mp resizes
  obtain ⟨root, atRoot, resizes⟩ := bind_eq_some_iff.mp resizes
  dsimp only at resizes
  split at resizes
  · cases resizes
    exact orderly
  obtain ⟨offset, -, resizes⟩ := bind_eq_some_iff.mp resizes
  split at resizes
  · cases resizes
  split at resizes
  · cases resizes
    exact orderly
  next grown grows =>
    obtain ⟨moved, moves, resizes⟩ := bind_eq_some_iff.mp resizes
    obtain ⟨adjusted, adjusts, resizes⟩ := bind_eq_some_iff.mp resizes
    cases resizes
    obtain ⟨bound, allocated, larger, room⟩ := reallocate_inv grows
    obtain ⟨bound', allocated', same⟩ := moveText_inv moves
    have between := orderly.text (bound'.trans bound) (allocated'.trans allocated)
      (by rw [same]; exact larger)
    have here' : moved.bound b = some c := by rw [bound', bound, here]
    have size := orderly.nested.size_nonneg here
    obtain ⟨path, start, -, reach, -⟩ := orderly.reach here
    obtain ⟨final, done, buf, count, loop⟩ := @Reach.adjustLoop moved b path start (newSize - c.size)
      c.size moved.allocated (reach.congr orderly.ranked fun i _ => by rw [bound', bound])
      between.ranked (between.ranked.old b c here')
    cases adjusts.symm.trans done
    have again : ∀ {i : Nat} {way : List Nat} {ptr : Int}, moved.Reach i way ptr →
        s.Reach i way ptr :=
      fun reached => reached.congr between.ranked fun i _ => by rw [bound', bound]
    refine between.adjusted (reach.congr orderly.ranked fun i _ => by rw [bound', bound]) here' loop
      count (by omega) (fun k known => ?_) (fun i k known inner child => ?_)
      (fun i k p above ptr known inner out member upper reach' before => ?_)
    · rw [bound', bound] at known
      cases atRoot.symm.trans known
      rw [bufSize, buf]
      exact Int.le_trans room (Int.le_of_eq same.symm)
    · obtain ⟨p, above, -, -, stop⟩ := between.nested.inner i k known inner
      rw [child] at above
      cases here'.symm.trans above
      rw [bound', bound] at known
      by_cases cut : newSize < c.size
      · have ends := childrenFit_le orderly.ranked (cutFits_children fits here cut).1 known inner child
        omega
      · omega
    · obtain ⟨q, above', -, -, stop⟩ := between.nested.inner i k known inner
      cases upper.symm.trans above'
      rw [bound', bound] at known upper
      by_cases cut : newSize < c.size
      · exact besideFit_le reach orderly.ranked (orderly.ranked.old b c here)
          (cutFits_children fits here cut).2 known inner out member upper (again reach') before
      · omega

theorem Orderly.textReplace {text : Bytes} (orderly : s.Orderly)
    (fits : s.cutFits b text.length = true)
    (replaces : s.configeditTextReplace b text memory = some (after, failed)) : after.Orderly := by
  obtain ⟨⟨resized, lost⟩, resizes, replaces⟩ := bind_eq_some_iff.mp replaces
  have orderly' := orderly.textResize (Int.natCast_nonneg _) fits resizes
  dsimp only at replaces
  split at replaces
  · cases replaces
    exact orderly'
  · obtain ⟨ptr, -, replaces⟩ := bind_eq_some_iff.mp replaces
    obtain ⟨stored, stores, replaces⟩ := bind_eq_some_iff.mp replaces
    cases replaces
    obtain ⟨bound, allocated, size⟩ := store_inv stores
    exact orderly'.text bound allocated (by omega)

theorem Orderly.textAppend {text : Bytes} (orderly : s.Orderly)
    (appends : s.configeditTextAppend b text memory = some (after, failed)) : after.Orderly := by
  obtain ⟨c, here, appends⟩ := bind_eq_some_iff.mp appends
  obtain ⟨⟨resized, lost⟩, resizes, appends⟩ := bind_eq_some_iff.mp appends
  have size := orderly.nested.size_nonneg here
  have fits : s.cutFits b (c.size + text.length) = true := by
    simp only [cutFits, here, Bool.or_eq_true, decide_eq_true_eq]
    left
    omega
  have orderly' := orderly.textResize (by omega) fits resizes
  dsimp only at appends
  split at appends
  · cases appends
    exact orderly'
  · obtain ⟨ptr, -, appends⟩ := bind_eq_some_iff.mp appends
    obtain ⟨stored, stores, appends⟩ := bind_eq_some_iff.mp appends
    cases appends
    obtain ⟨bound, allocated, size⟩ := store_inv stores
    exact orderly'.text bound allocated (by omega)

theorem lineSize_le (text : Bytes) : lineSize text ≤ text.length := by
  induction text with
  | nil => exact Nat.le_refl 0
  | cons c rest ih =>
    rw [lineSize]
    split
    · simp
    · simpa using ih

theorem wordSize_le (template : Option Bytes) (text : Bytes) :
    wordSize template text ≤ text.length := by
  induction text with
  | nil => exact Nat.le_refl 0
  | cons c rest ih =>
    rw [wordSize]
    split
    · simp
    · simpa using ih

theorem setBound_setBound (first second : Bound) :
    (s.setBound b first).setBound b second = s.setBound b second := by
  simp [setBound]

theorem Orderly.advance {nbytes : Int} (orderly : s.Orderly) (inner : b ≠ 0)
    (steps : s.configeditAdvance b nbytes = some after) : after.Orderly := by
  obtain ⟨c, here, steps⟩ := bind_eq_some_iff.mp steps
  obtain ⟨p, above, steps⟩ := bind_eq_some_iff.mp steps
  dsimp only at steps
  split at steps
  · cases steps
  cases steps
  have size := orderly.nested.size_nonneg above
  exact orderly.place here inner above (by omega) (Int.le_refl _) (by omega)

theorem Orderly.step {after : Session} {operation : Operation} (orderly : s.Orderly)
    (obeys : obeys operation = true) (sized : sized operation = true)
    (fits : s.cutsNothing operation = true) (steps : s.step operation = some after) :
    after.Orderly := by
  cases operation with
  | begin b memory =>
    rw [Session.step] at steps
    split at steps
    · obtain ⟨⟨made, name⟩, begins, rfl⟩ := map_eq_some_iff.mp steps
      obtain ⟨c, here, begins⟩ := bind_eq_some_iff.mp begins
      cases begins
      exact orderly.new here (Int.le_refl 0) (Int.le_refl 0) (orderly.nested.size_nonneg here)
    · cases steps
      exact orderly
  | dup b memory =>
    rw [Session.step] at steps
    split at steps
    · obtain ⟨⟨made, name⟩, dups, rfl⟩ := map_eq_some_iff.mp steps
      obtain ⟨c, here, dups⟩ := bind_eq_some_iff.mp dups
      cases dups
      obtain ⟨p, above, first, order, last⟩ :=
        orderly.nested.inner b c here (of_decide_eq_true obeys)
      exact orderly.new above first order last
    · cases steps
      exact orderly
  | free b =>
    obtain ⟨c, -, rfl⟩ := map_eq_some_iff.mp steps
    exact orderly.free b
  | boundResize b newSize =>
    obtain ⟨c, here, steps⟩ := bind_eq_some_iff.mp steps
    obtain ⟨p, above, steps⟩ := bind_eq_some_iff.mp steps
    dsimp only at steps
    split at steps
    · cases steps
    cases steps
    have inner : b ≠ 0 := of_decide_eq_true obeys
    obtain ⟨q, above', first, order, last⟩ := orderly.nested.inner b c here inner
    cases above.symm.trans above'
    exact orderly.place here inner above first (by omega) (by omega)
  | advance b nbytes => exact orderly.advance (of_decide_eq_true obeys) steps
  | next b =>
    obtain ⟨c, here, steps⟩ := bind_eq_some_iff.mp steps
    exact orderly.advance (of_decide_eq_true obeys) steps
  | nextLine b =>
    obtain ⟨⟨moved, count⟩, moves, rfl⟩ := map_eq_some_iff.mp steps
    obtain ⟨c, here, moves⟩ := bind_eq_some_iff.mp moves
    obtain ⟨p, above, moves⟩ := bind_eq_some_iff.mp moves
    obtain ⟨ptr, -, moves⟩ := bind_eq_some_iff.mp moves
    split at moves
    · cases moves
    obtain ⟨text, -, moves⟩ := bind_eq_some_iff.mp moves
    cases moves
    have inner : b ≠ 0 := of_decide_eq_true obeys
    obtain ⟨q, above', first, order, last⟩ := orderly.nested.inner b c here inner
    cases above.symm.trans above'
    have bound := lineSize_le (text.take (p.size - c.stop).toNat)
    rw [length_take] at bound
    dsimp only
    rw [setBound_setBound]
    exact orderly.place here inner above (by omega) (by omega) (by omega)
  | nextWord b template =>
    obtain ⟨⟨moved, count⟩, moves, rfl⟩ := map_eq_some_iff.mp steps
    obtain ⟨c, here, moves⟩ := bind_eq_some_iff.mp moves
    obtain ⟨p, above, moves⟩ := bind_eq_some_iff.mp moves
    obtain ⟨ptr, -, moves⟩ := bind_eq_some_iff.mp moves
    split at moves
    · cases moves
    obtain ⟨text, -, moves⟩ := bind_eq_some_iff.mp moves
    cases moves
    have inner : b ≠ 0 := of_decide_eq_true obeys
    obtain ⟨q, above', first, order, last⟩ := orderly.nested.inner b c here inner
    cases above.symm.trans above'
    dsimp only
    generalize skips : ((text.take (p.size - c.stop).toNat).takeWhile
      (isSeparator template)).length = skipped
    have bound : skipped ≤ (p.size - c.stop).toNat := by
      have shorter := (takeWhile_sublist (l := text.take (p.size - c.stop).toNat)
        (isSeparator template)).length_le
      rw [length_take] at shorter
      omega
    have bound' := wordSize_le template (text.take (p.size - c.stop - skipped).toNat)
    rw [length_take] at bound'
    rw [setBound_setBound]
    exact orderly.place here inner above (by omega) (by omega) (by omega)
  | rewind b =>
    obtain ⟨c, here, steps⟩ := bind_eq_some_iff.mp steps
    cases steps
    have inner : b ≠ 0 := of_decide_eq_true obeys
    obtain ⟨p, above, -⟩ := orderly.nested.inner b c here inner
    exact orderly.place here inner above (Int.le_refl 0) (Int.le_refl 0)
      (orderly.nested.size_nonneg above)
  | seekend b =>
    obtain ⟨c, here, steps⟩ := bind_eq_some_iff.mp steps
    obtain ⟨p, above, steps⟩ := bind_eq_some_iff.mp steps
    cases steps
    exact orderly.place here (of_decide_eq_true obeys) above
      (orderly.nested.size_nonneg above) (Int.le_refl _) (Int.le_refl _)
  | textResize b newSize memory =>
    obtain ⟨⟨resized, failed⟩, resizes, rfl⟩ := map_eq_some_iff.mp steps
    exact orderly.textResize (of_decide_eq_true sized) fits resizes
  | textReplace b text memory =>
    obtain ⟨⟨replaced, failed⟩, replaces, rfl⟩ := map_eq_some_iff.mp steps
    exact orderly.textReplace fits replaces
  | textAppend b text memory =>
    obtain ⟨⟨appended, failed⟩, appends, rfl⟩ := map_eq_some_iff.mp steps
    exact orderly.textAppend appends

end Bounds

theorem orderly_root {buf : Bytes} {size : Int} (first : 0 ≤ size)
    (last : size ≤ buf.length) : Orderly ⟨[(0, ⟨0, 0, size⟩)], 1, buf⟩ := by
  have single : ∀ {i : Nat} {k : Bound},
      Session.bound ⟨[(0, ⟨0, 0, size⟩)], 1, buf⟩ i = some k → i = 0 ∧ k = ⟨0, 0, size⟩ := by
    intro i k known
    by_cases zero : i = 0
    · exact ⟨zero, by simpa [Session.bound, zero] using known.symm⟩
    · have differs : (i == 0) = false := beq_false_of_ne zero
      simp [Session.bound, lookup_cons, differs] at known
  refine ⟨⟨?_, ?_, ?_⟩, ⟨?_, ?_⟩⟩
  · intro i k known
    obtain ⟨rfl, -⟩ := single known
    exact Nat.one_pos
  · intro i k known inner
    exact absurd (single known).1 inner
  · intro k known
    obtain ⟨-, rfl⟩ := @single 0 k known
    rfl
  · intro k known
    obtain ⟨-, rfl⟩ := @single 0 k known
    exact ⟨rfl, first, last⟩
  · intro i k known inner
    exact absurd (single known).1 inner

theorem orderly_create {buf : Bytes} {contentSize : Int} (first : 0 ≤ contentSize)
    (last : contentSize ≤ buf.length) : (configeditCreate buf contentSize).Orderly := by
  rw [configeditCreate]
  split
  · exact orderly_root first last
  · exact orderly_root (Int.le_refl 0) (Int.natCast_nonneg _)

def InBuffer (s : Session) : Prop :=
  ∀ b c, s.bound b = some c → ∃ ptr, s.configeditPtr b = some ptr ∧ 0 ≤ ptr ∧ 0 ≤ c.size ∧
    ptr + c.size ≤ s.bufSize

/-- As long as no cut takes text that another bound still covers. -/
theorem bounds_stay_nested {buf : Bytes} {contentSize : Int} {s : Session}
    (first : 0 ≤ contentSize) (last : contentSize ≤ buf.length)
    (reached : Reaches step (fun s operation => obeys operation = true ∧ sized operation = true ∧
      s.cutsNothing operation = true) (configeditCreate buf contentSize) s) :
    s.Nested ∧ s.InBuffer := by
  have orderly : s.Orderly := by
    refine Reaches.invariant ?_ reached (orderly_create first last)
    intro before operation after condition steps orderly
    exact orderly.step condition.1 condition.2.1 condition.2.2 steps
  refine ⟨orderly.nested, ?_⟩
  intro b c here
  obtain ⟨path, ptr, root, reach, atRoot, low, -, high⟩ := orderly.reach here
  have found := reach.configeditPtr orderly.ranked fun k known => (orderly.nested.root k known).1
  obtain ⟨-, -, room⟩ := orderly.nested.root root atRoot
  exact ⟨ptr, found, low, orderly.nested.size_nonneg here, by omega⟩

def twoBounds : List (Session → Operation) :=
  [fun _ => .begin 0 true, fun _ => .boundResize 1 6, fun _ => .begin 1 true,
    fun _ => .boundResize 2 5]

theorem bounds_stay_nested_two :
    (0 : Int) ≤ 6 ∧ (6 : Int) ≤ (List.replicate 6 (97 : UInt8)).length ∧
    ∃ s, Reaches step (fun s operation => obeys operation = true ∧ sized operation = true ∧
        s.cutsNothing operation = true) (configeditCreate (List.replicate 6 97) 6) s ∧
      s.bound 2 = some ⟨1, 0, 5⟩ ∧ s.Nested ∧ s.InBuffer := by
  have runs : (follows step (fun s operation => obeys operation = true ∧ sized operation = true ∧
      s.cutsNothing operation = true) (configeditCreate (List.replicate 6 97) 6)
      (twoBounds ++ [fun _ => .textAppend 1 [98, 99] true])).map (fun s => s.bound 2) =
        some (some ⟨1, 0, 5⟩) := by decide +kernel
  obtain ⟨s, ends, shows⟩ := map_eq_some_iff.mp runs
  have reached := reaches_of_follows ends
  exact ⟨by decide, by decide, s, reached, shows,
    bounds_stay_nested (by decide) (by decide) reached⟩

/-- The text is cut to two bytes and the child still has five. -/
theorem cut_leaves_child :
    ¬ ∀ (buf : Bytes) (contentSize : Int) (s : Session), 0 ≤ contentSize →
      contentSize ≤ buf.length →
      Reaches step (fun _ operation => obeys operation = true ∧ sized operation = true)
        (configeditCreate buf contentSize) s → s.Nested := by
  intro always
  have runs : (follows step (fun _ operation => obeys operation = true ∧ sized operation = true)
      (configeditCreate (List.replicate 6 97) 6)
      (twoBounds ++ [fun _ => .textResize 1 2 true])).map (fun s => (s.bound 1, s.bound 2)) =
        some (some ⟨0, 0, 2⟩, some ⟨1, 0, 5⟩) := by decide
  obtain ⟨s, ends, shows⟩ := map_eq_some_iff.mp runs
  obtain ⟨outer, child⟩ := Prod.mk.inj shows
  have nested := always _ 6 s (by decide) (by decide) (reaches_of_follows ends)
  obtain ⟨p, above, -, -, last⟩ := nested.inner 2 _ child (by decide)
  cases outer.symm.trans above
  exact absurd last (by decide)

end Session

end AthApps.Config
