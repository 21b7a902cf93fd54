import AthApps.Plc.RuleText

/-!
# The record of a rule

`ParseRule.c` fills in a `struct rule`, which has room for three classifiers and
has the member `cspec` behind them.  The pointer to the next classifier has no
bound, and it also is where the caller's `cspec` is copied to, so the copy is in
the member only when there are exactly three classifiers.
-/

set_option autoImplicit false

namespace AthApps.Plc

open AthApps.Lib List Option

def Control.code : Control → UInt8
  | .add => 0x00
  | .rem => 0x01

def Volatility.code : Volatility → UInt8
  | .temp => 0x00
  | .perm => 0x01

def Action.code : Action → UInt8
  | .cap0 => 0x00
  | .cap1 => 0x01
  | .cap2 => 0x02
  | .cap3 => 0x03
  | .drop => 0x04
  | .boost => 0x05
  | .dropRx => 0x06
  | .stripTx => 0x20
  | .stripRx => 0x21
  | .tagTx => 0x22

def Operand.code : Operand → UInt8
  | .all => 0x00
  | .any => 0x01
  | .always => 0x02

/-- Bytes that are stored behind the start of `* rule`. -/
structure Store where
  offset : Nat
  bytes : Bytes
  deriving DecidableEq

abbrev Memory : Type := Nat → UInt8

def Store.apply (memory : Memory) (store : Store) : Memory := fun place =>
  if store.offset ≤ place ∧ place < store.offset + store.bytes.length then
    store.bytes.getD (place - store.offset) 0
  else memory place

def afterStores (stores : List Store) (memory : Memory) : Memory := stores.foldl Store.apply memory

def numClassifiers : Nat := 4

/-- The offset of `CLASSIFIER [i]`, and of `cspec` with three in front of it. -/
def classifierOffset (i : Nat) : Nat := 5 + 18 * i

/-- `sizeof (struct rule)` and `sizeof (struct cspec)` -/
def ruleSize : Nat := 69

def cspecSize : Nat := 10

/-- A round of the classifier loop; what is stored in `CR_VALUE` is taken with the zeros behind it. -/
def storesOf (i : Nat) (classifier : Classifier) : List Store :=
  [⟨classifierOffset i, [classifier.crId]⟩, ⟨classifierOffset i + 1, [classifier.crOperand]⟩,
    ⟨classifierOffset i + 2, classifier.crValue⟩, ⟨numClassifiers, [UInt8.ofNat (i + 1)]⟩]

def classifierStores : Nat → List Classifier → List Store
  | _, [] => []
  | i, classifier :: rest => storesOf i classifier ++ classifierStores (i + 1) rest

/-- The stores of a call of `ParseRule` that returns, for any number of classifiers. -/
def ruleStores (argc : Int) (argv : List Bytes) (cspec : Bytes) :
    Option (List Store) :=
  match argv with
  | action :: operand :: rest => do
      let action ← lookup action actions
      let operand ← lookup operand operands
      let (classifiers, left) ← parseClassifiers (argc - 2) rest
      match left with
      | control :: volatility :: _ => do
          let control ← lookup control controls
          let volatility ← lookup volatility volatilities
          some ([⟨2, [action.code]⟩, ⟨3, [operand.code]⟩] ++ classifierStores 0 classifiers ++
            [⟨classifierOffset classifiers.length, cspec⟩, ⟨0, [control.code]⟩,
              ⟨1, [volatility.code]⟩])
      | _ => none
  | _ => none

def triples : List Bytes → Nat
  | [] => 0
  | field :: rest =>
    if (lookup field controls).isSome then 0
    else
      match rest with
      | _ :: _ :: rest => triples rest + 1
      | _ => 0

def Classifier.image (classifier : Classifier) : Bytes :=
  classifier.crId :: classifier.crOperand :: classifier.crValue

/-- The record holds the classifiers and the `cspec`, and nothing else is touched. -/
structure RecordExact (argv : List Bytes) (cspec : Bytes) (stores : List Store)
    (record : Memory) : Prop where
  few : (record numClassifiers).toNat ≤ 3
  inside : ∀ store ∈ stores, store.offset + store.bytes.length ≤ classifierOffset 3 ∨
    (store.offset = classifierOffset 3 ∧ store.bytes = cspec)
  described : ∀ i < (record numClassifiers).toNat, ∃ field operator value classifier,
    argv[2 + 3 * i]? = some field ∧ argv[3 + 3 * i]? = some operator ∧
      argv[4 + 3 * i]? = some value ∧ parseClassifier field operator value = some classifier ∧
      ∀ j < 18, record (classifierOffset i + j) = classifier.image.getD j 0
  unused : ∀ i < 3, (record numClassifiers).toNat ≤ i →
    ∀ j < 18, record (classifierOffset i + j) = 0
  trailer : ∀ j < cspecSize, record (classifierOffset 3 + j) = cspec.getD j 0

section Stores

variable {memory : Memory} {place : Nat} {classifiers : List Classifier}

theorem afterStores_append (front back : List Store) :
    afterStores (front ++ back) memory = afterStores back (afterStores front memory) :=
  foldl_append

theorem Store.apply_outside (store : Store)
    (outside : place < store.offset ∨ store.offset + store.bytes.length ≤ place) :
    store.apply memory place = memory place := if_neg (by omega)

theorem Store.apply_inside (offset j : Nat) (bytes : Bytes) (inside : j < bytes.length) :
    Store.apply memory ⟨offset, bytes⟩ (offset + j) = bytes.getD j 0 := by
  unfold Store.apply
  rw [if_pos (by simp only; omega), Nat.add_sub_cancel_left]

variable {classifier : Classifier}

theorem storesOf_outside (full : classifier.crValue.length = 16) (i : Nat)
    (other : place ≠ numClassifiers)
    (outside : place < classifierOffset i ∨ classifierOffset i + 18 ≤ place) :
    afterStores (storesOf i classifier) memory place = memory place := by
  unfold numClassifiers at other
  simp only [afterStores, storesOf, foldl_cons, foldl_nil]
  rw [Store.apply_outside _ (by simp only [numClassifiers, length_singleton]; omega),
    Store.apply_outside _ (by simp only [full]; omega),
    Store.apply_outside _ (by simp only [length_singleton]; omega),
    Store.apply_outside _ (by simp only [length_singleton]; omega)]

theorem storesOf_inside (full : classifier.crValue.length = 16) (i j : Nat) (inside : j < 18) :
    afterStores (storesOf i classifier) memory (classifierOffset i + j) =
      classifier.image.getD j 0 := by
  simp only [afterStores, storesOf, foldl_cons, foldl_nil]
  rw [Store.apply_outside _ (by
    simp only [numClassifiers, classifierOffset, length_singleton]
    omega)]
  match j with
  | 0 =>
    rw [Store.apply_outside _ (by simp only; omega), Store.apply_outside _ (by simp only; omega)]
    exact Store.apply_inside _ 0 _ (by simp)
  | 1 =>
    rw [Store.apply_outside _ (by simp only; omega)]
    exact Store.apply_inside _ 0 _ (by simp)
  | j + 2 =>
    have place : classifierOffset i + (j + 2) = classifierOffset i + 2 + j := by omega
    rw [place]
    exact Store.apply_inside _ j _ (by omega)

theorem storesOf_number (i : Nat) (classifier : Classifier) :
    afterStores (storesOf i classifier) memory numClassifiers = UInt8.ofNat (i + 1) := by
  simp only [afterStores, storesOf, foldl_cons, foldl_nil]
  exact Store.apply_inside numClassifiers 0 _ (by simp)

theorem classifierStores_outside (full : ∀ classifier ∈ classifiers, classifier.crValue.length = 16)
    (i : Nat) (other : place ≠ numClassifiers)
    (outside : place < classifierOffset i ∨ classifierOffset (i + classifiers.length) ≤ place) :
    afterStores (classifierStores i classifiers) memory place = memory place := by
  induction classifiers generalizing i memory with
  | nil => rfl
  | cons classifier rest ih =>
    rw [classifierStores, afterStores_append]
    unfold classifierOffset at outside
    rw [length_cons] at outside
    rw [ih (fun other member => full other (by simp [member])) (i + 1)
      (by unfold classifierOffset; omega)]
    exact storesOf_outside (full classifier (by simp)) i other (by unfold classifierOffset; omega)

theorem classifierStores_inside (full : ∀ classifier ∈ classifiers, classifier.crValue.length = 16)
    (i k j : Nat) (inside : j < 18) {classifier : Classifier}
    (here : classifiers[k]? = some classifier) :
    afterStores (classifierStores i classifiers) memory (classifierOffset (i + k) + j) =
      classifier.image.getD j 0 := by
  induction classifiers generalizing i k memory with
  | nil => cases here
  | cons first rest ih =>
    have later : ∀ other ∈ rest, other.crValue.length = 16 := fun other member =>
      full other (by simp [member])
    rw [classifierStores, afterStores_append]
    cases k with
    | zero =>
      cases here
      rw [classifierStores_outside later (i + 1) (by unfold classifierOffset numClassifiers; omega)
        (by unfold classifierOffset; omega)]
      exact storesOf_inside (full _ (by simp)) i j inside
    | succ k =>
      have place : i + (k + 1) = i + 1 + k := by omega
      rw [place]
      exact ih later (i + 1) k here

theorem classifierStores_number (i : Nat) :
    afterStores (classifierStores i classifiers) memory numClassifiers =
      if classifiers = [] then memory numClassifiers
      else UInt8.ofNat (i + classifiers.length) := by
  induction classifiers generalizing i memory with
  | nil => rfl
  | cons first rest ih =>
    rw [classifierStores, afterStores_append, ih]
    cases rest with
    | nil => exact storesOf_number i first
    | cons second rest =>
      rw [if_neg (by simp), if_neg (by simp)]
      congr 1
      simp only [length_cons]
      omega

theorem mem_classifierStores (full : ∀ classifier ∈ classifiers, classifier.crValue.length = 16)
    (i : Nat) : ∀ store ∈ classifierStores i classifiers,
      store.offset + store.bytes.length ≤ max 5 (classifierOffset (i + classifiers.length)) := by
  induction classifiers generalizing i with
  | nil => simp [classifierStores]
  | cons first rest ih =>
    have length := full first (by simp)
    intro store member
    rw [classifierStores, mem_append] at member
    rcases member with here | later
    · simp only [storesOf, mem_cons, not_mem_nil, or_false] at here
      rcases here with rfl | rfl | rfl | rfl
      all_goals
        simp only [classifierOffset, numClassifiers, length_cons, length_nil, length]
        omega
    · have bound := ih (fun other member => full other (by simp [member])) (i + 1) store later
      simp only [classifierOffset, length_cons] at bound ⊢
      omega

theorem fourth_store (i k : Nat) (here : classifiers[k]? = some classifier) :
    ⟨classifierOffset (i + k), [classifier.crId]⟩ ∈ classifierStores i classifiers := by
  induction classifiers generalizing i k with
  | nil => cases here
  | cons first rest ih =>
    rw [classifierStores, mem_append]
    cases k with
    | zero =>
      cases here
      exact Or.inl (by simp [storesOf])
    | succ k =>
      have place : i + (k + 1) = i + 1 + k := by omega
      rw [place]
      exact Or.inr (ih (i + 1) k here)

end Stores

variable {words left : List Bytes} {classifiers : List Classifier}

variable {argc : Int}

theorem parseClassifiers_triples (parsed : parseClassifiers argc words = some (classifiers, left)) :
    classifiers.length = triples words ∧
      ∀ i classifier, classifiers[i]? = some classifier → ∃ field operator value,
        words[3 * i]? = some field ∧ words[1 + 3 * i]? = some operator ∧
          words[2 + 3 * i]? = some value ∧
          parseClassifier field operator value = some classifier := by
  fun_induction parseClassifiers argc words generalizing classifiers left with
  | case1 =>
    rw [← (Prod.mk.inj (some.inj parsed)).1]
    exact ⟨rfl, fun i classifier here => by cases here⟩
  | case2 argc field rest control =>
    rw [← (Prod.mk.inj (some.inj parsed)).1]
    refine ⟨?_, fun i classifier here => by cases here⟩
    unfold triples
    exact (if_pos control).symm
  | case3 => exact absurd parsed (by simp)
  | case4 argc field noControl operator value rest more ih =>
    simp only [bind_eq_bind, bind_eq_some_iff] at parsed
    obtain ⟨first, firstParsed, ⟨others, rest'⟩, othersParsed, same⟩ := parsed
    obtain ⟨count, each⟩ := ih othersParsed
    rw [← (Prod.mk.inj (some.inj same)).1]
    constructor
    · unfold triples
      rw [if_neg noControl]
      exact congrArg (· + 1) count
    · intro i classifier here
      cases i with
      | zero =>
        cases here
        exact ⟨field, operator, value, rfl, rfl, rfl, firstParsed⟩
      | succ i =>
        obtain ⟨f, o, v, first, second, third, parsed⟩ := each i classifier here
        refine ⟨f, o, v, ?_, ?_, ?_, parsed⟩
        · have place : 3 * (i + 1) = 3 * i + 3 := by omega
          rw [place]
          exact first
        · have place : 1 + 3 * (i + 1) = 1 + 3 * i + 3 := by omega
          rw [place]
          exact second
        · have place : 2 + 3 * (i + 1) = 2 + 3 * i + 3 := by omega
          rw [place]
          exact third
  | case5 => exact absurd parsed (by simp)

theorem classifiers_full (parsed : parseClassifiers argc words = some (classifiers, left)) :
    ∀ classifier ∈ classifiers, classifier.crValue.length = 16 := by
  intro classifier member
  obtain ⟨condition, rfl⟩ := parseClassifiers_stored parsed classifier member
  have width : condition.field.width ≤ 16 := by cases condition.field <;> decide
  have exact := condition.exact
  change (condition.bytes ++ List.replicate (16 - condition.bytes.length) 0).length = 16
  rw [length_append, length_replicate]
  omega

theorem ruleStores_parts {argv : List Bytes} {cspec : Bytes} {stores : List Store}
    (returned : ruleStores argc argv cspec = some stores) :
    ∃ classifiers left action operand control volatility,
      parseClassifiers (argc - 2) (argv.drop 2) = some (classifiers, left) ∧
        stores = [⟨2, [Action.code action]⟩, ⟨3, [Operand.code operand]⟩] ++
          classifierStores 0 classifiers ++
          [⟨classifierOffset classifiers.length, cspec⟩, ⟨0, [Control.code control]⟩,
            ⟨1, [Volatility.code volatility]⟩] := by
  unfold ruleStores at returned
  split at returned
  · rename_i action operand rest
    simp only [bind_eq_bind, bind_eq_some_iff] at returned
    obtain ⟨a, -, o, -, ⟨classifiers, left⟩, parsed, returned⟩ := returned
    simp only at returned
    split at returned
    · rename_i control volatility tail
      simp only [bind_eq_some_iff] at returned
      obtain ⟨c, -, v, -, same⟩ := returned
      exact ⟨classifiers, _, a, o, c, v, parsed, (some.inj same).symm⟩
    · cases returned
  · cases returned

section Record

variable {classifiers : List Classifier} {cspec : Bytes} {before : Memory} {place : Nat}
  {action operand control volatility : UInt8}

def storesFor (classifiers : List Classifier) (cspec : Bytes)
    (action operand control volatility : UInt8) : List Store :=
  [⟨2, [action]⟩, ⟨3, [operand]⟩] ++ classifierStores 0 classifiers ++
    [⟨classifierOffset classifiers.length, cspec⟩, ⟨0, [control]⟩, ⟨1, [volatility]⟩]

/-- The record behind its first four bytes is filled by the loop and the copy of the `cspec`. -/
theorem record_after (behind : 4 ≤ place) :
    afterStores (storesFor classifiers cspec action operand control volatility) before place =
      Store.apply (afterStores (classifierStores 0 classifiers)
        (afterStores [⟨2, [action]⟩, ⟨3, [operand]⟩] before))
        ⟨classifierOffset classifiers.length, cspec⟩ place := by
  rw [storesFor, afterStores_append, afterStores_append]
  simp only [afterStores, foldl_cons, foldl_nil]
  rw [Store.apply_outside _ (by simp only [length_singleton]; omega),
    Store.apply_outside _ (by simp only [length_singleton]; omega)]

theorem before_loop (behind : 4 ≤ place) :
    afterStores [⟨2, [action]⟩, ⟨3, [operand]⟩] before place = before place := by
  simp only [afterStores, foldl_cons, foldl_nil]
  rw [Store.apply_outside _ (by simp only [length_singleton]; omega),
    Store.apply_outside _ (by simp only [length_singleton]; omega)]

variable (full : ∀ classifier ∈ classifiers, classifier.crValue.length = 16)

theorem record_number (zeroed : before numClassifiers = 0) :
    afterStores (storesFor classifiers cspec action operand control volatility) before
      numClassifiers = UInt8.ofNat classifiers.length := by
  have here : 4 ≤ numClassifiers := Nat.le_refl 4
  rw [record_after here,
    Store.apply_outside _ (Or.inl (by simp only [numClassifiers, classifierOffset]; omega)),
    classifierStores_number, Nat.zero_add, before_loop here, zeroed]
  split
  · rename_i none
    rw [none]
    rfl
  · rfl

include full

theorem record_classifier {i j : Nat} (inside : j < 18) {classifier : Classifier}
    (here : classifiers[i]? = some classifier) :
    afterStores (storesFor classifiers cspec action operand control volatility) before
      (classifierOffset i + j) = classifier.image.getD j 0 := by
  have bound := (List.getElem?_eq_some_iff.mp here).1
  rw [record_after (by unfold classifierOffset; omega),
    Store.apply_outside _ (Or.inl (by simp only [classifierOffset]; omega))]
  have stored := @classifierStores_inside (afterStores [⟨2, [action]⟩, ⟨3, [operand]⟩] before)
    classifiers full 0 i j inside classifier here
  rw [Nat.zero_add] at stored
  exact stored

theorem record_behind (place_behind : classifierOffset classifiers.length + cspec.length ≤ place) :
    afterStores (storesFor classifiers cspec action operand control volatility) before place =
      before place := by
  have behind : 5 ≤ place := by
    unfold classifierOffset at place_behind
    omega
  rw [record_after (by omega), Store.apply_outside _ (Or.inr place_behind),
    classifierStores_outside full 0 (by unfold numClassifiers; omega)
      (Or.inr (by rw [Nat.zero_add]; omega)), before_loop (by omega)]

omit full in
theorem record_trailer {j : Nat} (inside : j < cspec.length) :
    afterStores (storesFor classifiers cspec action operand control volatility) before
      (classifierOffset classifiers.length + j) = cspec.getD j 0 := by
  rw [record_after (by unfold classifierOffset; omega)]
  exact Store.apply_inside _ j _ inside

theorem record_zero (size : cspec.length = cspecSize)
    (zeroed : ∀ place < ruleSize, 5 ≤ place → before place = 0) (zeros : ∀ j, cspec.getD j 0 = 0)
    (behind : classifierOffset classifiers.length ≤ place) (inside : place < ruleSize) :
    afterStores (storesFor classifiers cspec action operand control volatility) before place =
      0 := by
  rcases Nat.lt_or_ge place (classifierOffset classifiers.length + cspec.length) with copied | past
  · obtain ⟨j, rfl⟩ := Nat.exists_eq_add_of_le behind
    rw [record_trailer (by omega)]
    exact zeros j
  · rw [record_behind full past]
    exact zeroed place inside (by unfold classifierOffset at behind; omega)

theorem storesFor_inside (few : classifiers.length ≤ 3) (size : cspec.length = cspecSize) :
    ∀ store ∈ storesFor classifiers cspec action operand control volatility,
      store.offset + store.bytes.length ≤ classifierOffset 3 ∨
        (store.offset = classifierOffset 3 ∧ store.bytes = cspec) := by
  intro store member
  simp only [storesFor, mem_append, mem_cons, not_mem_nil, or_false] at member
  rcases member with (head | loop) | rfl | rfl | rfl
  · left
    rcases head with rfl | rfl <;> simp [classifierOffset]
  · left
    have bound := mem_classifierStores full 0 store loop
    simp only [classifierOffset] at bound ⊢
    omega
  · by_cases three : classifiers.length = 3
    · exact Or.inr ⟨by rw [three], rfl⟩
    · left
      simp only [classifierOffset, size, cspecSize]
      omega
  · simp [classifierOffset]
  · simp [classifierOffset]

end Record

/-- The record is exact exactly when there are three classifiers, or fewer and the `cspec` is zero. -/
theorem ruleStores_exact (argc : Int) (argv : List Bytes) (cspec : Bytes)
    (before : Memory) (stores : List Store) (size : cspec.length = cspecSize)
    (zeroed : ∀ place < ruleSize, before place = 0)
    (returned : ruleStores argc argv cspec = some stores) :
    RecordExact argv cspec stores (afterStores stores before) ↔ triples (argv.drop 2) = 3 ∨
        (triples (argv.drop 2) < 3 ∧ ∀ byte ∈ cspec, byte = 0) := by
  obtain ⟨classifiers, left, action, operand, control, volatility, parsed, laid⟩ :=
    ruleStores_parts returned
  have full := classifiers_full parsed
  obtain ⟨count, each⟩ := parseClassifiers_triples parsed
  change stores = storesFor classifiers cspec _ _ _ _ at laid
  rw [laid, ← count]
  have number := @record_number classifiers cspec before action.code operand.code control.code
    volatility.code (zeroed 4 (by decide))
  constructor
  · intro exact
    have few : classifiers.length ≤ 3 := by
      apply Nat.not_lt.mp
      intro four
      have member : (⟨classifierOffset (0 + 3), [classifiers[3].crId]⟩ : Store) ∈
          storesFor classifiers cspec action.code operand.code control.code volatility.code :=
        mem_append_left _ (mem_append_right _ (fourth_store 0 3 (getElem?_eq_getElem four)))
      rcases exact.inside _ member with short | ⟨-, same⟩
      · simp only [length_singleton, classifierOffset] at short
        omega
      · rw [← same] at size
        cases size
    rcases Nat.lt_or_eq_of_le few with fewer | three
    · refine Or.inr ⟨fewer, ?_⟩
      intro byte member
      obtain ⟨j, inside, rfl⟩ := mem_iff_getElem.mp member
      have bound : j < 10 := by
        rw [size] at inside
        exact inside
      have place := exact.trailer j bound
      rw [record_behind full (by
        rw [size]
        simp only [classifierOffset, cspecSize]
        omega), zeroed _ (by simp only [classifierOffset, ruleSize]; omega)] at place
      rw [place]
      simp [getD_eq_getElem?_getD, inside]
    · exact Or.inl three
  · intro condition
    have few : classifiers.length ≤ 3 := by rcases condition with three | ⟨fewer, -⟩ <;> omega
    have small : (UInt8.ofNat classifiers.length).toNat = classifiers.length := by
      rw [UInt8.toNat_ofNat']
      omega
    have zeros : classifiers.length ≠ 3 → ∀ j, cspec.getD j 0 = 0 := by
      intro fewer j
      have zero := (condition.resolve_left fewer).2
      rw [getD_eq_getElem?_getD]
      cases here : cspec[j]? with
      | none => rfl
      | some byte => exact zero byte (mem_of_getElem? here)
    constructor
    · rw [number, small]
      exact few
    · exact storesFor_inside full few size
    · rw [number, small]
      intro i below
      obtain ⟨field, operator, value, first, second, third, parsed⟩ :=
        each i classifiers[i] (getElem?_eq_getElem below)
      rw [getElem?_drop] at first second third
      refine ⟨field, operator, value, classifiers[i], first, ?_, ?_, parsed, ?_⟩
      · rw [← second]
        congr 1
        omega
      · rw [← third]
        congr 1
        omega
      · intro j inside
        exact record_classifier full inside (getElem?_eq_getElem below)
    · rw [number, small]
      intro i inside unused j _
      have fewer : classifiers.length ≠ 3 := by omega
      exact record_zero full size (fun place inside _ => zeroed place inside) (zeros fewer)
        (by simp only [classifierOffset]; omega) (by simp only [classifierOffset, ruleSize]; omega)
    · intro j inside
      by_cases three : classifiers.length = 3
      · rw [← three]
        exact record_trailer (size ▸ inside)
      · rw [zeros three j]
        unfold cspecSize at inside
        exact record_zero full size (fun place inside _ => zeroed place inside) (zeros three)
          (by simp only [classifierOffset]; omega)
          (by simp only [classifierOffset, ruleSize]; omega)

def sameConditions (count : Nat) : List Bytes :=
  [letters "CAP3", letters "Any"] ++
    (List.replicate count [letters "VLANUP", letters "Is", letters "5"]).flatten ++
    [letters "Add", letters "Temp"]

def sameClassifier : Classifier := ⟨2, 0, 5 :: List.replicate 15 0⟩

def taggedCspec : Bytes := [1, 0, 0x81, 0, 0, 7, 0, 0, 0, 0]

theorem three_conditions :
    ∃ stores, ruleStores 13 (sameConditions 3) taggedCspec = some stores ∧
      RecordExact (sameConditions 3) taggedCspec stores (afterStores stores fun _ => 0) := by
  have accepted : (ruleStores 13 (sameConditions 3) taggedCspec).isSome = true := by decide
  have three : triples ((sameConditions 3).drop 2) = 3 := by decide
  obtain ⟨stores, returned⟩ := isSome_iff_exists.mp accepted
  exact ⟨stores, returned, (ruleStores_exact 13 (sameConditions 3) taggedCspec (fun _ => 0) stores
    rfl (fun _ _ => rfl) returned).mpr (Or.inl three)⟩

/-- With one condition the `cspec` is found in `CLASSIFIER [1]`, and a fourth one is stored behind
the third. -/
theorem record_misplaced : (∃ stores, ruleStores 7 (sameConditions 1) taggedCspec = some stores ∧
      (∀ j < 10, afterStores stores (fun _ => 0) (classifierOffset 3 + j) = 0) ∧
      (∀ j < 10, afterStores stores (fun _ => 0) (classifierOffset 1 + j) =
        taggedCspec.getD j 0) ∧
      ¬ RecordExact (sameConditions 1) taggedCspec stores (afterStores stores fun _ => 0)) ∧
    ∃ stores, ruleStores 16 (sameConditions 4) taggedCspec = some stores ∧
      (∃ store ∈ stores, ruleSize ≤ store.offset) ∧
      ¬ RecordExact (sameConditions 4) taggedCspec stores (afterStores stores fun _ => 0) := by
  have one : ruleStores 7 (sameConditions 1) taggedCspec = some
      ([⟨2, [3]⟩, ⟨3, [1]⟩] ++ storesOf 0 sameClassifier ++
        [⟨23, taggedCspec⟩, ⟨0, [0]⟩, ⟨1, [0]⟩]) := by decide
  have four : ruleStores 16 (sameConditions 4) taggedCspec = some
      ([⟨2, [3]⟩, ⟨3, [1]⟩] ++ classifierStores 0 (List.replicate 4 sameClassifier) ++
        [⟨77, taggedCspec⟩, ⟨0, [0]⟩, ⟨1, [0]⟩]) := by decide
  refine ⟨⟨_, one, by decide, by decide, ?_⟩, _, four, ?_, ?_⟩
  · intro exact
    exact absurd (exact.trailer 0 (by decide)) (by decide)
  · exact ⟨⟨77, taggedCspec⟩, by simp, by decide⟩
  · intro exact
    exact absurd exact.few (by decide)

end AthApps.Plc
