import AthApps.Lib.Logged

/-!
# Computations that keep a log and can stop

Where a computation stops, the log has what was noted up to there.
-/

set_option autoImplicit false

namespace AthApps.Lib

def Attempt (ε σ α : Type) : Type := Logged ε (Except σ α)

namespace Attempt

variable {ε σ α β : Type}

def value (computation : Attempt ε σ α) : Except σ α := Logged.value computation

def log (computation : Attempt ε σ α) : List ε := Logged.log computation

def andThen (first : Attempt ε σ α) (next : α → Attempt ε σ β) : Attempt ε σ β :=
  match first.value with
  | .ok result => ⟨(next result).value, first.log ++ (next result).log⟩
  | .error reason => ⟨.error reason, first.log⟩

instance : Monad (Attempt ε σ) where
  pure result := ⟨.ok result, []⟩
  bind := andThen

def stop (reason : σ) : Attempt ε σ α := ⟨.error reason, []⟩

def require (condition : Prop) [Decidable condition] (reason : σ) : Attempt ε σ Unit :=
  if condition then pure () else stop reason

def lift (computation : Logged ε α) : Attempt ε σ α := ⟨.ok computation.value, computation.log⟩

instance : MonadLift (Logged ε) (Attempt ε σ) := ⟨lift⟩

@[simp] theorem liftM_eq (computation : Logged ε α) :
    (liftM computation : Attempt ε σ α) = lift computation := rfl

def notes (entries : List ε) : Attempt ε σ Unit := ⟨.ok (), entries⟩

def All (property : ε → Prop) (computation : Attempt ε σ α) : Prop :=
  ∀ entry ∈ computation.log, property entry

theorem bind_bind {γ : Type} (first : Attempt ε σ α) (next : α → Attempt ε σ β)
    (last : β → Attempt ε σ γ) :
    (first >>= next) >>= last = first >>= fun middle => next middle >>= last := by
  change andThen (andThen first next) last = andThen first fun middle => andThen (next middle) last
  unfold andThen
  cases first.value with
  | error reason => rfl
  | ok middle =>
    simp only [value, log]
    cases Logged.value (next middle) with
    | error reason => rfl
    | ok result =>
      simp only [List.append_assoc]
      rfl

section Value

variable {first : Attempt ε σ α} {next : α → Attempt ε σ β} {reason : σ}

theorem bind_eq_ok {result : β} : (first >>= next).value = .ok result ↔
      ∃ middle, first.value = .ok middle ∧ (next middle).value = .ok result := by
  change (andThen first next).value = .ok result ↔ _
  unfold andThen
  cases first.value with
  | ok middle => simp [Attempt.value]
  | error reason => simp [Attempt.value]

theorem bind_eq_error : (first >>= next).value = .error reason ↔
      first.value = .error reason ∨
        ∃ middle, first.value = .ok middle ∧ (next middle).value = .error reason := by
  change (andThen first next).value = .error reason ↔ _
  unfold andThen
  cases first.value with
  | ok middle => simp [Attempt.value]
  | error reason => simp [Attempt.value]

variable {value result : α}

@[simp] theorem pure_eq_ok : (pure value : Attempt ε σ α).value = .ok result ↔ value = result := by
  change Except.ok value = .ok result ↔ _
  rw [Except.ok.injEq]

@[simp] theorem pure_ne_error : (pure value : Attempt ε σ α).value = .error reason ↔ False :=
  iff_of_false (fun same => by cases same) id

@[simp] theorem stop_ne_ok : (stop reason : Attempt ε σ α).value = .ok result ↔ False :=
  iff_of_false (fun same => by cases same) id

@[simp] theorem stop_eq_error {other : σ} :
    (stop reason : Attempt ε σ α).value = .error other ↔ reason = other := by
  change Except.error reason = .error other ↔ _
  rw [Except.error.injEq]

@[simp] theorem require_eq_ok {condition : Prop} [Decidable condition] {result : Unit} :
    (require condition reason : Attempt ε σ Unit).value = .ok result ↔ condition := by
  unfold require
  split
  next holds => simp [holds]
  next fails => simp [fails]

@[simp] theorem require_eq_error {condition : Prop} [Decidable condition] {other : σ} :
    (require condition reason : Attempt ε σ Unit).value = .error other ↔
      ¬condition ∧ reason = other := by
  unfold require
  split
  next holds => simp [holds]
  next fails => simp [fails]

variable {computation : Logged ε α}

@[simp] theorem lift_eq_ok :
    (lift computation : Attempt ε σ α).value = .ok result ↔ computation.value = result := by
  change Except.ok computation.value = .ok result ↔ _
  rw [Except.ok.injEq]

@[simp] theorem lift_ne_error : (lift computation : Attempt ε σ α).value = .error reason ↔ False :=
  iff_of_false (fun same => by cases same) id

@[simp] theorem notes_eq_ok {entries : List ε} {result : Unit} :
    (notes entries : Attempt ε σ Unit).value = .ok result ↔ True :=
  iff_of_true rfl trivial

end Value

section Log

variable {property : ε → Prop}

theorem all_bind {first : Attempt ε σ α} {next : α → Attempt ε σ β} :
    All property (first >>= next) ↔
      All property first ∧ ∀ middle, first.value = .ok middle → All property (next middle) := by
  change All property (andThen first next) ↔ _
  unfold andThen
  cases first.value with
  | ok middle =>
    simp only [Except.ok.injEq, forall_eq']
    exact List.forall_mem_append
  | error reason =>
    simp only [reduceCtorEq, false_implies, implies_true, and_true]
    rfl

@[simp] theorem all_pure {value : α} : All property (pure value : Attempt ε σ α) :=
  fun _ noted => by cases noted

variable {reason : σ}

@[simp] theorem all_stop : All property (stop reason : Attempt ε σ α) :=
  fun _ noted => by cases noted

@[simp] theorem all_require {condition : Prop} [Decidable condition] :
    All property (require condition reason : Attempt ε σ Unit) := by
  unfold require
  split
  · exact all_pure
  · exact all_stop

theorem all_require_bind {condition : Prop} [Decidable condition] {next : Unit → Attempt ε σ β} :
    All property (require condition reason >>= next) ↔ (condition → All property (next ())) := by
  simp only [all_bind, all_require, require_eq_ok, true_and]
  exact ⟨fun all holds => all () holds, fun all _ holds => all holds⟩

@[simp] theorem all_lift {computation : Logged ε α} :
    All property (lift computation : Attempt ε σ α) ↔ Logged.All property computation := Iff.rfl

@[simp] theorem all_notes {entries : List ε} :
    All property (notes entries : Attempt ε σ Unit) ↔ ∀ entry ∈ entries, property entry := Iff.rfl

end Log

/-- Where everything that is noted meets an assumption, it has a property, and what comes out
has another. -/
structure Assures (assumed property : ε → Prop) (result : α → Prop) (reason : σ → Prop)
    (computation : Attempt ε σ α) : Prop where
  noted : All assumed computation → All property computation
  ok : All assumed computation → ∀ value, computation.value = .ok value → result value
  error : All assumed computation → ∀ stop, computation.value = .error stop → reason stop

section Assures

variable {assumed property : ε → Prop} {result : α → Prop} {reason : σ → Prop}

theorem assures_pure {value : α} (holds : result value) :
    Assures assumed property result reason (pure value : Attempt ε σ α) where
  noted _ := all_pure
  ok _ _ same := pure_eq_ok.mp same ▸ holds
  error _ _ same := (pure_ne_error.mp same).elim

theorem assures_stop {why : σ} (holds : reason why) :
    Assures assumed property result reason (stop why : Attempt ε σ α) where
  noted _ := all_stop
  ok _ _ same := (stop_ne_ok.mp same).elim
  error _ _ same := stop_eq_error.mp same ▸ holds

theorem assures_notes {entries : List ε}
    (holds : (∀ entry ∈ entries, assumed entry) → ∀ entry ∈ entries, property entry) :
    Assures assumed property (fun _ => ∀ entry ∈ entries, assumed entry) reason
      (notes entries : Attempt ε σ Unit) where
  noted met := holds met
  ok met _ _ := met
  error _ _ same := by cases same

theorem assures_bind {first : Attempt ε σ α} {next : α → Attempt ε σ β} {after : β → Prop}
    (one : Assures assumed property result reason first)
    (two : ∀ value, result value → Assures assumed property after reason (next value)) :
    Assures assumed property after reason (first >>= next) where
  noted met := by
    obtain ⟨early, late⟩ := all_bind.mp met
    exact all_bind.mpr ⟨one.noted early, fun middle came =>
      (two middle (one.ok early middle came)).noted (late middle came)⟩
  ok met value came := by
    obtain ⟨early, late⟩ := all_bind.mp met
    obtain ⟨middle, began, ended⟩ := bind_eq_ok.mp came
    exact (two middle (one.ok early middle began)).ok (late middle began) value ended
  error met why came := by
    obtain ⟨early, late⟩ := all_bind.mp met
    rcases bind_eq_error.mp came with at_once | ⟨middle, began, ended⟩
    · exact one.error early why at_once
    · exact (two middle (one.ok early middle began)).error (late middle began) why ended

theorem Assures.weaken {computation : Attempt ε σ α} {weaker : α → Prop}
    (assures : Assures assumed property result reason computation)
    (implied : ∀ value, result value → weaker value) :
    Assures assumed property weaker reason computation where
  noted := assures.noted
  ok met value came := implied value (assures.ok met value came)
  error := assures.error

end Assures

end Attempt

end AthApps.Lib
