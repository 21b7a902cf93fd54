import Mathlib.Data.List.Basic

/-!
# Runs and traces

A machine is a function `step` that takes an input.  `run` feeds it a list of
inputs, `Along` says that a condition on state and input holds at every step
of such a run, and `Along.invariant` is the induction that goes with them.
A machine whose steps may have no result `Reaches` the states that it can come
to under a condition, and `follows` computes such a run; each of its inputs may
depend on the state it meets.

A trace is a list of events in the order they happened.  It is `Justified` by
a relation between what came before and an event if the relation holds at
each of its events, and it `Grows` if events of some kind are added.
-/

set_option autoImplicit false

namespace AthApps.Lib

open List

section Runs

variable {σ α : Type} (step : σ → α → σ)

def run (state : σ) (inputs : List α) : σ := inputs.foldl step state

def Along (condition : σ → α → Prop) : σ → List α → Prop
  | _, [] => True
  | state, input :: rest => condition state input ∧ Along condition (step state input) rest

@[simp] theorem run_nil (state : σ) : run step state [] = state := rfl

@[simp] theorem run_cons (state : σ) (input : α) (rest : List α) :
    run step state (input :: rest) = run step (step state input) rest := rfl

theorem run_append (state : σ) (first second : List α) :
    run step state (first ++ second) = run step (run step state first) second :=
  foldl_append

variable {step}

theorem Along.append {condition : σ → α → Prop} {state : σ} {first second : List α}
    (front : Along step condition state first)
    (back : Along step condition (run step state first) second) :
    Along step condition state (first ++ second) := by
  induction first generalizing state with
  | nil => exact back
  | cons input rest ih =>
    obtain ⟨here, later⟩ := front
    exact ⟨here, ih later back⟩

theorem Along.front {condition : σ → α → Prop} {state : σ} {first rest : List α}
    (along : Along step condition state (first ++ rest)) :
    Along step condition state first := by
  induction first generalizing state with
  | nil => exact True.intro
  | cons input others ih => exact ⟨along.1, ih along.2⟩

theorem Along.at {condition : σ → α → Prop} {state : σ} {first rest : List α} {input : α}
    (along : Along step condition state (first ++ input :: rest)) :
    condition (run step state first) input := by
  induction first generalizing state with
  | nil => exact along.1
  | cons earlier others ih => exact ih along.2

theorem Along.invariant {condition : σ → α → Prop} {invariant : σ → Prop}
    (keeps : ∀ state input, condition state input → invariant state → invariant (step state input))
    {state : σ} {inputs : List α} (along : Along step condition state inputs)
    (initially : invariant state) : invariant (run step state inputs) := by
  induction inputs generalizing state with
  | nil => exact initially
  | cons input rest ih =>
    obtain ⟨here, later⟩ := along
    exact ih later (keeps state input here initially)

theorem Along.mono {condition other : σ → α → Prop} {state : σ} {inputs : List α}
    (along : Along step condition state inputs)
    (implies : ∀ state input, condition state input → other state input) :
    Along step other state inputs := by
  induction inputs generalizing state with
  | nil => exact True.intro
  | cons input rest ih => exact ⟨implies state input along.1, ih along.2⟩

theorem Along.trivial (state : σ) (inputs : List α) :
    Along step (fun _ _ => True) state inputs := by
  induction inputs generalizing state with
  | nil => exact True.intro
  | cons input rest ih => exact ⟨True.intro, ih (step state input)⟩

instance Along.decidable {condition : σ → α → Prop}
    [here : ∀ state input, Decidable (condition state input)] :
    ∀ (state : σ) (inputs : List α), Decidable (Along step condition state inputs)
  | _, [] => isTrue True.intro
  | state, input :: rest =>
    @instDecidableAnd _ _ (here state input) (Along.decidable (step state input) rest)

end Runs

section PartialRuns

variable {σ α : Type} (step : σ → α → Option σ) (condition : σ → α → Prop)

inductive Reaches (start : σ) : σ → Prop
  | start : Reaches start start
  | step {state after : σ} (input : α) (earlier : Reaches start state)
      (met : condition state input) (steps : step state input = some after) : Reaches start after

def follows [∀ state input, Decidable (condition state input)] : σ → List (σ → α) → Option σ
  | state, [] => some state
  | state, move :: rest =>
    if condition state (move state) then
      (step state (move state)).bind fun after => follows after rest
    else none

variable {step condition}

theorem Reaches.invariant {invariant : σ → Prop} {start state : σ}
    (keeps : ∀ state input after, condition state input → step state input = some after →
      invariant state → invariant after)
    (reached : Reaches step condition start state) (initially : invariant start) :
    invariant state := by
  induction reached with
  | start => exact initially
  | step input _ met steps ih => exact keeps _ input _ met steps ih

theorem Reaches.mono {other : σ → α → Prop} {start state : σ}
    (reached : Reaches step condition start state)
    (implies : ∀ state input, condition state input → other state input) :
    Reaches step other start state := by
  induction reached with
  | start => exact .start
  | step input _ met steps ih => exact .step input ih (implies _ input met) steps

theorem Reaches.trans {first second third : σ} (early : Reaches step condition first second)
    (late : Reaches step condition second third) : Reaches step condition first third := by
  induction late with
  | start => exact early
  | step input _ met steps ih => exact .step input ih met steps

theorem reaches_of_follows [∀ state input, Decidable (condition state input)] {start state : σ}
    {moves : List (σ → α)} (ends : follows step condition start moves = some state) :
    Reaches step condition start state := by
  induction moves generalizing start with
  | nil =>
    cases ends
    exact .start
  | cons move rest ih =>
    rw [follows] at ends
    split at ends
    next met =>
      obtain ⟨after, steps, later⟩ := Option.bind_eq_some_iff.mp ends
      exact Reaches.trans (.step (move start) .start met steps) (ih later)
    next => cases ends

end PartialRuns

section Traces

variable {ε : Type}

def Justified (relation : List ε → ε → Prop) (trace : List ε) : Prop :=
  ∀ before event after, trace = before ++ event :: after → relation before event

theorem Justified.nil (relation : List ε → ε → Prop) : Justified relation [] := by
  intro before event after split
  simp at split

variable {relation : List ε → ε → Prop} {kind : ε → Prop} {before after : List ε} {event : ε}

theorem Justified.snoc {trace : List ε}
    (earlier : Justified relation trace) (last : relation trace event) :
    Justified relation (trace ++ [event]) := by
  intro before middle after split
  rcases eq_nil_or_concat after with rfl | ⟨front, final, rfl⟩
  · obtain ⟨rfl, same⟩ := append_inj' split rfl
    cases same
    exact last
  · rw [concat_eq_append, ← cons_append, ← append_assoc] at split
    obtain ⟨same, -⟩ := append_inj' split rfl
    exact earlier before middle front same

theorem Justified.front {trace : List ε} (all : Justified relation (trace ++ [event])) :
    Justified relation trace ∧ relation trace event := by
  refine ⟨?_, all trace event [] rfl⟩
  intro before middle after split
  exact all before middle (after ++ [event]) (by simp [split])

/-- The later trace is the earlier one with events of the given kind behind it. -/
def Grows (kind : ε → Prop) (before after : List ε) : Prop :=
  ∃ events, after = before ++ events ∧ ∀ event ∈ events, kind event

theorem Grows.refl (kind : ε → Prop) (trace : List ε) : Grows kind trace trace :=
  ⟨[], (append_nil trace).symm, by simp⟩

theorem Grows.one (trace : List ε) (here : kind event) : Grows kind trace (trace ++ [event]) :=
  ⟨[event], rfl, by simpa using here⟩

theorem Grows.trans {first second third : List ε}
    (early : Grows kind first second) (late : Grows kind second third) :
    Grows kind first third := by
  obtain ⟨events, rfl, here⟩ := early
  obtain ⟨others, rfl, there⟩ := late
  refine ⟨events ++ others, append_assoc first events others, ?_⟩
  intro event member
  rcases mem_append.mp member with member | member
  · exact here event member
  · exact there event member

theorem Grows.mem (grows : Grows kind before after) (member : event ∈ before) : event ∈ after := by
  obtain ⟨events, rfl, -⟩ := grows
  exact mem_append_left events member

theorem Grows.mem_cases
    (grows : Grows kind before after) (member : event ∈ after) : event ∈ before ∨ kind event := by
  obtain ⟨events, rfl, here⟩ := grows
  rcases mem_append.mp member with member | member
  · exact Or.inl member
  · exact Or.inr (here event member)

theorem Justified.grows (earlier : Justified relation before) (grows : Grows kind before after)
    (free : ∀ trace event, kind event → relation trace event) : Justified relation after := by
  obtain ⟨events, rfl, here⟩ := grows
  induction events generalizing before with
  | nil => simpa using earlier
  | cons event rest ih =>
    have first := earlier.snoc (free before event (here event (by simp)))
    simpa using ih first fun other member => here other (by simp [member])

end Traces

end AthApps.Lib
