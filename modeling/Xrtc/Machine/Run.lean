/-
# Runs of a labelled step function

A system is a step function that answers `none` where an action is not enabled.
A run is the left fold of that function over a list of actions. The rules below
are the ones every invariant proof goes through: an invariant needs the initial
state and one step, and a conditional invariant may also use a guard that every
step of the run satisfies at the state it starts from.
-/

import Mathlib.Algebra.GroupWithZero.Nat
import Mathlib.Data.List.Basic

namespace Xrtc.Machine

universe u v

variable {State : Type u} {Action : Type v}

/-- Execute a list of actions; `none` as soon as one of them is not enabled. -/
def run (step : State → Action → Option State) : State → List Action → Option State
  | state, [] => some state
  | state, action :: actions => (step state action).bind fun next => run step next actions

/-- Every step of the run satisfies `guard` at the state it is taken from. A
run that stops at a disabled action asks nothing of the actions behind it. -/
def RunMeets (step : State → Action → Option State) (guard : State → Action → Prop) :
    State → List Action → Prop
  | _, [] => True
  | state, action :: actions =>
      guard state action ∧
        ∀ next, step state action = some next → RunMeets step guard next actions

variable {step : State → Action → Option State} {guard : State → Action → Prop}

@[simp]
theorem run_nil (state : State) : run step state [] = some state := rfl

theorem run_cons (state : State) (action : Action) (actions : List Action) :
    run step state (action :: actions) =
      (step state action).bind fun next => run step next actions := rfl

/-- A nonempty run that succeeds passes through the state after its first step. -/
theorem run_cons_eq_some {state last : State} {action : Action} {actions : List Action} :
    run step state (action :: actions) = some last ↔
      ∃ next, step state action = some next ∧ run step next actions = some last := by
  rw [run_cons, Option.bind_eq_some_iff]

theorem run_append (state : State) (first second : List Action) :
    run step state (first ++ second) =
      (run step state first).bind fun next => run step next second := by
  induction first generalizing state with
  | nil => rfl
  | cons action actions ih =>
      rw [List.cons_append, run_cons, run_cons]
      cases hstep : step state action with
      | none => rfl
      | some next => exact ih next

theorem run_append_eq_some {state last : State} {first second : List Action} :
    run step state (first ++ second) = some last ↔
      ∃ next, run step state first = some next ∧ run step next second = some last := by
  rw [run_append, Option.bind_eq_some_iff]

/-- **Invariant rule.** What one step preserves, a whole run preserves. -/
theorem run_preserves (Inv : State → Prop)
    (preserved : ∀ {state next action}, Inv state → step state action = some next → Inv next)
    {state last : State} {actions : List Action} (hinit : Inv state)
    (hrun : run step state actions = some last) : Inv last := by
  induction actions generalizing state with
  | nil =>
      cases hrun
      exact hinit
  | cons action actions ih =>
      obtain ⟨next, hstep, hrest⟩ := run_cons_eq_some.mp hrun
      exact ih (preserved hinit hstep) hrest

/-- **Guarded invariant rule.** A step may use the guard of the state it starts
from, provided every step of the run meets that guard. -/
theorem run_preserves_of_meets (Inv : State → Prop)
    (preserved : ∀ {state next action}, Inv state → guard state action →
      step state action = some next → Inv next)
    {state last : State} {actions : List Action} (hinit : Inv state)
    (hmeets : RunMeets step guard state actions)
    (hrun : run step state actions = some last) : Inv last := by
  induction actions generalizing state with
  | nil =>
      cases hrun
      exact hinit
  | cons action actions ih =>
      obtain ⟨next, hstep, hrest⟩ := run_cons_eq_some.mp hrun
      exact ih (preserved hinit hmeets.1 hstep) (hmeets.2 next hstep) hrest

theorem runMeets_cons_of_eq_some {state next : State} {action : Action} {actions : List Action}
    (hstep : step state action = some next) :
    RunMeets step guard state (action :: actions) ↔
      guard state action ∧ RunMeets step guard next actions := by
  simp only [RunMeets, hstep, Option.some.injEq, forall_eq']

theorem runMeets_cons_of_eq_none {state : State} {action : Action} {actions : List Action}
    (hstep : step state action = none) :
    RunMeets step guard state (action :: actions) ↔ guard state action := by
  simp only [RunMeets, hstep, reduceCtorEq, false_implies, implies_true, and_true]

/-- A guard that can be decided can be decided along a run. -/
instance decidableRunMeets [∀ state action, Decidable (guard state action)] :
    ∀ (state : State) (actions : List Action), Decidable (RunMeets step guard state actions)
  | _, [] => isTrue trivial
  | state, action :: actions =>
      match hstep : step state action with
      | none => decidable_of_iff _ (runMeets_cons_of_eq_none hstep).symm
      | some next =>
          have := decidableRunMeets next actions
          decidable_of_iff _ (runMeets_cons_of_eq_some hstep).symm

/-- A stronger guard. -/
theorem RunMeets.imp {weaker : State → Action → Prop}
    (himp : ∀ state action, guard state action → weaker state action) {state : State}
    {actions : List Action} (hmeets : RunMeets step guard state actions) :
    RunMeets step weaker state actions := by
  induction actions generalizing state with
  | nil => trivial
  | cons action actions ih =>
      exact ⟨himp state action hmeets.1, fun next hstep => ih (hmeets.2 next hstep)⟩

theorem RunMeets.front {state : State} {first second : List Action}
    (hmeets : RunMeets step guard state (first ++ second)) :
    RunMeets step guard state first := by
  induction first generalizing state with
  | nil => trivial
  | cons action actions ih => exact ⟨hmeets.1, fun next hstep => ih (hmeets.2 next hstep)⟩

/-- Behind a part of the run that has been taken, the rest of it meets the guard. -/
theorem RunMeets.behind {state middle : State} {first second : List Action}
    (hmeets : RunMeets step guard state (first ++ second))
    (hrun : run step state first = some middle) : RunMeets step guard middle second := by
  induction first generalizing state with
  | nil =>
      cases hrun
      exact hmeets
  | cons action actions ih =>
      obtain ⟨next, hstep, hrest⟩ := run_cons_eq_some.mp hrun
      exact ih (hmeets.2 next hstep) hrest

/-- A guard on actions alone is met by a run all of whose actions satisfy it. -/
theorem runMeets_of_forall {admissible : Action → Prop} {state : State} {actions : List Action}
    (hall : ∀ action ∈ actions, admissible action) :
    RunMeets step (fun _ action => admissible action) state actions := by
  induction actions generalizing state with
  | nil => trivial
  | cons action actions ih =>
      rw [List.forall_mem_cons] at hall
      exact ⟨hall.1, fun _ _ => ih hall.2⟩

/-! ## Simulation -/

section Simulation

universe u' v'

variable {Abstract : Type u'} {Move : Type v'}

end Simulation

/-! ## Runs that end -/

section Ending

variable (measure : State → ℕ)

end Ending

end Xrtc.Machine
