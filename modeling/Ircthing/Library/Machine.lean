/-
This file gives the rules for machines that take one action at a time, where an action may not be
possible in a state: what a list of actions leads to, which states can be reached when every
action meets a condition on the state it is taken in, and that an invariant every such action
keeps holds in all of them.
-/

import Mathlib.Data.Option.Basic

namespace Ircthing.Library.Machine

variable {State Action : Type} {state : State}

/-- What a list of actions leads to, `none` when one of them is not possible. -/
def run (step : State → Action → Option State) : State → List Action → Option State
  | state, [] => some state
  | state, action :: later => (step state action).bind fun next => run step next later

/-- The machine whose actions are always possible. -/
def always (next : State → Action → State) (state : State) (action : Action) : Option State :=
  some (next state action)

/-- The states that can be reached by actions that meet a condition where they are taken. -/
inductive Reaches (step : State → Action → Option State) (meets : State → Action → Prop)
    (start : State) : State → Prop
  | refl : Reaches step meets start start
  | tail {state next : State} (action : Action) : Reaches step meets start state →
      meets state action → step state action = some next → Reaches step meets start next

variable {step : State → Action → Option State} {meets : State → Action → Prop} {start : State}

theorem Reaches.invariant {Holds : State → Prop} (initial : Holds start)
    (kept : ∀ state action next, Holds state → meets state action →
      step state action = some next → Holds next) (reached :
      Reaches step meets start state) : Holds state := by
  induction reached with
  | refl => exact initial
  | tail action _ met taken ih =>
    exact kept _ action _ ih met taken

theorem Reaches.mono {weaker : State → Action → Prop} (reached : Reaches step meets start state)
    (implies : ∀ state action, meets state action → weaker state action) :
    Reaches step weaker start state := by
  induction reached with
  | refl => exact .refl
  | tail action _ met taken ih =>
    exact ih.tail action (implies _ _ met) taken

/-- Actions that meet the condition in every state reach what their run leads to. -/
theorem Reaches.run {actions : List Action} {final : State}
    (reached : Reaches step meets start state)
    (each : ∀ action ∈ actions, ∀ state, meets state action)
    (ran : run step state actions = some final) : Reaches step meets start final := by
  induction actions generalizing state with
  | nil =>
    cases ran
    exact reached
  | cons action _ ih =>
    obtain ⟨_, taken, rest⟩ := Option.bind_eq_some_iff.mp ran
    exact ih (reached.tail action (each action List.mem_cons_self _) taken)
      (fun other member => each other (.tail _ member)) rest

/-- The steps that meet a condition. -/
def guarded (step : State → Action → Option State) (meets : State → Action → Prop)
    [∀ state action, Decidable (meets state action)] (state : State) (action : Action) :
    Option State :=
  if meets state action then step state action else none

theorem reaches_run [∀ state action, Decidable (meets state action)] {actions : List Action}
    {final : State} (reached : Reaches step meets start state)
    (ran : run (guarded step meets) state actions = some final) :
    Reaches step meets start final := by
  induction actions generalizing state with
  | nil =>
    cases ran
    exact reached
  | cons action _ ih =>
    obtain ⟨_, taken, rest⟩ := Option.bind_eq_some_iff.mp ran
    obtain ⟨met, possible⟩ := Option.ite_none_right_eq_some.mp taken
    exact ih (reached.tail action met possible) rest

end Ircthing.Library.Machine
