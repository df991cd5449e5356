/-
This file is a small calculus of weakest preconditions for programs that update a state and may stop
with an error. An operation that fails half way leaves behind what it already wrote, so the weakest
precondition carries two postconditions, one for a returned value and one for an error.
-/

import Mathlib.Logic.Basic
import Mathlib.Order.Basic

namespace Ircthing.Library

open ExceptT

abbrev Effect (Err State Value : Type) := ExceptT Err (StateM State) Value

namespace Effect

variable {Err State Value Result : Type} {state : State} {program : Effect Err State Value}
  {post post' : Value → State → Prop} {failed failed' : Err → State → Prop}

def exec (program : Effect Err State Value) (state : State) : Except Err Value × State :=
  run program |>.run state

def final (program : Effect Err State Value) (state : State) : State :=
  (program.exec state).2

def wp (program : Effect Err State Value) (post : Value → State → Prop)
    (failed : Err → State → Prop) (state : State) : Prop :=
  match program.exec state with
  | (.ok value, next) => post value next
  | (.error reason, next) => failed reason next

theorem wp_iff (program : Effect Err State Value) (post : Value → State → Prop)
    (failed : Err → State → Prop) (state : State) :
    program.wp post failed state ↔
      (∀ value next, program.exec state = (.ok value, next) → post value next) ∧
        (∀ reason next, program.exec state = (.error reason, next) → failed reason next) := by
  unfold wp
  rcases ended : program.exec state with ⟨outcome, next⟩
  cases outcome with
  | ok => simp
  | error => simp

theorem wp_mono (holds : program.wp post failed state)
    (value : ∀ value next, post value next → post' value next)
    (error : ∀ reason next, failed reason next → failed' reason next) :
    program.wp post' failed' state := by
  rw [wp_iff] at holds ⊢
  exact ⟨fun result next ended => value result next (holds.1 result next ended),
    fun reason next ended => error reason next (holds.2 reason next ended)⟩

theorem exists_of_wp (holds : program.wp post (fun _ _ => False) state) :
    ∃ value next, program.exec state = (.ok value, next) ∧ post value next := by
  unfold wp at holds
  rcases ended : program.exec state with ⟨outcome, next⟩
  rw [ended] at holds
  cases outcome with
  | ok value => exact ⟨value, next, rfl, holds⟩
  | error => exact holds.elim

theorem wp_final {property : State → Prop}
    (holds : program.wp (fun _ => property) (fun _ => property) state) :
    property (program.final state) := by
  unfold wp at holds
  unfold final
  rcases ended : program.exec state with ⟨outcome, _⟩
  rw [ended] at holds
  cases outcome with
  | ok value | error reason => exact holds

@[simp] theorem exec_pure (value : Value) (state : State) :
    exec (pure value : Effect Err State Value) state = (.ok value, state) := rfl

@[simp] theorem exec_bind (program : Effect Err State Value)
    (next : Value → Effect Err State Result) (state : State) :
    exec (program >>= next) state = match program.exec state with
      | (.ok value, reached) => (next value).exec reached
      | (.error reason, reached) => (.error reason, reached) := by
  unfold exec
  simp only [run_bind, StateT.run_bind]
  rcases StateT.run (run program) state with ⟨outcome, reached⟩
  cases outcome <;> rfl

@[simp] theorem wp_pure (value : Value) (post : Value → State → Prop)
    (failed : Err → State → Prop) (state : State) :
    wp (pure value : Effect Err State Value) post failed state ↔ post value state := Iff.rfl

@[simp] theorem wp_bind (program : Effect Err State Value) (next : Value → Effect Err State Result)
    (post : Result → State → Prop) (failed : Err → State → Prop) (state : State) :
    wp (program >>= next) post failed state ↔
      program.wp (fun value => (next value).wp post failed) failed state := by
  unfold wp
  rw [exec_bind]
  rcases program.exec state with ⟨outcome, _⟩
  cases outcome <;> rfl

theorem wp_seq {next : Value → Effect Err State Result} {goal : Result → State → Prop}
    (first : program.wp post failed state)
    (rest : ∀ value reached, post value reached → (next value).wp goal failed' reached)
    (error : ∀ reason reached, failed reason reached → failed' reason reached) :
    wp (program >>= next) goal failed' state :=
  (wp_bind program next goal failed' state).mpr (wp_mono first rest error)

@[simp] theorem wp_get (post : State → State → Prop) (failed : Err → State → Prop) (state : State) :
    wp (get : Effect Err State State) post failed state ↔ post state state := Iff.rfl

@[simp] theorem wp_modify (update : State → State) (post : PUnit → State → Prop)
    (failed : Err → State → Prop) (state : State) :
    wp (modify update : Effect Err State PUnit) post failed state ↔ post ⟨⟩ (update state) :=
  Iff.rfl

@[simp] theorem wp_tryCatch (program : Effect Err State Value)
    (handler : Err → Effect Err State Value) (post : Value → State → Prop)
    (failed : Err → State → Prop) (state : State) :
    wp (tryCatch program handler) post failed state ↔
      program.wp post (fun reason => (handler reason).wp post failed) state := by
  have caught : exec (tryCatch program handler) state = match program.exec state with
      | (.ok value, reached) => (.ok value, reached)
      | (.error reason, reached) => (handler reason).exec reached := by
    unfold exec
    simp only [run_tryCatch, StateT.run_bind]
    rcases StateT.run (run program) state with ⟨outcome, reached⟩
    cases outcome <;> rfl
  unfold wp
  rw [caught]
  rcases program.exec state with ⟨outcome, reached⟩
  cases outcome <;> rfl

def ofExcept (outcome : Except Err Value) : Effect Err State Value :=
  match outcome with
  | .ok value => pure value
  | .error reason => throw reason

theorem wp_ofExcept {outcome : Except Err Value}
    (success : ∀ value, outcome = .ok value → post value state)
    (failure : ∀ reason, outcome = .error reason → failed reason state) :
    wp (ofExcept outcome) post failed state := by
  cases outcome with
  | ok value => exact success value rfl
  | error reason => exact failure reason rfl

def recover (program : Effect Err State Value) : Effect Err State (Option Value) :=
  tryCatch (do pure (some (← program))) fun _ => pure none

@[simp] theorem wp_recover (program : Effect Err State Value)
    (post : Option Value → State → Prop) (failed : Err → State → Prop) (state : State) :
    wp program.recover post failed state ↔
      program.wp (fun value => post (some value)) (fun _ => post none) state := by
  unfold recover
  rw [wp_tryCatch, wp_bind]
  exact Iff.rfl

def zoom {Part : Type} (view : State → Part) (update : State → Part → State)
    (program : Effect Err Part Value) : Effect Err State Value :=
  mk fun state =>
    ((program.exec (view state)).1, update state (program.exec (view state)).2)

@[simp] theorem wp_zoom {Part : Type} (view : State → Part) (update : State → Part → State)
    (program : Effect Err Part Value) (post : Value → State → Prop)
    (failed : Err → State → Prop) (state : State) :
    wp (zoom view update program) post failed state ↔
      program.wp (fun value part => post value (update state part))
        (fun reason part => failed reason (update state part)) (view state) := by
  have run : exec (zoom view update program) state =
      ((program.exec (view state)).1, update state (program.exec (view state)).2) := rfl
  unfold wp
  rw [run]
  rcases program.exec (view state) with ⟨outcome, part⟩
  cases outcome <;> rfl

end Effect

end Ircthing.Library
