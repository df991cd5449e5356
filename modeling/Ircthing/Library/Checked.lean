/-
This file gives the two checks a parser written in the error monad is made of, and the rules
that read a successful run of a chain of checks back as the list of what was checked.
-/

import Mathlib.Logic.Basic

namespace Ircthing.Library

variable {Err Value Result : Type}

def refuse (bad : Prop) [Decidable bad] (reason : Err) : Except Err Unit :=
  if bad then .error reason else .ok ()

def present (found : Option Value) (reason : Err) : Except Err Value :=
  match found with
  | some value => .ok value
  | none => .error reason

@[simp] theorem refuse_eq_ok {bad : Prop} [Decidable bad] {reason : Err} {passed : Unit} :
    refuse bad reason = .ok passed ↔ ¬ bad := by
  by_cases held : bad <;> simp [refuse, held]

@[simp] theorem present_eq_ok {found : Option Value} {reason : Err} {value : Value} :
    present found reason = .ok value ↔ found = some value := by
  cases found <;> simp [present]

@[simp] theorem bind_eq_ok {first : Except Err Value} {next : Value → Except Err Result}
    {result : Result} :
    (first >>= next) = .ok result ↔ ∃ value, first = .ok value ∧ next value = .ok result := by
  cases first <;> simp [bind, Except.bind]

@[simp] theorem pure_eq_ok {value result : Value} :
    (pure value : Except Err Value) = .ok result ↔ value = result := by
  simp [pure, Except.pure]

end Ircthing.Library
