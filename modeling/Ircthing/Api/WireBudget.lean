/-
This file models the raw bytes that the connections of one media fetch may read. `budgetConn.Read`
loads what is left of the shared budget before the underlying read and subtracts what was read
after it, so reads that overlap are each allowed what is left.
-/

import Ircthing.Library.Machine
import Mathlib.Algebra.BigOperators.Group.List.Basic
import Mathlib.Tactic.Linarith

namespace Ircthing.Api.WireBudget

open Library Machine

def wireBudgetAllowance : Nat := 512 * 1024

/-- The budget of a request, how much each read between its load and its subtraction may read, and
the bytes that all reads have returned. -/
structure Wire where
  remaining : Int
  inFlight : List Nat := []
  returned : Nat := 0
deriving DecidableEq

/-- The budget that `get` seeds. -/
def Wire.seeded (maxBytes : Nat) : Wire := { remaining := maxBytes + wireBudgetAllowance }

/-- The two halves of a `Read` on any of the connections. -/
inductive Half
  | load (length : Nat)
  | finish (allowed count : Nat)
deriving DecidableEq

def Wire.step (wire : Wire) : Half → Option Wire
  | .load length =>
    if wire.remaining ≤ 0 then some wire
    else some { wire with inFlight := min length wire.remaining.toNat :: wire.inFlight }
  | .finish allowed count =>
    if allowed ∈ wire.inFlight ∧ count ≤ allowed then
      some
        { remaining := wire.remaining - count
          inFlight := wire.inFlight.erase allowed
          returned := wire.returned + count }
    else none

/-- What a read that begins may read fits beside what the others in flight may. A read that is
alone always does. -/
def Wire.Fits (wire : Wire) : Half → Prop
  | .load length =>
    0 < wire.remaining →
      (min length wire.remaining.toNat + wire.inFlight.sum : Int) ≤ wire.remaining
  | .finish .. => True

instance (wire : Wire) : (half : Half) → Decidable (wire.Fits half)
  | .load _ => inferInstanceAs (Decidable (_ → _))
  | .finish .. => .isTrue trivial

/-- Nothing of the budget is lost, and what the reads in flight may read is left of it. -/
structure Wire.Sound (budget : Nat) (wire : Wire) : Prop where
  exact : wire.remaining + wire.returned = budget
  room : wire.inFlight.sum ≤ wire.remaining

variable {wire next : Wire} {budget : Nat} {half : Half}

theorem Wire.Sound.step (sound : wire.Sound budget) (fits : wire.Fits half)
    (taken : wire.step half = some next) : next.Sound budget := by
  obtain ⟨exact, room⟩ := sound
  cases half with
  | load length =>
    simp only [Wire.step] at taken
    split at taken
    · cases taken
      exact ⟨exact, room⟩
    · next left =>
      cases taken
      refine ⟨exact, ?_⟩
      have beside := fits (not_le.mp left)
      simpa only [List.sum_cons, Nat.cast_add] using beside
  | finish allowed count =>
    obtain ⟨⟨reading, within⟩, result⟩ := Option.ite_none_right_eq_some.mp taken
    cases result
    have share : allowed + (wire.inFlight.erase allowed).sum = wire.inFlight.sum :=
      List.sum_erase reading
    constructor <;> dsimp only <;> omega

/-- In every interleaving in which each read fits where it begins, the reads return no more than the
initial budget. -/
theorem wire_budget_capped (maxBytes : Nat) (wire : Wire)
    (reached : Reaches Wire.step Wire.Fits (.seeded maxBytes) wire) :
    wire.returned ≤ maxBytes + wireBudgetAllowance := by
  have sound : wire.Sound (maxBytes + wireBudgetAllowance) :=
    reached.invariant ⟨by simp [Wire.seeded], by simp [Wire.seeded]; omega⟩
      fun _ _ _ sound fits taken => sound.step fits taken
  have := sound.exact
  have := sound.room
  omega

theorem wire_budget_capped_inTurn :
    ∃ wire, run Wire.step (.seeded 1000)
        [.load 4096, .finish 4096 4096, .load 600000, .finish 521192 521192, .load 1] = some wire ∧
      wire.returned = 1000 + wireBudgetAllowance ∧
      wire.returned ≤ 1000 + wireBudgetAllowance := by
  have ran : run (guarded Wire.step Wire.Fits) (.seeded 1000)
      [.load 4096, .finish 4096 4096, .load 600000, .finish 521192 521192, .load 1] =
        some { remaining := 0, returned := 525288 } := by
    decide +kernel
  have reached := reaches_run .refl ran
  exact ⟨_, by decide +kernel, rfl, wire_budget_capped 1000 _ reached⟩

/-- Two reads that begin before either ends return twice the budget. -/
theorem overlapping_reads_exceed_budget :
    ∃ wire, run Wire.step (.seeded 0)
        [.load 524288, .load 524288, .finish 524288 524288, .finish 524288 524288] = some wire ∧
      0 + wireBudgetAllowance < wire.returned :=
  ⟨{ remaining := -524288, returned := 1048576 }, by decide +kernel, by decide⟩

end Ircthing.Api.WireBudget
