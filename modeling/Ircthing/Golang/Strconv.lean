/-
This file models the conversion of the `strconv` package from decimal text to numbers. `atoi`
accepts what `strconv.Atoi` accepts on a 64-bit machine: an optional sign, at least one digit and
nothing else, with a value that fits an `int`.
-/

import Ircthing.Golang.Strings
import Mathlib.Algebra.Order.Ring.Int

namespace Ircthing

def decimalDigit (byte : UInt8) : Option Nat :=
  if inRange 0x30 0x39 byte then some (byte.toNat - 0x30) else none

def decimalDigits (digits : Bytes) : Option Nat :=
  digits.foldlM (fun value byte => (decimalDigit byte).map (value * 10 + ·)) 0

def cutSign : Bytes → Bool × Bytes
  | 0x2D :: digits => (true, digits)
  | 0x2B :: digits => (false, digits)
  | digits => (false, digits)

def atoi (text : Bytes) : Option Int :=
  match cutSign text with
  | (_, []) => none
  | (negative, digits) =>
    (decimalDigits digits).bind fun value =>
      let number : Int := if negative then -value else value
      if -2 ^ 63 ≤ number ∧ number < 2 ^ 63 then some number else none

end Ircthing
