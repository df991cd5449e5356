/-
This file models the standard base64 encoding of the `encoding/base64` package. `decode` is the
decoder of the package, which is more generous than the encoder: it skips line breaks wherever they
stand, and it does not ask that the unused bits of a padded group are zero.
-/

import Ircthing.Golang.Strings

namespace Ircthing.Base64

open List

def digit (value : Nat) : UInt8 :=
  if value < 26 then 0x41 + value.toUInt8
  else if value < 52 then 0x61 + (value - 26).toUInt8
  else if value < 62 then 0x30 + (value - 52).toUInt8
  else if value = 62 then 0x2B
  else 0x2F

def digitValue (byte : UInt8) : Option Nat :=
  if inRange 0x41 0x5A byte then some (byte.toNat - 0x41)
  else if inRange 0x61 0x7A byte then some (byte.toNat - 0x61 + 26)
  else if inRange 0x30 0x39 byte then some (byte.toNat - 0x30 + 52)
  else if byte = 0x2B then some 62
  else if byte = 0x2F then some 63
  else none

def padding : UInt8 := 0x3D

/-- `StdEncoding.EncodeToString`: three bytes become four digits. -/
def encode : Bytes → Bytes
  | [] => []
  | [first] =>
    let bits := first.toNat * 16
    [digit (bits / 64), digit (bits % 64), padding, padding]
  | [first, second] =>
    let bits := (first.toNat * 256 + second.toNat) * 4
    [digit (bits / 4096), digit (bits / 64 % 64), digit (bits % 64), padding]
  | first :: second :: third :: rest =>
    let bits := (first.toNat * 256 + second.toNat) * 256 + third.toNat
    digit (bits / 262144) :: digit (bits / 4096 % 64) :: digit (bits / 64 % 64) ::
      digit (bits % 64) :: encode rest

/-- The groups of four digits of a text without line breaks. Only the last group may be
padded, to one byte or to two. -/
def decodeGroups : Bytes → Option Bytes
  | [] => some []
  | [first, second, 0x3D, 0x3D] => do
    let bits := (← digitValue first) * 64 + (← digitValue second)
    return [(bits / 16).toUInt8]
  | [first, second, third, 0x3D] => do
    let bits := ((← digitValue first) * 64 + (← digitValue second)) * 64 + (← digitValue third)
    return [(bits / 1024).toUInt8, (bits / 4 % 256).toUInt8]
  | first :: second :: third :: fourth :: rest => do
    let bits := (((← digitValue first) * 64 + (← digitValue second)) * 64 +
      (← digitValue third)) * 64 + (← digitValue fourth)
    return (bits / 65536).toUInt8 :: (bits / 256 % 256).toUInt8 :: (bits % 256).toUInt8 ::
      (← decodeGroups rest)
  | _ => none

/-- `StdEncoding.DecodeString`; `none` is a `CorruptInputError`. -/
def decode (text : Bytes) : Option Bytes :=
  decodeGroups (text.filter fun byte => byte != 0x0A && byte != 0x0D)

theorem digit_spec : ∀ value < 64, digitValue (digit value) = some value ∧
    digit value ≠ padding := by
  decide +kernel

theorem digit_plain (value : Nat) : (digit value != 0x0A && digit value != 0x0D) = true := by
  by_cases small : value < 64
  · revert value
    decide +kernel
  · rw [digit, if_neg (by omega), if_neg (by omega), if_neg (by omega), if_neg (by omega)]
    rfl

variable (bytes : Bytes)

theorem length_encode : (encode bytes).length % 4 = 0 := by
  fun_induction encode bytes with
  | case4 =>
    simp only [length_cons]
    omega
  | _ => simp

theorem decodeGroups_encode : decodeGroups (encode bytes) = some bytes := by
  fun_induction encode bytes with
  | case1 => rfl
  | case2 first bits =>
    have bound := first.toNat_lt
    have high := digit_spec (bits / 64) (by omega)
    have low := digit_spec (bits % 64) (by omega)
    have whole : (bits / 64 * 64 + bits % 64) / 16 = first.toNat := by omega
    simp [padding, decodeGroups, high.1, low.1, whole]
  | case3 first second bits =>
    have bound := first.toNat_lt
    have bound' := second.toNat_lt
    have high := digit_spec (bits / 4096) (by omega)
    have middle := digit_spec (bits / 64 % 64) (by omega)
    have low := digit_spec (bits % 64) (by omega)
    have whole : (bits / 4096 * 64 + bits / 64 % 64) * 64 + bits % 64 = bits := by omega
    have one : bits / 1024 = first.toNat := by omega
    have two : bits / 4 % 256 = second.toNat := by omega
    rw [padding, decodeGroups]
    · simp [high.1, middle.1, low.1, whole, one, two]
    · exact low.2
  | case4 first second third _ bits ih =>
    have bound := first.toNat_lt
    have bound' := second.toNat_lt
    have bound'' := third.toNat_lt
    have high := digit_spec (bits / 262144) (by omega)
    have upper := digit_spec (bits / 4096 % 64) (by omega)
    have lower := digit_spec (bits / 64 % 64) (by omega)
    have low := digit_spec (bits % 64) (by omega)
    have whole : ((bits / 262144 * 64 + bits / 4096 % 64) * 64 + bits / 64 % 64) * 64 + bits % 64 =
        bits := by omega
    have one : bits / 65536 = first.toNat := by omega
    have two : bits / 256 % 256 = second.toNat := by omega
    have three : bits % 256 = third.toNat := by omega
    rw [decodeGroups]
    · simp [high.1, upper.1, lower.1, low.1, whole, one, two, three, ih]
    · exact fun wrong => absurd wrong lower.2
    · exact fun wrong => absurd wrong low.2

theorem decode_encode : decode (encode bytes) = some bytes := by
  have plain : ∀ byte ∈ encode bytes, (byte != 0x0A && byte != 0x0D) = true := by
    fun_induction encode bytes with
    | case1 => exact forall_mem_nil _
    | case4 _ _ _ _ _ ih =>
      simp only [forall_mem_cons, digit_plain, true_and]
      exact ih
    | case2 =>
      simp only [forall_mem_cons, digit_plain, true_and]
      exact ⟨rfl, rfl, forall_mem_nil _⟩
    | case3 =>
      simp only [forall_mem_cons, digit_plain, true_and]
      exact ⟨rfl, forall_mem_nil _⟩
  rw [decode, filter_eq_self.mpr plain, decodeGroups_encode]

end Ircthing.Base64
