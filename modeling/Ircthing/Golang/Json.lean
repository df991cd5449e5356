/-
This file models how `encoding/json` writes strings, numbers and objects, as far as lengths and what
arrives at the other end depend on it. What arrives is the text with U+FFFD in the place of each
such byte, and the text itself when there are none.
-/

import Mathlib.Data.Nat.Digits.Defs
import Ircthing.Golang.Utf8

namespace Ircthing

open List

namespace Json

/-! ### Strings -/

/-- A digit of a `\u` escape. -/
def hexDigit (value : UInt8) : UInt8 := if value < 10 then 0x30 + value else 0x57 + value

def writeByte (byte : UInt8) : Bytes :=
  if byte = 0x22 ∨ byte = 0x5C then [0x5C, byte]
  else if byte = 0x08 then lit "\\b"
  else if byte = 0x0C then lit "\\f"
  else if byte = 0x0A then lit "\\n"
  else if byte = 0x0D then lit "\\r"
  else if byte = 0x09 then lit "\\t"
  else if byte < 0x20 ∨ byte = 0x3C ∨ byte = 0x3E ∨ byte = 0x26 then
    lit "\\u00" ++ [hexDigit (byte >>> 4), hexDigit (byte &&& 0x0F)]
  else [byte]

def writeRune (rune : Nat × Bytes) : Bytes :=
  if rune.1 = runeError ∧ rune.2.length = 1 then lit "\\ufffd"
  else if rune.1 = 0x2028 then lit "\\u2028"
  else if rune.1 = 0x2029 then lit "\\u2029"
  else
    match rune.2 with
    | [byte] => writeByte byte
    | bytes => bytes

variable (text : Bytes)

/-- `appendString` with HTML escaping. -/
def quote : Bytes := [0x22] ++ (runes text).flatMap writeRune ++ [0x22]

def delivered : Bytes :=
  (runes text).flatMap fun rune =>
    if rune.1 = runeError ∧ rune.2.length = 1 then encodeRune runeError else rune.2

theorem delivered_of_valid {text : Bytes} (valid : validString text = true) :
    delivered text = text := by
  refine Eq.trans (flatMap_congr fun rune member => if_neg fun broken => ?_) (flatMap_runes text)
  have whole := all_eq_true.mp valid rune member
  simp [broken.1, broken.2] at whole

theorem validString_delivered (text : Bytes) : validString (delivered text) = true := by
  have whole : delivered text = ((runes text).map fun rune =>
      if rune.1 = runeError ∧ rune.2.length = 1 then (runeError, encodeRune runeError)
      else rune).flatMap (·.2) := by
    rw [delivered, flatMap_map]
    exact flatMap_congr fun rune _ => by split <;> rfl
  rw [whole]
  refine validString_flatMap fun rune member => ?_
  obtain ⟨read, found, rfl⟩ := mem_map.mp member
  split
  · exact isRune_encodeRune (.inr (by decide))
  next proper => exact isRune_of_mem_runes found proper

theorem delivered_eq_iff {text : Bytes} : delivered text = text ↔ validString text = true :=
  ⟨fun same => same ▸ validString_delivered text, delivered_of_valid⟩

theorem delivered_eq_nil {text : Bytes} : delivered text = [] ↔ text = [] := by
  constructor
  · intro empty
    have none : runes text = [] := by
      refine eq_nil_iff_forall_not_mem.mpr fun rune member => ?_
      have written := flatMap_eq_nil_iff.mp empty rune member
      split at written
      · cases written
      · exact runes_ne_nil member written
    rw [← flatMap_runes text, none, flatMap_nil]
  · rintro rfl
    rfl

/-! ### Numbers and objects -/

/-- `true` and `false`. -/
def boolean (value : Bool) : Bytes := if value then lit "true" else lit "false"

def field (name : String) (value : Bytes) : Bytes := quote (lit name) ++ [0x3A] ++ value

/-- A field that `omitempty` leaves out. -/
def fieldUnless (absent : Bool) (name : String) (value : Bytes) : List Bytes :=
  if absent then [] else [field name value]

def object (fields : List Bytes) : Bytes := [0x7B] ++ join [0x2C] fields ++ [0x7D]

variable (elements : List Bytes)

def array : Bytes := [0x5B] ++ join [0x2C] elements ++ [0x5D]

end Json

end Ircthing
