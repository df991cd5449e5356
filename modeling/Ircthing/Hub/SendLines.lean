/-
This file models how a text is cut into the messages of `handleSend` where it is sent line by line.
-/

import Ircthing.Golang.Strings
import Mathlib.Data.List.TakeWhile

namespace Ircthing.Hub

open List

variable {text line : Bytes}

/-- `strings.ReplaceAll(text, "\r\n", "\n")`. -/
def unixLines : Bytes → Bytes
  | [] => []
  | 0x0D :: 0x0A :: rest => 0x0A :: unixLines rest
  | byte :: rest => byte :: unixLines rest

variable (text)

def nonEmptyLines : List Bytes :=
  (splitByte 0x0A (unixLines text)).filter (· ≠ [])

/-- The `prefix` of `fallbackLines`. -/
def actionStart : Bytes := 0x01 :: lit "ACTION "

def isAction : Bool := hasPrefix text actionStart && hasSuffix text [0x01]

def unwrap : Bytes := trimSuffix (trimPrefix text actionStart) [0x01]

def fallbackLines : List Bytes :=
  if !isAction text then nonEmptyLines text
  else (nonEmptyLines (unwrap text)).map fun line => actionStart ++ line ++ [0x01]

/-- The check of `handleSend` that a text is not blank. -/
def acceptsText : Bool := trimSpace text ≠ []

def withoutEmptyLines : Bytes :=
  join [0x0A] ((splitByte 0x0A text).filter (· ≠ []))

structure SendsText : Prop where
  some : fallbackLines text ≠ []
  single : ∀ line ∈ fallbackLines text, 0x0A ∉ line
  plain : isAction text = false →
    join [0x0A] (fallbackLines text) = withoutEmptyLines (unixLines text)
  action : isAction text = true → (∀ line ∈ fallbackLines text, isAction line = true) ∧
    join [0x0A] ((fallbackLines text).map unwrap) = withoutEmptyLines (unixLines (unwrap text))

/-! ### Lines -/

variable {text}

theorem mem_of_mem_splitByte {separator byte : UInt8} (member : line ∈ splitByte separator text)
    (inside : byte ∈ line) : byte ≠ separator ∧ byte ∈ text := by
  induction text generalizing line with
  | nil =>
    rw [mem_singleton.mp member] at inside
    cases inside
  | cons first rest ih =>
    have later : ∀ {line}, line ∈ splitByte separator rest → byte ∈ line →
        byte ≠ separator ∧ byte ∈ first :: rest := fun member inside =>
      (ih member inside).imp_right (.tail _)
    by_cases same : first = separator
    · rw [splitByte, if_pos same] at member
      obtain rfl | member := mem_cons.mp member
      · cases inside
      · exact later member inside
    · obtain ⟨_, _, split⟩ := exists_cons_of_ne_nil (splitByte_ne_nil separator rest)
      rw [split] at later
      rw [splitByte_cons same split] at member
      obtain rfl | member := mem_cons.mp member
      · obtain rfl | inside := mem_cons.mp inside
        · exact ⟨same, mem_cons_self⟩
        · exact later mem_cons_self inside
      · exact later (.tail _ member) inside

theorem mem_unixLines {byte : UInt8} (other : byte ≠ 0x0D) :
    byte ∈ unixLines text ↔ byte ∈ text := by
  fun_induction unixLines text with
  | case1 => exact Iff.rfl
  | case2 _ ih => simp [ih, other]
  | case3 _ _ _ ih => simp [ih]

theorem nonEmptyLines_ne_nil_iff :
    nonEmptyLines text ≠ [] ↔ ∃ byte ∈ unixLines text, byte ≠ 0x0A := by
  constructor
  · intro some
    obtain ⟨line, member⟩ := exists_mem_of_ne_nil _ some
    obtain ⟨listed, filled⟩ := mem_filter.mp member
    obtain ⟨byte, _, rfl⟩ := exists_cons_of_ne_nil (of_decide_eq_true filled)
    obtain ⟨other, inside⟩ := mem_of_mem_splitByte listed mem_cons_self
    exact ⟨byte, inside, other⟩
  · rintro ⟨byte, member, other⟩ none
    rw [← join_splitByte 0x0A (unixLines text)] at member
    obtain separator | ⟨line, listed, inside⟩ := mem_join member
    · exact other (mem_singleton.mp separator)
    · have empty := filter_eq_nil_iff.mp none line listed
      rw [Bool.not_eq_true, decide_eq_false_iff_not, not_not] at empty
      rw [empty] at inside
      cases inside

/-! ### Blank texts -/

theorem isSpace_of_breaks {fuel : Nat} (breaks : ∀ byte ∈ text, byte = 0x0D ∨ byte = 0x0A)
    {rune : Nat × Bytes} (member : rune ∈ runesFuel fuel text) : isSpace rune.1 = true := by
  induction fuel generalizing text with
  | zero => cases member
  | succ _ ih =>
    cases text with
    | nil => cases member
    | cons first rest =>
      obtain ⟨here, later⟩ := forall_mem_cons.mp breaks
      have decoded : decodeRune (first :: rest) = (first.toNat, 1) := by
        obtain rfl | rfl := here <;> rfl
      rw [runesFuel, decoded] at member
      obtain rfl | member := mem_cons.mp member
      · obtain rfl | rfl := here <;> rfl
      · exact ih later member

theorem exists_of_acceptsText (accepted : acceptsText text = true) :
    ∃ byte ∈ unixLines text, byte ≠ 0x0A := by
  by_contra! none
  refine of_decide_eq_true accepted ?_
  have breaks : ∀ byte ∈ text, byte = 0x0D ∨ byte = 0x0A := fun byte member =>
    or_iff_not_imp_left.mpr fun other => none byte ((mem_unixLines other).mpr member)
  have spaces : (runes text).dropWhile (fun rune => isSpace rune.1) = [] :=
    dropWhile_eq_nil_iff.2 fun rune member => isSpace_of_breaks breaks member
  rw [trimSpace, spaces]
  rfl

/-! ### Actions -/

theorem isAction_wrap (line : Bytes) : isAction (actionStart ++ line ++ [0x01]) = true := by
  rw [isAction, Bool.and_eq_true]
  exact ⟨List.isPrefixOf_iff_prefix.mpr ⟨line ++ [0x01], (append_assoc _ _ _).symm⟩,
    isSuffixOf_iff_suffix.mpr ⟨actionStart ++ line, rfl⟩⟩

theorem unwrap_wrap (line : Bytes) : unwrap (actionStart ++ line ++ [0x01]) = line := by
  have started : hasPrefix (actionStart ++ line ++ [0x01]) actionStart = true :=
    (Bool.and_eq_true_iff.mp (isAction_wrap line)).1
  have ended : hasSuffix (line ++ [0x01]) [0x01] = true :=
    isSuffixOf_iff_suffix.mpr ⟨line, rfl⟩
  rw [unwrap, trimPrefix, if_pos started, append_assoc, drop_left, trimSuffix,
    if_pos ended, length_append, Nat.add_sub_cancel, take_left]

/-- The messages of an accepted text carry it, unless it is an ACTION without a line. -/
theorem sends_text_iff (text : Bytes) (accepted : acceptsText text = true) :
    SendsText text ↔
      (isAction text = true → ∃ byte ∈ unixLines (unwrap text), byte ≠ 0x0A) := by
  have single : ∀ {text line}, line ∈ nonEmptyLines text → 0x0A ∉ line := fun member inside =>
    (mem_of_mem_splitByte (mem_of_mem_filter member) inside).1 rfl
  cases kind : isAction text with
  | false =>
    have lines : fallbackLines text = nonEmptyLines text := by rw [fallbackLines, kind]; rfl
    refine ⟨fun _ wrong => absurd wrong Bool.false_ne_true, fun _ => ?_⟩
    refine ⟨?_, ?_, fun _ => ?_, fun wrong => absurd (kind.symm.trans wrong) Bool.false_ne_true⟩
    · rw [lines]
      exact nonEmptyLines_ne_nil_iff.mpr (exists_of_acceptsText accepted)
    · rw [lines]
      exact fun line => single
    · rw [lines]
      rfl
  | true =>
    have lines : fallbackLines text =
        (nonEmptyLines (unwrap text)).map fun line => actionStart ++ line ++ [0x01] := by
      rw [fallbackLines, kind]
      rfl
    have wrapped : ∀ line ∈ fallbackLines text, ∃ body ∈ nonEmptyLines (unwrap text),
        actionStart ++ body ++ [0x01] = line := fun line member =>
      mem_map.mp (lines ▸ member)
    have filled : fallbackLines text ≠ [] ↔ ∃ byte ∈ unixLines (unwrap text), byte ≠ 0x0A := by
      rw [lines, ne_eq, map_eq_nil_iff]
      exact nonEmptyLines_ne_nil_iff
    refine ⟨fun sends _ => filled.mp sends.some, fun some => ⟨filled.mpr (some rfl), ?_,
      fun wrong => absurd (wrong.symm.trans kind) Bool.false_ne_true, fun _ => ⟨?_, ?_⟩⟩⟩
    · intro line member inside
      obtain ⟨body, listed, rfl⟩ := wrapped line member
      simp only [mem_append, mem_singleton] at inside
      obtain (start | middle) | wrong := inside
      · exact absurd start (by decide)
      · exact single listed middle
      · cases wrong
    · intro line member
      obtain ⟨body, -, rfl⟩ := wrapped line member
      exact isAction_wrap body
    · have same : unwrap ∘ (fun line => actionStart ++ line ++ [0x01]) = id := funext unwrap_wrap
      rw [lines, map_map, same, map_id]
      rfl

theorem sends_text_lines : SendsText (lit "a\r\n\nb") :=
  (sends_text_iff _ (by decide +kernel)).mpr fun action => absurd action (by decide +kernel)

/-- An ACTION without a body is accepted, and there is nothing to send. -/
theorem empty_action_acknowledged :
    acceptsText (actionStart ++ [0x01]) = true ∧ fallbackLines (actionStart ++ [0x01]) = [] := by
  decide +kernel

end Ircthing.Hub
