/-
This file proves that the full-text search reads its query back as the words that were typed. What
is assumed of its lexer is stated here: the expression ends at the first NUL, and a string token
ends at the first quote that is not doubled.
-/

import Ircthing.Golang.Strings
import Mathlib.Data.List.TakeWhile

namespace Ircthing

/-! ### The lexer of FTS5 -/

namespace Fts5

inductive Token
  | string (content : Bytes)
  | other (byte : UInt8)
deriving DecidableEq

def isBlank (byte : UInt8) : Bool := byte = 0x20 || byte = 0x09 || byte = 0x0A || byte = 0x0D

/-- The tokens of an expression, after what was read of an open string. An open string at the end is
an error. -/
def tokensFrom : Option Bytes → Bytes → Option (List Token)
  | none, [] => some []
  | some _, [] => none
  | some content, 0x22 :: 0x22 :: rest => tokensFrom (some (content ++ [0x22])) rest
  | some content, 0x22 :: rest => (tokensFrom none rest).map (.string content :: ·)
  | some content, byte :: rest => tokensFrom (some (content ++ [byte])) rest
  | none, 0x22 :: rest => tokensFrom (some []) rest
  | none, byte :: rest =>
    if isBlank byte then tokensFrom none rest else (tokensFrom none rest).map (.other byte :: ·)

def tokens (expression : Bytes) : Option (List Token) :=
  tokensFrom none (expression.takeWhile (· != 0))

end Fts5

namespace Store

open Fts5 List

/-! ### The query -/

/-- `strings.ReplaceAll`, of a single byte. -/
def replaceByte (old : UInt8) (new text : Bytes) : Bytes :=
  text.flatMap fun byte => if byte = old then new else [byte]

/-- A term of `ftsQuery`. -/
def quoted (f : Bytes) : Bytes := [0x22] ++ replaceByte 0x22 [0x22, 0x22] f ++ [0x22]

def ftsQuery (input : Bytes) : Bytes :=
  let fields := fields input
  if fields = [] then [] else join [0x20] (fields.map quoted)

/-! ### Reading it back -/

variable {f rest : Bytes}

theorem tokensFrom_quoted (apart : rest.head? ≠ some 0x22) :
    tokensFrom none (quoted f ++ rest) = (tokensFrom none rest).map (.string f :: ·) := by
  have within : ∀ content, tokensFrom (some content)
      (replaceByte 0x22 [0x22, 0x22] f ++ 0x22 :: rest) =
        (tokensFrom none rest).map (.string (content ++ f) :: ·) := by
    induction f with
    | nil =>
      intro content
      cases rest with
      | nil => simp [replaceByte, tokensFrom]
      | cons next =>
        have different : next ≠ 0x22 := fun same => apart (same ▸ rfl)
        simp [replaceByte, tokensFrom, different]
    | cons byte _ ih =>
      intro content
      by_cases quote : byte = 0x22
      · have later := ih (content ++ [0x22])
        rw [append_assoc] at later
        simpa [replaceByte, quote, tokensFrom] using later
      · simpa [replaceByte, quote, tokensFrom] using ih (content ++ [byte])
  simpa [quoted, tokensFrom] using within []

theorem tokensFrom_join (words : List Bytes) :
    tokensFrom none (join [0x20] (words.map quoted)) = some (words.map .string) := by
  induction words with
  | nil => rfl
  | cons f rest ih =>
    cases rest with
    | nil =>
      have read : tokensFrom none (quoted f ++ []) = _ := tokensFrom_quoted (by simp)
      simpa [join, tokensFrom] using read
    | cons =>
      rw [map_cons, map_cons, join, append_assoc, tokensFrom_quoted (by simp)]
      · simpa [tokensFrom, isBlank] using congrArg (Option.map (.string f :: ·)) ih
      · simp

theorem mem_of_tokensFrom {state : Option Bytes} {expression : Bytes} {found : List Token}
    (read : tokensFrom state expression = some found) (member : .string f ∈ found) {byte : UInt8}
    (inside : byte ∈ f) : byte ∈ expression ∨ byte ∈ state.getD [] := by
  fun_induction tokensFrom state expression generalizing found with
  | case1 => simp_all
  | case2 => cases read
  | case3 content rest ih | case5 content head rest _ _ ih =>
    have located := ih read member
    grind
  | case4 =>
    obtain ⟨later, onward, rfl⟩ := Option.map_eq_some_iff.mp read
    rcases mem_cons.mp member with same | member
    · cases same
      exact .inr inside
    · grind
  | case6 rest ih | case7 head rest _ _ ih =>
    have located := ih read member
    grind
  | case8 _ _ _ _ ih =>
    obtain ⟨later, onward, rfl⟩ := Option.map_eq_some_iff.mp read
    have located := ih onward (by simpa using member)
    grind

/-- The expression reads back as the words of the input exactly when no word holds a NUL. -/
theorem ftsQuery_reads_back (input : Bytes) :
    tokens (ftsQuery input) = some ((fields input).map .string) ↔
      ∀ f ∈ fields input, (0 : UInt8) ∉ f := by
  have expression : ftsQuery input = join [0x20] ((fields input).map quoted) := by
    dsimp only [ftsQuery]
    split <;> simp_all [join]
  constructor
  · intro read f member inside
    have located := mem_of_tokensFrom read (mem_map_of_mem member) inside
    simpa using mem_takeWhile_imp (located.resolve_right not_mem_nil)
  · intro free
    have whole : (ftsQuery input).takeWhile (· != 0) = ftsQuery input := by
      refine takeWhile_eq_self_iff.mpr fun byte member => ?_
      rw [expression] at member
      rcases mem_join member with blank | ⟨_, listed, inside⟩
      · simp_all
      · obtain ⟨f, word, rfl⟩ := mem_map.mp listed
        have nul := free f word
        simp only [quoted, replaceByte] at inside
        grind
    rw [tokens, whole, expression, tokensFrom_join]

/-- A NUL in a word cuts the expression off inside its string. -/
theorem nul_leaves_string_open :
    fields (lit "a\x00b") = [lit "a\x00b"] ∧ tokens (ftsQuery (lit "a\x00b")) = none := by
  decide +kernel

end Store

end Ircthing
