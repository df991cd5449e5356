/-
This file proves that a text is clamped to its longest valid prefix that fits. A text that begins a
valid one is valid exactly when its last rune is complete.
-/

import Ircthing.Golang.Utf8
import Ircthing.Hub.Persist
import Ircthing.Irc.Roster

namespace Ircthing

open List Hub Irc

variable {text after : Bytes} {last : UInt8}

theorem decodeLastRune_of_valid (filled : text ≠ []) (valid : validString text = true) :
    decodeLastRune text.reverse ≠ (runeError, 1) := by
  obtain ⟨visited, ⟨value, bytes⟩, split⟩ : ∃ visited rune, runes text = visited ++ [rune] :=
    (eq_nil_or_concat' _).resolve_left (by rw [runes_eq_cons filled]; exact cons_ne_nil _ _)
  have is := validString_iff.mp valid (value, bytes) (by simp [split])
  have whole : text = visited.flatMap (·.2) ++ bytes := by
    rw [← flatMap_runes text, split]
    simp
  rw [whole]
  exact is.decodeLastRune _

/-- A text that begins a valid one is valid if its last rune is complete. -/
theorem validString_of_decodeLastRune {earlier : Bytes}
    (valid : validString ((last :: earlier).reverse ++ after) = true)
    (complete : decodeLastRune (last :: earlier) ≠ (runeError, 1)) :
    validString (last :: earlier).reverse = true := by
  obtain ⟨before, value, more, is, same⟩ := exists_isRune_of_decodeLastRune complete
  rw [reverse_cons, ← same, append_assoc] at valid ⊢
  rw [append_assoc, validString_iff, runes_append_start] at valid
  · refine validString_append
      (validString_iff.mpr fun rune member => valid rune (mem_append_left _ member)) ?_
    rw [validString_iff, ← append_nil (more ++ _), runes_append_of_isRune is]
    exact fun rune member => mem_singleton.mp member ▸ is
  · intro byte first
    obtain ⟨rest, shape⟩ : ∃ rest, more ++ [last] = byte :: rest := by cases more <;> simp_all
    rw [shape] at is
    exact is.continues.1

theorem trimPartialRune_longest (back after : Bytes)
    (valid : validString (back.reverse ++ after) = true) :
    validString (trimPartialRune back).reverse = true ∧
      ∀ start, start <+: back.reverse → validString start = true →
        start.length ≤ (trimPartialRune back).length := by
  induction back generalizing after with
  | nil => exact ⟨rfl, fun start begins _ => begins.length_le⟩
  | cons last earlier ih =>
    rw [trimPartialRune]
    split
    next cut =>
      obtain ⟨kept, longest⟩ := ih (last :: after) (by simpa using valid)
      refine ⟨kept, fun start begins whole => ?_⟩
      rw [reverse_cons, prefix_concat_iff] at begins
      rcases begins with rfl | shorter
      · refine absurd ?_ (decodeLastRune_of_valid (by simp) whole)
        simpa using cut
      · exact longest start shorter whole
    next complete =>
      exact ⟨validString_of_decodeLastRune valid complete, fun start begins _ => by
        simpa using begins.length_le⟩

theorem trimPartialRune_suffix (back : Bytes) : trimPartialRune back <:+ back := by
  induction back with
  | nil => exact suffix_rfl
  | cons last earlier ih =>
    rw [trimPartialRune]
    split
    · exact ih.trans (suffix_cons _ _)
    · exact suffix_rfl

/-- What is clamped is the longest valid prefix within the bound, for valid texts, and the three
copies of the function agree. -/
theorem clamp_longest (text : Bytes) (bound : Nat) :
    clampUTF8 text bound <+: text ∧ (clampUTF8 text bound).length ≤ bound ∧
      (text.length ≤ bound → clampUTF8 text bound = text) ∧
      clampUTF8 (clampUTF8 text bound) bound = clampUTF8 text bound ∧
      (validString text = true → validString (clampUTF8 text bound) = true ∧
        ∀ start, start <+: text → start.length ≤ bound → validString start = true →
          start.length ≤ (clampUTF8 text bound).length) ∧
      clampRoster text = clampUTF8 text maxRosterField ∧
      clampServerInfo text = clampUTF8 text maxServerInfoBytes := by
  have short := length_clampUTF8_le text bound
  refine ⟨?_, short, clampUTF8_of_le, clampUTF8_of_le short, fun valid => ?_, rfl, rfl⟩
  · unfold clampUTF8
    split
    · exact prefix_rfl
    · have begins := reverse_prefix.mpr (trimPartialRune_suffix (text.take bound).reverse)
      rw [reverse_reverse] at begins
      exact begins.trans <| take_prefix bound text
  · unfold clampUTF8
    split
    · exact ⟨valid, fun start begins _ _ => begins.length_le⟩
    · obtain ⟨kept, longest⟩ := trimPartialRune_longest (text.take bound).reverse
        (text.drop bound) (by rwa [reverse_reverse, take_append_drop])
      refine ⟨kept, fun start begins fits whole => ?_⟩
      rw [length_reverse]
      refine longest start ?_ whole
      rw [reverse_reverse]
      exact prefix_take_iff.mpr ⟨begins, fits⟩

theorem clamp_longest_cut : clampUTF8 [0x61, 0xC3] 2 = [0x61, 0xC3] ∧
    clampUTF8 [0x61, 0xC3, 0xA9] 2 = [0x61] ∧ validString (clampUTF8 [0x61, 0xC3, 0xA9] 2) = true :=
  ⟨(clamp_longest [0x61, 0xC3] 2).2.2.1 (by decide), by decide,
    ((clamp_longest [0x61, 0xC3, 0xA9] 2).2.2.2.2.1 (by decide)).1⟩

end Ircthing
