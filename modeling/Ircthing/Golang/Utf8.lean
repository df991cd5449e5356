/-
This file proves how the runes of a text behave when texts are cut and joined. A rune that is
complete is read alike whatever follows it, and so is any rune before the start of another.
-/

import Ircthing.Golang.Strings
import Mathlib.Data.List.TakeWhile

namespace Ircthing

open List

variable {text before after : Bytes} {rune : Nat × Bytes} {visited : List (Nat × Bytes)}
  {first last byte low high : UInt8} {size : Nat}

/-! ### The first rune -/

theorem decodeRune_size_le (text : Bytes) : (decodeRune text).2 ≤ text.length := by
  unfold decodeRune
  split
  · exact le_rfl
  · split
    · exact Nat.succ_le_succ (Nat.zero_le _)
    · split <;> (try split) <;> simp
    · split <;> (try split) <;> simp
    · split <;> (try split) <;> simp
    · exact Nat.succ_le_succ (Nat.zero_le _)

theorem runesFuel_succ (fuel : Nat) (first : UInt8) (rest : Bytes) :
    runesFuel (fuel + 1) (first :: rest) =
      ((decodeRune (first :: rest)).1, (first :: rest).take (decodeRune (first :: rest)).2) ::
        runesFuel fuel ((first :: rest).drop (decodeRune (first :: rest)).2) := rfl

theorem runesFuel_congr {fuel other : Nat} (enough : text.length ≤ fuel)
    (ample : text.length ≤ other) : runesFuel fuel text = runesFuel other text := by
  induction fuel generalizing text other with
  | zero =>
    rw [eq_nil_of_length_eq_zero (Nat.le_zero.mp enough)]
    cases other <;> rfl
  | succ fuel ih =>
    cases text with
    | nil => cases other <;> rfl
    | cons first rest =>
      cases other with
      | zero => exact absurd ample (Nat.not_succ_le_zero _)
      | succ other =>
        have positive := decodeRune_size_pos first rest
        rw [length_cons] at enough ample
        rw [runesFuel_succ, runesFuel_succ, ih] <;> (rw [length_drop, length_cons]; omega)

theorem runes_eq_cons (filled : text ≠ []) :
    runes text = ((decodeRune text).1, text.take (decodeRune text).2) ::
      runes (text.drop (decodeRune text).2) := by
  cases text with
  | nil => exact absurd rfl filled
  | cons first rest =>
    have positive := decodeRune_size_pos first rest
    rw [runes, length_cons, runesFuel_succ]
    refine congrArg _ (runesFuel_congr ?_ le_rfl)
    rw [length_drop, length_cons]
    omega

theorem runes_induction {Holds : Bytes → Prop} (empty : Holds [])
    (step : ∀ text, text ≠ [] → Holds (text.drop (decodeRune text).2) → Holds text)
    (text : Bytes) : Holds text := by
  induction size : text.length using Nat.strongRecOn generalizing text with
  | _ size ih =>
    cases text with
    | nil => exact empty
    | cons first rest =>
      have positive := decodeRune_size_pos first rest
      refine step _ (cons_ne_nil _ _) (ih _ ?_ _ rfl)
      rw [length_drop, ← size, length_cons]
      omega

/-! ### Before the start of a rune -/

theorem runeStart_eq (byte : UInt8) : runeStart byte = !inRange 0x80 0xBF byte := by
  have all : ∀ bits : BitVec 8, runeStart ⟨bits⟩ = !inRange 0x80 0xBF ⟨bits⟩ := by decide +kernel
  exact all byte.toBitVec

theorem inRange_iff {low high byte : UInt8} :
    inRange low high byte = true ↔ low.toNat ≤ byte.toNat ∧ byte.toNat ≤ high.toNat := by
  simp [inRange, UInt8.le_iff_toNat_le]

theorem decodeRune_continuation (behind : runeStart first = false) (rest : Bytes) :
    decodeRune (first :: rest) = (runeError, 1) := by
  have none : leadInfo first = none := by
    rw [runeStart_eq, Bool.not_eq_false'] at behind
    have range := inRange_iff.mp behind
    unfold leadInfo
    simp only [UInt8.lt_iff_toNat_lt, inRange_iff, ← UInt8.toNat_inj]
    simp at range ⊢
    split_ifs <;> first | rfl | omega
  rw [decodeRune, none]

theorem inRange_start (info : leadInfo first = some (size + 2, low, high))
    (start : runeStart byte = true) : inRange low high byte = false := by
  have within : 0x80 ≤ low ∧ high ≤ 0xBF := by
    unfold leadInfo at info
    split_ifs at info <;> cases info <;> decide
  rw [runeStart_eq] at start
  grind [inRange]

theorem decodeRune_append_start (filled : before ≠ [])
    (start : ∀ byte ∈ after.head?, runeStart byte = true) :
    decodeRune (before ++ after) = decodeRune before := by
  cases before with
  | nil => exact absurd rfl filled
  | cons first rest =>
  cases after with
  | nil => rw [append_nil]
  | cons byte after =>
  have starts : runeStart byte = true := start byte rfl
  have behind : inRange 0x80 0xBF byte = false := by rwa [runeStart_eq, Bool.not_eq_true'] at starts
  rw [cons_append, decodeRune, decodeRune]
  split
  · rfl
  · next info =>
    cases rest with
    | nil => simp [inRange_start info starts]
    | cons => rfl
  · next info =>
    rcases rest with _ | ⟨_, _ | ⟨_, _⟩⟩
    · cases after <;> simp [inRange_start info starts]
    · simp [behind]
    · rfl
  · next info =>
    rcases rest with _ | ⟨_, _ | ⟨_, _ | ⟨_, _⟩⟩⟩
    · rcases after with _ | ⟨_, _ | ⟨_, _⟩⟩ <;> simp [inRange_start info starts]
    · cases after <;> simp [behind]
    · simp [behind]
    · rfl
  · rfl

theorem runes_append_start (start : ∀ byte ∈ after.head?, runeStart byte = true) :
    runes (before ++ after) = runes before ++ runes after := by
  induction before using runes_induction with
  | empty => rfl
  | step before filled ih =>
    have within := decodeRune_size_le before
    rw [runes_eq_cons (append_ne_nil_of_left_ne_nil filled after),
      decodeRune_append_start filled start, runes_eq_cons filled,
      take_append_of_le_length within, drop_append_of_le_length within, ih,
      cons_append]

theorem decodeRune_ascii (ascii : byte < 0x80) (rest : Bytes) :
    decodeRune (byte :: rest) = (byte.toNat, 1) := by
  rw [decodeRune, leadInfo, if_pos ascii]
  rfl

theorem runes_of_ascii (ascii : ∀ byte ∈ text, byte < 0x80) :
    runes text = text.map fun byte => (byte.toNat, [byte]) := by
  induction text with
  | nil => rfl
  | cons byte text ih =>
    have small : byte < 0x80 := ascii byte mem_cons_self
    rw [runes_eq_cons (cons_ne_nil _ _), decodeRune_ascii small, map_cons]
    refine congrArg _ (ih fun other member => ?_)
    exact ascii other (.tail _ member)

/-! ### Valid texts -/

def IsRune (rune : Nat × Bytes) : Prop :=
  rune.2 ≠ [] ∧ ¬ (rune.1 = runeError ∧ rune.2.length = 1) ∧
    ∀ rest, decodeRune (rune.2 ++ rest) = (rune.1, rune.2.length)

theorem isRune_decodeRune (filled : text ≠ [])
    (complete : ¬ ((decodeRune text).1 = runeError ∧ (decodeRune text).2 = 1)) :
    IsRune ((decodeRune text).1, text.take (decodeRune text).2) := by
  cases text with
  | nil => exact absurd rfl filled
  | cons first rest =>
  have positive := decodeRune_size_pos first rest
  have size : ((first :: rest).take (decodeRune (first :: rest)).2).length =
      (decodeRune (first :: rest)).2 := length_take_of_le (decodeRune_size_le _)
  refine ⟨ne_nil_of_length_pos (size.symm ▸ positive), size.symm ▸ complete, fun other => ?_⟩
  rw [size]
  clear size positive
  revert complete
  rw [decodeRune]
  -- an incomplete sequence is read as the error, which is excluded
  split
  · next info =>
    intro _
    simp [decodeRune, info]
  · next info =>
    split <;> (try split)
    · next inside =>
      intro _
      simp [decodeRune, info, inside]
    all_goals exact fun wrong => absurd ⟨rfl, rfl⟩ wrong
  · next info =>
    split <;> (try split)
    · intro _
      simp_all [decodeRune]
    all_goals exact fun wrong => absurd ⟨rfl, rfl⟩ wrong
  · next info =>
    split <;> (try split)
    · intro _
      simp_all [decodeRune]
    all_goals exact fun wrong => absurd ⟨rfl, rfl⟩ wrong
  · exact fun wrong => absurd ⟨rfl, rfl⟩ wrong

/-- The bytes of a rune after the first are at most three and start no other. -/
theorem IsRune.continues {value : Nat} {conts : Bytes} (is : IsRune (value, first :: conts)) :
    runeStart first = true ∧ conts.length ≤ 3 ∧ ∀ byte ∈ conts, runeStart byte = false := by
  have decoded : decodeRune (first :: conts) = (value, conts.length + 1) := by
    simpa using is.2.2 []
  refine ⟨?_, ?_, fun byte member => ?_⟩
  · by_contra behind
    rw [decodeRune_continuation (Bool.not_eq_true _ ▸ behind)] at decoded
    obtain ⟨error, size⟩ := Prod.mk.inj decoded
    exact is.2.1 ⟨error.symm, size.symm⟩
  · have most : (decodeRune (first :: conts)).2 ≤ 4 := by
      unfold decodeRune
      split <;> (try split) <;> (try split) <;> (try split) <;> exact Nat.le_of_ble_eq_true rfl
    rw [decoded] at most
    exact Nat.le_of_succ_le_succ most
  · by_contra starts
    obtain ⟨middle, rest, rfl⟩ := append_of_mem member
    -- the rune would end before the byte that starts another
    have early : decodeRune ((first :: middle) ++ byte :: rest) = decodeRune (first :: middle) :=
      decodeRune_append_start (cons_ne_nil _ _) (by simpa using starts)
    have within := decodeRune_size_le (first :: middle)
    rw [← early, cons_append, decoded] at within
    dsimp only at within
    rw [length_append, length_cons, length_cons] at within
    omega

theorem runes_append_of_isRune (is : IsRune rune) (rest : Bytes) :
    runes (rune.2 ++ rest) = rune :: runes rest := by
  rw [runes_eq_cons (append_ne_nil_of_left_ne_nil is.1 _), is.2.2 rest]
  simp

theorem runes_flatMap_append (each : ∀ rune ∈ visited, IsRune rune) (rest : Bytes) :
    runes (visited.flatMap (·.2) ++ rest) = visited ++ runes rest := by
  induction visited with
  | nil => rfl
  | cons rune visited ih =>
    rw [flatMap_cons, append_assoc, runes_append_of_isRune (each rune mem_cons_self),
      ih fun other member => each other (.tail _ member), cons_append]

theorem runes_flatMap (each : ∀ rune ∈ visited, IsRune rune) :
    runes (visited.flatMap (·.2)) = visited := by
  simpa [runes, runesFuel] using runes_flatMap_append each []

theorem isRune_of_mem_runes (member : rune ∈ runes text)
    (proper : ¬ (rune.1 = runeError ∧ rune.2.length = 1)) : IsRune rune := by
  induction text using runes_induction with
  | empty => cases member
  | step text filled ih =>
    rw [runes_eq_cons filled] at member
    rcases mem_cons.mp member with rfl | later
    · rw [length_take_of_le (decodeRune_size_le text)] at proper
      exact isRune_decodeRune filled proper
    · exact ih later

theorem validString_iff : validString text = true ↔ ∀ rune ∈ runes text, IsRune rune := by
  have alike : validString text = true ↔
      ∀ rune ∈ runes text, ¬ (rune.1 = runeError ∧ rune.2.length = 1) := by
    simp [validString, or_iff_not_imp_left, not_and]
  rw [alike]
  exact ⟨fun valid rune member => isRune_of_mem_runes member (valid rune member),
    fun each rune member => (each rune member).2.1⟩

theorem validString_flatMap (each : ∀ rune ∈ visited, IsRune rune) :
    validString (visited.flatMap (·.2)) = true := by
  rw [validString_iff, runes_flatMap each]
  exact each

theorem validString_append (first : validString before = true) (second : validString after = true) :
    validString (before ++ after) = true := by
  rw [← flatMap_runes before, ← flatMap_runes after, ← flatMap_append]
  refine validString_flatMap fun rune member => ?_
  exact (mem_append.mp member).elim (validString_iff.mp first rune) (validString_iff.mp second rune)

theorem validString_fields (valid : validString text = true) :
    ∀ field ∈ fields text, validString field = true := by
  have loop : ∀ (visited : List (Nat × Bytes)) (field : Bytes), (∀ rune ∈ visited, IsRune rune) →
      validString field = true → ∀ part ∈ fieldsLoop field visited, validString part = true := by
    intro visited
    induction visited with
    | nil =>
      intro field _ valid part member
      rw [fieldsLoop] at member
      split at member
      · cases member
      · exact mem_singleton.mp member ▸ valid
    | cons rune visited ih =>
      intro field each valid part member
      have later : ∀ rune ∈ visited, IsRune rune := fun other inside =>
        each other (.tail _ inside)
      rw [fieldsLoop] at member
      split_ifs at member
      · exact ih [] later rfl part member
      · rcases mem_cons.mp member with rfl | inside
        · exact valid
        · exact ih [] later rfl part inside
      · refine ih _ later (validString_append valid ?_) part member
        have alone : validString ([rune].flatMap (·.2)) = true :=
          validString_flatMap fun other inside => mem_singleton.mp inside ▸ each rune mem_cons_self
        simpa using alone
  exact loop _ [] (validString_iff.mp valid) rfl

theorem validString_join {separator : Bytes} {parts : List Bytes}
    (between : validString separator = true) (each : ∀ part ∈ parts, validString part = true) :
    validString (join separator parts) = true := by
  induction parts with
  | nil => rfl
  | cons part parts ih =>
    have later := ih fun other member => each other (.tail _ member)
    cases parts with
    | nil => exact each part mem_cons_self
    | cons => exact validString_append (validString_append (each part mem_cons_self) between) later

/-! ### Writing a rune -/

/-- A Unicode scalar value. -/
def ValidRune (rune : Nat) : Prop := rune < 0xD800 ∨ 0xE000 ≤ rune ∧ rune ≤ 0x10FFFF

/-- A decoded rune is valid, and below 0x80 only if it is a byte by itself. -/
theorem decodeRune_code (first : UInt8) (rest : Bytes) :
    ValidRune (decodeRune (first :: rest)).1 ∧
      ((decodeRune (first :: rest)).1 < 0x80 → first < 0x80) := by
  have bound := first.toNat_lt
  have error : ValidRune runeError ∧ (runeError < 0x80 → first.toNat < 0x80) :=
    ⟨.inr (by decide), fun small => absurd small (by decide)⟩
  rw [UInt8.lt_iff_toNat_lt, decodeRune]
  split <;> rename_i info
  · exact ⟨.inl (by dsimp only; omega), id⟩
  on_goal 4 => exact error
  all_goals
    split
    on_goal 2 => exact error
    split
    on_goal 2 => exact error
    next inside =>
    unfold leadInfo at info
    simp only [Bool.and_eq_true, inRange_iff] at inside
    unfold ValidRune
    split_ifs at info <;> cases info <;>
      simp_all [← UInt8.toNat_inj, inRange_iff, UInt8.lt_iff_toNat_lt] <;> omega

theorem code_of_mem_runes (member : rune ∈ runes text) :
    ValidRune rune.1 ∧ ∃ first rest, rune.2 = first :: rest ∧
      (rune.1 ≠ runeError → runeStart first = true) ∧
      (rune.1 < 0x80 → first.toNat = rune.1 ∧ rest = []) := by
  induction text using runes_induction with
  | empty => cases member
  | step text filled ih =>
    rw [runes_eq_cons filled] at member
    rcases mem_cons.mp member with rfl | later
    · obtain ⟨first, rest, rfl⟩ := exists_cons_of_ne_nil filled
      obtain ⟨valid, small⟩ := decodeRune_code first rest
      have positive := decodeRune_size_pos first rest
      refine ⟨valid, first, rest.take ((decodeRune (first :: rest)).2 - 1), ?_, ?_, fun low => ?_⟩
      · obtain ⟨size, same⟩ := Nat.exists_eq_succ_of_ne_zero positive.ne'
        simp only [same]; rfl
      · intro noError
        by_contra behind
        exact noError (by rw [decodeRune_continuation (Bool.not_eq_true _ ▸ behind)])
      · have ascii := small low
        rw [decodeRune_ascii ascii]
        exact ⟨rfl, rfl⟩
    · exact ih later

theorem encodeRune_ascii {byte : UInt8} (ascii : byte < 0x80) :
    encodeRune byte.toNat = [byte] := by
  have small : byte.toNat < 0x80 := UInt8.lt_iff_toNat_lt.mp ascii
  rw [encodeRune, if_pos small, Nat.toUInt8_eq, UInt8.ofNat_toNat]

theorem lowerByte_ascii {byte : UInt8} : lowerByte byte < 0x80 ↔ byte < 0x80 := by
  grind [lowerByte, inRange]

theorem continuation_toNat (bits : Nat) : (continuation bits).toNat = 0x80 + bits % 64 := by
  simp [continuation]; omega

theorem inRange_continuation (bits : Nat) : inRange 0x80 0xBF (continuation bits) = true := by
  rw [inRange_iff, continuation_toNat]
  simp; omega

theorem leadInfo_of_toNat {first : UInt8} :
    (0xC2 ≤ first.toNat ∧ first.toNat ≤ 0xDF → leadInfo first = some (2, 0x80, 0xBF)) ∧
    (0xE0 ≤ first.toNat ∧ first.toNat ≤ 0xEF → leadInfo first =
      some (3, if first.toNat = 0xE0 then 0xA0 else 0x80,
        if first.toNat = 0xED then 0x9F else 0xBF)) ∧
    (0xF0 ≤ first.toNat ∧ first.toNat ≤ 0xF4 → leadInfo first =
      some (4, if first.toNat = 0xF0 then 0x90 else 0x80,
        if first.toNat = 0xF4 then 0x8F else 0xBF)) := by
  unfold leadInfo
  simp only [UInt8.lt_iff_toNat_lt, inRange_iff, ← UInt8.toNat_inj]
  refine ⟨fun range => ?_, fun range => ?_, fun range => ?_⟩ <;>
    (simp; split_ifs <;> first | rfl | omega)

theorem isRune_encodeRune {rune : Nat} (valid : ValidRune rune) :
    IsRune (rune, encodeRune rune) := by
  unfold ValidRune at valid
  unfold encodeRune
  split_ifs with one two bad three
  · refine ⟨cons_ne_nil _ _, ?_, fun rest => ?_⟩
    · simp [runeError]; omega
    · rw [cons_append, decodeRune_ascii]
      · simp; omega
      · rw [UInt8.lt_iff_toNat_lt]
        simp; omega
  · refine ⟨cons_ne_nil _ _, by simp, fun rest => ?_⟩
    have first : (0xC0 + (rune / 64).toUInt8).toNat = 0xC0 + rune / 64 := by simp; omega
    have info := leadInfo_of_toNat.1 (by rw [first]; omega)
    simp only [cons_append, decodeRune, info, inRange_continuation, if_true, continuation_toNat,
      first]
    simp; omega
  · omega
  · refine ⟨cons_ne_nil _ _, by simp, fun rest => ?_⟩
    have first : (0xE0 + (rune / 4096).toUInt8).toNat = 0xE0 + rune / 4096 := by simp; omega
    have info := leadInfo_of_toNat.2.1 (by rw [first]; omega)
    have second : inRange (if 0xE0 + rune / 4096 = 0xE0 then 0xA0 else 0x80)
        (if 0xE0 + rune / 4096 = 0xED then 0x9F else 0xBF) (continuation (rune / 64)) = true := by
      rw [inRange_iff, continuation_toNat]
      split_ifs <;> simp <;> omega
    rw [first] at info
    simp only [cons_append, decodeRune, info, inRange_continuation, second, Bool.and_true, if_true,
      continuation_toNat, first]
    simp; omega
  · refine ⟨cons_ne_nil _ _, by simp, fun rest => ?_⟩
    have first : (0xF0 + (rune / 262144).toUInt8).toNat = 0xF0 + rune / 262144 := by simp; omega
    have info := leadInfo_of_toNat.2.2 (by rw [first]; omega)
    have second : inRange (if 0xF0 + rune / 262144 = 0xF0 then 0x90 else 0x80)
        (if 0xF0 + rune / 262144 = 0xF4 then 0x8F else 0xBF)
        (continuation (rune / 4096)) = true := by
      rw [inRange_iff, continuation_toNat]
      split_ifs <;> simp <;> omega
    rw [first] at info
    simp only [cons_append, decodeRune, info, inRange_continuation, second, Bool.and_true, if_true,
      continuation_toNat, first]
    simp; omega

/-! ### The last rune -/

theorem lastRuneBytes_split (fuel : Nat) (passed earlier : Bytes) :
    ∃ before more, lastRuneBytes fuel passed earlier = more ++ passed ∧
      before ++ more = earlier.reverse := by
  induction fuel generalizing passed earlier with
  | zero => exact ⟨_, [], rfl, append_nil _⟩
  | succ fuel ih =>
    cases earlier with
    | nil => exact ⟨[], [], rfl, rfl⟩
    | cons byte earlier =>
      rw [lastRuneBytes, reverse_cons]
      split
      · exact ⟨_, [byte], rfl, rfl⟩
      · obtain ⟨before, more, read, same⟩ := ih (byte :: passed) earlier
        exact ⟨before, more ++ [byte], by simp [read], by rw [← append_assoc, same]⟩

/-- A last rune that is complete ends the text. -/
theorem exists_isRune_of_decodeLastRune {earlier : Bytes}
    (complete : decodeLastRune (last :: earlier) ≠ (runeError, 1)) :
    ∃ before value more, IsRune (value, more ++ [last]) ∧ before ++ more = earlier.reverse := by
  obtain ⟨before, more, same, whole, fine⟩ : ∃ before more, before ++ more = earlier.reverse ∧
      (decodeRune (more ++ [last])).2 = (more ++ [last]).length ∧
        decodeRune (more ++ [last]) ≠ (runeError, 1) := by
    rw [decodeLastRune] at complete
    split at complete
    next ascii =>
      have alone := decodeRune_ascii ascii []
      exact ⟨earlier.reverse, [], append_nil _, congrArg Prod.snd alone, alone ▸ complete⟩
    · obtain ⟨before, more, read, same⟩ := lastRuneBytes_split 3 [last] earlier
      rw [read] at complete
      dsimp only at complete
      split at complete
      next size =>
        exact ⟨before, more, same, size, complete⟩
      · exact absurd rfl complete
  have filled : more ++ [last] ≠ [] := append_ne_nil_of_right_ne_nil _ (cons_ne_nil _ _)
  have is := isRune_decodeRune filled fun wrong => fine (Prod.ext wrong.1 wrong.2)
  rw [whole, take_length] at is
  exact ⟨before, _, more, is, same⟩

theorem lastRuneBytes_eq (start : runeStart first = true) (back : Bytes)
    (inner : ∀ byte ∈ back, runeStart byte = false) (fuel : Nat) (short : back.length < fuel)
    (passed earlier : Bytes) :
    lastRuneBytes fuel passed (back ++ first :: earlier) = first :: (back.reverse ++ passed) := by
  induction back generalizing fuel passed with
  | nil =>
    obtain ⟨fuel, rfl⟩ := Nat.exists_eq_add_of_lt short
    exact if_pos start
  | cons byte back ih =>
    obtain ⟨fuel, rfl⟩ := Nat.exists_eq_add_of_lt short
    rw [cons_append, lastRuneBytes, if_neg (by rw [inner byte mem_cons_self]; decide),
      ih (fun other member => inner other (.tail _ member)) _ (by simp; omega)]
    simp

theorem IsRune.decodeLastRune {value : Nat} {bytes : Bytes} (is : IsRune (value, bytes))
    (before : Bytes) : decodeLastRune (before ++ bytes).reverse ≠ (runeError, 1) := by
  cases bytes with
  | nil => exact absurd rfl is.1
  | cons first conts =>
  have decoded : decodeRune (first :: conts) = (value, conts.length + 1) := by
    simpa using is.2.2 []
  have fine : decodeRune (first :: conts) ≠ (runeError, 1) := fun wrong => is.2.1
    ⟨congrArg Prod.fst (decoded.symm.trans wrong), congrArg Prod.snd (decoded.symm.trans wrong)⟩
  obtain ⟨start, short, inner⟩ := is.continues
  rcases eq_nil_or_concat' conts with rfl | ⟨middle, last, rfl⟩
  · have all : ∀ bits : BitVec 8, decodeRune [⟨bits⟩] ≠ (runeError, 1) →
        (⟨bits⟩ : UInt8) < 0x80 := by decide +kernel
    have ascii : first < 0x80 := all first.toBitVec fine
    rw [reverse_append]
    show Ircthing.decodeLastRune (first :: _) ≠ _
    rw [Ircthing.decodeLastRune, if_pos ascii, ← decodeRune_ascii ascii []]
    exact fine
  · have behind := inner last (mem_append_right _ mem_cons_self)
    have high : ¬ last < 0x80 := by
      rw [runeStart_eq] at behind
      grind [inRange]
    have read := lastRuneBytes_eq start middle.reverse
      (fun byte member => inner byte (mem_append_left _ (mem_reverse.mp member))) 3
      (by simp at short ⊢; omega) [last] before.reverse
    have backwards : (before ++ first :: (middle ++ [last])).reverse =
        last :: (middle.reverse ++ first :: before.reverse) := by simp
    rw [backwards, Ircthing.decodeLastRune, if_neg high, read, reverse_reverse]
    dsimp only
    rw [if_pos (by rw [decoded]; rfl)]
    exact fine

/-! ### The ends of a text -/

theorem runes_injective : Function.Injective runes := fun first second same => by
  rw [← flatMap_runes first, same, flatMap_runes]

theorem runes_flatMap_right {front : List (Nat × Bytes)} (split : runes text = front ++ visited) :
    runes (visited.flatMap (·.2)) = visited := by
  induction front generalizing text with
  | nil =>
    rw [nil_append] at split
    rw [← split, flatMap_runes]
  | cons _ _ ih =>
    have filled : text ≠ [] := by
      rintro rfl
      cases split
    rw [runes_eq_cons filled] at split
    exact ih (cons.inj split).2

theorem runes_flatMap_left {back : List (Nat × Bytes)} (split : runes text = visited ++ back)
    (starts : ∀ rune ∈ back.head?, rune.1 ≠ runeError) :
    runes (visited.flatMap (·.2)) = visited := by
  have start : ∀ byte ∈ (back.flatMap (·.2)).head?, runeStart byte = true := by
    cases back with
    | nil => nofun
    | cons rune _ =>
      obtain ⟨-, first, rest, same, start, -⟩ :=
        code_of_mem_runes (split ▸ mem_append_right _ mem_cons_self)
      rw [flatMap_cons, same]
      rintro _ ⟨⟩
      exact start (starts rune rfl)
  have apart : runes (visited.flatMap (·.2) ++ back.flatMap (·.2)) = _ := runes_append_start start
  rw [← flatMap_append, ← split, flatMap_runes, runes_flatMap_right split] at apart
  exact (append_cancel_right (split.symm.trans apart)).symm

/-- The runes that `strings.TrimSpace` leaves. -/
def trimRunes (visited : List (Nat × Bytes)) : List (Nat × Bytes) :=
  ((visited.dropWhile fun rune => isSpace rune.1).reverse.dropWhile fun rune =>
    isSpace rune.1).reverse

theorem runes_trimSpace (text : Bytes) : runes (trimSpace text) = trimRunes (runes text) := by
  let space (rune : Nat × Bytes) : Bool := isSpace rune.1
  let later := (runes text).dropWhile space
  have kept : runes (later.flatMap (·.2)) = later :=
    runes_flatMap_right (takeWhile_append_dropWhile (p := space)).symm
  have split : later =
      (later.reverse.dropWhile space).reverse ++ (later.reverse.takeWhile space).reverse := by
    rw [← reverse_append, takeWhile_append_dropWhile, reverse_reverse]
  refine runes_flatMap_left (kept.trans split) fun rune first noSpace => ?_
  have white : space rune = true :=
    mem_takeWhile_imp (mem_reverse.mp (mem_of_mem_head? first))
  rw [show space rune = isSpace rune.1 from rfl, noSpace] at white
  exact absurd white (by decide)

/-- A text without white space around it and without one dot at its end. -/
def trimHost (text : Bytes) : Bytes := trimSuffix (trimSpace text) (lit ".")

/-- The runes that `trimHost` leaves. -/
def trimEnds (visited : List (Nat × Bytes)) : List (Nat × Bytes) :=
  if (trimRunes visited).getLast?.any (·.1 == 0x2E) then (trimRunes visited).dropLast
  else trimRunes visited

theorem runes_append_dot (text : Bytes) :
    runes (text ++ lit ".") = runes text ++ runes (lit ".") := by
  have dot : lit "." = [0x2E] := by decide
  refine runes_append_start fun byte first => ?_
  rw [dot] at first
  cases first
  rfl

theorem hasSuffix_dot :
    hasSuffix text (lit ".") = (runes text).getLast?.any (·.1 == 0x2E) := by
  rw [Bool.eq_iff_iff]
  constructor
  · intro dotted
    obtain ⟨front, rfl⟩ := isSuffixOf_iff_suffix.mp dotted
    rw [runes_append_dot, getLast?_append]
    rfl
  · intro last
    obtain ⟨rune, found, dot⟩ := (Option.any_eq_true _ _).mp last
    obtain ⟨-, first, rest, bytes, -, single⟩ := code_of_mem_runes (mem_of_getLast? found)
    obtain ⟨code, rfl⟩ := single (by rw [beq_iff_eq.mp dot]; decide)
    refine isSuffixOf_iff_suffix.mpr ?_
    rw [← flatMap_runes text, ← dropLast_append_getLast? rune found, flatMap_append]
    refine ⟨_, congrArg _ ?_⟩
    rw [flatMap_singleton, bytes, ← UInt8.ofNat_toNat (x := first), code, beq_iff_eq.mp dot]
    rfl

theorem runes_trimHost (text : Bytes) : runes (trimHost text) = trimEnds (runes text) := by
  rw [trimHost, trimEnds, trimSuffix, hasSuffix_dot, runes_trimSpace]
  split
  next dotted =>
    rw [← runes_trimSpace, ← hasSuffix_dot] at dotted
    obtain ⟨front, whole⟩ := isSuffixOf_iff_suffix.mp dotted
    rw [← runes_trimSpace, ← whole, runes_append_dot, length_append, Nat.add_sub_cancel, take_left]
    exact (dropLast_concat ..).symm
  · rw [runes_trimSpace]

theorem isInfix_trimEnds (visited : List (Nat × Bytes)) : trimEnds visited <:+: visited := by
  have spaces : trimRunes visited <:+: visited := by
    have inner : (trimRunes visited).reverse <:+:
        (visited.dropWhile fun rune => isSpace rune.1).reverse := by
      rw [trimRunes, reverse_reverse]
      exact (dropWhile_suffix _).isInfix
    exact (List.reverse_infix.mp inner).trans (dropWhile_suffix _).isInfix
  unfold trimEnds
  split
  · exact (List.dropLast_prefix _).isInfix.trans spaces
  · exact spaces

/-! ### Cuts -/

/-- The byte after the cut, if there is one, starts a rune. -/
def CutsBetween (text : Bytes) (bound : Nat) : Prop := ∀ byte ∈ text[bound]?, runeStart byte = true

instance (text : Bytes) (bound : Nat) : Decidable (CutsBetween text bound) :=
  inferInstanceAs (Decidable (∀ byte ∈ text[bound]?, runeStart byte = true))

theorem validString_append_iff (valid : validString before = true) :
    validString (before ++ after) = true ↔ validString after = true := by
  have split := runes_flatMap_append (validString_iff.mp valid) after
  rw [flatMap_runes] at split
  rw [validString_iff, validString_iff, split]
  simp only [mem_append, or_imp, forall_and]
  exact and_iff_right (validString_iff.mp valid)

theorem validString_append_start (start : ∀ byte ∈ after.head?, runeStart byte = true) :
    validString (before ++ after) = (validString before && validString after) := by
  rw [validString, runes_append_start start, all_append]
  rfl

theorem validString_trimSpace_eq : validString (trimSpace text) = validString text := by
  -- a space is a whole rune, so leaving it out does not matter
  have drop (visited : List (Nat × Bytes)) :
      ((visited.dropWhile fun rune => isSpace rune.1).all fun rune =>
          rune.1 != runeError || rune.2.length != 1) =
        visited.all fun rune => rune.1 != runeError || rune.2.length != 1 := by
    induction visited with
    | nil => rfl
    | cons rune visited ih =>
      rw [dropWhile_cons]
      split
      next space =>
        have noError : rune.1 ≠ runeError := by
          intro same
          rw [same] at space
          exact absurd space (by decide)
        rw [ih, all_cons, bne_iff_ne.mpr noError, Bool.true_or, Bool.true_and]
      · rfl
  rw [validString, runes_trimSpace, trimRunes, validString]
  simp only [all_reverse, drop]

/-- The first bytes of a rune without the last ones. -/
def Incomplete (bytes : Bytes) : Prop :=
  ∃ rune rest, IsRune rune ∧ rest ≠ [] ∧ rune.2 = bytes ++ rest

theorem incomplete_nil : Incomplete [] :=
  have letter : IsRune (0x61, encodeRune 0x61) := isRune_encodeRune (.inl (by decide))
  ⟨_, _, letter, cons_ne_nil _ _, rfl⟩

/-- An incomplete rune begins as a longer one and is read as an error. -/
theorem Incomplete.cons {tail : Bytes} (incomplete : Incomplete (first :: tail)) :
    decodeRune (first :: tail) = (runeError, 1) ∧ runeStart first = true ∧ 0x80 ≤ first ∧
      ∀ byte ∈ tail, runeStart byte = false := by
  obtain ⟨⟨value, _⟩, rest, is, more, rfl⟩ := incomplete
  obtain ⟨start, -, inner⟩ := is.continues
  have size := congrArg Prod.snd (is.2.2 [])
  have long := length_pos_of_ne_nil more
  rw [append_nil, length_append, length_cons] at size
  refine ⟨?_, start, ?_, fun byte member => inner byte (mem_append_left _ member)⟩
  · by_contra complete
    have read := (isRune_decodeRune (cons_ne_nil first tail) fun error =>
      complete (Prod.ext error.1 error.2)).2.2 ((first :: tail).drop (decodeRune (first :: tail)).2
        ++ rest)
    have within := decodeRune_size_le (first :: tail)
    rw [← append_assoc, take_append_drop, Prod.ext_iff, size, length_take] at read
    rw [length_cons] at within
    omega
  · by_contra ascii
    rw [cons_append, decodeRune_ascii (UInt8.not_le.mp ascii)] at size
    dsimp only at size
    omega

theorem Incomplete.runes_eq {bytes : Bytes} (incomplete : Incomplete bytes) :
    runes bytes = bytes.map fun byte => (runeError, [byte]) := by
  have behind (text : Bytes) (each : ∀ byte ∈ text, runeStart byte = false) :
      runes text = text.map fun byte => (runeError, [byte]) := by
    induction text with
    | nil => rfl
    | cons byte text ih =>
      rw [runes_eq_cons (cons_ne_nil _ _), decodeRune_continuation (each byte mem_cons_self)]
      exact congrArg _ (ih fun other member => each other (.tail _ member))
  cases bytes with
  | nil => rfl
  | cons first tail =>
    obtain ⟨error, -, -, tails⟩ := incomplete.cons
    rw [runes_eq_cons (cons_ne_nil _ _), error]
    exact congrArg _ (behind tail tails)

theorem Incomplete.valid_iff {bytes : Bytes} (incomplete : Incomplete bytes) :
    validString bytes = true ↔ bytes = [] := by
  rw [validString, incomplete.runes_eq]
  cases bytes <;> simp

theorem Incomplete.start {bytes : Bytes} (incomplete : Incomplete bytes) :
    ∀ byte ∈ bytes.head?, runeStart byte = true := by
  cases bytes with
  | nil => nofun
  | cons => exact fun _ same => Option.some.inj same ▸ incomplete.cons.2.1

theorem Incomplete.beyond {bytes : Bytes} (incomplete : Incomplete bytes) :
    ∀ byte ∈ bytes, 0x80 ≤ byte := by
  cases bytes with
  | nil => nofun
  | cons =>
    obtain ⟨-, -, start, tails⟩ := incomplete.cons
    refine forall_mem_cons.mpr ⟨start, fun byte member => ?_⟩
    have behind := tails byte member
    rw [runeStart_eq, Bool.not_eq_false'] at behind
    exact (inRange_iff.mp behind).1

theorem Incomplete.take {bytes : Bytes} (incomplete : Incomplete bytes) (count : Nat) :
    Incomplete (bytes.take count) := by
  obtain ⟨rune, rest, is, more, split⟩ := incomplete
  exact ⟨rune, bytes.drop count ++ rest, is, append_ne_nil_of_right_ne_nil _ more,
    by rw [← append_assoc, take_append_drop, split]⟩

theorem validString_take_iff (valid : validString text = true) (bound : Nat) :
    validString (text.take bound) = true ↔ CutsBetween text bound := by
  have whole : validString (text.take bound ++ text.drop bound) = true := by
    rwa [take_append_drop]
  constructor
  · intro front byte found
    by_contra behind
    have back := (validString_append_iff front).mp whole
    obtain ⟨inside, same⟩ := List.getElem?_eq_some_iff.mp found
    rw [← cons_getElem_drop_succ (h := inside), same, validString, runes_eq_cons (cons_ne_nil _ _),
      decodeRune_continuation (Bool.not_eq_true _ ▸ behind)] at back
    cases back
  · intro start
    rw [validString_append_start fun byte first => start byte (head?_drop ▸ first)] at whole
    exact (Bool.and_eq_true_iff.mp whole).1

/-- The runes that lie within the first bytes of a text. -/
def wholeRunes : Nat → List (Nat × Bytes) → List (Nat × Bytes)
  | _, [] => []
  | bound, rune :: rest =>
    if rune.2.length ≤ bound then rune :: wholeRunes (bound - rune.2.length) rest else []

theorem prefix_wholeRunes (bound : Nat) (visited : List (Nat × Bytes)) :
    wholeRunes bound visited <+: visited := by
  induction visited generalizing bound with
  | nil => exact prefix_rfl
  | cons rune visited ih =>
    rw [wholeRunes]
    split
    · exact (prefix_cons_inj _).mpr (ih _)
    · exact nil_prefix

/-- What a cut leaves: whole runes, and of the rune that it splits the first bytes. -/
theorem take_flatMap (each : ∀ rune ∈ visited, IsRune rune) (bound : Nat) :
    ∃ bytes, Incomplete bytes ∧
      (visited.flatMap (·.2)).take bound = (wholeRunes bound visited).flatMap (·.2) ++ bytes := by
  induction visited generalizing bound with
  | nil => exact ⟨[], incomplete_nil, take_nil⟩
  | cons rune visited ih =>
    rw [wholeRunes, flatMap_cons]
    split
    next within =>
      obtain ⟨bytes, incomplete, cut⟩ :=
        ih (fun other member => each other (.tail _ member)) (bound - rune.2.length)
      refine ⟨bytes, incomplete, ?_⟩
      rw [take_append, take_of_length_le within, cut, flatMap_cons, append_assoc]
    next beyond =>
      have more : rune.2.drop bound ≠ [] := ne_nil_of_length_pos (by rw [length_drop]; omega)
      refine ⟨rune.2.take bound, ⟨rune, _, each rune mem_cons_self, more,
        (take_append_drop ..).symm⟩, ?_⟩
      rw [take_append_of_le_length (by omega)]
      rfl

/-! ### Lower case -/

/-- What is assumed of `unicode.ToLower`. -/
structure LowersRunes (lowerRune : Nat → Nat) : Prop where
  ascii : ∀ byte : UInt8, byte < 0x80 → lowerRune byte.toNat = (lowerByte byte).toNat
  valid : ∀ rune, ValidRune rune → ValidRune (lowerRune rune)
  twice : ∀ rune, lowerRune (lowerRune rune) = lowerRune rune
  space : ∀ rune, isSpace (lowerRune rune) = isSpace rune
  dot : ∀ rune, lowerRune rune = 0x2E ↔ rune = 0x2E

namespace LowersRunes

variable {lowerRune : Nat → Nat} (laws : LowersRunes lowerRune)
include laws

theorem runes_toLower (text : Bytes) :
    runes (toLower lowerRune text) =
      (runes text).map fun rune => (lowerRune rune.1, encodeRune (lowerRune rune.1)) := by
  have written : toLower lowerRune text = ((runes text).map fun rune =>
      (lowerRune rune.1, encodeRune (lowerRune rune.1))).flatMap (·.2) := by
    rw [toLower, flatMap_map]
    split
    next ascii =>
      have each : ∀ byte ∈ text, byte < 0x80 := fun byte member =>
        of_decide_eq_true (all_eq_true.mp ascii byte member)
      rw [runes_of_ascii each, flatMap_map, map_eq_flatMap]
      refine flatMap_congr fun byte member => ?_
      have small := each byte member
      rw [laws.ascii byte small, encodeRune_ascii (lowerByte_ascii.mpr small)]
    · rfl
  rw [written]
  refine runes_flatMap fun rune member => ?_
  obtain ⟨before, inside, rfl⟩ := mem_map.mp member
  exact isRune_encodeRune (laws.valid _ (code_of_mem_runes inside).1)

theorem toLower_twice (text : Bytes) :
    toLower lowerRune (toLower lowerRune text) = toLower lowerRune text := by
  refine runes_injective ?_
  simp only [laws.runes_toLower, map_map, Function.comp_def, laws.twice]

theorem trimHost_toLower (text : Bytes) :
    trimHost (toLower lowerRune text) = toLower lowerRune (trimHost text) := by
  refine runes_injective ?_
  rw [runes_trimHost, laws.runes_toLower, laws.runes_toLower, runes_trimHost]
  have spaces : ∀ visited : List (Nat × Bytes),
      trimRunes (visited.map fun rune => (lowerRune rune.1, encodeRune (lowerRune rune.1))) =
        (trimRunes visited).map fun rune => (lowerRune rune.1, encodeRune (lowerRune rune.1)) := by
    intro visited
    simp only [trimRunes, dropWhile_map, ← map_reverse, Function.comp_def, laws.space]
  rw [trimEnds, trimEnds, spaces, getLast?_map, Option.any_map, ← map_dropLast]
  have dots : ∀ rune : Nat × Bytes, (lowerRune rune.1 == 0x2E) = (rune.1 == 0x2E) := fun rune =>
    Bool.eq_iff_iff.mpr (by rw [beq_iff_eq, beq_iff_eq]; exact laws.dot _)
  simp only [dots]
  split <;> rfl

theorem trimHost_of_toLower
    (same : toLower lowerRune (trimHost text) = toLower lowerRune text) : trimHost text = text := by
  refine runes_injective ?_
  have lengths := congrArg (fun text => (runes text).length) same
  simp only [laws.runes_toLower, length_map, runes_trimHost] at lengths
  rw [runes_trimHost]
  exact (isInfix_trimEnds _).eq_of_length lengths

end LowersRunes

def lowerASCII (rune : Nat) : Nat := if 0x41 ≤ rune ∧ rune ≤ 0x5A then rune + 0x20 else rune

theorem lowersRunes_lowerASCII : LowersRunes lowerASCII where
  ascii byte _ := by
    unfold lowerASCII lowerByte
    grind [inRange, UInt8.toNat_add, UInt8.le_iff_toNat_le]
  valid rune valid := by
    unfold lowerASCII ValidRune at *
    split <;> omega
  twice rune := by
    unfold lowerASCII
    split_ifs <;> omega
  space rune := by
    have letter : ∀ code < 0x7B, 0x41 ≤ code → isSpace code = false := by decide
    unfold lowerASCII
    split
    · rw [letter _ (by omega) (by omega), letter _ (by omega) (by omega)]
    · rfl
  dot rune := by
    unfold lowerASCII
    split <;> omega

/-- Only a text without letters is written as itself in lower case. -/
theorem eq_of_toLower {lowered : Bytes} (same : toLower lowerASCII text = lowered)
    (below : ∀ byte ∈ lowered, byte < 0x61) : text = lowered := by
  have ascii (byte : UInt8) (member : byte ∈ lowered) : byte < 0x80 :=
    UInt8.lt_trans (below byte member) (by decide)
  have visited := lowersRunes_lowerASCII.runes_toLower text
  rw [same, runes_of_ascii ascii] at visited
  rw [← flatMap_runes text, ← flatMap_runes lowered, runes_of_ascii ascii, visited, flatMap_map]
  refine flatMap_congr fun rune member => ?_
  have written := mem_map_of_mem
    (f := fun rune => (lowerASCII rune.1, encodeRune (lowerASCII rune.1))) member
  rw [← visited] at written
  obtain ⟨byte, inside, code⟩ := mem_map.mp written
  obtain ⟨codes, bytes⟩ := Prod.mk.inj code
  have small := UInt8.lt_iff_toNat_lt.mp (below byte inside)
  have kept : rune.1 = byte.toNat := by
    unfold lowerASCII at codes
    split at codes <;> simp at small <;> omega
  obtain ⟨-, first, rest, written, -, single⟩ := code_of_mem_runes member
  obtain ⟨code, rfl⟩ := single (by simp at small; omega)
  rw [written, ← bytes, UInt8.toNat_inj.mp (code.trans kept)]

end Ircthing
