/-
This file models the Go strings the program is written over. A Go string is a sequence of bytes: a
line of an IRC server can carry invalid UTF-8 anywhere, so every text of the model is a `Bytes`.
-/

import Mathlib.Data.List.Basic
import Mathlib.Data.List.Infix
import Mathlib.Data.List.Sort
import Mathlib.Data.List.TakeDrop

namespace Ircthing

open List

variable {separator byte : UInt8}

/-! ### Byte strings -/

abbrev Bytes := List UInt8

variable {parts : List Bytes} {text replacement part : Bytes}

def lit (text : String) : Bytes := text.toUTF8.data.toList

def hasPrefix (text start : Bytes) : Bool := start.isPrefixOf text

def hasSuffix (text ending : Bytes) : Bool := ending.isSuffixOf text

def trimSuffix (text ending : Bytes) : Bytes :=
  if hasSuffix text ending then text.take (text.length - ending.length) else text

def trimPrefix (text start : Bytes) : Bytes :=
  if hasPrefix text start then text.drop start.length else text

/-- `strings.CutPrefix`: the rest of the text when it starts with `start`. -/
def cutPrefix (text start : Bytes) : Option Bytes :=
  if hasPrefix text start then some (text.drop start.length) else none

/-- `strings.Cut` around a single byte: the part before its first occurrence, the part
after it, and whether it occurs at all. -/
def cut (text : Bytes) (separator : UInt8) : Bytes × Bytes × Bool :=
  match text.dropWhile (· != separator) with
  | [] => (text, [], false)
  | _ :: rest => (text.takeWhile (· != separator), rest, true)

/-- `strings.Split` around a single byte. Never empty: the split of `""` is `[""]`. -/
def splitByte (separator : UInt8) : Bytes → List Bytes
  | [] => [[]]
  | byte :: rest =>
    if byte = separator then [] :: splitByte separator rest
    else
      match splitByte separator rest with
      | [] => [[byte]]
      | part :: parts => (byte :: part) :: parts

def join (separator : Bytes) : List Bytes → Bytes
  | [] => []
  | [part] => part
  | part :: parts => part ++ separator ++ join separator parts

theorem mem_join {separator : Bytes} (member : byte ∈ join separator parts) :
    byte ∈ separator ∨ ∃ part ∈ parts, byte ∈ part := by
  fun_induction join separator parts with
  | case1 => cases member
  | case2 part => exact .inr ⟨part, mem_singleton_self part, member⟩
  | case3 part _ _ ih =>
    rw [mem_append, mem_append] at member
    rcases member with (inside | between) | later
    · exact .inr ⟨part, mem_cons_self, inside⟩
    · exact .inl between
    · refine (ih later).imp_right ?_
      rintro ⟨other, listed, inside⟩
      exact ⟨other, .tail _ listed, inside⟩

theorem splitByte_ne_nil (separator : UInt8) (text : Bytes) : splitByte separator text ≠ [] := by
  cases text with
  | nil => exact cons_ne_nil _ _
  | cons =>
    rw [splitByte]
    split
    · exact cons_ne_nil _ _
    · split <;> exact cons_ne_nil _ _

theorem splitByte_cons (other : byte ≠ separator) {rest : Bytes}
    (split : splitByte separator rest = part :: parts) :
    splitByte separator (byte :: rest) = (byte :: part) :: parts := by
  rw [splitByte, if_neg other, split]

theorem splitByte_append (free : separator ∉ part) (rest : Bytes) :
    splitByte separator (part ++ separator :: rest) = part :: splitByte separator rest := by
  induction part with
  | nil => rw [nil_append, splitByte, if_pos rfl]
  | cons _ _ ih =>
    rw [mem_cons, not_or] at free
    exact splitByte_cons (Ne.symm free.1) (ih free.2)

theorem splitByte_of_notMem (free : separator ∉ text) : splitByte separator text = [text] := by
  induction text with
  | nil => rfl
  | cons _ _ ih =>
    rw [mem_cons, not_or] at free
    exact splitByte_cons (Ne.symm free.1) (ih free.2)

theorem join_splitByte (separator : UInt8) (text : Bytes) :
    join [separator] (splitByte separator text) = text := by
  induction text with
  | nil => rfl
  | cons byte rest ih =>
    obtain ⟨_, parts, split⟩ := exists_cons_of_ne_nil (splitByte_ne_nil separator rest)
    rw [split] at ih
    by_cases same : byte = separator
    · rw [splitByte, if_pos same, split, join, ih, same]
      · rfl
      · exact cons_ne_nil _ _
    · rw [splitByte_cons same split, ← ih]
      cases parts <;> rfl

theorem splitByte_join (some : parts ≠ []) (free : ∀ part ∈ parts, separator ∉ part) :
    splitByte separator (join [separator] parts) = parts := by
  fun_induction join [separator] parts with
  | case1 => exact absurd rfl some
  | case2 part => exact splitByte_of_notMem (free part mem_cons_self)
  | case3 part _ more ih =>
    have first := free part mem_cons_self
    rw [append_assoc, singleton_append, splitByte_append first, ih]
    · exact fun none => more none
    · exact fun other member => free other (.tail _ member)

/-- `strings.Index`: where the first occurrence starts, or `none`. -/
def indexOf (part : Bytes) : Bytes → Option Nat
  | [] => if part = [] then some 0 else none
  | byte :: rest =>
    if hasPrefix (byte :: rest) part then some 0 else (indexOf part rest).map (· + 1)

/-- `strings.Contains`. -/
def containsText (text part : Bytes) : Bool := (indexOf part text).isSome

def containsAny (text characters : Bytes) : Bool := text.any fun byte => characters.contains byte

theorem hasPrefix_byte (byte : UInt8) (text : Bytes) :
    hasPrefix text [byte] = true ↔ text.head? = some byte := by
  cases text with
  | nil => simp [hasPrefix]
  | cons first =>
    rw [hasPrefix, head?_cons, Option.some_inj, eq_comm (a := first)]
    simp

theorem containsText_byte (byte : UInt8) (text : Bytes) :
    containsText text [byte] = true ↔ byte ∈ text := by
  rw [containsText]
  induction text with
  | nil => simp [indexOf]
  | cons first _ ih =>
    rw [indexOf, mem_cons, ← ih]
    split
    · next start =>
      have same : first = byte := by simpa using (hasPrefix_byte byte _).mp start
      simp [same]
    · next start =>
      have other : byte ≠ first := by
        rintro rfl
        exact start ((hasPrefix_byte byte _).mpr rfl)
      simp [other]

/-- The loop of `strings.ReplaceAll` with nothing: the bytes of an occurrence still to be passed,
then the text left. -/
def removeLoop (part : Bytes) : Nat → Bytes → Bytes
  | _, [] => []
  | passing + 1, _ :: rest => removeLoop part passing rest
  | 0, byte :: rest =>
    if hasPrefix (byte :: rest) part then removeLoop part (part.length - 1) rest
    else byte :: removeLoop part 0 rest

/-- `strings.ReplaceAll` of a non-empty part with nothing. -/
def removeAll (text part : Bytes) : Bytes := removeLoop part 0 text

theorem length_removeLoop_le (part : Bytes) (passing : Nat) (text : Bytes) :
    (removeLoop part passing text).length ≤ text.length := by
  induction text generalizing passing with
  | nil => cases passing <;> exact Nat.le_refl 0
  | cons _ _ ih =>
    cases passing with
    | succ passing => exact Nat.le_succ_of_le (ih passing)
    | zero =>
      rw [removeLoop]
      split
      · exact Nat.le_succ_of_le (ih _)
      · exact Nat.succ_le_succ (ih 0)

/-- `sort.Strings`: Go compares strings byte by byte. -/
def sortStrings (texts : List Bytes) : List Bytes :=
  texts.insertionSort fun first second => first ≤ second

/-! ### Binary search -/

/-- The loop of `sort.Search`: halve the interval until it is empty. -/
def searchLoop (found : Nat → Bool) : Nat → Nat → Nat → Nat
  | 0, low, _ => low
  | fuel + 1, low, high =>
    if low < high then
      let middle := (low + high) / 2
      if found middle then searchLoop found fuel low middle
      else searchLoop found fuel (middle + 1) high
    else low

/-- `sort.Search` over the indices below `count`. -/
def sortSearch (count : Nat) (found : Nat → Bool) : Nat := searchLoop found count 0 count

/-- `sort.Search` over the elements of a slice. -/
def searchSlice {Value : Type} (values : List Value) (found : Value → Bool) : Nat :=
  sortSearch values.length fun index => values[index]?.any found

theorem searchLoop_eq {found : Nat → Bool} {limit : Nat} :
    ∀ {fuel low high : Nat}, high - low ≤ fuel → low ≤ limit → limit ≤ high →
      (∀ index, low ≤ index → index < high → (found index = true ↔ limit ≤ index)) →
      searchLoop found fuel low high = limit
  | 0, low, high, enough, above, below, _ => by
    rw [searchLoop]
    omega
  | fuel + 1, low, high, enough, above, below, threshold => by
    rw [searchLoop]
    by_cases open_ : low < high
    · rw [if_pos open_]
      by_cases right : found ((low + high) / 2) = true
      · have reached := (threshold _ (by omega) (by omega)).mp right
        rw [if_pos right]
        exact searchLoop_eq (by omega) above reached
          fun index atLeast under => threshold index atLeast (by omega)
      · have missed := mt (threshold _ (by omega) (by omega)).mpr right
        rw [if_neg right]
        exact searchLoop_eq (by omega) (by omega) below
          fun index atLeast under => threshold index (by omega) under
    · rw [if_neg open_]
      omega

theorem searchSlice_eq_findIdx {Value : Type} {values : List Value} {found : Value → Bool}
    (monotone : values.Pairwise fun first second => found first = true → found second = true) :
    searchSlice values found = values.findIdx found := by
  refine searchLoop_eq (by omega) (Nat.zero_le _) findIdx_le_length ?_
  intro index _ inside
  rw [getElem?_eq_getElem inside, Option.any_some]
  constructor
  · intro holds
    by_contra before
    exact absurd holds (by simpa using not_of_lt_findIdx (by omega))
  · intro after
    have bound : values.findIdx found < values.length := lt_of_le_of_lt after inside
    have first := findIdx_getElem (w := bound)
    rcases Nat.eq_or_lt_of_le after with same | later
    · simpa only [same] using first
    · exact pairwise_iff_getElem.mp monotone _ _ bound inside later first

/-! ### UTF-8 -/

def runeError : Nat := 0xFFFD

def inRange (low high byte : UInt8) : Bool := low ≤ byte && byte ≤ high

/-- The range of the second byte after the given first byte, and the length of the sequence; `none`
when no sequence starts so. -/
def leadInfo (first : UInt8) : Option (Nat × UInt8 × UInt8) :=
  if first < 0x80 then some (1, 0, 0)
  else if inRange 0xC2 0xDF first then some (2, 0x80, 0xBF)
  else if first = 0xE0 then some (3, 0xA0, 0xBF)
  else if first = 0xED then some (3, 0x80, 0x9F)
  else if inRange 0xE1 0xEF first then some (3, 0x80, 0xBF)
  else if first = 0xF0 then some (4, 0x90, 0xBF)
  else if inRange 0xF1 0xF3 first then some (4, 0x80, 0xBF)
  else if first = 0xF4 then some (4, 0x80, 0x8F)
  else none

/-- `utf8.DecodeRuneInString`: the first rune and the number of bytes it takes. -/
def decodeRune : Bytes → Nat × Nat
  | [] => (runeError, 0)
  | first :: rest =>
    match leadInfo first with
    | some (1, _, _) => (first.toNat, 1)
    | some (2, low, high) =>
      match rest with
      | second :: _ =>
        if inRange low high second then
          (first.toNat % 32 * 64 + second.toNat % 64, 2)
        else (runeError, 1)
      | [] => (runeError, 1)
    | some (3, low, high) =>
      match rest with
      | second :: third :: _ =>
        if inRange low high second && inRange 0x80 0xBF third then
          (first.toNat % 16 * 4096 + second.toNat % 64 * 64 + third.toNat % 64, 3)
        else (runeError, 1)
      | _ => (runeError, 1)
    | some (4, low, high) =>
      match rest with
      | second :: third :: fourth :: _ =>
        if inRange low high second && inRange 0x80 0xBF third && inRange 0x80 0xBF fourth then
          (first.toNat % 8 * 262144 + second.toNat % 64 * 4096 + third.toNat % 64 * 64 +
            fourth.toNat % 64, 4)
        else (runeError, 1)
      | _ => (runeError, 1)
    | _ => (runeError, 1)

def continuation (bits : Nat) : UInt8 := 0x80 + (bits % 64).toUInt8

/-- `utf8.AppendRune` to the empty text, the bytes of `string(rune)`. A number that is no
rune is written as `runeError`. -/
def encodeRune (rune : Nat) : Bytes :=
  if rune < 0x80 then [rune.toUInt8]
  else if rune < 0x800 then [0xC0 + (rune / 64).toUInt8, continuation rune]
  else if 0x10FFFF < rune ∨ (0xD800 ≤ rune ∧ rune ≤ 0xDFFF) then [0xEF, 0xBF, 0xBD]
  else if rune < 0x10000 then
    [0xE0 + (rune / 4096).toUInt8, continuation (rune / 64), continuation rune]
  else
    [0xF0 + (rune / 262144).toUInt8, continuation (rune / 4096), continuation (rune / 64),
      continuation rune]

def runeStart (byte : UInt8) : Bool := byte &&& 0xC0 != 0x80

/-- The bytes `utf8.DecodeLastRuneInString` decodes: those from the last rune start among the final
four on. The text and the part already passed are reversed. -/
def lastRuneBytes : Nat → Bytes → Bytes → Bytes
  | 0, passed, _ => passed
  | _, passed, [] => passed
  | fuel + 1, passed, byte :: earlier =>
    if runeStart byte then byte :: passed else lastRuneBytes fuel (byte :: passed) earlier

/-- `utf8.DecodeLastRuneInString`, on the reversed text. -/
def decodeLastRune : Bytes → Nat × Nat
  | [] => (runeError, 0)
  | last :: earlier =>
    if last < 0x80 then (last.toNat, 1)
    else
      let tail := lastRuneBytes 3 [last] earlier
      let (rune, size) := decodeRune tail
      if size = tail.length then (rune, size) else (runeError, 1)

/-- The loop of `clampUTF8`: drop final bytes until the last rune is complete. Both the
argument and the result are reversed. -/
def trimPartialRune : Bytes → Bytes
  | [] => []
  | last :: earlier =>
    if decodeLastRune (last :: earlier) = (runeError, 1) then trimPartialRune earlier
    else last :: earlier

/-- `clampUTF8`: at most `bound` bytes, without a trailing partial rune. -/
def clampUTF8 (text : Bytes) (bound : Nat) : Bytes :=
  if text.length ≤ bound then text
  else (trimPartialRune (text.take bound).reverse).reverse

theorem clampUTF8_of_le {bound : Nat} (fits : text.length ≤ bound) :
    clampUTF8 text bound = text := by
  rw [clampUTF8, if_pos fits]

theorem length_trimPartialRune_le : (trimPartialRune text).length ≤ text.length := by
  induction text with
  | nil => exact le_rfl
  | cons _ _ ih =>
    rw [trimPartialRune]
    split
    · exact ih.trans (Nat.le_succ _)
    · exact le_rfl

theorem length_clampUTF8_le (text : Bytes) (bound : Nat) :
    (clampUTF8 text bound).length ≤ bound := by
  unfold clampUTF8
  split
  · assumption
  · rw [length_reverse]
    refine length_trimPartialRune_le.trans ?_
    rw [length_reverse]
    exact length_take_le bound text

def isSpace (rune : Nat) : Bool :=
  rune ∈ [0x09, 0x0A, 0x0B, 0x0C, 0x0D, 0x20, 0x85, 0xA0, 0x1680, 0x2028, 0x2029, 0x202F,
    0x205F, 0x3000] || (0x2000 ≤ rune && rune ≤ 0x200A)

def runesFuel : Nat → Bytes → List (Nat × Bytes)
  | 0, _ => []
  | _, [] => []
  | fuel + 1, text@(_ :: _) =>
    let (rune, size) := decodeRune text
    (rune, text.take size) :: runesFuel fuel (text.drop size)

/-- The runes a `for range` loop over the text visits. -/
def runes (text : Bytes) : List (Nat × Bytes) := runesFuel text.length text

theorem decodeRune_size_pos (first : UInt8) (rest : Bytes) :
    0 < (decodeRune (first :: rest)).2 := by
  rw [decodeRune]
  split
  · exact Nat.one_pos
  · split
    · split <;> exact Nat.succ_pos _
    · exact Nat.one_pos
  · split
    · split <;> exact Nat.succ_pos _
    · exact Nat.one_pos
  · split
    · split <;> exact Nat.succ_pos _
    · exact Nat.one_pos
  · exact Nat.one_pos

theorem flatMap_runesFuel {fuel : Nat} (enough : text.length ≤ fuel) :
    (runesFuel fuel text).flatMap (·.2) = text := by
  induction fuel generalizing text with
  | zero => rw [eq_nil_of_length_eq_zero (Nat.le_zero.mp enough)]; rfl
  | succ fuel ih =>
    cases text with
    | nil => rfl
    | cons first rest =>
      have positive := decodeRune_size_pos first rest
      rw [runesFuel, flatMap_cons, ih, take_append_drop]
      rw [length_drop]
      exact Nat.sub_le_iff_le_add.mpr (enough.trans (Nat.add_le_add_left positive fuel))

theorem flatMap_runes (text : Bytes) : (runes text).flatMap (·.2) = text :=
  flatMap_runesFuel le_rfl

variable {rune : Nat × Bytes}

theorem runesFuel_ne_nil {fuel : Nat} (member : rune ∈ runesFuel fuel text) : rune.2 ≠ [] := by
  induction fuel generalizing text with
  | zero => cases member
  | succ _ ih =>
    cases text with
    | nil => cases member
    | cons first rest =>
      rw [runesFuel] at member
      rcases mem_cons.mp member with rfl | later
      · refine ne_nil_of_length_pos ?_
        rw [length_take]
        exact lt_min (decodeRune_size_pos first rest) (Nat.succ_pos _)
      · exact ih later

theorem runes_ne_nil (member : rune ∈ runes text) : rune.2 ≠ [] := runesFuel_ne_nil member

def validString (text : Bytes) : Bool :=
  (runes text).all fun (rune, bytes) => rune != runeError || bytes.length != 1

/-- The loop of `strings.ToValidUTF8`: whether the byte before was no part of a rune, then the
runes left. A run of such bytes is replaced once. -/
def toValidLoop (replacement : Bytes) (invalid : Bool) : List (Nat × Bytes) → Bytes
  | [] => []
  | (rune, bytes) :: rest =>
    if rune = runeError ∧ bytes.length = 1 then
      (if invalid then [] else replacement) ++ toValidLoop replacement true rest
    else bytes ++ toValidLoop replacement false rest

def toValidUTF8 (text replacement : Bytes) : Bytes := toValidLoop replacement false (runes text)

theorem mem_toValidLoop {invalid : Bool} {runes : List (Nat × Bytes)}
    (member : byte ∈ toValidLoop replacement invalid runes) :
    byte ∈ runes.flatMap (·.2) ∨ byte ∈ replacement := by
  induction runes generalizing invalid with
  | nil => cases member
  | cons _ _ ih =>
    rw [flatMap_cons, mem_append]
    rw [toValidLoop] at member
    split at member
    · rcases mem_append.mp member with replaced | later
      · cases invalid with
        | false => exact .inr replaced
        | true => cases replaced
      · exact (ih later).imp_left .inr
    · rcases mem_append.mp member with kept | later
      · exact .inl (.inl kept)
      · exact (ih later).imp_left .inr

theorem mem_toValidUTF8 (member : byte ∈ toValidUTF8 text replacement) :
    byte ∈ text ∨ byte ∈ replacement := by
  have located := mem_toValidLoop member
  rwa [flatMap_runes] at located

theorem head?_toValidUTF8 (filled : text ≠ []) (replaced : replacement ≠ []) :
    (toValidUTF8 text replacement).head? = text.head? ∨
      (toValidUTF8 text replacement).head? = replacement.head? := by
  have whole := flatMap_runes text
  have each : ∀ rune ∈ runes text, rune.2 ≠ [] := fun rune member => runes_ne_nil member
  rw [toValidUTF8]
  generalize runes text = visited at whole each
  cases visited with
  | nil => exact absurd whole.symm filled
  | cons rune =>
    rw [toValidLoop]
    split
    · exact .inr (head?_append_of_ne_nil _ replaced)
    · have started := each rune mem_cons_self
      rw [← whole, flatMap_cons]
      rw [head?_append_of_ne_nil _ started, head?_append_of_ne_nil _ started]
      exact .inl rfl

def isControl (rune : Nat) : Bool := rune < 0x20 || (0x7F ≤ rune && rune < 0xA0)

/-- The loop of `strings.Fields`: the field being collected, then the runes left. -/
def fieldsLoop (field : Bytes) : List (Nat × Bytes) → List Bytes
  | [] => if field = [] then [] else [field]
  | (rune, bytes) :: rest =>
    if isSpace rune then
      if field = [] then fieldsLoop [] rest else field :: fieldsLoop [] rest
    else fieldsLoop (field ++ bytes) rest

def fields (text : Bytes) : List Bytes := fieldsLoop [] (runes text)

def isASCII (text : Bytes) : Bool := text.all (· < 0x80)

def lowerByte (byte : UInt8) : UInt8 := if inRange 0x41 0x5A byte then byte + 0x20 else byte

def trimSpace (text : Bytes) : Bytes :=
  (((runes text).dropWhile fun rune => isSpace rune.1).reverse.dropWhile fun rune =>
    isSpace rune.1).reverse.flatMap fun rune => rune.2

def toLower (lowerRune : Nat → Nat) (text : Bytes) : Bytes :=
  if isASCII text then text.map lowerByte
  else (runes text).flatMap fun (rune, _) => encodeRune (lowerRune rune)

end Ircthing
