/-
This file models the checks that keep a message of the client on one line of the protocol, and
proves that what passes them arrives as it was meant.
-/

import Ircthing.Irc.ISupport

namespace Ircthing.Irc

open Library

/-! ### The checks -/

def isFramingByte (byte : UInt8) : Bool := byte == 0x0D || byte == 0x0A || byte == 0x00

def hasFramingBytes (text : Bytes) : Bool := text.any isFramingByte

/-- `ErrUnsafeFraming`, the only error of the checks. -/
inductive FramingError
  | errUnsafeFraming
deriving DecidableEq

def misreadInside (param : Bytes) : Bool :=
  param == [] || param.head? == some 0x3A || param.contains 0x20

def checkParamFraming : List Bytes → Except FramingError Unit
  | [] => .ok ()
  | param :: rest =>
    if hasFramingBytes param then .error .errUnsafeFraming
    else if rest ≠ [] ∧ misreadInside param then .error .errUnsafeFraming
    else checkParamFraming rest

def checkFraming (message : IrcMessage) : Except FramingError Unit := do
  if hasFramingBytes message.command || message.command.contains 0x20 then
    throw .errUnsafeFraming
  checkParamFraming message.params
  if message.source.any fun source =>
      hasFramingBytes source.name || hasFramingBytes source.user || hasFramingBytes source.host then
    throw .errUnsafeFraming
  if message.tags.any fun entry => hasFramingBytes entry.1 || hasFramingBytes entry.2 then
    throw .errUnsafeFraming

def replacementText : Bytes := [0xEF, 0xBF, 0xBD]

def scrubUTF8 (isup : ISupport) (message : IrcMessage) : IrcMessage :=
  if (isup.raw.lookup (lit "UTF8ONLY")).isNone then message
  else
    { message with
      params := message.params.map fun param =>
        if validString param then param else toValidUTF8 param replacementText }

end Ircthing.Irc

namespace Ircthing.Hub

def validCommandParams : List Bytes → Bool
  | [] => true
  | param :: rest =>
    if param = [] ∨ param.any Irc.isFramingByte then false
    else if rest ≠ [] ∧ (containsText param (lit " ") ∨ hasPrefix param (lit ":")) then false
    else validCommandParams rest

end Ircthing.Hub

namespace Ircthing.Irc

variable {params : List Bytes} {message : IrcMessage} {command : Bytes}

/-! ### The two ends of the wire -/

/-- How the library writes the tags: where no name has a space, one token that starts with `@` and
ends at its first space, with nothing in it that frames a line unless a name or a value has it. -/
structure TagWriter where
  written : List (Bytes × Bytes) → Bytes
  written_nil : written [] = []
  written_token : ∀ tags, tags ≠ [] → (∀ entry ∈ tags, 0x20 ∉ entry.1) →
    ∃ token, 0x20 ∉ token ∧ written tags = 0x40 :: token ++ [0x20]
  written_clean : ∀ tags,
    (tags.any fun entry => hasFramingBytes entry.1 || hasFramingBytes entry.2) = false →
      hasFramingBytes (written tags) = false

/-- How a byte of a value is written. -/
def escapeTagByte (byte : UInt8) : Bytes :=
  if byte = 0x3B then lit "\\:"
  else if byte = 0x20 then lit "\\s"
  else if byte = 0x5C then lit "\\\\"
  else if byte = 0x0D then lit "\\r"
  else if byte = 0x0A then lit "\\n"
  else [byte]

variable (entry : Bytes × Bytes)

/-- A tag as it is written: the name as it stands, and a value that is not empty escaped. -/
def writeTag : Bytes :=
  entry.1 ++ if entry.2 = [] then [] else 0x3D :: entry.2.flatMap escapeTagByte

theorem escapeTagByte_clean {byte : UInt8} :
    0x20 ∉ escapeTagByte byte ∧
      (isFramingByte byte = false → hasFramingBytes (escapeTagByte byte) = false) := by
  rw [escapeTagByte]
  repeat' split
  all_goals try exact ⟨by decide, fun _ => by decide⟩
  next space _ _ _ =>
  refine ⟨fun same => space (List.mem_singleton.mp same).symm, fun clean => ?_⟩
  rw [hasFramingBytes, List.any_cons, clean]
  rfl

theorem escapedTag_clean {text : Bytes} :
    0x20 ∉ text.flatMap escapeTagByte ∧
      (hasFramingBytes text = false → hasFramingBytes (text.flatMap escapeTagByte) = false) := by
  constructor
  · intro member
    obtain ⟨byte, _, inside⟩ := List.mem_flatMap.mp member
    exact escapeTagByte_clean.1 inside
  · intro clean
    rw [hasFramingBytes, List.any_eq_false] at clean ⊢
    intro byte member
    obtain ⟨source, read, inside⟩ := List.mem_flatMap.mp member
    have each := escapeTagByte_clean.2 (Bool.eq_false_iff.mpr (clean source read))
    rw [hasFramingBytes, List.any_eq_false] at each
    exact each byte inside

theorem writeTag_clean :
    (0x20 ∉ entry.1 → 0x20 ∉ writeTag entry) ∧
      ((hasFramingBytes entry.1 || hasFramingBytes entry.2) = false →
        hasFramingBytes (writeTag entry) = false) := by
  rw [writeTag]
  constructor
  · intro spaceless member
    rcases List.mem_append.mp member with name | value
    · exact spaceless name
    split at value
    · cases value
    · exact escapedTag_clean.1 ((List.mem_cons.mp value).resolve_left (by decide))
  · intro clean
    rw [Bool.or_eq_false_iff] at clean
    rw [hasFramingBytes, List.any_append, Bool.or_eq_false_iff]
    refine ⟨clean.1, ?_⟩
    split
    · rfl
    · rw [List.any_cons, Bool.or_eq_false_iff]
      exact ⟨by decide, escapedTag_clean.2 clean.2⟩

/-- Tags as they stand on a line: `@name=value;name=value`. -/
def TagWriter.messageTags : TagWriter where
  written tags := if tags = [] then [] else 0x40 :: join (lit ";") (tags.map writeTag) ++ [0x20]
  written_nil := rfl
  written_token tags some spaceless := by
    refine ⟨_, fun space => ?_, if_neg some⟩
    rcases mem_join space with between | ⟨part, listed, inside⟩
    · exact absurd between (by decide)
    · obtain ⟨entry, member, rfl⟩ := List.mem_map.mp listed
      exact (writeTag_clean entry).1 (spaceless entry member) inside
  written_clean tags clean := by
    split
    · rfl
    · rw [List.any_eq_false] at clean
      rw [hasFramingBytes, List.cons_append, List.any_cons, List.any_append, Bool.or_eq_false_iff,
        Bool.or_eq_false_iff]
      refine ⟨by decide, List.any_eq_false.mpr fun byte member => ?_, by decide⟩
      rcases mem_join member with between | ⟨part, listed, inside⟩
      · exact (by decide +kernel : ∀ byte ∈ lit ";", ¬ isFramingByte byte = true) byte between
      · obtain ⟨entry, held, rfl⟩ := List.mem_map.mp listed
        have each := (writeTag_clean entry).2 (Bool.eq_false_iff.mpr (clean entry held))
        rw [hasFramingBytes, List.any_eq_false] at each
        exact each byte inside

/-- `nick!user@host` with the parts that are there. -/
def writeSource (source : Source) : Bytes :=
  source.name ++ (if source.user = [] then [] else 0x21 :: source.user) ++
    if source.host = [] then [] else 0x40 :: source.host

/-- The parameters as they are written: a space before each, and a colon before the last when it
is empty, holds a space or starts with a colon. -/
def writeParams : List Bytes → Bytes
  | [] => []
  | [last] => if misreadInside last then 0x20 :: 0x3A :: last else 0x20 :: last
  | param :: next :: rest => 0x20 :: param ++ writeParams (next :: rest)

variable (tags : TagWriter)

def serialize (message : IrcMessage) : Bytes :=
  tags.written message.tags ++
    (message.source.elim [] fun source => 0x3A :: writeSource source ++ [0x20]) ++
    message.command ++ writeParams message.params

def afterToken (lead : UInt8) (line : Bytes) : Bytes :=
  if line.head? = some lead then (cut line 0x20).2.1 else line

/-- The words of a line that was split on spaces. A word that starts with a colon is the last
one, and runs to the end of the line. -/
def readTokens : List Bytes → List Bytes
  | [] => []
  | [] :: rest => readTokens rest
  | (byte :: token) :: rest =>
    if byte = 0x3A then [join [0x20] (token :: rest)] else (byte :: token) :: readTokens rest

def parse (line : Bytes) : Option (Bytes × List Bytes) :=
  match readTokens (splitByte 0x20 (afterToken 0x3A (afterToken 0x40 line))) with
  | [] => none
  | command :: params => some (command, params)

def IsWord (command : Bytes) : Prop :=
  command ≠ [] ∧ ∀ byte ∈ command,
    inRange 0x30 0x39 byte ∨ inRange 0x41 0x5A byte ∨ inRange 0x61 0x7A byte

instance : DecidablePred IsWord := fun _ => inferInstanceAs (Decidable (_ ∧ _))

/-! ### What the check lets through -/

theorem hasFramingBytes_append (start rest : Bytes) :
    hasFramingBytes (start ++ rest) = (hasFramingBytes start || hasFramingBytes rest) :=
  List.any_append

theorem hasFramingBytes_cons (byte : UInt8) (rest : Bytes) :
    hasFramingBytes (byte :: rest) = (isFramingByte byte || hasFramingBytes rest) :=
  List.any_cons

inductive SafeParams : List Bytes → Prop
  | nil : SafeParams []
  | last {param : Bytes} : hasFramingBytes param = false → SafeParams [param]
  | cons {param next : Bytes} {rest : List Bytes} : hasFramingBytes param = false →
      misreadInside param = false → SafeParams (next :: rest) → SafeParams (param :: next :: rest)

theorem checkParamFraming_ok_iff (params : List Bytes) :
    checkParamFraming params = .ok () ↔ SafeParams params := by
  induction params with
  | nil => exact ⟨fun _ => .nil, fun _ => rfl⟩
  | cons param rest ih =>
    rw [checkParamFraming]
    cases framed : hasFramingBytes param with
    | true =>
      refine ⟨nofun, fun safe => ?_⟩
      cases safe with
      | last clean | cons clean => rw [clean] at framed; cases framed
    | false =>
      rw [if_neg Bool.false_ne_true]
      cases rest with
      | nil => exact ⟨fun _ => .last framed, fun _ => rfl⟩
      | cons =>
        cases misread : misreadInside param with
        | true =>
          rw [if_pos ⟨List.cons_ne_nil _ _, rfl⟩]
          refine ⟨nofun, fun safe => ?_⟩
          cases safe with
          | cons _ whole => rw [whole] at misread; cases misread
        | false =>
          rw [if_neg fun both => Bool.false_ne_true both.2, ih]
          refine ⟨.cons framed misread, fun safe => ?_⟩
          cases safe with
          | cons _ _ later => exact later

theorem checkFraming_ok_iff (message : IrcMessage) :
    checkFraming message = .ok () ↔
      (hasFramingBytes message.command || message.command.contains 0x20) = false ∧
      SafeParams message.params ∧
      (message.source.any fun source => hasFramingBytes source.name ||
        hasFramingBytes source.user || hasFramingBytes source.host) = false ∧
      (message.tags.any fun entry =>
        hasFramingBytes entry.1 || hasFramingBytes entry.2) = false := by
  rw [← checkParamFraming_ok_iff, checkFraming]
  cases hasFramingBytes message.command || message.command.contains 0x20 with
  | true => exact ⟨nofun, fun all => (by cases all.1)⟩
  | false =>
    cases checkParamFraming message.params with
    | error => exact ⟨nofun, fun all => (by cases all.2.1)⟩
    | ok =>
      cases message.source.any fun source => hasFramingBytes source.name ||
          hasFramingBytes source.user || hasFramingBytes source.host with
      | true => exact ⟨nofun, fun all => (by cases all.2.2.1)⟩
      | false =>
        cases message.tags.any fun entry =>
            hasFramingBytes entry.1 || hasFramingBytes entry.2 with
        | true => exact ⟨nofun, fun all => (by cases all.2.2.2)⟩
        | false => exact ⟨fun _ => ⟨rfl, rfl, rfl, rfl⟩, fun _ => rfl⟩

/-! ### Replacing bytes that are no UTF-8 -/

theorem hasFramingBytes_toValidUTF8 {param : Bytes} (clean : hasFramingBytes param = false) :
    hasFramingBytes (toValidUTF8 param replacementText) = false := by
  rw [hasFramingBytes, List.any_eq_false] at clean ⊢
  intro byte member
  rcases mem_toValidUTF8 member with kept | replaced
  · exact clean byte kept
  · exact (by decide +kernel : ∀ byte ∈ replacementText, ¬ isFramingByte byte = true) byte replaced

theorem misreadInside_eq_false_iff (param : Bytes) :
    misreadInside param = false ↔ param ≠ [] ∧ param.head? ≠ some 0x3A ∧ 0x20 ∉ param := by
  simp [misreadInside, and_assoc]

theorem misreadInside_toValidUTF8 {param : Bytes} (whole : misreadInside param = false) :
    misreadInside (toValidUTF8 param replacementText) = false := by
  rw [misreadInside_eq_false_iff] at whole ⊢
  obtain ⟨filled, noColon, noSpace⟩ := whole
  have started : (toValidUTF8 param replacementText).head? = param.head? ∨
      (toValidUTF8 param replacementText).head? = some 0xEF :=
    head?_toValidUTF8 filled (List.cons_ne_nil _ _)
  refine ⟨fun empty => ?_, fun colon => ?_, fun space => ?_⟩
  · rw [empty, List.head?_nil] at started
    rcases started with same | replaced
    · exact filled (List.head?_eq_none_iff.mp same.symm)
    · cases replaced
  · rw [colon] at started
    rcases started with same | replaced
    · exact noColon same.symm
    · exact absurd replaced (by decide)
  · rcases mem_toValidUTF8 space with kept | replaced
    · exact noSpace kept
    · exact absurd replaced (by decide)

theorem SafeParams.map {change : Bytes → Bytes}
    (clean : ∀ param, hasFramingBytes param = false → hasFramingBytes (change param) = false)
    (whole : ∀ param, misreadInside param = false → misreadInside (change param) = false)
    (safe : SafeParams params) : SafeParams (params.map change) := by
  induction safe with
  | nil => exact .nil
  | last free => exact .last (clean _ free)
  | cons free inside _ ih =>
    exact .cons (clean _ free) (whole _ inside) ih

variable (isup : ISupport)

theorem checkFraming_scrubUTF8 (accepted : checkFraming message = .ok ()) :
    checkFraming (scrubUTF8 isup message) = .ok () := by
  rw [scrubUTF8]
  split
  · exact accepted
  · rw [checkFraming_ok_iff] at accepted ⊢
    obtain ⟨command, safe, source, tags⟩ := accepted
    refine ⟨command, safe.map (fun param clean => ?_) (fun param whole => ?_), source, tags⟩
    · split
      · exact clean
      · exact hasFramingBytes_toValidUTF8 clean
    · split
      · exact whole
      · exact misreadInside_toValidUTF8 whole

theorem scrubUTF8_command (message : IrcMessage) :
    (scrubUTF8 isup message).command = message.command := by
  rw [scrubUTF8]
  split <;> rfl

theorem scrubUTF8_tags (message : IrcMessage) : (scrubUTF8 isup message).tags = message.tags := by
  rw [scrubUTF8]
  split <;> rfl

theorem scrubUTF8_source (message : IrcMessage) :
    (scrubUTF8 isup message).source = message.source := by
  rw [scrubUTF8]
  split <;> rfl

/-! ### The line has no framing byte -/

theorem SafeParams.clean (safe : SafeParams params) :
    hasFramingBytes (writeParams params) = false := by
  induction safe with
  | nil => rfl
  | last free =>
    rw [writeParams]
    split
    · rw [hasFramingBytes_cons, hasFramingBytes_cons, free]
      rfl
    · rw [hasFramingBytes_cons, free]
      rfl
  | cons free _ _ ih =>
    rw [writeParams, hasFramingBytes_append, hasFramingBytes_cons, free, ih]
    rfl

theorem serialize_clean (bare : message.source = none) (accepted : checkFraming message = .ok ()) :
    hasFramingBytes (serialize tags message) = false := by
  obtain ⟨command, safe, _, tagged⟩ := (checkFraming_ok_iff message).mp accepted
  rw [serialize, bare, Option.elim_none, List.append_nil, hasFramingBytes_append,
    hasFramingBytes_append, tags.written_clean _ tagged, (Bool.or_eq_false_iff.mp command).1,
    safe.clean]
  rfl

/-! ### The line is read back -/

theorem readTokens_cons {token : Bytes} (whole : misreadInside token = false)
    (rest : List Bytes) : readTokens (token :: rest) = token :: readTokens rest := by
  rw [misreadInside_eq_false_iff] at whole
  cases token with
  | nil => exact absurd rfl whole.1
  | cons =>
    rw [readTokens, if_neg]
    rintro rfl
    exact whole.2.1 rfl

theorem readTokens_writeParams (safe : SafeParams params) {word : Bytes}
    (whole : misreadInside word = false) :
    readTokens (splitByte 0x20 (word ++ writeParams params)) = word :: params := by
  have noSpace := ((misreadInside_eq_false_iff word).mp whole).2.2
  induction safe generalizing word with
  | nil =>
    rw [writeParams, List.append_nil, splitByte_of_notMem noSpace, readTokens_cons whole]
    rfl
  | @last last _ =>
    rw [writeParams]
    split
    · obtain ⟨_, _, split⟩ :=
        List.exists_cons_of_ne_nil (splitByte_ne_nil 0x20 last)
      rw [splitByte_append noSpace, readTokens_cons whole,
        splitByte_cons (by decide) split, readTokens, if_pos rfl, ← split, join_splitByte]
    · next plain =>
      have inside := Bool.eq_false_iff.mpr plain
      rw [splitByte_append noSpace, readTokens_cons whole,
        splitByte_of_notMem ((misreadInside_eq_false_iff last).mp inside).2.2,
        readTokens_cons inside]
      rfl
  | cons _ inside _ ih =>
    rw [writeParams, List.cons_append, splitByte_append noSpace, readTokens_cons whole,
      ih inside ((misreadInside_eq_false_iff _).mp inside).2.2]

theorem IsWord.whole (word : IsWord command) : misreadInside command = false := by
  have letters : ∀ byte ∈ command, byte ≠ 0x20 ∧ byte ≠ 0x3A := by
    intro byte member
    have kind := word.2 byte member
    constructor
    · rintro rfl
      exact absurd kind (by decide)
    · rintro rfl
      exact absurd kind (by decide)
  rw [misreadInside_eq_false_iff]
  refine ⟨word.1, fun colon => ?_, fun space => (letters _ space).1 rfl⟩
  exact (letters _ (List.mem_of_mem_head? colon)).2 rfl

theorem IsWord.unframed (word : IsWord command) :
    (hasFramingBytes command || command.contains 0x20) = false := by
  rw [Bool.or_eq_false_iff, hasFramingBytes, List.any_eq_false]
  refine ⟨fun byte member framing => ?_, ?_⟩
  · have kind := word.2 byte member
    rw [isFramingByte, Bool.or_eq_true, Bool.or_eq_true, beq_iff_eq, beq_iff_eq,
      beq_iff_eq] at framing
    rcases framing with (rfl | rfl) | rfl
    all_goals exact absurd kind (by decide)
  · rw [Bool.eq_false_iff, ne_eq, List.contains_iff_mem]
    exact ((misreadInside_eq_false_iff command).mp word.whole).2.2

theorem IsWord.afterToken (word : IsWord command) {lead : UInt8}
    (other : ¬ (inRange 0x30 0x39 lead ∨ inRange 0x41 0x5A lead ∨ inRange 0x61 0x7A lead))
    (rest : Bytes) : Irc.afterToken lead (command ++ rest) = command ++ rest := by
  rw [Irc.afterToken, if_neg]
  intro started
  rw [List.head?_append_of_ne_nil _ word.1] at started
  exact other (word.2 lead (List.mem_of_mem_head? started))

theorem afterToken_tags {tags : TagWriter} {entries : List (Bytes × Bytes)}
    (spaceless : ∀ entry ∈ entries, 0x20 ∉ entry.1) (word : IsWord command) (rest : Bytes) :
    afterToken 0x40 (tags.written entries ++ (command ++ rest)) = command ++ rest := by
  by_cases none : entries = []
  · rw [none, tags.written_nil, List.nil_append]
    exact word.afterToken (by decide) rest
  · obtain ⟨token, noSpace, written⟩ := tags.written_token entries none spaceless
    have passed : ((0x40 :: token ++ [0x20] ++ (command ++ rest)).dropWhile (· != 0x20)) =
        0x20 :: (command ++ rest) := by
      rw [List.append_assoc, List.dropWhile_append_of_pos]
      · rfl
      · intro byte member
        rcases List.mem_cons.mp member with rfl | inside
        · decide
        · exact bne_iff_ne.mpr fun same => noSpace (same ▸ inside)
    have started : (0x40 :: token ++ [0x20] ++ (command ++ rest)).head? = some 0x40 := rfl
    rw [written, afterToken, if_pos started, cut, passed]

theorem parse_serialize (bare : message.source = none)
    (spaceless : ∀ entry ∈ message.tags, 0x20 ∉ entry.1) (word : IsWord message.command) (accepted : checkFraming message = .ok ()) :
    parse (serialize tags message) = some (message.command, message.params) := by
  obtain ⟨_, safe, _, _⟩ := (checkFraming_ok_iff message).mp accepted
  rw [parse, serialize, bare, Option.elim_none, List.append_nil, List.append_assoc,
    afterToken_tags spaceless word, word.afterToken (by decide),
    readTokens_writeParams safe word.whole]

/-! ### Parameters of a client's command -/

theorem safeParams_of_validCommandParams (valid : Hub.validCommandParams params = true) :
    SafeParams params := by
  induction params with
  | nil => exact .nil
  | cons param rest ih =>
    rw [Hub.validCommandParams] at valid
    split at valid
    · cases valid
    · next clean =>
      rw [not_or, Bool.not_eq_true] at clean
      split at valid
      · cases valid
      · next inside =>
        cases rest with
        | nil => exact .last clean.2
        | cons =>
          have plain : ¬ (containsText param (lit " ") ∨ hasPrefix param (lit ":")) :=
            fun either => inside ⟨List.cons_ne_nil _ _, either⟩
          rw [not_or] at plain
          refine .cons clean.2 ((misreadInside_eq_false_iff param).mpr ⟨clean.1, ?_, ?_⟩) (ih valid)
          · intro colon
            exact plain.2 ((hasPrefix_byte 0x3A param).mpr colon)
          · intro space
            exact plain.1 ((containsText_byte 0x20 param).mpr space)

/-! ### No injection -/

/-- The line of a message has no framing byte, and the server reads the message from it. -/
def Arrives (message : IrcMessage) : Prop :=
  hasFramingBytes (serialize tags message) = false ∧
    parse (serialize tags message) = some (message.command, message.params)

/-- A message that passes the check and has no space in the name of a tag arrives, as it is and with
its bytes replaced, and the parameters a client may send pass the check. -/
theorem no_protocol_injection (tags : TagWriter) (isup : ISupport) :
    (∀ message : IrcMessage, message.source = none → IsWord message.command →
      (∀ entry ∈ message.tags, 0x20 ∉ entry.1) → checkFraming message = .ok () →
        Arrives tags message ∧ Arrives tags (scrubUTF8 isup message) ∧
          (scrubUTF8 isup message).command = message.command) ∧
    ∀ params, Hub.validCommandParams params = true → checkParamFraming params = .ok () ∧
        ∀ command, IsWord command →
          checkFraming { command := command, params := params } = .ok () := by
  constructor
  · intro message bare word spaceless accepted
    have scrubbed := checkFraming_scrubUTF8 isup accepted
    have same := scrubUTF8_command isup message
    have still := (scrubUTF8_source isup message).trans bare
    exact ⟨⟨serialize_clean tags bare accepted, parse_serialize tags bare spaceless word accepted⟩,
      ⟨serialize_clean tags still scrubbed, parse_serialize tags still
        (scrubUTF8_tags isup message ▸ spaceless) (same ▸ word) scrubbed⟩, same⟩
  · intro params valid
    have safe := safeParams_of_validCommandParams valid
    refine ⟨(checkParamFraming_ok_iff params).mpr safe, fun command word => ?_⟩
    exact (checkFraming_ok_iff _).mpr ⟨word.unframed, safe, rfl, rfl⟩

/-- A message with a tag, and one whose last parameter starts with a colon and is no UTF-8. -/
theorem no_protocol_injection_tagged :
    parse (serialize .messageTags ⟨[(lit "+typing", lit "a b")], none, lit "TAGMSG", [lit "#c"]⟩) =
      some (lit "TAGMSG", [lit "#c"]) ∧
    parse (serialize .messageTags (scrubUTF8 { raw := AList.insert (lit "UTF8ONLY") [] ∅ }
          (newMsg "PRIVMSG" [lit "#c", 0x3A :: 0xFF :: 0xFE :: lit " x"]))) =
      some (lit "PRIVMSG", [lit "#c", 0x3A :: 0xEF :: 0xBF :: 0xBD :: lit " x"]) := by
  constructor
  · exact ((no_protocol_injection .messageTags {}).1
      ⟨[(lit "+typing", lit "a b")], none, lit "TAGMSG", [lit "#c"]⟩
      rfl (by decide +kernel) (by decide) (by decide)).1.2
  · have arrives := ((no_protocol_injection .messageTags
      { raw := AList.insert (lit "UTF8ONLY") [] ∅ }).1
      (newMsg "PRIVMSG" [lit "#c", 0x3A :: 0xFF :: 0xFE :: lit " x"])
      rfl (by decide +kernel) (by decide) (by decide)).2.1.2
    exact arrives.trans (by decide)

/-- The name of a tag is written as it stands: behind a space in it the server reads a command. -/
theorem tag_name_injects :
    checkFraming ⟨[(lit "a QUIT", [])], none, lit "TAGMSG", [lit "#c"]⟩ = .ok () ∧
      parse (serialize .messageTags ⟨[(lit "a QUIT", [])], none, lit "TAGMSG", [lit "#c"]⟩) =
        some (lit "QUIT", [lit "TAGMSG", lit "#c"]) := by decide

end Ircthing.Irc
