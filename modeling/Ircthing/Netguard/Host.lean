/-
This file models the check of a host name before it is handed unresolved to a proxy.
-/

import Ircthing.Golang.Utf8
import Ircthing.Netguard.Address
import Mathlib.Data.List.TakeWhile

namespace Ircthing.Netguard

open List

variable {host name part : Bytes} {text : Bytes} {byte : UInt8}

/-! ### The check -/

def isHexDigit (byte : UInt8) : Bool :=
  inRange 0x30 0x39 byte || inRange 0x61 0x66 byte || inRange 0x41 0x46 byte

/-- `numericLabel`. The source goes through the runes of the label; a byte that is no ASCII
digit is part of a rune that is none. -/
def numericLabel : Bytes → Bool
  | [] => false
  | 0x30 :: 0x78 :: digits => digits.all isHexDigit
  | 0x30 :: 0x58 :: digits => digits.all isHexDigit
  | label => label.all (inRange 0x30 0x39)

variable (lowerRune : Nat → Nat)

def isLocalName (host : Bytes) : Bool :=
  let host := toLower lowerRune (trimSuffix host (lit "."))
  if host = lit "localhost" ∨ hasSuffix host (lit ".localhost") then true
  else if host = [] then false
  else (splitByte 0x2E host).all numericLabel

def stripZone (host : Bytes) : Bytes := host.takeWhile (· != 0x25)

variable (allowIP : Ip → Bool)

def hostAllowedBy (host : Bytes) : Bool :=
  match parseIP (stripZone host) with
  | some ip => allowIP ip
  | none => !isLocalName lowerRune (stripZone host)

/-! ### The rule -/

/-- A part of a numeric spelling: digits, or `0x` and hexadecimal digits, possibly none. -/
inductive NumericPart : Bytes → Prop
  | digits {label : Bytes} (nonempty : label ≠ [])
      (digits : ∀ byte ∈ label, inRange 0x30 0x39 byte) : NumericPart label
  | hex {letter : UInt8} {digits : Bytes} (marker : letter = 0x78 ∨ letter = 0x58)
      (hexDigits : ∀ byte ∈ digits, isHexDigit byte) : NumericPart (0x30 :: letter :: digits)

/-- A name, in lower case and without its final dot, that the local machine answers for. -/
inductive LocalSpelling : Bytes → Prop
  | localhost : LocalSpelling (lit "localhost")
  | below (name : Bytes) : LocalSpelling (name ++ lit ".localhost")
  | numeric {name : Bytes} (nonempty : name ≠ [])
      (parts : ∀ label ∈ splitByte 0x2E name, NumericPart label) : LocalSpelling name

/-- The rule for a host: an address must be one the policy allows, and any other name must not
be one of the local machine. -/
structure Admissible (host : Bytes) : Prop where
  literal : ∀ ip, parseIP (stripZone host) = some ip → allowIP ip = true
  named : parseIP (stripZone host) = none →
    ¬ LocalSpelling (toLower lowerRune (trimSuffix (stripZone host) (lit ".")))

theorem numericLabel_iff {label : Bytes} : numericLabel label = true ↔ NumericPart label := by
  constructor
  · intro numeric
    unfold numericLabel at numeric
    split at numeric
    · cases numeric
    · exact .hex (.inl rfl) (all_eq_true.mp numeric)
    · exact .hex (.inr rfl) (all_eq_true.mp numeric)
    next nonempty _ _ =>
      exact .digits nonempty (all_eq_true.mp numeric)
  · intro part
    cases part with
    | digits nonempty digits =>
      unfold numericLabel
      split
      · exact absurd rfl nonempty
      · exact absurd (digits 0x78 (by simp)) (by decide)
      · exact absurd (digits 0x58 (by simp)) (by decide)
      · exact all_eq_true.mpr digits
    | hex marker hexDigits =>
      obtain rfl | rfl := marker
      all_goals exact all_eq_true.mpr hexDigits

variable {lowerRune : Nat → Nat}

theorem isLocalName_iff :
    isLocalName lowerRune host = true ↔
      LocalSpelling (toLower lowerRune (trimSuffix host (lit "."))) := by
  unfold isLocalName
  generalize toLower lowerRune (trimSuffix host (lit ".")) = name
  dsimp only
  constructor
  · intro isLocal
    split at isLocal
    next named =>
      obtain rfl | below := named
      · exact .localhost
      · obtain ⟨rest, rfl⟩ := isSuffixOf_iff_suffix.mp below
        exact .below rest
    split at isLocal
    · cases isLocal
    next nonempty =>
      exact .numeric nonempty fun label member =>
        numericLabel_iff.mp (all_eq_true.mp isLocal label member)
  · intro spelling
    cases spelling with
    | localhost => rw [if_pos (.inl rfl)]
    | below rest => rw [if_pos (.inr (isSuffixOf_iff_suffix.mpr ⟨rest, rfl⟩))]
    | numeric _ parts =>
      split
      · rfl
      · exact all_eq_true.mpr fun label member => numericLabel_iff.mpr (parts label member)

theorem hostAllowedBy_iff {allowIP : Ip → Bool} :
    hostAllowedBy lowerRune allowIP host = true ↔ Admissible lowerRune allowIP host := by
  rw [hostAllowedBy]
  cases parsed : parseIP (stripZone host) with
  | some ip =>
    refine ⟨fun allowed => ⟨fun other same => ?_, fun none => ?_⟩,
      fun rule => rule.literal ip parsed⟩
    · rw [parsed, Option.some.injEq] at same
      exact same ▸ allowed
    · rw [parsed] at none
      cases none
  | none =>
    rw [Bool.not_eq_true', ← Bool.not_eq_true, isLocalName_iff]
    refine ⟨fun foreign => ⟨fun ip some => ?_, fun _ => foreign⟩, fun rule => rule.named parsed⟩
    rw [parsed] at some
    cases some

/-! ### Numeric spellings and names of the local machine -/

/-- The grammar of `inet_aton`, with an optional dot at the end. -/
def AtonSpelling (host : Bytes) : Prop :=
  ∃ parts : List Bytes, parts ≠ [] ∧ parts.length ≤ 4 ∧ (∀ part ∈ parts, NumericPart part) ∧
    (host = join (lit ".") parts ∨ host = join (lit ".") parts ++ lit ".")

/-- `localhost` or a name that ends in `.localhost`, in any case and with an optional dot at the
end. -/
def LocalhostSpelling (host : Bytes) : Prop :=
  ∃ name : Bytes, (host = name ∨ host = name ++ lit ".") ∧ (name.map lowerByte = lit "localhost" ∨
    ∃ below ending : Bytes, name = below ++ ending ∧ ending.map lowerByte = lit ".localhost")

/-- `unicode.ToLower` on ASCII. -/
def LowersASCII (lowerRune : Nat → Nat) : Prop :=
  ∀ byte : UInt8, byte < 0x80 → lowerRune byte.toNat = (lowerByte byte).toNat

theorem stripZone_of_notMem (free : 0x25 ∉ host) : stripZone host = host := by
  refine takeWhile_eq_self_iff.mpr fun byte member => ?_
  exact bne_iff_ne.mpr fun same => free (same ▸ member)

theorem trimSuffix_dot (ends : name.getLast? ≠ some 0x2E)
    (spelled : host = name ∨ host = name ++ lit ".") : trimSuffix host (lit ".") = name := by
  rw [trimSuffix]
  obtain rfl | rfl := spelled
  · rw [if_neg fun dotted => ends ?_]
    obtain ⟨rest, rfl⟩ := isSuffixOf_iff_suffix.mp dotted
    exact getLast?_concat
  · have dotted : hasSuffix (name ++ lit ".") (lit ".") = true :=
      isSuffixOf_iff_suffix.mpr ⟨name, rfl⟩
    rw [if_pos dotted, length_append, Nat.add_sub_cancel, take_left]

theorem NumericPart.bytes (numeric : NumericPart part) :
    part ≠ [] ∧ ∀ byte ∈ part, byte < 0x80 ∧ byte ≠ 0x2E ∧ byte ≠ 0x25 := by
  cases numeric with
  | digits nonempty digits =>
    refine ⟨nonempty, fun byte member => ?_⟩
    have digit := digits byte member
    grind [inRange]
  | hex marker hexDigits =>
    refine ⟨cons_ne_nil _ _, fun byte member => ?_⟩
    rcases mem_cons.mp member with rfl | later
    · decide
    · rcases mem_cons.mp later with rfl | digit
      · obtain rfl | rfl := marker <;> decide
      · have digit := hexDigits byte digit
        grind [isHexDigit, inRange]

theorem NumericPart.lower (numeric : NumericPart part) : NumericPart (part.map lowerByte) := by
  cases numeric with
  | digits nonempty digits =>
    refine .digits (by simpa using nonempty) fun byte member => ?_
    obtain ⟨digit, inside, rfl⟩ := mem_map.mp member
    have numeric := digits digit inside
    grind [inRange, lowerByte]
  | hex marker hexDigits =>
    refine .hex (by obtain rfl | rfl := marker <;> exact .inl (by decide)) fun byte member => ?_
    obtain ⟨digit, inside, rfl⟩ := mem_map.mp member
    have hex := hexDigits digit inside
    grind [isHexDigit, inRange, lowerByte]

theorem map_join (change : UInt8 → UInt8) (separator : Bytes) (parts : List Bytes) :
    (join separator parts).map change = join (separator.map change) (parts.map (·.map change)) := by
  fun_induction join separator parts with
  | case1 | case2 => rfl
  | case3 part parts nonempty ih =>
    rw [map_append, map_append, ih, map_cons, join]
    simpa using nonempty

def addressByte (byte : UInt8) : Bool := isHexDigit byte || byte = 0x2E || byte = 0x3A

theorem addressByte_of_hexDigit (hex : (hexDigit byte).isSome) : addressByte byte = true := by
  grind [hexDigit, addressByte, isHexDigit]

theorem digits_of_decimalDigits {digits : Bytes} (parsed : (decimalDigits digits).isSome) :
    ∀ byte ∈ digits, inRange 0x30 0x39 byte := by
  unfold decimalDigits at parsed
  generalize 0 = value at parsed
  induction digits generalizing value with
  | nil => exact fun _ member => by cases member
  | cons digit digits ih =>
    rw [foldlM_cons, decimalDigit] at parsed
    split at parsed
    · next inside =>
      intro byte member
      rcases mem_cons.mp member with rfl | later
      · exact inside
      · exact ih _ parsed byte later
    · cases parsed

theorem isSome_of_mapM {Item Result : Type} {read : Item → Option Result} {items : List Item}
    (all : (items.mapM read).isSome) : ∀ item ∈ items, (read item).isSome := by
  induction items with
  | nil => exact fun _ member => by cases member
  | cons first items ih =>
    rw [mapM_cons] at all
    obtain ⟨results, found⟩ := Option.isSome_iff_exists.mp all
    obtain ⟨result, head, rest⟩ := Option.bind_eq_some_iff.mp found
    obtain ⟨later, tail, _⟩ := Option.bind_eq_some_iff.mp rest
    intro item member
    rcases mem_cons.mp member with rfl | inside
    · exact Option.isSome_iff_exists.mpr ⟨result, head⟩
    · exact ih (Option.isSome_iff_exists.mpr ⟨later, tail⟩) item inside

theorem addressByte_of_parseIPv4Fields (parsed : (parseIPv4Fields text).isSome) :
    ∀ byte ∈ text, addressByte byte = true := by
  intro byte member
  rw [← join_splitByte 0x2E text] at member
  rcases mem_join member with dot | ⟨part, inside, within⟩
  · rw [mem_singleton.mp dot]
    rfl
  · unfold parseIPv4Fields at parsed
    dsimp only at parsed
    split at parsed
    · have octet := isSome_of_mapM parsed part inside
      unfold parseOctet at octet
      split at octet
      · cases octet
      · rw [Option.isSome_map] at octet
        have digits :=
          digits_of_decimalDigits (Option.isSome_of_isSome_filter _ _ octet) byte within
        grind [addressByte, isHexDigit]
    · cases parsed

theorem addressByte_of_parseIPv6Loop {fuel : Nat} {ip : Bytes} {ellipsis : Option Nat}
    (parsed : (parseIPv6Loop fuel text ip ellipsis).isSome) :
    ∀ byte ∈ text, addressByte byte = true := by
  induction fuel generalizing text ip ellipsis with
  | zero =>
    rw [parseIPv6Loop] at parsed
    split at parsed
    · next empty => exact empty ▸ fun _ member => by cases member
    · cases parsed
  | succ fuel ih =>
    have rest : ∀ {later : Bytes}, text.drop (text.takeWhile fun byte =>
        (hexDigit byte).isSome).length = later → (∀ byte ∈ later, addressByte byte = true) →
        ∀ byte ∈ text, addressByte byte = true := by
      rintro _ rfl each byte member
      rw [← take_append_drop (text.takeWhile fun byte => (hexDigit byte).isSome).length text,
        ← prefix_iff_eq_take.mp (List.takeWhile_prefix _)] at member
      rcases mem_append.mp member with group | later
      · have digit : (hexDigit byte).isSome = true :=
          mem_takeWhile_imp (p := fun byte => (hexDigit byte).isSome) group
        exact addressByte_of_hexDigit digit
      · exact each byte later
    have colon : ∀ {more : Bytes}, (∀ byte ∈ more, addressByte byte = true) →
        ∀ byte ∈ 0x3A :: more, addressByte byte = true := fun each =>
      forall_mem_cons.mpr ⟨rfl, each⟩
    rw [parseIPv6Loop] at parsed
    split at parsed
    · cases parsed
    split at parsed
    · next done => exact rest done fun _ member => by cases member
    · split at parsed
      · cases parsed
      · exact addressByte_of_parseIPv4Fields (by simpa using parsed)
    · next more later =>
      split at parsed
      · cases parsed
      split at parsed
      · next empty => exact rest later (colon (colon (empty ▸ fun _ member => by cases member)))
      · exact rest later (colon (colon (ih parsed)))
    · cases parsed
    · next more _ later => exact rest later (colon (ih parsed))
    · cases parsed

theorem addressByte_of_parseIP {ip : Ip} (parsed : parseIP text = some ip) :
    ∀ byte ∈ text, addressByte byte = true := by
  have isSome : (parseIP text).isSome := by rw [parsed]; rfl
  unfold parseIP at isSome
  split at isSome
  · exact addressByte_of_parseIPv4Fields (by simpa using isSome)
  · split at isSome
    · cases isSome
    rw [Option.isSome_map] at isSome
    unfold parseIPv6 at isSome
    split at isSome
    · decide +kernel
    · have loop := Option.isSome_of_isSome_bind isSome
      exact forall_mem_cons.mpr ⟨rfl, forall_mem_cons.mpr ⟨rfl, addressByte_of_parseIPv6Loop loop⟩⟩
    · exact addressByte_of_parseIPv6Loop (Option.isSome_of_isSome_bind isSome)
  · cases isSome

theorem toLower_of_ascii (ascii : ∀ byte ∈ name, byte < 0x80) :
    toLower lowerRune name = name.map lowerByte := by
  have all : isASCII name = true :=
    all_eq_true.mpr fun byte member => decide_eq_true (ascii byte member)
  rw [toLower, if_pos all]

theorem toLower_append (lowers : LowersASCII lowerRune) (below : Bytes) {ending : Bytes}
    (ascii : ∀ byte ∈ ending, byte < 0x80) :
    ∃ lowered, toLower lowerRune (below ++ ending) = lowered ++ ending.map lowerByte := by
  unfold toLower
  split
  · exact ⟨_, map_append⟩
  · have each : ∀ byte ∈ ending, encodeRune (lowerRune byte.toNat) = [lowerByte byte] := by
      intro byte member
      have small := ascii byte member
      rw [lowers byte small, encodeRune_ascii (lowerByte_ascii.mpr small)]
    have start : ∀ byte ∈ ending.head?, runeStart byte = true := by
      intro byte first
      have small := ascii byte (mem_of_mem_head? first)
      rw [runeStart_eq]
      grind [inRange]
    rw [runes_append_start start, flatMap_append, runes_of_ascii ascii, flatMap_map]
    exact ⟨_, congrArg _ ((flatMap_congr each).trans map_eq_flatMap.symm)⟩

theorem getLast?_join {parts : List Bytes} (some : parts ≠ [])
    (each : ∀ part ∈ parts, part ≠ [] ∧ part.getLast? ≠ Option.some 0x2E) (separator : Bytes) :
    join separator parts ≠ [] ∧ (join separator parts).getLast? ≠ Option.some 0x2E := by
  fun_induction join separator parts with
  | case1 => exact absurd rfl some
  | case2 part => exact each part mem_cons_self
  | case3 part parts more ih =>
    obtain ⟨filled, ends⟩ := ih more fun other member =>
      each other (.tail _ member)
    refine ⟨append_ne_nil_of_right_ne_nil _ filled, ?_⟩
    rwa [getLast?_append_of_ne_nil _ filled]

theorem isLocalName_of_aton (lowerRune : Nat → Nat) (spelling : AtonSpelling host) :
    isLocalName lowerRune host = true ∧ 0x25 ∉ host := by
  obtain ⟨parts, some, _, numeric, spelled⟩ := spelling
  have bytes : ∀ byte ∈ join (lit ".") parts, byte < 0x80 ∧ byte ≠ 0x25 := by
    intro byte member
    rcases mem_join member with dot | ⟨part, inside, within⟩
    · rw [mem_singleton.mp dot]
      decide
    · exact ((numeric part inside).bytes.2 byte within).imp_right And.right
  have ends := getLast?_join some (fun part member => ⟨(numeric part member).bytes.1, fun last =>
    ((numeric part member).bytes.2 _ (mem_of_getLast? last)).2.1 rfl⟩) (lit ".")
  refine ⟨?_, fun percent => ?_⟩
  on_goal 2 =>
    obtain rfl | rfl := spelled
    · exact (bytes _ percent).2 rfl
    · exact (mem_append.mp percent).elim (fun inside => (bytes _ inside).2 rfl) (by decide)
  rw [isLocalName_iff, trimSuffix_dot ends.2 spelled,
    toLower_of_ascii fun byte member => (bytes byte member).1, map_join]
  refine .numeric (fun empty => ?_) fun label member => ?_
  · have lowered := congrArg length ((map_join lowerByte (lit ".") parts).trans empty)
    rw [length_map] at lowered
    exact ends.1 (eq_nil_of_length_eq_zero lowered)
  · have split : splitByte 0x2E (join [0x2E] (parts.map (·.map lowerByte))) =
        parts.map (·.map lowerByte) :=
      splitByte_join (by simpa using some) fun part inside dot => by
      obtain ⟨before, within, rfl⟩ := mem_map.mp inside
      exact (((numeric before within).lower.bytes.2) _ dot).2.1 rfl
    rw [show (lit ".").map lowerByte = [0x2E] by decide, split] at member
    obtain ⟨part, inside, rfl⟩ := mem_map.mp member
    exact (numeric part inside).lower

theorem isLocalName_of_localhost (lowers : LowersASCII lowerRune)
    (spelling : LocalhostSpelling host) :
    isLocalName lowerRune host = true ∧ parseIP host = none := by
  obtain ⟨name, spelled, named⟩ := spelling
  have lowered : (name.map lowerByte).getLast? = some 0x74 ∧ 0x6C ∈ name.map lowerByte := by
    rcases named with whole | ⟨below, ending, rfl, tail⟩
    · rw [whole]
      decide
    · rw [map_append, tail, getLast?_append_of_ne_nil _ (by decide)]
      exact ⟨by decide, mem_append_right _ (by decide)⟩
  constructor
  · have ends : name.getLast? ≠ some 0x2E := by
      intro dot
      rw [getLast?_map, dot] at lowered
      exact absurd lowered.1 (by decide)
    rw [isLocalName_iff, trimSuffix_dot ends spelled]
    have ascii : ∀ {part lower : Bytes}, part.map lowerByte = lower →
        (∀ byte ∈ lower, byte < 0x80) →
        ∀ byte ∈ part, byte < 0x80 := by
      rintro part _ rfl each byte member
      exact lowerByte_ascii.mp (each _ (mem_map_of_mem member))
    rcases named with whole | ⟨below, ending, rfl, tail⟩
    · rw [toLower_of_ascii (ascii whole (by decide +kernel)), whole]
      exact .localhost
    · obtain ⟨before, same⟩ := toLower_append lowers below (ascii tail (by decide +kernel))
      rw [same, tail]
      exact .below before
  · -- no address has the letter l
    by_contra parsed
    obtain ⟨ip, parsed⟩ := Option.ne_none_iff_exists'.mp parsed
    obtain ⟨letter, member, lower⟩ := mem_map.mp lowered.2
    have within : letter ∈ host := by
      obtain rfl | rfl := spelled
      · exact member
      · exact mem_append_left _ member
    have address := addressByte_of_parseIP parsed letter within
    grind [addressByte, isHexDigit, inRange, lowerByte]

/-- A part of a host that is refused by itself: an address that the policy refuses, or a name of the
local machine that is no address. -/
inductive RefusedAlone (lowerRune : Nat → Nat) (allowIP : Ip → Bool) (front : Bytes) : Prop
  | address {ip : Ip} (parsed : parseIP front = some ip) (refused : allowIP ip = false)
  | name (noAddress : parseIP front = none)
      (spelling : LocalSpelling (toLower lowerRune (trimSuffix front (lit "."))))

theorem refused_iff {allowIP : Ip → Bool} :
    hostAllowedBy lowerRune allowIP host = false ↔
      RefusedAlone lowerRune allowIP (host.takeWhile (· != 0x25)) := by
  rw [hostAllowedBy, stripZone]
  cases parsed : parseIP (host.takeWhile (· != 0x25)) with
  | some ip =>
    refine ⟨.address parsed, fun refused => ?_⟩
    cases refused with
    | address same refused =>
      cases parsed.symm.trans same
      exact refused
    | name noAddress => cases parsed.symm.trans noAddress
  | none =>
    rw [Bool.not_eq_false', isLocalName_iff]
    refine ⟨.name parsed, fun refused => ?_⟩
    cases refused with
    | address same => cases parsed.symm.trans same
    | name _ spelling => exact spelling

/-- A numeric spelling passes only as an address the policy allows. A spelling of `localhost` or of
a name below it is refused if and only if it has no percent sign, or what stands before the first
one is refused by itself. -/
theorem numeric_hosts_judged (lowerRune : Nat → Nat) (lowers : LowersASCII lowerRune)
    (allowIP : Ip → Bool) (host : Bytes) :
    (AtonSpelling host → hostAllowedBy lowerRune allowIP host = true →
      ∃ ip, parseIP host = some ip ∧ allowIP ip = true) ∧
    (LocalhostSpelling host → (hostAllowedBy lowerRune allowIP host = false ↔
      0x25 ∉ host ∨ RefusedAlone lowerRune allowIP (host.takeWhile (· != 0x25)))) := by
  constructor
  · intro spelling allowed
    obtain ⟨isLocal, free⟩ := isLocalName_of_aton lowerRune spelling
    rw [hostAllowedBy, stripZone_of_notMem free] at allowed
    cases parsed : parseIP host with
    | some ip =>
      rw [parsed] at allowed
      exact ⟨ip, rfl, allowed⟩
    | none =>
      rw [parsed, isLocal] at allowed
      cases allowed
  · intro spelling
    refine ⟨fun refused => .inr (refused_iff.mp refused), ?_⟩
    rintro (free | refused)
    · obtain ⟨isLocal, none⟩ := isLocalName_of_localhost lowers spelling
      rw [hostAllowedBy, stripZone_of_notMem free, none, isLocal]
      rfl
    · exact refused_iff.mpr refused

/-- A short spelling of the loopback address is refused as a name, `LocalHost.` in any case, and
`localhost%.localhost` for what stands before the percent sign. -/
theorem numeric_hosts_judged_loopback :
    hostAllowedBy lowerASCII isPublicIP (lit "127.1") = false ∧
      hostAllowedBy lowerASCII isPublicIP (lit "LocalHost.") = false ∧
      hostAllowedBy lowerASCII isPublicIP (lit "localhost%.localhost") = false := by
  have judged := numeric_hosts_judged lowerASCII lowersRunes_lowerASCII.ascii isPublicIP
  refine ⟨Bool.eq_false_iff.mpr fun allowed => ?_, ((judged _).2 ⟨lit "LocalHost", .inr rfl,
    .inl (by decide +kernel)⟩).mpr (.inl (by decide)), ((judged _).2 ⟨lit "localhost%.localhost",
    .inl rfl, .inr ⟨lit "localhost%", lit ".localhost", rfl, by decide⟩⟩).mpr
      (.inr (.name (by decide +kernel) .localhost))⟩
  obtain ⟨ip, parsed, -⟩ := (judged _).1 ⟨[lit "127", lit "1"], by decide, by decide,
    by simp only [← numericLabel_iff]; decide, .inl rfl⟩ allowed
  cases parsed

/-- The zone is cut off, and with it the end of the name. -/
theorem zoned_localhost_passes :
    LocalhostSpelling (lit "a%b.localhost") ∧
      hostAllowedBy lowerASCII isPublicIP (lit "a%b.localhost") = true :=
  ⟨⟨_, .inl rfl, .inr ⟨lit "a%b", lit ".localhost", rfl, by decide⟩⟩, by decide +kernel⟩

end Ircthing.Netguard
