/-
This file models the two readers of formatting codes in `irc.js`: the parser that cuts a message
into styled runs, and the passes that strip the codes so that the text can be matched. A code that
an earlier pass removes may complete the argument of one that a later pass removes.
-/

import Mathlib.Data.List.Infix

namespace Ircthing.Web

open List

/-- A JavaScript string, by its UTF-16 code units. -/
abbrev Text := List UInt16

def isDigit (c : UInt16) : Bool := 0x30 ≤ c && c ≤ 0x39

variable (text : Text)

/-- At most two digits at the start of a text. -/
def digits : Text := (text.take 2).takeWhile isDigit

/-- `HEX6`, on the first six units of a text. -/
def hex6 : Bool :=
  (text.take 6).length = 6 && (text.take 6).all fun c =>
    isDigit c || (0x61 ≤ c && c ≤ 0x66) || (0x41 ≤ c && c ≤ 0x46)

structure Style where
  bold : Bool := false
  italic : Bool := false
  underline : Bool := false
  strike : Bool := false
  mono : Bool := false
  reverse : Bool := false
  fg : Option Text := none
  bg : Option Text := none
deriving DecidableEq

structure Run where
  text : Text
  style : Style
deriving DecidableEq

/-- `FMT_TOGGLES`. -/
def fmtToggles : UInt16 → Option (Style → Style)
  | 0x02 => some fun st => { st with bold := !st.bold }
  | 0x1D => some fun st => { st with italic := !st.italic }
  | 0x1F => some fun st => { st with underline := !st.underline }
  | 0x1E => some fun st => { st with strike := !st.strike }
  | 0x11 => some fun st => { st with mono := !st.mono }
  | 0x16 => some fun st => { st with reverse := !st.reverse }
  | _ => none

variable (palette : Text → Option Text)

/-- `parseIndexedColor` on what follows the code: how many units it takes, and the style. -/
def parseIndexedColor (text : Text) (st : Style) : Nat × Style :=
  let d := digits text
  if d = [] then (0, { st with fg := none, bg := none })
  else
    let st := { st with fg := palette d }
    if (text.drop d.length).head? = some 0x2C ∧
        (text.drop (d.length + 1)).head?.any isDigit = true then
      let e := digits (text.drop (d.length + 1))
      (d.length + 1 + e.length, { st with bg := palette e })
    else (d.length, st)

def parseHexColor (st : Style) : Nat × Style :=
  if hex6 text = false then (0, { st with fg := none, bg := none })
  else
    let st := { st with fg := some (0x23 :: text.take 6) }
    if (text.drop 6).head? = some 0x2C ∧ hex6 (text.drop 7) = true then
      (13, { st with bg := some (0x23 :: (text.drop 7).take 6) })
    else (6, st)

/-- What the argument of `\x03` takes of a text in the expression of the first pass. -/
def indexedMatch : Nat :=
  let d := (digits text).length
  if d = 0 then 0
  else if (text.drop d).head? = some 0x2C ∧ digits (text.drop (d + 1)) ≠ [] then
    d + 1 + (digits (text.drop (d + 1))).length
  else d

/-- What the argument of `\x04` takes of a text in the expression of the second pass. -/
def hexMatch : Nat :=
  if hex6 text = true then
    if (text.drop 6).head? = some 0x2C ∧ hex6 (text.drop 7) = true then 13 else 6
  else 0

/-- `replace` of a code with its argument by nothing; the first units may still be part of one. -/
def removeCodes (lead : UInt16) (argument : Text → Nat) : Nat → Text → Text
  | _, [] => []
  | skip + 1, _ :: rest => removeCodes lead argument skip rest
  | 0, c :: rest =>
    if c = lead then removeCodes lead argument (argument rest) rest
    else c :: removeCodes lead argument 0 rest

def isAttribute (c : UInt16) : Bool := c = 0x0F || (fmtToggles c).isSome

def stripFormatting : Text :=
  (removeCodes 0x04 hexMatch 0 (removeCodes 0x03 indexedMatch 0 text)).filter (!isAttribute ·)

def maxFmtRuns : Nat := 1024

structure Parser where
  runs : List Run := []
  st : Style := {}
  buf : Text := []

def Parser.flush (parser : Parser) : Parser :=
  if parser.buf = [] then parser
  else { parser with runs := parser.runs ++ [⟨parser.buf, parser.st⟩], buf := [] }

def Parser.restyle (parser : Parser) (update : Style → Style) : Parser :=
  { parser.flush with st := update parser.st }

/-- The loop of `parseFormatting`; the first units may still be part of a code. -/
def parseLoop (palette : Text → Option Text) : Nat → Parser → Text → Parser
  | _, parser, [] => parser
  | skip + 1, parser, _ :: rest => parseLoop palette skip parser rest
  | 0, parser, c :: rest =>
    if parser.runs.length ≥ maxFmtRuns - 1 then
      { parser with buf := parser.buf ++ stripFormatting (c :: rest) }
    else
      match fmtToggles c with
      | some toggle => parseLoop palette 0 (parser.restyle toggle) rest
      | none =>
        if c = 0x0F then parseLoop palette 0 (parser.restyle fun _ => {}) rest
        else if c = 0x03 then
          parseLoop palette (parseIndexedColor palette rest parser.st).1
            (parser.restyle fun st => (parseIndexedColor palette rest st).2) rest
        else if c = 0x04 then
          parseLoop palette (parseHexColor rest parser.st).1
            (parser.restyle fun st => (parseHexColor rest st).2) rest
        else parseLoop palette 0 { parser with buf := parser.buf ++ [c] } rest

def parseFormatting (text : Text) : List Run :=
  (parseLoop palette 0 {} text).flush.runs

/-! ### The arguments of the codes -/

variable {palette : Text → Option Text} {text rest : Text} {st : Style} {c lead : UInt16}
  {argument : Text → Nat} {parser : Parser}

theorem digits_ne_nil : digits text ≠ [] ↔ text.head?.any isDigit = true := by
  cases text with
  | nil => simp [digits]
  | cons c rest => cases digit : isDigit c <;> simp [digits, digit]

theorem parseIndexedColor_taken : (parseIndexedColor palette text st).1 = indexedMatch text := by
  unfold parseIndexedColor indexedMatch
  simp only [digits_ne_nil, length_eq_zero_iff]
  split
  · rfl
  · split <;> rfl

theorem parseHexColor_taken : (parseHexColor text st).1 = hexMatch text := by
  unfold parseHexColor hexMatch
  cases hex6 text with
  | false => rfl
  | true =>
    rw [if_neg (by decide), if_pos rfl]
    dsimp only
    split <;> rfl

/-- A unit that is neither a code nor the start of one. -/
def isPlain (c : UInt16) : Bool := c ≠ 0x03 && c ≠ 0x04 && !isAttribute c

theorem isPlain_of_le (large : 0x20 ≤ c) : isPlain c = true := by
  have low (code : UInt16) (small : code < 0x20) : c ≠ code := fun same =>
    absurd large (UInt16.not_le.mpr (same ▸ small))
  have none : fmtToggles c = none := by
    unfold fmtToggles
    split
    all_goals first | rfl | exact absurd large (by decide)
  simp [isPlain, isAttribute, none, low 0x03 (by decide), low 0x04 (by decide),
    low 0x0F (by decide)]

theorem hex6_plain (hex : hex6 text = true) :
    6 ≤ text.length ∧ ∀ c ∈ text.take 6, isPlain c = true := by
  simp only [hex6, Bool.and_eq_true, decide_eq_true_eq, length_take] at hex
  refine ⟨by omega, fun c member => isPlain_of_le ?_⟩
  have range := all_eq_true.mp hex.2 c member
  simp [isDigit, UInt16.le_iff_toNat_le] at range ⊢
  omega

/-- The argument of a hexadecimal code stands in the text, and there is no other code in it. -/
theorem hexMatch_plain (text : Text) :
    hexMatch text ≤ text.length ∧ ∀ c ∈ text.take (hexMatch text), isPlain c = true := by
  unfold hexMatch
  split
  next first =>
    obtain ⟨long, plain⟩ := hex6_plain first
    split
    next second =>
      obtain ⟨longer, further⟩ := hex6_plain second.2
      have comma : text.drop 6 = 0x2C :: text.drop 7 := by
        rw [eq_cons_of_mem_head? second.1, tail_drop]
      rw [length_drop] at longer
      refine ⟨by omega, ?_⟩
      rw [show 13 = 6 + 7 from rfl, take_add, comma, take_succ_cons]
      simp only [forall_mem_append, forall_mem_cons]
      exact ⟨plain, by decide, further⟩
    · exact ⟨long, plain⟩
  · simp

/-- Six hexadecimal digits, or twice six with a comma between them. -/
def HexArgument (units : Text) : Prop :=
  units.length = 6 ∧ hex6 units = true ∨
    units.length = 13 ∧ hex6 units = true ∧ units[6]? = some 0x2C ∧ hex6 (units.drop 7) = true

theorem hexArgument_take (some : hexMatch text ≠ 0) :
    HexArgument (text.take (hexMatch text)) := by
  have long := (hexMatch_plain text).1
  unfold hexMatch at some long ⊢
  split at some
  next first =>
    rw [if_pos first] at long ⊢
    split at long
    next second =>
      rw [if_pos second]
      refine .inr ⟨length_take_of_le long, ?_, ?_, ?_⟩
      · simpa [hex6, take_take] using first
      · rw [getElem?_take_of_lt (by decide), ← head?_drop]
        exact second.1
      · simpa [hex6, take_take, drop_take] using second.2
    next single =>
      rw [if_neg single]
      refine .inl ⟨length_take_of_le long, ?_⟩
      simpa [hex6, take_take] using first
  · exact absurd rfl some

theorem length_le_hexMatch {units : Text} (hex : HexArgument units) (starts : units <+: text) :
    units.length ≤ hexMatch text := by
  obtain ⟨more, rfl⟩ := starts
  have six {units : Text} (more : Text) (hex : hex6 units = true) :
      hex6 (units ++ more) = true := by
    rwa [hex6, take_append_of_le_length (hex6_plain hex).1]
  unfold hexMatch
  rcases hex with ⟨size, first⟩ | ⟨size, first, comma, second⟩
  · rw [if_pos (six more first), size]
    split <;> decide
  · rw [if_pos (six more first), if_pos, size]
    rw [head?_drop, getElem?_append_left (by omega), drop_append_of_le_length (by omega)]
    exact ⟨comma, six more second⟩

theorem removeCodes_skip (skip : Nat) :
    removeCodes lead argument skip text = removeCodes lead argument 0 (text.drop skip) := by
  induction text generalizing skip with
  | nil => cases skip <;> rfl
  | cons c rest ih =>
    cases skip with
    | zero => rfl
    | succ skip => exact ih skip

theorem removeCodes_append {before : Text} (free : lead ∉ before) :
    removeCodes lead argument 0 (before ++ rest) = before ++ removeCodes lead argument 0 rest := by
  induction before with
  | nil => rfl
  | cons c before ih =>
    rw [mem_cons, not_or] at free
    obtain ⟨other, free⟩ := free
    rw [cons_append, removeCodes, if_neg (Ne.symm other), ih free]
    rfl

/-! ### Arguments that indexed codes spread -/

/-- The units stand at the start of a text, with indexed color codes before and between them. -/
inductive Spread : Text → Text → Prop
  | nil (text : Text) : Spread [] text
  | unit {units rest : Text} {c : UInt16} :
    c ≠ 0x03 → Spread units rest → Spread (c :: units) (c :: rest)
  | code {units rest : Text} :
    Spread units (rest.drop (indexedMatch rest)) → Spread units (0x03 :: rest)

theorem spread_iff {units : Text} :
    Spread units text ↔ units <+: removeCodes 0x03 indexedMatch 0 text := by
  constructor
  · intro spread
    induction spread with
    | nil => exact List.nil_prefix
    | unit other _ ih =>
      rw [removeCodes, if_neg other]
      exact (List.prefix_cons_inj _).mpr ih
    | code _ ih => rwa [removeCodes, if_pos rfl, removeCodes_skip]
  · have skipped (skip : Nat) (starts : units <+: removeCodes 0x03 indexedMatch skip text) :
        Spread units (text.drop skip) := by
      induction text generalizing skip units with
      | nil =>
        have none : units = [] := by cases skip <;> exact prefix_nil.mp starts
        exact none ▸ .nil _
      | cons c rest ih =>
        cases skip with
        | succ skip => exact ih skip starts
        | zero =>
          rw [removeCodes] at starts
          split at starts
          next code => exact code ▸ .code (ih _ starts)
          next other =>
            cases units with
            | nil => exact .nil _
            | cons unit units =>
              obtain ⟨rfl, later⟩ := cons_prefix_cons.mp starts
              exact .unit other (ih 0 later)
    exact skipped 0

/-- Every argument of a hexadecimal code that is spread over the text behind the code stands at its
start. -/
def Settled (rest : Text) : Prop :=
  ∀ units, HexArgument units → Spread units rest → units <+: rest

/-- The hexadecimal codes of a text: how many runs other codes end before each of them, and the text
behind it. A run has ended where a code follows a plain unit. -/
def hexCodes : Nat → Nat → Bool → Text → List (Nat × Text)
  | _, _, _, [] => []
  | skip + 1, ended, filled, _ :: rest => hexCodes skip ended filled rest
  | 0, ended, filled, c :: rest =>
    if c = 0x03 then hexCodes (indexedMatch rest) (ended + filled.toNat) false rest
    else if c = 0x04 then
      (ended, rest) :: hexCodes (hexMatch rest) (ended + filled.toNat) false rest
    else if isAttribute c then hexCodes 0 (ended + filled.toNat) false rest
    else hexCodes 0 ended true rest

theorem hexCodes_le (skip ended : Nat) (filled : Bool) :
    ∀ code ∈ hexCodes skip ended filled text, ended ≤ code.1 := by
  induction text generalizing skip ended filled with
  | nil => cases skip <;> nofun
  | cons c rest ih =>
    cases skip with
    | succ skip => exact ih skip ended filled
    | zero =>
      have later (skip : Nat) (code : Nat × Text)
          (member : code ∈ hexCodes skip (ended + filled.toNat) false rest) : ended ≤ code.1 :=
        (Nat.le_add_right _ _).trans (ih skip _ false code member)
      rw [hexCodes]
      split_ifs
      · exact later _
      · exact forall_mem_cons.mpr ⟨le_rfl, later _⟩
      · exact later _
      · exact ih 0 ended true

theorem removeCodes_hexMatch (rest : Text) :
    removeCodes 0x03 indexedMatch 0 rest = rest.take (hexMatch rest) ++
      removeCodes 0x03 indexedMatch 0 (rest.drop (hexMatch rest)) := by
  have free : 0x03 ∉ rest.take (hexMatch rest) := fun member =>
    absurd ((hexMatch_plain rest).2 _ member) (by decide)
  rw [← removeCodes_append free, take_append_drop]

theorem hexMatch_le (rest : Text) :
    hexMatch rest ≤ hexMatch (removeCodes 0x03 indexedMatch 0 rest) := by
  by_cases none : hexMatch rest = 0
  · rw [none]
    exact Nat.zero_le _
  · have within := length_le_hexMatch (hexArgument_take none)
      ⟨_, (removeCodes_hexMatch rest).symm⟩
    rwa [length_take_of_le (hexMatch_plain rest).1] at within

theorem settled_iff :
    Settled rest ↔ hexMatch (removeCodes 0x03 indexedMatch 0 rest) = hexMatch rest := by
  have whole := hexMatch_plain (removeCodes 0x03 indexedMatch 0 rest)
  constructor
  · intro settled
    refine le_antisymm ?_ (hexMatch_le rest)
    by_cases none : hexMatch (removeCodes 0x03 indexedMatch 0 rest) = 0
    · rw [none]
      exact Nat.zero_le _
    · have argument := hexArgument_take none
      have within := length_le_hexMatch argument
        (settled _ argument (spread_iff.mpr (List.take_prefix _ _)))
      rwa [length_take_of_le whole.1] at within
  · intro same units hex spread
    have starts := spread_iff.mp spread
    have within := same ▸ length_le_hexMatch hex starts
    rw [removeCodes_hexMatch] at starts
    have taken : units <+: rest.take (hexMatch rest) := by
      refine prefix_of_prefix_length_le starts (List.prefix_append _ _) ?_
      rwa [length_take_of_le (hexMatch_plain rest).1]
    exact taken.trans (List.take_prefix _ _)

/-! ### What is shown -/

theorem ne_of_isAttribute (attr : isAttribute c = true) : c ≠ 0x03 ∧ c ≠ 0x04 := by
  constructor <;> rintro rfl <;> exact absurd attr (by decide)

theorem strip_attribute (attr : isAttribute c = true) :
    stripFormatting (c :: rest) = stripFormatting rest := by
  have others := ne_of_isAttribute attr
  simp [stripFormatting, removeCodes, others.1, others.2, attr]

theorem strip_indexed :
    stripFormatting (0x03 :: rest) = stripFormatting (rest.drop (indexedMatch rest)) := by
  rw [stripFormatting, removeCodes, if_pos rfl, removeCodes_skip (indexedMatch rest)]
  rfl

theorem strip_hex : stripFormatting (0x04 :: rest) =
    (removeCodes 0x04 hexMatch 0 ((removeCodes 0x03 indexedMatch 0 rest).drop
      (hexMatch (removeCodes 0x03 indexedMatch 0 rest)))).filter (!isAttribute ·) := by
  rw [stripFormatting, removeCodes, if_neg (by decide), removeCodes, if_pos rfl, removeCodes_skip]

/-- The units of a spread argument that are behind the code's own are shown, but not matched. -/
theorem strip_hex_length (rest : Text) : (stripFormatting (rest.drop (hexMatch rest))).length =
    hexMatch (removeCodes 0x03 indexedMatch 0 rest) - hexMatch rest +
      (stripFormatting (0x04 :: rest)).length := by
  generalize removed : removeCodes 0x03 indexedMatch 0 rest = text
  have split := removeCodes_hexMatch rest
  have long := (hexMatch_plain rest).1
  have larger := hexMatch_le rest
  rw [removed] at split larger
  obtain ⟨within, plain⟩ := hexMatch_plain text
  have behind : removeCodes 0x03 indexedMatch 0 (rest.drop (hexMatch rest)) =
      (text.take (hexMatch text)).drop (hexMatch rest) ++ text.drop (hexMatch text) := by
    rw [← drop_append_of_le_length (by rwa [length_take_of_le within]), take_append_drop, split,
      drop_left' (length_take_of_le long)]
  have shown : ∀ c ∈ (text.take (hexMatch text)).drop (hexMatch rest), isPlain c = true :=
    fun c member => plain c (mem_of_mem_drop member)
  rw [strip_hex, removed, stripFormatting, behind, removeCodes_append, filter_append, length_append,
    filter_eq_self.mpr, length_drop, length_take_of_le within]
  · intro c member
    have unit := shown c member
    simp only [isPlain, Bool.and_eq_true] at unit
    exact unit.2
  · intro member
    exact absurd (shown _ member) (by decide)

theorem strip_hex_settled (settled : Settled rest) :
    stripFormatting (0x04 :: rest) = stripFormatting (rest.drop (hexMatch rest)) := by
  rw [strip_hex, settled_iff.mp settled, stripFormatting]
  nth_rewrite 1 [removeCodes_hexMatch]
  rw [drop_left' (length_take_of_le (hexMatch_plain rest).1)]

theorem strip_plain (plain : isAttribute c = false) (indexed : c ≠ 0x03) (hex : c ≠ 0x04) :
    stripFormatting (c :: rest) = c :: stripFormatting rest := by
  simp [stripFormatting, removeCodes, indexed, hex, plain]

def Parser.shown (parser : Parser) : Text := parser.runs.flatMap (·.text) ++ parser.buf

theorem shown_flush : parser.flush.shown = parser.shown := by
  unfold Parser.flush Parser.shown
  split <;> simp

theorem shown_restyle {update : Style → Style} : (parser.restyle update).shown = parser.shown :=
  shown_flush

theorem restyle_runs {update : Style → Style} : (parser.restyle update).runs.length =
    parser.runs.length + (decide (parser.buf ≠ [])).toNat := by
  unfold Parser.restyle Parser.flush
  split <;> simp_all

theorem restyle_buf {update : Style → Style} : (parser.restyle update).buf = [] := by
  unfold Parser.restyle Parser.flush
  split <;> simp_all

/-- Of what a parser reads, nothing that is matched is left out; and no more is shown if and only if
each hexadecimal code before the cap is settled. -/
theorem shown_parseLoop (palette : Text → Option Text) (parser : Parser) (text : Text)
    (skip : Nat) :
    (parser.shown ++ stripFormatting (text.drop skip)).length ≤
        (parseLoop palette skip parser text).shown.length ∧
      ((parseLoop palette skip parser text).shown =
        parser.shown ++ stripFormatting (text.drop skip) ↔
        ∀ code ∈ hexCodes skip parser.runs.length (parser.buf ≠ []) text,
          code.1 < maxFmtRuns - 1 → Settled code.2) := by
  induction text generalizing skip parser with
  | nil => cases skip <;> simp [parseLoop, stripFormatting, removeCodes, hexCodes]
  | cons c rest ih =>
    cases skip with
    | succ skip => exact ih parser skip
    | zero =>
      have restyled (update : Style → Style) := ih (parser.restyle update)
      simp only [shown_restyle, restyle_runs, restyle_buf, ne_eq, not_true_eq_false,
        decide_false] at restyled
      rw [parseLoop, drop_zero]
      split
      next capped =>
        have shown : Parser.shown { parser with buf := parser.buf ++ stripFormatting (c :: rest) }
            = parser.shown ++ stripFormatting (c :: rest) := by simp [Parser.shown]
        refine ⟨shown ▸ le_rfl, iff_of_true shown fun code member below => ?_⟩
        have := hexCodes_le _ _ _ code member
        omega
      rename_i below
      have codes (attr : isAttribute c = true) :
          hexCodes 0 parser.runs.length (parser.buf ≠ []) (c :: rest) = hexCodes 0
            (parser.runs.length + (decide (parser.buf ≠ [])).toNat) false rest := by
        obtain ⟨unindexed, unhex⟩ := ne_of_isAttribute attr
        rw [hexCodes, if_neg unindexed, if_neg unhex, if_pos attr]
      split
      next toggle found =>
        have attr : isAttribute c = true := by simp [isAttribute, found]
        rw [strip_attribute attr, codes attr]
        exact restyled toggle 0
      rename_i none
      split
      next reset =>
        have attr : isAttribute c = true := by simp [isAttribute, reset]
        rw [strip_attribute attr, codes attr]
        exact restyled _ 0
      rename_i other
      split
      next indexed =>
        subst indexed
        rw [strip_indexed, parseIndexedColor_taken, hexCodes, if_pos rfl]
        exact restyled _ _
      rename_i unindexed
      split
      next hex =>
        subst hex
        obtain ⟨within, shown⟩ := restyled (fun st => (parseHexColor rest st).2) (hexMatch rest)
        have shorter := strip_hex_length rest
        rw [length_append] at within
        rw [parseHexColor_taken, hexCodes, if_neg unindexed, if_pos rfl, forall_mem_cons,
          length_append]
        refine ⟨by omega, ?_⟩
        by_cases settled : Settled rest
        · rw [strip_hex_settled settled, shown]
          exact (and_iff_right fun _ => settled).symm
        · refine iff_of_false (fun same => ?_) fun all => settled (all.1 (not_le.mp below))
          have larger := hexMatch_le rest
          have apart := mt settled_iff.mpr settled
          rw [same, length_append] at within
          omega
      next unhex =>
        have plain : isAttribute c = false := by simp [isAttribute, other, none]
        rw [strip_plain plain unindexed unhex, hexCodes, if_neg unindexed, if_neg unhex, plain,
          if_neg Bool.false_ne_true]
        simpa [Parser.shown] using ih { parser with buf := parser.buf ++ [c] } 0

theorem length_flush_le : parser.flush.runs.length ≤ parser.runs.length + 1 := by
  unfold Parser.flush
  split <;> simp

theorem length_parseLoop_le (room : parser.runs.length ≤ maxFmtRuns - 1) (skip : Nat) :
    (parseLoop palette skip parser text).runs.length ≤ maxFmtRuns - 1 := by
  induction text generalizing skip parser with
  | nil => cases skip <;> exact room
  | cons c rest ih =>
    cases skip with
    | succ skip => exact ih room skip
    | zero =>
      rw [parseLoop]
      split
      · exact room
      rename_i below
      have restyled {update : Style → Style} :
          (parser.restyle update).runs.length ≤ maxFmtRuns - 1 :=
        length_flush_le.trans (Nat.lt_of_not_le below)
      split
      · exact ih restyled 0
      split
      · exact ih restyled 0
      split
      · exact ih restyled _
      split
      · exact ih restyled _
      · refine ih ?_ 0
        exact room

/-- What is matched is what is shown if and only if each hexadecimal code before the cap on the runs
is settled, and there are never more runs than the cap. -/
theorem shown_is_matched (palette : Text → Option Text) (text : Text) :
    ((parseFormatting palette text).flatMap (·.text) = stripFormatting text ↔
      ∀ code ∈ hexCodes 0 0 false text, code.1 < 1023 → Settled code.2) ∧
      (parseFormatting palette text).length ≤ 1024 := by
  constructor
  · have shown := (shown_parseLoop palette {} text 0).2
    have emptied : (parseLoop palette 0 {} text).flush.buf = [] := by
      unfold Parser.flush
      split
      · assumption
      · rfl
    rw [← shown_flush, Parser.shown, emptied, append_nil] at shown
    exact shown
  · have runs : (parseLoop palette 0 {} text).runs.length ≤ maxFmtRuns - 1 :=
      length_parseLoop_le (Nat.zero_le _) 0
    exact length_flush_le.trans (Nat.succ_le_succ runs)

/-- `\x04\x03aabbcc` is shown as `aabbcc`, but matched as nothing. -/
theorem indexed_code_completes_hex :
    (parseFormatting (fun _ => none) [4, 3, 0x61, 0x61, 0x62, 0x62, 0x63, 0x63]).flatMap (·.text) =
      [0x61, 0x61, 0x62, 0x62, 0x63, 0x63] ∧
      stripFormatting [4, 3, 0x61, 0x61, 0x62, 0x62, 0x63, 0x63] = [] := by decide

end Ircthing.Web
