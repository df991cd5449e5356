/-
This file models the reassembly of incoming draft/multiline batches and the batches the client
sends, and proves that the one undoes the other.
-/

import Ircthing.Irc.Message
import Ircthing.Library.Dict

namespace Ircthing.Irc

open Library List Dict

variable {ref target : Bytes} {line opening : IrcMessage} {first second : List IrcMessage}

/-! ### Reassembly -/

def concatTag : Bytes := lit "draft/multiline-concat"

def maxOpenMLBatches : Nat := 8

def maxMLBatchLines : Nat := 1024

def maxMLBatchBytes : Nat := 65536

structure MlAccum where
  target : Bytes
  command : Bytes := []
  source : Option Source
  tags : List (Bytes × Bytes)
  body : Bytes := []
  first : Bool := true
  lines : Nat := 0
deriving DecidableEq

/-- `multiline`: the open batches by their references. -/
abbrev Multiline := Dict Bytes MlAccum

variable {ml : Multiline}

/-- What `feed` returns beside the new state. -/
structure Fed where
  emit : Option IrcMessage := none
  consumed : Bool := false
  error : Option Bytes := none
deriving DecidableEq

def isMessageLine (line : IrcMessage) : Bool :=
  line.command = lit "PRIVMSG" || line.command = lit "NOTICE"

namespace MlAccum

variable (acc : MlAccum)

def newline (line : IrcMessage) : Bool :=
  !acc.first && (line.tag concatTag).isNone

def extended (line : IrcMessage) : Bytes :=
  acc.body ++ (if acc.newline line then [0x0A] else []) ++ line.trailing

def add (line : IrcMessage) : Except Bytes MlAccum :=
  if !isMessageLine line then .ok acc
  else if acc.lines + 1 > maxMLBatchLines then
    .error (lit "irc: multiline batch exceeded 1024 lines")
  else if (acc.extended line).length > maxMLBatchBytes then
    .error (lit "irc: multiline batch exceeded 65536 bytes")
  else
    .ok { acc with
      command := if acc.first then line.command else acc.command
      source := if acc.first then acc.source <|> line.source else acc.source
      first := false
      body := acc.extended line
      lines := acc.lines + 1 }

def build : Option IrcMessage :=
  if acc.command = [] then none
  else
    some { tags := acc.tags, source := acc.source, command := acc.command,
           params := [acc.target, acc.body] }

end MlAccum

def opensBatch (line : IrcMessage) : Option Bytes :=
  if line.command = lit "BATCH" ∧ 3 ≤ line.params.length ∧ line.param 1 = lit "draft/multiline" then
    cutPrefix (line.param 0) (lit "+")
  else none

def closesBatch (line : IrcMessage) : Option Bytes :=
  if line.command = lit "BATCH" then cutPrefix (line.param 0) (lit "-") else none

def batchTag (line : IrcMessage) : Option Bytes :=
  (line.tag (lit "batch")).filter (· ≠ [])

def feed (ml : Multiline) (line : IrcMessage) : Multiline × Fed :=
  match opensBatch line with
  | some ref =>
    if maxOpenMLBatches ≤ ml.size then
      (ml, { consumed := true, error := lit "irc: too many open multiline batches (>8)" })
    else
      (ml.insert ref { target := line.param 2, source := line.source, tags := line.tags },
        { consumed := true })
  | none =>
    match closesBatch line with
    | some ref =>
      match ml.lookup ref with
      | none => (ml, {})
      | some acc => (ml.erase ref, { emit := acc.build, consumed := true })
    | none =>
      match (batchTag line).bind fun ref => (ml.lookup ref).map fun acc => (ref, acc) with
      | none => (ml, {})
      | some (ref, acc) =>
        match acc.add line with
        | .error problem => (ml, { consumed := true, error := problem })
        | .ok acc => (ml.insert ref acc, { consumed := true })

def feedAll (ml : Multiline) : List IrcMessage → Multiline × List Fed
  | [] => (ml, [])
  | line :: rest =>
    let (next, fed) := feed ml line
    let (last, later) := feedAll next rest
    (last, fed :: later)

def buildMultilineBatch (ref target : Bytes) (lines : List Bytes) : List IrcMessage :=
  newMsg "BATCH" [lit "+" ++ ref, lit "draft/multiline", target] ::
    (lines.map fun line =>
      { tags := [(lit "batch", ref)], command := lit "PRIVMSG", params := [target, line] }) ++
    [newMsg "BATCH" [lit "-" ++ ref]]

/-! ### What a batch says -/

structure Batch where
  opening : IrcMessage
  inner : List IrcMessage := []

variable {session : Dict Bytes Batch}

namespace Batch

variable (batch : Batch)

def messages : List IrcMessage := batch.inner.filter isMessageLine

def continued (line : IrcMessage) : Bytes :=
  (if (line.tag concatTag).isSome then [] else [0x0A]) ++ line.trailing

def joined : List IrcMessage → Bytes
  | [] => []
  | first :: rest => first.trailing ++ rest.flatMap continued

def reassembled : Option IrcMessage :=
  batch.messages.head?.map fun first =>
    { tags := batch.opening.tags
      source := batch.opening.source <|> first.source
      command := first.command
      params := [batch.opening.param 2, joined batch.messages] }

def push (line : IrcMessage) : Batch :=
  { batch with inner := batch.inner ++ [line] }

def Fits : Prop :=
  batch.messages.length ≤ maxMLBatchLines ∧ (joined batch.messages).length ≤ maxMLBatchBytes

instance (batch : Batch) : Decidable batch.Fits := inferInstanceAs (Decidable (_ ∧ _))

end Batch

def Outside (session : Dict Bytes Batch) (line : IrcMessage) : Prop :=
  opensBatch line = none ∧
    (∀ ref, closesBatch line = some ref → session.lookup ref = none) ∧
    (closesBatch line = none → ∀ ref, batchTag line = some ref → session.lookup ref = none)

inductive Interleaving : Dict Bytes Batch → List IrcMessage → List Fed → Prop
  | done (session : Dict Bytes Batch) : Interleaving session [] []
  | outside {session : Dict Bytes Batch} {line : IrcMessage} {rest : List IrcMessage}
      {fed : List Fed} (foreign : Outside session line)
      (later : Interleaving session rest fed) :
      Interleaving session (line :: rest) ({} :: fed)
  | opens {session : Dict Bytes Batch} {line : IrcMessage} {rest : List IrcMessage}
      {fed : List Fed} {ref : Bytes} (opening : opensBatch line = some ref) (named : ref ≠ [])
      (distinct : session.lookup ref = none) (room : session.size < maxOpenMLBatches)
      (later : Interleaving (session.insert ref { opening := line }) rest fed) :
      Interleaving session (line :: rest) ({ consumed := true } :: fed)
  | inside {session : Dict Bytes Batch} {line : IrcMessage} {rest : List IrcMessage}
      {fed : List Fed} {ref : Bytes} {batch : Batch} (other : opensBatch line = none)
      (unclosed : closesBatch line = none) (tagged : batchTag line = some ref)
      (found : session.lookup ref = some batch) (fits : (batch.push line).Fits)
      (later : Interleaving (session.insert ref (batch.push line)) rest fed) :
      Interleaving session (line :: rest) ({ consumed := true } :: fed)
  | closes {session : Dict Bytes Batch} {line : IrcMessage} {rest : List IrcMessage}
      {fed : List Fed} {ref : Bytes} {batch : Batch} (closing : closesBatch line = some ref)
      (found : session.lookup ref = some batch)
      (later : Interleaving (session.erase ref) rest fed) :
      Interleaving session (line :: rest) ({ emit := batch.reassembled, consumed := true } :: fed)

/-! ### The accumulator of a batch -/

namespace Batch

variable (batch : Batch)

theorem messages_push (line : IrcMessage) :
    (batch.push line).messages =
      if isMessageLine line then batch.messages ++ [line] else batch.messages := by
  unfold messages push
  rw [filter_append, filter_singleton]
  cases isMessageLine line with
  | true => rfl
  | false => exact append_nil _

theorem joined_append (lines : List IrcMessage) (line : IrcMessage) :
    joined (lines ++ [line]) =
      joined lines ++ if lines = [] then line.trailing else continued line := by
  cases lines with
  | nil => exact append_nil _
  | cons first rest =>
    show first.trailing ++ (rest ++ [line]).flatMap continued =
      first.trailing ++ rest.flatMap continued ++ continued line
    rw [flatMap_append, flatMap_singleton, append_assoc]

def accum : MlAccum where
  target := batch.opening.param 2
  command := batch.messages.head?.elim [] (·.command)
  source := batch.messages.head?.elim batch.opening.source (batch.opening.source <|> ·.source)
  tags := batch.opening.tags
  body := joined batch.messages
  first := batch.messages.isEmpty
  lines := batch.messages.length

theorem extended_accum (line : IrcMessage) :
    batch.accum.extended line = joined (batch.messages ++ [line]) := by
  rw [joined_append]
  unfold MlAccum.extended MlAccum.newline accum continued
  cases batch.messages with
  | nil => rfl
  | cons =>
    cases line.tag concatTag <;> simp

variable {batch : Batch}

theorem add_accum (fits : (batch.push line).Fits) :
    batch.accum.add line = .ok (batch.push line).accum := by
  unfold Fits at fits
  rw [messages_push] at fits
  cases carries : isMessageLine line with
  | false =>
    have same : (batch.push line).accum = batch.accum := by
      unfold accum
      rw [messages_push, carries]
      rfl
    rw [MlAccum.add, carries, same]
    rfl
  | true =>
    rw [carries, if_pos rfl, ← extended_accum] at fits
    have lines : ¬batch.accum.lines + 1 > maxMLBatchLines := by
      have counted := fits.1
      rw [length_append] at counted
      exact not_lt.mpr counted
    rw [MlAccum.add, carries, Bool.not_true, if_neg Bool.false_ne_true, if_neg lines,
      if_neg (not_lt.mpr fits.2), extended_accum]
    unfold accum
    rw [messages_push, carries, if_pos rfl]
    cases batch.messages with
    | nil => rfl
    | cons => simp [push]

theorem build_accum (batch : Batch) : batch.accum.build = batch.reassembled := by
  unfold MlAccum.build reassembled accum
  cases carried : batch.messages with
  | nil => rfl
  | cons first =>
    have message : isMessageLine first = true := by
      have member : first ∈ batch.messages := by
        rw [carried]
        exact mem_cons_self
      exact (mem_filter.mp member).2
    have command : first.command ≠ [] := by
      intro empty
      rw [isMessageLine, empty] at message
      revert message
      decide
    show (if first.command = [] then none else some _) = some _
    rw [if_neg command]
    rfl

end Batch

/-! ### Following a session -/

structure Follows (ml : Multiline) (session : Dict Bytes Batch) : Prop where
  lookup : ∀ ref, ml.lookup ref = (session.lookup ref).map Batch.accum
  size : ml.size = session.size
  named : session.lookup [] = none

theorem Follows.insert (follows : Follows ml session) (named : ref ≠ []) (batch : Batch) :
    Follows (ml.insert ref batch.accum) (session.insert ref batch) where
  lookup other := by
    rw [lookup_insert_eq, lookup_insert_eq, follows.lookup]
    split <;> rfl
  size := by
    have first := size_insert ml ref batch.accum
    have second := size_insert session ref batch
    rw [follows.lookup, Option.isSome_map, follows.size, ← second] at first
    exact Int.ofNat_inj.mp first
  named := by rw [AList.lookup_insert_ne named.symm, follows.named]

theorem Follows.erase (follows : Follows ml session) (ref : Bytes) :
    Follows (ml.erase ref) (session.erase ref) where
  lookup other := by
    rw [lookup_erase_eq, lookup_erase_eq, follows.lookup]
    split <;> rfl
  size := by
    have first := size_erase ml ref
    have second := size_erase session ref
    rw [follows.lookup, Option.isSome_map, follows.size, ← second] at first
    exact Int.ofNat_inj.mp first
  named := by
    rw [lookup_erase_eq, follows.named]
    exact ite_self _

theorem opensBatch_of_closesBatch (closing : closesBatch line = some ref) :
    opensBatch line = none := by
  have minus : lit "-" = [0x2D] := by decide
  have plus : lit "+" = [0x2B] := by decide
  unfold closesBatch cutPrefix hasPrefix at closing
  unfold opensBatch cutPrefix hasPrefix
  rw [minus] at closing
  rw [plus]
  cases text : line.param 0 with
  | nil => exact ite_self _
  | cons byte =>
    have starts : byte = 0x2D := by
      by_contra different
      simp [text, isPrefixOf, Ne.symm different] at closing
    simp [starts, isPrefixOf]

section

variable (follows : Follows ml session)
include follows

theorem feed_of_outside (foreign : Outside session line) :
    feed ml line = (ml, {}) := by
  obtain ⟨unopened, unclosed, untagged⟩ := foreign
  unfold feed
  rw [unopened]
  cases closing : closesBatch line with
  | some ref =>
    dsimp only
    rw [follows.lookup, unclosed ref closing]
    rfl
  | none =>
    cases tagged : batchTag line with
    | none => rfl
    | some ref =>
      dsimp only [Option.bind_some]
      rw [follows.lookup, untagged closing ref tagged]
      rfl

theorem feed_of_opens (opening : opensBatch line = some ref)
    (room : session.size < maxOpenMLBatches) :
    feed ml line =
      (ml.insert ref (Batch.accum { opening := line }), { consumed := true }) := by
  unfold feed
  rw [opening]
  dsimp only
  rw [if_neg (by rw [follows.size]; exact not_le.mpr room)]
  rfl

theorem feed_of_inside (other : opensBatch line = none)
    (unclosed : closesBatch line = none) (tagged : batchTag line = some ref)
    (found : session.lookup ref = some batch) (fits : (batch.push line).Fits) :
    feed ml line = (ml.insert ref (batch.push line).accum, { consumed := true }) := by
  unfold feed
  rw [other, unclosed, tagged]
  dsimp only [Option.bind_some]
  rw [follows.lookup, found]
  dsimp only [Option.map_some]
  rw [Batch.add_accum fits]

theorem feed_of_closes
    (closing : closesBatch line = some ref) (found : session.lookup ref = some batch) :
    feed ml line = (ml.erase ref, { emit := batch.reassembled, consumed := true }) := by
  unfold feed
  rw [opensBatch_of_closesBatch closing, closing]
  dsimp only
  rw [follows.lookup, found]
  dsimp only [Option.map_some]
  rw [Batch.build_accum]

end

theorem feedAll_cons {next : Multiline} {fed : Fed} (step : feed ml line = (next, fed))
    (rest : List IrcMessage) :
    feedAll ml (line :: rest) = ((feedAll next rest).1, fed :: (feedAll next rest).2) := by
  rw [feedAll, step]

theorem feedAll_of_interleaving {lines : List IrcMessage} {fed : List Fed}
    (interleaving : Interleaving session lines fed) (follows : Follows ml session) :
    (feedAll ml lines).2 = fed := by
  induction interleaving generalizing ml with
  | done => rfl
  | outside foreign _ ih =>
    rw [feedAll_cons (feed_of_outside follows foreign), ih follows]
  | opens opening named _ room _ ih =>
    rw [feedAll_cons (feed_of_opens follows opening room), ih (follows.insert named _)]
  | inside other unclosed tagged found fits _ ih =>
    have named : _ ≠ [] := of_decide_eq_true (Option.filter_eq_some_iff.mp tagged).2
    rw [feedAll_cons (feed_of_inside follows other unclosed tagged found fits),
      ih (follows.insert named _)]
  | closes closing found _ ih =>
    rw [feedAll_cons (feed_of_closes follows closing found), ih (follows.erase _)]

/-! ### The batches the client sends -/

def sentLine (ref target line : Bytes) : IrcMessage :=
  { tags := [(lit "batch", ref)], command := lit "PRIVMSG", params := [target, line] }

theorem continued_sentLine (ref target line : Bytes) :
    Batch.continued (sentLine ref target line) = 0x0A :: line := rfl

theorem joined_sentLines (ref target : Bytes) (lines : List Bytes) :
    Batch.joined (lines.map (sentLine ref target)) = join [0x0A] lines := by
  cases lines with
  | nil => rfl
  | cons first rest =>
    show first ++ (rest.map (sentLine ref target)).flatMap Batch.continued = _
    induction rest generalizing first with
    | nil => exact append_nil _
    | cons second rest ih =>
      rw [map_cons, flatMap_cons, continued_sentLine]
      show first ++ ([0x0A] ++ (second ++ _)) = first ++ [0x0A] ++ join [0x0A] (second :: rest)
      rw [ih second, append_assoc]

theorem messages_sentLines (opening : IrcMessage) (ref target : Bytes) (lines : List Bytes) :
    Batch.messages { opening, inner := lines.map (sentLine ref target) } =
      lines.map (sentLine ref target) := by
  refine filter_eq_self.mpr fun line member => ?_
  obtain ⟨_, -, rfl⟩ := mem_map.mp member
  rfl

theorem joined_length_le :
    (Batch.joined first).length ≤ (Batch.joined (first ++ second)).length := by
  cases first with
  | nil => exact Nat.zero_le _
  | cons line rest =>
    show (line.trailing ++ rest.flatMap Batch.continued).length ≤
      (line.trailing ++ (rest ++ second).flatMap Batch.continued).length
    rw [flatMap_append, ← append_assoc]
    exact (prefix_append _ _).length_le

theorem Batch.Fits.of_append (fits : Batch.Fits { opening, inner := first ++ second }) :
    Batch.Fits { opening, inner := first } := by
  unfold Batch.Fits Batch.messages at fits ⊢
  rw [filter_append] at fits
  refine ⟨?_, joined_length_le.trans fits.2⟩
  exact (prefix_append _ _).length_le.trans fits.1

theorem interleaving_sentLines (named : ref ≠ [])
    (before lines : List Bytes) (found : session.lookup ref =
      some { opening, inner := before.map (sentLine ref target) })
    (fits : Batch.Fits { opening, inner := (before ++ lines).map (sentLine ref target) }) :
    Interleaving session (lines.map (sentLine ref target) ++ [newMsg "BATCH" [lit "-" ++ ref]])
      (lines.map (fun _ => { consumed := true }) ++
        [{ emit := Batch.reassembled
             { opening, inner := (before ++ lines).map (sentLine ref target) }
           consumed := true }]) := by
  induction lines generalizing before session with
  | nil =>
    rw [append_nil]
    exact .closes rfl found (.done _)
  | cons line rest ih =>
    have shift : before ++ line :: rest = before ++ [line] ++ rest := by simp
    have pushed : Batch.push { opening, inner := before.map (sentLine ref target) }
        (sentLine ref target line) =
        { opening, inner := (before ++ [line]).map (sentLine ref target) } := by
      rw [Batch.push, map_append]
      rfl
    rw [shift] at fits ⊢
    refine .inside rfl rfl (Option.filter_eq_some_iff.mpr ⟨rfl, decide_eq_true named⟩) found ?_ ?_
    · rw [pushed]
      rw [map_append] at fits
      exact fits.of_append
    · rw [pushed]
      exact ih (before ++ [line]) (AList.lookup_insert session) fits

theorem interleaving_buildMultilineBatch (named : ref ≠ []) {lines : List Bytes}
    (few : lines.length ≤ maxMLBatchLines) (short : (join [0x0A] lines).length ≤ maxMLBatchBytes) :
    Interleaving ∅ (buildMultilineBatch ref target lines)
      ({ consumed := true } :: lines.map (fun _ => { consumed := true }) ++
        [{ emit := if lines = [] then none else
             some { command := lit "PRIVMSG", params := [target, join [0x0A] lines] }
           consumed := true }]) := by
  have fits : Batch.Fits
      { opening := newMsg "BATCH" [lit "+" ++ ref, lit "draft/multiline", target]
        inner := lines.map (sentLine ref target) } := by
    unfold Batch.Fits
    rw [messages_sentLines, length_map, joined_sentLines]
    exact ⟨few, short⟩
  have rest := interleaving_sentLines named [] lines
    (AList.lookup_insert (∅ : Dict Bytes Batch)) fits
  have emitted : Batch.reassembled
      { opening := newMsg "BATCH" [lit "+" ++ ref, lit "draft/multiline", target]
        inner := lines.map (sentLine ref target) } =
      if lines = [] then none else
        some { command := lit "PRIVMSG", params := [target, join [0x0A] lines] } := by
    unfold Batch.reassembled
    rw [messages_sentLines, joined_sentLines]
    cases lines with
    | nil => rfl
    | cons => rfl
  rw [nil_append, emitted] at rest
  exact .opens rfl named rfl (by decide) rest

/-! ### Limits -/

/-- The line would go over a limit: it opens a batch too many, or the batch it is tagged with has
its lines, or would have too long a body. -/
def Exceeds (ml : Multiline) (line : IrcMessage) : Prop :=
  (opensBatch line).isSome ∧ maxOpenMLBatches ≤ ml.size ∨
    opensBatch line = none ∧ closesBatch line = none ∧ ∃ ref acc,
      batchTag line = some ref ∧ ml.lookup ref = some acc ∧ isMessageLine line = true ∧
      (maxMLBatchLines < acc.lines + 1 ∨ maxMLBatchBytes < (acc.extended line).length)

def WithinLimits (ml : Multiline) : Prop :=
  ml.size ≤ maxOpenMLBatches ∧ ∀ ref acc, ml.lookup ref = some acc →
    acc.lines ≤ maxMLBatchLines ∧ acc.body.length ≤ maxMLBatchBytes

theorem withinLimits_empty : WithinLimits ∅ :=
  ⟨by decide, fun ref acc found => by cases found⟩

theorem add_eq_error_iff (acc : MlAccum) (line : IrcMessage) :
    (∃ problem, acc.add line = .error problem) ↔ isMessageLine line = true ∧
      (maxMLBatchLines < acc.lines + 1 ∨ maxMLBatchBytes < (acc.extended line).length) := by
  unfold MlAccum.add
  cases isMessageLine line with
  | false => simp
  | true =>
    by_cases many : acc.lines + 1 > maxMLBatchLines
    · simp [many]
    · by_cases long : (acc.extended line).length > maxMLBatchBytes
      · simp [many, long]
      · simp only [Bool.not_true, Bool.false_eq_true, if_false, many, long, true_and, or_self,
          iff_false, not_exists]
        exact fun problem equal => by cases equal

theorem length_body_add {acc next : MlAccum} (added : acc.add line = .ok next)
    (within : acc.lines ≤ maxMLBatchLines ∧ acc.body.length ≤ maxMLBatchBytes) :
    next.lines ≤ maxMLBatchLines ∧ next.body.length ≤ maxMLBatchBytes := by
  have small := mt (add_eq_error_iff acc line).mpr fun ⟨problem, failed⟩ => by
    rw [added] at failed
    cases failed
  unfold MlAccum.add at added
  cases carries : isMessageLine line with
  | false =>
    rw [carries] at added
    cases added
    exact within
  | true =>
    have fits := not_or.mp fun large => small ⟨carries, large⟩
    rw [carries, Bool.not_true, if_neg Bool.false_ne_true, if_neg fits.1, if_neg fits.2] at added
    cases added
    exact ⟨not_lt.mp fits.1, not_lt.mp fits.2⟩

section

variable (within : WithinLimits ml)
include within

theorem WithinLimits.insert {acc : MlAccum}
    (room : ml.size < maxOpenMLBatches ∨ (ml.lookup ref).isSome)
    (small : acc.lines ≤ maxMLBatchLines ∧ acc.body.length ≤ maxMLBatchBytes) :
    WithinLimits (ml.insert ref acc) := by
  refine ⟨?_, fun other held found => ?_⟩
  · have size := size_insert ml ref acc
    have before := within.1
    rcases room with room | tracked
    · split_ifs at size <;> omega
    · rw [if_pos tracked] at size
      omega
  · rw [lookup_insert_eq] at found
    split_ifs at found
    · cases found
      exact small
    · exact within.2 other held found

theorem WithinLimits.erase (ref : Bytes) :
    WithinLimits (ml.erase ref) := by
  refine ⟨?_, fun other held found => ?_⟩
  · have size := size_erase ml ref
    have before := within.1
    split_ifs at size <;> omega
  · rw [lookup_erase_eq] at found
    split_ifs at found
    exact within.2 other held found

theorem WithinLimits.feed (line : IrcMessage) :
    WithinLimits (feed ml line).1 := by
  unfold Irc.feed
  cases opensBatch line with
  | some =>
    split_ifs with full
    · exact within
    · exact within.insert (.inl (not_le.mp full)) ⟨Nat.zero_le _, Nat.zero_le _⟩
  | none =>
    cases closesBatch line with
    | some ref =>
      dsimp only
      cases ml.lookup ref with
      | none => exact within
      | some => exact within.erase ref
    | none =>
      cases tracked : (batchTag line).bind fun ref => (ml.lookup ref).map fun acc => (ref, acc) with
      | none => exact within
      | some batch =>
        obtain ⟨ref, acc⟩ := batch
        obtain ⟨_, -, found⟩ := Option.bind_eq_some_iff.mp tracked
        obtain ⟨_, found, equal⟩ := Option.map_eq_some_iff.mp found
        cases equal
        dsimp only
        cases added : acc.add line with
        | error => exact within
        | ok =>
          exact within.insert (.inr (found ▸ rfl)) (length_body_add added (within.2 ref acc found))

end

theorem feed_each {property : MlAccum → Prop}
    (fresh : property { target := line.param 2, source := line.source, tags := line.tags })
    (added : ∀ acc next, property acc → acc.add line = .ok next → property next)
    (each : ∀ ref acc, ml.lookup ref = some acc → property acc) :
    ∀ ref acc, (feed ml line).1.lookup ref = some acc → property acc := by
  have insert : ∀ ref acc, property acc → ∀ other held,
      (ml.insert ref acc).lookup other = some held → property held := by
    intro ref acc good other held found
    rw [lookup_insert_eq] at found
    split at found
    · cases found
      exact good
    · exact each other held found
  unfold Irc.feed
  cases opensBatch line with
  | some ref =>
    dsimp only
    split
    · exact each
    · exact insert ref _ fresh
  | none =>
    cases closesBatch line with
    | some ref =>
      dsimp only
      cases ml.lookup ref with
      | none => exact each
      | some =>
        intro other held found
        rw [lookup_erase_eq] at found
        split at found
        · cases found
        · exact each other held found
    | none =>
      cases tracked : (batchTag line).bind fun ref => (ml.lookup ref).map fun acc => (ref, acc) with
      | none => exact each
      | some batch =>
        obtain ⟨ref, acc⟩ := batch
        obtain ⟨_, -, found⟩ := Option.bind_eq_some_iff.mp tracked
        obtain ⟨held, found, equal⟩ := Option.map_eq_some_iff.mp found
        cases equal
        dsimp only
        cases joined : acc.add line with
        | error => exact each
        | ok next => exact insert ref next (added acc next (each ref acc found) joined)

theorem feed_emit {message : IrcMessage} (emitted : (feed ml line).2.emit = some message) :
    ∃ ref acc, closesBatch line = some ref ∧ ml.lookup ref = some acc ∧
      acc.build = some message := by
  unfold Irc.feed at emitted
  cases opened : opensBatch line with
  | some =>
    rw [opened] at emitted
    dsimp only at emitted
    split at emitted <;> cases emitted
  | none =>
    rw [opened] at emitted
    cases closed : closesBatch line with
    | some ref =>
      rw [closed] at emitted
      dsimp only at emitted
      cases held : ml.lookup ref with
      | none =>
        rw [held] at emitted
        cases emitted
      | some acc =>
        rw [held] at emitted
        exact ⟨ref, acc, rfl, held, emitted⟩
    | none =>
      rw [closed] at emitted
      dsimp only at emitted
      split at emitted
      · cases emitted
      · split at emitted <;> cases emitted

theorem WithinLimits.feedAll (within : WithinLimits ml) (lines : List IrcMessage) :
    WithinLimits (feedAll ml lines).1 := by
  induction lines generalizing ml with
  | nil => exact within
  | cons line _ ih => exact ih (within.feed line)

theorem feed_error_iff :
    (feed ml line).2.error.isSome ↔ Exceeds ml line := by
  unfold feed Exceeds
  cases opensBatch line with
  | some =>
    split_ifs with full <;> simp [full]
  | none =>
    cases closesBatch line with
    | some ref => cases found : ml.lookup ref <;> simp [found]
    | none =>
      cases batchTag line with
      | none => simp
      | some ref =>
        cases found : ml.lookup ref with
        | none => simp [found]
        | some acc =>
          have failure := add_eq_error_iff acc line
          cases added : acc.add line with
          | error problem =>
            have exceeds := failure.mp ⟨problem, added⟩
            simpa [found, added] using exceeds
          | ok =>
            have fits := mt failure.mpr (fun ⟨problem, failed⟩ => by simp [added] at failed)
            simpa [found, added] using fits

/-! ### Reassembly and its bounds -/

/-- Batches with non-empty references are reassembled from every interleaving, and no stream makes
`feed` hold more than the limits, a line that would being refused. -/
theorem multiline_reassembled :
    (∀ lines fed, Interleaving ∅ lines fed → (feedAll ∅ lines).2 = fed) ∧
    (∀ ref target lines, ref ≠ [] → lines.length ≤ maxMLBatchLines →
      (join [0x0A] lines).length ≤ maxMLBatchBytes →
      (feedAll ∅ (buildMultilineBatch ref target lines)).2 =
        { consumed := true } :: lines.map (fun _ => { consumed := true }) ++
          [{ emit := if lines = [] then none else
               some { command := lit "PRIVMSG", params := [target, join [0x0A] lines] }
             consumed := true }]) ∧
    ∀ stream, WithinLimits (feedAll ∅ stream).1 ∧ ∀ line,
      (feed (feedAll ∅ stream).1 line).2.error.isSome ↔ Exceeds (feedAll ∅ stream).1 line := by
  have follows : Follows ∅ ∅ := ⟨fun ref => rfl, rfl, rfl⟩
  refine ⟨fun lines fed interleaving => feedAll_of_interleaving interleaving follows,
    fun ref target lines named few short => ?_,
    fun stream => ⟨withinLimits_empty.feedAll stream, fun line => feed_error_iff⟩⟩
  exact feedAll_of_interleaving (interleaving_buildMultilineBatch named few short) follows

def twoBatches : List IrcMessage :=
  [ { newMsg "BATCH" [lit "+a", lit "draft/multiline", lit "#go"] with
      tags := [(lit "msgid", lit "m1")] },
    newMsg "BATCH" [lit "+b", lit "draft/multiline", lit "#c"],
    sentLine (lit "a") (lit "#go") (lit "one"),
    sentLine (lit "b") (lit "#c") (lit "x"),
    newMsg "PING" [lit "t"],
    { sentLine (lit "a") (lit "#go") (lit "two") with
      tags := [(lit "batch", lit "a"), (concatTag, [])] },
    newMsg "BATCH" [lit "-a"],
    newMsg "BATCH" [lit "-b"] ]

theorem twoBatches_reassembled :
    ((feedAll ∅ twoBatches).2.filterMap (·.emit)).map (·.params) =
      [[lit "#go", lit "onetwo"], [lit "#c", lit "x"]] ∧
    ((feedAll ∅ twoBatches).2.map (·.consumed)) =
      [true, true, true, true, false, true, true, true] := by
  have stream : Interleaving ∅ twoBatches _ :=
    .opens rfl (by decide) rfl (by decide) <|
    .opens rfl (by decide) (by decide) (by decide) <|
    .inside rfl rfl rfl rfl (by decide) <|
    .inside rfl rfl rfl rfl (by decide) <|
    .outside ⟨rfl, nofun, nofun⟩ <|
    .inside rfl rfl rfl rfl (by decide) <|
    .closes rfl rfl <|
    .closes rfl rfl <| .done _
  rw [multiline_reassembled.1 _ _ stream]
  decide

/-- A batch with an empty reference is opened and closed, but none of its lines is taken for one of
its own. -/
theorem multiline_empty_reference :
    (feedAll ∅ (buildMultilineBatch [] (lit "#go") [lit "hi"])).2 =
      [{ consumed := true }, { consumed := false }, { emit := none, consumed := true }] := by
  decide +kernel

end Ircthing.Irc
