/-
This file models the hot ring of one buffer: the newest messages in memory, in cursor order, with
the flag that says whether they are the whole history and the running byte count.
-/

import Ircthing.Store.Schema

namespace Ircthing.Store

open Library List

/-- `msgOverhead`: the fixed cost of a message beyond its strings. -/
def msgOverhead : Nat := 192

def msgBytes (message : Message) : Nat :=
  message.network.length + message.target.length + message.sender.length +
    message.msgID.length + message.command.length + message.raw.length + message.text.length +
    message.redactReason.length + msgOverhead

structure Ring where
  max : Nat
  msgs : List Message := []
  complete : Bool := false
  bytes : Int := 0
  lastUsed : Nat := 0
deriving DecidableEq

/-- The sum of `msgBytes` over some messages. -/
def totalBytes (messages : List Message) : Int := (messages.map fun m => (msgBytes m : Int)).sum

def updateFirst (test : Message → Bool) (rewrite : Message → Message) : List Message → List Message
  | [] => []
  | message :: rest =>
    if test message then rewrite message :: rest else message :: updateFirst test rewrite rest

def Message.scrubbed (message : Message) (reason : Bytes) : Message :=
  { message with redacted := true, redactReason := reason, raw := [], text := [] }

namespace Ring

variable {messages : List Message} {ring : Ring} {test : Message → Bool}
  {rewrite : Message → Message}

/-- `newRing`. -/
def new (max : Nat) : Ring := { max := max }

variable (ring)

def adopt (messages : List Message) : Ring :=
  { ring with msgs := messages, bytes := totalBytes messages }

def insert (message : Message) : Ring × Int :=
  let cursor := message.cursor
  -- an incomplete ring refuses what is older than its oldest entry
  if !ring.complete && ring.msgs.head?.any fun oldest => cursorLess cursor oldest.cursor then
    (ring, 0)
  else
    let index := searchSlice ring.msgs fun other => cursorLess cursor other.cursor
    let msgs := ring.msgs.take index ++ message :: ring.msgs.drop index
    let bytes := ring.bytes + msgBytes message
    if msgs.length > ring.max then
      let evicted : Int := (msgs.head?.map msgBytes).getD 0
      ({ ring with msgs := msgs.drop 1, complete := false, bytes := bytes - evicted },
        bytes - evicted - ring.bytes)
    else ({ ring with msgs := msgs, bytes := bytes }, bytes - ring.bytes)

/-- The loop of `trimToBytes`: how many entries go, and the byte count left. -/
def trimCount (limit : Nat) : Int → List Message → Nat × Int
  | bytes, message :: next :: rest =>
    if bytes > limit then
      let trimmed := trimCount limit (bytes - msgBytes message) (next :: rest)
      (trimmed.1 + 1, trimmed.2)
    else (0, bytes)
  | bytes, _ => (0, bytes)

def trimToBytes (limit : Nat) : Ring × Int :=
  let trimmed := trimCount limit ring.bytes ring.msgs
  if trimmed.1 > 0 then
    ({ ring with msgs := ring.msgs.drop trimmed.1, complete := false, bytes := trimmed.2 },
      trimmed.2 - ring.bytes)
  else ({ ring with bytes := trimmed.2 }, trimmed.2 - ring.bytes)

def pageBefore (cursor : Cursor) (limit : Nat) : List Message × Bool :=
  let index := searchSlice ring.msgs fun message => !cursorLess message.cursor cursor
  let out := (ring.msgs.take index).drop (index - limit)
  (out, ring.complete || out.length == limit)

def pageAfter (cursor : Cursor) (limit : Nat) : List Message × Bool :=
  let index := searchSlice ring.msgs fun message => cursorLess cursor message.cursor
  let out := (ring.msgs.drop index).take limit
  (out, ring.complete || ring.msgs.head?.any fun oldest => !cursorLess cursor oldest.cursor)

def adoptMsgID (id : Nat) (msgid : Bytes) : Ring × Int :=
  match ring.msgs.find? fun message => message.id == id with
  | some message =>
    let delta : Int := msgid.length - message.msgID.length
    ({ ring with
        msgs := updateFirst (fun message => message.id == id)
          (fun message => { message with msgID := msgid }) ring.msgs
        bytes := ring.bytes + delta }, delta)
  | none => (ring, 0)

variable (msgid reason : Bytes)

def redact : Ring × Int :=
  match ring.msgs.find? fun message => message.msgID == msgid with
  | some message =>
    let old : Int :=
      message.raw.length + message.text.length + message.redactReason.length
    let delta : Int := reason.length - old
    ({ ring with
        msgs := updateFirst (fun message => message.msgID == msgid) (·.scrubbed reason) ring.msgs
        bytes := ring.bytes + delta }, delta)
  | none => (ring, 0)

/-- The first half of `applyRetention`: drop what is older than the cutoff. -/
def dropOlder (cutoff : Int) : Ring :=
  if cutoff > 0 then
    let index := searchSlice ring.msgs fun message => cutoff ≤ unixMilli message.time
    if index > 0 then
      { ring with
        msgs := ring.msgs.drop index
        bytes := ring.bytes - totalBytes (ring.msgs.take index)
        complete := false }
    else ring
  else ring

/-- The second half of `applyRetention`: keep only the newest entries. -/
def dropExcess (maxPerBuffer : Nat) : Ring :=
  if maxPerBuffer > 0 ∧ ring.msgs.length > maxPerBuffer then
    let count := ring.msgs.length - maxPerBuffer
    { ring with
      msgs := ring.msgs.drop count
      bytes := ring.bytes - totalBytes (ring.msgs.take count)
      complete := false }
  else ring

def applyRetention (cutoff : Int) (maxPerBuffer : Nat) : Ring × Int :=
  let trimmed := (ring.dropOlder cutoff).dropExcess maxPerBuffer
  (trimmed, trimmed.bytes - ring.bytes)

/-! ### Rewriting in place -/

theorem updateFirst_of_find_none (missing : messages.find? test = none) :
    updateFirst test rewrite messages = messages := by
  induction messages with
  | nil => rfl
  | cons _ _ ih =>
    rw [find?_cons] at missing
    split at missing
    · cases missing
    next fails =>
      rw [updateFirst, if_neg (by rw [fails]; exact Bool.false_ne_true), ih missing]

theorem updateFirst_eq_map
    (single : messages.Pairwise fun first second => ¬ (test first = true ∧ test second = true)) :
    updateFirst test rewrite messages =
      messages.map fun message => if test message then rewrite message else message := by
  induction messages with
  | nil => rfl
  | cons _ rest ih =>
    rw [updateFirst, map_cons]
    split
    next passes =>
      have untouched : ∀ other ∈ rest, (if test other then rewrite other else other) = other :=
        fun other member => if_neg fun also =>
          rel_of_pairwise_cons single member ⟨passes, also⟩
      rw [map_congr_left untouched, map_id']
    · rw [ih (Pairwise.of_cons single)]

theorem updateFirst_cursors (keeps : ∀ message, (rewrite message).cursor = message.cursor) :
    (updateFirst test rewrite messages).map Message.cursor = messages.map Message.cursor := by
  induction messages with
  | nil => rfl
  | cons _ _ ih =>
    rw [updateFirst]
    split
    · rw [map_cons, map_cons, keeps]
    · rw [map_cons, map_cons, ih]

theorem redact_eq :
    (ring.redact msgid reason).1.msgs =
        updateFirst (fun message => message.msgID == msgid) (·.scrubbed reason) ring.msgs ∧
      (ring.redact msgid reason).1.complete = ring.complete ∧
      (ring.redact msgid reason).1.max = ring.max := by
  unfold redact
  split
  · exact ⟨rfl, rfl, rfl⟩
  next missing =>
    exact ⟨(updateFirst_of_find_none missing).symm, rfl, rfl⟩

theorem adoptMsgID_eq (id : Nat) (msgid : Bytes) :
    (ring.adoptMsgID id msgid).1.msgs = updateFirst (fun message => message.id == id)
          (fun message => { message with msgID := msgid }) ring.msgs ∧
      (ring.adoptMsgID id msgid).1.complete = ring.complete ∧
      (ring.adoptMsgID id msgid).1.max = ring.max := by
  unfold adoptMsgID
  split
  · exact ⟨rfl, rfl, rfl⟩
  next missing =>
    exact ⟨(updateFirst_of_find_none missing).symm, rfl, rfl⟩

/-! ### The ring as a window -/

def Sorted : Prop := Ascending Message.cursor ring.msgs

theorem searchSlice_above (sorted : Ascending Message.cursor messages) (cursor : Cursor) :
    (searchSlice messages fun message => cursorLess cursor message.cursor) =
      messages.findIdx fun message => cursor < message.cursor := by
  rw [searchSlice_eq_findIdx]
  · simp only [cursorLess_eq]
  · refine sorted.imp fun order => ?_
    simp only [cursorLess_eq, decide_eq_true_eq]
    exact fun above => lt_of_lt_of_le above order

theorem searchSlice_below (sorted : Ascending Message.cursor messages) (cursor : Cursor) :
    (searchSlice messages fun message => !cursorLess message.cursor cursor) =
      messages.findIdx fun message => !decide (message.cursor < cursor) := by
  rw [searchSlice_eq_findIdx]
  · simp only [cursorLess_eq]
  · refine sorted.imp fun order => ?_
    simp only [cursorLess_eq, Bool.not_eq_true', decide_eq_false_iff_not]
    exact fun notBelow below => notBelow (lt_of_le_of_lt order below)

def Refuses (message : Message) : Prop :=
  ring.complete = false ∧ ∃ oldest ∈ ring.msgs.head?, message.cursor < oldest.cursor

instance (ring : Ring) (message : Message) : Decidable (ring.Refuses message) :=
  decidable_of_iff
    ((!ring.complete && ring.msgs.head?.any fun oldest =>
      cursorLess message.cursor oldest.cursor) = true) <| by
    simp [Refuses, cursorLess_eq, Option.any_eq_true]

variable {ring}

theorem insert_eq (sorted : ring.Sorted) (message : Message) :
    (ring.insert message).1 = if ring.Refuses message then ring
      else
        let placed := place Message.cursor message ring.msgs
        let bytes := ring.bytes + msgBytes message
        if placed.length > ring.max then
          { ring with
            msgs := placed.drop 1
            complete := false
            bytes := bytes - ((placed.head?.map msgBytes).getD 0 : Nat) }
        else { ring with msgs := placed, bytes := bytes } := by
  have refused : ((!ring.complete && ring.msgs.head?.any fun oldest =>
      cursorLess message.cursor oldest.cursor) = true) ↔ ring.Refuses message := by
    simp [Refuses, cursorLess_eq, Option.any_eq_true]
  unfold insert
  dsimp only
  rw [searchSlice_above sorted]
  by_cases refuses : ring.Refuses message
  · rw [if_pos refuses, if_pos (refused.mpr refuses)]
  · rw [if_neg refuses, if_neg (mt refused.mp refuses)]
    exact apply_ite Prod.fst _ _ _

theorem trimToBytes_eq (ring : Ring) (limit : Nat) :
    ∃ count, (ring.trimToBytes limit).1.msgs = ring.msgs.drop count ∧
      (ring.trimToBytes limit).1.complete = (ring.complete && count == 0) ∧
      (ring.trimToBytes limit).1.max = ring.max ∧
      (count = 0 ∨ count < ring.msgs.length) := by
  have bounded : ∀ (messages : List Message) (bytes : Int), (trimCount limit bytes messages).1 = 0 ∨
        (trimCount limit bytes messages).1 < messages.length := by
    intro messages
    induction messages with
    | nil => intro bytes; exact .inl rfl
    | cons head rest ih =>
      intro bytes
      cases rest with
      | nil => exact .inl rfl
      | cons =>
        rw [trimCount]
        split
        · have shorter := ih (bytes - msgBytes head)
          simp only [length_cons] at shorter ⊢
          omega
        · exact .inl rfl
  refine ⟨(trimCount limit ring.bytes ring.msgs).1, ?_, ?_, ?_, bounded _ _⟩ <;>
    unfold trimToBytes <;> dsimp only <;> split <;> rename_i dropped <;> try rfl
  · rw [Nat.eq_zero_of_not_pos dropped, drop_zero]
  · simp [Nat.ne_of_gt dropped]
  · simp [Nat.eq_zero_of_not_pos dropped]

theorem pageBefore_eq (sorted : ring.Sorted) (cursor : Cursor) (limit : Nat) :
    ring.pageBefore cursor limit = (pageBelow Message.cursor cursor limit ring.msgs,
        ring.complete || (pageBelow Message.cursor cursor limit ring.msgs).length == limit) := by
  unfold pageBefore pageBelow rtake
  dsimp only
  rw [searchSlice_below sorted, sorted.take_findIdx]
  have length : (ring.msgs.filter fun message => message.cursor < cursor).length =
      ring.msgs.findIdx fun message => !decide (message.cursor < cursor) := by
    rw [← sorted.take_findIdx, length_take]
    exact Nat.min_eq_left findIdx_le_length
  rw [length]

theorem pageAfter_eq (sorted : ring.Sorted) (cursor : Cursor) (limit : Nat) :
    ring.pageAfter cursor limit = (pageAbove Message.cursor cursor limit ring.msgs,
        ring.complete || ring.msgs.head?.any fun oldest => oldest.cursor ≤ cursor) := by
  unfold pageAfter pageAbove
  dsimp only
  rw [searchSlice_above sorted, sorted.drop_findIdx]
  simp only [cursorLess_eq, ← decide_not, not_lt]

theorem applyRetention_eq (ring : Ring) (cutoff : Int) (maxPerBuffer : Nat) :
    ∃ count, (ring.applyRetention cutoff maxPerBuffer).1.msgs = ring.msgs.drop count ∧
      (ring.applyRetention cutoff maxPerBuffer).1.complete = (ring.complete && count == 0) ∧
      (ring.applyRetention cutoff maxPerBuffer).1.max = ring.max := by
  have older : ∃ count, (ring.dropOlder cutoff).msgs = ring.msgs.drop count ∧
      (ring.dropOlder cutoff).complete = (ring.complete && count == 0) ∧
      (ring.dropOlder cutoff).max = ring.max := by
    unfold dropOlder
    dsimp only
    split
    · split
      next dropped =>
        exact ⟨_, rfl, by simp [Nat.ne_of_gt dropped], rfl⟩
      · exact ⟨0, rfl, by simp, rfl⟩
    · exact ⟨0, rfl, by simp, rfl⟩
  obtain ⟨first, msgs, complete, max⟩ := older
  unfold applyRetention dropExcess
  dsimp only
  split
  next dropped =>
    refine ⟨first + ((ring.dropOlder cutoff).msgs.length - maxPerBuffer), ?_, ?_, max⟩
    · rw [msgs, drop_drop]
    · simp
      omega
  · exact ⟨first, msgs, complete, max⟩

end Ring

end Ircthing.Store
