/-
This file models the operations on the history of a buffer: appending a message, marking one
redacted, stamping a replayed id onto our own placeholder, and reading pages.
-/

import Ircthing.Store.State

namespace Ircthing.Store

open Library

/-! ### Appending -/

def clampMsgID (msgid : Bytes) : Bytes := clampUTF8 msgid maxStoredFieldBytes

def nullString (text : Bytes) : Option Bytes := if text = [] then none else some text

structure AppendOpts where
  create : Bool := false
  fold : Option (Bytes → Bytes) := none
  guardCreate : Option (Bool → Bool) := none
  unarchive : Bool := false

/-- The message as `append` bounds it before storing. -/
def Message.clamped (message : Message) (now : Int) : Message :=
  { message with
    time := if message.time = zeroTime then now else message.time
    raw := clampUTF8 message.raw maxStoredMessageBytes
    text := clampUTF8 message.text maxStoredMessageBytes
    sender := clampUTF8 message.sender maxStoredFieldBytes
    msgID := clampUTF8 message.msgID maxStoredFieldBytes
    command := clampUTF8 message.command maxStoredFieldBytes
    redactReason := clampUTF8 message.redactReason maxStoredFieldBytes }

variable (tables : Tables)

/-- The buffer already holds a message with this msgid, so that `INSERT OR IGNORE` drops the
new one. -/
def Tables.hasMsgid (buffer : Nat) (msgid : Bytes) : Bool :=
  tables.messages.any fun row => row.bufferId = buffer ∧ row.msgid = some msgid

/-- The row `insertTx` writes. -/
def Message.row (message : Message) (buffer : Nat) : MessageRow :=
  { id := message.id
    bufferId := buffer
    ts := unixMilli message.time
    msgid := nullString message.msgID
    sender := message.sender
    command := message.command
    raw := message.raw
    text := nullString message.text }

/-- The message as `insertTx` returns it, with the id of its row. -/
def Tables.stored (message : Message) : Message :=
  { message with id := nextId (tables.messages.map (·.id)) }

/-- `insertTx` on the tables. -/
def Tables.insertMessage (buffer : Nat) (message : Message) : Tables :=
  { tables with messages := tables.messages ++ [(tables.stored message).row buffer] }

/-- `applyArchiveTx` on the tables: whether the buffer is still archived, and the tables. -/
def Tables.applyArchive (buffer : Nat) (unarchive : Bool) : Bool × Tables :=
  if unarchive then
    (false, { tables with
      buffers := tables.buffers.map fun row =>
        if row.id = buffer then { row with archived := false } else row })
  else
    ((tables.buffers.find? fun row => row.id = buffer).any (·.archived), tables)

def refreshRing (store : Store) (id : Nat) (operation : Ring → Ring × Int) : Store :=
  match store.rings.lookup id with
  | some _ => ((store.updateRing id operation).touchRing id).evictRings id
  | none => store

variable (fault : Fault)

def commitAppendLocked (buffer : Nat) (message : Message) (unarchive : Bool) :
    Action (Message × Bool) := do
  attempt fault .begin
  attempt fault .insertMessage
  let store ← get
  if message.msgID ≠ [] ∧ store.db.hasMsgid buffer message.msgID then pure ({}, false)
  else if buffer ∉ store.db.buffers.map (·.id) then throw (.statement .insertMessage)
  else
    let stored := store.db.stored message
    attempt fault .settleArchived
    let settled := (store.db.insertMessage buffer message).applyArchive buffer unarchive
    execute fault .commit settled.2
    modify fun store => store.refreshRing buffer fun ring => ring.insert stored
    pure (stored, settled.1)

variable (network target : Bytes)

def appendVetoed (guardCreate : Bool → Bool) :
    Action Bool := do
  let id ← bufferID fault network target false
  pure (guardCreate id.isSome)

/-- The veto of `append`: no guard never vetoes. -/
def guarded (guardCreate : Option (Bool → Bool)) : Action Bool :=
  match guardCreate with
  | none => pure false
  | some test => appendVetoed fault network target test

/-- The target `append` and `AdoptOwnMsgID` resolve under a fold. -/
def resolveTarget (fold : Option (Bytes → Bytes)) : Action Bytes :=
  match fold with
  | none => pure target
  | some _ => do
    let resolved ← canonicalLocked fault network target fold
    pure resolved.1

/-- `append`. The zero message reports that nothing was stored. The lookups of the guard have faults
of their own. -/
def append (fault vetoFault : Fault) (now : Int) (network target : Bytes) (message : Message)
    (opts : AppendOpts) : Action (Message × Bool) := do
  if network = [] ∨ target = [] then
    throw (.message "store: network and target must be non-empty")
  else
    let target ← resolveTarget fault network (clampUTF8 target maxStoredFieldBytes) opts.fold
    let message := { message.clamped now with network := network, target := target }
    if ← guarded vetoFault network target opts.guardCreate then pure ({}, false)
    else
      match ← bufferAndRing fault network target opts.create with
      | none => pure ({}, false)
      | some buffer => commitAppendLocked fault buffer message opts.unarchive

/-! ### Redaction and adoption -/

/-- The row `SetRedacted` finds: the newest one by id that is not redacted yet. -/
def Tables.redactable (buffer : Nat) (msgid : Bytes) : Option MessageRow :=
  (((tables.rowsOf buffer).filter fun row =>
    row.msgid = some msgid ∧ row.redacted = false).insertionSort
      fun first second => second.id ≤ first.id).head?

def Tables.updateMessage (id : Nat) (rewrite : MessageRow → MessageRow) : Tables :=
  { tables with
    messages := tables.messages.map fun row => if row.id = id then rewrite row else row }

def MessageRow.scrubbed (row : MessageRow) (reason : Bytes) : MessageRow :=
  { row with raw := [], text := none, redacted := true, redactReason := nullString reason }

def setRedacted (network target msgid reason : Bytes) : Action Bool := do
  if msgid = [] then pure false
  else
    let msgid := clampMsgID msgid
    match ← bufferID fault network target false with
    | none => pure false
    | some buffer =>
      let reason := clampUTF8 reason maxStoredFieldBytes
      attempt fault .selectRedactable
      let store ← get
      match store.db.redactable buffer msgid with
      | none => pure false
      | some row =>
        attempt fault .begin
        attemptWhen fault (row.text.getD [] ≠ []) .deleteIndexed
        attempt fault .scrub
        execute fault .commit (store.db.updateMessage row.id (·.scrubbed reason))
        modify fun store => store.refreshRing buffer fun ring => ring.redact msgid reason
        pure true

structure OwnMsg where
  network : Bytes
  target : Bytes
  sender : Bytes
  text : Bytes
  msgID : Bytes
  sinceMs : Int
deriving DecidableEq

/-- The placeholder `AdoptOwnMsgID` finds: the oldest msgid-less row of the sender with the
text, not older than the bound. -/
def Tables.placeholder (buffer : Nat) (sender text : Bytes) (sinceMs : Int) : Option MessageRow :=
  (oldestFirst ((tables.rowsOf buffer).filter fun row =>
    row.msgid = none ∧ row.sender = sender ∧ row.text = some text ∧ row.ts ≥ sinceMs)).head?

def adoptOwnMsgID (msg : OwnMsg) (fold : Option (Bytes → Bytes)) :
    Action Bool := do
  if msg.msgID = [] ∨ msg.text = [] ∨ msg.sender = [] then pure false
  else
    let msgid := clampMsgID msg.msgID
    let text := clampUTF8 msg.text maxStoredMessageBytes
    let target ← resolveTarget fault msg.network msg.target fold
    match ← bufferID fault msg.network target false with
    | none => pure false
    | some buffer =>
      attempt fault .selectMsgid
      let store ← get
      if store.db.hasMsgid buffer msgid then pure false
      else
        attempt fault .selectPlaceholder
        match store.db.placeholder buffer msg.sender text msg.sinceMs with
        | none => pure false
        | some row =>
          execute fault .stampMsgid
            (store.db.updateMessage row.id fun row => { row with msgid := some msgid })
          modify fun store => store.refreshRing buffer fun ring => ring.adoptMsgID row.id msgid
          pure true

/-! ### Reading pages -/

def defaultPageSize : Nat := 100

def maxPageSize : Nat := 500

def clampLimit (limit : Int) : Nat :=
  if limit ≤ 0 then defaultPageSize else if limit > maxPageSize then maxPageSize else limit.toNat

variable (cursor : Cursor)

def before (limit : Int) :
    Action (List Message) := do
  match ← bufferAndRing fault network target false with
  | none => pure []
  | some buffer =>
    let store ← get
    match store.rings.lookup buffer with
    | none => pure []
    | some ring =>
      let page := ring.pageBefore cursor (clampLimit limit)
      if page.2 then pure page.1
      else
        attempt fault .queryPage
        pure ((store.db.queryBefore buffer cursor (clampLimit limit)).map
          (·.message network target)).reverse

def after (limit : Int) :
    Action (List Message) := do
  match ← bufferAndRing fault network target false with
  | none => pure []
  | some buffer =>
    let store ← get
    match store.rings.lookup buffer with
    | none => pure []
    | some ring =>
      let page := ring.pageAfter cursor (clampLimit limit)
      if page.2 then pure page.1
      else
        attempt fault .queryPage
        pure ((store.db.queryAfter buffer cursor (clampLimit limit)).map (·.message network target))

def latest (limit : Int) : Action (List Message) :=
  before fault network target maxCursor limit

end Ircthing.Store
