/-
This file models how the hub stores what it receives and sends: the lines of a connection, QUIT and
NICK lines of shared channels, the local echo of our own messages, and redactions. The steps of a
job are kept apart, since the store lock is held for each of them.
-/

import Ircthing.Hub.HistoryPage
import Ircthing.Hub.Routing
import Ircthing.Hub.Tombstones

namespace Ircthing.Hub

open Library Irc Store Effect
open Store (Fault StoreError)

/-! ### The hub -/

inductive Frame
  | event (data : EventData)
  | redact (network buffer msgID redactor reason : Bytes)
  | bufferClosed (network buffer : Bytes) (purge : Bool)
deriving DecidableEq

structure HubState where
  store : Store
  tombstones : Tombstones := {}
  frames : List Frame := []

abbrev HubAction := Effect StoreError HubState

def onStore {Value : Type} (program : Store.Action Value) : HubAction Value :=
  zoom HubState.store (fun hub store => { hub with store := store }) program

def broadcast (frame : Frame) (hub : HubState) : HubState :=
  { hub with frames := hub.frames ++ [frame] }

/-- Which statements fail in the operations of a job: the lookups of the routing, the adoption, the
append, and the lookup of its guard. -/
structure Faults where
  route : Fault := noFault
  adopt : Fault := noFault
  append : Fault := noFault
  veto : Fault := noFault

/-! ### Jobs -/

/-- The guard of an append: none, one that never vetoes, one that drops what comes after a close,
and one that also refuses to create the buffer. -/
inductive Guard
  | unguarded
  | passing
  | straggler
  | partEcho
deriving DecidableEq

def Guard.test (guard : Guard) (recentlyClosed : Bool) : Option (Bool → Bool) :=
  match guard with
  | .unguarded => none
  | .passing => some fun _ => false
  | .straggler => some fun _ => recentlyClosed
  | .partEcho => some fun present => !present || recentlyClosed

structure Job where
  network : Bytes
  target : Bytes
  fold : Bytes → Bytes
  message : Message
  replay : Bool
  reopens : Bool
  adopts : Option OwnMsg
  guard : Guard
  unarchive : Bool

namespace Job

variable (job : Job)

/-- `unmarkClosed` where the job asks for it. -/
def reopen (hub : HubState) : HubState :=
  if job.reopens then
    { hub with tombstones := hub.tombstones.unmarkClosed job.network (job.fold job.target) }
  else hub

/-- `adoptReplayedOwn` where the job asks for it. A failure is logged. -/
def adopt (fault : Fault) : HubAction Unit :=
  match job.adopts with
  | none => pure ()
  | some own => do
    let _ ← recover (onStore (adoptOwnMsgID fault own (some job.fold)))

/-- `AppendFoldedGuardedArchive`, `AppendFoldedGuarded` or `AppendFolded`: the message to announce,
if it was stored and its buffer does not stay archived. -/
def append (job : Job) (fault veto : Fault) (now : Int) : HubAction (Option Message) := do
  let hub ← get
  let closed := hub.tombstones.recentlyClosed job.network (job.fold job.target) (unixMilli now)
  let answer ← recover (onStore (Store.append fault veto now job.network job.target job.message
    { create := true
      fold := some job.fold
      guardCreate := job.guard.test closed
      unarchive := job.unarchive }))
  match answer with
  | none => pure none
  | some (stored, stillArchived) =>
    pure (if stored.id = 0 ∨ stillArchived = true then none else some stored)

def publish (stored : Message) (hub : HubState) : HubState :=
  if job.replay then hub else broadcast (.event (eventData stored)) hub

def perform (faults : Faults) (now : Int) : HubAction (Option Message) := do
  modify job.reopen
  job.adopt faults.adopt
  match ← job.append faults.append faults.veto now with
  | none => pure none
  | some stored =>
    modify (job.publish stored)
    pure (some stored)

end Job

/-! ### Lines of the connection -/

def ownDedupWindow : Int := 10 * 60 * 10 ^ 9

def unarchivePolicy (command : Bytes) (own replay : Bool) : Bool :=
  if command = lit "JOIN" then own && !replay
  else if [lit "PART", lit "QUIT", lit "NICK", lit "MODE", lit "KICK"].contains command then false
  else !replay

variable (env : Env) (now : Int)

/-- The message `adoptReplayedOwn` looks a placeholder up for. -/
def replayedOwn (ev : Event) (target : Bytes) : Option OwnMsg :=
  if isConversation ev.line && ev.line.source.isSome && msgidOf ev.line != [] then
    some
      { network := ev.network
        target := target
        sender := senderOf ev.line
        text := searchText ev.line
        msgID := msgidOf ev.line
        sinceMs := unixMilli (messageTime env now ev - ownDedupWindow) }
  else none

def graceGuard (conn : Conn) (target : Bytes) (selfPart replay : Bool) : Guard :=
  if selfPart then .partEcho
  else if replay || conn.isChannel target then .straggler
  else .passing

/-- The job of `persistEvent` for a line with a buffer. -/
def eventJob (conn : Conn) (ev : Event) (replay : Bool) (target : Bytes) : Job :=
  let own := ownLine ev.line conn.nick conn.fold
  { network := ev.network
    target := target
    fold := conn.fold
    message := storeMessage env now ev
    replay := replay
    reopens := own && !replay && ev.line.command = lit "JOIN"
    adopts :=
      if replay && !conn.echoMessage && isConversation ev.line then replayedOwn env now ev target
      else none
    guard := graceGuard conn target (own && ev.line.command = lit "PART") replay
    unarchive := unarchivePolicy ev.line.command own replay }

/-- `publishPersisted` on the batch: a replayed line in the server buffer flags it. -/
def flagStar (target : Bytes) (published : Option Message) (batch : Option Batch) : Option Batch :=
  if published.isSome && target = serverBufferTarget then
    batch.map fun batch => { batch with starTouched := true }
  else batch

variable (faults : Faults)

def persistEvent (now : Int) (conn : Conn) (ev : Event)
    (batch : Option Batch) : HubAction (Option Batch) := do
  match ← onStore (persistBuffer faults.route conn ev batch) with
  | none => pure batch
  | some target =>
    let published ← (eventJob env now conn ev batch.isSome target).perform faults now
    pure (flagStar target published batch)

/-! ### QUIT and NICK -/

/-- The job of `persistMembershipLine`. -/
def membershipJob (conn : Conn) (ev : Event) (replay : Bool) (target : Bytes) : Job where
  network := ev.network
  target := target
  fold := conn.fold
  message := storeMessage env now ev
  replay := replay
  reopens := false
  adopts := none
  guard := .straggler
  unarchive := false

/-! ### Local echo -/

/-- The line `persistOwn` stores. -/
def ownPrivmsg (target text : Bytes) : IrcMessage := newMsg "PRIVMSG" [target, text]

/-- The job of `persistOwn`. -/
def ownJob (conn : Conn) (network target text : Bytes) : Job :=
  let buffer := stripStatusPrefix target conn.statusPrefixes conn.isChannel
  { network := network
    target := buffer
    fold := conn.fold
    message :=
      { time := now
        sender := conn.nick
        command := lit "PRIVMSG"
        raw := env.render (ownPrivmsg target text)
        text := searchText (ownPrivmsg target text) }
    replay := false
    reopens := !conn.isChannel buffer
    adopts := none
    guard := if conn.isChannel buffer then .straggler else .unguarded
    unarchive := true }

def persistOwn (known : Bool) (now : Int) (conn : Conn)
    (network target text : Bytes) : HubAction (Option Message) :=
  if known then (ownJob env now conn network target text).perform faults now else pure none

/-! ### Redactions -/

def clampServerInfo (text : Bytes) : Bytes := clampUTF8 text maxServerInfoBytes

variable (fault : Fault)

end Ircthing.Hub
