/-
This file models where the hub files a message: the buffer a live line belongs to, the buffer a
replayed one belongs to, and the buffer a redaction is looked up in.
-/

import Ircthing.Irc.ISupport
import Ircthing.Store.History

namespace Ircthing.Hub

open Library Irc Store
open Store (Fault Action)

/-! ### Connections and events -/

structure Conn where
  isup : ISupport := {}
  nick : Bytes := []
  echoMessage : Bool := false
deriving DecidableEq

namespace Conn

def isChannel (conn : Conn) (target : Bytes) : Bool := conn.isup.isChannel target

def fold (conn : Conn) (name : Bytes) : Bytes := conn.isup.fold name

def statusPrefixes (conn : Conn) : Bytes := (conn.isup.raw.lookup (lit "STATUSMSG")).getD []

end Conn

structure Event where
  network : Bytes
  line : IrcMessage
  time : Int := zeroTime
  affected : List Bytes := []
deriving DecidableEq

/-- `histBatch`: the replay that a line is part of. -/
structure Batch where
  target : Bytes
  starTouched : Bool := false
deriving DecidableEq

/-- What the libraries of the source compute: the instant that `time.Parse` reads, and the line
that `Message.String` writes. -/
structure Env where
  parseTime : Bytes → Option Int
  render : IrcMessage → Bytes

def maxServerInfoBytes : Nat := 2048

def serverBufferTarget : Bytes := lit "*"

variable (line : IrcMessage)

def isConversation : Bool :=
  line.command = lit "PRIVMSG" || line.command = lit "NOTICE"

/-! ### Queries -/

variable (fault : Fault) (network target : Bytes)

def findBuffer (fold : Bytes → Bytes) :
    Action (Option Bytes) := do
  attempt fault .scanBufferNames
  let store ← get
  pure (store.db.foldedName network target fold)

def bufferState : Action (Option Bool) := do
  match ← bufferID fault network target false with
  | none => pure none
  | some id =>
    attempt fault .selectBuffer
    let store ← get
    match store.db.buffers.find? fun row => row.id = id with
    | none => throw (.statement .selectBuffer)
    | some row => pure (some row.archived)

/-- `queryOpenFn`: an unarchived query with the nick. A failed lookup is none. -/
def queryOpen (conn : Conn) (network nick : Bytes) : Action Bool := do
  let answer ← Effect.recover do
    match ← findBuffer fault network nick conn.fold with
    | none => pure false
    | some name =>
      if conn.isChannel name then pure false
      else
        match ← bufferState fault network name with
        | none => pure true
        | some archived => pure (!archived)
  pure (answer.getD false)

/-! ### Live lines -/

def stripStatusPrefix (target statusPrefixes : Bytes) (isChan : Bytes → Bool) : Bytes :=
  match target with
  | [] => []
  | first :: rest =>
    if rest ≠ [] ∧ statusPrefixes.contains first ∧ isChan rest then rest else first :: rest

def isProbe (body : Bytes) : Bool :=
  hasPrefix body [0x01] && !hasPrefix body (0x01 :: lit "ACTION")

def ownLine (ourNick : Bytes) (fold : Bytes → Bytes) : Bool :=
  line.source.any fun source => ourNick ≠ [] && fold source.name == fold ourNick

def noticeTarget (target ourNick : Bytes) (fold : Bytes → Bytes)
    (queryOpen : Bytes → Action Bool) : Action (Option Bytes) := do
  if ownLine line ourNick fold then
    pure (if target ≠ [] ∧ fold target ≠ fold ourNick then some target else none)
  else if target = serverBufferTarget ∨ ourNick = [] ∨ fold target = fold ourNick then
    if senderOf line ≠ [] then
      if ← queryOpen (senderOf line) then pure (some (senderOf line))
      else pure (some serverBufferTarget)
    else pure (some serverBufferTarget)
  else pure none

variable (conn : Conn)

def directTarget (line : IrcMessage) (queryOpen : Bytes → Action Bool) : Action (Option Bytes) :=
  let target := stripStatusPrefix (line.param 0) conn.statusPrefixes conn.isChannel
  if isProbe line.trailing then pure none
  else if conn.isChannel target then pure (some target)
  else if line.command = lit "NOTICE" then
    noticeTarget line target conn.nick conn.fold queryOpen
  else if senderOf line = [] ∨ conn.nick = [] then pure none
  else if conn.fold target = conn.fold conn.nick then pure (some (senderOf line))
  else if conn.fold (senderOf line) = conn.fold conn.nick ∧ target ≠ [] then pure (some target)
  else pure none

def persistTarget (line : IrcMessage) (queryOpen : Bytes → Action Bool) : Action (Option Bytes) :=
  if isConversation line then directTarget conn line queryOpen
  else if [lit "JOIN", lit "PART", lit "TOPIC", lit "KICK", lit "MODE"].contains line.command then
    pure (if conn.isChannel (line.param 0) then some (line.param 0) else none)
  else pure none

/-! ### Replayed lines -/

def replayTarget (line : IrcMessage) (batchTarget : Bytes) : Option Bytes :=
  let target := stripStatusPrefix batchTarget conn.statusPrefixes conn.isChannel
  if isProbe line.trailing ∨ target = [] then none else some target

def persistBuffer (conn : Conn) (ev : Event) (batch : Option Batch) : Action (Option Bytes) :=
  match batch with
  | some batch =>
    if batch.target ≠ [] ∧ isConversation ev.line then
      pure (replayTarget conn ev.line batch.target)
    else persistTarget conn ev.line (queryOpen fault conn ev.network)
  | none => persistTarget conn ev.line (queryOpen fault conn ev.network)

/-! ### The stored form of a line -/

def serverTimeSkew : Int := 5 * 60 * 10 ^ 9

def messageTime (env : Env) (now : Int) (ev : Event) : Int :=
  match (ev.line.tag (lit "time")).bind env.parseTime with
  | some time =>
    let received := if ev.time = zeroTime then now else ev.time
    if time ≤ received + serverTimeSkew then time else ev.time
  | none => ev.time

def ctcpAction (body : Bytes) : Option Bytes :=
  (cutPrefix body (0x01 :: lit "ACTION ")).map fun text => trimSuffix text [0x01]

def searchText : Bytes :=
  if isConversation line then
    match ctcpAction line.trailing with
    | some action => action
    | none => if line.trailing.head? = some 0x01 then [] else line.trailing
  else []

/-- The `msgid` tag of a line. -/
def msgidOf : Bytes := (line.tag (lit "msgid")).getD []

def storeMessage (env : Env) (now : Int) (ev : Event) : Message where
  time := messageTime env now ev
  msgID := msgidOf ev.line
  sender := senderOf ev.line
  command := ev.line.command
  raw := env.render ev.line
  text := searchText ev.line

end Ircthing.Hub
