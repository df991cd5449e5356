/-
This file models the roster of one connection: the channels the client is in, with their topics and
members, as the lines of the server describe them. The lines of a history batch do not touch the
roster.
-/

import Ircthing.Irc.ISupport
import Mathlib.Logic.Relation

namespace Ircthing.Irc

open Library

/-! ### Members and channels -/

def maxRosterField : Nat := 512

def clampRoster (text : Bytes) : Bytes := clampUTF8 text maxRosterField

structure Limits where
  maxRosterChannels : Nat := 4096
  maxChannelMembers : Nat := 25000
  maxRosterMembers : Nat := 100000
  maxRosterBytes : Nat := 8388608

def memberOverhead : Nat := 96

structure Member where
  nick : Bytes
  status : Bytes := []
  away : Bool := false
  account : Bytes := []
  bot : Bool := false
  user : Bytes := []
  host : Bytes := []
deriving DecidableEq

def memberBytes (key : Bytes) (member : Member) : Int :=
  ↑(key.length + member.nick.length + member.status.length + member.account.length +
    member.user.length + member.host.length + memberOverhead)

structure ChannelState where
  name : Bytes
  topic : Bytes := []
  members : Dict Bytes Member := ∅
  pending : Option (Dict Bytes Member) := none
  bytes : Int := 0
deriving DecidableEq

inductive Half
  | members
  | pending
deriving DecidableEq

namespace ChannelState

variable (st : ChannelState)

def half : Half → Dict Bytes Member
  | .members => st.members
  | .pending => st.pending.getD ∅

def setHalf : Half → Dict Bytes Member → ChannelState
  | .members, map => { st with members := map }
  | .pending, map => { st with pending := some map }

variable (half : Half) (key : Bytes) (member : Member)

/-- The byte delta that `put` returns. -/
def putDelta : Int :=
  memberBytes key member - (st.half half).weightAt memberBytes key

def put : ChannelState :=
  { st.setHalf half ((st.half half).insert key member) with
    bytes := st.bytes + st.putDelta half key member }

def del : ChannelState :=
  match (st.half half).lookup key with
  | none => st
  | some old =>
    { st.setHalf half ((st.half half).erase key) with bytes := st.bytes - memberBytes key old }

/-- What `recomputeBytes` counts. -/
def countedBytes : Int :=
  st.topic.length + (st.half .members).total memberBytes + (st.half .pending).total memberBytes

def recomputeBytes : ChannelState := { st with bytes := st.countedBytes }

def retopic (topic : Bytes) : ChannelState :=
  { st with topic, bytes := st.bytes + (topic.length - st.topic.length) }

def collectNames : ChannelState :=
  { st with pending := some (st.half .pending) }

def count : Nat := (st.half .members).size + (st.half .pending).size

end ChannelState

abbrev Roster := Dict Bytes ChannelState

namespace Roster

def totalBytes (roster : Roster) : Int := roster.total fun _ st => st.bytes

def totalMembers (roster : Roster) : Int := roster.total fun _ st => st.count

end Roster

/-! ### The handlers of the lines -/

section Handlers

variable (limits : Limits) (isup : ISupport)

def foldKey (name : Bytes) : Bytes := isup.fold (clampRoster name)

variable (roster : Roster)

def overBytes : Bool := limits.maxRosterBytes ≤ roster.totalBytes

def setTopic (channel topic : Bytes) : Roster :=
  roster.modify (foldKey isup channel) fun st =>
    let text := clampRoster topic
    if st.topic.length < text.length ∧ overBytes limits roster then st
    else st.retopic text

def memberLeft (channel nick : Bytes) (ours : Bool) : Roster :=
  if ours then roster.erase (foldKey isup channel)
  else
    roster.modify (foldKey isup channel) fun st =>
      (st.del .members (foldKey isup nick)).del .pending (foldKey isup nick)

def membersPart (channels nick : Bytes) (ours : Bool) : Roster :=
  (splitByte 0x2C channels).foldl (fun roster channel => memberLeft isup roster channel nick ours)
    roster

def isUs (ourNick nick : Bytes) : Bool := ourNick ≠ [] && isup.fold nick = isup.fold ourNick

variable (line : IrcMessage)

def kicks : List (Bytes × Bytes) :=
  let channels := splitByte 0x2C (line.param 0)
  let victims := splitByte 0x2C (line.param 1)
  if channels.length = victims.length then channels.zip victims
  else victims.map fun victim => (channels.headD [], victim)

def membersKick (line : IrcMessage) (ourNick : Bytes) : Roster :=
  (kicks line).foldl
    (fun roster kick => memberLeft isup roster kick.1 kick.2 (isUs isup ourNick kick.2)) roster

def memberQuit (sender : Bytes) : Roster :=
  roster.mapEntries fun _ st =>
    (st.del .members (foldKey isup sender)).del .pending (foldKey isup sender)

def splitNamesPrefix (symbols raw : Bytes) : Bytes × Bytes × Bytes × Bytes :=
  let statuses := raw.takeWhile symbols.contains
  let (nick, mask, masked) := cut (raw.dropWhile symbols.contains) 0x21
  if masked then
    let (user, host, _) := cut mask 0x40
    (statuses, nick, user, host)
  else (statuses, nick, [], [])

def namesMember (raw : Bytes) : Member :=
  let (statuses, nick, user, host) := splitNamesPrefix isup.prefixSymbols raw
  { nick := clampRoster nick, status := clampRoster statuses, user := clampRoster user,
    host := clampRoster host }

/-- The loop of `namesReply`, with what is left of the member budget and of the byte budget. -/
def namesLoop : ChannelState → Int → Int → List Bytes → ChannelState
  | st, _, _, [] => st
  | st, budget, bytesLeft, raw :: rest =>
    if limits.maxChannelMembers ≤ (st.half .pending).size ∨ budget ≤ 0 ∨ bytesLeft ≤ 0 then st
    else
      let member := namesMember isup raw
      let key := isup.fold member.nick
      -- only a new nick takes from the member budget
      let budget := if ((st.half .pending).lookup key).isSome then budget else budget - 1
      namesLoop (st.put .pending key member) budget (bytesLeft - st.putDelta .pending key member)
        rest

def namesReply (line : IrcMessage) : Roster :=
  roster.modify (foldKey isup (line.param 2)) fun st =>
    namesLoop limits isup st.collectNames (limits.maxRosterMembers - roster.totalMembers)
      (limits.maxRosterBytes - roster.totalBytes) (fields (line.param 3))

def mergeKnown (known : Option Member) (member : Member) : Member :=
  match known with
  | none => member
  | some old =>
    let member := { member with away := old.away, account := old.account, bot := old.bot }
    if member.user = [] ∧ member.host = [] then { member with user := old.user, host := old.host }
    else member

variable (st : ChannelState)

/-- The swap of `namesEnd` in its channel. -/
def ChannelState.swapNames : ChannelState :=
  match st.pending with
  | none => st
  | some pending =>
    { st with
      members := pending.mapEntries fun key member => mergeKnown (st.members.lookup key) member
      pending := none }.recomputeBytes

def namesEnd (line : IrcMessage) : Roster :=
  roster.modify (foldKey isup (line.param 1)) ChannelState.swapNames

def joinChannel (channel : Bytes) (ours : Bool) : Option (Roster × ChannelState) :=
  match roster.lookup (isup.fold channel) with
  | some st => some (roster, st)
  | none =>
    if !ours || limits.maxRosterChannels ≤ roster.size then none
    else
      let st : ChannelState := { name := channel }
      some (roster.insert (isup.fold channel) st, st)

def joinMember (nick : Bytes) : Member :=
  let account := line.param 1
  { nick
    user := clampRoster (line.source.elim [] (·.user))
    host := clampRoster (line.source.elim [] (·.host))
    account := if 3 ≤ line.params.length ∧ account ≠ lit "*" then clampRoster account else [] }

/-- The guards of `memberJoin`: a new member needs room under every ceiling, and a known one may not
grow once the roster is over its bytes. -/
def joinRefused (key : Bytes) (member : Member) : Bool :=
  match st.members.lookup key with
  | none =>
    limits.maxChannelMembers ≤ st.members.size ||
      limits.maxRosterMembers ≤ roster.totalMembers || overBytes limits roster
  | some old => overBytes limits roster && memberBytes key old < memberBytes key member

/-- `memberJoin` in a channel that the roster tracks. -/
def admitJoin (line : IrcMessage) (sender : Bytes) : Roster :=
  let channel := foldKey isup (line.param 0)
  let key := foldKey isup sender
  let member := joinMember line (clampRoster sender)
  if joinRefused limits roster st key member then roster
  else
    let joined : Roster := roster.modify channel (·.put .members key member)
    -- a NAMES burst in flight must not revert the join
    if st.pending.isSome && (((st.half .pending).lookup key).isSome ||
        (joined.totalMembers < limits.maxRosterMembers && !overBytes limits roster)) then
      joined.modify channel (·.put .pending key member)
    else joined

def memberJoin (line : IrcMessage) (sender : Bytes) (ours : Bool) : Roster :=
  match joinChannel limits isup roster (clampRoster (line.param 0)) ours with
  | none => roster
  | some (roster, st) => admitJoin limits isup roster st line sender

variable (full : Bool)

/-- The re-keying of `rename` in one map of a channel. -/
def rekey (fromKey nick : Bytes) (half : Half) (st : ChannelState) : ChannelState :=
  match (st.half half).lookup fromKey with
  | none => st
  | some member =>
    let renamed := { member with nick }
    if full ∧ memberBytes fromKey member < memberBytes (isup.fold nick) renamed then st
    else (st.del half fromKey).put half (isup.fold nick) renamed

def rename (old new : Bytes) : Roster :=
  let rekey := rekey isup (overBytes limits roster) (foldKey isup old) (clampRoster new)
  roster.mapEntries fun _ st => rekey .pending (rekey .members st)

/-- The update of `updateEverywhere` in one map of a channel. -/
def updateHalf (key : Bytes) (update : Member → Member) (half : Half)
    (st : ChannelState) : ChannelState :=
  match (st.half half).lookup key with
  | none => st
  | some member =>
    if full ∧ memberBytes key member < memberBytes key (update member) then st
    else st.put half key (update member)

def updateEverywhere (nick : Bytes) (update : Member → Member) : Roster :=
  let apply := updateHalf (overBytes limits roster) (foldKey isup nick) update
  roster.mapEntries fun _ st => apply .pending (apply .members st)

def whoxToken : Bytes := lit "152"

def whoxReply (line : IrcMessage) : Roster :=
  if line.param 1 ≠ whoxToken ∨ line.params.length < 5 then roster
  else
    let flags := line.param 3
    let account := clampRoster (if line.param 4 = lit "0" then [] else line.param 4)
    let bot := (isup.raw.lookup (lit "BOT")).any fun letter =>
      letter ≠ [] && containsText flags letter
    updateEverywhere limits isup roster (line.param 2) fun member =>
      { member with away := flags.contains 0x47, account, bot }

/-! ### Channel modes -/

/-- `addPrefix`: the symbol stands before the first one of lower rank. A symbol that the server
does not list ranks above all that it does. -/
def addPrefix (rank current changed : Bytes) : Bytes :=
  if changed = [] ∨ containsText current changed then current
  else
    let higher := current.takeWhile fun symbol =>
      match indexOf [symbol] rank, indexOf changed rank with
      | some place, some limit => place ≤ limit
      | some _, none => false
      | none, _ => true
    higher ++ changed ++ current.drop higher.length

/-- A status mode of a MODE line: the nick it names, its symbol, and whether it is granted. -/
structure StatusChange where
  nick : Bytes
  symbol : Bytes
  adding : Bool
deriving DecidableEq

variable (change : StatusChange)

def StatusChange.apply (member : Member) : Member :=
  { member with
    status :=
      if change.adding then addPrefix isup.prefixSymbols member.status change.symbol
      else removeAll member.status change.symbol }

/-- `applyStatusMode` in one map of its channel. -/
def applyStatus (half : Half) (st : ChannelState) : ChannelState :=
  match (st.half half).lookup (foldKey isup change.nick) with
  | none => st
  | some member =>
    if change.adding ∧ member.status.length < (change.apply isup member).status.length ∧ full then
      st
    else st.put half (foldKey isup change.nick) (change.apply isup member)

/-- `applyStatusMode`. The source sums the bytes up only when a grant would grow a member, once;
until then it has stored nothing that differs. -/
def applyStatusMode (channel : Bytes) (roster : Roster) (change : StatusChange) : Roster :=
  let apply := applyStatus isup (overBytes limits roster) change
  roster.modify channel fun st => apply .pending (apply .members st)

def maxModeLettersPerLine : Nat := 64

/-- The loop of `applyChannelMode`, as the status changes it makes: whether modes are being set, how
many letters may still come, the arguments and the letters left. -/
def modeLoop : Bool → Nat → List Bytes → Bytes → List StatusChange
  | _, _, _, [] => []
  | adding, letters, args, letter :: rest =>
    if letter = 0x2B then modeLoop true letters args rest
    else if letter = 0x2D then modeLoop false letters args rest
    else
      match letters with
      | 0 => []
      | letters + 1 =>
        match isup.chanModeType letter with
        | .status =>
          { nick := args.headD [], symbol := encodeRune (isup.symbolForMode letter).toNat,
            adding } :: modeLoop adding letters args.tail rest
        | .list | .always => modeLoop adding letters args.tail rest
        | .whenSet => modeLoop adding letters (if adding then args.tail else args) rest
        | .never | .unknown => modeLoop adding letters args rest

def statusChanges : List StatusChange :=
  modeLoop isup true maxModeLettersPerLine (line.params.drop 2) (line.param 1)

/-- `channelMode` and `applyChannelMode`. -/
def channelMode (line : IrcMessage) : Roster :=
  (statusChanges isup line).foldl (applyStatusMode limits isup (foldKey isup (line.param 0))) roster

end Handlers

/-! ### One line -/

def Roster.handle (limits : Limits) (isup : ISupport) (ourNick : Bytes) (roster : Roster)
    (line : IrcMessage) : Roster :=
  let sender := senderOf line
  if line.command = lit "353" then namesReply limits isup roster line
  else if line.command = lit "366" then namesEnd isup roster line
  else if line.command = lit "332" then setTopic limits isup roster (line.param 1) (line.param 2)
  else if line.command = lit "331" then setTopic limits isup roster (line.param 1) []
  else if line.command = lit "TOPIC" then setTopic limits isup roster (line.param 0) line.trailing
  else if line.command = lit "JOIN" then
    memberJoin limits isup roster line sender (isUs isup ourNick sender)
  else if line.command = lit "PART" then
    membersPart isup roster (line.param 0) sender (isUs isup ourNick sender)
  else if line.command = lit "KICK" then membersKick isup roster line ourNick
  else if line.command = lit "QUIT" then memberQuit isup roster sender
  else if line.command = lit "NICK" then rename limits isup roster sender (line.param 0)
  else if line.command = lit "CHGHOST" then
    updateEverywhere limits isup roster sender fun member =>
      { member with user := clampRoster (line.param 0), host := clampRoster (line.param 1) }
  else if line.command = lit "AWAY" then
    updateEverywhere limits isup roster sender fun member =>
      { member with away := line.params ≠ [] }
  else if line.command = lit "ACCOUNT" then
    updateEverywhere limits isup roster sender fun member =>
      { member with account := clampRoster (if line.param 0 = lit "*" then [] else line.param 0) }
  else if line.command = lit "354" then whoxReply limits isup roster line
  else if line.command = lit "MODE" then channelMode limits isup roster line
  else roster

structure Connection where
  isup : ISupport := {}
  nick : Bytes
  roster : Roster := ∅
deriving DecidableEq

namespace Connection

def renamedTo (connection : Connection) (line : IrcMessage) : Option Bytes :=
  if line.command = lit "NICK" ∧ line.source.isSome ∧
      connection.isup.fold (senderOf line) = connection.isup.fold connection.nick ∧
      line.param 0 ≠ [] then
    some (line.param 0)
  else none

variable (limits : Limits)

/-- `onLiveLine`, without the lines it sends; `none` tears the connection down. -/
def onLiveLine (connection : Connection) (line : IrcMessage) : Option Connection :=
  if (connection.renamedTo line).any (·.length > maxAuthoritativeNickBytes) then none
  else
    let nick := (connection.renamedTo line).getD connection.nick
    some { connection with
      nick, roster := connection.roster.handle limits connection.isup nick line }

def processLine (connection : Connection) (playback : Bool) (line : IrcMessage) :
    Option Connection :=
  let connection := { connection with isup := connection.isup.handle line }
  if playback then some connection else connection.onLiveLine limits line

def Run (met : Connection → IrcMessage → Prop) : Connection → Connection → Prop :=
  Relation.ReflTransGen fun connection next =>
    ∃ playback line, met connection line ∧ connection.processLine limits playback line = some next

def Reachable (nick : Bytes) (connection : Connection) : Prop :=
  Run limits (fun _ _ => True) { nick } connection

end Connection

end Ircthing.Irc
