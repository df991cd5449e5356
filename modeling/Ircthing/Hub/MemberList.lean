/-
This file models how a client gets the members of a channel, page after page.
-/

import Ircthing.Hub.HistoryPage
import Ircthing.Irc.Roster
import Ircthing.Library.Selection
import Mathlib.Data.List.Lex

namespace Ircthing.Hub

open Library Irc Json

/-! ### A page of the roster -/

def rank (text : Bytes) : List Nat := text.map UInt8.toNat

/-- One turn of the scan of `channelPage`: `maxStringHeap` keeps the least keys, and its root is the
greatest of them. -/
def retain (limit : Nat) (keys : List Bytes) (key : Bytes) : List Bytes :=
  keepLeast rank limit keys key

def eligible (after key : Bytes) : Bool := after.isEmpty || decide (rank after < rank key)

def channelPage (isup : ISupport) (roster : Roster) (name : Bytes) (limit : Nat) (after : Bytes) :
    Option (Bytes × List Member × Bool) :=
  (roster.lookup (foldKey isup name)).map fun st =>
    let past := (st.members.entries.map (·.1)).filter (eligible after)
    let keys := past.foldl (retain limit) []
    let members := keys.filterMap st.members.lookup
    (st.topic, members, decide (members.length < past.length))

/-! ### The response -/

structure MemberData where
  nick : Bytes
  status : Bytes
  away : Bool
  account : Bytes
  bot : Bool
  user : Bytes
  host : Bytes
deriving DecidableEq

def memberData (member : Member) : MemberData :=
  ⟨member.nick, member.status, member.away, member.account, member.bot, member.user, member.host⟩

variable (member : MemberData)

def MemberData.json : Bytes :=
  object
    ([field "nick" (quote member.nick)] ++
      fieldUnless member.status.isEmpty "prefix" (quote member.status) ++
      fieldUnless (!member.away) "away" (boolean member.away) ++
      fieldUnless member.account.isEmpty "account" (quote member.account) ++
      fieldUnless (!member.bot) "bot" (boolean member.bot) ++
      fieldUnless member.user.isEmpty "user" (quote member.user) ++
      fieldUnless member.host.isEmpty "host" (quote member.host))

structure ChannelData where
  network : Bytes
  buffer : Bytes
  joined : Bool := false
  topic : Bytes := []
  members : List MemberData := []
  truncated : Bool := false
  membersAfter : Bytes := []
deriving DecidableEq

def ChannelData.json (data : ChannelData) : Bytes :=
  object
    ([field "network" (quote data.network), field "buffer" (quote data.buffer),
      field "joined" (boolean data.joined),
      field "topic" (quote data.topic),
      field "members" (array (data.members.map MemberData.json)),
      field "truncated" (boolean data.truncated)] ++
      fieldUnless data.membersAfter.isEmpty "members_after" (quote data.membersAfter))

def maxChannelResponseMembers : Nat := 256

/-- The room `fillChannelMembers` keeps for the cursor. -/
def cursorReserve : Nat := 512 * 6 + (lit ",\"members_after\":\"\"").length

/-- The loop of `fillChannelMembers`: the members that fit, from the bytes used so far on. -/
def admitMembers (used : Nat) (first : Bool) : List MemberData → List MemberData
  | [] => []
  | member :: rest =>
    let extra := member.json.length + if first then 0 else 1
    if used + extra > maxHistoryPayloadBytes then []
    else member :: admitMembers (used + extra) false rest

def fillChannelMembers (data : ChannelData) (members : List MemberData) : ChannelData :=
  let sent := admitMembers (data.json.length + cursorReserve) true members
  { data with
    members := sent
    truncated := data.truncated || decide (sent.length < members.length) }

structure ChannelReq where
  network : Bytes
  buffer : Bytes
  after : Bytes := []
deriving DecidableEq

def setCursor (isup : ISupport) (data : ChannelData) : ChannelData :=
  match data.truncated, data.members.getLast? with
  | true, some last => { data with membersAfter := isup.fold last.nick }
  | _, _ => data

variable (conn : Option (ISupport × Roster))

def buildChannelData (request : ChannelReq) : ChannelData :=
  let empty : ChannelData := { network := request.network, buffer := request.buffer }
  match conn with
  | none => empty
  | some (isup, roster) =>
    match channelPage isup roster request.buffer maxChannelResponseMembers request.after with
    | none => empty
    | some (topic, members, truncated) =>
      setCursor isup (fillChannelMembers { empty with joined := true, topic, truncated }
        (members.map memberData))

/-! ### The client -/

def utf16 (rune : Nat) : List Nat :=
  if rune < 0x10000 then [rune]
  else [0xD800 + (rune - 0x10000) / 0x400, 0xDC00 + (rune - 0x10000) % 0x400]

def units (text : Bytes) : List Nat := (runes text).flatMap fun rune => utf16 rune.1

/-- `MAX_MEMBERS`. -/
def maxMembers : Nat := 25000

structure Paging where
  members : List MemberData := []
  after : Bytes := []
  info : Option (Bool × Bytes) := none
  done : Bool := false
  degraded : Bool := false
deriving DecidableEq

def MemberData.arrived : MemberData :=
  { member with
    nick := delivered member.nick
    status := delivered member.status
    account := delivered member.account
    user := delivered member.user
    host := delivered member.host }

def ChannelData.arrived (data : ChannelData) : ChannelData :=
  { data with
    network := delivered data.network
    buffer := delivered data.buffer
    topic := delivered data.topic
    members := data.members.map MemberData.arrived
    membersAfter := delivered data.membersAfter }

def applyMemberPage (st : Paging) (data : ChannelData) : Paging :=
  let page := data.members.take (maxMembers - st.members.length)
  let next : Paging :=
    { members := st.members ++ page
      after := st.after
      info := some (st.info.getD (data.joined, data.topic)) }
  if page.length < data.members.length then { next with done := true, degraded := true }
  else if !data.truncated then { next with done := true }
  else if data.membersAfter = [] ∨ units data.membersAfter ≤ units st.after ∨ page = [] then
    { next with done := true, degraded := true }
  else if maxMembers ≤ next.members.length then { next with done := true, degraded := true }
  else { next with after := data.membersAfter }

def request (network buffer after : Bytes) : ChannelData :=
  (buildChannelData conn { network, buffer, after := delivered after }).arrived

/-- `fetchAllMembers` from a state on: the walk goes stale, a request fails, or a page ends the
walk or leads on to the next one. -/
inductive Fetches (respond : Bytes → ChannelData) : Paging → Option Paging → Prop
  | stale (st : Paging) : Fetches respond st none
  | failed (st : Paging) :
      Fetches respond st
        (some { st with info := some (st.info.getD (false, [])), done := true, degraded := true })
  | last {st : Paging} (ends : (applyMemberPage st (respond st.after)).done = true) :
      Fetches respond st (some (applyMemberPage st (respond st.after)))
  | next {st : Paging} {result : Option Paging}
      (goesOn : (applyMemberPage st (respond st.after)).done = false)
      (later : Fetches respond (applyMemberPage st (respond st.after)) result) :
      Fetches respond st result

end Ircthing.Hub
