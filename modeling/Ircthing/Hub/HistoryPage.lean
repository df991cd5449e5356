/-
This file models the event that a session is sent for a stored message.
-/

import Ircthing.Golang.Json
import Ircthing.Store.Transparency

namespace Ircthing.Hub

open Library Store Json

/-! ### Events -/

structure EventData where
  network : Bytes
  buffer : Bytes
  id : Nat
  time : Int
  msgid : Bytes
  sender : Bytes
  command : Bytes
  raw : Bytes
  redacted : Bool
  redactReason : Bytes
deriving DecidableEq

def eventData (message : Message) : EventData where
  network := message.network
  buffer := message.target
  id := message.id
  time := unixMilli message.time
  msgid := message.msgID
  sender := message.sender
  command := message.command
  raw := if message.redacted then [] else message.raw
  redacted := message.redacted
  redactReason := message.redactReason

/-! ### Pages -/

def maxHistoryPayloadBytes : Nat := 512 * 1024

end Ircthing.Hub
