/-
This file models the messages of the IRC protocol as the parser of the client hands them out, and
the answer to a server's PING.
-/

import Ircthing.Golang.Strings

namespace Ircthing.Irc

/-- The source of a message, `nick!user@host` or the name of a server. -/
structure Source where
  name : Bytes
  user : Bytes := []
  host : Bytes := []
deriving DecidableEq

/-- `ircv4.Message`. -/
structure IrcMessage where
  tags : List (Bytes × Bytes) := []
  source : Option Source := none
  command : Bytes
  params : List Bytes := []
deriving DecidableEq

namespace IrcMessage

variable (message : IrcMessage)

def param (index : Nat) : Bytes := message.params.getD index []

def trailing : Bytes := message.params.getLastD []

def tag (name : Bytes) : Option Bytes :=
  (message.tags.find? fun entry => entry.1 = name).map (·.2)

end IrcMessage

def senderOf (line : IrcMessage) : Bytes := line.source.elim [] (·.name)

def newMsg (command : String) (params : List Bytes) : IrcMessage :=
  { command := lit command, params := params }

def defaultLineLen : Nat := 512

def maxAuthoritativeNickBytes : Nat := 512

def framingStripper (text : Bytes) : Bytes :=
  text.filter fun byte => byte != 0x0D && byte != 0x0A && byte != 0x00

def boundedPong (message : IrcMessage) (limit : Nat) : IrcMessage :=
  newMsg "PONG" [(framingStripper message.trailing).take ((limit - 8) / 3)]

end Ircthing.Irc
