/-
This file models what the client knows of a server from its RPL_ISUPPORT (005) lines: which names
are channels, how names fold for comparison, and how mode letters and status prefixes are
classified.
-/

import Ircthing.Irc.Message
import Ircthing.Library.Dict

namespace Ircthing.Irc

open Library

inductive CaseMapping
  | rfc1459
  | rfc1459Strict
  | ascii
deriving DecidableEq

/-- `isupport`. -/
structure ISupport where
  raw : Dict Bytes Bytes := ∅
  chanTypes : Bytes := lit "#&"
  prefixModes : Bytes := lit "ov"
  prefixSymbols : Bytes := lit "@+"
  chanModes : List Bytes := [lit "b", lit "k", lit "l", lit "imnpst"]
  caseMapping : CaseMapping := .rfc1459
  caseLocked : Bool := false
deriving DecidableEq

def maxISupportKeys : Nat := 256

def maxISupportValue : Nat := 512

def maxISupportKey : Nat := 64

def hexVal (byte : UInt8) : Option UInt8 :=
  if inRange 0x30 0x39 byte then some (byte - 0x30)
  else if inRange 0x61 0x66 byte then some (byte - 0x61 + 10)
  else if inRange 0x41 0x46 byte then some (byte - 0x41 + 10)
  else none

/-- `unescapeValue`: `\xHH` stands for a byte. -/
def unescapeValue : Bytes → Bytes
  | 0x5C :: 0x78 :: high :: low :: rest =>
    match hexVal high, hexVal low with
    | some high, some low => (high <<< 4 ||| low) :: unescapeValue rest
    | _, _ => 0x5C :: unescapeValue (0x78 :: high :: low :: rest)
  | byte :: rest => byte :: unescapeValue rest
  | [] => []

/-- `parsePrefix`: `(modes)symbols`, or no prefixes at all. -/
def parsePrefix (value : Bytes) : Option (Bytes × Bytes) :=
  if value = [] then some ([], [])
  else
    match value with
    | 0x28 :: rest =>
      let (modes, symbols, closed) := cut rest 0x29
      if closed && modes.length == symbols.length then some (modes, symbols) else none
    | _ => none

namespace ISupport

variable (isup : ISupport) (name : Bytes)

def applyDefault : ISupport :=
  if name = lit "CHANTYPES" then { isup with chanTypes := lit "#&" }
  else if name = lit "PREFIX" then
    { isup with prefixModes := lit "ov", prefixSymbols := lit "@+" }
  else if name = lit "CHANMODES" then
    { isup with chanModes := [lit "b", lit "k", lit "l", lit "imnpst"] }
  else if name = lit "CASEMAPPING" then
    if isup.caseLocked then isup else { isup with caseMapping := .rfc1459 }
  else isup

def parseCaseMapping (value : Bytes) : Option CaseMapping :=
  if value = lit "rfc1459" then some .rfc1459
  else if value = lit "rfc1459-strict" then some .rfc1459Strict
  else if value = lit "ascii" then some .ascii
  else none

/-- The parsed views of `applyToken`. -/
def applyParsed (name value : Bytes) : ISupport :=
  if name = lit "CHANTYPES" then { isup with chanTypes := value }
  else if name = lit "PREFIX" then
    match parsePrefix value with
    | some (modes, symbols) => { isup with prefixModes := modes, prefixSymbols := symbols }
    | none => isup
  else if name = lit "CHANMODES" then
    -- the source splits at most four times and reads the first four parts
    { isup with chanModes := (List.range 4).map fun index => (splitByte 0x2C value).getD index [] }
  else if name = lit "CASEMAPPING" then
    if isup.caseLocked then isup
    else
      match parseCaseMapping value with
      | some mapping => { isup with caseMapping := mapping, caseLocked := true }
      | none => isup
  else isup

def applyToken (name value : Bytes) : ISupport :=
  if name.length > maxISupportKey ∨ value.length > maxISupportValue then isup
  else if (isup.raw.lookup name).isNone ∧ isup.raw.size ≥ maxISupportKeys then isup
  else { isup with raw := isup.raw.insert name value }.applyParsed name value

def token (text : Bytes) : ISupport :=
  match cutPrefix text (lit "-") with
  | some name => { isup with raw := isup.raw.erase name }.applyDefault name
  | none =>
    let (name, value, _) := cut text 0x3D
    isup.applyToken name (unescapeValue value)

/-- `handle`: the tokens stand between our nick and the closing text. -/
def handle (message : IrcMessage) : ISupport :=
  if message.command ≠ lit "005" ∨ message.params.length < 3 then isup
  else (message.params.drop 1).dropLast.foldl token isup

theorem handle_of_command_ne {isup : ISupport} {message : IrcMessage}
    (other : message.command ≠ lit "005") : isup.handle message = isup := by
  rw [handle, if_pos (.inl other)]

def isChannel (target : Bytes) : Bool :=
  match target with
  | [] => false
  | first :: _ => isup.chanTypes.contains first

def foldByte (mapping : CaseMapping) (byte : UInt8) : UInt8 :=
  if inRange 0x41 0x5A byte then byte + 32
  else if mapping = .ascii then byte
  else if byte = 0x5B then 0x7B
  else if byte = 0x5D then 0x7D
  else if byte = 0x5C then 0x7C
  else if byte = 0x7E ∧ mapping = .rfc1459 then 0x5E
  else byte

def fold : Bytes := name.map (foldByte isup.caseMapping)

/-- The classes of channel modes: status modes, the four groups of CHANMODES, and the rest. -/
inductive ModeClass
  | status | list | always | whenSet | never | unknown
deriving DecidableEq

/-- `chanModeType` of the table that `modeClassifier` builds: a status mode first, then the
earliest group. -/
def chanModeType (mode : UInt8) : ModeClass :=
  if isup.prefixModes.contains mode then .status
  else
    match isup.chanModes.findIdx? fun group => group.contains mode with
    | some 0 => .list
    | some 1 => .always
    | some 2 => .whenSet
    | some _ => .never
    | none => .unknown

def symbolForMode (mode : UInt8) : UInt8 :=
  (((isup.prefixModes.zip isup.prefixSymbols).reverse.find? fun pair => pair.1 = mode).map
    (·.2)).getD 0

end ISupport

end Ircthing.Irc
