/-
This file models connection registration: the opening burst, capability negotiation, SASL, and the
welcome. The server may send any message in any phase.
-/

import Ircthing.Irc.Sasl
import Ircthing.Irc.Sts

namespace Ircthing.Irc

open Library

/-! ### Configuration and state -/

/-- The part of `Config` that registration reads. -/
structure Config where
  tls : Bool
  nick : Bytes
  username : Bytes := []
  realname : Bytes := []
  pass : Bytes := []
  sasl : Option SaslConfig := none
deriving DecidableEq

def Config.credentialed (cfg : Config) : Prop := cfg.pass ≠ [] ∨ cfg.sasl.isSome

instance (cfg : Config) : Decidable cfg.credentialed :=
  inferInstanceAs (Decidable (_ ∨ _))

def wantedCaps : List Bytes :=
  ["account-notify", "account-tag", "away-notify", "batch", "cap-notify", "chghost",
    "draft/chathistory", "draft/multiline", "draft/event-playback", "draft/message-redaction",
    "draft/read-marker", "echo-message", "extended-join", "extended-monitor", "invite-notify",
    "labeled-response", "message-tags", "multi-prefix", "no-implicit-names", "server-time",
    "setname", "standard-replies", "userhost-in-names"].map lit

def maxAdvertisedCaps : Nat := 512

def maxSASLChallenge : Nat := 8192

/-- `hsPhase`. -/
inductive Phase where
  | capLS
  | capAck
  | authChallenge
  | awaitWelcome
  | done
deriving DecidableEq

structure Handshake where
  cfg : Config
  phase : Phase := .capLS
  caps : Dict Bytes Bytes := ∅
  enabled : Dict Bytes Bool := ∅
  nick : Bytes
  nickTries : Nat := 0
  saslDone : Bool := false
  nakRetried : Bool := false
  lastReq : List Bytes := []
  mech : Option SaslMech := none
  mechErr : Option Bytes := none
  secure : Bool
  stsDuration : Option Int := none
  passSent : Bool := false
  challengeBuf : Bytes := []

/-- `newHandshake`. The connection replaces `secure` by the transport it really has. -/
def newHandshake (cfg : Config) : Handshake := { cfg := cfg, nick := cfg.nick, secure := cfg.tls }

/-- The errors of a handshake: `errSTSUpgrade`, and those that only have a text. -/
inductive HandshakeError where
  | stsUpgrade (port : Int)
  | failed (text : Bytes)
deriving DecidableEq

/-- What `handle` returns. A failing handshake may still have something to send. -/
structure Reply where
  out : List IrcMessage := []
  done : Bool := false
  error : Option HandshakeError := none
deriving DecidableEq

namespace Reply

def quiet : Reply := {}

def send (out : List IrcMessage) : Reply := { out := out }

def fail (text : Bytes) : Reply := { error := some (.failed text) }

end Reply

namespace Handshake

variable (h : Handshake)

/-- The connection is insecure and the config holds credentials: this handshake may only look
for an upgrade. -/
def guarded : Prop := ¬ h.secure ∧ h.cfg.credentialed

instance (h : Handshake) : Decidable h.guarded := inferInstanceAs (Decidable (_ ∧ _))

/-! ### The opening burst -/

def passLine : Handshake × List IrcMessage :=
  if h.cfg.pass = [] ∨ h.passSent then (h, [])
  else ({ h with passSent := true }, [newMsg "PASS" [h.cfg.pass]])

def start : Handshake × List IrcMessage :=
  let out := [newMsg "CAP" [lit "LS", lit "302"]]
  if h.guarded then (h, out)
  else
    let (h, pass) := if h.secure then h.passLine else (h, [])
    let username := if h.cfg.username = [] then h.cfg.nick else h.cfg.username
    let realname := if h.cfg.realname = [] then h.cfg.nick else h.cfg.realname
    (h, out ++ pass ++
      [newMsg "NICK" [h.nick], newMsg "USER" [username, lit "0", lit "*", realname]])

/-! ### Nicknames -/

/-- `fallbackNick`. A nick of one rune becomes another letter, a longer one ends in a digit it
did not end in. -/
def fallbackNick (nick : Bytes) (attempt : Nat) : Bytes :=
  match (runes nick).map Prod.fst with
  | [] => encodeRune (0x61 + attempt % 26)
  | [base] =>
    let shifted := ((base : Int) - 0x61 + attempt).tmod 26
    let offset := if shifted < 0 then shifted + 26 else shifted
    encodeRune (0x61 + offset).toNat
  | first :: second :: rest =>
    let all := first :: second :: rest
    let pick := ((lit "123456789").map UInt8.toNat).filter (· ≠ all.getLastD 0)
    (all.dropLast ++ [pick.getD ((attempt - 1) % pick.length) 0]).flatMap encodeRune

variable (env : Env)

def handleNickInUse (h : Handshake) : Handshake × Reply :=
  if h.guarded then
    (h, .fail (lit "server requested a nickname retry before the secure STS redial"))
  else
    let h := { h with nickTries := h.nickTries + 1 }
    if h.nickTries > 3 then
      (h, .fail (lit "nickname " ++ env.quote h.cfg.nick ++ lit " and all fallbacks are in use"))
    else
      let h := { h with nick := fallbackNick h.cfg.nick h.nickTries }
      (h, .send [newMsg "NICK" [h.nick]])

/-- `handleWelcome`. The phase is set before the nick is looked at, so it is also set when a
nick that is too long fails the registration. -/
def handleWelcome (m : IrcMessage) : Handshake × Reply :=
  if ¬ h.secure ∧ h.cfg.pass ≠ [] then
    (h, .fail (lit "registered over plaintext without sending PASS; " ++
      lit "password authentication requires TLS"))
  else if ¬ h.secure ∧ h.cfg.sasl.isSome then
    (h, .fail (lit "registered over plaintext before SASL authentication; " ++
      lit "password authentication requires TLS"))
  else if h.cfg.sasl.isSome ∧ ¬ h.saslDone then
    (h, .fail (lit "registered before SASL authentication completed"))
  else
    let h := { h with phase := .done }
    let nick := m.param 0
    if nick ≠ [] ∧ nick ≠ lit "*" then
      if nick.length > maxAuthoritativeNickBytes then
        (h, .fail (lit "server assigned a " ++ decimal nick.length ++ lit "-byte nick (cap " ++
          decimal maxAuthoritativeNickBytes ++ lit ")"))
      else ({ h with nick := nick }, { done := true })
    else (h, { done := true })

/-! ### Capability negotiation -/

/-- One round of the loop of `parseCapList`. -/
def parseCap (caps : Dict Bytes Bytes) (token : Bytes) : Dict Bytes Bytes :=
  let (name, value, _) := cut token 0x3D
  if (caps.lookup name).isNone ∧ caps.entries.length ≥ maxAdvertisedCaps then caps
  else caps.insert name value

def parseCapList (list : Bytes) (caps : Dict Bytes Bytes) : Dict Bytes Bytes :=
  (fields list).foldl parseCap caps

def capsToRequest : List Bytes :=
  let wanted := h.caps.keys.filter wantedCaps.contains
  let sasl := if h.cfg.sasl.isSome ∧ (h.caps.lookup (lit "sasl")).isSome then [lit "sasl"] else []
  sortStrings (wanted ++ sasl)

def chooseMech (h : Handshake) : Except Bytes Handshake :=
  match h.cfg.sasl with
  | none => .ok h
  | some sasl =>
    match h.caps.lookup (lit "sasl") with
    | none => .error (lit "SASL configured but the server does not offer the sasl capability")
    | some mechs =>
      match newMech env sasl mechs with
      | .ok mech => .ok { h with mech := some mech }
      | .error text => .ok { h with mech := none, mechErr := some text }

/-- The strict-transport-security part of `handleCapLS`: an upgrade to a port, or the handshake
with the duration of a policy recorded. -/
def noteSTS : Except HandshakeError Handshake :=
  match h.caps.lookup (lit "sts") with
  | none => .ok h
  | some value =>
    let v := parseSTS value
    if ¬ h.secure ∧ v.port > 0 then .error (.stsUpgrade v.port)
    else if h.secure ∧ v.hasDuration then .ok { h with stsDuration := some v.duration }
    else .ok h

/-- The part of `handleCapLS` after the credentials are known to be safe. -/
def requestCaps (h : Handshake) : Handshake × Reply :=
  match h.chooseMech env with
  | .error text => (h, .fail text)
  | .ok h =>
    let (h, out) := h.passLine
    let reqs := h.capsToRequest
    if reqs = [] then
      ({ h with phase := .awaitWelcome }, .send (out ++ [newMsg "CAP" [lit "END"]]))
    else
      ({ h with phase := .capAck, lastReq := reqs },
        .send (out ++ [newMsg "CAP" [lit "REQ", join (lit " ") reqs]]))

def handleCapLS (h : Handshake) (m : IrcMessage) : Handshake × Reply :=
  if h.phase ≠ .capLS then (h, .quiet)
  else
    let h := { h with caps := parseCapList m.trailing h.caps }
    if m.params.length ≥ 4 ∧ m.param 2 = lit "*" then (h, .quiet)
    else
      match h.noteSTS with
      | .error reason => (h, { error := some reason })
      | .ok h =>
        if h.guarded then (h, .fail (lit "IRC password authentication requires TLS"))
        else h.requestCaps env

/-- One round of the loop of `handleCapACK`: only what was asked for is enabled. -/
def acknowledge (enabled : Dict Bytes Bool) (token : Bytes) : Dict Bytes Bool :=
  match cutPrefix token (lit "-") with
  | some name => enabled.erase name
  | none =>
    if wantedCaps.contains token ∨ token = lit "sasl" then enabled.insert token true else enabled

/-- `h.enabled["sasl"]`. -/
def saslEnabled : Bool := (h.enabled.lookup (lit "sasl")).getD false

/-- The part of `handleCapACK` after the acknowledged capabilities are recorded. -/
def proceedAfterACK : Handshake × Reply :=
  let refused := if h.cfg.sasl.isSome ∧ h.saslEnabled then h.mechErr else none
  let exchange := if h.saslEnabled ∧ ¬ h.saslDone then h.mech else none
  match refused, exchange with
  | some text, _ =>
    (h, { out := [newMsg "QUIT" [lit "SASL mechanism unavailable"]]
          error := some (.failed text) })
  | none, some mech =>
    ({ h with phase := .authChallenge }, .send [newMsg "AUTHENTICATE" [mech.name]])
  | none, none => ({ h with phase := .awaitWelcome }, .send [newMsg "CAP" [lit "END"]])

def handleCapACK (m : IrcMessage) : Handshake × Reply :=
  if h.phase ≠ .capAck then (h, .quiet)
  else proceedAfterACK { h with enabled := (fields m.trailing).foldl acknowledge h.enabled }

def handleCapNAK : Handshake × Reply :=
  if h.phase ≠ .capAck then (h, .quiet)
  else if h.cfg.sasl.isSome then
    if ¬ h.nakRetried ∧ h.lastReq.length > 1 then
      ({ h with nakRetried := true, lastReq := [lit "sasl"] },
        .send [newMsg "CAP" [lit "REQ", lit "sasl"]])
    else (h, .fail (lit "server refused the capability request including sasl"))
  else ({ h with phase := .awaitWelcome }, .send [newMsg "CAP" [lit "END"]])

def handleCAP (h : Handshake) (m : IrcMessage) : Handshake × Reply :=
  if m.params.length < 2 then
    (h, .fail (lit "malformed CAP reply: " ++ env.quote (env.format m)))
  else
    let subcommand := env.toUpper (m.param 1)
    if subcommand = lit "LS" then h.handleCapLS env m
    else if subcommand = lit "ACK" then h.handleCapACK m
    else if subcommand = lit "NAK" then h.handleCapNAK
    else (h, .quiet)

/-! ### SASL -/

/-- The reassembly part of `handleAuthenticate`: the whole challenge once its last chunk is in,
`none` while more chunks follow. -/
def reassemble (arg : Bytes) : Handshake × Except Bytes (Option Bytes) :=
  if arg ≠ lit "+" ∧ h.challengeBuf.length + arg.length > maxSASLChallenge then
    ({ h with challengeBuf := [] },
      .error (lit "SASL: server challenge exceeds " ++ decimal maxSASLChallenge ++ lit " bytes"))
  else
    let full := if arg ≠ lit "+" then h.challengeBuf ++ arg else h.challengeBuf
    if arg.length = 400 then ({ h with challengeBuf := full }, .ok none)
    else ({ h with challengeBuf := [] }, .ok (some (if full = [] then lit "+" else full)))

def decodeChallenge (arg : Bytes) : Except Bytes Bytes :=
  if arg = lit "+" ∨ arg = [] then .ok []
  else present (Base64.decode arg)
    (lit "SASL: undecodable server challenge: " ++ env.corruptInput arg)

/-- The part of `handleAuthenticate` that answers a whole challenge. -/
def respond (env : Env) (h : Handshake) (mech : SaslMech) (challenge : Bytes) : Handshake × Reply :=
  match mech.respond env challenge with
  | (next, .error text) =>
    ({ h with mech := some next },
      { out := [newMsg "AUTHENTICATE" [lit "*"]]
        error := some (.failed (lit "SASL " ++ mech.name ++ lit ": " ++ text)) })
  | (next, .ok response) =>
    ({ h with mech := some next },
      .send ((chunkAuthenticate (Base64.encode response)).map fun chunk =>
        newMsg "AUTHENTICATE" [chunk]))

def handleAuthenticate (h : Handshake) (m : IrcMessage) : Handshake × Reply :=
  match h.phase, h.mech with
  | .authChallenge, some mech =>
    match h.reassemble (m.param 0) with
    | (h, .error text) => (h, .fail text)
    | (h, .ok none) => (h, .quiet)
    | (h, .ok (some full)) =>
      match decodeChallenge env full with
      | .error text => (h, .fail text)
      | .ok challenge => h.respond env mech challenge
  | _, _ => (h, .quiet)

def handleSaslSuccess : Handshake × Reply :=
  match h.mech with
  | none =>
    if h.cfg.sasl.isSome then
      (h, .fail (lit "SASL: server reported success (903) before authentication began"))
    else (h, .quiet)
  | some mech =>
    if ¬ mech.completed then
      (h, .fail (lit "SASL " ++ mech.name ++ lit ": server reported success before the " ++
        lit "exchange completed (missing server verification)"))
    else
      ({ h with saslDone := true, phase := .awaitWelcome }, .send [newMsg "CAP" [lit "END"]])

/-- `handle`. The informational replies 900 and 908 are passed over like any other message. -/
def handle (h : Handshake) (m : IrcMessage) : Handshake × Reply :=
  if m.command = lit "PING" then (h, .send [boundedPong m defaultLineLen])
  else if m.command = lit "ERROR" then (h, .fail (lit "server error: " ++ m.trailing))
  else if m.command = lit "CAP" then h.handleCAP env m
  else if m.command = lit "AUTHENTICATE" then h.handleAuthenticate env m
  else if m.command = lit "001" then h.handleWelcome m
  else if [lit "433", lit "436", lit "437"].contains m.command then h.handleNickInUse env
  else if m.command = lit "432" then
    (h, .fail (lit "server rejected nickname " ++ env.quote h.nick))
  else if m.command = lit "464" then (h, .fail (lit "server password rejected (464)"))
  else if m.command = lit "902" then (h, .fail (lit "SASL: nick locked by services (902)"))
  else if m.command = lit "903" then h.handleSaslSuccess
  else if m.command = lit "904" then
    (h, .fail (lit "SASL authentication failed (904): bad credentials?"))
  else if m.command = lit "905" then
    (h, .fail (lit "SASL: AUTHENTICATE line too long (905)"))
  else if m.command = lit "906" then (h, .fail (lit "SASL: authentication aborted (906)"))
  else if m.command = lit "907" then
    (h, .fail (lit "SASL: unexpected re-authentication rejection (907)"))
  else (h, .quiet)

/-! ### Runs -/

/-- The handshake after a sequence of server messages; `none` once one of them was answered
with an error, which ends the attempt. -/
def feed (env : Env) (h : Handshake) : List IrcMessage → Option Handshake
  | [] => some h
  | m :: rest =>
    match h.handle env m with
    | (next, { error := none, .. }) => next.feed env rest
    | (_, { error := some _, .. }) => none

def openWith (cfg : Config) (secure : Bool) : Handshake × List IrcMessage :=
  start { newHandshake cfg with secure := secure }

def hears (h : Handshake) (m : IrcMessage) : Option Bytes :=
  if m.command = lit "AUTHENTICATE" ∧ h.phase = .authChallenge ∧ h.mech.isSome then
    match (h.reassemble (m.param 0)).2 with
    | .ok (some full) => (decodeChallenge env full).toOption
    | _ => none
  else none

def heard (env : Env) (h : Handshake) : List IrcMessage → List Bytes
  | [] => []
  | m :: rest => (h.hears env m).toList ++ (h.handle env m).1.heard env rest

end Handshake

end Ircthing.Irc
