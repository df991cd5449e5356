/-
This file models the SASL mechanisms of the client: PLAIN, EXTERNAL and SCRAM-SHA-256. Of the hash
functions only the length of a MAC is assumed.
-/

import Ircthing.Golang.Base64
import Ircthing.Golang.Strconv
import Ircthing.Irc.Message
import Ircthing.Library.Checked
import Ircthing.Library.Dict

namespace Ircthing.Irc

open Library List Base64 Option

variable {challenges heard : List Bytes} {challenge response offered : Bytes}

structure Env where
  /-- `hmac.New(sha256.New, key)` applied to a text. -/
  hmac : Bytes → Bytes → Bytes
  hmac_length : ∀ key text, (hmac key text).length = 32
  sha256 : Bytes → Bytes
  /-- `pbkdf2.Key` of a password, a salt and an iteration count, with a key of 32 bytes. -/
  pbkdf2 : Bytes → Bytes → Int → Bytes
  /-- The result of `randomNonce`. -/
  nonce : Bytes
  toUpper : Bytes → Bytes
  equalFold : Bytes → Bytes → Bool
  /-- The verb `%q`. -/
  quote : Bytes → Bytes
  /-- The text of the `CorruptInputError` of an undecodable base64 text. -/
  corruptInput : Bytes → Bytes
  /-- `Message.String`. -/
  format : IrcMessage → Bytes

/-- The verb `%d`. -/
def decimal (number : Int) : Bytes := lit (toString number)

structure SaslConfig where
  mechanism : Bytes := []
  login : Bytes
  password : Bytes
  authzid : Bytes := []
deriving DecidableEq

/-! ### SCRAM-SHA-256 -/

variable (text : Bytes)

def scramEscape : Bytes :=
  text.flatMap fun byte =>
    if byte = 0x3D then lit "=3D" else if byte = 0x2C then lit "=2C" else [byte]

def gs2Authzid (authzid : Bytes) : Bytes :=
  if authzid = [] then [] else lit "a=" ++ scramEscape authzid

def gs2Header (authzid : Bytes) : Bytes := lit "n," ++ gs2Authzid authzid ++ lit ","

variable (env : Env) (attrs : Dict Bytes Bytes)

/-- One round of the loop of `parseScramAttrs`. -/
def parseScramAttr (part : Bytes) : Except Bytes (Dict Bytes Bytes) :=
  let (key, value, found) := cut part 0x3D
  if found ∧ key.length = 1 then .ok (attrs.insert key value)
  else .error (lit "scram: malformed attribute " ++ env.quote part)

def parseScramAttrs (text : Bytes) : Except Bytes (Dict Bytes Bytes) :=
  (splitByte 0x2C text).foldlM (parseScramAttr env) ∅

def attr (key : String) : Bytes := (attrs.lookup (lit key)).getD []

def xorBytes (first second : Bytes) : Bytes := first.zipWith (· ^^^ ·) second

def scramMinIters : Int := 4096

def scramMaxIters : Int := 1000000

structure ScramClient where
  authcid : Bytes
  authzid : Bytes
  password : Bytes
  clientFirstBare : Bytes := []
  clientNonce : Bytes := []
  serverSig : Bytes := []
  step : Nat := 0
  verified : Bool := false
deriving DecidableEq

namespace ScramClient

def newSCRAM (cfg : SaslConfig) : ScramClient :=
  { authcid := cfg.login, authzid := cfg.authzid, password := cfg.password }

def clientFirst (env : Env) (client : ScramClient) : ScramClient × Bytes :=
  let client := { client with
    clientNonce := env.nonce
    clientFirstBare := lit "n=" ++ scramEscape client.authcid ++ lit ",r=" ++ env.nonce }
  (client, gs2Header client.authzid ++ client.clientFirstBare)

variable (client : ScramClient)

def clientFinalNoProof (rnonce : Bytes) : Bytes :=
  lit "c=" ++ encode (gs2Header client.authzid) ++ lit ",r=" ++ rnonce

def clientFinal (env : Env) (client : ScramClient) (serverFirst : Bytes) :
    Except Bytes (ScramClient × Bytes) := do
  let attrs ← parseScramAttrs env serverFirst
  refuse ((attrs.lookup (lit "m")).isSome)
    (lit "scram: server-first requires an unsupported mandatory extension (m=)")
  let rnonce := attr attrs "r"
  let salt64 := attr attrs "s"
  let iterStr := attr attrs "i"
  refuse (rnonce = [] ∨ salt64 = [] ∨ iterStr = [])
    (lit "scram: incomplete server-first " ++ env.quote serverFirst)
  refuse (¬ hasPrefix rnonce client.clientNonce)
    (lit "scram: server nonce does not extend the client nonce")
  let salt ← present (decode salt64) (lit "scram: bad salt: " ++ env.corruptInput salt64)
  let iters ← present ((atoi iterStr).filter fun iters => 0 < iters)
    (lit "scram: bad iteration count " ++ env.quote iterStr)
  refuse (iters < scramMinIters)
    (lit "scram: server iteration count " ++ decimal iters ++ lit " below the minimum " ++
      decimal scramMinIters)
  refuse (iters > scramMaxIters)
    (lit "scram: server iteration count " ++ decimal iters ++ lit " exceeds the maximum " ++
      decimal scramMaxIters)
  let saltedPassword := env.pbkdf2 client.password salt iters
  let clientKey := env.hmac saltedPassword (lit "Client Key")
  let storedKey := env.sha256 clientKey
  let serverKey := env.hmac saltedPassword (lit "Server Key")
  let authMessage := client.clientFirstBare ++ lit "," ++ serverFirst ++ lit "," ++
    client.clientFinalNoProof rnonce
  let clientSig := env.hmac storedKey authMessage
  let proof := xorBytes clientKey clientSig
  return ({ client with serverSig := env.hmac serverKey authMessage },
    client.clientFinalNoProof rnonce ++ lit ",p=" ++ encode proof)

def verify (env : Env) (client : ScramClient) (serverFinal : Bytes) :
    Except Bytes (ScramClient × Bytes) := do
  let attrs ← parseScramAttrs env serverFinal
  refuse (attr attrs "e" ≠ []) (lit "scram: server error: " ++ attr attrs "e")
  let got ← present (decode (attr attrs "v"))
    (lit "scram: bad server signature: " ++ env.corruptInput (attr attrs "v"))
  refuse (got ≠ client.serverSig) (lit "scram: server signature mismatch (possible MITM)")
  return ({ client with verified := true }, [])

def settle : Except Bytes (ScramClient × Bytes) → ScramClient × Except Bytes Bytes
  | .ok (next, response) => (next, .ok response)
  | .error text => (client, .error text)

/-- `respond`. The step is counted before it is taken, so one that fails is used up. -/
def respond (env : Env) (client : ScramClient) (challenge : Bytes) :
    ScramClient × Except Bytes Bytes :=
  let entered := { client with step := client.step + 1 }
  match client.step with
  | 0 => settle entered (.ok (clientFirst env entered))
  | 1 => settle entered (clientFinal env entered challenge)
  | 2 => settle entered (verify env entered challenge)
  | _ => (client, .error (lit "scram: unexpected extra challenge"))

end ScramClient

/-! ### The mechanisms -/

inductive SaslMech where
  | plain (authzid authcid passwd : Bytes) (sent : Bool)
  | external (authzid : Bytes) (sent : Bool)
  | scram (client : ScramClient)
deriving DecidableEq

variable {mech later : SaslMech}

def saslPlain (authzid authcid passwd : Bytes) : Bytes :=
  authzid ++ [0] ++ authcid ++ [0] ++ passwd

def mechScram : Bytes := lit "SCRAM-SHA-256"

namespace SaslMech

def name : SaslMech → Bytes
  | plain .. => lit "PLAIN"
  | external .. => lit "EXTERNAL"
  | scram _ => mechScram

def completed : SaslMech → Bool
  | plain _ _ _ sent => sent
  | external _ sent => sent
  | scram client => client.verified

def respond (env : Env) : SaslMech → Bytes → SaslMech × Except Bytes Bytes
  | mech@(plain authzid authcid passwd sent), _ =>
    if sent then (mech, .error (lit "PLAIN: unexpected extra challenge"))
    else (plain authzid authcid passwd true, .ok (saslPlain authzid authcid passwd))
  | mech@(external authzid sent), _ =>
    if sent then (mech, .error (lit "EXTERNAL: unexpected extra challenge"))
    else (external authzid true, .ok authzid)
  | scram client, challenge =>
    let (client, response) := client.respond env challenge
    (scram client, response)

end SaslMech

def mechListed (list mech : Bytes) : Bool :=
  (splitByte 0x2C list).any fun listed => env.equalFold listed mech

variable (cfg : SaslConfig)

/-- The name of the mechanism `newMech` builds. PLAIN is the default, because a server that offers
only PLAIN may not list it. -/
def mechName (offered : Bytes) : Bytes :=
  let mech := env.toUpper cfg.mechanism
  if mech = [] then
    if cfg.password = [] then lit "EXTERNAL"
    else if mechListed env offered mechScram then mechScram
    else lit "PLAIN"
  else mech

def newMech (offered : Bytes) : Except Bytes SaslMech :=
  let mech := mechName env cfg offered
  if offered ≠ [] ∧ ¬ mechListed env offered mech then
    .error (lit "SASL " ++ mech ++ lit " not offered (server mechanisms: " ++ offered ++ lit ")")
  else if mech = lit "PLAIN" then
    .ok (.plain (if cfg.authzid = [] then cfg.login else cfg.authzid) cfg.login cfg.password false)
  else if mech = lit "EXTERNAL" then .ok (.external cfg.authzid false)
  else if mech = mechScram then
    .ok (.scram (ScramClient.newSCRAM cfg))
  else .error (lit "unsupported SASL mechanism " ++ env.quote cfg.mechanism)

/-- The loop of `chunkAuthenticate`. The fuel is the length of the text: a chunk takes 400
bytes of it. -/
def chunkLoop : Nat → Bytes → List Bytes
  | fuel + 1, text =>
    if 400 < text.length then text.take 400 :: chunkLoop fuel (text.drop 400)
    else if text.length = 400 then [text, lit "+"]
    else [text]
  | 0, text => [text]

def chunkAuthenticate : List Bytes :=
  if text = [] then [lit "+"] else chunkLoop text.length text

/-! ### What a completed exchange has shown -/

def serverSignature (serverFirst rnonce salt : Bytes) (iterations : Int) : Bytes :=
  let saltedPassword := env.pbkdf2 cfg.password salt iterations
  let clientFirstBare := lit "n=" ++ scramEscape cfg.login ++ lit ",r=" ++ env.nonce
  let clientFinalNoProof :=
    lit "c=" ++ encode (gs2Header cfg.authzid) ++ lit ",r=" ++ rnonce
  env.hmac (env.hmac saltedPassword (lit "Server Key"))
    (clientFirstBare ++ lit "," ++ serverFirst ++ lit "," ++ clientFinalNoProof)

/-- In the first message of the server a nonce that extends ours, a salt and a tolerable iteration
count, in the final one the signature these determine. -/
structure ServerProof (serverFirst serverFinal : Bytes) where
  first : Dict Bytes Bytes
  first_parsed : parseScramAttrs env serverFirst = .ok first
  rnonce : Bytes
  rnonce_sent : first.lookup (lit "r") = some rnonce
  extends_nonce : env.nonce <+: rnonce
  salt : Bytes
  salt_sent : (first.lookup (lit "s")).bind decode = some salt
  iterations : Int
  iterations_sent : (first.lookup (lit "i")).bind atoi = some iterations
  iterations_bounded : 4096 ≤ iterations ∧ iterations ≤ 1000000
  final : Dict Bytes Bytes
  final_parsed : parseScramAttrs env serverFinal = .ok final
  signature_sent : (final.lookup (lit "v")).bind decode =
    some (serverSignature env cfg serverFirst rnonce salt iterations)

/-- The challenges of a whole exchange of a mechanism. PLAIN and EXTERNAL answer one prompt. -/
inductive Exchanged (env : Env) (cfg : SaslConfig) : SaslMech → List Bytes → Prop
  | plain {authzid authcid passwd : Bytes} {sent : Bool} (prompt : Bytes) :
    Exchanged env cfg (.plain authzid authcid passwd sent) [prompt]
  | external {authzid : Bytes} {sent : Bool} (prompt : Bytes) :
    Exchanged env cfg (.external authzid sent) [prompt]
  | scram {client : ScramClient} {prompt serverFirst serverFinal : Bytes}
      (proof : ServerProof env cfg serverFirst serverFinal) :
    Exchanged env cfg (.scram client) [prompt, serverFirst, serverFinal]

theorem Exchanged.serverProof {env : Env} {cfg : SaslConfig}
    (exchanged : Exchanged env cfg mech challenges) (scram : mech.name = mechScram) :
    ∃ prompt serverFirst serverFinal, challenges = [prompt, serverFirst, serverFinal] ∧
      Nonempty (ServerProof env cfg serverFirst serverFinal) := by
  cases exchanged with
  | plain prompt | external prompt => exact absurd scram (by rw [SaslMech.name]; decide)
  | scram proof => exact ⟨_, _, _, rfl, ⟨proof⟩⟩

def SaslMech.answers (env : Env) (mech : SaslMech) : List Bytes → Option SaslMech
  | [] => some mech
  | challenge :: rest =>
    match mech.respond env challenge with
    | (next, .ok _) => next.answers env rest
    | (_, .error _) => none

theorem lookup_of_attr_ne_nil {attrs : Dict Bytes Bytes} {key : String}
    (sent : attr attrs key ≠ []) : attrs.lookup (lit key) = some (attr attrs key) := by
  unfold attr at sent ⊢
  cases found : attrs.lookup (lit key) with
  | none => simp [found] at sent
  | some => rfl

variable {env : Env} {cfg : SaslConfig} {client : ScramClient}

namespace ScramClient

variable {client next : ScramClient} {challenge response : Bytes}

theorem settle_eq_ok {outcome : Except Bytes (ScramClient × Bytes)} :
    settle client outcome = (next, .ok response) ↔ outcome = .ok (next, response) := by
  rcases outcome with _ | ⟨_, _⟩ <;> simp [settle]

theorem respond_eq_ok :
    client.respond env challenge = (next, .ok response) ↔
      client.step = 0 ∧ clientFirst env { client with step := 1 } = (next, response) ∨
      client.step = 1 ∧ clientFinal env { client with step := 2 } challenge = .ok (next, response) ∨
      client.step = 2 ∧ verify env { client with step := 3 } challenge = .ok (next, response) := by
  unfold respond
  match at_ : client.step with
  | 0 => simp [settle_eq_ok]
  | 1 => simp [settle_eq_ok]
  | 2 => simp [settle_eq_ok]
  | step + 3 => simp

theorem clientFinal_frame (answers : client.clientFinal env challenge = .ok (next, response)) :
    next = { client with serverSig := next.serverSig } := by
  simp only [clientFinal, bind_eq_ok, refuse_eq_ok, present_eq_ok, pure_eq_ok,
    Prod.mk.injEq] at answers
  obtain ⟨-, -, -, -, -, -, -, -, -, -, -, -, -, -, -, -, rfl, -⟩ := answers
  rfl

theorem verify_frame (verifies : client.verify env challenge = .ok (next, response)) :
    next = { client with verified := true } := by
  simp only [verify, bind_eq_ok, refuse_eq_ok, present_eq_ok, pure_eq_ok, Prod.mk.injEq] at verifies
  obtain ⟨-, -, -, -, -, -, -, -, rfl, -⟩ := verifies
  rfl

end ScramClient

theorem serverProof_of_answered {answered verified : ScramClient}
    {serverFirst serverFinal closing : Bytes}
    (identity : client.authcid = cfg.login ∧ client.authzid = cfg.authzid ∧
      client.password = cfg.password)
    (opened : client.clientNonce = env.nonce ∧
      client.clientFirstBare = lit "n=" ++ scramEscape cfg.login ++ lit ",r=" ++ env.nonce)
    (answers : client.clientFinal env serverFirst = .ok (answered, response))
    (verifies : ScramClient.verify env { answered with step := 3 } serverFinal =
      .ok (verified, closing)) :
    Nonempty (ServerProof env cfg serverFirst serverFinal) := by
  simp only [ScramClient.clientFinal, bind_eq_ok, refuse_eq_ok, present_eq_ok, pure_eq_ok,
    not_or, not_not, Prod.mk.injEq] at answers
  obtain ⟨first, first_parsed, -, -, -, ⟨rnonce, salt64, iterStr⟩, -, extended, salt,
    salt_decoded, iterations, counted, -, atLeast, -, atMost, rfl, -⟩ := answers
  simp only [ScramClient.verify, bind_eq_ok, refuse_eq_ok, present_eq_ok, pure_eq_ok, ne_eq,
    not_not] at verifies
  obtain ⟨final, final_parsed, -, -, _, signature_decoded, -, rfl, -⟩ := verifies
  rw [filter_eq_some_iff] at counted
  -- an absent `v` reads as the empty text, which decodes to nothing, and a MAC is not empty
  have sent : attr final "v" ≠ [] := by
    intro absent
    rw [absent] at signature_decoded
    have empty := congrArg length (some.inj signature_decoded)
    rw [env.hmac_length] at empty
    cases empty
  refine ⟨{
    first := first
    first_parsed := first_parsed
    rnonce := attr first "r"
    rnonce_sent := lookup_of_attr_ne_nil rnonce
    extends_nonce := ?_
    salt := salt
    salt_sent := by rw [lookup_of_attr_ne_nil salt64]; exact salt_decoded
    iterations := iterations
    iterations_sent := by rw [lookup_of_attr_ne_nil iterStr]; exact counted.1
    iterations_bounded := ⟨not_lt.mp atLeast, not_lt.mp atMost⟩
    final := final
    final_parsed := final_parsed
    signature_sent := ?_ }⟩
  · rw [← opened.1]
    exact isPrefixOf_iff_prefix.mp extended
  · rw [lookup_of_attr_ne_nil sent, bind_some, signature_decoded, serverSignature,
      opened.2, identity.2.2]
    simp only [ScramClient.clientFinalNoProof, identity.2.1]

theorem SaslMech.answers_cons {rest : List Bytes} :
    mech.answers env (challenge :: rest) = some later ↔
      ∃ next response, mech.respond env challenge = (next, .ok response) ∧
        next.answers env rest = some later := by
  rw [answers]
  rcases mech.respond env challenge with ⟨next, _ | response⟩ <;> simp

theorem SaslMech.answers_concat {earlier : List Bytes} :
    mech.answers env (earlier ++ [challenge]) = some later ↔
      ∃ middle, mech.answers env earlier = some middle ∧
        ∃ response, middle.respond env challenge = (later, .ok response) := by
  induction earlier generalizing mech with
  | nil =>
    rw [nil_append, answers_cons]
    simp only [answers, some.injEq]
    constructor
    · rintro ⟨_, response, responds, rfl⟩
      exact ⟨mech, rfl, response, responds⟩
    · rintro ⟨middle, rfl, response, responds⟩
      exact ⟨later, response, responds, rfl⟩
  | cons _ _ hypothesis =>
    rw [cons_append, answers_cons]
    simp only [hypothesis, answers_cons]
    tauto

theorem SaslMech.scram_respond_eq_ok {next : SaslMech} :
    (SaslMech.scram client).respond env challenge = (next, .ok response) ↔
      ∃ after, next = .scram after ∧ client.respond env challenge = (after, .ok response) := by
  rw [respond]
  rcases client.respond env challenge with ⟨after, _⟩
  simp [and_comm, eq_comm]

def ScramClient.opened (env : Env) (cfg : SaslConfig) : ScramClient :=
  (clientFirst env { newSCRAM cfg with step := 1 }).1

inductive ScramProgress (env : Env) (cfg : SaslConfig) : ScramClient → List Bytes → Prop
  | fresh : ScramProgress env cfg (.newSCRAM cfg) []
  | opened (prompt : Bytes) : ScramProgress env cfg (.opened env cfg) [prompt]
  | answered {client : ScramClient} {response serverFirst : Bytes} (prompt : Bytes)
      (answers : ScramClient.clientFinal env { ScramClient.opened env cfg with step := 2 }
        serverFirst = .ok (client, response)) :
    ScramProgress env cfg client [prompt, serverFirst]
  | verified {client : ScramClient} {serverFirst serverFinal : Bytes} (prompt : Bytes)
      (finished : client.step = 3) (proof : ServerProof env cfg serverFirst serverFinal) :
    ScramProgress env cfg client [prompt, serverFirst, serverFinal]

theorem ScramProgress.step {next : ScramClient} (progress : ScramProgress env cfg client heard)
    (answers : client.respond env challenge = (next, .ok response)) :
    ScramProgress env cfg next (heard ++ [challenge]) := by
  rw [ScramClient.respond_eq_ok] at answers
  cases progress with
  | fresh =>
    obtain ⟨-, opens⟩ | ⟨early, -⟩ | ⟨early, -⟩ := answers
    · obtain rfl := congrArg Prod.fst opens
      exact .opened challenge
    all_goals cases early
  | opened prompt =>
    obtain ⟨late, -⟩ | ⟨-, answers⟩ | ⟨early, -⟩ := answers
    · cases late
    · exact .answered prompt answers
    · cases early
  | answered prompt answered =>
    have frame := ScramClient.clientFinal_frame answered
    obtain ⟨late, -⟩ | ⟨late, -⟩ | ⟨-, verifies⟩ := answers
    · rw [frame] at late
      cases late
    · rw [frame] at late
      cases late
    · obtain ⟨proof⟩ := serverProof_of_answered ⟨rfl, rfl, rfl⟩ ⟨rfl, rfl⟩ answered verifies
      exact .verified prompt (by rw [ScramClient.verify_frame verifies]) proof
  | verified _ finished =>
    rw [finished] at answers
    obtain ⟨late, -⟩ | ⟨late, -⟩ | ⟨late, -⟩ := answers
    all_goals cases late

theorem ScramProgress.exchanged (progress : ScramProgress env cfg client heard)
    (completed : client.verified = true) : Exchanged env cfg (.scram client) heard := by
  cases progress with
  | fresh | opened prompt => cases completed
  | answered _ answered =>
    rw [ScramClient.clientFinal_frame answered] at completed
    cases completed
  | verified _ _ proof => exact .scram proof

theorem scram_answers_progress (progress : ScramProgress env cfg client heard)
    (answered : (SaslMech.scram client).answers env challenges = some later) :
    ∃ last, later = .scram last ∧ ScramProgress env cfg last (heard ++ challenges) := by
  induction challenges generalizing client heard with
  | nil =>
    obtain rfl := some.inj answered
    exact ⟨client, rfl, by rwa [append_nil]⟩
  | cons _ _ hypothesis =>
    obtain ⟨_, _, responds, answered⟩ := SaslMech.answers_cons.mp answered
    obtain ⟨_, rfl, steps⟩ := SaslMech.scram_respond_eq_ok.mp responds
    rw [append_cons]
    exact hypothesis (progress.step steps) answered

theorem oneShot_answers {sent : SaslMech} (silent : mech.completed = false)
    (answers : ∀ challenge, ∃ response, mech.respond env challenge = (sent, .ok response))
    (refuses : ∀ challenge, ∃ text, sent.respond env challenge = (sent, .error text))
    (answered : mech.answers env challenges = some later) (completed : later.completed = true) :
    later = sent ∧ ∃ prompt, challenges = [prompt] := by
  match challenges with
  | [] =>
    obtain rfl := some.inj answered
    rw [silent] at completed
    cases completed
  | [prompt] =>
    obtain ⟨response, responds⟩ := answers prompt
    rw [SaslMech.answers, responds] at answered
    exact ⟨(some.inj answered).symm, prompt, rfl⟩
  | prompt :: extra :: rest =>
    obtain ⟨response, responds⟩ := answers prompt
    obtain ⟨text, fails⟩ := refuses extra
    rw [SaslMech.answers, responds] at answered
    simp [SaslMech.answers, fails] at answered

theorem newMech_eq_ok (built : newMech env cfg offered = .ok mech) :
    (∃ authzid authcid passwd, mech = .plain authzid authcid passwd false) ∨
      (∃ authzid, mech = .external authzid false) ∨ mech = .scram (.newSCRAM cfg) := by
  rw [newMech] at built
  split at built
  · cases built
  split at built
  · exact .inl ⟨_, _, _, (Except.ok.inj built).symm⟩
  split at built
  · exact .inr (.inl ⟨_, (Except.ok.inj built).symm⟩)
  split at built
  · exact .inr (.inr (Except.ok.inj built).symm)
  · cases built

theorem answers_exchanged (built : newMech env cfg offered = .ok mech)
    (answered : mech.answers env challenges = some later) (completed : later.completed = true) :
    Exchanged env cfg later challenges := by
  obtain ⟨authzid, _, _, rfl⟩ | ⟨authzid, rfl⟩ | rfl := newMech_eq_ok built
  · obtain ⟨rfl, prompt, rfl⟩ := oneShot_answers rfl (fun _ => ⟨_, rfl⟩) (fun _ => ⟨_, rfl⟩)
      answered completed
    exact .plain prompt
  · obtain ⟨rfl, prompt, rfl⟩ := oneShot_answers rfl (fun _ => ⟨_, rfl⟩) (fun _ => ⟨_, rfl⟩)
      answered completed
    exact .external prompt
  · obtain ⟨_, rfl, progress⟩ := scram_answers_progress .fresh answered
    exact progress.exchanged completed

/-! ### The test vector of RFC 7677 -/

def vectorKey (text : String) : Bytes := (decode (lit text)).getD []

def asciiUpper : Bytes :=
  text.map fun byte => if inRange 0x61 0x7A byte then byte - 0x20 else byte

def vectorHmac (secret text : Bytes) : Bytes :=
  if secret = vectorKey "xKSVEDI6tPlSysH6mUQZOeeOp01r6B3fcJbodRPcYV0=" then
    if text = lit "Client Key" then vectorKey "pg/JI9Z+hkSpLRa5btpe9GVrDHJcSEN0viVTVXaZbos="
    else vectorKey "wfPLwcE6nTWhTAmQ7tl2KeoiWGPlZqQxSrmfPwDl2dU="
  else if secret = vectorKey "WG5d8oPm3OtcPnkdi4Uo7BkeZkBFzpcXkuLmtbsT4qY=" then
    vectorKey "0nMSRnwopAqKfwXHPA3jPrPL+0qDeDtYFEzxmsa+G98="
  else if secret = vectorKey "wfPLwcE6nTWhTAmQ7tl2KeoiWGPlZqQxSrmfPwDl2dU=" then
    vectorKey "6rriTRBi23WpRR/wtup+mMhUZUn/dB5nLTJRsjl95G4="
  else replicate 32 0

theorem vectorHmac_length (secret text : Bytes) : (vectorHmac secret text).length = 32 := by
  unfold vectorHmac
  split
  · split <;> decide +kernel
  split
  · decide +kernel
  split
  · decide +kernel
  · rfl

def vectorEnv : Env where
  hmac := vectorHmac
  hmac_length := vectorHmac_length
  sha256 _ := vectorKey "WG5d8oPm3OtcPnkdi4Uo7BkeZkBFzpcXkuLmtbsT4qY="
  pbkdf2 _ _ _ := vectorKey "xKSVEDI6tPlSysH6mUQZOeeOp01r6B3fcJbodRPcYV0="
  nonce := lit "rOprNGfwEbeRWgbNEkqO"
  toUpper := asciiUpper
  equalFold first second := asciiUpper first = asciiUpper second
  quote text := lit "\"" ++ text ++ lit "\""
  corruptInput _ := lit "illegal base64 data"
  format message := message.command

def vectorSasl : SaslConfig := { login := lit "user", password := lit "pencil" }

def vectorServerFirst : Bytes :=
  lit "r=rOprNGfwEbeRWgbNEkqO%hvYDpWUa2RaTCAfuxFIlj)hNlF$k0,s=W22ZaJ0SNY7soEsUEjb6gQ==,i=4096"

def vectorServerFinal : Bytes := lit "v=6rriTRBi23WpRR/wtup+mMhUZUn/dB5nLTJRsjl95G4="

end Ircthing.Irc
