/-
This file proves what a server can and cannot make a handshake do.
-/

import Ircthing.Irc.Handshake

namespace Ircthing.Irc.Handshake

open List Option Except

variable {env : Env} {h next listed : Handshake} {m : IrcMessage}
variable {messages : List IrcMessage} {text : Bytes}

/-! ### Runs -/

theorem feed_cons {rest : List IrcMessage} {last : Handshake} :
    h.feed env (m :: rest) = some last ↔
      (h.handle env m).2.error = none ∧ (h.handle env m).1.feed env rest = some last := by
  rw [feed]
  rcases h.handle env m with ⟨_, _, _, _ | _⟩ <;> simp

/-! ### The cases of `handle` -/

theorem handle_induction {motive : Handshake × Reply → Prop}
    (ping : m.command = lit "PING" → motive (h, .send [boundedPong m defaultLineLen]))
    (fail : m.command ≠ lit "AUTHENTICATE" → ∀ text, motive (h, .fail text))
    (cap : m.command = lit "CAP" → motive (h.handleCAP env m))
    (authenticate : m.command = lit "AUTHENTICATE" → motive (h.handleAuthenticate env m))
    (welcome : m.command = lit "001" → motive (h.handleWelcome m))
    (nick : m.command ≠ lit "AUTHENTICATE" → motive (h.handleNickInUse env))
    (success : m.command = lit "903" → motive h.handleSaslSuccess)
    (quiet : m.command ≠ lit "AUTHENTICATE" → motive (h, .quiet)) : motive (h.handle env m) := by
  rw [handle]
  refine iteInduction ping fun _ => iteInduction (fun reported => fail ?_ _) fun _ =>
    iteInduction cap fun _ => iteInduction authenticate fun other => ?_
  · rw [reported]
    decide
  · exact iteInduction welcome fun _ => iteInduction (fun _ => nick other) fun _ =>
      iteInduction (fun _ => fail other _) fun _ => iteInduction (fun _ => fail other _) fun _ =>
      iteInduction (fun _ => fail other _) fun _ => iteInduction success fun _ =>
      iteInduction (fun _ => fail other _) fun _ => iteInduction (fun _ => fail other _) fun _ =>
      iteInduction (fun _ => fail other _) fun _ => iteInduction (fun _ => fail other _) fun _ =>
      quiet other

/-! ### Silence on an insecure connection -/

structure Discovering (h : Handshake) : Prop where
  guarded : h.guarded
  phase : h.phase = .capLS
  mech : h.mech = none

/-- A reply that gives nothing away, from a handshake that is still discovering unless the
attempt has failed. -/
structure Discreet (result : Handshake × Reply) : Prop where
  pongs : ∀ sent ∈ result.2.out, ∃ token, sent = newMsg "PONG" [token]
  done : result.2.done = false
  stays : result.2.error = none → Discovering result.1

theorem Discreet.fail : Discreet (h, .fail text) where
  pongs := by simp [Reply.fail]
  done := rfl
  stays := by simp [Reply.fail]

theorem Discreet.quiet (discovering : Discovering h) : Discreet (h, .quiet) where
  pongs := by simp [Reply.quiet]
  done := rfl
  stays := fun _ => discovering

theorem noteSTS_frame (noted : h.noteSTS = .ok next) :
    next = { h with stsDuration := next.stsDuration } := by
  rw [noteSTS] at noted
  split at noted
  · obtain rfl := ok.inj noted
    rfl
  · dsimp only at noted
    split at noted
    · cases noted
    split at noted
    all_goals
      obtain rfl := ok.inj noted
      rfl

section

variable (discovering : Discovering h)
include discovering

theorem discreet_handleCapLS : Discreet (h.handleCapLS env m) := by
  rw [handleCapLS, if_neg (not_not.mpr discovering.phase)]
  dsimp only
  split
  · exact .quiet ⟨discovering.guarded, discovering.phase, discovering.mech⟩
  · split
    · exact ⟨by simp, rfl, by simp⟩
    next after noted =>
      have still : after.guarded := by
        rw [noteSTS_frame noted]
        exact discovering.guarded
      rw [if_pos still]
      exact .fail

theorem discreet_handleCAP : Discreet (h.handleCAP env m) := by
  have early : h.phase ≠ .capAck := by simp [discovering.phase]
  rw [handleCAP]
  split
  · exact .fail
  dsimp only
  split
  · exact discreet_handleCapLS discovering
  split
  · rw [handleCapACK, if_pos early]
    exact .quiet discovering
  split
  · rw [handleCapNAK, if_pos early]
    exact .quiet discovering
  · exact .quiet discovering

theorem discreet_handleWelcome : Discreet (h.handleWelcome m) := by
  obtain ⟨insecure, pass | sasl⟩ := discovering.guarded
  · rw [handleWelcome, if_pos ⟨insecure, pass⟩]
    exact .fail
  · rw [handleWelcome]
    split
    · exact .fail
    · rw [if_pos ⟨insecure, sasl⟩]
      exact .fail

theorem discreet_handleSaslSuccess :
    Discreet h.handleSaslSuccess := by
  rw [handleSaslSuccess, discovering.mech]
  dsimp only
  split
  · exact .fail
  · exact .quiet discovering

theorem discreet_handle (m : IrcMessage) : Discreet (h.handle env m) := by
  refine handle_induction ?ping (fun _ _ => .fail) ?cap ?authenticate ?welcome ?nick ?success
    (fun _ => .quiet discovering)
  case ping =>
    exact fun _ => ⟨fun sent pong => ⟨_, mem_singleton.mp pong⟩, rfl, fun _ => discovering⟩
  case cap => exact fun _ => discreet_handleCAP discovering
  case authenticate =>
    intro _
    rw [handleAuthenticate, discovering.phase, discovering.mech]
    exact .quiet discovering
  case welcome => exact fun _ => discreet_handleWelcome discovering
  case nick =>
    intro _
    rw [handleNickInUse, if_pos discovering.guarded]
    exact .fail
  case success => exact fun _ => discreet_handleSaslSuccess discovering

theorem discovering_feed (fed : h.feed env messages = some next) : Discovering next := by
  induction messages generalizing h with
  | nil =>
    obtain rfl := some.inj fed
    exact discovering
  | cons m _ hypothesis =>
    obtain ⟨accepted, fed⟩ := feed_cons.mp fed
    exact hypothesis ((discreet_handle discovering m).stays accepted) fed

end

/-- Without TLS a handshake with a password or SASL settings opens with `CAP LS 302` alone, answers
with PONGs at most, and is never done. -/
theorem insecure_handshake_silent (env : Env) (cfg : Config)
    (credentials : cfg.pass ≠ [] ∨ cfg.sasl.isSome) :
    (openWith cfg false).2 = [newMsg "CAP" [lit "LS", lit "302"]] ∧
      ∀ (messages : List IrcMessage) (h : Handshake),
        (openWith cfg false).1.feed env messages = some h →
        ∀ m : IrcMessage, (h.handle env m).2.done = false ∧
          ∀ sent ∈ (h.handle env m).2.out, ∃ token, sent = newMsg "PONG" [token] := by
  have guarded : ({ newHandshake cfg with secure := false } : Handshake).guarded :=
    ⟨by simp, credentials⟩
  rw [openWith, start, if_pos guarded]
  refine ⟨rfl, fun messages h fed m => ?_⟩
  have discreet : Discreet (h.handle env m) :=
    discreet_handle (discovering_feed ⟨guarded, rfl, rfl⟩ fed) m
  exact ⟨discreet.done, discreet.pongs⟩

def passwordConfig : Config := { tls := false, nick := lit "ann", pass := lit "hunter2" }

theorem insecure_handshake_silent_forgedWelcome :
    ∃ h, (openWith passwordConfig false).1.feed vectorEnv [newMsg "PING" [lit "cookie"]] = some h ∧
      (h.handle vectorEnv (newMsg "001" [lit "ann"])).2.done = false := by
  have silent := (insecure_handshake_silent vectorEnv passwordConfig (.inl (by decide))).2
  have fed : (openWith passwordConfig false).1.feed vectorEnv [newMsg "PING" [lit "cookie"]] =
    some (openWith passwordConfig false).1 := rfl
  exact ⟨_, fed, (silent _ _ fed _).1⟩

/-! ### What a message can change -/

inductive Advance (env : Env) (h : Handshake) (m : IrcMessage) (next : Handshake) : Prop
  /-- Neither the mechanism nor its result changed. -/
  | minor (cfg : next.cfg = h.cfg) (mech : next.mech = h.mech)
      (saslDone : next.saslDone = h.saslDone) (phase : next.phase = .capLS → h.phase = .capLS)
      (unheard : h.hears env m = none)
  /-- The end of `CAP LS` chose a mechanism. -/
  | chose (cfg : next.cfg = h.cfg) (saslDone : next.saslDone = h.saslDone)
      (early : h.phase = .capLS) (later : next.phase ≠ .capLS)
      (mech : next.mech = h.mech ∨ next.mech = none ∨ ∃ sasl offered built,
        h.cfg.sasl = some sasl ∧ newMech env sasl offered = .ok built ∧ next.mech = some built)
      (unheard : h.hears env m = none)
  /-- The mechanism answered a challenge. -/
  | answered (cfg : next.cfg = h.cfg) (saslDone : next.saslDone = h.saslDone)
      (later : next.phase ≠ .capLS) {mech after : SaslMech} {challenge response : Bytes}
      (chosen : h.mech = some mech) (heard : h.hears env m = some challenge)
      (responds : mech.respond env challenge = (after, .ok response))
      (moved : next.mech = some after)
  /-- A success was reported and believed. -/
  | succeeded (reported : m.command = lit "903") {mech : SaslMech} (chosen : h.mech = some mech)
      (completed : mech.completed = true)
      (accepted : next = { h with saslDone := true, phase := .awaitWelcome })

theorem hears_eq_none (other : m.command ≠ lit "AUTHENTICATE") : h.hears env m = none := by
  rw [hears, if_neg fun conditions => other conditions.1]

def Advances (env : Env) (h : Handshake) (m : IrcMessage) (result : Handshake × Reply) : Prop :=
  result.2.error = none → Advance env h m result.1

theorem Advances.fail : Advances env h m (next, .fail text) := by
  intro accepted
  cases accepted

theorem Advances.same {reply : Reply} (unheard : h.hears env m = none) :
    Advances env h m (h, reply) :=
  fun _ => .minor rfl rfl rfl id unheard

theorem chooseMech_frame (chose : h.chooseMech env = .ok next) :
    next = { h with mech := next.mech, mechErr := next.mechErr } ∧
      (next.mech = h.mech ∨ next.mech = none ∨ ∃ sasl offered built,
        h.cfg.sasl = some sasl ∧ newMech env sasl offered = .ok built ∧
          next.mech = some built) := by
  rw [chooseMech] at chose
  split at chose
  · obtain rfl := ok.inj chose
    exact ⟨rfl, .inl rfl⟩
  rename_i sasl configured
  split at chose
  · cases chose
  rename_i offered listed
  split at chose
  next built makes =>
    obtain rfl := ok.inj chose
    exact ⟨rfl, .inr (.inr ⟨sasl, offered, built, configured, makes, rfl⟩)⟩
  · obtain rfl := ok.inj chose
    exact ⟨rfl, .inr (.inl rfl)⟩

theorem passLine_frame : h.passLine.1 = { h with passSent := h.passLine.1.passSent } := by
  rw [passLine]
  split <;> rfl

theorem advances_requestCaps (cfg : listed.cfg = h.cfg) (mech : listed.mech = h.mech)
    (saslDone : listed.saslDone = h.saslDone) (early : h.phase = .capLS)
    (unheard : h.hears env m = none) : Advances env h m (listed.requestCaps env) := by
  rw [requestCaps]
  split
  · exact .fail
  rename_i chosen chose
  obtain ⟨frame, choice⟩ := chooseMech_frame chose
  have same : chosen.passLine.1.cfg = h.cfg ∧ chosen.passLine.1.saslDone = h.saslDone ∧
      chosen.passLine.1.mech = chosen.mech := by
    rw [passLine_frame, frame, ← cfg, ← saslDone]
    exact ⟨rfl, rfl, rfl⟩
  rw [cfg, mech, ← same.2.2] at choice
  dsimp only
  split
  all_goals exact fun _ => .chose same.1 same.2.1 early (by simp) choice unheard

theorem advances_handleCapLS (unheard : h.hears env m = none) :
    Advances env h m (h.handleCapLS env m) := by
  rw [handleCapLS]
  split
  · exact .same unheard
  rename_i early
  dsimp only
  split
  · exact fun _ => .minor rfl rfl rfl id unheard
  split
  · intro accepted
    cases accepted
  rename_i noted noted_eq
  have frame := noteSTS_frame noted_eq
  split
  · exact .fail
  · exact advances_requestCaps (by rw [frame]) (by rw [frame]) (by rw [frame])
      (not_not.mp early) unheard

theorem advances_proceedAfterACK (cfg : listed.cfg = h.cfg)
    (mech : listed.mech = h.mech) (saslDone : listed.saslDone = h.saslDone)
    (unheard : h.hears env m = none) : Advances env h m listed.proceedAfterACK := by
  rw [proceedAfterACK]
  split
  · intro accepted
    cases accepted
  all_goals exact fun _ => .minor cfg mech saslDone (by simp) unheard

section

variable (unheard : h.hears env m = none)
include unheard

theorem advances_handleCAP :
    Advances env h m (h.handleCAP env m) := by
  rw [handleCAP]
  split
  · exact .fail
  dsimp only
  split
  · exact advances_handleCapLS unheard
  split
  · rw [handleCapACK]
    split
    · exact .same unheard
    · exact advances_proceedAfterACK rfl rfl rfl unheard
  split
  · rw [handleCapNAK]
    split
    · exact .same unheard
    split
    · split
      · exact fun _ => .minor rfl rfl rfl id unheard
      · exact .fail
    · exact fun _ => .minor rfl rfl rfl (by simp) unheard
  · exact .same unheard

theorem advances_handleWelcome :
    Advances env h m (h.handleWelcome m) := by
  rw [handleWelcome]
  split
  · exact .fail
  split
  · exact .fail
  split
  · exact .fail
  dsimp only
  split
  · split
    · exact .fail
    · exact fun _ => .minor rfl rfl rfl (by simp) unheard
  · exact fun _ => .minor rfl rfl rfl (by simp) unheard

theorem advances_handleNickInUse :
    Advances env h m (h.handleNickInUse env) := by
  rw [handleNickInUse]
  split
  · exact .fail
  dsimp only
  split
  · exact .fail
  · exact fun _ => .minor rfl rfl rfl id unheard

end

theorem advances_handleSaslSuccess (reported : m.command = lit "903")
    (unheard : h.hears env m = none) : Advances env h m h.handleSaslSuccess := by
  rw [handleSaslSuccess]
  split
  · split
    · exact .fail
    · exact .same unheard
  rename_i mech chosen
  split
  · exact .fail
  next completed =>
    exact fun _ => .succeeded reported chosen (not_not.mp completed) rfl

theorem reassemble_frame (arg : Bytes) :
    (h.reassemble arg).1 = { h with challengeBuf := (h.reassemble arg).1.challengeBuf } := by
  rw [reassemble]
  split
  · rfl
  dsimp only
  split <;> rfl

theorem advances_handleAuthenticate (command : m.command = lit "AUTHENTICATE") :
    Advances env h m (h.handleAuthenticate env m) := by
  rw [handleAuthenticate]
  split
  next mech phase chosen =>
    have heard : h.hears env m = _ := if_pos ⟨command, phase, by rw [chosen]; rfl⟩
    have frame := reassemble_frame (h := h) (m.param 0)
    generalize h.reassemble (m.param 0) = outcome at heard frame ⊢
    rcases outcome with ⟨_, _ | _ | _⟩
    · exact .fail
    · dsimp only at frame
      rw [frame]
      exact fun _ => .minor rfl rfl rfl id heard
    · dsimp only at heard frame ⊢
      split
      · exact .fail
      rename_i challenge decoded
      rw [decoded] at heard
      rw [frame, respond]
      split
      · intro accepted
        cases accepted
      next responds =>
        exact fun _ => .answered rfl rfl (by simp [phase]) chosen heard responds rfl
  next different =>
    refine .same ?_
    rw [hears, if_neg]
    rintro ⟨-, phase, chosen⟩
    obtain ⟨mech, chosen⟩ := isSome_iff_exists.mp chosen
    exact different mech phase chosen

theorem advances_handle : Advances env h m (h.handle env m) := by
  have unheard {command : String} (other : lit command ≠ lit "AUTHENTICATE")
      (sent : m.command = lit command) : h.hears env m = none :=
    hears_eq_none (sent ▸ other)
  exact handle_induction (fun sent => .same (unheard (by decide) sent)) (fun _ _ => .fail)
    (fun sent => advances_handleCAP (unheard (by decide) sent)) advances_handleAuthenticate
    (fun sent => advances_handleWelcome (unheard (by decide) sent))
    (fun other => advances_handleNickInUse (hears_eq_none other))
    (fun sent => advances_handleSaslSuccess sent (unheard (by decide) sent))
    (fun other => .same (hears_eq_none other))

/-! ### SASL fails closed -/

/-- The mechanism of a handshake is the one chosen for its settings, after the challenges heard
so far. -/
structure Tracks (env : Env) (sasl : SaslConfig) (h : Handshake) (challenges : List Bytes) :
    Prop where
  cfg : h.cfg.sasl = some sasl
  unchosen : h.phase = .capLS → h.mech = none
  unheard : h.mech = none → challenges = []
  chosen : ∀ mech, h.mech = some mech → ∃ offered built,
    newMech env sasl offered = .ok built ∧ built.answers env challenges = some mech

variable {sasl : SaslConfig} {challenges : List Bytes}

theorem Tracks.step (tracks : Tracks env sasl h challenges) (advance : Advance env h m next) :
    Tracks env sasl next (challenges ++ (h.hears env m).toList) := by
  cases advance with
  | minor cfg mech _ phase unheard =>
    rw [unheard, toList_none, append_nil]
    refine ⟨cfg ▸ tracks.cfg, fun early => ?_, ?_, ?_⟩
    · rw [mech]
      exact tracks.unchosen (phase early)
    · rw [mech]
      exact tracks.unheard
    · rw [mech]
      exact tracks.chosen
  | chose cfg _ early later mech unheard =>
    rw [unheard, toList_none, append_nil]
    have fresh := tracks.unchosen early
    obtain rfl := tracks.unheard fresh
    refine ⟨cfg ▸ tracks.cfg, fun same => absurd same later, fun _ => rfl, fun built found => ?_⟩
    obtain same | none | ⟨_, offered, other, configured, makes, is⟩ := mech
    · rw [same, fresh] at found
      cases found
    · rw [none] at found
      cases found
    · rw [is, some.injEq] at found
      subst found
      rw [tracks.cfg, some.injEq] at configured
      subst configured
      exact ⟨offered, other, makes, rfl⟩
  | answered cfg _ later chosen heard responds moved =>
    obtain ⟨offered, built, makes, answered⟩ := tracks.chosen _ chosen
    rw [heard]
    refine ⟨cfg ▸ tracks.cfg, fun same => absurd same later, fun gone => ?_, fun mech found => ?_⟩
    · rw [moved] at gone
      cases gone
    · rw [moved, some.injEq] at found
      exact ⟨offered, built, makes, found ▸ SaslMech.answers_concat.mpr ⟨_, answered, _, responds⟩⟩
  | succeeded reported chosen _ accepted =>
    have quiet : h.hears env m = none := hears_eq_none (by rw [reported]; decide)
    rw [quiet, toList_none, append_nil, accepted]
    exact ⟨tracks.cfg, by simp, tracks.unheard, tracks.chosen⟩

theorem saslDone_step (advance : Advance env h m next) (before : h.saslDone = false)
    (after : next.saslDone = true) :
    m.command = lit "903" ∧ ∃ mech, h.mech = some mech ∧ mech.completed = true := by
  cases advance with
  | minor cfg mech saslDone | chose cfg saslDone | answered cfg saslDone =>
    simp [saslDone, before] at after
  | succeeded reported chosen completed => exact ⟨reported, _, chosen, completed⟩

theorem Tracks.feed (tracks : Tracks env sasl h challenges)
    (fed : h.feed env messages = some next) :
    Tracks env sasl next (challenges ++ h.heard env messages) := by
  induction messages generalizing h challenges with
  | nil =>
    obtain rfl := some.inj fed
    rwa [heard, append_nil]
  | cons _ _ hypothesis =>
    obtain ⟨accepted, fed⟩ := feed_cons.mp fed
    rw [heard, ← append_assoc]
    exact hypothesis (tracks.step (advances_handle accepted)) fed

theorem exists_success (fed : h.feed env messages = some next) (before : h.saslDone = false)
    (after : next.saslDone = true) :
    ∃ earlier success later asked mech, messages = earlier ++ success :: later ∧
      h.feed env earlier = some asked ∧ success.command = lit "903" ∧
      (asked.handle env success).2.error = none ∧ asked.mech = some mech ∧
      mech.completed = true := by
  induction messages generalizing h with
  | nil =>
    obtain rfl := some.inj fed
    rw [before] at after
    cases after
  | cons m rest hypothesis =>
    obtain ⟨accepted, fed⟩ := feed_cons.mp fed
    cases now : (h.handle env m).1.saslDone with
    | true =>
      obtain ⟨reported, mech, chosen, completed⟩ :=
        saslDone_step (advances_handle accepted) before now
      exact ⟨[], m, rest, h, mech, rfl, rfl, reported, accepted, chosen, completed⟩
    | false =>
      obtain ⟨earlier, success, later, asked, mech, rfl, reached, found⟩ := hypothesis fed now
      exact ⟨m :: earlier, success, later, asked, mech, rfl, feed_cons.mpr ⟨accepted, reached⟩,
        found⟩

theorem handleCAP_done : (h.handleCAP env m).2.done = false := by
  unfold handleCAP handleCapLS requestCaps handleCapACK proceedAfterACK handleCapNAK
  dsimp only
  repeat' split
  all_goals rfl

theorem handleAuthenticate_done : (h.handleAuthenticate env m).2.done = false := by
  unfold handleAuthenticate respond
  repeat' split
  all_goals rfl

theorem handleNickInUse_done : (h.handleNickInUse env).2.done = false := by
  unfold handleNickInUse
  dsimp only
  repeat' split
  all_goals rfl

theorem handleSaslSuccess_done : h.handleSaslSuccess.2.done = false := by
  unfold handleSaslSuccess
  repeat' split
  all_goals rfl

theorem saslDone_of_done (configured : h.cfg.sasl = some sasl)
    (done : (h.handle env m).2.done = true) : h.saslDone = true := by
  have unfinished {result : Handshake × Reply} (open_ : result.2.done = false) :
      result.2.done = true → h.saslDone = true := by simp [open_]
  refine handle_induction (motive := fun result => result.2.done = true → h.saslDone = true)
    (fun _ => unfinished rfl) (fun _ _ => unfinished rfl) (fun _ => unfinished handleCAP_done)
    (fun _ => unfinished handleAuthenticate_done) ?_ (fun _ => unfinished handleNickInUse_done)
    (fun _ => unfinished handleSaslSuccess_done) (fun _ => unfinished rfl) done
  intro _ welcomed
  by_contra undone
  rw [handleWelcome] at welcomed
  split at welcomed
  · cases welcomed
  split at welcomed
  · cases welcomed
  · rw [if_pos ⟨by rw [configured]; rfl, undone⟩] at welcomed
    cases welcomed

theorem openWith_tracks {cfg : Config} (configured : cfg.sasl = some sasl) {secure : Bool} :
    Tracks env sasl (openWith cfg secure).1 [] ∧ (openWith cfg secure).1.saslDone = false := by
  have frame : ∃ sent, (openWith cfg secure).1 =
      { newHandshake cfg with secure := secure, passSent := sent } := by
    rw [openWith, start]
    split
    · exact ⟨_, rfl⟩
    dsimp only
    split
    · exact ⟨_, passLine_frame⟩
    · exact ⟨_, rfl⟩
  obtain ⟨sent, frame⟩ := frame
  rw [frame]
  exact ⟨⟨configured, fun _ => rfl, fun _ => rfl, by rintro _ ⟨⟩⟩, rfl⟩

/-- When SASL is configured, a registration that is accepted was preceded by a reported success
before which the chosen mechanism had been through its whole exchange: it had answered the
challenges heard until then, and they complete it. For SCRAM they contain the proof that the server
knows the password. -/
theorem sasl_fails_closed (env : Env) (cfg : Config) (secure : Bool) (sasl : SaslConfig)
    (configured : cfg.sasl = some sasl) (messages : List IrcMessage) (h : Handshake)
    (fed : (openWith cfg secure).1.feed env messages = some h) (welcome : IrcMessage)
    (done : (h.handle env welcome).2.done = true) :
    ∃ earlier success later asked mech offered built,
      messages = earlier ++ success :: later ∧
      (openWith cfg secure).1.feed env earlier = some asked ∧
      success.command = lit "903" ∧ (asked.handle env success).2.error = none ∧
      asked.mech = some mech ∧ newMech env sasl offered = .ok built ∧
      built.answers env ((openWith cfg secure).1.heard env earlier) = some mech ∧
      mech.completed = true ∧
      Exchanged env sasl mech ((openWith cfg secure).1.heard env earlier) ∧
      (mech.name = mechScram → ∃ prompt serverFirst serverFinal,
        (openWith cfg secure).1.heard env earlier = [prompt, serverFirst, serverFinal] ∧
        Nonempty (ServerProof env sasl serverFirst serverFinal)) := by
  obtain ⟨tracks, undone⟩ : Tracks env sasl (openWith cfg secure).1 [] ∧ _ :=
    openWith_tracks configured
  have recorded := saslDone_of_done (tracks.feed fed).cfg done
  obtain ⟨earlier, success, later, asked, mech, split, reached, reported, accepted, chosen,
    completed⟩ := exists_success fed undone recorded
  have tracked := tracks.feed reached
  rw [nil_append] at tracked
  obtain ⟨offered, built, makes, answered⟩ := tracked.chosen mech chosen
  have exchanged := answers_exchanged makes answered completed
  exact ⟨earlier, success, later, asked, mech, offered, built, split, reached, reported, accepted,
    chosen, makes, answered, completed, exchanged, exchanged.serverProof⟩

def vectorConfig : Config := { tls := true, nick := lit "user", sasl := some vectorSasl }

def vectorMessages : List IrcMessage :=
  [newMsg "CAP" [lit "*", lit "LS", lit "sasl=PLAIN,SCRAM-SHA-256 server-time"],
    newMsg "CAP" [lit "*", lit "ACK", lit "sasl server-time"],
    newMsg "AUTHENTICATE" [lit "+"],
    newMsg "AUTHENTICATE" [Base64.encode vectorServerFirst],
    newMsg "AUTHENTICATE" [Base64.encode vectorServerFinal],
    newMsg "903" [lit "user"]]

theorem sasl_fails_closed_vector :
    ∃ h, (openWith vectorConfig true).1.feed vectorEnv vectorMessages = some h ∧
      (h.handle vectorEnv (newMsg "001" [lit "user"])).2.done = true ∧
      ∃ earlier success later mech, vectorMessages = earlier ++ success :: later ∧
        success.command = lit "903" ∧
        Exchanged vectorEnv vectorSasl mech
          ((openWith vectorConfig true).1.heard vectorEnv earlier) := by
  have accepted : ((openWith vectorConfig true).1.feed vectorEnv vectorMessages).map
      (fun h => (h.handle vectorEnv (newMsg "001" [lit "user"])).2.done) = some true := by
    decide +kernel
  obtain ⟨h, fed, done⟩ := map_eq_some_iff.mp accepted
  obtain ⟨earlier, success, later, _, mech, _, _, split, _, reported, -, -, -,
    -, -, exchanged, -⟩ :=
    sasl_fails_closed vectorEnv vectorConfig true vectorSasl rfl vectorMessages h fed _ done
  exact ⟨h, fed, done, earlier, success, later, mech, split, reported, exchanged⟩

end Ircthing.Irc.Handshake
