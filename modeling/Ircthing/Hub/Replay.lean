/-
This file models how the hub follows chathistory batches, and compares its view of a connection with
that of the manager.
-/

import Ircthing.Hub.Routing
import Ircthing.Irc.ReadLoop
import Ircthing.Library.Machine

namespace Ircthing.Hub

open Library Irc List Option AList Dict Machine

variable {line message : IrcMessage} {pages : Dict Bytes Nat} {ml : Multiline} {ev : Event}

/-! ### Batches of the hub -/

structure HistBatch extends Batch where
  count : Nat := 0
  lastTS : Int := 0
  lastID : Bytes := []
deriving DecidableEq

def maxOpenHistBatches : Nat := 256

def maxBackfillTargets : Nat := 4096

def maxBackfillPages : Nat := 10

def maxBatchRefBytes : Nat := 512

variable (digest : Bytes → Bytes) (text : Bytes)

def clampBatchRef : Bytes :=
  if text.length ≤ maxBatchRefBytes then text else 0x00 :: digest text

theorem clampBatchRef_eq : clampBatchRef = Irc.clampBatchRef := rfl

def clampDetach : Bytes := clampUTF8 text maxServerInfoBytes

/-- What the hub keeps of the backfill of a connection: the open batches, and the follow-up pages
asked for per target. -/
structure Backfill where
  batches : Dict Bytes HistBatch := ∅
  pages : Dict Bytes Nat := ∅
deriving DecidableEq

/-- What the hub asks of the connection and of the libraries: digests, folds, the size of a page,
canonical spellings, and the reading of times. -/
structure Upstream where
  digest : Bytes → Bytes
  fold : Bytes → Bytes
  historyPageSize : Nat
  canonical : Bytes → Bytes
  env : Env

/-- What the end of a batch sets off: a request for the next page, and the buffers announced as
changed. -/
structure Finished where
  request : Option (Bytes × Int × Bytes) := none
  changed : List Bytes := []
deriving DecidableEq

def historyReplay (tags : List (Bytes × Bytes)) (batches : Dict Bytes HistBatch) : Bool :=
  clampBatchRef digest (batchRef tags) ≠ [] &&
    (batches.lookup (clampBatchRef digest (batchRef tags))).isSome

def HistBatch.noteReplayed (upstream : Upstream) (now : Int) (ev : Event) (batch : HistBatch) :
    HistBatch :=
  let time := messageTime upstream.env now ev
  { batch with
    count := batch.count + 1
    lastTS := if time = Store.zeroTime then batch.lastTS else Store.unixMilli time
    lastID := clampDetach (msgidOf ev.line) }

namespace Backfill

variable (upstream : Upstream)

def openHistoryBatch (line : IrcMessage) (ref : Bytes) (backfill : Backfill) : Backfill :=
  if clampBatchRef upstream.digest ref = [] then backfill
  else if maxOpenHistBatches ≤ backfill.batches.size then backfill
  else
    { backfill with
      batches := backfill.batches.insert (clampBatchRef upstream.digest ref)
        { target := clampDetach (line.param 2) } }

def nextPage (batch : HistBatch) (pages : Dict Bytes Nat) : Dict Bytes Nat × Bool :=
  let key := upstream.fold batch.target
  let asked := (pages.lookup key).getD 0
  if (pages.lookup key).isNone ∧ maxBackfillTargets ≤ pages.size then (pages, false)
  else if upstream.historyPageSize ≤ batch.count ∧ 0 < batch.lastTS ∧ asked < maxBackfillPages then
    (pages.insert key (asked + 1), true)
  else (pages, false)

def closeHistoryBatch (id : Bytes) (backfill : Backfill) : Backfill × Finished :=
  match backfill.batches.lookup id with
  | none => (backfill, {})
  | some batch =>
    let (pages, more) := nextPage upstream batch backfill.pages
    ({ batches := backfill.batches.erase id, pages },
      { request := if more then some (batch.target, batch.lastTS, batch.lastID) else none
        changed := upstream.canonical batch.target ::
          if batch.starTouched then [serverBufferTarget] else [] })

def trackHistoryBatch (line : IrcMessage) (backfill : Backfill) : Backfill × Finished :=
  match opensHistory line with
  | some ref => (openHistoryBatch upstream line ref backfill, {})
  | none =>
    match closesBatch line with
    | some ref => closeHistoryBatch upstream (clampBatchRef upstream.digest ref) backfill
    | none => (backfill, {})

def onMessage (now : Int) (backfill : Backfill) (ev : Event) : Backfill × Finished :=
  if ev.line.command = lit "BATCH" then trackHistoryBatch upstream ev.line backfill
  else if historyReplay upstream.digest ev.line.tags backfill.batches then
    ({ backfill with
        batches := modify (clampBatchRef upstream.digest (batchRef ev.line.tags))
          (HistBatch.noteReplayed upstream now ev) backfill.batches }, {})
  else (backfill, {})

end Backfill

/-! ### A connection as both see it -/

structure Classified where
  message : IrcMessage
  playback : Bool
  replay : Bool
deriving DecidableEq

structure Session where
  reader : ReadLoop
  backfill : Backfill := {}
  log : List Classified := []

/-- A line of the server and what its handling meets: an answer that can not be queued, an event
given up because the context has ended, and the time. -/
structure Arrival where
  line : IrcMessage
  failed : Bool := false
  dropped : Bool := false
  now : Int := 0
deriving DecidableEq

structure Setting where
  network : Bytes
  handshake : Irc.Env
  limits : Limits
  upstream : Upstream

namespace Session

variable (setting : Setting)

def hear (now : Int) (session : Session) (emission : Emission) : Session :=
  { session with
    backfill := (session.backfill.onMessage setting.upstream now
      { network := setting.network, line := emission.message, time := now }).1
    log := session.log ++
      [⟨emission.message, emission.playback,
        historyReplay setting.upstream.digest emission.message.tags session.backfill.batches⟩] }

def deliver (arrival : Arrival) (session : Session) (turn : ReadLoop × List Emission) : Session :=
  (if arrival.dropped then [] else turn.2).foldl (hear setting arrival.now)
    { session with reader := turn.1 }

def step (session : Session) (arrival : Arrival) : Option Session :=
  match session.reader with
  | .registering h =>
    some (session.deliver setting arrival
      (ReadLoop.register setting.handshake h arrival.line arrival.failed))
  | .serving connection histBatch ml =>
    some (session.deliver setting arrival
      (ReadLoop.processLine setting.upstream.digest setting.limits connection histBatch ml
        arrival.line arrival.failed))
  | .ended => none

def opened (cfg : Config) (secure : Bool) : Session :=
  { reader := .registering (Handshake.openWith cfg secure).1 }

end Session

/-! ### The two maps -/

def Synced (histBatch : OpenBatches) (batches : Dict Bytes HistBatch) : Prop :=
  ∀ key, (histBatch.lookup key).isSome = (batches.lookup key).isSome

variable {histBatch next : OpenBatches} {batches : Dict Bytes HistBatch} {digest : Bytes → Bytes}
  {upstream : Upstream}

section

variable (synced : Synced histBatch batches)
include synced

theorem Synced.insert (key : Bytes) (batch : HistBatch) :
    Synced (histBatch.insert key ()) (batches.insert key batch) := by
  intro other
  rw [lookup_insert_eq, lookup_insert_eq]
  split
  · rfl
  · exact synced other

theorem Synced.erase (key : Bytes) : Synced (histBatch.erase key) (batches.erase key) := by
  intro other
  rw [lookup_erase_eq, lookup_erase_eq]
  split
  · rfl
  · exact synced other

theorem Synced.modify (key : Bytes)
    (rewrite : HistBatch → HistBatch) : Synced histBatch (batches.modify key rewrite) := by
  intro other
  rw [lookup_modify, synced other]
  split
  · rw [isSome_map]
  · rfl

theorem Synced.playback_eq (tags : List (Bytes × Bytes)) :
    playback digest histBatch tags = historyReplay digest tags batches := by
  rw [playback, historyReplay, clampBatchRef_eq, batchKey, synced]
  congr 1
  exact decide_eq_decide.mpr (not_congr clampBatchRef_eq_nil.symm)

end

def marker (line : IrcMessage) : Option Bytes := (opensHistory line).or (closesBatch line)

theorem command_of_marker (other : line.command ≠ lit "BATCH") :
    opensHistory line = none ∧ closesBatch line = none := by
  rw [opensHistory, closesBatch, if_neg fun both => other both.1, if_neg other]
  exact ⟨rfl, rfl⟩

theorem Synced.track (synced : Synced histBatch batches)
    (tracked : trackChathistoryBatch upstream.digest line histBatch = .ok next) :
    Synced next (Backfill.trackHistoryBatch upstream line ⟨batches, pages⟩).1.batches := by
  rw [trackChathistoryBatch] at tracked
  rw [Backfill.trackHistoryBatch]
  cases opened : opensHistory line with
  | some =>
    rw [opened] at tracked
    simp only at tracked ⊢
    split at tracked
    · cases tracked
    · next room =>
      rw [size_eq_of_isSome synced] at room
      rw [Backfill.openHistoryBatch, clampBatchRef_eq]
      split at tracked
      · next empty =>
        cases tracked
        rw [if_pos empty]
        exact synced
      · next named =>
        cases tracked
        have few : ¬ maxOpenHistBatches ≤ batches.size := room
        rw [if_neg named, if_neg few]
        exact synced.insert _ _
  | none =>
    rw [opened] at tracked
    cases closed : closesBatch line with
    | none =>
      rw [closed] at tracked
      cases tracked
      exact synced
    | some =>
      rw [closed] at tracked
      cases tracked
      simp only [Backfill.closeHistoryBatch, clampBatchRef_eq]
      split
      · next absent =>
        intro other
        rw [lookup_erase_eq]
        split
        · next same =>
          rw [same, absent]
          rfl
        · exact synced other
      · exact synced.erase _

theorem Synced.onMessage (synced : Synced histBatch batches)
    (tracked : trackChathistoryBatch upstream.digest ev.line histBatch = .ok next) (now : Int) :
    Synced next (Backfill.onMessage upstream now ⟨batches, pages⟩ ev).1.batches := by
  rw [Backfill.onMessage]
  by_cases marks : ev.line.command = lit "BATCH"
  · rw [if_pos marks]
    exact synced.track tracked
  · obtain ⟨opened, closed⟩ := command_of_marker marks
    rw [trackChathistoryBatch, opened, closed] at tracked
    cases tracked
    rw [if_neg marks]
    split
    · exact synced.modify _ _
    · exact synced

theorem lookup_track (tracked : trackChathistoryBatch digest line histBatch = .ok next)
    {key : Bytes} (other : (marker line).map (Irc.clampBatchRef digest) ≠ some key) :
    next.lookup key = histBatch.lookup key := by
  rw [trackChathistoryBatch] at tracked
  rw [marker] at other
  cases opened : opensHistory line with
  | some ref =>
    rw [opened] at tracked other
    have different : Irc.clampBatchRef digest ref ≠ key := fun same => other (congrArg some same)
    simp only at tracked
    split at tracked
    · cases tracked
    · split at tracked
      · cases tracked
        rfl
      · cases tracked
        rw [lookup_insert_eq, if_neg (Ne.symm different)]
  | none =>
    rw [opened] at tracked other
    cases closed : closesBatch line with
    | none =>
      rw [closed] at tracked
      cases tracked
      rfl
    | some ref =>
      rw [closed] at tracked other
      cases tracked
      have different : Irc.clampBatchRef digest ref ≠ key := fun same => other (congrArg some same)
      rw [lookup_erase_eq, if_neg (Ne.symm different)]

/-! ### Reassembled messages -/

def Voiced (acc : MlAccum) : Prop :=
  (acc.first = true ∧ acc.command = []) ∨ acc.command ≠ lit "BATCH" ∧ acc.first = false

theorem voiced_add {acc next : MlAccum} (voiced : Voiced acc) (added : acc.add line = .ok next) :
    Voiced next := by
  rw [MlAccum.add] at added
  split at added
  · cases added
    exact voiced
  · next spoken =>
    split at added
    · cases added
    · split at added
      · cases added
      · cases added
        refine .inr ⟨?_, rfl⟩
        show (if acc.first = true then line.command else acc.command) ≠ lit "BATCH"
        rcases voiced with ⟨start, _⟩ | ⟨named, started⟩
        · rw [if_pos start]
          intro marks
          rw [isMessageLine, marks] at spoken
          exact spoken (by decide)
        · rw [started]
          exact named

theorem build_of_voiced {acc : MlAccum} (voiced : Voiced acc) (built : acc.build = some message) :
    message.command ≠ lit "BATCH" ∧ message.tags = acc.tags := by
  rw [MlAccum.build] at built
  split at built
  · cases built
  · next named =>
    cases built
    exact ⟨voiced.elim (fun start => absurd start.2 named) (·.1), rfl⟩

/-! ### The two layers agree -/

/-- A line that keeps the two layers in step: no chathistory batch is opened during the
registration; behind it no BATCH line is lost, none carries the reference it opens or closes, and no
multiline batch of an open chathistory batch is closed. -/
def inStep (digest : Bytes → Bytes) (arrival : Arrival) : ReadLoop → Bool
  | .registering _ => (opensHistory arrival.line).isNone
  | .serving _ histBatch ml =>
    ((marker arrival.line).isNone || !arrival.dropped) &&
    (batchRef arrival.line.tags == [] ||
      (marker arrival.line).map (Irc.clampBatchRef digest) !=
        some (batchKey digest arrival.line.tags)) &&
    ((closesBatch arrival.line).bind fun ref => ml.lookup ref).all fun acc =>
      !playback digest histBatch acc.tags
  | .ended => true

namespace Session

variable {setting : Setting} {session : Session} {arrival : Arrival} {connection : Connection}
  {histBatch : OpenBatches} {later : Multiline}

def InStep (setting : Setting) (session : Session) (arrival : Arrival) : Prop :=
  inStep setting.upstream.digest arrival session.reader = true

instance (session : Session) (arrival : Arrival) : Decidable (InStep setting session arrival) :=
  inferInstanceAs (Decidable (_ = true))

/-- What holds along a run: the two layers have classified every line alike and have the same
batches open. -/
structure Agreed (session : Session) : Prop where
  alike : ∀ entry ∈ session.log, entry.replay = entry.playback
  registering : ∀ h, session.reader = .registering h → session.backfill.batches = ∅
  serving : ∀ connection histBatch ml, session.reader = .serving connection histBatch ml →
    Synced histBatch session.backfill.batches ∧ ∀ ref acc, ml.lookup ref = some acc → Voiced acc

theorem Agreed.alike_hear (agreed : session.Agreed) {reader : ReadLoop} (now : Int) {treated : Bool}
    (same : historyReplay setting.upstream.digest message.tags session.backfill.batches = treated) :
    ∀ entry ∈ (hear setting now { session with reader := reader } ⟨message, treated⟩).log,
      entry.replay = entry.playback := by
  intro entry member
  rcases mem_append.mp member with before | last
  · exact agreed.alike entry before
  · rw [mem_singleton.mp last]
    exact same

theorem Agreed.ended (agreed : session.Agreed) :
    (session.deliver setting arrival (.ended, [])).Agreed := by
  rw [deliver, ite_self, foldl_nil]
  exact ⟨agreed.alike, fun _ here => (by cases here), fun _ _ _ here => (by cases here)⟩

theorem onMessage_empty {backfill : Backfill} (empty : backfill.batches = ∅)
    (quiet : opensHistory ev.line = none) {upstream : Upstream} {now : Int} :
    (backfill.onMessage upstream now ev).1.batches = ∅ := by
  have unnamed : ∀ tags, historyReplay upstream.digest tags backfill.batches = false := by
    intro tags
    rw [historyReplay, empty, lookup_empty, isSome_none, Bool.and_false]
  rw [Backfill.onMessage]
  split
  · rw [Backfill.trackHistoryBatch, quiet]
    cases closesBatch ev.line with
    | none => exact empty
    | some =>
      simp only [Backfill.closeHistoryBatch, empty, lookup_empty]
  · rw [unnamed, if_neg Bool.false_ne_true]
    exact empty

section

variable (agreed : session.Agreed)
include agreed

theorem Agreed.register {h : Handshake}
    (here : session.reader = .registering h) (quiet : opensHistory arrival.line = none) :
    (session.deliver setting arrival
      (ReadLoop.register setting.handshake h arrival.line arrival.failed)).Agreed := by
  have empty := agreed.registering h here
  rw [ReadLoop.register]
  cases h.handle setting.handshake arrival.line with | mk next reply =>
  dsimp only
  split
  · exact agreed.ended
  · -- in every case the hub has no batch open, and the manager starts with none
    have starts : ∀ (reader : ReadLoop) (backfill : Backfill) (log : List Classified),
        (∀ entry ∈ log, entry.replay = entry.playback) → backfill.batches = ∅ →
        (∀ connection histBatch ml, reader = .serving connection histBatch ml →
          histBatch = ∅ ∧ ml = ∅) →
        Agreed ⟨reader, backfill, log⟩ := by
      intro reader backfill log alike none fresh
      refine ⟨alike, fun _ _ => none, fun connection histBatch ml serving => ?_⟩
      obtain ⟨rfl, rfl⟩ := fresh connection histBatch ml serving
      refine ⟨fun key => ?_, fun ref acc found => ?_⟩
      · rw [show backfill.batches = ∅ from none]
        rfl
      · cases found
    have fresh : ∀ connection histBatch ml,
        (if reply.done = true then ReadLoop.serving { nick := next.nick } ∅ ∅
          else .registering next) = .serving connection histBatch ml → histBatch = ∅ ∧ ml = ∅ := by
      intro connection histBatch ml serving
      split at serving
      · cases serving
        exact ⟨rfl, rfl⟩
      · cases serving
    rw [deliver]
    cases arrival.dropped with
    | true => exact starts _ _ _ agreed.alike empty fresh
    | false =>
      refine starts _ _ _ (agreed.alike_hear arrival.now ?_) ?_ fresh
      · rw [historyReplay, empty, lookup_empty, isSome_none, Bool.and_false]
      · exact onMessage_empty empty quiet

theorem Agreed.track {next : Connection} {tracked : OpenBatches}
    (synced : Synced histBatch session.backfill.batches)
    (voiced : ∀ ref acc, later.lookup ref = some acc → Voiced acc)
    (tracks : trackChathistoryBatch setting.upstream.digest arrival.line histBatch = .ok tracked)
    (inStep : inStep setting.upstream.digest arrival (.serving connection histBatch ml) = true) :
    (session.deliver setting arrival (.serving next tracked later,
      [⟨arrival.line, playback setting.upstream.digest tracked arrival.line.tags⟩])).Agreed := by
  simp only [Hub.inStep, Bool.and_eq_true, Bool.or_eq_true, isNone_iff_eq_none,
    Bool.not_eq_true', beq_iff_eq, bne_iff_ne] at inStep
  obtain ⟨⟨heard, foreign⟩, _⟩ := inStep
  have serving : ∀ backfill log, (∀ entry ∈ log, entry.replay = entry.playback) →
      Synced tracked backfill.batches → Agreed ⟨.serving next tracked later, backfill, log⟩ := by
    intro backfill log alike same
    refine ⟨alike, fun _ here => (by cases here), fun _ _ _ here => ?_⟩
    cases here
    exact ⟨same, voiced⟩
  rw [deliver]
  cases lost : arrival.dropped with
  | true =>
    -- the line marks no batch, so the hub does not miss it
    rcases heard with plain | kept
    · rw [marker, or_eq_none_iff] at plain
      rw [trackChathistoryBatch, plain.1, plain.2] at tracks
      cases tracks
      exact serving _ _ agreed.alike synced
    · rw [lost] at kept
      cases kept
  | false =>
    refine serving _ _ (agreed.alike_hear arrival.now ?_) ?_
    · rcases foreign with untagged | different
      · rw [historyReplay, playback, clampBatchRef_eq, clampBatchRef_eq_nil.mpr untagged, untagged]
        rfl
      · rw [← synced.playback_eq, playback, playback, lookup_track tracks different]
    · exact synced.onMessage tracks arrival.now

theorem Agreed.consume
    (synced : Synced histBatch session.backfill.batches)
    (before : ∀ ref acc, ml.lookup ref = some acc → Voiced acc)
    (voiced : ∀ ref acc, later.lookup ref = some acc → Voiced acc)
    (inStep : inStep setting.upstream.digest arrival (.serving connection histBatch ml) = true) :
    (session.deliver setting arrival (.serving connection histBatch later,
      (feed ml arrival.line).2.emit.toList.map fun message => ⟨message, false⟩)).Agreed := by
  simp only [Hub.inStep, Bool.and_eq_true] at inStep
  have apart := inStep.2
  have serving : ∀ backfill log, (∀ entry ∈ log, entry.replay = entry.playback) →
      Synced histBatch backfill.batches →
        Agreed ⟨.serving connection histBatch later, backfill, log⟩ := by
    intro backfill log alike same
    refine ⟨alike, fun _ here => (by cases here), fun _ _ _ here => ?_⟩
    cases here
    exact ⟨same, voiced⟩
  rw [deliver]
  cases arrival.dropped with
  | true => exact serving _ _ agreed.alike synced
  | false =>
    cases emitted : (feed ml arrival.line).2.emit with
    | none => exact serving _ _ agreed.alike synced
    | some message =>
      obtain ⟨ref, acc, closed, held, built⟩ := feed_emit emitted
      obtain ⟨spoken, tags⟩ := build_of_voiced (before ref acc held) built
      have live : historyReplay setting.upstream.digest message.tags session.backfill.batches =
          false := by
        rw [closed, bind_some, held, all_some, Bool.not_eq_true'] at apart
        rw [tags, ← synced.playback_eq]
        exact apart
      refine serving _ _ (agreed.alike_hear arrival.now live) ?_
      show Synced histBatch (session.backfill.onMessage setting.upstream arrival.now
        { network := setting.network, line := message, time := arrival.now }).1.batches
      rw [Backfill.onMessage, if_neg spoken, if_neg (by rw [live]; exact Bool.false_ne_true)]
      exact synced

theorem Agreed.step (inStep : session.InStep setting arrival)
    {next : Session} (taken : session.step setting arrival = some next) : next.Agreed := by
  rw [InStep] at inStep
  rw [Session.step] at taken
  cases here : session.reader with
  | registering =>
    rw [here] at taken inStep
    cases taken
    exact agreed.register here (isNone_iff_eq_none.mp inStep)
  | ended =>
    rw [here] at taken
    cases taken
  | serving connection histBatch ml =>
    rw [here] at taken inStep
    cases taken
    obtain ⟨synced, voiced⟩ := agreed.serving connection histBatch ml here
    have still : ∀ ref acc, (feed ml arrival.line).1.lookup ref = some acc → Voiced acc :=
      feed_each (.inl ⟨rfl, rfl⟩) (fun _ _ => voiced_add) voiced
    rw [ReadLoop.processLine]
    dsimp only
    split
    · exact agreed.ended
    · split
      · exact agreed.consume synced voiced still inStep
      · split
        · exact agreed.ended
        · next tracked tracks =>
          split
          · exact agreed.ended
          · exact agreed.track synced still tracks inStep

end

theorem agreed_opened {cfg : Config} {secure : Bool} : (opened cfg secure).Agreed :=
  ⟨nofun, fun _ _ => rfl, nofun⟩

/-- In every run whose lines keep the two layers in step, the hub classifies a line as replayed
exactly when the manager treated it as played back. -/
theorem replay_agreement (setting : Setting) (cfg : Config) (secure : Bool) (session : Session)
    (reached : Machine.Reaches (step setting) (InStep setting) (opened cfg secure) session) :
    ∀ entry ∈ session.log, entry.replay = entry.playback := by
  have agreed : session.Agreed :=
    reached.invariant agreed_opened fun _ _ _ before inStep taken =>
      before.step inStep taken
  exact agreed.alike

def plainSetting : Setting where
  network := lit "net"
  handshake := Irc.vectorEnv
  limits := {}
  upstream :=
    { digest := id, fold := id, historyPageSize := 100, canonical := id,
      env := { parseTime := fun _ => none, render := fun _ => [] } }

def plainConfig : Config := { tls := true, nick := lit "ann" }

/-- The line by which a batch of `#c` is opened, and a JOIN that is part of it. -/
def openX : Arrival := { line := newMsg "BATCH" [lit "+x", lit "chathistory", lit "#c"] }

def joinInX : Arrival :=
  { line := ⟨[(lit "batch", lit "x")], some { name := lit "bob" }, lit "JOIN", [lit "#c"]⟩ }

def welcome : Arrival := { line := newMsg "001" [lit "ann", lit "welcome"] }

theorem replay_agreement_batch :
    ∃ session, Machine.Reaches (step plainSetting) (InStep plainSetting) (opened plainConfig true)
        session ∧
      session.log.map (·.playback) = [false, false, true, false, false] ∧
      ∀ entry ∈ session.log, entry.replay = entry.playback := by
  have ran : (run (guarded (step plainSetting) (InStep plainSetting)) (opened plainConfig true)
      [welcome, openX, joinInX, { line := newMsg "BATCH" [lit "-x"] }, joinInX]).map
        (fun session => session.log.map (·.playback)) =
      some [false, false, true, false, false] := by decide +kernel
  obtain ⟨session, ran, treated⟩ := map_eq_some_iff.mp ran
  have reached := reaches_run .refl ran
  exact ⟨session, reached, treated, replay_agreement plainSetting plainConfig true session reached⟩

/-- A batch opened before the welcome is open for the hub and not for the manager: a line of it is
stored as history, and its live effects are applied. -/
theorem registration_batch_disagrees :
    ∃ session, Machine.Reaches (step plainSetting) (fun _ _ => True) (opened plainConfig true)
        session ∧
      ∃ entry ∈ session.log, entry.message = joinInX.line ∧ entry.replay = true ∧
        entry.playback = false := by
  have ran : (run (guarded (step plainSetting) fun _ _ => True)
      (opened plainConfig true) [openX, welcome, joinInX]).map (fun session => session.log) =
      some [⟨openX.line, false, false⟩, ⟨welcome.line, false, false⟩,
        ⟨joinInX.line, false, true⟩] := by decide +kernel
  obtain ⟨session, ran, logged⟩ := map_eq_some_iff.mp ran
  refine ⟨session, reaches_run .refl ran, ⟨joinInX.line, false, true⟩, ?_, rfl, rfl, rfl⟩
  rw [logged]
  exact .tail _ (.tail _ mem_cons_self)

end Session

end Ircthing.Hub
