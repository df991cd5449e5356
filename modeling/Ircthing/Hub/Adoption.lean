/-
This file proves that replayed messages of our own are paired with their placeholders in order.
-/

import Ircthing.Hub.Redaction

namespace Ircthing.Hub

open Library Effect Irc List Option Store Tables
open Store (Fault StoreError)

variable {hub : HubState} {conn : Conn} {buffer : Nat} {env : Env}
  {name network target statusPrefixes nick : Bytes} {now : Int} {faults : Faults} {batch : Batch}

/-! ### Placeholders -/

/-- The row is what `persistOwn` stores of a text sent under a nick. -/
structure Placeholder (nick target text : Bytes) (sentAt : Int) (row : MessageRow) :
    Prop where
  msgid : row.msgid = none
  sender : row.sender = clampUTF8 nick maxStoredFieldBytes
  text : row.text = nullString
    (clampUTF8 (searchText (ownPrivmsg target text)) maxStoredMessageBytes)
  ts : row.ts = unixMilli sentAt

/-! ### Replayed lines -/

structure Replay where
  ev : Event
  batch : Batch
  now : Int
  faults : Faults := {}

def replayAll (env : Env) (conn : Conn) (lines : List Replay) : HubAction Unit :=
  lines.forM fun line => do
    let _ ← persistEvent env line.faults line.now conn line.ev (some line.batch)

structure OwnEcho extends Replay where
  target : Bytes
  text : Bytes
  sentAt : Int
  row : MessageRow

variable {echo : OwnEcho}

def OwnEcho.msgid (echo : OwnEcho) : Bytes := msgidOf echo.ev.line

structure OwnEcho.Matches (echo : OwnEcho) (env : Env) (network nick : Bytes) : Prop where
  placeholder : Placeholder nick echo.target echo.text echo.sentAt echo.row
  searchable : clampUTF8 (searchText (ownPrivmsg echo.target echo.text)) maxStoredMessageBytes ≠ []
  network : echo.ev.network = network
  conversation : isConversation echo.ev.line = true
  source : echo.ev.line.source.isSome = true
  sender : senderOf echo.ev.line = nick
  text : echo.ev.line.trailing = echo.text
  named : echo.msgid ≠ []
  short : echo.msgid.length ≤ maxStoredFieldBytes
  time : messageTime env echo.now echo.ev ≤ echo.sentAt + ownDedupWindow

namespace OwnEcho

variable {echo : OwnEcho} {env : Env} {network nick : Bytes}

section

variable (same : echo.Matches env network nick)
include same

theorem Matches.searchText_eq :
    searchText echo.ev.line = searchText (ownPrivmsg echo.target echo.text) := by
  have sent : isConversation (ownPrivmsg echo.target echo.text) = true := by
    show (decide (lit "PRIVMSG" = lit "PRIVMSG") || _) = true
    rw [decide_eq_true rfl, Bool.true_or]
  have trailing : (ownPrivmsg echo.target echo.text).trailing = echo.text := rfl
  unfold searchText
  rw [if_pos same.conversation, if_pos sent, same.text, trailing]

theorem Matches.searchText_ne :
    searchText echo.ev.line ≠ [] := by
  intro blank
  rw [same.searchText_eq] at blank
  apply same.searchable
  rw [blank]
  rfl

theorem Matches.not_probe :
    isProbe echo.ev.line.trailing = false := by
  by_contra probes
  rw [Bool.not_eq_false] at probes
  obtain ⟨starts, noAction⟩ := Bool.and_eq_true_iff.mp probes
  have unwrapped : ctcpAction echo.ev.line.trailing = none := by
    unfold ctcpAction cutPrefix
    rw [if_neg, map_none]
    intro action
    have longer : (0x01 :: lit "ACTION") <+: (0x01 :: lit "ACTION ") := ⟨lit " ", by decide⟩
    have within := longer.trans (List.isPrefixOf_iff_prefix.mp action)
    rw [hasPrefix, isPrefixOf_iff_prefix.mpr within] at noAction
    cases noAction
  apply same.searchText_ne
  unfold searchText
  rw [if_pos same.conversation, unwrapped]
  exact if_pos ((hasPrefix_byte _ _).mp starts)

theorem Matches.since :
    unixMilli (messageTime env echo.now echo.ev - ownDedupWindow) ≤ echo.row.ts := by
  rw [same.placeholder.ts]
  have := same.time
  exact Int.ediv_le_ediv (by decide) (by omega)

end

end OwnEcho

/-! ### One replayed line -/

/-- The lines of a batch go to the buffer `name`. The target is short enough to be a stored name. -/
structure ReplaysInto (conn : Conn) (network name : Bytes) (batch : Batch) (store : Store) :
    Prop where
  given : batch.target ≠ []
  short : batch.target.length ≤ maxStoredFieldBytes
  resolves : store.canonicalName network
    (stripStatusPrefix batch.target conn.statusPrefixes conn.isChannel) conn.fold = name

theorem stripStatusPrefix_ne {isChan : Bytes → Bool}
    (given : target ≠ []) : stripStatusPrefix target statusPrefixes isChan ≠ [] := by
  unfold stripStatusPrefix
  cases target with
  | nil => exact absurd rfl given
  | cons =>
    dsimp only
    split
    next stripped =>
      exact stripped.1
    · exact cons_ne_nil _ _

theorem length_stripStatusPrefix (isChan : Bytes → Bool) :
    (stripStatusPrefix target statusPrefixes isChan).length ≤ target.length := by
  unfold stripStatusPrefix
  cases target with
  | nil => exact le_rfl
  | cons =>
    dsimp only
    split
    · exact Nat.le_succ _
    · exact le_rfl

/-- What a replay may change of the store besides rows of messages: the cached id of the buffer. -/
structure Rereads (network name : Bytes) (store next : Store) : Prop where
  coherent : next.Coherent
  networks : next.db.networks = store.db.networks
  buffers : next.db.buffers = store.db.buffers
  cached : ∀ key, key ≠ (network, name) → next.buffers.lookup key = store.buffers.lookup key
  stays : ∀ key, next.buffers.lookup key = none → store.buffers.lookup key = none

namespace Rereads

variable {network name : Bytes} {store next : Store}

theorem refl (coherent : store.Coherent) (network name : Bytes) :
    Rereads network name store store :=
  ⟨coherent, rfl, rfl, fun _ _ => rfl, fun _ => id⟩

theorem trans {last : Store} (one : Rereads network name store next)
    (two : Rereads network name next last) : Rereads network name store last :=
  ⟨two.coherent, two.networks.trans one.networks, two.buffers.trans one.buffers,
    fun key other => (two.cached key other).trans (one.cached key other),
    fun key missing => one.stays key (two.stays key missing)⟩

theorem into (rereads : Rereads network name store next)
    (into : ReplaysInto conn network name batch store) :
    ReplaysInto conn network name batch next := by
  refine ⟨into.given, into.short, ?_⟩
  have scans : next.db.foldedName network = store.db.foldedName network := by
    unfold foldedName bufferNamesOf Tables.networkId
    rw [rereads.networks, rereads.buffers]
  have resolves := into.resolves
  by_cases same : stripStatusPrefix batch.target conn.statusPrefixes conn.isChannel = name
  · rw [same] at resolves ⊢
    unfold canonicalName at resolves ⊢
    rw [scans]
    split
    · rfl
    next uncached =>
      rw [rereads.stays _ (not_isSome_iff_eq_none.mp uncached)] at resolves
      exact resolves
  · unfold canonicalName at resolves ⊢
    rw [scans, rereads.cached _ fun equal => same (Prod.mk.inj equal).2]
    exact resolves

theorem located (rereads : Rereads network name store next) (target : Bytes) :
    next.db.locate network target = store.db.locate network target := by
  unfold Tables.locate Tables.networkId Tables.bufferId
  rw [rereads.networks, rereads.buffers]

end Rereads

/-- The line as `AdoptOwnMsgID` is asked about it. -/
def ownMsgOf (env : Env) (now : Int) (ev : Event) (target : Bytes) : OwnMsg where
  network := ev.network
  target := target
  sender := senderOf ev.line
  text := searchText ev.line
  msgID := msgidOf ev.line
  sinceMs := unixMilli (messageTime env now ev - ownDedupWindow)

def placeholderOf (env : Env) (now : Int) (ev : Event) (buffer : Nat) (tables : Tables) :
    Option MessageRow :=
  tables.placeholder buffer (senderOf ev.line)
    (clampUTF8 (searchText ev.line) maxStoredMessageBytes)
    (unixMilli (messageTime env now ev - ownDedupWindow))

/-- What a replayed line does when its msgid is stored already, or a placeholder waits for it. -/
structure Pairs (env : Env) (now : Int) (ev : Event) (name : Bytes) (buffer : Nat)
    (store next : Store) : Prop where
  rereads : Rereads ev.network name store next
  again : store.db.hasMsgid buffer (msgidOf ev.line) = true → next.db = store.db
  stamps : store.db.hasMsgid buffer (msgidOf ev.line) = false →
    ∃ row, placeholderOf env now ev buffer store.db.toTables = some row ∧
      next.db.toTables = store.db.updateMessage row.id
        fun row => { row with msgid := some (msgidOf ev.line) }

structure Pairable (line : IrcMessage) : Prop where
  conversation : isConversation line = true
  source : line.source.isSome = true
  sender : senderOf line ≠ []
  text : searchText line ≠ []
  named : msgidOf line ≠ []
  short : (msgidOf line).length ≤ maxStoredFieldBytes
  speech : isProbe line.trailing = false

theorem Job.append_duplicate {job : Job} {fault veto : Fault} (coherent : hub.store.Coherent)
    (located : hub.store.db.locate job.network (job.name hub.store) = some buffer)
    (named : clampUTF8 job.message.msgID maxStoredFieldBytes ≠ [])
    (held : hub.store.db.hasMsgid buffer
      (clampUTF8 job.message.msgID maxStoredFieldBytes) = true) :
    wp (job.append fault veto now)
      (fun announced next => announced = none ∧ next = { hub with store := next.store } ∧
        Rereads job.network (job.name hub.store) hub.store next.store ∧
        next.store.db = hub.store.db)
      (fun _ _ => False) hub := by
  refine wp_mono (job.append_files fault veto now coherent) ?_ fun _ _ => id
  rintro announced next ⟨only, files⟩
  cases files with
  | nothing opens =>
    have same := opens.settled buffer located
    exact ⟨rfl, only, ⟨opens.coherent, by rw [same], by rw [same], opens.cached, opens.stays⟩, same⟩
  | row opens found committed =>
    have same := opens.settled buffer located
    rw [same, located] at found
    cases found
    have unseen := committed.unseen.resolve_left named
    rw [same] at unseen
    exact absurd (held.symm.trans unseen) Bool.noConfusion

theorem persistEvent_pairs {ev : Event} (sound : faults.adopt = noFault)
    (quiet : conn.echoMessage = false) (pairable : Pairable ev.line) (coherent : hub.store.Coherent)
    (located : hub.store.db.locate ev.network name = some buffer)
    (into : ReplaysInto conn ev.network name batch hub.store)
    (waits : hub.store.db.hasMsgid buffer (msgidOf ev.line) = true ∨
      (placeholderOf env now ev buffer hub.store.db.toTables).isSome = true) :
    wp (persistEvent env faults now conn ev (some batch))
      (fun flagged next => flagged = some batch ∧ next = { hub with store := next.store } ∧
        Pairs env now ev name buffer hub.store next.store)
      (fun _ _ => False) hub := by
  have clamped : clampMsgID (msgidOf ev.line) = msgidOf ev.line :=
    clampUTF8_of_le pairable.short
  generalize bare : stripStatusPrefix batch.target conn.statusPrefixes conn.isChannel = target
  have routes : persistBuffer faults.route conn ev (some batch) = pure (some target) := by
    unfold persistBuffer replayTarget
    dsimp only
    rw [if_pos ⟨into.given, pairable.conversation⟩, bare, if_neg]
    rw [not_or, pairable.speech]
    exact ⟨Bool.false_ne_true, bare ▸ stripStatusPrefix_ne into.given⟩
  have adopts : (eventJob env now conn ev true target).adopts =
      some (ownMsgOf env now ev target) := by
    unfold eventJob replayedOwn
    rw [quiet, pairable.conversation, pairable.source]
    have named : (msgidOf ev.line != []) = true := by simpa using pairable.named
    rw [named]
    rfl
  have name_eq : ∀ store : Store, ReplaysInto conn ev.network name batch store →
      (eventJob env now conn ev true target).name store = name := by
    intro store replays
    show store.canonicalName ev.network (clampUTF8 target _) conn.fold = name
    have fits : target.length ≤ maxStoredFieldBytes :=
      bare ▸ (length_stripStatusPrefix _).trans replays.short
    rw [clampUTF8_of_le fits, ← bare]
    exact replays.resolves
  have still : (eventJob env now conn ev true target).reopen hub = hub := by
    unfold Job.reopen eventJob
    simp
  unfold persistEvent
  rw [routes, wp_bind]
  show wp ((eventJob env now conn ev true target).perform faults now >>= _) _ _ hub
  unfold Job.perform
  rw [wp_bind, wp_bind, wp_modify, still, wp_bind]
  unfold Job.adopt
  rw [adopts, sound]
  rw [wp_bind, wp_recover]
  unfold onStore
  rw [wp_zoom]
  have asked := adoptOwnMsgID_adopts coherent (ownMsgOf env now ev target) (some conn.fold)
    ⟨pairable.named, pairable.text, pairable.sender⟩
  have resolved : hub.store.resolvedName ev.network target (some conn.fold) = name := by
    rw [← bare]
    exact into.resolves
  rw [show hub.store.resolvedName (ownMsgOf env now ev target).network
    (ownMsgOf env now ev target).target (some conn.fold) = name from resolved] at asked
  refine wp_mono asked ?_ fun _ _ impossible => impossible.elim
  intro done middle adopted
  have rereads : Rereads ev.network name hub.store middle :=
    ⟨adopted.coherent, adopted.networks, adopted.buffers, adopted.cached, adopted.stays⟩
  -- the line was adopted, or its msgid was there before: now it is stored
  have paired : Pairs env now ev name buffer hub.store middle ∧
      middle.db.hasMsgid buffer (msgidOf ev.line) = true := by
    cases done with
    | false =>
      obtain ⟨same, missed⟩ := adopted.missed rfl
      have held : hub.store.db.hasMsgid buffer (msgidOf ev.line) = true := by
        rcases missed buffer located with seen | missing
        · exact clamped ▸ seen
        · refine waits.resolve_right fun found => ?_
          rw [show placeholderOf env now ev buffer hub.store.db.toTables = none from missing]
            at found
          cases found
      refine ⟨⟨rereads, fun _ => same, fun unseen => ?_⟩, by rw [same]; exact held⟩
      rw [held] at unseen
      cases unseen
    | true =>
      obtain ⟨id, row, found, unseen, placeholder, written⟩ := adopted.hit rfl
      rw [show hub.store.db.locate (ownMsgOf env now ev target).network name = _ from located]
        at found
      cases found
      rw [show clampMsgID (ownMsgOf env now ev target).msgID = msgidOf ev.line from clamped]
        at unseen written
      refine ⟨⟨rereads, fun seen => ?_, fun _ => ⟨row, placeholder, written⟩⟩, ?_⟩
      · rw [unseen] at seen
        cases seen
      · have rowHeld := mem_rowsOf.mp (placeholder_eq_some placeholder).1
        refine any_eq_true.mpr ⟨{ row with msgid := some (msgidOf ev.line) }, ?_,
          decide_eq_true ⟨rowHeld.2, rfl⟩⟩
        rw [written]
        exact mem_map.mpr ⟨row, rowHeld.1, if_pos rfl⟩
  obtain ⟨pairs, held⟩ := paired
  rw [wp_pure, wp_bind]
  have middleName := name_eq middle (rereads.into into)
  have homed : middle.db.locate ev.network ((eventJob env now conn ev true target).name middle) =
      some buffer := by
    rw [middleName]
    exact (rereads.located name).trans located
  have whole : clampUTF8 (msgidOf ev.line) maxStoredFieldBytes = msgidOf ev.line := clamped
  refine wp_mono (Job.append_duplicate rereads.coherent homed ?_ ?_) ?_ fun _ _ => id
  · show clampUTF8 (msgidOf ev.line) _ ≠ []
    rw [whole]
    exact pairable.named
  · show middle.db.hasMsgid buffer (clampUTF8 (msgidOf ev.line) _) = true
    rw [whole]
    exact held
  rintro announced next ⟨rfl, only, again, same⟩
  have rereadsAgain : Rereads ev.network name middle next.store := middleName ▸ again
  refine ⟨rfl, only.trans rfl, rereads.trans rereadsAgain,
    fun seen => same.trans (pairs.again seen), fun unseen => ?_⟩
  obtain ⟨row, placeholder, written⟩ := pairs.stamps unseen
  exact ⟨row, placeholder, (congrArg Database.toTables same).trans written⟩

/-! ### A whole replay -/

/-- Own messages that wait for their msgids: their placeholders, in the order they were sent with a
clock that does not go back, are the only rows without msgid that have their sender and one of their
texts, and the msgids are new and different. -/
structure Waiting (env : Env) (conn : Conn) (network nick name : Bytes) (buffer : Nat)
    (echoes : List OwnEcho) (store : Store) : Prop where
  coherent : store.Coherent
  located : store.db.locate network name = some buffer
  paired : ∀ echo ∈ echoes, echo.Matches env network nick
  into : ∀ echo ∈ echoes, ReplaysInto conn network name echo.batch store
  sound : ∀ echo ∈ echoes, echo.faults.adopt = noFault
  held : ∀ echo ∈ echoes, echo.row ∈ store.db.rowsOf buffer
  sent : echoes.Pairwise fun first second =>
    first.sentAt ≤ second.sentAt ∧ first.row.id < second.row.id
  distinct : echoes.Pairwise fun first second => first.msgid ≠ second.msgid
  unused : ∀ echo ∈ echoes, store.db.hasMsgid buffer echo.msgid = false
  whole : ∀ row ∈ store.db.rowsOf buffer, row.msgid = none → row.sender = nick →
    ∀ echo ∈ echoes, row.text = echo.row.text → ∃ other ∈ echoes, row = other.row

def stampedBy (echoes : List OwnEcho) (row : MessageRow) : MessageRow :=
  (echoes.find? fun echo => echo.row.id = row.id).elim row fun echo =>
    { row with msgid := some echo.msgid }

theorem OwnEcho.Matches.pairable
    (same : echo.Matches env network nick) (someone : nick ≠ []) : Pairable echo.ev.line where
  conversation := same.conversation
  source := same.source
  sender := same.sender ▸ someone
  text := same.searchText_ne
  named := same.named
  short := same.short
  speech := same.not_probe

namespace Waiting

variable {env : Env} {conn : Conn} {network nick name : Bytes} {buffer : Nat} {echo : OwnEcho}
  {rest : List OwnEcho} {store next : Store}

section

variable (waiting : Waiting env conn network nick name buffer (echo :: rest) store)
include waiting

theorem earlier {other : OwnEcho} (later : other ∈ rest) : echo.row.cursor < other.row.cursor := by
  obtain ⟨clock, ids⟩ := rel_of_pairwise_cons waiting.sent later
  have first := (waiting.paired echo mem_cons_self).placeholder.ts
  have second := (waiting.paired other (.tail _ later)).placeholder.ts
  have ordered : echo.row.ts ≤ other.row.ts := by
    rw [first, second]
    exact Int.ediv_le_ediv (by decide) clock
  refine cursor_lt_iff.mpr ?_
  rcases ordered.lt_or_eq with less | same
  · exact .inl less
  · exact .inr ⟨same, Int.ofNat_lt.mpr ids⟩

theorem placeholder (short : nick.length ≤ maxStoredFieldBytes) :
    placeholderOf env echo.now echo.ev buffer store.db.toTables = some echo.row := by
  have same := waiting.paired echo mem_cons_self
  have sender : echo.row.sender = nick := same.placeholder.sender.trans (clampUTF8_of_le short)
  have text : echo.row.text =
      some (clampUTF8 (searchText echo.ev.line) maxStoredMessageBytes) := by
    rw [same.placeholder.text, same.searchText_eq, nullString, if_neg same.searchable]
  refine head?_ordered ?_ ?_
  · refine mem_filter.mpr ⟨waiting.held echo mem_cons_self, decide_eq_true ?_⟩
    exact ⟨same.placeholder.msgid, sender.trans same.sender.symm, text, same.since⟩
  · intro row candidate different
    obtain ⟨member, passes⟩ := mem_filter.mp candidate
    obtain ⟨bare, author, spoken, -⟩ := of_decide_eq_true passes
    obtain ⟨_, listed, rfl⟩ := waiting.whole row member bare (author.trans same.sender) echo
      mem_cons_self (spoken.trans text.symm)
    rcases mem_cons.mp listed with rfl | later
    · exact absurd rfl different
    · exact waiting.earlier later

theorem tail (rereads : Rereads network name store next)
    (written : next.db.toTables = store.db.updateMessage echo.row.id
      fun row => { row with msgid := some echo.msgid }) :
    Waiting env conn network nick name buffer rest next := by
  have rows : next.db.rowsOf buffer = (store.db.rowsOf buffer).map fun row =>
      if row.id = echo.row.id then { row with msgid := some echo.msgid } else row := by
    rw [written]
    refine rowsOf_updateMessage ?_ buffer
    exact fun _ => rfl
  refine ⟨rereads.coherent, (rereads.located name).trans waiting.located,
    fun other later => waiting.paired other (.tail _ later),
    fun other later => rereads.into (waiting.into other (.tail _ later)),
    fun other later => waiting.sound other (.tail _ later), ?_,
    (pairwise_cons.mp waiting.sent).2, (pairwise_cons.mp waiting.distinct).2, ?_, ?_⟩
  · intro other later
    rw [rows]
    refine mem_map.mpr ⟨other.row, waiting.held other (.tail _ later), ?_⟩
    exact if_neg (rel_of_pairwise_cons waiting.sent later).2.ne'
  · intro other later
    have unused := waiting.unused other (.tail _ later)
    rw [← Bool.not_eq_true] at unused ⊢
    intro seen
    apply unused
    obtain ⟨row, member, marked⟩ := any_eq_true.mp seen
    obtain ⟨inBuffer, has⟩ := of_decide_eq_true marked
    rw [written] at member
    obtain ⟨old, held, rfl⟩ := mem_map.mp member
    split at has
    · exact absurd (some.inj has) (rel_of_pairwise_cons waiting.distinct later)
    next different =>
      rw [if_neg different] at inBuffer
      exact any_eq_true.mpr ⟨old, held, decide_eq_true ⟨inBuffer, has⟩⟩
  · intro row member bare author other later spoken
    rw [rows] at member
    obtain ⟨old, held, rfl⟩ := mem_map.mp member
    by_cases stamped : old.id = echo.row.id
    · rw [if_pos stamped] at bare
      cases bare
    · rw [if_neg stamped] at bare author spoken ⊢
      obtain ⟨placed, listed, same⟩ := waiting.whole old held bare author other
        (.tail _ later) spoken
      rcases mem_cons.mp listed with rfl | inRest
      · exact absurd (congrArg MessageRow.id same) stamped
      · exact ⟨placed, inRest, same⟩

end

end Waiting

theorem map_stampedBy_cons {rest : List OwnEcho}
    (apart : ∀ other ∈ rest, echo.row.id ≠ other.row.id) {rows : List MessageRow} :
    (rows.map fun row =>
      if row.id = echo.row.id then { row with msgid := some echo.msgid } else row).map
        (stampedBy rest) = rows.map (stampedBy (echo :: rest)) := by
  rw [List.map_map]
  refine map_congr_left fun row _ => ?_
  show stampedBy rest (if row.id = echo.row.id then _ else row) = _
  unfold stampedBy
  by_cases hit : row.id = echo.row.id
  · have missing : rest.find? (fun other => other.row.id = row.id) = none :=
      find?_eq_none.mpr fun other later same =>
        apart other later (hit.symm.trans (of_decide_eq_true same).symm)
    have first : (echo :: rest).find? (fun other => other.row.id = row.id) = some echo := by
      rw [find?_cons, decide_eq_true hit.symm]
    rw [if_pos hit, first]
    rw [missing]
    rfl
  · have passed : (echo :: rest).find? (fun other => other.row.id = row.id) =
        rest.find? fun other => other.row.id = row.id := by
      rw [find?_cons, decide_eq_false fun same => hit same.symm]
    rw [if_neg hit, passed]

theorem wp_replayAll_cons {line : Replay} {rest : List Replay}
    {post : Unit → HubState → Prop} {failed : StoreError → HubState → Prop} :
    wp (replayAll env conn (line :: rest)) post failed hub ↔
      wp (persistEvent env line.faults line.now conn line.ev (some line.batch))
        (fun _ next => wp (replayAll env conn rest) post failed next) failed hub := by
  unfold replayAll
  simp only [List.forM_eq_forM, forM_cons]
  rw [wp_bind, wp_bind]
  exact Iff.rfl

theorem replay_stamps {echoes : List OwnEcho} (quiet : conn.echoMessage = false)
    (someone : nick ≠ []) (short : nick.length ≤ maxStoredFieldBytes)
    (waiting : Waiting env conn network nick name buffer echoes hub.store) :
    wp (replayAll env conn (echoes.map OwnEcho.toReplay))
      (fun _ next => next = { hub with store := next.store } ∧
        Rereads network name hub.store next.store ∧
        next.store.db.toTables = { hub.store.db.toTables with
          messages := hub.store.db.messages.map (stampedBy echoes) })
      (fun _ _ => False) hub := by
  induction echoes generalizing hub with
  | nil =>
    refine ⟨rfl, Rereads.refl waiting.coherent network name, ?_⟩
    have same : hub.store.db.messages.map (stampedBy []) = hub.store.db.messages := map_id _
    rw [same]
  | cons echo rest ih =>
    have same := waiting.paired echo mem_cons_self
    have placed := waiting.placeholder short
    have pairs := persistEvent_pairs (waiting.sound echo mem_cons_self) quiet
      (same.pairable someone) waiting.coherent (same.network ▸ waiting.located)
      (same.network ▸ waiting.into echo mem_cons_self)
      (.inr (isSome_of_eq_some placed))
    rw [map_cons, wp_replayAll_cons]
    refine wp_mono pairs ?_ fun _ _ => id
    rintro flagged middle ⟨-, only, paired⟩
    obtain ⟨row, found, written⟩ := paired.stamps (waiting.unused echo mem_cons_self)
    rw [placed] at found
    cases found
    have rereads : Rereads network name hub.store middle.store := same.network ▸ paired.rereads
    refine wp_mono (ih (waiting.tail rereads written)) ?_ fun _ _ => id
    rintro _ next ⟨onlyAgain, again, rows⟩
    refine ⟨by rw [onlyAgain, only], rereads.trans again, ?_⟩
    rw [rows, written]
    have apart : ∀ other ∈ rest, echo.row.id ≠ other.row.id :=
      fun other later => (rel_of_pairwise_cons waiting.sent later).2.ne
    exact congrArg (fun messages => ({ hub.store.db.toTables with messages := messages } :
      Tables)) (map_stampedBy_cons apart)

structure Replay.Known (line : Replay) (conn : Conn) (network name : Bytes) (buffer : Nat)
    (store : Store) : Prop where
  home : line.ev.network = network
  pairable : Pairable line.ev.line
  into : ReplaysInto conn network name line.batch store
  sound : line.faults.adopt = noFault
  held : store.db.hasMsgid buffer (msgidOf line.ev.line) = true

theorem replay_again {lines : List Replay} (quiet : conn.echoMessage = false)
    (coherent : hub.store.Coherent) (located : hub.store.db.locate network name = some buffer)
    (known : ∀ line ∈ lines, line.Known conn network name buffer hub.store) :
    wp (replayAll env conn lines)
      (fun _ next => next = { hub with store := next.store } ∧ next.store.db = hub.store.db)
      (fun _ _ => False) hub := by
  induction lines generalizing hub with
  | nil => exact ⟨rfl, rfl⟩
  | cons line _ ih =>
    have first := known line mem_cons_self
    rw [wp_replayAll_cons]
    refine wp_mono (persistEvent_pairs first.sound quiet first.pairable coherent
      (first.home ▸ located) (first.home ▸ first.into) (.inl first.held)) ?_ fun _ _ => id
    rintro flagged middle ⟨-, only, paired⟩
    have same := paired.again first.held
    have rereads : Rereads network name hub.store middle.store := first.home ▸ paired.rereads
    refine wp_mono (ih rereads.coherent
      ((rereads.located name).trans located) fun other later => ?_) ?_ fun _ _ => id
    · have there := known other (.tail _ later)
      exact ⟨there.home, there.pairable, rereads.into there.into, there.sound,
        by rw [same]; exact there.held⟩
    · rintro _ next ⟨onlyAgain, again⟩
      exact ⟨by rw [onlyAgain, only], again.trans same⟩

/-- Own messages that wait, replayed oldest first without echo-message, leave the same rows with
each placeholder stamped with the msgid of its message, and replaying any of the lines again, in any
order, changes nothing. -/
theorem own_messages_pair_in_order {env : Env} {conn : Conn} {network nick name : Bytes}
    {buffer : Nat} {echoes : List OwnEcho} {hub : HubState} (quiet : conn.echoMessage = false)
    (someone : nick ≠ []) (short : nick.length ≤ maxStoredFieldBytes)
    (waiting : Waiting env conn network nick name buffer echoes hub.store) :
    ∃ reached, exec (replayAll env conn (echoes.map OwnEcho.toReplay)) hub =
        (.ok (), reached) ∧
      reached.store.db.toTables = { hub.store.db.toTables with
        messages := hub.store.db.messages.map (stampedBy echoes) } ∧
      (∀ echo ∈ echoes, { echo.row with msgid := some echo.msgid } ∈ reached.store.db.messages) ∧
      ∀ lines : List Replay,
        (∀ line ∈ lines, line.ev.network = network ∧ line.faults.adopt = noFault ∧
          ReplaysInto conn network name line.batch hub.store ∧
          ∃ echo ∈ echoes, line.ev.line = echo.ev.line) →
        ∃ last, exec (replayAll env conn lines) reached = (.ok (), last) ∧
          last = { reached with store := last.store } ∧ last.store.db = reached.store.db := by
  obtain ⟨_, reached, ended, -, rereads, rows⟩ :=
    exists_of_wp (replay_stamps quiet someone short waiting)
  have stamped : ∀ echo ∈ echoes,
      { echo.row with msgid := some echo.msgid } ∈ reached.store.db.messages := by
    intro echo member
    rw [show reached.store.db.messages = hub.store.db.messages.map (stampedBy echoes) from
      congrArg messages rows]
    refine mem_map.mpr ⟨echo.row, (mem_rowsOf.mp (waiting.held echo member)).1, ?_⟩
    -- no other message has a placeholder with this id
    have unique : (echoes.map fun other => other.row.id).Nodup :=
      pairwise_map.mpr (waiting.sent.imp fun order => order.2.ne)
    have found : echoes.find? (fun other => other.row.id = echo.row.id) = some echo :=
      (find?_key_eq_some unique).mpr ⟨member, rfl⟩
    rw [stampedBy, found]
    rfl
  refine ⟨reached, ended, rows, stamped, fun lines listed => ?_⟩
  have located := (rereads.located name).trans waiting.located
  have known : ∀ line ∈ lines, line.Known conn network name buffer reached.store := by
    intro line member
    obtain ⟨home, sound, into, echo, inEchoes, sameLine⟩ := listed line member
    have pairable := (waiting.paired echo inEchoes).pairable someone
    refine ⟨home, sameLine ▸ pairable, rereads.into into, sound, ?_⟩
    rw [sameLine]
    refine any_eq_true.mpr ⟨_, stamped echo inEchoes, decide_eq_true ⟨?_, rfl⟩⟩
    exact (mem_rowsOf.mp (waiting.held echo inEchoes)).2
  obtain ⟨_, last, endedAgain, only, same⟩ :=
    exists_of_wp (replay_again quiet rereads.coherent located known)
  exact ⟨last, endedAgain, only, same⟩

/-! ### Two equal messages -/

theorem persistOwn_coherent (coherent : hub.store.Coherent) {known : Bool} {text : Bytes} :
    (final (persistOwn env faults known now conn network target text)
      hub).store.Coherent := by
  have kept : wp (persistOwn env faults known now conn network target text)
      (fun _ next => next.store.Coherent) (fun _ next => next.store.Coherent) hub := by
    unfold persistOwn
    split
    · exact wp_mono (Job.perform_files _ rfl faults now coherent)
        (fun _ _ files => files.coherent) fun _ _ => False.elim
    · exact coherent
  exact wp_final kept

def saidTwice : HubState :=
  final (persistOwn plainEnv {} true 0 statusConn (lit "libera") (lit "#go") (lit "hi"))
    (final (persistOwn plainEnv {} true 0 statusConn (lit "libera") (lit "#go") (lit "hi"))
      newHub)

def ownEcho (id : Nat) (msgid : Bytes) : OwnEcho where
  ev :=
    { network := lit "libera"
      line :=
        { tags := [(lit "msgid", msgid)]
          source := some { name := lit "me" }
          command := lit "PRIVMSG"
          params := [lit "#go", lit "hi"] }
      time := 0 }
  batch := { target := lit "#GO" }
  now := 0
  target := lit "#go"
  text := lit "hi"
  sentAt := 0
  row :=
    { id := id
      bufferId := 1
      ts := 0
      msgid := none
      sender := lit "me"
      command := lit "PRIVMSG"
      raw := lit "r"
      text := some (lit "hi") }

theorem own_messages_pair_in_order_saidTwice :
    ∃ reached, exec (replayAll plainEnv statusConn
        [(ownEcho 1 (lit "m1")).toReplay, (ownEcho 2 (lit "m2")).toReplay]) saidTwice =
          (.ok (), reached) ∧
      { (ownEcho 1 []).row with msgid := some (lit "m1") } ∈ reached.store.db.messages ∧
      { (ownEcho 2 []).row with msgid := some (lit "m2") } ∈ reached.store.db.messages := by
  have hot : newHub.store.Hot := Cached.opened (fresh_opened (by decide) 3000)
  have coherent : saidTwice.store.Coherent :=
    persistOwn_coherent (persistOwn_coherent hot.coherent)
  have first : (ownEcho 1 (lit "m1")).Matches plainEnv (lit "libera") (lit "me") :=
    ⟨⟨rfl, by decide, by decide, rfl⟩, by decide, rfl, by decide, rfl, rfl, rfl, by decide,
      by decide, by decide⟩
  have second : (ownEcho 2 (lit "m2")).Matches plainEnv (lit "libera") (lit "me") :=
    ⟨⟨rfl, by decide, by decide, rfl⟩, by decide, rfl, by decide, rfl, rfl, rfl, by decide,
      by decide, by decide⟩
  have into : ReplaysInto statusConn (lit "libera") (lit "#go") { target := lit "#GO" }
      saidTwice.store := ⟨by decide, by decide, by decide +kernel⟩
  have waiting : Waiting plainEnv statusConn (lit "libera") (lit "me") (lit "#go") 1
      [ownEcho 1 (lit "m1"), ownEcho 2 (lit "m2")] saidTwice.store := by
    refine ⟨coherent, by decide +kernel, ?_, ?_, ?_, by decide +kernel, by decide +kernel,
      by decide +kernel, by decide +kernel, by decide +kernel⟩
    · simp only [forall_mem_cons]
      exact ⟨first, second, forall_mem_nil _⟩
    · simp only [forall_mem_cons]
      exact ⟨into, into, forall_mem_nil _⟩
    · simp only [forall_mem_cons]
      exact ⟨rfl, rfl, forall_mem_nil _⟩
  obtain ⟨reached, ended, -, stamped, -⟩ :=
    own_messages_pair_in_order rfl (by decide) (by decide) waiting
  exact ⟨reached, ended, stamped _ mem_cons_self, stamped _ (.tail _ mem_cons_self)⟩

def longMsgid (last : String) : Bytes := replicate 512 0x78 ++ lit last

/-- Two msgids that differ behind the first 512 bytes are stored as one: the second message keeps
its placeholder without msgid. -/
theorem long_msgids_leave_placeholder :
    longMsgid "1" ≠ longMsgid "2" ∧
      (final (replayAll plainEnv statusConn [(ownEcho 1 (longMsgid "1")).toReplay,
        (ownEcho 2 (longMsgid "2")).toReplay]) saidTwice).store.db.messages.map
          (fun row => (row.id, row.msgid.isSome)) = [(1, true), (2, false)] := by
  decide +kernel

end Ircthing.Hub
