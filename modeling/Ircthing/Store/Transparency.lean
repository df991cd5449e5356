/-
This file proves that the hot rings are transparent: as long as nothing is pruned or purged, a
history page is the page the table defines.
-/

import Mathlib.Logic.Relation
import Ircthing.Store.Residency

namespace Ircthing.Store

open Library Effect List Function Tables Relation Message

variable {store : Store} {tables : Tables} {id buffer : Nat} {change : Line → Line} {db : Database}
  {row : MessageRow} {msgid reason : Bytes} {fault : Fault}

/-! ### The invariant -/

def Tracking (tables : Tables) (id : Nat) (ring : Ring) : Prop := ring.Tracks (tables.linesOf id)

/-- The caches agree with the tables: ids with rows, rings with the lines of their buffer. -/
abbrev Hot (store : Store) : Prop := Cached Tracking store

theorem tracking_kept : Kept Tracking where
  stable _ := ⟨fun sequence tracks => tracks.stamped sequence,
    fun limit tracks => tracks.trimToBytes limit⟩
  messages same tracks := by
    unfold Tracking
    rw [linesOf_congr same]
    exact tracks
  tracking tracks := tracks

/-! ### Reading -/

theorem before_spec (hot : store.Hot) (fault : Fault) (network target : Bytes) (cursor : Cursor)
    (limit : Int) :
    wp (before fault network target cursor limit)
      (fun page next => next.Hot ∧ next.db = store.db ∧ page.map line =
        store.db.pageBefore network target cursor (clampLimit limit))
      (fun _ next => next.Hot ∧ next.db = store.db ∧ ∃ statement, fault statement = true)
      store := by
  refine wp_mono (wp_before tracking_kept hot fault network target cursor limit) ?_
    fun _ _ ended => ended
  rintro page next ⟨nextHot, db, unknown, served⟩
  refine ⟨nextHot, db, ?_⟩
  cases located : store.db.locate network target with
  | none =>
    rw [unknown located, Tables.pageBefore, located]
    rfl
  | some buffer =>
    rw [← db]
    refine (served buffer located).lines (clampLimit_pos limit) (db ▸ located) ?_
    exact fun ring resident => ⟨(nextHot.rings buffer ring resident).covers,
      (nextHot.rings buffer ring resident).toCurrent⟩

theorem after_spec (hot : store.Hot) (fault : Fault) (network target : Bytes) (cursor : Cursor)
    (limit : Int) :
    wp (after fault network target cursor limit)
      (fun page next => next.Hot ∧ next.db = store.db ∧ page.map line =
        store.db.pageAfter network target cursor (clampLimit limit))
      (fun _ next => next.Hot ∧ next.db = store.db ∧ ∃ statement, fault statement = true)
      store := by
  refine wp_mono (wp_after tracking_kept hot fault network target cursor limit) ?_
    fun _ _ ended => ended
  rintro page next ⟨nextHot, db, unknown, served⟩
  refine ⟨nextHot, db, ?_⟩
  cases located : store.db.locate network target with
  | none =>
    rw [unknown located, Tables.pageAfter, located]
    rfl
  | some buffer =>
    rw [← db]
    refine (served buffer located).lines (db ▸ located) ?_
    exact fun ring resident => ⟨(nextHot.rings buffer ring resident).covers,
      (nextHot.rings buffer ring resident).toCurrent⟩

/-! ### Appending -/

theorem append_spec (hot : store.Hot) (fault vetoFault : Fault) (now : Int) (network target : Bytes)
    {message : Message} (opts : AppendOpts) (live : message.redacted = false)
    (silent : message.redactReason = []) :
    wp (append fault vetoFault now network target message opts)
      (fun _ next => next.Hot) (fun _ next => next.Hot) store := by
  refine wp_append tracking_kept hot (fun _ => id) (fun _ _ => id) ?_
  intro reached resolved buffer db archived reachedHot _ appended
  have lines := linesOf_appended appended live (by rw [filed, clamped, silent]; rfl)
  refine reachedHot.inserted tracking_kept appended ?_ ?_
  · intro other ring different found
    unfold Tracking
    rw [lines, if_neg different]
    exact reachedHot.rings other ring found
  · intro ring found
    unfold Tracking
    rw [lines, if_pos rfl]
    refine ((reachedHot.rings buffer ring found).insert (stored_fresh _ buffer _)).congr
      fun line => ?_
    rw [mem_append, mem_singleton, mem_cons, or_comm]

/-! ### Rewriting a message on disk and in memory -/

def changeLine (id : Nat) (change : Line → Line) (line : Line) : Line :=
  if line.id = id then change line else line

theorem rowsOf_updateMessage {rewrite : MessageRow → MessageRow}
    (keeps : ∀ row, (rewrite row).bufferId = row.bufferId) (buffer : Nat) :
    (tables.updateMessage id rewrite).rowsOf buffer =
      (tables.rowsOf buffer).map fun row => if row.id = id then rewrite row else row := by
  unfold rowsOf updateMessage
  rw [filter_map]
  congr 1
  refine filter_congr fun row _ => ?_
  simp only [comp_apply]
  split
  · rw [keeps]
  · rfl

theorem linesOf_updateMessage {rewrite : MessageRow → MessageRow}
    (keeps : ∀ row, (rewrite row).bufferId = row.bufferId)
    (shows : ∀ row, (rewrite row).line = change row.line) (buffer : Nat) :
    (tables.updateMessage id rewrite).linesOf buffer =
      (tables.linesOf buffer).map (changeLine id change) := by
  unfold linesOf
  rw [rowsOf_updateMessage keeps, List.map_map, List.map_map]
  refine map_congr_left fun row _ => ?_
  simp only [comp_apply, changeLine]
  change _ = if row.id = id then _ else _
  split
  · exact shows row
  · rfl

theorem changeLine_other (member : row ∈ db.messages) {other : Nat}
    (different : other ≠ row.bufferId) (change : Line → Line) :
    (db.linesOf other).map (changeLine row.id change) = db.linesOf other := by
  refine (map_congr_left fun line held => ?_).trans (map_id _)
  obtain ⟨_, inBuffer, rfl⟩ := mem_map.mp held
  refine if_neg fun same => different ?_
  have rows := mem_rowsOf.mp inBuffer
  rw [← rows.2, row_eq_of_id rows.1 member same]

theorem tracks_ids {ring : Ring} (tracks : ring.Tracks (db.linesOf buffer)) :
    ring.msgs.Pairwise fun first second => first.id ≠ second.id := by
  have strict := pairwise_map.mp tracks.strict
  refine strict.imp_of_mem fun firstMember secondMember order same => ?_
  obtain ⟨firstRow, firstHeld, firstLine⟩ :=
    mem_map.mp (tracks.sound _ (mem_map_of_mem firstMember))
  obtain ⟨secondRow, secondHeld, secondLine⟩ :=
    mem_map.mp (tracks.sound _ (mem_map_of_mem secondMember))
  have rows : firstRow = secondRow :=
    row_eq_of_id (mem_rowsOf.mp firstHeld).1 (mem_rowsOf.mp secondHeld).1
      ((congrArg Line.id firstLine).trans (same.trans (congrArg Line.id secondLine).symm))
  rw [← firstLine, ← secondLine, rows] at order
  exact lt_irrefl _ order

theorem lines_updateFirst {ring next : Ring} (tracks : ring.Tracks (db.linesOf buffer))
    {test : Message → Bool} {rewrite : Message → Message}
    (hits : ∀ message ∈ ring.msgs, test message = true ↔ message.id = id)
    (shows : ∀ message, (rewrite message).line = change message.line)
    (msgs : next.msgs = updateFirst test rewrite ring.msgs) :
    next.lines = ring.lines.map (changeLine id change) := by
  have single : ring.msgs.Pairwise fun first second =>
      ¬ (test first = true ∧ test second = true) := by
    refine (tracks_ids tracks).imp_of_mem fun firstMember secondMember differ both => differ ?_
    rw [(hits _ firstMember).mp both.1, (hits _ secondMember).mp both.2]
  unfold Ring.lines
  rw [msgs, Ring.updateFirst_eq_map single, List.map_map, List.map_map]
  refine map_congr_left fun message member => ?_
  simp only [comp_apply, changeLine]
  change _ = if message.id = id then _ else _
  by_cases passes : test message = true
  · rw [if_pos passes, if_pos ((hits message member).mp passes)]
    exact shows message
  · rw [if_neg passes, if_neg (mt (hits message member).mpr passes)]

theorem Cached.rewrite (hot : store.Hot) (member : row ∈ store.db.messages)
    {rewrite : MessageRow → MessageRow} {operation : Ring → Ring × Int}
    (written : db.toTables = store.db.updateMessage row.id rewrite)
    (keeps : ∀ other, (rewrite other).bufferId = other.bufferId)
    (shows : ∀ other, (rewrite other).line = change other.line)
    (inPlace : ∀ line, (changeLine row.id change line).cursor = line.cursor)
    (inStep : ∀ ring, ring.Tracks (store.db.linesOf row.bufferId) →
      (operation ring).1.lines = ring.lines.map (changeLine row.id change) ∧
        (operation ring).1.complete = ring.complete ∧ (operation ring).1.max = ring.max) :
    ({ store with db := db }.refreshRing row.bufferId operation).Hot := by
  have only := refreshRing_only { store with db := db } row.bufferId operation
  have lines : ∀ buffer, db.linesOf buffer =
      (store.db.linesOf buffer).map (changeLine row.id change) := by
    intro buffer
    rw [written, linesOf_updateMessage keeps shows]
  have coherent : Coherent { store with db := db } :=
    hot.coherent.sameRows (by rw [written]; rfl) (by rw [written]; rfl)
  refine ⟨by rw [only.ringSize]; exact hot.size, only.coherent coherent, ?_⟩
  rw [only.db]
  refine EachRing.refreshRing (tracking_kept.stable _) ?_ ?_
  · intro other ring different found
    unfold Tracking
    rw [lines, changeLine_other member different]
    exact hot.rings other ring found
  · intro ring found
    unfold Tracking
    rw [lines]
    have tracks := hot.rings row.bufferId ring found
    obtain ⟨rewritten, complete, max⟩ := inStep ring tracks
    exact tracks.rewrite inPlace rewritten complete max

/-! ### Redaction -/

def Line.scrubbed (line : Line) (reason : Bytes) : Line :=
  { line with raw := [], redacted := true, reason := reason }

theorem redact_inStep (found : db.redactable buffer msgid = some row)
    (named : msgid ≠ []) (ring : Ring) (tracks : ring.Tracks (db.linesOf buffer)) :
    (ring.redact msgid reason).1.lines = ring.lines.map (changeLine row.id (·.scrubbed reason)) ∧
      (ring.redact msgid reason).1.complete = ring.complete ∧
      (ring.redact msgid reason).1.max = ring.max := by
  obtain ⟨msgs, complete, max⟩ := ring.redact_eq msgid reason
  obtain ⟨held, marked, -⟩ := redactable_eq_some found
  refine ⟨lines_updateFirst tracks ?_ (fun _ => rfl) msgs, complete, max⟩
  intro message member
  obtain ⟨source, inBuffer, line⟩ :=
    mem_map.mp (tracks.sound _ (mem_map_of_mem member))
  have sourceMsgid : source.msgid.getD [] = message.msgID := congrArg Line.msgid line
  have sourceId : source.id = message.id := congrArg Line.id line
  rw [beq_iff_eq]
  constructor
  · intro matched
    have stored : source.msgid = some msgid := by
      cases stored : source.msgid with
      | none =>
        rw [stored, Option.getD_none] at sourceMsgid
        exact absurd (sourceMsgid.trans matched).symm named
      | some =>
        rw [stored, Option.getD_some] at sourceMsgid
        rw [sourceMsgid, matched]
    rw [← sourceId, row_eq_of_msgid inBuffer held stored marked]
  · intro same
    have rows : source = row :=
      row_eq_of_id (mem_rowsOf.mp inBuffer).1 (mem_rowsOf.mp held).1 (sourceId.trans same)
    rw [← sourceMsgid, rows, marked]
    rfl

def Addressed (tables : Tables) (network target msgid : Bytes) : Prop :=
  clampMsgID msgid = [] → ∀ buffer, tables.locate network target = some buffer →
    tables.redactable buffer [] = none

theorem setRedacted_spec (hot : store.Hot) {network target : Bytes}
    (addressed : msgid = [] ∨ Addressed store.db.toTables network target msgid) :
    wp (setRedacted fault network target msgid reason)
      (fun _ next => next.Hot) (fun _ next => next.Hot) store := by
  refine wp_mono setRedacted_turn ?_ fun _ _ failed => failed.1.keeps tracking_kept hot
  rintro done next (⟨-, rfl⟩ | ⟨given, turn⟩)
  · exact hot
  cases turn with
  | missed turn => exact turn.keeps tracking_kept hot
  | @hit reached buffer row db turn cached found written =>
    have reachedHot := turn.keeps tracking_kept hot
    have redactable : reached.db.redactable buffer (clampMsgID msgid) = some row := found
    have named : clampMsgID msgid ≠ [] := by
      intro blank
      have located := reachedHot.coherent.buffers cached
      rw [turn.reads.1] at located
      rw [blank, turn.reads.1, addressed.resolve_left given blank buffer located] at redactable
      cases redactable
    have held := mem_rowsOf.mp (redactable_eq_some redactable).1
    obtain rfl := held.2
    exact reachedHot.rewrite held.1 written (fun _ => rfl) (fun other => by
        show (other.scrubbed _).line = _
        unfold MessageRow.line MessageRow.scrubbed Line.scrubbed
        rw [getD_nullString])
      (fun line => by unfold changeLine; split <;> rfl) (redact_inStep redactable named)

/-! ### Adoption -/

theorem adoptMsgID_inStep (ring : Ring) (tracks : ring.Tracks (db.linesOf buffer)) :
    (ring.adoptMsgID id msgid).1.lines =
        ring.lines.map (changeLine id fun line => { line with msgid := msgid }) ∧
      (ring.adoptMsgID id msgid).1.complete = ring.complete ∧
      (ring.adoptMsgID id msgid).1.max = ring.max := by
  obtain ⟨msgs, complete, max⟩ := ring.adoptMsgID_eq id msgid
  exact ⟨lines_updateFirst tracks (fun _ _ => beq_iff_eq) (fun _ => rfl) msgs, complete, max⟩

theorem adoptOwnMsgID_spec (hot : store.Hot) {msg : OwnMsg} {fold : Option (Bytes → Bytes)} :
    wp (adoptOwnMsgID fault msg fold) (fun _ next => next.Hot) (fun _ next => next.Hot) store := by
  refine wp_mono adoptOwnMsgID_turn ?_ fun _ _ failed => failed.1.keeps tracking_kept hot
  rintro done next (⟨-, rfl⟩ | turn)
  · exact hot
  cases turn with
  | missed turn => exact turn.keeps tracking_kept hot
  | hit turn _ found written =>
    have held := mem_rowsOf.mp (placeholder_eq_some (adoption_pick found).2).1
    obtain rfl := held.2
    exact (turn.keeps tracking_kept hot).rewrite held.1 written (fun _ => rfl) (fun _ => rfl)
      (fun line => by unfold changeLine; split <;> rfl) adoptMsgID_inStep

/-! ### Runs -/

inductive Call
  | append (vetoFault : Fault) (now : Int) (network target : Bytes) (message : Message)
      (opts : AppendOpts)
  | setRedacted (network target msgid reason : Bytes)
  | adoptOwnMsgID (msg : OwnMsg) (fold : Option (Bytes → Bytes))
  | before (network target : Bytes) (cursor : Cursor) (limit : Int)
  | after (network target : Bytes) (cursor : Cursor) (limit : Int)
  | latest (network target : Bytes) (limit : Int)

namespace Call

def run (fault : Fault) (store : Store) : Call → Store
  | append vetoFault now network target message opts =>
    final (Store.append fault vetoFault now network target message opts) store
  | setRedacted network target msgid reason =>
    final (Store.setRedacted fault network target msgid reason) store
  | adoptOwnMsgID msg fold => final (Store.adoptOwnMsgID fault msg fold) store
  | before network target cursor limit =>
    final (Store.before fault network target cursor limit) store
  | after network target cursor limit =>
    final (Store.after fault network target cursor limit) store
  | latest network target limit => final (Store.latest fault network target limit) store

/-- Appended messages carry no redaction fields, and no redaction goes by the empty msgid to
a row it would find. -/
def Regular (tables : Tables) : Call → Prop
  | append _ _ _ _ message _ => message.redacted = false ∧ message.redactReason = []
  | setRedacted network target msgid _ => msgid = [] ∨ Addressed tables network target msgid
  | _ => True

end Call

def Stepped (store next : Store) : Prop :=
  ∃ (fault : Fault) (call : Call), call.Regular store.db.toTables ∧ next = call.run fault store

theorem Stepped.hot {next : Store} (step : Stepped store next) (hot : store.Hot) : next.Hot := by
  obtain ⟨fault, call, regular, rfl⟩ := step
  have read : ∀ {Value : Type} {program : Action Value} {post : Value → Store → Prop}
      {failed : StoreError → Store → Prop},
      wp program post failed store → (∀ value next, post value next → next.Hot) →
      (∀ reason next, failed reason next → next.Hot) → (final program store).Hot :=
    fun holds value error => wp_final (wp_mono holds value error)
  cases call with
  | append vetoFault now network target message opts =>
    exact wp_final (append_spec hot fault vetoFault now network target opts regular.1 regular.2)
  | setRedacted network target msgid reason =>
    exact wp_final (setRedacted_spec hot regular)
  | adoptOwnMsgID msg fold => exact wp_final (adoptOwnMsgID_spec hot)
  | before network target cursor limit =>
    exact read (before_spec hot fault network target cursor limit) (fun _ _ ended => ended.1)
      fun _ _ ended => ended.1
  | after network target cursor limit =>
    exact read (after_spec hot fault network target cursor limit) (fun _ _ ended => ended.1)
      fun _ _ ended => ended.1
  | latest network target limit =>
    exact read (before_spec hot fault network target maxCursor limit) (fun _ _ ended => ended.1)
      fun _ _ ended => ended.1

theorem reached_hot {start : Store} (opened : start.Opened)
    (reached : ReflTransGen Stepped start store) : store.Hot := by
  induction reached with
  | refl => exact Cached.opened opened
  | tail _ step ih => exact step.hot ih

/-- In every state reached from an opened store by regular calls, a page of `Before` or `After` is
the page the query over the table defines, and reading leaves the tables as they are. Both return a
page unless a statement fails. -/
theorem pages_equal_query {start store : Store} (opened : start.Opened)
    (reached : ReflTransGen Stepped start store) (fault : Fault)
    (network target : Bytes) (cursor : Cursor) (limit : Int) :
    (∀ page next, exec (before fault network target cursor limit) store = (.ok page, next) →
        page.map line = store.db.pageBefore network target cursor (clampLimit limit) ∧
          next.db = store.db) ∧
      (∀ page next, exec (after fault network target cursor limit) store = (.ok page, next) →
          page.map line = store.db.pageAfter network target cursor (clampLimit limit) ∧
            next.db = store.db) ∧
      ((∀ statement, fault statement = false) → (∃ page next,
          exec (before fault network target cursor limit) store = (.ok page, next)) ∧
        ∃ page next,
          exec (after fault network target cursor limit) store = (.ok page, next)) := by
  have hot := reached_hot opened reached
  obtain ⟨earlier, earlierFails⟩ := (wp_iff _ _ _ _).mp
    (before_spec hot fault network target cursor limit)
  obtain ⟨later, laterFails⟩ := (wp_iff _ _ _ _).mp
    (after_spec hot fault network target cursor limit)
  refine ⟨fun page next ended => ?_, fun page next ended => ?_, fun sound => ⟨?_, ?_⟩⟩
  · obtain ⟨-, db, lines⟩ := earlier page next ended
    exact ⟨lines, db⟩
  · obtain ⟨-, db, lines⟩ := later page next ended
    exact ⟨lines, db⟩
  · rcases ended : exec (before fault network target cursor limit) store with
      ⟨page | page, next⟩
    · obtain ⟨-, -, statement, fails⟩ := earlierFails page next ended
      rw [sound] at fails
      cases fails
    · exact ⟨page, next, rfl⟩
  · rcases ended : exec (after fault network target cursor limit) store with
      ⟨page | page, next⟩
    · obtain ⟨-, -, statement, fails⟩ := laterFails page next ended
      rw [sound] at fails
      cases fails
    · exact ⟨page, next, rfl⟩

def RegularRun (fault : Fault) : List Call → Store → Prop
  | [], _ => True
  | call :: rest, store =>
    call.Regular store.db.toTables ∧ RegularRun fault rest (call.run fault store)

theorem reached_foldl {calls : List Call} (regular : RegularRun fault calls store) :
    ReflTransGen Stepped store (calls.foldl (Call.run fault) store) := by
  induction calls generalizing store with
  | nil => exact .refl
  | cons call _ ih =>
    exact .head ⟨fault, call, regular.1, rfl⟩ (ih regular.2)

def post (time : Int) (sender text msgid : Bytes) : Call :=
  .append noFault 0 (lit "libera") (lit "#go")
    { time := time, msgID := msgid, sender := sender, command := lit "PRIVMSG", raw := text,
      text := text }
    { create := true, unarchive := true }

def redactedRun : Store :=
  [post 2000000 (lit "ann") (lit "hello") (lit "m1"),
    post 1000000 (lit "bob") (lit "hi") (lit "m2"),
    .setRedacted (lit "libera") (lit "#go") (lit "m2") (lit "spam")].foldl (Call.run noFault)
      (fresh 1 0)

theorem pages_equal_query_redactedRun :
    ∃ page next, exec (before noFault (lit "libera") (lit "#go") maxCursor 10) redactedRun =
          (.ok page, next) ∧
        page.map line = [⟨2, 1, lit "m2", lit "bob", lit "PRIVMSG", [], true, lit "spam"⟩,
            ⟨1, 2, lit "m1", lit "ann", lit "PRIVMSG", lit "hello", false, []⟩] := by
  have reached : ReflTransGen Stepped (fresh 1 0) redactedRun :=
    reached_foldl ⟨⟨rfl, rfl⟩, ⟨rfl, rfl⟩, .inr fun blank => absurd blank (by decide), trivial⟩
  obtain ⟨equal, -, returns⟩ := pages_equal_query (fresh_opened Nat.one_pos 0) reached noFault
    (lit "libera") (lit "#go") maxCursor 10
  obtain ⟨⟨page, next, ended⟩, -⟩ := returns fun _ => rfl
  refine ⟨page, next, ended, ?_⟩
  rw [(equal page next ended).1]
  decide +kernel

def strayMsgid : Bytes := replicate 513 0x80

def strayRun : Store :=
  [post 1000000 (lit "bob") (lit "hello") [], post 2000000 (lit "me") (lit "hi") [],
    .adoptOwnMsgID ⟨lit "libera", lit "#go", lit "me", lit "hi", strayMsgid, 0⟩ none,
    .setRedacted (lit "libera") (lit "#go") strayMsgid []].foldl (Call.run noFault)
      (fresh 500 (16 * 2 ^ 20))

/-- The redaction by the stray msgid scrubs the second row on disk and the first message in
the ring, and the ring answers the next page. -/
theorem strayRun_diverges :
    ∃ page next,
      exec (latest noFault (lit "libera") (lit "#go") 10) strayRun = (.ok page, next) ∧
        page.map (fun message => (message.id, message.redacted)) = [(1, true), (2, false)] ∧
        (strayRun.db.pageBefore (lit "libera") (lit "#go") maxCursor 10).map
          (fun line => (line.id, line.redacted)) = [(1, false), (2, true)] := by
  have shown : (exec (latest noFault (lit "libera") (lit "#go") 10) strayRun).1.map
      (fun page => page.map fun message => (message.id, message.redacted)) =
        .ok [(1, true), (2, false)] := by
    decide +kernel
  rcases ended : exec (latest noFault (lit "libera") (lit "#go") 10) strayRun with
    ⟨reason | page, next⟩
  · rw [ended] at shown
    cases shown
  · rw [ended] at shown
    refine ⟨page, next, rfl, Except.ok.inj shown, by decide +kernel⟩

end Ircthing.Store
