/-
This file proves that a finished prune leaves no deleted row in memory.
-/

import Ircthing.Store.LivePolicy

namespace Ircthing.Store

open Library Effect List Pruner Relation.ReflTransGen Message

variable {id chunk buffer maxPer limit : Nat} {message : Message} {row : MessageRow}
  {pruner pruner' : Pruner} {store next : Store} {guard : Store → Bool} {turn : ChunkEnd}
  {cutoff now : Int} {matching : Tables → List MessageRow} {state state' : Store × Pruner}
  {page : List Message} {network target : Bytes} {ring : Ring}

/-! ### What a retention pass leaves of a ring -/

namespace Ring

variable {ring : Ring} {message : Message} {maxPerBuffer : Nat}

theorem mem_insert {other : Message} (member : other ∈ (ring.insert message).1.msgs) :
    other = message ∨ other ∈ ring.msgs := by
  unfold insert at member
  dsimp only at member
  split at member
  · exact .inr member
  · have placed : ∀ index, other ∈ ring.msgs.take index ++ message :: ring.msgs.drop index →
        other = message ∨ other ∈ ring.msgs := by
      intro index held
      rcases mem_append.mp held with early | late
      · exact .inr (mem_of_mem_take early)
      · exact (mem_cons.mp late).imp_right mem_of_mem_drop
    split at member
    · exact placed _ (mem_of_mem_drop member)
    · exact placed _ member

theorem dropOlder_msgs (sorted : ring.Sorted) (positive : 0 < cutoff) :
    (ring.dropOlder cutoff).msgs =
      ring.msgs.filter fun message => cutoff ≤ unixMilli message.time := by
  have dated : Ascending (fun message : Message => unixMilli message.time) ring.msgs :=
    sorted.imp fun order => by
      rcases lt_or_eq_of_le order with earlier | same
      · exact (cursor_lt_iff.mp earlier).elim le_of_lt fun tie => tie.1.le
      · exact (congrArg Cursor.ts same).le
  have bound : ∀ message : Message,
      decide (cutoff ≤ unixMilli message.time) = decide (cutoff - 1 < unixMilli message.time) :=
    fun message => decide_eq_decide.mpr (by omega)
  have found : searchSlice ring.msgs (fun message => cutoff ≤ unixMilli message.time) =
      ring.msgs.findIdx fun message => cutoff ≤ unixMilli message.time :=
    searchSlice_eq_findIdx (dated.imp fun order first => by
      rw [decide_eq_true_eq] at first ⊢
      exact first.trans order)
  have kept : ring.msgs.drop (ring.msgs.findIdx fun message => cutoff ≤ unixMilli message.time) =
      ring.msgs.filter fun message => cutoff ≤ unixMilli message.time := by
    simp only [bound]
    exact dated.drop_findIdx
  unfold dropOlder
  rw [if_pos positive, found, ← kept]
  dsimp only
  split
  · rfl
  next none =>
    rw [Nat.eq_zero_of_not_pos none, drop_zero]

theorem above_lt_of_mem_dropExcess (sorted : ring.Sorted)
    (positive : 0 < maxPerBuffer) (member : message ∈ (ring.dropExcess maxPerBuffer).msgs) :
    (ring.msgs.filter fun other => message.cursor < other.cursor).length < maxPerBuffer := by
  have fewer : ∀ messages : List Message, message ∈ messages →
      (messages.filter fun other => message.cursor < other.cursor).length < messages.length :=
    fun messages held => length_filter_lt_length_iff_exists.mpr ⟨message, held, by simp⟩
  unfold dropExcess at member
  split at member
  next excess =>
    -- what is dropped does not stand above the message
    rw [← take_append_drop (ring.msgs.length - maxPerBuffer) ring.msgs, filter_append,
      filter_eq_nil_iff.mpr fun other early => by
        simpa using sorted.le_of_cut early member, nil_append]
    refine (fewer _ member).trans_le ?_
    rw [length_drop]
    omega
  next short =>
    exact (fewer _ member).trans_le (by omega)

theorem mem_applyRetention (sorted : ring.Sorted)
    (member : message ∈ (ring.applyRetention cutoff maxPerBuffer).1.msgs) :
    (0 < cutoff → cutoff ≤ message.cursor.ts) ∧ (0 < maxPerBuffer →
        (ring.msgs.filter fun other => message.cursor < other.cursor).length < maxPerBuffer) := by
  have dropped : ∃ count, ((ring.dropOlder cutoff).dropExcess maxPerBuffer).msgs =
      (ring.dropOlder cutoff).msgs.drop count := by
    unfold dropExcess
    split
    · exact ⟨_, rfl⟩
    · exact ⟨0, rfl⟩
  obtain ⟨count, suffix⟩ := dropped
  change message ∈ ((ring.dropOlder cutoff).dropExcess maxPerBuffer).msgs at member
  have recent : message ∈ (ring.dropOlder cutoff).msgs := mem_of_mem_drop (suffix ▸ member)
  by_cases positive : 0 < cutoff
  · have older := dropOlder_msgs sorted positive
    rw [older] at recent
    have notOlder := of_decide_eq_true (mem_filter.mp recent).2
    refine ⟨fun _ => notOlder, fun capped => ?_⟩
    have halfSorted : (ring.dropOlder cutoff).Sorted := by
      unfold Ring.Sorted
      rw [older]
      exact Ascending.filter sorted _
    have few := above_lt_of_mem_dropExcess halfSorted capped member
    rw [older, filter_filter] at few
    -- what stands above the message is not older than the cutoff either
    refine lt_of_eq_of_lt (congrArg length (filter_congr fun other _ => ?_)) few
    by_cases above : message.cursor < other.cursor
    · have later : unixMilli message.time ≤ unixMilli other.time :=
        (cursor_lt_iff.mp above).elim le_of_lt fun tie => tie.1.le
      simp [above, notOlder.trans later]
    · simp [above]
  · have same : ring.dropOlder cutoff = ring := by
      unfold dropOlder
      rw [if_neg positive]
    rw [same] at member
    exact ⟨fun impossible => absurd impossible positive,
      fun capped => above_lt_of_mem_dropExcess sorted capped member⟩

end Ring

theorem Covering.countAbove_le {db : Database} (covers : Covering db.toTables id ring)
    (member : message ∈ ring.msgs) :
    db.countAbove id message.cursor ≤
      (ring.msgs.filter fun other => message.cursor < other.cursor).length := by
  have rows : (((db.rowsOf id).filter fun row => message.cursor < row.cursor).map
      MessageRow.cursor).Nodup := by
    refine ((Nodup.of_map _ (rowsOf_ids_nodup db id)).filter _).map_on ?_
    intro first firstMember second secondMember same
    exact rows_keyed db id first (mem_of_mem_filter firstMember) second
      (mem_of_mem_filter secondMember) same
  suffices part : ((db.rowsOf id).filter fun row => message.cursor < row.cursor).map
      MessageRow.cursor ⊆ (ring.msgs.filter fun other => message.cursor < other.cursor).map
        cursor by
    have shorter := (subperm_of_subset rows part).length_le
    rwa [length_map, length_map] at shorter
  intro cursor shown
  obtain ⟨row, listed, rfl⟩ := mem_map.mp shown
  obtain ⟨held, above⟩ := mem_filter.mp listed
  have later := of_decide_eq_true above
  obtain ⟨line, inRing, same⟩ := covers.holds_of_le (mem_map_of_mem held)
    (mem_map_of_mem member) (show message.line.cursor ≤ row.line.cursor from later.le)
  obtain ⟨other, otherMember, rfl⟩ := mem_map.mp inRing
  change other.cursor = row.cursor at same
  exact mem_map.mpr ⟨other, mem_filter.mpr
    ⟨otherMember, decide_eq_true (by rw [same]; exact later)⟩, same⟩

/-! ### What a run is about to reconcile -/

/-- `appliedCutoff`, as it would be if the run failed where it stands. -/
def Pruner.appliedCutoff : Pruner → Int
  | .idle => 0
  | .byAge now days _ deleted => if deleted > 0 then ageCutoff now days else 0
  | .listing cutoff _ => cutoff
  | .checking cutoff _ _ _ => cutoff
  | .choosing cutoff _ _ _ _ => cutoff
  | .byCount cutoff _ _ _ _ _ => cutoff
  | .reconciling cutoff _ => cutoff

/-- `appliedMax`, as it would be if the run failed where it stands. -/
def Pruner.appliedMax : Pruner → Nat
  | .idle => 0
  | .byAge _ _ _ _ => 0
  | .listing _ _ => 0
  | .checking _ maxPer _ deleted => if deleted > 0 then maxPer else 0
  | .choosing _ maxPer _ _ deleted => if deleted > 0 then maxPer else 0
  | .byCount _ maxPer _ _ _ deleted => if deleted > 0 then maxPer else 0
  | .reconciling _ maxPer => maxPer

def Pruner.Dated : Pruner → Prop
  | .byAge now days _ _ => 0 < ageCutoff now days
  | _ => True

def Doomed (tables : Tables) (pruner : Pruner) (id : Nat) (cursor : Cursor) : Prop :=
  (0 < pruner.appliedCutoff ∧ cursor.ts < pruner.appliedCutoff) ∨
    (0 < pruner.appliedMax ∧ pruner.appliedMax ≤ tables.countAbove id cursor)

def Line.body (line : Line) : Line := { line with redacted := false, reason := [] }

def Message.Shows (message : Message) (row : MessageRow) : Prop :=
  message.line.body = row.line.body

theorem Message.Shows.cursor (same : message.Shows row) :
    message.cursor = row.cursor := congrArg Line.cursor same

theorem shows_row : message.Shows (message.row buffer) := by
  unfold Shows line MessageRow.line row Line.body
  rw [getD_nullString]

def Backed (pruner : Pruner) (deleted : List MessageRow) (tables : Tables) (id : Nat)
    (ring : Ring) : Prop :=
  ∀ message ∈ ring.msgs, (∃ row ∈ tables.rowsOf id, message.Shows row) ∨
    (Doomed tables pruner id message.cursor ∧
      ∃ row ∈ deleted, row.bufferId = id ∧ message.Shows row)

theorem backed_kept (pruner : Pruner) (deleted : List MessageRow) :
    Kept (Backed pruner deleted) where
  stable _ := by
    refine ⟨fun _ => id, fun {id ring} limit backed message member => ?_⟩
    obtain ⟨_, msgs, -, -, -⟩ := ring.trimToBytes_eq limit
    rw [msgs] at member
    exact backed message (mem_of_mem_drop member)
  messages same backed message member := by
    have rows : ∀ first second : Tables, second.messages = first.messages →
        second.rowsOf = first.rowsOf := by
      intro first second same
      unfold Tables.rowsOf
      rw [same]
    refine (backed message member).imp (fun held => ?_) fun doomed => ⟨?_, doomed.2⟩
    · rwa [rows _ _ same]
    · refine doomed.1.imp_right fun capped => ⟨capped.1, capped.2.trans_eq ?_⟩
      unfold Tables.countAbove
      rw [rows _ _ same]
  tracking tracks message member := by
    obtain ⟨row, held, same⟩ :=
      mem_map.mp (tracks.sound message.line (mem_map_of_mem member))
    exact .inl ⟨row, held, congrArg Line.body same.symm⟩

theorem Backed.grown {before after : Database} {deleted : List MessageRow}
    (backed : Backed pruner deleted before.toTables id ring)
    (kept : ∀ row ∈ before.messages, row ∈ after.messages) :
    Backed pruner deleted after.toTables id ring := by
  intro message member
  refine (backed message member).imp (fun held => ?_) fun doomed => ⟨?_, doomed.2⟩
  · obtain ⟨row, inBuffer, same⟩ := held
    obtain ⟨inTable, buffer⟩ := mem_rowsOf.mp inBuffer
    exact ⟨row, mem_rowsOf.mpr ⟨kept row inTable, buffer⟩, same⟩
  · exact doomed.1.imp_right fun capped => ⟨capped.1, capped.2.trans
      (length_filter_le_of_mem fun row held _ => kept row (mem_rowsOf.mp held).1)⟩

theorem Cached.reconciled (covered : Cached Covering store) {deleted : List MessageRow}
    (backed : Cached (Backed (.reconciling cutoff maxPer) deleted) store) :
    Cached (Backed .idle []) (store.reconcileRings cutoff maxPer) where
  size := (covered.reconcileRings cutoff maxPer).size
  coherent := (covered.reconcileRings cutoff maxPer).coherent
  rings id ring found message member := by
    rw [(reconcileRings_only store cutoff maxPer).db]
    unfold Store.reconcileRings at found
    split at found
    next off =>
      refine .inl ((backed.rings id ring found message member).resolve_right ?_)
      rintro ⟨⟨positive, -⟩ | ⟨positive, -⟩, -⟩
      · exact absurd off.1 (not_le.mpr positive)
      · exact absurd off.2 (Nat.ne_of_gt positive)
    · change (store.rings.mapValues _).lookup id = some ring at found
      rw [Dict.lookup_mapValues, Option.map_eq_some_iff] at found
      obtain ⟨earlier, resident, rfl⟩ := found
      have covers := covered.rings id earlier resident
      obtain ⟨_, msgs, -⟩ := earlier.applyRetention_eq cutoff maxPer
      have held : message ∈ earlier.msgs := mem_of_mem_drop (msgs ▸ member)
      obtain ⟨recent, few⟩ := Ring.mem_applyRetention covers.sorted member
      refine .inl ((backed.rings id earlier resident message held).resolve_right ?_)
      rintro ⟨⟨positive, older⟩ | ⟨positive, above⟩, -⟩
      · exact absurd (recent positive) (not_le.mpr older)
      · exact absurd (above.trans (covers.countAbove_le held)) (not_le.mpr (few positive))

/-! ### The critical sections of a prune -/

def ChunkEnd.deleted : ChunkEnd → Nat
  | .done deleted _ => deleted
  | .again deleted => deleted

theorem DeleteChunk.le_deleted {deleted : Nat}
    (deletes : DeleteChunk chunk guard matching deleted store next turn) :
    deleted ≤ turn.deleted := by
  cases deletes with
  | bail | fail => exact le_rfl
  | last | more | cancelled => exact Nat.le_add_right _ _

theorem DeleteChunk.deleted_pos {deleted : Nat}
    (deletes : DeleteChunk chunk guard matching deleted store next turn)
    (held : row ∈ store.db.messages) (gone : row ∉ next.db.messages) : 0 < turn.deleted := by
  have counted : ∀ {victims : List Nat} {db : Database},
      db.toTables = store.db.deleteMessages victims → row ∉ db.messages →
        0 < deleted + victims.length := by
    intro victims db written missing
    rw [written, Tables.deleteMessages, mem_filter, not_and, decide_eq_true_eq, not_not] at missing
    exact Nat.add_pos_right _ (length_pos_of_mem (missing held))
  cases deletes with
  | bail | fail => exact absurd held gone
  | last _ _ written | more _ _ written | cancelled _ _ written => exact counted written gone

theorem appliedCutoff_ageTurn {days : Nat} (some : 0 < turn.deleted) :
    (ageTurn now days maxPer turn).appliedCutoff = ageCutoff now days := by
  cases turn with
  | again => exact if_pos some
  | done deleted failed =>
    have applied : (if deleted > 0 ∨ failed = false then ageCutoff now days else 0) =
        ageCutoff now days := if_pos (.inl some)
    unfold ageTurn afterAge
    dsimp only
    rw [applied]
    split
    · rfl
    · split <;> rfl

theorem appliedMax_countTurn (cutoff : Int) (maxPer buffer : Nat) (keep : Cursor)
    (buffers : List Nat) (turn : ChunkEnd) :
    (countTurn cutoff maxPer buffer keep buffers turn).appliedMax =
      if turn.deleted > 0 then maxPer else 0 := by
  cases turn with
  | again => rfl
  | done _ failed => cases failed <;> rfl

theorem DeleteChunk.countAbove_kept {deleted : Nat} {keep : Cursor}
    (deletes : DeleteChunk chunk guard (Tables.olderIn buffer keep) deleted store next turn)
    (enough : maxPer ≤ store.db.countFrom buffer keep) {cursor : Cursor}
    (above : maxPer ≤ store.db.countAbove id cursor) : maxPer ≤ next.db.countAbove id cursor := by
  by_cases inside : id = buffer ∧ cursor < keep
  · obtain ⟨rfl, below⟩ := inside
    exact (deletes.chosen enough).trans (countFrom_le_countAbove below)
  -- otherwise no row above the place is deleted
  refine above.trans (length_filter_le_of_mem fun row held later => ?_)
  by_contra gone
  obtain ⟨inTable, inBuffer⟩ := mem_rowsOf.mp held
  obtain ⟨-, older⟩ := deletes.matches_of_gone
    (fun other member => (mem_rowsOf.mp (mem_of_mem_filter member)).1) inTable gone
  obtain ⟨listed, below⟩ := mem_filter.mp older
  rw [cursorLess_eq, decide_eq_true_eq] at below
  exact inside ⟨inBuffer.symm.trans (mem_rowsOf.mp listed).2, (of_decide_eq_true later).trans below⟩

theorem PruneStep.doomed (step : PruneStep chunk store pruner next pruner')
    (chosen : Chosen (store, pruner)) (going : pruner' ≠ .idle) {cursor : Cursor}
    (doomed : Doomed store.db.toTables pruner id cursor) :
    Doomed next.db.toTables pruner' id cursor := by
  cases step with
  | start => rcases doomed with ⟨impossible, -⟩ | ⟨impossible, -⟩ <;> cases impossible
  | @age _ now days maxPer deleted turn deletes =>
    rcases doomed with ⟨positive, older⟩ | ⟨impossible, -⟩
    · by_cases some : 0 < deleted
      · rw [appliedCutoff, if_pos some] at positive older
        refine .inl ?_
        rw [appliedCutoff_ageTurn (some.trans_le deletes.le_deleted)]
        exact ⟨positive, older⟩
      · rw [appliedCutoff, if_neg some] at positive
        cases positive
    · cases impossible
  | list => exact doomed.imp_right fun capped => (by cases capped.1)
  | listFailed | checked allows | skip few | choose kept | chooseFailed => exact doomed
  | @stopped _ maxPer deleted _ ends =>
    refine doomed.imp_right fun capped => ?_
    by_cases some : 0 < deleted
    · rwa [appliedMax, if_pos some] at capped
    · rw [appliedMax, if_neg some] at capped
      cases capped.1
  | @count _ _ maxPer buffer deleted _ _ turn deletes =>
    rcases doomed with aged | ⟨positive, above⟩
    · refine .inl ?_
      cases turn with
      | again => exact aged
      | done _ failed => cases failed <;> exact aged
    · by_cases some : 0 < deleted
      · rw [appliedMax, if_pos some] at positive above
        refine .inr ?_
        rw [appliedMax_countTurn, if_pos (some.trans_le deletes.le_deleted)]
        exact ⟨positive, deletes.countAbove_kept (chosen _ _ _ _ _ _ rfl) above⟩
      · rw [appliedMax, if_neg some] at positive
        cases positive
  | reconcile => exact absurd rfl going

theorem PruneStep.doomed_of_gone (step : PruneStep chunk store pruner next pruner')
    (chosen : Chosen (store, pruner)) (dated : pruner.Dated) (held : row ∈ store.db.messages)
    (gone : row ∉ next.db.messages) : Doomed next.db.toTables pruner' row.bufferId row.cursor := by
  cases step with
  | @age _ now days maxPer deleted turn deletes =>
    obtain ⟨-, older⟩ :=
      deletes.matches_of_gone (fun _ member => mem_of_mem_filter member) held gone
    refine .inl ?_
    rw [appliedCutoff_ageTurn (deletes.deleted_pos held gone)]
    exact ⟨dated, of_decide_eq_true (mem_filter.mp older).2⟩
  | @count _ _ maxPer buffer deleted keep _ turn deletes =>
    obtain ⟨allows, older⟩ := deletes.matches_of_gone
      (fun other member => (mem_rowsOf.mp (mem_of_mem_filter member)).1) held gone
    obtain ⟨inBuffer, below⟩ := mem_filter.mp older
    rw [cursorLess_eq, decide_eq_true_eq] at below
    rw [countGuard, Bool.and_eq_true, decide_eq_true_eq, decide_eq_true_eq] at allows
    refine .inr ?_
    rw [appliedMax_countTurn, if_pos (deletes.deleted_pos held gone), (mem_rowsOf.mp inBuffer).2]
    exact ⟨Nat.lt_of_lt_of_le allows.1 allows.2,
      (deletes.chosen (chosen _ _ _ _ _ _ rfl)).trans (countFrom_le_countAbove below)⟩
  | reconcile =>
    rw [(reconcileRings_only _ _ _).db] at gone
    exact absurd held gone
  | start | list | listFailed | checked | stopped | skip | choose | chooseFailed =>
    exact absurd held gone

/-! ### Runs -/

theorem append_backed {deleted : List MessageRow} (backed : Cached (Backed pruner deleted) store)
    {fault vetoFault : Fault} {opts : AppendOpts} :
    wp (append fault vetoFault now network target message opts)
      (fun _ next => Cached (Backed pruner deleted) next)
      (fun _ next => Cached (Backed pruner deleted) next) store := by
  refine wp_append (backed_kept pruner deleted) backed (fun _ => id)
    (fun _ _ => id) ?_
  intro reached resolved buffer db archived reachedBacked resolves appended
  have kept : ∀ row ∈ reached.db.messages, row ∈ db.messages := by
    intro row member
    rw [appended.messages]
    exact mem_append_left _ member
  refine reachedBacked.inserted (backed_kept pruner deleted) appended
    (fun other ring _ found => (reachedBacked.rings other ring found).grown kept) ?_
  intro ring found other member
  rcases Ring.mem_insert member with rfl | old
  · refine .inl ⟨_, mem_rowsOf.mpr ⟨?_, rfl⟩, shows_row⟩
    rw [appended.messages]
    exact mem_append_right _ (mem_singleton.mpr rfl)
  · exact ((reachedBacked.rings buffer ring found).grown kept) other old

structure Watched where
  store : Store
  pruner : Pruner
  deleted : List MessageRow

def Tables.missingFrom (before after : Tables) : List MessageRow :=
  before.messages.filter fun row => !after.messages.contains row

/-- One critical section, watched: the rows it deletes are added to those of the run, and forgotten
when it returns. The window does not reach back to the epoch. -/
structure WatchedStep (chunk : Nat) (state next : Watched) : Prop where
  step : RetentionStep chunk (state.store, state.pruner) (next.store, next.pruner)
  dated : next.pruner.Dated
  deleted : next.deleted = if next.pruner = .idle then []
    else state.deleted ++ state.store.db.missingFrom next.store.db.toTables

structure Backing (state : Watched) : Prop where
  covered : Cached Covering state.store
  backed : Cached (Backed state.pruner state.deleted) state.store
  chosen : Chosen (state.store, state.pruner)
  dated : state.pruner.Dated
  idle : state.pruner = .idle → state.deleted = []

theorem Cached.more_deleted {deleted more : List MessageRow}
    (backed : Cached (Backed pruner deleted) store) (part : ∀ row ∈ deleted, row ∈ more) :
    Cached (Backed pruner more) store where
  size := backed.size
  coherent := backed.coherent
  rings id ring found message member :=
    (backed.rings id ring found message member).imp_right fun ⟨doomed, row, listed, shown⟩ =>
      ⟨doomed, row, part row listed, shown⟩

section

variable (step : PruneStep chunk store pruner next pruner')
include step

theorem PruneStep.returns (idle : pruner' = .idle) :
    ∃ cutoff maxPer, pruner = .reconciling cutoff maxPer ∧
      next = store.reconcileRings cutoff maxPer := by
  cases step with
  | reconcile => exact ⟨_, _, rfl, rfl⟩
  | start =>
    dsimp only [begin, afterAge] at idle
    split at idle
    · cases idle
    · split at idle <;> cases idle
  | @age _ _ _ _ _ turn deletes =>
    cases turn with
    | again => cases idle
    | done =>
      dsimp only [ageTurn, afterAge] at idle
      split at idle
      · cases idle
      · split at idle <;> cases idle
  | @count _ _ _ _ _ _ _ turn deletes =>
    cases turn with
    | again => cases idle
    | done =>
      dsimp only [countTurn, countFailed] at idle
      split at idle <;> cases idle
  | list | listFailed | checked | stopped | skip | choose | chooseFailed => cases idle

theorem PruneStep.rings (going : pruner' ≠ .idle) : next.rings = store.rings := by
  cases step with
  | age deletes | count deletes =>
    rcases deletes.deletes_or_same with rfl | ⟨-, _, _, rfl, -, -⟩ <;> rfl
  | reconcile => exact absurd rfl going
  | start => rfl
  | list => rfl
  | listFailed => rfl
  | checked => rfl
  | stopped => rfl
  | skip => rfl
  | choose => rfl
  | chooseFailed => rfl

theorem PruneStep.backed {deleted : List MessageRow} (going : pruner' ≠ .idle)
    (covered : Cached Covering store) (backed : Cached (Backed pruner deleted) store)
    (chosen : Chosen (store, pruner)) (dated : pruner.Dated) :
    Cached (Backed pruner' (deleted ++ store.db.missingFrom next.db.toTables)) next where
  size := (step.covered covered).size
  coherent := (step.covered covered).coherent
  rings id ring found message member := by
    rw [step.rings going] at found
    rcases backed.rings id ring found message member with
      ⟨row, held, shown⟩ | ⟨doomed, row, listed, same, shown⟩
    · obtain ⟨inTable, inBuffer⟩ := mem_rowsOf.mp held
      by_cases kept : row ∈ next.db.messages
      · exact .inl ⟨row, mem_rowsOf.mpr ⟨kept, inBuffer⟩, shown⟩
      · refine .inr ⟨?_, row, mem_append_right _ ?_, inBuffer, shown⟩
        · rw [shown.cursor, ← inBuffer]
          exact step.doomed_of_gone chosen dated inTable kept
        · exact mem_filter.mpr ⟨inTable, by simpa using kept⟩
    · exact .inr ⟨step.doomed chosen going doomed, row, mem_append_left _ listed, same, shown⟩

end

theorem RetentionStep.chosen (step : RetentionStep chunk state state')
    (covered : Cached Covering state.1) (chosen : Chosen state) : Chosen state' := by
  cases step with
  | @append store pruner fault vetoFault now network target message opts filled =>
    have same : PolicyStep chunk (store, pruner) _ :=
      .append fault vetoFault now network target message opts
    exact same.chosen chosen
  | @persist store pruner fault days maxPerBuffer =>
    have same : PolicyStep chunk (store, pruner) _ := .persist fault days maxPerBuffer
    exact same.chosen chosen
  | install => exact chosen
  | prune step => exact step.chosen chosen
  | @before store pruner fault network target cursor limit =>
    have same : (final (Store.before fault network target cursor limit) store).db =
        store.db := wp_final (wp_mono
      (wp_before covering_kept covered fault network target cursor limit)
      (fun _ _ ended => ended.2.1) fun _ _ ended => ended.2.1)
    unfold Chosen
    rw [same]
    exact chosen
  | @after store pruner fault network target cursor limit =>
    have same : (final (Store.after fault network target cursor limit) store).db =
        store.db := wp_final (wp_mono
      (wp_after covering_kept covered fault network target cursor limit)
      (fun _ _ ended => ended.2.1) fun _ _ ended => ended.2.1)
    unfold Chosen
    rw [same]
    exact chosen

theorem RetentionStep.backed {deleted : List MessageRow}
    (step : RetentionStep chunk state state') (backed : Cached (Backed state.2 deleted) state.1) :
    PruneStep chunk state.1 state.2 state'.1 state'.2 ∨
      (state'.2 = state.2 ∧ Cached (Backed state'.2 deleted) state'.1) := by
  cases step with
  | append =>
    exact .inr ⟨rfl, wp_final (append_backed backed)⟩
  | before fault network target cursor limit =>
    exact .inr ⟨rfl, wp_final (wp_mono
      (wp_before (backed_kept _ _) backed fault network target cursor limit)
      (fun _ _ ended => ended.1) fun _ _ ended => ended.1)⟩
  | after fault network target cursor limit =>
    exact .inr ⟨rfl, wp_final (wp_mono
      (wp_after (backed_kept _ _) backed fault network target cursor limit)
      (fun _ _ ended => ended.1) fun _ _ ended => ended.1)⟩
  | persist fault days maxPerBuffer =>
    exact .inr ⟨rfl, wp_final
      (persistRetention_cached (backed_kept _ _) backed fault days maxPerBuffer)⟩
  | install => exact .inr ⟨rfl, ⟨backed.size,
      ⟨backed.coherent.networks, backed.coherent.buffers⟩, backed.rings⟩⟩
  | prune step => exact .inl step

theorem WatchedStep.backing {state next : Watched} (watched : WatchedStep chunk state next)
    (backing : Backing state) : Backing next := by
  obtain ⟨step, dated, deleted⟩ := watched
  refine ⟨step.covered backing.covered, ?_, step.chosen backing.covered backing.chosen, dated,
    fun idle => by rw [deleted, if_pos idle]⟩
  rcases step.backed backing.backed with pruned | ⟨same, backed⟩
  · by_cases idle : next.pruner = .idle
    · obtain ⟨_, _, stood, reconciled⟩ := pruned.returns idle
      have backed := backing.backed
      dsimp only at stood reconciled
      rw [stood] at backed
      rw [deleted, if_pos idle, idle, reconciled]
      exact backing.covered.reconciled backed
    · rw [deleted, if_neg idle]
      exact pruned.backed idle backing.covered backing.backed backing.chosen backing.dated
  · refine backed.more_deleted fun row listed => ?_
    rw [deleted]
    split
    next idle =>
      rw [backing.idle (same.symm.trans idle)] at listed
      cases listed
    · exact mem_append_left _ listed

theorem reached_backing {start : Store} {state : Watched} (opened : start.Opened)
    (reached : Relation.ReflTransGen (WatchedStep chunk) ⟨start, .idle, []⟩ state) :
    Backing state := by
  induction reached with
  | refl =>
    refine ⟨Cached.opened opened, Cached.opened opened, ?_, trivial, fun _ => rfl⟩
    intro cutoff maxPer buffer keep buffers deleted stands
    cases stands
  | tail _ step ih => exact step.backing ih

/-! ### What a page contains -/

theorem message_shows :
    (row.message network target).Shows row := congrArg Line.body (line_message row network target)

theorem ServedBefore.backed {cursor : Cursor} {deleted : List MessageRow}
    (backed : Cached (Backed pruner deleted) store)
    (served : ServedBefore store network target buffer cursor limit page)
    (member : message ∈ page) :
    (∃ row ∈ store.db.rowsOf buffer, message.Shows row) ∨
      ∃ row ∈ deleted, row.bufferId = buffer ∧ message.Shows row := by
  cases served with
  | ring resident =>
    exact (backed.rings buffer _ resident message
      (mem_of_mem_take (mem_of_mem_drop member))).imp_right And.right
  | table =>
    obtain ⟨row, listed, rfl⟩ := mem_map.mp (mem_reverse.mp member)
    have held : row ∈ store.db.rowsOf buffer := mem_of_mem_filter
      ((mem_insertionSort _).mp (mem_of_mem_take listed))
    exact .inl ⟨row, held, message_shows⟩

theorem ServedAfter.backed {cursor : Cursor} {deleted : List MessageRow}
    (backed : Cached (Backed pruner deleted) store)
    (served : ServedAfter store network target buffer cursor limit page) (member : message ∈ page) :
    (∃ row ∈ store.db.rowsOf buffer, message.Shows row) ∨
      ∃ row ∈ deleted, row.bufferId = buffer ∧ message.Shows row := by
  cases served with
  | ring resident =>
    exact (backed.rings buffer _ resident message
      (mem_of_mem_drop (mem_of_mem_take member))).imp_right And.right
  | table =>
    obtain ⟨row, listed, rfl⟩ := mem_map.mp member
    have held : row ∈ store.db.rowsOf buffer := mem_of_mem_filter
      ((mem_insertionSort _).mp (mem_of_mem_take listed))
    exact .inl ⟨row, held, message_shows⟩

/-- In every run of appends that leave no gap, reads, policy changes and prunes whose windows do not
reach back to the epoch, each message that `Before` or `After` returns is a row of the buffer, or
was deleted by the prune still going. -/
theorem pruned_not_served {chunk : Nat} {start : Store} {state : Watched} (opened : start.Opened)
    (reached : Relation.ReflTransGen (WatchedStep chunk) ⟨start, .idle, []⟩ state)
    {fault : Fault} {network target : Bytes} {cursor : Cursor} {limit : Int}
    {page : List Message} {next : Store}
    (served : exec (before fault network target cursor limit) state.store =
        (.ok page, next) ∨
      exec (after fault network target cursor limit) state.store = (.ok page, next))
    {message : Message} (member : message ∈ page) :
    ∃ buffer, state.store.db.locate network target = some buffer ∧
      ((∃ row ∈ state.store.db.rowsOf buffer, message.Shows row) ∨ (state.pruner ≠ .idle ∧
          ∃ row ∈ state.deleted, row.bufferId = buffer ∧ message.Shows row)) := by
  have backing := reached_backing opened reached
  have kept := backed_kept state.pruner state.deleted
  -- a run that has returned leaves nothing deleted to serve
  have going : ∀ {rows : Prop} {buffer : Nat},
      (rows ∨ ∃ row ∈ state.deleted, row.bufferId = buffer ∧ message.Shows row) →
        (rows ∨ (state.pruner ≠ .idle ∧
          ∃ row ∈ state.deleted, row.bufferId = buffer ∧ message.Shows row)) := by
    refine fun holds => holds.imp_right fun shown => ⟨fun idle => ?_, shown⟩
    obtain ⟨row, listed, -⟩ := shown
    rw [backing.idle idle] at listed
    cases listed
  rcases served with ended | ended
  · obtain ⟨nextBacked, db, unknown, found⟩ := ((wp_iff _ _ _ _).mp
      (wp_before kept backing.backed fault network target cursor limit)).1 page next ended
    cases located : state.store.db.locate network target with
    | none =>
      rw [unknown located] at member
      cases member
    | some buffer =>
      have shown := (found buffer located).backed nextBacked member
      rw [db] at shown
      exact ⟨buffer, rfl, going shown⟩
  · obtain ⟨nextBacked, db, unknown, found⟩ := ((wp_iff _ _ _ _).mp
      (wp_after kept backing.backed fault network target cursor limit)).1 page next ended
    cases located : state.store.db.locate network target with
    | none =>
      rw [unknown located] at member
      cases member
    | some buffer =>
      have shown := (found buffer located).backed nextBacked member
      rw [db] at shown
      exact ⟨buffer, rfl, going shown⟩

def wholePruned : Store :=
  halfPruned.reconcileRings (ageCutoff (2 * 24 * 3600 * 10 ^ 9) 1) 0

/-- Once the prune of an old and a new message has returned, the page from the start is the new
row. -/
theorem pruned_not_served_wholePruned :
    ∃ page next, exec (after noFault (lit "libera") (lit "#go") ⟨0, 0⟩ 10) wholePruned =
          (.ok page, next) ∧
        page ≠ [] ∧ ∀ message ∈ page, ∃ row ∈ wholePruned.db.rowsOf 1, message.Shows row := by
  have valid : validateRetention 1 0 = .ok ⟨1, 0⟩ := rfl
  have installed : WatchedStep pruneChunk ⟨fresh 10 (16 * 2 ^ 20), .idle, []⟩
      ⟨dayPolicy, .idle, []⟩ := ⟨.install valid, trivial, rfl⟩
  have first : WatchedStep pruneChunk ⟨dayPolicy, .idle, []⟩
      ⟨final (say (10 ^ 6) (lit "old")) dayPolicy, .idle, []⟩ :=
    ⟨.append noFault noFault 0 _ _ _ _ fun stored _ next _ _ =>
      noGap_of_none_emptied (by decide +kernel) next stored, trivial, rfl⟩
  have second : WatchedStep pruneChunk
      ⟨final (say (10 ^ 6) (lit "old")) dayPolicy, .idle, []⟩ ⟨oldAndNew, .idle, []⟩ :=
    ⟨.append noFault noFault 0 _ _ _ _ fun stored _ next _ _ =>
      noGap_of_none_emptied (by decide +kernel) next stored, trivial, rfl⟩
  have started : WatchedStep pruneChunk ⟨oldAndNew, .idle, []⟩
      ⟨oldAndNew, .byAge (2 * 24 * 3600 * 10 ^ 9) 1 0 0,
        [] ++ oldAndNew.db.missingFrom oldAndNew.db.toTables⟩ :=
    ⟨.prune (.start oldAndNew (2 * 24 * 3600 * 10 ^ 9)),
      show 0 < ageCutoff (2 * 24 * 3600 * 10 ^ 9) 1 by decide, rfl⟩
  have deleted : WatchedStep pruneChunk ⟨oldAndNew, .byAge (2 * 24 * 3600 * 10 ^ 9) 1 0 0,
        [] ++ oldAndNew.db.missingFrom oldAndNew.db.toTables⟩
      ⟨halfPruned, .reconciling (ageCutoff (2 * 24 * 3600 * 10 ^ 9) 1) 0,
        [] ++ oldAndNew.db.missingFrom oldAndNew.db.toTables ++
          oldAndNew.db.missingFrom halfPruned.db.toTables⟩ :=
    ⟨.prune (.age (.last (by decide +kernel) oldAndNew_picks rfl (by decide))), trivial, rfl⟩
  have returned : WatchedStep pruneChunk
      ⟨halfPruned, .reconciling (ageCutoff (2 * 24 * 3600 * 10 ^ 9) 1) 0,
        [] ++ oldAndNew.db.missingFrom oldAndNew.db.toTables ++
          oldAndNew.db.missingFrom halfPruned.db.toTables⟩ ⟨wholePruned, .idle, []⟩ :=
    ⟨.prune .reconcile, trivial, rfl⟩
  have reached := (((((refl.tail installed).tail first).tail second).tail
    started).tail deleted).tail returned
  have located : wholePruned.db.locate (lit "libera") (lit "#go") = some 1 := by decide +kernel
  have shown : (exec (after noFault (lit "libera") (lit "#go") ⟨0, 0⟩ 10)
      wholePruned).1.map length = .ok 1 := by
    decide +kernel
  rcases ended : exec (after noFault (lit "libera") (lit "#go") ⟨0, 0⟩ 10) wholePruned with
    ⟨reason | page, next⟩
  · rw [ended] at shown
    cases shown
  rw [ended] at shown
  refine ⟨page, next, rfl, ?_, fun message member => ?_⟩
  · rintro rfl
    cases shown
  · obtain ⟨buffer, place, row | ⟨going, -⟩⟩ := pruned_not_served (fresh_opened (by decide) _)
      reached (.inr ended) member
    · obtain rfl : buffer = 1 := Option.some.inj (place.symm.trans located)
      exact row
    · exact absurd rfl going

/-! ### A window that reaches back to the epoch -/

def ancient : Store :=
  final (say (-2208988800 * 10 ^ 9) (lit "old"))
    ((fresh 10 (16 * 2 ^ 20)).installRetention ⟨36500, 0⟩)

def ancientPruned : Store :=
  { ancient with db := ⟨ancient.db.deleteMessages [1], by decide +kernel⟩ }

/-- A prune of November 2026 under a window of a hundred years deletes a row dated 1900. The page is
still that row, from memory. -/
theorem ancient_row_served :
    ∃ page next, Relation.ReflTransGen (RetentionStep pruneChunk) (fresh 10 (16 * 2 ^ 20), .idle)
        (ancient, .idle) ∧
      Relation.ReflTransGen (RetentionStep pruneChunk) (ancient, .idle) (ancientPruned, .idle) ∧
      (∃ row ∈ ancient.db.rowsOf 1, row ∉ ancientPruned.db.messages ∧
        row.cursor = ⟨-2208988800000, 1⟩) ∧
      exec (before noFault (lit "libera") (lit "#go") maxCursor 10) ancientPruned =
        (.ok page, next) ∧
      page.map cursor = [⟨-2208988800000, 1⟩] := by
  have valid : validateRetention 36500 0 = .ok ⟨36500, 0⟩ := rfl
  have installed : RetentionStep pruneChunk (fresh 10 (16 * 2 ^ 20), .idle)
      ((fresh 10 (16 * 2 ^ 20)).installRetention ⟨36500, 0⟩, .idle) := .install valid
  have said : RetentionStep pruneChunk
      ((fresh 10 (16 * 2 ^ 20)).installRetention ⟨36500, 0⟩, .idle) (ancient, .idle) :=
    .append noFault noFault 0 _ _ _ _ fun stored _ next _ _ =>
      noGap_of_none_emptied (by decide +kernel) next stored
  have picks : Picks pruneChunk (ancient.db.olderThan (ageCutoff (1794873600 * 10 ^ 9) 36500))
      [1] := ⟨by decide, by decide +kernel, by decide +kernel⟩
  have started : RetentionStep pruneChunk (ancient, .idle)
      (ancient, .byAge (1794873600 * 10 ^ 9) 36500 0 0) := .prune (.start ancient _)
  have deleted : RetentionStep pruneChunk (ancient, .byAge (1794873600 * 10 ^ 9) 36500 0 0)
      (ancientPruned, .reconciling (ageCutoff (1794873600 * 10 ^ 9) 36500) 0) :=
    .prune (.age (.last (by decide +kernel) picks rfl (by decide)))
  have returned : RetentionStep pruneChunk
      (ancientPruned, .reconciling (ageCutoff (1794873600 * 10 ^ 9) 36500) 0)
      (ancientPruned, .idle) := .prune .reconcile
  have shown : (exec (before noFault (lit "libera") (lit "#go") maxCursor 10)
      ancientPruned).1.map (fun page => page.map cursor) = .ok [⟨-2208988800000, 1⟩] := by
    decide +kernel
  rcases ended : exec (before noFault (lit "libera") (lit "#go") maxCursor 10)
    ancientPruned with ⟨reason | page, next⟩
  · rw [ended] at shown
    cases shown
  rw [ended] at shown
  exact ⟨page, next, (refl.tail installed).tail said,
    ((refl.tail started).tail deleted).tail returned,
    by decide +kernel, rfl, Except.ok.inj shown⟩

end Ircthing.Store
