/-
This file proves that a prune deletes nothing the policy in force at that moment keeps.
-/

import Ircthing.Store.Caches
import Ircthing.Store.Retention

namespace Ircthing.Store

open Library Effect List Relation Tables Pruner

variable {chunk deleted buffer maxPer : Nat} {guard : Store → Bool} {store next : Store}
  {turn : ChunkEnd} {row : MessageRow} {matching : Tables → List MessageRow}
  {state : Store × Pruner} {db : Database}

/-! ### What a chunk deletes -/

theorem DeleteChunk.deletes_or_same
    (deletes : DeleteChunk chunk guard matching deleted store next turn) :
    next = store ∨ guard store = true ∧ ∃ victims db, next = { store with db := db } ∧
      db.toTables = store.db.deleteMessages victims ∧
      ∀ id ∈ victims, id ∈ (matching store.db.toTables).map (·.id) := by
  cases deletes with
  | bail | fail => exact .inl rfl
  | last allows picks written | more allows picks written | cancelled allows picks written =>
    exact .inr ⟨allows, _, _, rfl, written, picks.some_match⟩

theorem DeleteChunk.matches_of_gone
    (deletes : DeleteChunk chunk guard matching deleted store next turn)
    (part : ∀ row ∈ matching store.db.toTables, row ∈ store.db.messages)
    (held : row ∈ store.db.messages) (gone : row ∉ next.db.messages) :
    guard store = true ∧ row ∈ matching store.db.toTables := by
  rcases deletes.deletes_or_same with rfl | ⟨allows, _, db, rfl, written, picked⟩
  · exact absurd held gone
  · refine ⟨allows, ?_⟩
    rw [written, deleteMessages, mem_filter, not_and, decide_eq_true_eq, not_not] at gone
    obtain ⟨other, member, same⟩ := mem_map.mp (picked row.id (gone held))
    rwa [← row_eq_of_id (part other member) held same]

/-! ### The newest rows -/

def Tables.countAbove (tables : Tables) (buffer : Nat) (cursor : Cursor) : Nat :=
  ((tables.rowsOf buffer).filter fun row => cursor < row.cursor).length

def Tables.countFrom (tables : Tables) (buffer : Nat) (cursor : Cursor) : Nat :=
  ((tables.rowsOf buffer).filter fun row => cursor ≤ row.cursor).length

theorem countFrom_le_countAbove {tables : Tables} {low high : Cursor} (below : low < high) :
    tables.countFrom buffer high ≤ tables.countAbove buffer low := by
  unfold countFrom countAbove
  rw [← countP_eq_length_filter, ← countP_eq_length_filter]
  refine countP_mono_left fun row _ above => ?_
  rw [decide_eq_true_eq] at above ⊢
  exact below.trans_le above

theorem length_filter_le_of_mem {before after : Database} {test : MessageRow → Bool}
    (kept : ∀ row ∈ before.rowsOf buffer, test row = true → row ∈ after.messages) :
    ((before.rowsOf buffer).filter test).length ≤ ((after.rowsOf buffer).filter test).length := by
  have distinct : ((before.rowsOf buffer).filter test).Nodup :=
    (Nodup.of_map _ (rowsOf_ids_nodup before buffer)).filter _
  refine (subperm_of_subset distinct fun row member => ?_).length_le
  obtain ⟨held, passes⟩ := mem_filter.mp member
  exact mem_filter.mpr ⟨mem_rowsOf.mpr ⟨kept row held passes, (mem_rowsOf.mp held).2⟩, passes⟩

theorem le_countFrom_lastKept (kept : db.lastKept buffer maxPer = some row) :
    maxPer ≤ db.countFrom buffer row.cursor := by
  have distinct : (db.rowsOf buffer).Nodup := Nodup.of_map _ (rowsOf_ids_nodup db buffer)
  have reversed := newestFirst_reverse distinct (rows_keyed db buffer)
  have sorted : (newestFirst (db.rowsOf buffer)).Pairwise fun first second =>
      second.cursor < first.cursor := by
    rw [← pairwise_reverse, reversed]
    exact ordered_ascending distinct (rows_keyed db buffer)
  obtain ⟨bound, found⟩ := List.getElem?_eq_some_iff.mp kept
  have front : ((newestFirst (db.rowsOf buffer)).take (maxPer - 1 + 1)).filter
      (fun other => row.cursor ≤ other.cursor) =
      (newestFirst (db.rowsOf buffer)).take (maxPer - 1 + 1) := by
    refine filter_eq_self.mpr fun other member => ?_
    rw [take_add_one, getElem?_eq_getElem bound, found] at member
    rcases mem_append.mp member with early | last
    · have after : row ∈ (newestFirst (db.rowsOf buffer)).drop (maxPer - 1) := by
        rw [drop_eq_getElem_cons bound, found]
        exact mem_cons_self
      rw [← take_append_drop (maxPer - 1) (newestFirst (db.rowsOf buffer)),
        pairwise_append] at sorted
      simpa using (sorted.2.2 other early row after).le
    · simp only [Option.toList_some, mem_singleton] at last
      simp [last]
  have counted : ((newestFirst (db.rowsOf buffer)).filter
      fun other => row.cursor ≤ other.cursor).length = db.countFrom buffer row.cursor :=
    ((perm_insertionSort _ _).filter _).length_eq
  have part := ((take_sublist (maxPer - 1 + 1) (newestFirst (db.rowsOf buffer))).filter
      fun other => decide (row.cursor ≤ other.cursor)).length_le
  rw [front, length_take, counted] at part
  omega

theorem not_mem_newest {count : Nat} (above : count ≤ db.countAbove buffer row.cursor) :
    row ∉ (newestFirst (db.rowsOf buffer)).take count := by
  intro member
  have distinct : (db.rowsOf buffer).Nodup := Nodup.of_map _ (rowsOf_ids_nodup db buffer)
  have strict := ordered_ascending distinct (rows_keyed db buffer)
  have reversed : newestFirst (db.rowsOf buffer) =
      (ordered MessageRow.cursor (db.rowsOf buffer)).reverse :=
    reverse_eq_iff.mp (newestFirst_reverse distinct (rows_keyed db buffer))
  have counted : ((ordered MessageRow.cursor (db.rowsOf buffer)).filter
      fun other => row.cursor < other.cursor).length = db.countAbove buffer row.cursor :=
    ((perm_insertionSort _ _).filter _).length_eq
  rw [reversed] at member
  obtain ⟨_, after, split⟩ :=
    append_of_mem (mem_reverse.mp (mem_of_mem_take member))
  rw [split] at strict counted member
  rw [strict.above_of_split] at counted
  rw [reverse_append, reverse_cons, append_assoc,
    take_append_of_le_length (by rw [length_reverse]; omega)] at member
  have late : row ∈ after := mem_reverse.mp (mem_of_mem_take member)
  obtain ⟨-, later, -⟩ := pairwise_append.mp strict
  exact lt_irrefl _ (rel_of_pairwise_cons later late)

/-! ### What the other operations leave -/

theorem messages_survive {rows : List MessageRow} :
    Survives fun store => ∀ row ∈ rows, row ∈ store.db.messages where
  bufferID holds fault network target create :=
    wp_mono bufferID_turn (fun _ _ looked => by rw [looked.1.grown.messages]; exact holds)
      fun _ _ looked => by rw [looked.1.grown.messages]; exact holds
  rings holds only := by rw [only.db]; exact holds
  appended holds appended := by
    intro row member
    rw [appended.messages]
    exact mem_append_left _ (holds row member)

theorem persistRetention_messages {fault : Fault} {days maxPerBuffer : Int} :
    wp (persistRetention fault days maxPerBuffer)
      (fun _ next => next.db.messages = store.db.messages)
      (fun _ next => next.db.messages = store.db.messages) store := by
  unfold persistRetention
  split
  · rfl
  rw [wp_bind]
  unfold setSettings
  refine wp_attempt_bind (fun _ => rfl) ?_
  refine wp_attempt_bind (fun _ => rfl) ?_
  rw [wp_bind, wp_get]
  refine wp_execute rfl fun db written => ?_
  show db.messages = _
  rw [written, foldl_cons, foldl_cons, foldl_nil]
  rfl

/-! ### Runs -/

/-- One critical section of a system that appends, changes the policy and prunes. The messages
appended may bear any time. -/
inductive PolicyStep (chunk : Nat) : Store × Pruner → Store × Pruner → Prop
  | append {store : Store} {pruner : Pruner} (fault vetoFault : Fault) (now : Int)
      (network target : Bytes) (message : Message) (opts : AppendOpts) :
      PolicyStep chunk (store, pruner)
        (final (append fault vetoFault now network target message opts) store, pruner)
  | persist {store : Store} {pruner : Pruner} (fault : Fault) (days maxPerBuffer : Int) :
      PolicyStep chunk (store, pruner)
        (final (persistRetention fault days maxPerBuffer) store, pruner)
  | install {store : Store} {pruner : Pruner} {days maxPerBuffer : Int}
      {policy : RetentionPolicy} (valid : validateRetention days maxPerBuffer = .ok policy) :
      PolicyStep chunk (store, pruner) (store.installRetention policy, pruner)
  | prune {store next : Store} {pruner pruner' : Pruner}
      (step : PruneStep chunk store pruner next pruner') :
      PolicyStep chunk (store, pruner) (next, pruner')

/-- While a buffer is pruned by count, enough of its rows stand at the last row to keep or above
it. -/
def Chosen (state : Store × Pruner) : Prop :=
  ∀ cutoff maxPer buffer keep buffers deleted,
    state.2 = .byCount cutoff maxPer buffer keep buffers deleted →
      maxPer ≤ state.1.db.countFrom buffer keep

theorem DeleteChunk.chosen {keep : Cursor}
    (deletes : DeleteChunk chunk guard (olderIn buffer keep) deleted store next turn)
    (enough : maxPer ≤ store.db.countFrom buffer keep) :
    maxPer ≤ next.db.countFrom buffer keep := by
  refine enough.trans (length_filter_le_of_mem fun row held above => ?_)
  by_contra gone
  obtain ⟨-, older⟩ := deletes.matches_of_gone
    (fun other member => (mem_rowsOf.mp (mem_of_mem_filter member)).1)
    (mem_rowsOf.mp held).1 gone
  have below := (mem_filter.mp older).2
  rw [cursorLess_eq, decide_eq_true_eq] at below
  exact absurd (of_decide_eq_true above) (not_le.mpr below)

theorem PruneStep.chosen {pruner pruner' : Pruner}
    (step : PruneStep chunk store pruner next pruner') (chosen : Chosen (store, pruner)) :
    Chosen (next, pruner') := by
  intro cutoff maxPer buffer keep buffers deleted stands
  cases step with
  | choose kept =>
    cases stands
    exact le_countFrom_lastKept kept
  | count deletes =>
    rename_i turn
    cases turn with
    | again count =>
      cases stands
      exact deletes.chosen (chosen _ _ _ _ _ _ rfl)
    | done count failed =>
      unfold countTurn countFailed at stands
      cases failed <;> cases stands
  | start now =>
    dsimp only [begin, afterAge] at stands
    split at stands
    · cases stands
    · split at stands <;> cases stands
  | age deletes =>
    rename_i turn
    cases turn with
    | again count => cases stands
    | done count failed =>
      dsimp only [ageTurn, afterAge] at stands
      cases failed with
      | true => cases stands
      | false =>
        rw [if_neg Bool.false_ne_true] at stands
        split at stands <;> cases stands
  | list | listFailed | checked | stopped | skip | chooseFailed | reconcile => cases stands

theorem PolicyStep.chosen {state' : Store × Pruner} (step : PolicyStep chunk state state')
    (chosen : Chosen state) : Chosen state' := by
  cases step with
  | @append store pruner fault vetoFault now network target message opts =>
    intro cutoff maxPer buffer keep buffers deleted stands
    refine (chosen _ _ _ _ _ _ stands).trans (length_filter_le_of_mem fun row held _ => ?_)
    exact messages_survive.append (fun _ => id) fault vetoFault now
      network target message opts row (mem_rowsOf.mp held).1
  | @persist store pruner fault days maxPerBuffer =>
    intro cutoff maxPer buffer keep buffers deleted stands
    have same : (final (persistRetention fault days maxPerBuffer) store).db.messages =
        store.db.messages :=
      wp_final persistRetention_messages
    refine (chosen _ _ _ _ _ _ stands).trans (length_filter_le_of_mem fun row held _ => ?_)
    rw [same]
    exact (mem_rowsOf.mp held).1
  | install => exact chosen
  | prune step => exact step.chosen chosen

theorem reached_chosen {start : Store}
    (reached : ReflTransGen (PolicyStep chunk) (start, .idle) state) : Chosen state := by
  induction reached with
  | refl =>
    intro cutoff maxPer buffer keep buffers deleted stands
    cases stands
  | tail _ step ih => exact step.chosen ih

def Pruner.clock : Pruner → Option Int
  | .byAge now _ _ _ => some now
  | _ => none

/-- Whatever is appended and however the policy changes, a row that a critical section of a prune
deletes is older than the cutoff of the policy in force, or not among the newest rows it keeps of
the buffer. -/
theorem prune_respects_live_policy {chunk : Nat} {start store next : Store}
    {pruner pruner' : Pruner}
    (reached : ReflTransGen (PolicyStep chunk) (start, .idle) (store, pruner))
    (step : PruneStep chunk store pruner next pruner') {row : MessageRow}
    (held : row ∈ store.db.messages) (gone : row ∉ next.db.messages) :
    (∃ now ∈ pruner.clock, 0 < store.retention.days ∧ row.ts < ageCutoff now store.retention.days) ∨
      (0 < store.retention.maxPerBuffer ∧
        row ∉ (newestFirst (store.db.rowsOf row.bufferId)).take
          store.retention.maxPerBuffer) := by
  have chosen := reached_chosen reached
  cases step with
  | age deletes =>
    obtain ⟨allows, older⟩ :=
      deletes.matches_of_gone (fun _ member => mem_of_mem_filter member) held gone
    rw [ageGuard, Bool.and_eq_true, decide_eq_true_eq, decide_eq_true_eq] at allows
    have before := of_decide_eq_true (mem_filter.mp older).2
    exact .inl ⟨_, rfl, Nat.pos_of_ne_zero allows.1, before.trans_le allows.2⟩
  | count deletes =>
    obtain ⟨allows, older⟩ := deletes.matches_of_gone
      (fun other member => (mem_rowsOf.mp (mem_of_mem_filter member)).1) held gone
    rw [countGuard, Bool.and_eq_true, decide_eq_true_eq, decide_eq_true_eq] at allows
    obtain ⟨inBuffer, below⟩ := mem_filter.mp older
    rw [cursorLess_eq, decide_eq_true_eq] at below
    refine .inr ⟨allows.1, not_mem_newest ?_⟩
    rw [(mem_rowsOf.mp inBuffer).2]
    exact (allows.2.trans (chosen _ _ _ _ _ _ rfl)).trans (countFrom_le_countAbove below)
  | reconcile =>
    rw [(reconcileRings_only _ _ _).db] at gone
    exact absurd held gone
  | start | list | listFailed | checked | stopped | skip | choose | chooseFailed =>
    exact absurd held gone

/-- The first prune of a store with an old and a new message deletes the old one, which the policy
in force does not keep. -/
theorem prune_respects_live_policy_oldAndNew :
    ∃ row ∈ oldAndNew.db.messages, row ∉ halfPruned.db.messages ∧
      ((∃ now ∈ (byAge (2 * 24 * 3600 * 10 ^ 9) 1 0 0).clock,
          0 < oldAndNew.retention.days ∧ row.ts < ageCutoff now oldAndNew.retention.days) ∨
        (0 < oldAndNew.retention.maxPerBuffer ∧
          row ∉ (newestFirst (oldAndNew.db.rowsOf row.bufferId)).take
            oldAndNew.retention.maxPerBuffer)) := by
  have valid : validateRetention 1 0 = .ok ⟨1, 0⟩ := rfl
  have installed : PolicyStep pruneChunk (fresh 10 (16 * 2 ^ 20), .idle) (dayPolicy, .idle) :=
    .install valid
  have first : PolicyStep pruneChunk (dayPolicy, .idle)
      (final (say (10 ^ 6) (lit "old")) dayPolicy, .idle) := .append ..
  have second : PolicyStep pruneChunk
      (final (say (10 ^ 6) (lit "old")) dayPolicy, .idle) (oldAndNew, .idle) := .append ..
  have started : PolicyStep pruneChunk (oldAndNew, .idle)
      (oldAndNew, .byAge (2 * 24 * 3600 * 10 ^ 9) 1 0 0) :=
    .prune (.start oldAndNew (2 * 24 * 3600 * 10 ^ 9))
  have deletes : PruneStep pruneChunk oldAndNew (.byAge (2 * 24 * 3600 * 10 ^ 9) 1 0 0) halfPruned
      (.ageTurn (2 * 24 * 3600 * 10 ^ 9) 1 0 (.done 1 false)) :=
    .age (.last (by decide +kernel) oldAndNew_picks rfl (by decide))
  obtain ⟨row, held, gone⟩ :
      ∃ row ∈ oldAndNew.db.messages, row ∉ halfPruned.db.messages := by decide +kernel
  exact ⟨row, held, gone, prune_respects_live_policy
    ((((ReflTransGen.refl.tail installed).tail first).tail second).tail started)
    deletes held gone⟩

end Ircthing.Store
