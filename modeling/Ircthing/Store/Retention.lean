/-
This file proves what retention can and cannot hide.
-/

import Mathlib.Logic.Relation
import Ircthing.Store.Prune
import Ircthing.Store.Residency

namespace Ircthing.Store

open Library Effect List Relation

variable {buffer chunk limit : Nat} {store next : Store} {victims : List Nat}
  {state : Store × Pruner} {page : List Message} {row : MessageRow} {cursor : Cursor}

/-! ### Rings that cover their buffer -/

def Covering (tables : Tables) (id : Nat) (ring : Ring) : Prop :=
  ring.CoversLines (tables.linesOf id)

theorem covering_kept : Kept Covering where
  stable _ := by
    refine ⟨fun _ => id, fun {id ring} limit covers => ?_⟩
    obtain ⟨_, msgs, complete, -, -⟩ := ring.trimToBytes_eq limit
    exact covers.of_drop msgs complete
  messages same covers := by
    unfold Covering
    rw [linesOf_congr same]
    exact covers
  tracking tracks := tracks.covers

/-! ### Deleting rows -/

theorem mem_linesOf_deleteMessages {tables : Tables} {line : Line}
    (member : line ∈ (tables.deleteMessages victims).linesOf buffer) :
    line ∈ tables.linesOf buffer := by
  obtain ⟨_, held, rfl⟩ := mem_map.mp member
  obtain ⟨kept, same⟩ := mem_rowsOf.mp held
  exact mem_map_of_mem (mem_rowsOf.mpr ⟨mem_of_mem_filter kept, same⟩)

theorem Cached.deleteMessages (covered : Cached Covering store) {db : Database}
    (written : db.toTables = store.db.deleteMessages victims) :
    Cached Covering { store with db := db } where
  size := covered.size
  coherent := covered.coherent.sameRows (by rw [written]; rfl) (by rw [written]; rfl)
  rings id ring found := by
    refine Covers.of_keys (covered.rings id ring found) fun line member => ?_
    rw [written] at member
    exact ⟨line, mem_linesOf_deleteMessages member, rfl⟩

theorem DeleteChunk.covered {guard : Store → Bool} {matching : Tables → List MessageRow}
    {deleted : Nat} {turn : ChunkEnd}
    (deletes : DeleteChunk chunk guard matching deleted store next turn)
    (covered : Cached Covering store) : Cached Covering next := by
  cases deletes with
  | bail | fail => exact covered
  | last _ _ written | more _ _ written | cancelled _ _ written =>
    exact covered.deleteMessages written

/-! ### Reconciling the rings -/

theorem reconcileRings_only (store : Store) (cutoff : Int) (maxPer : Nat) :
    OnlyRings store (store.reconcileRings cutoff maxPer) := by
  unfold reconcileRings
  split
  · exact OnlyRings.refl store
  · exact ⟨rfl, rfl, rfl, rfl, rfl, rfl⟩

theorem Cached.reconcileRings (covered : Cached Covering store) (cutoff : Int) (maxPer : Nat) :
    Cached Covering (store.reconcileRings cutoff maxPer) := by
  refine covered.onlyRings (reconcileRings_only store cutoff maxPer) ?_
  intro id ring found
  unfold Store.reconcileRings at found
  split at found
  · exact covered.rings id ring found
  · change (store.rings.mapValues _).lookup id = some ring at found
    rw [Dict.lookup_mapValues, Option.map_eq_some_iff] at found
    obtain ⟨earlier, resident, rfl⟩ := found
    obtain ⟨_, msgs, complete, -⟩ := earlier.applyRetention_eq cutoff maxPer
    exact Ring.CoversLines.of_drop (covered.rings id earlier resident) msgs complete

theorem PruneStep.covered {pruner pruner' : Pruner}
    (step : PruneStep chunk store pruner next pruner') (covered : Cached Covering store) :
    Cached Covering next := by
  cases step with
  | age deletes | count deletes => exact deletes.covered covered
  | reconcile => exact covered.reconcileRings _ _
  | start | list | listFailed | checked | stopped | skip | choose | chooseFailed => exact covered

/-! ### Appending -/

def NoGap (store next : Store) (stored : Message) : Prop :=
  ∀ buffer ring, next.db.locate stored.network stored.target = some buffer →
    store.rings.lookup buffer = some ring → ring.Emptied →
      ∀ row ∈ store.db.rowsOf buffer, row.ts ≤ unixMilli stored.time

theorem append_covered (covered : Cached Covering store) (fault vetoFault : Fault) (now : Int)
    (network target : Bytes) (message : Message) (opts : AppendOpts) :
    wp (append fault vetoFault now network target message opts)
      (fun result next => (result.1.id ≠ 0 → NoGap store next result.1) → Cached Covering next)
      (fun _ next => Cached Covering next) store := by
  refine wp_append covering_kept covered (fun _ nextCovered _ => nextCovered)
    (fun _ _ => id) ?_
  intro reached resolved buffer db archived reachedCovered resolves appended filled
  have filled := filled (Nat.succ_ne_zero _)
  -- the row added to a buffer has the cursor of the message inserted into its ring
  have rows : ∀ id line, line ∈ db.linesOf id → line ∈ reached.db.linesOf id ∨
      (id = buffer ∧
        line.cursor = (reached.db.stored (message.filed now network resolved)).cursor) := by
    intro id line member
    obtain ⟨row, held, rfl⟩ := mem_map.mp member
    obtain ⟨inTable, same⟩ := mem_rowsOf.mp held
    rw [appended.messages, mem_append, mem_singleton] at inTable
    rcases inTable with old | rfl
    · exact .inl (mem_map_of_mem (mem_rowsOf.mpr ⟨old, same⟩))
    · exact .inr ⟨same.symm, rfl⟩
  refine reachedCovered.inserted covering_kept appended ?_ ?_
  · intro other ring different found
    refine Covers.of_keys (reachedCovered.rings other ring found) fun line member => ?_
    rcases rows other line member with old | ⟨same, -⟩
    · exact ⟨line, old, rfl⟩
    · exact absurd same different
  · intro ring found
    refine Covers.of_keys (Ring.CoversLines.insert (reachedCovered.rings buffer ring found)
      fun empty => ?_) fun line member => ?_
    · by_cases complete : ring.complete = true
      · exact .inl complete
      refine .inr fun line member => ?_
      obtain ⟨earlier, resident, emptied⟩ :=
        resolves.emptied ring found ⟨empty, by simpa using complete⟩
      obtain ⟨row, held, rfl⟩ := mem_map.mp member
      have located : db.locate network resolved = some buffer := by
        obtain ⟨_, buffers, keeps⟩ := appended.buffers
        rw [locate_congr appended.networks buffers keeps]
        exact resolves.located
      have notOlder := filled buffer earlier (by rw [(refreshRing_only _ _ _).db]; exact located)
        resident emptied
        row (by
          have rowsOf := mem_rowsOf.mp held
          rw [resolves.messages] at rowsOf
          exact mem_rowsOf.mpr rowsOf)
      have used := lt_nextId (mem_map_of_mem (f := fun row => row.id) (mem_rowsOf.mp held).1)
      refine cursor_lt_iff.mpr ?_
      rcases lt_or_eq_of_le notOlder with earlierTs | sameTs
      · exact .inl earlierTs
      · exact .inr ⟨sameTs, Int.ofNat_lt.mpr used⟩
    · rcases rows buffer line member with old | ⟨-, same⟩
      · exact ⟨line, .tail _ old, rfl⟩
      · exact ⟨_, mem_cons_self, same.symm⟩

/-! ### Changing the policy -/

theorem persistRetention_cached {property : Tables → Nat → Ring → Prop} (kept : Kept property)
    (cached : Cached property store) (fault : Fault) (days maxPerBuffer : Int) :
    wp (persistRetention fault days maxPerBuffer)
      (fun _ next => Cached property next) (fun _ next => Cached property next) store := by
  -- only the settings table is written
  have settings : ∀ (pairs : List (Bytes × Bytes)) (tables : Tables),
      ∃ rows, pairs.foldl Tables.upsertSetting tables = { tables with settings := rows } := by
    intro pairs
    induction pairs with
    | nil => exact fun tables => ⟨tables.settings, rfl⟩
    | cons pair _ ih =>
      intro tables
      obtain ⟨rows, folded⟩ := ih (tables.upsertSetting pair)
      exact ⟨rows, folded⟩
  unfold persistRetention
  split
  · exact cached
  · rw [wp_bind]
    unfold setSettings
    refine wp_attempt_bind (fun _ => cached) ?_
    refine wp_attempt_bind (fun _ => cached) ?_
    rw [wp_bind, wp_get]
    refine wp_execute cached fun db written => ?_
    obtain ⟨rows, folded⟩ := settings _ store.db.toTables
    rw [folded] at written
    refine ⟨cached.size, cached.coherent.sameRows (by rw [written]) (by rw [written]), ?_⟩
    intro id ring found
    exact kept.messages (by rw [written]) (cached.rings id ring found)

/-! ### Runs -/

/-- One critical section of a system that appends, reads, changes the policy and prunes. -/
inductive RetentionStep (chunk : Nat) : Store × Pruner → Store × Pruner → Prop
  | append {store : Store} {pruner : Pruner} (fault vetoFault : Fault) (now : Int)
      (network target : Bytes) (message : Message) (opts : AppendOpts)
      (filled : ∀ stored archived next,
        exec (append fault vetoFault now network target message opts) store =
          (.ok (stored, archived), next) → stored.id ≠ 0 → NoGap store next stored) :
      RetentionStep chunk (store, pruner)
        (final (append fault vetoFault now network target message opts) store, pruner)
  | before {store : Store} {pruner : Pruner} (fault : Fault) (network target : Bytes)
      (cursor : Cursor) (limit : Int) :
      RetentionStep chunk (store, pruner)
        (final (before fault network target cursor limit) store, pruner)
  | after {store : Store} {pruner : Pruner} (fault : Fault) (network target : Bytes)
      (cursor : Cursor) (limit : Int) :
      RetentionStep chunk (store, pruner)
        (final (after fault network target cursor limit) store, pruner)
  | persist {store : Store} {pruner : Pruner} (fault : Fault) (days maxPerBuffer : Int) :
      RetentionStep chunk (store, pruner)
        (final (persistRetention fault days maxPerBuffer) store, pruner)
  | install {store : Store} {pruner : Pruner} {days maxPerBuffer : Int}
      {policy : RetentionPolicy} (valid : validateRetention days maxPerBuffer = .ok policy) :
      RetentionStep chunk (store, pruner) (store.installRetention policy, pruner)
  | prune {store next : Store} {pruner pruner' : Pruner}
      (step : PruneStep chunk store pruner next pruner') :
      RetentionStep chunk (store, pruner) (next, pruner')

theorem RetentionStep.covered {state' : Store × Pruner} (step : RetentionStep chunk state state')
    (covered : Cached Covering state.1) : Cached Covering state'.1 := by
  cases step with
  | append fault vetoFault now network target message opts filled =>
    have holds := (wp_iff _ _ _ _).mp
      (append_covered covered fault vetoFault now network target message opts)
    unfold final
    rcases ended : exec (Store.append fault vetoFault now network target message opts) _
      with ⟨reason | ⟨stored, archived⟩, next⟩
    · exact holds.2 reason next ended
    · exact holds.1 (stored, archived) next ended (filled stored archived next ended)
  | before fault network target cursor limit =>
    exact wp_final (wp_mono (wp_before covering_kept covered fault network target cursor limit)
      (fun _ _ ended => ended.1) fun _ _ ended => ended.1)
  | after fault network target cursor limit =>
    exact wp_final (wp_mono (wp_after covering_kept covered fault network target cursor limit)
      (fun _ _ ended => ended.1) fun _ _ ended => ended.1)
  | persist fault days maxPerBuffer =>
    exact wp_final (persistRetention_cached covering_kept covered fault days maxPerBuffer)
  | install => exact ⟨covered.size, ⟨covered.coherent.networks, covered.coherent.buffers⟩,
      covered.rings⟩
  | prune step => exact step.covered covered

theorem reached_covered {start : Store} (opened : start.Opened)
    (reached : ReflTransGen (RetentionStep chunk) (start, .idle) state) :
    Cached Covering state.1 := by
  induction reached with
  | refl => exact Cached.opened opened
  | tail _ step ih => exact step.covered ih

/-! ### What a page contains -/

theorem ServedBefore.skips_nothing (covered : Cached Covering store) {network target : Bytes}
    (served : ServedBefore store network target buffer cursor limit page)
    (held : row ∈ store.db.rowsOf buffer) (below : row.cursor < cursor)
    (inSpan : page.length < limit ∨ ∃ first ∈ page.head?, first.cursor ≤ row.cursor) :
    ∃ message ∈ page, message.cursor = row.cursor := by
  -- both sources of a page are windows that may serve it
  obtain ⟨complete, hot, covers, lines, serves⟩ : ∃ complete hot,
      Covers Line.cursor complete hot (store.db.linesOf buffer) ∧
      page.map Message.line = pageBelow Line.cursor cursor limit hot ∧
      (complete = true ∨ (pageBelow Line.cursor cursor limit hot).length = limit) := by
    cases served with
    | ring resident answers =>
      have covers := covered.rings buffer _ resident
      exact ⟨_, _, covers, pageBefore_window covers answers⟩
    | table =>
      refine ⟨true, store.db.history buffer, Ring.history_covers store.db buffer, ?_, .inl rfl⟩
      rw [map_reverse, map_line_message, queryBefore_lines]
  have span := covers.pageBelow_span serves (mem_map_of_mem held) below
  rw [← lines, length_map] at span
  obtain ⟨line, onPage, same⟩ := span (by
    refine inSpan.imp_right ?_
    rintro ⟨first, head, order⟩
    exact ⟨first.line, by rw [head?_map, head]; rfl, order⟩)
  obtain ⟨message, member, rfl⟩ := mem_map.mp onPage
  exact ⟨message, member, same⟩

theorem ServedAfter.skips_nothing (covered : Cached Covering store) {network target : Bytes}
    (served : ServedAfter store network target buffer cursor limit page)
    (held : row ∈ store.db.rowsOf buffer) (above : cursor < row.cursor)
    (inSpan : page.length < limit ∨ ∃ last ∈ page.getLast?, row.cursor ≤ last.cursor) :
    ∃ message ∈ page, message.cursor = row.cursor := by
  obtain ⟨complete, hot, covers, lines, serves⟩ : ∃ complete hot,
      Covers Line.cursor complete hot (store.db.linesOf buffer) ∧
      page.map Message.line = pageAbove Line.cursor cursor limit hot ∧
      (complete = true ∨ ∃ oldest ∈ hot.head?, oldest.cursor ≤ cursor) := by
    cases served with
    | ring resident answers =>
      have covers := covered.rings buffer _ resident
      exact ⟨_, _, covers, pageAfter_window covers answers⟩
    | table =>
      refine ⟨true, store.db.history buffer, Ring.history_covers store.db buffer, ?_, .inl rfl⟩
      rw [map_line_message, queryAfter_lines]
  have span : ((pageAbove Line.cursor cursor limit hot).length < limit ∨
      ∃ last ∈ (pageAbove Line.cursor cursor limit hot).getLast?, row.line.cursor ≤ last.cursor) →
      ∃ line ∈ pageAbove Line.cursor cursor limit hot, line.cursor = row.line.cursor :=
    covers.pageAbove_span serves (mem_map_of_mem held) above
  rw [← lines, length_map] at span
  obtain ⟨line, onPage, same⟩ := span (by
    refine inSpan.imp_right ?_
    rintro ⟨last, final, order⟩
    exact ⟨last.line, by rw [getLast?_map, final]; rfl, order⟩)
  obtain ⟨message, member, rfl⟩ := mem_map.mp onPage
  exact ⟨message, member, same⟩

/-- In every state that appends leaving no gap, reads, policy changes and prunes reach, a page of
`Before` or `After` has an entry at the cursor of every row between the cursor asked for and its far
end. When the ring holds no deleted row, it is the page of the table. -/
theorem retention_skips_nothing {chunk : Nat} {start store : Store} {pruner : Pruner}
    (opened : start.Opened)
    (reached : ReflTransGen (RetentionStep chunk) (start, .idle) (store, pruner)) {fault : Fault}
    {network target : Bytes} {cursor : Cursor} {limit : Int} {page : List Message} {next : Store}
    {buffer : Nat} (located : store.db.locate network target = some buffer) :
    (exec (before fault network target cursor limit) store = (.ok page, next) →
      (∀ row ∈ store.db.rowsOf buffer, row.cursor < cursor →
        (page.length < clampLimit limit ∨ ∃ first ∈ page.head?, first.cursor ≤ row.cursor) →
          ∃ message ∈ page, message.cursor = row.cursor) ∧
      ((∀ ring, next.rings.lookup buffer = some ring → ring.Current (store.db.linesOf buffer)) →
        page.map Message.line = store.db.pageBefore network target cursor (clampLimit limit))) ∧
    (exec (after fault network target cursor limit) store = (.ok page, next) →
      (∀ row ∈ store.db.rowsOf buffer, cursor < row.cursor →
        (page.length < clampLimit limit ∨ ∃ last ∈ page.getLast?, row.cursor ≤ last.cursor) →
          ∃ message ∈ page, message.cursor = row.cursor) ∧
      ((∀ ring, next.rings.lookup buffer = some ring → ring.Current (store.db.linesOf buffer)) →
        page.map Message.line = store.db.pageAfter network target cursor (clampLimit limit))) := by
  have covered := reached_covered opened reached
  constructor
  · intro ended
    obtain ⟨nextCovered, db, -, served⟩ := ((wp_iff _ _ _ _).mp
      (wp_before covering_kept covered fault network target cursor limit)).1 page next ended
    have served := served buffer located
    rw [← db] at located ⊢
    exact ⟨fun row held below inSpan => served.skips_nothing nextCovered held below inSpan,
      fun current => served.lines (clampLimit_pos limit) located fun ring resident =>
        ⟨nextCovered.rings buffer ring resident, current ring resident⟩⟩
  · intro ended
    obtain ⟨nextCovered, db, -, served⟩ := ((wp_iff _ _ _ _).mp
      (wp_after covering_kept covered fault network target cursor limit)).1 page next ended
    have served := served buffer located
    rw [← db] at located ⊢
    exact ⟨fun row held above inSpan => served.skips_nothing nextCovered held above inSpan,
      fun current => served.lines located fun ring resident =>
        ⟨nextCovered.rings buffer ring resident, current ring resident⟩⟩

/-! ### Redaction and adoption -/

/-! ### Between the delete and the reconciliation -/

instance (ring : Ring) : Decidable ring.Emptied := inferInstanceAs (Decidable (_ ∧ _))

theorem noGap_of_none_emptied (none : ∀ entry ∈ store.rings.entries, ¬ entry.2.Emptied)
    (next : Store) (stored : Message) : NoGap store next stored :=
  fun _ _ _ resident emptied => absurd emptied (none _ (Dict.mem_of_lookup resident))

def dayPolicy : Store := (fresh 10 (16 * 2 ^ 20)).installRetention ⟨1, 0⟩

def say (time : Int) (text : Bytes) : Action (Message × Bool) :=
  append noFault noFault 0 (lit "libera") (lit "#go")
    { time := time, sender := lit "ann", command := lit "PRIVMSG", raw := text, text := text }
    { create := true, unarchive := true }

def oldAndNew : Store :=
  final (say (2 * 24 * 3600 * 10 ^ 9) (lit "new")) (final (say (10 ^ 6) (lit "old")) dayPolicy)

def halfPruned : Store :=
  { oldAndNew with db := ⟨oldAndNew.db.deleteMessages [1], by decide +kernel⟩ }

theorem oldAndNew_picks : Picks pruneChunk
    (oldAndNew.db.olderThan (ageCutoff (2 * 24 * 3600 * 10 ^ 9) 1)) [1] :=
  ⟨by decide, by decide +kernel, by decide +kernel⟩

theorem halfPruned_reached : ReflTransGen (RetentionStep pruneChunk)
    (fresh 10 (16 * 2 ^ 20), .idle)
    (halfPruned, .reconciling (ageCutoff (2 * 24 * 3600 * 10 ^ 9) 1) 0) := by
  have valid : validateRetention 1 0 = .ok ⟨1, 0⟩ := rfl
  have installed : RetentionStep pruneChunk (fresh 10 (16 * 2 ^ 20), .idle) (dayPolicy, .idle) :=
    .install valid
  have first : RetentionStep pruneChunk (dayPolicy, .idle)
      (final (say (10 ^ 6) (lit "old")) dayPolicy, .idle) :=
    .append noFault noFault 0 _ _ _ _ fun stored _ next _ _ =>
      noGap_of_none_emptied (by decide +kernel) next stored
  have second : RetentionStep pruneChunk
      (final (say (10 ^ 6) (lit "old")) dayPolicy, .idle) (oldAndNew, .idle) :=
    .append noFault noFault 0 _ _ _ _ fun stored _ next _ _ =>
      noGap_of_none_emptied (by decide +kernel) next stored
  have started : RetentionStep pruneChunk (oldAndNew, .idle)
      (oldAndNew, .byAge (2 * 24 * 3600 * 10 ^ 9) 1 0 0) :=
    .prune (.start oldAndNew (2 * 24 * 3600 * 10 ^ 9))
  have deleted : RetentionStep pruneChunk (oldAndNew, .byAge (2 * 24 * 3600 * 10 ^ 9) 1 0 0)
      (halfPruned, .reconciling (ageCutoff (2 * 24 * 3600 * 10 ^ 9) 1) 0) :=
    .prune (.age (.last (by decide +kernel) oldAndNew_picks rfl (by decide)))
  exact ((((ReflTransGen.refl.tail installed).tail first).tail second).tail started).tail deleted

/-- The half-pruned ring still skips nothing: the page from the start has the new row. -/
theorem retention_skips_nothing_halfPruned :
    ∃ page next, exec (after noFault (lit "libera") (lit "#go") ⟨0, 0⟩ 10) halfPruned =
          (.ok page, next) ∧
        ∃ message ∈ page, message.cursor = ⟨2 * 24 * 3600 * 1000, 2⟩ := by
  have reached := halfPruned_reached
  have located : halfPruned.db.locate (lit "libera") (lit "#go") = some 1 := by decide +kernel
  have shown : (exec (after noFault (lit "libera") (lit "#go") ⟨0, 0⟩ 10) halfPruned).1.map
      length = .ok 2 := by
    decide +kernel
  obtain ⟨row, held, place⟩ : ∃ row ∈ halfPruned.db.rowsOf 1,
      row.cursor = ⟨2 * 24 * 3600 * 1000, 2⟩ := by decide +kernel
  rcases ended : exec (after noFault (lit "libera") (lit "#go") ⟨0, 0⟩ 10) halfPruned with
    ⟨reason | page, next⟩
  · rw [ended] at shown
    cases shown
  · rw [ended] at shown
    have short : page.length < clampLimit 10 := by
      rw [Except.ok.inj shown]
      decide
    refine ⟨page, next, rfl, ?_⟩
    rw [← place]
    exact ((retention_skips_nothing (fresh_opened (by decide) _) reached located).2 ended).1 row
      held (by rw [place]; decide) (.inl short)

/-- A page of one entry from the half-pruned ring is the deleted row, where the table has the
new one. -/
theorem halfPruned_displaces :
    ∃ pruner page next,
      ReflTransGen (RetentionStep pruneChunk) (fresh 10 (16 * 2 ^ 20), .idle)
        (halfPruned, pruner) ∧
      exec (after noFault (lit "libera") (lit "#go") ⟨0, 0⟩ 1) halfPruned =
        (.ok page, next) ∧
      page.map (fun message => message.id) = [1] ∧
      (halfPruned.db.pageAfter (lit "libera") (lit "#go") ⟨0, 0⟩ 1).map (fun line => line.id) =
        [2] := by
  have shown : (exec (after noFault (lit "libera") (lit "#go") ⟨0, 0⟩ 1) halfPruned).1.map
      (fun page => page.map fun message => message.id) = .ok [1] := by
    decide +kernel
  rcases ended : exec (after noFault (lit "libera") (lit "#go") ⟨0, 0⟩ 1) halfPruned with
    ⟨reason | page, next⟩
  · rw [ended] at shown
    cases shown
  · rw [ended] at shown
    exact ⟨_, page, next, halfPruned_reached, rfl, Except.ok.inj shown, by decide +kernel⟩

end Ircthing.Store
