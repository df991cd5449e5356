/-
This file proves which rings are in memory and in what condition.
-/

import Ircthing.Store.Turns

namespace Ircthing.Store

open Library Effect List AList Dict Tables Message

variable {id buffer keep other limit : Nat} {ring : Ring} {network target : Bytes}
  {store next : Store} {property : Tables → Nat → Ring → Prop} {create : Bool}
  {operation : Ring → Ring × Int} {found : Option Nat} {page : List Message} {message : Message}
  {cursor : Cursor} {db : Database}

/-! ### What ring maintenance leaves alone -/

structure OnlyRings (store next : Store) : Prop where
  db : next.db = store.db
  ringSize : next.ringSize = store.ringSize
  maxRingBytes : next.maxRingBytes = store.maxRingBytes
  retention : next.retention = store.retention
  networks : next.networks = store.networks
  buffers : next.buffers = store.buffers

namespace OnlyRings

theorem refl (store : Store) : OnlyRings store store := ⟨rfl, rfl, rfl, rfl, rfl, rfl⟩

theorem trans {first second third : Store} (one : OnlyRings first second)
    (two : OnlyRings second third) : OnlyRings first third :=
  ⟨two.db.trans one.db, two.ringSize.trans one.ringSize,
    two.maxRingBytes.trans one.maxRingBytes, two.retention.trans one.retention,
    two.networks.trans one.networks, two.buffers.trans one.buffers⟩

theorem coherent (only : OnlyRings store next) (coherent : store.Coherent) : next.Coherent where
  networks found := by
    rw [only.db]
    exact coherent.networks (only.networks ▸ found)
  buffers found := by
    rw [only.db]
    exact coherent.buffers (only.buffers ▸ found)

end OnlyRings

variable (store)

/-- The store as `Open` leaves it, over any database. -/
structure Opened : Prop where
  size : 0 < store.ringSize
  networks : store.networks = ∅
  buffers : store.buffers = ∅
  rings : store.rings = ∅

theorem fresh_opened {ringSize : Nat} (positive : 0 < ringSize) (maxRingBytes : Nat) :
    (fresh ringSize maxRingBytes).Opened :=
  ⟨positive, rfl, rfl, rfl⟩

theorem updateRing_only (id : Nat) (operation : Ring → Ring × Int) :
    OnlyRings store (store.updateRing id operation) := by
  unfold updateRing
  split
  · exact ⟨rfl, rfl, rfl, rfl, rfl, rfl⟩
  · exact OnlyRings.refl store

theorem touchRing_only (id : Nat) : OnlyRings store (store.touchRing id) := by
  unfold touchRing
  split
  · exact ⟨rfl, rfl, rfl, rfl, rfl, rfl⟩
  · exact OnlyRings.refl store

theorem evictLoop_only (keep fuel : Nat) (store : Store) :
    OnlyRings store (evictLoop keep fuel store) := by
  induction fuel generalizing store with
  | zero => exact OnlyRings.refl store
  | succ _ ih =>
    rw [evictLoop]
    split
    · split
      · exact updateRing_only store keep _
      · refine OnlyRings.trans ?_ (ih _)
        exact ⟨rfl, rfl, rfl, rfl, rfl, rfl⟩
    · exact OnlyRings.refl store

variable {store}

theorem evictRings_only :
    OnlyRings store (store.evictRings keep) :=
  evictLoop_only keep _ store

theorem refreshRing_only (store : Store) (id : Nat) (operation : Ring → Ring × Int) :
    OnlyRings store (store.refreshRing id operation) := by
  unfold refreshRing
  split
  · exact ((updateRing_only store id operation).trans (touchRing_only _ id)).trans evictRings_only
  · exact OnlyRings.refl store

theorem warm_only (store : Store) (network target : Bytes) (id : Nat) :
    OnlyRings store (store.warm network target id) := by
  unfold warm
  refine OnlyRings.trans ?_ ((touchRing_only _ id).trans evictRings_only)
  exact ⟨rfl, rfl, rfl, rfl, rfl, rfl⟩

/-! ### Properties of every resident ring -/

def EachRing (store : Store) (property : Nat → Ring → Prop) : Prop :=
  ∀ id ring, store.rings.lookup id = some ring → property id ring

structure Stable (property : Nat → Ring → Prop) : Prop where
  stamped : ∀ {id : Nat} {ring : Ring} (sequence : Nat),
    property id ring → property id { ring with lastUsed := sequence }
  trimmed : ∀ {id : Nat} {ring : Ring} (limit : Nat),
    property id ring → property id (ring.trimToBytes limit).1

section

variable {property : Nat → Ring → Prop} {store : Store}
variable {id : Nat}

theorem EachRing.insert (rings : next.rings = store.rings.insert id ring)
    (others : ∀ other ring, other ≠ id → store.rings.lookup other = some ring →
      property other ring) (this : property id ring) : next.EachRing property := by
  intro other held found
  rw [rings, lookup_insert_eq] at found
  split at found
  next same =>
    cases found
    rw [same]
    exact this
  next different =>
    exact others other held different found

theorem EachRing.erase (each : store.EachRing property)
    (rings : next.rings = store.rings.erase id) : next.EachRing property := by
  intro other held found
  rw [rings, lookup_erase_eq] at found
  split at found
  · cases found
  · exact each other held found

theorem EachRing.updateRing
    (others : ∀ other ring, other ≠ id → store.rings.lookup other = some ring → property other ring)
    (this : ∀ ring, store.rings.lookup id = some ring → property id (operation ring).1) :
    (store.updateRing id operation).EachRing property := by
  unfold Store.updateRing
  split
  next ring found =>
    exact EachRing.insert rfl others (this ring found)
  next missing =>
    intro other held found
    refine others other held (fun same => ?_) found
    rw [same, missing] at found
    cases found

section

variable (stable : Stable property)
include stable

theorem EachRing.touchRing (each : store.EachRing property)
    (id : Nat) : (store.touchRing id).EachRing property := by
  unfold Store.touchRing
  split
  next ring found =>
    exact EachRing.insert rfl (fun other held _ => each other held)
      (stable.stamped _ (each id ring found))
  · exact each

theorem EachRing.evictRings (each : store.EachRing property)
    (keep : Nat) : (store.evictRings keep).EachRing property := by
  unfold Store.evictRings
  generalize store.rings.entries.length + 1 = fuel
  induction fuel generalizing store with
  | zero => exact each
  | succ _ ih =>
    rw [evictLoop]
    split
    · split
      · exact EachRing.updateRing (fun other held _ => each other held)
          fun ring found => stable.trimmed _ (each keep ring found)
      · exact ih (each.erase rfl)
    · exact each

/-- After a committed write, every ring has the property when the ring of the written buffer gets it
and the others have it already. -/
theorem EachRing.refreshRing
    (others : ∀ other ring, other ≠ id → store.rings.lookup other = some ring → property other ring)
    (this : ∀ ring, store.rings.lookup id = some ring → property id (operation ring).1) :
    (store.refreshRing id operation).EachRing property := by
  unfold Store.refreshRing
  split
  · exact ((EachRing.updateRing others this).touchRing stable id).evictRings stable id
  next missing =>
    intro other held found
    refine others other held (fun same => ?_) found
    rw [same, missing] at found
    cases found

theorem EachRing.warm
    (each : store.EachRing property) (warmed : property id (store.warmedRing network target id)) :
    (store.warm network target id).EachRing property := by
  unfold Store.warm
  refine ((EachRing.insert rfl (fun other held _ => each other held) warmed).touchRing stable
    id).evictRings stable id

end

end

/-! ### The ring in use stays resident -/

theorem touchRing_resident (resident : (store.rings.lookup other).isSome) :
    ((store.touchRing id).rings.lookup other).isSome := by
  unfold touchRing
  split
  · change ((AList.insert id _ store.rings).lookup other).isSome
    rw [lookup_insert_eq]
    split
    · rfl
    · exact resident
  · exact resident

theorem updateRing_resident (resident : (store.rings.lookup other).isSome) :
    ((store.updateRing id operation).rings.lookup other).isSome := by
  unfold updateRing
  split
  · change ((AList.insert id _ store.rings).lookup other).isSome
    rw [lookup_insert_eq]
    split
    · rfl
    · exact resident
  · exact resident

theorem victim_ne (chosen : store.victim keep = some (id, ring)) : id ≠ keep := by
  have scan : ∀ (entries : List (Sigma fun _ : Nat => Ring)) (best : Option (Nat × Ring)),
      (∀ pair, best = some pair → pair.1 ≠ keep) →
      ∀ pair, entries.foldl (olderRing keep) best = some pair → pair.1 ≠ keep := by
    intro entries
    induction entries with
    | nil => exact fun best sofar => sofar
    | cons _ _ ih =>
      intro best sofar
      refine ih _ ?_
      intro pair picked
      unfold olderRing at picked
      split at picked
      · exact sofar pair picked
      next different =>
        split at picked
        · cases picked
          exact different
        · split at picked
          · cases picked
            exact different
          · cases picked
            exact sofar _ rfl
  exact scan _ none (fun pair impossible => by cases impossible) _ chosen

theorem evictRings_resident (resident : (store.rings.lookup keep).isSome) :
    ((store.evictRings keep).rings.lookup keep).isSome := by
  unfold evictRings
  generalize store.rings.entries.length + 1 = fuel
  induction fuel generalizing store with
  | zero => exact resident
  | succ _ ih =>
    rw [evictLoop]
    split
    · split
      · exact updateRing_resident resident
      next id ring chosen =>
        refine ih ?_
        rw [lookup_erase_eq, if_neg (victim_ne chosen).symm]
        exact resident
    · exact resident

theorem warm_resident :
    ((store.warm network target id).rings.lookup id).isSome := by
  unfold warm
  refine evictRings_resident (touchRing_resident ?_)
  rw [lookup_insert]
  rfl

/-! ### Warming -/

theorem warmScan_eq (budget : Nat) (bytes : Nat) (messages : List Message) :
    ∃ count, (warmScan budget bytes messages).1 = messages.take count ∧
      ((warmScan budget bytes messages).2 = false → messages.length ≤ count) ∧
      (messages ≠ [] → 0 < count) := by
  induction messages generalizing bytes with
  | nil => exact ⟨0, rfl, fun _ => le_rfl, fun absurdity => absurd rfl absurdity⟩
  | cons message _ ih =>
    rw [warmScan]
    split
    · exact ⟨1, rfl, nofun, fun _ => Nat.one_pos⟩
    · obtain ⟨count, scanned, unstopped, -⟩ := ih (bytes + msgBytes message)
      refine ⟨count + 1, ?_, fun free => ?_, fun _ => Nat.succ_pos _⟩
      · rw [take_succ_cons, ← scanned]
      · exact Nat.succ_le_succ (unstopped free)

theorem reverse_take_newestFirst (db : Database) (buffer count : Nat) :
    (((newestFirst (db.rowsOf buffer)).take count).map MessageRow.line).reverse =
      (db.history buffer).drop ((db.history buffer).length - count) := by
  have distinct : (db.rowsOf buffer).Nodup := Nodup.of_map _ (rowsOf_ids_nodup db buffer)
  have all : ((newestFirst (db.rowsOf buffer)).map MessageRow.line).reverse =
      db.history buffer := by
    have sorted := oldestFirst_lines db buffer (fun _ => true) (fun _ => true) fun _ => rfl
    rw [filter_true, filter_true] at sorted
    rw [← sorted, ← newestFirst_reverse distinct (rows_keyed db buffer), map_reverse]
  rw [← all, map_take, reverse_take, length_map, length_reverse, length_map]

theorem warmedRing_tracks (positive : 0 < store.ringSize) (network target : Bytes) (id : Nat) :
    (store.warmedRing network target id).Tracks (store.db.linesOf id) := by
  obtain ⟨count, scanned, unstopped, nonempty⟩ := warmScan_eq store.maxRingBytes 0
    (((newestFirst (store.db.rowsOf id)).take store.warmLimit).map (·.message network target))
  have size : (newestFirst (store.db.rowsOf id)).length = (store.db.history id).length := by
    unfold newestFirst Tables.history ordered linesOf
    rw [length_insertionSort, length_insertionSort, length_map]
  have limit : 0 < store.warmLimit := lt_min (Nat.succ_pos _) (Nat.succ_pos _)
  -- the scanned messages, oldest first, show a suffix of the history
  have lines : (store.warmRingScan network target id store.warmLimit).1.reverse.map
      line = (store.db.history id).drop
        ((store.db.history id).length - min count store.warmLimit) := by
    rw [← reverse_take_newestFirst, warmRingScan, scanned, map_reverse, map_take,
      map_line_message, ← map_take, take_take]
  have length : (store.warmRingScan network target id store.warmLimit).1.reverse.length =
      min (min count store.warmLimit) (store.db.history id).length := by
    rw [← length_map line, lines, length_drop]
    omega
  unfold warmedRing
  dsimp only
  split
  next fewer =>
    have everything : (store.db.history id).length ≤ min count store.warmLimit := by
      have all := unstopped fewer.2
      rw [length_map, length_take, size] at all
      omega
    have whole : (store.warmRingScan network target id store.warmLimit).1.reverse.map
        line = store.db.history id := by
      rw [lines, Nat.sub_eq_zero_of_le everything, drop_zero]
    exact Ring.tracks_of_suffix 0 whole (fun _ => whole) (fun _ => rfl) positive
  next notAll =>
    have some_rows : 0 < (store.db.history id).length := by
      by_contra none
      have empty : (newestFirst (store.db.rowsOf id)) = [] :=
        length_eq_zero_iff.mp (by omega)
      refine notAll ⟨by rw [length]; omega, ?_⟩
      rw [warmRingScan, empty, take_nil]
      rfl
    have read : 0 < count := nonempty fun empty => by
      have none := congrArg List.length empty
      rw [length_map, length_take, size, length_nil] at none
      omega
    split
    next longer =>
      refine Ring.tracks_of_suffix ((store.db.history id).length - min count store.warmLimit + 1) ?_
        nofun ?_ positive
      · change ((store.warmRingScan network target id store.warmLimit).1.reverse.drop 1).map
          line = _
        rw [map_drop, lines, drop_drop]
      · intro empty
        have none := congrArg List.length empty
        change ((store.warmRingScan network target id store.warmLimit).1.reverse.drop 1).length =
          0 at none
        rw [length_drop] at none
        omega
    · refine Ring.tracks_of_suffix _ lines nofun ?_ positive
      intro empty
      have none := congrArg List.length empty
      change (store.warmRingScan network target id store.warmLimit).1.reverse.length = 0 at none
      omega

/-! ### Caches that keep a property of their rings -/

structure Cached (property : Tables → Nat → Ring → Prop) (store : Store) : Prop where
  size : 0 < store.ringSize
  coherent : store.Coherent
  rings : store.EachRing (property store.db.toTables)

/-- The property asks nothing of the tables but the messages, survives stamps and trims, and
holds of every ring that tracks its buffer. -/
structure Kept (property : Tables → Nat → Ring → Prop) : Prop where
  stable : ∀ tables, Stable (property tables)
  messages : ∀ {first second : Tables} {id : Nat} {ring : Ring},
    second.messages = first.messages → property first id ring → property second id ring
  tracking : ∀ {db : Database} {id : Nat} {ring : Ring},
    ring.Tracks (db.linesOf id) → property db.toTables id ring

theorem linesOf_eq_nil (missing : id ∉ db.buffers.map (·.id)) : db.linesOf id = [] := by
  refine map_eq_nil_iff.mpr (filter_eq_nil_iff.mpr fun row member => ?_)
  simp only [decide_eq_true_eq]
  intro same
  exact missing (same ▸ db.constraints.messageBuffers row member)

theorem linesOf_congr {first second : Tables} (same : first.messages = second.messages)
    (id : Nat) : first.linesOf id = second.linesOf id := by
  unfold linesOf rowsOf
  rw [same]

namespace Cached

theorem opened (opened : store.Opened) : Cached property store where
  size := opened.size
  coherent := by
    refine ⟨fun cached => ?_, fun cached => ?_⟩
    · rw [opened.networks, lookup_empty] at cached
      cases cached
    · rw [opened.buffers, lookup_empty] at cached
      cases cached
  rings id ring found := by
    rw [opened.rings, lookup_empty] at found
    cases found

variable {property : Tables → Nat → Ring → Prop} {store next : Store}

theorem grown (kept : Kept property) (cached : Cached property store)
    (grown : Grown store next) (coherent : next.Coherent) : Cached property next where
  size := grown.ringSize ▸ cached.size
  coherent := coherent
  rings id ring found := by
    refine kept.messages grown.messages ?_
    rcases grown.rings id with same | ⟨fresh, new⟩
    · exact cached.rings id ring (same ▸ found)
    · rw [new] at found
      cases found
      exact kept.tracking (linesOf_eq_nil fresh ▸ Ring.new_tracks cached.size)

theorem onlyRings (cached : Cached property store) (only : OnlyRings store next)
    (rings : next.EachRing (property store.db.toTables)) : Cached property next where
  size := only.ringSize ▸ cached.size
  coherent := only.coherent cached.coherent
  rings := by
    rw [only.db]
    exact rings

end Cached

/-! ### Resolving a buffer with its ring -/

/-- A ring that holds nothing and does not stand for an empty history: retention emptied it. -/
def Ring.Emptied (ring : Ring) : Prop := ring.msgs = [] ∧ ring.complete = false

structure Resolved (store next : Store) (network target : Bytes) (buffer : Nat) : Prop where
  located : next.db.locate network target = some buffer
  resident : (next.rings.lookup buffer).isSome
  messages : next.db.messages = store.db.messages
  emptied : ∀ ring, next.rings.lookup buffer = some ring → ring.Emptied →
    ∃ earlier, store.rings.lookup buffer = some earlier ∧ earlier.Emptied

theorem touchRing_emptied (found : (store.touchRing id).rings.lookup id = some ring)
    (emptied : ring.Emptied) :
    ∃ earlier, store.rings.lookup id = some earlier ∧ earlier.Emptied := by
  unfold touchRing at found
  split at found
  next earlier resident =>
    rw [lookup_insert] at found
    cases found
    exact ⟨earlier, resident, emptied⟩
  · exact ⟨ring, found, emptied⟩

theorem warm_not_emptied (positive : 0 < store.ringSize)
    (found : (store.warm network target id).rings.lookup id = some ring) : ¬ ring.Emptied := by
  have stable : Stable fun other ring => other = id → ring.Tracks (store.db.linesOf id) :=
    ⟨fun sequence tracks same => (tracks same).stamped sequence,
      fun limit tracks same => (tracks same).trimToBytes limit⟩
  unfold warm at found
  have installed : EachRing { store with
        rings := store.rings.insert id (store.warmedRing network target id)
        ringBytes := store.ringBytes + (store.warmedRing network target id).bytes }
      fun other ring => other = id → ring.Tracks (store.db.linesOf id) :=
    EachRing.insert rfl (fun other _ different _ same => absurd same different)
      fun _ => warmedRing_tracks positive network target id
  have tracks := ((installed.touchRing stable id).evictRings stable id) id ring found rfl
  rintro ⟨empty, incomplete⟩
  rw [tracks.whole empty] at incomplete
  cases incomplete

theorem RingTurn.only (turn : RingTurn network target create store found next) :
    ∃ reached, BufferTurn network target create store reached ∧ OnlyRings reached next ∧
      ∀ id, found = some id → reached.buffers.lookup (network, target) = some id := by
  cases turn with
  | missing turn => exact ⟨next, turn, OnlyRings.refl next, nofun⟩
  | resident turn cached => exact ⟨_, turn, touchRing_only _ _, fun _ same => same ▸ cached⟩
  | warmed turn cached => exact ⟨_, turn, warm_only _ _ _ _, fun _ same => same ▸ cached⟩

theorem BufferTurn.keeps (kept : Kept property) (turn : BufferTurn network target create store next)
    (cached : Cached property store) : Cached property next :=
  cached.grown kept turn.grown (turn.coherent cached.coherent)

theorem RingTurn.keeps (kept : Kept property)
    (turn : RingTurn network target create store found next) (cached : Cached property store) :
    Cached property next := by
  cases turn with
  | missing turn => exact turn.keeps kept cached
  | @resident reached id _ turn =>
    have reachedCached := turn.keeps kept cached
    exact reachedCached.onlyRings (touchRing_only reached id)
      (reachedCached.rings.touchRing (kept.stable _) id)
  | @warmed reached id turn =>
    have reachedCached := turn.keeps kept cached
    exact reachedCached.onlyRings (warm_only reached network target id)
      (reachedCached.rings.warm (kept.stable _)
        (kept.tracking (warmedRing_tracks reachedCached.size network target id)))

theorem RingTurn.resolved
    (turn : RingTurn network target create store (some id) next) (coherent : store.Coherent)
    (size : 0 < store.ringSize) : Resolved store next network target id := by
  obtain ⟨reached, opened, only, found⟩ := turn.only
  have located : next.db.locate network target = some id := by
    rw [only.db]
    exact (opened.coherent coherent).buffers (found id rfl)
  have messages : next.db.messages = store.db.messages := by
    rw [only.db]
    exact opened.grown.messages
  cases turn with
  | resident turn _ held =>
    refine ⟨located, touchRing_resident (by rw [held]; rfl), messages, fun ring found emptied => ?_⟩
    obtain ⟨earlier, before, empty⟩ := touchRing_emptied found emptied
    rcases turn.grown.rings id with same | ⟨-, new⟩
    · exact ⟨earlier, same ▸ before, empty⟩
    · rw [new] at before
      cases before
      cases empty.2
  | @warmed reached _ turn =>
    exact ⟨located, warm_resident, messages, fun ring found emptied =>
      absurd emptied (warm_not_emptied (turn.grown.ringSize ▸ size) found)⟩

theorem bufferAndRing_spec (kept : Kept property) (cached : Cached property store) {fault : Fault} :
    wp (bufferAndRing fault network target false) (fun found next => Cached property next ∧
        (∀ id, found = some id → Resolved store next network target id) ∧
        next.db = store.db ∧ found = store.db.locate network target)
      (fun _ next => Cached property next ∧
        next.db = store.db ∧ ∃ statement, fault statement = true) store := by
  refine wp_mono bufferAndRing_turn ?_ ?_
  · rintro found next ⟨turn, nowhere⟩
    have nextCached := turn.keeps kept cached
    have resolved : ∀ id, found = some id → Resolved store next network target id := by
      rintro id rfl
      exact turn.resolved cached.coherent cached.size
    obtain ⟨_, opened, only, -⟩ := turn.only
    have db := only.db.trans opened.reads.1
    refine ⟨nextCached, resolved, db, ?_⟩
    rw [← db]
    cases found with
    | none => exact ((nowhere rfl rfl).locate nextCached.coherent).symm
    | some id => exact (resolved id rfl).located.symm
  · rintro reason next ⟨turn, fails⟩
    exact ⟨turn.keeps kept cached, turn.reads.1, fails rfl⟩

/-! ### Reading -/

/-- Where a page of `Before` came from: a ring that may answer, or the table. -/
inductive ServedBefore (store : Store) (network target : Bytes) (buffer : Nat)
    (cursor : Cursor) (limit : Nat) : List Message → Prop
  | ring {ring : Ring} (resident : store.rings.lookup buffer = some ring)
      (answers : (ring.pageBefore cursor limit).2 = true) :
      ServedBefore store network target buffer cursor limit (ring.pageBefore cursor limit).1
  | table :
      ServedBefore store network target buffer cursor limit
        ((store.db.queryBefore buffer cursor limit).map (·.message network target)).reverse

/-- Where a page of `After` came from: a ring that may answer, or the table. -/
inductive ServedAfter (store : Store) (network target : Bytes) (buffer : Nat)
    (cursor : Cursor) (limit : Nat) : List Message → Prop
  | ring {ring : Ring} (resident : store.rings.lookup buffer = some ring)
      (answers : (ring.pageAfter cursor limit).2 = true) :
      ServedAfter store network target buffer cursor limit (ring.pageAfter cursor limit).1
  | table :
      ServedAfter store network target buffer cursor limit
        ((store.db.queryAfter buffer cursor limit).map (·.message network target))

theorem ServedBefore.lines (served : ServedBefore store network target buffer cursor limit page)
    (positive : 0 < limit) (located : store.db.locate network target = some buffer)
    (fits : ∀ ring, store.rings.lookup buffer = some ring →
      ring.CoversLines (store.db.linesOf buffer) ∧ ring.Current (store.db.linesOf buffer)) :
    page.map line = store.db.pageBefore network target cursor limit := by
  rw [pageBefore_of_located located]
  cases served with
  | ring resident answers =>
    exact pageBefore_lines (fits _ resident).1 (fits _ resident).2 positive answers
  | table => rw [map_reverse, map_line_message, queryBefore_lines]

theorem ServedAfter.lines (served : ServedAfter store network target buffer cursor limit page)
    (located : store.db.locate network target = some buffer)
    (fits : ∀ ring, store.rings.lookup buffer = some ring →
      ring.CoversLines (store.db.linesOf buffer) ∧ ring.Current (store.db.linesOf buffer)) :
    page.map line = store.db.pageAfter network target cursor limit := by
  rw [pageAfter_of_located located]
  cases served with
  | ring resident answers => exact pageAfter_lines (fits _ resident).1 (fits _ resident).2 answers
  | table => rw [map_line_message, queryAfter_lines]

theorem wp_before (kept : Kept property) (cached : Cached property store) (fault : Fault)
    (network target : Bytes) (cursor : Cursor) (limit : Int) :
    wp (before fault network target cursor limit)
      (fun page next => Cached property next ∧ next.db = store.db ∧
        (store.db.locate network target = none → page = []) ∧
        ∀ buffer, store.db.locate network target = some buffer →
          ServedBefore next network target buffer cursor (clampLimit limit) page)
      (fun _ next => Cached property next ∧ next.db = store.db ∧
        ∃ statement, fault statement = true) store := by
  unfold before
  refine wp_seq (bufferAndRing_spec kept cached) ?_ ?_
  · rintro found reached ⟨reachedCached, resolves, db, agrees⟩
    rw [← agrees]
    cases found with
    | none =>
      exact ⟨reachedCached, db, fun _ => rfl, nofun⟩
    | some buffer =>
      rw [wp_bind, wp_get]
      obtain ⟨ring, resident⟩ := Option.isSome_iff_exists.mp (resolves buffer rfl).resident
      rw [resident]
      dsimp only
      split
      next answers =>
        refine ⟨reachedCached, db, nofun, fun _ same => ?_⟩
        cases same
        exact .ring resident answers
      · refine wp_attempt_bind (fun fails => ⟨reachedCached, db, _, fails⟩) ?_
        refine ⟨reachedCached, db, nofun, fun _ same => ?_⟩
        cases same
        exact .table
  · exact fun _ _ failed => failed

theorem wp_after (kept : Kept property) (cached : Cached property store) (fault : Fault)
    (network target : Bytes) (cursor : Cursor) (limit : Int) :
    wp (after fault network target cursor limit)
      (fun page next => Cached property next ∧ next.db = store.db ∧
        (store.db.locate network target = none → page = []) ∧
        ∀ buffer, store.db.locate network target = some buffer →
          ServedAfter next network target buffer cursor (clampLimit limit) page)
      (fun _ next => Cached property next ∧ next.db = store.db ∧
        ∃ statement, fault statement = true) store := by
  unfold after
  refine wp_seq (bufferAndRing_spec kept cached) ?_ ?_
  · rintro found reached ⟨reachedCached, resolves, db, agrees⟩
    rw [← agrees]
    cases found with
    | none =>
      exact ⟨reachedCached, db, fun _ => rfl, nofun⟩
    | some buffer =>
      rw [wp_bind, wp_get]
      obtain ⟨ring, resident⟩ := Option.isSome_iff_exists.mp (resolves buffer rfl).resident
      rw [resident]
      dsimp only
      split
      next answers =>
        refine ⟨reachedCached, db, nofun, fun _ same => ?_⟩
        cases same
        exact .ring resident answers
      · refine wp_attempt_bind (fun fails => ⟨reachedCached, db, _, fails⟩) ?_
        refine ⟨reachedCached, db, nofun, fun _ same => ?_⟩
        cases same
        exact .table
  · exact fun _ _ => id

/-! ### Appending -/

theorem wp_append (kept : Kept property)
    (cached : Cached property store) {fault vetoFault : Fault} {now : Int}
    {opts : AppendOpts} {post : Message × Bool → Store → Prop} {failed : StoreError → Store → Prop}
    (unstored : ∀ next, Cached property next → post ({}, false) next)
    (failure : ∀ reason next, Cached property next → failed reason next)
    (stored : ∀ (reached : Store) (resolved : Bytes) (buffer : Nat) (db : Database)
      (archived : Bool), Cached property reached →
      Resolved store reached network resolved buffer →
      Appended reached.db.toTables buffer (message.filed now network resolved) db.toTables →
      post (reached.db.stored (message.filed now network resolved), archived)
        ({ reached with db := db }.refreshRing buffer fun ring =>
          ring.insert (reached.db.stored (message.filed now network resolved)))) :
    wp (append fault vetoFault now network target message opts) post failed store := by
  refine wp_mono (append_turn rfl) ?_ ?_
  · intro value next turn
    cases turn with
    | unstored empty looked opened =>
      rw [empty value rfl]
      exact unstored next (opened.keeps kept (looked.keeps kept cached))
    | stored looked opened committed =>
      have asked := looked.keeps kept cached
      obtain ⟨located, resident, messages, emptied⟩ := opened.resolved asked.coherent asked.size
      exact stored _ _ _ _ _ (opened.keeps kept asked)
        ⟨located, resident, messages.trans looked.grown.messages, looked.reads.2 ▸ emptied⟩
        committed.appended
  · intro reason next turn
    cases turn with
    | unstored _ looked opened =>
      exact failure reason next (opened.keeps kept (looked.keeps kept cached))

theorem Cached.inserted (kept : Kept property) {reached : Store} (cached : Cached property reached)
    (appended : Appended reached.db.toTables buffer message db.toTables)
    (others : ∀ other ring, other ≠ buffer → reached.rings.lookup other = some ring →
      property db.toTables other ring)
    (own : ∀ ring, reached.rings.lookup buffer = some ring →
      property db.toTables buffer (ring.insert (reached.db.stored message)).1) :
    Cached property ({ reached with db := db }.refreshRing buffer fun ring =>
      ring.insert (reached.db.stored message)) := by
  have only := refreshRing_only { reached with db := db } buffer fun ring =>
    ring.insert (reached.db.stored message)
  refine ⟨by rw [only.ringSize]; exact cached.size,
    only.coherent (cached.coherent.appended appended), ?_⟩
  rw [only.db]
  exact EachRing.refreshRing (kept.stable _) others own

end Ircthing.Store
