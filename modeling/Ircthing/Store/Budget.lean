/-
This file proves what the store's accounting of its rings keeps true over every run. SQLite gives
out the id of a deleted last row again, so both can fail where a ring outlives the rows it was read
from.
-/

import Ircthing.Store.Reconciled
import Ircthing.Store.Transparency

namespace Ircthing.Store

open Library Effect List Option AList Dict Tables Relation Function

variable {store next : Store} {id keep chunk : Nat} {create : Bool} {network target name : Bytes}
  {test : Message → Bool} {rewrite : Message → Message} {message : Message} {ring : Ring}
  {operation : Ring → Ring × Int} {fault : Fault} {cursor : Cursor} {messages : List Message}

/-! ### Bytes of messages -/

theorem totalBytes_cons (message : Message) (messages : List Message) :
    totalBytes (message :: messages) = msgBytes message + totalBytes messages := rfl

theorem totalBytes_append (first second : List Message) :
    totalBytes (first ++ second) = totalBytes first + totalBytes second := by
  unfold totalBytes
  rw [map_append, sum_append]

theorem totalBytes_nonneg (messages : List Message) : 0 ≤ totalBytes messages := by
  refine sum_nonneg fun bytes member => ?_
  obtain ⟨_, -, rfl⟩ := mem_map.mp member
  exact Int.natCast_nonneg _

theorem totalBytes_drop (messages : List Message) (count : Nat) :
    totalBytes (messages.drop count) = totalBytes messages - totalBytes (messages.take count) := by
  have whole := totalBytes_append (messages.take count) (messages.drop count)
  rw [take_append_drop] at whole
  omega

theorem totalBytes_place (message : Message) (messages : List Message) :
    totalBytes (place Message.cursor message messages) =
      totalBytes messages + msgBytes message := by
  unfold place
  rw [totalBytes_append, totalBytes_cons, totalBytes_drop]
  omega

theorem totalBytes_updateFirst (found : messages.find? test = some message) :
    totalBytes (updateFirst test rewrite messages) =
      totalBytes messages + (msgBytes (rewrite message) - msgBytes message) := by
  induction messages with
  | nil => cases found
  | cons _ _ ih =>
    rw [updateFirst, totalBytes_cons]
    rw [find?_cons] at found
    split at found
    next passes =>
      cases found
      rw [if_pos passes, totalBytes_cons]
      omega
    next fails =>
      rw [if_neg (by rw [fails]; exact Bool.false_ne_true), totalBytes_cons, ih found]
      omega

/-! ### The shape of a ring -/

structure Ring.Shaped (size : Nat) (ring : Ring) : Prop where
  max : ring.max = size
  bytes : ring.bytes = totalBytes ring.msgs
  strict : StrictlyAscending Message.cursor ring.msgs
  room : ring.msgs.length ≤ size

def Ring.Avoids (cursor : Cursor) (ring : Ring) : Prop :=
  ∀ message ∈ ring.msgs, message.cursor ≠ cursor

/-- What an operation on a ring must do to be accounted for: keep the shape, and report the change
of the byte count. -/
structure Accounts (size : Nat) (ring : Ring) (outcome : Ring × Int) : Prop where
  shaped : outcome.1.Shaped size
  delta : outcome.2 = outcome.1.bytes - ring.bytes

namespace Ring

variable {size : Nat} {ring : Ring}

theorem Shaped.bytes_nonneg (shaped : ring.Shaped size) : 0 ≤ ring.bytes := by
  rw [shaped.bytes]
  exact totalBytes_nonneg _

theorem Shaped.sorted (shaped : ring.Shaped size) : ring.Sorted := shaped.strict.weaken

theorem new_shaped {size : Nat} {complete : Bool} :
    { Ring.new size with complete := complete }.Shaped size :=
  ⟨rfl, rfl, Pairwise.nil, Nat.zero_le _⟩

theorem Shaped.stamped (shaped : ring.Shaped size) (sequence : Nat) :
    { ring with lastUsed := sequence }.Shaped size :=
  ⟨shaped.max, shaped.bytes, shaped.strict, shaped.room⟩

theorem Shaped.of_drop (shaped : ring.Shaped size) {next : Ring} {count : Nat}
    (max : next.max = ring.max) (msgs : next.msgs = ring.msgs.drop count)
    (bytes : next.bytes = totalBytes next.msgs) : next.Shaped size where
  max := max.trans shaped.max
  bytes := bytes
  strict := by
    rw [msgs]
    exact shaped.strict.drop count
  room := by
    rw [msgs, length_drop]
    exact (Nat.sub_le _ _).trans shaped.room

theorem trimCount_spec {limit : Nat} :
    (trimCount limit (totalBytes messages) messages).2 =
        totalBytes (messages.drop (trimCount limit (totalBytes messages) messages).1) ∧
      ((trimCount limit (totalBytes messages) messages).2 ≤ limit ∨
        (messages.drop (trimCount limit (totalBytes messages) messages).1).length ≤ 1) := by
  induction messages with
  | nil => exact ⟨rfl, .inr (Nat.zero_le _)⟩
  | cons head rest ih =>
    cases rest with
    | nil => exact ⟨rfl, .inr le_rfl⟩
    | cons next rest =>
      have left : totalBytes (head :: next :: rest) - msgBytes head =
          totalBytes (next :: rest) := by
        rw [totalBytes_cons head]
        omega
      rw [trimCount]
      split
      · dsimp only
        rw [left]
        exact ih
      next within =>
        exact ⟨rfl, .inl (not_lt.mp within)⟩

section

variable (shaped : ring.Shaped size)
include shaped

theorem Shaped.trimToBytes (limit : Nat) :
    Accounts size ring (ring.trimToBytes limit) ∧ ((ring.trimToBytes limit).1.bytes ≤ limit ∨
        (ring.trimToBytes limit).1.msgs.length ≤ 1) := by
  obtain ⟨counted, stops⟩ := trimCount_spec
  rw [← shaped.bytes] at counted stops
  unfold Ring.trimToBytes
  dsimp only
  split
  · exact ⟨⟨shaped.of_drop rfl rfl counted, rfl⟩, stops⟩
  next none =>
    rw [Nat.eq_zero_of_not_pos none] at counted stops
    exact ⟨⟨shaped.of_drop rfl drop_zero.symm counted, rfl⟩, stops⟩

theorem Shaped.insert
    (fresh : ring.Avoids message.cursor) : Accounts size ring (ring.insert message) := by
  have delta : (ring.insert message).2 = (ring.insert message).1.bytes - ring.bytes := by
    unfold Ring.insert
    dsimp only
    split
    · exact (Int.sub_self _).symm
    · split <;> rfl
  refine ⟨?_, delta⟩
  have length := length_place Message.cursor message ring.msgs
  have bytes := totalBytes_place message ring.msgs
  have strict := shaped.strict.place fresh
  rw [insert_eq shaped.sorted]
  split
  · exact shaped
  dsimp only
  split
  · refine ⟨shaped.max, ?_, strict.drop 1, ?_⟩
    · -- the first message goes with its bytes
      rw [totalBytes_drop, bytes, shaped.bytes]
      cases place Message.cursor message ring.msgs with
      | nil => rfl
      | cons => simp [totalBytes]
    · show ((place Message.cursor message ring.msgs).drop 1).length ≤ size
      rw [length_drop, length]
      have room := shaped.room
      omega
  next fits =>
    refine ⟨shaped.max, ?_, strict, ?_⟩
    · show _ = totalBytes (place Message.cursor message ring.msgs)
      rw [bytes, shaped.bytes]
    · show (place Message.cursor message ring.msgs).length ≤ size
      rw [← shaped.max]
      exact not_lt.mp fits

theorem Shaped.updateFirst {delta : Int}
    (keeps : ∀ message, (rewrite message).cursor = message.cursor)
    (found : ring.msgs.find? test = some message)
    (differs : delta = msgBytes (rewrite message) - msgBytes message) :
    Accounts size ring ({ ring with
      msgs := Store.updateFirst test rewrite ring.msgs, bytes := ring.bytes + delta }, delta) := by
  have cursors : (Store.updateFirst test rewrite ring.msgs).map Message.cursor =
      ring.msgs.map Message.cursor := updateFirst_cursors keeps
  refine ⟨⟨shaped.max, ?_, ?_, ?_⟩, ?_⟩
  · show ring.bytes + delta = _
    rw [totalBytes_updateFirst found, shaped.bytes, differs]
  · show Pairwise _ _
    rw [← pairwise_map (f := Message.cursor) (R := (· < ·)), cursors, pairwise_map]
    exact shaped.strict
  · show (Store.updateFirst test rewrite ring.msgs).length ≤ size
    have length := congrArg length cursors
    rw [length_map, length_map] at length
    rw [length]
    exact shaped.room
  · show delta = ring.bytes + delta - ring.bytes
    omega

theorem accounts_same : Accounts size ring (ring, 0) :=
  ⟨shaped, (Int.sub_self _).symm⟩

theorem Shaped.redact (msgid reason : Bytes) : Accounts size ring (ring.redact msgid reason) := by
  unfold Ring.redact
  split
  next message found =>
    refine shaped.updateFirst (fun _ => rfl) found ?_
    unfold msgBytes Message.scrubbed
    push_cast
    simp only [length_nil, Nat.cast_zero]
    omega
  · exact accounts_same shaped

theorem Shaped.adoptMsgID (id : Nat) (msgid : Bytes) :
    Accounts size ring (ring.adoptMsgID id msgid) := by
  unfold Ring.adoptMsgID
  split
  next message found =>
    refine shaped.updateFirst (fun _ => rfl) found ?_
    unfold msgBytes
    push_cast
    omega
  · exact accounts_same shaped

theorem Shaped.applyRetention (cutoff : Int) (maxPerBuffer : Nat) :
    Accounts size ring (ring.applyRetention cutoff maxPerBuffer) := by
  have older : (ring.dropOlder cutoff).Shaped size := by
    unfold dropOlder
    dsimp only
    split
    · split
      · refine shaped.of_drop rfl rfl ?_
        rw [totalBytes_drop, shaped.bytes]
      · exact shaped
    · exact shaped
  refine ⟨?_, rfl⟩
  show ((ring.dropOlder cutoff).dropExcess maxPerBuffer).Shaped size
  unfold dropExcess
  split
  · refine older.of_drop rfl rfl ?_
    rw [totalBytes_drop, older.bytes]
  · exact older

end

end Ring

/-! ### The two counters -/

variable (store)

def residentBytes : Int := store.rings.total fun _ ring => ring.bytes

def residentCount : Int := store.rings.total fun _ ring => ring.msgs.length

structure Counted : Prop where
  size : 0 < store.ringSize
  each : store.EachRing fun _ ring => ring.Shaped store.ringSize
  sum : store.ringBytes = store.residentBytes

structure Balanced : Prop extends Counted store where
  budget : store.ringBytes ≤ store.maxRingBytes ∨ store.residentCount ≤ 1

theorem weightAt_count_nonneg {store : Store} :
    0 ≤ store.rings.weightAt (fun _ ring => (ring.msgs.length : Int)) id := by
  unfold weightAt
  cases store.rings.lookup id with
  | none => exact le_rfl
  | some => exact Int.natCast_nonneg _

structure SameRings (store next : Store) : Prop where
  ringSize : next.ringSize = store.ringSize
  maxRingBytes : next.maxRingBytes = store.maxRingBytes
  rings : next.rings = store.rings
  ringBytes : next.ringBytes = store.ringBytes

variable {store}

theorem Balanced.same (balanced : Balanced store) (same : SameRings store next) :
    Balanced next := by
  refine ⟨⟨?_, ?_, ?_⟩, ?_⟩
  · rw [same.ringSize]
    exact balanced.size
  · intro id ring found
    rw [same.rings] at found
    rw [same.ringSize]
    exact balanced.each id ring found
  · unfold residentBytes
    rw [same.ringBytes, same.rings]
    exact balanced.sum
  · unfold residentCount
    rw [same.ringBytes, same.rings, same.maxRingBytes]
    exact balanced.budget

theorem Counted.insert (counted : Counted store)
    (absent : store.rings.lookup id = none) (shaped : ring.Shaped store.ringSize)
    (ringSize : next.ringSize = store.ringSize) (rings : next.rings = store.rings.insert id ring)
    (ringBytes : next.ringBytes = store.ringBytes + ring.bytes) : Counted next := by
  refine ⟨by rw [ringSize]; exact counted.size, ?_, ?_⟩
  · rw [ringSize]
    exact EachRing.insert rings (fun other held _ => counted.each other held) shaped
  · unfold residentBytes
    rw [ringBytes, rings, total_insert, weightAt, absent, counted.sum]
    exact congrArg (· + ring.bytes) (Int.sub_zero _).symm

theorem Counted.erase (counted : Counted store) (found : store.rings.lookup id = some ring)
    (ringSize : next.ringSize = store.ringSize) (rings : next.rings = store.rings.erase id)
    (ringBytes : next.ringBytes = store.ringBytes - ring.bytes) : Counted next := by
  refine ⟨by rw [ringSize]; exact counted.size, ?_, ?_⟩
  · rw [ringSize]
    exact EachRing.erase counted.each rings
  · unfold residentBytes
    rw [ringBytes, rings, total_erase, weightAt, found, counted.sum]
    rfl

theorem Counted.updateRing (counted : Counted store)
    (accounts : ∀ ring, store.rings.lookup id = some ring →
      Accounts store.ringSize ring (operation ring)) :
    Counted (store.updateRing id operation) := by
  have only := updateRing_only store id operation
  refine ⟨by rw [only.ringSize]; exact counted.size, ?_, ?_⟩
  · rw [only.ringSize]
    exact EachRing.updateRing (fun other ring _ => counted.each other ring)
      fun ring found => (accounts ring found).shaped
  · unfold Store.updateRing
    split
    next ring found =>
      show store.ringBytes + (operation ring).2 = total _ _
      rw [total_insert, weightAt, found, counted.sum, (accounts ring found).delta]
      show store.residentBytes + _ = store.residentBytes - ring.bytes + _
      omega
    · exact counted.sum

theorem touchRing_bytes {store : Store} :
    (store.touchRing id).ringBytes = store.ringBytes ∧
      (store.touchRing id).maxRingBytes = store.maxRingBytes := by
  unfold touchRing
  split <;> exact ⟨rfl, rfl⟩

theorem total_touchRing {weight : Nat → Ring → Int} {store : Store}
    (unstamped : ∀ id ring sequence,
      weight id { ring with lastUsed := sequence } = weight id ring) :
    (store.touchRing id).rings.total weight = store.rings.total weight := by
  unfold touchRing
  split
  next ring found =>
    rw [total_insert, weightAt, found, unstamped]
    exact Int.sub_add_cancel _ _
  · rfl

theorem Counted.touchRing (counted : Counted store) (id : Nat) : Counted (store.touchRing id) := by
  have only := touchRing_only store id
  refine ⟨by rw [only.ringSize]; exact counted.size, ?_, ?_⟩
  · rw [only.ringSize]
    unfold Store.touchRing
    split
    next ring found =>
      exact EachRing.insert rfl (fun other held _ => counted.each other held)
        ((counted.each id ring found).stamped _)
    · exact counted.each
  · rw [touchRing_bytes.1, residentBytes, total_touchRing fun _ _ _ => rfl]
    exact counted.sum

theorem Balanced.touchRing (balanced : Balanced store) (id : Nat) :
    Balanced (store.touchRing id) := by
  refine ⟨balanced.toCounted.touchRing id, ?_⟩
  rw [touchRing_bytes.1, touchRing_bytes.2, residentCount, total_touchRing fun _ _ _ => rfl]
  exact balanced.budget

/-! ### Eviction -/

theorem victim_spec {store : Store} :
    (∀ id ring, store.victim keep = some (id, ring) → store.rings.lookup id = some ring) ∧
      (store.victim keep = none → ∀ entry ∈ store.rings.entries, entry.1 = keep) := by
  have scan : ∀ (entries : List (Sigma fun _ : Nat => Ring)) (best : Option (Nat × Ring)),
      (∀ pair, entries.foldl (olderRing keep) best = some pair →
        best = some pair ∨ ⟨pair.1, pair.2⟩ ∈ entries) ∧
      (entries.foldl (olderRing keep) best = none →
        best = none ∧ ∀ entry ∈ entries, entry.1 = keep) := by
    intro entries
    induction entries with
    | nil => exact fun best => ⟨fun pair picked => .inl picked, fun none => ⟨none, by simp⟩⟩
    | cons entry _ ih =>
      intro best
      obtain ⟨picks, none⟩ := ih (olderRing keep best entry)
      have turn : ∀ pair, olderRing keep best entry = some pair →
          best = some pair ∨ ⟨pair.1, pair.2⟩ = entry := by
        intro pair turned
        unfold olderRing at turned
        split at turned
        · exact .inl turned
        · split at turned
          · cases turned
            exact .inr rfl
          · split at turned
            · cases turned
              exact .inr rfl
            · cases turned
              exact .inl rfl
      refine ⟨fun pair picked => ?_, fun nothing => ?_⟩
      · rcases picks pair picked with here | later
        · refine (turn pair here).imp_right fun same => ?_
          rw [same]
          exact mem_cons_self
        · exact .inr (.tail _ later)
      · obtain ⟨passed, rest_only⟩ := none nothing
        unfold olderRing at passed
        split at passed
        next same =>
          refine ⟨passed, fun other member => ?_⟩
          rcases mem_cons.mp member with rfl | later
          · exact same
          · exact rest_only other later
        · split at passed
          · cases passed
          · split at passed <;> cases passed
  obtain ⟨picks, none⟩ := scan store.rings.entries none
  refine ⟨fun id ring chosen => ?_, fun nothing => (none nothing).2⟩
  rcases picks (id, ring) chosen with impossible | member
  · cases impossible
  · exact lookup_of_mem member

theorem total_of_alone (weight : Nat → Ring → Int)
    (alone : ∀ entry ∈ store.rings.entries, entry.1 = keep) :
    store.rings.total weight = store.rings.weightAt weight keep := by
  have nothing : total weight (store.rings.erase keep) = 0 := by
    have empty : ∀ key, (store.rings.erase keep).lookup key = (∅ : Dict Nat Ring).lookup key := by
      intro key
      rw [lookup_erase_eq, lookup_empty]
      split
      · rfl
      next different =>
        cases found : store.rings.lookup key with
        | none => rfl
        | some => exact absurd (alone _ (mem_of_lookup found)) different
    rw [total_congr empty, total_empty]
  rw [total_erase] at nothing
  omega

theorem updateRing_maxRingBytes (store : Store) (id : Nat) (operation : Ring → Ring × Int) :
    (store.updateRing id operation).maxRingBytes = store.maxRingBytes := by
  unfold updateRing
  split <;> rfl

theorem Counted.trim_alone (counted : Counted store)
    (alone : ∀ entry ∈ store.rings.entries, entry.1 = keep) :
    Balanced (store.updateRing keep fun ring => ring.trimToBytes store.maxRingBytes) := by
  have trims : Counted (store.updateRing keep fun ring => ring.trimToBytes store.maxRingBytes) :=
    counted.updateRing fun ring found =>
      ((counted.each keep ring found).trimToBytes store.maxRingBytes).1
  refine ⟨trims, ?_⟩
  rw [updateRing_maxRingBytes, trims.sum]
  unfold residentBytes residentCount
  unfold Store.updateRing
  split
  next ring found =>
    have weigh : ∀ weight : Nat → Ring → Int,
        total weight (store.rings.insert keep (ring.trimToBytes store.maxRingBytes).1) =
          weight keep (ring.trimToBytes store.maxRingBytes).1 := by
      intro weight
      rw [total_insert, total_of_alone weight alone]
      omega
    rw [weigh, weigh]
    refine ((counted.each keep ring found).trimToBytes store.maxRingBytes).2.imp_right ?_
    exact fun single => Int.ofNat_le.mpr single
  next absent =>
    refine .inr ?_
    rw [total_of_alone _ alone, weightAt, absent]
    exact Int.zero_le_ofNat 1

theorem Counted.evictLoop :
    ∀ {fuel : Nat} {store : Store}, Counted store → store.rings.entries.length < fuel →
      Balanced (Store.evictLoop keep fuel store) := by
  intro fuel
  induction fuel with
  | zero => exact fun _ impossible => absurd impossible (Nat.not_lt_zero _)
  | succ fuel ih =>
    intro store counted enough
    rw [Store.evictLoop]
    split
    · split
      next nothing =>
        exact counted.trim_alone (victim_spec.2 nothing)
      next id ring chosen =>
        have found := victim_spec.1 id ring chosen
        refine ih (counted.erase found rfl rfl rfl) ?_
        have smaller := size_erase store.rings id
        rw [found] at smaller
        show Dict.size (store.rings.erase id) < fuel
        have size : (store.rings.size : Int) = store.rings.entries.length := rfl
        simp only [isSome_some, if_true] at smaller
        omega
    next within =>
      exact ⟨counted, .inl (not_lt.mp within)⟩

theorem Counted.evictRings (counted : Counted store) (keep : Nat) :
    Balanced (store.evictRings keep) :=
  counted.evictLoop (Nat.lt_succ_self _)

theorem Balanced.refreshRing (balanced : Balanced store)
    (accounts : ∀ ring, store.rings.lookup id = some ring →
      Accounts store.ringSize ring (operation ring)) :
    Balanced (store.refreshRing id operation) := by
  unfold Store.refreshRing
  split
  · exact ((balanced.toCounted.updateRing accounts).touchRing id).evictRings id
  · exact balanced

/-! ### Warming and creating -/

theorem warmedRing_shaped (positive : 0 < store.ringSize) :
    (store.warmedRing network target id).Shaped store.ringSize := by
  have strict := (warmedRing_tracks positive network target id).strict
  unfold StrictlyAscending Ring.lines at strict
  rw [pairwise_map] at strict
  have scanned : (store.warmRingScan network target id store.warmLimit).1.reverse.length ≤
      store.warmLimit := by
    obtain ⟨_, some, -⟩ := warmScan_eq store.maxRingBytes 0
      (((newestFirst (store.db.rowsOf id)).take store.warmLimit).map (·.message network target))
    rw [length_reverse, warmRingScan, some, length_take, length_map, length_take]
    omega
  have limit : store.warmLimit ≤ store.ringSize + 1 := min_le_left _ _
  unfold warmedRing at strict ⊢
  dsimp only at strict ⊢
  split at strict
  next fewer =>
    rw [if_pos fewer]
    refine ⟨rfl, rfl, strict, ?_⟩
    show (store.warmRingScan network target id store.warmLimit).1.reverse.length ≤ _
    omega
  next notFewer =>
    rw [if_neg notFewer]
    split at strict
    next longer =>
      rw [if_pos longer]
      refine ⟨rfl, rfl, strict, ?_⟩
      show (drop 1 _).length ≤ _
      rw [length_drop]
      omega
    next fits =>
      rw [if_neg fits]
      exact ⟨rfl, rfl, strict, not_lt.mp fits⟩

theorem Balanced.warm (balanced : Balanced store) (network target : Bytes)
    (absent : store.rings.lookup id = none) : Balanced (store.warm network target id) := by
  have installed : Counted { store with
      rings := store.rings.insert id (store.warmedRing network target id)
      ringBytes := store.ringBytes + (store.warmedRing network target id).bytes } :=
    balanced.toCounted.insert absent (warmedRing_shaped balanced.size) rfl rfl rfl
  exact (installed.touchRing id).evictRings id

theorem Balanced.addRing (balanced : Balanced store) (absent : store.rings.lookup id = none)
    (ringSize : next.ringSize = store.ringSize)
    (maxRingBytes : next.maxRingBytes = store.maxRingBytes)
    (ringBytes : next.ringBytes = store.ringBytes) (rings : next.rings =
      store.rings.insert id { Ring.new store.ringSize with complete := true }) :
    Balanced next := by
  refine ⟨balanced.toCounted.insert absent Ring.new_shaped ringSize rings
    (ringBytes.trans (Int.add_zero _).symm), ?_⟩
  have count : next.residentCount = store.residentCount := by
    unfold residentCount
    rw [rings, total_insert, weightAt, absent]
    exact (Int.add_zero _).trans (Int.sub_zero _)
  rw [count, ringBytes, maxRingBytes]
  exact balanced.budget

structure Resolves (create : Bool) (store next : Store) : Prop where
  ringSize : next.ringSize = store.ringSize
  maxRingBytes : next.maxRingBytes = store.maxRingBytes
  ringBytes : next.ringBytes = store.ringBytes
  messages : next.db.messages = store.db.messages
  rings : (next.rings = store.rings ∧ next.db.buffers = store.db.buffers) ∨
    (create = true ∧ next.rings = store.rings.insert (nextId (store.db.buffers.map (·.id)))
      { Ring.new store.ringSize with complete := true })

theorem NetworkTurn.sameRings (turn : NetworkTurn network create store next) :
    SameRings store next := by
  cases turn <;> exact ⟨rfl, rfl, rfl, rfl⟩

theorem BufferTurn.resolves
    (turn : BufferTurn network target create store next) : Resolves create store next := by
  have messages := turn.grown.messages
  cases turn with
  | resolved turn | cached turn =>
    have same := turn.sameRings
    exact ⟨same.ringSize, same.maxRingBytes, same.ringBytes, messages,
      .inl ⟨same.rings, turn.rows⟩⟩
  | created turn creates =>
    have same := turn.sameRings
    refine ⟨same.ringSize, same.maxRingBytes, same.ringBytes, messages, .inr ⟨creates, ?_⟩⟩
    unfold Store.addRing
    rw [same.rings, same.ringSize, turn.rows]

def Vacant (create : Bool) (store : Store) : Prop :=
  create = true → store.rings.lookup (nextId (store.db.buffers.map (·.id))) = none

theorem Resolves.balanced (resolves : Resolves create store next) (balanced : Balanced store)
    (vacant : Vacant create store) : Balanced next := by
  rcases resolves.rings with ⟨rings, -⟩ | ⟨creates, rings⟩
  · exact balanced.same ⟨resolves.ringSize, resolves.maxRingBytes, rings, resolves.ringBytes⟩
  · exact balanced.addRing (vacant creates) resolves.ringSize resolves.maxRingBytes
      resolves.ringBytes rings

theorem avoids_stable : Stable fun _ ring => ring.Avoids cursor where
  stamped _ avoids := avoids
  trimmed {id ring} limit avoids := by
    obtain ⟨_, msgs, -⟩ := ring.trimToBytes_eq limit
    intro message member
    rw [msgs] at member
    exact avoids message (mem_of_mem_drop member)

theorem Resolves.avoids (resolves : Resolves create store next)
    (avoids : store.EachRing fun _ ring => ring.Avoids cursor) :
    next.EachRing fun _ ring => ring.Avoids cursor := by
  rcases resolves.rings with ⟨rings, -⟩ | ⟨-, rings⟩
  · intro id ring found
    rw [rings] at found
    exact avoids id ring found
  · exact EachRing.insert rings (fun other ring _ => avoids other ring)
      nofun

/-- Bringing a ring into memory keeps the balance, and no ring gets the cursor of the row to come
next. -/
theorem RingTurn.balanced {found : Option Nat}
    (turn : RingTurn network target create store found next) (balanced : Balanced store)
    (vacant : Vacant create store) :
    Balanced next ∧ next.db.messages = store.db.messages ∧ ∀ message : Message,
      (store.EachRing fun _ ring => ring.Avoids (store.db.stored message).cursor) →
        next.EachRing fun _ ring => ring.Avoids (store.db.stored message).cursor := by
  cases turn with
  | missing turn =>
    exact ⟨turn.resolves.balanced balanced vacant, turn.resolves.messages,
      fun _ avoids => turn.resolves.avoids avoids⟩
  | @resident reached id _ turn =>
    refine ⟨(turn.resolves.balanced balanced vacant).touchRing id, ?_, fun message avoids =>
      (turn.resolves.avoids avoids).touchRing avoids_stable id⟩
    rw [(touchRing_only reached id).db]
    exact turn.resolves.messages
  | @warmed reached id turn _ absent =>
    have reachedBalanced := turn.resolves.balanced balanced vacant
    refine ⟨reachedBalanced.warm network target absent, ?_, fun message avoids => ?_⟩
    · rw [(warm_only reached network target id).db]
      exact turn.resolves.messages
    · refine (turn.resolves.avoids avoids).warm avoids_stable fun held member same => ?_
      -- what is read from disk has the id of a row
      have line := (warmedRing_tracks reachedBalanced.size network target id).sound held.line
        (mem_map_of_mem member)
      rw [linesOf_congr turn.resolves.messages] at line
      exact stored_fresh store.db.toTables id message held.line line same

/-! ### Appending, reading, redacting and adopting -/

theorem vacant_false {store : Store} : Vacant false store :=
  fun impossible => absurd impossible Bool.false_ne_true

section

variable (balanced : Balanced store)
include balanced

theorem append_balanced {vetoFault : Fault} {now : Int}
    {opts : AppendOpts}
    (vacant : Vacant opts.create store) (avoids : store.EachRing fun _ ring =>
      ring.Avoids (store.db.stored (message.clamped now)).cursor) :
    Balanced (final (append fault vetoFault now network target message opts) store) := by
  have opens : ∀ {name asked next found}, BufferTurn network name false store asked →
      RingTurn network name opts.create asked found next →
      Balanced next ∧ next.EachRing fun _ ring =>
        ring.Avoids (next.db.stored (message.clamped now)).cursor := by
    intro name asked next found looked opened
    have resolves := looked.resolves
    obtain ⟨rings, buffers⟩ :=
      resolves.rings.resolve_right fun created => Bool.false_ne_true created.1
    obtain ⟨nextBalanced, messages, kept⟩ :=
      opened.balanced (resolves.balanced balanced vacant_false) fun creates => by
        rw [rings, buffers]
        exact vacant creates
    refine ⟨nextBalanced, ?_⟩
    -- the row to come has the same cursor all along
    have same : (next.db.stored (message.clamped now)).cursor =
        (asked.db.stored (message.clamped now)).cursor := by
      unfold stored
      rw [messages]
    have earlier : (asked.db.stored (message.clamped now)).cursor =
        (store.db.stored (message.clamped now)).cursor := by
      unfold stored
      rw [resolves.messages]
    rw [same]
    refine kept (message.clamped now) ?_
    rw [earlier]
    exact resolves.avoids avoids
  refine wp_final (wp_mono (append_turn rfl) ?_ ?_)
  · intro value next turn
    cases turn with
    | unstored _ looked opened => exact (opens looked opened).1
    | @stored _ reached buffer db _ looked opened committed =>
      obtain ⟨reachedBalanced, apart⟩ := opens looked opened
      have written : Balanced { reached with db := db } := reachedBalanced.same ⟨rfl, rfl, rfl, rfl⟩
      exact written.refreshRing fun ring resident =>
        (written.each buffer ring resident).insert (apart buffer ring resident)
  · intro reason next turn
    cases turn with
    | unstored _ looked opened => exact (opens looked opened).1

theorem before_balanced {limit : Int} :
    Balanced (final (before fault network target cursor limit) store) := by
  refine wp_final ?_
  unfold before
  refine wp_seq bufferAndRing_turn ?_
    fun _ _ failed => failed.1.resolves.balanced balanced vacant_false
  rintro found reached ⟨turn, -⟩
  have reachedBalanced := (turn.balanced balanced vacant_false).1
  cases found with
  | none => exact reachedBalanced
  | some =>
    dsimp only
    rw [wp_bind, wp_get]
    split
    · exact reachedBalanced
    · split
      · exact reachedBalanced
      · exact wp_attempt_bind (fun _ => reachedBalanced) reachedBalanced

theorem after_balanced {limit : Int} :
    Balanced (final (after fault network target cursor limit) store) := by
  refine wp_final ?_
  unfold after
  refine wp_seq bufferAndRing_turn ?_
    fun _ _ failed => failed.1.resolves.balanced balanced vacant_false
  rintro found reached ⟨turn, -⟩
  have reachedBalanced := (turn.balanced balanced vacant_false).1
  cases found with
  | none => exact reachedBalanced
  | some =>
    dsimp only
    rw [wp_bind, wp_get]
    split
    · exact reachedBalanced
    · split
      · exact reachedBalanced
      · exact wp_attempt_bind (fun _ => reachedBalanced) reachedBalanced

end

theorem RewriteTurn.balanced {rewrite : Rewrite} {done : Bool}
    (turn : RewriteTurn rewrite network name store done next) (balanced : Balanced store)
    (accounts : ∀ {size : Nat} {ring : Ring} row, ring.Shaped size →
      Accounts size ring (rewrite.ring row ring)) : Balanced next := by
  cases turn with
  | missed turn => exact turn.resolves.balanced balanced vacant_false
  | @hit reached id row db turn =>
    have reachedBalanced := turn.resolves.balanced balanced vacant_false
    have written : Balanced { reached with db := db } := reachedBalanced.same ⟨rfl, rfl, rfl, rfl⟩
    exact written.refreshRing fun ring resident => accounts row (written.each id ring resident)

section

variable (balanced : Balanced store)
include balanced

theorem setRedacted_balanced (fault : Fault) (network target msgid reason : Bytes) :
    Balanced (final (setRedacted fault network target msgid reason) store) := by
  refine wp_final (wp_mono setRedacted_turn ?_
    fun _ _ failed => failed.1.resolves.balanced balanced vacant_false)
  rintro done next (⟨-, rfl⟩ | ⟨-, turn⟩)
  · exact balanced
  · exact turn.balanced balanced fun _ shaped => shaped.redact _ _

theorem adoptOwnMsgID_balanced (fault : Fault) (msg : OwnMsg) (fold : Option (Bytes → Bytes)) :
    Balanced (final (adoptOwnMsgID fault msg fold) store) := by
  refine wp_final (wp_mono adoptOwnMsgID_turn ?_
    fun _ _ failed => failed.1.resolves.balanced balanced vacant_false)
  rintro done next (⟨-, rfl⟩ | turn)
  · exact balanced
  · exact turn.balanced balanced fun row shaped => shaped.adoptMsgID _ _

/-! ### Dropping and reconciling -/

theorem Balanced.dropRing (id : Nat) : Balanced (store.dropRing id) := by
  unfold Store.dropRing
  split
  next ring found =>
    refine ⟨balanced.toCounted.erase found rfl rfl rfl, ?_⟩
    have bytes := (balanced.each id ring found).bytes_nonneg
    have count : residentCount { store with
        ringBytes := store.ringBytes - ring.bytes, rings := store.rings.erase id } ≤
          store.residentCount := by
      show total _ (store.rings.erase id) ≤ _
      rw [total_erase]
      exact Int.sub_le_self _ weightAt_count_nonneg
    refine balanced.budget.imp (fun within => ?_) fun single => count.trans single
    show store.ringBytes - ring.bytes ≤ (store.maxRingBytes : Int)
    omega
  · exact balanced

theorem Balanced.dropNetworkCaches (network : Bytes) :
    Balanced (store.dropNetworkCaches network) := by
  have dropped : ∀ (held : List (Sigma fun _ : Bytes × Bytes => Nat)) (store : Store),
      Balanced store → Balanced (held.foldl (fun store entry => store.dropRing entry.2) store) := by
    intro held
    induction held with
    | nil => exact fun _ => id
    | cons entry _ ih =>
      exact fun _ kept => ih _ (kept.dropRing entry.2)
  exact (dropped _ store balanced).same ⟨rfl, rfl, rfl, rfl⟩

theorem Balanced.dropAllCaches :
    Balanced store.dropAllCaches := by
  refine ⟨⟨balanced.size, fun id ring found => ?_, rfl⟩, .inr (Int.zero_le_ofNat 1)⟩
  change (∅ : Dict Nat Ring).lookup id = some ring at found
  rw [lookup_empty] at found
  cases found

theorem Balanced.reconcileRings (cutoff : Int) (maxPer : Nat) :
    Balanced (store.reconcileRings cutoff maxPer) := by
  unfold Store.reconcileRings
  split
  · exact balanced
  have accounts := fun id ring (found : store.rings.lookup id = some ring) =>
    (balanced.each id ring found).applyRetention cutoff maxPer
  have sum : store.ringBytes + (store.rings.entries.map fun entry =>
      (entry.2.applyRetention cutoff maxPer).2).sum = total (fun _ ring => ring.bytes)
          (store.rings.mapValues fun ring => (ring.applyRetention cutoff maxPer).1) := by
    have delta : (store.rings.entries.map fun entry =>
        (entry.2.applyRetention cutoff maxPer).2).sum =
          total (fun _ ring => (ring.applyRetention cutoff maxPer).2) store.rings := rfl
    rw [total_mapValues, delta, balanced.sum, residentBytes, ← total_add]
    refine total_congr_weight fun id ring found => ?_
    rw [(accounts id ring found).delta]
    omega
  have fewer : ∀ id ring, store.rings.lookup id = some ring →
      (ring.applyRetention cutoff maxPer).1.bytes ≤ ring.bytes ∧
        ((ring.applyRetention cutoff maxPer).1.msgs.length : Int) ≤ ring.msgs.length := by
    intro id ring found
    obtain ⟨count, msgs, -⟩ := ring.applyRetention_eq cutoff maxPer
    rw [(accounts id ring found).shaped.bytes, (balanced.each id ring found).bytes, msgs,
      totalBytes_drop, length_drop]
    have taken := totalBytes_nonneg (ring.msgs.take count)
    omega
  refine ⟨⟨balanced.size, ?_, sum⟩, ?_⟩
  · intro id ring found
    rw [lookup_mapValues, map_eq_some_iff] at found
    obtain ⟨earlier, resident, rfl⟩ := found
    exact (accounts id earlier resident).shaped
  · refine balanced.budget.imp (fun within => ?_) fun single => ?_
    · show store.ringBytes + _ ≤ _
      rw [sum, total_mapValues]
      rw [balanced.sum] at within
      exact (total_mono fun id ring found => (fewer id ring found).1).trans within
    · show total _ (store.rings.mapValues _) ≤ 1
      rw [total_mapValues]
      exact (total_mono fun id ring found => (fewer id ring found).2).trans single

end

/-! ### Prunes, purges and definitions -/

theorem DeleteChunk.balanced {guard : Store → Bool} {matching : Tables → List MessageRow}
    {deleted : Nat} {turn : ChunkEnd}
    (deletes : DeleteChunk chunk guard matching deleted store next turn)
    (balanced : Balanced store) : Balanced next := by
  obtain ⟨_, rfl, -⟩ := deletes.networks_buffers
  exact balanced.same ⟨rfl, rfl, rfl, rfl⟩

theorem PruneStep.balanced {pruner pruner' : Pruner}
    (step : PruneStep chunk store pruner next pruner') (balanced : Balanced store) :
    Balanced next := by
  cases step with
  | age deletes | count deletes => exact deletes.balanced balanced
  | reconcile => exact balanced.reconcileRings _ _
  | start | list | listFailed | checked | stopped | skip | choose | chooseFailed => exact balanced

section

variable (balanced : Balanced store)
include balanced

theorem persistRetention_balanced {days maxPerBuffer : Int} :
    Balanced (final (persistRetention fault days maxPerBuffer) store) := by
  refine wp_final ?_
  unfold persistRetention
  split
  · exact balanced
  rw [wp_bind]
  unfold setSettings
  refine wp_attempt_bind (fun _ => balanced) ?_
  refine wp_attempt_bind (fun _ => balanced) ?_
  rw [wp_bind, wp_get]
  exact wp_execute balanced fun db _ => balanced.same ⟨rfl, rfl, rfl, rfl⟩

theorem archiveBufferFolded_balanced (fault : Fault)
    (network target : Bytes) (fold : Option (Bytes → Bytes)) :
    Balanced (final (archiveBufferFolded fault network target fold) store) := by
  refine wp_final ?_
  unfold archiveBufferFolded
  refine wp_seq (canonicalBufferLocked_spec fault network target fold store) ?_
    fun _ _ same => same ▸ balanced
  rintro canonical _ rfl
  rw [wp_bind, wp_get, wp_bind]
  exact wp_execute balanced fun db _ => balanced.same ⟨rfl, rfl, rfl, rfl⟩

theorem replace_balanced {oldName config : Bytes}
    {settings : List (Bytes × Bytes)} :
    Balanced (final
      (replaceNetworkConfigWithSettings fault oldName name config settings) store) := by
  have written : ∀ db : Database, Balanced { store with db := db } :=
    fun db => balanced.same ⟨rfl, rfl, rfl, rfl⟩
  exact wp_final (wp_replaceNetworkConfigWithSettings (fun _ => balanced)
    (fun db _ => written db) fun db _ => (written db).dropNetworkCaches oldName)

theorem resolveBufferLocked_balanced (fault : Fault)
    (network target : Bytes) (fold : Option (Bytes → Bytes)) :
    Balanced (final (resolveBufferLocked fault network target fold) store) := by
  refine wp_final ?_
  unfold resolveBufferLocked
  refine wp_seq (canonicalBufferLocked_spec fault network target fold store) ?_
    fun _ _ same => same ▸ balanced
  rintro canonical _ rfl
  exact wp_seq bufferID_turn
    (fun _ _ looked => looked.1.resolves.balanced balanced vacant_false)
    fun _ _ failed => failed.1.resolves.balanced balanced vacant_false

end

theorem Act.balanced_of_going {purge purge' : Purge} (act : Act chunk store purge next purge')
    (going : purge ≠ .idle) (balanced : Balanced store) : Balanced next := by
  have written : ∀ db : Database, Balanced { store with db := db } :=
    fun db => balanced.same ⟨rfl, rfl, rfl, rfl⟩
  cases act with
  | bufferChunk deletes | networkChunk deletes | pageChunk deletes =>
    exact deletes.balanced balanced
  | bufferRing _ id => exact balanced.dropRing id
  | networkCaches _ name => exact balanced.dropNetworkCaches name
  | pageCaches => exact balanced.dropAllCaches
  | bufferRow _ _ id =>
    exact wp_final (wp_deleteBufferRow (fun _ => balanced) fun db _ =>
      ((written db).dropRing id).same ⟨rfl, rfl, rfl, rfl⟩)
  | networkRow _ name =>
    exact wp_final (wp_deleteNetworkRow (fun _ => balanced) fun db _ =>
      (written db).dropNetworkCaches name)
  | pageRow =>
    exact wp_final (wp_deletePageRow (fun _ => balanced) fun db _ _ =>
      (written db).dropAllCaches)
  | append | replace | resolveBuffer | resolveNetwork | resolvePage => exact absurd rfl going

/-! ### Every run -/

structure Engine where
  store : Store
  pruner : Pruner
  purges : Nat → Purge

def Engine.opened (store : Store) : Engine := ⟨store, .idle, fun _ => .idle⟩

/-- One critical section of any operation of the store, in any interleaving. A call is made only
where it meets the condition. -/
inductive EngineStep (condition : Store → Call → Prop) (chunk : Nat) : Engine → Engine → Prop
  | call {engine : Engine} (fault : Fault) (call : Call) (meets : condition engine.store call) :
      EngineStep condition chunk engine { engine with store := call.run fault engine.store }
  | archive {engine : Engine} (fault : Fault) (network target : Bytes)
      (fold : Option (Bytes → Bytes)) :
      EngineStep condition chunk engine { engine with
        store := final (archiveBufferFolded fault network target fold) engine.store }
  | persist {engine : Engine} (fault : Fault) (days maxPerBuffer : Int) :
      EngineStep condition chunk engine { engine with
        store := final (persistRetention fault days maxPerBuffer) engine.store }
  | install {engine : Engine} {days maxPerBuffer : Int} {policy : RetentionPolicy}
      (valid : validateRetention days maxPerBuffer = .ok policy) :
      EngineStep condition chunk engine
        { engine with store := engine.store.installRetention policy }
  | prune {engine : Engine} {next : Store} {pruner : Pruner}
      (step : PruneStep chunk engine.store engine.pruner next pruner) :
      EngineStep condition chunk engine { engine with store := next, pruner := pruner }
  | replace {engine : Engine} (fault : Fault) (oldName name config : Bytes)
      (settings : List (Bytes × Bytes)) :
      EngineStep condition chunk engine { engine with
        store := final
          (replaceNetworkConfigWithSettings fault oldName name config settings) engine.store }
  | resolveBuffer {engine : Engine} (t : Nat) (idle : engine.purges t = .idle) (close : Bool)
      (fault : Fault) (network target : Bytes) (fold : Option (Bytes → Bytes)) :
      EngineStep condition chunk engine { engine with
        store := final (resolveBufferLocked fault network target fold) engine.store
        purges := update engine.purges t (.ofBuffer close network
          (exec (resolveBufferLocked fault network target fold) engine.store).1) }
  | resolveNetwork {engine : Engine} (t : Nat) (idle : engine.purges t = .idle)
      (delete : Option (List (Bytes × Bytes))) (fault : Fault) (name : Bytes) :
      EngineStep condition chunk engine { engine with
        store := final (networkID fault name false) engine.store
        purges := update engine.purges t (.ofNetwork delete name
          (exec (networkID fault name false) engine.store).1) }
  | resolvePage {engine : Engine} (t : Nat) (idle : engine.purges t = .idle) (fault : Fault)
      (rowid : Nat) :
      EngineStep condition chunk engine { engine with
        store := final (resolvePage fault rowid) engine.store
        purges := update engine.purges t (.ofPage rowid
          (exec (resolvePage fault rowid) engine.store).1) }
  | purge {engine : Engine} (t : Nat) {next : Store} {purge : Purge}
      (going : engine.purges t ≠ .idle)
      (act : Act chunk engine.store (engine.purges t) next purge) :
      EngineStep condition chunk engine { engine with
        store := next, purges := update engine.purges t purge }

def Call.Fresh (store : Store) : Call → Prop
  | .append _ now _ _ message opts =>
    Vacant opts.create store ∧ store.EachRing fun _ ring =>
      ring.Avoids (store.db.stored (message.clamped now)).cursor
  | _ => True

theorem Call.Fresh.balanced {call : Call} (fresh : call.Fresh store) (balanced : Balanced store)
    (fault : Fault) : Balanced (call.run fault store) := by
  cases call with
  | append =>
    exact append_balanced balanced fresh.1 fresh.2
  | setRedacted network target msgid reason =>
    exact setRedacted_balanced balanced fault network target msgid reason
  | adoptOwnMsgID msg fold => exact adoptOwnMsgID_balanced balanced fault msg fold
  | before =>
    exact before_balanced balanced
  | after =>
    exact after_balanced balanced
  | latest =>
    exact before_balanced balanced

theorem EngineStep.balanced {engine next : Engine}
    (step : EngineStep (fun store call => call.Fresh store) chunk engine next)
    (balanced : Balanced engine.store) : Balanced next.store := by
  cases step with
  | call fault _ meets => exact meets.balanced balanced fault
  | archive fault network target fold =>
    exact archiveBufferFolded_balanced balanced fault network target fold
  | persist =>
    exact persistRetention_balanced balanced
  | install => exact balanced.same ⟨rfl, rfl, rfl, rfl⟩
  | prune step => exact step.balanced balanced
  | replace =>
    exact replace_balanced balanced
  | resolveBuffer _ _ _ fault network target fold =>
    exact resolveBufferLocked_balanced balanced fault network target fold
  | resolveNetwork _ _ _ fault name =>
    exact wp_final (wp_mono (networkID_turn fault name false _)
      (fun _ _ looked => balanced.same looked.1.sameRings) fun _ _ same => same.1 ▸ balanced)
  | resolvePage =>
    refine wp_final ?_
    unfold Store.resolvePage
    split
    · exact balanced
    · exact wp_attempt_bind (fun _ => balanced) balanced
  | purge _ going act => exact act.balanced_of_going going balanced

theorem reached_balanced {start : Store} {engine : Engine} (opened : start.Opened)
    (counter : start.ringBytes = 0)
    (reached : ReflTransGen (EngineStep (fun store call => call.Fresh store) chunk)
      (.opened start) engine) : Balanced engine.store := by
  induction reached with
  | refl =>
    refine ⟨⟨opened.size, fun id ring found => ?_, ?_⟩, .inl ?_⟩
    · change start.rings.lookup id = some ring at found
      rw [opened.rings, lookup_empty] at found
      cases found
    · show start.ringBytes = total _ start.rings
      rw [counter, opened.rings, total_empty]
    · show start.ringBytes ≤ _
      rw [counter]
      exact Int.natCast_nonneg _
  | tail _ step ih => exact step.balanced ih

theorem single_of_residentCount (few : store.residentCount ≤ 1)
    (found : store.rings.lookup id = some ring) (nonempty : ring.msgs ≠ []) :
    ring.msgs.length = 1 ∧
      ∀ other held, other ≠ id → store.rings.lookup other = some held → held.msgs = [] := by
  have nonneg : ∀ other held, (store.rings.erase id).lookup other = some held →
      0 ≤ (held.msgs.length : Int) := fun _ _ _ => Int.natCast_nonneg _
  have rest : total (fun _ ring => (ring.msgs.length : Int)) (store.rings.erase id) =
      store.residentCount - ring.msgs.length := by
    rw [total_erase, weightAt, found]
    rfl
  have left := total_nonneg nonneg
  have positive := length_pos_of_ne_nil nonempty
  refine ⟨by omega, fun other held different resident => ?_⟩
  have within := weightAt_le_total nonneg other
  rw [weightAt, lookup_erase_eq, if_neg different, resident, rest] at within
  change (held.msgs.length : Int) ≤ _ at within
  exact eq_nil_of_length_eq_zero (by omega)

theorem Counted.ringBytes_of_empty (counted : Counted store)
    (empty : ∀ id ring, store.rings.lookup id = some ring → ring.msgs = []) :
    store.ringBytes = 0 := by
  rw [counted.sum, residentBytes, ← total_zero store.rings]
  refine total_congr_weight fun id ring found => ?_
  rw [(counted.each id ring found).bytes, empty id ring found]
  rfl

/-- In every run whose appends find the cursors of their rows and the ids of their buffers free, the
counter of the store is the sum of those of the rings, each of those the sum of its bytes, each ring
is strictly ascending and no longer than the ring size, and the counter is within the budget unless
the only ring with messages holds one. -/
theorem ring_budget_invariant {chunk : Nat} {start : Store} {engine : Engine}
    (opened : start.Opened) (counter : start.ringBytes = 0)
    (reached : ReflTransGen (EngineStep (fun store call => call.Fresh store) chunk)
      (.opened start) engine) :
    (engine.store.ringBytes = engine.store.rings.total fun _ ring => ring.bytes) ∧
      (∀ id ring, engine.store.rings.lookup id = some ring →
        ring.bytes = totalBytes ring.msgs ∧ StrictlyAscending Message.cursor ring.msgs ∧
          ring.msgs.length ≤ engine.store.ringSize) ∧
      (engine.store.ringBytes ≤ engine.store.maxRingBytes ∨
        ∃ id ring, engine.store.rings.lookup id = some ring ∧ ring.msgs.length = 1 ∧
          ∀ other held, other ≠ id → engine.store.rings.lookup other = some held →
            held.msgs = []) := by
  have balanced := reached_balanced opened counter reached
  refine ⟨balanced.sum, fun id ring found => ?_, ?_⟩
  · have shaped := balanced.each id ring found
    exact ⟨shaped.bytes, shaped.strict, shaped.room⟩
  rcases balanced.budget with within | few
  · exact .inl within
  · by_cases holding : ∃ id ring, engine.store.rings.lookup id = some ring ∧ ring.msgs ≠ []
    · obtain ⟨id, ring, found, nonempty⟩ := holding
      exact .inr ⟨id, ring, found, single_of_residentCount few found nonempty⟩
    · refine .inl ?_
      rw [balanced.ringBytes_of_empty fun id ring found => ?_]
      · exact Int.natCast_nonneg _
      · by_contra nonempty
        exact holding ⟨id, ring, found, nonempty⟩

theorem eachRing_of_entries {property : Ring → Prop}
    (holds : ∀ entry ∈ store.rings.entries, property entry.2) :
    store.EachRing fun _ ring => property ring :=
  fun _ _ found => holds _ (mem_of_lookup found)

instance (cursor : Cursor) (ring : Ring) : Decidable (ring.Avoids cursor) :=
  inferInstanceAs (Decidable (∀ message ∈ ring.msgs, message.cursor ≠ cursor))

/-- The append behind `say`. -/
def sayCall (time : Int) (text : Bytes) : Call :=
  .append noFault 0 (lit "libera") (lit "#go")
    { time := time, sender := lit "ann", command := lit "PRIVMSG", raw := text, text := text }
    { create := true, unarchive := true }

theorem ring_budget_invariant_oldAndNew :
    0 < oldAndNew.ringBytes ∧
      (oldAndNew.ringBytes = oldAndNew.rings.total fun _ ring => ring.bytes) ∧
      (∀ id ring, oldAndNew.rings.lookup id = some ring →
        ring.bytes = totalBytes ring.msgs ∧ StrictlyAscending Message.cursor ring.msgs ∧
          ring.msgs.length ≤ oldAndNew.ringSize) ∧
      (oldAndNew.ringBytes ≤ oldAndNew.maxRingBytes ∨
        ∃ id ring, oldAndNew.rings.lookup id = some ring ∧ ring.msgs.length = 1 ∧
          ∀ other held, other ≠ id → oldAndNew.rings.lookup other = some held →
            held.msgs = []) := by
  have valid : validateRetention 1 0 = .ok ⟨1, 0⟩ := rfl
  have installed : EngineStep (fun store call => call.Fresh store) pruneChunk
      (.opened (fresh 10 (16 * 2 ^ 20))) (.opened dayPolicy) := .install valid
  have first : EngineStep (fun store call => call.Fresh store) pruneChunk (.opened dayPolicy)
      (.opened (final (say (10 ^ 6) (lit "old")) dayPolicy)) :=
    .call noFault (sayCall (10 ^ 6) (lit "old"))
      ⟨fun _ => by decide +kernel, eachRing_of_entries (by decide +kernel)⟩
  have second : EngineStep (fun store call => call.Fresh store) pruneChunk
      (.opened (final (say (10 ^ 6) (lit "old")) dayPolicy)) (.opened oldAndNew) :=
    .call noFault (sayCall (2 * 24 * 3600 * 10 ^ 9) (lit "new"))
      ⟨fun _ => by decide +kernel, eachRing_of_entries (by decide +kernel)⟩
  exact ⟨by decide +kernel, ring_budget_invariant (fresh_opened (by decide) _) rfl
    (((ReflTransGen.refl.tail installed).tail first).tail second)⟩

/-! ### An id that is given out again -/

def ancientAgain : Store := final (say (-2208988800 * 10 ^ 9) (lit "again")) ancientPruned

/-- The prune that left the row of 1900 in memory freed its id. The next message of that time gets
it: two messages at one cursor. -/
theorem ancientAgain_repeats_cursor :
    ∃ ring, ReflTransGen (EngineStep (fun _ _ => True) pruneChunk)
        (.opened (fresh 10 (16 * 2 ^ 20))) (.opened ancientAgain) ∧
      ancientAgain.rings.lookup 1 = some ring ∧
      ring.msgs.map Message.cursor = [⟨-2208988800000, 1⟩, ⟨-2208988800000, 1⟩] ∧
      ¬ StrictlyAscending Message.cursor ring.msgs := by
  have valid : validateRetention 36500 0 = .ok ⟨36500, 0⟩ := rfl
  have installed : EngineStep (fun _ _ => True) pruneChunk (.opened (fresh 10 (16 * 2 ^ 20)))
      (.opened ((fresh 10 (16 * 2 ^ 20)).installRetention ⟨36500, 0⟩)) := .install valid
  have said : EngineStep (fun _ _ => True) pruneChunk
      (.opened ((fresh 10 (16 * 2 ^ 20)).installRetention ⟨36500, 0⟩)) (.opened ancient) :=
    .call noFault (sayCall (-2208988800 * 10 ^ 9) (lit "old")) trivial
  have picks : Picks pruneChunk (ancient.db.olderThan (ageCutoff (1794873600 * 10 ^ 9) 36500))
      [1] := ⟨by decide, by decide +kernel, by decide +kernel⟩
  have started : EngineStep (fun _ _ => True) pruneChunk (.opened ancient)
      ⟨ancient, .byAge (1794873600 * 10 ^ 9) 36500 0 0, fun _ => .idle⟩ :=
    .prune (.start ancient _)
  have deleted : EngineStep (fun _ _ => True) pruneChunk
      ⟨ancient, .byAge (1794873600 * 10 ^ 9) 36500 0 0, fun _ => .idle⟩
      ⟨ancientPruned, .reconciling (ageCutoff (1794873600 * 10 ^ 9) 36500) 0, fun _ => .idle⟩ :=
    .prune (.age (.last (by decide +kernel) picks rfl (by decide)))
  have returned : EngineStep (fun _ _ => True) pruneChunk
      ⟨ancientPruned, .reconciling (ageCutoff (1794873600 * 10 ^ 9) 36500) 0, fun _ => .idle⟩
      (.opened ancientPruned) := .prune .reconcile
  have again : EngineStep (fun _ _ => True) pruneChunk (.opened ancientPruned)
      (.opened ancientAgain) :=
    .call noFault (sayCall (-2208988800 * 10 ^ 9) (lit "again")) trivial
  have shown : (ancientAgain.rings.lookup 1).map (fun ring => ring.msgs.map Message.cursor) =
      some [⟨-2208988800000, 1⟩, ⟨-2208988800000, 1⟩] := by
    decide +kernel
  rw [map_eq_some_iff] at shown
  obtain ⟨ring, resident, cursors⟩ := shown
  refine ⟨ring, (((((ReflTransGen.refl.tail installed).tail said).tail started).tail
    deleted).tail returned).tail again, resident, cursors, fun strict => ?_⟩
  have ordered : (ring.msgs.map Message.cursor).Pairwise (· < ·) := pairwise_map.mpr strict
  rw [cursors] at ordered
  exact lt_irrefl _ (rel_of_pairwise_cons ordered mem_cons_self)

end Ircthing.Store
