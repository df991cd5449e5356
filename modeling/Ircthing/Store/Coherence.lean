/-
This file proves what resolving a buffer does: the id caches never contradict the tables, and the
only rows a resolution adds are a network row and a buffer row.
-/

import Ircthing.Store.History

namespace Ircthing.Store

open Library Effect List Option AList Dict Tables

variable {network target name : Bytes} {id buffer : Nat} {store : Store} {db : Database}
  {message : Message} {unarchive : Bool} {post : Message × Bool → Store → Prop}
  {failed : StoreError → Store → Prop} {fault : Fault} {tables : Tables}
  {create : Bool}

/-! ### What the tables say -/

def Tables.locate (tables : Tables) (network target : Bytes) : Option Nat :=
  (tables.networkId network).bind fun netID => tables.bufferId netID target

theorem Tables.locate_eq_some :
    tables.locate network target = some id ↔
      ∃ netID, tables.networkId network = some netID ∧ tables.bufferId netID target = some id :=
  bind_eq_some_iff

theorem Tables.mem_buffers_of_locate (located : tables.locate network target = some id) :
    id ∈ tables.buffers.map (·.id) := by
  obtain ⟨_, _, found⟩ := locate_eq_some.mp located
  unfold Tables.bufferId at found
  obtain ⟨_, rowFound, rfl⟩ := map_eq_some_iff.mp found
  exact mem_map_of_mem (mem_of_find?_eq_some rowFound)

structure Coherent (store : Store) : Prop where
  networks : ∀ {name : Bytes} {id : Nat},
    store.networks.lookup name = some id → store.db.networkId name = some id
  buffers : ∀ {network target : Bytes} {id : Nat},
    store.buffers.lookup (network, target) = some id → store.db.locate network target = some id

/-! ### What resolving a buffer may change -/

/-- Rows were added to the networks and the buffers and nothing else happened on disk. A ring is as
before, or belongs to a new row and is empty and complete. -/
structure Grown (store next : Store) : Prop where
  networks : ∃ added, next.db.networks = store.db.networks ++ added
  buffers : ∃ added, next.db.buffers = store.db.buffers ++ added
  messages : next.db.messages = store.db.messages
  configs : next.db.configs = store.db.configs
  settings : next.db.settings = store.db.settings
  ringSize : next.ringSize = store.ringSize
  maxRingBytes : next.maxRingBytes = store.maxRingBytes
  retention : next.retention = store.retention
  rings : ∀ id, next.rings.lookup id = store.rings.lookup id ∨
    (id ∉ store.db.buffers.map (·.id) ∧
      next.rings.lookup id = some { Ring.new store.ringSize with complete := true })

namespace Grown

variable {store next : Store} {id : Nat}

theorem refl (store : Store) : Grown store store where
  networks := ⟨[], (append_nil _).symm⟩
  buffers := ⟨[], (append_nil _).symm⟩
  messages := rfl
  configs := rfl
  settings := rfl
  ringSize := rfl
  maxRingBytes := rfl
  retention := rfl
  rings _ := .inl rfl

theorem trans {first second third : Store} (one : Grown first second)
    (two : Grown second third) : Grown first third where
  networks := by
    obtain ⟨earlier, fromFirst⟩ := one.networks
    obtain ⟨later, fromSecond⟩ := two.networks
    exact ⟨earlier ++ later, by rw [fromSecond, fromFirst, append_assoc]⟩
  buffers := by
    obtain ⟨earlier, fromFirst⟩ := one.buffers
    obtain ⟨later, fromSecond⟩ := two.buffers
    exact ⟨earlier ++ later, by rw [fromSecond, fromFirst, append_assoc]⟩
  messages := two.messages.trans one.messages
  configs := two.configs.trans one.configs
  settings := two.settings.trans one.settings
  ringSize := two.ringSize.trans one.ringSize
  maxRingBytes := two.maxRingBytes.trans one.maxRingBytes
  retention := two.retention.trans one.retention
  rings id := by
    obtain ⟨_, grown⟩ := one.buffers
    rcases two.rings id with same | ⟨fresh, new⟩
    · rw [same]
      exact one.rings id
    · refine .inr ⟨fun old => fresh ?_, by rw [new, one.ringSize]⟩
      rw [grown, map_append]
      exact mem_append_left _ old

section

variable (grown : Grown store next)
include grown

theorem networkId
    (found : store.db.networkId name = some id) : next.db.networkId name = some id := by
  obtain ⟨_, networks⟩ := grown.networks
  unfold Tables.networkId at found ⊢
  obtain ⟨_, rowFound, rfl⟩ := map_eq_some_iff.mp found
  rw [networks, find?_append, rowFound]
  rfl

theorem bufferId {netID : Nat}
    (found : store.db.bufferId netID name = some id) : next.db.bufferId netID name = some id := by
  obtain ⟨_, buffers⟩ := grown.buffers
  unfold Tables.bufferId at found ⊢
  obtain ⟨_, rowFound, rfl⟩ := map_eq_some_iff.mp found
  rw [buffers, find?_append, rowFound]
  rfl

theorem locate (located : store.db.locate network target = some id) :
    next.db.locate network target = some id := by
  obtain ⟨netID, network, buffer⟩ := locate_eq_some.mp located
  exact locate_eq_some.mpr ⟨netID, grown.networkId network, grown.bufferId buffer⟩

theorem coherent (coherent : store.Coherent)
    (networks : next.networks = store.networks) (buffers : next.buffers = store.buffers) :
    next.Coherent where
  networks found := grown.networkId (coherent.networks (networks ▸ found))
  buffers found := grown.locate (coherent.buffers (buffers ▸ found))

end

end Grown

section

variable (coherent : store.Coherent)
include coherent

theorem Coherent.sameRows (networks : db.networks = store.db.networks)
    (buffers : db.buffers = store.db.buffers) :
    Coherent { store with db := db } where
  networks {name id} cached := by
    rw [Tables.networkId, networks]
    exact coherent.networks cached
  buffers {network target id} cached := by
    simp only [Tables.locate, Tables.networkId, Tables.bufferId, networks, buffers]
    exact coherent.buffers cached

theorem Coherent.cacheNetwork
    (found : store.db.networkId name = some id) :
    Coherent { store with networks := store.networks.insert name id } where
  networks {other otherId} cached := by
    rw [lookup_insert_eq] at cached
    split at cached
    next same =>
      cases cached
      rw [same]
      exact found
    · exact coherent.networks cached
  buffers := coherent.buffers

theorem Coherent.cacheBuffer
    (located : store.db.locate network target = some id) :
    Coherent { store with buffers := store.buffers.insert (network, target) id } where
  networks := coherent.networks
  buffers {otherNetwork otherTarget otherId} cached := by
    change (AList.insert (network, target) id store.buffers).lookup
      (otherNetwork, otherTarget) = some otherId at cached
    rw [lookup_insert_eq] at cached
    split at cached
    next same =>
      cases cached
      cases same
      exact located
    · exact coherent.buffers cached

end

/-! ### What resolving a network or a buffer can do -/

/-- What `networkID` can do to the store: nothing, cache the id of a row, or insert the row. -/
inductive NetworkTurn (network : Bytes) (create : Bool) (store : Store) : Store → Prop
  | known : NetworkTurn network create store store
  | cached {id : Nat} (found : store.db.networkId network = some id) :
      NetworkTurn network create store { store with networks := store.networks.insert network id }
  | created {db : Database} (creates : create = true) (missing : store.db.networkId network = none)
      (written : db.toTables = { store.db.toTables with
        networks := store.db.networks ++ [⟨nextId (store.db.networks.map NetworkRow.id), network⟩]
        }) :
      NetworkTurn network create store
        { store with
          db := db
          networks := store.networks.insert network (nextId (store.db.networks.map NetworkRow.id)) }

/-- What `bufferID` can do: resolve the network, cache the id of a row of it, or, when no id was
cached, insert the row. -/
inductive BufferTurn (network target : Bytes) (create : Bool) (store : Store) : Store → Prop
  | resolved {reached : Store} (turn : NetworkTurn network create store reached) :
      BufferTurn network target create store reached
  | cached {reached : Store} {netID id : Nat} (turn : NetworkTurn network create store reached)
      (uncached : store.buffers.lookup (network, target) = none)
      (home : reached.networks.lookup network = some netID)
      (found : reached.db.bufferId netID target = some id) :
      BufferTurn network target create store
        { reached with buffers := reached.buffers.insert (network, target) id }
  | created {reached : Store} {netID : Nat} {db : Database}
      (turn : NetworkTurn network create store reached) (creates : create = true)
      (uncached : store.buffers.lookup (network, target) = none)
      (home : reached.networks.lookup network = some netID)
      (missing : reached.db.bufferId netID target = none)
      (written : db.toTables = { reached.db.toTables with buffers := reached.db.buffers ++
        [⟨nextId (reached.db.buffers.map BufferRow.id), netID, target, false⟩] }) :
      BufferTurn network target create store
        { { reached with db := db }.addRing (nextId (reached.db.buffers.map BufferRow.id)) with
          buffers := reached.buffers.insert (network, target)
            (nextId (reached.db.buffers.map BufferRow.id)) }

theorem networkID_turn (fault : Fault) (network : Bytes) (create : Bool) (store : Store) :
    wp (networkID fault network create)
      (fun found next => NetworkTurn network create store next ∧
        (∀ id, found = some id → next.networks.lookup network = some id) ∧
        (found = none → next.db.networkId network = none))
      (fun _ next => next = store ∧ (create = false → ∃ statement, fault statement = true))
      store := by
  unfold networkID
  rw [wp_bind, wp_get]
  split
  next id cached =>
    exact ⟨.known, fun _ same => cached.trans same, nofun⟩
  refine wp_attempt_bind (fun fails => ⟨rfl, fun _ => ⟨_, fails⟩⟩) ?_
  split
  next id found =>
    exact ⟨.cached found, fun _ same => (lookup_insert store.networks).trans same, nofun⟩
  rename_i missing
  split
  next creates =>
    rw [wp_bind]
    refine wp_execute ⟨rfl, fun refuses => ?_⟩ fun db written => ?_
    · rw [creates] at refuses
      cases refuses
    · exact ⟨.created creates missing written,
        fun _ same => (lookup_insert store.networks).trans same, nofun⟩
  · exact ⟨.known, nofun, fun _ => missing⟩

theorem NetworkTurn.buffers {next : Store}
    (turn : NetworkTurn network create store next) : next.buffers = store.buffers := by
  cases turn <;> rfl

def Nowhere (store : Store) (network target : Bytes) : Prop :=
  store.buffers.lookup (network, target) = none ∧ (store.db.networkId network = none ∨
    ∃ netID, store.networks.lookup network = some netID ∧ store.db.bufferId netID target = none)

theorem Nowhere.locate (nowhere : store.Nowhere network target) (coherent : store.Coherent) :
    store.db.locate network target = none := by
  unfold Tables.locate
  rcases nowhere.2 with missing | ⟨_, home, missing⟩
  · rw [missing]
    rfl
  · rw [coherent.networks home]
    exact missing

theorem bufferID_turn :
    wp (bufferID fault network target create)
      (fun found next => BufferTurn network target create store next ∧
        (∀ id, found = some id → next.buffers.lookup (network, target) = some id) ∧
        (found = none → create = false → next.Nowhere network target))
      (fun _ next => BufferTurn network target create store next ∧
        (create = false → ∃ statement, fault statement = true)) store := by
  unfold bufferID
  rw [wp_bind, wp_get]
  split
  next id cached =>
    exact ⟨.resolved .known, fun _ same => cached.trans same, nofun⟩
  rename_i uncached
  refine wp_seq (networkID_turn fault network create store) ?_
    fun _ _ failed => ⟨failed.1 ▸ .resolved .known, failed.2⟩
  rintro found reached ⟨turn, homes, nowhere⟩
  cases found with
  | none =>
    exact ⟨.resolved turn, nofun, fun _ _ => ⟨turn.buffers ▸ uncached, .inl (nowhere rfl)⟩⟩
  | some netID =>
    have home := homes netID rfl
    refine wp_attempt_bind (fun fails => ⟨.resolved turn, fun _ => ⟨_, fails⟩⟩) ?_
    rw [wp_bind, wp_get]
    split
    next id found =>
      exact ⟨.cached turn uncached home found,
        fun _ same => (lookup_insert reached.buffers).trans same, nofun⟩
    rename_i missing
    split
    next creates =>
      have allowed : ∀ {proposition : Prop}, create = false → proposition := fun refuses => by
        rw [creates] at refuses
        cases refuses
      unfold createBuffer
      rw [wp_bind, wp_get, wp_bind]
      refine wp_attempt (fun fails => ⟨.resolved turn, allowed⟩) ?_
      dsimp only
      split
      · exact ⟨.resolved turn, nofun, fun _ => allowed⟩
      rw [wp_bind]
      refine wp_execute ⟨.resolved turn, allowed⟩ fun db written => ?_
      exact ⟨.created turn creates uncached home missing written,
        fun _ same => (lookup_insert reached.buffers).trans same, nofun⟩
    · exact ⟨.resolved turn, nofun,
        fun _ _ => ⟨turn.buffers ▸ uncached, .inr ⟨netID, home, missing⟩⟩⟩

theorem nextId_fresh {ids : List Nat} : nextId ids ∉ ids :=
  fun used => absurd (lt_nextId used) (lt_irrefl _)

theorem grown_of_insertNetwork {row : NetworkRow} (written : db.toTables =
      { store.db.toTables with networks := store.db.networks ++ [row] }) :
    Grown store { store with db := db } where
  networks := ⟨[row], by rw [written]⟩
  buffers := ⟨[], by rw [written, append_nil]⟩
  messages := by rw [written]
  configs := by rw [written]
  settings := by rw [written]
  ringSize := rfl
  maxRingBytes := rfl
  retention := rfl
  rings _ := .inl rfl

theorem grown_of_insertBuffer {row : BufferRow} (fresh : row.id ∉ store.db.buffers.map (·.id))
    (written : db.toTables = { store.db.toTables with buffers := store.db.buffers ++ [row] }) :
    Grown store ({ store with db := db }.addRing row.id) where
  networks := ⟨[], by change db.networks = _; rw [written, append_nil]⟩
  buffers := ⟨[row], by change db.buffers = _; rw [written]⟩
  messages := by change db.messages = _; rw [written]
  configs := by change db.configs = _; rw [written]
  settings := by change db.settings = _; rw [written]
  ringSize := rfl
  maxRingBytes := rfl
  retention := rfl
  rings id := by
    change (AList.insert row.id _ store.rings).lookup id = _ ∨
      _ ∧ (AList.insert row.id _ store.rings).lookup id = _
    rw [lookup_insert_eq]
    by_cases same : id = row.id
    · rw [if_pos same, same]
      exact .inr ⟨fresh, rfl⟩
    · rw [if_neg same]
      exact .inl rfl

namespace NetworkTurn

variable {create : Bool} {next : Store}

section

variable (turn : NetworkTurn network create store next)
include turn

theorem rings : next.rings = store.rings := by
  cases turn <;> rfl

theorem rows :
    next.db.buffers = store.db.buffers := by
  cases turn with
  | known | cached => rfl
  | created _ _ written => rw [written]

theorem grown : Grown store next := by
  cases turn with
  | known => exact Grown.refl store
  | cached => exact { Grown.refl store with }
  | created _ _ written => exact { grown_of_insertNetwork written with }

theorem coherent (coherent : store.Coherent) : next.Coherent := by
  cases turn with
  | known => exact coherent
  | cached found => exact coherent.cacheNetwork found
  | @created db _ missing written =>
    refine ((grown_of_insertNetwork written).coherent coherent rfl rfl).cacheNetwork ?_
    have none := map_eq_none_iff.mp missing
    unfold Tables.networkId
    rw [written, find?_append, none]
    simp

end

theorem reads (turn : NetworkTurn network false store next) : next.db = store.db := by
  cases turn with
  | known | cached => rfl
  | created creates => cases creates

end NetworkTurn

namespace BufferTurn

variable {create : Bool} {next : Store}

section

variable (turn : BufferTurn network target create store next)
include turn

theorem grown : Grown store next := by
  cases turn with
  | resolved turn => exact turn.grown
  | cached turn => exact { turn.grown with }
  | created turn _ _ _ _ written =>
    exact turn.grown.trans { grown_of_insertBuffer nextId_fresh written with }

theorem coherent (coherent : store.Coherent) : next.Coherent := by
  cases turn with
  | resolved turn => exact turn.coherent coherent
  | cached turn _ home found =>
    have reached := turn.coherent coherent
    exact reached.cacheBuffer (locate_eq_some.mpr ⟨_, reached.networks home, found⟩)
  | @created reached netID db turn _ _ home missing written =>
    have reachedCoherent := turn.coherent coherent
    have grown := grown_of_insertBuffer nextId_fresh written
    refine (grown.coherent reachedCoherent rfl rfl).cacheBuffer ?_
    refine locate_eq_some.mpr ⟨netID, grown.networkId (reachedCoherent.networks home), ?_⟩
    have none := map_eq_none_iff.mp missing
    show db.bufferId netID target = _
    unfold Tables.bufferId
    rw [written, find?_append, none]
    simp

theorem kept (cached : store.buffers.lookup (network, target) = some id) :
    next.buffers.lookup (network, target) = some id := by
  cases turn with
  | resolved turn => exact turn.buffers ▸ cached
  | cached _ uncached | created _ _ uncached => cases uncached.symm.trans cached

end

theorem reads (turn : BufferTurn network target false store next) :
    next.db = store.db ∧ next.rings = store.rings := by
  cases turn with
  | resolved turn | cached turn => exact ⟨turn.reads, turn.rings⟩
  | created _ creates => cases creates

end BufferTurn

theorem bufferID_spec (coherent : store.Coherent) :
    wp (bufferID fault network target create) (fun found next => next.Coherent ∧ Grown store next ∧
        (∀ id, found = some id → next.db.locate network target = some id) ∧
        (create = false → next.db = store.db ∧ next.rings = store.rings ∧
          found = store.db.locate network target))
      (fun _ next => next.Coherent ∧ Grown store next ∧
        (create = false → next.db = store.db ∧ next.rings = store.rings ∧
          ∃ statement, fault statement = true)) store := by
  refine wp_mono bufferID_turn ?_ ?_
  · rintro found next ⟨turn, cached, nowhere⟩
    have nextCoherent := turn.coherent coherent
    have located : ∀ id, found = some id → next.db.locate network target = some id :=
      fun id same => nextCoherent.buffers (cached id same)
    refine ⟨nextCoherent, turn.grown, located, ?_⟩
    rintro rfl
    refine ⟨turn.reads.1, turn.reads.2, ?_⟩
    rw [← turn.reads.1]
    cases found with
    | some id => exact (located id rfl).symm
    | none => exact ((nowhere rfl rfl).locate nextCoherent).symm
  · rintro reason next ⟨turn, fails⟩
    refine ⟨turn.coherent coherent, turn.grown, ?_⟩
    rintro rfl
    exact ⟨turn.reads.1, turn.reads.2, fails rfl⟩

/-- The spelling `canonicalLocked` answers with. -/
def canonicalName (store : Store) (network target : Bytes) (fold : Bytes → Bytes) : Bytes :=
  if (store.buffers.lookup (network, target)).isSome then target
  else (store.db.foldedName network target fold).getD target

/-- The spelling `append` resolves its target to. -/
def resolvedName (store : Store) (network target : Bytes) (fold : Option (Bytes → Bytes)) : Bytes :=
  fold.elim target fun fold => store.canonicalName network target fold

theorem canonicalLocked_named (fold : Bytes → Bytes) :
    wp (canonicalLocked fault network target (some fold))
      (fun found next => next = store ∧ found.1 = store.canonicalName network target fold)
      (fun _ next => next = store ∧ ∃ statement, fault statement = true) store := by
  unfold canonicalLocked canonicalName
  rw [wp_bind, wp_get]
  cases store.buffers.lookup (network, target) with
  | some => exact ⟨rfl, rfl⟩
  | none =>
    refine wp_attempt_bind (fun fails => ⟨rfl, _, fails⟩) ?_
    cases store.db.foldedName network target fold with
    | none | some name => exact ⟨rfl, rfl⟩

theorem resolveTarget_named {fold : Option (Bytes → Bytes)} :
    wp (resolveTarget fault network target fold)
      (fun resolved next => next = store ∧ resolved = store.resolvedName network target fold)
      (fun _ next => next = store ∧ ∃ statement, fault statement = true) store := by
  unfold resolveTarget
  cases fold with
  | none => exact ⟨rfl, rfl⟩
  | some fold =>
    exact wp_seq (canonicalLocked_named fold) (fun _ _ => id) fun _ _ same => same

theorem guarded_turn {guardCreate : Option (Bool → Bool)} :
    wp (guarded fault network target guardCreate)
      (fun _ next => BufferTurn network target false store next)
      (fun _ next => BufferTurn network target false store next) store := by
  unfold guarded
  split
  · exact .resolved .known
  · unfold appendVetoed
    exact wp_seq bufferID_turn (fun _ _ looked => looked.1) fun _ _ looked => looked.1

/-! ### Appending -/

theorem locate_congr {first second : Tables} {change : BufferRow → BufferRow}
    (networks : second.networks = first.networks)
    (buffers : second.buffers = first.buffers.map change)
    (keeps : ∀ row, (change row).id = row.id ∧ (change row).networkId = row.networkId ∧
      (change row).name = row.name) (network target : Bytes) :
    second.locate network target = first.locate network target := by
  unfold Tables.locate Tables.networkId
  rw [networks]
  congr 1
  funext netID
  unfold Tables.bufferId
  rw [buffers, find?_map, Option.map_map]
  have test : (fun row => decide (row.networkId = netID ∧ row.name = target)) ∘ change =
      fun row => decide (row.networkId = netID ∧ row.name = target) := by
    funext row
    simp [(keeps row).2.1, (keeps row).2.2]
  have id : (fun row : BufferRow => row.id) ∘ change = fun row => row.id :=
    funext fun row => (keeps row).1
  rw [test, id]

theorem applyArchive_eq :
    ∃ change : BufferRow → BufferRow, (tables.applyArchive buffer unarchive).2 =
        { tables with buffers := tables.buffers.map change } ∧
      ∀ row, (change row).id = row.id ∧ (change row).networkId = row.networkId ∧
        (change row).name = row.name := by
  unfold applyArchive
  cases unarchive with
  | true =>
    refine ⟨_, rfl, fun row => ?_⟩
    split <;> exact ⟨rfl, rfl, rfl⟩
  | false =>
    refine ⟨fun row => row, ?_, fun row => ⟨rfl, rfl, rfl⟩⟩
    simp

/-- The tables after a committed append: one message row more, and at most the archived flag
of its buffer changed. -/
structure Appended (before : Tables) (buffer : Nat) (message : Message) (after : Tables) :
    Prop where
  messages : after.messages = before.messages ++ [(before.stored message).row buffer]
  networks : after.networks = before.networks
  buffers : ∃ change : BufferRow → BufferRow, after.buffers = before.buffers.map change ∧
    ∀ row, (change row).id = row.id ∧ (change row).networkId = row.networkId ∧
      (change row).name = row.name
  configs : after.configs = before.configs
  settings : after.settings = before.settings
  hasRow : buffer ∈ before.buffers.map (·.id)
  unseen : message.msgID = [] ∨ before.hasMsgid buffer message.msgID = false

theorem Coherent.appended (coherent : store.Coherent)
    (appended : Appended store.db.toTables buffer message db.toTables) :
    Coherent { store with db := db } where
  networks {name id} cached := by
    rw [Tables.networkId, appended.networks]
    exact coherent.networks cached
  buffers {network target id} cached := by
    obtain ⟨_, buffers, keeps⟩ := appended.buffers
    rw [locate_congr appended.networks buffers keeps]
    exact coherent.buffers cached

structure Committed (before : Tables) (buffer : Nat) (message : Message)
    (unarchive archived : Bool) (after : Tables) : Prop where
  settled : (before.insertMessage buffer message).applyArchive buffer unarchive = (archived, after)
  hasRow : buffer ∈ before.buffers.map (·.id)
  unseen : message.msgID = [] ∨ before.hasMsgid buffer message.msgID = false

theorem Committed.appended {before after : Tables} {archived : Bool}
    (committed : Committed before buffer message unarchive archived after) :
    Appended before buffer message after := by
  obtain ⟨change, settled, keeps⟩ :=
    applyArchive_eq
  rw [committed.settled] at settled
  change after = _ at settled
  exact ⟨by rw [settled]; rfl, by rw [settled]; rfl, ⟨change, by rw [settled]; rfl, keeps⟩,
    by rw [settled]; rfl, by rw [settled]; rfl, committed.hasRow, committed.unseen⟩

theorem wp_commitAppendLocked_settled
    (duplicate : store.db.hasMsgid buffer message.msgID = true → post ({}, false) store)
    (failure : ∀ reason, failed reason store) (success : ∀ (db : Database) (archived : Bool),
      Committed store.db.toTables buffer message unarchive archived db.toTables →
        post (store.db.stored message, archived) ({ store with db := db }.refreshRing buffer
            fun ring => ring.insert (store.db.stored message))) :
    wp (commitAppendLocked fault buffer message unarchive) post failed store := by
  unfold commitAppendLocked
  refine wp_attempt_bind (fun _ => failure _) ?_
  refine wp_attempt_bind (fun _ => failure _) ?_
  rw [wp_bind, wp_get]
  split
  next seen =>
    exact duplicate seen.2
  rename_i unseen
  split
  · exact failure _
  rename_i hasRow
  refine wp_attempt_bind (fun _ => failure _) ?_
  rw [wp_bind]
  refine wp_execute (failure _) fun db written => ?_
  rw [wp_bind, wp_modify, wp_pure]
  refine success db _ ⟨by rw [written], not_not.mp hasRow, ?_⟩
  rw [not_and_or, not_not, Bool.not_eq_true] at unseen
  exact unseen

theorem wp_commitAppendLocked
    (duplicate : store.db.hasMsgid buffer message.msgID = true → post ({}, false) store)
    (failure : ∀ reason, failed reason store) (success : ∀ (db : Database) (archived : Bool),
      Appended store.db.toTables buffer message db.toTables →
        post (store.db.stored message, archived) ({ store with db := db }.refreshRing buffer
            fun ring => ring.insert (store.db.stored message))) :
    wp (commitAppendLocked fault buffer message unarchive) post failed store :=
  wp_commitAppendLocked_settled duplicate failure
    fun db archived committed => success db archived committed.appended

end Ircthing.Store
