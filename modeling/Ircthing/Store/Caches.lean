/-
This file proves when the caches of row ids keep agreeing with the tables while purges, closes,
deletes and renames interleave.
-/

import Ircthing.Store.Lifecycle
import Ircthing.Store.Residency

namespace Ircthing.Store

open Library Effect List Option Dict Tables Relation

variable {db : Database} {settings : List (Bytes × Bytes)} {tables : Tables} {fault : Fault}
  {oldName name network target config : Bytes} {post : Unit → Store → Prop}
  {failed : StoreError → Store → Prop} {key : Bytes × Bytes} {id chunk : Nat} {next store : Store}
  {purge : Purge} {renamed : Bool}

/-! ### Rows by their names -/

theorem find?_key_eq_some {Row Key : Type} [DecidableEq Key] {rows : List Row}
    {key : Row → Key} (unique : (rows.map key).Nodup) {value : Key} {row : Row} :
    rows.find? (fun row => key row = value) = some row ↔ row ∈ rows ∧ key row = value := by
  constructor
  · intro found
    exact ⟨mem_of_find?_eq_some found, by simpa using find?_some found⟩
  · rintro ⟨member, rfl⟩
    obtain ⟨first, found⟩ :
        ∃ first, rows.find? (fun other => key other = key row) = some first :=
      isSome_iff_exists.mp (find?_isSome.mpr ⟨row, member, by simp⟩)
    have same : key first = key row := by simpa using find?_some found
    rw [found, inj_on_of_nodup_map unique (mem_of_find?_eq_some found) member same]

namespace Database

variable {id : Nat}

theorem networkId_eq_some (db : Database) :
    db.networkId name = some id ↔ ⟨id, name⟩ ∈ db.networks := by
  unfold networkId
  rw [map_eq_some_iff]
  constructor
  · rintro ⟨⟨_, _⟩, found, rfl⟩
    obtain ⟨member, rfl⟩ := (find?_key_eq_some db.constraints.networkNames).mp found
    exact member
  · intro member
    exact ⟨_, (find?_key_eq_some db.constraints.networkNames).mpr ⟨member, rfl⟩, rfl⟩

theorem bufferId_eq_some (db : Database) {network : Nat} :
    db.bufferId network name = some id ↔
      ∃ row ∈ db.buffers, row.id = id ∧ row.networkId = network ∧ row.name = name := by
  unfold bufferId
  have test : (fun row : BufferRow => decide (row.networkId = network ∧ row.name = name)) =
      fun row => decide ((row.networkId, row.name) = (network, name)) := by
    funext row
    simp only [Prod.mk.injEq]
  rw [test, map_eq_some_iff]
  constructor
  · rintro ⟨row, found, rfl⟩
    obtain ⟨member, same⟩ := (find?_key_eq_some db.constraints.bufferNames).mp found
    exact ⟨row, member, rfl, (Prod.mk.inj same).1, (Prod.mk.inj same).2⟩
  · rintro ⟨row, member, rfl, rfl, rfl⟩
    exact ⟨row, (find?_key_eq_some db.constraints.bufferNames).mpr ⟨member, rfl⟩, rfl⟩

theorem locate_iff (db : Database) :
    db.locate network target = some id ↔ ∃ row ∈ db.buffers, row.id = id ∧ row.name = target ∧
        ⟨row.networkId, network⟩ ∈ db.networks := by
  rw [locate_eq_some]
  constructor
  · rintro ⟨_, resolved, found⟩
    obtain ⟨row, member, rfl, rfl, rfl⟩ := db.bufferId_eq_some.mp found
    exact ⟨row, member, rfl, rfl, db.networkId_eq_some.mp resolved⟩
  · rintro ⟨row, member, rfl, rfl, named⟩
    exact ⟨row.networkId, db.networkId_eq_some.mpr named,
      db.bufferId_eq_some.mpr ⟨row, member, rfl, rfl, rfl⟩⟩

end Database

/-! ### What the critical sections do -/

theorem upsertSettings_eq (settings : List (Bytes × Bytes)) (tables : Tables) :
    ∃ written,
      settings.foldl upsertSetting tables = { tables with settings := written } := by
  induction settings generalizing tables with
  | nil => exact ⟨tables.settings, rfl⟩
  | cons setting _ ih =>
    obtain ⟨written, equal⟩ := ih (tables.upsertSetting setting)
    exact ⟨written, by rw [foldl_cons, equal]; rfl⟩

structure SameRows (db : Database) (tables : Tables) : Prop where
  networks : db.networks = tables.networks
  buffers : db.buffers = tables.buffers
  messages : db.messages = tables.messages

theorem sameRows_of_settings (written : db.toTables = settings.foldl upsertSetting tables) :
    SameRows db tables := by
  obtain ⟨_, equal⟩ := upsertSettings_eq settings tables
  rw [equal] at written
  exact ⟨by rw [written], by rw [written], by rw [written]⟩

theorem checkReplaceNetworkLimit_spec :
    wp (checkReplaceNetworkLimit fault renamed oldName name) (fun _ next => next = store)
      (fun _ next => next = store) store := by
  unfold checkReplaceNetworkLimit
  refine wp_attempt_bind (fun _ => rfl) ?_
  rw [wp_bind, wp_get]
  exact iteInduction (motive := (wp · _ _ store)) (fun _ => rfl) fun _ => rfl

/-- The tables of the transaction behind `ReplaceNetworkConfigWithSettings` before the
definition is written. -/
def Tables.retired (tables : Tables) (renamed : Bool) (oldName name : Bytes) : Tables :=
  if renamed then (tables.renameNetwork oldName name).deleteConfig oldName else tables

theorem retireName_spec :
    wp (retireName fault renamed oldName name)
      (fun tables next => next = store ∧ tables = store.db.retired renamed oldName name)
      (fun _ next => next = store) store := by
  unfold retireName
  cases renamed with
  | false => exact ⟨rfl, rfl⟩
  | true =>
    unfold moveNetworkHistory
    rw [if_pos rfl, wp_bind, wp_get]
    dsimp only
    split
    · split
      · exact rfl
      · exact rfl
    · exact wp_attempt_bind (fun _ => rfl) ⟨rfl, rfl⟩

/-- The tables `ReplaceNetworkConfigWithSettings` commits. -/
def Tables.replaced (tables : Tables) (oldName name config : Bytes)
    (settings : List (Bytes × Bytes)) : Tables :=
  settings.foldl upsertSetting
    ((tables.retired (oldName ≠ [] ∧ oldName ≠ name) oldName name).upsertConfig name config)

theorem wp_replaceNetworkConfig
    (failure : ∀ reason, failed reason store) (committed : ∀ db : Database,
      db.toTables = store.db.replaced oldName name config settings →
      post () (if oldName ≠ [] ∧ oldName ≠ name
        then { store with db := db }.dropNetworkCaches oldName else { store with db := db })) :
    wp (replaceNetworkConfigWithSettings fault oldName name config settings) post failed
      store := by
  unfold replaceNetworkConfigWithSettings
  rw [wp_bind]
  refine wp_ofExcept (fun _ _ => ?_) fun reason _ => failure reason
  refine wp_attempt_bind (fun _ => failure _) ?_
  refine wp_seq checkReplaceNetworkLimit_spec ?_ fun reason next same => same ▸ failure reason
  rintro _ _ rfl
  refine wp_seq retireName_spec ?_ fun reason next same => same ▸ failure reason
  rintro _ _ ⟨rfl, rfl⟩
  refine wp_attempt_bind (fun _ => failure _) ?_
  rw [wp_bind]
  refine wp_attemptWhen (fun _ => failure _) ?_
  rw [wp_bind]
  refine wp_execute (failure _) fun db written => ?_
  rw [wp_modify]
  simp only [decide_eq_true_eq]
  exact committed db written

theorem wp_replaceNetworkConfigWithSettings (failure : ∀ reason, failed reason store)
    (kept : ∀ db : Database, SameRows db store.db.toTables → post () { store with db := db })
    (moved : ∀ db : Database, SameRows db (store.db.renameNetwork oldName name) →
      post () ({ store with db := db }.dropNetworkCaches oldName)) :
    wp (replaceNetworkConfigWithSettings fault oldName name config settings) post failed
      store := by
  refine wp_replaceNetworkConfig failure fun db written => ?_
  have rows := sameRows_of_settings written
  unfold retired at rows
  simp only [decide_eq_true_eq] at rows
  split
  next renamed =>
    rw [if_pos renamed] at rows
    exact moved db ⟨rows.networks, rows.buffers, rows.messages⟩
  next same =>
    rw [if_neg same] at rows
    exact kept db ⟨rows.networks, rows.buffers, rows.messages⟩

def closed (store : Store) (db : Database) (key : Bytes × Bytes) (id : Nat) : Store :=
  { { store with db := db }.dropRing id with
    buffers := ({ store with db := db }.dropRing id).buffers.erase key }

section

variable (failure : ∀ reason, failed reason store)
include failure

theorem wp_deleteBufferRow (deleted : ∀ db : Database, db.toTables = store.db.deleteBuffer id →
      post () (store.closed db key id)) :
    wp (deleteBufferRow fault key id) post failed store := by
  unfold deleteBufferRow
  rw [wp_bind, wp_get, wp_bind]
  refine wp_execute (failure _) fun db written => ?_
  rw [wp_bind, wp_modify, wp_modify]
  exact deleted db written

theorem wp_deleteNetworkRow_tables (deleted : ∀ db : Database, db.toTables =
        settings.foldl upsertSetting ((store.db.deleteConfig name).deleteNetwork name) →
      post () ({ store with db := db }.dropNetworkCaches name)) :
    wp (deleteNetworkRow fault name settings) post failed store := by
  unfold deleteNetworkRow
  refine wp_attempt_bind (fun _ => failure _) ?_
  refine wp_attempt_bind (fun _ => failure _) ?_
  refine wp_attempt_bind (fun _ => failure _) ?_
  rw [wp_bind]
  refine wp_attemptWhen (fun _ => failure _) ?_
  rw [wp_bind, wp_get, wp_bind]
  refine wp_execute (failure _) fun db written => ?_
  rw [wp_modify]
  exact deleted db written

theorem wp_deleteNetworkRow (deleted : ∀ db : Database, SameRows db (store.db.deleteNetwork name) →
      post () ({ store with db := db }.dropNetworkCaches name)) :
    wp (deleteNetworkRow fault name settings) post failed store := by
  refine wp_deleteNetworkRow_tables failure fun db written => ?_
  have rows := sameRows_of_settings written
  exact deleted db ⟨rows.networks, rows.buffers, rows.messages⟩

theorem wp_deletePageRow {rowid : Nat}
    (deleted : ∀ (db : Database) (name : Bytes), SameRows db (store.db.deleteNetwork name) →
      post () { store with db := db }.dropAllCaches) :
    wp (deletePageRow fault rowid) post failed store := by
  unfold deletePageRow
  refine wp_attempt_bind (fun _ => failure _) ?_
  refine wp_attempt_bind (fun _ => failure _) ?_
  refine wp_attempt_bind (fun _ => failure _) ?_
  rw [wp_bind, wp_get]
  split
  · exact failure _
  next name _ =>
    rw [wp_bind]
    refine wp_execute (failure _) fun db written => ?_
    rw [wp_modify]
    exact deleted db name ⟨by rw [written]; rfl, by rw [written]; rfl, by rw [written]; rfl⟩

end

/-! ### Entries that stay -/

def NamesKept (store next : Store) : Prop :=
  ∀ (name : Bytes) (id : Nat), next.networks.lookup name = some id →
    store.networks.lookup name = some id ∧
      (⟨id, name⟩ ∈ store.db.networks → ⟨id, name⟩ ∈ next.db.networks)

def BuffersKept (store next : Store) : Prop :=
  ∀ (network target : Bytes) (id : Nat), next.buffers.lookup (network, target) = some id →
    store.buffers.lookup (network, target) = some id ∧
      (store.db.locate network target = some id → next.db.locate network target = some id)

def NamesCoherent (store : Store) : Prop :=
  ∀ (name : Bytes) (id : Nat), store.networks.lookup name = some id → ⟨id, name⟩ ∈ store.db.networks

theorem Coherent.names (coherent : store.Coherent) : store.NamesCoherent :=
  fun _ _ cached => store.db.networkId_eq_some.mp (coherent.networks cached)

theorem NamesCoherent.kept (coherent : store.NamesCoherent)
    (kept : NamesKept store next) : next.NamesCoherent :=
  fun name id cached => (kept name id cached).2 (coherent name id (kept name id cached).1)

theorem Coherent.kept (coherent : store.Coherent) (names : NamesKept store next)
    (buffers : BuffersKept store next) : next.Coherent where
  networks cached := next.db.networkId_eq_some.mpr (coherent.names.kept names _ _ cached)
  buffers cached := (buffers _ _ _ cached).2 (coherent.buffers (buffers _ _ _ cached).1)

theorem dropRing_only (store : Store) (id : Nat) : OnlyRings store (store.dropRing id) := by
  unfold dropRing
  split
  · exact ⟨rfl, rfl, rfl, rfl, rfl, rfl⟩
  · exact OnlyRings.refl store

theorem dropRings_only (held : List (Sigma fun _ : Bytes × Bytes => Nat)) (store : Store) :
    OnlyRings store (held.foldl (fun store entry => store.dropRing entry.2) store) := by
  induction held generalizing store with
  | nil => exact OnlyRings.refl store
  | cons entry _ ih =>
    exact (dropRing_only store entry.2).trans (ih _)

@[simp] theorem dropNetworkCaches_db (store : Store) (name : Bytes) :
    (store.dropNetworkCaches name).db = store.db := (dropRings_only _ store).db

theorem dropNetworkCaches_networks {other : Bytes}
    (cached : (store.dropNetworkCaches name).networks.lookup other = some id) :
    other ≠ name ∧ store.networks.lookup other = some id := by
  change (AList.erase name store.networks).lookup other = some id at cached
  rw [lookup_erase_eq] at cached
  split at cached
  · cases cached
  · exact ⟨‹_›, cached⟩

theorem dropNetworkCaches_buffers
    (cached : (store.dropNetworkCaches name).buffers.lookup (network, target) = some id) :
    network ≠ name ∧ store.buffers.lookup (network, target) = some id := by
  change (store.buffers.keep fun key _ => key.1 ≠ name).lookup (network, target) = some id at cached
  rw [lookup_keep, filter_eq_some_iff] at cached
  exact ⟨by simpa using cached.2, cached.1⟩

theorem namesKept_evict (others : ∀ row ∈ store.db.networks, row.name ≠ name → row ∈ db.networks) :
    NamesKept store ({ store with db := db }.dropNetworkCaches name) := by
  intro other id cached
  obtain ⟨different, before⟩ := dropNetworkCaches_networks cached
  refine ⟨before, fun member => ?_⟩
  rw [dropNetworkCaches_db]
  exact others _ member different

theorem buffersKept_evict (others : ∀ row ∈ store.db.networks, row.name ≠ name → row ∈ db.networks ∧
      ∀ buffer ∈ store.db.buffers, buffer.networkId = row.id → buffer ∈ db.buffers) :
    BuffersKept store ({ store with db := db }.dropNetworkCaches name) := by
  intro network target id cached
  obtain ⟨different, before⟩ := dropNetworkCaches_buffers cached
  refine ⟨before, fun located => ?_⟩
  obtain ⟨buffer, member, same, named, under⟩ := store.db.locate_iff.mp located
  obtain ⟨network, buffers⟩ := others _ under different
  rw [dropNetworkCaches_db]
  exact db.locate_iff.mpr ⟨buffer, buffers buffer member rfl, same, named, network⟩

theorem mem_renameNetwork {row : NetworkRow} (member : row ∈ tables.networks)
    (different : row.name ≠ oldName) : row ∈ (tables.renameNetwork oldName name).networks :=
  mem_map.mpr ⟨row, member, if_neg different⟩

theorem mem_deleteNetwork {row : NetworkRow} (member : row ∈ tables.networks)
    (different : row.name ≠ name) :
    row ∈ (tables.deleteNetwork name).networks ∧
      ∀ buffer ∈ tables.buffers, buffer.networkId = row.id →
        buffer ∈ (tables.deleteNetwork name).buffers := by
  have kept : row ∈ tables.networks.filter fun row => row.name ≠ name :=
    mem_filter.mpr ⟨member, by simpa using different⟩
  refine ⟨kept, fun buffer held under => mem_filter.mpr ⟨held, ?_⟩⟩
  rw [contains_iff_mem, under]
  exact mem_map_of_mem kept

/-! ### One critical section -/

theorem DeleteChunk.networks_buffers {guard : Store → Bool} {matching : Tables → List MessageRow}
    {deleted : Nat} {next : Store} {turn : ChunkEnd}
    (step : DeleteChunk chunk guard matching deleted store next turn) :
    ∃ db : Database, next = { store with db := db } ∧ db.networks = store.db.networks ∧
      db.buffers = store.db.buffers := by
  cases step with
  | bail | fail => exact ⟨store.db, rfl, rfl, rfl⟩
  | last allows picks written | more allows picks written | cancelled allows picks written =>
    exact ⟨_, rfl, by rw [written]; rfl, by rw [written]; rfl⟩

theorem canonicalBufferLocked_spec (fault : Fault) (network target : Bytes)
    (fold : Option (Bytes → Bytes)) (store : Store) :
    wp (canonicalBufferLocked fault network target fold) (fun _ next => next = store)
      (fun _ next => next = store) store := by
  unfold canonicalBufferLocked
  split
  · exact rfl
  · exact wp_attempt_bind (fun _ => rfl) rfl

theorem resolveBufferLocked_coherent (coherent : store.Coherent) {fold : Option (Bytes → Bytes)} :
    Coherent (final (resolveBufferLocked fault network target fold) store) := by
  refine wp_final ?_
  unfold resolveBufferLocked
  refine wp_seq (canonicalBufferLocked_spec fault network target fold store) ?_
    fun _ _ same => same ▸ coherent
  rintro canonical _ rfl
  exact wp_seq (bufferID_spec coherent) (fun _ _ kept => kept.1) fun _ _ kept => kept.1

theorem replace_coherent (coherent : store.Coherent) :
    Coherent (final
      (replaceNetworkConfigWithSettings fault oldName name config settings) store) := by
  refine wp_final (wp_replaceNetworkConfigWithSettings (fun _ => coherent)
    (fun db rows => coherent.sameRows rows.networks rows.buffers) fun db rows => ?_)
  have others : ∀ row ∈ store.db.networks, row.name ≠ oldName → row ∈ db.networks :=
    fun row member different => rows.networks ▸ mem_renameNetwork member different
  refine coherent.kept (namesKept_evict others) (buffersKept_evict fun row member different =>
    ⟨others row member different, fun buffer held _ => ?_⟩)
  rw [rows.buffers]
  exact held

theorem deleteNetworkRow_coherent (coherent : store.Coherent) :
    Coherent (final (deleteNetworkRow fault name settings) store) := by
  refine wp_final (wp_deleteNetworkRow (fun _ => coherent) fun db rows => ?_)
  have others : ∀ row ∈ store.db.networks, row.name ≠ name → row ∈ db.networks ∧
      ∀ buffer ∈ store.db.buffers, buffer.networkId = row.id → buffer ∈ db.buffers := by
    intro row member different
    rw [rows.networks, rows.buffers]
    exact mem_deleteNetwork member different
  exact coherent.kept (namesKept_evict fun row member different => (others row member different).1)
    (buffersKept_evict others)

theorem dropAllCaches_coherent : Coherent store.dropAllCaches where
  networks cached := by
    change AList.lookup _ ∅ = some _ at cached
    rw [AList.lookup_empty] at cached
    cases cached
  buffers cached := by
    change AList.lookup _ ∅ = some _ at cached
    rw [AList.lookup_empty] at cached
    cases cached

/-- A property of the store that an append keeps: resolving a buffer keeps it, ring maintenance
keeps it, and so does a committed row. -/
structure Survives (property : Store → Prop) : Prop where
  bufferID : ∀ {store : Store}, property store → ∀ fault network target create,
    wp (bufferID fault network target create) (fun _ => property) (fun _ => property) store
  rings : ∀ {store next : Store}, property store → OnlyRings store next → property next
  appended : ∀ {store : Store} {buffer : Nat} {message : Message} {db : Database},
    property store → Appended store.db.toTables buffer message db.toTables →
      property { store with db := db }

namespace Survives

variable {property : Store → Prop} {store : Store}

theorem bufferAndRing (survives : Survives property) (holds : property store) (fault : Fault)
    (network target : Bytes) (create : Bool) :
    wp (bufferAndRing fault network target create) (fun _ => property)
      (fun _ => property) store := by
  unfold Store.bufferAndRing
  refine wp_seq (survives.bufferID holds fault network target create) ?_ fun _ _ kept => kept
  intro found reached kept
  cases found with
  | none => exact kept
  | some id =>
    rw [wp_bind, wp_get]
    split
    · exact survives.rings kept (touchRing_only reached id)
    · exact wp_attempt_bind (fun _ => kept)
        (survives.rings kept (warm_only reached network target id))

theorem guarded (survives : Survives property) (holds : property store) (fault : Fault)
    (network target : Bytes) (guardCreate : Option (Bool → Bool)) :
    wp (guarded fault network target guardCreate) (fun _ => property)
      (fun _ => property) store := by
  unfold Store.guarded
  split
  · exact holds
  · unfold appendVetoed
    rw [wp_bind]
    exact survives.bufferID holds fault network target false

theorem append (survives : Survives property) (holds : property store) (fault vetoFault : Fault)
    (now : Int) (network target : Bytes) (message : Message) (opts : AppendOpts) :
    property (final (append fault vetoFault now network target message opts) store) := by
  refine wp_final ?_
  unfold Store.append
  split
  · exact holds
  refine wp_seq resolveTarget_named ?_ fun _ _ same => same.1 ▸ holds
  rintro resolved _ ⟨rfl, -⟩
  refine wp_seq (survives.guarded holds vetoFault network resolved opts.guardCreate) ?_
    fun _ _ kept => kept
  intro vetoed asked askedKept
  split
  · exact askedKept
  refine wp_seq (survives.bufferAndRing askedKept fault network resolved opts.create) ?_
    fun _ _ kept => kept
  intro found reached kept
  cases found with
  | none => exact kept
  | some buffer =>
    exact wp_commitAppendLocked (fun _ => kept) (fun _ => kept) fun db _ appended =>
      survives.rings (survives.appended kept appended) (refreshRing_only _ buffer _)

end Survives

theorem coherent_survives : Survives Coherent where
  bufferID coherent _ _ _ _ :=
    wp_mono (bufferID_spec coherent) (fun _ _ kept => kept.1) fun _ _ kept => kept.1
  rings coherent only := only.coherent coherent
  appended coherent appended := coherent.appended appended

/-! ### Closing a buffer -/

@[simp] theorem closed_db (store : Store) (db : Database) (key : Bytes × Bytes) (id : Nat) :
    (store.closed db key id).db = db := (dropRing_only _ id).db

@[simp] theorem closed_networks (store : Store) (db : Database) (key : Bytes × Bytes)
    (id : Nat) : (store.closed db key id).networks = store.networks := (dropRing_only _ id).networks

@[simp] theorem closed_lookup (store : Store) (db : Database) (key name : Bytes × Bytes)
    (id : Nat) : (store.closed db key id).buffers.lookup name =
      if name = key then none else store.buffers.lookup name := by
  show (AList.erase key ({ store with db := db }.dropRing id).buffers).lookup name = _
  rw [(dropRing_only _ id).buffers, lookup_erase_eq]

theorem mem_deleteBuffer {row : BufferRow} :
    row ∈ (db.deleteBuffer id).buffers ↔ row ∈ db.buffers ∧ row.id ≠ id := by
  simp only [deleteBuffer, cascade, mem_filter, decide_eq_true_eq, contains_iff_mem]
  exact ⟨fun held => held.1, fun held => ⟨held, db.constraints.bufferNetworks row held.1⟩⟩

theorem deleteBufferRow_coherent (coherent : store.Coherent)
    (only : ∀ name, store.buffers.lookup name = some id → name = key) :
    Coherent (final (deleteBufferRow fault key id) store) := by
  refine wp_final (wp_deleteBufferRow (fun _ => coherent) fun db written => ?_)
  have networks : db.networks = store.db.networks := by rw [written]; rfl
  refine coherent.kept (fun name netID cached => ?_) fun network target other cached => ?_
  · rw [closed_networks] at cached
    rw [closed_db, networks]
    exact ⟨cached, fun member => member⟩
  · rw [closed_lookup] at cached
    split at cached
    · cases cached
    rename_i different
    refine ⟨cached, fun located => ?_⟩
    obtain ⟨row, member, rfl, named, under⟩ := store.db.locate_iff.mp located
    -- the row stays, since only the evicted name may be cached for the deleted one
    have stays : row.id ≠ id := fun gone => different (only _ (gone ▸ cached))
    rw [closed_db, Database.locate_iff, written]
    exact ⟨row, mem_deleteBuffer.mpr ⟨member, stays⟩, rfl, named, under⟩

theorem deleteBufferRow_only (coherent : Coherent (final (deleteBufferRow fault key id) store))
    (changed : (final (deleteBufferRow fault key id) store).db ≠ store.db)
    (name : Bytes × Bytes) (cached : store.buffers.lookup name = some id) : name = key := by
  have outcome : wp (deleteBufferRow fault key id)
      (fun _ next => next.Coherent → next.db ≠ store.db → name = key)
      (fun _ next => next.Coherent → next.db ≠ store.db → name = key) store := by
    refine wp_deleteBufferRow (fun _ _ unchanged => absurd rfl unchanged) ?_
    intro db written agrees _
    by_contra different
    have still : (store.closed db key id).buffers.lookup name = some id := by
      rw [closed_lookup, if_neg different, cached]
    have row := mem_buffers_of_locate (agrees.buffers still)
    rw [closed_db, written] at row
    obtain ⟨_, member, gone⟩ := mem_map.mp row
    exact (mem_deleteBuffer.mp member).2 gone
  exact wp_final outcome coherent changed

theorem deleteBufferRow_unchanged (coherent : store.Coherent)
    (unchanged : (final (deleteBufferRow fault key id) store).db = store.db) :
    Coherent (final (deleteBufferRow fault key id) store) := by
  have outcome : wp (deleteBufferRow fault key id)
      (fun _ next => next.db = store.db → next.Coherent)
      (fun _ next => next.db = store.db → next.Coherent) store := by
    refine wp_deleteBufferRow (fun _ _ => coherent) fun db _ same => ?_
    rw [closed_db] at same
    refine coherent.kept (fun name netID cached => ?_) fun network target other cached => ?_
    · rw [closed_networks] at cached
      rw [closed_db, same]
      exact ⟨cached, fun member => member⟩
    · rw [closed_lookup] at cached
      split at cached
      · cases cached
      · rw [closed_db, same]
        exact ⟨cached, fun located => located⟩
  exact wp_final outcome unchanged

/-! ### Every interleaving -/

/-- If the operation is about to delete the row of a buffer, no other name than the captured one
is cached for the id it holds. -/
def Tidy (store : Store) (purge : Purge) : Prop :=
  ∀ key id, purge = .bufferRow key id → ∀ name, store.buffers.lookup name = some id → name = key

theorem Act.coherent {purge' : Purge} (act : Act chunk store purge next purge')
    (coherent : store.Coherent) (tidy : store.Tidy purge) : next.Coherent := by
  have chunked : ∀ {matching : Tables → List MessageRow} {deleted : Nat} {turn : ChunkEnd},
      PurgeChunk chunk matching deleted store next turn → next.Coherent := by
    intro matching deleted turn deletes
    obtain ⟨db, rfl, networks, buffers⟩ := deletes.networks_buffers
    exact coherent.sameRows networks buffers
  cases act with
  | append fault vetoFault now network target message opts =>
    exact coherent_survives.append coherent fault vetoFault now network target message opts
  | replace =>
    exact replace_coherent coherent
  | resolveBuffer =>
    exact resolveBufferLocked_coherent coherent
  | bufferChunk deletes | networkChunk deletes | pageChunk deletes => exact chunked deletes
  | bufferRing _ id => exact (dropRing_only store id).coherent coherent
  | bufferRow _ key id => exact deleteBufferRow_coherent coherent (tidy key id rfl)
  | resolveNetwork _ fault name =>
    exact wp_final (wp_mono (networkID_turn fault name false store)
      (fun _ _ kept => kept.1.coherent coherent) fun _ _ kept => kept.1 ▸ coherent)
  | networkCaches _ name =>
    have names : NamesKept store (store.dropNetworkCaches name) :=
      namesKept_evict fun _ member _ => member
    exact coherent.kept names (buffersKept_evict fun _ member _ => ⟨member, fun _ held _ => held⟩)
  | networkRow => exact deleteNetworkRow_coherent coherent
  | resolvePage =>
    refine wp_final ?_
    unfold Store.resolvePage
    split
    · exact coherent
    · exact wp_attempt_bind (fun _ => coherent) coherent
  | pageCaches => exact dropAllCaches_coherent
  | pageRow =>
    exact wp_final (wp_deletePageRow (fun _ => coherent) fun db _ _ => dropAllCaches_coherent)

def TidyStep (chunk : Nat) (w w' : World) : Prop :=
  ∃ t, StepOf chunk t w w' ∧ w.store.Tidy (w.purges t)

theorem TidyStep.steps : TidyStep chunk ≤ Steps chunk :=
  fun _ _ ⟨t, step, _⟩ => ⟨t, step⟩

theorem TidyStep.coherent {w w' : World} (step : TidyStep chunk w w')
    (coherent : w.store.Coherent) : w'.store.Coherent := by
  obtain ⟨_, ⟨_, _, act, rfl⟩, tidy⟩ := step
  exact act.coherent coherent tidy

theorem tidy_run_coherent {start : Store} {w : World} (opened : start.Opened)
    (reached : ReflTransGen (TidyStep chunk) (World.opened start) w) : w.store.Coherent := by
  induction reached with
  | refl =>
    have cached : Cached (fun _ _ _ => True) start := Cached.opened opened
    exact cached.coherent
  | tail _ step ih => exact step.coherent ih

/-- In every interleaving in which closes are tidy, both caches agree with the tables between
critical sections. From such a state a section keeps the agreement exactly when it is tidy or leaves
the tables alone. -/
theorem id_caches_coherent {chunk : Nat} {start : Store} {w : World} (opened : start.Opened)
    (reached : ReflTransGen (TidyStep chunk) (World.opened start) w) :
    w.store.Coherent ∧ ∀ t w', StepOf chunk t w w' →
        (w'.store.Coherent ↔ w.store.Tidy (w.purges t) ∨ w'.store.db = w.store.db) := by
  have coherent := tidy_run_coherent opened reached
  refine ⟨coherent, ?_⟩
  rintro t _ ⟨_, _, act, rfl⟩
  generalize w.purges t = standing at act
  constructor
  · intro agrees
    refine or_iff_not_imp_right.mpr fun changed key id same => ?_
    subst same
    cases act with
    | bufferRow => exact deleteBufferRow_only agrees changed
  · rintro (tidy | unchanged)
    · exact act.coherent coherent tidy
    · by_cases closing : ∃ key id, standing = .bufferRow key id
      · obtain ⟨key, id, rfl⟩ := closing
        cases act with
        | bufferRow => exact deleteBufferRow_unchanged coherent unchanged
      · exact act.coherent coherent fun key id same => absurd ⟨key, id, same⟩ closing

/-! ### A close that is overtaken by a rename -/

def alongside (store : Store) (purge : Purge) : World :=
  ⟨store, fun t => if t = 1 then purge else .idle⟩

theorem opened_eq_alongside (store : Store) : World.opened store = alongside store .idle := by
  simp [World.opened, alongside]

theorem Act.purger {purge' : Purge} (act : Act chunk store purge next purge') :
    StepOf chunk 1 (alongside store purge) (alongside next purge') := by
  refine ⟨next, purge', act, ?_⟩
  unfold alongside
  congr 1
  funext t
  by_cases same : t = 1
  · simp [same]
  · simp [same]

theorem Act.other (act : Act chunk store .idle next .idle) :
    StepOf chunk 0 (alongside store purge) (alongside next purge) := by
  refine ⟨next, .idle, act, ?_⟩
  unfold alongside
  congr 1
  funext t
  by_cases same : t = 0
  · simp [same]
  · simp [same]

def sayIn (network target text : Bytes) : Action (Message × Bool) :=
  Store.append noFault noFault 0 network target
    { time := 1000000, sender := lit "ann", command := lit "PRIVMSG", raw := text, text := text }
    { create := true, unarchive := true }

def spoken : Store :=
  final (sayIn (lit "libera") (lit "#go") (lit "hi")) (fresh 10 1000000)

def emptied : Store :=
  { spoken with db := ⟨spoken.db.deleteMessages [1], by decide +kernel⟩ }

def closing : Store := emptied.dropRing 1

def renamedWhileClosing : Store :=
  final (sayIn (lit "oftc") (lit "#go") (lit "back"))
    (final
      (replaceNetworkConfigWithSettings noFault (lit "libera") (lit "oftc") (lit "x") []) closing)

def leftBehind : Store :=
  final (deleteBufferRow noFault (lit "libera", lit "#go") 1) renamedWhileClosing

theorem resolveBufferLocked_cached
    (cached : store.buffers.lookup (network, target) = some id) (fault : Fault) :
    exec (resolveBufferLocked fault network target none) store =
      (.ok (target, some id), store) := by
  have found : exec (bufferID fault network target false) store =
      (.ok (some id), store) := by
    unfold bufferID
    rw [exec_bind]
    have read : exec (get : Action Store) store = (.ok store, store) := rfl
    rw [read]
    dsimp only
    rw [cached]
    rfl
  unfold resolveBufferLocked canonicalBufferLocked
  rw [exec_bind, exec_pure]
  show exec (bufferID fault network target false >>= fun id => pure (target, id)) store = _
  rw [exec_bind, found]
  rfl

theorem closing_act :
    Act pruneChunk spoken .idle spoken (.bufferChunks (some (lit "libera", lit "#go")) 1 0) ∧
      Act pruneChunk spoken (.bufferChunks (some (lit "libera", lit "#go")) 1 0) emptied
        (.bufferRing (some (lit "libera", lit "#go")) 1 false) ∧
      Act pruneChunk emptied (.bufferRing (some (lit "libera", lit "#go")) 1 false) closing
        (.bufferRow (lit "libera", lit "#go") 1) := by
  refine ⟨?_, ?_, .bufferRing _ _ _⟩
  · have cached : spoken.buffers.lookup (lit "libera", lit "#go") = some 1 := by decide +kernel
    have ended := resolveBufferLocked_cached cached noFault
    have act : Act pruneChunk spoken .idle _ _ :=
      .resolveBuffer true noFault (lit "libera") (lit "#go") none
    rw [final, ended] at act
    exact act
  · have picks : Picks pruneChunk (spoken.db.rowsOf 1) [1] :=
      ⟨by decide, by decide +kernel, by decide +kernel⟩
    exact .bufferChunk (.last rfl picks rfl (by decide))

theorem renamedWhileClosing_reached :
    ReflTransGen (TidyStep pruneChunk) (World.opened (fresh 10 1000000))
      (alongside renamedWhileClosing (.bufferRow (lit "libera", lit "#go") 1)) := by
  obtain ⟨resolve, deletes, drops⟩ := closing_act
  have first : Act pruneChunk (fresh 10 1000000) .idle spoken .idle := .append _ _ _ _ _ _ _
  have rename : Act pruneChunk closing .idle _ .idle :=
    .replace noFault (lit "libera") (lit "oftc") (lit "x") []
  have second : Act pruneChunk _ .idle renamedWhileClosing .idle := .append _ _ _ _ _ _ _
  rw [opened_eq_alongside]
  -- no step but the last one is a close, so every one of them is tidy
  have idle : ∀ {store : Store}, store.Tidy .idle := nofun
  refine ReflTransGen.refl.tail ⟨0, first.other, idle⟩
    |>.tail ⟨1, resolve.purger, idle⟩ |>.tail ⟨1, deletes.purger, nofun⟩
    |>.tail ⟨1, drops.purger, nofun⟩ |>.tail ⟨0, rename.other, idle⟩
    |>.tail ⟨0, second.other, idle⟩

/-- Up to the delete the new name is cached for the row it names. -/
theorem id_caches_coherent_renamedWhileClosing :
    renamedWhileClosing.buffers.lookup (lit "oftc", lit "#go") = some 1 ∧
      renamedWhileClosing.db.locate (lit "oftc") (lit "#go") = some 1 := by
  have cached : renamedWhileClosing.buffers.lookup (lit "oftc", lit "#go") = some 1 := by
    decide +kernel
  exact ⟨cached, (id_caches_coherent (fresh_opened (by decide) 1000000)
    renamedWhileClosing_reached).1.buffers cached⟩

/-- The close leaves an entry of the buffer cache behind whose row is gone. -/
theorem rename_leaves_stale_entry :
    ∃ w, ReflTransGen (Steps pruneChunk) (World.opened (fresh 10 1000000)) w ∧
      w.store.buffers.lookup (lit "oftc", lit "#go") = some 1 ∧ w.store.db.buffers = [] := by
  have last : Act pruneChunk renamedWhileClosing (.bufferRow (lit "libera", lit "#go") 1)
      leftBehind .idle := .bufferRow _ _ _
  have reached := ReflTransGen.mono TidyStep.steps _ _ renamedWhileClosing_reached
  exact ⟨_, reached.tail ⟨1, last.purger⟩, by decide +kernel, by decide +kernel⟩

end Ircthing.Store
