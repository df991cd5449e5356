/-
This file models how buffers and networks come to an end or change their names. `Purge` is where
such an operation stands, `Act` is one critical section, and `Steps` lets any operation in flight
take its next one.
-/

import Ircthing.Store.Prune

namespace Ircthing.Store

open Library Effect

/-! ### Definitions of networks -/

def reservedRecoveryNetworkPrefix : Bytes := lit "__ircthing_invalid_row_"

def maxNetworkConfigs : Nat := 64

def maxNetworkConfigBytes : Nat := 65536

def objectPrototypeNames : List Bytes :=
  ["__proto__", "constructor", "prototype", "hasOwnProperty", "isPrototypeOf",
    "propertyIsEnumerable", "toLocaleString", "toString", "valueOf", "__defineGetter__",
    "__defineSetter__", "__lookupGetter__", "__lookupSetter__"].map lit

def errInvalidNetworkName : StoreError := .message "store: invalid network name"

def errNetworkLimitReached : StoreError := .message "store: network limit reached (64)"

def validateNetworkName (name : Bytes) : Except StoreError Unit :=
  if name = [] || hasPrefix name reservedRecoveryNetworkPrefix ||
      maxNetworkNameBytes < name.length || !validString name then
    .error errInvalidNetworkName
  else if (runes name).any fun rune => isControl rune.1 then .error errInvalidNetworkName
  else if objectPrototypeNames.contains name then .error errInvalidNetworkName
  else .ok ()

def validateNetworkConfigRecord (name config : Bytes) : Except StoreError Unit := do
  validateNetworkName name
  if config.length = 0 || maxNetworkConfigBytes < config.length then
    .error (.message "store: network config exceeds 65536-byte limit")
  else .ok ()

namespace Tables

variable (tables : Tables)

/-- `INSERT INTO network_configs ... ON CONFLICT name DO UPDATE`. -/
def upsertConfig (name config : Bytes) : Tables :=
  { tables with
    configs :=
      if tables.configs.any fun row => row.name == name then
        tables.configs.map fun row => if row.name = name then { row with config := config } else row
      else tables.configs ++ [⟨nextId (tables.configs.map (·.rowid)), name, config⟩] }

/-- `DELETE FROM network_configs WHERE name = ?`. -/
def deleteConfig (name : Bytes) : Tables :=
  { tables with configs := tables.configs.filter fun row => row.name ≠ name }

/-- `UPDATE networks SET name = ? WHERE name = ?`. -/
def renameNetwork (oldName name : Bytes) : Tables :=
  { tables with
    networks := tables.networks.map fun row =>
      if row.name = oldName then { row with name := name } else row }

/-- `ON DELETE CASCADE`: the rows whose parent is gone go with it. -/
def cascade : Tables :=
  let buffers := tables.buffers.filter fun row =>
    (tables.networks.map (·.id)).contains row.networkId
  { tables with
    buffers := buffers
    messages := tables.messages.filter fun row => (buffers.map (·.id)).contains row.bufferId }

/-- `DELETE FROM networks WHERE name = ?`. -/
def deleteNetwork (name : Bytes) : Tables :=
  cascade { tables with networks := tables.networks.filter fun row => row.name ≠ name }

/-- `DELETE FROM buffers WHERE id = ?`. -/
def deleteBuffer (id : Nat) : Tables :=
  cascade { tables with buffers := tables.buffers.filter fun row => row.id ≠ id }

/-- `UPDATE buffers SET archived = 1 WHERE name = ? AND network_id = (SELECT ...)`. -/
def archiveBuffer (network name : Bytes) : Tables :=
  { tables with
    buffers := tables.buffers.map fun row =>
      if row.name = name ∧ tables.networkId network = some row.networkId then
        { row with archived := true }
      else row }

/-- `SELECT name FROM network_configs WHERE rowid = ?`. -/
def pageName (rowid : Nat) : Option Bytes :=
  (tables.configs.find? fun row => row.rowid = rowid).map (·.name)

/-- `SELECT m.id FROM messages m JOIN buffers b ... WHERE b.network_id = ?`. -/
def rowsOfNetwork (network : Nat) : List MessageRow :=
  tables.messages.filter fun row =>
    tables.buffers.any fun buffer => buffer.id == row.bufferId && buffer.networkId == network

end Tables

/-! ### Dropping caches -/

variable (store : Store)

/-- `dropRingLocked`. -/
def dropRing (id : Nat) : Store :=
  match store.rings.lookup id with
  | some ring =>
    { store with ringBytes := store.ringBytes - ring.bytes, rings := store.rings.erase id }
  | none => store

/-- `dropNetworkCachesLocked`. -/
def dropNetworkCaches (network : Bytes) : Store :=
  let held := store.buffers.entries.filter fun entry => entry.1.1 = network
  let dropped := held.foldl (fun store entry => store.dropRing entry.2) store
  { dropped with
    networks := store.networks.erase network
    buffers := store.buffers.keep fun key _ => key.1 ≠ network }

/-- `dropAllCachesLocked`. -/
def dropAllCaches : Store :=
  { store with networks := ∅, buffers := ∅, rings := ∅, ringBytes := 0 }

/-! ### Replacing a definition -/

variable (fault : Fault) (renamed : Bool) (oldName name : Bytes)

def checkReplaceNetworkLimit :
    Action Unit := do
  attempt fault .selectConfigs
  let store ← get
  let defined := fun name => store.db.configs.any fun row => row.name == name
  let count : Int := store.db.configs.length
  let projected := count - (if renamed && defined oldName then 1 else 0) +
    (if defined name then 0 else 1)
  if projected > count ∧ count ≥ maxNetworkConfigs then throw errNetworkLimitReached
  else pure ()

/-- `moveNetworkHistory`: the tables once the row bears the new name. A failed update is reported as
stored history when the new name has a row. -/
def moveNetworkHistory : Action Tables := do
  let store ← get
  let renamed := store.db.renameNetwork oldName name
  if fault .renameNetwork = true ∨ ¬ (renamed.networks.map (·.name)).Nodup then
    if (store.db.networkId name).isSome && !fault .selectNetwork then throw (.storedHistory name)
    else throw (.statement .renameNetwork)
  else
    attempt fault .deleteConfig
    pure (renamed.deleteConfig oldName)

/-- The tables of the transaction behind `ReplaceNetworkConfigWithSettings` before the
definition is written. -/
def retireName : Action Tables :=
  if renamed then moveNetworkHistory fault oldName name
  else do
    let store ← get
    pure store.db.toTables

def replaceNetworkConfigWithSettings (oldName name config : Bytes)
    (settings : List (Bytes × Bytes)) : Action Unit := do
  Effect.ofExcept (validateNetworkConfigRecord name config)
  attempt fault .begin
  let renamed : Bool := oldName ≠ [] ∧ oldName ≠ name
  checkReplaceNetworkLimit fault renamed oldName name
  let tables ← retireName fault renamed oldName name
  attempt fault .upsertConfig
  attemptWhen fault (settings ≠ []) .upsertSetting
  execute fault .commit (settings.foldl Tables.upsertSetting (tables.upsertConfig name config))
  modify fun store => if renamed then store.dropNetworkCaches oldName else store

/-! ### The critical sections of a purge -/

variable (network target : Bytes) (fold : Option (Bytes → Bytes))

def canonicalBufferLocked : Action Bytes :=
  match fold with
  | none => pure target
  | some fold => do
    attempt fault .scanBufferNames
    let store ← get
    pure ((store.db.foldedName network target fold).getD target)

def resolveBufferLocked : Action (Bytes × Option Nat) := do
  let canonical ← canonicalBufferLocked fault network target fold
  let id ← bufferID fault network canonical false
  pure (canonical, id)

def archiveBufferFolded : Action Bytes := do
  let canonical ← canonicalBufferLocked fault network target fold
  let store ← get
  execute fault .archiveBuffer (store.db.archiveBuffer network canonical)
  pure canonical

/-- The last critical section of `DeleteBufferFolded`. -/
def deleteBufferRow (key : Bytes × Bytes) (id : Nat) : Action Unit := do
  let store ← get
  execute fault .deleteBuffer (store.db.deleteBuffer id)
  modify fun store => store.dropRing id
  modify fun store => { store with buffers := store.buffers.erase key }

/-- The last critical section of `DeleteNetworkWithSettings`. -/
def deleteNetworkRow (name : Bytes) (settings : List (Bytes × Bytes)) :
    Action Unit := do
  attempt fault .begin
  attempt fault .deleteConfig
  attempt fault .deleteNetwork
  attemptWhen fault (settings ≠ []) .upsertSetting
  let store ← get
  execute fault .commit
    (settings.foldl Tables.upsertSetting ((store.db.deleteConfig name).deleteNetwork name))
  modify fun store => store.dropNetworkCaches name

/-- The first critical section of `DeleteNetworkByPageID`. -/
def resolvePage (rowid : Nat) : Action (Option Nat) := do
  if rowid = 0 then throw (.message "store: invalid network recovery id")
  else
    attempt fault .selectNetwork
    let store ← get
    pure ((store.db.pageName rowid).bind store.db.networkId)

/-- The last critical section of `DeleteNetworkByPageID`. -/
def deletePageRow (rowid : Nat) : Action Unit := do
  attempt fault .begin
  attempt fault .deleteNetwork
  attempt fault .deleteConfig
  let store ← get
  match store.db.pageName rowid with
  | none => throw (.message "store: network recovery row not found")
  | some name =>
    let configs := store.db.configs.filter fun row => row.rowid ≠ rowid
    execute fault .commit ({ store.db.toTables with configs := configs }.deleteNetwork name)
    modify fun store => store.dropAllCaches

/-! ### Purges in flight -/

/-- Where a purge stands: about to delete a chunk, to drop what the caches hold, or to delete the
row. One that closes a buffer carries the name it will evict, one that deletes a network the
settings it will write. -/
inductive Purge
  | idle
  | bufferChunks (close : Option (Bytes × Bytes)) (id deleted : Nat)
  | bufferRing (close : Option (Bytes × Bytes)) (id : Nat) (failed : Bool)
  | bufferRow (key : Bytes × Bytes) (id : Nat)
  | networkChunks (delete : Option (List (Bytes × Bytes))) (name : Bytes) (id deleted : Nat)
  | networkCaches (delete : Option (List (Bytes × Bytes))) (name : Bytes) (id : Nat) (failed : Bool)
  | networkRow (name : Bytes) (settings : List (Bytes × Bytes))
  | pageChunks (rowid id deleted : Nat)
  | pageCaches (rowid : Nat) (failed : Bool)
  | pageRow (rowid : Nat)
deriving DecidableEq

namespace Purge

/-- A buffer is resolved: `PurgeBufferMessages`, or `DeleteBufferFolded` when it closes. -/
def ofBuffer (close : Bool) (network : Bytes) : Except StoreError (Bytes × Option Nat) → Purge
  | .ok (canonical, some id) =>
    .bufferChunks (if close then some (network, canonical) else none) id 0
  | _ => .idle

/-- A network is resolved: `PurgeNetworkMessages`, or `DeleteNetworkWithSettings` when it
deletes. A network without a row has nothing to purge. -/
def ofNetwork (delete : Option (List (Bytes × Bytes))) (name : Bytes) :
    Except StoreError (Option Nat) → Purge
  | .ok (some id) => .networkChunks delete name id 0
  | .ok none => delete.elim .idle (.networkRow name)
  | .error _ => .idle

/-- A recovery row is resolved: `DeleteNetworkByPageID`. -/
def ofPage (rowid : Nat) : Except StoreError (Option Nat) → Purge
  | .ok (some id) => .pageChunks rowid id 0
  | .ok none => .pageRow rowid
  | .error _ => .idle

/-- After a turn of `deleteChunked`. -/
def turned (turn : ChunkEnd) (again : Nat → Purge) (done : Bool → Purge) : Purge :=
  match turn with
  | .again deleted => again deleted
  | .done _ failed => done failed

/-- After `purgeBufferMessages`. -/
def ringDropped (close : Option (Bytes × Bytes)) (id : Nat) (failed : Bool) : Purge :=
  if failed then .idle else close.elim .idle fun key => .bufferRow key id

/-- After `PurgeNetworkMessages`. -/
def cachesDropped (delete : Option (List (Bytes × Bytes))) (name : Bytes) (failed : Bool) : Purge :=
  if failed then .idle else delete.elim .idle (.networkRow name)

end Purge

/-- The rows one turn of `deleteChunked` without a guard deletes. -/
abbrev PurgeChunk (chunk : Nat) (matching : Tables → List MessageRow) :=
  DeleteChunk chunk (fun _ => true) matching

/-- One critical section: an append, a replaced definition, or the next section of a purge. -/
inductive Act (chunk : Nat) (store : Store) : Purge → Store → Purge → Prop
  | append (fault vetoFault : Fault) (now : Int) (network target : Bytes) (message : Message)
      (opts : AppendOpts) :
      Act chunk store .idle
        (final (append fault vetoFault now network target message opts) store) .idle
  | replace (fault : Fault) (oldName name config : Bytes) (settings : List (Bytes × Bytes)) :
      Act chunk store .idle
        (final (replaceNetworkConfigWithSettings fault oldName name config settings) store)
        .idle
  | resolveBuffer (close : Bool) (fault : Fault) (network target : Bytes)
      (fold : Option (Bytes → Bytes)) :
      Act chunk store .idle (final (resolveBufferLocked fault network target fold) store)
        (.ofBuffer close network (exec (resolveBufferLocked fault network target fold) store).1)
  | bufferChunk {close : Option (Bytes × Bytes)} {id deleted : Nat} {next : Store} {turn : ChunkEnd}
      (deletes : PurgeChunk chunk (fun tables => tables.rowsOf id) deleted store next turn) :
      Act chunk store (.bufferChunks close id deleted) next
        (.turned turn (.bufferChunks close id) (.bufferRing close id))
  | bufferRing (close : Option (Bytes × Bytes)) (id : Nat) (failed : Bool) :
      Act chunk store (.bufferRing close id failed) (store.dropRing id)
        (.ringDropped close id failed)
  | bufferRow (fault : Fault) (key : Bytes × Bytes) (id : Nat) :
      Act chunk store (.bufferRow key id) (final (deleteBufferRow fault key id) store) .idle
  | resolveNetwork (delete : Option (List (Bytes × Bytes))) (fault : Fault) (name : Bytes) :
      Act chunk store .idle (final (networkID fault name false) store)
        (.ofNetwork delete name (exec (networkID fault name false) store).1)
  | networkChunk {delete : Option (List (Bytes × Bytes))} {name : Bytes} {id deleted : Nat}
      {next : Store} {turn : ChunkEnd}
      (deletes : PurgeChunk chunk (fun tables => tables.rowsOfNetwork id) deleted store next
        turn) :
      Act chunk store (.networkChunks delete name id deleted) next
        (.turned turn (.networkChunks delete name id) (.networkCaches delete name id))
  | networkCaches (delete : Option (List (Bytes × Bytes))) (name : Bytes) (id : Nat)
      (failed : Bool) :
      Act chunk store (.networkCaches delete name id failed) (store.dropNetworkCaches name)
        (.cachesDropped delete name failed)
  | networkRow (fault : Fault) (name : Bytes) (settings : List (Bytes × Bytes)) :
      Act chunk store (.networkRow name settings)
        (final (deleteNetworkRow fault name settings) store) .idle
  | resolvePage (fault : Fault) (rowid : Nat) :
      Act chunk store .idle (final (resolvePage fault rowid) store)
        (.ofPage rowid (exec (resolvePage fault rowid) store).1)
  | pageChunk {rowid id deleted : Nat} {next : Store} {turn : ChunkEnd}
      (deletes : PurgeChunk chunk (fun tables => tables.rowsOfNetwork id) deleted store next
        turn) :
      Act chunk store (.pageChunks rowid id deleted) next
        (.turned turn (.pageChunks rowid id) (.pageCaches rowid))
  | pageCaches (rowid : Nat) (failed : Bool) :
      Act chunk store (.pageCaches rowid failed) store.dropAllCaches
        (if failed then .idle else .pageRow rowid)
  | pageRow (fault : Fault) (rowid : Nat) :
      Act chunk store (.pageRow rowid) (final (deletePageRow fault rowid) store) .idle

structure World where
  store : Store
  purges : Nat → Purge

def World.opened : World := ⟨store, fun _ => .idle⟩

/-- The operation `t` takes its next critical section. -/
def StepOf (chunk t : Nat) (w w' : World) : Prop :=
  ∃ next purge, Act chunk w.store (w.purges t) next purge ∧
    w' = ⟨next, Function.update w.purges t purge⟩

def Steps (chunk : Nat) (w w' : World) : Prop := ∃ t, StepOf chunk t w w'

end Ircthing.Store
