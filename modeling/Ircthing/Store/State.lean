/-
This file models the store itself: the database, the caches of row ids, the hot rings with their
byte budget, and the internal functions every public operation goes through. Every statement sent to
SQLite may fail; which ones do is a parameter of each program, and a program that fails keeps what
it had already done, as the source does.
-/

import Ircthing.Library.Dict
import Ircthing.Library.Effect
import Ircthing.Store.Ring

namespace Ircthing

open Library Effect

namespace Store

/-! ### State -/

def maxBuffersPerNetwork : Nat := 4096

def maxNetworkNameBytes : Nat := 300

def maxStoredFieldBytes : Nat := 512

def maxStoredMessageBytes : Nat := 16384

structure RetentionPolicy where
  days : Nat := 0
  maxPerBuffer : Nat := 0
deriving DecidableEq

end Store

open Store in
structure Store where
  db : Database
  ringSize : Nat
  maxRingBytes : Nat
  retention : RetentionPolicy := {}
  networks : Dict Bytes Nat := ∅
  buffers : Dict (Bytes × Bytes) Nat := ∅
  rings : Dict Nat Ring := ∅
  ringBytes : Int := 0
  accessSeq : Nat := 0
deriving DecidableEq

namespace Store

variable {post : Unit → Store → Prop} {store : Store}

def fresh (ringSize maxRingBytes : Nat) : Store :=
  { db := Database.empty, ringSize := ringSize, maxRingBytes := maxRingBytes }

inductive Statement
  | selectNetwork | insertNetwork
  | selectBuffer | countBuffers | insertBuffer | scanBufferNames
  | warmRing | queryPage
  | begin | insertMessage | settleArchived | commit
  | selectRedactable | deleteIndexed | scrub
  | selectMsgid | selectPlaceholder | stampMsgid
  | selectBufferIds | selectKept | deleteChunk
  | deleteBuffer | archiveBuffer
  | selectConfigs | upsertConfig | deleteConfig | deleteNetwork | renameNetwork | upsertSetting
deriving DecidableEq

/-- What a failed operation reports: a text of the store, the refusal `network %q already has stored
history` of a rename, or the error of a statement. -/
inductive StoreError
  | message (text : String)
  | storedHistory (name : Bytes)
  | statement (failed : Statement)
deriving DecidableEq

abbrev Fault := Statement → Bool

variable {fault : Fault} {statement : Statement} {failed : StoreError → Store → Prop}

def noFault : Fault := fun _ => false

abbrev Action := Effect StoreError Store

variable (fault) (statement)

def attempt : Action Unit :=
  if fault statement then throw (.statement statement) else pure ()

def attemptWhen (needed : Bool) (statement : Statement) : Action Unit :=
  if needed then attempt fault statement else pure ()

/-- Run a statement that leaves the given tables. It fails on its own when they break a
constraint. -/
def execute (tables : Tables) : Action Unit := do
  attempt fault statement
  match Database.write tables with
  | some db => modify fun store => { store with db := db }
  | none => throw (.statement statement)

variable {fault} {statement}

theorem wp_attempt (failure : fault statement = true → failed (.statement statement) store)
    (success : post () store) : wp (attempt fault statement) post failed store := by
  unfold attempt
  split
  next fails =>
    exact failure fails
  · exact success

theorem wp_attempt_bind {Value : Type} {rest : Unit → Action Value} {post : Value → Store → Prop}
    (failure : fault statement = true → failed (.statement statement) store)
    (success : wp (rest ()) post failed store) :
    wp (attempt fault statement >>= rest) post failed store := by
  rw [wp_bind]
  exact wp_attempt failure success

theorem wp_attemptWhen {needed : Bool}
    (failure : fault statement = true → failed (.statement statement) store)
    (success : post () store) : wp (attemptWhen fault needed statement) post failed store := by
  unfold attemptWhen
  split
  · exact wp_attempt failure success
  · exact success

theorem wp_execute {tables : Tables} (failure : failed (.statement statement) store)
    (success : ∀ db : Database, db.toTables = tables → post () { store with db := db }) :
    wp (execute fault statement tables) post failed store := by
  unfold execute
  refine wp_attempt_bind (fun _ => failure) ?_
  split
  next db written =>
    exact success db (Database.write_eq_some written)
  · exact failure

/-! ### Row ids -/

variable (fault)

def networkID (network : Bytes) (create : Bool) : Action (Option Nat) := do
  let store ← get
  match store.networks.lookup network with
  | some id => pure (some id)
  | none =>
    attempt fault .selectNetwork
    match store.db.networkId network with
    | some id =>
      modify fun store => { store with networks := store.networks.insert network id }
      pure (some id)
    | none =>
      if create then
        let id := nextId (store.db.networks.map (·.id))
        execute fault .insertNetwork
          { store.db.toTables with networks := store.db.networks ++ [⟨id, network⟩] }
        modify fun store => { store with networks := store.networks.insert network id }
        pure (some id)
      else pure none

variable (store)

def addRing (id : Nat) : Store :=
  { store with rings := store.rings.insert id { Ring.new store.ringSize with complete := true } }

/-- The insertion of `bufferID`: the row, its ring and the cached id. -/
def createBuffer (netID : Nat) (network target : Bytes) :
    Action (Option Nat) := do
  let store ← get
  attempt fault .countBuffers
  let active := store.db.buffers.filter fun row => row.networkId = netID ∧ row.archived = false
  if active.length ≥ maxBuffersPerNetwork then pure none
  else
    let id := nextId (store.db.buffers.map (·.id))
    execute fault .insertBuffer
      { store.db.toTables with buffers := store.db.buffers ++ [⟨id, netID, target, false⟩] }
    modify fun store => store.addRing id
    modify fun store => { store with buffers := store.buffers.insert (network, target) id }
    pure (some id)

variable (network target : Bytes) (create : Bool)

def bufferID : Action (Option Nat) := do
  let store ← get
  match store.buffers.lookup (network, target) with
  | some id => pure (some id)
  | none =>
    match ← networkID fault network create with
    | none => pure none
    | some netID =>
      attempt fault .selectBuffer
      let store ← get
      match store.db.bufferId netID target with
      | some id =>
        modify fun store => { store with buffers := store.buffers.insert (network, target) id }
        pure (some id)
      | none => if create then createBuffer fault netID network target else pure none

/-- The scan behind `canonicalLocked` and `canonicalBufferLocked`: the first stored name that
folds like the target. -/
def Tables.foldedName (tables : Tables) (network target : Bytes) (fold : Bytes → Bytes) :
    Option Bytes :=
  (tables.bufferNamesOf network).find? fun name => fold name == fold target

def canonicalLocked (fold : Option (Bytes → Bytes)) :
    Action (Bytes × Bool) := do
  let store ← get
  match store.buffers.lookup (network, target), fold with
  | some _, _ => pure (target, true)
  | none, none => pure (target, false)
  | none, some fold =>
    attempt fault .scanBufferNames
    match store.db.foldedName network target fold with
    | some name => pure (name, true)
    | none => pure (target, false)

/-! ### Rings -/

def updateRing (id : Nat) (operation : Ring → Ring × Int) : Store :=
  match store.rings.lookup id with
  | some ring =>
    { store with
      rings := store.rings.insert id (operation ring).1
      ringBytes := store.ringBytes + (operation ring).2 }
  | none => store

def touchRing (id : Nat) : Store :=
  match store.rings.lookup id with
  | some ring =>
    { store with
      accessSeq := store.accessSeq + 1
      rings := store.rings.insert id { ring with lastUsed := store.accessSeq + 1 } }
  | none => store

variable (keep : Nat)

/-- One turn of the scan of `evictRings`: the ring in use is passed over. -/
def olderRing (best : Option (Nat × Ring)) (entry : Sigma fun _ : Nat => Ring) :
    Option (Nat × Ring) :=
  if entry.1 = keep then best
  else
    match best with
    | none => some (entry.1, entry.2)
    | some (id, ring) =>
      if entry.2.lastUsed < ring.lastUsed then some (entry.1, entry.2) else some (id, ring)

def victim : Option (Nat × Ring) :=
  store.rings.entries.foldl (olderRing keep) none

/-- The loop of `evictRings`. Every turn but the last one removes a ring. -/
def evictLoop (keep : Nat) : Nat → Store → Store
  | 0, store => store
  | fuel + 1, store =>
    if store.ringBytes > store.maxRingBytes then
      match store.victim keep with
      | none => store.updateRing keep fun ring => ring.trimToBytes store.maxRingBytes
      | some (id, ring) =>
        evictLoop keep fuel
          { store with
            ringBytes := store.ringBytes - ring.bytes
            rings := store.rings.erase id }
    else store

def evictRings : Store :=
  evictLoop keep (store.rings.entries.length + 1) store

def MessageRow.message (row : MessageRow) (network target : Bytes) : Message :=
  { id := row.id
    network := network
    target := target
    time := ofUnixMilli row.ts
    msgID := row.msgid.getD []
    sender := row.sender
    command := row.command
    raw := row.raw
    redacted := row.redacted
    redactReason := row.redactReason.getD [] }

/-- The loop of `warmRingScan`: stop at the row that reaches the byte budget. -/
def warmScan (budget : Nat) : Nat → List Message → List Message × Bool
  | _, [] => ([], false)
  | bytes, message :: rest =>
    if budget ≤ bytes + msgBytes message then ([message], true)
    else
      let scanned := warmScan budget (bytes + msgBytes message) rest
      (message :: scanned.1, scanned.2)

/-- `warmLimit` of `bufferAndRing`. -/
def warmLimit : Nat :=
  min (store.ringSize + 1) (store.maxRingBytes / msgOverhead + 1)

def warmRingScan (id limit : Nat) : List Message × Bool :=
  warmScan store.maxRingBytes 0
    (((Tables.newestFirst (store.db.rowsOf id)).take limit).map (·.message network target))

/-- The ring `bufferAndRing` warms from disk. -/
def warmedRing (id : Nat) : Ring :=
  let scanned := store.warmRingScan network target id store.warmLimit
  let msgs := scanned.1.reverse
  if msgs.length < store.warmLimit ∧ scanned.2 = false then
    { Ring.new store.ringSize with complete := true }.adopt msgs
  else if msgs.length > store.ringSize then (Ring.new store.ringSize).adopt (msgs.drop 1)
  else (Ring.new store.ringSize).adopt msgs

/-- The rest of `bufferAndRing` after the scan. -/
def warm (id : Nat) : Store :=
  let ring := store.warmedRing network target id
  let installed :=
    { store with
      rings := store.rings.insert id ring
      ringBytes := store.ringBytes + ring.bytes }
  (installed.touchRing id).evictRings id

def bufferAndRing :
    Action (Option Nat) := do
  match ← bufferID fault network target create with
  | none => pure none
  | some id =>
    let store ← get
    match store.rings.lookup id with
    | some _ =>
      modify fun store => store.touchRing id
      pure (some id)
    | none =>
      attempt fault .warmRing
      modify fun store => store.warm network target id
      pure (some id)

end Store

end Ircthing
