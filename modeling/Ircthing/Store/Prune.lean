/-
This file models the retention pruner and the change of its policy. `DeleteChunk` is one turn of
`deleteChunked`: the guard is asked, the statement may fail, and any of the matching rows may go, up
to the chunk size.
-/

import Ircthing.Store.History

namespace Ircthing.Store

open Library

/-! ### The policy -/

def maxRetentionDays : Int := 36500

def maxRetentionMessages : Int := 1000000000

def validateRetention (days maxMessages : Int) : Except StoreError RetentionPolicy :=
  if days < 0 ∨ days > maxRetentionDays ∨ maxMessages < 0 ∨ maxMessages > maxRetentionMessages then
    .error (.message "store: retention out of range (days 0..36500, messages 0..1000000000)")
  else .ok ⟨days.toNat, maxMessages.toNat⟩

variable (tables : Tables)

/-- `INSERT INTO settings ... ON CONFLICT key DO UPDATE`. -/
def Tables.upsertSetting (setting : Bytes × Bytes) : Tables :=
  { tables with
    settings :=
      if setting.1 ∈ tables.settings.map (·.1) then
        tables.settings.map fun row => if row.1 = setting.1 then setting else row
      else tables.settings ++ [setting] }

def setSettings (fault : Fault) (settings : List (Bytes × Bytes)) : Action Unit := do
  attempt fault .begin
  attempt fault .upsertSetting
  let store ← get
  execute fault .commit (settings.foldl Tables.upsertSetting store.db.toTables)

/-- The first critical section of `SetRetention`: validate and persist. -/
def persistRetention (fault : Fault) (days maxPerBuffer : Int) : Action RetentionPolicy := do
  match validateRetention days maxPerBuffer with
  | .error reason => throw reason
  | .ok policy =>
    setSettings fault
      [(lit "retention_days", lit (toString policy.days)),
        (lit "retention_max_messages", lit (toString policy.maxPerBuffer))]
    pure policy

/-- The second critical section of `SetRetention`: install the policy. -/
def installRetention (store : Store) (policy : RetentionPolicy) : Store :=
  { store with retention := policy }

/-! ### Deleting in chunks -/

/-- `DELETE FROM messages WHERE id IN (...)`. -/
def Tables.deleteMessages (victims : List Nat) : Tables :=
  { tables with messages := tables.messages.filter fun row => row.id ∉ victims }

/-- The ids a `SELECT id ... LIMIT chunk` may return for the matching rows: the query has no
order, so any of them, as many as the limit allows. -/
structure Picks (chunk : Nat) (matching : List MessageRow) (victims : List Nat) : Prop where
  distinct : victims.Nodup
  some_match : ∀ id ∈ victims, id ∈ matching.map (·.id)
  full : victims.length = min chunk matching.length

/-- How a turn of `deleteChunked` ends: with the loop, after so many rows and possibly with an
error, or with another turn to come. -/
inductive ChunkEnd
  | done (deleted : Nat) (failed : Bool)
  | again (deleted : Nat)
deriving DecidableEq

/-- One turn of `deleteChunked`, with the rows deleted by the earlier ones. -/
inductive DeleteChunk (chunk : Nat) (guard : Store → Bool)
    (matching : Tables → List MessageRow) (deleted : Nat) (store : Store) :
    Store → ChunkEnd → Prop
  | bail (refuses : guard store = false) :
      DeleteChunk chunk guard matching deleted store store (.done deleted false)
  | fail (allows : guard store = true) :
      DeleteChunk chunk guard matching deleted store store (.done deleted true)
  | last {victims : List Nat} {db : Database} (allows : guard store = true)
      (picks : Picks chunk (matching store.db.toTables) victims)
      (written : db.toTables = store.db.deleteMessages victims)
      (short : victims.length < chunk) :
      DeleteChunk chunk guard matching deleted store { store with db := db }
        (.done (deleted + victims.length) false)
  | more {victims : List Nat} {db : Database} (allows : guard store = true)
      (picks : Picks chunk (matching store.db.toTables) victims)
      (written : db.toTables = store.db.deleteMessages victims)
      (full : chunk ≤ victims.length) :
      DeleteChunk chunk guard matching deleted store { store with db := db }
        (.again (deleted + victims.length))
  | cancelled {victims : List Nat} {db : Database} (allows : guard store = true)
      (picks : Picks chunk (matching store.db.toTables) victims)
      (written : db.toTables = store.db.deleteMessages victims)
      (full : chunk ≤ victims.length) :
      DeleteChunk chunk guard matching deleted store { store with db := db }
        (.done (deleted + victims.length) true)

def pruneChunk : Nat := 200

/-! ### Pruning by age and by count -/

/-- The cutoff of `pruneByAge`, in milliseconds. -/
def ageCutoff (now : Int) (days : Nat) : Int := unixMilli (now - days * (24 * 3600 * 10 ^ 9))

/-- `ageGuard`: the live window is on and not wider than the one being enforced. -/
def ageGuard (now : Int) (days : Nat) (store : Store) : Bool :=
  store.retention.days ≠ 0 && ageCutoff now days ≤ ageCutoff now store.retention.days

/-- `countGuard`: the live cap is on and not larger than the one being enforced. -/
def countGuard (maxPer : Nat) (store : Store) : Bool :=
  store.retention.maxPerBuffer > 0 && store.retention.maxPerBuffer ≤ maxPer

/-- `SELECT id FROM messages WHERE ts < ?`. -/
def Tables.olderThan (cutoff : Int) (tables : Tables) : List MessageRow :=
  tables.messages.filter fun row => row.ts < cutoff

/-- `SELECT id FROM messages WHERE buffer_id = ? AND (ts < ? OR (ts = ? AND id < ?))`. -/
def Tables.olderIn (buffer : Nat) (keep : Cursor) (tables : Tables) : List MessageRow :=
  (tables.rowsOf buffer).filter fun row => cursorLess row.cursor keep

/-- The last row `pruneByCount` keeps: the `maxPer`-th newest. -/
def Tables.lastKept (buffer maxPer : Nat) : Option MessageRow :=
  (newestFirst (tables.rowsOf buffer))[maxPer - 1]?

/-- Where `pruneOnce` stands. The cutoff carried along is `appliedCutoff`, zero until an age pass
reached the disk. -/
inductive Pruner
  | idle
  | byAge (now : Int) (days maxPer deleted : Nat)
  | listing (cutoff : Int) (maxPer : Nat)
  | checking (cutoff : Int) (maxPer : Nat) (buffers : List Nat) (deleted : Nat)
  | choosing (cutoff : Int) (maxPer buffer : Nat) (buffers : List Nat) (deleted : Nat)
  | byCount (cutoff : Int) (maxPer buffer : Nat) (keep : Cursor) (buffers : List Nat)
      (deleted : Nat)
  | reconciling (cutoff : Int) (maxPer : Nat)
deriving DecidableEq

namespace Pruner

variable (cutoff : Int)

def afterAge (maxPer : Nat) : Pruner :=
  if maxPer > 0 then listing cutoff maxPer else reconciling cutoff 0

def begin (now : Int) (policy : RetentionPolicy) : Pruner :=
  if policy.days > 0 then byAge now policy.days policy.maxPerBuffer 0
  else afterAge 0 policy.maxPerBuffer

def ageTurn (now : Int) (days maxPer : Nat) : ChunkEnd → Pruner
  | .again deleted => byAge now days maxPer deleted
  | .done deleted failed =>
    let applied := if deleted > 0 ∨ failed = false then ageCutoff now days else 0
    if failed then reconciling applied 0 else afterAge applied maxPer

def countFailed (maxPer deleted : Nat) : Pruner :=
  reconciling cutoff (if deleted > 0 then maxPer else 0)

def countTurn (maxPer buffer : Nat) (keep : Cursor) (buffers : List Nat) : ChunkEnd → Pruner
  | .again deleted => byCount cutoff maxPer buffer keep buffers deleted
  | .done deleted failed =>
    if failed then countFailed cutoff maxPer deleted else checking cutoff maxPer buffers deleted

end Pruner

def reconcileRings (store : Store) (appliedCutoff : Int) (appliedMax : Nat) : Store :=
  if appliedCutoff ≤ 0 ∧ appliedMax = 0 then store
  else
    { store with
      rings := store.rings.mapValues fun ring => (ring.applyRetention appliedCutoff appliedMax).1
      ringBytes := store.ringBytes + (store.rings.entries.map fun entry =>
        (entry.2.applyRetention appliedCutoff appliedMax).2).sum }

/-- One critical section of `pruneOnce`. -/
inductive PruneStep (chunk : Nat) : Store → Pruner → Store → Pruner → Prop
  | start (store : Store) (now : Int) :
      PruneStep chunk store .idle store (.begin now store.retention)
  | age {store next : Store} {now : Int} {days maxPer deleted : Nat} {turn : ChunkEnd}
      (deletes : DeleteChunk chunk (ageGuard now days) (Tables.olderThan (ageCutoff now days))
        deleted store next turn) :
      PruneStep chunk store (.byAge now days maxPer deleted) next (.ageTurn now days maxPer turn)
  | list {store : Store} {cutoff : Int} {maxPer : Nat} {buffers : List Nat}
      (all : buffers.Perm (store.db.buffers.map (·.id))) :
      PruneStep chunk store (.listing cutoff maxPer) store (.checking cutoff maxPer buffers 0)
  | listFailed {store : Store} {cutoff : Int} {maxPer : Nat} :
      PruneStep chunk store (.listing cutoff maxPer) store (.reconciling cutoff 0)
  | checked {store : Store} {cutoff : Int} {maxPer buffer deleted : Nat} {buffers : List Nat}
      (allows : countGuard maxPer store = true) :
      PruneStep chunk store (.checking cutoff maxPer (buffer :: buffers) deleted) store
        (.choosing cutoff maxPer buffer buffers deleted)
  | stopped {store : Store} {cutoff : Int} {maxPer deleted : Nat} {buffers : List Nat}
      (ends : buffers = [] ∨ countGuard maxPer store = false) :
      PruneStep chunk store (.checking cutoff maxPer buffers deleted) store
        (.reconciling cutoff maxPer)
  | skip {store : Store} {cutoff : Int} {maxPer buffer deleted : Nat} {buffers : List Nat}
      (few : store.db.lastKept buffer maxPer = none) :
      PruneStep chunk store (.choosing cutoff maxPer buffer buffers deleted) store
        (.checking cutoff maxPer buffers deleted)
  | choose {store : Store} {cutoff : Int} {maxPer buffer deleted : Nat} {buffers : List Nat}
      {row : MessageRow} (kept : store.db.lastKept buffer maxPer = some row) :
      PruneStep chunk store (.choosing cutoff maxPer buffer buffers deleted) store
        (.byCount cutoff maxPer buffer row.cursor buffers deleted)
  | chooseFailed {store : Store} {cutoff : Int} {maxPer buffer deleted : Nat}
      {buffers : List Nat} :
      PruneStep chunk store (.choosing cutoff maxPer buffer buffers deleted) store
        (.countFailed cutoff maxPer deleted)
  | count {store next : Store} {cutoff : Int} {maxPer buffer deleted : Nat} {keep : Cursor}
      {buffers : List Nat} {turn : ChunkEnd}
      (deletes : DeleteChunk chunk (countGuard maxPer) (Tables.olderIn buffer keep) deleted store
        next turn) :
      PruneStep chunk store (.byCount cutoff maxPer buffer keep buffers deleted) next
        (.countTurn cutoff maxPer buffer keep buffers turn)
  | reconcile {store : Store} {cutoff : Int} {maxPer : Nat} :
      PruneStep chunk store (.reconciling cutoff maxPer) (store.reconcileRings cutoff maxPer) .idle

end Ircthing.Store
