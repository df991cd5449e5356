/-
This file models which row a purging `close_buffer` deletes, and proves when a client can close a
buffer that it was told of. Names are validated on the way back, but not on the way in.
-/

import Ircthing.Golang.Json
import Ircthing.Hub.Redaction
import Ircthing.Store.Caches

namespace Ircthing.Hub

open Library Effect Store List Json

def validCloseBuffer (name : Bytes) : Bool :=
  if name = [] ∨ name.length > 512 ∨ validString name = false then false
  else (runes name).all fun rune => !(isSpace rune.1 || isControl rune.1)

inductive CloseReply
  | error (code text : String)
  | ok (canonical : Bytes)
deriving DecidableEq

/-- `handleCloseBuffer` with a purge and nothing in between. The chunks in which messages are
deleted first touch no row of a buffer, and the messages left go with the row. -/
def handleCloseBuffer (fault : Fault) (known : Bool) (fold : Bytes → Bytes)
    (network buffer : Bytes) : Store.Action CloseReply := do
  if network = [] ∨ buffer = [] then
    pure (.error "bad_request" "close_buffer needs a network and a buffer")
  else if validCloseBuffer buffer = false then pure (.error "bad_request" "invalid buffer name")
  else if known = false then pure (.error "unknown_network" "unknown network")
  else
    let (canonical, id) ← resolveBufferLocked fault network buffer (some fold)
    match id with
    | none => pure (.ok canonical)
    | some id =>
      deleteBufferRow fault (network, canonical) id
      pure (.ok canonical)

variable {store : Store} {network name : Bytes} {fold : Bytes → Bytes} {id : Nat}

theorem constraints_deleteBuffer (db : Database) : (db.deleteBuffer id).Constraints where
  networkIds := db.constraints.networkIds
  networkNames := db.constraints.networkNames
  bufferIds := db.constraints.bufferIds.sublist ((filter_sublist.trans filter_sublist).map _)
  bufferNames := db.constraints.bufferNames.sublist ((filter_sublist.trans filter_sublist).map _)
  bufferNetworks _ member := contains_iff_mem.mp (mem_filter.mp member).2
  messageIds := db.constraints.messageIds.sublist (filter_sublist.map _)
  messageMsgids := db.constraints.messageMsgids.sublist (filter_sublist.filterMap _)
  messageBuffers _ member := contains_iff_mem.mp (mem_filter.mp member).2
  configIds := db.constraints.configIds
  configNames := db.constraints.configNames
  settingKeys := db.constraints.settingKeys

theorem deleteBufferRow_deletes (store : Store) (key : Bytes × Bytes) (id : Nat) :
    wp (deleteBufferRow noFault key id)
      (fun _ next => next.db.toTables = store.db.deleteBuffer id) (fun _ _ => False) store := by
  have written : Database.write (store.db.deleteBuffer id) =
      some ⟨store.db.deleteBuffer id, constraints_deleteBuffer store.db⟩ := dif_pos _
  unfold deleteBufferRow execute
  rw [wp_bind, wp_get, wp_bind, written, wp_bind]
  refine wp_attempt nofun ?_
  rw [wp_modify, wp_bind, wp_modify, wp_modify]
  show (store.closed ⟨_, constraints_deleteBuffer store.db⟩ key id).db.toTables = _
  rw [closed_db]

/-- The id that a name has: the cached one, or that of the row under the id of the network, which
may be cached too. -/
def resolvedId (store : Store) (network name : Bytes) : Option Nat :=
  (store.buffers.lookup (network, name)).or
    (((store.networks.lookup network).or (store.db.networkId network)).bind
      (store.db.bufferId · name))

/-- The stored spelling of a name. -/
def storedName (store : Store) (fold : Bytes → Bytes) (network name : Bytes) : Bytes :=
  (store.db.foldedName network name fold).getD name

theorem bufferID_resolves :
    wp (bufferID noFault network name false)
      (fun found next => found = resolvedId store network name ∧ next.db = store.db)
      (fun _ _ => False) store := by
  unfold bufferID resolvedId
  rw [wp_bind, wp_get]
  cases store.buffers.lookup (network, name) with
  | some => exact ⟨rfl, rfl⟩
  | none =>
    have found : wp (networkID noFault network false)
        (fun found next => found = (store.networks.lookup network).or (store.db.networkId network) ∧
          next.db = store.db) (fun _ _ => False) store := by
      unfold networkID
      rw [wp_bind, wp_get]
      cases store.networks.lookup network with
      | some => exact ⟨rfl, rfl⟩
      | none =>
        refine wp_attempt_bind nofun ?_
        cases store.db.networkId network with
        | none | some => exact ⟨rfl, rfl⟩
    refine wp_seq found ?_ fun _ _ failed => failed
    rintro _ next ⟨rfl, kept⟩
    rw [Option.none_or]
    cases (store.networks.lookup network).or (store.db.networkId network) with
    | none => exact ⟨rfl, kept⟩
    | some netID =>
      refine wp_attempt_bind nofun ?_
      rw [wp_bind, wp_get, kept]
      cases looked : store.db.bufferId netID name with
      | none => exact ⟨looked.symm, kept⟩
      | some => exact ⟨looked.symm, kept⟩

theorem resolveBufferLocked_resolves (store : Store) (fold : Bytes → Bytes) (network name : Bytes) :
    wp (resolveBufferLocked noFault network name (some fold))
      (fun found next => found = (storedName store fold network name,
        resolvedId store network (storedName store fold network name)) ∧ next.db = store.db)
      (fun _ _ => False) store := by
  unfold resolveBufferLocked canonicalBufferLocked
  dsimp only
  rw [wp_bind, wp_bind]
  refine wp_attempt nofun ?_
  rw [wp_bind, wp_get, wp_pure]
  refine wp_seq bufferID_resolves ?_ fun _ _ failed => failed
  rintro _ next ⟨rfl, kept⟩
  exact ⟨rfl, kept⟩

/-- The request that names a buffer as it was delivered is accepted and deletes the row. -/
def Deletes (store : Store) (known : Bool) (fold : Bytes → Bytes) (network : Bytes)
    (row : BufferRow) : Prop :=
  wp (handleCloseBuffer noFault known fold (delivered network) (delivered row.name))
    (fun reply next => (∃ name, reply = .ok name) ∧ row.id ∉ next.db.buffers.map (·.id))
    (fun _ _ => False) store

variable {known : Bool} {row : BufferRow}

theorem deletes_iff (member : row ∈ store.db.buffers) :
    Deletes store known fold network row ↔
      network ≠ [] ∧ known = true ∧ validCloseBuffer (delivered row.name) = true ∧
        resolvedId store (delivered network)
          (storedName store fold (delivered network) (delivered row.name)) = some row.id := by
  have nameless : validCloseBuffer (delivered row.name) = true → delivered row.name ≠ [] := by
    rintro valid empty
    rw [empty] at valid
    cases valid
  unfold Deletes handleCloseBuffer
  split_ifs with unnamed invalid unknown
  · refine iff_of_false nofun fun holds => ?_
    exact unnamed.elim (holds.1 ∘ delivered_eq_nil.mp) (nameless holds.2.2.1)
  · exact iff_of_false nofun fun holds => by simp [invalid] at holds
  · exact iff_of_false nofun fun holds => by simp [unknown] at holds
  rw [not_or, delivered_eq_nil] at unnamed
  rw [Bool.not_eq_false] at invalid unknown
  rw [and_iff_right unnamed.1, and_iff_right unknown, and_iff_right invalid]
  obtain ⟨_, reached, resolved, rfl, kept⟩ := exists_of_wp
    (resolveBufferLocked_resolves store fold (delivered network) (delivered row.name))
  rw [wp_bind, wp, resolved]
  dsimp only
  cases resolvedId store (delivered network)
    (storedName store fold (delivered network) (delivered row.name)) with
  | none =>
    refine iff_of_false (fun gone => gone.2 ?_) nofun
    exact kept ▸ mem_map_of_mem member
  | some id =>
    obtain ⟨_, last, deleted, tables⟩ := exists_of_wp (deleteBufferRow_deletes reached
      (delivered network, storedName store fold (delivered network) (delivered row.name)) id)
    rw [wp_bind, wp, deleted]
    simp only [wp_pure, tables, mem_map, mem_deleteBuffer, kept, Option.some.injEq]
    constructor
    · rintro ⟨-, gone⟩
      by_contra other
      exact gone ⟨row, ⟨member, fun same => other same.symm⟩, rfl⟩
    · rintro rfl
      refine ⟨⟨_, rfl⟩, ?_⟩
      rintro ⟨_, ⟨_, other⟩, same⟩
      exact other same

theorem locate_storedName_iff (member : row ∈ store.db.buffers)
    (home : ⟨row.networkId, network⟩ ∈ store.db.networks) :
    store.db.locate (delivered network)
        (storedName store fold (delivered network) (delivered row.name)) = some row.id ↔
      validString network = true ∧
        store.db.foldedName network (delivered row.name) fold = some row.name := by
  have located (other name : Bytes) : store.db.locate other name = some row.id ↔
      other = network ∧ name = row.name := by
    rw [Database.locate_iff]
    constructor
    · rintro ⟨found, held, same, rfl, under⟩
      obtain rfl := inj_on_of_nodup_map store.db.constraints.bufferIds held member same
      have rows := inj_on_of_nodup_map store.db.constraints.networkIds under home rfl
      exact ⟨congrArg NetworkRow.name rows, rfl⟩
    · rintro ⟨rfl, rfl⟩
      exact ⟨row, member, rfl, rfl, home⟩
  rw [located, delivered_eq_iff]
  refine and_congr_right fun valid => ?_
  rw [storedName, delivered_of_valid valid]
  cases found : store.db.foldedName network (delivered row.name) fold with
  | some name => exact Option.some_inj.symm
  | none =>
    refine iff_of_false (fun same => ?_) nofun
    -- the row itself is among the names that are scanned
    have scanned : row.name ∈ store.db.bufferNamesOf network := mem_map.mpr
      ⟨row, mem_filter.mpr ⟨member, decide_eq_true (store.db.networkId_eq_some.mpr home)⟩, rfl⟩
    have differs := find?_eq_none.mp found _ scanned
    rw [Option.getD_none] at same
    simp [same] at differs

/-- A buffer row is deleted by the request that echoes its names as delivered if and only if the
network is known and named, the delivered name is valid and the stored spelling of it has the id of
the row. Where the caches agree with the tables on that spelling, it does if and only if the name of
the network is delivered as it is and the row is the first of the network that folds alike. -/
theorem listed_buffer_closes (store : Store) (known : Bool) (fold : Bytes → Bytes)
    (network : Bytes) (row : BufferRow) (member : row ∈ store.db.buffers)
    (home : ⟨row.networkId, network⟩ ∈ store.db.networks) :
    let name := storedName store fold (delivered network) (delivered row.name)
    (Deletes store known fold network row ↔ network ≠ [] ∧ known = true ∧
      validCloseBuffer (delivered row.name) = true ∧
      resolvedId store (delivered network) name = some row.id) ∧
    (resolvedId store (delivered network) name = store.db.locate (delivered network) name →
      (resolvedId store (delivered network) name = some row.id ↔ validString network = true ∧
        store.db.foldedName network (delivered row.name) fold = some row.name)) := by
  refine ⟨deletes_iff member, fun agrees => ?_⟩
  rw [agrees]
  exact locate_storedName_iff member home

theorem listed_buffer_closes_channel :
    Deletes (annSaid "#go").store true statusConn.fold (lit "libera")
      { id := 1, networkId := 1, name := lit "#go" } :=
  (listed_buffer_closes _ _ _ _ _ (by decide +kernel) (by decide +kernel)).1.mpr
    ⟨by decide, rfl, by decide +kernel, by decide +kernel⟩

/-- A message to a channel with a control character in its name creates a buffer of that name, and
no request closes it. -/
theorem control_name_not_closed :
    (annSaid "#go\x02").store.db.buffers.map (·.name) = [lit "#go\x02"] ∧
      (exec (handleCloseBuffer noFault true statusConn.fold (lit "libera")
          (delivered (lit "#go\x02"))) (annSaid "#go\x02").store).1 =
        .ok (.error "bad_request" "invalid buffer name") :=
  ⟨by decide +kernel, by decide +kernel⟩

end Ircthing.Hub
