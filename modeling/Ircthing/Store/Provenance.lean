/-
This file proves which rows a purge deletes. Every row is given a birth, a tick of a clock that
never comes back, and every message the births it was created under.
-/

import Ircthing.Store.Caches

namespace Ircthing.Store

open Library Effect List Function Relation

variable {first second purge purge' : Purge} {store : Store} {start tables : Tables} {chunk : Nat}
  {purges : Nat → Purge} {db : Database} {name network : Bytes} {fault : Fault}
  {settings : List (Bytes × Bytes)} {id : Nat} {create : Bool}

/-! ### Births -/

structure Births where
  clock : Nat
  network : Nat → Nat
  buffer : Nat → Nat × Nat
  message : Nat → Nat × Nat

variable {births : Births}

namespace Births

def ofTables (tables : Tables) : Births :=
  let buffer := fun id =>
    (id, ((tables.buffers.find? fun row => row.id = id).map (·.networkId)).getD 0)
  { clock := max (nextId (tables.networks.map (·.id))) (nextId (tables.buffers.map (·.id)))
    network := fun id => id
    buffer := buffer
    message := fun id =>
      ((tables.messages.find? fun row => row.id = id).map fun row => buffer row.bufferId).getD
        (0, 0) }

def record (births : Births) (before after : Tables) : Births :=
  let network := fun id =>
    if id ∈ before.networks.map (·.id) then births.network id
    else if id ∈ after.networks.map (·.id) then births.clock else births.network id
  let buffer := fun id =>
    if id ∈ before.buffers.map (·.id) then births.buffer id
    else ((after.buffers.find? fun row => row.id = id).map fun row =>
      (births.clock, network row.networkId)).getD (births.buffer id)
  { clock := births.clock + 1
    network := network
    buffer := buffer
    message := fun id =>
      if id ∈ before.messages.map (·.id) then births.message id
      else ((after.messages.find? fun row => row.id = id).map fun row =>
        buffer row.bufferId).getD (births.message id) }

variable {births : Births} {before after : Tables} {id : Nat}

theorem record_network (old : id ∈ before.networks.map (·.id)) :
    (births.record before after).network id = births.network id := if_pos old

theorem record_buffer (old : id ∈ before.buffers.map (·.id)) :
    (births.record before after).buffer id = births.buffer id := if_pos old

theorem record_message (old : id ∈ before.messages.map (·.id)) :
    (births.record before after).message id = births.message id := if_pos old

end Births

structure Told (births : Births) (tables : Tables) : Prop where
  buffers : ∀ row ∈ tables.buffers, (births.buffer row.id).2 = births.network row.networkId
  messages : ∀ row ∈ tables.messages, births.message row.id = births.buffer row.bufferId

theorem told_ofTables : Told (Births.ofTables db.toTables) db.toTables where
  buffers row member := by
    have found := (find?_key_eq_some db.constraints.bufferIds).mpr ⟨member, rfl⟩
    show ((db.buffers.find? fun other => other.id = row.id).map (·.networkId)).getD 0 = _
    rw [found]
    rfl
  messages row member := by
    have found := (find?_key_eq_some db.constraints.messageIds).mpr ⟨member, rfl⟩
    show ((db.messages.find? fun other => other.id = row.id).map _).getD (0, 0) = _
    rw [found]
    rfl

structure Evolves (before after : Tables) : Prop where
  buffers : ∀ row ∈ after.buffers, row.id ∈ before.buffers.map (·.id) →
    ∃ old ∈ before.buffers, old.id = row.id ∧ old.networkId = row.networkId
  messages : ∀ row ∈ after.messages, row.id ∈ before.messages.map (·.id) →
    ∃ old ∈ before.messages, old.id = row.id ∧ old.bufferId = row.bufferId

theorem Told.record {before after : Database}
    (told : Told births before.toTables) (evolves : Evolves before.toTables after.toTables) :
    Told (births.record before.toTables after.toTables) after.toTables where
  buffers row member := by
    by_cases old : row.id ∈ before.buffers.map (·.id)
    · obtain ⟨earlier, held, same, under⟩ := evolves.buffers row member old
      have network := before.constraints.bufferNetworks earlier held
      rw [Births.record_buffer old, ← under, Births.record_network network, ← same]
      exact told.buffers earlier held
    · have found := (find?_key_eq_some after.constraints.bufferIds).mpr ⟨member, rfl⟩
      show (if row.id ∈ before.buffers.map (·.id) then _ else _ : Nat × Nat).2 = _
      rw [if_neg old, found]
      rfl
  messages row member := by
    by_cases old : row.id ∈ before.messages.map (·.id)
    · obtain ⟨earlier, held, same, under⟩ := evolves.messages row member old
      have buffer := before.constraints.messageBuffers earlier held
      rw [Births.record_message old, ← under, Births.record_buffer buffer, ← same]
      exact told.messages earlier held
    · have found := (find?_key_eq_some after.constraints.messageIds).mpr ⟨member, rfl⟩
      show (if row.id ∈ before.messages.map (·.id) then _ else _ : Nat × Nat) = _
      rw [if_neg old, found]
      rfl

/-! ### Growing and shrinking tables -/

structure Grows (before after : Tables) : Prop where
  networks : ∀ row ∈ before.networks, row.id ∈ after.networks.map (·.id)
  buffers : ∀ row ∈ before.buffers,
    ∃ later ∈ after.buffers, later.id = row.id ∧ later.networkId = row.networkId
  messages : ∀ row ∈ before.messages, row ∈ after.messages

structure Shrinks (before after : Tables) : Prop where
  buffers : ∀ row ∈ after.buffers, row ∈ before.buffers
  messages : ∀ row ∈ after.messages, row ∈ before.messages

theorem Grows.refl (tables : Tables) : Grows tables tables where
  networks _ member := mem_map_of_mem member
  buffers row member := ⟨row, member, rfl, rfl⟩
  messages _ member := member

theorem Grows.trans {first second third : Tables} (one : Grows first second)
    (two : Grows second third) : Grows first third where
  networks row member := by
    obtain ⟨later, held, same⟩ := mem_map.mp (one.networks row member)
    rw [← same]
    exact two.networks later held
  buffers row member := by
    obtain ⟨later, held, same, under⟩ := one.buffers row member
    obtain ⟨last, kept, again, still⟩ := two.buffers later held
    exact ⟨last, kept, again.trans same, still.trans under⟩
  messages row member := two.messages row (one.messages row member)

theorem Grows.evolves {before : Tables} {after : Database} (grows : Grows before after.toTables) :
    Evolves before after.toTables where
  buffers row member old := by
    obtain ⟨earlier, held, same⟩ := mem_map.mp old
    obtain ⟨later, kept, again, under⟩ := grows.buffers earlier held
    have equal : later = row :=
      inj_on_of_nodup_map after.constraints.bufferIds kept member (again.trans same)
    exact ⟨earlier, held, same, by rw [← equal, under]⟩
  messages row member old := by
    obtain ⟨earlier, held, same⟩ := mem_map.mp old
    have equal : earlier = row :=
      inj_on_of_nodup_map after.constraints.messageIds (grows.messages earlier held) member same
    exact ⟨earlier, held, same, by rw [equal]⟩

theorem Shrinks.evolves {before after : Tables} (shrinks : Shrinks before after) :
    Evolves before after where
  buffers row member _ := ⟨row, shrinks.buffers row member, rfl, rfl⟩
  messages row member _ := ⟨row, shrinks.messages row member, rfl, rfl⟩

/-! ### What resolving and appending add -/

structure Widens (start : Tables) (store : Store) : Prop where
  grows : Grows start store.db.toTables
  names : store.NamesCoherent

theorem NamesCoherent.cache (coherent : store.NamesCoherent)
    (named : ⟨id, name⟩ ∈ store.db.networks) :
    NamesCoherent { store with networks := store.networks.insert name id } := by
  intro other found cached
  rw [Dict.lookup_insert_eq] at cached
  split at cached
  next same =>
    cases cached
    rw [same]
    exact named
  · exact coherent other found cached

theorem NetworkTurn.widens {next : Store} (turn : NetworkTurn network create store next)
    (widens : Widens start store) : Widens start next := by
  cases turn with
  | known => exact widens
  | cached found =>
    exact ⟨widens.grows, widens.names.cache (store.db.networkId_eq_some.mp found)⟩
  | @created db _ _ written =>
    have networks : ∀ row ∈ store.db.networks, row ∈ db.networks := fun row member => by
      rw [written]
      exact mem_append_left _ member
    have grows : Grows store.db.toTables db.toTables :=
      { networks := fun row member => mem_map_of_mem (networks row member)
        buffers := fun row member => ⟨row, by rw [written]; exact member, rfl, rfl⟩
        messages := fun row member => by rw [written]; exact member }
    have names : NamesCoherent { store with db := db } :=
      fun name id cached => networks _ (widens.names name id cached)
    refine ⟨widens.grows.trans grows, names.cache ?_⟩
    rw [written]
    exact mem_append_right _ mem_cons_self

theorem BufferTurn.widens {target : Bytes} {next : Store}
    (turn : BufferTurn network target create store next) (widens : Widens start store) :
    Widens start next := by
  cases turn with
  | resolved turn => exact turn.widens widens
  | cached turn => exact ⟨(turn.widens widens).grows, (turn.widens widens).names⟩
  | @created reached _ db turn _ _ _ _ written =>
    have reachedWidens := turn.widens widens
    have grows : Grows reached.db.toTables db.toTables :=
      { networks := fun row member => by rw [written]; exact mem_map_of_mem member
        buffers := fun row member =>
          ⟨row, by rw [written]; exact mem_append_left _ member, rfl, rfl⟩
        messages := fun row member => by rw [written]; exact member }
    refine ⟨reachedWidens.grows.trans grows, fun name id cached => ?_⟩
    show _ ∈ db.networks
    rw [written]
    exact reachedWidens.names name id cached

theorem widens_survives : Survives (Widens start) where
  bufferID widens fault network target create :=
    wp_mono bufferID_turn
      (fun _ _ looked => looked.1.widens widens) fun _ _ looked => looked.1.widens widens
  rings {store next} widens only := by
    refine ⟨by rw [only.db]; exact widens.grows, fun name id cached => ?_⟩
    rw [only.networks] at cached
    rw [only.db]
    exact widens.names name id cached
  appended {store buffer message db} widens appended := by
    obtain ⟨change, buffers, keeps⟩ := appended.buffers
    have grows : Grows store.db.toTables db.toTables :=
      { networks := fun row member => by
          rw [appended.networks]
          exact mem_map_of_mem member
        buffers := fun row member => by
          rw [buffers]
          exact ⟨change row, mem_map_of_mem member, (keeps row).1, (keeps row).2.1⟩
        messages := fun row member => by
          rw [appended.messages]
          exact mem_append_left _ member }
    refine ⟨widens.grows.trans grows, fun name id cached => ?_⟩
    rw [appended.networks]
    exact widens.names name id cached

/-! ### Origins -/

inductive Provenance
  | nothing
  | buffer (birth : Nat)
  | network (birth : Nat)
deriving DecidableEq

namespace Provenance

def Owns : Provenance → Nat × Nat → Prop
  | .nothing, _ => False
  | .buffer birth, home => home.1 = birth
  | .network birth, home => home.2 = birth

def OwnsNetwork : Provenance → Nat → Prop
  | .network birth, other => other = birth
  | _, _ => False

theorem OwnsNetwork.owns {origin : Provenance} {birth : Nat} {home : Nat × Nat}
    (owns : origin.OwnsNetwork birth) (inside : home.2 = birth) : origin.Owns home := by
  cases origin with
  | nothing | buffer => exact owns.elim
  | network => exact inside.trans owns

end Provenance

namespace Purge

def buffer? : Purge → Option Nat
  | .bufferChunks _ id _ | .bufferRing _ id _ | .bufferRow _ id => some id
  | _ => none

def network? : Purge → Option Nat
  | .networkChunks _ _ id _ | .networkCaches _ _ id _ => some id
  | _ => none

def name? : Purge → Option Bytes
  | .networkChunks (some _) name _ _ | .networkCaches (some _) name _ _ => some name
  | .networkRow name _ => some name
  | _ => none

def byPage : Purge → Bool
  | .pageChunks _ _ _ | .pageCaches _ _ | .pageRow _ => true
  | _ => false

end Purge

def Births.origin (births : Births) : Purge → Provenance
  | .bufferChunks _ id _ => .buffer (births.buffer id).1
  | .networkChunks _ _ id _ => .network (births.network id)
  | _ => .nothing

structure Held (births : Births) (origin : Provenance) (tables : Tables) (purge : Purge) :
    Prop where
  buffer : ∀ id, purge.buffer? = some id → id ∈ tables.buffers.map (·.id) →
    origin.Owns (births.buffer id)
  network : ∀ id, purge.network? = some id → id ∈ tables.networks.map (·.id) →
    origin.OwnsNetwork (births.network id)
  name : ∀ name, purge.name? = some name → ∀ row ∈ tables.networks, row.name = name →
    origin.OwnsNetwork (births.network row.id)

/-- While purges are in flight, no new buffer or network gets an id that one holds, and none comes
to bear a name one will delete. -/
structure Calm (purges : Nat → Purge) (before after : Tables) : Prop where
  buffers : ∀ t id, (purges t).buffer? = some id → id ∈ after.buffers.map (·.id) →
    id ∈ before.buffers.map (·.id)
  networks : ∀ t id, (purges t).network? = some id → id ∈ after.networks.map (·.id) →
    id ∈ before.networks.map (·.id)
  names : ∀ t name, (purges t).name? = some name → ∀ row ∈ after.networks, row.name = name →
    row ∈ before.networks

theorem Held.calm {origin : Provenance} {before after : Tables} {t : Nat}
    (held : Held births origin before (purges t)) (calm : Calm purges before after) :
    Held (births.record before after) origin after (purges t) where
  buffer id holds member := by
    have old := calm.buffers t id holds member
    rw [Births.record_buffer old]
    exact held.buffer id holds old
  network id holds member := by
    have old := calm.networks t id holds member
    rw [Births.record_network old]
    exact held.network id holds old
  name name holds row member named := by
    have old := calm.names t name holds row member named
    rw [Births.record_network (mem_map_of_mem old)]
    exact held.name name holds row old named

structure LetsGo (purge purge' : Purge) : Prop where
  buffer : ∀ id, purge'.buffer? = some id → purge.buffer? = some id
  network : ∀ id, purge'.network? = some id → purge.network? = some id
  name : ∀ name, purge'.name? = some name → purge.name? = some name

theorem Held.letsGo {origin : Provenance} (held : Held births origin tables purge)
    (less : LetsGo purge purge') :
    Held births origin tables purge' where
  buffer id holds := held.buffer id (less.buffer id holds)
  network id holds := held.network id (less.network id holds)
  name name holds := held.name name (less.name name holds)

theorem Act.letsGo {next : Store} (act : Act chunk store purge next purge')
    (started : purge ≠ .idle) : LetsGo purge purge' := by
  cases act with
  | append | replace | resolveBuffer | resolveNetwork | resolvePage => exact absurd rfl started
  | @bufferChunk close id deleted _ turn =>
    cases turn <;> exact ⟨fun _ holds => holds, nofun, nofun⟩
  | bufferRing close _ failed =>
    cases failed with
    | true => exact ⟨nofun, nofun, nofun⟩
    | false =>
      cases close with
      | none => exact ⟨nofun, nofun, nofun⟩
      | some => exact ⟨fun _ => id, nofun, nofun⟩
  | bufferRow | networkRow | pageRow => exact ⟨nofun, nofun, nofun⟩
  | @networkChunk delete name id deleted _ turn =>
    refine ⟨by cases turn <;> exact nofun, by cases turn <;> exact fun _ holds => holds, ?_⟩
    cases delete <;> cases turn <;> exact fun _ holds => holds
  | networkCaches delete _ _ failed =>
    cases failed with
    | true => exact ⟨nofun, nofun, nofun⟩
    | false =>
      cases delete with
      | none => exact ⟨nofun, nofun, nofun⟩
      | some => exact ⟨nofun, nofun, fun _ => id⟩
  | @pageChunk rowid id deleted _ turn => cases turn <;> exact ⟨nofun, nofun, nofun⟩
  | pageCaches _ failed => cases failed <;> exact ⟨nofun, nofun, nofun⟩

/-! ### What one critical section deletes -/

def Purge.Covers (purge : Purge) (tables : Tables) (buffer : BufferRow) : Prop :=
  purge.byPage = true ∨ purge.buffer? = some buffer.id ∨ purge.network? = some buffer.networkId ∨
    ∃ network ∈ tables.networks, network.id = buffer.networkId ∧ purge.name? = some network.name

structure Prunes (purge : Purge) (before after : Tables) : Prop extends Shrinks before after where
  lostBuffers : ∀ row ∈ before.buffers, row.id ∉ after.buffers.map (·.id) → purge.Covers before row
  lostMessages : ∀ row ∈ before.messages, row.id ∉ after.messages.map (·.id) →
    ∃ buffer ∈ before.buffers, buffer.id = row.bufferId ∧ purge.Covers before buffer

theorem Prunes.of_cascade {before : Database} {after : Tables}
    (shrinks : Shrinks before.toTables after)
    (kept : ∀ row ∈ before.messages, row.bufferId ∈ after.buffers.map (·.id) →
      row ∈ after.messages) (lost : ∀ row ∈ before.buffers, row.id ∉ after.buffers.map (·.id) →
      purge.Covers before.toTables row) :
    Prunes purge before.toTables after where
  toShrinks := shrinks
  lostBuffers := lost
  lostMessages row member gone := by
    obtain ⟨buffer, held, same⟩ :=
      mem_map.mp (before.constraints.messageBuffers row member)
    refine ⟨buffer, held, same, lost buffer held fun stays => gone ?_⟩
    exact mem_map_of_mem (kept row member (same ▸ stays))

theorem mem_cascade_messages {row : MessageRow} :
    row ∈ tables.cascade.messages ↔
      row ∈ tables.messages ∧ row.bufferId ∈ tables.cascade.buffers.map (·.id) := by
  unfold Tables.cascade
  rw [mem_filter, contains_iff_mem]

theorem mem_cascade_buffers {row : BufferRow} :
    row ∈ tables.cascade.buffers ↔
      row ∈ tables.buffers ∧ row.networkId ∈ tables.networks.map (·.id) := by
  unfold Tables.cascade
  rw [mem_filter, contains_iff_mem]

theorem deleteBuffer_prunes (key : Bytes × Bytes) :
    Prunes (.bufferRow key id) db.toTables (db.deleteBuffer id) := by
  refine .of_cascade ⟨fun row member => (mem_deleteBuffer.mp member).1,
    fun row member => (mem_cascade_messages.mp member).1⟩
    (fun row member stays => mem_cascade_messages.mpr ⟨member, stays⟩) fun row member gone => ?_
  have lost : row.id = id := by
    by_contra different
    exact gone (mem_map_of_mem (mem_deleteBuffer.mpr ⟨member, different⟩))
  exact .inr (.inl (congrArg some lost.symm))

theorem deleteNetwork_prunes (deletes : purge.byPage = true ∨ purge.name? = some name) :
    Prunes purge db.toTables (db.deleteNetwork name) := by
  refine .of_cascade ⟨fun row member => (mem_cascade_buffers.mp member).1,
    fun row member => (mem_cascade_messages.mp member).1⟩
    (fun row member stays => mem_cascade_messages.mpr ⟨member, stays⟩) fun row member gone => ?_
  rcases deletes with byPage | named
  · exact .inl byPage
  · obtain ⟨network, held, same⟩ := mem_map.mp (db.constraints.bufferNetworks row member)
    have lost : network.name = name := by
      by_contra different
      exact gone (mem_map_of_mem ((mem_deleteNetwork held different).2 row member same.symm))
    exact .inr (.inr (.inr ⟨network, held, same, lost ▸ named⟩))

theorem DeleteChunk.prunes {guard : Store → Bool} {matching : Tables → List MessageRow}
    {deleted : Nat} {next : Store} {turn : ChunkEnd}
    (step : DeleteChunk chunk guard matching deleted store next turn)
    (matched : ∀ row ∈ matching store.db.toTables, row ∈ store.db.messages ∧
      ∃ buffer ∈ store.db.buffers, buffer.id = row.bufferId ∧
        purge.Covers store.db.toTables buffer) :
    Prunes purge store.db.toTables next.db.toTables := by
  have nothing : Prunes purge store.db.toTables store.db.toTables :=
    ⟨⟨fun _ => id, fun _ => id⟩,
      fun _ member gone => absurd (mem_map_of_mem member) gone,
      fun _ member gone => absurd (mem_map_of_mem member) gone⟩
  have some : ∀ {victims : List Nat} {db : Database},
      Picks chunk (matching store.db.toTables) victims →
      db.toTables = store.db.deleteMessages victims →
      Prunes purge store.db.toTables db.toTables := by
    intro victims db picks written
    rw [written]
    refine ⟨⟨fun _ => id, fun _ member => mem_of_mem_filter member⟩,
      fun _ member gone => absurd (mem_map_of_mem member) gone, fun row member gone => ?_⟩
    have victim : row.id ∈ victims := by
      by_contra spared
      exact gone (mem_map_of_mem (mem_filter.mpr ⟨member, by simpa using spared⟩))
    obtain ⟨picked, isMatch, same⟩ := mem_map.mp (picks.some_match row.id victim)
    obtain ⟨held, covered⟩ := matched picked isMatch
    have equal : picked = row :=
      inj_on_of_nodup_map store.db.constraints.messageIds held member same
    exact equal ▸ covered
  cases step with
  | bail | fail => exact nothing
  | last allows picks written | more allows picks written | cancelled allows picks written =>
    exact some picks written

theorem rowsOf_matched (holds : purge.buffer? = some id) :
    ∀ row ∈ db.rowsOf id, row ∈ db.messages ∧ ∃ buffer ∈ db.buffers,
      buffer.id = row.bufferId ∧ purge.Covers db.toTables buffer := by
  intro row member
  obtain ⟨held, under⟩ := mem_filter.mp member
  obtain ⟨buffer, stored, same⟩ := mem_map.mp (db.constraints.messageBuffers row held)
  refine ⟨held, buffer, stored, same, .inr (.inl ?_)⟩
  rw [holds, same, of_decide_eq_true under]

theorem rowsOfNetwork_matched (holds : purge.byPage = true ∨ purge.network? = some id) :
    ∀ row ∈ db.rowsOfNetwork id, row ∈ db.messages ∧ ∃ buffer ∈ db.buffers,
      buffer.id = row.bufferId ∧ purge.Covers db.toTables buffer := by
  intro row member
  obtain ⟨held, under⟩ := mem_filter.mp member
  obtain ⟨buffer, stored, same⟩ := any_eq_true.mp under
  rw [Bool.and_eq_true, beq_iff_eq, beq_iff_eq] at same
  refine ⟨held, buffer, stored, same.1, ?_⟩
  rcases holds with byPage | network
  · exact .inl byPage
  · exact .inr (.inr (.inl (by rw [network, same.2])))

/-! ### One critical section -/

theorem resolveBufferLocked_widens (widens : Widens start store) (fault : Fault)
    (network target : Bytes) (fold : Option (Bytes → Bytes)) :
    wp (resolveBufferLocked fault network target fold)
      (fun _ next => Widens start next ∧ next.db = store.db)
      (fun _ next => Widens start next ∧ next.db = store.db) store := by
  unfold resolveBufferLocked
  refine wp_seq (canonicalBufferLocked_spec fault network target fold store) ?_ ?_
  · rintro canonical _ rfl
    exact wp_seq bufferID_turn (fun _ _ looked => ⟨looked.1.widens widens, looked.1.reads.1⟩)
      fun _ _ looked => ⟨looked.1.widens widens, looked.1.reads.1⟩
  · rintro reason _ rfl
    exact ⟨widens, rfl⟩

/-- Rows were only added, or only deleted among what the purge is after, and the network cache
keeps agreeing with the tables. -/
structure Passes (purge : Purge) (store next : Store) : Prop where
  names : next.NamesCoherent
  tables : Grows store.db.toTables next.db.toTables ∨
    Prunes purge store.db.toTables next.db.toTables

theorem Passes.same {next : Store} (names : next.NamesCoherent) (db : next.db = store.db) :
    Passes purge store next :=
  ⟨names, .inl (by rw [db]; exact Grows.refl _)⟩

theorem NamesCoherent.of_eq {next : Store} (names : store.NamesCoherent)
    (cache : next.networks = store.networks) (rows : next.db.networks = store.db.networks) :
    next.NamesCoherent := fun name id cached => by
  rw [cache] at cached
  rw [rows]
  exact names name id cached

theorem Prunes.sameRows {before after : Tables} (prunes : Prunes purge before after)
    (rows : SameRows db after) :
    Prunes purge before db.toTables where
  buffers := rows.buffers ▸ prunes.buffers
  messages := rows.messages ▸ prunes.messages
  lostBuffers := rows.buffers ▸ prunes.lostBuffers
  lostMessages := rows.messages ▸ prunes.lostMessages

theorem replace_passes (names : store.NamesCoherent) {oldName config : Bytes} :
    Passes purge store (final
      (replaceNetworkConfigWithSettings fault oldName name config settings) store) := by
  refine wp_final (wp_replaceNetworkConfigWithSettings (fun _ => .same names rfl)
    (fun db rows => ⟨names.of_eq rfl rows.networks, .inl ?_⟩)
    fun db rows => ⟨names.kept (namesKept_evict fun row member different => ?_), .inl ?_⟩)
  · exact ⟨fun row member => by rw [rows.networks]; exact mem_map_of_mem member,
      fun row member => ⟨row, by rw [rows.buffers]; exact member, rfl, rfl⟩,
      fun row member => by rw [rows.messages]; exact member⟩
  · rw [rows.networks]
    exact mem_renameNetwork member different
  · rw [dropNetworkCaches_db]
    refine ⟨fun row member => ?_,
      fun row member => ⟨row, by rw [rows.buffers]; exact member, rfl, rfl⟩,
      fun row member => by rw [rows.messages]; exact member⟩
    rw [rows.networks]
    -- the renamed row keeps its id
    refine mem_map.mpr ⟨_, mem_map_of_mem member, ?_⟩
    split
    · rfl
    · rfl

theorem bufferRow_passes (names : store.NamesCoherent) (fault : Fault) (key : Bytes × Bytes)
    (id : Nat) : Passes (.bufferRow key id) store (final (deleteBufferRow fault key id) store) := by
  refine wp_final (wp_deleteBufferRow (fun _ => .same names rfl)
    fun db written => ⟨names.of_eq (closed_networks ..) ?_, .inr ?_⟩)
  · rw [closed_db, written]
    rfl
  · rw [closed_db, written]
    exact deleteBuffer_prunes key

theorem networkRow_passes (names : store.NamesCoherent) :
    Passes (.networkRow name settings) store
      (final (deleteNetworkRow fault name settings) store) := by
  refine wp_final (wp_deleteNetworkRow (fun _ => .same names rfl) fun db rows =>
    ⟨names.kept (namesKept_evict fun row member different => ?_), .inr ?_⟩)
  · rw [rows.networks]
    exact (mem_deleteNetwork member different).1
  · rw [dropNetworkCaches_db]
    exact (deleteNetwork_prunes (.inr rfl)).sameRows rows

theorem pageRow_passes (names : store.NamesCoherent) {rowid : Nat} :
    Passes (.pageRow rowid) store (final (deletePageRow fault rowid) store) :=
  wp_final (wp_deletePageRow (fun _ => .same names rfl) fun _ _ rows =>
    ⟨dropAllCaches_coherent.names, .inr ((deleteNetwork_prunes (.inl rfl)).sameRows rows)⟩)

theorem Act.passes {next : Store} (act : Act chunk store purge next purge')
    (names : store.NamesCoherent) : Passes purge store next := by
  have widens : Widens store.db.toTables store := ⟨Grows.refl _, names⟩
  have chunked : ∀ {matching : Tables → List MessageRow} {deleted : Nat} {turn : ChunkEnd},
      PurgeChunk chunk matching deleted store next turn → next.NamesCoherent := by
    intro matching deleted turn deletes
    obtain ⟨db, rfl, networks, -⟩ := deletes.networks_buffers
    exact names.of_eq rfl networks
  cases act with
  | append fault vetoFault now network target message opts =>
    have kept := widens_survives.append widens fault vetoFault now network target message opts
    exact ⟨kept.names, .inl kept.grows⟩
  | replace =>
    exact replace_passes names
  | resolveBuffer _ fault network target fold =>
    have kept := wp_final (resolveBufferLocked_widens widens fault network target fold)
    exact .same kept.1.names kept.2
  | bufferChunk deletes =>
    exact ⟨chunked deletes, .inr (deletes.prunes (rowsOf_matched rfl))⟩
  | bufferRing _ id =>
    have only := dropRing_only store id
    exact .same (names.of_eq only.networks (by rw [only.db])) only.db
  | bufferRow fault key id => exact bufferRow_passes names fault key id
  | resolveNetwork _ fault name =>
    have outcome : wp (networkID fault name false) (fun _ reached => Passes .idle store reached)
        (fun _ reached => Passes .idle store reached) store :=
      wp_mono (networkID_turn fault name false store)
        (fun _ _ looked => .same (looked.1.widens widens).names looked.1.reads)
        fun _ _ kept => by rw [kept.1]; exact .same names rfl
    exact wp_final outcome
  | networkChunk deletes =>
    exact ⟨chunked deletes, .inr (deletes.prunes (rowsOfNetwork_matched (.inr rfl)))⟩
  | networkCaches _ name =>
    have kept : NamesKept store (store.dropNetworkCaches name) :=
      namesKept_evict fun _ member _ => member
    exact .same (names.kept kept) (dropNetworkCaches_db store name)
  | networkRow => exact networkRow_passes names
  | resolvePage fault rowid =>
    have outcome : wp (Store.resolvePage fault rowid) (fun _ reached => Passes .idle store reached)
        (fun _ reached => Passes .idle store reached) store := by
      unfold Store.resolvePage
      split
      · exact .same names rfl
      · exact wp_attempt_bind (fun _ => .same names rfl) (.same names rfl)
    exact wp_final outcome
  | pageChunk deletes =>
    exact ⟨chunked deletes, .inr (deletes.prunes (rowsOfNetwork_matched (.inl rfl)))⟩
  | pageCaches => exact .same dropAllCaches_coherent.names rfl
  | pageRow => exact pageRow_passes names

/-! ### Every interleaving -/

structure OwnOnly (births : Births) (origin : Provenance) (before after : Tables) : Prop where
  messages : ∀ row ∈ before.messages, row.id ∉ after.messages.map (·.id) →
    origin.Owns (births.message row.id)
  buffers : ∀ row ∈ before.buffers, row.id ∉ after.buffers.map (·.id) →
    origin.Owns (births.buffer row.id)

theorem Held.owns {origin : Provenance}
    (held : Held births origin db.toTables purge) (told : Told births db.toTables)
    (named : purge.byPage = false) {buffer : BufferRow} (member : buffer ∈ db.buffers)
    (covers : purge.Covers db.toTables buffer) : origin.Owns (births.buffer buffer.id) := by
  rcases covers with byPage | holds | holds | ⟨network, row, same, holds⟩
  · rw [named] at byPage
    cases byPage
  · exact held.buffer _ holds (mem_map_of_mem member)
  · exact (held.network _ holds (db.constraints.bufferNetworks buffer member)).owns
      (told.buffers buffer member)
  · exact (held.name _ holds network row rfl).owns (same ▸ told.buffers buffer member)

theorem Passes.ownOnly {origin : Provenance} {next : Store} (passes : Passes purge store next)
    (held : Held births origin store.db.toTables purge) (told : Told births store.db.toTables)
    (named : purge.byPage = false) : OwnOnly births origin store.db.toTables next.db.toTables := by
  rcases passes.tables with grows | prunes
  · refine ⟨fun row member gone => absurd (mem_map_of_mem (grows.messages row member)) gone,
      fun row member gone => absurd ?_ gone⟩
    obtain ⟨later, kept, same, -⟩ := grows.buffers row member
    exact mem_map.mpr ⟨later, kept, same⟩
  · refine ⟨fun row member gone => ?_, fun row member gone =>
      held.owns told named member (prunes.lostBuffers row member gone)⟩
    obtain ⟨_, stored, same, covers⟩ := prunes.lostMessages row member gone
    rw [told.messages row member, ← same]
    exact held.owns told named stored covers

theorem Passes.evolves {next : Store} (passes : Passes purge store next) :
    Evolves store.db.toTables next.db.toTables := by
  rcases passes.tables with grows | prunes
  · exact grows.evolves
  · exact prunes.toShrinks.evolves

structure Observed where
  world : World
  births : Births
  origins : Nat → Provenance

namespace Observed

def opened (store : Store) : Observed :=
  ⟨World.opened store, .ofTables store.db.toTables, fun _ => .nothing⟩

/-- The state after the operation `t` took the world on: new rows are born, and an operation
that was not in flight has resolved its origin. -/
def next (o : Observed) (t : Nat) (w : World) : Observed :=
  let births := o.births.record o.world.store.db.toTables w.store.db.toTables
  { world := w
    births := births
    origins := if o.world.purges t = .idle
      then update o.origins t (births.origin (w.purges t)) else o.origins }

end Observed

def CalmStep (chunk : Nat) (o o' : Observed) : Prop :=
  ∃ t w, StepOf chunk t o.world w ∧ o' = o.next t w ∧
    Calm o.world.purges o.world.store.db.toTables w.store.db.toTables

structure Observed.Settled (o : Observed) : Prop where
  names : o.world.store.NamesCoherent
  told : Told o.births o.world.store.db.toTables
  held : ∀ t, Held o.births (o.origins t) o.world.store.db.toTables (o.world.purges t)

theorem held_nothing {origin : Provenance} (buffer : purge.buffer? = none)
    (network : purge.network? = none) (name : purge.name? = none) :
    Held births origin tables purge where
  buffer _ holds := nomatch buffer.symm.trans holds
  network _ holds := nomatch network.symm.trans holds
  name _ holds := nomatch name.symm.trans holds

theorem networkID_started (names : store.NamesCoherent) {delete : Option (List (Bytes × Bytes))} :
    Held births (births.origin (.ofNetwork delete name (exec (networkID fault name false) store).1))
      (final (networkID fault name false) store).db.toTables
      (.ofNetwork delete name (exec (networkID fault name false) store).1) := by
  have reads := networkID_turn fault name false store
  unfold final
  unfold wp at reads
  rcases ended : exec (networkID fault name false) store with ⟨outcome, reached⟩
  rw [ended] at reads
  cases outcome with
  | error => exact held_nothing rfl rfl rfl
  | ok found =>
    obtain ⟨turn, cached, nowhere⟩ := reads
    have same := turn.reads
    obtain rfl : store.db.networkId name = found := by
      cases found with
      | none => exact same ▸ nowhere rfl
      | some id =>
        have widens := turn.widens ⟨Grows.refl _, names⟩
        exact store.db.networkId_eq_some.mpr (same ▸ widens.names name id (cached id rfl))
    have resolved : ∀ row ∈ reached.db.networks, row.name = name →
        store.db.networkId name = some row.id := by
      rintro row member rfl
      exact store.db.networkId_eq_some.mpr (same ▸ member)
    cases found : store.db.networkId name with
    | none =>
      cases delete with
      | none => exact held_nothing rfl rfl rfl
      | some =>
        refine ⟨nofun, nofun, fun other holds row member named => ?_⟩
        cases holds
        cases found.symm.trans (resolved row member named)
    | some =>
      refine ⟨nofun, fun other holds _ => ?_, fun other holds row member named => ?_⟩
      · cases holds
        rfl
      · cases delete with
        | none => cases holds
        | some =>
          cases holds
          cases found.symm.trans (resolved row member named)
          rfl

theorem Act.started {next : Store} (act : Act chunk store .idle next purge)
    (names : store.NamesCoherent) (births : Births) :
    Held births (births.origin purge) next.db.toTables purge := by
  cases act with
  | append | replace => exact held_nothing rfl rfl rfl
  | resolveBuffer _ fault network target fold =>
    rcases (exec (resolveBufferLocked fault network target fold) store).1 with
      reason | ⟨canonical, id⟩
    · exact held_nothing rfl rfl rfl
    · cases id with
      | none => exact held_nothing rfl rfl rfl
      | some =>
        refine ⟨fun other holds _ => ?_, nofun, nofun⟩
        cases holds
        rfl
  | resolveNetwork => exact networkID_started names
  | resolvePage fault rowid =>
    rcases (exec (Store.resolvePage fault rowid) store).1 with reason | found
    · exact held_nothing rfl rfl rfl
    · cases found <;> exact held_nothing rfl rfl rfl

theorem CalmStep.settled {o o' : Observed} (step : CalmStep chunk o o') (settled : o.Settled) :
    o'.Settled := by
  obtain ⟨t, _, ⟨next, _, act, rfl⟩, rfl, calm⟩ := step
  have passes := act.passes settled.names
  refine ⟨passes.names, settled.told.record passes.evolves, fun other => ?_⟩
  have kept := (settled.held other).calm calm
  unfold Observed.next
  dsimp only
  by_cases acting : other = t
  · subst acting
    rw [update_self]
    by_cases idle : o.world.purges other = .idle
    · rw [if_pos idle, update_self]
      rw [idle] at act
      exact act.started settled.names _
    · rw [if_neg idle]
      exact kept.letsGo (act.letsGo idle)
  · rw [update_of_ne acting]
    split
    · rw [update_of_ne acting]
      exact kept
    · exact kept

theorem calm_run_settled {start : Store} {o : Observed} (opened : start.Opened)
    (reached : ReflTransGen (CalmStep chunk) (Observed.opened start) o) : o.Settled := by
  induction reached with
  | refl =>
    refine ⟨fun name id cached => ?_, told_ofTables, fun t => held_nothing rfl rfl rfl⟩
    change start.networks.lookup name = some id at cached
    rw [opened.networks, AList.lookup_empty] at cached
    cases cached
  | tail _ step ih => exact step.settled ih

/-- If, while a purge is in flight, no new row gets the id it holds and no network the name it will
delete, every row that a purge, a close or a delete takes away was created in the buffer or network
it resolved when it started. -/
theorem purges_stay_home {chunk : Nat} {start : Store} {o : Observed} (opened : start.Opened)
    (reached : ReflTransGen (CalmStep chunk) (Observed.opened start) o) {t : Nat}
    {w : World} (step : StepOf chunk t o.world w) (named : (o.world.purges t).byPage = false) :
    OwnOnly o.births (o.origins t) o.world.store.db.toTables w.store.db.toTables := by
  have settled := calm_run_settled opened reached
  obtain ⟨_, purge, act, rfl⟩ := step
  exact (act.passes settled.names).ownOnly (settled.held t) settled.told named

/-! ### A close of a channel, and a purge that outlives it -/

theorem calm_of_idle {before after : Tables}
    (idle : ∀ t, purges t = .idle) : Calm purges before after where
  buffers t _ holds := by
    rw [idle t] at holds
    cases holds
  networks t _ holds := by
    rw [idle t] at holds
    cases holds
  names t _ holds := by
    rw [idle t] at holds
    cases holds

def closeStarted : Observed :=
  ((Observed.opened (fresh 10 1000000)).next 0 (alongside spoken .idle)).next 1
    (alongside spoken (.bufferChunks (some (lit "libera", lit "#go")) 1 0))

theorem closeStarted_reached :
    ReflTransGen (CalmStep pruneChunk) (Observed.opened (fresh 10 1000000))
      closeStarted := by
  have first : Act pruneChunk (fresh 10 1000000) .idle spoken .idle := .append _ _ _ _ _ _ _
  have opening :
      StepOf pruneChunk 0 (World.opened (fresh 10 1000000)) (alongside spoken .idle) := by
    rw [opened_eq_alongside]
    exact first.other
  exact ReflTransGen.refl.tail ⟨0, _, opening, rfl, calm_of_idle fun _ => rfl⟩
    |>.tail ⟨1, _, closing_act.1.purger, rfl, calm_of_idle fun _ => ite_self _⟩

/-- The chunk of the close deletes the message, which was created in the channel. -/
theorem purges_stay_home_closeStarted :
    1 ∈ spoken.db.messages.map (·.id) ∧ 1 ∉ emptied.db.messages.map (·.id) ∧
      (closeStarted.origins 1).Owns (closeStarted.births.message 1) := by
  have deleted : 1 ∉ emptied.db.messages.map (·.id) := by decide +kernel
  obtain ⟨row, member, same⟩ : ∃ row ∈ spoken.db.messages, row.id = 1 := by decide +kernel
  have owns := purges_stay_home (fresh_opened (by decide) 1000000) closeStarted_reached
    closing_act.2.1.purger rfl
  have owned := owns.messages row member (same.symm ▸ deleted)
  rw [same] at owned
  exact ⟨by decide +kernel, deleted, owned⟩

def ObservedStep (chunk : Nat) (o o' : Observed) : Prop :=
  ∃ t w, StepOf chunk t o.world w ∧ o' = o.next t w

def beside (store : Store) (first second : Purge) : World :=
  ⟨store, fun t => if t = 1 then first else if t = 2 then second else .idle⟩

theorem Act.beside_first {next : Store} (act : Act chunk store first next purge) :
    StepOf chunk 1 (beside store first second) (beside next purge second) := by
  refine ⟨next, purge, act, ?_⟩
  unfold beside
  congr 1
  funext t
  by_cases same : t = 1
  · simp [same]
  · simp [same]

theorem Act.beside_second {next : Store} (act : Act chunk store second next purge) :
    StepOf chunk 2 (beside store first second) (beside next first purge) := by
  refine ⟨next, purge, act, ?_⟩
  unfold beside
  congr 1
  funext t
  by_cases same : t = 2
  · simp [same]
  · simp [same]

theorem Act.beside_other {next : Store} (act : Act chunk store .idle next .idle) :
    StepOf chunk 0 (beside store first second) (beside next first second) := by
  refine ⟨next, .idle, act, ?_⟩
  unfold beside
  congr 1
  funext t
  by_cases same : t = 0
  · simp [same]
  · simp [same]

def closedChannel : Store :=
  final (deleteBufferRow noFault (lit "libera", lit "#go") 1) closing

def reusedId : Store :=
  final (sayIn (lit "libera") (lit "#new") (lit "hello")) closedChannel

def overtaken : Observed :=
  let key := (lit "libera", lit "#go")
  let purging := Purge.bufferChunks none 1 0
  ((((((Observed.opened (fresh 10 1000000)).next 0 (beside spoken .idle .idle)).next 1
    (beside spoken purging .idle)).next 2
    (beside spoken purging (.bufferChunks (some key) 1 0))).next 2
    (beside emptied purging (.bufferRing (some key) 1 false))).next 2
    (beside closing purging (.bufferRow key 1))).next 2
    (beside closedChannel purging .idle) |>.next 0 (beside reusedId purging .idle)

theorem overtaken_reached :
    ReflTransGen (ObservedStep pruneChunk) (Observed.opened (fresh 10 1000000))
      overtaken := by
  obtain ⟨resolve, deletes, drops⟩ := closing_act
  have first : Act pruneChunk (fresh 10 1000000) .idle spoken .idle := .append _ _ _ _ _ _ _
  have opening : StepOf pruneChunk 0 (World.opened (fresh 10 1000000))
      (beside spoken .idle .idle) := by
    have same : World.opened (fresh 10 1000000) = beside (fresh 10 1000000) .idle .idle := by
      simp [World.opened, beside]
    rw [same]
    exact first.beside_other
  have purges : Act pruneChunk spoken .idle spoken (.bufferChunks none 1 0) := by
    have cached : spoken.buffers.lookup (lit "libera", lit "#go") = some 1 := by decide +kernel
    have ended := resolveBufferLocked_cached cached noFault
    have act : Act pruneChunk spoken .idle _ _ :=
      .resolveBuffer false noFault (lit "libera") (lit "#go") none
    rw [final, ended] at act
    exact act
  have closes : Act pruneChunk closing (.bufferRow (lit "libera", lit "#go") 1) closedChannel
      .idle := .bufferRow _ _ _
  have second : Act pruneChunk closedChannel .idle reusedId .idle := .append _ _ _ _ _ _ _
  exact ReflTransGen.refl.tail ⟨0, _, opening, rfl⟩
    |>.tail ⟨1, _, purges.beside_first, rfl⟩ |>.tail ⟨2, _, resolve.beside_second, rfl⟩
    |>.tail ⟨2, _, deletes.beside_second, rfl⟩ |>.tail ⟨2, _, drops.beside_second, rfl⟩
    |>.tail ⟨2, _, closes.beside_second, rfl⟩ |>.tail ⟨0, _, second.beside_other, rfl⟩

/-- The purge of the closed channel deletes the message of the new one. -/
theorem purge_deletes_foreign_message :
    ∃ o w, ReflTransGen (ObservedStep pruneChunk) (Observed.opened (fresh 10 1000000)) o ∧
      StepOf pruneChunk 1 o.world w ∧ (o.world.purges 1).byPage = false ∧
      1 ∈ o.world.store.db.messages.map (·.id) ∧ 1 ∉ w.store.db.messages.map (·.id) ∧
      ¬ (o.origins 1).Owns (o.births.message 1) := by
  have picks : Picks pruneChunk (reusedId.db.rowsOf 1) [1] :=
    ⟨by decide, by decide +kernel, by decide +kernel⟩
  let db : Database := ⟨reusedId.db.deleteMessages [1], by decide +kernel⟩
  have chunk : Act pruneChunk reusedId (.bufferChunks none 1 0) { reusedId with db := db } _ :=
    .bufferChunk (.last rfl picks rfl (by decide))
  have origin : overtaken.origins 1 = .buffer 1 := by decide +kernel
  have home : overtaken.births.message 1 = (7, 1) := by decide +kernel
  refine ⟨overtaken, _, overtaken_reached, chunk.beside_first, rfl, ?_, ?_, ?_⟩
  · show 1 ∈ reusedId.db.messages.map (·.id)
    decide +kernel
  · show 1 ∉ db.messages.map (·.id)
    decide +kernel
  · rw [origin, home]
    exact nofun

end Ircthing.Store
