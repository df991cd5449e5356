/-
This file proves that a network never gets two buffers whose names fold alike.
-/

import Ircthing.Store.Provenance

namespace Ircthing.Store

open Library Effect List Relation

variable {fold : Bytes → Bytes} {network home target : Bytes} {store next : Store} {create : Bool}
  {key : Bytes × Bytes} {chunk : Nat}

/-! ### The buffers of a network -/

def Tables.Under (tables : Tables) (network : Bytes) (row : BufferRow) : Prop :=
  row ∈ tables.buffers ∧ ⟨row.networkId, network⟩ ∈ tables.networks

variable (fold)

def OneSpelling (network : Bytes) (tables : Tables) : Prop :=
  ∀ first second, tables.Under network first → tables.Under network second →
    fold first.name = fold second.name → first = second

def Spelled (network target : Bytes) (tables : Tables) : Prop :=
  ∀ row, tables.Under network row → fold row.name = fold target → row.name = target

variable {fold}

theorem OneSpelling.of_under {before after : Tables} (one : OneSpelling fold network before)
    (under : ∀ row, after.Under network row → before.Under network row) :
    OneSpelling fold network after :=
  fun first second isFirst isSecond same =>
    one first second (under first isFirst) (under second isSecond) same

theorem under_of_more_networks {before after : Database} (buffers : after.buffers = before.buffers)
    (networks : ∀ row ∈ before.networks, row ∈ after.networks) {row : BufferRow}
    (under : after.Under network row) : before.Under network row := by
  obtain ⟨member, named⟩ := under
  rw [buffers] at member
  obtain ⟨parent, held, same⟩ := mem_map.mp (before.constraints.bufferNetworks row member)
  have equal : parent = ⟨row.networkId, network⟩ :=
    inj_on_of_nodup_map after.constraints.networkIds (networks parent held) named same
  exact ⟨member, equal ▸ held⟩

theorem OneSpelling.of_map {before after : Tables} (one : OneSpelling fold network before)
    {change : BufferRow → BufferRow} (buffers : after.buffers = before.buffers.map change)
    (keeps : ∀ row, (change row).networkId = row.networkId ∧ (change row).name = row.name)
    (networks : after.networks = before.networks) : OneSpelling fold network after := by
  have source : ∀ row, after.Under network row →
      ∃ earlier, before.Under network earlier ∧ row = change earlier := by
    rintro row ⟨member, named⟩
    rw [buffers] at member
    obtain ⟨earlier, held, rfl⟩ := mem_map.mp member
    rw [networks, (keeps earlier).1] at named
    exact ⟨earlier, ⟨held, named⟩, rfl⟩
  intro first second isFirst isSecond same
  obtain ⟨one', held, rfl⟩ := source first isFirst
  obtain ⟨two, kept, rfl⟩ := source second isSecond
  rw [(keeps one').2, (keeps two).2] at same
  rw [one one' two held kept same]

theorem foldedName_spelled {db : Database} (one : OneSpelling fold network db.toTables) :
    Spelled fold network ((db.foldedName network target fold).getD target) db.toTables := by
  have listed : ∀ name, name ∈ db.bufferNamesOf network ↔
      ∃ row, db.Under network row ∧ row.name = name := by
    intro name
    unfold Tables.bufferNamesOf
    rw [mem_map]
    constructor
    · rintro ⟨row, held, same⟩
      obtain ⟨member, named⟩ := mem_filter.mp held
      exact ⟨row, ⟨member, db.networkId_eq_some.mp (of_decide_eq_true named)⟩, same⟩
    · rintro ⟨row, ⟨member, named⟩, same⟩
      exact ⟨row, mem_filter.mpr ⟨member, decide_eq_true (db.networkId_eq_some.mpr named)⟩, same⟩
  intro row under same
  cases found : db.foldedName network target fold with
  | none =>
    rw [found, Option.getD_none] at same
    exact absurd (beq_iff_eq.mpr same)
      (find?_eq_none.mp found row.name ((listed _).mpr ⟨row, under, rfl⟩))
  | some =>
    rw [found, Option.getD_some] at same
    obtain ⟨other, isOther, rfl⟩ := (listed _).mp (mem_of_find?_eq_some found)
    rw [one row other under isOther same]
    rfl

/-! ### Resolving and creating -/

structure Spelling (fold : Bytes → Bytes) (network : Bytes) (store : Store) : Prop where
  names : store.NamesCoherent
  one : OneSpelling fold network store.db.toTables

theorem NetworkTurn.under (turn : NetworkTurn home create store next) (row : BufferRow)
    (under : next.db.Under network row) : store.db.Under network row := by
  obtain ⟨_, networks⟩ := turn.grown.networks
  exact under_of_more_networks turn.rows
    (fun row member => by rw [networks]; exact mem_append_left _ member) under

theorem BufferTurn.spelling
    (turn : BufferTurn home target create store next) (spelling : Spelling fold network store)
    (spelled : create = true → home = network → store.buffers.lookup (home, target) = none →
      Spelled fold network target store.db.toTables) : Spelling fold network next := by
  refine ⟨(turn.widens ⟨Grows.refl _, spelling.names⟩).names, ?_⟩
  cases turn with
  | resolved turn | cached turn => exact spelling.one.of_under turn.under
  | @created reached netID db turn creates uncached home_ missing written =>
    have one := spelling.one.of_under turn.under
    have named : ⟨netID, home⟩ ∈ reached.db.networks :=
      (turn.widens ⟨Grows.refl _, spelling.names⟩).names home netID home_
    have networks : db.networks = reached.db.networks := by rw [written]
    -- the new row folds like no other buffer of the network
    have distinct : ∀ row, reached.db.Under network row → ⟨netID, network⟩ ∈ reached.db.networks →
        fold row.name ≠ fold target := by
      intro row under inside same
      have home_eq : home = network := congrArg NetworkRow.name
        (inj_on_of_nodup_map reached.db.constraints.networkIds named inside rfl)
      have parent : row.networkId = netID := congrArg NetworkRow.id
        (inj_on_of_nodup_map reached.db.constraints.networkNames under.2 inside rfl)
      have found := reached.db.bufferId_eq_some.mpr ⟨row, under.1, rfl, parent,
        spelled creates home_eq uncached row (turn.under row under) same⟩
      rw [missing] at found
      cases found
    have cases_ : ∀ row, db.Under network row → reached.db.Under network row ∨
        (row = ⟨nextId (reached.db.buffers.map (·.id)), netID, target, false⟩ ∧
          ⟨netID, network⟩ ∈ reached.db.networks) := by
      rintro row ⟨member, inside⟩
      rw [networks] at inside
      rw [written] at member
      rcases mem_append.mp member with old | new
      · exact .inl ⟨old, inside⟩
      · cases mem_singleton.mp new
        exact .inr ⟨rfl, inside⟩
    intro first second isFirst isSecond same
    rcases cases_ first isFirst with oldFirst | ⟨rfl, inside⟩ <;>
      rcases cases_ second isSecond with oldSecond | ⟨rfl, inside'⟩
    · exact one first second oldFirst oldSecond same
    · exact absurd same (distinct first oldFirst inside')
    · exact absurd same.symm (distinct second oldSecond inside)
    · rfl

theorem lookup_insert_none {ids : Dict (Bytes × Bytes) Nat} {other : Bytes × Bytes} {id : Nat}
    (missing : (ids.insert other id).lookup key = none) : ids.lookup key = none := by
  rw [Dict.lookup_insert_eq] at missing
  split at missing
  · cases missing
  · exact missing

theorem BufferTurn.others (turn : BufferTurn home target create store next)
    (other : key ≠ (home, target)) : next.buffers.lookup key = store.buffers.lookup key := by
  cases turn with
  | resolved turn => rw [turn.buffers]
  | cached turn | created turn => exact turn.buffers ▸ AList.lookup_insert_ne other

theorem BufferTurn.stays (turn : BufferTurn home target create store next)
    (missing : next.buffers.lookup key = none) : store.buffers.lookup key = none := by
  cases turn with
  | resolved turn => exact turn.buffers ▸ missing
  | cached turn | created turn => exact turn.buffers ▸ lookup_insert_none missing

/-! ### Appending -/

theorem canonicalName_spelled (one : OneSpelling fold network store.db.toTables)
    (missing : store.buffers.lookup (network, store.canonicalName network target fold) = none) :
    Spelled fold network (store.canonicalName network target fold) store.db.toTables := by
  unfold canonicalName at missing ⊢
  split
  next cached =>
    rw [if_pos cached] at missing
    rw [missing] at cached
    cases cached
  · exact foldedName_spelled one

theorem Spelling.onlyRings (spelling : Spelling fold network store) (only : OnlyRings store next) :
    Spelling fold network next :=
  ⟨spelling.names.of_eq only.networks (by rw [only.db]), by rw [only.db]; exact spelling.one⟩

theorem RingTurn.spelling {name : Bytes} {found : Option Nat}
    (turn : RingTurn home name create store found next) (spelling : Spelling fold network store)
    (spelled : home = network → store.buffers.lookup (home, name) = none →
      Spelled fold network name store.db.toTables) : Spelling fold network next := by
  obtain ⟨_, opened, only, -⟩ := turn.only
  exact (opened.spelling spelling fun _ => spelled).onlyRings only

theorem append_spelling (spelling : Spelling fold network store) {fault vetoFault : Fault}
    {now : Int} {message : Message} {opts : AppendOpts}
    (folded : home = network → opts.fold = some fold) :
    Spelling fold network
      (final (append fault vetoFault now home target message opts) store) := by
  -- what the guard leaves behind is asked again before a buffer is created
  have opens : ∀ {name asked next found},
      store.resolvedName home (clampUTF8 target maxStoredFieldBytes) opts.fold = name →
      BufferTurn home name false store asked → RingTurn home name opts.create asked found next →
      Spelling fold network next := by
    rintro _ asked next found rfl looked opened
    refine opened.spelling (looked.spelling spelling nofun) fun inside missing => ?_
    rw [looked.reads.1]
    have uncached := looked.stays missing
    rw [folded inside] at uncached ⊢
    subst inside
    exact canonicalName_spelled spelling.one uncached
  refine wp_final (wp_mono (append_turn rfl) ?_ ?_)
  · intro value next turn
    cases turn with
    | unstored _ looked opened => exact opens rfl looked opened
    | @stored _ reached buffer db _ looked opened committed =>
      have ready := opens rfl looked opened
      have appended := committed.appended
      obtain ⟨_, buffers, keeps⟩ := appended.buffers
      have written : Spelling fold network { reached with db := db } :=
        ⟨ready.names.of_eq rfl appended.networks,
          ready.one.of_map buffers (fun row => (keeps row).2) appended.networks⟩
      exact written.onlyRings (refreshRing_only _ buffer _)
  · intro reason next turn
    cases turn with
    | unstored _ looked opened => exact opens rfl looked opened

/-! ### Archiving and deleting -/

theorem archiveBufferFolded_spelling (spelling : Spelling fold network store) (fault : Fault)
    (home target : Bytes) (archiveFold : Option (Bytes → Bytes)) :
    Spelling fold network
      (final (archiveBufferFolded fault home target archiveFold) store) := by
  refine wp_final ?_
  unfold archiveBufferFolded
  refine wp_seq (canonicalBufferLocked_spec fault home target archiveFold store) ?_
    fun _ _ same => same ▸ spelling
  rintro canonical _ rfl
  rw [wp_bind, wp_get, wp_bind]
  refine wp_execute spelling fun db written => ?_
  refine ⟨spelling.names.of_eq rfl (by rw [written]; rfl), ?_⟩
  refine spelling.one.of_map (by rw [written]; rfl) (fun row => ?_) (by rw [written]; rfl)
  split <;> exact ⟨rfl, rfl⟩

theorem Act.under_of_going {purge purge' : Purge}
    (act : Act chunk store purge next purge') (going : purge ≠ .idle) (row : BufferRow)
    (under : next.db.Under network row) : store.db.Under network row := by
  have chunked : ∀ {matching : Tables → List MessageRow} {deleted : Nat} {turn : ChunkEnd},
      PurgeChunk chunk matching deleted store next turn → store.db.Under network row := by
    intro matching deleted turn deletes
    obtain ⟨db, rfl, networks, buffers⟩ := deletes.networks_buffers
    exact ⟨buffers ▸ under.1, networks ▸ under.2⟩
  have deleted : ∀ {name : Bytes} {db : Database}, SameRows db (store.db.deleteNetwork name) →
      db.Under network row → store.db.Under network row := by
    rintro name db rows ⟨member, named⟩
    rw [rows.buffers] at member
    rw [rows.networks] at named
    exact ⟨(mem_cascade_buffers.mp member).1, mem_of_mem_filter named⟩
  cases act with
  | bufferChunk deletes | networkChunk deletes | pageChunk deletes => exact chunked deletes
  | bufferRing _ id =>
    rw [(dropRing_only store id).db] at under
    exact under
  | networkCaches =>
    rw [dropNetworkCaches_db] at under
    exact under
  | pageCaches => exact under
  | bufferRow fault key id =>
    have kept : wp (deleteBufferRow fault key id)
        (fun _ next => next.db.Under network row → store.db.Under network row)
        (fun _ next => next.db.Under network row → store.db.Under network row) store := by
      refine wp_deleteBufferRow (fun _ => fun same => same) fun db written => ?_
      rw [closed_db, written]
      exact fun isUnder => ⟨(mem_deleteBuffer.mp isUnder.1).1, isUnder.2⟩
    exact wp_final kept under
  | networkRow fault name settings =>
    have kept : wp (deleteNetworkRow fault name settings)
        (fun _ next => next.db.Under network row → store.db.Under network row)
        (fun _ next => next.db.Under network row → store.db.Under network row) store := by
      refine wp_deleteNetworkRow (fun _ => fun same => same) fun db rows => ?_
      rw [dropNetworkCaches_db]
      exact deleted rows
    exact wp_final kept under
  | pageRow fault rowid =>
    have kept : wp (deletePageRow fault rowid)
        (fun _ next => next.db.Under network row → store.db.Under network row)
        (fun _ next => next.db.Under network row → store.db.Under network row) store :=
      wp_deletePageRow (fun _ => fun same => same) fun db name rows => deleted rows
    exact wp_final kept under
  | append | replace | resolveBuffer | resolveNetwork | resolvePage => exact absurd rfl going

/-! ### Every interleaving -/

inductive FoldedAct (chunk : Nat) (fold : Bytes → Bytes) (network : Bytes) (store : Store) :
    Purge → Store → Purge → Prop
  | append (fault vetoFault : Fault) (now : Int) (home target : Bytes) (message : Message)
      (opts : AppendOpts) (folded : home = network → opts.fold = some fold) :
      FoldedAct chunk fold network store .idle
        (final (append fault vetoFault now home target message opts) store) .idle
  | archive (fault : Fault) (home target : Bytes) (archiveFold : Option (Bytes → Bytes)) :
      FoldedAct chunk fold network store .idle
        (final (archiveBufferFolded fault home target archiveFold) store) .idle
  | resolveBuffer (close : Bool) (fault : Fault) (home target : Bytes)
      (closeFold : Option (Bytes → Bytes)) :
      FoldedAct chunk fold network store .idle
        (final (resolveBufferLocked fault home target closeFold) store)
        (.ofBuffer close home (exec (resolveBufferLocked fault home target closeFold) store).1)
  | resolveNetwork (delete : Option (List (Bytes × Bytes))) (fault : Fault) (name : Bytes) :
      FoldedAct chunk fold network store .idle (final (networkID fault name false) store)
        (.ofNetwork delete name (exec (networkID fault name false) store).1)
  | purge {purge purge' : Purge} {next : Store} (going : purge ≠ .idle)
      (act : Act chunk store purge next purge') :
      FoldedAct chunk fold network store purge next purge'

theorem FoldedAct.spelling {purge purge' : Purge}
    (act : FoldedAct chunk fold network store purge next purge')
    (spelling : Spelling fold network store) : Spelling fold network next := by
  have widens : Widens store.db.toTables store := ⟨Grows.refl _, spelling.names⟩
  cases act with
  | append _ _ _ _ _ _ _ folded =>
    exact append_spelling spelling folded
  | archive fault home target archiveFold =>
    exact archiveBufferFolded_spelling spelling fault home target archiveFold
  | resolveBuffer _ fault home target closeFold =>
    obtain ⟨kept, same⟩ :=
      wp_final (resolveBufferLocked_widens widens fault home target closeFold)
    exact ⟨kept.names, by rw [same]; exact spelling.one⟩
  | resolveNetwork _ fault name =>
    exact wp_final (wp_mono (networkID_turn fault name false store)
      (fun _ _ looked =>
        ⟨(looked.1.widens widens).names, spelling.one.of_under looked.1.under⟩)
      fun _ _ same => same.1 ▸ spelling)
  | purge going act =>
    exact ⟨(act.passes spelling.names).names, spelling.one.of_under (act.under_of_going going)⟩

def FoldedStep (chunk : Nat) (fold : Bytes → Bytes) (network : Bytes) (w w' : World) : Prop :=
  ∃ t next purge, FoldedAct chunk fold network w.store (w.purges t) next purge ∧
    w' = ⟨next, Function.update w.purges t purge⟩

/-- When every append to a network is made under one fold, no interleaving and no failing statements
give it two buffers whose names fold alike. -/
theorem one_buffer_per_folded_name {chunk : Nat} {fold : Bytes → Bytes} {network : Bytes}
    {start : Store} {w : World} (opened : start.Opened)
    (one : OneSpelling fold network start.db.toTables)
    (reached : ReflTransGen (FoldedStep chunk fold network) (World.opened start) w) :
    ∀ first ∈ w.store.db.buffers, ∀ second ∈ w.store.db.buffers,
      ⟨first.networkId, network⟩ ∈ w.store.db.networks →
      ⟨second.networkId, network⟩ ∈ w.store.db.networks →
      fold first.name = fold second.name → first = second := by
  have spelling : Spelling fold network w.store := by
    induction reached with
    | refl =>
      refine ⟨fun name id cached => ?_, one⟩
      change start.networks.lookup name = some id at cached
      rw [opened.networks, AList.lookup_empty] at cached
      cases cached
    | tail _ step ih =>
      obtain ⟨_, _, _, act, rfl⟩ := step
      exact act.spelling ih
  exact fun first isFirst second isSecond firstNamed secondNamed same =>
    spelling.one first second ⟨isFirst, firstNamed⟩ ⟨isSecond, secondNamed⟩ same

def lowered (name : Bytes) : Bytes :=
  name.map fun byte => if 65 ≤ byte ∧ byte ≤ 90 then byte + 32 else byte

def sayFolded (target : Bytes) : Action (Message × Bool) :=
  append noFault noFault 0 (lit "libera") target
    { time := 10 ^ 9, sender := lit "ann", command := lit "PRIVMSG", raw := lit "hi" }
    { create := true, unarchive := true, fold := some lowered }

def spelledTwice : Store :=
  final (sayFolded (lit "#go"))
    (final (sayFolded (lit "#rust")) (final (sayFolded (lit "#Go")) (fresh 10 (16 * 2 ^ 20))))

theorem one_buffer_per_folded_name_spelledTwice :
    (spelledTwice.db.buffers.map fun row => row.name) = [lit "#Go", lit "#rust"] ∧
      ∀ first ∈ spelledTwice.db.buffers, ∀ second ∈ spelledTwice.db.buffers,
        ⟨first.networkId, lit "libera"⟩ ∈ spelledTwice.db.networks →
        ⟨second.networkId, lit "libera"⟩ ∈ spelledTwice.db.networks →
        lowered first.name = lowered second.name → first = second := by
  have said : ∀ (store : Store) (target : Bytes),
      FoldedStep pruneChunk lowered (lit "libera") (World.opened store)
        (World.opened (final (sayFolded target) store)) :=
    fun store target => ⟨0, _, _, .append noFault noFault 0 (lit "libera") target _ _ fun _ => rfl,
      by rw [World.opened, World.opened, Function.update_eq_self_iff.mpr rfl]; rfl⟩
  have none : OneSpelling lowered (lit "libera") (fresh 10 (16 * 2 ^ 20)).db.toTables :=
    fun first _ isFirst => absurd isFirst.1 not_mem_nil
  exact ⟨by decide +kernel, one_buffer_per_folded_name (fresh_opened (by decide) _) none
    (((ReflTransGen.refl.tail (said _ (lit "#Go"))).tail (said _ (lit "#rust"))).tail
      (said _ (lit "#go")))⟩

end Ircthing.Store
