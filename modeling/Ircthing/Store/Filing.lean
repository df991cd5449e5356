/-
This file says where an append files its message, and that it stores all of it or nothing.
-/

import Ircthing.Store.Spelling
import Ircthing.Store.Transparency

namespace Ircthing.Store

open Library Effect List Option Tables Relation

variable {id : Nat} {target network name other : Bytes} {store next : Store} {create : Bool}
  {message : Message} {vetoFault fault : Fault} {opts : AppendOpts} {row : BufferRow} {now : Int}

/-! ### Opening a buffer -/

structure Opens (network name : Bytes) (store next : Store) : Prop where
  coherent : next.Coherent
  networks : ∃ added, next.db.networks = store.db.networks ++ added
  buffers : ∃ added, next.db.buffers = store.db.buffers ++ added ∧ ∀ row ∈ added,
    row.name = name ∧ ⟨row.networkId, network⟩ ∈ next.db.networks ∧ row.archived = false
  messages : next.db.messages = store.db.messages
  cached : ∀ key, key ≠ (network, name) → next.buffers.lookup key = store.buffers.lookup key
  stays : ∀ key, next.buffers.lookup key = none → store.buffers.lookup key = none
  settled : ∀ id, store.db.locate network name = some id → next.db = store.db

namespace Opens

variable {network name : Bytes} {store next : Store}

theorem trans {middle : Store} (one : Opens network name store middle)
    (two : Opens network name middle next) : Opens network name store next where
  coherent := two.coherent
  networks := by
    obtain ⟨earlier, fromStore⟩ := one.networks
    obtain ⟨later, fromMiddle⟩ := two.networks
    exact ⟨earlier ++ later, by rw [fromMiddle, fromStore, append_assoc]⟩
  buffers := by
    obtain ⟨earlier, fromStore, earlierNew⟩ := one.buffers
    obtain ⟨later, fromMiddle, laterNew⟩ := two.buffers
    obtain ⟨_, networks⟩ := two.networks
    refine ⟨earlier ++ later, by rw [fromMiddle, fromStore, append_assoc], ?_⟩
    intro row member
    rcases mem_append.mp member with old | new
    · obtain ⟨named, inside, open_⟩ := earlierNew row old
      exact ⟨named, by rw [networks]; exact mem_append_left _ inside, open_⟩
    · exact laterNew row new
  messages := two.messages.trans one.messages
  cached key other := (two.cached key other).trans (one.cached key other)
  stays key missing := one.stays key (two.stays key missing)
  settled id located := by
    have same := one.settled id located
    exact (two.settled id (by rw [same]; exact located)).trans same

theorem rings {last : Store} (opens : Opens network name store next)
    (only : OnlyRings next last) : Opens network name store last where
  coherent := only.coherent opens.coherent
  networks := by rw [only.db]; exact opens.networks
  buffers := by rw [only.db]; exact opens.buffers
  messages := by rw [only.db]; exact opens.messages
  cached key other := by rw [only.buffers]; exact opens.cached key other
  stays key missing := opens.stays key (only.buffers ▸ missing)
  settled id located := only.db.trans (opens.settled id located)

theorem kept (opens : Opens network name store next)
    (member : row ∈ store.db.buffers) : row ∈ next.db.buffers := by
  obtain ⟨_, buffers, -⟩ := opens.buffers
  rw [buffers]
  exact mem_append_left _ member

theorem locate (opens : Opens network name store next)
    (located : store.db.locate other target = some id) : next.db.locate other target = some id := by
  obtain ⟨row, member, same, named, inside⟩ := store.db.locate_iff.mp located
  obtain ⟨_, networks⟩ := opens.networks
  refine next.db.locate_iff.mpr ⟨row, opens.kept member, same, named, ?_⟩
  rw [networks]
  exact mem_append_left _ inside

end Opens

theorem NetworkTurn.opens
    (turn : NetworkTurn network create store next) (coherent : store.Coherent) (name : Bytes) :
    Opens network name store next where
  coherent := turn.coherent coherent
  networks := turn.grown.networks
  buffers := ⟨[], by rw [turn.rows, append_nil], nofun⟩
  messages := turn.grown.messages
  cached key _ := by rw [turn.buffers]
  stays key missing := turn.buffers ▸ missing
  settled id located := by
    cases turn with
    | known | cached => rfl
    | created _ missing =>
      obtain ⟨_, resolved, -⟩ := locate_eq_some.mp located
      rw [missing] at resolved
      cases resolved

theorem BufferTurn.opens (turn : BufferTurn network target create store next)
    (coherent : store.Coherent) : Opens network target store next := by
  have nextCoherent := turn.coherent coherent
  have stays : ∀ key, next.buffers.lookup key = none → store.buffers.lookup key = none :=
    fun _ => turn.stays
  cases turn with
  | resolved turn => exact turn.opens coherent target
  | cached turn =>
    have opens := turn.opens coherent target
    refine ⟨nextCoherent, opens.networks, opens.buffers, opens.messages, fun key other => ?_,
      stays, opens.settled⟩
    rw [← turn.buffers]
    exact AList.lookup_insert_ne other
  | @created reached netID db turn _ _ home missing written =>
    have opens := turn.opens coherent target
    have resolved := opens.coherent.networks home
    have grown := grown_of_insertBuffer nextId_fresh written
    have buffers : db.buffers = reached.db.buffers ++ [_] := congrArg Tables.buffers written
    refine opens.trans ⟨nextCoherent, grown.networks, ⟨_, buffers, fun row member => ?_⟩,
      grown.messages, fun key other => ?_, fun key => lookup_insert_none, fun id located => ?_⟩
    · cases mem_singleton.mp member
      refine ⟨rfl, ?_, rfl⟩
      show _ ∈ db.networks
      rw [written]
      exact reached.db.networkId_eq_some.mp resolved
    · exact AList.lookup_insert_ne other
    · obtain ⟨other, again, found⟩ := locate_eq_some.mp located
      rw [resolved] at again
      cases again
      rw [missing] at found
      cases found

theorem RingTurn.opens {found : Option Nat} (turn : RingTurn network target create store found next)
    (coherent : store.Coherent) : Opens network target store next := by
  obtain ⟨_, opened, only, -⟩ := turn.only
  exact (opened.opens coherent).rings only

/-! ### Appending -/

theorem wp_append_filed (coherent : store.Coherent)
    (resolved : store.resolvedName network (clampUTF8 target maxStoredFieldBytes) opts.fold = name)
    {post : Message × Bool → Store → Prop} {failed : StoreError → Store → Prop}
    (unstored : ∀ next, Opens network name store next → post ({}, false) next)
    (failure : ∀ reason next, Opens network name store next → failed reason next)
    (stored : ∀ (reached : Store) (buffer : Nat) (db : Database) (archived : Bool),
      Opens network name store reached → reached.db.locate network name = some buffer →
      Committed reached.db.toTables buffer (message.filed now network name) opts.unarchive archived
        db.toTables →
      ∀ next, OnlyRings { reached with db := db } next →
        post (reached.db.stored (message.filed now network name), archived) next) :
    wp (append fault vetoFault now network target message opts) post failed store := by
  have opens : ∀ {asked next found}, BufferTurn network name false store asked →
      RingTurn network name opts.create asked found next → Opens network name store next :=
    fun looked opened => (looked.opens coherent).trans (opened.opens (looked.coherent coherent))
  refine wp_mono (append_turn resolved) ?_ ?_
  · intro value next turn
    cases turn with
    | unstored empty looked opened =>
      rw [empty value rfl]
      exact unstored next (opens looked opened)
    | stored looked opened committed =>
      obtain ⟨reached, turn, only, cached⟩ := opened.only
      refine stored _ _ _ _ (opens looked opened) ?_ committed _ (refreshRing_only _ _ _)
      rw [only.db]
      exact (turn.coherent (looked.coherent coherent)).buffers (cached _ rfl)
  · intro reason next turn
    cases turn with
    | unstored _ looked opened => exact failure reason next (opens looked opened)

/-! ### What an append that stores nothing leaves -/

def Tables.archivedFlag (tables : Tables) (buffer : Nat) : Bool :=
  (tables.buffers.find? fun row => row.id = buffer).any (·.archived)

theorem Opens.fresh (opens : Opens network name store next) (member : row ∈ next.db.buffers)
    (new : row ∉ store.db.buffers) : row.id ∉ store.db.buffers.map (·.id) := by
  intro used
  obtain ⟨old, held, same⟩ := mem_map.mp used
  have equal : old = row :=
    inj_on_of_nodup_map next.db.constraints.bufferIds (opens.kept held) member same
  exact new (equal ▸ held)

theorem Opens.located (opens : Opens network name store next)
    (found : next.db.locate other target = some id) :
    store.db.locate other target = some id ∨
      store.db.locate other target = none ∧ next.db.rowsOf id = [] := by
  cases before : store.db.locate other target with
  | some =>
    rw [opens.locate before] at found
    exact .inl found
  | none =>
    refine .inr ⟨rfl, ?_⟩
    obtain ⟨row, member, rfl, rfl, inside⟩ := next.db.locate_iff.mp found
    obtain ⟨_, networks⟩ := opens.networks
    have new : row ∉ store.db.buffers := by
      intro old
      obtain ⟨parent, held, same⟩ :=
        mem_map.mp (store.db.constraints.bufferNetworks row old)
      have equal : parent = ⟨row.networkId, other⟩ :=
        inj_on_of_nodup_map next.db.constraints.networkIds
          (by rw [networks]; exact mem_append_left _ held) inside same
      rw [store.db.locate_iff.mpr ⟨row, old, rfl, rfl, equal ▸ held⟩] at before
      cases before
    refine filter_eq_nil_iff.mpr fun line held => ?_
    rw [opens.messages] at held
    have parent := store.db.constraints.messageBuffers line held
    intro same
    rw [of_decide_eq_true same] at parent
    exact opens.fresh member new parent

structure Untouched (store next : Store) : Prop where
  messages : next.db.messages = store.db.messages
  archived : ∀ buffer, next.db.archivedFlag buffer = store.db.archivedFlag buffer
  pageBefore : ∀ network target cursor limit,
    next.db.pageBefore network target cursor limit = store.db.pageBefore network target cursor limit
  pageAfter : ∀ network target cursor limit,
    next.db.pageAfter network target cursor limit = store.db.pageAfter network target cursor limit

section

variable (opens : Opens network name store next)
include opens

theorem Opens.archivedFlag (buffer : Nat) :
    next.db.archivedFlag buffer = store.db.archivedFlag buffer := by
  obtain ⟨added, buffers, new⟩ := opens.buffers
  unfold Tables.archivedFlag
  rw [buffers, find?_append]
  cases store.db.buffers.find? fun row => row.id = buffer with
  | some => rfl
  | none =>
    cases found : added.find? fun row => row.id = buffer with
    | none => rfl
    | some row => exact (new row (mem_of_find?_eq_some found)).2.2

theorem Opens.answers (read : List MessageRow → List Line)
    (blank : read [] = []) (other target : Bytes) :
    (next.db.locate other target).elim [] (fun id => read (next.db.rowsOf id)) =
      (store.db.locate other target).elim [] fun id => read (store.db.rowsOf id) := by
  have rows : ∀ id, next.db.rowsOf id = store.db.rowsOf id := by
    intro id
    unfold rowsOf
    rw [opens.messages]
  cases found : next.db.locate other target with
  | none =>
    cases before : store.db.locate other target with
    | none => rfl
    | some =>
      rw [opens.locate before] at found
      cases found
  | some =>
    rcases opens.located found with before | ⟨before, empty⟩
    · rw [before, elim_some, elim_some, rows]
    · rw [before, elim_some, elim_none, empty, blank]

theorem Opens.untouched : Untouched store next where
  messages := opens.messages
  archived := opens.archivedFlag
  pageBefore other target cursor limit := by
    have answers := opens.answers (fun rows => (((newestFirst (rows.filter
      fun row => row.ts < cursor.ts || (row.ts == cursor.ts && row.id < cursor.id))).take
        limit).map MessageRow.line).reverse) (by simp [newestFirst]) other target
    revert answers
    unfold Tables.pageBefore
    cases next.db.locate other target <;> cases store.db.locate other target <;> exact id
  pageAfter other target cursor limit := by
    have answers := opens.answers (fun rows => ((oldestFirst (rows.filter
      fun row => cursor.ts < row.ts || (row.ts == cursor.ts && cursor.id < row.id))).take
        limit).map MessageRow.line) (by simp [oldestFirst, ordered]) other target
    revert answers
    unfold Tables.pageAfter
    cases next.db.locate other target <;> cases store.db.locate other target <;> exact id

end

/-! ### All or nothing -/

theorem Committed.flags {before after : Tables} {buffer : Nat} {unarchive archived : Bool}
    (committed : Committed before buffer message unarchive archived after) :
    after.archivedFlag buffer = archived ∧ archived = (!unarchive && before.archivedFlag buffer) ∧
      ∀ other, other ≠ buffer → after.archivedFlag other = before.archivedFlag other := by
  have settled := committed.settled
  unfold applyArchive at settled
  cases unarchive with
  | false =>
    obtain ⟨rfl, rfl⟩ := Prod.mk.inj settled
    exact ⟨rfl, rfl, fun _ _ => rfl⟩
  | true =>
    obtain ⟨rfl, rfl⟩ := Prod.mk.inj settled
    have found : ∀ id, (before.buffers.map fun row =>
        if row.id = buffer then { row with archived := false } else row).find?
          (fun row => row.id = id) =
        (before.buffers.find? fun row => row.id = id).map fun row =>
          if row.id = buffer then { row with archived := false } else row := by
      intro id
      rw [find?_map]
      congr 2
      funext row
      simp only [Function.comp_apply]
      split <;> rfl
    refine ⟨?_, rfl, fun other different => ?_⟩
    · show Option.any _ (find? _ (map _ before.buffers)) = false
      rw [found]
      cases held : before.buffers.find? fun row => row.id = buffer with
      | none => rfl
      | some row =>
        have same : row.id = buffer := by simpa using find?_some held
        rw [map_some, if_pos same]
        rfl
    · show Option.any _ (find? _ (map _ before.buffers)) = _
      unfold Tables.archivedFlag
      rw [found]
      cases held : before.buffers.find? fun row => row.id = other with
      | none => rfl
      | some row =>
        have same : row.id = other := by simpa using find?_some held
        rw [map_some, if_neg (same ▸ different)]

def StoredOnce (store next : Store) (unarchive : Bool) (answer : Message × Bool) : Prop :=
  ∃ buffer, next.db.messages = store.db.messages ++ [answer.1.row buffer] ∧
    next.db.archivedFlag buffer = answer.2 ∧
    answer.2 = (!unarchive && store.db.archivedFlag buffer) ∧
    ∀ other, other ≠ buffer → next.db.archivedFlag other = store.db.archivedFlag other

def Message.Unredacted (message : Message) : Prop :=
  message.redacted = false ∧ message.redactReason = []

theorem append_stores (coherent : store.Coherent) :
    wp (append fault vetoFault now network target message opts)
      (fun answer next => (answer.1.id = 0 → Untouched store next) ∧
        (answer.1.id ≠ 0 → StoredOnce store next opts.unarchive answer))
      (fun _ next => Untouched store next) store := by
  refine wp_append_filed coherent rfl (fun next opens => ⟨fun _ => opens.untouched, ?_⟩)
    (fun _ next opens => opens.untouched) ?_
  · exact fun stored => absurd rfl stored
  intro reached buffer db archived opens located committed next only
  refine ⟨fun unstored => absurd unstored (Nat.succ_ne_zero _), fun _ => ⟨buffer, ?_⟩⟩
  obtain ⟨flag, settled, others⟩ := committed.flags
  rw [only.db, ← opens.messages]
  refine ⟨committed.appended.messages, flag, ?_, fun other different => ?_⟩
  · rw [← opens.archivedFlag]
    exact settled
  · rw [← opens.archivedFlag]
    exact others other different

def AppendStep (store next : Store) : Prop :=
  ∃ (fault vetoFault : Fault) (now : Int) (network target : Bytes) (message : Message)
    (opts : AppendOpts), message.Unredacted ∧
    next = final (append fault vetoFault now network target message opts) store

theorem appends_hot {start : Store} (opened : start.Opened)
    (reached : ReflTransGen AppendStep start store) : store.Hot := by
  induction reached with
  | refl => exact Cached.opened opened
  | tail _ step hot =>
    obtain ⟨fault, vetoFault, now, network, target, _, opts, plain, rfl⟩ := step
    exact wp_final (append_spec hot fault vetoFault now network target opts plain.1 plain.2)

def SamePages (store next : Store) : Prop :=
  ∀ (fault later : Fault) (network target : Bytes) (cursor : Cursor) (limit : Int),
    (∀ page page' read read',
      exec (before fault network target cursor limit) store = (.ok page, read) →
      exec (before later network target cursor limit) next = (.ok page', read') →
      page'.map Message.line = page.map Message.line) ∧
    ∀ page page' read read',
      exec (after fault network target cursor limit) store = (.ok page, read) →
      exec (after later network target cursor limit) next = (.ok page', read') →
      page'.map Message.line = page.map Message.line

theorem Untouched.samePages (untouched : Untouched store next)
    (hot : store.Hot) (nextHot : next.Hot) : SamePages store next := by
  intro fault later network target cursor limit
  constructor
  · intro page page' read read' ended ended'
    have served := ((wp_iff _ _ _ _).mp
      (before_spec hot fault network target cursor limit)).1 page read ended
    have again := ((wp_iff _ _ _ _).mp
      (before_spec nextHot later network target cursor limit)).1 page' read' ended'
    rw [served.2.2, again.2.2, untouched.pageBefore]
  · intro page page' read read' ended ended'
    have served := ((wp_iff _ _ _ _).mp
      (after_spec hot fault network target cursor limit)).1 page read ended
    have again := ((wp_iff _ _ _ _).mp
      (after_spec nextHot later network target cursor limit)).1 page' read' ended'
    rw [served.2.2, again.2.2, untouched.pageAfter]

/-- After any appends a buffer holds at most one row of a msgid. An append that stores nothing
leaves all rows, flags and pages as they were; one that stores its message adds exactly its row and
settles the flag it reports. -/
theorem append_all_or_nothing {start store : Store} (opened : start.Opened)
    (reached : ReflTransGen AppendStep start store) (fault vetoFault : Fault) (now : Int)
    (network target : Bytes) (message : Message) (plain : message.Unredacted) (opts : AppendOpts) :
    (∀ first ∈ store.db.messages, ∀ second ∈ store.db.messages,
      first.bufferId = second.bufferId → first.msgid = second.msgid → first.msgid ≠ none →
        first = second) ∧
    ∀ outcome next, exec (append fault vetoFault now network target message opts) store =
        (outcome, next) →
      ((∀ answer, outcome = .ok answer → answer.1.id = 0) → next.db.messages = store.db.messages ∧
        (∀ buffer, next.db.archivedFlag buffer = store.db.archivedFlag buffer) ∧
        SamePages store next) ∧
      ∀ answer, outcome = .ok answer → answer.1.id ≠ 0 →
        StoredOnce store next opts.unarchive answer := by
  have hot := appends_hot opened reached
  refine ⟨fun first firstHeld second secondHeld sameBuffer sameId named => ?_, ?_⟩
  · obtain ⟨msgid, marked⟩ := ne_none_iff_exists'.mp named
    exact row_eq_of_msgid (mem_rowsOf.mpr ⟨firstHeld, rfl⟩)
      (mem_rowsOf.mpr ⟨secondHeld, sameBuffer.symm⟩) marked (sameId ▸ marked)
  intro outcome next ended
  have nextHot : next.Hot := by
    have kept := wp_final (append_spec hot fault vetoFault now network target opts plain.1 plain.2)
    rw [final, ended] at kept
    exact kept
  obtain ⟨answers, fails⟩ := (wp_iff _ _ _ _).mp (append_stores hot.coherent)
  cases outcome with
  | error reason =>
    have untouched := fails reason next ended
    exact ⟨fun _ => ⟨untouched.messages, untouched.archived, untouched.samePages hot nextHot⟩,
      by rintro _ ⟨⟩⟩
  | ok answer =>
    obtain ⟨nothing, once⟩ := answers answer next ended
    refine ⟨fun unstored => ?_, fun other same stored => ?_⟩
    · have untouched := nothing (unstored answer rfl)
      exact ⟨untouched.messages, untouched.archived, untouched.samePages hot nextHot⟩
    · cases same
      exact once stored

def sayOnce (target text : Bytes) (redacted : Bool) (fault : Fault) : Action (Message × Bool) :=
  append fault noFault 0 (lit "libera") target
    { msgID := text, command := lit "PRIVMSG", raw := text, text := text, redacted := redacted }
    { create := true, unarchive := true }

theorem append_all_or_nothing_duplicate :
    (exec (sayOnce (lit "#go") (lit "m1") false noFault)
      (final (sayOnce (lit "#go") (lit "m1") false noFault) (fresh 5 300))).2.db.messages =
      (final (sayOnce (lit "#go") (lit "m1") false noFault) (fresh 5 300)).db.messages := by
  have reached : ReflTransGen AppendStep (fresh 5 300)
      (final (sayOnce (lit "#go") (lit "m1") false noFault) (fresh 5 300)) :=
    .single ⟨_, _, _, _, _, _, _, ⟨rfl, rfl⟩, rfl⟩
  obtain ⟨-, ends⟩ := append_all_or_nothing (fresh_opened (by decide) 300) reached noFault noFault
    0 (lit "libera") (lit "#go")
    { msgID := lit "m1", command := lit "PRIVMSG", raw := lit "m1", text := lit "m1" }
    ⟨rfl, rfl⟩ { create := true, unarchive := true }
  refine ((ends _ _ rfl).1 fun answer ended => ?_).1
  have duplicate : (exec (sayOnce (lit "#go") (lit "m1") false noFault)
      (final (sayOnce (lit "#go") (lit "m1") false noFault) (fresh 5 300))).1 =
        .ok ({}, false) := by
    decide +kernel
  cases duplicate.symm.trans ended
  rfl

/-- A channel with a message, and another one in which a message was stored as redacted. Only the
ring of the second fits the budget. -/
def storedRedacted : Store :=
  final (sayOnce (lit "#b") (lit "m2") true noFault)
    (final (sayOnce (lit "#a") (lit "m1") false noFault) (fresh 5 300))

/-- An append marked redacted shows so in the hot ring alone. A later append that fails, after
warming another ring, changes the page of the first. -/
theorem failed_append_changes_page :
    (exec (sayOnce (lit "#a") (lit "m3") false fun statement => statement = .begin)
        storedRedacted).1 = .error (.statement .begin) ∧
      (exec (before noFault (lit "libera") (lit "#b") maxCursor 10) storedRedacted).1.map
        (fun page => page.map fun message => (message.id, message.redacted)) = .ok [(2, true)] ∧
      (exec (before noFault (lit "libera") (lit "#b") maxCursor 10)
        (final (sayOnce (lit "#a") (lit "m3") false fun statement => statement = .begin)
          storedRedacted)).1.map
        (fun page => page.map fun message => (message.id, message.redacted)) =
          .ok [(2, false)] := by
  decide +kernel

end Ircthing.Store
