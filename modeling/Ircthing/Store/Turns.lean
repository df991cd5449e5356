/-
This file says, once for each operation on the history of a buffer, everything it can do to the
store, whatever statements fail and whether or not the caches agree with the tables.
-/

import Ircthing.Store.Coverage

namespace Ircthing.Store

open Library Effect List

variable {store : Store} {network target msgid : Bytes} {db : Database} {buffer : Nat}
  {tables : Tables} {row : MessageRow} {fault : Fault} {msg : OwnMsg}

/-! ### Resolving a buffer with its ring -/

/-- What `bufferAndRing` can do: resolve the buffer, and then stamp its ring or warm one. -/
inductive RingTurn (network target : Bytes) (create : Bool) (store : Store) :
    Option Nat → Store → Prop
  | missing {next : Store} (turn : BufferTurn network target create store next) :
      RingTurn network target create store none next
  | resident {reached : Store} {id : Nat} {ring : Ring}
      (turn : BufferTurn network target create store reached)
      (cached : reached.buffers.lookup (network, target) = some id)
      (held : reached.rings.lookup id = some ring) :
      RingTurn network target create store (some id) (reached.touchRing id)
  | warmed {reached : Store} {id : Nat} (turn : BufferTurn network target create store reached)
      (cached : reached.buffers.lookup (network, target) = some id)
      (absent : reached.rings.lookup id = none) :
      RingTurn network target create store (some id) (reached.warm network target id)

theorem bufferAndRing_turn {create : Bool} :
    wp (bufferAndRing fault network target create)
      (fun found next => RingTurn network target create store found next ∧
        (found = none → create = false → next.Nowhere network target))
      (fun _ next => BufferTurn network target create store next ∧
        (create = false → ∃ statement, fault statement = true)) store := by
  unfold bufferAndRing
  refine wp_seq bufferID_turn ?_ fun _ _ failed => failed
  rintro found reached ⟨turn, cached, nowhere⟩
  cases found with
  | none => exact ⟨.missing turn, nowhere⟩
  | some id =>
    rw [wp_bind, wp_get]
    split
    next ring held =>
      exact ⟨.resident turn (cached id rfl) held, nofun⟩
    next absent =>
      exact wp_attempt_bind (fun fails => ⟨turn, fun _ => ⟨_, fails⟩⟩)
        ⟨.warmed turn (cached id rfl) absent, nofun⟩

/-! ### Appending -/

/-- The message as `append` stores it under a name. -/
def Message.filed (message : Message) (now : Int) (network name : Bytes) : Message :=
  { message.clamped now with network := network, target := name }

/-- What `append` can do under the resolved name: look the buffer up for the guard, resolve it with
its ring, and store nothing or one row. -/
inductive AppendTurn (network name : Bytes) (message : Message) (opts : AppendOpts)
    (store : Store) : Option (Message × Bool) → Store → Prop
  | unstored {asked next : Store} {found : Option Nat} {outcome : Option (Message × Bool)}
      (empty : ∀ value, outcome = some value → value = ({}, false))
      (looked : BufferTurn network name false store asked)
      (opened : RingTurn network name opts.create asked found next) :
      AppendTurn network name message opts store outcome next
  | stored {asked reached : Store} {buffer : Nat} {db : Database} {archived : Bool}
      (looked : BufferTurn network name false store asked)
      (opened : RingTurn network name opts.create asked (some buffer) reached)
      (committed : Committed reached.db.toTables buffer message opts.unarchive archived
        db.toTables) :
      AppendTurn network name message opts store (some (reached.db.stored message, archived))
        ({ reached with db := db }.refreshRing buffer fun ring =>
          ring.insert (reached.db.stored message))

theorem append_turn {vetoFault : Fault} {now : Int} {message : Message}
    {opts : AppendOpts} {name : Bytes}
    (named : store.resolvedName network (clampUTF8 target maxStoredFieldBytes) opts.fold = name) :
    wp (append fault vetoFault now network target message opts)
      (fun value next =>
        AppendTurn network name (message.filed now network name) opts store (some value) next)
      (fun _ next => AppendTurn network name (message.filed now network name) opts store none next)
      store := by
  have unasked : BufferTurn network name false store store := .resolved .known
  have unopened : ∀ store, RingTurn network name opts.create store none store :=
    fun store => .missing (.resolved .known)
  have empty : ∀ value : Message × Bool, some ({}, false) = some value → value = ({}, false) :=
    fun _ same => (Option.some.inj same).symm
  unfold append
  split
  · exact .unstored nofun unasked (unopened store)
  refine wp_seq resolveTarget_named ?_ ?_
  rotate_left
  · rintro reason _ ⟨rfl, -⟩
    exact .unstored nofun unasked (unopened _)
  rintro _ next ⟨unchanged, resolved⟩
  obtain rfl := resolved.trans named
  rw [unchanged, wp_bind]
  refine wp_mono guarded_turn ?_ fun _ next looked => .unstored nofun looked (unopened next)
  intro vetoed asked looked
  split
  · exact .unstored empty looked (unopened asked)
  refine wp_seq bufferAndRing_turn ?_ fun _ _ failed => .unstored nofun looked (.missing failed.1)
  rintro found reached ⟨opened, -⟩
  cases found with
  | none => exact .unstored empty looked opened
  | some =>
    exact wp_commitAppendLocked_settled (fun _ => .unstored empty looked opened)
      (fun _ => .unstored nofun looked opened)
      fun _ _ committed => .stored looked opened committed

/-! ### Rewriting a row -/

theorem updateMessage_valid {id : Nat} {rewrite : MessageRow → MessageRow}
    (ids : ∀ row, (rewrite row).id = row.id)
    (buffers : ∀ row, (rewrite row).bufferId = row.bufferId)
    (unused : ∀ row ∈ db.messages, row.id = id → ∀ msgid, (rewrite row).msgid = some msgid →
      ∀ other ∈ db.messages, other.id ≠ id → other.bufferId = row.bufferId →
        other.msgid ≠ some msgid) :
    (db.updateMessage id rewrite).Constraints := by
  have valid := db.constraints
  have sameId : ∀ row : MessageRow, (if row.id = id then rewrite row else row).id = row.id := by
    intro row
    split
    · exact ids row
    · rfl
  have sameBuffer : ∀ row : MessageRow,
      (if row.id = id then rewrite row else row).bufferId = row.bufferId := by
    intro row
    split
    · exact buffers row
    · rfl
  refine ⟨valid.networkIds, valid.networkNames, valid.bufferIds, valid.bufferNames,
    valid.bufferNetworks, ?_, ?_, ?_, valid.configIds, valid.configNames, valid.settingKeys⟩
  · show ((db.messages.map _).map _).Nodup
    rw [map_map]
    have same : (fun row : MessageRow => row.id) ∘
        (fun row => if row.id = id then rewrite row else row) = fun row => row.id :=
      funext sameId
    rw [same]
    exact valid.messageIds
  · show (filterMap _ (db.messages.map _)).Nodup
    rw [filterMap_map]
    refine pairwise_filterMap.mpr ?_
    -- two rows of one key are apart by their ids; the old keys were apart already
    have apart := pairwise_map.mp valid.messageIds
    have unique := pairwise_filterMap.mp valid.messageMsgids
    refine (apart.and unique).imp_of_mem ?_
    rintro first second firstHeld secondHeld ⟨differ, keys⟩ key keyed other otherKeyed same
    simp only [Function.comp_apply] at keyed otherKeyed
    rw [sameBuffer] at keyed otherKeyed
    obtain ⟨msgid, marked, rfl⟩ := Option.map_eq_some_iff.mp keyed
    obtain ⟨_, marked', rfl⟩ := Option.map_eq_some_iff.mp otherKeyed
    obtain ⟨inBuffer, rfl⟩ := Prod.mk.inj same
    by_cases hit : first.id = id
    · rw [if_pos hit] at marked
      have missed : second.id ≠ id := fun again => differ (hit.trans again.symm)
      rw [if_neg missed] at marked'
      exact unused first firstHeld hit msgid marked second secondHeld missed inBuffer.symm marked'
    · rw [if_neg hit] at marked
      by_cases again : second.id = id
      · rw [if_pos again] at marked'
        exact unused second secondHeld again msgid marked' first firstHeld hit inBuffer marked
      · rw [if_neg again] at marked'
        exact keys (first.bufferId, msgid) (by rw [marked]; rfl) (second.bufferId, msgid)
          (by rw [marked']; rfl) (by rw [inBuffer])
  · intro row member
    obtain ⟨old, held, rfl⟩ := mem_map.mp member
    rw [sameBuffer]
    exact valid.messageBuffers old held

theorem wp_execute_valid {statement : Statement}
    {post : Unit → Store → Prop} {failed : StoreError → Store → Prop}
    (valid : tables.Constraints) (failure : fault statement = true →
      failed (.statement statement) store)
    (success : ∀ db : Database, db.toTables = tables → post () { store with db := db }) :
    wp (execute fault statement tables) post failed store := by
  unfold execute
  refine wp_attempt_bind failure ?_
  unfold Database.write
  rw [dif_pos valid]
  exact success _ rfl

/-! ### Redacting and adopting -/

theorem row_eq_of_msgid {first second : MessageRow} (firstMember : first ∈ db.rowsOf buffer)
    (secondMember : second ∈ db.rowsOf buffer) (firstId : first.msgid = some msgid)
    (secondId : second.msgid = some msgid) : first = second := by
  by_contra different
  have unique := pairwise_filterMap.mp db.constraints.messageMsgids
  have symmetric : Std.Symm fun one two : MessageRow =>
      ∀ key, one.msgid.map (fun msgid => (one.bufferId, msgid)) = some key →
        ∀ other, two.msgid.map (fun msgid => (two.bufferId, msgid)) = some other → key ≠ other :=
    ⟨fun one two distinct key keyed other otherKeyed same =>
      distinct other otherKeyed key keyed same.symm⟩
  have rows := mem_rowsOf.mp firstMember
  have others := mem_rowsOf.mp secondMember
  refine unique.forall rows.1 others.1 different (buffer, msgid) ?_ (buffer, msgid) ?_ rfl
  · rw [firstId, rows.2]
    rfl
  · rw [secondId, others.2]
    rfl

theorem redactable_eq_some (found : tables.redactable buffer msgid = some row) :
    row ∈ tables.rowsOf buffer ∧ row.msgid = some msgid ∧ row.redacted = false := by
  have member := (mem_insertionSort _).mp (mem_of_mem_head? found)
  have facts := mem_filter.mp member
  exact ⟨facts.1, by simpa using facts.2⟩

theorem placeholder_eq_some {sender text : Bytes} {sinceMs : Int}
    (found : tables.placeholder buffer sender text sinceMs = some row) :
    row ∈ tables.rowsOf buffer ∧ row.msgid = none ∧ row.sender = sender ∧
      row.text = some text ∧ row.ts ≥ sinceMs := by
  have member := mem_ordered.mp (mem_of_mem_head? found)
  have facts := mem_filter.mp member
  exact ⟨facts.1, by simpa using facts.2⟩

/-- An operation that rewrites a row of a buffer: the row it picks, and the change on disk and in
the ring. -/
structure Rewrite where
  pick : Tables → Nat → Option MessageRow
  row : MessageRow → MessageRow
  ring : MessageRow → Ring → Ring × Int

/-- The rewriting of `SetRedacted`. -/
def redaction (msgid reason : Bytes) : Rewrite where
  pick tables buffer := tables.redactable buffer (clampMsgID msgid)
  row := (·.scrubbed (clampUTF8 reason maxStoredFieldBytes))
  ring _ ring := ring.redact (clampMsgID msgid) (clampUTF8 reason maxStoredFieldBytes)

/-- The rewriting of `AdoptOwnMsgID`. -/
def adoption (msg : OwnMsg) : Rewrite where
  pick tables buffer :=
    if tables.hasMsgid buffer (clampMsgID msg.msgID) then none
    else tables.placeholder buffer msg.sender (clampUTF8 msg.text maxStoredMessageBytes) msg.sinceMs
  row row := { row with msgid := some (clampMsgID msg.msgID) }
  ring row ring := ring.adoptMsgID row.id (clampMsgID msg.msgID)

theorem adoption_pick (found : (adoption msg).pick tables buffer = some row) :
    tables.hasMsgid buffer (clampMsgID msg.msgID) = false ∧ tables.placeholder buffer msg.sender
      (clampUTF8 msg.text maxStoredMessageBytes) msg.sinceMs = some row := by
  unfold adoption at found
  dsimp only at found
  split at found
  · cases found
  next unseen =>
    exact ⟨Bool.not_eq_true _ ▸ unseen, found⟩

inductive RewriteTurn (rewrite : Rewrite) (network name : Bytes) (store : Store) :
    Bool → Store → Prop
  | missed {next : Store} (turn : BufferTurn network name false store next)
      (nothing : next.Nowhere network name ∨ ∃ buffer,
        next.buffers.lookup (network, name) = some buffer ∧
          rewrite.pick next.db.toTables buffer = none) :
      RewriteTurn rewrite network name store false next
  | hit {reached : Store} {id : Nat} {row : MessageRow} {db : Database}
      (turn : BufferTurn network name false store reached)
      (cached : reached.buffers.lookup (network, name) = some id)
      (found : rewrite.pick reached.db.toTables id = some row)
      (written : db.toTables = reached.db.updateMessage row.id rewrite.row) :
      RewriteTurn rewrite network name store true
        ({ reached with db := db }.refreshRing id (rewrite.ring row))

theorem setRedacted_turn {reason : Bytes} :
    wp (setRedacted fault network target msgid reason)
      (fun done next => msgid = [] ∧ next = store ∨
        msgid ≠ [] ∧ RewriteTurn (redaction msgid reason) network target store done next)
      (fun _ next => BufferTurn network target false store next ∧
        ∃ statement, fault statement = true) store := by
  unfold setRedacted
  split
  next empty =>
    exact .inl ⟨empty, rfl⟩
  rename_i given
  refine wp_seq bufferID_turn ?_ fun _ _ failed => ⟨failed.1, failed.2 rfl⟩
  rintro found reached ⟨turn, cached, nowhere⟩
  cases found with
  | none => exact .inr ⟨given, .missed turn (.inl (nowhere rfl rfl))⟩
  | some id =>
    have fails : ∀ {statement}, fault statement = true →
        BufferTurn network target false store reached ∧ ∃ statement, fault statement = true :=
      fun fails => ⟨turn, _, fails⟩
    refine wp_attempt_bind fails ?_
    rw [wp_bind, wp_get]
    split
    next missing =>
      exact .inr ⟨given, .missed turn (.inr ⟨id, cached id rfl, missing⟩)⟩
    rename_i row found
    refine wp_attempt_bind fails ?_
    rw [wp_bind]
    refine wp_attemptWhen fails ?_
    refine wp_attempt_bind fails ?_
    rw [wp_bind]
    refine wp_execute_valid ?_ fails fun db written =>
      .inr ⟨given, .hit turn (cached id rfl) found written⟩
    refine updateMessage_valid (fun _ => rfl) (fun _ => rfl) ?_
    intro first firstHeld hit msgid marked second secondHeld differ inBuffer again
    exact differ ((congrArg MessageRow.id (row_eq_of_msgid
      (mem_rowsOf.mpr ⟨secondHeld, inBuffer⟩) (mem_rowsOf.mpr ⟨firstHeld, rfl⟩) again
      marked)).trans hit)

theorem adoptOwnMsgID_turn {fold : Option (Bytes → Bytes)} :
    wp (adoptOwnMsgID fault msg fold)
      (fun done next => (msg.msgID = [] ∨ msg.text = [] ∨ msg.sender = []) ∧ next = store ∨
        RewriteTurn (adoption msg) msg.network (store.resolvedName msg.network msg.target fold)
          store done next)
      (fun _ next => BufferTurn msg.network (store.resolvedName msg.network msg.target fold) false
        store next ∧ ∃ statement, fault statement = true) store := by
  unfold adoptOwnMsgID
  split
  next incomplete =>
    exact .inl ⟨incomplete, rfl⟩
  refine wp_seq resolveTarget_named ?_ ?_
  rotate_left
  · rintro _ _ ⟨rfl, fails⟩
    exact ⟨.resolved .known, fails⟩
  rintro name _ ⟨rfl, rfl⟩
  refine wp_seq bufferID_turn ?_ fun _ _ failed => ⟨failed.1, failed.2 rfl⟩
  rintro found reached ⟨turn, cached, nowhere⟩
  cases found with
  | none => exact .inr (.missed turn (.inl (nowhere rfl rfl)))
  | some id =>
    have missed : (adoption msg).pick reached.db.toTables id = none →
        RewriteTurn (adoption msg) msg.network _ _ false reached :=
      fun missing => .missed turn (.inr ⟨id, cached id rfl, missing⟩)
    refine wp_attempt_bind (fun fails => ⟨turn, _, fails⟩) ?_
    rw [wp_bind, wp_get]
    split
    next seen =>
      exact .inr (missed (if_pos seen))
    rename_i unseen
    refine wp_attempt_bind (fun fails => ⟨turn, _, fails⟩) ?_
    split
    next missing =>
      exact .inr (missed ((if_neg unseen).trans missing))
    rename_i row placeholder
    have held := mem_rowsOf.mp (placeholder_eq_some placeholder).1
    rw [wp_bind]
    refine wp_execute_valid ?_ (fun fails => ⟨turn, _, fails⟩) fun db written =>
      .inr (.hit turn (cached id rfl) ((if_neg unseen).trans placeholder) written)
    refine updateMessage_valid (fun _ => rfl) (fun _ => rfl) ?_
    intro first firstHeld hit msgid marked second secondHeld _ inBuffer again
    cases marked
    rw [row_eq_of_id firstHeld held.1 hit, held.2] at inBuffer
    exact unseen (any_eq_true.mpr ⟨second, secondHeld, decide_eq_true ⟨inBuffer, again⟩⟩)

end Ircthing.Store
