/-
This file says what a redaction and an adoption do to the tables when no statement fails.
-/

import Ircthing.Store.Filing

namespace Ircthing.Store

open Library Effect

variable {store : Store}

/-! ### Rewriting a row -/

namespace RewriteTurn

variable {rewrite : Rewrite} {network name : Bytes} {done : Bool} {next : Store}

section

variable (turn : RewriteTurn rewrite network name store done next)
include turn

theorem rows :
    next.db.networks = store.db.networks ∧ next.db.buffers = store.db.buffers := by
  cases turn with
  | missed turn => rw [turn.reads.1]; exact ⟨rfl, rfl⟩
  | hit turn _ _ written =>
    rw [(refreshRing_only _ _ _).db, ← turn.reads.1]
    rw [written]
    exact ⟨rfl, rfl⟩

theorem ids (keeps : ∀ row, (rewrite.row row).id = row.id) :
    next.db.messages.map (·.id) = store.db.messages.map (·.id) := by
  cases turn with
  | missed turn => rw [turn.reads.1]
  | hit turn _ _ written =>
    rw [(refreshRing_only _ _ _).db, ← turn.reads.1]
    rw [written, Tables.updateMessage, List.map_map]
    refine List.map_congr_left fun message _ => ?_
    show (if _ then _ else message : MessageRow).id = message.id
    split
    · exact keeps message
    · rfl

theorem coherent (coherent : store.Coherent) : next.Coherent := by
  cases turn with
  | missed turn => exact turn.coherent coherent
  | hit turn _ _ written =>
    have reached := turn.coherent coherent
    exact (refreshRing_only _ _ _).coherent
      (reached.sameRows (by rw [written]; rfl) (by rw [written]; rfl))

theorem caches (coherent : store.Coherent) :
    (∀ key, key ≠ (network, name) → next.buffers.lookup key = store.buffers.lookup key) ∧
      ∀ key, next.buffers.lookup key = none → store.buffers.lookup key = none := by
  cases turn with
  | missed turn => exact ⟨(turn.opens coherent).cached, (turn.opens coherent).stays⟩
  | hit turn =>
    rw [(refreshRing_only _ _ _).buffers]
    exact ⟨(turn.opens coherent).cached, (turn.opens coherent).stays⟩

theorem located (coherent : store.Coherent) :
    (done = false → next.db = store.db ∧ ∀ buffer, store.db.locate network name = some buffer →
      rewrite.pick store.db.toTables buffer = none) ∧
    (done = true → ∃ buffer row, store.db.locate network name = some buffer ∧
      rewrite.pick store.db.toTables buffer = some row ∧
      next.db.toTables = store.db.updateMessage row.id rewrite.row) := by
  cases turn with
  | missed turn nothing =>
    refine ⟨fun _ => ⟨turn.reads.1, fun buffer located => ?_⟩, nofun⟩
    rw [← turn.reads.1] at located ⊢
    rcases nothing with nowhere | ⟨_, cached, missing⟩
    · rw [nowhere.locate (turn.coherent coherent)] at located
      cases located
    · rw [(turn.coherent coherent).buffers cached] at located
      cases located
      exact missing
  | @hit reached id row db turn cached found written =>
    refine ⟨nofun, fun _ => ⟨id, row, ?_⟩⟩
    rw [← turn.reads.1, (refreshRing_only _ _ _).db]
    exact ⟨(turn.coherent coherent).buffers cached, found, written⟩

end

end RewriteTurn

/-! ### Redaction -/

/-! ### Adoption -/

/-- What `AdoptOwnMsgID` does to the tables: it stamps the placeholder it finds, unless the buffer
holds the msgid already, and nothing otherwise. -/
structure Adopts (msg : OwnMsg) (name : Bytes) (store next : Store) (done : Bool) : Prop where
  cached : ∀ key, key ≠ (msg.network, name) → next.buffers.lookup key = store.buffers.lookup key
  stays : ∀ key, next.buffers.lookup key = none → store.buffers.lookup key = none
  coherent : next.Coherent
  networks : next.db.networks = store.db.networks
  buffers : next.db.buffers = store.db.buffers
  missed : done = false → next.db = store.db ∧
    ∀ buffer, store.db.locate msg.network name = some buffer →
      store.db.hasMsgid buffer (clampMsgID msg.msgID) = true ∨
      store.db.placeholder buffer msg.sender (clampUTF8 msg.text maxStoredMessageBytes)
        msg.sinceMs = none
  hit : done = true → ∃ buffer row, store.db.locate msg.network name = some buffer ∧
    store.db.hasMsgid buffer (clampMsgID msg.msgID) = false ∧
    store.db.placeholder buffer msg.sender (clampUTF8 msg.text maxStoredMessageBytes)
      msg.sinceMs = some row ∧
    next.db.toTables = store.db.updateMessage row.id
      fun row => { row with msgid := some (clampMsgID msg.msgID) }

theorem adoptOwnMsgID_adopts (coherent : store.Coherent) (msg : OwnMsg)
    (fold : Option (Bytes → Bytes)) (complete : msg.msgID ≠ [] ∧ msg.text ≠ [] ∧ msg.sender ≠ []) :
    wp (adoptOwnMsgID noFault msg fold)
      (fun done next => Adopts msg (store.resolvedName msg.network msg.target fold) store next done)
      (fun _ _ => False) store := by
  refine wp_mono adoptOwnMsgID_turn ?_ ?_
  · rintro done next (⟨_, -⟩ | turn)
    · tauto
    obtain ⟨missed, hit⟩ := turn.located coherent
    obtain ⟨cached, stays⟩ := turn.caches coherent
    refine ⟨cached, stays, turn.coherent coherent, turn.rows.1, turn.rows.2, fun done => ?_,
      fun done => ?_⟩
    · refine ⟨(missed done).1, fun buffer located => or_iff_not_imp_left.mpr fun unseen => ?_⟩
      exact (if_neg unseen).symm.trans ((missed done).2 buffer located)
    · obtain ⟨buffer, row, located, found, written⟩ := hit done
      exact ⟨buffer, row, located, (adoption_pick found).1, (adoption_pick found).2, written⟩
  · rintro reason next ⟨-, _, impossible⟩
    cases impossible

end Ircthing.Store
