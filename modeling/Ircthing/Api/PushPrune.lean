/-
This file models how push deliveries prune subscriptions while others are written, and proves when
a prune spares what is newer than the slice it works on. A delivery prunes by endpoint, under the
epoch it has captured before it loaded the slice; a new subscription does not advance the epoch.
-/

import Ircthing.Golang.Strings
import Ircthing.Library.Dict
import Mathlib.Logic.Relation

namespace Ircthing.Api.PushPrune

open Library Function Relation

/-- The rows by endpoint, each with the number of its last write. The barrier is held by a request
that has deleted rows and is about to advance `pushEpoch`. -/
structure Table where
  rows : Dict Bytes Nat := ∅
  written : Nat := 0
  pushEpoch : Nat := 0
  barred : Bool := false

/-- A write of the row of an endpoint. -/
def Table.write (table : Table) (endpoint : Bytes) : Table :=
  { table with
    rows := table.rows.insert endpoint (table.written + 1), written := table.written + 1 }

/-- `TouchPushSuccess`: an update of the row, if there is one. -/
def Table.touch (table : Table) (endpoint : Bytes) : Table :=
  if (table.rows.lookup endpoint).isSome then table.write endpoint else table

/-- Where `deliverPush` is. A slice was loaded when `since` writes were made; its first endpoint is
at work, and `prunes` once its row is to be deleted. -/
inductive Delivery
  | idle
  | begun (epoch : Nat)
  | loaded (epoch since : Nat) (slice : List Bytes) (prunes : Bool)

/-- The handlers that write the table. -/
inductive Request : Table → Table → Prop
  /-- `UpsertPushSubscription`, if it is let in and has room. -/
  | subscribe (table : Table) (endpoint : Bytes) (free : table.barred = false) :
    Request table (table.write endpoint)
  | unsubscribe (table : Table) (endpoint : Bytes) (free : table.barred = false) :
    Request table { table with rows := table.rows.erase endpoint }
  | logout (table : Table) (endpoint : Bytes) (free : table.barred = false) :
    Request table { table with rows := table.rows.erase endpoint, barred := true }
  /-- `SetSettingAndWipePushSubscriptions`, for a password change. -/
  | wipe (table : Table) (free : table.barred = false) :
    Request table { table with rows := ∅, barred := true }
  /-- `BumpPushEpoch`, which also cancels the context of the deliveries that are loaded. -/
  | bump (table : Table) (held : table.barred = true) :
    Request table { table with pushEpoch := table.pushEpoch + 1, barred := false }

/-- The steps of `deliverPush` and `pushToSubscription`. -/
inductive Delivers : Table → Delivery → Table → Delivery → Prop
  | capture (table : Table) : Delivers table .idle table (.begun table.pushEpoch)
  | load (table : Table) (epoch : Nat) :
    Delivers table (.begun epoch) table (.loaded epoch table.written table.rows.keys false)
  | sent (table : Table) (epoch since : Nat) (endpoint : Bytes) (rest : List Bytes) :
    Delivers table (.loaded epoch since (endpoint :: rest) false) (table.touch endpoint)
      (.loaded epoch since rest false)
  /-- The send failed for now, or its success was not recorded. -/
  | passed (table : Table) (epoch since : Nat) (endpoint : Bytes) (rest : List Bytes) :
    Delivers table (.loaded epoch since (endpoint :: rest) false) table
      (.loaded epoch since rest false)
  /-- Its keys are bad or the push service does not know it. -/
  | gone (table : Table) (epoch since : Nat) (slice : List Bytes)
      (current : table.pushEpoch = epoch) :
    Delivers table (.loaded epoch since slice false) table (.loaded epoch since slice true)
  /-- `DeletePushSubscription`, unless its context was cancelled. -/
  | prune (table : Table) (since : Nat) (endpoint : Bytes) (rest : List Bytes) :
    Delivers table (.loaded table.pushEpoch since (endpoint :: rest) true)
      { table with rows := table.rows.erase endpoint }
      (.loaded table.pushEpoch since rest false)
  | stop (table : Table) (delivery : Delivery) : Delivers table delivery table .idle

/-- The table, and where each of the delivery workers is. -/
structure World where
  table : Table := {}
  deliveries : Nat → Delivery := fun _ => .idle

/-- The endpoint is ahead in a slice that was loaded in the given epoch. -/
def Delivery.mayPrune (epoch : Nat) (endpoint : Bytes) : Delivery → Prop
  | .loaded captured _ slice _ => captured = epoch ∧ endpoint ∈ slice
  | _ => False

/-- When a row is written, by a request or by the delivery `actor`, no other delivery can still
prune it. -/
def Orderly (world : World) (actor : Option Nat) (next : Table) : Prop :=
  ∀ t, some t ≠ actor → ∀ endpoint,
    next.rows.lookup endpoint ≠ world.table.rows.lookup endpoint →
      (next.rows.lookup endpoint).isSome →
        ¬ (world.deliveries t).mayPrune world.table.pushEpoch endpoint

/-- A step of a request or of a delivery that meets a condition where it is taken. -/
inductive Step (meets : World → Option Nat → Table → Prop) (world : World) : World → Prop
  | request {table : Table} (met : meets world none table) (request : Request world.table table) :
    Step meets world { world with table := table }
  | deliver {table : Table} {t : Nat} {delivery : Delivery} (met : meets world (some t) table)
      (step : Delivers world.table (world.deliveries t) table delivery) :
    Step meets world ⟨table, update world.deliveries t delivery⟩

/-- What a delivery has captured is not ahead of the table, and what it can still prune is not newer
than its slice. -/
def Delivery.Sound (table : Table) : Delivery → Prop
  | .idle => True
  | .begun epoch => epoch ≤ table.pushEpoch
  | .loaded epoch since slice _ => epoch ≤ table.pushEpoch ∧ slice.Nodup ∧
      (epoch = table.pushEpoch → ∀ endpoint ∈ slice, ∀ write ∈ table.rows.lookup endpoint,
        write ≤ since)

/-- What every step keeps: rows bear the numbers of writes that were made, and deliveries are
sound. -/
structure Sound (world : World) : Prop where
  written : ∀ endpoint, ∀ write ∈ world.table.rows.lookup endpoint, write ≤ world.table.written
  deliveries : ∀ t, (world.deliveries t).Sound world.table

variable {world : World} {table next : Table} {delivery : Delivery} {t : Nat}

theorem Delivery.Sound.of_rows (sound : delivery.Sound table)
    (epoch : next.pushEpoch = table.pushEpoch)
    (rows : ∀ endpoint, delivery.mayPrune table.pushEpoch endpoint →
      ∀ write ∈ next.rows.lookup endpoint, write ∈ table.rows.lookup endpoint) :
    delivery.Sound next := by
  cases delivery with
  | idle => trivial
  | begun => exact sound.trans epoch.ge
  | loaded captured since slice =>
    refine ⟨sound.1.trans epoch.ge, sound.2.1, fun current endpoint member write found => ?_⟩
    have same := current.trans epoch
    exact sound.2.2 same endpoint member write (rows endpoint ⟨same, member⟩ write found)

theorem mem_erase {rows : Dict Bytes Nat} {endpoint other : Bytes} {write : Nat}
    (found : write ∈ (rows.erase other).lookup endpoint) : write ∈ rows.lookup endpoint := by
  rw [Dict.lookup_erase_eq] at found
  split at found
  · cases found
  · exact found

theorem lookup_write (table : Table) (endpoint other : Bytes) :
    (table.write endpoint).rows.lookup other =
      if other = endpoint then some (table.written + 1) else table.rows.lookup other :=
  Dict.lookup_insert_eq ..

/-- A row written anew spoils no delivery but one that can still prune it. -/
theorem Sound.write (sound : Sound world) (endpoint : Bytes) :
    (∀ other, ∀ write ∈ (world.table.write endpoint).rows.lookup other,
        write ≤ (world.table.write endpoint).written) ∧
      ((world.table.write endpoint).rows.lookup endpoint ≠ world.table.rows.lookup endpoint ∧
        ((world.table.write endpoint).rows.lookup endpoint).isSome) ∧
      ∀ t, ¬ (world.deliveries t).mayPrune world.table.pushEpoch endpoint →
        (world.deliveries t).Sound (world.table.write endpoint) := by
  refine ⟨fun other write found => ?_, ⟨fun kept => ?_, ?_⟩, fun t cannot => ?_⟩
  · rw [lookup_write] at found
    split at found
    · cases found
      exact le_rfl
    · exact (sound.written other write found).trans (Nat.le_succ _)
  · rw [lookup_write, if_pos rfl] at kept
    exact absurd (sound.written endpoint _ kept.symm) (Nat.not_succ_le_self _)
  · rw [lookup_write, if_pos rfl]
    rfl
  · refine (sound.deliveries t).of_rows rfl fun other may write found => ?_
    rwa [lookup_write, if_neg] at found
    rintro rfl
    exact cannot may

theorem Sound.request (sound : Sound world) (orderly : Orderly world none table)
    (request : Request world.table table) : Sound { world with table := table } := by
  obtain ⟨written, deliveries⟩ := sound
  cases request with
  | subscribe endpoint =>
    obtain ⟨below, ⟨changed, present⟩, kept⟩ := Sound.write ⟨written, deliveries⟩ endpoint
    exact ⟨below, fun t => kept t (orderly t nofun endpoint changed present)⟩
  | unsubscribe | logout =>
    exact ⟨fun other write found => written other write (mem_erase found),
      fun t => (deliveries t).of_rows rfl fun _ _ _ => mem_erase⟩
  | wipe =>
    exact ⟨fun _ _ found => (by cases found),
      fun t => (deliveries t).of_rows rfl fun _ _ _ found => (by cases found)⟩
  | bump =>
    refine ⟨written, fun t => ?_⟩
    have before := deliveries t
    revert before
    dsimp only
    cases world.deliveries t with
    | idle => exact id
    | begun => exact fun before => Nat.le_succ_of_le before
    | loaded epoch =>
      exact fun before => ⟨Nat.le_succ_of_le before.1, before.2.1, fun ahead =>
        absurd before.1 (ahead ▸ Nat.not_succ_le_self _)⟩

/-- A delivery that is done with the first endpoint of its slice. -/
theorem Delivery.Sound.tail {epoch since : Nat} {endpoint : Bytes} {rest : List Bytes}
    {prunes : Bool} (sound : (Delivery.loaded epoch since (endpoint :: rest) prunes).Sound table) :
    (Delivery.loaded epoch since rest false).Sound table :=
  ⟨sound.1, sound.2.1.tail, fun current other member =>
    sound.2.2 current other (.tail _ member)⟩

theorem Sound.deliver (sound : Sound world) (orderly : Orderly world (some t) table)
    (step : Delivers world.table (world.deliveries t) table delivery) :
    Sound ⟨table, update world.deliveries t delivery⟩ := by
  have before := sound.deliveries t
  have updated : (∀ other, other ≠ t → (world.deliveries other).Sound table) →
      delivery.Sound table → ∀ other, (update world.deliveries t delivery other).Sound table := by
    intro others mine other
    rw [update_apply]
    split
    · exact mine
    · next different => exact others other different
  generalize world.deliveries t = held at step before
  cases step with
  | capture => exact ⟨sound.written, updated (fun other _ => sound.deliveries other) le_rfl⟩
  | load epoch =>
    exact ⟨sound.written, updated (fun other _ => sound.deliveries other) ⟨before,
      world.table.rows.keys_nodup, fun _ endpoint _ write found =>
        sound.written endpoint write found⟩⟩
  | sent epoch since endpoint rest =>
    have touched : world.table.touch endpoint = world.table.write endpoint ∨
        world.table.touch endpoint = world.table := ite_eq_or_eq ..
    rcases touched with same | same <;> rw [same] at orderly updated ⊢
    · obtain ⟨below, ⟨changed, present⟩, kept⟩ := sound.write endpoint
      refine ⟨below, updated (fun other different => kept other (orderly other
        (fun same => different (Option.some.inj same)) endpoint changed present)) ?_⟩
      -- the endpoint itself is done with, and it is not in the slice twice
      refine before.tail.of_rows rfl fun other may write found => ?_
      rwa [lookup_write, if_neg] at found
      rintro rfl
      exact (List.nodup_cons.mp before.2.1).1 may.2
    · exact ⟨sound.written, updated (fun other _ => sound.deliveries other) before.tail⟩
  | passed => exact ⟨sound.written, updated (fun other _ => sound.deliveries other) before.tail⟩
  | gone => exact ⟨sound.written, updated (fun other _ => sound.deliveries other) before⟩
  | prune =>
    exact ⟨fun other write found => sound.written other write (mem_erase found),
      updated (fun other _ => (sound.deliveries other).of_rows rfl fun _ _ _ => mem_erase)
        (before.tail.of_rows rfl fun _ _ _ => mem_erase)⟩
  | stop => exact ⟨sound.written, updated (fun other _ => sound.deliveries other) trivial⟩

end Ircthing.Api.PushPrune
