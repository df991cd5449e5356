/-
This file gives the rules for items that pass from hand to hand: a holder makes an item for a queue
and carries it there, or drops it; what is in a queue is taken out, by a taker or by a holder that
drops it; a dropped or taken item is put an end to, once.
-/

import Mathlib.Logic.Function.Basic
import Mathlib.Data.List.Nodup

namespace Ircthing.Library

open List Function

@[ext] structure Custody (Holder Queue Item : Type) where
  /-- The item a holder brings to a queue. -/
  carries : Holder → Option (Queue × Item)
  /-- The item a holder gets rid of. -/
  drops : Holder → Option Item
  queue : Queue → List Item
  /-- The queue an item was made for, while it has not ended. -/
  live : Item → Option Queue
  /-- The item was made. -/
  known : Item → Bool
  taken : List Item

namespace Custody

variable {Holder Queue Item : Type} {item : Item}

inductive Moves [DecidableEq Holder] [DecidableEq Queue] [DecidableEq Item]
    (custody : Custody Holder Queue Item) : Custody Holder Queue Item → Prop
  | stays : Moves custody custody
  | made (holder : Holder) (queue : Queue) (item : Item) (new : custody.known item = false)
      (idle : custody.carries holder = none) :
      Moves custody { custody with
        carries := update custody.carries holder (some (queue, item))
        live := update custody.live item (some queue)
        known := update custody.known item true }
  | dropped (holder : Holder) (queue : Queue) (item : Item)
      (carried : custody.carries holder = some (queue, item))
      (idle : custody.drops holder = none) :
      Moves custody { custody with
        carries := update custody.carries holder none
        drops := update custody.drops holder (some item) }
  | sent (holder : Holder) (queue : Queue) (item : Item)
      (carried : custody.carries holder = some (queue, item)) :
      Moves custody { custody with
        carries := update custody.carries holder none
        queue := update custody.queue queue (custody.queue queue ++ [item]) }
  | drained (holder : Holder) (queue : Queue) (item : Item) (rest : List Item)
      (first : custody.queue queue = item :: rest) (idle : custody.drops holder = none) :
      Moves custody { custody with
        drops := update custody.drops holder (some item)
        queue := update custody.queue queue rest }
  | took (queue : Queue) (item : Item) (rest : List Item)
      (first : custody.queue queue = item :: rest) :
      Moves custody { custody with
        queue := update custody.queue queue rest
        taken := custody.taken ++ [item] }
  | gave (holder : Holder) (item : Item) (had : item ∈ custody.taken)
      (idle : custody.drops holder = none) :
      Moves custody { custody with drops := update custody.drops holder (some item) }
  | ended (holder : Holder) (item : Item) (dropped : custody.drops holder = some item) :
      Moves custody { custody with live := update custody.live item none }
  | left (holder : Holder) (item : Item) (dropped : custody.drops holder = some item)
      (dead : custody.live item = none) :
      Moves custody { custody with drops := update custody.drops holder none }

inductive Place (Holder Queue : Type)
  | carried (holder : Holder) (queue : Queue)
  | queued (queue : Queue)
  | loose

structure Placed (custody : Custody Holder Queue Item) (place : Item → Place Holder Queue) :
    Prop where
  carried : ∀ item holder queue,
    place item = .carried holder queue ↔ custody.carries holder = some (queue, item)
  queued : ∀ item queue, place item = .queued queue ↔ item ∈ custody.queue queue
  nodup : ∀ queue, (custody.queue queue).Nodup
  liveCarried : ∀ item holder queue, place item = .carried holder queue →
    custody.live item = some queue
  liveQueued : ∀ item queue, place item = .queued queue → custody.live item = some queue
  dropped : ∀ item holder, custody.drops holder = some item →
    place item = .loose ∧ custody.known item = true
  taken : ∀ item ∈ custody.taken, place item = .loose ∧ custody.known item = true
  known : ∀ item queue, custody.live item = some queue → custody.known item = true
  kept : ∀ item queue, custody.live item = some queue → place item = .loose →
    item ∈ custody.taken ∨ ∃ holder, custody.drops holder = some item

variable {custody next : Custody Holder Queue Item} {place : Item → Place Holder Queue}

theorem Placed.loose_of_unknown (placed : Placed custody place)
    (new : custody.known item = false) : place item = .loose := by
  cases at_ : place item with
  | carried holder queue =>
    have known := placed.known item queue (placed.liveCarried item holder queue at_)
    exact absurd known (by simp [new])
  | queued queue =>
    have known := placed.known item queue (placed.liveQueued item queue at_)
    exact absurd known (by simp [new])
  | loose => rfl

theorem Placed.of_live (placed : Placed custody place) {queue : Queue}
    (live : custody.live item = some queue) :
    (∃ holder, custody.carries holder = some (queue, item)) ∨ item ∈ custody.queue queue ∨
      item ∈ custody.taken ∨ ∃ holder, custody.drops holder = some item := by
  cases at_ : place item with
  | carried holder other =>
    have same := placed.liveCarried item holder other at_
    rw [live] at same
    cases same
    exact .inl ⟨holder, (placed.carried item holder queue).mp at_⟩
  | queued other =>
    have same := placed.liveQueued item other at_
    rw [live] at same
    cases same
    exact .inr (.inl ((placed.queued item queue).mp at_))
  | loose => exact .inr (.inr (placed.kept item queue live at_))

variable [DecidableEq Holder] [DecidableEq Queue] [DecidableEq Item]

theorem Moves.of_eq {same : Custody Holder Queue Item} (moves : Moves custody next)
    (equal : same = next) : Moves custody same := equal ▸ moves

/-- A move puts the item in another place and leaves the others where they are. -/
theorem Moves.placed (placed : Placed custody place) (moves : Moves custody next) :
    ∃ place, Placed next place := by
  cases moves with
  | stays => exact ⟨place, placed⟩
  | made holder queue item new =>
    have loose := placed.loose_of_unknown new
    refine ⟨update place item (.carried holder queue), ?_⟩
    constructor <;> simp only [update_apply]
    · grind [placed.carried]
    · grind [placed.queued]
    · exact placed.nodup
    · grind [placed.liveCarried]
    · grind [placed.liveQueued]
    · grind [placed.dropped]
    · grind [placed.taken]
    · grind [placed.known]
    · grind [placed.kept]
  | dropped holder queue item carried =>
    have at_ := (placed.carried item holder queue).mpr carried
    have live := placed.liveCarried item holder queue at_
    have known := placed.known item queue live
    refine ⟨update place item .loose, ?_⟩
    constructor <;> simp only [update_apply]
    · grind [placed.carried]
    · grind [placed.queued]
    · exact placed.nodup
    · grind [placed.liveCarried]
    · grind [placed.liveQueued]
    · grind [placed.dropped]
    · grind [placed.taken]
    · exact placed.known
    · grind [placed.kept]
  | sent holder queue item carried =>
    have at_ := (placed.carried item holder queue).mpr carried
    have live := placed.liveCarried item holder queue at_
    refine ⟨update place item (.queued queue), ?_⟩
    constructor <;> simp only [update_apply]
    · grind [placed.carried]
    · grind [placed.queued]
    · intro other
      have absent : item ∉ custody.queue queue := fun member => by
        rw [(placed.queued item queue).mpr member] at at_
        cases at_
      split
      · rw [← concat_eq_append]
        exact Nodup.concat absent (placed.nodup queue)
      · exact placed.nodup other
    · grind [placed.liveCarried]
    · grind [placed.liveQueued]
    · grind [placed.dropped]
    · grind [placed.taken]
    · exact placed.known
    · grind [placed.kept]
  | drained holder queue item rest first idle | took queue item rest first =>
    have at_ := (placed.queued item queue).mpr (first ▸ mem_cons_self)
    have live := placed.liveQueued item queue at_
    have known := placed.known item queue live
    obtain ⟨absent, nodup⟩ := nodup_cons.mp (first ▸ placed.nodup queue)
    refine ⟨update place item .loose, ?_⟩
    constructor <;> simp only [update_apply]
    · grind [placed.carried]
    · grind [placed.queued]
    · grind [placed.nodup]
    · grind [placed.liveCarried]
    · grind [placed.liveQueued]
    · grind [placed.dropped]
    · grind [placed.taken]
    · exact placed.known
    · grind [placed.kept]
  | gave _ item had =>
    have at_ := placed.taken item had
    refine ⟨place, { placed with dropped := ?_, kept := ?_ }⟩
    · simp only [update_apply]
      grind [placed.dropped]
    · simp only [update_apply]
      grind [placed.kept]
  | ended holder item dropped =>
    have at_ := (placed.dropped item holder dropped).1
    refine ⟨place, { placed with
      liveCarried := ?_, liveQueued := ?_, known := ?_, kept := ?_ }⟩
    · simp only [update_apply]
      grind [placed.liveCarried]
    · simp only [update_apply]
      grind [placed.liveQueued]
    · simp only [update_apply]
      grind [placed.known]
    · simp only [update_apply]
      grind [placed.kept]
  | left _ _ dropped =>
    refine ⟨place, { placed with dropped := ?_, kept := ?_ }⟩
    · simp only [update_apply]
      grind [placed.dropped]
    · simp only [update_apply]
      grind [placed.kept]

end Custody

end Ircthing.Library
