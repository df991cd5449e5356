/-
This file is the theory of keeping the least items of a stream in bounded space.
-/

import Ircthing.Library.Window

namespace Ircthing.Library

open List

variable {Item Key : Type} [LinearOrder Key] {key : Item → Key} {item : Item} {items : List Item}
  {limit : Nat}

def keepLeast (key : Item → Key) (limit : Nat) (kept : List Item) (item : Item) : List Item :=
  if kept.length < limit then place key item kept
  else if kept.getLast?.any fun greatest => key item < key greatest then
    place key item kept.dropLast
  else kept

theorem place_append_of_lt {greater : Item} (less : key item < key greater)
    (before after : List Item) :
    place key item (before ++ greater :: after) = place key item before ++ greater :: after := by
  induction before with
  | nil => rw [nil_append, place_cons, if_pos less, place_nil]; rfl
  | cons _ _ ih =>
    rw [cons_append, place_cons, place_cons, ih]
    split <;> rfl

theorem place_append_of_le {before : List Item} (least : ∀ other ∈ before, key other ≤ key item)
    (after : List Item) : place key item (before ++ after) = before ++ place key item after := by
  induction before with
  | nil => rfl
  | cons head _ ih =>
    rw [cons_append, place_cons, if_neg (not_lt.mpr (least head mem_cons_self)),
      ih fun other member => least other (.tail _ member)]
    rfl

theorem keepLeast_take (ascending : Ascending key items) :
    keepLeast key limit (items.take limit) item = (place key item items).take limit := by
  unfold keepLeast
  by_cases room : items.length < limit
  · rw [take_of_length_le room.le, if_pos room, take_of_length_le]
    rw [length_place]
    exact room
  · have full : (items.take limit).length = limit := by
      rw [length_take]
      omega
    rw [if_neg (by omega)]
    rcases eq_nil_or_concat' (items.take limit) with none | ⟨before, greatest, last⟩
    · have zero : limit = 0 := by
        rw [← full, none]
        rfl
      rw [none, zero]
      rfl
    · have split : items = before ++ greatest :: items.drop limit := by
        rw [← singleton_append, ← append_assoc, ← last, take_append_drop]
      have size : before.length + 1 = limit := by
        rw [← full, last, length_append]
        rfl
      rw [last, getLast?_concat, dropLast_concat, Option.any_some]
      by_cases less : key item < key greatest
      · rw [if_pos (decide_eq_true less)]
        conv_rhs => rw [split]
        rw [place_append_of_lt less, take_append_of_le_length (by rw [length_place]; omega),
          take_of_length_le (by rw [length_place]; omega)]
      · rw [if_neg (by simpa using less)]
        have least : ∀ other ∈ before ++ [greatest], key other ≤ key item := by
          intro other member
          refine le_trans ?_ (not_lt.mp less)
          rcases mem_append.mp member with early | same
          · have sorted := ascending
            unfold Ascending at sorted
            rw [split] at sorted
            exact (pairwise_append.mp sorted).2.2 other early greatest mem_cons_self
          · rw [mem_singleton.mp same]
        conv_rhs => rw [split, ← singleton_append, ← append_assoc, place_append_of_le least]
        rw [take_append_of_le_length (by simp; omega), take_of_length_le (by simp; omega)]

theorem ordered_concat (distinct : (items ++ [item]).Nodup) (keyed : Keyed key (items ++ [item])) :
    ordered key (items ++ [item]) = place key item (ordered key items) := by
  have part : items.Nodup := (nodup_append.mp distinct).1
  have inside : ∀ other ∈ items, other ∈ items ++ [item] := fun _ => mem_append_left _
  have keyedPart : Keyed key items := fun first firstMember second secondMember =>
    keyed first (inside first firstMember) second (inside second secondMember)
  refine (ordered_ascending distinct keyed).ext
    ((ordered_ascending part keyedPart).place fun other member same => ?_) fun other => ?_
  · have held := mem_ordered.mp member
    have equal := keyed other (inside other held) item
      (mem_append_right _ (mem_singleton_self item)) same
    exact (nodup_append.mp distinct).2.2 other held item (mem_singleton_self item) equal
  · rw [mem_ordered, mem_place, mem_ordered, mem_append, mem_singleton, or_comm]

theorem foldl_keepLeast (distinct : items.Nodup) (keyed : Keyed key items)
    : items.foldl (keepLeast key limit) [] = (ordered key items).take limit := by
  induction items using reverseRecOn with
  | nil => exact take_nil.symm
  | append_singleton items _ ih =>
    have part : items.Nodup := (nodup_append.mp distinct).1
    have keyedPart : Keyed key items := fun first firstMember second secondMember =>
      keyed first (mem_append_left _ firstMember) second (mem_append_left _ secondMember)
    rw [foldl_append, ih part keyedPart, ordered_concat distinct keyed]
    exact keepLeast_take (ordered_ascending part keyedPart).weaken

end Ircthing.Library
