/-
This file is the theory of reading an ordered list page by page with cursors.
-/

import Ircthing.Library.Window

namespace Ircthing.Library

open List

/-- A source of pages: which items are past a cursor, how many of them a page carries, and the
cursor made from the last item sent. -/
structure Pager (Item Cursor : Type) where
  past : Cursor → Item → Bool
  size : List Item → Nat
  cursor : Item → Cursor

namespace Pager

variable {Item Cursor Key : Type} [LinearOrder Key] (pager : Pager Item Cursor)
  {key : Item → Key} {items : List Item}

inductive Walk (items : List Item) : Cursor → List Item → Prop
  | last {after : Cursor}
      (all : pager.size (items.filter (pager.past after)) =
        (items.filter (pager.past after)).length) :
      Walk items after (items.filter (pager.past after))
  | next {after : Cursor} {before sent : List Item} {final : Item}
      (more : pager.size (items.filter (pager.past after)) <
        (items.filter (pager.past after)).length)
      (page : (items.filter (pager.past after)).take
        (pager.size (items.filter (pager.past after))) = before ++ [final])
      (later : Walk items (pager.cursor final) sent) :
      Walk items after (before ++ final :: sent)

inductive Ends : List Item → Item → Prop
  | here {rest before : List Item} {final : Item} (more : pager.size rest < rest.length)
      (page : rest.take (pager.size rest) = before ++ [final]) : Ends rest final
  | later {rest : List Item} {final : Item} (more : pager.size rest < rest.length)
      (ends : Ends (rest.drop (pager.size rest)) final) : Ends rest final

def Separates (key : Item → Key) (items : List Item) (final : Item) : Prop :=
  ∀ item ∈ items, pager.past (pager.cursor final) item = decide (key final < key item)

variable {pager}

theorem Ends.mem {final : Item} (ends : pager.Ends items final) : final ∈ items := by
  induction ends with
  | here _ page =>
    exact mem_of_mem_take (page ▸ mem_append_right _ (mem_singleton_self _))
  | later _ _ ih => exact mem_of_mem_drop ih

theorem Walk.head?_eq {after : Cursor} {sent : List Item} (walk : pager.Walk items after sent) :
    sent.head? = (items.filter (pager.past after)).head? := by
  cases walk with
  | last => rfl
  | @next _ before sent final more page later =>
    have front : ((items.filter (pager.past after)).take
        (pager.size (items.filter (pager.past after)))).head? =
        (items.filter (pager.past after)).head? := by
      refine head?_take.trans (if_neg fun zero => ?_)
      rw [zero, take_zero] at page
      exact append_ne_nil_of_right_ne_nil _ (cons_ne_nil _ _) page.symm
    rw [← front, page]
    cases before with
    | nil => rfl
    | cons => rfl

section

variable (monotone : ∀ cursor, ∀ low ∈ items, ∀ high ∈ items, key low ≤ key high →
  pager.past cursor low = true → pager.past cursor high = true)
include monotone

theorem separates_of_head? (strict : StrictlyAscending key items) {final first : Item}
    (above : (items.filter fun item => key final < key item).head? = some first)
    (past : (items.filter (pager.past (pager.cursor final))).head? = some first) :
    pager.Separates key items final := by
  have least (keep : Item → Bool) (head : (items.filter keep).head? = some first) {item : Item}
      (member : item ∈ items) (kept : keep item = true) : key first ≤ key item := by
    obtain ⟨_, cut⟩ := head?_eq_some_iff.mp head
    have inside : item ∈ items.filter keep := mem_filter.mpr ⟨member, kept⟩
    have sorted := strict.filter keep
    unfold StrictlyAscending at sorted
    rw [cut] at inside sorted
    rcases mem_cons.mp inside with rfl | beyond
    · exact le_rfl
    · exact (rel_of_pairwise_cons sorted beyond).le
  obtain ⟨firstMember, firstAbove⟩ := mem_filter.mp (mem_of_head? above)
  have firstPast := (mem_filter.mp (mem_of_head? past)).2
  intro item member
  rw [Bool.eq_iff_iff, decide_eq_true_eq]
  constructor
  · intro kept
    exact (of_decide_eq_true firstAbove).trans_le (least _ past member kept)
  · intro greater
    exact monotone _ first firstMember item member
      (least _ above member (decide_eq_true greater)) firstPast

theorem Walk.complete_iff (strict : StrictlyAscending key items) {after : Cursor}
    {sent rest before : List Item} (walk : pager.Walk items after sent)
    (whole : items = before ++ rest) (past : items.filter (pager.past after) = rest) :
    sent = rest ↔ ∀ final, pager.Ends rest final → pager.Separates key items final := by
  -- The induction follows the pages; `rest` is what a walk without gaps has still to send.
  induction walk generalizing rest before with
  | last all =>
    rw [past] at all ⊢
    refine iff_of_true rfl fun final ends => ?_
    cases ends with
    | here => omega
    | later => omega
  | @next after front sent final more page later ih =>
    rw [past] at more page
    have cut : rest = front ++ final :: rest.drop (pager.size rest) := by
      rw [← singleton_append, ← append_assoc, ← page, take_append_drop]
    have split : items = (before ++ front) ++ final :: rest.drop (pager.size rest) := by
      rw [append_assoc, ← cut, whole]
    have above : items.filter (fun item => key final < key item) = rest.drop (pager.size rest) := by
      have sorted := strict
      rw [split] at sorted
      conv_lhs => rw [split]
      exact sorted.above_of_split
    have onward : front ++ final :: sent = rest ↔ sent = rest.drop (pager.size rest) := by
      conv_lhs => rw [cut]
      rw [append_right_inj, cons_inj_right]
    rw [onward]
    by_cases separated : pager.Separates key items final
    · have agrees : items.filter (pager.past (pager.cursor final)) =
          rest.drop (pager.size rest) := (filter_congr separated).trans above
      have behind : items = (before ++ front ++ [final]) ++ rest.drop (pager.size rest) := by
        rw [append_assoc, singleton_append]
        exact split
      rw [ih behind agrees]
      constructor
      · intro faithful last ends
        cases ends with
        | here _ again =>
          rw [page] at again
          obtain ⟨-, same⟩ := append_inj' again rfl
          rwa [← singleton_inj.mp same]
        | later _ ends => exact faithful last ends
      · exact fun faithful last ends => faithful last (Ends.later more ends)
    · refine iff_of_false (fun same => separated ?_)
        fun faithful => separated (faithful final (Ends.here more page))
      have nonempty : rest.drop (pager.size rest) ≠ [] := by
        rw [Ne, drop_eq_nil_iff]
        omega
      obtain ⟨first, _, shape⟩ := exists_cons_of_ne_nil nonempty
      have firstAbove : (items.filter fun item => key final < key item).head? = some first := by
        rw [above, shape]
        rfl
      refine separates_of_head? monotone strict firstAbove ?_
      rw [← later.head?_eq, same, shape]
      rfl

end

end Pager

end Ircthing.Library
