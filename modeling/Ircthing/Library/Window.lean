/-
This file is the theory of a hot window in front of a larger collection.
-/

import Mathlib.Data.List.Sort
import Mathlib.Data.List.DropRight
import Mathlib.Order.Basic

namespace Ircthing.Library

open List

variable {Item Key : Type} [LinearOrder Key] {item head : Item} {key : Item → Key}
  {items before after : List Item} {bound : Key}
variable {limit count : Nat}

/-! ### Ascending lists -/

variable (key) (items)

def Ascending : Prop :=
  items.Pairwise fun first second => key first ≤ key second

def StrictlyAscending : Prop :=
  items.Pairwise fun first second => key first < key second

def Keyed : Prop :=
  ∀ first ∈ items, ∀ second ∈ items, key first = key second → first = second

/-- The items in key order, as an `ORDER BY` returns them. -/
def ordered : List Item :=
  items.insertionSort fun first second => key first ≤ key second

variable {key} {items}

theorem StrictlyAscending.weaken (strict : StrictlyAscending key items) : Ascending key items :=
  strict.imp le_of_lt

namespace Ascending

variable {key : Item → Key} {items : List Item}

theorem filter (ascending : Ascending key items) (keep : Item → Bool) :
    Ascending key (items.filter keep) :=
  Pairwise.filter keep ascending

theorem drop (ascending : Ascending key items) (count : Nat) : Ascending key (items.drop count) :=
  Pairwise.sublist (drop_sublist count items) ascending

theorem tail (ascending : Ascending key (head :: items)) : Ascending key items :=
  Pairwise.of_cons ascending

theorem head_le (ascending : Ascending key (head :: items))
    (member : item ∈ head :: items) : key head ≤ key item := by
  rcases mem_cons.mp member with rfl | later
  · exact le_rfl
  · exact rel_of_pairwise_cons ascending later

theorem le_of_cut {first second : Item} (ascending : Ascending key items)
    (early : first ∈ items.take count) (late : second ∈ items.drop count) :
    key first ≤ key second := by
  unfold Ascending at ascending
  rw [← take_append_drop count items] at ascending
  exact (pairwise_append.mp ascending).2.2 first early second late

end Ascending

namespace StrictlyAscending

variable {key : Item → Key} {items : List Item}

theorem filter (strict : StrictlyAscending key items) (keep : Item → Bool) :
    StrictlyAscending key (items.filter keep) :=
  Pairwise.filter keep strict

theorem drop (strict : StrictlyAscending key items) (count : Nat) :
    StrictlyAscending key (items.drop count) :=
  Pairwise.sublist (drop_sublist count items) strict

theorem ext {other : List Item} (first : StrictlyAscending key items)
    (second : StrictlyAscending key other)
    (same : ∀ item, item ∈ items ↔ item ∈ other) : items = other := by
  have : Std.Irrefl fun one two : Item => key one < key two := ⟨fun item => lt_irrefl (key item)⟩
  have : Std.Antisymm fun one two : Item => key one < key two :=
    ⟨fun _ _ less more => absurd more (lt_asymm less)⟩
  exact Pairwise.eq_of_mem_iff first second same

end StrictlyAscending

theorem mem_ordered :
    item ∈ ordered key items ↔ item ∈ items :=
  mem_insertionSort _

theorem ordered_sorted :
    (ordered key items).Pairwise fun first second => key first ≤ key second := by
  have : Std.Total fun first second : Item => key first ≤ key second :=
    ⟨fun first second => le_total (key first) (key second)⟩
  have : IsTrans Item fun first second : Item => key first ≤ key second :=
    ⟨fun _ _ _ first second => le_trans first second⟩
  exact pairwise_insertionSort _ items

theorem ordered_ascending (distinct : items.Nodup)
    (keyed : Keyed key items) : StrictlyAscending key (ordered key items) := by
  have nodup : (ordered key items).Pairwise (· ≠ ·) :=
    (Perm.nodup_iff (perm_insertionSort _ items)).mpr distinct
  refine (ordered_sorted.and nodup).imp_of_mem ?_
  intro first second firstMember secondMember both
  refine lt_of_le_of_ne both.1 fun same => both.2 ?_
  exact keyed first (mem_ordered.mp firstMember) second (mem_ordered.mp secondMember) same

theorem head?_ordered (member : item ∈ items)
    (least : ∀ other ∈ items, other ≠ item → key item < key other) :
    (ordered key items).head? = some item := by
  have held : item ∈ ordered key items := mem_ordered.mpr member
  cases shape : ordered key items with
  | nil =>
    rw [shape] at held
    cases held
  | cons head rest =>
    have headMember : head ∈ items := mem_ordered.mp (shape ▸ mem_cons_self)
    by_contra different
    have below := least head headMember fun same => different (congrArg some same)
    have sorted : Pairwise _ (head :: rest) := shape ▸ ordered_sorted
    rw [shape] at held
    rcases mem_cons.mp held with same | later
    · exact different (congrArg some same.symm)
    · -- the rest of a sorted list is not below its head
      exact absurd below (not_lt.mpr (rel_of_pairwise_cons sorted later))

theorem Ascending.filter_tail {head : Item} (ascending : Ascending key (head :: items))
    (above : ¬ key head < bound) : items.filter (fun item => key item < bound) = [] := by
  rw [filter_eq_nil_iff]
  intro item member
  have order := ascending.head_le (.tail _ member)
  simpa using le_trans (not_lt.mp above) order

theorem Ascending.split_at (ascending : Ascending key items) :
    items = items.filter (fun item => key item < bound) ++
      items.filter (fun item => bound ≤ key item) := by
  induction items with
  | nil => rfl
  | cons head rest ih =>
    by_cases below : key head < bound
    · rw [filter_cons_of_pos (by simpa using below),
        filter_cons_of_neg (by simpa using below), cons_append,
        ← ih ascending.tail]
    · -- everything after a head that is not below the bound is not below it either
      have all : rest.filter (fun item => bound ≤ key item) = rest := by
        rw [filter_eq_self]
        intro item member
        have order := ascending.head_le (.tail _ member)
        simpa using le_trans (not_lt.mp below) order
      rw [filter_cons_of_neg (by simpa using below),
        filter_cons_of_pos (by simpa using below), ascending.filter_tail below, all]
      rfl

/-! ### Inserting in key order -/

variable (key)

def place (item : Item) (items : List Item) : List Item :=
  let index := items.findIdx fun other => key item < key other
  items.take index ++ item :: items.drop index

theorem place_nil (item : Item) : place key item [] = [item] := rfl

theorem place_cons (item head : Item) (items : List Item) :
    place key item (head :: items) = if key item < key head then item :: head :: items
      else head :: place key item items := by
  unfold place
  by_cases before : key item < key head
  · simp [findIdx_cons, before]
  · simp [findIdx_cons, before]

variable {key}

theorem mem_place {other : Item} : other ∈ place key item items ↔ other = item ∨ other ∈ items := by
  induction items with
  | nil => simp [place_nil]
  | cons _ _ ih =>
    rw [place_cons]
    split
    · simp
    · rw [mem_cons, ih, mem_cons]
      tauto

theorem length_place (key : Item → Key) (item : Item) (items : List Item) :
    (place key item items).length = items.length + 1 := by
  induction items with
  | nil => rfl
  | cons _ _ ih =>
    rw [place_cons]
    split
    · rfl
    · simp [ih]

theorem Ascending.place (ascending : Ascending key items) (item : Item) :
    Ascending key (Library.place key item items) := by
  induction items with
  | nil => exact pairwise_singleton _ _
  | cons _ _ ih =>
    rw [place_cons]
    split
    next before =>
      refine Pairwise.cons ?_ ascending
      intro other member
      exact le_trans (le_of_lt before) (ascending.head_le member)
    next notBefore =>
      refine Pairwise.cons ?_ (ih ascending.tail)
      intro other member
      rcases mem_place.mp member with rfl | later
      · exact not_lt.mp notBefore
      · exact ascending.head_le (.tail _ later)

theorem StrictlyAscending.place
    (strict : StrictlyAscending key items) (fresh : ∀ other ∈ items, key other ≠ key item) :
    StrictlyAscending key (Library.place key item items) := by
  induction items with
  | nil => exact pairwise_singleton _ _
  | cons head _ ih =>
    rw [place_cons]
    split
    next before =>
      refine Pairwise.cons ?_ strict
      intro other member
      exact lt_of_lt_of_le before (strict.weaken.head_le member)
    next notBefore =>
      have before : key head < key item :=
        lt_of_le_of_ne (not_lt.mp notBefore) (fresh head mem_cons_self)
      refine Pairwise.cons ?_ (ih (Pairwise.of_cons strict)
        fun other member => fresh other (.tail _ member))
      intro other member
      rcases mem_place.mp member with rfl | later
      · exact before
      · exact rel_of_pairwise_cons strict later

/-! ### Pages -/

/-- The page below a bound: the greatest `limit` items under it, in order. -/
def pageBelow (key : Item → Key) (bound : Key) (limit : Nat) (items : List Item) : List Item :=
  (items.filter fun item => key item < bound).rtake limit

/-- The page above a bound: the least `limit` items over it, in order. -/
def pageAbove (key : Item → Key) (bound : Key) (limit : Nat) (items : List Item) : List Item :=
  (items.filter fun item => bound < key item).take limit

/-! Placing and paging commute with any map that keeps the key. -/

section Map

variable {Other : Type} {key : Item → Key} {otherKey : Other → Key} {change : Item → Other}

section

variable (keeps : ∀ item, otherKey (change item) = key item)
include keeps

theorem map_place (item : Item) (items : List Item) :
    (place key item items).map change = place otherKey (change item) (items.map change) := by
  induction items with
  | nil => rfl
  | cons _ _ ih =>
    rw [place_cons, map_cons, place_cons, keeps, keeps]
    split
    · rfl
    · rw [map_cons, ih]

theorem map_pageBelow (bound : Key) (limit : Nat) (items : List Item) :
    (pageBelow key bound limit items).map change =
      pageBelow otherKey bound limit (items.map change) := by
  have same : (fun other : Other => decide (otherKey other < bound)) ∘ change =
      fun item => decide (key item < bound) := funext fun item => by simp [keeps]
  unfold pageBelow rtake
  rw [filter_map, same, length_map, map_drop]

theorem map_pageAbove (bound : Key) (limit : Nat) (items : List Item) :
    (pageAbove key bound limit items).map change =
      pageAbove otherKey bound limit (items.map change) := by
  have same : (fun other : Other => decide (bound < otherKey other)) ∘ change =
      fun item => decide (bound < key item) := funext fun item => by simp [keeps]
  unfold pageAbove
  rw [filter_map, same, map_take]

end

end Map

theorem rtake_append_of_le {first second : List Item} (enough : limit ≤ second.length) :
    (first ++ second).rtake limit = second.rtake limit := by
  unfold rtake
  rw [length_append,
    show first.length + second.length - limit = first.length + (second.length - limit) by omega,
    drop_append, drop_eq_nil_of_le (by omega), nil_append]
  congr 1
  omega

theorem rtake_eq_self_of_lt (short : (items.rtake limit).length < limit) :
    items.rtake limit = items := by
  unfold rtake at short ⊢
  rw [length_drop] at short
  rw [show items.length - limit = 0 by omega, drop_zero]

theorem StrictlyAscending.above_of_split
    (strict : StrictlyAscending key (before ++ item :: after)) :
    (before ++ item :: after).filter (fun other => key item < key other) = after := by
  obtain ⟨-, later, less⟩ := pairwise_append.mp strict
  have none : before.filter (fun other => key item < key other) = [] := by
    refine filter_eq_nil_iff.mpr fun other member => ?_
    simpa using (less other member item mem_cons_self).le
  have all : (item :: after).filter (fun other => key item < key other) = after := by
    rw [filter_cons_of_neg (by simp)]
    refine filter_eq_self.mpr fun other member => ?_
    simpa using rel_of_pairwise_cons later member
  rw [filter_append, all, none, nil_append]

theorem Ascending.take_findIdx (ascending : Ascending key items) :
    items.take (items.findIdx fun item => !decide (key item < bound)) =
      items.filter fun item => key item < bound := by
  induction items with
  | nil => rfl
  | cons head rest ih =>
    by_cases below : key head < bound
    · rw [filter_cons_of_pos (by simpa using below), ← ih ascending.tail]
      simp [findIdx_cons, below]
    · rw [filter_cons_of_neg (by simpa using below), ascending.filter_tail below]
      simp [findIdx_cons, below]

theorem Ascending.drop_findIdx (ascending : Ascending key items) :
    items.drop (items.findIdx fun item => bound < key item) =
      items.filter fun item => bound < key item := by
  induction items with
  | nil => rfl
  | cons head rest ih =>
    by_cases above : bound < key head
    · have all : rest.filter (fun item => bound < key item) = rest := by
        rw [filter_eq_self]
        intro item member
        simpa using lt_of_lt_of_le above (ascending.head_le (.tail _ member))
      rw [filter_cons_of_pos (by simpa using above), all]
      simp [findIdx_cons, above]
    · rw [filter_cons_of_neg (by simpa using above), ← ih ascending.tail]
      simp [findIdx_cons, above]

/-! ### Windows -/

structure Covers (key : Item → Key) (complete : Bool) (hot disk : List Item) : Prop where
  ascending : Ascending key hot
  holds : ∀ item ∈ disk,
    (complete = true ∨ ∃ oldest ∈ hot.head?, key oldest ≤ key item) →
      ∃ held ∈ hot, key held = key item

namespace Covers

variable {key : Item → Key} {complete : Bool} {hot disk : List Item}
variable {limit : Nat}

theorem holds_of_le (covers : Covers key complete hot disk) {newer : Item} (onDisk : item ∈ disk)
    (member : newer ∈ hot) (order : key newer ≤ key item) : ∃ held ∈ hot, key held = key item := by
  cases hot with
  | nil => cases member
  | cons head =>
    exact covers.holds item onDisk
      (.inr ⟨head, rfl, le_trans (covers.ascending.head_le member) order⟩)

theorem of_keys {other : List Item} (covers : Covers key complete hot disk)
    (keys : ∀ item ∈ other, ∃ source ∈ disk, key source = key item) :
    Covers key complete hot other where
  ascending := covers.ascending
  holds item member standsFor := by
    obtain ⟨source, onDisk, same⟩ := keys item member
    rw [← same] at standsFor ⊢
    exact covers.holds source onDisk standsFor

theorem drop (covers : Covers key complete hot disk) (count : Nat) :
    Covers key false (hot.drop count) disk where
  ascending := covers.ascending.drop count
  holds item onDisk standsFor := by
    rcases standsFor with impossible | ⟨oldest, oldestMember, order⟩
    · exact absurd impossible Bool.false_ne_true
    have late : oldest ∈ hot.drop count := mem_of_mem_head? oldestMember
    obtain ⟨held, inHot, same⟩ :=
      covers.holds_of_le onDisk (mem_of_mem_drop late) order
    rw [← take_append_drop count hot, mem_append] at inHot
    rcases inHot with early | kept
    · -- an item of the dropped part is not newer than the new oldest item
      have notNewer := covers.ascending.le_of_cut early late
      exact ⟨oldest, late, le_antisymm order (same ▸ notNewer)⟩
    · exact ⟨held, kept, same⟩

theorem skip (covers : Covers key false hot disk) {oldest : Item}
    (head : oldest ∈ hot.head?) (older : key item < key oldest) :
    Covers key false hot (item :: disk) where
  ascending := covers.ascending
  holds other member standsFor := by
    rcases mem_cons.mp member with rfl | onDisk
    · rcases standsFor with impossible | ⟨first, firstMember, order⟩
      · exact absurd impossible Bool.false_ne_true
      · obtain rfl : oldest = first := Option.mem_unique head firstMember
        exact absurd order (not_le.mpr older)
    · exact covers.holds other onDisk standsFor

section

variable (covers : Covers key complete hot disk)
include covers

theorem insert (reaches : complete = true ∨ (∃ oldest ∈ hot.head?, key oldest ≤ key item) ∨
      ∀ other ∈ disk, key other < key item) :
    Covers key complete (place key item hot) (item :: disk) where
  ascending := covers.ascending.place item
  holds other member standsFor := by
    rcases mem_cons.mp member with rfl | onDisk
    · exact ⟨other, mem_place.mpr (.inl rfl), rfl⟩
    suffices ∃ held ∈ hot, key held = key other by
      obtain ⟨held, inHot, same⟩ := this
      exact ⟨held, mem_place.mpr (.inr inHot), same⟩
    rcases standsFor with whole | ⟨first, firstMember, order⟩
    · exact covers.holds other onDisk (.inl whole)
    -- the first item of the new window is the new item or was already there
    have first_cases := mem_place.mp (mem_of_mem_head? firstMember)
    rcases first_cases with rfl | inHot
    · rcases reaches with whole | ⟨oldest, oldestMember, notOlder⟩ | newest
      · exact covers.holds other onDisk (.inl whole)
      · exact covers.holds_of_le onDisk (mem_of_mem_head? oldestMember) (le_trans notOlder order)
      · exact absurd order (not_le.mpr (newest other onDisk))
    · exact covers.holds_of_le onDisk inHot order

theorem map {onHot onDisk : Item → Item} (hotKeeps : ∀ item, key (onHot item) = key item)
    (diskKeeps : ∀ item, key (onDisk item) = key item) :
    Covers key complete (hot.map onHot) (disk.map onDisk) where
  ascending := by
    unfold Ascending
    rw [pairwise_map]
    exact covers.ascending.imp fun order => by rwa [hotKeeps, hotKeeps]
  holds item member standsFor := by
    obtain ⟨source, present, rfl⟩ := mem_map.mp member
    rw [diskKeeps] at standsFor ⊢
    obtain ⟨held, inHot, same⟩ := covers.holds source present (by
      refine standsFor.imp_right ?_
      rintro ⟨_, oldestMember, order⟩
      rw [head?_map, Option.mem_map] at oldestMember
      obtain ⟨first, firstMember, rfl⟩ := oldestMember
      exact ⟨first, firstMember, by rwa [hotKeeps] at order⟩)
    exact ⟨onHot held, mem_map_of_mem inHot, by rw [hotKeeps, same]⟩

/-! ### What a page served from the window contains -/

theorem pageBelow_span (served : complete = true ∨ (pageBelow key bound limit hot).length = limit)
    (onDisk : item ∈ disk) (below : key item < bound)
    (inSpan : (pageBelow key bound limit hot).length < limit ∨
      ∃ first ∈ (pageBelow key bound limit hot).head?, key first ≤ key item) :
    ∃ held ∈ pageBelow key bound limit hot, key held = key item := by
  have inWindow : ∃ held ∈ hot, key held = key item := by
    rcases served with whole | full
    · exact covers.holds item onDisk (.inl whole)
    · obtain ⟨first, firstMember, order⟩ := inSpan.resolve_left (by omega)
      have member := mem_of_mem_drop (mem_of_mem_head? firstMember)
      exact covers.holds_of_le onDisk (mem_of_mem_filter member) order
  obtain ⟨held, inHot, same⟩ := inWindow
  have inFilter : held ∈ hot.filter fun other => key other < bound :=
    mem_filter.mpr ⟨inHot, by simpa [same] using below⟩
  rcases inSpan with short | ⟨first, firstMember, order⟩
  · refine ⟨held, ?_, same⟩
    rw [pageBelow, rtake_eq_self_of_lt short]
    exact inFilter
  · -- an item of the cut-off part is not newer than the first item of the page
    unfold pageBelow rtake at firstMember ⊢
    have ascending := covers.ascending.filter fun other => key other < bound
    generalize (hot.filter fun other => decide (key other < bound)) = page at *
    generalize page.length - limit = count at *
    rw [← take_append_drop count page, mem_append] at inFilter
    rcases inFilter with early | kept
    · have late := mem_of_mem_head? firstMember
      have notNewer := ascending.le_of_cut early late
      exact ⟨first, late, le_antisymm order (same ▸ notNewer)⟩
    · exact ⟨held, kept, same⟩

theorem pageAbove_span (served : complete = true ∨ ∃ oldest ∈ hot.head?, key oldest ≤ bound)
    (onDisk : item ∈ disk) (above : bound < key item)
    (inSpan : (pageAbove key bound limit hot).length < limit ∨
      ∃ last ∈ (pageAbove key bound limit hot).getLast?, key item ≤ key last) :
    ∃ held ∈ pageAbove key bound limit hot, key held = key item := by
  obtain ⟨held, inHot, same⟩ : ∃ held ∈ hot, key held = key item := by
    refine covers.holds item onDisk (served.imp_right ?_)
    rintro ⟨oldest, oldestMember, order⟩
    exact ⟨oldest, oldestMember, le_of_lt (lt_of_le_of_lt order above)⟩
  have inFilter : held ∈ hot.filter fun other => bound < key other :=
    mem_filter.mpr ⟨inHot, by simpa [same] using above⟩
  unfold pageAbove at inSpan ⊢
  have ascending := covers.ascending.filter fun other => bound < key other
  generalize (hot.filter fun other => decide (bound < key other)) = page at *
  rcases inSpan with short | ⟨last, lastMember, order⟩
  · rw [length_take] at short
    rw [take_of_length_le (by omega)]
    exact ⟨held, inFilter, same⟩
  · rw [← take_append_drop limit page, mem_append] at inFilter
    rcases inFilter with kept | late
    · exact ⟨held, kept, same⟩
    · have early := mem_of_mem_getLast? lastMember
      have notNewer := ascending.le_of_cut early late
      exact ⟨last, early, le_antisymm (same ▸ notNewer) order⟩

theorem mem_of_sound (keyed : Keyed key disk) (sound : ∀ item ∈ hot, item ∈ disk)
    (onDisk : item ∈ disk)
    (standsFor : complete = true ∨ ∃ oldest ∈ hot.head?, key oldest ≤ key item) : item ∈ hot := by
  obtain ⟨held, inHot, same⟩ := covers.holds item onDisk standsFor
  rwa [keyed held (sound held inHot) item onDisk same] at inHot

theorem pageBelow_eq (strict : StrictlyAscending key hot) (distinct : disk.Nodup)
    (keyed : Keyed key disk) (sound : ∀ item ∈ hot, item ∈ disk) (positive : 0 < limit)
    (served : complete = true ∨ (pageBelow key bound limit hot).length = limit) :
    pageBelow key bound limit hot = pageBelow key bound limit (ordered key disk) := by
  have below := (ordered_ascending distinct keyed).filter fun item => key item < bound
  unfold pageBelow at served ⊢
  by_cases whole : complete = true
  · congr 1
    refine (strict.filter _).ext below fun item => ?_
    simp only [mem_filter, mem_ordered]
    refine and_congr_left' ⟨sound item, fun onDisk => ?_⟩
    exact covers.mem_of_sound keyed sound onDisk (.inl whole)
  · have full := served.resolve_left whole
    cases hot with
    | nil =>
      simp only [filter_nil, rtake_nil, length_nil] at full
      omega
    | cons head rest =>
      -- the disk below the bound is what lies under the oldest hot item, then the hot part
      have upper : ((ordered key disk).filter fun item => key item < bound).filter
            (fun item => key head ≤ key item) =
          (head :: rest).filter fun item => key item < bound := by
        refine (below.filter _).ext (strict.filter _) fun item => ?_
        simp only [mem_filter, mem_ordered, decide_eq_true_eq]
        constructor
        · rintro ⟨⟨onDisk, under⟩, order⟩
          exact ⟨covers.mem_of_sound keyed sound onDisk (.inr ⟨head, rfl, order⟩), under⟩
        · rintro ⟨inHot, under⟩
          exact ⟨⟨sound item inHot, under⟩, covers.ascending.head_le inHot⟩
      have enough : limit ≤ ((head :: rest).filter fun item => key item < bound).length := by
        unfold rtake at full
        rw [length_drop] at full
        omega
      conv_rhs => rw [below.weaken.split_at, upper]
      rw [rtake_append_of_le enough]

theorem pageAbove_eq (strict : StrictlyAscending key hot)
    (distinct : disk.Nodup) (keyed : Keyed key disk) (sound : ∀ item ∈ hot, item ∈ disk)
    (served : complete = true ∨ ∃ oldest ∈ hot.head?, key oldest ≤ bound) :
    pageAbove key bound limit hot = pageAbove key bound limit (ordered key disk) := by
  unfold pageAbove
  congr 1
  refine (strict.filter _).ext ((ordered_ascending distinct keyed).filter _) fun item => ?_
  simp only [mem_filter, mem_ordered, decide_eq_true_eq]
  refine and_congr_left fun above => ⟨sound item, fun onDisk => ?_⟩
  refine covers.mem_of_sound keyed sound onDisk (served.imp_right ?_)
  rintro ⟨oldest, oldestMember, order⟩
  exact ⟨oldest, oldestMember, le_of_lt (lt_of_le_of_lt order above)⟩

end

end Covers

end Ircthing.Library
