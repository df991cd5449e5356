/-
This file models where the rows of the message list are placed and which of them are rendered, over
exact heights, and proves that the rendered rows cover the screen.
-/

import Ircthing.Web.VirtualList
import Mathlib.Algebra.Order.Field.Rat
import Mathlib.Order.Monotone.Basic
import Mathlib.Tactic.Linarith

namespace Ircthing.Web.VirtualList

open Function List

/-- The loop of `ensure`. -/
def sums (height : Nat → ℚ) : Nat → ℚ
  | 0 => 0
  | i + 1 => sums height i + height i

/-- `heightAt`. -/
def height (estimate : Row → ℚ) (measured : RowId → Option ℚ) (items : List Row) (i : Nat) : ℚ :=
  (items[i]?).elim 0 fun row => (measured row.id).getD (estimate row)

/-- The part of a `Geometry` that places the rows. The offsets are current unless it is dirty. -/
structure Layout (estimate : Row → ℚ) extends Geometry where
  measured : RowId → Option ℚ := fun _ => none
  offsets : Nat → ℚ := fun _ => 0
  dirty : Bool := true
  fresh : dirty = false → offsets = sums (height estimate measured items) := by nofun

variable {estimate : Row → ℚ}

namespace Layout

variable (layout : Layout estimate)

def heightAt : Nat → ℚ := height estimate layout.measured layout.items

/-- What `measure` returns and leaves. An exact index leads to no missing row. -/
def measure (id : RowId) (px : ℚ) : ℚ × Layout estimate :=
  match layout.index id with
  | none => (0, layout)
  | some i =>
    let prev := (layout.measured id).getD ((layout.items[i]?).elim 0 estimate)
    if px = prev then (0, layout)
    else (px - prev, { layout with
      measured := update layout.measured id (some px), dirty := true, fresh := nofun })

def ensure : Layout estimate :=
  if layout.dirty then
    { layout with offsets := sums layout.heightAt, dirty := false, fresh := fun _ => rfl }
  else layout

def offsetOf (i : Int) : ℚ := layout.ensure.offsets (min i layout.items.length).toNat

def total : ℚ := layout.ensure.offsets layout.items.length

def findIndex (offsets : Nat → ℚ) (y : ℚ) (lo hi : Nat) : Nat :=
  if lo < hi then
    let mid := (lo + hi + 1) / 2
    if offsets mid ≤ y then findIndex offsets y mid hi else findIndex offsets y lo (mid - 1)
  else lo
termination_by hi - lo
decreasing_by all_goals omega

def range (y0 y1 : ℚ) : Nat × Nat :=
  let find y := findIndex layout.ensure.offsets (max 0 y) 0 (layout.items.length - 1)
  if layout.items.length = 0 then (0, 0)
  else (find y0, min layout.items.length (find y1 + 1))

end Layout

structure View where
  viewTop : ℚ
  viewH : ℚ
  overscan : ℚ := 600
  pinned : Bool := false
  focusing : Bool := false
  focusIdx : Int := -1
  prepended : Int := 0

/-- `computeWindow`: the first row that is rendered and the one behind the last. -/
def computeWindow (geo : Layout estimate) (itemCount : Nat) (view : View) : Nat × Nat :=
  let around top := geo.range (top - view.overscan) (top + view.viewH + view.overscan)
  let tailed :=
    if view.pinned = true ∧ 0 < itemCount then
      let tailOverscan := max view.overscan (view.viewH / 2)
      ((geo.range (max 0 (geo.total - view.viewH - tailOverscan)) geo.total).1, itemCount)
    else around view.viewTop
  let focused :=
    if view.focusing = true ∧ view.focusIdx ≠ -1 then
      (min tailed.1 (view.focusIdx - 12).toNat,
        max tailed.2 (min (itemCount : Int) (view.focusIdx + 12)).toNat)
    else tailed
  if view.pinned = false ∧ 0 < view.prepended then
    let shifted := around (view.viewTop + geo.offsetOf view.prepended)
    (0, max (max focused.2 shifted.2) (min (itemCount : Int) view.prepended).toNat)
  else focused

/-! ### Offsets -/

theorem sums_mono {height : Nat → ℚ} (flat : ∀ i, 0 ≤ height i) : Monotone (sums height) :=
  monotone_nat_of_le_succ fun i => le_add_of_nonneg_right (flat i)

theorem sums_update (height : Nat → ℚ) (px : ℚ) (i j : Nat) :
    sums (update height j px) i = sums height i + if j < i then px - height j else 0 := by
  induction i with
  | zero => simp [sums]
  | succ i ih =>
    rw [sums, sums, ih]
    rcases lt_trichotomy i j with before | rfl | behind
    · rw [update_of_ne before.ne, if_neg (by omega), if_neg (by omega), add_zero, add_zero]
    · rw [update_self, if_neg (lt_irrefl _), if_pos (Nat.lt_succ_self _), add_zero,
        add_add_sub_cancel]
    · rw [update_of_ne behind.ne', if_pos behind, if_pos (by omega), add_right_comm]

namespace Layout

variable {layout : Layout estimate}

theorem offsets_ensure : layout.ensure.offsets = sums layout.heightAt := by
  unfold ensure
  split
  · rfl
  · rename_i clean
    exact layout.fresh (Bool.not_eq_true _ ▸ clean)

theorem offsetOf_natCast {i : Nat} (inside : i ≤ layout.items.length) :
    layout.offsetOf i = sums layout.heightAt i := by
  have clamped : (min (i : Int) layout.items.length).toNat = i := by omega
  rw [offsetOf, clamped, offsets_ensure]

/-! ### The binary search -/

theorem findIndex_spec {offsets : Nat → ℚ} (mono : Monotone offsets) (y : ℚ) (lo hi : Nat)
    (le : lo ≤ hi) (start : offsets lo ≤ y) :
    findIndex offsets y lo hi ≤ hi ∧ offsets (findIndex offsets y lo hi) ≤ y ∧
      ∀ i, findIndex offsets y lo hi < i → i ≤ hi → y < offsets i := by
  fun_induction findIndex offsets y lo hi with
  | case1 lo hi less mid below ih => exact ih (by omega) below
  | case2 lo hi less mid above ih =>
    obtain ⟨within, found, beyond⟩ := ih (by omega) start
    refine ⟨by omega, found, fun i behind last => ?_⟩
    by_cases left : i ≤ mid - 1
    · exact beyond i behind left
    · exact (not_le.mp above).trans_le (mono (by omega))
  | case3 lo hi done => exact ⟨le, start, fun i behind last => by omega⟩

/-- Some line of the row is in the stretch. -/
def Shows (layout : Layout estimate) (i : Nat) (low high : ℚ) : Prop :=
  ∃ y, low ≤ y ∧ y < high ∧ layout.offsetOf i ≤ y ∧ y < layout.offsetOf (i + 1 : Nat)

theorem range_covers (flat : ∀ i, 0 ≤ layout.heightAt i) {y0 y1 : ℚ} (le : y0 ≤ y1) :
    (layout.range y0 y1).1 ≤ (layout.range y0 y1).2 ∧
      (layout.range y0 y1).2 ≤ layout.items.length ∧
      ∀ i < layout.items.length, ∀ low high, y0 ≤ max 0 low → high ≤ y1 →
        layout.Shows i low high → (layout.range y0 y1).1 ≤ i ∧ i < (layout.range y0 y1).2 := by
  have mono := sums_mono flat
  unfold range
  dsimp only
  split
  · rename_i empty
    exact ⟨le_rfl, Nat.zero_le _, fun i inside => by omega⟩
  rename_i filled
  rw [offsets_ensure]
  have search (y : ℚ) := findIndex_spec mono (max 0 y) 0 (layout.items.length - 1)
    (Nat.zero_le _) (le_max_left 0 y)
  obtain ⟨firstInside, first, -⟩ := search y0
  obtain ⟨lastInside, -, beyond⟩ := search y1
  refine ⟨?_, Nat.min_le_left _ _, fun i inside low high above below shows => ?_⟩
  · by_contra crossed
    have later := beyond _ (by omega) firstInside
    exact absurd (later.trans_le first) (not_lt.mpr (max_le_max_left 0 le))
  obtain ⟨y, least, most, begins, ends⟩ := shows
  rw [offsetOf_natCast (by omega)] at begins ends
  have positive : 0 ≤ y := (mono (Nat.zero_le i)).trans begins
  constructor
  · by_contra before
    have passed := (mono (not_le.mp before)).trans first
    exact absurd ends (not_lt.mpr (passed.trans
      (max_le positive (above.trans (max_le positive least)))))
  · by_contra behind
    have passed := beyond i (by omega) (by omega)
    exact absurd ((le_max_right 0 y1).trans_lt passed)
      (not_lt.mpr (begins.trans (most.le.trans below)))

/-! ### Measuring -/

theorem measure_sums (exact : layout.Exact) {i j : Nat} {id : RowId}
    (at_ : (layout.items[j]?).map Row.id = some id) (px : ℚ) (before : j < i) :
    (layout.measure id px).1 = sums (layout.measure id px).2.heightAt i - sums layout.heightAt i ∧
      (layout.measure id px).2.toGeometry = layout.toGeometry := by
  have only (k : Nat) : layout.index id = some k ↔ (layout.items[k]?).map Row.id = some id := by
    rw [exact, mk_mem_zipIdx_iff_getElem?, getElem?_map]
  have indexed := (only j).mpr at_
  obtain ⟨row, held, rfl⟩ := Option.map_eq_some_iff.mp at_
  have previous : (layout.measured row.id).getD ((layout.items[j]?).elim 0 estimate) =
      layout.heightAt j := by
    rw [heightAt, height, held]
    rfl
  unfold measure
  rw [indexed]
  dsimp only
  rw [previous]
  split
  · exact ⟨(sub_self _).symm, rfl⟩
  refine ⟨?_, rfl⟩
  have changed : height estimate (update layout.measured row.id (some px)) layout.items =
      update layout.heightAt j px := by
    funext k
    by_cases same : k = j
    · simp [height, same, held]
    rw [update_of_ne same, heightAt, height, height]
    cases found : layout.items[k]? with
    | none => rfl
    | some other =>
      have different : other.id ≠ row.id := fun alike => by
        have twice := (only k).mpr (by rw [found, Option.map_some, alike])
        exact same (Option.some.inj (twice.symm.trans indexed))
      simp [different]
  show _ = sums (height _ _ _) i - _
  rw [changed, sums_update, if_pos before, add_sub_cancel_left]

/-- Measurements one after the other, with the sum of the returned deltas. -/
def measureAll (layout : Layout estimate) : List (RowId × ℚ) → ℚ × Layout estimate
  | [] => (0, layout)
  | (id, px) :: calls =>
    let (delta, next) := layout.measure id px
    let (deltas, last) := next.measureAll calls
    (delta + deltas, last)

theorem measureAll_sums (exact : layout.Exact) {i : Nat} (calls : List (RowId × ℚ))
    (above : ∀ call ∈ calls, ∃ j < i, (layout.items[j]?).map Row.id = some call.1) :
    (layout.measureAll calls).1 =
        sums (layout.measureAll calls).2.heightAt i - sums layout.heightAt i ∧
      (layout.measureAll calls).2.toGeometry = layout.toGeometry := by
  induction calls generalizing layout with
  | nil => exact ⟨(sub_self _).symm, rfl⟩
  | cons call calls ih =>
    obtain ⟨⟨j, before, at_⟩, later⟩ := forall_mem_cons.mp above
    obtain ⟨delta, keeps⟩ := measure_sums exact at_ call.2 before
    obtain ⟨rest, kept⟩ := ih (keeps.symm ▸ exact) (keeps.symm ▸ later)
    rw [measureAll]
    dsimp only
    exact ⟨by rw [delta, rest, sub_add_sub_cancel'], kept.trans keeps⟩

end Layout

/-- The window is within the list and has the rows that show in the viewport, or at the end of the
list when pinned, the focused row and the prepended ones; and measurements of rows before another
move it by the sum of the deltas. -/
theorem window_covers (layout : Layout estimate) (exact : layout.Exact)
    (flat : ∀ i, 0 ≤ layout.heightAt i) (view : View) (tall : 0 ≤ view.viewH)
    (margin : 0 ≤ view.overscan) :
    let window := computeWindow layout layout.items.length view
    (window.1 ≤ window.2 ∧ window.2 ≤ layout.items.length ∧
      ∀ i < layout.items.length,
        (view.pinned = false ∧ layout.Shows i view.viewTop (view.viewTop + view.viewH) ∨
          view.pinned = true ∧ layout.Shows i (layout.total - view.viewH) layout.total ∨
          view.focusing = true ∧ view.focusIdx = i ∨
          view.pinned = false ∧ i < view.prepended) → window.1 ≤ i ∧ i < window.2) ∧
    ∀ i ≤ layout.items.length, ∀ calls : List (RowId × ℚ),
      (∀ call ∈ calls, ∃ j < i, (layout.items[j]?).map Row.id = some call.1) →
        (layout.measureAll calls).1 =
          (layout.measureAll calls).2.offsetOf i - layout.offsetOf i := by
  constructor
  swap
  · intro i inside calls above
    obtain ⟨deltas, kept⟩ := Layout.measureAll_sums exact calls above
    rw [Layout.offsetOf_natCast inside, Layout.offsetOf_natCast (by rwa [kept]), deltas]
  have bottom : 0 ≤ layout.total := by
    rw [Layout.total, Layout.offsets_ensure]
    exact sums_mono flat (Nat.zero_le _)
  have wider := le_max_left view.overscan (view.viewH / 2)
  have around (top : ℚ) := Layout.range_covers flat
    (by linarith : top - view.overscan ≤ top + view.viewH + view.overscan)
  obtain ⟨ordered, within, shown⟩ := around view.viewTop
  obtain ⟨-, shiftedWithin, -⟩ := around (view.viewTop + layout.offsetOf view.prepended)
  obtain ⟨tailOrdered, tailWithin, tail⟩ := Layout.range_covers flat (max_le bottom (by linarith :
    layout.total - view.viewH - max view.overscan (view.viewH / 2) ≤ layout.total))
  have onScreen (i : Nat) (inside : i < layout.items.length) := shown i inside view.viewTop
    (view.viewTop + view.viewH) (le_max_of_le_right (by linarith)) (by linarith)
  have atEnd (i : Nat) (inside : i < layout.items.length) := tail i inside
    (layout.total - view.viewH) layout.total (max_le_max_left 0 (by linarith)) le_rfl
  clear shown tail wider bottom around
  unfold computeWindow
  dsimp only
  generalize layout.range (view.viewTop - view.overscan) _ = ranged at ordered within onScreen ⊢
  generalize layout.range (max 0 _) _ = tailed at tailOrdered tailWithin atEnd ⊢
  generalize (layout.range _ _).2 = shifted at shiftedWithin ⊢
  split_ifs
  all_goals try dsimp only
  all_goals
    refine ⟨by omega, by omega, fun i inside wanted => ?_⟩
    rcases wanted with ⟨loose, shows⟩ | ⟨pinned, shows⟩ | focused | prepended
    · have kept := onScreen i inside shows
      grind
    · have kept := atEnd i inside shows
      grind
    · grind
    · grind

def twoRows : Layout fun _ => 20 where
  toGeometry := Geometry.sync {} [.event (event 1 .other), .event (event 2 .other)]

theorem window_covers_second :
    let window := computeWindow twoRows 2 { viewTop := 0, viewH := 30 }
    (window.1 ≤ 1 ∧ 1 < window.2) ∧ (twoRows.measureAll [(.event 1, 30)]).1 =
      (twoRows.measureAll [(.event 1, 30)]).2.offsetOf 1 - twoRows.offsetOf 1 := by
  have exact : twoRows.Exact := Geometry.Exact.sync (fun id i => by simp) (by decide) nofun
  have flat : ∀ i, 0 ≤ twoRows.heightAt i
    | 0 | 1 => by decide
    | _ + 2 => le_rfl
  have covers := window_covers twoRows exact flat { viewTop := 0, viewH := 30 } (by decide)
    (by decide)
  refine ⟨covers.1.2.2 1 (by decide) (.inl ⟨rfl, 25, by decide +kernel⟩),
    covers.2 1 (by decide) _ ?_⟩
  exact forall_mem_singleton.mpr ⟨0, Nat.one_pos, rfl⟩

end Ircthing.Web.VirtualList
