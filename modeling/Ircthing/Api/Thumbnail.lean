/-
This file models the downscaling of images and proves that it averages every source pixel once.
Positions are counted from the corner of the source's bounds.
-/

import Mathlib.Algebra.Order.BigOperators.Group.List
import Mathlib.Algebra.Order.Ring.Nat
import Mathlib.Data.List.Nodup
import Mathlib.Data.List.ProdSigma

namespace Ircthing.Api.Thumbnail

open List

inductive Channel
  | red
  | green
  | blue
  | alpha
deriving DecidableEq

/-- An image by what `At(x, y).RGBA()` gives, the premultiplied channels in 16 bits. -/
structure Image where
  width : Nat
  height : Nat
  pixel : Nat → Nat → Channel → UInt16

/-- An `image.RGBA`, which keeps 8 bits of each channel. -/
structure Rgba where
  width : Nat
  height : Nat
  pix : Nat → Nat → Channel → UInt8

/-- The source positions `[first, last)` of one destination position, in one direction. -/
def span (position size count : Nat) : Nat × Nat :=
  let first := position * size / count
  let last := (position + 1) * size / count
  (first, if last ≤ first then first + 1 else last)

/-- The positions in a box, the row first, in the order of the loops. -/
def box (columns rows : Nat × Nat) : List (Nat × Nat) :=
  (range' rows.1 (rows.2 - rows.1)).product (range' columns.1 (columns.2 - columns.1))

variable (src : Image)

def boxAverage (cells : List (Nat × Nat)) (channel : Channel) : UInt16 :=
  let n := if cells.length = 0 then 1 else cells.length
  UInt16.ofNat ((cells.map fun cell => (src.pixel cell.2 cell.1 channel).toNat).sum / n)

def destinationSize (sw sh maxDim : Nat) : Nat × Nat :=
  if sw ≥ sh then (maxDim, max 1 (sh * maxDim / sw)) else (max 1 (sw * maxDim / sh), maxDim)

def sourceBox (sw sh maxDim dx dy : Nat) : List (Nat × Nat) :=
  let (dw, dh) := destinationSize sw sh maxDim
  box (span dx sw dw) (span dy sh dh)

/-- `thumbnail`, with `none` for an image that is returned as it is. `Set` keeps the high byte of
each channel. -/
def thumbnail (maxDim : Nat) : Option Rgba :=
  if src.width ≤ maxDim ∧ src.height ≤ maxDim then none
  else
    let (dw, dh) := destinationSize src.width src.height maxDim
    some {
      width := dw
      height := dh
      pix dx dy channel :=
        (boxAverage src (sourceBox src.width src.height maxDim dx dy) channel >>> 8).toUInt8 }

/-! ### The tiling -/

section

variable {size count position x : Nat}

theorem span_eq (positive : 0 < count) (fits : count ≤ size) :
    span position size count = (position * size / count, (position + 1) * size / count) := by
  have room : position * size / count + 1 ≤ (position + 1) * size / count := by
    rw [← Nat.add_div_right _ positive, Nat.add_mul, Nat.one_mul]
    exact Nat.div_le_div_right (Nat.add_le_add_left fits _)
  rw [span, if_neg (by omega)]

theorem mem_span_iff (positive : 0 < count) (fits : count ≤ size) :
    (span position size count).1 ≤ x ∧ x < (span position size count).2 ↔
      ((x + 1) * count - 1) / size = position := by
  have some : 0 < (x + 1) * count := Nat.mul_pos x.succ_pos positive
  have first : position * size / count ≤ x ↔ position * size < (x + 1) * count := by
    rw [← Nat.lt_succ_iff, Nat.div_lt_iff_lt_mul positive]
  have last : x < (position + 1) * size / count ↔ (x + 1) * count ≤ (position + 1) * size := by
    rw [← Nat.succ_le_iff, Nat.le_div_iff_mul_le positive]
  rw [span_eq positive fits, first, last, Nat.div_eq_iff (positive.trans_le fits),
    Nat.add_one_mul position]
  omega

theorem span_lt : (span position size count).1 < (span position size count).2 := by
  unfold span
  dsimp only
  split <;> omega

theorem span_within (positive : 0 < count) (fits : count ≤ size) (within : position < count) :
    (span position size count).2 ≤ size := by
  rw [span_eq positive fits]
  exact Nat.div_le_of_le_mul (Nat.mul_le_mul_right _ within)

theorem index_lt (inside : x < size) (positive : 0 < count) :
    ((x + 1) * count - 1) / size < count := by
  have some : 0 < (x + 1) * count := Nat.mul_pos x.succ_pos positive
  rw [Nat.div_lt_iff_lt_mul (x.zero_le.trans_lt inside), Nat.mul_comm count]
  have most : (x + 1) * count ≤ size * count := Nat.mul_le_mul_right count inside
  omega

end

theorem mem_box {columns rows : Nat × Nat} {x y : Nat} :
    (y, x) ∈ box columns rows ↔
      (columns.1 ≤ x ∧ x < columns.2) ∧ rows.1 ≤ y ∧ y < rows.2 := by
  rw [box, pair_mem_product, mem_range'_1, mem_range'_1]
  omega

/-! ### The mean -/

section

variable {src : Image} {cells : List (Nat × Nat)} {channel : Channel}

theorem toNat_boxAverage (filled : cells ≠ []) :
    (boxAverage src cells channel).toNat =
      (cells.map fun cell => (src.pixel cell.2 cell.1 channel).toNat).sum / cells.length := by
  have positive : 0 < cells.length := length_pos_iff.mpr filled
  have bounded : (cells.map fun cell => (src.pixel cell.2 cell.1 channel).toNat).sum ≤
      cells.length * 65535 := by
    refine (sum_le_card_nsmul _ 65535 fun value member => ?_).trans_eq (by simp)
    obtain ⟨cell, -, rfl⟩ := mem_map.mp member
    exact Nat.le_of_lt_succ (UInt16.toNat_lt _)
  rw [boxAverage, if_neg positive.ne', UInt16.toNat_ofNat_of_lt']
  exact (Nat.div_le_of_le_mul bounded).trans_lt (by decide)

theorem toNat_highByte (value : UInt16) : (value >>> 8).toUInt8.toNat = value.toNat / 256 := by
  have small := value.toNat_lt
  rw [UInt16.toNat_toUInt8, UInt16.toNat_shiftRight]
  change (value.toNat >>> 8) % 256 = _
  rw [Nat.shiftRight_eq_div_pow]
  omega

end

/-- What a thumbnail is to be. -/
structure Averages (maxDim : Nat) (dst : Rgba) : Prop where
  longest : max dst.width dst.height = maxDim
  positive : 0 < dst.width ∧ 0 < dst.height
  within : dst.width ≤ src.width ∧ dst.height ≤ src.height
  once : ∀ x < src.width, ∀ y < src.height, ∃! cell : Nat × Nat,
    (cell.1 < dst.width ∧ cell.2 < dst.height) ∧
      (y, x) ∈ sourceBox src.width src.height maxDim cell.1 cell.2
  inside : ∀ dx < dst.width, ∀ dy < dst.height,
    (sourceBox src.width src.height maxDim dx dy).Nodup ∧
    ∀ cell ∈ sourceBox src.width src.height maxDim dx dy, cell.2 < src.width ∧ cell.1 < src.height
  mean : ∀ dx < dst.width, ∀ dy < dst.height, ∀ channel,
    let cells := sourceBox src.width src.height maxDim dx dy
    0 < cells.length ∧ (dst.pix dx dy channel).toNat =
      (cells.map fun cell => (src.pixel cell.2 cell.1 channel).toNat).sum / cells.length / 256
  premultiplied : (∀ x y channel, src.pixel x y channel ≤ src.pixel x y .alpha) →
    ∀ dx < dst.width, ∀ dy < dst.height, ∀ channel, dst.pix dx dy channel ≤ dst.pix dx dy .alpha

theorem destinationSize_spec {sw sh maxDim : Nat} (some : 0 < maxDim) (wide : 0 < sw)
    (high : 0 < sh) (large : maxDim < max sw sh) :
    max (destinationSize sw sh maxDim).1 (destinationSize sw sh maxDim).2 = maxDim ∧
      (0 < (destinationSize sw sh maxDim).1 ∧ 0 < (destinationSize sw sh maxDim).2) ∧
      (destinationSize sw sh maxDim).1 ≤ sw ∧ (destinationSize sw sh maxDim).2 ≤ sh := by
  -- the other side is scaled by a factor below one, and no longer than the longest
  have scaled {side longest : Nat} (most : side ≤ longest) (larger : maxDim < longest) :
      side * maxDim / longest ≤ maxDim ∧ side * maxDim / longest ≤ side :=
    ⟨Nat.div_le_of_le_mul (Nat.mul_le_mul_right _ most),
      Nat.div_le_of_le_mul (Nat.mul_comm longest _ ▸ Nat.mul_le_mul_left _ larger.le)⟩
  unfold destinationSize
  split
  next wider =>
    have := scaled wider (by omega)
    dsimp only
    omega
  next higher =>
    have := scaled (Nat.le_of_not_ge higher) (by omega)
    dsimp only
    omega

/-- A thumbnail of an image that has pixels averages each of them once. -/
theorem thumbnail_averages (src : Image) (maxDim : Nat) (least : 0 < maxDim)
    (pixels : 0 < src.width ∧ 0 < src.height) (large : maxDim < max src.width src.height) :
    ∃ dst, thumbnail src maxDim = some dst ∧ Averages src maxDim dst := by
  obtain ⟨longest, ⟨wide, high⟩, narrower, lower⟩ :=
    destinationSize_spec least pixels.1 pixels.2 large
  have filled {dx dy : Nat} : sourceBox src.width src.height maxDim dx dy ≠ [] :=
    ne_nil_of_mem (mem_box.mpr ⟨⟨le_rfl, span_lt⟩, le_rfl, span_lt⟩)
  have stored {dx dy : Nat} {channel : Channel} := (toNat_highByte (boxAverage src
    (sourceBox src.width src.height maxDim dx dy) channel)).trans
      (congrArg (· / 256) (toNat_boxAverage filled))
  refine ⟨_, if_neg (by rw [lt_max_iff] at large; omega), longest, ⟨wide, high⟩,
    ⟨narrower, lower⟩, ?once, ?inside, ?mean, ?premultiplied⟩
  case once =>
    intro x column y row
    refine ⟨(_, _), ⟨⟨index_lt column wide, index_lt row high⟩, mem_box.mpr
      ⟨(mem_span_iff wide narrower).mpr rfl, (mem_span_iff high lower).mpr rfl⟩⟩, ?_⟩
    rintro ⟨dx, dy⟩ ⟨-, member⟩
    obtain ⟨columns, rows⟩ := mem_box.mp member
    exact (Prod.ext ((mem_span_iff wide narrower).mp columns)
      ((mem_span_iff high lower).mp rows)).symm
  case inside =>
    intro dx column dy row
    refine ⟨Nodup.product nodup_range' nodup_range', fun cell member => ?_⟩
    obtain ⟨columns, rows⟩ := mem_box.mp member
    exact ⟨columns.2.trans_le (span_within wide narrower column),
      rows.2.trans_le (span_within high lower row)⟩
  case mean =>
    exact fun dx _ dy _ channel => ⟨length_pos_iff.mpr filled, stored⟩
  case premultiplied =>
    intro below dx _ dy _ channel
    rw [UInt8.le_iff_toNat_le]
    refine stored.trans_le (le_of_le_of_eq (Nat.div_le_div_right (Nat.div_le_div_right
      (sum_le_sum fun cell _ => ?_))) stored.symm)
    exact UInt16.le_iff_toNat_le.mp (below cell.2 cell.1 channel)

theorem thumbnail_averages_pair :
    ∃ dst, thumbnail ⟨2, 1, fun x _ _ => if x = 0 then 100 else 300⟩ 1 = some dst ∧
      Averages ⟨2, 1, fun x _ _ => if x = 0 then 100 else 300⟩ 1 dst :=
  thumbnail_averages _ 1 (by decide) (by decide) (by decide)

/-- An image of two columns without a row: its thumbnail has one. -/
theorem empty_image_enlarged :
    (thumbnail ⟨2, 0, fun _ _ _ => 0⟩ 1).map Rgba.height = some 1 := by decide

end Ircthing.Api.Thumbnail
