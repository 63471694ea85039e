import Linrdp.Capture.TileDamage
import Linrdp.Lib.Cover

/-!
# Where two images differ

`find_different_rects_sub` of `ironrdp-graphics/src/diff.rs` compares a bitmap with its place in a
larger one, 64 by 64 pixels at a time. A failed assertion or a slice out of range is `none`.
`findDifferentRectsSub_spec`: for a bitmap that lies in the larger image there is an answer, and a
pixel is in one of its rectangles exactly when some pixel of its tile differs.
-/

namespace Linrdp.Graphics.Diff

open List Lib.Rects Lib.Cover Capture.TileDamage Rect

def tileSize : ℕ := 64

def tilesOf (edge : ℕ) : ℕ := (edge + tileSize - 1) / tileSize

def intersect (a b : Rect) : Option Rect :=
  let x := max a.x b.x
  let y := max a.y b.y
  let right := min (a.x + a.w) (b.x + b.w)
  let bottom := min (a.y + a.h) (b.y + b.h)
  if right ≤ x then none
  else if bottom ≤ y then none
  else some ⟨x, y, right - x, bottom - y⟩

def tileRect (width height i j : ℕ) : Rect :=
  ⟨i * tileSize, j * tileSize, min (i * tileSize + tileSize) width - i * tileSize,
    min (j * tileSize + tileSize) height - j * tileSize⟩

variable (image1 : Bytes)

def hasDiff (stride1 : ℕ) (image2 : Bytes) (stride2 bpp : ℕ) (r : Rect) : Bool :=
  (List.range' r.y r.h).any fun y =>
    slice image1 (y * stride1 + r.x * bpp) (r.w * bpp) !=
      slice image2 (y * stride2 + r.x * bpp) (r.w * bpp)

/-- Which tiles differ, numbered row by row; the assertions keep every row in range. -/
def findDifferentTiles (stride1 : ℕ) (image2 : Bytes) (stride2 bpp width height : ℕ) :
    Option (ℕ → Bool) :=
  if width * bpp ≤ stride1 ∧ width * bpp ≤ stride2 ∧
      (height - 1) * stride1 + width * bpp ≤ image1.length ∧
      (height - 1) * stride2 + width * bpp ≤ image2.length then
    some fun idx => hasDiff image1 stride1 image2 stride2 bpp
      (tileRect width height (idx % tilesOf width) (idx / tilesOf width))
  else none

def pixelSpan (edge start len : ℕ) : ℕ :=
  if start + len = tilesOf edge ∧ 0 < edge % tileSize then
    (len - 1) * tileSize + edge % tileSize
  else len * tileSize

def pixelRect (width height : ℕ) (b : Rect) : Rect :=
  ⟨b.x * tileSize, b.y * tileSize, pixelSpan width b.x b.w, pixelSpan height b.y b.h⟩

def findDifferentRects (stride1 : ℕ) (image2 : Bytes) (stride2 bpp width height : ℕ) :
    Option (List Rect) :=
  (findDifferentTiles image1 stride1 image2 stride2 bpp width height).map fun differences =>
    (blocks (tilesOf width) (tilesOf height) (tilesOf width * tilesOf height) differences 0).map
      (pixelRect width height)

/-- The second image is put at `x`, `y` of the first. -/
def findDifferentRectsSub (stride1 width1 height1 : ℕ) (image2 : Bytes)
    (stride2 width2 height2 x y bpp : ℕ) : Option (List Rect) :=
  match intersect ⟨0, 0, width1, height1⟩ ⟨x, y, width2, height2⟩ with
  | none => some []
  | some inter =>
    if y * stride1 + x * bpp ≤ image1.length then
      findDifferentRects (image1.drop (y * stride1 + x * bpp)) stride1 image2 stride2 bpp inter.w
        inter.h
    else none

/-! ### Tiles -/

def SameTile (p q : Pixel) : Prop :=
  p.1 / tileSize = q.1 / tileSize ∧ p.2 / tileSize = q.2 / tileSize

instance (p q : Pixel) : Decidable (SameTile p q) := inferInstanceAs (Decidable (_ ∧ _))

variable {edge : ℕ}

theorem div_lt_tilesOf {q : ℕ} (h : q < edge) : q / tileSize < tilesOf edge := by
  simp only [tilesOf, tileSize]
  omega

variable {start len : ℕ}

theorem lt_pixelSpan {q : ℕ} (hin : start + len ≤ tilesOf edge) (hlen : 0 < len) :
    (start * tileSize ≤ q ∧ q < start * tileSize + pixelSpan edge start len) ↔
      q < edge ∧ start ≤ q / tileSize ∧ q / tileSize < start + len := by
  unfold pixelSpan
  split_ifs with hlast <;> simp only [tilesOf, tileSize] at * <;> omega

theorem pixelSpan_le (hin : start + len ≤ tilesOf edge) (hlen : 0 < len) :
    start * tileSize + pixelSpan edge start len ≤ edge ∧ 0 < pixelSpan edge start len := by
  unfold pixelSpan
  split_ifs with hlast <;> simp only [tilesOf, tileSize] at * <;> omega

variable {width height : ℕ} {p : Pixel}

theorem mem_pixelRect {b : Rect}
    (hin : b.Inside (tilesOf width) (tilesOf height)) (hw : 0 < b.w) (hh : 0 < b.h) :
    p ∈ pixelRect width height b ↔
      p ∈ full width height ∧ (p.1 / tileSize, p.2 / tileSize) ∈ b := by
  rw [mem_iff, mem_full, mem_iff]
  simp only [pixelRect]
  rw [lt_pixelSpan hin.1 hw, lt_pixelSpan hin.2 hh]
  tauto

theorem mem_tileRect {q : Pixel} :
    q ∈ tileRect width height (p.1 / tileSize) (p.2 / tileSize) ↔
      q ∈ full width height ∧ SameTile p q := by
  rw [mem_iff, mem_full, SameTile]
  simp only [tileRect, tileSize]
  omega

theorem tileRect_inside (hp : p ∈ full width height) :
    (tileRect width height (p.1 / tileSize) (p.2 / tileSize)).Inside width height := by
  obtain ⟨hx, hy⟩ := mem_full.1 hp
  simp only [Rect.Inside, tileRect, tileSize]
  omega

/-! ### Rows -/

variable {xs : Bytes}

theorem slice_eq_iff {ys : Bytes} {a b : ℕ} :
    ∀ {n : ℕ}, a + n * 4 ≤ xs.length → b + n * 4 ≤ ys.length →
      (slice xs a (n * 4) = slice ys b (n * 4) ↔
        ∀ i < n, slice xs (a + i * 4) 4 = slice ys (b + i * 4) 4) := by
  intro n hx hy
  constructor
  · intro h i hi
    rw [slice_isSome hx] at h
    rw [slice_sub (slice_isSome hx) (by omega), slice_sub h.symm (by omega)]
  · induction n with
    | zero =>
      intro _
      rw [slice_isSome hx, slice_isSome hy]
      simp
    | succ n ih =>
      intro h
      have hstart := ih (by omega) (by omega) fun i hi => h i (by omega)
      have hlast := h n (by omega)
      rw [slice_isSome (by omega), slice_isSome (by omega), Option.some.injEq] at hstart hlast
      rw [slice_isSome hx, slice_isSome hy, Nat.add_mul, Nat.one_mul, take_add, take_add,
        drop_drop, drop_drop, hstart, hlast]

theorem slice_drop {k : ℕ} (hk : k ≤ xs.length) :
    slice (xs.drop k) start len = slice xs (k + start) len := by
  simp only [slice, length_drop, drop_drop]
  by_cases h : start + len ≤ xs.length - k
  · rw [if_pos h, if_pos (by omega)]
  · rw [if_neg h, if_neg (by omega)]

variable {image1 image2 : Bytes} {stride1 stride2 : ℕ}

theorem hasDiff_iff {r : Rect}
    (h1 : ∀ y, r.y ≤ y → y < r.y + r.h → y * stride1 + r.x * 4 + r.w * 4 ≤ image1.length)
    (h2 : ∀ y, r.y ≤ y → y < r.y + r.h → y * stride2 + r.x * 4 + r.w * 4 ≤ image2.length) :
    hasDiff image1 stride1 image2 stride2 4 r = true ↔
      ∃ q ∈ r, slice image1 (q.2 * stride1 + q.1 * 4) 4 ≠
        slice image2 (q.2 * stride2 + q.1 * 4) 4 := by
  have hoff : ∀ y stride i, y * stride + r.x * 4 + i * 4 = y * stride + (r.x + i) * 4 := by
    intro y stride i
    omega
  simp only [hasDiff, any_eq_true, mem_range'_1, bne_iff_ne]
  constructor
  · rintro ⟨y, ⟨hy, hyh⟩, hne⟩
    rw [Ne, slice_eq_iff (h1 y hy hyh) (h2 y hy hyh)] at hne
    push Not at hne
    obtain ⟨i, hi, hne⟩ := hne
    rw [hoff, hoff] at hne
    exact ⟨(r.x + i, y), by rw [mem_iff]; dsimp only; omega, hne⟩
  · rintro ⟨⟨x, y⟩, hq, hne⟩
    obtain ⟨⟨hx, hxw⟩, hy, hyh⟩ := mem_iff.1 hq
    dsimp only at hx hxw hy hyh
    refine ⟨y, ⟨hy, hyh⟩, fun heq => hne ?_⟩
    have hpixel := (slice_eq_iff (h1 y hy hyh) (h2 y hy hyh)).1 heq (x - r.x) (by omega)
    rw [hoff, hoff, Nat.add_sub_cancel' hx] at hpixel
    exact hpixel

/-! ### The rectangles -/

variable {x y : ℕ}

theorem intersect_of_inside {width1 height1 width2 height2 : ℕ} (hw : 0 < width2)
    (hh : 0 < height2) (hin : (⟨x, y, width2, height2⟩ : Rect).Inside width1 height1) :
    intersect ⟨0, 0, width1, height1⟩ ⟨x, y, width2, height2⟩ =
      some ⟨x, y, width2, height2⟩ := by
  obtain ⟨hx, hy⟩ := hin
  dsimp only at hx hy
  simp only [intersect, Nat.zero_max, Nat.zero_add, Nat.min_eq_right hx, Nat.min_eq_right hy]
  rw [if_neg (by omega), if_neg (by omega), Nat.add_sub_cancel_left, Nat.add_sub_cancel_left]

theorem findDifferentTiles_eq (h1 : width * 4 ≤ stride1) (h2 : width * 4 ≤ stride2)
    (hlen1 : (height - 1) * stride1 + width * 4 ≤ image1.length)
    (hlen2 : (height - 1) * stride2 + width * 4 ≤ image2.length) :
    findDifferentTiles image1 stride1 image2 stride2 4 width height =
      some fun idx => hasDiff image1 stride1 image2 stride2 4
        (tileRect width height (idx % tilesOf width) (idx / tilesOf width)) :=
  if_pos ⟨h1, h2, hlen1, hlen2⟩

theorem findDifferentRects_spec {differs : ℕ → Bool}
    (h : findDifferentTiles image1 stride1 image2 stride2 4 width height = some differs) :
    ∃ rects, findDifferentRects image1 stride1 image2 stride2 4 width height = some rects ∧
      (∀ r ∈ rects, r.Inside width height ∧ 0 < r.w ∧ 0 < r.h) ∧
      ∀ p, (∃ r ∈ rects, p ∈ r) ↔ p ∈ full width height ∧
        differs (p.2 / tileSize * tilesOf width + p.1 / tileSize) = true := by
  rw [findDifferentRects, h]
  refine ⟨_, rfl, fun r hr => ?_, fun p => ?_⟩
  · obtain ⟨b, hb, rfl⟩ := mem_map.1 hr
    obtain ⟨hin, hw, hh⟩ := blocks_inside hb
    obtain ⟨hx, hxpos⟩ := pixelSpan_le hin.1 hw
    obtain ⟨hy, hypos⟩ := pixelSpan_le hin.2 hh
    exact ⟨⟨hx, hy⟩, hxpos, hypos⟩
  · simp only [mem_map, exists_exists_and_eq_and]
    constructor
    · rintro ⟨b, hb, hp⟩
      obtain ⟨hin, hw, hh⟩ := blocks_inside hb
      obtain ⟨hfull, hcell⟩ := (mem_pixelRect hin hw hh).1 hp
      obtain ⟨hx, hy⟩ := mem_full.1 hfull
      refine ⟨hfull, ?_⟩
      rw [← mem_blocks (div_lt_tilesOf hx) (div_lt_tilesOf hy) (Nat.le_add_left _ 0)
        fun j hj => absurd hj (Nat.not_lt_zero j)]
      exact ⟨b, hb, hcell⟩
    · rintro ⟨hfull, hdiffers⟩
      obtain ⟨hx, hy⟩ := mem_full.1 hfull
      obtain ⟨b, hb, hcell⟩ := (mem_blocks (div_lt_tilesOf hx) (div_lt_tilesOf hy)
        (Nat.le_add_left _ 0) fun j hj => absurd hj (Nat.not_lt_zero j)).2 hdiffers
      obtain ⟨hin, hw, hh⟩ := blocks_inside hb
      exact ⟨b, hb, (mem_pixelRect hin hw hh).2 ⟨hfull, hcell⟩⟩

theorem sub_row_in_range {row c w : ℕ} (hrow : y + row < height) (hc : x + c + w ≤ width) :
    y * (width * 4) + x * 4 + (row * (width * 4) + c * 4 + w * 4) ≤ width * 4 * height := by
  have hrange : (y + row) * (width * 4) + (x + c) * 4 + w * 4 ≤ width * 4 * height :=
    row_in_range hrow hc
  rw [Nat.add_mul, Nat.add_mul] at hrange
  omega

theorem slice_drop_pixel (hstart : y * (width * 4) + x * 4 ≤ xs.length) (q : Pixel) :
    slice (xs.drop (y * (width * 4) + x * 4)) (q.2 * (width * 4) + q.1 * 4) 4 =
      pixelAt xs width (x + q.1, y + q.2) := by
  have hplace : y * (width * 4) + x * 4 + (q.2 * (width * 4) + q.1 * 4) =
      (y + q.2) * (width * 4) + (x + q.1) * 4 := by
    rw [Nat.add_mul, Nat.add_mul]
    omega
  rw [slice_drop hstart, pixelAt, hplace]

/-- **The tiles that differ, and no others.** The images are packed, four bytes a pixel. -/
theorem findDifferentRectsSub_spec {width1 height1 width2 height2 : ℕ} (hw : 0 < width2)
    (hh : 0 < height2) (hin : (⟨x, y, width2, height2⟩ : Rect).Inside width1 height1)
    (hlen1 : image1.length = width1 * 4 * height1) (hlen2 : image2.length = width2 * 4 * height2) :
    ∃ rects, findDifferentRectsSub image1 (width1 * 4) width1 height1 image2 (width2 * 4) width2
        height2 x y 4 = some rects ∧
      (∀ r ∈ rects, r.Inside width2 height2 ∧ 0 < r.w ∧ 0 < r.h) ∧
      ∀ p, (∃ r ∈ rects, p ∈ r) ↔ p ∈ full width2 height2 ∧
        ∃ q ∈ full width2 height2, SameTile p q ∧
          pixelAt image1 width1 (x + q.1, y + q.2) ≠ pixelAt image2 width2 q := by
  obtain ⟨hx, hy⟩ := hin
  dsimp only at hx hy
  have hrow1 : ∀ row c w, row < height2 → c + w ≤ width2 →
      y * (width1 * 4) + x * 4 + (row * (width1 * 4) + c * 4 + w * 4) ≤ image1.length := by
    intro row c w hrow hc
    rw [hlen1]
    exact sub_row_in_range (by omega) (by omega)
  have hrow2 : ∀ row c w, row < height2 → c + w ≤ width2 →
      row * (width2 * 4) + c * 4 + w * 4 ≤ image2.length := by
    intro row c w hrow hc
    rw [hlen2]
    exact row_in_range hrow hc
  have hstart : y * (width1 * 4) + x * 4 ≤ image1.length := by
    have := hrow1 0 0 0 hh (by omega)
    omega
  have htall1 : (height2 - 1) * (width1 * 4) + width2 * 4 ≤
      (image1.drop (y * (width1 * 4) + x * 4)).length := by
    have := hrow1 (height2 - 1) 0 width2 (by omega) (by omega)
    rw [length_drop]
    omega
  have htall2 : (height2 - 1) * (width2 * 4) + width2 * 4 ≤ image2.length := by
    have := hrow2 (height2 - 1) 0 width2 (by omega) (by omega)
    omega
  have hwide : width2 * 4 ≤ width1 * 4 := by omega
  obtain ⟨rects, hrects, hinside, hmem⟩ := findDifferentRects_spec
    (findDifferentTiles_eq hwide (Nat.le_refl _) htall1 htall2)
  refine ⟨rects, ?_, hinside, fun p => ?_⟩
  · rw [findDifferentRectsSub, intersect_of_inside hw hh ⟨hx, hy⟩]
    dsimp only
    rw [if_pos hstart]
    exact hrects
  rw [hmem]
  refine and_congr_right fun hp => ?_
  obtain ⟨hpx, hpy⟩ := mem_full.1 hp
  obtain ⟨hmod, hdiv⟩ := cell_index (p.2 / tileSize) (div_lt_tilesOf hpx)
  obtain ⟨htx, hty⟩ := tileRect_inside (p := p) hp
  rw [hmod, hdiv, hasDiff_iff]
  · refine exists_congr fun q => ?_
    rw [mem_tileRect, and_assoc, slice_drop_pixel hstart, pixelAt, pixelAt]
  · intro row hrow hrowh
    rw [length_drop]
    have := hrow1 row _ _ (by omega) htx
    omega
  · intro row hrow hrowh
    exact hrow2 row _ _ (by omega) htx

end Linrdp.Graphics.Diff
