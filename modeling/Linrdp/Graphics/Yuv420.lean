import Linrdp.Graphics.RowChunks

/-!
# The conversion to 4:2:0

`convert_rows` turns blocks of two by two pixels into one sample of each colour plane and four of
the luma plane; a pixel outside the frame is black. All of it reads the frame through the colour of
a pixel, so what a call stores is a function of that (`cells420`), and the planes are `planes420`.
-/

namespace Linrdp.Graphics.Yuv

open List Lib.Stores Graphics.RowChunks Nat

/-! ### Colours -/

structure Rgb where
  (r g b : ℤ)
  deriving DecidableEq

def clampU8 (v : ℤ) : UInt8 := .ofNat (max 0 (min v 255)).toNat

namespace Rgb

def y (p : Rgb) : UInt8 := clampU8 ((54 * p.r + 183 * p.g + 18 * p.b) >>> (8 : ℕ))

def u (p : Rgb) : UInt8 := clampU8 (((-29 * p.r - 99 * p.g + 128 * p.b) >>> (8 : ℕ)) + 128)

def v (p : Rgb) : UInt8 := clampU8 (((128 * p.r - 116 * p.g - 12 * p.b) >>> (8 : ℕ)) + 128)

def black : Rgb := ⟨0, 0, 0⟩

def mean (p q s t : Rgb) : Rgb :=
  ⟨(p.r + q.r + s.r + t.r).tdiv 4, (p.g + q.g + s.g + t.g).tdiv 4, (p.b + q.b + s.b + t.b).tdiv 4⟩

end Rgb

variable (src : List UInt8)

def readPixel (off : ℕ) : Option Rgb := do
  let b ← src[off]?
  let g ← src[off + 1]?
  let r ← src[off + 2]?
  return ⟨r.toNat, g.toNat, b.toNat⟩

/-! ### The code -/

def px (w h x y : ℕ) : Option Rgb :=
  if x < w ∧ y < h then readPixel src (y * (w * 4) + x * 4) else some .black

inductive Plane
  | y | u | v
  deriving DecidableEq

/-- The body of the two loops, for the chunk that starts at the row pair `j0`. -/
def convertBlock (w h pw j0 j i : ℕ) : Option (List (Store (Plane × ℕ) UInt8)) := do
  let p00 ← px src w h (i * 2) (j * 2)
  let p01 ← px src w h (i * 2) (j * 2 + 1)
  let p10 ← px src w h (i * 2 + 1) (j * 2)
  let p11 ← px src w h (i * 2 + 1) (j * 2 + 1)
  let jLocal := j - j0
  let mean := Rgb.mean p00 p01 p10 p11
  return [⟨(.u, jLocal * (pw / 2) + i), mean.u⟩, ⟨(.v, jLocal * (pw / 2) + i), mean.v⟩,
    ⟨(.y, (jLocal * 2 + 0) * pw + (i * 2 + 0)), p00.y⟩,
    ⟨(.y, (jLocal * 2 + 1) * pw + (i * 2 + 0)), p01.y⟩,
    ⟨(.y, (jLocal * 2 + 0) * pw + (i * 2 + 1)), p10.y⟩,
    ⟨(.y, (jLocal * 2 + 1) * pw + (i * 2 + 1)), p11.y⟩]

def convertRows (w h pw j0 j1 : ℕ) : Option (List (Store (Plane × ℕ) UInt8)) :=
  rowLoops (pw / 2) j0 j1 (convertBlock src w h pw j0)

def yuv420 (w h pw ph : ℕ) : Conversion Plane where
  size
    | .y => pw * ph
    | .u => pw * ph / 4
    | .v => 3 * (pw * ph) / 2 - pw * ph - pw * ph / 4
  rows _ := 1
  rowLen
    | .y => 2 * pw
    | .u | .v => pw / 2
  convertRows := convertRows src w h pw

/-- `parallelism` is what the system reports, or one if it does not. -/
def bgrxToYuv420 (schedule : List ℕ) (parallelism : ℕ) (src : List UInt8) (w h pw ph : ℕ) :
    Option (Planes Plane UInt8) :=
  (yuv420 src w h pw ph).inChunks schedule (min (max 1 (min parallelism 8)) (ph / 2)) (ph / 2)

/-! ### What a call stores -/

def pixel (w x y : ℕ) : Rgb :=
  let off := y * (w * 4) + x * 4
  ⟨(src.getD (off + 2) 0).toNat, (src.getD (off + 1) 0).toNat, (src.getD off 0).toNat⟩

def onBlack (w h x y : ℕ) : Rgb := if x < w ∧ y < h then pixel src w x y else .black

variable {w h x y : ℕ}

theorem pixel_bound (hx : x < w) (hy : y < h) : y * (w * 4) + x * 4 + 4 ≤ w * h * 4 := by
  have hlt := raster_lt hy hx
  have hmul : y * (w * 4) = y * w * 4 := by ring
  rw [hmul, mul_comm w h]
  omega

variable {src : List UInt8}

theorem readPixel_eq (hsrc : w * h * 4 ≤ src.length) (hx : x < w)
    (hy : y < h) : readPixel src (y * (w * 4) + x * 4) = some (pixel src w x y) := by
  have hbound := pixel_bound hx hy
  simp [readPixel, pixel, getElem?_eq_getElem (show y * (w * 4) + x * 4 < src.length by omega),
    getElem?_eq_getElem (show y * (w * 4) + x * 4 + 1 < src.length by omega),
    getElem?_eq_getElem (show y * (w * 4) + x * 4 + 2 < src.length by omega)]

theorem px_eq (hsrc : w * h * 4 ≤ src.length) (x y : ℕ) :
    px src w h x y = some (onBlack src w h x y) := by
  rw [px, onBlack]
  split_ifs with hin
  · exact readPixel_eq hsrc hin.1 hin.2
  · rfl

variable {pw ph : ℕ}

section call

variable (shown : ℕ → ℕ → Rgb)

def blockMean (i j : ℕ) : Rgb :=
  .mean (shown (i * 2) (j * 2)) (shown (i * 2) (j * 2 + 1)) (shown (i * 2 + 1) (j * 2))
    (shown (i * 2 + 1) (j * 2 + 1))

def planes420 : Plane → ℕ → ℕ → UInt8
  | .y, r, c => (shown c r).y
  | .u, r, c => (blockMean shown c r).u
  | .v, r, c => (blockMean shown c r).v

def cells420 (k j i : ℕ) : List (Store (Plane × ℕ × ℕ) UInt8) :=
  [⟨(.u, k, i), (blockMean shown i j).u⟩, ⟨(.v, k, i), (blockMean shown i j).v⟩,
    ⟨(.y, k * 2, i * 2), (shown (i * 2) (j * 2)).y⟩,
    ⟨(.y, k * 2 + 1, i * 2), (shown (i * 2) (j * 2 + 1)).y⟩,
    ⟨(.y, k * 2, i * 2 + 1), (shown (i * 2 + 1) (j * 2)).y⟩,
    ⟨(.y, k * 2 + 1, i * 2 + 1), (shown (i * 2 + 1) (j * 2 + 1)).y⟩]

def width420 (pw : ℕ) : Plane → ℕ
  | .y => pw
  | .u | .v => pw / 2

def rows420 : Plane → ℕ
  | .y => 2
  | .u | .v => 1

def owner420 : Plane → ℕ → ℕ → ℕ × ℕ
  | .y, r, c => (r / 2, c / 2)
  | .u, r, c | .v, r, c => (r, c)

theorem convertBlock_eq (hsrc : w * h * 4 ≤ src.length) (pw j0 j i : ℕ) :
    convertBlock src w h pw j0 j i = some (Conversion.toIndices (width420 pw)
      (cells420 (onBlack src w h) (j - j0) j i)) := by
  simp only [convertBlock, px_eq hsrc]
  rfl

theorem blocks420 (hsrc : w * h * 4 ≤ src.length) (hpw : 2 ∣ pw) :
    (yuv420 src w h pw ph).Blocks (pw / 2) (width420 pw) rows420 (planes420 (onBlack src w h))
      (cells420 (onBlack src w h)) owner420 where
  pairLen p := by cases p <;> simp [Conversion.pairLen, yuv420, rows420, width420]
  convert j0 j1 := by
    simp only [yuv420, convertRows, funext fun j => funext fun i => convertBlock_eq hsrc pw j0 j i]
  once k j i _ := by simp [cells420]
  stores k j0 i hi s hs := by
    have hrow : (j0 + k) * 2 = j0 * 2 + k * 2 := by omega
    simp only [cells420, mem_cons, not_mem_nil, or_false] at hs
    rcases hs with rfl | rfl | rfl | rfl | rfl | rfl
    · simp [owner420, rows420, width420, planes420, hi]
    · simp [owner420, rows420, width420, planes420, hi]
    all_goals
      simp only [owner420, rows420, width420, planes420, hrow, add_assoc, Prod.mk.injEq, and_true]
      omega
  cover n j0 p r col hr hcol := by
    cases p with
    | y =>
      simp only [rows420, width420] at hr hcol
      refine ⟨r / 2, by omega, col / 2, by omega, rfl, ?_⟩
      have hplace : ∀ a b, r = a → col = b → (Plane.y, r, col) = (Plane.y, a, b) := by
        rintro a b rfl rfl
        rfl
      simp only [cells420, map_cons, map_nil, mem_cons, not_mem_nil, or_false]
      rcases mod_two_eq_zero_or_one r with hr2 | hr2 <;>
        rcases mod_two_eq_zero_or_one col with hc2 | hc2
      · exact .inr (.inr (.inl (hplace _ _ (by omega) (by omega))))
      · exact .inr (.inr (.inr (.inr (.inl (hplace _ _ (by omega) (by omega))))))
      · exact .inr (.inr (.inr (.inl (hplace _ _ (by omega) (by omega)))))
      · exact .inr (.inr (.inr (.inr (.inr (hplace _ _ (by omega) (by omega))))))
    | u | v =>
      simp only [rows420, width420, mul_one] at hr hcol
      exact ⟨r, hr, col, hcol, rfl, by simp [cells420]⟩

end call

theorem size420 (hpw : 2 ∣ pw) (hph : 2 ∣ ph) (src : List UInt8) (w h : ℕ) (p : Plane) :
    (yuv420 src w h pw ph).size p = ph / 2 * rows420 p * width420 pw p := by
  obtain ⟨a, rfl⟩ := hpw
  obtain ⟨b, rfl⟩ := hph
  have harea : 2 * a * (2 * b) = 4 * (b * a) := by ring
  have hpair : b * 2 * (2 * a) = 4 * (b * a) := by ring
  cases p <;> simp only [yuv420, rows420, width420, harea, Nat.mul_one,
    Nat.mul_div_cancel_left _ (show 0 < 2 by decide), hpair] <;> omega

theorem sound420 (hsrc : w * h * 4 ≤ src.length) (hpw : 2 ∣ pw)
    (hph : 2 ∣ ph) : (yuv420 src w h pw ph).Sound (ph / 2)
      fun x => planes420 (onBlack src w h) x.1 (x.2 / width420 pw x.1) (x.2 % width420 pw x.1) := by
  refine (blocks420 hsrc hpw).sound fun p => ?_
  rw [(blocks420 hsrc hpw).pairLen, size420 hpw hph, mul_assoc]

theorem planes420_padding (src : List UInt8) (w h r c : ℕ) :
    (¬(c < w ∧ r < h) → planes420 (onBlack src w h) .y r c = 0) ∧
      (w ≤ c * 2 ∨ h ≤ r * 2 → planes420 (onBlack src w h) .u r c = 128 ∧
        planes420 (onBlack src w h) .v r c = 128) := by
  have hblack : ∀ x y, ¬(x < w ∧ y < h) → onBlack src w h x y = .black := fun x y hout =>
      if_neg hout
  refine ⟨fun hout => ?_, fun hout => ?_⟩
  · rw [planes420, hblack c r hout]
    rfl
  · have hmean : blockMean (onBlack src w h) c r = .black := by
      rw [blockMean, hblack _ _ (by omega), hblack _ _ (by omega), hblack _ _ (by omega),
        hblack _ _ (by omega)]
      rfl
    rw [planes420, planes420, hmean]
    exact ⟨rfl, rfl⟩

/-! ### Frames that are made larger -/

/-- A frame of `pw` by `ph` pixels that shows at each place the pixel of the source that `pick`
names. -/
def extend (src : List UInt8) (w pw ph : ℕ) (pick : ℕ → ℕ → Option (ℕ × ℕ)) : List UInt8 :=
  (List.range (pw * ph * 4)).map fun k =>
    ((pick (k / 4 % pw) (k / 4 / pw)).map fun q =>
      src.getD (q.2 * (w * 4) + q.1 * 4 + k % 4) 0).getD 0

theorem length_extend (src : List UInt8) (w pw ph : ℕ) (pick : ℕ → ℕ → Option (ℕ × ℕ)) :
    (extend src w pw ph pick).length = pw * ph * 4 := by simp [extend]

theorem pixel_extend (hx : x < pw) (hy : y < ph) (src : List UInt8) (w : ℕ)
    (pick : ℕ → ℕ → Option (ℕ × ℕ)) : pixel (extend src w pw ph pick) pw x y =
      ((pick x y).map fun q => pixel src w q.1 q.2).getD .black := by
  have hbyte : ∀ c < 4, (extend src w pw ph pick).getD (y * (pw * 4) + x * 4 + c) 0 =
      ((pick x y).map fun q => src.getD (q.2 * (w * 4) + q.1 * 4 + c) 0).getD 0 := by
    intro c hc
    have hbound := pixel_bound hx hy
    have hdiv : (y * (pw * 4) + x * 4 + c) / 4 = y * pw + x := by
      rw [← mul_assoc]
      omega
    have hmod : (y * (pw * 4) + x * 4 + c) % 4 = c := by
      rw [← mul_assoc]
      omega
    rw [extend, getD_eq_getElem?_getD, getElem?_map, getElem?_range (by omega),
      Option.map_some, Option.getD_some, hdiv, hmod, mod_raster hx, div_raster hx]
  rw [pixel, hbyte 2 (by decide), hbyte 1 (by decide), show y * (pw * 4) + x * 4 = y * (pw * 4) +
    x * 4 + 0
    from rfl, hbyte 0 (by decide)]
  cases pick x y with
  | none | some q => rfl

def inside (w h x y : ℕ) : Option (ℕ × ℕ) := if x < w ∧ y < h then some (x, y) else none

theorem onBlack_extend (hw : w ≤ pw) (hh : h ≤ ph) (src : List UInt8) :
    onBlack (extend src w pw ph (inside w h)) pw ph = onBlack src w h := by
  funext x y
  rw [onBlack, onBlack]
  by_cases hin : x < w ∧ y < h
  · rw [if_pos (by omega), if_pos hin, pixel_extend (by omega) (by omega), inside, if_pos hin]
    rfl
  · rw [if_neg hin]
    split_ifs with hpad
    · rw [pixel_extend hpad.1 hpad.2, inside, if_neg hin]
      rfl
    · rfl

end Linrdp.Graphics.Yuv
