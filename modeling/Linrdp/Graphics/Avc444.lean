import Linrdp.Graphics.Yuv420

/-!
# The two views of AVC444v2

`convert_rows_v2` fills six planes: a luma view as in the conversion to 4:2:0, and a chroma view
with the colours the luma view averages away. `planes444` says where each value goes, by the blocks
B1 to B9. `conversions_exact` is about both conversions and how they share out the rows. `recombine`
reads a pixel back as `scripts/v2_roundtrip_check.sh` does, and `views_recombine` says what it gets.
-/

namespace Linrdp.Graphics.Yuv

open List Lib.Stores Graphics.RowChunks Rgb

/-! ### The code -/

variable (src : List UInt8)

/-- The colour that `yuv_at` converts; the frame is not empty. -/
def pxNearest (w h x y : ℕ) : Option Rgb :=
  readPixel src (min y (h - 1) * (w * 4) + min x (w - 1) * 4)

/-- `u8::try_from(sum / 4).unwrap_or(u8::MAX)`. -/
def v8Mean (sum : ℕ) : UInt8 := if sum / 4 ≤ 255 then .ofNat (sum / 4) else 255

inductive View
  | lumaY | lumaU | lumaV | chromaY | chromaU | chromaV
  deriving DecidableEq

def convertBlockV2 (w h pw j0 j x2 : ℕ) : Option (List (Store (View × ℕ) UInt8)) := do
  let p00 ← pxNearest src w h (2 * x2) (2 * j)
  let p01 ← pxNearest src w h (2 * x2 + 1) (2 * j)
  let p10 ← pxNearest src w h (2 * x2) (2 * j + 1)
  let p11 ← pxNearest src w h (2 * x2 + 1) (2 * j + 1)
  let half := pw / 2
  let quarter := half / 2
  let jLocal := j - j0
  let ye := 2 * jLocal
  let yo := ye + 1
  let uSum := p00.u.toNat + p01.u.toNat + p10.u.toNat + p11.u.toNat
  let vSum := p00.v.toNat + p01.v.toNat + p10.v.toNat + p11.v.toNat
  return [⟨(.lumaY, ye * pw + 2 * x2), p00.y⟩, ⟨(.lumaY, ye * pw + 2 * x2 + 1), p01.y⟩,
    ⟨(.lumaY, yo * pw + 2 * x2), p10.y⟩, ⟨(.lumaY, yo * pw + 2 * x2 + 1), p11.y⟩,
    ⟨(.lumaU, jLocal * half + x2), v8Mean uSum⟩, ⟨(.lumaV, jLocal * half + x2), v8Mean vSum⟩,
    ⟨(.chromaY, ye * pw + x2), p01.u⟩, ⟨(.chromaY, ye * pw + x2 + half), p01.v⟩,
    ⟨(.chromaY, yo * pw + x2), p11.u⟩, ⟨(.chromaY, yo * pw + x2 + half), p11.v⟩] ++
    if x2 % 2 = 0 then [⟨(.chromaU, jLocal * half + x2 / 2), p10.u⟩,
      ⟨(.chromaU, jLocal * half + quarter + x2 / 2), p10.v⟩]
    else [⟨(.chromaV, jLocal * half + x2 / 2), p10.u⟩,
      ⟨(.chromaV, jLocal * half + quarter + x2 / 2), p10.v⟩]

def convertRowsV2 (w h pw j0 j1 : ℕ) : Option (List (Store (View × ℕ) UInt8)) :=
  rowLoops (pw / 2) j0 j1 (convertBlockV2 src w h pw j0)

def yuv444v2 (w h pw ph : ℕ) : Conversion View where
  size
    | .lumaY | .chromaY => pw * ph
    | .lumaU | .chromaU => pw * ph / 4
    | .lumaV | .chromaV => 3 * (pw * ph) / 2 - pw * ph - pw * ph / 4
  rows
    | .lumaY | .chromaY => 2
    | _ => 1
  rowLen
    | .lumaY | .chromaY => pw
    | _ => pw / 2
  convertRows := convertRowsV2 src w h pw

def bgrxToYuv444v2 (schedule : List ℕ) (parallelism : ℕ) (src : List UInt8) (w h pw ph : ℕ) :
    Option (Planes View UInt8) :=
  (yuv444v2 src w h pw ph).inChunks schedule (min (max 1 (min parallelism 8)) (max (ph / 2) 1))
    (ph / 2)

/-! ### What a call stores -/

def nearest (w h x y : ℕ) : Rgb := pixel src w (min x (w - 1)) (min y (h - 1))

/-- The mean of a difference over the block in the column `i` and the row `j` of blocks. -/
def sampleMean (f : Rgb → UInt8) (shown : ℕ → ℕ → Rgb) (i j : ℕ) : UInt8 :=
  v8Mean ((f (shown (2 * i) (2 * j))).toNat + (f (shown (2 * i + 1) (2 * j))).toNat +
    (f (shown (2 * i) (2 * j + 1))).toNat + (f (shown (2 * i + 1) (2 * j + 1))).toNat)

def sideBySide (part : ℕ) (left right : ℕ → UInt8) (c : ℕ) : UInt8 :=
  if c < part then left c else right (c - part)

def planes444 (pw : ℕ) (shown : ℕ → ℕ → Rgb) : View → ℕ → ℕ → UInt8
  | .lumaY, r, c => (shown c r).y
  | .lumaU, r, c => sampleMean u shown c r
  | .lumaV, r, c => sampleMean v shown c r
  | .chromaY, r, c =>
    sideBySide (pw / 2) (fun x => (shown (2 * x + 1) r).u) (fun x => (shown (2 * x + 1) r).v) c
  | .chromaU, r, c =>
    sideBySide (pw / 4) (fun x => (shown (4 * x) (2 * r + 1)).u)
      (fun x => (shown (4 * x) (2 * r + 1)).v) c
  | .chromaV, r, c => sideBySide (pw / 4) (fun x => (shown (4 * x + 2) (2 * r + 1)).u)
      (fun x => (shown (4 * x + 2) (2 * r + 1)).v) c

def cells444 (pw : ℕ) (shown : ℕ → ℕ → Rgb) (k j i : ℕ) : List (Store (View × ℕ × ℕ) UInt8) :=
  [⟨(.lumaY, 2 * k, 2 * i), (shown (2 * i) (2 * j)).y⟩,
    ⟨(.lumaY, 2 * k, 2 * i + 1), (shown (2 * i + 1) (2 * j)).y⟩,
    ⟨(.lumaY, 2 * k + 1, 2 * i), (shown (2 * i) (2 * j + 1)).y⟩,
    ⟨(.lumaY, 2 * k + 1, 2 * i + 1), (shown (2 * i + 1) (2 * j + 1)).y⟩,
    ⟨(.lumaU, k, i), sampleMean u shown i j⟩, ⟨(.lumaV, k, i), sampleMean v shown i j⟩,
    ⟨(.chromaY, 2 * k, i), (shown (2 * i + 1) (2 * j)).u⟩,
    ⟨(.chromaY, 2 * k, i + pw / 2), (shown (2 * i + 1) (2 * j)).v⟩,
    ⟨(.chromaY, 2 * k + 1, i), (shown (2 * i + 1) (2 * j + 1)).u⟩,
    ⟨(.chromaY, 2 * k + 1, i + pw / 2), (shown (2 * i + 1) (2 * j + 1)).v⟩] ++
    if i % 2 = 0 then [⟨(.chromaU, k, i / 2), (shown (2 * i) (2 * j + 1)).u⟩,
      ⟨(.chromaU, k, pw / 2 / 2 + i / 2), (shown (2 * i) (2 * j + 1)).v⟩]
    else [⟨(.chromaV, k, i / 2), (shown (2 * i) (2 * j + 1)).u⟩,
      ⟨(.chromaV, k, pw / 2 / 2 + i / 2), (shown (2 * i) (2 * j + 1)).v⟩]

def width444 (pw : ℕ) : View → ℕ
  | .lumaY | .chromaY => pw
  | _ => pw / 2

def rows444 : View → ℕ
  | .lumaY | .chromaY => 2
  | _ => 1

def owner444 (pw : ℕ) : View → ℕ → ℕ → ℕ × ℕ
  | .lumaY, r, c => (r / 2, c / 2)
  | .lumaU, r, c | .lumaV, r, c => (r, c)
  | .chromaY, r, c => (r / 2, if c < pw / 2 then c else c - pw / 2)
  | .chromaU, r, c => (r, 2 * if c < pw / 4 then c else c - pw / 4)
  | .chromaV, r, c => (r, 2 * (if c < pw / 4 then c else c - pw / 4) + 1)

theorem convertBlockV2_eq {src : List UInt8} {w h : ℕ} (hw : 0 < w) (hh : 0 < h)
    (hsrc : w * h * 4 ≤ src.length) (pw j0 j i : ℕ) : convertBlockV2 src w h pw j0 j i =
      some (Conversion.toIndices (width444 pw) (cells444 pw (nearest src w h) (j - j0) j i)) := by
  have hread : ∀ x y, pxNearest src w h x y = some (nearest src w h x y) :=
    fun _ _ => readPixel_eq hsrc (by omega) (by omega)
  simp only [convertBlockV2, hread, Option.bind_eq_bind, Option.bind_some,
    Conversion.toIndices,
    cells444, map_append, apply_ite (map _), raster, width444, sampleMean, Nat.add_assoc]
  rfl

section blocks

variable {pw : ℕ} {shown : ℕ → ℕ → Rgb} {i : ℕ}

theorem nodup_cells444 (hpw : 4 ∣ pw) (hi : i < pw / 2) (k j : ℕ) :
    ((cells444 pw shown k j i).map Store.place).Nodup := by
  have hhalf : pw / 2 ≠ 0 := by omega
  have hquarter : pw / 2 / 2 ≠ 0 := by omega
  rw [cells444]
  split_ifs <;> simp [hhalf, hquarter]

theorem mem_cells444 (hpw : 4 ∣ pw) (hi : i < pw / 2) (k j0 : ℕ) {s : Store (View × ℕ × ℕ) UInt8}
    (hs : s ∈ cells444 pw shown k (j0 + k) i) :
    owner444 pw s.place.1 s.place.2.1 s.place.2.2 = (k, i) ∧
      s.place.2.1 < (k + 1) * rows444 s.place.1 ∧ s.place.2.2 < width444 pw s.place.1 ∧
      s.value = planes444 pw shown s.place.1 (j0 * rows444 s.place.1 + s.place.2.1)
      s.place.2.2 := by
  have hrow : 2 * (j0 + k) = j0 * 2 + 2 * k := by omega
  obtain ⟨q, rfl⟩ := hpw
  have hhalf : 4 * q / 2 = 2 * q := by omega
  have hquarter : 4 * q / 4 = q := by omega
  have hquarter' : 2 * q / 2 = q := by omega
  rw [hhalf] at hi
  rw [cells444, mem_append] at hs
  have hright : ¬i + 2 * q < 2 * q := by omega
  have hleft' : i / 2 < q := by omega
  have hright' : ¬q + i / 2 < q := by omega
  rcases hs with hs | hs
  · simp only [mem_cons, not_mem_nil, or_false] at hs
    rcases hs with rfl | rfl | rfl | rfl | rfl | rfl | rfl | rfl | rfl | rfl <;>
      simp only [owner444, rows444, width444, planes444, sideBySide, hi, hright, hhalf, hrow,
      if_true, if_false,
        Nat.add_sub_cancel, Nat.add_assoc, Nat.mul_one, Prod.mk.injEq, and_true, true_and] <;>
      omega
  · split_ifs at hs with heven <;> simp only [mem_cons, not_mem_nil, or_false] at hs
    · have hcol : 4 * (i / 2) = 2 * i := by omega
      rcases hs with rfl | rfl <;>
        simp only [owner444, rows444, width444, planes444, sideBySide, hhalf, hquarter, hquarter',
        hleft', hright',
          if_true, if_false, Nat.add_sub_cancel_left, hcol, Nat.mul_one, Prod.mk.injEq, and_true,
          true_and] <;>
        omega
    · have hcol : 4 * (i / 2) + 2 = 2 * i := by omega
      rcases hs with rfl | rfl <;>
        simp only [owner444, rows444, width444, planes444, sideBySide, hhalf, hquarter, hquarter',
        hleft', hright',
          if_true, if_false, Nat.add_sub_cancel_left, hcol, Nat.mul_one, Prod.mk.injEq, and_true,
          true_and] <;>
        omega

theorem cover_cells444 (hpw : 4 ∣ pw) (n j0 : ℕ) (p : View) (r col : ℕ) (hr : r < n * rows444 p)
    (hcol : col < width444 pw p) : ∃ k < n, ∃ i < pw / 2, owner444 pw p r col = (k, i) ∧
      (p, r, col) ∈ (cells444 pw shown k (j0 + k) i).map Store.place := by
  cases p <;> simp only [rows444, width444, Nat.mul_one] at hr hcol
  case lumaY =>
    refine ⟨r / 2, by omega, col / 2, by omega, rfl, ?_⟩
    simp only [cells444, map_append, map_cons, map_nil, mem_append, mem_cons,
      Prod.mk.injEq, true_and]
    omega
  case chromaY =>
    refine ⟨r / 2, by omega, _, ?_, rfl, ?_⟩
    · split_ifs <;> omega
    · simp only [cells444, map_append, map_cons, map_nil, mem_append, mem_cons,
        Prod.mk.injEq, true_and]
      split_ifs <;> omega
  case lumaU | lumaV => exact ⟨r, hr, col, hcol, rfl, by simp [cells444]⟩
  case chromaU =>
    refine ⟨r, hr, _, ?_, rfl, ?_⟩
    · split_ifs <;> omega
    · simp only [cells444, Nat.mul_mod_right, if_true, map_append, map_cons, map_nil,
        mem_append, mem_cons, Prod.mk.injEq, true_and]
      split_ifs <;> omega
  case chromaV =>
    have hodd : ∀ x, ¬(2 * x + 1) % 2 = 0 := by omega
    refine ⟨r, hr, _, ?_, rfl, ?_⟩
    · split_ifs <;> omega
    · simp only [cells444, hodd, if_false, map_append, map_cons, map_nil, mem_append,
        mem_cons, Prod.mk.injEq, true_and]
      split_ifs <;> omega

end blocks

section frame

variable {src : List UInt8} {w h pw ph : ℕ}

theorem size444 (hpw : 4 ∣ pw) (hph : 2 ∣ ph) (src : List UInt8) (w h : ℕ) (p : View) :
    (yuv444v2 src w h pw ph).size p = ph / 2 * rows444 p * width444 pw p := by
  obtain ⟨a, rfl⟩ := hpw
  obtain ⟨b, rfl⟩ := hph
  have harea : 4 * a * (2 * b) = 8 * (b * a) := by ring
  have hpair : b * 2 * (4 * a) = 8 * (b * a) := by ring
  have hhalf : 4 * a / 2 = 2 * a := by omega
  have hpair' : b * (2 * a) = 2 * (b * a) := by ring
  cases p <;> simp only [yuv444v2, rows444, width444, harea, Nat.mul_one, hhalf,
    Nat.mul_div_cancel_left b (show 0 < 2 by decide), hpair, hpair'] <;> omega

theorem sound444 (hw : 0 < w) (hh : 0 < h) (hsrc : w * h * 4 ≤ src.length) (hpw : 4 ∣ pw)
    (hph : 2 ∣ ph) : (yuv444v2 src w h pw ph).Sound (ph / 2) fun x =>
      planes444 pw (nearest src w h) x.1 (x.2 / width444 pw x.1) (x.2 % width444 pw x.1) := by
  have hblocks : (yuv444v2 src w h pw ph).Blocks (pw / 2) (width444 pw) rows444
      (planes444 pw (nearest src w h)) (cells444 pw (nearest src w h)) (owner444 pw) :=
    { pairLen := fun p => by cases p <;> rfl
      convert := fun j0 j1 => by
        simp only [yuv444v2, convertRowsV2,
          funext fun j => funext fun i => convertBlockV2_eq hw hh hsrc pw j0 j i]
      once := fun k j i hi => nodup_cells444 hpw hi k j
      stores := fun k j0 i hi _ hs => mem_cells444 hpw hi k j0 hs
      cover := cover_cells444 hpw }
  refine hblocks.sound fun p => ?_
  rw [hblocks.pairLen, size444 hpw hph, Nat.mul_assoc]

def clamped (w h x y : ℕ) : Option (ℕ × ℕ) := some (min x (w - 1), min y (h - 1))

theorem nearest_extend (hw : 0 < w) (hh : 0 < h) (hpw : w ≤ pw) (hph : h ≤ ph) :
    nearest (extend src w pw ph (clamped w h)) pw ph = nearest src w h := by
  have hmin : ∀ {n m k : ℕ}, 0 < n → n ≤ m → min (min k (m - 1)) (n - 1) = min k (n - 1) := by omega
  funext x y
  rw [nearest, pixel_extend (by omega) (by omega), clamped, hmin hw hpw, hmin hh hph]
  rfl

structure Padded (src : List UInt8) (w h pw ph : ℕ) : Prop where
  width : 0 < w
  height : 0 < h
  bytes : w * h * 4 ≤ src.length
  padWidth : w ≤ pw
  padHeight : h ≤ ph
  blocksWide : 16 ∣ pw
  blocksHigh : 16 ∣ ph

/-- Outside the frame the luma is black, and so are the blocks without a pixel of it. -/
def BlackAround (w h pw ph : ℕ) (planes : Planes Plane UInt8) : Prop :=
  (∀ x < pw, ∀ y < ph, ¬(x < w ∧ y < h) → sampleAt planes .y (y * pw + x) = some 0) ∧
    ∀ i < pw / 2, ∀ j < ph / 2, w ≤ i * 2 ∨ h ≤ j * 2 →
      sampleAt planes .u (j * (pw / 2) + i) = some 128 ∧ sampleAt planes .v (j * (pw / 2) + i) =
      some 128

/-- What the two conversions make of a frame: the planes of one call over all rows, for any number
of workers and any schedule, each sample stored once. They are those of the frame on black, and
those of the frame with its last column and row repeated. -/
structure Exact (src : List UInt8) (w h pw ph : ℕ) : Prop where
  yuv420 : ∃ planes, (yuv420 src w h pw ph).Makes (ph / 2) planes ∧
    (∀ schedule parallelism, bgrxToYuv420 schedule parallelism src w h pw ph = some planes) ∧
    (∀ schedule parallelism,
      bgrxToYuv420 schedule parallelism (extend src w pw ph (inside w h)) pw ph pw ph =
      some planes) ∧
    BlackAround w h pw ph planes
  yuv444v2 : ∃ views, (yuv444v2 src w h pw ph).Makes (ph / 2) views ∧
    (∀ schedule parallelism, bgrxToYuv444v2 schedule parallelism src w h pw ph = some views) ∧
    ∀ schedule parallelism,
      bgrxToYuv444v2 schedule parallelism (extend src w pw ph (clamped w h)) pw ph pw ph =
      some views

theorem blackAround (hpw : 2 ∣ pw) (hph : 2 ∣ ph) (src : List UInt8) :
    BlackAround w h pw ph (picture (fun x => planes420 (onBlack src w h) x.1 (x.2 / width420 pw x.1)
      (x.2 % width420 pw x.1)) (yuv420 src w h pw ph).size) := by
  have hsize := size420 hpw hph src w h
  refine ⟨fun x hx y hy hout => ?_, fun i hi j hj hout => ?_⟩
  · exact (sampleAt_raster _ (hsize .y) (show y < ph / 2 * 2 by omega) hx).trans
      (congrArg some ((planes420_padding src w h y x).1 hout))
  · obtain ⟨hu, hv⟩ := (planes420_padding src w h j i).2 hout
    exact ⟨(sampleAt_raster _ (hsize .u) (show j < ph / 2 * 1 by omega) hi).trans
      (congrArg some hu),
      (sampleAt_raster _ (hsize .v) (show j < ph / 2 * 1 by omega) hi).trans (congrArg some hv)⟩

theorem conversions_exact (hpad : Padded src w h pw ph) : Exact src w h pw ph := by
  obtain ⟨hw, hh, hsrc, hpw, hph, hwide, hhigh⟩ := hpad
  have hpairs : 0 < ph / 2 := by omega
  have heven : 2 ∣ pw ∧ 2 ∣ ph ∧ 4 ∣ pw := by omega
  have hext : ∀ pick, pw * ph * 4 ≤ (extend src w pw ph pick).length := fun pick => by
      rw [length_extend]
  have hsound := (sound420 hsrc heven.1 heven.2.1).makes hpairs
  have hsound' := sound420 (hext (inside w h)) heven.1 heven.2.1
  rw [onBlack_extend hpw hph] at hsound'
  have hviews := (sound444 hw hh hsrc heven.2.2 heven.2.1).makes hpairs
  have hviews' := sound444 (by omega) (by omega) (hext (clamped w h)) heven.2.2 heven.2.1
  rw [nearest_extend hw hh hpw hph] at hviews'
  refine ⟨⟨_, hsound, fun schedule _ => hsound.inChunks schedule _ (by omega),
    fun schedule _ => (hsound'.makes hpairs).inChunks schedule _ (by omega),
    blackAround heven.1 heven.2.1 src⟩, ⟨_, hviews, fun schedule _ =>
    hviews.inChunks schedule _ (by omega),
    fun schedule _ => (hviews'.makes hpairs).inChunks schedule _ (by omega)⟩⟩

theorem conversions_exact_pixel : Padded [1, 2, 3, 0] 1 1 16 16 ∧ Exact [1, 2, 3, 0] 1 1 16 16 := by
  have hpad : Padded [1, 2, 3, 0] 1 1 16 16 := by constructor <;> decide
  exact ⟨hpad, conversions_exact hpad⟩

/-! ### The blocks of the specification -/

/-- Where the two views hold what, for the colours `shown`. -/
structure Layout (pw ph : ℕ) (shown : ℕ → ℕ → Rgb) (views : Planes View UInt8) : Prop where
  b1 : ∀ x < pw, ∀ y < ph, sampleAt views .lumaY (y * pw + x) = some (shown x y).y
  b2 : ∀ x < pw / 2, ∀ y < ph / 2,
    sampleAt views .lumaU (y * (pw / 2) + x) = some (sampleMean u shown x y)
  b3 : ∀ x < pw / 2, ∀ y < ph / 2,
    sampleAt views .lumaV (y * (pw / 2) + x) = some (sampleMean v shown x y)
  b4 : ∀ x < pw / 2, ∀ y < ph, sampleAt views .chromaY (y * pw + x) = some (shown (2 * x + 1) y).u
  b5 : ∀ x < pw / 2, ∀ y < ph,
    sampleAt views .chromaY (y * pw + (pw / 2 + x)) = some (shown (2 * x + 1) y).v
  b6 : ∀ x < pw / 4, ∀ y < ph / 2,
    sampleAt views .chromaU (y * (pw / 2) + x) = some (shown (4 * x) (2 * y + 1)).u
  b7 : ∀ x < pw / 4, ∀ y < ph / 2,
    sampleAt views .chromaU (y * (pw / 2) + (pw / 4 + x)) = some (shown (4 * x) (2 * y + 1)).v
  b8 : ∀ x < pw / 4, ∀ y < ph / 2,
    sampleAt views .chromaV (y * (pw / 2) + x) = some (shown (4 * x + 2) (2 * y + 1)).u
  b9 : ∀ x < pw / 4, ∀ y < ph / 2,
    sampleAt views .chromaV (y * (pw / 2) + (pw / 4 + x)) = some (shown (4 * x + 2) (2 * y + 1)).v

theorem sideBySide_left {part c : ℕ} (hc : c < part) (left right : ℕ → UInt8) :
    sideBySide part left right c = left c := if_pos hc

theorem sideBySide_right (part c : ℕ) (left right : ℕ → UInt8) :
    sideBySide part left right (part + c) = right c := by
  rw [sideBySide, if_neg (by omega), Nat.add_sub_cancel_left]

theorem layout (hpw : 4 ∣ pw) (hph : 2 ∣ ph) (src : List UInt8) (w h : ℕ) (shown : ℕ → ℕ → Rgb) :
    Layout pw ph shown (picture (fun x => planes444 pw shown x.1 (x.2 / width444 pw x.1)
      (x.2 % width444 pw x.1)) (yuv444v2 src w h pw ph).size) := by
  have hsize := size444 hpw hph src w h
  have hat : ∀ (p : View) {m n : ℕ}, width444 pw p = m → ph / 2 * rows444 p = n → ∀ x < m, ∀ y < n,
      sampleAt (picture (fun x => planes444 pw shown x.1 (x.2 / width444 pw x.1)
      (x.2 % width444 pw x.1))
        (yuv444v2 src w h pw ph).size) p (y * m + x) = some (planes444 pw shown p y x) := by
    rintro p _ _ rfl rfl x hx y hy
    exact sampleAt_raster (planes444 pw shown) (hsize p) hy hx
  have htwo : ph / 2 * 2 = ph := Nat.div_mul_cancel hph
  have hone := Nat.mul_one (ph / 2)
  constructor <;> intro x hx y hy
  · exact hat .lumaY rfl htwo x hx y hy
  · exact hat .lumaU rfl hone x hx y hy
  · exact hat .lumaV rfl hone x hx y hy
  · rw [hat .chromaY (m := pw) rfl htwo x (by omega) y hy, planes444, sideBySide_left hx]
  · rw [hat .chromaY (m := pw) rfl htwo _ (by omega) y hy, planes444, sideBySide_right]
  · rw [hat .chromaU (m := pw / 2) rfl hone x (by omega) y hy, planes444, sideBySide_left hx]
  · rw [hat .chromaU (m := pw / 2) rfl hone _ (by omega) y hy, planes444, sideBySide_right]
  · rw [hat .chromaV (m := pw / 2) rfl hone x (by omega) y hy, planes444, sideBySide_left hx]
  · rw [hat .chromaV (m := pw / 2) rfl hone _ (by omega) y hy, planes444, sideBySide_right]

/-! ### The inverse -/

def recombine (pw : ℕ) (views : Planes View UInt8) (x y : ℕ) : Option (UInt8 × UInt8 × UInt8) := do
  let hw := pw / 2
  let qw := pw / 4
  let luma ← sampleAt views .lumaY (y * pw + x)
  if x % 2 = 1 then
    return (luma, ← sampleAt views .chromaY (y * pw + x / 2),
      ← sampleAt views .chromaY (y * pw + (hw + x / 2)))
  else if y % 2 = 0 then
    return (luma, ← sampleAt views .lumaU (y / 2 * hw + x / 2),
      ← sampleAt views .lumaV (y / 2 * hw + x / 2))
  else if x % 4 = 0 then
    return (luma, ← sampleAt views .chromaU (y / 2 * hw + x / 4),
      ← sampleAt views .chromaU (y / 2 * hw + (qw + x / 4)))
  else
    return (luma, ← sampleAt views .chromaV (y / 2 * hw + x / 4),
      ← sampleAt views .chromaV (y / 2 * hw + (qw + x / 4)))

theorem Layout.recombine_eq {shown : ℕ → ℕ → Rgb} {views : Planes View UInt8}
    (h : Layout pw ph shown views) (hpw : 4 ∣ pw) (hph : 2 ∣ ph) {x y : ℕ} (hx : x < pw)
    (hy : y < ph) :
    recombine pw views x y = some ((shown x y).y,
      if x % 2 = 0 ∧ y % 2 = 0 then (sampleMean u shown (x / 2) (y / 2),
      sampleMean v shown (x / 2) (y / 2))
      else ((shown x y).u, (shown x y).v)) := by
  rw [recombine]
  simp only [h.b1 x hx y hy, Option.bind_eq_bind, Option.bind_some]
  by_cases hodd : x % 2 = 1
  · have hcol : 2 * (x / 2) + 1 = x := by omega
    rw [if_pos hodd, if_neg (by omega), h.b4 _ (by omega) y hy, h.b5 _ (by omega) y hy, hcol]
    rfl
  by_cases hrow : y % 2 = 0
  · rw [if_neg hodd, if_pos hrow, if_pos (by omega), h.b2 _ (by omega) _ (by omega),
      h.b3 _ (by omega) _ (by omega)]
    rfl
  have hpair : 2 * (y / 2) + 1 = y := by omega
  have heven : ¬(x % 2 = 0 ∧ y % 2 = 0) := fun h => hrow h.2
  split_ifs with hfour
  · have hcol : 4 * (x / 4) = x := by omega
    rw [h.b6 _ (by omega) _ (by omega), h.b7 _ (by omega) _ (by omega), hcol, hpair]
    rfl
  · have hcol : 4 * (x / 4) + 2 = x := by omega
    rw [h.b8 _ (by omega) _ (by omega), h.b9 _ (by omega) _ (by omega), hcol, hpair]
    rfl

/-- **The two views hold the frame as the specification lays it out**, and reading them back gives
each pixel its own luma and, but for the even columns of the even rows, its own differences. -/
theorem views_recombine (hw : 0 < w) (hh : 0 < h) (hsrc : w * h * 4 ≤ src.length) (hpw : 16 ∣ pw)
    (hph : 16 ∣ ph) (hpos : 0 < ph) (schedule : List ℕ) (parallelism : ℕ) :
    ∃ views, bgrxToYuv444v2 schedule parallelism src w h pw ph = some views ∧
      Layout pw ph (nearest src w h) views ∧
      ∀ x y, x < w → y < h → x < pw → y < ph →
        recombine pw views x y = some ((pixel src w x y).y,
          if x % 2 = 0 ∧ y % 2 = 0 then
            (sampleMean u (nearest src w h) (x / 2) (y / 2),
              sampleMean v (nearest src w h) (x / 2) (y / 2))
          else ((pixel src w x y).u, (pixel src w x y).v)) := by
  have hfour : 4 ∣ pw ∧ 2 ∣ ph := by omega
  have hviews := (sound444 hw hh hsrc hfour.1 hfour.2).makes (by omega)
  have hlayout := layout hfour.1 hfour.2 src w h (nearest src w h)
  refine ⟨_, hviews.inChunks schedule _ (by omega), hlayout, fun x y hxw hyh hx hy => ?_⟩
  have hpixel : nearest src w h x y = pixel src w x y := by
    rw [nearest, Nat.min_eq_left (by omega), Nat.min_eq_left (by omega)]
  rw [hlayout.recombine_eq hfour.1 hfour.2 hx hy, hpixel]

theorem views_recombine_pixel : ∃ views, bgrxToYuv444v2 [1, 0] 4 [1, 2, 3, 0] 1 1 16 16 =
    some views ∧ recombine 16 views 0 0 = some (2, 127, 128) := by
  obtain ⟨views, hviews, -, hread⟩ := views_recombine (show 0 < 1 by decide) (show 0 < 1 by decide)
    (show 1 * 1 * 4 ≤ ([1, 2, 3, 0] : List UInt8).length by decide) (show 16 ∣ 16 by decide)
    (show 16 ∣ 16 by decide) (by decide) [1, 0] 4
  exact ⟨views, hviews, (hread 0 0 (by decide) (by decide) (by decide) (by decide)).trans
    (by decide)⟩

end frame

end Linrdp.Graphics.Yuv
