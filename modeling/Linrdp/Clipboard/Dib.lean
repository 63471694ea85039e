import Linrdp.Lib.Bytes
import Linrdp.Lib.Panics
import Mathlib.Data.Int.Notation

/-!
# Bitmaps of the clipboard

A bitmap comes as a header, a palette, masks and rows of pixels, without the header of a file.
`decode_dib` of `linrdp/src/clipboard.rs` reads the pixels, for a PNG; `dib_to_bmp` puts the header
of a file in front. The first is right for all bytes (`decodeDib_right`). The second compares an
offset in the file with the length of the bitmap, and refuses what has fewer than 14 bytes of
pixels (`bmp_agrees_iff`).
-/

namespace Linrdp.Clipboard.Dib

open List Lib.Bytes Lib.Panics

section code

variable (dib : List UInt8)

/-- The number of `w` bytes at `offset`. -/
def field (w offset : ℕ) : ℕ := ofLe ((dib.drop offset).take w)

/-- `read_u16` and `read_u32`, of two and four bytes. -/
def read (w offset : ℕ) : Decoded ℕ :=
  if offset + w ≤ dib.length then .ok (field dib w offset) else .error .none

/-- `as i32`, of a number of 32 bits -/
def asI32 (n : ℕ) : ℤ := if n < 2 ^ 31 then n else n - 2 ^ 32

/-- The entries of the palette, which both functions count in the same way. -/
def palette (clrUsed bpp : ℕ) : ℕ :=
  if 0 < clrUsed then clrUsed else if bpp ≤ 8 then 1 <<< bpp else 0

/-- The bytes of the masks behind a header of the old size. -/
def masksLen (compression headerSize : ℕ) : ℕ := if compression = 3 ∧ headerSize = 40 then 12 else 0

def dibToBmp : Decoded (List UInt8) := do
  require (40 ≤ dib.length)
  let headerSize ← read dib 4 0
  require (40 ≤ headerSize ∧ headerSize ≤ dib.length)
  let bpp ← read dib 2 14
  let compression ← read dib 4 16
  let clrUsed ← read dib 4 32
  let offset ← checked (14 + headerSize)
  let offset ← checked (offset + (← checked (palette clrUsed bpp * 4)))
  let offset ← checked (offset + masksLen compression headerSize)
  require (offset ≤ dib.length)
  let fileLen ← checked (dib.length + 14)
  return [0x42, 0x4D] ++ toLe 4 fileLen ++ toLe 4 0 ++ toLe 4 offset ++ dib

/-- What `decode_dib` knows of the pixels when it comes to them. -/
structure Layout where
  (width height bpp pixelsOff rowBytes : ℕ)
  topDown : Bool
  /-- of red, green and blue -/
  masks : List ℕ

def maxDim : ℤ := 16384

def masks (compression : ℕ) : Decoded (List ℕ) :=
  if compression = 3 then [40, 44, 48].mapM (read dib 4)
  else .ok [0x00FF0000, 0x0000FF00, 0x000000FF]

def layout : Decoded Layout := do
  require (40 ≤ dib.length)
  let headerSize ← read dib 4 0
  require (40 ≤ headerSize ∧ headerSize ≤ 124 ∧ headerSize ≤ dib.length)
  let width := asI32 (← read dib 4 4)
  let heightRaw := asI32 (← read dib 4 8)
  let height := asI32 heightRaw.natAbs
  require ((1 ≤ width ∧ width ≤ maxDim) ∧ 1 ≤ height ∧ height ≤ maxDim)
  let bpp ← read dib 2 14
  let compression ← read dib 4 16
  require ((compression, bpp) ∈ [(0, 24), (0, 32), (3, 32)])
  let clrUsed ← read dib 4 32
  let pixelsOff ← checked (headerSize + (← checked (palette clrUsed bpp * 4)))
  let pixelsOff ← checked (pixelsOff + masksLen compression headerSize)
  let masks ← masks dib compression
  require (0 ∉ masks)
  let rowBytes ← plain (((← plain (bpp * width.toNat)) + 31) / 32 * 4)
  let needed ← checked (pixelsOff + (← checked (rowBytes * height.toNat)))
  require (needed ≤ dib.length)
  return ⟨width.toNat, height.toNat, bpp, pixelsOff, rowBytes, decide (heightRaw < 0), masks⟩

/-- `trailing_zeros` of a number of `w` bits -/
def trailingZeros : ℕ → ℕ → ℕ
  | 0, _ => 0
  | w + 1, n => if n % 2 = 0 then trailingZeros w (n / 2) + 1 else 0

/-- `count_ones` of a number of `w` bits -/
def countOnes : ℕ → ℕ → ℕ
  | 0, _ => 0
  | w + 1, n => countOnes w (n / 2) + n % 2

def scaleChannel (raw mask : ℕ) : Decoded UInt8 :=
  let shift := trailingZeros 32 mask
  let bits := min (countOnes 32 mask) 32
  if bits = 0 then .ok 0
  else
    -- the mask has a one, so the shift is below 32
    let value := (raw &&& mask) >>> shift
    let max := 2 ^ bits - 1
    if 8 ≤ bits then do return .ofNat (min ((← plain (value * 255)) / max) 255)
    else do return .ofNat (min ((← plain ((← plain (value * 255)) + max / 2)) / max) 255)

def srcRow (l : Layout) (row : ℕ) : Decoded ℕ :=
  if l.topDown then .ok row else do minus (← minus l.height 1) row

/-- The body of the two loops. -/
def pixel (l : Layout) (row x : ℕ) : Decoded (List UInt8) := do
  let rowStart ← plain (l.pixelsOff + (← plain ((← srcRow l row) * l.rowBytes)))
  let start ← plain (rowStart + (← plain (x * (l.bpp / 8))))
  let px ← slice dib start (start + l.bpp / 8)
  let bytes ← (if l.bpp = 24 then [0, 1, 2] else [0, 1, 2, 3]).mapM (index px)
  l.masks.mapM (scaleChannel (ofLe bytes))

def decodeDib : Decoded (ℕ × ℕ × List UInt8) := do
  let l ← layout dib
  let _ ← plain ((← plain (l.width * l.height)) * 3)
  let rows ← (range l.height).mapM fun row => (range l.width).mapM (pixel dib l row)
  return (l.width, l.height, rows.flatten.flatten)

end code

/-! ### What a bitmap shows -/

section picture

variable (dib : List UInt8)

/-- Where the pixels begin. -/
def pixelsStart : ℕ :=
  field dib 4 0 + palette (field dib 4 32) (field dib 2 14) * 4 +
    masksLen (field dib 4 16) (field dib 4 0)

/-- The masks of red, green and blue. -/
def colours : List ℕ :=
  if field dib 4 16 = 3 then [40, 44, 48].map (field dib 4)
  else [0x00FF0000, 0x0000FF00, 0x000000FF]

def rowLen (w : ℕ) : ℕ := (field dib 2 14 * w + 31) / 32 * 4

/-- The pixel at column `x` of a row, in the order in which they are stored. -/
def stored (w row x : ℕ) : ℕ :=
  let size := field dib 2 14 / 8
  field dib size (pixelsStart dib + row * rowLen dib w + x * size)

/-- A value of as many bits as the mask has, as one of eight: rounded if there are fewer. -/
def scaled (raw mask : ℕ) : UInt8 :=
  let value := (raw &&& mask) >>> trailingZeros 32 mask
  let bits := countOnes 32 mask
  let max := 2 ^ bits - 1
  .ofNat (min ((if 8 ≤ bits then value * 255 else value * 255 + max / 2) / max) 255)

/-- The rows from the top. A negative height says that they are stored in this order. -/
def picture (w h : ℕ) : List UInt8 :=
  (range h).flatMap fun y => (range w).flatMap fun x =>
    let row := if asI32 (field dib 4 8) < 0 then y else h - 1 - y
    (colours dib).map (scaled (stored dib w row x))

structure Shows (w h : ℕ) (rgb : List UInt8) : Prop where
  width : w = asI32 (field dib 4 4)
  height : h = (asI32 (field dib 4 8)).natAbs
  length : rgb.length = 3 * w * h
  pixels : rgb = picture dib w h
  zero : ∀ mask ∈ colours dib, ∀ raw, raw &&& mask = 0 → scaled raw mask = 0
  full : ∀ mask ∈ colours dib, ∀ raw, raw &&& mask = mask → scaled raw mask = 255

end picture

/-! ### Channels -/

theorem countOnes_le (w n : ℕ) : countOnes w n ≤ w := by
  induction w generalizing n with
  | zero => rfl
  | succ w ih =>
    have := ih (n / 2)
    rw [countOnes]
    omega

theorem pow_countOnes_le (w n : ℕ) : 2 ^ countOnes w n ≤ n + 1 := by
  induction w generalizing n with
  | zero => simp [countOnes]
  | succ w ih =>
    have hhalf := ih (n / 2)
    rcases Nat.mod_two_eq_zero_or_one n with hn | hn
    · rw [countOnes, hn, Nat.add_zero]
      omega
    · rw [countOnes, hn, pow_succ]
      omega

/-- A number without its trailing zeros has as many ones, so it is not below the number of that
many ones. -/
theorem pow_countOnes_le_shift (w n : ℕ) :
    2 ^ countOnes w n ≤ (n >>> trailingZeros w n) + 1 := by
  induction w generalizing n with
  | zero => simp [countOnes]
  | succ w ih =>
    by_cases hn : n % 2 = 0
    · rw [countOnes, trailingZeros, if_pos hn, hn, Nat.add_comm (trailingZeros w _),
        Nat.shiftRight_add]
      exact ih (n / 2)
    · rw [trailingZeros, if_neg hn]
      exact pow_countOnes_le (w + 1) n

theorem countOnes_pos {w n : ℕ} (hlt : n < 2 ^ w) (h : n ≠ 0) : 0 < countOnes w n := by
  induction w generalizing n with
  | zero => omega
  | succ w ih =>
    rw [countOnes]
    rcases eq_or_ne (n / 2) 0 with hhalf | hhalf
    · omega
    · have := ih (by omega) hhalf
      omega

theorem scaled_zero {raw mask : ℕ} (h : raw &&& mask = 0) : scaled raw mask = 0 := by
  have hround (max : ℕ) : (0 * 255 + max / 2) / max = 0 := by
    rcases max.eq_zero_or_pos with rfl | hpos
    · rfl
    · exact Nat.div_eq_of_lt (by omega)
  unfold scaled
  rw [h, Nat.zero_shiftRight]
  dsimp only
  split_ifs
  · simp
  · rw [hround]
    rfl

theorem scaled_full {raw mask : ℕ} (hlt : mask < 2 ^ 32) (hne : mask ≠ 0)
    (h : raw &&& mask = mask) : scaled raw mask = 255 := by
  have hle := pow_countOnes_le_shift 32 mask
  have hpow : 2 ≤ 2 ^ countOnes 32 mask := Nat.le_self_pow (countOnes_pos hlt hne).ne' 2
  unfold scaled
  rw [h]
  dsimp only
  generalize mask >>> trailingZeros 32 mask = value at hle ⊢
  rw [Nat.min_eq_right]
  · rfl
  · rw [Nat.le_div_iff_mul_le (by omega)]
    split_ifs <;> omega

theorem ends_scaleChannel {raw : ℕ} (hraw : raw < 2 ^ 32) (mask : ℕ) :
    Ends (scaleChannel raw mask) (· = scaled raw mask) := by
  have hbits := countOnes_le 32 mask
  have hmax : 2 ^ countOnes 32 mask ≤ 2 ^ 32 := Nat.pow_le_pow_right (by decide) hbits
  have hvalue : (raw &&& mask) >>> trailingZeros 32 mask ≤ raw :=
    Nat.le_trans (Nat.shiftRight_le ..) Nat.and_le_left
  unfold scaleChannel scaled
  dsimp only
  rw [Nat.min_eq_left hbits]
  generalize (raw &&& mask) >>> trailingZeros 32 mask = value at hvalue ⊢
  generalize countOnes 32 mask = bits at hmax ⊢
  by_cases hnone : bits = 0
  · simp [hnone, Ends]
  rw [if_neg hnone]
  split_ifs with hwide
  · exact bind_plain (by omega) rfl
  · exact bind_plain (by omega) (bind_plain (by omega) rfl)

/-! ### The pixels -/

section

variable {dib : List UInt8}

theorem ofLe_lt (bs : List UInt8) : ofLe bs < 256 ^ bs.length := by
  induction bs with
  | nil => decide
  | cons b bs ih =>
    have := b.toNat_lt
    rw [ofLe, length_cons, pow_succ]
    omega

theorem field_lt (w offset : ℕ) : field dib w offset < 256 ^ w :=
  Nat.lt_of_lt_of_le (ofLe_lt _) (Nat.pow_le_pow_right (by decide) (length_take_le ..))

theorem bind_read {α : Type} {f : ℕ → Decoded α} {P : α → Prop} {w offset : ℕ}
    (h : Ends (f (field dib w offset)) P) : Ends (read dib w offset >>= f) P := by
  unfold read
  split_ifs
  · exact h
  · rfl

theorem asI32_natAbs {n : ℕ} (hn : n < 2 ^ 32) (h : 1 ≤ asI32 (asI32 n).natAbs) :
    asI32 (asI32 n).natAbs = (asI32 n).natAbs := by
  unfold asI32 at h ⊢
  split_ifs at h ⊢ <;> omega

/-- The layout of an accepted bitmap. -/
structure Layout.Of (dib : List UInt8) (l : Layout) : Prop where
  header : 40 ≤ dib.length ∧ 40 ≤ field dib 4 0 ∧ field dib 4 0 ≤ dib.length
  width : l.width = asI32 (field dib 4 4) ∧ l.width ≤ 16384
  height : l.height = (asI32 (field dib 4 8)).natAbs ∧ l.height ≤ 16384
  bpp : l.bpp = field dib 2 14 ∧ (l.bpp = 24 ∨ l.bpp = 32)
  pixelsOff : l.pixelsOff = pixelsStart dib
  rowBytes : l.rowBytes = rowLen dib l.width
  topDown : l.topDown = decide (asI32 (field dib 4 8) < 0)
  masks : l.masks = colours dib ∧ 0 ∉ colours dib
  fits : l.pixelsOff + l.rowBytes * l.height ≤ dib.length
  small : l.pixelsOff + l.rowBytes * l.height < 2 ^ 64

theorem ends_masks : Ends (masks dib (field dib 4 16)) (· = colours dib) := by
  unfold masks colours
  split_ifs
  · refine ends_mapM fun offset _ => ?_
    unfold read
    split_ifs
    · rfl
    · rfl
  · rfl

theorem ends_layout : Ends (layout dib) (Layout.Of dib) := by
  unfold layout
  refine bind_require fun hlong => bind_read <| bind_require fun hheader => ?_
  refine bind_read <| bind_read <| bind_require fun ⟨hwidth, hheight⟩ => ?_
  have habs := asI32_natAbs (field_lt 4 8) hheight.1
  rw [habs] at hheight
  rw [habs, Int.toNat_natCast]
  refine bind_read <| bind_read <| bind_require fun hformat => bind_read ?_
  refine bind_checked fun _ => bind_checked fun _ => bind_checked fun _ => ?_
  refine ends_bind ends_masks ?_
  rintro _ rfl
  have hbpp : field dib 2 14 = 24 ∨ field dib 2 14 = 32 := by
    simp only [mem_cons, Prod.mk.injEq, not_mem_nil, or_false] at hformat
    omega
  simp only [maxDim] at hwidth hheight
  refine bind_require fun hmasks => ?_
  have hrow : field dib 2 14 * (asI32 (field dib 4 4)).toNat ≤ 32 * 16384 :=
    Nat.mul_le_mul (by omega) (by omega)
  refine bind_plain (by omega) <| bind_plain (by omega) ?_
  refine bind_checked fun _ => bind_checked fun hsmall => bind_require fun hfits => ?_
  exact ⟨⟨hlong, hheader.1, hheader.2.2⟩, by dsimp only; omega, by dsimp only; omega, ⟨rfl, hbpp⟩,
    rfl, rfl, rfl, ⟨rfl, hmasks⟩, hfits, hsmall⟩

theorem ends_indices {px : List UInt8} {n : ℕ} (h : px.length = n) :
    Ends ((range n).mapM (index px)) (· = px) := by
  have hall := ends_mapM (l := range n) fun i hi => ends_index (h.symm ▸ mem_range.1 hi) (0 : UInt8)
  have hsame : (range n).map (px.getD · 0) = px :=
    ext_getElem (by simp [h]) fun i _ hi => by simp [hi]
  rwa [hsame] at hall

theorem ends_srcRow {l : Layout} {row : ℕ} (hrow : row < l.height) :
    Ends (srcRow l row) (· = if l.topDown then row else l.height - 1 - row) := by
  unfold srcRow
  split_ifs
  · rfl
  · refine bind_minus (by omega) ?_
    rw [minus, if_pos (by omega)]
    rfl

theorem ends_pixel {l : Layout} (h : l.Of dib) {row x : ℕ} (hrow : row < l.height)
    (hx : x < l.width) :
    Ends (pixel dib l row x) (· = (colours dib).map
      (scaled (stored dib l.width (if l.topDown then row else l.height - 1 - row) x))) := by
  unfold pixel
  refine ends_bind (ends_srcRow hrow) ?_
  rintro _ rfl
  have hlt : (if l.topDown then row else l.height - 1 - row) < l.height := by split_ifs <;> omega
  generalize (if l.topDown then row else l.height - 1 - row) = src at hlt ⊢
  obtain ⟨hbpp, hdepth⟩ := h.bpp
  -- the last byte of the pixel is one of its row, and the row is one of the bitmap
  have hcolumn : x * (l.bpp / 8) + l.bpp / 8 ≤ l.rowBytes := by
    rw [h.rowBytes, rowLen, ← hbpp]
    rcases hdepth with hdepth | hdepth <;> rw [hdepth] <;> omega
  have hrows : src * l.rowBytes + l.rowBytes ≤ l.rowBytes * l.height := by
    rw [← Nat.succ_mul, Nat.mul_comm]
    exact Nat.mul_le_mul_left _ hlt
  have hfits := h.fits
  have hsmall := h.small
  refine bind_plain (by omega) <| bind_plain (by omega) <| bind_plain (by omega) <|
    bind_plain (by omega) <| bind_slice (by omega) (by omega) ?_
  have hindices : (if l.bpp = 24 then [0, 1, 2] else [0, 1, 2, 3]) = range (l.bpp / 8) := by
    rcases hdepth with hdepth | hdepth <;> rw [hdepth] <;> rfl
  have hstored : stored dib l.width src x = ofLe ((dib.drop
      (l.pixelsOff + src * l.rowBytes + x * (l.bpp / 8))).take (l.bpp / 8)) := by
    rw [stored, h.pixelsOff, h.rowBytes, hbpp, field]
  rw [drop_take, Nat.add_sub_cancel_left, hindices, hstored, h.masks.1]
  refine ends_bind (ends_indices (by rw [length_take, length_drop]; omega)) ?_
  rintro _ rfl
  refine ends_mapM fun mask _ => ends_scaleChannel ?_ mask
  exact Nat.lt_of_lt_of_le (field_lt _ _)
    (Nat.pow_le_pow_right (by decide) (by omega) : _ ≤ 256 ^ 4)

theorem length_colours : (colours dib).length = 3 := by
  unfold colours
  split_ifs <;> rfl

theorem lt_of_mem_colours {mask : ℕ} (h : mask ∈ colours dib) : mask < 2 ^ 32 := by
  unfold colours at h
  split_ifs at h
  · obtain ⟨offset, -, rfl⟩ := mem_map.1 h
    exact field_lt 4 offset
  · revert mask
    decide

theorem ends_decodeDib :
    Ends (decodeDib dib) fun r => (∃ l : Layout, l.Of dib) ∧ Shows dib r.1 r.2.1 r.2.2 := by
  unfold decodeDib
  refine ends_bind ends_layout fun l h => ?_
  have harea : l.width * l.height ≤ 16384 * 16384 := Nat.mul_le_mul h.width.2 h.height.2
  refine bind_plain (by omega) <| bind_plain (by omega) ?_
  refine ends_bind (ends_mapM fun row hrow => ends_mapM fun x hx =>
    ends_pixel h (mem_range.1 hrow) (mem_range.1 hx)) ?_
  rintro _ rfl
  refine ⟨⟨l, h⟩, h.width.1, h.height.1, ?_, ?_, fun _ _ _ => scaled_zero, fun mask hmask _ =>
    scaled_full (lt_of_mem_colours hmask) fun hzero => h.masks.2 (hzero ▸ hmask)⟩
  · simp [flatten_flatten, Function.comp_def, length_flatten, length_colours, Nat.mul_comm,
      Nat.mul_left_comm]
  · simp only [picture, h.topDown, decide_eq_true_eq, flatten_flatten, map_map, flatMap_def,
      Function.comp_def]

end

/-- **A bitmap is decoded without a panic, and right**: three bytes for each pixel, by the masks,
from the top row on. -/
theorem decodeDib_right (dib : List UInt8) :
    decodeDib dib ≠ .error .panic ∧
      ∀ w h rgb, decodeDib dib = .ok (w, h, rgb) → Shows dib w h rgb :=
  ⟨ends_decodeDib.ne_panic, fun _ _ _ hdecode => (ends_decodeDib.ok hdecode).2⟩

/-! ### The file -/

section file

variable {dib : List UInt8}

/-- The file of a bitmap. -/
def fileOf (dib : List UInt8) : List UInt8 :=
  [0x42, 0x4D] ++ toLe 4 (dib.length + 14) ++ toLe 4 0 ++ toLe 4 (pixelsStart dib + 14) ++ dib

theorem offset_eq (dib : List UInt8) :
    14 + field dib 4 0 + palette (field dib 4 32) (field dib 2 14) * 4 +
      masksLen (field dib 4 16) (field dib 4 0) = pixelsStart dib + 14 := by
  rw [pixelsStart]
  omega

theorem ends_dibToBmp :
    Ends (dibToBmp dib) fun bmp => pixelsStart dib + 14 ≤ dib.length ∧ bmp = fileOf dib := by
  unfold dibToBmp
  refine bind_require fun _ => bind_read <| bind_require fun _ => ?_
  refine bind_read <| bind_read <| bind_read ?_
  refine bind_checked fun _ => bind_checked fun _ => bind_checked fun _ => bind_checked fun _ => ?_
  refine bind_require fun hoffset => bind_checked fun _ => ?_
  rw [offset_eq] at hoffset ⊢
  exact ⟨hoffset, rfl⟩

theorem field_fileOf : field (fileOf dib) 4 10 = (pixelsStart dib + 14) % 2 ^ 32 := by
  have hdrop : (fileOf dib).drop 10 = toLe 4 (pixelsStart dib + 14) ++ dib :=
    @drop_left' _ ([0x42, 0x4D] ++ toLe 4 (dib.length + 14) ++ toLe 4 0) _ 10 (by simp)
  rw [field, hdrop, take_left' (length_toLe ..), ofLe_toLe_mod]
  rfl

theorem dibToBmp_eq {l : Layout} (h : l.Of dib) (hlen : dib.length < 2 ^ 63)
    (hoffset : pixelsStart dib + 14 ≤ dib.length) : dibToBmp dib = .ok (fileOf dib) := by
  obtain ⟨hlong, hheader⟩ := h.header
  have hsum := offset_eq dib
  simp (disch := omega) only [dibToBmp, require, read, checked, if_pos, bind, Except.bind]
  rw [hsum]
  rfl

end file

/-- **The file of a bitmap that is decoded** has its pixels where they are decoded from, exactly if
14 bytes or more follow the tables and the offset fits its field. -/
theorem bmp_agrees_iff {dib : List UInt8} (hlen : dib.length < 2 ^ 63) {w h : ℕ} {rgb : List UInt8}
    (hdib : decodeDib dib = .ok (w, h, rgb)) :
    (∃ bmp, dibToBmp dib = .ok bmp ∧ field bmp 4 10 = pixelsStart dib + 14 ∧
      pixelsStart dib + 14 ≤ bmp.length) ↔
      pixelsStart dib + 14 ≤ dib.length ∧ pixelsStart dib + 14 < 2 ^ 32 := by
  obtain ⟨⟨l, hl⟩, -⟩ := ends_decodeDib.ok hdib
  constructor
  · rintro ⟨bmp, hbmp, hfield, -⟩
    obtain ⟨hoffset, rfl⟩ := ends_dibToBmp.ok hbmp
    rw [field_fileOf] at hfield
    exact ⟨hoffset, hfield ▸ Nat.mod_lt _ (by decide)⟩
  · rintro ⟨hoffset, hsmall⟩
    refine ⟨fileOf dib, dibToBmp_eq hl hlen hoffset, ?_, ?_⟩
    · rw [field_fileOf, Nat.mod_eq_of_lt hsmall]
    · simp only [fileOf, length_append]
      omega

/-- A bitmap of 24 bits for each pixel. -/
def bitmap (width height : ℕ) (pixels : List UInt8) : List UInt8 :=
  toLe 4 40 ++ toLe 4 width ++ toLe 4 height ++ toLe 2 1 ++ toLe 2 24 ++ replicate 24 0 ++ pixels

theorem bmp_agrees_iff_square : ∃ bmp, dibToBmp (bitmap 2 2 (replicate 16 7)) = .ok bmp ∧
    field bmp 4 10 = 54 ∧ 54 ≤ bmp.length :=
  (bmp_agrees_iff (by decide +kernel) (by decide +kernel :
    decodeDib (bitmap 2 2 (replicate 16 7)) = .ok (2, 2, replicate 12 7))).2 (by decide +kernel)

/-- **One pixel** is decoded, and is refused for a file. -/
theorem one_pixel_refused : decodeDib (bitmap 1 1 [1, 2, 3, 0]) = .ok (1, 1, [3, 2, 1]) ∧
    dibToBmp (bitmap 1 1 [1, 2, 3, 0]) = .error .none := by decide +kernel

end Linrdp.Clipboard.Dib
