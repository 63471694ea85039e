import Linrdp.Capture.TileDamage
import Linrdp.Lib.Loops

/-!
# The loops of the tile comparison

`compute_tile_damage` with its two 16-bit counters, which wrap as in a release build, and fuel for
its turns. It agrees with the walk of `TileDamage` as long as neither counter wraps
(`computeTileDamage16_eq`); in a wider or higher frame the loop never ends
(`computeTileDamage16_spent`). The box is then the smallest one around the tiles that differ;
`tight_iff` says for which frames.
-/

namespace Linrdp.Capture.TileDamage

open Option List Lib.Rects Lib.Loops Nat Rect

/-! ### The counters -/

variable (prev cur : Bytes)

def tileBody (width height y x : ℕ) (c : Changed) : Option (Option Changed) :=
  some (visit prev cur (width * 4) c ⟨x, y, min tile (width - x), min tile (height - y)⟩)

def tileRow (width height fuel y : ℕ) (c : Changed) : Option (Option Changed) :=
  whileBelow tile 65536 width (tileBody prev cur width height y) fuel 0 c

def tileLoop (width height fuel : ℕ) (c : Changed) : Option (Option Changed) :=
  whileBelow tile 65536 height (tileRow prev cur width height fuel) fuel 0 c

/-- `(edge + TILE - 1) / TILE` in 16 bits. -/
def tilesAcross16 (edge : ℕ) : ℕ := ((edge + tile) % 65536 + 65535) % 65536 / tile

/-- None is spent fuel, and the none inside it a panic. -/
def computeTileDamage16 (fuel : ℕ) (prev cur : Bytes) (width height : ℕ) :
    Option (Option (Option Rect × ℕ × ℕ)) :=
  (tileLoop prev cur width height fuel .none).map fun c? => c?.map fun c =>
    (c.box, c.count, tilesAcross16 width * tilesAcross16 height)

/-- The widest and highest frame whose tiles a 16-bit counter can pass. -/
def maxEdge : ℕ := 65536 - tile

section loops

variable {prev cur : Bytes} {width height fuel : ℕ}

theorem tilesAcross_spec (edge : ℕ) :
    edge ≤ tilesAcross edge * tile ∧ ∀ k < tilesAcross edge, k * tile < edge := by
  refine ⟨?_, fun k hk => lt_of_lt_tilesAcross hk⟩
  simp only [tilesAcross, tile]
  omega

theorem tilesAcross_le {edge : ℕ} (h : edge ≤ maxEdge) : tilesAcross edge * tile < 65536 ∧
    tilesAcross16 edge = tilesAcross edge ∧ tilesAcross edge < 1024 := by
  simp only [tilesAcross16, tilesAcross, maxEdge, tile] at h ⊢
  omega

theorem tileRow_eq (hw : width ≤ maxEdge) (hfuel : 1024 ≤ fuel) (j : ℕ) (c : Changed) :
    tileRow prev cur width height fuel (j * tile) c =
      some (((List.range (tilesAcross width)).map fun i => tileAt width height i j).foldlM
        (visit prev cur (width * 4)) c) := by
  obtain ⟨hlast, hbelow⟩ := tilesAcross_spec width
  obtain ⟨hlt, -, hcount⟩ := tilesAcross_le hw
  rw [tileRow, whileBelow_range hlast hbelow hlt
    (fun c i => visit prev cur (width * 4) c (tileAt width height i j)) (fun _ _ _ => rfl)
      (by omega) c,
    foldlM_map]

section

variable (hw : width ≤ maxEdge) (hh : height ≤ maxEdge) (hfuel : 1024 ≤ fuel)
include hw hh hfuel

theorem tileLoop_eq (c : Changed) :
    tileLoop prev cur width height fuel c =
      some ((tiles width height).foldlM (visit prev cur (width * 4)) c) := by
  obtain ⟨hlast, hbelow⟩ := tilesAcross_spec height
  obtain ⟨hlt, -, hcount⟩ := tilesAcross_le hh
  rw [tileLoop, whileBelow_range hlast hbelow hlt
    (fun c j => ((List.range (tilesAcross width)).map fun i => tileAt width height i j).foldlM
      (visit prev cur (width * 4)) c) (fun j _ c => tileRow_eq hw hfuel j c) (by omega) c, tiles]
  congr 1
  generalize List.range (tilesAcross height) = rows
  induction rows generalizing c with
  | nil => rfl
  | cons j rows ih =>
    rw [foldlM_cons, flatMap_cons, foldlM_append]
    congr 1
    funext c'
    exact ih c'

/-- **The counters visit the tiles** of a frame whose edges they can pass. -/
theorem computeTileDamage16_eq :
    computeTileDamage16 fuel prev cur width height =
      some (computeTileDamage (some prev) cur width height) := by
  rw [computeTileDamage16, tileLoop_eq hw hh hfuel, computeTileDamage, (tilesAcross_le hw).2.1,
    (tilesAcross_le hh).2.1]
  cases (tiles width height).foldlM (visit prev cur (width * 4)) Changed.none <;> rfl

end

section

variable (hprev : prev.length = width * 4 * height) (hcur : cur.length = width * 4 * height)
include hprev hcur

theorem visit_isSome {r : Rect} (hr : r.Inside width height) (c : Changed) :
    ∃ c', visit prev cur (width * 4) c r = some c' := by
  obtain ⟨b, hb⟩ := tileEqSamePos_isSome hprev hcur hr
  rw [visit, hb]
  cases b
  all_goals exact ⟨_, rfl⟩

theorem tileBody_ne_stopped {y : ℕ} (hy : y < height) (x : ℕ) (c : Changed)
    (hx : x < width) : tileBody prev cur width height y x c ≠ some none := by
  have hinside : Rect.Inside ⟨x, y, min tile (width - x), min tile (height - y)⟩ width height := by
    simp only [Rect.Inside]
    omega
  obtain ⟨c', hc'⟩ := visit_isSome hprev hcur hinside c
  simp [tileBody, hc']

/-- **In a frame whose edge the counter cannot pass the loop never ends.** -/
theorem computeTileDamage16_spent (hpos : 0 < height)
    (hedge : maxEdge < width ∨ maxEdge < height) (fuel : ℕ) :
    computeTileDamage16 fuel prev cur width height = none := by
  have hdvd : tile ∣ 65536 := by decide
  have hspent : tileLoop prev cur width height fuel .none = none := by
    by_cases hwide : maxEdge < width
    · have hrow : ∀ c, tileRow prev cur width height fuel 0 c = none := fun c =>
        whileBelow_spent hdvd (by simp only [maxEdge, tile] at hwide ⊢; omega)
          (fun x c hx => tileBody_ne_stopped hprev hcur hpos x c hx) fuel (Nat.dvd_zero tile)
            (by decide) c
      unfold tileLoop
      rcases fuel with _ | fuel
      · rfl
      · rw [whileBelow, if_pos hpos, hrow]
    · refine whileBelow_spent hdvd ?_ (fun y c hy => ?_) fuel (Nat.dvd_zero tile)
        (by decide) Changed.none
      · have hhigh := hedge.resolve_left hwide
        simp only [maxEdge, tile] at hhigh ⊢
        omega
      · exact whileBelow_ne_stopped (fun x c hx => tileBody_ne_stopped hprev hcur hy x c hx) fuel 0
          c
  rw [computeTileDamage16, hspent]
  rfl

end

end loops

/-! ### Bytes and pixels -/

def pixelOf (width i : ℕ) : Pixel := (i / 4 % width, i / 4 / width)

section pixels

variable {prev cur : Bytes} {width height : ℕ}

theorem getElem?_of_slice {xs a : Bytes} {start len k : ℕ} (h : slice xs start len = some a)
    (hk : k < len) : a[k]? = xs[start + k]? := by
  unfold slice at h
  split_ifs at h with hlen
  rw [← some.inj h, getElem?_take_of_lt hk, getElem?_drop]

theorem slice_congr {start len : ℕ} (hlen : prev.length = cur.length)
    (h : ∀ k < len, prev[start + k]? = cur[start + k]?) :
    slice prev start len = slice cur start len := by
  by_cases hin : start + len ≤ prev.length
  · rw [slice_isSome hin, slice_isSome (hlen ▸ hin)]
    congr 1
    refine ext_getElem? fun k => ?_
    by_cases hk : k < len
    · rw [getElem?_take_of_lt hk, getElem?_take_of_lt hk, getElem?_drop, getElem?_drop, h k hk]
    · rw [getElem?_eq_none (by rw [length_take]; omega),
        getElem?_eq_none (by rw [length_take]; omega)]
  · rw [slice, slice, if_neg hin, if_neg (hlen ▸ hin)]

theorem pixelOf_mem {i : ℕ} (hi : i < width * 4 * height) :
    pixelOf width i ∈ full width height := by
  have hwidth : 0 < width := by
    rcases Nat.eq_zero_or_pos width with rfl | h
    · simp at hi
    · exact h
  rw [mem_full]
  refine ⟨Nat.mod_lt _ hwidth, Nat.div_lt_of_lt_mul ?_⟩
  have hmul : width * 4 * height = 4 * (width * height) := by
    rw [Nat.mul_comm width 4, Nat.mul_assoc]
  omega

theorem offset_pixelOf (width i : ℕ) :
    (pixelOf width i).2 * (width * 4) + (pixelOf width i).1 * 4 = i / 4 * 4 := by
  have hdiv := div_add_mod (i / 4) width
  calc (pixelOf width i).2 * (width * 4) + (pixelOf width i).1 * 4
      = (width * (i / 4 / width) + i / 4 % width) * 4 := by
        simp only [pixelOf]
        rw [add_mul, mul_comm width (i / 4 / width), mul_assoc]
    _ = i / 4 * 4 := by rw [hdiv]

theorem getElem?_of_pixelAt {i : ℕ} (hi : i < width * 4 * height)
    (hprev : prev.length = width * 4 * height)
    (h : pixelAt prev width (pixelOf width i) = pixelAt cur width (pixelOf width i)) :
    prev[i]? = cur[i]? := by
  have hplace : i = i / 4 * 4 + i % 4 := by omega
  have hin : i / 4 * 4 + 4 ≤ prev.length := by
    have hmul : width * 4 * height = 4 * (width * height) := by rw [mul_comm width 4, mul_assoc]
    omega
  rw [pixelAt, pixelAt, offset_pixelOf, slice_isSome hin] at h
  have hprevByte := getElem?_of_slice (slice_isSome hin) (show i % 4 < 4 by omega)
  have hcurByte := getElem?_of_slice h.symm (show i % 4 < 4 by omega)
  rw [hplace, ← hprevByte, ← hcurByte]

def Differs (prev cur : Bytes) (width : ℕ) (t : Rect) : Prop :=
  ∃ p ∈ t, pixelAt prev width p ≠ pixelAt cur width p

theorem tileEqRows_of_eq {stride x w : ℕ} {rows : List ℕ}
    (hin : ∀ row ∈ rows, row * stride + x * 4 + w * 4 ≤ prev.length)
    (h : ∀ row ∈ rows, slice prev (row * stride + x * 4) (w * 4) =
      slice cur (row * stride + x * 4) (w * 4)) :
    tileEqRows prev cur stride x w rows = some true := by
  induction rows with
  | nil => rfl
  | cons row rows ih =>
    rw [tileEqRows, ← h row mem_cons_self, slice_isSome (hin row mem_cons_self)]
    simp only [bind_eq_bind, bind_some, if_true]
    exact ih (fun r hr => hin r (mem_cons_of_mem row hr))
      fun r hr => h r (mem_cons_of_mem row hr)

/-- **What the comparison of a tile says.** -/
theorem tileEqSamePos_eq (hprev : prev.length = width * 4 * height)
    (hcur : cur.length = width * 4 * height) {t : Rect} (ht : t ∈ tiles width height) :
    (tileEqSamePos prev cur (width * 4) t = some false ∧ Differs prev cur width t) ∨
      (tileEqSamePos prev cur (width * 4) t = some true ∧ ¬ Differs prev cur width t) := by
  have hin := rows_in_range hprev (tile_inside ht)
  by_cases hdiffers : Differs prev cur width t
  · left
    obtain ⟨b, hb⟩ := tileEqSamePos_isSome hprev hcur (tile_inside ht)
    obtain ⟨p, hp, hne⟩ := hdiffers
    cases b with
    | false => exact ⟨hb, p, hp, hne⟩
    | true => exact absurd (pixelAt_eq_of_tileEq hb hp) hne
  · right
    refine ⟨tileEqRows_of_eq hin fun row hrow => ?_, hdiffers⟩
    refine slice_congr (hprev.trans hcur.symm) fun k hk => ?_
    rw [mem_range'_1] at hrow
    -- the byte at `k` is in the pixel `k / 4` columns into the tile
    have hpixel : pixelAt prev width (t.x + k / 4, row) = pixelAt cur width (t.x + k / 4, row) := by
      by_contra hne
      exact hdiffers ⟨_, mem_iff.2 (by omega), hne⟩
    have hbyte : row * (width * 4) + t.x * 4 + k =
        row * (width * 4) + (t.x + k / 4) * 4 + k % 4 := by omega
    have hpin : row * (width * 4) + (t.x + k / 4) * 4 + 4 ≤ prev.length := by
      have hrowIn := hin row (mem_range'_1.2 hrow)
      omega
    rw [pixelAt, pixelAt, slice_isSome hpin] at hpixel
    rw [hbyte, ← getElem?_of_slice (slice_isSome hpin) (show k % 4 < 4 by omega),
      ← getElem?_of_slice hpixel.symm (show k % 4 < 4 by omega)]

end pixels

/-! ### The box and the count -/

section

variable {prev cur : Bytes} {width height : ℕ}

open Classical in
noncomputable def changedTiles (prev cur : Bytes) (width height : ℕ) : List Rect :=
  (tiles width height).filter fun t => Differs prev cur width t

theorem mem_changedTiles {t : Rect} :
    t ∈ changedTiles prev cur width height ↔ t ∈ tiles width height ∧ Differs prev cur width t := by
  classical
  simp [changedTiles]

theorem foldlM_visit_eq (hprev : prev.length = width * 4 * height)
    (hcur : cur.length = width * 4 * height) :
    (tiles width height).foldlM (visit prev cur (width * 4)) Changed.none =
      some ((changedTiles prev cur width height).foldl Changed.add Changed.none) := by
  classical
  have hall := fun t (ht : t ∈ tiles width height) => tileEqSamePos_eq hprev hcur ht
  unfold changedTiles
  generalize tiles width height = rs at hall ⊢
  generalize Changed.none = c
  induction rs generalizing c with
  | nil => rfl
  | cons t rs ih =>
    have hrest := fun t' ht' => hall t' (mem_cons_of_mem t ht')
    rw [foldlM_cons, visit]
    rcases hall t mem_cons_self with ⟨heq, hdiffers⟩ | ⟨heq, hsame⟩
    · simp only [heq, bind_eq_bind, bind_some, Bool.false_eq_true, if_false,
        filter_cons, hdiffers, decide_true, if_true, foldl_cons]
      exact ih hrest _
    · simp only [heq, bind_eq_bind, bind_some, if_true, filter_cons, hsame,
        decide_false, Bool.false_eq_true, if_false]
      exact ih hrest _

def Changed.In (c : Changed) (b : Rect) : Prop :=
  (b.x ≤ c.minX ∧ c.maxX ≤ b.x + b.w) ∧ b.y ≤ c.minY ∧ c.maxY ≤ b.y + b.h

theorem Changed.in_add_iff {c : Changed} {t b : Rect} (hw : 0 < t.w) (hh : 0 < t.h) :
    (c.add t).In b ↔ c.In b ∧ t.Within b := by
  rw [within_iff hw hh]
  simp only [Changed.In, Changed.add]
  omega

theorem foldl_add_in_iff {D : List Rect} (hD : ∀ t ∈ D, 0 < t.w ∧ 0 < t.h) (c : Changed)
    (b : Rect) : (D.foldl Changed.add c).In b ↔ c.In b ∧ ∀ t ∈ D, t.Within b := by
  induction D generalizing c with
  | nil => simp
  | cons t D ih =>
    obtain ⟨hw, hh⟩ := hD t mem_cons_self
    rw [foldl_cons, ih (fun t' ht' => hD t' (mem_cons_of_mem t ht')),
      Changed.in_add_iff hw hh, forall_mem_cons, and_assoc]

theorem foldl_add_count (D : List Rect) (c : Changed) :
    (D.foldl Changed.add c).count = c.count + D.length := by
  induction D generalizing c with
  | nil => rfl
  | cons t D ih =>
    rw [foldl_cons, ih, length_cons]
    simp only [Changed.add]
    omega

theorem tile_pos {t : Rect} (ht : t ∈ tiles width height) : 0 < t.w ∧ 0 < t.h := by
  obtain ⟨i, j, hi, hj, rfl⟩ := mem_tiles ht
  have hx := lt_of_lt_tilesAcross hi
  have hy := lt_of_lt_tilesAcross hj
  simp only [tileAt, tile] at hx hy ⊢
  omega

theorem Changed.box_of_around {c : Changed} {t : Rect} (h : c.Around t) (hw : 0 < t.w)
    (hh : 0 < t.h) (hx : t.x < 65535) :
    ∃ r, c.box = some r ∧ ∀ b, r.Within b ↔ c.In b := by
  obtain ⟨h1, h2, h3, h4⟩ := h
  refine ⟨_, if_pos (by omega), fun b => ?_⟩
  rw [within_iff (by dsimp only; omega) (by dsimp only; omega)]
  simp only [Changed.In]
  omega

theorem foldl_add_around {D : List Rect} {t : Rect} (ht : t ∈ D) (c : Changed) :
    (D.foldl Changed.add c).Around t := by
  have hkeep : ∀ (D : List Rect) (c : Changed), c.Around t → (D.foldl Changed.add c).Around t := by
    intro D
    induction D with
    | nil => exact fun c h => h
    | cons s D ih => exact fun c h => ih _ (h.add s)
  induction D generalizing c with
  | nil => simp at ht
  | cons s D ih =>
    rcases mem_cons.1 ht with rfl | ht
    · exact hkeep D _ (c.around_add_self t)
    · exact ih ht _

theorem box_smallest {D : List Rect} (hD : ∀ t ∈ D, (0 < t.w ∧ 0 < t.h) ∧ t.x < 65535 ∧ t.y ≤ 65535)
    : ((D.foldl Changed.add Changed.none).box = none ↔ D = []) ∧
      ∀ r, (D.foldl Changed.add Changed.none).box = some r →
        ∀ b : Rect, r.Within b ↔ ∀ t ∈ D, t.Within b := by
  rcases D with _ | ⟨t, D⟩
  · exact ⟨by decide, fun r hr => absurd hr (by simp [Changed.box, Changed.none])⟩
  · obtain ⟨⟨hw, hh⟩, hx, hy⟩ := hD t mem_cons_self
    obtain ⟨r, hr, hin⟩ := Changed.box_of_around
      (foldl_add_around (mem_cons_self : t ∈ t :: D) Changed.none) hw hh hx
    refine ⟨by rw [hr]; simp, fun r' hr' b => ?_⟩
    obtain rfl := some.inj (hr.symm.trans hr')
    rw [hin, foldl_add_in_iff fun t' ht' => (hD t' ht').1]
    refine ⟨fun h => h.2, fun h => ⟨?_, h⟩⟩
    -- the empty running box lies wherever a tile does
    have htile := (within_iff hw hh).1 (h t mem_cons_self)
    simp only [Changed.In, Changed.none]
    omega

end

/-! ### The guarantee -/

def copyBox (width : ℕ) (d : Option Rect) : Bytes :=
  (List.range cur.length).map fun i =>
    if d.any fun r => pixelOf width i ∈ r then cur.getD i 0 else prev.getD i 0

structure Tight (prev cur : Bytes) (width height : ℕ) (d : Option Rect) (n : ℕ) : Prop where
  none_iff : d = none ↔ prev = cur
  smallest : ∀ r, d = some r → ∀ b : Rect,
    r.Within b ↔ ∀ t ∈ tiles width height, Differs prev cur width t → t.Within b
  count : n = (changedTiles prev cur width height).length
  copied : copyBox prev cur width d = cur

section guarantee

variable {prev cur : Bytes} {width height : ℕ}

section same

variable (hprev : prev.length = width * 4 * height) (hcur : cur.length = width * 4 * height)

include hprev hcur

theorem eq_of_pixels
    (h : ∀ p ∈ full width height, pixelAt prev width p = pixelAt cur width p) : prev = cur := by
  refine ext_getElem? fun i => ?_
  by_cases hi : i < width * 4 * height
  · exact getElem?_of_pixelAt hi hprev (h _ (pixelOf_mem hi))
  · rw [getElem?_eq_none (by omega), getElem?_eq_none (by omega)]

theorem changedTiles_eq_nil_iff : changedTiles prev cur width height = [] ↔ prev = cur := by
  constructor
  · intro hnil
    refine eq_of_pixels hprev hcur fun p hp => ?_
    by_contra hne
    obtain ⟨hmem, htile⟩ := mem_tileAt hp
    have hin := mem_changedTiles.2 ⟨htile, p, hmem, hne⟩
    rw [hnil] at hin
    simp at hin
  · rintro rfl
    refine eq_nil_iff_forall_not_mem.2 fun t ht => ?_
    obtain ⟨-, p, -, hne⟩ := mem_changedTiles.1 ht
    exact hne rfl

theorem copyBox_eq {d : Option Rect} (hcovers : ∀ p ∈ full width height,
      pixelAt prev width p ≠ pixelAt cur width p → ∃ r, d = some r ∧ p ∈ r) :
    copyBox prev cur width d = cur := by
  refine ext_getElem? fun i => ?_
  by_cases hi : i < cur.length
  · rw [copyBox, getElem?_map, getElem?_range hi, map_some, getElem?_eq_getElem hi]
    congr 1
    split_ifs with hbox
    · rw [getD_eq_getElem?_getD, getElem?_eq_getElem hi, getD_some]
    · have hsame : prev[i]? = cur[i]? := by
        refine getElem?_of_pixelAt (hcur ▸ hi) hprev ?_
        by_contra hne
        obtain ⟨r, rfl, hr⟩ := hcovers _ (pixelOf_mem (hcur ▸ hi)) hne
        exact hbox (by simpa using hr)
      rw [getD_eq_getElem?_getD, hsame, getElem?_eq_getElem hi, getD_some]
  · rw [getElem?_eq_none (by simpa [copyBox] using hi), getElem?_eq_none (by omega)]

/-- **The walk over the tiles is exact.** -/
theorem tight_of_computeTileDamage (hw : width ≤ 65535) (hh : height ≤ 65535) :
    ∃ d n total, computeTileDamage (some prev) cur width height = some (d, n, total) ∧
      Tight prev cur width height d n := by
  have hfold := foldlM_visit_eq hprev hcur
  have hD : ∀ t ∈ changedTiles prev cur width height,
      (0 < t.w ∧ 0 < t.h) ∧ t.x < 65535 ∧ t.y ≤ 65535 := by
    intro t ht
    obtain ⟨htile, -⟩ := mem_changedTiles.1 ht
    obtain ⟨hx, hy⟩ := tile_inside htile
    have hpos := tile_pos htile
    exact ⟨hpos, by omega, by omega⟩
  obtain ⟨hnone, hsmallest⟩ := box_smallest hD
  have hdamage : computeTileDamage (some prev) cur width height =
      some (((changedTiles prev cur width height).foldl Changed.add Changed.none).box,
        ((changedTiles prev cur width height).foldl Changed.add Changed.none).count,
        tilesAcross width * tilesAcross height) := by
    rw [computeTileDamage, hfold]
    rfl
  refine ⟨_, _, _, hdamage, ?_, ?_, ?_, ?_⟩
  · rw [hnone, changedTiles_eq_nil_iff hprev hcur]
  · intro r hr b
    rw [hsmallest r hr b]
    constructor
    · exact fun h t ht hdiffers => h t (mem_changedTiles.2 ⟨ht, hdiffers⟩)
    · intro h t ht
      obtain ⟨htile, hdiffers⟩ := mem_changedTiles.1 ht
      exact h t htile hdiffers
  · rw [foldl_add_count, Changed.none, zero_add]
  · exact copyBox_eq hprev hcur fun p hp hne => damage_covers hdamage hw hp hne

end same

/-- **Tile damage is sound and tight** for exactly the frames whose edges the 16-bit counters can
pass; an empty frame has no tile to pass. -/
theorem tight_iff (hw : width ≤ 65535) (hh : height ≤ 65535)
    (hprev : prev.length = width * 4 * height) (hcur : cur.length = width * 4 * height) :
    (∃ fuel d n total, computeTileDamage16 fuel prev cur width height = some (some (d, n, total)) ∧
        Tight prev cur width height d n) ↔
      height = 0 ∨ width ≤ maxEdge ∧ height ≤ maxEdge := by
  constructor
  · rintro ⟨fuel, d, n, total, hresult, -⟩
    by_contra hedge
    have hspent := computeTileDamage16_spent hprev hcur (by omega) (by omega) fuel
    rw [hspent] at hresult
    simp at hresult
  · intro hedge
    obtain ⟨d, n, total, hdamage, htight⟩ := tight_of_computeTileDamage hprev hcur hw hh
    by_cases hzero : height = 0
    · subst hzero
      have hnone : computeTileDamage (some prev) cur width 0 =
          some (none, 0, tilesAcross width * tilesAcross 0) := rfl
      obtain ⟨rfl, rfl, -⟩ := Prod.mk.inj (some.inj hdamage)
      exact ⟨1, none, 0, _, rfl, htight⟩
    · obtain ⟨hwide, hhigh⟩ := hedge.resolve_left hzero
      refine ⟨1024, d, n, total, ?_, htight⟩
      rw [computeTileDamage16_eq hwide hhigh (le_refl 1024), hdamage]

end guarantee

/-- One pixel that is black in the first frame and not in the second. -/
theorem tight_one_pixel :
    ∃ fuel d n total,
      computeTileDamage16 fuel [0, 0, 0, 0] [0, 0, 9, 0] 1 1 = some (some (d, n, total)) ∧
        Tight [0, 0, 0, 0] [0, 0, 9, 0] 1 1 d n :=
  (tight_iff (by decide) (by decide) rfl rfl).2 (by decide)

def wideFrame : Bytes := List.replicate (65473 * 4) 0

/-- Two equal frames of that width: the comparison never returns. -/
theorem wideFrame_never_returns :
    ¬ ∃ fuel result, computeTileDamage16 fuel wideFrame wideFrame 65473 1 = some result := by
  rintro ⟨fuel, result, hresult⟩
  have hlength : wideFrame.length = 65473 * 4 * 1 := by rw [wideFrame, length_replicate]
  rw [computeTileDamage16_spent hlength hlength (by decide) (by decide)] at hresult
  simp at hresult

end Linrdp.Capture.TileDamage
