import Linrdp.Lib.Rects

/-!
# Which tiles of a frame changed

`capture.rs` compares every grab with the one before it, 64 by 64 pixels at a time, and hands on the
bounding box of the tiles that differ. The position of a pixel is worked out from the width of the
*current* frame, so a previous frame of another size is compared at wrong places, and past its end
the slice panics: the `none` of `computeTileDamage`. Frames of one size never get there
(`computeTileDamage_isSome`), and the box has every pixel that differs (`damage_covers`).
-/

namespace Linrdp.Capture.TileDamage

open Option List Lib.Rects

abbrev Bytes := List UInt8

def tile : ℕ := 64

def slice (xs : Bytes) (start len : ℕ) : Option Bytes :=
  if start + len ≤ xs.length then some ((xs.drop start).take len) else none

def tileEqRows (prev cur : Bytes) (stride x w : ℕ) : List ℕ → Option Bool
  | [] => some true
  | row :: rows => do
    let p ← slice prev (row * stride + x * 4) (w * 4)
    let c ← slice cur (row * stride + x * 4) (w * 4)
    if p = c then tileEqRows prev cur stride x w rows else some false

def tileEqSamePos (prev cur : Bytes) (stride : ℕ) (r : Rect) : Option Bool :=
  tileEqRows prev cur stride r.x r.w (List.range' r.y r.h)

structure Changed where
  (minX minY maxX maxY count : ℕ)

def Changed.none : Changed := ⟨65535, 65535, 0, 0, 0⟩

def Changed.add (c : Changed) (r : Rect) : Changed :=
  ⟨min c.minX r.x, min c.minY r.y, max c.maxX (r.x + r.w), max c.maxY (r.y + r.h), c.count + 1⟩

def Changed.box (c : Changed) : Option Rect :=
  if c.minX ≠ 65535 then some ⟨c.minX, c.minY, c.maxX - c.minX, c.maxY - c.minY⟩ else Option.none

def tilesAcross (edge : ℕ) : ℕ := (edge + tile - 1) / tile

/-- The tile in column `i` and row `j`, cut at the frame's edges. -/
def tileAt (width height i j : ℕ) : Rect :=
  ⟨i * tile, j * tile, min tile (width - i * tile), min tile (height - j * tile)⟩

/-- All tiles, row by row. The source steps two `u16` counters by 64, so this is its order for the
widths and heights (below 65473) for which those counters do not wrap. -/
def tiles (width height : ℕ) : List Rect :=
  (List.range (tilesAcross height)).flatMap fun j =>
    (List.range (tilesAcross width)).map fun i => tileAt width height i j

def visit (prev cur : Bytes) (stride : ℕ) (c : Changed) (r : Rect) : Option Changed := do
  let eq ← tileEqSamePos prev cur stride r
  if eq then some c else some (c.add r)

/-- The changed box, how many tiles changed, and how many there are. -/
def computeTileDamage (prev : Option Bytes) (cur : Bytes) (width height : ℕ) :
    Option (Option Rect × ℕ × ℕ) :=
  let total := tilesAcross width * tilesAcross height
  match prev with
  | none => some (some ⟨0, 0, width, height⟩, total, total)
  | some prev => do
    let c ← (tiles width height).foldlM (visit prev cur (width * 4)) Changed.none
    some (c.box, c.count, total)

/-! ### In range -/

theorem slice_isSome {xs : Bytes} {start len : ℕ} (h : start + len ≤ xs.length) :
    slice xs start len = some ((xs.drop start).take len) := if_pos h

variable {prev cur : Bytes} {stride x w : ℕ}

theorem tileEqRows_isSome {rows : List ℕ}
    (hin : ∀ row ∈ rows, row * stride + x * 4 + w * 4 ≤ prev.length)
    (hlen : prev.length = cur.length) : ∃ b, tileEqRows prev cur stride x w rows = some b := by
  induction rows with
  | nil => exact ⟨true, rfl⟩
  | cons row rows ih =>
    have hrow := hin row mem_cons_self
    rw [tileEqRows, slice_isSome hrow, slice_isSome (hlen ▸ hrow)]
    dsimp only [bind_eq_bind, bind_some]
    split_ifs
    · exact ih fun r hr => hin r (mem_cons_of_mem _ hr)
    · exact ⟨false, rfl⟩

variable {width height : ℕ} {r : Rect}

theorem mem_tiles (h : r ∈ tiles width height) :
    ∃ i j, i < tilesAcross width ∧ j < tilesAcross height ∧ r = tileAt width height i j := by
  simp only [tiles, mem_flatMap, List.mem_map, mem_range] at h
  obtain ⟨j, hj, i, hi, rfl⟩ := h
  exact ⟨i, j, hi, hj, rfl⟩

theorem lt_of_lt_tilesAcross {edge i : ℕ} (h : i < tilesAcross edge) : i * tile < edge := by
  simp only [tilesAcross, tile] at h ⊢
  omega

theorem tile_inside (h : r ∈ tiles width height) : r.Inside width height := by
  obtain ⟨i, j, hi, hj, rfl⟩ := mem_tiles h
  have hx := lt_of_lt_tilesAcross hi
  have hy := lt_of_lt_tilesAcross hj
  simp only [Rect.Inside, tileAt]
  omega

theorem row_in_range {row : ℕ} (hrow : row < height) (hw : x + w ≤ width) :
    row * (width * 4) + x * 4 + w * 4 ≤ width * 4 * height := by
  have h : (row + 1) * (width * 4) ≤ height * (width * 4) :=
    Nat.mul_le_mul_right _ hrow
  rw [Nat.add_mul, Nat.one_mul, Nat.mul_comm height] at h
  omega

theorem rows_in_range (hp : prev.length = width * 4 * height) (hr : r.Inside width height) :
    ∀ row ∈ List.range' r.y r.h, row * (width * 4) + r.x * 4 + r.w * 4 ≤ prev.length := by
  intro row hrow
  rw [mem_range'_1] at hrow
  rw [hp]
  exact row_in_range (lt_of_lt_of_le hrow.2 hr.2) hr.1

theorem tileEqSamePos_isSome
    (hp : prev.length = width * 4 * height) (hc : cur.length = width * 4 * height)
    (hr : r.Inside width height) : ∃ b, tileEqSamePos prev cur (width * 4) r = some b :=
  tileEqRows_isSome (rows_in_range hp hr) (hp.trans hc.symm)

variable {rs : List Rect} {c : Changed}

theorem foldlM_visit {I : Changed → Prop}
    {c' : Changed} (h : rs.foldlM (visit prev cur stride) c = some c') (hI : I c)
    (hadd : ∀ d, ∀ r ∈ rs, I d → I (d.add r)) : I c' := by
  induction rs generalizing c with
  | nil =>
    rw [foldlM_nil] at h
    exact some.inj h ▸ hI
  | cons r rs ih =>
    rw [foldlM_cons, bind_eq_bind, bind_eq_some_iff] at h
    obtain ⟨d, hd, h⟩ := h
    refine ih h ?_ fun e s hs => hadd e s (mem_cons_of_mem _ hs)
    rw [visit, bind_eq_bind, bind_eq_some_iff] at hd
    obtain ⟨b, -, hd⟩ := hd
    split_ifs at hd
    · exact some.inj hd ▸ hI
    · exact some.inj hd ▸ hadd c r mem_cons_self hI

theorem foldlM_visit_isSome
    (h : ∀ r ∈ rs, ∃ b, tileEqSamePos prev cur stride r = some b) (c : Changed) :
    ∃ c', rs.foldlM (visit prev cur stride) c = some c' := by
  induction rs generalizing c with
  | nil => exact ⟨c, rfl⟩
  | cons r rs ih =>
    obtain ⟨b, hb⟩ := h r mem_cons_self
    have hrs := fun s hs => h s (mem_cons_of_mem _ hs)
    rw [foldlM_cons, visit, hb]
    cases b
    all_goals exact ih hrs _

/-- **Two frames of one size are compared in range.** -/
theorem computeTileDamage_isSome {prev : Option Bytes}
    (hp : ∀ p, prev = some p → p.length = width * 4 * height)
    (hc : cur.length = width * 4 * height) :
    ∃ r, computeTileDamage prev cur width height = some r := by
  rcases prev with _ | p
  · exact ⟨_, rfl⟩
  · obtain ⟨c, hc'⟩ := foldlM_visit_isSome
      (fun r hr => tileEqSamePos_isSome (hp p rfl) hc (tile_inside hr)) Changed.none
    exact ⟨_, by rw [computeTileDamage, hc']; rfl⟩

/-! ### The box -/

def pixelAt (xs : Bytes) (width : ℕ) (p : Pixel) : Option Bytes :=
  slice xs (p.2 * (width * 4) + p.1 * 4) 4

theorem slice_sub {xs a : Bytes} {start len off n : ℕ} (h : slice xs start len = some a)
    (hn : off + n ≤ len) : slice xs (start + off) n = some ((a.drop off).take n) := by
  unfold slice at h ⊢
  split_ifs at h with hlen
  rw [if_pos (by omega), ← some.inj h, drop_take, take_take, drop_drop, min_eq_left (by omega)]

theorem slice_eq_of_tileEqRows {rows : List ℕ}
    (h : tileEqRows prev cur stride x w rows = some true) :
    ∀ row ∈ rows, ∃ a, slice prev (row * stride + x * 4) (w * 4) = some a ∧
      slice cur (row * stride + x * 4) (w * 4) = some a := by
  induction rows with
  | nil => simp
  | cons row rows ih =>
    intro row' hrow'
    rw [tileEqRows, bind_eq_bind, bind_eq_some_iff] at h
    obtain ⟨a, ha, h⟩ := h
    rw [bind_eq_some_iff] at h
    obtain ⟨b, hb, h⟩ := h
    split_ifs at h with hab
    · rcases mem_cons.1 hrow' with rfl | hmem
      · exact ⟨a, ha, hab ▸ hb⟩
      · exact ih h row' hmem
    · simp at h

variable {p : Pixel}

theorem pixelAt_eq_of_tileEq (h : tileEqSamePos prev cur (width * 4) r = some true) (hp : p ∈ r) :
    pixelAt prev width p = pixelAt cur width p := by
  rw [mem_iff] at hp
  obtain ⟨a, ha, hb⟩ := slice_eq_of_tileEqRows h p.2 (by rw [mem_range'_1]; omega)
  have hoff : p.2 * (width * 4) + p.1 * 4 = p.2 * (width * 4) + r.x * 4 + (p.1 - r.x) * 4 := by
    omega
  have hn : (p.1 - r.x) * 4 + 4 ≤ r.w * 4 := by omega
  rw [pixelAt, pixelAt, hoff, slice_sub ha hn, slice_sub hb hn]

def Changed.Around (c : Changed) (r : Rect) : Prop :=
  c.minX ≤ r.x ∧ c.minY ≤ r.y ∧ r.x + r.w ≤ c.maxX ∧ r.y + r.h ≤ c.maxY

theorem Changed.around_add_self (c : Changed) (r : Rect) : (c.add r).Around r := by
  simp only [Changed.Around, Changed.add]
  omega

theorem Changed.Around.add (h : c.Around r) (s : Rect) : (c.add s).Around r := by
  simp only [Changed.Around, Changed.add] at h ⊢
  omega

theorem around_of_changed {c' : Changed} (h : rs.foldlM (visit prev cur stride) c = some c')
    (hr : r ∈ rs) (hne : tileEqSamePos prev cur stride r ≠ some true) : c'.Around r := by
  induction rs generalizing c with
  | nil => simp at hr
  | cons s rs ih =>
    rw [foldlM_cons, bind_eq_bind, bind_eq_some_iff] at h
    obtain ⟨d, hd, h⟩ := h
    rcases mem_cons.1 hr with rfl | hmem
    · -- this is the tile: the box is around it from here on
      rw [visit, bind_eq_bind, bind_eq_some_iff] at hd
      obtain ⟨b, hb, hd⟩ := hd
      rcases b with _ | _
      · refine foldlM_visit (I := fun c => c.Around r) h ?_ fun e t _ he => he.add t
        rw [← some.inj hd]
        exact c.around_add_self r
      · exact absurd hb hne
    · exact ih h hmem

theorem mem_tileAt (hp : p ∈ Rect.full width height) :
    p ∈ tileAt width height (p.1 / tile) (p.2 / tile) ∧
      tileAt width height (p.1 / tile) (p.2 / tile) ∈ tiles width height := by
  rw [Rect.mem_full] at hp
  constructor
  · simp only [mem_iff, tileAt, tile]
    omega
  · simp only [tiles, mem_flatMap, List.mem_map, mem_range, tilesAcross, tile]
    exact ⟨p.2 / 64, by omega, p.1 / 64, by omega, rfl⟩

/-- **Every pixel of the frame that differs is in the reported box.** -/
theorem damage_covers {d : Option Rect} {n m : ℕ}
    (h : computeTileDamage (some prev) cur width height = some (d, n, m)) (hw : width ≤ 65535)
    (hp : p ∈ Rect.full width height) (hne : pixelAt prev width p ≠ pixelAt cur width p) :
    ∃ r, d = some r ∧ p ∈ r := by
  rw [computeTileDamage, bind_eq_bind, bind_eq_some_iff] at h
  obtain ⟨c, hc, h⟩ := h
  cases h
  obtain ⟨hmem, htile⟩ := mem_tileAt hp
  obtain ⟨h1, h2, h3, h4⟩ := around_of_changed hc htile
    fun heq => hne (pixelAt_eq_of_tileEq heq hmem)
  rw [Rect.mem_full] at hp
  rw [mem_iff] at hmem
  refine ⟨_, if_pos (by omega), ?_⟩
  rw [mem_iff]
  dsimp only
  omega

end Linrdp.Capture.TileDamage
