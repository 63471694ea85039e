import Mathlib.Data.List.Basic
import Linrdp.Lib.Rects

/-!
# Loops that cover a range or a grid

* `bands stop step fuel start` cuts the range from `start` to `stop` into pieces of `step`;
  `mem_bands` says that nothing is left out.
* `Stack r bands` says that the bands lie one under the other and make up `r` from its top to its
  bottom: they have its pixels (`Stack.mem_iff`), each pixel once (`Stack.disjoint`), and each
  begins where the one above ends (`Stack.isChain`).
* `blocks` takes the marked cells of a grid by rectangles, each grown to the right and then
  downwards from the first marked cell, and unmarked before the next; `mem_blocks` says that a cell
  is in one of them exactly when it was marked.
-/

namespace Linrdp.Lib.Cover

open List Lib.Rects

/-! ### Ranges -/

def bands (stop step : ℕ) : ℕ → ℕ → List (ℕ × ℕ)
  | 0, _ => []
  | fuel + 1, start =>
    if start < stop then
      (start, min (stop - start) step) :: bands stop step fuel (start + step)
    else []

variable {fuel : ℕ}

theorem mem_bands {stop step : ℕ} (hstep : 0 < step) {q start : ℕ} (hfuel : stop ≤ start + fuel) :
    (∃ b ∈ bands stop step fuel start, b.1 ≤ q ∧ q < b.1 + b.2) ↔ start ≤ q ∧ q < stop := by
  induction fuel generalizing start with
  | zero =>
    simp only [bands, not_mem_nil, false_and, exists_false, false_iff]
    omega
  | succ fuel ih =>
    unfold bands
    split_ifs with hlt
    · have hrest : stop ≤ start + step + fuel := by omega
      rw [exists_mem_cons_iff, ih hrest]
      dsimp only
      omega
    · simp only [not_mem_nil, false_and, exists_false, false_iff]
      omega

theorem bands_le {stop step : ℕ} (hstep : 0 < step) {b : ℕ × ℕ} {start : ℕ}
    (h : b ∈ bands stop step fuel start) :
    start ≤ b.1 ∧ b.1 + b.2 ≤ stop ∧ 0 < b.2 ∧ b.2 ≤ step := by
  induction fuel generalizing start with
  | zero => simp [bands] at h
  | succ fuel ih =>
    unfold bands at h
    split_ifs at h with hlt
    · rcases mem_cons.1 h with rfl | h
      · dsimp only
        omega
      · obtain ⟨hstart, hrest⟩ := ih h
        exact ⟨by omega, hrest⟩
    · simp at h

/-! ### Bands of a rectangle -/

inductive Stack : Rect → List Rect → Prop
  | nil {r : Rect} : r.w = 0 ∨ r.h = 0 → Stack r []
  | cons {r : Rect} {rows : ℕ} {bands : List Rect} : rows ≤ r.h →
      Stack ⟨r.x, r.y + rows, r.w, r.h - rows⟩ bands → Stack r (⟨r.x, r.y, r.w, rows⟩ :: bands)

def Below (a b : Rect) : Prop := b.x = a.x ∧ b.w = a.w ∧ b.y = a.y + a.h

variable {r : Rect} {bands : List Rect}

theorem Stack.mem_iff (h : Stack r bands) {p : Pixel} : p ∈ r ↔ ∃ b ∈ bands, p ∈ b := by
  induction h with
  | @nil r hempty =>
    simp only [not_mem_nil, false_and, exists_false, iff_false, Rects.mem_iff]
    omega
  | @cons r rows bands hrows _ ih =>
    rw [exists_mem_cons_iff, ← ih]
    simp only [Rects.mem_iff]
    omega

theorem Stack.disjoint (h : Stack r bands) : bands.Pairwise fun a b => ∀ p ∈ a, p ∉ b := by
  induction h with
  | nil _ => exact .nil
  | @cons r rows bands hrows hrest ih =>
    refine pairwise_cons.2 ⟨fun b hb p hp hpb => ?_, ih⟩
    have hlow := hrest.mem_iff.2 ⟨b, hb, hpb⟩
    rw [Rects.mem_iff] at hp hlow
    dsimp only at hp hlow
    omega

variable {b : Rect}

theorem Stack.head (h : Stack r (b :: bands)) : b.x = r.x ∧ b.w = r.w ∧ b.y = r.y := by
  cases h
  exact ⟨rfl, rfl, rfl⟩

theorem Stack.isChain (h : Stack r bands) : bands.IsChain Below := by
  induction h with
  | nil _ => exact .nil
  | @cons r rows bands hrows hrest ih =>
    rcases bands with _ | ⟨b, bands⟩
    · exact .singleton _
    · exact isChain_cons_cons.2 ⟨hrest.head, ih⟩

/-! ### Grids -/

def grow (p : ℕ → Bool) (k : ℕ) : ℕ → ℕ
  | 0 => k
  | n + 1 => if p k then grow p (k + 1) n else k

theorem grow_spec (p : ℕ → Bool) (n k : ℕ) :
    k ≤ grow p k n ∧ grow p k n ≤ k + n ∧ ∀ j, k ≤ j → j < grow p k n → p j = true := by
  induction n generalizing k with
  | zero =>
    unfold grow
    exact ⟨Nat.le_refl k, Nat.le_refl k, fun j hk hj => absurd hj (by omega)⟩
  | succ n ih =>
    unfold grow
    split_ifs with hk
    · obtain ⟨hle, hge, hall⟩ := ih (k + 1)
      refine ⟨by omega, by omega, fun j hj hlt => ?_⟩
      rcases Nat.eq_or_lt_of_le hj with rfl | hj
      · exact hk
      · exact hall j hj hlt
    · exact ⟨Nat.le_refl k, by omega, fun j hj hlt => absurd hlt (by omega)⟩

variable {columns rows : ℕ} {marked : ℕ → Bool}

/-- The rectangle of marked cells grown from a marked one; cells are numbered row by row. -/
def blockAt (columns rows : ℕ) (marked : ℕ → Bool) (idx : ℕ) : Rect :=
  let y := idx / columns
  let x := idx % columns
  let w := grow (fun k => marked (idx + k)) 1 (columns - (x + 1))
  let h := grow (fun k => (List.range w).all fun i => marked ((y + k) * columns + x + i)) 1
    (rows - (y + 1))
  ⟨x, y, w, h⟩

def unmark (columns : ℕ) (marked : ℕ → Bool) (b : Rect) : ℕ → Bool := fun idx =>
  marked idx && !decide ((idx % columns, idx / columns) ∈ b)

/-- The marked cells from `idx` on, by rectangles. -/
def blocks (columns rows : ℕ) : ℕ → (ℕ → Bool) → ℕ → List Rect
  | 0, _, _ => []
  | fuel + 1, marked, idx =>
    if columns * rows ≤ idx then []
    else if marked idx then
      let b := blockAt columns rows marked idx
      b :: blocks columns rows fuel (unmark columns marked b) (idx + b.w)
    else blocks columns rows fuel marked (idx + 1)

variable {c : ℕ}

theorem cell_index (r : ℕ) (hc : c < columns) :
    (r * columns + c) % columns = c ∧ (r * columns + c) / columns = r := by
  constructor
  · exact Nat.mul_add_mod_of_lt hc
  · rw [Nat.mul_comm, Nat.mul_add_div (by omega), Nat.div_eq_of_lt hc, Nat.add_zero]

theorem cell_lt {r : ℕ} (hc : c < columns) (hr : r < rows) : r * columns + c < columns * rows :=
  calc r * columns + c < (r + 1) * columns := by rw [Nat.add_mul]; omega
    _ ≤ rows * columns := Nat.mul_le_mul_right _ hr
    _ = columns * rows := Nat.mul_comm ..

structure Grown (columns rows : ℕ) (marked : ℕ → Bool) (idx : ℕ) (b : Rect) : Prop where
  inside : b.Inside columns rows
  corner : b.y * columns + b.x = idx
  wide : 0 < b.w
  high : 0 < b.h
  all : ∀ c r, (c, r) ∈ b → marked (r * columns + c) = true

variable {idx : ℕ}

theorem grown_blockAt (hidx : idx < columns * rows) (hmarked : marked idx = true) :
    Grown columns rows marked idx (blockAt columns rows marked idx) := by
  have hcolumns : 0 < columns := Nat.pos_of_mul_pos_right (Nat.zero_lt_of_lt hidx)
  have hx : idx % columns < columns := Nat.mod_lt _ hcolumns
  have hy : idx / columns < rows := Nat.div_lt_of_lt_mul hidx
  have hcorner : idx / columns * columns + idx % columns = idx := by
    rw [Nat.mul_comm]
    exact Nat.div_add_mod idx columns
  obtain ⟨hw, hwide, hrow⟩ := grow_spec (fun k => marked (idx + k)) (columns - (idx % columns + 1))
      1
  obtain ⟨hh, hhigh, hdown⟩ := grow_spec (fun k =>
      (List.range (blockAt columns rows marked idx).w).all
    fun i => marked ((idx / columns + k) * columns + idx % columns + i))
      (rows - (idx / columns + 1)) 1
  refine ⟨⟨?_, ?_⟩, hcorner, ?_, ?_, fun c r hcr => ?_⟩
  · simp only [blockAt]
    omega
  · change idx / columns + (blockAt columns rows marked idx).h ≤ rows
    change 1 ≤ (blockAt columns rows marked idx).h at hh
    change (blockAt columns rows marked idx).h ≤ _ at hhigh
    omega
  · exact hw
  · exact hh
  · obtain ⟨⟨hcx, hcw⟩, hry, hrh⟩ := mem_iff.1 hcr
    change idx % columns ≤ c at hcx
    change c < idx % columns + (blockAt columns rows marked idx).w at hcw
    change idx / columns ≤ r at hry
    change r < idx / columns + (blockAt columns rows marked idx).h at hrh
    rcases Nat.eq_or_lt_of_le hry with hr | hr
    · -- the first row, grown to the right
      have hcell : r * columns + c = idx + (c - idx % columns) := by rw [← hr]; omega
      rcases Nat.eq_or_lt_of_le hcx with hc | hc
      · rw [hcell, ← hc, Nat.sub_self, Nat.add_zero]
        exact hmarked
      · rw [hcell]
        exact hrow (c - idx % columns) (by omega)
          (by change _ < (blockAt columns rows marked idx).w; omega)
    · have hall := hdown (r - idx / columns) (by omega)
        (by change _ < (blockAt columns rows marked idx).h; omega)
      have hcell : r * columns + c =
          (idx / columns + (r - idx / columns)) * columns + idx % columns +
          (c - idx % columns) := by
        rw [Nat.add_sub_cancel' hry]
        omega
      rw [hcell]
      exact all_eq_true.1 hall (c - idx % columns) (mem_range.2 (by omega))

theorem unmark_cell {r : ℕ} (hc : c < columns) :
    unmark columns marked b (r * columns + c) =
      (marked (r * columns + c) && !decide ((c, r) ∈ b)) := by
  obtain ⟨hmod, hdiv⟩ := cell_index r hc
  rw [unmark, hmod, hdiv]

theorem Grown.unmarked (h : Grown columns rows marked idx b)
    (hbefore : ∀ j < idx, marked j = false) :
    ∀ j < idx + b.w, unmark columns marked b j = false := by
  intro j hj
  by_cases hlt : j < idx
  · rw [unmark, hbefore j hlt, Bool.false_and]
  · obtain ⟨hx, -⟩ := h.inside
    have hhigh := h.high
    have hcorner := h.corner
    have hcell : j = b.y * columns + (b.x + (j - idx)) := by omega
    have hmem : (b.x + (j - idx), b.y) ∈ b := by
      rw [mem_iff]
      dsimp only
      omega
    rw [hcell, unmark_cell (by omega), decide_eq_true hmem, Bool.not_true, Bool.and_false]

/-- **A cell is in a rectangle exactly when it was marked.** The induction is over the places looked
at, with nothing marked before them. -/
theorem mem_blocks {r : ℕ} (hc : c < columns) (hr : r < rows) {marked : ℕ → Bool}
    (hfuel : columns * rows ≤ idx + fuel) (hbefore : ∀ j < idx, marked j = false) :
    (∃ b ∈ blocks columns rows fuel marked idx, (c, r) ∈ b) ↔
      marked (r * columns + c) = true := by
  have hcell := cell_lt hc hr
  induction fuel generalizing idx marked with
  | zero => simp [blocks, hbefore (r * columns + c) (by omega)]
  | succ fuel ih =>
    unfold blocks
    split_ifs with hend hmarked
    · simp [hbefore (r * columns + c) (by omega)]
    · have hgrown := grown_blockAt (Nat.lt_of_not_le hend) hmarked
      have hwide := hgrown.wide
      have hrest : columns * rows ≤ idx + (blockAt columns rows marked idx).w + fuel := by omega
      have htail : (∃ b ∈ blocks columns rows fuel _ _, (c, r) ∈ b) ↔ _ :=
        ih hrest (hgrown.unmarked hbefore)
      rw [unmark_cell hc] at htail
      dsimp only
      rw [exists_mem_cons_iff, htail]
      by_cases hmem : (c, r) ∈ blockAt columns rows marked idx
      · simp [hmem, hgrown.all c r hmem]
      · simp [hmem]
    · have hrest : columns * rows ≤ idx + 1 + fuel := by omega
      refine ih hrest fun j hj => ?_
      rcases Nat.lt_succ_iff_lt_or_eq.1 hj with hj | rfl
      · exact hbefore j hj
      · simpa using hmarked

theorem blocks_inside {marked : ℕ → Bool} (h : b ∈ blocks columns rows fuel marked idx) :
    b.Inside columns rows ∧ 0 < b.w ∧ 0 < b.h := by
  induction fuel generalizing idx marked with
  | zero => simp [blocks] at h
  | succ fuel ih =>
    unfold blocks at h
    split_ifs at h with hend hmarked
    · simp at h
    · have hgrown := grown_blockAt (Nat.lt_of_not_le hend) hmarked
      rcases mem_cons.1 h with rfl | h
      · exact ⟨hgrown.inside, hgrown.wide, hgrown.high⟩
      · exact ih h
    · exact ih h

end Linrdp.Lib.Cover
