import Linrdp.Lib.Rects

/-!
# The rectangles of the display loop

The rectangle helpers of `gfx_display.rs`. Coordinates are 16-bit and sums of them wrap, as they do
in a release build; every rectangle that lies in a frame is small enough for the sums to be exact
(`unionRect_eq_hull`).
-/

namespace Linrdp.Display.Rects

open Lib.Rects

def add16 (a b : ℕ) : ℕ := (a + b) % 65536

def sub16 (a b : ℕ) : ℕ := (a + 65536 - b) % 65536

def Small16 (r : Rect) : Prop := r.Inside 65535 65535

instance (r : Rect) : Decidable (Small16 r) := inferInstanceAs (Decidable (Rect.Inside _ _ _))

theorem Small16.of_inside {r : Rect} {width height : ℕ} (h : r.Inside width height)
    (hw : width ≤ 65535) (hh : height ≤ 65535) : Small16 r := by
  obtain ⟨hx, hy⟩ := h
  exact ⟨by omega, by omega⟩

def unionRect (a b : Rect) : Rect :=
  let left := min a.x b.x
  let top := min a.y b.y
  let right := max (add16 a.x a.w) (add16 b.x b.w)
  let bottom := max (add16 a.y a.h) (add16 b.y b.h)
  ⟨left, top, sub16 right left, sub16 bottom top⟩

theorem add16_of_le {a b : ℕ} (h : a + b ≤ 65535) : add16 a b = a + b := Nat.mod_eq_of_lt (by omega)

theorem sub16_of_le {a b : ℕ} (ha : a ≤ 65535) (hle : b ≤ a) : sub16 a b = a - b := by
  unfold sub16
  omega

theorem span16 {x w y v : ℕ} (hx : x + w ≤ 65535) (hy : y + v ≤ 65535) :
    sub16 (max (add16 x w) (add16 y v)) (min x y) = max (x + w) (y + v) - min x y := by
  rw [add16_of_le hx, add16_of_le hy]
  have hmax : max (x + w) (y + v) ≤ 65535 := max_le hx hy
  have hmin : min x y ≤ max (x + w) (y + v) := by omega
  exact sub16_of_le hmax hmin

theorem unionRect_eq_hull {a b : Rect} (ha : Small16 a) (hb : Small16 b) :
    unionRect a b = Rect.hull a b := by
  obtain ⟨hax, hay⟩ := ha
  obtain ⟨hbx, hby⟩ := hb
  unfold unionRect Rect.hull
  dsimp only
  rw [span16 hax hbx, span16 hay hby]

theorem Small16.unionRect {a b : Rect} (ha : Small16 a) (hb : Small16 b) :
    Small16 (unionRect a b) := by
  rw [unionRect_eq_hull ha hb]
  exact Rect.Inside.hull ha hb

def clampToFrame (r : Rect) (width height : ℕ) : Option Rect :=
  if width < r.x ∨ height < r.y then none
  else
    let w := min r.w (width - r.x)
    let h := min r.h (height - r.y)
    if 0 < w ∧ 0 < h then some ⟨r.x, r.y, w, h⟩ else none

theorem clampToFrame_inside {r c : Rect} {width height : ℕ}
    (h : clampToFrame r width height = some c) : c.Inside width height := by
  simp only [clampToFrame] at h
  split_ifs at h with hout hpos
  rw [← Option.some.inj h]
  simp only [Rect.Inside]
  omega

def minBandRows : ℕ := 16

def splitDebtBand (r : Rect) (budgetPx : ℕ) : Rect × Option Rect :=
  if r.w = 0 ∨ r.h = 0 then (r, none)
  else if r.w * r.h ≤ budgetPx then (r, none)
  else
    let rows := max (budgetPx / r.w) minBandRows
    if 65535 < rows ∨ r.h ≤ rows then (r, none)
    else (⟨r.x, r.y, r.w, rows⟩, some ⟨r.x, add16 r.y rows, r.w, r.h - rows⟩)

theorem mem_splitDebtBand {r : Rect} {budgetPx : ℕ} (hr : Small16 r) {p : Pixel} :
    p ∈ r ↔ p ∈ (splitDebtBand r budgetPx).1 ∨
      ∃ rest, (splitDebtBand r budgetPx).2 = some rest ∧ p ∈ rest := by
  obtain ⟨-, hy⟩ := hr
  simp only [splitDebtBand]
  split_ifs with hempty hfits hrows
  · simp
  · simp
  · simp
  · simp only [Option.some.injEq, exists_eq_left', mem_iff, add16]
    omega

theorem splitDebtBand_small {r rest : Rect} {budgetPx : ℕ} (hr : Small16 r)
    (h : (splitDebtBand r budgetPx).2 = some rest) : Small16 rest := by
  obtain ⟨hx, hy⟩ := hr
  simp only [splitDebtBand] at h
  split_ifs at h with hempty hfits hrows
  rw [← Option.some.inj h]
  simp only [Small16, Rect.Inside, add16]
  omega

theorem splitDebtBand_fst_small {r : Rect} {budgetPx : ℕ} (hr : Small16 r) :
    Small16 (splitDebtBand r budgetPx).1 := by
  obtain ⟨hx, hy⟩ := hr
  simp only [splitDebtBand]
  split_ifs with hempty hfits hrows
  · exact ⟨hx, hy⟩
  · exact ⟨hx, hy⟩
  · exact ⟨hx, hy⟩
  · simp only [Small16, Rect.Inside]
    omega

def settleDebt : Option Rect → Bool × Option Rect
  | some rest => (true, some rest)
  | none => (false, none)

end Linrdp.Display.Rects
