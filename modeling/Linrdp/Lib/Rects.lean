import Mathlib.Data.Nat.Basic
import Mathlib.Data.Prod.Basic

/-!
# Pixel rectangles

A rectangle is a corner and a size; a pixel is in it when both coordinates are in the half-open
ranges. `Rect.hull` is the smallest rectangle around two, `Rect.Inside` says that a rectangle lies
in a frame, and `Rect.Within` that it lies in another one; that the hull is the smallest is
`Rect.hull_within_iff`.
-/

namespace Linrdp.Lib.Rects

abbrev Pixel := ℕ × ℕ

structure Rect where
  (x y w h : ℕ)
deriving DecidableEq

instance : Membership Pixel Rect :=
  ⟨fun r p => (r.x ≤ p.1 ∧ p.1 < r.x + r.w) ∧ r.y ≤ p.2 ∧ p.2 < r.y + r.h⟩

theorem mem_iff {p : Pixel} {r : Rect} :
    p ∈ r ↔ (r.x ≤ p.1 ∧ p.1 < r.x + r.w) ∧ r.y ≤ p.2 ∧ p.2 < r.y + r.h := Iff.rfl

instance (p : Pixel) (r : Rect) : Decidable (p ∈ r) := inferInstanceAs (Decidable (_ ∧ _))

namespace Rect

def full (width height : ℕ) : Rect := ⟨0, 0, width, height⟩

def Inside (r : Rect) (width height : ℕ) : Prop := r.x + r.w ≤ width ∧ r.y + r.h ≤ height

instance (r : Rect) (width height : ℕ) : Decidable (r.Inside width height) :=
  inferInstanceAs (Decidable (_ ∧ _))

def hull (a b : Rect) : Rect :=
  ⟨min a.x b.x, min a.y b.y, max (a.x + a.w) (b.x + b.w) - min a.x b.x,
    max (a.y + a.h) (b.y + b.h) - min a.y b.y⟩

theorem mem_full {p : Pixel} {width height : ℕ} :
    p ∈ full width height ↔ p.1 < width ∧ p.2 < height := by simp [mem_iff, full]

theorem full_inside (width height : ℕ) : (full width height).Inside width height := by
  simp [Inside, full]

theorem Inside.mem_full {r : Rect} {width height : ℕ} (hr : r.Inside width height) {p : Pixel}
    (hp : p ∈ r) : p ∈ full width height := by
  obtain ⟨hx, hy⟩ := hr
  rw [mem_iff] at hp
  rw [Rect.mem_full]
  omega

theorem mem_hull_left {p : Pixel} {a : Rect} (b : Rect) (h : p ∈ a) : p ∈ hull a b := by
  rw [mem_iff] at h ⊢
  simp only [hull]
  omega

theorem hull_comm (a b : Rect) : hull a b = hull b a := by simp only [hull, min_comm, max_comm]

theorem mem_hull_right {p : Pixel} (a : Rect) {b : Rect} (h : p ∈ b) : p ∈ hull a b := by
  rw [hull_comm]
  exact mem_hull_left a h

theorem Inside.hull {a b : Rect} {width height : ℕ} (ha : a.Inside width height)
    (hb : b.Inside width height) : (Rect.hull a b).Inside width height := by
  obtain ⟨hax, hay⟩ := ha
  obtain ⟨hbx, hby⟩ := hb
  simp only [Inside, Rect.hull]
  omega

def Within (a b : Rect) : Prop := ∀ p ∈ a, p ∈ b

theorem within_iff {a b : Rect} (hw : 0 < a.w) (hh : 0 < a.h) :
    a.Within b ↔ (b.x ≤ a.x ∧ a.x + a.w ≤ b.x + b.w) ∧ b.y ≤ a.y ∧ a.y + a.h ≤ b.y + b.h := by
  constructor
  · intro h
    have hfirst := h (a.x, a.y) (mem_iff.2 (by dsimp only; omega))
    have hlast := h (a.x + a.w - 1, a.y + a.h - 1) (mem_iff.2 (by dsimp only; omega))
    rw [mem_iff] at hfirst hlast
    dsimp only at hfirst hlast
    omega
  · intro h p hp
    rw [mem_iff] at hp ⊢
    omega

theorem hull_within_iff {a b r : Rect} (hwa : 0 < a.w) (hha : 0 < a.h) (hwb : 0 < b.w)
    (hhb : 0 < b.h) : (hull a b).Within r ↔ a.Within r ∧ b.Within r := by
  rw [within_iff (by simp only [hull]; omega) (by simp only [hull]; omega), within_iff hwa hha,
    within_iff hwb hhb]
  simp only [hull]
  omega

end Rect

end Linrdp.Lib.Rects
