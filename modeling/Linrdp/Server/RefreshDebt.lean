import Linrdp.Lib.Runs
import Linrdp.Server.Refresh

/-!
# The areas a client asks for, as debt

The areas of the Refresh Rect PDUs come straight from the network, with any 16-bit coordinates.
`RefreshRequests` keeps their union, which adds a position and a size in 16 bits: a build that
checks its arithmetic stops where a sum does not fit (`unionRectChecked`), a release build goes on
with the sum that wrapped (`unionRect`). `accumulates_along_iff` says for which areas nothing wraps
and the union is the smallest rectangle around what was asked for.
-/

namespace Linrdp.Server.RefreshDebt

open List Lib.Rects Lib.Runs Display.Rects Display.Frame Display.Routing
open Server.Refresh Option Rect EgfxUpdates

/-! ### Arithmetic that is checked -/

def checkedAdd16 (a b : ℕ) : Option ℕ := if a + b ≤ 65535 then some (a + b) else none

def checkedSub16 (a b : ℕ) : Option ℕ := if b ≤ a then some (a - b) else none

def unionRectChecked (a b : Rect) : Option Rect := do
  let left := min a.x b.x
  let top := min a.y b.y
  let right := max (← checkedAdd16 a.x a.w) (← checkedAdd16 b.x b.w)
  let bottom := max (← checkedAdd16 a.y a.h) (← checkedAdd16 b.y b.h)
  return ⟨left, top, ← checkedSub16 right left, ← checkedSub16 bottom top⟩

def addRefreshChecked (pending : Option Rect) (area : Rect) : Option (Option Rect) :=
  match pending with
  | none => some (some area)
  | some owed => (unionRectChecked owed area).map some

def oweRegionChecked (u : EgfxUpdates) (r : Rect) : Option EgfxUpdates :=
  if u.pendingFull && u.debtRect.isNone then some u
  else do
    let debt ← addRefreshChecked u.debtRect r
    return { u with debtRect := debt, pendingFull := true }

def takeRefreshChecked (u : EgfxUpdates) : Option Rect → Option EgfxUpdates
  | none => some u
  | some area => do
    let owing ← oweRegionChecked u area
    return { owing with legacyRefresh := ← addRefreshChecked u.legacyRefresh area }

def refreshChecked (u : EgfxUpdates) (areas : List InclusiveRectangle) : Option EgfxUpdates := do
  let taken ← (areas.filterMap inclusiveToXywh).foldlM addRefreshChecked none
  takeRefreshChecked u taken

theorem unionRectChecked_eq (a b : Rect) :
    unionRectChecked a b = if Small16 a ∧ Small16 b then some (unionRect a b) else none := by
  by_cases h : Small16 a ∧ Small16 b
  · obtain ⟨⟨hax, hay⟩, hbx, hby⟩ := id h
    rw [if_pos h, unionRect_eq_hull h.1 h.2]
    have hx : min a.x b.x ≤ max (a.x + a.w) (b.x + b.w) := by omega
    have hy : min a.y b.y ≤ max (a.y + a.h) (b.y + b.h) := by omega
    simp only [unionRectChecked, checkedAdd16, checkedSub16, if_pos hax, if_pos hay, if_pos hbx,
      if_pos hby, Option.bind_eq_bind, Option.bind_some, if_pos hx, if_pos hy, Option.pure_def]
    rfl
  · rw [if_neg h]
    unfold Small16 Rect.Inside at h
    simp only [unionRectChecked, checkedAdd16, bind_eq_bind]
    split_ifs with h1 h2 h3 h4 <;>
      first | rfl | exact absurd ⟨⟨by omega, by omega⟩, by omega, by omega⟩ h

/-! ### What the checks say -/

variable {u : EgfxUpdates}

section checks

variable {pending : Option Rect} {area : Rect} {L : List Rect}

theorem addRefreshChecked_of_small (hpending : PendingSmall pending) (harea : Small16 area) :
    addRefreshChecked pending area = some (addRefresh pending area) := by
  rcases pending with _ | owed
  · rfl
  · rw [addRefreshChecked, unionRectChecked_eq, if_pos ⟨hpending owed rfl, harea⟩]
    rfl

theorem small_of_addRefreshChecked {owed : Rect} {next : Option Rect}
    (h : addRefreshChecked (some owed) area = some next) :
    (Small16 owed ∧ Small16 area) ∧ next = some (unionRect owed area) := by
  rw [addRefreshChecked, unionRectChecked_eq] at h
  split_ifs at h with hsmall
  · exact ⟨hsmall, (some.inj h).symm⟩
  · simp at h

theorem foldlM_of_small (hL : ∀ a ∈ L, Small16 a) (hpending : PendingSmall pending) :
    L.foldlM addRefreshChecked pending = some (L.foldl addRefresh pending) ∧
      PendingSmall (L.foldl addRefresh pending) := by
  induction L generalizing pending with
  | nil => exact ⟨rfl, hpending⟩
  | cons a L ih =>
    have ha := hL a mem_cons_self
    have hadded := (addRefresh_covers hpending ha).1
    rw [foldlM_cons, addRefreshChecked_of_small hpending ha, foldl_cons]
    exact ih (fun b hb => hL b (mem_cons_of_mem a hb)) hadded

theorem small_of_foldlM {owed : Rect} {taken : Option Rect}
    (h : L.foldlM addRefreshChecked (some owed) = some taken) :
    (∀ a ∈ L, Small16 a) ∧ (L ≠ [] → Small16 owed) := by
  induction L generalizing owed with
  | nil => exact ⟨by simp, by simp⟩
  | cons a L ih =>
    rw [foldlM_cons, bind_eq_bind, bind_eq_some_iff] at h
    obtain ⟨next, hnext, hrest⟩ := h
    obtain ⟨⟨howed, ha⟩, rfl⟩ := small_of_addRefreshChecked hnext
    exact ⟨forall_mem_cons.2 ⟨ha, (ih hrest).1⟩, fun _ => howed⟩

section

variable (hdebt : PendingSmall u.debtRect) (hlegacy : PendingSmall u.legacyRefresh)
  (hpending : PendingSmall pending)
include hdebt hlegacy hpending

theorem takeRefreshChecked_of_small :
    takeRefreshChecked u pending = some (takeRefresh u pending) := by
  rcases pending with _ | area
  · rfl
  · have harea := hpending area rfl
    rw [takeRefreshChecked, addRefreshChecked_of_small hlegacy harea, oweRegionChecked, takeRefresh,
      oweRegion, addRefreshChecked_of_small hdebt harea]
    split
    · rfl
    · rfl

theorem takeRefresh_small :
    PendingSmall (takeRefresh u pending).debtRect ∧
      PendingSmall (takeRefresh u pending).legacyRefresh := by
  rcases pending with _ | area
  · exact ⟨hdebt, hlegacy⟩
  · have harea := hpending area rfl
    refine ⟨?_, (addRefresh_covers hlegacy harea).1⟩
    rw [takeRefresh, oweRegion]
    split
    · exact hdebt
    · exact (addRefresh_covers hdebt harea).1

end

end checks

/-! ### The smallest rectangle -/

structure Solid (r : Rect) : Prop where
  small : Small16 r
  w_pos : 0 < r.w
  h_pos : 0 < r.h

theorem foldl_addRefresh_within {L : List Rect} (hL : ∀ a ∈ L, Solid a) {pending : Option Rect}
    (hpending : ∀ owed, pending = some owed → Solid owed) (r : Rect) :
    (∀ box, L.foldl addRefresh pending = some box → box.Within r) ↔
      (∀ owed, pending = some owed → owed.Within r) ∧ ∀ a ∈ L, a.Within r := by
  induction L generalizing pending with
  | nil => simp
  | cons a L ih =>
    have ha := hL a mem_cons_self
    -- one more area: the union with what is pending, which lies in `r` when both do
    have hstep : (∀ owed, addRefresh pending a = some owed → Solid owed) ∧
        ((∀ owed, addRefresh pending a = some owed → owed.Within r) ↔
          (∀ owed, pending = some owed → owed.Within r) ∧ a.Within r) := by
      rcases pending with _ | owed
      · simp [addRefresh, ha]
      · have howed := hpending owed rfl
        have hsolid : Solid (hull owed a) := by
          have hw := howed.w_pos
          have hh := howed.h_pos
          refine ⟨Rect.Inside.hull howed.small ha.small, ?_, ?_⟩ <;> simp only [hull] <;> omega
        have hwithin : (hull owed a).Within r ↔ owed.Within r ∧ a.Within r :=
          hull_within_iff howed.w_pos howed.h_pos ha.w_pos ha.h_pos
        rw [addRefresh_some howed.small ha.small]
        simp only [some.injEq, forall_eq']
        exact ⟨hsolid, hwithin⟩
    rw [foldl_cons, ih (fun b hb => hL b (mem_cons_of_mem a hb)) hstep.1, hstep.2,
      forall_mem_cons, and_assoc]

/-! ### Areas on the wire -/

structure Wire (area : InclusiveRectangle) : Prop where
  right_le : area.right ≤ 65535
  bottom_le : area.bottom ≤ 65535

/-- A pixel some area names, below the last coordinate. -/
def Requested (areas : List InclusiveRectangle) (p : Pixel) : Prop :=
  (∃ area ∈ areas, p ∈ area) ∧ p.1 < 65535 ∧ p.2 < 65535

/-- An inverted area, or one that reaches the last coordinate only from the first. -/
def Fits (area : InclusiveRectangle) : Prop :=
  (area.right < area.left ∨ area.bottom < area.top) ∨
    (area.left = 0 ∨ area.right < 65535) ∧ (area.top = 0 ∨ area.bottom < 65535)

instance (area : InclusiveRectangle) : Decidable (Fits area) := inferInstanceAs (Decidable (_ ∨ _))

variable {area : InclusiveRectangle}

theorem inclusiveToXywh_some {r : Rect} (h : inclusiveToXywh area = some r) :
    (area.left ≤ area.right ∧ area.top ≤ area.bottom) ∧
      r = ⟨area.left, area.top, min (area.right - area.left + 1) 65535,
        min (area.bottom - area.top + 1) 65535⟩ := by
  unfold inclusiveToXywh at h
  split_ifs at h with hinverted
  exact ⟨by omega, (some.inj h).symm⟩

theorem fits_iff (h : Wire area) : Fits area ↔ PendingSmall (inclusiveToXywh area) := by
  obtain ⟨hright, hbottom⟩ := h
  unfold Fits PendingSmall inclusiveToXywh
  split_ifs with hinverted
  · simp [hinverted]
  · simp only [some.injEq, forall_eq', Small16, Rect.Inside, hinverted, false_or]
    omega

theorem solid_of_fits (hwire : Wire area) (hfits : Fits area) {r : Rect}
    (h : inclusiveToXywh area = some r) : Solid r := by
  refine ⟨(fits_iff hwire).1 hfits r h, ?_, ?_⟩
  all_goals
    obtain ⟨-, rfl⟩ := inclusiveToXywh_some h
    dsimp only
    omega

theorem mem_of_fits (hwire : Wire area) (hfits : Fits area) {p : Pixel} :
    (p ∈ area ∧ p.1 < 65535 ∧ p.2 < 65535) ↔ ∃ r, inclusiveToXywh area = some r ∧ p ∈ r := by
  constructor
  · rintro ⟨hp, hx, hy⟩
    exact mem_inclusiveToXywh hp hx hy
  · rintro ⟨r, hr, hp⟩
    have hsmall := (solid_of_fits hwire hfits hr).small
    obtain ⟨⟨hleft, htop⟩, rfl⟩ := inclusiveToXywh_some hr
    simp only [Small16, Rect.Inside] at hsmall
    rw [mem_iff] at hp
    dsimp only at hp
    refine ⟨⟨⟨by omega, by omega⟩, by omega, by omega⟩, by omega, by omega⟩

/-! ### The guarantee -/

/-- What accumulating is for: no sum wraps, what is taken is the smallest rectangle around the
requested pixels, and it is what is owed when nothing was. -/
structure Accumulates (u : EgfxUpdates) (areas : List InclusiveRectangle) : Prop where
  exact : refreshChecked u areas = some (takeRefresh u (requestRefresh none areas))
  smallest : ∀ r : Rect, (∀ p, Requested areas p → p ∈ r) ↔
    ∀ box, requestRefresh none areas = some box → box.Within r
  owed : u.pendingFull = false → u.debtRect = none →
    (takeRefresh u (requestRefresh none areas)).debtRect = requestRefresh none areas

theorem takeRefresh_owed (hfull : u.pendingFull = false) (hdebt : u.debtRect = none)
    (taken : Option Rect) : (takeRefresh u taken).debtRect = taken := by
  rcases taken with _ | area
  · exact hdebt
  · simp [takeRefresh, oweRegion, hfull, hdebt]

variable {areas : List InclusiveRectangle}

theorem small_of_smallest {a : Rect} (hone : areas.filterMap inclusiveToXywh = [a])
    (hsmallest : ∀ r : Rect, (∀ p, Requested areas p → p ∈ r) → a.Within r) : Small16 a := by
  obtain ⟨area, -, hxywh⟩ := mem_filterMap.1 (hone ▸ mem_singleton_self a)
  obtain ⟨-, hrect⟩ := inclusiveToXywh_some hxywh
  obtain ⟨hw, hh⟩ : 0 < a.w ∧ 0 < a.h := by
    rw [hrect]
    dsimp only
    omega
  have hcut := hsmallest ⟨a.x, a.y, min a.w (65535 - a.x), min a.h (65535 - a.y)⟩ fun p hp => by
    obtain ⟨⟨area', harea, hmem⟩, hx, hy⟩ := hp
    obtain ⟨a', hxywh', hpa⟩ := mem_inclusiveToXywh hmem hx hy
    have hin : a' ∈ areas.filterMap inclusiveToXywh := mem_filterMap.2 ⟨area', harea, hxywh'⟩
    rw [hone, mem_singleton] at hin
    subst hin
    rw [mem_iff] at hpa ⊢
    dsimp only
    omega
  rw [within_iff hw hh] at hcut
  dsimp only at hcut
  exact ⟨by omega, by omega⟩

theorem requestRefresh_checked (hwire : ∀ area ∈ areas, Wire area)
    (hfits : ∀ area ∈ areas, Fits area) :
    (areas.filterMap inclusiveToXywh).foldlM addRefreshChecked none = some
    (requestRefresh none areas) ∧
      PendingSmall (requestRefresh none areas) := by
  refine foldlM_of_small (fun r hr => ?_) nofun
  obtain ⟨area, harea, hxywh⟩ := mem_filterMap.1 hr
  exact (fits_iff (hwire area harea)).1 (hfits area harea) r hxywh

theorem accumulates_iff (hdebt : PendingSmall u.debtRect) (hlegacy : PendingSmall u.legacyRefresh)
    (hwire : ∀ area ∈ areas, Wire area) :
    Accumulates u areas ↔ ∀ area ∈ areas, Fits area := by
  have hmem : ∀ r, r ∈ areas.filterMap inclusiveToXywh ↔
      ∃ area ∈ areas, inclusiveToXywh area = some r := fun r => mem_filterMap
  constructor
  · intro h
    suffices hall : ∀ r ∈ areas.filterMap inclusiveToXywh, Small16 r by
      intro area harea
      exact (fits_iff (hwire area harea)).2 fun r hr => hall r ((hmem r).2 ⟨area, harea, hr⟩)
    have hexact := h.exact
    have hsmallest := h.smallest
    rw [refreshChecked, bind_eq_bind, bind_eq_some_iff] at hexact
    obtain ⟨taken, htaken, -⟩ := hexact
    unfold requestRefresh at hsmallest
    rcases hL : areas.filterMap inclusiveToXywh with _ | ⟨first, rest⟩
    · simp
    · rw [hL] at htaken hsmallest
      rw [foldlM_cons] at htaken
      obtain ⟨hrest, hfirst⟩ := small_of_foldlM htaken
      rintro r hr
      rcases mem_cons.1 hr with rfl | hr
      · by_cases hone : rest = []
        · subst hone
          refine small_of_smallest hL fun r' hr' => (hsmallest r').1 hr' r ?_
          rfl
        · exact hfirst hone
      · exact hrest r hr
  · intro hfits
    have hsmall : ∀ r ∈ areas.filterMap inclusiveToXywh, Solid r := by
      intro r hr
      obtain ⟨area, harea, hxywh⟩ := (hmem r).1 hr
      exact solid_of_fits (hwire area harea) (hfits area harea) hxywh
    obtain ⟨hchecked, htaken⟩ := requestRefresh_checked hwire hfits
    refine ⟨?_, fun r => ?_, fun hfull hnothing => takeRefresh_owed hfull hnothing _⟩
    · rw [refreshChecked, hchecked]
      exact takeRefreshChecked_of_small hdebt hlegacy htaken
    · rw [requestRefresh, foldl_addRefresh_within hsmall (by simp) r]
      constructor
      · intro hr
        refine ⟨by simp, fun a ha p hp => ?_⟩
        obtain ⟨area, harea, hxywh⟩ := (hmem a).1 ha
        obtain ⟨hparea, hx, hy⟩ := (mem_of_fits (hwire area harea) (hfits area harea)).2
            ⟨a, hxywh, hp⟩
        exact hr p ⟨⟨area, harea, hparea⟩, hx, hy⟩
      · rintro ⟨-, hall⟩ p ⟨⟨area, harea, hp⟩, hx, hy⟩
        obtain ⟨a, hxywh, hpa⟩ := mem_inclusiveToXywh hp hx hy
        exact hall a ((hmem a).2 ⟨area, harea, hxywh⟩) p hpa

def lookAt (u : EgfxUpdates) (areas : List InclusiveRectangle) : EgfxUpdates :=
  takeRefresh u (requestRefresh none areas)

/-- **Refresh areas accumulate exactly**, look after look, when all of them fit. -/
theorem accumulates_along_iff {u : EgfxUpdates} (hdebt : PendingSmall u.debtRect)
    (hlegacy : PendingSmall u.legacyRefresh) {looks : List (List InclusiveRectangle)}
    (hwire : ∀ areas ∈ looks, ∀ area ∈ areas, Wire area) :
    Along lookAt Accumulates u looks ↔ ∀ areas ∈ looks, ∀ area ∈ areas, Fits area := by
  have hstep : ∀ (u : EgfxUpdates) (areas : List InclusiveRectangle),
      PendingSmall u.debtRect ∧ PendingSmall u.legacyRefresh → (∀ area ∈ areas, Wire area) →
        (Accumulates u areas ↔ ∀ area ∈ areas, Fits area) ∧
          (Accumulates u areas →
            PendingSmall (lookAt u areas).debtRect ∧
            PendingSmall (lookAt u areas).legacyRefresh) := by
    intro u areas hsmall hareas
    have hiff := accumulates_iff hsmall.1 hsmall.2 hareas
    refine ⟨hiff, fun haccumulates => ?_⟩
    exact takeRefresh_small hsmall.1 hsmall.2 (requestRefresh_checked hareas
      (hiff.1 haccumulates)).2
  rw [along_iff_along hstep ⟨hdebt, hlegacy⟩ (along_of_forall hwire)]
  clear hwire hdebt hlegacy
  induction looks generalizing u with
  | nil => simp
  | cons areas looks ih =>
    rw [along_cons, forall_mem_cons]
    exact and_congr_right fun _ => ih

def idle : EgfxUpdates := { new (1920, 1080) 0 0 false with pendingFull := false }

theorem accumulates_two_looks :
    Along lookAt Accumulates idle
      [[⟨0, 0, 65535, 99⟩, ⟨10, 20, 5, 30⟩], [⟨100, 200, 300, 65534⟩]] := by
  refine (accumulates_along_iff ?_ ?_ ?_).2 (by decide)
  · intro r hr
    simp [idle, new] at hr
  · intro r hr
    simp [idle, new] at hr
  · intro areas hareas area harea
    simp only [mem_cons, not_mem_nil, or_false] at hareas
    rcases hareas with rfl | rfl
    · simp only [mem_cons, not_mem_nil, or_false] at harea
      rcases harea with rfl | rfl <;> exact ⟨by decide, by decide⟩
    · obtain rfl := mem_singleton.1 harea
      exact ⟨by decide, by decide⟩

/-- Two areas, the second up to the last column: the sum wraps. The build that checks stops, and in
the release build the debt stays the first area. -/
theorem refresh_wraps :
    refreshChecked idle [⟨0, 0, 9, 9⟩, ⟨1, 0, 65535, 9⟩] = none ∧
      (takeRefresh idle (requestRefresh none [⟨0, 0, 9, 9⟩, ⟨1, 0, 65535, 9⟩])).debtRect =
        some ⟨0, 0, 10, 10⟩ := by decide

end Linrdp.Server.RefreshDebt
