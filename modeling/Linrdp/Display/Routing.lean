import Linrdp.Display.Frame

/-!
# Where a grab goes

`next_update` of `gfx_display.rs`, from a consumed grab to what it returns: the decision between the
graphics pipeline, legacy bitmaps and holding the frame back (`egfx_decision`), the legacy bitmap
and resize updates, and the areas the client asked to have redrawn. Pointer updates are left out.
-/

namespace Linrdp.Display.Routing

open Lib.Rects Display.Rects Display.Frame
open Capture.Grabber Option

inductive EgfxDecision
  | egfx | legacy | hold
deriving DecidableEq

structure EgfxState where
  (ready latched unavailable clientSupports : Bool)
  waited : Option ℕ
  sinceStart : ℕ

def legacyGrace : ℕ := 1500

def egfxReadyDeadline : ℕ := 3000

def egfxDecision (state : EgfxState) : EgfxDecision :=
  if state.ready then .egfx
  else if state.latched then if state.unavailable then .legacy else .hold
  else if !state.clientSupports then .legacy
  else if state.unavailable then .legacy
  else
    match state.waited with
    | some waited => if egfxReadyDeadline ≤ waited then .legacy else .hold
    | none => if legacyGrace ≤ state.sinceStart then .legacy else .hold

theorem egfxDecision_legacy {state : EgfxState} (h : egfxDecision state = .legacy) :
    state.ready = false ∧ (state.latched = true → state.unavailable = true) := by
  unfold egfxDecision at h
  split_ifs at h with hready hlatched hunavailable hsupports
  all_goals simp_all

/-- What a frame is not held back for. -/
theorem egfxDecision_legacy_of {state : EgfxState} (h : egfxDecision state = .legacy) :
    state.clientSupports = false ∨ state.unavailable = true ∨
      (∃ waited, state.waited = some waited ∧ egfxReadyDeadline ≤ waited) ∨
      state.waited = none ∧ legacyGrace ≤ state.sinceStart := by
  unfold egfxDecision at h
  rcases hwaited : state.waited with _ | waited <;> rw [hwaited] at h <;> dsimp only at h
  all_goals split_ifs at h with hready hlatched hunavailable hsupports hunavailable hlapsed
  · exact .inr (.inl hunavailable)
  · exact .inl (by simpa using hsupports)
  · exact .inr (.inl hunavailable)
  · exact .inr (.inr (.inr ⟨rfl, hlapsed⟩))
  · exact .inr (.inl hunavailable)
  · exact .inl (by simpa using hsupports)
  · exact .inr (.inl hunavailable)
  · exact .inr (.inr (.inl ⟨waited, rfl, hlapsed⟩))

theorem egfxDecision_egfx {state : EgfxState} : egfxDecision state = .egfx ↔
    state.ready = true := by
  rcases hready : state.ready with _ | _
  · simp only [egfxDecision, hready, Bool.false_eq_true, if_false, iff_false]
    repeat' split
    all_goals simp
  · simp [egfxDecision, hready]

inductive DisplayUpdate
  | resize (width height : ℕ)
  | bitmap (r : Rect)

def legacyResize (known : Option (ℕ × ℕ)) (width height : ℕ) :
    Option DisplayUpdate × Option (ℕ × ℕ) :=
  match known with
  | none => (none, some (width, height))
  | some previous =>
    (if previous = (width, height) then none else some (.resize width height),
      some (width, height))

def legacyDisplayUpdateOf (r : Rect) : Option DisplayUpdate :=
  if r.w = 0 ∨ r.h = 0 then none else some (.bitmap r)

def legacyUpdate (g : Grab) (refresh : Option Rect) : Option DisplayUpdate :=
  match g.damage, refresh.bind fun area => clampToFrame area g.frame.width g.frame.height with
  | some damage, some refresh => legacyDisplayUpdateOf (unionRect damage refresh)
  | some damage, none => legacyDisplayUpdateOf damage
  | none, some refresh => legacyDisplayUpdateOf refresh
  | none, none => none

/-- The box a legacy bitmap for the grab covers: around the damage and the part of the frame that is
to be redrawn. -/
def legacyBox (g : Grab) (refresh : Option Rect) : Option Rect :=
  match g.damage, refresh.bind fun area => clampToFrame area g.frame.width g.frame.height with
  | some damage, some refresh => some (Rect.hull damage refresh)
  | damage, refresh => damage.or refresh

theorem legacyUpdate_eq (g : SourceGrab) (refresh : Option Rect) :
    legacyUpdate g.grab refresh = (legacyBox g.grab refresh).bind legacyDisplayUpdateOf := by
  rw [legacyUpdate, legacyBox]
  rcases hd : g.grab.damage with _ | d <;>
    rcases hr : refresh.bind fun area =>
      clampToFrame area g.grab.frame.width g.grab.frame.height with _ | r
  · rfl
  · rfl
  · rfl
  · obtain ⟨area, -, harea⟩ := bind_eq_some_iff.1 hr
    have hdamage := Small16.of_inside (g.inside d hd) g.width_le g.height_le
    have hrefresh := Small16.of_inside (clampToFrame_inside harea) g.width_le g.height_le
    dsimp only
    rw [unionRect_eq_hull hdamage hrefresh]
    rfl

theorem legacyBox_inside {g : SourceGrab} {refresh : Option Rect} {b : Rect}
    (h : legacyBox g.grab refresh = some b) :
    b.Inside g.grab.frame.width g.grab.frame.height := by
  unfold legacyBox at h
  rcases hd : g.grab.damage with _ | d <;>
    rcases hr : refresh.bind fun area =>
      clampToFrame area g.grab.frame.width g.grab.frame.height with _ | r
  · simp [hd, hr] at h
  · obtain ⟨area, -, harea⟩ := bind_eq_some_iff.1 hr
    obtain rfl : r = b := by simpa [hd, hr] using h
    exact clampToFrame_inside harea
  · obtain rfl : d = b := by simpa [hd, hr] using h
    exact g.inside d hd
  · obtain ⟨area, -, harea⟩ := bind_eq_some_iff.1 hr
    obtain rfl : Rect.hull d r = b := by simpa [hd, hr] using h
    exact (g.inside d hd).hull (clampToFrame_inside harea)

/-! ### The loop -/

/-- `RefreshRequests::add`: the areas asked for are kept as one box. -/
def addRefresh (pending : Option Rect) (area : Rect) : Option Rect :=
  some (pending.elim area fun owed => unionRect owed area)

variable (u : EgfxUpdates)

def takeRefresh : Option Rect → EgfxUpdates
  | none => u
  | some area =>
    { oweRegion u area with
      legacyRefresh := addRefresh u.legacyRefresh area }

structure Situation where
  handle : Option ℕ
  (ready unavailable clientSupports : Bool)
  now : ℕ

variable (s : Situation)

def seeHandle : EgfxUpdates :=
  if s.handle.isSome && u.handleFirstSeen.isNone then { u with handleFirstSeen := some s.now }
  else u

theorem seeHandle_eq :
    ∃ seen, seeHandle u s = { u with handleFirstSeen := seen } := by
  unfold seeHandle
  split_ifs
  · exact ⟨_, rfl⟩
  · exact ⟨u.handleFirstSeen, rfl⟩

theorem takeRefresh_eq (refresh : Option Rect) :
    ∃ full debt area, takeRefresh u refresh =
      { u with pendingFull := full, debtRect := debt, legacyRefresh := area } := by
  rcases refresh with _ | area
  · exact ⟨u.pendingFull, u.debtRect, u.legacyRefresh, rfl⟩
  · simp only [takeRefresh, oweRegion]
    split_ifs
    · exact ⟨u.pendingFull, u.debtRect, _, rfl⟩
    · exact ⟨_, _, _, rfl⟩

def egfxState : EgfxState where
  ready := s.handle.isSome && s.ready
  latched := u.egfxLatched
  unavailable := s.unavailable
  clientSupports := s.clientSupports
  waited := u.handleFirstSeen.map fun seen => s.now - seen
  sinceStart := s.now - u.started

def decision : EgfxDecision := egfxDecision (egfxState (seeHandle u s) s)

def legacyGrab (g : Grab) : Option DisplayUpdate × EgfxUpdates :=
  match legacyResize u.legacySize g.frame.width g.frame.height with
  | (some resize, known) => (some resize, { u with legacySize := known })
  | (none, known) =>
    (legacyUpdate g u.legacyRefresh, { u with legacySize := known, legacyRefresh := none })

def KnownSize (g : Grab) : Prop :=
  ∀ size, u.legacySize = some size → size = (g.frame.width, g.frame.height)

theorem legacyGrab_bitmap_iff {u : EgfxUpdates} {g : SourceGrab} {b : Rect} :
    (legacyGrab u g.grab).1 = some (.bitmap b) ↔
      KnownSize u g.grab ∧ legacyBox g.grab u.legacyRefresh = some b ∧ 0 < b.w ∧ 0 < b.h := by
  have hbitmap : legacyUpdate g.grab u.legacyRefresh = some (.bitmap b) ↔
      legacyBox g.grab u.legacyRefresh = some b ∧ 0 < b.w ∧ 0 < b.h := by
    rw [legacyUpdate_eq]
    rcases legacyBox g.grab u.legacyRefresh with _ | box
    · simp
    · simp only [bind_some, legacyDisplayUpdateOf, some.injEq]
      split_ifs with hempty
      · simp only [false_iff, not_and]
        rintro rfl
        omega
      · simp only [some.injEq, DisplayUpdate.bitmap.injEq]
        constructor
        · rintro rfl
          exact ⟨rfl, by omega⟩
        · exact fun h => h.1
  rw [legacyGrab, ← hbitmap, KnownSize]
  rcases u.legacySize with _ | size
  · simp [legacyResize]
  · by_cases hsize : size = (g.grab.frame.width, g.grab.frame.height) <;>
      simp [legacyResize, hsize]

theorem mem_legacyGrab {u : EgfxUpdates} {g : SourceGrab} {p : Pixel} :
    (∃ b, (legacyGrab u g.grab).1 = some (.bitmap b) ∧ p ∈ b) ↔
      KnownSize u g.grab ∧ ∃ b, legacyBox g.grab u.legacyRefresh = some b ∧ p ∈ b := by
  simp only [legacyGrab_bitmap_iff]
  constructor
  · rintro ⟨b, ⟨hknown, hbox, -⟩, hp⟩
    exact ⟨hknown, b, hbox, hp⟩
  · rintro ⟨hknown, b, hbox, hp⟩
    obtain ⟨hx, hy⟩ := mem_iff.1 hp
    exact ⟨b, ⟨hknown, hbox, by omega, by omega⟩, hp⟩

def latch : EgfxUpdates := { u with egfxLatched := true, legacyRefresh := none }

def routeGrab {σ : Type} (P : Pipeline σ) (l : Loop σ) (s : Situation) (g : Grab) (i : FrameInput) :
    Option DisplayUpdate × Loop σ :=
  let u := seeHandle l.u s
  match decision l.u s with
  | .hold => (none, { l with u := u })
  | .legacy =>
    let r := legacyGrab u g
    (r.1, { l with u := r.2 })
  | .egfx =>
    -- a decision for the pipeline comes with a handle
    (none, s.handle.elim { l with u := u } fun handle =>
      processFrame P { l with u := latch u } handle s.now g i)

end Linrdp.Display.Routing
