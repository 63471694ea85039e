import Linrdp.Display.Routing
import Linrdp.Lib.Runs

/-!
# Are held frames delivered to a legacy client?

While the graphics pipeline is expected, `next_update` holds grabs back. `held` collects the pixels
they reported as damage, until a frame goes through the pipeline or the first grab takes the legacy
path. `delivered_iff`: that bitmap brings them exactly when its grab alone happens to cover them.
-/

namespace Linrdp.Display.Held

open Lib.Rects Lib.Runs Display.Frame Display.Routing
open Capture.Grabber

variable {σ : Type}

structure GrabCall (σ : Type) where
  refresh : Option Rect
  situation : Situation
  pipeline : Pipeline σ
  env : σ
  grab : SourceGrab
  input : FrameInput

structure State where
  u : EgfxUpdates
  held : Pixel → Bool

def start (desktop : ℕ × ℕ) (settleUntil now : ℕ) (avc444v2Allowed : Bool) : State :=
  ⟨EgfxUpdates.new desktop settleUntil now avc444v2Allowed, fun _ => false⟩

variable (s : State) (c : GrabCall σ)

def before : EgfxUpdates := takeRefresh s.u c.refresh

def outcome : Option DisplayUpdate × Loop σ :=
  routeGrab c.pipeline ⟨before s c, c.env, []⟩ c.situation c.grab.grab c.input

def holdBack (held : Pixel → Bool) (g : Grab) : Pixel → Bool := fun p =>
  held p || g.damage.any fun d => decide (p ∈ d)

def step : State :=
  ⟨(outcome s c).2.u,
    match decision (before s c) c.situation with
    | .hold => holdBack s.held c.grab.grab
    | .legacy => fun _ => false
    | .egfx => fun p => s.held p && !sentFrame (outcome s c).2.trace⟩

/-- **Held frames arrive**: a grab on the legacy path returns a bitmap with every held pixel. -/
def Delivered : Prop :=
  decision (before s c) c.situation = .legacy →
    ∀ p, s.held p = true → ∃ b, (outcome s c).1 = some (.bitmap b) ∧ p ∈ b

/-- The grab covers what was held: it has the size the client knows, and each held pixel lies in the
box around its damage and the area to be redrawn. -/
def Covered : Prop :=
  decision (before s c) c.situation = .legacy →
    ∀ p, s.held p = true →
      KnownSize s.u c.grab.grab ∧
        ∃ b, legacyBox c.grab.grab (before s c).legacyRefresh = some b ∧ p ∈ b

theorem takeRefresh_legacySize (u : EgfxUpdates) (refresh : Option Rect) :
    (takeRefresh u refresh).legacySize = u.legacySize := by
  obtain ⟨full, debt, area, heq⟩ := takeRefresh_eq u refresh
  rw [heq]

theorem seeHandle_legacy (u : EgfxUpdates) (s : Situation) :
    (seeHandle u s).legacySize = u.legacySize ∧
      (seeHandle u s).legacyRefresh = u.legacyRefresh := by
  obtain ⟨seen, heq⟩ := seeHandle_eq u s
  rw [heq]
  exact ⟨rfl, rfl⟩

theorem delivered_iff_covered : Delivered s c ↔ Covered s c := by
  refine forall_congr' fun hlegacy => forall_congr' fun p => forall_congr' fun _ => ?_
  obtain ⟨hsize, hrefresh⟩ := seeHandle_legacy (before s c) c.situation
  rw [outcome, routeGrab]
  simp only [show decision (before s c) c.situation = .legacy from hlegacy]
  rw [mem_legacyGrab, hrefresh, KnownSize, hsize, before,
    takeRefresh_legacySize, ← KnownSize]

/-- **Held frames and the legacy path.** Over every sequence of grabs, what was held is delivered
exactly when the first legacy grab covers it by itself. -/
theorem delivered_iff (desktop : ℕ × ℕ) (settleUntil now : ℕ) (avc444v2Allowed : Bool)
    (calls : List (GrabCall σ)) :
    Along step Delivered (start desktop settleUntil now avc444v2Allowed) calls ↔
      Along step Covered (start desktop settleUntil now avc444v2Allowed) calls :=
  along_congr delivered_iff_covered _ calls

/-! ### A client that never opens its channel -/

def waiting (now : ℕ) (changed : Bool) : GrabCall Unit where
  refresh := none
  situation := ⟨none, false, false, true, now⟩
  pipeline := accepting
  env := ()
  grab := onePixel changed
  input := ⟨1000, false, false, .joined, 0, false⟩

/-- The first grab is held; after the grace period nothing has changed since, and no bitmap is
returned. -/
theorem held_pixel_never_delivered :
    ¬ Along step Delivered (start (1, 1) 0 0 false) [waiting 0 true, waiting 1500 false] := by
  rintro ⟨-, h, -⟩
  have hlegacy : decision (before (step (start (1, 1) 0 0 false) (waiting 0 true))
    (waiting 1500 false)) (waiting 1500 false).situation = .legacy := by decide
  obtain ⟨b, hb, -⟩ := h hlegacy (0, 0) (by decide)
  have hnone : (outcome (step (start (1, 1) 0 0 false) (waiting 0 true))
    (waiting 1500 false)).1 = none := by decide
  rw [hnone] at hb
  simp at hb

end Linrdp.Display.Held
