import Mathlib.Data.List.Basic
import Mathlib.Data.Rat.Defs

/-!
# The desk's monitors and the two ways an attach reconfigures them

A desk's layout is what `GetCurrentState` reports of it. `fit` switches a single monitor to the mode
that fits the client, `makeSole` replaces the whole layout by one virtual monitor; the answer of
`ApplyMonitorsConfig` is an input. How well a mode fits is floating-point scoring and is the
parameter `best`.
-/

namespace Linrdp.Wayland.DisplayMode

structure Mode where
  id : String
  (width height : ℕ)
  current : Bool
deriving DecidableEq

structure Monitor where
  connector : String
  modes : List Mode
deriving DecidableEq

open Monitor

structure Logical where
  (x y : ℤ)
  scale : ℚ
  transform : ℕ
  primary : Bool
  monitors : List (String × String)
deriving DecidableEq

structure Layout where
  monitors : List Monitor
  logical : List Logical
deriving DecidableEq

/-- The mode that fits a client of the given size best, if there is any mode. -/
abbrev BestMode := List Mode → ℕ × ℕ → Option Mode

def Monitor.inMode (m : Monitor) (modeId : String) : Monitor :=
  { m with modes := m.modes.map fun mode => { mode with current := mode.id == modeId } }

def Monitor.off (m : Monitor) : Monitor :=
  { m with modes := m.modes.map fun mode => { mode with current := false } }

/-- How `ApplyMonitorsConfig` answers at the monitor's own scale, and at scale one. -/
structure ApplyReply where
  (atScale atOne : Bool)

/-- Switch the one monitor to `modeId`. A scale the mode does not support is given up for one. -/
def apply (reply : ApplyReply) (m : Monitor) (l : Logical) (modeId : String) : Option Layout :=
  let at_ (scale : ℚ) : Layout :=
    ⟨[m.inMode modeId], [⟨0, 0, scale, l.transform, true, [(m.connector, modeId)]⟩]⟩
  if reply.atScale then some (at_ l.scale)
  else if l.scale ≠ 1 ∧ reply.atOne then some (at_ 1) else none

/-- Fit the monitor to a client. A layout of several monitors is left alone, and so is one whose
best mode is the current one; every error leaves the layout as it is. -/
def fit (best : BestMode) (read : Bool) (reply : ApplyReply) (want : ℕ × ℕ) (l : Layout) : Layout :=
  match read, l.monitors, l.logical with
  | true, [monitor], [logical] =>
    match best monitor.modes want with
    | none => l
    | some mode => if mode.current then l else (apply reply monitor logical mode.id).getD l
  | _, _, _ => l

structure Virtual where
  (connector modeId : String)

/-- Make the virtual monitor the only one of the layout, the desk's own monitors off. -/
def makeSole (v : Virtual) (l : Layout) : Layout :=
  ⟨l.monitors.map off, [⟨0, 0, 1, 0, true, [(v.connector, v.modeId)]⟩]⟩

/-- One monitor at one logical monitor, in mode `i`. -/
def simple (m : Monitor) (scale : ℚ) (transform : ℕ) (i : String) : Layout :=
  ⟨[m.inMode i], [⟨0, 0, scale, transform, true, [(m.connector, i)]⟩]⟩

@[simp] theorem off_inMode (m : Monitor) (i : String) : (m.inMode i).off = m.off := by
  simp [inMode, off, Function.comp_def]

theorem fit_of_not_simple {best : BestMode} {read : Bool} {reply : ApplyReply} {want : ℕ × ℕ}
    {l : Layout} (h : ¬ ∃ m g, l.monitors = [m] ∧ l.logical = [g]) :
    fit best read reply want l = l := by
  unfold fit
  split
  case h_1 monitor logical hm hg => exact absurd ⟨monitor, logical, hm, hg⟩ h
  case h_2 => rfl

end Linrdp.Wayland.DisplayMode
