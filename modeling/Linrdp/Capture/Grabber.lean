import Mathlib.Algebra.Order.Ring.Nat
import Linrdp.Capture.TileDamage

/-!
# The X11 screen grabber

`ScreenGrabber` of `capture.rs`. What the X server answers during a poll is the input `Answers`;
each request is made at most once in a poll, so one field per request is enough. The poll is cut in
two where `compute_tile_damage` is called: `acquire` is everything before, and says which frame the
call is on.
-/

namespace Linrdp.Capture.Grabber

open Lib.Rects Capture.TileDamage

structure Frame where
  (width height : ℕ)
  data : Bytes
deriving DecidableEq

structure Grab where
  frame : Frame
  damage : Option Rect
  (changedTiles totalTiles : ℕ)
deriving DecidableEq

inductive PollKind
  | idle | frame | failed

def grabFailuresBeforeReconnect : ℕ := 30

def grabReconnectRetryEvery : ℕ := 60

def shmMaxFailures : ℕ := 5

def fixedSizeCheckInterval : ℕ := 2000

structure GrabFailures where
  consecutive : ℕ

def GrabFailures.record (f : GrabFailures) : PollKind → Option ℕ × GrabFailures
  | .idle => (none, f)
  | .frame => (none, ⟨0⟩)
  | .failed =>
    let n := min (f.consecutive + 1) (2 ^ 32 - 1)
    let due := n = grabFailuresBeforeReconnect ∨
      grabFailuresBeforeReconnect < n ∧
        (n - grabFailuresBeforeReconnect) % grabReconnectRetryEvery = 0
    (if due then some n else none, ⟨n⟩)

structure ScreenGrabber where
  (width height : ℕ)
  /-- The source keeps the bytes alone; the size is the one they were grabbed at. -/
  prevFrame : Option Frame
  failures : GrabFailures
  shm : Option ℕ
  shmFailures : ℕ
  (shmBroken damage damageOk forceGrab : Bool)
  fixedSize : Option (ℕ × ℕ)
  nextSizeCheck : ℕ

def ScreenGrabber.new (width height now : ℕ) : ScreenGrabber :=
  ⟨width, height, none, ⟨0⟩, none, 0, false, false, false, true, none, now⟩

inductive XEvent
  | damageNotify | other
deriving DecidableEq

inductive XReply
  | event (e : XEvent)
  | error

structure Answers where
  setup : Bool
  events : List XReply
  now : ℕ
  /-- the geometry before, and after, a pinned size is re-asserted -/
  driftGeometry : Option (ℕ × ℕ)
  randrResize : Bool
  geometry : Option (ℕ × ℕ)
  shmCreate : Bool
  shmImage : Option (ℕ → UInt8)
  coreImage : Option Bytes
  connect : Option (ℕ × ℕ)

variable (g : ScreenGrabber)

def setFixedSize (size : Option (ℕ × ℕ)) : ScreenGrabber := { g with fixedSize := size }

variable (a : Answers)

def reconnect : ScreenGrabber :=
  match a.connect with
  | none => g
  | some (w, h) =>
    { g with width := w, height := h, prevFrame := none, shm := none, shmFailures := 0,
             shmBroken := false, damage := false, damageOk := false, forceGrab := true }

def currentGeometry (answer : Option (ℕ × ℕ)) : ℕ × ℕ := answer.getD (g.width, g.height)

/-! ### The damage gate -/

def drain : Bool → List XReply → Bool
  | pending, [] => pending
  | pending, .event e :: rs => drain (pending || e == .damageNotify) rs
  | _, .error :: _ => true

def damagePending : Bool × ScreenGrabber :=
  if !g.damageOk && !g.damage then
    if a.setup then (drain false a.events, { g with damage := true, damageOk := true })
    else (true, g)
  else if !g.damageOk then (true, g)
  else (drain false a.events, g)

variable (debtDue : Bool)

def gate (a : Answers) : Bool × ScreenGrabber :=
  if g.forceGrab || debtDue then (true, { g with forceGrab := false })
  else damagePending { g with forceGrab := false } a

/-! ### The grab -/

def reasserts (size : ℕ × ℕ) : Bool :=
  g.nextSizeCheck ≤ a.now && currentGeometry g a.driftGeometry != size && a.randrResize

def enforceFixedSize : ScreenGrabber :=
  match g.fixedSize with
  | none => g
  | some size =>
    let checked := if g.nextSizeCheck ≤ a.now then
      { g with nextSizeCheck := a.now + fixedSizeCheckInterval } else g
    if reasserts g a size then { checked with width := size.1, height := size.2 } else checked

def prepareShm (want : ℕ) : ScreenGrabber :=
  let g := if g.shm.any (· != want) then { g with shm := none } else g
  if g.shm.isNone && !g.shmBroken && 0 < want then
    if a.shmCreate then { g with shm := some want } else { g with shmBroken := true }
  else g

def shmFailed : ScreenGrabber :=
  { g with shm := none, shmFailures := g.shmFailures + 1,
           shmBroken := g.shmBroken || shmMaxFailures ≤ g.shmFailures + 1 }

def readImage : Option Bytes × ScreenGrabber :=
  match g.shm, a.shmImage with
  | some size, some segment => (some ((List.range size).map segment), { g with shmFailures := 0 })
  | some _, none => (a.coreImage, shmFailed g)
  | none, _ => (a.coreImage, g)

def grab : Option Frame × ScreenGrabber :=
  let g := enforceFixedSize g a
  let size := currentGeometry g a.geometry
  let r := readImage (prepareShm g a (size.1 * size.2 * 4)) a
  (r.1.map fun data => ⟨size.1, size.2, data⟩, r.2)

/-! ### The poll -/

inductive Acquired
  | idle | failed
  | frame (f : Frame)

def adopt (r : Option Frame × ScreenGrabber) : Acquired × ScreenGrabber :=
  match r.1 with
  | none => (.failed, r.2)
  | some f =>
    if f.data.length ≠ f.width * 4 * f.height then (.failed, r.2)
    else if r.2.width ≠ f.width ∨ r.2.height ≠ f.height then
      (.frame f, { r.2 with width := f.width, height := f.height, prevFrame := none })
    else (.frame f, r.2)

/-- `poll_inner` up to its call of `compute_tile_damage`. -/
def acquire (a : Answers) : Acquired × ScreenGrabber :=
  let r := gate g debtDue a
  if r.1 then adopt (grab r.2 a) else (.idle, r.2)

inductive PollOutcome
  | idle
  | frame (g : Grab)
  | failed
  /-- the comparison indexed out of range -/
  | panicked
deriving DecidableEq

def compareWithPrev (f : Frame) (g : ScreenGrabber) : PollOutcome × ScreenGrabber :=
  match computeTileDamage (g.prevFrame.map Frame.data) f.data f.width f.height with
  | none => (.panicked, g)
  | some (damage, changed, total) =>
    (.frame ⟨f, damage, changed, total⟩,
      if damage.isSome then { g with prevFrame := some f } else g)

def pollInner (a : Answers) : PollOutcome × ScreenGrabber :=
  match acquire g debtDue a with
  | (.idle, g) => (.idle, g)
  | (.failed, g) => (.failed, g)
  | (.frame f, g) => compareWithPrev f g

def settle (kind : PollKind) : ScreenGrabber :=
  let r := g.failures.record kind
  if r.1.isSome then reconnect { g with failures := r.2 } a else { g with failures := r.2 }

def poll (g : ScreenGrabber) (debtDue : Bool) (a : Answers) : Option Grab × ScreenGrabber :=
  match pollInner g debtDue a with
  | (.idle, g) => (none, settle g a .idle)
  | (.failed, g) => (none, settle g a .failed)
  | (.frame grab, g) => (some grab, settle g a .frame)
  -- the panic unwinds: nothing of `poll` runs after it
  | (.panicked, g) => (none, g)

end Linrdp.Capture.Grabber
