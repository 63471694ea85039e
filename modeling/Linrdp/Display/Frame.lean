import Linrdp.Capture.Grabber
import Linrdp.Display.Rects
import Linrdp.Graphics.ClearCodec

/-!
# One grab through the graphics pipeline

`egfx_frame` of `gfx_display.rs` and what it calls: the surface is re-created when the connection or
the size changed, a frame is skipped, repaid, encoded as H.264 or as ClearCodec, and whatever does
not reach the client is recorded as debt (`pendingFull` and `debtRect`).

`Pipeline σ` holds the calls the loop makes on the pipeline server. What depends on the machine (the
measured budget, whether x264 comes up, how an encode task ends) is the input `FrameInput`; while
the one encode task of a frame runs, others may change the server (`Pipeline.await`).
-/

namespace Linrdp.Display.Frame

open Lib.Rects Display.Rects Graphics.ClearCodec
open Capture.TileDamage Capture.Grabber

structure SurfaceState where
  (id width height : ℕ)

structure Encoders where
  h264 : Bool
  clear : ClearCodecEncoder

/-- The state of the display loop. Times are in milliseconds, a handle is a number. -/
structure EgfxUpdates where
  encoders : Option Encoders
  surface : Option SurfaceState
  generation : Option ℕ
  /-- none: long ago -/
  lastH264 : Option ℕ
  pendingFull : Bool
  (debtRect legacyRefresh : Option Rect)
  inMotion : Bool
  (motionUntil capsResetUntil settleUntil : ℕ)
  legacySize : Option (ℕ × ℕ)
  egfxLatched : Bool
  handleFirstSeen : Option ℕ
  (avcDisabled avc444v2Allowed avc444v2Enabled : Bool)
  (clearSeq started : ℕ)
  encBuilt : Bool

def EgfxUpdates.new (desktop : ℕ × ℕ) (settleUntil now : ℕ) (avc444v2Allowed : Bool) :
    EgfxUpdates where
  encoders := none
  surface := none
  generation := none
  lastH264 := none
  pendingFull := true
  debtRect := none
  legacyRefresh := none
  inMotion := false
  motionUntil := now
  capsResetUntil := now
  settleUntil := settleUntil
  legacySize := some desktop
  egfxLatched := false
  handleFirstSeen := none
  avcDisabled := false
  avc444v2Allowed := avc444v2Allowed
  avc444v2Enabled := false
  clearSeq := 0
  started := now
  encBuilt := false

def motionNum : ℕ := 1

def motionDen : ℕ := 8

def h264MinInterval : ℕ := 12

def capsSettle : ℕ := 250

def motionLinger : ℕ := 250

def resizeSettle : ℕ := 1500

structure Pipeline (σ : Type) where
  (supportsAvc420 supportsAvc444v2 : σ → Bool)
  resize : σ → ℕ → ℕ → σ
  createSurface : σ → ℕ → ℕ → Option ℕ × σ
  hasSurface : σ → ℕ → Bool
  shouldBackpressure : σ → Bool
  await : σ → σ
  sendClearcodec : σ → ℕ → Rect → ClearMessage → Bool × σ
  /-- AVC420, or AVC444v2 -/
  sendH264 : σ → Bool → ℕ → Bool × σ

inductive Join
  | joined
  /-- the task failed, and its encoders are gone -/
  | lost
  /-- the frame's time ran out first -/
  | stalled

structure FrameInput where
  budgetPx : ℕ
  /-- the bitrate or the frame rate moved too far for the running encoder -/
  (drifted x264Init : Bool)
  join : Join
  took : ℕ
  lumaEmpty : Bool

structure SourceGrab where
  grab : Grab
  width_le : grab.frame.width ≤ 65535
  height_le : grab.frame.height ≤ 65535
  inside : ∀ d, grab.damage = some d → d.Inside grab.frame.width grab.frame.height

inductive Shown
  | surface (width height : ℕ)
  | clear (r : Rect) (m : ClearMessage)
  | h264 (width height : ℕ)
  /-- no H.264 data, the client showing the frame already -/
  | same (width height : ℕ)

def sentFrame (trace : List Shown) : Bool :=
  trace.any fun
    | .clear _ _ => true
    | .h264 _ _ => true
    | _ => false

structure Loop (σ : Type) where
  u : EgfxUpdates
  env : σ
  trace : List Shown

/-! ### The debt -/

def oweRegion (u : EgfxUpdates) (r : Rect) : EgfxUpdates :=
  if u.pendingFull && u.debtRect.isNone then u
  else
    { u with debtRect := some (u.debtRect.elim r fun cur => unionRect cur r), pendingFull := true }

def oweEverything (u : EgfxUpdates) : EgfxUpdates :=
  { u with pendingFull := true, debtRect := none }

def debtRegion (u : EgfxUpdates) (width height : ℕ) : Rect :=
  match u.debtRect with
  | none => ⟨0, 0, width, height⟩
  | some r =>
    let x := min r.x width
    let y := min r.y height
    ⟨x, y, min r.w (width - x), min r.h (height - y)⟩

/-! ### Surfaces -/

section

variable {σ : Type} (P : Pipeline σ)

variable (l : Loop σ)

def ensureSurface (width height : ℕ) : Loop σ :=
  let env := if l.u.surface.isSome then P.resize l.env width height else l.env
  let created := P.createSurface env width height
  let u := { l.u with
    avcDisabled := !P.supportsAvc420 env
    avc444v2Enabled := P.supportsAvc444v2 env && l.u.avc444v2Allowed
    surface := created.1.elim l.u.surface fun id => some ⟨id, width, height⟩ }
  ⟨u, created.2, l.trace ++ [.surface width height]⟩

variable (u : EgfxUpdates)

def generationChanged (handle : ℕ) : Bool := u.generation != some handle

variable (f : Frame)

def sizeChanged : Bool := !u.surface.any fun s => s.width == f.width && s.height == f.height

variable (handle now : ℕ)

def renewSurface (f : Frame) : Loop σ :=
  let renew := generationChanged l.u handle || sizeChanged l.u f
  let settle := sizeChanged l.u f && l.u.surface.isSome
  let l := { l with
    u := { l.u with settleUntil := if settle then now + resizeSettle else l.u.settleUntil } }
  if renew then
    let l := ensureSurface P l f.width f.height
    { l with u := oweEverything { l.u with generation := some handle } }
  else l

def surfaceVanished : Bool := l.u.surface.any fun s => !P.hasSurface l.env s.id

def recoverSurface (now : ℕ) (f : Frame) : Loop σ :=
  let u := { l.u with
    surface := none
    clearSeq := 0
    encoders := l.u.encoders.map fun e => { e with clear := resetSession e.clear } }
  let l := ensureSurface P { l with u := u } f.width f.height
  { l with u := { oweEverything l.u with capsResetUntil := now + capsSettle } }

/-! ### Sends -/

def takeEncoders : Encoders := u.encoders.getD ⟨false, .new⟩

variable (r : Rect)

def cropBgra : Bytes :=
  (List.range r.h).flatMap fun row => (List.range r.w).flatMap fun col =>
    let at0 := ((r.y + row) * f.width + (r.x + col)) * 4
    [f.data.getD at0 0, f.data.getD (at0 + 1) 0, f.data.getD (at0 + 2) 0, 255]

def clearMessage : ClearMessage × ClearCodecEncoder :=
  encode (setSequence (takeEncoders u).clear u.clearSeq) ⟨r.w, r.h, cropBgra f r⟩

variable (i : FrameInput)

/-- Paint a rectangle with ClearCodec: whether it went out, or nothing when the frame stalled. -/
def sendClear : Option Bool × Loop σ :=
  match l.u.surface with
  | none => (some false, l)
  | some surface =>
    let h264 := (takeEncoders l.u).h264
    let awaiting := { l with u := { l.u with encoders := none }, env := P.await l.env }
    match i.join with
    | .stalled => (none, awaiting)
    | .lost => (some false, awaiting)
    | .joined =>
      let m := clearMessage l.u f r
      let sent := P.sendClearcodec awaiting.env surface.id r m.1
      if sent.1 then
        (some true, {
          u := { l.u with
            encoders := some ⟨h264, commitGlyph m.2⟩
            clearSeq := (l.u.clearSeq + 1) % 256 }
          env := sent.2
          trace := l.trace ++ [.clear r m.1] })
      else
        (some false, { l with
          u := oweRegion { l.u with encoders := some ⟨h264, rollbackGlyph m.2⟩ } r
          env := sent.2 })

/-- Repay the debt over a rectangle, one band of it; whether the frame finished. -/
def repayDebt : Bool × Loop σ :=
  if r.w = 0 ∨ r.h = 0 then
    (true, { l with u := { l.u with pendingFull := false, debtRect := none } })
  else
    let split := splitDebtBand r i.budgetPx
    match sendClear P l f split.1 i with
    | (some true, l) =>
      let debt := settleDebt split.2
      (true, { l with u := { l.u with pendingFull := debt.1, debtRect := debt.2 } })
    | (some false, l) => (true, l)
    | (none, l) => (false, l)

def bitrateStale : Bool := !(u.encoders.any (·.h264) && u.encBuilt) || i.drifted

def rebuildH264 : EgfxUpdates :=
  { u with encoders := some ⟨true, (takeEncoders u).clear⟩, encBuilt := true }

def encodeH264 (surface : SurfaceState) (now : ℕ) (f : Frame) (damage : Rect)
    (i : FrameInput) : Option Bool × Loop σ :=
  let encoders := takeEncoders l.u
  let awaiting := { l with u := { l.u with encoders := none }, env := P.await l.env }
  match i.join with
  | .stalled => (none, awaiting)
  | .lost => (some false, awaiting)
  | .joined =>
    let u := { l.u with encoders := some encoders }
    if !encoders.h264 then (some false, { awaiting with u := oweEverything u })
    else if i.lumaEmpty then
      (some true, { awaiting with u := u, trace := l.trace ++ [.same f.width f.height] })
    else
      let sent := P.sendH264 awaiting.env l.u.avc444v2Enabled surface.id
      if sent.1 then
        (some true, {
          u := { u with lastH264 := some (now + i.took), pendingFull := false, debtRect := none }
          env := sent.2
          trace := l.trace ++ [.h264 f.width f.height] })
      else (some false, { l with u := oweRegion u damage, env := sent.2 })

def disableAvc : EgfxUpdates := { u with encoders := none, avcDisabled := true }

def repayWhole : Option Bool × Loop σ :=
  let r := repayDebt P l f (Rect.full f.width f.height) i
  (if r.1 then some false else none, r.2)

def sendH264 (now : ℕ) (f : Frame) (damage : Rect) (i : FrameInput) : Option Bool × Loop σ :=
  match l.u.surface with
  | none => (some false, l)
  | some surface =>
    if l.u.avcDisabled then repayWhole P l f i
    else if !bitrateStale l.u i then encodeH264 P l surface now f damage i
    else if i.x264Init then encodeH264 P { l with u := rebuildH264 l.u } surface now f damage i
    else repayWhole P { l with u := disableAvc l.u } f i

/-! ### The frame -/

inductive Route
  | hold
  | owe (r : Rect)
  | repay
  | h264 (damage : Rect)
  | clear (damage : Rect)

def leaveMotion (now : ℕ) : EgfxUpdates :=
  let u := { u with inMotion := u.inMotion && !decide (now < u.settleUntil) }
  if u.inMotion && u.motionUntil ≤ now then
    let u := { u with inMotion := false }
    if u.avc444v2Enabled then u else oweEverything u
  else u

variable (g : Grab)

def isMotion (now : ℕ) : Bool :=
  !decide (now < u.settleUntil) && g.totalTiles * motionNum < g.changedTiles * motionDen

def route (now : ℕ) : Route × EgfxUpdates :=
  if now < u.capsResetUntil then (.hold, u)
  else
    let u := leaveMotion u now
    match g.damage with
    | none => (if u.pendingFull then .repay else .hold, u)
    | some d =>
      if u.pendingFull && !u.inMotion then (.repay, oweRegion u d)
      else if isMotion u g now && !u.avcDisabled then
        if u.lastH264.any fun last => now < last +
          h264MinInterval then (.owe d, u) else (.h264 d, u)
      else if u.inMotion then (.owe d, u)
      else (.clear d, u)

def act (now : ℕ) (f : Frame) (i : FrameInput) : Route → Bool × Loop σ
  | .hold => (true, l)
  | .owe r => (true, { l with u := oweRegion l.u r })
  | .repay => repayDebt P l f (debtRegion l.u f.width f.height) i
  | .h264 d =>
    match sendH264 P l now f d i with
    | (some true, l) =>
      (true, { l with
        u := { l.u with inMotion := true, motionUntil := now + i.took + motionLinger } })
    | (some false, l) => (true, l)
    | (none, l) => (false, l)
  | .clear d =>
    let r := sendClear P l f d i
    (r.1.isSome, r.2)

def egfxFrame (i : FrameInput) : Bool × Loop σ :=
  let l := renewSurface P l handle now g.frame
  if surfaceVanished P l then (true, recoverSurface P l now g.frame)
  else if P.shouldBackpressure l.env then
    (true, { l with u := g.damage.elim l.u (oweRegion l.u) })
  else
    let r := route l.u g now
    act P { l with u := r.2 } now g.frame i r.1

/-- A stalled frame costs the encoders and owes everything. -/
def withinTime : Bool × Loop σ → Loop σ
  | (true, l) => l
  | (false, l) =>
    { l with u := oweEverything { l.u with encoders := none, encBuilt := false, inMotion := false }
      }

def processFrame (i : FrameInput) : Loop σ := withinTime (egfxFrame P l handle now g i)

end

/-! ### A small screen -/

def accepting : Pipeline Unit where
  supportsAvc420 _ := false
  supportsAvc444v2 _ := false
  resize _ _ _ := ()
  createSurface _ _ _ := (some 0, ())
  hasSurface _ _ := true
  shouldBackpressure _ := false
  await _ := ()
  sendClearcodec _ _ _ _ := (true, ())
  sendH264 _ _ _ := (true, ())

def onePixel (changed : Bool) : SourceGrab where
  grab := ⟨⟨1, 1, [0, 0, 0, 0]⟩, if changed then some ⟨0, 0, 1, 1⟩ else none, changed.toNat, 1⟩
  width_le := (by decide : 1 ≤ 65535)
  height_le := (by decide : 1 ≤ 65535)
  inside d hd := by
    cases changed
    · simp at hd
    · exact Option.some.inj hd ▸ by decide

end Linrdp.Display.Frame
