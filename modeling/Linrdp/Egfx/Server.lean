import Mathlib.Algebra.Order.Ring.Nat
import Linrdp.Graphics.ClearCodec

/-!
# The graphics pipeline server

`GraphicsPipelineServer` of `ironrdp-egfx/src/server.rs`: its state machine, the surface table, the
flow control of `FrameTracker`, and what it accepts. Of the PDUs to the client, `accepted` remembers
the ClearCodec messages taken since the client last advertised its capabilities. How capability sets
are negotiated is left to the caller, who gives the outcome.
-/

namespace Linrdp.Egfx.Server

open Graphics.ClearCodec

/-! ### Flow control -/

structure FrameInfo where
  (frameId sentAt sizeBytes : ℕ)

structure FrameTracker where
  unacknowledged : List FrameInfo
  clientQueueDepth : ℕ
  clientQueueDepthAt : Option ℕ
  ackSuspended : Bool
  (nextFrameId maxInFlight : ℕ)

def suspendFrameAckQueueDepth : ℕ := 0xFFFFFFFF

def clientQueueBackoff : ℕ := 250000

def maxBytesInFlight : ℕ := 2000000

def clientQueueDepthStaleAfter : ℕ := 1000

namespace FrameTracker

def new : FrameTracker := ⟨[], 0, none, false, 0, 3⟩

variable (t : FrameTracker)

def beginFrame (now : ℕ) : ℕ × FrameTracker :=
  let info := FrameInfo.mk t.nextFrameId now 0
  let rest := t.unacknowledged.filter fun i => i.frameId != t.nextFrameId
  (t.nextFrameId, { t with
    nextFrameId := (t.nextFrameId + 1) % 2 ^ 32
    unacknowledged := if t.ackSuspended then t.unacknowledged else info :: rest })

def setFrameSize (frameId sizeBytes : ℕ) : FrameTracker :=
  { t with unacknowledged := t.unacknowledged.map fun i =>
      if i.frameId = frameId then { i with sizeBytes := sizeBytes } else i }

def acknowledge (frameId queueDepth now : ℕ) : FrameTracker :=
  let rest := t.unacknowledged.filter fun i => i.frameId != frameId
  if queueDepth = suspendFrameAckQueueDepth then
    { t with
      unacknowledged := []
      ackSuspended := true
      clientQueueDepth := 0
      clientQueueDepthAt := some now }
  else
    { t with
      unacknowledged := rest
      ackSuspended := false
      clientQueueDepth := queueDepth
      clientQueueDepthAt := some now }

def inFlight : ℕ := t.unacknowledged.length % 2 ^ 32

def bytesInFlight : ℕ := (t.unacknowledged.map FrameInfo.sizeBytes).sum

def queueDepthIsStale (now : ℕ) : Bool :=
  t.clientQueueDepthAt.all fun at0 =>
    t.unacknowledged.isEmpty && at0 + clientQueueDepthStaleAfter ≤ now

def shouldBackpressure (now : ℕ) : Bool :=
  if clientQueueBackoff ≤ t.clientQueueDepth && !t.queueDepthIsStale now then true
  else if t.ackSuspended then false
  else t.maxInFlight ≤ t.inFlight || (0 < t.inFlight && maxBytesInFlight ≤ t.bytesInFlight)

def clear : FrameTracker :=
  { t with
    unacknowledged := []
    clientQueueDepth := 0
    clientQueueDepthAt := none
    ackSuspended := false }

end FrameTracker

/-! ### The server -/

inductive ServerState
  | waitingForCapabilities | ready | resizing | closed
deriving DecidableEq

structure CodecCapabilities where
  (avc420 avc444 avc444v2 : Bool)
deriving DecidableEq

structure Surface where
  (id width height : ℕ)

structure GraphicsPipelineServer where
  state : ServerState
  codecCaps : CodecCapabilities
  surfaces : List Surface
  nextSurfaceId : ℕ
  frames : FrameTracker
  closeRequested : Bool
  accepted : List ClearMessage

namespace GraphicsPipelineServer

def new : GraphicsPipelineServer where
  state := .waitingForCapabilities
  codecCaps := ⟨false, false, false⟩
  surfaces := []
  nextSurfaceId := 0
  frames := .new
  closeRequested := false
  accepted := []

variable (s : GraphicsPipelineServer)

def isReady : Bool := s.state == .ready

def getSurface (id : ℕ) : Option Surface := s.surfaces.find? fun surface => surface.id == id

def createSurface (width height : ℕ) : Option ℕ × GraphicsPipelineServer :=
  if s.state ≠ .ready ∧ s.state ≠ .resizing then (none, s)
  else
    let id := s.nextSurfaceId
    (some id, { s with
      nextSurfaceId := (id + 1) % 65536
      surfaces := ⟨id, width, height⟩ :: s.surfaces.filter fun surface => surface.id != id })

def resize : GraphicsPipelineServer :=
  if s.state ≠ .ready then s else { s with surfaces := [], frames := s.frames.clear }

def shouldBackpressure (now : ℕ) : Bool := s.frames.shouldBackpressure now

variable (now id : ℕ)

def queueFrame (codec : Bool) : Bool × GraphicsPipelineServer :=
  if !s.isReady then (false, s)
  else if !codec then (false, s)
  else if s.shouldBackpressure now then (false, s)
  else if (s.getSurface id).isNone then (false, s)
  else (true, { s with frames := (s.frames.beginFrame now).2 })

def sendAvc420Frame : Bool × GraphicsPipelineServer := s.queueFrame now id s.codecCaps.avc420

def sendAvc444v2Frame : Bool × GraphicsPipelineServer := s.queueFrame now id s.codecCaps.avc444

def sendClearcodecFrame (m : ClearMessage) : Bool × GraphicsPipelineServer :=
  let queued := s.queueFrame now id true
  (queued.1, if queued.1 then { queued.2 with accepted := s.accepted ++ [m] } else queued.2)

theorem queueFrame_spec (codec : Bool) :
    ∃ frames, (s.queueFrame now id codec).2 = { s with frames := frames } ∧
      ((s.queueFrame now id codec).1 = true → s.state = .ready ∧ (s.getSurface id).isSome) := by
  unfold queueFrame
  split_ifs with hready hcodec hpressure hsurface
  iterate 4 exact ⟨s.frames, rfl, fun h => by simp at h⟩
  · refine ⟨_, rfl, fun _ => ⟨by simpa [isReady] using hready, ?_⟩⟩
    simpa using Option.isSome_iff_ne_none.2 (by simpa using hsurface)

theorem sendClearcodecFrame_spec (m : ClearMessage) :
    ∃ frames accepted, (s.sendClearcodecFrame now id m).2 =
        { s with frames := frames, accepted := accepted } ∧
      ((s.sendClearcodecFrame now id m).1 = false ∧ accepted = s.accepted ∨
        (s.sendClearcodecFrame now id m).1 = true ∧ accepted = s.accepted ++ [m] ∧
          s.state = .ready ∧ (s.getSurface id).isSome) := by
  obtain ⟨frames, hqueue, hready⟩ := s.queueFrame_spec now id true
  simp only [sendClearcodecFrame, hqueue]
  rcases hsent : (s.queueFrame now id true).1 with _ | _
  · exact ⟨frames, s.accepted, rfl, .inl ⟨rfl, rfl⟩⟩
  · exact ⟨frames, s.accepted ++ [m], rfl, .inr ⟨rfl, rfl, hready hsent⟩⟩

theorem createSurface_ready {s : GraphicsPipelineServer} (h : s.state = .ready) (width height : ℕ) :
    (s.createSurface width height).1 = some s.nextSurfaceId ∧
      ((s.createSurface width height).2.getSurface s.nextSurfaceId).isSome := by
  rw [createSurface, if_neg (by simp [h])]
  exact ⟨rfl, by simp [getSurface]⟩

theorem createSurface_spec (width height : ℕ) :
    (s.createSurface width height).2.state = s.state ∧
      (s.createSurface width height).2.accepted = s.accepted := by
  unfold createSurface
  split_ifs <;> exact ⟨rfl, rfl⟩

theorem resize_spec : s.resize.state = s.state ∧ s.resize.accepted = s.accepted := by
  unfold resize
  split_ifs <;> exact ⟨rfl, rfl⟩

/-- The client advertised its capabilities; `negotiated` is the set in common. While frames flow
this is a restart of the client's pipeline. -/
def handleCapabilitiesAdvertise (negotiated : Option CodecCapabilities) : GraphicsPipelineServer :=
  let s := if s.state = .ready then
      { s with surfaces := [], nextSurfaceId := 0, frames := s.frames.clear }
    else s
  let s := { s with accepted := [] }
  match negotiated with
  | none => { s with closeRequested := true }
  | some caps => { s with codecCaps := caps, state := .ready }

def close : GraphicsPipelineServer := { s with state := .closed }

end GraphicsPipelineServer

end Linrdp.Egfx.Server
