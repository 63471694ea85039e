import Linrdp.Egfx.Capabilities

/-!
# What the graphics pipeline queues

`GraphicsPipelineServer` with its output: the PDUs it queues for the client, the surfaces with their
formats and places, the desktop they show, and the generation the client's pipeline is in. Every PDU
is queued as an `Entry` that remembers its number and the generation it was queued in; the code
keeps neither, nor `queued`, the entries of all times.

The bitmaps of AVC streams are kept unencoded, and how many bytes a PDU takes is a parameter `size`.
Forgetting the output gives the server of `Egfx.Server`.
-/

namespace Linrdp.Egfx.Output

open Egfx.Server (FrameTracker ServerState CodecCapabilities)
open List Egfx.Capabilities

/-! ### PDUs -/

abbrev Bytes := List UInt8

inductive PixelFormat
  | xRgb | aRgb

structure ExclusiveRectangle where
  (left top right bottom : ℕ)

structure Avc420Region where
  (left top right bottom quantizationParameter quality : ℕ)

inductive Encoding
  | lumaAndChroma | luma | chroma | other

structure Monitor where
  (left top right bottom : ℤ)
  primary : Bool

structure Timestamp where
  (milliseconds seconds minutes hours : ℕ)

inductive Codec1Type
  | uncompressed | clearCodec | planar | avc420 | avc444 | avc444v2

inductive BitmapData
  | bytes (data : Bytes)
  | avc420 (regions : List Avc420Region) (data : Bytes)
  | avc444 (encoding : Encoding) (stream1 : List Avc420Region × Bytes)
      (stream2 : Option (List Avc420Region × Bytes))

inductive GfxPdu
  | resetGraphics (width height : ℕ) (monitors : List Monitor)
  | createSurface (surfaceId width height : ℕ) (pixelFormat : PixelFormat)
  | deleteSurface (surfaceId : ℕ)
  | mapSurfaceToOutput (surfaceId outputOriginX outputOriginY : ℕ)
  | startFrame (timestamp : Timestamp) (frameId : ℕ)
  | wireToSurface1 (surfaceId : ℕ) (codecId : Codec1Type) (pixelFormat : PixelFormat)
      (destinationRectangle : ExclusiveRectangle) (bitmapData : BitmapData)
  /-- RemoteFX Progressive, the only codec of this PDU -/
  | wireToSurface2 (surfaceId codecContextId : ℕ) (pixelFormat : PixelFormat) (bitmapData : Bytes)
  | endFrame (frameId : ℕ)
  | capabilitiesConfirm (cap : CapabilitySet)
  | cacheImportReply (cacheSlots : List ℕ)

def GfxPdu.names : GfxPdu → Option ℕ
  | .deleteSurface id => some id
  | .mapSurfaceToOutput id _ _ => some id
  | .wireToSurface1 id _ _ _ _ => some id
  | .wireToSurface2 id _ _ _ => some id
  | _ => none

def GfxPdu.isOutput : GfxPdu → Bool
  | .capabilitiesConfirm _ => false
  | .cacheImportReply _ => false
  | _ => true

structure Entry where
  (serial generation : ℕ)
  pdu : GfxPdu

/-! ### The server -/

structure Surface where
  (id width height : ℕ)
  pixelFormat : PixelFormat
  isMapped : Bool
  (outputOriginX outputOriginY : ℕ)

def Surface.mapped (id originX originY : ℕ) (surface : Surface) : Surface :=
  if surface.id = id then
    { surface with isMapped := true, outputOriginX := originX, outputOriginY := originY }
  else surface

structure GraphicsPipelineServer where
  state : ServerState
  negotiatedCaps : Option CapabilitySet
  codecCaps : CodecCapabilities
  surfaces : List Surface
  nextSurfaceId : ℕ
  frames : FrameTracker
  (outputWidth outputHeight : ℕ)
  resetGraphicsSent : Bool
  outputQueue : List Entry
  channelId : Option ℕ
  generation : ℕ
  closeRequested : Bool
  /-- `NEXT_GENERATION`, which all pipelines of the process share -/
  nextGeneration : ℕ
  queued : List Entry

variable (size : GfxPdu → ℕ)

namespace GraphicsPipelineServer

/-- A new pipeline in a process that has given out the generations below `counter`. -/
def new (counter : ℕ) : GraphicsPipelineServer where
  state := .waitingForCapabilities
  negotiatedCaps := none
  codecCaps := ⟨false, false, false⟩
  surfaces := []
  nextSurfaceId := 0
  frames := .new
  outputWidth := 0
  outputHeight := 0
  resetGraphicsSent := false
  outputQueue := []
  channelId := none
  generation := counter
  closeRequested := false
  nextGeneration := counter + 1
  queued := []

variable (s : GraphicsPipelineServer)

def push (pdu : GfxPdu) : GraphicsPipelineServer :=
  { s with
    outputQueue := s.outputQueue ++ [⟨s.queued.length, s.generation, pdu⟩]
    queued := s.queued ++ [⟨s.queued.length, s.generation, pdu⟩] }

def takeGeneration : GraphicsPipelineServer :=
  { s with generation := s.nextGeneration, nextGeneration := s.nextGeneration + 1 }

def isReady : Bool := s.state == .ready

def getSurface (id : ℕ) : Option Surface := s.surfaces.find? fun surface => surface.id == id

variable (width height : ℕ)

def setOutputDimensions : GraphicsPipelineServer :=
  { s with outputWidth := width, outputHeight := height }

def primaryMonitor : Monitor := ⟨0, 0, (max width 1 : ℕ) - 1, (max height 1 : ℕ) - 1, true⟩

/-- `ResetGraphics` ahead of the first surface. -/
def ensureReset : GraphicsPipelineServer :=
  if s.resetGraphicsSent then s
  else
    let desktopWidth := if 0 < s.outputWidth then s.outputWidth else width
    let desktopHeight := if 0 < s.outputHeight then s.outputHeight else height
    { s.push (.resetGraphics desktopWidth desktopHeight
      [primaryMonitor desktopWidth desktopHeight]) with
      outputWidth := desktopWidth
      outputHeight := desktopHeight
      resetGraphicsSent := true }

def createSurfaceWithFormat (format : PixelFormat) : Option ℕ × GraphicsPipelineServer :=
  if s.state ≠ .ready ∧ s.state ≠ .resizing then (none, s)
  else
    let s := s.ensureReset width height
    let id := s.nextSurfaceId
    let s := s.push (.createSurface id width height format)
    (some id, { s with
      nextSurfaceId := (id + 1) % 65536
      surfaces := ⟨id, width, height, format, false, 0, 0⟩ ::
        s.surfaces.filter fun surface => surface.id != id })

theorem createSurface_none {s : GraphicsPipelineServer} {width height : ℕ} {format : PixelFormat} :
    (s.createSurfaceWithFormat width height format).1 = none ↔ s.state ≠ .ready ∧
    s.state ≠ .resizing := by
  unfold createSurfaceWithFormat
  split_ifs with hstate
  · simp [hstate]
  · simpa using hstate

def deleteSurface (id : ℕ) : Bool × GraphicsPipelineServer :=
  if (s.getSurface id).isNone then (false, s)
  else
    let s := { s with surfaces := s.surfaces.filter fun surface => surface.id != id }
    (true, s.push (.deleteSurface id))

def mapSurfaceToOutput (id originX originY : ℕ) : Bool × GraphicsPipelineServer :=
  if (s.getSurface id).isNone then (false, s)
  else
    let s := { s with surfaces := s.surfaces.map (Surface.mapped id originX originY) }
    (true, s.push (.mapSurfaceToOutput id originX originY))

variable (order : List ℕ)

/-- The surfaces are in a hash table, which has no order: those of `order` are deleted first. -/
def deleteSurfaces : GraphicsPipelineServer :=
  (order ++ s.surfaces.map Surface.id).foldl (fun s id => (s.deleteSurface id).2) s

def startOver (width height : ℕ) (monitors : List Monitor) : GraphicsPipelineServer :=
  let s := { s with state := .resizing, outputWidth := width, outputHeight := height }
  let s := s.deleteSurfaces order
  let s := { s with frames := s.frames.clear }
  let s := s.push (.resetGraphics width height monitors)
  { s with resetGraphicsSent := true, state := .ready }

def resizeWithMonitors (width height : ℕ) (monitors : List Monitor) : GraphicsPipelineServer :=
  let monitors := if monitors.isEmpty then [primaryMonitor width height] else monitors
  if s.state ≠ .ready then s
  else if 16 < monitors.length then s
  else s.startOver order width height monitors

theorem resizeWithMonitors_cases (width height : ℕ) (monitors : List Monitor) :
    s.resizeWithMonitors order width height monitors = s ∨
      s.state = .ready ∧ ∃ monitors',
        s.resizeWithMonitors order width height monitors = s.startOver order width height
        monitors' := by
  unfold resizeWithMonitors
  generalize (if monitors.isEmpty then [primaryMonitor width height] else monitors) = monitors'
  simp only
  split_ifs with hstate hmany
  · exact .inl rfl
  · exact .inl rfl
  · exact .inr ⟨by simpa using hstate, monitors', rfl⟩

def resize (width height : ℕ) : GraphicsPipelineServer := s.resizeWithMonitors order width height []

def setMaxFramesInFlight (max : ℕ) : GraphicsPipelineServer :=
  { s with frames := { s.frames with maxInFlight := max } }

/-! ### Frames -/

def makeTimestamp (timestampMs : ℕ) : Timestamp :=
  ⟨timestampMs % 1000, timestampMs / 1000 % 60, timestampMs / 60000 % 60,
    timestampMs / 3600000 % 24⟩

def computeDestRect (regions : List Avc420Region) (defaultWidth defaultHeight : ℕ) :
    ExclusiveRectangle :=
  match regions with
  | [] => ⟨0, 0, defaultWidth, defaultHeight⟩
  | first :: rest =>
    rest.foldl (fun rect r =>
        ⟨min rect.left r.left, min rect.top r.top, max rect.right r.right,
          max rect.bottom r.bottom⟩)
      ⟨first.left, first.top, first.right, first.bottom⟩

def computeDestRectForStreams (stream1Regions stream2Regions : List Avc420Region)
    (defaultWidth defaultHeight : ℕ) : ExclusiveRectangle :=
  let stream1 := computeDestRect stream1Regions defaultWidth defaultHeight
  let stream2 := computeDestRect stream2Regions defaultWidth defaultHeight
  ⟨min stream1.left stream2.left, min stream1.top stream2.top, max stream1.right stream2.right,
    max stream1.bottom stream2.bottom⟩

/-- The end of every frame sender: flow control, the surface, and the PDUs between the frame's start
and its end. `payload` may still refuse the surface. -/
def sendFrame (now timestampMs id : ℕ)
    (payload : Surface → Option (List GfxPdu)) : Option ℕ × GraphicsPipelineServer :=
  if s.frames.shouldBackpressure now then (none, s)
  else
    match (s.getSurface id).bind payload with
    | none => (none, s)
    | some pdus =>
      let frameId := (s.frames.beginFrame now).1
      let s := { s with frames := (s.frames.beginFrame now).2 }
      let pdus := GfxPdu.startFrame (makeTimestamp timestampMs) frameId :: pdus ++
        [.endFrame frameId]
      (some frameId, pdus.foldl push s)

variable (now id : ℕ)

def sendAvc420Frame (h264Data : Bytes)
    (regions : List Avc420Region) (timestampMs : ℕ) : Option ℕ × GraphicsPipelineServer :=
  if !s.isReady then (none, s)
  else if !s.codecCaps.avc420 then (none, s)
  else s.sendFrame now timestampMs id fun surface =>
    some [.wireToSurface1 id .avc420 surface.pixelFormat
      (computeDestRect regions surface.width surface.height) (.avc420 regions h264Data)]

def sendAvc444FrameWithEncoding (now : ℕ) (codecId : Codec1Type) (id : ℕ)
    (encoding : Encoding) (stream1Data : Bytes) (stream1Regions : List Avc420Region)
    (stream2Data : Option Bytes) (stream2Regions : Option (List Avc420Region)) (timestampMs : ℕ) :
    Option ℕ × GraphicsPipelineServer :=
  let validStreamShape := match encoding with
    | .lumaAndChroma => stream2Data.isSome && stream2Regions.isSome
    | .luma | .chroma => stream2Data.isNone && stream2Regions.isNone
    | .other => false
  if !validStreamShape then (none, s)
  else if !s.isReady then (none, s)
  else if !s.codecCaps.avc444 then (none, s)
  else s.sendFrame now timestampMs id fun surface =>
    let rect := match stream2Regions with
      | some regions => computeDestRectForStreams stream1Regions regions surface.width
          surface.height
      | none => computeDestRect stream1Regions surface.width surface.height
    some [.wireToSurface1 id codecId surface.pixelFormat rect
      (.avc444 encoding (stream1Regions, stream1Data)
        (stream2Regions.bind fun regions => stream2Data.map fun data => (regions, data)))]

def sendAvc444Frame (lumaData : Bytes)
    (lumaRegions : List Avc420Region) (chromaData : Option Bytes)
    (chromaRegions : Option (List Avc420Region)) (timestampMs : ℕ) :
    Option ℕ × GraphicsPipelineServer :=
  match chromaData, chromaRegions with
  | some chromaData, some chromaRegions =>
    s.sendAvc444FrameWithEncoding now .avc444 id .lumaAndChroma lumaData lumaRegions
      (some chromaData)
      (some chromaRegions) timestampMs
  | _, _ =>
    s.sendAvc444FrameWithEncoding now .avc444 id .luma lumaData lumaRegions none none timestampMs

def sendAvc444v2Frame (encoding : Encoding)
    (stream1Data : Bytes) (stream1Regions : List Avc420Region) (stream2Data : Option Bytes)
    (stream2Regions : Option (List Avc420Region)) (timestampMs : ℕ) :
    Option ℕ × GraphicsPipelineServer :=
  s.sendAvc444FrameWithEncoding now .avc444v2 id encoding stream1Data stream1Regions stream2Data
    stream2Regions timestampMs

def sendPlanarFrame (planarData : Bytes)
    (destWidth destHeight timestampMs : ℕ) : Option ℕ × GraphicsPipelineServer :=
  if !s.isReady then (none, s)
  else s.sendFrame now timestampMs id fun surface =>
    if surface.width < destWidth ∨ surface.height < destHeight then none
    else some [.wireToSurface1 id .planar surface.pixelFormat ⟨0, 0, destWidth, destHeight⟩
      (.bytes planarData)]

def sendUncompressedFrame (bitmapData : Bytes)
    (destWidth destHeight timestampMs : ℕ) : Option ℕ × GraphicsPipelineServer :=
  if !s.isReady then (none, s)
  else s.sendFrame now timestampMs id fun surface =>
    some [.wireToSurface1 id .uncompressed surface.pixelFormat ⟨0, 0, destWidth, destHeight⟩
      (.bytes bitmapData)]

def sendRemotefxProgressiveFrame (now id codecContextId : ℕ)
    (progressiveData : Bytes) (timestampMs : ℕ) : Option ℕ × GraphicsPipelineServer :=
  if !s.isReady then (none, s)
  else s.sendFrame now timestampMs id fun surface =>
    some [.wireToSurface2 id codecContextId surface.pixelFormat progressiveData]

def sendClearcodecFrame (destination : ExclusiveRectangle)
    (bitmapData : Bytes) (timestampMs : ℕ) : Option ℕ × GraphicsPipelineServer :=
  if !s.isReady then (none, s)
  else s.sendFrame now timestampMs id fun surface =>
    some [.wireToSurface1 id .clearCodec surface.pixelFormat destination (.bytes bitmapData)]

inductive MixedTilePayload
  | clearCodec (destination : ExclusiveRectangle) (bitmapData : Bytes)
  | remoteFxProgressive (codecContextId : ℕ) (progressiveData : Bytes)
  | avc420 (regions : List Avc420Region) (h264Data : Bytes)

def MixedTilePayload.pdu (surface : Surface) (id : ℕ) : MixedTilePayload → GfxPdu
  | .clearCodec destination bitmapData =>
    .wireToSurface1 id .clearCodec surface.pixelFormat destination (.bytes bitmapData)
  | .remoteFxProgressive codecContextId progressiveData =>
    .wireToSurface2 id codecContextId surface.pixelFormat progressiveData
  | .avc420 regions h264Data =>
    .wireToSurface1 id .avc420 surface.pixelFormat
      (computeDestRect regions surface.width surface.height) (.avc420 regions h264Data)

def sendMixedFrame (tiles : List MixedTilePayload)
    (timestampMs : ℕ) : Option ℕ × GraphicsPipelineServer :=
  if !s.isReady then (none, s)
  else if tiles.isEmpty then (none, s)
  else s.sendFrame now timestampMs id fun surface =>
    some (tiles.map (MixedTilePayload.pdu surface id))

/-! ### Output and the client's messages -/

/-- The bytes of each frame from its start to its end; `frame` is the one that is open. -/
def frameSizes (size : GfxPdu → ℕ) : Option (ℕ × ℕ) → List Entry → List (ℕ × ℕ)
  | _, [] => []
  | frame, entry :: rest =>
    match entry.pdu with
    | .startFrame _ frameId => frameSizes size (some (frameId, size entry.pdu)) rest
    | .endFrame frameId =>
      match frame.filter fun current => current.1 == frameId with
      | some (_, bytes) => (frameId, bytes + size entry.pdu) :: frameSizes size none rest
      | none => frameSizes size none rest
    | pdu => frameSizes size (frame.map fun current => (current.1, current.2 + size pdu)) rest

def drainOutput : List Entry × GraphicsPipelineServer :=
  (s.outputQueue, { s with
    outputQueue := []
    frames := (frameSizes size none s.outputQueue).foldl
      (fun frames sized => frames.setFrameSize sized.1 sized.2) s.frames })

def restart : GraphicsPipelineServer :=
  { s.takeGeneration with
    outputQueue := []
    surfaces := []
    nextSurfaceId := 0
    frames := s.frames.clear
    resetGraphicsSent := false }

def restartIfReady : GraphicsPipelineServer := if s.state = .ready then s.restart else s

def confirm (negotiated : CapabilitySet) : GraphicsPipelineServer :=
  let s := { s with
    codecCaps := fromCapabilitySet negotiated
    state := .ready
    negotiatedCaps := some negotiated }
  s.push (.capabilitiesConfirm negotiated)

def handleCapabilitiesAdvertise (clientCaps : List CapabilitySet) : GraphicsPipelineServer :=
  let s := s.restartIfReady
  match negotiateCapabilities clientCaps preferredCapabilities with
  | none => { s with closeRequested := true }
  | some negotiated => s.confirm (sanitizeCapabilitiesForConfirm negotiated)

def handleCacheImportOffer : GraphicsPipelineServer := s.push (.cacheImportReply [])

def close : GraphicsPipelineServer :=
  { s.takeGeneration with state := .closed, resetGraphicsSent := false }

end GraphicsPipelineServer

inductive ClientPdu
  | capabilitiesAdvertise (caps : List CapabilitySet)
  | frameAcknowledge (frameId queueDepth : ℕ)
  | cacheImportOffer | other

namespace GraphicsPipelineServer

def handle (s : GraphicsPipelineServer) (now : ℕ) : ClientPdu → GraphicsPipelineServer
  | .capabilitiesAdvertise caps => s.handleCapabilitiesAdvertise caps
  | .frameAcknowledge frameId queueDepth =>
    { s with frames := s.frames.acknowledge frameId queueDepth now }
  | .cacheImportOffer => s.handleCacheImportOffer
  | .other => s

theorem handle_advertise_none {s : GraphicsPipelineServer} {now : ℕ} {caps : List CapabilitySet}
    (h : negotiateCapabilities caps preferredCapabilities = none) :
    s.handle now (.capabilitiesAdvertise caps) =
      { s.restartIfReady with closeRequested := true } := by
  simp only [handle, handleCapabilitiesAdvertise, h]

theorem handle_advertise_some {s : GraphicsPipelineServer} {now : ℕ} {caps : List CapabilitySet}
    {cap : CapabilitySet} (h : negotiateCapabilities caps preferredCapabilities = some cap) :
    s.handle now (.capabilitiesAdvertise caps) =
      s.restartIfReady.confirm (sanitizeCapabilitiesForConfirm cap) := by
  simp only [handle, handleCapabilitiesAdvertise, h]

def process (s : GraphicsPipelineServer) (now : ℕ) (pdu : ClientPdu) :
    List Entry × GraphicsPipelineServer := (s.handle now pdu).drainOutput size

end GraphicsPipelineServer

/-! ### The channel -/

structure Channel where
  server : GraphicsPipelineServer
  isOpen : Bool

namespace Channel

/-- A message of the client. When the pipeline asks for it the channel is closed in the same call,
and a message for a channel that is gone reaches nothing. -/
def processData (c : Channel) (now : ℕ) (pdu : ClientPdu) : List Entry × Channel :=
  if c.isOpen then
    let (replies, server) := c.server.process size now pdu
    if server.closeRequested then (replies, ⟨server.close, false⟩) else (replies, ⟨server, true⟩)
  else ([], c)

def close (c : Channel) : Channel := if c.isOpen then ⟨c.server.close, false⟩ else c

end Channel

/-! ### Forgetting the output -/

def Surface.forget (surface : Surface) : Server.Surface :=
    ⟨surface.id, surface.width, surface.height⟩

namespace GraphicsPipelineServer

/-- The server without its output; `accepted` is not told by the output's bytes. -/
def forget (s : GraphicsPipelineServer) (accepted : List Graphics.ClearCodec.ClearMessage) :
    Server.GraphicsPipelineServer where
  state := s.state
  codecCaps := s.codecCaps
  surfaces := s.surfaces.map Surface.forget
  nextSurfaceId := s.nextSurfaceId
  frames := s.frames
  closeRequested := s.closeRequested
  accepted := accepted

section forget

variable (s : GraphicsPipelineServer) (accepted : List Graphics.ClearCodec.ClearMessage)

theorem forget_pushAll (pdus : List GfxPdu) : (pdus.foldl push s).forget accepted =
    s.forget accepted := by
  induction pdus generalizing s with
  | nil => rfl
  | cons pdu pdus ih => exact ih (s.push pdu)

theorem forget_ensureReset (width height : ℕ) :
    (s.ensureReset width height).forget accepted = s.forget accepted := by
  by_cases hsent : s.resetGraphicsSent = true
  · rw [ensureReset, if_pos hsent]
  · rw [ensureReset, if_neg hsent]
    rfl

theorem forget_getSurface (id : ℕ) :
    (s.forget accepted).getSurface id = (s.getSurface id).map Surface.forget := by
  unfold Server.GraphicsPipelineServer.getSurface getSurface forget
  rw [find?_map]
  rfl

theorem forget_createSurface (width height : ℕ) (format : PixelFormat) :
    (s.createSurfaceWithFormat width height format).1 =
    ((s.forget accepted).createSurface width height).1 ∧
      (s.createSurfaceWithFormat width height format).2.forget accepted =
        ((s.forget accepted).createSurface width height).2 := by
  have hforget := s.forget_ensureReset accepted width height
  rw [← hforget]
  unfold createSurfaceWithFormat Server.GraphicsPipelineServer.createSurface
  generalize s.ensureReset width height = t at hforget
  have hstate : s.state = (t.forget accepted).state :=
    congrArg Server.GraphicsPipelineServer.state hforget.symm
  rw [hstate]
  split_ifs
  · exact ⟨rfl, hforget.symm⟩
  · refine ⟨rfl, ?_⟩
    simp only [forget, push, map_cons, filter_map]
    rfl

theorem forget_deleteSurface (id : ℕ) :
    (s.deleteSurface id).2.forget accepted = { s.forget accepted with
      surfaces := (s.forget accepted).surfaces.filter fun surface => surface.id != id } := by
  unfold deleteSurface
  split_ifs with hnone
  · have hself : (s.forget accepted).surfaces.filter (fun surface => surface.id != id) =
        (s.forget accepted).surfaces := by
      refine filter_eq_self.2 ?_
      simpa [forget, getSurface, Surface.forget] using hnone
    rw [hself]
  · simp [forget, push, filter_map]
    rfl

theorem forget_deleteAll (ids : List ℕ) :
    (ids.foldl (fun s id => (s.deleteSurface id).2) s).forget accepted = { s.forget accepted with
      surfaces := (s.forget accepted).surfaces.filter fun surface =>
        !ids.contains surface.id } := by
  induction ids generalizing s with
  | nil => simp
  | cons id ids ih =>
    rw [foldl_cons, ih, forget_deleteSurface]
    simp only [filter_filter, contains_cons, Bool.not_or, bne, Bool.and_comm]

theorem forget_deleteSurfaces (order : List ℕ) :
    (s.deleteSurfaces order).forget accepted = { s.forget accepted with surfaces := [] } := by
  have hempty : ((s.forget accepted).surfaces.filter fun surface =>
      !(order ++ s.surfaces.map Surface.id).contains surface.id) = [] := by
    simp only [forget, filter_map, map_eq_nil_iff, filter_eq_nil_iff, Function.comp,
      contains_eq_mem]
    intro surface hsurface
    have hid : surface.id ∈ s.surfaces.map Surface.id := mem_map_of_mem hsurface
    simp only [Surface.forget, mem_append, hid, or_true, decide_true, Bool.not_true,
      Bool.false_eq_true, not_false_eq_true]
  rw [deleteSurfaces, forget_deleteAll, hempty]

theorem forget_startOver (order : List ℕ) (width height : ℕ) (monitors : List Monitor)
    (hready : s.state = .ready) :
    (s.startOver order width height monitors).forget accepted = (s.forget accepted).resize := by
  have hready' : ¬(s.forget accepted).state ≠ .ready := not_not_intro hready
  have hdelete := forget_deleteSurfaces
    { s with state := .resizing, outputWidth := width, outputHeight := height } accepted order
  rw [Server.GraphicsPipelineServer.resize, if_neg hready']
  have hafter := congrArg (fun t : Server.GraphicsPipelineServer =>
    { t with state := .ready, frames := t.frames.clear }) hdelete
  refine Eq.trans ?_ (hafter.trans ?_)
  · rfl
  · rw [← hready]
    rfl

variable (now timestampMs id : ℕ)

/-- A frame sent, and the same frame queued by the server without its output. -/
def Forgets (sent : Option ℕ × GraphicsPipelineServer)
    (queued : Bool × Server.GraphicsPipelineServer) : Prop :=
  sent.1.isSome = queued.1 ∧ sent.2.forget accepted = queued.2

theorem forget_gated (codec : Bool) (payload : Surface → List GfxPdu) :
    ∀ sent, sent = (if !s.isReady then (none, s) else if !codec then (none, s)
        else s.sendFrame now timestampMs id fun surface => some (payload surface)) →
      Forgets accepted sent ((s.forget accepted).queueFrame now id codec) := by
  rintro sent rfl
  have hready : (s.forget accepted).isReady = s.isReady := rfl
  have hpressure : (s.forget accepted).shouldBackpressure now = s.frames.shouldBackpressure now :=
      rfl
  unfold Server.GraphicsPipelineServer.queueFrame sendFrame
  rw [hready, hpressure, forget_getSurface, Option.isNone_map]
  rcases s.isReady with _ | _
  · exact ⟨rfl, rfl⟩
  rcases codec with _ | _
  · exact ⟨rfl, rfl⟩
  rcases s.frames.shouldBackpressure now with _ | _
  · rcases hget : s.getSurface id with _ | surface
    · exact ⟨rfl, rfl⟩
    · exact ⟨rfl, forget_pushAll _ _ _⟩
  · exact ⟨rfl, rfl⟩

theorem forget_sendAvc420Frame (h264Data : Bytes) (regions : List Avc420Region) :
    Forgets accepted (s.sendAvc420Frame now id h264Data regions timestampMs)
      ((s.forget accepted).sendAvc420Frame now id) :=
  s.forget_gated accepted now timestampMs id s.codecCaps.avc420 _ _ rfl

theorem forget_sendAvc444v2Frame (stream1Data : Bytes) (stream1Regions : List Avc420Region)
    (chroma : Option (Bytes × List Avc420Region)) :
    Forgets accepted
      (s.sendAvc444v2Frame now id (if chroma.isSome then .lumaAndChroma else .luma) stream1Data
        stream1Regions (chroma.map Prod.fst) (chroma.map Prod.snd) timestampMs)
      ((s.forget accepted).sendAvc444v2Frame now id) := by
  cases chroma with
  | none | some chroma =>
    exact s.forget_gated accepted now timestampMs id s.codecCaps.avc444 _ _ rfl

theorem forget_sendClearcodecFrame (destination : ExclusiveRectangle) (bitmapData : Bytes)
    (m : Graphics.ClearCodec.ClearMessage) :
    let sent := s.sendClearcodecFrame now id destination bitmapData timestampMs
    Forgets (if sent.1.isSome then accepted ++ [m] else accepted) sent
      ((s.forget accepted).sendClearcodecFrame now id m) := by
  intro sent
  obtain ⟨hsent, hforget⟩ := s.forget_gated accepted now timestampMs id true
    (fun surface => [.wireToSurface1 id .clearCodec surface.pixelFormat destination
      (.bytes bitmapData)])
    sent rfl
  refine ⟨hsent, ?_⟩
  unfold Server.GraphicsPipelineServer.sendClearcodecFrame
  simp only [← hforget, ← hsent]
  split_ifs <;> rfl

theorem forget_advertise (clientCaps : List CapabilitySet) :
    (s.handleCapabilitiesAdvertise clientCaps).forget [] =
      (s.forget accepted).handleCapabilitiesAdvertise
        ((negotiateCapabilities clientCaps preferredCapabilities).map fun negotiated =>
          fromCapabilitySet (sanitizeCapabilitiesForConfirm negotiated)) := by
  have hsame : (s.forget accepted).state = s.state := rfl
  unfold handleCapabilitiesAdvertise Server.GraphicsPipelineServer.handleCapabilitiesAdvertise
    restartIfReady
  rw [hsame]
  rcases negotiateCapabilities clientCaps preferredCapabilities with _ | negotiated
  all_goals split_ifs <;> rfl

theorem forget_close : s.close.forget accepted = (s.forget accepted).close := rfl

end forget

end GraphicsPipelineServer

end Linrdp.Egfx.Output
