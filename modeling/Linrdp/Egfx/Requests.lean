import Linrdp.Egfx.Output

/-!
# What the display asks of the pipeline

The calls of the display as one type of requests. A request queues PDUs of the pipeline's generation
behind those that are queued (`Queues`) and changes neither the generation nor the state; a frame is
a start, bitmaps for one surface that exists, and an end (`Painted`).
-/

namespace Linrdp.Egfx.Requests

open List Egfx.Output GraphicsPipelineServer

inductive Frame
  | avc420 (h264Data : Bytes) (regions : List Avc420Region)
  | avc444 (lumaData : Bytes) (lumaRegions : List Avc420Region) (chromaData : Option Bytes)
      (chromaRegions : Option (List Avc420Region))
  | avc444v2 (encoding : Encoding) (stream1Data : Bytes) (stream1Regions : List Avc420Region)
      (stream2Data : Option Bytes) (stream2Regions : Option (List Avc420Region))
  | planar (planarData : Bytes) (destWidth destHeight : ℕ)
  | uncompressed (bitmapData : Bytes) (destWidth destHeight : ℕ)
  | progressive (codecContextId : ℕ) (progressiveData : Bytes)
  | clearcodec (destination : ExclusiveRectangle) (bitmapData : Bytes)
  | mixed (tiles : List MixedTilePayload)

def sendFrame (s : GraphicsPipelineServer) (now timestampMs id : ℕ) :
    Frame → Option ℕ × GraphicsPipelineServer
  | .avc420 h264Data regions => s.sendAvc420Frame now id h264Data regions timestampMs
  | .avc444 lumaData lumaRegions chromaData chromaRegions =>
    s.sendAvc444Frame now id lumaData lumaRegions chromaData chromaRegions timestampMs
  | .avc444v2 encoding stream1Data stream1Regions stream2Data stream2Regions =>
    s.sendAvc444v2Frame now id encoding stream1Data stream1Regions stream2Data stream2Regions
      timestampMs
  | .planar planarData destWidth destHeight =>
    s.sendPlanarFrame now id planarData destWidth destHeight timestampMs
  | .uncompressed bitmapData destWidth destHeight =>
    s.sendUncompressedFrame now id bitmapData destWidth destHeight timestampMs
  | .progressive codecContextId progressiveData =>
    s.sendRemotefxProgressiveFrame now id codecContextId progressiveData timestampMs
  | .clearcodec destination bitmapData =>
    s.sendClearcodecFrame now id destination bitmapData timestampMs
  | .mixed tiles => s.sendMixedFrame now id tiles timestampMs

inductive Request
  | createSurface (width height : ℕ) (format : PixelFormat)
  | setOutputDimensions (width height : ℕ)
  | mapSurfaceToOutput (id originX originY : ℕ)
  | deleteSurface (id : ℕ)
  | resize (order : List ℕ) (width height : ℕ) (monitors : List Monitor)
  | frame (now timestampMs id : ℕ) (frame : Frame)
  | setMaxFramesInFlight (max : ℕ)
  | drain

def serve (size : GfxPdu → ℕ) (s : GraphicsPipelineServer) : Request → GraphicsPipelineServer
  | .createSurface width height format => (s.createSurfaceWithFormat width height format).2
  | .setOutputDimensions width height => s.setOutputDimensions width height
  | .mapSurfaceToOutput id originX originY => (s.mapSurfaceToOutput id originX originY).2
  | .deleteSurface id => (s.deleteSurface id).2
  | .resize order width height monitors => s.resizeWithMonitors order width height monitors
  | .frame now timestampMs id frame => (sendFrame s now timestampMs id frame).2
  | .setMaxFramesInFlight max => s.setMaxFramesInFlight max
  | .drain => (s.drainOutput size).2

def creates : GfxPdu → Option ℕ
  | .createSurface id _ _ _ => some id
  | _ => none

/-! ### What a request queues -/

structure Queues (s s' : GraphicsPipelineServer) : Prop where
  entries : ∃ new, s'.outputQueue = s.outputQueue ++ new ∧ s'.queued = s.queued ++ new ∧
    (∀ e ∈ new, e.generation = s.generation ∧ e.pdu.isOutput = true) ∧
    ∀ i e, new[i]? = some e → e.serial = s.queued.length + i
  generation : s'.generation = s.generation
  nextGeneration : s'.nextGeneration = s.nextGeneration
  closeRequested : s'.closeRequested = s.closeRequested
  channelId : s'.channelId = s.channelId

section queues

variable {s s' s'' : GraphicsPipelineServer}

theorem Queues.of_eq (hqueue : s'.outputQueue = s.outputQueue) (hqueued : s'.queued = s.queued)
    (hgen : s'.generation = s.generation) (hnext : s'.nextGeneration = s.nextGeneration)
    (hclose : s'.closeRequested = s.closeRequested) (hid : s'.channelId = s.channelId) :
    Queues s s' :=
  ⟨⟨[], by simp [hqueue], by simp [hqueued], by simp, by simp⟩, hgen, hnext, hclose, hid⟩

theorem Queues.refl (s : GraphicsPipelineServer) : Queues s s := .of_eq rfl rfl rfl rfl rfl rfl

theorem Queues.trans (h : Queues s s') (h' : Queues s' s'') : Queues s s'' := by
  obtain ⟨new, hqueue, hqueued, hgen, hserial⟩ := h.entries
  obtain ⟨new', hqueue', hqueued', hgen', hserial'⟩ := h'.entries
  refine ⟨⟨new ++ new', by rw [hqueue', hqueue, append_assoc],
    by rw [hqueued', hqueued, append_assoc],
      forall_mem_append.2 ⟨hgen, fun e he => ⟨(hgen' e he).1.trans h.generation, (hgen' e he).2⟩⟩,
      fun i e he => ?_⟩,
    h'.generation.trans h.generation, h'.nextGeneration.trans h.nextGeneration,
    h'.closeRequested.trans h.closeRequested, h'.channelId.trans h.channelId⟩
  · rcases Nat.lt_or_ge i new.length with hlt | hge
    · exact hserial i e (by rwa [getElem?_append_left hlt] at he)
    · rw [getElem?_append_right hge] at he
      have hnum := hserial' _ e he
      rw [hqueued, length_append] at hnum
      omega

section

variable (s : GraphicsPipelineServer)

theorem queues_push {pdu : GfxPdu} (hout : pdu.isOutput = true) : Queues s (s.push pdu) := by
  refine ⟨⟨[⟨s.queued.length, s.generation, pdu⟩], rfl, rfl, by simp [hout], fun i e he => ?_⟩, rfl,
    rfl, rfl, rfl⟩
  obtain ⟨rfl, rfl⟩ : i = 0 ∧ e = ⟨s.queued.length, s.generation, pdu⟩ := by
    rcases i with _ | i
    · simpa using he.symm
    · simp at he
  rfl

theorem queues_pushAll {pdus : List GfxPdu} (hout : ∀ pdu ∈ pdus, pdu.isOutput = true) :
    Queues s (pdus.foldl GraphicsPipelineServer.push s) := by
  induction pdus generalizing s with
  | nil => exact .refl s
  | cons pdu pdus ih =>
    exact (queues_push s (hout pdu (by simp))).trans (ih _ fun p hp => hout p (by simp [hp]))

theorem queues_ensureReset (width height : ℕ) : Queues s (s.ensureReset width height) := by
  by_cases hsent : s.resetGraphicsSent = true
  · rw [ensureReset, if_pos hsent]
    exact .refl s
  · rw [ensureReset, if_neg hsent]
    exact (queues_push s rfl).trans (.of_eq rfl rfl rfl rfl rfl rfl)

theorem queues_createSurface (width height : ℕ) (format : PixelFormat) :
    Queues s (s.createSurfaceWithFormat width height format).2 := by
  unfold createSurfaceWithFormat
  split_ifs with hstate
  · exact .refl s
  · exact ((queues_ensureReset s width height).trans (queues_push _ rfl)).trans
      (.of_eq rfl rfl rfl rfl rfl rfl)

theorem queues_deleteSurface (id : ℕ) : Queues s (s.deleteSurface id).2 := by
  unfold deleteSurface
  split_ifs with hnone
  · exact .refl s
  · have hrest : Queues s { s with surfaces := s.surfaces.filter fun surface =>
      surface.id != id } :=
      .of_eq rfl rfl rfl rfl rfl rfl
    exact hrest.trans (queues_push _ rfl)

theorem queues_mapSurfaceToOutput (id originX originY : ℕ) :
    Queues s (s.mapSurfaceToOutput id originX originY).2 := by
  unfold mapSurfaceToOutput
  split_ifs with hnone
  · exact .refl s
  · have hmapped : Queues s
        { s with surfaces := s.surfaces.map (Surface.mapped id originX originY) } :=
      .of_eq rfl rfl rfl rfl rfl rfl
    exact hmapped.trans (queues_push _ rfl)

theorem queues_deleteAll (ids : List ℕ) :
    Queues s (ids.foldl (fun s id => (s.deleteSurface id).2) s) := by
  induction ids generalizing s with
  | nil => exact .refl s
  | cons id ids ih => exact (queues_deleteSurface s id).trans (ih _)

theorem queues_startOver (order : List ℕ) (width height : ℕ)
    (monitors : List Monitor) : Queues s (s.startOver order width height monitors) := by
  unfold startOver deleteSurfaces
  have hstart : Queues s { s with state := .resizing, outputWidth := width, outputHeight :=
      height } :=
    .of_eq rfl rfl rfl rfl rfl rfl
  have hdeleted := hstart.trans (queues_deleteAll _ (order ++ s.surfaces.map Surface.id))
  simp only
  generalize foldl _ _ _ = t at hdeleted ⊢
  have hcleared : Queues t { t with frames := t.frames.clear } := .of_eq rfl rfl rfl rfl rfl rfl
  exact ((hdeleted.trans hcleared).trans (queues_push _ rfl)).trans (.of_eq rfl rfl rfl rfl rfl rfl)

theorem queues_resize (order : List ℕ) (width height : ℕ)
    (monitors : List Monitor) : Queues s (s.resizeWithMonitors order width height monitors) := by
  obtain heq | ⟨-, monitors', heq⟩ := s.resizeWithMonitors_cases order width height monitors <;>
      rw [heq]
  · exact .refl s
  · exact queues_startOver s order width height monitors'

end

end queues

/-! ### Frames -/

def Paints (id : ℕ) (pdu : GfxPdu) : Prop :=
  creates pdu = none ∧ (∀ id', pdu ≠ .deleteSurface id') ∧ pdu.names = some id

theorem Paints.isOutput {id : ℕ} {pdu : GfxPdu} (h : Paints id pdu) : pdu.isOutput = true := by
  have hname := h.2.2
  cases pdu <;> first | rfl | simp [GfxPdu.names] at hname

def Painted (s : GraphicsPipelineServer) (id : ℕ) (sent : Option ℕ × GraphicsPipelineServer) :
    Prop :=
  sent = (none, s) ∨ ∃ timestamp frameId pdus frames, (s.getSurface id).isSome ∧ s.state = .ready ∧
    (∀ pdu ∈ pdus, Paints id pdu) ∧
    sent = (some frameId, (GfxPdu.startFrame timestamp frameId :: pdus ++
    [GfxPdu.endFrame frameId]).foldl
      GraphicsPipelineServer.push { s with frames := frames })

section frames

variable {s : GraphicsPipelineServer} {now timestampMs id : ℕ}

theorem painted_sendFrame {payload : Surface → Option (List GfxPdu)} (hready : (!s.isReady) ≠ true)
    (hpayload : ∀ surface pdus, payload surface = some pdus → ∀ pdu ∈ pdus, Paints id pdu) :
    Painted s id (s.sendFrame now timestampMs id payload) := by
  have hstate : s.state = .ready := by simpa [isReady] using hready
  unfold GraphicsPipelineServer.sendFrame
  split_ifs with hpressure
  · exact .inl rfl
  rcases hpdus : (s.getSurface id).bind payload with _ | pdus
  · exact .inl rfl
  · obtain ⟨surface, hget, hpdus⟩ := Option.bind_eq_some_iff.1 hpdus
    exact .inr ⟨_, _, pdus, _, by simp [hget], hstate, hpayload surface pdus hpdus, rfl⟩

theorem painted_single {pdu : Surface → GfxPdu} (hready : (!s.isReady) ≠ true)
    (hpdu : ∀ surface, Paints id (pdu surface)) :
    Painted s id (s.sendFrame now timestampMs id fun surface => some [pdu surface]) := by
  refine painted_sendFrame hready fun surface pdus hpdus p hp => ?_
  rw [Option.some.injEq] at hpdus
  subst hpdus
  rw [mem_singleton.1 hp]
  exact hpdu surface

theorem paints_wire1 {codecId : Codec1Type} {format : PixelFormat} {rect : ExclusiveRectangle}
    {data : BitmapData} : Paints id (.wireToSurface1 id codecId format rect data) :=
  ⟨rfl, by simp, rfl⟩

theorem paints_wire2 {context : ℕ} {format : PixelFormat} {data : Bytes} :
    Paints id (.wireToSurface2 id context format data) := ⟨rfl, by simp, rfl⟩

theorem painted_avc444 {codecId : Codec1Type} {encoding : Encoding} {stream1Data : Bytes}
    {stream1Regions : List Avc420Region} {stream2Data : Option Bytes}
    {stream2Regions : Option (List Avc420Region)} :
    Painted s id (s.sendAvc444FrameWithEncoding now codecId id encoding stream1Data stream1Regions
      stream2Data stream2Regions timestampMs) := by
  unfold sendAvc444FrameWithEncoding
  simp only
  split_ifs with hshape hready hcodec
  · exact .inl rfl
  · exact .inl rfl
  · exact .inl rfl
  · exact painted_single hready fun surface => paints_wire1

theorem painted_frame (s : GraphicsPipelineServer) (now timestampMs id : ℕ) (frame : Frame) :
    Painted s id (sendFrame s now timestampMs id frame) := by
  cases frame with
  | avc420 h264Data regions =>
    simp only [sendFrame, sendAvc420Frame]
    split_ifs with hready hcodec
    · exact .inl rfl
    · exact .inl rfl
    · exact painted_single hready fun surface => paints_wire1
  | avc444 lumaData lumaRegions chromaData chromaRegions =>
    simp only [sendFrame]
    unfold sendAvc444Frame
    split <;> exact painted_avc444
  | avc444v2 encoding stream1Data stream1Regions stream2Data stream2Regions => exact painted_avc444
  | planar planarData destWidth destHeight =>
    simp only [sendFrame, sendPlanarFrame]
    split_ifs with hready
    · exact .inl rfl
    · refine painted_sendFrame hready fun surface pdus hpdus p hp => ?_
      split_ifs at hpdus with hfits
      rw [Option.some.injEq] at hpdus
      subst hpdus
      rw [mem_singleton.1 hp]
      exact paints_wire1
  | uncompressed | clearcodec =>
    simp only [sendFrame, sendUncompressedFrame, sendClearcodecFrame]
    split_ifs with hready
    · exact .inl rfl
    · exact painted_single hready fun surface => paints_wire1
  | progressive codecContextId progressiveData =>
    simp only [sendFrame, sendRemotefxProgressiveFrame]
    split_ifs with hready
    · exact .inl rfl
    · exact painted_single hready fun surface => paints_wire2
  | mixed tiles =>
    simp only [sendFrame, sendMixedFrame]
    split_ifs with hready hnone
    · exact .inl rfl
    · exact .inl rfl
    · refine painted_sendFrame hready fun surface pdus hpdus p hp => ?_
      rw [Option.some.injEq] at hpdus
      subst hpdus
      obtain ⟨tile, -, rfl⟩ := mem_map.1 hp
      cases tile with
      | clearCodec destination bitmapData | avc420 regions data => exact paints_wire1
      | remoteFxProgressive context data => exact paints_wire2

theorem queues_frame (s : GraphicsPipelineServer) (now timestampMs id : ℕ) (frame : Frame) :
    Queues s (sendFrame s now timestampMs id frame).2 := by
  obtain heq | ⟨timestamp, frameId, pdus, frames, -, -, hpaints, heq⟩ :=
    painted_frame s now timestampMs id frame <;> rw [heq]
  · exact .refl s
  · have hstart : Queues s { s with frames := frames } := .of_eq rfl rfl rfl rfl rfl rfl
    refine hstart.trans (queues_pushAll _ fun p hp => ?_)
    simp only [cons_append, mem_cons, mem_append, not_mem_nil, or_false] at hp
    rcases hp with rfl | hp | rfl
    · rfl
    · exact (hpaints p hp).isOutput
    · rfl

end frames

/-! ### Requests -/

section

variable {s : GraphicsPipelineServer} {size : GfxPdu → ℕ}

theorem pushAll_state (s : GraphicsPipelineServer) (pdus : List GfxPdu) :
    (pdus.foldl GraphicsPipelineServer.push s).state = s.state ∧
      (pdus.foldl GraphicsPipelineServer.push s).surfaces = s.surfaces := by
  induction pdus generalizing s with
  | nil => exact ⟨rfl, rfl⟩
  | cons pdu pdus ih => exact ih (s.push pdu)

theorem ensureReset_state (s : GraphicsPipelineServer) (width height : ℕ) :
    (s.ensureReset width height).state = s.state := by
  by_cases hsent : s.resetGraphicsSent = true
  · rw [ensureReset, if_pos hsent]
  · rw [ensureReset, if_neg hsent]
    rfl

theorem serve_state (size : GfxPdu → ℕ) (s : GraphicsPipelineServer) (r : Request) :
    (serve size s r).state = s.state ∧ (serve size s r).closeRequested = s.closeRequested := by
  cases r with
  | createSurface width height format =>
    refine ⟨?_, (queues_createSurface s width height format).closeRequested⟩
    rw [serve]
    unfold createSurfaceWithFormat
    split_ifs with hstate
    · rfl
    · exact ensureReset_state s width height
  | mapSurfaceToOutput id originX originY =>
    refine ⟨?_, (queues_mapSurfaceToOutput s id originX originY).closeRequested⟩
    rw [serve]
    unfold mapSurfaceToOutput
    split_ifs <;> rfl
  | deleteSurface id =>
    refine ⟨?_, (queues_deleteSurface s id).closeRequested⟩
    rw [serve]
    unfold deleteSurface
    split_ifs <;> rfl
  | resize order width height monitors =>
    refine ⟨?_, (queues_resize s order width height monitors).closeRequested⟩
    obtain heq | ⟨hready, monitors', heq⟩ := s.resizeWithMonitors_cases order width height monitors
    · rw [serve, heq]
    · rw [serve, heq, hready]
      rfl
  | frame now timestampMs id frame =>
    refine ⟨?_, (queues_frame s now timestampMs id frame).closeRequested⟩
    obtain heq | ⟨timestamp, frameId, pdus, frames, -, -, -, heq⟩ :=
      painted_frame s now timestampMs id frame <;> rw [serve, heq]
    exact (pushAll_state _ _).1
  | setOutputDimensions width height | setMaxFramesInFlight max | drain => exact ⟨rfl, rfl⟩

theorem serve_idle (r : Request) (hready : s.state ≠ .ready) (hresizing : s.state ≠ .resizing)
    (hnone : s.surfaces = []) : (serve size s r).surfaces = [] := by
  have hget : ∀ id, s.getSurface id = none := by simp [getSurface, hnone]
  cases r with
  | createSurface width height format =>
    rw [serve, createSurfaceWithFormat, if_pos ⟨hready, hresizing⟩]
    exact hnone
  | mapSurfaceToOutput id originX originY =>
    rw [serve, mapSurfaceToOutput, if_pos (by simp [hget id])]
    exact hnone
  | deleteSurface id =>
    rw [serve, deleteSurface, if_pos (by simp [hget id])]
    exact hnone
  | resize order width height monitors =>
    obtain heq | ⟨hready', -⟩ := s.resizeWithMonitors_cases order width height monitors
    · rwa [serve, heq]
    · exact absurd hready' hready
  | frame now timestampMs id frame =>
    obtain heq | ⟨_, _, _, _, -, hready', -⟩ := painted_frame s now timestampMs id frame
    · rwa [serve, heq]
    · exact absurd hready' hready
  | setOutputDimensions width height | setMaxFramesInFlight max | drain => exact hnone

end

end Linrdp.Egfx.Requests
