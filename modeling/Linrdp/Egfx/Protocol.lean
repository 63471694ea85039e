import Linrdp.Lib.Runs
import Linrdp.Egfx.Requests

/-!
# The order of the protocol

Whatever the display asks of the pipeline and whatever the client sends, the stream of queued PDUs
is one the client accepts: a surface is created only after a `ResetGraphics` of its generation, and
only surfaces that exist in their generation are mapped, painted or deleted.
-/

namespace Linrdp.Egfx.Protocol

open List Lib.Runs
open Egfx.Capabilities Egfx.Output Egfx.Requests GraphicsPipelineServer Option Nat

/-! ### Runs -/

inductive Op
  | request (r : Request)
  | receive (now : ℕ) (pdu : ClientPdu)
  | elsewhere

def step (size : GfxPdu → ℕ) (c : Channel) : Op → Channel
  | .request r => { c with server := serve size c.server r }
  | .receive now pdu => (c.processData size now pdu).2
  | .elsewhere => { c with server := { c.server with nextGeneration := c.server.nextGeneration + 1 }
      }

def opened (counter channelId : ℕ) : Channel :=
  ⟨{ GraphicsPipelineServer.new counter with channelId := some channelId }, true⟩

def before (size : GfxPdu → ℕ) (counter channelId : ℕ) (ops : List Op) (n : ℕ) : Channel :=
  stateAt (step size) (opened counter channelId) ops n

/-! ### The order -/

def resets : GfxPdu → Bool
  | .resetGraphics _ _ _ => true
  | _ => false

def Created (stream : List Entry) (i generation id : ℕ) : Prop :=
  ∃ j e, j < i ∧ stream[j]? = some e ∧ e.generation = generation ∧ creates e.pdu = some id ∧
    ∀ k d, j < k → k < i → stream[k]? = some d → d.generation = generation →
    d.pdu ≠ .deleteSurface id

def WasReset (stream : List Entry) (i generation : ℕ) : Prop :=
  ∃ j e, j < i ∧ stream[j]? = some e ∧ e.generation = generation ∧ resets e.pdu = true

structure InOrder (stream : List Entry) : Prop where
  reset : ∀ i e, stream[i]? = some e → (creates e.pdu).isSome → WasReset stream i e.generation
  named : ∀ i e id, stream[i]? = some e → e.pdu.names = some id → Created stream i e.generation id

/-- What a repeated advertise does to the pipeline `s`, giving the replies `replies` and the
pipeline `s'`. -/
structure Restarted (s : GraphicsPipelineServer) (replies : List Entry)
    (s' : GraphicsPipelineServer) : Prop where
  confirm : ∃ cap, replies = [⟨s.queued.length, s'.generation, .capabilitiesConfirm cap⟩] ∧
    s'.queued = s.queued ++ replies
  queue : s'.outputQueue = []
  surfaces : s'.surfaces = []
  frames : s'.frames.unacknowledged = [] ∧ s'.frames.ackSuspended = false ∧
    s'.frames.clientQueueDepthAt = none
  generation : s'.generation ≠ s.generation ∧ ∀ e ∈ s.queued, s'.generation ≠ e.generation

structure ProtocolOrder (size : GfxPdu → ℕ) (counter channelId : ℕ) (ops : List Op) : Prop where
  stream : ∀ n, InOrder (before size counter channelId ops n).server.queued
  restart : ∀ n now caps,
    ops[n]? = some (.receive now (.capabilitiesAdvertise caps)) →
    (before size counter channelId ops n).isOpen = true →
    (∃ k < n, ∃ now' caps', ops[k]? = some (.receive now' (.capabilitiesAdvertise caps'))) →
    Shared caps preferredCapabilities →
    Restarted (before size counter channelId ops n).server
      ((before size counter channelId ops n).processData size now (.capabilitiesAdvertise caps)).1
      (before size counter channelId ops (n + 1)).server

/-! ### One more entry -/

section

variable {stream : List Entry} {e : Entry} {i generation id : ℕ}

theorem Created.snoc (h : Created stream i generation id) (hi : i ≤ stream.length) :
    Created (stream ++ [e]) i generation id := by
  obtain ⟨j, c, hj, hc, hgen, hid, hkept⟩ := h
  refine ⟨j, c, hj, getElem?_append_of_eq_some hc _, hgen, hid, ?_⟩
  intro k d hjk hk hd
  rw [getElem?_append_left (by omega)] at hd
  exact hkept k d hjk hk hd

theorem Created.keep (h : Created stream stream.length generation id)
    (he : e.generation = generation → e.pdu ≠ .deleteSurface id) :
    Created (stream ++ [e]) (stream ++ [e]).length generation id := by
  obtain ⟨j, c, hj, hc, hgen, hid, hkept⟩ := h
  refine ⟨j, c, by simp; omega, getElem?_append_of_eq_some hc _, hgen, hid, ?_⟩
  intro k d hjk hk hd hdgen
  obtain ⟨-, rfl⟩ | ⟨hlt, hd⟩ := getElem?_concat_cases hd
  · exact he hdgen
  · exact hkept k d hjk hlt hd hdgen

theorem WasReset.snoc (h : WasReset stream i generation) :
    WasReset (stream ++ [e]) i generation := by
  obtain ⟨j, r, hj, hr, hgen, hreset⟩ := h
  exact ⟨j, r, hj, getElem?_append_of_eq_some hr _, hgen, hreset⟩

theorem WasReset.mono {i' : ℕ} (h : WasReset stream i generation) (hi : i ≤ i') :
    WasReset stream i' generation := by
  obtain ⟨j, r, hj, hr⟩ := h
  exact ⟨j, r, by omega, hr⟩

theorem InOrder.snoc (h : InOrder stream)
    (hreset : (creates e.pdu).isSome → WasReset stream stream.length e.generation)
    (hnamed : ∀ id, e.pdu.names = some id → Created stream stream.length e.generation id) :
    InOrder (stream ++ [e]) := by
  refine ⟨fun i d hd hcreate => ?_, fun i d id hd hname => ?_⟩
  · obtain ⟨rfl, rfl⟩ | ⟨-, hd⟩ := getElem?_concat_cases hd
    · exact (hreset hcreate).snoc
    · exact (h.reset i d hd hcreate).snoc
  · obtain ⟨rfl, rfl⟩ | ⟨hlt, hd⟩ := getElem?_concat_cases hd
    · exact (hnamed id hname).snoc le_rfl
    · exact (h.named i d id hd hname).snoc hlt.le

end

/-! ### A sound pipeline -/

structure Sound (s : GraphicsPipelineServer) : Prop where
  surfaces : ∀ surface ∈ s.surfaces, Created s.queued s.queued.length s.generation surface.id
  reset : s.resetGraphicsSent = true → WasReset s.queued s.queued.length s.generation
  fresh : s.generation < s.nextGeneration ∧ ∀ e ∈ s.queued, e.generation < s.nextGeneration
  order : InOrder s.queued

section sound

variable {s s' : GraphicsPipelineServer}

section

variable (h : Sound s) (hqueued : s'.queued = s.queued) (hgen : s'.generation = s.generation)
  (hnext : s.nextGeneration ≤ s'.nextGeneration)
include h hqueued hgen hnext

theorem Sound.congr (hreset : s'.resetGraphicsSent = true → s.resetGraphicsSent = true)
    (hsurfaces : ∀ surface ∈ s'.surfaces, ∃ old ∈ s.surfaces, old.id = surface.id) : Sound s' := by
  refine ⟨fun surface hsurface => ?_, fun h' => ?_, ⟨?_, fun e he => ?_⟩, ?_⟩ <;>
    simp only [hqueued, hgen] at *
  · obtain ⟨old, hold, hid⟩ := hsurfaces surface hsurface
    exact hid ▸ h.surfaces old hold
  · exact h.reset (hreset h')
  · exact h.fresh.1.trans_le hnext
  · exact (h.fresh.2 e he).trans_le hnext
  · exact h.order

theorem Sound.same (hreset : s'.resetGraphicsSent = s.resetGraphicsSent)
    (hsurfaces : s'.surfaces = s.surfaces) : Sound s' :=
  h.congr hqueued hgen hnext hreset.symm.trans fun surface hsurface =>
    ⟨surface, hsurfaces ▸ hsurface, rfl⟩

end

section

variable (h : Sound s)
include h

theorem Sound.push {pdu : GfxPdu}
    (hreset : (creates pdu).isSome → WasReset s.queued s.queued.length s.generation)
    (hnamed : ∀ id, pdu.names = some id → Created s.queued s.queued.length s.generation id)
    (hkept : ∀ surface ∈ s.surfaces, pdu ≠ .deleteSurface surface.id) : Sound (s.push pdu) where
  surfaces surface hsurface :=
    (h.surfaces surface hsurface).keep fun _ => hkept surface hsurface
  reset hsent := (h.reset hsent).snoc.mono (by simp [GraphicsPipelineServer.push])
  fresh := ⟨h.fresh.1, forall_mem_append.2 ⟨h.fresh.2, forall_mem_singleton.2 h.fresh.1⟩⟩
  order := h.order.snoc hreset hnamed

theorem Sound.push_plain {pdu : GfxPdu} (hcreate : creates pdu = none)
    (hname : pdu.names = none) : Sound (s.push pdu) := by
  refine h.push (by simp [hcreate]) (by simp [hname]) fun surface _ heq => ?_
  rw [heq] at hname
  exact absurd hname (by simp [GfxPdu.names])

theorem Sound.created_of_get {id : ℕ} (hsome : (s.getSurface id).isSome) :
    Created s.queued s.queued.length s.generation id := by
  obtain ⟨surface, hget⟩ := isSome_iff_exists.1 hsome
  have hid : surface.id = id := by simpa using find?_some hget
  exact hid ▸ h.surfaces surface (mem_of_find?_eq_some hget)

theorem Sound.after_reset {width height : ℕ} {monitors : List Monitor}
    (hqueued : s'.queued = (s.push (.resetGraphics width height monitors)).queued)
    (hgen : s'.generation = s.generation) (hnext : s'.nextGeneration = s.nextGeneration)
    (hsurfaces : s'.surfaces = s.surfaces) : Sound s' := by
  have hpush : Sound (s.push (.resetGraphics width height monitors)) := h.push_plain rfl rfl
  refine ⟨?_, fun _ => ?_, ?_, ?_⟩
  · rw [hqueued, hgen, hsurfaces]
    exact hpush.surfaces
  · rw [hqueued, hgen]
    exact ⟨s.queued.length, _, by simp [GraphicsPipelineServer.push], getElem?_concat_length,
      rfl, rfl⟩
  · rw [hqueued, hgen, hnext]
    exact hpush.fresh
  · rw [hqueued]
    exact hpush.order

theorem Sound.ensureReset (width height : ℕ) : Sound (s.ensureReset width height) := by
  by_cases hsent : s.resetGraphicsSent = true
  · rwa [GraphicsPipelineServer.ensureReset, if_pos hsent]
  · rw [GraphicsPipelineServer.ensureReset, if_neg hsent]
    exact h.after_reset rfl rfl rfl rfl

end

theorem ensureReset_sent (s : GraphicsPipelineServer) (width height : ℕ) :
    (s.ensureReset width height).resetGraphicsSent = true := by
  by_cases hsent : s.resetGraphicsSent = true
  · rwa [ensureReset, if_pos hsent]
  · rw [ensureReset, if_neg hsent]

section

variable (h : Sound s)
include h

theorem sound_createSurface (width height : ℕ) (format : PixelFormat) :
    Sound (s.createSurfaceWithFormat width height format).2 := by
  unfold createSurfaceWithFormat
  split_ifs with hstate
  · exact h
  have hready := h.ensureReset width height
  have hsent := hready.reset (ensureReset_sent s width height)
  generalize s.ensureReset width height = t at hready hsent
  have hpush : Sound (t.push (.createSurface t.nextSurfaceId width height format)) :=
    hready.push (fun _ => hsent) (by simp [GfxPdu.names]) (by simp)
  refine { hpush with surfaces := fun surface hsurface => ?_ }
  rcases mem_cons.1 hsurface with rfl | hsurface
  · refine ⟨t.queued.length, _, by simp [push],
      getElem?_concat_length, rfl, rfl, fun k d hk hlt => ?_⟩
    simp only [push, length_append, length_singleton] at hlt
    omega
  · exact hpush.surfaces surface (mem_of_mem_filter hsurface)

theorem sound_deleteSurface (id : ℕ) : Sound (s.deleteSurface id).2 := by
  unfold deleteSurface
  split_ifs with hnone
  · exact h
  have hcreated := h.created_of_get (by simpa [isSome_iff_ne_none] using hnone)
  have hrest : Sound { s with surfaces := s.surfaces.filter fun surface => surface.id != id } :=
    h.congr rfl rfl le_rfl (fun h' => h') fun surface hsurface =>
      ⟨surface, mem_of_mem_filter hsurface, rfl⟩
  refine hrest.push (by simp [creates]) (fun id' hname => ?_) fun surface hsurface => ?_
  · exact some.inj hname ▸ hcreated
  · have hne : surface.id ≠ id := by simpa using (mem_filter.1 hsurface).2
    intro heq
    rw [GfxPdu.deleteSurface.injEq] at heq
    exact hne heq.symm

theorem sound_mapSurfaceToOutput (id originX originY : ℕ) :
    Sound (s.mapSurfaceToOutput id originX originY).2 := by
  unfold mapSurfaceToOutput
  split_ifs with hnone
  · exact h
  have hcreated := h.created_of_get (by simpa [isSome_iff_ne_none] using hnone)
  have hmapped : Sound { s with surfaces := s.surfaces.map (Surface.mapped id originX originY)
      } := by
    refine h.congr rfl rfl le_rfl (fun h' => h') fun surface hsurface => ?_
    obtain ⟨old, hold, rfl⟩ := mem_map.1 hsurface
    refine ⟨old, hold, ?_⟩
    unfold Surface.mapped
    split_ifs <;> rfl
  refine hmapped.push (by simp [creates]) (fun id' hname => ?_) (by simp)
  exact some.inj hname ▸ hcreated

theorem sound_deleteAll (ids : List ℕ) :
    Sound (ids.foldl (fun s id => (s.deleteSurface id).2) s) := by
  induction ids generalizing s with
  | nil => exact h
  | cons id ids ih => exact ih (sound_deleteSurface h id)

theorem sound_resize (order : List ℕ) (width height : ℕ) (monitors : List Monitor) :
    Sound (s.resizeWithMonitors order width height monitors) := by
  obtain heq | ⟨-, monitors', heq⟩ := s.resizeWithMonitors_cases order width height monitors <;>
      rw [heq]
  · exact h
  · have hstart : Sound { s with state := .resizing, outputWidth := width, outputHeight :=
      height } :=
      h.same rfl rfl le_rfl rfl rfl
    have hdeleted := sound_deleteAll hstart (order ++ s.surfaces.map Surface.id)
    exact hdeleted.after_reset rfl rfl rfl rfl

theorem sound_pushAll {pdus : List GfxPdu} (hpdus : ∀ pdu ∈ pdus, creates pdu = none ∧
      (∀ id, pdu ≠ .deleteSurface id) ∧ ∀ id, pdu.names = some id → (s.getSurface id).isSome) :
    Sound (pdus.foldl GraphicsPipelineServer.push s) := by
  induction pdus generalizing s with
  | nil => exact h
  | cons pdu pdus ih =>
    obtain ⟨hcreate, hdelete, hnamed⟩ := hpdus pdu mem_cons_self
    refine ih (h.push (by simp [hcreate]) (fun id hname => ?_) fun surface _ => hdelete surface.id)
      fun p hp => hpdus p (mem_cons_of_mem pdu hp)
    exact h.created_of_get (hnamed id hname)

theorem sound_frame (now timestampMs id : ℕ) (frame : Frame) :
    Sound (sendFrame s now timestampMs id frame).2 := by
  obtain heq | ⟨timestamp, frameId, pdus, frames, hsurface, -, hpaints, heq⟩ :=
    painted_frame s now timestampMs id frame <;> rw [heq]
  · exact h
  · have hstart : Sound { s with frames := frames } :=
      h.same rfl rfl le_rfl rfl rfl
    refine sound_pushAll hstart fun p hp => ?_
    simp only [cons_append, mem_cons, mem_append, not_mem_nil, or_false] at hp
    rcases hp with rfl | hp | rfl
    · exact ⟨rfl, by simp, by simp [GfxPdu.names]⟩
    · obtain ⟨hcreate, hdelete, hname⟩ := hpaints p hp
      refine ⟨hcreate, hdelete, fun id' hid => ?_⟩
      exact some.inj (hname.symm.trans hid) ▸ hsurface
    · exact ⟨rfl, by simp, by simp [GfxPdu.names]⟩

end

theorem sound_serve (size : GfxPdu → ℕ) (h : Sound s) (r : Request) : Sound (serve size s r) := by
  cases r with
  | createSurface width height format => exact sound_createSurface h width height format
  | mapSurfaceToOutput id originX originY => exact sound_mapSurfaceToOutput h id originX originY
  | deleteSurface id => exact sound_deleteSurface h id
  | resize order width height monitors => exact sound_resize h order width height monitors
  | frame now timestampMs id frame => exact sound_frame h now timestampMs id frame
  | setOutputDimensions width height | setMaxFramesInFlight max | drain =>
    exact h.same rfl rfl le_rfl rfl rfl

end sound

/-! ### Messages -/

section

variable {s : GraphicsPipelineServer} {size : GfxPdu → ℕ}

def Settled (s : GraphicsPipelineServer) : Prop :=
  s.state = .ready ∨ s.state ≠ .ready ∧ s.state ≠ .resizing ∧ s.surfaces = []

section

variable (h : Sound s)
include h

theorem sound_restart : Sound s.restart where
  surfaces surface hsurface := by simp [restart] at hsurface
  reset hsent := by simp [restart] at hsent
  fresh := ⟨lt_succ_self _, fun e he => (h.fresh.2 e he).trans (lt_succ_self _)⟩
  order := h.order

theorem Sound.confirm (cap : CapabilitySet) : Sound (s.confirm cap) := by
  have hready : Sound { s with
      codecCaps := fromCapabilitySet cap, state := .ready, negotiatedCaps := some cap } :=
    h.same rfl rfl le_rfl rfl rfl
  exact hready.push_plain rfl rfl

theorem sound_advertised (hsettled : Settled s) :
    Sound s.restartIfReady ∧
      s.restartIfReady.surfaces = [] ∧
      s.restartIfReady.state = s.state := by
  unfold restartIfReady
  split_ifs with hready
  · exact ⟨sound_restart h, rfl, rfl⟩
  · obtain hready' | ⟨-, -, hnone⟩ := hsettled
    · exact absurd hready' hready
    · exact ⟨h, hnone, rfl⟩

theorem sound_handle (hsettled : Settled s) (now : ℕ) (pdu : ClientPdu) :
    Sound (s.handle now pdu) ∧ Settled (s.handle now pdu) := by
  cases pdu with
  | capabilitiesAdvertise caps =>
    obtain ⟨hsound, hnone, hstate⟩ := sound_advertised h hsettled
    rcases hcap : negotiateCapabilities caps preferredCapabilities with _ | cap
    · rw [handle_advertise_none hcap]
      generalize s.restartIfReady = t at hsound hnone hstate ⊢
      refine ⟨hsound.same rfl rfl le_rfl rfl rfl, ?_⟩
      rcases hsettled with hready | ⟨hready, hresizing, -⟩
      · exact .inl (hstate.trans hready)
      · exact .inr ⟨by rwa [← hstate] at hready, by rwa [← hstate] at hresizing, hnone⟩
    · rw [handle_advertise_some hcap]
      exact ⟨hsound.confirm _, .inl rfl⟩
  | frameAcknowledge frameId queueDepth => exact ⟨h.same rfl rfl le_rfl rfl rfl, hsettled⟩
  | cacheImportOffer => exact ⟨h.push_plain rfl rfl, hsettled⟩
  | other => exact ⟨h, hsettled⟩

theorem handle_closing (hsettled : Settled s) {now : ℕ} {pdu : ClientPdu}
    (hopen : s.closeRequested = false) (hclose : (s.handle now pdu).closeRequested = true) :
    (s.handle now pdu).surfaces = [] := by
  cases pdu with
  | capabilitiesAdvertise caps =>
    obtain ⟨-, hnone, -⟩ := sound_advertised h hsettled
    rcases hcap : negotiateCapabilities caps preferredCapabilities with _ | cap
    · rw [handle_advertise_none hcap]
      exact hnone
    · rw [handle_advertise_some hcap]
      exact hnone
  | frameAcknowledge frameId queueDepth | other => simp [handle, hopen] at hclose
  | cacheImportOffer => simp [handle, handleCacheImportOffer, push, hopen] at hclose

end

end

/-! ### Runs keep it -/

structure Inv (c : Channel) : Prop where
  sound : Sound c.server
  settled : Settled c.server
  closing : c.isOpen = true → c.server.closeRequested = false

section run

variable {size : GfxPdu → ℕ} {c : Channel}

theorem inv_opened (counter channelId : ℕ) : Inv (opened counter channelId) where
  sound := ⟨nofun, nofun, ⟨lt_succ_self counter, nofun⟩, ⟨nofun, nofun⟩⟩
  settled := .inr ⟨nofun, nofun, rfl⟩
  closing _ := rfl

theorem sound_close {s : GraphicsPipelineServer} (h : Sound s) (hnone : s.surfaces = []) :
    Sound s.close where
  surfaces surface hsurface := by simp [close, takeGeneration, hnone] at hsurface
  reset hsent := by simp [close] at hsent
  fresh := ⟨lt_succ_self _, fun e he => (h.fresh.2 e he).trans (lt_succ_self _)⟩
  order := h.order

theorem sound_drain {s : GraphicsPipelineServer} (h : Sound s) : Sound (s.drainOutput size).2 :=
  h.same rfl rfl le_rfl rfl rfl

theorem inv_receive (h : Inv c) (now : ℕ) (pdu : ClientPdu) :
    Inv (c.processData size now pdu).2 := by
  by_cases hopen : c.isOpen = true
  swap
  · rw [Channel.processData, if_neg hopen]
    exact h
  obtain ⟨hsound, hsettled⟩ := sound_handle h.sound h.settled now pdu
  have hdrained : Sound (c.server.process size now pdu).2 := sound_drain hsound
  by_cases hclose : (c.server.process size now pdu).2.closeRequested = true
  · rw [Channel.processData, if_pos hopen]
    simp only [if_pos hclose]
    have hnone : (c.server.process size now pdu).2.surfaces = [] :=
      handle_closing h.sound h.settled (h.closing hopen) hclose
    exact ⟨sound_close hdrained hnone, .inr ⟨by simp [close],
      by simp [close], hnone⟩, by simp⟩
  · rw [Channel.processData, if_pos hopen]
    simp only [if_neg hclose]
    exact ⟨hdrained, hsettled, fun _ => by simpa using hclose⟩

theorem inv_step (h : Inv c) (op : Op) : Inv (step size c op) := by
  cases op with
  | request r =>
    obtain ⟨hstate, hclose⟩ := serve_state size c.server r
    refine ⟨sound_serve size h.sound r, ?_, fun hopen => hclose.trans (h.closing hopen)⟩
    rcases h.settled with hready | ⟨hready, hresizing, hnone⟩
    · exact .inl (hstate.trans hready)
    · refine .inr ⟨?_, ?_, serve_idle r hready hresizing hnone⟩
      · rwa [← hstate] at hready
      · rwa [← hstate] at hresizing
  | receive now pdu => exact inv_receive h now pdu
  | elsewhere => exact { h with sound := h.sound.same rfl rfl (le_succ _) rfl rfl }

theorem inv_before (size : GfxPdu → ℕ) (counter channelId : ℕ) (ops : List Op) (n : ℕ) :
    Inv (before size counter channelId ops n) :=
  run_inv (I := Inv) (fun _ op h => inv_step h op) (inv_opened counter channelId) (ops.take n)

theorem processData_open {now : ℕ} {pdu : ClientPdu}
    (h : (c.processData size now pdu).2.isOpen = true) :
    c.isOpen = true ∧ (c.server.handle now pdu).closeRequested = false ∧
      c.processData size now pdu =
        ((c.server.process size now pdu).1, ⟨(c.server.process size now pdu).2, true⟩) := by
  by_cases hopen : c.isOpen = true
  swap
  · rw [Channel.processData, if_neg hopen] at h
    exact absurd h hopen
  by_cases hclose : (c.server.process size now pdu).2.closeRequested = true
  · rw [Channel.processData, if_pos hopen] at h
    simp only [if_pos hclose] at h
    contradiction
  · refine ⟨hopen, Bool.eq_false_iff.2 hclose, ?_⟩
    rw [Channel.processData, if_pos hopen]
    simp only [if_neg hclose]

theorem ready_of_advertise {now : ℕ} {caps : List CapabilitySet}
    (h : (c.processData size now (.capabilitiesAdvertise caps)).2.isOpen = true) :
    (c.processData size now (.capabilitiesAdvertise caps)).2.server.state = .ready := by
  obtain ⟨-, hclose, heq⟩ := processData_open h
  rw [heq]
  rcases hcap : negotiateCapabilities caps preferredCapabilities with _ | cap
  · rw [handle_advertise_none hcap] at hclose
    contradiction
  · show (c.server.handle now (.capabilitiesAdvertise caps)).state = _
    rw [handle_advertise_some hcap]
    rfl

theorem open_of_step {op : Op} (h : (step size c op).isOpen = true) : c.isOpen = true := by
  cases op with
  | request r | elsewhere => exact h
  | receive now pdu => exact (processData_open h).1

theorem ready_step {op : Op} (hready : c.server.state = .ready)
    (hopen : (step size c op).isOpen = true) : (step size c op).server.state = .ready := by
  cases op with
  | request r => exact (serve_state size c.server r).1.trans hready
  | receive now pdu =>
    obtain ⟨-, -, heq⟩ := processData_open hopen
    cases pdu with
    | capabilitiesAdvertise caps => exact ready_of_advertise hopen
    | frameAcknowledge frameId queueDepth | cacheImportOffer | other =>
      rw [step, heq]
      exact hready
  | elsewhere => exact hready

theorem before_succ {counter channelId : ℕ} {ops : List Op} {n : ℕ} {op : Op}
    (hop : ops[n]? = some op) : before size counter channelId ops (n + 1) = step size
    (before size counter channelId ops n) op :=
  stateAt_succ _ _ hop

theorem ready_of_advertised {counter channelId : ℕ} {ops : List Op} {n k now : ℕ}
    {caps : List CapabilitySet} (hkn : k < n)
    (hk : ops[k]? = some (.receive now (.capabilitiesAdvertise caps)))
    (hopen : (before size counter channelId ops n).isOpen = true) :
    (before size counter channelId ops n).server.state = .ready := by
  induction hkn with
  | refl =>
    rw [before_succ hk] at hopen ⊢
    exact ready_of_advertise hopen
  | @step n hkn ih =>
    rcases hop : ops[n]? with _ | op
    · have hnext : before size counter channelId ops (n + 1) = before size counter channelId ops
        n :=
        stateAt_succ_none _ _ hop
      rw [hnext] at hopen ⊢
      exact ih hopen
    · rw [before_succ hop] at hopen ⊢
      exact ready_step (ih (open_of_step hopen)) hopen

/-- **A repeated advertise** that has a set in common with the server. -/
theorem restarted_of_ready (h : Inv c) {now : ℕ} {caps : List CapabilitySet}
    (hopen : c.isOpen = true) (hready : c.server.state = .ready)
    (hshared : Shared caps preferredCapabilities) :
    Restarted c.server (c.processData size now (.capabilitiesAdvertise caps)).1
      (c.processData size now (.capabilitiesAdvertise caps)).2.server := by
  obtain ⟨cap, hcap⟩ := isSome_iff_exists.1
    ((negotiateCapabilities_isSome caps preferredCapabilities).2 hshared)
  have hhandle : c.server.handle now (.capabilitiesAdvertise caps) =
      c.server.restart.confirm (sanitizeCapabilitiesForConfirm cap) := by
    rw [handle_advertise_some hcap, restartIfReady, if_pos hready]
  have hprocess : c.processData size now (.capabilitiesAdvertise caps) =
      ((c.server.process size now (.capabilitiesAdvertise caps)).1,
        ⟨(c.server.process size now (.capabilitiesAdvertise caps)).2, true⟩) := by
    refine (processData_open ?_).2.2
    have hclose : (c.server.process size now (.capabilitiesAdvertise caps)).2.closeRequested =
        false := by
      rw [process, hhandle]
      exact h.closing hopen
    rw [Channel.processData, if_pos hopen]
    simp [hclose]
  rw [hprocess, process, hhandle]
  refine ⟨⟨sanitizeCapabilitiesForConfirm cap, rfl, rfl⟩, rfl, rfl, ?_, ?_, fun e he => ?_⟩
  · exact ⟨rfl, rfl, rfl⟩
  · exact h.sound.fresh.1.ne'
  · exact (h.sound.fresh.2 e he).ne'

end run

/-- **The order of the protocol.** -/
theorem protocol_order (size : GfxPdu → ℕ) (counter channelId : ℕ) (ops : List Op) :
    ProtocolOrder size counter channelId ops where
  stream n := (inv_before size counter channelId ops n).sound.order
  restart n now caps hop hopen hearlier hshared := by
    obtain ⟨k, hkn, now', caps', hk⟩ := hearlier
    have hready := ready_of_advertised hkn hk hopen
    rw [before_succ hop]
    exact restarted_of_ready (inv_before size counter channelId ops n) hopen hready hshared

end Linrdp.Egfx.Protocol
