import Linrdp.Display.Updates

/-!
# The ClearCodec session over a run

A client that resets its pipeline starts ClearCodec over. The loop learns of a reset by its surface
having gone (`recoverSurface`), but a frame that comes with a new size or a new pipeline server
creates its surface before that look, and a reset is then missed (`reset_missed_on_resize`).
`InStep` ties the loop to the servers, and `inSession_of_noticed` is about the runs in which every
renewal of the surface is one the loop may make without starting over (`Noticed`).
-/

namespace Linrdp.Display.ClearSeq

open Lib.Runs Lib.Rects Display.Frame Display.Routing
open Display.Sends Display.Updates Egfx.Server Egfx.Session
open Graphics.ClearCodec Capture.TileDamage Capture.Grabber GraphicsPipelineServer Option Prod
open Egfx.Server.GraphicsPipelineServer (queueFrame_spec sendClearcodecFrame_spec
  createSurface_spec createSurface_ready resize_spec)

def alive (u : EgfxUpdates) (s : GraphicsPipelineServer) : Bool :=
  u.surface.any fun surface => (s.getSurface surface.id).isSome

structure Sync (u : EgfxUpdates) (log : List ClearMessage) : Prop where
  seq : u.clearSeq = log.length % 256
  glyphs : Mirrors (takeEncoders u).clear log

structure Clean (u : EgfxUpdates) : Prop where
  seq : u.clearSeq = 0
  glyphs : ∀ index, (takeEncoders u).clear.glyphCache index = none

structure InStep (u : EgfxUpdates) (g : Graphics) : Prop where
  coherent : Coherent g
  inSession : ∀ k, InSession (g.servers k).accepted
  fresh : ∀ k, g.session.handle = some k → u.generation ≠ some k → (g.servers k).state = .ready →
    (g.servers k).accepted = []
  sync : ∀ k, u.generation = some k → alive u (g.servers k) = true → Sync u (g.servers k).accepted
  lost : ∀ k, u.generation = some k → alive u (g.servers k) = false → (g.servers k).accepted = []

/-- A grab that goes to the pipeline renews the surface only while the old one is still on the same
server, or with a new ClearCodec session. -/
def Noticed (d : World) : Input → Prop
  | .grab g _ _ _ => ∀ handle, d.gfx.session.handle = some handle → d.gfx.takesFrames = true →
      (generationChanged d.u handle || sizeChanged d.u g.grab.frame) = true →
      (d.u.generation = some handle ∧ alive d.u (d.gfx.servers handle) = true) ∨ Clean d.u
  | _ => True

theorem Clean.sync {u : EgfxUpdates} (h : Clean u) : Sync u [] :=
  ⟨h.seq, fun index hsome => by simp [h.glyphs index] at hsome⟩

theorem alive_congr {u u' : EgfxUpdates} {s s' : GraphicsPipelineServer}
    (hu : u'.surface = u.surface) (hs : s'.surfaces = s.surfaces) : alive u' s' = alive u s := by
  simp only [alive, getSurface, hu, hs]

theorem alive_of_surfaces_nil {u : EgfxUpdates} {s : GraphicsPipelineServer}
    (hs : s.surfaces = []) : alive u s = false := by
  unfold alive
  rcases u.surface with _ | surface
  · rfl
  · simp [getSurface, hs]

/-! ### What keeps them in step -/

section

variable {u u' : EgfxUpdates} {g g' : Graphics}

section

variable (h : InStep u g)
include h

theorem InStep.loop (hgeneration : u'.generation = u.generation)
    (hsurface : u'.surface = u.surface) (hseq : u'.clearSeq = u.clearSeq)
    (hglyphs : ∀ log, Mirrors (takeEncoders u).clear log → Mirrors (takeEncoders u').clear log) :
    InStep u' g := by
  refine ⟨h.coherent, h.inSession, fun k hk hne => ?_, fun k hk halive => ?_, fun k hk hgone => ?_⟩
  · rw [hgeneration] at hne
    exact h.fresh k hk hne
  · rw [hgeneration] at hk
    rw [alive_congr hsurface rfl] at halive
    obtain ⟨hsync, hmirrors⟩ := h.sync k hk halive
    exact ⟨hseq.trans hsync, hglyphs _ hmirrors⟩
  · rw [hgeneration] at hk
    rw [alive_congr hsurface rfl] at hgone
    exact h.lost k hk hgone

theorem InStep.kept (hkept : Kept u u') : InStep u' g :=
  h.loop hkept.generation hkept.surface hkept.clearSeq hkept.glyphs

theorem InStep.calm (hcalm : Calm g g')
    (hsame : ∀ k, (g'.servers k).surfaces = (g.servers k).surfaces ∧
      (g'.servers k).accepted = (g.servers k).accepted) : InStep u g' := by
  refine ⟨hcalm.coherent h.coherent, fun k => ?_, fun k hk hne hready => ?_, fun k hk halive => ?_,
    fun k hk hgone => ?_⟩
  · rw [(hsame k).2]
    exact h.inSession k
  · rw [(hsame k).2]
    exact h.fresh k (hcalm.session ▸ hk) hne (hcalm.state k ▸ hready)
  · rw [(hsame k).2]
    exact h.sync k hk (alive_congr rfl (hsame k).1 ▸ halive)
  · rw [(hsame k).2]
    exact h.lost k hk (alive_congr rfl (hsame k).1 ▸ hgone)

theorem InStep.event (e : GfxEvent) : InStep u (g.step e) := by
  have hsteady := steady_step h.coherent e
  refine ⟨coherent_step h.coherent e, fun k => ?_, fun k hk hne hready => ?_, fun k hk halive => ?_,
    fun k hk hgone => ?_⟩
  · obtain ⟨-, haccepted, -⟩ | ⟨-, haccepted⟩ := hsteady k
    · rw [haccepted]
      exact h.inSession k
    · rw [haccepted]
      exact inSession_nil
  · obtain ⟨-, haccepted, hwas⟩ | ⟨-, haccepted⟩ := hsteady k
    · rw [haccepted]
      by_cases he : e = .build
      · -- a server just built is not ready
        subst he
        obtain rfl : g.built = k := by simpa [Graphics.step, Graphics.build] using hk
        simp [Graphics.step, Graphics.build, new] at hready
      · rw [handle_step g he] at hk
        exact h.fresh k hk hne (hwas hready)
    · exact haccepted
  · obtain ⟨hsurfaces, haccepted, -⟩ | ⟨hsurfaces, -⟩ := hsteady k
    · rw [haccepted]
      exact h.sync k hk (alive_congr rfl hsurfaces ▸ halive)
    · rw [alive_of_surfaces_nil hsurfaces] at halive
      simp at halive
  · obtain ⟨hsurfaces, haccepted, -⟩ | ⟨-, haccepted⟩ := hsteady k
    · rw [haccepted]
      exact h.lost k hk (alive_congr rfl hsurfaces ▸ hgone)
    · exact haccepted

theorem InStep.await (handle : ℕ) (during : List GfxEvent) :
    InStep u ((pipeline handle during).await g) :=
  run_inv (fun _ e hg => hg.event e) h during

end

end

/-! ### Calls on the server -/

section

variable {u u' : EgfxUpdates} {g g' : Graphics} {handle id : ℕ} {during : List GfxEvent}

theorem servers_onServer (f : GraphicsPipelineServer → GraphicsPipelineServer) (k : ℕ) :
    ((g.onServer handle f).servers k) =
      if k = handle then f (g.servers handle) else g.servers k := Function.update_apply ..

theorem same_onServer {f : GraphicsPipelineServer → GraphicsPipelineServer}
    (hsurfaces : (f (g.servers handle)).surfaces = (g.servers handle).surfaces)
    (haccepted : (f (g.servers handle)).accepted = (g.servers handle).accepted) (k : ℕ) :
    ((g.onServer handle f).servers k).surfaces = (g.servers k).surfaces ∧
      ((g.onServer handle f).servers k).accepted = (g.servers k).accepted := by
  rw [servers_onServer]
  split_ifs with hk
  · rw [hk]
    exact ⟨hsurfaces, haccepted⟩
  · exact ⟨rfl, rfl⟩

theorem InStep.refused {r : Rect} {m : ClearMessage} (h : InStep u g)
    (hsent : (pipeline handle during).sendClearcodec g id r m = (false, g')) : InStep u g' := by
  have hfalse : ((g.servers handle).sendClearcodecFrame g.clock id m).1 = false :=
    congrArg fst hsent
  obtain ⟨frames, accepted, heq, ⟨-, haccepted⟩ | ⟨htrue, -⟩⟩ :=
    sendClearcodecFrame_spec (g.servers handle) g.clock id m
  · refine h.calm (calm_of_sendClearcodec hsent) ?_
    obtain rfl : g.onServer handle (fun s => (s.sendClearcodecFrame g.clock id m).2) = g' :=
      congrArg snd hsent
    refine same_onServer ?_ ?_
    · rw [heq]
    · rw [heq]
      exact haccepted
  · simp [hfalse] at htrue

theorem InStep.h264 {avc444v2 sent : Bool} (h : InStep u g)
    (hsent : (pipeline handle during).sendH264 g avc444v2 id = (sent, g')) : InStep u g' := by
  refine h.calm (calm_of_sendH264 hsent) ?_
  have hqueue : ∀ codec, g.onServer handle (fun s => (s.queueFrame g.clock id codec).2) = g' →
      ∀ k, (g'.servers k).surfaces = (g.servers k).surfaces ∧
        (g'.servers k).accepted = (g.servers k).accepted := by
    rintro codec rfl
    obtain ⟨frames, heq, -⟩ := queueFrame_spec (g.servers handle) g.clock id codec
    exact same_onServer (by rw [heq]) (by rw [heq])
  rcases avc444v2 with _ | _
  · exact hqueue (g.servers handle).codecCaps.avc420 (congrArg snd hsent)
  · exact hqueue (g.servers handle).codecCaps.avc444 (congrArg snd hsent)

theorem Sync.next {f : Frame} {r : Rect} {log : List ClearMessage} (h : Sync u log)
    (hlog : InSession log) (hseq : u'.clearSeq = (u.clearSeq + 1) % 256)
    (hencoder : (takeEncoders u').clear = commitGlyph (clearMessage u f r).2) :
    InSession (log ++ [(clearMessage u f r).1]) ∧ Sync u' (log ++ [(clearMessage u f r).1]) := by
  obtain ⟨hclear, hglyphs⟩ := h
  constructor
  · refine hlog.append ?_ fun index hhit => hglyphs index ?_
    · rw [clearMessage, encode_seq]
      exact hclear
    · have hcached := encode_hit hhit
      exact isSome_iff_exists.2 ⟨_, hcached⟩
  · constructor
    · rw [hseq, hclear, List.length_append, List.length_singleton]
      omega
    · rw [hencoder]
      exact mirrors_commit _ hglyphs

/-- **An accepted message is the next one of the session.** -/
theorem InStep.clear {surface : SurfaceState} {f : Frame} {r : Rect} (h : InStep u g)
    (hgeneration : u.generation = some handle) (hsurface : u.surface = some surface)
    (hsent : (pipeline handle during).sendClearcodec g surface.id r (clearMessage u f r).1 =
      (true, g'))
    (hsame : SameLoop u u') (hseq : u'.clearSeq = (u.clearSeq + 1) % 256)
    (hencoder : (takeEncoders u').clear = commitGlyph (clearMessage u f r).2) : InStep u' g' := by
  have hcalm := calm_of_sendClearcodec hsent
  have htrue : ((g.servers handle).sendClearcodecFrame g.clock surface.id
    (clearMessage u f r).1).1 = true := congrArg fst hsent
  obtain ⟨frames, accepted, heq, ⟨hfalse, -⟩ | ⟨-, haccepted, -, hsome⟩⟩ :=
    sendClearcodecFrame_spec (g.servers handle) g.clock surface.id (clearMessage u f r).1
  · simp [htrue] at hfalse
  have hservers : ∀ k, g'.servers k = if k = handle then
      { g.servers handle with frames := frames, accepted := accepted } else g.servers k := by
    intro k
    obtain rfl : g.onServer handle (fun s =>
        (s.sendClearcodecFrame g.clock surface.id (clearMessage u f r).1).2) = g' :=
      congrArg snd hsent
    rw [servers_onServer, heq]
  -- the surface is there, so the loop's state is the client's
  have halive : alive u (g.servers handle) = true := by simp [alive, hsurface, hsome]
  obtain ⟨hlog, hnext⟩ := (h.sync handle hgeneration halive).next (h.inSession handle) hseq hencoder
  rw [← haccepted] at hlog hnext
  refine ⟨hcalm.coherent h.coherent, fun k => ?_, fun k hk hne => ?_, fun k hk _ => ?_,
    fun k hk hgone => ?_⟩
  · rw [hservers]
    split_ifs
    · exact hlog
    · exact h.inSession k
  · rw [hsame.generation, hgeneration] at hne
    have hother : k ≠ handle := fun heq => hne (congrArg some heq.symm)
    rw [hservers, if_neg hother]
    exact h.fresh k (hcalm.session ▸ hk) (hgeneration ▸ hne)
  · obtain rfl : handle = k := by simpa [hsame.generation, hgeneration] using hk
    rw [hservers, if_pos rfl]
    exact hnext
  · obtain rfl : handle = k := by simpa [hsame.generation, hgeneration] using hk
    have hsurfaces : (g'.servers handle).surfaces = (g.servers handle).surfaces := by
      rw [hservers, if_pos rfl]
    rw [alive_congr hsame.surface hsurfaces, halive] at hgone
    simp at hgone

end

/-! ### A frame -/

section

variable {u v : EgfxUpdates} {g : Graphics} {l : Loop Graphics} {handle : ℕ}

structure Ensured (handle : ℕ) (u : EgfxUpdates) (g : Graphics) (l : Loop Graphics) : Prop where
  calm : Calm g l.env
  accepted : ∀ k, (l.env.servers k).accepted = (g.servers k).accepted
  present : alive l.u (l.env.servers handle) = true
  clearSeq : l.u.clearSeq = u.clearSeq
  encoders : l.u.encoders = u.encoders

theorem ensured (hready : (g.servers handle).state = .ready) (during : List GfxEvent)
    (trace : List Shown) (width height : ℕ) :
    Ensured handle u g (ensureSurface (pipeline handle during) ⟨u, g, trace⟩ width height) := by
  obtain ⟨env, henv, hcalm, haccepted⟩ : ∃ env,
      env = (if u.surface.isSome then (pipeline handle during).resize g width height else g) ∧
      Calm g env ∧ ∀ k, (env.servers k).accepted = (g.servers k).accepted := by
    refine ⟨_, rfl, ?_⟩
    split_ifs
    · refine ⟨calm_resize handle during g width height, fun k => ?_⟩
      show ((g.onServer handle .resize).servers k).accepted = _
      rw [servers_onServer]
      split_ifs with hk
      · rw [hk, (resize_spec _).2]
      · rfl
    · exact ⟨.refl g, fun _ => rfl⟩
  obtain ⟨hid, hsurface⟩ := createSurface_ready ((hcalm.state handle).trans hready) width height
  have hservers : ∀ k, ((call env handle fun s => s.createSurface width height).2.servers k) =
      if k = handle then ((env.servers handle).createSurface width height).2 else env.servers k :=
    servers_onServer fun _ => ((env.servers handle).createSurface width height).2
  simp only [ensureSurface, ← henv]
  refine ⟨hcalm.trans (calm_createSurface handle during env width height), fun k => ?_, ?_, rfl,
    rfl⟩
  · show ((call env handle fun s => s.createSurface width height).2.servers k).accepted = _
    rw [hservers, ← haccepted]
    split_ifs with hk
    · rw [hk, (createSurface_spec _ _ _).2]
    · rfl
  · show alive _ ((call env handle fun s => s.createSurface width height).2.servers handle) = true
    rw [hservers, if_pos rfl, alive]
    show (Option.elim ((env.servers handle).createSurface width height).1 u.surface _).any _ = true
    rw [hid]
    exact hsurface

theorem Ensured.inStep (h : Ensured handle u g l) (hg : Coherent g)
    (hlog : ∀ k, InSession (g.servers k).accepted) (hhandle : g.session.handle = some handle)
    (hsync : Sync u (g.servers handle).accepted) (hgeneration : v.generation = some handle)
    (hsurface : v.surface = l.u.surface) (hseq : v.clearSeq = l.u.clearSeq)
    (hencoders : v.encoders = l.u.encoders) : InStep v l.env := by
  have hcurrent : ∀ k, v.generation = some k → k = handle := fun k hk =>
    some.inj (hk.symm.trans hgeneration)
  refine ⟨h.calm.coherent hg, fun k => h.accepted k ▸ hlog k, fun k hk hne => ?_, fun k hk _ => ?_,
    fun k hk hgone => ?_⟩
  · rw [h.calm.session, hhandle] at hk
    exact absurd (hgeneration.trans hk) hne
  · rw [hcurrent k hk, h.accepted]
    refine ⟨(hseq.trans h.clearSeq).trans hsync.seq, ?_⟩
    rw [takeEncoders, hencoders, h.encoders, ← takeEncoders]
    exact hsync.glyphs
  · rw [hcurrent k hk, alive_congr hsurface rfl, h.present] at hgone
    simp at hgone

theorem InStep.renew (h : InStep u g) (hhandle : g.session.handle = some handle)
    (hready : (g.servers handle).state = .ready) (during : List GfxEvent) (now : ℕ) (f : Frame)
    (hnoticed : (generationChanged u handle || sizeChanged u f) = true →
      (u.generation = some handle ∧ alive u (g.servers handle) = true) ∨ Clean u) :
    InStep (renewSurface (pipeline handle during) ⟨u, g, []⟩ handle now f).u
        (renewSurface (pipeline handle during) ⟨u, g, []⟩ handle now f).env ∧
      (renewSurface (pipeline handle during) ⟨u, g, []⟩ handle now f).u.generation =
        some handle := by
  simp only [renewSurface]
  by_cases hrenew : (generationChanged u handle || sizeChanged u f) = true
  · rw [if_pos hrenew]
    have hsync : Sync u (g.servers handle).accepted := by
      rcases hnoticed hrenew with ⟨hgeneration, halive⟩ | hclean
      · exact h.sync handle hgeneration halive
      · -- nothing was accepted since the reset that the loop has not seen, if there was one
        by_cases hgeneration : u.generation = some handle
        · rcases halive : alive u (g.servers handle) with _ | _
          · rw [h.lost handle hgeneration halive]
            exact hclean.sync
          · exact h.sync handle hgeneration halive
        · rw [h.fresh handle hhandle hgeneration hready]
          exact hclean.sync
    refine ⟨(ensured hready during [] f.width f.height).inStep h.coherent h.inSession hhandle ?_
      rfl rfl rfl rfl, rfl⟩
    exact ⟨hsync.seq, hsync.glyphs⟩
  · rw [if_neg hrenew]
    refine ⟨h.loop rfl rfl rfl fun _ => id, ?_⟩
    simp only [Bool.or_eq_true, not_or, generationChanged] at hrenew
    simpa using hrenew.1

theorem InStep.recover (h : InStep l.u l.env) (hhandle : l.env.session.handle = some handle)
    (hgeneration : l.u.generation = some handle) (hready : (l.env.servers handle).state = .ready)
    (during : List GfxEvent) (hvanished : surfaceVanished (pipeline handle during) l = true)
    (now : ℕ) (f : Frame) :
    InStep (recoverSurface (pipeline handle during) l now f).u
      (recoverSurface (pipeline handle during) l now f).env := by
  have hgone : alive l.u (l.env.servers handle) = false := by
    unfold surfaceVanished at hvanished
    unfold alive
    rcases hsurface : l.u.surface with _ | surface
    · rfl
    · simpa [hsurface, pipeline] using hvanished
  refine (ensured hready during l.trace f.width f.height).inStep h.coherent h.inSession hhandle ?_
    hgeneration rfl rfl rfl
  rw [h.lost handle hgeneration hgone]
  refine ⟨rfl, ?_⟩
  rcases l.u.encoders with _ | e <;> exact mirrors_new []

/-- **A frame keeps the loop and the client in step.** -/
theorem InStep.frame (h : InStep u g) (hhandle : g.session.handle = some handle)
    (hready : (g.servers handle).state = .ready) (during : List GfxEvent) (now : ℕ) (grab : Grab)
    (i : FrameInput)
    (hnoticed : (generationChanged u handle || sizeChanged u grab.frame) = true →
      (u.generation = some handle ∧ alive u (g.servers handle) = true) ∨ Clean u) :
    InStep (processFrame (pipeline handle during) ⟨u, g, []⟩ handle now grab i).u
      (processFrame (pipeline handle during) ⟨u, g, []⟩ handle now grab i).env := by
  obtain ⟨hrenewed, hgeneration⟩ := h.renew hhandle hready during now grab.frame hnoticed
  have hcalm := calm_renewSurface handle now during u g grab.frame
  obtain ⟨hvanished, heq⟩ | ⟨-, hsends⟩ :=
    processFrame_sends (pipeline handle during) ⟨u, g, []⟩ i handle now grab
  · rw [heq]
    exact hrenewed.recover (hcalm.session ▸ hhandle) hgeneration
      ((hcalm.state handle).trans hready) during hvanished now grab.frame
  · have hawaited := hrenewed.await handle during
    obtain ⟨env, -, kept⟩ | ⟨present, before, sent, -, same, clearSeq, encoder⟩ |
      ⟨sent, -, kept⟩ | ⟨sent, -, kept⟩ := hsends
    · rcases env with env | env
      · rw [env]
        exact hrenewed.kept kept
      · rw [env]
        exact hawaited.kept kept
    · exact (hawaited.kept before).clear (before.generation.trans hgeneration)
        (before.surface.trans present) sent same clearSeq encoder
    · exact (hawaited.refused sent).kept kept
    · exact (hawaited.h264 sent).kept kept

end

/-! ### Whole runs -/

theorem InStep.restart {u : EgfxUpdates} {g : Graphics} (h : InStep u g)
    (htakes : g.takesFrames = false) (desktop : ℕ × ℕ) (settleUntil now : ℕ)
    (avc444v2Allowed : Bool) : InStep (.new desktop settleUntil now avc444v2Allowed) g := by
  refine ⟨h.coherent, h.inSession, fun k hk _ hready => ?_, fun k hk => ?_, fun k hk => ?_⟩
  · have hknown := h.coherent.ready_eq
    simp only [Graphics.takesFrames, hk, any_some, isReady, hready,
      beq_self_eq_true, Bool.and_true] at htakes hknown
    simp [hknown] at htakes
  all_goals simp [EgfxUpdates.new] at hk

theorem inStep_start (restart : Restart) (now : ℕ) (avc444v2Allowed : Bool) :
    InStep (start restart now avc444v2Allowed).u (start restart now avc444v2Allowed).gfx :=
  ⟨coherent_new now, fun _ => inSession_nil, fun _ _ _ _ => rfl,
    fun k hk => by simp [start, EgfxUpdates.new] at hk, fun _ _ _ => rfl⟩

theorem InStep.legacyGrab {u : EgfxUpdates} {g : Graphics} (h : InStep u g) (grab : Grab) :
    InStep (legacyGrab u grab).2 g := by
  unfold Routing.legacyGrab
  split <;> exact h.loop rfl rfl rfl fun _ => id

theorem inStep_step {d : World} {i : Input} (h : InStep d.u d.gfx) (hnoticed : Noticed d i) :
    InStep (step d i).u (step d i).gfx := by
  rcases i with e | area | _ | ⟨g, i, during, restart⟩
  · exact h.event e
  · exact h
  · obtain ⟨full, debt, area, hrefresh⟩ := takeRefresh_eq d.u d.requested
    simp only [step, hrefresh]
    exact h.loop rfl rfl rfl fun _ => id
  obtain ⟨seen, hseen⟩ := seeHandle_eq d.u (situation d.gfx)
  simp only [step]
  obtain ⟨-, hroute⟩ | ⟨hdecision, hupdate, hloop⟩ | ⟨handle, hhandle, htakes, hroute⟩ :=
    routed_cases d g i during
  · rw [hroute, hseen]
    exact h.loop rfl rfl rfl fun _ => id
  · rw [← mk.eta (p := routed d g i during), hupdate, hloop]
    have hu : InStep (seeHandle d.u (situation d.gfx)) d.gfx :=
      hseen ▸ h.loop rfl rfl rfl fun _ => id
    have hlegacy := hu.legacyGrab g.grab
    rcases (legacyGrab (seeHandle d.u (situation d.gfx)) g.grab).1 with _ | ⟨width, height⟩ | r
    · exact hlegacy
    · exact hlegacy.restart (decision_legacy hdecision).1 _ _ _ _
    · exact hlegacy
  · have hready : (d.gfx.servers handle).state = .ready := by
      simp only [Graphics.takesFrames, hhandle, any_some, Bool.and_eq_true] at htakes
      simpa [isReady] using htakes.2
    rw [hroute, hseen]
    have hu : InStep (latch { d.u with handleFirstSeen := seen }) d.gfx :=
      h.loop rfl rfl rfl fun _ => id
    refine hu.frame hhandle hready during d.gfx.clock g.grab i fun hrenew => ?_
    rcases hnoticed handle hhandle htakes hrenew with hpresent | hclean
    · exact .inl hpresent
    · exact .inr ⟨hclean.seq, hclean.glyphs⟩

/-- **The ClearCodec session.** In every run in which no renewal of the surface goes by a reset of
the client, what each pipeline server accepted since the client's last reset is numbered from zero
without a gap, and refers only to glyphs the client has. -/
theorem inSession_of_noticed (restart : Restart) (now : ℕ) (avc444v2Allowed : Bool)
    (inputs : List Input) (h : Along step Noticed (start restart now avc444v2Allowed) inputs)
    (pre : List Input) (hpre : pre <+: inputs) (k : ℕ) :
    InSession ((run step (start restart now avc444v2Allowed) pre).gfx.servers k).accepted :=
  (Along.inv_prefix (I := fun d : World => InStep d.u d.gfx) (fun _ _ hd hn => inStep_step hd hn)
    (inStep_start restart now avc444v2Allowed) h hpre).inSession k

/-! ### A client that resets its pipeline -/

def resettingClient : List Input :=
  [.gfx .build, .gfx .created, .gfx (.capsAdvertise (some ⟨false, false, false⟩)), changedPixel,
    .gfx (.capsAdvertise (some ⟨false, false, false⟩))]

def noticedReset : List Input := resettingClient ++ [changedPixel, .gfx (.elapse 250), changedPixel]

theorem inSession_of_noticedReset :
    Along step Noticed (start ⟨(1, 1), 0⟩ 0 false) noticedReset ∧
      InSession ((run step (start ⟨(1, 1), 0⟩ 0 false) noticedReset).gfx.servers 0).accepted := by
  have hnoticed : Along step Noticed (start ⟨(1, 1), 0⟩ 0 false) noticedReset := by
    refine ⟨trivial, trivial, trivial, fun _ _ _ _ => .inr ⟨rfl, fun _ => rfl⟩, trivial, ?_,
      trivial, ?_, trivial⟩
    all_goals
      intro handle hhandle _ hrenew
      obtain rfl : 0 = handle := some.inj hhandle
      exact absurd hrenew (by decide)
  exact ⟨hnoticed, inSession_of_noticed ⟨(1, 1), 0⟩ 0 false noticedReset hnoticed noticedReset
    (List.prefix_refl _) 0⟩

def twoPixels : SourceGrab where
  grab := ⟨⟨2, 1, [0, 0, 0, 0, 0, 0, 0, 0]⟩, some ⟨0, 0, 2, 1⟩, 1, 1⟩
  width_le := (by decide : 2 ≤ 65535)
  height_le := (onePixel true).height_le
  inside d hd := some.inj hd ▸ by decide

def missedReset : List Input :=
  resettingClient ++
    [.grab twoPixels ⟨1000, false, false, .joined, 0, false⟩ [] ⟨(1, 1), 0⟩]

/-- The first message after the reset has number one. -/
theorem reset_missed_on_resize :
    ¬ InSession ((run step (start ⟨(1, 1), 0⟩ 0 false) missedReset).gfx.servers 0).accepted := by
  intro h
  have hseqs : ((run step (start ⟨(1, 1), 0⟩ 0 false) missedReset).gfx.servers 0).accepted.map
      ClearMessage.seq = [1] := by decide +kernel
  obtain ⟨m, hlog, hone⟩ := List.map_eq_singleton_iff.1 hseqs
  have hzero := h.seq [] m [] hlog
  simp [hone] at hzero

end Linrdp.Display.ClearSeq
