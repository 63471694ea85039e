import Linrdp.Egfx.Server
import Linrdp.Display.Frame
import Linrdp.Lib.Runs

/-!
# The graphics session and its channel

`GfxSession` of `gfx.rs` is what the channel side tells the display loop. `Graphics` holds it
together with every pipeline server built so far and with the state of the graphics channel, and
`GfxEvent` is everything that can happen to them between two steps of the display loop. `pipeline
handle during` is the server behind the handle the loop took, with the events that come while an
encode task runs.
-/

namespace Linrdp.Egfx.Session

open Function Option Lib.Runs Egfx.Server Display.Frame GraphicsPipelineServer

structure GfxSession where
  handle : Option ℕ
  (ready clientSupportsEgfx unavailable : Bool)

namespace GfxSession

def new : GfxSession := ⟨none, false, false, false⟩

def onReady (s : GfxSession) : GfxSession := { s with ready := true }

def onClose (s : GfxSession) : GfxSession := { s with ready := false, unavailable := true }

end GfxSession

open GfxSession

/-- The dynamic channel of the current pipeline server: not yet answered by the client, open, or
refused or closed. -/
inductive ChannelState
  | creation | opened | gone
deriving DecidableEq

structure Graphics where
  session : GfxSession
  channel : ChannelState
  servers : ℕ → GraphicsPipelineServer
  (built clock readied closures : ℕ)

inductive GfxEvent
  | elapse (ms : ℕ)
  | build
  | support (supported : Bool)
  | created | refused | closed
  | capsAdvertise (negotiated : Option CodecCapabilities)
  | frameAcknowledge (frameId queueDepth : ℕ)
  | drained (frameId sizeBytes : ℕ)
  | window (maxInFlight : ℕ)
deriving DecidableEq

namespace Graphics

def new (now : ℕ) : Graphics := ⟨.new, .gone, fun _ => .new, 0, now, 0, 0⟩

variable (g : Graphics)

def onServer (handle : ℕ) (f : GraphicsPipelineServer → GraphicsPipelineServer) : Graphics :=
  { g with servers := Function.update g.servers handle (f (g.servers handle)) }

def onCurrent (f : GraphicsPipelineServer → GraphicsPipelineServer) : Graphics :=
  g.session.handle.elim g fun handle => g.onServer handle f

def closeProcessor : Graphics :=
  let g := g.onCurrent .close
  { g with session := g.session.onClose, channel := .gone, closures := g.closures + 1 }

def build : Graphics :=
  { g with
    session := { g.session with handle := some g.built, ready := false, unavailable := false }
    channel := .creation
    servers := Function.update g.servers g.built .new
    built := g.built + 1 }

def capsAdvertise (negotiated : Option CodecCapabilities) : Graphics :=
  if g.channel ≠ .opened then g
  else
    let g := g.onCurrent fun s => s.handleCapabilitiesAdvertise negotiated
    match negotiated with
    | some _ => { g with session := g.session.onReady, readied := g.readied + 1 }
    | none => g.closeProcessor

def step : GfxEvent → Graphics
  | .elapse ms => { g with clock := g.clock + ms }
  | .build => g.build
  | .support supported => { g with session := { g.session with clientSupportsEgfx := supported } }
  | .created => if g.channel = .creation then { g with channel := .opened } else g
  | .refused => if g.channel = .creation then g.closeProcessor else g
  | .closed =>
    -- a channel that was never opened is dropped without a word to its processor
    if g.channel = .opened then g.closeProcessor else { g with channel := .gone }
  | .capsAdvertise negotiated => g.capsAdvertise negotiated
  | .frameAcknowledge frameId queueDepth =>
    if g.channel ≠ .opened then g
    else g.onCurrent fun s =>
      { s with frames := s.frames.acknowledge frameId queueDepth g.clock }
  | .drained frameId sizeBytes =>
    g.onCurrent fun s => { s with frames := s.frames.setFrameSize frameId sizeBytes }
  | .window maxInFlight =>
    g.onCurrent fun s => { s with frames := { s.frames with maxInFlight := maxInFlight } }

end Graphics

open Egfx.Session.Graphics Nat

/-! ### What the events keep -/

def ChannelState.Fits : ChannelState → ServerState → Prop
  | .creation, s => s = .waitingForCapabilities
  | .opened, s => s = .waitingForCapabilities ∨ s = .ready
  | .gone, s => s = .waitingForCapabilities ∨ s = .closed

structure Settled (s : GraphicsPipelineServer) : Prop where
  waiting : s.state = .waitingForCapabilities → s.surfaces = [] ∧ s.accepted = []
  notResizing : s.state ≠ .resizing

structure Coherent (g : Graphics) : Prop where
  handle_lt : ∀ h, g.session.handle = some h → h < g.built
  ready_eq : g.session.ready = g.session.handle.any fun h => (g.servers h).isReady
  handle_of_channel : g.channel ≠ .gone → g.session.handle ≠ none
  available : g.channel ≠ .gone → g.session.unavailable = false
  fits : ∀ h, g.session.handle = some h → g.channel.Fits (g.servers h).state
  settled : ∀ h, Settled (g.servers h)

variable {g : Graphics}

theorem Coherent.available_of_ready (hg : Coherent g) {h : ℕ}
    (hh : g.session.handle = some h) (hready : (g.servers h).state = .ready) :
    g.session.unavailable = false := by
  refine hg.available fun hgone => ?_
  have hfits := hg.fits h hh
  rw [hgone, hready] at hfits
  simp [ChannelState.Fits] at hfits

theorem settled_new : Settled .new := ⟨fun _ => ⟨rfl, rfl⟩, by decide⟩

theorem coherent_new (now : ℕ) : Coherent (Graphics.new now) := by
  refine ⟨fun h hh => ?_, rfl, fun h => absurd rfl h, fun h => absurd rfl h, fun h hh => ?_,
    fun _ => settled_new⟩
  all_goals simp [Graphics.new, GfxSession.new] at hh

variable {f : GraphicsPipelineServer → GraphicsPipelineServer}

theorem onCurrent_some {handle : ℕ} (h : g.session.handle = some handle)
    (f : GraphicsPipelineServer → GraphicsPipelineServer) :
    g.onCurrent f = g.onServer handle f := by rw [onCurrent, h, elim_some]

theorem onCurrent_eq (g : Graphics) (f : GraphicsPipelineServer → GraphicsPipelineServer) :
    ∃ servers, g.onCurrent f = { g with servers } := by
  unfold onCurrent
  rcases g.session.handle with _ | handle
  · exact ⟨g.servers, rfl⟩
  · exact ⟨_, rfl⟩

def Graphics.takesFrames (g : Graphics) : Bool :=
  g.session.handle.any fun handle => g.session.ready && (g.servers handle).isReady

structure Later (g g' : Graphics) : Prop where
  readied : g.readied ≤ g'.readied
  closures : g.closures ≤ g'.closures
  takesFrames : g'.takesFrames = true → g.takesFrames = true ∨ g.readied < g'.readied
  unavailable : g'.session.unavailable = true →
    g.session.unavailable = true ∨ g.closures < g'.closures

theorem Later.refl (g : Graphics) : Later g g := ⟨le_refl _, le_refl _, .inl, .inl⟩

variable {g' : Graphics}

theorem Later.trans {g'' : Graphics} (h : Later g g') (h' : Later g' g'') : Later g g'' := by
  obtain ⟨hreadied, hclosures, htakes, hun⟩ := h
  obtain ⟨hreadied', hclosures', htakes', hun'⟩ := h'
  refine ⟨by omega, by omega, fun ht => ?_, fun hu => ?_⟩
  · rcases htakes' ht with ht | hlt
    · exact (htakes ht).imp_right fun hlt => by omega
    · exact .inr (by omega)
  · rcases hun' hu with hu | hlt
    · exact (hun hu).imp_right fun hlt => by omega
    · exact .inr (by omega)

structure Calm (g g' : Graphics) : Prop where
  same : g' = { g with servers := g'.servers }
  state : ∀ k, (g'.servers k).state = (g.servers k).state
  settled : ∀ k, Settled (g.servers k) → Settled (g'.servers k)

theorem Calm.refl (g : Graphics) : Calm g g := ⟨rfl, fun _ => rfl, fun _ => id⟩

theorem Calm.trans {g'' : Graphics} (h : Calm g g') (h' : Calm g' g'') : Calm g g'' :=
  ⟨h'.same.trans (by rw [h.same]), fun k => (h'.state k).trans (h.state k),
    fun k hs => h'.settled k (h.settled k hs)⟩

theorem Calm.session (h : Calm g g') : g'.session = g.session := by rw [h.same]

theorem Calm.coherent (h : Calm g g') (hg : Coherent g) : Coherent g' := by
  obtain ⟨hsame, hstate, hsettled⟩ := h
  rw [hsame]
  refine { hg with ready_eq := ?_, fits := fun k hk => ?_, settled := fun k => ?_ }
  · simp only [isReady, hstate]
    exact hg.ready_eq
  · rw [hstate k]
    exact hg.fits k hk
  · exact hsettled k (hg.settled k)

theorem Calm.takesFrames (h : Calm g g') : g'.takesFrames = g.takesFrames := by
  simp only [Graphics.takesFrames, isReady, h.session, h.state]

theorem Calm.later (h : Calm g g') : Later g g' := by
  refine ⟨?_, ?_, fun ht => .inl (h.takesFrames ▸ ht), fun hu => .inl (h.session ▸ hu)⟩ <;>
    rw [h.same]

theorem onServer_forall {P : ℕ → GraphicsPipelineServer → Prop} {handle : ℕ}
    (hthis : P handle (f (g.servers handle))) (hother : ∀ k, k ≠ handle → P k (g.servers k))
    (k : ℕ) : P k ((g.onServer handle f).servers k) := by
  simp only [onServer]
  by_cases heq : k = handle
  · subst heq
    rwa [update_self]
  · rw [update_of_ne heq]
    exact hother k heq

theorem calm_onServer (g : Graphics) (handle : ℕ)
    (hstate : (f (g.servers handle)).state = (g.servers handle).state)
    (hsettled : Settled (g.servers handle) → Settled (f (g.servers handle))) :
    Calm g (g.onServer handle f) :=
  ⟨rfl, onServer_forall (P := fun k s => s.state = (g.servers k).state) hstate fun _ _ => rfl,
    onServer_forall (P := fun k s => Settled (g.servers k) → Settled s) hsettled fun _ _ => id⟩

theorem calm_frames (g : Graphics) (hf : ∀ s, f s = { s with frames := (f s).frames }) :
    Calm g (g.onCurrent f) := by
  unfold onCurrent
  rcases g.session.handle with _ | handle
  · exact .refl g
  · refine calm_onServer g handle (by rw [hf]) fun hs => ?_
    rw [hf]
    exact ⟨hs.waiting, hs.notResizing⟩

theorem coherent_closeProcessor (hg : Coherent g) : Coherent g.closeProcessor := by
  have hservers : ∀ h, Settled ((g.onCurrent .close).servers h) ∧
      (g.session.handle = some h → ((g.onCurrent .close).servers h).state = .closed) := by
    intro h
    unfold onCurrent
    rcases hhandle : g.session.handle with _ | handle
    · exact ⟨hg.settled h, fun hh => by simp at hh⟩
    · refine onServer_forall (P := fun h s => Settled s ∧
        (some handle = some h → s.state = .closed))
        ⟨⟨fun hw => ?_, ?_⟩, fun _ => rfl⟩ (fun k hne => ⟨hg.settled k, fun hh => ?_⟩) h
      · simp [close] at hw
      · simp [close]
      · exact absurd (some.inj hh).symm hne
  obtain ⟨servers, hsame⟩ := onCurrent_eq g .close
  simp only [hsame] at hservers
  simp only [closeProcessor, hsame]
  refine ⟨hg.handle_lt, ?_, fun h => absurd rfl h, fun h => absurd rfl h,
    fun h hh => .inr ((hservers h).2 hh), fun h => (hservers h).1⟩
  simp only [onClose]
  rcases hhandle : g.session.handle with _ | handle
  · rfl
  · simp [isReady, (hservers handle).2 hhandle]

theorem coherent_build (hg : Coherent g) : Coherent g.build := by
  refine ⟨fun h hh => ?_, ?_, fun _ => ?_, fun _ => rfl, fun h hh => ?_, fun h => ?_⟩
  · simp only [build, some.injEq] at hh ⊢
    omega
  · simp only [build, any_some, update_self]
    rfl
  · simp [build]
  · simp only [build, some.injEq] at hh ⊢
    rw [← hh, update_self]
    rfl
  · simp only [build]
    by_cases heq : h = g.built
    · rw [heq, update_self]
      exact settled_new
    · rw [update_of_ne heq]
      exact hg.settled h

variable {s : GraphicsPipelineServer}

theorem handleCapabilitiesAdvertise_spec (hs : Settled s)
    (hopen : ChannelState.Fits .opened s.state) (negotiated : Option CodecCapabilities) :
    (s.handleCapabilitiesAdvertise negotiated).surfaces = [] ∧
      (s.handleCapabilitiesAdvertise negotiated).accepted = [] ∧
      (s.handleCapabilitiesAdvertise negotiated).state =
        if negotiated.isSome then .ready else s.state := by
  rcases hopen with hwaiting | hready
  · obtain ⟨hsurfaces, -⟩ := hs.waiting hwaiting
    rcases negotiated with _ | caps <;>
      simp [handleCapabilitiesAdvertise, hwaiting, hsurfaces]
  · rcases negotiated with _ | caps <;>
      simp [handleCapabilitiesAdvertise, hready]

theorem coherent_capsAdvertise (hg : Coherent g)
    (negotiated : Option CodecCapabilities) : Coherent (g.capsAdvertise negotiated) := by
  simp only [capsAdvertise]
  by_cases hopen : g.channel = .opened
  · obtain ⟨handle, hhandle⟩ : ∃ handle, g.session.handle = some handle :=
      ne_none_iff_exists'.1 (hg.handle_of_channel (by simp [hopen]))
    have hfits := hg.fits handle hhandle
    rw [hopen] at hfits
    obtain ⟨hsurfaces, haccepted, hstate⟩ :=
      handleCapabilitiesAdvertise_spec (hg.settled handle) hfits negotiated
    rw [if_neg (not_not.2 hopen), onCurrent_some hhandle]
    rcases negotiated with _ | caps
    · have hcalm : Calm g (g.onServer handle fun s => s.handleCapabilitiesAdvertise none) :=
        calm_onServer g handle hstate fun hs =>
          ⟨fun _ => ⟨hsurfaces, haccepted⟩, by rw [hstate]; exact hs.notResizing⟩
      exact coherent_closeProcessor (hcalm.coherent hg)
    · refine { hg with ready_eq := ?_, fits := fun h hh => ?_, settled := fun h => ?_ }
      · simp only [onServer, onReady, hhandle, any_some, update_self, isReady, hstate, isSome_some]
        rfl
      · obtain rfl : handle = h := some.inj (hhandle.symm.trans hh)
        simp only [onServer, update_self, hopen]
        exact .inr (by simpa using hstate)
      · exact onServer_forall (f := (·.handleCapabilitiesAdvertise (some caps)))
          ⟨fun _ => ⟨hsurfaces, haccepted⟩, by simp [hstate]⟩ (fun k _ => hg.settled k) h
  · rw [if_pos hopen]
    exact hg

/-- **Every event keeps the session, the channel and the servers in agreement.** -/
theorem coherent_step (hg : Coherent g) (e : GfxEvent) : Coherent (g.step e) := by
  cases e with
  | elapse _ | support _ => exact { hg with }
  | build => exact coherent_build hg
  | created =>
    simp only [Graphics.step]
    split_ifs with hcreation
    · refine ⟨hg.handle_lt, hg.ready_eq, fun _ => hg.handle_of_channel (by simp [hcreation]),
        fun _ => hg.available (by simp [hcreation]), fun h hh => .inl ?_, hg.settled⟩
      have hfits := hg.fits h hh
      rw [hcreation] at hfits
      exact hfits
    · exact hg
  | refused =>
    simp only [Graphics.step]
    split_ifs
    · exact coherent_closeProcessor hg
    · exact hg
  | closed =>
    simp only [Graphics.step]
    split_ifs with hopened
    · exact coherent_closeProcessor hg
    · refine ⟨hg.handle_lt, hg.ready_eq, fun h => absurd rfl h, fun h => absurd rfl h,
        fun h hh => ?_, hg.settled⟩
      have hfits := hg.fits h hh
      rcases hchannel : g.channel with _ | _ | _
      · rw [hchannel] at hfits
        exact .inl hfits
      · exact absurd hchannel hopened
      · rw [hchannel] at hfits
        exact hfits
  | capsAdvertise negotiated => exact coherent_capsAdvertise hg negotiated
  | frameAcknowledge _ _ =>
    simp only [Graphics.step]
    split_ifs
    · exact hg
    · exact (calm_frames g fun _ => rfl).coherent hg
  | drained _ _ | window _ => exact (calm_frames g fun _ => rfl).coherent hg

theorem later_closeProcessor (g : Graphics) : Later g g.closeProcessor := by
  obtain ⟨servers, hsame⟩ := onCurrent_eq g .close
  simp only [closeProcessor, hsame]
  refine ⟨le_refl _, Nat.le_succ _, fun htakes => ?_, fun _ => .inr (Nat.lt_succ_self _)⟩
  simp [takesFrames, onClose] at htakes

theorem later_capsAdvertise (g : Graphics) (negotiated : Option CodecCapabilities) :
    Later g (g.capsAdvertise negotiated) := by
  obtain ⟨servers, hsame⟩ := onCurrent_eq g (·.handleCapabilitiesAdvertise negotiated)
  simp only [capsAdvertise, hsame]
  split_ifs
  · exact .refl g
  · rcases negotiated with _ | caps
    · have hclose := later_closeProcessor { g with servers }
      refine ⟨hclose.readied, hclose.closures, fun htakes => ?_, hclose.unavailable⟩
      simp [takesFrames, closeProcessor, onClose] at htakes
    · exact ⟨Nat.le_succ _, le_refl _, fun _ => .inr (Nat.lt_succ_self _), .inl⟩

theorem later_step (g : Graphics) (e : GfxEvent) : Later g (g.step e) := by
  cases e with
  | elapse _ | support _ => exact ⟨le_refl _, le_refl _, .inl, .inl⟩
  | build =>
    exact ⟨le_refl _, le_refl _, fun h => by simp [takesFrames, Graphics.step,
      build] at h, fun h => by simp [Graphics.step, build] at h⟩
  | created =>
    simp only [Graphics.step]
    split_ifs <;> exact ⟨le_refl _, le_refl _, .inl, .inl⟩
  | refused | closed =>
    simp only [Graphics.step]
    split_ifs
    · exact later_closeProcessor g
    · exact ⟨le_refl _, le_refl _, .inl, .inl⟩
  | capsAdvertise negotiated => exact later_capsAdvertise g negotiated
  | frameAcknowledge _ _ =>
    simp only [Graphics.step]
    split_ifs
    · exact .refl g
    · exact (calm_frames g fun _ => rfl).later
  | drained _ _ | window _ => exact (calm_frames g fun _ => rfl).later

def Steady (s s' : GraphicsPipelineServer) : Prop :=
  (s'.surfaces = s.surfaces ∧ s'.accepted = s.accepted ∧ (s'.state = .ready → s.state = .ready)) ∨
    (s'.surfaces = [] ∧ s'.accepted = [])

theorem Steady.refl (s : GraphicsPipelineServer) : Steady s s := .inl ⟨rfl, rfl, id⟩

theorem Steady.trans {s' s'' : GraphicsPipelineServer} (h : Steady s s') (h' : Steady s' s'') :
    Steady s s'' := by
  obtain ⟨hsurfaces, haccepted, hready⟩ | hlost := h'
  · rcases h with ⟨hsurfaces', haccepted', hready'⟩ | ⟨hsurfaces', haccepted'⟩
    · exact .inl ⟨hsurfaces.trans hsurfaces', haccepted.trans haccepted', fun h =>
        hready' (hready h)⟩
    · exact .inr ⟨hsurfaces.trans hsurfaces', haccepted.trans haccepted'⟩
  · exact .inr hlost

theorem steady_onCurrent
    (hf : ∀ h, g.session.handle = some h → Steady (g.servers h) (f (g.servers h))) (k : ℕ) :
    Steady (g.servers k) ((g.onCurrent f).servers k) := by
  unfold onCurrent
  rcases hhandle : g.session.handle with _ | handle
  · exact .refl _
  · exact onServer_forall (P := fun k s => Steady (g.servers k) s) (hf handle hhandle)
      (fun _ _ => .refl _) k

theorem steady_closeProcessor (g : Graphics) (k : ℕ) :
    Steady (g.servers k) (g.closeProcessor.servers k) :=
  steady_onCurrent (fun _ _ => .inl ⟨rfl, rfl, fun h => by simp [close] at h⟩) k

theorem steady_step (hg : Coherent g) (e : GfxEvent) (k : ℕ) :
    Steady (g.servers k) ((g.step e).servers k) := by
  cases e with
  | elapse _ | support _ => exact .refl _
  | build =>
    simp only [Graphics.step, build]
    by_cases heq : k = g.built
    · rw [heq, update_self]
      exact .inr ⟨rfl, rfl⟩
    · rw [update_of_ne heq]
      exact .refl _
  | created =>
    simp only [Graphics.step]
    split_ifs <;> exact .refl _
  | refused | closed =>
    simp only [Graphics.step]
    split_ifs
    · exact steady_closeProcessor g k
    · exact .refl _
  | capsAdvertise negotiated =>
    simp only [Graphics.step, capsAdvertise]
    split_ifs with hopen
    · exact .refl _
    · have hreset := steady_onCurrent (g := g)
        (f := fun s => s.handleCapabilitiesAdvertise negotiated)
        (fun h hh => ?_) k
      · rcases negotiated with _ | caps
        · exact hreset.trans (steady_closeProcessor _ k)
        · exact hreset
      · have hfits := hg.fits h hh
        rw [not_not.1 hopen] at hfits
        obtain ⟨hsurfaces, haccepted, -⟩ :=
          handleCapabilitiesAdvertise_spec (hg.settled h) hfits negotiated
        exact .inr ⟨hsurfaces, haccepted⟩
  | frameAcknowledge _ _ =>
    simp only [Graphics.step]
    split_ifs
    · exact .refl _
    · exact steady_onCurrent (fun _ _ => .inl ⟨rfl, rfl, id⟩) k
  | drained _ _ | window _ => exact steady_onCurrent (fun _ _ => .inl ⟨rfl, rfl, id⟩) k

theorem handle_step (g : Graphics) {e : GfxEvent} (he : e ≠ .build) :
    (g.step e).session.handle = g.session.handle := by
  have hcurrent : ∀ (g : Graphics) f, (g.onCurrent f).session = g.session := fun g f => by
    obtain ⟨_, hsame⟩ := onCurrent_eq g f
    rw [hsame]
  have hclose : ∀ g : Graphics, g.closeProcessor.session.handle = g.session.handle := fun g => by
    simp only [closeProcessor, onClose, hcurrent]
  cases e with
  | elapse _ | support _ => rfl
  | build => exact absurd rfl he
  | created =>
    simp only [Graphics.step]
    split_ifs <;> rfl
  | refused | closed =>
    simp only [Graphics.step]
    split_ifs
    · exact hclose g
    · rfl
  | capsAdvertise negotiated =>
    simp only [Graphics.step, capsAdvertise]
    split_ifs
    · rfl
    · rcases negotiated with _ | caps
      · rw [hclose, hcurrent]
      · rw [onReady, hcurrent]
  | frameAcknowledge _ _ =>
    simp only [Graphics.step]
    split_ifs
    · rfl
    · rw [hcurrent]
  | drained _ _ | window _ => rw [Graphics.step, hcurrent]

theorem handle_run (g : Graphics) {events : List GfxEvent} (h : .build ∉ events) :
    (run Graphics.step g events).session.handle = g.session.handle := by
  refine Along.inv_run (I := fun g' : Graphics => g'.session.handle = g.session.handle)
    (C := fun _ e => e ≠ GfxEvent.build) (fun g' e hg' he => ?_)
      rfl (along_of_forall fun e he => ?_)
  · exact (handle_step g' he).trans hg'
  · rintro rfl
    exact h he

/-- **What happens while an encode task runs.** -/
theorem run_spec (hg : Coherent g) (events : List GfxEvent) :
    Coherent (run Graphics.step g events) ∧ Later g (run Graphics.step g events) := by
  refine run_inv (I := fun g' => Coherent g' ∧ Later g g') ?_ ⟨hg, .refl g⟩ events
  rintro g' e ⟨hg', hlater⟩
  exact ⟨coherent_step hg' e, hlater.trans (later_step g' e)⟩

def call {α : Type} (g : Graphics) (handle : ℕ)
    (f : GraphicsPipelineServer → α × GraphicsPipelineServer) : α × Graphics :=
  let answer := f (g.servers handle)
  (answer.1, g.onServer handle fun _ => answer.2)

def pipeline (handle : ℕ) (during : List GfxEvent) : Pipeline Graphics where
  supportsAvc420 g := (g.servers handle).codecCaps.avc420
  supportsAvc444v2 g := (g.servers handle).codecCaps.avc444v2
  resize g _ _ := g.onServer handle .resize
  createSurface g width height := call g handle fun s => s.createSurface width height
  hasSurface g id := ((g.servers handle).getSurface id).isSome
  shouldBackpressure g := (g.servers handle).shouldBackpressure g.clock
  await g := run Graphics.step g during
  sendClearcodec g id _ m := call g handle fun s => s.sendClearcodecFrame g.clock id m
  sendH264 g avc444v2 id := call g handle fun s =>
    if avc444v2 then s.sendAvc444v2Frame g.clock id else s.sendAvc420Frame g.clock id

/-! ### Calls on a server -/

variable (handle : ℕ) (during : List GfxEvent) (g : Graphics)

theorem calm_resize (width height : ℕ) : Calm g
    ((pipeline handle during).resize g width height) := by
  refine calm_onServer g handle (resize_spec _).1 fun hs => ⟨fun hw => ?_, ?_⟩
  · rw [(resize_spec _).1] at hw
    rw [resize, if_pos (by simp [hw])]
    exact hs.waiting hw
  · rw [(resize_spec _).1]
    exact hs.notResizing

theorem calm_createSurface (width height : ℕ) :
    Calm g ((pipeline handle during).createSurface g width height).2 := by
  obtain ⟨hstate, -⟩ := createSurface_spec (g.servers handle) width height
  show Calm g (g.onServer handle fun _ => ((g.servers handle).createSurface width height).2)
  refine calm_onServer g handle hstate fun hs => ⟨fun hw => ?_, ?_⟩
  · rw [hstate] at hw
    rw [createSurface, if_pos (by simp [hw])]
    exact hs.waiting hw
  · rw [hstate]
    exact hs.notResizing

theorem calm_sendClearcodec (id : ℕ) (r : Linrdp.Lib.Rects.Rect)
    (m : Linrdp.Graphics.ClearCodec.ClearMessage) :
    Calm g ((pipeline handle during).sendClearcodec g id r m).2 := by
  obtain ⟨frames, accepted, heq, hsent⟩ := sendClearcodecFrame_spec (g.servers handle) g.clock id m
  show Calm g (g.onServer handle fun _ =>
    ((g.servers handle).sendClearcodecFrame g.clock id m).2)
  refine calm_onServer g handle ?_ fun hs => ?_
  · rw [heq]
  · rw [heq]
    refine ⟨fun hw => ⟨(hs.waiting hw).1, ?_⟩, hs.notResizing⟩
    obtain ⟨-, haccepted⟩ | ⟨-, -, hready, -⟩ := hsent
    · rw [haccepted]
      exact (hs.waiting hw).2
    · rw [hready] at hw
      simp at hw

theorem calm_sendH264 (avc444v2 : Bool) (id : ℕ) :
    Calm g ((pipeline handle during).sendH264 g avc444v2 id).2 := by
  have hcalm : ∀ codec, Calm g (g.onServer handle fun _ =>
      ((g.servers handle).queueFrame g.clock id codec).2) := by
    intro codec
    obtain ⟨frames, heq, -⟩ := queueFrame_spec (g.servers handle) g.clock id codec
    rw [heq]
    exact calm_onServer g handle rfl fun hs => ⟨hs.waiting, hs.notResizing⟩
  rcases avc444v2 with _ | _
  · exact hcalm _
  · exact hcalm _

end Linrdp.Egfx.Session
