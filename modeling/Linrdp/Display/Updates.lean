import Linrdp.Display.Routing
import Linrdp.Display.Sends
import Linrdp.Egfx.Session

/-!
# The display loop against the graphics session

The whole of `next_update` as a machine: the loop's own state, the areas the client asked for, and
the graphics session the channel side writes to. An input is an event of the channel side, a request
of the client, the top of the loop, or a consumed grab, with what happens while its encode task
runs.

A returned resize ends the stream of updates; the server starts another one after it.
-/

namespace Linrdp.Display.Updates

open Lib.Rects Display.Rects Display.Frame Display.Routing
open Display.Sends Egfx.Session Capture.Grabber
open Graphics.ClearCodec
open Egfx.Server.GraphicsPipelineServer (queueFrame_spec sendClearcodecFrame_spec)

structure World where
  u : EgfxUpdates
  requested : Option Rect
  gfx : Graphics

structure Restart where
  desktop : ℕ × ℕ
  settleUntil : ℕ

inductive Input
  | gfx (e : GfxEvent)
  | refresh (area : Rect)
  | wake
  | grab (g : SourceGrab) (i : FrameInput) (during : List GfxEvent) (restart : Restart)

structure Emitted where
  update : Option DisplayUpdate
  shown : List Shown

def start (restart : Restart) (now : ℕ) (avc444v2Allowed : Bool) : World :=
  ⟨EgfxUpdates.new restart.desktop restart.settleUntil now avc444v2Allowed, none, .new now⟩

def situation (g : Graphics) : Situation where
  handle := g.session.handle
  ready := g.takesFrames
  unavailable := g.session.unavailable
  clientSupports := g.session.clientSupportsEgfx
  now := g.clock

def routed (d : World) (g : SourceGrab) (i : FrameInput) (during : List GfxEvent) :
    Option DisplayUpdate × Loop Graphics :=
  routeGrab (pipeline (d.gfx.session.handle.getD 0) during) ⟨d.u, d.gfx, []⟩
    (situation d.gfx) g.grab i

def streamAfter (restart : Restart) : Option DisplayUpdate × Loop Graphics → EgfxUpdates
  | (some (.resize _ _), l) =>
    EgfxUpdates.new restart.desktop restart.settleUntil l.env.clock l.u.avc444v2Allowed
  | (_, l) => l.u

def step (d : World) : Input → World
  | .gfx e => { d with gfx := d.gfx.step e }
  | .refresh area => { d with requested := addRefresh d.requested area }
  | .wake => { d with u := takeRefresh d.u d.requested, requested := none }
  | .grab g i during restart =>
    { d with
      u := streamAfter restart (routed d g i during)
      gfx := (routed d g i during).2.env }

def emitted (d : World) : Input → Emitted
  | .grab g i during _ => ⟨(routed d g i during).1, (routed d g i during).2.trace⟩
  | _ => ⟨none, []⟩

/-! ### One grab -/

section

variable {d : World} {g : SourceGrab} {i : FrameInput} {during : List GfxEvent}

theorem decision_egfx : decision d.u (situation d.gfx) = .egfx ↔ d.gfx.takesFrames = true := by
  rw [decision, egfxDecision_egfx]
  simp only [egfxState, situation, Graphics.takesFrames]
  rcases d.gfx.session.handle with _ | handle <;> simp

theorem decision_legacy (h : decision d.u (situation d.gfx) = .legacy) :
    d.gfx.takesFrames = false ∧
      (d.u.egfxLatched = true → d.gfx.session.unavailable = true) := by
  obtain ⟨-, hlatched⟩ := egfxDecision_legacy h
  refine ⟨?_, fun hl => hlatched ?_⟩
  · rcases htakes : d.gfx.takesFrames with _ | _
    · rfl
    · rw [decision_egfx.2 htakes] at h
      simp at h
  · rw [egfxState, seeHandle]
    split_ifs <;> exact hl

theorem routed_cases (d : World) (g : SourceGrab) (i : FrameInput) (during : List GfxEvent) :
    (decision d.u (situation d.gfx) = .hold ∧
        routed d g i during = (none, ⟨seeHandle d.u (situation d.gfx), d.gfx, []⟩)) ∨
      (decision d.u (situation d.gfx) = .legacy ∧
        (routed d g i during).1 = (legacyGrab (seeHandle d.u (situation d.gfx)) g.grab).1 ∧
        (routed d g i during).2 =
          ⟨(legacyGrab (seeHandle d.u (situation d.gfx)) g.grab).2, d.gfx, []⟩) ∨
      ∃ handle, d.gfx.session.handle = some handle ∧ d.gfx.takesFrames = true ∧
        routed d g i during = (none, processFrame (pipeline handle during)
          ⟨latch (seeHandle d.u (situation d.gfx)), d.gfx, []⟩ handle d.gfx.clock g.grab i) := by
  rw [routed, routeGrab]
  rcases hdecision : decision d.u (situation d.gfx) with _ | _ | _
  · have htakes := decision_egfx.1 hdecision
    obtain ⟨handle, hhandle, -⟩ := Option.any_eq_true _ _ |>.1 htakes
    refine .inr (.inr ⟨handle, hhandle, htakes, ?_⟩)
    rw [hhandle]
    simp only [situation, hhandle, Option.elim_some, Option.getD_some]
  · exact .inr (.inl ⟨rfl, rfl, rfl⟩)
  · exact .inl ⟨rfl, rfl⟩

end

/-! ### One frame through the pipeline -/

section

variable (handle now : ℕ) (during : List GfxEvent) (u : EgfxUpdates) (g : Graphics)

theorem calm_renewSurface (f : Frame) :
    Calm g (renewSurface (pipeline handle during) ⟨u, g, []⟩ handle now f).env := by
  simp only [renewSurface]
  split
  · simp only [ensureSurface]
    split_ifs
    · exact (calm_resize handle during g _ _).trans (calm_createSurface handle during _ _ _)
    · exact calm_createSurface handle during g _ _
  · exact .refl g

structure FrameLeaves (l : Loop Graphics) : Prop where
  coherent : Coherent l.env
  later : Later g l.env
  handle_eq : .build ∉ during → l.env.session.handle = g.session.handle
  latched : l.u.egfxLatched = u.egfxLatched
  sent : sentFrame l.trace = true → (l.env.servers handle).state = .ready

variable {handle now during u g}

theorem calm_of_sendClearcodec {g' : Graphics} {id : ℕ} {r : Rect} {m : ClearMessage} {sent : Bool}
    (h : (pipeline handle during).sendClearcodec g id r m = (sent, g')) : Calm g g' := by
  have hcalm := calm_sendClearcodec handle during g id r m
  rw [h] at hcalm
  exact hcalm

theorem calm_of_sendH264 {g' : Graphics} {avc444v2 sent : Bool} {id : ℕ}
    (h : (pipeline handle during).sendH264 g avc444v2 id = (sent, g')) : Calm g g' := by
  have hcalm := calm_sendH264 handle during g avc444v2 id
  rw [h] at hcalm
  exact hcalm

theorem ready_of_sendClearcodec {g' : Graphics} {id : ℕ} {r : Rect} {m : ClearMessage}
    (h : (pipeline handle during).sendClearcodec g id r m = (true, g')) :
    (g'.servers handle).state = .ready := by
  rw [(calm_of_sendClearcodec h).state]
  have htrue : ((g.servers handle).sendClearcodecFrame g.clock id m).1 = true := congrArg Prod.fst h
  obtain ⟨frames, accepted, heq, ⟨hfalse, -⟩ | ⟨-, -, hready, -⟩⟩ :=
    sendClearcodecFrame_spec (g.servers handle) g.clock id m
  · rw [hfalse] at htrue
    simp at htrue
  · exact hready

theorem ready_of_sendH264 {g' : Graphics} {avc444v2 : Bool} {id : ℕ}
    (h : (pipeline handle during).sendH264 g avc444v2 id = (true, g')) :
    (g'.servers handle).state = .ready := by
  rw [(calm_of_sendH264 h).state]
  have htrue := congrArg Prod.fst h
  rcases avc444v2 with _ | _
  all_goals
    obtain ⟨-, -, hready⟩ := queueFrame_spec (g.servers handle) g.clock id _
    exact (hready htrue).1

theorem leaves_of_calm {g₁ g₂ : Graphics} (hg : Coherent g) (hcalm : Calm g g₁)
    (hcall : Calm ((pipeline handle during).await g₁) g₂) :
    Coherent g₂ ∧ Later g g₂ ∧ (.build ∉ during → g₂.session.handle = g.session.handle) := by
  obtain ⟨hcoherent, hlater⟩ := run_spec (hcalm.coherent hg) during
  refine ⟨hcall.coherent hcoherent, (hcalm.later.trans hlater).trans hcall.later, fun hone => ?_⟩
  rw [hcall.session, ← hcalm.session]
  exact handle_run g₁ hone

theorem sends_leaves {l l' : Loop Graphics} (h : FrameSends (pipeline handle during) l l')
    (hg : Coherent g) (hcalm : Calm g l.env) (hlatched : l.u.egfxLatched = u.egfxLatched)
    (hunsent : sentFrame l.trace = false) : FrameLeaves handle during u g l' := by
  obtain ⟨env, trace, kept⟩ | ⟨present, before, sent, trace, same, clearSeq, encoder⟩ |
    ⟨sent, trace, kept⟩ | ⟨sent, trace, kept⟩ := h
  · have hno : sentFrame l'.trace = false := by
      rcases trace with trace | ⟨width, height, trace⟩
      · rw [trace, hunsent]
      · rw [trace, sentFrame, List.any_append, ← sentFrame, hunsent]
        rfl
    obtain ⟨hcoherent, hlater, hhandle⟩ : Coherent l'.env ∧ Later g l'.env ∧
        (.build ∉ during → l'.env.session.handle = g.session.handle) := by
      rcases env with env | env
      · rw [env, hcalm.session]
        exact ⟨hcalm.coherent hg, hcalm.later, fun _ => rfl⟩
      · rw [env]
        exact leaves_of_calm hg hcalm (.refl _)
    exact ⟨hcoherent, hlater, hhandle, kept.latched.trans hlatched,
      fun hyes => by simp [hno] at hyes⟩
  · obtain ⟨hcoherent, hlater, hhandle⟩ := leaves_of_calm hg hcalm (calm_of_sendClearcodec sent)
    exact ⟨hcoherent, hlater, hhandle, (same.latched.trans before.latched).trans hlatched,
      fun _ => ready_of_sendClearcodec sent⟩
  · obtain ⟨hcoherent, hlater, hhandle⟩ := leaves_of_calm hg hcalm (calm_of_sendClearcodec sent)
    exact ⟨hcoherent, hlater, hhandle, kept.latched.trans hlatched,
      fun hyes => by simp [trace, hunsent] at hyes⟩
  · obtain ⟨hcoherent, hlater, hhandle⟩ := leaves_of_calm hg hcalm (calm_of_sendH264 sent)
    refine ⟨hcoherent, hlater, hhandle, kept.latched.trans hlatched, fun hyes => ?_⟩
    obtain ⟨-, trace⟩ | ⟨rfl, -⟩ := trace
    · simp [trace, hunsent] at hyes
    · exact ready_of_sendH264 sent

/-- **A frame keeps the session in agreement**, whatever comes while it waits. -/
theorem processFrame_leaves (hg : Coherent g) (grab : Grab) (i : FrameInput) :
    FrameLeaves handle during u g
      (processFrame (pipeline handle during) ⟨u, g, []⟩ handle now grab i) := by
  have hcalm := calm_renewSurface handle now during u g grab.frame
  obtain ⟨hlatched, hunsent⟩ :=
    renewSurface_latched (pipeline handle during) ⟨u, g, []⟩ grab.frame handle now
  obtain ⟨-, h⟩ | ⟨-, h⟩ := processFrame_sends (pipeline handle during) ⟨u, g, []⟩ i handle now grab
  · rw [h]
    have hrecover := hcalm.trans (calm_createSurface handle during _ grab.frame.width
      grab.frame.height)
    refine ⟨hrecover.coherent hg, hrecover.later, fun _ => ?_, hlatched, fun hsent => ?_⟩
    · exact congrArg _ hrecover.session
    · unfold recoverSurface at hsent
      simp only [ensureSurface, sentFrame, List.any_append] at hsent hunsent
      simp [hunsent] at hsent
  · exact sends_leaves h hg hcalm hlatched hunsent

end

def changedPixel : Input :=
  .grab (onePixel true) ⟨1000, false, false, .joined, 0, false⟩ [] ⟨(1, 1), 0⟩

end Linrdp.Display.Updates
