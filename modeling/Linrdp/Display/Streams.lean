import Linrdp.Display.Updates

/-!
# Bitmaps and pipeline frames in one session

`unmixed` is about every timing of the channel's creation, refusal and closing, of the client's
CapsAdvertise messages and of the grabs: a legacy bitmap is returned only when there is nothing to
wait for or the wait is over (`Excused`); once one was returned, a frame goes through the pipeline
only after capabilities were negotiated since; once a frame went through the pipeline, a legacy
bitmap is returned only after the channel was closed since.
-/

namespace Linrdp.Display.Streams

open Lib.Runs Display.Frame Display.Routing Display.Updates
open Egfx.Session

/-- The session with what has been emitted: how often the pipeline had been negotiated at the last
bitmap, how often the channel had been closed at the last pipeline frame. -/
structure State where
  world : World
  (bitmapAt frameAt : Option ℕ)

def isBitmap (e : Emitted) : Bool :=
  match e.update with
  | some (.bitmap _) => true
  | _ => false

def step (s : State) (i : Input) : State where
  world := Updates.step s.world i
  bitmapAt :=
    if isBitmap (emitted s.world i) then some (Updates.step s.world i).gfx.readied else s.bitmapAt
  frameAt :=
    if sentFrame (emitted s.world i).shown then some (Updates.step s.world i).gfx.closures
    else s.frameAt

def connected (restart : Restart) (now : ℕ) (avc444v2Allowed : Bool) : State :=
  ⟨Updates.step (start restart now avc444v2Allowed) (.gfx .build), none, none⟩

def oneConnection : Input → Bool
  | .gfx e => e != .build
  | .grab _ _ during _ => !during.contains .build
  | _ => true

/-- The client did not advertise the pipeline, or refused or closed its channel; the loop has seen a
pipeline server for the deadline of the negotiation; or there is none, and the grace period is over.
-/
def Excused (w : World) : Prop :=
  w.gfx.session.clientSupportsEgfx = false ∨ w.gfx.session.unavailable = true ∨
    (∃ seen, w.u.handleFirstSeen = some seen ∧ seen + egfxReadyDeadline ≤ w.gfx.clock) ∨
    w.gfx.session.handle = none ∧ w.u.started + legacyGrace ≤ w.gfx.clock

/-- **The streams do not mix** but for a bitmap that is excused and the switch to a pipeline
negotiated since. -/
structure Unmixed (s : State) (i : Input) : Prop where
  excused : isBitmap (emitted s.world i) = true → Excused s.world
  negotiated : ∀ n, s.bitmapAt = some n → sentFrame (emitted s.world i).shown = true →
    n < s.world.gfx.readied
  closed : ∀ n, s.frameAt = some n → isBitmap (emitted s.world i) = true → n < s.world.gfx.closures

structure Inv (s : State) : Prop where
  coherent : Coherent s.world.gfx
  bitmap : ∀ n, s.bitmapAt = some n → n ≤ s.world.gfx.readied ∧
    (s.world.gfx.takesFrames = true → n < s.world.gfx.readied)
  frame : ∀ n, s.frameAt = some n → n ≤ s.world.gfx.closures ∧
    (s.world.u.egfxLatched = false ∨ s.world.gfx.session.unavailable = true →
      n < s.world.gfx.closures)

theorem inv_connected (restart : Restart) (now : ℕ) (avc444v2Allowed : Bool) :
    Inv (connected restart now avc444v2Allowed) :=
  ⟨coherent_build (coherent_new now), fun _ h => by simp [connected] at h,
    fun _ h => by simp [connected] at h⟩

theorem Inv.later {s s' : State} (h : Inv s) (hcoherent : Coherent s'.world.gfx)
    (hlater : Later s.world.gfx s'.world.gfx)
    (hlatched : s'.world.u.egfxLatched = false → s.world.u.egfxLatched = false)
    (hbitmap : s'.bitmapAt = s.bitmapAt) (hframe : s'.frameAt = s.frameAt) : Inv s' := by
  obtain ⟨hreadied, hclosures, htakes, hun⟩ := hlater
  refine ⟨hcoherent, fun n hn => ?_, fun n hn => ?_⟩
  · obtain ⟨hle, hlt⟩ := h.bitmap n (hbitmap ▸ hn)
    refine ⟨by omega, fun ht => ?_⟩
    rcases htakes ht with ht | hmore
    · have := hlt ht
      omega
    · omega
  · obtain ⟨hle, hlt⟩ := h.frame n (hframe ▸ hn)
    refine ⟨by omega, fun hwhy => ?_⟩
    rcases hwhy with hfree | hu
    · have := hlt (.inl (hlatched hfree))
      omega
    · rcases hun hu with hu | hmore
      · have := hlt (.inr hu)
        omega
      · omega

theorem seeHandle_latched (u : EgfxUpdates) (s : Situation) :
    (seeHandle u s).egfxLatched = u.egfxLatched := by
  obtain ⟨seen, heq⟩ := seeHandle_eq u s
  rw [heq]

theorem takeRefresh_latched (u : EgfxUpdates) (refresh : Option Lib.Rects.Rect) :
    (takeRefresh u refresh).egfxLatched = u.egfxLatched := by
  obtain ⟨full, debt, area, heq⟩ := takeRefresh_eq u refresh
  rw [heq]

theorem Inv.closed_of_legacy {s : State} (h : Inv s)
    (hdecision : decision s.world.u (situation s.world.gfx) = .legacy) {n : ℕ}
    (hn : s.frameAt = some n) : n < s.world.gfx.closures := by
  obtain ⟨-, hlatched⟩ := decision_legacy hdecision
  refine (h.frame n hn).2 ?_
  rcases hfree : s.world.u.egfxLatched with _ | _
  · exact .inl rfl
  · exact .inr (hlatched hfree)

theorem excused_of_legacy {w : World} (h : decision w.u (situation w.gfx) = .legacy) :
    Excused w := by
  rcases egfxDecision_legacy_of h with hsupports | hunavailable | ⟨waited, hwaited,
    hlapsed⟩ | ⟨hwaited, hlapsed⟩
  · exact .inl hsupports
  · exact .inr (.inl hunavailable)
  · obtain ⟨seen, hseen, rfl⟩ := Option.map_eq_some_iff.1 hwaited
    change egfxReadyDeadline ≤ w.gfx.clock - seen at hlapsed
    rw [egfxReadyDeadline] at hlapsed
    refine .inr (.inr (.inl ⟨seen, ?_, by rw [egfxReadyDeadline]; omega⟩))
    unfold seeHandle at hseen
    split_ifs at hseen
    · -- a server that is only seen now has been waited for no time at all
      obtain rfl := Option.some.inj hseen
      change 3000 ≤ w.gfx.clock - w.gfx.clock at hlapsed
      omega
    · exact hseen
  · refine .inr (.inr (.inr ?_))
    have hnone := Option.map_eq_none_iff.1 hwaited
    have hstarted : (seeHandle w.u (situation w.gfx)).started = w.u.started := by
      unfold seeHandle
      split_ifs <;> rfl
    change legacyGrace ≤ w.gfx.clock - (seeHandle w.u (situation w.gfx)).started at hlapsed
    rw [hstarted, legacyGrace] at hlapsed
    refine ⟨?_, by rw [legacyGrace]; omega⟩
    unfold seeHandle at hnone
    split_ifs at hnone with hsome
    rw [hnone] at hsome
    simpa [situation] using hsome

section grab

variable {s : State} {g : SourceGrab} {i : FrameInput} {during : List GfxEvent} {restart : Restart}

theorem inv_grab_hold (h : Inv s)
    (hroute : routed s.world g i during =
      (none, ⟨seeHandle s.world.u (situation s.world.gfx), s.world.gfx, []⟩)) :
    Inv (step s (.grab g i during restart)) := by
  refine h.later ?_ ?_ (fun hfree => ?_) ?_ ?_
  · simpa [step, Updates.step, hroute] using h.coherent
  · simpa [step, Updates.step, hroute] using Later.refl s.world.gfx
  · simpa [step, Updates.step, streamAfter, hroute, seeHandle_latched] using hfree
  · simp [step, emitted, hroute, isBitmap]
  · simp [step, emitted, hroute, sentFrame]

theorem inv_grab_legacy {v : EgfxUpdates} (h : Inv s)
    (hdecision : decision s.world.u (situation s.world.gfx) = .legacy)
    (hloop : (routed s.world g i during).2 = ⟨v, s.world.gfx, []⟩) :
    Inv (step s (.grab g i during restart)) := by
  have hgfx : (step s (.grab g i during restart)).world.gfx = s.world.gfx := by
    simp [step, Updates.step, hloop]
  have hframe : (step s (.grab g i during restart)).frameAt = s.frameAt := by
    simp [step, emitted, hloop, sentFrame]
  refine ⟨hgfx ▸ h.coherent, fun n hn => ?_, fun n hn => ?_⟩
  · rw [hgfx]
    obtain ⟨hnot, -⟩ := decision_legacy hdecision
    refine ⟨?_, fun ht => by simp [hnot] at ht⟩
    simp only [step] at hn
    split_ifs at hn
    · simp only [Option.some.injEq] at hn
      rw [← hn, ← hgfx]
      exact le_rfl
    · exact (h.bitmap n hn).1
  · rw [hgfx]
    have hlt := h.closed_of_legacy hdecision (hframe ▸ hn)
    exact ⟨Nat.le_of_lt hlt, fun _ => hlt⟩

theorem frame_after_leaves {handle : ℕ} {u : EgfxUpdates} {l : Loop Graphics} (h : Inv s)
    (hleaves : FrameLeaves handle during u s.world.gfx l)
    (hhandle : s.world.gfx.session.handle = some handle) (hone : .build ∉ during) {n : ℕ}
    (hn : (if sentFrame l.trace then some l.env.closures else s.frameAt) = some n) :
    n ≤ l.env.closures ∧ (l.env.session.unavailable = true → n < l.env.closures) := by
  by_cases hsent : sentFrame l.trace = true
  · -- a frame that was sent found its server ready, so the channel is there
    have havailable := hleaves.coherent.available_of_ready
      ((hleaves.handle_eq hone).trans hhandle) (hleaves.sent hsent)
    rw [if_pos hsent, Option.some.injEq] at hn
    refine ⟨Nat.le_of_eq hn.symm, fun hun => ?_⟩
    rw [havailable] at hun
    simp at hun
  · rw [if_neg hsent] at hn
    obtain ⟨hle, hlt⟩ := h.frame n hn
    have hmore := hleaves.later.closures
    refine ⟨by omega, fun hun => ?_⟩
    rcases hleaves.later.unavailable hun with hun | hcloses
    · have := hlt (.inr hun)
      omega
    · omega

theorem inv_grab (h : Inv s) (hone : .build ∉ during) :
    Inv (step s (.grab g i during restart)) := by
  obtain ⟨-, hroute⟩ | ⟨hdecision, -, hloop⟩ | ⟨handle, hhandle, htakes, hroute⟩ :=
    routed_cases s.world g i during
  · exact inv_grab_hold h hroute
  · exact inv_grab_legacy h hdecision hloop
  · have hleaves : FrameLeaves handle during (latch (seeHandle s.world.u (situation s.world.gfx)))
        s.world.gfx (routed s.world g i during).2 := by
      rw [hroute]
      exact processFrame_leaves h.coherent g.grab i
    have hgfx : (step s (.grab g i during restart)).world.gfx = (routed s.world g i during).2.env :=
      rfl
    have hlatched : (step s (.grab g i during restart)).world.u.egfxLatched = true := by
      have hu : (step s (.grab g i during restart)).world.u = (routed s.world g i during).2.u := by
        simp [step, Updates.step, streamAfter, hroute]
      rw [hu, hleaves.latched]
      rfl
    refine ⟨hgfx ▸ hleaves.coherent, fun n hn => ?_, fun n hn => ?_⟩
    · have hbitmap : s.bitmapAt = some n := by simpa [step, emitted, hroute, isBitmap] using hn
      have hlt := (h.bitmap n hbitmap).2 htakes
      have hmore := hleaves.later.readied
      rw [hgfx]
      exact ⟨by omega, fun _ => by omega⟩
    · obtain ⟨hle, hlt⟩ := frame_after_leaves h hleaves hhandle hone hn
      rw [hlatched, hgfx]
      refine ⟨hle, fun hwhy => hlt ?_⟩
      simpa using hwhy

theorem unmixed_grab (h : Inv s) : Unmixed s (.grab g i during restart) := by
  obtain ⟨-, hroute⟩ | ⟨hdecision, hupdate, hloop⟩ | ⟨handle, hhandle, htakes, hroute⟩ :=
    routed_cases s.world g i during
  · have hbitmap : isBitmap (emitted s.world (.grab g i during restart)) = false := by
      simp [emitted, hroute, isBitmap]
    refine ⟨by simp [hbitmap], fun n _ hsent => ?_, by simp [hbitmap]⟩
    simp [emitted, hroute, sentFrame] at hsent
  · refine ⟨fun _ => excused_of_legacy hdecision, fun n _ hsent => ?_,
      fun n hn _ => h.closed_of_legacy hdecision hn⟩
    simp [emitted, hloop, sentFrame] at hsent
  · have hbitmap : isBitmap (emitted s.world (.grab g i during restart)) = false := by
      simp [emitted, hroute, isBitmap]
    exact ⟨by simp [hbitmap], fun n hn _ => (h.bitmap n hn).2 htakes, by simp [hbitmap]⟩

end grab

theorem inv_step {s : State} {i : Input} (h : Inv s) (hone : oneConnection i = true) :
    Inv (step s i) := by
  rcases i with e | area | _ | ⟨g, i, during, restart⟩
  · exact h.later (coherent_step h.coherent e) (later_step _ e) id rfl rfl
  · exact h.later h.coherent (.refl _) id rfl rfl
  · refine h.later h.coherent (.refl _) (fun hfree => ?_) rfl rfl
    simpa [step, Updates.step, takeRefresh_latched] using hfree
  · exact inv_grab h (by simpa [oneConnection] using hone)

theorem unmixed_step {s : State} (i : Input) (h : Inv s) : Unmixed s i := by
  rcases i with e | area | _ | ⟨g, i, during, restart⟩
  case grab => exact unmixed_grab h
  all_goals exact ⟨by simp [emitted, isBitmap], by simp [emitted, sentFrame], by
    simp [emitted, isBitmap]⟩

/-- **Two streams, one session.** For every timing in one connection: a legacy bitmap is returned
only when there is nothing left to wait for, a pipeline frame after it follows a negotiation since
that bitmap, and a legacy bitmap after a pipeline frame follows a closing of the channel since that
frame. -/
theorem unmixed (restart : Restart) (now : ℕ) (avc444v2Allowed : Bool) (inputs : List Input)
    (hone : ∀ i ∈ inputs, oneConnection i = true) :
    Along step Unmixed (connected restart now avc444v2Allowed) inputs :=
  Along.mono_inv (fun _ _ hs hone => inv_step hs hone) (fun _ i hs _ => unmixed_step i hs)
    (inv_connected restart now avc444v2Allowed) (along_of_forall hone)

/-! ### A client that negotiates late -/

def lateClient : List Input :=
  [.gfx (.support true), changedPixel, .gfx (.elapse 3000), changedPixel, .gfx .created,
    .gfx (.capsAdvertise (some ⟨false, false, false⟩)), changedPixel]

theorem unmixed_lateClient :
    (∀ i ∈ lateClient, oneConnection i = true) ∧
      Along step Unmixed (connected ⟨(1, 1), 0⟩ 0 false) lateClient :=
  have hone : ∀ i ∈ lateClient, oneConnection i = true := by decide
  ⟨hone, unmixed ⟨(1, 1), 0⟩ 0 false lateClient hone⟩

def NeverMixed (s : State) (i : Input) : Prop :=
  (∀ n, s.bitmapAt = some n → sentFrame (emitted s.world i).shown = false) ∧
    ∀ n, s.frameAt = some n → isBitmap (emitted s.world i) = true → n < s.world.gfx.closures

/-- The loop falls back to bitmaps after the grace period, and the pipeline takes the next frame
once it is ready. -/
theorem late_client_gets_both_streams :
    (∀ i ∈ lateClient, oneConnection i = true) ∧
      ¬ Along step NeverMixed (connected ⟨(1, 1), 0⟩ 0 false) lateClient := by
  refine ⟨by decide, ?_⟩
  rintro ⟨-, -, -, -, -, -, ⟨hframe, -⟩, -⟩
  have hsent := hframe 0 (by decide)
  revert hsent
  decide

end Linrdp.Display.Streams
