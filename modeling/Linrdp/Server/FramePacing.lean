import Mathlib.Algebra.Order.Ring.Nat
import Linrdp.Lib.Runs

/-!
# Frames on the legacy path

Where the client acknowledges frames the display loop sends no more of them ahead than the client
allows. What was sent and what was acknowledged is kept in two counters that outlive the encoder
which numbers the frames. `paced_of_fresh`: they say how many frames are unacknowledged as long as
an activation finds nothing acknowledged, the client acknowledges frames that it got, and the
numbers do not wrap.
-/

namespace Linrdp.Server.FramePacing

open Lib.Runs Nat

structure FrameAckState where
  (sent acked : ℕ)

def FrameAckState.unacked (s : FrameAckState) : ℕ := s.sent - s.acked

/-- The server and its client. The last two fields are not the program's: the frames of this
activation, and how many of them the client has acknowledged. -/
structure Session where
  frameAckState : FrameAckState
  frameAckLimit : ℕ
  frameAckPacing : Bool
  (frameCounter frames acknowledged : ℕ)

def start : Session := ⟨⟨0, 0⟩, 0, false, 0, 0, 0⟩

inductive Event
  /-- the client's capabilities may say nothing of acknowledgements; the limit is then the one there
  was -/
  | activate (maxUnacknowledgedFrameCount : Option ℕ)
  /-- the display loop looks whether a bitmap may go out, which becomes a frame if the encoder finds
  a difference and marks frames -/
  | bitmap (marked : Bool)
  /-- a bitmap has waited for `FRAME_ACK_TIMEOUT` -/
  | overdue
  | acknowledge (frameId : ℕ)

namespace Session

variable (s : Session)

def holds : Bool := s.frameAckPacing && s.frameAckLimit ≤ s.frameAckState.unacked

def unacknowledged : ℕ := s.frames - s.acknowledged

def activate (limit : ℕ) : Session :=
  { s with
    frameAckLimit := limit
    frameAckPacing := 0 < limit
    frameCounter := 0
    frames := 0
    acknowledged := 0 }

def sendFrame : Session :=
  { s with
    frameAckState := { s.frameAckState with sent := (s.frameCounter + 1) % 2 ^ 32 }
    frameCounter := (s.frameCounter + 1) % 2 ^ 32
    frames := s.frames + 1 }

/-- An acknowledgement is for every frame up to the one it names. -/
def acknowledge (frameId : ℕ) : Session :=
  { s with
    frameAckState :=
      { s.frameAckState with acked := max s.frameAckState.acked ((frameId + 1) % 2 ^ 32) }
    acknowledged := max s.acknowledged (min s.frames (frameId + 1)) }

end Session

def step (s : Session) : Event → Session
  | .activate count => s.activate (count.getD s.frameAckLimit)
  | .bitmap marked => if s.holds then s else if marked then s.sendFrame else s
  | .overdue => if s.holds then { s with frameAckPacing := false } else s
  | .acknowledge frameId => s.acknowledge frameId

structure Paced (s : Session) (e : Event) : Prop where
  bounded : s.frameAckPacing = true → s.unacknowledged ≤ s.frameAckLimit
  held : ∀ marked, e = .bitmap marked → s.holds = true → s.frameAckLimit ≤ s.unacknowledged

/-- An activation finds the counters as a new server has them, or with frames sent that do not reach
the limit; the client names frames it got. -/
def Fresh (s : Session) : Event → Prop
  | .activate count => s.frameAckState.acked = 0 ∧
      (0 < count.getD s.frameAckLimit → s.frameAckState.sent < count.getD s.frameAckLimit)
  | .bitmap _ => s.frameCounter + 1 < 2 ^ 32
  | .overdue => True
  | .acknowledge frameId => frameId < s.frames

structure Inv (s : Session) : Prop where
  counter : s.frameCounter = s.frames
  small : s.frames < 2 ^ 32
  acked : s.frameAckState.acked = s.acknowledged
  acked_le : s.acknowledged ≤ s.frames
  sent : s.frameAckState.sent = s.frames ∨
    s.frames = 0 ∧ (s.frameAckPacing = true → s.frameAckState.sent < s.frameAckLimit)
  bounded : s.frameAckPacing = true → s.unacknowledged ≤ s.frameAckLimit

variable {s : Session}

theorem Inv.holds_iff (h : Inv s) :
    s.holds = true ↔ s.frameAckPacing = true ∧ s.frameAckLimit ≤ s.unacknowledged := by
  have hsent := h.sent
  have hacked := h.acked
  have hle := h.acked_le
  rw [Session.holds, Bool.and_eq_true, decide_eq_true_eq, FrameAckState.unacked,
    Session.unacknowledged]
  refine and_congr_right fun hpacing => ?_
  rcases hsent with hsent | ⟨hnone, hsent⟩
  · rw [hsent, hacked]
  · have hlt := hsent hpacing
    omega

theorem Inv.sendFrame (h : Inv s) (hroom : s.frameCounter + 1 < 2 ^ 32) (hholds : ¬s.holds = true) :
    Inv s.sendFrame := by
  have hcounter := h.counter
  have hnext : (s.frameCounter + 1) % 2 ^ 32 = s.frames + 1 := by rw [mod_eq_of_lt hroom, hcounter]
  refine ⟨hnext, by show s.frames + 1 < _; omega, h.acked, le_succ_of_le h.acked_le, .inl hnext,
    fun hpacing => ?_⟩
  have hbelow : s.unacknowledged < s.frameAckLimit := by
    by_contra hge
    exact hholds (h.holds_iff.2 ⟨hpacing, by omega⟩)
  show s.frames + 1 - s.acknowledged ≤ s.frameAckLimit
  unfold Session.unacknowledged at hbelow
  omega

theorem Inv.acknowledge (h : Inv s) {frameId : ℕ} (hsent : frameId < s.frames) :
    Inv (s.acknowledge frameId) := by
  have hsmall := h.small
  have hnext : (frameId + 1) % 2 ^ 32 = frameId + 1 := mod_eq_of_lt (by omega)
  have hmin : min s.frames (frameId + 1) = frameId + 1 := min_eq_right hsent
  refine ⟨h.counter, h.small, ?_, ?_, ?_, fun hpacing => ?_⟩
  · show max s.frameAckState.acked _ = max s.acknowledged _
    rw [h.acked, hnext, hmin]
  · exact Nat.max_le.2 ⟨h.acked_le, Nat.min_le_left _ _⟩
  · exact .inl (h.sent.resolve_right fun hnone => by omega)
  · have hbounded := h.bounded hpacing
    have hgrows : s.acknowledged ≤ (s.acknowledge frameId).acknowledged := Nat.le_max_left _ _
    exact Nat.le_trans (Nat.sub_le_sub_left hgrows _) hbounded

theorem inv_step {e : Event} (h : Inv s) (hfresh : Fresh s e) : Inv (step s e) := by
  cases e with
  | activate count =>
    refine ⟨rfl, by simp [step, Session.activate], hfresh.1, le_refl _,
      .inr ⟨rfl, fun hpacing => ?_⟩, fun _ => zero_le _⟩
    exact hfresh.2 (of_decide_eq_true hpacing)
  | bitmap marked =>
    dsimp only [step]
    split_ifs with hholds
    · exact h
    · exact h.sendFrame hfresh hholds
    · exact h
  | overdue =>
    dsimp only [step]
    split_ifs
    · exact { h with sent := h.sent.imp_right fun hnone => ⟨hnone.1, nofun⟩, bounded := nofun }
    · exact h
  | acknowledge frameId => exact h.acknowledge hfresh

/-- **Frames are paced** in every run of fresh steps. -/
theorem paced_of_fresh (es : List Event) (h : Along step Fresh start es) :
    Along step Paced start es := by
  refine h.mono_inv (I := Inv) (fun s e => inv_step) (fun s e hI _ => ?_) ?_
  · exact ⟨hI.bounded, fun _ _ hholds => (hI.holds_iff.1 hholds).2⟩
  · exact ⟨rfl, by decide, rfl, le_refl _, .inl rfl, nofun⟩

def acknowledgedOnce : List Event := [.activate (some 2), .bitmap true, .acknowledge 0]

theorem paced_acknowledgedOnce :
    Along step Fresh start acknowledgedOnce ∧ Along step Paced start acknowledgedOnce := by
  have hfresh : Along step Fresh start acknowledgedOnce := by
    simp [acknowledgedOnce, Fresh, step, start, Session.activate, Session.sendFrame, Session.holds,
      FrameAckState.unacked]
  exact ⟨hfresh, paced_of_fresh _ hfresh⟩

/-- **Counterexample.** After it the session is activated anew, and three frames go out
unacknowledged. And a frame is held back in an activation that has sent none. -/
theorem not_paced_after_reactivation :
    ¬Along step Paced start
        (acknowledgedOnce ++ .activate none :: List.replicate 4 (.bitmap true)) ∧
      ¬Along step Paced start [.activate (some 1), .bitmap true, .activate none, .bitmap true] := by
  constructor
  · rintro ⟨-, -, -, -, -, -, -, hpaced, -⟩
    exact absurd (hpaced.bounded rfl) (by decide)
  · rintro ⟨-, -, -, hpaced, -⟩
    exact absurd (hpaced.held true rfl rfl) (by decide)

end Linrdp.Server.FramePacing
