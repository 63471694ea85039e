import Linrdp.Lib.Runs
import Linrdp.Egfx.Server

/-!
# Back-pressure lifts itself

`shouldBackpressure` counts the frames the client has not acknowledged, their bytes, and the queue
depth it last reported. A run is any sequence of frames, acknowledgements, resets and changes of the
window, at any times. `no_deadlock`: nothing blocks but what the client can lift, or time does.
-/

namespace Linrdp.Egfx.FlowControl

open List Lib.Runs Egfx.Server FrameTracker

def minInFlight : ℕ := 3

def inFlightWindow (bdp cap : ℕ) : ℕ := min (max minInFlight (min bdp (max cap minInFlight)))
    (2 ^ 32 - 1)

structure Flow where
  tracker : FrameTracker
  clock : ℕ

inductive FlowEvent
  | elapse (ms : ℕ)
  /-- a frame of a caller that asks `shouldBackpressure` first, or does not -/
  | frame (asks : Bool)
  | drained (frameId sizeBytes : ℕ)
  | acknowledge (frameId queueDepth : ℕ)
  | reset
  | window (bdp cap : ℕ)

def start (now : ℕ) : Flow := ⟨.new, now⟩

def Flow.blocked (f : Flow) : Bool := f.tracker.shouldBackpressure f.clock

def Flow.admitted (f : Flow) (asks : Bool) : Bool := !(asks && f.blocked)

def step (f : Flow) : FlowEvent → Flow
  | .elapse ms => { f with clock := f.clock + ms }
  | .frame asks =>
    if f.admitted asks then { f with tracker := (f.tracker.beginFrame f.clock).2 } else f
  | .drained frameId sizeBytes => { f with tracker := f.tracker.setFrameSize frameId sizeBytes }
  | .acknowledge frameId queueDepth =>
    { f with tracker := f.tracker.acknowledge frameId queueDepth f.clock }
  | .reset => { f with tracker := f.tracker.clear }
  | .window bdp cap => { f with tracker := { f.tracker with maxInFlight := inFlightWindow bdp cap }
      }

def before (now : ℕ) (events : List FlowEvent) (n : ℕ) : Flow := stateAt step (start now) events n

/-- A frame was begun under this number since the last reset, and the client has not acknowledged
the number since. -/
def Outstanding (now : ℕ) (events : List FlowEvent) (n frameId : ℕ) : Prop :=
  ∃ k asks, k < n ∧ events[k]? = some (.frame asks) ∧ (before now events k).admitted asks = true ∧
    (before now events k).tracker.nextFrameId = frameId ∧
    ∀ j, k < j → j < n → events[j]? ≠ some .reset ∧
      ∀ queueDepth, events[j]? ≠ some (.acknowledge frameId queueDepth)

structure NoDeadlock (now : ℕ) (events : List FlowEvent) : Prop where
  /-- Only an outstanding frame or a recent reading blocks. -/
  blocked : ∀ n, (before now events n).blocked = true →
    (∃ info ∈ (before now events n).tracker.unacknowledged, Outstanding now events n info.frameId) ∨
      ∃ at0, (before now events n).tracker.clientQueueDepthAt = some at0 ∧
        clientQueueBackoff ≤ (before now events n).tracker.clientQueueDepth ∧
        (before now events n).clock < at0 + clientQueueDepthStaleAfter
  /-- A reading expires by itself once no frame is tracked. -/
  expires : ∀ n later, (before now events n).tracker.unacknowledged = [] →
    (∀ at0, (before now events n).tracker.clientQueueDepthAt = some at0 →
      at0 + clientQueueDepthStaleAfter ≤ later) →
    (before now events n).tracker.shouldBackpressure later = false
  /-- While acknowledgements are suspended nothing is tracked and nothing blocks. -/
  suspended : ∀ n, (before now events n).tracker.ackSuspended = true →
    (before now events n).tracker.unacknowledged = [] ∧
      ∀ later, (before now events n).tracker.shouldBackpressure later = false
  /-- A caller that asks first is never admitted beyond the window. -/
  admitted : ∀ n, events[n]? = some (.frame true) → (before now events n).admitted true = true →
    ((∀ k, k < n → events[k]? ≠ some (.frame false)) ∨
      (before now events n).tracker.unacknowledged.length < 2 ^ 32) →
    (before now events (n + 1)).tracker.unacknowledged.length ≤
      (before now events (n + 1)).tracker.maxInFlight

/-! ### What the tracker holds -/

structure Tracked (now : ℕ) (events : List FlowEvent) (n : ℕ) : Prop where
  outstanding : ∀ info ∈ (before now events n).tracker.unacknowledged,
    Outstanding now events n info.frameId
  quiet : (before now events n).tracker.ackSuspended = true →
    (before now events n).tracker.unacknowledged = [] ∧
      (before now events n).tracker.clientQueueDepth = 0
  window : 0 < (before now events n).tracker.maxInFlight ∧
    (before now events n).tracker.maxInFlight < 2 ^ 32
  few : (∀ k, k < n → events[k]? ≠ some (.frame false)) →
    (before now events n).tracker.unacknowledged.length < 2 ^ 32

variable {frameId : ℕ}

section history

variable {now : ℕ} {events : List FlowEvent} {n : ℕ}

theorem before_succ {e : FlowEvent} (h : events[n]? = some e) :
    before now events (n + 1) = step (before now events n) e := stateAt_succ step (start now) h

theorem Outstanding.later (h : Outstanding now events n frameId) (hreset : events[n]? ≠ some .reset)
    (hack : ∀ queueDepth, events[n]? ≠ some (.acknowledge frameId queueDepth)) :
    Outstanding now events (n + 1) frameId := by
  obtain ⟨k, asks, hk, hframe, hadmitted, hid, hsince⟩ := h
  refine ⟨k, asks, by omega, hframe, hadmitted, hid, fun j hkj hj => ?_⟩
  rcases Nat.lt_succ_iff_lt_or_eq.1 hj with hj | rfl
  · exact hsince j hkj hj
  · exact ⟨hreset, hack⟩

theorem Tracked.fewer (h : Tracked now events n)
    (hsame : ∀ info ∈ (before now events (n + 1)).tracker.unacknowledged,
      ∃ old ∈ (before now events n).tracker.unacknowledged, old.frameId = info.frameId ∧
        events[n]? ≠ some .reset ∧
          ∀ queueDepth, events[n]? ≠ some (.acknowledge info.frameId queueDepth))
    (hlength : (before now events (n + 1)).tracker.unacknowledged.length ≤
      (before now events n).tracker.unacknowledged.length)
    (hquiet : (before now events (n + 1)).tracker.ackSuspended = true →
      (before now events (n + 1)).tracker.unacknowledged = [] ∧
        (before now events (n + 1)).tracker.clientQueueDepth = 0)
    (hwindow : 0 < (before now events (n + 1)).tracker.maxInFlight ∧
      (before now events (n + 1)).tracker.maxInFlight < 2 ^ 32) : Tracked now events (n + 1) := by
  refine ⟨fun info hinfo => ?_, hquiet, hwindow, fun hasks => ?_⟩
  · obtain ⟨old, hold, hid, hreset, hack⟩ := hsame info hinfo
    rw [← hid] at hack ⊢
    exact (h.outstanding old hold).later hreset hack
  · have hfew := h.few fun k hk => hasks k (by omega)
    omega

end history

/-! ### What the tracker's functions do -/

variable {queueDepth : ℕ}

section tracker

variable {t : FrameTracker} {now : ℕ}

theorem shouldBackpressure_true (h : t.shouldBackpressure now = true) (hmax : 0 < t.maxInFlight) :
    t.unacknowledged ≠ [] ∨ ∃ at0, t.clientQueueDepthAt = some at0 ∧
      clientQueueBackoff ≤ t.clientQueueDepth ∧ now < at0 + clientQueueDepthStaleAfter := by
  by_contra hfree
  push Not at hfree
  obtain ⟨hnone, hold⟩ := hfree
  unfold shouldBackpressure at h
  split_ifs at h with hdepth hsuspended
  · simp only [Bool.and_eq_true, decide_eq_true_eq, Bool.not_eq_true',
      queueDepthIsStale, hnone] at hdepth
    obtain ⟨hbackoff, hfresh⟩ := hdepth
    rcases hat : t.clientQueueDepthAt with _ | at0
    · simp [hat] at hfresh
    · have hle := hold at0 hat hbackoff
      simp only [hat, Option.all_some, isEmpty_nil, Bool.true_and,
        decide_eq_false_iff_not] at hfresh
      exact hfresh hle
  · simp [inFlight, hnone] at h
    omega

theorem shouldBackpressure_false (h : t.shouldBackpressure now = false)
    (hsuspended : t.ackSuspended = false) : t.inFlight < t.maxInFlight := by
  unfold shouldBackpressure at h
  rw [hsuspended, if_neg Bool.false_ne_true] at h
  split at h
  · contradiction
  · simp only [Bool.or_eq_false_iff, decide_eq_false_iff_not] at h
    omega

theorem shouldBackpressure_idle (hnone : t.unacknowledged = []) (hmax : 0 < t.maxInFlight)
    (hold : ∀ at0, t.clientQueueDepthAt = some at0 → clientQueueBackoff ≤ t.clientQueueDepth →
      at0 + clientQueueDepthStaleAfter ≤ now) : t.shouldBackpressure now = false := by
  by_contra hblocked
  rw [Bool.not_eq_false] at hblocked
  obtain hsome | ⟨at0, hat, hbackoff, hlt⟩ := shouldBackpressure_true hblocked hmax
  · exact hsome hnone
  · have hle := hold at0 hat hbackoff
    omega

theorem beginFrame_suspended (h : t.ackSuspended = true) :
    (t.beginFrame now).2.unacknowledged = t.unacknowledged := by simp [beginFrame, h]

theorem beginFrame_unacknowledged (h : t.ackSuspended = false) :
    (t.beginFrame now).2.unacknowledged = ⟨t.nextFrameId, now, 0⟩ ::
      t.unacknowledged.filter fun i => i.frameId != t.nextFrameId := by simp [beginFrame, h]

theorem acknowledge_mem {info : FrameInfo}
    (h : info ∈ (t.acknowledge frameId queueDepth now).unacknowledged) :
    info ∈ t.unacknowledged ∧ info.frameId ≠ frameId := by
  unfold acknowledge at h
  split_ifs at h with hsuspend
  · simp at h
  · simpa using h

theorem acknowledge_length :
    (t.acknowledge frameId queueDepth now).unacknowledged.length ≤ t.unacknowledged.length := by
  unfold acknowledge
  split_ifs with hsuspend
  · simp
  · exact length_filter_le _ _

theorem acknowledge_maxInFlight :
    (t.acknowledge frameId queueDepth now).maxInFlight = t.maxInFlight := by
  unfold acknowledge
  split_ifs <;> rfl

end tracker

theorem inFlightWindow_bounds (bdp cap : ℕ) :
    0 < inFlightWindow bdp cap ∧ inFlightWindow bdp cap < 2 ^ 32 := by
  unfold inFlightWindow minInFlight
  omega

/-! ### Every event keeps it -/

section

variable {now : ℕ} {events : List FlowEvent} {n : ℕ}

section

variable (h : Tracked now events n)
include h

theorem admitted_length (hadmitted : (before now events n).admitted true = true)
    (hfew : (before now events n).tracker.unacknowledged.length < 2 ^ 32) :
    ((before now events n).tracker.beginFrame (before now events n).clock).2.unacknowledged.length ≤
      (before now events n).tracker.maxInFlight := by
  have hfree : (before now events n).tracker.shouldBackpressure (before now events n).clock =
      false := by
    simpa [Flow.admitted, Flow.blocked] using hadmitted
  rcases hsuspended : (before now events n).tracker.ackSuspended with _ | _
  · have hlt := shouldBackpressure_false hfree hsuspended
    have hfilter := length_filter_le
      (fun i : FrameInfo => i.frameId != (before now events n).tracker.nextFrameId)
      (before now events n).tracker.unacknowledged
    rw [inFlight, Nat.mod_eq_of_lt hfew] at hlt
    rw [beginFrame_unacknowledged hsuspended, length_cons]
    omega
  · rw [beginFrame_suspended hsuspended, (h.quiet hsuspended).1]
    exact Nat.zero_le _

theorem tracked_frame {asks : Bool}
    (hevent : events[n]? = some (.frame asks)) : Tracked now events (n + 1) := by
  have hnext : before now events (n + 1) = step (before now events n) (.frame asks) :=
    before_succ hevent
  have hkept : ∀ info ∈ (before now events n).tracker.unacknowledged,
      Outstanding now events (n + 1) info.frameId := fun info hinfo =>
    (h.outstanding info hinfo).later (by simp [hevent]) (by simp [hevent])
  rw [step] at hnext
  split_ifs at hnext with hadmitted
  swap
  · refine ⟨?_, ?_, ?_, fun hasks => ?_⟩ <;> rw [hnext]
    · exact hkept
    · exact h.quiet
    · exact h.window
    · exact h.few fun k hk => hasks k (by omega)
  refine ⟨?_, ?_, ?_, fun hasks => ?_⟩ <;> rw [hnext]
  · intro info hinfo
    rcases hsuspended : (before now events n).tracker.ackSuspended with _ | _
    · rw [beginFrame_unacknowledged hsuspended] at hinfo
      rcases mem_cons.1 hinfo with rfl | hinfo
      · exact ⟨n, asks, by omega, hevent, hadmitted, rfl, fun j hnj hj => by omega⟩
      · exact hkept info (mem_of_mem_filter hinfo)
    · rw [beginFrame_suspended hsuspended] at hinfo
      exact hkept info hinfo
  · intro (hsuspended : (before now events n).tracker.ackSuspended = true)
    obtain ⟨hnone, hdepth⟩ := h.quiet hsuspended
    exact ⟨(beginFrame_suspended hsuspended).trans hnone, hdepth⟩
  · exact h.window
  · have hfew := h.few fun k hk => hasks k (by omega)
    cases asks with
    | false => exact absurd hevent (hasks n (by omega))
    | true => exact Nat.lt_of_le_of_lt (admitted_length h hadmitted hfew) h.window.2

theorem tracked_acknowledge
    (hevent : events[n]? = some (.acknowledge frameId queueDepth)) :
    Tracked now events (n + 1) := by
  refine h.fewer ?_ ?_ ?_ ?_ <;> rw [before_succ hevent]
  · intro info hinfo
    obtain ⟨hmem, hne⟩ := acknowledge_mem hinfo
    refine ⟨info, hmem, rfl, by simp [hevent], fun depth hack => hne ?_⟩
    rw [hevent] at hack
    simp only [Option.some.injEq, FlowEvent.acknowledge.injEq] at hack
    exact hack.1.symm
  · exact acknowledge_length
  · intro hsuspended
    simp only [step, acknowledge] at hsuspended ⊢
    split_ifs at hsuspended ⊢
    exact ⟨rfl, rfl⟩
  · rw [show (step (before now events n) (.acknowledge frameId queueDepth)).tracker.maxInFlight =
      _ from
      acknowledge_maxInFlight]
    exact h.window

theorem tracked_drained {sizeBytes : ℕ}
    (hevent : events[n]? = some (.drained frameId sizeBytes)) : Tracked now events (n + 1) := by
  refine h.fewer ?_ ?_ ?_ ?_ <;> rw [before_succ hevent]
  · intro info hinfo
    obtain ⟨old, hold, rfl⟩ := mem_map.1 hinfo
    exact ⟨old, hold, by split_ifs <;> rfl, by simp [hevent], by simp [hevent]⟩
  · exact Nat.le_of_eq (length_map _)
  · intro hsuspended
    obtain ⟨hnone, hdepth⟩ := h.quiet hsuspended
    exact ⟨by simp [step, setFrameSize, hnone], hdepth⟩
  · exact h.window

theorem tracked_succ : Tracked now events (n + 1) := by
  rcases hevent : events[n]? with _ | event
  · have hsame : before now events (n + 1) = before now events n := stateAt_succ_none step _ hevent
    refine h.fewer ?_ ?_ ?_ ?_ <;> rw [hsame]
    · exact fun info hinfo => ⟨info, hinfo, rfl, by simp [hevent], by simp [hevent]⟩
    · exact h.quiet
    · exact h.window
  cases event with
  | frame asks => exact tracked_frame h hevent
  | drained frameId sizeBytes => exact tracked_drained h hevent
  | acknowledge frameId queueDepth => exact tracked_acknowledge h hevent
  | reset =>
    refine h.fewer ?_ ?_ ?_ ?_ <;> rw [before_succ hevent]
    · intro info hinfo
      simp [step, clear] at hinfo
    · exact Nat.zero_le _
    · exact fun _ => ⟨rfl, rfl⟩
    · exact h.window
  | elapse | window =>
    refine h.fewer ?_ ?_ ?_ ?_ <;> rw [before_succ hevent]
    · exact fun info hinfo => ⟨info, hinfo, rfl, by simp [hevent], by simp [hevent]⟩
    · exact le_rfl
    · exact h.quiet
    · first | exact h.window | exact inFlightWindow_bounds ..

end

end

theorem tracked (now : ℕ) (events : List FlowEvent) (n : ℕ) : Tracked now events n := by
  induction n with
  | zero =>
    have hstart : before now events 0 = start now := stateAt_zero step _ events
    refine ⟨?_, ?_, ?_, fun _ => ?_⟩ <;> rw [hstart]
    · intro info hinfo
      simp [start, FrameTracker.new] at hinfo
    · exact fun _ => ⟨rfl, rfl⟩
    · exact inFlightWindow_bounds 0 0
    · exact Nat.two_pow_pos 32
  | succ n ih => exact tracked_succ ih

/-- **Back-pressure does not deadlock on itself.** -/
theorem no_deadlock (now : ℕ) (events : List FlowEvent) : NoDeadlock now events where
  blocked n hblocked := by
    have h := tracked now events n
    obtain hsome | hreading := shouldBackpressure_true hblocked h.window.1
    · obtain ⟨info, hinfo⟩ := exists_mem_of_ne_nil _ hsome
      exact .inl ⟨info, hinfo, h.outstanding info hinfo⟩
    · exact .inr hreading
  expires n later hnone hold :=
    shouldBackpressure_idle hnone (tracked now events n).window.1 fun at0 hat _ => hold at0 hat
  suspended n hsuspended := by
    have h := tracked now events n
    obtain ⟨hnone, hdepth⟩ := h.quiet hsuspended
    refine ⟨hnone, fun later => shouldBackpressure_idle hnone h.window.1 fun at0 _ hbackoff => ?_⟩
    rw [hdepth] at hbackoff
    exact absurd hbackoff (by decide)
  admitted n hevent hadmitted hfew := by
    have h := tracked now events n
    have hlength := admitted_length h hadmitted (hfew.elim h.few id)
    rw [before_succ hevent, step, if_pos hadmitted]
    exact hlength

end Linrdp.Egfx.FlowControl
