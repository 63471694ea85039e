import Linrdp.Capture.PipeWire
import Linrdp.Lib.Runs

/-!
# Under which size a PipeWire frame was delivered

A format sets the size of the slot and a buffer its pixels, and a poll compares the two by the
number of bytes. `Traced` keeps which buffer the pixels were copied from and what the size was then.
`grabs_match_iff`: every grab has the size its pixels were delivered under, exactly unless a format
names another size with the same number of pixels.
-/

namespace Linrdp.Capture.Delivered

open List Lib.Runs Capture.TileDamage Capture.Grabber Capture.PipeWire

/-! ### The slot and the origin of its pixels -/

inductive Callback
  | format (width height now : ℕ)
  | buffer (b : Buffer)
  | error

structure Copy where
  (width height : ℕ)
  buffer : Buffer

structure Traced where
  shared : PwShared
  source : Option Copy

open Traced Option

def Traced.new : Traced := ⟨.new, none⟩

def Traced.step (t : Traced) : Callback → Traced
  | .format width height now => { t with shared := onParamChanged t.shared width height now }
  | .buffer b =>
    { shared := copyFrame t.shared b
      source :=
        if (copyFrame t.shared b).frameSeq = t.shared.frameSeq then t.source
        else some ⟨t.shared.frame.width, t.shared.frame.height, b⟩ }
  | .error => { t with shared := { t.shared with failed := true } }

def Copy.pixels (copy : Copy) : Bytes :=
  copy.buffer.rows (copy.width * 4) copy.height (copy.buffer.rowStride (copy.width * 4) copy.height)

/-- The grab has the pixels of a buffer that was delivered under its size. -/
def Matches (t : Traced) (g : Grab) : Prop :=
  ∃ copy, t.source = some copy ∧ copy.width = g.frame.width ∧ copy.height = g.frame.height ∧
    g.frame.data = copy.pixels

/-! ### The sessions that read the slot -/

inductive Event
  | callback (c : Callback)
  | attach
  | poll (debtDue : Bool)

structure System where
  traced : Traced
  prevFrame : Option Frame
  lastSeq : ℕ

def System.new : System := ⟨.new, none, 0⟩

def System.session (s : System) : PwSession := ⟨s.traced.shared, s.prevFrame, s.lastSeq⟩

def System.step (s : System) : Event → System
  | .callback c => { s with traced := s.traced.step c }
  | .attach => { s with prevFrame := none, lastSeq := 0 }
  | .poll debtDue =>
    let after := (pollAndCursor s.session debtDue).2
    { s with prevFrame := after.prevFrame, lastSeq := after.lastSeq }

def Event.callback? : Event → Option Callback
  | .callback c => some c
  | .attach => none
  | .poll _ => none

def callbacks (events : List Event) : List Callback := events.filterMap Event.callback?

def GrabMatches (s : System) (e : Event) : Prop :=
  ∀ debtDue g, e = .poll debtDue → (pollAndCursor s.session debtDue).1 = some g → Matches s.traced g

/-- A format that names another size than the one the pixels came under, with as many pixels. -/
def EqualAreaResize (t : Traced) (c : Callback) : Prop :=
  ∃ width height now copy, c = .format width height now ∧ t.source = some copy ∧
    copy.width * copy.height = width * height ∧ (copy.width ≠ width ∨ copy.height ≠ height) ∧
    width ≤ 65535 ∧ height ≤ 65535 ∧ t.shared.failed = false

/-! ### What the slot holds -/

structure Ok (t : Traced) : Prop where
  empty : t.source = none → t.shared.frame.seq = 0
  pixels : ∀ copy, t.source = some copy → t.shared.frame.data = copy.pixels ∧
    0 < copy.width ∧ 0 < copy.height ∧ t.shared.frame.seq ≠ 0

def Sized (t : Traced) : Prop :=
  ∀ copy, t.source = some copy → t.shared.failed = false → t.shared.frame.width ≤ 65535 →
    t.shared.frame.height ≤ 65535 →
    (copy.width = t.shared.frame.width ∧ copy.height = t.shared.frame.height) ∨
      copy.width * copy.height ≠ t.shared.frame.width * t.shared.frame.height

theorem copyFrame_cases (sh : PwShared) (b : Buffer) :
    copyFrame sh b = sh ∨
      (0 < sh.frame.width ∧ 0 < sh.frame.height) ∧
        copyFrame sh b = { sh with
          frame := { sh.frame with
            data := (⟨sh.frame.width, sh.frame.height, b⟩ : Copy).pixels
            seq := sh.frameSeq + 1 }
          frameSeq := sh.frameSeq + 1 } := by
  rw [copyFrame]
  split_ifs with hempty htorn hlayout
  · exact .inl rfl
  · exact .inl rfl
  · exact .inl rfl
  · exact .inr ⟨by omega, rfl⟩

theorem length_pixels (copy : Copy) : copy.pixels.length = copy.width * copy.height * 4 := by
  rw [Copy.pixels, Buffer.rows, length_flatMap]
  simp only [length_map, length_range, map_const', sum_replicate_nat]
  rw [Nat.mul_right_comm, Nat.mul_comm]

section steps

variable {t : Traced} {c : Callback}

theorem Ok.new : Ok new where
  empty _ := rfl
  pixels copy h := by simp [Traced.new] at h

theorem Sized.new : Sized Traced.new := by
  intro copy h
  simp [Traced.new] at h

theorem Ok.step (h : Ok t) (c : Callback) : Ok (t.step c) := by
  rcases c with ⟨width, height, now⟩ | b | _
  · exact ⟨h.empty, h.pixels⟩
  · rcases copyFrame_cases t.shared b with hleft | ⟨⟨hw, hh⟩, hcopied⟩
    · have hstep : t.step (.buffer b) = t := by simp [Traced.step, hleft]
      rw [hstep]
      exact h
    · have hstep : (t.step (.buffer b)).source =
          some ⟨t.shared.frame.width, t.shared.frame.height, b⟩ := by simp [Traced.step, hcopied]
      refine ⟨fun hnone => ?_, fun copy hcopy => ?_⟩
      · rw [hstep] at hnone
        simp at hnone
      · rw [hstep] at hcopy
        obtain rfl := some.inj hcopy
        refine ⟨?_, hw, hh, ?_⟩
        all_goals simp [Traced.step, hcopied]
  · exact ⟨h.empty, h.pixels⟩

theorem Sized.step (h : Sized t) (hresize : ¬ EqualAreaResize t c) : Sized (t.step c) := by
  rcases c with ⟨width, height, now⟩ | b | _
  · intro copy hcopy hfailed hw hh
    by_cases hsame : copy.width = width ∧ copy.height = height
    · exact .inl hsame
    · refine .inr fun harea => hresize ⟨width, height, now, copy, rfl, hcopy, harea, ?_, hw, hh,
        hfailed⟩
      omega
  · rcases copyFrame_cases t.shared b with hleft | ⟨-, hcopied⟩
    · have hstep : t.step (.buffer b) = t := by simp [step, hleft]
      rw [hstep]
      exact h
    · intro copy hcopy _ _ _
      have hsource : (t.step (.buffer b)).source =
          some ⟨t.shared.frame.width, t.shared.frame.height, b⟩ := by simp [step, hcopied]
      rw [hsource] at hcopy
      obtain rfl := some.inj hcopy
      left
      simp [step, hcopied]
  · intro copy _ hfailed
    simp [step] at hfailed

end steps

/-! ### What a poll returns -/

section

variable {s : System} {debtDue : Bool} {g : Grab}

theorem pollAndCursor_some {p : PwSession} (h : (pollAndCursor p debtDue).1 = some g) :
    p.frame? debtDue = some g.frame := by
  unfold pollAndCursor at h
  rcases hframe : p.frame? debtDue with _ | f
  · simp [hframe] at h
  · rw [hframe] at h
    rcases hdamage : computeTileDamage (p.prevFrame.map Frame.data) f.data f.width f.height with
      _ | ⟨damage, changed, total⟩
    · simp [hdamage] at h
    · simp only [hdamage, some.injEq] at h
      rw [← h]

theorem frame?_slot {p : PwSession} {f : Frame} (h : p.frame? debtDue = some f) :
    (f = ⟨p.shared.frame.width, p.shared.frame.height, p.shared.frame.data⟩ ∧
      p.shared.frame.data.length = p.shared.frame.width * p.shared.frame.height * 4) ∧
      p.shared.failed = false ∧ p.shared.frame.seq ≠ 0 ∧
      p.shared.frame.width ≤ 65535 ∧ p.shared.frame.height ≤ 65535 := by
  rw [PwSession.frame?] at h
  split_ifs at h with hready hempty hstale hsame hlarge
  rw [Bool.or_eq_true, not_or, Bool.not_eq_true] at hready
  rw [not_or, not_not] at hstale
  exact ⟨⟨(some.inj h).symm, hstale.2⟩, by simpa using hready.2, hstale.1, by omega, by omega⟩

theorem matches_of_poll (hok : Ok s.traced) (hsized : Sized s.traced)
    (h : (pollAndCursor s.session debtDue).1 = some g) : Matches s.traced g := by
  obtain ⟨⟨hframe, hlength⟩, hfailed, hseq, hw, hh⟩ := frame?_slot (pollAndCursor_some h)
  rcases hsource : s.traced.source with _ | copy
  · exact absurd (hok.empty hsource) hseq
  · obtain ⟨hdata, -, -, -⟩ := hok.pixels copy hsource
    have harea : copy.width * copy.height =
        s.traced.shared.frame.width * s.traced.shared.frame.height := by
      have hlen := hlength
      change s.traced.shared.frame.data.length =
        s.traced.shared.frame.width * s.traced.shared.frame.height * 4 at hlen
      rw [hdata, length_pixels] at hlen
      omega
    obtain ⟨hwidth, hheight⟩ :=
      (hsized copy hsource hfailed hw hh).resolve_right fun hne => hne harea
    refine ⟨copy, hsource, ?_, ?_, ?_⟩
    · rw [hframe]
      exact hwidth
    · rw [hframe]
      exact hheight
    · rw [hframe]
      exact hdata

end

/-! ### The guarantee -/

theorem grabsMatch_of_along {events : List Event} {s : System} (hok : Ok s.traced)
    (hsized : Sized s.traced)
    (h : Along step (fun t c => ¬ EqualAreaResize t c) s.traced (callbacks events)) :
    Along System.step GrabMatches s events := by
  induction events generalizing s with
  | nil => exact along_nil s
  | cons e events ih =>
    rw [along_cons]
    rcases e with c | _ | debtDue
    · have hcallbacks : callbacks (.callback c :: events) = c :: callbacks events := rfl
      rw [hcallbacks, along_cons] at h
      refine ⟨fun _ _ he => by simp at he, ih (hok.step c) (hsized.step h.1) h.2⟩
    · exact ⟨fun _ _ he => by simp at he, ih hok hsized h⟩
    · refine ⟨fun d g hd hg => ?_, ih hok hsized h⟩
      obtain rfl := Event.poll.inj hd
      exact matches_of_poll hok hsized hg

variable (cs : List Callback)

theorem run_callbacks (s : System) :
    run System.step s (cs.map .callback) = { s with traced := run step s.traced cs } := by
  induction cs generalizing s with
  | nil => rfl
  | cons c cs ih =>
    rw [map_cons, run_cons, ih]
    rfl

theorem callbacks_map : callbacks (cs.map .callback) = cs := by
  rw [callbacks, filterMap_map]
  exact filterMap_some

theorem ok_run : Ok (run step .new cs) := run_inv (fun _ c h => h.step c) Ok.new cs

theorem not_matches_of_resize {t : Traced} {c : Callback} (hok : Ok t) (h : EqualAreaResize t c) :
    ∃ g, (pollAndCursor ⟨(t.step c).shared, none, 0⟩ true).1 = some g ∧ ¬ Matches (t.step c) g := by
  obtain ⟨width, height, now, copy, rfl, hsource, harea, hother, hw, hh, hfailed⟩ := h
  obtain ⟨hdata, hcw, hch, hseq⟩ := hok.pixels copy hsource
  have hpos : 0 < width * height := by
    rw [← harea]
    exact Nat.mul_pos hcw hch
  have hlength : t.shared.frame.data.length = width * height * 4 := by
    rw [hdata, length_pixels, harea]
  have hframe : PwSession.frame? ⟨onParamChanged t.shared width height now, none, 0⟩ true =
      some ⟨width, height, t.shared.frame.data⟩ := by
    have hempty : ¬ (width = 0 ∨ height = 0) := by
      rintro (rfl | rfl) <;> simp at hpos
    have hlarge : ¬ (65535 < width ∨ 65535 < height) := by omega
    simp [PwSession.frame?, onParamChanged, hfailed, hseq, hlength, hempty, hlarge]
  rw [Traced.step, pollAndCursor, hframe]
  refine ⟨_, rfl, ?_⟩
  rintro ⟨copy', hsource', hw', hh', -⟩
  obtain rfl := some.inj (hsource.symm.trans hsource')
  exact hother.elim (fun hne => hne hw') fun hne => hne hh'

/-- **PipeWire frames match their geometry** in every interleaving with polls and new sessions,
exactly when no format names another size with the number of pixels that the slot holds. -/
theorem grabs_match_iff (cs : List Callback) :
    (∀ events, callbacks events = cs → Along System.step GrabMatches .new events) ↔
      Along step (fun t c => ¬ EqualAreaResize t c) .new cs := by
  constructor
  · intro h
    rw [along_iff_forall]
    rintro before c after rfl hresize
    -- let a new session poll right after the format
    have hevents : callbacks ((before ++ [c]).map .callback ++
        (.attach :: .poll true :: after.map .callback)) = before ++ c :: after := by
      have hafter : callbacks (.attach :: .poll true :: after.map .callback) = after :=
        callbacks_map after
      rw [callbacks, filterMap_append, ← callbacks, ← callbacks, callbacks_map, hafter,
        append_assoc, singleton_append]
    obtain ⟨g, hg, hmismatch⟩ := not_matches_of_resize (ok_run before) hresize
    have hpoll := along_iff_forall.1 (h _ hevents) ((before ++ [c]).map .callback ++ [.attach])
      (.poll true) (after.map .callback) (by simp) true g rfl
    rw [run_append, run_callbacks, run_append] at hpoll
    exact hmismatch (hpoll hg)
  · rintro h events rfl
    exact grabsMatch_of_along Ok.new Sized.new h

def fourByTwo : Buffer := ⟨0, 32, 16, 32, fun i => UInt8.ofNat i⟩

def turned : System :=
  run System.step .new
    [.callback (.format 4 2 0), .callback (.buffer fourByTwo), .callback (.format 2 4 1)]

/-- The poll returns the rows of the one under the size of the other. -/
theorem turned_mismatch :
    ∃ g, (pollAndCursor turned.session false).1 = some g ∧ g.frame.width = 2 ∧ g.frame.height = 4 ∧
      g.frame.data = (⟨4, 2, fourByTwo⟩ : Copy).pixels ∧ ¬ Matches turned.traced g := by
  have hgrab : ∃ g, (pollAndCursor turned.session false).1 = some g ∧ g.frame.width = 2 ∧
      g.frame.height = 4 ∧ g.frame.data = (⟨4, 2, fourByTwo⟩ : Copy).pixels :=
      ⟨_, rfl, rfl, rfl, rfl⟩
  obtain ⟨g, hg, hw, hh, hdata⟩ := hgrab
  refine ⟨g, hg, hw, hh, hdata, ?_⟩
  rintro ⟨copy, hsource, hwidth, -, -⟩
  obtain rfl : (⟨4, 2, fourByTwo⟩ : Copy) = copy := some.inj hsource
  rw [hw] at hwidth
  exact absurd hwidth (by decide)

end Linrdp.Capture.Delivered
