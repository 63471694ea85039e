import Linrdp.Capture.PipeWire
import Linrdp.Lib.Runs

/-!
# The frame a grab is compared with

`compute_tile_damage` reads both frames at positions worked out from the size of the current one, so
the previous frame has to have that size (`Comparable`). `baseline_geometry`: every call is on
frames of one size, in every run in which a pinned size is re-asserted only over a previous frame of
that size, and a format keeps the size of the previous frame. Neither is checked by the frame
sources.
-/

namespace Linrdp.Capture.Baseline

open Lib.Runs Lib.Rects
open Capture.TileDamage Capture.Grabber Capture.PipeWire ScreenGrabber PwShared

/-- The frames of one call of `compute_tile_damage` go together. -/
structure Comparable (prev : Option Frame) (cur : Frame) : Prop where
  size : ∀ p, prev = some p → p.width = cur.width ∧ p.height = cur.height
  inRange : (computeTileDamage (prev.map Frame.data) cur.data cur.width cur.height).isSome

def Fits (prev : Option Frame) (width height : ℕ) : Prop :=
  ∀ p, prev = some p →
    p.width = width ∧ p.height = height ∧ p.data.length = p.width * 4 * p.height

theorem fits_none (width height : ℕ) : Fits none width height := by rintro p ⟨⟩

theorem Fits.comparable {prev : Option Frame} {cur : Frame} (h : Fits prev cur.width cur.height)
    (hcur : cur.data.length = cur.width * 4 * cur.height) : Comparable prev cur := by
  refine ⟨fun p hp => ⟨(h p hp).1, (h p hp).2.1⟩, Option.isSome_iff_exists.2 ?_⟩
  refine computeTileDamage_isSome (fun data hdata => ?_) hcur
  obtain ⟨p, rfl, rfl⟩ := Option.map_eq_some_iff.1 hdata
  obtain ⟨hw, hh, hlen⟩ := h p rfl
  rw [hlen, hw, hh]

/-! ### The grabber -/

inductive GrabberInput
  | setFixedSize (size : Option (ℕ × ℕ))
  | poll (debtDue : Bool) (a : Answers)

variable (g : ScreenGrabber)

def grabberStep : GrabberInput → ScreenGrabber
  | .setFixedSize size => setFixedSize g size
  | .poll debtDue a => (poll g debtDue a).2

/-- The frames a step calls `compute_tile_damage` on, the previous one first. -/
def grabberCompared : GrabberInput → Option (Option Frame × Frame)
  | .setFixedSize _ => none
  | .poll debtDue a =>
    match acquire g debtDue a with
    | (.frame f, g') => some (g'.prevFrame, f)
    | _ => none

/-- A pinned size is re-asserted only over a previous frame of that size. -/
def Pinned : GrabberInput → Prop
  | .setFixedSize _ => True
  | .poll debtDue a => (gate g debtDue a).1 → ∀ size, g.fixedSize = some size →
      reasserts g a size → ∀ p, g.prevFrame = some p → (p.width, p.height) = size

def GrabberInv : Prop := Fits g.prevFrame g.width g.height

theorem gate_snd (debtDue : Bool) (a : Answers) :
    ∃ d ok, (gate g debtDue a).2 = { g with forceGrab := false, damage := d, damageOk := ok } := by
  rw [gate, damagePending]
  split_ifs
  · exact ⟨_, _, rfl⟩
  · exact ⟨true, true, rfl⟩
  all_goals exact ⟨g.damage, g.damageOk, rfl⟩

variable {g : ScreenGrabber} {a : Answers}

theorem inv_enforceFixedSize (hg : GrabberInv g)
    (hpin : ∀ size, g.fixedSize = some size → reasserts g a size →
      ∀ p, g.prevFrame = some p → (p.width, p.height) = size) :
    GrabberInv (enforceFixedSize g a) := by
  unfold enforceFixedSize
  rcases hsize : g.fixedSize with _ | size
  · exact hg
  · dsimp only
    split_ifs with hre hdue hdue
    all_goals first | exact hg | skip
    all_goals
      intro p hp
      have hps := hpin size hsize hre p hp
      exact ⟨congrArg Prod.fst hps, congrArg Prod.snd hps, (hg p hp).2.2⟩

theorem inv_prepareShm (a : Answers) (want : ℕ) (hg : GrabberInv g) :
    GrabberInv (prepareShm g a want) := by
  rw [prepareShm]
  split_ifs <;> exact hg

theorem inv_readImage (a : Answers) (hg : GrabberInv g) : GrabberInv (readImage g a).2 := by
  unfold readImage
  split <;> exact hg

theorem inv_grab (hg : GrabberInv g)
    (hpin : ∀ size, g.fixedSize = some size → reasserts g a size →
      ∀ p, g.prevFrame = some p → (p.width, p.height) = size) :
    GrabberInv (grab g a).2 := inv_readImage a (inv_prepareShm a _ (inv_enforceFixedSize hg hpin))

theorem adopt_cases {r : Option Frame × ScreenGrabber} (hr : GrabberInv r.2) :
    ((adopt r).1 = .failed ∧ GrabberInv (adopt r).2) ∨
      ∃ f, (adopt r).1 = .frame f ∧ f.data.length = f.width * 4 * f.height ∧
        (adopt r).2.width = f.width ∧ (adopt r).2.height = f.height ∧
          GrabberInv (adopt r).2 := by
  obtain ⟨f?, g⟩ := r
  rcases f? with _ | f
  · exact .inl ⟨rfl, hr⟩
  · unfold adopt
    dsimp only
    split_ifs with hlen hsize
    · exact .inl ⟨rfl, hr⟩
    · exact .inr ⟨f, rfl, not_not.1 hlen, rfl, rfl, fits_none _ _⟩
    · rw [not_or, not_not, not_not] at hsize
      exact .inr ⟨f, rfl, not_not.1 hlen, hsize.1, hsize.2, hr⟩

theorem acquire_cases {debtDue : Bool} (hg : GrabberInv g) (hpin : Pinned g (.poll debtDue a)) :
    ((acquire g debtDue a).1 = .idle ∧ GrabberInv (acquire g debtDue a).2) ∨
      ((acquire g debtDue a).1 = .failed ∧ GrabberInv (acquire g debtDue a).2) ∨
      ∃ f, (acquire g debtDue a).1 = .frame f ∧ f.data.length = f.width * 4 * f.height ∧
        (acquire g debtDue a).2.width = f.width ∧ (acquire g debtDue a).2.height = f.height ∧
          GrabberInv (acquire g debtDue a).2 := by
  obtain ⟨d, ok, hgate⟩ := gate_snd g debtDue a
  simp only [Pinned] at hpin
  unfold acquire
  by_cases hgo : (gate g debtDue a).1
  · rw [if_pos hgo, hgate]
    exact .inr (adopt_cases (inv_grab hg (hpin hgo)))
  · rw [if_neg hgo, hgate]
    exact .inl ⟨rfl, hg⟩

theorem inv_compareWithPrev {f : Frame} (hg : GrabberInv g)
    (hf : f.data.length = f.width * 4 * f.height) (hw : g.width = f.width)
    (hh : g.height = f.height) : GrabberInv (compareWithPrev f g).2 := by
  unfold compareWithPrev
  split
  · exact hg
  · dsimp only
    split_ifs
    · rintro p ⟨⟩
      exact ⟨hw.symm, hh.symm, hf⟩
    · exact hg

theorem inv_settle (a : Answers) (kind : PollKind) (hg : GrabberInv g) :
    GrabberInv (settle g a kind) := by
  rw [settle]
  split_ifs
  · unfold reconnect
    split
    · exact hg
    · exact fits_none _ _
  · exact hg

theorem grabber_inv {i : GrabberInput} (hg : GrabberInv g)
    (hpin : Pinned g i) : GrabberInv (grabberStep g i) := by
  rcases i with size | ⟨debtDue, a⟩
  · exact hg
  · have hinner : GrabberInv (pollInner g debtDue a).2 := by
      unfold pollInner
      rcases hacq : acquire g debtDue a with ⟨got, g'⟩
      have hcases := acquire_cases hg hpin
      rw [hacq] at hcases
      obtain ⟨rfl, hg'⟩ | ⟨rfl, hg'⟩ | ⟨f, rfl, hf, hw, hh, hg'⟩ := hcases
      · exact hg'
      · exact hg'
      · exact inv_compareWithPrev hg' hf hw hh
    rw [grabberStep, poll]
    split <;> rename_i hout <;> rw [hout] at hinner
    · exact inv_settle a .idle hinner
    · exact inv_settle a .failed hinner
    · exact inv_settle a .frame hinner
    · exact hinner

theorem grabber_comparable {i : GrabberInput} (hg : GrabberInv g)
    (hpin : Pinned g i) : ∀ c, grabberCompared g i = some c → Comparable c.1 c.2 := by
  rcases i with size | ⟨debtDue, a⟩
  · rintro c ⟨⟩
  · rcases hacq : acquire g debtDue a with ⟨got, g'⟩
    have hcases := acquire_cases hg hpin
    rw [hacq] at hcases
    intro c hc
    rw [grabberCompared, hacq] at hc
    obtain ⟨rfl, -⟩ | ⟨rfl, -⟩ | ⟨f, rfl, hf, hw, hh, hg'⟩ := hcases
    · simp at hc
    · simp at hc
    · obtain rfl := (Option.some.inj hc).symm
      exact Fits.comparable (hw ▸ hh ▸ hg') hf

/-! ### The PipeWire source -/

inductive PwInput
  | format (width height now : ℕ)
  | process (b : Buffer)
  | error | updatesSource
  | poll (debtDue : Bool)

variable (s : PwSession)

def pwStep : PwInput → PwSession
  | .format width height now => { s with shared := onParamChanged s.shared width height now }
  | .process b => { s with shared := copyFrame s.shared b }
  | .error => { s with shared := { s.shared with failed := true } }
  | .updatesSource => updatesSource s.shared
  | .poll debtDue => (pollAndCursor s debtDue).2

def pwCompared : PwInput → Option (Option Frame × Frame)
  | .poll debtDue => (s.frame? debtDue).map fun f => (s.prevFrame, f)
  | _ => none

def KeepsSize : PwInput → Prop
  | .format width height _ => ∀ p, s.prevFrame = some p → (p.width, p.height) = (width, height)
  | _ => True

def PwInv : Prop := Fits s.prevFrame s.shared.frame.width s.shared.frame.height

theorem pipeWire_inv {s : PwSession} {i : PwInput} (hs : PwInv s) (hkeep : KeepsSize s i) :
    PwInv (pwStep s i) := by
  rcases i with ⟨width, height, now⟩ | b | _ | _ | debtDue
  · intro p hp
    have hsize := hkeep p hp
    exact ⟨congrArg Prod.fst hsize, congrArg Prod.snd hsize, (hs p hp).2.2⟩
  · intro p hp
    simp only [pwStep, copyFrame_width, copyFrame_height]
    exact hs p hp
  · exact hs
  · exact fits_none _ _
  · rw [pwStep, pollAndCursor]
    rcases hf : s.frame? debtDue with _ | f
    · exact hs
    · obtain ⟨rfl, hlen⟩ := PwSession.frame?_some hf
      dsimp only
      split
      · exact hs
      · dsimp only
        split_ifs
        · rintro p ⟨⟩
          exact ⟨rfl, rfl, hlen⟩
        · exact hs

theorem pipeWire_comparable {s : PwSession} {i : PwInput} (hs : PwInv s) :
    ∀ c, pwCompared s i = some c → Comparable c.1 c.2 := by
  intro c hc
  rcases i with _ | _ | _ | _ | debtDue
  case poll =>
    obtain ⟨f, hf, rfl⟩ := Option.map_eq_some_iff.1 hc
    obtain ⟨rfl, hlen⟩ := PwSession.frame?_some hf
    exact Fits.comparable hs hlen
  all_goals simp [pwCompared] at hc

/-! ### Both sources -/

/-- **Every comparison is of two frames of one size.** -/
theorem baseline_geometry (width height now : ℕ) (grabs : List GrabberInput)
    (frames : List PwInput) :
    (Along grabberStep Pinned (new width height now) grabs →
      Along grabberStep (fun g i => ∀ c, grabberCompared g i = some c → Comparable c.1 c.2)
        (new width height now) grabs) ∧
    (Along pwStep KeepsSize (updatesSource new) frames →
      Along pwStep (fun s i => ∀ c, pwCompared s i = some c → Comparable c.1 c.2)
        (updatesSource new) frames) := by
  constructor
  · exact Along.mono_inv (I := GrabberInv) (fun g i => grabber_inv)
      (fun g i => grabber_comparable) (fits_none _ _)
  · exact Along.mono_inv (I := PwInv) (fun s i => pipeWire_inv)
      (fun s i hs _ => pipeWire_comparable hs) (fits_none _ _)

/-- A poll that grabs blindly and reads `data` at `size`, the screen having had the size `before`
when a pinned size was looked at. -/
def blindPoll (now : ℕ) (before size : ℕ × ℕ) (data : Bytes) : GrabberInput :=
  .poll false ⟨false, [], now, some before, true, some size, false, none, some data, none⟩

def plainBuffer (size : ℕ) : PwInput := .process ⟨0, size, 0, size, fun _ => 7⟩

/-- A screen that keeps its pinned size, and a stream that keeps its format. -/
theorem baseline_geometry_steady :
    Along grabberStep (fun g i => ∀ c, grabberCompared g i = some c → Comparable c.1 c.2)
        (new 1 1 0)
        [.setFixedSize (some (1, 1)), blindPoll 0 (1, 1) (1, 1) [1, 2, 3, 4],
          blindPoll 2000 (1, 1) (1, 1) [1, 2, 3, 5]] ∧
    Along pwStep (fun s i => ∀ c, pwCompared s i = some c → Comparable c.1 c.2)
        (updatesSource new)
        [.format 1 1 0, plainBuffer 4, .poll false, .format 1 1 0, plainBuffer 4, .poll false] := by
  constructor
  · refine (baseline_geometry 1 1 0 _ []).1 ⟨trivial, ?_, ?_, trivial⟩
    · rintro - size - - p ⟨⟩
    · rintro - size ⟨⟩ h
      exact absurd h (by decide)
  · refine (baseline_geometry 1 1 0 [] _).2 ⟨?_, trivial, trivial, ?_, trivial, trivial, trivial⟩
    · rintro p ⟨⟩
    · rintro p ⟨⟩
      rfl

/-- A pinned screen that drifts is grabbed at the drifted size, and a new format makes frames of
another size: both times the next grab is compared with the frame of the old size. -/
theorem drift_not_comparable :
    ¬ Along grabberStep (fun g i => ∀ c, grabberCompared g i = some c → Comparable c.1 c.2)
        (new 1 2 0)
        [.setFixedSize (some (1, 2)), blindPoll 0 (1, 2) (1, 2) [1, 2, 3, 4, 5, 6, 7, 8],
          blindPoll 1000 (1, 1) (1, 1) [1, 2, 3, 4],
          blindPoll 2000 (1, 1) (1, 2) [1, 2, 3, 4, 5, 6, 7, 8]] ∧
    ¬ Along pwStep (fun s i => ∀ c, pwCompared s i = some c → Comparable c.1 c.2)
        (updatesSource new)
        [.format 1 1 0, plainBuffer 4, .poll false, .format 1 2 0, plainBuffer 8, .poll false] := by
  constructor
  · rintro ⟨-, -, -, h, -⟩
    exact absurd ((h _ rfl).size _ rfl) (by decide)
  · rintro ⟨-, -, -, -, -, h, -⟩
    exact absurd ((h _ rfl).size _ rfl) (by decide)

end Linrdp.Capture.Baseline
