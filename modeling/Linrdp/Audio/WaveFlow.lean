import Mathlib.Order.Interval.Finset.Nat
import Linrdp.Lib.Runs

/-!
# Waves in flight

`SystemSoundHandler` of `sound_real.rs`, with `wave` of the sound channel: the sender drops a wave
while five are unconfirmed, counts the waves it hands to the server, and records each under the
number the server is going to stamp it with. When no confirm has come for a while it starts counting
anew, but keeps the records: a confirm for a wave of before then takes a newer one off the counter.
`flows_of_timely`: this is what can go wrong, besides a wave the server drops and a confirm before
the record of its wave or 256 waves late.
-/

namespace Linrdp.Audio.WaveFlow

open Finset Function Lib.Runs

/-- `MAX_IN_FLIGHT` -/
def maxInFlight : ℤ := 5

/-- `wave` is not the program's, and what the client's backlog is told from is left out. -/
structure SentWave where
  wave : ℕ
  confirmed : Bool

/-- What the sender does next: look at the counter, start it anew, send, count, record. -/
inductive Pc
  | look | reset | send | count | record
deriving DecidableEq

/-- The sender, the server and the waves, numbered as they are sent. With `clamping` a confirm found
the counter at zero, which it is about to store again. The last four fields are not the program's:
how many waves are recorded, which one is the first since the counter started anew, the last one
stamped with each number, and which ones the client has confirmed. -/
structure World where
  inFlight : ℤ
  lastConfirm : ℕ
  sent : UInt8 → Option SentWave
  sendBlockNo : UInt8
  pc : Pc
  clamping : Bool
  (handed taken : ℕ)
  blockNo : UInt8
  (recorded since : ℕ)
  stamps : UInt8 → Option ℕ
  confirmed : ℕ → Bool

/-- Nothing sent; both counters of block numbers start at one. -/
def start : World :=
  ⟨0, 0, fun _ => none, 1, .look, false, 0, 0, 1, 0, 0, fun _ => none, fun _ => false⟩

namespace World

variable (s : World)

/-- The sender's next step, at time `now`; `encoded` is whether the encoder gave a wave. -/
def send (now : ℕ) (encoded : Bool) : World :=
  match s.pc with
  | .look =>
    if s.inFlight < maxInFlight then { s with pc := .send }
    else if 1500 < now - s.lastConfirm then { s with pc := .reset }
    else s
  | .reset => { s with inFlight := 0, pc := .send, since := s.recorded }
  | .send => if encoded then { s with pc := .count, handed := s.handed + 1 } else { s with pc :=
      .look }
  | .count => { s with inFlight := s.inFlight + 1, pc := .record }
  | .record =>
    if s.clamping then s
    else { s with
      sent := update s.sent s.sendBlockNo (some ⟨s.recorded, false⟩)
      sendBlockNo := s.sendBlockNo + 1
      pc := .look
      recorded := s.recorded + 1 }

/-- The server takes the next wave and stamps it, or drops it. -/
def wave (stamped : Bool) : World :=
  if s.taken < s.handed then
    if stamped then { s with
      taken := s.taken + 1
      blockNo := s.blockNo + 1
      stamps := update s.stamps s.blockNo (some s.taken) }
    else { s with taken := s.taken + 1 }
  else s

/-- `wave_confirm`; a counter that was at zero or below is about to be stored as zero. -/
def waveConfirm (blockNo : UInt8) (now : ℕ) : World :=
  let s := { s with
    lastConfirm := now
    confirmed := (s.stamps blockNo).elim s.confirmed fun w => update s.confirmed w true }
  match s.sent blockNo with
  | some ⟨w, false⟩ => { s with
      inFlight := s.inFlight - 1
      sent := update s.sent blockNo (some ⟨w, true⟩)
      clamping := decide (s.inFlight ≤ 0) }
  | _ => s

/-- The wave being sent is counted before it is recorded. -/
def counted : ℕ := if s.pc = .record then s.recorded + 1 else s.recorded

/-- The waves counted since the last reset that the client has not confirmed. -/
def unconfirmed : Finset ℕ := {w ∈ Ico s.since s.counted | s.confirmed w = false}

end World

open World UInt8 Option

/-- `clamp` is the second half of a confirm, its store of zero. -/
inductive Event
  | send (now : ℕ) (encoded : Bool)
  | wave (stamped : Bool)
  | confirm (blockNo : UInt8) (now : ℕ)
  | clamp

/-- One step of the sender, the server or the client. A confirm holds the lock until its store. -/
def step (s : World) : Event → World
  | .send now encoded => s.send now encoded
  | .wave stamped => s.wave stamped
  | .confirm blockNo now => if s.clamping then s else s.waveConfirm blockNo now
  | .clamp => if s.clamping then { s with inFlight := 0, clamping := false } else s

/-- What the counter, the bound and the records are for, at one event. -/
structure Flows (s : World) (e : Event) : Prop where
  counter : s.inFlight = s.unconfirmed.card
  bounded : s.inFlight ≤ maxInFlight
  /-- A confirm finds the record of the wave that was stamped with its number, if there is one. -/
  matched : ∀ b now, e = .confirm b now → s.stamps b = (s.sent b).map SentWave.wave
  /-- A confirm frees a slot only for a wave that was not confirmed before. -/
  once : ∀ b now, e = .confirm b now → (step s e).inFlight ≠ s.inFlight →
    ∃ w ∈ s.stamps b, s.confirmed w = false

/-- The server drops no wave, and a confirm finds its wave's record, of since the last reset unless
it was confirmed before. -/
def Timely (s : World) : Event → Prop
  | .wave stamped => stamped = true
  | .confirm b _ =>
    match s.stamps b with
    | none => s.sent b = none
    | some w => w < s.recorded ∧ s.recorded ≤ w + 256 ∧ (s.confirmed w = true ∨ s.since ≤ w)
  | _ => True

/-- The last of `n` waves that is stamped with a number, if every wave is stamped. -/
def lastWave : ℕ → UInt8 → Option ℕ
  | 0 => fun _ => none
  | n + 1 => update (lastWave n) (.ofNat (n + 1)) (some n)

/-- The invariant of timely runs. -/
structure Inv (s : World) : Prop where
  counter : s.inFlight = s.unconfirmed.card
  bounded : s.inFlight ≤ maxInFlight
  room : s.pc = .send ∨ s.pc = .count → s.inFlight < maxInFlight
  calm : s.clamping = false
  since : s.since ≤ s.recorded
  later : ∀ w, s.recorded ≤ w → s.confirmed w = false
  numbers : s.sendBlockNo = .ofNat (s.recorded + 1) ∧ s.blockNo = .ofNat (s.taken + 1)
  stamps : s.stamps = lastWave s.taken
  sent : ∀ b, s.sent b = (lastWave s.recorded b).map fun w => ⟨w, s.confirmed w⟩

theorem ofNat_succ (n : ℕ) : ofNat n + 1 = .ofNat (n + 1) := (ofNat_add n 1).symm

theorem lastWave_some {n w : ℕ} {b : UInt8} (h : lastWave n b = some w) : b = .ofNat (w + 1) ∧
    w < n := by
  induction n with
  | zero => cases h
  | succ n ih =>
    rcases eq_or_ne b (.ofNat (n + 1)) with rfl | hb
    · rw [lastWave, update_self] at h
      obtain rfl := some.inj h
      exact ⟨rfl, Nat.lt_succ_self _⟩
    · rw [lastWave, update_of_ne hb] at h
      exact ⟨(ih h).1, Nat.lt_succ_of_lt (ih h).2⟩

/-- **The numbers come again after 256 waves**, and not before. -/
theorem lastWave_ofNat {n w : ℕ} (hlt : w < n) (hle : n ≤ w + 256) :
    lastWave n (.ofNat (w + 1)) = some w := by
  induction n with
  | zero => omega
  | succ n ih =>
    rcases Nat.lt_succ_iff_lt_or_eq.1 hlt with hlt | rfl
    · have hne : ofNat (w + 1) ≠ .ofNat (n + 1) := by
        intro heq
        have hmod := congrArg toNat heq
        rw [toNat_ofNat', toNat_ofNat'] at hmod
        omega
      rw [lastWave, update_of_ne hne]
      exact ih hlt (by omega)
    · exact update_self ..

variable {s : World}

theorem Inv.goto (h : Inv s) (hpc : s.pc ≠ .record) {pc : Pc} (hpc' : pc ≠ .record)
    (hroom : pc = .send ∨ pc = .count → s.inFlight < maxInFlight) : Inv { s with pc := pc } := by
  have hcounter := h.counter
  refine { h with counter := ?_, room := hroom }
  simpa [unconfirmed, counted, hpc, hpc'] using hcounter

theorem inv_send (h : Inv s) (now : ℕ) (encoded : Bool) : Inv (s.send now encoded) := by
  have hcounter := h.counter
  unfold send
  rcases hpc : s.pc with _ | _ | _ | _ | _ <;> dsimp only
  · split_ifs with hroom
    · exact h.goto (by simp [hpc]) (by simp) fun _ => hroom
    · exact h.goto (by simp [hpc]) (by simp) (by simp)
    · exact h
  · refine { h with counter := ?_, bounded := ?_, room := fun _ => ?_, since := le_rfl }
    · simp [unconfirmed, counted]
    all_goals simp [maxInFlight]
  · split_ifs
    · exact { h.goto (by simp [hpc]) (by simp) fun _ => h.room (.inl hpc) with }
    · exact h.goto (by simp [hpc]) (by simp) (by simp)
  · have hlt := h.room (.inr hpc)
    simp only [unconfirmed, counted, hpc, reduceCtorEq, if_false] at hcounter
    refine { h with counter := ?_, bounded := by dsimp only; omega, room := by simp }
    simp only [unconfirmed, counted, if_true]
    rw [Nat.Ico_succ_right_eq_insert_Ico h.since, filter_insert, if_pos (h.later _ le_rfl),
      card_insert_of_notMem (by simp), hcounter]
    simp
  · rw [if_neg (by simp [h.calm])]
    refine { h with
      counter := ?_, room := by simp, since := Nat.le_succ_of_le h.since, later := ?_, numbers :=
        ?_, sent := ?_ }
    · simpa [unconfirmed, counted, hpc] using hcounter
    · exact fun w hw => h.later w (Nat.le_of_succ_le hw)
    · exact ⟨by rw [h.numbers.1, ofNat_succ], h.numbers.2⟩
    · intro b
      simp only [lastWave, h.numbers.1, update_apply]
      split_ifs
      · simp [h.later s.recorded le_rfl]
      · exact h.sent b

theorem inv_wave (h : Inv s) : Inv (s.wave true) := by
  rw [wave]
  by_cases htaken : s.taken < s.handed
  · rw [if_pos htaken, if_pos rfl]
    refine { h with numbers := ⟨h.numbers.1, by rw [h.numbers.2, ofNat_succ]⟩, stamps := ?_ }
    rw [h.stamps, h.numbers.2, lastWave]
  · rw [if_neg htaken]
    exact h

theorem Inv.found (h : Inv s) {b : UInt8} {now : ℕ} (htimely : Timely s (.confirm b now)) :
    (s.stamps b = none ∧ s.sent b = none) ∨ ∃ w, s.stamps b = some w ∧
    s.sent b = some ⟨w, s.confirmed w⟩ ∧
      w < s.recorded ∧ (s.confirmed w = true ∨ s.since ≤ w) := by
  rcases hstamp : s.stamps b with _ | w <;> simp only [Timely, hstamp] at htimely
  · exact .inl ⟨rfl, htimely⟩
  · obtain ⟨hlt, hle, hsince⟩ := htimely
    rw [h.stamps] at hstamp
    refine .inr ⟨w, rfl, ?_, hlt, hsince⟩
    rw [h.sent, (lastWave_some hstamp).1, lastWave_ofNat hlt hle]
    rfl

theorem Inv.confirmed (h : Inv s) {b : UInt8} {w : ℕ} (hsent : s.sent b = some ⟨w, false⟩)
    (hwaits : s.confirmed w = false) (hsince : s.since ≤ w) (now : ℕ) : Inv { s with
    lastConfirm := now
    confirmed := update s.confirmed w true
    inFlight := s.inFlight - 1
    sent := update s.sent b (some ⟨w, true⟩)
    clamping := decide (s.inFlight ≤ 0) } := by
  have hlast : lastWave s.recorded b = some w := by
    have heq := h.sent b
    rw [hsent] at heq
    obtain ⟨v, hv, heq⟩ := map_eq_some_iff.1 heq.symm
    rw [hv, (SentWave.mk.inj heq).1]
  obtain ⟨hb, hlt⟩ := lastWave_some hlast
  have hmem : w ∈ s.unconfirmed := by
    have hcounted : w < s.counted := by
      unfold counted
      split_ifs <;> omega
    simp [unconfirmed, hsince, hcounted, hwaits]
  have herase :
      {v ∈ Ico s.since s.counted | update s.confirmed w true v = false} = s.unconfirmed.erase
      w := by
    ext v
    rcases eq_or_ne v w with rfl | hv
    · simp
    · simp [unconfirmed, hv]
  have hpos : 0 < s.unconfirmed.card := card_pos.2 ⟨w, hmem⟩
  have hcounter := h.counter
  refine { h with counter := ?_, bounded := ?_, room := ?_, calm := ?_, later := ?_, sent := ?_ }
  · refine Eq.trans ?_ (congrArg (fun t : Finset ℕ => (t.card : ℤ)) herase).symm
    dsimp only
    rw [card_erase_of_mem hmem]
    omega
  · have hbounded := h.bounded
    dsimp only
    omega
  · intro hpc
    have hroom := h.room hpc
    dsimp only
    omega
  · simp only [decide_eq_false_iff_not]
    omega
  · intro v hv
    have hne : v ≠ w := (lt_of_lt_of_le hlt hv).ne'
    exact (update_of_ne hne _ _).trans (h.later v hv)
  · intro b'
    rcases eq_or_ne b' b with rfl | hne
    · simp [hlast]
    · refine (update_of_ne hne _ _).trans ((h.sent b').trans (map_congr fun v hv => ?_))
      have hv' : v ≠ w := by
        rintro rfl
        exact hne ((lastWave_some hv).1.trans hb.symm)
      exact congrArg _ (update_of_ne hv' _ _).symm

theorem inv_confirm (h : Inv s) {b : UInt8} {now : ℕ} (htimely : Timely s (.confirm b now)) :
    Inv (s.waveConfirm b now) := by
  rcases h.found htimely with ⟨hstamp, hsent⟩ | ⟨w, hstamp, hsent, -, hsince⟩
  · simp only [waveConfirm, hstamp, hsent, elim_none]
    exact { h with }
  · simp only [waveConfirm, hstamp, hsent, elim_some]
    rcases hw : s.confirmed w with _ | _
    · rw [hw] at hsent hsince
      exact h.confirmed hsent hw (hsince.resolve_left (by simp)) now
    · have hsame : update s.confirmed w true = s.confirmed := by rw [← hw, update_eq_self]
      simp only [hsame]
      exact { h with }

theorem inv_step (h : Inv s) {e : Event} (htimely : Timely s e) : Inv (step s e) := by
  cases e with
  | send now encoded => exact inv_send h now encoded
  | wave stamped =>
    obtain rfl : stamped = true := htimely
    exact inv_wave h
  | confirm b now =>
    rw [step, if_neg (by simp [h.calm])]
    exact inv_confirm h htimely
  | clamp =>
    rw [step, if_neg (by simp [h.calm])]
    exact h

theorem Inv.flows (h : Inv s) {e : Event} (htimely : Timely s e) : Flows s e := by
  refine ⟨h.counter, h.bounded, fun b now he => ?_, fun b now he hfreed => ?_⟩
  · subst he
    rcases h.found htimely with ⟨hstamp, hsent⟩ | ⟨w, hstamp, hsent, -⟩
    all_goals simp [hstamp, hsent]
  · subst he
    rw [step, if_neg (by simp [h.calm])] at hfreed
    rcases h.found htimely with ⟨hstamp, hsent⟩ | ⟨w, hstamp, hsent, -⟩
    · simp [waveConfirm, hsent] at hfreed
    · refine ⟨w, hstamp, ?_⟩
      by_contra hw
      rw [Bool.not_eq_false] at hw
      simp [waveConfirm, hsent, hw] at hfreed

/-- **The counter is right** in every interleaving in which the server drops no wave and the
confirms are timely. -/
theorem flows_of_timely (es : List Event) (h : Along step Timely start es) :
    Along step Flows start es := by
  refine h.mono_inv (I := Inv) (fun s e hI ht => inv_step hI ht) (fun s e hI ht => hI.flows ht) ?_
  exact ⟨rfl, Int.le.intro 5 rfl, by simp [start], rfl, le_rfl, fun _ _ => rfl, ⟨rfl, rfl⟩, rfl,
    fun _ => rfl⟩

def sendWave (now : ℕ) : List Event := List.replicate 4 (.send now true) ++ [.wave true]

theorem flows_sendWave : Along step Timely start (sendWave 0 ++ [.confirm 1 40, .confirm 1 80]) ∧
    Along step Flows start (sendWave 0 ++ [.confirm 1 40, .confirm 1 80]) := by
  have htimely : Along step Timely start (sendWave 0 ++ [.confirm 1 40, .confirm 1 80]) := by
    simp [sendWave, List.replicate, Along, Timely, step, send, wave, waveConfirm, start,
      maxInFlight]
  exact ⟨htimely, flows_of_timely _ htimely⟩

/-- **Counterexample.** Five waves are unconfirmed when the counter starts anew. The confirm of the
first comes after the sixth was sent, and the counter is zero with the sixth unconfirmed. -/
theorem not_flows_after_reset : ¬Along step Flows start ((List.replicate 5 (sendWave 0)).flatten ++
    .send 2000 true :: sendWave 2000 ++ [.confirm 1 2010, .clamp]) := by
  rw [along_append]
  rintro ⟨-, -, hflows, -⟩
  exact absurd hflows.counter (by decide)

end Linrdp.Audio.WaveFlow
