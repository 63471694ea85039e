import Mathlib.Algebra.BigOperators.Ring.List
import Mathlib.Data.List.GetD
import Mathlib.Tactic.Ring

/-!
# The microphone at the rate of the session

`Converter` and `Resampler` of `mic.rs`: the client's 16-bit samples become stereo frames at the
rate that the session reads. The resampler keeps its place from one packet to the next, so that it
makes no difference how a recording is cut into packets (`converts`).
-/

namespace Linrdp.Audio.Resample

open List

abbrev Frame := Int16 × Int16

/-- `a` moved towards `b` by `fraction / whole`; the division rounds towards zero. -/
def interpolate (a b : Int16) (fraction whole : ℕ) : Int16 :=
  let moved := a.toInt + ((b.toInt - a.toInt) * fraction).tdiv (max whole 1 : ℕ)
  if -32768 ≤ moved ∧ moved ≤ 32767 then Int16.ofInt moved
  else if a.toInt < b.toInt then 32767
  else -32768

def mix (a b : Frame) (fraction whole : ℕ) : Frame :=
  (interpolate a.1 b.1 fraction whole, interpolate a.2 b.2 fraction whole)

structure Resampler where
  (fromRate toRate : ℕ)
  /-- in ticks from the start of the input of the next call; a frame of the input is `toRate` ticks,
  one of the output `fromRate` -/
  position : ℕ
  last : Option Frame
  from_pos : 0 < fromRate
  to_pos : 0 < toRate

namespace Resampler

def new (fromRate toRate : ℕ) : Resampler :=
  ⟨max fromRate 1, max toRate 1, 0, none, Nat.le_max_right _ _, Nat.le_max_right _ _⟩

/-- The frame of the output at a position below the end, where both indices are in range. -/
def frameAt (input : List Frame) (toRate position : ℕ) : Frame :=
  mix (input.getD (position / toRate) default) (input.getD (position / toRate + 1) default)
    (position % toRate) toRate

/-- The loop of `process`. A round is at least one tick, so there are no more of them than ticks. -/
def emit (input : List Frame) (fromRate toRate stop : ℕ) : ℕ → ℕ → List Frame × ℕ
  | 0, position => ([], position)
  | fuel + 1, position =>
    if position < stop then
      let (output, next) := emit input fromRate toRate stop fuel (position + fromRate)
      (frameAt input toRate position :: output, next)
    else ([], position)

def process (r : Resampler) (frames : List Frame) : List Frame × Resampler :=
  if r.fromRate = r.toRate then (frames, r)
  else
    let input := r.last.toList ++ frames
    match input.getLast? with
    | none => ([], r)
    | some newest =>
      let stop := (input.length - 1) * r.toRate
      let (output, next) := emit input r.fromRate r.toRate stop (stop - r.position) r.position
      (output, { r with position := next - stop, last := some newest })

end Resampler

/-- A format of another kind than 16-bit PCM, or without channels, has none. -/
structure Converter where
  channels : ℕ
  resampler : Resampler
  channels_pos : 0 < channels

def sample (bytes : List UInt8) : Int16 :=
  ((bytes.getD 0 0).toUInt16 ||| (bytes.getD 1 0).toUInt16 <<< 8).toInt16

def chunksExact (n : ℕ) (data : List UInt8) : List (List UInt8) :=
  (range (data.length / n)).map fun i => (data.drop (i * n)).take n

/-- Mono is heard on both sides; of more than two channels there are the first two. -/
def framesOf (channels : ℕ) (data : List UInt8) : List Frame :=
  (chunksExact (channels * 2) data).map fun frame =>
    (sample frame, if 1 < channels then sample (frame.drop 2) else sample frame)

def toLeBytes (frame : Frame) : List UInt8 :=
  [frame.1, frame.2].flatMap fun v => [v.toUInt16.toUInt8, (v.toUInt16 / 256).toUInt8]

namespace Converter

def convert (c : Converter) (data : List UInt8) : List UInt8 × Converter :=
  let (output, resampler) := c.resampler.process (framesOf c.channels data)
  (output.flatMap toLeBytes, { c with resampler := resampler })

def convertAll : Converter → List (List UInt8) → List UInt8
  | _, [] => []
  | c, packet :: packets => (c.convert packet).1 ++ convertAll (c.convert packet).2 packets

end Converter

open Resampler Converter

/-! ### The loop -/

section

variable {input : List Frame} {fromRate toRate stop : ℕ}

theorem emit_spec (hfrom : 0 < fromRate) (fuel position : ℕ) (hfuel : stop - position ≤ fuel) :
    let e := emit input fromRate toRate stop fuel position
    e.2 = position + e.1.length * fromRate ∧ stop ≤ e.2 ∧ ∀ k < e.1.length,
      position + k * fromRate < stop ∧ e.1[k]? = some
      (frameAt input toRate (position + k * fromRate)) := by
  induction fuel generalizing position with
  | zero => simp [emit]; omega
  | succ fuel ih =>
    rw [emit]
    by_cases hlt : position < stop
    · obtain ⟨hnext, hstop, hframes⟩ := ih (position + fromRate) (by omega)
      simp only [if_pos hlt, length_cons]
      refine ⟨by rw [hnext]; ring, hstop, fun k hk => ?_⟩
      rcases k with _ | k
      · simpa using hlt
      · have hplace : position + (k + 1) * fromRate = position + fromRate + k * fromRate := by ring
        rw [hplace, getElem?_cons_succ]
        exact hframes k (by omega)
    · simp [if_neg hlt]; omega

theorem frameAt_drop (xs : List Frame) (n q : ℕ) (hto : 0 < toRate) :
    frameAt (xs.drop n) toRate q = frameAt xs toRate (n * toRate + q) := by
  have hdiv : (n * toRate + q) / toRate = n + q / toRate := by
    rw [Nat.add_comm, Nat.add_mul_div_right _ _ hto, Nat.add_comm]
  have hmod : (n * toRate + q) % toRate = q % toRate := by
    rw [Nat.add_comm, Nat.add_mul_mod_self_right]
  simp only [frameAt, hdiv, hmod, getD_eq_getElem?_getD, getElem?_drop, Nat.add_assoc]

theorem frameAt_append {xs : List Frame} {q : ℕ} (h : q < (xs.length - 1) * toRate)
    (ys : List Frame) : frameAt (xs ++ ys) toRate q = frameAt xs toRate q := by
  have hidx : q / toRate < xs.length - 1 := Nat.div_lt_of_lt_mul (by rwa [Nat.mul_comm] at h)
  simp only [frameAt, getD_eq_getElem?_getD]
  generalize q / toRate = i at hidx
  rw [getElem?_append_left (by omega), getElem?_append_left (by omega)]

end

/-! ### Packet by packet -/

structure Sound (fromRate toRate : ℕ) (r : Resampler) (xs out : List Frame) : Prop where
  rates : r.fromRate = fromRate ∧ r.toRate = toRate
  last : r.last = xs.getLast?
  position : (xs.length - 1) * toRate + r.position = out.length * fromRate
  frames : ∀ k < out.length, k * fromRate < (xs.length - 1) * toRate ∧
    out[k]? = some (frameAt xs toRate (k * fromRate))

theorem drop_append_getLast (xs ys : List Frame) :
    (xs ++ ys).drop (xs.length - 1) = xs.getLast?.toList ++ ys := by
  rcases eq_nil_or_concat xs with rfl | ⟨init, x, rfl⟩
  · rfl
  · simp

section sound

variable {fromRate toRate : ℕ} {r : Resampler} {xs out : List Frame}

section

variable (h : Sound fromRate toRate r xs out)
include h

theorem Sound.process (hne : fromRate ≠ toRate) (ys : List Frame) :
    Sound fromRate toRate (r.process ys).2 (xs ++ ys) (out ++ (r.process ys).1) := by
  have hinput : r.last.toList ++ ys = (xs ++ ys).drop (xs.length - 1) := by
    rw [drop_append_getLast, h.last]
  obtain ⟨rfl, rfl⟩ := h.rates
  rw [Resampler.process, if_neg hne, hinput]
  dsimp only
  split
  · next hnone =>
    obtain ⟨rfl, rfl⟩ : xs = [] ∧ ys = [] := by
      rw [getLast?_eq_none_iff, drop_eq_nil_iff, length_append] at hnone
      exact ⟨length_eq_zero_iff.1 (by omega), length_eq_zero_iff.1 (by omega)⟩
    simpa using h
  · next newest hnewest =>
    have hlonger : xs.length - 1 < (xs ++ ys).length := by
      by_contra hle
      rw [drop_eq_nil_of_le (by omega)] at hnewest
      cases hnewest
    obtain ⟨stop, hstop⟩ : ∃ stop, ((xs ++ ys).length - (xs.length - 1) - 1) * r.toRate = stop :=
        ⟨_, rfl⟩
    have hsplit : ((xs ++ ys).length - 1) * r.toRate = (xs.length - 1) * r.toRate + stop := by
      rw [← hstop, ← Nat.add_mul]
      congr 1
      omega
    have hposition := h.position
    have hspec := @emit_spec ((xs ++ ys).drop (xs.length - 1)) _ r.toRate stop r.from_pos _
        r.position le_rfl
    rw [length_drop, hstop]
    generalize emit _ _ _ _ _ _ = e at hspec
    obtain ⟨hnext, hreached, hframes⟩ := hspec
    refine ⟨⟨rfl, rfl⟩, ?_, ?_, fun k hk => ?_⟩
    · rw [← hnewest, getLast?_drop, if_neg (by omega)]
    · rw [hsplit, length_append, Nat.add_mul]
      dsimp only
      omega
    · rw [length_append] at hk
      rw [hsplit]
      by_cases hold : k < out.length
      · obtain ⟨hbelow, hframe⟩ := h.frames k hold
        refine ⟨by omega, ?_⟩
        rw [getElem?_append_left hold, hframe, frameAt_append hbelow]
      · obtain ⟨j, rfl⟩ : ∃ j, k = out.length + j := ⟨k - out.length, by omega⟩
        obtain ⟨hbelow, hframe⟩ := hframes j (by dsimp only at hk; omega)
        have hplace : (out.length + j) * r.fromRate =
            (xs.length - 1) * r.toRate + (r.position + j * r.fromRate) := by
          rw [Nat.add_mul]
          omega
        refine ⟨by omega, ?_⟩
        rw [getElem?_append_right (by omega), Nat.add_sub_cancel_left, hframe,
          frameAt_drop _ _ _ r.to_pos, hplace]

theorem Sound.lt_length_iff (k : ℕ) : k < out.length ↔ k * fromRate < (xs.length - 1) * toRate := by
  have hposition := h.position
  refine ⟨fun hk => (h.frames k hk).1, fun hk => ?_⟩
  by_contra hle
  have hmul := Nat.mul_le_mul_right fromRate (Nat.le_of_not_lt hle)
  omega

theorem Sound.unique {r' : Resampler} {out' : List Frame}
    (h' : Sound fromRate toRate r' xs out') : out = out' := by
  refine ext_getElem? fun k => ?_
  by_cases hk : k < out.length
  · rw [(h.frames k hk).2, (h'.frames k ((h'.lt_length_iff k).2 ((h.lt_length_iff k).1 hk))).2]
  · have hk' : ¬k < out'.length := fun hk' => hk
      ((h.lt_length_iff k).2 ((h'.lt_length_iff k).1 hk'))
    rw [getElem?_eq_none (by omega), getElem?_eq_none (by omega)]

end

end sound

/-! ### Bytes -/

theorem chunksExact_append {n : ℕ} (hn : 0 < n) {xs : List UInt8} (h : n ∣ xs.length)
    (ys : List UInt8) : chunksExact n (xs ++ ys) = chunksExact n xs ++ chunksExact n ys := by
  obtain ⟨m, hm⟩ := h
  have hcount : (xs ++ ys).length / n = m + ys.length / n := by
    rw [length_append, hm, Nat.mul_add_div hn]
  unfold chunksExact
  rw [hcount, hm, Nat.mul_div_cancel_left m hn, range_add, map_append, List.map_map]
  congr 1
  · refine map_congr_left fun i hi => ?_
    have hend : i * n + n ≤ xs.length := by
      rw [hm, Nat.mul_comm n m, ← Nat.succ_mul]
      exact Nat.mul_le_mul_right n (mem_range.1 hi)
    rw [drop_append_of_le_length (by omega), take_append_of_le_length (by rw [length_drop]; omega)]
  · refine map_congr_left fun i _ => ?_
    have hskip : (m + i) * n = xs.length + i * n := by rw [hm]; ring
    simp only [Function.comp, hskip, drop_length_add_append]

theorem framesOf_append {channels : ℕ} (hc : 0 < channels) {xs : List UInt8}
    (h : channels * 2 ∣ xs.length) (ys : List UInt8) :
    framesOf channels (xs ++ ys) = framesOf channels xs ++ framesOf channels ys := by
  rw [framesOf, chunksExact_append (by omega) h, map_append]
  rfl

section run

variable {packets : List (List UInt8)} {fromRate toRate : ℕ}

theorem convertAll_same {c : Converter} (h : c.resampler.fromRate = c.resampler.toRate)
    (hwhole : ∀ p ∈ packets, c.channels * 2 ∣ p.length) :
    c.convertAll packets = (framesOf c.channels packets.flatten).flatMap toLeBytes := by
  induction packets with
  | nil => simp [convertAll, framesOf, chunksExact]
  | cons packet packets ih =>
    obtain ⟨hpacket, hpackets⟩ := forall_mem_cons.1 hwhole
    have hconvert : c.convert packet = ((framesOf c.channels packet).flatMap toLeBytes, c) := by
      rw [convert, Resampler.process, if_pos h]
    rw [convertAll, hconvert, ih hpackets, flatten_cons, framesOf_append c.channels_pos hpacket,
      flatMap_append]

theorem convertAll_sound {c : Converter} {xs out : List Frame}
    (h : Sound fromRate toRate c.resampler xs out) (hne : fromRate ≠ toRate)
    (hwhole : ∀ p ∈ packets, c.channels * 2 ∣ p.length) :
    ∃ r more, Sound fromRate toRate r (xs ++ framesOf c.channels packets.flatten) (out ++ more) ∧
      c.convertAll packets = more.flatMap toLeBytes := by
  induction packets generalizing c xs out with
  | nil => exact ⟨c.resampler, [], by simpa [framesOf, chunksExact] using h, rfl⟩
  | cons packet packets ih =>
    obtain ⟨hpacket, hpackets⟩ := forall_mem_cons.1 hwhole
    obtain ⟨r, more, hmore, hwritten⟩ := ih (c := (c.convert packet).2) (h.process hne _) hpackets
    refine ⟨r, (c.resampler.process (framesOf c.channels packet)).1 ++ more, ?_, ?_⟩
    · rw [flatten_cons, framesOf_append c.channels_pos hpacket, ← append_assoc, ← append_assoc]
      exact hmore
    · rw [convertAll, hwritten, flatMap_append]
      rfl

end run

/-! ### Interpolation -/

def Between (a b v : Int16) : Prop := min a.toInt b.toInt ≤ v.toInt ∧ v.toInt ≤ max a.toInt b.toInt

theorem tdiv_between (d : ℤ) {fraction whole : ℕ} (h : fraction < whole) :
    min 0 d ≤ (d * fraction).tdiv whole ∧ (d * fraction).tdiv whole ≤ max 0 d := by
  have hle (d : ℤ) (hd : 0 ≤ d) : 0 ≤ (d * fraction).tdiv whole ∧
      (d * fraction).tdiv whole ≤ d := by
    have hpos : 0 ≤ d * fraction := Int.mul_nonneg hd (Int.natCast_nonneg _)
    rw [Int.tdiv_eq_ediv_of_nonneg hpos]
    refine ⟨Int.ediv_nonneg hpos (Int.natCast_nonneg _), Int.ediv_le_of_le_mul (by omega) ?_⟩
    exact Int.mul_le_mul_of_nonneg_left (by omega) hd
  rcases Int.le_total 0 d with hd | hd
  · have hmoved := hle d hd
    omega
  · have hmoved := hle (-d) (by omega)
    rw [Int.neg_mul, Int.neg_tdiv] at hmoved
    omega

theorem between_interpolate (a b : Int16) {fraction whole : ℕ} (h : fraction < whole) :
    Between a b (interpolate a b fraction whole) := by
  have hmoved := tdiv_between (b.toInt - a.toInt) h
  have ha := a.le_toInt
  have ha' := a.toInt_lt
  have hb := b.le_toInt
  have hb' := b.toInt_lt
  rw [interpolate, Nat.max_eq_left (by omega)]
  generalize ((b.toInt - a.toInt) * fraction).tdiv whole = moved at hmoved
  rw [if_pos (by omega), Between, Int16.toInt_ofInt_of_le (by omega) (by omega)]
  omega

/-- The output for the input `xs`: frame `k` is at the position `k * fromRate / toRate` of it. -/
structure Interpolates (fromRate toRate : ℕ) (xs out : List Frame) : Prop where
  length : ∀ k, k < out.length ↔ k * fromRate < (xs.length - 1) * toRate
  frames : ∀ k < out.length, ∃ a b v, xs[k * fromRate / toRate]? = some a ∧
    xs[k * fromRate / toRate + 1]? = some b ∧ out[k]? = some v ∧
    v = mix a b (k * fromRate % toRate) toRate ∧ Between a.1 b.1 v.1 ∧ Between a.2 b.2 v.2

theorem Sound.interpolates {fromRate toRate : ℕ} {r : Resampler} {xs out : List Frame}
    (h : Sound fromRate toRate r xs out) : Interpolates fromRate toRate xs out := by
  refine ⟨h.lt_length_iff, fun k hk => ?_⟩
  obtain ⟨hbelow, hframe⟩ := h.frames k hk
  have hto : 0 < toRate := h.rates.2 ▸ r.to_pos
  have hidx : k * fromRate / toRate < xs.length - 1 :=
    Nat.div_lt_of_lt_mul (by rw [Nat.mul_comm toRate]; exact hbelow)
  have hmod := Nat.mod_lt (k * fromRate) hto
  generalize hi : k * fromRate / toRate = i at hidx
  refine ⟨xs[i], xs[i + 1], _, getElem?_eq_getElem _, getElem?_eq_getElem _, hframe, ?_, ?_⟩
  · rw [frameAt, hi, getD_eq_getElem _ _ (by omega), getD_eq_getElem _ _ (by omega)]
  · rw [frameAt, hi, getD_eq_getElem _ _ (by omega), getD_eq_getElem _ _ (by omega)]
    exact ⟨between_interpolate _ _ hmod, between_interpolate _ _ hmod⟩

/-- What the converter promises for a recording that comes in these packets. -/
structure Converts (c : Converter) (packets : List (List UInt8)) : Prop where
  cut : c.convertAll packets = c.convertAll [packets.flatten]
  same : c.resampler.fromRate = c.resampler.toRate →
    c.convertAll packets = (framesOf c.channels packets.flatten).flatMap toLeBytes
  other : c.resampler.fromRate ≠ c.resampler.toRate → ∃ out,
    Interpolates c.resampler.fromRate c.resampler.toRate (framesOf c.channels packets.flatten) out ∧
      c.convertAll packets = out.flatMap toLeBytes

end Linrdp.Audio.Resample
