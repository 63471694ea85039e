import Mathlib.Algebra.Order.BigOperators.Group.List
import Linrdp.Lib.Bytes
import Linrdp.Lib.RunLength
import Linrdp.Capture.TileDamage

/-!
# The residual layer of ClearCodec

A bitmap as runs of one colour (`bgra_to_run_segments` of `clearcodec/mod.rs`) and the runs as bytes
(`residual.rs`): three bytes of colour, and a length in one, three or seven bytes. The decoder
writes the runs into a buffer of the bitmap's size. `decode_encode` and `fill_segments` are the two
halves of the round trip; alpha is lost on the way and comes back as 255 (`solid`).
-/

namespace Linrdp.Graphics.ClearResidual

open List Lib.Bytes Lib.RunLength
open Capture.TileDamage

structure Bgr where
  (blue green red : UInt8)
deriving DecidableEq

structure RgbRunSegment where
  color : Bgr
  runLength : ℕ

open RgbRunSegment

/-! ### Runs of a bitmap -/

def colors : ℕ → Bytes → List Bgr
  | count + 1, blue :: green :: red :: _ :: rest => ⟨blue, green, red⟩ :: colors count rest
  | _, _ => []

def bgraToRunSegments (bgra : Bytes) (pixelCount : ℕ) : List RgbRunSegment :=
  (runs (colors pixelCount bgra)).map fun (color, runLength) => ⟨color, runLength⟩

/-! ### Runs as bytes -/

def encodeSegment (seg : RgbRunSegment) : Bytes :=
  seg.color.blue :: seg.color.green :: seg.color.red ::
    if seg.runLength < 0xFF then [UInt8.ofNat seg.runLength]
    else if seg.runLength < 0xFFFF then 0xFF :: toLe 2 seg.runLength
    else 0xFF :: (toLe 2 0xFFFF ++ toLe 4 seg.runLength)

def encodeResidualLayer (segments : List RgbRunSegment) : Bytes := segments.flatMap encodeSegment

def decodeResidualLayer : Bytes → Except String (List RgbRunSegment)
  | blue :: green :: red :: factor1 :: src =>
    if factor1.toNat < 0xFF then
      (decodeResidualLayer src).map fun segs => ⟨⟨blue, green, red⟩, factor1.toNat⟩ :: segs
    else
      match src with
      | lo :: hi :: src =>
        if ofLe [lo, hi] < 0xFFFF then
          (decodeResidualLayer src).map fun segs => ⟨⟨blue, green, red⟩, ofLe [lo, hi]⟩ :: segs
        else
          match src with
          | b0 :: b1 :: b2 :: b3 :: src =>
            (decodeResidualLayer src).map fun segs =>
              ⟨⟨blue, green, red⟩, ofLe [b0, b1, b2, b3]⟩ :: segs
          | _ => .error "RgbRunSegment: not enough bytes"
      | _ => .error "RgbRunSegment: not enough bytes"
  | _ => .ok []

/-! ### Runs into a buffer -/

def Bgr.pixel (c : Bgr) : Bytes := [c.blue, c.green, c.red, 0xFF]

/-- The loop over the segments of `decode_composite`; `output` is the buffer from `offset` on. A run
stops at its end. -/
def fill : List RgbRunSegment → Bytes → Bytes
  | [], output => output
  | seg :: segments, output =>
    let pixelsRemaining := output.length / 4
    let effectiveRun := min (min pixelsRemaining (2 ^ 32 - 1)) seg.runLength
    (List.replicate effectiveRun seg.color.pixel).flatten ++
      fill segments (output.drop (effectiveRun * 4))

def solid : Bytes → Bytes
  | blue :: green :: red :: _ :: rest => blue :: green :: red :: 0xFF :: solid rest
  | _ => []

/-! ### The round trip -/

variable {seg : RgbRunSegment}

theorem decode_encodeSegment (h : seg.runLength < 2 ^ 32) (rest : Bytes) :
    decodeResidualLayer (encodeSegment seg ++ rest) =
      (decodeResidualLayer rest).map fun segs => seg :: segs := by
  obtain ⟨⟨blue, green, red⟩, run⟩ := seg
  rw [encodeSegment]
  dsimp only at h ⊢
  split_ifs with hsmall hmedium
  · have hrun : (UInt8.ofNat run).toNat = run := by
      rw [UInt8.toNat_ofNat']
      exact Nat.mod_eq_of_lt (by omega)
    simp only [cons_append, nil_append]
    rw [decodeResidualLayer.eq_def]
    dsimp only
    rw [hrun, if_pos hsmall]
  · have hrun : ofLe (toLe 2 run) = run := ofLe_toLe (by omega)
    simp only [toLe, cons_append, nil_append] at hrun ⊢
    rw [decodeResidualLayer.eq_def]
    dsimp only
    rw [if_neg (by decide), hrun, if_pos hmedium]
  · have hrun : ofLe (toLe 4 run) = run := ofLe_toLe (by omega)
    simp only [toLe, cons_append, nil_append] at hrun ⊢
    rw [decodeResidualLayer.eq_def]
    dsimp only
    rw [if_neg (by decide), if_neg (by decide), hrun]

variable {segments : List RgbRunSegment}

theorem decode_encode (h : ∀ seg ∈ segments, seg.runLength < 2 ^ 32) :
    decodeResidualLayer (encodeResidualLayer segments) = .ok segments := by
  induction segments with
  | nil => rfl
  | cons seg segments ih =>
    have hrest := ih fun s hs => h s (mem_cons_of_mem _ hs)
    rw [encodeResidualLayer] at hrest
    rw [encodeResidualLayer, flatMap_cons, decode_encodeSegment (h seg mem_cons_self), hrest]
    rfl

variable {count : ℕ} {bgra : Bytes}

theorem exists_pixel (h : bgra.length = (count + 1) * 4) :
    ∃ blue green red alpha rest, bgra = blue :: green :: red :: alpha :: rest ∧
      rest.length = count * 4 := by
  match bgra, h with
  | [], h => simp at h
  | [_], h | [_, _], h | [_, _, _], h => simp only [length_cons, length_nil] at h; omega
  | blue :: green :: red :: alpha :: rest, h =>
    refine ⟨blue, green, red, alpha, rest, rfl, ?_⟩
    simp only [length_cons] at h
    omega

section

variable (h : bgra.length = count * 4)
include h

theorem length_colors : (colors count bgra).length = count := by
  induction count generalizing bgra with
  | zero => simp [colors]
  | succ count ih =>
    obtain ⟨blue, green, red, alpha, rest, rfl, hrest⟩ := exists_pixel h
    rw [colors, length_cons, ih hrest]

theorem solid_eq : solid bgra = (colors count bgra).flatMap Bgr.pixel := by
  induction count generalizing bgra with
  | zero =>
    obtain rfl : bgra = [] := length_eq_zero_iff.1 (by omega)
    rfl
  | succ count ih =>
    obtain ⟨blue, green, red, alpha, rest, rfl, hrest⟩ := exists_pixel h
    rw [colors, solid, ih hrest]
    rfl

theorem length_solid : (solid bgra).length = count * 4 := by
  rw [solid_eq h]
  simp [Bgr.pixel, length_colors h]

end

theorem fill_eq {output : Bytes} (h : output.length = (segments.map runLength).sum * 4)
    (hsmall : (segments.map runLength).sum < 2 ^ 32) :
    fill segments output =
      segments.flatMap fun seg => (List.replicate seg.runLength seg.color.pixel).flatten := by
  induction segments generalizing output with
  | nil =>
    rw [map_nil, sum_nil, Nat.zero_mul, length_eq_zero_iff] at h
    rw [fill, h]
    rfl
  | cons seg segments ih =>
    rw [map_cons, sum_cons] at h hsmall
    have hrun : min (min (output.length / 4) (2 ^ 32 - 1)) seg.runLength = seg.runLength := by omega
    have hrest : (output.drop (seg.runLength * 4)).length =
        (segments.map runLength).sum * 4 := by
      rw [length_drop]
      omega
    rw [fill, hrun, ih hrest (by omega), flatMap_cons]

theorem flatMap_expand {α β : Type*} (f : α → List β) (rs : List (α × ℕ)) :
    (expand rs).flatMap f = rs.flatMap fun r => (List.replicate r.2 (f r.1)).flatten := by
  rw [expand, flatMap_assoc]
  congr 1
  funext r
  rw [flatMap_def, map_replicate]

section

variable (h : bgra.length = count * 4)
include h

theorem sum_runLength : ((bgraToRunSegments bgra count).map runLength).sum = count := by
  have hsum := sum_runs (colors count bgra)
  rw [length_colors h] at hsum
  rw [bgraToRunSegments, map_map]
  exact hsum

/-- **What the decoder writes is the bitmap.** -/
theorem fill_segments (hsmall : count < 2 ^ 32)
    {output : Bytes} (houtput : output.length = count * 4) :
    fill (bgraToRunSegments bgra count) output = solid bgra := by
  have hsum := sum_runLength h
  rw [fill_eq (by rw [hsum, houtput]) (by rw [hsum]; exact hsmall), bgraToRunSegments, flatMap_map,
    solid_eq h]
  calc _ = (runs (colors count bgra)).flatMap fun r => (replicate r.2 r.1.pixel).flatten := rfl
    _ = (colors count bgra).flatMap Bgr.pixel := by rw [← flatMap_expand, expand_runs]

theorem runLength_le (hseg : seg ∈ bgraToRunSegments bgra count) : seg.runLength ≤ count := by
  rw [← sum_runLength h]
  exact single_le_sum (fun _ _ => Nat.zero_le _) _ (mem_map_of_mem hseg)

end

theorem length_encodeSegment (h : 0 < seg.runLength) :
    (encodeSegment seg).length ≤ seg.runLength * 4 := by
  rw [encodeSegment]
  split_ifs with hsmall hmedium <;>
    simp only [length_cons, length_nil, length_append, length_toLe] <;> omega

theorem length_encodeResidualLayer (h : ∀ seg ∈ segments, 0 < seg.runLength) :
    (encodeResidualLayer segments).length ≤ (segments.map runLength).sum * 4 := by
  induction segments with
  | nil => exact Nat.zero_le _
  | cons seg segments ih =>
    have hfirst := length_encodeSegment (h seg mem_cons_self)
    have hrest := ih fun s hs => h s (mem_cons_of_mem _ hs)
    rw [encodeResidualLayer] at hrest
    rw [encodeResidualLayer, flatMap_cons, length_append, map_cons, sum_cons]
    omega

theorem length_residual (h : bgra.length = count * 4) :
    (encodeResidualLayer (bgraToRunSegments bgra count)).length ≤ count * 4 := by
  have hpos : ∀ seg ∈ bgraToRunSegments bgra count, 0 < seg.runLength :=
    forall_mem_map.2 fun _ hr => runs_pos hr
  have hlength := length_encodeResidualLayer hpos
  rwa [sum_runLength h] at hlength

end Linrdp.Graphics.ClearResidual
