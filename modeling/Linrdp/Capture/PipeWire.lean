import Linrdp.Capture.Grabber

/-!
# The PipeWire frame source

The stream callbacks of `wayland/pipewire.rs` write into one shared slot: a format sets its size, a
buffer its bytes. A session's `PwFrameSource` reads the slot on every poll and compares it with the
frame it handed out last. `PwSession` is the slot together with the source of the session that reads
it; a new client gets a fresh source on the same slot.
-/

namespace Linrdp.Capture.PipeWire

open Lib.Rects Capture.TileDamage Capture.Grabber

structure FrameSlot where
  data : Bytes
  (width height seq : ℕ)
  geometryChangedAt : Option ℕ

structure PwShared where
  frame : FrameSlot
  (streamReady failed : Bool)
  frameSeq : ℕ

def PwShared.new : PwShared := ⟨⟨[], 0, 0, 0, none⟩, false, false, 0⟩

structure Buffer where
  (offset size : ℕ)
  stride : ℤ
  maxsize : ℕ
  mapped : ℕ → UInt8

structure PwSession where
  shared : PwShared
  prevFrame : Option Frame
  lastSeq : ℕ

variable (sh : PwShared)

def onParamChanged (width height now : ℕ) : PwShared :=
  let changed := sh.frame.width ≠ width ∨ sh.frame.height ≠ height
  { sh with
    frame := { sh.frame with
      width := width
      height := height
      geometryChangedAt := if changed then some now else sh.frame.geometryChangedAt }
    streamReady := true }

variable (b : Buffer)

def Buffer.valid : ℕ := min b.size (b.maxsize - b.offset)

def Buffer.rowStride (tight height : ℕ) : ℕ :=
  if tight ≤ b.stride.toNat then b.stride.toNat else b.valid / height

def Buffer.rows (tight height stride : ℕ) : Bytes :=
  (List.range height).flatMap fun row =>
    (List.range tight).map fun i => b.mapped (b.offset + row * stride + i)

def copyFrame : PwShared :=
  let tight := sh.frame.width * 4
  let height := sh.frame.height
  let stride := b.rowStride tight height
  if sh.frame.width = 0 ∨ height = 0 then sh
  else if b.valid = 0 ∨ b.valid < tight * height then sh
  else if stride < tight ∨ b.valid < stride * (height - 1) + tight then sh
  else
    { sh with
      frame := { sh.frame with data := b.rows tight height stride, seq := sh.frameSeq + 1 }
      frameSeq := sh.frameSeq + 1 }

def PwSession.frame? (s : PwSession) (debtDue : Bool) : Option Frame :=
  let slot := s.shared.frame
  if !s.shared.streamReady || s.shared.failed then none
  else if slot.width = 0 ∨ slot.height = 0 then none
  else if slot.seq = 0 ∨ slot.data.length ≠ slot.width * slot.height * 4 then none
  else if slot.seq = s.lastSeq && !debtDue then none
  else if 65535 < slot.width ∨ 65535 < slot.height then none
  else some ⟨slot.width, slot.height, slot.data⟩

def pollAndCursor (s : PwSession) (debtDue : Bool) : Option Grab × PwSession :=
  match s.frame? debtDue with
  | none => (none, s)
  | some f =>
    let s := { s with lastSeq := s.shared.frame.seq }
    match computeTileDamage (s.prevFrame.map Frame.data) f.data f.width f.height with
    | none => (none, s)
    | some (damage, changed, total) =>
      (some ⟨f, damage, changed, total⟩,
        if damage.isSome then { s with prevFrame := some f } else s)

def updatesSource : PwSession := ⟨sh, none, 0⟩

theorem PwSession.frame?_some {s : PwSession} {debtDue : Bool} {f : Frame}
    (h : s.frame? debtDue = some f) :
    f = ⟨s.shared.frame.width, s.shared.frame.height, s.shared.frame.data⟩ ∧
      f.data.length = f.width * 4 * f.height := by
  rw [PwSession.frame?] at h
  split_ifs at h with h1 h2 h3 h4 h5
  have hf := (Option.some.inj h).symm
  refine ⟨hf, ?_⟩
  rw [hf]
  dsimp only
  rw [not_or, not_not] at h3
  rw [h3.2, Nat.mul_right_comm]

@[simp] theorem copyFrame_width : (copyFrame sh b).frame.width = sh.frame.width := by
  rw [copyFrame]
  split_ifs <;> rfl

@[simp] theorem copyFrame_height : (copyFrame sh b).frame.height = sh.frame.height := by
  rw [copyFrame]
  split_ifs <;> rfl

end Linrdp.Capture.PipeWire
