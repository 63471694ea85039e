import Linrdp.Display.Frame

/-!
# What one frame sends

Whatever way a frame takes through `egfx_frame`, it waits for at most one encode task and then makes
at most one send. `FrameSends P l l'` says which, and what becomes of the loop's ClearCodec state;
the surface, the generation and the latch stay (`Kept`). `processFrame_sends` is the inversion of a
whole frame.
-/

namespace Linrdp.Display.Sends

open Lib.Rects Display.Rects Display.Frame
open Graphics.ClearCodec Capture.Grabber

structure SameLoop (u u' : EgfxUpdates) : Prop where
  surface : u'.surface = u.surface
  generation : u'.generation = u.generation
  latched : u'.egfxLatched = u.egfxLatched

structure Kept (u u' : EgfxUpdates) : Prop extends SameLoop u u' where
  clearSeq : u'.clearSeq = u.clearSeq
  glyphs : ∀ log, Mirrors (takeEncoders u).clear log → Mirrors (takeEncoders u').clear log

theorem SameLoop.trans {u v w : EgfxUpdates} (h : SameLoop u v) (h' : SameLoop v w) :
    SameLoop u w :=
  ⟨h'.surface.trans h.surface, h'.generation.trans h.generation, h'.latched.trans h.latched⟩

variable (u : EgfxUpdates)

theorem Kept.refl : Kept u u := ⟨⟨rfl, rfl, rfl⟩, rfl, fun _ => id⟩

theorem Kept.trans {u v w : EgfxUpdates} (h : Kept u v) (h' : Kept v w) : Kept u w :=
  ⟨h.toSameLoop.trans h'.toSameLoop, h'.clearSeq.trans h.clearSeq,
    fun log hm => h'.glyphs log (h.glyphs log hm)⟩

theorem kept_forget : Kept u { u with encoders := none } :=
  ⟨⟨rfl, rfl, rfl⟩, rfl, fun log _ => mirrors_new log⟩

theorem kept_oweRegion (r : Rect) : Kept u (oweRegion u r) := by
  unfold oweRegion
  split_ifs <;> exact ⟨⟨rfl, rfl, rfl⟩, rfl, fun _ => id⟩

theorem kept_leaveMotion (now : ℕ) : Kept u (leaveMotion u now) := by
  simp only [leaveMotion]
  split_ifs <;> exact ⟨⟨rfl, rfl, rfl⟩, rfl, fun _ => id⟩

theorem kept_route (g : Grab) (now : ℕ) : Kept u (route u g now).2 := by
  unfold route
  split_ifs
  · exact .refl u
  · have hleave := kept_leaveMotion u now
    dsimp only
    split
    · exact hleave
    · split_ifs
      · exact hleave.trans (kept_oweRegion _ _)
      all_goals exact hleave

inductive FrameSends {σ : Type} (P : Pipeline σ) (l : Loop σ) : Loop σ → Prop
  | quiet {l' : Loop σ} (env : l'.env = l.env ∨ l'.env = P.await l.env)
      (trace : l'.trace = l.trace ∨ ∃ width height, l'.trace = l.trace ++ [.same width height])
      (kept : Kept l.u l'.u) : FrameSends P l l'
  | clear {l' : Loop σ} {u : EgfxUpdates} {surface : SurfaceState} {f : Frame} {r : Rect}
      (present : l.u.surface = some surface) (before : Kept l.u u)
      (sent : P.sendClearcodec (P.await l.env) surface.id r (clearMessage u f r).1 = (true, l'.env))
      (trace : l'.trace = l.trace ++ [.clear r (clearMessage u f r).1])
      (same : SameLoop u l'.u) (clearSeq : l'.u.clearSeq = (u.clearSeq + 1) % 256)
      (encoder : (takeEncoders l'.u).clear = commitGlyph (clearMessage u f r).2) :
      FrameSends P l l'
  | refused {l' : Loop σ} {surface : SurfaceState} {r : Rect} {m : ClearMessage}
      (sent : P.sendClearcodec (P.await l.env) surface.id r m = (false, l'.env))
      (trace : l'.trace = l.trace) (kept : Kept l.u l'.u) : FrameSends P l l'
  | h264 {l' : Loop σ} {surface : SurfaceState} {avc444v2 accepted : Bool}
      (sent : P.sendH264 (P.await l.env) avc444v2 surface.id = (accepted, l'.env))
      (trace : accepted = false ∧ l'.trace = l.trace ∨
        accepted = true ∧ ∃ width height, l'.trace = l.trace ++ [.h264 width height])
      (kept : Kept l.u l'.u) : FrameSends P l l'

def Ended {σ : Type} (P : Pipeline σ) (l : Loop σ) (r : Bool × Loop σ) : Prop :=
  FrameSends P l r.2 ∧
    (r.1 = false → r.2.env = P.await l.env ∧ r.2.trace = l.trace ∧ Kept l.u r.2.u)

section sends

variable {σ : Type} {P : Pipeline σ} {l l' : Loop σ} {f : Frame} {i : FrameInput}

theorem FrameSends.of_kept {u : EgfxUpdates} (h : FrameSends P { l with u := u } l')
    (hu : Kept l.u u) : FrameSends P l l' := by
  obtain ⟨env, trace, kept⟩ | ⟨present, before, sent, trace, same, clearSeq, encoder⟩ |
    ⟨sent, trace, kept⟩ | ⟨sent, trace, kept⟩ := h
  · exact .quiet env trace (hu.trans kept)
  · exact .clear (hu.surface ▸ present) (hu.trans before) sent trace same clearSeq encoder
  · exact .refused sent trace (hu.trans kept)
  · exact .h264 sent trace (hu.trans kept)

theorem Ended.of_kept {u : EgfxUpdates} {r : Bool × Loop σ} (h : Ended P { l with u := u } r)
    (hu : Kept l.u u) : Ended P l r := by
  refine ⟨h.1.of_kept hu, fun hstalled => ?_⟩
  obtain ⟨henv, htrace, hkept⟩ := h.2 hstalled
  exact ⟨henv, htrace, hu.trans hkept⟩

theorem FrameSends.record {v : EgfxUpdates} (h : FrameSends P l l') (hsame : SameLoop l'.u v)
    (hseq : v.clearSeq = l'.u.clearSeq) (henc : v.encoders = l'.u.encoders) :
    FrameSends P l { l' with u := v } := by
  have htake : takeEncoders v = takeEncoders l'.u := by rw [takeEncoders, takeEncoders, henc]
  have hkept : Kept l'.u v := ⟨hsame, hseq, fun log hm => htake ▸ hm⟩
  obtain ⟨env, trace, kept⟩ | ⟨present, before, sent, trace, same, clearSeq, encoder⟩ |
    ⟨sent, trace, kept⟩ | ⟨sent, trace, kept⟩ := h
  · exact .quiet env trace (kept.trans hkept)
  · exact .clear present before sent trace (same.trans hsame) (hseq.trans clearSeq)
      ((congrArg _ htake).trans encoder)
  · exact .refused sent trace (kept.trans hkept)
  · exact .h264 sent trace (kept.trans hkept)

theorem Ended.withinTime {r : Bool × Loop σ} (h : Ended P l r) : FrameSends P l (withinTime r) := by
  obtain ⟨ok, l'⟩ := r
  rcases ok with _ | _
  · obtain ⟨henv, htrace, hkept⟩ := h.2 rfl
    refine .quiet (.inr henv) (.inl htrace) (hkept.trans ?_)
    exact ⟨⟨rfl, rfl, rfl⟩, rfl, fun log _ => mirrors_new log⟩
  · exact h.1

theorem mirrors_rollback {u : EgfxUpdates} {r : Rect} {log : List ClearMessage}
    (h : Mirrors (takeEncoders u).clear log) :
    Mirrors (rollbackGlyph (clearMessage u f r).2) log := by
  intro index hsome
  rw [clearMessage, rollback_glyphCache] at hsome
  exact h index hsome

variable (P l f i) in
theorem sendClear_ended (r : Rect) :
    Ended P l ((sendClear P l f r i).1.isSome, (sendClear P l f r i).2) := by
  unfold sendClear
  rcases hsurface : l.u.surface with _ | surface
  · exact ⟨.quiet (.inl rfl) (.inl rfl) (.refl _), fun h => by simp at h⟩
  · rcases i.join with _ | _ | _
    · dsimp only
      split_ifs with hsent
      · exact ⟨.clear hsurface (.refl _) (Prod.ext hsent rfl) rfl ⟨rfl, rfl, rfl⟩ rfl rfl,
          fun h => by simp at h⟩
      · refine ⟨.refused (Prod.ext (by simpa using hsent) rfl) rfl ?_, fun h => by simp at h⟩
        have hroll : Kept l.u { l.u with
            encoders := some ⟨(takeEncoders l.u).h264, rollbackGlyph (clearMessage l.u f r).2⟩ } :=
          ⟨⟨rfl, rfl, rfl⟩, rfl, fun log hm => mirrors_rollback hm⟩
        exact hroll.trans (kept_oweRegion _ r)
    · exact ⟨.quiet (.inr rfl) (.inl rfl) (kept_forget _), fun h => by simp at h⟩
    · exact ⟨.quiet (.inr rfl) (.inl rfl) (kept_forget _), fun _ => ⟨rfl, rfl, kept_forget _⟩⟩

variable (P l f i) in
theorem repayDebt_ended (r : Rect) : Ended P l (repayDebt P l f r i) := by
  unfold repayDebt
  split_ifs
  · refine ⟨.quiet (.inl rfl) (.inl rfl) ?_, fun h => by simp at h⟩
    exact ⟨⟨rfl, rfl, rfl⟩, rfl, fun _ => id⟩
  · have hsend := sendClear_ended P l f i (splitDebtBand r i.budgetPx).1
    dsimp only
    rcases hout : sendClear P l f (splitDebtBand r i.budgetPx).1 i with ⟨_ | _ | _, l'⟩
    · rw [hout] at hsend
      exact hsend
    · rw [hout] at hsend
      exact ⟨hsend.1, fun h => by simp at h⟩
    · rw [hout] at hsend
      exact ⟨hsend.1.record ⟨rfl, rfl, rfl⟩ rfl rfl, fun h => by simp at h⟩

variable (P l f i) in
theorem encodeH264_ended (surface : SurfaceState) (now : ℕ) (d : Rect) :
    Ended P l ((encodeH264 P l surface now f d i).1.isSome,
      (encodeH264 P l surface now f d i).2) := by
  have hback : Kept l.u { l.u with encoders := some (takeEncoders l.u) } :=
    ⟨⟨rfl, rfl, rfl⟩, rfl, fun _ => id⟩
  unfold encodeH264
  rcases i.join with _ | _ | _
  · dsimp only
    split_ifs with hnone hempty hsent
    · refine ⟨.quiet (.inr rfl) (.inl rfl) (hback.trans ?_), fun h => by simp at h⟩
      exact ⟨⟨rfl, rfl, rfl⟩, rfl, fun _ => id⟩
    · exact ⟨.quiet (.inr rfl) (.inr ⟨_, _, rfl⟩) hback, fun h => by simp at h⟩
    · refine ⟨.h264 (Prod.ext hsent rfl) (.inr ⟨rfl, _, _, rfl⟩) (hback.trans ?_),
        fun h => by simp at h⟩
      exact ⟨⟨rfl, rfl, rfl⟩, rfl, fun _ => id⟩
    · have hrefused : (P.sendH264 (P.await l.env) l.u.avc444v2Enabled surface.id).1 = false := by
        simpa using hsent
      exact ⟨.h264 (Prod.ext hrefused rfl) (.inl ⟨rfl, rfl⟩) (hback.trans (kept_oweRegion _ d)),
        fun h => by simp at h⟩
  · exact ⟨.quiet (.inr rfl) (.inl rfl) (kept_forget _), fun h => by simp at h⟩
  · exact ⟨.quiet (.inr rfl) (.inl rfl) (kept_forget _), fun _ => ⟨rfl, rfl, kept_forget _⟩⟩

variable (P l f i) in
theorem repayWhole_ended : Ended P l ((repayWhole P l f i).1.isSome, (repayWhole P l f i).2) := by
  have hrepay := repayDebt_ended P l f i (Rect.full f.width f.height)
  unfold repayWhole
  rcases hout : repayDebt P l f (Rect.full f.width f.height) i with ⟨_ | _, l'⟩
  all_goals
    rw [hout] at hrepay
    exact hrepay

variable (P l f i) in
theorem sendH264_ended (now : ℕ) (d : Rect) :
    Ended P l ((sendH264 P l now f d i).1.isSome, (sendH264 P l now f d i).2) := by
  have hrebuilt : Kept l.u (rebuildH264 l.u) := ⟨⟨rfl, rfl, rfl⟩, rfl, fun _ => id⟩
  have hdisabled : Kept l.u (disableAvc l.u) :=
    ⟨⟨rfl, rfl, rfl⟩, rfl, fun log _ => mirrors_new log⟩
  unfold sendH264
  rcases l.u.surface with _ | surface
  · exact ⟨.quiet (.inl rfl) (.inl rfl) (.refl _), fun h => by simp at h⟩
  · dsimp only
    split_ifs
    · exact repayWhole_ended P l f i
    · exact encodeH264_ended P l f i surface now d
    · exact (encodeH264_ended P { l with u := rebuildH264 l.u } f i surface now d).of_kept hrebuilt
    · exact (repayWhole_ended P { l with u := disableAvc l.u } f i).of_kept hdisabled

variable (P l f i) in
theorem act_ended (now : ℕ) (r : Route) : Ended P l (act P l now f i r) := by
  rcases r with _ | r | _ | d | d
  · exact ⟨.quiet (.inl rfl) (.inl rfl) (.refl _), fun h => by simp [act] at h⟩
  · exact ⟨.quiet (.inl rfl) (.inl rfl) (kept_oweRegion _ r), fun h => by simp [act] at h⟩
  · exact repayDebt_ended P l f i _
  · have hsend := sendH264_ended P l f i now d
    rw [act]
    rcases hout : sendH264 P l now f d i with ⟨_ | _ | _, l'⟩
    · rw [hout] at hsend
      exact hsend
    · rw [hout] at hsend
      exact hsend
    · rw [hout] at hsend
      exact ⟨hsend.1.record ⟨rfl, rfl, rfl⟩ rfl rfl, fun h => by simp at h⟩
  · exact sendClear_ended P l f i d

variable (P l f) in
theorem renewSurface_latched (handle now : ℕ) :
    (renewSurface P l handle now f).u.egfxLatched = l.u.egfxLatched ∧
      sentFrame (renewSurface P l handle now f).trace = sentFrame l.trace := by
  simp only [renewSurface]
  split
  · exact ⟨rfl, by simp [ensureSurface, sentFrame]⟩
  · exact ⟨rfl, rfl⟩

variable (P l i) in
/-- **A whole frame.** Once its surface is settled, a frame either finds it gone and only creates it
anew, or makes at most one send. -/
theorem processFrame_sends (handle now : ℕ) (g : Grab) :
    (surfaceVanished P (renewSurface P l handle now g.frame) = true ∧
        processFrame P l handle now g i =
          recoverSurface P (renewSurface P l handle now g.frame) now g.frame) ∨
      (surfaceVanished P (renewSurface P l handle now g.frame) = false ∧
        FrameSends P (renewSurface P l handle now g.frame) (processFrame P l handle now g i)) := by
  rw [processFrame, egfxFrame]
  dsimp only
  split_ifs with hvanished hpressure
  · exact .inl ⟨hvanished, rfl⟩
  · refine .inr ⟨by simpa using hvanished, .quiet (.inl rfl) (.inl rfl) ?_⟩
    rcases g.damage with _ | d
    · exact .refl _
    · exact kept_oweRegion _ d
  · refine .inr ⟨by simpa using hvanished, Ended.withinTime ?_⟩
    exact (act_ended P _ g.frame i now _).of_kept (kept_route _ g now)

end sends

end Linrdp.Display.Sends
