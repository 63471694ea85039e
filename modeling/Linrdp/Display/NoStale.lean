import Linrdp.Display.Frame
import Linrdp.Lib.Runs

/-!
# Is every stale pixel owed?

A pixel is stale when it changed since it was last given to the client. The display loop owes a
pixel when `pendingFull` is set and `debtRect` is absent or holds it. `allOwed_iff`: every stale
pixel is owed after every call exactly in the `Sound` sequences of frames. A frame is not sound when
its own encode task is lost, or x264 does not come up and the lossless band sent instead is refused,
while the damage is not owed already: neither path records the damage.
-/

namespace Linrdp.Display.NoStale

open Option Lib.Rects Lib.Runs Display.Rects Display.Frame
open Graphics.ClearCodec Capture.Grabber Prod Rect Bool

abbrev Stale := Pixel → Bool

def after (stale : Stale) : Shown → Stale
  | .surface width height => fun p => decide (p ∈ full width height)
  | .clear r _ => fun p => stale p && !decide (p ∈ r)
  | .h264 width height => fun p => stale p && !decide (p ∈ full width height)
  | .same width height => fun p => stale p && !decide (p ∈ full width height)

/-- A grab makes its damage stale; pixels outside the frame no longer count. -/
def note (stale : Stale) (g : Grab) : Stale := fun p =>
  decide (p ∈ full g.frame.width g.frame.height) &&
    (stale p || g.damage.any fun d => decide (p ∈ d))

structure FrameCall (σ : Type) where
  pipeline : Pipeline σ
  env : σ
  (handle elapsed : ℕ)
  grab : SourceGrab
  input : FrameInput

structure State where
  u : EgfxUpdates
  stale : Stale
  clock : ℕ

variable (desktop : ℕ × ℕ)

def start (settleUntil now : ℕ) (avc444v2Allowed : Bool) : State :=
  ⟨EgfxUpdates.new desktop settleUntil now avc444v2Allowed, fun _ => true, now⟩

variable {σ : Type}

def renewed (s : State) (c : FrameCall σ) : Loop σ :=
  renewSurface c.pipeline ⟨s.u, c.env, []⟩ c.handle (s.clock + c.elapsed) c.grab.grab.frame

def frameEnd (s : State) (c : FrameCall σ) : Loop σ :=
  processFrame c.pipeline ⟨s.u, c.env, []⟩ c.handle (s.clock + c.elapsed) c.grab.grab c.input

def step (s : State) (c : FrameCall σ) : State :=
  ⟨(frameEnd s c).u, (frameEnd s c).trace.foldl after (note s.stale c.grab.grab),
    s.clock + c.elapsed⟩

def Owed (u : EgfxUpdates) (p : Pixel) : Prop :=
  u.pendingFull = true ∧ ∀ r, u.debtRect = some r → p ∈ r

/-- **Every stale pixel is owed.** -/
def AllOwed (s : State) : Prop := ∀ p, s.stale p = true → Owed s.u p

def Covers (u : EgfxUpdates) (d : Rect) : Prop := ∀ p ∈ d, Owed u p

def fallbackBand (f : Frame) (i : FrameInput) : Rect :=
  (splitDebtBand (full f.width f.height) i.budgetPx).1

def Refuses (P : Pipeline σ) (u : EgfxUpdates) (env : σ) (f : Frame) (r : Rect) : Prop :=
  ∃ surface, u.surface = some surface ∧
    (P.sendClearcodec (P.await env) surface.id r (clearMessage u f r).1).1 = false

/-- The route loses no damage: when its encode task is lost, the damage is owed already; when x264
does not come up and the band sent instead is refused, the damage is owed together with the band. -/
def SoundRoute (P : Pipeline σ) (u : EgfxUpdates) (env : σ) (f : Frame) (i : FrameInput) :
    Route → Prop
  | .clear d => i.join = .lost → Covers u d
  | .h264 d =>
    (i.join = .lost → Covers u d) ∧
      (bitrateStale u i = true → i.x264Init = false → i.join = .joined →
        Refuses P (disableAvc u) env f (fallbackBand f i) →
        Covers (oweRegion u (fallbackBand f i)) d)
  | _ => True

def Sound (s : State) (c : FrameCall σ) : Prop :=
  let l := renewed s c
  let r := route l.u c.grab.grab (s.clock + c.elapsed)
  surfaceVanished c.pipeline l = false → c.pipeline.shouldBackpressure l.env = false →
    SoundRoute c.pipeline r.2 l.env c.grab.grab.frame c.input r.1

/-! ### The debt -/

structure SameDebt (u u' : EgfxUpdates) : Prop where
  full : u'.pendingFull = u.pendingFull
  rect : u'.debtRect = u.debtRect
  caps : u'.capsResetUntil = u.capsResetUntil

theorem SameDebt.refl (u : EgfxUpdates) : SameDebt u u := ⟨rfl, rfl, rfl⟩

variable {u u' : EgfxUpdates}

theorem SameDebt.owed_iff (h : SameDebt u u') (p : Pixel) : Owed u' p ↔ Owed u p := by
  rw [Owed, Owed, h.full, h.rect]

theorem SameDebt.oweRegion (h : SameDebt u u') (r : Rect) :
    SameDebt (oweRegion u r) (oweRegion u' r) := by
  rw [Frame.oweRegion, Frame.oweRegion, h.full, h.rect]
  split_ifs
  · exact h
  · exact ⟨rfl, rfl, h.caps⟩

def Everything (u : EgfxUpdates) : Prop := u.pendingFull = true ∧ u.debtRect = none

theorem Everything.owed (h : Everything u) (p : Pixel) : Owed u p := by
  refine ⟨h.1, fun r hr => ?_⟩
  rw [h.2] at hr
  simp at hr

def SmallDebt (u : EgfxUpdates) : Prop := ∀ r, u.debtRect = some r → Small16 r

theorem Everything.smallDebt (h : Everything u) : SmallDebt u := by
  intro r hr
  rw [h.2] at hr
  simp at hr

theorem oweRegion_cases (u : EgfxUpdates) (r : Rect) :
    (Everything u ∧ oweRegion u r = u) ∨
      ((oweRegion u r).pendingFull = true ∧ (oweRegion u r).capsResetUntil = u.capsResetUntil ∧
        ((u.debtRect = none ∧ u.pendingFull = false ∧ (oweRegion u r).debtRect = some r) ∨
          ∃ cur, u.debtRect = some cur ∧ (oweRegion u r).debtRect = some (unionRect cur r))) := by
  unfold oweRegion
  rcases hrect : u.debtRect with _ | cur <;> rcases hfull : u.pendingFull with _ | _
  · exact .inr ⟨rfl, rfl, .inl ⟨rfl, rfl, rfl⟩⟩
  · exact .inl ⟨⟨hfull, hrect⟩, rfl⟩
  all_goals exact .inr ⟨rfl, rfl, .inr ⟨cur, rfl, rfl⟩⟩

theorem oweRegion_caps (u : EgfxUpdates) (r : Rect) :
    (oweRegion u r).capsResetUntil = u.capsResetUntil := by
  obtain ⟨-, h⟩ | ⟨-, h, -⟩ := oweRegion_cases u r
  · rw [h]
  · exact h

theorem Everything.oweRegion (h : Everything u) (r : Rect) : Everything (oweRegion u r) := by
  obtain ⟨-, heq⟩ | ⟨-, -, ⟨-, hfull, -⟩ | ⟨cur, hcur, -⟩⟩ := oweRegion_cases u r
  · rw [heq]
    exact h
  · rw [h.1] at hfull
    simp at hfull
  · rw [h.2] at hcur
    simp at hcur

variable {r : Rect}

theorem smallDebt_oweRegion (hu : SmallDebt u) (hr : Small16 r) : SmallDebt (oweRegion u r) := by
  intro x hx
  obtain ⟨he, heq⟩ | ⟨-, -, ⟨-, -, h⟩ | ⟨cur, hcur, h⟩⟩ := oweRegion_cases u r
  · rw [heq] at hx
    exact he.smallDebt x hx
  · rw [h] at hx
    exact some.inj hx ▸ hr
  · rw [h] at hx
    exact some.inj hx ▸ (hu cur hcur).unionRect hr

theorem owed_oweRegion (hu : SmallDebt u) (hr : Small16 r) {p : Pixel}
    (hp : Owed u p ∨ p ∈ r) : Owed (oweRegion u r) p := by
  obtain ⟨he, heq⟩ | ⟨hfull, -, ⟨hnone, hpend, h⟩ | ⟨cur, hcur, h⟩⟩ := oweRegion_cases u r
  · rw [heq]
    exact he.owed p
  · refine ⟨hfull, fun x hx => ?_⟩
    rw [h] at hx
    rcases hp with hp | hp
    · rw [Owed, hpend] at hp
      simp at hp
    · exact some.inj hx ▸ hp
  · refine ⟨hfull, fun x hx => ?_⟩
    rw [h] at hx
    rw [← some.inj hx, unionRect_eq_hull (hu cur hcur) hr]
    rcases hp with hp | hp
    · exact mem_hull_left r (hp.2 cur hcur)
    · exact mem_hull_right cur hp

variable {width height : ℕ}

theorem owed_debtRegion {p : Pixel} (hp : Owed u p)
    (hframe : p ∈ full width height) : p ∈ debtRegion u width height := by
  unfold debtRegion
  rcases hrect : u.debtRect with _ | r
  · exact hframe
  · have hmem := hp.2 r hrect
    rw [mem_iff] at hmem ⊢
    rw [mem_full] at hframe
    dsimp only
    omega

theorem debtRegion_small (u : EgfxUpdates) (hw : width ≤ 65535)
    (hh : height ≤ 65535) : Small16 (debtRegion u width height) := by
  unfold debtRegion
  rcases u.debtRect with _ | r
  · exact ⟨by simpa using hw, by simpa using hh⟩
  · simp only [Small16, Rect.Inside]
    omega

/-! ### What the sends do to the debt -/

variable {P : Pipeline σ}

variable {l l' : Loop σ} {f : Frame} {i : FrameInput} {out : Option Bool}

/-- The four ends of a lossless send: stalled, accepted, not tried, refused. -/
theorem sendClear_cases (h : sendClear P l f r i = (out, l')) :
    (out = none ∧ i.join = .stalled ∧ l'.u.capsResetUntil = l.u.capsResetUntil) ∨
      (out = some true ∧ (∃ m, l'.trace = l.trace ++ [.clear r m]) ∧ SameDebt l.u l'.u ∧
        i.join = .joined ∧ ¬ Refuses P l.u l.env f r) ∨
      (out = some false ∧ l'.trace = l.trace ∧
        ((SameDebt l.u l'.u ∧ (l.u.surface = none ∨ i.join = .lost)) ∨
          (SameDebt (oweRegion l.u r) l'.u ∧ i.join = .joined ∧
            Refuses P l.u l.env f r))) := by
  unfold sendClear at h
  rcases hsurface : l.u.surface with _ | surface
  · rw [hsurface] at h
    obtain ⟨rfl, rfl⟩ := mk.inj h
    exact .inr (.inr ⟨rfl, rfl, .inl ⟨.refl _, .inl rfl⟩⟩)
  · rw [hsurface] at h
    rcases hjoin : i.join with _ | _ | _ <;> rw [hjoin] at h
    · dsimp only at h
      split_ifs at h with hsent <;> obtain ⟨rfl, rfl⟩ := mk.inj h
      · refine .inr (.inl ⟨rfl, ⟨_, rfl⟩, ⟨rfl, rfl, rfl⟩, rfl, ?_⟩)
        rintro ⟨surface', hsurface', hrefused⟩
        rw [hsurface] at hsurface'
        rw [← some.inj hsurface', hsent] at hrefused
        simp at hrefused
      · refine .inr (.inr ⟨rfl, rfl,
          .inr ⟨.oweRegion ?_ r, rfl, surface, hsurface, by simpa using hsent⟩⟩)
        exact ⟨rfl, rfl, rfl⟩
    · obtain ⟨rfl, rfl⟩ := mk.inj h
      exact .inr (.inr ⟨rfl, rfl, .inl ⟨⟨rfl, rfl, rfl⟩, .inr rfl⟩⟩)
    · obtain ⟨rfl, rfl⟩ := mk.inj h
      exact .inl ⟨rfl, rfl, rfl⟩

variable {now : ℕ}

/-! ### Before the send -/

theorem renewSurface_cases (P : Pipeline σ) (l : Loop σ) (handle now : ℕ) (f : Frame) :
    (renewSurface P l handle now f).u.capsResetUntil = l.u.capsResetUntil ∧
      ((Everything (renewSurface P l handle now f).u ∧
          (renewSurface P l handle now f).trace = l.trace ++ [.surface f.width f.height]) ∨
        ((renewSurface P l handle now f).trace = l.trace ∧
          SameDebt l.u (renewSurface P l handle now f).u ∧
          (renewSurface P l handle now f).u.surface ≠ none)) := by
  simp only [renewSurface]
  split
  · exact ⟨rfl, .inl ⟨⟨rfl, rfl⟩, rfl⟩⟩
  · rename_i h
    refine ⟨rfl, .inr ⟨rfl, ⟨rfl, rfl, rfl⟩, fun hnone => h ?_⟩⟩
    have hsize : sizeChanged l.u f = true := by
        simp [sizeChanged, show l.u.surface = none from hnone]
    rw [hsize, Bool.or_true]

theorem leaveMotion_cases (u : EgfxUpdates) (now : ℕ) :
    (leaveMotion u now).surface = u.surface ∧
      (leaveMotion u now).capsResetUntil = u.capsResetUntil ∧
      (SameDebt u (leaveMotion u now) ∨ Everything (leaveMotion u now)) := by
  simp only [leaveMotion]
  split_ifs
  · exact ⟨rfl, rfl, .inl ⟨rfl, rfl, rfl⟩⟩
  · exact ⟨rfl, rfl, .inr ⟨rfl, rfl⟩⟩
  · exact ⟨rfl, rfl, .inl ⟨rfl, rfl, rfl⟩⟩

variable {g : Grab}

theorem route_cases {r : Route} (h : route u g now = (r, u')) :
    (r = .hold ∧ u' = u ∧ now < u.capsResetUntil) ∨
      u.capsResetUntil ≤ now ∧
        ((g.damage = none ∧ u' = leaveMotion u now ∧ (r = .hold ∨ r = .repay)) ∨
          ∃ d, g.damage = some d ∧
            ((r = .repay ∧ u' = oweRegion (leaveMotion u now) d) ∨
              u' = leaveMotion u now ∧
                (r = .owe d ∨ r = .clear d ∨ r = .h264 d ∧ u'.avcDisabled = false))) := by
  unfold route at h
  split_ifs at h with hcaps
  · obtain ⟨rfl, rfl⟩ := mk.inj h
    exact .inl ⟨rfl, rfl, hcaps⟩
  · refine .inr ⟨not_lt.1 hcaps, ?_⟩
    rcases hdamage : g.damage with _ | d
    · rw [hdamage] at h
      obtain ⟨hr, rfl⟩ := mk.inj h
      refine .inl ⟨rfl, rfl, ?_⟩
      split_ifs at hr
      · exact .inr hr.symm
      · exact .inl hr.symm
    · rw [hdamage] at h
      dsimp only at h
      refine .inr ⟨d, rfl, ?_⟩
      split_ifs at h with hrepay hmotion hrate hin
      all_goals obtain ⟨rfl, rfl⟩ := mk.inj h
      · exact .inl ⟨rfl, rfl⟩
      · exact .inr ⟨rfl, .inl rfl⟩
      · exact .inr ⟨rfl, .inr (.inr ⟨rfl, by simpa using (and_eq_true_iff.1 hmotion).2⟩)⟩
      · exact .inr ⟨rfl, .inl rfl⟩
      · exact .inr ⟨rfl, .inr (.inl rfl)⟩

/-! ### One frame -/

structure Noted (g : Grab) (u : EgfxUpdates) (stale : Stale) : Prop where
  frame : ∀ p, stale p = true → p ∈ full g.frame.width g.frame.height
  owed : ∀ p, stale p = true → Owed u p ∨ ∃ d, g.damage = some d ∧ p ∈ d
  damage : ∀ d, g.damage = some d → ∀ p ∈ d, stale p = true
  small : SmallDebt u
  surface : u.surface = none → Everything u

theorem Noted.leaveMotion {stale : Stale} (h : Noted g u stale)
    (now : ℕ) : Noted g (leaveMotion u now) stale := by
  obtain ⟨hsurface, -, hdebt | he⟩ := leaveMotion_cases u now
  · refine ⟨h.frame, fun p hp => ?_, h.damage, fun r hr => ?_, fun hnone => ?_⟩
    · exact (h.owed p hp).imp_left (hdebt.owed_iff p).2
    · exact h.small r (hdebt.rect ▸ hr)
    · obtain ⟨hfull, hrect⟩ := h.surface (hsurface ▸ hnone)
      exact ⟨hdebt.full.trans hfull, hdebt.rect.trans hrect⟩
  · exact ⟨h.frame, fun p _ => .inl (he.owed p), h.damage, he.smallDebt, fun _ => he⟩

theorem Noted.owed_or_mem {stale : Stale} (h : Noted g u stale) {d : Rect} (hd : g.damage = some d)
    {p : Pixel} (hp : stale p = true) : Owed u p ∨ p ∈ d := by
  refine (h.owed p hp).imp_right ?_
  rintro ⟨d', hd', hmem⟩
  rw [hd] at hd'
  exact some.inj hd' ▸ hmem

theorem Noted.owed_of_none {stale : Stale} (h : Noted g u stale)
    (hnone : g.damage = none) (p : Pixel) (hp : stale p = true) : Owed u p := by
  obtain howed | ⟨d, hd, -⟩ := h.owed p hp
  · exact howed
  · rw [hnone] at hd
    simp at hd

def Paid (stale : Stale) (l : Loop σ) : Prop := ∀ p, l.trace.foldl after stale p = true → Owed l.u p

structure Ends (stale : Stale) (caps : ℕ) (l : Loop σ) (C : Prop) : Prop where
  small : SmallDebt l.u
  caps_eq : l.u.capsResetUntil = caps
  paid_iff : Paid stale l ↔ C

section ends

variable {stale : Stale} {caps : ℕ} {l l' : Loop σ} {C : Prop}

theorem Ends.same (h : Ends stale caps l C) (htrace : l'.trace = l.trace)
    (hdebt : SameDebt l.u l'.u) : Ends stale caps l' C := by
  refine ⟨fun r hr => h.small r (hdebt.rect ▸ hr), hdebt.caps.trans h.caps_eq, ?_⟩
  rw [← h.paid_iff, Paid, Paid, htrace]
  simp only [hdebt.owed_iff]

theorem Ends.congr {D : Prop} (h : Ends stale caps l C) (hiff : C ↔ D) : Ends stale caps l D :=
  ⟨h.small, h.caps_eq, h.paid_iff.trans hiff⟩

theorem ends_of_everything (he : Everything l.u) (hcaps : l.u.capsResetUntil = caps) (hC : C) :
    Ends stale caps l C := ⟨he.smallDebt, hcaps, fun _ => hC, fun _ p _ => he.owed p⟩

theorem ends_stalled (hcaps : l.u.capsResetUntil = caps) (hC : C) :
    Ends stale caps (withinTime (false, l)) C := ends_of_everything ⟨rfl, rfl⟩ hcaps hC

theorem ends_unshown {d : Rect}
    (hn : Noted g u (l.trace.foldl after stale)) (hd : g.damage = some d)
    (htrace : l'.trace = l.trace) (hsmall : SmallDebt l'.u) (hcaps : l'.u.capsResetUntil = caps)
    (hkept : ∀ p, Owed u p → Owed l'.u p) : Ends stale caps l' (Covers l'.u d) := by
  refine ⟨hsmall, hcaps, fun h p hp => ?_, fun h p hp => ?_⟩
  · refine h p ?_
    rw [htrace]
    exact hn.damage d hd p hp
  · rw [htrace] at hp
    exact (hn.owed_or_mem hd hp).elim (hkept p) (h p)

theorem after_append (stale : Stale) (trace : List Shown) (x : Shown) :
    (trace ++ [x]).foldl after stale = after (trace.foldl after stale) x := by
  rw [List.foldl_append, List.foldl_cons, List.foldl_nil]

end ends

section routes

variable {stale : Stale} {l l' : Loop σ} {f : Frame} {i : FrameInput}

theorem settleDebt_eq (rest : Option Rect) : settleDebt rest = (rest.isSome, rest) := by
  cases rest <;> rfl

theorem paid_of_band {budget : ℕ} {m : ClearMessage} (hr : Small16 r)
    (hin : ∀ p, l.trace.foldl after stale p = true → p ∈ r)
    (htrace : l'.trace = l.trace ++ [.clear (splitDebtBand r budget).1 m])
    (hfull : l'.u.pendingFull = (splitDebtBand r budget).2.isSome)
    (hrect : l'.u.debtRect = (splitDebtBand r budget).2) : Paid stale l' := by
  intro p hp
  rw [htrace, after_append] at hp
  simp only [after, and_eq_true, not_eq_true', decide_eq_false_iff_not] at hp
  obtain hband | ⟨rest, hrest, hmem⟩ := (mem_splitDebtBand hr).1 (hin p hp.1)
  · exact absurd hband hp.2
  · refine ⟨by rw [hfull, hrest, isSome_some], fun x hx => ?_⟩
    rw [hrect, hrest] at hx
    exact some.inj hx ▸ hmem

/-- A repayment over a rectangle that holds all that is stale: it pays, or nothing was shown. -/
theorem repayDebt_ends {out : Bool} (h : repayDebt P l f r i = (out, l'))
    (hr : Small16 r) (hin : ∀ p, l.trace.foldl after stale p = true → p ∈ r) :
    (Ends stale l.u.capsResetUntil (withinTime (out, l')) True ∧
        (i.join = .stalled ∨ (r.w = 0 ∨ r.h = 0) ∨
          i.join = .joined ∧ ¬ Refuses P l.u l.env f (splitDebtBand r i.budgetPx).1)) ∨
      (out = true ∧ l'.trace = l.trace ∧
        ((SameDebt l.u l'.u ∧ (l.u.surface = none ∨ i.join = .lost)) ∨
          (SameDebt (oweRegion l.u (splitDebtBand r i.budgetPx).1) l'.u ∧ i.join = .joined ∧
            Refuses P l.u l.env f (splitDebtBand r i.budgetPx).1))) := by
  unfold repayDebt at h
  split_ifs at h with hempty
  · obtain ⟨rfl, rfl⟩ := mk.inj h
    refine .inl ⟨⟨fun x hx => ?_, rfl, fun _ => trivial, fun _ p hp => ?_⟩, .inr (.inl hempty)⟩
    · cases hx
    · have hmem := mem_iff.1 (hin p hp)
      omega
  · dsimp only at h
    rcases hsent : sendClear P l f (splitDebtBand r i.budgetPx).1 i with ⟨sent, l''⟩
    rw [hsent] at h
    obtain ⟨rfl, hjoin, hcaps⟩ | ⟨rfl, ⟨m, htrace⟩, hdebt, hjoin⟩ | ⟨rfl, htrace, hdebt⟩ :=
      sendClear_cases hsent
    all_goals obtain ⟨rfl, rfl⟩ := mk.inj h
    · exact .inl ⟨ends_stalled hcaps trivial, .inl hjoin⟩
    · simp only [settleDebt_eq]
      exact .inl ⟨⟨fun x hx => splitDebtBand_small hr hx, hdebt.caps, fun _ => trivial,
        fun _ => paid_of_band hr hin htrace rfl rfl⟩, .inr (.inr hjoin)⟩
    · exact .inr ⟨rfl, htrace, hdebt⟩

theorem repayOwed_ends (hw : width ≤ 65535) (hh : height ≤ 65535) (hsmall : SmallDebt l.u)
    (hframe : ∀ p, l.trace.foldl after stale p = true → p ∈ full width height)
    (howed : Paid stale l) :
    Ends stale l.u.capsResetUntil (withinTime (repayDebt P l f (debtRegion l.u width height) i))
      True := by
  rcases h : repayDebt P l f (debtRegion l.u width height) i with ⟨out, l'⟩
  have hr := debtRegion_small l.u hw hh
  have hin : ∀ p, l.trace.foldl after stale p = true → p ∈ debtRegion l.u width height :=
    fun p hp => owed_debtRegion (howed p hp) (hframe p hp)
  have hbefore : Ends stale l.u.capsResetUntil l True :=
      ⟨hsmall, rfl, fun _ => trivial, fun _ => howed⟩
  obtain ⟨hends, -⟩ | ⟨rfl, htrace, ⟨hdebt, -⟩ | ⟨hdebt, -⟩⟩ := repayDebt_ends h hr hin
  · exact hends
  · exact hbefore.same htrace hdebt
  · have hband : Small16 (splitDebtBand (debtRegion l.u width height) i.budgetPx).1 :=
      splitDebtBand_fst_small hr
    have howing : Ends stale l.u.capsResetUntil
        { l with u := oweRegion l.u (splitDebtBand (debtRegion l.u width height) i.budgetPx).1 }
        True :=
      ⟨smallDebt_oweRegion hsmall hband, oweRegion_caps _ _, fun _ => trivial,
        fun _ p hp => owed_oweRegion hsmall hband (.inl (howed p hp))⟩
    exact howing.same htrace hdebt

variable {g : SourceGrab} {d : Rect}

section damaged

variable (hn : Noted g.grab l.u (l.trace.foldl after stale)) (hd : g.grab.damage = some d)

include hn hd

theorem ends_owing (htrace : l'.trace = l.trace) (hdebt : SameDebt (oweRegion l.u d) l'.u) :
    Ends stale l.u.capsResetUntil l' True := by
  have hsmall := Small16.of_inside (g.inside d hd) g.width_le g.height_le
  have howing : Ends stale l.u.capsResetUntil { l with u := oweRegion l.u d } True := by
    exact ⟨smallDebt_oweRegion hn.small hsmall, oweRegion_caps _ _, fun _ => trivial,
      fun _ p hp => owed_oweRegion hn.small hsmall (hn.owed_or_mem hd hp)⟩
  exact howing.same htrace hdebt

theorem ends_lost (htrace : l'.trace = l.trace) (hdebt : SameDebt l.u l'.u) :
    Ends stale l.u.capsResetUntil l' (Covers l.u d) := by
  have hsame := ends_unshown hn hd rfl hn.small rfl fun _ => id
  exact hsame.same htrace hdebt

theorem sendClear_ends (h : sendClear P l f d i = (out, l')) :
    Ends stale l.u.capsResetUntil (withinTime (out.isSome, l'))
    (i.join = .lost → Covers l.u d) := by
  obtain ⟨rfl, hjoin, hcaps⟩ | ⟨rfl, ⟨m, htrace⟩, hdebt, hjoin, -⟩ |
    ⟨rfl, htrace, ⟨hdebt, hnone | hjoin⟩ | ⟨hdebt, hjoin, -⟩⟩ := sendClear_cases h
  · exact ends_stalled hcaps (by simp [hjoin])
  · refine ⟨fun x hx => hn.small x (hdebt.rect ▸ hx), hdebt.caps, by simp [hjoin], fun _ p hp => ?_⟩
    · change l'.trace.foldl after stale p = true at hp
      rw [htrace, after_append] at hp
      simp only [after, and_eq_true, not_eq_true', decide_eq_false_iff_not] at hp
      exact (hdebt.owed_iff p).2 ((hn.owed_or_mem hd hp.1).resolve_right hp.2)
  · have he := hn.surface hnone
    exact (ends_of_everything he rfl fun _ p _ => he.owed p).same htrace hdebt
  · exact (ends_lost hn hd htrace hdebt).congr ⟨fun hc _ => hc, fun hc => hc hjoin⟩
  · exact (ends_owing hn hd htrace hdebt).congr (by simp [hjoin])

theorem encodeH264_ends {surface : SurfaceState}
    (h : encodeH264 P l surface now g.grab.frame d i = (out, l')) :
    Ends stale l.u.capsResetUntil (withinTime (out.isSome, l'))
    (i.join = .lost → Covers l.u d) := by
  have hshown : ∀ {trace : List Shown} {x : Shown} (p : Pixel), trace = l.trace ++ [x] →
      (∀ st : Stale, after st x = fun p =>
        st p && !decide (p ∈ full g.grab.frame.width g.grab.frame.height)) →
      trace.foldl after stale p ≠ true := by
    intro trace x p htrace hx hp
    rw [htrace, after_append, hx] at hp
    simp only [and_eq_true, not_eq_true', decide_eq_false_iff_not] at hp
    exact hp.2 (hn.frame p hp.1)
  unfold encodeH264 at h
  rcases hjoin : i.join with _ | _ | _ <;> rw [hjoin] at h
  · dsimp only at h
    split_ifs at h with hnone hempty hsent <;> obtain ⟨rfl, rfl⟩ := mk.inj h
    · exact ends_of_everything ⟨rfl, rfl⟩ rfl (by simp)
    · exact ⟨hn.small, rfl, by simp, fun _ p hp => absurd hp (hshown p rfl fun _ => rfl)⟩
    · exact ⟨fun _ hx => (by cases hx), rfl, by simp,
        fun _ p hp => absurd hp (hshown p rfl fun _ => rfl)⟩
    · refine Ends.congr (ends_owing hn hd rfl (.oweRegion ?_ d)) (by simp)
      exact ⟨rfl, rfl, rfl⟩
  · obtain ⟨rfl, rfl⟩ := mk.inj h
    exact Ends.congr (ends_lost hn hd rfl ⟨rfl, rfl, rfl⟩) (by simp)
  · obtain ⟨rfl, rfl⟩ := mk.inj h
    exact ends_stalled rfl (by simp)

theorem repayWhole_ends (h : repayWhole P l g.grab.frame i = (out, l')) :
    Ends stale l.u.capsResetUntil (withinTime (out.isSome, l'))
      ((i.join = .lost → Covers l.u d) ∧
        (i.join = .joined → Refuses P l.u l.env g.grab.frame (fallbackBand g.grab.frame i) →
          Covers (oweRegion l.u (fallbackBand g.grab.frame i)) d)) := by
  have hfull : Small16 (full g.grab.frame.width g.grab.frame.height) :=
    .of_inside (full_inside _ _) g.width_le g.height_le
  have hband : Small16 (fallbackBand g.grab.frame i) := splitDebtBand_fst_small hfull
  rcases hrepay : repayDebt P l g.grab.frame (full g.grab.frame.width g.grab.frame.height) i
    with ⟨ok, l''⟩
  rw [repayWhole, hrepay] at h
  obtain ⟨rfl, rfl⟩ := mk.inj h
  have hok : (if ok = true then some false else none).isSome = ok := by cases ok <;> rfl
  rw [hok]
  obtain ⟨hends, hwhy⟩ | ⟨rfl, htrace, ⟨hdebt, hnone | hjoin⟩ | ⟨hdebt, hjoin, hrefuses⟩⟩ :=
    repayDebt_ends hrepay hfull hn.frame
  · refine hends.congr ⟨fun _ => ?_, fun _ => trivial⟩
    obtain hjoin | hempty | ⟨hjoin, haccepts⟩ := hwhy
    · simp [hjoin]
    · -- no pixel in an empty frame
      have hno : ∀ p, p ∉ d := fun p hp => by
        have hmem := mem_iff.1 ((g.inside d hd).mem_full hp)
        omega
      exact ⟨fun _ p hp => absurd hp (hno p), fun _ _ p hp => absurd hp (hno p)⟩
    · exact ⟨by simp [hjoin], fun _ hr => absurd hr haccepts⟩
  · have he := hn.surface hnone
    exact (ends_of_everything he rfl
      ⟨fun _ p _ => he.owed p, fun _ _ p _ => (he.oweRegion _).owed p⟩).same htrace hdebt
  · refine (ends_lost hn hd htrace hdebt).congr ⟨fun hc => ⟨fun _ => hc, ?_⟩, fun hc => hc.1 hjoin⟩
    simp [hjoin]
  · have howing : Ends stale l.u.capsResetUntil
        { l with u := oweRegion l.u (fallbackBand g.grab.frame i) }
        (Covers (oweRegion l.u (fallbackBand g.grab.frame i)) d) :=
      ends_unshown hn hd rfl (smallDebt_oweRegion hn.small hband) (oweRegion_caps _ _)
        fun p hp => owed_oweRegion hn.small hband (.inl hp)
    refine (howing.same htrace hdebt).congr ⟨fun hc => ⟨?_, fun _ _ => hc⟩, fun hc => ?_⟩
    · simp [hjoin]
    · exact hc.2 hjoin hrefuses

theorem sendH264_ends (havc : l.u.avcDisabled = false)
    (h : sendH264 P l now g.grab.frame d i = (out, l')) :
    Ends stale l.u.capsResetUntil (withinTime (out.isSome, l'))
      (SoundRoute P l.u l.env g.grab.frame i (.h264 d)) := by
  unfold sendH264 at h
  rcases hsurface : l.u.surface with _ | surface
  · rw [hsurface] at h
    obtain ⟨rfl, rfl⟩ := mk.inj h
    have he := hn.surface hsurface
    exact ends_of_everything he rfl
      ⟨fun _ p _ => he.owed p, fun _ _ _ _ p _ => (he.oweRegion _).owed p⟩
  · rw [hsurface] at h
    split_ifs at h with hdis hrunning hinit
    · rw [havc] at hdis
      simp at hdis
    · refine (encodeH264_ends hn hd h).congr ⟨fun hc => ⟨hc, fun hst => ?_⟩, fun hc => hc.1⟩
      rw [hst] at hrunning
      simp at hrunning
    · have hn' : Noted g.grab (rebuildH264 l.u) (l.trace.foldl after stale) :=
        { hn with }
      refine (encodeH264_ends hn' hd h).congr ⟨fun hc => ⟨hc, fun _ hno => ?_⟩, fun hc => hc.1⟩
      rw [hinit] at hno
      simp at hno
    · have hn' : Noted g.grab (disableAvc l.u) (l.trace.foldl after stale) :=
        { hn with }
      have hsame : SameDebt l.u (disableAvc l.u) := ⟨rfl, rfl, rfl⟩
      have hdebt := hsame.oweRegion (fallbackBand g.grab.frame i)
      refine (repayWhole_ends hn' hd h).congr ⟨fun hc => ⟨hc.1, ?_⟩, fun hc => ⟨hc.1, ?_⟩⟩
      · exact fun _ _ hj hr p hp => (hdebt.owed_iff p).1 (hc.2 hj hr p hp)
      · exact fun hj hr p hp =>
          (hdebt.owed_iff p).2 (hc.2 (by simpa using hrunning) (by simpa using hinit) hj hr p hp)

end damaged

/-- **One decided frame**: the debt stays in bounds, a held frame keeps owing everything, and the
frame pays just when its route is sound. -/
theorem act_ends {r : Route} (hn : Noted g.grab l.u (l.trace.foldl after stale))
    (hheld : now < l.u.capsResetUntil → Everything l.u) (hroute : route l.u g.grab now = (r, u')) :
    Ends stale l.u.capsResetUntil (withinTime (act P { l with u := u' } now g.grab.frame i r))
        (SoundRoute P u' l.env g.grab.frame i r) ∧
      (now < l.u.capsResetUntil →
        Everything (withinTime (act P { l with u := u' } now g.grab.frame i r)).u) := by
  obtain ⟨rfl, rfl, hcaps⟩ | ⟨hcaps, hwhy⟩ := route_cases hroute
  · exact ⟨ends_of_everything (hheld hcaps) rfl trivial, fun _ => hheld hcaps⟩
  refine ⟨?_, fun hlt => absurd hlt (not_lt.2 hcaps)⟩
  have hn' := hn.leaveMotion now
  obtain ⟨-, hkeep, -⟩ := leaveMotion_cases l.u now
  rw [← hkeep]
  obtain ⟨hnone, rfl, rfl | rfl⟩ | ⟨d, hd, ⟨rfl, rfl⟩ | ⟨rfl, rfl | rfl | ⟨rfl, havc⟩⟩⟩ := hwhy
  · exact ⟨hn'.small, rfl, fun _ => trivial, fun _ p hp => hn'.owed_of_none hnone p hp⟩
  · exact repayOwed_ends (l := { l with u := leaveMotion l.u now }) g.width_le g.height_le
      hn'.small hn'.frame (hn'.owed_of_none hnone)
  · have howing : Ends stale (leaveMotion l.u now).capsResetUntil
        { l with u := oweRegion (leaveMotion l.u now) d } True :=
      ends_owing (l := { l with u := leaveMotion l.u now }) hn' hd rfl (.refl _)
    rw [← oweRegion_caps (leaveMotion l.u now) d]
    exact repayOwed_ends (l := { l with u := oweRegion (leaveMotion l.u now) d }) g.width_le
      g.height_le howing.small hn.frame (howing.paid_iff.2 trivial)
  · exact ends_owing (l := { l with u := leaveMotion l.u now }) hn' hd rfl (.refl _)
  · exact sendClear_ends (l := { l with u := leaveMotion l.u now }) hn' hd rfl
  · rcases hsent : sendH264 P { l with u := leaveMotion l.u now } now g.grab.frame d i with
      ⟨out, l'⟩
    have hends := sendH264_ends hn' hd havc hsent
    rcases out with _ | _ | _ <;> simp only [act, hsent]
    · exact hends
    · exact hends
    · exact hends.same rfl ⟨rfl, rfl, rfl⟩

end routes

structure Inv (s : State) : Prop where
  small : SmallDebt s.u
  held : s.clock < s.u.capsResetUntil → Everything s.u

theorem inv_start (settleUntil now : ℕ) (avc444v2Allowed : Bool) :
    Inv (start desktop settleUntil now avc444v2Allowed) :=
  ⟨Everything.smallDebt ⟨rfl, rfl⟩, fun _ => ⟨rfl, rfl⟩⟩

theorem allOwed_start (settleUntil now : ℕ) (avc444v2Allowed : Bool) :
    AllOwed (start desktop settleUntil now avc444v2Allowed) :=
  fun p _ => Everything.owed ⟨rfl, rfl⟩ p

variable {s : State}

variable (c : FrameCall σ)

theorem noted_renewed (hinv : Inv s) (howed : AllOwed s) :
    Noted c.grab.grab (renewed s c).u
      ((renewed s c).trace.foldl after (note s.stale c.grab.grab)) := by
  obtain ⟨-, ⟨he, htrace⟩ | ⟨htrace, hdebt, hsurface⟩⟩ :=
    renewSurface_cases c.pipeline ⟨s.u, c.env, []⟩ c.handle (s.clock + c.elapsed) c.grab.grab.frame
  · rw [renewed, htrace, after_append]
    refine ⟨fun p hp => ?_, fun p _ => .inl (he.owed p), fun d hd p hp => ?_, he.smallDebt,
      fun _ => he⟩
    · simpa [after] using hp
    · simpa [after] using (c.grab.inside d hd).mem_full hp
  · rw [renewed, htrace]
    refine ⟨fun p hp => ?_, fun p hp => ?_, fun d hd p hp => ?_,
      fun r hr => hinv.small r (hdebt.rect ▸ hr), fun hnone => absurd hnone hsurface⟩
    · simp only [List.foldl_nil, note, and_eq_true, decide_eq_true_eq] at hp
      exact hp.1
    · simp only [List.foldl_nil, note, and_eq_true, or_eq_true, any_eq_true,
        decide_eq_true_eq] at hp
      exact hp.2.imp_left fun hst => (hdebt.owed_iff p).2 (howed p hst)
    · simp only [List.foldl_nil, note, hd, any_some, and_eq_true, or_eq_true, decide_eq_true_eq]
      exact ⟨(c.grab.inside d hd).mem_full hp, .inr hp⟩

theorem held_renewed (hinv : Inv s)
    (hlt : s.clock + c.elapsed < (renewed s c).u.capsResetUntil) : Everything (renewed s c).u := by
  obtain ⟨hcaps, ⟨he, -⟩ | ⟨-, hdebt, -⟩⟩ :=
    renewSurface_cases c.pipeline ⟨s.u, c.env, []⟩ c.handle (s.clock + c.elapsed) c.grab.grab.frame
  · exact he
  · rw [renewed, hcaps] at hlt
    obtain ⟨hfull, hrect⟩ := hinv.held (lt_of_le_of_lt (Nat.le_add_right _ _) hlt)
    exact ⟨hdebt.full.trans hfull, hdebt.rect.trans hrect⟩

/-- **One call**: the invariant stays, and every stale pixel is owed just when the call is sound. -/
theorem step_ends (hinv : Inv s) (howed : AllOwed s) :
    Inv (step s c) ∧ (Sound s c ↔ AllOwed (step s c)) := by
  have hn := noted_renewed c hinv howed
  have hheld := held_renewed c hinv
  -- every case ends as `Ends` says, with a condition that is the call's
  suffices hends : ∃ caps, Ends (note s.stale c.grab.grab) caps (frameEnd s c) (Sound s c) ∧
      (s.clock + c.elapsed < caps → Everything (frameEnd s c).u) by
    obtain ⟨caps, h, hcaps⟩ := hends
    exact ⟨⟨h.small, fun hlt => hcaps (h.caps_eq ▸ hlt)⟩, h.paid_iff.symm⟩
  simp only [frameEnd, processFrame, egfxFrame, apply_ite withinTime]
  rw [← renewed]
  split_ifs with hvanished hpressure
  · have he : Everything (recoverSurface c.pipeline (renewed s c) (s.clock + c.elapsed)
        c.grab.grab.frame).u := ⟨rfl, rfl⟩
    refine ⟨_, ends_of_everything he rfl fun hno => ?_, fun _ => he⟩
    rw [hvanished] at hno
    simp at hno
  · have hsound : Sound s c := fun _ hno => by
      rw [hpressure] at hno
      simp at hno
    refine ⟨(renewed s c).u.capsResetUntil, ?_⟩
    rcases hd : c.grab.grab.damage with _ | d
    · exact ⟨⟨hn.small, rfl, fun _ => hsound, fun _ p hp => hn.owed_of_none hd p hp⟩, hheld⟩
    · have howing : Ends (note s.stale c.grab.grab) (renewed s c).u.capsResetUntil
          { renewed s c with u := oweRegion (renewed s c).u d } True :=
        ends_owing hn hd rfl (.refl _)
      exact ⟨howing.congr ⟨fun _ => hsound, fun _ => trivial⟩, fun hlt => (hheld hlt).oweRegion d⟩
  · obtain ⟨hends, hkeeps⟩ := act_ends hn hheld rfl
    refine ⟨_, hends.congr ⟨fun h _ _ => h, fun h => h ?_ ?_⟩, hkeeps⟩
    · simpa using hvanished
    · simpa using hpressure

/-- **Stale pixels and the debt.** Every stale pixel is owed after every call of a sequence exactly
when the calls are sound, whatever the pipeline servers answer. -/
theorem allOwed_iff (desktop : ℕ × ℕ) (settleUntil now : ℕ) (avc444v2Allowed : Bool)
    (calls : List (FrameCall σ)) :
    (∀ pre, pre <+: calls →
        AllOwed (run step (start desktop settleUntil now avc444v2Allowed) pre)) ↔
      Along step Sound (start desktop settleUntil now avc444v2Allowed) calls := by
  rw [along_iff_run (G := AllOwed) (fun s c hs hg => (step_ends c hs hg).1)
    (fun s c hs hg => (step_ends c hs hg).2) (inv_start _ _ _ _) (allOwed_start _ _ _ _)]

/-! ### A lost encode task -/

def onePixelCall (join : Join) : FrameCall Unit where
  pipeline := accepting
  env := ()
  handle := 0
  elapsed := 0
  grab := onePixel true
  input := ⟨1000, false, false, join, 0, false⟩

/-- The first frame is painted; the second one's encode task is lost, and nothing is owed for it. -/
theorem lost_encode_forgets_damage :
    ¬ AllOwed (run step (start (1, 1) 0 0 false) [onePixelCall .joined, onePixelCall .lost]) := by
  intro h
  have hstale : (run step (start (1, 1) 0 0 false)
    [onePixelCall .joined, onePixelCall .lost]).stale (0, 0) = true := by decide
  have howed := (h (0, 0) hstale).1
  revert howed
  decide

end Linrdp.Display.NoStale
