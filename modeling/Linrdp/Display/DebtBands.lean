import Linrdp.Display.Frame
import Linrdp.Lib.Cover

/-!
# Repaying a debt band by band

`repay_debt` of `gfx_display.rs` paints one band of what is owed, of as many rows as the budget of
the moment allows, and what is left is the debt of the next payment (`pay_cases`). `debt_repaid`:
for every sequence of budgets the debt ends, and the bands stack up to the rectangle that was owed.
-/

namespace Linrdp.Display.DebtBands

open List Lib.Rects Lib.Cover Display.Rects Display.Frame Nat Prod
open Capture.Grabber (Frame)

/-! ### A payment -/

def settled (u : EgfxUpdates) : EgfxUpdates := { u with pendingFull := false, debtRect := none }

/-- A payment on a `width` by `height` frame: the band, if one is painted, and what is owed after
it. -/
def pay (width height : ℕ) (u : EgfxUpdates) (budgetPx : ℕ) : Option Rect × EgfxUpdates :=
  let r := debtRegion u width height
  if r.w = 0 ∨ r.h = 0 then (none, settled u)
  else
    let split := splitDebtBand r budgetPx
    let debt := settleDebt split.2
    (some split.1, { u with pendingFull := debt.1, debtRect := debt.2 })

def payAll (width height : ℕ) : List ℕ → EgfxUpdates → List (Rect × ℕ) × EgfxUpdates
  | [], u => ([], u)
  | budgetPx :: budgets, u =>
    if u.pendingFull then
      let paid := pay width height u budgetPx
      let rest := payAll width height budgets paid.2
      ((paid.1.map fun band => (band, budgetPx)).toList ++ rest.1, rest.2)
    else ([], u)

theorem repayDebt_eq_pay {σ : Type} {P : Pipeline σ} {l : Loop σ} {f : Frame} {i : FrameInput}
    (hsent : (sendClear P l f (splitDebtBand (debtRegion l.u f.width f.height) i.budgetPx).1 i).1 =
      some true) :
    let after := (repayDebt P l f (debtRegion l.u f.width f.height) i).2.u
    let paid := (pay f.width f.height l.u i.budgetPx).2
    after.pendingFull = paid.pendingFull ∧ after.debtRect = paid.debtRect := by
  by_cases hempty : (debtRegion l.u f.width f.height).w = 0 ∨
    (debtRegion l.u f.width f.height).h = 0
  · simp only [repayDebt, pay, if_pos hempty, settled, and_self]
  · rcases hclear : sendClear P l f (splitDebtBand (debtRegion l.u f.width f.height) i.budgetPx).1 i
      with ⟨sent, l'⟩
    rw [hclear] at hsent
    obtain rfl : sent = some true := hsent
    simp only [repayDebt, pay, if_neg hempty, hclear, and_self]

/-! ### What a payment does -/

theorem splitDebtBand_cases {r : Rect} (hr : Small16 r) (hw : 0 < r.w) (budgetPx : ℕ) :
    (r.w * r.h ≤ max budgetPx (r.w * minBandRows) ∧ splitDebtBand r budgetPx = (r, none)) ∨
      ∃ rows, minBandRows ≤ rows ∧ rows < r.h ∧ r.w * rows ≤ max budgetPx (r.w * minBandRows) ∧
        splitDebtBand r budgetPx =
          (⟨r.x, r.y, r.w, rows⟩, some ⟨r.x, r.y + rows, r.w, r.h - rows⟩) := by
  obtain ⟨-, hy⟩ := hr
  by_cases hempty : r.w = 0 ∨ r.h = 0
  · have hzero : r.h = 0 := by omega
    left
    rw [splitDebtBand, if_pos hempty, hzero]
    exact ⟨by omega, rfl⟩
  by_cases hfits : r.w * r.h ≤ budgetPx
  · left
    rw [splitDebtBand, if_neg hempty, if_pos hfits]
    exact ⟨le_trans hfits (le_max_left _ _), rfl⟩
  -- the budget does not cover the rectangle, so its rows are fewer than those owed
  have hrows : budgetPx / r.w < r.h := Nat.div_lt_of_lt_mul (by omega)
  have hband : r.w * max (budgetPx / r.w) minBandRows ≤ max budgetPx (r.w * minBandRows) := by
    rcases Nat.le_total (budgetPx / r.w) minBandRows with hle | hle
    · rw [max_eq_right hle]
      exact le_max_right _ _
    · rw [max_eq_left hle]
      exact le_trans (mul_div_le budgetPx r.w) (le_max_left _ _)
  by_cases hall : r.h ≤ max (budgetPx / r.w) minBandRows
  · left
    refine ⟨le_trans (mul_le_mul_left r.w hall) hband, ?_⟩
    simp only [splitDebtBand, if_neg hempty, if_neg hfits, hall, or_true, if_true]
  · right
    have hfew : ¬ (65535 < max (budgetPx / r.w) minBandRows ∨
        r.h ≤ max (budgetPx / r.w) minBandRows) := by omega
    refine ⟨max (budgetPx / r.w) minBandRows, le_max_right _ _, by omega, hband, ?_⟩
    rw [splitDebtBand, if_neg hempty, if_neg hfits]
    simp only [if_neg hfew]
    rw [add16_of_le (by omega)]

theorem debtRegion_inside (u : EgfxUpdates) (width height : ℕ) :
    (debtRegion u width height).Inside width height := by
  unfold debtRegion Rect.Inside
  split
  all_goals
    dsimp only
    omega

theorem debtRegion_of_inside {u : EgfxUpdates} {r : Rect} {width height : ℕ}
    (hdebt : u.debtRect = some r) (hr : r.Inside width height) : debtRegion u width height = r := by
  obtain ⟨hx, hy⟩ := hr
  rw [debtRegion, hdebt]
  dsimp only
  rw [min_eq_left (by omega), min_eq_left (by omega), min_eq_left (by omega),
    min_eq_left (by omega)]

section payments

variable {width height : ℕ} {u : EgfxUpdates} {budgetPx : ℕ}

/-- **What a payment does**: nothing was owed, all of it is paid, or a band of it. -/
theorem pay_cases (hw : width ≤ 65535) (hh : height ≤ 65535) (u : EgfxUpdates) (budgetPx : ℕ) :
    let r := debtRegion u width height
    ((r.w = 0 ∨ r.h = 0) ∧ pay width height u budgetPx = (none, settled u)) ∨
      (r.w * r.h ≤ max budgetPx (r.w * minBandRows) ∧
        pay width height u budgetPx = (some r, settled u)) ∨
      ∃ rows, minBandRows ≤ rows ∧ rows < r.h ∧ r.w * rows ≤ max budgetPx (r.w * minBandRows) ∧
        pay width height u budgetPx = (some ⟨r.x, r.y, r.w, rows⟩,
          { u with pendingFull := true, debtRect := some ⟨r.x, r.y + rows, r.w, r.h - rows⟩ }) := by
  intro r
  have hsmall : Small16 r := Small16.of_inside (debtRegion_inside u width height) hw hh
  by_cases hempty : r.w = 0 ∨ r.h = 0
  · exact .inl ⟨hempty, by rw [pay, if_pos hempty]⟩
  · right
    rcases splitDebtBand_cases hsmall (by omega) budgetPx with
      ⟨hbound, hsplit⟩ | ⟨rows, hmin, hless, hbound, hsplit⟩
    · left
      refine ⟨hbound, ?_⟩
      rw [pay, if_neg hempty, hsplit]
      rfl
    · right
      refine ⟨rows, hmin, hless, hbound, ?_⟩
      rw [pay, if_neg hempty, hsplit]
      rfl

theorem payAll_settled (budgets : List ℕ) (u : EgfxUpdates) :
    payAll width height budgets (settled u) = ([], settled u) := by
  cases budgets with
  | nil => rfl
  | cons budgetPx budgets => simp [payAll, settled]

structure Repays (r : Rect) (payments : List (Rect × ℕ)) : Prop where
  stack : Stack r (payments.map fst)
  bounded : ∀ payment ∈ payments,
    payment.1.w * payment.1.h ≤ max payment.2 (r.w * minBandRows)

theorem payAll_repays (hw : width ≤ 65535) (hh : height ≤ 65535) {budgets : List ℕ}
    (hfull : u.pendingFull = true) (hsome : budgets ≠ [])
    (hmany : (debtRegion u width height).h ≤ minBandRows * budgets.length) :
    (payAll width height budgets u).2 = settled u ∧
      Repays (debtRegion u width height) (payAll width height budgets u).1 := by
  induction budgets generalizing u with
  | nil => exact absurd rfl hsome
  | cons budgetPx budgets ih =>
    have hinside := debtRegion_inside u width height
    have hcases := pay_cases hw hh u budgetPx
    generalize debtRegion u width height = r at *
    rcases hcases with ⟨hempty, hpay⟩ | ⟨hbound, hpay⟩ | ⟨rows, hmin, hless, hbound, hpay⟩
    · simp only [payAll, hfull, if_true, hpay, payAll_settled budgets u]
      exact ⟨trivial, .nil hempty, by simp⟩
    · simp only [payAll, hfull, if_true, hpay, payAll_settled budgets u]
      refine ⟨trivial, .cons (Nat.le_refl r.h) (.nil (.inr (Nat.sub_self r.h))), ?_⟩
      intro payment hpayment
      obtain rfl : payment = (r, budgetPx) := by simpa using hpayment
      exact hbound
    · obtain ⟨hx, hy⟩ := hinside
      have hrest : debtRegion
          { u with pendingFull := true, debtRect := some ⟨r.x, r.y + rows, r.w, r.h - rows⟩ }
          width height = ⟨r.x, r.y + rows, r.w, r.h - rows⟩ :=
        debtRegion_of_inside rfl ⟨hx, by dsimp only; omega⟩
      have hlen : minBandRows * (budgetPx :: budgets).length =
          minBandRows * budgets.length + minBandRows := by
        rw [length_cons, mul_succ]
      have hleft : budgets ≠ [] := by
        rintro rfl
        rw [length_singleton, mul_one] at hmany
        omega
      obtain ⟨hdone, hstack, hbounds⟩ := ih
        (u := { u with pendingFull := true, debtRect := some ⟨r.x, r.y + rows, r.w, r.h - rows⟩ })
        rfl hleft (by rw [hrest]; dsimp only; omega)
      rw [hrest] at hstack hbounds
      simp only [payAll, hfull, if_true, hpay]
      refine ⟨hdone, .cons (le_of_lt hless) hstack, ?_⟩
      intro payment hpayment
      rcases mem_cons.1 hpayment with rfl | hpayment
      · exact hbound
      · exact hbounds payment hpayment

end payments

/-- The bands of a debt: disjoint, one under the other from the top of the rectangle, exactly its
pixels, and none larger than its budget or sixteen rows. -/
structure BandsTile (r : Rect) (payments : List (Rect × ℕ)) : Prop where
  disjoint : (payments.map fst).Pairwise fun a b => ∀ p ∈ a, p ∉ b
  top : ∀ band ∈ (payments.map fst).head?, band.x = r.x ∧ band.w = r.w ∧ band.y = r.y
  next : (payments.map fst).IsChain Below
  covers : ∀ p, p ∈ r ↔ ∃ band ∈ payments.map fst, p ∈ band
  bounded : ∀ payment ∈ payments,
    payment.1.w * payment.1.h ≤ max payment.2 (r.w * minBandRows)

theorem Repays.bandsTile {r : Rect} {payments : List (Rect × ℕ)} (h : Repays r payments) :
    BandsTile r payments := by
  refine ⟨h.stack.disjoint, ?_, h.stack.isChain, fun p => h.stack.mem_iff, h.bounded⟩
  have hstack := h.stack
  intro band hband
  rcases hbands : payments.map fst with _ | ⟨first, bands⟩
  · simp [hbands] at hband
  · rw [hbands] at hstack hband
    obtain rfl : first = band := by simpa using hband
    exact hstack.head

/-- **Debt bands tile the debt**: for every sequence of budgets, the payments on a rectangle inside
the frame come to an end with nothing owed, and their bands tile it. -/
theorem debt_repaid {width height : ℕ} (hw : width ≤ 65535) (hh : height ≤ 65535) {u : EgfxUpdates}
    {r : Rect} (hfull : u.pendingFull = true) (hdebt : u.debtRect = some r)
    (hr : r.Inside width height) (budgets : ℕ → ℕ) :
    ∃ n, (payAll width height ((List.range n).map budgets) u).2 = settled u ∧
      BandsTile r (payAll width height ((List.range n).map budgets) u).1 := by
  have hregion := debtRegion_of_inside hdebt hr
  have hsome : (List.range (r.h + 1)).map budgets ≠ [] := by simp
  have hmany : (debtRegion u width height).h ≤
      minBandRows * ((List.range (r.h + 1)).map budgets).length := by
    rw [hregion, length_map, length_range, minBandRows]
    omega
  obtain ⟨hdone, hrepays⟩ := payAll_repays hw hh hfull hsome hmany
  rw [hregion] at hrepays
  exact ⟨r.h + 1, hdone, hrepays.bandsTile⟩

def owing : EgfxUpdates :=
  { EgfxUpdates.new (1920, 1080) 0 0 false with debtRect := some ⟨10, 20, 100, 50⟩ }

theorem owing_repaid :
    ∃ n, (payAll 1920 1080 ((List.range n).map fun k => 1000 * k) owing).2 = settled owing ∧
      BandsTile ⟨10, 20, 100, 50⟩
        (payAll 1920 1080 ((List.range n).map fun k => 1000 * k) owing).1 :=
  debt_repaid (by decide) (by decide) rfl rfl (by decide) fun k => 1000 * k

example : (payAll 1920 1080 [0, 1000, 2000] owing).1 =
    [(⟨10, 20, 100, 16⟩, 0), (⟨10, 36, 100, 16⟩, 1000), (⟨10, 52, 100, 18⟩, 2000)] := by
  decide

end Linrdp.Display.DebtBands
