import Mathlib.Algebra.Order.Ring.Nat
import Mathlib.Data.List.Range

/-!
# Loops whose counter is a machine word

`whileBelow step modulus stop body` is `while i < stop { body; i += step }` with a counter kept
modulo `modulus` and fuel for its turns. The outer `none` of a result is spent fuel, the inner one a
body that stopped. A counter that passes `stop` before it wraps visits the multiples of `step` below
`stop` (`whileBelow_range`); one that wraps before never comes to an end (`whileBelow_spent`).
-/

namespace Linrdp.Lib.Loops

open List

variable {σ : Type*}

def whileBelow (step modulus stop : ℕ) (body : ℕ → σ → Option (Option σ)) :
    ℕ → ℕ → σ → Option (Option σ)
  | 0, _, _ => none
  | fuel + 1, i, s =>
    if i < stop then
      match body i s with
      | none => none
      | some none => some none
      | some (some s) => whileBelow step modulus stop body fuel ((i + step) % modulus) s
    else some (some s)

variable {step modulus stop : ℕ} {body : ℕ → σ → Option (Option σ)}

section

variable {n : ℕ} (hn : stop ≤ n * step) (hbelow : ∀ k < n, k * step < stop)
  (hwrap : n * step < modulus) (f : σ → ℕ → Option σ)
  (hbody : ∀ k < n, ∀ s, body (k * step) s = some (f s k))
include hn hbelow hwrap hbody

theorem whileBelow_multiples {fuel k : ℕ} (hk : k ≤ n) (hfuel : n < k + fuel) (s : σ) :
    whileBelow step modulus stop body fuel (k * step) s =
      some ((List.range' k (n - k)).foldlM f s) := by
  induction fuel generalizing k s with
  | zero => omega
  | succ fuel ih =>
    unfold whileBelow
    rcases Nat.lt_or_eq_of_le hk with hlt | rfl
    · have hnext : (k * step + step) % modulus = (k + 1) * step := by
        have hle : (k + 1) * step ≤ n * step := Nat.mul_le_mul_right step hlt
        rw [Nat.add_mul, Nat.one_mul] at hle ⊢
        exact Nat.mod_eq_of_lt (by omega)
      have hrange : range' k (n - k) = k :: range' (k + 1) (n - (k + 1)) := by
        rw [← range'_succ]
        congr 1
        omega
      rw [if_pos (hbelow k hlt), hbody k hlt, hrange, foldlM_cons, hnext]
      cases f s k with
      | none => rfl
      | some s' => exact ih hlt (by omega) s'
    · rw [if_neg (by omega), Nat.sub_self]
      rfl

theorem whileBelow_range {fuel : ℕ} (hfuel : n < fuel) (s : σ) :
    whileBelow step modulus stop body fuel 0 s = some ((List.range n).foldlM f s) := by
  have hloop := whileBelow_multiples hn hbelow hwrap f hbody (Nat.zero_le n)
    (show n < 0 + fuel by omega) s
  rwa [Nat.zero_mul, Nat.sub_zero, ← range_eq_range'] at hloop

end

theorem whileBelow_ne_stopped (hbody : ∀ i s, i < stop → body i s ≠ some none) (fuel i : ℕ)
    (s : σ) : whileBelow step modulus stop body fuel i s ≠ some none := by
  induction fuel generalizing i s with
  | zero => simp [whileBelow]
  | succ fuel ih =>
    unfold whileBelow
    by_cases hlt : i < stop
    · rw [if_pos hlt]
      cases hresult : body i s with
      | none => simp
      | some result =>
        cases result with
        | none => exact absurd hresult (hbody i s hlt)
        | some s' => exact ih _ s'
    · simp [hlt]

theorem whileBelow_spent (hdvd : step ∣ modulus) (hstop : modulus < stop + step)
    (hbody : ∀ i s, i < stop → body i s ≠ some none) (fuel : ℕ) {i : ℕ} (hi : step ∣ i)
    (hlt : i < modulus) (s : σ) :
    whileBelow step modulus stop body fuel i s = none := by
  induction fuel generalizing i s with
  | zero => rfl
  | succ fuel ih =>
    have hbelow : i < stop := by
      -- a multiple of `step` below `modulus` is at least a step below it
      obtain ⟨m, rfl⟩ := hdvd
      obtain ⟨k, rfl⟩ := hi
      have hkm : k + 1 ≤ m := Nat.lt_of_mul_lt_mul_left hlt
      have hle : step * (k + 1) ≤ step * m := Nat.mul_le_mul_left step hkm
      rw [Nat.mul_succ] at hle
      omega
    unfold whileBelow
    rw [if_pos hbelow]
    cases hresult : body i s with
    | none => rfl
    | some result =>
      cases result with
      | none => exact absurd hresult (hbody i s hbelow)
      | some s' =>
        have hpos : 0 < modulus := by omega
        exact ih ((Nat.dvd_mod_iff hdvd).2 (Nat.dvd_add hi (Nat.dvd_refl step)))
          (Nat.mod_lt _ hpos) s'

end Linrdp.Lib.Loops
