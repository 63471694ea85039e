import Mathlib.Data.List.Basic
import Mathlib.Data.List.Induction

/-!
# Runs of a machine and what holds along them

A machine is a function `step : σ → ι → σ`. Everything the machine does not decide by itself (a
clock, an answer of another process, a scheduler's choice) is part of the input, so a statement
about every list of inputs is a statement about every run.

* `Along step C s is`: every step of the run meets `C`, a relation between the state before the step
  and its input. It serves as a condition on a run and as a property of it.
* `Along.mono_inv` is the one induction: an invariant that the steps meeting `C` keep, and under
  which `C` gives `Q`, turns `Along C` into `Along Q`. `Along.inv_run` is the same for the state
  reached.
* `along_iff_run` is the induction for a condition that is exact.
* `Sometime step Q s is`: some step of the run meets `Q`. `run_history` is the induction for an
  invariant that refers to what has happened.
-/

namespace Linrdp.Lib.Runs

open List

variable {σ ι : Type*}

def run (step : σ → ι → σ) (s : σ) (is : List ι) : σ := is.foldl step s

@[simp] theorem run_nil (step : σ → ι → σ) (s : σ) : run step s [] = s := rfl

@[simp] theorem run_cons (step : σ → ι → σ) (s : σ) (i : ι) (is : List ι) :
    run step s (i :: is) = run step (step s i) is := rfl

theorem run_append (step : σ → ι → σ) (s : σ) (is js : List ι) :
    run step s (is ++ js) = run step (run step s is) js := foldl_append

def stateAt (step : σ → ι → σ) (s : σ) (is : List ι) (n : ℕ) : σ := run step s (is.take n)

@[simp] theorem stateAt_zero (step : σ → ι → σ) (s : σ) (is : List ι) : stateAt step s is 0 = s :=
    rfl

theorem stateAt_succ (step : σ → ι → σ) (s : σ) {is : List ι} {n : ℕ} {i : ι} (h : is[n]? = some i)
    : stateAt step s is (n + 1) = step (stateAt step s is n) i := by
  unfold stateAt run
  rw [take_add_one, h, Option.toList_some, foldl_append, foldl_cons, foldl_nil]

theorem stateAt_succ_none (step : σ → ι → σ) (s : σ) {is : List ι} {n : ℕ} (h : is[n]? = none) :
    stateAt step s is (n + 1) = stateAt step s is n := by
  unfold stateAt
  rw [take_add_one, h, Option.toList_none, append_nil]

def Along (step : σ → ι → σ) (C : σ → ι → Prop) : σ → List ι → Prop
  | _, [] => True
  | s, i :: is => C s i ∧ Along step C (step s i) is

section along

variable {step : σ → ι → σ} {C Q : σ → ι → Prop} {I : σ → Prop}

@[simp] theorem along_nil (s : σ) : Along step C s [] := trivial

@[simp] theorem along_cons (s : σ) (i : ι) (is : List ι) :
    Along step C s (i :: is) ↔ C s i ∧ Along step C (step s i) is := Iff.rfl

theorem along_append (is js : List ι) (s : σ) :
    Along step C s (is ++ js) ↔ Along step C s is ∧ Along step C (run step s is) js := by
  induction is generalizing s with
  | nil => simp
  | cons i is ih => rw [cons_append, along_cons, along_cons, ih, run_cons, and_assoc]

theorem along_iff_forall {is : List ι} {s : σ} :
    Along step C s is ↔ ∀ before i after, is = before ++ i :: after → C (run step s before) i := by
  constructor
  · rintro h before i after rfl
    rw [along_append, along_cons] at h
    exact h.2.1
  · intro h
    induction is generalizing s with
    | nil => exact along_nil s
    | cons i is ih =>
      rw [along_cons]
      refine ⟨h [] i is rfl, ih fun before j after his => ?_⟩
      exact h (i :: before) j after (by rw [his]; rfl)

theorem along_of_forall {D : ι → Prop} {is : List ι} {s : σ} (h : ∀ i ∈ is, D i) :
    Along step (fun _ i => D i) s is := by
  induction is generalizing s with
  | nil => exact along_nil s
  | cons i is ih => exact ⟨h i mem_cons_self, ih fun j hj => h j (mem_cons_of_mem i hj)⟩

/-- **The induction over a run.** -/
theorem Along.mono_inv (hI : ∀ s i, I s → C s i → I (step s i))
    (hQ : ∀ s i, I s → C s i → Q s i) {is : List ι} {s : σ} (hs : I s) (h : Along step C s is) :
    Along step Q s is := by
  induction is generalizing s with
  | nil => exact along_nil s
  | cons i is ih =>
    obtain ⟨hc, hr⟩ := h
    exact ⟨hQ s i hs hc, ih (hI s i hs hc) hr⟩

theorem Along.congr {is : List ι} {s : σ} (h : Along step (fun s i => C s i ↔ Q s i) s is) :
    Along step C s is ↔ Along step Q s is := by
  induction is generalizing s with
  | nil => exact Iff.rfl
  | cons i is ih => exact and_congr h.1 (ih h.2)

theorem along_congr (h : ∀ s i, C s i ↔ Q s i) (s : σ) (is : List ι) :
    Along step C s is ↔ Along step Q s is := by
  obtain rfl : C = Q := funext₂ fun s i => propext (h s i)
  rfl

/-- What every step keeps holds at the end of every run. -/
theorem run_inv (hI : ∀ s i, I s → I (step s i)) {s : σ} (hs : I s) (is : List ι) :
    I (run step s is) := by
  induction is generalizing s with
  | nil => exact hs
  | cons i is ih => exact ih (hI s i hs)

theorem Along.inv_run (hI : ∀ s i, I s → C s i → I (step s i)) {is : List ι} {s : σ}
    (hs : I s) (h : Along step C s is) : I (run step s is) := by
  induction is generalizing s with
  | nil => exact hs
  | cons i is ih =>
    obtain ⟨hc, hr⟩ := h
    exact ih (hI s i hs hc) hr

theorem Along.inv_prefix (hI : ∀ s i, I s → C s i → I (step s i)) {is pre : List ι} {s : σ}
    (hs : I s) (h : Along step C s is) (hp : pre <+: is) : I (run step s pre) := by
  obtain ⟨post, rfl⟩ := hp
  exact Along.inv_run hI hs ((along_append pre post s).1 h).1

/-- **When a condition is exact.** If a step from a good state ends in a good state exactly when it
meets `C`, then the runs whose steps all meet `C` are those that stay in good states. -/
theorem along_iff_run {G : σ → Prop} (hI : ∀ s i, I s → G s → I (step s i))
    (hC : ∀ s i, I s → G s → (C s i ↔ G (step s i))) {is : List ι} {s : σ} (hs : I s) (hg : G s) :
    Along step C s is ↔ ∀ pre, pre <+: is → G (run step s pre) := by
  induction is generalizing s with
  | nil =>
    simp only [along_nil, prefix_nil, forall_eq, run_nil, true_iff]
    exact hg
  | cons i is ih =>
    rw [along_cons, hC s i hs hg]
    constructor
    · rintro ⟨hstep, hrest⟩ pre hpre
      rcases pre with _ | ⟨j, pre⟩
      · exact hg
      · obtain ⟨rfl, htail⟩ := cons_prefix_cons.1 hpre
        exact (ih (hI s _ hs hg) hstep).1 hrest pre htail
    · intro h
      have hstep : G (step s i) := h [i] (by simp)
      refine ⟨hstep, (ih (hI s i hs hg) hstep).2 fun pre hpre => ?_⟩
      exact h (i :: pre) (cons_prefix_cons.2 ⟨rfl, hpre⟩)

theorem along_iff_along {D : σ → ι → Prop}
    (hI : ∀ s i, I s → D s i → (C s i ↔ Q s i) ∧ (C s i → I (step s i)))
    {is : List ι} {s : σ} (hs : I s) (hD : Along step D s is) :
    Along step C s is ↔ Along step Q s is := by
  induction is generalizing s with
  | nil => exact Iff.rfl
  | cons i is ih =>
    obtain ⟨hiff, hnext⟩ := hI s i hs hD.1
    rw [along_cons, along_cons, ← hiff]
    exact and_congr_right fun h => ih (hnext h) hD.2

def Sometime (step : σ → ι → σ) (Q : σ → ι → Prop) (s : σ) (is : List ι) : Prop :=
  ∃ before i after, is = before ++ i :: after ∧ Q (run step s before) i

theorem not_sometime_nil (s : σ) : ¬Sometime step Q s [] := by
  rintro ⟨before, i, after, h, -⟩
  simp at h

theorem sometime_snoc (s : σ) (is : List ι) (i : ι) :
    Sometime step Q s (is ++ [i]) ↔ Sometime step Q s is ∨ Q (run step s is) i := by
  constructor
  · rintro ⟨before, j, after, h, hQ⟩
    rcases eq_nil_or_concat after with rfl | ⟨after, last, rfl⟩
    · obtain ⟨rfl, hlast⟩ := append_inj' h rfl
      obtain rfl : i = j := by simpa using hlast
      exact .inr hQ
    · rw [concat_eq_append, ← cons_append, ← append_assoc] at h
      exact .inl ⟨before, j, after, (append_inj' h rfl).1, hQ⟩
  · rintro (⟨before, j, after, rfl, hQ⟩ | hQ)
    · exact ⟨before, j, after ++ [i], by simp, hQ⟩
    · exact ⟨is, i, [], rfl, hQ⟩

theorem run_history {H : List ι → σ → Prop} {s : σ} (hs : H [] s)
    (hH : ∀ is i, H is (run step s is) → H (is ++ [i]) (step (run step s is) i)) (is : List ι) :
    H is (run step s is) := by
  induction is using reverseRecOn with
  | nil => exact hs
  | append_singleton is i ih =>
    rw [run_append, run_cons, run_nil]
    exact hH is i ih

end along

/-! ### A log of what happened -/

section log

variable {log : List ι} {i j : ι} {n : ℕ}

theorem getElem?_append_of_eq_some (h : log[n]? = some i) (new : List ι) :
    (log ++ new)[n]? = some i := by
  rw [getElem?_append_left (List.getElem?_eq_some_iff.1 h).1, h]

theorem getElem?_concat_cases (h : (log ++ [j])[n]? = some i) :
    (n = log.length ∧ i = j) ∨ (n < log.length ∧ log[n]? = some i) := by
  rw [getElem?_append, getElem?_singleton] at h
  split_ifs at h with hlt hlast
  · exact .inr ⟨hlt, h⟩
  · exact .inl ⟨by omega, (Option.some.inj h).symm⟩

end log

end Linrdp.Lib.Runs
