import Mathlib.Data.List.TakeWhile
import Mathlib.Algebra.BigOperators.Group.List.Basic
import Mathlib.Algebra.Order.Ring.Nat

/-!
# Run-length coding

`runs` takes a list apart into runs of equal elements, each as long as it goes, and `expand` puts
runs back together. `expand_runs` is the round trip; that no run is empty (`runs_pos`) and that the
lengths add up to the length of the list (`sum_runs`) is what bounds a coding of the runs.
-/

namespace Linrdp.Lib.RunLength

open List

variable {α : Type*}

def expand (rs : List (α × ℕ)) : List α := rs.flatMap fun r => List.replicate r.2 r.1

theorem length_expand (rs : List (α × ℕ)) : (expand rs).length = (rs.map Prod.snd).sum := by
  simp [expand, length_flatMap]

section

variable [DecidableEq α]

def runs : List α → List (α × ℕ)
  | [] => []
  | a :: as => (a, (as.takeWhile (· = a)).length + 1) :: runs (as.dropWhile (· = a))
termination_by as => as.length
decreasing_by
  rw [List.length_cons]
  exact Nat.lt_succ_of_le (List.length_dropWhile_le _ _)

theorem takeWhile_eq_replicate (a : α) (as : List α) :
    as.takeWhile (· = a) = List.replicate (as.takeWhile (· = a)).length a := by
  rw [eq_replicate_iff]
  exact ⟨rfl, fun b hb => by simpa using mem_takeWhile_imp hb⟩

theorem expand_runs (as : List α) : expand (runs as) = as := by
  induction as using runs.induct with
  | case1 =>
    rw [runs]
    rfl
  | case2 a as ih =>
    calc expand (runs (a :: as))
        = replicate ((as.takeWhile (· = a)).length + 1) a ++
            expand (runs (as.dropWhile (· = a))) := by
          rw [runs]
          rfl
      _ = a :: (as.takeWhile (· = a) ++ as.dropWhile (· = a)) := by
          rw [ih, replicate_succ, cons_append, ← takeWhile_eq_replicate]
      _ = a :: as := by rw [takeWhile_append_dropWhile]

theorem sum_runs (as : List α) : ((runs as).map Prod.snd).sum = as.length := by
  rw [← length_expand, expand_runs]

theorem runs_pos {as : List α} {r : α × ℕ} (h : r ∈ runs as) : 0 < r.2 := by
  induction as using runs.induct with
  | case1 =>
    rw [runs] at h
    cases h
  | case2 a as ih =>
    rw [runs, mem_cons] at h
    rcases h with rfl | h
    · exact Nat.succ_pos _
    · exact ih h

end

end Linrdp.Lib.RunLength
