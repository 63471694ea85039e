import Mathlib.Data.Set.Basic

/-!
# Programs that act through handles

A program asks an outside system for one call after another; between two calls others may change the
system. A call uses handles, and its answer may give new ones. `Wp K p Q` says that the program,
started with the handles `K`, uses none that it does not have, whatever the answers are. `Confined`
is what it is good for: what is kept by every call and by everybody else holds of every handle when
it is used.
-/

namespace Linrdp.Lib.Handles

inductive Program (C R α : Type*)
  | done (a : α)
  | call (c : C) (k : R → Program C R α)

structure Interface (C R H : Type*) where
  uses : C → Set H
  gives : C → R → Set H

variable {C R H σ α β ε : Type*}

namespace Program

def bind (p : Program C R α) (f : α → Program C R β) : Program C R β :=
  match p with
  | done a => f a
  | call c k => call c fun r => (k r).bind f

def andThen (p : Program C R (Except ε α)) (f : α → Program C R (Except ε β)) :
    Program C R (Except ε β) :=
  p.bind fun
    | .ok a => f a
    | .error e => done (.error e)

variable (hs : Interface C R H)

/-- Started with the handles `K`, the program uses only what it has, and ends in `Q`. -/
def Wp (K : Set H) : Program C R α → (α → Set H → Prop) → Prop
  | done a, Q => Q a K
  | call c k, Q => hs.uses c ⊆ K ∧ ∀ r, Wp (K ∪ hs.gives c r) (k r) Q

variable {hs} {K : Set H}

theorem Wp.mono {p : Program C R α} {Q Q' : α → Set H → Prop} (h : ∀ a K', Q a K' → Q' a K')
    (hp : p.Wp hs K Q) : p.Wp hs K Q' := by
  induction p generalizing K with
  | done a => exact h a K hp
  | call c k ih => exact ⟨hp.1, fun r => ih r (hp.2 r)⟩

theorem wp_call {c : C} {k : R → Program C R α} {Q : α → Set H → Prop} (huses : hs.uses c ⊆ K)
    (h : ∀ r, (k r).Wp hs (K ∪ hs.gives c r) Q) : (call c k).Wp hs K Q := ⟨huses, h⟩

theorem wp_bind {p : Program C R α} {f : α → Program C R β} {Q : β → Set H → Prop} :
    (p.bind f).Wp hs K Q ↔ p.Wp hs K fun a K' => (f a).Wp hs K' Q := by
  induction p generalizing K with
  | done a => exact Iff.rfl
  | call c k ih =>
    constructor
    · exact fun h => ⟨h.1, fun r => (ih r).1 (h.2 r)⟩
    · exact fun h => ⟨h.1, fun r => (ih r).2 (h.2 r)⟩

theorem wp_andThen {p : Program C R (Except ε α)} {f : α → Program C R (Except ε β)}
    {Q : Except ε β → Set H → Prop}
    (h : p.Wp hs K fun result K' => match result with
      | .ok a => (f a).Wp hs K' Q
      | .error e => Q (.error e) K') : (p.andThen f).Wp hs K Q := by
  refine wp_bind.2 (h.mono fun result K' hresult => ?_)
  cases result with
  | ok a | error e => exact hresult

end Program

/-! ### What the handles stand for -/

section

variable {hs : Interface C R H} {Holds : σ → H → Prop}

/-- The program has handles for which `Holds`, and needs no others. -/
def Confined (hs : Interface C R H) (Holds : σ → H → Prop) (s : σ) (p : Program C R α) : Prop :=
  ∃ K : Set H, (∀ h ∈ K, Holds s h) ∧ p.Wp hs K fun _ _ => True

theorem Confined.of_keeps {s s' : σ} {p : Program C R α} (hp : Confined hs Holds s p)
    (hkeeps : ∀ h, Holds s h → Holds s' h) : Confined hs Holds s' p := by
  obtain ⟨K, hK, hwp⟩ := hp
  exact ⟨K, fun h hh => hkeeps h (hK h hh), hwp⟩

theorem Confined.uses {s : σ} {c : C} {k : R → Program C R α} (hp : Confined hs Holds s (.call c k))
    : ∀ h ∈ hs.uses c, Holds s h := by
  obtain ⟨K, hK, huses, -⟩ := hp
  exact fun h hh => hK h (huses hh)

/-- **A call.** What its answer gives has to hold afterwards. -/
theorem Confined.call {s s' : σ} {c : C} {k : R → Program C R α} {r : R}
    (hp : Confined hs Holds s (.call c k)) (hkeeps : ∀ h, Holds s h → Holds s' h)
    (hgives : ∀ h ∈ hs.gives c r, Holds s' h) : Confined hs Holds s' (k r) := by
  obtain ⟨K, hK, -, hwp⟩ := hp
  refine ⟨K ∪ hs.gives c r, ?_, hwp r⟩
  rintro h (hh | hh)
  · exact hkeeps h (hK h hh)
  · exact hgives h hh

end

end Linrdp.Lib.Handles
