import Mathlib.Algebra.Order.Ring.Nat

/-!
# Functions that return an option and can panic

Such a function ends with a value, with `None`, or in a panic: at an index that is out of bounds, or
in arithmetic that overflows. `Ends x P` says that `x` does not panic and that a value it returns
satisfies `P`. The rules are for an operation and what is done with its value.
-/

namespace Linrdp.Lib.Panics

inductive Stop
  | none | panic
deriving DecidableEq

abbrev Decoded := Except Stop

/-! ### Operations -/

/-- `if !p { return None; }` -/
def require (p : Prop) [Decidable p] : Decoded Unit := if p then .ok () else .error .none

/-- The result of a `checked_add` or `checked_mul` of `usize`, given the exact one. -/
def checked (n : ℕ) : Decoded ℕ := if n < 2 ^ 64 then .ok n else .error .none

/-- The result of a sum or a product of `usize`, given the exact one. -/
def plain (n : ℕ) : Decoded ℕ := if n < 2 ^ 64 then .ok n else .error .panic

def minus (a b : ℕ) : Decoded ℕ := if b ≤ a then .ok (a - b) else .error .panic

variable {β : Type} (src : List β)

def slice (start stop : ℕ) : Decoded (List β) :=
  if start ≤ stop ∧ stop ≤ src.length then .ok ((src.take stop).drop start) else .error .panic

def index (i : ℕ) : Decoded β := if h : i < src.length then .ok (src[i]) else .error .panic

/-! ### Rules -/

variable {α : Type}

def Ends (x : Decoded α) (P : α → Prop) : Prop :=
  match x with
  | .ok a => P a
  | .error stop => stop = .none

variable {x : Decoded α} {f : α → Decoded β} {P : α → Prop} {Q : β → Prop}

theorem Ends.ne_panic (h : Ends x P) : x ≠ .error .panic := by
  rintro rfl
  cases h

theorem Ends.ok (h : Ends x P) {a : α} (ha : x = .ok a) : P a := by
  subst ha
  exact h

theorem ends_bind (hx : Ends x P) (hf : ∀ a, P a → Ends (f a) Q) : Ends (x >>= f) Q := by
  cases x with
  | ok a => exact hf a hx
  | error stop => exact hx

theorem bind_require {p : Prop} {_ : Decidable p} {f : Unit → Decoded β} (h : p → Ends (f ()) Q) :
    Ends (require p >>= f) Q := by
  unfold require
  split_ifs with hp
  · exact h hp
  · rfl

variable {f : ℕ → Decoded β} {n m : ℕ}

theorem bind_checked (h : n < 2 ^ 64 → Ends (f n) Q) : Ends (checked n >>= f) Q := by
  unfold checked
  split_ifs with hn
  · exact h hn
  · rfl

theorem bind_plain (hn : n < 2 ^ 64) (h : Ends (f n) Q) : Ends (plain n >>= f) Q := by
  rwa [plain, if_pos hn]

theorem bind_minus (hle : m ≤ n) (h : Ends (f (n - m)) Q) : Ends (minus n m >>= f) Q := by
  rwa [minus, if_pos hle]

variable {src : List α} {f : α → Decoded β}

theorem bind_slice {f : List α → Decoded β} (hle : m ≤ n) (hn : n ≤ src.length)
    (h : Ends (f ((src.take n).drop m)) Q) : Ends (slice src m n >>= f) Q := by
  rwa [slice, if_pos ⟨hle, hn⟩]

theorem ends_index (h : n < src.length) (d : α) : Ends (index src n) (· = src.getD n d) := by
  rw [index, dif_pos h]
  exact List.getElem_eq_getD d

theorem ends_mapM {l : List α} {g : α → β} (h : ∀ a ∈ l, Ends (f a) (· = g a)) :
    Ends (l.mapM f) (· = l.map g) := by
  induction l with
  | nil => rfl
  | cons a l ih =>
    rw [List.mapM_cons]
    refine ends_bind (h a List.mem_cons_self) ?_
    rintro _ rfl
    refine ends_bind (ih fun b hb => h b (List.mem_cons_of_mem a hb)) ?_
    rintro _ rfl
    rfl

end Linrdp.Lib.Panics
