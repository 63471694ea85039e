import Mathlib.Data.List.Basic
import Mathlib.Tactic.Ring

/-!
# Numbers as little-endian bytes

`toLe w n` writes `n` as `w` bytes, least significant first, `ofLe` reads bytes back, and `readLe w`
takes a number of `w` bytes off a list. What a reader gets from what a writer put in front of other
bytes is `readLe_toLe_append`; a parser that takes fields off one after another needs no other fact.
-/

namespace Linrdp.Lib.Bytes

def toLe : ℕ → ℕ → List UInt8
  | 0, _ => []
  | w + 1, n => UInt8.ofNat n :: toLe w (n / 256)

def ofLe : List UInt8 → ℕ
  | [] => 0
  | b :: bs => b.toNat + 256 * ofLe bs

/-- Take a number of `w` bytes off; `none` if there are too few. -/
def readLe (w : ℕ) (bs : List UInt8) : Option (ℕ × List UInt8) :=
  if w ≤ bs.length then some (ofLe (bs.take w), bs.drop w) else none

@[simp] theorem length_toLe (w n : ℕ) : (toLe w n).length = w := by
  induction w generalizing n with
  | zero => rfl
  | succ w ih => rw [toLe, List.length_cons, ih]

theorem ofLe_toLe_mod (w n : ℕ) : ofLe (toLe w n) = n % 256 ^ w := by
  induction w generalizing n with
  | zero => simp [toLe, ofLe, Nat.mod_one]
  | succ w ih =>
    rw [toLe, ofLe, ih, UInt8.toNat_ofNat', pow_succ' 256 w, Nat.mod_mul]

theorem ofLe_toLe {w n : ℕ} (h : n < 256 ^ w) : ofLe (toLe w n) = n := by
  rw [ofLe_toLe_mod, Nat.mod_eq_of_lt h]

theorem readLe_toLe_append {w n : ℕ} (h : n < 256 ^ w) (rest : List UInt8) :
    readLe w (toLe w n ++ rest) = some (n, rest) := by
  have hlen := length_toLe w n
  rw [readLe, if_pos (by simp), List.take_left' hlen, List.drop_left' hlen, ofLe_toLe h]

end Linrdp.Lib.Bytes
