import Mathlib.Algebra.Order.Ring.Nat

/-!
# Sequence numbers and timestamps of RDP-UDP

`ironrdp-rdpeudp/src/seq.rs`. An endpoint counts in 64 bits and puts 16 on the wire (24 for a
timestamp); the other end takes the full number nearest to a reference of its own, which gives the
number back as long as it is less than `0x8000` from the reference (`reconstruct_truncate`). Channel
numbers leave out those whose 16 bits are zero; `chunkSeq i` is the number of the `i`-th chunk.
-/

namespace Linrdp.Rdpeudp.Seq

def reconstructSeq (wireSeq : UInt16) (reference : ℕ) : ℕ :=
  let high := reference - reference % 0x10000
  let candidate := high + wireSeq.toNat
  if candidate > reference then
    if candidate - reference > 0x8000 ∧ candidate ≥ 0x10000 then candidate - 0x10000 else candidate
  else if reference - candidate > 0x8000 then candidate + 0x10000
  else candidate

/-- `reconstruct_seq` in the arithmetic of `u64`; `none` if the sum overflows. -/
def reconstructSeqU64 (wireSeq : UInt16) (reference : UInt64) : Option UInt64 :=
  let high := reference &&& ~~~0xFFFF
  let candidate := high ||| wireSeq.toUInt64
  if candidate > reference then
    if candidate - reference > 0x8000 ∧ candidate ≥ 0x10000 then some (candidate - 0x10000)
    else some candidate
  else if reference - candidate > 0x8000 then
    if candidate.toNat + 0x10000 < 2 ^ 64 then some (candidate + 0x10000) else none
  else some candidate

/-- The number after this one, past every number that is zero on the wire. -/
def nextChannelSeq (channelSeq : ℕ) : ℕ :=
  if (channelSeq + 1) % 0x10000 = 0 then channelSeq + 2 else channelSeq + 1

variable (full : ℕ)

def truncateSeq : UInt16 := UInt16.ofNat full

def timestampWrap : ℕ := 2 ^ 24

def reconstructTimestamp (wireTs : UInt32) (reference : ℕ) : ℕ :=
  let wire := wireTs.toNat % timestampWrap
  let high := reference - reference % timestampWrap
  let candidate := high + wire
  if candidate > reference then
    if candidate - reference > timestampWrap / 2 ∧ candidate ≥ timestampWrap then
      candidate - timestampWrap
    else candidate
  else if reference - candidate > timestampWrap / 2 then candidate + timestampWrap
  else candidate

def truncateTimestamp : UInt32 := UInt32.ofNat (full % timestampWrap)

def usToTimestampUnits (us : ℕ) : ℕ := us / 4

@[simp] theorem toNat_truncateSeq : (truncateSeq full).toNat = full % 0x10000 := by
  rw [truncateSeq, UInt16.toNat_ofNat']

theorem toNat_truncateTimestamp : (truncateTimestamp full).toNat < 2 ^ 24 := by
  rw [truncateTimestamp, timestampWrap, UInt32.toNat_ofNat']
  omega

/-- **A number near the reference comes back.** -/
theorem reconstruct_truncate {full reference : ℕ} (hahead : full < reference + 0x8000)
    (hbehind : reference < full + 0x8000) : reconstructSeq (truncateSeq full) reference = full := by
  simp only [reconstructSeq, toNat_truncateSeq]
  split_ifs <;> omega

theorem toNat_candidate (wire : UInt16) (reference : UInt64) :
    (reference &&& ~~~0xFFFF ||| wire.toUInt64).toNat =
      reference.toNat - reference.toNat % 0x10000 + wire.toNat := by
  have hmask : (~~~0xFFFF : UInt64).toNat = 2 ^ 16 * (2 ^ 48 - 1) := rfl
  have hdiv := Nat.and_div_two_pow (a := reference.toNat) (b := 2 ^ 16 * (2 ^ 48 - 1)) (n := 16)
  have hmod := Nat.and_mod_two_pow (a := reference.toNat) (b := 2 ^ 16 * (2 ^ 48 - 1)) (n := 16)
  rw [Nat.mul_div_cancel_left _ (by decide), Nat.and_two_pow_sub_one_eq_mod] at hdiv
  rw [Nat.mul_mod_right, Nat.and_zero] at hmod
  have hlt := reference.toNat_lt
  have hhigh : (reference &&& ~~~0xFFFF).toNat = 2 ^ 16 * (reference.toNat / 2 ^ 16) := by
    rw [UInt64.toNat_and, hmask]
    omega
  rw [UInt64.toNat_or, hhigh, UInt16.toNat_toUInt64, ← Nat.two_pow_add_eq_or_of_lt wire.toNat_lt]
  omega

theorem map_reconstructSeqU64 {wire : UInt16} {reference : UInt64}
    (hlt : reconstructSeq wire reference.toNat < 2 ^ 64) :
    (reconstructSeqU64 wire reference).map UInt64.toNat =
      some (reconstructSeq wire reference.toNat) := by
  simp only [reconstructSeq, ← toNat_candidate] at hlt ⊢
  simp only [reconstructSeqU64]
  generalize reference &&& ~~~0xFFFF ||| wire.toUInt64 = candidate at *
  have hcandidate := candidate.toNat_lt
  have hreference := reference.toNat_lt
  simp only [gt_iff_lt, ge_iff_le, UInt64.lt_iff_toNat_lt, UInt64.le_iff_toNat_le, UInt64.toNat_sub,
    UInt64.toNat_ofNat]
  split_ifs at hlt ⊢ <;>
    simp only [Option.map_some, Option.map_none, reduceCtorEq, Option.some.injEq, UInt64.toNat_sub,
      UInt64.toNat_add, UInt64.toNat_ofNat] <;>
    omega

/-- **Every `u64` less than `0x8000` from the reference comes back, and no step overflows.** -/
theorem reconstructSeqU64_truncate {full reference : UInt64}
    (hahead : full.toNat < reference.toNat + 0x8000)
    (hbehind : reference.toNat < full.toNat + 0x8000) :
    reconstructSeqU64 (truncateSeq full.toNat) reference = some full := by
  have hfull := reconstruct_truncate hahead hbehind
  have hmap := map_reconstructSeqU64 (hfull ▸ full.toNat_lt)
  rw [hfull] at hmap
  obtain ⟨n, hn, hnat⟩ := Option.map_eq_some_iff.1 hmap
  rw [hn, UInt64.toNat_inj.1 hnat]

theorem reconstructSeqU64_truncate_wrap :
    reconstructSeqU64 (truncateSeq (UInt64.toNat 0x10000)) 0x8001 = some 0x10000 :=
  reconstructSeqU64_truncate (by decide) (by decide)

theorem reconstruct_near {full reference : ℕ} (hbehind : reference < full + 0x8000)
    (hahead : full < reference + 0x10000) :
    reconstructSeq (truncateSeq full) reference = full ∨
      reconstructSeq (truncateSeq full) reference < reference := by
  simp only [reconstructSeq, toNat_truncateSeq]
  split_ifs <;> omega

/-! ### The numbers of the chunks -/

/-- The channel number of chunk `i`, counted from zero: every turn of the 16 bits has one number
less. -/
def chunkSeq (i : ℕ) : ℕ := i + 1 + i / 0xFFFF

theorem nextChannelSeq_chunkSeq (i : ℕ) : nextChannelSeq (chunkSeq i) = chunkSeq (i + 1) := by
  unfold nextChannelSeq chunkSeq
  split_ifs <;> omega

theorem chunkSeq_strictMono : StrictMono chunkSeq := by
  intro i j hij
  have hdiv := Nat.div_le_div_right (c := 0xFFFF) hij.le
  unfold chunkSeq
  omega

end Linrdp.Rdpeudp.Seq
