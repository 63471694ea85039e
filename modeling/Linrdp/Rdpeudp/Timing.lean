import Mathlib.Algebra.Order.Ring.Nat

/-!
# Time, timers and the retransmission timeout

`MonotonicInstant` of `ironrdp-core` (milliseconds, saturating), the round-trip estimator of
`rtt.rs` (durations in nanoseconds) and the four timers of `timer.rs`. The estimator scales a
duration with `Duration::mul_f64`; how that rounds is left to the instance `MulF64`.
-/

namespace Linrdp.Rdpeudp.Timing

/-! ### Instants and durations -/

def fromMillis (ms : ℕ) : ℕ := ms * 1000000

/-- `now + duration`, no later than the end of the representable range. -/
def advance (now duration : ℕ) : ℕ := min (now + duration / 1000000) (2 ^ 64 - 1)

def durationSince (now earlier : ℕ) : ℕ := fromMillis (now - earlier)

/-- `Duration::mul_f64` with the factor `n / m`. -/
class MulF64 where
  mulF64 : (duration n m : ℕ) → ℕ

/-! ### The estimator -/

def minRto : ℕ := fromMillis 100

def maxRto : ℕ := fromMillis 16000

def initialRto : ℕ := fromMillis 1000

structure RttEstimator where
  srtt : Option ℕ
  (rttvar rto : ℕ)

namespace RttEstimator

def new : RttEstimator := ⟨none, 0, initialRto⟩

variable (r : RttEstimator)

def recomputeRto : RttEstimator :=
  match r.srtt with
  | none => r
  | some srtt => { r with rto := min (max (srtt + max (r.rttvar * 4) (fromMillis 1)) minRto) maxRto
      }

def update [MulF64] (r : RttEstimator) (rtt : ℕ) : RttEstimator :=
  match r.srtt with
  | none => recomputeRto { r with srtt := some rtt, rttvar := rtt / 2 }
  | some srtt =>
    let absDiff := max srtt rtt - min srtt rtt
    recomputeRto { r with
      rttvar := MulF64.mulF64 r.rttvar 3 4 + absDiff / 4
      srtt := some (MulF64.mulF64 srtt 7 8 + rtt / 8) }

def onTimeout : RttEstimator := { r with rto := min (r.rto * 2) maxRto }

def resetBackoff : RttEstimator := r.recomputeRto

end RttEstimator

/-! ### The timers -/

inductive Timer
  | retransmit | ackDelay | idle | keepAlive
deriving DecidableEq

def Timer.all : List Timer := [.retransmit, .ackDelay, .idle, .keepAlive]

structure TimerTable where
  deadlines : Timer → Option ℕ

namespace TimerTable

def new : TimerTable := ⟨fun _ => none⟩

variable (t : TimerTable)

variable (timer : Timer)

def set (deadline : ℕ) : TimerTable :=
  ⟨fun other => if other = timer then some deadline else t.deadlines other⟩

def clear : TimerTable := ⟨fun other => if other = timer then none else t.deadlines other⟩

def isSet : Bool := (t.deadlines timer).isSome

def expired (now : ℕ) : List Timer :=
  Timer.all.filter fun timer => (t.deadlines timer).any (· ≤ now)

end TimerTable

end Linrdp.Rdpeudp.Timing
