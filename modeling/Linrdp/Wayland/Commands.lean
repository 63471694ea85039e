import Linrdp.Lib.Runs

/-!
# The command loop of the Mutter thread

`serve_commands` of `wayland/mutter.rs` carries out the queued commands in order, and of a run of
absolute pointer motions only the last. More commands can arrive between any two looks at the queue,
so each `recv` and each `try_recv` is a turn of its own.
-/

namespace Linrdp.Wayland.Commands

open List Lib.Runs

inductive InputCall
  | keycode (code : UInt32) (pressed : Bool)
  | keysym (sym : UInt32) (pressed : Bool)
  | motion (x y : Float)
  | relativeMotion (x y : Float)
  | button (button : Int32) (pressed : Bool)
  | axis (axis : UInt32) (steps : Int32)

/-- What an answer is sent to is a number. -/
inductive Command
  | input (call : InputCall)
  | lock (done : ℕ)
  | resize (width height : UInt32)
  | readClipboard (mime : String) (reply : ℕ)
  | publishClipboard (targets : List (String × List UInt8))

abbrev motion (x y : Float) : Command := .input (.motion x y)

/-- Where the loop is: `pending` is empty in the coalescing loop, which holds the latest motion. -/
inductive Loop
  | top (pending : Option Command)
  | coalescing (x y : Float)

structure Serving where
  (queue carried : List Command)
  loop : Loop

namespace Serving

variable (s : Serving)

def take (queue : List Command) : Command → Serving
  | .input (.motion x y) => { s with queue, loop := .coalescing x y }
  | command => ⟨queue, s.carried ++ [command], .top none⟩

/-- As far as the next look at the queue. At the top an empty queue is waited for. -/
def serve : Serving :=
  match s.loop, s.queue with
  | .top (some command), queue => s.take queue command
  | .top none, command :: queue => s.take queue command
  | .top none, [] => s
  | .coalescing _ _, .input (.motion x y) :: queue => { s with queue, loop := .coalescing x y }
  | .coalescing x y, other :: queue => ⟨queue, s.carried ++ [motion x y], .top (some other)⟩
  | .coalescing x y, [] => ⟨[], s.carried ++ [motion x y], .top none⟩

/-- The commands not looked at. -/
def ahead : List Command :=
  match s.loop with
  | .top pending => pending.toList ++ s.queue
  | .coalescing _ _ => s.queue

/-- The commands carried out, with the motion that is held. -/
def done : List Command :=
  match s.loop with
  | .top _ => s.carried
  | .coalescing x y => s.carried ++ [motion x y]

/-- The turns that the commands at hand take at most. -/
def turns : ℕ :=
  match s.loop with
  | .top _ => 2 * s.ahead.length
  | .coalescing _ _ => 2 * s.ahead.length + 1

end Serving

inductive Event
  | arrive (command : Command)
  | turn

def step (s : Serving) : Event → Serving
  | .arrive command => { s with queue := s.queue ++ [command] }
  | .turn => s.serve

def queued (events : List Event) : List Command :=
  events.filterMap fun
    | .arrive command => some command
    | .turn => none

/-- Some motions are left out, each where the next command carried out is a motion. -/
inductive Coalesces : List Command → List Command → Prop
  | nil : Coalesces [] []
  | carry (c : Command) {qs cs : List Command} : Coalesces qs cs → Coalesces (c :: qs) (c :: cs)
  | leave (x y x' y' : Float) {qs cs : List Command} :
    Coalesces qs (motion x' y' :: cs) → Coalesces (motion x y :: qs) (motion x' y' :: cs)

variable {qs cs : List Command} {s : Serving}

theorem Coalesces.snoc (h : Coalesces qs cs) (c : Command) : Coalesces (qs ++ [c]) (cs ++ [c]) := by
  induction h with
  | nil => exact .carry c .nil
  | carry d _ ih => exact .carry d ih
  | leave x y x' y' _ ih => exact .leave x y x' y' ih

/-- A later motion takes the place of the last. -/
theorem Coalesces.later {x y : Float} (h : Coalesces qs (cs ++ [motion x y])) (x' y' : Float) :
    Coalesces (qs ++ [motion x' y']) (cs ++ [motion x' y']) := by
  generalize hcs : cs ++ [motion x y] = carried at h
  induction h generalizing cs with
  | nil => simp at hcs
  | carry c h ih =>
    rcases cs with _ | ⟨d, cs⟩ <;> obtain ⟨rfl, rfl⟩ := cons_eq_cons.1 hcs
    · cases h
      exact .leave x y x' y' (.carry _ .nil)
    · exact .carry d (ih rfl)
  | leave xl yl xn yn _ ih =>
    rcases cs with _ | ⟨d, cs⟩
    · exact .leave xl yl x' y' (ih hcs)
    · obtain ⟨rfl, -⟩ := cons_eq_cons.1 hcs
      exact .leave xl yl xn yn (ih hcs)

/-- What was taken off the queue is carried out or held, and `n` turns are enough for the rest. -/
def Inv (arrived : List Command) (n : ℕ) (s : Serving) : Prop :=
  s.turns ≤ n ∧ ∃ taken, arrived = taken ++ s.ahead ∧ Coalesces taken s.done

variable {arrived : List Command} {n : ℕ}

theorem inv_take {rest : List Command} {c : Command} (hnext : s.ahead = c :: rest)
    (htop : s.turns = 2 * s.ahead.length ∧ s.done = s.carried) (h : Inv arrived n s) :
    Inv arrived (n - 1) (s.take rest c) := by
  obtain ⟨hn, taken, rfl, h⟩ := h
  rw [htop.1, hnext, length_cons] at hn
  rw [hnext, append_cons]
  rw [htop.2] at h
  unfold Serving.take
  split
  · exact ⟨Nat.le_sub_one_of_lt hn, _, rfl, h.snoc _⟩
  · exact ⟨Nat.le_of_succ_le (Nat.le_sub_one_of_lt hn), _, rfl, h.snoc _⟩

theorem inv_serve (h : Inv arrived n s) : Inv arrived (n - 1) s.serve := by
  obtain ⟨queue, carried, ⟨_ | c⟩ | ⟨x, y⟩⟩ := s
  · rcases queue with _ | ⟨c, queue⟩
    · exact ⟨Nat.zero_le _, h.2⟩
    · exact inv_take rfl ⟨rfl, rfl⟩ h
  · exact inv_take rfl ⟨rfl, rfl⟩ h
  · -- the held motion makes way for a later one, or is carried out
    obtain ⟨hn, taken, rfl, h⟩ := h
    have hturns : 2 * queue.length ≤ n - 1 := Nat.le_sub_one_of_lt hn
    unfold Serving.serve
    split <;> try contradiction
    next x' y' _ _ hqueue =>
      obtain rfl : queue = _ := hqueue
      exact ⟨Nat.le_of_succ_le hturns, taken ++ [motion x' y'], append_cons _ _ _, h.later x' y'⟩
    all_goals
      next hloop hqueue =>
        obtain rfl : queue = _ := hqueue
        cases hloop
        exact ⟨hturns, taken, rfl, h⟩

theorem inv_run (events : List Event) :
    ∃ n, Inv (queued events) n (run step ⟨[], [], .top none⟩ events) := by
  refine run_history (H := fun events s => ∃ n, Inv (queued events) n s) ?_
    (fun events event ⟨n, h⟩ => ?_) events
  · exact ⟨0, Nat.le_refl _, [], rfl, .nil⟩
  generalize run step _ events = s at h ⊢
  rw [queued, filterMap_append, ← queued]
  cases event with
  | arrive command =>
    obtain ⟨-, taken, hq, h⟩ := h
    exact ⟨_, Nat.le_refl _, taken, by cases hloop : s.loop <;>
      simp [step, Serving.ahead, hloop, hq], h⟩
  | turn => exact ⟨n - 1, by simpa [step] using inv_serve h⟩

theorem drained (h : Inv arrived n s) :
    Coalesces arrived (run step s (replicate n .turn)).carried := by
  induction n generalizing s with
  | zero =>
    obtain ⟨hturns, taken, rfl, h⟩ := h
    obtain ⟨queue, carried, pending | ⟨x, y⟩⟩ := s
    · have hnone : Serving.ahead ⟨queue, carried, .top pending⟩ = [] :=
        length_eq_zero_iff.1 (Nat.eq_zero_of_le_zero (Nat.le_of_mul_le_mul_left hturns Nat.two_pos))
      rwa [hnone, append_nil]
    · exact absurd hturns (Nat.not_succ_le_zero _)
  | succ n ih => exact ih (inv_serve h)

/-- **Every command is carried out once, in its place, except for motions just before another
motion.** At any moment of any run the commands taken off the queue have become those carried out
and the motion that is held; and once no more arrive, all of them have after a bounded number of
turns. -/
theorem serveCommands_coalesces (events : List Event) :
    let s := run step ⟨[], [], .top none⟩ events
    (∃ taken, queued events = taken ++ s.ahead ∧ Coalesces taken s.done) ∧
      ∀ n, s.turns ≤ n → Coalesces (queued events) (run step s (replicate n .turn)).carried := by
  obtain ⟨-, -, h⟩ := inv_run events
  exact ⟨h, fun n hn => drained ⟨hn, h⟩⟩

end Linrdp.Wayland.Commands
