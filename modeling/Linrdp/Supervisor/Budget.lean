import Mathlib.Order.Nat
import Linrdp.Supervisor.Run

/-!
# The worker budget

The supervisor counts its live workers by the address of the connection. An IPv4 client has two
addresses: its own on an IPv4 socket, and the IPv4-mapped IPv6 one on a dual-stack socket, and the
two are counted apart. `budget_iff`: the budget is kept in every run exactly when no host comes
under both addresses.
-/

namespace Linrdp.Supervisor.Budget

open List Lib.Runs Supervisor.Run State
open Supervisor.UdpStore (IpAddr Pid)

/-- The IPv4 address in an IPv4-mapped IPv6 one (`::ffff:0:0/96`); any other address is itself. -/
def toCanonical : IpAddr → IpAddr
  | .v4 bits => .v4 bits
  | .v6 bits => if bits.extractLsb' 32 96 = 0xFFFF#96 then .v4 (bits.extractLsb' 0 32) else .v6 bits

def Child.serves (c : Child) (host : IpAddr) :
    Bool := !c.exited && decide (toCanonical c.peer = host)

variable (s : State)

def running : ℕ := s.children.countP fun c => !c.exited

def serving (host : IpAddr) : ℕ := s.children.countP fun c => Child.serves c host

structure WithinBudget (s : State) : Prop where
  total : running s ≤ s.workers.limits.maxWorkers.toNat
  perHost : ∀ host, serving s host ≤ s.workers.limits.maxPerClient.toNat
  givenBack : ∀ worker ∈ s.workers.live, ∃ c ∈ s.children, (c.pid, c.peer) = worker

/-- Every connection of the event comes from one of `peers`, the addresses as the sockets report
them. -/
def From (peers : Set IpAddr) : Event → Prop
  | .accept _ peer _ _ => peer ∈ peers
  | _ => True

/-- The supervisor has counted every child under the address its connection came from. -/
def Counted : Prop := s.workers.live = s.children.map fun c => (c.pid, c.peer)

theorem forget_map {children : List Child} {pid : Pid} :
    ((children.map fun c => (c.pid, c.peer)).filter fun worker => worker.1 ≠ pid) =
      (children.filter fun c => c.pid ≠ pid).map fun c => (c.pid, c.peer) := by
  rw [filter_map]
  rfl

theorem counted_step {s : State} (h : Counted s) (e : Event) : Counted (step s e) := by
  unfold Counted at h ⊢
  cases e with
  | message | gone => exact h
  | exit pid =>
    rw [step, h, map_map]
    refine map_congr_left fun c _ => ?_
    simp only [Function.comp]
    split_ifs <;> rfl
  | reap pid =>
    rw [step, reap]
    split_ifs
    · simp only [Workers.forget, h, forget_map]
    · exact h
  | datagram listener peer syn =>
    rw [step, datagram]
    split
    · exact h
    · split_ifs <;> exact h
  | accept listener peer channel forked =>
    rw [step, accept]
    split
    · exact h
    · split
      · exact h
      · rename_i pid hforks
        obtain ⟨-, hfresh⟩ := forks_some hforks
        have hkeep : (s.children.filter fun c => c.pid ≠ pid) = s.children :=
          filter_eq_self.2 fun c hc => by simpa using hfresh c hc
        simp only [Workers.record, h, forget_map, hkeep, map_cons]

theorem WithinBudget.fewer {s s' : State} (h : WithinBudget s) (hcounted : Counted s')
    (hlimits : s'.workers.limits = s.workers.limits) (hrunning : running s' ≤ running s)
    (hserving : ∀ host, serving s' host ≤ serving s host) : WithinBudget s' := by
  refine ⟨?_, fun host => ?_, fun worker hw => ?_⟩
  · rw [hlimits]
    exact hrunning.trans h.total
  · rw [hlimits]
    exact (hserving host).trans (h.perHost host)
  · rw [hcounted] at hw
    exact mem_map.1 hw

theorem countP_exit (children : List Child) (pid : Pid) {p : Child → Bool}
    (hp : ∀ c, p { c with exited := true } = true → p c = true) :
    (children.map fun c => if c.pid = pid then { c with exited := true } else c).countP p ≤
      children.countP p := by
  rw [countP_map]
  refine countP_mono_left fun c _ hc => ?_
  simp only [Function.comp] at hc
  split_ifs at hc
  · exact hp c hc
  · exact hc

theorem running_le {s : State} (hcounted : Counted s) : running s ≤ s.workers.live.length := by
  rw [hcounted, length_map]
  exact countP_le_length

/-- If no host has two addresses among `peers`, the workers of a host are those of the peer's
address. -/
theorem serving_le {s : State} {peers : Set IpAddr} {peer : IpAddr} (hcounted : Counted s)
    (hone : Set.InjOn toCanonical peers) (hpeers : ∀ c ∈ s.children, c.peer ∈ peers)
    (hpeer : peer ∈ peers) : serving s (toCanonical peer) ≤
    (s.workers.live.filter fun worker => worker.2 = peer).length := by
  rw [hcounted, filter_map, length_map, ← countP_eq_length_filter]
  refine countP_mono_left fun c hc hserves => ?_
  simp only [Child.serves, Bool.and_eq_true, decide_eq_true_eq] at hserves
  exact decide_eq_true (hone (hpeers c hc) hpeer hserves.2)

/-- What every step keeps, if the connections come from `peers`. -/
structure Kept (peers : Set IpAddr) (s : State) : Prop where
  counted : Counted s
  within : WithinBudget s
  peers : ∀ c ∈ s.children, c.peer ∈ peers

theorem Kept.accept {s : State} {peers : Set IpAddr} {listener : ℕ} {peer : IpAddr} (channel : Bool)
    {forked : Option Pid} {bound : Bound} {pid : Pid} (hone : Set.InjOn toCanonical peers)
    (h : Kept peers s) (hpeer : peer ∈ peers) (hbound : s.live[listener]? = some bound)
    (hforks : s.forks peer forked = some pid) :
    Kept peers (step s (.accept listener peer channel forked)) := by
  have hcounted := counted_step h.counted (.accept listener peer channel forked)
  obtain ⟨htotal, hclient⟩ := admits_ok (forks_some hforks).1
  rw [step, State.accept, hbound] at hcounted ⊢
  simp only [hforks] at hcounted ⊢
  refine ⟨hcounted, ⟨?_, fun host => ?_, fun worker hw => ?_⟩, forall_mem_cons.2 ⟨hpeer, h.peers⟩⟩
  · have hle := running_le h.counted
    show countP _ (_ :: s.children) ≤ s.workers.limits.maxWorkers.toNat
    rw [countP_cons_of_pos rfl]
    exact lt_of_le_of_lt hle htotal
  · have hhost := h.within.perHost host
    show countP _ (_ :: s.children) ≤ s.workers.limits.maxPerClient.toNat
    by_cases heq : toCanonical peer = host
    · have hle := serving_le h.counted hone h.peers hpeer
      rw [countP_cons_of_pos (by simp [Child.serves, heq])]
      exact lt_of_le_of_lt (heq ▸ hle) hclient
    · rw [countP_cons_of_neg (by simp [Child.serves, heq])]
      exact hhost
  · rw [hcounted] at hw
    exact mem_map.1 hw

theorem kept_step {s : State} {peers : Set IpAddr} (hone : Set.InjOn toCanonical peers)
    (h : Kept peers s) {e : Event} (hfrom : From peers e) : Kept peers (step s e) := by
  have hcounted := counted_step h.counted e
  cases e with
  | message | gone => exact ⟨hcounted, h.within.fewer hcounted rfl le_rfl fun _ => le_rfl, h.peers⟩
  | exit pid =>
    refine ⟨hcounted, h.within.fewer hcounted rfl ?_ fun host => ?_, ?_⟩
    · exact countP_exit s.children pid (by simp)
    · exact countP_exit s.children pid (by simp [Child.serves])
    · refine forall_mem_map.2 fun c hc => ?_
      split_ifs <;> exact h.peers c hc
  | reap pid =>
    rw [step, State.reap] at hcounted ⊢
    split_ifs at hcounted ⊢
    · refine ⟨hcounted, h.within.fewer hcounted rfl filter_sublist.countP_le fun host => ?_,
        fun c hc => ?_⟩
      · exact filter_sublist.countP_le
      · exact h.peers c (mem_of_mem_filter hc)
    · exact h
  | datagram listener peer syn =>
    rw [step, State.datagram]
    split
    · exact h
    · split_ifs
      · exact ⟨h.counted, ⟨h.within.total, h.within.perHost, h.within.givenBack⟩, h.peers⟩
      · exact h
  | accept listener peer channel forked =>
    rcases hbound : s.live[listener]? with _ | bound
    · rwa [step, State.accept, hbound]
    · rcases hforks : s.forks peer forked with _ | pid
      · rw [step, State.accept, hbound]
        simp only [hforks]
        exact h
      · exact h.accept channel hone hfrom hbound hforks

/-- Two addresses of one host hold a worker each where `max_per_client` is one. -/
theorem not_within_of_two_addresses {peer peer' : IpAddr} (hne : peer ≠ peer')
    (hhost : toCanonical peer = toCanonical peer') :
    ¬WithinBudget (run step (boot ⟨128, 1⟩ [false, false])
      [.accept 0 peer false (some 100), .accept 1 peer' false (some 101)]) := by
  intro h
  have hserving := h.perHost (toCanonical peer')
  simp [run, step, State.accept, boot, State.forks, Workers.admits, Workers.record, count32,
    serving, Child.serves, Option.filter, hne, hhost] at hserving

/-- **The budget is kept exactly when no host comes under two addresses**: over every run whose
connections come from `peers`, for all limits and listeners. -/
theorem budget_iff (peers : Set IpAddr) :
    Set.InjOn toCanonical peers ↔ ∀ limits udp events, (∀ e ∈ events, From peers e) →
      ∀ pre, pre <+: events → WithinBudget (run step (boot limits udp) pre) := by
  constructor
  · intro hone limits udp events hfrom pre hpre
    have hboot : Kept peers (boot limits udp) :=
      ⟨rfl, ⟨Nat.zero_le _, fun _ => Nat.zero_le _, fun _ hw => by simp [boot] at hw⟩,
        fun _ hc => by simp [boot] at hc⟩
    have halong : Along step (fun _ e => From peers e) (boot limits udp) pre :=
      along_of_forall fun e he => hfrom e (hpre.subset he)
    exact (halong.inv_run (I := Kept peers) (fun _ _ hs he => kept_step hone hs he) hboot).within
  · intro h peer hpeer peer' hpeer' hhost
    by_contra hne
    refine not_within_of_two_addresses hne hhost (h _ _ _ ?_ _ prefix_rfl)
    simp [From, hpeer, hpeer']

/-! ### A host with two addresses -/

/-- `192.0.2.1`, and the same host on a dual-stack socket. -/
def overIpv4 : IpAddr := .v4 0xC0000201#32

def overIpv6 : IpAddr := .v6 0xFFFFC0000201#128

theorem one_host_two_addresses :
    toCanonical overIpv6 = toCanonical overIpv4 ∧
    ¬WithinBudget (run step (boot ⟨128, 1⟩ [false, false])
      [.accept 0 overIpv4 false (some 100), .accept 1 overIpv6 false (some 101)]) :=
  ⟨by decide, not_within_of_two_addresses (by decide) (by decide)⟩

end Linrdp.Supervisor.Budget
