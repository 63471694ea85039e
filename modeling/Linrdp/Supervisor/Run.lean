import Mathlib.Algebra.Order.Ring.Nat
import Linrdp.Supervisor.UdpStore

/-!
# The supervisor

`run` and `accept_all` of `supervisor.rs`, with `Workers` and the `Dispatch` of `udp_dispatch.rs`. A
turn of the loop reaps, reads the ports, reads the workers' channels, accepts, and removes what is
dead; each of these is a step here, and the steps come in any order. `children` are the processes
that were forked and not yet waited for: the kernel gives no new child the pid of one of them, and
`waitpid` returns only those that exited.
-/

namespace Linrdp.Supervisor.Run

open Supervisor.UdpStore Function

/-! ### The budget -/

structure Limits where
  (maxWorkers maxPerClient : UInt32)

structure Workers where
  live : List (Pid × IpAddr)
  limits : Limits

inductive Refusal
  | maxWorkers (total : ℕ)
  | maxPerClient (peer : IpAddr) (fromPeer : ℕ)

/-- A count as a `u32`; one that does not fit is the largest. -/
def count32 (n : ℕ) : ℕ := min n (2 ^ 32 - 1)

def Workers.admits (w : Workers) (peer : IpAddr) : Except Refusal Unit :=
  let total := count32 w.live.length
  if w.limits.maxWorkers.toNat ≤ total then .error (.maxWorkers total)
  else
    let fromPeer := count32 (w.live.filter fun worker => worker.2 = peer).length
    if w.limits.maxPerClient.toNat ≤ fromPeer then .error (.maxPerClient peer fromPeer)
    else .ok ()

def Workers.record (w : Workers) (pid : Pid) (peer : IpAddr) : Workers :=
  { w with live := (pid, peer) :: w.live.filter fun worker => worker.1 ≠ pid }

def Workers.forget (w : Workers) (pid : Pid) : Workers :=
  { w with live := w.live.filter fun worker => worker.1 ≠ pid }

/-! ### The dispatch -/

structure Dispatch where
  store : Store
  channels : Pid → Option ℕ

def Dispatch.empty : Dispatch := ⟨.empty, fun _ => none⟩

variable (d : Dispatch)

def Dispatch.addWorker (pid : Pid) (listener : ℕ) : Dispatch :=
  { d with channels := update d.channels pid (some listener) }

def Dispatch.removeWorker (pid : Pid) : Dispatch := ⟨remove d.store pid, update d.channels pid none⟩

/-- `b'R'`, and the hash. -/
def decodeRegister : List UInt8 → Option CookieHash
  | tag :: hash => if h : tag = 0x52 ∧ hash.length = 32 then some ⟨hash, h.2⟩ else none
  | [] => none

def Dispatch.readChannel (pid : Pid) (message : List UInt8) : Dispatch :=
  match d.channels pid with
  | none => d
  | some listener =>
    match decodeRegister (message.take 64) with
    | none => d
    | some hash => { d with store := register d.store pid listener hash }

def Dispatch.readSocket (listener : ℕ) (peer : SocketAddr) (syn : Option CookieHash) :
    Option Pid × Dispatch :=
  let routed := route d.store listener peer syn
  let d := { d with store := routed.2 }
  match routed.1 with
  | none => (none, d)
  | some pid => (if (d.channels pid).isSome then some pid else none, d)

/-! ### The loop -/

structure Bound where
  name : ℕ
  udp : Bool
deriving DecidableEq

structure Child where
  pid : Pid
  peer : IpAddr
  listener : ℕ
  exited : Bool

structure State where
  live : List Bound
  workers : Workers
  dispatch : Dispatch
  children : List Child
  /-- the worker a client's datagrams went to, by the listener itself -/
  routes : ℕ × SocketAddr → Option Pid

def boot (limits : Limits) (udp : List Bool) : State where
  live := udp.zipIdx.map fun b => ⟨b.2, b.1⟩
  workers := ⟨[], limits⟩
  dispatch := .empty
  children := []
  routes _ := none

inductive Event
  | exit (pid : Pid)
  | reap (pid : Pid)
  | datagram (listener : ℕ) (peer : SocketAddr) (syn : Option CookieHash)
  | message (pid : Pid) (bytes : List UInt8)
  /-- an accepted connection: whether its channel could be made, and what `fork` returned -/
  | accept (listener : ℕ) (peer : IpAddr) (channel : Bool) (forked : Option Pid)
  | gone (listener : ℕ)

variable (s : State)

def State.reap (pid : Pid) : State :=
  if s.children.any fun c => c.pid = pid ∧ c.exited then
    { s with
      workers := s.workers.forget pid
      dispatch := s.dispatch.removeWorker pid
      children := s.children.filter fun c => c.pid ≠ pid
      routes := fun client => (s.routes client).filter fun owner => owner != pid }
  else s

def State.forks (peer : IpAddr) (forked : Option Pid) : Option Pid :=
  match s.workers.admits peer with
  | .error _ => none
  | .ok _ => forked.filter fun pid => s.children.all fun c => c.pid ≠ pid

def State.accept (listener : ℕ) (peer : IpAddr) (channel : Bool) (forked : Option Pid) : State :=
  match s.live[listener]? with
  | none => s
  | some bound =>
    match s.forks peer forked with
    | none => s
    | some pid =>
      { s with
        workers := s.workers.record pid peer
        dispatch := if bound.udp && channel then s.dispatch.addWorker pid listener else s.dispatch
        children := ⟨pid, peer, bound.name, false⟩ :: s.children }

def State.datagram (listener : ℕ) (peer : SocketAddr)
    (syn : Option CookieHash) : Option Pid × State :=
  match s.live[listener]? with
  | none => (none, s)
  | some bound =>
    if bound.udp then
      let handed := s.dispatch.readSocket listener peer syn
      (handed.1, { s with
        dispatch := handed.2
        routes := match handed.1 with
          | none => s.routes
          | some pid => update s.routes (bound.name, peer) (some pid) })
    else (none, s)

def step : Event → State
  | .exit pid => { s with children := s.children.map fun c =>
      if c.pid = pid then { c with exited := true } else c }
  | .reap pid => s.reap pid
  | .datagram listener peer syn => (s.datagram listener peer syn).2
  | .message pid bytes => { s with dispatch := s.dispatch.readChannel pid bytes }
  | .accept listener peer channel forked => s.accept listener peer channel forked
  | .gone listener => { s with live := s.live.eraseIdx listener }

/-! ### What the steps do -/

theorem addWorker_channels_of_ne {d : Dispatch} {pid owner : Pid} (h : owner ≠ pid) (listener : ℕ) :
    (d.addWorker pid listener).channels owner = d.channels owner := update_of_ne h ..

theorem removeWorker_channels_of_ne {d : Dispatch} {pid owner : Pid} (h : owner ≠ pid) :
    (d.removeWorker pid).channels owner = d.channels owner := update_of_ne h ..

theorem admits_ok {w : Workers} {peer : IpAddr} (h : w.admits peer = .ok ()) :
    w.live.length < w.limits.maxWorkers.toNat ∧
      (w.live.filter fun worker => worker.2 = peer).length < w.limits.maxPerClient.toNat := by
  have hw : w.limits.maxWorkers.toNat < 2 ^ 32 := w.limits.maxWorkers.toNat_lt
  have hc : w.limits.maxPerClient.toNat < 2 ^ 32 := w.limits.maxPerClient.toNat_lt
  unfold Workers.admits count32 at h
  dsimp only at h
  split_ifs at h with htotal hpeer
  omega

theorem forks_some {s : State} {peer : IpAddr} {forked : Option Pid} {pid : Pid}
    (h : s.forks peer forked = some pid) :
    s.workers.admits peer = .ok () ∧ ∀ c ∈ s.children, c.pid ≠ pid := by
  unfold State.forks at h
  split at h
  · simp at h
  · rename_i u hroom
    obtain ⟨-, hfresh⟩ := Option.filter_eq_some_iff.1 h
    exact ⟨hroom, by simpa using hfresh⟩

end Linrdp.Supervisor.Run
