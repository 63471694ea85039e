import Linrdp.Lib.Runs

/-!
# The session controller

`session_ctl.rs`: the count of active clients, and the D-Bus calls that lock and unlock the desktop.
The mutex lets one call run at a time and does not say which. `on_disconnected` takes one off the
count, also for a connection that never counted. `follows_of_undisturbed`: the lock state follows
the connections when no such connection ends while a client is there, and no call overtakes one of
the other kind.
-/

namespace Linrdp.Session.Controller

open List Lib.Runs

inductive DbusCall
  | switchToGreeter | unlock | lock
deriving DecidableEq

/-- The controller, with the tasks it has spawned that have not run yet, in the order they were
spawned, and the calls that were made, the latest first. -/
structure SessionController where
  active : ℕ
  (lockSession switchToGreeter : Bool)
  (tasks calls : List DbusCall)

namespace SessionController

def new (lockSession switchToGreeter : Bool) : SessionController :=
    ⟨0, lockSession, switchToGreeter, [], []⟩

variable (c : SessionController)

def spawn (call : DbusCall) : SessionController := { c with tasks := c.tasks ++ [call] }

def onConnectionInfo : SessionController :=
  let before := c.active
  let c := { c with active := c.active + 1 }
  if before ≠ 0 then c
  else
    let c := if c.switchToGreeter then c.spawn .switchToGreeter else c
    if c.lockSession then c.spawn .unlock else c

def onDisconnected : SessionController :=
  let after := c.active - 1
  let c := { c with active := after }
  if after = 0 ∧ c.lockSession then c.spawn .lock else c

def runTask (i : ℕ) : SessionController :=
  match c.tasks[i]? with
  | none => c
  | some call => { c with tasks := c.tasks.eraseIdx i, calls := call :: c.calls }

end SessionController

open SessionController DbusCall

structure Server where
  ctl : SessionController
  (authenticated others : ℕ)

inductive Event
  | accept | authenticate | leave | giveUp
  | runTask (i : ℕ)

variable (s : Server)

def step : Event → Server
  | .accept => { s with others := s.others + 1 }
  | .authenticate =>
    if s.others = 0 then s
    else ⟨s.ctl.onConnectionInfo, s.authenticated + 1, s.others - 1⟩
  | .leave =>
    if s.authenticated = 0 then s
    else { s with ctl := s.ctl.onDisconnected, authenticated := s.authenticated - 1 }
  | .giveUp =>
    if s.others = 0 then s
    else { s with ctl := s.ctl.onDisconnected, others := s.others - 1 }
  | .runTask i => { s with ctl := s.ctl.runTask i }

def start (switchToGreeter : Bool) : Server := ⟨.new true switchToGreeter, 0, 0⟩

/-! ### The lock state follows the connections -/

def DbusCall.isLock : DbusCall → Bool
  | .switchToGreeter => false
  | .unlock | .lock => true

def wanted : DbusCall := if s.authenticated = 0 then .lock else .unlock

def lastCall : Option DbusCall := s.ctl.calls.find? isLock

/-- The count is that of the authenticated connections, and once all tasks have run the last call
was the right one; without any connection so far there may be none. -/
def Follows : Prop :=
  s.ctl.active = s.authenticated ∧
    (s.ctl.tasks = [] → lastCall s = some (wanted s) ∨ (lastCall s = none ∧ s.authenticated = 0))

def Undisturbed : Event → Prop
  | .giveUp => s.others ≠ 0 → s.authenticated = 0
  | _ => True

def InTurn : Event → Prop
  | .runTask i => ∀ call ∈ s.ctl.tasks[i]?, call.isLock = true →
      ∀ earlier ∈ s.ctl.tasks.take i, earlier.isLock = true → earlier = call
  | _ => True

def waiting : List DbusCall := s.ctl.tasks.filter isLock

/-- The last of the calls that count, when all that wait have been made in this order. -/
def final : Option DbusCall := (waiting s).getLast?.or (lastCall s)

structure Inv (s : Server) : Prop where
  locking : s.ctl.lockSession = true
  active : s.ctl.active = s.authenticated
  last : final s = some (wanted s) ∨ final s = none ∧ s.authenticated = 0

theorem inv_start (switchToGreeter : Bool) : Inv (start switchToGreeter) :=
  ⟨rfl, rfl, .inr ⟨rfl, rfl⟩⟩

variable {s : Server}

theorem follows_of_inv (h : Inv s) : Follows s := by
  refine ⟨h.active, fun htasks => ?_⟩
  have hlast := h.last
  rw [final, waiting, htasks] at hlast
  exact hlast

variable {call : DbusCall}

theorem Inv.spawned {before : List DbusCall}
    (locking : s.ctl.lockSession = true) (active : s.ctl.active = s.authenticated)
    (htasks : s.ctl.tasks = before ++ [call]) (hlock : call.isLock = true)
    (hwanted : call = wanted s) : Inv s := by
  refine ⟨locking, active, .inl ?_⟩
  rw [final, waiting, htasks, filter_append, filter_cons_of_pos hlock, filter_nil, getLast?_concat,
    hwanted]
  rfl

section

variable (h : Inv s)
include h

theorem Inv.same {s' : Server} (locking : s'.ctl.lockSession = true)
    (active : s'.ctl.active = s'.authenticated) (hfinal : final s' = final s)
    (hnone : s.authenticated = 0 ↔ s'.authenticated = 0) : Inv s' := by
  have hlast := h.last
  simp only [wanted, hnone, ← hfinal] at hlast
  exact ⟨locking, active, hlast⟩

theorem inv_authenticate : Inv (step s .authenticate) := by
  have hlocking := h.locking
  rw [step]
  split_ifs with hothers
  · exact h
  by_cases hfirst : s.ctl.active = 0
  · -- the first client: the session is unlocked
    have hctl : ∃ before, s.ctl.onConnectionInfo =
        { s.ctl with active := s.ctl.active + 1, tasks := before ++ [.unlock] } := by
      unfold onConnectionInfo
      dsimp only
      rw [if_neg (not_not.2 hfirst)]
      by_cases hgreeter : s.ctl.switchToGreeter = true
      · exact ⟨s.ctl.tasks ++ [.switchToGreeter], by simp [spawn, hgreeter, hlocking]⟩
      · exact ⟨s.ctl.tasks, by simp [spawn, hgreeter, hlocking]⟩
    obtain ⟨before, hctl⟩ := hctl
    rw [hctl]
    have hactive : s.ctl.active + 1 = s.authenticated + 1 := by rw [h.active]
    exact .spawned hlocking hactive rfl rfl rfl
  · have hctl : s.ctl.onConnectionInfo = { s.ctl with active := s.ctl.active + 1 } := by
      unfold onConnectionInfo
      dsimp only
      rw [if_pos hfirst]
    rw [hctl]
    have hactive := h.active
    refine h.same hlocking (by dsimp only; omega) rfl ?_
    dsimp only
    omega

theorem inv_onDisconnected {authenticated others : ℕ} (hcount : s.ctl.active - 1 = authenticated)
    (hnone : authenticated ≠ 0 → s.authenticated ≠ 0) :
    Inv ⟨s.ctl.onDisconnected, authenticated, others⟩ := by
  unfold onDisconnected
  dsimp only
  split_ifs with hlast
  · refine .spawned h.locking hcount rfl rfl ?_
    rw [wanted, if_pos (hcount.symm.trans hlast.1)]
  · have hpos : authenticated ≠ 0 := by
      rintro rfl
      exact hlast ⟨hcount, h.locking⟩
    refine h.same h.locking hcount rfl ?_
    have hbefore := hnone hpos
    dsimp only
    omega

theorem inv_runTask {i : ℕ} (hturn : InTurn s (.runTask i)) : Inv (step s (.runTask i)) := by
  rw [step, runTask]
  rcases hcall : s.ctl.tasks[i]? with _ | call
  · exact h
  obtain ⟨hlt, hget⟩ := List.getElem?_eq_some_iff.1 hcall
  have htasks : s.ctl.tasks = s.ctl.tasks.take i ++ call :: s.ctl.tasks.drop (i + 1) := by
    rw [← hget, ← drop_eq_getElem_cons hlt, take_append_drop]
  refine h.same h.locking h.active ?_ Iff.rfl
  unfold final waiting lastCall
  dsimp only
  rw [eraseIdx_eq_take_drop_succ]
  nth_rewrite 3 [htasks]
  cases hlock : call.isLock with
  | false => simp [hlock]
  | true =>
    -- those before it that count are the same call
    have hbefore : ((s.ctl.tasks.take i).reverse.find? isLock).getD call = call := by
      rcases hfind : (s.ctl.tasks.take i).reverse.find? isLock with _ | e
      · rfl
      · exact hturn call hcall hlock e (mem_reverse.1 (mem_of_find?_eq_some hfind))
          (find?_some hfind)
    simp [hlock, getLast?_append, getLast?_cons, hbefore]

theorem inv_step (e : Event) (hundisturbed : Undisturbed s e) (hturn : InTurn s e) :
    Inv (step s e) := by
  cases e with
  | accept => exact { h with }
  | authenticate => exact inv_authenticate h
  | leave =>
    rw [step]
    split_ifs with hnone
    · exact h
    · exact inv_onDisconnected h (by rw [h.active]) fun _ => hnone
  | giveUp =>
    rw [step]
    split_ifs with hnone
    · exact h
    · have hzero := hundisturbed hnone
      exact inv_onDisconnected h (by rw [h.active, hzero]) id
  | runTask i => exact inv_runTask h hturn

end

/-- **The lock state follows the connections**, over every run that meets the two conditions. -/
theorem follows_of_undisturbed (switchToGreeter : Bool) (events : List Event)
    (h : Along step (fun s e => Undisturbed s e ∧ InTurn s e) (start switchToGreeter) events) :
    Follows (run step (start switchToGreeter) events) :=
  follows_of_inv (Along.inv_run (I := Inv) (fun _ e hI hC => inv_step hI e hC.1 hC.2)
    (inv_start switchToGreeter) h)

def comesAndGoes : List Event :=
  [.accept, .giveUp, .accept, .authenticate, .leave, .runTask 0, .runTask 0, .runTask 0]

theorem follows_comesAndGoes : Follows (run step (start false) comesAndGoes) :=
  follows_of_undisturbed false comesAndGoes (by
    simp [comesAndGoes, Undisturbed, InTurn, step, start,
    SessionController.new, onConnectionInfo, onDisconnected,
    spawn, runTask])

/-- A client leaves before the call it was unlocked with was made: the desktop stays unlocked. -/
theorem not_follows :
    let overtaken := run step (start false) [.accept, .authenticate, .leave, .runTask 1, .runTask 0]
    overtaken.authenticated = 0 ∧ overtaken.ctl.tasks = [] ∧ lastCall overtaken = some .unlock := by
      decide

end Linrdp.Session.Controller
