import Linrdp.Lib.Runs

/-!
# The Connection Store of the RDP-UDP port

A worker registers the cookie hash of its request; the SYN that carries the hash names the worker,
and every later datagram of that client follows it. `Answers` says which registration the creation
of a client's route goes back to. `store_sound`: whoever gets a datagram registered, on that
listener and since its last removal, the hash of the SYN that created the route. The other way
round, the SYN that carries the hash of an outstanding request reaches its worker from every address
that is not another worker's client.
-/

namespace Linrdp.Supervisor.UdpStore

open Option Lib.Runs

inductive IpAddr
  | v4 (bits : BitVec 32)
  | v6 (bits : BitVec 128)
deriving DecidableEq

inductive SocketAddr
  | v4 (bits : BitVec 32) (port : BitVec 16)
  | v6 (bits : BitVec 128) (port : BitVec 16) (flowinfo scopeId : BitVec 32)
deriving DecidableEq

def SocketAddr.ip : SocketAddr → IpAddr
  | .v4 bits _ => .v4 bits
  | .v6 bits _ _ _ => .v6 bits

abbrev CookieHash := {hash : List UInt8 // hash.length = 32}

abbrev Pid := ℕ

structure Store where
  requests : CookieHash → Option (Pid × ℕ)
  clients : ℕ × SocketAddr → Option Pid

def Store.empty : Store := ⟨fun _ => none, fun _ => none⟩

variable (s : Store)

def register (pid : Pid) (listener : ℕ) (hash : CookieHash) : Store :=
  { s with requests := Function.update s.requests hash (some (pid, listener)) }

/-- The worker a datagram goes to; `syn` is the hash it carries, if it is a SYN. -/
def route (listener : ℕ) (peer : SocketAddr) (syn : Option CookieHash) : Option Pid × Store :=
  match s.clients (listener, peer) with
  | some pid => (some pid, s)
  | none =>
    match syn with
    | none => (none, s)
    | some hash =>
      match s.requests hash with
      | none => (none, s)
      | some (pid, registeredOn) =>
        if registeredOn ≠ listener then (none, s)
        else (some pid,
          ⟨Function.update s.requests hash none,
            Function.update s.clients (listener, peer) (some pid)⟩)

def remove (pid : Pid) : Store where
  requests hash := (s.requests hash).filter fun owner => owner.1 != pid
  clients client := (s.clients client).filter fun owner => owner != pid

inductive Call
  | register (pid : Pid) (listener : ℕ) (hash : CookieHash)
  | route (listener : ℕ) (peer : SocketAddr) (syn : Option CookieHash)
  | remove (pid : Pid)

def step : Call → Store
  | .register pid listener hash => register s pid listener hash
  | .route listener peer syn => (route s listener peer syn).2
  | .remove pid => remove s pid

variable (calls : List Call)

def before (n : ℕ) : Store := stateAt step .empty calls n

/-! ### What a call does -/

theorem route_cases (listener : ℕ) (peer : SocketAddr) (syn : Option CookieHash) :
    (∃ pid, s.clients (listener, peer) = some pid ∧
        route s listener peer syn = (some pid, s)) ∨
      (s.clients (listener, peer) = none ∧ route s listener peer syn = (none, s)) ∨
      ∃ pid hash, s.clients (listener, peer) = none ∧ syn = some hash ∧
        s.requests hash = some (pid, listener) ∧
        route s listener peer syn = (some pid,
          ⟨Function.update s.requests hash none,
            Function.update s.clients (listener, peer) (some pid)⟩) := by
  rcases hclient : s.clients (listener, peer) with _ | pid
  · rcases syn with _ | hash
    · exact .inr (.inl ⟨rfl, by simp [route, hclient]⟩)
    · rcases hreq : s.requests hash with _ | ⟨pid, registeredOn⟩
      · exact .inr (.inl ⟨rfl, by simp [route, hclient, hreq]⟩)
      · by_cases hon : registeredOn = listener
        · subst hon
          exact .inr (.inr ⟨pid, hash, rfl, rfl, hreq, by simp [route, hclient, hreq]⟩)
        · exact .inr (.inl ⟨rfl, by simp [route, hclient, hreq, hon]⟩)
  · exact .inl ⟨pid, rfl, by simp [route, hclient]⟩

theorem remove_clients {s : Store} {pid owner : Pid} {client : ℕ × SocketAddr} :
    (remove s pid).clients client = some owner ↔ s.clients client = some owner ∧ owner ≠ pid := by
  simp [remove, filter_eq_some_iff]

theorem remove_requests {s : Store} {pid : Pid} {hash : CookieHash} {owner : Pid × ℕ} :
    (remove s pid).requests hash = some owner ↔ s.requests hash = some owner ∧ owner.1 ≠ pid := by
  simp [remove, filter_eq_some_iff]

/-! ### Which registration a route goes back to -/

/-- At place `n` of the history a datagram is routed to `pid`. -/
def Routed (n : ℕ) (listener : ℕ) (peer : SocketAddr) (pid : Pid) : Prop :=
  ∃ syn, calls[n]? = some (.route listener peer syn) ∧
    (route (before calls n) listener peer syn).1 = some pid

/-- The SYN at place `j` creates the route of a client, and the registration at place `i` is the one
it answers: the last one of its hash. -/
structure Answers (calls : List Call) (i j : ℕ) (hash : CookieHash) (listener : ℕ)
    (peer : SocketAddr) (pid : Pid) : Prop where
  earlier : i < j
  registered : calls[i]? = some (.register pid listener hash)
  last : ∀ k owner on, i < k → k < j → calls[k]? ≠ some (.register owner on hash)
  syn : calls[j]? = some (.route listener peer (some hash))
  unknown : (before calls j).clients (listener, peer) = none
  routed : (route (before calls j) listener peer (some hash)).1 = some pid

/-- Whose request a hash in the store is: registered last by `pid`, which was not removed since. -/
def Requested (n : ℕ) (hash : CookieHash) (pid : Pid) (listener : ℕ) : Prop :=
  ∃ i, i < n ∧ calls[i]? = some (.register pid listener hash) ∧
    (∀ k owner on, i < k → k < n → calls[k]? ≠ some (.register owner on hash)) ∧
    ∀ k, i < k → k < n → calls[k]? ≠ some (.remove pid)

/-- Where a client in the store comes from: a SYN that answered a request of `pid`, which was not
removed since the request, and the client is `pid`'s since. -/
def Learned (n : ℕ) (listener : ℕ) (peer : SocketAddr) (pid : Pid) : Prop :=
  ∃ i j hash, j < n ∧ Answers calls i j hash listener peer pid ∧
    (∀ k, i < k → k < n → calls[k]? ≠ some (.remove pid)) ∧
    ∀ k, j < k → k ≤ n → (before calls k).clients (listener, peer) = some pid

/-- What the store holds before the call at place `n`. -/
structure Held (calls : List Call) (n : ℕ) : Prop where
  requests : ∀ hash pid listener, (before calls n).requests hash = some (pid, listener) →
    Requested calls n hash pid listener
  clients : ∀ listener peer pid, (before calls n).clients (listener, peer) = some pid →
    Learned calls n listener peer pid

section history

variable {calls : List Call} {n : ℕ} {hash : CookieHash} {pid : Pid} {listener : ℕ}
  {peer : SocketAddr}

theorem before_succ {c : Call} (h : calls[n]? = some c) :
    before calls (n + 1) = step (before calls n) c := stateAt_succ step .empty h

theorem before_succ_none (h : calls[n]? = none) : before calls (n + 1) = before calls n :=
  stateAt_succ_none step .empty h

theorem until_succ {P : ℕ → Prop} {i : ℕ} (h : ∀ k, i < k → k < n → P k) (hn : P n) :
    ∀ k, i < k → k < n + 1 → P k := by
  intro k hik hk
  rcases Nat.lt_succ_iff_lt_or_eq.1 hk with hk | rfl
  · exact h k hik hk
  · exact hn

theorem Requested.later (h : Requested calls n hash pid listener)
    (hregister : ∀ owner on, calls[n]? ≠ some (.register owner on hash))
    (hremove : calls[n]? ≠ some (.remove pid)) : Requested calls (n + 1) hash pid listener := by
  obtain ⟨i, hi, hregistered, hlast, hkept⟩ := h
  refine ⟨i, by omega, hregistered, fun k owner on => ?_, until_succ hkept hremove⟩
  exact until_succ (fun k => hlast k owner on) (hregister owner on) k

theorem Learned.later (h : Learned calls n listener peer pid)
    (hremove : calls[n]? ≠ some (.remove pid))
    (hclient : (before calls (n + 1)).clients (listener, peer) = some pid) :
    Learned calls (n + 1) listener peer pid := by
  obtain ⟨i, j, hash, hj, hanswers, hkept, hsince⟩ := h
  refine ⟨i, j, hash, by omega, hanswers, until_succ hkept hremove, fun k hjk hk => ?_⟩
  rcases Nat.le_succ_iff.1 hk with hk | rfl
  · exact hsince k hjk hk
  · exact hclient

theorem Requested.learned (h : Requested calls n hash pid listener)
    (hcall : calls[n]? = some (.route listener peer (some hash)))
    (hunknown : (before calls n).clients (listener, peer) = none)
    (hroute : (route (before calls n) listener peer (some hash)).1 = some pid)
    (hclient : (before calls (n + 1)).clients (listener, peer) = some pid) :
    Learned calls (n + 1) listener peer pid := by
  obtain ⟨i, hi, hregistered, hlast, hkept⟩ := h
  refine ⟨i, n, hash, by omega, ⟨hi, hregistered, hlast, hcall, hunknown, hroute⟩,
    until_succ hkept (by simp [hcall]), fun k hnk hk => ?_⟩
  obtain rfl : k = n + 1 := by omega
  exact hclient

/-- What a call does to the request of a hash. -/
theorem requests_succ (calls : List Call) (n : ℕ) (hash : CookieHash) :
    (∃ pid listener, calls[n]? = some (.register pid listener hash) ∧
        (before calls (n + 1)).requests hash = some (pid, listener)) ∨
      (∀ owner on, calls[n]? ≠ some (.register owner on hash)) ∧
        ((before calls (n + 1)).requests hash = (before calls n).requests hash ∨
          (before calls (n + 1)).requests hash = none ∧
            ∃ pid listener, (before calls n).requests hash = some (pid, listener) ∧
              (calls[n]? = some (.remove pid) ∨
                ∃ peer, calls[n]? = some (.route listener peer (some hash)) ∧
                  (before calls n).clients (listener, peer) = none)) := by
  rcases hcall : calls[n]? with _ | c
  · exact .inr ⟨by simp, .inl (by rw [before_succ_none hcall])⟩
  rw [before_succ hcall]
  rcases c with ⟨pid, listener, hash'⟩ | ⟨listener, peer, syn⟩ | pid
  · by_cases hhash : hash = hash'
    · subst hhash
      exact .inl ⟨pid, listener, rfl, Function.update_self ..⟩
    · exact .inr ⟨by simp [Ne.symm hhash], .inl (Function.update_of_ne hhash ..)⟩
  · refine .inr ⟨by simp, ?_⟩
    obtain ⟨pid, -, hroute⟩ | ⟨-, hroute⟩ | ⟨pid, hash', hunknown, rfl, hrequest, hroute⟩ :=
      route_cases (before calls n) listener peer syn <;> rw [step, hroute]
    iterate 2 exact .inl rfl
    by_cases hhash : hash = hash'
    · subst hhash
      exact .inr ⟨Function.update_self .., pid, listener, hrequest, .inr ⟨peer, rfl, hunknown⟩⟩
    · exact .inl (Function.update_of_ne hhash ..)
  · refine .inr ⟨by simp, ?_⟩
    rcases hr : (before calls n).requests hash with _ | ⟨owner, on⟩
    · exact .inl (by simp [step, remove, hr])
    · by_cases howner : owner = pid
      · exact .inr ⟨by simp [step, remove, hr, howner], owner, on, rfl, .inl (by rw [howner])⟩
      · exact .inl (by simp [step, remove, hr, howner])

/-- A client's route after a call was there before it, or the call has created it. -/
theorem Held.clients_succ (h : Held calls n)
    (hc : (before calls (n + 1)).clients (listener, peer) = some pid) :
    Learned calls (n + 1) listener peer pid := by
  have hlater (hsame : (before calls n).clients (listener, peer) = some pid)
      (hremove : calls[n]? ≠ some (.remove pid)) : Learned calls (n + 1) listener peer pid :=
    (h.clients _ _ _ hsame).later hremove hc
  rcases hcall : calls[n]? with _ | c
  · exact hlater (before_succ_none hcall ▸ hc) (by simp [hcall])
  have hafter := hc
  rw [before_succ hcall] at hafter
  rcases c with ⟨_, on, hash⟩ | ⟨on, other, syn⟩ | owner
  · exact hlater hafter (by simp [hcall])
  · obtain ⟨_, -, hroute⟩ | ⟨-, hroute⟩ | ⟨worker, hash, hunknown, rfl, hrequest, hroute⟩ :=
      route_cases (before calls n) on other syn <;> rw [step, hroute] at hafter
    iterate 2 exact hlater hafter (by simp [hcall])
    by_cases hclient : (listener, peer) = (on, other)
    · obtain ⟨rfl, rfl⟩ := Prod.mk.inj hclient
      obtain rfl : worker = pid := by simpa using hafter
      exact (h.requests _ _ _ hrequest).learned hcall hunknown (by rw [hroute]) hc
    · exact hlater ((Function.update_of_ne hclient ..).symm.trans hafter) (by simp [hcall])
  · obtain ⟨hsame, hother⟩ := remove_clients.1 hafter
    exact hlater hsame (by simpa [hcall] using hother.symm)

theorem held_succ (h : Held calls n) : Held calls (n + 1) where
  requests hash pid listener hr := by
    have hremove : calls[n]? ≠ some (.remove pid) := fun hcall => by
      rw [before_succ hcall, step, remove_requests] at hr
      exact hr.2 rfl
    obtain ⟨owner, on, hcall, hafter⟩ | ⟨hregister, hafter | ⟨hafter, -⟩⟩ :=
        requests_succ calls n hash
    · obtain ⟨rfl, rfl⟩ := Prod.mk.inj (some.inj (hr.symm.trans hafter))
      exact ⟨n, by omega, hcall, fun k _ _ hnk hk => by omega, fun k hnk hk => by omega⟩
    · exact (h.requests _ _ _ (hafter ▸ hr)).later hregister hremove
    · simp [hafter] at hr
  clients _ _ _ := h.clients_succ

end history

/-- **What the store holds**, before every call of every history. -/
theorem held_before (n : ℕ) : Held calls n := by
  induction n with
  | zero =>
    constructor
    · intro hash pid listener h
      simp [before, Store.empty] at h
    · intro listener peer pid h
      simp [before, Store.empty] at h
  | succ n ih => exact held_succ ih

/-! ### The guarantee -/

section

variable {calls : List Call} {hash : CookieHash} {pid : Pid} {listener : ℕ} {peer : SocketAddr}

theorem registered_between {j n : ℕ} (hjn : j ≤ n) (hnone : (before calls j).requests hash = none)
    (hsome : (before calls n).requests hash ≠ none) :
    ∃ k pid listener, j ≤ k ∧ k < n ∧ calls[k]? = some (.register pid listener hash) := by
  induction hjn with
  | refl => exact absurd hnone hsome
  | @step n hjn ih =>
    obtain ⟨pid, listener, hcall, -⟩ | ⟨-, hafter | ⟨hafter, -⟩⟩ := requests_succ calls n hash
    · exact ⟨n, pid, listener, hjn, by omega, hcall⟩
    · obtain ⟨k, pid, listener, hjk, hk, hcall⟩ := ih (hafter ▸ hsome)
      exact ⟨k, pid, listener, hjk, by omega, hcall⟩
    · exact absurd hafter hsome

theorem Answers.requests {i j : ℕ} (h : Answers calls i j hash listener peer pid) :
    (before calls j).requests hash = some (pid, listener) ∧
      (before calls (j + 1)).requests hash = none := by
  rw [before_succ h.syn, step]
  have hrouted := h.routed
  obtain ⟨known, hknown, -⟩ | ⟨-, hroute⟩ | ⟨worker, hash', -, hsyn, hrequest, hroute⟩ :=
    route_cases (before calls j) listener peer (some hash)
  · rw [h.unknown] at hknown
    simp at hknown
  · rw [hroute] at hrouted
    simp at hrouted
  · obtain rfl := some.inj hsyn
    rw [hroute] at hrouted ⊢
    obtain rfl := some.inj hrouted
    exact ⟨hrequest, Function.update_self ..⟩

theorem Answers.not_later {i j j' : ℕ} {listener' : ℕ} {peer' : SocketAddr} {pid' : Pid}
    (h : Answers calls i j hash listener peer pid)
    (h' : Answers calls i j' hash listener' peer' pid') : ¬ j < j' := by
  intro hlt
  have hsome : (before calls j').requests hash ≠ none := by simp [h'.requests.1]
  obtain ⟨k, owner, on, hjk, hk, hcall⟩ := registered_between hlt h.requests.2 hsome
  have hearlier := h.earlier
  exact h'.last k owner on (by omega) hk hcall

theorem Routed.learned {n : ℕ} (h : Routed calls n listener peer pid) :
    Learned calls (n + 1) listener peer pid := by
  obtain ⟨syn, hcall, hrouted⟩ := h
  have hclient : (before calls (n + 1)).clients (listener, peer) = some pid := by
    rw [before_succ hcall, step]
    obtain ⟨known, hknown, hroute⟩ | ⟨-, hroute⟩ | ⟨worker, hash, -, -, -, hroute⟩ :=
      route_cases (before calls n) listener peer syn
    · rw [hroute] at hrouted ⊢
      rw [hknown]
      exact hrouted
    · rw [hroute] at hrouted
      simp at hrouted
    · rw [hroute] at hrouted ⊢
      simpa using hrouted
  exact (held_before calls (n + 1)).clients listener peer pid hclient

end

structure Sound (calls : List Call) : Prop where
  /-- A datagram goes to a worker that registered, on this listener and since its last removal, the
  hash of the SYN that created the client's route, which is the client's route since. -/
  registered : ∀ n listener peer pid, Routed calls n listener peer pid →
    ∃ i j hash, j ≤ n ∧ Answers calls i j hash listener peer pid ∧
      (∀ k, i < k → k ≤ n → calls[k]? ≠ some (.remove pid)) ∧
      ∀ k, j < k → k ≤ n → (before calls k).clients (listener, peer) = some pid
  /-- A registration creates at most one route. -/
  once : ∀ i j j' hash hash' listener listener' peer peer' pid pid',
    Answers calls i j hash listener peer pid → Answers calls i j' hash' listener' peer' pid' →
    j = j'
  /-- A removed worker gets nothing until it registers again and a SYN carries the new hash. -/
  afresh : ∀ m n listener peer pid, calls[m]? = some (.remove pid) → m < n →
    Routed calls n listener peer pid →
    ∃ i j hash, m < i ∧ j ≤ n ∧ Answers calls i j hash listener peer pid

/-- **The Connection Store is sound**, over every history of registrations, datagrams and removals.
-/
theorem store_sound (calls : List Call) : Sound calls := by
  constructor
  · intro n listener peer pid hrouted
    obtain ⟨i, j, hash, hj, hanswers, hkept, hsince⟩ := hrouted.learned
    exact ⟨i, j, hash, by omega, hanswers, fun k hik hk => hkept k hik (by omega),
      fun k hjk hk => hsince k hjk (by omega)⟩
  · intro i j j' hash hash' listener listener' peer peer' pid pid' h h'
    have hsame := h.registered.symm.trans h'.registered
    obtain ⟨-, -, rfl⟩ := hsame
    exact Nat.le_antisymm (Nat.le_of_not_lt (h'.not_later h)) (Nat.le_of_not_lt (h.not_later h'))
  · intro m n listener peer pid hremove hmn hrouted
    obtain ⟨i, j, hash, hj, hanswers, hkept, -⟩ := hrouted.learned
    refine ⟨i, j, hash, ?_, by omega, hanswers⟩
    by_contra hle
    have hne : i ≠ m := by
      rintro rfl
      rw [hanswers.registered] at hremove
      simp at hremove
    exact hkept m (by omega) (by omega) hremove

/-! ### Outstanding requests -/

/-- Worker `pid` waits for the SYN of its request: it registered the hash, and since then nobody
registered it again, the worker was not removed, and no SYN answered the request. -/
structure Outstanding (calls : List Call) (n i : ℕ) (hash : CookieHash) (pid : Pid) (listener : ℕ) :
    Prop where
  earlier : i < n
  registered : calls[i]? = some (.register pid listener hash)
  last : ∀ k owner on, i < k → k < n → calls[k]? ≠ some (.register owner on hash)
  kept : ∀ k, i < k → k < n → calls[k]? ≠ some (.remove pid)
  unanswered : ∀ j peer, j < n → ¬ Answers calls i j hash listener peer pid

section outstanding

variable {calls : List Call} {n i : ℕ} {hash : CookieHash} {pid : Pid} {listener : ℕ}
  {peer : SocketAddr}

theorem Outstanding.answers {j : ℕ} (h : Outstanding calls n i hash pid listener) (hij : i < j)
    (hjn : j < n) (hrequest : (before calls j).requests hash = some (pid, listener))
    (hcall : calls[j]? = some (.route listener peer (some hash)))
    (hunknown : (before calls j).clients (listener, peer) = none) :
    Answers calls i j hash listener peer pid :=
  ⟨hij, h.registered, fun k owner on hik hk => h.last k owner on hik (by omega), hcall, hunknown,
    by simp [route, hunknown, hrequest]⟩

theorem Outstanding.requests (h : Outstanding calls n i hash pid listener) :
    (before calls n).requests hash = some (pid, listener) := by
  -- from the registration on, the request is in the store at every place up to `n`
  suffices hall : ∀ m, i + 1 ≤ m → m ≤ n → (before calls m).requests hash = some
      (pid, listener) from
    hall n h.earlier (Nat.le_refl n)
  intro m him
  induction him with
  | refl =>
    rw [before_succ h.registered]
    simp [step, register]
  | @step m him ih =>
    intro hmn
    have hrequest := ih (by omega)
    obtain ⟨owner, on, hcall, -⟩ | ⟨-, hafter | ⟨-, owner, on, howner, hcall⟩⟩ :=
        requests_succ calls m hash
    · exact absurd hcall (h.last m owner on him (by omega))
    · exact hafter.trans hrequest
    · obtain ⟨rfl, rfl⟩ := Prod.mk.inj (some.inj (hrequest.symm.trans howner))
      obtain hcall | ⟨peer, hcall, hunknown⟩ := hcall
      · exact absurd hcall (h.kept m him (by omega))
      · exact absurd (h.answers him (by omega) hrequest hcall hunknown)
          (h.unanswered m peer (by omega))

/-- **The requests of the store** are the outstanding ones. -/
theorem requests_iff_outstanding :
    (before calls n).requests hash = some (pid, listener) ↔
      ∃ i, Outstanding calls n i hash pid listener := by
  constructor
  · intro h
    obtain ⟨i, hi, hregistered, hlast, hkept⟩ := (held_before calls n).requests hash pid listener h
    refine ⟨i, hi, hregistered, hlast, hkept, fun j peer hj hanswers => ?_⟩
    have hsome : (before calls n).requests hash ≠ none := by simp [h]
    obtain ⟨k, owner, on, hjk, hk, hcall⟩ := registered_between hj hanswers.requests.2 hsome
    have hij := hanswers.earlier
    exact hlast k owner on (by omega) hk hcall
  · rintro ⟨i, h⟩
    exact h.requests

/-- **The clients of the store** are those a SYN made some worker's. -/
theorem clients_iff_learned :
    (before calls n).clients (listener, peer) = some pid ↔ Learned calls n listener peer pid := by
  constructor
  · exact (held_before calls n).clients listener peer pid
  · rintro ⟨i, j, hash, hj, -, -, hsince⟩
    exact hsince n hj (Nat.le_refl n)

/-- **Where the SYN of an outstanding request goes**: to the worker that made the request, from
every address that is not another worker's client; a client of another worker stays with it, and the
request stays in the store. -/
theorem outstanding_syn_routed (peer : SocketAddr) (h : Outstanding calls n i hash pid listener) :
    ((∀ other, Learned calls n listener peer other → other = pid) →
        (route (before calls n) listener peer (some hash)).1 = some pid) ∧
      ∀ other, Learned calls n listener peer other →
        (route (before calls n) listener peer (some hash)).1 = some other ∧
          (route (before calls n) listener peer (some hash)).2.requests hash =
            some (pid, listener) := by
  constructor
  · intro hfree
    rcases hclient : (before calls n).clients (listener, peer) with _ | other
    · simp [route, hclient, h.requests]
    · obtain rfl := hfree other (clients_iff_learned.1 hclient)
      simp [route, hclient]
  · intro other hlearned
    have hclient := clients_iff_learned.2 hlearned
    simp [route, hclient, h.requests]

end outstanding

def CookieHash.of (b : UInt8) : CookieHash := ⟨List.replicate 32 b, List.length_replicate⟩

def reconnect : List Call :=
  [.register 100 0 (.of 1), .route 0 (.v4 0xc0a80101 50000) (some (.of 1)), .register 200 0 (.of 2)]

theorem reconnect_outstanding : Outstanding reconnect 3 2 (.of 2) 200 0 where
  earlier := by decide
  registered := rfl
  last k _ _ hk hk' := by omega
  kept k hk hk' := by omega
  unanswered j _ hj hanswers := by
    have hij := hanswers.earlier
    omega

theorem reconnect_syn_routed :
    (route (before reconnect 3) 0 (.v4 0xc0a80102 50000) (some (.of 2))).1 = some 200 := by
  refine (outstanding_syn_routed (.v4 0xc0a80102 50000) reconnect_outstanding).1 fun other
    hlearned => ?_
  have hclient := clients_iff_learned.2 hlearned
  have hfree : (before reconnect 3).clients (0, .v4 0xc0a80102 50000) = none := by decide
  rw [hfree] at hclient
  simp at hclient

/-- The second SYN of that client goes to the first worker. -/
theorem reconnect_syn_misses :
    Outstanding reconnect 3 2 (.of 2) 200 0 ∧
      (route (before reconnect 3) 0 (.v4 0xc0a80101 50000) (some (.of 2))).1 = some 100 :=
  ⟨reconnect_outstanding, by decide⟩

end Linrdp.Supervisor.UdpStore
