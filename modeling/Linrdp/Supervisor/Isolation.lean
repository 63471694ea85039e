import Mathlib.Data.List.Nodup
import Mathlib.Data.List.Enum
import Linrdp.Supervisor.Run

/-!
# Does a datagram stay on its listener?

The dispatch knows a listener by its place in the supervisor's vector. A listening socket that dies
leaves the vector, the listeners after it move up, and what was stored under the old places is read
under the new ones (`dead_listener_shifts_routes`). `isolated_of_settled` is about the runs in which
no place that a worker's channel is filed under changes hands (`Settled`): there every datagram is
handed to a worker of its own listener, and a client keeps its worker.
-/

namespace Linrdp.Supervisor.Isolation

open Function Option List Lib.Runs Supervisor.Run Dispatch State
open Supervisor.UdpStore (Store Pid SocketAddr IpAddr CookieHash route register remove route_cases
  remove_clients remove_requests)

/-- A datagram on a listener's port goes to a worker forked for that listener only, and to the
worker its client has a route to. -/
def Isolated (s : State) : Event → Prop
  | .datagram listener peer syn => ∀ bound, s.live[listener]? = some bound → bound.udp = true →
      (∀ pid, (s.datagram listener peer syn).1 = some pid →
        ∃ c ∈ s.children, c.pid = pid ∧ c.listener = bound.name) ∧
      ∀ pid, s.routes (bound.name, peer) = some pid →
        (s.datagram listener peer syn).1 = some pid
  | _ => True

/-- When a listener leaves the vector, no worker has a channel filed under a place that gets another
listener by it: under the listener's own place, unless it is the last one, or under a later place.
-/
def Settled (s : State) : Event → Prop
  | .gone listener => ∀ pid place, s.dispatch.channels pid = some place →
      place < listener ∨ place = listener ∧ s.live.length ≤ listener + 1
  | _ => True

structure Inv (s : State) : Prop where
  names : (s.live.map Bound.name).Nodup
  channels : ∀ pid place, s.dispatch.channels pid = some place →
    ∃ c ∈ s.children, c.pid = pid ∧ ∀ bound, s.live[place]? = some bound → c.listener = bound.name
  requests : ∀ hash pid place, s.dispatch.store.requests hash = some (pid, place) →
    s.dispatch.channels pid = some place
  clients : ∀ pid place peer, s.dispatch.store.clients (place, peer) = some pid →
    s.dispatch.channels pid = some place
  routes : ∀ pid place bound peer, s.live[place]? = some bound →
    s.routes (bound.name, peer) = some pid → s.dispatch.store.clients (place, peer) = some pid

theorem inv_boot (limits : Limits) (udp : List Bool) : Inv (boot limits udp) := by
  constructor
  · have hnames : (boot limits udp).live.map Bound.name = range' 0 udp.length := by
      rw [boot, List.map_map]
      exact zipIdx_map_snd ..
    rw [hnames]
    exact nodup_range'
  all_goals simp [boot, empty, Store.empty]

section steps

variable {s : State}

section

variable (h : Inv s)
include h

theorem datagram_eq {listener : ℕ} {bound : Bound} (hbound : s.live[listener]? = some bound)
    (hudp : bound.udp = true) (peer : SocketAddr) (syn : Option CookieHash) :
    s.datagram listener peer syn = ((route s.dispatch.store listener peer syn).1, { s with
      dispatch := { s.dispatch with store := (route s.dispatch.store listener peer syn).2 }
      routes := match (route s.dispatch.store listener peer syn).1 with
        | none => s.routes
        | some pid => Function.update s.routes (bound.name, peer) (some pid) }) := by
  have hhanded : ∀ pid, (route s.dispatch.store listener peer syn).1 = some pid →
      s.dispatch.channels pid = some listener := by
    intro pid hrouted
    obtain ⟨known, hknown, hroute⟩ | ⟨-, hroute⟩ | ⟨worker, hash, -, -, hrequest, hroute⟩ :=
      route_cases s.dispatch.store listener peer syn
    · rw [hroute] at hrouted
      obtain rfl := some.inj hrouted
      exact h.clients _ _ _ hknown
    · rw [hroute] at hrouted
      simp at hrouted
    · rw [hroute] at hrouted
      obtain rfl := some.inj hrouted
      exact h.requests _ _ _ hrequest
  rw [datagram, hbound]
  dsimp only
  rw [if_pos hudp]
  have hread : s.dispatch.readSocket listener peer syn =
      ((route s.dispatch.store listener peer syn).1,
        { s.dispatch with store := (route s.dispatch.store listener peer syn).2 }) := by
    unfold readSocket
    dsimp only
    split
    · rename_i hnone
      rw [hnone]
    · rename_i pid hsome
      rw [hhanded pid hsome, hsome]
      rfl
  rewrite [hread]
  rfl

theorem inv_exit (pid : Pid) : Inv (step s (.exit pid)) := by
  refine { h with channels := fun owner place hchannel => ?_ }
  obtain ⟨c, hc, hpid, hname⟩ := h.channels owner place hchannel
  refine ⟨_, mem_map_of_mem hc, ?_, ?_⟩
  · split_ifs <;> exact hpid
  · split_ifs <;> exact hname

theorem inv_reap (pid : Pid) : Inv (step s (.reap pid)) := by
  rw [step, reap]
  split_ifs with hdead
  · have hchannel : ∀ owner place, owner ≠ pid → s.dispatch.channels owner = some place →
        (s.dispatch.removeWorker pid).channels owner = some place := by
      intro owner place hne hplace
      rw [removeWorker_channels_of_ne hne, hplace]
    refine ⟨h.names, fun owner place howner => ?_, fun hash owner place howner => ?_,
      fun owner place peer howner => ?_, fun owner place bound peer hbound hroute => ?_⟩
    · have hne : owner ≠ pid := by
        rintro rfl
        simp [removeWorker] at howner
      rw [removeWorker_channels_of_ne hne] at howner
      obtain ⟨c, hc, hpid, hname⟩ := h.channels owner place howner
      exact ⟨c, mem_filter.2 ⟨hc, by simpa [hpid] using hne⟩, hpid, hname⟩
    · obtain ⟨hrequest, hne⟩ := remove_requests.1 howner
      exact hchannel owner place hne (h.requests _ _ _ hrequest)
    · obtain ⟨hclient, hne⟩ := remove_clients.1 howner
      exact hchannel owner place hne (h.clients _ _ _ hclient)
    · obtain ⟨hroute, hne⟩ := filter_eq_some_iff.1 hroute
      exact remove_clients.2 ⟨h.routes _ _ _ _ hbound hroute, by simpa using hne⟩
  · exact h

theorem inv_message (pid : Pid) (bytes : List UInt8) : Inv (step s (.message pid bytes)) := by
  rw [step]
  unfold readChannel
  split
  · exact h
  · rename_i listener hchannel
    split
    · exact h
    · rename_i hash _
      refine { h with requests := fun hash' owner place hrequest => ?_ }
      by_cases hhash : hash' = hash
      · subst hhash
        simp only [register, update_self, some.injEq, Prod.mk.injEq] at hrequest
        obtain ⟨rfl, rfl⟩ := hrequest
        exact hchannel
      · simp only [register, update_of_ne hhash] at hrequest
        exact h.requests _ _ _ hrequest

theorem Inv.forked {workers : Workers} {d : Dispatch} {child : Child}
    (hfresh : ∀ c ∈ s.children, c.pid ≠ child.pid) (hstore : d.store = s.dispatch.store)
    (hothers : ∀ owner, owner ≠ child.pid → d.channels owner = s.dispatch.channels owner)
    (hown : ∀ place, d.channels child.pid = some place →
      ∀ bound, s.live[place]? = some bound → child.listener = bound.name) :
    Inv { s with workers := workers, dispatch := d, children := child :: s.children } := by
  have hkept : ∀ owner place, s.dispatch.channels owner = some place →
      d.channels owner = some place := by
    intro owner place hold
    obtain ⟨c, hc, hpid, -⟩ := h.channels owner place hold
    rw [hothers owner (hpid ▸ hfresh c hc), hold]
  refine ⟨h.names, fun owner place howner => ?_, fun hash owner place howner => ?_,
    fun owner place peer howner => ?_, fun owner place bound peer hbound hroute => ?_⟩
  · by_cases hnew : owner = child.pid
    · subst hnew
      exact ⟨child, mem_cons_self, rfl, hown place howner⟩
    · have hold : s.dispatch.channels owner = some place := by rw [← hothers owner hnew, howner]
      obtain ⟨c, hc, hpid, hname⟩ := h.channels owner place hold
      exact ⟨c, mem_cons_of_mem _ hc, hpid, hname⟩
  · rw [hstore] at howner
    exact hkept owner place (h.requests hash owner place howner)
  · rw [hstore] at howner
    exact hkept owner place (h.clients owner place peer howner)
  · rw [hstore]
    exact h.routes owner place bound peer hbound hroute

theorem inv_accept (listener : ℕ) (peer : IpAddr) (channel : Bool) (forked : Option Pid) :
    Inv (step s (.accept listener peer channel forked)) := by
  rw [step, accept]
  split
  · exact h
  · rename_i bound hbound
    split
    · exact h
    · rename_i pid hforks
      obtain ⟨-, hfresh⟩ := forks_some hforks
      refine h.forked hfresh ?_ (fun owner hne => ?_) fun place hplace bound' hbound' => ?_
      · split_ifs <;> rfl
      · split_ifs
        · exact addWorker_channels_of_ne hne listener
        · rfl
      · split_ifs at hplace
        · simp only [addWorker, update_self, some.injEq] at hplace
          rw [← hplace, hbound] at hbound'
          rw [← some.inj hbound']
        · -- a channel of the dispatch is one of a child that is there
          obtain ⟨c, hc, hpid, -⟩ := h.channels pid place hplace
          exact absurd hpid (hfresh c hc)

theorem name_injective {place place' : ℕ} {bound bound' : Bound}
    (hbound : s.live[place]? = some bound) (hbound' : s.live[place']? = some bound')
    (hname : bound.name = bound'.name) : place = place' := by
  obtain ⟨hlt, -⟩ := List.getElem?_eq_some_iff.1 hbound
  refine (getElem?_inj ?_ h.names).1 ?_
  · rwa [length_map]
  · rw [getElem?_map, getElem?_map, hbound, hbound', map_some, map_some, hname]

theorem Inv.routes_update {listener : ℕ} {bound : Bound}
    (hbound : s.live[listener]? = some bound) {peer : SocketAddr} {store : Store} {worker : Pid}
    (hkeep : ∀ owner place peer', (place, peer') ≠ (listener, peer) →
      s.dispatch.store.clients (place, peer') = some owner →
      store.clients (place, peer') = some owner)
    (hown : store.clients (listener, peer) = some worker) (owner : Pid) (place : ℕ) (bound' : Bound)
    (peer' : SocketAddr) (hbound' : s.live[place]? = some bound')
    (hroute : Function.update s.routes (bound.name, peer) (some worker) (bound'.name, peer') =
      some owner) :
    store.clients (place, peer') = some owner := by
  by_cases hclient : (bound'.name, peer') = (bound.name, peer)
  · obtain ⟨hname, rfl⟩ := Prod.mk.inj hclient
    obtain rfl := name_injective h hbound' hbound hname
    rw [hclient, update_self] at hroute
    rw [hown, hroute]
  · rw [update_of_ne hclient] at hroute
    refine hkeep owner place peer' ?_ (h.routes _ _ _ _ hbound' hroute)
    rintro heq
    obtain ⟨rfl, rfl⟩ := Prod.mk.inj heq
    rw [hbound] at hbound'
    exact hclient (by rw [some.inj hbound'])

theorem inv_datagram (listener : ℕ) (peer : SocketAddr) (syn : Option CookieHash) :
    Inv (step s (.datagram listener peer syn)) := by
  rcases hbound : s.live[listener]? with _ | bound
  · rwa [step, datagram, hbound]
  by_cases hudp : bound.udp = true
  swap
  · rw [step, datagram, hbound]
    dsimp only
    rwa [if_neg hudp]
  rw [step, datagram_eq h hbound hudp]
  obtain ⟨worker, hknown, hroute⟩ | ⟨-, hroute⟩ | ⟨worker, hash, hunknown, -, hrequest, hroute⟩ :=
    route_cases s.dispatch.store listener peer syn
  · rw [hroute]
    exact { h with routes := h.routes_update hbound (fun _ _ _ _ hold => hold) hknown }
  · rw [hroute]
    exact h
  · rw [hroute]
    refine ⟨h.names, h.channels, fun hash' owner place hold => ?_, fun owner place peer' hold => ?_,
      h.routes_update hbound (fun owner place peer' hne hold => ?_) (update_self ..)⟩
    · by_cases hhash : hash' = hash
      · simp [hhash] at hold
      · simp only [update_of_ne hhash] at hold
        exact h.requests _ _ _ hold
    · by_cases hclient : (place, peer') = (listener, peer)
      · obtain ⟨rfl, rfl⟩ := Prod.mk.inj hclient
        simp only [update_self, some.injEq] at hold
        subst hold
        exact h.requests _ _ _ hrequest
      · simp only [update_of_ne hclient] at hold
        exact h.clients _ _ _ hold
    · simpa only [update_of_ne hne] using hold

theorem inv_gone {listener : ℕ} (hsettled : Settled s (.gone listener)) :
    Inv (step s (.gone listener)) := by
  refine ⟨?_, fun owner place howner => ?_, h.requests, h.clients,
    fun owner place bound peer hbound hroute => ?_⟩
  · exact h.names.sublist ((eraseIdx_sublist ..).map Bound.name)
  · obtain ⟨c, hc, hpid, hname⟩ := h.channels owner place howner
    refine ⟨c, hc, hpid, fun bound hbound => hname bound ?_⟩
    simp only [step] at hbound
    obtain hlt | ⟨rfl, hlast⟩ := hsettled owner place howner
    · rwa [getElem?_eraseIdx_of_lt hlt] at hbound
    · rw [getElem?_eraseIdx_of_ge (Nat.le_refl _), getElem?_eq_none hlast] at hbound
      simp at hbound
  · simp only [step] at hbound hroute
    by_cases hlt : place < listener
    · rw [getElem?_eraseIdx_of_lt hlt] at hbound
      exact h.routes _ _ _ _ hbound hroute
    · -- the listener moved up: nobody had a route at its place
      rw [getElem?_eraseIdx_of_ge (Nat.le_of_not_lt hlt)] at hbound
      have hchannel := h.clients _ _ _ (h.routes _ _ _ _ hbound hroute)
      obtain hbefore | ⟨hat, -⟩ := hsettled owner (place + 1) hchannel
      · omega
      · omega

theorem inv_step (e : Event) (hsettled : Settled s e) : Inv (step s e) := by
  cases e with
  | exit pid => exact inv_exit h pid
  | reap pid => exact inv_reap h pid
  | datagram listener peer syn => exact inv_datagram h listener peer syn
  | message pid bytes => exact inv_message h pid bytes
  | accept listener peer channel forked => exact inv_accept h listener peer channel forked
  | gone => exact inv_gone h hsettled

theorem isolated_of_inv (e : Event) : Isolated s e := by
  cases e with
  | datagram listener peer syn =>
    intro bound hbound hudp
    rw [datagram_eq h hbound hudp]
    have howner : ∀ pid, s.dispatch.channels pid = some listener →
        ∃ c ∈ s.children, c.pid = pid ∧ c.listener = bound.name := by
      intro pid hchannel
      obtain ⟨c, hc, hpid, hname⟩ := h.channels pid listener hchannel
      exact ⟨c, hc, hpid, hname bound hbound⟩
    obtain ⟨worker, hknown, hroute⟩ | ⟨hunknown, hroute⟩ |
        ⟨worker, hash, hunknown, -, hrequest, hroute⟩ :=
      route_cases s.dispatch.store listener peer syn
    · rw [hroute]
      refine ⟨fun pid hpid => ?_, fun pid hpid => ?_⟩
      · obtain rfl := some.inj hpid
        exact howner worker (h.clients _ _ _ hknown)
      · rw [← hknown]
        exact h.routes _ _ _ _ hbound hpid
    · rw [hroute]
      refine ⟨fun pid hpid => by simp at hpid, fun pid hpid => ?_⟩
      rw [← hunknown]
      exact h.routes _ _ _ _ hbound hpid
    · rw [hroute]
      refine ⟨fun pid hpid => ?_, fun pid hpid => ?_⟩
      · obtain rfl := some.inj hpid
        exact howner worker (h.requests _ _ _ hrequest)
      · have hclient := h.routes _ _ _ _ hbound hpid
        rw [hunknown] at hclient
        simp at hclient
  | _ => trivial

end

end steps

/-- **Listeners are isolated in every run in which no place in use changes hands.** -/
theorem isolated_of_settled (limits : Limits) (udp : List Bool) (events : List Event)
    (h : Along step Settled (boot limits udp) events) :
    Along step Isolated (boot limits udp) events :=
  Along.mono_inv (fun _ e hs hc => inv_step hs e hc) (fun _ e hs _ => isolated_of_inv hs e)
    (inv_boot limits udp) h

/-! ### A listener that dies -/

def cookie : CookieHash := ⟨List.replicate 32 7, rfl⟩

def client : SocketAddr := .v4 0xC0000201#32 50000#16

def tunnelOn (listener : ℕ) : List Event :=
  [.accept listener client.ip true (some 100), .message 100 (0x52 :: cookie.1),
    .datagram listener client (some cookie)]

/-- The last listener dies; the client of the first one goes on. -/
theorem isolated_lastGone :
    Along step Settled (boot ⟨128, 8⟩ [true, true])
    (tunnelOn 0 ++ [.gone 1, .datagram 0 client none]) ∧
      Along step Isolated (boot ⟨128, 8⟩ [true, true])
        (tunnelOn 0 ++ [.gone 1, .datagram 0 client none]) := by
  have hsettled : Along step Settled (boot ⟨128, 8⟩ [true, true])
      (tunnelOn 0 ++ [.gone 1, .datagram 0 client none]) := by
    refine ⟨trivial, trivial, trivial, fun pid place hchannel => .inl ?_, trivial, trivial⟩
    -- the only child is the worker of the first listener
    have hinv := inv_datagram (inv_message (inv_accept (inv_boot ⟨128, 8⟩ [true, true]) 0 client.ip
        true
      (some 100)) 100 (0x52 :: cookie.1)) 0 client (some cookie)
    obtain ⟨c, hc, rfl, -⟩ := hinv.channels pid place hchannel
    obtain rfl := mem_singleton.1 hc
    have hplace : some place = some 0 := hchannel.symm.trans (by decide)
    rw [some.inj hplace]
    exact Nat.zero_lt_one
  exact ⟨hsettled, isolated_of_settled _ _ _ hsettled⟩

/-- The first listener dies, and the client of the second one loses its worker. -/
theorem dead_listener_shifts_routes :
    ¬ Along step Isolated (boot ⟨128, 8⟩ [true, true])
      (tunnelOn 1 ++ [.gone 0, .datagram 0 client none]) := by
  rintro ⟨-, -, -, -, h, -⟩
  have hlost := (h ⟨1, true⟩ (by decide) rfl).2 100 (by decide)
  revert hlost
  decide

end Linrdp.Supervisor.Isolation
