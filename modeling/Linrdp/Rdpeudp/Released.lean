import Linrdp.Rdpeudp.Admission
import Linrdp.Rdpeudp.Stream

/-!
# Tasks on a closed stream

Once the stream is closed, no poll should return `Pending`, and every task that was parked in one
should have been woken (`Released`). `poll_flush` does not look at `closed`: a stream that closes
with bytes in `write_buf` and no error keeps its flusher (`flusher_parks_for_good`). And a function
has one slot for a waker, so a second task that parks in it takes the place of the first. On the
runs without the two (`Sound`) nobody stays behind (`released_of_sound`). A step of the driver does
one of five things to the tasks (`Move`), and the invariant is about these.
-/

namespace Linrdp.Rdpeudp.Stream

open List Lib.Runs Rdpeudp.Connection Rdpeudp.Pdu Rdpeudp.Timing RdpeudpConnection List.Subset
open Driver

def SharedIo.slot (s : SharedIo) : Place → Option Task
  | .read => s.readWaker
  | .write => s.writeRoomWaker
  | .flush => s.flushWaker
  | .shutdown => none

def System.inHand (s : System) : List Task :=
  match s.driver.pc with
  | .hand _ _ flush room => flush.toList ++ room.toList
  | _ => []

def Released (s : System) : Prop :=
  s.shared.closed → (∀ t fn, (pollOf s.shared t fn).1 ≠ .pending) ∧ ∀ p ∈ s.parked, p.2 ∈ s.inHand

/-- The step closes the stream and gives no error: a shutdown, or the driver at an event of the
connection, at its check of the connection, or on its way out. -/
def Closing (s : System) : Step → Prop
  | .poll _ fn => fn = .shutdown
  | .shutdown => True
  | .driver .go =>
    match s.driver.pc with
    | .events _ => s.driver.conn.pollEvent.1 = some .connectionClosed
    | .check => s.driver.conn.state = .closed
    | .leaving error => error = none
    | _ => False
  | _ => False

/-- A poll does not take the slot of another task, and the stream closes with an error or with
nothing left to write. -/
def Sound (s : System) (i : Step) : Prop :=
  (∀ t fn, i = .poll t fn → (pollOf s.shared t fn).1 = .pending → ∀ t', (fn.place, t') ∈ s.parked →
    t' = t) ∧
    (s.shared.closed = false → Closing s i → s.shared.error.isSome ∨ s.shared.writeBuf = [])

structure Inv (s : System) : Prop where
  registered : ∀ p ∈ s.parked, p.2 ∈ s.inHand ∨ s.shared.slot p.1 = some p.2
  silent : s.shared.closed → ∀ place, s.shared.slot place = none
  drained : s.shared.closed → s.shared.error.isSome ∨ s.shared.writeBuf = []

theorem inv_start (conn : RdpeudpConnection) : Inv (start conn) where
  registered := nofun
  silent := nofun
  drained := nofun

/-- **What the invariant gives.** -/
theorem Inv.released {s : System} (hs : Inv s) : Released s := by
  intro hclosed
  constructor
  · intro t fn
    rcases fn with remaining | buf | _ | _
    · change (pollRead s.shared t remaining).1 ≠ .pending
      unfold pollRead
      by_cases hbuf : s.shared.readBuf ≠ []
      · rw [if_pos hbuf]
        exact Answer.noConfusion
      · rw [if_neg hbuf]
        rcases s.shared.error with _ | kind
        · simp [hclosed]
        · exact Answer.noConfusion
    · change (pollWrite s.shared t buf).1 ≠ .pending
      unfold pollWrite
      rcases s.shared.error with _ | kind
      · simp [hclosed]
      · exact Answer.noConfusion
    · change (pollFlush s.shared t).1 ≠ .pending
      unfold pollFlush
      rcases herror : s.shared.error with _ | kind
      · have hempty : s.shared.writeBuf = [] := by
          rcases hs.drained hclosed with h | h
          · rw [herror] at h
            cases h
          · exact h
        simp [hempty]
      · exact Answer.noConfusion
    · exact Answer.noConfusion
  · intro p hp
    rcases hs.registered p hp with h | h
    · exact h
    · rw [hs.silent hclosed p.1] at h
      cases h

/-! ### What a step does to the tasks -/

structure SharedIo.Same (a b : SharedIo) : Prop where
  slot : ∀ place, b.slot place = a.slot place
  writeBuf : b.writeBuf = a.writeBuf
  error : b.error = a.error
  closed : b.closed = a.closed

theorem SharedIo.Same.refl (a : SharedIo) : a.Same a := ⟨fun _ => rfl, rfl, rfl, rfl⟩

/-- `closing` says that the stream may be closed without an error. -/
inductive Move (s : System) (closing : Prop) : System → Prop
  | quiet {s' : System} (hshared : s.shared.Same s'.shared) (hparked : s'.parked = s.parked)
    (hhand : s.inHand ⊆ s'.inHand) : Move s closing s'
  | closes {s' : System} (error : Option IoErrorKind)
    (hshared : s'.shared = { s.shared with error }.close)
    (hparked : s'.parked = s.parked.filter fun p => p.2 ∉ s.shared.wakers)
    (hhand : s.inHand ⊆ s'.inHand) (herror : s.shared.error.isSome → error.isSome)
    (hwhy : error.isSome ∨ closing) : Move s closing s'
  | takes {s' : System}
    (hshared : s'.shared = { s.shared with writeBuf := [], flushWaker := none, writeRoomWaker :=
      none })
    (hparked : s'.parked = s.parked)
    (hhand : s'.inHand = s.shared.flushWaker.toList ++ s.shared.writeRoomWaker.toList)
    (hempty : s.inHand = []) : Move s closing s'
  | wakes {s' : System} (hshared : s.shared.Same s'.shared)
    (hparked : s'.parked = s.parked.filter fun p => p.2 ∉ s.inHand) : Move s closing s'
  | reads {s' : System} (data : Bytes)
    (hshared : s'.shared = { s.shared with readBuf := s.shared.readBuf ++ data, readWaker := none })
    (hparked : s'.parked = s.parked.filter fun p => p.2 ∉ s.shared.readWaker.toList)
    (hhand : s.inHand ⊆ s'.inHand) : Move s closing s'

variable {s : System} {closing : Prop}

theorem move_driver (h : s.inHand = []) (driver : Driver) : Move s closing { s with driver } := by
  refine .quiet (.refl _) rfl ?_
  rw [h]
  exact nil_subset _

theorem move_close (h : s.inHand = []) (error : Option IoErrorKind)
    (herror : s.shared.error.isSome → error.isSome) (hwhy : error.isSome ∨ closing)
    (driver : Driver) : Move s closing
    { { s with shared := { s.shared with error } }.close with driver } := by
  refine .closes error rfl rfl ?_ herror hwhy
  rw [h]
  exact nil_subset _

theorem Move.ite {a b : System} {c : Prop} [Decidable c] (ha : Move s closing a)
    (hb : Move s closing b) : Move s closing (if c then a else b) := by
  split_ifs with h
  · exact ha
  · exact hb

theorem move_selectStep [MulF64] (h : s.inHand = []) (hasRoom : Bool) (act : Act) :
    Move s closing (s.selectStep hasRoom act) := by
  have hsame : Move s closing s := move_driver h s.driver
  have hflags : ∀ shared, s.shared.Same shared → Move s closing { s with shared } :=
      fun shared hshared =>
    .quiet hshared rfl (refl _)
  rcases act with ⟨now, failure⟩ | _ | ⟨kind | wire, now⟩ | _ | now | _
  case transmit | go => exact hsame
  case pollDrained | pollWriteReady =>
    refine .ite hsame (.ite (move_driver h _) (hflags _ ⟨fun place => ?_, rfl, rfl, rfl⟩))
    rcases place with _ | _ | _ | _ <;> rfl
  case error => exact .ite (move_driver h _) hsame
  case ok =>
    refine .ite ?_ hsame
    rcases s.driver.conn.handleDatagram wire now with ⟨e | ⟨⟩, conn⟩
    · exact .ite (move_driver h _) (move_driver h _)
    · exact move_driver h _
  case timer => exact .ite hsame (move_driver h _)

theorem move_handStep {data : Bytes} {streamClosed : Bool} {flush room : Option Task}
    (h : s.inHand = flush.toList ++ room.toList) :
    Move s closing (s.handStep data streamClosed flush room) := by
  have hwoken : ∀ driver, Move s closing { s.wake (flush.toList ++ room.toList) with driver } := by
    intro driver
    refine .wakes (.refl _) ?_
    rw [h]
    rfl
  exact .ite (hwoken _) (.ite (hwoken _) (hwoken _))

theorem move_eventStep (h : s.inHand = []) (next : Next) :
    Move s (s.driver.conn.pollEvent.1 = some .connectionClosed) (s.eventStep next) := by
  unfold System.eventStep
  rcases s.driver.conn.pollEvent with ⟨_ | _ | data | _, conn⟩
  · exact move_driver h _
  · exact move_driver h _
  · refine .reads data rfl rfl ?_
    rw [h]
    exact nil_subset _
  · exact move_close h s.shared.error id (.inr rfl) _

theorem move_driverStep [MulF64] (s : System) (act : Act) :
    Move s (Closing s (.driver act)) (s.driverStep act) := by
  -- only in one place there is something in hand
  have hempty : (∀ data closed flush room, s.driver.pc ≠ .hand data closed flush room) →
      s.inHand = [] := by
    intro h
    unfold System.inHand
    split
    · rename_i data closed flush room heq
      exact absurd heq (h data closed flush room)
    · rfl
  unfold System.driverStep
  split
  · rename_i next now failure hpc
    have h : s.inHand = [] := hempty (by simp [hpc])
    rcases s.driver.conn.pollTransmit now with ⟨_ | wire, conn⟩
    · exact move_driver h _
    · rcases failure with _ | kind
      all_goals exact move_driver h _
  · rename_i hpc
    exact move_driver (hempty (by simp [hpc])) _
  · rename_i hasRoom hpc
    exact move_selectStep (hempty (by simp [hpc])) hasRoom _
  · rename_i hpc
    exact .takes rfl rfl rfl (hempty (by simp [hpc]))
  · rename_i data closed flush room hpc
    exact move_handStep (by rw [System.inHand, hpc])
  · rename_i next hpc
    simpa only [Closing, hpc] using move_eventStep (hempty (by simp [hpc])) next
  · rename_i hpc
    exact move_driver (hempty (by simp [hpc])) _
  · rename_i hpc
    have h : s.inHand = [] := hempty (by simp [hpc])
    split_ifs with hclosed
    · exact move_close h s.shared.error id (.inr (by simpa only [Closing, hpc])) _
    · exact move_driver h _
  · rename_i error hpc
    have h : s.inHand = [] := hempty (by simp [hpc])
    rcases error with _ | kind
    · exact move_close h s.shared.error id (.inr (by simp only [Closing, hpc])) _
    · have herror : (s.shared.error.or (some kind)).isSome := by
        rcases s.shared.error with _ | _ <;> rfl
      exact move_close h _ (fun _ => herror) (.inl herror) _
  · exact .quiet (.refl _) rfl (refl _)

theorem move_dropDriver (s : System) : Move s closing s.dropDriver := by
  have hfail : (s.shared.error.or (some .connectionAborted)).isSome := by
    rcases s.shared.error with _ | _ <;> rfl
  unfold System.dropDriver
  rcases hpc : s.driver.pc with next | _ | hasRoom | _ | ⟨data, streamClosed, flush,
    room⟩ | next | _ | _ |
    error | _
  case drain | select =>
    exact move_close (by rw [System.inHand, hpc]) (s.shared.error.or (some .connectionAborted))
      (fun _ => hfail) (.inl hfail) _
  all_goals exact .quiet (.refl _) rfl (refl _)

/-! ### The invariant -/

theorem SharedIo.mem_wakers {s : SharedIo} {place : Place} {t : Task} (h : s.slot place = some t) :
    t ∈ s.wakers := by
  rcases place with _ | _ | _ | _
  · simp [wakers, show s.readWaker = some t from h]
  · simp [wakers, show s.writeRoomWaker = some t from h]
  · simp [wakers, show s.flushWaker = some t from h]
  · cases h

section move

variable {s s' : System}

theorem Inv.keeps (hs : Inv s) (hslot : ∀ place, s'.shared.slot place = s.shared.slot place)
    (hclosed : s'.shared.closed = s.shared.closed) (herror : s'.shared.error = s.shared.error)
    (hwrite : s.shared.closed → s'.shared.writeBuf = s.shared.writeBuf)
    (hregistered : ∀ p ∈ s'.parked, p.2 ∈ s'.inHand ∨ s.shared.slot p.1 = some p.2) : Inv s' := by
  refine ⟨fun p hp => ?_, fun hc place => ?_, fun hc => ?_⟩
  · rw [hslot]
    exact hregistered p hp
  · rw [hslot]
    exact hs.silent (hclosed ▸ hc) place
  · rw [herror, hwrite (hclosed ▸ hc)]
    exact hs.drained (hclosed ▸ hc)

theorem Inv.same (hs : Inv s) (hshared : s.shared.Same s'.shared)
    (hregistered : ∀ p ∈ s'.parked, p.2 ∈ s'.inHand ∨ s.shared.slot p.1 = some p.2) : Inv s' :=
  hs.keeps hshared.slot hshared.closed hshared.error (fun _ => hshared.writeBuf) hregistered

theorem Inv.closes (hs : Inv s) {error : Option IoErrorKind}
    (hshared : s'.shared = { s.shared with error }.close)
    (hparked : s'.parked = s.parked.filter fun p => p.2 ∉ s.shared.wakers)
    (hhand : s.inHand ⊆ s'.inHand) (hdrained : error.isSome ∨ s.shared.writeBuf = []) : Inv s' := by
  refine ⟨fun p hp => ?_, fun _ place => ?_, fun _ => ?_⟩
  · rw [hparked, mem_filter, decide_eq_true_iff] at hp
    exact (hs.registered p hp.1).imp (hhand ·) fun hslot => absurd (SharedIo.mem_wakers hslot) hp.2
  · rw [hshared]
    rcases place with _ | _ | _ | _ <;> rfl
  · rw [hshared]
    exact hdrained

theorem Inv.takes (hs : Inv s)
    (hshared : s'.shared = { s.shared with writeBuf := [], flushWaker := none, writeRoomWaker :=
    none })
    (hparked : s'.parked = s.parked)
    (hhand : s'.inHand = s.shared.flushWaker.toList ++ s.shared.writeRoomWaker.toList)
    (hempty : s.inHand = []) : Inv s' := by
  refine ⟨fun p hp => ?_, fun hclosed place => ?_, fun _ => .inr ?_⟩
  · rw [hparked] at hp
    have hslot : s.shared.slot p.1 = some p.2 :=
        (hs.registered p hp).resolve_left (by simp [hempty])
    rw [hshared, hhand]
    rcases p with ⟨_ | _ | _ | _, t⟩
    · exact .inr hslot
    · simp [show s.shared.writeRoomWaker = some t from hslot]
    · simp [show s.shared.flushWaker = some t from hslot]
    · cases hslot
  · rw [hshared] at hclosed ⊢
    rcases place with _ | _ | _ | _
    · exact hs.silent hclosed .read
    all_goals rfl
  · rw [hshared]

theorem Inv.reads (hs : Inv s) {data : Bytes}
    (hshared : s'.shared = { s.shared with readBuf := s.shared.readBuf ++ data, readWaker := none })
    (hparked : s'.parked = s.parked.filter fun p => p.2 ∉ s.shared.readWaker.toList)
    (hhand : s.inHand ⊆ s'.inHand) : Inv s' := by
  refine ⟨fun p hp => ?_, fun hclosed place => ?_, fun hclosed => ?_⟩
  · rw [hparked, mem_filter, decide_eq_true_iff] at hp
    rw [hshared]
    refine (hs.registered p hp.1).imp (hhand ·) fun hslot => ?_
    rcases p with ⟨_ | _ | _ | _, t⟩
    · exact absurd (by simp [show s.shared.readWaker = some t from hslot]) hp.2
    all_goals exact hslot
  · rw [hshared] at hclosed ⊢
    rcases place with _ | _ | _ | _
    · rfl
    · exact hs.silent hclosed .write
    · exact hs.silent hclosed .flush
    · rfl
  · rw [hshared] at hclosed ⊢
    exact hs.drained hclosed

theorem Inv.move {closing : Prop} (hs : Inv s) (hmove : Move s closing s')
    (hdrained : s.shared.closed = false → closing → s.shared.error.isSome ∨ s.shared.writeBuf = [])
    : Inv s' := by
  cases hmove with
  | quiet hshared hparked hhand =>
    refine hs.same hshared fun p hp => ?_
    rw [hparked] at hp
    exact (hs.registered p hp).imp_left (hhand ·)
  | closes error hshared hparked hhand herror hwhy =>
    refine hs.closes hshared hparked hhand ?_
    rcases hbefore : s.shared.closed with _ | _
    · exact hwhy.elim .inl fun hclosing => (hdrained hbefore hclosing).imp_left herror
    · exact (hs.drained hbefore).imp_left herror
  | takes hshared hparked hhand hempty => exact hs.takes hshared hparked hhand hempty
  | wakes hshared hparked =>
    refine hs.same hshared fun p hp => .inr ?_
    rw [hparked, mem_filter, decide_eq_true_iff] at hp
    exact (hs.registered p hp.1).resolve_left hp.2
  | reads data hshared hparked hhand => exact hs.reads hshared hparked hhand

end move

/-! ### Polls -/

inductive Polled (s : SharedIo) (t : Task) (fn : PollFn) : Answer × SharedIo → Prop
  | answered {answer : Answer} {s' : SharedIo} (hanswer : answer ≠ .pending)
    (hslot : ∀ place, s'.slot place = s.slot place) (hclosed : s'.closed = s.closed)
    (herror : s'.error = s.error) (hwrite : s.closed → s'.writeBuf = s.writeBuf) :
    Polled s t fn (answer, s')
  | parks {s' : SharedIo} (hslot : ∀ place, s'.slot place = if place =
      fn.place then some t else s.slot place)
    (hclosed : s'.closed = s.closed) (herror : s'.error = s.error)
      (hwrite : s'.writeBuf = s.writeBuf) :
    Polled s t fn (.pending, s')

theorem polled_pollOf {fn : PollFn} (hfn : fn ≠ .shutdown) (s : SharedIo) (t : Task) :
    Polled s t fn (pollOf s t fn) := by
  have hsame : ∀ answer, answer ≠ .pending → Polled s t fn (answer, s) := fun answer h =>
    .answered h (fun _ => rfl) rfl rfl fun _ => rfl
  rcases fn with remaining | buf | _ | _
  · rw [pollOf, pollRead]
    by_cases hbuf : s.readBuf ≠ []
    · rw [if_pos hbuf]
      exact .answered Answer.noConfusion (fun place => by cases place <;> rfl) rfl rfl fun _ => rfl
    rw [if_neg hbuf]
    rcases herror : s.error with _ | kind
    · split_ifs with hclosed
      · exact hsame _ Answer.noConfusion
      · exact .parks (fun place => by cases place <;> rfl) rfl herror.symm rfl
    · exact hsame _ Answer.noConfusion
  · rw [pollOf, pollWrite]
    rcases herror : s.error with _ | kind
    · split_ifs with hclosed hfull
      · exact hsame _ Answer.noConfusion
      · exact .parks (fun place => by cases place <;> rfl) rfl herror.symm rfl
      · exact .answered Answer.noConfusion (fun place => by cases place <;> rfl) rfl herror.symm
          fun h => absurd h hclosed
    · exact hsame _ Answer.noConfusion
  · rw [pollOf, pollFlush]
    rcases herror : s.error with _ | kind
    · split_ifs with hempty
      · exact hsame _ Answer.noConfusion
      · exact .parks (fun place => by cases place <;> rfl) rfl herror.symm rfl
    · exact hsame _ Answer.noConfusion
  · exact absurd rfl hfn

section poll

variable {s : System} {t : Task} {fn : PollFn} {shared : SharedIo}

theorem Inv.shutdown (hs : Inv s)
    (hdrained : s.shared.closed = false → s.shared.error.isSome ∨ s.shared.writeBuf = []) :
    Inv (s.poll t .shutdown) := by
  have hclose : Inv s.close :=
    hs.move (.closes s.shared.error rfl rfl (refl _) id (.inr trivial)) fun hopen _ =>
      hdrained hopen
  refine ⟨fun p hp => hclose.registered p ?_, hclose.silent, hclose.drained⟩
  change p ∈ s.close.parked.filter _ ++ [] at hp
  rw [append_nil] at hp
  exact mem_of_mem_filter hp

theorem Inv.parks (hs : Inv s)
    (hslot : ∀ place, shared.slot place = if place = fn.place then some t else s.shared.slot place)
    (hopen : shared.closed = false) (halone : ∀ t', (fn.place, t') ∈ s.parked → t' = t) :
    Inv { s with shared, parked := s.parked.filter (fun p => p ≠ (fn.place, t)) ++
    [(fn.place, t)] } := by
  refine ⟨fun p hp => ?_, fun hc => ?_, fun hc => ?_⟩
  · rw [hslot]
    rcases mem_append.1 hp with hp | hp
    · obtain ⟨hmem, hne⟩ := mem_filter.1 hp
      rw [decide_eq_true_iff] at hne
      rcases p with ⟨place, t'⟩
      have hplace : place ≠ fn.place := by
        rintro rfl
        exact hne (by rw [halone t' hmem])
      rw [if_neg hplace]
      exact hs.registered _ hmem
    · obtain rfl := mem_singleton.1 hp
      rw [if_pos rfl]
      exact .inr rfl
  all_goals
    rw [hopen] at hc
    cases hc

theorem Inv.poll (hs : Inv s)
    (halone : (pollOf s.shared t fn).1 = .pending → ∀ t', (fn.place, t') ∈ s.parked → t' = t)
    (hdrained : s.shared.closed = false → fn = .shutdown → s.shared.error.isSome ∨
    s.shared.writeBuf = []) : Inv (s.poll t fn) := by
  by_cases hfn : fn = .shutdown
  · subst hfn
    exact hs.shutdown fun hopen => hdrained hopen rfl
  have hreleased : s.shared.closed → (pollOf s.shared t fn).1 ≠ .pending := fun hclosed =>
    (hs.released hclosed).1 t fn
  have hpolled := polled_pollOf hfn s.shared t
  unfold System.poll
  dsimp only
  rw [if_neg hfn]
  generalize pollOf s.shared t fn = r at hpolled halone hreleased
  cases hpolled with
  | answered hanswer hslot hclosed herror hwrite =>
    rw [if_neg hanswer, append_nil]
    exact hs.keeps hslot hclosed herror hwrite fun p hp => hs.registered p (mem_of_mem_filter hp)
  | parks hslot hclosed herror hwrite =>
    refine hs.parks hslot ?_ (halone rfl)
    rw [hclosed, Bool.eq_false_iff]
    exact fun h => hreleased h rfl

end poll

theorem inv_step [MulF64] {s : System} {i : Step} (hs : Inv s) (hi : Sound s i) :
    Inv (step s i) := by
  rcases i with ⟨t, fn⟩ | _ | act | _
  · exact hs.poll (hi.1 t fn rfl) hi.2
  · exact hs.move (.closes s.shared.error rfl rfl (refl _) id (.inr trivial)) hi.2
  · exact hs.move (move_driverStep s act) hi.2
  · exact hs.move (move_dropDriver s) hi.2

/-- **Nobody stays parked on a closed stream** in a sound run: whatever the connection does, however
the stream is closed, and in every interleaving. -/
theorem released_of_sound [MulF64] (conn : RdpeudpConnection) (steps : List Step)
    (h : Along step Sound (start conn) steps) :
    Along step (fun s i => Released (step s i)) (start conn) steps :=
  h.mono_inv (fun _ _ => inv_step) (fun _ _ hs hi => (inv_step hs hi).released) (inv_start conn)

def readerAndShutdown : List Step := [.poll 0 (.read 1), .poll 1 .shutdown]

theorem sound_readerAndShutdown :
    Along (@step roundDown) Sound (start waitingServer) readerAndShutdown := by
  refine ⟨⟨fun t fn _ _ t' hmem => ?_, fun _ hclosing => ?_⟩,
    ⟨fun t fn hpoll hpending => ?_, fun _ _ => ?_⟩, trivial⟩
  · cases hmem
  · cases hclosing
  · obtain ⟨rfl, rfl⟩ := Step.poll.inj hpoll
    cases hpending
  · exact .inr rfl

theorem released_readerAndShutdown :
    Along (@step roundDown) Sound (start waitingServer) readerAndShutdown ∧
      Along (@step roundDown) (fun s i => Released (@step roundDown s i))
        (start waitingServer) readerAndShutdown :=
  ⟨sound_readerAndShutdown,
    @released_of_sound roundDown waitingServer readerAndShutdown sound_readerAndShutdown⟩

def idleWithOneByte : List Step :=
  [.driver (.transmit 0 none), .driver (.transmit 0 none), .driver .go,
    .driver (.received (.ok [0, 0, 0, 1, 0, 8, 0, 4, 0, 1, 1, 0]) 0), .driver (.transmit 0 none),
    .driver .go, .driver .go, .driver .go, .driver .go, .driver .go,
    .poll 0 (.write [1]),
    .driver (.timer 30000), .driver (.transmit 30000 none),
    .driver .go, .driver .go, .driver .go, .driver .go, .driver .go]

/-- The flush of the task that wrote the byte is never answered: the stream is closed, the driver
has ended, and the task is parked. -/
theorem flusher_parks_for_good :
    ¬Along (@step roundDown) (fun s i => Released (@step roundDown s i))
        (start waitingServer) (idleWithOneByte ++ [.poll 0 .flush]) ∧
      (run (@step roundDown) (start waitingServer)
        (idleWithOneByte ++ [.poll 0 .flush])).driver.pc = .done := by
  constructor
  · intro h
    obtain ⟨hreleased, -⟩ := ((along_append idleWithOneByte [.poll 0 .flush] _).1 h).2
    have hwoken := (hreleased (by decide)).2 (.flush, 0) (by decide)
    revert hwoken
    decide
  · decide

/-! ### An empty send buffer -/

section room

variable {c : RdpeudpConnection}

def room (c : RdpeudpConnection) : ℕ :=
  sendBufferWindowMultiple * 2 ^ c.config.logWindowSize * c.maxPayload

variable (hstate : c.state = .established)

include hstate

theorem send_of_empty (hempty : c.sendBuffer = []) (data : Bytes) :
    c.send data = if room c < data.length then (.error ⟨⟨"send", .sendBufferFull⟩, data⟩, c)
      else (.ok (), { c with sendBuffer := c.split data }) := by
  have hpayload : 1 ≤ c.maxPayload := le_max_right _ _
  have hentries : 1 ≤ sendBufferWindowMultiple * 2 ^ c.config.logWindowSize :=
    Nat.mul_pos (by decide) (Nat.two_pow_pos _)
  unfold send room
  simp only [hstate, hempty, nil_append, length_nil]
  generalize sendBufferWindowMultiple * 2 ^ c.config.logWindowSize = entries at hentries ⊢
  have hchunks : entries < (data.length + c.maxPayload - 1) / c.maxPayload ↔
      entries * c.maxPayload < data.length := by
    rw [← Nat.succ_le_iff, Nat.le_div_iff_mul_le hpayload, Nat.succ_mul]
    omega
  refine if_congr ?_ rfl rfl
  omega

theorem flushPendingWrite_full {data : Bytes}
    (hfull : c.send data = (.error ⟨⟨"send", .sendBufferFull⟩, data⟩, c)) (pc : Pc) :
    (mk c (some data) pc).flushPendingWrite = ⟨c, some data, .check⟩ := by
  rw [flushPendingWrite, if_neg (by rw [hstate]; decide)]
  dsimp only
  rw [queueWrite, hfull]
  rfl

/-- **A write into an empty send buffer** is taken exactly if the chunks of a full buffer would hold
it. If they would not, the driver gets it back, and is where it was. -/
theorem send_of_empty_iff (hempty : c.sendBuffer = []) (data : Bytes) (pc : Pc) :
    ((c.send data).1 = .ok () ↔ data.length ≤ room c) ∧
      (room c < data.length → (mk c (some data) pc).flushPendingWrite =
      ⟨c, some data, .check⟩) := by
  have hsend := send_of_empty hstate hempty data
  split_ifs at hsend with hlong
  · refine ⟨iff_of_false ?_ (not_le.2 hlong), fun _ => flushPendingWrite_full hstate hsend pc⟩
    rw [hsend]
    exact nofun
  · rw [hsend]
    exact ⟨iff_of_true rfl (not_lt.1 hlong), fun h => absurd h hlong⟩

end room

def establishedServer : RdpeudpConnection :=
  (@handleDatagram roundDown waitingServer
    [0, 0, 0, 1, 0, 8, 0, 4, 0, 1, 1, 0] 0).2

theorem send_of_empty_one : (establishedServer.send [1]).1 = .ok () :=
  (send_of_empty_iff (by decide) (by decide) [1] .tail).1.2 (by decide)

def longWrite : Bytes := List.replicate 69697 0

/-- The stream takes 69697 bytes at once, and the connection never does. -/
theorem longWrite_stuck : establishedServer.state = .established ∧
    establishedServer.sendBuffer = [] ∧ (pollWrite .new 0 longWrite).1 = .written 69697 ∧
    establishedServer.send longWrite =
      (.error ⟨⟨"send", .sendBufferFull⟩, longWrite⟩, establishedServer) ∧
    (mk establishedServer (some longWrite) .tail).flushPendingWrite =
      ⟨establishedServer, some longWrite, .check⟩ := by
  have hstate : establishedServer.state = .established := by decide
  have hempty : establishedServer.sendBuffer = [] := by decide
  have hlength : longWrite.length = 69697 := length_replicate
  have hsend := send_of_empty hstate hempty longWrite
  rw [hlength, if_pos (by decide)] at hsend
  exact ⟨hstate, hempty, congrArg Answer.written hlength, hsend,
    flushPendingWrite_full hstate hsend .tail⟩

end Linrdp.Rdpeudp.Stream
