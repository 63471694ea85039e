import Linrdp.Rdpeudp.Traffic

/-!
# Two endpoints and the network between them

The network delivers any datagram that was sent, as often as it likes and in any order, or never.
What one end passes on is a prefix of what the other end accepted, as long as every data packet
arrives while its chunk is near the one the receiver waits for (`received_in_order`). `Stream` is
the invariant of one direction: the datagrams on the wire and the chunks in the reorder buffer carry
the chunks the sender accepted, under their own numbers.
-/

namespace Linrdp.Rdpeudp.Connection

open Function List Lib.Runs Rdpeudp.Pdu Rdpeudp.Handshake Rdpeudp.Seq
open Rdpeudp.Timing Rdpeudp.Sending Rdpeudp.Receiving Rdpeudp.Sender
open RdpeudpConnection

def Side.peer : Side → Side
  | .client => .server
  | .server => .client

@[simp] theorem Side.peer_peer (s : Side) : s.peer.peer = s := by cases s <;> rfl

theorem Side.peer_ne (s : Side) : s.peer ≠ s := by cases s <;> decide

structure Datagram where
  wire : Bytes
  chunk : Option ℕ

/-- A connection, with what it sent (the latest first), what its `send` accepted and the payloads
that were fetched from it. -/
structure Endpoint where
  conn : RdpeudpConnection
  sent : List Datagram
  (accepted fetched : List Bytes)

def Event.payload : Event → Option Bytes
  | .dataReceived data => some data
  | _ => none

theorem payload_received (chunks : List Bytes) :
    (chunks.map Event.dataReceived).filterMap Event.payload = chunks := by
  rw [filterMap_map]
  exact filterMap_some

namespace Endpoint

variable (e : Endpoint)

def received : List Bytes := e.fetched ++ e.conn.pendingEvents.filterMap Event.payload

def send (data : Bytes) : Endpoint :=
  match e.conn.send data with
  | (.ok (), c) => { e with conn := c, accepted := e.accepted ++ [data] }
  | (.error _, c) => { e with conn := c }

def timeout (now : ℕ) : Endpoint := { e with conn := e.conn.handleTimeout now }

def transmit (now : ℕ) : Endpoint :=
  match e.conn.pollTransmit now with
  | (none, c) => { e with conn := c }
  | (some wire, c) => { e with conn := c, sent := ⟨wire, e.conn.chunkOf c⟩ :: e.sent }

def receive [MulF64] (e : Endpoint) (wire : Bytes) (now : ℕ) : Endpoint :=
  { e with conn := (e.conn.handleDatagram wire now).2 }

def fetch : Endpoint :=
  { e with
    conn := e.conn.pollEvent.2
    fetched := e.fetched ++ (e.conn.pollEvent.1.bind Event.payload).toList }

end Endpoint

abbrev Network := Side → Endpoint

/-- `deliver s late now`: the end `s` gets a datagram after which its peer has sent `late` others.
-/
inductive NetEvent
  | send (s : Side) (data : Bytes)
  | timeout (s : Side) (now : ℕ)
  | transmit (s : Side) (now : ℕ)
  | deliver (s : Side) (late now : ℕ)
  | fetch (s : Side)

namespace Network

def step [MulF64] (n : Network) : NetEvent → Network
  | .send s data => Function.update n s ((n s).send data)
  | .timeout s now => Function.update n s ((n s).timeout now)
  | .transmit s now => Function.update n s ((n s).transmit now)
  | .deliver s late now =>
    match (n s.peer).sent[late]? with
    | none => n
    | some d => Function.update n s ((n s).receive d.wire now)
  | .fetch s => Function.update n s (n s).fetch

def Near (n : Network) : NetEvent → Prop
  | .deliver s late _ => ∀ d ∈ (n s.peer).sent[late]?, ∀ k ∈ d.chunk, ∀ w ∈ (n s).conn.recvWindow,
      w.nextChannelSeq < k + 0x8000 ∧ k < w.nextChannelSeq + 0x10000
  | _ => True

instance (n : Network) : (event : NetEvent) → Decidable (n.Near event)
  | .deliver s late _ => inferInstanceAs (Decidable (∀ d ∈ (n s.peer).sent[late]?, ∀ k ∈ d.chunk,
      ∀ w ∈ (n s).conn.recvWindow, w.nextChannelSeq < k + 0x8000 ∧ k < w.nextChannelSeq + 0x10000))
  | .send .. | .timeout .. | .transmit .. | .fetch .. => inferInstanceAs (Decidable True)

end Network

open Network

/-! ### An established endpoint -/

/-- An endpoint whose connection has just been established: empty windows, nothing to send, and of
the handshake at most datagrams that are no version 2 packets. -/
structure Established (e : Endpoint) : Prop where
  state : e.conn.state = .established
  windows : ∃ params, e.conn.params = some params ∧ params.logWindowSize ≤ logWindowSizeMax ∧
    e.conn.sendWindow = some (.new initialDataSeq initialChannelSeq params.logWindowSize) ∧
    e.conn.recvWindow = some (.new initialDataSeq initialChannelSeq params.logWindowSize)
  sendBuffer : e.conn.sendBuffer = []
  reliability : e.conn.reliability = []
  transmits : ∀ wire ∈ e.conn.pendingTransmits, Refused wire
  handshake : ∀ wire ∈ e.conn.handshakeDatagram, Refused wire
  sent : ∀ d ∈ e.sent, Refused d.wire
  accepted : e.accepted = []
  received : e.received = []

/-! ### One direction -/

def Carries (chunks : List Bytes) (d : Datagram) : Prop :=
  Refused d.wire ∨ ∃ byte packet, decodeDatagram d.wire = .ok (byte, packet) ∧
    byte.isDummy = false ∧
    ∀ body ∈ packet.dataBody, ∃ i, body.channelSeqNum = truncateSeq (chunkSeq i) ∧
      chunks[i]? = some body.data ∧ d.chunk = some (chunkSeq i)

/-- From the endpoint `a` to the endpoint `b`: `chunks` is what `a` accepted, cut up, and `b` passed
on the first `m` of them. -/
structure Stream (a b : Endpoint) (chunks : List Bytes) (m : ℕ) : Prop where
  accepted : chunks.flatten = a.accepted.flatten
  kept : ∃ acked k, Kept chunks acked k a.conn.outbox
  sent : ∀ d ∈ a.sent, Carries chunks d
  window : ∃ w, b.conn.recvWindow = some w ∧ w.InOrder chunks m
  received : b.received = chunks.take m

theorem flatten_chunks {size : ℕ} (h : size ≠ 0) (data : Bytes) :
    (chunks size data).flatten = data := by
  induction data using chunks.induct size with
  | case1 data hend =>
    rw [chunks, dif_pos hend, hend.resolve_left h]
    rfl
  | case2 data hmore ih => rw [chunks, dif_neg hmore, flatten_cons, ih, take_append_drop]

theorem flatten_split (c : RdpeudpConnection) (data : Bytes) : (c.split data).flatten = data := by
  unfold split
  split_ifs
  · exact flatten_singleton
  · have hpos : 1 ≤ c.maxPayload := le_max_right _ _
    exact flatten_chunks (by omega) data

theorem Carries.append {chunks : List Bytes} {d : Datagram} (h : Carries chunks d)
    (more : List Bytes) : Carries (chunks ++ more) d := by
  rcases h with hrefused | ⟨byte, packet, hdecode, hbyte, hbody⟩
  · exact .inl hrefused
  · refine .inr ⟨byte, packet, hdecode, hbyte, fun body hb => ?_⟩
    obtain ⟨i, hseq, hdata, hchunk⟩ := hbody body hb
    exact ⟨i, hseq, getElem?_append_of_eq_some hdata _, hchunk⟩

section roles

variable {a b : Endpoint} {chunks : List Bytes} {m : ℕ}

section

variable (h : Stream a b chunks m)
include h

theorem Stream.sender {a' : Endpoint} (haccepted : a'.accepted = a.accepted)
    (hkept : ∃ acked k, Kept chunks acked k a'.conn.outbox)
    (hsent : ∀ d ∈ a'.sent, Carries chunks d) : Stream a' b chunks m :=
  ⟨by rw [haccepted]; exact h.accepted, hkept, hsent, h.window, h.received⟩

theorem Stream.receiver {b' : Endpoint} {m' : ℕ}
    (hwindow : ∃ w, b'.conn.recvWindow = some w ∧ w.InOrder chunks m')
    (hreceived : b'.received = chunks.take m') : Stream a b' chunks m' :=
  ⟨h.accepted, h.kept, h.sent, hwindow, hreceived⟩

/-! ### The operations of the sender -/

theorem Stream.send (data : Bytes) : ∃ chunks', Stream (a.send data) b chunks' m := by
  obtain ⟨acked, k, hkept⟩ := h.kept
  obtain ⟨w, hw, horder⟩ := h.window
  unfold Endpoint.send
  rcases a.conn.send_cases data with ⟨-, hok⟩ | ⟨e, herror⟩
  · rw [hok]
    refine ⟨chunks ++ a.conn.split data, ?_, ⟨acked, k, hkept.accept _⟩,
      fun d hd => (h.sent d hd).append _, ⟨w, hw, horder.append _⟩, ?_⟩
    · rw [flatten_append, h.accepted, flatten_split, flatten_append, flatten_singleton]
    · rw [h.received, take_append_of_le_length horder.passed]
  · rw [herror]
    exact ⟨chunks, h.sender rfl h.kept h.sent⟩

theorem Stream.timeout (now : ℕ) : Stream (a.timeout now) b chunks m := by
  obtain ⟨acked, k, hkept⟩ := h.kept
  exact h.sender rfl ⟨acked, kept_handleTimeout hkept now⟩ h.sent

theorem Stream.transmit (hsound : a.conn.Sound) (now : ℕ) : Stream (a.transmit now) b chunks m := by
  obtain ⟨acked, k, hkept⟩ := h.kept
  have hkept' := kept_of_takes hkept (takes_pollTransmit a.conn now)
  have hnew : ∀ wire c', a.conn.pollTransmit now = (some wire, c') →
      Carries chunks ⟨wire, a.conn.chunkOf c'⟩ := by
    intro wire c' hpoll
    rcases pollTransmit_spec hsound now with ⟨hnone, -⟩ | ⟨wire', rest, hpending, heq⟩ |
      ⟨wire', c'', heq, -, hemits⟩
    · rw [hpoll] at hnone
      cases hnone
    · cases hpoll.symm.trans heq
      exact .inl (hsound.transmits wire (by rw [hpending]; exact mem_cons_self))
    · cases hpoll.symm.trans heq
      obtain ⟨byte, packet, hdecode, hbyte, hbody⟩ := hemits.wire
      refine .inr ⟨byte, packet, hdecode, hbyte, fun body hb => ?_⟩
      obtain ⟨channelSeq, hholds, hchunk, hseq⟩ := hbody body hb
      rcases hholds with ⟨rfl, hhead⟩ | hqueued
      · rw [hkept.next] at hseq hchunk
        rw [hkept.buffer, head?_drop] at hhead
        exact ⟨k, hseq, hhead, hchunk⟩
      · obtain ⟨i, rfl, hdata⟩ := hkept.queued _ hqueued
        exact ⟨i, hseq, hdata, hchunk⟩
  unfold Endpoint.transmit
  rcases hpoll : a.conn.pollTransmit now with ⟨_ | wire, c'⟩
  · rw [hpoll] at hkept'
    exact h.sender rfl ⟨acked, hkept'⟩ h.sent
  · rw [hpoll] at hkept'
    exact h.sender rfl ⟨acked, hkept'⟩ (forall_mem_cons.2 ⟨hnew wire c' hpoll, h.sent⟩)

theorem Stream.receive [MulF64] (hsound : a.conn.Sound) (wire : Bytes)
    (now : ℕ) : Stream (a.receive wire now) b chunks m := by
  obtain ⟨acked, k, hkept⟩ := h.kept
  exact h.sender rfl ⟨_, kept_handleDatagram hkept (.of_established hsound.state) wire now⟩ h.sent

end

/-! ### The operations of the receiver -/

section

variable (h : Stream a b chunks m)
include h

theorem Stream.send_right (data : Bytes) : Stream a (b.send data) chunks m := by
  unfold Endpoint.send
  rcases b.conn.send_cases data with ⟨-, hok⟩ | ⟨e, herror⟩
  · rw [hok]
    exact h.receiver h.window h.received
  · rw [herror]
    exact h.receiver h.window h.received

theorem Stream.timeout_right (now : ℕ) : Stream a (b.timeout now) chunks m := by
  have hages := ages_handleTimeout b.conn now
  obtain ⟨w, hw, horder⟩ := h.window
  obtain ⟨closed, hevents, hclosed⟩ := hages.events
  refine h.receiver ⟨w, hages.recvWindow.trans hw, horder⟩ ?_
  have hnone : closed.filterMap Event.payload = [] := by
    refine filterMap_eq_nil_iff.2 fun e he => ?_
    rw [hclosed e he]
    rfl
  rw [← h.received, Endpoint.received, Endpoint.timeout, hevents, filterMap_append, hnone,
    append_nil, Endpoint.received]

theorem Stream.transmit_right (hsound : b.conn.Sound) (now : ℕ) :
    Stream a (b.transmit now) chunks m := by
  obtain ⟨w, hw, horder⟩ := h.window
  -- the slots that are acknowledged have no part in the order
  have hreleases : Releases b.conn (b.conn.pollTransmit now).2 := by
    rcases pollTransmit_spec hsound now with ⟨-, hview⟩ | ⟨wire, rest, -, heq⟩ | ⟨wire, c', heq, -,
      hemits⟩
    · exact .inl (congrArg View.inbox hview)
    · rw [heq]
      exact .inl rfl
    · rw [heq]
      exact hemits.releases
  have hinbox : ∃ w', (b.conn.pollTransmit now).2.recvWindow = some w' ∧ w'.InOrder chunks m ∧
      (b.conn.pollTransmit now).2.pendingEvents = b.conn.pendingEvents := by
    rcases hreleases with hsame | hreleased
    · exact ⟨w, (congrArg Inbox.window hsame).trans hw, horder, congrArg Inbox.events hsame⟩
    · refine ⟨w.releaseAcknowledged, (congrArg Inbox.window hreleased).trans ?_,
        horder.releaseAcknowledged, congrArg Inbox.events hreleased⟩
      rw [hw]
      rfl
  obtain ⟨w', hw', horder', hevents⟩ := hinbox
  unfold Endpoint.transmit
  rcases hpoll : b.conn.pollTransmit now with ⟨_ | wire, c'⟩
  all_goals
    rw [hpoll] at hw' hevents
    refine h.receiver ⟨w', hw', horder'⟩ ?_
    rw [← h.received, Endpoint.received, Endpoint.received, hevents]

theorem Stream.fetch_right : Stream a b.fetch chunks m := by
  refine h.receiver h.window ?_
  rw [← h.received]
  unfold Endpoint.received Endpoint.fetch pollEvent
  rcases b.conn.pendingEvents with _ | ⟨e, events⟩
  · simp
  · cases e <;> simp [Event.payload, filterMap_cons]

/-- **A datagram brings the next chunks or nothing.** -/
theorem Stream.receive_right [MulF64] (hsound : b.conn.Sound) {d : Datagram}
    (hd : d ∈ a.sent) (hnear : ∀ k ∈ d.chunk, ∀ w ∈ b.conn.recvWindow,
      w.nextChannelSeq < k + 0x8000 ∧ k < w.nextChannelSeq + 0x10000) (now : ℕ) :
    ∃ m', Stream a (b.receive d.wire now) chunks m' := by
  obtain ⟨w, hw, horder⟩ := h.window
  have hunchanged : ∀ c : RdpeudpConnection, c.inbox = b.conn.inbox →
      Stream a { b with conn := c } chunks m := by
    intro c hinbox
    refine h.receiver ⟨w, (congrArg Inbox.window hinbox).trans hw, horder⟩ ?_
    rw [← h.received, Endpoint.received, Endpoint.received,
      show c.pendingEvents = b.conn.pendingEvents from congrArg Inbox.events hinbox]
  rcases handleDatagram_cases hsound.state d.wire
    now with hview | hresend | ⟨byte, packet, hdecode, hprocess⟩
  · exact ⟨m, hunchanged _ (congrArg View.inbox hview)⟩
  · exact ⟨m, hunchanged _ (by rw [hresend]; rfl)⟩
  rcases h.sent d hd with ⟨e, hrefused⟩ | ⟨byte', packet', hdecode', hbyte, hbody⟩
  · rw [hrefused] at hdecode
    cases hdecode
  cases hdecode'.symm.trans hdecode
  -- the number of the chunk is read as it is, or as one that was passed on
  obtain ⟨m', horder', htake⟩ := takePacket_inOrder horder packet fun body hb => by
    obtain ⟨i, hseq, hdata, hchunk⟩ := hbody body hb
    obtain ⟨hbehind, hahead⟩ := hnear (chunkSeq i) hchunk w hw
    rw [hseq]
    rcases reconstruct_near hbehind hahead with hsame | hold
    · exact .inr ⟨i, hsame, hdata⟩
    · exact .inl hold
  have hinbox := processPacket_inbox (c := b.conn.touch now) hw hbyte packet now
  rw [← hprocess] at hinbox
  refine ⟨m', h.receiver ⟨_, congrArg Inbox.window hinbox, horder'⟩ ?_⟩
  have hevents : (b.conn.handleDatagram d.wire now).2.pendingEvents =
      b.conn.pendingEvents ++ (takePacket w packet).1.map Event.dataReceived :=
    congrArg Inbox.events hinbox
  rw [htake, ← h.received, Endpoint.received, Endpoint.receive, hevents, filterMap_append,
    payload_received, ← append_assoc, Endpoint.received]

end

end roles

/-! ### The network -/

def Network.Inv (n : Network) : Prop :=
  ∀ s, (n s).conn.Sound ∧ ∃ chunks m, Stream (n s) (n s.peer) chunks m

theorem Network.inv_start {n : Network} (h : ∀ s, Established (n s)) : n.Inv := by
  intro s
  obtain ⟨params, hparams, hlog, hsend, -⟩ := (h s).windows
  obtain ⟨params', -, -, -, hrecv⟩ := (h s.peer).windows
  refine ⟨⟨.inl (h s).state, ⟨params, hparams, hlog⟩, (h s).transmits, (h s).handshake⟩, [], 0, ?_⟩
  refine ⟨by rw [(h s).accepted], ⟨[], 0, ?_⟩, fun d hd => .inl ((h s).sent d hd),
    ⟨_, hrecv, RecvWindow.inOrder_new [] initialDataSeq params'.logWindowSize⟩, (h s.peer).received⟩
  exact kept_start (outbox_window hsend) (h s).sendBuffer (h s).reliability

theorem Network.inv_update {n : Network} (h : n.Inv) (s : Side) {e : Endpoint}
    (hsound : e.conn.Sound) (hsender : ∀ chunks m, Stream (n s) (n s.peer) chunks m →
      ∃ chunks' m', Stream e (n s.peer) chunks' m')
    (hreceiver : ∀ chunks m, Stream (n s.peer) (n s) chunks m →
      ∃ chunks' m', Stream (n s.peer) e chunks' m') : Network.Inv (Function.update n s e) := by
  intro t
  obtain ⟨-, chunks, m, hstream⟩ := h s
  obtain ⟨hpeer, chunks', m', hstream'⟩ := h s.peer
  rw [Side.peer_peer] at hstream'
  by_cases ht : t = s
  · subst ht
    rw [update_self, update_of_ne t.peer_ne]
    exact ⟨hsound, hsender chunks m hstream⟩
  · obtain rfl : t = s.peer := by
      cases t <;> cases s <;> first | rfl | exact absurd rfl ht
    rw [update_of_ne ht, Side.peer_peer, update_self]
    exact ⟨hpeer, hreceiver chunks' m' hstream'⟩

theorem Network.inv_step [MulF64] {n : Network} (h : n.Inv) (event : NetEvent)
    (hnear : n.Near event) : (n.step event).Inv := by
  cases event with
  | send s data =>
    refine inv_update h s ?_ (fun chunks m hs => ?_) fun chunks m hs =>
      ⟨chunks, m, hs.send_right data⟩
    · unfold Endpoint.send
      rcases (n s).conn.send_cases data with ⟨-, hok⟩ | ⟨e, herror⟩
      · rw [hok]
        exact (h s).1.of_link rfl
      · rw [herror]
        exact (h s).1
    · obtain ⟨chunks', hs'⟩ := hs.send data
      exact ⟨chunks', m, hs'⟩
  | timeout s now =>
    exact inv_update h s ((h s).1.of_ages (ages_handleTimeout _ now))
      (fun chunks m hs => ⟨chunks, m, hs.timeout now⟩) fun chunks m hs =>
        ⟨chunks, m, hs.timeout_right now⟩
  | transmit s now =>
    refine inv_update h s ?_ (fun chunks m hs => ⟨chunks, m, hs.transmit (h s).1 now⟩)
      fun chunks m hs => ⟨chunks, m, hs.transmit_right (h s).1 now⟩
    have hsound := (h s).1.pollTransmit now
    unfold Endpoint.transmit
    rcases hpoll : (n s).conn.pollTransmit now with ⟨_ | wire, c'⟩
    all_goals
      rw [hpoll] at hsound
      exact hsound
  | deliver s late now =>
    rw [step]
    rcases hsent : (n s.peer).sent[late]? with _ | d
    · exact h
    · refine inv_update h s ((h s).1.handleDatagram d.wire now)
        (fun chunks m hs => ⟨chunks, m, hs.receive (h s).1 d.wire now⟩) fun chunks m hs => ?_
      obtain ⟨m', hs'⟩ := hs.receive_right (h s).1 (mem_of_getElem? hsent) (hnear d hsent) now
      exact ⟨chunks, m', hs'⟩
  | fetch s =>
    refine inv_update h s ((h s).1.of_link rfl) (fun chunks m hs => ?_)
      fun chunks m hs => ⟨chunks, m, hs.fetch_right⟩
    exact ⟨chunks, m, hs.sender rfl hs.kept hs.sent⟩

/-- **What is passed on is a prefix of what was accepted**, over every run in which each data packet
arrives while its chunk is near the one the receiver waits for. -/
theorem received_in_order [MulF64] {n : Network} (h : ∀ s, Established (n s))
    (events : List NetEvent) (hnear : Along step Network.Near n events) (s : Side) :
    (run step n events s).received.flatten <+:
      (run step n events s.peer).accepted.flatten := by
  have hinv : Network.Inv (run step n events) :=
    Along.inv_run (I := Network.Inv) (fun _ event hI hC => inv_step hI event hC)
      (inv_start h) hnear
  obtain ⟨-, chunks, m, hstream⟩ := hinv s.peer
  rw [Side.peer_peer] at hstream
  rw [hstream.received, ← hstream.accepted]
  exact ⟨(chunks.drop m).flatten, by rw [← flatten_append, take_append_drop]⟩

def greeted : Network
  | .client =>
    let synAck := [0, 0, 0, 1, 0, 8, 16, 5, 0, 0, 0, 1, 4, 208, 4, 208, 0, 1, 1, 1]
    let c := (@handleDatagram roundDown ((new .client clientConfig).enqueueSyn 0) synAck 0).2
    ⟨((c.pollTransmit 0).2.pollTransmit 0).2, [], [], []⟩
  | .server =>
    let finalAck := [0, 0, 0, 1, 0, 8, 0, 4, 0, 1, 1, 0]
    let c := accepted clientConfig ⟨1, 1232, 1232⟩ 0
    ⟨(@handleDatagram roundDown (c.pollTransmit 0).2 finalAck 0).2, [], [], []⟩

theorem established_greeted (s : Side) : Established (greeted s) := by
  have hrefused : ∀ s, ∀ wire ∈ (greeted s).conn.handshakeDatagram, Refused wire := by
    intro s wire hwire
    have hall : ((greeted s).conn.handshakeDatagram.all fun wire =>
        (decodeDatagram wire).toOption.isNone) = true := by
      cases s <;> decide
    have hnone : (decodeDatagram wire).toOption.isNone = true := by
      rw [hwire] at hall
      exact hall
    rcases hdecode : decodeDatagram wire with e | packet
    · exact ⟨e, hdecode⟩
    · rw [hdecode] at hnone
      cases hnone
  have htransmits : ∀ s, (greeted s).conn.pendingTransmits = [] := by
    intro s
    cases s <;> decide
  have hsent : ∀ s, (greeted s).sent = [] := by
    intro s
    cases s <;> rfl
  refine ⟨?_, ?_, ?_, ?_, by rw [htransmits]; simp, hrefused s, by rw [hsent]; simp, ?_, ?_⟩
  · cases s <;> decide
  · cases s <;> exact ⟨_, rfl, by decide, rfl, rfl⟩
  all_goals cases s <;> rfl

def firstByte : List NetEvent := [.send .server [7], .transmit .server 0, .deliver .client 0 0]

theorem received_in_order_firstByte :
    (run (@step roundDown) greeted firstByte .client).received.flatten <+:
      (run (@step roundDown) greeted firstByte .server).accepted.flatten :=
  @received_in_order roundDown greeted established_greeted firstByte
    ⟨trivial, trivial, by decide, trivial⟩ .client

end Linrdp.Rdpeudp.Connection
