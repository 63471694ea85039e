import Linrdp.Rdpeudp.Network

/-!
# A chunk that comes round again

The retransmit queue is not bounded by the window: a chunk whose packets are lost again and again
stays behind while the sender goes on to any channel number. Here a first chunk arrives but its
acknowledgement does not, it is sent again and lost, three new chunks after it arrive, and the
sender puts the first chunk into its queue once more (`lost_round`). When the receiver is half a
turn of the 16 bits ahead, a packet of the first chunk is taken for one of the next turn.
-/

namespace Linrdp.Rdpeudp.Connection

open List Lib.Runs Lib.RunLength Rdpeudp.Pdu Rdpeudp.Handshake
open Rdpeudp.Seq Rdpeudp.Timing Rdpeudp.Sending Rdpeudp.Receiving
open Rdpeudp.Sender RdpeudpConnection CongestionControl Network Option Nat

/-! ### The receive window -/

/-- A window of eight slots whose first ones are `entries`. -/
def holding (n next : ℕ) (entries : List RecvEntry) (buf : List (ℕ × Bytes)) : RecvWindow :=
  ⟨entries, n, n + entries.length - 1, next, buf, 8⟩

/-- The slots with a packet that comes `g` numbers after them. -/
def grown (entries : List RecvEntry) (g k : ℕ) : List RecvEntry :=
  entries ++ (List.replicate g ⟨.pending, none⟩ ++ [⟨.received, some k⟩])

structure DataPacket (p : V2Packet) (d k : ℕ) (data : Bytes) (announced : Option ℕ) : Prop where
  ack : p.ack = none
  ackVector : p.ackVector = none
  ackOfAcks : p.ackOfAcks = announced.map fun x => ⟨truncateSeq x⟩
  dataHeader : p.dataHeader = some ⟨truncateSeq d⟩
  dataBody : p.dataBody = some ⟨truncateSeq k, data⟩

theorem advanceBase_holding (n next : ℕ) (entries : List RecvEntry) (buf : List (ℕ × Bytes)) :
    (holding n next entries buf).advanceBase n = holding n next entries buf := if_pos le_rfl

theorem drainOrdered_next (n next : ℕ) (entries : List RecvEntry) (data : Bytes) :
    (holding n next entries [(next, data)]).drainOrdered =
      ([data], holding n (nextChannelSeq next) entries []) := by
  simp [RecvWindow.drainOrdered, RecvWindow.drain, holding]

variable {w : RecvWindow} {n next g k k' : ℕ} {entries : List RecvEntry}
  {buf : List (ℕ × Bytes)} {data : Bytes}

theorem occupySlot_holding (hroom : entries.length + g < 8) (k' : ℕ) :
    (holding n next entries buf).occupySlot (n + entries.length + g) (some k') =
      (true, holding n next (grown entries g k') buf) := by
  have hextend : RecvWindow.extend entries (entries.length + g) =
      entries ++ (replicate g ⟨.pending, none⟩ ++ [⟨.pending, none⟩]) := by
    rw [RecvWindow.extend, show entries.length + g + 1 - entries.length = g + 1 by omega,
      replicate_succ']
  simp [RecvWindow.occupySlot, holding, grown, add_assoc, hextend, not_le.2 hroom]
  omega

variable {c : RdpeudpConnection} {byte : PacketPrefixByte} {p : V2Packet}

theorem scheduleAck_eq (c : RdpeudpConnection) (now : ℕ) : ∃ timers started,
    c.scheduleAck now =
      { c with ackPending := true, timers := timers, ackDelayStartedAt := started } := by
  unfold scheduleAck
  dsimp only
  split_ifs
  · exact ⟨c.timers, c.ackDelayStartedAt, rfl⟩
  · exact ⟨_, _, rfl⟩

/-! ### The receiving end -/

structure Listening (b : Endpoint) (w : RecvWindow) (passed : ℕ) : Prop where
  state : b.conn.state = .established
  params : ∃ params, b.conn.params = some params ∧ params.logWindowSize = 3
  transmits : b.conn.pendingTransmits = []
  sendBuffer : b.conn.sendBuffer = []
  reliability : b.conn.reliability = []
  announced : b.conn.pendingAckOfAcks = none
  window : b.conn.recvWindow = some w
  received : b.received.flatten.length = passed

variable {wire : Bytes}

theorem handleDatagram_packet [MulF64] (h : c.state = .established) {packet : V2Packet}
    (hdecode : decodeDatagram wire = .ok (byte, packet)) (now : ℕ) :
    (c.handleDatagram wire now).2 = (c.touch now).processPacket byte packet now := by
  rw [handleDatagram_established h, isRepeatedSynAck_of_decode c hdecode, if_neg (by simp),
    handleV2Packet, hdecode]

variable {b : Endpoint} {passed : ℕ}

section

variable (hbase : w.advanceBase n = holding n next entries buf)
  (hroom : entries.length + g < 8) (hbuf : buf.length < 8)
  (hread : reconstructSeq (truncateSeq k) next = k') (hnext : next ≤ k')
include hbase hroom hbuf hread hnext

/-- A packet whose chunk goes into the buffer; its number is read as `k'`. -/
theorem processPacket_data [MulF64] (hp : DataPacket p (n + entries.length + g) k data (some n))
    (hw : c.recvWindow = some w) (hbyte : byte.isDummy = false) (now : ℕ) :
    let drained := (holding n next (grown entries g k')
      ((k', data) :: buf.filter fun p => p.1 != k')).drainOrdered
    ∃ window timers started, c.processPacket byte p now = { c with
      sendWindow := window
      recvWindow := some drained.2
      pendingEvents := c.pendingEvents ++ drained.1.map Event.dataReceived
      ackPending := true
      timers := timers
      ackDelayStartedAt := started } := by
  intro drained
  have hhighest : w.highestSeq = n + entries.length - 1 := by
    have h := congrArg RecvWindow.highestSeq hbase
    unfold RecvWindow.advanceBase at h
    split_ifs at h <;> exact h
  have hreceive : (holding n next entries buf).receive (n + entries.length + g) k' data =
      (true, holding n next (grown entries g k')
        ((k', data) :: buf.filter fun p => p.1 != k')) := by
    have hrefuses : (holding n next entries buf).refuses k' = false := by
      simp [RecvWindow.refuses, holding, hbuf]
    rw [RecvWindow.receive, hrefuses, if_neg (by simp), occupySlot_holding hroom]
    exact congrArg _ (if_neg (not_lt.2 hnext))
  have haoa : reconstructSeq (truncateSeq n) w.highestSeq = n :=
    reconstruct_truncate (by omega) (by omega)
  have hdata : reconstructSeq (truncateSeq (n + entries.length + g))
      (holding n next entries buf).highestSeq = n + entries.length + g :=
    reconstruct_truncate (by dsimp only [holding]; omega) (by dsimp only [holding]; omega)
  simp only [RdpeudpConnection.processPacket, hp.ack, hp.ackVector, hp.ackOfAcks, hp.dataHeader,
    hp.dataBody, map_some, elim_some, elim_none, hbyte, processAckOfAcks, hw, haoa, hbase]
  rw [if_neg Bool.false_ne_true, processData]
  dsimp only
  rw [hdata, show reconstructSeq _ (holding n next entries buf).nextChannelSeq = k' from hread,
    hreceive]
  obtain ⟨timers, started, hschedule⟩ := scheduleAck_eq _ now
  exact ⟨_, timers, started, hschedule⟩

theorem Listening.receive [MulF64] (h : Listening b w passed)
    (hdecode : decodeDatagram wire = .ok (byte, p)) (hbyte : byte.isDummy = false)
    (hp : DataPacket p (n + entries.length + g) k data (some n)) (now : ℕ) :
    let drained := (holding n next (grown entries g k')
      ((k', data) :: buf.filter fun p => p.1 != k')).drainOrdered
    Listening (b.receive wire now) drained.2 (passed + drained.1.flatten.length) ∧
      (b.receive wire now).conn.ackPending = true := by
  intro drained
  obtain ⟨window, timers, started, heq⟩ := processPacket_data (c := b.conn.touch now) hbase hroom
    hbuf hread hnext hp h.window hbyte now
  rw [Endpoint.receive, handleDatagram_packet h.state hdecode, heq]
  refine ⟨{ h with window := rfl, received := ?_ }, rfl⟩
  rw [← h.received, Endpoint.received, filterMap_append, payload_received, ← append_assoc,
    flatten_append, length_append]
  rfl

end

/-- The endpoint sent a datagram whose packet meets `Q`. -/
def Sent (e e' : Endpoint) (Q : V2Packet → Prop) : Prop :=
  ∃ d byte p, e'.sent = d :: e.sent ∧ decodeDatagram d.wire = .ok (byte, p) ∧
    byte.isDummy = false ∧ Q p

/-- An acknowledgement of the three packets after `n`. -/
structure GapAck (p : V2Packet) (n : ℕ) : Prop where
  logWindowSize : p.header.logWindowSize = 3
  ack : p.ack = none
  ackOfAcks : p.ackOfAcks = none
  dataHeader : p.dataHeader = none
  vector : ∃ v, p.ackVector = some v ∧ v.baseSeqNum = truncateSeq n ∧
    v.entries = [.runLength false 1, .runLength true 3]

theorem splitRun_short {count : ℕ} (hpos : 0 < count) (hshort : count ≤ 63) (received : Bool) :
    splitRun received count = [.runLength received (.ofNat count)] := by
  rw [splitRun, dif_neg (by omega), Nat.min_eq_left hshort, Nat.sub_self, splitRun, dif_pos rfl]

theorem vectorEntries_gap (h : w.states = [false, true, true, true]) :
    vectorEntries w = [.runLength false 1, .runLength true 3] := by
  have hruns : runs [false, true, true, true] = [(false, 1), (true, 3)] := by simp [runs]
  rw [vectorEntries, RecvWindow.ackVector, h, hruns]
  simp only [flatMap_cons, flatMap_nil, splitRun_short one_pos (by decide : 1 ≤ 63),
    splitRun_short (by decide : 0 < 3) (by decide : 3 ≤ 63)]
  rfl

theorem hasGaps_of_states (h : false ∈ w.states) : w.hasGaps = true := by
  obtain ⟨e, he, hstate⟩ := mem_map.1 h
  refine any_eq_true.2 ⟨e, he, ?_⟩
  cases hcase : e.state with
  | pending => rfl
  | received => simp [hcase] at hstate

theorem pollTransmit_established (hstate : c.state = .established)
    (htransmits : c.pendingTransmits = []) (now : ℕ) :
    c.pollTransmit now =
      match c.tryRetransmit now with
      | (some wire, c) => (some wire, c.armKeepAlive now)
      | (none, c) =>
        match c.trySendNewData now with
        | (some wire, c) => (some wire, c.armKeepAlive now)
        | (none, c) =>
          match c.trySendAck now with
          | (some wire, c) => (some wire, c.armKeepAlive now)
          | (none, c) => (none, c) := by
  rw [pollTransmit, if_neg (by simp [hstate]), htransmits]
  exact if_neg (not_not.2 hstate)

theorem tryRetransmit_empty (h : c.reliability = []) (now : ℕ) :
    c.tryRetransmit now = (none, c) := by rw [tryRetransmit, h]

theorem Listening.transmit (h : Listening b w passed) (hpending : b.conn.ackPending = true)
    (hstates : w.states = [false, true, true, true]) (now : ℕ) :
    Listening (b.transmit now) w.releaseAcknowledged passed ∧
      Sent b (b.transmit now) (GapAck · w.baseSeq) := by
  obtain ⟨params, hparams, hlog⟩ := h.params
  obtain ⟨wire, byte, hbuild, hdecode, hbyte⟩ :=
    buildStandaloneAck_spec hparams (by rw [hlog]; decide) h.window now
  have hgaps : w.hasGaps = true := hasGaps_of_states (by rw [hstates]; exact mem_cons_self)
  have hnew : b.conn.trySendNewData now = (none, b.conn) := by rw [trySendNewData, h.sendBuffer]
  have hack : b.conn.trySendAck now = (some wire,
      { b.conn.commitAcknowledgement with ackPending := false }.clearTimer .ackDelay) := by
    rw [trySendAck, hpending, if_neg (by simp), hbuild]
  have hbuilt : b.conn.buildAcknowledgement now =
      some (none, some (b.conn.buildAckVectorPayload w now)) := by
    rw [buildAcknowledgement, h.window, map_some, if_pos hgaps]
  rw [hbuilt] at hdecode
  rw [Endpoint.transmit, pollTransmit_established h.state h.transmits,
    tryRetransmit_empty h.reliability]
  dsimp only
  rw [hnew]
  dsimp only
  rw [hack]
  refine ⟨{ h with window := ?_ }, _, byte, _, rfl, hdecode, hbyte, hlog, rfl, ?_, rfl,
    b.conn.buildAckVectorPayload w now, rfl, rfl, vectorEntries_gap hstates⟩
  · show b.conn.recvWindow.map RecvWindow.releaseAcknowledged = _
    rw [h.window]
    rfl
  · show b.conn.pendingAckOfAcks.map _ = none
    rw [h.announced]
    rfl

/-! ### The sending end -/

structure Talking (a : Endpoint) (window : SendWindow) (queue : List RetransmitEntry)
    (announced : Option ℕ) (accepted : ℕ) : Prop where
  state : a.conn.state = .established
  params : ∃ params, a.conn.params = some params ∧ params.logWindowSize = 3
  config : a.conn.config.logWindowSize = 3
  transmits : a.conn.pendingTransmits = []
  sendBuffer : a.conn.sendBuffer = []
  window : a.conn.sendWindow = some window
  queue : a.conn.reliability = queue
  announced : a.conn.pendingAckOfAcks = announced
  ackPending : a.conn.ackPending = false
  congestion : minWindow ≤ a.conn.congestion.window
  accepted : a.accepted.flatten.length = accepted

variable {a : Endpoint} {window : SendWindow} {queue : List RetransmitEntry} {announced : Option ℕ}
  {accepted : ℕ}

theorem Talking.mayTransmit (h : Talking a window queue announced accepted)
    (hcapacity : window.hasCapacity = true) (hflight : window.bytesInFlight < minWindow) :
    a.conn.mayTransmit window = true := by
  have hroom : window.bytesInFlight < a.conn.congestion.window :=
    lt_of_lt_of_le hflight h.congestion
  simp [RdpeudpConnection.mayTransmit, hcapacity, hroom]

theorem RdpeudpConnection.Builds.plain {d k now : ℕ} {params : NegotiatedParams}
    {sent : Option Bytes × RdpeudpConnection} (h : Builds c d k data now sent)
    (hparams : c.params = some params) (hlog : params.logWindowSize = 3)
    (hpending : c.ackPending = false) : ∃ wire timers byte p,
    sent = (some wire, { c with timers := timers }) ∧
      decodeDatagram wire = .ok (byte, p) ∧ byte.isDummy = false ∧
      DataPacket p d k data c.pendingAckOfAcks := by
  have howed : c.owed now = none := by
    rw [owed, hpending]
    rfl
  obtain ⟨wire, byte, hbuild, hdecode, hbyte⟩ :=
    buildDataPacket_spec hparams (by rw [hlog]; decide) d k data now
  obtain ⟨timers, rfl⟩ := h
  rw [howed] at hdecode
  rw [hbuild, settle, howed]
  exact ⟨wire, timers, byte, _, rfl, hdecode, hbyte, rfl, rfl, rfl, rfl, rfl⟩

theorem Talking.resend {entry : RetransmitEntry}
    (h : Talking a window (entry :: queue) announced accepted)
    (hcapacity : window.hasCapacity = true) (hflight : window.bytesInFlight < minWindow) (now : ℕ) :
    Talking (a.transmit now) (window.record entry.channelSeq entry.data now 2) queue announced
        accepted ∧
      Sent a (a.transmit now)
        (DataPacket · window.nextDataSeq entry.channelSeq entry.data announced) := by
  obtain ⟨params, hparams, hlog⟩ := h.params
  have hbuilds := tryRetransmit_builds h.window (h.mayTransmit hcapacity hflight) h.queue now
  obtain ⟨wire, timers, byte, p, hsent, hdecode, hbyte, hp⟩ :=
    hbuilds.plain hparams hlog h.ackPending
  rw [Endpoint.transmit, pollTransmit_established h.state h.transmits, hsent]
  exact ⟨{ h with window := rfl, queue := rfl }, _, byte, p, rfl, hdecode, hbyte, h.announced ▸ hp⟩

theorem Talking.send_zero (h : Talking a window [] announced accepted) :
    a.send [0] = ⟨{ a.conn with sendBuffer := [[0]] }, a.sent, a.accepted ++ [[0]], a.fetched⟩ := by
  have hpayload : 1 ≤ a.conn.maxPayload := le_max_right _ _
  have hsplit : a.conn.split [0] = [[0]] := by rw [split, if_pos (by simpa using hpayload)]
  have hdiv : ([(0 : UInt8)].length + a.conn.maxPayload - 1) / a.conn.maxPayload = 1 := by
    rw [length_singleton, Nat.add_sub_cancel_left, Nat.div_self (by omega)]
  rw [Endpoint.send, RdpeudpConnection.send, h.state]
  rw [hdiv, max_self, h.sendBuffer, h.config, if_neg (by decide), hsplit]
  simp [h.state]

def withByte (window : SendWindow) (now : ℕ) : SendWindow :=
  { window.record window.nextChannelSeq [0] now 1 with
    nextChannelSeq := nextChannelSeq window.nextChannelSeq }

theorem Talking.sendNew (h : Talking a window [] announced accepted)
    (hcapacity : window.hasCapacity = true) (hflight : window.bytesInFlight < minWindow) (now : ℕ) :
    Talking ((a.send [0]).transmit now) (withByte window now) [] announced (accepted + 1) ∧
      Sent a ((a.send [0]).transmit now)
        (DataPacket · window.nextDataSeq window.nextChannelSeq [0] announced) := by
  obtain ⟨params, hparams, hlog⟩ := h.params
  have hbuilds := trySendNewData_builds (c := { a.conn with sendBuffer := [[0]] }) h.window
    (h.mayTransmit hcapacity hflight) rfl now
  obtain ⟨wire, timers, byte, p, hsent, hdecode, hbyte, hp⟩ :=
    hbuilds.plain hparams hlog h.ackPending
  rw [h.send_zero, Endpoint.transmit,
    pollTransmit_established (c := { a.conn with sendBuffer := [[0]] }) h.state h.transmits,
    tryRetransmit_empty (c := { a.conn with sendBuffer := [[0]] }) h.queue]
  dsimp only
  rw [hsent]
  refine ⟨{ h with sendBuffer := rfl, window := rfl, accepted := ?_ }, _, byte, p, rfl, hdecode,
    hbyte, h.announced ▸ hp⟩
  rw [← h.accepted, flatten_append, length_append]
  rfl

/-! ### The acknowledgement vector -/

theorem minWindow_le_onAck {c : CongestionControl} (h : minWindow ≤ c.window)
    (bytes : ℕ) : minWindow ≤ (c.onAck bytes).window := by
  unfold onAck
  dsimp only
  by_cases hslow : c.inSlowStart = true
  · rw [if_pos hslow]
    exact le_add_right_of_le h
  · split_ifs
    · exact le_add_right_of_le h
    · exact h

theorem minWindow_le_onLoss {c : CongestionControl} (h : minWindow ≤ c.window)
    (lossSeq largestSent : ℕ) : minWindow ≤ (c.onLoss lossSeq largestSent).window := by
  unfold onLoss halveWindow
  split_ifs
  · exact h
  · exact le_max_right _ _

theorem Talking.sampleRtt [MulF64] (h : Talking a window queue announced accepted)
    (elapsed : Option ℕ) (gapMs : Option UInt8) :
    Talking { a with conn := a.conn.sampleRtt elapsed gapMs } window queue announced accepted := by
  unfold RdpeudpConnection.sampleRtt
  split
  · split_ifs
    · exact { h with window := h.window }
    · exact h
  · exact h

theorem Talking.updateRetransmitTimer (h : Talking a window queue announced accepted) (now : ℕ) :
    Talking { a with conn := a.conn.updateRetransmitTimer now } window queue announced
      accepted := by
  unfold RdpeudpConnection.updateRetransmitTimer
  split
  · exact h
  · split_ifs
    · exact h
    all_goals exact { h with window := h.window }

theorem Talking.retireAckOfAcks {x : ℕ} (h : Talking a window queue (some x) accepted)
    (hle : n ≤ x) :
    Talking { a with conn := a.conn.retireAckOfAcks n } window queue (some x) accepted := by
  rw [RdpeudpConnection.retireAckOfAcks, h.announced, any_some, if_neg (by simpa using hle)]
  exact h

/-- The four packets of a round, from the number `n` and the chunk `i` on. -/
def crowded (n i now : ℕ) : SendWindow where
  entries := [⟨n, 1, now, 1, .pending, 2⟩, ⟨n + 1, chunkSeq i, now, 1, .pending, 1⟩,
    ⟨n + 2, chunkSeq (i + 1), now, 1, .pending, 1⟩, ⟨n + 3, chunkSeq (i + 2), now, 1, .pending, 1⟩]
  dataStore := [(n, [1]), (n + 1, [0]), (n + 2, [0]), (n + 3, [0])]
  nextDataSeq := n + 4
  nextChannelSeq := chunkSeq (i + 3)
  bytesInFlight := 4
  maxEntries := 8

def vacated (n i now : ℕ) : SendWindow :=
  { crowded n i now with
    entries := (crowded n i now).entries.take 1 ++
      (crowded n i now).entries.tail.map fun e => { e with state := .received }
    dataStore := [(n, [1])]
    bytesInFlight := 1 }

variable {i sent : ℕ}

theorem walk_crowded (n i sent now : ℕ) : ∃ elapsed,
    [false, true, true, true].foldl (Walk.step now) ⟨crowded n i sent, n, 0, none⟩ =
      ⟨vacated n i sent, n + 4, 3, elapsed⟩ := by
  simp [Walk.step, crowded, vacated, SendWindow.markReceived, SendWindow.getByDataSeq, setReceived,
    SendWindow.advanceWindow, Sending.drain, add_assoc]

theorem detect_vacated (n i sent rto now : ℕ) :
    detect (vacated n i sent) (vacated n i sent).highestAckedDataSeq rto now = [n] := by
  simp [detect, vacated, crowded, SendWindow.highestAckedDataSeq, SendWindow.pendingEntries,
    waiting, meetsLossCriteria, reorderThreshold]

theorem markLost_vacated (n i sent : ℕ) :
    (vacated n i sent).markLost n = (some ⟨1, [1]⟩, ⟨[], [], n + 4, chunkSeq (i + 3), 0, 8⟩) := by
  simp [vacated, crowded, SendWindow.markLost, SendWindow.getByDataSeq, SendWindow.advanceWindow,
    Sending.drain]

theorem Talking.runLossDetection (h : Talking a (vacated n i sent) [] announced accepted)
    (now : ℕ) : Talking { a with conn := a.conn.runLossDetection now }
      ⟨[], [], n + 4, chunkSeq (i + 3), 0, 8⟩ [⟨1, [1]⟩] (some (n + 4)) accepted := by
  rw [RdpeudpConnection.runLossDetection, h.window]
  dsimp only
  rw [detect_vacated, foldl_cons, foldl_nil, declareLost, h.window]
  dsimp only
  rw [markLost_vacated]
  exact { h with
    window := rfl
    queue := by rw [h.queue]; rfl
    announced := rfl
    congestion := minWindow_le_onLoss h.congestion _ _ }

theorem Talking.onAcknowledged (h : Talking a (vacated n i sent) [] announced accepted) (now : ℕ) :
    Talking { a with conn := a.conn.onAcknowledged 3 n now } ⟨[], [], n + 4, chunkSeq (i + 3), 0, 8⟩
      [⟨1, [1]⟩] (some (n + 4)) accepted := by
  have hlost := Talking.runLossDetection
    (a := { a with conn := { a.conn with congestion := a.conn.congestion.onAck 3 } })
    { h with congestion := minWindow_le_onAck h.congestion 3 } now
  unfold RdpeudpConnection.onAcknowledged
  dsimp only at hlost ⊢
  rw [if_pos three_pos, if_pos three_pos]
  generalize RdpeudpConnection.runLossDetection _ now = c at hlost ⊢
  have hreset : Talking { a with conn :=
      { c.clearTimer .retransmit with rtt := c.rtt.resetBackoff } } _ _ _ _ :=
    { hlost with window := hlost.window }
  exact (hreset.updateRetransmitTimer now).retireAckOfAcks (by omega)

theorem Talking.acked [MulF64] (h : Talking a (crowded n i sent) [] announced accepted)
    (hdecode : decodeDatagram wire = .ok (byte, p)) (hp : GapAck p n) (now : ℕ) :
    Talking (a.receive wire now) ⟨[], [], n + 4, chunkSeq (i + 3), 0, 8⟩ [⟨1, [1]⟩] (some (n + 4))
      accepted := by
  obtain ⟨hlog, hack, haoa, hheader, v, hvector, hbase, hentries⟩ := hp
  have hstates : vectorStates v = [false, true, true, true] := by
    rw [vectorStates, hentries]
    rfl
  have hn : reconstructSeq v.baseSeqNum (n + 4 - 1) = n := by
    rw [hbase]
    exact reconstruct_truncate (by omega) (by omega)
  obtain ⟨elapsed, hwalk⟩ := walk_crowded n i sent now
  have hprocess : (a.conn.touch now).processPacket byte p now =
      (RdpeudpConnection.sampleRtt { a.conn.touch now with sendWindow := some (vacated n i sent) }
        elapsed v.sendAckTimeGapMs).onAcknowledged 3 n now := by
    rw [RdpeudpConnection.processPacket, hack, hvector, haoa, hheader, hlog,
      show (a.conn.touch now).sendWindow = some (crowded n i sent) from h.window]
    show processAckVector { a.conn.touch now with sendWindow := some (crowded n i sent) } v now = _
    rw [processAckVector]
    dsimp only
    rw [show (crowded n i sent).nextDataSeq = n + 4 from rfl, hn, hstates, hwalk]
  rw [Endpoint.receive, handleDatagram_packet h.state hdecode, hprocess]
  have hvacated : Talking { a with conn := { a.conn.touch now with
      sendWindow := some (vacated n i sent) } } (vacated n i sent) [] announced accepted :=
    { h with window := rfl }
  exact (hvacated.sampleRtt elapsed v.sendAckTimeGapMs).onAcknowledged now

/-! ### The rounds -/

def exchange (now : ℕ) : List NetEvent :=
  [.send .server [0], .transmit .server now, .deliver .client 0 now]

def lostRound (now : ℕ) : List NetEvent :=
  .transmit .server now :: (exchange now ++ (exchange now ++ (exchange now ++
    [.transmit .client now, .deliver .server 0 now])))

section

variable [MulF64] {net : Network}

theorem step_deliver {s : Side} {d : Datagram} {sent : List Datagram}
    (h : (net s.peer).sent = d :: sent) (now : ℕ) :
    net.step (.deliver s 0 now) = Function.update net s ((net s).receive d.wire now) := by
  rw [step, h]
  rfl

theorem run_exchange (net : Network) {out : List Bytes} {w₁ : RecvWindow}
    (ha : Talking (net .server) window [] (some n) accepted) (hb : Listening (net .client) w passed)
    (hcapacity : window.hasCapacity = true) (hflight : window.bytesInFlight < minWindow)
    (hdata : window.nextDataSeq = n + entries.length + g) (hchannel : window.nextChannelSeq = k)
    (hbase : w.advanceBase n = holding n k entries buf) (hroom : entries.length + g < 8)
    (hbuf : buf.length < 8) (hdrain : (holding n k (grown entries g k)
      ((k, [0]) :: buf.filter fun p => p.1 != k)).drainOrdered = (out, w₁)) (now : ℕ) :
    Talking (run step net (exchange now) .server) (withByte window now) [] (some n)
        (accepted + 1) ∧
      Listening (run step net (exchange now) .client) w₁ (passed + out.flatten.length) ∧
      (run step net (exchange now) .client).conn.ackPending = true := by
  obtain ⟨ha', d, byte, p, hsent, hdecode, hbyte, hp⟩ := ha.sendNew hcapacity hflight now
  rw [hdata, hchannel] at hp
  have hread : reconstructSeq (truncateSeq k) k = k :=
    reconstruct_truncate (by omega) (by omega)
  obtain ⟨hb', hpending⟩ := hb.receive hbase hroom hbuf hread le_rfl hdecode hbyte hp now
  rw [hdrain] at hb'
  rw [exchange, run_cons, run_cons, run_cons, step_deliver hsent]
  exact ⟨ha', hb', hpending⟩

theorem run_ack (ha : Talking (net .server) (crowded n i sent) [] announced accepted)
    (hb : Listening (net .client) (holding n next entries buf) passed)
    (hpending : (net .client).conn.ackPending = true)
    (hstates : (holding n next entries buf).states = [false, true, true, true]) (now : ℕ) :
    let net' := run step net [.transmit .client now, .deliver .server 0 now]
    Talking (net' .server) ⟨[], [], n + 4, chunkSeq (i + 3), 0, 8⟩ [⟨1, [1]⟩] (some (n + 4))
        accepted ∧
      Listening (net' .client) (holding n next entries buf).releaseAcknowledged passed := by
  obtain ⟨hb', d, byte, p, hsent, hdecode, -, hp⟩ := hb.transmit hpending hstates now
  rw [run_cons, run_cons, step_deliver hsent]
  exact ⟨ha.acked hdecode hp now, hb'⟩

/-- Between two rounds: `i` chunks of one byte were accepted and passed on, and the first of them is
in the queue, to be sent as the packet `n`. -/
structure Stalled (net : Network) (n i : ℕ) : Prop where
  talking : Talking (net .server) ⟨[], [], n, chunkSeq i, 0, 8⟩ [⟨1, [1]⟩] (some n) i
  listening : ∃ w, Listening (net .client) w i ∧
    w.advanceBase n = holding n (chunkSeq i) [] []

/-- **A round leaves the first chunk where it was**, and everything else three chunks further. -/
theorem lost_round (h : Stalled net n i) (now : ℕ) :
    Stalled (run step net (lostRound now)) (n + 4) (i + 3) := by
  obtain ⟨ha, w, hb, hbase⟩ := h
  have hflight : 4 < minWindow := by decide
  -- the packet `n`
  obtain ⟨ha₁, -⟩ := ha.resend rfl (show 0 < _ by omega) now
  -- three bytes
  obtain ⟨ha₂, hb₂, -⟩ := run_exchange (net.step (.transmit .server now)) (g := 1)
    (k := chunkSeq i) ha₁ hb rfl (show 1 < _ by omega) rfl rfl hbase (by decide) (by decide)
    (drainOrdered_next ..) now
  rw [nextChannelSeq_chunkSeq] at hb₂
  obtain ⟨ha₃, hb₃, -⟩ := run_exchange _ (g := 0) ha₂ hb₂ rfl (show 2 < _ by omega) rfl
    (nextChannelSeq_chunkSeq i) (advanceBase_holding ..) (show 2 < 8 by decide) (by decide)
    (drainOrdered_next ..) now
  rw [nextChannelSeq_chunkSeq] at hb₃
  obtain ⟨ha₄, hb₄, hpending⟩ := run_exchange _ (g := 0) ha₃ hb₃ rfl (show 3 < _ by omega) rfl
    (by rw [← nextChannelSeq_chunkSeq, ← nextChannelSeq_chunkSeq]; rfl) (advanceBase_holding ..)
    (show 3 < 8 by decide) (by decide) (drainOrdered_next ..) now
  rw [nextChannelSeq_chunkSeq] at hb₄
  have hcrowded : withByte (withByte (withByte
      (SendWindow.record ⟨[], [], n, chunkSeq i, 0, 8⟩ 1 [1] now 2) now) now) now =
      crowded n i now := by
    simp only [crowded, ← nextChannelSeq_chunkSeq]
    rfl
  obtain ⟨ha₅, hb₅⟩ := run_ack (hcrowded ▸ ha₄) hb₄ hpending rfl now
  rw [lostRound, run_cons, run_append, run_append, run_append]
  refine ⟨ha₅, _, hb₅, ?_⟩
  simp [RecvWindow.releaseAcknowledged, RecvWindow.leading, RecvWindow.advanceBase, holding, grown]

theorem lost_rounds (now rounds : ℕ) (h : Stalled net n i) :
    Stalled (run step net (List.replicate rounds (lostRound now)).flatten) (n + 4 * rounds)
      (i + 3 * rounds) := by
  induction rounds generalizing net n i with
  | zero => exact h
  | succ rounds ih =>
    have hnext := ih (lost_round h now)
    rw [replicate_succ, flatten_cons, run_append]
    rw [show n + 4 * (rounds + 1) = n + 4 + 4 * rounds by omega,
      show i + 3 * (rounds + 1) = i + 3 + 3 * rounds by omega]
    exact hnext

/-! ### The first chunk arrives once more -/

def lastRound (now : ℕ) : List NetEvent :=
  .transmit .server now :: .deliver .client 0 now :: (exchange now ++ exchange now)

/-- **After 65533 chunks the first is passed on again.** -/
theorem last_round (h : Stalled net n 65533) (now : ℕ) :
    (run step net (lastRound now) .client).received.flatten.length = 65536 ∧
      (run step net (lastRound now) .server).accepted.flatten.length = 65535 := by
  obtain ⟨ha, w, hb, hbase⟩ := h
  have hflight : 4 < minWindow := by decide
  -- the packet `n`, whose channel number is read as that of the next turn
  obtain ⟨ha₁, d, byte, p, hsent, hdecode, hbyte, hp⟩ := ha.resend rfl (show 0 < _ by omega) now
  have hread : reconstructSeq (truncateSeq 1) (chunkSeq 65533) = 65537 := by decide
  have hdrain₁ : (holding n (chunkSeq 65533) (grown [] 0 65537) [(65537, [1])]).drainOrdered =
      ([], holding n 65534 (grown [] 0 65537) [(65537, [1])]) := by
    simp [RecvWindow.drainOrdered, RecvWindow.drain, holding, show chunkSeq 65533 = 65534 by decide]
  obtain ⟨hb₁, -⟩ := hb.receive (g := 0) hbase (by decide) (by decide) hread (by decide) hdecode
    hbyte hp now
  rw [filter_nil, hdrain₁] at hb₁
  -- the last chunk but one before the turn, and the last, after which the first is next
  have hdrain₂ (es : List RecvEntry) :
      (holding n 65534 es [(65534, [0]), (65537, [1])]).drainOrdered =
        ([[0]], holding n 65535 es [(65537, [1])]) := by
    simp [RecvWindow.drainOrdered, RecvWindow.drain, holding, nextChannelSeq]
  have hdrain₃ (es : List RecvEntry) :
      (holding n 65535 es [(65535, [0]), (65537, [1])]).drainOrdered =
        ([[0], [1]], holding n 65538 es []) := by
    simp [RecvWindow.drainOrdered, RecvWindow.drain, holding, nextChannelSeq]
  obtain ⟨ha₂, hb₂, -⟩ := run_exchange (Function.update (net.step (.transmit .server now))
      .client ((net .client).receive d.wire now)) (g := 0) (k := 65534) ha₁ hb₁ rfl
    (show 1 < _ by omega) rfl rfl (advanceBase_holding ..) (show 1 < 8 by decide) (by decide)
    (hdrain₂ _) now
  obtain ⟨ha₃, hb₃, -⟩ := run_exchange _ (g := 0) (k := 65535) ha₂ hb₂ rfl (show 2 < _ by omega) rfl
    rfl (advanceBase_holding ..) (show 2 < 8 by decide) (by decide) (hdrain₃ _) now
  rw [lastRound, run_cons, run_cons, step_deliver hsent, run_append]
  exact ⟨hb₃.received, ha₃.accepted⟩

end

def firstLoss : List NetEvent :=
  [.send .server [1], .transmit .server 0, .deliver .client 0 0, .timeout .server 1000]

theorem stalled_firstLoss : Stalled (run (@step roundDown) greeted firstLoss) 101 1 where
  talking := ⟨by decide, ⟨_, rfl, by decide⟩, by decide, by decide, by decide, by decide, by decide,
    by decide, by decide, by decide, by decide⟩
  listening := ⟨⟨[⟨.received, some 1⟩], 100, 100, 2, [], 8⟩, ⟨by decide, ⟨_, rfl, by decide⟩,
    by decide, by decide, by decide, by decide, by decide, by decide⟩, by decide⟩

def NetEvent.late : NetEvent → ℕ
  | .deliver _ late _ => late
  | _ => 0

def turnRun : List NetEvent :=
  firstLoss ++ ((List.replicate 21844 (lostRound 1000)).flatten ++
    lastRound 1000)

theorem late_turnRun : ∀ event ∈ turnRun, event.late = 0 := by
  have hfirst : ∀ event ∈ firstLoss, event.late = 0 := by decide
  have hround : ∀ event ∈ lostRound 1000, event.late = 0 := by decide
  have hlast : ∀ event ∈ lastRound 1000, event.late = 0 := by decide
  intro event hevent
  rcases mem_append.1 hevent with h | h
  · exact hfirst event h
  rcases mem_append.1 h with h | h
  · obtain ⟨round, hmem, h⟩ := mem_flatten.1 h
    rw [eq_of_mem_replicate hmem] at h
    exact hround event h
  · exact hlast event h

/-- No datagram is late, and the first chunk is passed on twice. -/
theorem passes_first_chunk_twice : (∀ s, Established (greeted s)) ∧
    (∀ s, (greeted s).conn.config.logWindowSize = 3) ∧ (∀ event ∈ turnRun, event.late = 0) ∧
    ¬(run (@step roundDown) greeted turnRun .client).received.flatten <+:
      (run (@step roundDown) greeted turnRun .server).accepted.flatten := by
  refine ⟨established_greeted, fun s => by cases s <;> decide, late_turnRun, fun hprefix => ?_⟩
  let _ := roundDown
  have hstalled := lost_rounds 1000 21844 stalled_firstLoss
  obtain ⟨hreceived, haccepted⟩ := last_round hstalled 1000
  rw [turnRun, run_append, run_append] at hprefix
  have hlength := hprefix.length_le
  omega

end Linrdp.Rdpeudp.Connection
