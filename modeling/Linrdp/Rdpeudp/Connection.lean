import Linrdp.Rdpeudp.Handshake
import Linrdp.Rdpeudp.Receiving
import Linrdp.Rdpeudp.Sending

/-!
# The RDP-UDP connection

The state machine of `connection.rs`, which touches neither a socket nor a clock: the caller gives
it datagrams and the time, and takes out datagrams and events. Every operation returns the
connection after it. Left out are the counters for diagnostics and the scratch buffer for encoding.
-/

namespace Linrdp.Rdpeudp.Connection

open Rdpeudp.Pdu Rdpeudp.Handshake Rdpeudp.Seq Rdpeudp.Timing
open Rdpeudp.Sending Rdpeudp.Receiving

inductive Side
  | client | server
deriving DecidableEq

inductive State
  | synSent | synReceived | established | closed
deriving DecidableEq

inductive Event
  | connected
  | dataReceived (data : Bytes)
  | connectionClosed

structure ConnectionConfig where
  initialSequenceNumber : UInt32
  logWindowSize : ℕ
  (upstreamMtu downstreamMtu : UInt16)
  (idleTimeout keepAliveInterval : ℕ)
  cookieHash : Option Bytes

structure NegotiatedParams where
  remoteIsn : UInt32
  mtu : UInt16
  logWindowSize : ℕ

structure SendError where
  error : RdpeudpError
  data : Bytes

def rdpeudp2Mtu : ℕ := 1232

def invalidAckTimeGap : UInt8 := 255

def dataPacketOverhead : ℕ := 7

def piggybackReserve : ℕ := 134 + 2

def handshakeRetransmitLimit : ℕ := 5

def sendBufferWindowMultiple : ℕ := 8

def initialDataSeq : ℕ := 100

def initialChannelSeq : ℕ := 1

def negotiatedMtu (sender receiver : UInt16) : UInt16 :=
  .ofNat (min (max (min sender.toNat receiver.toNat) mtuMin) mtuMax)

def chunks (size : ℕ) (data : Bytes) : List Bytes :=
  if _h : size = 0 ∨ data = [] then [] else data.take size :: chunks size (data.drop size)
termination_by data.length
decreasing_by
  rw [not_or] at _h
  have hpos := List.length_pos_iff.2 _h.2
  rw [List.length_drop]
  omega

structure RdpeudpConnection where
  side : Side
  state : State
  config : ConnectionConfig
  params : Option NegotiatedParams
  sendWindow : Option SendWindow
  recvWindow : Option RecvWindow
  congestion : CongestionControl
  reliability : List RetransmitEntry
  rtt : RttEstimator
  timers : TimerTable
  pendingTransmits : List Bytes
  pendingEvents : List Event
  sendBuffer : List Bytes
  ackPending : Bool
  pendingAckOfAcks : Option ℕ
  handshakeDatagram : Option Bytes
  handshakeRetransmits : ℕ
  (handshakeSentAt ackDelayStartedAt : Option ℕ)
  remoteTimestampRef : ℕ

namespace RdpeudpConnection

def new (side : Side) (config : ConnectionConfig) : RdpeudpConnection where
  side := side
  state := .synSent
  config := config
  params := none
  sendWindow := none
  recvWindow := none
  congestion := .new
  reliability := []
  rtt := .new
  timers := .new
  pendingTransmits := []
  pendingEvents := []
  sendBuffer := []
  ackPending := false
  pendingAckOfAcks := none
  handshakeDatagram := none
  handshakeRetransmits := 0
  handshakeSentAt := none
  ackDelayStartedAt := none
  remoteTimestampRef := 0

variable (c : RdpeudpConnection)

def setTimer (timer : Timer) (deadline : ℕ) : RdpeudpConnection :=
  { c with timers := c.timers.set timer deadline }

def clearTimer (timer : Timer) : RdpeudpConnection := { c with timers := c.timers.clear timer }

def close : RdpeudpConnection :=
  if c.state = .closed then c
  else
    { c with
      state := .closed
      timers := (((c.timers.clear .retransmit).clear .ackDelay).clear .idle).clear .keepAlive
      pendingEvents := c.pendingEvents ++ [.connectionClosed] }

/-! ### Sending -/

def maxPayload : ℕ :=
  let mtu := c.params.elim rdpeudp2Mtu fun params => min params.mtu.toNat rdpeudp2Mtu
  max (mtu - (dataPacketOverhead + piggybackReserve)) 1

def split (data : Bytes) : List Bytes :=
  if data.length ≤ c.maxPayload then [data] else chunks c.maxPayload data

def send (c : RdpeudpConnection) (data : Bytes) : Except SendError Unit × RdpeudpConnection :=
  match c.state with
  | .closed => (.error ⟨⟨"send", .connectionClosed⟩, data⟩, c)
  | .established =>
    let maxEntries := sendBufferWindowMultiple * 2 ^ c.config.logWindowSize
    let chunksNeeded := max ((data.length + c.maxPayload - 1) / c.maxPayload) 1
    if c.sendBuffer.length + chunksNeeded > maxEntries then
      (.error ⟨⟨"send", .sendBufferFull⟩, data⟩, c)
    else (.ok (), { c with sendBuffer := c.sendBuffer ++ c.split data })
  | _ => (.error ⟨⟨"send", .invalidState⟩, data⟩, c)

/-! ### The handshake -/

def enqueueHandshake (datagram : V1Datagram) : Bool × RdpeudpConnection :=
  match datagram.encode with
  | .error _ => (false, c.close)
  | .ok bytes =>
    (true, { c with
      pendingTransmits := c.pendingTransmits ++ [bytes]
      handshakeDatagram := some bytes
      handshakeRetransmits := 0 })

def resendHandshakeDatagram : RdpeudpConnection :=
  { c with pendingTransmits := c.pendingTransmits ++ c.handshakeDatagram.toList }

def receiveWindowSize : UInt16 := .ofNat (2 ^ c.config.logWindowSize)

def synDatagram : V1Datagram where
  header := ⟨0xFFFFFFFF, c.receiveWindowSize, { V1Flags.empty with syn := true, synex := true }⟩
  ackVector := none
  ackOfAcks := none
  synData :=
    some ⟨c.config.initialSequenceNumber, c.config.upstreamMtu, c.config.downstreamMtu⟩
  correlationId := none
  synDataEx := some ⟨true, .v3, c.config.cookieHash⟩

variable (remoteIsn : UInt32)

variable (upstreamMtu downstreamMtu : UInt16)

def synAckDatagram : V1Datagram where
  header := ⟨remoteIsn, c.receiveWindowSize,
    { V1Flags.empty with syn := true, ack := true, synex := true }⟩
  ackVector := none
  ackOfAcks := none
  synData := some ⟨c.config.initialSequenceNumber, upstreamMtu, downstreamMtu⟩
  correlationId := none
  synDataEx := some ⟨true, .v3, none⟩

def finalAckDatagram : V1Datagram where
  header := ⟨remoteIsn, c.receiveWindowSize, { V1Flags.empty with ack := true }⟩
  ackVector := some ⟨[⟨.datagramReceived, 1⟩]⟩
  ackOfAcks := none
  synData := none
  correlationId := none
  synDataEx := none

variable (now : ℕ)

def enqueueSyn : RdpeudpConnection :=
  match c.enqueueHandshake c.synDatagram with
  | (false, c) => c
  | (true, c) =>
    ({ c with handshakeSentAt := some now }.setTimer .retransmit (advance now c.rtt.rto)).setTimer
      .idle
      (advance now c.config.idleTimeout)

def enqueueSynAck : RdpeudpConnection :=
  match c.enqueueHandshake (c.synAckDatagram remoteIsn upstreamMtu downstreamMtu) with
  | (false, c) => c
  | (true, c) => { c with handshakeSentAt := some now }.setTimer .retransmit (advance now c.rtt.rto)

def enqueueFinalAck : RdpeudpConnection := (c.enqueueHandshake (c.finalAckDatagram remoteIsn)).2

variable (config : ConnectionConfig)

/-- `params.mtu`: the smallest of all that was advertised. -/
def smallestMtu (synData : SynDataPayload) : UInt16 :=
  .ofNat (min (min (min config.upstreamMtu.toNat config.downstreamMtu.toNat)
    synData.upstreamMtu.toNat)
    synData.downstreamMtu.toNat)

def connect (now : ℕ) : Except RdpeudpError RdpeudpConnection :=
  if config.logWindowSize > logWindowSizeMax then
    .error ⟨"ConnectionConfig::log_window_size must be 0..=15", .invalidState⟩
  else if config.cookieHash.isNone then
    .error ⟨"connect without ConnectionConfig::cookie_hash, which a version 3 SYN must carry",
      .invalidState⟩
  else .ok ((new .client config).enqueueSyn now)

/-- The highest version the peer supports; without the flag it is the first. -/
def offeredVersion (synDataEx : SynDataExPayload) : UdpVersion :=
  if synDataEx.versionInfoValid then synDataEx.udpVer else .v1

def accepted (synData : SynDataPayload) (now : ℕ) : RdpeudpConnection :=
  let c := { new .server config with
    state := .synReceived
    params := some ⟨synData.initialSequenceNumber, smallestMtu config synData, config.logWindowSize⟩
      }
  let upstreamMtu := negotiatedMtu synData.upstreamMtu config.downstreamMtu
  let downstreamMtu := negotiatedMtu synData.downstreamMtu config.upstreamMtu
  (c.enqueueSynAck synData.initialSequenceNumber upstreamMtu downstreamMtu now).setTimer .idle
    (advance now config.idleTimeout)

def accept (synDatagram : V1Datagram) (now : ℕ) :
    Except RdpeudpError RdpeudpConnection :=
  if config.logWindowSize > logWindowSizeMax then
    .error ⟨"ConnectionConfig::log_window_size must be 0..=15", .invalidState⟩
  else
    match synDatagram.synData, synDatagram.synDataEx, config.cookieHash with
    | none, _, _ => .error ⟨"accept", .invalidPacket "SYN datagram missing SynData payload"⟩
    | some _, none, _ => .error ⟨"accept", .invalidPacket "SYN datagram missing SynDataEx payload"⟩
    | some _, some _, none =>
      .error ⟨"accept without ConnectionConfig::cookie_hash, needed to check the client's SYN",
        .invalidState⟩
    | some synData, some synDataEx, some expectedHash =>
      if (offeredVersion synDataEx).value < UdpVersion.v3.value then
        .error ⟨"accept", .invalidPacket
          ("remote's highest protocol version is below 3; the highest version both endpoints " ++
            "support (MS-RDPEUDP 3.1.5.1.3) would use the MS-RDPEUDP data transfer, which is " ++
            "not implemented")⟩
      else
        match synDataEx.cookieHash with
        | none => .error ⟨"accept", .invalidPacket "version 3 SYN carries no cookieHash"⟩
        | some offeredHash =>
          if offeredHash ≠ expectedHash then
            .error ⟨"accept", .invalidPacket
              "cookieHash does not match the security cookie for this multitransport request"⟩
          else .ok (accepted config synData now)

/-- The windows of an established connection. Both count from the same numbers, whatever the
handshake counted from. The parameters are there by now. -/
def transitionToEstablished : RdpeudpConnection :=
  match c.params with
  | none => c
  | some params =>
    let timers := ((c.timers.clear .retransmit).set .idle (advance now c.config.idleTimeout)).set
      .keepAlive (advance now c.config.keepAliveInterval)
    { c with
      state := .established
      timers := timers
      handshakeDatagram := if c.side = .server then none else c.handshakeDatagram
      sendWindow := some (.new initialDataSeq initialChannelSeq params.logWindowSize)
      recvWindow := some (.new initialDataSeq initialChannelSeq params.logWindowSize)
      pendingEvents := c.pendingEvents ++ [.connected] }

def sampleHandshakeRtt [MulF64] (c : RdpeudpConnection) (now : ℕ) : RdpeudpConnection :=
  if c.handshakeRetransmits ≠ 0 then c
  else
    match c.handshakeSentAt with
    | none => c
    | some sentAt => { c with rtt := c.rtt.update (durationSince now sentAt) }

def handleSynAck [MulF64] (c : RdpeudpConnection) (wire : Bytes) (now : ℕ) :
    Except RdpeudpError Unit × RdpeudpConnection :=
  match V1Datagram.decode wire with
  | .error e => (.error ⟨"decode error", .decode e⟩, c)
  | .ok datagram =>
    if !(datagram.header.flags.syn && datagram.header.flags.ack) then
      (.error ⟨"handle SYN+ACK", .invalidPacket "expected SYN+ACK during handshake"⟩, c)
    else
      match datagram.synData, datagram.synDataEx with
      | none, _ => (.error ⟨"handle SYN+ACK", .invalidPacket "SYN+ACK missing SynData"⟩, c)
      | some _, none => (.error ⟨"handle SYN+ACK", .invalidPacket "SYN+ACK missing SynDataEx"⟩, c)
      | some synData, some synDataEx =>
        if !synDataEx.udpVer.usesV2WireFormat then
          (.error ⟨"handle SYN+ACK", .invalidPacket
            ("server settled on a protocol version below 3, whose data transfer is MS-RDPEUDP " ++
              "rather than MS-RDPEUDP2")⟩,
            c)
        else
          let params : NegotiatedParams :=
            ⟨synData.initialSequenceNumber, smallestMtu c.config synData, c.config.logWindowSize⟩
          let c := { c with params := some params }
          let c := (c.sampleHandshakeRtt now).enqueueFinalAck synData.initialSequenceNumber
          (.ok (), c.transitionToEstablished now)

def handleFinalAck [MulF64] (c : RdpeudpConnection) (wire : Bytes) (now : ℕ) :
    Bool × RdpeudpConnection :=
  match V1Datagram.decode wire with
  | .error _ => (false, c)
  | .ok datagram =>
    if datagram.header.flags.syn then (true, c.resendHandshakeDatagram)
    else if !datagram.header.flags.ack then (false, c)
    else (true, (c.sampleHandshakeRtt now).transitionToEstablished now)

/-- The server repeats the SYN+ACK that was answered; the initial sequence number tells. -/
def isRepeatedSynAck (wire : Bytes) : Bool :=
  match c.side, c.params, FecHeader.decode wire with
  | .client, some params, .ok (header, _) =>
    if !(header.flags.syn && header.flags.ack) then false
    else
      match V1Datagram.decode wire with
      | .error _ => false
      | .ok datagram =>
        datagram.synData.any fun synData => synData.initialSequenceNumber == params.remoteIsn
  | _, _, _ => false

/-! ### Losses and the retransmit timer -/

def declareLost (dataSeq : ℕ) : RdpeudpConnection :=
  match c.sendWindow with
  | none => c
  | some sendWindow =>
    match sendWindow.markLost dataSeq with
    | (none, _) => c
    | (some info, lostWindow) =>
      { c with
        sendWindow := some lostWindow
        congestion := c.congestion.onLoss dataSeq (sendWindow.nextDataSeq - 1)
        reliability := enqueue c.reliability info.channelSeq info.data
        pendingAckOfAcks := some lostWindow.lowestUnacknowledged }

def runLossDetection : RdpeudpConnection :=
  match c.sendWindow with
  | none => c
  | some sendWindow =>
    (detect sendWindow sendWindow.highestAckedDataSeq c.rtt.rto now).foldl declareLost c

def retireAckOfAcks (peerReportedSeq : ℕ) : RdpeudpConnection :=
  if c.pendingAckOfAcks.any fun advertised => peerReportedSeq > advertised then
    { c with pendingAckOfAcks := none }
  else c

def declareOldestPendingLost : RdpeudpConnection :=
  match c.sendWindow with
  | none => c
  | some sendWindow =>
    match (sendWindow.pendingEntries.map SendEntry.dataSeq).min? with
    | none => c
    | some oldest => c.declareLost oldest

def overdue : List ℕ :=
  c.sendWindow.elim [] fun window =>
    (window.pendingEntries.filter fun e => durationSince now e.sentAt ≥ c.rtt.rto).map
      SendEntry.dataSeq

def declareOverdueLost : RdpeudpConnection :=
  if c.overdue now = [] then c.declareOldestPendingLost else (c.overdue now).foldl declareLost c

def updateRetransmitTimer : RdpeudpConnection :=
  match c.sendWindow with
  | none => c
  | some sendWindow =>
    if sendWindow.pendingEntries ≠ [] ∨ c.reliability ≠ [] then
      if c.timers.isSet .retransmit then c else c.setTimer .retransmit (advance now c.rtt.rto)
    else c.clearTimer .retransmit

/-! ### Receiving -/

/-- Only a packet that went out once can be timed. -/
def timeOf (window : SendWindow) (dataSeq now : ℕ) : Option ℕ :=
  ((window.getByDataSeq dataSeq).filter fun e => e.transmitCount == 1 && e.state == .pending).map
    fun e => durationSince now e.sentAt

def sampleRtt [MulF64] (c : RdpeudpConnection) (elapsed : Option ℕ) (gapMs : Option UInt8) :
    RdpeudpConnection :=
  match elapsed, gapMs.filter fun gap => gap != invalidAckTimeGap with
  | some elapsed, some gap =>
    if fromMillis gap.toNat ≤ elapsed then
      { c with rtt := c.rtt.update (elapsed - fromMillis gap.toNat) }
    else c
  | _, _ => c

def onAcknowledged (newlyAckedBytes reported now : ℕ) : RdpeudpConnection :=
  let c := if newlyAckedBytes > 0 then
      { c with congestion := c.congestion.onAck newlyAckedBytes }
    else c
  let c := c.runLossDetection now
  let c := if newlyAckedBytes > 0 then
      { c.clearTimer .retransmit with rtt := c.rtt.resetBackoff }
    else c
  (c.updateRetransmitTimer now).retireAckOfAcks reported

def processAck [MulF64] (c : RdpeudpConnection) (ack : AckPayload) (now : ℕ) : RdpeudpConnection :=
  match c.sendWindow with
  | none => c
  | some sendWindow =>
    let c := { c with remoteTimestampRef := reconstructTimestamp ack.receivedTs c.remoteTimestampRef
      }
    let ackedSeq := reconstructSeq ack.seqNum (sendWindow.nextDataSeq - 1)
    if ackedSeq ≥ sendWindow.nextDataSeq then c
    else
      let elapsed := timeOf sendWindow ackedSeq now
      let marked := sendWindow.markReceivedThrough ackedSeq
      let c := { c with sendWindow := some marked.2 }.sampleRtt elapsed (some ack.sendAckTimeGap)
      c.onAcknowledged marked.1 ackedSeq now

structure Walk where
  window : SendWindow
  (currentSeq newlyAckedBytes : ℕ)
  elapsed : Option ℕ

def Walk.step (walk : Walk) (received : Bool) : Walk :=
  if received then
    let marked := walk.window.markReceived walk.currentSeq
    { window := marked.2
      currentSeq := walk.currentSeq + 1
      newlyAckedBytes := walk.newlyAckedBytes + marked.1.getD 0
      elapsed := (timeOf walk.window walk.currentSeq now).orElse fun _ => walk.elapsed }
  else { walk with currentSeq := walk.currentSeq + 1 }

def vectorStates (vector : AckVectorPayload) : List Bool :=
    vector.entries.flatMap AckVectorEntry.states

def processAckVector [MulF64] (c : RdpeudpConnection) (vector : AckVectorPayload) (now : ℕ) :
    RdpeudpConnection :=
  match c.sendWindow with
  | none => c
  | some sendWindow =>
    let base := reconstructSeq vector.baseSeqNum (sendWindow.nextDataSeq - 1)
    let walk := (vectorStates vector).foldl (Walk.step now) ⟨sendWindow, base, 0, none⟩
    let c := { c with sendWindow := some walk.window }.sampleRtt walk.elapsed
      vector.sendAckTimeGapMs
    c.onAcknowledged walk.newlyAckedBytes base now

def processAckOfAcks (aoa : AckOfAcksPayload) : RdpeudpConnection :=
  match c.recvWindow with
  | none => c
  | some recvWindow =>
    let newBase := reconstructSeq aoa.ackOfAcksSeqNum recvWindow.highestSeq
    { c with recvWindow := some (recvWindow.advanceBase newBase) }

def ackDelayTimeout : ℕ :=
  c.rtt.srtt.elim (fromMillis 50) fun srtt => min (max (srtt / 2) (fromMillis 50)) (fromMillis 200)

def scheduleAck : RdpeudpConnection :=
  let c := { c with ackPending := true }
  if c.timers.isSet .ackDelay then c
  else { c.setTimer .ackDelay (advance now c.ackDelayTimeout) with ackDelayStartedAt := some now }

def processDummyData (header : DataHeader) (now : ℕ) : RdpeudpConnection :=
  match c.recvWindow with
  | none => c
  | some recvWindow =>
    match recvWindow.receiveWithoutPayload
        (reconstructSeq header.dataSeqNum recvWindow.highestSeq) with
    | (false, recvWindow) => { c with recvWindow := some recvWindow }
    | (true, recvWindow) => { c with recvWindow := some recvWindow }.scheduleAck now

def processData (header : DataHeader) (body : DataBody) (now : ℕ) : RdpeudpConnection :=
  match c.recvWindow with
  | none => c
  | some recvWindow =>
    let dataSeq := reconstructSeq header.dataSeqNum recvWindow.highestSeq
    let channelSeq := reconstructSeq body.channelSeqNum recvWindow.nextChannelSeq
    match recvWindow.receive dataSeq channelSeq body.data with
    | (false, recvWindow) => { c with recvWindow := some recvWindow }
    | (true, recvWindow) =>
      let drained := recvWindow.drainOrdered
      { c with
        recvWindow := some drained.2
        pendingEvents := c.pendingEvents ++ drained.1.map Event.dataReceived }.scheduleAck now

def processPacket [MulF64] (c : RdpeudpConnection) (byte : PacketPrefixByte) (packet : V2Packet)
    (now : ℕ) : RdpeudpConnection :=
  let c := { c with sendWindow :=
    c.sendWindow.map fun window => window.setPeerWindow packet.header.logWindowSize }
  let c := packet.ack.elim c fun ack => c.processAck ack now
  let c := packet.ackVector.elim c fun vector => c.processAckVector vector now
  let c := packet.ackOfAcks.elim c fun aoa => c.processAckOfAcks aoa
  match packet.dataHeader, packet.dataBody with
  | some header, some body =>
    if byte.isDummy then c.processDummyData header now else c.processData header body now
  | _, _ => c

def handleV2Packet [MulF64] (c : RdpeudpConnection) (wire : Bytes) (now : ℕ) :
    Except RdpeudpError Unit × RdpeudpConnection :=
  match decodeDatagram wire with
  | .error e => (.error e, c)
  | .ok (byte, packet) => (.ok (), c.processPacket byte packet now)

def handleDatagram [MulF64] (c : RdpeudpConnection) (wire : Bytes) (now : ℕ) :
    Except RdpeudpError Unit × RdpeudpConnection :=
  if c.state = .closed then (.error ⟨"handle datagram", .connectionClosed⟩, c)
  else
    let c := c.setTimer .idle (advance now c.config.idleTimeout)
    match c.state with
    | .synSent => c.handleSynAck wire now
    | .synReceived =>
      match c.handleFinalAck wire now with
      | (true, c) => (.ok (), c)
      | (false, c) => (c.transitionToEstablished now).handleV2Packet wire now
    | .established =>
      if c.isRepeatedSynAck wire then (.ok (), c.resendHandshakeDatagram)
      else c.handleV2Packet wire now
    | .closed => (.error ⟨"handle datagram", .connectionClosed⟩, c)

/-! ### Transmitting -/

def timestampUnits (instant : ℕ) : ℕ := usToTimestampUnits (instant * 1000)

def buildAckPayload (recvWindow : RecvWindow) (now : ℕ) : AckPayload :=
  let receivedAt := c.ackDelayStartedAt.getD now
  { seqNum := truncateSeq recvWindow.highestSeq
    receivedTs := truncateTimestamp (timestampUnits receivedAt)
    sendAckTimeGap := .ofNat (min (now - receivedAt) 255)
    delayAckTimeScale := 0
    delayAckTimeAdditions := [] }

def buildAckVectorPayload (recvWindow : RecvWindow) (now : ℕ) : AckVectorPayload :=
  let receivedAt := c.ackDelayStartedAt.getD now
  { baseSeqNum := truncateSeq recvWindow.baseSeq
    timestamp := some (truncateTimestamp (timestampUnits receivedAt))
    sendAckTimeGapMs := some (.ofNat (min (now - receivedAt) 254))
    entries := vectorEntries recvWindow }

/-- A cumulative acknowledgement is true only of a window without holes. -/
def buildAcknowledgement : Option (Option AckPayload × Option AckVectorPayload) :=
  c.recvWindow.map fun recvWindow =>
    if recvWindow.hasGaps then (none, some (c.buildAckVectorPayload recvWindow now))
    else (some (c.buildAckPayload recvWindow now), none)

def commitAcknowledgement : RdpeudpConnection :=
  { c with
    recvWindow := c.recvWindow.map RecvWindow.releaseAcknowledged
    ackDelayStartedAt := none }

def packetWith (logWindowSize : ℕ)
    (acknowledgement : Option (Option AckPayload × Option AckVectorPayload))
    (data : Option (DataHeader × DataBody)) : V2Packet :=
  let ack := acknowledgement.bind Prod.fst
  let ackVector := acknowledgement.bind Prod.snd
  let ackOfAcks := c.pendingAckOfAcks.map fun seq => AckOfAcksPayload.mk (truncateSeq seq)
  { header := ⟨⟨ack.isSome, data.isSome, ackVector.isSome, ackOfAcks.isSome, false, false⟩,
    logWindowSize⟩
    ack := ack
    overheadSize := none
    delayAckInfo := none
    ackOfAcks := ackOfAcks
    dataHeader := data.map Prod.fst
    ackVector := ackVector
    dataBody := data.map Prod.snd }

def buildDataPacket (dataSeq channelSeq : ℕ) (data : Bytes) (now : ℕ) :
    Option Bytes × RdpeudpConnection :=
  match c.params with
  | none => (none, c)
  | some params =>
    let acknowledgement := if c.ackPending then c.buildAcknowledgement now else none
    let packet := c.packetWith params.logWindowSize acknowledgement
      (some (⟨truncateSeq dataSeq⟩, ⟨truncateSeq channelSeq, data⟩))
    match encodeV2Packet packet with
    | none => (none, c)
    | some wire =>
      if acknowledgement.isSome then
        (some wire, ({ c with ackPending := false }.clearTimer .ackDelay).commitAcknowledgement)
      else (some wire, c)

def buildStandaloneAck : Option Bytes × RdpeudpConnection :=
  match c.params, c.buildAcknowledgement now with
  | some params, some acknowledgement =>
    match encodeV2Packet (c.packetWith params.logWindowSize (some acknowledgement) none) with
    | none => (none, c)
    | some wire => (some wire, c.commitAcknowledgement)
  | _, _ => (none, c)

def mayTransmit (sendWindow : SendWindow) : Bool :=
  sendWindow.bytesInFlight < c.congestion.window && sendWindow.hasCapacity

def tryRetransmit : Option Bytes × RdpeudpConnection :=
  match c.reliability, c.sendWindow with
  | entry :: queue, some sendWindow =>
    if !c.mayTransmit sendWindow then (none, c)
    else
      match sendWindow.pushRetransmit entry.channelSeq entry.data now with
      | (none, _) => (none, { c with reliability := queue })
      | (some newDataSeq, sendWindow) =>
        let c := { c with reliability := queue, sendWindow := some sendWindow }
        match c.buildDataPacket newDataSeq entry.channelSeq entry.data now with
        | (none, c) => (none, c)
        | (some wire, c) => (some wire, c.setTimer .retransmit (advance now c.rtt.rto))
  | _, _ => (none, c)

def trySendNewData : Option Bytes × RdpeudpConnection :=
  match c.sendBuffer, c.sendWindow with
  | data :: buffer, some sendWindow =>
    if !c.mayTransmit sendWindow then (none, c)
    else
      match sendWindow.push data now with
      | (none, _) => (none, { c with sendBuffer := buffer })
      | (some (dataSeq, channelSeq), sendWindow) =>
        let c := { c with sendBuffer := buffer, sendWindow := some sendWindow }
        match c.buildDataPacket dataSeq channelSeq data now with
        | (none, c) => (none, c)
        | (some wire, c) =>
          (some wire,
            if c.timers.isSet .retransmit then c else c.setTimer .retransmit
            (advance now c.rtt.rto))
  | _, _ => (none, c)

def trySendAck : Option Bytes × RdpeudpConnection :=
  if !c.ackPending then (none, c)
  else
    match c.buildStandaloneAck now with
    | (none, c) => (none, c)
    | (some wire, c) => (some wire, { c with ackPending := false }.clearTimer .ackDelay)

def armKeepAlive : RdpeudpConnection :=
  c.setTimer .keepAlive (advance now c.config.keepAliveInterval)

/-- Retransmissions come before new data, and data before a bare acknowledgement. -/
def pollTransmit : Option Bytes × RdpeudpConnection :=
  if c.state = .closed then (none, c)
  else
    match c.pendingTransmits with
    | transmit :: rest => (some transmit, { c with pendingTransmits := rest }.armKeepAlive now)
    | [] =>
      if c.state ≠ .established then (none, c)
      else
        match c.tryRetransmit now with
        | (some wire, c) => (some wire, c.armKeepAlive now)
        | (none, c) =>
          match c.trySendNewData now with
          | (some wire, c) => (some wire, c.armKeepAlive now)
          | (none, c) =>
            match c.trySendAck now with
            | (some wire, c) => (some wire, c.armKeepAlive now)
            | (none, c) => (none, c)

/-! ### Timeouts -/

def retransmitHandshake : RdpeudpConnection :=
  if c.handshakeDatagram.isNone then c
  else if c.handshakeRetransmits ≥ handshakeRetransmitLimit then c.close
  else
    { c with handshakeRetransmits := c.handshakeRetransmits + 1 }.resendHandshakeDatagram.setTimer
      .retransmit (advance now c.rtt.rto)

def handleRetransmitTimeout : RdpeudpConnection :=
  let c := c.clearTimer .retransmit
  if c.state ≠ .established then { c with rtt := c.rtt.onTimeout }.retransmitHandshake now
  else
    let c := c.declareOverdueLost now
    { c with rtt := c.rtt.onTimeout }.updateRetransmitTimer now

def handleAckDelayTimeout : RdpeudpConnection := { c.clearTimer .ackDelay with ackPending := true }

def handleKeepAliveTimeout : RdpeudpConnection :=
  { c.clearTimer .keepAlive with ackPending := true }.armKeepAlive now

def handleTimer (c : RdpeudpConnection) (timer : Timer) : RdpeudpConnection :=
  if c.state = .closed then c
  else
    match timer with
    | .retransmit => c.handleRetransmitTimeout now
    | .ackDelay => c.handleAckDelayTimeout
    | .idle => c.close
    | .keepAlive => c.handleKeepAliveTimeout now

def handleTimeout : RdpeudpConnection :=
  if c.state = .closed then c else (c.timers.expired now).foldl (handleTimer now) c

def pollEvent : Option Event × RdpeudpConnection :=
  (c.pendingEvents.head?, { c with pendingEvents := c.pendingEvents.tail })

end RdpeudpConnection

end Linrdp.Rdpeudp.Connection
