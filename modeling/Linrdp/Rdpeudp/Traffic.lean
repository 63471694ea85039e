import Linrdp.Rdpeudp.NoLoss

/-!
# What goes out and what comes in

The datagrams a connection transmits, as its peer decodes them, and what a packet does to the
receive window. Everything that is transmitted fits its encoding, so a packet is never lost to the
encoder, and a data packet carries the chunk at the front of the buffer or one of the queue
(`pollTransmit_spec`).
-/

namespace Linrdp.Rdpeudp.Connection

open List Lib.RunLength Rdpeudp.Pdu Rdpeudp.Handshake Rdpeudp.Seq
open Rdpeudp.Timing Rdpeudp.Sending Rdpeudp.Receiving Rdpeudp.Sender

namespace RdpeudpConnection

/-! ### Transmitting -/

theorem splitRun_fits (received : Bool) (count : ℕ) : ∀ e ∈ splitRun received count, e.Fits := by
  induction count using Nat.strong_induction_on with
  | _ count ih =>
    intro e he
    rw [splitRun] at he
    split_ifs at he with hzero
    · cases he
    · rcases mem_cons.1 he with rfl | he
      · show (UInt8.ofNat (min count 63)).toNat ≤ 63
        rw [UInt8.toNat_ofNat']
        omega
      · exact ih (count - min count 63) (by omega) e he

theorem buildAckPayload_fits (c : RdpeudpConnection) (w : RecvWindow) (now : ℕ) :
    (c.buildAckPayload w now).Fits :=
  ⟨toNat_truncateTimestamp _, by simp [buildAckPayload], by simp [buildAckPayload]⟩

theorem buildAckVectorPayload_fits (c : RdpeudpConnection) (w : RecvWindow) (now : ℕ) :
    (c.buildAckVectorPayload w now).Fits where
  entries := by
    intro e he
    obtain ⟨r, -, he⟩ := mem_flatMap.1 (mem_of_mem_take he)
    exact splitRun_fits r.1 r.2 e he
  count := length_take_le _ _
  paired := rfl
  timestamp := by
    intro ts hts
    cases hts
    exact toNat_truncateTimestamp _

theorem packetWith_fits (c : RdpeudpConnection) {logWindowSize : ℕ}
    (hlog : logWindowSize ≤ logWindowSizeMax) (now : ℕ)
    {acknowledgement : Option (Option AckPayload × Option AckVectorPayload)}
    (hack : acknowledgement = none ∨ acknowledgement = c.buildAcknowledgement now)
    (data : Option (DataHeader × DataBody)) :
    (c.packetWith logWindowSize acknowledgement data).Fits := by
  have hdata : (data.map Prod.fst).isSome = (data.map Prod.snd).isSome := by
    rcases data with _ | _ <;> rfl
  rcases hack with rfl | rfl
  · exact ⟨hlog, by simp [packetWith], by simp [packetWith], by simp [packetWith], hdata⟩
  rw [buildAcknowledgement]
  rcases hw : c.recvWindow with _ | w
  · exact ⟨hlog, by simp [packetWith], by simp [packetWith], by simp [packetWith], hdata⟩
  · rw [Option.map_some]
    split_ifs with hgaps
    · refine ⟨hlog, by simp [packetWith], fun v hv => ?_, by simp [packetWith], hdata⟩
      cases hv
      exact buildAckVectorPayload_fits c w now
    · refine ⟨hlog, fun a ha => ?_, by simp [packetWith], by simp [packetWith], hdata⟩
      cases ha
      exact buildAckPayload_fits c w now

def owed (c : RdpeudpConnection) (now : ℕ) : Option (Option AckPayload × Option AckVectorPayload) :=
  if c.ackPending then c.buildAcknowledgement now else none

def settle (c : RdpeudpConnection) (now : ℕ) : RdpeudpConnection :=
  if (c.owed now).isSome then
    ({ c with ackPending := false }.clearTimer .ackDelay).commitAcknowledgement
  else c

variable {c : RdpeudpConnection}

/-- **A data packet is always built**, and its peer decodes it as it was built. -/
theorem buildDataPacket_spec {params : NegotiatedParams}
    (hparams : c.params = some params) (hlog : params.logWindowSize ≤ logWindowSizeMax)
    (dataSeq channelSeq : ℕ) (data : Bytes) (now : ℕ) :
    ∃ wire byte, c.buildDataPacket dataSeq channelSeq data now = (some wire, c.settle now) ∧
      decodeDatagram wire = .ok (byte, (c.packetWith params.logWindowSize (c.owed now)
        (some (⟨truncateSeq dataSeq⟩, ⟨truncateSeq channelSeq, data⟩))).arriving) ∧
      byte.isDummy = false := by
  have howed : c.owed now = none ∨ c.owed now = c.buildAcknowledgement now := by
    unfold owed
    split_ifs
    · exact .inr rfl
    · exact .inl rfl
  obtain ⟨wire, byte, hencode, hdecode, hbyte⟩ := decodeDatagram_encode
    (c.packetWith_fits hlog now howed (some (⟨truncateSeq dataSeq⟩,
      ⟨truncateSeq channelSeq, data⟩)))
  refine ⟨wire, byte, ?_, hdecode, hbyte⟩
  rw [buildDataPacket, hparams]
  dsimp only
  rw [← owed, hencode]
  rw [settle]
  split_ifs
  · rw [hparams]
  · rfl

variable {w : RecvWindow}

theorem buildStandaloneAck_spec {params : NegotiatedParams}
    (hparams : c.params = some params) (hlog : params.logWindowSize ≤ logWindowSizeMax)
    (hw : c.recvWindow = some w) (now : ℕ) : ∃ wire byte,
    c.buildStandaloneAck now = (some wire, c.commitAcknowledgement) ∧
      decodeDatagram wire = .ok (byte, (c.packetWith params.logWindowSize
        (c.buildAcknowledgement now) none).arriving) ∧
      byte.isDummy = false := by
  have hfits := c.packetWith_fits hlog now (.inr rfl) none
  obtain ⟨wire, byte, hencode, hdecode, hbyte⟩ := decodeDatagram_encode hfits
  refine ⟨wire, byte, ?_, hdecode, hbyte⟩
  obtain ⟨acknowledgement, hack⟩ : ∃ a, c.buildAcknowledgement now = some a := by
    rw [buildAcknowledgement, hw]
    exact ⟨_, rfl⟩
  rw [hack] at hencode
  rw [buildStandaloneAck, hparams, hack]
  dsimp only
  rw [hencode]

structure Sound (c : RdpeudpConnection) : Prop where
  state : c.state = .established ∨ c.state = .closed
  params : ∃ params, c.params = some params ∧ params.logWindowSize ≤ logWindowSizeMax
  transmits : ∀ wire ∈ c.pendingTransmits, Refused wire
  handshake : ∀ wire ∈ c.handshakeDatagram, Refused wire

variable {c' : RdpeudpConnection}

theorem Sound.of_link (h : c.Sound) (hlink : c'.link = c.link) : c'.Sound := by
  obtain ⟨-, hstate, -, hparams, htransmits, hhandshake⟩ := Link.mk.inj hlink
  exact ⟨hstate ▸ h.state, hparams ▸ h.params, htransmits ▸ h.transmits, hhandshake ▸ h.handshake⟩

theorem Sound.of_ages (h : c.Sound) (hages : Ages c c') : c'.Sound where
  state := by
    rcases hages.state with hstate | hclosed
    · rw [hstate]
      exact h.state
    · exact .inr hclosed
  params := by
    rw [hages.params]
    exact h.params
  transmits := by
    obtain ⟨again, htransmits, hagain⟩ := hages.transmits
    rw [htransmits]
    exact forall_mem_append.2 ⟨h.transmits, fun wire hwire => h.handshake wire (hagain wire hwire)⟩
  handshake := by
    rw [hages.handshakeDatagram]
    exact h.handshake

def Releases (c c' : RdpeudpConnection) : Prop :=
  c'.inbox = c.inbox ∨ c'.inbox = ⟨c.recvWindow.map RecvWindow.releaseAcknowledged, c.pendingEvents⟩

def chunkOf (c c' : RdpeudpConnection) : Option ℕ :=
  if c'.outbox.window.nextDataSeq = c.outbox.window.nextDataSeq then none
  else c'.outbox.window.entries.getLast?.map SendEntry.channelSeq

def Holds (c : RdpeudpConnection) (k : ℕ) (data : Bytes) : Prop :=
  (k = c.outbox.window.nextChannelSeq ∧ c.outbox.buffer.head? = some data) ∨
    ⟨k, data⟩ ∈ c.outbox.queue

structure Emits (c : RdpeudpConnection) (wire : Bytes) (c' : RdpeudpConnection) : Prop where
  releases : Releases c c'
  wire : ∃ byte packet, decodeDatagram wire = .ok (byte, packet) ∧ byte.isDummy = false ∧
    ∀ body ∈ packet.dataBody, ∃ k, c.Holds k body.data ∧ c.chunkOf c' = some k ∧
      body.channelSeqNum = truncateSeq k

/-- An attempt to send changes nothing or puts a packet on the wire. -/
def Attempt (c : RdpeudpConnection) : Option Bytes × RdpeudpConnection → Prop
  | (none, c') => c' = c
  | (some wire, c') => Emits c wire c'

theorem releases_settle (c : RdpeudpConnection) (now : ℕ) : Releases c (c.settle now) := by
  unfold settle
  split_ifs
  · exact .inr rfl
  · exact .inl rfl

variable {c₁ : RdpeudpConnection}

theorem chunkOf_congr (h : c'.outbox = c₁.outbox) : c.chunkOf c' = c.chunkOf c₁ := by
  rw [chunkOf, chunkOf, h]

theorem emits_build (h : c.Sound) {dataSeq channelSeq now : ℕ} {data : Bytes}
    {sent : Option Bytes × RdpeudpConnection} (hbuilds : Builds c₁ dataSeq channelSeq data now sent)
    (hholds : c.Holds channelSeq data) (hchunk : c.chunkOf c₁ = some channelSeq)
    (hparams : c₁.params = c.params) (hinbox : c₁.inbox = c.inbox) : Attempt c sent := by
  obtain ⟨params, hparams', hlog⟩ := h.params
  obtain ⟨wire, byte, hbuild, hdecode, hbyte⟩ :=
    buildDataPacket_spec (hparams.trans hparams') hlog dataSeq channelSeq data now
  have hout : sent.2.outbox = c₁.outbox := congrArg (·.2.1) hbuilds.sending_eq
  have hreleases := c₁.releases_settle now
  rw [Releases, hinbox, show c₁.recvWindow = c.recvWindow from congrArg Inbox.window hinbox,
    show c₁.pendingEvents = c.pendingEvents from congrArg Inbox.events hinbox] at hreleases
  obtain ⟨timers, rfl⟩ := hbuilds
  rw [hbuild] at hout ⊢
  refine ⟨hreleases, byte, _, hdecode, hbyte, fun body hbody => ?_⟩
  cases hbody
  exact ⟨channelSeq, hholds, (chunkOf_congr hout).trans hchunk, rfl⟩

theorem chunkOf_record {window window₁ : SendWindow}
    (hwindow : c.sendWindow = some window) (hwindow₁ : c₁.sendWindow = some window₁) (e : SendEntry)
    (hnext : window₁.nextDataSeq = window.nextDataSeq + 1)
    (hentries : window₁.entries = window.entries ++ [e]) : c.chunkOf c₁ = some e.channelSeq := by
  rw [chunkOf, outbox_window hwindow, outbox_window hwindow₁, if_neg (by omega), hentries,
    getLast?_concat, Option.map_some]

theorem emits_tryRetransmit (h : c.Sound) (now : ℕ) : Attempt c (c.tryRetransmit now) := by
  rcases c.tryRetransmit_cases now with hnone | ⟨entry, queue, window, hqueue, hwindow, -, hbuilds⟩
  · rw [hnone]
    exact rfl
  have hholds : c.Holds entry.channelSeq entry.data := by
    refine .inr (show entry ∈ c.reliability from ?_)
    rw [hqueue]
    exact mem_cons_self
  exact emits_build h hbuilds hholds (chunkOf_record hwindow rfl
    ⟨window.nextDataSeq, entry.channelSeq, now, entry.data.length, .pending, 2⟩ rfl rfl) rfl rfl

theorem emits_trySendNewData (h : c.Sound) (now : ℕ) : Attempt c (c.trySendNewData now) := by
  rcases c.trySendNewData_cases now with hnone | ⟨data, buffer, window, hbuffer, hwindow, -,
    hbuilds⟩
  · rw [hnone]
    exact rfl
  have hholds : c.Holds window.nextChannelSeq data := by
    refine .inl ⟨by rw [outbox_window hwindow], show c.sendBuffer.head? = some data from ?_⟩
    rw [hbuffer]
    rfl
  exact emits_build h hbuilds hholds (chunkOf_record hwindow rfl
    ⟨window.nextDataSeq, window.nextChannelSeq, now, data.length, .pending, 1⟩ rfl rfl) rfl rfl

theorem emits_trySendAck (h : c.Sound) (now : ℕ) : Attempt c (c.trySendAck now) := by
  obtain ⟨params, hparams, hlog⟩ := h.params
  unfold trySendAck
  split_ifs with hpending
  · exact rfl
  rcases hw : c.recvWindow with _ | w
  · have hbuild : c.buildStandaloneAck now = (none, c) := by
      rw [buildStandaloneAck, buildAcknowledgement, hw, hparams]
      rfl
    rw [hbuild]
    exact rfl
  · obtain ⟨wire, byte, hbuild, hdecode, hbyte⟩ := buildStandaloneAck_spec hparams hlog hw now
    rw [hbuild]
    exact ⟨.inr rfl, byte, _, hdecode, hbyte, nofun⟩

theorem Emits.of_view {c'' : RdpeudpConnection} {wire : Bytes} (h : Emits c wire c')
    (hview : c''.view = c'.view) : Emits c wire c'' where
  releases := by
    rw [Releases, inbox, hview]
    exact h.releases
  wire := by
    obtain ⟨byte, packet, hdecode, hbyte, hbody⟩ := h.wire
    refine ⟨byte, packet, hdecode, hbyte, fun body hb => ?_⟩
    obtain ⟨k, hholds, hchunk, hseq⟩ := hbody body hb
    exact ⟨k, hholds, (chunkOf_congr (congrArg View.outbox hview)).trans hchunk, hseq⟩

/-- **What a transmission puts on the wire**: nothing, a datagram of the handshake, or a packet. -/
theorem pollTransmit_spec (h : c.Sound) (now : ℕ) :
    ((c.pollTransmit now).1 = none ∧ (c.pollTransmit now).2.view = c.view) ∨
      (∃ wire rest, c.pendingTransmits = wire :: rest ∧ c.pollTransmit now =
        (some wire, { c with pendingTransmits := rest }.armKeepAlive now)) ∨
      ∃ wire c', c.pollTransmit now = (some wire, c') ∧ c'.link = c.link ∧ Emits c wire c' := by
  have hresend := emits_tryRetransmit h now
  have hnew := emits_trySendNewData h now
  have hack := emits_trySendAck h now
  rcases c.pollTransmit_cases now with hnone | ⟨transmit, rest, hpending, heq⟩ |
    ⟨hstate, c₁, c₂, wire, c₃, timers, hresent, hsent, hacked, heq⟩ |
    ⟨hstate, wire, c₁, hresent, heq⟩ | ⟨hstate, c₁, wire, c₂, hresent, hsent, heq⟩
  · exact .inl (by rw [hnone]; exact ⟨rfl, rfl⟩)
  · exact .inr (.inl ⟨transmit, rest, hpending, heq⟩)
  · -- nothing was to be retransmitted and nothing new to be sent, so nothing has changed so far
    rw [hresent] at hresend
    obtain rfl : c₁ = c := hresend
    rw [hsent] at hnew
    obtain rfl : c₂ = c₁ := hnew
    have hlink := congrArg Prod.fst (c₂.sending_trySendAck now)
    rw [hacked] at hack hlink
    rcases wire with _ | wire
    · obtain rfl : c₃ = c₂ := hack
      exact .inl (by rw [heq]; exact ⟨rfl, rfl⟩)
    · exact .inr (.inr ⟨wire, _, heq, hlink, .of_view hack rfl⟩)
  · have hlink := (c.tries_tryRetransmit now).1
    rw [hresent] at hlink hresend
    exact .inr (.inr ⟨wire, _, heq, hlink, .of_view hresend rfl⟩)
  · rw [hresent] at hresend
    obtain rfl : c₁ = c := hresend
    have hlink := (c₁.tries_trySendNewData now).1
    rw [hsent] at hlink hnew
    exact .inr (.inr ⟨wire, _, heq, hlink, .of_view hnew rfl⟩)

/-! ### Receiving -/

def takePacket (w : RecvWindow) (packet : V2Packet) : List Bytes × RecvWindow :=
  let w := packet.ackOfAcks.elim w fun aoa =>
    w.advanceBase (reconstructSeq aoa.ackOfAcksSeqNum w.highestSeq)
  match packet.dataHeader, packet.dataBody with
  | some header, some body =>
    match w.receive (reconstructSeq header.dataSeqNum w.highestSeq)
        (reconstructSeq body.channelSeqNum w.nextChannelSeq) body.data with
    | (false, w) => ([], w)
    | (true, w) => w.drainOrdered
  | _, _ => ([], w)

variable {byte : PacketPrefixByte}

section

variable (hw : c.recvWindow = some w) (hbyte : byte.isDummy = false) (packet : V2Packet) (now : ℕ)
include hw hbyte packet now

theorem processSections_inbox :
    (c.processSections byte packet now).inbox = ⟨some (takePacket w packet).2,
      c.pendingEvents ++ (takePacket w packet).1.map Event.dataReceived⟩ := by
  unfold processSections takePacket
  generalize hw₁ : packet.ackOfAcks.elim w (fun aoa =>
    w.advanceBase (reconstructSeq aoa.ackOfAcksSeqNum w.highestSeq)) = w₁
  generalize hc₁ : packet.ackOfAcks.elim c (fun aoa => c.processAckOfAcks aoa) = c₁
  have hinbox : c₁.inbox = ⟨some w₁, c.pendingEvents⟩ := by
    rw [← hc₁, ← hw₁]
    rcases packet.ackOfAcks with _ | aoa
    · exact congrArg (fun window => Inbox.mk window c.pendingEvents) hw
    · rw [Option.elim_some, Option.elim_some, processAckOfAcks, hw]
      rfl
  have hrecv : c₁.recvWindow = some w₁ := congrArg Inbox.window hinbox
  have hevents : c₁.pendingEvents = c.pendingEvents := congrArg Inbox.events hinbox
  rcases packet.dataHeader with _ | header
  · simpa using hinbox
  rcases packet.dataBody with _ | body
  · simpa using hinbox
  dsimp only
  rw [if_neg (by simp [hbyte]), processData, hrecv, ← hevents]
  dsimp only
  rcases w₁.receive _ _ body.data with ⟨_ | _, w'⟩
  · simp [inbox, view]
  · rw [inbox, view_scheduleAck]
    rfl

/-- **What a packet brings in.** -/
theorem processPacket_inbox [MulF64] :
    (c.processPacket byte packet now).inbox = ⟨some (takePacket w packet).2,
      c.pendingEvents ++ (takePacket w packet).1.map Event.dataReceived⟩ := by
  have hinbox := congrArg Prod.snd (receiving_processAcks c packet now)
  have hrecv : (c.processAcks packet now).recvWindow = some w :=
      (congrArg Inbox.window hinbox).trans hw
  have hevents : (c.processAcks packet now).pendingEvents = c.pendingEvents :=
    congrArg Inbox.events hinbox
  rw [processPacket_eq, processSections_inbox hrecv hbyte, hevents]

end

/-! ### The two wire formats -/

theorem isRepeatedSynAck_eq_false (c : RdpeudpConnection) {wire : Bytes}
    (h : (wire.getD 7 0).toNat.testBit 2 = false) : c.isRepeatedSynAck wire = false := by
  unfold isRepeatedSynAck
  split
  next hheader =>
    rw [(FecHeader.flags_of_decode hheader).2, h]
    simp
  next => rfl

theorem isRepeatedSynAck_of_decode (c : RdpeudpConnection) {wire : Bytes} {packet : V2Packet}
    (h : decodeDatagram wire = .ok (byte, packet)) : c.isRepeatedSynAck wire = false := by
  apply isRepeatedSynAck_eq_false
  unfold decodeDatagram decodeWithPrefix at h
  split at h
  · cases h
  next hprefix =>
  dsimp only at hprefix
  split at hprefix
  · cases hprefix
  next hshort =>
  split at hprefix
  · cases hprefix
  next htype =>
  rw [headD_swapPrefix (Nat.not_lt.1 hshort)] at htype
  simp only [PacketPrefixByte.fromByte] at htype
  rw [Nat.testBit_eq_decide_div_mod_eq]
  simp only [decide_eq_false_iff_not]
  omega

theorem testBit_encodeWithPrefix (packet : Bytes) (isDummy : Bool) :
    ((encodeWithPrefix packet isDummy).getD 7 0).toNat.testBit 0 = false ∧
      ((encodeWithPrefix packet isDummy).getD 7 0).toNat.testBit 2 = false := by
  obtain ⟨byte, hswap, htype, -⟩ := swapPrefix_encode packet isDummy
  rw [← headD_swapPrefix (minWireSize_le_encode packet isDummy), hswap, headD_cons,
    PacketPrefixByte.toByte, UInt8.toNat_ofNat']
  simp only [Nat.testBit_eq_decide_div_mod_eq, decide_eq_false_iff_not]
  omega

theorem handleFinalAck_encodeWithPrefix [MulF64] (c : RdpeudpConnection) (packet : Bytes)
    (isDummy : Bool) (now : ℕ) :
    c.handleFinalAck (encodeWithPrefix packet isDummy) now = (false, c) := by
  unfold handleFinalAck
  split
  · rfl
  next hdatagram =>
    obtain ⟨rest, hheader, -⟩ := V1Datagram.decode_ok hdatagram
    obtain ⟨hsyn, hack⟩ := FecHeader.flags_of_decode hheader
    rw [(testBit_encodeWithPrefix packet isDummy).1] at hsyn
    rw [(testBit_encodeWithPrefix packet isDummy).2] at hack
    simp [hsyn, hack]

/-- **A version 2 packet is never taken for a handshake datagram**, whatever its bytes and at either
end: the prefix byte stands where version 1 has SYN and ACK, and leaves both clear. -/
theorem handleDatagram_encodeWithPrefix [MulF64] (c : RdpeudpConnection) (packet : Bytes)
    (isDummy : Bool) (now : ℕ) :
    let wire := encodeWithPrefix packet isDummy
    (c.state = .synReceived → c.handleDatagram wire now =
      ((c.touch now).transitionToEstablished now).handleV2Packet wire now) ∧
    (c.state = .established → c.handleDatagram wire now = (c.touch now).handleV2Packet wire
      now) := by
  constructor
  · intro hstate
    rw [handleDatagram_synReceived hstate, handleFinalAck_encodeWithPrefix]
  · intro hstate
    rw [handleDatagram_established hstate,
      c.isRepeatedSynAck_eq_false (testBit_encodeWithPrefix packet isDummy).2, if_neg (by simp)]

theorem handleDatagram_encodeWithPrefix_server :
    let c := accepted clientConfig ⟨1, 1232, 1232⟩ 0
    let wire := encodeWithPrefix [0, 0] false
    c.state = .synReceived ∧ @handleDatagram roundDown c wire 0 =
      @handleV2Packet roundDown (@transitionToEstablished (c.touch 0) 0) wire 0 :=
  ⟨rfl, (@handleDatagram_encodeWithPrefix roundDown _ _ _ 0).1 rfl⟩


theorem handleDatagram_cases [MulF64] (h : c.state = .established ∨ c.state = .closed)
    (wire : Bytes) (now : ℕ) : (c.handleDatagram wire now).2.view = c.view ∨
      (c.handleDatagram wire now).2 = (c.touch now).resendHandshakeDatagram ∨
      ∃ byte packet, decodeDatagram wire = .ok (byte, packet) ∧
        (c.handleDatagram wire now).2 = (c.touch now).processPacket byte packet now := by
  rcases h with hstate | hstate
  · rw [handleDatagram_established hstate]
    split_ifs
    · exact .inr (.inl rfl)
    · unfold handleV2Packet
      rcases hdecode : decodeDatagram wire with e | ⟨byte, packet⟩
      · exact .inl rfl
      · exact .inr (.inr ⟨byte, packet, rfl, rfl⟩)
  · rw [handleDatagram_closed hstate]
    exact .inl rfl

theorem Sound.handleDatagram [MulF64] (h : c.Sound) (wire : Bytes) (now : ℕ) :
    (c.handleDatagram wire now).2.Sound := by
  have htouched : (c.touch now).Sound := h.of_link rfl
  rcases handleDatagram_cases h.state wire now with hview | hresend | ⟨byte, packet, -, hprocess⟩
  · exact h.of_link (congrArg View.link hview)
  · rw [hresend]
    exact htouched.of_ages (ages_resendHandshakeDatagram _)
  · rw [hprocess]
    exact htouched.of_link (link_processPacket _ byte packet now)

theorem Sound.pollTransmit (h : c.Sound) (now : ℕ) : (c.pollTransmit now).2.Sound := by
  rcases pollTransmit_spec h now with
    ⟨-, hview⟩ | ⟨wire, rest, hpending, heq⟩ | ⟨wire, c', heq, hlink, -⟩
  · exact h.of_link (congrArg View.link hview)
  · rw [heq]
    exact { h with
      transmits := fun w hw => h.transmits w (by rw [hpending]; exact mem_cons_of_mem wire hw) }
  · rw [heq]
    exact h.of_link hlink

theorem takePacket_inOrder {sent : List Bytes} {m : ℕ} (h : w.InOrder sent m) (packet : V2Packet)
    (hbody : ∀ body ∈ packet.dataBody,
      reconstructSeq body.channelSeqNum w.nextChannelSeq < w.nextChannelSeq ∨
        ∃ i, reconstructSeq body.channelSeqNum w.nextChannelSeq = chunkSeq i ∧
          sent[i]? = some body.data) :
    ∃ m', (takePacket w packet).2.InOrder sent m' ∧
      sent.take m' = sent.take m ++ (takePacket w packet).1 := by
  unfold takePacket
  generalize hw₁ : packet.ackOfAcks.elim w (fun aoa =>
    w.advanceBase (reconstructSeq aoa.ackOfAcksSeqNum w.highestSeq)) = w₁
  have h₁ : w₁.InOrder sent m := by
    rw [← hw₁]
    rcases packet.ackOfAcks with _ | aoa
    · exact h
    · exact h.advanceBase _
  have hnext : w₁.nextChannelSeq = w.nextChannelSeq := h₁.next.trans h.next.symm
  rcases packet.dataHeader with _ | header
  · exact ⟨m, h₁, (append_nil _).symm⟩
  rcases hpacket : packet.dataBody with _ | body
  · exact ⟨m, h₁, (append_nil _).symm⟩
  dsimp only
  have hreceived := h₁.receive (reconstructSeq header.dataSeqNum w₁.highestSeq)
    (show reconstructSeq body.channelSeqNum w₁.nextChannelSeq < w₁.nextChannelSeq ∨ _ by
      rw [hnext]
      exact hbody body hpacket)
  rcases hreceive : w₁.receive _ _ body.data with ⟨_ | _, w'⟩
  · rw [hreceive] at hreceived
    exact ⟨m, hreceived, (append_nil _).symm⟩
  · rw [hreceive] at hreceived
    exact hreceived.drain _

end RdpeudpConnection

end Linrdp.Rdpeudp.Connection
