import Linrdp.Rdpeudp.Traffic

/-!
# Every packet fits the MTU

`send` cuts what it accepts before it is known what else a packet carries: `maxPayload` leaves room
for the longest acknowledgement. `length_encode` adds the sections up, the acknowledgements
excluding each other, and `Sized` says that no accepted chunk is longer than what the negotiated
parameters allow.
-/

namespace Linrdp.Rdpeudp.Connection

open List Lib.Bytes Lib.Runs Rdpeudp.Pdu Rdpeudp.Handshake Rdpeudp.Timing Rdpeudp.Sender

/-! ### The length of a packet -/

section sections

variable {bytes : Bytes}

theorem length_ack {a : AckPayload} (h : a.encode = .ok bytes) : bytes.length ≤ 22 := by
  unfold AckPayload.encode at h
  split_ifs at h
  cases h
  simp only [length_append, length_toLe]
  omega

theorem length_vector {v : AckVectorPayload} (h : v.encode = .ok bytes) : bytes.length ≤ 134 := by
  have htime : v.timeBlock.length ≤ 4 := by
    unfold AckVectorPayload.timeBlock
    split <;> simp
  unfold AckVectorPayload.encode at h
  split at h
  · cases h
  · cases h
  · split_ifs at h with hpaired hmany hmax
    cases h
    simp only [length_append, length_toLe, length_map]
    rw [ackVectorMaxEntries] at hmax
    omega

theorem length_writeOptional {α : Type} {encode : α → Except EncodeError Bytes} {n : ℕ}
    (hn : ∀ a bytes, encode a = .ok bytes → bytes.length ≤ n) {o : Option α}
    (h : writeOptional encode o = .ok bytes) : bytes.length ≤ if o.isSome then n else 0 := by
  cases o with
  | none =>
    cases h
    simp
  | some a => exact hn a bytes h

/-- **The length of a packet** without the sections that no connection sends. -/
theorem length_encode {p : V2Packet} (hoverhead : p.overheadSize = none)
    (hdelay : p.delayAckInfo = none) (h : p.encode = .ok bytes) :
    bytes.length ≤ 142 + p.dataBody.elim 0 fun body => body.data.length := by
  obtain ⟨header, ack, _, _, aoa, data, vector, body⟩ := p
  obtain rfl : _ = none := hoverhead
  obtain rfl : _ = none := hdelay
  unfold V2Packet.encode at h
  split_ifs at h with hpaired hboth
  obtain ⟨headerBytes, hheader, h⟩ := bind_ok h
  obtain ⟨ackBytes, hack, h⟩ := bind_ok h
  obtain ⟨_, hnone, h⟩ := bind_ok h
  cases hnone
  obtain ⟨_, hnone, h⟩ := bind_ok h
  cases hnone
  obtain ⟨aoaBytes, haoa, h⟩ := bind_ok h
  obtain ⟨dataBytes, hdata, h⟩ := bind_ok h
  obtain ⟨vectorBytes, hvector, h⟩ := bind_ok h
  obtain ⟨bodyBytes, hbody, h⟩ := bind_ok h
  cases h
  have hheader : headerBytes.length = 2 := by
    unfold V2Header.encode at hheader
    split_ifs at hheader
    cases hheader
    exact length_toLe _ _
  have hack := length_writeOptional (fun _ _ => length_ack) hack
  have hvector := length_writeOptional (fun _ _ => length_vector) hvector
  have haoa := length_writeOptional (n := 2) (fun _ _ h => by cases h; simp) haoa
  have hdata := length_writeOptional (n := 2) (fun _ _ h => by cases h; simp) hdata
  have hbody : bodyBytes.length ≤ 2 + body.elim 0 fun body => body.data.length := by
    cases body <;> cases hbody <;> simp
  have hone : ackBytes.length + vectorBytes.length ≤ 134 := by
    split_ifs at hack hvector with hsome hsome'
    · exact absurd (Bool.and_eq_true_iff.2 ⟨hsome, hsome'⟩) hboth
    all_goals omega
  simp only [length_append, length_nil, hheader]
  split_ifs at haoa hdata <;> omega

end sections

variable {c : RdpeudpConnection} {wire : Bytes} {now n : ℕ}

namespace RdpeudpConnection

theorem length_packetWith {logWindowSize : ℕ}
    {acknowledgement : Option (Option AckPayload × Option AckVectorPayload)}
    {data : Option (DataHeader × DataBody)}
    (h : encodeV2Packet (c.packetWith logWindowSize acknowledgement data) = some wire) :
    wire.length ≤ 143 + (data.map Prod.snd).elim 0 fun body => body.data.length := by
  unfold encodeV2Packet at h
  split at h
  · next bytes hbytes =>
    have hlen : bytes.length ≤ 142 + (data.map Prod.snd).elim 0 _ := length_encode rfl rfl hbytes
    cases h
    rw [encodeWithPrefix, length_swapPrefix, length_cons, length_append, length_replicate]
    omega
  · cases h

theorem length_buildDataPacket {dataSeq channelSeq : ℕ} {data : Bytes}
    (h : (c.buildDataPacket dataSeq channelSeq data now).1 = some wire) :
    wire.length ≤ 143 + data.length := by
  unfold buildDataPacket at h
  split at h
  · cases h
  · dsimp only at h
    split at h
    · cases h
    · next hwire =>
      have hlen := length_packetWith hwire
      split_ifs at h <;> cases h <;> exact hlen

theorem length_trySendAck (h : (c.trySendAck now).1 = some wire) : wire.length ≤ 143 := by
  unfold trySendAck buildStandaloneAck at h
  split_ifs at h
  split at h
  · cases h
  · next hbuilt =>
    split at hbuilt
    · split at hbuilt
      · cases hbuilt
      · next hwire =>
        cases hbuilt
        cases h
        exact length_packetWith hwire
    · cases hbuilt

section kept

variable {accepted : List Bytes} {acked : List ℕ} {k : ℕ} (hkept : Kept accepted acked k c.outbox)
  (hn : ∀ data ∈ accepted, data.length ≤ n)
include hkept hn

theorem length_tryRetransmit (h : (c.tryRetransmit now).1 = some wire) : wire.length ≤ 143 + n := by
  rcases c.tryRetransmit_cases now with hnone | ⟨entry, queue, window, hqueue, -, -, timers, heq⟩
  · rw [hnone] at h
    cases h
  · rw [heq] at h
    have hentry : entry ∈ c.outbox.queue := by
      show entry ∈ c.reliability
      simp [hqueue]
    obtain ⟨i, -, hi⟩ := hkept.queued entry hentry
    exact (length_buildDataPacket h).trans (Nat.add_le_add_left (hn _ (mem_of_getElem? hi)) _)

theorem length_trySendNewData (h : (c.trySendNewData now).1 = some wire) :
    wire.length ≤ 143 + n := by
  rcases c.trySendNewData_cases now with hnone | ⟨data, buffer, window, hbuffer, -, -, timers, heq⟩
  · rw [hnone] at h
    cases h
  · rw [heq] at h
    have hdata : data ∈ accepted.drop k := by
      rw [← hkept.buffer]
      show data ∈ c.sendBuffer
      simp [hbuffer]
    exact (length_buildDataPacket h).trans (Nat.add_le_add_left (hn _ (mem_of_mem_drop hdata)) _)

theorem length_pollTransmit (h : (c.pollTransmit now).1 = some wire) :
    wire ∈ c.pendingTransmits ∨ wire.length ≤ 143 + n := by
  rcases c.pollTransmit_cases now with hnone | ⟨transmit, rest, hpending, heq⟩ |
    ⟨-, c₁, c₂, _, c₃, _, -, -, hacked, heq⟩ | ⟨-, _, c₁, hresent, heq⟩ |
    ⟨-, c₁, _, c₂, hresent, hsent, heq⟩
  · rw [hnone] at h
    cases h
  · rw [heq] at h
    cases h
    simp [hpending]
  · rw [heq] at h
    exact .inr ((length_trySendAck (by rw [hacked]; exact h)).trans (Nat.le_add_right ..))
  · rw [heq] at h
    exact .inr (length_tryRetransmit hkept hn (by rw [hresent]; exact h))
  · obtain ⟨k', hkept'⟩ := kept_of_takes hkept (c.tries_tryRetransmit now).2.1
    rw [hresent] at hkept'
    rw [heq] at h
    exact .inr (length_trySendNewData hkept' hn (by rw [hsent]; exact h))

end kept

end RdpeudpConnection

/-! ### The chunks of a run -/

theorem length_chunks (size : ℕ) (data : Bytes) : ∀ chunk ∈ chunks size data,
    chunk.length ≤ size := by
  fun_induction chunks size data with
  | case1 => exact forall_mem_nil _
  | case2 data hne ih => exact forall_mem_cons.2 ⟨length_take_le .., ih⟩

open RdpeudpConnection

theorem length_split (c : RdpeudpConnection) (data : Bytes) :
    ∀ chunk ∈ c.split data, chunk.length ≤ c.maxPayload := by
  unfold RdpeudpConnection.split
  split_ifs with hshort
  · exact forall_mem_singleton.2 hshort
  · exact length_chunks _ data

namespace Tracked

/-- Chunks are only accepted once the parameters are there to stay. -/
def Sized (t : Tracked) : Prop :=
  t.accepted = [] ∨ ((t.conn.state = .established ∨ t.conn.state = .closed) ∧
    ∀ data ∈ t.accepted, data.length ≤ t.conn.maxPayload)

variable {t t' : Tracked}

theorem Sized.of_same (h : t.Sized) (haccepted : t'.accepted = t.accepted)
    (hsame : t.conn.state = .established ∨ t.conn.state = .closed →
      (t'.conn.state = t.conn.state ∨ t'.conn.state = .closed) ∧ t'.conn.params = t.conn.params) :
    t'.Sized := by
  rcases h with hnil | ⟨hstate, hfits⟩
  · exact .inl (haccepted.trans hnil)
  · obtain ⟨hkeeps, hparams⟩ := hsame hstate
    refine .inr ⟨?_, fun data hdata => ?_⟩
    · rcases hkeeps with heq | hclosed
      · rwa [heq]
      · exact .inr hclosed
    · rw [maxPayload, hparams]
      exact hfits data (haccepted ▸ hdata)

theorem sized_step [MulF64] (h : t.Sized) (op : Op) : (t.step op).Sized := by
  cases op with
  | send data =>
    rw [step]
    rcases t.conn.send_cases data with ⟨hstate, hok⟩ | ⟨e, herror⟩
    · rw [hok]
      refine .inr ⟨.inl hstate, forall_mem_append.2 ⟨?_, length_split t.conn data⟩⟩
      rcases h with hnil | ⟨-, hfits⟩
      · simp [hnil]
      · exact hfits
    · rw [herror]
      exact h
  | handleDatagram wire now =>
    refine h.of_same rfl fun hstate => ?_
    rw [step]
    rcases handleDatagram_cases hstate wire now with hview | hresend | ⟨byte, packet, -, hprocess⟩
    · exact ⟨.inl (congrArg (fun v : View => v.link.state) hview),
        congrArg (fun v : View => v.link.params) hview⟩
    · rw [hresend]
      exact ⟨.inl rfl, rfl⟩
    · have hlink := link_processPacket (t.conn.touch now) byte packet now
      rw [hprocess]
      exact ⟨.inl (congrArg Link.state hlink), congrArg Link.params hlink⟩
  | handleTimeout now =>
    have hages := ages_handleTimeout t.conn now
    exact h.of_same rfl fun _ => ⟨hages.state, hages.params⟩
  | pollTransmit now =>
    refine h.of_same rfl fun _ => ?_
    rw [step]
    rcases t.conn.pollTransmit_tries now with ⟨transmit, rest, -, heq⟩ | hsame | ⟨-, hlink, -⟩
    · rw [heq]
      exact ⟨.inl rfl, rfl⟩
    · rw [hsame]
      exact ⟨.inl rfl, rfl⟩
    · exact ⟨.inl (congrArg Link.state hlink), congrArg Link.params hlink⟩

end Tracked

/-! ### The MTU that is negotiated -/

/-- A packet with the longest acknowledgement and one byte of data. -/
def longestOverhead : ℕ := dataPacketOverhead + piggybackReserve + 1

namespace RdpeudpConnection

variable {c' : RdpeudpConnection}

/-- The configured MTUs, and the negotiated one once it is there, leave room for any packet. -/
structure Roomy (c : RdpeudpConnection) : Prop where
  upstream : longestOverhead ≤ c.config.upstreamMtu.toNat
  downstream : longestOverhead ≤ c.config.downstreamMtu.toNat
  params : ∀ params ∈ c.params, longestOverhead ≤ params.mtu.toNat

/-- Nothing was negotiated in between. -/
def SameTerms (c c' : RdpeudpConnection) : Prop := c'.config = c.config ∧ c'.params = c.params

theorem SameTerms.of_link (h : c'.link = c.link) : SameTerms c c' :=
  ⟨congrArg Link.config h, congrArg Link.params h⟩

theorem SameTerms.of_ages (h : Ages c c') : SameTerms c c' := ⟨h.config, h.params⟩

theorem Roomy.same (h : c.Roomy) (hsame : SameTerms c c') : c'.Roomy :=
  ⟨hsame.1 ▸ h.upstream, hsame.1 ▸ h.downstream, hsame.2 ▸ h.params⟩

/-- The MTU of the parameters is the smallest of the four. -/
theorem le_smallestMtu {config : ConnectionConfig} {d : V1Datagram} {synData : SynDataPayload}
    (hup : longestOverhead ≤ config.upstreamMtu.toNat)
    (hdown : longestOverhead ≤ config.downstreamMtu.toNat)
    (hdecode : V1Datagram.decode wire = .ok d) (hsyn : d.synData = some synData) :
    longestOverhead ≤ (smallestMtu config synData).toNat := by
  obtain ⟨hup', hdown'⟩ := V1Datagram.mtuMin_le_of_decode hdecode synData hsyn
  have hrange : longestOverhead ≤ mtuMin := by decide
  have hlt := config.upstreamMtu.toNat_lt
  rw [smallestMtu, UInt16.toNat_ofNat', Nat.mod_eq_of_lt (by omega)]
  omega

theorem roomy_survives [MulF64] (wire : Bytes) (now : ℕ) : Survives Roomy wire now where
  touch h := h.same ⟨rfl, rfl⟩
  resend h := h.same ⟨rfl, rfl⟩
  sample h := h.same (.of_link (congrArg View.link (view_sampleHandshakeRtt _ now)))
  finalAck _ h := h.same ⟨rfl, rfl⟩
  establish h := by
    unfold transitionToEstablished
    split
    · exact h
    · exact h.same ⟨rfl, rfl⟩
  packet h := by
    unfold handleV2Packet
    split
    · exact h
    · exact h.same (.of_link (link_processPacket ..))
  negotiate hdecode hsyn h := ⟨h.upstream, h.downstream,
    by simpa using le_smallestMtu h.upstream h.downstream hdecode hsyn⟩

/-- Opened by `connect`, or by `accept` for a SYN as it came over the wire. -/
def Greeted (c : RdpeudpConnection) : Prop :=
  (∃ config now, connect config now = .ok c) ∨
    ∃ config wire syn now, V1Datagram.decode wire = .ok syn ∧ accept config syn now = .ok c

theorem Greeted.opened (h : c.Greeted) : c.Opened :=
  h.imp id fun ⟨config, _, syn, now, _, haccept⟩ => ⟨config, syn, now, haccept⟩

theorem Greeted.roomy (h : c.Greeted) (hup : longestOverhead ≤ c.config.upstreamMtu.toNat)
    (hdown : longestOverhead ≤ c.config.downstreamMtu.toNat) : c.Roomy := by
  rcases h with ⟨config, now, h⟩ | ⟨config, wire, syn, now, hdecode, h⟩
  · unfold connect at h
    split_ifs at h
    cases h
    refine ⟨hup, hdown, ?_⟩
    unfold enqueueSyn enqueueHandshake
    rcases (synDatagram _).encode with e | bytes <;> exact fun _ hparams => by cases hparams
  · obtain ⟨synData, hsyn, rfl⟩ := accept_ok h
    obtain ⟨hconfig, hparams⟩ : (accepted config synData now).config = config ∧
        (accepted config synData now).params = some ⟨synData.initialSequenceNumber,
          smallestMtu config synData, config.logWindowSize⟩ := by
      unfold accepted enqueueSynAck enqueueHandshake
      dsimp only
      rcases (synAckDatagram _ _ _ _).encode with e | bytes <;> exact ⟨rfl, rfl⟩
    refine ⟨hup, hdown, ?_⟩
    rw [hconfig] at hup hdown
    simpa [hparams] using le_smallestMtu hup hdown hdecode hsyn

end RdpeudpConnection

theorem Tracked.roomy_step [MulF64] {t : Tracked} (h : t.conn.Roomy) (op : Op) :
    (t.step op).conn.Roomy := by
  cases op with
  | send data =>
    rw [Tracked.step]
    rcases t.conn.send_cases data with ⟨-, hok⟩ | ⟨e, herror⟩
    · rw [hok]
      exact h.same ⟨rfl, rfl⟩
    · rwa [herror]
  | handleDatagram wire now => exact (roomy_survives wire now).handleDatagram h
  | handleTimeout now => exact h.same (.of_ages (ages_handleTimeout t.conn now))
  | pollTransmit now =>
    rw [Tracked.step]
    rcases t.conn.pollTransmit_tries now with ⟨transmit, rest, -, heq⟩ | hsame | ⟨-, hlink, -⟩
    · rw [heq]
      exact h.same ⟨rfl, rfl⟩
    · rwa [hsame]
    · exact h.same (.of_link hlink)

/-- **Every packet fits the MTU** that was negotiated, in every state that a connection gets to, if
the configured MTUs hold the longest acknowledgement and one byte: what it sends is a datagram of
the handshake, or no longer than the MTU. -/
theorem pollTransmit_fits_mtu [MulF64] (h : c.Greeted) (ops : List Op)
    (hup : longestOverhead ≤ c.config.upstreamMtu.toNat)
    (hdown : longestOverhead ≤ c.config.downstreamMtu.toNat) {params : NegotiatedParams}
    (hparams : (run Tracked.step ⟨c, [], []⟩ ops).conn.params = some params)
    (hwire : ((run Tracked.step ⟨c, [], []⟩ ops).conn.pollTransmit now).1 = some wire) :
    wire ∈ (run Tracked.step ⟨c, [], []⟩ ops).conn.pendingTransmits ∨
    wire.length ≤ params.mtu.toNat := by
  have hinv := run_inv (I := fun t : Tracked => t.Inv ∧ t.Sized ∧ t.conn.Roomy)
    (fun _ op ht => ⟨Tracked.inv_step ht.1 op, Tracked.sized_step ht.2.1 op,
      Tracked.roomy_step ht.2.2 op⟩)
    ⟨Tracked.inv_start h.opened, .inl rfl, h.roomy hup hdown⟩ ops
  generalize run Tracked.step ⟨c, [], []⟩ ops = t at *
  obtain ⟨⟨-, k, hkept⟩, hsized, hroomy⟩ := hinv
  have hmtu := hroomy.params params hparams
  rw [longestOverhead, dataPacketOverhead, piggybackReserve] at hmtu
  have hn : ∀ data ∈ t.accepted, data.length ≤ params.mtu.toNat - 143 := by
    intro data hdata
    rcases hsized with hnil | ⟨-, hfits⟩
    · simp [hnil] at hdata
    · refine (hfits data hdata).trans ?_
      rw [maxPayload, hparams]
      simp only [Option.elim_some, dataPacketOverhead, piggybackReserve]
      omega
  exact (length_pollTransmit hkept hn hwire).imp_right fun hlen => by omega

theorem pollTransmit_fits_mtu_client :
    let c := (run (@Tracked.step roundDown) ⟨(new .client clientConfig).enqueueSyn 0, [], []⟩
    clientOps).conn
    ∃ wire, (c.pollTransmit 0).1 = some wire ∧ (wire ∈ c.pendingTransmits ∨ wire.length ≤ 1232) :=
  ⟨_, rfl, @pollTransmit_fits_mtu _ _ _ roundDown (.inl ⟨clientConfig, 0, rfl⟩) clientOps
    (by decide)
    (by decide) ⟨1, 1232, 3⟩ rfl rfl⟩

/-! ### An MTU below the overhead -/

def tinyConfig : ConnectionConfig := { clientConfig with upstreamMtu := 7, downstreamMtu := 7 }

def tinyServer : RdpeudpConnection := accepted tinyConfig ⟨1, 1232, 1232⟩ 0

def protocolSyn : List UInt8 :=
  [255, 255, 255, 255, 0, 8, 16, 1, 0, 0, 0, 1, 4, 208, 4, 208, 0, 1, 1, 1] ++ replicate 32 0

def oneByte : List Op :=
  [.pollTransmit 0, .handleDatagram [0, 0, 0, 1, 0, 8, 0, 4, 0, 1, 1, 0] 0, .send [7]]

/-- **Counterexample.** A SYN of the protocol's range and a configured MTU of 7: the byte goes out
in a packet of 8. -/
theorem exceeds_tiny_mtu :
    let c := (run (@Tracked.step roundDown) ⟨tinyServer, [], []⟩ oneByte).conn
    tinyServer.Greeted ∧ c.params = some ⟨1, 7, 3⟩ ∧ c.pendingTransmits = [] ∧
      ∃ wire, (c.pollTransmit 0).1 = some wire ∧ 7 < wire.length :=
  ⟨.inr ⟨tinyConfig, protocolSyn, _, 0, rfl, rfl⟩, rfl, rfl, _, rfl, by decide⟩

end Linrdp.Rdpeudp.Connection
