import Linrdp.Rdpeudp.Acts

/-!
# No accepted data is lost at the sender

A connection from its first datagram on: `send`, datagrams of any bytes, timeouts and transmissions
in any order. Beside it run the chunks that `send` accepted and the channel numbers of those the
peer acknowledged, as the datagrams say. Each accepted chunk is in one of four places, and in one
only (`exactly_one_place`).
-/

namespace Linrdp.Rdpeudp.Connection

open List Lib.Runs Rdpeudp.Pdu Rdpeudp.Handshake Rdpeudp.Seq
open Rdpeudp.Timing Rdpeudp.Sending Rdpeudp.Sender

variable {c : RdpeudpConnection}

namespace RdpeudpConnection

def readPacket (c : RdpeudpConnection) (wire : Bytes) : Option V2Packet :=
  if c.state = .established ∧ c.isRepeatedSynAck wire = false then
    match decodeDatagram wire with
    | .ok (_, packet) => some packet
    | .error _ => none
  else none

def Named (c : RdpeudpConnection) (wire : Bytes) (dataSeq : ℕ) : Prop :=
  ∃ packet ∈ c.readPacket wire, names c.outbox.window packet dataSeq

instance (c : RdpeudpConnection) (wire : Bytes) : DecidablePred (c.Named wire) :=
  fun _ => inferInstanceAs (Decidable (∃ _ ∈ _, _))

def acknowledgedBy (c : RdpeudpConnection) (wire : Bytes) : List ℕ :=
  (c.outbox.window.pendingEntries.filter fun e => c.Named wire e.dataSeq).map SendEntry.channelSeq

/-! ### A datagram as acts -/

structure Staged (c : RdpeudpConnection) : Prop where
  synSent : c.state = .synSent → c.sendWindow = none
  synReceived : c.state = .synReceived → c.sendWindow = none ∧ c.params.isSome

theorem Staged.of_established (h : c.state = .established ∨ c.state = .closed) : c.Staged := by
  rcases h with h | h <;> exact ⟨fun hs => by simp [h] at hs, fun hs => by simp [h] at hs⟩

theorem transitionToEstablished_spec (h : c.sendWindow = none)
    (hparams : c.params.isSome) (now : ℕ) :
    (c.transitionToEstablished now).state = .established ∧
      ∃ maxEntries, (c.transitionToEstablished now).outbox = c.outbox.step
      (.resize maxEntries) := by
  obtain ⟨params, hparams⟩ := Option.isSome_iff_exists.1 hparams
  unfold transitionToEstablished
  rw [hparams]
  refine ⟨rfl, 2 ^ params.logWindowSize, ?_⟩
  simp only [outbox, view, h, Outbox.step, Option.getD_some, Option.getD_none]
  rfl

theorem sendWindow_sampleHandshakeRtt [MulF64] (c : RdpeudpConnection) (now : ℕ) :
    (c.sampleHandshakeRtt now).sendWindow = c.sendWindow := by
  unfold sampleHandshakeRtt
  split_ifs
  · rfl
  · split <;> rfl

theorem handleSynAck_spec [MulF64] (h : c.sendWindow = none) (wire : Bytes) (now : ℕ) :
    (c.handleSynAck wire now).2 = c ∨ ((c.handleSynAck wire now).2.state = .established ∧
      ∃ maxEntries, (c.handleSynAck wire now).2.outbox = c.outbox.step (.resize maxEntries)) := by
  unfold handleSynAck
  split
  · exact .inl rfl
  split_ifs
  · exact .inl rfl
  split
  · exact .inl rfl
  · exact .inl rfl
  · next synData synDataEx _ _ =>
    split_ifs
    · exact .inl rfl
    right
    dsimp only
    generalize hc₁ : { c with params := some (NegotiatedParams.mk synData.initialSequenceNumber
      (smallestMtu c.config synData) c.config.logWindowSize) } = c₁
    have hwindow : (c₁.sampleHandshakeRtt now).sendWindow = none := by
      rw [sendWindow_sampleHandshakeRtt, ← hc₁]
      exact h
    have hparams : (c₁.sampleHandshakeRtt now).params = c₁.params :=
      congrArg (fun v : View => v.link.params) (view_sampleHandshakeRtt c₁ now)
    obtain ⟨hstate, maxEntries, hout⟩ := transitionToEstablished_spec
      (c := (c₁.sampleHandshakeRtt now).enqueueFinalAck synData.initialSequenceNumber) hwindow
      (hparams ▸ hc₁ ▸ rfl) now
    refine ⟨hstate, maxEntries, hout.trans (congrArg (Outbox.step · _) ?_)⟩
    exact (congrArg View.outbox (view_sampleHandshakeRtt c₁ now)).trans (hc₁ ▸ rfl)

theorem handleFinalAck_spec [MulF64] (h : c.sendWindow = none)
    (hparams : c.params.isSome) (wire : Bytes) (now : ℕ) :
    c.handleFinalAck wire now = (false, c) ∨
      c.handleFinalAck wire now = (true, c.resendHandshakeDatagram) ∨
      ((c.handleFinalAck wire now).1 = true ∧ (c.handleFinalAck wire now).2.state = .established ∧
        ∃ maxEntries, (c.handleFinalAck wire now).2.outbox = c.outbox.step
        (.resize maxEntries)) := by
  unfold handleFinalAck
  split
  · exact .inl rfl
  split_ifs
  · exact .inr (.inl rfl)
  · exact .inl rfl
  · have hsampled : (c.sampleHandshakeRtt now).params = c.params :=
      congrArg (fun v : View => v.link.params) (view_sampleHandshakeRtt c now)
    obtain ⟨hstate, maxEntries, hout⟩ := transitionToEstablished_spec
      ((sendWindow_sampleHandshakeRtt c now).trans h) (by rw [hsampled]; exact hparams) now
    refine .inr (.inr ⟨rfl, hstate, maxEntries, hout.trans ?_⟩)
    rw [outbox, view_sampleHandshakeRtt]

variable {named : ℕ → Prop}

theorem handleV2Packet_acknowledges [MulF64] (h : c.outbox.window.Wf) (wire : Bytes) (now : ℕ)
    (hnamed : ∀ e ∈ c.outbox.window.pendingEntries, named e.dataSeq ↔
      ∃ byte packet, decodeDatagram wire = .ok (byte, packet) ∧
        names c.outbox.window packet e.dataSeq) :
    Acknowledges named c.outbox (c.handleV2Packet wire now).2.outbox := by
  unfold handleV2Packet
  rcases hdecode : decodeDatagram wire with error | ⟨byte, packet⟩
  · refine acknowledges_none rfl fun e he hd => ?_
    obtain ⟨_, _, hok, -⟩ := (hnamed e he).1 hd
    simp [hdecode] at hok
  · obtain ⟨resized, acked, lost, retired, hrun, hacked⟩ :=
      processPacket_acknowledges h byte (exclusive_of_decodeDatagram hdecode) now
    refine ⟨resized, acked, lost, retired, hrun, fun e he => (hacked e he).trans ?_⟩
    rw [hnamed e he, hdecode]
    constructor
    · exact fun hd => ⟨byte, packet, rfl, hd⟩
    · rintro ⟨_, _, hok, hd⟩
      cases hok
      exact hd

theorem acknowledges_empty {c' : RdpeudpConnection} (h : c.sendWindow = none)
    (hout : c'.outbox = c.outbox ∨ ∃ maxEntries, c'.outbox = c.outbox.step (.resize maxEntries)) :
    Acknowledges named c.outbox c'.outbox := by
  have hnone : ∀ e ∈ c.outbox.window.pendingEntries, ¬ named e.dataSeq := by
    simp [pendingEntries_of_none h]
  rcases hout with hout | ⟨maxEntries, hout⟩
  · exact acknowledges_none hout hnone
  · exact ⟨[maxEntries], [], [], [], hout, fun e he => by simpa using hnone e he⟩

def touch (c : RdpeudpConnection) (now : ℕ) : RdpeudpConnection :=
  c.setTimer .idle (advance now c.config.idleTimeout)

theorem handleDatagram_closed [MulF64] (h : c.state = .closed) (wire : Bytes)
    (now : ℕ) : (c.handleDatagram wire now).2 = c := by rw [handleDatagram, if_pos h]

theorem handleDatagram_synSent [MulF64] (h : c.state = .synSent) (wire : Bytes)
    (now : ℕ) : c.handleDatagram wire now = (c.touch now).handleSynAck wire now := by
  simp [handleDatagram, touch, setTimer, h]

theorem handleDatagram_synReceived [MulF64] (h : c.state = .synReceived) (wire : Bytes) (now : ℕ) :
    c.handleDatagram wire now = match (c.touch now).handleFinalAck wire now with
      | (true, c) => (.ok (), c)
      | (false, c) => (c.transitionToEstablished now).handleV2Packet wire now := by
  have hstate : (c.touch now).state = .synReceived := h
  rw [touch] at hstate
  rw [handleDatagram, if_neg (by simp [h])]
  simp only [hstate]
  rfl

theorem handleDatagram_established [MulF64] (h : c.state = .established) (wire : Bytes) (now : ℕ) :
    c.handleDatagram wire now =
      if c.isRepeatedSynAck wire then (.ok (), (c.touch now).resendHandshakeDatagram)
      else (c.touch now).handleV2Packet wire now := by
  simp [handleDatagram, touch, setTimer, h, isRepeatedSynAck]

/-- What a datagram can do, step by step, and that each step keeps `P`. -/
structure Survives [MulF64] (P : RdpeudpConnection → Prop) (wire : Bytes) (now : ℕ) : Prop where
  touch : ∀ {c}, P c → P (c.touch now)
  resend : ∀ {c}, P c → P c.resendHandshakeDatagram
  sample : ∀ {c}, P c → P (c.sampleHandshakeRtt now)
  finalAck : ∀ {c} isn, P c → P (c.enqueueFinalAck isn)
  establish : ∀ {c}, P c → P (c.transitionToEstablished now)
  packet : ∀ {c}, P c → P (c.handleV2Packet wire now).2
  negotiate : ∀ {c datagram synData}, V1Datagram.decode wire = .ok datagram →
    datagram.synData = some synData → P c → P { c with
      params := some ⟨synData.initialSequenceNumber, smallestMtu c.config synData,
        c.config.logWindowSize⟩ }

/-- **The rule for a datagram**: what its steps keep holds after it. -/
theorem Survives.handleDatagram [MulF64] {P : RdpeudpConnection → Prop} {wire : Bytes} {now : ℕ}
    (hs : Survives P wire now) (h : P c) : P (c.handleDatagram wire now).2 := by
  have ht := hs.touch h
  rcases hstate : c.state with _ | _ | _ | _
  · rw [handleDatagram_synSent hstate]
    unfold handleSynAck
    split
    · exact ht
    next datagram hdecode =>
    split_ifs
    · exact ht
    split
    · exact ht
    · exact ht
    next synData _ hsyn _ =>
    split_ifs
    · exact ht
    · exact hs.establish (hs.finalAck _ (hs.sample (hs.negotiate hdecode hsyn ht)))
  · have hack : P ((c.touch now).handleFinalAck wire now).2 := by
      unfold handleFinalAck
      split
      · exact ht
      · split_ifs
        · exact hs.resend ht
        · exact ht
        · exact hs.establish (hs.sample ht)
    rw [handleDatagram_synReceived hstate]
    rcases hfinal : (c.touch now).handleFinalAck wire now with ⟨_ | _, c₁⟩ <;> rw [hfinal] at hack
    · exact hs.packet (hs.establish hack)
    · exact hack
  · rw [handleDatagram_established hstate]
    split_ifs
    · exact hs.resend ht
    · exact hs.packet ht
  · rwa [handleDatagram_closed hstate]

/-- **What a datagram does to the outbox**, in every state: its acknowledgement, if it has one, is
of the packets it names. -/
theorem handleDatagram_acknowledges [MulF64] (h : c.outbox.window.Wf)
    (hstaged : c.Staged) (wire : Bytes) (now : ℕ) :
    Acknowledges (c.Named wire) c.outbox (c.handleDatagram wire now).2.outbox := by
  rcases hstate : c.state with _ | _ | _ | _
  · -- the SYN+ACK
    have hnone : (c.touch now).sendWindow = none := hstaged.synSent hstate
    rw [handleDatagram_synSent hstate]
    refine acknowledges_empty hnone ?_
    rcases handleSynAck_spec hnone wire now with hsame | ⟨-, hout⟩
    · exact .inl (by rw [hsame]; rfl)
    · exact .inr hout
  · -- the final ACK, or a packet in its place
    have hnone : (c.touch now).sendWindow = none := (hstaged.synReceived hstate).1
    have hparams : (c.touch now).params.isSome := (hstaged.synReceived hstate).2
    rw [handleDatagram_synReceived hstate]
    rcases handleFinalAck_spec hnone hparams wire now with hfalse | hresend | ⟨htrue, -, hout⟩
    · rw [hfalse]
      obtain ⟨-, maxEntries, hout⟩ := transitionToEstablished_spec hnone hparams now
      refine Acknowledges.resize (hout ▸ handleV2Packet_acknowledges ?_ wire now fun e he => ?_)
      · have hnew := SendWindow.wf_new initialDataSeq initialChannelSeq 0
        rw [← outbox_window_none hnone] at hnew
        rw [hout]
        exact { hnew with }
      · have hempty := pendingEntries_of_none hnone
        rw [hout] at he
        exact absurd (show e ∈ (c.touch now).outbox.window.pendingEntries from he)
          (by simp [hempty])
    · rw [hresend]
      exact acknowledges_empty hnone (.inl rfl)
    · rcases hack : (c.touch now).handleFinalAck wire now with ⟨handled, c₁⟩
      rw [hack] at htrue hout
      rw [show handled = true from htrue]
      exact acknowledges_empty hnone (.inr hout)
  · rw [handleDatagram_established hstate]
    split_ifs with hsynack
    · refine acknowledges_none rfl fun e _ => ?_
      rintro ⟨packet, hpacket, -⟩
      simp [readPacket, hsynack] at hpacket
    · have hwf : (c.touch now).outbox.window.Wf := h
      refine handleV2Packet_acknowledges hwf wire now fun e _ => ?_
      rw [Named, readPacket, if_pos ⟨hstate, by simpa using hsynack⟩]
      rcases decodeDatagram wire with error | ⟨byte, packet⟩
      · simp
      · simp only [Option.mem_some_iff, exists_eq_left', Except.ok.injEq, Prod.mk.injEq]
        exact ⟨fun hnames => ⟨byte, packet, ⟨rfl, rfl⟩, hnames⟩,
          fun ⟨_, _, ⟨_, hpacket⟩, hnames⟩ => hpacket ▸ hnames⟩
  · rw [handleDatagram_closed hstate]
    refine acknowledges_none rfl fun e _ => ?_
    rintro ⟨packet, hpacket, -⟩
    simp [readPacket, hstate] at hpacket

theorem state_handleV2Packet [MulF64] (c : RdpeudpConnection) (wire : Bytes) (now : ℕ) :
    (c.handleV2Packet wire now).2.state = c.state := by
  unfold handleV2Packet
  split
  · rfl
  · exact congrArg Link.state (link_processPacket c _ _ now)

theorem handleV2Packet_staged [MulF64] (h : c.state = .established)
    (wire : Bytes) (now : ℕ) : (c.handleV2Packet wire now).2.Staged :=
  .of_established (.inl ((c.state_handleV2Packet wire now).trans h))

theorem handleDatagram_staged [MulF64] (h : c.Staged) (wire : Bytes) (now : ℕ) :
    (c.handleDatagram wire now).2.Staged := by
  have htouched : (c.touch now).Staged := ⟨h.synSent, h.synReceived⟩
  rcases hstate : c.state with _ | _ | _ | _
  · rw [handleDatagram_synSent hstate]
    rcases handleSynAck_spec (htouched.synSent hstate) wire now with hsame | ⟨hestablished, -⟩
    · rw [hsame]
      exact htouched
    · exact .of_established (.inl hestablished)
  · obtain ⟨hnone, hparams⟩ := htouched.synReceived hstate
    rw [handleDatagram_synReceived hstate]
    rcases handleFinalAck_spec hnone hparams wire
      now with hfalse | hresend | ⟨htrue, hestablished, -⟩
    · rw [hfalse]
      exact handleV2Packet_staged (transitionToEstablished_spec hnone hparams now).1 wire now
    · rw [hresend]
      exact ⟨h.synSent, h.synReceived⟩
    · rcases hack : (c.touch now).handleFinalAck wire now with ⟨handled, c₁⟩
      rw [hack] at htrue hestablished
      rw [show handled = true from htrue]
      exact .of_established (.inl hestablished)
  · rw [handleDatagram_established hstate]
    split_ifs
    · exact ⟨h.synSent, h.synReceived⟩
    · exact handleV2Packet_staged (c := c.touch now) hstate wire now
  · rw [handleDatagram_closed hstate]
    exact h

theorem handleTimeout_staged (h : c.Staged) (now : ℕ) : (c.handleTimeout now).Staged := by
  have hages := ages_handleTimeout c now
  have hwas : ∀ s ≠ .closed, (c.handleTimeout now).state = s → c.state = s := by
    rintro s hs rfl
    exact (hages.state.resolve_right hs).symm
  refine ⟨fun hstate => ?_, fun hstate => ?_⟩
  · have hbefore := hwas _ (by simp) hstate
    rw [hages.sendWindow (by simp [hbefore])]
    exact h.synSent hbefore
  · have hbefore := hwas _ (by simp) hstate
    rw [hages.sendWindow (by simp [hbefore]), hages.params]
    exact h.synReceived hbefore

theorem pollTransmit_staged (h : c.Staged) (now : ℕ) : (c.pollTransmit now).2.Staged := by
  rcases c.pollTransmit_tries now with ⟨transmit, rest, -, heq⟩ | hsame | ⟨hstate, hlink, -⟩
  · rw [heq]
    exact ⟨h.synSent, h.synReceived⟩
  · rw [hsame]
    exact h
  · exact .of_established (.inl ((congrArg Link.state hlink).trans hstate))

/-! ### The chunks of a run -/

def Opened (c : RdpeudpConnection) : Prop :=
  (∃ config now, connect config now = .ok c) ∨ ∃ config syn now, accept config syn now = .ok c

structure Fresh (c : RdpeudpConnection) : Prop where
  sendWindow : c.sendWindow = none
  sendBuffer : c.sendBuffer = []
  reliability : c.reliability = []
  params : c.state = .synReceived → c.params.isSome

theorem fresh_accepted (config : ConnectionConfig) (synData : SynDataPayload) (now : ℕ) :
    (accepted config synData now).Fresh := by
  unfold accepted enqueueSynAck enqueueHandshake
  dsimp only
  rcases (synAckDatagram _ _ _ _).encode with e | bytes
  · exact ⟨rfl, rfl, rfl, fun hstate => by cases hstate⟩
  · exact ⟨rfl, rfl, rfl, fun _ => rfl⟩

theorem accept_ok {config : ConnectionConfig} {syn : V1Datagram} {now : ℕ}
    (h : accept config syn now = .ok c) :
    ∃ synData, syn.synData = some synData ∧ c = accepted config synData now := by
  unfold accept at h
  split_ifs at h
  split at h
  · cases h
  · cases h
  · cases h
  case h_4 synData synDataEx hash hsynData _ _ =>
    split_ifs at h
    split at h
    · cases h
    · split_ifs at h
      cases h
      exact ⟨synData, hsynData, rfl⟩

theorem Opened.fresh (h : c.Opened) : c.Fresh := by
  rcases h with ⟨config, now, h⟩ | ⟨config, syn, now, h⟩
  · unfold connect at h
    split_ifs at h
    cases h
    unfold enqueueSyn enqueueHandshake
    rcases (synDatagram _).encode with e | bytes <;>
      exact ⟨rfl, rfl, rfl, fun hstate => by cases hstate⟩
  · obtain ⟨synData, -, rfl⟩ := accept_ok h
    exact fresh_accepted _ _ _

theorem send_cases (c : RdpeudpConnection) (data : Bytes) :
    (c.state = .established ∧
        c.send data = (.ok (), { c with sendBuffer := c.sendBuffer ++ c.split data })) ∨
      ∃ e, c.send data = (.error e, c) := by
  unfold send
  split
  · exact .inr ⟨_, rfl⟩
  · next hstate =>
    dsimp only
    split_ifs
    · exact .inr ⟨_, rfl⟩
    · exact .inl ⟨hstate, rfl⟩
  · exact .inr ⟨_, rfl⟩

theorem run_resize {o : Outbox} (h : o.window.Wf) (sizes : List ℕ) :
    (run Outbox.step o (sizes.map Act.resize)).window.Wf ∧
      (run Outbox.step o (sizes.map Act.resize)).window.pendingEntries =
      o.window.pendingEntries := by
  induction sizes generalizing o with
  | nil => exact ⟨h, rfl⟩
  | cons size sizes ih => exact ih (o := o.step (.resize size)) { h with }

theorem Acknowledges.acts [DecidablePred named] {o o' : Outbox}
    (h : Acknowledges named o o') (hwf : o.window.Wf) :
    ∃ acts : List Act, (∀ a ∈ acts, ∀ chunks, a ≠ .accept chunks) ∧
      o' = run Outbox.step o acts ∧ (o.ackedAlong acts).Perm
        ((o.window.pendingEntries.filter fun e => named e.dataSeq).map
          SendEntry.channelSeq) := by
  obtain ⟨resized, acked, lost, retired, hrun, hacked⟩ := h
  refine ⟨_, fun a ha => ?_, hrun, ?_⟩
  · simp only [mem_append, mem_map] at ha
    rcases ha with ⟨_, _, rfl⟩ | ⟨_, _, rfl⟩ | ⟨_, _, rfl⟩ | ⟨_, _, rfl⟩ <;> simp
  · obtain ⟨hsized, hpending⟩ := run_resize hwf resized
    have hnone : ∀ o : Outbox, o.ackedAlong (lost.map Act.lose ++ retired.map Act.retire) = [] :=
      fun o => o.ackedAlong_eq_nil fun a ha d => by
        rw [mem_append, mem_map, mem_map] at ha
        rcases ha with ⟨_, -, rfl⟩ | ⟨_, -, rfl⟩ <;> simp
    have hresized : o.ackedAlong (resized.map Act.resize) = [] :=
      o.ackedAlong_eq_nil fun a ha d => by
        obtain ⟨_, -, rfl⟩ := mem_map.1 ha
        simp
    have hsame : o.window.pendingEntries.filter (fun e => decide (e.dataSeq ∈ acked)) =
        o.window.pendingEntries.filter fun e => decide (named e.dataSeq) :=
      filter_congr fun e he => decide_eq_decide.2 (hacked e he)
    rw [Outbox.ackedAlong_append, Outbox.ackedAlong_append, hnone, hresized, nil_append,
      append_nil, ← hsame, ← hpending]
    exact ackedAlong_acknowledge hsized acked

section kept

theorem kept_start {logWindowSize : ℕ}
    (hwindow : c.outbox.window = .new initialDataSeq initialChannelSeq logWindowSize)
    (hbuffer : c.sendBuffer = []) (hqueue : c.reliability = []) : Kept [] [] 0 c.outbox := by
  show Kept [] [] 0 ⟨c.sendBuffer, c.outbox.window, c.reliability, c.pendingAckOfAcks⟩
  rw [hwindow, hbuffer, hqueue]
  exact ⟨SendWindow.wf_new _ _ _, le_rfl, rfl, rfl, nofun, nofun, .refl _⟩

variable {accepted : List Bytes} {acked : List ℕ} {k : ℕ} (h : Kept accepted acked k c.outbox)
include h

theorem kept_of_acts {acts : List Act}
    (hacts : ∀ a ∈ acts, (∃ d, a = .lose d) ∨ ∃ now, a = .takeNew now ∨ a = .takeLost now) :
    ∃ k', Kept accepted acked k' (run Outbox.step c.outbox acts) := by
  obtain ⟨k', h'⟩ := h.run fun a ha chunks => by
    rcases hacts a ha with ⟨d, rfl⟩ | ⟨now, rfl | rfl⟩ <;> simp
  rw [c.outbox.ackedAlong_eq_nil fun a ha d => by
    rcases hacts a ha with ⟨d, rfl⟩ | ⟨now, rfl | rfl⟩ <;> simp, append_nil] at h'
  exact ⟨k', h'⟩

theorem kept_of_takes {o : Outbox} (htakes : Takes c.outbox o) :
    ∃ k', Kept accepted acked k' o := by
  obtain ⟨acts, hacts, hrun⟩ := htakes
  rw [hrun]
  exact kept_of_acts h fun a ha => .inr (hacts a ha)

theorem kept_handleTimeout (now : ℕ) : ∃ k', Kept accepted acked k'
    (c.handleTimeout now).outbox := by
  obtain ⟨lost, hlost⟩ := (ages_handleTimeout c now).outbox
  rw [hlost]
  refine kept_of_acts h fun a ha => .inl ?_
  obtain ⟨d, -, rfl⟩ := mem_map.1 ha
  exact ⟨d, rfl⟩

theorem kept_handleDatagram [MulF64] (hstaged : c.Staged) (wire : Bytes) (now : ℕ) :
    ∃ k', Kept accepted (acked ++ c.acknowledgedBy wire) k'
    (c.handleDatagram wire now).2.outbox := by
  obtain ⟨acts, hacts, hrun, hacked⟩ := (handleDatagram_acknowledges h.wf hstaged wire now).acts
      h.wf
  obtain ⟨k', h'⟩ := h.run hacts
  rw [← hrun] at h'
  exact ⟨k', h'.perm (hacked.append_left _)⟩

end kept

end RdpeudpConnection

open RdpeudpConnection

/-- A connection, with the chunks its `send` accepted and the channel numbers that were
acknowledged. -/
structure Tracked where
  conn : RdpeudpConnection
  accepted : List Bytes
  acknowledged : List ℕ

inductive Op
  | send (data : Bytes)
  | handleDatagram (wire : Bytes) (now : ℕ)
  | handleTimeout (now : ℕ)
  | pollTransmit (now : ℕ)

namespace Tracked

def step [MulF64] (t : Tracked) : Op → Tracked
  | .send data =>
    match t.conn.send data with
    | (.ok (), c) => { t with conn := c, accepted := t.accepted ++ t.conn.split data }
    | (.error _, c) => { t with conn := c }
  | .handleDatagram wire now =>
    { t with
      conn := (t.conn.handleDatagram wire now).2
      acknowledged := t.acknowledged ++ t.conn.acknowledgedBy wire }
  | .handleTimeout now => { t with conn := t.conn.handleTimeout now }
  | .pollTransmit now => { t with conn := (t.conn.pollTransmit now).2 }

def Inv (t : Tracked) : Prop := t.conn.Staged ∧ ∃ k, Kept t.accepted t.acknowledged k t.conn.outbox

theorem inv_start (h : c.Opened) : Inv ⟨c, [], []⟩ := by
  have hfresh := h.fresh
  exact ⟨⟨fun _ => hfresh.sendWindow, fun hstate => ⟨hfresh.sendWindow, hfresh.params hstate⟩⟩, 0,
    kept_start (outbox_window_none hfresh.sendWindow) hfresh.sendBuffer hfresh.reliability⟩

theorem inv_step [MulF64] {t : Tracked} (h : t.Inv) (op : Op) : (t.step op).Inv := by
  obtain ⟨hstaged, k, hkept⟩ := h
  cases op with
  | send data =>
    rw [step]
    rcases t.conn.send_cases data with ⟨-, hok⟩ | ⟨e, herror⟩
    · rw [hok]
      exact ⟨⟨hstaged.synSent, hstaged.synReceived⟩, k, hkept.accept (t.conn.split data)⟩
    · rw [herror]
      exact ⟨hstaged, k, hkept⟩
  | handleDatagram wire now =>
    exact ⟨handleDatagram_staged hstaged wire now, kept_handleDatagram hkept hstaged wire now⟩
  | handleTimeout now => exact ⟨handleTimeout_staged hstaged now, kept_handleTimeout hkept now⟩
  | pollTransmit now =>
    exact ⟨pollTransmit_staged hstaged now, kept_of_takes hkept (takes_pollTransmit t.conn now)⟩

end Tracked

open Tracked

inductive Place
  | buffer | window | queue | acknowledged
deriving DecidableEq

/-- Chunk `i` is in this place: in the buffer among those not sent yet; from then on under its
channel number, in the window and in the queue with its bytes. -/
def At (t : Tracked) (i : ℕ) : Place → Prop
  | .buffer => ∃ sent data, t.accepted = sent ++ t.conn.sendBuffer ∧ sent.length ≤ i ∧
      t.accepted[i]? = some data
  | .window => ∃ window ∈ t.conn.sendWindow, ∃ e ∈ window.pendingEntries, ∃ data,
      e.channelSeq = chunkSeq i ∧ t.accepted[i]? = some data ∧ (e.dataSeq, data) ∈ window.dataStore
  | .queue => ∃ data, t.accepted[i]? = some data ∧ ⟨chunkSeq i, data⟩ ∈ t.conn.reliability
  | .acknowledged => chunkSeq i ∈ t.acknowledged

section places

variable {t : Tracked} {k : ℕ} (h : Kept t.accepted t.acknowledged k t.conn.outbox) (i : ℕ)
include h

theorem at_buffer_iff (hi : i < t.accepted.length) : At t i .buffer ↔ k ≤ i := by
  have hbuffer : t.conn.sendBuffer = t.accepted.drop k := h.buffer
  constructor
  · rintro ⟨sent, _, heq, hsent, -⟩
    have hlen := congrArg List.length heq
    rw [length_append, hbuffer, length_drop] at hlen
    omega
  · intro hk
    refine ⟨t.accepted.take k, _, ?_, (length_take_le k _).trans hk, getElem?_eq_getElem hi⟩
    rw [hbuffer, take_append_drop]

theorem at_window_iff :
    At t i .window ↔ chunkSeq i ∈ t.conn.outbox.window.pendingEntries.map SendEntry.channelSeq := by
  constructor
  · rintro ⟨window, hwindow, e, he, data, hseq, -, -⟩
    rw [outbox_window hwindow]
    exact mem_map.2 ⟨e, he, hseq⟩
  · intro hmem
    obtain ⟨e, he, hseq⟩ := mem_map.1 hmem
    obtain ⟨j, data, hj, hdata, hstored⟩ := h.stored e he
    obtain rfl : j = i := chunkSeq_strictMono.injective (hj.symm.trans hseq)
    rcases hwindow : t.conn.sendWindow with _ | window
    · rw [pendingEntries_of_none hwindow] at he
      cases he
    · rw [outbox_window hwindow] at he hstored
      exact ⟨window, hwindow, e, he, data, hseq, hdata, hstored⟩

theorem at_queue_iff :
    At t i .queue ↔ chunkSeq i ∈ t.conn.outbox.queue.map RetransmitEntry.channelSeq := by
  constructor
  · rintro ⟨data, -, hmem⟩
    exact mem_map.2 ⟨_, hmem, rfl⟩
  · intro hmem
    obtain ⟨r, hr, hseq⟩ := mem_map.1 hmem
    obtain ⟨j, hj, hdata⟩ := h.queued r hr
    obtain rfl : j = i := chunkSeq_strictMono.injective (hj.symm.trans hseq)
    refine ⟨r.data, hdata, ?_⟩
    rw [← hj]
    exact hr

theorem count_chunkSeq :
    (t.conn.outbox.window.pendingEntries.map SendEntry.channelSeq).count (chunkSeq i) +
        (t.conn.outbox.queue.map RetransmitEntry.channelSeq).count (chunkSeq i) +
        t.acknowledged.count (chunkSeq i) = if i < k then 1 else 0 := by
  have hcount := h.places.count_eq (chunkSeq i)
  rw [count_append, count_append, (nodup_range.map chunkSeq_strictMono.injective).count] at hcount
  rw [Nat.add_assoc, hcount]
  simp [chunkSeq_strictMono.injective.eq_iff]

end places

theorem exactly_one_place_of_inv {t : Tracked} (h : t.Inv) {i : ℕ} (hi : i < t.accepted.length) :
    ∃! place, At t i place := by
  obtain ⟨-, k, hkept⟩ := h
  have hbuffer := at_buffer_iff hkept i hi
  have hwindow := at_window_iff hkept i
  have hqueue := at_queue_iff hkept i
  have hacked : At t i .acknowledged ↔ chunkSeq i ∈ t.acknowledged := Iff.rfl
  have hcount := count_chunkSeq hkept i
  rw [← count_pos_iff] at hwindow hqueue hacked
  have hunique : ∀ place, At t i place → ∀ other, At t i other → other = place := by
    intro place hplace other hother
    cases place <;> cases other <;>
      simp only [hbuffer, hwindow, hqueue, hacked] at hplace hother <;>
      first
        | rfl
        | (split_ifs at hcount <;> omega)
  have hexists : ∃ place, At t i place := by
    by_cases hk : k ≤ i
    · exact ⟨.buffer, hbuffer.2 hk⟩
    · rw [if_pos (not_le.1 hk)] at hcount
      by_cases hw : At t i .window
      · exact ⟨.window, hw⟩
      by_cases hq : At t i .queue
      · exact ⟨.queue, hq⟩
      refine ⟨.acknowledged, hacked.2 ?_⟩
      rw [hwindow] at hw
      rw [hqueue] at hq
      omega
  obtain ⟨place, hplace⟩ := hexists
  exact ⟨place, hplace, fun other hother => hunique place hplace other hother⟩

/-- **No accepted data is lost.** Whatever happens to a connection, each chunk it accepted is in one
of the four places, and in one only. -/
theorem exactly_one_place [MulF64] {c : RdpeudpConnection} (h : c.Opened) (ops : List Op) (i : ℕ)
    (hi : i < (run step ⟨c, [], []⟩ ops).accepted.length) :
    ∃! place, At (run step ⟨c, [], []⟩ ops) i place := by
  have hinv : (run step ⟨c, [], []⟩ ops).Inv :=
    run_inv (I := Tracked.Inv) (fun _ op ht => inv_step ht op) (inv_start h) ops
  exact exactly_one_place_of_inv hinv hi

@[reducible] def roundDown : MulF64 := ⟨fun duration n m => duration * n / m⟩

def clientConfig : ConnectionConfig :=
  ⟨1, 3, 1232, 1232, fromMillis 30000, fromMillis 10000, some (List.replicate 32 0)⟩

def clientOps : List Op :=
  [.handleDatagram [0, 0, 0, 1, 0, 8, 16, 5, 0, 0, 0, 1, 4, 208, 4, 208, 0, 1, 1, 1] 0, .send [7],
    .pollTransmit 0, .pollTransmit 0]

theorem exactly_one_place_client : ∃! place,
    At (run (@step roundDown) ⟨(new .client clientConfig).enqueueSyn 0, [], []⟩ clientOps) 0
      place := @exactly_one_place roundDown _ (.inl ⟨clientConfig, 0, rfl⟩) clientOps 0 (by decide)

end Linrdp.Rdpeudp.Connection
