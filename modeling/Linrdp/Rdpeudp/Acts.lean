import Linrdp.Rdpeudp.Connection
import Linrdp.Rdpeudp.Sender

/-!
# What the connection does to its outbox

Every operation of the connection is a list of acts on its outbox, one lemma for each. A datagram's
acknowledgement acts on the packets it names (`names`) and on no other; loss detection, timers and
transmission lose and take, and never acknowledge.
-/

namespace Linrdp.Rdpeudp.Connection

open List Lib.Runs Rdpeudp.Pdu Rdpeudp.Handshake Rdpeudp.Seq
open Rdpeudp.Timing Rdpeudp.Sending Rdpeudp.Receiving Rdpeudp.Sender Outbox Option SendWindow

namespace RdpeudpConnection

def ackNames (window : SendWindow) (ack : AckPayload) (dataSeq : ℕ) : Prop :=
  reconstructSeq ack.seqNum (window.nextDataSeq - 1) < window.nextDataSeq ∧
    dataSeq ≤ reconstructSeq ack.seqNum (window.nextDataSeq - 1)

def vectorNames (window : SendWindow) (vector : AckVectorPayload) (dataSeq : ℕ) : Prop :=
  reconstructSeq vector.baseSeqNum (window.nextDataSeq - 1) ≤ dataSeq ∧
    (vectorStates vector)[dataSeq - reconstructSeq vector.baseSeqNum (window.nextDataSeq - 1)]? =
      some true

def names (window : SendWindow) (packet : V2Packet) (dataSeq : ℕ) : Prop :=
  (∃ ack ∈ packet.ack, ackNames window ack dataSeq) ∨
    ∃ vector ∈ packet.ackVector, vectorNames window vector dataSeq

instance (window : SendWindow) (ack : AckPayload) : DecidablePred (ackNames window ack) :=
  fun _ => inferInstanceAs (Decidable (_ ∧ _))

instance (window : SendWindow) (vector : AckVectorPayload) :
    DecidablePred (vectorNames window vector) := fun _ => inferInstanceAs (Decidable (_ ∧ _))

instance (window : SendWindow) (packet : V2Packet) : DecidablePred (names window packet) :=
  fun _ => inferInstanceAs (Decidable (_ ∨ _))

structure Link where
  side : Side
  state : State
  config : ConnectionConfig
  params : Option NegotiatedParams
  pendingTransmits : List Bytes
  handshakeDatagram : Option Bytes

structure Inbox where
  window : Option RecvWindow
  events : List Event

structure View where
  link : Link
  inbox : Inbox
  outbox : Outbox

def view (c : RdpeudpConnection) : View where
  link := ⟨c.side, c.state, c.config, c.params, c.pendingTransmits, c.handshakeDatagram⟩
  inbox := ⟨c.recvWindow, c.pendingEvents⟩
  outbox := ⟨c.sendBuffer, c.sendWindow.getD (.new initialDataSeq initialChannelSeq 0),
    c.reliability, c.pendingAckOfAcks⟩

abbrev link (c : RdpeudpConnection) : Link := c.view.link

abbrev inbox (c : RdpeudpConnection) : Inbox := c.view.inbox

abbrev outbox (c : RdpeudpConnection) : Outbox := c.view.outbox

variable {c : RdpeudpConnection} {window : SendWindow}

theorem outbox_window (h : c.sendWindow = some window) : c.outbox.window = window := by
  rw [outbox, view, h, getD_some]

theorem outbox_window_none (h : c.sendWindow = none) :
    c.outbox.window = .new initialDataSeq initialChannelSeq 0 := by rw [outbox, view, h, getD_none]

theorem pendingEntries_of_none (h : c.sendWindow = none) : c.outbox.window.pendingEntries = [] := by
  rw [outbox_window_none h]
  rfl

def Loses (c c' : RdpeudpConnection) : Prop :=
  ∃ lost : List ℕ, c'.view =
    { c.view with outbox := run step c.outbox (lost.map Act.lose) }

def Acknowledges (named : ℕ → Prop) (o o' : Outbox) : Prop :=
  ∃ resized acked lost retired : List ℕ,
    o' = run step o (resized.map Act.resize ++
      (acked.map Act.acknowledge ++ (lost.map Act.lose ++ retired.map Act.retire))) ∧
      ∀ e ∈ o.window.pendingEntries, e.dataSeq ∈ acked ↔ named e.dataSeq

def Takes (o o' : Outbox) : Prop :=
  ∃ acts : List Act, (∀ a ∈ acts, ∃ now, a = .takeNew now ∨ a = .takeLost now) ∧
    o' = run step o acts

abbrev sending (c : RdpeudpConnection) : Link × Outbox × RttEstimator := (c.link, c.outbox, c.rtt)

abbrev receiving (c : RdpeudpConnection) : Link × Inbox := (c.link, c.inbox)

section frames

variable (c : RdpeudpConnection)

variable (now : ℕ)

@[simp] theorem view_updateRetransmitTimer : (c.updateRetransmitTimer now).view = c.view := by
  unfold updateRetransmitTimer
  rcases c.sendWindow with _ | window
  · rfl
  · dsimp only
    split_ifs <;> rfl

@[simp] theorem view_sampleRtt [MulF64] (elapsed : Option ℕ) (gapMs : Option UInt8) :
    (c.sampleRtt elapsed gapMs).view = c.view := by
  unfold sampleRtt
  split
  · split_ifs <;> rfl
  · rfl

@[simp] theorem view_sampleHandshakeRtt [MulF64] : (c.sampleHandshakeRtt now).view = c.view := by
  unfold sampleHandshakeRtt
  split_ifs
  · rfl
  · split <;> rfl

@[simp] theorem view_scheduleAck : (c.scheduleAck now).view = c.view := by
  unfold scheduleAck
  dsimp only
  split_ifs <;> rfl

@[simp] theorem outbox_close : c.close.outbox = c.outbox := by
  unfold close
  split_ifs <;> rfl

theorem sending_scheduleAck : (c.scheduleAck now).sending = c.sending := by
  unfold scheduleAck
  dsimp only
  split_ifs <;> rfl

theorem sending_processAckOfAcks (aoa : AckOfAcksPayload) :
    (c.processAckOfAcks aoa).sending = c.sending := by
  unfold processAckOfAcks
  split <;> rfl

theorem sending_processDummyData (header : DataHeader) :
    (c.processDummyData header now).sending = c.sending := by
  unfold processDummyData
  split
  · rfl
  · split
    · rfl
    · exact sending_scheduleAck _ now

theorem sending_processData (header : DataHeader) (body : DataBody) :
    (c.processData header body now).sending = c.sending := by
  unfold processData
  split
  · rfl
  · dsimp only
    split
    · rfl
    · exact sending_scheduleAck _ now

theorem sending_buildDataPacket (dataSeq channelSeq : ℕ) (data : Bytes) :
    (c.buildDataPacket dataSeq channelSeq data now).2.sending = c.sending := by
  unfold buildDataPacket
  split
  · rfl
  · dsimp only
    split
    · rfl
    · split_ifs <;> rfl

theorem sending_trySendAck : (c.trySendAck now).2.sending = c.sending := by
  have hbuild : (c.buildStandaloneAck now).2.sending = c.sending := by
    unfold buildStandaloneAck
    split
    · split <;> rfl
    · rfl
  unfold trySendAck
  split_ifs
  · rfl
  · split
    all_goals next heq => rw [heq] at hbuild; exact hbuild

end frames

/-! ### Losses -/

variable {c' : RdpeudpConnection}

theorem Loses.of_view (h : c'.view = c.view) : Loses c c' := ⟨[], h⟩

theorem Loses.refl (c : RdpeudpConnection) : Loses c c := .of_view rfl

variable {c'' : RdpeudpConnection}

theorem Loses.trans (h : Loses c c') (h' : Loses c' c'') : Loses c c'' := by
  obtain ⟨lost, hlost⟩ := h
  obtain ⟨lost', hlost'⟩ := h'
  refine ⟨lost ++ lost', ?_⟩
  rw [hlost', outbox, hlost, map_append, run_append]

section

variable (c : RdpeudpConnection)

theorem loses_declareLost (d : ℕ) : Loses c (c.declareLost d) := by
  refine ⟨[d], ?_⟩
  rw [map_cons, map_nil, run_cons, run_nil]
  unfold declareLost
  rcases hwindow : c.sendWindow with _ | window
  · rw [step, outbox_window_none hwindow]
    rfl
  · rw [step, outbox_window hwindow]
    dsimp only
    rcases window.markLost d with ⟨_ | info, lostWindow⟩
    · rfl
    · rfl

theorem loses_foldl (ds : List ℕ) : Loses c (ds.foldl declareLost c) := by
  induction ds generalizing c with
  | nil => exact .refl c
  | cons d ds ih => exact (loses_declareLost c d).trans (ih _)

theorem loses_runLossDetection (now : ℕ) : Loses c (c.runLossDetection now) := by
  unfold runLossDetection
  split
  · exact .refl c
  · exact loses_foldl c _

theorem loses_declareOverdueLost (now : ℕ) : Loses c (c.declareOverdueLost now) := by
  unfold declareOverdueLost
  split_ifs
  · unfold declareOldestPendingLost
    split
    · exact .refl c
    · split
      · exact .refl c
      · exact loses_declareLost c _
  · exact loses_foldl c _

theorem view_retireAckOfAcks (reported : ℕ) :
    (c.retireAckOfAcks reported).view =
      { c.view with outbox := c.outbox.step (.retire reported) } := by
  have hstep : c.outbox.step (.retire reported) =
      if c.pendingAckOfAcks.any fun advertised => reported > advertised then
        { c.outbox with announced := none }
      else c.outbox := rfl
  unfold retireAckOfAcks
  rw [hstep]
  split_ifs
  · rfl
  · rfl

end

/-! ### Acknowledgements -/

theorem view_onAcknowledged (c : RdpeudpConnection) (bytes reported now : ℕ) :
    ∃ lost : List ℕ, (c.onAcknowledged bytes reported now).view = { c.view with
      outbox := run step c.outbox (lost.map Act.lose ++ [Act.retire reported]) } := by
  unfold onAcknowledged
  dsimp only
  -- the congestion window before and the timer after the losses are not in view
  generalize hbefore :
    (if bytes > 0 then { c with congestion := c.congestion.onAck bytes } else c) =
    before
  have hview : before.view = c.view := by
    subst hbefore
    split_ifs <;> rfl
  generalize hafter : (if bytes > 0 then { (before.runLossDetection now).clearTimer .retransmit with
      rtt := (before.runLossDetection now).rtt.resetBackoff }
    else before.runLossDetection now) = after
  have hview' : after.view = (before.runLossDetection now).view := by
    subst hafter
    split_ifs <;> rfl
  obtain ⟨lost, hlost⟩ : Loses c after :=
    ((Loses.of_view hview).trans (loses_runLossDetection before now)).trans (.of_view hview')
  refine ⟨lost, ?_⟩
  rw [view_retireAckOfAcks, outbox, view_updateRetransmitTimer, hlost, run_append, run_cons,
    run_nil]

theorem run_acknowledge (o : Outbox) (ds : List ℕ) :
    run step o (ds.map Act.acknowledge) =
      { o with window := ds.foldl (fun w d => (w.markReceived d).2) o.window } := by
  induction ds generalizing o with
  | nil => rfl
  | cons d ds ih => rw [map_cons, run_cons, ih, foldl_cons]; rfl

variable {named : ℕ → Prop}

theorem acknowledges_of_window (hwindow : c.sendWindow = some window) (acked : List ℕ)
    (hc' : c'.outbox = ⟨c.outbox.buffer, acked.foldl (fun w d => (w.markReceived d).2) window,
      c.outbox.queue, c.outbox.announced⟩)
    (hacked : ∀ e ∈ window.pendingEntries, e.dataSeq ∈ acked ↔ named e.dataSeq)
    (bytes reported now : ℕ) :
    Acknowledges named c.outbox (c'.onAcknowledged bytes reported now).outbox := by
  have hout := outbox_window hwindow
  obtain ⟨lost, hlost⟩ := view_onAcknowledged c' bytes reported now
  refine ⟨[], acked, lost, [reported], ?_, by rw [hout]; exact hacked⟩
  rw [outbox, hlost, hc', map_nil, nil_append, run_append _ c.outbox, run_acknowledge, hout]
  rfl

variable {o o' : Outbox}

theorem acknowledges_none (h : o' = o) (hnone : ∀ e ∈ o.window.pendingEntries, ¬ named e.dataSeq) :
    Acknowledges named o o' :=
  ⟨[], [], [], [], h, fun e he => by simpa using hnone e he⟩

theorem processAck_acknowledges [MulF64] (h : c.outbox.window.Wf) (ack : AckPayload) (now : ℕ) :
    Acknowledges (ackNames c.outbox.window ack) c.outbox (c.processAck ack now).outbox := by
  unfold processAck
  rcases hwindow : c.sendWindow with _ | window
  · exact acknowledges_none rfl (by simp [pendingEntries_of_none hwindow])
  rw [outbox_window hwindow] at h ⊢
  dsimp only
  split_ifs with hunassigned
  · refine acknowledges_none (by simp only [outbox, view, hwindow]) fun e _ hnamed => ?_
    exact absurd hnamed.1 (not_lt.2 hunassigned)
  · obtain ⟨acked, hmarked, hacked⟩ := markReceivedThrough_spec h
      (reconstructSeq ack.seqNum (window.nextDataSeq - 1))
    refine acknowledges_of_window hwindow acked ?_ (fun e he => ?_) _ _ now
    · rw [outbox, view_sampleRtt, hmarked]
      rfl
    · rw [hacked e he, ackNames]
      exact ⟨fun hle => ⟨not_le.1 hunassigned, hle⟩, fun hnamed => hnamed.2⟩

theorem walk_spec (now : ℕ) (states : List Bool) (walk : Walk) :
    ∃ acked : List ℕ, (states.foldl (Walk.step now) walk).window =
        acked.foldl (fun w d => (w.markReceived d).2) walk.window ∧
      ∀ d, d ∈ acked ↔ walk.currentSeq ≤ d ∧ states[d - walk.currentSeq]? = some true := by
  induction states generalizing walk with
  | nil => exact ⟨[], rfl, by simp⟩
  | cons received states ih =>
    obtain ⟨acked, hwindow, hacked⟩ := ih (walk.step now received)
    have hseq : (walk.step now received).currentSeq = walk.currentSeq + 1 := by
      unfold Walk.step
      split_ifs <;> rfl
    rw [hseq] at hacked
    have hlater : ∀ d, d ≠ walk.currentSeq → (d ∈ acked ↔ walk.currentSeq ≤ d ∧
        (received :: states)[d - walk.currentSeq]? = some true) := by
      intro d hd
      rw [hacked]
      constructor
      · rintro ⟨hle, hstate⟩
        refine ⟨by omega, ?_⟩
        rw [show d - walk.currentSeq = d - (walk.currentSeq + 1) + 1 by omega]
        exact hstate
      · rintro ⟨hle, hstate⟩
        rw [show d - walk.currentSeq = d - (walk.currentSeq + 1) + 1 by omega] at hstate
        exact ⟨by omega, hstate⟩
    cases received with
    | true =>
      refine ⟨walk.currentSeq :: acked, hwindow, fun d => ?_⟩
      by_cases hd : d = walk.currentSeq
      · simp [hd]
      · rw [mem_cons, hlater d hd]
        simp [hd]
    | false =>
      refine ⟨acked, hwindow, fun d => ?_⟩
      by_cases hd : d = walk.currentSeq
      · rw [hacked, hd]
        simp
      · exact hlater d hd

theorem processAckVector_acknowledges [MulF64] (c : RdpeudpConnection) (vector : AckVectorPayload)
    (now : ℕ) : Acknowledges (vectorNames c.outbox.window vector) c.outbox
      (c.processAckVector vector now).outbox := by
  unfold processAckVector
  rcases hwindow : c.sendWindow with _ | window
  · exact acknowledges_none rfl (by simp [pendingEntries_of_none hwindow])
  rw [outbox_window hwindow]
  obtain ⟨acked, hwalk, hacked⟩ := walk_spec now (vectorStates vector)
    ⟨window, reconstructSeq vector.baseSeqNum (window.nextDataSeq - 1), 0, none⟩
  refine acknowledges_of_window hwindow acked ?_ (fun e he => hacked e.dataSeq) _ _ now
  rw [outbox, view_sampleRtt, hwalk]
  rfl

section

variable (c : RdpeudpConnection)

theorem receiving_onAcknowledged (bytes reported now : ℕ) :
    (c.onAcknowledged bytes reported now).receiving = c.receiving := by
  obtain ⟨lost, hlost⟩ := view_onAcknowledged c bytes reported now
  rw [receiving, link, inbox, hlost]

theorem receiving_processAck [MulF64] (ack : AckPayload) (now : ℕ) :
    (c.processAck ack now).receiving = c.receiving := by
  unfold processAck
  split
  · rfl
  · dsimp only
    split_ifs
    · rfl
    · rw [receiving_onAcknowledged, receiving, link, inbox, view_sampleRtt]
      rfl

theorem receiving_processAckVector [MulF64] (vector : AckVectorPayload) (now : ℕ) :
    (c.processAckVector vector now).receiving = c.receiving := by
  unfold processAckVector
  split
  · rfl
  · rw [receiving_onAcknowledged, receiving, link, inbox, view_sampleRtt]
    rfl

end

theorem Acknowledges.resize {maxEntries : ℕ}
    (h : Acknowledges named (o.step (.resize maxEntries)) o') : Acknowledges named o o' := by
  obtain ⟨resized, acked, lost, retired, hrun, hacked⟩ := h
  exact ⟨maxEntries :: resized, acked, lost, retired, hrun, hacked⟩

theorem Acknowledges.congr {named' : ℕ → Prop} (h : Acknowledges named o o')
    (hnamed : ∀ d, named d ↔ named' d) : Acknowledges named' o o' := by
  rwa [← funext fun d => propext (hnamed d)]

def setPeerWindow (c : RdpeudpConnection) (logWindowSize : ℕ) : RdpeudpConnection :=
  { c with sendWindow := c.sendWindow.map fun window => window.setPeerWindow logWindowSize }

theorem outbox_setPeerWindow (c : RdpeudpConnection) (logWindowSize : ℕ) :
    (c.setPeerWindow logWindowSize).outbox = c.outbox ∨
      (c.setPeerWindow logWindowSize).outbox =
        c.outbox.step (.resize (2 ^ min logWindowSize 15)) := by
  rcases hwindow : c.sendWindow with _ | window
  · left
    simp only [outbox, view, setPeerWindow, hwindow, map_none]
  · right
    simp only [outbox, view, setPeerWindow, hwindow, map_some, getD_some]
    rfl

/-- The first half of `process_packet`: the peer's window and the acknowledgement. -/
def processAcks [MulF64] (c : RdpeudpConnection) (packet : V2Packet) (now : ℕ) :
    RdpeudpConnection :=
  let c := c.setPeerWindow packet.header.logWindowSize
  let c := packet.ack.elim c fun ack => c.processAck ack now
  packet.ackVector.elim c fun vector => c.processAckVector vector now

def processSections (c : RdpeudpConnection) (byte : PacketPrefixByte) (packet : V2Packet)
    (now : ℕ) : RdpeudpConnection :=
  let c := packet.ackOfAcks.elim c fun aoa => c.processAckOfAcks aoa
  match packet.dataHeader, packet.dataBody with
  | some header, some body =>
    if byte.isDummy then c.processDummyData header now else c.processData header body now
  | _, _ => c

theorem processPacket_eq [MulF64] (c : RdpeudpConnection) (byte : PacketPrefixByte)
    (packet : V2Packet) (now : ℕ) :
    c.processPacket byte packet now = (c.processAcks packet now).processSections byte packet now :=
    rfl

theorem receiving_processAcks [MulF64] (c : RdpeudpConnection) (packet : V2Packet) (now : ℕ) :
    (c.processAcks packet now).receiving = c.receiving := by
  unfold processAcks
  rcases packet.ack with _ | ack <;> rcases packet.ackVector with _ | vector
  · rfl
  · exact receiving_processAckVector _ vector now
  · exact receiving_processAck _ ack now
  · exact (receiving_processAckVector _ vector now).trans (receiving_processAck _ ack now)

theorem sending_processSections (c : RdpeudpConnection) (byte : PacketPrefixByte)
    (packet : V2Packet) (now : ℕ) : (c.processSections byte packet now).sending = c.sending := by
  unfold processSections
  have haoa : (packet.ackOfAcks.elim c fun aoa => c.processAckOfAcks aoa).sending = c.sending := by
    rcases packet.ackOfAcks with _ | aoa
    · rfl
    · exact c.sending_processAckOfAcks aoa
  split
  · split_ifs
    · exact (sending_processDummyData ..).trans haoa
    · exact (sending_processData ..).trans haoa
  · exact haoa

theorem link_processPacket [MulF64] (c : RdpeudpConnection) (byte : PacketPrefixByte)
    (packet : V2Packet) (now : ℕ) : (c.processPacket byte packet now).link = c.link := by
  rw [processPacket_eq]
  exact (congrArg Prod.fst (sending_processSections _ byte packet now)).trans
    (congrArg Prod.fst (receiving_processAcks c packet now))

theorem processAcks_acknowledges [MulF64] (h : c.outbox.window.Wf)
    {packet : V2Packet} (hone : packet.ack = none ∨ packet.ackVector = none) (now : ℕ) :
    Acknowledges (names c.outbox.window packet) c.outbox (c.processAcks packet now).outbox := by
  unfold processAcks
  have hout := outbox_setPeerWindow c packet.header.logWindowSize
  generalize c.setPeerWindow packet.header.logWindowSize = c₁ at hout ⊢
  -- the size of the window has no part in what is named
  have hwf : c₁.outbox.window.Wf ∧ names c₁.outbox.window = names c.outbox.window := by
    rcases hout with hout | hout <;> rw [hout]
    · exact ⟨h, rfl⟩
    · exact ⟨{ h with }, rfl⟩
  suffices hacks : Acknowledges (names c₁.outbox.window packet) c₁.outbox (packet.ackVector.elim
      (packet.ack.elim c₁ fun ack => c₁.processAck ack now) fun vector =>
        (packet.ack.elim c₁ fun ack => c₁.processAck ack now).processAckVector vector
          now).outbox by
    rw [hwf.2] at hacks
    rcases hout with hout | hout <;> rw [hout] at hacks
    · exact hacks
    · exact hacks.resize
  rcases hack : packet.ack with _ | ack
  · rcases hvector : packet.ackVector with _ | vector
    · exact acknowledges_none rfl fun e _ => by simp [names, hack, hvector]
    · refine (processAckVector_acknowledges c₁ vector now).congr fun d => ?_
      simp [names, hack, hvector]
  · have hvector : packet.ackVector = none := hone.resolve_left (by simp [hack])
    rw [hvector]
    refine (processAck_acknowledges hwf.1 ack now).congr fun d => ?_
    simp [names, hack, hvector]

theorem processPacket_acknowledges [MulF64] (h : c.outbox.window.Wf) (byte : PacketPrefixByte)
    {packet : V2Packet} (hone : packet.ack = none ∨ packet.ackVector = none) (now : ℕ) :
    Acknowledges (names c.outbox.window packet) c.outbox
      (c.processPacket byte packet now).outbox := by
  have hsame := sending_processSections (c.processAcks packet now) byte packet now
  rw [processPacket_eq, show outbox _ = _ from congrArg (·.2.1) hsame]
  exact processAcks_acknowledges h hone now

/-! ### Transmitting -/

theorem Takes.refl (o : Outbox) : Takes o o := ⟨[], by simp, rfl⟩

theorem Takes.trans {o'' : Outbox} (h : Takes o o') (h' : Takes o' o'') : Takes o o'' := by
  obtain ⟨acts, hacts, hrun⟩ := h
  obtain ⟨acts', hacts', hrun'⟩ := h'
  exact ⟨acts ++ acts', forall_mem_append.2 ⟨hacts, hacts'⟩, by rw [hrun', hrun, run_append]⟩

def Tries (c c' : RdpeudpConnection) : Prop :=
  c'.link = c.link ∧ Takes c.outbox c'.outbox ∧ c'.rtt = c.rtt

theorem Tries.of_sending (h : c'.sending = c.sending) : Tries c c' := by
  simp only [Prod.mk.injEq] at h
  exact ⟨h.1, h.2.1 ▸ .refl _, h.2.2⟩

theorem Tries.trans (h : Tries c c') (h' : Tries c' c'') : Tries c c'' :=
  ⟨h'.1.trans h.1, h.2.1.trans h'.2.1, h'.2.2.trans h.2.2⟩

theorem hasCapacity_of_mayTransmit
    (h : c.mayTransmit window = true) : window.hasCapacity = true := by
  rw [mayTransmit, Bool.and_eq_true] at h
  exact h.2

def resending (c : RdpeudpConnection) (window : SendWindow) (entry : RetransmitEntry)
    (queue : List RetransmitEntry) (now : ℕ) : RdpeudpConnection :=
  { c with
    reliability := queue
    sendWindow := some (window.record entry.channelSeq entry.data now 2) }

def sendingNew (c : RdpeudpConnection) (window : SendWindow) (data : Bytes) (buffer : List Bytes)
    (now : ℕ) : RdpeudpConnection :=
  { c with
    sendBuffer := buffer
    sendWindow := some { window.record window.nextChannelSeq data now 1 with
      nextChannelSeq := Seq.nextChannelSeq window.nextChannelSeq } }

def Builds (c : RdpeudpConnection) (dataSeq channelSeq : ℕ) (data : Bytes) (now : ℕ)
    (sent : Option Bytes × RdpeudpConnection) : Prop :=
  ∃ timers, sent = ((c.buildDataPacket dataSeq channelSeq data now).1,
    { (c.buildDataPacket dataSeq channelSeq data now).2 with timers := timers })

theorem Builds.sending_eq {dataSeq channelSeq now : ℕ} {data : Bytes}
    {sent : Option Bytes × RdpeudpConnection} (h : Builds c dataSeq channelSeq data now sent) :
    sent.2.sending = c.sending := by
  obtain ⟨timers, rfl⟩ := h
  exact c.sending_buildDataPacket now dataSeq channelSeq data

section room

variable (hwindow : c.sendWindow = some window) (hmay : c.mayTransmit window = true)

include hwindow hmay

theorem tryRetransmit_builds {entry : RetransmitEntry} {queue : List RetransmitEntry}
    (hqueue : c.reliability = entry :: queue) (now : ℕ) :
    Builds (c.resending window entry queue now) window.nextDataSeq entry.channelSeq entry.data now
      (c.tryRetransmit now) := by
  unfold Builds resending
  rw [tryRetransmit, hqueue, hwindow]
  dsimp only
  rw [if_neg (by simp [hmay]), pushRetransmit,
    if_neg (by simp [hasCapacity_of_mayTransmit hmay])]
  dsimp only
  rcases buildDataPacket _ _ _ _ now with ⟨_ | wire, c'⟩
  · exact ⟨c'.timers, rfl⟩
  · exact ⟨_, rfl⟩

theorem trySendNewData_builds {data : Bytes} {buffer : List Bytes}
    (hbuffer : c.sendBuffer = data :: buffer) (now : ℕ) :
    Builds (c.sendingNew window data buffer now) window.nextDataSeq window.nextChannelSeq data now
      (c.trySendNewData now) := by
  unfold Builds sendingNew
  rw [trySendNewData, hbuffer, hwindow]
  dsimp only
  rw [if_neg (by simp [hmay]), push, if_neg (by simp [hasCapacity_of_mayTransmit hmay])]
  dsimp only
  rcases buildDataPacket _ _ _ _ now with ⟨_ | wire, c'⟩
  · exact ⟨c'.timers, rfl⟩
  · dsimp only
    split_ifs
    · exact ⟨c'.timers, rfl⟩
    · exact ⟨_, rfl⟩

end room

section

variable (c : RdpeudpConnection) (now : ℕ)

theorem tryRetransmit_cases :
    c.tryRetransmit now = (none, c) ∨ ∃ entry queue window,
      c.reliability = entry :: queue ∧ c.sendWindow = some window ∧ c.mayTransmit window = true ∧
      Builds (c.resending window entry queue now) window.nextDataSeq entry.channelSeq entry.data now
        (c.tryRetransmit now) := by
  rcases hqueue : c.reliability with _ | ⟨entry, queue⟩
  · exact .inl (by rw [tryRetransmit, hqueue])
  rcases hwindow : c.sendWindow with _ | window
  · exact .inl (by rw [tryRetransmit, hqueue, hwindow])
  by_cases hmay : c.mayTransmit window = true
  · exact .inr ⟨entry, queue, window, rfl, rfl, hmay, tryRetransmit_builds hwindow hmay hqueue now⟩
  · exact .inl (by rw [tryRetransmit, hqueue, hwindow]; exact if_pos (by simpa using hmay))

theorem trySendNewData_cases :
    c.trySendNewData now = (none, c) ∨ ∃ data buffer window,
      c.sendBuffer = data :: buffer ∧ c.sendWindow = some window ∧ c.mayTransmit window = true ∧
      Builds (c.sendingNew window data buffer now) window.nextDataSeq window.nextChannelSeq data now
        (c.trySendNewData now) := by
  rcases hbuffer : c.sendBuffer with _ | ⟨data, buffer⟩
  · exact .inl (by rw [trySendNewData, hbuffer])
  rcases hwindow : c.sendWindow with _ | window
  · exact .inl (by rw [trySendNewData, hbuffer, hwindow])
  by_cases hmay : c.mayTransmit window = true
  · exact .inr ⟨data, buffer, window, rfl, rfl, hmay,
      trySendNewData_builds hwindow hmay hbuffer now⟩
  · exact .inl (by rw [trySendNewData, hbuffer, hwindow]; exact if_pos (by simpa using hmay))

theorem tries_tryRetransmit : Tries c (c.tryRetransmit now).2 := by
  rcases c.tryRetransmit_cases now with hnone | ⟨entry, queue, window, hqueue, hwindow, hmay,
    hbuilds⟩
  · exact .of_sending (by rw [hnone])
  obtain ⟨hlink, hout, hrtt⟩ := by simpa only [Prod.mk.injEq] using hbuilds.sending_eq
  refine ⟨hlink, ⟨[.takeLost now], by simp, hout.trans ?_⟩, hrtt⟩
  simp only [run_cons, run_nil, step, outbox, view, hqueue, hwindow, getD_some,
    pushRetransmit, hasCapacity_of_mayTransmit hmay]
  rfl

theorem tries_trySendNewData : Tries c (c.trySendNewData now).2 := by
  rcases c.trySendNewData_cases now with hnone | ⟨data, buffer, window, hbuffer, hwindow, hmay,
    hbuilds⟩
  · exact .of_sending (by rw [hnone])
  obtain ⟨hlink, hout, hrtt⟩ := by simpa only [Prod.mk.injEq] using hbuilds.sending_eq
  refine ⟨hlink, ⟨[.takeNew now], by simp, hout.trans ?_⟩, hrtt⟩
  simp only [run_cons, run_nil, step, outbox, view, hbuffer, hwindow, getD_some,
    push, hasCapacity_of_mayTransmit hmay]
  rfl

theorem tries_trySendAck : Tries c (c.trySendAck now).2 :=
  .of_sending (c.sending_trySendAck now)

/-- **What a transmission is**: nothing, a datagram of the handshake, a retransmission, new data or
an acknowledgement. The last three are tried in this order. -/
theorem pollTransmit_cases :
    c.pollTransmit now = (none, c) ∨
      (∃ transmit rest, c.pendingTransmits = transmit :: rest ∧ c.pollTransmit now =
        (some transmit, { c with pendingTransmits := rest }.armKeepAlive now)) ∨
      (c.state = .established ∧ ∃ c₁ c₂ wire c₃ timers, c.tryRetransmit now = (none, c₁) ∧
        c₁.trySendNewData now = (none, c₂) ∧ c₂.trySendAck now = (wire, c₃) ∧
        c.pollTransmit now = (wire, { c₃ with timers := timers })) ∨
      (c.state = .established ∧ ∃ wire c₁, c.tryRetransmit now = (some wire, c₁) ∧
        c.pollTransmit now = (some wire, c₁.armKeepAlive now)) ∨
      (c.state = .established ∧ ∃ c₁ wire c₂, c.tryRetransmit now = (none, c₁) ∧
        c₁.trySendNewData now = (some wire, c₂) ∧
        c.pollTransmit now = (some wire, c₂.armKeepAlive now)) := by
  unfold pollTransmit
  rcases hpending : c.pendingTransmits with _ | ⟨transmit, rest⟩
  · split_ifs with hclosed hstate
    · exact .inl rfl
    · exact .inl rfl
    have hestablished := not_not.1 hstate
    rcases hresent : c.tryRetransmit now with ⟨_ | wire, c₁⟩
    · dsimp only
      rcases hsent : c₁.trySendNewData now with ⟨_ | wire, c₂⟩
      · refine .inr (.inr (.inl ⟨hestablished, c₁, c₂, ?_⟩))
        dsimp only
        rcases hacked : c₂.trySendAck now with ⟨_ | wire, c₃⟩
        · exact ⟨none, c₃, c₃.timers, rfl, hsent, rfl, rfl⟩
        · exact ⟨some wire, c₃, _, rfl, hsent, rfl, rfl⟩
      · exact .inr (.inr (.inr (.inr ⟨hestablished, c₁, wire, c₂, rfl, hsent, rfl⟩)))
    · exact .inr (.inr (.inr (.inl ⟨hestablished, wire, c₁, rfl, rfl⟩)))
  · dsimp only
    split_ifs with hclosed
    · exact .inl rfl
    · exact .inr (.inl ⟨transmit, rest, rfl, rfl⟩)

theorem pollTransmit_tries :
    (∃ transmit rest, c.pendingTransmits = transmit :: rest ∧ c.pollTransmit now =
        (some transmit, { c with pendingTransmits := rest }.armKeepAlive now)) ∨
      (c.pollTransmit now).2 = c ∨ (c.state = .established ∧ Tries c (c.pollTransmit now).2) := by
  have hresend := c.tries_tryRetransmit now
  rcases c.pollTransmit_cases now with hnone | hstaged |
    ⟨hstate, c₁, c₂, wire, c₃, timers, hresent, hsent, hacked, heq⟩ |
    ⟨hstate, wire, c₁, hresent, heq⟩ | ⟨hstate, c₁, wire, c₂, hresent, hsent, heq⟩
  · exact .inr (.inl (by rw [hnone]))
  · exact .inl hstaged
  · have hnew := c₁.tries_trySendNewData now
    have hack := c₂.tries_trySendAck now
    rw [hresent] at hresend
    rw [hsent] at hnew
    rw [hacked] at hack
    rw [heq]
    exact .inr (.inr ⟨hstate, (hresend.trans hnew).trans hack⟩)
  · rw [hresent] at hresend
    rw [heq]
    exact .inr (.inr ⟨hstate, hresend⟩)
  · have hnew := c₁.tries_trySendNewData now
    rw [hresent] at hresend
    rw [hsent] at hnew
    rw [heq]
    exact .inr (.inr ⟨hstate, hresend.trans hnew⟩)

theorem takes_pollTransmit : Takes c.outbox (c.pollTransmit now).2.outbox := by
  rcases c.pollTransmit_tries now with ⟨transmit, rest, -, heq⟩ | hsame | ⟨-, htries⟩
  · rw [heq]
    exact .refl c.outbox
  · rw [hsame]
    exact .refl c.outbox
  · exact htries.2.1

end

/-! ### Timeouts -/

structure Ages (c c' : RdpeudpConnection) : Prop where
  side : c'.side = c.side
  config : c'.config = c.config
  params : c'.params = c.params
  state : c'.state = c.state ∨ c'.state = .closed
  recvWindow : c'.recvWindow = c.recvWindow
  handshakeDatagram : c'.handshakeDatagram = c.handshakeDatagram
  outbox : ∃ lost : List ℕ, c'.outbox = run step c.outbox (lost.map Act.lose)
  sendWindow : c.state ≠ .established → c'.sendWindow = c.sendWindow
  events : ∃ closed, c'.pendingEvents = c.pendingEvents ++ closed ∧ ∀ e ∈ closed,
    e = .connectionClosed
  transmits : ∃ again, c'.pendingTransmits = c.pendingTransmits ++ again ∧
    ∀ wire ∈ again, c.handshakeDatagram = some wire

theorem Ages.of_loses (h : Loses c c') (hwindow : c.state ≠ .established →
    c'.sendWindow = c.sendWindow) : Ages c c' := by
  obtain ⟨lost, h⟩ := h
  exact
    { side := congrArg (fun v : View => v.link.side) h
      config := congrArg (fun v : View => v.link.config) h
      params := congrArg (fun v : View => v.link.params) h
      state := .inl (congrArg (fun v : View => v.link.state) h)
      recvWindow := congrArg (fun v : View => v.inbox.window) h
      handshakeDatagram := congrArg (fun v : View => v.link.handshakeDatagram) h
      outbox := ⟨lost, congrArg View.outbox h⟩
      sendWindow := hwindow
      events := ⟨[], (congrArg (fun v : View => v.inbox.events) h).trans (append_nil _).symm,
        by simp⟩
      transmits := ⟨[], (congrArg (fun v : View => v.link.pendingTransmits) h).trans
        (append_nil _).symm, by simp⟩ }

theorem Ages.of_view (h : c'.view = c.view) (hwindow : c'.sendWindow = c.sendWindow) : Ages c c' :=
  .of_loses (.of_view h) fun _ => hwindow

theorem Ages.trans (h : Ages c c') (h' : Ages c' c'') : Ages c c'' where
  side := h'.side.trans h.side
  config := h'.config.trans h.config
  params := h'.params.trans h.params
  state := by
    rcases h'.state with hstate | hclosed
    · rw [hstate]
      exact h.state
    · exact .inr hclosed
  recvWindow := h'.recvWindow.trans h.recvWindow
  handshakeDatagram := h'.handshakeDatagram.trans h.handshakeDatagram
  outbox := by
    obtain ⟨lost, hlost⟩ := h.outbox
    obtain ⟨lost', hlost'⟩ := h'.outbox
    exact ⟨lost ++ lost', by rw [hlost', hlost, map_append, run_append]⟩
  sendWindow := by
    intro hne
    have hne' : c'.state ≠ .established := by
      rcases h.state with hstate | hclosed
      · rwa [hstate]
      · simp [hclosed]
    exact (h'.sendWindow hne').trans (h.sendWindow hne)
  events := by
    obtain ⟨closed, hevents, hclosed⟩ := h.events
    obtain ⟨closed', hevents', hclosed'⟩ := h'.events
    exact ⟨closed ++ closed', by rw [hevents', hevents, append_assoc],
      forall_mem_append.2 ⟨hclosed, hclosed'⟩⟩
  transmits := by
    obtain ⟨again, htransmits, hagain⟩ := h.transmits
    obtain ⟨again', htransmits', hagain'⟩ := h'.transmits
    rw [h.handshakeDatagram] at hagain'
    exact ⟨again ++ again', by rw [htransmits', htransmits, append_assoc],
      forall_mem_append.2 ⟨hagain, hagain'⟩⟩

section

variable (c : RdpeudpConnection)

theorem ages_close : Ages c c.close := by
  unfold close
  split_ifs with hclosed
  · exact .of_view rfl rfl
  · exact ⟨rfl, rfl, rfl, .inr rfl, rfl, rfl, ⟨[], rfl⟩, fun _ => rfl,
      ⟨[.connectionClosed], rfl, by simp⟩, ⟨[], (append_nil _).symm, by simp⟩⟩

theorem ages_resendHandshakeDatagram : Ages c c.resendHandshakeDatagram :=
  ⟨rfl, rfl, rfl, .inl rfl, rfl, rfl, ⟨[], rfl⟩, fun _ => rfl, ⟨[], (append_nil _).symm, by simp⟩,
    ⟨c.handshakeDatagram.toList, rfl, fun _ hw => mem_toList.1 hw⟩⟩

theorem ages_retransmitHandshake (now : ℕ) : Ages c (c.retransmitHandshake now) := by
  unfold retransmitHandshake
  split_ifs
  · exact .of_view rfl rfl
  · exact ages_close c
  · have hcounted : Ages c { c with handshakeRetransmits := c.handshakeRetransmits + 1 } :=
      .of_view rfl rfl
    exact (hcounted.trans (ages_resendHandshakeDatagram _)).trans (.of_view rfl rfl)

theorem ages_handleTimer (now : ℕ) (timer : Timer) : Ages c (handleTimer now c timer) := by
  unfold handleTimer
  split_ifs with hclosed
  · exact .of_view rfl rfl
  cases timer with
  | retransmit =>
    have hcleared : Ages c (c.clearTimer .retransmit) := .of_view rfl rfl
    unfold handleRetransmitTimeout
    dsimp only
    split_ifs with hstate
    · have hbacked : Ages (c.clearTimer .retransmit)
          { c.clearTimer .retransmit with rtt := (c.clearTimer .retransmit).rtt.onTimeout } :=
        .of_view rfl rfl
      exact (hcleared.trans hbacked).trans (ages_retransmitHandshake _ now)
    · have hlost : Loses (c.clearTimer .retransmit) _ := loses_declareOverdueLost _ now
      refine hcleared.trans (.of_loses (hlost.trans (.of_view ?_)) fun hne =>
        absurd (not_not.1 hstate) hne)
      exact view_updateRetransmitTimer _ now
  | ackDelay | keepAlive => exact .of_view rfl rfl
  | idle => exact ages_close c

/-- **What a timeout does.** -/
theorem ages_handleTimeout (now : ℕ) : Ages c (c.handleTimeout now) := by
  have hfold : ∀ (expired : List Timer) (c : RdpeudpConnection),
      Ages c (expired.foldl (handleTimer now) c) := by
    intro expired
    induction expired with
    | nil => exact fun c => .of_view rfl rfl
    | cons timer expired ih => exact fun c => (ages_handleTimer c now timer).trans (ih _)
  unfold handleTimeout
  split_ifs
  · exact .of_view rfl rfl
  · exact hfold _ c

end

end RdpeudpConnection

end Linrdp.Rdpeudp.Connection
