import Linrdp.Rdpeudp.NoLoss

/-!
# What establishes a server's connection

Only an acknowledgement of its own SYN+ACK or a version 2 packet should establish a waiting
connection, and every other datagram should leave it waiting, a repeated SYN being answered again
(`Admits`). But it is established before the version 2 decoder has looked at the datagram, and the
number of an acknowledgement is not compared. So the promise is kept for a SYN, the right
acknowledgement and a well-formed packet, and for no other datagram (`admits_iff`).
-/

namespace Linrdp.Rdpeudp.Connection

open Lib.Runs Rdpeudp.Pdu Rdpeudp.Handshake Rdpeudp.Timing V1Datagram

namespace RdpeudpConnection

/-! ### Datagrams -/

def IsSyn (wire : Bytes) : Prop :=
  ∃ datagram, decode wire = .ok datagram ∧ datagram.header.flags.syn = true

/-- A version 1 acknowledgement of the datagram that carried the number `isn`. -/
def Acknowledging (isn : UInt32) (wire : Bytes) : Prop :=
  ∃ datagram, decode wire = .ok datagram ∧ datagram.header.flags.syn = false ∧
    datagram.header.flags.ack = true ∧ datagram.header.snSourceAck = isn

def WellFormed (wire : Bytes) : Prop := ∃ packet, decodeDatagram wire = .ok packet

/-- What a waiting connection `c` is owed of the connection `c'` after a datagram; `synAck` is the
SYN+ACK it sent. -/
structure Admits (synAck : Bytes) (wire : Bytes) (c c' : RdpeudpConnection) : Prop where
  established : c'.state = .established →
    Acknowledging c.config.initialSequenceNumber wire ∨ WellFormed wire
  unchanged : ¬Acknowledging c.config.initialSequenceNumber wire → ¬WellFormed wire →
    c'.state = c.state ∧ c'.sendWindow = c.sendWindow ∧ c'.recvWindow = c.recvWindow ∧
      ∀ timer, timer ≠ .idle → c'.timers.deadlines timer = c.timers.deadlines timer
  answered : IsSyn wire → c'.pendingTransmits = c.pendingTransmits ++ [synAck]

/-! ### One datagram -/

theorem state_transitionToEstablished {c : RdpeudpConnection} (h : c.params.isSome) (now : ℕ) :
    (c.transitionToEstablished now).state = .established := by
  obtain ⟨params, hparams⟩ := Option.isSome_iff_exists.1 h
  rw [transitionToEstablished, hparams]

section waiting

variable [MulF64] {c : RdpeudpConnection} {wire : Bytes}

section

variable (hstate : c.state = .synReceived)
include hstate

theorem handleDatagram_syn (h : IsSyn wire) (now : ℕ) :
    (c.handleDatagram wire now).2 = (c.touch now).resendHandshakeDatagram := by
  obtain ⟨datagram, hdecode, hsyn⟩ := h
  have hack : (c.touch now).handleFinalAck wire now =
      (true, (c.touch now).resendHandshakeDatagram) := by
    rw [handleFinalAck, hdecode]
    exact if_pos hsyn
  rw [handleDatagram_synReceived hstate, hack]

/-- **Every other datagram establishes the connection**, whatever it holds. -/
theorem handleDatagram_not_syn (hparams : c.params.isSome)
    (h : ¬IsSyn wire) (now : ℕ) : (c.handleDatagram wire now).2.state = .established := by
  have htouched : (c.touch now).params.isSome := hparams
  have hv2 : (((c.touch now).transitionToEstablished now).handleV2Packet wire now).2.state =
      .established := by
    rw [state_handleV2Packet, state_transitionToEstablished htouched]
  rw [handleDatagram_synReceived hstate, handleFinalAck]
  rcases hdecode : decode wire with e | datagram
  · exact hv2
  · have hsyn : ¬datagram.header.flags.syn = true := fun hsyn => h ⟨datagram, hdecode, hsyn⟩
    dsimp only
    rw [if_neg hsyn]
    split_ifs with hack
    · exact hv2
    · have hsampled : ((c.touch now).sampleHandshakeRtt now).params = (c.touch now).params :=
        congrArg (fun v : View => v.link.params) (view_sampleHandshakeRtt _ now)
      exact state_transitionToEstablished (by rw [hsampled]; exact htouched) now

theorem admits_of_syn {synAck : Bytes}
    (hsynAck : c.handshakeDatagram = some synAck) (h : IsSyn wire) (now : ℕ) :
    Admits synAck wire c (c.handleDatagram wire now).2 := by
  rw [handleDatagram_syn hstate h]
  refine ⟨fun hestablished => ?_, fun _ _ => ⟨rfl, rfl, rfl, fun timer htimer => ?_⟩, fun _ => ?_⟩
  · have hsame : c.state = .established := hestablished
    rw [hstate] at hsame
    cases hsame
  · exact if_neg htimer
  · show c.pendingTransmits ++ c.handshakeDatagram.toList = _
    rw [hsynAck, Option.toList_some]

theorem admits_iff_of_not_syn {synAck : Bytes}
    (hparams : c.params.isSome) (h : ¬IsSyn wire) (now : ℕ) :
    Admits synAck wire c (c.handleDatagram wire now).2 ↔
      Acknowledging c.config.initialSequenceNumber wire ∨ WellFormed wire := by
  constructor
  · intro hadmits
    exact hadmits.established (handleDatagram_not_syn hstate hparams h now)
  · intro hmay
    refine ⟨fun _ => hmay, fun hack hwell => ?_, fun hsyn => absurd hsyn h⟩
    exact absurd hmay (not_or.2 ⟨hack, hwell⟩)

end

end waiting

/-! ### A connection that waits -/

inductive Call
  | send (data : Bytes)
  | handleDatagram (wire : Bytes) (now : ℕ)
  | handleTimeout (now : ℕ)
  | pollTransmit (now : ℕ)
  | pollEvent | close

def call [MulF64] (c : RdpeudpConnection) : Call → RdpeudpConnection
  | .send data => (c.send data).2
  | .handleDatagram wire now => (c.handleDatagram wire now).2
  | .handleTimeout now => c.handleTimeout now
  | .pollTransmit now => (c.pollTransmit now).2
  | .pollEvent => c.pollEvent.2
  | .close => c.close

def synAckOf (config : ConnectionConfig) (synData : SynDataPayload) : V1Datagram :=
  (new .server config).synAckDatagram synData.initialSequenceNumber
    (negotiatedMtu synData.upstreamMtu config.downstreamMtu)
    (negotiatedMtu synData.downstreamMtu config.upstreamMtu)

structure Waits (config : ConnectionConfig) (synData : SynDataPayload) (c : RdpeudpConnection) :
    Prop where
  configured : c.config = config
  params : c.params.isSome
  synAck : ∃ bytes, (synAckOf config synData).encode = .ok bytes ∧ c.handshakeDatagram = some bytes

def Inv (config : ConnectionConfig) (synData : SynDataPayload) (c : RdpeudpConnection) : Prop :=
  c.state = .synReceived ∧ Waits config synData c ∨ c.state = .established ∨ c.state = .closed

theorem inv_accepted (config : ConnectionConfig) (synData : SynDataPayload) (now : ℕ) :
    Inv config synData (accepted config synData now) := by
  unfold accepted enqueueSynAck enqueueHandshake
  dsimp only
  rcases hencode : (synAckDatagram _ _ _ _).encode with e | bytes
  · exact .inr (.inr rfl)
  · exact .inl ⟨rfl, rfl, rfl, bytes, hencode, rfl⟩

section steps

variable {config : ConnectionConfig} {synData : SynDataPayload} {c : RdpeudpConnection}

theorem Waits.congr {c' : RdpeudpConnection} (h : Waits config synData c)
    (hconfig : c'.config = c.config) (hparams : c'.params = c.params)
    (hdatagram : c'.handshakeDatagram = c.handshakeDatagram) :
    Waits config synData c' :=
  ⟨hconfig.trans h.configured, hparams ▸ h.params, hdatagram ▸ h.synAck⟩

section

variable (h : Inv config synData c)
include h

theorem Inv.of_link {c' : RdpeudpConnection} (hlink : c'.link = c.link) :
    Inv config synData c' := by
  have hstate : c'.state = c.state := congrArg Link.state hlink
  rcases h with ⟨hs, hwaits⟩ | hdone
  · exact .inl ⟨hstate.trans hs, hwaits.congr (congrArg Link.config hlink)
      (congrArg Link.params hlink)
      (congrArg Link.handshakeDatagram hlink)⟩
  · rw [← hstate] at hdone
    exact .inr hdone

theorem Inv.of_ages {c' : RdpeudpConnection} (hages : Ages c c') : Inv config synData c' := by
  rcases hages.state with hstate | hclosed
  · rcases h with ⟨hs, hwaits⟩ | hdone
    · exact .inl ⟨hstate.trans hs, hwaits.congr hages.config hages.params hages.handshakeDatagram⟩
    · rw [← hstate] at hdone
      exact .inr hdone
  · exact .inr (.inr hclosed)

theorem inv_handleDatagram [MulF64] (wire : Bytes) (now : ℕ) :
    Inv config synData (c.handleDatagram wire now).2 := by
  rcases h with ⟨hstate, hwaits⟩ | hstate | hstate
  · by_cases hsyn : IsSyn wire
    · rw [handleDatagram_syn hstate hsyn]
      exact .inl ⟨hstate, hwaits.congr rfl rfl rfl⟩
    · exact .inr (.inl (handleDatagram_not_syn hstate hwaits.params hsyn now))
  · right
    left
    rw [handleDatagram_established hstate]
    split_ifs
    · exact hstate
    · exact (state_handleV2Packet (c.touch now) wire now).trans hstate
  · rw [handleDatagram_closed hstate]
    exact .inr (.inr hstate)

theorem inv_pollTransmit (now : ℕ) : Inv config synData (c.pollTransmit now).2 := by
  rcases c.pollTransmit_tries now with ⟨transmit, rest, -, heq⟩ | hsame | ⟨-, hlink, -⟩
  · rw [heq]
    rcases h with ⟨hs, hwaits⟩ | hdone
    · exact .inl ⟨hs, hwaits.congr rfl rfl rfl⟩
    · exact .inr hdone
  · rw [hsame]
    exact h
  · exact h.of_link hlink

theorem inv_call [MulF64] (op : Call) : Inv config synData (c.call op) := by
  cases op with
  | send data =>
    rcases c.send_cases data with ⟨-, heq⟩ | ⟨e, heq⟩
    · rw [call, heq]
      exact h.of_link rfl
    · rw [call, heq]
      exact h
  | handleDatagram wire now => exact inv_handleDatagram h wire now
  | handleTimeout now => exact h.of_ages (ages_handleTimeout c now)
  | pollTransmit now => exact inv_pollTransmit h now
  | pollEvent => exact h.of_link rfl
  | close => exact h.of_ages (ages_close c)

end

end steps

/-- **A server's connection is established by the right datagrams only** for the datagrams that are
a SYN, an acknowledgement of its SYN+ACK or a well-formed packet; after any calls that leave it
waiting. -/
theorem admits_iff [MulF64] {config : ConnectionConfig} {syn : V1Datagram} {start : ℕ}
    {c₀ : RdpeudpConnection} (haccept : accept config syn start = .ok c₀) (calls : List Call)
    (hstate : (run call c₀ calls).state = .synReceived) (wire : Bytes) (now : ℕ) :
    (∃ synData synAck, syn.synData = some synData ∧ (synAckOf config synData).encode = .ok synAck ∧
        Admits synAck wire (run call c₀ calls) ((run call c₀ calls).handleDatagram wire now).2) ↔
      IsSyn wire ∨ Acknowledging config.initialSequenceNumber wire ∨ WellFormed wire := by
  obtain ⟨synData, hsynData, rfl⟩ := accept_ok haccept
  have hinv : Inv config synData (run call (accepted config synData start) calls) :=
    run_inv (I := Inv config synData) (fun _ op h => inv_call h op)
      (inv_accepted config synData start)
      calls
  rcases hinv with ⟨-, hwaits⟩ | hdone | hdone
  case inr.inl | inr.inr => rw [hstate] at hdone; cases hdone
  obtain ⟨synAck, hencode, hkept⟩ := hwaits.synAck
  by_cases hsyn : IsSyn wire
  · exact iff_of_true ⟨synData, synAck, hsynData, hencode, admits_of_syn hstate hkept hsyn now⟩
      (.inl hsyn)
  · have hiff (bytes : Bytes) : Admits bytes wire _ _ ↔ _ :=
      admits_iff_of_not_syn hstate hwaits.params hsyn now
    rw [hwaits.configured] at hiff
    constructor
    · rintro ⟨-, bytes, -, -, hadmits⟩
      exact .inr ((hiff bytes).1 hadmits)
    · rintro (h | h)
      · exact absurd h hsyn
      · exact ⟨synData, synAck, hsynData, hencode, (hiff synAck).2 h⟩

def clientSyn : V1Datagram where
  header := ⟨0xFFFFFFFF, 8, { V1Flags.empty with syn := true, synex := true }⟩
  ackVector := none
  ackOfAcks := none
  synData := some ⟨1, 1232, 1232⟩
  correlationId := none
  synDataEx := some ⟨true, .v3, some (List.replicate 32 0)⟩

def waitingServer : RdpeudpConnection := accepted clientConfig ⟨1, 1232, 1232⟩ 0

theorem admits_finalAck : ∃ synData synAck, clientSyn.synData = some synData ∧
    (synAckOf clientConfig synData).encode = .ok synAck ∧
      Admits synAck [0, 0, 0, 1, 0, 8, 0, 4, 0, 1, 1, 0] waitingServer
        (@handleDatagram roundDown waitingServer [0, 0, 0, 1, 0, 8, 0, 4, 0, 1, 1, 0] 0).2 :=
  (@admits_iff roundDown clientConfig clientSyn 0 waitingServer rfl [] rfl _ 0).2
    (.inr (.inl ⟨_, rfl, rfl, rfl, rfl⟩))

def Barges (wire : Bytes) : Prop :=
  (@handleDatagram roundDown waitingServer wire 0).2.state = .established ∧
    ¬Acknowledging waitingServer.config.initialSequenceNumber wire ∧ ¬WellFormed wire

theorem barges_of_decode {wire : Bytes}
    (hstate : (@handleDatagram roundDown waitingServer wire 0).2.state = .established)
    (hack : ((decode wire).toOption.all fun datagram =>
      datagram.header.snSourceAck != waitingServer.config.initialSequenceNumber) = true)
    (hwell : (decodeDatagram wire).toOption.isNone = true) : Barges wire := by
  refine ⟨hstate, ?_, ?_⟩
  · rintro ⟨datagram, hdecode, -, -, hisn⟩
    rw [hdecode] at hack
    simp [Except.toOption, hisn] at hack
  · rintro ⟨packet, hdecode⟩
    rw [hdecode] at hwell
    cases hwell

/-- **Counterexample.** An empty datagram, and an acknowledgement of a number that was never sent,
are neither of what may establish the connection, and both do. -/
theorem established_by_other_datagrams :
    Barges [] ∧ Barges [0, 0, 0, 9, 0, 8, 0, 4, 0, 1, 1, 0] := by
  refine ⟨barges_of_decode ?_ ?_ ?_, barges_of_decode ?_ ?_ ?_⟩ <;> decide

end RdpeudpConnection

end Linrdp.Rdpeudp.Connection
