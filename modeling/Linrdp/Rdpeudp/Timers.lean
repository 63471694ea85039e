import Linrdp.Rdpeudp.Admission

/-!
# Timers that let a driver sleep

A driver sleeps until the earliest deadline and then calls `handle_timeout`. It does not spin if
every deadline armed after the call is later than the call, and if a closed connection has none.
The retransmission timer is armed at least `minRto` ahead. The keep-alive timer is armed ahead by
the whole milliseconds of the configured interval, so that one below a millisecond is due at once.
-/

namespace Linrdp.Rdpeudp.Connection

open List Lib.Runs Rdpeudp.Pdu Rdpeudp.Handshake Rdpeudp.Timing V1Datagram

/-! ### The retransmission timeout -/

/-- The timeout is not below its minimum. -/
def Paced (r : RttEstimator) : Prop := minRto ≤ r.rto

section estimator

variable {r : RttEstimator} (h : Paced r)

include h

theorem Paced.recomputeRto : Paced r.recomputeRto := by
  unfold RttEstimator.recomputeRto
  split
  · exact h
  · exact le_min (le_max_right ..) (by decide)

theorem Paced.update [MulF64] (rtt : ℕ) : Paced (r.update rtt) := by
  unfold RttEstimator.update
  split <;> exact recomputeRto h

theorem Paced.onTimeout : Paced r.onTimeout :=
  le_min (h.trans (Nat.le_mul_of_pos_right _ (by decide))) (by decide)

end estimator

namespace RdpeudpConnection

variable {c : RdpeudpConnection} {config : ConnectionConfig} {now : ℕ}

/-- What a loss leaves alone. -/
abbrev clocks (c : RdpeudpConnection) : RttEstimator × TimerTable := (c.rtt, c.timers)

section losses

variable (c : RdpeudpConnection)

theorem clocks_declareLost (dataSeq : ℕ) : (c.declareLost dataSeq).clocks = c.clocks := by
  unfold declareLost
  split
  · rfl
  · split <;> rfl

theorem clocks_foldl_declareLost (lost : List ℕ) :
    (lost.foldl declareLost c).clocks = c.clocks :=
  run_inv (I := fun c' : RdpeudpConnection => c'.clocks = c.clocks)
    (fun c' d h => (c'.clocks_declareLost d).trans h) rfl lost

variable (now : ℕ)

theorem clocks_runLossDetection : (c.runLossDetection now).clocks = c.clocks := by
  unfold runLossDetection
  split
  · rfl
  · exact c.clocks_foldl_declareLost _

theorem clocks_declareOverdueLost : (c.declareOverdueLost now).clocks = c.clocks := by
  unfold declareOverdueLost declareOldestPendingLost
  split_ifs
  · split
    · rfl
    · split
      · rfl
      · exact c.clocks_declareLost _
  · exact c.clocks_foldl_declareLost _

theorem rtt_updateRetransmitTimer : (c.updateRetransmitTimer now).rtt = c.rtt := by
  unfold updateRetransmitTimer
  split
  · rfl
  · split_ifs <;> rfl

end losses

section packet

variable (h : Paced c.rtt) (now : ℕ)

include h

theorem paced_onAcknowledged (bytes reported : ℕ) :
    Paced (c.onAcknowledged bytes reported now).rtt := by
  have hlost (c' : RdpeudpConnection) : (c'.runLossDetection now).rtt = c'.rtt :=
    congrArg Prod.fst (c'.clocks_runLossDetection now)
  have hretire (c' : RdpeudpConnection) : (c'.retireAckOfAcks reported).rtt = c'.rtt := by
    unfold retireAckOfAcks
    split_ifs <;> rfl
  unfold onAcknowledged
  dsimp only
  rw [hretire, rtt_updateRetransmitTimer]
  split_ifs
  · exact Paced.recomputeRto (by rwa [hlost])
  · rwa [hlost]

variable [MulF64]

theorem paced_sampleRtt (elapsed : Option ℕ) (gapMs : Option UInt8) :
    Paced (c.sampleRtt elapsed gapMs).rtt := by
  unfold sampleRtt
  split
  · split_ifs
    · exact h.update _
    · exact h
  · exact h

theorem paced_processAck (ack : AckPayload) : Paced (c.processAck ack now).rtt := by
  unfold processAck
  split
  · exact h
  · dsimp only
    split_ifs
    · exact h
    · refine paced_onAcknowledged (paced_sampleRtt ?_ _ _) now _ _
      exact h

theorem paced_processAckVector (vector : AckVectorPayload) :
    Paced (c.processAckVector vector now).rtt := by
  unfold processAckVector
  split
  · exact h
  · refine paced_onAcknowledged (paced_sampleRtt ?_ _ _) now _ _
    exact h

theorem paced_processPacket (byte : PacketPrefixByte) (packet : V2Packet) :
    Paced (c.processPacket byte packet now).rtt := by
  have hsections := sending_processSections (c.processAcks packet now) byte packet now
  rw [processPacket_eq, show rtt _ = _ from congrArg (·.2.2) hsections, processAcks]
  have hwindow : Paced (c.setPeerWindow packet.header.logWindowSize).rtt := h
  rcases packet.ack with _ | ack <;> rcases packet.ackVector with _ | vector
  · exact h
  · exact paced_processAckVector hwindow now vector
  · exact paced_processAck hwindow now ack
  · exact paced_processAckVector (paced_processAck hwindow now ack) now vector

end packet

/-! ### Open connections -/

/-- A connection that is not closed. -/
structure Going (config : ConnectionConfig) (c : RdpeudpConnection) : Prop where
  configured : c.config = config
  paced : Paced c.rtt
  opened : c.state ≠ .closed

section going

variable (h : Going config c)

include h

theorem Going.of_link {c' : RdpeudpConnection} (hlink : c'.link = c.link) (hpaced : Paced c'.rtt) :
    Going config c' :=
  ⟨(congrArg Link.config hlink).trans h.configured, hpaced,
    fun hclosed => h.opened ((congrArg Link.state hlink).symm.trans hclosed)⟩

theorem Going.pollTransmit (now : ℕ) : Going config (c.pollTransmit now).2 := by
  rcases c.pollTransmit_tries now with ⟨_, _, -, heq⟩ | hsame | ⟨-, hlink, -, hrtt⟩
  · rw [heq]
    exact { h with }
  · rwa [hsame]
  · exact h.of_link hlink (hrtt ▸ h.paced)

end going

theorem going_survives [MulF64] (config : ConnectionConfig) (wire : Bytes) (now : ℕ) :
    Survives (Going config) wire now where
  touch h := { h with }
  resend h := { h with }
  sample h := by
    unfold sampleHandshakeRtt
    split_ifs
    · exact h
    · split
      · exact h
      · exact { h with paced := h.paced.update _ }
  finalAck _ h := { h with }
  establish h := by
    unfold transitionToEstablished
    split
    · exact h
    · exact { h with opened := by simp }
  packet h := by
    unfold handleV2Packet
    split
    · exact h
    · exact h.of_link (link_processPacket ..) (paced_processPacket h.paced ..)
  negotiate _ _ h := { h with }

/-! ### Open or without timers -/

/-- What every call keeps. -/
structure Timely (config : ConnectionConfig) (c : RdpeudpConnection) : Prop where
  configured : c.config = config
  paced : Paced c.rtt
  quiet : c.state = .closed → ∀ timer, c.timers.deadlines timer = none

theorem Going.timely (h : Going config c) : Timely config c :=
  { h with quiet := fun hclosed => absurd hclosed h.opened }

theorem Timely.close (h : Timely config c) : Timely config c.close := by
  unfold RdpeudpConnection.close
  split_ifs
  · exact h
  · exact { h with quiet := fun _ timer => by cases timer <;> rfl }

/-! ### Deadlines -/

theorem lt_advance {duration : ℕ} (hduration : fromMillis 1 ≤ duration)
    (hnow : now < 2 ^ 64 - 1) : now < advance now duration := by
  have hpos : 0 < duration / 1000000 := Nat.div_pos hduration (by decide)
  unfold advance
  omega

/-- The timer is armed and expired. -/
def Due (c : RdpeudpConnection) (now : ℕ) (timer : Timer) : Prop :=
  ∃ deadline, c.timers.deadlines timer = some deadline ∧ deadline ≤ now

section due

variable {timer other : Timer}

theorem due_clearTimer (h : (c.clearTimer timer).Due now other) :
    other ≠ timer ∧ c.Due now other := by
  obtain ⟨deadline, hdeadline, hle⟩ := h
  by_cases heq : other = timer
  · simp [clearTimer, TimerTable.clear, heq] at hdeadline
  · exact ⟨heq, deadline, (if_neg heq).symm.trans hdeadline, hle⟩

theorem not_due_close (h : c.state ≠ .closed) : ¬c.close.Due now other := by
  rintro ⟨deadline, hdeadline, -⟩
  rw [close, if_neg h] at hdeadline
  cases other <;> cases hdeadline

theorem Timely.not_due (h : Timely config c) (hclosed : c.state = .closed) : ¬c.Due now timer := by
  rintro ⟨deadline, hdeadline, -⟩
  simp [h.quiet hclosed] at hdeadline

theorem due_setTimer {duration : ℕ} (hnow : now < 2 ^ 64 - 1) (hduration : fromMillis 1 ≤ duration)
    (h : (c.setTimer timer (advance now duration)).Due now other) : c.Due now other := by
  obtain ⟨deadline, hdeadline, hle⟩ := h
  by_cases heq : other = timer
  · obtain rfl : advance now duration = deadline := by
      simpa [setTimer, TimerTable.set, heq] using hdeadline
    exact absurd (lt_advance hduration hnow) (by omega)
  · exact ⟨deadline, (if_neg heq).symm.trans hdeadline, hle⟩

theorem due_updateRetransmitTimer (hnow : now < 2 ^ 64 - 1) (h : Paced c.rtt)
    (hdue : (c.updateRetransmitTimer now).Due now other) : c.Due now other := by
  unfold updateRetransmitTimer at hdue
  split at hdue
  · exact hdue
  · split_ifs at hdue
    · exact hdue
    · exact due_setTimer hnow ((by decide : fromMillis 1 ≤ minRto).trans h) hdue
    · exact (due_clearTimer hdue).2

/-- A handler clears its timer or arms it anew, and arms no other. -/
theorem handleTimer_spec (h : Timely config c) (now : ℕ) (timer : Timer) :
    Timely config (handleTimer now c timer) ∧
      (now < 2 ^ 64 - 1 → fromMillis 1 ≤ config.keepAliveInterval → ∀ {other},
        (handleTimer now c timer).Due now other → other ≠ timer ∧ c.Due now other) := by
  unfold handleTimer
  split_ifs with hclosed
  · exact ⟨h, fun _ _ _ hdue => absurd hdue (h.not_due hclosed)⟩
  have hgoing : Going config c := { h with opened := hclosed }
  cases timer with
  | retransmit =>
    unfold handleRetransmitTimeout
    dsimp only
    split_ifs
    · have hbacked : Going config { c.clearTimer .retransmit with rtt := c.rtt.onTimeout } :=
        { hgoing with paced := h.paced.onTimeout }
      unfold retransmitHandshake
      split_ifs
      · exact ⟨hbacked.timely, fun _ _ _ hdue => due_clearTimer hdue⟩
      · exact ⟨hbacked.timely.close, fun _ _ _ hdue => absurd hdue (not_due_close hclosed)⟩
      · exact ⟨Going.timely { hbacked with }, fun hnow _ _ hdue => due_clearTimer
          (due_setTimer hnow ((by decide : fromMillis 1 ≤ minRto).trans hbacked.paced) hdue)⟩
    · obtain ⟨lost, hlost⟩ := loses_declareOverdueLost (c.clearTimer .retransmit) now
      obtain ⟨hrtt, htimers⟩ := Prod.mk.inj
        ((c.clearTimer .retransmit).clocks_declareOverdueLost now)
      have hpaced : Paced ((c.clearTimer .retransmit).declareOverdueLost now).rtt.onTimeout :=
        Paced.onTimeout (by rw [hrtt]; exact h.paced)
      refine ⟨(hgoing.of_link ?_ (by rwa [rtt_updateRetransmitTimer])).timely,
        fun hnow _ _ hdue => due_clearTimer ?_⟩
      · rw [link, view_updateRetransmitTimer]
        exact (congrArg View.link hlost :)
      · have hbefore := due_updateRetransmitTimer hnow hpaced hdue
        unfold Due at hbefore ⊢
        rwa [← htimers]
  | ackDelay => exact ⟨Going.timely { hgoing with }, fun _ _ _ hdue => due_clearTimer hdue⟩
  | idle => exact ⟨h.close, fun _ _ _ hdue => absurd hdue (not_due_close hclosed)⟩
  | keepAlive =>
    exact ⟨Going.timely { hgoing with }, fun hnow hkeep _ hdue =>
      due_clearTimer (due_setTimer hnow (h.configured ▸ hkeep) hdue)⟩

theorem Timely.handleTimeout (h : Timely config c) (now : ℕ) :
    Timely config (c.handleTimeout now) := by
  unfold RdpeudpConnection.handleTimeout
  split_ifs
  · exact h
  · exact run_inv (I := Timely config) (fun _ timer h => (handleTimer_spec h now timer).1) h _

theorem not_due_handleTimeout (h : Timely config c) (hnow : now < 2 ^ 64 - 1)
    (hkeep : fromMillis 1 ≤ config.keepAliveInterval) : ¬(c.handleTimeout now).Due now timer := by
  have hfold : ∀ (expired : List Timer) (c : RdpeudpConnection), Timely config c →
      (expired.foldl (handleTimer now) c).Due now timer → timer ∉ expired ∧ c.Due now timer := by
    intro expired
    induction expired with
    | nil => exact fun c _ hdue => ⟨not_mem_nil, hdue⟩
    | cons first expired ih =>
      intro c h hdue
      obtain ⟨htimely, hspec⟩ := handleTimer_spec h now first
      obtain ⟨hlater, hdue⟩ := ih _ htimely hdue
      obtain ⟨hne, hdue⟩ := hspec hnow hkeep hdue
      exact ⟨by simp [hne, hlater], hdue⟩
  unfold handleTimeout
  split_ifs with hclosed
  · exact h.not_due hclosed
  · intro hdue
    obtain ⟨hmem, deadline, hdeadline, hle⟩ := hfold _ c h hdue
    refine hmem (mem_filter.2 ⟨by cases timer <;> decide, ?_⟩)
    simpa [hdeadline] using hle

end due

/-! ### Runs -/

theorem Timely.call [MulF64] (h : Timely config c) (op : Call) : Timely config (c.call op) := by
  cases op with
  | send data =>
    rw [RdpeudpConnection.call]
    rcases c.send_cases data with ⟨-, heq⟩ | ⟨e, heq⟩ <;> rw [heq]
    · exact { h with }
    · exact h
  | handleDatagram wire now =>
    by_cases hclosed : c.state = .closed
    · rwa [RdpeudpConnection.call, handleDatagram_closed hclosed]
    · have hgoing : Going config c := { h with opened := hclosed }
      exact ((going_survives config wire now).handleDatagram hgoing).timely
  | handleTimeout now => exact h.handleTimeout now
  | pollTransmit now =>
    by_cases hclosed : c.state = .closed
    · rwa [RdpeudpConnection.call, RdpeudpConnection.pollTransmit, if_pos hclosed]
    · exact (Going.pollTransmit { h with opened := hclosed } now).timely
  | pollEvent => exact { h with }
  | close => exact h.close

/-- The MTUs of a SYN+ACK are in range, so it is sent and `accept` returns an open connection. -/
theorem going_accepted (config : ConnectionConfig) (synData : SynDataPayload) (now : ℕ) :
    Going config (accepted config synData now) := by
  have hmtu (sender receiver : UInt16) :
      SynDataPayload.mtuValid (negotiatedMtu sender receiver) = true := by
    simp only [SynDataPayload.mtuValid, negotiatedMtu, mtuMin, mtuMax, UInt16.toNat_ofNat',
      Bool.and_eq_true, decide_eq_true_eq]
    omega
  unfold accepted enqueueSynAck enqueueHandshake
  dsimp only
  rcases hencode : (synAckDatagram _ _ _ _).encode with e | bytes
  · simp [V1Datagram.encode, encodeSections, synAckDatagram, cookieHashMisplaced, computeFlags,
      writeOptional, SynDataPayload.encode, SynDataExPayload.encode, hmtu] at hencode
    cases hencode
  · exact ⟨rfl, (by decide : minRto ≤ initialRto), (by decide : State.synReceived ≠ .closed)⟩

theorem Opened.timely (h : c.Opened) : Timely c.config c := by
  rcases h with ⟨config, now, h⟩ | ⟨config, syn, now, h⟩
  · unfold connect at h
    split_ifs at h
    cases h
    have hnew : Going config (new .client config) :=
      ⟨rfl, (by decide : minRto ≤ initialRto), (by decide : State.synSent ≠ .closed)⟩
    unfold enqueueSyn enqueueHandshake
    rcases (synDatagram _).encode with e | bytes
    · exact hnew.timely.close
    · exact Going.timely { hnew with }
  · obtain ⟨synData, -, rfl⟩ := accept_ok h
    have hgoing := going_accepted config synData now
    rw [hgoing.configured]
    exact hgoing.timely

/-- **A driver never spins**, in any run of a connection whose keep-alive interval is a millisecond
or more: a closed connection has no timer, and after `handle_timeout` every deadline lies ahead. -/
theorem deadlines_ahead [MulF64] (hopened : c.Opened) (calls : List Call) :
    ((run call c calls).state = .closed →
        ∀ timer, (run call c calls).timers.deadlines timer = none) ∧
      (fromMillis 1 ≤ c.config.keepAliveInterval → ∀ now < 2 ^ 64 - 1, ∀ timer deadline,
        ((run call c calls).handleTimeout now).timers.deadlines timer = some deadline →
          now < deadline) := by
  have htimely := run_inv (I := Timely c.config) (fun _ op h => h.call op) hopened.timely calls
  refine ⟨htimely.quiet, fun hkeep now hnow timer deadline hdeadline => ?_⟩
  exact not_le.1 fun hle => not_due_handleTimeout htimely hnow hkeep ⟨deadline, hdeadline, hle⟩

theorem deadlines_ahead_client :
    let c := run (@call roundDown) ((new .client clientConfig).enqueueSyn 7) [.pollTransmit 7]
    (c.handleTimeout 10007).timers.deadlines .keepAlive = some 20007 ∧ 10007 < 20007 :=
  ⟨rfl, (@deadlines_ahead _ roundDown (.inl ⟨clientConfig, 7, rfl⟩) [.pollTransmit 7]).2 (by decide)
    10007 (by decide) .keepAlive 20007 rfl⟩

/-- A keep-alive every half millisecond. -/
def hastyConfig : ConnectionConfig := { clientConfig with keepAliveInterval := 500000 }

/-- **Counterexample.** The keep-alive timer that `handle_timeout` has just served is due again. -/
theorem spins_below_a_millisecond :
    let c₀ := (new .client hastyConfig).enqueueSyn 7
    let c := run (@call roundDown) c₀ [.pollTransmit 7]
    c₀.Opened ∧ 0 < hastyConfig.idleTimeout ∧ 0 < hastyConfig.keepAliveInterval ∧
      (c.handleTimeout 7).state = .synSent ∧
      (c.handleTimeout 7).timers.deadlines .keepAlive = some 7 :=
  ⟨.inl ⟨hastyConfig, 7, rfl⟩, by decide, by decide, rfl, rfl⟩

end RdpeudpConnection

end Linrdp.Rdpeudp.Connection
