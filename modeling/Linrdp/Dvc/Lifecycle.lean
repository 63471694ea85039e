import Linrdp.Dvc.SoftSync
import Linrdp.Lib.Runs

/-!
# The life of a dynamic channel

What a processor can count on, whatever the two sides do: it is started once, after the client has
confirmed its channel, gets data until it is closed, and is closed once; and what the client can
count on: no Create Request before its Capabilities Response, one Close PDU for a channel it
confirmed, and an id that means one channel. A run here goes on behind errors, with the state that
each of them leaves.

All of it is read off what one operation can do to one channel: `Moving` are the moves of the
channel's `View` at any time, `Decided` the three ways the client's answer to the Create Request can
go.
-/

namespace Linrdp.Dvc.Lifecycle

open Dvc.Pdu Dvc.Server Dvc.SoftSync Lib.Runs Relation

variable {P : Type}

/-! ### What an error leaves behind -/

section

variable [DvcProcessor P] (spoil : P → P)

/-- A processor after a call; one that fails makes of it what it likes. -/
def processorLeft (p : P) : Except String (List Bytes × P) → P
  | .ok (_, p') => p'
  | .error _ => spoil p

variable (d : DrdynvcServer P)

/-- `process_data` that failed in the processor, or in the encoding of its answer. -/
def dataError (pdu : DataPdu) : DrdynvcServer P :=
  let channelId := pdu.channelId
  match d.get channelId with
  | none => d
  | some c =>
    if c.state ≠ .opened then d
    else
      match c.completeData.processData pdu with
      | (none, _) => d
      | (some complete, completeData) =>
        let processor := processorLeft spoil c.processor
          (DvcProcessor.process c.processor channelId complete)
        (d.modify channelId fun c =>
          { c with completeData := completeData, processor := processor }).record
            (.process channelId complete)

variable (payload : Bytes)

def frameError : DrdynvcServer P :=
  let d := { d with readFrames := d.readFrames ++ [payload] }
  match ClientPdu.decode payload with
  | some (.data pdu) => dataError spoil d pdu
  | _ => d

def framesError (d : DrdynvcServer P) : List Bytes → DrdynvcServer P
  | [] => d
  | frame :: frames =>
    match d.readTunnelFrame frame with
    | .ok (_, d) => framesError d frames
    | .error _ => frameError spoil d frame

def responseError (tunnelsToSwitch : List SoftSyncTunnelType) : DrdynvcServer P :=
  match d.softSyncState with
  | .active requestedTunnels false =>
    if tunnelsToSwitch.any fun t => t ∉ requestedTunnels then d
    else
      framesError spoil { d with
        incomingTunnelChannels := d.outgoingTunnelChannels.filter fun e => e.2 ∈ tunnelsToSwitch
        softSyncState := .active requestedTunnels true
        earlyTunnelFrames := [] } d.earlyTunnelFrames
  | _ => d

def createError (channelId : ℕ) : DrdynvcServer P :=
  match d.get channelId with
  | none => d
  | some c =>
    if c.state ≠ .creation then d
    else
      let processor := processorLeft spoil c.processor (DvcProcessor.start c.processor channelId)
      (d.modify channelId fun c => { c with state := .opened, processor := processor }).record
        (.start channelId)

def processError : DrdynvcServer P :=
  match ClientPdu.decode payload with
  | some (.create channelId _) => createError spoil d channelId
  | some (.data pdu) => dataError spoil d pdu
  | some (.softSyncResponse tunnels) => responseError spoil d tunnels
  | _ => d

def tunnelError : DrdynvcServer P :=
  if d.softSyncResponseReceived then frameError spoil d payload else d

end

/-! ### Runs -/

structure Life (P : Type) where
  server : DrdynvcServer P
  sent : List ServerPdu
  given : List ℕ

inductive Op (P : Type)
  /-- also for the channels registered up front -/
  | create (build : ℕ → P)
  /-- the processor of a new channel could not be built -/
  | reserve
  | close (channelId : ℕ)
  | requestReliableUdp (channelIds : List ℕ)
  | message (payload : Bytes)
  | tunnel (payload : Bytes)
  /-- a processor shares its state with other tasks -/
  | processorChanges (channelId : ℕ) (processor : P)

variable (s : Life P)

namespace Life

def settle (left : DrdynvcServer P) :
    Except String (List ServerPdu × DrdynvcServer P) → Life P
  | .ok (resp, d) => { s with server := d, sent := s.sent ++ resp }
  | .error _ => { s with server := left }

end Life

def start : Life P := ⟨.new, [], []⟩

/-- The calls of the processors when the server is dropped, and its channels with it. -/
def dropped (d : DrdynvcServer P) : List Call := d.calls ++ d.openChannelIds.map .close

section runs

variable [DvcProcessor P] (spoil : P → P)

def step (s : Life P) : Op P → Life P
  | .create build =>
    match s.server.createChannel build with
    | .ok (request, d) => ⟨d, s.sent ++ request.toList, s.given ++ [s.server.nextChannelId]⟩
    | .error _ => s
  | .reserve =>
    match s.server.reserveChannel with
    | .ok (_, d) => { s with server := d }
    | .error _ => s
  | .close channelId =>
    let (close, d) := s.server.closeChannel channelId
    { s with server := d, sent := s.sent ++ close.toList }
  | .requestReliableUdp channelIds =>
    match s.server.requestReliableUdp channelIds with
    | .ok (request, d) => { s with server := d, sent := s.sent ++ [request] }
    | .error _ => s
  | .message payload => s.settle (processError spoil s.server payload) (s.server.process payload)
  | .tunnel payload => s.settle (tunnelError spoil s.server payload)
      (s.server.processTunnel payload)
  | .processorChanges channelId processor =>
    { s with server := s.server.modify channelId fun c => { c with processor := processor } }

/-! ### What is promised -/

def Answers (op : Op P) (id status : ℕ) : Prop :=
  (∃ payload, op = .message payload ∧ ClientPdu.decode payload = some (.create id status)) ∧
    (s.server.get id).map DynamicChannel.state = some .creation

variable (ops : List (Op P))

def Answered (id status : ℕ) : Prop :=
  Sometime (step spoil) (fun s op => Answers s op id status) start ops

variable (id : ℕ)

def Refused : Prop := ∃ status, status ≠ 0 ∧ Answered spoil ops id status

def Moves (op : Op P) (id : ℕ) : Prop :=
  (∃ ids, op = .requestReliableUdp ids ∧ id ∈ ids) ∧ s.server.isChannelOpened id = true

def Moved : Prop := Sometime (step spoil) (fun s op => Moves s op id) start ops

def Capable : Prop :=
  ∃ payload version, .message payload ∈ ops ∧ ClientPdu.decode payload = some
    (.capabilities version)

def isClose : ServerPdu → Bool
  | .close _ channelId => channelId == id
  | _ => false

def closesOf (sent : List ServerPdu) : ℕ := sent.countP (isClose id)

/-- The promises, after the operations `ops`. -/
structure Lives (ops : List (Op P)) (s : Life P) : Prop where
  requested : ∀ id name, .create id name ∈ s.sent → Capable ops
  started_once : ∀ id, s.server.calls.count (.start id) ≤ 1
  started : ∀ id, .start id ∈ s.server.calls → Answered spoil ops id 0
  data : ∀ id payload before after, s.server.calls = before ++ .process id payload :: after →
    .start id ∈ before ∧ .close id ∉ before
  closed_once : ∀ id, (dropped s.server).count (.close id) ≤ 1
  closed : ∀ id, .start id ∈ s.server.calls ∨ Refused spoil ops id →
    (dropped s.server).count (.close id) = 1
  close_once : ∀ id, closesOf id s.sent ≤ 1
  close : ∀ id, 0 < closesOf id s.sent → Answered spoil ops id 0
  ids : s.given.Nodup
  routed : ∀ id, id ∈ s.server.outgoingTunnelChannels.map Prod.fst ∨
    id ∈ s.server.incomingTunnelChannels.map Prod.fst → Moved spoil ops id

end runs

/-! ### The view of one channel -/

structure View where
  state : Option ChannelState
  calls : List Call
  closes : ℕ

def channelOf : Call → ℕ
  | .start id => id
  | .process id _ => id
  | .close id => id

def callsOf (id : ℕ) (calls : List Call) : List Call := calls.filter fun call =>
    channelOf call == id

def view (d : DrdynvcServer P) (closes id : ℕ) : View :=
  ⟨(d.get id).map DynamicChannel.state, callsOf id d.calls, closes⟩

def Life.view (id : ℕ) : View := Lifecycle.view s.server (closesOf id s.sent) id

/-- What can happen to a channel that is there. A Close PDU can be lost to a later error. -/
inductive Moving (id : ℕ) : View → View → Prop
  | data {calls : List Call} {n : ℕ} (payload : Bytes) :
    Moving id ⟨some .opened, calls, n⟩ ⟨some .opened, calls ++ [.process id payload], n⟩
  | closed {calls : List Call} {n k : ℕ} (hk : k ≤ 1) :
    Moving id ⟨some .opened, calls, n⟩ ⟨none, calls ++ [.close id], n + k⟩
  | forgotten {state : ChannelState} {calls : List Call} {n : ℕ} (h : state ≠ .opened) :
    Moving id ⟨some state, calls, n⟩ ⟨none, calls, n⟩
  | requested {calls : List Call} {n : ℕ} :
    Moving id ⟨some .pending, calls, n⟩ ⟨some .creation, calls, n⟩

inductive Decided (id : ℕ) : ℕ → View → View → Prop
  | refused {status : ℕ} {calls : List Call} {n : ℕ} (h : status ≠ 0) :
    Decided id status ⟨some .creation, calls, n⟩
      ⟨some (.creationFailed status), calls ++ [.close id], n⟩
  | opened {calls : List Call} {n : ℕ} :
    Decided id 0 ⟨some .creation, calls, n⟩ ⟨some .opened, calls ++ [.start id], n⟩
  | cancelled {calls : List Call} {n : ℕ} :
    Decided id 0 ⟨some .creation, calls, n⟩ ⟨none, calls, n + 1⟩

def Running (id : ℕ) (calls : List Call) : Prop :=
  ∃ payloads : List Bytes, calls = .start id :: payloads.map (.process id)

/-- The life of a channel, where `C` says that its creation was confirmed and `R` that it was
refused. -/
inductive Phase (C R : Prop) (id : ℕ) : View → Prop
  | waiting {state : Option ChannelState} (hR : ¬R)
    (h : state = none ∨ state = some .pending ∨ state = some .creation) :
      Phase C R id ⟨state, [], 0⟩
  | opened {calls : List Call} (hC : C) (hR : ¬R) (h : Running id calls) :
    Phase C R id ⟨some .opened, calls, 0⟩
  | failed {state : Option ChannelState} (hR : R)
    (h : state = none ∨ ∃ status, state = some (.creationFailed status)) :
    Phase C R id ⟨state, [.close id], 0⟩
  | cancelled (hC : C) (hR : ¬R) : Phase C R id ⟨none, [], 1⟩
  | closed {calls : List Call} {n : ℕ} (hC : C) (hR : ¬R) (h : Running id calls) (hn : n ≤ 1) :
    Phase C R id ⟨none, calls ++ [.close id], n⟩

section phases

variable {C R : Prop} {id : ℕ} {v v' : View}

theorem Running.process {calls : List Call} (h : Running id calls) (payload : Bytes) :
    Running id (calls ++ [.process id payload]) := by
  obtain ⟨payloads, rfl⟩ := h
  exact ⟨payloads ++ [payload], by rw [List.map_append, List.map_singleton, List.cons_append]⟩

section

variable (h : Phase C R id v)
include h

theorem Phase.moving (hmove : Moving id v v') : Phase C R id v' := by
  cases hmove with
  | data payload =>
    cases h with
    | waiting hR h | failed hR h => simp at h
    | opened hC hR h => exact .opened hC hR (h.process payload)
  | closed hk =>
    cases h with
    | waiting hR h | failed hR h => simp at h
    | opened hC hR h => exact .closed hC hR h (by omega)
  | forgotten hstate =>
    cases h with
    | waiting hR h => exact .waiting hR (.inl rfl)
    | opened hC hR h => exact absurd rfl hstate
    | failed hR h => exact .failed hR (.inl rfl)
  | requested =>
    cases h with
    | waiting hR h => exact .waiting hR (.inr (.inr rfl))
    | failed hR h => simp at h

theorem Phase.moves (hmoves : ReflTransGen (Moving id) v v') : Phase C R id v' := by
  induction hmoves with
  | refl => exact h
  | tail _ hmove ih => exact ih.moving hmove

theorem Phase.congr {C' R' : Prop} (hC : C ↔ C') (hR : R ↔ R') : Phase C' R' id v := by
  rw [← hC, ← hR]
  exact h

theorem Phase.born (hv : v = ⟨none, [], 0⟩) {state : ChannelState}
    (hstate : state = .pending ∨ state = .creation) : Phase C R id ⟨some state, [], 0⟩ := by
  cases h with
  | waiting hR h => exact .waiting hR (.inr (by simpa using hstate))
  | opened hC hR h | failed hR h | cancelled hC hR | closed hC hR h hn => simp at hv

theorem Phase.confirmed {status : ℕ} (hdecided : Decided id status v v')
    (hstatus : status = 0) : Phase True R id v' := by
  cases hdecided with
  | refused hne => exact absurd hstatus hne
  | opened =>
    cases h with
    | waiting hR h => exact .opened trivial hR ⟨[], rfl⟩
    | failed hR h => simp at h
  | cancelled =>
    cases h with
    | waiting hR h => exact .cancelled trivial hR
    | failed hR h => simp at h

theorem Phase.refused {status : ℕ} (hdecided : Decided id status v v')
    (hstatus : status ≠ 0) : Phase C True id v' := by
  cases hdecided with
  | refused hne =>
    cases h with
    | waiting hR h => exact .failed trivial (.inr ⟨_, rfl⟩)
    | failed hR h => simp at h
  | opened | cancelled => exact absurd rfl hstatus

end

end phases

end Linrdp.Dvc.Lifecycle
