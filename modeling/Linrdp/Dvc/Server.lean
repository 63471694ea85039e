import Linrdp.Dvc.Pdu

/-!
# The dynamic channels of a server

`DrdynvcServer` of `ironrdp-dvc/src/server.rs`: the channels with their creation handshake, the
Soft-Sync that moves the open ones to the UDP tunnel, and the frames that come out of the tunnel.
The processors are any type with the operations of `DvcProcessor`. Channels stand in the order of
their ids. Two logs say what was done: `calls` the calls of processors, `readFrames` the tunnel
frames that were read.
-/

namespace Linrdp.Dvc.Server

open Dvc.Pdu

/-- The processor of a channel. A message is what its encoding gives. -/
class DvcProcessor (P : Type) where
  channelName : P → Bytes
  start : P → ℕ → Except String (List Bytes × P)
  process : P → ℕ → Bytes → Except String (List Bytes × P)
  close : P → ℕ → P
  closeRequested : P → Bool

inductive ChannelState
  | pending | creation | opened
  | creationFailed (status : ℕ)
deriving DecidableEq

structure DynamicChannel (P : Type) where
  state : ChannelState
  processor : P
  completeData : CompleteData
  channelId : ℕ
  closeWhenCreated : Bool

inductive SoftSyncState
  | idle
  | active (requestedTunnels : List SoftSyncTunnelType) (responseReceived : Bool)
deriving DecidableEq

inductive Call
  | start (channelId : ℕ)
  | process (channelId : ℕ) (payload : Bytes)
  | close (channelId : ℕ)
deriving DecidableEq

structure DrdynvcServer (P : Type) where
  dynamicChannels : List (DynamicChannel P)
  nextChannelId : ℕ
  capsReceived : Bool
  softSyncState : SoftSyncState
  (outgoingTunnelChannels incomingTunnelChannels : List (ℕ × SoftSyncTunnelType))
  earlyTunnelFrames : List Bytes
  calls : List Call
  readFrames : List Bytes

def maxEarlyTunnelFrames : ℕ := 1024

namespace DrdynvcServer

variable {P : Type}

def new : DrdynvcServer P where
  dynamicChannels := []
  nextChannelId := 0
  capsReceived := false
  softSyncState := .idle
  outgoingTunnelChannels := []
  incomingTunnelChannels := []
  earlyTunnelFrames := []
  calls := []
  readFrames := []

/-! ### The channels -/

variable (d : DrdynvcServer P)

variable (channelId : ℕ)

def get : Option (DynamicChannel P) := d.dynamicChannels.find? fun c => c.channelId == channelId

def modify (f : DynamicChannel P → DynamicChannel P) : DrdynvcServer P :=
  { d with dynamicChannels := d.dynamicChannels.map fun c =>
      if c.channelId = channelId then { f c with channelId := c.channelId } else c }

def record (call : Call) : DrdynvcServer P := { d with calls := d.calls ++ [call] }

def isChannelOpened : Bool := (d.get channelId).any fun c => c.state == .opened

def openChannelIds : List ℕ :=
  (d.dynamicChannels.filter fun c => c.state == .opened).map DynamicChannel.channelId

def creationsOutstanding : Bool :=
  d.dynamicChannels.any fun c => c.state == .pending || c.state == .creation

/-- Ids are given out once each; there is an end to them, where the source panics. -/
def reserveChannel : Except String (ℕ × DrdynvcServer P) :=
  if d.nextChannelId + 1 < 2 ^ 32 then
    .ok (d.nextChannelId, { d with nextChannelId := d.nextChannelId + 1 })
  else .error "dynamic channels reaches `u32::MAX`"

def insertWithId (processor : P) (state : ChannelState) (channelId : ℕ) : DrdynvcServer P :=
  { d with dynamicChannels := d.dynamicChannels ++ [⟨state, processor, .new, channelId, false⟩] }

/-- A dropped channel that is open closes its processor. -/
def removeByChannelId : DrdynvcServer P :=
  { d with
    dynamicChannels := d.dynamicChannels.filter fun c => c.channelId != channelId
    outgoingTunnelChannels := d.outgoingTunnelChannels.filter fun e => e.1 != channelId
    incomingTunnelChannels := d.incomingTunnelChannels.filter fun e => e.1 != channelId
    calls := if d.isChannelOpened channelId then d.calls ++ [.close channelId] else d.calls }

/-! ### Soft-Sync -/

def requestReliableUdp (channelIds : List ℕ) : Except String (ServerPdu × DrdynvcServer P) :=
  if channelIds = [] then .error "soft-sync requires at least one dynamic channel"
  else if d.softSyncState ≠ .idle then .error "soft-sync has already been requested"
  else if channelIds.any fun id => !d.isChannelOpened id then
    .error "Soft-Sync requested for a dynamic channel that is not open"
  else if ¬channelIds.Nodup then .error "soft-sync channel list contains a duplicate channel ID"
  else .ok (.softSyncRequest [⟨.reliableUdp, channelIds⟩],
    { d with
      outgoingTunnelChannels := channelIds.map fun id => (id, .reliableUdp)
      softSyncState := .active [.reliableUdp] false })

def tunnelForOutgoingChannel : Option SoftSyncTunnelType :=
  d.outgoingTunnelChannels.lookup channelId

def tunnelsChannels : Bool := !d.outgoingTunnelChannels.isEmpty

/-- The transport of an encoded PDU; `none` is the main connection. -/
def outgoingTunnel (unframed : Bytes) : Option SoftSyncTunnelType :=
  if d.outgoingTunnelChannels.isEmpty then none
  else (dataChannelId unframed).bind d.tunnelForOutgoingChannel

def softSyncResponseReceived : Bool :=
  match d.softSyncState with
  | .active _ received => received
  | .idle => false

section processors

variable [DvcProcessor P]

variable (d : DrdynvcServer P)

/-- `create_channel_boxed`, and `create_channel_with` for a processor that is given its id. -/
def createChannel (build : ℕ → P) :
    Except String (Option ServerPdu × DrdynvcServer P) := do
  let (channelId, d) ← d.reserveChannel
  let processor := build channelId
  if !d.capsReceived then return (none, d.insertWithId processor .pending channelId)
  else
    return (some (.create channelId (DvcProcessor.channelName processor)),
      d.insertWithId processor .creation channelId)

def closeChannel (channelId : ℕ) : Option ServerPdu × DrdynvcServer P :=
  match d.get channelId with
  | none => (none, d)
  | some c =>
    match c.state with
    | .creation => (none, d.modify channelId fun c => { c with closeWhenCreated := true })
    | .pending | .creationFailed _ => (none, d.removeByChannelId channelId)
    | .opened => (some (.newClose channelId), d.removeByChannelId channelId)

/-! ### The client's messages -/

def ofEncode {α : Type} : Option α → Except String α
  | some a => .ok a
  | none => .error "encode"

def processData (d : DrdynvcServer P) (pdu : DataPdu) :
    Except String (List ServerPdu × DrdynvcServer P) :=
  let channelId := pdu.channelId
  match d.get channelId with
  | none => .error "invalid channel id"
  | some c =>
    if c.state ≠ .opened then .error "invalid channel state"
    else
      match c.completeData.processData pdu with
      | (none, completeData) =>
        .ok ([], d.modify channelId fun c => { c with completeData := completeData })
      | (some complete, completeData) => do
        let (messages, processor) ← DvcProcessor.process c.processor channelId complete
        let resp ← ofEncode (encodeDvcMessages channelId messages)
        let d := d.modify channelId fun c =>
          { c with completeData := completeData, processor := processor }
        let d := d.record (.process channelId complete)
        if DvcProcessor.closeRequested processor then
          return (resp ++ [.newClose channelId], d.removeByChannelId channelId)
        else return (resp, d)

variable (payload : Bytes)

def readTunnelFrame : Except String (List ServerPdu × DrdynvcServer P) :=
  let d := { d with readFrames := d.readFrames ++ [payload] }
  match ClientPdu.decode payload with
  | some (.data pdu) => if d.isChannelOpened pdu.channelId then d.processData pdu else .ok ([], d)
  | some (.close channelId) => .ok ([], d.removeByChannelId channelId)
  | _ => .ok ([], d)

def processTunnel : Except String (List ServerPdu × DrdynvcServer P) :=
  if d.softSyncResponseReceived then d.readTunnelFrame payload
  else if maxEarlyTunnelFrames ≤ d.earlyTunnelFrames.length then
    .error "too much tunnel data before the Soft-Sync Response"
  else .ok ([], { d with earlyTunnelFrames := d.earlyTunnelFrames ++ [payload] })

def readTunnelFrames (d : DrdynvcServer P) : List Bytes →
    Except String (List ServerPdu × DrdynvcServer P)
  | [] => .ok ([], d)
  | frame :: frames => do
    let (resp, d) ← d.readTunnelFrame frame
    let (rest, d) ← d.readTunnelFrames frames
    return (resp ++ rest, d)

def processSoftSyncResponse (tunnelsToSwitch : List SoftSyncTunnelType) :
    Except String (List ServerPdu × DrdynvcServer P) :=
  match d.softSyncState with
  | .idle => .ok ([], d)
  | .active _ true => .ok ([], d)
  | .active requestedTunnels false =>
    if tunnelsToSwitch.any fun t => t ∉ requestedTunnels then
      .error "soft-sync response selected an unrequested tunnel"
    else
      { d with
        incomingTunnelChannels := d.outgoingTunnelChannels.filter fun e => e.2 ∈ tunnelsToSwitch
        softSyncState := .active requestedTunnels true
        earlyTunnelFrames := [] }.readTunnelFrames d.earlyTunnelFrames

def processCapabilities : List ServerPdu × DrdynvcServer P :=
  ((d.dynamicChannels.filter fun c => c.state == .pending).map fun c =>
      .create c.channelId (DvcProcessor.channelName c.processor),
    { d with
      capsReceived := true
      dynamicChannels := d.dynamicChannels.map fun c =>
        if c.state = .pending then { c with state := .creation } else c })

def processCreate (channelId creationStatus : ℕ) :
    Except String (List ServerPdu × DrdynvcServer P) :=
  match d.get channelId with
  | none => .error "invalid channel id"
  | some c =>
    if c.state ≠ .creation then .error "invalid channel state"
    else if creationStatus ≠ 0 then
      let d := d.modify channelId fun c =>
        { c with
          state := .creationFailed creationStatus
          processor := DvcProcessor.close c.processor channelId }
      .ok ([], d.record (.close channelId))
    else if c.closeWhenCreated then .ok ([.newClose channelId], d.removeByChannelId channelId)
    else do
      let (messages, processor) ← DvcProcessor.start c.processor channelId
      let resp ← ofEncode (encodeDvcMessages channelId messages)
      let d := d.modify channelId fun c => { c with state := .opened, processor := processor }
      return (resp, d.record (.start channelId))

/-- `SvcProcessor::process`: a message on the main connection. -/
def process : Except String (List ServerPdu × DrdynvcServer P) :=
  match ClientPdu.decode payload with
  | none => .error "decode"
  | some (.capabilities _) => .ok d.processCapabilities
  | some (.create channelId status) => d.processCreate channelId status
  | some (.close channelId) => .ok ([], d.removeByChannelId channelId)
  | some (.data pdu) => d.processData pdu
  | some (.softSyncResponse tunnels) => d.processSoftSyncResponse tunnels

end processors

end DrdynvcServer

end Linrdp.Dvc.Server
