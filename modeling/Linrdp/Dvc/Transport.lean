import Linrdp.Dvc.Server

/-!
# The two transports of the dynamic channels

The part of `RdpServer` that writes the messages of the dynamic channels, over the main connection
or into the UDP tunnel. A step is one message of the client or one event of the server, both handled
to the end under the lock of the server; a step that fails ends the connection. `tcp` and `tunnel`
are what was written. Three fields are not the source's: `goneTunnels`, the tunnels whose pump has
ended, `moved`, the tunnel and the channels of the Soft-Sync Request, and `handed`, every message
that was to be written.
-/

namespace Linrdp.Dvc.Transport

open Dvc.Pdu Dvc.Server DrdynvcServer

structure Handed where
  pdu : ServerPdu
  (moved opened : Bool)

structure RdpServer (P : Type) where
  drdynvc : DrdynvcServer P
  udpTunnelTx : Option ℕ
  tunnelBacklog : List Bytes
  multitransportConfirmed : Bool
  (multitransportRequestId pendingSoftSync : Option ℕ)
  goneTunnels : List ℕ
  tcp : List ServerPdu
  tunnel : List (ℕ × Bytes)
  moved : Option (ℕ × List ℕ)
  handed : List Handed

inductive Step (P : Type)
  | drdynvcPdu (payload : Bytes)
  | multitransportResponse (requestId hrResponse : ℕ)
  | otherPdu
  | softSyncToUdp (toTunnel : ℕ)
  /-- also for a USB device, whose processor is told its id -/
  | openDynamicChannel (build : ℕ → P)
  | closeDynamicChannel (channelId : ℕ)
  | udpTunnelClosed
  | udpTunnelData (frame : Bytes)
  | echo (channelId : ℕ) (request : Bytes)
  /-- a request to a USB device of the client; a retraction closes the channel after it -/
  | usbDevice (channelId : ℕ) (messages : List Bytes) (retract : Bool)
  /-- graphics output; it is dropped unless it is of the current generation -/
  | egfx (channelId : ℕ) (messages : List Bytes) (isCurrent : Bool)
  | processorChanges (channelId : ℕ) (processor : P)
  | pumpEnds (tunnel : ℕ)

namespace RdpServer

variable {P : Type}

variable (s : RdpServer P)

def movedIds : List ℕ :=
  match s.moved with
  | some (_, ids) => ids
  | none => []

def hand (pdu : ServerPdu) : Handed where
  pdu := pdu
  moved := pdu.dataChannel.any fun id => id ∈ s.movedIds
  opened := pdu.dataChannel.any s.drdynvc.isChannelOpened

/-! ### Writing -/

def sendToTunnel (messages : List Bytes) : Except String (RdpServer P) :=
  match s.udpTunnelTx with
  | none => .error "no tunnel installed"
  | some t =>
    if t ∈ s.goneTunnels then .error "the UDP tunnel carrying dynamic channels is gone"
    else .ok { s with tunnel := s.tunnel ++ messages.map fun bytes => (t, bytes) }

def flushTunnelBacklog : Except String (RdpServer P) :=
  if s.tunnelBacklog = [] then .ok s
  else if !s.drdynvc.softSyncResponseReceived then .ok s
  else { s with tunnelBacklog := [] }.sendToTunnel s.tunnelBacklog

def routeEach (d : DrdynvcServer P) : List ServerPdu → Except String (List Bytes × List ServerPdu)
  | [] => .ok ([], [])
  | message :: messages => do
    let unframed ← ofEncode message.encode
    let (tunneled, direct) ← routeEach d messages
    if (d.outgoingTunnel unframed).isSome then return (unframed :: tunneled, direct)
    else return (tunneled, message :: direct)

def routeDvcMessages (d : DrdynvcServer P) (messages : List ServerPdu) :
    Except String (List Bytes × List ServerPdu) :=
  if !d.tunnelsChannels then .ok ([], messages) else routeEach d messages

def writeDvcMessages (messages : List ServerPdu) : Except String (RdpServer P) := do
  let (tunneled, direct) ← routeDvcMessages s.drdynvc messages
  let _ ← ofEncode (direct.mapM ServerPdu.encode)
  flushTunnelBacklog { s with
    tcp := s.tcp ++ direct
    tunnelBacklog := s.tunnelBacklog ++ tunneled
    handed := s.handed ++ messages.map s.hand }

/-! ### Soft-Sync -/

def softSync (toTunnel : ℕ) : Except String (RdpServer P) :=
  let ids := s.drdynvc.openChannelIds
  if ids = [] ∨ s.drdynvc.creationsOutstanding then
    .ok { s with pendingSoftSync := some toTunnel }
  else do
    let (request, d) ← s.drdynvc.requestReliableUdp ids
    { s with
      drdynvc := d, udpTunnelTx := some toTunnel, moved := some (toTunnel, ids) }.writeDvcMessages
      [request]

def onMultitransportResponse (requestId hrResponse : ℕ) : RdpServer P :=
  if s.multitransportRequestId ≠ some requestId then s
  else if hrResponse = 0 then { s with multitransportConfirmed := true }
  else { s with pendingSoftSync := none }

def resumeSoftSync : Except String (RdpServer P) :=
  match s.multitransportConfirmed, s.pendingSoftSync with
  | true, some toTunnel => { s with pendingSoftSync := none }.softSync toTunnel
  | _, _ => .ok s

/-! ### The steps -/

def withDrdynvc (d : DrdynvcServer P) : RdpServer P := { s with drdynvc := d }

section processors

variable [DvcProcessor P]

variable (s : RdpServer P)

def handleDrdynvc (payload : Bytes) : Except String (RdpServer P) := do
  let (responses, d) ← s.drdynvc.process payload
  let s ← (s.withDrdynvc d).writeDvcMessages responses
  let s ← s.flushTunnelBacklog
  s.resumeSoftSync

def softSyncToUdp (toTunnel : ℕ) : Except String (RdpServer P) :=
  if s.udpTunnelTx.isSome ∨ s.drdynvc.tunnelsChannels then .ok s
  else if s.multitransportConfirmed then s.softSync toTunnel
  else .ok { s with pendingSoftSync := some toTunnel }

def openDynamicChannel (build : ℕ → P) : Except String (RdpServer P) := do
  let (request, d) ← s.drdynvc.createChannel build
  match request with
  | none => return s.withDrdynvc d
  | some request => (s.withDrdynvc d).writeDvcMessages [request]

variable (channelId : ℕ)

def closeDynamicChannel : Except String (RdpServer P) :=
  match s.drdynvc.closeChannel channelId with
  | (none, d) => .ok (s.withDrdynvc d)
  | (some close, d) => (s.withDrdynvc d).writeDvcMessages [close]

def udpTunnelClosed : Except String (RdpServer P) :=
  if s.drdynvc.tunnelsChannels then .error "the UDP tunnel carrying dynamic channels closed"
  else .ok { s with udpTunnelTx := none, pendingSoftSync := none }

def udpTunnelData (frame : Bytes) : Except String (RdpServer P) := do
  let (responses, d) ← s.drdynvc.processTunnel frame
  if responses = [] then return s.withDrdynvc d
  else (s.withDrdynvc d).writeDvcMessages responses

def echo (request : Bytes) : Except String (RdpServer P) :=
  if s.drdynvc.isChannelOpened channelId then do
    let messages ← ofEncode (encodeDvcMessages channelId [request])
    s.writeDvcMessages messages
  else .ok s

/-- `UrbdrcServerMessage::Device`: the channel is closed before what it has to say is written. -/
def usbDevice (messages : List Bytes) (retract : Bool) : Except String (RdpServer P) :=
  if s.drdynvc.isChannelOpened channelId then do
    let pdus ← ofEncode (encodeDvcMessages channelId messages)
    if retract then
      match s.drdynvc.closeChannel channelId with
      | (none, _) => .error "URBDRC dynamic channel disappeared before close"
      | (some close, d) => (s.withDrdynvc d).writeDvcMessages (pdus ++ [close])
    else s.writeDvcMessages pdus
  else .ok s

def egfx (messages : List Bytes) (isCurrent : Bool) :
    Except String (RdpServer P) := do
  let pdus ← ofEncode (encodeDvcMessages channelId messages)
  if isCurrent then s.writeDvcMessages pdus else return s

def serve : Step P → Except String (RdpServer P)
  | .drdynvcPdu payload => s.handleDrdynvc payload
  | .multitransportResponse requestId hrResponse =>
    (s.onMultitransportResponse requestId hrResponse).resumeSoftSync
  | .otherPdu => s.resumeSoftSync
  | .softSyncToUdp toTunnel => s.softSyncToUdp toTunnel
  | .openDynamicChannel build => s.openDynamicChannel build
  | .closeDynamicChannel channelId => s.closeDynamicChannel channelId
  | .udpTunnelClosed => s.udpTunnelClosed
  | .udpTunnelData frame => s.udpTunnelData frame
  | .echo channelId request => s.echo channelId request
  | .usbDevice channelId messages retract => s.usbDevice channelId messages retract
  | .egfx channelId messages isCurrent => s.egfx channelId messages isCurrent
  | .processorChanges channelId processor =>
    .ok (s.withDrdynvc (s.drdynvc.modify channelId fun c => { c with processor := processor }))
  | .pumpEnds tunnel => .ok { s with goneTunnels := tunnel :: s.goneTunnels }

end processors

end RdpServer

/-! ### Runs -/

section

variable {P : Type} [DvcProcessor P]

def start (processors : List P) (requestId : Option ℕ) : RdpServer P where
  drdynvc :=
    { (new : DrdynvcServer P) with
      dynamicChannels := processors.mapIdx fun id p => ⟨.pending, p, .new, id, false⟩
      nextChannelId := processors.length }
  udpTunnelTx := none
  tunnelBacklog := []
  multitransportConfirmed := false
  multitransportRequestId := requestId
  pendingSoftSync := none
  goneTunnels := []
  tcp := []
  tunnel := []
  moved := none
  handed := []

def after (processors : List P) (requestId : Option ℕ) (steps : List (Step P)) :
    Except String (RdpServer P) := steps.foldlM RdpServer.serve (start processors requestId)

def tunnelFrames (steps : List (Step P)) : List Bytes :=
  steps.filterMap fun
    | .udpTunnelData frame => some frame
    | _ => none

end

end Linrdp.Dvc.Transport
