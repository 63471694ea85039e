import Mathlib.Data.List.Sort
import Linrdp.Egfx.Server

/-!
# Capability negotiation

The sets the client advertises against the ladder the server prefers: the highest version both have,
with the flags of both, except that a client which disabled AVC keeps it disabled. Sets of a version
the server does not know, and those that do not parse, were skipped before.
-/

namespace Linrdp.Egfx.Capabilities

open Egfx.Server (CodecCapabilities)

inductive CapabilityVersion
  | v8 | v8_1 | v10 | v10_1 | v10_2 | v10_3 | v10_4 | v10_5 | v10_6 | v10_6Err | v10_7
deriving DecidableEq

/-- A capability set; version 10.1 has no flags, and its field is zero. -/
structure CapabilitySet where
  version : CapabilityVersion
  flags : BitVec 32

def smallCache : BitVec 32 := 0x02

def avc420Enabled : BitVec 32 := 0x10

def avcDisabled : BitVec 32 := 0x20

def avcThinClient : BitVec 32 := 0x40

variable (cap : CapabilitySet)

def CapabilitySet.contains (flag : BitVec 32) : Bool := cap.flags &&& flag == flag

def fromCapabilitySet : CodecCapabilities :=
  match cap.version with
  | .v8 => ⟨false, false, false⟩
  | .v8_1 => ⟨cap.contains avc420Enabled, false, false⟩
  | .v10_1 => ⟨true, true, false⟩
  | .v10 | .v10_2 | .v10_3 | .v10_4 | .v10_5 =>
    ⟨!cap.contains avcDisabled, !cap.contains avcDisabled, false⟩
  | .v10_6 | .v10_6Err | .v10_7 => ⟨!cap.contains avcDisabled, !cap.contains avcDisabled, true⟩

def capabilityPriority : ℕ :=
  match cap.version with
  | .v10_7 => 12
  | .v10_6Err => 11
  | .v10_6 => 10
  | .v10_5 => 9
  | .v10_4 => 8
  | .v10_3 => 7
  | .v10_2 => 6
  | .v10_1 => 5
  | .v10 => 4
  | .v8_1 => 3
  | .v8 => 2

def intersectFlags (client server : CapabilitySet) : CapabilitySet :=
  match server.version with
  | .v8 | .v8_1 => { server with flags := client.flags &&& server.flags }
  | .v10_1 => server
  | _ => { server with flags := (client.flags &&& server.flags) ||| (client.flags &&& avcDisabled) }

def sanitizeCapabilitiesForConfirm : CapabilitySet :=
  match cap.version with
  | .v10_3 | .v10_4 | .v10_5 | .v10_6 | .v10_6Err | .v10_7 =>
    if cap.contains avcDisabled then { cap with flags := cap.flags &&& ~~~avcThinClient } else cap
  | _ => cap

variable (clientCaps serverCaps : List CapabilitySet)

def negotiateCapabilities : Option CapabilitySet :=
  (serverCaps.mergeSort fun a b => capabilityPriority b ≤ capabilityPriority a).findSome?
    fun serverCap =>
    (clientCaps.find? fun clientCap => clientCap.version == serverCap.version).map fun clientCap =>
      sanitizeCapabilitiesForConfirm (intersectFlags clientCap serverCap)

/-- The default of the handler, which the session's handler keeps. -/
def preferredCapabilities : List CapabilitySet :=
  [⟨.v10_7, smallCache⟩, ⟨.v10_6Err, smallCache⟩, ⟨.v10_6, smallCache⟩, ⟨.v10_5, smallCache⟩,
    ⟨.v10_4, smallCache⟩, ⟨.v10_3, 0⟩, ⟨.v10_2, smallCache⟩, ⟨.v10_1, 0⟩, ⟨.v10, smallCache⟩,
    ⟨.v8_1, avc420Enabled ||| smallCache⟩, ⟨.v8, smallCache⟩]

def Shared : Prop :=
  ∃ clientCap ∈ clientCaps, ∃ serverCap ∈ serverCaps, clientCap.version = serverCap.version

theorem negotiateCapabilities_isSome :
    (negotiateCapabilities clientCaps serverCaps).isSome ↔ Shared clientCaps serverCaps := by
  unfold negotiateCapabilities Shared
  rw [List.isSome_findSome?]
  simp only [List.any_eq_true, List.mem_mergeSort, Option.isSome_map, List.find?_isSome, beq_iff_eq]
  constructor
  · rintro ⟨serverCap, hserver, clientCap, hclient, heq⟩
    exact ⟨clientCap, hclient, serverCap, hserver, heq⟩
  · rintro ⟨clientCap, hclient, serverCap, hserver, heq⟩
    exact ⟨serverCap, hserver, clientCap, hclient, heq⟩

end Linrdp.Egfx.Capabilities
