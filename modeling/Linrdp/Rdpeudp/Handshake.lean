import Linrdp.Rdpeudp.Pdu

/-!
# Handshake datagrams

The version 1 datagrams of `ironrdp-rdpeudp/src/pdu`, which carry the three-way handshake. All
numbers are big-endian. A SYN+ACK sets the ACK flag without an acknowledgement vector, and the
cookie hash is read and written only in a client's SYN of version 3.
-/

namespace Linrdp.Rdpeudp.Handshake

open Lib.Bytes Rdpeudp.Pdu

def toBe (w n : ℕ) : Bytes := (toLe w n).reverse

def uintBe (w : ℕ) (src : Bytes) : ℕ := ofLe (src.take w).reverse

@[simp] theorem length_toBe (w n : ℕ) : (toBe w n).length = w := by
  rw [toBe, List.length_reverse, length_toLe]

/-! ### The header -/

structure V1Flags where
  (syn fin ack data fec cn cwr sackOption ackOfAcks synlossy ackdelayed correlationId synex : Bool)

namespace V1Flags

def empty : V1Flags :=
  ⟨false, false, false, false, false, false, false, false, false, false, false, false, false⟩

def bits (f : V1Flags) : ℕ :=
  cond f.syn 0x0001 0 + cond f.fin 0x0002 0 + cond f.ack 0x0004 0 + cond f.data 0x0008 0 +
    cond f.fec 0x0010 0 + cond f.cn 0x0020 0 + cond f.cwr 0x0040 0 + cond f.sackOption 0x0080 0 +
    cond f.ackOfAcks 0x0100 0 + cond f.synlossy 0x0200 0 + cond f.ackdelayed 0x0400 0 +
    cond f.correlationId 0x0800 0 + cond f.synex 0x1000 0

def fromBitsTruncate (n : ℕ) : V1Flags :=
  ⟨n.testBit 0, n.testBit 1, n.testBit 2, n.testBit 3, n.testBit 4, n.testBit 5, n.testBit 6,
    n.testBit 7, n.testBit 8, n.testBit 9, n.testBit 10, n.testBit 11, n.testBit 12⟩

end V1Flags

structure FecHeader where
  snSourceAck : UInt32
  receiveWindowSize : UInt16
  flags : V1Flags

variable (src : Bytes)

namespace FecHeader

def encode (h : FecHeader) : Bytes :=
  toBe 4 h.snSourceAck.toNat ++ (toBe 2 h.receiveWindowSize.toNat ++ toBe 2 h.flags.bits)

def decode : Except DecodeError (FecHeader × Bytes) := do
  ensureSize src 8
  return (⟨.ofNat (uintBe 4 src), .ofNat (uintBe 2 (src.drop 4)),
    .fromBitsTruncate (uintBe 2 (src.drop 6))⟩, src.drop 8)

/-- The low flags are in the eighth byte, where the prefix byte of a version 2 datagram is. -/
theorem flags_of_decode {wire rest : Bytes} {header : FecHeader}
    (h : decode wire = .ok (header, rest)) :
    header.flags.syn = (wire.getD 7 0).toNat.testBit 0 ∧
      header.flags.ack = (wire.getD 7 0).toNat.testBit 2 := by
  unfold decode at h
  obtain ⟨_, hsize, hheader⟩ := bind_ok h
  obtain ⟨a, b, c, d, e, f, g, i, rest, rfl⟩ := eight_bytes (le_of_ensureSize hsize)
  cases hheader
  have hword : uintBe 2 (g :: i :: rest) = 2 ^ 8 * g.toNat + i.toNat := by
    simp [uintBe, ofLe, Nat.add_comm]
  have hlow : ∀ k < 8, (uintBe 2 (g :: i :: rest)).testBit k = i.toNat.testBit k := by
    intro k hk
    rw [hword, Nat.testBit_two_pow_mul_add _ i.toNat_lt, if_pos hk]
  exact ⟨hlow 0 (by omega), hlow 2 (by omega)⟩

end FecHeader

/-! ### The sections -/

inductive VectorElementState
  | datagramReceived | reserved1 | reserved2 | datagramNotYetReceived

namespace VectorElementState

def toBits : VectorElementState → ℕ
  | datagramReceived => 0
  | reserved1 => 1
  | reserved2 => 2
  | datagramNotYetReceived => 3

def fromBits (bits : ℕ) : VectorElementState :=
  match bits % 4 with
  | 0 => datagramReceived
  | 1 => reserved1
  | 2 => reserved2
  | _ => datagramNotYetReceived

end VectorElementState

structure V1AckVectorElement where
  state : VectorElementState
  length : UInt8

namespace V1AckVectorElement

def toByte (e : V1AckVectorElement) : UInt8 := .ofNat (e.state.toBits * 64 + e.length.toNat % 64)

def fromByte (byte : UInt8) : V1AckVectorElement :=
  ⟨.fromBits (byte.toNat / 64), .ofNat (byte.toNat % 64)⟩

end V1AckVectorElement

structure V1AckVectorHeader where
  elements : List V1AckVectorElement

namespace V1AckVectorHeader

def maxAckVectorSize : ℕ := 2048

def paddingLen (elementCount : ℕ) : ℕ := (4 - (2 + elementCount) % 4) % 4

def encode (v : V1AckVectorHeader) : Except EncodeError Bytes :=
  if v.elements.length > maxAckVectorSize then
    .error (.invalidField "RDPUDP_ACK_VECTOR_HEADER" "uAckVectorSize"
      "ack vector must not exceed 2048 bytes")
  else
    .ok (toBe 2 v.elements.length ++ (v.elements.map V1AckVectorElement.toByte ++
      List.replicate (paddingLen v.elements.length) 0))

def decodeElements (count : ℕ) (src : Bytes) : Except DecodeError (V1AckVectorHeader × Bytes) :=
  if count > maxAckVectorSize then
    .error (.invalidField "RDPUDP_ACK_VECTOR_HEADER" "uAckVectorSize"
      "ack vector must not exceed 2048 bytes")
  else do
    ensureSize src (count + paddingLen count)
    return (⟨(src.take count).map .fromByte⟩, src.drop (count + paddingLen count))

def decode : Except DecodeError (V1AckVectorHeader × Bytes) := do
  ensureSize src 2
  decodeElements (uintBe 2 src) (src.drop 2)

end V1AckVectorHeader

structure V1AckOfAcksHeader where
  resetSeqNum : UInt32

def V1AckOfAcksHeader.decode : Except DecodeError (V1AckOfAcksHeader × Bytes) := do
  ensureSize src 4
  return (⟨.ofNat (uintBe 4 src)⟩, src.drop 4)

/-- The 16 bytes of the identifier; 16 reserved bytes follow. -/
structure CorrelationIdPayload where
  correlationId : Bytes

def CorrelationIdPayload.decode : Except DecodeError (CorrelationIdPayload × Bytes) := do
  ensureSize src 32
  return (⟨src.take 16⟩, src.drop 32)

def mtuMin : ℕ := 1132

def mtuMax : ℕ := 1232

structure SynDataPayload where
  initialSequenceNumber : UInt32
  (upstreamMtu downstreamMtu : UInt16)

namespace SynDataPayload

def mtuValid (value : UInt16) : Bool := mtuMin ≤ value.toNat && value.toNat ≤ mtuMax

def encode (p : SynDataPayload) : Except EncodeError Bytes :=
  if !mtuValid p.upstreamMtu then
    .error (.invalidField "RDPUDP_SYNDATA_PAYLOAD" "uUpStreamMtu" "mtu must be in 1132..=1232")
  else if !mtuValid p.downstreamMtu then
    .error (.invalidField "RDPUDP_SYNDATA_PAYLOAD" "uDownStreamMtu" "mtu must be in 1132..=1232")
  else
    .ok (toBe 4 p.initialSequenceNumber.toNat ++
      (toBe 2 p.upstreamMtu.toNat ++ toBe 2 p.downstreamMtu.toNat))

def check (p : SynDataPayload) (rest : Bytes) : Except DecodeError (SynDataPayload × Bytes) :=
  if !mtuValid p.upstreamMtu then
    .error (.invalidField "RDPUDP_SYNDATA_PAYLOAD" "uUpStreamMtu" "mtu must be in 1132..=1232")
  else if !mtuValid p.downstreamMtu then
    .error (.invalidField "RDPUDP_SYNDATA_PAYLOAD" "uDownStreamMtu" "mtu must be in 1132..=1232")
  else .ok (p, rest)

def decode : Except DecodeError (SynDataPayload × Bytes) := do
  ensureSize src 8
  check ⟨.ofNat (uintBe 4 src), .ofNat (uintBe 2 (src.drop 4)), .ofNat (uintBe 2 (src.drop 6))⟩
    (src.drop 8)

end SynDataPayload

structure UdpVersion where
  value : UInt16
deriving DecidableEq

namespace UdpVersion

def v1 : UdpVersion := ⟨0x0001⟩

def v3 : UdpVersion := ⟨0x0101⟩

def usesV2WireFormat (v : UdpVersion) : Bool := v == v3

end UdpVersion

/-- Of the flags only `VERSION_INFO_VALID` is defined. -/
structure SynDataExPayload where
  versionInfoValid : Bool
  udpVer : UdpVersion
  cookieHash : Option Bytes

namespace SynDataExPayload

def encode (p : SynDataExPayload) : Except EncodeError Bytes :=
  if p.cookieHash.isSome && p.udpVer != .v3 then
    .error (.invalidField "RDPUDP_SYNDATAEX_PAYLOAD" "cookieHash"
      "is only carried when uUdpVer is version 3")
  else
    .ok (toBe 2 (cond p.versionInfoValid 1 0) ++
      (toBe 2 p.udpVer.value.toNat ++ p.cookieHash.getD []))

def decodeCookieHash : Except DecodeError (Bytes × Bytes) := do
  ensureSize src 32
  return (src.take 32, src.drop 32)

def decodeDirectional (isClientSyn : Bool) (src : Bytes) :
    Except DecodeError (SynDataExPayload × Bytes) := do
  ensureSize src 4
  let udpVer : UdpVersion := ⟨.ofNat (uintBe 2 (src.drop 2))⟩
  let (cookieHash, rest) ← readOptional (isClientSyn && udpVer == .v3) decodeCookieHash (src.drop 4)
  return (⟨(uintBe 2 src).testBit 0, udpVer, cookieHash⟩, rest)

end SynDataExPayload

/-! ### Datagrams -/

structure V1Datagram where
  header : FecHeader
  ackVector : Option V1AckVectorHeader
  ackOfAcks : Option V1AckOfAcksHeader
  synData : Option SynDataPayload
  correlationId : Option CorrelationIdPayload
  synDataEx : Option SynDataExPayload

namespace V1Datagram

variable (d : V1Datagram)

/-- The flags of the sections; those that announce none are the caller's, and so is the ACK flag of
a SYN. -/
def computeFlags : V1Flags :=
  { d.header.flags with
    syn := d.synData.isSome
    ack := d.ackVector.isSome || (d.synData.isSome && d.header.flags.ack)
    data := false
    fec := false
    ackOfAcks := d.ackOfAcks.isSome
    correlationId := d.correlationId.isSome
    synex := d.synDataEx.isSome }

def encodeSections : Except EncodeError Bytes := do
  let ackVector ← writeOptional V1AckVectorHeader.encode d.ackVector
  let ackOfAcks := d.ackOfAcks.elim [] fun a => toBe 4 a.resetSeqNum.toNat
  let synData ← writeOptional SynDataPayload.encode d.synData
  let correlationId := d.correlationId.elim [] fun c => c.correlationId ++ List.replicate 16 0
  let synDataEx ← writeOptional SynDataExPayload.encode d.synDataEx
  return ackVector ++ (ackOfAcks ++ (synData ++ (correlationId ++ synDataEx)))

/-- The decoder looks for a cookie hash in a client's SYN of version 3 only. -/
def cookieHashMisplaced (ex : SynDataExPayload) : Bool :=
  let isClientSyn := d.computeFlags.syn && !d.computeFlags.ack
  ex.cookieHash.isSome != (isClientSyn && ex.udpVer == .v3)

def encode : Except EncodeError Bytes :=
  if d.synData.isSome && d.ackVector.isSome then
    .error (.invalidField "V1 Datagram" "ack_vector" "a SYN datagram cannot carry an ACK vector")
  else if d.synDataEx.any d.cookieHashMisplaced then
    .error (.invalidField "V1 Datagram" "syn_data_ex"
      "cookieHash must be present if and only if this is a version 3 client-to-server SYN")
  else
    d.encodeSections.map fun sections =>
      FecHeader.encode { d.header with flags := d.computeFlags } ++ sections

def decodeSections (header : FecHeader) (src : Bytes) : Except DecodeError V1Datagram := do
  let flags := header.flags
  let (ackVector, src) ← readOptional (flags.ack && !flags.syn) V1AckVectorHeader.decode src
  let (ackOfAcks, src) ← readOptional flags.ackOfAcks V1AckOfAcksHeader.decode src
  let (synData, src) ← readOptional flags.syn SynDataPayload.decode src
  let (correlationId, src) ← readOptional flags.correlationId CorrelationIdPayload.decode src
  let (synDataEx, _) ←
    readOptional flags.synex (SynDataExPayload.decodeDirectional (flags.syn && !flags.ack)) src
  return ⟨header, ackVector, ackOfAcks, synData, correlationId, synDataEx⟩

/-- There is no data transfer of version 1. -/
def decodeBody (header : FecHeader) (src : Bytes) : Except DecodeError V1Datagram :=
  if header.flags.data then
    .error (.invalidField "V1 Datagram" "flags" "DATA flag is not supported in handshake datagrams")
  else if header.flags.fec then
    .error (.invalidField "V1 Datagram" "flags" "FEC flag is not supported in handshake datagrams")
  else decodeSections header src

def decode : Except DecodeError V1Datagram := do
  let (header, src) ← FecHeader.decode src
  decodeBody header src

theorem decode_ok {wire : Bytes} {d : V1Datagram} (h : decode wire = .ok d) :
    ∃ rest, FecHeader.decode wire = .ok (d.header, rest) ∧ ∃ src rest,
      readOptional d.header.flags.syn SynDataPayload.decode src = .ok (d.synData, rest) := by
  unfold decode at h
  obtain ⟨⟨header, rest⟩, hheader, hbody⟩ := bind_ok h
  dsimp only [decodeBody] at hbody
  split_ifs at hbody
  unfold decodeSections at hbody
  obtain ⟨_, -, hbody⟩ := bind_ok hbody
  obtain ⟨⟨_, src⟩, -, hbody⟩ := bind_ok hbody
  obtain ⟨⟨synData, rest'⟩, hsyn, hbody⟩ := bind_ok hbody
  obtain ⟨_, -, hbody⟩ := bind_ok hbody
  obtain ⟨_, -, hbody⟩ := bind_ok hbody
  cases hbody
  exact ⟨rest, hheader, src, rest', hsyn⟩

/-- A SYN that was decoded offers MTUs of the protocol's range. -/
theorem mtuMin_le_of_decode {wire : Bytes} {d : V1Datagram} (h : decode wire = .ok d) :
    ∀ synData ∈ d.synData, mtuMin ≤ synData.upstreamMtu.toNat ∧
    mtuMin ≤ synData.downstreamMtu.toNat := by
  obtain ⟨-, -, src, rest, hsyn⟩ := decode_ok h
  intro synData hsome
  rw [Option.mem_def] at hsome
  rw [hsome, readOptional] at hsyn
  split_ifs at hsyn
  · rcases hdecode : SynDataPayload.decode src with e | ⟨payload, after⟩
    · rw [hdecode] at hsyn
      cases hsyn
    · rw [hdecode] at hsyn
      cases hsyn
      obtain ⟨_, -, hcheck⟩ := bind_ok hdecode
      unfold SynDataPayload.check at hcheck
      split_ifs at hcheck with hup hdown
      cases hcheck
      simp only [SynDataPayload.mtuValid, Bool.not_eq_true', Bool.not_eq_false, Bool.and_eq_true,
        decide_eq_true_eq] at hup hdown
      exact ⟨hup.1, hdown.1⟩
  · cases hsyn

end V1Datagram

/-! ### Handshake datagrams as version 2 packets -/

def Refused (wire : Bytes) : Prop := ∃ e, decodeDatagram wire = .error e

end Linrdp.Rdpeudp.Handshake
