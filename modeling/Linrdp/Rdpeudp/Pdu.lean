import Linrdp.Lib.Bytes

/-!
# RDP-UDP2 packets

The version 2 packets of `ironrdp-rdpeudp/src/pdu` as bytes: a header whose flags say which sections
follow, the sections in order, the data body last; and the prefix byte of `prefix.rs`, which changes
places with the eighth byte of the datagram. `decodeDatagram_encode`: what a receiver decodes from
the encoding of a packet is the packet, with the flags the encoder derived. There is one lemma for
each section.
-/

namespace Linrdp.Rdpeudp.Pdu

open List Lib.Bytes

abbrev Bytes := List UInt8

inductive DecodeError
  | notEnoughBytes (received expected : ℕ)
  | invalidField (context field reason : String)
deriving DecidableEq

inductive EncodeError
  | invalidField (context field reason : String)
deriving DecidableEq

/-! ### Reading and writing -/

variable (src : Bytes)

def ensureSize (size : ℕ) : Except DecodeError Unit :=
  if size ≤ src.length then .ok () else .error (.notEnoughBytes src.length size)

/-- The number in the first `w` bytes, once `ensureSize` has seen that they are there. -/
def uint (w : ℕ) (src : Bytes) : ℕ := ofLe (src.take w)

def readOptional {α : Type} (present : Bool) (decode : Bytes → Except DecodeError (α × Bytes))
    (src : Bytes) : Except DecodeError (Option α × Bytes) :=
  if present then (decode src).map fun r => (some r.1, r.2) else .ok (none, src)

def writeOptional {α : Type} (encode : α → Except EncodeError Bytes) :
    Option α → Except EncodeError Bytes
  | none => .ok []
  | some a => encode a

theorem bind_ok {ε α β : Type} {x : Except ε α} {f : α → Except ε β} {b : β}
    (h : x >>= f = .ok b) : ∃ a, x = .ok a ∧ f a = .ok b := by
  rcases x with e | a
  · cases h
  · exact ⟨a, rfl, h⟩

theorem isSome_of_readOptional {α : Type} {present : Bool}
    {decode : Bytes → Except DecodeError (α × Bytes)} {src rest : Bytes} {o : Option α}
    (h : readOptional present decode src = .ok (o, rest)) : o.isSome = present := by
  unfold readOptional at h
  split_ifs at h with hpresent
  · rcases hdecode : decode src with e | r
    · rw [hdecode] at h
      cases h
    · rw [hdecode] at h
      cases h
      exact hpresent.symm
  · cases h
    exact (Bool.eq_false_iff.2 hpresent).symm

theorem le_of_ensureSize {src : Bytes} {size : ℕ} {u : Unit} (h : ensureSize src size = .ok u) :
    size ≤ src.length := by
  unfold ensureSize at h
  split_ifs at h with hle
  exact hle

theorem ensureSize_of_le {src : Bytes} {size : ℕ} (h : size ≤ src.length) :
    ensureSize src size = .ok () :=
  if_pos h

theorem uint_toLe {w n : ℕ} (h : n < 256 ^ w) (rest : Bytes) : uint w (toLe w n ++ rest) = n := by
  rw [uint, take_left' (length_toLe w n), ofLe_toLe h]

theorem drop_toLe {w k : ℕ} (h : w ≤ k) (n : ℕ) (rest : Bytes) :
    (toLe w n ++ rest).drop k = rest.drop (k - w) := by
  rw [drop_append, length_toLe, drop_eq_nil_of_le (by rwa [length_toLe]), nil_append]

def Readable {α : Type} (encode : α → Except EncodeError Bytes)
    (decode : Bytes → Except DecodeError (α × Bytes)) (a : α) : Prop :=
  ∃ bytes, encode a = .ok bytes ∧ ∀ rest, decode (bytes ++ rest) = .ok (a, rest)

theorem Readable.optional {α : Type} {encode : α → Except EncodeError Bytes}
    {decode : Bytes → Except DecodeError (α × Bytes)} {o : Option α}
    (h : ∀ a ∈ o, Readable encode decode a) :
    ∃ bytes, writeOptional encode o = .ok bytes ∧
      ∀ rest, readOptional o.isSome decode (bytes ++ rest) = .ok (o, rest) := by
  rcases o with _ | a
  · exact ⟨[], rfl, fun rest => rfl⟩
  · obtain ⟨bytes, hwrite, hread⟩ := h a rfl
    refine ⟨bytes, hwrite, fun rest => ?_⟩
    rw [Option.isSome_some, readOptional, if_pos rfl, hread]
    rfl

/-! ### The header -/

/-- `V2Flags`: every flag announces a section. -/
structure V2Flags where
  (ack data ackvec aoa overheadSize delayAckInfo : Bool)

namespace V2Flags

variable (f : V2Flags)

def bits : ℕ :=
  cond f.ack 0x001 0 + cond f.data 0x004 0 + cond f.ackvec 0x008 0 + cond f.aoa 0x010 0 +
    cond f.overheadSize 0x040 0 + cond f.delayAckInfo 0x100 0

def fromBitsTruncate (n : ℕ) : V2Flags :=
  ⟨n.testBit 0, n.testBit 2, n.testBit 3, n.testBit 4, n.testBit 6, n.testBit 8⟩

def ackFlagsValid : Bool := !(f.ack && f.ackvec)

theorem fromBitsTruncate_bits : fromBitsTruncate f.bits = f := by
  rcases f with ⟨_ | _, _ | _, _ | _, _ | _, _ | _, _ | _⟩ <;> rfl

theorem bits_lt : f.bits < 4096 := by
  rcases f with ⟨_ | _, _ | _, _ | _, _ | _, _ | _, _ | _⟩ <;> decide

end V2Flags

def logWindowSizeMax : ℕ := 15

structure V2Header where
  flags : V2Flags
  logWindowSize : ℕ

namespace V2Header

def toWire (h : V2Header) : ℕ := h.flags.bits + 4096 * (h.logWindowSize % 16)

def fromWire (wire : ℕ) : Except DecodeError V2Header :=
  let flags := V2Flags.fromBitsTruncate (wire % 4096)
  if flags.ackFlagsValid then .ok ⟨flags, wire / 4096 % 16⟩
  else .error (.invalidField "RDP-UDP2 Packet Header" "flags"
    "ACK and ACKVEC are mutually exclusive")

def encode (h : V2Header) : Except EncodeError Bytes :=
  if h.logWindowSize > logWindowSizeMax then
    .error (.invalidField "RDP-UDP2 Packet Header" "log_window_size" "exceeds 4-bit maximum (15)")
  else if !h.flags.ackFlagsValid then
    .error (.invalidField "RDP-UDP2 Packet Header" "flags" "ACK and ACKVEC are mutually exclusive")
  else .ok (toLe 2 h.toWire)

def decode : Except DecodeError (V2Header × Bytes) := do
  ensureSize src 2
  let header ← fromWire (uint 2 src)
  return (header, src.drop 2)

theorem readable {h : V2Header} (hlog : h.logWindowSize ≤ logWindowSizeMax)
    (hflags : h.flags.ackFlagsValid) : Readable encode decode h := by
  have hbits := h.flags.bits_lt
  have hmod : h.logWindowSize % 16 = h.logWindowSize := Nat.mod_eq_of_lt (Nat.lt_succ_of_le hlog)
  have hwire : h.toWire < 256 ^ 2 := by
    unfold toWire
    omega
  have hfrom : fromWire h.toWire = .ok h := by
    have hlow : h.toWire % 4096 = h.flags.bits := by
      unfold toWire
      omega
    have hhigh : h.toWire / 4096 % 16 = h.logWindowSize := by
      unfold toWire
      omega
    rw [fromWire, hlow, hhigh, V2Flags.fromBitsTruncate_bits]
    exact if_pos hflags
  refine ⟨toLe 2 h.toWire, ?_, fun rest => ?_⟩
  · rw [encode, if_neg (Nat.not_lt.2 hlog), if_neg (by simp [hflags])]
  · rw [decode, ensureSize_of_le (by simp), uint_toLe hwire, hfrom, drop_toLe le_rfl]
    rfl

theorem ackFlagsValid_of_decode {src rest : Bytes} {h : V2Header}
    (hdecode : decode src = .ok (h, rest)) : h.flags.ackFlagsValid := by
  obtain ⟨_, -, hdecode⟩ := bind_ok hdecode
  obtain ⟨header, hfrom, hdecode⟩ := bind_ok hdecode
  cases hdecode
  unfold fromWire at hfrom
  dsimp only at hfrom
  split_ifs at hfrom with hvalid
  cases hfrom
  exact hvalid

end V2Header

/-! ### Acknowledgements -/

structure AckPayload where
  seqNum : UInt16
  receivedTs : UInt32
  (sendAckTimeGap delayAckTimeScale : UInt8)
  delayAckTimeAdditions : Bytes

namespace AckPayload

/-- Of the timestamp the lower 24 bits go out, of the scale the lower four. -/
def encode (a : AckPayload) : Except EncodeError Bytes :=
  if a.delayAckTimeAdditions.length > 15 then
    .error (.invalidField "AckPayload" "numDelayedAcks" "exceeds 4-bit maximum (15)")
  else
    let packed := a.delayAckTimeScale.toNat % 16 * 16 + a.delayAckTimeAdditions.length
    .ok (toLe 2 a.seqNum.toNat ++ (toLe 3 a.receivedTs.toNat ++ (toLe 1 a.sendAckTimeGap.toNat ++
      (toLe 1 packed ++ a.delayAckTimeAdditions))))

def decode : Except DecodeError (AckPayload × Bytes) := do
  ensureSize src 7
  let packed := uint 1 (src.drop 6)
  let additionsLen := packed % 16
  let additions := src.drop 7
  ensureSize additions additionsLen
  return (⟨.ofNat (uint 2 src), .ofNat (uint 3 (src.drop 2)), .ofNat (uint 1 (src.drop 5)),
    .ofNat (packed / 16), additions.take additionsLen⟩, additions.drop additionsLen)

structure Fits (a : AckPayload) : Prop where
  timestamp : a.receivedTs.toNat < 2 ^ 24
  scale : a.delayAckTimeScale.toNat < 16
  additions : a.delayAckTimeAdditions.length ≤ 15

theorem readable {a : AckPayload} (h : a.Fits) : Readable encode decode a := by
  obtain ⟨hts, hscale, hadd⟩ := h
  replace hts : a.receivedTs.toNat < 256 ^ 3 := hts
  have hseq : a.seqNum.toNat < 256 ^ 2 := a.seqNum.toNat_lt
  have hgap : a.sendAckTimeGap.toNat < 256 ^ 1 := a.sendAckTimeGap.toNat_lt
  have hpacked : a.delayAckTimeScale.toNat % 16 * 16 + a.delayAckTimeAdditions.length <
      256 ^ 1 := by
    omega
  refine ⟨_, if_neg (Nat.not_lt.2 hadd), fun rest => ?_⟩
  simp only [append_assoc]
  generalize hp : a.delayAckTimeScale.toNat % 16 * 16 + a.delayAckTimeAdditions.length = packed at *
  have hlen : packed % 16 = a.delayAckTimeAdditions.length := by omega
  have hscale' : packed / 16 = a.delayAckTimeScale.toNat := by omega
  rw [decode, ensureSize_of_le (by simp only [length_append, length_toLe]; omega)]
  simp (disch := decide) only [drop_toLe, Nat.reduceSub, drop_zero, uint_toLe hseq, uint_toLe hts,
    uint_toLe hgap, uint_toLe hpacked, hlen, hscale']
  rw [ensureSize_of_le (by simp), take_left, drop_left]
  simp [Bind.bind, Except.bind, Pure.pure, Except.pure]

end AckPayload

inductive AckVectorEntry
  | stateMap (bitmap : UInt8)
  | runLength (received : Bool) (length : UInt8)

namespace AckVectorEntry

def toByte : AckVectorEntry → UInt8
  | stateMap bitmap => .ofNat (bitmap.toNat % 128)
  | runLength received length => .ofNat (128 + cond received 64 0 + length.toNat % 64)

def fromByte (byte : UInt8) : AckVectorEntry :=
  if byte.toNat < 128 then .stateMap byte
  else .runLength (byte.toNat % 128 ≥ 64) (.ofNat (byte.toNat % 64))

def Fits : AckVectorEntry → Prop
  | stateMap bitmap => bitmap.toNat ≤ 0x7F
  | runLength _ length => length.toNat ≤ 0x3F

instance : DecidablePred Fits
  | stateMap bitmap => inferInstanceAs (Decidable (bitmap.toNat ≤ 0x7F))
  | runLength _ length => inferInstanceAs (Decidable (length.toNat ≤ 0x3F))

theorem fromByte_toByte {e : AckVectorEntry} (h : e.Fits) : fromByte e.toByte = e := by
  rcases e with ⟨bitmap⟩ | ⟨received, length⟩
  · have hle : bitmap.toNat ≤ 127 := h
    rw [toByte, Nat.mod_eq_of_lt (Nat.lt_succ_of_le hle), UInt8.ofNat_toNat, fromByte, if_pos]
    omega
  · have hle : length.toNat ≤ 63 := h
    have hbyte : (UInt8.ofNat (128 + cond received 64 0 + length.toNat % 64)).toNat =
        128 + cond received 64 0 + length.toNat := by
      rw [UInt8.toNat_ofNat']
      rcases received with _ | _ <;> simp only [cond_true, cond_false] <;> omega
    have hmod : (128 + cond received 64 0 + length.toNat) % 64 = length.toNat := by
      rcases received with _ | _ <;> simp only [cond_true, cond_false] <;> omega
    rw [toByte, fromByte, hbyte, if_neg (by omega), hmod, UInt8.ofNat_toNat]
    rcases received with _ | _
    · simp only [cond_false, runLength.injEq, and_true, decide_eq_false_iff_not]
      omega
    · simp only [cond_true, runLength.injEq, and_true, decide_eq_true_eq]
      omega

/-- The sequence numbers an entry covers, from the lowest up: received or not. -/
def states : AckVectorEntry → List Bool
  | stateMap bitmap => (List.range 7).map fun bitPos => bitmap.toNat.testBit bitPos
  | runLength received length => List.replicate length.toNat received

end AckVectorEntry

def ackVectorMaxEntries : ℕ := 127

structure AckVectorPayload where
  baseSeqNum : UInt16
  timestamp : Option UInt32
  sendAckTimeGapMs : Option UInt8
  entries : List AckVectorEntry

namespace AckVectorPayload

def timeBlock (v : AckVectorPayload) : Bytes :=
  match v.timestamp, v.sendAckTimeGapMs with
  | some ts, some gap => toLe 3 ts.toNat ++ toLe 1 gap.toNat
  | _, _ => []

def encode (v : AckVectorPayload) : Except EncodeError Bytes :=
  match v.entries.find? fun e => !decide e.Fits with
  | some (.stateMap _) =>
    .error (.invalidField "AckVectorPayload" "entries"
      "StateMap bitmap exceeds 7-bit maximum (0x7F)")
  | some (.runLength _ _) =>
    .error (.invalidField "AckVectorPayload" "entries"
      "RunLength length exceeds 6-bit maximum (0x3F)")
  | none =>
    if v.timestamp.isSome ≠ v.sendAckTimeGapMs.isSome then
      .error (.invalidField "AckVectorPayload" "timestamp"
        "timestamp and send_ack_time_gap_ms must be both present or both absent")
    else if v.entries.length > 255 then
      .error (.invalidField "AckVectorPayload" "codedAckVecSize" "too many elements")
    else if v.entries.length > ackVectorMaxEntries then
      .error (.invalidField "AckVectorPayload" "codedAckVecSize" "exceeds 7-bit maximum (127)")
    else
      let packed := v.entries.length + cond v.timestamp.isSome 128 0
      .ok (toLe 2 v.baseSeqNum.toNat ++ (toLe 1 packed ++
        (v.timeBlock ++ v.entries.map AckVectorEntry.toByte)))

def decodeTimeBlock : Except DecodeError ((UInt32 × UInt8) × Bytes) := do
  ensureSize src 4
  return ((.ofNat (uint 3 src), .ofNat (uint 1 (src.drop 3))), src.drop 4)

def decode : Except DecodeError (AckVectorPayload × Bytes) := do
  ensureSize src 3
  let packed := uint 1 (src.drop 2)
  let codedAckVecSize := packed % 128
  let (time, entries) ← readOptional (packed ≥ 128) decodeTimeBlock (src.drop 3)
  ensureSize entries codedAckVecSize
  return (⟨.ofNat (uint 2 src), time.map Prod.fst, time.map Prod.snd,
    (entries.take codedAckVecSize).map .fromByte⟩, entries.drop codedAckVecSize)

structure Fits (v : AckVectorPayload) : Prop where
  entries : ∀ e ∈ v.entries, e.Fits
  count : v.entries.length ≤ ackVectorMaxEntries
  paired : v.timestamp.isSome = v.sendAckTimeGapMs.isSome
  timestamp : ∀ ts ∈ v.timestamp, ts.toNat < 2 ^ 24

theorem decodeTimeBlock_append {ts : UInt32} (h : ts.toNat < 2 ^ 24) (gap : UInt8) (rest : Bytes) :
    decodeTimeBlock (toLe 3 ts.toNat ++ toLe 1 gap.toNat ++ rest) = .ok ((ts, gap), rest) := by
  have hgap : gap.toNat < 256 ^ 1 := gap.toNat_lt
  replace h : ts.toNat < 256 ^ 3 := h
  rw [decodeTimeBlock, append_assoc,
    ensureSize_of_le (by simp only [length_append, length_toLe]; omega)]
  simp (disch := decide) only [drop_toLe, Nat.reduceSub, drop_zero, uint_toLe h, uint_toLe hgap,
    UInt32.ofNat_toNat, UInt8.ofNat_toNat]
  rfl

theorem readTimeBlock {v : AckVectorPayload} (h : v.Fits) (rest : Bytes) :
    readOptional v.timestamp.isSome decodeTimeBlock (v.timeBlock ++ rest) =
      .ok (v.timestamp.bind fun ts => v.sendAckTimeGapMs.map fun gap => (ts, gap), rest) := by
  obtain ⟨-, -, hpaired, hts⟩ := h
  rcases htime : v.timestamp with _ | ts <;> rcases hgap : v.sendAckTimeGapMs with _ | gap <;>
    simp only [htime, hgap, Option.isSome_none, Option.isSome_some, reduceCtorEq] at hpaired
  · rw [timeBlock, htime]
    rfl
  · rw [timeBlock, htime, hgap, Option.isSome_some, readOptional, if_pos rfl,
      decodeTimeBlock_append (hts ts htime)]
    rfl

theorem map_fromByte_toByte {v : AckVectorPayload} (h : v.Fits) :
    (v.entries.map AckVectorEntry.toByte).map AckVectorEntry.fromByte = v.entries := by
  rw [map_map, map_congr_left fun e he => ?_, map_id]
  exact AckVectorEntry.fromByte_toByte (h.entries e he)

theorem encode_eq {v : AckVectorPayload} (h : v.Fits) :
    v.encode = .ok (toLe 2 v.baseSeqNum.toNat ++
      (toLe 1 (v.entries.length + cond v.timestamp.isSome 128 0) ++
        (v.timeBlock ++ v.entries.map AckVectorEntry.toByte))) := by
  have hcount := h.count
  rw [ackVectorMaxEntries] at hcount
  have hfind : v.entries.find? (fun e => !decide e.Fits) = none := by
    rw [find?_eq_none]
    intro e he
    simpa using h.entries e he
  rw [encode, hfind]
  rw [if_neg (not_not.2 h.paired), if_neg (by omega), if_neg (by rw [ackVectorMaxEntries]; omega)]

theorem readable {v : AckVectorPayload} (h : v.Fits) : Readable encode decode v := by
  refine ⟨_, encode_eq h, fun rest => ?_⟩
  have hcount := h.count
  rw [ackVectorMaxEntries] at hcount
  have hbase : v.baseSeqNum.toNat < 256 ^ 2 := v.baseSeqNum.toNat_lt
  have hlen : (v.entries.map AckVectorEntry.toByte).length = v.entries.length := length_map _
  generalize hp : v.entries.length + cond v.timestamp.isSome 128 0 = packed
  have hpacked : packed < 256 ^ 1 ∧ packed % 128 = v.entries.length ∧
      decide (packed ≥ 128) = v.timestamp.isSome := by
    subst hp
    rcases v.timestamp.isSome with _ | _ <;>
      simp only [cond_true, cond_false, decide_eq_true_eq, decide_eq_false_iff_not] <;> omega
  obtain ⟨hlt, hmod, hflag⟩ := hpacked
  simp only [append_assoc]
  rw [decode, ensureSize_of_le (by simp only [length_append, length_toLe]; omega)]
  simp (disch := decide) only [drop_toLe, Nat.reduceSub, drop_zero, uint_toLe hbase, uint_toLe hlt,
    hmod, hflag, readTimeBlock h, Bind.bind, Except.bind]
  rw [ensureSize_of_le (by simp), take_left' hlen, drop_left' hlen, map_fromByte_toByte h,
    UInt16.ofNat_toNat]
  have hpaired := h.paired
  rcases v with ⟨base, _ | ts, _ | gap, entries⟩
  · rfl
  · simp at hpaired
  · simp at hpaired
  · rfl

end AckVectorPayload

/-! ### The other sections -/

structure OverheadSizePayload where
  overheadSize : UInt8

structure DelayAckInfoPayload where
  maxDelayedAcks : UInt8
  delayedAckTimeoutMs : UInt16

structure AckOfAcksPayload where
  ackOfAcksSeqNum : UInt16

structure DataHeader where
  dataSeqNum : UInt16

structure DataBody where
  channelSeqNum : UInt16
  data : Bytes

namespace OverheadSizePayload

def encode (p : OverheadSizePayload) : Except EncodeError Bytes := .ok (toLe 1 p.overheadSize.toNat)

def decode : Except DecodeError (OverheadSizePayload × Bytes) := do
  ensureSize src 1
  return (⟨.ofNat (uint 1 src)⟩, src.drop 1)

theorem readable (p : OverheadSizePayload) : Readable encode decode p := by
  have hlt : p.overheadSize.toNat < 256 ^ 1 := p.overheadSize.toNat_lt
  refine ⟨_, rfl, fun rest => ?_⟩
  rw [decode, ensureSize_of_le (by simp), uint_toLe hlt, drop_toLe le_rfl, UInt8.ofNat_toNat]
  rfl

end OverheadSizePayload

namespace DelayAckInfoPayload

def encode (p : DelayAckInfoPayload) : Except EncodeError Bytes :=
  .ok (toLe 1 p.maxDelayedAcks.toNat ++ toLe 2 p.delayedAckTimeoutMs.toNat)

def decode : Except DecodeError (DelayAckInfoPayload × Bytes) := do
  ensureSize src 3
  return (⟨.ofNat (uint 1 src), .ofNat (uint 2 (src.drop 1))⟩, src.drop 3)

theorem readable (p : DelayAckInfoPayload) : Readable encode decode p := by
  have hacks : p.maxDelayedAcks.toNat < 256 ^ 1 := p.maxDelayedAcks.toNat_lt
  have htimeout : p.delayedAckTimeoutMs.toNat < 256 ^ 2 := p.delayedAckTimeoutMs.toNat_lt
  refine ⟨_, rfl, fun rest => ?_⟩
  rw [decode, append_assoc, ensureSize_of_le (by simp only [length_append, length_toLe]; omega)]
  simp (disch := decide) only [drop_toLe, Nat.reduceSub, drop_zero, uint_toLe hacks,
    uint_toLe htimeout, UInt8.ofNat_toNat, UInt16.ofNat_toNat]
  rfl

end DelayAckInfoPayload

namespace AckOfAcksPayload

def encode (p : AckOfAcksPayload) : Except EncodeError Bytes := .ok (toLe 2 p.ackOfAcksSeqNum.toNat)

def decode : Except DecodeError (AckOfAcksPayload × Bytes) := do
  ensureSize src 2
  return (⟨.ofNat (uint 2 src)⟩, src.drop 2)

theorem readable (p : AckOfAcksPayload) : Readable encode decode p := by
  have hlt : p.ackOfAcksSeqNum.toNat < 256 ^ 2 := p.ackOfAcksSeqNum.toNat_lt
  refine ⟨_, rfl, fun rest => ?_⟩
  rw [decode, ensureSize_of_le (by simp), uint_toLe hlt, drop_toLe le_rfl, UInt16.ofNat_toNat]
  rfl

end AckOfAcksPayload

namespace DataHeader

def encode (p : DataHeader) : Except EncodeError Bytes := .ok (toLe 2 p.dataSeqNum.toNat)

def decode : Except DecodeError (DataHeader × Bytes) := do
  ensureSize src 2
  return (⟨.ofNat (uint 2 src)⟩, src.drop 2)

theorem readable (p : DataHeader) : Readable encode decode p := by
  have hlt : p.dataSeqNum.toNat < 256 ^ 2 := p.dataSeqNum.toNat_lt
  refine ⟨_, rfl, fun rest => ?_⟩
  rw [decode, ensureSize_of_le (by simp), uint_toLe hlt, drop_toLe le_rfl, UInt16.ofNat_toNat]
  rfl

end DataHeader

namespace DataBody

def encode (p : DataBody) : Except EncodeError Bytes := .ok (toLe 2 p.channelSeqNum.toNat ++ p.data)

def decode : Except DecodeError (DataBody × Bytes) := do
  ensureSize src 2
  return (⟨.ofNat (uint 2 src), src.drop 2⟩, [])

theorem decode_encode (p : DataBody) :
    decode (toLe 2 p.channelSeqNum.toNat ++ p.data) = .ok (p, []) := by
  have hlt : p.channelSeqNum.toNat < 256 ^ 2 := p.channelSeqNum.toNat_lt
  rw [decode, ensureSize_of_le (by simp), uint_toLe hlt, drop_toLe le_rfl, UInt16.ofNat_toNat]
  rfl

end DataBody

/-! ### Whole packets -/

structure V2Packet where
  header : V2Header
  ack : Option AckPayload
  overheadSize : Option OverheadSizePayload
  delayAckInfo : Option DelayAckInfoPayload
  ackOfAcks : Option AckOfAcksPayload
  dataHeader : Option DataHeader
  ackVector : Option AckVectorPayload
  dataBody : Option DataBody

namespace V2Packet

variable (p : V2Packet)

def computeFlags : V2Flags where
  ack := p.ack.isSome
  data := p.dataHeader.isSome
  ackvec := p.ackVector.isSome
  aoa := p.ackOfAcks.isSome
  overheadSize := p.overheadSize.isSome
  delayAckInfo := p.delayAckInfo.isSome

def encode : Except EncodeError Bytes :=
  if p.dataHeader.isSome ≠ p.dataBody.isSome then
    .error (.invalidField "V2Packet" "DATA"
      "data_header and data_body must be both present or both absent")
  else if p.ack.isSome && p.ackVector.isSome then
    .error (.invalidField "V2Packet" "ACK/ACKVEC" "ACK and ACKVEC are mutually exclusive")
  else do
    let header ← V2Header.encode ⟨p.computeFlags, p.header.logWindowSize⟩
    let ack ← writeOptional AckPayload.encode p.ack
    let overheadSize ← writeOptional OverheadSizePayload.encode p.overheadSize
    let delayAckInfo ← writeOptional DelayAckInfoPayload.encode p.delayAckInfo
    let ackOfAcks ← writeOptional AckOfAcksPayload.encode p.ackOfAcks
    let dataHeader ← writeOptional DataHeader.encode p.dataHeader
    let ackVector ← writeOptional AckVectorPayload.encode p.ackVector
    let dataBody ← writeOptional DataBody.encode p.dataBody
    return header ++ (ack ++ (overheadSize ++ (delayAckInfo ++ (ackOfAcks ++ (dataHeader ++
      (ackVector ++ dataBody))))))

def decode : Except DecodeError V2Packet := do
  let (header, src) ← V2Header.decode src
  let (ack, src) ← readOptional header.flags.ack AckPayload.decode src
  let (overheadSize, src) ← readOptional header.flags.overheadSize OverheadSizePayload.decode src
  let (delayAckInfo, src) ← readOptional header.flags.delayAckInfo DelayAckInfoPayload.decode src
  let (ackOfAcks, src) ← readOptional header.flags.aoa AckOfAcksPayload.decode src
  let (dataHeader, src) ← readOptional header.flags.data DataHeader.decode src
  let (ackVector, src) ← readOptional header.flags.ackvec AckVectorPayload.decode src
  let (dataBody, _) ← readOptional header.flags.data DataBody.decode src
  return ⟨header, ack, overheadSize, delayAckInfo, ackOfAcks, dataHeader, ackVector, dataBody⟩

def arriving : V2Packet := { p with header := ⟨p.computeFlags, p.header.logWindowSize⟩ }

structure Fits (p : V2Packet) : Prop where
  logWindowSize : p.header.logWindowSize ≤ logWindowSizeMax
  ack : ∀ a ∈ p.ack, a.Fits
  ackVector : ∀ v ∈ p.ackVector, v.Fits
  exclusive : ¬(p.ack.isSome && p.ackVector.isSome)
  paired : p.dataHeader.isSome = p.dataBody.isSome

theorem readBody (h : p.Fits) :
    ∃ bytes, writeOptional DataBody.encode p.dataBody = .ok bytes ∧
      readOptional p.dataHeader.isSome DataBody.decode bytes = .ok (p.dataBody, []) := by
  rw [h.paired]
  rcases p.dataBody with _ | body
  · exact ⟨[], rfl, rfl⟩
  · refine ⟨_, rfl, ?_⟩
    rw [Option.isSome_some, readOptional, if_pos rfl, DataBody.decode_encode]
    rfl

/-- **A packet survives the wire.** -/
theorem decode_encode {p : V2Packet} (h : p.Fits) :
    ∃ bytes, p.encode = .ok bytes ∧ 2 ≤ bytes.length ∧ decode bytes = .ok p.arriving := by
  have hvalid : p.computeFlags.ackFlagsValid := by
    rw [V2Flags.ackFlagsValid, Bool.not_eq_true']
    exact Bool.eq_false_iff.2 h.exclusive
  obtain ⟨header, hheader, rheader⟩ :=
    V2Header.readable (h := ⟨p.computeFlags, p.header.logWindowSize⟩) h.logWindowSize hvalid
  obtain ⟨ack, hack, rack⟩ := Readable.optional fun a ha => AckPayload.readable (h.ack a ha)
  obtain ⟨overhead, hoverhead, roverhead⟩ :=
    Readable.optional fun a _ => OverheadSizePayload.readable a
  obtain ⟨delay, hdelay, rdelay⟩ :=
    Readable.optional fun a _ => DelayAckInfoPayload.readable a
  obtain ⟨aoa, haoa, raoa⟩ :=
    Readable.optional fun a _ => AckOfAcksPayload.readable a
  obtain ⟨data, hdata, rdata⟩ :=
    Readable.optional fun a _ => DataHeader.readable a
  obtain ⟨vector, hvector, rvector⟩ :=
    Readable.optional fun v hv => AckVectorPayload.readable (h.ackVector v hv)
  obtain ⟨body, hbody, rbody⟩ := readBody p h
  refine ⟨header ++ (ack ++ (overhead ++ (delay ++ (aoa ++ (data ++ (vector ++ body)))))), ?_, ?_,
    ?_⟩
  · rw [encode, if_neg (not_not.2 h.paired), if_neg h.exclusive, hheader, hack, hoverhead, hdelay,
      haoa, hdata, hvector, hbody]
    rfl
  · -- a header that decodes has its two bytes
    have hlen := rheader []
    rw [append_nil, V2Header.decode, ensureSize] at hlen
    rw [length_append]
    split_ifs at hlen with hsize
    · omega
    · cases hlen
  · rw [decode, rheader]
    simp only [Bind.bind, Except.bind, computeFlags, rack, roverhead, rdelay, raoa, rdata, rvector,
      rbody]
    rfl

theorem exclusive_of_decode {src : Bytes} {p : V2Packet} (h : decode src = .ok p) :
    p.ack = none ∨ p.ackVector = none := by
  obtain ⟨⟨header, rest⟩, hheader, h⟩ := bind_ok h
  obtain ⟨⟨ack, _⟩, hack, h⟩ := bind_ok h
  obtain ⟨_, -, h⟩ := bind_ok h
  obtain ⟨_, -, h⟩ := bind_ok h
  obtain ⟨_, -, h⟩ := bind_ok h
  obtain ⟨_, -, h⟩ := bind_ok h
  obtain ⟨⟨vector, _⟩, hvector, h⟩ := bind_ok h
  obtain ⟨_, -, h⟩ := bind_ok h
  cases h
  have hvalid := V2Header.ackFlagsValid_of_decode hheader
  rw [V2Flags.ackFlagsValid, ← isSome_of_readOptional hack,
    ← isSome_of_readOptional hvector] at hvalid
  rcases ack with _ | ack
  · exact .inl rfl
  · rcases vector with _ | vector
    · exact .inr rfl
    · cases hvalid

end V2Packet

/-! ### The prefix byte -/

inductive PrefixError
  | payloadTooShort (len : ℕ)
  | invalidPacketType (got : ℕ)
deriving DecidableEq

structure PacketPrefixByte where
  (packetTypeIndex shortPacketLength : ℕ)

namespace PacketPrefixByte

variable (packetSize : ℕ)

def computeShortLength : ℕ := if packetSize < 7 then packetSize else 7

def normal : PacketPrefixByte := ⟨0, computeShortLength packetSize⟩

def dummy : PacketPrefixByte := ⟨8, computeShortLength packetSize⟩

def isDummy (b : PacketPrefixByte) : Bool := b.packetTypeIndex == 8

def toByte (b : PacketPrefixByte) : UInt8 :=
  .ofNat (b.shortPacketLength % 8 * 32 + b.packetTypeIndex % 16 * 2)

def fromByte (byte : UInt8) : PacketPrefixByte := ⟨byte.toNat / 2 % 16, byte.toNat / 32 % 8⟩

theorem fromByte_toByte {b : PacketPrefixByte} (htype : b.packetTypeIndex < 16)
    (hlen : b.shortPacketLength < 8) : fromByte b.toByte = b := by
  have hbyte : b.toByte.toNat = b.shortPacketLength * 32 + b.packetTypeIndex * 2 := by
    rw [toByte, UInt8.toNat_ofNat']
    omega
  rcases b with ⟨t, l⟩
  simp only [fromByte, hbyte, mk.injEq]
  dsimp only at htype hlen
  omega

end PacketPrefixByte

open PacketPrefixByte

def minWireSize : ℕ := 8

def swapPrefix : Bytes → Bytes
  | a :: b :: c :: d :: e :: f :: g :: h :: rest => h :: b :: c :: d :: e :: f :: g :: a :: rest
  | wire => wire

theorem eight_bytes {wire : Bytes} (h : minWireSize ≤ wire.length) :
    ∃ a b c d e f g i rest, wire = a :: b :: c :: d :: e :: f :: g :: i :: rest := by
  match wire, h with
  | a :: b :: c :: d :: e :: f :: g :: i :: rest, _ => exact ⟨a, b, c, d, e, f, g, i, rest, rfl⟩

theorem swapPrefix_swapPrefix {wire : Bytes} (h : minWireSize ≤ wire.length) :
    swapPrefix (swapPrefix wire) = wire := by
  obtain ⟨a, b, c, d, e, f, g, i, rest, rfl⟩ := eight_bytes h
  rfl

theorem headD_swapPrefix {wire : Bytes} (h : minWireSize ≤ wire.length) :
    (swapPrefix wire).headD 0 = wire.getD 7 0 := by
  obtain ⟨a, b, c, d, e, f, g, i, rest, rfl⟩ := eight_bytes h
  rfl

variable (wire : Bytes)

@[simp] theorem length_swapPrefix : (swapPrefix wire).length = wire.length := by
  unfold swapPrefix
  split <;> rfl

def encodeWithPrefix (packet : Bytes) (isDummy : Bool) : Bytes :=
  let byte := if isDummy then dummy packet.length else .normal packet.length
  swapPrefix (byte.toByte :: (packet ++ List.replicate (7 - packet.length) 0))

def decodeWithPrefix : Except PrefixError (PacketPrefixByte × Bytes) :=
  if wire.length < minWireSize then .error (.payloadTooShort wire.length)
  else
    let wire := swapPrefix wire
    let byte := fromByte (wire.headD 0)
    if byte.packetTypeIndex ≠ 0 ∧ byte.packetTypeIndex ≠ 8 then
      .error (.invalidPacketType byte.packetTypeIndex)
    else
      let packetData := wire.drop 1
      let actualLen :=
        if 0 < byte.shortPacketLength ∧ byte.shortPacketLength < 7 then byte.shortPacketLength
        else packetData.length
      if actualLen > packetData.length then .error (.payloadTooShort packetData.length)
      else .ok (byte, packetData.take actualLen)

section encodeWithPrefix

variable (packet : Bytes) (isDummy : Bool)

theorem minWireSize_le_encode : minWireSize ≤ (encodeWithPrefix packet isDummy).length := by
  rw [encodeWithPrefix, length_swapPrefix, minWireSize, length_cons, length_append,
    length_replicate]
  omega

/-- The swapped encoding, and what its prefix byte is read as. -/
theorem swapPrefix_encode : ∃ byte : PacketPrefixByte,
    swapPrefix (encodeWithPrefix packet isDummy) =
      byte.toByte :: (packet ++ replicate (7 - packet.length) 0) ∧
    (byte.packetTypeIndex = 0 ∨ byte.packetTypeIndex = 8) ∧ byte.isDummy = isDummy ∧
    byte.shortPacketLength = computeShortLength packet.length ∧
    fromByte byte.toByte = byte := by
  refine ⟨if isDummy then .dummy packet.length else .normal packet.length, ?_, ?_⟩
  · have hlong := minWireSize_le_encode packet isDummy
    rw [encodeWithPrefix, length_swapPrefix] at hlong
    rw [encodeWithPrefix, swapPrefix_swapPrefix hlong]
  · have hlt : computeShortLength packet.length < 8 := by
      unfold computeShortLength
      split_ifs <;> omega
    cases isDummy
    · exact ⟨.inl rfl, rfl, rfl, fromByte_toByte (Nat.zero_lt_succ 15) hlt⟩
    · exact ⟨.inr rfl, rfl, rfl, fromByte_toByte (show 8 < 16 by omega) hlt⟩

variable {packet}

theorem decodeWithPrefix_encode (h : 0 < packet.length) : ∃ byte : PacketPrefixByte,
    decodeWithPrefix (encodeWithPrefix packet isDummy) = .ok (byte, packet) ∧
      byte.isDummy = isDummy := by
  obtain ⟨byte, hswap, htype, hdummy, hlen, hbyte⟩ := swapPrefix_encode packet isDummy
  refine ⟨byte, ?_, hdummy⟩
  rw [decodeWithPrefix, if_neg (Nat.not_lt.2 (minWireSize_le_encode packet isDummy)), hswap]
  simp only [headD_cons, hbyte, drop_one, tail_cons]
  rw [if_neg (by omega), hlen, computeShortLength]
  by_cases hsmall : packet.length < 7
  · simp only [h, hsmall, and_self, if_true]
    rw [if_neg (by simp), take_left]
  · simp only [hsmall, Nat.lt_irrefl, and_false, if_false, take_length]
    rw [Nat.sub_eq_zero_of_le (Nat.not_lt.1 hsmall), replicate_zero, append_nil]

end encodeWithPrefix

/-! ### Datagrams -/

inductive ErrorKind
  | decode (e : DecodeError)
  | encode (e : EncodeError)
  | prefixByte (e : PrefixError)
  | invalidState | sendBufferFull | connectionClosed
  | invalidPacket (reason : String)
deriving DecidableEq

structure RdpeudpError where
  context : String
  kind : ErrorKind

def decodeDatagram : Except RdpeudpError (PacketPrefixByte × V2Packet) :=
  match decodeWithPrefix wire with
  | .error e => .error ⟨"packet prefix error", .prefixByte e⟩
  | .ok (byte, packetBytes) =>
    match V2Packet.decode packetBytes with
    | .error e => .error ⟨"decode error", .decode e⟩
    | .ok packet => .ok (byte, packet)

/-- `encode_v2_packet`: the prefixed encoding, never of a dummy. -/
def encodeV2Packet (packet : V2Packet) : Option Bytes :=
  match packet.encode with
  | .ok packetBytes => some (encodeWithPrefix packetBytes false)
  | .error _ => none

theorem exclusive_of_decodeDatagram {wire : Bytes} {byte : PacketPrefixByte} {p : V2Packet}
    (h : decodeDatagram wire = .ok (byte, p)) : p.ack = none ∨ p.ackVector = none := by
  unfold decodeDatagram at h
  split at h
  · cases h
  · split at h
    · cases h
    · next hdecode =>
      cases h
      exact V2Packet.exclusive_of_decode hdecode

/-- **What a receiver decodes is what was encoded.** -/
theorem decodeDatagram_encode {p : V2Packet} (h : p.Fits) :
    ∃ wire byte, encodeV2Packet p = some wire ∧ decodeDatagram wire = .ok (byte, p.arriving) ∧
      byte.isDummy = false := by
  obtain ⟨bytes, hencode, hlen, hdecode⟩ := p.decode_encode h
  obtain ⟨byte, hbyte, hdummy⟩ := decodeWithPrefix_encode false (show 0 < bytes.length by omega)
  refine ⟨encodeWithPrefix bytes false, byte, ?_, ?_, hdummy⟩
  · rw [encodeV2Packet, hencode]
  · rw [decodeDatagram, hbyte]
    dsimp only
    rw [hdecode]

end Linrdp.Rdpeudp.Pdu
