import Linrdp.Lib.Bytes

/-!
# Dynamic channel PDUs

The messages of the DRDYNVC channel (`ironrdp-dvc/src/pdu.rs`) as bytes: how the server writes them,
how it reads the client's, how it takes a message apart into data PDUs and puts the client's
together again (`complete_data.rs`), and the look at the header that decides which transport a PDU
takes.
-/

namespace Linrdp.Dvc.Pdu

open Option Lib.Bytes

abbrev Bytes := List UInt8

/-! ### The header -/

/-- The width of a field, two bits of the header; the fourth value is no width. -/
inductive FieldType
  | u8 | u16 | u32 | invalid
deriving DecidableEq

namespace FieldType

def bits : FieldType → ℕ
  | u8 => 0
  | u16 => 1
  | u32 => 2
  | invalid => 3

def ofBits : ℕ → FieldType
  | 0 => u8
  | 1 => u16
  | 2 => u32
  | _ => invalid

def forVal (value : ℕ) : FieldType :=
  if value < 2 ^ 8 then u8 else if value < 2 ^ 16 then u16 else u32

def encodeVal (t : FieldType) (value : ℕ) : Option Bytes :=
  match t with
  | u8 => if value < 2 ^ 8 then some (toLe 1 value) else none
  | u16 => if value < 2 ^ 16 then some (toLe 2 value) else none
  | u32 => if value < 2 ^ 32 then some (toLe 4 value) else none
  | invalid => none

def decodeVal : FieldType → Bytes → Option (ℕ × Bytes)
  | u8, src => readLe 1 src
  | u16, src => readLe 2 src
  | u32, src => readLe 4 src
  | invalid, _ => none

end FieldType

inductive Cmd
  | create | dataFirst | data | close | capability | dataFirstCompressed | dataCompressed
  | softSyncRequest | softSyncResponse

namespace Cmd

def asU8 : Cmd → ℕ
  | create => 1
  | dataFirst => 2
  | data => 3
  | close => 4
  | capability => 5
  | dataFirstCompressed => 6
  | dataCompressed => 7
  | softSyncRequest => 8
  | softSyncResponse => 9

def ofU8 : ℕ → Option Cmd
  | 1 => some create
  | 2 => some dataFirst
  | 3 => some data
  | 4 => some close
  | 5 => some capability
  | 6 => some dataFirstCompressed
  | 7 => some dataCompressed
  | 8 => some softSyncRequest
  | 9 => some softSyncResponse
  | _ => none

end Cmd

structure Header where
  (cbId sp : FieldType)
  cmd : Cmd

variable (h : Header)

namespace Header

def new (cbIdVal spVal : ℕ) (cmd : Cmd) : Header := ⟨.forVal cbIdVal, .forVal spVal, cmd⟩

def byte : UInt8 := UInt8.ofNat (h.cmd.asU8 * 16 + h.sp.bits * 4 + h.cbId.bits)

def ofByte (b : UInt8) : Option Header := do
  let cmd ← Cmd.ofU8 (b.toNat / 16)
  return ⟨.ofBits (b.toNat % 4), .ofBits (b.toNat / 4 % 4), cmd⟩

end Header

open Header

/-! ### The messages -/

/-- `DrdynvcDataPdu`. Of its header a PDU keeps the two widths; the rest is its kind. -/
inductive DataPdu
  | dataFirst (cbId sp : FieldType) (channelId length : ℕ) (data : Bytes)
  | data (cbId sp : FieldType) (channelId : ℕ) (data : Bytes)
deriving DecidableEq

namespace DataPdu

def maxDataSize : ℕ := 1590

def newFirst (channelId totalLength : ℕ) (data : Bytes) : DataPdu :=
  .dataFirst (.forVal channelId) (.forVal totalLength) channelId totalLength data

def newData (channelId : ℕ) (data : Bytes) : DataPdu :=
  .data (.forVal channelId) (.forVal 0) channelId data

def channelId : DataPdu → ℕ
  | dataFirst _ _ id _ _ => id
  | data _ _ id _ => id

def encode : DataPdu → Option Bytes
  | dataFirst cbId sp channelId length payload => do
    let id ← cbId.encodeVal channelId
    let total ← sp.encodeVal length
    return byte ⟨cbId, sp, .dataFirst⟩ :: (id ++ (total ++ payload))
  | data cbId sp channelId payload => do
    let id ← cbId.encodeVal channelId
    return byte ⟨cbId, sp, .data⟩ :: (id ++ payload)

end DataPdu

structure SoftSyncTunnelType where
  value : ℕ
deriving DecidableEq

def SoftSyncTunnelType.reliableUdp : SoftSyncTunnelType := ⟨1⟩

structure SoftSyncChannelList where
  tunnelType : SoftSyncTunnelType
  channelIds : List ℕ
deriving DecidableEq

namespace SoftSyncChannelList

def size (l : SoftSyncChannelList) : ℕ := 6 + l.channelIds.length * 4

def encode (l : SoftSyncChannelList) : Bytes :=
  toLe 4 l.tunnelType.value ++ toLe 2 l.channelIds.length ++ l.channelIds.flatMap (toLe 4)

end SoftSyncChannelList

inductive CapsVersion
  | v1 | v2 | v3
deriving DecidableEq

namespace CapsVersion

def toU16 : CapsVersion → ℕ
  | v1 => 1
  | v2 => 2
  | v3 => 3

def ofU16 : ℕ → Option CapsVersion
  | 1 => some v1
  | 2 => some v2
  | 3 => some v3
  | _ => none

end CapsVersion

/-- `DrdynvcServerPdu`; the priority charges are those of the second and third version. -/
inductive ServerPdu
  | capabilities (version : CapsVersion) (charges : List ℕ)
  | create (channelId : ℕ) (channelName : Bytes)
  | close (cbId : FieldType) (channelId : ℕ)
  | data (pdu : DataPdu)
  | softSyncRequest (channelLists : List SoftSyncChannelList)
deriving DecidableEq

namespace ServerPdu

def newClose (channelId : ℕ) : ServerPdu := .close (.forVal channelId) channelId

variable (lists : List SoftSyncChannelList)

def softSyncValid : Bool :=
  lists.length < 2 ^ 16 && lists.all (fun l => l.channelIds.length < 2 ^ 16) &&
    decide (lists.map SoftSyncChannelList.tunnelType).Nodup &&
    decide (lists.flatMap SoftSyncChannelList.channelIds).Nodup

def softSyncFlags : ℕ := if lists.isEmpty then 1 else 3

def softSyncLength : ℕ := 8 + (lists.map SoftSyncChannelList.size).sum

def encode : ServerPdu → Option Bytes
  | capabilities version charges =>
    let written := if version = .v1 then [] else charges.flatMap (toLe 2)
    some ((new 0 0 .capability).byte :: 0 :: (toLe 2 version.toU16 ++ written))
  | create channelId channelName => do
    let header := new channelId 0 .create
    let id ← header.cbId.encodeVal channelId
    return header.byte :: (id ++ channelName ++ [0])
  | close cbId channelId => do
    let id ← cbId.encodeVal channelId
    return byte ⟨cbId, .forVal 0, .close⟩ :: id
  | data pdu => pdu.encode
  | softSyncRequest lists =>
    if softSyncValid lists ∧ softSyncLength lists < 2 ^ 32 then
      some ((new 0 0 .softSyncRequest).byte :: 0 :: (toLe 4 (softSyncLength lists) ++
        toLe 2 (softSyncFlags lists) ++ toLe 2 lists.length ++
        lists.flatMap SoftSyncChannelList.encode))
    else none

def dataChannel : ServerPdu → Option ℕ
  | data pdu => some pdu.channelId
  | _ => none

end ServerPdu

inductive ClientPdu
  | capabilities (version : CapsVersion)
  | create (channelId creationStatus : ℕ)
  | close (channelId : ℕ)
  | data (pdu : DataPdu)
  | softSyncResponse (tunnelsToSwitch : List SoftSyncTunnelType)
deriving DecidableEq

/-- `count` tunnel types, none of them twice. -/
def readTunnels : ℕ → List SoftSyncTunnelType → Bytes → Option (List SoftSyncTunnelType × Bytes)
  | 0, seen, src => some (seen, src)
  | count + 1, seen, src => do
    let (value, src) ← readLe 4 src
    if ⟨value⟩ ∈ seen then none else readTunnels count (seen ++ [⟨value⟩]) src

def decodeSoftSyncResponse (header : Header) (src : Bytes) : Option ClientPdu := do
  if header.cbId ≠ .u8 ∨ header.sp ≠ .u8 then none
  let (pad, src) ← readLe 1 src
  if pad ≠ 0 then none
  let (count, src) ← readLe 4 src
  if src.length / 4 < count then none
  let (tunnels, src) ← readTunnels count [] src
  if src.isEmpty then some (.softSyncResponse tunnels) else none

def ClientPdu.decode : Bytes → Option ClientPdu
  | [] => none
  | b :: src => do
    let header ← ofByte b
    match header.cmd with
    | .create =>
      let (id, src) ← header.cbId.decodeVal src
      let (status, _) ← readLe 4 src
      return .create id status
    | .dataFirst =>
      let (id, src) ← header.cbId.decodeVal src
      let (length, src) ← header.sp.decodeVal src
      return .data (.dataFirst header.cbId header.sp id length src)
    | .data =>
      let (id, src) ← header.cbId.decodeVal src
      return .data (.data header.cbId header.sp id src)
    | .close =>
      let (id, _) ← header.cbId.decodeVal src
      return .close id
    | .capability =>
      let (_, src) ← readLe 1 src
      let (version, _) ← readLe 2 src
      let version ← CapsVersion.ofU16 version
      return .capabilities version
    | .softSyncResponse => decodeSoftSyncResponse header src
    | _ => none

/-! ### Messages in pieces -/

/-- `encode_dvc_messages` for one message: data PDUs of at most `maxDataSize` bytes. -/
def encodeDvcMessage (channelId : ℕ) (message : Bytes) : Option (List DataPdu) :=
  match message.toChunks DataPdu.maxDataSize with
  | [] => some []
  | first :: rest =>
    if message.length < DataPdu.maxDataSize then some [.newData channelId first]
    else if message.length < 2 ^ 32 then
      some (.newFirst channelId message.length first :: rest.map (.newData channelId))
    else none

def encodeDvcMessages (channelId : ℕ) (messages : List Bytes) : Option (List ServerPdu) := do
  let pdus ← messages.mapM (encodeDvcMessage channelId)
  return pdus.flatten.map .data

structure CompleteData where
  totalSize : ℕ
  data : Bytes

namespace CompleteData

def new : CompleteData := ⟨0, []⟩

def processData (c : CompleteData) : DataPdu → Option Bytes × CompleteData
  | .dataFirst _ _ _ length data =>
    let kept := if c.totalSize ≠ 0 ∨ c.data ≠ [] then [] else c.data
    if length = data.length then (some data, { c with data := kept }) else (none, ⟨length, data⟩)
  | .data _ _ _ data =>
    if c.totalSize = 0 ∧ c.data = [] then (some data, c)
    else if c.data.length + data.length < c.totalSize then
      (none, { c with data := c.data ++ data })
    else if c.data.length + data.length = c.totalSize then (some (c.data ++ data), ⟨0, []⟩)
    else (none, ⟨0, []⟩)

end CompleteData

/-! ### The look at the header -/

/-- `data_channel_id`: the channel of a data PDU, compressed ones included. -/
def dataChannelId : Bytes → Option ℕ
  | [] => none
  | header :: id =>
    if header.toNat / 16 ∈ [2, 3, 6, 7] then
      match header.toNat % 4 with
      | 0 => (readLe 1 id).map Prod.fst
      | 1 => (readLe 2 id).map Prod.fst
      | _ => (readLe 4 id).map Prod.fst
    else none

/-- `id.get(..w)` and the index expressions on it; the outer `none` is an index out of bounds. -/
def indexId (w : ℕ) (indices : List ℕ) (id : Bytes) : Option (Option ℕ) :=
  if w ≤ id.length then (indices.mapM fun i => (id.take w)[i]?).map fun bytes => some (ofLe bytes)
  else some none

/-- `data_channel_id` with its index expressions; the outer `none` is a panic. -/
def dataChannelIdIndexed : Bytes → Option (Option ℕ)
  | [] => some none
  | header :: id =>
    if header.toNat / 16 ∈ [2, 3, 6, 7] then
      match header.toNat % 4 with
      | 0 => some (id.head?.map UInt8.toNat)
      | 1 => indexId 2 [0, 1] id
      | _ => indexId 4 [0, 1, 2, 3] id
    else some none

theorem Header.byte_toNat : h.byte.toNat = h.cmd.asU8 * 16 + h.sp.bits * 4 + h.cbId.bits := by
  have hcmd : h.cmd.asU8 < 16 := by cases h.cmd <;> decide
  have hsp : h.sp.bits < 4 := by cases h.sp <;> decide
  have hid : h.cbId.bits < 4 := by cases h.cbId <;> decide
  rw [byte, UInt8.toNat_ofNat']
  omega

theorem Header.byte_cmd : h.byte.toNat / 16 = h.cmd.asU8 := by
  have hsp : h.sp.bits < 4 := by cases h.sp <;> decide
  have hid : h.cbId.bits < 4 := by cases h.cbId <;> decide
  rw [h.byte_toNat]
  omega

theorem Header.byte_cbId : h.byte.toNat % 4 = h.cbId.bits := by
  have hid : h.cbId.bits < 4 := by cases h.cbId <;> decide
  rw [h.byte_toNat]
  omega

theorem dataChannelId_of_data {h : Header} {channelId : ℕ} {id : Bytes} (rest : Bytes)
    (hcmd : h.cmd.asU8 ∈ [2, 3, 6, 7]) (hid : h.cbId.encodeVal channelId = some id) :
    dataChannelId (h.byte :: (id ++ rest)) = some channelId := by
  rw [dataChannelId, if_pos (by rwa [h.byte_cmd]), h.byte_cbId]
  unfold FieldType.encodeVal at hid
  rcases hwidth : h.cbId with _ | _ | _ | _ <;> rw [hwidth] at hid <;>
    simp only [reduceCtorEq, ite_none_right_eq_some, some.injEq] at hid
  all_goals
    obtain ⟨hlt, rfl⟩ := hid
    simp only [FieldType.bits]
    rw [readLe_toLe_append (by simpa using hlt), map_some]

theorem dataChannelId_of_control {h : Header} (rest : Bytes)
    (hcmd : h.cmd.asU8 ∉ [2, 3, 6, 7]) : dataChannelId (h.byte :: rest) = none := by
  rw [dataChannelId, if_neg (by rwa [h.byte_cmd])]

/-- **The routing sees the channel of the PDU.** -/
theorem dataChannelId_encode {pdu : ServerPdu} {bytes : Bytes} (h : pdu.encode = some bytes) :
    dataChannelId bytes = pdu.dataChannel := by
  cases pdu with
  | capabilities version charges =>
    obtain rfl := some.inj h
    exact dataChannelId_of_control _ (by simp [new, Cmd.asU8])
  | create | close =>
    simp only [ServerPdu.encode, bind_eq_bind, bind_eq_some_iff] at h
    obtain ⟨id, -, h⟩ := h
    obtain rfl := some.inj h
    exact dataChannelId_of_control _ (by simp [new, Cmd.asU8])
  | data pdu =>
    cases pdu <;> simp only [ServerPdu.encode, DataPdu.encode, bind_eq_bind,
      bind_eq_some_iff] at h <;> obtain ⟨id, hid, h⟩ := h
    case' dataFirst => obtain ⟨total, -, h⟩ := h
    all_goals
      obtain rfl := some.inj h
      exact dataChannelId_of_data _ (by simp [Cmd.asU8]) hid
  | softSyncRequest lists =>
    rw [ServerPdu.encode, ite_none_right_eq_some] at h
    obtain rfl := some.inj h.2
    exact dataChannelId_of_control _ (by simp [new, Cmd.asU8])

theorem dataChannelIdIndexed_eq (unframed : Bytes) :
    dataChannelIdIndexed unframed = some (dataChannelId unframed) := by
  cases unframed with
  | nil => rfl
  | cons header id =>
    have hread (w : ℕ) (hw : w = 2 ∨ w = 4) :
        indexId w (List.range w) id = some ((readLe w id).map Prod.fst) := by
      rcases hw with rfl | rfl <;> rcases id with _ | ⟨a, _ | ⟨b, _ | ⟨c, _ | ⟨d, id⟩⟩⟩⟩ <;> rfl
    simp only [dataChannelIdIndexed, dataChannelId]
    split_ifs
    · split
      · cases id <;> rfl
      · exact hread 2 (.inl rfl)
      · exact hread 4 (.inr rfl)
    · rfl

/-- **The channel that decides the transport is the PDU's own**, whatever widths its fields have; a
header that is not one of data has none, and no bytes make the look panic. -/
theorem dataChannelIdIndexed_encode (bytes : Bytes) :
    dataChannelIdIndexed bytes ≠ none ∧
      (∀ pdu : ServerPdu, pdu.encode = some bytes →
      dataChannelIdIndexed bytes = some pdu.dataChannel) ∧
      ∀ (h : Header) (rest : Bytes), bytes = h.byte :: rest → h.cmd.asU8 ∉ [2, 3, 6, 7] →
        dataChannelIdIndexed bytes = some none := by
  rw [dataChannelIdIndexed_eq]
  refine ⟨some_ne_none _, fun pdu h => congrArg some (dataChannelId_encode h), ?_⟩
  rintro h rest rfl hcmd
  rw [dataChannelId_of_control rest hcmd]

theorem dataChannelIdIndexed_encode_newData : dataChannelIdIndexed [0x31, 0x2A, 0x01, 0xFF] = some
    (some 0x12A) :=
  (dataChannelIdIndexed_encode _).2.1 (.data (.newData 0x12A [0xFF])) rfl

/-! ### Reassembly -/

/-- A message as a client sends it. The fragments of an abandoned one stay short of the total size
that the first of them announces. -/
inductive Message
  | whole (data : Bytes)
  | inFirst (data : Bytes)
  | fragmented (first : Bytes) (middle : List Bytes) (last : Bytes) (complete : last ≠ [])
  | abandoned (total : ℕ) (first : Bytes) (rest : List Bytes)
    (short : first.length + rest.flatten.length < total)

namespace Message

def content : Message → Option Bytes
  | whole data | inFirst data => some data
  | fragmented first middle last _ => some (first ++ middle.flatten ++ last)
  | abandoned .. => none

def pdus (channelId : ℕ) : Message → List DataPdu
  | whole data => [.newData channelId data]
  | inFirst data => [.newFirst channelId data.length data]
  | fragmented first middle last _ =>
    .newFirst channelId (first ++ middle.flatten ++ last).length first ::
      (middle.map (.newData channelId) ++ [.newData channelId last])
  | abandoned total first rest _ => .newFirst channelId total first :: rest.map (.newData channelId)

/-- No unfragmented message finds the total size of an abandoned one, which a message in one first
fragment leaves behind; but for one of just that size, when none of the abandoned fragments is held.
-/
def Clear : ℕ → ℕ → List Message → Prop
  | _, _, [] => True
  | total, held, whole data :: ms => (total = 0 ∨ held = 0 ∧ data.length = total) ∧ Clear 0 0 ms
  | total, _, inFirst _ :: ms => Clear total 0 ms
  | _, _, fragmented .. :: ms => Clear 0 0 ms
  | _, _, abandoned total first rest _ :: ms => Clear total (first ++ rest.flatten).length ms

end Message

namespace CompleteData

open List Message

/-- What the channel's processor gets. -/
def deliver : CompleteData → List DataPdu → List Bytes
  | _, [] => []
  | c, pdu :: pdus => (c.processData pdu).1.toList ++ (c.processData pdu).2.deliver pdus

variable {channelId total : ℕ} {data : Bytes}

theorem processData_newFirst (c : CompleteData) :
    c.processData (.newFirst channelId total data) =
      if total = data.length then (some data, ⟨c.totalSize, []⟩) else (none, ⟨total, data⟩) := by
  have hkept : (if c.totalSize ≠ 0 ∨ c.data ≠ [] then [] else c.data) = [] := by grind
  rw [DataPdu.newFirst, processData, hkept]

theorem processData_newData {part : Bytes} (h : total ≠ 0) :
    processData ⟨total, data⟩ (.newData channelId part) =
      if data.length + part.length < total then (none, ⟨total, data ++ part⟩)
      else if data.length + part.length = total then (some (data ++ part), new)
      else (none, new) := by
  rw [DataPdu.newData, processData, if_neg fun hnew => h hnew.1]
  rfl

theorem deliver_short {parts : List Bytes} {pdus : List DataPdu}
    (h : data.length + parts.flatten.length < total) :
    deliver ⟨total, data⟩ (parts.map (.newData channelId) ++ pdus) =
      deliver ⟨total, data ++ parts.flatten⟩ pdus := by
  induction parts generalizing data with
  | nil => rw [flatten_nil, append_nil, map_nil, nil_append]
  | cons part parts ih =>
    rw [flatten_cons, length_append] at h
    rw [map_cons, cons_append, deliver, processData_newData (by omega), if_pos (by omega),
      flatten_cons, ← append_assoc]
    exact ih (by rw [length_append]; omega)

variable {c : CompleteData} {rest : List DataPdu}

theorem deliver_inFirst :
    c.deliver (pdus channelId (inFirst data) ++ rest) = data :: deliver ⟨c.totalSize, []⟩ rest := by
  rw [pdus, singleton_append, deliver, processData_newFirst, if_pos rfl]
  rfl

theorem deliver_fragmented {first last : Bytes} {middle : List Bytes} (complete : last ≠ []) :
    c.deliver (pdus channelId (fragmented first middle last complete) ++ rest) =
      (first ++ middle.flatten ++ last) :: new.deliver rest := by
  have hlast := length_pos_iff.mpr complete
  rw [pdus, cons_append, deliver, processData_newFirst]
  generalize htotal : (first ++ middle.flatten ++ last).length = total
  rw [length_append] at htotal
  have hlength := @length_append _ first middle.flatten
  rw [if_neg (by omega), append_assoc, deliver_short (by omega), singleton_append, deliver,
    processData_newData (by omega), if_neg (by omega), if_pos htotal]
  rfl

theorem deliver_abandoned {first : Bytes} {parts : List Bytes}
    (short : first.length + parts.flatten.length < total) :
    c.deliver (pdus channelId (abandoned total first parts short) ++ rest) =
      deliver ⟨total, first ++ parts.flatten⟩ rest := by
  rw [pdus, cons_append, deliver, processData_newFirst, if_neg (by omega), deliver_short short]
  rfl

/-- Whatever state it finds, a message makes for one delivery at most. -/
theorem length_deliver_le (channelId : ℕ) (ms : List Message) (c : CompleteData) :
    (c.deliver (ms.flatMap (pdus channelId))).length ≤ (ms.filterMap content).length := by
  induction ms generalizing c with
  | nil => exact Nat.le_refl 0
  | cons m ms ih =>
    rw [flatMap_cons, filterMap_cons]
    cases m with
    | whole data =>
      rw [pdus, singleton_append, deliver, length_append, content, length_cons, Nat.add_comm]
      exact Nat.add_le_add (ih _) Option.length_toList_le
    | inFirst data => exact deliver_inFirst ▸ Nat.succ_le_succ (ih _)
    | fragmented first middle last complete =>
      exact deliver_fragmented complete ▸ Nat.succ_le_succ (ih _)
    | abandoned total first parts short => exact deliver_abandoned short ▸ ih _

theorem deliver_messages_iff (ms : List Message) (c : CompleteData)
    (hc : c.totalSize = 0 → c.data = []) :
    c.deliver (ms.flatMap (pdus channelId)) = ms.filterMap content ↔
    Clear c.totalSize c.data.length ms := by
  induction ms generalizing c with
  | nil => exact iff_of_true rfl trivial
  | cons m ms ih =>
    rw [flatMap_cons, filterMap_cons]
    cases m with
    | whole data =>
      -- a message that is swallowed cannot be made up for by the later ones
      have hswallowed (c' : CompleteData) :
          c'.deliver (ms.flatMap (pdus channelId)) ≠ data :: ms.filterMap content := fun heq => by
        have hle := length_deliver_le channelId ms c'
        rw [heq, length_cons] at hle
        omega
      rw [pdus, singleton_append, deliver, content, Clear]
      by_cases htotal : c.totalSize = 0
      · have hstep : c.processData (.newData channelId data) = (some data, c) :=
          if_pos ⟨htotal, hc htotal⟩
        have htail := ih c hc
        rw [htotal, hc htotal] at htail
        rw [hstep, and_iff_right (.inl htotal)]
        exact (cons_inj_right data).trans htail
      · rw [processData_newData htotal]
        split_ifs with hless hequal
        · exact iff_of_false (hswallowed _) (by omega)
        · simp only [Option.toList_some, singleton_append, cons.injEq, append_left_eq_self,
            ih new fun _ => rfl, ← length_eq_zero_iff]
          exact and_congr_left' (by omega)
        · exact iff_of_false (hswallowed _) (by omega)
    | inFirst data =>
      rw [deliver_inFirst]
      exact cons_inj_right data |>.trans (ih ⟨_, []⟩ fun _ => rfl)
    | fragmented first middle last complete =>
      rw [deliver_fragmented]
      exact cons_inj_right _ |>.trans (ih new fun _ => rfl)
    | abandoned total first parts short =>
      rw [deliver_abandoned]
      exact ih ⟨total, _⟩ fun hzero : total = 0 => by omega

/-- **Reassembly.** Of a sequence of messages the complete ones are delivered, in order and nothing
else, exactly if no unfragmented message finds the total size of an abandoned one. -/
theorem deliver_eq_iff (channelId : ℕ) (ms : List Message) :
    new.deliver (ms.flatMap (pdus channelId)) = ms.filterMap content ↔ Clear 0 0 ms :=
  deliver_messages_iff ms new fun _ => rfl

/-- A message of five bytes, abandoned after two, and one in a first fragment. -/
def afterAbandoned : List Message := [abandoned 5 [97, 98] [] (by decide), inFirst [120]]

theorem whole_afterAbandoned : new.deliver ((afterAbandoned ++ [whole [99]]).flatMap (pdus 7)) ≠
    (afterAbandoned ++ [whole [99]]).filterMap content := by decide

end CompleteData

end Linrdp.Dvc.Pdu
