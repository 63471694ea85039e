import Linrdp.Lib.Bytes

/-!
# The write pump of a tunnel

`write_pump` of `transport.rs`: the payloads queued for a tunnel become tunnel data PDUs
(`rdpemt/src/pdu`), the sub-headers go with the next of them, or by themselves after a wait. The
header of a PDU has its length in one byte, so that what piles up before a payload can end the pump;
and the pump drops the sub-headers that wait when the payload queue closes.
-/

namespace Linrdp.Rdpemt.WritePump

open List Lib.Bytes

abbrev Bytes := List UInt8

inductive SubHeaderType
  | autoDetectRequest | autoDetectResponse
  | unknown (value : UInt8)

def SubHeaderType.toU8 : SubHeaderType → UInt8
  | autoDetectRequest => 0
  | autoDetectResponse => 1
  | unknown value => value

structure TunnelSubHeader where
  subHeaderType : SubHeaderType
  data : Bytes

structure TunnelData where
  subHeaders : List TunnelSubHeader
  higherLayerData : Bytes

/-- The field and the reason of `invalid_field_err`. -/
abbrev EncodeError := String × String

def TunnelSubHeader.wireSize (s : TunnelSubHeader) : ℕ := 2 + s.data.length

def TunnelSubHeader.encode (s : TunnelSubHeader) : Except EncodeError Bytes :=
  if s.wireSize ≤ 255 then .ok (.ofNat s.wireSize :: s.subHeaderType.toU8 :: s.data)
  else .error ("SubHeaderLength", "sub-header exceeds 255 bytes")

def wireSizes (subHeaders : List TunnelSubHeader) :
    ℕ := (subHeaders.map TunnelSubHeader.wireSize).sum

def TunnelData.encode (d : TunnelData) : Except EncodeError Bytes :=
  let headerLength := 4 + wireSizes d.subHeaders
  if 255 < headerLength then .error ("HeaderLength", "sub-headers exceed one byte of length")
  else if 65535 < d.higherLayerData.length then
    .error ("PayloadLength", "payload exceeds 65535 bytes")
  else do
    let subHeaders ← d.subHeaders.mapM TunnelSubHeader.encode
    return 2 :: toLe 2 d.higherLayerData.length ++ .ofNat headerLength :: subHeaders.flatten ++
      d.higherLayerData

/-- `deadline` says whether one is set. `written` are the PDUs whose bytes were written. -/
structure Pump where
  pending : List TunnelSubHeader
  deadline : Bool
  written : List TunnelData

/-- Something comes out of a queue, or the deadline passes. -/
inductive Event
  | outgoing (data : Bytes)
  | subHeader (s : TunnelSubHeader)
  | deadline

def write (p : Pump) (data : Bytes) : Except EncodeError Pump := do
  let _ ← TunnelData.encode ⟨p.pending, data⟩
  return ⟨[], false, p.written ++ [⟨p.pending, data⟩]⟩

def step (p : Pump) : Event → Except EncodeError Pump
  | .outgoing data => write p data
  | .subHeader s => .ok { p with pending := p.pending ++ [s], deadline := true }
  | .deadline => if p.deadline then write p [] else .ok p

/-- The loop, until the payload queue closes. -/
def writePump : Pump → List Event → Except EncodeError Pump
  | p, [] => .ok p
  | p, e :: es => do writePump (← step p e) es

/-- The payload queue closes when no sub-header waits, and every PDU before fits its length fields:
its sub-headers, of which `waiting` bytes are there already, in 251 bytes and the payload in 65535.
-/
def Fits : ℕ → List Event → Prop
  | waiting, [] => waiting = 0
  | waiting, .outgoing data :: es => waiting ≤ 251 ∧ data.length ≤ 65535 ∧ Fits 0 es
  | waiting, .subHeader s :: es => Fits (waiting + s.wireSize) es
  | waiting, .deadline :: es => waiting ≤ 251 ∧ Fits 0 es

/-- An empty payload looks like none. -/
def payload (data : Bytes) : List Bytes := [data].filter (· ≠ [])

def Event.subHeaders : Event → List TunnelSubHeader
  | subHeader s => [s]
  | _ => []

def Event.payloads : Event → List Bytes
  | outgoing data => payload data
  | _ => []

def Pump.subHeaders (p : Pump) : List TunnelSubHeader :=
  p.written.flatMap TunnelData.subHeaders ++ p.pending

def Pump.payloads (p : Pump) : List Bytes := p.written.flatMap fun d => payload d.higherLayerData

theorem exists_mapM_encode {l : List TunnelSubHeader} (h : wireSizes l ≤ 251) :
    ∃ bytes, l.mapM TunnelSubHeader.encode = .ok bytes := by
  induction l with
  | nil => exact ⟨[], rfl⟩
  | cons s l ih =>
    rw [wireSizes, map_cons, sum_cons] at h
    obtain ⟨bytes, hbytes⟩ := ih (by rw [wireSizes]; omega)
    rw [mapM_cons, hbytes, TunnelSubHeader.encode, if_pos (by omega)]
    exact ⟨_, rfl⟩

theorem write_eq_ok_iff {p p' : Pump} {data : Bytes} : write p data = .ok p' ↔
    wireSizes p.pending ≤ 251 ∧ data.length ≤ 65535 ∧
    ⟨[], false, p.written ++ [⟨p.pending, data⟩]⟩ = p' := by
  rw [write, TunnelData.encode]
  dsimp only
  split_ifs with hheader hdata
  · exact iff_of_false nofun (by omega)
  · exact iff_of_false nofun (by omega)
  · have hsizes : wireSizes p.pending ≤ 251 := by omega
    obtain ⟨bytes, hbytes⟩ := exists_mapM_encode hsizes
    rw [hbytes]
    exact ⟨fun h => ⟨hsizes, by omega, Except.ok.inj h⟩, fun h => congrArg Except.ok h.2.2⟩

/-- Without a deadline nothing waits. -/
def Pump.Timed (p : Pump) : Prop := p.deadline = false → p.pending = []

theorem fits_cons_iff {p : Pump} (hp : p.Timed) (e : Event) (es : List Event) :
    Fits (wireSizes p.pending) (e :: es) ↔ ∃ p', step p e = .ok p' ∧
    Fits (wireSizes p'.pending) es := by
  cases e with
  | outgoing data => simp [Fits, step, write_eq_ok_iff, wireSizes, and_assoc]
  | subHeader s => simp [Fits, step, wireSizes]
  | deadline =>
    cases hdeadline : p.deadline with
    | true => simp [Fits, step, write_eq_ok_iff, wireSizes, hdeadline]
    | false => simp [Fits, step, wireSizes, hdeadline, hp hdeadline]

theorem step_keeps {p p' : Pump} {e : Event} (hp : p.Timed) (h : step p e = .ok p') : p'.Timed ∧
    p'.subHeaders = p.subHeaders ++ e.subHeaders ∧ p'.payloads = p.payloads ++ e.payloads := by
  cases e with
  | outgoing data =>
    obtain ⟨-, -, rfl⟩ := write_eq_ok_iff.1 h
    simp [Pump.Timed, Pump.subHeaders, Event.subHeaders, Pump.payloads, Event.payloads]
  | subHeader s =>
    cases h
    simp [Pump.Timed, Pump.subHeaders, Event.subHeaders, Pump.payloads, Event.payloads]
  | deadline =>
    rw [step] at h
    split_ifs at h
    · obtain ⟨-, -, rfl⟩ := write_eq_ok_iff.1 h
      simp [Pump.Timed, Pump.subHeaders, Event.subHeaders, Pump.payloads, Event.payloads, payload]
    · cases h
      exact ⟨hp, (append_nil _).symm, (append_nil _).symm⟩

theorem writePump_fits_iff {es : List Event} {p : Pump} (hp : p.Timed) :
    Fits (wireSizes p.pending) es ↔ ∃ p', writePump p es = .ok p' ∧ p'.pending = [] ∧
      p'.subHeaders = p.subHeaders ++ es.flatMap Event.subHeaders ∧
      p'.payloads = p.payloads ++ es.flatMap Event.payloads := by
  induction es generalizing p with
  | nil => cases hpending : p.pending <;> simp [Fits, writePump, wireSizes,
      TunnelSubHeader.wireSize, hpending]
  | cons e es ih =>
    rw [fits_cons_iff hp]
    cases hstep : step p e with
    | error err => simp [writePump, hstep, bind, Except.bind]
    | ok p₁ =>
      obtain ⟨hp₁, hsubs, hloads⟩ := step_keeps hp hstep
      simp [writePump, hstep, ih hp₁, hsubs, hloads, bind, Except.bind]

/-- **The write pump.** Every PDU encodes and every sub-header and payload is written once, in
order, exactly if what is queued fits. -/
theorem writePump_writes_iff {es : List Event} :
    (∃ p, writePump ⟨[], false, []⟩ es = .ok p ∧ p.pending = [] ∧
      p.subHeaders = es.flatMap Event.subHeaders ∧ p.payloads = es.flatMap Event.payloads) ↔
      Fits 0 es :=
  (writePump_fits_iff (p := ⟨[], false, []⟩) fun _ => rfl).symm

/-- As many sub-headers of six bytes, and a payload. -/
def burst (n : ℕ) : List Event :=
  replicate n (.subHeader ⟨.autoDetectRequest, [0, 0, 0xC0, 8]⟩) ++ [.outgoing [1]]

set_option maxRecDepth 1000 in
theorem writePump_burst_fortyTwo : writePump ⟨[], false, []⟩ (burst 42) =
    .error ("HeaderLength", "sub-headers exceed one byte of length") := rfl

end Linrdp.Rdpemt.WritePump
