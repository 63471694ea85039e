import Linrdp.Lib.Runs
import Linrdp.Graphics.ClearCodec
import Linrdp.Graphics.ClearResidual

/-!
# The ClearCodec decoder, and a session of both ends

The bytes of a message (`wire`) and the decoder of `clearcodec/mod.rs`. The encoder writes only the
first of the three layers, so the other two are left open (`Layers`). `session_exact`: whatever
bitmaps are encoded, whichever messages are dropped and however often the session starts over, the
decoder returns every delivered bitmap, opaque, and never fails.
-/

namespace Linrdp.Graphics.ClearDecoder

open Function List Lib.Bytes Lib.Runs
open Capture.TileDamage Graphics.ClearCodec Graphics.ClearResidual UInt8

def flagGlyphIndex : UInt8 := 0x01

def flagGlyphHit : UInt8 := 0x02

def flagCacheReset : UInt8 := 0x04

/-! ### Messages as bytes -/

/-- The two empty layers stand as their lengths. -/
def composite (residual : Bytes) : Bytes :=
  toLe 4 (min residual.length (2 ^ 32 - 1)) ++ (toLe 4 0 ++ (toLe 4 0 ++ residual))

/-- What `encode` and `encode_glyph_hit` return. -/
def wire (m : ClearMessage) : Bytes :=
  match m.payload with
  | .hit index => (flagGlyphIndex ||| flagGlyphHit) :: ofNat m.seq :: toLe 2 index
  | .bitmap glyph entry =>
    let residual := encodeResidualLayer (bgraToRunSegments entry.pixels
      (entry.width * entry.height))
    match glyph with
    | some index => flagGlyphIndex :: ofNat m.seq :: (toLe 2 index ++ composite residual)
    | none => 0 :: ofNat m.seq :: composite residual

structure CompositePayload where
  (residualData bandsData subcodecData : Bytes)

structure BitmapStream where
  (flags seqNumber : UInt8)
  glyphIndex : Option ℕ
  composite : Option CompositePayload

def ensure {α : Type} : Option α → Except String α
  | some a => .ok a
  | none => .error "not enough bytes"

def CompositePayload.decode (src : Bytes) : Except String CompositePayload := do
  let (residualByteCount, src) ← ensure (readLe 4 src)
  let (bandsByteCount, src) ← ensure (readLe 4 src)
  let (subcodecByteCount, src) ← ensure (readLe 4 src)
  if src.length < residualByteCount + bandsByteCount + subcodecByteCount then
    .error "not enough bytes"
  else
    let bands := src.drop residualByteCount
    return ⟨src.take residualByteCount, bands.take bandsByteCount,
      (bands.drop bandsByteCount).take subcodecByteCount⟩

def readGlyphIndex (flags : UInt8) (src : Bytes) : Except String (Option ℕ × Bytes) :=
  if flags &&& flagGlyphIndex ≠ 0 then
    (ensure (readLe 2 src)).map fun (index, src) => (some index, src)
  else .ok (none, src)

/-- A hit has no payload, and neither need a cache reset. -/
def readComposite (flags : UInt8) (src : Bytes) : Except String (Option CompositePayload) :=
  if flags &&& flagGlyphHit ≠ 0 then .ok none
  else if src = [] then .ok none
  else (CompositePayload.decode src).map some

def BitmapStream.decode : Bytes → Except String BitmapStream
  | flags :: seqNumber :: src => do
    let (glyphIndex, src) ← readGlyphIndex flags src
    let composite ← readComposite flags src
    return ⟨flags, seqNumber, glyphIndex, composite⟩
  | _ => .error "not enough bytes"

/-! ### The decoder -/

/-- The layers of bands and subcodecs: what they do to the output, with the caches `V` of the bands.
-/
structure Layers (V : Type) where
  reset : V → V
  bands : V → Bytes → ℕ → Bytes → Except String (V × Bytes)
  subcodecs : Bytes → ℕ → Bytes → Except String Bytes

structure ClearCodecDecoder (V : Type) where
  vbarCache : V
  glyphCache : ℕ → Option GlyphEntry

section decoder

variable {V : Type}

def ClearCodecDecoder.new (vbarCache : V) : ClearCodecDecoder V := ⟨vbarCache, fun _ => none⟩

def maxDecodeDim : ℕ := 8192

def residualLayer (data output : Bytes) : Except String Bytes :=
  if data = [] then .ok output
  else (decodeResidualLayer data).map fun segments => fill segments output

def decodeComposite (layers : Layers V) (vbarCache : V) (c : CompositePayload) (output : Bytes)
    (width : ℕ) : Except String (V × Bytes) := do
  let output ← residualLayer c.residualData output
  let (vbarCache, output) ←
    if c.bandsData = [] then .ok (vbarCache, output)
    else layers.bands vbarCache c.bandsData width output
  let output ←
    if c.subcodecData = [] then .ok output else layers.subcodecs c.subcodecData width output
  return (vbarCache, output)

/-- A glyph of at most 1024 pixels is stored. -/
def storeGlyph (d : ClearCodecDecoder V) (glyphIndex : Option ℕ) (entry : GlyphEntry) :
    ClearCodecDecoder V :=
  match glyphIndex with
  | some index =>
    if entry.width * entry.height ≤ 1024 then
      { d with glyphCache := Function.update d.glyphCache index (some entry) }
    else d
  | none => d

/-- `decode` once the stream is parsed. -/
def decodeStream (layers : Layers V) (d : ClearCodecDecoder V) (stream : BitmapStream)
    (width height : ℕ) : Except String (Bytes × ClearCodecDecoder V) :=
  let d := if stream.flags &&& flagCacheReset ≠
    0 then { d with vbarCache := layers.reset d.vbarCache }
    else d
  if stream.glyphIndex.any fun index => glyphCacheWrap ≤ index then
    .error "glyph index out of range 0-3999"
  else if stream.flags &&& flagGlyphHit ≠ 0 then
    match stream.glyphIndex with
    | none => .error "GLYPH_HIT without GLYPH_INDEX"
    | some index =>
      match d.glyphCache index with
      | none => .error "glyph cache miss on hit"
      | some entry =>
        if entry.pixels.length / 4 ≠ width * height then
          .error "cached glyph area does not match destination"
        else .ok (entry.pixels, d)
  else if maxDecodeDim < width ∨ maxDecodeDim < height then
    .error "width or height exceeds 8192-pixel decoder limit"
  else do
    let output := List.replicate (width * height * 4) 0
    let (vbarCache, output) ←
      match stream.composite with
      | none => pure (d.vbarCache, output)
      | some c => decodeComposite layers d.vbarCache c output width
    return (output, storeGlyph { d with vbarCache := vbarCache } stream.glyphIndex
      ⟨width, height, output⟩)

def decode (layers : Layers V) (d : ClearCodecDecoder V) (data : Bytes) (width height : ℕ) :
    Except String (Bytes × ClearCodecDecoder V) := do
  let stream ← BitmapStream.decode data
  decodeStream layers d stream width height

end decoder

/-! ### A session -/

structure Bitmap where
  entry : GlyphEntry
  width_le : entry.width ≤ 8192
  height_le : entry.height ≤ 8192
  size : entry.pixels.length = entry.width * entry.height * 4

inductive Event
  | deliver (bitmap : Bitmap)
  /-- the message is dropped, and its number is given again -/
  | drop (bitmap : Bitmap)
  | reset

structure Ends (V : Type) where
  encoder : ClearCodecEncoder
  decoder : ClearCodecDecoder V
  answers : List (Bitmap × Except String Bytes)

section session

variable {V : Type}

def Ends.start (vbarCache : V) : Ends V := ⟨.new, .new vbarCache, []⟩

def step (layers : Layers V) (vbarCache : V) (s : Ends V) : Event → Ends V
  | .deliver b =>
    let encoded := encode s.encoder b.entry
    match decode layers s.decoder (wire encoded.1) b.entry.width b.entry.height with
    | .ok (pixels, decoder) => ⟨commitGlyph encoded.2, decoder, s.answers ++ [(b, .ok pixels)]⟩
    | .error error => ⟨commitGlyph encoded.2, s.decoder, s.answers ++ [(b, .error error)]⟩
  | .drop b =>
    { s with
      encoder := setSequence (rollbackGlyph (encode s.encoder b.entry).2) s.encoder.seqNumber }
  | .reset => { s with encoder := resetSession s.encoder, decoder := .new vbarCache }

/-! ### What the decoder makes of a message -/

theorem ok_bind {α β : Type} (a : α) (f : α → Except String β) : (Except.ok a >>= f) = f a := rfl

theorem decode_composite {residual : Bytes} (h : residual.length < 2 ^ 32) :
    CompositePayload.decode (composite residual) = .ok ⟨residual, [], []⟩ := by
  have hlength : min residual.length (2 ^ 32 - 1) = residual.length := by omega
  have hzero (rest : Bytes) : readLe 4 (toLe 4 0 ++ rest) = some (0, rest) :=
    readLe_toLe_append (by decide) rest
  have hresidual (rest : Bytes) :
      readLe 4 (toLe 4 residual.length ++ rest) = some (residual.length, rest) :=
    readLe_toLe_append h rest
  rw [composite, hlength, CompositePayload.decode, hresidual, ensure, ok_bind]
  dsimp only
  rw [hzero, ensure, ok_bind]
  rw [hzero, ensure, ok_bind]
  dsimp only
  rw [if_neg (by omega), take_length, drop_length, take_nil, drop_nil, take_nil]
  rfl

theorem composite_ne_nil (residual : Bytes) : composite residual ≠ [] := by
  intro h
  have hlength := congrArg List.length h
  simp [composite] at hlength

theorem stream_bitmap {seq : ℕ} {glyph : Option ℕ} {entry : GlyphEntry}
    (hglyph : ∀ index, glyph = some index → index < glyphCacheWrap)
    (hresidual : (encodeResidualLayer
      (bgraToRunSegments entry.pixels (entry.width * entry.height))).length < 2 ^ 32) :
    BitmapStream.decode (wire ⟨seq, .bitmap glyph entry⟩) =
      .ok ⟨if glyph.isSome then flagGlyphIndex else 0, ofNat seq, glyph, some
        ⟨encodeResidualLayer (bgraToRunSegments entry.pixels (entry.width * entry.height)), [],
          []⟩⟩ := by
  have hcomposite (flags : UInt8) (hflags : flags &&& flagGlyphHit = 0) :
      readComposite flags (composite (encodeResidualLayer
        (bgraToRunSegments entry.pixels (entry.width * entry.height)))) = .ok (some
          ⟨encodeResidualLayer (bgraToRunSegments entry.pixels (entry.width * entry.height)), [],
            []⟩) := by
    rw [readComposite, if_neg (by simpa using hflags), if_neg (composite_ne_nil _),
      decode_composite hresidual]
    rfl
  cases glyph with
  | none =>
    rw [wire]
    rw [BitmapStream.decode, readGlyphIndex, if_neg (by decide), ok_bind]
    dsimp only
    rw [hcomposite 0 (by decide)]
    rfl
  | some index =>
    have hindex := hglyph index rfl
    rw [glyphCacheWrap] at hindex
    rw [wire]
    rw [BitmapStream.decode, readGlyphIndex, if_pos (by decide), readLe_toLe_append (by omega),
      ensure, Except.map, ok_bind]
    dsimp only
    rw [hcomposite flagGlyphIndex (by decide)]
    rfl

theorem stream_hit {index : ℕ} (h : index < glyphCacheWrap) (seq : ℕ) :
    BitmapStream.decode (wire ⟨seq, .hit index⟩) =
      .ok ⟨flagGlyphIndex ||| flagGlyphHit, ofNat seq, some index, none⟩ := by
  have hread : readLe 2 (toLe 2 index ++ []) = some (index, []) :=
    readLe_toLe_append (by rw [glyphCacheWrap] at h; omega) []
  rw [append_nil] at hread
  rw [wire]
  rw [BitmapStream.decode, readGlyphIndex, if_pos (by decide), hread]
  rfl

theorem decode_hit (layers : Layers V) {d : ClearCodecDecoder V} {index seq width height : ℕ}
    {entry : GlyphEntry} (hindex : index < glyphCacheWrap)
    (hentry : d.glyphCache index = some entry) (hsize : entry.pixels.length = width * height * 4) :
    decode layers d (wire ⟨seq, .hit index⟩) width height = .ok (entry.pixels, d) := by
  have harea : entry.pixels.length / 4 = width * height := by omega
  rw [decode, stream_hit hindex]
  change decodeStream layers d _ width height = _
  rw [decodeStream]
  dsimp only
  rw [if_neg (show ¬(flagGlyphIndex ||| flagGlyphHit) &&& flagCacheReset ≠ 0 by decide),
    if_neg (by simpa using hindex),
    if_pos (show (flagGlyphIndex ||| flagGlyphHit) &&& flagGlyphHit ≠ 0 by decide), hentry]
  dsimp only
  rw [if_neg (by simpa using harea)]

theorem Bitmap.area_le (b : Bitmap) : b.entry.width * b.entry.height ≤ 2 ^ 26 :=
  calc b.entry.width * b.entry.height ≤ 8192 * 8192 := Nat.mul_le_mul b.width_le b.height_le
    _ = 2 ^ 26 := by norm_num

theorem residualLayer_bitmap (b : Bitmap) :
    residualLayer
      (encodeResidualLayer (bgraToRunSegments b.entry.pixels (b.entry.width * b.entry.height)))
      (List.replicate (b.entry.width * b.entry.height * 4) 0) = .ok (solid b.entry.pixels) := by
  have hcount := b.area_le
  have hdecode := decode_encode fun seg hseg =>
    (runLength_le b.size hseg).trans_lt (by omega : b.entry.width * b.entry.height < 2 ^ 32)
  have hfill := fill_segments b.size (by omega)
    (length_replicate (a := (0 : UInt8)))
  rw [residualLayer]
  split_ifs with hempty
  · -- no pixels, no runs
    rw [hempty] at hdecode
    rw [← Except.ok.inj hdecode] at hfill
    exact congrArg Except.ok hfill
  · rw [hdecode, Except.map, hfill]

theorem decode_bitmap (layers : Layers V) (d : ClearCodecDecoder V) (b : Bitmap) {seq : ℕ}
    {glyph : Option ℕ} (hglyph : ∀ index, glyph = some index → index < glyphCacheWrap) :
    decode layers d (wire ⟨seq, .bitmap glyph b.entry⟩) b.entry.width b.entry.height =
      .ok (solid b.entry.pixels,
        storeGlyph d glyph ⟨b.entry.width, b.entry.height, solid b.entry.pixels⟩) := by
  have hcount := b.area_le
  have hresidual : (encodeResidualLayer (bgraToRunSegments b.entry.pixels
      (b.entry.width * b.entry.height))).length < 2 ^ 32 := by
    have hlength := length_residual b.size
    omega
  have hlayers : decodeComposite layers d.vbarCache
      ⟨encodeResidualLayer (bgraToRunSegments b.entry.pixels (b.entry.width * b.entry.height)), [],
        []⟩
      (replicate (b.entry.width * b.entry.height * 4) 0) b.entry.width =
      .ok (d.vbarCache, solid b.entry.pixels) := by
    rw [decodeComposite, residualLayer_bitmap, ok_bind, if_pos rfl, ok_bind]
    dsimp only
    rfl
  have hflags : ¬(if glyph.isSome then flagGlyphIndex else 0) &&& flagCacheReset ≠ 0 ∧
      ¬(if glyph.isSome then flagGlyphIndex else 0) &&& flagGlyphHit ≠ 0 := by
    cases glyph with
    | none => decide
    | some index =>
      rw [Option.isSome_some, if_pos rfl]
      decide
  have hindex : ¬glyph.any (fun index => glyphCacheWrap ≤ index) = true := by
    cases glyph with
    | none => simp
    | some index => simpa using hglyph index rfl
  rw [decode, stream_bitmap hglyph hresidual]
  change decodeStream layers d _ _ _ = _
  rw [decodeStream]
  dsimp only
  rw [if_neg hflags.1, if_neg hindex, if_neg hflags.2, if_neg (by
    have hw := b.width_le
    have hh := b.height_le
    rw [maxDecodeDim]
    omega), hlayers]
  rfl

/-! ### Both ends in step -/

def solidEntry (entry : GlyphEntry) : GlyphEntry := { entry with pixels := solid entry.pixels }

structure InStep (s : Ends V) : Prop where
  slots : ∀ index, s.decoder.glyphCache index = (s.encoder.glyphCache index).map solidEntry
  sizes : ∀ index entry, s.encoder.glyphCache index = some entry →
    entry.pixels.length = entry.width * entry.height * 4
  next : s.encoder.nextGlyphIndex < glyphCacheWrap

theorem encode_cases (e : ClearCodecEncoder) (entry : GlyphEntry) :
    (∃ index < glyphCacheWrap, e.glyphCache index = some entry ∧
      (encode e entry).1.payload = .hit index ∧
      (encode e entry).2.glyphCache = e.glyphCache ∧
      (encode e entry).2.nextGlyphIndex = e.nextGlyphIndex) ∨
    (entry.width * entry.height ≤ 1024 ∧
      (encode e entry).1.payload = .bitmap (some e.nextGlyphIndex) entry ∧
      (encode e entry).2.glyphCache = Function.update e.glyphCache e.nextGlyphIndex (some entry) ∧
      (encode e entry).2.nextGlyphIndex = (e.nextGlyphIndex + 1) % glyphCacheWrap) ∨
    ((encode e entry).1.payload = .bitmap none entry ∧
      (encode e entry).2.glyphCache = e.glyphCache ∧
      (encode e entry).2.nextGlyphIndex = e.nextGlyphIndex) := by
  unfold encode
  dsimp only
  split
  · rename_i index _ hfind
    have hmem := mem_of_find?_eq_some hfind
    have hentry := find?_some hfind
    exact .inl ⟨index, mem_range.1 hmem, by simpa using hentry, rfl, rfl, rfl⟩
  · rename_i hsmall _
    exact .inr (.inl ⟨by simpa using hsmall, rfl, rfl, rfl⟩)
  · exact .inr (.inr ⟨rfl, rfl, rfl⟩)

theorem rollback_nextGlyphIndex (e : ClearCodecEncoder) (entry : GlyphEntry) :
    (rollbackGlyph (encode e entry).2).nextGlyphIndex = e.nextGlyphIndex := by
  unfold encode
  dsimp only
  split <;> rfl

theorem step_deliver {layers : Layers V} {vbarCache : V} {s : Ends V} {b : Bitmap} {pixels : Bytes}
    {decoder : ClearCodecDecoder V} {payload : Payload}
    (hpayload : (encode s.encoder b.entry).1.payload = payload)
    (h : decode layers s.decoder (wire ⟨(encode s.encoder b.entry).1.seq, payload⟩) b.entry.width
      b.entry.height = .ok (pixels, decoder)) :
    step layers vbarCache s (.deliver b) =
      ⟨commitGlyph (encode s.encoder b.entry).2, decoder, s.answers ++ [(b, .ok pixels)]⟩ := by
  subst hpayload
  rw [step, h]

theorem InStep.same {s : Ends V} (h : InStep s) {e : ClearCodecEncoder}
    (hcache : e.glyphCache = s.encoder.glyphCache)
    (hnext : e.nextGlyphIndex = s.encoder.nextGlyphIndex)
    {answers : List (Bitmap × Except String Bytes)} :
    InStep ⟨commitGlyph e, s.decoder, answers⟩ := by
  refine ⟨?_, ?_, ?_⟩
  · rw [commitGlyph, hcache]
    exact h.slots
  · rw [commitGlyph, hcache]
    exact h.sizes
  · rw [commitGlyph, hnext]
    exact h.next

theorem InStep.stored {s : Ends V} (h : InStep s) (b : Bitmap) {e : ClearCodecEncoder}
    {vbarCache : V} (hcache : e.glyphCache =
      Function.update s.encoder.glyphCache s.encoder.nextGlyphIndex (some b.entry))
    (hnext : e.nextGlyphIndex = (s.encoder.nextGlyphIndex + 1) % glyphCacheWrap)
    {answers : List (Bitmap × Except String Bytes)} :
    InStep ⟨commitGlyph e, ⟨vbarCache, Function.update s.decoder.glyphCache s.encoder.nextGlyphIndex
      (some (solidEntry b.entry))⟩, answers⟩ := by
  refine ⟨fun index => ?_, fun index entry => ?_, ?_⟩
  · rw [commitGlyph, hcache]
    dsimp only
    by_cases hindex : index = s.encoder.nextGlyphIndex
    · rw [hindex, update_self, update_self]
      rfl
    · rw [update_of_ne hindex, update_of_ne hindex]
      exact h.slots index
  · rw [commitGlyph, hcache]
    by_cases hindex : index = s.encoder.nextGlyphIndex
    · rw [hindex, update_self]
      intro hentry
      rw [← Option.some.inj hentry]
      exact b.size
    · rw [update_of_ne hindex]
      exact h.sizes index entry
  · rw [commitGlyph, hnext]
    exact Nat.mod_lt _ (by decide)

theorem inStep_deliver (layers : Layers V) (vbarCache : V) {s : Ends V} (h : InStep s)
    (b : Bitmap) : InStep (step layers vbarCache s (.deliver b)) ∧
      (step layers vbarCache s (.deliver b)).answers =
        s.answers ++ [(b, .ok (solid b.entry.pixels))] := by
  rcases encode_cases s.encoder b.entry with ⟨index, hindex, hentry, hpayload, hcache, hnext⟩ |
    ⟨hsmall, hpayload, hcache, hnext⟩ | ⟨hpayload, hcache, hnext⟩
  · have hslot : s.decoder.glyphCache index = some (solidEntry b.entry) := by
      rw [h.slots, hentry]
      rfl
    rw [step_deliver hpayload (decode_hit layers hindex hslot (length_solid b.size))]
    exact ⟨h.same hcache hnext, rfl⟩
  · have hglyph : ∀ index, some s.encoder.nextGlyphIndex = some index → index < glyphCacheWrap := by
      rintro _ ⟨⟩
      exact h.next
    have hstore : storeGlyph s.decoder (some s.encoder.nextGlyphIndex) (solidEntry b.entry) =
        ⟨s.decoder.vbarCache, Function.update s.decoder.glyphCache s.encoder.nextGlyphIndex
          (some (solidEntry b.entry))⟩ := if_pos hsmall
    rw [step_deliver hpayload (decode_bitmap layers s.decoder b hglyph), ← solidEntry, hstore]
    exact ⟨h.stored b hcache hnext, rfl⟩
  · rw [step_deliver hpayload (decode_bitmap layers s.decoder b (by simp))]
    exact ⟨h.same hcache hnext, rfl⟩

theorem inStep_drop (layers : Layers V) (vbarCache : V) {s : Ends V} (h : InStep s) (b : Bitmap) :
    InStep (step layers vbarCache s (.drop b)) := by
  have hcache := rollback_glyphCache s.encoder b.entry
  have hnext := rollback_nextGlyphIndex s.encoder b.entry
  refine ⟨?_, ?_, ?_⟩
  · rw [step, setSequence, hcache]
    exact h.slots
  · rw [step, setSequence, hcache]
    exact h.sizes
  · rw [step, setSequence, hnext]
    exact h.next

theorem inStep_new (vbarCache : V) (answers : List (Bitmap × Except String Bytes)) :
    InStep ⟨.new, .new vbarCache, answers⟩ := by
  refine ⟨fun index => rfl, fun index entry hentry => ?_, Nat.zero_lt_succ _⟩
  cases hentry

def delivered (events : List Event) : List Bitmap :=
  events.filterMap fun
    | .deliver b => some b
    | _ => none

theorem answers_run (layers : Layers V) (vbarCache : V) {s : Ends V} (h : InStep s)
    (events : List Event) :
    (run (step layers vbarCache) s events).answers =
      s.answers ++ (delivered events).map fun b => (b, .ok (solid b.entry.pixels)) := by
  induction events generalizing s with
  | nil => exact (append_nil _).symm
  | cons event events ih =>
    rw [run_cons]
    cases event with
    | deliver b =>
      obtain ⟨hstep, hanswers⟩ := inStep_deliver layers vbarCache h b
      rw [ih hstep, hanswers, append_assoc]
      rfl
    | drop b => exact ih (inStep_drop layers vbarCache h b)
    | reset => exact ih (inStep_new vbarCache s.answers)

/-- **A session of both ends.** Every delivered bitmap comes back, opaque, and no message fails. -/
theorem session_exact (layers : Layers V) (vbarCache : V) (events : List Event) :
    (run (step layers vbarCache) (.start vbarCache) events).answers =
      (delivered events).map fun b => (b, .ok (solid b.entry.pixels)) :=
  answers_run layers vbarCache (inStep_new vbarCache []) events

end session

end Linrdp.Graphics.ClearDecoder
