import Linrdp.Capture.TileDamage

/-!
# The ClearCodec encoder and its session state

What a ClearCodec message depends on besides its pixels: the sequence number and the glyph cache of
`clearcodec/mod.rs`. The glyph an `encode` stores is provisional: `commitGlyph` keeps it,
`rollbackGlyph` puts the slot back. `InSession log` is what the client expects of the messages since
its last reset: they are numbered from zero, and a glyph hit names a slot that one of them has
filled.
-/

namespace Linrdp.Graphics.ClearCodec

open List Capture.TileDamage Function

structure GlyphEntry where
  (width height : ℕ)
  pixels : Bytes
deriving DecidableEq

inductive Payload
  /-- the client has the pixels in this slot -/
  | hit (index : ℕ)
  /-- the pixels, and the slot the client puts them in -/
  | bitmap (glyph : Option ℕ) (entry : GlyphEntry)

structure ClearMessage where
  seq : ℕ
  payload : Payload

structure PendingGlyph where
  index : ℕ
  previous : Option GlyphEntry
  previousNextIndex : ℕ

structure ClearCodecEncoder where
  seqNumber : ℕ
  glyphCache : ℕ → Option GlyphEntry
  nextGlyphIndex : ℕ
  pendingGlyph : Option PendingGlyph

def ClearCodecEncoder.new : ClearCodecEncoder := ⟨0, fun _ => none, 0, none⟩

def glyphCacheWrap : ℕ := 4000

variable (e : ClearCodecEncoder)

variable (entry : GlyphEntry)

def findGlyphMatch : Option ℕ :=
  (List.range glyphCacheWrap).find? fun idx => e.glyphCache idx == some entry

def encode : ClearMessage × ClearCodecEncoder :=
  let e := { e with pendingGlyph := none }
  let useGlyph : Bool := entry.width * entry.height ≤ 1024
  let next := { e with seqNumber := (e.seqNumber + 1) % 256 }
  match useGlyph, findGlyphMatch e entry with
  | true, some index => (⟨e.seqNumber, .hit index⟩, next)
  | true, none =>
    let idx := e.nextGlyphIndex
    (⟨e.seqNumber, .bitmap (some idx) entry⟩,
      { next with
        pendingGlyph := some ⟨idx, e.glyphCache idx, idx⟩
        glyphCache := update e.glyphCache idx (some entry)
        nextGlyphIndex := (idx + 1) % glyphCacheWrap })
  | false, _ => (⟨e.seqNumber, .bitmap none entry⟩, next)

def commitGlyph : ClearCodecEncoder := { e with pendingGlyph := none }

def rollbackGlyph : ClearCodecEncoder :=
  match e.pendingGlyph with
  | none => e
  | some p =>
    { e with pendingGlyph := none
             glyphCache := update e.glyphCache p.index p.previous
             nextGlyphIndex := p.previousNextIndex }

def setSequence (seq : ℕ) : ClearCodecEncoder := { e with seqNumber := seq }

def resetSession (_ : ClearCodecEncoder) : ClearCodecEncoder := .new

/-! ### What the client expects -/

variable (log : List ClearMessage)

def Filled (index : ℕ) : Prop := ∃ m ∈ log, ∃ entry, m.payload = .bitmap (some index) entry

structure InSession (log : List ClearMessage) : Prop where
  seq : ∀ pre m post, log = pre ++ m :: post → m.seq = pre.length % 256
  hit : ∀ pre m post, log = pre ++ m :: post → ∀ index, m.payload = .hit index → Filled pre index

theorem inSession_nil : InSession [] := by constructor <;> simp

theorem InSession.append {log : List ClearMessage} {m : ClearMessage} (h : InSession log)
    (hseq : m.seq = log.length % 256)
    (hhit : ∀ index, m.payload = .hit index → Filled log index) : InSession (log ++ [m]) := by
  have hsplit : ∀ pre m' post, log ++ [m] = pre ++ m' :: post →
      (pre = log ∧ m' = m) ∨ ∃ post', log = pre ++ m' :: post' := by
    intro pre m' post heq
    rcases eq_nil_or_concat post with rfl | ⟨post', last, rfl⟩
    · obtain ⟨rfl, hm⟩ := append_inj' heq rfl
      exact .inl ⟨rfl, (cons.inj hm).1.symm⟩
    · have heq' : log ++ [m] = (pre ++ m' :: post') ++ [last] := by simpa using heq
      exact .inr ⟨post', (append_inj' heq' rfl).1⟩
  constructor
  · intro pre m' post heq
    obtain ⟨rfl, rfl⟩ | ⟨post', rfl⟩ := hsplit pre m' post heq
    · exact hseq
    · exact h.seq pre m' post' rfl
  · intro pre m' post heq
    obtain ⟨rfl, rfl⟩ | ⟨post', rfl⟩ := hsplit pre m' post heq
    · exact hhit
    · exact h.hit pre m' post' rfl

theorem Filled.append {log : List ClearMessage} {index : ℕ} (h : Filled log index)
    (m : ClearMessage) : Filled (log ++ [m]) index := by
  obtain ⟨m', hm', hfill⟩ := h
  exact ⟨m', mem_append_left _ hm', hfill⟩

/-! ### The encoder's view of the client -/

def Mirrors : Prop := ∀ index, (e.glyphCache index).isSome → Filled log index

theorem mirrors_new : Mirrors .new log := by
  intro index h
  simp [ClearCodecEncoder.new] at h

theorem encode_seq : (encode e entry).1.seq = e.seqNumber := by
  unfold encode
  dsimp only
  split <;> rfl

theorem encode_hit {e : ClearCodecEncoder} {entry : GlyphEntry} {index : ℕ}
    (h : (encode e entry).1.payload = .hit index) : e.glyphCache index = some entry := by
  unfold encode at h
  dsimp only at h
  split at h
  · rename_i hfind
    obtain rfl := Payload.hit.inj h
    simpa using find?_some hfind
  · simp at h
  · simp at h

theorem mirrors_commit {e : ClearCodecEncoder} {log : List ClearMessage} (h : Mirrors e log) :
    Mirrors (commitGlyph (encode e entry).2) (log ++ [(encode e entry).1]) := by
  intro index hsome
  unfold encode at hsome ⊢
  dsimp only [commitGlyph] at hsome ⊢
  split at hsome
  · exact (h index hsome).append _
  · by_cases hidx : index = e.nextGlyphIndex
    · rw [hidx]
      exact ⟨_, mem_append_right _ mem_cons_self, entry, rfl⟩
    · dsimp only at hsome
      rw [update_of_ne hidx] at hsome
      exact (h index hsome).append _
  · exact (h index hsome).append _

theorem rollback_glyphCache : (rollbackGlyph (encode e entry).2).glyphCache = e.glyphCache := by
  unfold encode
  dsimp only
  split
  · rfl
  · unfold rollbackGlyph
    dsimp only
    rw [update_idem, update_eq_self]
  · rfl

end Linrdp.Graphics.ClearCodec
