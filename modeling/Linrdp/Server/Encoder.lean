import Linrdp.Graphics.Diff

/-!
# The update encoder

What the server writes for a bitmap of the legacy path: `UpdateEncoder` and its iterator, and
`dispatch_display_update`. The encoder keeps a framebuffer of what it sent and sends only the tiles
of a bitmap that differ from it, cut into pieces that fit a request. An error of the codec, which
ends the connection, is `none`. Bitmaps are packed, four bytes a pixel. The codec is a parameter:
what it says of a piece is the size of the update, or that it failed. `mem_dispatchBitmap` has the
pixels that are written.
-/

namespace Linrdp.Server.Encoder

open List Lib.Rects Lib.Cover Capture.TileDamage Graphics.Diff Rect

def maxSlowpathUpdateSize : ℕ := 65400

def slowpathTileBytes : ℕ := 48 * 1024

/-- `BitmapUpdate`, as the display makes it. -/
structure Bitmap where
  (x y width height : ℕ)
  data : Bytes
  width_pos : 0 < width
  height_pos : 0 < height
  width_le : width ≤ 65535
  height_le : height ≤ 65535
  packed : data.length = width * 4 * height

/-- `BitmapUpdate`, as a part of one: the stride is that of the whole. -/
structure Piece where
  (x y width height : ℕ)
  data : Bytes
  stride : ℕ

def Bitmap.rect (b : Bitmap) : Rect := ⟨b.x, b.y, b.width, b.height⟩

def Piece.rect (p : Piece) : Rect := ⟨p.x, p.y, p.width, p.height⟩

def Bitmap.sub (b : Bitmap) (r : Rect) : Option Piece :=
  if b.width < r.x + r.w ∨ b.height < r.y + r.h then none
  else
    let start := r.y * (b.width * 4) + r.x * 4
    some ⟨b.x + r.x, b.y + r.y, r.w, r.h,
      (b.data.drop start).take ((r.h - 1) * (b.width * 4) + r.w * 4), b.width * 4⟩

structure Framebuffer where
  (width height : ℕ)
  data : Bytes
  packed : data.length = width * 4 * height

variable (fb : Framebuffer)

def Framebuffer.update (p : Piece) : Framebuffer where
  width := fb.width
  height := fb.height
  data := (List.range fb.data.length).map fun i =>
    let row := i / (fb.width * 4)
    let column := i % (fb.width * 4)
    if (column / 4, row) ∈ p.rect then p.data.getD ((row - p.y) * p.stride + (column - p.x * 4)) 0
    else fb.data.getD i 0
  packed := by rw [List.length_map, List.length_range, fb.packed]

def Framebuffer.updateDiffs (b : Bitmap) (diffs : List Rect) : Framebuffer :=
  (diffs.filterMap b.sub).foldl Framebuffer.update fb

/-- The encoder of one activation; its framebuffer has the size of the desktop. -/
structure UpdateEncoder where
  desktopSize : ℕ × ℕ
  framebuffer : Option Framebuffer
  maxRequestSize : ℕ
  framebuffer_size : ∀ fb, framebuffer = some fb → (fb.width, fb.height) = desktopSize

def UpdateEncoder.new (desktopSize : ℕ × ℕ) (maxRequestSize : ℕ) : UpdateEncoder :=
  ⟨desktopSize, none, maxRequestSize, fun _ h => by simp at h⟩

def splitDiff (maxRequestSize : ℕ) (r : Rect) : List Rect :=
  let maxHeight := max (maxRequestSize / (r.w * 4)) 1
  (bands (r.y + r.h) maxHeight r.h r.y).flatMap fun (y, h) =>
    let maxWidth := max (maxRequestSize / (h * 4)) 1
    (bands (r.x + r.w) maxWidth r.w r.x).map fun (x, w) => ⟨x, y, w, h⟩

variable (e : UpdateEncoder)

def bitmapDiffs (b : Bitmap) : Option (List Rect) :=
  let diffs := match e.framebuffer with
    | some fb =>
      findDifferentRectsSub fb.data (fb.width * 4) fb.width fb.height b.data (b.width * 4) b.width
        b.height b.x b.y 4
    | none => some [⟨0, 0, b.width, b.height⟩]
  diffs.map fun diffs => diffs.flatMap fun r =>
    if r.w * r.h * 4 ≤ e.maxRequestSize then [r] else splitDiff e.maxRequestSize r

theorem updateDiffs_size (b : Bitmap) (diffs : List Rect) :
    (fb.updateDiffs b diffs).width = fb.width ∧ (fb.updateDiffs b diffs).height = fb.height := by
  unfold Framebuffer.updateDiffs
  induction diffs.filterMap b.sub generalizing fb with
  | nil => exact ⟨rfl, rfl⟩
  | cons p ps ih => exact ih (fb.update p)

def bitmapUpdateFramebuffer (b : Bitmap) (diffs : List Rect) : UpdateEncoder :=
  if h : b.x = 0 ∧ b.y = 0 ∧ b.width = e.desktopSize.1 ∧ b.height = e.desktopSize.2 then
    { e with
      framebuffer := some ⟨b.width, b.height, b.data, b.packed⟩
      framebuffer_size := fun fb hfb => by
        obtain ⟨-, -, hw, hh⟩ := h
        rw [← Option.some.inj hfb]
        exact Prod.ext hw hh }
  else
    { e with
      framebuffer := e.framebuffer.map fun fb => fb.updateDiffs b diffs
      framebuffer_size := fun fb hfb => by
        obtain ⟨old, hold, rfl⟩ := Option.map_eq_some_iff.1 hfb
        obtain ⟨hw, hh⟩ := updateDiffs_size old b diffs
        rw [hw, hh]
        exact e.framebuffer_size old hold }

structure Connection where
  encoder : UpdateEncoder
  fastpathOutput : Bool
  codec : Piece → Option ℕ
  /-- a slow-path client gets small tiles -/
  tiles : fastpathOutput = false → encoder.maxRequestSize ≤ slowpathTileBytes
  /-- and such a tile, once compressed, fits a PDU -/
  small : fastpathOutput = false → ∀ p size, codec p = some size →
    p.width * p.height * 4 ≤ slowpathTileBytes → size ≤ maxSlowpathUpdateSize

structure Sent where
  rects : List Rect
  finished : Bool

def sendPieces (c : Connection) (b : Bitmap) : List Rect → Option Sent
  | [] => some ⟨[], true⟩
  | r :: rs =>
    if 65535 < r.x ∨ 65535 < r.y ∨ 65535 < r.w ∨ 65535 < r.h ∨ r.w = 0 ∨ r.h = 0 then none
    else
      match b.sub r with
      | none => some ⟨[], false⟩
      | some piece => do
        let size ← c.codec piece
        let rest ← sendPieces c b rs
        some { rest with
          rects :=
            if c.fastpathOutput || size ≤ maxSlowpathUpdateSize then piece.rect :: rest.rects
            else rest.rects }

def dispatchBitmap (c : Connection) (b : Bitmap) : Option (List Rect × Connection) :=
  if c.encoder.desktopSize.1 < b.x + b.width ∨ c.encoder.desktopSize.2 < b.y + b.height then
    some ([], c)
  else do
    let diffs ← bitmapDiffs c.encoder b
    let sent ← sendPieces c b diffs
    some (sent.rects,
      if sent.finished then
        { c with
          encoder := bitmapUpdateFramebuffer c.encoder b diffs
          tiles := fun h => by
            unfold bitmapUpdateFramebuffer
            split_ifs <;> exact c.tiles h }
      else c)

/-! ### The pieces -/

theorem mem_splitDiff {m : ℕ} {r : Rect} {p : Pixel} : (∃ t ∈ splitDiff m r, p ∈ t) ↔ p ∈ r := by
  have hmax : ∀ k, 0 < max k 1 := fun k => by omega
  rw [mem_iff, ← mem_bands (hmax (m / (r.w * 4))) (Nat.le_refl (r.y + r.h))]
  simp only [splitDiff, mem_flatMap, mem_map]
  constructor
  · rintro ⟨t, ⟨⟨y, h⟩, hy, ⟨x, w⟩, hx, rfl⟩, ⟨hpx, hpw⟩, hp⟩
    refine ⟨?_, (y, h), hy, hp⟩
    exact (mem_bands (hmax _) (Nat.le_refl (r.x + r.w))).1 ⟨(x, w), hx, hpx, hpw⟩
  · rintro ⟨hp, ⟨y, h⟩, hy, hpy⟩
    obtain ⟨⟨x, w⟩, hx, hpx⟩ :=
      (mem_bands (hmax (m / (h * 4))) (Nat.le_refl (r.x + r.w))).2 hp
    exact ⟨⟨x, y, w, h⟩, ⟨(y, h), hy, (x, w), hx, rfl⟩, hpx, hpy⟩

/-- **A piece fits the request**, or is a single pixel. -/
theorem splitDiff_size {m : ℕ} {r t : Rect} (h : t ∈ splitDiff m r) :
    r.x ≤ t.x ∧ t.x + t.w ≤ r.x + r.w ∧ r.y ≤ t.y ∧ t.y + t.h ≤ r.y + r.h ∧ 0 < t.w ∧ 0 < t.h ∧
      t.w * t.h * 4 ≤ max m 4 := by
  have hmax : ∀ k, 0 < max k 1 := fun k => by omega
  simp only [splitDiff, mem_flatMap, mem_map] at h
  obtain ⟨⟨y, h⟩, hy, ⟨x, w⟩, hx, rfl⟩ := h
  obtain ⟨hy0, hy1, hh, hrows⟩ := bands_le (hmax _) hy
  obtain ⟨hx0, hx1, hw, hcolumns⟩ := bands_le (hmax _) hx
  dsimp only at hy0 hy1 hh hrows hx0 hx1 hw hcolumns ⊢
  refine ⟨hx0, hx1, hy0, hy1, hw, hh, ?_⟩
  by_cases hfit : w ≤ m / (h * 4)
  · have := (Nat.le_div_iff_mul_le (by omega)).1 hfit
    rw [Nat.mul_assoc]
    omega
  · -- not even a column of that height fits, so the height was not chosen to
    obtain ⟨hone, hnone⟩ : w = 1 ∧ m / (h * 4) = 0 := by
      generalize m / (h * 4) = k at hcolumns hfit ⊢
      omega
    have hlt : m < h * 4 := (Nat.div_eq_zero_iff.1 hnone).resolve_left (by omega)
    have hrow : h = 1 := by
      by_cases hband : h ≤ m / (r.w * 4)
      · have := (Nat.le_div_iff_mul_le (by omega)).1 hband
        have : h * 4 ≤ h * (r.w * 4) := Nat.mul_le_mul_left h (by omega)
        omega
      · generalize m / (r.w * 4) = k at hrows hband
        omega
    rw [hone, hrow]
    omega

/-- The encoder would send the pixel of the bitmap: it has sent nothing yet, or a pixel of the same
tile is another one than it sent. -/
def Differs (b : Bitmap) (p : Pixel) : Prop :=
  ∀ fb, e.framebuffer = some fb → ∃ q ∈ full b.width b.height, SameTile p q ∧
    pixelAt fb.data fb.width (b.x + q.1, b.y + q.2) ≠ pixelAt b.data b.width q

structure Fits (e : UpdateEncoder) (b : Bitmap) (r : Rect) : Prop where
  inside : r.Inside b.width b.height
  wide : 0 < r.w
  high : 0 < r.h
  size : r.w * r.h * 4 ≤ max e.maxRequestSize 4

theorem bitmapDiffs_spec {e : UpdateEncoder} {b : Bitmap}
    (hin : b.rect.Inside e.desktopSize.1 e.desktopSize.2) :
    ∃ diffs, bitmapDiffs e b = some diffs ∧ (∀ r ∈ diffs, Fits e b r) ∧
      ∀ p, (∃ r ∈ diffs, p ∈ r) ↔ p ∈ full b.width b.height ∧ Differs e b p := by
  obtain ⟨found, hfound, hinside, hmem⟩ : ∃ found,
      (match e.framebuffer with
        | some fb => findDifferentRectsSub fb.data (fb.width * 4) fb.width fb.height b.data
          (b.width * 4) b.width b.height b.x b.y 4
        | none => some [⟨0, 0, b.width, b.height⟩]) = some found ∧
      (∀ r ∈ found, r.Inside b.width b.height ∧ 0 < r.w ∧ 0 < r.h) ∧
      ∀ p, (∃ r ∈ found, p ∈ r) ↔ p ∈ full b.width b.height ∧ Differs e b p := by
    rcases hfb : e.framebuffer with _ | fb
    · refine ⟨_, rfl, fun r hr => ?_, fun p => ?_⟩
      · rw [mem_singleton.1 hr]
        exact ⟨full_inside _ _, b.width_pos, b.height_pos⟩
      · simp [Differs, hfb, full]
    · have hsize := e.framebuffer_size fb hfb
      have hplace : (⟨b.x, b.y, b.width, b.height⟩ : Rect).Inside fb.width fb.height := by
        rw [← hsize] at hin
        exact hin
      obtain ⟨found, hfound, hinside, hmem⟩ := findDifferentRectsSub_spec b.width_pos b.height_pos
        hplace fb.packed b.packed
      refine ⟨found, hfound, hinside, fun p => ?_⟩
      rw [hmem]
      simp [Differs, hfb]
  refine ⟨_, by rw [bitmapDiffs, hfound]; rfl, fun t ht => ?_, fun p => ?_⟩
  · obtain ⟨r, hr, ht⟩ := mem_flatMap.1 ht
    obtain ⟨⟨hx, hy⟩, hw, hh⟩ := hinside r hr
    split_ifs at ht with hfit
    · rw [mem_singleton.1 ht]
      exact ⟨⟨hx, hy⟩, hw, hh, by omega⟩
    · obtain ⟨-, htx, -, hty, htw, hth, hsize⟩ := splitDiff_size ht
      exact ⟨⟨by omega, by omega⟩, htw, hth, hsize⟩
  · rw [← hmem]
    simp only [mem_flatMap]
    constructor
    · rintro ⟨t, ⟨r, hr, ht⟩, hp⟩
      refine ⟨r, hr, ?_⟩
      split_ifs at ht with hfit
      · rwa [mem_singleton.1 ht] at hp
      · exact mem_splitDiff.1 ⟨t, ht, hp⟩
    · rintro ⟨r, hr, hp⟩
      by_cases hfit : r.w * r.h * 4 ≤ e.maxRequestSize
      · exact ⟨r, ⟨r, hr, by rw [if_pos hfit]; exact mem_singleton_self r⟩, hp⟩
      · obtain ⟨t, ht, hp⟩ := mem_splitDiff.2 hp
        exact ⟨t, ⟨r, hr, by rw [if_neg hfit]; exact ht⟩, hp⟩

def place (b : Bitmap) (r : Rect) : Rect := ⟨b.x + r.x, b.y + r.y, r.w, r.h⟩

/-- **Every piece is written**, if the codec did not fail: none is too large for the client. -/
theorem sendPieces_spec {c : Connection} {b : Bitmap} {rs : List Rect} {sent : Sent}
    (hfits : ∀ r ∈ rs, Fits c.encoder b r) (h : sendPieces c b rs = some sent) :
    sent = ⟨rs.map (place b), true⟩ := by
  induction rs generalizing sent with
  | nil => exact (Option.some.inj h).symm
  | cons r rs ih =>
    obtain ⟨⟨hx, hy⟩, hw, hh, hsize⟩ := hfits r mem_cons_self
    have hwidth := b.width_le
    have hheight := b.height_le
    rw [sendPieces, if_neg (by omega), Bitmap.sub, if_neg (by omega)] at h
    simp only [Option.bind_eq_bind, Option.bind_eq_some_iff] at h
    obtain ⟨size, hcodec, rest, hrest, h⟩ := h
    obtain rfl := ih (fun t ht => hfits t (mem_cons_of_mem _ ht)) hrest
    have hwritten : (c.fastpathOutput || decide (size ≤ maxSlowpathUpdateSize)) = true := by
      rcases hfast : c.fastpathOutput with _ | _
      · have htiles := c.tiles hfast
        have hsmall : r.w * r.h * 4 ≤ slowpathTileBytes := by
          simp only [slowpathTileBytes] at htiles ⊢
          omega
        simp [c.small hfast _ size hcodec hsmall]
      · rfl
    rw [← Option.some.inj h, if_pos hwritten]
    rfl

/-- **What is written for a bitmap on the desktop**: the tiles of it that differ from what the
encoder sent before. -/
theorem mem_dispatchBitmap {c c' : Connection} {b : Bitmap} {written : List Rect} {p : Pixel}
    (hin : b.rect.Inside c.encoder.desktopSize.1 c.encoder.desktopSize.2)
    (h : dispatchBitmap c b = some (written, c')) :
    (∃ r ∈ written, p ∈ r) ↔ p ∈ b.rect ∧ Differs c.encoder b (p.1 - b.x, p.2 - b.y) := by
  obtain ⟨hx, hy⟩ := hin
  simp only [Bitmap.rect] at hx hy
  rw [dispatchBitmap, if_neg (by omega)] at h
  simp only [Option.bind_eq_bind, Option.bind_eq_some_iff] at h
  obtain ⟨diffs, hdiffs, sent, hsent, h⟩ := h
  obtain ⟨diffs', hdiffs', hfits, hmem⟩ := bitmapDiffs_spec (e := c.encoder) (b := b) ⟨hx, hy⟩
  obtain rfl : diffs' = diffs := Option.some.inj (hdiffs'.symm.trans hdiffs)
  obtain rfl := sendPieces_spec hfits hsent
  obtain rfl : diffs'.map (place b) = written := congrArg Prod.fst (Option.some.inj h)
  have hplace : ∀ r, p ∈ place b r ↔
      (b.x ≤ p.1 ∧ b.y ≤ p.2) ∧ (p.1 - b.x, p.2 - b.y) ∈ r := by
    intro r
    simp only [mem_iff, place]
    omega
  have hrect : p ∈ b.rect ↔ (b.x ≤ p.1 ∧ b.y ≤ p.2) ∧
      (p.1 - b.x, p.2 - b.y) ∈ full b.width b.height := by
    rw [mem_full, mem_iff]
    simp only [Bitmap.rect]
    omega
  simp only [mem_map, exists_exists_and_eq_and, hplace]
  rw [hrect, and_assoc, ← hmem]
  constructor
  · rintro ⟨r, hr, hxy, hp⟩
    exact ⟨hxy, r, hr, hp⟩
  · rintro ⟨hxy, r, hr, hp⟩
    exact ⟨r, hr, hxy, hp⟩

end Linrdp.Server.Encoder
