import Linrdp.Display.Routing
import Linrdp.Server.Encoder

/-!
# What a client gets that asks for a redraw

A Refresh Rect PDU, or a Suppress Output PDU that resumes, has the display loop put the area in the
next legacy bitmap whether or not it changed. The update encoder sends of the bitmap only what
differs from its framebuffer. `redrawn_iff` is exact about the pixels of an area that are written
for the next grab: an unchanged area is not sent again (`unchanged_area_not_redrawn`).
-/

namespace Linrdp.Server.Refresh

open List Lib.Rects Capture.TileDamage Capture.Grabber Graphics.Diff
open Display.Rects Display.Frame Display.Routing Server.Encoder Nat Option Rect

/-! ### The bitmap of a grab -/

structure WholeGrab extends SourceGrab where
  packed : grab.frame.data.length = grab.frame.width * 4 * grab.frame.height

def region (f : Frame) (r : Rect) : Bytes :=
  (List.range' r.y r.h).flatMap fun row =>
    (f.data.drop (row * (f.width * 4) + r.x * 4)).take (r.w * 4)

theorem length_flatMap_rows {n : ℕ} {f : ℕ → Bytes} {h y : ℕ}
    (hlen : ∀ row, y ≤ row → row < y + h → (f row).length = n) :
    ((List.range' y h).flatMap f).length = n * h := by
  induction h generalizing y with
  | zero => rfl
  | succ h ih =>
    rw [range'_succ, flatMap_cons, length_append, hlen y (by omega) (by omega),
      ih fun row hy hh => hlen row (by omega) (by omega), mul_succ, add_comm]

theorem slice_append_left {xs ys : Bytes} {start len : ℕ} (h : start + len ≤ xs.length) :
    slice (xs ++ ys) start len = slice xs start len := by
  rw [slice_isSome h, slice_isSome (by rw [length_append]; omega),
    drop_append_of_le_length (by omega), take_append_of_le_length]
  rw [length_drop]
  omega

theorem slice_append_right {xs ys : Bytes} {start len : ℕ} :
    slice (xs ++ ys) (xs.length + start) len = slice ys start len := by
  simp only [slice, length_append, drop_length_add_append]
  by_cases h : start + len ≤ ys.length
  · rw [if_pos h, if_pos (by omega)]
  · rw [if_neg h, if_neg (by omega)]

theorem slice_flatMap_rows {n : ℕ} {f : ℕ → Bytes} {start len : ℕ} (hstart : start + len ≤ n)
    {k h y : ℕ} (hk : k < h) (hlen : ∀ row, y ≤ row → row < y + h → (f row).length = n) :
    slice ((List.range' y h).flatMap f) (k * n + start) len = slice (f (y + k)) start len := by
  induction h generalizing k y with
  | zero => omega
  | succ h ih =>
    have hrow := hlen y (by omega) (by omega)
    rw [range'_succ, flatMap_cons]
    rcases k with _ | k
    · rw [zero_mul, zero_add, slice_append_left (by omega), add_zero]
    · have hplace : (k + 1) * n + start = (f y).length + (k * n + start) := by
        rw [hrow, add_mul]
        omega
      rw [hplace, slice_append_right, ih (by omega) fun row hy hh => hlen row (by omega) (by omega),
        add_right_comm, add_assoc]

section region

variable {g : WholeGrab} {r : Rect}

section

variable (hr : r.Inside g.grab.frame.width g.grab.frame.height)
include hr

theorem length_row {row : ℕ} (hrow : row < r.y + r.h) :
    ((g.grab.frame.data.drop (row * (g.grab.frame.width * 4) + r.x * 4)).take (r.w * 4)).length =
      r.w * 4 := by
  obtain ⟨hx, hy⟩ := hr
  have hrange : row * (g.grab.frame.width * 4) + r.x * 4 + r.w * 4 ≤
      g.grab.frame.width * 4 * g.grab.frame.height := row_in_range (by omega) hx
  rw [length_take, length_drop, g.packed]
  omega

end

variable (g r) in
/-- `legacy_display_update_of`, for a rectangle of the grab that is not empty. -/
def bitmapOf (hr : r.Inside g.grab.frame.width g.grab.frame.height) (hw : 0 < r.w) (hh : 0 < r.h) :
    Bitmap where
  x := r.x
  y := r.y
  width := r.w
  height := r.h
  data := region g.grab.frame r
  width_pos := hw
  height_pos := hh
  width_le := by have := hr.1; have := g.width_le; omega
  height_le := by have := hr.2; have := g.height_le; omega
  packed := length_flatMap_rows fun _ _ hrow => length_row hr hrow

theorem pixelAt_region (hr : r.Inside g.grab.frame.width g.grab.frame.height) {q : Pixel}
    (hq : q ∈ full r.w r.h) :
    pixelAt (region g.grab.frame r) r.w q =
      pixelAt g.grab.frame.data g.grab.frame.width (r.x + q.1, r.y + q.2) := by
  obtain ⟨hx, hy⟩ := mem_full.1 hq
  have hin : q.1 * 4 + 4 ≤ r.w * 4 := by omega
  have hrow : r.y + q.2 < r.y + r.h := by omega
  have hplace : (r.y + q.2) * (g.grab.frame.width * 4) + (r.x + q.1) * 4 =
      (r.y + q.2) * (g.grab.frame.width * 4) + r.x * 4 + q.1 * 4 := by omega
  rw [pixelAt, region, slice_flatMap_rows hin hy fun _ _ hrow => length_row hr hrow,
    slice_isSome (by rw [length_row hr hrow]; exact hin), pixelAt, hplace,
    slice_sub (slice_isSome ?_) hin]
  rw [g.packed]
  exact row_in_range (Nat.lt_of_lt_of_le hrow hr.2) hr.1

end region

/-! ### Requests -/

structure InclusiveRectangle where
  (left top right bottom : ℕ)

instance : Membership Pixel InclusiveRectangle :=
  ⟨fun area p => (area.left ≤ p.1 ∧ p.1 ≤ area.right) ∧ area.top ≤ p.2 ∧ p.2 ≤ area.bottom⟩

/-- None for an inverted one; the size saturates. -/
def inclusiveToXywh (area : InclusiveRectangle) : Option Rect :=
  if area.right < area.left ∨ area.bottom < area.top then none
  else
    some ⟨area.left, area.top, min (area.right - area.left + 1) 65535,
      min (area.bottom - area.top + 1) 65535⟩

def requestRefresh (pending : Option Rect) (areas : List InclusiveRectangle) : Option Rect :=
  (areas.filterMap inclusiveToXywh).foldl addRefresh pending

structure LegacySession where
  u : EgfxUpdates
  requested : Option Rect
  suppressed : Bool
  connection : Connection

inductive RefreshPdu
  | refreshRectangle (areasToRefresh : List InclusiveRectangle)
  | suppressOutput (desktopRect : Option InclusiveRectangle)

variable (s : LegacySession)

def receive : RefreshPdu → LegacySession
  | .refreshRectangle areas =>
    { s with suppressed := false, requested := requestRefresh s.requested areas }
  | .suppressOutput none => { s with suppressed := true }
  | .suppressOutput (some desktop) =>
    { s with
      suppressed := false
      requested := if s.suppressed then requestRefresh s.requested [desktop] else s.requested }

def named : RefreshPdu → List InclusiveRectangle
  | .refreshRectangle areas => areas
  | .suppressOutput desktop => if s.suppressed then desktop.toList else []

def look : LegacySession := { s with u := takeRefresh s.u s.requested, requested := none }

/-- The session when it takes up a grab: the PDU came before the loop looked, or after it. -/
def asked (pdu : RefreshPdu) (late : Bool) : LegacySession :=
  if late then receive (look s) pdu else look (receive s pdu)

structure Reactivation where
  u : EgfxUpdates
  connection : Connection

/-- A grab on the legacy path: what is written of it, and the session after it. None is the end of
the connection, or of the loop. -/
def consume (situation : Situation) (g : WholeGrab) (restart : Reactivation) :
    Option (List Rect × LegacySession) :=
  match legacyGrab (seeHandle s.u situation) g.grab with
  | (none, u) => some ([], { s with u := u })
  | (some (.resize _ _), _) =>
    some ([], { s with u := restart.u, connection := restart.connection })
  | (some (.bitmap r), u) =>
    if h : r.Inside g.grab.frame.width g.grab.frame.height ∧ 0 < r.w ∧ 0 < r.h then
      (dispatchBitmap s.connection (bitmapOf g r h.1 h.2.1 h.2.2)).map fun (written, connection) =>
        (written, { s with u := u, connection := connection })
    else none

/-! ### A request in time is in the bitmap -/

def PendingSmall (pending : Option Rect) : Prop := ∀ r, pending = some r → Small16 r

theorem addRefresh_some {owed area : Rect} (howed : Small16 owed) (harea : Small16 area) :
    addRefresh (some owed) area = some (hull owed area) := by
  rw [addRefresh, elim_some, unionRect_eq_hull howed harea]

theorem addRefresh_covers {pending : Option Rect} {area : Rect} (hpending : PendingSmall pending)
    (harea : Small16 area) :
    PendingSmall (addRefresh pending area) ∧ ∃ box, addRefresh pending area = some box ∧
      (∀ p ∈ area, p ∈ box) ∧ ∀ r, pending = some r → ∀ p ∈ r, p ∈ box := by
  rcases pending with _ | owed
  · refine ⟨fun r hr => some.inj hr ▸ harea, area, rfl, fun p hp => hp, ?_⟩
    intro r hr
    simp at hr
  · have howed := hpending owed rfl
    rw [addRefresh_some howed harea]
    refine ⟨fun r hr => some.inj hr ▸ Rect.Inside.hull howed harea, _, rfl,
      fun p hp => mem_hull_right owed hp, fun r hr p hp => ?_⟩
    obtain rfl := some.inj hr
    exact mem_hull_left area hp

theorem mem_inclusiveToXywh {area : InclusiveRectangle} {p : Pixel} (hp : p ∈ area)
    (hx : p.1 < 65535) (hy : p.2 < 65535) : ∃ r, inclusiveToXywh area = some r ∧ p ∈ r := by
  obtain ⟨⟨hleft, hright⟩, htop, hbottom⟩ := hp
  rw [inclusiveToXywh, if_neg (by omega)]
  refine ⟨_, rfl, ?_⟩
  rw [mem_iff]
  dsimp only
  omega

/-! ### What is written -/

variable (g : WholeGrab)

/-- A pixel of the box in the same tile, counted from the corner of the box, is another one in the
grab than in the encoder's framebuffer; or there is no framebuffer yet. -/
def TileChanged (box : Rect) (p : Pixel) : Prop :=
  ∀ fb, s.connection.encoder.framebuffer = some fb →
    ∃ q ∈ box, SameTile (p.1 - box.x, p.2 - box.y) (q.1 - box.x, q.2 - box.y) ∧
      pixelAt fb.data fb.width q ≠ pixelAt g.grab.frame.data g.grab.frame.width q

/-- The client knows the grab's size, the pixel is in the box of the damage and the requests, the
box is on the encoder's desktop, and the pixel's tile has changed. -/
def Sends (p : Pixel) : Prop :=
  KnownSize s.u g.grab ∧ ∃ box, legacyBox g.grab s.u.legacyRefresh = some box ∧ p ∈ box ∧
    box.Inside s.connection.encoder.desktopSize.1 s.connection.encoder.desktopSize.2 ∧
    TileChanged s g box p

theorem differs_bitmapOf {s : LegacySession} {g : WholeGrab} {r : Rect}
    (hr : r.Inside g.grab.frame.width g.grab.frame.height) (hw : 0 < r.w) (hh : 0 < r.h)
    {p : Pixel} :
    Differs s.connection.encoder (bitmapOf g r hr hw hh) (p.1 - r.x, p.2 - r.y) ↔
      TileChanged s g r p := by
  refine forall₂_congr fun fb _ => ?_
  constructor
  · rintro ⟨q, hq, htile, hne⟩
    have hpixel := pixelAt_region hr hq
    obtain ⟨hx, hy⟩ := mem_full.1 hq
    refine ⟨(r.x + q.1, r.y + q.2), ?_, ?_, fun heq => hne (heq.trans hpixel.symm)⟩
    · change q.1 < r.w at hx
      change q.2 < r.h at hy
      rw [mem_iff]
      dsimp only
      omega
    · simpa using htile
  · rintro ⟨q, hq, htile, hne⟩
    obtain ⟨⟨hx, hxw⟩, hy, hyh⟩ := mem_iff.1 hq
    have hfull : (q.1 - r.x, q.2 - r.y) ∈ full r.w r.h := by
      rw [mem_full]
      dsimp only
      omega
    have hplace : (r.x + (q.1 - r.x), r.y + (q.2 - r.y)) = q := by
      rw [Nat.add_sub_cancel' hx, Nat.add_sub_cancel' hy]
    have hpixel := pixelAt_region hr hfull
    rw [hplace] at hpixel
    refine ⟨(q.1 - r.x, q.2 - r.y), hfull, htile, fun heq => hne ?_⟩
    change pixelAt fb.data fb.width (r.x + (q.1 - r.x), r.y + (q.2 - r.y)) =
      pixelAt (region g.grab.frame r) r.w (q.1 - r.x, q.2 - r.y) at heq
    rw [hplace] at heq
    exact heq.trans hpixel

/-- **The pixels written for a grab.** -/
theorem mem_consume {s s' : LegacySession} {situation : Situation} {g : WholeGrab}
    {restart : Reactivation} {written : List Rect} {p : Pixel}
    (h : consume s situation g restart = some (written, s')) :
    (∃ r ∈ written, p ∈ r) ↔ Sends s g p := by
  obtain ⟨seen, hseen⟩ := seeHandle_eq s.u situation
  have hbitmap : ∀ r, (legacyGrab (seeHandle s.u situation) g.grab).1 = some (.bitmap r) ↔
      KnownSize s.u g.grab ∧ legacyBox g.grab s.u.legacyRefresh = some r ∧ 0 < r.w ∧ 0 < r.h := by
    intro r
    rw [hseen, legacyGrab_bitmap_iff]
    rfl
  have hnone : (∀ r, (legacyGrab (seeHandle s.u situation) g.grab).1 ≠ some (.bitmap r)) →
      ¬ Sends s g p := by
    rintro hno ⟨hknown, box, hbox, hp, -⟩
    obtain ⟨hx, hy⟩ := mem_iff.1 hp
    exact hno box ((hbitmap box).2 ⟨hknown, hbox, by omega, by omega⟩)
  unfold consume at h
  rcases hgrab : legacyGrab (seeHandle s.u situation) g.grab with ⟨_ | ⟨width, height⟩ | r, u⟩
  iterate 2
    · rw [hgrab] at h hnone
      obtain rfl : [] = written := congrArg Prod.fst (some.inj h)
      simpa using hnone fun r => by simp
  · rw [hgrab] at h
    obtain ⟨hknown, hbox, hw, hh⟩ := (hbitmap r).1 (by rw [hgrab])
    have hr := legacyBox_inside hbox
    dsimp only at h
    rw [dif_pos ⟨hr, hw, hh⟩] at h
    obtain ⟨⟨rects, connection⟩, hdispatch, h⟩ := map_eq_some_iff.1 h
    obtain rfl : rects = written := congrArg Prod.fst h
    have hsends : Sends s g p ↔ p ∈ r ∧
        r.Inside s.connection.encoder.desktopSize.1 s.connection.encoder.desktopSize.2 ∧
        TileChanged s g r p := by
      simp [Sends, hknown, hbox]
    rw [hsends]
    by_cases hdesktop : r.Inside s.connection.encoder.desktopSize.1
        s.connection.encoder.desktopSize.2
    · have hmem := mem_dispatchBitmap (b := bitmapOf g r hr hw hh) (p := p) hdesktop hdispatch
      rw [hmem]
      exact and_congr_right fun _ => (differs_bitmapOf hr hw hh).trans (by simp [hdesktop])
    · rw [dispatchBitmap, if_pos] at hdispatch
      · obtain rfl : [] = rects := congrArg Prod.fst (some.inj hdispatch)
        simp [hdesktop]
      · simp only [Rect.Inside, not_and_or, not_le] at hdesktop
        exact hdesktop

def Redrawn (area : InclusiveRectangle) (written : List Rect) : Prop :=
  ∀ p ∈ area, p ∈ full g.grab.frame.width g.grab.frame.height → ∃ r ∈ written, p ∈ r

def Resends (area : InclusiveRectangle) : Prop :=
  ∀ p ∈ area, p ∈ full g.grab.frame.width g.grab.frame.height → Sends s g p

/-- **When a client gets the redraw it asked for.** For every state of the session, every request
and the grab taken up after it. -/
theorem redrawn_iff (s : LegacySession) (pdu : RefreshPdu) (late : Bool) (situation : Situation)
    (g : WholeGrab) (restart : Reactivation) (written : List Rect) (s' : LegacySession)
    (h : consume (asked s pdu late) situation g restart = some (written, s')) :
    (∀ area ∈ named s pdu, Redrawn g area written) ↔
      ∀ area ∈ named s pdu, Resends (asked s pdu late) g area :=
  forall₂_congr fun _ _ => forall₂_congr fun _ _ => forall_congr' fun _ => mem_consume h

/-! ### A client that asks twice -/

def wholePixel (changed : Bool) : WholeGrab := ⟨onePixel changed, rfl⟩

def blank : LegacySession where
  u := EgfxUpdates.new (1, 1) 0 0 false
  requested := none
  suppressed := false
  connection :=
    { encoder := .new (1, 1) 8388608
      fastpathOutput := true
      codec := fun _ => some 4
      tiles := fun h => by simp at h
      small := fun h => by simp at h }

def noPipeline : Situation := ⟨none, false, false, false, 0⟩

def onlyPixel : RefreshPdu := .refreshRectangle [⟨0, 0, 0, 0⟩]

theorem resends_blank :
    ∀ area ∈ named blank onlyPixel, Resends (asked blank onlyPixel false)
    (wholePixel false) area := by
  intro area _ p _ hp
  refine ⟨fun size hsize => (some.inj hsize).symm, ⟨0, 0, 1, 1⟩, rfl, hp, by decide, ?_⟩
  exact fun fb hfb => nomatch hfb

/-- The first request is answered: there is no framebuffer yet. -/
theorem redrawn_blank :
    ∃ written s', consume (asked blank onlyPixel false) noPipeline (wholePixel false)
        ⟨blank.u, blank.connection⟩ = some (written, s') ∧
      ∀ area ∈ named blank onlyPixel, Redrawn (wholePixel false) area written :=
  ⟨_, _, rfl, (redrawn_iff blank onlyPixel false noPipeline (wholePixel false)
    ⟨blank.u, blank.connection⟩ _ _ rfl).2 resends_blank⟩

def shown : LegacySession :=
  (consume blank noPipeline (wholePixel true) ⟨blank.u, blank.connection⟩).elim blank Prod.snd

/-- The pixel has not changed since, and nothing is written. -/
theorem unchanged_area_not_redrawn :
    ∃ written s', consume (asked shown onlyPixel false) noPipeline (wholePixel false)
        ⟨blank.u, blank.connection⟩ = some (written, s') ∧
      ¬ ∀ area ∈ named shown onlyPixel, Redrawn (wholePixel false) area written := by
  refine ⟨[], _, rfl, fun h => ?_⟩
  have hpixel := h ⟨0, 0, 0, 0⟩ mem_cons_self (0, 0) ⟨⟨le_refl 0, le_refl 0⟩,
    le_refl 0, le_refl 0⟩ (by decide)
  simp at hpixel

end Linrdp.Server.Refresh
