import Linrdp.Display.Routing
import Linrdp.Lib.Bytes
import Linrdp.Lib.Runs

/-!
# The pointer of the session

The cursor images on their way to the client: fetched with a poll of the X server, turned into
pointer updates under a cache of shapes (`cursor_update` of `gfx_display.rs`), stashed until a frame
has nothing to return itself (`next_update`), and let through to the client or not
(`EncoderIter::next`).

The cache's map is a list in the order of insertion, and which of the least recently used entries a
walk over it meets first is left open (`Eviction`). `returned`, `reached`, `fetched` and `taken` are
logs. What the cache promises is said of the log with the stash behind it (`Stored`), so that
returning the stash changes nothing.
-/

namespace Linrdp.Display.Pointer

open List Lib.Bytes Lib.Runs Option

structure CursorImage where
  (width height hotX hotY : ℕ)
  xor : List UInt8
deriving DecidableEq

def mix (h : UInt64) (b : UInt8) : UInt64 := (h ^^^ b.toUInt64) * 0x100000001b3

def CursorImage.shapeHash (c : CursorImage) : UInt64 :=
  [c.width, c.height, c.hotX, c.hotY].foldl (fun h v => (toLe 2 v).foldl mix h)
    (c.xor.foldl mix 0xcbf29ce484222325)

inductive PointerUpdate
  /-- `RGBAPointer`, a New Pointer Update -/
  | rgba (cacheIndex : ℕ) (image : CursorImage)
  | large (cacheIndex : ℕ) (image : CursorImage)
  | cached (cacheIndex : ℕ)
  | default
deriving DecidableEq

namespace PointerUpdate

def stored : PointerUpdate → Option (ℕ × CursorImage)
  | rgba i c => some (i, c)
  | large i c => some (i, c)
  | _ => none

def slot : PointerUpdate → Option ℕ
  | rgba i _ => some i
  | large i _ => some i
  | cached i => some i
  | default => none

end PointerUpdate

structure CursorCacheEntry where
  (cacheIndex lastUsed : ℕ)

abbrev CursorCache := List (UInt64 × CursorCacheEntry)

/-- `min_by_key` over the entries of the map, in whatever order they come. -/
structure Eviction where
  pick : CursorCache → Option (UInt64 × CursorCacheEntry)
  pick_none : ∀ {cache}, pick cache = none → cache = []
  pick_mem : ∀ {cache entry}, pick cache = some entry → entry ∈ cache
  pick_least : ∀ {cache entry}, pick cache = some entry → ∀ other ∈ cache,
    entry.2.lastUsed ≤ other.2.lastUsed

structure Pointers where
  cursorCache : CursorCache
  cursorNextIndex : ℕ
  cursorLastHash : Option UInt64
  pendingCursor : Option (PointerUpdate × CursorImage)

def Pointers.new : Pointers := ⟨[], 0, none, none⟩

variable (cache : CursorCache)

def touch (hash : UInt64) (now : ℕ) : CursorCache :=
  cache.map fun e => if e.1 = hash then (e.1, { e.2 with lastUsed := now }) else e

/-- A shape that goes into a slot. An entry that had the slot before is not removed. -/
def place (u : Pointers) (cacheIndex nextIndex now : ℕ) (cursor : CursorImage) :
    Option PointerUpdate × Pointers :=
  (some (if cursor.width ≤ 96 ∧ cursor.height ≤ 96 then .rgba cacheIndex cursor
    else .large cacheIndex cursor),
    { u with
      cursorCache := u.cursorCache ++ [(cursor.shapeHash, ⟨cacheIndex, now⟩)]
      cursorNextIndex := nextIndex })

def cursorUpdate (E : Eviction) (u : Pointers) (cacheSize now : ℕ) (cursor : CursorImage) :
    Option PointerUpdate × Pointers :=
  if cacheSize = 0 then (none, { u with cursorLastHash := none })
  else
    let hash := cursor.shapeHash
    if u.cursorLastHash = some hash then (none, u)
    else
      let u := { u with cursorLastHash := some hash }
      match u.cursorCache.lookup hash with
      | some entry =>
        (some (.cached entry.cacheIndex), { u with cursorCache := touch u.cursorCache hash now })
      | none =>
        if 384 < cursor.width ∨ 384 < cursor.height then (some .default, u)
        else if u.cursorNextIndex < cacheSize then
          place u u.cursorNextIndex (u.cursorNextIndex + 1) now cursor
        else
          match E.pick u.cursorCache with
          | none => (none, u)
          | some (_, evicted) => place u evicted.cacheIndex u.cursorNextIndex now cursor

/-! ### The encoder -/

structure Encoder where
  pointerCacheSize : ℕ
  (upTo96 upTo384 : Bool)

def Encoder.colorOrNewPointerSizeOk (e : Encoder) (width height : ℕ) : Bool :=
  let max := if e.upTo96 then 96 else 32
  width ≤ max && height ≤ max

/-- `EncoderIter::next`: does the update go out? -/
def Encoder.passes (e : Encoder) : PointerUpdate → Bool
  | .rgba _ c => e.pointerCacheSize != 0 && e.colorOrNewPointerSizeOk c.width c.height
  | .large _ c => e.pointerCacheSize != 0 && e.upTo384 && c.width ≤ 384 && c.height ≤ 384
  | .cached _ => e.pointerCacheSize != 0
  | .default => true

/-! ### The loop -/

/-- A frame: the time, and what its routing (`Routing.routeGrab`) has `next_update` return. -/
structure Frame where
  now : ℕ
  routed : Option Routing.DisplayUpdate

structure Poll where
  cursor : Option CursorImage
  frame : Option Frame

structure State where
  u : Pointers
  pointerCache : ℕ
  encoder : Encoder
  fetched : Option CursorImage
  taken : List CursorImage
  (returned reached : List PointerUpdate)

def start (encoder : Encoder) : State := ⟨.new, encoder.pointerCacheSize, encoder, none, [], [], []⟩

def stash (u : Pointers) (cursor : CursorImage) : Option PointerUpdate → Pointers
  | none => u
  | some update => { u with pendingCursor := some (update, cursor) }

def takeCursor (E : Eviction) (s : State) (now : ℕ) (cursor : CursorImage) : State :=
  let r := cursorUpdate E s.u s.pointerCache now cursor
  { s with u := stash r.2 cursor r.1, taken := s.taken ++ [cursor] }

/-- The stash is returned by a frame that returns nothing else. -/
def handOut (s : State) : State :=
  match s.u.pendingCursor with
  | none => s
  | some (update, _) =>
    { s with
      u := { s.u with pendingCursor := none }
      returned := s.returned ++ [update]
      reached := s.reached ++ if s.encoder.passes update then [update] else [] }

/-- One turn of the loop of `next_update`. An image without a frame is dropped. -/
def poll (E : Eviction) (s : State) (p : Poll) : State :=
  let s := { s with fetched := p.cursor.or s.fetched }
  match p.frame with
  | none => s
  | some frame =>
    let s := p.cursor.elim s (takeCursor E s frame.now)
    if frame.routed.isSome then s else handOut s

/-! ### What a log comes to -/

variable (log : List PointerUpdate)

def slotIn (slot : ℕ) : Option CursorImage :=
  log.foldl (fun shape update =>
    match update.stored with
    | some (i, c) => if i = slot then some c else shape
    | none => shape) none

def shown : Option CursorImage :=
  match log.getLast? with
  | some (.rgba _ c) => some c
  | some (.large _ c) => some c
  | some (.cached i) => slotIn log i
  | _ => none

def ownerOf (slot : ℕ) : Option UInt64 :=
  cache.foldl (fun owner e => if e.2.cacheIndex = slot then some e.1 else owner) none

theorem slotIn_snoc (update : PointerUpdate) (slot : ℕ) :
    slotIn (log ++ [update]) slot =
      match update.stored with
      | some (i, c) => if i = slot then some c else slotIn log slot
      | none => slotIn log slot := by
  unfold slotIn
  rw [foldl_append, foldl_cons, foldl_nil]

theorem slotIn_snoc_of_stored_none {update : PointerUpdate} (h : update.stored = none)
    (log : List PointerUpdate) (slot : ℕ) : slotIn (log ++ [update]) slot = slotIn log slot := by
  rw [slotIn_snoc, h]

theorem shown_snoc_cached (slot : ℕ) : shown (log ++ [.cached slot]) = slotIn log slot := by
  unfold shown
  rw [getLast?_concat]
  exact slotIn_snoc_of_stored_none rfl log slot

theorem shown_snoc_of_stored {update : PointerUpdate} {slot : ℕ} {c : CursorImage}
    (h : update.stored = some (slot, c)) (log : List PointerUpdate) :
    shown (log ++ [update]) = some c := by
  unfold shown
  rw [getLast?_concat]
  rcases update with ⟨i, a⟩ | ⟨i, a⟩ | i | _
  · exact congrArg (Option.map Prod.snd) h
  · exact congrArg (Option.map Prod.snd) h
  · cases h
  · cases h

theorem ownerOf_snoc (e : UInt64 × CursorCacheEntry) (slot : ℕ) :
    ownerOf (cache ++ [e]) slot = if e.2.cacheIndex = slot then some e.1 else ownerOf cache
    slot := by
  unfold ownerOf
  rw [foldl_append, foldl_cons, foldl_nil]

theorem ownerOf_touch (hash : UInt64) (now slot : ℕ) :
    ownerOf (touch cache hash now) slot = ownerOf cache slot := by
  unfold ownerOf touch
  rw [foldl_map]
  congr 1
  funext owner e
  split_ifs <;> rfl

/-! ### What `cursor_update` can do -/

inductive Updated (u : Pointers) (cacheSize now : ℕ) (c : CursorImage) :
    Option PointerUpdate × Pointers → Prop
  | unsupported (hsize : cacheSize = 0) : Updated u cacheSize now c
      (none, { u with cursorLastHash := none })
  | repeated (hsize : cacheSize ≠ 0) (hlast : u.cursorLastHash = some c.shapeHash) :
    Updated u cacheSize now c (none, u)
  | hit {entry : CursorCacheEntry} (hsize : cacheSize ≠ 0)
      (hlast : u.cursorLastHash ≠ some c.shapeHash)
    (hfound : u.cursorCache.lookup c.shapeHash = some entry) :
    Updated u cacheSize now c (some (.cached entry.cacheIndex),
      { u with
        cursorLastHash := some c.shapeHash
        cursorCache := touch u.cursorCache c.shapeHash now })
  | tooLarge (hsize : cacheSize ≠ 0) (hlast : u.cursorLastHash ≠ some c.shapeHash)
    (hlarge : 384 < c.width ∨ 384 < c.height) :
    Updated u cacheSize now c (some .default, { u with cursorLastHash := some c.shapeHash })
  | full (hsize : cacheSize ≠ 0) (hfull : cacheSize ≤ u.cursorNextIndex)
      (hempty : u.cursorCache = []) :
    Updated u cacheSize now c (none, { u with cursorLastHash := some c.shapeHash })
  | placed {slot next : ℕ} {update : PointerUpdate} (hsize : cacheSize ≠ 0)
    (hlast : u.cursorLastHash ≠ some c.shapeHash)
    (hslot : (slot = u.cursorNextIndex ∧ next = slot + 1 ∧ next ≤ cacheSize) ∨
      (next = u.cursorNextIndex ∧ ∃ e ∈ u.cursorCache, e.2.cacheIndex = slot))
    (hstored : update.stored = some (slot, c)) :
    Updated u cacheSize now c (some update,
      { u with
        cursorLastHash := some c.shapeHash
        cursorCache := u.cursorCache ++ [(c.shapeHash, ⟨slot, now⟩)]
        cursorNextIndex := next })

theorem updated_cursorUpdate (E : Eviction) (u : Pointers) (cacheSize now : ℕ) (c : CursorImage) :
    Updated u cacheSize now c (cursorUpdate E u cacheSize now c) := by
  have hplaced (slot : ℕ) : PointerUpdate.stored
      (if c.width ≤ 96 ∧ c.height ≤ 96 then .rgba slot c else .large slot c) = some (slot, c) := by
    split_ifs <;> rfl
  unfold cursorUpdate
  by_cases hsize : cacheSize = 0
  · rw [if_pos hsize]
    exact .unsupported hsize
  rw [if_neg hsize]
  dsimp only
  by_cases hlast : u.cursorLastHash = some c.shapeHash
  · rw [if_pos hlast]
    exact .repeated hsize hlast
  rw [if_neg hlast]
  rcases hfound : u.cursorCache.lookup c.shapeHash with _ | entry
  · dsimp only
    split_ifs with hlarge hroom
    · exact .tooLarge hsize hlast hlarge
    · exact .placed hsize hlast (.inl ⟨rfl, rfl, by omega⟩) (hplaced _)
    · rcases hpick : E.pick u.cursorCache with _ | ⟨hash, evicted⟩
      · exact .full hsize (by omega) (E.pick_none hpick)
      · exact .placed hsize hlast (.inr ⟨rfl, _, E.pick_mem hpick, rfl⟩) (hplaced _)
  · exact .hit hsize hlast hfound

/-! ### What the cache promises -/

def ahead (u : Pointers) : List PointerUpdate := log ++ (u.pendingCursor.map Prod.fst).toList

def Stored (u : Pointers) (taken : List CursorImage) : Prop :=
  ∀ slot hash, ownerOf u.cursorCache slot = some hash →
    ∃ c ∈ taken, c.shapeHash = hash ∧ slotIn (ahead log u) slot = some c

/-- An image is told apart from those before, its shape is not looked for in a slot that another
shape has got since, and the stash holds no shape that would be lost. -/
structure Kept (s : State) (c : CursorImage) : Prop where
  distinct : ∀ a ∈ s.taken, a.shapeHash = c.shapeHash → a = c
  owned : ∀ entry, s.u.cursorLastHash ≠ some c.shapeHash →
    s.u.cursorCache.lookup c.shapeHash = some entry →
    ownerOf s.u.cursorCache entry.cacheIndex = some c.shapeHash
  unstashed : s.u.cursorLastHash ≠ some c.shapeHash →
    ∀ update a, s.u.pendingCursor = some (update, a) → update.stored = none

def Shows (c : CursorImage) (update : PointerUpdate) : Prop :=
  (∃ slot, update.stored = some (slot, c)) ∨ ∃ slot, update = .cached slot ∧
    slotIn log slot = some c

theorem returned_handOut (s : State) : (handOut s).returned = ahead s.returned s.u := by
  unfold handOut ahead
  rcases s.u.pendingCursor with _ | ⟨update, c⟩
  · exact (append_nil _).symm
  · rfl

theorem pendingCursor_handOut (s : State) : (handOut s).u.pendingCursor = none := by
  unfold handOut
  rcases h : s.u.pendingCursor with _ | ⟨update, c⟩
  · exact h
  · rfl

theorem ahead_handOut (s : State) :
    ahead (handOut s).returned (handOut s).u = ahead s.returned s.u := by
  rw [ahead, pendingCursor_handOut, returned_handOut]
  exact append_nil _

theorem handOut_keeps (s : State) :
    (handOut s).pointerCache = s.pointerCache ∧ (handOut s).u.cursorCache = s.u.cursorCache ∧
      (handOut s).u.cursorNextIndex = s.u.cursorNextIndex ∧
      (handOut s).u.cursorLastHash = s.u.cursorLastHash ∧
      (handOut s).fetched = s.fetched ∧ (handOut s).taken = s.taken := by
  unfold handOut
  rcases s.u.pendingCursor with _ | ⟨update, c⟩
  all_goals exact ⟨rfl, rfl, rfl, rfl, rfl, rfl⟩

section kept

variable {E : Eviction} {s : State} {now : ℕ} {c : CursorImage} {log : List PointerUpdate}

theorem slotIn_ahead_of_unstashed (log : List PointerUpdate) {u : Pointers}
    (h : ∀ update a, u.pendingCursor = some (update, a) → update.stored = none) (slot : ℕ) :
    slotIn (ahead log u) slot = slotIn log slot := by
  unfold ahead
  rcases hpending : u.pendingCursor with _ | ⟨update, a⟩
  · rw [map_none, toList_none, append_nil]
  · rw [map_some, toList_some, slotIn_snoc_of_stored_none (h update a hpending)]

theorem Stored.keep {u u' : Pointers} {taken : List CursorImage} (hstored : Stored log u taken)
    (howner : ∀ slot, ownerOf u'.cursorCache slot = ownerOf u.cursorCache slot)
    (hahead : ∀ slot, slotIn (ahead log u') slot = slotIn (ahead log u) slot) (c : CursorImage) :
    Stored log u' (taken ++ [c]) := by
  intro slot hash hslot
  rw [howner] at hslot
  obtain ⟨a, ha, hhash, hin⟩ := hstored slot hash hslot
  exact ⟨a, mem_append_left _ ha, hhash, (hahead slot).trans hin⟩

theorem Stored.place {u u' : Pointers} {taken : List CursorImage} (hstored : Stored log u taken)
    (hunstashed : ∀ update a, u.pendingCursor = some (update, a) → update.stored = none)
    {update : PointerUpdate} {slot : ℕ} (hnew : update.stored = some (slot, c))
    (hcache : u'.cursorCache = u.cursorCache ++ [(c.shapeHash, ⟨slot, now⟩)])
    (hpending : u'.pendingCursor = some (update, c)) : Stored log u' (taken ++ [c]) := by
  intro other hash howner
  have hahead : slotIn (ahead log u') other = if slot = other then some c else slotIn log
      other := by
    rw [ahead, hpending, map_some, toList_some, slotIn_snoc, hnew]
  rw [hcache, ownerOf_snoc] at howner
  split_ifs at howner with hother
  · refine ⟨c, mem_append_right _ (mem_singleton_self c), some.inj howner, ?_⟩
    rw [hahead, if_pos hother]
  · obtain ⟨a, ha, hhash, hin⟩ := hstored other hash howner
    refine ⟨a, mem_append_left _ ha, hhash, ?_⟩
    rw [hahead, if_neg hother, ← slotIn_ahead_of_unstashed log hunstashed]
    exact hin

/-- **A shape that is kept keeps the promise**, and its update shows it. -/
theorem stored_takeCursor (E : Eviction) (now : ℕ) (hstored : Stored log s.u s.taken)
    (hkept : Kept s c) : Stored log (takeCursor E s now c).u (takeCursor E s now c).taken ∧
      ∀ update, (cursorUpdate E s.u s.pointerCache now c).1 = some update →
        update = .default ∧ (384 < c.width ∨ 384 < c.height) ∨ Shows log c update := by
  have hsame : ∀ {u : Pointers}, u.cursorCache = s.u.cursorCache →
      u.pendingCursor = s.u.pendingCursor → Stored log u (s.taken ++ [c]) := by
    intro u hcache hpending
    refine hstored.keep (fun slot => by rw [hcache]) (fun slot => ?_) c
    rw [ahead, ahead, hpending]
  have hdropped := slotIn_ahead_of_unstashed log (u := s.u)
  have hupdated := updated_cursorUpdate E s.u s.pointerCache now c
  unfold takeCursor
  dsimp only
  generalize cursorUpdate E s.u s.pointerCache now c = r at hupdated
  cases hupdated with
  | unsupported hsize | repeated hsize hlast | full hsize hfull hempty =>
    exact ⟨hsame rfl rfl, by simp⟩
  | @hit entry hsize hlast hfound =>
    have hlog := hdropped (hkept.unstashed hlast)
    refine ⟨hstored.keep (ownerOf_touch _ _ _) (fun slot => ?_) c, fun update hupdate =>
      .inr (.inr ?_)⟩
    · rw [hlog]
      exact slotIn_snoc_of_stored_none rfl log slot
    · -- the owner of the slot has this hash, and so this shape
      obtain ⟨a, ha, hhash, hin⟩ := hstored entry.cacheIndex _ (hkept.owned entry hlast hfound)
      rw [hkept.distinct a ha hhash, hlog] at hin
      exact ⟨entry.cacheIndex, (some.inj hupdate).symm, hin⟩
  | tooLarge hsize hlast hlarge =>
    refine ⟨hstored.keep (fun slot => ?_) (fun slot => ?_) c, fun update hupdate => ?_⟩
    · rfl
    · rw [hdropped (hkept.unstashed hlast)]
      exact slotIn_snoc_of_stored_none rfl log slot
    · exact .inl ⟨(some.inj hupdate).symm, hlarge⟩
  | @placed slot next update hsize hlast hslot hnew =>
    refine ⟨hstored.place (hkept.unstashed hlast) hnew rfl rfl, fun update' hupdate =>
      .inr (.inl ⟨slot, ?_⟩)⟩
    rw [← some.inj hupdate]
    exact hnew

end kept

end Linrdp.Display.Pointer
