import Linrdp.Display.Pointer
import Mathlib.Data.List.MinMax

/-!
# The pointer cache and the client's slots

`Coherent` asks that what reaches the client names a negotiated slot, and that a slot it selects
holds the shape the update is for. Three things break this: a shape is found under an entry whose
slot was given away since, and an update is replaced in the stash or dropped by the encoder after
the cache has noted its slot. A run without these (`Sound`), and without two shapes of one hash, is
coherent (`coherent_of_sound`).
-/

namespace Linrdp.Display.Pointer

open List Option Lib.Runs

inductive Step
  | negotiate (encoder : Encoder)
  | poll (p : Poll)

variable (E : Eviction)

variable (s : State)

/-- A negotiation starts new updates, with nothing in their cache and their stash. -/
def step : Step → State
  | .negotiate encoder =>
    { s with u := .new, pointerCache := encoder.pointerCacheSize, encoder, taken := [] }
  | .poll p => poll E s p

def offered (cursor : Option CursorImage) (now : ℕ) : State :=
  cursor.elim s (takeCursor E s now)

def reachedBy : Step → Option (PointerUpdate × CursorImage)
  | .poll ⟨cursor, some ⟨now, none⟩⟩ =>
    (offered E s cursor now).u.pendingCursor.filter fun x => s.encoder.passes x.1
  | _ => none

def Coherent (i : Step) : Prop :=
  ∀ update c, reachedBy E s i = some (update, c) →
    (∀ slot, update = .cached slot → slotIn s.reached slot = some c) ∧
      ∀ slot, update.slot = some slot → slot < s.encoder.pointerCacheSize

def Sound : Step → Prop
  | .negotiate _ => True
  | .poll p => ∀ frame, p.frame = some frame →
    (∀ c, p.cursor = some c → Kept s c) ∧
      (frame.routed = none → ∀ update c,
        (offered E s p.cursor frame.now).u.pendingCursor = some (update, c) →
          update.stored.isSome → s.encoder.passes update)

structure Inv (s : State) : Prop where
  stored : Stored s.reached s.u s.taken
  chosen : ∀ slot c, s.u.pendingCursor = some (.cached slot, c) → slotIn s.reached slot = some c
  named : ∀ update c slot, s.u.pendingCursor = some (update, c) → update.slot = some slot →
    slot < s.u.cursorNextIndex
  below : ∀ e ∈ s.u.cursorCache, e.2.cacheIndex < s.u.cursorNextIndex
  room : s.u.cursorNextIndex ≤ s.pointerCache
  agreed : s.pointerCache = s.encoder.pointerCacheSize

theorem inv_start (encoder : Encoder) : Inv (start encoder) where
  stored := nofun
  chosen := nofun
  named := nofun
  below := nofun
  room := Nat.zero_le _
  agreed := rfl

section step

variable {E : Eviction} {s : State}

theorem slot_of_stored {update : PointerUpdate} {slot : ℕ} {c : CursorImage}
    (h : update.stored = some (slot, c)) : update.slot = some slot := by
  rcases update with ⟨i, a⟩ | ⟨i, a⟩ | i | _
  · exact congrArg (Option.map Prod.fst) h
  · exact congrArg (Option.map Prod.fst) h
  · cases h
  · cases h

theorem mem_of_lookup {cache : CursorCache} {hash : UInt64} {entry : CursorCacheEntry}
    (h : cache.lookup hash = some entry) : (hash, entry) ∈ cache := by
  obtain ⟨l₁, l₂, rfl, -⟩ := lookup_eq_some_iff.1 h
  simp

theorem bounds_of_updated (hs : Inv s) {now : ℕ} {c : CursorImage}
    {r : Option PointerUpdate × Pointers} (hupdated : Updated s.u s.pointerCache now c r) :
    (∀ update slot, r.1 = some update → update.slot = some slot → slot < r.2.cursorNextIndex) ∧
    s.u.cursorNextIndex ≤ r.2.cursorNextIndex ∧
    (∀ e ∈ r.2.cursorCache, e.2.cacheIndex < r.2.cursorNextIndex) ∧
    r.2.cursorNextIndex ≤ s.pointerCache ∧ r.2.pendingCursor = s.u.pendingCursor := by
  cases hupdated with
  | unsupported hsize | repeated hsize hlast | full hsize hfull hempty =>
    exact ⟨by simp, le_rfl, hs.below, hs.room, rfl⟩
  | hit hsize hlast hfound =>
    refine ⟨fun update slot hupdate hslot => ?_, le_rfl, fun e he => ?_, hs.room, rfl⟩
    · obtain rfl := some.inj hupdate
      obtain rfl := some.inj hslot
      exact hs.below _ (mem_of_lookup hfound)
    · obtain ⟨a, ha, rfl⟩ := mem_map.1 he
      split_ifs <;> exact hs.below a ha
  | tooLarge hsize hlast hlarge =>
    refine ⟨fun update slot hupdate hslot => ?_, le_rfl, hs.below, hs.room, rfl⟩
    obtain rfl := some.inj hupdate
    cases hslot
  | @placed slot next update hsize hlast hslot hstored =>
    have hnext : slot < next ∧ s.u.cursorNextIndex ≤ next ∧ next ≤ s.pointerCache := by
      rcases hslot with ⟨rfl, rfl, hle⟩ | ⟨rfl, e, he, rfl⟩
      · omega
      · exact ⟨hs.below e he, le_rfl, hs.room⟩
    refine ⟨fun update' slot' hupdate hslot' => ?_, hnext.2.1, forall_mem_append.2
      ⟨fun e he => (hs.below e he).trans_le hnext.2.1, forall_mem_singleton.2 hnext.1⟩, hnext.2.2,
        rfl⟩
    obtain rfl := some.inj hupdate
    rw [slot_of_stored hstored] at hslot'
    obtain rfl := some.inj hslot'
    exact hnext.1

theorem stash_cases (u : Pointers) (c : CursorImage) (update : Option PointerUpdate) :
    (stash u c update).pendingCursor = (update.map fun x => (x, c)).or u.pendingCursor ∧
      (stash u c update).cursorCache = u.cursorCache ∧
      (stash u c update).cursorNextIndex = u.cursorNextIndex := by
  rcases update with _ | update
  all_goals exact ⟨rfl, rfl, rfl⟩

theorem inv_takeCursor {now : ℕ} {c : CursorImage} (hs : Inv s) (hkept : Kept s c) :
    Inv (takeCursor E s now c) := by
  obtain ⟨hstored, hshows⟩ := stored_takeCursor E now hs.stored hkept
  obtain ⟨hslot, hmore, hbelow, hroom, hpending⟩ :=
      bounds_of_updated hs (updated_cursorUpdate E s.u s.pointerCache now c)
  obtain ⟨hp, hcache, hnext⟩ := stash_cases (cursorUpdate E s.u s.pointerCache now c).2 c
    (cursorUpdate E s.u s.pointerCache now c).1
  rw [hpending] at hp
  -- the stash holds the update of this image, or what it held
  have hfrom : ∀ update a, (takeCursor E s now c).u.pendingCursor = some (update, a) →
      ((cursorUpdate E s.u s.pointerCache now c).1 = some update ∧ a = c) ∨
        s.u.pendingCursor = some (update, a) := by
    intro update a h
    rw [show (takeCursor E s now c).u.pendingCursor = _ from hp] at h
    rcases hu : (cursorUpdate E s.u s.pointerCache now c).1 with _ | new <;> rw [hu] at h
    · exact .inr h
    · obtain ⟨rfl, rfl⟩ := Prod.mk.inj (some.inj h)
      exact .inl ⟨rfl, rfl⟩
  refine ⟨hstored, fun slot a h => ?_, fun update a slot h hof => ?_, ?_, ?_, hs.agreed⟩
  · rcases hfrom _ a h with ⟨hnew, rfl⟩ | hold
    · rcases hshows _ hnew with ⟨hdefault, -⟩ | ⟨i, hi⟩ | ⟨i, hi, hin⟩
      · cases hdefault
      · cases hi
      · cases hi
        exact hin
    · exact hs.chosen slot a hold
  · rw [show (takeCursor E s now c).u.cursorNextIndex = _ from hnext]
    rcases hfrom update a h with ⟨hnew, -⟩ | hold
    · exact hslot update slot hnew hof
    · exact (hs.named update a slot hold hof).trans_le hmore
  · change ∀ e ∈ (stash _ _ _).cursorCache, _ < (stash _ _ _).cursorNextIndex
    rw [hcache, hnext]
    exact hbelow
  · change (stash _ _ _).cursorNextIndex ≤ s.pointerCache
    rw [hnext]
    exact hroom

theorem inv_handOut (hs : Inv s) (hpasses : ∀ update c, s.u.pendingCursor = some (update, c) →
    update.stored.isSome → s.encoder.passes update) : Inv (handOut s) := by
  unfold handOut
  rcases hpending : s.u.pendingCursor with _ | ⟨update, c⟩
  · exact hs
  dsimp only
  refine ⟨fun slot hash howner => ?_, by simp, by simp, hs.below, hs.room, hs.agreed⟩
  obtain ⟨a, ha, hhash, hin⟩ := hs.stored slot hash howner
  refine ⟨a, ha, hhash, ?_⟩
  rw [ahead, hpending] at hin
  change slotIn (s.reached ++ [update]) slot = some a at hin
  change slotIn ((s.reached ++ _) ++ []) slot = some a
  rw [append_nil]
  by_cases hpass : s.encoder.passes update
  · rw [if_pos hpass]
    exact hin
  · -- only an update that stores nothing is dropped
    have hnone : update.stored = none := by
      rcases h : update.stored with _ | x
      · rfl
      · exact absurd (hpasses update c hpending (by rw [h]; rfl)) hpass
    rw [slotIn_snoc_of_stored_none hnone] at hin
    rw [if_neg hpass, append_nil]
    exact hin

theorem inv_offered (hs : Inv s) (E : Eviction) {cursor : Option CursorImage} (now : ℕ)
    (hkept : ∀ c, cursor = some c → Kept s c) : Inv (offered E s cursor now) := by
  rcases cursor with _ | c
  · exact hs
  · exact inv_takeCursor hs (hkept c rfl)

theorem encoder_offered (s : State) (cursor : Option CursorImage) (now : ℕ) :
    (offered E s cursor now).encoder = s.encoder ∧
    (offered E s cursor now).reached = s.reached := by
  rcases cursor with _ | c
  all_goals exact ⟨rfl, rfl⟩

theorem inv_fetched (hs : Inv s) (fetched : Option CursorImage) : Inv { s with fetched } :=
  { hs with }

theorem offered_fetched (s : State) (fetched cursor : Option CursorImage) (now : ℕ) :
    offered E { s with fetched } cursor now = { offered E s cursor now with fetched } := by
  rcases cursor with _ | c
  · rfl
  · rfl

theorem inv_step {i : Step} (hs : Inv s) (hi : Sound E s i) : Inv (step E s i) := by
  rcases i with encoder | ⟨cursor, frame⟩
  · exact ⟨nofun, nofun, nofun, nofun, Nat.zero_le _, rfl⟩
  rcases frame with _ | ⟨now, routed⟩
  · exact inv_fetched hs _
  obtain ⟨hkept, hpasses⟩ := hi _ rfl
  have hoffered := inv_fetched (inv_offered hs E now hkept) (cursor.or s.fetched)
  change Inv (if routed.isSome then offered E _ cursor now else handOut (offered E _ cursor now))
  rw [offered_fetched]
  rcases routed with _ | update
  · refine inv_handOut hoffered fun update c hpending hstored => ?_
    change (offered E s cursor now).encoder.passes update
    rw [(encoder_offered s cursor now).1]
    exact hpasses rfl update c hpending hstored
  · exact hoffered

theorem coherent_of_inv {i : Step} (hs : Inv s) (hi : Sound E s i) : Coherent E s i := by
  intro update c hreached
  rcases i with encoder | ⟨cursor, _ | ⟨now, _ | routed⟩⟩
  · cases hreached
  · cases hreached
  · obtain ⟨hpending, hpass⟩ := filter_eq_some_iff.1 hreached
    have hoffered := inv_offered hs E now (hi _ rfl).1
    obtain ⟨hencoder, hlog⟩ := encoder_offered (E := E) s cursor now
    constructor
    · rintro slot rfl
      rw [← hlog]
      exact hoffered.chosen slot c hpending
    · intro slot hslot
      have hlt := (hoffered.named update c slot hpending hslot).trans_le hoffered.room
      rw [hoffered.agreed, hencoder] at hlt
      exact hlt
  · cases hreached

end step

def leastUsed : Eviction where
  pick := List.argmin fun e => e.2.lastUsed
  pick_none := List.argmin_eq_none.1
  pick_mem h := List.argmin_mem h
  pick_least h _ hother := List.le_of_mem_argmin
    (f := fun e : UInt64 × CursorCacheEntry => e.2.lastUsed) hother h

def dot (color : UInt8) : CursorImage := ⟨1, 1, 0, 0, [color, color, color, 255]⟩

def Poll.idle (now : ℕ) (c : CursorImage) : Poll := ⟨some c, some ⟨now, none⟩⟩

def twoShapes : List Step := [.poll (.idle 0 (dot 1)), .poll (.idle 1 (dot 2)),
    .poll (.idle 2 (dot 1))]

theorem kept_of_empty_stash {s : State} {c : CursorImage}
    (hdistinct : ∀ a ∈ s.taken, a.shapeHash = c.shapeHash → a = c)
    (hnone : s.u.pendingCursor = none)
    (howned : (s.u.cursorCache.lookup c.shapeHash).all fun entry =>
      ownerOf s.u.cursorCache entry.cacheIndex = some c.shapeHash) : Kept s c := by
  refine ⟨hdistinct, fun entry _ hfound => ?_, fun _ update a h =>
    absurd (hnone.symm.trans h) (by simp)⟩
  rw [hfound] at howned
  simpa using howned

theorem sound_twoShapes : Along (step leastUsed) (Sound leastUsed) (start ⟨2, true, true⟩)
    twoShapes := by
  have hsound : ∀ s now c, Kept s c →
      ((offered leastUsed s (some c) now).u.pendingCursor.all fun x => s.encoder.passes x.1) →
      Sound leastUsed s (.poll (.idle now c)) := by
    intro s now c hkept hpasses frame hframe
    obtain rfl := some.inj hframe
    refine ⟨fun a ha => some.inj ha ▸ hkept, fun _ update a hpending _ => ?_⟩
    change (offered leastUsed s (some c) now).u.pendingCursor = _ at hpending
    rw [hpending] at hpasses
    exact hpasses
  exact ⟨hsound _ _ _ (kept_of_empty_stash (by decide) (by decide) (by decide)) (by decide),
    hsound _ _ _ (kept_of_empty_stash (by decide) (by decide) (by decide)) (by decide),
    hsound _ _ _ (kept_of_empty_stash (by decide) (by decide) (by decide)) (by decide), trivial⟩

end Linrdp.Display.Pointer
