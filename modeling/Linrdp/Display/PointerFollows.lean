import Linrdp.Display.PointerCache

/-!
# The client's pointer follows the session's

After any polls, and once the stash has been returned, the last pointer update that `next_update`
has returned shows the image that was fetched last (`Follows`). With shapes that the cache keeps
(`Handled`), this holds after every poll of a run exactly if no image that comes without a frame is
a new one (`follows_iff`): such an image is dropped.
-/

namespace Linrdp.Display.Pointer

open Lib.Runs

/-- When the stash has been returned, the last update shows the last image fetched. -/
def Follows (s : State) : Prop := ∀ c, s.fetched = some c → shown (handOut s).returned = some c

/-- The shapes are of at most 384 by 384, and those that come with a frame are kept by the cache. -/
def Handled (s : State) (p : Poll) : Prop :=
  ∀ c, p.cursor = some c → (c.width ≤ 384 ∧ c.height ≤ 384) ∧ (p.frame.isSome → Kept s c)

/-- An image without a frame is the one that came last with one. -/
def Framed (s : State) (p : Poll) : Prop :=
  p.frame = none → ∀ c, p.cursor = some c → s.taken.getLast? = some c

structure InStep (s : State) : Prop where
  cache : s.pointerCache ≠ 0
  unused : s.u.cursorCache = [] → s.u.cursorNextIndex = 0
  lastHash : s.u.cursorLastHash = s.taken.getLast?.map CursorImage.shapeHash
  fetched : s.fetched = s.taken.getLast?
  shows : shown (ahead s.returned s.u) = s.taken.getLast?
  stored : Stored s.returned s.u s.taken

theorem inStep_start {encoder : Encoder} (h : encoder.pointerCacheSize ≠ 0) :
    InStep (start encoder) :=
  ⟨h, fun _ => rfl, rfl, rfl, rfl, nofun⟩

theorem InStep.handOut {s : State} (hs : InStep s) : InStep (handOut s) := by
  obtain ⟨hcache, hmap, hnext, hlast, hfetched, htaken⟩ := handOut_keeps s
  refine ⟨hcache ▸ hs.cache, ?_, ?_, ?_, ?_, ?_⟩
  · rw [hmap, hnext]
    exact hs.unused
  · rw [hlast, htaken]
    exact hs.lastHash
  · rw [hfetched, htaken]
    exact hs.fetched
  · rw [ahead_handOut, htaken]
    exact hs.shows
  · rw [Stored, ahead_handOut, hmap, htaken]
    exact hs.stored

theorem follows_iff_ahead (s : State) :
    Follows s ↔ ∀ c, s.fetched = some c → shown (ahead s.returned s.u) = some c := by
  unfold Follows
  rw [returned_handOut]

theorem follows_handOut (s : State) : Follows (handOut s) ↔ Follows s := by
  obtain ⟨-, -, -, -, hfetched, -⟩ := handOut_keeps s
  rw [follows_iff_ahead, follows_iff_ahead, ahead_handOut, hfetched]

section taken

variable {s : State} {c : CursorImage}

def received (E : Eviction) (s : State) (now : ℕ) (c : CursorImage) : State :=
  takeCursor E { s with fetched := some c } now c

/-- **A shape that is kept is shown.** -/
theorem InStep.received (hs : InStep s) (hsmall : c.width ≤ 384 ∧ c.height ≤ 384) (hkept : Kept s c)
    (E : Eviction) (now : ℕ) : InStep (received E s now c) := by
  obtain ⟨hstored, hshows⟩ := stored_takeCursor E now hs.stored hkept
  have hgetLast : (Pointer.received E s now c).taken.getLast? = some c := List.getLast?_concat
  have hshown : shown (ahead s.returned (Pointer.received E s now c).u) = some c ∧
      ((Pointer.received E s now c).u.cursorCache = [] →
        (Pointer.received E s now c).u.cursorNextIndex = 0) ∧
      (Pointer.received E s now c).u.cursorLastHash = some c.shapeHash := by
    have hupdated := updated_cursorUpdate E s.u s.pointerCache now c
    unfold Pointer.received takeCursor
    dsimp only
    generalize cursorUpdate E s.u s.pointerCache now c = r at hupdated hshows
    cases hupdated with
    | unsupported hsize => exact absurd hsize hs.cache
    | repeated hsize hlast =>
      refine ⟨?_, hs.unused, hlast⟩
      -- the last image has this hash, and so this shape
      rw [hs.lastHash, Option.map_eq_some_iff] at hlast
      obtain ⟨a, ha, hhash⟩ := hlast
      rw [hkept.distinct a (List.mem_of_getLast? ha) hhash] at ha
      exact hs.shows.trans ha
    | @hit entry hsize hlast hfound =>
      refine ⟨?_, fun h => ?_, rfl⟩
      · rcases hshows _ rfl with ⟨hdefault, -⟩ | ⟨slot, hslot⟩ | ⟨slot, hslot, hin⟩
        · cases hdefault
        · cases hslot
        · cases hslot
          exact (shown_snoc_cached _ _).trans hin
      · rw [List.map_eq_nil_iff.1 h] at hfound
        cases hfound
    | tooLarge hsize hlast hlarge => omega
    | full hsize hfull hempty =>
      have hunused := hs.unused hempty
      omega
    | placed hsize hlast hslot hplaced =>
      exact ⟨shown_snoc_of_stored hplaced _, fun h => absurd h (by simp [stash]), rfl⟩
  refine ⟨hs.cache, hshown.2.1, ?_, ?_, ?_, hstored⟩
  · rw [hshown.2.2, hgetLast]
    rfl
  · rw [hgetLast]
    rfl
  · rw [hgetLast]
    exact hshown.1

theorem InStep.follows (hs : InStep s) : Follows s := by
  rw [Follows, returned_handOut, hs.shows, ← hs.fetched]
  exact fun _ h => h

end taken

theorem follows_poll_iff {E : Eviction} {s : State} {p : Poll} (hs : InStep s) (hp : Handled s p) :
    (Follows (poll E s p) ↔ Framed s p) ∧ (Follows (poll E s p) → InStep (poll E s p)) := by
  rcases p with ⟨_ | c, _ | ⟨now, routed⟩⟩
  · exact ⟨iff_of_true hs.follows (by simp [Framed]), fun _ => hs⟩
  · rcases routed with _ | update
    · exact ⟨iff_of_true hs.handOut.follows nofun, fun _ => hs.handOut⟩
    · exact ⟨iff_of_true hs.follows nofun, fun _ => hs⟩
  · -- the image is dropped
    have hiff : Follows { s with fetched := some c } ↔ s.taken.getLast? = some c := by
      rw [Follows, returned_handOut, ← hs.shows]
      simp
    refine ⟨hiff.trans (by simp [Framed]), fun h => ?_⟩
    exact { hs with fetched := (hiff.1 h).symm }
  · obtain ⟨hsmall, hkept⟩ := hp c rfl
    have hreceived := hs.received hsmall (hkept rfl) E now
    rcases routed with _ | update
    · exact ⟨iff_of_true hreceived.handOut.follows nofun, fun _ => hreceived.handOut⟩
    · exact ⟨iff_of_true hreceived.follows nofun, fun _ => hreceived⟩

/-- The third image comes without a frame, and repeats the second. -/
def twoPolls : List Poll :=
  [.idle 0 (dot 1), .idle 1 (dot 2), ⟨some (dot 2), none⟩, .idle 2 (dot 1)]

theorem handled_twoPolls : Along (poll leastUsed) Handled (start ⟨2, true, true⟩) twoPolls := by
  have hidle : ∀ s now c, c.width ≤ 384 ∧ c.height ≤ 384 → Kept s c → Handled s (.idle now c) := by
    intro s now c hsmall hkept a ha
    obtain rfl := Option.some.inj ha
    exact ⟨hsmall, fun _ => hkept⟩
  refine ⟨hidle _ _ _ (by decide) (kept_of_empty_stash (by decide) (by decide) (by decide)),
    hidle _ _ _ (by decide) (kept_of_empty_stash (by decide) (by decide) (by decide)), ?_,
    hidle _ _ _ (by decide) (kept_of_empty_stash (by decide) (by decide) (by decide)), trivial⟩
  intro c hc
  obtain rfl := Option.some.inj hc
  exact ⟨by decide, nofun⟩

end Linrdp.Display.Pointer
