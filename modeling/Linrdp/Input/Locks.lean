import Mathlib.Data.Int.Notation
import Linrdp.Lib.Runs

/-!
# The lock keys of the session

`X11InputHandler` of `linrdp/src/input.rs`: the client's keyboard and mouse events, injected into
the X server of the session, which can die and come back. When the client synchronizes, the lock
keys are toggled from the states the handler believes in. The X server is the part of the state that
the handler does not see, and it may change between two events of the client.

The belief is what the last Synchronize wanted (`locks_run`), while the locks follow every press and
start anew with a new server. `synchronized_iff`: the server is at every moment as the last
Synchronize wanted it exactly in the runs in which no lock key is pressed by hand, no Synchronize is
lost and a new server comes only while all locks are to be off (`Undisturbed`).
-/

namespace Linrdp.Input.Locks

open List Lib.Runs

/-- The lock keys that a Synchronize of the client is about. -/
inductive Lock
  | caps | num | scroll
deriving DecidableEq

/-- The X keycode of a lock's key. -/
def Lock.keycode : Lock → ℕ
  | .caps => 66
  | .num => 77
  | .scroll => 78

theorem Lock.keycode_inj : ∀ a b : Lock, a.keycode = b.keycode → a = b := by
  rintro (_ | _ | _) (_ | _ | _) h <;> first | rfl | cases h

/-- `SynchronizeFlags`; its Kana Lock is of no concern to X. -/
abbrev Flags := Lock → Bool

/-- All locks off, as in a new server. -/
def Flags.empty : Flags := fun _ => false

/-- `SynchronizeFlags::toggle`, of one flag. -/
def Flags.toggle (f : Flags) (lock : Lock) : Flags := fun l => if l = lock then !f l else f l

/-- `keycode_for`: an RDP scancode as a keycode of X. -/
def keycodeFor (code : ℕ) (extended : Bool) : Option ℕ :=
  let ofU16 (n : ℕ) : Option ℕ := if n < 256 then some n else none
  if !extended then ofU16 (code + 8)
  else
    match code with
    | 0x1C => some 104
    | 0x1D => some 105
    | 0x35 => some 106
    | 0x37 => some 107
    | 0x38 => some 108
    | 0x47 => some 110
    | 0x48 => some 111
    | 0x49 => some 112
    | 0x4B => some 113
    | 0x4D => some 114
    | 0x4F => some 115
    | 0x50 => some 116
    | 0x51 => some 117
    | 0x52 => some 118
    | 0x53 => some 119
    | 0x5B => some 133
    | 0x5C => some 134
    | 0x5D => some 135
    | _ => ofU16 (code + 8 + 128)

/-- What `xtest_fake_input` injects; the coordinates of a motion do not matter here. -/
inductive Fake
  | key (keycode : ℕ) (pressed : Bool)
  | button (button : ℕ) (pressed : Bool)
  | motion

/-- A keycode that no keysym is bound to, so that of no lock. -/
def FreeKeycode := { keycode : ℕ // ∀ lock : Lock, keycode ≠ lock.keycode }

/-- The handler; `locks` are the lock states it believes the server has. -/
structure X11InputHandler where
  unicodeKeycode : Option FreeKeycode
  locks : Flags
  pressedKeys : List ℕ
  lastReconnectAttempt : Option ℕ

/-- The X server, unseen by the handler: its locks, whether the connection to it works, whether a
new one would, the keycode it has to spare, and the time in milliseconds. -/
structure World where
  locks : Flags
  (alive reachable : Bool)
  freeKeycode : Option FreeKeycode
  now : ℕ

structure State where
  handler : X11InputHandler
  world : World

/-- A press of a lock's key toggles the lock; everything else leaves the locks alone. -/
def World.inject (w : World) : Fake → World
  | .key keycode true =>
    { w with locks := fun lock => if lock.keycode = keycode then !w.locks lock else w.locks lock }
  | _ => w

namespace State

/-! ### Requests -/

variable (s : State)

/-- `xtest_fake_input`; a request on a dead connection fails. -/
def xtestFakeInput (fake : Fake) : Bool × State :=
  if s.world.alive then (true, { s with world := s.world.inject fake }) else (false, s)

/-- `release_all`: keycode and button 0 release whatever is held down, and toggle no lock. -/
def releaseAll : State :=
  let s := (s.xtestFakeInput (.key 0 true)).2
  let s := (s.xtestFakeInput (.button 0 true)).2
  { s with handler := { s.handler with pressedKeys := [] } }

/-- `reconnect`, at most once a second. -/
def reconnect : Bool × State :=
  if s.handler.lastReconnectAttempt.any fun last => s.world.now - last < 1000 then (false, s)
  else
    let s := { s with handler := { s.handler with lastReconnectAttempt := some s.world.now } }
    if s.world.reachable then
      (true, releaseAll
        ⟨{ s.handler with unicodeKeycode := none }, { s.world with alive := true }⟩)
    else (false, s)

/-- What `fake_key`, `fake_button` and `fake_motion` share: a request that fails is sent once more
over a new connection. -/
def fakeInput (fake : Fake) : State :=
  match s.xtestFakeInput fake with
  | (true, s) => s
  | (false, s) =>
    match s.reconnect with
    | (true, s) => (s.xtestFakeInput fake).2
    | (false, s) => s

def fakeKey (keycode : ℕ) (pressed : Bool) : State := s.fakeInput (.key keycode pressed)

def fakeButton (button : ℕ) (pressed : Bool) : State := s.fakeInput (.button button pressed)

def fakeMotion : State := s.fakeInput .motion

/-! ### The events of the client -/

/-- The scratch keycode is looked for once for each connection. -/
def findScratch : State :=
  if s.handler.unicodeKeycode.isSome then s
  else
    { s with handler := { s.handler with
        unicodeKeycode := if s.world.alive then s.world.freeKeycode else none } }

/-- `send_unicode`. A surrogate is dropped; anything else is typed with the scratch keycode. -/
def sendUnicode (code : ℕ) : State :=
  if 0xD800 ≤ code ∧ code < 0xE000 then s
  else
    match s.findScratch.handler.unicodeKeycode with
    | none => s.findScratch
    | some keycode =>
      if s.findScratch.world.alive then
        (s.findScratch.fakeKey keycode.1 true).fakeKey keycode.1 false
      else s.findScratch

/-- One entry of `toggles`: pressed and released if the belief is not what is wanted. -/
def toggle (entry : Bool × Bool × Lock) : State :=
  let (desired, current, lock) := entry
  if desired ≠ current then
    let s := (s.fakeKey lock.keycode true).fakeKey lock.keycode false
    { s with handler := { s.handler with locks := s.handler.locks.toggle lock } }
  else s

/-- `synchronize`: every key up, then each lock toggled from the belief. -/
def synchronize (want : Flags) : State :=
  let s := s.releaseAll
  let toggles :=
    [(want .caps, s.handler.locks .caps, .caps), (want .num, s.handler.locks .num, .num),
      (want .scroll, s.handler.locks .scroll, .scroll)]
  toggles.foldl toggle s

inductive KeyboardEvent
  | pressed (code : ℕ) (extended : Bool)
  | released (code : ℕ) (extended : Bool)
  | unicodePressed (code : ℕ)
  | unicodeReleased (code : ℕ)
  | synchronize (flags : Flags)

/-- `keyboard` of `RdpServerInputHandler` -/
def keyboard : KeyboardEvent → State
  | .pressed code extended =>
    match keycodeFor code extended with
    | none => s
    | some kc =>
      { s with handler := { s.handler with pressedKeys := kc :: s.handler.pressedKeys } }.fakeKey kc
        true
  | .released code extended =>
    match keycodeFor code extended with
    | none => s
    | some kc =>
      { s with handler := { s.handler with
          pressedKeys := s.handler.pressedKeys.filter (· ≠ kc) } }.fakeKey kc false
  | .unicodePressed code => s.sendUnicode code
  | .unicodeReleased _ => s
  | .synchronize flags => s.synchronize flags

inductive MouseEvent
  | move
  | button (button : Option ℕ) (pressed : Bool)
  | verticalScroll (value : ℤ)
  | horizontalScroll (value : ℤ)
  | other

/-- A wheel turned by `value`: one click for each 120, and at least one. -/
def scroll (value : ℤ) (positive negative : ℕ) : State :=
  let b := if 0 ≤ value then positive else negative
  (List.range (max (value.natAbs / 120) 1)).foldl
    (fun s _ => (s.fakeButton b true).fakeButton b false) s

/-- `mouse` of `RdpServerInputHandler` -/
def mouse : MouseEvent → State
  | .move => s.fakeMotion
  | .button none _ => s.fakeMotion
  | .button (some b) pressed => s.fakeMotion.fakeButton b pressed
  | .verticalScroll value => s.scroll value 4 5
  | .horizontalScroll value => s.scroll value 7 6
  | .other => s

end State

open State

/-! ### Runs -/

/-- An event of the client, or a change of the server and of the time. -/
inductive Step
  | keyboard (event : KeyboardEvent)
  | mouse (event : MouseEvent)
  | breaks (fresh : Bool)
  | reachable (reachable : Bool)
  | elapse (millis : ℕ)

def step (s : State) : Step → State
  | .keyboard event => s.keyboard event
  | .mouse event => s.mouse event
  | .breaks fresh =>
    { s with world := { s.world with
        alive := false, locks := if fresh then Flags.empty else s.world.locks } }
  | .reachable reachable => { s with world := { s.world with reachable := reachable } }
  | .elapse millis => { s with world := { s.world with now := s.world.now + millis } }

variable (freeKeycode : Option FreeKeycode)

/-- The handler `connect` makes, with all locks off. -/
def start : State :=
  releaseAll ⟨⟨none, Flags.empty, [], none⟩, ⟨Flags.empty, true, true, freeKeycode, 0⟩⟩

/-- The lock states of the last Synchronize, or those of a new server. -/
def lastWanted (steps : List Step) : Flags :=
  steps.foldl (fun wanted step =>
    match step with
    | .keyboard (.synchronize want) => want
    | _ => wanted) Flags.empty

/-- The next request is delivered: the connection works, or can be made again. -/
def Ready (s : State) : Prop :=
  s.world.alive = true ∨
    s.world.reachable = true ∧ ∀ last, s.handler.lastReconnectAttempt = some last →
    last + 1000 ≤ s.world.now

/-! ### Requests that get through, and others -/

theorem inject_zero (w : World) : w.inject (.key 0 true) = w := by
  have hlock (lock : Lock) : lock.keycode ≠ 0 := by cases lock <;> decide
  simp [World.inject, hlock]

theorem releaseAll_eq (s : State) :
    s.releaseAll = { s with handler := { s.handler with pressedKeys := [] } } := by
  have hkey : (s.xtestFakeInput (.key 0 true)).2 = s := by
    unfold xtestFakeInput
    split_ifs
    · rw [inject_zero]
    · rfl
  have hbutton : (s.xtestFakeInput (.button 0 true)).2 = s := by
    unfold xtestFakeInput
    split_ifs <;> rfl
  rw [releaseAll, hkey, hbutton]

section requests

variable {s : State}

theorem reconnect_of_ready (h : Ready s) (halive : s.world.alive = false) :
    s.reconnect.1 = true ∧ s.reconnect.2.world = { s.world with alive := true } := by
  obtain ⟨hreachable, hlast⟩ := h.resolve_left (by rw [halive]; exact Bool.false_ne_true)
  have hwaited : ¬(s.handler.lastReconnectAttempt.any fun last => s.world.now - last < 1000) =
      true := by
    rw [Option.any_eq_true]
    rintro ⟨last, hsome, hrecent⟩
    have := hlast last hsome
    simp only [decide_eq_true_eq] at hrecent
    omega
  rw [reconnect, if_neg hwaited]
  rw [if_pos hreachable, releaseAll_eq]
  exact ⟨rfl, rfl⟩

theorem reconnect_of_not_ready (h : ¬Ready s) :
    s.reconnect.1 = false ∧ s.reconnect.2.world = s.world ∧ ¬Ready s.reconnect.2 := by
  rw [reconnect]
  split_ifs with hrecent
  · exact ⟨rfl, rfl, h⟩
  · -- the second has passed, so there is no server to be reached
    have hunreachable : ¬s.world.reachable = true := by
      intro hreachable
      refine h (.inr ⟨hreachable, fun last hsome => ?_⟩)
      rw [hsome] at hrecent
      simp only [Option.any_some, decide_eq_true_eq] at hrecent
      omega
    have halive : ¬s.world.alive = true := fun halive => h (.inl halive)
    rw [if_neg hunreachable]
    refine ⟨rfl, rfl, ?_⟩
    rintro (hup | ⟨hup, -⟩)
    · exact halive hup
    · exact hunreachable hup

theorem inject_alive (w : World) (fake : Fake) : (w.inject fake).alive = w.alive := by
  unfold World.inject
  split <;> rfl

theorem fakeInput_eq (s : State) (fake : Fake) : s.fakeInput fake =
    if s.world.alive then (s.xtestFakeInput fake).2
    else if s.reconnect.1 then (s.reconnect.2.xtestFakeInput fake).2 else s.reconnect.2 := by
  rw [fakeInput, xtestFakeInput]
  by_cases halive : s.world.alive = true
  · rw [if_pos halive, if_pos halive]
  · rw [if_neg halive, if_neg halive]
    dsimp only
    rcases s.reconnect with ⟨_ | _, s'⟩ <;> rfl

theorem fakeInput_of_ready (h : Ready s) (fake : Fake) :
    (s.fakeInput fake).world.locks = (s.world.inject fake).locks ∧ Ready (s.fakeInput fake) := by
  by_cases halive : s.world.alive = true
  · rw [fakeInput_eq, if_pos halive, xtestFakeInput, if_pos halive]
    exact ⟨rfl, .inl ((inject_alive _ _).trans halive)⟩
  · obtain ⟨hok, hworld⟩ := reconnect_of_ready h (Bool.not_eq_true _ ▸ halive)
    have halive' : s.reconnect.2.world.alive = true := by rw [hworld]
    rw [fakeInput_eq, if_neg halive, if_pos hok, xtestFakeInput, if_pos halive']
    refine ⟨?_, .inl ((inject_alive _ _).trans halive')⟩
    rw [hworld]
    unfold World.inject
    split <;> rfl

theorem fakeInput_of_not_ready (h : ¬Ready s) (fake : Fake) :
    (s.fakeInput fake).world.locks = s.world.locks ∧ ¬Ready (s.fakeInput fake) := by
  obtain ⟨hfailed, hworld, hready⟩ := reconnect_of_not_ready h
  rw [fakeInput_eq, if_neg fun halive => h (.inl halive), if_neg (by simp [hfailed]), hworld]
  exact ⟨rfl, hready⟩

theorem fakeInput_belief (s : State) (fake : Fake) :
    (s.fakeInput fake).handler.locks = s.handler.locks := by
  have hsend (s : State) : (s.xtestFakeInput fake).2.handler = s.handler := by
    rw [xtestFakeInput]
    split_ifs <;> rfl
  have hreconnect : s.reconnect.2.handler.locks = s.handler.locks := by
    rw [reconnect]
    split_ifs
    · rfl
    · dsimp only
      split_ifs
      · rw [releaseAll_eq]
      · rfl
  rw [fakeInput_eq]
  split_ifs
  · rw [hsend]
  · rw [hsend, hreconnect]
  · exact hreconnect

/-! ### Synchronize -/

theorem toggle_belief (s : State) (desired current : Bool) (lock l : Lock) :
    (s.toggle (desired, current, lock)).handler.locks l =
      if l = lock ∧ desired ≠ current then !s.handler.locks l else s.handler.locks l := by
  rw [toggle]
  by_cases hne : desired ≠ current
  · rw [if_pos hne]
    change Flags.toggle ((s.fakeInput _).fakeInput _).handler.locks lock l = _
    rw [fakeInput_belief, fakeInput_belief, Flags.toggle]
    simp [hne]
  · rw [if_neg hne, if_neg fun hand => hne hand.2]

theorem toggle_of_ready (h : Ready s) (desired current : Bool) (lock : Lock) :
    Ready (s.toggle (desired, current, lock)) ∧
      ∀ l, (s.toggle (desired, current, lock)).world.locks l =
        if l = lock ∧ desired ≠ current then !s.world.locks l else s.world.locks l := by
  rw [toggle]
  by_cases hne : desired ≠ current
  · obtain ⟨hpress, hready⟩ := fakeInput_of_ready h (.key lock.keycode true)
    obtain ⟨hrelease, hready'⟩ := fakeInput_of_ready hready (.key lock.keycode false)
    rw [if_pos hne]
    refine ⟨hready', fun l => ?_⟩
    have hlocks : ((s.fakeInput (.key lock.keycode true)).fakeInput
        (.key lock.keycode false)).world.locks =
        (s.world.inject (.key lock.keycode true)).locks := hrelease.trans hpress
    change ((s.fakeInput _).fakeInput _).world.locks l = _
    rw [hlocks, World.inject]
    by_cases hl : l = lock
    · simp [hl, hne]
    · have hcode : l.keycode ≠ lock.keycode := fun hcode => hl (Lock.keycode_inj _ _ hcode)
      simp [hl, hcode]
  · rw [if_neg hne]
    exact ⟨h, fun l => (if_neg fun hand => hne hand.2).symm⟩

theorem toggle_of_not_ready (h : ¬Ready s) (entry : Bool × Bool × Lock) :
    ¬Ready (s.toggle entry) ∧ (s.toggle entry).world.locks = s.world.locks := by
  obtain ⟨desired, current, lock⟩ := entry
  rw [toggle]
  by_cases hne : desired ≠ current
  · obtain ⟨hpress, hready⟩ := fakeInput_of_not_ready h (.key lock.keycode true)
    obtain ⟨hrelease, hready'⟩ := fakeInput_of_not_ready hready (.key lock.keycode false)
    rw [if_pos hne]
    exact ⟨hready', hrelease.trans hpress⟩
  · rw [if_neg hne]
    exact ⟨h, rfl⟩

/-- The toggles of some locks, in order. -/
def entries (want belief : Flags) (locks : List Lock) : List (Bool × Bool × Lock) :=
  locks.map fun lock => (want lock, belief lock, lock)

theorem foldl_toggle {I : State → Prop} {f : State → Flags}
    (hturn : ∀ s, I s → ∀ desired current lock, I (s.toggle (desired, current, lock)) ∧
      ∀ l, f (s.toggle (desired, current, lock)) l =
        if l = lock ∧ desired ≠ current then !f s l else f s l)
    (want belief : Flags) {locks : List Lock} (hnodup : locks.Nodup) (h : I s) (l : Lock) :
    f ((entries want belief locks).foldl toggle s) l =
      if l ∈ locks ∧ want l ≠ belief l then !f s l else f s l := by
  induction locks generalizing s with
  | nil => simp [entries]
  | cons lock locks ih =>
    rw [nodup_cons] at hnodup
    obtain ⟨hnext, hflags⟩ := hturn s h (want lock) (belief lock) lock
    rw [entries, map_cons, foldl_cons, ← entries, ih hnodup.2 hnext, hflags]
    by_cases hl : l = lock
    · subst hl
      simp [hnodup.1]
    · simp [hl]

theorem foldl_toggle_of_not_ready (h : ¬Ready s) (toggles : List (Bool × Bool × Lock)) :
    (toggles.foldl toggle s).world.locks = s.world.locks := by
  induction toggles generalizing s with
  | nil => rfl
  | cons entry toggles ih =>
    obtain ⟨hready, hlocks⟩ := toggle_of_not_ready h entry
    rw [foldl_cons, ih hready, hlocks]

theorem synchronize_eq (s : State) (want : Flags) : s.synchronize want =
    (entries want s.handler.locks [.caps, .num, .scroll]).foldl toggle
      { s with handler := { s.handler with pressedKeys := [] } } := by
  rw [synchronize, releaseAll_eq]
  rfl

theorem Lock.mem_all (l : Lock) : l ∈ [Lock.caps, .num, .scroll] := by cases l <;> simp

theorem synchronize_belief (s : State) (want : Flags) :
    (s.synchronize want).handler.locks = want := by
  funext l
  rw [synchronize_eq, foldl_toggle (I := fun _ => True) (f := (·.handler.locks))
    (fun s _ d c lock => ⟨trivial, toggle_belief s d c lock⟩) _ _ (by decide) trivial]
  simp only [Lock.mem_all, true_and]
  cases want l <;> cases s.handler.locks l <;> simp

theorem synchronize_of_ready (h : Ready s) (want : Flags) (l : Lock) :
    (s.synchronize want).world.locks l =
      if want l ≠ s.handler.locks l then !s.world.locks l else s.world.locks l := by
  have h' : Ready { s with handler := { s.handler with pressedKeys := [] } } := h
  rw [synchronize_eq, foldl_toggle (I := Ready) (f := (·.world.locks))
    (fun _ h d c lock => toggle_of_ready h d c lock) _ _ (by decide) h']
  simp only [Lock.mem_all, true_and]

theorem synchronize_of_not_ready (h : ¬Ready s) (want : Flags) :
    (s.synchronize want).world.locks = s.world.locks := by
  have h' : ¬Ready { s with handler := { s.handler with pressedKeys := [] } } := h
  rw [synchronize_eq, foldl_toggle_of_not_ready h']

/-- **What a Synchronize comes to.** The toggles are right if the belief was; where none gets
through, the locks have to be right already. -/
theorem synchronize_locks_iff (s : State) (want : Flags) :
    (s.synchronize want).world.locks = want ↔
      (Ready s ∧ s.world.locks = s.handler.locks) ∨ (¬Ready s ∧ s.world.locks = want) := by
  by_cases h : Ready s
  · rw [or_iff_left fun hand => hand.1 h, and_iff_right h, funext_iff, funext_iff]
    refine forall_congr' fun l => ?_
    rw [synchronize_of_ready h]
    cases want l <;> cases s.handler.locks l <;> cases s.world.locks l <;> simp
  · rw [or_iff_right fun hand => h hand.1, and_iff_right h, synchronize_of_not_ready h]

end requests

/-! ### Other events -/

def Untouched (s s' : State) : Prop := s'.handler.locks = s.handler.locks ∧
    s'.world.locks = s.world.locks

theorem Untouched.trans {s s' s'' : State} (h : Untouched s s') (h' : Untouched s' s'') :
    Untouched s s'' := ⟨h'.1.trans h.1, h'.2.trans h.2⟩

section

variable (s : State)
include s

theorem untouched_fakeInput (fake : Fake) (hfake : ∀ lock : Lock, fake ≠ .key lock.keycode true) :
    Untouched s (s.fakeInput fake) := by
  have hinject : (s.world.inject fake).locks = s.world.locks := by
    unfold World.inject
    split
    · rename_i keycode
      funext lock
      exact if_neg fun hcode => hfake lock (by rw [hcode])
    · rfl
  refine ⟨fakeInput_belief s fake, ?_⟩
  by_cases h : Ready s
  · exact (fakeInput_of_ready h fake).1.trans hinject
  · exact (fakeInput_of_not_ready h fake).1

theorem untouched_scroll (value : ℤ) (positive negative : ℕ) :
    Untouched s (s.scroll value positive negative) := by
  rw [scroll]
  generalize List.range _ = clicks
  induction clicks generalizing s with
  | nil => exact ⟨rfl, rfl⟩
  | cons click clicks ih =>
    have hclick (b : ℕ) : Untouched s ((s.fakeButton b true).fakeButton b false) :=
      (untouched_fakeInput s (.button b true) (by simp)).trans
        (untouched_fakeInput _ (.button b false) (by simp))
    exact (hclick _).trans (ih _)

theorem untouched_mouse (event : MouseEvent) : Untouched s (s.mouse event) := by
  have hmotion : Untouched s s.fakeMotion := untouched_fakeInput s .motion (by simp)
  rcases event with _ | ⟨_ | b, pressed⟩ | value | value | _
  · exact hmotion
  · exact hmotion
  · exact hmotion.trans (untouched_fakeInput _ (.button b pressed) (by simp))
  · exact untouched_scroll s value 4 5
  · exact untouched_scroll s value 7 6
  · exact ⟨rfl, rfl⟩

theorem untouched_sendUnicode (code : ℕ) : Untouched s (s.sendUnicode code) := by
  have hfind : Untouched s s.findScratch := by
    rw [findScratch]
    split_ifs <;> exact ⟨rfl, rfl⟩
  rw [sendUnicode]
  by_cases hsurrogate : 0xD800 ≤ code ∧ code < 0xE000
  · rw [if_pos hsurrogate]
    exact ⟨rfl, rfl⟩
  · rw [if_neg hsurrogate]
    split
    · exact hfind
    · rename_i keycode _
      split_ifs
      · have hpress := untouched_fakeInput s.findScratch (.key keycode.1 true)
          (by simpa using keycode.2)
        exact hfind.trans (hpress.trans (untouched_fakeInput _ (.key keycode.1 false) (by simp)))
      · exact hfind

theorem untouched_released (code : ℕ) (extended : Bool) :
    Untouched s (s.keyboard (.released code extended)) := by
  rw [State.keyboard]
  split
  · exact ⟨rfl, rfl⟩
  · exact untouched_fakeInput _ (.key _ false) (by simp)

/-! ### Runs -/

theorem keyboard_pressed_belief (code : ℕ) (extended : Bool) :
    (s.keyboard (.pressed code extended)).handler.locks = s.handler.locks := by
  rw [State.keyboard]
  split
  · rfl
  · rw [fakeKey, fakeInput_belief]

theorem step_belief (i : Step) : (step s i).handler.locks = match i with
      | .keyboard (.synchronize want) => want
      | _ => s.handler.locks := by
  rcases i with (⟨code, extended⟩ | ⟨code, extended⟩ | code | code | want) | event | fresh |
    reachable | millis
  · exact keyboard_pressed_belief s code extended
  · exact (untouched_released s code extended).1
  · exact (untouched_sendUnicode s code).1
  · rfl
  · exact synchronize_belief s want
  · exact (untouched_mouse s event).1
  · rfl
  · rfl
  · rfl

end

/-- **The belief is what the last Synchronize wanted.** -/
theorem locks_run (steps : List Step) :
    (run step (start freeKeycode) steps).handler.locks = lastWanted steps := by
  refine run_history (H := fun steps (s : State) => s.handler.locks = lastWanted steps) ?_
    (fun steps i h => ?_) steps
  · rfl
  · rw [step_belief, lastWanted, foldl_append, ← lastWanted, foldl_cons, foldl_nil, h]

/-- No press of a lock key is delivered, no Synchronize that asks for a change is lost, and a new
server comes only while all locks are to be off. -/
def Undisturbed (s : State) : Step → Prop
  | .keyboard (.pressed code extended) => Ready s → ∀ lock :
      Lock, keycodeFor code extended ≠ some lock.keycode
  | .keyboard (.synchronize want) => Ready s ∨ want = s.handler.locks
  | .breaks true => s.handler.locks = Flags.empty
  | _ => True

section undisturbed

variable {s : State} (h : s.world.locks = s.handler.locks)
include h

theorem mirrored_of_untouched {s' : State} (h' : Untouched s s') :
    s'.world.locks = s'.handler.locks := by
  rw [h'.1, h'.2, h]

theorem mirrored_pressed_iff (code : ℕ) (extended : Bool) :
    Undisturbed s (.keyboard (.pressed code extended)) ↔
      (s.keyboard (.pressed code extended)).world.locks =
      (s.keyboard (.pressed code extended)).handler.locks := by
  rw [Undisturbed, keyboard_pressed_belief, State.keyboard]
  rcases hcode : keycodeFor code extended with _ | kc
  · exact iff_of_true (fun _ _ => by simp) h
  let pressed : State := { s with handler := { s.handler with pressedKeys :=
    kc :: s.handler.pressedKeys } }
  by_cases hlock : ∃ lock : Lock, lock.keycode = kc
  · obtain ⟨lock, rfl⟩ := hlock
    by_cases hready : Ready s
    · have hsent := (fakeInput_of_ready (s := pressed) hready (.key lock.keycode true)).1
      refine iff_of_false (fun hnone => hnone hready lock rfl) fun hsame => ?_
      have hturned := congrFun (hsent.symm.trans hsame) lock
      simp [World.inject, pressed, h] at hturned
    · refine iff_of_true (fun hyes => absurd hyes hready) ?_
      exact (fakeInput_of_not_ready (s := pressed) hready (.key lock.keycode true)).1.trans h
  · have hfake (lock : Lock) : kc ≠ lock.keycode := fun heq => hlock ⟨lock, heq.symm⟩
    refine iff_of_true (fun _ lock heq => hfake lock (Option.some.inj heq)) ?_
    exact (untouched_fakeInput pressed (.key kc true) fun lock heq =>
      hfake lock (Fake.key.inj heq).1).2.trans h

theorem undisturbed_iff (i : Step) :
    Undisturbed s i ↔ (step s i).world.locks = (step s i).handler.locks := by
  rcases i with (⟨code, extended⟩ | ⟨code, extended⟩ | code | code | want) | event | fresh |
    reachable | millis
  · exact mirrored_pressed_iff h code extended
  · exact iff_of_true trivial (mirrored_of_untouched h (untouched_released s code extended))
  · exact iff_of_true trivial (mirrored_of_untouched h (untouched_sendUnicode s code))
  · exact iff_of_true trivial h
  · rw [Undisturbed, step, State.keyboard, synchronize_belief, synchronize_locks_iff, h]
    by_cases hready : Ready s
    · simp [hready]
    · simp [hready, eq_comm]
  · exact iff_of_true trivial (mirrored_of_untouched h (untouched_mouse s event))
  · cases fresh with
    | true => exact eq_comm
    | false => exact iff_of_true trivial h
  · exact iff_of_true trivial h
  · exact iff_of_true trivial h

end undisturbed

/-- **The locks are as the last Synchronize wanted them**, and so as wanted right after each
Synchronize, at every moment of a run exactly if nothing disturbs it. -/
theorem synchronized_iff (freeKeycode : Option FreeKeycode) (steps : List Step) :
    Along step Undisturbed (start freeKeycode) steps ↔
      ∀ pre, pre <+: steps → (run step (start freeKeycode) pre).world.locks = lastWanted pre := by
  have hstart : (start freeKeycode).world.locks = (start freeKeycode).handler.locks := by
    rw [start, releaseAll_eq]
  rw [along_iff_run (I := fun _ => True) (G := fun s : State => s.world.locks = s.handler.locks)
    (fun _ _ _ _ => trivial) (fun _ i _ h => undisturbed_iff h i) trivial hstart]
  simp only [locks_run]

/-- **Counterexample.** Caps Lock pressed by hand, and a Synchronize that wants it off; a
Synchronize that wants it on, a new X server, and the same Synchronize again. -/
theorem not_synchronized :
    (run step (start none)
        [.keyboard (.pressed 0x3A false), .keyboard (.released 0x3A false),
          .keyboard (.synchronize Flags.empty)]).world.locks .caps = true ∧
      (run step (start none)
        [.keyboard (.synchronize fun lock => lock == .caps), .breaks true, .elapse 2000,
          .mouse .move, .keyboard (.synchronize fun lock => lock == .caps)]).world.locks .caps =
          false := by
  decide

end Linrdp.Input.Locks
