import Linrdp.Wayland.DisplayMode

/-!
# Attaching to a GNOME desk, and what a failed attach leaves behind

The attach of `wayland/mutter.rs` as an `EStateM` program over the desk: a failing step ends it and
the desk stays as the steps before it left it, which is what the source's `?` does. The answers of
the D-Bus and PipeWire calls are the input `Calls`, and so is the moment at which the caller gives
up waiting for the thread that attaches; what that thread does later is not followed.
`leftAsFound_iff`: a failed attach leaves the desk as it found it exactly when the lock screen was
not taken down, or `CreateSession` was refused and the lock call that follows worked, and the layout
the attach last applied is the one it found.
-/

namespace Linrdp.Wayland.Attach

open Wayland.DisplayMode EStateM.Result

inductive Screen
  | monitor
  | virtual (width height : ℕ)
deriving DecidableEq

structure AttachOptions where
  (unlock fitClient : Bool)
  screen : Screen
  replaceDesk : Bool

def AttachOptions.default : AttachOptions := ⟨true, true, .monitor, false⟩

/-- The console at the client's size: a virtual monitor replaces the desk's. -/
def AttachOptions.console (size : ℕ × ℕ) : AttachOptions :=
  { AttachOptions.default with screen := .virtual size.1 size.2, replaceDesk := true }

structure Desk where
  locked : Bool
  layout : Layout

inductive CreateReply
  | ok | malformed | refused
deriving DecidableEq

/-- Where the thread is when `recv_timeout` of its caller runs out: not at the lock screen yet,
between that and the fit, in the calls that follow, or with the virtual monitor in place. -/
inductive Moment
  | begun | creating | casting | replaced
deriving DecidableEq

structure Calls where
  timeout : Option Moment
  (bus mutter getActive unlockCall : Bool)
  create : CreateReply
  (relockCall readState : Bool)
  fitReply : ApplyReply
  (sessionId screenCast snapshot record subscribe startCall stream parameters pipewire : Bool)
  /-- the stream negotiated, its monitor appeared, and `ApplyMonitorsConfig` took it -/
  sole : Option Virtual
  (activate gate : Bool)

inductive AttachError
  | timeout | bus | noMutter | isLocked | unlock | createRefused | badReply | sessionId
  | screenCast | record | subscribe | start | stream | parameters | pipewire | alreadyActive | gate

abbrev DeskM := EStateM AttachError Desk

def check (ok : Bool) (e : AttachError) : DeskM Unit := if ok then pure () else throw e

/-- The caller is still waiting. -/
def awaited (c : Calls) (m : Moment) : Bool := c.timeout != some m

def screenLocked (c : Calls) (d : Desk) : Bool := c.getActive && d.locked

def createSession (o : AttachOptions) (c : Calls) : DeskM Unit := do
  let isLocked := screenLocked c (← get)
  if isLocked then
    check o.unlock .isLocked
    check c.unlockCall .unlock
    modify fun d => { d with locked := false }
  check (awaited c .creating) .timeout
  match c.create with
  | .ok => pure ()
  | .malformed => throw .badReply
  | .refused =>
    if isLocked && c.relockCall then
      modify fun d => { d with locked := true }
    throw .createRefused

/-- From the session to its PipeWire node: none of these calls changes the desk. -/
def cast (c : Calls) : DeskM Unit := do
  check (awaited c .casting) .timeout
  check c.sessionId .sessionId
  check c.screenCast .screenCast
  check c.record .record
  check c.subscribe .subscribe
  check c.startCall .start
  check c.stream .stream
  check c.parameters .parameters
  check c.pipewire .pipewire

def fitDesk (best : BestMode) (o : AttachOptions) (c : Calls) (want : ℕ × ℕ) (d : Desk) : Desk :=
  if o.fitClient && o.screen == .monitor then
    { d with layout := fit best c.readState c.fitReply want d.layout }
  else d

/-- Let the virtual monitor replace the desk's, where the options ask for it; every error on the way
leaves the desk as it is. -/
def replaceDesk (o : AttachOptions) (c : Calls) (d : Desk) : Desk :=
  match o.replaceDesk && c.snapshot, c.sole with
  | true, some v => { d with layout := makeSole v d.layout }
  | _, _ => d

def attach (best : BestMode) (o : AttachOptions) (c : Calls) (want : ℕ × ℕ) : DeskM Unit := do
  check (awaited c .begun) .timeout
  check c.bus .bus
  check c.mutter .noMutter
  createSession o c
  modify (fitDesk best o c want)
  cast c
  modify (replaceDesk o c)
  check (awaited c .replaced) .timeout
  check c.activate .alreadyActive
  check c.gate .gate

/-- **The desk is as it was found**: locked if it was, with its monitors and layout. -/
def LeftAsFound (before after : Desk) : Prop :=
  (before.locked = true → after.locked = true) ∧ after.layout = before.layout

/-! ### The condition -/

/-- The lock screen is taken down. -/
def unlocks (o : AttachOptions) (c : Calls) (d : Desk) : Bool :=
  awaited c .begun && c.bus && c.mutter && screenLocked c d && o.unlock && c.unlockCall

/-- The session is created. -/
def created (o : AttachOptions) (c : Calls) (d : Desk) : Bool :=
  awaited c .begun && c.bus && c.mutter && (!screenLocked c d || o.unlock && c.unlockCall) &&
    awaited c .creating && c.create == .ok

def castOk (c : Calls) : Bool :=
  awaited c .casting && c.sessionId && c.screenCast && c.record && c.subscribe && c.startCall &&
    c.stream && c.parameters && c.pipewire

/-- The monitor is left in its mode, or no other configuration is taken, or the one there is is
asked for. -/
def Keeps (reply : ApplyReply) (l : Layout) (monitor : Monitor) (logical : Logical) (mode : Mode) :
    Prop :=
  mode.current = true ∨ reply.atScale = false ∧ (logical.scale = 1 ∨ reply.atOne = false) ∨
    l = simple monitor (if reply.atScale then logical.scale else 1) logical.transform mode.id

/-- **The steps that change the desk are not reached, change nothing, or are undone.** -/
structure Harmless (best : BestMode) (o : AttachOptions) (c : Calls) (want : ℕ × ℕ) (d : Desk) :
    Prop where
  lock : unlocks o c d = true → awaited c .creating = true ∧ c.create = .refused ∧
    c.relockCall = true
  /-- unless the virtual monitor replaces the desk's -/
  fit : created o c d = true → (castOk c && (o.replaceDesk && c.snapshot) && c.sole.isSome) =
    false → o.fitClient = true → o.screen = .monitor → c.readState = true →
    ∀ monitor logical mode, d.layout = ⟨[monitor], [logical]⟩ →
    best monitor.modes want = some mode →
      Keeps c.fitReply d.layout monitor logical mode
  /-- all monitors are off already, and the virtual one is the only one of the layout -/
  replace : created o c d = true → castOk c = true → o.replaceDesk = true → c.snapshot = true →
    ∀ v, c.sole = some v → (∀ m ∈ d.layout.monitors, m.off = m) ∧
      d.layout.logical = [⟨0, 0, 1, 0, true, [(v.connector, v.modeId)]⟩]

/-! ### Running the steps -/

section

variable {o : AttachOptions} {c : Calls} {d : Desk} {α β : Type}

theorem bind_ok {x : DeskM α} {f : α → DeskM β} {a : α} {d' : Desk} (h : x d = .ok a d') :
    (x >>= f) d = f a d' := by
  show EStateM.bind x f d = _
  rw [EStateM.bind, h]

theorem bind_error {x : DeskM α} {f : α → DeskM β} {e : AttachError} {d' : Desk}
    (h : x d = .error e d') : (x >>= f) d = .error e d' := by
  show EStateM.bind x f d = _
  rw [EStateM.bind, h]

theorem check_true (e : AttachError) : check true e d = .ok () d := rfl

theorem check_false (e : AttachError) : check false e d = .error e d := rfl

theorem check_bind (ok : Bool) (e : AttachError) (rest : DeskM Unit) :
    (check ok e >>= fun _ => rest) d = if ok then rest d else .error e d := by
  cases ok
  · exact bind_error (check_false e)
  · exact bind_ok (check_true e)

def Quiet (x : DeskM Unit) (ok : Bool) : Prop := ∀ d, if ok then x d = .ok () d else ∃ e,
    x d = .error e d

theorem quiet_check (ok : Bool) (e : AttachError) : Quiet (check ok e) ok := by
  intro d
  cases ok with
  | false => exact ⟨e, rfl⟩
  | true => rfl

variable {x y : DeskM Unit} {a b : Bool}

theorem Quiet.bind (hx : Quiet x a) (hy : Quiet y b) : Quiet (x >>= fun _ => y) (a && b) := by
  intro d
  specialize hx d
  cases a with
  | false =>
    obtain ⟨e, he⟩ := hx
    exact ⟨e, bind_error he⟩
  | true =>
    rw [bind_ok hx]
    exact hy d

theorem Quiet.error (h : Quiet x a) {e : AttachError} {d' : Desk} (he : x d = .error e d') :
    d' = d := by
  specialize h d
  rw [he] at h
  split_ifs at h
  obtain ⟨e', h⟩ := h
  exact (error.inj h).2

theorem quiet_cast (c : Calls) : Quiet (cast c) (castOk c) := by
  simp only [castOk, Bool.and_assoc]
  iterate 8 refine (quiet_check _ _).bind ?_
  exact quiet_check _ _

/-- **The desk after `create_session`.** -/
theorem createSession_spec (o : AttachOptions) (c : Calls) (d : Desk) :
    match createSession o c d with
    | .ok _ d' => ((!screenLocked c d || o.unlock && c.unlockCall) && awaited c .creating &&
    c.create == .ok) = true ∧
        d' = { d with locked := !screenLocked c d && d.locked }
    | .error _ d' =>
      ((!screenLocked c d || o.unlock && c.unlockCall) && awaited c .creating && c.create == .ok) =
        false ∧ d' = { d with
          locked := if screenLocked c d && o.unlock && c.unlockCall then
            awaited c .creating && c.create == .refused && c.relockCall else d.locked } := by
  have hget : (get : DeskM Desk) d = .ok d d := rfl
  unfold createSession
  rw [bind_ok hget]
  generalize hlocked : screenLocked c d = isLocked
  generalize awaited c .creating = inTime
  generalize c.create = create
  cases isLocked <;> cases o.unlock <;> cases c.unlockCall <;> cases inTime <;> cases create <;>
    cases c.relockCall <;> exact ⟨rfl, rfl⟩

theorem modify_bind (f : Desk → Desk) (rest : DeskM Unit) :
    (modify f >>= fun _ => rest) d = rest (f d) := rfl

variable {best : BestMode} {want : ℕ × ℕ} {e : AttachError} {d' : Desk}

/-- The attach behind `CreateSession`. -/
def afterCreate (best : BestMode) (o : AttachOptions) (c : Calls) (want : ℕ × ℕ) : DeskM Unit :=
  modify (fitDesk best o c want) >>= fun _ => cast c >>= fun _ => modify (replaceDesk o c) >>=
    fun _ =>
    check (awaited c .replaced) .timeout >>= fun _ => check c.activate .alreadyActive >>= fun _ =>
      check c.gate .gate

theorem afterCreate_error (h : afterCreate best o c want d = .error e d') :
    d' = if castOk c then replaceDesk o c (fitDesk best o c want d) else fitDesk best o c want
    d := by
  rw [afterCreate, modify_bind] at h
  have hcast := quiet_cast c (fitDesk best o c want d)
  split_ifs at hcast with hok
  · rw [bind_ok hcast, modify_bind] at h
    rw [if_pos hok]
    exact ((quiet_check _ _).bind ((quiet_check _ _).bind (quiet_check _ _))).error h
  · obtain ⟨e', hcast⟩ := hcast
    rw [bind_error hcast] at h
    rw [if_neg hok]
    exact (error.inj h).2.symm

/-- The layout when a created session fails later. -/
def layoutAfter (best : BestMode) (o : AttachOptions) (c : Calls) (want : ℕ × ℕ) (l : Layout) :
    Layout :=
  match castOk c && (o.replaceDesk && c.snapshot), c.sole with
  | true, some v => makeSole v l
  | _, _ => if o.fitClient && o.screen == .monitor then fit best c.readState c.fitReply want
      l else l

theorem makeSole_fit (v : Virtual) (read : Bool) (reply : ApplyReply) (l : Layout) :
    makeSole v (fit best read reply want l) = makeSole v l := by
  obtain ⟨monitors, logical⟩ := l
  unfold fit
  split
  · rename_i monitor logical hmonitors hlogical
    obtain rfl : monitors = [monitor] := hmonitors
    split
    · rfl
    · unfold apply
      split_ifs <;> simp [makeSole]
  · rfl

theorem afterCreate_eq (d : Desk) :
    (if castOk c then replaceDesk o c (fitDesk best o c want d) else fitDesk best o c want d) =
      { d with layout := layoutAfter best o c want d.layout } := by
  unfold replaceDesk fitDesk layoutAfter
  cases castOk c <;> cases (o.replaceDesk && c.snapshot) <;> cases c.sole <;>
    cases (o.fitClient && o.screen == .monitor) <;> simp [makeSole_fit]

/-- **The desk of every attach that fails.** -/
theorem attach_error (h : attach best o c want d = .error e d') :
    d' = ⟨if unlocks o c d then awaited c .creating && c.create == .refused &&
    c.relockCall else d.locked,
      if created o c d then layoutAfter best o c want d.layout else d.layout⟩ := by
  unfold attach at h
  rw [check_bind, check_bind, check_bind] at h
  by_cases hreach : (awaited c .begun && c.bus && c.mutter) = true
  · have hreach' := hreach
    simp only [Bool.and_eq_true] at hreach'
    rw [if_pos hreach'.1.1, if_pos hreach'.1.2, if_pos hreach'.2] at h
    have hspec := createSession_spec o c d
    unfold unlocks created
    rw [hreach]
    cases hcreate : createSession o c d with
    | error e' d₁ =>
      rw [hcreate] at hspec
      rw [bind_error hcreate] at h
      obtain rfl := (error.inj h).2
      simp [hspec]
    | ok u d₁ =>
      rw [hcreate] at hspec
      rw [bind_ok hcreate] at h
      rw [afterCreate_error h, afterCreate_eq, hspec.2]
      obtain ⟨hok, -⟩ := hspec
      simp only [Bool.and_eq_true, beq_iff_eq] at hok
      have hrefused : (c.create == .refused) = false := by rw [hok.2]; rfl
      cases hlocked : screenLocked c d <;> simp_all
  · have hsame : d' = d := by
      split_ifs at h with hbegun hbus hmutter
      · exact absurd (by rw [hbegun, hbus, hmutter]; rfl) hreach
      all_goals exact (error.inj h).2.symm
    simp [unlocks, created, hreach, hsame]

theorem fit_single_iff {reply : ApplyReply} {monitor : Monitor} {logical : Logical} :
    fit best true reply want ⟨[monitor], [logical]⟩ = ⟨[monitor], [logical]⟩ ↔
      ∀ mode, best monitor.modes want = some mode →
        Keeps reply ⟨[monitor], [logical]⟩ monitor logical mode := by
  unfold fit Keeps
  dsimp only
  cases hbest : best monitor.modes want with
  | none => simp
  | some mode =>
    simp only [Option.some.injEq, forall_eq']
    obtain ⟨atScale, atOne⟩ := reply
    by_cases hcurrent : mode.current = true
    · simp [hcurrent]
    cases atScale with
    | true =>
      simp [hcurrent, apply, simple]
      exact and_congr eq_comm eq_comm
    | false =>
      by_cases hone : logical.scale ≠ 1 ∧ atOne = true
      · simp [hcurrent, apply, hone, simple]
        exact and_congr eq_comm eq_comm
      · have hrefused : logical.scale = 1 ∨ atOne = false := by
          simpa [or_iff_not_imp_left] using hone
        exact iff_of_true (by simp [hcurrent, apply, hone]) (.inr (.inl ⟨rfl, hrefused⟩))

theorem fit_eq_self_iff {read : Bool} {reply : ApplyReply} {l : Layout} :
    fit best read reply want l = l ↔ (read = true → ∀ monitor logical mode,
    l = ⟨[monitor], [logical]⟩ →
      best monitor.modes want = some mode → Keeps reply l monitor logical mode) := by
  cases read with
  | false => simp [fit]
  | true =>
    by_cases hsingle : ∃ m g, l.monitors = [m] ∧ l.logical = [g]
    · obtain ⟨monitor, logical, hm, hg⟩ := hsingle
      obtain rfl : l = ⟨[monitor], [logical]⟩ := by cases l; simp_all
      rw [fit_single_iff]
      constructor
      · intro h _ m g mode heq hmode
        cases heq
        exact h mode hmode
      · exact fun h mode hmode => h rfl monitor logical mode rfl hmode
    · refine iff_of_true (fit_of_not_simple hsingle) fun _ m g _ heq => ?_
      exact absurd ⟨m, g, by rw [heq], by rw [heq]⟩ hsingle

theorem makeSole_eq_self_iff {v : Virtual} {l : Layout} : makeSole v l = l ↔
    (∀ m ∈ l.monitors, m.off = m) ∧ l.logical =
    [⟨0, 0, 1, 0, true, [(v.connector, v.modeId)]⟩] := by
  obtain ⟨monitors, logical⟩ := l
  have hmap : monitors.map Monitor.off = monitors ↔ ∀ m ∈ monitors, m.off = m := by
    conv_lhs => rhs; rw [← List.map_id monitors]
    exact List.map_inj_left
  simp only [makeSole, Layout.mk.injEq, hmap]
  exact and_congr_right' eq_comm

theorem layoutAfter_eq_self_iff {l : Layout} : layoutAfter best o c want l = l ↔
    ((castOk c && (o.replaceDesk && c.snapshot) && c.sole.isSome) = false →
      o.fitClient = true → o.screen = .monitor → c.readState = true →
      ∀ monitor logical mode, l = ⟨[monitor], [logical]⟩ → best monitor.modes want = some mode →
        Keeps c.fitReply l monitor logical mode) ∧
    (castOk c = true → o.replaceDesk = true → c.snapshot = true → ∀ v, c.sole = some v →
      (∀ m ∈ l.monitors, m.off = m) ∧ l.logical =
      [⟨0, 0, 1, 0, true, [(v.connector, v.modeId)]⟩]) := by
  unfold layoutAfter
  split
  · rename_i v hcast hsole
    rw [makeSole_eq_self_iff, hcast, hsole]
    simp only [Bool.and_eq_true] at hcast
    simp [hcast]
  · rename_i hnot
    have hfit : (if o.fitClient && o.screen == .monitor then fit best c.readState c.fitReply want
        l else l) = l ↔ (o.fitClient = true → o.screen = .monitor → c.readState = true →
          ∀ monitor logical mode, l = ⟨[monitor], [logical]⟩ → best monitor.modes want = some mode →
            Keeps c.fitReply l monitor logical mode) := by
      by_cases hfits : o.fitClient = true ∧ o.screen = .monitor
      · simp [hfits, fit_eq_self_iff]
      · simp [hfits]
        exact fun h h' => absurd ⟨h, h'⟩ hfits
    rw [hfit]
    cases hsole : c.sole with
    | none => simp
    | some v =>
      have hcast : (castOk c && (o.replaceDesk && c.snapshot)) = false := by
        rw [← Bool.not_eq_true]
        exact fun h => hnot v h hsole
      rw [hcast]
      refine ⟨fun h => ⟨fun _ => h, fun hok hreplace hsnapshot => ?_⟩, fun h => h.1 rfl⟩
      simp [hok, hreplace, hsnapshot] at hcast

/-- **When a failed attach leaves the desk as it was found**: exactly when the steps that change it
were not reached, changed nothing, or were undone. -/
theorem leftAsFound_iff (best : BestMode) (o : AttachOptions) (c : Calls) (want : ℕ × ℕ)
    (d d' : Desk) (e : AttachError) (h : attach best o c want d = .error e d') :
    LeftAsFound d d' ↔ Harmless best o c want d := by
  have hlock : (d.locked = true → (if unlocks o c d then awaited c .creating &&
      c.create == .refused && c.relockCall else d.locked) = true) ↔
      (unlocks o c d = true → awaited c .creating = true ∧ c.create = .refused ∧
      c.relockCall = true) := by
    by_cases hunlocks : unlocks o c d = true
    · have hlocked : d.locked = true := by
        simp only [unlocks, screenLocked, Bool.and_eq_true] at hunlocks
        exact hunlocks.1.1.2.2
      simp [hunlocks, hlocked, and_assoc]
    · simp [hunlocks]
  rw [attach_error h, LeftAsFound, hlock]
  by_cases hcreated : created o c d = true
  · rw [if_pos hcreated, layoutAfter_eq_self_iff]
    exact ⟨fun h => ⟨h.1, fun _ => h.2.1, fun _ => h.2.2⟩,
      fun h => ⟨h.lock, h.fit hcreated, h.replace hcreated⟩⟩
  · rw [if_neg hcreated]
    exact ⟨fun h => ⟨h.1, fun hc => absurd hc hcreated, fun hc => absurd hc hcreated⟩, fun h =>
      ⟨h.lock, rfl⟩⟩

end

/-! ### One desk -/

def desk : Desk where
  locked := true
  layout := ⟨[⟨"eDP-1", [⟨"1920x1080@60", 1920, 1080, true⟩]⟩],
    [⟨0, 0, 1, 0, true, [("eDP-1", "1920x1080@60")]⟩]⟩

def allWell : Calls where
  timeout := none
  bus := true
  mutter := true
  getActive := true
  unlockCall := true
  create := .ok
  relockCall := true
  readState := true
  fitReply := ⟨true, true⟩
  sessionId := true
  screenCast := true
  snapshot := true
  record := true
  subscribe := true
  startCall := true
  stream := true
  parameters := true
  pipewire := true
  sole := some ⟨"Meta-0", "1280x800@60"⟩
  activate := true
  gate := true

def firstMode : BestMode := fun modes _ => modes.head?

/-- The equivalence where `CreateSession` is refused and the desk is locked again. -/
theorem leftAsFound_iff_refused :
    Harmless firstMode (.console (1280, 800)) { allWell with create := .refused } (1280, 800) desk ∧
      LeftAsFound desk desk := by
  have hh : Harmless firstMode (.console (1280, 800)) { allWell with create := .refused }
      (1280, 800)
      desk := ⟨fun _ => ⟨rfl, rfl, rfl⟩, fun hcreated => absurd hcreated (by decide),
    fun hcreated => absurd hcreated (by decide)⟩
  exact ⟨hh, (leftAsFound_iff firstMode (.console (1280, 800)) { allWell with create := .refused }
    (1280, 800) desk desk .createRefused rfl).2 hh⟩

/-- **A console attach that fails while recording leaves the desk unlocked**, and one that fails at
the gate leaves it unlocked and with the virtual monitor for its only one. -/
theorem failed_attach_not_leftAsFound :
    (∃ d', attach firstMode (.console (1280, 800)) { allWell with record := false }
    (1280, 800) desk =
        .error .record d' ∧ desk.locked = true ∧ d'.locked = false ∧ ¬ LeftAsFound desk d') ∧
    ∃ d', attach firstMode (.console (1280, 800)) { allWell with gate := false } (1280, 800) desk =
        .error .gate d' ∧ d'.layout ≠ desk.layout ∧ ¬ LeftAsFound desk d' :=
  ⟨⟨{ desk with locked := false }, rfl, rfl, rfl, fun h => absurd (h.1 rfl) (by decide)⟩,
    ⟨{ locked := false, layout := makeSole ⟨"Meta-0", "1280x800@60"⟩ desk.layout }, rfl, by decide,
      fun h => absurd (h.1 rfl) (by decide)⟩⟩

end Linrdp.Wayland.Attach
