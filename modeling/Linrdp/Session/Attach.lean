import Linrdp.Session.Registry

/-!
# Attaching a login to its account's session, or creating one

`session/mod.rs` and what its callees touch: the record files, the display claims (`flock`s), the
authority files, and the X servers that answer on the display sockets. A login looks its session up
(`attachLive`), probing the desktop with the X11 handshake of `desktopIsLive`; when there is none it
allocates a number, starts a keeper and polls for the record the keeper publishes (`create`). The
keeper is an input: what PAM gives it, when it publishes, and whether its desktop is still there.
-/

namespace Linrdp.Session.Attach

open Session.Registry Function

inductive Backend
  | x11 | gnomeHeadless

def Backend.id : Backend → String
  | .x11 => "x11"
  | .gnomeHeadless => "gnome-headless"

inductive LoginError
  | unknownUser
  | otherBackend (running wanted : String)
  | noFreeDisplay | keeperFailed
  | belongsTo (user : String)
  | notReady | didNotSurvive
deriving DecidableEq

/-- A session a keeper started: the record it published, and which of its halves still run. -/
structure SessionRun where
  record : SessionRecord
  (keeper desktop : Bool)

structure World where
  records : Records
  /-- the cookie an authority file holds for a display -/
  cookies : String → ℕ → Option ℕ
  /-- the cookie accepted by the X server that answers on a display's socket -/
  served : ℕ → Option ℕ
  /-- whether a process holds the claim on a display number -/
  held : ℕ → Bool
  sessions : List SessionRun

structure Config where
  range : DisplayRange
  /-- the uid of a user name, if NSS knows it -/
  lookupUser : String → Option ℕ

/-! ### The probe, the claim and the lookup -/

variable (w : World)

def desktopIsLive (rec : SessionRecord) : Bool :=
  match w.served rec.display with
  | none => false
  | some accepted =>
    match w.cookies rec.xauthority rec.display with
    | none => false
    | some cookie => cookie == accepted

def allocate (range : DisplayRange) : Option ℕ :=
  range.numbers.find? fun d => !w.held d && (w.served d).isNone

variable (display : ℕ)

def forget : World := { w with records := forgetRecord w.records display }

def attachLive (user : String) (range : DisplayRange) : Option SessionRecord × World :=
  match find w.records user range with
  | none => (none, w)
  | some rec => if desktopIsLive w rec then (some rec, w) else (none, forget w rec.display)

/-! ### The keeper -/

inductive Fate
  | notSpawned
  /-- it died before publishing; an X session whose desktop fails also drops the record file -/
  | died (clears : Bool)
  /-- the record is on disk from poll `poll` on; `survives`: the desktop is up at the login's probe
  -/
  | published (poll : ℕ) (survives : Bool)
deriving DecidableEq

structure KeeperRun where
  (runtimeDir localBus : String)
  logindId : Option String
  cookie : ℕ
  fate : Fate

def cookiePath (runtimeDir : String) (display : ℕ) : String :=
  runtimeDir ++ "/linrdp/Xauthority-" ++ toString display

variable (b : Backend)

/-- The record each case publishes. Only an X session names an authority file. -/
def recordOf (user : String) (display : ℕ) (k : KeeperRun) : SessionRecord :=
  match b with
  | .x11 =>
    { user, display, runtimeDir := k.runtimeDir, xauthority := cookiePath k.runtimeDir display
      locked := false, logindId := k.logindId, bus := none, backend := b.id }
  | .gnomeHeadless =>
    { user, display, runtimeDir := k.runtimeDir, xauthority := "", locked := false
      logindId := k.logindId, bus := some k.localBus, backend := b.id }

/-- The world once a keeper serves its session: claim held, record published, and for an X session
its server listening with the cookie of its authority file. -/
def serve (w : World) (rec : SessionRecord) (cookie : ℕ) : World :=
  let w := { w with
    records := writeRecord w.records rec
    held := update w.held rec.display true
    sessions := ⟨rec, true, true⟩ :: w.sessions }
  match b with
  | .x11 => { w with
      served := update w.served rec.display (some cookie)
      cookies := fun path d =>
        if path = rec.xauthority ∧ d = rec.display then some cookie else w.cookies path d }
  | .gnomeHeadless => w

/-- A session's desktop exits. A keeper that is still there tears the rest down: record, claim. -/
def desktopExit : World :=
  let kept := w.sessions.any fun s => s.record.display == display && s.keeper
  let x11 := w.sessions.any fun s =>
    s.record.display == display && s.desktop && s.record.backend == Backend.x11.id
  { w with
    records := if kept then forgetRecord w.records display else w.records
    held := if kept then update w.held display false else w.held
    served := if x11 then update w.served display none else w.served
    sessions := w.sessions.map fun s =>
      if s.record.display = display then { s with keeper := false, desktop := false } else s }

/-- A keeper is killed: its claim goes with it, its desktop runs on. -/
def keeperExit : World :=
  { w with
    held := if w.sessions.any fun s => s.record.display == display && s.keeper
      then update w.held display false else w.held
    sessions := w.sessions.map fun s =>
      if s.record.display = display then { s with keeper := false } else s }

/-! ### Creating a session -/

/-- Poll for the record of `display`: whatever record is read first ends the wait, and one that
names another account is refused. -/
def waitForRecord (read : ℕ → Option SessionRecord) (user : String) :
    ℕ → ℕ → Except LoginError SessionRecord
  | 0, _ => .error .notReady
  | polls + 1, t =>
    match read t with
    | some rec => if rec.user = user then .ok rec else .error (.belongsTo rec.user)
    | none => waitForRecord read user polls (t + 1)

/-- One login: the account as typed, the case that serves it, the polls its deadline allows, and
what becomes of the keeper if one is started. -/
structure Login where
  user : String
  backend : Backend
  polls : ℕ
  keeper : KeeperRun

def readDuring (l : Login) (display : ℕ) (t : ℕ) : Option SessionRecord :=
  match l.keeper.fate with
  | .published poll _ =>
    if t < poll then w.records display
    else some (recordOf l.backend l.user display l.keeper)
  | _ => w.records display

def keeperWorld (l : Login) (display : ℕ) : World :=
  match l.keeper.fate with
  | .notSpawned => w
  | .died clears => if clears then forget w display else w
  | .published _ survives =>
    let w := serve l.backend w (recordOf l.backend l.user display l.keeper) l.keeper.cookie
    if survives then w else desktopExit w display

def create (range : DisplayRange) (l : Login) : Except LoginError SessionRecord × World :=
  match allocate w range with
  | none => (.error .noFreeDisplay, w)
  | some display =>
    let after := keeperWorld w l display
    if l.keeper.fate = .notSpawned then (.error .keeperFailed, after)
    else
      match waitForRecord (readDuring w l display) l.user l.polls 0 with
      | .error e => (.error e, after)
      | .ok rec => if desktopIsLive after rec then (.ok rec, after) else (.error .didNotSurvive,
          after)

def attachOrCreate (cfg : Config) (w : World) (l : Login) :
    Except LoginError SessionRecord × World :=
  match cfg.lookupUser l.user with
  | none => (.error .unknownUser, w)
  | some _ =>
    match attachLive w l.user cfg.range with
    | (some existing, w) =>
      if existing.backend = l.backend.id then (.ok existing, w)
      else (.error (.otherBackend existing.backend l.backend.id), w)
    | (none, w) => create w cfg.range l

/-! ### What the operations return -/

section

variable {w : World} {range : DisplayRange} {user : String} {l : Login}

theorem desktopIsLive_of {rec : SessionRecord} {c : ℕ} (hs : w.served rec.display = some c)
    (hc : w.cookies rec.xauthority rec.display = some c) : desktopIsLive w rec = true := by
  unfold desktopIsLive
  simp [hs, hc]

theorem allocate_some {d : ℕ} (h : allocate w range = some d) :
    d ∈ range.numbers ∧ w.held d = false ∧ w.served d = none := by
  unfold allocate at h
  have hp := List.find?_some h
  simp only [Bool.and_eq_true, Bool.not_eq_true', Option.isNone_iff_eq_none] at hp
  exact ⟨List.mem_of_find?_eq_some h, hp.1, hp.2⟩

theorem attachLive_none {w' : World} (h : attachLive w user range = (none, w'))
    (hdisp : ∀ d rec, w.records d = some rec → rec.display = d)
    (huniq : ∀ d d' rec rec', w.records d = some rec → w.records d' = some rec' →
      rec.user = rec'.user → d = d') :
    (w' = w ∨ ∃ d, w' = forget w d) ∧
      ∀ d ∈ range.numbers, ∀ rec, w'.records d = some rec → rec.user ≠ user := by
  unfold attachLive at h
  cases hf : find w.records user range with
  | none =>
    simp only [hf, Prod.mk.injEq, true_and] at h
    subst h
    exact ⟨Or.inl rfl, find_eq_none.1 hf⟩
  | some found =>
    simp only [hf] at h
    split_ifs at h with hl
    · simp at h
    · simp only [Prod.mk.injEq, true_and] at h
      subst h
      refine ⟨Or.inr ⟨_, rfl⟩, fun d _ rec hr hu => ?_⟩
      obtain ⟨hfu, d₀, -, hd₀⟩ := mem_of_find hf
      obtain ⟨hne, hr⟩ := forgetRecord_some hr
      -- the dropped record was the account's only one
      have := huniq d d₀ rec found hr hd₀ (hu.trans hfu.symm)
      exact hne (this.trans (hdisp d₀ found hd₀).symm)

theorem waitForRecord_ok {read : ℕ → Option SessionRecord} {rec : SessionRecord} (poll : ℕ)
    (hu : rec.user = user) (hread : ∀ t, poll ≤ t → read t = some rec) {polls t : ℕ}
    (hnone : ∀ t', t ≤ t' → t' < poll → read t' = none) (hle : t ≤ poll) (hlt : poll < t + polls) :
    waitForRecord read user polls t = .ok rec := by
  induction polls generalizing t with
  | zero => omega
  | succ polls ih =>
    unfold waitForRecord
    by_cases ht : t = poll
    · rw [hread t (by omega)]
      simp [hu]
    · rw [hnone t le_rfl (by omega)]
      exact ih (fun t' h h' => hnone t' (by omega) h') (by omega) (by omega)

@[simp] theorem recordOf_user (u : String) (d : ℕ) (k : KeeperRun) :
    (recordOf b u d k).user = u := by cases b <;> rfl

@[simp] theorem recordOf_display (u : String) (d : ℕ) (k : KeeperRun) :
    (recordOf b u d k).display = d := by cases b <;> rfl

@[simp] theorem recordOf_backend (u : String) (d : ℕ) (k : KeeperRun) :
    (recordOf b u d k).backend = b.id := by cases b <;> rfl

theorem create_snd (w : World) (range : DisplayRange) (l : Login) :
    (create w range l).2 = w ∨
      ∃ d, allocate w range = some d ∧ (create w range l).2 = keeperWorld w l d := by
  unfold create
  cases ha : allocate w range with
  | none => exact Or.inl rfl
  | some d =>
    refine Or.inr ⟨d, rfl, ?_⟩
    simp only
    split_ifs with h
    · rfl
    · split
      · rfl
      · split_ifs <;> rfl

/-- **A record published in time is returned**, provided the polls before it read nothing and the
desktop answers the probe. -/
theorem create_ok {d poll : ℕ} (ha : allocate w range = some d)
    (hf : l.keeper.fate = .published poll true) (hp : poll < l.polls)
    (hnone : poll = 0 ∨ w.records d = none)
    (hl : desktopIsLive (keeperWorld w l d) (recordOf l.backend l.user d l.keeper) = true) :
    (create w range l).1 = .ok (recordOf l.backend l.user d l.keeper) := by
  have hw : waitForRecord (readDuring w l d) l.user l.polls 0 =
      .ok (recordOf l.backend l.user d l.keeper) := by
    refine waitForRecord_ok poll (recordOf_user ..) (fun t ht => ?_) (fun t _ ht => ?_)
      (Nat.zero_le _) (by omega)
    · simp [readDuring, hf, Nat.not_lt.2 ht]
    · rcases hnone with h0 | hn
      · omega
      · simp [readDuring, hf, ht, hn]
  unfold create
  simp only [ha, hf, reduceCtorEq, if_false, hw, hl, if_true]

end

end Linrdp.Session.Attach
