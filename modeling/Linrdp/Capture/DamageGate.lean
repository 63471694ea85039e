import Linrdp.Capture.Grabber
import Linrdp.Lib.Runs

/-!
# Does every screen change reach a grab?

The grabber skips a poll when the DAMAGE gate says that nothing changed. The world is the X server
with its screen, the damage object and the events on their way: the object notifies once when its
region becomes non-empty, and subtracting empties the region. A grab that fails has already used up
the notification; `attempts_iff` says that no show is swallowed exactly if such a grab is
`Harmless`.
-/

namespace Linrdp.Capture.DamageGate

open List Option Lib.Runs Capture.TileDamage Capture.Grabber

structure Screen where
  frame : Frame
  sized : frame.data.length = frame.width * 4 * frame.height

def Screen.size (s : Screen) : ℕ × ℕ := (s.frame.width, s.frame.height)

structure Server where
  screen : Screen
  connected : Bool
  /-- the damage object, and whether its region is non-empty -/
  object : Option Bool
  queue : List XEvent

def Server.change (x : Server) (s : Screen) : Server :=
  if x.connected ∧ x.object = some false then
    { x with screen := s, object := some true, queue := x.queue ++ [.damageNotify] }
  else { x with screen := s }

def Server.change? (x : Server) : Option Screen → Server
  | none => x
  | some s => x.change s

def Server.subtract (x : Server) : Server := { x with object := x.object.map fun _ => false }

inductive ImageReply
  | ok | error
  | short

/-- How a poll goes, as far as the grabber does not decide it. -/
structure Plan where
  setup : Bool
  now : ℕ
  /-- a change between the gate and the subtraction -/
  beforeRearm : Option Screen
  driftGeometry : Option (ℕ × ℕ)
  randrResize : Bool
  /-- a change between the subtraction and the geometry query -/
  afterRearm : Option Screen
  /-- a change between the geometry query and the image -/
  race : Option Screen
  /-- what the image request gives when the screen no longer has the size asked for -/
  raced : Bytes
  (shmCreate shmImage : Bool)
  coreImage : ImageReply
  connect : Option Screen

section poll

variable (x : Server) (g : ScreenGrabber) (debtDue : Bool) (p : Plan)

def creates : Bool := !g.damageOk && !g.damage && x.connected && p.setup

def rearmScreen : Screen := p.beforeRearm.getD x.screen

def geometryScreen : Screen := p.afterRearm.getD (rearmScreen x p)

def imageScreen : Screen := p.race.getD (geometryScreen x p)

def imageBytes : Bytes :=
  if (imageScreen x p).size = (geometryScreen x p).size then (imageScreen x p).frame.data
  else p.raced

def coreReply : Option Bytes :=
  match p.coreImage with
  | .ok => some (imageBytes x p)
  | .error => none
  | .short => some (imageBytes x p).dropLast

/-- What the server answers. A dead connection answers nothing, and says so to the gate. -/
def answers : Answers where
  setup := x.connected && p.setup
  events := (x.queue ++ if creates x g p then [XEvent.damageNotify] else []).map .event ++
    if x.connected then [] else [.error]
  now := p.now
  driftGeometry := if x.connected then p.driftGeometry else none
  randrResize := x.connected && p.randrResize
  geometry := if x.connected then some (geometryScreen x p).size else none
  shmCreate := x.connected && p.shmCreate
  shmImage := if x.connected && p.shmImage then some fun i => (imageBytes x p).getD i 0 else none
  coreImage := if x.connected then coreReply x p else none
  connect := p.connect.map Screen.size

def gateServer : Server :=
  if g.forceGrab || debtDue then x
  else if creates x g p then { x with object := some true, queue := [] }
  else if g.damageOk then { x with queue := [] }
  else x

def pollServer : Server :=
  if (gate g debtDue (answers x g p)).1 then
    (((gateServer x g debtDue p).change? p.beforeRearm).subtract.change? p.afterRearm).change?
      p.race
  else gateServer x g debtDue p

end poll

structure State where
  g : ScreenGrabber
  server : Server
  last : Option Frame

def connectNew (s : Screen) (now : ℕ) : State :=
  ⟨ScreenGrabber.new s.frame.width s.frame.height now, ⟨s, true, none, []⟩, none⟩

inductive Input
  | change (s : Screen)
  | foreign | crash
  | setFixedSize (size : Option (ℕ × ℕ))
  | poll (debtDue : Bool) (p : Plan)

variable (s : State)

/-- The failure is one of those after which `poll` reconnects, and the server can be reached. -/
def reconnects (p : Plan) : Bool := (s.g.failures.record .failed).1.isSome && p.connect.isSome

def pollStep (debtDue : Bool) (p : Plan) : State :=
  let a := answers s.server s.g p
  let g := (poll s.g debtDue a).2
  let x := pollServer s.server s.g debtDue p
  match (pollInner s.g debtDue a).1 with
  | .idle => { s with g := g, server := x }
  | .frame grab => ⟨g, x, some grab.frame⟩
  | .failed =>
    match reconnects s p, p.connect with
    | true, some screen => ⟨g, ⟨screen, true, none, []⟩, none⟩
    | _, _ => { s with g := g, server := x }
  -- the grabber is lost with its task, and the display makes a new one
  | .panicked => connectNew x.screen p.now

def step : Input → State
  | .change screen => { s with server := s.server.change screen }
  | .foreign => { s with server := { s.server with queue := s.server.queue ++ [.other] } }
  | .crash => { s with server := { s.server with connected := false } }
  | .setFixedSize size => { s with g := setFixedSize s.g size }
  | .poll debtDue p => pollStep s debtDue p

/-- The screen is not what was last returned, or nothing was returned on this connection. -/
def Behind : Prop := s.last ≠ some s.server.screen.frame

instance (s : State) : Decidable (Behind s) := inferInstanceAs (Decidable (_ ≠ _))

/-- **The next poll grabs**, whatever the screen does until then. -/
def Attempts : Prop :=
  Behind s → ∀ (changes : List Screen) (debtDue : Bool) (p : Plan),
    let s' := run step s (changes.map Input.change)
    (pollInner s'.g debtDue (answers s'.server s'.g p)).1 ≠ .idle

/-- A failing grab that swallows nothing: the connection is dead, DAMAGE is not in use, a
notification is still on its way when the region is emptied, the poll reconnects, the screen was
returned already at that moment, or the screen changes once more after it. -/
def Harmless (debtDue : Bool) (p : Plan) : Prop :=
  s.server.connected = false ∨
    (gate s.g debtDue (answers s.server s.g p)).2.damage = false ∨
    .damageNotify ∈ ((gateServer s.server s.g debtDue p).change? p.beforeRearm).queue ∨
    reconnects s p ∨
    s.last = some (rearmScreen s.server p).frame ∨
    p.afterRearm.isSome ∨ p.race.isSome

def Sound : Input → Prop
  | .poll debtDue p =>
    (acquire s.g debtDue (answers s.server s.g p)).1 = .failed → Harmless s debtDue p
  | _ => True

/-! ### The gate -/

theorem drain_iff (b : Bool) (rs : List XReply) :
    drain b rs = true ↔ b = true ∨ .event .damageNotify ∈ rs ∨ .error ∈ rs := by
  induction rs generalizing b with
  | nil => simp [drain]
  | cons reply rs ih =>
    rcases reply with e | _
    · rw [drain, ih]
      rcases e with _ | _ <;> simp
    · simp [drain]

structure Inv (s : State) : Prop where
  ok : s.g.damageOk = s.g.damage
  object : s.server.connected = true → s.server.object.isSome = s.g.damage
  notified : s.server.connected = true → s.server.object = some true →
    .damageNotify ∈ s.server.queue

def Covered : Prop :=
  s.g.forceGrab = true ∨ s.g.damage = false ∨ s.server.connected = false ∨
    .damageNotify ∈ s.server.queue

abbrev gated (debtDue : Bool) (p : Plan) : Bool × ScreenGrabber :=
    gate s.g debtDue (answers s.server s.g p)

variable {s : State}

theorem gate_iff (hs : Inv s) (debtDue : Bool) (p : Plan) :
    (gated s debtDue p).1 = true ↔ debtDue = true ∨ Covered s := by
  have hok := hs.ok
  rw [gated, gate, Covered]
  split_ifs with hforce
  · rw [Bool.or_eq_true] at hforce
    tauto
  · rw [Bool.or_eq_true, not_or, Bool.not_eq_true, Bool.not_eq_true] at hforce
    rcases hdamage : s.g.damage <;> rcases hconn : s.server.connected <;>
      rcases hsetup : p.setup <;>
      simp [damagePending, answers, creates, drain_iff, hok, hdamage, hconn, hsetup, hforce]

theorem not_covered {debtDue : Bool} {p : Plan} (hs : Inv s)
    (hgo : (gated s debtDue p).1 = false) : ¬ Covered s := by
  intro hcov
  rw [(gate_iff hs debtDue p).2 (.inr hcov)] at hgo
  simp at hgo

theorem gate_snd_fields (g : ScreenGrabber) (debtDue : Bool) (x : Server) (p : Plan)
    (hok : g.damageOk = g.damage) :
    let g' := (gate g debtDue (answers x g p)).2
    g'.forceGrab = false ∧ g'.damageOk = g'.damage ∧ g'.failures = g.failures ∧
      g'.damage = (g.damage || !(g.forceGrab || debtDue) && creates x g p) := by
  unfold gate
  split_ifs with hforce
  · exact ⟨rfl, hok, rfl, by simp [hforce]⟩
  · rcases hdamage : g.damage <;> rcases hconn : x.connected <;> rcases hsetup : p.setup <;>
      simp [damagePending, answers, creates, hok, hdamage, hconn, hsetup, hforce]

/-- What a grab leaves as the gate left it. -/
def gateView (g : ScreenGrabber) : Bool × Bool × Bool × GrabFailures :=
  (g.damage, g.damageOk, g.forceGrab, g.failures)

variable {g : ScreenGrabber}

section

variable (g : ScreenGrabber) (a : Answers)

theorem gateView_enforceFixedSize : gateView (enforceFixedSize g a) = gateView g := by
  unfold enforceFixedSize
  split
  · rfl
  · split_ifs <;> rfl

theorem gateView_prepareShm (want : ℕ) : gateView (prepareShm g a want) = gateView g := by
  rw [prepareShm]
  split_ifs <;> rfl

theorem gateView_readImage : gateView (readImage g a).2 = gateView g := by
  unfold readImage
  split <;> rfl

theorem gateView_grab : gateView (grab g a).2 = gateView g := by
  rw [grab, gateView_readImage, gateView_prepareShm, gateView_enforceFixedSize]

end

variable (r : Option Frame × ScreenGrabber)

theorem gateView_adopt : gateView (adopt r).2 = gateView r.2 := by
  unfold adopt
  split
  · rfl
  · split_ifs <;> rfl

theorem gateView_pollInner (g : ScreenGrabber) (debtDue : Bool) (a : Answers) :
    gateView (pollInner g debtDue a).2 = gateView (gate g debtDue a).2 := by
  have hacquire : gateView (acquire g debtDue a).2 = gateView (gate g debtDue a).2 := by
    rw [acquire]
    split_ifs
    · rw [gateView_adopt, gateView_grab]
    · rfl
  unfold pollInner
  split <;> rename_i hacq <;> rw [← hacquire, hacq]
  unfold compareWithPrev
  split
  · rfl
  · split_ifs <;> rfl

theorem adopt_ne_idle : (adopt r).1 ≠ .idle := by
  unfold adopt
  split
  · simp
  · split_ifs <;> simp

theorem pollInner_idle_iff (g : ScreenGrabber) (debtDue : Bool) (a : Answers) :
    (pollInner g debtDue a).1 = .idle ↔ (gate g debtDue a).1 = false := by
  rw [pollInner, acquire]
  split_ifs with hgo
  · have hne := adopt_ne_idle (grab (gate g debtDue a).2 a)
    rcases hadopt : adopt (grab (gate g debtDue a).2 a) with ⟨got, g'⟩
    rw [hadopt] at hne
    rcases got with _ | _ | f
    · simp at hne
    · simp [hgo]
    · dsimp only
      unfold compareWithPrev
      split <;> simp [hgo]
  · simp [hgo]

/-! ### The image -/

variable {a : Answers}

theorem prepareShm_shm {want size : ℕ}
    (h : (prepareShm g a want).shm = some size) : size = want := by
  rcases hshm : g.shm with _ | old
  · simp only [prepareShm, hshm] at h
    split_ifs at h <;> simp_all
  · by_cases hold : old = want
    · simp only [prepareShm, hshm, hold] at h
      split_ifs at h <;> simp_all
    · simp only [prepareShm, hshm] at h
      split_ifs at h <;> simp_all

theorem map_range_getD (xs : Bytes) : ((List.range xs.length).map fun i => xs.getD i 0) = xs := by
  refine ext_getElem (by simp) fun i h1 h2 => ?_
  rw [getElem_map, getElem_range, getD_eq_getElem?_getD, getElem?_eq_getElem h2, getD_some]

theorem readImage_some {data : Bytes} (h : (readImage g a).1 = some data) :
    (∃ size segment, g.shm = some size ∧ a.shmImage = some segment ∧
      data = (List.range size).map segment) ∨ a.coreImage = some data := by
  unfold readImage at h
  split at h
  · rename_i size segment hshm himage
    exact .inl ⟨size, segment, hshm, himage, (some.inj h).symm⟩
  · exact .inr h
  · exact .inr h

theorem dropLast_eq_of_length {xs : Bytes} (h : xs.dropLast.length = xs.length) :
    xs.dropLast = xs := by
  rw [length_dropLast] at h
  have hnil : xs = [] := length_eq_zero_iff.1 (by omega)
  rw [hnil, dropLast_nil]

variable {debtDue : Bool}

theorem grab_of_acquire {f : Frame} (h : (acquire g debtDue a).1 = .frame f) :
    ∃ g', (grab g' a).1 = some f ∧ f.data.length = f.width * 4 * f.height := by
  have hadopt : ∃ g', (adopt (grab g' a)).1 = .frame f := by
    rw [acquire] at h
    split_ifs at h
    exact ⟨_, h⟩
  obtain ⟨g', hadopt⟩ := hadopt
  refine ⟨g', ?_⟩
  unfold adopt at hadopt
  rcases hgrab : (grab g' a).1 with _ | f'
  · simp [hgrab] at hadopt
  · rw [hgrab] at hadopt
    dsimp only at hadopt
    split_ifs at hadopt with hlen
    all_goals
      obtain rfl := Acquired.frame.inj hadopt
      exact ⟨rfl, not_not.1 hlen⟩

variable {x : Server} {p : Plan}

theorem screens_of_still (hafter : p.afterRearm = none) (hrace : p.race = none) :
    geometryScreen x p = rearmScreen x p ∧ imageScreen x p = rearmScreen x p := by
  rw [imageScreen, geometryScreen, hafter, hrace]
  exact ⟨rfl, rfl⟩

theorem frame_of_acquire {f : Frame} (h : (acquire g debtDue (answers x g p)).1 = .frame f) :
    x.connected = true ∧
      (p.afterRearm = none → p.race = none → f = (rearmScreen x p).frame) := by
  obtain ⟨g', hgrab, hlen⟩ := grab_of_acquire h
  obtain ⟨data, hdata, hf⟩ := map_eq_some_iff.1 hgrab
  have hread := readImage_some hdata
  have hconn : x.connected = true := by
    by_contra hconn
    simp [answers, hconn] at hread
  refine ⟨hconn, fun hafter hrace => ?_⟩
  obtain ⟨hgeo, himage⟩ := screens_of_still hafter hrace
  have hbytes : imageBytes x p = (rearmScreen x p).frame.data := by
    rw [imageBytes, himage, hgeo, if_pos rfl]
  have hsize : currentGeometry (enforceFixedSize g' (answers x g p)) (answers x g p).geometry =
      (rearmScreen x p).size := by
    simp [currentGeometry, answers, hconn, hgeo]
  rw [hsize] at hread hf
  have hsized := (rearmScreen x p).sized
  have hdeq : data = (rearmScreen x p).frame.data := by
    obtain ⟨size, segment, hshm, himage, hmap⟩ | hcore := hread
    · -- through the segment, which has the size of the image
      have hwant : size = (rearmScreen x p).frame.data.length := by
        rw [prepareShm_shm hshm, hsized, Nat.mul_right_comm]
        rfl
      simp only [answers, hconn, Bool.true_and, hbytes] at himage
      split_ifs at himage
      rw [hmap, ← some.inj himage, hwant]
      exact map_range_getD _
    · have hdlen : data.length = (rearmScreen x p).frame.data.length := by
        rw [← hf] at hlen
        exact hlen.trans hsized.symm
      simp only [answers, hconn, if_true, coreReply, hbytes] at hcore
      split at hcore
      · exact (some.inj hcore).symm
      · simp at hcore
      · rw [← some.inj hcore] at hdlen ⊢
        exact dropLast_eq_of_length hdlen
  rw [← hf, hdeq]
  rfl

/-! ### The server during a poll -/

theorem change?_fields (x : Server) (s : Option Screen) :
    (x.change? s).connected = x.connected ∧ (x.change? s).screen = s.getD x.screen ∧
      (x.change? s).object.isSome = x.object.isSome := by
  rcases s with _ | s
  · exact ⟨rfl, rfl, rfl⟩
  · rw [Server.change?, Server.change]
    split_ifs with h
    · exact ⟨rfl, rfl, by rw [h.2]; rfl⟩
    · exact ⟨rfl, rfl, rfl⟩

theorem rearmed_object (hconn : x.connected = true) (hobj : x.object.isSome = true)
    (s t : Option Screen) :
    ((x.subtract.change? s).change? t).object = some (s.isSome || t.isSome) ∧
      (XEvent.damageNotify ∈ ((x.subtract.change? s).change? t).queue ↔
        .damageNotify ∈ x.queue ∨ s.isSome ∨ t.isSome) := by
  obtain ⟨b, hb⟩ := isSome_iff_exists.1 hobj
  rcases s with _ | s <;> rcases t with _ | t <;>
    simp [Server.subtract, Server.change?, Server.change, hconn, hb]

theorem gateServer_fields (x : Server) (g : ScreenGrabber) (debtDue : Bool) (p : Plan) :
    (gateServer x g debtDue p).connected = x.connected ∧
    (gateServer x g debtDue p).screen = x.screen := by
  unfold gateServer
  split_ifs <;> exact ⟨rfl, rfl⟩

theorem gateServer_object (hs : Inv s) (debtDue : Bool) (p : Plan)
    (hconn : s.server.connected = true) :
    (gateServer s.server s.g debtDue p).object.isSome =
      (gated s debtDue p).2.damage := by
  have hobj := hs.object hconn
  rw [(gate_snd_fields s.g debtDue s.server p hs.ok).2.2.2, gateServer]
  split_ifs with hforce hcreate
  · simp [hforce, hobj]
  · simp [hforce, hcreate]
  all_goals simp [hforce, hcreate, hobj]

theorem pollServer_connected (x : Server) (g : ScreenGrabber) (debtDue : Bool) (p : Plan) :
    (pollServer x g debtDue p).connected = x.connected := by
  unfold pollServer
  split_ifs
  · rw [(change?_fields _ _).1, (change?_fields _ _).1]
    exact (change?_fields _ _).1.trans (gateServer_fields x g debtDue p).1
  · exact (gateServer_fields x g debtDue p).1

theorem pollServer_screen (hgo : (gate g debtDue (answers x g p)).1 = true) :
    (pollServer x g debtDue p).screen = imageScreen x p := by
  rw [pollServer, if_pos hgo, (change?_fields _ _).2.1, (change?_fields _ _).2.1, imageScreen,
    geometryScreen, rearmScreen, ← (gateServer_fields x g debtDue p).2]
  exact congrArg (fun y => p.race.getD (p.afterRearm.getD y)) (change?_fields _ p.beforeRearm).2.1

theorem pollServer_rearmed (hs : Inv s) (hgo : (gated s debtDue p).1 = true)
    (hconn : s.server.connected = true)
    (hdamage : (gated s debtDue p).2.damage = true) :
    (pollServer s.server s.g debtDue p).object = some (p.afterRearm.isSome || p.race.isSome) ∧
      (XEvent.damageNotify ∈ (pollServer s.server s.g debtDue p).queue ↔
        .damageNotify ∈ ((gateServer s.server s.g debtDue p).change? p.beforeRearm).queue ∨
          p.afterRearm.isSome ∨ p.race.isSome) := by
  rw [pollServer, if_pos hgo]
  refine rearmed_object ?_ ?_ _ _
  · rw [(change?_fields _ _).1, (gateServer_fields _ _ _ _).1, hconn]
  · rw [(change?_fields _ _).2.2, gateServer_object hs debtDue p hconn, hdamage]

theorem pollServer_object_isSome (hs : Inv s) (debtDue : Bool) (p : Plan)
    (hconn : s.server.connected = true) :
    (pollServer s.server s.g debtDue p).object.isSome =
      (gated s debtDue p).2.damage := by
  rw [← gateServer_object hs debtDue p hconn, pollServer]
  split_ifs
  · rw [(change?_fields _ _).2.2, (change?_fields _ _).2.2]
    simp only [Server.subtract, isSome_map]
    exact (change?_fields _ _).2.2
  · rfl

/-! ### One poll -/

structure Kept (s : State) (debtDue : Bool) (p : Plan) (s' : State) : Prop where
  server : s'.server = pollServer s.server s.g debtDue p
  damage : s'.g.damage = (gate s.g debtDue (answers s.server s.g p)).2.damage
  ok : s'.g.damageOk = s'.g.damage
  force : s'.g.forceGrab = false

structure Fresh (s' : State) : Prop where
  force : s'.g.forceGrab = true
  damage : s'.g.damage = false
  ok : s'.g.damageOk = false
  object : s'.server.object = none

theorem pollInner_cases (g : ScreenGrabber) (debtDue : Bool) (a : Answers) :
    (pollInner g debtDue a).1 = .idle ∨
      ((acquire g debtDue a).1 = .failed ∧ (pollInner g debtDue a).1 = .failed) ∨
      ∃ f, (acquire g debtDue a).1 = .frame f ∧
        ((pollInner g debtDue a).1 = .panicked ∨
          ∃ grab, (pollInner g debtDue a).1 = .frame grab ∧ grab.frame = f) := by
  unfold pollInner
  rcases acquire g debtDue a with ⟨got, g'⟩
  rcases got with _ | _ | f
  · exact .inl rfl
  · exact .inr (.inl ⟨rfl, rfl⟩)
  · refine .inr (.inr ⟨f, rfl, ?_⟩)
    dsimp only
    unfold compareWithPrev
    split
    · exact .inl rfl
    · exact .inr ⟨_, rfl, rfl⟩

theorem settle_failed (h : ((g.failures.record .failed).1.isSome && a.connect.isSome) = false) :
    ∃ failures, settle g a .failed = { g with failures := failures } := by
  rw [settle]
  split_ifs with hdue
  · rw [hdue, Bool.true_and, isSome_eq_false_iff, isNone_iff_eq_none] at h
    exact ⟨_, by rw [reconnect, h]⟩
  · exact ⟨_, rfl⟩

theorem settle_reconnects (h : ((g.failures.record .failed).1.isSome && a.connect.isSome) = true) :
    (settle g a .failed).forceGrab = true ∧ (settle g a .failed).damage = false ∧
      (settle g a .failed).damageOk = false := by
  rw [Bool.and_eq_true, isSome_iff_exists (x := a.connect)] at h
  obtain ⟨hdue, size, hsize⟩ := h
  rw [settle, if_pos hdue, reconnect, hsize]
  exact ⟨rfl, rfl, rfl⟩

/-- **All a poll can do.** -/
theorem pollStep_cases (hs : Inv s) (debtDue : Bool) (p : Plan) :
    (Kept s debtDue p (pollStep s debtDue p) ∧
      (((gated s debtDue p).1 = false ∧
          (pollStep s debtDue p).last = s.last) ∨
        (gated s debtDue p).1 = true ∧
          ((∃ f, (acquire s.g debtDue (answers s.server s.g p)).1 = .frame f ∧
              (pollStep s debtDue p).last = some f) ∨
            (acquire s.g debtDue (answers s.server s.g p)).1 = .failed ∧
              reconnects s p = false ∧ (pollStep s debtDue p).last = s.last))) ∨
      Fresh (pollStep s debtDue p) ∧
        ((acquire s.g debtDue (answers s.server s.g p)).1 = .failed → reconnects s p = true) := by
  have hgate := gate_snd_fields s.g debtDue s.server p hs.ok
  have hsame := gateView_pollInner s.g debtDue (answers s.server s.g p)
  have hidle := pollInner_idle_iff s.g debtDue (answers s.server s.g p)
  have hcases := pollInner_cases s.g debtDue (answers s.server s.g p)
  rw [pollStep, poll]
  rcases hout : pollInner s.g debtDue (answers s.server s.g p) with ⟨out, g'⟩
  rw [hout] at hsame hidle hcases
  have hgo : out ≠ .idle → (gated s debtDue p).1 = true := by
    rw [Ne, hidle, Bool.not_eq_false]
    exact id
  obtain ⟨hforce, hok, hfail, -⟩ := hgate
  obtain ⟨hd, ho, hf, hn⟩ := by simpa only [gateView, Prod.mk.injEq] using hsame
  have hg' : g'.damage = (gated s debtDue p).2.damage ∧
      g'.damageOk = g'.damage ∧ g'.forceGrab = false ∧ g'.failures = s.g.failures :=
    ⟨hd, ho.trans (hok.trans hd.symm), hf.trans hforce, hn.trans hfail⟩
  obtain rfl | ⟨hacq, rfl⟩ | ⟨f, hacq, rfl | ⟨grab, rfl, rfl⟩⟩ := hcases
  · exact .inl ⟨⟨rfl, hg'.1, hg'.2.1, hg'.2.2.1⟩, .inl ⟨hidle.1 rfl, rfl⟩⟩
  · -- a failed grab: the grabber after it depends on whether it reconnects
    have hrec : ((g'.failures.record .failed).1.isSome &&
        (answers s.server s.g p).connect.isSome) = reconnects s p := by
      rw [hg'.2.2.2, reconnects, answers, isSome_map]
    rcases hr : reconnects s p with _ | _
    · obtain ⟨failures, hset⟩ := settle_failed (hrec.trans hr)
      dsimp only
      rw [hset]
      exact .inl ⟨⟨rfl, hg'.1, hg'.2.1, hg'.2.2.1⟩, .inr ⟨hgo (by simp), .inr ⟨hacq, rfl, rfl⟩⟩⟩
    · obtain ⟨h1, h2, h3⟩ := settle_reconnects (hrec.trans hr)
      rw [reconnects, Bool.and_eq_true, isSome_iff_exists (x := p.connect)] at hr
      obtain ⟨-, screen, hscreen⟩ := hr
      rw [hscreen]
      exact .inr ⟨⟨h1, h2, h3, rfl⟩, fun _ => rfl⟩
  · refine .inr ⟨⟨rfl, rfl, rfl, rfl⟩, fun h => ?_⟩
    rw [hacq] at h
    simp at h
  · exact .inl ⟨⟨rfl, hg'.1, hg'.2.1, hg'.2.2.1⟩, .inr ⟨hgo (by simp), .inl ⟨_, hacq, rfl⟩⟩⟩

/-! ### What holds between two polls -/

theorem Fresh.inv (h : Fresh s) : Inv s where
  ok := h.ok.trans h.damage.symm
  object _ := by rw [h.object, h.damage]; rfl
  notified _ hobj := by simp [h.object] at hobj

theorem inv_connectNew (screen : Screen) (now : ℕ) : Inv (connectNew screen now) :=
  Fresh.inv ⟨rfl, rfl, rfl, rfl⟩

theorem inv_change (hs : Inv s) (screen : Screen) :
    Inv { s with server := s.server.change screen } := by
  obtain ⟨hconn, -, hobj⟩ := change?_fields s.server (some screen)
  simp only [Server.change?] at hconn hobj
  refine ⟨hs.ok, fun h => ?_, fun h => ?_⟩
  · rw [hobj]
    exact hs.object (hconn ▸ h)
  · rw [hconn] at h
    unfold Server.change
    split_ifs
    · simp
    · exact hs.notified h

theorem inv_pollStep (hs : Inv s) (debtDue : Bool) (p : Plan) : Inv (pollStep s debtDue p) := by
  obtain ⟨hkept, hcases⟩ | ⟨hfresh, -⟩ := pollStep_cases hs debtDue p
  · refine ⟨hkept.ok, fun h => ?_, fun h hobj => ?_⟩
    · rw [hkept.server, pollServer_connected] at h
      rw [hkept.server, hkept.damage, pollServer_object_isSome hs debtDue p h]
    · rw [hkept.server] at h hobj ⊢
      rw [pollServer_connected] at h
      have hdamage : (gated s debtDue p).2.damage = true := by
        rw [← pollServer_object_isSome hs debtDue p h, hobj]
        rfl
      obtain ⟨hgo, -⟩ | ⟨hgo, -⟩ := hcases
      · -- the gate read the queue and found no notification, so the region is empty
        have hcov := not_covered hs hgo
        rw [Covered, not_or, not_or, not_or] at hcov
        have hgs : (gateServer s.server s.g debtDue p).object = s.server.object := by
          unfold gateServer
          have hcr : ¬ creates s.server s.g p = true := by simp [creates, hs.ok, hcov.2.1]
          split_ifs <;> rfl
        rw [pollServer, if_neg (by rw [hgo]; simp), hgs] at hobj
        exact absurd (hs.notified h hobj) hcov.2.2.2
      · obtain ⟨hob, hq⟩ := pollServer_rearmed hs hgo h hdamage
        rw [hob] at hobj
        rw [hq]
        exact .inr (by simpa using hobj)
  · exact hfresh.inv

theorem inv_step (hs : Inv s) (i : Input) : Inv (step s i) := by
  rcases i with screen | _ | _ | size | ⟨debtDue, p⟩
  · exact inv_change hs screen
  · exact ⟨hs.ok, hs.object, fun h hobj => mem_append_left _ (hs.notified h hobj)⟩
  · exact ⟨hs.ok, by simp [step], by simp [step]⟩
  · exact { hs with }
  · exact inv_pollStep hs debtDue p

theorem covered_change (hs : Inv s) (screen : Screen) :
    Covered { s with server := s.server.change screen } := by
  by_cases hlive : s.server.connected = true ∧ s.g.damage = true
  · obtain ⟨hconn, hdamage⟩ := hlive
    have hobj := hs.object hconn
    rw [hdamage] at hobj
    obtain ⟨b, hb⟩ := isSome_iff_exists.1 hobj
    refine .inr (.inr (.inr ?_))
    unfold Server.change
    rcases b with _ | _
    · rw [if_pos ⟨hconn, hb⟩]
      simp
    · rw [if_neg (by simp [hb])]
      exact hs.notified hconn hb
  · have hconn := (change?_fields s.server (some screen)).1
    rw [not_and_or, Bool.not_eq_true, Bool.not_eq_true] at hlive
    rcases hlive with h | h
    · exact .inr (.inr (.inl (hconn.trans h)))
    · exact .inr (.inl h)

theorem Kept.covered_iff {s' : State} (hs : Inv s) (hkept : Kept s debtDue p s')
    (hgo : (gated s debtDue p).1 = true) :
    Covered s' ↔ s.server.connected = false ∨
      (gated s debtDue p).2.damage = false ∨
      .damageNotify ∈ ((gateServer s.server s.g debtDue p).change? p.beforeRearm).queue ∨
      p.afterRearm.isSome ∨ p.race.isSome := by
  rw [Covered, hkept.force, hkept.damage, hkept.server, pollServer_connected]
  rcases hconn : s.server.connected with _ | _
  · simp
  · rcases hdamage : (gated s debtDue p).2.damage with _ | _
    · simp
    · simp [(pollServer_rearmed hs hgo hconn hdamage).2]

theorem covered_pollStep (hs : Inv s) (hcov : Behind s → Covered s)
    (hsound : Sound s (.poll debtDue p)) : Behind (pollStep s debtDue p) →
    Covered (pollStep s debtDue p) := by
  obtain ⟨hkept, hcases⟩ | ⟨hfresh, -⟩ := pollStep_cases hs debtDue p
  · intro hbehind
    obtain ⟨hgo, hlast⟩ | ⟨hgo, hcases⟩ := hcases
    · -- skipped: the screen is the one it was, and it was not behind
      refine absurd (hcov fun heq => hbehind ?_) (not_covered hs hgo)
      rw [hlast, hkept.server, pollServer, if_neg (by rw [hgo]; simp),
        (gateServer_fields _ _ _ _).2]
      exact heq
    · rw [hkept.covered_iff hs hgo]
      by_contra hno
      simp only [not_or, Bool.not_eq_true, isSome_eq_false_iff, isNone_iff_eq_none] at hno
      obtain ⟨hconn, hdamage, hqueue, hafter, hrace⟩ := hno
      refine hbehind ?_
      rw [hkept.server, pollServer_screen hgo, (screens_of_still hafter hrace).2]
      obtain ⟨f, hacq, hlast⟩ | ⟨hacq, hrec, hlast⟩ := hcases
      · rw [hlast, (frame_of_acquire hacq).2 hafter hrace]
      · rw [hlast]
        have hharm := hsound hacq
        rw [Harmless, hafter, hrace, hrec] at hharm
        simpa [hconn, hdamage, hqueue] using hharm
  · intro _
    exact .inl hfresh.force

theorem lost_pollStep (hs : Inv s) (hlost : ¬ Sound s (.poll debtDue p)) :
    Behind (pollStep s debtDue p) ∧ ¬ Covered (pollStep s debtDue p) := by
  rw [Sound, Classical.not_imp, Harmless] at hlost
  obtain ⟨hacq, hharm⟩ := hlost
  simp only [not_or] at hharm
  obtain ⟨hconn, hdamage, hqueue, hrec, hlast, hafter, hrace⟩ := hharm
  obtain ⟨hkept, hcases⟩ | ⟨-, hfresh⟩ := pollStep_cases hs debtDue p
  · obtain ⟨hgo, -⟩ | ⟨hgo, ⟨f, hframe, -⟩ | ⟨-, -, hsame⟩⟩ := hcases
    · rw [acquire, hgo] at hacq
      simp at hacq
    · rw [hacq] at hframe
      simp at hframe
    · refine ⟨?_, ?_⟩
      · rw [Behind, hsame, hkept.server, pollServer_screen hgo,
          (screens_of_still (by simpa using hafter) (by simpa using hrace)).2]
        exact hlast
      · rw [hkept.covered_iff hs hgo]
        simp only [not_or]
        exact ⟨hconn, hdamage, hqueue, hafter, hrace⟩
  · exact absurd (hfresh hacq) hrec

/-! ### Runs -/

def Watched (s : State) : Prop := Behind s → Covered s

theorem sound_iff (hs : Inv s) (hwatched : Watched s) (i : Input) :
    Sound s i ↔ Watched (step s i) := by
  rcases i with screen | _ | _ | size | ⟨debtDue, p⟩
  · exact ⟨fun _ _ => covered_change hs screen, fun _ => trivial⟩
  · refine ⟨fun _ hbehind => ?_, fun _ => trivial⟩
    rcases hwatched hbehind with h | h | h | h
    · exact .inl h
    · exact .inr (.inl h)
    · exact .inr (.inr (.inl h))
    · exact .inr (.inr (.inr (mem_append_left _ h)))
  · exact ⟨fun _ _ => .inr (.inr (.inl rfl)), fun _ => trivial⟩
  · exact ⟨fun _ => hwatched, fun _ => trivial⟩
  · refine ⟨fun h => covered_pollStep hs hwatched h, fun h => ?_⟩
    by_contra hlost
    obtain ⟨hbehind, hcov⟩ := lost_pollStep hs hlost
    exact hcov (h hbehind)

theorem covered_changes (changes : List Screen) (hs : Inv s) (hcov : Covered s) :
    Inv (run step s (changes.map .change)) ∧ Covered (run step s (changes.map .change)) := by
  induction changes generalizing s with
  | nil => exact ⟨hs, hcov⟩
  | cons screen changes ih => exact ih (inv_change hs screen) (covered_change hs screen)

def Plan.quiet : Plan := ⟨false, 0, none, none, false, none, none, [], false, false, .error, none⟩

theorem attempts_iff_covered (hs : Inv s) : Attempts s ↔ Watched s := by
  constructor
  · intro h hbehind
    have hpoll : (pollInner s.g false (answers s.server s.g Plan.quiet)).1 ≠ .idle :=
      h hbehind [] false Plan.quiet
    rw [Ne, pollInner_idle_iff, Bool.not_eq_false, gate_iff hs] at hpoll
    simpa using hpoll
  · intro h hbehind changes debtDue p
    obtain ⟨hinv, hcov⟩ := covered_changes changes hs (h hbehind)
    rw [Ne, pollInner_idle_iff, Bool.not_eq_false, gate_iff hinv]
    exact .inr hcov

/-- **No change is swallowed in exactly the runs whose failing grabs are harmless.** -/
theorem attempts_iff (screen : Screen) (now : ℕ) (is : List Input) :
    (∀ pre, pre <+: is → Attempts (run step (connectNew screen now) pre)) ↔
      Along step Sound (connectNew screen now) is := by
  have hinv := inv_connectNew screen now
  rw [along_iff_run (G := Watched) (fun s i hs _ => inv_step hs i)
    (fun s i hs hw => sound_iff hs hw i) hinv fun _ => .inl rfl]
  refine forall₂_congr fun pre _ => attempts_iff_covered ?_
  exact run_inv (I := Inv) (fun s i hs => inv_step hs i) hinv pre

def Plan.core (reply : ImageReply) : Plan := { Plan.quiet with setup := true, coreImage := reply }

def black : Screen := ⟨⟨1, 1, [0, 0, 0, 0]⟩, rfl⟩

def white : Screen := ⟨⟨1, 1, [255, 255, 255, 0]⟩, rfl⟩

/-- Two good grabs, a change of the screen, and one image request that errors: the screen stays
black at the client, and the next poll reports it idle. -/
theorem failed_grab_swallows_change :
    ¬ ∀ pre, pre <+: [Input.poll false (.core .ok), .poll false (.core .ok), .change white,
        .poll false (.core .error)] →
      Attempts (run step (connectNew black 0) pre) := by
  intro h
  exact h _ (prefix_refl _) (by decide) [] false Plan.quiet (by decide)

end Linrdp.Capture.DamageGate
