import Mathlib.Order.Basic
import Linrdp.Lib.Runs

/-!
# The session gate

`gate.rs`: which display a worker may touch and whose session it acts for. The rule of `bind_into`
compares the kind and the display of the old and the new binding, and not the user. `bindings_iff`:
the binding moves at most once, from the logon screen to a desktop, and stays with its user and its
display from then on, exactly when no call names the bound desktop for another user (`SameUser`).
`noEffect_iff` is about the environment, which is written before the rule is asked.
-/

namespace Linrdp.Session.Gate

open Option Lib.Runs

inductive Binding
  | greeter | session | compositor
deriving DecidableEq

def Binding.debug : Binding → String
  | .greeter => "Greeter"
  | .session => "Session"
  | .compositor => "Compositor"

structure AudioTarget where
  (server cookie runtimeDir : String)

def AudioTarget.new (runtimeDir home : String) : AudioTarget where
  server := "unix:" ++ runtimeDir ++ "/pulse/native"
  cookie := home ++ "/.config/pulse/cookie"
  runtimeDir := runtimeDir

def AudioTarget.micFifo (target : AudioTarget) : String := target.runtimeDir ++ "/linrdp/mic.fifo"

structure Bound where
  kind : Binding
  user : Option String
  (display xauthority : String)
  clientSize : UInt16 × UInt16
  audio : Option AudioTarget
  runtimeDir : String

structure Environment where
  (display xauthority xdgRuntimeDir pulseCookie : Option String)

structure Worker where
  armed : Bool
  bound : Option Bound
  generation : ℕ
  consoleUser : Option String
  env : Environment

/-! ### The three entry points -/

def bindInto (cell : Option Bound) (wanted : Bound) : Except String Bound :=
  match cell with
  | none => .ok wanted
  | some existing =>
    if existing.display = wanted.display ∧ existing.kind = wanted.kind then .ok wanted
    else if existing.kind = .greeter ∧ (wanted.kind = .session ∨ wanted.kind = .compositor) then .ok
      wanted
    else .error ("this worker is already bound to " ++ existing.display ++ " (" ++
      existing.kind.debug ++
      "); refusing to rebind to " ++ wanted.display ++ " (" ++ wanted.kind.debug ++ ")")

/-- `home` is the account's home directory, if there is such an account. -/
def audioFor (home : Option String) (runtimeDir : String) : Option AudioTarget :=
  home.map fun home => .new runtimeDir home

variable (env : Environment)

def Environment.withAudio (audio : Option AudioTarget) : Environment :=
  match audio with
  | some audio => { env with pulseCookie := some audio.cookie }
  | none => env

variable (w : Worker)

/-- The end of `bind_kind` and of `bind_compositor`: the environment is set before the decision. -/
def Worker.commit (env : Environment) (wanted : Bound) : Except String Unit × Worker :=
  match bindInto w.bound wanted with
  | .error e => (.error e, { w with env := env })
  | .ok bound => (.ok (), { w with env := env, bound := some bound, generation :=
      w.generation + 1 })

def bindKind (kind : Binding) (user : Option String) (display : UInt16)
    (xauthority runtimeDir : String) (clientSize : UInt16 × UInt16) (audio : Option AudioTarget) :
    Except String Unit × Worker :=
  let wanted : Bound := ⟨kind, user, ":" ++ toString display, xauthority, clientSize, audio,
    runtimeDir⟩
  let env := { w.env with
    display := some wanted.display
    xauthority := some xauthority
    xdgRuntimeDir := some runtimeDir }
  w.commit (env.withAudio audio) wanted

def bind (user : String) (display : UInt16) (xauthority runtimeDir : String)
    (clientSize : UInt16 × UInt16) (home : Option String) : Except String Unit × Worker :=
  bindKind w .session (some user) display xauthority runtimeDir clientSize
    (audioFor home runtimeDir)

def bindGreeter (display : UInt16) (xauthority runtimeDir : String)
    (clientSize : UInt16 × UInt16) : Except String Unit × Worker :=
  bindKind w .greeter none display xauthority runtimeDir clientSize none

def bindCompositor (desktop user runtimeDir : String) (clientSize : UInt16 × UInt16)
    (home : Option String) : Except String Unit × Worker :=
  let audio := audioFor home runtimeDir
  let wanted : Bound :=
    ⟨.compositor, some user, desktop ++ ":" ++ user, "", clientSize, audio, runtimeDir⟩
  let env := { w.env with display := none, xdgRuntimeDir := some runtimeDir }
  w.commit (env.withAudio audio) wanted

/-! ### The readers -/

def Worker.sessionUser : Option String := (w.bound.bind Bound.user).or w.consoleUser

def Worker.audioTarget : Option AudioTarget := if w.armed then w.bound.bind Bound.audio else none

def Worker.micFifo : Option String :=
  if w.armed then w.audioTarget.map AudioTarget.micFifo
  else w.env.xdgRuntimeDir.map fun dir => dir ++ "/linrdp/mic.fifo"

/-! ### The calls of a worker -/

inductive Call
  | bind (user : String) (display : UInt16) (xauthority runtimeDir : String)
      (clientSize : UInt16 × UInt16) (home : Option String)
  | bindGreeter (display : UInt16) (xauthority runtimeDir : String) (clientSize : UInt16 × UInt16)
  | bindCompositor (desktop user runtimeDir : String) (clientSize : UInt16 × UInt16)
      (home : Option String)

def call : Call → Except String Unit × Worker
  | .bind user display xauthority runtimeDir clientSize home =>
    bind w user display xauthority runtimeDir clientSize home
  | .bindGreeter display xauthority runtimeDir clientSize =>
    bindGreeter w display xauthority runtimeDir clientSize
  | .bindCompositor desktop user runtimeDir clientSize home =>
    bindCompositor w desktop user runtimeDir clientSize home

def step (c : Call) : Worker := (call w c).2

def Call.wanted : Call → Bound
  | .bind user display xauthority runtimeDir clientSize home =>
    ⟨.session, some user, ":" ++ toString display, xauthority, clientSize, audioFor home runtimeDir,
      runtimeDir⟩
  | .bindGreeter display xauthority runtimeDir clientSize =>
    ⟨.greeter, none, ":" ++ toString display, xauthority, clientSize, none, runtimeDir⟩
  | .bindCompositor desktop user runtimeDir clientSize home =>
    ⟨.compositor, some user, desktop ++ ":" ++ user, "", clientSize, audioFor home runtimeDir,
      runtimeDir⟩

variable {c : Call}

theorem wanted_of_greeter (h : c.wanted.kind = .greeter) :
    c.wanted.user = none ∧ c.wanted.audio = none := by
  cases c with
  | bindGreeter => exact ⟨rfl, rfl⟩
  | bind | bindCompositor => cases h

/-- **What a call does to the cell**: the decision, and nothing when it is refused. -/
theorem call_cases (c : Call) :
    (∃ e, bindInto w.bound c.wanted = .error e ∧ (call w c).1 = .error e ∧
    (step w c).bound = w.bound) ∨
      (bindInto w.bound c.wanted = .ok c.wanted ∧ (call w c).1 = .ok () ∧
        (step w c).bound = some c.wanted) := by
  have hcommit : ∀ env wanted,
      (∃ e, bindInto w.bound wanted = .error e ∧ (w.commit env wanted).1 = .error e ∧
        (w.commit env wanted).2.bound = w.bound) ∨
      (bindInto w.bound wanted = .ok wanted ∧ (w.commit env wanted).1 = .ok () ∧
        (w.commit env wanted).2.bound = some wanted) := by
    intro env wanted
    have hok : ∀ b, bindInto w.bound wanted = .ok b → b = wanted := by
      intro b hb
      unfold bindInto at hb
      split at hb
      · cases hb
        rfl
      · split_ifs at hb <;> cases hb <;> rfl
    unfold Worker.commit
    rcases hdecide : bindInto w.bound wanted with e | b
    · exact .inl ⟨e, rfl, rfl, rfl⟩
    · obtain rfl := hok b hdecide
      exact .inr ⟨rfl, rfl, rfl⟩
  cases c with
  | bind | bindGreeter | bindCompositor => exact hcommit _ _

variable {b : Bound}

theorem bindInto_some_ok {existing wanted : Bound} (h : bindInto (some existing) wanted = .ok b) :
    (existing.display = wanted.display ∧ existing.kind = wanted.kind) ∨
      (existing.kind = .greeter ∧ wanted.kind ≠ .greeter) := by
  unfold bindInto at h
  dsimp only at h
  split_ifs at h with hsame hgreeter
  · exact .inl hsame
  · refine .inr ⟨hgreeter.1, ?_⟩
    rcases hgreeter.2 with hkind | hkind <;> simp [hkind]

/-! ### Moves -/

def Bound.desktop (b : Bound) : Binding × Option String × String := (b.kind, b.user, b.display)

def moved (c : Call) : Bool :=
  match w.bound, (step w c).bound with
  | some b, some b' => b'.desktop != b.desktop
  | _, _ => false

def moves : Worker → List Call → ℕ
  | _, [] => 0
  | w, c :: cs => (if moved w c then 1 else 0) + moves (step w c) cs

def FromGreeter (c : Call) : Prop :=
  moved w c = true → (∃ b ∈ w.bound, b.kind = .greeter) ∧ ∃ b ∈ (step w c).bound, b.kind ≠ .greeter

def Settled : Prop := ∃ b ∈ w.bound, b.kind ≠ .greeter

def Keeps (c : Call) : Prop :=
  Settled w → (∃ e, (call w c).1 = .error e) ∨
    (step w c).bound.map (fun b => (b.user, b.display)) = w.bound.map fun b => (b.user, b.display)

def SameUser (c : Call) : Prop :=
  ∀ b ∈ w.bound, b.kind ≠ .greeter → c.wanted.kind = b.kind → c.wanted.display = b.display →
    c.wanted.user = b.user

def Unowned : Prop := ∀ b ∈ w.bound, b.kind = .greeter → b.user = none ∧ b.audio = none

variable {w : Worker}

theorem unowned_step (h : Unowned w) (c : Call) : Unowned (step w c) := by
  intro b hb hkind
  rcases call_cases w c with ⟨e, -, -, hbound⟩ | ⟨-, -, hbound⟩
  · rw [hbound] at hb
    exact h b hb hkind
  · rw [hbound] at hb
    obtain rfl := mem_some_iff.1 hb
    exact wanted_of_greeter hkind

theorem settled_step (h : Settled w) (c : Call) : Settled (step w c) := by
  obtain ⟨b, hb, hkind⟩ := h
  rcases call_cases w c with ⟨e, -, -, hbound⟩ | ⟨hok, -, hbound⟩
  · exact ⟨b, by rw [hbound]; exact hb, hkind⟩
  · rw [mem_def.1 hb] at hok
    rcases bindInto_some_ok hok with ⟨-, hsame⟩ | ⟨hgreeter, -⟩
    · exact ⟨c.wanted, hbound, hsame ▸ hkind⟩
    · exact absurd hgreeter hkind

theorem desktop_step (hb : w.bound = some b) (hkind : b.kind ≠ .greeter) (h : SameUser w c) :
    (step w c).bound.map Bound.desktop = some b.desktop := by
  rcases call_cases w c with ⟨e, -, -, hbound⟩ | ⟨hok, -, hbound⟩
  · rw [hbound, hb]
    rfl
  · rw [hb] at hok
    rcases bindInto_some_ok hok with ⟨hdisplay, hsame⟩ | ⟨hgreeter, -⟩
    · have huser := h b hb hkind hsame.symm hdisplay.symm
      rw [hbound, map_some, Bound.desktop, Bound.desktop, huser, hdisplay, hsame]
    · exact absurd hgreeter hkind

theorem moved_eq_false (hb : w.bound = some b)
    (h : (step w c).bound.map Bound.desktop = some b.desktop) : moved w c = false := by
  obtain ⟨b', hb', hdesktop⟩ := map_eq_some_iff.1 h
  rw [moved, hb, hb']
  simp [hdesktop]

theorem moved_of_settled (hw : Settled w) (h : SameUser w c) : moved w c = false := by
  obtain ⟨b, hb, hkind⟩ := hw
  exact moved_eq_false hb (desktop_step hb hkind h)

theorem fromGreeter_of_sameUser (hw : Unowned w) (h : SameUser w c) : FromGreeter w c := by
  intro hmoved
  rcases hbound : w.bound with _ | b
  · simp [moved, hbound] at hmoved
  by_cases hkind : b.kind = .greeter
  · refine ⟨⟨b, rfl, hkind⟩, ?_⟩
    rcases call_cases w c with ⟨e, -, -, hstep⟩ | ⟨hok, -, hstep⟩
    · simp [moved, hstep, hbound] at hmoved
    · rw [hbound] at hok
      rcases bindInto_some_ok hok with ⟨hdisplay, hsame⟩ | ⟨-, hleft⟩
      · -- the logon screen again: nobody's, on the same display
        have huser : c.wanted.user = b.user := by
          rw [(wanted_of_greeter (hsame.symm.trans hkind)).1, (hw b hbound hkind).1]
        simp [moved, hstep, hbound, Bound.desktop, huser, hdisplay, hsame] at hmoved
      · exact ⟨c.wanted, hstep, hleft⟩
  · rw [moved_of_settled ⟨b, hbound, hkind⟩ h] at hmoved
    cases hmoved

theorem keeps_of_sameUser (h : SameUser w c) : Keeps w c := by
  rintro ⟨b, hb, hkind⟩
  right
  obtain ⟨b', hb', hdesktop⟩ := map_eq_some_iff.1 (desktop_step hb hkind h)
  rw [hb', mem_def.1 hb]
  simp only [Bound.desktop, Prod.mk.injEq] at hdesktop
  simp [hdesktop.2.1, hdesktop.2.2]

theorem sameUser_of_keeps (h : Keeps w c) : SameUser w c := by
  intro b hb hkind hsame hdisplay
  have hok : bindInto w.bound c.wanted = .ok c.wanted := by
    rw [mem_def.1 hb, bindInto, if_pos ⟨hdisplay.symm, hsame.symm⟩]
  rcases call_cases w c with ⟨e, herror, -, -⟩ | ⟨-, haccepted, hbound⟩
  · rw [hok] at herror
    cases herror
  rcases h ⟨b, hb, hkind⟩ with ⟨e, hrefused⟩ | hsame
  · rw [haccepted] at hrefused
    cases hrefused
  · rw [hbound, mem_def.1 hb] at hsame
    simp only [map_some, some.injEq, Prod.mk.injEq] at hsame
    exact hsame.1

theorem moves_of_settled (hw : Settled w) {cs : List Call}
    (h : Along step SameUser w cs) : moves w cs = 0 := by
  induction cs generalizing w with
  | nil => rfl
  | cons c cs ih =>
    obtain ⟨hc, hrest⟩ := h
    rw [moves, moved_of_settled hw hc, ih (settled_step hw c) hrest]
    rfl

theorem moves_le_one (hw : Unowned w) {cs : List Call} (h : Along step SameUser w cs) :
    moves w cs ≤ 1 := by
  induction cs generalizing w with
  | nil => exact Nat.zero_le 1
  | cons c cs ih =>
    obtain ⟨hc, hrest⟩ := h
    rw [moves]
    by_cases hmoved : moved w c = true
    · have hsettled : Settled (step w c) := (fromGreeter_of_sameUser hw hc hmoved).2
      have hnone := moves_of_settled hsettled hrest
      rw [if_pos hmoved]
      omega
    · rw [if_neg hmoved, Nat.zero_add]
      exact ih (unowned_step hw c) hrest

def start (armed : Bool) (consoleUser : Option String) (env : Environment) :
    Worker := ⟨armed, none, 0, consoleUser, env⟩

theorem unowned_start (armed : Bool) (consoleUser : Option String) (env : Environment) :
    Unowned (start armed consoleUser env) := nofun

/-- **The gate**, for every run of calls in one worker. -/
theorem bindings_iff (armed : Bool) (consoleUser : Option String) (env : Environment)
    (cs : List Call) : (moves (start armed consoleUser env) cs ≤ 1 ∧
      Along step FromGreeter (start armed consoleUser env) cs ∧
      Along step Keeps (start armed consoleUser env) cs) ↔
    Along step SameUser (start armed consoleUser env) cs := by
  have hunowned := unowned_start armed consoleUser env
  rw [along_congr fun _ _ => ⟨sameUser_of_keeps, keeps_of_sameUser⟩]
  refine ⟨fun h => h.2.2, fun h => ⟨moves_le_one hunowned h, ?_, h⟩⟩
  exact h.mono_inv (I := Unowned) (fun _ c hI _ => unowned_step hI c)
    (fun _ _ hI => fromGreeter_of_sameUser hI) hunowned

def armedWorker : Worker := start true none ⟨none, none, none, none⟩

def sessionOf (user : String) : Call :=
  .bind user 77 "/run/user/1002/linrdp/Xauthority-77" "/run/user/1002" (1920, 1080) none

/-- The worker of one user is handed to another. -/
theorem other_user_same_display :
    (run step armedWorker [sessionOf "alice"]).sessionUser = some "alice" ∧
      (call (step armedWorker (sessionOf "alice")) (sessionOf "bob")).1 = .ok () ∧
      (run step armedWorker [sessionOf "alice", sessionOf "bob"]).sessionUser = some "bob" ∧
      ¬Along step Keeps armedWorker [sessionOf "alice", sessionOf "bob"] := by
  refine ⟨by decide, rfl, by decide, ?_⟩
  rintro ⟨-, hkeeps, -⟩
  have hsame := sameUser_of_keeps hkeeps _ rfl (by decide) rfl rfl
  exact absurd hsame (by decide)

/-! ### Refused binds -/

/-- What a call writes to `DISPLAY` and `XAUTHORITY`, before the decision. -/
def Call.variables : Call → Option String × Option String
  | .bind _ display xauthority _ _ _ => (some (":" ++ toString display), some xauthority)
  | .bindGreeter display xauthority _ _ => (some (":" ++ toString display), some xauthority)
  | .bindCompositor .. => (none, env.xauthority)

def Environment.variables : Option String × Option String := (env.display, env.xauthority)

def NoEffect (w : Worker) (c : Call) : Prop :=
  ∀ e, (call w c).1 = .error e → (step w c).env.variables = w.env.variables ∧
    (step w c).bound = w.bound ∧ (step w c).generation = w.generation

theorem variables_withAudio (audio : Option AudioTarget) :
    (env.withAudio audio).variables = env.variables := by cases audio <;> rfl

/-- **What a refused call leaves behind**: an environment with its own variables. -/
theorem call_refused {e : String} (h : bindInto w.bound c.wanted = .error e) :
    ∃ env, call w c = (.error e, { w with env := env }) ∧ env.variables = c.variables w.env := by
  have hcommit : ∀ env wanted, bindInto w.bound wanted = .error e →
      w.commit env wanted = (.error e, { w with env := env }) := by
    intro env wanted hdecide
    rw [Worker.commit, hdecide]
  cases c with
  | bind | bindGreeter | bindCompositor => exact ⟨_, hcommit _ _ h, variables_withAudio _ _⟩

theorem bindInto_error_iff (existing wanted : Bound) :
    (∃ e, bindInto (some existing) wanted = .error e) ↔
      ¬(existing.display = wanted.display ∧ existing.kind = wanted.kind) ∧
        ¬(existing.kind = .greeter ∧ wanted.kind ≠ .greeter) := by
  have hkind : wanted.kind ≠ .greeter ↔ wanted.kind = .session ∨ wanted.kind = .compositor := by
    cases wanted.kind <;> decide
  rw [bindInto, hkind]
  split_ifs with hsame hgreeter
  · simp [hsame]
  · simp [hgreeter]
  · exact iff_of_true ⟨_, rfl⟩ ⟨hsame, hgreeter⟩

/-- **When a refused bind has no effect**: for a binding that refuses the call, with another display
or another kind and no way off the logon screen, the variables have to be what the call writes. -/
theorem noEffect_iff (w : Worker) (c : Call) : NoEffect w c ↔
    ∀ b ∈ w.bound, ¬(b.display = c.wanted.display ∧ b.kind = c.wanted.kind) →
      ¬(b.kind = .greeter ∧ c.wanted.kind ≠ .greeter) → w.env.variables = c.variables w.env := by
  constructor
  · intro h b hb hother hstays
    obtain ⟨e, hdecide⟩ := (bindInto_error_iff b c.wanted).2 ⟨hother, hstays⟩
    obtain ⟨env, hcall, hvariables⟩ := call_refused (by rw [mem_def.1 hb, hdecide])
    have heffect := (h e (by rw [hcall])).1
    rw [step, hcall] at heffect
    exact heffect.symm.trans hvariables
  · intro h e herror
    rcases call_cases w c with ⟨e', hdecide, -, -⟩ | ⟨-, hok, -⟩
    · obtain ⟨env, hcall, hvariables⟩ := call_refused hdecide
      rw [step, hcall]
      refine ⟨?_, rfl, rfl⟩
      rcases hbound : w.bound with _ | b
      · rw [hbound] at hdecide
        cases hdecide
      · rw [hbound] at hdecide
        obtain ⟨hother, hstays⟩ := (bindInto_error_iff b c.wanted).1 ⟨e', hdecide⟩
        exact hvariables.trans (h b hbound hother hstays).symm
    · rw [hok] at herror
      cases herror

/-- The logon screen of another display is refused, and the environment names it from then on. -/
theorem refused_greeter_sets_display :
    let w := step armedWorker (sessionOf "alice")
    let c := Call.bindGreeter 78 "/run/linrdp/greeter" "/run/linrdp" (1920, 1080)
    (step w c).bound.map Bound.display = some ":77" ∧ (step w c).env.display = some ":78" ∧
      ¬NoEffect w c := by
  refine ⟨by decide, by decide, fun h => ?_⟩
  have heffect := (h _ rfl).1
  revert heffect
  decide

end Linrdp.Session.Gate
