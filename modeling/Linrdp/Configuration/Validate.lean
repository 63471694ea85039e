import Linrdp.Lib.TextLines
import Mathlib.Data.List.Nodup

/-!
# The configuration and what `validate` refuses

The types of `config/mod.rs`, `Config::effective`, and `validate` of `config/validate.rs` with its
problems and their texts. `SocketAddr::from_str` is a parameter: the standard library reads the
addresses.

`Wellformed` says what a configuration has to be, and `valid_iff` that `validate` accepts exactly
that. The two ways a listener's address can clash, by its literal and by its socket, come to one: no
two listeners have the same socket.
-/

namespace Linrdp.Configuration

open List Lib.TextLines

/-! ### The file -/

/-- `LOW-HIGH`. The only way to one is `FromStr`, or the default. -/
structure DisplayRange where
  (low high : ℕ)
  seatFree : 1 ≤ low
  ordered : low ≤ high
  fits : high < 65536

structure Size where
  (width height : ℕ)

inductive Auth
  | both | nla | system | greeter
deriving DecidableEq

inductive BackendChoice
  | auto | x11 | gnome

structure Console where
  enabled : Bool := false
  display : Option Text := none
  xauthority : Option Text := none

structure Session where
  backend : BackendChoice := .auto
  displayRange : DisplayRange := ⟨10, 99, by decide, by decide, by decide⟩
  fixedSize : Option Size := none
  lockOnDisconnect : Bool := false
  switchToGreeter : Bool := false
  console : Console := {}

structure Features where
  usb : Bool := false
  udp : Bool := true
  avc444v2 : Bool := true
  wayland : Bool := false

structure Limits where
  maxWorkers : ℕ := 128
  maxPerClient : ℕ := 8
  handshakeSeconds : ℕ := 30

structure Tls where
  cert : Option Text := none
  key : Option Text := none

structure Log where
  level : Text := "info".toList
  file : Option Text := some "/var/log/linrdp/linrdp.log".toList

/-! ### The overrides

A key of an override is `none` where it is not written. A key that may also be written as `null` is
an option in an option. -/

structure ConsoleOverride where
  enabled : Option Bool := none
  display : Option (Option Text) := none
  xauthority : Option (Option Text) := none

structure SessionOverride where
  backend : Option BackendChoice := none
  displayRange : Option DisplayRange := none
  fixedSize : Option (Option Size) := none
  lockOnDisconnect : Option Bool := none
  switchToGreeter : Option Bool := none
  console : Option ConsoleOverride := none

structure FeaturesOverride where
  usb : Option Bool := none
  udp : Option Bool := none
  avc444v2 : Option Bool := none
  wayland : Option Bool := none

structure TlsOverride where
  cert : Option (Option Text) := none
  key : Option (Option Text) := none

structure Overrides where
  session : Option SessionOverride := none
  features : Option FeaturesOverride := none
  tls : Option TlsOverride := none
  log : Option Text := none

structure Listener where
  bind : Text
  auth : Auth
  overrides : Option Overrides

structure Config where
  listeners : List Listener
  session : Session := {}
  features : Features := {}
  tls : Tls := {}
  log : Log := {}
  limits : Limits := {}

/-! ### What a worker uses -/

structure Effective where
  bind : Text
  auth : Auth
  session : Session
  features : Features
  tls : Tls
  log : Log
  limits : Limits

def ConsoleOverride.fold (o : ConsoleOverride) (c : Console) : Console where
  enabled := o.enabled.getD c.enabled
  display := o.display.getD c.display
  xauthority := o.xauthority.getD c.xauthority

/-- `display_range` is not read. -/
def SessionOverride.fold (o : SessionOverride) (s : Session) : Session where
  backend := o.backend.getD s.backend
  displayRange := s.displayRange
  fixedSize := o.fixedSize.getD s.fixedSize
  lockOnDisconnect := o.lockOnDisconnect.getD s.lockOnDisconnect
  switchToGreeter := o.switchToGreeter.getD s.switchToGreeter
  console := o.console.elim s.console fun c => c.fold s.console

def FeaturesOverride.fold (o : FeaturesOverride) (f : Features) : Features where
  usb := o.usb.getD f.usb
  udp := o.udp.getD f.udp
  avc444v2 := o.avc444v2.getD f.avc444v2
  wayland := o.wayland.getD f.wayland

def TlsOverride.fold (o : TlsOverride) (t : Tls) : Tls where
  cert := o.cert.getD t.cert
  key := o.key.getD t.key

def Config.effectiveOf (c : Config) (l : Listener) : Effective :=
  let o := l.overrides.getD {}
  { bind := l.bind
    auth := l.auth
    session := o.session.elim c.session fun s => s.fold c.session
    features := o.features.elim c.features fun f => f.fold c.features
    tls := o.tls.elim c.tls fun t => t.fold c.tls
    log := c.log
    limits := c.limits }

def Config.effective (c : Config) (bind : Text) : Except Text Effective :=
  match c.listeners.find? fun l => l.bind = bind with
  | some l => .ok (c.effectiveOf l)
  | none =>
    .error ("no listener `".toList ++ bind ++ "` in the configuration (it has: ".toList ++
      List.intercalate ", ".toList (c.listeners.map Listener.bind) ++ ")".toList)

/-! ### The problems -/

def bindShape : Text := "ADDRESS:PORT, e.g. 0.0.0.0:3389 or [::1]:3389".toList

def logIsGlobal : Text := "one process writes one log; a listener is not a process.".toList

def rangeIsGlobal : Text :=
  ("display numbers are handed out under a single flock in /run/linrdp, and that is what makes " ++
    "a user who arrives on either port land on the same desktop. Two ranges on two ports would " ++
    "quietly give that user two.").toList

/-- What `validate` can push to its problems. -/
inductive Problem
  | noListeners
  | repeatedBind (bind : Text)
  | notAnAddress (bind : Text)
  | sameSocket (bind other : Text)
  | overridesLog (bind : Text)
  | overridesRange (bind : Text)
  | consoleWithoutDisplay (bind : Text)
  | consoleWithGreeter (bind : Text)
  | certWithoutKey (where_ : Text)
  | keyWithoutCert (where_ : Text)
  | zeroLimit (path default : Text)
  | aboveWorkers (maxPerClient maxWorkers : ℕ)

def Problem.text : Problem → Text
  | .noListeners =>
    ("`listeners` is empty: a service that binds nothing accepts nothing. Give it at least one " ++
      "address, e.g. `- bind: 0.0.0.0:3389` with `auth: both`.").toList
  | .repeatedBind bind =>
    "two listeners are bound to `".toList ++ bind ++
      ("`. Each listener is identified by its address, so a " ++
      "repeated one leaves no way to say which settings a connection should get.").toList
  | .notAnAddress bind =>
    "`".toList ++ bind ++ "` is not an address and port. listeners[].bind expects ".toList ++
      bindShape ++
      (" — a hostname is not accepted, because it may resolve to a different address than the " ++
        "one this file names.").toList
  | .sameSocket bind other =>
    "`".toList ++ bind ++ "` and `".toList ++ other ++
      ("` are two spellings of the same socket. One of " ++
      "them has to go: they cannot be told apart once a connection arrives.").toList
  | .overridesLog bind =>
    "listener `".toList ++ bind ++ "` overrides `log`, which is a service-wide setting: ".toList ++
      logIsGlobal
  | .overridesRange bind =>
    "listener `".toList ++ bind ++
      "` overrides `session.display_range`, which is a service-wide setting: ".toList ++
      rangeIsGlobal
  | .consoleWithoutDisplay bind =>
    "listener `".toList ++ bind ++ ("` has `session.console.enabled: true` but no " ++
      "`session.console.display`. There is deliberately no default: guessing which screen to " ++
      "share would serve somebody else's desktop to whoever connects.").toList
  | .consoleWithGreeter bind =>
    "listener `".toList ++ bind ++ ("` combines `auth: greeter` with `session.console.enabled: " ++
      "true`. The shared screen is attached before any form could be drawn, so the logon screen " ++
      "would never appear — pick one.").toList
  | .certWithoutKey where_ =>
    where_ ++ (" sets `tls.cert` without `tls.key`. Set both — a certificate without its key " ++
      "cannot serve a connection.").toList
  | .keyWithoutCert where_ =>
    where_ ++ (" sets `tls.key` without `tls.cert`. Set both, or neither to let linrdp keep a " ++
      "self-signed identity of its own.").toList
  | .zeroLimit path default =>
    "`".toList ++ path ++ (": 0` is not a limit, it is a service that refuses everybody. Give " ++
      "it at least 1, or leave the key out for the default (").toList ++ default ++ ").".toList
  | .aboveWorkers maxPerClient maxWorkers =>
    "`limits.max_per_client` (".toList ++ Nat.toDigits 10 maxPerClient ++
      ") is above `limits.max_workers` (".toList ++ Nat.toDigits 10 maxWorkers ++
      ("), so one client is allowed more connections than the whole machine serves. Lower the " ++
        "first or raise the second.").toList

/-! ### The checks -/

variable (l : Listener)

section

variable {A : Type} [DecidableEq A] (parseAddr : Text → Option A)

structure Seen (A : Type) where
  literal : List Text
  socket : List (A × Text)

def checkBind (seen : Seen A) (l : Listener) : Seen A × List Problem :=
  if l.bind ∈ seen.literal then (seen, [.repeatedBind l.bind])
  else
    let seen := { seen with literal := seen.literal ++ [l.bind] }
    match parseAddr l.bind with
    | none => (seen, [.notAnAddress l.bind])
    | some parsed =>
      match seen.socket.find? fun s => s.1 = parsed with
      | some (_, other) => (seen, [.sameSocket l.bind other])
      | none => ({ seen with socket := seen.socket ++ [(parsed, l.bind)] }, [])

def checkOverrides : List Problem :=
  match l.overrides with
  | none => []
  | some overrides =>
    (if overrides.log.isSome then [.overridesLog l.bind] else []) ++
      if overrides.session.any fun s => s.displayRange.isSome then [.overridesRange l.bind] else []

variable (c : Config)

def checkConsole (l : Listener) : List Problem :=
  match c.effective l.bind with
  | .error _ => []
  | .ok effective =>
    if !effective.session.console.enabled then []
    else
      (if effective.session.console.display.isNone then [.consoleWithoutDisplay l.bind] else []) ++
        if effective.auth = .greeter then [.consoleWithGreeter l.bind] else []

def checkListeners (c : Config) : Seen A → List Listener → List Problem
  | _, [] => []
  | seen, l :: ls =>
    (checkBind parseAddr seen l).2 ++ checkOverrides l ++ checkConsole c l ++
      checkListeners c (checkBind parseAddr seen l).1 ls

def complainAboutAHalfIdentity (where_ : Text) (tls : Tls) : List Problem :=
  match tls.cert, tls.key with
  | some _, none => [.certWithoutKey where_]
  | none, some _ => [.keyWithoutCert where_]
  | _, _ => []

def Listener.named : Text := "listener `".toList ++ l.bind ++ "`".toList

def checkTls : List Problem :=
  complainAboutAHalfIdentity "tls".toList c.tls ++
    c.listeners.flatMap fun l =>
      if l.overrides.all fun o => o.tls.isNone then []
      else
        match c.effective l.bind with
        | .error _ => []
        | .ok effective => complainAboutAHalfIdentity l.named effective.tls

/-- A limit, with its path and `meta::default_of` it. -/
def checkLimit (path : String) (value : ℕ) (default : String) : List Problem :=
  if value = 0 then [.zeroLimit path.toList default.toList] else []

def checkLimits (limits : Limits) : List Problem :=
  checkLimit "limits.max_workers" limits.maxWorkers "128" ++
    checkLimit "limits.max_per_client" limits.maxPerClient "8" ++
    checkLimit "limits.handshake_seconds" limits.handshakeSeconds "30" ++
    if limits.maxWorkers < limits.maxPerClient then [.aboveWorkers limits.maxPerClient
    limits.maxWorkers]
    else []

def problems : List Problem :=
  (if c.listeners = [] then [.noListeners] else []) ++
    checkListeners parseAddr c ⟨[], []⟩ c.listeners ++ checkTls c ++ checkLimits c.limits

def report : List Problem → Except Text Unit
  | [] => .ok ()
  | [problem] => .error problem.text
  | problems => .error (Nat.toDigits 10 problems.length ++
      " problems in the configuration:\n  - ".toList ++
      List.intercalate "\n  - ".toList (problems.map Problem.text))

def validate : Except Text Unit := report (problems parseAddr c)

def Valid : Prop := (validate parseAddr c).isOk

instance (c : Config) : Decidable (Valid parseAddr c) := inferInstanceAs (Decidable (_ = true))

end

/-! ### What is accepted -/

def Tls.Whole (t : Tls) : Prop := t.cert.isSome = t.key.isSome

def Effective.ConsoleOk (e : Effective) : Prop :=
  e.session.console.enabled → e.session.console.display.isSome ∧ e.auth ≠ .greeter

def Overrides.Local (o : Overrides) : Prop :=
  o.log = none ∧ ∀ s, o.session = some s → s.displayRange = none

@[mk_iff] structure Limits.Positive (l : Limits) : Prop where
  workers : l.maxWorkers ≠ 0
  perClient : l.maxPerClient ≠ 0
  handshake : l.handshakeSeconds ≠ 0
  within : l.maxPerClient ≤ l.maxWorkers

structure Wellformed {A : Type} (parseAddr : Text → Option A) (c : Config) : Prop where
  bound : c.listeners ≠ []
  addresses : ∀ l ∈ c.listeners, (parseAddr l.bind).isSome
  sockets : (c.listeners.map fun l => parseAddr l.bind).Nodup
  overrides : ∀ l ∈ c.listeners, ∀ o, l.overrides = some o → o.Local
  console : ∀ l ∈ c.listeners, (c.effectiveOf l).ConsoleOk
  tls : c.tls.Whole
  listenerTls : ∀ l ∈ c.listeners, ∀ o, l.overrides = some o → o.tls.isSome →
    (c.effectiveOf l).tls.Whole
  limits : c.limits.Positive

section accepted

variable {A : Type} [DecidableEq A] {parseAddr : Text → Option A}

theorem checkOverrides_eq_nil_iff :
    checkOverrides l = [] ↔ ∀ o, l.overrides = some o → o.Local := by
  unfold checkOverrides
  rcases l.overrides with _ | o
  · simp
  · rcases o with ⟨_ | ⟨backend, range, rest⟩, features, tls, log⟩ <;> simp [Overrides.Local]

theorem complainAboutAHalfIdentity_eq_nil_iff (where_ : Text) (t : Tls) :
    complainAboutAHalfIdentity where_ t = [] ↔ t.Whole := by
  rcases t with ⟨_ | cert, _ | key⟩ <;> simp [complainAboutAHalfIdentity, Tls.Whole]

theorem checkLimits_eq_nil_iff (l : Limits) : checkLimits l = [] ↔ l.Positive := by
  have hlimit : ∀ path value default, checkLimit path value default = [] ↔ value ≠ 0 := by
    simp [checkLimit]
  rw [checkLimits, Limits.positive_iff]
  simp only [append_eq_nil_iff, hlimit, ite_eq_right_iff, cons_ne_nil, imp_false, not_lt, and_assoc]

theorem effective_eq {c : Config} (hnodup : (c.listeners.map Listener.bind).Nodup) {l : Listener}
    (hl : l ∈ c.listeners) : c.effective l.bind = .ok (c.effectiveOf l) := by
  have hfind : c.listeners.find? (fun l' => l'.bind = l.bind) = some l := by
    rcases h : c.listeners.find? (fun l' => l'.bind = l.bind) with _ | l'
    · simpa using find?_eq_none.1 h l hl
    · have hbind : l'.bind = l.bind := by simpa using find?_some h
      rw [h, inj_on_of_nodup_map hnodup (mem_of_find?_eq_some h) hl hbind]
  rw [Config.effective, hfind]

theorem checkConsole_eq_nil_iff {c : Config} {l : Listener}
    (h : c.effective l.bind = .ok (c.effectiveOf l)) :
    checkConsole c l = [] ↔ (c.effectiveOf l).ConsoleOk := by
  unfold checkConsole Effective.ConsoleOk
  rw [h]
  dsimp only
  rcases (c.effectiveOf l).session.console.enabled with _ | _
  · simp
  · simp [Option.isSome_iff_ne_none]

variable (parseAddr) in
def Fresh (seen : Seen A) (l : Listener) : Prop :=
  l.bind ∉ seen.literal ∧ ∃ a, parseAddr l.bind = some a ∧ a ∉ seen.socket.map Prod.fst

theorem checkBind_cases (seen : Seen A) (l : Listener) :
    (∃ a, parseAddr l.bind = some a ∧ Fresh parseAddr seen l ∧ checkBind parseAddr seen l =
        (⟨seen.literal ++ [l.bind], seen.socket ++ [(a, l.bind)]⟩, [])) ∨
      ¬Fresh parseAddr seen l ∧ (checkBind parseAddr seen l).2 ≠ [] := by
  unfold checkBind Fresh
  by_cases hliteral : l.bind ∈ seen.literal
  · simp [hliteral]
  rw [if_neg hliteral]
  rcases parseAddr l.bind with _ | a
  · simp
  dsimp only
  have hfind : seen.socket.find? (fun s => s.1 = a) = none ↔ a ∉ seen.socket.map Prod.fst := by
    simp only [find?_eq_none, decide_eq_true_eq, mem_map, not_exists, not_and]
  rcases h : seen.socket.find? (fun s => s.1 = a) with _ | ⟨a', other⟩
  · exact .inl ⟨a, rfl, ⟨hliteral, a, rfl, hfind.1 h⟩, by rw [h]⟩
  · refine .inr ⟨?_, by simp [h]⟩
    rintro ⟨-, b, hb, hnot⟩
    rw [hfind.2 (Option.some.inj hb ▸ hnot)] at h
    cases h

theorem checkListeners_eq_nil_iff (c : Config) (ls : List Listener) (seen : Seen A) :
    checkListeners parseAddr c seen ls = [] ↔
      (∀ l ∈ ls, Fresh parseAddr seen l) ∧ (ls.map fun l => parseAddr l.bind).Nodup ∧
        ∀ l ∈ ls, checkOverrides l = [] ∧ checkConsole c l = [] := by
  induction ls generalizing seen with
  | nil => simp [checkListeners]
  | cons l ls ih =>
    rw [checkListeners]
    simp only [append_eq_nil_iff, forall_mem_cons, map_cons, nodup_cons]
    rcases checkBind_cases seen l with ⟨a, ha, hfirst, hseen⟩ | ⟨hfirst, hbind⟩
    · rw [hseen, ih]
      -- what this listener adds to the seen ones is what must not come again
      have hnew : ∀ l' : Listener,
          Fresh parseAddr ⟨seen.literal ++ [l.bind], seen.socket ++ [(a, l.bind)]⟩ l' ↔
            Fresh parseAddr seen l' ∧ parseAddr l'.bind ≠ parseAddr l.bind := by
        intro l'
        have hsame : l'.bind = l.bind → parseAddr l'.bind = some a := fun heq => heq ▸ ha
        rw [ha]
        simp only [Fresh, mem_append, map_append, map_cons, map_nil, mem_singleton, not_or]
        rcases hb : parseAddr l'.bind with _ | b
        · simp
        · simp only [hb, ne_eq, Option.some.injEq, exists_eq_left'] at hsame ⊢
          tauto
      have hmem : parseAddr l.bind ∉ ls.map (fun l => parseAddr l.bind) ↔
          ∀ l' ∈ ls, parseAddr l'.bind ≠ parseAddr l.bind := by
        simp
      rw [forall₂_congr fun l' _ => hnew l', forall₂_and, hmem]
      tauto
    · simp only [hbind, hfirst, false_and]

theorem checkTls_eq_nil_iff {c : Config} (hnodup : (c.listeners.map Listener.bind).Nodup) :
    checkTls c = [] ↔ c.tls.Whole ∧ ∀ l ∈ c.listeners, ∀ o, l.overrides = some o → o.tls.isSome →
      (c.effectiveOf l).tls.Whole := by
  unfold checkTls
  rw [append_eq_nil_iff, complainAboutAHalfIdentity_eq_nil_iff, flatMap_eq_nil_iff]
  refine and_congr_right fun _ => forall₂_congr fun l hl => ?_
  rw [effective_eq hnodup hl]
  rcases l.overrides with _ | o
  · simp
  · rcases h : o.tls with _ | t
    · simp [h]
    · simp [h, complainAboutAHalfIdentity_eq_nil_iff]

theorem valid_iff_problems (c : Config) : Valid parseAddr c ↔ problems parseAddr c = [] := by
  unfold Valid validate
  rcases problems parseAddr c with _ | ⟨p, _ | ⟨q, rest⟩⟩
  · exact iff_of_true rfl rfl
  all_goals exact iff_of_false Bool.false_ne_true (cons_ne_nil _ _)

theorem problems_eq_nil_iff (c : Config) : problems parseAddr c = [] ↔ Wellformed parseAddr c := by
  have hbinds : ∀ ls : List Listener, (ls.map fun l => parseAddr l.bind).Nodup →
      (ls.map Listener.bind).Nodup := by
    intro ls h
    refine List.Nodup.of_map parseAddr ?_
    rw [map_map]
    exact h
  rw [problems]
  simp only [append_eq_nil_iff, ite_eq_right_iff, cons_ne_nil, imp_false,
    checkListeners_eq_nil_iff, checkLimits_eq_nil_iff]
  constructor
  · rintro ⟨⟨⟨hne, hseen, hnodup, hrest⟩, htls⟩, hlimits⟩
    obtain ⟨hwhole, hlistener⟩ := (checkTls_eq_nil_iff (hbinds _ hnodup)).1 htls
    refine ⟨hne, fun l hl => ?_, hnodup, fun l hl => ?_, fun l hl => ?_, hwhole, hlistener, hlimits⟩
    · obtain ⟨-, a, ha, -⟩ := hseen l hl
      rw [ha]
      rfl
    · exact (checkOverrides_eq_nil_iff l).1 (hrest l hl).1
    · exact (checkConsole_eq_nil_iff (effective_eq (hbinds _ hnodup) hl)).1 (hrest l hl).2
  · intro h
    have hnodup := hbinds _ h.sockets
    refine ⟨⟨⟨h.bound, fun l hl => ?_, h.sockets, fun l hl => ⟨?_, ?_⟩⟩, ?_⟩, h.limits⟩
    · obtain ⟨a, ha⟩ := Option.isSome_iff_exists.1 (h.addresses l hl)
      exact ⟨by simp, a, ha, by simp⟩
    · exact (checkOverrides_eq_nil_iff l).2 (h.overrides l hl)
    · exact (checkConsole_eq_nil_iff (effective_eq hnodup hl)).2 (h.console l hl)
    · exact (checkTls_eq_nil_iff hnodup).2 ⟨h.tls, h.listenerTls⟩

/-- **`validate` accepts what is well formed**, and nothing else. -/
theorem valid_iff (c : Config) : Valid parseAddr c ↔ Wellformed parseAddr c := by
  rw [valid_iff_problems, problems_eq_nil_iff]

end accepted

end Linrdp.Configuration
