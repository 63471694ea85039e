import Linrdp.Configuration.Validate

/-!
# The editor of the configuration

`configtui/model.rs` without the drawing: the settings, the slots a value can go into, and the edits
of `linrdp config` with the texts of their refusals. An edit changes the configuration in place and
asks `validate` afterwards; `Edit.write` is the part before.
-/

namespace Linrdp.Configuration

open Lib.TextLines Nat

/-! ### Reading values -/

/-- `Context::context`, as `{:#}` shows it. -/
def context {α : Type} (text : String) (r : Except Text α) : Except Text α :=
  r.mapError fun e => text.toList ++ ": ".toList ++ e

/-- `DisplayRange::from_str`; a range carries that it is one and that it starts above the seat. -/
def parseDisplayRange (spec : Text) : Except Text DisplayRange :=
  match splitOnce '-' spec with
  | none => .error "session.display_range expects LOW-HIGH, e.g. 10-99".toList
  | some (low, high) => do
    let low ← context "session.display_range LOW" (parseU16 (trim low))
    let high ← context "session.display_range HIGH" (parseU16 (trim high))
    if hlow : 1 ≤ (low : ℕ) then
      if hle : (low : ℕ) ≤ high then .ok ⟨low, high, hlow, hle, high.isLt⟩
      else .error "session.display_range expects LOW-HIGH with LOW <= HIGH".toList
    else .error "session.display_range must start at 1 or above (:0 is a physical seat)".toList

/-- `Size::from_str` -/
def parseSize (spec : Text) : Except Text Size :=
  match spec.dropWhile fun c => c ≠ 'x' ∧ c ≠ 'X' with
  | [] => .error "expects WIDTHxHEIGHT, e.g. 2880x1800".toList
  | _ :: h => do
    let width ← context "width" (parseU16 (trim (spec.takeWhile fun c => c ≠ 'x' ∧ c ≠ 'X')))
    let height ← context "height" (parseU16 (trim h))
    if 1 ≤ (width : ℕ) ∧ 1 ≤ (height : ℕ) then .ok ⟨width, height⟩
    else .error "a screen cannot have a zero side".toList

variable (raw : Text)

/-- `unset_or`: an empty text, or `null`, stands for no value. -/
def unsetOr : Option Text :=
  let trimmed := trim raw
  if trimmed = [] ∨ trimmed = "null".toList then none else some trimmed

/-- `parse_opt`: a value that may be unset. -/
def parseOpt {α : Type} (parse : Text → Except Text α) (raw : Text) : Except Text (Option α) :=
  match unsetOr raw with
  | some value => (parse value).map some
  | none => .ok none

/-- `parse_limit`: a limit of 32 bits that is not zero. -/
def parseLimit (path : String) (raw : Text) : Except Text ℕ :=
  match parseUnsigned 4294967295 (trim raw) with
  | .error _ => .error (path.toList ++ " takes a whole number, got `".toList ++ trim raw ++
      "`".toList)
  | .ok value =>
    if 1 ≤ (value : ℕ) then .ok value
    else .error (path.toList ++ " must be at least 1; 0 would refuse every connection".toList)

/-- `parse_bool` -/
def parseBool : Except Text Bool :=
  let value := trim raw
  if value = "true".toList ∨ value = "yes".toList ∨ value = "on".toList then .ok true
  else if value = "false".toList ∨ value = "no".toList ∨ value = "off".toList then .ok false
  else .error ("expected true or false, got `".toList ++ value ++ "`".toList)

/-- `Auth::as_str` -/
def Auth.asStr : Auth → Text
  | .both => "both".toList
  | .nla => "nla".toList
  | .system => "system".toList
  | .greeter => "greeter".toList

/-- `parse_auth` -/
def parseAuth : Except Text Auth :=
  match [Auth.both, .nla, .system, .greeter].find? fun a => a.asStr = trim raw with
  | some auth => .ok auth
  | none => .error ("`".toList ++ trim raw ++
      "` is not an authentication mode — expected both, nla, system or greeter".toList)

/-- `BackendChoice::as_str` -/
def BackendChoice.asStr : BackendChoice → Text
  | .auto => "auto".toList
  | .x11 => "x11".toList
  | .gnome => "gnome".toList

/-- The backend by its name. -/
def parseBackend : Except Text BackendChoice :=
  match [BackendChoice.auto, .x11, .gnome].find? fun b => b.asStr = trim raw with
  | some backend => .ok backend
  | none => .error ("session.backend is one of auto, x11, gnome, not `".toList ++ trim raw ++
      "`".toList)

/-! ### The settings -/

/-- Every setting that lives in a global block. -/
inductive Setting
  | backend | displayRange | fixedSize | lockOnDisconnect | switchToGreeter | consoleEnabled
  | consoleDisplay | consoleXauthority | usb | udp | avc444v2 | wayland | maxWorkers | maxPerClient
  | handshakeSeconds | tlsCert | tlsKey | logLevel | logFile

/-- `meta::override_refusal` of the key: why a listener may not have a value of its own. -/
def Setting.overrideRefusal : Setting → Option Text
  | .displayRange => some rangeIsGlobal
  | .maxWorkers =>
    some ("one supervisor forks every worker, so the ceiling is the machine's and " ++
      "not a port's").toList
  | .maxPerClient => some "counted across every listener, because the host is one host".toList
  | .handshakeSeconds => some "the deadline protects the host, not one port's clients".toList
  | .logLevel | .logFile => some logIsGlobal
  | _ => none

variable (c : Config)

/-- `Setting::set`: the value is read before it is written. -/
def Setting.set (raw : Text) : Setting → Except Text Config
  | .backend => (parseBackend raw).map fun v =>
      { c with session := { c.session with backend := v } }
  | .displayRange =>
    (parseDisplayRange raw).map fun v => { c with session := { c.session with displayRange := v } }
  | .fixedSize =>
    (parseOpt parseSize raw).map fun v => { c with session := { c.session with fixedSize := v } }
  | .lockOnDisconnect =>
    (parseBool raw).map fun v => { c with session := { c.session with lockOnDisconnect := v } }
  | .switchToGreeter =>
    (parseBool raw).map fun v => { c with session := { c.session with switchToGreeter := v } }
  | .consoleEnabled => (parseBool raw).map fun v =>
    { c with session := { c.session with console := { c.session.console with enabled := v } } }
  | .consoleDisplay => .ok
    { c with session := { c.session with console :=
      { c.session.console with display := unsetOr raw } } }
  | .consoleXauthority => .ok
    { c with session := { c.session with console :=
      { c.session.console with xauthority := unsetOr raw } } }
  | .usb => (parseBool raw).map fun v => { c with features := { c.features with usb := v } }
  | .udp => (parseBool raw).map fun v => { c with features := { c.features with udp := v } }
  | .avc444v2 => (parseBool raw).map fun v => { c with features :=
      { c.features with avc444v2 := v } }
  | .wayland => (parseBool raw).map fun v => { c with features := { c.features with wayland := v } }
  | .maxWorkers => (parseLimit "limits.max_workers" raw).map fun v =>
    { c with limits := { c.limits with maxWorkers := v } }
  | .maxPerClient => (parseLimit "limits.max_per_client" raw).map fun v =>
    { c with limits := { c.limits with maxPerClient := v } }
  | .handshakeSeconds => (parseLimit "limits.handshake_seconds" raw).map fun v =>
    { c with limits := { c.limits with handshakeSeconds := v } }
  | .tlsCert => .ok { c with tls := { c.tls with cert := unsetOr raw } }
  | .tlsKey => .ok { c with tls := { c.tls with key := unsetOr raw } }
  | .logLevel => .ok { c with log := { c.log with level := trim raw } }
  | .logFile => .ok { c with log := { c.log with file := unsetOr raw } }

/-! ### The overrides of a listener -/

variable (o : Overrides)

namespace Overrides

/-- `session.get_or_insert_with(Default::default)` -/
def openSession : Overrides := { o with session := some (o.session.getD {}) }

/-- A change of the session block, where there is one. -/
def inSession (f : SessionOverride → SessionOverride) (o : Overrides) : Overrides :=
  { o with session := o.session.map f }

/-- The console block, in the session block. -/
def openConsole : Overrides :=
  o.openSession.inSession fun s => { s with console := some (s.console.getD {}) }

/-- A change of the console block, where there is one. -/
def inConsole (f : ConsoleOverride → ConsoleOverride) : Overrides → Overrides :=
  inSession fun s => { s with console := s.console.map f }

/-- A change of the features block, which is put in where it is missing. -/
def inFeatures (f : FeaturesOverride → FeaturesOverride) (o : Overrides) : Overrides :=
  { o with features := some (f (o.features.getD {})) }

/-- A change of the TLS block, which is put in where it is missing. -/
def inTls (f : TlsOverride → TlsOverride) (o : Overrides) : Overrides :=
  { o with tls := some (f (o.tls.getD {})) }

end Overrides

/-- The blocks that are put in before the text is read. Those of the features and of TLS are put in
by the assignment itself, whose right side is evaluated first. -/
def Setting.openBlocks : Setting → Overrides → Overrides
  | .backend | .fixedSize | .lockOnDisconnect | .switchToGreeter => Overrides.openSession
  | .consoleEnabled | .consoleDisplay | .consoleXauthority => Overrides.openConsole
  | _ => id

/-- `raw.map(parse).transpose()`: no text is no value, and is not read. -/
def transpose {α : Type} (parse : Text → Except Text α) : Option Text → Except Text (Option α)
  | none => .ok none
  | some raw => (parse raw).map some

/-- The write of `set_override`. -/
def Setting.assign (raw : Option Text) (o : Overrides) : Setting → Except Text Overrides
  | .backend => (transpose parseBackend raw).map fun v => o.inSession fun s =>
      { s with backend := v }
  | .fixedSize =>
    (transpose (parseOpt parseSize) raw).map fun v => o.inSession fun s => { s with fixedSize := v }
  | .lockOnDisconnect =>
    (transpose parseBool raw).map fun v => o.inSession fun s => { s with lockOnDisconnect := v }
  | .switchToGreeter =>
    (transpose parseBool raw).map fun v => o.inSession fun s => { s with switchToGreeter := v }
  | .consoleEnabled => (transpose parseBool raw).map fun v => o.inConsole fun c =>
      { c with enabled := v }
  | .consoleDisplay => .ok (o.inConsole fun c => { c with display := raw.map unsetOr })
  | .consoleXauthority => .ok (o.inConsole fun c => { c with xauthority := raw.map unsetOr })
  | .usb => (transpose parseBool raw).map fun v => o.inFeatures fun f => { f with usb := v }
  | .udp => (transpose parseBool raw).map fun v => o.inFeatures fun f => { f with udp := v }
  | .avc444v2 => (transpose parseBool raw).map fun v => o.inFeatures fun f =>
      { f with avc444v2 := v }
  | .wayland => (transpose parseBool raw).map fun v => o.inFeatures fun f => { f with wayland := v }
  | .tlsCert => .ok (o.inTls fun t => { t with cert := raw.map unsetOr })
  | .tlsKey => .ok (o.inTls fun t => { t with key := raw.map unsetOr })
  | key => .error (key.overrideRefusal.getD "service-wide".toList)

/-- `is_empty_override`: no block holds a value. -/
def isEmptyOverride : Bool :=
  (o.session.all fun s =>
    s.backend.isNone && s.displayRange.isNone && s.fixedSize.isNone && s.lockOnDisconnect.isNone &&
      s.switchToGreeter.isNone && s.console.all fun c =>
        c.enabled.isNone && c.display.isNone && c.xauthority.isNone) &&
    (o.features.all fun f => f.usb.isNone && f.udp.isNone && f.avc444v2.isNone &&
      f.wayland.isNone) &&
    (o.tls.all fun t => t.cert.isNone && t.key.isNone) && o.log.isNone

/-- A change of one listener; nothing for an index that is out of range. -/
def Config.modifyListener (index : ℕ) (f : Listener → Listener) : Config :=
  { c with listeners := c.listeners.modify index f }

/-- `set_override`. A text that is refused leaves the blocks that were put in before it was read. -/
def setOverride (index : ℕ) (key : Setting) (raw : Option Text) : Config × Except Text Unit :=
  match key.overrideRefusal with
  | some refusal => (c, .error refusal)
  | none =>
    match c.listeners[index]? with
    | none => (c, .error "no such listener".toList)
    | some listener =>
      let overrides := key.openBlocks (listener.overrides.getD {})
      match key.assign raw overrides with
      | .error e => (c.modifyListener index fun l => { l with overrides := some overrides },
          .error e)
      | .ok overrides =>
        -- an override block that is empty now is dropped
        (c.modifyListener index fun l =>
          { l with overrides := if isEmptyOverride overrides then none else some overrides },
            .ok ())

/-! ### The slots -/

/-- Where a value of the screen goes. -/
inductive Slot
  | bind (index : ℕ)
  | listenerAuth (index : ℕ)
  | global (key : Setting)
  | override (index : ℕ) (key : Setting)

/-- `Slot::set` up to `validate`. -/
def Slot.write (raw : Text) : Slot → Config × Except Text Unit
  | .bind index =>
    let bind := trim raw
    if c.listeners.zipIdx.any fun (l, n) => n ≠ index ∧ l.bind = bind then
      (c, .error ("another listener is already bound to `".toList ++ bind ++ "`".toList))
    else (c.modifyListener index fun l => { l with bind }, .ok ())
  | .listenerAuth index =>
    match parseAuth raw with
    | .error e => (c, .error e)
    | .ok auth => (c.modifyListener index fun l => { l with auth }, .ok ())
  | .global key =>
    match key.set c raw with
    | .error e => (c, .error e)
    | .ok c => (c, .ok ())
  | .override index key => setOverride c index key (some raw)

/-- `Slot::clear` up to `validate`. -/
def Slot.erase : Slot → Config × Except Text Unit
  | .override index key => setOverride c index key none
  | _ => (c, .ok ())

section editor

variable {A : Type} [DecidableEq A] (parseAddr : Text → Option A)

/-- `validate` at the end of a write that was not refused. -/
def thenValidate (r : Config × Except Text Unit) : Config × Except Text Unit :=
  match r.2 with
  | .error e => (r.1, .error e)
  | .ok () => (r.1, validate parseAddr r.1)

/-- `Slot::set` -/
def Slot.set (slot : Slot) (c : Config) (raw : Text) : Config × Except Text Unit :=
  thenValidate parseAddr (slot.write c raw)

/-- `Slot::clear`; only an override can be cleared. -/
def Slot.clear (slot : Slot) (c : Config) : Config × Except Text Unit :=
  thenValidate parseAddr (slot.erase c)

/-! ### The model -/

/-- The editor: the configuration, what is folded away, the cursor, and if there is more to save. -/
structure Model where
  config : Config
  collapsed : List Text
  cursor : ℕ
  dirty : Bool

/-- `Model::new`: the overrides of every listener are folded away. -/
def Model.new (config : Config) : Model where
  config := config
  collapsed := (List.range config.listeners.length).map fun index =>
    "listeners[".toList ++ toDigits 10 index ++ "].overrides".toList
  cursor := 0
  dirty := false

/-- The port of a bind address: the number behind its last colon. -/
def portOf (bind : Text) : Option ℕ :=
  (parseU16 (bind.reverse.takeWhile fun c => c ≠ ':').reverse).toOption.map Fin.val

/-- One above the highest port of the configuration. -/
def nextPort : ℕ := min (((c.listeners.filterMap fun l => portOf l.bind).max?.getD 3388) + 1) 65535

/-- A new listener on the next port, open to both kinds of authentication. -/
def Config.addListener : Config :=
  { c with
    listeners := c.listeners ++
      [⟨"0.0.0.0:".toList ++ toDigits 10 (nextPort c), .both, none⟩] }

variable (m : Model)

/-- `add_listener`; the configuration is changed even if `validate` refuses it. -/
def Model.addListener : Model × Except Text Unit :=
  let config := m.config.addListener
  ({ m with config, dirty := true }, validate parseAddr config)

/-- `remove_listener`; the last listener stays. -/
def Model.removeListener (index : ℕ) : Model × Except Text Unit :=
  if m.config.listeners.length ≤ 1 then
    (m, .error "this is the only listener — a service with none accepts nothing".toList)
  else if m.config.listeners.length ≤ index then (m, .error "no such listener".toList)
  else
    let config := { m.config with listeners := m.config.listeners.eraseIdx index }
    ({ m with config, dirty := true }, validate parseAddr config)

/-- The model after a slot was written to, as `apply` and the key `x` leave it. -/
def Model.landed (r : Config × Except Text Unit) : Model × Except Text Unit :=
  match r.2 with
  | .ok () => ({ m with config := r.1, dirty := true }, .ok ())
  | .error e => ({ m with config := r.1 }, .error e)

inductive Edit
  | set (slot : Slot) (raw : Text)
  | clear (slot : Slot)
  | addListener
  | removeListener (index : ℕ)

def Model.edit : Edit → Model × Except Text Unit
  | .set slot raw => m.landed (slot.set parseAddr m.config raw)
  | .clear slot => m.landed (slot.clear parseAddr m.config)
  | .addListener => m.addListener parseAddr
  | .removeListener index => m.removeListener parseAddr index

end editor

def Edit.write : Edit → Config × Except Text Unit
  | .set slot raw => slot.write c raw
  | .clear slot => slot.erase c
  | .addListener => (c.addListener, .ok ())
  | .removeListener index =>
    if c.listeners.length ≤ 1 then
      (c, .error "this is the only listener — a service with none accepts nothing".toList)
    else if c.listeners.length ≤ index then (c, .error "no such listener".toList)
    else ({ c with listeners := c.listeners.eraseIdx index }, .ok ())

end Linrdp.Configuration
