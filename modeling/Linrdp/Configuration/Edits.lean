import Linrdp.Configuration.Editor
import Linrdp.Lib.Runs

/-!
# Which edits are transactions

An edit of a valid configuration should end in a valid one, and a refused edit should change nothing
(`Transactional`). The editor writes first and asks `validate` then, and an override that is refused
for its text has put in the blocks it goes into. `transactional_iff`: a run is a transaction exactly
if every edit of it is `Clean`, that is, asks for something well formed or is refused before it has
written anything.
-/

namespace Linrdp.Configuration

open Lib.Runs Lib.TextLines

section edits

variable {A : Type} [DecidableEq A] (parseAddr : Text → Option A)

def step (m : Model) (e : Edit) : Model := (m.edit parseAddr e).1

/-- The edit ends in a valid configuration, and changes nothing if it is refused. -/
def Transactional (m : Model) (e : Edit) : Prop :=
  Valid parseAddr (step parseAddr m e).config ∧
    ∀ refusal, (m.edit parseAddr e).2 = .error refusal → step parseAddr m e = m

variable (c : Config)

/-- The configuration an edit asks for, unless it is refused before it has written anything to the
end. -/
def Edit.asked (e : Edit) : Option Config :=
  match (e.write c).2 with
  | .ok () => some (e.write c).1
  | .error _ => none

/-- The blocks that an override is to go into, and that stay when its text is refused, are there. -/
def Edit.Prepared : Edit → Prop
  | .set (.override index key) _ => key.overrideRefusal = none →
    ∀ l, c.listeners[index]? = some l → l.overrides = some (key.openBlocks (l.overrides.getD {}))
  | _ => True

/-- What the edit asks for is well formed; or it is refused before it has written anything. -/
def Clean (m : Model) (e : Edit) : Prop :=
  match e.asked m.config with
  | some c => Wellformed parseAddr c
  | none => e.Prepared m.config

variable {parseAddr}

theorem edit_eq (parseAddr : Text → Option A) (m : Model) (e : Edit) :
    (∃ refusal, (e.write m.config).2 = .error refusal ∧
      m.edit parseAddr e = ({ m with config := (e.write m.config).1 }, .error refusal)) ∨
    (e.write m.config).2 = .ok () ∧ (m.edit parseAddr e).1.config = (e.write m.config).1 ∧
      (m.edit parseAddr e).2 = validate parseAddr (e.write m.config).1 := by
  have hslot : ∀ r : Config × Except Text Unit,
      (∃ refusal, r.2 = .error refusal ∧
        m.landed (thenValidate parseAddr r) = ({ m with config := r.1 }, .error refusal)) ∨
      r.2 = .ok () ∧ (m.landed (thenValidate parseAddr r)).1.config = r.1 ∧
        (m.landed (thenValidate parseAddr r)).2 = validate parseAddr r.1 := by
    rintro ⟨c, refusal | ⟨⟩⟩
    · exact .inl ⟨refusal, rfl, rfl⟩
    · refine .inr ⟨rfl, ?_⟩
      unfold Model.landed thenValidate
      dsimp only
      rcases validate parseAddr c with problem | ⟨⟩
      · exact ⟨rfl, rfl⟩
      · exact ⟨rfl, rfl⟩
  rcases e with ⟨slot, raw⟩ | slot | _ | index
  · exact hslot (slot.write m.config raw)
  · exact hslot (slot.erase m.config)
  · exact .inr ⟨rfl, rfl, rfl⟩
  · rw [Edit.write, Model.edit, Model.removeListener]
    split_ifs with honly hindex
    · exact .inl ⟨_, rfl, rfl⟩
    · exact .inl ⟨_, rfl, rfl⟩
    · exact .inr ⟨rfl, rfl, rfl⟩

/-! ### What a refusal leaves -/

theorem modifyListener_eq_self_iff (index : ℕ) (f : Listener → Listener) :
    c.modifyListener index f = c ↔ ∀ l, c.listeners[index]? = some l → f l = l := by
  have hlist : c.modifyListener index f = c ↔ c.listeners.modify index f = c.listeners := by
    constructor
    · exact fun h => congrArg Config.listeners h
    · intro h
      rw [Config.modifyListener, h]
  rw [hlist]
  constructor
  · intro h l hl
    have hget := congrArg (fun ls => ls[index]?) h
    simp only [List.getElem?_modify_eq, hl] at hget
    exact Option.some.inj hget
  · intro h
    refine List.ext_getElem? fun n => ?_
    rcases hl : c.listeners[n]? with _ | l
    · simp [List.getElem?_modify, hl]
    · by_cases hn : index = n
      · subst hn
        simp [hl, h l hl]
      · simp [hl, hn]

theorem setOverride_error_iff {c : Config} {index : ℕ} {key : Setting} {raw : Option Text}
    {refusal : Text} (h : (setOverride c index key raw).2 = .error refusal) :
    (setOverride c index key raw).1 = c ↔ (key.overrideRefusal = none →
      ∀ l, c.listeners[index]? = some l → l.overrides = some
      (key.openBlocks (l.overrides.getD {}))) := by
  unfold setOverride at h ⊢
  rcases hkey : key.overrideRefusal with _ | reason
  · rw [hkey] at h
    dsimp only at h ⊢
    rw [forall_prop_of_true rfl]
    rcases hl : c.listeners[index]? with _ | l
    · simp
    · rw [hl] at h
      dsimp only at h ⊢
      rcases hassign : key.assign raw (key.openBlocks (l.overrides.getD {})) with e | o
      · dsimp only
        rw [modifyListener_eq_self_iff, hl]
        constructor
        · rintro hsame l' heq
          obtain rfl := Option.some.inj heq
          exact (congrArg Listener.overrides (hsame l rfl)).symm
        · rintro hsame l' heq
          obtain rfl := Option.some.inj heq
          rw [← hsame l rfl]
      · rw [hassign] at h
        cases h
  · simp

theorem assign_none (o : Overrides) {key : Setting} (h : key.overrideRefusal = none) :
    ∃ o', key.assign none o = .ok o' := by
  cases key with
  | displayRange | maxWorkers | maxPerClient | handshakeSeconds | logLevel | logFile => cases h
  | _ => exact ⟨_, rfl⟩

theorem setOverride_none_error {c : Config} {index : ℕ} {key : Setting} {refusal : Text}
    (h : (setOverride c index key none).2 = .error refusal) :
    (setOverride c index key none).1 = c := by
  unfold setOverride at h ⊢
  rcases hkey : key.overrideRefusal with _ | reason
  · rw [hkey] at h
    dsimp only at h ⊢
    rcases hl : c.listeners[index]? with _ | l
    · rfl
    · rw [hl] at h
      dsimp only at h
      obtain ⟨o, ho⟩ := assign_none (key.openBlocks (l.overrides.getD {})) hkey
      rw [ho] at h
      cases h
  · rfl

/-- **A write that is refused changes nothing**, except for the blocks of an override. -/
theorem write_error_iff {c : Config} {e : Edit} {refusal : Text}
    (h : (e.write c).2 = .error refusal) : (e.write c).1 = c ↔ e.Prepared c := by
  rcases e with ⟨index | index | key | ⟨index, key⟩,
    raw⟩ | ⟨index | index | key | ⟨index, key⟩⟩ | _ | index
  · rw [Edit.write, Slot.write] at h ⊢
    refine iff_of_true ?_ trivial
    dsimp only at h ⊢
    split at h
    · rename_i hclash
      rw [if_pos hclash]
    · cases h
  · rw [Edit.write, Slot.write] at h ⊢
    refine iff_of_true ?_ trivial
    rcases hparse : parseAuth raw with e | auth
    · rfl
    · rw [hparse] at h
      cases h
  · rw [Edit.write, Slot.write] at h ⊢
    refine iff_of_true ?_ trivial
    rcases hset : key.set c raw with e | c'
    · rfl
    · rw [hset] at h
      cases h
  · exact setOverride_error_iff h
  · cases h
  · cases h
  · cases h
  · exact iff_of_true (setOverride_none_error h) trivial
  · cases h
  · refine iff_of_true ?_ trivial
    rw [Edit.write] at h ⊢
    split_ifs at h ⊢
    · rfl
    · rfl

/-! ### Edits and runs of edits -/

theorem transactional_iff_clean {m : Model} (hm : Valid parseAddr m.config) (e : Edit) :
    Transactional parseAddr m e ↔ Clean parseAddr m e := by
  unfold Transactional Clean Edit.asked step
  rcases edit_eq parseAddr m e with ⟨refusal, hwrite, hedit⟩ | ⟨hwrite, hconfig, hresult⟩
  · rw [hwrite, hedit]
    dsimp only
    rw [← write_error_iff hwrite]
    constructor
    · rintro ⟨-, hsame⟩
      exact congrArg Model.config (hsame refusal rfl)
    · intro hsame
      rw [hsame]
      exact ⟨hm, fun _ _ => rfl⟩
  · rw [hwrite, hconfig, hresult]
    dsimp only
    rw [← problems_eq_nil_iff, ← valid_iff_problems]
    refine ⟨And.left, fun hvalid => ⟨hvalid, fun refusal herror => ?_⟩⟩
    rw [Valid, herror] at hvalid
    cases hvalid

/-- **Which runs of edits are transactions**, from a valid configuration. -/
theorem transactional_iff (parseAddr : Text → Option A) (m : Model) (hm : Valid parseAddr m.config)
    (edits : List Edit) :
    Along (step parseAddr) (Transactional parseAddr) m edits ↔
      Along (step parseAddr) (Clean parseAddr) m edits := by
  -- a transaction leaves a valid configuration, so the next edit starts from one
  have hstep : ∀ (m : Model) (e : Edit), Valid parseAddr m.config → True →
      (Transactional parseAddr m e ↔ Clean parseAddr m e) ∧
        (Transactional parseAddr m e → Valid parseAddr (step parseAddr m e).config) := by
    intro m e hm _
    exact ⟨transactional_iff_clean hm e, And.left⟩
  exact along_iff_along (I := fun m : Model => Valid parseAddr m.config) (D := fun _ _ => True)
    hstep hm
    (along_of_forall fun _ _ => trivial)

end edits

/-! ### IPv4 -/

def decimal (t : Text) : ℕ := t.foldl (fun n c => 10 * n + (c.toNat - '0'.toNat)) 0

def parseOctet (t : Text) : Option ℕ :=
  if t ≠ [] ∧ t.all Char.isDigit ∧ t.length ≤ 3 ∧ (t.head? = some '0' → t.length = 1) ∧
    decimal t ≤ 255 then
    some (decimal t)
  else none

/-- `SocketAddr::from_str` on what is not an IPv6 address. -/
def parseSocketV4 (t : Text) : Option (List ℕ × ℕ) :=
  match splitOnce ':' t with
  | none => none
  | some (ip, port) =>
    match (ip.splitOn '.').map parseOctet with
    | [some a, some b, some c, some d] =>
      if port ≠ [] ∧ port.all Char.isDigit ∧ decimal port ≤ 65535 then some
        ([a, b, c, d], decimal port)
      else none
    | _ => none

def Config.builtinDefault : Config where
  listeners := [⟨"0.0.0.0:3389".toList, .both, none⟩]

theorem transactional_usb : Valid parseSocketV4 (Model.new .builtinDefault).config ∧
    (Along (step parseSocketV4) (Transactional parseSocketV4) (.new .builtinDefault)
        [.set (.global .usb) "true".toList] ↔
      Along (step parseSocketV4) (Clean parseSocketV4) (.new .builtinDefault)
        [.set (.global .usb) "true".toList]) :=
  ⟨by decide +kernel, transactional_iff parseSocketV4 (.new .builtinDefault) (by decide +kernel) _⟩

/-- A host name is refused as an address, and stands in the configuration all the same. -/
theorem refused_bind_lands :
    ¬Along (step parseSocketV4) (Transactional parseSocketV4) (.new .builtinDefault)
      [.set (.bind 0) "localhost:3389".toList] := by
  rintro ⟨⟨hvalid, -⟩, -⟩
  revert hvalid
  decide +kernel

end Linrdp.Configuration
