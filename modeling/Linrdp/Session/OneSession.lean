import Linrdp.Lib.Runs
import Linrdp.Session.Attach

/-!
# One account, one session

A run is any sequence of logins, lock-state changes, keepers and desktops that exit, and X servers
of others. `Single` is what a login owes an account: the session whose keeper and desktop run and
whose record is on disk is returned, with nothing deleted and nothing started; and a session whose
keeper published its record is returned by the login that created it. For X sessions this holds in
every run (`along_single`). A headless GNOME session has no X server, so the probe refuses it
(`gnome_not_single`).
-/

namespace Linrdp.Session.OneSession

open List Function Lib.Runs Session.Registry Session.Attach Attach

inductive Event
  | login (l : Login)
  /-- a disconnect locks the record, a bind or a supervisor start sets the flag as well -/
  | setLocked (display : ℕ) (locked : Bool)
  | keeperExit (display : ℕ)
  | desktopExit (display : ℕ)
  /-- an X server that is no session's starts or stops answering on a number -/
  | foreign (display : ℕ) (server : Option ℕ)

def occupied (w : World) (display : ℕ) : Bool :=
  w.sessions.any fun s => s.record.display == display && s.desktop

variable (cfg : Config)

def step (w : World) : Event → World
  | .login l => (attachOrCreate cfg w l).2
  | .setLocked d locked => { w with records := Registry.setLocked w.records d locked }
  | .keeperExit d => keeperExit w d
  | .desktopExit d => desktopExit w d
  | .foreign d server =>
    -- a socket a session's server listens on is not free for another one
    if occupied w d then w else { w with served := Function.update w.served d server }

variable (served : ℕ → Option ℕ)

def boot : World where
  records := fun _ => none
  cookies := fun _ _ => none
  served := served
  held := fun _ => false
  sessions := []

def OnDisk (w : World) (s : SessionRun) (rec : SessionRecord) : Prop :=
  w.records s.record.display = some rec ∧ rec = { s.record with locked := rec.locked }

/-- A login of the session's own case and account returns the session and changes nothing. -/
def Returned (w : World) (l : Login) : Prop :=
  ∀ s ∈ w.sessions, s.keeper = true → s.desktop = true → s.record.backend = l.backend.id →
    (∃ uid, cfg.lookupUser s.record.user = some uid ∧ cfg.lookupUser l.user = some uid) →
      ∀ rec, OnDisk w s rec → attachOrCreate cfg w l = (.ok rec, w)

/-- A creation whose keeper publishes its record, with the desktop up, succeeds. -/
def Created (w : World) (l : Login) : Prop :=
  ∀ w' d poll, attachLive w l.user cfg.range = (none, w') → allocate w' cfg.range = some d →
    l.keeper.fate = .published poll true →
      (create w' cfg.range l).1 = .ok (recordOf l.backend l.user d l.keeper)

/-- **One account, one session**, at one step. -/
def Single (w : World) : Event → Prop
  | .login l => Returned cfg w l ∧ Created cfg w l
  | _ => True

/-- The logins for which the code keeps to it: X sessions, an account typed the way its running
session is recorded, and, when a session is created, a number without a leftover record and a keeper
that publishes before the deadline. -/
def Sound (w : World) : Event → Prop
  | .login l => l.backend = .x11 ∧
      (∀ s ∈ w.sessions, s.keeper = true → s.desktop = true →
        cfg.lookupUser s.record.user = cfg.lookupUser l.user → s.record.user = l.user) ∧
      ∀ w' d poll, attachLive w l.user cfg.range = (none, w') → allocate w' cfg.range = some d →
        l.keeper.fate = .published poll true →
          poll < l.polls ∧ (poll = 0 ∨ w'.records d = none)
  | _ => True

/-! ### The invariant -/

structure Inv (cfg : Config) (w : World) : Prop where
  display : ∀ d rec, w.records d = some rec → rec.display = d
  inRange : ∀ d rec, w.records d = some rec → d ∈ cfg.range.numbers
  unique : ∀ d d' rec rec', w.records d = some rec → w.records d' = some rec' →
    rec.user = rec'.user → d = d'
  range : ∀ s ∈ w.sessions, s.record.display ∈ cfg.range.numbers
  x11 : ∀ s ∈ w.sessions, s.record.backend = Backend.x11.id
  served : ∀ s ∈ w.sessions, s.desktop = true → ∃ c, w.served s.record.display = some c
  held : ∀ s ∈ w.sessions, s.keeper = true → w.held s.record.display = true
  cookie : ∀ s ∈ w.sessions, s.keeper = true → s.desktop = true →
    w.cookies s.record.xauthority s.record.display = w.served s.record.display

variable {cfg : Config} {w : World}

theorem inv_boot : Inv cfg (boot served) := by constructor <;> simp [boot]

section

variable (h : Inv cfg w)
include h

theorem Inv.of_left {w' : World}
    (hrec : ∀ d rec, w'.records d = some rec →
      ∃ old, w.records d = some old ∧ rec.display = old.display ∧ rec.user = old.user)
    (hcookies : w'.cookies = w.cookies)
    (hold : ∀ s ∈ w'.sessions, ∃ o ∈ w.sessions, s.record = o.record ∧
      (s.desktop = true →
        o.desktop = true ∧ w'.served o.record.display = w.served o.record.display) ∧
      (s.keeper = true →
        o.keeper = true ∧ w'.held o.record.display = w.held o.record.display)) : Inv cfg w' := by
  refine ⟨fun d rec hr => ?_, fun d rec hr => ?_, fun d₁ d₂ r₁ r₂ h₁ h₂ hu => ?_, fun s hs => ?_,
    fun s hs => ?_, fun s hs hd => ?_, fun s hs hk => ?_, fun s hs hk hd => ?_⟩
  · obtain ⟨old, ho, hd, -⟩ := hrec d rec hr
    exact hd.trans (h.display d old ho)
  · obtain ⟨old, ho, -⟩ := hrec d rec hr
    exact h.inRange d old ho
  · obtain ⟨o₁, ho₁, -, hu₁⟩ := hrec d₁ r₁ h₁
    obtain ⟨o₂, ho₂, -, hu₂⟩ := hrec d₂ r₂ h₂
    exact h.unique d₁ d₂ o₁ o₂ ho₁ ho₂ (by rw [← hu₁, hu, hu₂])
  · obtain ⟨o, ho, e, -⟩ := hold s hs
    rw [e]; exact h.range o ho
  · obtain ⟨o, ho, e, -⟩ := hold s hs
    rw [e]; exact h.x11 o ho
  · obtain ⟨o, ho, e, hdesktop, -⟩ := hold s hs
    obtain ⟨hod, hserved⟩ := hdesktop hd
    rw [e, hserved]; exact h.served o ho hod
  · obtain ⟨o, ho, e, -, hkeeper⟩ := hold s hs
    obtain ⟨hok, hheld⟩ := hkeeper hk
    rw [e, hheld]; exact h.held o ho hok
  · obtain ⟨o, ho, e, hdesktop, hkeeper⟩ := hold s hs
    obtain ⟨hod, hserved⟩ := hdesktop hd
    rw [e, hserved, hcookies]; exact h.cookie o ho (hkeeper hk).1 hod

variable (d : ℕ)

theorem inv_forget : Inv cfg (forget w d) :=
  h.of_left (fun _ _ hr => ⟨_, (forgetRecord_some hr).2, rfl, rfl⟩) rfl
    fun s hs => ⟨s, hs, rfl, fun hd => ⟨hd, rfl⟩, fun hk => ⟨hk, rfl⟩⟩

theorem inv_setLocked (d : ℕ) (locked : Bool) :
    Inv cfg { w with records := Registry.setLocked w.records d locked } := by
  refine h.of_left (fun d' rec hr => ?_) rfl
    fun s hs => ⟨s, hs, rfl, fun hd => ⟨hd, rfl⟩, fun hk => ⟨hk, rfl⟩⟩
  obtain ⟨old, ho, e⟩ := setLocked_some h.display hr
  exact ⟨old, ho, by rw [e], by rw [e]⟩

theorem inv_keeperExit : Inv cfg (keeperExit w d) := by
  refine h.of_left (fun _ rec hr => ⟨rec, hr, rfl, rfl⟩) rfl fun s hs => ?_
  simp only [keeperExit, mem_map] at hs
  obtain ⟨o, ho, rfl⟩ := hs
  refine ⟨o, ho, ?_⟩
  split_ifs with hd
  · exact ⟨rfl, fun hdesktop => ⟨hdesktop, rfl⟩, by simp⟩
  · refine ⟨rfl, fun hdesktop => ⟨hdesktop, rfl⟩, fun hk => ⟨hk, ?_⟩⟩
    simp only [keeperExit]
    split_ifs
    · exact update_of_ne hd _ _
    · rfl

theorem inv_desktopExit : Inv cfg (desktopExit w d) := by
  refine h.of_left (fun d' rec hr => ⟨rec, ?_, rfl, rfl⟩) rfl fun s hs => ?_
  · simp only [desktopExit] at hr
    split_ifs at hr
    · exact (forgetRecord_some hr).2
    · exact hr
  simp only [desktopExit, mem_map] at hs
  obtain ⟨o, ho, rfl⟩ := hs
  refine ⟨o, ho, ?_⟩
  split_ifs with hd
  · simp
  · refine ⟨rfl, fun hdesktop => ⟨hdesktop, ?_⟩, fun hk => ⟨hk, ?_⟩⟩ <;>
      simp only [desktopExit] <;> split_ifs
    · exact update_of_ne hd _ _
    · rfl
    · exact update_of_ne hd _ _
    · rfl

theorem inv_foreign (server : Option ℕ) (hfree : occupied w d = false) :
    Inv cfg { w with served := Function.update w.served d server } := by
  refine h.of_left (fun _ rec hr => ⟨rec, hr, rfl, rfl⟩) rfl
    fun s hs => ⟨s, hs, rfl, fun hd => ⟨hd, update_of_ne (fun e => ?_) _ _⟩, fun hk => ⟨hk, rfl⟩⟩
  simp only [occupied, any_eq_false] at hfree
  exact hfree s hs (by simp [e, hd])

theorem inv_serve (rec : SessionRecord) (c : ℕ) (hr : rec.display ∈ cfg.range.numbers)
    (hb : rec.backend = Backend.x11.id) (hh : w.held rec.display = false)
    (hs : w.served rec.display = none)
    (hn : ∀ d ∈ cfg.range.numbers, ∀ r, w.records d = some r → r.user ≠ rec.user) :
    Inv cfg (serve .x11 w rec c) := by
  have hkept : ∀ s ∈ w.sessions, s.keeper = true → s.record.display ≠ rec.display := by
    intro s hsm hk e
    rw [← e, h.held s hsm hk] at hh
    simp at hh
  have hup : ∀ s ∈ w.sessions, s.desktop = true → s.record.display ≠ rec.display := by
    intro s hsm hd e
    obtain ⟨c', hc'⟩ := h.served s hsm hd
    rw [← e, hc'] at hs
    simp at hs
  refine ⟨fun d r hw => ?_, fun d r hw => ?_, fun d d' r r' hw hw' hu => ?_, ?_, ?_, ?_, ?_, ?_⟩
  · rcases writeRecord_some hw with ⟨rfl, rfl⟩ | ⟨-, hw⟩
    · rfl
    · exact h.display d r hw
  · rcases writeRecord_some hw with ⟨rfl, rfl⟩ | ⟨-, hw⟩
    · exact hr
    · exact h.inRange d r hw
  · rcases writeRecord_some hw with ⟨hd, hr₁⟩ | ⟨-, hold⟩ <;>
      rcases writeRecord_some hw' with ⟨hd', hr₂⟩ | ⟨-, hold'⟩
    · rw [hd, hd']
    · rw [hr₁] at hu
      exact absurd hu.symm (hn d' (h.inRange d' r' hold') r' hold')
    · rw [hr₂] at hu
      exact absurd hu (hn d (h.inRange d r hold) r hold)
    · exact h.unique d d' r r' hold hold' hu
  · exact forall_mem_cons.2 ⟨hr, h.range⟩
  · exact forall_mem_cons.2 ⟨hb, h.x11⟩
  · rintro s (_ | ⟨_, hsm⟩) hd
    · exact ⟨c, by simp [serve]⟩
    · simp only [serve]
      rw [update_of_ne (hup s hsm hd)]
      exact h.served s hsm hd
  · rintro s (_ | ⟨_, hsm⟩) hk
    · simp [serve]
    · simp only [serve]
      rw [update_of_ne (hkept s hsm hk)]
      exact h.held s hsm hk
  · rintro s (_ | ⟨_, hsm⟩) hk hd
    · simp [serve]
    · simp only [serve]
      rw [if_neg (fun e => hup s hsm hd e.2), update_of_ne (hup s hsm hd)]
      exact h.cookie s hsm hk hd

theorem inv_keeperWorld {l : Login} {d : ℕ} (hb : l.backend = .x11)
    (ha : allocate w cfg.range = some d)
    (hn : ∀ d ∈ cfg.range.numbers, ∀ r, w.records d = some r → r.user ≠ l.user) :
    Inv cfg (keeperWorld w l d) := by
  obtain ⟨hd, hh, hs⟩ := allocate_some ha
  unfold keeperWorld
  rw [hb]
  split
  · exact h
  · split_ifs
    · exact inv_forget h d
    · exact h
  · have hserve := inv_serve h (recordOf .x11 l.user d l.keeper) l.keeper.cookie
      (by simpa using hd) (by simp) (by simpa using hh) (by simpa using hs) (by simpa using hn)
    simp only
    split_ifs
    · exact hserve
    · exact inv_desktopExit hserve d

theorem inv_login {l : Login} (hb : l.backend = .x11) : Inv cfg (attachOrCreate cfg w l).2 := by
  unfold attachOrCreate
  split
  · exact h
  · cases ha : attachLive w l.user cfg.range with
    | mk found w' =>
      cases found with
      | some existing =>
        -- a live session was found, so the world is unchanged
        have hw : w' = w := by
          unfold attachLive at ha
          split at ha
          · simp at ha
          · split_ifs at ha <;> simp_all
        subst hw
        simp only
        split_ifs <;> exact h
      | none =>
        obtain ⟨hw, hn⟩ := attachLive_none ha h.display h.unique
        have h' : Inv cfg w' := by
          rcases hw with rfl | ⟨d, rfl⟩
          · exact h
          · exact inv_forget h d
        rcases create_snd w' cfg.range l with e | ⟨d, hd, e⟩
        · simp only [e]; exact h'
        · simp only [e]; exact inv_keeperWorld h' hb hd hn

theorem inv_step (e : Event) (hc : Sound cfg w e) : Inv cfg (step cfg w e) := by
  cases e with
  | login l => exact inv_login h hc.1
  | setLocked d locked => exact inv_setLocked h d locked
  | keeperExit d => exact inv_keeperExit h d
  | desktopExit d => exact inv_desktopExit h d
  | foreign d server =>
    simp only [step]
    split_ifs with hfree
    · exact h
    · exact inv_foreign h d server (by simpa using hfree)

end

/-! ### What a login gets -/

theorem returned_of_inv (h : Inv cfg w) {l : Login}
    (hname : ∀ s ∈ w.sessions, s.keeper = true → s.desktop = true →
      cfg.lookupUser s.record.user = cfg.lookupUser l.user → s.record.user = l.user) :
    Returned cfg w l := by
  rintro s hs hk hd hb ⟨uid, hu, hul⟩ rec ⟨hrec, hsame⟩
  have hsu : s.record.user = l.user := hname s hs hk hd (hu.trans hul.symm)
  have hru : rec.user = l.user := by rw [hsame]; exact hsu
  obtain ⟨c, hc⟩ := h.served s hs hd
  have hfind := find_eq_some_of_unique (h.range s hs) hrec hru fun d' rec' hr' hu' =>
    h.unique _ _ _ _ hr' hrec (hu'.trans hru.symm)
  have hlive : desktopIsLive w rec = true := by
    rw [hsame]
    exact desktopIsLive_of hc ((h.cookie s hs hk hd).trans hc)
  have hbackend : rec.backend = l.backend.id := by
    rw [hsame]
    exact hb
  unfold attachOrCreate attachLive
  simp only [hul, hfind, hlive, hbackend, if_true]

theorem along_single (cfg : Config) (served : ℕ → Option ℕ) (es : List Event)
    (h : Along (step cfg) (Sound cfg) (boot served) es) :
    Along (step cfg) (Single cfg) (boot served) es := by
  refine Along.mono_inv (I := Inv cfg) (fun w e hw hc => inv_step hw e hc) (fun w e hw hc => ?_)
    (inv_boot served) h
  cases e with
  | login l =>
    refine ⟨returned_of_inv hw hc.2.1, fun w' d poll hl ha hf => ?_⟩
    obtain ⟨hp, hn⟩ := hc.2.2 w' d poll hl ha hf
    refine create_ok ha hf hp hn (desktopIsLive_of (c := l.keeper.cookie) ?_ ?_)
    all_goals simp [keeperWorld, hf, hc.1, serve]
  | setLocked d locked | keeperExit d | desktopExit d | foreign d server => trivial

/-! ### A machine with one account -/

def site : Config where
  range := ⟨10, 20⟩
  lookupUser := fun u => if u = "alice" then some 1000 else none

/-- A login of `alice` whose keeper publishes before the third poll and stays up. -/
def alice (b : Backend) : Login where
  user := "alice"
  backend := b
  polls := 400
  keeper :=
    { runtimeDir := "/run/user/1000"
      localBus := "/run/user/1000/linrdp-session-10.bus"
      logindId := some "3"
      cookie := 77
      fate := .published 2 true }

theorem along_single_alice :
    Along (step site) (Sound site) (boot fun _ => none)
        [.login (alice .x11), .setLocked 10 true, .login (alice .x11)] ∧
      Along (step site) (Single site) (boot fun _ => none)
        [.login (alice .x11), .setLocked 10 true, .login (alice .x11)] := by
  have hs : Along (step site) (Sound site) (boot fun _ => none)
      [.login (alice .x11), .setLocked 10 true, .login (alice .x11)] := by
    refine ⟨⟨rfl, fun s hs => ?_, fun w' d poll hl ha hf => ?_⟩, trivial,
      ⟨rfl, fun s hs _ _ _ => ?_, fun w' d poll hl _ _ => ?_⟩, trivial⟩
    · simp [boot] at hs
    · obtain rfl : boot (fun _ => none) = w' := (Prod.mk.inj hl).2
      obtain ⟨rfl, -⟩ : 2 = poll ∧ true = true := Fate.published.inj hf
      exact ⟨by decide, Or.inr rfl⟩
    · obtain rfl : s = ⟨recordOf .x11 "alice" 10 (alice .x11).keeper, true, true⟩ :=
        mem_singleton.1 hs
      rfl
    · exact absurd (Prod.mk.inj hl).1 (by decide)
  exact ⟨hs, along_single site _ _ hs⟩

/-- **A headless GNOME session is refused by its own login and dropped by the next.** The keeper
published its record and runs, yet the probe wants an X server: the creating login fails, and the
second login deletes the record and starts a second session. -/
theorem gnome_not_single :
    ¬ Created site (boot fun _ => none) (alice .gnomeHeadless) ∧
      ¬ Returned site (step site (boot fun _ => none) (.login (alice .gnomeHeadless)))
        (alice .gnomeHeadless) ∧
      ¬ Along (step site) (Single site) (boot fun _ => none)
        [.login (alice .gnomeHeadless), .login (alice .gnomeHeadless)] := by
  have hc : ¬ Created site (boot fun _ => none) (alice .gnomeHeadless) := by
    intro h
    have hok := h (boot fun _ => none) 10 2 rfl rfl rfl
    have herr : (create (boot fun _ => none) site.range (alice .gnomeHeadless)).1 =
        .error .didNotSurvive := rfl
    rw [herr] at hok
    cases hok
  refine ⟨hc, fun h => ?_, fun h => hc h.1.2⟩
  have hret := h ⟨recordOf .gnomeHeadless "alice" 10 (alice .gnomeHeadless).keeper, true, true⟩
    (mem_singleton.2 rfl) rfl rfl rfl ⟨1000, rfl, rfl⟩ _ ⟨rfl, rfl⟩
  -- the second login leaves two sessions where there was one
  have hlen : (attachOrCreate site (step site (boot fun _ => none) (.login (alice .gnomeHeadless)))
      (alice .gnomeHeadless)).2.sessions.length = 2 := rfl
  rw [hret] at hlen
  exact absurd hlen (by decide)

end Linrdp.Session.OneSession
