import Linrdp.Lib.Runs

/-!
# The microphone channel

`Control` and `Watcher` of `mic.rs`: a channel for the client's microphone is asked for while an
application records and closed when none has recorded for two seconds. The watcher learns of the
fate of a channel, which the connection's task writes to, only as long as it has not closed the
channel itself. A client that refuses a channel after that is asked again; `controlled_of_heard`:
nothing else goes wrong.
-/

namespace Linrdp.Audio.MicControl

open Function Lib.Runs

inductive Channel
  | none | requested
  | opened (id : ℕ)
deriving DecidableEq

/-- `Step`; `request` is its `Open`. -/
inductive Act
  | stay | request
  | close (id : ℕ)
deriving DecidableEq

def closeDelay : ℕ := 2000

structure Control where
  channel : Channel
  (unavailable waitForStop : Bool)
  idleSince : Option ℕ

variable (c : Control)

namespace Control

def new : Control := ⟨.none, false, false, none⟩

def next (recording : Bool) (now : ℕ) : Act × Control :=
  let c := if recording then c else { c with waitForStop := false }
  match c.channel with
  | .none =>
    if recording && !c.unavailable && !c.waitForStop then (.request,
      { c with channel := .requested })
    else (.stay, c)
  | .requested => (.stay, c)
  | .opened id =>
    if recording then (.stay, { c with idleSince := none })
    else if now - c.idleSince.getD now < closeDelay then
      (.stay, { c with idleSince := some (c.idleSince.getD now) })
    else (.close id, { c with channel := .none, idleSince := none })

def assigned : Option ℕ → Control
  | some id => { c with channel := .opened id }
  | none => { c with channel := .none, unavailable := true }

def refused : Control := { c with channel := .none, unavailable := true }

def closedByClient : Control := { c with channel := .none, idleSince := none, waitForStop := true }

end Control

/-- The request the watcher is responsible for, and whether its reply was not received yet. -/
structure Current where
  request : ℕ
  waiting : Bool

/-- Where the watcher is in `tick`: at the reply, at the fate, at `next`. -/
inductive Phase
  | receiving | looking | acting

/-- The watcher and what the connection's task has to say of each request, by its number. The last
three fields are not the program's: which requests the watcher closed, and whether the client has
closed a channel and nothing was seen to stop recording since. -/
structure World where
  control : Control
  current : Option Current
  phase : Phase
  answers : ℕ → Option (Option ℕ)
  (refused closed : ℕ → Bool)
  requests : ℕ
  gaveUp : ℕ → Bool
  waits : Bool

def start : World :=
  ⟨.new, none, .receiving, fun _ => none, fun _ => false, fun _ => false, 0, fun _ => false, false⟩

namespace World

/-- A reply that was dropped counts as none. -/
def receive (s : World) : World :=
  match s.current with
  | some ⟨r, true⟩ =>
    match s.answers r with
    | some (some id) =>
      { s with control := s.control.assigned (some id), current := some ⟨r, false⟩ }
    | some none => { s with control := s.control.assigned none, current := none }
    | none => s
  | _ => s

def look (s : World) : World :=
  match s.current with
  | some c =>
    if s.refused c.request then { s with control := s.control.refused, current := none }
    else if s.closed c.request then { s with control := s.control.closedByClient, current := none }
    else s
  | none => s

def act (s : World) (recording : Bool) (now : ℕ) : World :=
  let (a, control) := s.control.next recording now
  let s := { s with control := control, waits := s.waits && recording }
  match a with
  | .stay => s
  | .request => { s with current := some ⟨s.requests, true⟩, requests := s.requests + 1 }
  | .close _ => { s with
      current := none
      gaveUp := s.current.elim s.gaveUp fun c => update s.gaveUp c.request true }

def Outstanding (s : World) (r : ℕ) : Prop :=
  r < s.requests ∧ s.answers r ≠ some none ∧ s.refused r = false ∧ s.closed r = false ∧
    s.gaveUp r = false

instance (s : World) (r : ℕ) : Decidable (s.Outstanding r) := inferInstanceAs (Decidable (_ ∧ _))

end World

open World Option

inductive Event
  /-- the next part of a `tick` -/
  | watch (recording : Bool) (now : ℕ)
  | reply (request : ℕ) (id : Option ℕ)
  | refuse (request : ℕ)
  | close (request : ℕ)

variable (s : World)

def step : Event → World
  | .watch recording now =>
    match s.phase with
    | .receiving => { s.receive with phase := .looking }
    | .looking => { s.look with phase := .acting }
    | .acting => { s.act recording now with phase := .receiving }
  | .reply r id =>
    if r < s.requests ∧ s.answers r = none then { s with answers := update s.answers r (some id) }
    else s
  | .refuse r => if r < s.requests then { s with refused := update s.refused r true } else s
  | .close r =>
    if r < s.requests then
      { s with closed := update s.closed r true, waits := s.waits || decide (s.Outstanding r) }
    else s

def sends : Event → Act
  | .watch recording now =>
    match s.phase with
    | .acting => (s.control.next recording now).1
    | _ => .stay
  | _ => .stay

def recording : Event → Bool
  | .watch recording _ => recording
  | _ => false

structure Controlled (s : World) (e : Event) : Prop where
  single : ∀ r r', s.Outstanding r → s.Outstanding r' → r = r'
  request : sends s e = .request → recording e = true ∧ (∀ r, ¬s.Outstanding r) ∧
    (∀ r, r < s.requests → s.refused r = false) ∧ s.waits = false
  close : ∀ id, sends s e = .close id →
    ∃ r, r + 1 = s.requests ∧ s.answers r = some (some id) ∧ s.gaveUp r = false

/-- A channel is refused before it is closed, and what the watcher closes was not refused. -/
def Heard (e : Event) : Prop :=
  match e with
  | .refuse r => r < s.requests → s.Outstanding r ∨ s.refused r = true
  | _ => ∀ id, sends s e = .close id → ∀ c ∈ s.current, s.refused c.request = false

def Linked : Prop :=
  match s.control.channel, s.current with
  | .none, none => True
  | .requested, some ⟨_, true⟩ => True
  | .opened id, some ⟨r, false⟩ => s.answers r = some (some id)
  | _, _ => False

def World.pending : Option ℕ := s.current.map Current.request

structure Inv (s : World) : Prop where
  linked : Linked s
  last : ∀ r ∈ s.pending, r + 1 = s.requests ∧ s.gaveUp r = false
  fresh : ∀ r, s.requests ≤ r → s.gaveUp r = false
  outstanding : ∀ r, s.Outstanding r → s.pending = some r
  refused : ∀ r < s.requests, s.refused r = true → s.control.unavailable = true ∨ s.pending = some r
  waits : s.waits = true → s.control.waitForStop = true ∨ s.control.unavailable = true ∨
    ∃ r ∈ s.pending, s.closed r = true

/-- **What `next` can do.** -/
theorem next_cases (recording : Bool) (now : ℕ) :
    ((c.next recording now).2.unavailable = c.unavailable ∧
      (c.next recording now).2.waitForStop = (c.waitForStop && recording)) ∧
    (((c.next recording now).1 = .stay ∧ (c.next recording now).2.channel = c.channel) ∨
      ((c.next recording now).1 = .request ∧ (c.next recording now).2.channel = .requested ∧
        recording = true ∧ c.channel = .none ∧ c.unavailable = false ∧ c.waitForStop = false) ∨
      ∃ id, (c.next recording now).1 = .close id ∧ (c.next recording now).2.channel = .none ∧
        recording = false ∧ c.channel = .opened id) := by
  obtain ⟨channel, unavailable, waitForStop, idleSince⟩ := c
  cases recording <;> cases channel <;> simp only [Control.next, Bool.false_eq_true, if_false,
    if_true] <;> (try split_ifs) <;> simp_all

variable {s : World}

theorem Linked.pending (h : Linked s) (hnone : s.control.channel = .none) : s.pending = none := by
  rcases hcurrent : s.current with _ | c
  · rw [World.pending, hcurrent]; rfl
  · simp [Linked, hnone, hcurrent] at h

section

variable (h : Inv s)
include h

theorem Inv.clear (hnone : s.control.channel = .none) (havailable : s.control.unavailable = false)
    (hwait : s.control.waitForStop = false) :
    (∀ r, ¬s.Outstanding r) ∧ (∀ r < s.requests, s.refused r = false) ∧ s.waits = false := by
  have hpending := h.linked.pending hnone
  refine ⟨fun r hout => ?_, fun r hlt => ?_, ?_⟩
  · have hsome := h.outstanding r hout
    rw [hpending] at hsome
    cases hsome
  · have hrefused := h.refused r hlt
    simpa [havailable, hpending] using hrefused
  · have hwaits := h.waits
    simpa [havailable, hwait, hpending] using hwaits

theorem Inv.over {r : ℕ} (hr : s.pending = some r) {control : Control} {gaveUp : ℕ → Bool}
    {waits : Bool} (hchannel : control.channel = .none) (hgave : ∀ r' ≠ r, gaveUp r' = s.gaveUp r')
    (hover : ¬World.Outstanding { s with gaveUp } r)
    (hrefused : control.unavailable = true ∨
      control.unavailable = s.control.unavailable ∧ s.refused r = false)
    (hwaits : waits = true → control.waitForStop = true ∨ control.unavailable = true) :
    Inv { s with control, current := none, gaveUp, waits } where
  linked := by simp [Linked, hchannel]
  last := by rintro r' ⟨⟩
  fresh := by
    intro r' hr'
    have hlast := (h.last r hr).1
    exact (hgave r' (by dsimp only at hr'; omega)).trans (h.fresh r' hr')
  outstanding := by
    intro r' hout
    by_cases hr' : r' = r
    · subst hr'
      exact absurd hout hover
    · obtain ⟨hlt, hanswer, href, hclosed, hgaveUp⟩ := hout
      have hsome := h.outstanding r' ⟨hlt, hanswer, href, hclosed,
          (hgave r' hr').symm.trans hgaveUp⟩
      exact absurd (some.inj (hsome.symm.trans hr)) hr'
  refused := by
    intro r' hlt href
    left
    rcases hrefused with hrefused | ⟨hsame, hrefused⟩
    · exact hrefused
    · show control.unavailable = true
      rw [hsame]
      refine (h.refused r' hlt href).resolve_right fun hp => ?_
      obtain rfl : r = r' := some.inj (hr.symm.trans hp)
      rw [hrefused] at href
      cases href
  waits := fun hw => (hwaits hw).imp_right .inl

theorem inv_receive : Inv s.receive := by
  unfold receive
  split
  · next r hcurrent =>
    have hp : s.pending = some r := by rw [pending, hcurrent]; rfl
    split
    · next id hanswer =>
      obtain ⟨-, last, fresh, outstanding, refused, waits⟩ := h
      rw [hp] at last outstanding refused waits
      exact ⟨hanswer, last, fresh, outstanding, refused, waits⟩
    · next hanswer =>
      exact h.over hp rfl (fun _ _ => rfl) (fun hout => hout.2.1 hanswer) (.inl rfl)
        fun _ => .inr rfl
    · exact h
  · exact h

theorem inv_look : Inv s.look := by
  unfold look
  split
  · next c hcurrent =>
    have hp : s.pending = some c.request := by rw [pending, hcurrent]; rfl
    split_ifs with href hclosed
    · exact h.over hp rfl (fun _ _ => rfl) (by simp [World.Outstanding, href]) (.inl rfl) fun _ =>
        .inr rfl
    · exact h.over hp rfl (fun _ _ => rfl) (by simp [World.Outstanding, hclosed])
        (.inr ⟨rfl, by simpa using href⟩) fun _ => .inl rfl
    · exact h
  · exact h

theorem inv_act (recording : Bool) (now : ℕ)
    (hheard : ∀ id, (s.control.next recording now).1 = .close id →
      ∀ c ∈ s.current, s.refused c.request = false) : Inv (s.act recording now) := by
  obtain ⟨⟨hunavailable, hstop⟩, hcases⟩ := next_cases s.control recording now
  unfold act
  rcases hnext : s.control.next recording now with ⟨a, control⟩
  simp only [hnext] at hunavailable hstop hcases hheard
  rcases hcases with ⟨rfl, hchannel⟩ | ⟨rfl, hchannel, rfl, hnone, havailable, hwait⟩ |
    ⟨id, rfl, hchannel, rfl, hopened⟩
  · refine { h with linked := ?_, refused := ?_, waits := fun hw => ?_ }
    · simpa only [Linked, hchannel] using h.linked
    · exact hunavailable ▸ h.refused
    · obtain ⟨hwaits, rfl⟩ := Bool.and_eq_true_iff.1 hw
      rw [Bool.and_true] at hstop
      rw [hunavailable, hstop]
      exact h.waits hwaits
  · -- nothing is outstanding but what is asked for now
    obtain ⟨hnew, hrefused, hwaits⟩ := h.clear hnone havailable hwait
    refine ⟨?_, ?_, ?_, ?_, ?_, ?_⟩
    · simp [Linked, hchannel]
    · rintro r ⟨⟩
      exact ⟨rfl, h.fresh _ (Nat.le_refl _)⟩
    · exact fun r hr => h.fresh r (Nat.le_of_succ_le hr)
    · rintro r ⟨hlt, hrest⟩
      rcases Nat.lt_succ_iff_lt_or_eq.1 hlt with hlt | rfl
      · exact absurd ⟨hlt, hrest⟩ (hnew r)
      · rfl
    · intro r hlt href
      rcases Nat.lt_succ_iff_lt_or_eq.1 hlt with hlt | rfl
      · rw [hrefused r hlt] at href
        cases href
      · exact .inr rfl
    · simp [hwaits]
  · have linked := h.linked
    rcases hcurrent : s.current with _ | c
    · simp [Linked, hopened, hcurrent] at linked
    have hp : s.pending = some c.request := by rw [pending, hcurrent]; rfl
    exact h.over hp hchannel (fun r hr => update_of_ne hr _ _) (by simp [World.Outstanding])
      (.inr ⟨hunavailable, hheard id rfl c hcurrent⟩) (by simp)

theorem inv_step {e : Event} (hheard : Heard s e) : Inv (step s e) := by
  cases e with
  | watch recording now =>
    rcases hphase : s.phase
    all_goals simp only [step, hphase]
    · exact { inv_receive h with }
    · exact { inv_look h with }
    · have hact : sends s (.watch recording now) = (s.control.next recording now).1 := by
        simp only [sends, hphase]
      exact { inv_act h recording now (hact ▸ hheard) with }
  | reply r id =>
    dsimp only [step]
    split_ifs with hr
    · have linked := h.linked
      refine { h with linked := ?_, outstanding := fun r' hout => h.outstanding r' ?_ }
      · -- the request that was answered before is another one
        rcases hchannel : s.control.channel <;> rcases hcurrent : s.current with _ | ⟨r', _ | _⟩ <;>
          simp only [Linked, hchannel, hcurrent] at linked ⊢
        rw [update_of_ne (by rintro rfl; simp [hr.2] at linked), linked]
      · simp only [World.Outstanding, update_apply] at hout ⊢
        grind
    · exact h
  | refuse r =>
    dsimp only [step]
    split_ifs with hr
    · refine { h with
        outstanding := fun r' hout => h.outstanding r' ?_, refused := fun r' hlt href => ?_ }
      · simp only [World.Outstanding, update_apply] at hout ⊢
        grind
      · by_cases hr' : r' = r
        · subst hr'
          exact (hheard hr).elim (fun hout => .inr (h.outstanding r' hout)) (h.refused r' hlt)
        · exact h.refused r' hlt ((update_of_ne hr' _ _).symm.trans href)
    · exact h
  | close r =>
    dsimp only [step]
    split_ifs with hr
    · refine { h with outstanding := fun r' hout => h.outstanding r' ?_, waits := fun hw => ?_ }
      · simp only [World.Outstanding, update_apply] at hout ⊢
        grind
      · rcases Bool.or_eq_true_iff.1 hw with hw | hw
        · refine (h.waits hw).imp_right (Or.imp_right fun ⟨r', hr', hclosed⟩ => ⟨r', hr', ?_⟩)
          simp [update_apply, hclosed]
        · exact .inr (.inr ⟨r, h.outstanding r (of_decide_eq_true hw), update_self _ _ _⟩)
    · exact h

end

theorem sends_cases {e : Event} (h : sends s e ≠ .stay) :
    ∃ recording now, e = .watch recording now ∧ sends s e = (s.control.next recording now).1 := by
  cases e with
  | watch recording now =>
    refine ⟨recording, now, rfl, ?_⟩
    rcases hphase : s.phase <;> simp_all [sends]
  | reply | refuse | close => exact absurd rfl h

theorem Inv.controlled (h : Inv s) (e : Event) : Controlled s e := by
  refine ⟨fun r r' hr hr' => ?_, fun hsends => ?_, fun id hsends => ?_⟩
  · exact some.inj ((h.outstanding r hr).symm.trans (h.outstanding r' hr'))
  · obtain ⟨recording, now, rfl, hnext⟩ := sends_cases (s := s) (e := e) (by simp [hsends])
    rw [hsends] at hnext
    rcases (next_cases s.control recording now).2 with ⟨hstay, -⟩ |
      ⟨-, -, hrecording, hnone, havailable, hwait⟩ | ⟨id, hclose, -⟩
    · simp [hstay] at hnext
    · exact ⟨hrecording, h.clear hnone havailable hwait⟩
    · simp [hclose] at hnext
  · obtain ⟨recording, now, rfl, hnext⟩ := sends_cases (s := s) (e := e) (by simp [hsends])
    rw [hsends] at hnext
    rcases (next_cases s.control recording now).2 with ⟨hstay, -⟩ | ⟨hrequest, -⟩ |
      ⟨id', hclose, -, -, hopened⟩
    · simp [hstay] at hnext
    · simp [hrequest] at hnext
    · obtain rfl : id = id' := by simpa [hclose] using hnext
      have hlinked := h.linked
      rcases hcurrent : s.current with _ | ⟨r, _ | _⟩ <;>
        simp only [Linked, hopened, hcurrent] at hlinked
      have hlast := h.last r (by rw [pending, hcurrent]; rfl)
      exact ⟨r, hlast.1, hlinked, hlast.2⟩

/-- **The microphone channel is controlled** in every interleaving in which the watcher hears of
every refusal: the client refuses a channel before the watcher has closed it. -/
theorem controlled_of_heard (es : List Event) (h : Along step Heard start es) :
    Along step Controlled start es := by
  refine h.mono_inv (I := Inv) (fun s e hI hheard => inv_step hI hheard)
    (fun s e hI _ => hI.controlled e) ?_
  exact ⟨trivial, by simp [pending, start], fun _ _ => rfl, by simp [World.Outstanding, start],
    by simp [start], by simp [start]⟩

def tick (recording : Bool) (now : ℕ) : List Event := List.replicate 3 (.watch recording now)

/-- The client closes the first channel and refuses the second, which is asked for once recording
has stopped and started again. -/
def closedAndRefused : List Event :=
  tick true 0 ++ .reply 0 (some 4) :: tick true 100 ++ .close 0 :: tick true 200 ++
    tick false 300 ++ tick true 400 ++ .reply 1 (some 5) :: .refuse 1 :: tick true 500

theorem controlled_closedAndRefused : Along step Heard start closedAndRefused ∧
    Along step Controlled start closedAndRefused := by
  have hheard : Along step Heard start closedAndRefused := by
    simp [closedAndRefused, tick, List.replicate, Along, Heard, sends, step, start, receive, look,
      act, Control.next, Control.new, Control.assigned, Control.closedByClient, Control.refused,
      World.Outstanding, update_apply]
  exact ⟨hheard, controlled_of_heard _ hheard⟩

def recordedOnce : List Event :=
  tick true 0 ++ .reply 0 (some 4) :: tick false 100 ++ tick false 2100

/-- **Counterexample.** The client refuses the channel only after the watcher has closed it, and is
asked again. -/
theorem asked_again_after_refusal :
    ¬Along step Controlled start (recordedOnce ++ .refuse 0 :: tick true 3000) := by
  rw [along_append]
  rintro ⟨-, -, -, -, hcontrolled, -⟩
  exact absurd ((hcontrolled.request rfl).2.2.1 0 (by decide)) (by decide)

end Linrdp.Audio.MicControl
