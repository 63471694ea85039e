import Linrdp.Session.LeaseInv

/-!
# Display numbers are exclusive

What the leases are for, over every interleaving of the system calls of any processes. No two live
leases are on one number (`Exclusive`); a claim is held without a gap from its award, through the
hand-over to the keeper, to its end (`Continuous`); every number below an awarded one was tried at a
moment when another description had the lock on it or an X server answered (`TriedBefore`); and
dropping a lease touches no file of another one (`DropsOwn`). `stepTasks` says once what an event
does to the tasks.
-/

namespace Linrdp.Session.Lease

open List Lib.Flock Lib.Runs Session.Registry World

/-! ### The claim -/

def Task.claim : Task → Option (ℕ × ℕ)
  | .lease _ n fd | .dropping _ n fd | .handing _ n fd _ | .child _ n fd | .keeper _ n fd
  | .adopting _ n fd _ _ => some (fd, n)
  | .finished | .allocating .. | .refusing .. | .probing .. => none

/-- A `DisplayLease` on the number, that was not dropped yet. -/
def Task.holdsLease : Task → Option (ℕ × ℕ)
  | .lease _ n fd | .dropping _ n fd => some (fd, n)
  | _ => none

def Claimed (w : World) (fd n : ℕ) : Prop :=
  ∃ (t : ℕ) (task : Task), w.tasks[t]? = some task ∧ task.claim = some (fd, n)

/-! ### What a step does to the tasks -/

def Task.isAllocating : Task → Bool
  | .allocating .. => true
  | _ => false

inductive Advance (w : World) : Event → ℕ → Task → Task → Prop
  | opened (t : ℕ) (p : Pid) (range : DisplayRange) (passed : List (ℕ × Reason)) (rest : List ℕ)
      (fd : ℕ) :
    Advance w (.openLock t true) t (.allocating p range passed rest .opening)
      (.allocating p range passed rest (.opened fd))
  | locked (t : ℕ) (p : Pid) (range : DisplayRange) (passed : List (ℕ × Reason)) (rest : List ℕ)
      (fd : ℕ) :
    Advance w (.flock t) t (.allocating p range passed rest (.opened fd))
      (.allocating p range passed rest (.locked fd))
  | held (t : ℕ) (p : Pid) (range : DisplayRange) (passed : List (ℕ × Reason)) (rest : List ℕ)
      (fd : ℕ)
    (hheld : (w.files.lock fd).1 = false) :
    Advance w (.flock t) t (.allocating p range passed rest (.opened fd))
      (.allocating p range passed rest (.passing fd .held))
  | served (t : ℕ) (p : Pid) (range : DisplayRange) (passed : List (ℕ × Reason)) (n : ℕ)
      (rest : List ℕ)
    (fd : ℕ) :
    Advance w (.isServed t true) t (.allocating p range passed (n :: rest) (.locked fd))
      (.allocating p range passed (n :: rest) (.passing fd .served))
  | passed (t : ℕ) (p : Pid) (range : DisplayRange) (passed : List (ℕ × Reason)) (n : ℕ)
      (rest : List ℕ)
    (fd : ℕ) (why : Reason) :
    Advance w (.close t) t (.allocating p range passed (n :: rest) (.passing fd why))
      (.allocating p range (passed ++ [(n, why)]) rest .opening)
  /-- the file of a dropped lease is closed -/
  | dropped (t : ℕ) (p : Pid) (n fd : ℕ) : Advance w (.close t) t (.dropping p n fd) .finished
  /-- the worker closes its copy -/
  | handed (t : ℕ) (p : Pid) (n fd : ℕ) (forked : Bool) :
    Advance w (.close t) t (.handing p n fd forked) .finished
  /-- the descriptor is not one of the number's lock file -/
  | mismatched (t : ℕ) (p : Pid) (n fd : ℕ)
    (hfile : ((w.files.descs fd).any fun d => d.file == n) = false) :
    Advance w (.adopt t) t (.keeper p n fd) (.refusing p fd)
  /-- the number was free after all -/
  | refused (t : ℕ) (p : Pid) (n fd second : ℕ) :
    Advance w (.close t) t (.adopting p n fd second (some true)) (.refusing p fd)
  /-- the claim goes on -/
  | keeps {e : Event} {t : ℕ} {task task' : Task} {c : ℕ × ℕ} (hclaim : task.claim = some c)
    (hclaim' : task'.claim = some c) : Advance w e t task task'
  /-- a task without a claim: one is awarded, or the task goes towards its end -/
  | free {e : Event} {t : ℕ} {task task' : Task} (hclaim : task.claim = none)
    (hother : task'.isAllocating = false) : Advance w e t task task'

inductive StepTasks (w : World) (e : Event) : Prop
  | same (h : (w.step e).tasks = w.tasks)
  | advance (t : ℕ) (task task' : Task) (new : List Task) (now : w.tasks[t]? = some task)
    (h : Advance w e t task task') (hnew : ∀ task ∈ new, task.isAllocating = false)
    (htasks : (w.step e).tasks = w.tasks.set t task' ++ new)
  | allocate (p : Pid) (range : DisplayRange)
    (htasks : (w.step e).tasks = w.tasks ++ [.allocating p range [] range.numbers .opening])
  | probe (p : Pid) (fd : ℕ) (htasks : (w.step e).tasks = w.tasks ++ [.probing p fd none])
  | exit (p : Pid) (he : e = .exit p) (htasks : (w.step e).tasks = endProc w.tasks p)

section advance

variable {w : World} {e : Event} {t : ℕ} {task task' : Task} {files : Table ℕ Pid}

theorem StepTasks.set {w' : World} (now : w.tasks[t]? = some task) (h : Advance w e t task task')
    (hstep : w.step e = w') (htasks : w'.tasks = w.tasks.set t task') : StepTasks w e :=
  .advance t task task' [] now h nofun (by rw [hstep, htasks, append_nil])

section

variable (w : World) (t : ℕ)

theorem stepTasks_openLock (ok : Bool) : StepTasks w (.openLock t ok) := by
  have hstep : w.step (.openLock t ok) = w.openLock t ok := rfl
  unfold openLock at hstep
  split at hstep
  case h_1 now =>
    cases ok with
    | true => exact .set now (.opened ..) hstep rfl
    | false => exact .set now (.free rfl rfl) hstep rfl
  case h_2 now => exact .set now (.free rfl rfl) hstep rfl
  case h_3 => exact .same (by rw [hstep])

theorem stepTasks_flock : StepTasks w (.flock t) := by
  have hstep : w.step (.flock t) = w.flock t := rfl
  unfold flock at hstep
  split at hstep
  case h_1 fd now =>
    cases hlock : (w.files.lock fd).1 with
    | true => exact .set now (.locked ..) hstep (by rw [hlock]; rfl)
    | false => exact .set now (.held _ _ _ _ _ _ hlock) hstep (by rw [hlock]; rfl)
  case h_2 now => exact .set now (.keeps rfl rfl) hstep rfl
  case h_3 now => exact .set now (.free rfl rfl) hstep rfl
  case h_4 => exact .same (by rw [hstep])

theorem stepTasks_isServed (answer : Bool) : StepTasks w (.isServed t answer) := by
  have hstep : w.step (.isServed t answer) = w.isServed t answer := rfl
  unfold isServed at hstep
  split at hstep
  case h_1 now =>
    cases answer with
    | true => exact .set now (.served ..) hstep rfl
    | false => exact .set now (.free rfl rfl) hstep rfl
  case h_2 => exact .same (by rw [hstep])

theorem stepTasks_close : StepTasks w (.close t) := by
  have hstep : w.step (.close t) = w.close t := rfl
  unfold close at hstep
  split at hstep
  case h_1 now => exact .set now (.passed ..) hstep rfl
  case h_2 now => exact .set now (.dropped ..) hstep rfl
  case h_3 now => exact .set now (.handed ..) hstep rfl
  case h_4 free now =>
    cases free with
    | true => exact .set now (.refused ..) hstep rfl
    | false => exact .set now (.keeps rfl rfl) hstep rfl
  case h_5 now | h_6 now => exact .set now (.free rfl rfl) hstep rfl
  case h_7 => exact .same (by rw [hstep])

theorem stepTasks_forkKeeper (child : Pid) : StepTasks w (.forkKeeper t child) := by
  have hstep : w.step (.forkKeeper t child) = w.forkKeeper t child := rfl
  unfold forkKeeper at hstep
  split at hstep
  case h_1 p n fd now =>
    split_ifs at hstep
    · exact .advance t _ (.handing p n fd true) [.child child n fd] now (.keeps rfl rfl)
        (forall_mem_singleton.2 rfl) (by rw [hstep])
    · exact .same (by rw [hstep])
  case h_2 => exact .same (by rw [hstep])

theorem stepTasks_adopt : StepTasks w (.adopt t) := by
  have hstep : w.step (.adopt t) = w.adopt t := rfl
  unfold adopt at hstep
  split at hstep
  case h_1 now =>
    split_ifs at hstep with hfile
    · exact .set now (.keeps rfl rfl) hstep rfl
    · exact .set now (.mismatched _ _ _ _ (by simpa using hfile)) hstep rfl
  case h_2 => exact .same (by rw [hstep])

end

/-- **What a step can do.** -/
theorem stepTasks (w : World) (e : Event) : StepTasks w e := by
  cases e with
  | allocate p range => exact .allocate p range rfl
  | probe p n => exact .probe p _ rfl
  | openLock t ok => exact stepTasks_openLock w t ok
  | flock t => exact stepTasks_flock w t
  | isServed t answer => exact stepTasks_isServed w t answer
  | close t => exact stepTasks_close w t
  | recordOwner t user =>
    refine .same ?_
    show (w.recordOwner t user).tasks = w.tasks
    unfold recordOwner
    split <;> rfl
  | drop t =>
    have hstep : w.step (.drop t) = w.drop t := rfl
    unfold World.drop at hstep
    split at hstep
    case h_1 now => exact .set now (.keeps rfl rfl) hstep rfl
    case h_2 => exact .same (by rw [hstep])
  | intoHandoffFd t =>
    have hstep : w.step (.intoHandoffFd t) = w.intoHandoffFd t := rfl
    unfold intoHandoffFd at hstep
    split at hstep
    case h_1 now => exact .set now (.keeps rfl rfl) hstep rfl
    case h_2 => exact .same (by rw [hstep])
  | forkKeeper t child => exact stepTasks_forkKeeper w t child
  | execKeeper t =>
    have hstep : w.step (.execKeeper t) = w.execKeeper t := rfl
    unfold execKeeper at hstep
    split at hstep
    case h_1 now =>
      split_ifs at hstep
      · exact .set now (.keeps rfl rfl) hstep rfl
      · exact .same (by rw [hstep])
    case h_2 => exact .same (by rw [hstep])
  | detach t child =>
    have hstep : w.step (.detach t child) = w.detach t child := rfl
    unfold detach at hstep
    split at hstep
    case h_1 now =>
      split_ifs at hstep
      · exact .set now (.keeps rfl rfl) hstep rfl
      · exact .same (by rw [hstep])
    case h_2 => exact .same (by rw [hstep])
  | adopt t => exact stepTasks_adopt w t
  | fork p child => exact .same rfl
  | exit p => exact .exit p rfl rfl

end advance

/-! ### The claim goes on -/

variable {w : World} {n : ℕ}

theorem holds_of_claimed (h : Inv w) {fd : ℕ} (hc : Claimed w fd n) :
    ∃ p, w.files.Holds p fd n := by
  obtain ⟨t, task, ht, hclaim⟩ := hc
  have hok := h.ok t task ht
  cases task with
  | lease p m fd' | dropping p m fd' | handing p m fd' _ | child p m fd' | keeper p m fd' =>
    cases hclaim
    exact ⟨p, hok⟩
  | adopting p m fd' second free =>
    cases hclaim
    exact ⟨p, hok.1⟩
  | finished | allocating | refusing | probing => cases hclaim

/-- A claim ends with its last holder: the file of a dropped lease, or the worker's after a
hand-over that came to nothing, is closed; or the process ends that all who have the claim belong
to. -/
def Ends (w : World) (e : Event) (fd n : ℕ) : Prop :=
  (∃ t p, e = .close t ∧ (w.tasks[t]? = some (.dropping p n fd) ∨
      ∃ forked, w.tasks[t]? = some (.handing p n fd forked)) ∧
    ∀ (t' : ℕ) (task : Task), w.tasks[t']? = some task → task.claim = some (fd, n) → t' = t) ∨
  ∃ p, e = .exit p ∧
    ∀ (t : ℕ) (task : Task), w.tasks[t]? = some task → task.claim = some (fd, n) →
    task.proc = some p

def Continuous (w : World) (e : Event) : Prop :=
  ∀ fd n, Claimed w fd n → (∃ p, w.files.Holds p fd n) ∧ (Claimed (w.step e) fd n ∨ Ends w e fd n)

variable {t : ℕ} {task : Task} {e : Event}

section continuity

variable {w : World} {fd n : ℕ}

theorem claimed_append (hc : Claimed w fd n) {w' : World} {new : List Task}
    (htasks : w'.tasks = w.tasks ++ new) : Claimed w' fd n := by
  obtain ⟨t, other, hother, hclaim⟩ := hc
  exact ⟨t, other, htasks ▸ getElem?_append_of_eq_some hother new, hclaim⟩

theorem claimed_set {w' : World} {task' : Task} {new : List Task}
    (now : w.tasks[t]? = some task) (htasks : w'.tasks = w.tasks.set t task' ++ new)
    {t' : ℕ} {other : Task} (hother : w.tasks[t']? = some other)
    (hclaim : other.claim = some (fd, n)) (hsame : t' = t → task'.claim = some (fd, n)) :
    Claimed w' fd n := by
  have hset : Claimed ⟨w.files, w.lockFiles, w.owner, w.tasks.set t task'⟩ fd n := by
    by_cases ht : t' = t
    · refine ⟨t, task', ?_, hsame ht⟩
      rw [getElem?_set_self', now]
      rfl
    · exact ⟨t', other, by rw [getElem?_set_ne (Ne.symm ht), hother], hclaim⟩
  exact claimed_append hset htasks

theorem Advance.claim {task' : Task} (h : Inv w) (hadv : Advance w e t task task')
    (now : w.tasks[t]? = some task) (hclaim : task.claim = some (fd, n))
    (hlast : ∀ (t' : ℕ) (task : Task), w.tasks[t']? = some task → task.claim = some (fd, n) →
    t' = t) : task'.claim = some (fd, n) ∨ Ends w e fd n := by
  cases hadv with
  | opened | locked | held | served | passed => cases hclaim
  | dropped _ p m fd' =>
    cases hclaim
    exact .inr (.inl ⟨t, p, rfl, .inl now, hlast⟩)
  | handed _ p m fd' forked =>
    cases hclaim
    exact .inr (.inl ⟨t, p, rfl, .inr ⟨forked, now⟩, hlast⟩)
  | mismatched _ p m fd' hfile =>
    obtain ⟨d, hd, hdfile, -⟩ : w.files.Holds p fd' m := h.ok t _ now
    rw [hd] at hfile
    simp [hdfile] at hfile
  | refused _ p m fd' second =>
    obtain ⟨-, -, -, hfree⟩ := h.ok t _ now
    exact absurd rfl hfree
  | keeps hsame hsame' =>
    rw [hsame] at hclaim
    exact .inl (hsame'.trans hclaim)
  | free hnone _ =>
    rw [hnone] at hclaim
    cases hclaim

theorem continuous_step (h : Inv w) (e : Event) : Continuous w e := by
  intro fd n hc
  refine ⟨holds_of_claimed h hc, ?_⟩
  cases stepTasks w e with
  | same hsame => exact .inl (claimed_append hc (hsame.trans (append_nil _).symm))
  | allocate p range htasks | probe p fd' htasks => exact .inl (claimed_append hc htasks)
  | advance t task task' new now hadv _ htasks =>
    by_cases hlast : ∀ (t' : ℕ) (task : Task), w.tasks[t']? = some task →
      task.claim = some (fd, n) → t' = t
    · obtain ⟨t', other, hother, hclaim⟩ := hc
      obtain rfl := hlast t' other hother hclaim
      obtain rfl := Option.some.inj (hother.symm.trans now)
      exact (hadv.claim h now hclaim hlast).imp_left fun hsame =>
        claimed_set now htasks now hclaim fun _ => hsame
    · -- another task has the claim, and does not move
      push Not at hlast
      obtain ⟨t', other, hother, hclaim, hne⟩ := hlast
      exact .inl (claimed_set now htasks hother hclaim fun heq => absurd heq hne)
  | exit p he htasks =>
    by_cases hall : ∀ (t : ℕ) (task : Task), w.tasks[t]? = some task → task.claim = some (fd, n) →
        task.proc = some p
    · exact .inr (.inr ⟨p, he, hall⟩)
    · push Not at hall
      obtain ⟨t, task, ht, hclaim, hproc⟩ := hall
      refine .inl ⟨t, task, ?_, hclaim⟩
      rw [htasks, endProc, getElem?_map, ht, Option.map_some, if_neg hproc]

end continuity

/-! ### The numbers an allocation passes over -/

/-- The number is tried by the task, and cannot be had: another description has the lock on it, or
an X server answers. -/
def Tried (w : World) (e : Event) (t m : ℕ) : Reason → Prop
  | .held => e = .flock t ∧ ∃ p range passed rest fd,
      w.tasks[t]? = some (.allocating p range passed (m :: rest) (.opened fd)) ∧
      ∃ j d, j ≠ fd ∧ w.files.descs j = some d ∧ d.locked = true ∧ d.file = m
  | .served => e = .isServed t true ∧ ∃ p range passed rest fd,
      w.tasks[t]? = some (.allocating p range passed (m :: rest) (.locked fd))

def AllocatingFrom (w : World) (e : Event) (t : ℕ) (p : Pid) (range : DisplayRange)
    (passed : List (ℕ × Reason)) (rest : List ℕ) (phase : Phase) : Prop :=
  (passed = [] ∧ phase = .opening) ∨
  (∃ phase', w.tasks[t]? = some (.allocating p range passed rest phase') ∧
    ∀ fd why, phase = .passing fd why → phase' = phase ∨ ∃ m ∈ rest.head?, Tried w e t m why) ∨
  ∃ before m fd why, w.tasks[t]? = some (.allocating p range before (m :: rest) (.passing fd why)) ∧
    passed = before ++ [(m, why)] ∧ phase = .opening

variable {p : Pid} {range : DisplayRange} {passed : List (ℕ × Reason)} {rest : List ℕ}
  {phase : Phase}

theorem Advance.allocating (h : Inv w)
    (hadv : Advance w e t task (.allocating p range passed rest phase))
    (now : w.tasks[t]? = some task) : AllocatingFrom w e t p range passed rest phase := by
  cases hadv with
  | opened | locked => exact .inr (.inl ⟨_, now, nofun⟩)
  | held _ _ _ _ _ fd hheld =>
    obtain ⟨-, m, hm, hhas⟩ := h.ok t _ now
    obtain ⟨rest', rfl⟩ : ∃ rest', rest = m :: rest' := by
      cases rest with
      | nil => cases hm
      | cons n tail =>
        cases hm
        exact ⟨tail, rfl⟩
    refine .inr (.inl ⟨_, now, fun fd' why hphase => .inr ⟨m, rfl, ?_⟩⟩)
    cases hphase
    have hcontended := Table.contended_of_lock hhas hheld
    obtain ⟨j, d, hne, hd, hlocked, hfile⟩ := (Table.contended_iff h.wf _ _).1 hcontended
    exact ⟨rfl, _, _, _, _, _, now, j, d, hne, hd, hlocked, hfile⟩
  | served _ _ _ _ n rest' fd =>
    refine .inr (.inl ⟨_, now, fun fd' why hphase => .inr ⟨n, rfl, ?_⟩⟩)
    cases hphase
    exact ⟨rfl, _, _, _, _, _, now⟩
  | passed _ _ _ before n _ fd why => exact .inr (.inr ⟨before, n, fd, why, now, rfl, rfl⟩)
  | keeps _ hclaim => cases hclaim
  | free _ hother => cases hother

theorem allocating_step (h : Inv w)
    (ht : (w.step e).tasks[t]? = some (.allocating p range passed rest phase)) :
    AllocatingFrom w e t p range passed rest phase := by
  -- a task that did not move
  have hold : w.tasks[t]? = some (.allocating p range passed rest phase) →
      AllocatingFrom w e t p range passed rest phase := fun hsame =>
    .inr (.inl ⟨phase, hsame, fun _ _ _ => .inl rfl⟩)
  cases stepTasks w e with
  | same hsame =>
    rw [hsame] at ht
    exact hold ht
  | allocate q range' htasks =>
    rw [htasks] at ht
    rcases getElem?_concat_cases ht with ⟨-, heq⟩ | ⟨-, hsame⟩
    · cases heq
      exact .inl ⟨rfl, rfl⟩
    · exact hold hsame
  | probe q fd htasks =>
    rw [htasks] at ht
    rcases getElem?_concat_cases ht with ⟨-, heq⟩ | ⟨-, hsame⟩
    · cases heq
    · exact hold hsame
  | advance t₀ task task' new now hadv hnew htasks =>
    rw [htasks, getElem?_append] at ht
    split_ifs at ht with hlt
    · rcases getElem?_set_cases ht with ⟨rfl, rfl⟩ | ⟨-, hsame⟩
      · exact hadv.allocating h now
      · exact hold hsame
    · cases hnew _ (mem_of_getElem? ht)
  | exit q _ htasks =>
    rw [htasks] at ht
    rcases getElem?_endProc ht with hfinished | ⟨hsame, -⟩
    · cases hfinished
    · exact hold hsame

/-- A machine on which no process has a lock file open; there may be any lock and owner files. -/
def boot (lockFiles : ℕ → Bool) (owner : ℕ → Option String) :
    World := ⟨.empty, lockFiles, owner, []⟩

theorem inv_boot (lockFiles : ℕ → Bool) (owner : ℕ → Option String) :
    Inv (boot lockFiles owner) := by
  refine ⟨Table.wf_empty, ?_, ?_, ?_⟩ <;> simp [boot]

section history

variable {w₀ : World} {events : List Event}

theorem inv_stateAt (h : Inv w₀) (events : List Event) (i : ℕ) : Inv (stateAt step w₀ events i) :=
  run_inv (I := Inv) (fun _ e hI => inv_step hI e) h _

def TriedBefore (w₀ : World) (events : List Event) (i t m : ℕ) : Prop :=
  ∃ j < i, ∃ e why, events[j]? = some e ∧ Tried (stateAt step w₀ events j) e t m why

theorem TriedBefore.mono {i m : ℕ} (h : TriedBefore w₀ events i t m) :
    TriedBefore w₀ events (i + 1) t m := by
  obtain ⟨j, hj, htried⟩ := h
  exact ⟨j, by omega, htried⟩

/-- **Every number an allocation has passed over was tried.** -/
theorem triedBefore_of_passed (h : Inv w₀) (hstart : w₀.tasks = []) (i : ℕ)
    (ht : (stateAt step w₀ events i).tasks[t]? = some (.allocating p range passed rest phase)) :
    (∀ m ∈ passed.map Prod.fst, TriedBefore w₀ events i t m) ∧
      ∀ fd why, phase = .passing fd why → ∃ m ∈ rest.head?, TriedBefore w₀ events i t m := by
  induction i generalizing passed rest phase with
  | zero =>
    rw [stateAt_zero, hstart] at ht
    cases ht
  | succ i ih =>
    cases hevent : events[i]? with
    | none =>
      rw [stateAt_succ_none _ _ hevent] at ht
      obtain ⟨hpassed, hphase⟩ := ih ht
      refine ⟨fun m hm => (hpassed m hm).mono, fun fd why h => ?_⟩
      obtain ⟨m, hm, htried⟩ := hphase fd why h
      exact ⟨m, hm, htried.mono⟩
    | some e =>
      rw [stateAt_succ _ _ hevent] at ht
      rcases allocating_step (inv_stateAt h events i) ht with ⟨rfl, rfl⟩ | ⟨phase', hbefore, hnow⟩ |
        ⟨before, m, fd, why, hbefore, rfl, rfl⟩
      · exact ⟨nofun, nofun⟩
      · obtain ⟨hpassed, hphase⟩ := ih hbefore
        refine ⟨fun m hm => (hpassed m hm).mono, fun fd why h => ?_⟩
        rcases hnow fd why h with hsame | ⟨m, hm, htried⟩
        · obtain ⟨m, hm, htried⟩ := hphase fd why (hsame.trans h)
          exact ⟨m, hm, htried.mono⟩
        · exact ⟨m, hm, i, Nat.lt_succ_self i, e, why, hevent, htried⟩
      · obtain ⟨hpassed, hphase⟩ := ih hbefore
        refine ⟨fun m' hm' => ?_, nofun⟩
        rw [map_append, mem_append] at hm'
        rcases hm' with hm' | hm'
        · exact (hpassed m' hm').mono
        · obtain ⟨m'', hm'', htried⟩ := hphase fd why rfl
          cases hm''
          obtain rfl := mem_singleton.1 hm'
          exact htried.mono

end history

def Awards (w : World) (e : Event) (t : ℕ) (range : DisplayRange) (n : ℕ) : Prop :=
  e = .isServed t false ∧ ∃ p passed rest fd,
    w.tasks[t]? = some (.allocating p range passed (n :: rest) (.locked fd))

theorem mem_passed_of_lt {before : List ℕ} {m : ℕ}
    (h : before ++ n :: rest = range.numbers) (hm : m ∈ range.numbers) (hlt : m < n) :
    m ∈ before := by
  have hsorted : (before ++ n :: rest).Pairwise (· < ·) := by
    rw [h]
    exact pairwise_lt_range'
  rw [← h, mem_append] at hm
  rcases hm with hm | hm
  · exact hm
  · rcases mem_cons.1 hm with rfl | hm
    · omega
    · have hn := rel_of_pairwise_cons (pairwise_append.1 hsorted).2.1 hm
      omega

/-! ### The results -/

def Exclusive (w : World) : Prop :=
  ∀ (t t' : ℕ) (task task' : Task) (fd fd' n : ℕ), w.tasks[t]? = some task →
    w.tasks[t']? = some task' →
    task.holdsLease = some (fd, n) → task'.holdsLease = some (fd', n) → t = t'

def DropsOwn (w : World) (e : Event) : Prop :=
  ∀ t, e = .drop t ∨ e = .close t → (∀ m, w.lockFiles m = true → (w.step e).lockFiles m = true) ∧
    ∀ (t' : ℕ) (task' : Task) (fd' n' : ℕ), t' ≠ t → w.tasks[t']? = some task' →
      task'.holdsLease = some (fd', n') → (w.step e).owner n' = w.owner n'

theorem holdsLease_spec {fd : ℕ} (h : task.holdsLease = some (fd, n)) :
    task.claim = some (fd, n) ∧ fd ∈ task.own := by
  cases task with
  | lease p m fd' | dropping p m fd' =>
    cases h
    exact ⟨rfl, mem_singleton_self fd⟩
  | finished | allocating | handing | child | keeper | adopting | refusing | probing => cases h

theorem exclusive_of_inv (h : Inv w) : Exclusive w := by
  intro t t' task task' fd fd' n ht ht' hlease hlease'
  obtain ⟨hclaim, hown⟩ := holdsLease_spec hlease
  obtain ⟨hclaim', hown'⟩ := holdsLease_spec hlease'
  obtain ⟨p, hholds⟩ := holds_of_claimed h ⟨t, task, ht, hclaim⟩
  obtain ⟨p', hholds'⟩ := holds_of_claimed h ⟨t', task', ht', hclaim'⟩
  obtain rfl := hholds.unique hholds' h.wf
  exact h.apart t t' task task' fd ht ht' (.inl ⟨hown, hown'⟩)

theorem dropsOwn_step (h : Inv w) (e : Event) : DropsOwn w e := by
  rintro t (rfl | rfl)
  · rw [World.step, World.drop]
    split
    case h_1 p n fd now =>
      refine ⟨fun _ => id, fun t' task' fd' n' hne ht' hlease' => Function.update_of_ne ?_ ..⟩
      rintro rfl
      exact hne (exclusive_of_inv h t' t task' _ fd' fd n' ht' now hlease' rfl)
    case h_2 => exact ⟨fun _ => id, fun _ _ _ _ _ _ _ => rfl⟩
  · have hframe : (w.close t).lockFiles = w.lockFiles ∧ (w.close t).owner = w.owner := by
      unfold close
      split
      case h_4 => split_ifs <;> exact ⟨rfl, rfl⟩
      all_goals exact ⟨rfl, rfl⟩
    rw [step, hframe.1, hframe.2]
    exact ⟨fun _ => id, fun _ _ _ _ _ _ _ => rfl⟩

/-- **Display numbers are exclusive**, at every moment of every interleaving. -/
theorem display_numbers_exclusive (lockFiles : ℕ → Bool) (owner : ℕ → Option String)
    (events : List Event) (i : ℕ) :
    Exclusive (stateAt step (boot lockFiles owner) events i) ∧
      ∀ e ∈ events[i]?, Continuous (stateAt step (boot lockFiles owner) events i) e ∧
        DropsOwn (stateAt step (boot lockFiles owner) events i) e ∧
        ∀ t range n, Awards (stateAt step (boot lockFiles owner) events i) e t range n →
          ∀ m ∈ range.numbers, m < n → TriedBefore (boot lockFiles owner) events i t m := by
  have hboot := inv_boot lockFiles owner
  have hinv := inv_stateAt hboot events i
  refine ⟨exclusive_of_inv hinv, fun e _ => ⟨continuous_step hinv e, dropsOwn_step hinv e, ?_⟩⟩
  rintro t range n ⟨-, p, passed, rest, fd, ht⟩ m hm hlt
  obtain ⟨hnumbers, -⟩ := hinv.ok t _ ht
  exact (triedBefore_of_passed hboot rfl i ht).1 m (mem_passed_of_lt hnumbers hm hlt)

def handOver : List Event :=
  [.allocate 1 ⟨10, 12⟩, .openLock 0 true, .flock 0, .isServed 0 false, .intoHandoffFd 0,
    .forkKeeper 0 2,
    .allocate 3 ⟨10, 12⟩, .openLock 2 true, .flock 2, .close 2, .execKeeper 1, .close 0,
    .detach 1 4,
    .exit 2, .adopt 1, .openLock 2 true, .flock 2, .flock 1, .close 1, .isServed 2 false]

example : (run step (boot (fun _ => false) fun _ => none) handOver).tasks =
    [.finished, .lease 4 10 0, .lease 3 11 3] := by decide

end Linrdp.Session.Lease
