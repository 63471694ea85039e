import Linrdp.Session.Lease

/-!
# What a lease may rely on

A task that has a claim has a descriptor for a description with the lock on its number; no two tasks
have the same description, but for a worker that handed its claim over and only has to close its
copy; and two tasks of one process never share a descriptor. `Inv.set` and `Inv.push` are the two
ways a step changes the tasks: one of them moves on, or a new one begins.
-/

namespace Linrdp.Session.Lease

open List Lib.Flock Lib.Runs Session.Registry Table World Option

def Phase.fds : Phase → List ℕ
  | .opening => []
  | .opened fd | .locked fd | .passing fd _ => [fd]

def Task.fds : Task → List ℕ
  | .finished => []
  | .allocating _ _ _ _ phase => phase.fds
  | .lease _ _ fd | .dropping _ _ fd | .handing _ _ fd _ | .child _ _ fd | .keeper _ _ fd
  | .refusing _ fd | .probing _ fd _ => [fd]
  | .adopting _ _ fd second _ => [fd, second]

def Task.own : Task → List ℕ
  | .handing _ _ _ true => []
  | task => task.fds

def Phase.Ok (files : Table ℕ Pid) (p : Pid) (rest : List ℕ) : Phase → Prop
  | .opening | .passing .. => True
  | .opened fd => ∃ n ∈ rest.head?, files.Has p fd n
  | .locked fd => ∃ n ∈ rest.head?, files.Holds p fd n

def Task.Ok (files : Table ℕ Pid) : Task → Prop
  | .finished | .refusing .. | .probing .. => True
  | .allocating p range passed rest phase =>
    passed.map Prod.fst ++ rest = range.numbers ∧ phase.Ok files p rest
  | .lease p n fd | .dropping p n fd | .handing p n fd _ | .child p n fd | .keeper p n fd =>
    files.Holds p fd n
  | .adopting p n fd second free =>
    files.Holds p fd n ∧ fd ≠ second ∧ (free = none → files.Has p second n) ∧ free ≠ some true

/-- Both tasks claim the descriptor, or they are of one process and have it. -/
def Task.Clashes (task task' : Task) (fd : ℕ) : Prop :=
  fd ∈ task.own ∧ fd ∈ task'.own ∨
    ∃ p, task.proc = some p ∧ task'.proc = some p ∧ fd ∈ task.fds ∧ fd ∈ task'.fds

structure Inv (w : World) : Prop where
  wf : w.files.Wf
  ok : ∀ (t : ℕ) (task : Task), w.tasks[t]? = some task → task.Ok w.files
  bounded : ∀ (t : ℕ) (task : Task), w.tasks[t]? = some task → ∀ fd ∈ task.fds, fd < w.files.next
  apart : ∀ (t t' : ℕ) (task task' : Task) (fd : ℕ), w.tasks[t]? = some task →
    w.tasks[t']? = some task' → task.Clashes task' fd → t = t'

theorem own_subset (task : Task) : task.own ⊆ task.fds := by
  unfold Task.own
  split
  · exact nil_subset _
  · exact List.Subset.refl _

variable {files : Table ℕ Pid} {task : Task}

theorem Task.Ok.mono {files' : Table ℕ Pid} (h : task.Ok files)
    (hkeeps : ∀ p fd, task.proc = some p → fd ∈ task.fds → files.Keeps files' p fd) :
    task.Ok files' := by
  cases task with
  | finished | refusing | probing => trivial
  | allocating p range passed rest phase =>
    refine ⟨h.1, ?_⟩
    obtain ⟨-, hphase⟩ := h
    cases phase with
    | opening | passing => trivial
    | opened fd =>
      obtain ⟨n, hn, hhas⟩ := hphase
      exact ⟨n, hn, (hkeeps p fd rfl (mem_singleton_self fd) n).1 hhas⟩
    | locked fd =>
      obtain ⟨n, hn, hholds⟩ := hphase
      exact ⟨n, hn, (hkeeps p fd rfl (mem_singleton_self fd) n).2 hholds⟩
  | lease p n fd | dropping p n fd | handing p n fd forked | child p n fd | keeper p n fd =>
    exact (hkeeps p fd rfl (mem_singleton_self fd) n).2 h
  | adopting p n fd second free =>
    obtain ⟨hholds, hne, hhas, hfree⟩ := h
    refine ⟨(hkeeps p fd rfl mem_cons_self n).2 hholds, hne, fun hnone => ?_, hfree⟩
    exact (hkeeps p second rfl (mem_cons_of_mem fd (mem_singleton_self second)) n).1 (hhas hnone)

variable {tasks : List Task} {t : ℕ} {task' : Task}

theorem getElem?_set_cases {t' : ℕ} (h : (tasks.set t task)[t']? = some task') :
    (t' = t ∧ task' = task) ∨ (t' ≠ t ∧ tasks[t']? = some task') := by
  rw [getElem?_set] at h
  split_ifs at h with ht hlt
  · exact .inl ⟨ht.symm, (some.inj h).symm⟩
  · exact .inr ⟨Ne.symm ht, h⟩

structure Moves (w : World) (t : ℕ) (task task' : Task) (files : Table ℕ Pid) : Prop where
  now : w.tasks[t]? = some task
  wf : files.Wf
  next : w.files.next ≤ files.next
  ok : task'.Ok files
  fds : ∀ fd ∈ task'.fds, fd ∈ task.fds ∨ (w.files.next ≤ fd ∧ fd < files.next)
  own : ∀ fd ∈ task'.own, fd ∈ task.own ∨ w.files.next ≤ fd
  proc : ∀ p, task'.proc = some p → task.proc = some p ∨ w.idle p = true
  others : ∀ (t' : ℕ) (other : Task), t' ≠ t → w.tasks[t']? = some other → ∀ p fd,
    other.proc = some p → fd ∈ other.fds → w.files.Keeps files p fd

variable {w : World} {p : Pid}

theorem ne_of_idle (h : w.idle p = true) (ht : w.tasks[t]? = some task) : task.proc ≠ some p := by
  have hall := all_eq_true.1 h task (mem_of_getElem? ht)
  simpa using hall

theorem Inv.put (h : Inv w) {tasks : List Task} (htasks : ∀ t' other, tasks[t']? = some other →
      (t' = t ∧ other = task) ∨ (t' ≠ t ∧ w.tasks[t']? = some other))
    (wf : files.Wf) (next : w.files.next ≤ files.next) (ok : task.Ok files)
    (bounded : ∀ fd ∈ task.fds, fd < files.next)
    (apart : ∀ t' other fd, t' ≠ t → w.tasks[t']? = some other → ¬other.Clashes task fd)
    (others : ∀ t' other, t' ≠ t → w.tasks[t']? = some other → ∀ p fd, other.proc = some p →
      fd ∈ other.fds → w.files.Keeps files p fd) :
      Inv { w with files := files, tasks := tasks } where
  wf := wf
  ok := by
    intro t' other hother
    rcases htasks t' other hother with ⟨rfl, rfl⟩ | ⟨hne, hold⟩
    · exact ok
    · exact (h.ok t' other hold).mono (others t' other hne hold)
  bounded := by
    intro t' other hother fd hfd
    rcases htasks t' other hother with ⟨rfl, rfl⟩ | ⟨hne, hold⟩
    · exact bounded fd hfd
    · exact lt_of_lt_of_le (h.bounded t' other hold fd hfd) next
  apart := by
    intro t₁ t₂ a b fd h₁ h₂ hclash
    rcases htasks t₁ a h₁ with ⟨rfl, rfl⟩ | ⟨hne₁, hold₁⟩ <;>
      rcases htasks t₂ b h₂ with ⟨rfl, rfl⟩ | ⟨hne₂, hold₂⟩
    · rfl
    · refine absurd ?_ (apart t₂ b fd hne₂ hold₂)
      exact hclash.imp And.symm fun ⟨p, ha, hb, hfd, hfd'⟩ => ⟨p, hb, ha, hfd', hfd⟩
    · exact absurd hclash (apart t₁ a fd hne₁ hold₁)
    · exact h.apart t₁ t₂ a b fd hold₁ hold₂ hclash

/-- **One task's step keeps the invariant.** -/
theorem Inv.set (h : Inv w) (hm : Moves w t task task' files) : Inv (w.set t task' files) := by
  refine h.put (fun _ _ => getElem?_set_cases) hm.wf hm.next hm.ok ?_ ?_ hm.others
  · intro fd hfd
    rcases hm.fds fd hfd with hbefore | ⟨-, hlt⟩
    · exact lt_of_lt_of_le (h.bounded t task hm.now fd hbefore) hm.next
    · exact hlt
  · rintro t' other fd hne hold (⟨hother, hfd⟩ | ⟨p, hproc', hproc, hother, hfd⟩)
    · rcases hm.own fd hfd with hbefore | hfresh
      · exact hne (h.apart t' t other task fd hold hm.now (.inl ⟨hother, hbefore⟩))
      · have hlt := h.bounded t' other hold fd (own_subset other hother)
        omega
    · rcases hm.proc p hproc with hsame | hidle
      · rcases hm.fds fd hfd with hbefore | ⟨hfresh, -⟩
        · exact hne (h.apart t' t other task fd hold hm.now
            (.inr ⟨p, hproc', hsame, hother, hbefore⟩))
        · have hlt := h.bounded t' other hold fd hother
          omega
      · exact ne_of_idle hidle hold hproc'

structure Begins (w : World) (task : Task) (files : Table ℕ Pid) : Prop where
  wf : files.Wf
  next : w.files.next ≤ files.next
  ok : task.Ok files
  bounded : ∀ fd ∈ task.fds, fd < files.next
  own : ∀ (t : ℕ) (other : Task), w.tasks[t]? = some other → ∀ fd ∈ task.own, fd ∉ other.own
  proc : ∀ p, task.proc = some p → w.idle p = true ∨ ∀ fd ∈ task.fds, w.files.next ≤ fd
  others : ∀ p fd, w.files.Keeps files p fd

theorem Inv.push (h : Inv w) (hb : Begins w task files) :
    Inv { w with files := files, tasks := w.tasks ++ [task] } := by
  refine h.put (fun _ _ hold => (getElem?_concat_cases hold).imp_right (And.imp_left ne_of_lt))
    hb.wf hb.next hb.ok hb.bounded ?_ fun _ _ _ _ p fd _ _ => hb.others p fd
  rintro t' other fd - hold (⟨hother, hfd⟩ | ⟨p, hproc', hproc, hother, hfd⟩)
  · exact hb.own t' other hold fd hfd hother
  · rcases hb.proc p hproc with hidle | hfresh
    · exact ne_of_idle hidle hold hproc'
    · have hlt := h.bounded t' other hold fd hother
      have hle := hfresh fd hfd
      omega

theorem Inv.of_same {w' : World} (h : Inv w) (hfiles : w'.files = w.files)
    (htasks : w'.tasks = w.tasks) : Inv w' := by
  obtain ⟨files, lockFiles, owner, tasks⟩ := w'
  subst hfiles htasks
  exact { h with }

/-! ### The steps -/

section

variable {w : World} {t : ℕ}

structure Task.Within (task' task : Task) : Prop where
  fds : task'.fds ⊆ task.fds
  own : task'.own ⊆ task.own
  proc : ∀ p, task'.proc = some p → task.proc = some p

theorem Task.Within.of_eq (hfds : task'.fds = task.fds) (hown : task'.own = task.own)
    (hproc : task'.proc = task.proc) : task'.Within task :=
  ⟨fun _ hfd => hfds ▸ hfd, fun _ hfd => hown ▸ hfd, fun _ hp => hproc ▸ hp⟩

theorem Task.Within.finished (task : Task) : Task.finished.Within task :=
  ⟨nil_subset _, nil_subset _, nofun⟩

section

variable (h : Inv w) (now : w.tasks[t]? = some task)
include h now

theorem Inv.within (hin : task'.Within task) (wf : files.Wf)
    (next : w.files.next ≤ files.next) (ok : task'.Ok files)
    (others : ∀ (t' : ℕ) (other : Task), t' ≠ t → w.tasks[t']? = some other → ∀ p fd,
    other.proc = some p →
      fd ∈ other.fds → w.files.Keeps files p fd) : Inv (w.set t task' files) :=
  h.set ⟨now, wf, next, ok, fun _ hfd => .inl (hin.fds hfd), fun _ hfd => .inl (hin.own hfd),
    fun p hp => .inl (hin.proc p hp), others⟩

theorem Inv.stay (ok : task'.Ok w.files) (hin : task'.Within task) : Inv (w.set t task' w.files) :=
  h.within now hin h.wf le_rfl ok fun _ _ _ _ _ _ _ _ _ => ⟨id, id⟩

theorem Inv.closes {p fd : ℕ}
    (hproc : task.proc = some p) (hfd : fd ∈ task.fds) (ok : task'.Ok (w.files.close p fd))
    (hin : task'.Within task) : Inv (w.set t task' (w.files.close p fd)) := by
  refine h.within now hin (wf_close h.wf p fd) le_rfl ok ?_
  intro t' other hne hother q fd' hq hfd'
  apply keeps_close
  by_contra! hsame
  obtain ⟨rfl, rfl⟩ := hsame
  exact hne (h.apart t' t other task fd' hother now (.inr ⟨q, hq, hproc, hfd', hfd⟩))

theorem Inv.locks (fd : ℕ)
    (ok : task'.Ok (w.files.lock fd).2) (hin : task'.Within task) :
    Inv (w.set t task' (w.files.lock fd).2) :=
  h.within now hin (wf_lock h.wf fd) (next_lock w.files fd).ge ok
    fun _ _ _ _ q fd' _ _ => keeps_lock w.files fd q fd'

end

section

variable (h : Inv w) (t : ℕ)
include h

theorem inv_openLock (ok : Bool) : Inv (w.openLock t ok) := by
  unfold openLock
  split
  case h_1 p range passed n rest now =>
    obtain ⟨hpassed, -⟩ := h.ok t _ now
    split_ifs
    · have hopened : Inv (w.set t (.allocating p range passed (n :: rest) (.opened w.files.next))
          (w.files.openFile p n)) := by
        refine h.set ⟨now, wf_openFile h.wf p n, Nat.le_succ _, ?_, ?_, ?_, fun q hq => .inl hq,
          fun _ _ _ _ q fd _ _ => keeps_openFile h.wf p q n fd⟩
        · exact ⟨hpassed, n, rfl, has_openFile w.files p n⟩
        · exact forall_mem_singleton.2 (.inr ⟨le_rfl, Nat.lt_succ_self _⟩)
        · exact forall_mem_singleton.2 (.inr le_rfl)
      exact hopened.of_same rfl rfl
    · exact h.stay now trivial (.finished _)
  case h_2 now => exact h.stay now trivial (.finished _)
  case h_3 => exact h

theorem inv_flock : Inv (w.flock t) := by
  unfold flock
  split
  case h_1 p range passed rest fd now =>
    obtain ⟨hpassed, n, hn, hhas⟩ := h.ok t _ now
    split_ifs with hgranted
    · refine h.locks now fd ⟨hpassed, n, hn, ?_⟩ (.of_eq rfl rfl rfl)
      exact holds_of_lock hhas hgranted
    · exact h.locks now fd ⟨hpassed, trivial⟩ (.of_eq rfl rfl rfl)
  case h_2 p n fd second now =>
    obtain ⟨hholds, hne, hhas, -⟩ := h.ok t _ now
    have hrefused := lock_refused h.wf hholds (hhas rfl) hne
    refine h.locks now second ⟨?_, hne, nofun, ?_⟩ (.of_eq rfl rfl rfl)
    · exact (keeps_lock w.files second p fd n).2 hholds
    · rw [hrefused]
      simp
  case h_3 p fd now => exact h.locks now fd trivial (.of_eq rfl rfl rfl)
  case h_4 => exact h

theorem inv_isServed (answer : Bool) : Inv (w.isServed t answer) := by
  unfold isServed
  split
  case h_1 p range passed n rest fd now =>
    obtain ⟨hpassed, m, hm, hholds⟩ := h.ok t _ now
    obtain rfl : n = m := some.inj hm
    split_ifs
    · exact h.stay now ⟨hpassed, trivial⟩ (.of_eq rfl rfl rfl)
    · exact h.stay now hholds (.of_eq rfl rfl rfl)
  case h_2 => exact h

theorem inv_close : Inv (w.close t) := by
  unfold World.close
  split
  case h_1 p range passed n rest fd why now =>
    obtain ⟨hpassed, -⟩ := h.ok t _ now
    refine h.closes now rfl (mem_singleton_self fd) ⟨?_, trivial⟩
      ⟨nil_subset _, nil_subset _, fun q hq => hq⟩
    rw [map_append, append_assoc]
    exact hpassed
  case h_2 p _ fd now | h_3 p _ fd _ now | h_5 p fd now | h_6 p fd _ now =>
    exact h.closes now rfl (mem_singleton_self fd) trivial (.finished _)
  case h_4 p n fd second free now =>
    obtain ⟨hholds, hne, -, hfree⟩ := h.ok t _ now
    have hsecond : second ∈ [fd, second] := mem_cons_of_mem fd (mem_singleton_self second)
    have hsubset : [fd] ⊆ [fd, second] := fun x hx => by simp [mem_singleton.1 hx]
    split_ifs with hgranted
    · exact absurd (congrArg some hgranted) hfree
    · refine h.closes now rfl hsecond ?_ ⟨hsubset, hsubset, fun q hq => hq⟩
      exact (keeps_close (.inr hne) n).2 hholds
  case h_7 => exact h

theorem inv_drop : Inv (w.drop t) := by
  unfold World.drop
  split
  case h_1 p n fd now =>
    have hholds : w.files.Holds p fd n := h.ok t _ now
    have hdropping : Inv (w.set t (.dropping p n fd) w.files) :=
      h.stay now hholds (.of_eq rfl rfl rfl)
    exact hdropping.of_same rfl rfl
  case h_2 => exact h

theorem inv_intoHandoffFd : Inv (w.intoHandoffFd t) := by
  unfold intoHandoffFd
  split
  case h_1 p n fd now =>
    have hholds : w.files.Holds p fd n := h.ok t _ now
    exact h.stay now hholds (.of_eq rfl rfl rfl)
  case h_2 => exact h

end

theorem idle_set (hidle : w.idle p = true) (task : Task) (hproc : task.proc ≠ some p)
    (files : Table ℕ Pid) : (w.set t task files).idle p = true := by
  refine all_eq_true.2 fun other hother => ?_
  rcases mem_or_eq_of_mem_set hother with hold | rfl
  · exact all_eq_true.1 hidle other hold
  · simpa using hproc

theorem inv_forkKeeper (h : Inv w) (t : ℕ) (child : Pid) : Inv (w.forkKeeper t child) := by
  unfold forkKeeper
  split
  case h_1 p n fd now =>
    have hholds : w.files.Holds p fd n := h.ok t _ now
    split_ifs with hidle
    · -- the worker's copy is no claim of its own any more
      have hparent : Inv (w.set t (.handing p n fd true) (w.files.fork p child)) :=
        h.set ⟨now, wf_fork h.wf p child, le_rfl, (keeps_fork w.files p child p fd n).2 hholds,
          fun _ hfd => .inl hfd, nofun, fun q hq => .inl hq,
          fun _ _ _ _ q fd' _ _ => keeps_fork w.files p child q fd'⟩
      refine hparent.push ⟨hparent.wf, le_rfl, holds_fork hholds child, ?_, ?_, ?_,
        fun _ _ _ => ⟨id, id⟩⟩
      · exact forall_mem_singleton.2 (h.bounded t _ now fd (mem_singleton_self fd))
      · intro t' other hother fd' hfd hown
        obtain rfl := mem_singleton.1 hfd
        rcases getElem?_set_cases hother with ⟨rfl, rfl⟩ | ⟨hne, hold⟩
        · cases hown
        · exact hne (h.apart t' t other _ fd' hold now (.inl ⟨hown, mem_singleton_self fd'⟩))
      · intro q hq
        obtain rfl := some.inj hq
        have hother : (Task.handing p n fd false).proc ≠ some child := ne_of_idle hidle now
        exact .inl (idle_set hidle (.handing p n fd true) hother _)
    · exact h
  case h_2 => exact h

theorem inv_execKeeper (h : Inv w) (t : ℕ) : Inv (w.execKeeper t) := by
  unfold execKeeper
  split
  case h_1 p n fd now =>
    have hholds : w.files.Holds p fd n := h.ok t _ now
    split_ifs with hidle
    · refine h.within now (.of_eq rfl rfl rfl) (wf_exec h.wf p fd) le_rfl
        ((keeps_exec (.inr rfl) n).2 hholds) ?_
      intro t' other hne hother q fd' hq _
      refine keeps_exec (.inl ?_)
      rintro rfl
      refine ne_of_idle hidle (t := t') ?_ hq
      exact (getElem?_set_ne (Ne.symm hne)).trans hother
    · exact h
  case h_2 => exact h

theorem inv_detach (h : Inv w) (t : ℕ) (child : Pid) : Inv (w.detach t child) := by
  unfold detach
  split
  case h_1 p n fd now =>
    have hholds : w.files.Holds p fd n := h.ok t _ now
    split_ifs with hidle
    · refine h.set ⟨now, wf_fork h.wf p child, le_rfl, holds_fork hholds child,
        fun _ hfd => .inl hfd, fun _ hfd => .inl hfd, ?_,
        fun _ _ _ _ q fd' _ _ => keeps_fork w.files p child q fd'⟩
      intro q hq
      obtain rfl := some.inj hq
      exact .inr hidle
    · exact h
  case h_2 => exact h

theorem inv_adopt (h : Inv w) (t : ℕ) : Inv (w.adopt t) := by
  unfold adopt
  split
  case h_1 p n fd now =>
    have hholds : w.files.Holds p fd n := h.ok t _ now
    have hlt : fd < w.files.next := h.bounded t _ now fd (mem_singleton_self fd)
    split_ifs
    · refine h.set ⟨now, wf_openFile h.wf p n, Nat.le_succ _, ?_, ?_, ?_, fun q hq => .inl hq,
        fun _ _ _ _ q fd' _ _ => keeps_openFile h.wf p q n fd'⟩
      · exact ⟨(keeps_openFile h.wf p p n fd n).2 hholds, hlt.ne,
          fun _ => has_openFile w.files p n, by simp⟩
      all_goals
        intro fd' hfd
        rcases mem_cons.1 hfd with rfl | hfd
        · exact .inl (mem_singleton_self fd')
        · obtain rfl := mem_singleton.1 hfd
          simp [openFile]
    · exact h.stay now trivial (.of_eq rfl rfl rfl)
  case h_2 => exact h

theorem getElem?_endProc (ht : (endProc tasks p)[t]? = some task) :
    task = .finished ∨ (tasks[t]? = some task ∧ task.proc ≠ some p) := by
  rw [endProc, getElem?_map] at ht
  obtain ⟨old, hold, htask⟩ := map_eq_some_iff.1 ht
  split_ifs at htask with hproc
  · exact .inl htask.symm
  · subst htask
    exact .inr ⟨hold, hproc⟩

theorem inv_exit (h : Inv w) (p : Pid) :
    Inv { w with files := w.files.exit p, tasks := endProc w.tasks p } where
  wf := Table.wf_exit h.wf p
  ok := by
    intro t task ht
    rcases getElem?_endProc ht with rfl | ⟨hold, hproc⟩
    · trivial
    · refine (h.ok t task hold).mono fun q fd hq _ => keeps_exit ?_ fd
      rintro rfl
      exact hproc hq
  bounded := by
    intro t task ht fd hfd
    rcases getElem?_endProc ht with rfl | ⟨hold, -⟩
    · cases hfd
    · exact h.bounded t task hold fd hfd
  apart := by
    intro t t' task task' fd ht ht' hclash
    rcases getElem?_endProc ht with rfl | ⟨hold, -⟩
    · simp [Task.Clashes, Task.own, Task.fds] at hclash
    rcases getElem?_endProc ht' with rfl | ⟨hold', -⟩
    · simp [Task.Clashes, Task.own, Task.fds] at hclash
    exact h.apart t t' task task' fd hold hold' hclash

/-- **Every event keeps the invariant.** -/
theorem inv_step (h : Inv w) (e : Event) : Inv (w.step e) := by
  cases e with
  | allocate p range =>
    exact h.push ⟨h.wf, le_rfl, ⟨rfl, trivial⟩, nofun, nofun,
      fun _ _ => .inr nofun, fun _ _ _ => ⟨id, id⟩⟩
  | probe p n =>
    have hbegins : Begins w (.probing p w.files.next none) (w.files.openFile p n) := by
      refine ⟨wf_openFile h.wf p n, Nat.le_succ _, trivial,
        forall_mem_singleton.2 (Nat.lt_succ_self _), ?_,
        fun _ _ => .inr (forall_mem_singleton.2 le_rfl), fun q fd => keeps_openFile h.wf p q n fd⟩
      refine fun t other hother => forall_mem_singleton.2 fun hown => ?_
      exact absurd (h.bounded t other hother _ (own_subset other hown)) (lt_irrefl _)
    exact (h.push hbegins).of_same rfl rfl
  | openLock t ok => exact inv_openLock h t ok
  | flock t => exact inv_flock h t
  | isServed t answer => exact inv_isServed h t answer
  | close t => exact inv_close h t
  | recordOwner t user =>
    rw [step, recordOwner]
    split
    · exact h.of_same rfl rfl
    · exact h
  | drop t => exact inv_drop h t
  | intoHandoffFd t => exact inv_intoHandoffFd h t
  | forkKeeper t child => exact inv_forkKeeper h t child
  | execKeeper t => exact inv_execKeeper h t
  | detach t child => exact inv_detach h t child
  | adopt t => exact inv_adopt h t
  | fork p child =>
    exact { h with wf := wf_fork h.wf p child, ok := fun t task ht =>
      (h.ok t task ht).mono fun q fd _ _ => keeps_fork w.files p child q fd }
  | exit p => exact inv_exit h p

end

end Linrdp.Session.Lease
