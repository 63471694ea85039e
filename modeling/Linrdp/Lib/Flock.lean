import Mathlib.Data.List.Basic

/-!
# Open file descriptions and their locks

What a kernel keeps for files that processes lock with `flock`: an open file description has a file,
a lock or none, and the processes that have a descriptor for it. `fork` copies descriptors, `exec`
closes all but one, and a description that nobody has a descriptor for is gone, and its lock with
it.

`Wf`: at most one description has the lock on a file. `Keeps` says that an operation takes neither a
descriptor nor a lock from a process; only closing and ending do.
-/

namespace Linrdp.Lib.Flock

open Function Option

variable {F P : Type*}

structure Desc (F P : Type*) where
  file : F
  locked : Bool
  procs : List P

/-- The descriptions, by number; from `next` on there are none. -/
structure Table (F P : Type*) where
  descs : ℕ → Option (Desc F P)
  next : ℕ

def Table.empty : Table F P := ⟨fun _ => none, 0⟩

section operations

variable [DecidableEq F] [DecidableEq P]

def Desc.without (d : Desc F P) (p : P) : Option (Desc F P) :=
  if (d.procs.filter fun q => q ≠ p) = [] then none
  else some { d with procs := d.procs.filter fun q => q ≠ p }

namespace Table

variable (k : Table F P)

def locks (i : ℕ) (file : F) : Bool := (k.descs i).any fun d => d.locked && d.file == file

def contended (i : ℕ) (file : F) : Bool := (List.range k.next).any fun j => j != i && k.locks j file

def openFile (p : P) (file : F) : Table F P :=
  ⟨Function.update k.descs k.next (some ⟨file, false, [p]⟩), k.next + 1⟩

def lock (i : ℕ) : Bool × Table F P :=
  match k.descs i with
  | none => (false, k)
  | some d =>
    if k.contended i d.file then (false, k)
    else (true, { k with descs := Function.update k.descs i (some { d with locked := true }) })

def close (p : P) (i : ℕ) : Table F P :=
  { k with descs := Function.update k.descs i ((k.descs i).bind fun d => d.without p) }

def fork (p q : P) : Table F P :=
  { k with descs := fun i => (k.descs i).map fun d =>
      if p ∈ d.procs then { d with procs := q :: d.procs } else d }

def exec (p : P) (keep : ℕ) : Table F P :=
  { k with descs := fun i => if i = keep then k.descs i else (k.descs i).bind fun d => d.without p }

def exit (p : P) : Table F P := { k with descs := fun i => (k.descs i).bind fun d => d.without p }

end Table

end operations

/-! ### One lock for a file -/

namespace Table

def Has (k : Table F P) (p : P) (i : ℕ) (file : F) : Prop :=
  ∃ d, k.descs i = some d ∧ d.file = file ∧ p ∈ d.procs

def Holds (k : Table F P) (p : P) (i : ℕ) (file : F) : Prop :=
  ∃ d, k.descs i = some d ∧ d.file = file ∧ p ∈ d.procs ∧ d.locked = true

structure Wf (k : Table F P) : Prop where
  fresh : ∀ i, k.next ≤ i → k.descs i = none
  exclusive : ∀ i j d e, k.descs i = some d → k.descs j = some e → d.locked = true →
    e.locked = true → d.file = e.file → i = j

variable {k : Table F P} {p q : P} {i j : ℕ} {file : F}

theorem Holds.unique (hp : k.Holds p i file) (hq : k.Holds q j file) (hk : k.Wf) : i = j := by
  obtain ⟨d, hd, hfile, -, hlocked⟩ := hp
  obtain ⟨e, he, hfile', -, hlocked'⟩ := hq
  exact hk.exclusive i j d e hd he hlocked hlocked' (hfile.trans hfile'.symm)

def Keeps (k k' : Table F P) (p : P) (i : ℕ) : Prop :=
  ∀ file, (k.Has p i file → k'.Has p i file) ∧ (k.Holds p i file → k'.Holds p i file)

theorem Wf.of_sub {k' : Table F P} (h : k.Wf) (hnext : k'.next = k.next)
    (hsub : ∀ i d', k'.descs i = some d' → ∃ d, k.descs i = some d ∧ d'.file = d.file ∧
      d'.locked = d.locked) : k'.Wf where
  fresh := by
    intro i hi
    rcases hd : k'.descs i with _ | d'
    · rfl
    · obtain ⟨d, hold, -⟩ := hsub i d' hd
      rw [h.fresh i (hnext ▸ hi)] at hold
      cases hold
  exclusive := by
    intro i j d' e' hd' he' hdlocked helocked hfile
    obtain ⟨d, hd, hdfile, hdl⟩ := hsub i d' hd'
    obtain ⟨e, he, hefile, hel⟩ := hsub j e' he'
    exact h.exclusive i j d e hd he (hdl ▸ hdlocked) (hel ▸ helocked)
      (by rw [← hdfile, hfile, hefile])

theorem Keeps.of_desc {k' : Table F P}
    (h : ∀ d, k.descs i = some d → p ∈ d.procs → ∃ d', k'.descs i = some d' ∧ d'.file = d.file ∧
      p ∈ d'.procs ∧ (d.locked = true → d'.locked = true)) : k.Keeps k' p i := by
  intro file
  constructor
  · rintro ⟨d, hd, rfl, hp⟩
    obtain ⟨d', hd', hfile, hp', -⟩ := h d hd hp
    exact ⟨d', hd', hfile, hp'⟩
  · rintro ⟨d, hd, rfl, hp, hlocked⟩
    obtain ⟨d', hd', hfile, hp', hlocked'⟩ := h d hd hp
    exact ⟨d', hd', hfile, hp', hlocked' hlocked⟩

theorem wf_empty : (Table.empty : Table F P).Wf := ⟨fun _ _ => rfl, nofun⟩

theorem without_spec [DecidableEq P] {d d' : Desc F P} (h : d.without p = some d') :
    d'.file = d.file ∧ d'.locked = d.locked := by
  unfold Desc.without at h
  split_ifs at h
  cases h
  exact ⟨rfl, rfl⟩

theorem without_of_ne [DecidableEq P] {d : Desc F P} (hq : q ∈ d.procs) (hne : q ≠ p) :
    ∃ d', d.without p = some d' ∧ d'.file = d.file ∧ q ∈ d'.procs ∧ d'.locked = d.locked := by
  have hmem : q ∈ d.procs.filter fun r => r ≠ p := List.mem_filter.2 ⟨hq, by simpa using hne⟩
  refine ⟨_, if_neg (List.ne_nil_of_mem hmem), rfl, hmem, rfl⟩

section steps

variable {k : Table F P}

theorem descs_openFile (k : Table F P) (p : P) (file : F) : (k.openFile p file).descs =
    Function.update k.descs k.next (some ⟨file, false, [p]⟩) := rfl

/-! #### Opening -/

theorem wf_openFile (h : k.Wf) (p : P) (file : F) : (k.openFile p file).Wf where
  fresh := by
    intro i hi
    have hne : i ≠ k.next := by
      rintro rfl
      exact absurd hi (Nat.not_succ_le_self _)
    rw [descs_openFile, update_of_ne hne]
    exact h.fresh i (Nat.le_of_succ_le hi)
  exclusive := by
    intro i j d e hd he hdlocked helocked hfile
    have hold : ∀ l c, (k.openFile p file).descs l = some c → c.locked = true →
        k.descs l = some c := by
      intro l c hc hlocked
      by_cases hl : l = k.next
      · subst hl
        rw [descs_openFile, update_self] at hc
        cases hc
        cases hlocked
      · rwa [descs_openFile, update_of_ne hl] at hc
    exact h.exclusive i j d e (hold i d hd hdlocked) (hold j e he helocked) hdlocked helocked hfile

theorem keeps_openFile (h : k.Wf) (p q : P) (file : F) (i : ℕ) :
    k.Keeps (k.openFile p file) q i := by
  refine .of_desc fun d hd hq => ⟨d, ?_, rfl, hq, id⟩
  have hne : i ≠ k.next := by
    rintro rfl
    rw [h.fresh _ (Nat.le_refl _)] at hd
    cases hd
  rw [descs_openFile, update_of_ne hne, hd]

theorem has_openFile (k : Table F P) (p : P) (file : F) : (k.openFile p file).Has p k.next file :=
  ⟨_, update_self .., rfl, List.mem_singleton_self p⟩

/-! #### Locking -/

section

variable [DecidableEq F]

theorem contended_iff (h : k.Wf) (i : ℕ) (file : F) : k.contended i file = true ↔
    ∃ j d, j ≠ i ∧ k.descs j = some d ∧ d.locked = true ∧ d.file = file := by
  simp only [contended, locks, List.any_eq_true, List.mem_range, Bool.and_eq_true, bne_iff_ne,
    ne_eq, any_eq_true, beq_iff_eq]
  constructor
  · rintro ⟨j, -, hne, d, hd, hlocked, hfile⟩
    exact ⟨j, d, hne, hd, hlocked, hfile⟩
  · rintro ⟨j, d, hne, hd, hlocked, hfile⟩
    have hlt : j < k.next := by
      by_contra hle
      rw [h.fresh j (by omega)] at hd
      cases hd
    exact ⟨j, hlt, hne, d, hd, hlocked, hfile⟩

theorem wf_lock (h : k.Wf) (i : ℕ) : (k.lock i).2.Wf := by
  unfold lock
  rcases hd : k.descs i with _ | d
  · exact h
  dsimp only
  split_ifs with hcontended
  · exact h
  rw [contended_iff h] at hcontended
  refine ⟨fun j hj => ?_, fun j l e e' he he' hlocked hlocked' hfile => ?_⟩
  · have hne : j ≠ i := by
      rintro rfl
      rw [h.fresh _ hj] at hd
      cases hd
    dsimp only
    rw [update_of_ne hne]
    exact h.fresh j hj
  · dsimp only at he he'
    by_cases hj : j = i <;> by_cases hl : l = i
    · exact hj.trans hl.symm
    · subst hj
      rw [update_self] at he
      rw [update_of_ne hl] at he'
      cases he
      exact absurd ⟨l, e', hl, he', hlocked', hfile.symm⟩ hcontended
    · subst hl
      rw [update_self] at he'
      rw [update_of_ne hj] at he
      cases he'
      exact absurd ⟨j, e, hj, he, hlocked, hfile⟩ hcontended
    · rw [update_of_ne hj] at he
      rw [update_of_ne hl] at he'
      exact h.exclusive j l e e' he he' hlocked hlocked' hfile

theorem keeps_lock (k : Table F P) (i : ℕ) (q : P) (j : ℕ) : k.Keeps (k.lock i).2 q j := by
  refine .of_desc fun d hd hq => ?_
  unfold lock
  rcases hi : k.descs i with _ | e
  · exact ⟨d, hd, rfl, hq, id⟩
  dsimp only
  split_ifs
  · exact ⟨d, hd, rfl, hq, id⟩
  · by_cases hj : j = i
    · subst hj
      rw [hi] at hd
      cases hd
      exact ⟨_, update_self .., rfl, hq, fun _ => rfl⟩
    · exact ⟨d, (update_of_ne hj ..).trans hd, rfl, hq, id⟩

theorem next_lock (k : Table F P) (i : ℕ) : (k.lock i).2.next = k.next := by
  unfold lock
  split
  · rfl
  · split_ifs <;> rfl

theorem holds_of_lock (hp : k.Has p i file) (h : (k.lock i).1 = true) :
    (k.lock i).2.Holds p i file := by
  obtain ⟨d, hd, hfile, hp⟩ := hp
  unfold lock at h ⊢
  rw [hd] at h ⊢
  dsimp only at h ⊢
  split_ifs at h with hcontended
  rw [if_neg hcontended]
  exact ⟨_, update_self .., hfile, hp, rfl⟩

theorem contended_of_lock (hp : k.Has p i file) (h : (k.lock i).1 = false) :
    k.contended i file = true := by
  obtain ⟨d, hd, rfl, hp⟩ := hp
  unfold lock at h
  rw [hd] at h
  dsimp only at h
  split_ifs at h with hcontended
  exact hcontended

theorem lock_refused (hk : k.Wf) (hp : k.Holds p i file)
    (hq : k.Has q j file) (hne : i ≠ j) : (k.lock j).1 = false := by
  obtain ⟨d, hd, hfile, -, hlocked⟩ := hp
  obtain ⟨e, he, rfl, -⟩ := hq
  have hcontended : k.contended j e.file = true :=
      (contended_iff hk j e.file).2 ⟨i, d, hne, hd, hlocked, hfile⟩
  rw [lock, he]
  dsimp only
  rw [if_pos hcontended]

end

/-! #### Closing and ending -/

variable [DecidableEq P]

theorem Wf.of_without {k' : Table F P} (h : k.Wf) (hnext : k'.next = k.next)
    (hdescs : ∀ j, k'.descs j = k.descs j ∨ k'.descs j = (k.descs j).bind fun d => d.without p) :
    k'.Wf := by
  refine h.of_sub hnext fun j d' hd' => ?_
  rcases hdescs j with heq | heq <;> rw [heq] at hd'
  · exact ⟨d', hd', rfl, rfl⟩
  · obtain ⟨d, hd, hwithout⟩ := bind_eq_some_iff.1 hd'
    exact ⟨d, hd, without_spec hwithout⟩

theorem Keeps.of_without {k' : Table F P} (hdescs : k'.descs j = k.descs j ∨
    q ≠ p ∧ k'.descs j = (k.descs j).bind fun d => d.without p) : k.Keeps k' q j := by
  refine .of_desc fun d hd hq => ?_
  rcases hdescs with heq | ⟨hne, heq⟩ <;> rw [heq, hd]
  · exact ⟨d, rfl, rfl, hq, id⟩
  · obtain ⟨d', hwithout, hfile, hq', hlocked⟩ := without_of_ne hq hne
    exact ⟨d', hwithout, hfile, hq', hlocked.trans⟩

theorem descs_fork (k : Table F P) (p q : P) (i : ℕ) : (k.fork p q).descs i =
    (k.descs i).map fun d => if p ∈ d.procs then { d with procs := q :: d.procs } else d := rfl

theorem wf_close (h : k.Wf) (p : P) (i : ℕ) : (k.close p i).Wf := by
  refine h.of_without (p := p) rfl fun j => ?_
  by_cases hj : j = i
  · subst hj
    exact .inr (update_self ..)
  · exact .inl (update_of_ne hj ..)

theorem keeps_close (hne : q ≠ p ∨ j ≠ i) : k.Keeps (k.close p i) q j := by
  by_cases hj : j = i
  · subst hj
    exact .of_without (.inr ⟨hne.resolve_right (by simp), update_self ..⟩)
  · exact .of_without (p := p) (.inl (update_of_ne hj ..))

theorem wf_fork (h : k.Wf) (p q : P) : (k.fork p q).Wf := by
  refine h.of_sub rfl fun i d' hd' => ?_
  obtain ⟨d, hd, rfl⟩ := map_eq_some_iff.1 hd'
  refine ⟨d, hd, ?_⟩
  split_ifs <;> exact ⟨rfl, rfl⟩

theorem keeps_fork (k : Table F P) (p q r : P) (i : ℕ) : k.Keeps (k.fork p q) r i := by
  refine .of_desc fun d hd hr => ⟨_, by rw [descs_fork, hd, map_some], ?_⟩
  split_ifs
  · exact ⟨rfl, List.mem_cons_of_mem q hr, id⟩
  · exact ⟨rfl, hr, id⟩

theorem holds_fork (h : k.Holds p i file) (q : P) : (k.fork p q).Holds q i file := by
  obtain ⟨d, hd, hfile, hp, hlocked⟩ := h
  refine ⟨_, by rw [descs_fork, hd, map_some], ?_⟩
  rw [if_pos hp]
  exact ⟨hfile, List.mem_cons_self, hlocked⟩

theorem wf_exec (h : k.Wf) (p : P) (keep : ℕ) : (k.exec p keep).Wf :=
  h.of_without (p := p) rfl fun j => (em (j = keep)).imp (fun hj => if_pos hj) fun hj => if_neg hj

theorem keeps_exec {keep : ℕ} (hne : q ≠ p ∨ i = keep) : k.Keeps (k.exec p keep) q i := by
  by_cases hi : i = keep
  · exact .of_without (p := p) (.inl (if_pos hi))
  · exact .of_without (.inr ⟨hne.resolve_right hi, if_neg hi⟩)

theorem wf_exit (h : k.Wf) (p : P) : (k.exit p).Wf :=
  h.of_without (p := p) rfl fun _ => .inr rfl

theorem keeps_exit (hne : q ≠ p) (i : ℕ) : k.Keeps (k.exit p) q i := .of_without (.inr ⟨hne, rfl⟩)

end steps

end Table

end Linrdp.Lib.Flock
