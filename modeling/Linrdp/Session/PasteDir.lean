import Linrdp.Lib.FileTree
import Linrdp.Lib.Handles
import Linrdp.Lib.Runs
import Mathlib.Data.Set.Insert

/-!
# The paste directory

The part of `session/fileagent.rs` that makes directories and files for what the client pastes, and
removes them again, all below one directory, although the programs of the session may put symbolic
links into it at any moment. A run interleaves the calls of a request with changes of the file
system by others. Making goes down component by component, through descriptors, so these programs
are confined in the sense of `Lib/Handles.lean`. The one call that takes a whole path is the one of
`remove`: `contained_iff` says that it alone can leave the directory, and that it does exactly when
it meets a link.
-/

namespace Linrdp.Session.PasteDir

open Lib.FileTree Lib.Handles Lib.Runs Program

abbrev Name := List UInt8

/-! ### The path of a request -/

inductive Component
  | curDir | parentDir
  | normal (name : Name)

/-- A component after the first; empty ones and `.` are passed over. -/
def component (piece : Name) : Option Component :=
  if piece = [] ∨ piece = [46] then none
  else if piece = [46, 46] then some .parentDir
  else some (.normal piece)

/-- `Path::components`, for a path that does not start with a slash. -/
def components (path : Name) : List Component :=
  match path.splitOn 47 with
  | [] => []
  | first :: rest =>
    (if first = [46] then [.curDir] else (component first).toList) ++ rest.filterMap component

inductive Error
  | emptyPath
  | notRelative (path : Name)
  | notPlain (path : Name)
  | noName | nul
  | base (errno : Errno)
  | makePasteDir (errno : Option Errno)
  | openRoot (errno : Errno)
  | openDir (name : Name) (errno : Errno)
  | makeDir (name : Name) (errno : Errno)
  | create (name : Name) (errno : Errno)

def Component.plain : Component → Option Name
  | .normal name => some name
  | .curDir | .parentDir => none

def checkedRelative (payload : Name) : Except Error (List Name) :=
  if payload = [] then .error .emptyPath
  else if payload.head? = some 47 then .error (.notRelative payload)
  else
    match (components payload).mapM Component.plain with
    | none => .error (.notPlain payload)
    | some names => .ok names

/-! ### The system calls -/

inductive Call
  | openRoot (root : ℕ)
  /-- `openat` with `O_DIRECTORY` and `O_NOFOLLOW` -/
  | openat (dir : ℕ) (name : Name)
  | mkdirat (dir : ℕ) (name : Name)
  | unlinkat (dir : ℕ) (name : Name)
  /-- `openat` with `O_CREAT`, `O_EXCL` and `O_NOFOLLOW` -/
  | createat (dir : ℕ) (name : Name)
  /-- `std::fs::remove_file` of the path below the paste directory -/
  | removeFile (root : ℕ) (relative : List Name)

structure Entry where
  dir : ℕ
  name : Name
  followed : Bool
deriving DecidableEq

section calls

variable (limit : ℕ)

/-- The entry a path leads to; the last name itself is not followed. -/
def resolve (fs : Fs Name) (root : ℕ) (relative : List Name) : Option Entry :=
  relative.getLast?.bind fun name =>
    (fs.walk limit root (relative.dropLast.map .name) false).map fun found =>
      ⟨found.1, name, found.2⟩

def exec (fails : Option Errno) (fs : Fs Name) (c : Call) : Except Errno ℕ × Fs Name :=
  match fails, c with
  | some errno, _ => (.error errno, fs)
  | none, .openRoot root => (.ok root, fs)
  | none, .openat dir name => (fs.openDir dir name, fs)
  | none, .mkdirat dir name => fs.make dir name (.dir dir [])
  | none, .unlinkat dir name => fs.remove dir name
  | none, .createat dir name => fs.make dir name .file
  | none, .removeFile root relative =>
    match resolve limit fs root relative with
    | none => (.error .noEntry, fs)
    | some entry => fs.remove entry.dir entry.name

def target (fs : Fs Name) : Call → Option Entry
  | .openRoot _ | .openat _ _ => none
  | .mkdirat dir name | .unlinkat dir name | .createat dir name => some ⟨dir, name, false⟩
  | .removeFile root relative => resolve limit fs root relative

def touched (fails : Option Errno) (fs : Fs Name) (c : Call) : Option Entry :=
  match (exec limit fails fs c).1 with
  | .ok _ => target limit fs c
  | .error _ => none

end calls

/-! ### The programs -/

abbrev Run (α : Type) := Program Call (Except Errno ℕ) (Except Error α)

variable (root : ℕ)

def openRoot : Run ℕ :=
  .call (.openRoot root) fun
    | .ok fd => .done (.ok fd)
    | .error errno => .done (.error (.openRoot errno))

def openChildDir (dir : ℕ) (name : Name) : Run ℕ :=
  if name.contains 0 then .done (.error .nul)
  else
    .call (.openat dir name) fun
      | .ok fd => .done (.ok fd)
      | .error errno => .done (.error (.openDir name errno))

def openDirs : ℕ → List Name → Run ℕ
  | current, [] => .done (.ok current)
  | current, name :: rest => (openChildDir current name).andThen fun next => openDirs next rest

def walkToParent (relative : List Name) : Run (ℕ × Name) :=
  match relative.getLast? with
  | none => .done (.error .noName)
  | some name =>
    (openRoot root).andThen fun current =>
      (openDirs current relative.dropLast).andThen fun parent => .done (.ok (parent, name))

/-- The loop of `make_dir_below`. That a directory is there already is expected. -/
def makeDirs : ℕ → List Name → Run Unit
  | _, [] => .done (.ok ())
  | current, name :: rest =>
    if name.contains 0 then .done (.error .nul)
    else
      .call (.mkdirat current name) fun
        | .ok _ | .error .alreadyExists =>
          (openChildDir current name).andThen fun next => makeDirs next rest
        | .error errno => .done (.error (.makeDir name errno))

def makeDirBelow (relative : List Name) : Run Unit :=
  (openRoot root).andThen fun current => makeDirs current relative

def createBelow (relative : List Name) : Run ℕ :=
  (walkToParent root relative).andThen fun found =>
    if found.2.contains 0 then .done (.error .nul)
    else
      .call (.unlinkat found.1 found.2) fun _ =>
        .call (.createat found.1 found.2) fun
          | .ok fd => .done (.ok fd)
          | .error errno => .done (.error (.create found.2 errno))

inductive Request
  | newTransfer (name : Name)
  | makeDir (payload : Name)
  | createFile (payload : Name)
  | remove (payload : Name)

/-- `handle`, once the paste directory is there; what is returned is the descriptor, if there is
one. -/
def handle : Request → Run (Option ℕ)
  | .newTransfer name => (makeDirBelow root [name]).andThen fun _ => .done (.ok none)
  | .makeDir payload =>
    match checkedRelative payload with
    | .error error => .done (.error error)
    | .ok relative => (makeDirBelow root relative).andThen fun _ => .done (.ok none)
  | .createFile payload =>
    match checkedRelative payload with
    | .error error => .done (.error error)
    | .ok relative => (createBelow root relative).andThen fun fd => .done (.ok (some fd))
  | .remove payload =>
    match checkedRelative payload with
    | .error error => .done (.error error)
    | .ok relative => .call (.removeFile root relative) fun _ => .done (.ok none)

/-! ### Runs -/

structure State where
  fs : Fs Name
  pasteDir : Option ℕ
  running : Run (Option ℕ)

def start (fs : Fs Name) : State := ⟨fs, none, .done (.ok none)⟩

/-- `ensure_paste_dir`: a new directory with a random name, in up to eight attempts. -/
def ensurePasteDir (s : State) (base : Except Errno ℕ) (attempts : List (Option Errno)) :
    Except Error ℕ × State :=
  match s.pasteDir, base with
  | some root, _ => (.ok root, s)
  | none, .error errno => (.error (.base errno), s)
  | none, .ok parent =>
    if (attempts.take 8).any Option.isNone then
      (.ok s.fs.nodes.length,
        { s with fs := ⟨s.fs.nodes ++ [.dir parent []]⟩, pasteDir := some s.fs.nodes.length })
    else (.error (.makePasteDir (attempts.take 8).getLast?.join), s)

inductive Event
  /-- the helper reads a request; `base` and `attempts` are what making the paste directory meets
  with -/
  | request (r : Request) (base : Except Errno ℕ) (attempts : List (Option Errno))
  | call (fails : Option Errno)
  | change (fs : Fs Name)

def step (limit : ℕ) (s : State) : Event → State
  | .request r base attempts =>
    match s.running with
    | .call _ _ => s
    | .done _ =>
      match ensurePasteDir s base attempts with
      | (.error error, s) => { s with running := .done (.error error) }
      | (.ok root, s) => { s with running := handle root r }
  | .call fails =>
    match s.running with
    | .done _ => s
    | .call c k =>
      let result := exec limit fails s.fs c
      { s with fs := result.2, running := k result.1 }
  | .change fs => { s with fs := fs }

def State.Inside (s : State) (d : ℕ) : Prop := ∃ root, s.pasteDir = some root ∧ s.fs.Below root d

/-- **Containment.** What is made or removed lies below the paste directory, and no link was
followed on the way to it. -/
def Contained (limit : ℕ) (s : State) : Event → Prop
  | .call fails => ∀ c k, s.running = .call c k → ∀ entry, touched limit fails s.fs c = some entry →
    s.Inside entry.dir ∧ entry.followed = false
  | _ => True

/-- **The condition.** When a removal succeeds, the way to what it removes leads through
directories. -/
def NoLink (limit : ℕ) (s : State) : Event → Prop
  | .call fails => ∀ root relative k, s.running = .call (.removeFile root relative) k →
    ∀ i, (exec limit fails s.fs (.removeFile root relative)).1 = .ok i →
    s.fs.Straight root relative.dropLast
  | _ => True

/-- The session's programs may change everything, but take no directory out of the paste directory.
-/
def Stays (s : State) : Event → Prop
  | .change fs => ∀ d, s.Inside d → State.Inside { s with fs := fs } d
  | _ => True

/-! ### The programs are confined -/

def descriptors : Interface Call (Except Errno ℕ) ℕ where
  uses
    | .openRoot root | .removeFile root _ => {root}
    | .openat dir _ | .mkdirat dir _ | .unlinkat dir _ | .createat dir _ => {dir}
  gives
    | .openRoot _, .ok fd | .openat _ _, .ok fd => {fd}
    | _, _ => ∅

def Has (result : Except Error ℕ) (K : Set ℕ) : Prop := ∀ fd, result = .ok fd → fd ∈ K

section wp

variable {K : Set ℕ} {root dir : ℕ} {name : Name} {relative : List Name}

theorem has_ok (h : dir ∈ K) : Has (.ok dir) K := by
  intro fd hfd
  obtain rfl := Except.ok.inj hfd
  exact h

theorem wp_openRoot (h : root ∈ K) : (openRoot root).Wp descriptors K Has := by
  refine wp_call (Set.singleton_subset_iff.2 h) fun r => ?_
  cases r with
  | error errno => exact nofun
  | ok fd => exact has_ok (Or.inr rfl)

theorem wp_openChildDir (h : dir ∈ K) : (openChildDir dir name).Wp descriptors K Has := by
  unfold openChildDir
  split
  case isTrue => exact nofun
  case isFalse =>
    refine wp_call (Set.singleton_subset_iff.2 h) fun r => ?_
    cases r with
    | error errno => exact nofun
    | ok fd => exact has_ok (Or.inr rfl)

theorem wp_andThen_fd {α : Type} {p : Run ℕ} {f : ℕ → Run α} {Q : Except Error α → Set ℕ → Prop}
    (hp : p.Wp descriptors K Has) (hf : ∀ fd K', fd ∈ K' → (f fd).Wp descriptors K' Q)
    (herror : ∀ error K', Q (.error error) K') : (p.andThen f).Wp descriptors K Q := by
  refine wp_andThen (hp.mono fun result K' hhas => ?_)
  cases result with
  | error error => exact herror error K'
  | ok fd => exact hf fd K' (hhas fd rfl)

theorem wp_openDirs (h : dir ∈ K) : (openDirs dir relative).Wp descriptors K Has := by
  induction relative generalizing dir K with
  | nil => exact has_ok h
  | cons name rest ih => exact wp_andThen_fd (wp_openChildDir h) (fun fd K' hfd => ih hfd) nofun

theorem wp_walkToParent (h : root ∈ K) : (walkToParent root relative).Wp descriptors K
    fun result K' => ∀ found, result = .ok found → found.1 ∈ K' := by
  unfold walkToParent
  split
  case h_1 => exact nofun
  case h_2 name _ =>
    refine wp_andThen_fd (wp_openRoot h) (fun fd K' hfd => ?_) nofun
    refine wp_andThen_fd (wp_openDirs hfd) (fun parent K'' hparent => ?_) nofun
    intro found hfound
    obtain rfl := Except.ok.inj hfound
    exact hparent

theorem wp_makeDirs (h : dir ∈ K) : (makeDirs dir relative).Wp descriptors K fun _ _ => True := by
  induction relative generalizing dir K with
  | nil => trivial
  | cons name rest ih =>
    rw [makeDirs]
    split
    case isTrue => trivial
    case isFalse =>
      refine wp_call (Set.singleton_subset_iff.2 h) fun r => ?_
      have hnext : ∀ K' : Set ℕ, dir ∈ K' →
          ((openChildDir dir name).andThen fun next => makeDirs next rest).Wp descriptors K'
            fun _ _ => True := fun K' hK' =>
        wp_andThen_fd (wp_openChildDir hK') (fun fd K'' hfd => ih hfd) fun _ _ => trivial
      split
      case h_1 | h_2 => exact hnext _ (Or.inl h)
      case h_3 => trivial

theorem wp_makeDirBelow (h : root ∈ K) :
    (makeDirBelow root relative).Wp descriptors K fun _ _ => True :=
  wp_andThen_fd (wp_openRoot h) (fun _ _ hfd => wp_makeDirs hfd) fun _ _ => trivial

theorem wp_createBelow (h : root ∈ K) :
    (createBelow root relative).Wp descriptors K fun _ _ => True := by
  refine wp_andThen ((wp_walkToParent h).mono fun result K' hparent => ?_)
  cases result with
  | error error => trivial
  | ok found =>
    have hdir : found.1 ∈ K' := hparent found rfl
    dsimp only
    split
    case isTrue => trivial
    case isFalse =>
      refine wp_call (Set.singleton_subset_iff.2 hdir) fun _ => ?_
      refine wp_call (Set.singleton_subset_iff.2 (Or.inl hdir)) fun r => ?_
      cases r <;> trivial

/-- **Every request uses only what it opened itself**, from the paste directory on. -/
theorem wp_handle (r : Request) (h : root ∈ K) : (handle root r).Wp descriptors K fun _ _ =>
    True := by
  cases r with
  | newTransfer name =>
    refine wp_andThen ((wp_makeDirBelow h).mono fun result K' _ => ?_)
    cases result <;> trivial
  | makeDir payload =>
    rw [handle]
    split
    case h_1 => trivial
    case h_2 relative _ =>
      refine wp_andThen ((wp_makeDirBelow h).mono fun result K' _ => ?_)
      cases result <;> trivial
  | createFile payload =>
    rw [handle]
    split
    case h_1 => trivial
    case h_2 relative _ =>
      refine wp_andThen ((wp_createBelow h).mono fun result K' _ => ?_)
      cases result <;> trivial
  | remove payload =>
    rw [handle]
    split
    case h_1 => trivial
    case h_2 relative _ => exact wp_call (Set.singleton_subset_iff.2 h) fun _ => trivial

end wp

/-! ### What holds along a run -/

section

variable {limit : ℕ} {fails : Option Errno} {fs : Fs Name} {root d : ℕ} {c : Call} {s : State}

theorem below_exec (h : fs.Below root d) : (exec limit fails fs c).2.Below root d := by
  unfold exec
  split
  case h_1 | h_2 | h_3 => exact h
  case h_4 => exact Fs.below_make h
  case h_5 => exact Fs.below_remove h
  case h_6 => exact Fs.below_make h
  case h_7 =>
    split
    case h_1 => exact h
    case h_2 => exact Fs.below_remove h

theorem inside_gives (huses : ∀ i ∈ descriptors.uses c, s.Inside i)
    (hd : d ∈ descriptors.gives c (exec limit fails s.fs c).1) : s.Inside d := by
  cases c with
  | openRoot root' =>
    cases fails with
    | some errno => cases hd
    | none =>
      obtain rfl : d = root' := hd
      exact huses d rfl
  | openat dir name =>
    cases fails with
    | some errno => cases hd
    | none =>
      have hexec : (exec limit none s.fs (.openat dir name)).1 = s.fs.openDir dir name := rfl
      rw [hexec] at hd
      cases hopen : s.fs.openDir dir name with
      | error errno =>
        rw [hopen] at hd
        cases hd
      | ok fd =>
        rw [hopen] at hd
        obtain rfl : d = fd := hd
        obtain ⟨root, hroot, hbelow⟩ := huses dir rfl
        exact ⟨root, hroot, Fs.below_openDir hbelow hopen⟩
  | mkdirat dir name | unlinkat dir name | createat dir name | removeFile root' relative => cases hd

def Inv (s : State) : Prop := Confined descriptors State.Inside s s.running

theorem inv_done (fs : Fs Name) (pasteDir : Option ℕ) (result : Except Error (Option ℕ)) :
    Inv ⟨fs, pasteDir, .done result⟩ := by
  refine ⟨∅, fun i hi => ?_, trivial⟩
  cases hi

theorem ensurePasteDir_ok {base : Except Errno ℕ} {attempts : List (Option Errno)} {s' : State}
    (h : ensurePasteDir s base attempts = (.ok root, s')) : s'.pasteDir = some root := by
  unfold ensurePasteDir at h
  split at h
  case h_1 hroot =>
    obtain ⟨hok, rfl⟩ := Prod.mk.inj h
    rw [hroot, Except.ok.inj hok]
  case h_2 => cases h
  case h_3 =>
    split at h
    case isTrue =>
      obtain ⟨hok, rfl⟩ := Prod.mk.inj h
      rw [← Except.ok.inj hok]
    case isFalse => cases h

theorem Inv.request (h : Inv s) (r : Request) (base : Except Errno ℕ)
    (attempts : List (Option Errno)) : Inv (step limit s (.request r base attempts)) := by
  unfold step
  dsimp only
  split
  case h_1 => exact h
  case h_2 =>
    split
    case h_1 error s' _ => exact inv_done s'.fs s'.pasteDir (.error error)
    case h_2 root s' hensure =>
      refine ⟨{root}, fun i hi => ?_, wp_handle r rfl⟩
      obtain rfl : i = root := hi
      have hroot : s'.pasteDir = some i := ensurePasteDir_ok hensure
      exact ⟨i, hroot, Relation.ReflTransGen.refl⟩

theorem Inv.call (h : Inv s) (fails : Option Errno) : Inv (step limit s (.call fails)) := by
  unfold step
  cases hrunning : s.running with
  | done result => exact h
  | call c k =>
    unfold Inv at h
    rw [hrunning] at h
    have hkeeps : ∀ i, s.Inside i → State.Inside { s with
        fs := (exec limit fails s.fs c).2, running := k (exec limit fails s.fs c).1 } i := by
      rintro i ⟨root, hroot, hbelow⟩
      exact ⟨root, hroot, below_exec hbelow⟩
    exact h.call hkeeps fun i hi => hkeeps i (inside_gives h.uses hi)

theorem Inv.step (h : Inv s) {e : Event} (hstays : Stays s e) : Inv (PasteDir.step limit s e) := by
  cases e with
  | request r base attempts => exact h.request r base attempts
  | call fails => exact h.call fails
  | change fs => exact Confined.of_keeps h hstays

theorem touched_eq_some_iff {entry : Entry} : touched limit fails fs c = some entry ↔
    (∃ i, (exec limit fails fs c).1 = .ok i) ∧ target limit fs c = some entry := by
  unfold touched
  cases (exec limit fails fs c).1 <;> simp

theorem resolve_of_removed {relative : List Name} {i : ℕ}
    (h : (exec limit fails fs (.removeFile root relative)).1 = .ok i) :
    ∃ entry, resolve limit fs root relative = some entry := by
  cases fails with
  | some errno => cases h
  | none =>
    rw [exec] at h
    split at h
    case h_1 => cases h
    case h_2 entry hentry => exact ⟨entry, hentry⟩

theorem walk_of_resolve {relative : List Name} {entry : Entry}
    (h : resolve limit fs root relative = some entry) :
    fs.walk limit root (relative.dropLast.map .name) false = some (entry.dir, entry.followed) := by
  obtain ⟨name, -, hname⟩ := Option.bind_eq_some_iff.1 h
  obtain ⟨found, hwalk, rfl⟩ := Option.map_eq_some_iff.1 hname
  exact hwalk

theorem Inv.contained_iff_noLink (h : Inv s) (e : Event) : Contained limit s e ↔
    NoLink limit s e := by
  cases e with
  | request r base attempts | change fs => exact Iff.rfl
  | call fails =>
    constructor
    · intro hcontained root relative k hrunning i hi
      obtain ⟨entry, hentry⟩ := resolve_of_removed hi
      have hfollowed := (hcontained _ k hrunning entry (touched_eq_some_iff.2 ⟨⟨i, hi⟩, hentry⟩)).2
      exact (Fs.walk_straight root (walk_of_resolve hentry)).1.1 hfollowed
    · intro hnolink c k hrunning entry hentry
      unfold Inv at h
      rw [hrunning] at h
      have huses := h.uses
      obtain ⟨⟨i, hi⟩, htarget⟩ := touched_eq_some_iff.1 hentry
      cases c with
      | openRoot root | openat dir name => cases htarget
      | mkdirat dir name | unlinkat dir name | createat dir name =>
        obtain rfl := Option.some.inj htarget
        exact ⟨huses dir rfl, rfl⟩
      | removeFile root relative =>
        obtain ⟨paste, hpaste, hbelow⟩ := huses root rfl
        obtain ⟨hstraight, hstays⟩ := Fs.walk_straight paste (walk_of_resolve htarget)
        have hfollowed := hstraight.2 (hnolink root relative k hrunning i hi)
        exact ⟨⟨paste, hpaste, hstays hfollowed hbelow⟩, hfollowed⟩

end

/-- **Everything is contained except a removal that meets a link**: whatever the requests, and
however the session's programs change the tree in between, as long as they take no directory out of
it. -/
theorem contained_iff (limit : ℕ) (fs : Fs Name) (es : List Event)
    (h : Along (step limit) Stays (start fs) es) :
    Along (step limit) (Contained limit) (start fs) es ↔
      Along (step limit) (NoLink limit) (start fs) es := by
  refine Along.congr (Along.mono_inv (I := Inv) ?_ ?_ ?_ h)
  · exact fun s e hs hstays => hs.step hstays
  · exact fun s e hs _ => hs.contained_iff_noLink e
  · exact inv_done fs none (.ok none)

/-- A file system with a directory `v` that has the file `f` in it, and a new paste directory. -/
def ready : Fs Name := ⟨[.dir 0 [([118], 1)], .dir 0 [([102], 2)], .file, .dir 0 []]⟩

/-- The same, after a program of the session has made `a` in the paste directory a link to `v`. -/
def linked : Fs Name := (ready.make 3 [97] (.link true [.name [118]])).2

/-- `a` is created although it is a link by then. -/
theorem contained_iff_create :
    Along (step 40) Stays (start ⟨ready.nodes.take 3⟩)
        [.request (.createFile [97]) (.ok 0) [none], .change linked, .call none, .call none,
          .call none] ∧
      Along (step 40) (Contained 40) (start ⟨ready.nodes.take 3⟩)
        [.request (.createFile [97]) (.ok 0) [none], .change linked, .call none, .call none,
          .call none] := by
  have hstays : Along (step 40) Stays (start ⟨ready.nodes.take 3⟩)
      [.request (.createFile [97]) (.ok 0) [none], .change linked, .call none, .call none,
        .call none] := by
    refine ⟨trivial, ?_, trivial, trivial, trivial, trivial⟩
    rintro d ⟨root, hroot, hbelow⟩
    exact ⟨root, hroot, Fs.below_make hbelow⟩
  refine ⟨hstays, (contained_iff 40 _ _ hstays).2 ⟨trivial, trivial, ?_, ?_, ?_, trivial⟩⟩ <;>
  · exact nofun

/-- `a/f` is removed although `a` is a link by then: the file `f` of `v` is gone. -/
theorem not_contained_remove :
    Along (step 40) Stays (start ⟨ready.nodes.take 3⟩)
        [.request (.remove [97, 47, 102]) (.ok 0) [none], .change linked, .call none] ∧
      ¬ Along (step 40) (Contained 40) (start ⟨ready.nodes.take 3⟩)
        [.request (.remove [97, 47, 102]) (.ok 0) [none], .change linked, .call none] := by
  constructor
  · refine ⟨trivial, ?_, trivial, trivial⟩
    rintro d ⟨root, hroot, hbelow⟩
    exact ⟨root, hroot, Fs.below_make hbelow⟩
  · rintro ⟨-, -, hcall, -⟩
    have htouched : touched 40 none linked (.removeFile 3 [[97], [102]]) = some
        ⟨1, [102], true⟩ := by
      decide
    cases (hcall _ _ rfl _ htouched).2

end Linrdp.Session.PasteDir
