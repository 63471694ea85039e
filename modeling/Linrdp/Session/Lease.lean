import Linrdp.Lib.Flock
import Linrdp.Lib.Runs
import Linrdp.Session.Registry

/-!
# Display leases

`display_alloc.rs`, call by call. A task is one allocation, hand-over, adoption, drop or probe, with
what it knows; an event is the next system call of one task. The processes share the table of open
file descriptions, the lock files, which are never removed, and the owner files. A keeper is started
as `spawn_keeper` does it: a child that has a copy of every descriptor of the worker, closes all but
the claim when it starts the keeper's program, and forks once more to detach itself.
-/

namespace Linrdp.Session.Lease

open Lib.Flock Lib.Runs Session.Registry Function

abbrev Pid := ℕ

inductive Reason
  | held | served
deriving DecidableEq

/-- Where an allocation is with one number; `fd` is the description it opened. -/
inductive Phase
  | opening
  | opened (fd : ℕ)
  | locked (fd : ℕ)
  | passing (fd : ℕ) (why : Reason)
deriving DecidableEq

inductive Task
  | finished
  /-- `allocate_with`: the numbers passed over and those to come, the first of which is tried -/
  | allocating (p : Pid) (range : DisplayRange) (passed : List (ℕ × Reason)) (rest : List ℕ)
      (phase : Phase)
  | lease (p : Pid) (number fd : ℕ)
  /-- a `DisplayLease` whose `drop` has run, before its file is closed -/
  | dropping (p : Pid) (number fd : ℕ)
  /-- the worker after `into_handoff_fd`, and whether the child was forked -/
  | handing (p : Pid) (number fd : ℕ) (forked : Bool)
  | child (p : Pid) (number fd : ℕ)
  /-- the keeper, before `adopt` -/
  | keeper (p : Pid) (number fd : ℕ)
  /-- `adopt`, with the second description it opened and whether that one was given the lock -/
  | adopting (p : Pid) (number fd second : ℕ) (free : Option Bool)
  /-- an `adopt` that failed, before its file is closed -/
  | refusing (p : Pid) (fd : ℕ)
  | probing (p : Pid) (fd : ℕ) (free : Option Bool)
deriving DecidableEq

structure World where
  files : Table ℕ Pid
  lockFiles : ℕ → Bool
  owner : ℕ → Option String
  tasks : List Task

inductive Event
  | allocate (p : Pid) (range : DisplayRange)
  /-- a process calls `lock_is_free`, which opens the lock file -/
  | probe (p : Pid) (number : ℕ)
  /-- the next number's lock file is opened, or cannot be -/
  | openLock (t : ℕ) (ok : Bool)
  | flock (t : ℕ)
  | isServed (t : ℕ) (answer : Bool)
  | close (t : ℕ)
  | recordOwner (t : ℕ) (user : String)
  | drop (t : ℕ)
  | intoHandoffFd (t : ℕ)
  | forkKeeper (t : ℕ) (child : Pid)
  | execKeeper (t : ℕ)
  | detach (t : ℕ) (child : Pid)
  | adopt (t : ℕ)
  | fork (p child : Pid)
  | exit (p : Pid)

def Task.proc : Task → Option Pid
  | .finished => none
  | .allocating p .. | .lease p .. | .dropping p .. | .handing p .. | .child p .. | .keeper p ..
  | .adopting p .. | .refusing p .. | .probing p .. => some p

namespace World

def set (w : World) (t : ℕ) (task : Task) (files : Table ℕ Pid) : World :=
  { w with tasks := w.tasks.set t task, files := files }

variable (w : World)

def idle (p : Pid) : Bool := w.tasks.all fun task => task.proc != some p

def endProc (tasks : List Task) (p : Pid) : List Task :=
  tasks.map fun task => if task.proc = some p then .finished else task

variable (t : ℕ)

def openLock (ok : Bool) : World :=
  match w.tasks[t]? with
  | some (.allocating p range passed (n :: rest) .opening) =>
    if ok then
      { w.set t (.allocating p range passed (n :: rest) (.opened w.files.next))
        (w.files.openFile p n) with
        lockFiles := update w.lockFiles n true }
    else w.set t .finished w.files
  | some (.allocating _ _ _ [] .opening) => w.set t .finished w.files
  | _ => w

def flock : World :=
  match w.tasks[t]? with
  | some (.allocating p range passed rest (.opened fd)) =>
    let phase := if (w.files.lock fd).1 then .locked fd else .passing fd .held
    w.set t (.allocating p range passed rest phase) (w.files.lock fd).2
  | some (.adopting p n fd second none) =>
    w.set t (.adopting p n fd second (some (w.files.lock second).1)) (w.files.lock second).2
  | some (.probing p fd none) => w.set t (.probing p fd (some (w.files.lock fd).1))
      (w.files.lock fd).2
  | _ => w

def isServed (answer : Bool) : World :=
  match w.tasks[t]? with
  | some (.allocating p range passed (n :: rest) (.locked fd)) =>
    if answer then w.set t (.allocating p range passed (n :: rest) (.passing fd .served)) w.files
    else w.set t (.lease p n fd) w.files
  | _ => w

def close : World :=
  match w.tasks[t]? with
  | some (.allocating p range passed (n :: rest) (.passing fd why)) =>
    w.set t (.allocating p range (passed ++ [(n, why)]) rest .opening) (w.files.close p fd)
  | some (.dropping p _ fd) => w.set t .finished (w.files.close p fd)
  | some (.handing p _ fd _) => w.set t .finished (w.files.close p fd)
  | some (.adopting p n fd second (some free)) =>
    if free then w.set t (.refusing p fd) (w.files.close p second)
    else w.set t (.lease p n fd) (w.files.close p second)
  | some (.refusing p fd) => w.set t .finished (w.files.close p fd)
  | some (.probing p fd (some _)) => w.set t .finished (w.files.close p fd)
  | _ => w

def recordOwner (user : String) : World :=
  match w.tasks[t]? with
  | some (.lease _ n _) => { w with owner := update w.owner n (some user) }
  | _ => w

/-- `drop` removes the owner file, and only then is the lock file closed. -/
def drop : World :=
  match w.tasks[t]? with
  | some (.lease p n fd) =>
    { w.set t (.dropping p n fd) w.files with owner := update w.owner n none }
  | _ => w

def intoHandoffFd : World :=
  match w.tasks[t]? with
  | some (.lease p n fd) => w.set t (.handing p n fd false) w.files
  | _ => w

def forkKeeper (child : Pid) : World :=
  match w.tasks[t]? with
  | some (.handing p n fd false) =>
    if w.idle child then
      { w with
        files := w.files.fork p child
        tasks := w.tasks.set t (.handing p n fd true) ++ [.child child n fd] }
    else w
  | _ => w

/-- Between `fork` and `exec` the child does nothing else. -/
def execKeeper : World :=
  match w.tasks[t]? with
  | some (.child p n fd) =>
    if (w.set t .finished w.files).idle p then w.set t (.keeper p n fd) (w.files.exec p fd) else w
  | _ => w

def detach (child : Pid) : World :=
  match w.tasks[t]? with
  | some (.keeper p n fd) =>
    if w.idle child then w.set t (.keeper child n fd) (w.files.fork p child) else w
  | _ => w

/-- `adopt` compares the descriptor with the number's lock file, and opens that once more. -/
def adopt : World :=
  match w.tasks[t]? with
  | some (.keeper p n fd) =>
    if (w.files.descs fd).any fun d => d.file == n then
      w.set t (.adopting p n fd w.files.next none) (w.files.openFile p n)
    else w.set t (.refusing p fd) w.files
  | _ => w

def step : Event → World
  | .allocate p range =>
    { w with tasks := w.tasks ++ [.allocating p range [] range.numbers .opening] }
  | .probe p n =>
    { w with
      files := w.files.openFile p n
      lockFiles := update w.lockFiles n true
      tasks := w.tasks ++ [.probing p w.files.next none] }
  | .openLock t ok => w.openLock t ok
  | .flock t => w.flock t
  | .isServed t answer => w.isServed t answer
  | .close t => w.close t
  | .recordOwner t user => w.recordOwner t user
  | .drop t => w.drop t
  | .intoHandoffFd t => w.intoHandoffFd t
  | .forkKeeper t child => w.forkKeeper t child
  | .execKeeper t => w.execKeeper t
  | .detach t child => w.detach t child
  | .adopt t => w.adopt t
  | .fork p child => { w with files := w.files.fork p child }
  | .exit p => { w with files := w.files.exit p, tasks := endProc w.tasks p }

end World

end Linrdp.Session.Lease
