import Linrdp.Rdpeudp.Connection

/-!
# The stream over a connection, and its driver

`stream.rs` and `driver.rs` of the tokio side: the tasks that poll `RdpeudpStream`, and the driver
task that owns the connection and the socket. They meet in `SharedIo`, behind one mutex. A step of
the system is what one of them does under one lock, or between two, and what the outside decides is
part of the step. A driver that is dropped can be dropped at its awaits only. Nothing panics under
the lock, so it is never poisoned.

A waker is the task it wakes. `parked` are the polls that returned `Pending` and whose task has not
been woken since. Between taking the wakers of a flush and waking them the driver has them in hand
(`Pc.hand`). The padding of the handshake datagrams, the statistics and `connected_notify` are left
out.
-/

namespace Linrdp.Rdpeudp.Stream

open Rdpeudp.Pdu Rdpeudp.Connection Rdpeudp.Timing

def writeBufHighWater : ℕ := 2 ^ 20

def readBufHighWater : ℕ := 2 ^ 20

/-- `io::ErrorKind`, with the kinds a socket can give by number. -/
inductive IoErrorKind
  | invalidData | connectionAborted | brokenPipe
  | socket (kind : ℕ)
deriving DecidableEq

abbrev Task := ℕ

/-! ### The shared state -/

structure SharedIo where
  readBuf : Bytes
  readWaker : Option Task
  writeBuf : Bytes
  writeWaker : Bool
  flushWaker : Option Task
  readDrainedWaker : Bool
  writeRoomWaker : Option Task
  error : Option IoErrorKind
  closed : Bool

namespace SharedIo

def new : SharedIo := ⟨[], none, [], false, none, false, none, none, false⟩

variable (s : SharedIo)

def wakers : List Task := s.readWaker.toList ++ s.flushWaker.toList ++ s.writeRoomWaker.toList

def close : SharedIo :=
  { s with
    closed := true
    readWaker := none
    writeWaker := false
    flushWaker := none
    readDrainedWaker := false
    writeRoomWaker := none }

def fail (kind : IoErrorKind) : SharedIo := { s with error := s.error.or (some kind) }

end SharedIo

/-! ### The polls -/

inductive PollFn
  | read (remaining : ℕ)
  | write (buf : Bytes)
  | flush | shutdown
deriving DecidableEq

inductive Answer
  | pending
  | read (data : Bytes)
  | written (n : ℕ)
  | ok
  | error (kind : IoErrorKind)
deriving DecidableEq

variable (s : SharedIo)

def pollRead (t : Task) (remaining : ℕ) : Answer × SharedIo :=
  if s.readBuf ≠ [] then
    (.read (s.readBuf.take remaining),
      { s with readBuf := s.readBuf.drop remaining, readDrainedWaker := false })
  else
    match s.error with
    | some kind => (.error kind, s)
    | none => if s.closed then (.read [], s) else (.pending, { s with readWaker := some t })

def pollWrite (t : Task) (buf : Bytes) : Answer × SharedIo :=
  match s.error with
  | some kind => (.error kind, s)
  | none =>
    if s.closed then (.error .brokenPipe, s)
    else if writeBufHighWater ≤ s.writeBuf.length then (.pending,
      { s with writeRoomWaker := some t })
    else (.written buf.length, { s with writeBuf := s.writeBuf ++ buf, writeWaker := false })

def pollFlush (t : Task) : Answer × SharedIo :=
  match s.error with
  | some kind => (.error kind, s)
  | none => if s.writeBuf = [] then (.ok, s) else (.pending, { s with flushWaker := some t })

/-- A poll, but for the wakes of `poll_shutdown`. -/
def pollOf (t : Task) : PollFn → Answer × SharedIo
  | .read remaining => pollRead s t remaining
  | .write buf => pollWrite s t buf
  | .flush => pollFlush s t
  | .shutdown => (.ok, s.close)

inductive Place
  | read | write | flush | shutdown
deriving DecidableEq

def PollFn.place : PollFn → Place
  | .read _ => .read
  | .write _ => .write
  | .flush => .flush
  | .shutdown => .shutdown

/-! ### The driver -/

/-- Where `drain_transmits` and `drain_events` go on. -/
inductive Next
  | head | events | tail | check | leave
deriving DecidableEq

/-- Where the driver is. `leaving` carries the error of `run_to_completion`. -/
inductive Pc
  | drain (next : Next)
  | head
  | select (hasRoom : Bool)
  | take
  | hand (data : Bytes) (streamClosed : Bool) (flush room : Option Task)
  | events (next : Next)
  | tail | check
  | leaving (error : Option IoErrorKind)
  | done
deriving DecidableEq

def Next.pc : Next → Pc
  | .head => .head
  | .events => .events .tail
  | .tail => .tail
  | .check => .check
  | .leave => .leaving none

structure Driver where
  conn : RdpeudpConnection
  pendingWrite : Option Bytes
  pc : Pc

def Driver.new (conn : RdpeudpConnection) : Driver := ⟨conn, none, .drain .head⟩

def isDroppable (e : RdpeudpError) : Bool :=
  match e.kind with
  | .decode _ | .prefixByte _ | .invalidPacket _ | .invalidState => true
  | _ => false

/-- `queue_write`: the driver goes on through `drain_transmits`, goes on without it, or leaves. -/
def Driver.queueWrite (d : Driver) (data : Bytes) (next : Next) : Driver :=
  match d.conn.send data with
  | (.ok (), conn) => { d with conn, pc := .drain next }
  | (.error e, conn) =>
    if e.error.kind = .sendBufferFull then { d with conn, pendingWrite := some e.data, pc :=
      next.pc }
    else { d with conn, pc := .leaving (some .invalidData) }

def Driver.flushPendingWrite (d : Driver) : Driver :=
  if d.conn.state = .closed then { d with pc := .check }
  else
    match d.pendingWrite with
    | none => { d with pc := .check }
    | some data => { d with pendingWrite := none }.queueWrite data .check

/-! ### The system -/

structure System where
  shared : SharedIo
  driver : Driver
  parked : List (Place × Task)

def start (conn : RdpeudpConnection) : System := ⟨.new, .new conn, []⟩

namespace System

variable (s : System)

def wake (tasks : List Task) : System := { s with parked := s.parked.filter fun p => p.2 ∉ tasks }

def close : System := { s with shared := s.shared.close }.wake s.shared.wakers

def poll (t : Task) (fn : PollFn) : System :=
  let r := pollOf s.shared t fn
  let s := if fn = .shutdown then s.close else { s with shared := r.2 }
  { s with
    parked := s.parked.filter (fun p => p ≠ (fn.place, t)) ++
      if r.1 = .pending then [(fn.place, t)] else [] }

def goTo (pc : Pc) : System := { s with driver := { s.driver with pc } }

def withConn (conn : RdpeudpConnection) (pc : Pc) : System :=
  { s with driver := { s.driver with conn, pc } }

end System

inductive Act
  /-- `poll_transmit` of `drain_transmits`, and whether the send fails -/
  | transmit (now : ℕ) (failure : Option ℕ)
  | pollDrained
  | received (datagram : Except ℕ Bytes) (now : ℕ)
  | pollWriteReady
  | timer (now : ℕ)
  | go

section driver

variable [MulF64]

variable (s : System)

def System.selectStep (hasRoom : Bool) : Act → System
  | .pollDrained =>
    if hasRoom then s
    else if s.shared.readBuf.length < readBufHighWater ∨ s.shared.closed then s.goTo .tail
    else { s with shared := { s.shared with readDrainedWaker := true } }
  | .received (.error kind) _ => if hasRoom then s.goTo (.leaving (some (.socket kind))) else s
  | .received (.ok datagram) now =>
    if hasRoom then
      match s.driver.conn.handleDatagram datagram now with
      | (.ok (), conn) => s.withConn conn (.drain .events)
      | (.error e, conn) =>
        if isDroppable e then s.withConn conn (.drain .events)
        else s.withConn conn (.leaving (some .invalidData))
    else s
  | .pollWriteReady =>
    if s.driver.pendingWrite.isSome then s
    else if s.shared.writeBuf ≠ [] ∨ s.shared.closed then s.goTo .take
    else { s with shared := { s.shared with writeWaker := true } }
  | .timer now =>
    -- there is a deadline, and it is over
    if s.driver.conn.timers.expired now = [] then s
    else s.withConn (s.driver.conn.handleTimeout now) (.drain .events)
  | _ => s

def System.handStep (data : Bytes) (streamClosed : Bool) (flush room : Option Task) : System :=
  let s := s.wake (flush.toList ++ room.toList)
  if streamClosed then s.withConn s.driver.conn.close (.events .leave)
  else if data = [] then s.goTo .tail
  else { s with driver := s.driver.queueWrite data .tail }

def System.eventStep (next : Next) : System :=
  match s.driver.conn.pollEvent with
  | (none, conn) => s.withConn conn next.pc
  | (some .connected, conn) => s.withConn conn (.events next)
  | (some (.dataReceived data), conn) =>
    ({ s with shared := { s.shared with readBuf := s.shared.readBuf ++ data, readWaker := none }
      }.wake
      s.shared.readWaker.toList).withConn conn (.events next)
  | (some .connectionClosed, conn) => s.close.withConn conn (.events next)

def System.driverStep (act : Act) : System :=
  match s.driver.pc, act with
  | .drain next, .transmit now failure =>
    match s.driver.conn.pollTransmit now, failure with
    | (none, conn), _ => s.withConn conn next.pc
    | (some _, conn), none => s.withConn conn (.drain next)
    | (some _, conn), some kind => s.withConn conn (.leaving (some (.socket kind)))
  | .head, .go => s.goTo (.select (s.shared.readBuf.length < readBufHighWater))
  | .select hasRoom, act => s.selectStep hasRoom act
  | .take, .go =>
    { s with shared := { s.shared with writeBuf := [], flushWaker := none, writeRoomWaker := none }
      }.goTo
      (.hand s.shared.writeBuf (s.shared.closed && s.shared.writeBuf.isEmpty) s.shared.flushWaker
        s.shared.writeRoomWaker)
  | .hand data streamClosed flush room, .go => s.handStep data streamClosed flush room
  | .events next, .go => s.eventStep next
  | .tail, .go => { s with driver := s.driver.flushPendingWrite }
  | .check, .go =>
    if s.driver.conn.state = .closed then s.close.goTo (.leaving none) else s.goTo .head
  | .leaving error, .go => { s with shared := error.elim s.shared s.shared.fail }.close.goTo .done
  | _, _ => s

/-- `Drop` of a driver that has not released the stream. -/
def System.dropDriver : System :=
  match s.driver.pc with
  | .drain _ | .select _ => { s with shared := s.shared.fail .connectionAborted }.close.goTo .done
  | _ => s

inductive Step
  | poll (t : Task) (fn : PollFn)
  | shutdown
  | driver (act : Act)
  | dropDriver

def step : Step → System
  | .poll t fn => s.poll t fn
  | .shutdown => s.close
  | .driver act => s.driverStep act
  | .dropDriver => s.dropDriver

end driver

end Linrdp.Rdpeudp.Stream
