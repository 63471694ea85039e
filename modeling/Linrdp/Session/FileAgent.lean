import Linrdp.Lib.Bytes
import Linrdp.Lib.Runs

/-!
# The file helper's channel

`session/fileagent.rs`: the worker asks a helper process, which runs as the session's user, to open
and create files. Both ends refuse to read a frame beyond `maxFrame`, but neither looks at the limit
before it writes. One step is one `ask`: the frame is written, the helper goes around its loop once,
and the reply is read. What the system calls of a request came to is part of its input. A stream is
a list of bytes, each with the descriptor that rides on it.

`lockstep_iff`: the two ends stay in step along a sequence of requests if and only if every request
and every reply is within the limit, or the request is too long to be sent at all.
-/

namespace Linrdp.Session.FileAgent

open List Lib.Bytes Lib.Runs

abbrev Bytes := List UInt8

def maxFrame : ℕ := 64 * 1024

def utf8 (text : String) : Bytes := text.toUTF8.data.toList

inductive Op
  | stat | openRead | newTransfer | makeDir | createFile | remove

namespace Op

def toByte : Op → UInt8
  | stat => 1
  | openRead => 2
  | newTransfer => 3
  | makeDir => 4
  | createFile => 5
  | remove => 6

def fromByte (byte : UInt8) : Option Op :=
  match byte.toNat with
  | 1 => some stat
  | 2 => some openRead
  | 3 => some newTransfer
  | 4 => some makeDir
  | 5 => some createFile
  | 6 => some remove
  | _ => none

@[simp] theorem fromByte_toByte (op : Op) : fromByte op.toByte = some op := by cases op <;> rfl

def returnsFd : Op → Bool
  | openRead | createFile => true
  | stat | newTransfer | makeDir | remove => false

end Op

structure System where
  isFile : Bool
  (size fd : ℕ)
  (name path : Bytes)

inductive Answer
  | bytes (body : Bytes)
  | descriptor (fd : ℕ)

variable (display : Bytes → Bytes)

/-- `AgentState::handle`. An error of the system is given as its text; `display` is how a path is
printed, with what is not UTF-8 replaced. -/
def handle (op : Op) (payload : Bytes) :
    Except Bytes System → Except Bytes Answer
  | .ok found =>
    match op with
    | .stat => .ok (.bytes ((if found.isFile then 1 else 0) :: toLe 8 found.size))
    | .openRead | .createFile => .ok (.descriptor found.fd)
    | .newTransfer => .ok (.bytes (found.name ++ 9 :: found.path))
    | .makeDir | .remove => .ok (.bytes [])
  | .error text =>
    match op with
    | .stat => .error (utf8 "stat " ++ display payload ++ utf8 ": " ++ text)
    | .openRead => .error (utf8 "open " ++ display payload ++ utf8 ": " ++ text)
    | .newTransfer | .makeDir | .createFile | .remove => .error text

/-! ### The framing -/

abbrev Cell := UInt8 × Option ℕ

variable (bytes : Bytes)

def plain : List Cell := bytes.map fun byte => (byte, none)

@[simp] theorem length_plain : (plain bytes).length = bytes.length := length_map _

@[simp] theorem plain_append (bs cs : Bytes) : plain (bs ++ cs) = plain bs ++ plain cs := map_append

theorem map_fst_plain : (plain bytes).map Prod.fst = bytes := by
  unfold plain
  rw [map_map]
  exact map_id _

variable (tag : UInt8)

def writeFrame (payload : Bytes) : Option (List Cell) :=
  if payload.length < 2 ^ 32 then some (plain (tag :: (toLe 4 payload.length ++ payload))) else none

inductive Reading
  | short
  /-- the length is beyond the limit, and `rest` is left unread -/
  | beyond (rest : List Cell)
  | frame (tag : UInt8) (body : Bytes) (fd : Option ℕ) (rest : List Cell)

def readExact (n : ℕ) (stream : List Cell) : Option (Bytes × List Cell) :=
  if n ≤ stream.length then some ((stream.take n).map Prod.fst, stream.drop n) else none

def readBody (fd : Option ℕ) (len : ℕ) (stream : List Cell) : Reading :=
  if len > maxFrame then .beyond stream
  else
    match readExact len stream with
    | none => .short
    | some (body, rest) => .frame tag body fd rest

def readFrame (stream : List Cell) : Reading :=
  match readExact 5 stream with
  | none => .short
  | some (header, rest) => readBody (header.headD 0) none (ofLe (header.drop 1)) rest

def readReply (expectFd : Bool) (stream : List Cell) : Reading :=
  if expectFd then
    match stream with
    | [] => .short
    | (status, fd) :: rest =>
      match readExact 4 rest with
      | none => .short
      | some (lenBytes, rest) => readBody status fd (ofLe lenBytes) rest
  else readFrame stream

theorem readExact_plain_append (rest : List Cell) :
    readExact bytes.length (plain bytes ++ rest) = some (bytes, rest) := by
  have hlen := length_plain bytes
  unfold readExact
  rw [if_pos (by rw [length_append, hlen]; omega), take_left' hlen, drop_left' hlen,
    map_fst_plain]

variable {fd : Option ℕ}

theorem readFrame_cons {tag : UInt8} {n : ℕ} (hn : n < 2 ^ 32) (rest : List Cell) :
    readFrame ((tag, fd) :: (plain (toLe 4 n) ++ rest)) = readBody tag none n rest := by
  have h4 := length_toLe 4 n
  have hread : readExact 5 ((tag, fd) :: (plain (toLe 4 n) ++ rest)) = some
      (tag :: toLe 4 n, rest) := by
    have := readExact_plain_append (toLe 4 n) rest
    rw [h4] at this
    unfold readExact at this ⊢
    split_ifs at this with hlen
    obtain ⟨htake, hdrop⟩ := Prod.mk.inj (Option.some.inj this)
    rw [if_pos (by rw [length_cons]; omega), take_succ_cons, drop_succ_cons,
      map_cons, htake, hdrop]
  unfold readFrame
  rw [hread]
  show readBody tag none (ofLe (toLe 4 n)) rest = _
  rw [ofLe_toLe (by norm_num; omega)]

variable {status : UInt8}

theorem readReply_cons (expectFd : Bool) {n : ℕ} (hn : n < 2 ^ 32) (rest : List Cell) :
    readReply expectFd ((status, fd) :: (plain (toLe 4 n) ++ rest)) =
      readBody status (if expectFd then fd else none) n rest := by
  unfold readReply
  cases expectFd with
  | false =>
    rw [if_neg Bool.false_ne_true, if_neg Bool.false_ne_true]
    exact readFrame_cons hn rest
  | true =>
    have hread := readExact_plain_append (toLe 4 n) rest
    rw [length_toLe] at hread
    dsimp only
    rw [if_pos rfl, hread]
    dsimp only
    rw [ofLe_toLe (by norm_num; omega), if_pos rfl]

theorem readBody_plain (fd : Option ℕ) (body : Bytes) :
    readBody tag fd body.length (plain body) =
      if body.length > maxFrame then .beyond (plain body) else .frame tag body fd [] := by
  have hread := readExact_plain_append body []
  rw [append_nil] at hread
  unfold readBody
  rw [hread]

/-! ### A request and its reply -/

structure Channel where
  (toHelper toWorker : List Cell)
  serving : Bool

def Channel.idle : Channel := ⟨[], [], true⟩

structure Request where
  op : Op
  payload : Bytes
  /-- what the system calls will give, or the text of their error -/
  system : Except Bytes System

inductive Outcome
  | ok (body : Bytes) (fd : Option ℕ)
  | refused (text : Bytes)
  | failed | waits

variable (c : Channel)

namespace Channel

def replyOk (body : Bytes) (fd : Option ℕ) : Channel :=
  let len := if body.length < 2 ^ 32 then body.length else 0
  { c with toWorker := c.toWorker ++ (0, fd) :: (plain (toLe 4 len) ++ plain body) }

/-- A reply that cannot be written ends the helper. -/
def replyError (text : Bytes) : Channel :=
  match writeFrame 1 text with
  | none => { c with serving := false }
  | some frame => { c with toWorker := c.toWorker ++ frame }

def reply : Except Bytes Answer → Channel
  | .ok (.bytes body) => c.replyOk body none
  | .ok (.descriptor fd) => c.replyOk [] (some fd)
  | .error text => c.replyError text

/-- Once around the loop of `serve`. A frame that cannot be read ends it. -/
def serve (system : Except Bytes System) (c : Channel) : Channel :=
  match readFrame c.toHelper with
  | .short => c
  | .beyond rest => { c with toHelper := rest, serving := false }
  | .frame tag payload _ rest =>
    let c := { c with toHelper := rest }
    match Op.fromByte tag with
    | none => c.replyError (utf8 s!"unknown operation {tag.toNat}")
    | some op => c.reply (handle display op payload system)

def receive (op : Op) : Outcome × Channel :=
  match readReply op.returnsFd c.toWorker with
  | .short => (if c.serving then .waits else .failed, c)
  | .beyond rest => (.failed, { c with toWorker := rest })
  | .frame status body fd rest =>
    (if status = 0 then .ok body fd else .refused body, { c with toWorker := rest })

def ask (r : Request) : Outcome × Channel :=
  match writeFrame r.op.toByte r.payload with
  | none => (.failed, c)
  | some frame =>
    if c.serving then
      ({ c with toHelper := c.toHelper ++ frame }.serve display r.system).receive r.op
    else (.failed, c)

end Channel

open Channel

def step (r : Request) : Channel := (c.ask display r).2

namespace Request

variable (display : Bytes → Bytes)

variable (r : Request)

def produced : Except Bytes Answer := handle display r.op r.payload r.system

def replyBody : Bytes :=
  match r.produced display with
  | .ok (.bytes body) => body
  | .ok (.descriptor _) => []
  | .error text => text

def Own : Outcome → Prop
  | .ok body none => r.produced display = .ok (.bytes body)
  | .ok body (some fd) => r.produced display = .ok (.descriptor fd) ∧ body = []
  | .refused text => r.produced display = .error text
  | .failed => True
  | .waits => False

/-- **The condition.** The request and its reply are within the limit, or the request is never sent.
-/
def Fits : Prop :=
  2 ^ 32 ≤ r.payload.length ∨ r.payload.length ≤ maxFrame ∧ (r.replyBody display).length ≤ maxFrame

end Request

/-- **In step.** The request gets its own reply or an error, and after it nothing is unread and the
helper waits for the next one. -/
def Lockstep (r : Request) : Prop := r.Own display (c.ask display r).1 ∧ (c.ask display r).2 = .idle

theorem returnsFd_of_handle {display : Bytes → Bytes} {op : Op} {payload : Bytes}
    {system : Except Bytes System} {answer : Answer}
    (h : handle display op payload system = .ok answer) :
    op.returnsFd = match answer with | .bytes _ => false | .descriptor _ => true := by
  cases system with
  | error text => cases op <;> cases h
  | ok found => cases op <;> (obtain rfl := Except.ok.inj h; rfl)

section ask

variable {display : Bytes → Bytes} {r : Request}

theorem ask_idle (hlen : r.payload.length < 2 ^ 32) :
    idle.ask display r =
      if r.payload.length > maxFrame then (.failed, ⟨plain r.payload, [], false⟩)
      else (idle.reply (r.produced display)).receive r.op := by
  unfold ask writeFrame
  rw [if_pos hlen]
  show (serve display r.system ⟨(r.op.toByte, none) ::
    plain (toLe 4 r.payload.length ++ r.payload), [], true⟩).receive r.op = _
  unfold serve
  rw [plain_append, readFrame_cons hlen, readBody_plain]
  split_ifs with hbeyond
  · unfold receive
    cases r.op <;> rfl
  · dsimp only
    rw [Op.fromByte_toByte]
    rfl

variable {body : Bytes}

theorem plain_ne_nil (h : maxFrame < body.length) : plain body ≠ [] := by
  intro hnil
  have := congrArg List.length hnil
  rw [length_plain, length_nil] at this
  omega

theorem lockstep_receive (hlen : body.length < 2 ^ 32)
    (hown : r.Own display
      (if status = 0 then .ok body (if r.op.returnsFd then fd else none) else .refused body)) :
    (r.Own display (receive
        ⟨[], (status, fd) :: (plain (toLe 4 body.length) ++ plain body), true⟩ r.op).1 ∧
      (receive ⟨[], (status, fd) :: (plain (toLe 4 body.length) ++ plain body), true⟩ r.op).2 =
        .idle) ↔ body.length ≤ maxFrame := by
  unfold receive
  rw [readReply_cons _ hlen, readBody_plain]
  by_cases hbeyond : body.length > maxFrame
  · rw [if_pos hbeyond]
    refine ⟨fun h => absurd (congrArg toWorker h.2) (plain_ne_nil hbeyond), fun h => ?_⟩
    omega
  · rw [if_neg hbeyond]
    exact ⟨fun _ => by omega, fun _ => ⟨hown, rfl⟩⟩

theorem lockstep_error {text : Bytes} (hproduced : r.produced display = .error text) :
    (r.Own display ((idle.replyError text).receive r.op).1 ∧
      ((idle.replyError text).receive r.op).2 = .idle) ↔ text.length ≤ maxFrame := by
  unfold replyError writeFrame
  by_cases hlen : text.length < 2 ^ 32
  · have heq : plain (1 :: (toLe 4 text.length ++ text)) =
        (1, none) :: (plain (toLe 4 text.length) ++ plain text) := by
      rw [← plain_append]
      rfl
    rw [if_pos hlen, heq]
    exact lockstep_receive hlen hproduced
  · rw [if_neg hlen]
    constructor
    · intro h
      have hserving := congrArg serving h.2
      unfold receive at hserving
      cases hop : r.op <;> rw [hop] at hserving <;> cases hserving
    · intro h
      have : maxFrame < 2 ^ 32 := by decide
      omega

theorem receive_unread (op : Op) (fd : Option ℕ) (body : Bytes) :
    (receive ⟨[], (0, fd) :: (plain (toLe 4 0) ++ plain body), true⟩ op).2.toWorker =
      plain body := by
  unfold receive
  rw [readReply_cons _ (by decide)]
  rfl

theorem lockstep_ok (hown : r.Own display (.ok body (if r.op.returnsFd then fd else none))) :
    (r.Own display ((idle.replyOk body fd).receive r.op).1 ∧
      ((idle.replyOk body fd).receive r.op).2 = .idle) ↔ body.length ≤ maxFrame := by
  unfold replyOk
  split_ifs with hlen
  · exact lockstep_receive hlen hown
  · have hbeyond : maxFrame < body.length := by
      have : maxFrame < 2 ^ 32 := by decide
      omega
    constructor
    · intro h
      have hworker := congrArg toWorker h.2
      exact absurd ((receive_unread r.op fd body).symm.trans hworker) (plain_ne_nil hbeyond)
    · intro h
      omega

/-- **One request**, from where nothing is unread. -/
theorem lockstep_idle_iff : Lockstep display .idle r ↔ r.Fits display := by
  unfold Lockstep Request.Fits
  by_cases hlen : r.payload.length < 2 ^ 32
  · have hsent : ¬ 2 ^ 32 ≤ r.payload.length := by omega
    rw [ask_idle hlen, or_iff_right hsent]
    by_cases hbeyond : r.payload.length > maxFrame
    · rw [if_pos hbeyond]
      refine ⟨fun h => absurd (congrArg serving h.2) Bool.false_ne_true, fun h => ?_⟩
      omega
    · have hwithin : r.payload.length ≤ maxFrame := by omega
      rw [if_neg hbeyond, and_iff_right hwithin]
      unfold Request.replyBody
      cases hproduced : r.produced display with
      | error text => exact lockstep_error hproduced
      | ok answer =>
        have hfd := returnsFd_of_handle hproduced
        cases answer with
        | bytes body =>
          refine lockstep_ok ?_
          rw [hfd]
          exact hproduced
        | descriptor fd =>
          refine lockstep_ok ?_
          rw [hfd]
          exact ⟨hproduced, rfl⟩
  · have hwrite : writeFrame r.op.toByte r.payload = none := if_neg hlen
    unfold ask
    rw [hwrite]
    exact ⟨fun _ => Or.inl (by omega), fun _ => ⟨trivial, rfl⟩⟩

end ask

/-- **The two ends are in step exactly as long as every frame is within the limit.** -/
theorem lockstep_iff (display : Bytes → Bytes) (rs : List Request) :
    Along (step display) (Lockstep display) .idle rs ↔ ∀ r ∈ rs, r.Fits display := by
  induction rs with
  | nil => simp
  | cons r rs ih =>
    rw [along_cons, forall_mem_cons]
    refine ⟨fun ⟨hr, hrest⟩ => ?_, fun ⟨hr, hrest⟩ => ?_⟩
    · rw [step, hr.2] at hrest
      exact ⟨lockstep_idle_iff.1 hr, ih.1 hrest⟩
    · have hlock := lockstep_idle_iff.2 hr
      refine ⟨hlock, ?_⟩
      rw [step, hlock.2]
      exact ih.2 hrest

/-- A path just within the limit that cannot be looked up: the error names the path, and the reply
is beyond the limit. And a path beyond the limit ends the helper. -/
theorem not_lockstep_long_path :
    (¬ Lockstep id .idle ⟨.stat, List.replicate maxFrame 97, .error (utf8 "File name too long")⟩) ∧
      (idle.ask id ⟨.stat, List.replicate (maxFrame + 1) 97, .error []⟩).2.serving = false := by
  constructor
  · intro h
    rcases lockstep_idle_iff.1 h with hlong | ⟨-, hreply⟩
    · rw [length_replicate] at hlong
      exact absurd hlong (by decide)
    · unfold Request.replyBody Request.produced handle at hreply
      simp only [id_eq, length_append, length_replicate] at hreply
      have : 0 < (utf8 "stat ").length := by decide
      omega
  · rw [ask_idle (by rw [length_replicate]; decide), if_pos (by rw [length_replicate]; decide)]

end Linrdp.Session.FileAgent
