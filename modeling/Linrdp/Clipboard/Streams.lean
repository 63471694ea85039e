import Linrdp.Clipboard.Paste
import Mathlib.Data.List.Perm.Basic

/-!
# The answers of one download and the next

A response for a file's contents carries the stream it is for, and nothing else of its request; each
download counts its streams from the same number. `own_of_apart`: as long as no list comes while a
request is under way for a stream the list can get to, a response that changes anything is the
answer to the request the current download waits for. Requests carry the number of their download,
which is not on the wire.
-/

namespace Linrdp.Clipboard.Streams

open List Lib.Runs Clipboard.Paste Option

structure Tagged where
  download : ℕ
  request : FileContentsRequest
deriving DecidableEq

def Tagged.streamId (q : Tagged) : ℕ := q.request.streamId

structure State where
  downloads : ℕ
  transfer : Option Transfer
  /-- `sent_file_contents_requests` of the channel -/
  table : List (ℕ × FileContentsFlags)
  (queue sent : List Tagged)

def start : State := ⟨0, none, [], [], []⟩

inductive Event
  /-- the client's file list: `on_remote_file_list` -/
  | fileList (clipDataId : Option ℕ) (files : List FileDescriptor)
  /-- the loop takes its next message: `request_file_contents` -/
  | send
  | respond (i : ℕ) (data : Option Bytes) (writeError : Option ℕ)

namespace State

variable (s : State)

def outstanding : List Tagged := s.queue ++ s.sent

def moved (outcome : Transfer × Option FileContentsRequest) : State :=
  { s with
    transfer := some outcome.1
    queue := s.queue ++ outcome.2.toList.map fun request => ⟨s.downloads, request⟩ }

def tracked (streamId : ℕ) : Option (ℕ × FileContentsFlags) :=
  s.table.find? fun entry => entry.1 == streamId

/-- A response to a request for a size that is not of eight bytes is made an error. -/
def checked (flags : FileContentsFlags) (data : Option Bytes) : Option Bytes :=
  data.filter fun bytes => flags == .range || bytes.length == 8

def response (helper : Helper) (streamId : ℕ) (data : Option Bytes)
    (writeError : Option ℕ) : State :=
  match s.tracked streamId with
  | none => s
  | some (_, flags) =>
    let s := { s with table := s.table.filter fun entry => entry.1 != streamId }
    match s.transfer with
    | none => s
    | some t => s.moved (onFileContentsResponse helper ⟨streamId, checked flags data, writeError⟩ t)

end State

open State

/-- One step. The file helper's answers are given for each download. -/
def step (helpers : ℕ → Helper) (s : State) : Event → State
  | .fileList clipDataId files =>
    { s with downloads := s.downloads + 1 }.moved
      (onRemoteFileList (helpers (s.downloads + 1)) clipDataId files)
  | .send =>
    match s.queue with
    | [] => s
    | q :: rest =>
      { s with
        queue := rest
        table := (q.streamId, q.request.flags) :: s.table.filter fun entry => entry.1 != q.streamId
        sent := s.sent ++ [q] }
  | .respond i data writeError =>
    match s.sent[i]? with
    | none => s
    | some q =>
      { s with sent := s.sent.eraseIdx i }.response (helpers s.downloads) q.streamId data writeError

/-- **A response that changes the transfer is the answer to the request the current download waits
for.** -/
def Own (helpers : ℕ → Helper) (s : State) : Event → Prop
  | .respond i data writeError => ∀ q, s.sent[i]? = some q →
    (step helpers s (.respond i data writeError)).transfer ≠ s.transfer →
      q.download = s.downloads ∧ ∃ d, s.transfer = some (.running d) ∧
      d.requestForCurrent = some q.request
  | _ => True

/-- A list of `n` files comes only when no request is under way for one of the streams from 2 to `n
+ 1`. -/
def Apart (s : State) : Event → Prop
  | .fileList _ files => ∀ q ∈ s.outstanding, files.length + 1 < q.streamId
  | _ => True

instance (s : State) : DecidablePred (Apart s)
  | .fileList _ files => inferInstanceAs (Decidable
      (∀ q ∈ s.outstanding, files.length + 1 < q.streamId))
  | .send | .respond .. => inferInstanceAs (Decidable True)

/-! ### The streams of a download -/

/-- The stream of the current request, and all that the rest of the list can use. -/
structure Below (bound : ℕ) (d : Download) : Prop where
  current : d.streamId ≤ bound
  next : d.nextStreamId + d.pending.length ≤ bound

section below

variable {bound : ℕ} {h : Helper} {d : Download}

theorem Below.same {d' : Download} (hd : Below bound d) (hcurrent : d'.streamId = d.streamId)
    (hnext : d'.nextStreamId = d.nextStreamId) (hpending : d'.pending = d.pending) :
    Below bound d' :=
  ⟨hcurrent ▸ hd.current, hnext ▸ hpending ▸ hd.next⟩

theorem Below.advanceFrom {ts : List DownloadTarget} (hcurrent : d.streamId ≤ bound)
    (hnext : d.nextStreamId + ts.length ≤ bound) : Below bound (d.advanceFrom h ts) := by
  induction ts generalizing d with
  | nil => exact ⟨hcurrent, hnext⟩
  | cons t rest ih =>
    rw [length_cons] at hnext
    have hmod := Nat.mod_le (d.nextStreamId + 1) (2 ^ 32)
    have hrest : d.nextStreamId + rest.length ≤ bound := by omega
    have halloc : (d.nextStreamId + 1) % 2 ^ 32 + rest.length ≤ bound := by omega
    unfold Download.advanceFrom
    split
    · exact ⟨by change (d.nextStreamId + 1) % 2 ^ 32 ≤ bound; omega, halloc⟩
    · split_ifs
      · exact ih hcurrent hrest
      · exact ih hcurrent hrest
    · split_ifs
      · exact ih hcurrent hrest
      · exact ⟨by change (d.nextStreamId + 1) % 2 ^ 32 ≤ bound; omega, halloc⟩
      · exact ih hcurrent hrest

theorem Below.advance (hd : Below bound d) : Below bound (d.advance h) := by
  unfold Download.advance
  split
  · exact hd
  · exact .advanceFrom hd.current hd.next

theorem Below.skipCurrent (hd : Below bound d) : Below bound d.skipCurrent := by
  unfold Download.skipCurrent
  split <;> exact hd.same rfl rfl rfl

theorem Below.receiveSize (hd : Below bound d) (index : ℕ) (path : Path) (data : Bytes) :
    Below bound (d.receiveSize h index path data) := by
  unfold Download.receiveSize Download.startSized
  split_ifs <;> exact hd.same rfl rfl rfl

theorem Below.receiveRange (hd : Below bound d) (file : List Bytes) (index : ℕ) (path : Path)
    (remaining offset : ℕ) (data : Bytes) (writeError : Option ℕ) :
    Below bound (d.receiveRange file index path remaining offset data writeError) := by
  unfold Download.receiveRange
  dsimp only
  split_ifs
  · exact hd.skipCurrent
  all_goals split <;> exact hd.same rfl rfl rfl

theorem below_listed (fs : List FileDescriptor) (i : ℕ) (hcurrent : d.streamId ≤ bound)
    (hnext : d.nextStreamId + d.pending.length + fs.length ≤ bound) :
    Below bound (listed h i fs d) := by
  induction fs generalizing i d with
  | nil => exact ⟨hcurrent, hnext⟩
  | cons f fs ih =>
    rw [length_cons] at hnext
    unfold listed
    split
    · exact ih (i + 1) hcurrent (by omega)
    · dsimp only
      split_ifs
      · exact ih (i + 1) hcurrent (by dsimp only; omega)
      · exact ih (i + 1) hcurrent (by dsimp only; omega)
      · refine ih (i + 1) hcurrent ?_
        rw [length_append, length_singleton]
        dsimp only
        omega

/-- An answer for the stream of the current request leads to the next request of the same download.
-/
theorem exists_settle {r : FileContentsResponse} (hd : Below bound d)
    (hstream : r.streamId = d.streamId) (hcurrent : d.current.isSome = true) :
    ∃ d', Below bound d' ∧ onFileContentsResponse h r (.running d) = settle h d' := by
  unfold onFileContentsResponse
  dsimp only
  rw [if_neg (not_not.2 hstream)]
  split
  · exact ⟨_, hd.skipCurrent, rfl⟩
  · rename_i hnone
    rw [hnone] at hcurrent
    cases hcurrent
  · exact ⟨_, hd.receiveSize _ _ _, rfl⟩
  · exact ⟨_, hd.receiveRange _ _ _ _ _ _ _, rfl⟩

end below

/-! ### The requests under way -/

/-- Of the streams the current download can use, the one of its current request is under way at
most, and for nothing else. -/
structure Only (s : State) (d : Download) (request : FileContentsRequest) (bound : ℕ) : Prop where
  waits : d.requestForCurrent = some request
  below : Below bound d
  one : s.outstanding.countP (fun q => q.streamId ≤ bound) ≤ 1
  own : ∀ q ∈ s.outstanding, q.streamId ≤ bound → q = ⟨s.downloads, request⟩

def Inv (s : State) : Prop :=
  ∀ d, s.transfer = some (.running d) → ∃ request bound, Only s d request bound

section run

variable {helpers : ℕ → Helper} {s : State} {d : Download} {q : Tagged} {i bound : ℕ}

theorem streamId_requestForCurrent {request : FileContentsRequest}
    (h : d.requestForCurrent = some request) : request.streamId = d.streamId ∧
    d.current.isSome = true := by
  unfold Download.requestForCurrent at h
  obtain ⟨c, hc, rfl⟩ := map_eq_some_iff.1 h
  rw [hc]
  cases c <;> exact ⟨rfl, rfl⟩

theorem inv_moved (h : Helper) (hold : ∀ q ∈ s.outstanding, bound < q.streamId) (hd : Below bound d)
    : Inv (s.moved (settle h d)) := by
  intro d' hd'
  unfold settle at hd' ⊢
  dsimp only at hd' ⊢
  split at hd'
  · rename_i request hrequest
    obtain rfl := Transfer.running.inj (some.inj hd')
    have hmem : ∀ q, q ∈ (s.queue ++ [⟨s.downloads, request⟩]) ++ s.sent →
        q = ⟨s.downloads, request⟩ ∨ q ∈ s.outstanding := by
      simp only [outstanding, mem_append, mem_singleton]
      tauto
    have hnone : s.outstanding.countP (fun q => q.streamId ≤ bound) = 0 :=
      countP_eq_zero.2 fun q hq => by simpa using hold q hq
    refine ⟨request, bound, hrequest, hd.advance, ?_, fun q hq hle => ?_⟩
    · rw [outstanding, countP_append] at hnone
      change countP _ ((s.queue ++ [⟨s.downloads, request⟩]) ++ s.sent) ≤ 1
      have hlast := @countP_le_length _ (fun q : Tagged => decide (q.streamId ≤ bound))
          [⟨s.downloads, request⟩]
      rw [length_singleton] at hlast
      rw [countP_append, countP_append]
      omega
    · rcases hmem q hq with heq | hq
      · exact heq
      · exact absurd (hold q hq) (Nat.not_lt.2 hle)
  · cases some.inj hd'

theorem inv_fewer {s' : State} (h : Inv s) (htransfer : s'.transfer = s.transfer)
    (hdownloads : s'.downloads = s.downloads) (hsub : Subperm s'.outstanding s.outstanding) :
    Inv s' := by
  intro d hd
  obtain ⟨request, bound, hwaits, hbelow, hone, hown⟩ := h d (htransfer ▸ hd)
  refine ⟨request, bound, hwaits, hbelow, (hsub.countP_le _).trans hone, fun q hq hle => ?_⟩
  rw [hdownloads]
  exact hown q (hsub.subset hq) hle

theorem inv_fileList (clipDataId : Option ℕ) (files : List FileDescriptor)
    (hapart : Apart s (.fileList clipDataId files)) :
    Inv (step helpers s (.fileList clipDataId files)) := by
  refine inv_moved _ (s := { s with downloads := s.downloads + 1 }) hapart
    (below_listed files 0 ?_ ?_)
  · exact Nat.zero_le _
  · change 1 + 0 + files.length ≤ files.length + 1
    omega

theorem inv_send (h : Inv s) : Inv (step helpers s .send) := by
  cases hqueue : s.queue with
  | nil =>
    have hsame : step helpers s .send = s := by simp [step, hqueue]
    rwa [hsame]
  | cons q rest =>
    refine inv_fewer h (by simp [step, hqueue]) (by simp [step, hqueue]) (Perm.subperm ?_)
    simp only [step, hqueue, outstanding, cons_append]
    rw [← append_assoc]
    exact perm_append_singleton q _

def State.answered (s : State) (i : ℕ) : State := { s with sent := s.sent.eraseIdx i }

theorem perm_outstanding (hq : s.sent[i]? = some q) :
    s.outstanding.Perm (q :: (s.answered i).outstanding) := by
  obtain ⟨hlt, rfl⟩ := List.getElem?_eq_some_iff.1 hq
  exact ((getElem_cons_eraseIdx_perm hlt).symm.append_left s.queue).trans perm_middle

theorem step_respond (hq : s.sent[i]? = some q) (data : Option Bytes) (writeError : Option ℕ) :
    step helpers s (.respond i data writeError) =
      (s.answered i).response (helpers s.downloads) q.streamId data writeError := by
  simp [step, hq, State.answered]

/-- An answer for another stream, or when nothing runs, is only taken off the table. -/
theorem response_cases (s : State) (helper : Helper) (streamId : ℕ) (data : Option Bytes)
    (writeError : Option ℕ) :
    (∃ table, s.response helper streamId data writeError = { s with table := table }) ∨
    ∃ d data' table, s.transfer = some (.running d) ∧ streamId = d.streamId ∧
      s.response helper streamId data writeError = { s with table := table }.moved
        (onFileContentsResponse helper ⟨streamId, data', writeError⟩ (.running d)) := by
  have hsame : ∀ table t, s.transfer = some t →
      { s with table := table }.moved (t, none) = { s with table := table } := by
    intro table t ht
    simp [moved, ht]
  unfold response
  split
  · exact .inl ⟨s.table, rfl⟩
  · dsimp only
    split
    · exact .inl ⟨_, rfl⟩
    · rename_i t ht
      cases t with
      | finished d roots => exact .inl ⟨_, hsame _ _ ht⟩
      | running d =>
        by_cases hstream : streamId = d.streamId
        · exact .inr ⟨d, _, _, ht, hstream, rfl⟩
        · have hother : ∀ r : FileContentsResponse, r.streamId = streamId →
              onFileContentsResponse helper r (.running d) = (.running d, none) := by
            rintro r rfl
            exact if_pos hstream
          rw [hother _ rfl]
          exact .inl ⟨_, hsame _ _ ht⟩

theorem inv_respond (h : Inv s) (i : ℕ) (data : Option Bytes) (writeError : Option ℕ) :
    Inv (step helpers s (.respond i data writeError)) := by
  cases hq : s.sent[i]? with
  | none =>
    have hsame : step helpers s (.respond i data writeError) = s := by simp [step, hq]
    rwa [hsame]
  | some q =>
    have hperm := perm_outstanding hq
    rw [step_respond hq]
    rcases response_cases (s.answered i) (helpers s.downloads) q.streamId data writeError with
      ⟨table, heq⟩ | ⟨d, data', table, hd, hstream, heq⟩
    · rw [heq]
      exact inv_fewer h rfl rfl ((sublist_cons_self q _).subperm.trans hperm.symm.subperm)
    · obtain ⟨request, bound, hwaits, hbelow, hone, -⟩ := h d hd
      obtain ⟨d', hbelow', hsettle⟩ :=
        exists_settle (h := helpers s.downloads) (r := ⟨q.streamId, data', writeError⟩) hbelow
          hstream
          (streamId_requestForCurrent hwaits).2
      rw [heq, hsettle]
      -- the answered request was the one that could be under way
      rw [hperm.countP_eq, countP_cons_of_pos (by simpa [hstream] using hbelow.current)] at hone
      have hnone : (s.answered i).outstanding.countP (fun q => q.streamId ≤ bound) = 0 := by omega
      refine inv_moved _ (fun p hp => ?_) hbelow'
      simpa using countP_eq_zero.1 hnone p hp

theorem Inv.own (h : Inv s) (e : Event) : Own helpers s e := by
  cases e with
  | fileList | send => trivial
  | respond i data writeError =>
    intro q hq hchanged
    rw [step_respond hq] at hchanged
    rcases response_cases (s.answered i) (helpers s.downloads) q.streamId data writeError with
      ⟨table, heq⟩ | ⟨d, -, -, hd, hstream, -⟩
    · rw [heq] at hchanged
      exact absurd rfl hchanged
    · obtain ⟨request, bound, hwaits, hbelow, -, hown⟩ := h d hd
      have hmine := hown q (mem_append_right _ (mem_of_getElem? hq))
          (hstream.trans_le hbelow.current)
      rw [hmine]
      exact ⟨rfl, d, hd, hwaits⟩

end run

/-- **Every response that changes anything answers its own download and its own file**, in every run
in which no list comes while a request is under way for a stream the list can get to. -/
theorem own_of_apart (helpers : ℕ → Helper) (events : List Event)
    (h : Along (step helpers) Apart start events) :
    Along (step helpers) (Own helpers) start events := by
  refine h.mono_inv (I := Inv) (fun s e hs hapart => ?_) (fun _ e hs _ => hs.own e)
    (by intro d hd; cases hd)
  cases e with
  | fileList clipDataId files => exact inv_fileList clipDataId files hapart
  | send => exact inv_send hs
  | respond i data writeError => exact inv_respond hs i data writeError

/-! ### Two lists -/

def oneByte (name : Char) : FileDescriptor := ⟨[name], none, false, some 1⟩

def able : ℕ → Helper := fun _ => ⟨fun _ => true, fun _ => true⟩

/-- The second list comes while the second file of the first is under way, with stream 3. -/
def inTurn : List Event :=
  [.fileList none [oneByte 'a', oneByte 'b'], .send, .respond 0 (some [1]) none, .send,
    .fileList none [oneByte 'c'], .send, .respond 0 (some [2]) none, .respond 0 (some [3]) none]

theorem own_of_apart_inTurn : Along (step able) (Own able) start inTurn ∧
    (run (step able) start inTurn).transfer.map (fun t => t.download.closed) =
      some [⟨0, [['c']], 1, [[3]], true⟩] :=
  ⟨own_of_apart able inTurn ⟨by decide, by decide, by decide, by decide, by decide, by decide, by
    decide, by decide, trivial⟩, by decide⟩

def overtaken : List Event :=
  [.fileList none [oneByte 'a'], .send, .fileList none [oneByte 'b'], .send]

/-- **The byte of the first file is written to the second one**: both downloads use stream 2, and
the answer to the first one's request completes the second. -/
theorem not_own_overtaken :
    ¬ Along (step able) (Own able) start (overtaken ++ [.respond 0 (some [1]) none]) ∧
      (run (step able) start (overtaken ++ [.respond 0 (some [1]) none])).transfer.map
        (fun t => t.download.closed) = some [⟨0, [['b']], 1, [[1]], true⟩] := by
  refine ⟨fun h => ?_, by decide⟩
  obtain ⟨-, hown, -⟩ := (along_append _ _ _).1 h
  have hfirst := hown ⟨1, 2, 0, .range, 0, 1, none⟩ (by decide) (by decide)
  exact absurd hfirst.1 (by decide)

end Linrdp.Clipboard.Streams
