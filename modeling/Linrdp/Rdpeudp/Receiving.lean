import Linrdp.Lib.RunLength
import Linrdp.Lib.Runs
import Linrdp.Rdpeudp.Pdu
import Linrdp.Rdpeudp.Seq

/-!
# The receive window

`recv_window.rs`: the slots of the data numbers, from which acknowledgements are made, and the
reorder buffer, which puts the chunks in the order of their channel numbers. The map of the buffer
is a list of its entries.

`InOrder` is what the buffer is for: as long as a chunk comes under its own number or under an old
one, what is passed on are the chunks in the order they were sent (`InOrder.drain`). `delivers_run`
is what holds of the buffer whatever comes, under whatever numbers.
-/

namespace Linrdp.Rdpeudp.Receiving

open List Lib.RunLength Lib.Runs Rdpeudp.Pdu Rdpeudp.Seq

inductive RecvEntryState
  | pending | received
deriving DecidableEq

structure RecvEntry where
  state : RecvEntryState
  channelSeq : Option ℕ
deriving DecidableEq

structure RecvWindow where
  entries : List RecvEntry
  (baseSeq highestSeq nextChannelSeq : ℕ)
  reorderBuf : List (ℕ × Bytes)
  maxEntries : ℕ
deriving DecidableEq

namespace RecvWindow

def new (initialDataSeq initialChannelSeq logWindowSize : ℕ) : RecvWindow :=
  ⟨[], initialDataSeq, initialDataSeq - 1, initialChannelSeq, [], 2 ^ logWindowSize⟩

variable (w : RecvWindow)

variable (channelSeq : ℕ)

def buffered : Bool := w.reorderBuf.any fun p => p.1 == channelSeq

/-- The slots up to `idx`, as far as they are not there yet. -/
def extend (entries : List RecvEntry) (idx : ℕ) : List RecvEntry :=
  entries ++ List.replicate (idx + 1 - entries.length) ⟨.pending, none⟩

def occupySlot (dataSeq : ℕ) (channelSeq : Option ℕ) : Bool × RecvWindow :=
  if dataSeq < w.baseSeq then (false, w)
  else if dataSeq - w.baseSeq ≥ w.maxEntries then (false, w)
  else
    let idx := dataSeq - w.baseSeq
    let entries := extend w.entries idx
    if entries[idx]?.any fun e => e.state == .received then (false, { w with entries := entries })
    else
      (true, { w with
        entries := entries.set idx ⟨.received, channelSeq⟩
        highestSeq := max w.highestSeq dataSeq })

def insert (data : Bytes) : RecvWindow :=
  { w with reorderBuf := (channelSeq, data) :: w.reorderBuf.filter fun p => p.1 != channelSeq }

/-- The buffer is full, and the packet is neither in it nor the one that would empty it. -/
def refuses : Bool :=
  !(channelSeq < w.nextChannelSeq) && channelSeq != w.nextChannelSeq &&
    w.reorderBuf.length ≥ w.maxEntries && !w.buffered channelSeq

def receive (dataSeq channelSeq : ℕ) (data : Bytes) : Bool × RecvWindow :=
  if w.refuses channelSeq then (false, w)
  else
    match w.occupySlot dataSeq (some channelSeq) with
    | (false, w) => (false, w)
    | (true, w) => (true, if channelSeq < w.nextChannelSeq then w else w.insert channelSeq data)

def receiveWithoutPayload (dataSeq : ℕ) : Bool × RecvWindow := w.occupySlot dataSeq none

/-- The loop of `drain_ordered`; every round takes an entry out of the buffer. -/
def drain : ℕ → RecvWindow → List Bytes × RecvWindow
  | 0, w => ([], w)
  | rounds + 1, w =>
    match w.reorderBuf.find? fun p => p.1 == w.nextChannelSeq with
    | none => ([], w)
    | some p =>
      let rest := drain rounds { w with
        reorderBuf := w.reorderBuf.filter fun p => p.1 != w.nextChannelSeq
        nextChannelSeq := Seq.nextChannelSeq w.nextChannelSeq }
      (p.2 :: rest.1, rest.2)

def drainOrdered : List Bytes × RecvWindow := drain w.reorderBuf.length w

def leading : ℕ := (w.entries.takeWhile fun e => e.state == .received).length

def releaseAcknowledged : RecvWindow :=
  { w with entries := w.entries.drop w.leading, baseSeq := w.baseSeq + w.leading }

def advanceBase (newBase : ℕ) : RecvWindow :=
  if newBase ≤ w.baseSeq then w
  else { w with entries := w.entries.drop (newBase - w.baseSeq), baseSeq := newBase }

def states : List Bool := w.entries.map fun e => e.state == .received

def ackVector : List (Bool × ℕ) := runs w.states

def hasGaps : Bool := w.entries.any fun e => e.state == .pending

end RecvWindow

open RecvWindow Bool

/-! ### The order of the chunks -/

namespace RecvWindow

/-- Of the chunks that were sent the first `m` were passed on, and each one that is buffered is
there under its number. -/
structure InOrder (sent : List Bytes) (m : ℕ) (w : RecvWindow) : Prop where
  passed : m ≤ sent.length
  next : w.nextChannelSeq = chunkSeq m
  buffered : ∀ p ∈ w.reorderBuf, ∃ i, p.1 = chunkSeq i ∧ sent[i]? = some p.2

theorem inOrder_new (sent : List Bytes) (initialDataSeq logWindowSize : ℕ) :
    (new initialDataSeq (chunkSeq 0) logWindowSize).InOrder sent 0 :=
  ⟨Nat.zero_le _, rfl, nofun⟩

section order

variable {sent : List Bytes} {m : ℕ} {w : RecvWindow}

theorem InOrder.append (h : w.InOrder sent m) (more : List Bytes) : w.InOrder (sent ++ more) m where
  passed := by
    rw [length_append]
    exact Nat.le_add_right_of_le h.passed
  next := h.next
  buffered := by
    intro p hp
    obtain ⟨i, hseq, hdata⟩ := h.buffered p hp
    exact ⟨i, hseq, getElem?_append_of_eq_some hdata _⟩

theorem InOrder.of_same {w' : RecvWindow} (h : w.InOrder sent m)
    (hnext : w'.nextChannelSeq = w.nextChannelSeq) (hbuf : w'.reorderBuf = w.reorderBuf) :
    w'.InOrder sent m := ⟨h.passed, hnext.trans h.next, by rw [hbuf]; exact h.buffered⟩

theorem occupySlot_frame (w : RecvWindow) (dataSeq : ℕ) (channelSeq : Option ℕ) :
    (w.occupySlot dataSeq channelSeq).2.nextChannelSeq = w.nextChannelSeq ∧
      (w.occupySlot dataSeq channelSeq).2.reorderBuf = w.reorderBuf := by
  unfold occupySlot
  dsimp only
  split_ifs <;> exact ⟨rfl, rfl⟩

theorem InOrder.releaseAcknowledged (h : w.InOrder sent m) : w.releaseAcknowledged.InOrder sent m :=
  h.of_same rfl rfl

theorem InOrder.advanceBase (h : w.InOrder sent m) (newBase : ℕ) :
    (w.advanceBase newBase).InOrder sent m := by
  unfold RecvWindow.advanceBase
  split_ifs
  · exact h
  · exact h.of_same rfl rfl

theorem InOrder.receive (h : w.InOrder sent m) (dataSeq : ℕ) {channelSeq : ℕ} {data : Bytes}
    (hchunk : channelSeq < w.nextChannelSeq ∨ ∃ i, channelSeq = chunkSeq i ∧ sent[i]? = some data) :
    (w.receive dataSeq channelSeq data).2.InOrder sent m := by
  obtain ⟨hnext, hbuf⟩ := w.occupySlot_frame dataSeq (some channelSeq)
  unfold RecvWindow.receive
  split_ifs with hrefused
  · exact h
  rcases hslot : w.occupySlot dataSeq (some channelSeq) with ⟨taken, w'⟩
  rw [hslot] at hnext hbuf
  have hsame : w'.InOrder sent m := h.of_same hnext hbuf
  cases taken with
  | false => exact hsame
  | true =>
    dsimp only
    split_ifs with hold
    · exact hsame
    · have hchunk' := hchunk.resolve_left
        (by rw [← show w'.nextChannelSeq = _ from hnext]; exact hold)
      refine ⟨hsame.passed, hsame.next, fun p hp => ?_⟩
      rcases mem_cons.1 hp with rfl | hp
      · exact hchunk'
      · exact hsame.buffered p (mem_of_mem_filter hp)

/-- **What is passed on are the next chunks.** -/
theorem InOrder.drain (h : w.InOrder sent m) (rounds : ℕ) :
    ∃ m', (drain rounds w).2.InOrder sent m' ∧
      sent.take m' = sent.take m ++ (drain rounds w).1 := by
  induction rounds generalizing w m with
  | zero => exact ⟨m, h, (append_nil _).symm⟩
  | succ rounds ih =>
    rw [drain]
    cases hfind : w.reorderBuf.find? (fun p => p.1 == w.nextChannelSeq) with
    | none => exact ⟨m, h, (append_nil _).symm⟩
    | some p =>
      obtain ⟨i, hseq, hdata⟩ := h.buffered p (mem_of_find?_eq_some hfind)
      have hkey : p.1 = w.nextChannelSeq := by simpa using find?_some hfind
      obtain rfl : i = m := chunkSeq_strictMono.injective (hseq.symm.trans (hkey.trans h.next))
      have hstep : InOrder sent (i + 1) { w with
          reorderBuf := w.reorderBuf.filter fun p => p.1 != w.nextChannelSeq
          nextChannelSeq := Seq.nextChannelSeq w.nextChannelSeq } := by
        refine ⟨(List.getElem?_eq_some_iff.1 hdata).1, ?_,
          fun q hq => h.buffered q (mem_of_mem_filter hq)⟩
        show Seq.nextChannelSeq w.nextChannelSeq = chunkSeq (i + 1)
        rw [h.next, nextChannelSeq_chunkSeq]
      obtain ⟨m', horder, htake⟩ := ih hstep
      refine ⟨m', horder, ?_⟩
      dsimp only
      rw [htake, take_add_one, hdata, Option.toList_some, append_assoc]
      rfl

end order

/-! ### Any packets -/

inductive Call
  | receive (dataSeq channelSeq : ℕ) (data : Bytes)
  | receiveWithoutPayload (dataSeq : ℕ)
  | drainOrdered | releaseAcknowledged
  | advanceBase (newBase : ℕ)

/-- A window, with the packets it took and what it passed on, by their channel numbers. -/
structure Logged where
  window : RecvWindow
  (taken delivered : List (ℕ × Bytes))

/-- What `drainOrdered` passes on, with the number each is taken out of the buffer under. -/
def numbered (w : RecvWindow) (chunks : List Bytes) : List (ℕ × Bytes) :=
  (iterate Seq.nextChannelSeq w.nextChannelSeq chunks.length).zip chunks

def Logged.step (l : Logged) : Call → Logged
  | .receive dataSeq channelSeq data =>
    { l with
      window := (l.window.receive dataSeq channelSeq data).2
      taken := if (l.window.receive dataSeq channelSeq data).1 then (channelSeq, data) ::
        l.taken else l.taken }
  | .receiveWithoutPayload dataSeq => { l with window :=
      (l.window.receiveWithoutPayload dataSeq).2 }
  | .drainOrdered =>
    { l with
      window := l.window.drainOrdered.2
      delivered := l.delivered ++ l.window.numbered l.window.drainOrdered.1 }
  | .releaseAcknowledged => { l with window := l.window.releaseAcknowledged }
  | .advanceBase newBase => { l with window := l.window.advanceBase newBase }

structure Delivers (l : Logged) : Prop where
  bounded : l.window.reorderBuf.length ≤ l.window.maxEntries + 1
  /-- whether the next packet is taken does not depend on the buffer -/
  expected : ∀ buf dataSeq data,
    ({ l.window with reorderBuf := buf }.receive dataSeq l.window.nextChannelSeq data).1 =
      (l.window.receive dataSeq l.window.nextChannelSeq data).1
  numbers : l.delivered.map Prod.fst =
    (range' 1 (l.window.nextChannelSeq - 1)).filter fun n => n % 0x10000 ≠ 0
  genuine : ∀ p ∈ l.delivered, p ∈ l.taken

structure Inv (l : Logged) : Prop where
  next : l.window.nextChannelSeq % 0x10000 ≠ 0
  length : l.window.reorderBuf.length ≤
    l.window.maxEntries + (l.window.buffered l.window.nextChannelSeq).toNat
  buffered : ∀ p ∈ l.window.reorderBuf, p ∈ l.taken
  numbers : l.delivered.map Prod.fst =
    (range' 1 (l.window.nextChannelSeq - 1)).filter fun n => n % 0x10000 ≠ 0
  genuine : ∀ p ∈ l.delivered, p ∈ l.taken

section calls

variable {l : Logged} {w w' : RecvWindow} {k : ℕ}

theorem buffered_iff : w.buffered k = true ↔ ∃ p ∈ w.reorderBuf, p.1 = k := by simp [buffered]

theorem length_without (h : w.buffered k = true) :
    (w.reorderBuf.filter fun p => p.1 != k).length < w.reorderBuf.length := by
  obtain ⟨p, hp, hk⟩ := buffered_iff.1 h
  exact length_filter_lt_length_iff_exists.2 ⟨p, hp, by simp [hk]⟩

theorem occupySlot_maxEntries (w : RecvWindow) (dataSeq : ℕ) (channelSeq : Option ℕ) :
    (w.occupySlot dataSeq channelSeq).2.maxEntries = w.maxEntries := by
  unfold occupySlot
  dsimp only
  split_ifs <;> rfl

theorem Inv.of_same (h : Inv l) (hnext : w'.nextChannelSeq = l.window.nextChannelSeq)
    (hbuf : w'.reorderBuf = l.window.reorderBuf) (hmax : w'.maxEntries = l.window.maxEntries) :
    Inv { l with window := w' } := by
  obtain ⟨next, length, buffered, numbers, genuine⟩ := h
  refine ⟨?_, ?_, ?_, ?_, genuine⟩
  · rwa [hnext]
  · simpa only [RecvWindow.buffered, hnext, hbuf, hmax] using length
  · rwa [hbuf]
  · rwa [hnext]

theorem Inv.insert (h : Inv l) {data : Bytes} (hrefused : l.window.refuses k = false)
    (hnew : ¬k < l.window.nextChannelSeq) :
    Inv { l with window := l.window.insert k data, taken := (k, data) :: l.taken } where
  next := h.next
  length := by
    have hlength := h.length
    show (l.window.reorderBuf.filter fun p => p.1 != k).length + 1 ≤ l.window.maxEntries +
      ((l.window.insert k data).buffered l.window.nextChannelSeq).toNat
    have hle := length_filter_le (fun p : ℕ × Bytes => p.1 != k) l.window.reorderBuf
    by_cases hk : k = l.window.nextChannelSeq
    · rw [buffered_iff.2 ⟨(k, data), mem_cons_self, hk⟩, toNat_true]
      by_cases hin : l.window.buffered k = true
      · have hlt := length_without hin
        rw [← hk, hin, toNat_true] at hlength
        omega
      · rw [← hk, eq_false_of_not_eq_true hin, toNat_false] at hlength
        omega
    · by_cases hin : l.window.buffered k = true
      · -- it replaces the entry of the same number, and the next packet stays where it is
        have hlt := length_without hin
        by_cases hnext : l.window.buffered l.window.nextChannelSeq = true
        · obtain ⟨p, hp, hpn⟩ := buffered_iff.1 hnext
          have hstays : (p.1 != k) = true := by
            rw [bne_iff_ne, hpn]
            exact Ne.symm hk
          rw [hnext, toNat_true] at hlength
          rw [buffered_iff.2 ⟨p, mem_cons_of_mem _ (mem_filter.2 ⟨hp, hstays⟩), hpn⟩, toNat_true]
          omega
        · rw [eq_false_of_not_eq_true hnext, toNat_false] at hlength
          omega
      · have hroom : l.window.reorderBuf.length < l.window.maxEntries := by
          simpa [refuses, hnew, hk, hin] using hrefused
        omega
  buffered := by
    intro p hp
    rcases mem_cons.1 hp with rfl | hp
    · exact mem_cons_self
    · exact mem_cons_of_mem _ (h.buffered p (mem_of_mem_filter hp))
  numbers := h.numbers
  genuine := fun p hp => mem_cons_of_mem _ (h.genuine p hp)

theorem Inv.taken (h : Inv l) (p : ℕ × Bytes) : Inv { l with taken := p :: l.taken } :=
  ⟨h.next, h.length, fun q hq => mem_cons_of_mem _ (h.buffered q hq), h.numbers,
    fun q hq => mem_cons_of_mem _ (h.genuine q hq)⟩

theorem Inv.receive (h : Inv l) (dataSeq channelSeq : ℕ) (data : Bytes) :
    Inv (l.step (.receive dataSeq channelSeq data)) := by
  obtain ⟨hnext, hbuf⟩ := l.window.occupySlot_frame dataSeq (some channelSeq)
  have hmax := occupySlot_maxEntries l.window dataSeq (some channelSeq)
  unfold Logged.step RecvWindow.receive
  by_cases hrefused : l.window.refuses channelSeq = true
  · simpa [hrefused] using h
  rcases hslot : l.window.occupySlot dataSeq (some channelSeq) with ⟨new, w'⟩
  rw [hslot] at hnext hbuf hmax
  dsimp only at hnext hbuf hmax
  have hsame : Inv { l with window := w' } := h.of_same hnext hbuf hmax
  cases new with
  | false => simpa [hrefused, hslot] using hsame
  | true =>
    simp only [hrefused, hslot, false_eq_true, if_false, if_true]
    split_ifs with hold
    · exact hsame.taken (channelSeq, data)
    · refine hsame.insert ?_ hold
      simpa only [refuses, RecvWindow.buffered, hnext, hbuf, hmax, not_eq_true] using hrefused

theorem Inv.deliver (h : Inv l) {p : ℕ × Bytes} (hp : p ∈ l.window.reorderBuf)
    (hk : p.1 = l.window.nextChannelSeq) :
    Inv { l with
      window := { l.window with
        reorderBuf := l.window.reorderBuf.filter fun p => p.1 != l.window.nextChannelSeq
        nextChannelSeq := Seq.nextChannelSeq l.window.nextChannelSeq }
      delivered := l.delivered ++ [(l.window.nextChannelSeq, p.2)] } where
  next := by
    have hnext := h.next
    show Seq.nextChannelSeq l.window.nextChannelSeq % 0x10000 ≠ 0
    unfold Seq.nextChannelSeq
    split_ifs <;> omega
  length := by
    have hin := buffered_iff.2 ⟨p, hp, hk⟩
    have hlength := h.length
    have hlt := length_without hin
    rw [hin, toNat_true] at hlength
    dsimp only
    omega
  buffered := fun q hq => h.buffered q (mem_of_mem_filter hq)
  numbers := by
    have hnext := h.next
    obtain ⟨n, hn⟩ : ∃ n, l.window.nextChannelSeq = n + 1 :=
        Nat.exists_eq_succ_of_ne_zero (by omega)
    have hnumbers := h.numbers
    rw [hn] at hnext hnumbers
    dsimp only
    rw [map_append, hnumbers, hn, Seq.nextChannelSeq]
    -- the number of the chunk, and perhaps one that is zero on the wire
    split_ifs with hzero
    · rw [show n + 1 + 2 - 1 = n + 1 - 1 + 1 + 1 by omega, range'_concat, range'_concat,
        filter_append, filter_append, append_assoc]
      simp [Nat.add_comm 1, hnext, hzero]
    · rw [show n + 1 + 1 - 1 = n + 1 - 1 + 1 by omega, range'_concat, filter_append]
      simp [Nat.add_comm 1, hnext]
  genuine := by
    refine forall_mem_append.2 ⟨h.genuine, forall_mem_singleton.2 ?_⟩
    rw [← hk]
    exact h.buffered p hp

theorem Inv.drain (rounds : ℕ) (h : Inv l) :
    Inv { l with
      window := (drain rounds l.window).2
      delivered := l.delivered ++ l.window.numbered (drain rounds l.window).1 } := by
  induction rounds generalizing l with
  | zero => simpa [drain, numbered] using h
  | succ rounds ih =>
    rw [drain]
    cases hfind : l.window.reorderBuf.find? (fun p => p.1 == l.window.nextChannelSeq) with
    | none => simpa [numbered] using h
    | some p =>
      have hrest := ih (h.deliver (mem_of_find?_eq_some hfind) (by simpa using find?_some hfind))
      simpa [numbered, iterate] using hrest

theorem inv_step (h : Inv l) (c : Call) : Inv (l.step c) := by
  cases c with
  | receive dataSeq channelSeq data => exact h.receive dataSeq channelSeq data
  | receiveWithoutPayload dataSeq =>
    obtain ⟨hnext, hbuf⟩ := l.window.occupySlot_frame dataSeq none
    exact h.of_same hnext hbuf (occupySlot_maxEntries l.window dataSeq none)
  | drainOrdered => exact h.drain _
  | releaseAcknowledged => exact h.of_same rfl rfl rfl
  | advanceBase newBase =>
    show Inv { l with window := l.window.advanceBase newBase }
    unfold advanceBase
    split_ifs
    · exact h
    · exact h.of_same rfl rfl rfl

theorem Inv.delivers (h : Inv l) : Delivers l where
  bounded := by exact h.length.trans (Nat.add_le_add_left (toNat_le _) _)
  expected := by
    intro buf dataSeq data
    unfold RecvWindow.receive RecvWindow.refuses RecvWindow.occupySlot
    simp only [bne_self_eq_false, Bool.and_false, Bool.false_and, Bool.false_eq_true, if_false]
    split_ifs <;> rfl
  numbers := h.numbers
  genuine := h.genuine

/-- **The receive window takes any packets**: its buffer is bounded, never in the way of the next
packet, and passes on each number once and in turn, but for those that are zero on the wire. -/
theorem delivers_run (initialDataSeq logWindowSize : ℕ) (calls : List Call) :
    Delivers (run Logged.step ⟨new initialDataSeq 1 logWindowSize, [], []⟩ calls) := by
  refine (run_inv (I := Inv) (fun _ c h => inv_step h c) ⟨?_, ?_, ?_, rfl, ?_⟩ calls).delivers <;>
    simp [new]

end calls

end RecvWindow

def splitRun (received : Bool) (count : ℕ) : List AckVectorEntry :=
  if _h : count = 0 then []
  else .runLength received (.ofNat (min count 63)) :: splitRun received (count - min count 63)
termination_by count
decreasing_by omega

/-- The entries of `build_ack_vector_payload`, as many as a vector holds. -/
def vectorEntries (w : RecvWindow) : List AckVectorEntry :=
  (w.ackVector.flatMap fun r => splitRun r.1 r.2).take ackVectorMaxEntries

end Linrdp.Rdpeudp.Receiving
