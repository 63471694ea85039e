import Linrdp.Lib.Runs
import Linrdp.Rdpeudp.Pdu
import Linrdp.Rdpeudp.Seq
import Linrdp.Rdpeudp.Timing
import Mathlib.Algebra.BigOperators.Group.List.Basic
import Mathlib.Data.List.Sort

/-!
# The send window

`send_window.rs`, with what takes packets out of it: the loss detector of `loss.rs`, the retransmit
queue of `reliability.rs` and the congestion window of `congestion.rs`. A packet that is
acknowledged stays in the window until all before it are resolved; one that is lost leaves at once.
`markReceived_spec` and `markLost_spec` say what either does to the packets that wait
(`pendingEntries`) and to the stored bytes, and `kept_run` what holds of a window after any calls.
-/

namespace Linrdp.Rdpeudp.Sending

open List Lib.Runs Rdpeudp.Pdu Rdpeudp.Seq Rdpeudp.Timing Prod

inductive SendEntryState
  | pending | received
deriving DecidableEq

structure SendEntry where
  (dataSeq channelSeq sentAt size : ℕ)
  state : SendEntryState
  transmitCount : ℕ
deriving DecidableEq

structure LostPacketInfo where
  channelSeq : ℕ
  data : Bytes

structure SendWindow where
  entries : List SendEntry
  dataStore : List (ℕ × Bytes)
  (nextDataSeq nextChannelSeq bytesInFlight maxEntries : ℕ)
deriving DecidableEq

def waiting (es : List SendEntry) : List SendEntry := es.filter fun e => e.state == .pending

def setReceived (dataSeq : ℕ) : List SendEntry → List SendEntry
  | [] => []
  | e :: es => if e.dataSeq = dataSeq then { e with state := .received } :: es
    else e :: setReceived dataSeq es

def drain : List SendEntry → List (ℕ × Bytes) → List SendEntry × List (ℕ × Bytes)
  | [], store => ([], store)
  | e :: es, store =>
    if e.state = .pending then (e :: es, store)
    else drain es (store.filter fun p => p.1 != e.dataSeq)

variable (initialDataSeq initialChannelSeq logWindowSize : ℕ)

namespace SendWindow

def new : SendWindow := ⟨[], [], initialDataSeq, initialChannelSeq, 0, 2 ^ logWindowSize⟩

variable (w : SendWindow)

def setPeerWindow (logWindowSize : ℕ) : SendWindow :=
  { w with maxEntries := 2 ^ min logWindowSize 15 }

def hasCapacity : Bool := w.entries.length < w.maxEntries

def record (channelSeq : ℕ) (data : Bytes) (now transmitCount : ℕ) : SendWindow :=
  { w with
    entries := w.entries ++ [⟨w.nextDataSeq, channelSeq, now, data.length, .pending, transmitCount⟩]
    dataStore := w.dataStore ++ [(w.nextDataSeq, data)]
    nextDataSeq := w.nextDataSeq + 1
    bytesInFlight := w.bytesInFlight + data.length }

def push (data : Bytes) (now : ℕ) : Option (ℕ × ℕ) × SendWindow :=
  if !w.hasCapacity then (none, w)
  else
    (some (w.nextDataSeq, w.nextChannelSeq),
      { w.record w.nextChannelSeq data now 1 with
        nextChannelSeq := Seq.nextChannelSeq w.nextChannelSeq })

def pushRetransmit (channelSeq : ℕ) (data : Bytes) (now : ℕ) : Option ℕ × SendWindow :=
  if !w.hasCapacity then (none, w) else (some w.nextDataSeq, w.record channelSeq data now 2)

variable (dataSeq : ℕ)

def getByDataSeq : Option SendEntry := w.entries.find? fun e => e.dataSeq == dataSeq

def pendingEntries : List SendEntry := waiting w.entries

def lowestUnacknowledged : ℕ := w.entries.head?.elim w.nextDataSeq SendEntry.dataSeq

def highestAckedDataSeq : Option ℕ :=
  ((w.entries.filter fun e => e.state == .received).map SendEntry.dataSeq).max?

def advanceWindow : SendWindow :=
  { w with entries := (drain w.entries w.dataStore).1, dataStore :=
    (drain w.entries w.dataStore).2 }

def markReceived : Option ℕ × SendWindow :=
  match w.getByDataSeq dataSeq with
  | none => (none, w)
  | some e =>
    if e.state ≠ .pending then (none, w)
    else (some e.size, advanceWindow { w with
      entries := setReceived dataSeq w.entries
      bytesInFlight := w.bytesInFlight - e.size
      dataStore := w.dataStore.filter fun p => p.1 != dataSeq })

/-- The loop of `mark_received_through`. A packet that is marked leaves the window, so there are no
more rounds than entries. -/
def markThrough (dataSeq : ℕ) : ℕ → SendWindow → ℕ → ℕ × SendWindow
  | 0, w, bytes => (bytes, w)
  | rounds + 1, w, bytes =>
    match w.entries with
    | [] => (bytes, w)
    | front :: _ =>
      if front.dataSeq > dataSeq then (bytes, w)
      else
        match w.markReceived front.dataSeq with
        | (none, w) => (bytes, w)
        | (some size, w) => markThrough dataSeq rounds w (bytes + size)

def markReceivedThrough : ℕ × SendWindow := markThrough dataSeq w.entries.length w 0

def markLost : Option LostPacketInfo × SendWindow :=
  match w.getByDataSeq dataSeq with
  | none => (none, w)
  | some e =>
    if e.state ≠ .pending then (none, w)
    else
      let data := ((w.dataStore.find? fun p => p.1 == dataSeq).map snd).getD []
      (some ⟨e.channelSeq, data⟩, advanceWindow { w with
        entries := w.entries.eraseP fun e => e.dataSeq == dataSeq
        bytesInFlight := w.bytesInFlight - e.size
        dataStore := w.dataStore.eraseP fun p => p.1 == dataSeq })

end SendWindow

/-! ### Loss detection, the retransmit queue and congestion control -/

def reorderThreshold : ℕ := 3

def timeThreshold (rto : ℕ) : ℕ := rto * 5 / 4

def meetsLossCriteria (highestAcked : Option ℕ) (rto now : ℕ) (e : SendEntry) : Bool :=
  (highestAcked.any fun ha => e.dataSeq ≤ ha && reorderThreshold ≤ ha - e.dataSeq) ||
    timeThreshold rto < durationSince now e.sentAt

/-- `LossDetector::detect`: with a packet all earlier ones that wait are lost. -/
def detect (w : SendWindow) (highestAcked : Option ℕ) (rto now : ℕ) : List ℕ :=
  let lost := (w.pendingEntries.filter (meetsLossCriteria highestAcked rto now)).map
    SendEntry.dataSeq
  match lost.max? with
  | none => []
  | some highestLost =>
    let earlier := w.pendingEntries.filter fun e =>
      e.dataSeq < highestLost && !lost.contains e.dataSeq
    (lost ++ earlier.map SendEntry.dataSeq).mergeSort

structure RetransmitEntry where
  channelSeq : ℕ
  data : Bytes
deriving DecidableEq

def enqueue (queue : List RetransmitEntry) (channelSeq : ℕ) (data : Bytes) : List RetransmitEntry :=
  if queue.any fun e => e.channelSeq == channelSeq then queue else queue ++ [⟨channelSeq, data⟩]

structure CongestionControl where
  (window ssthresh bytesAcked : ℕ)
  recoverySeq : Option ℕ

namespace CongestionControl

def initialWindow : ℕ := 10 * 1232

def minWindow : ℕ := 2 * 1232

def new : CongestionControl := ⟨initialWindow, 2 ^ 64 - 1, 0, none⟩

variable (c : CongestionControl)

def inSlowStart : Bool := c.window < c.ssthresh

def onAck (newlyAckedBytes : ℕ) : CongestionControl :=
  if c.inSlowStart then
    let window := c.window + newlyAckedBytes
    { c with window := window, bytesAcked := if window ≥ c.ssthresh then 0 else c.bytesAcked }
  else
    let bytesAcked := c.bytesAcked + newlyAckedBytes
    if bytesAcked ≥ c.window then
      { c with bytesAcked := bytesAcked - c.window, window := c.window + 1232 }
    else { c with bytesAcked := bytesAcked }

def halveWindow : CongestionControl :=
  let ssthresh := max (c.window / 2) minWindow
  { c with ssthresh := ssthresh, window := ssthresh, bytesAcked := 0 }

def onLoss (lossSeq largestSent : ℕ) : CongestionControl :=
  if c.recoverySeq.any fun recovery => lossSeq ≤ recovery then c
  else halveWindow { c with recoverySeq := some largestSent }

end CongestionControl

/-! ### What marking does -/

abbrev Increasing (es : List SendEntry) : Prop := es.Pairwise fun a b => a.dataSeq < b.dataSeq

variable {e : SendEntry} {d : ℕ} {store : List (ℕ × Bytes)}

section increasing

variable {es : List SendEntry}

theorem mem_waiting : e ∈ waiting es ↔ e ∈ es ∧ e.state = .pending := by
  rw [waiting, mem_filter, beq_iff_eq]

theorem Increasing.eq_of_dataSeq (h : Increasing es) {a b : SendEntry} (ha : a ∈ es) (hb : b ∈ es)
    (heq : a.dataSeq = b.dataSeq) : a = b := by
  have hnodup : (es.map SendEntry.dataSeq).Nodup :=
      List.Pairwise.map _ (fun _ _ hlt => ne_of_lt hlt) h
  exact inj_on_of_nodup_map hnodup ha hb heq

theorem Increasing.filter_eq (h : Increasing es) (he : e ∈ es) :
    es.filter (fun x => x.dataSeq == e.dataSeq) = [e] := by
  induction es with
  | nil => cases he
  | cons x es ih =>
    obtain ⟨hlater, hes⟩ := pairwise_cons.1 h
    rcases mem_cons.1 he with rfl | he
    · rw [filter_cons_of_pos (by simp), filter_eq_nil_iff.2 fun y hy => ?_]
      have hlt := hlater y hy
      simp only [beq_iff_eq]
      omega
    · have hlt := hlater e he
      rw [filter_cons_of_neg (by simp only [beq_iff_eq]; omega), ih hes he]

theorem Increasing.waiting (h : Increasing es) : Increasing (waiting es) := h.filter _

theorem filter_ne_of_lt (h : ∀ e ∈ es, d < e.dataSeq) :
    (waiting es).filter (fun e => e.dataSeq != d) = waiting es := by
  rw [filter_eq_self]
  intro e he
  have hlt := h e (mem_waiting.1 he).1
  rw [bne_iff_ne]
  omega

theorem waiting_take {take : List SendEntry → List SendEntry} (hnil : take [] = [])
    (hcons : ∀ e es, waiting (take (e :: es)) =
      if e.dataSeq = d then waiting es else waiting (e :: take es)) (h : Increasing es) :
    waiting (take es) = (waiting es).filter fun e => e.dataSeq != d := by
  induction es with
  | nil => rw [hnil]; rfl
  | cons e es ih =>
    obtain ⟨hlater, hes⟩ := pairwise_cons.1 h
    rw [hcons, waiting.eq_def (e :: es), filter_cons]
    by_cases heq : e.dataSeq = d
    · subst heq
      have hrest := (filter_ne_of_lt hlater).symm
      rw [if_pos rfl]
      split_ifs
      · rwa [filter_cons_of_neg (by simp)]
      · exact hrest
    · rw [if_neg heq, waiting, filter_cons]
      split_ifs
      · rw [filter_cons_of_pos (by simpa using heq)]
        exact congrArg _ (ih hes)
      · exact ih hes

theorem waiting_setReceived (h : Increasing es) (d : ℕ) :
    waiting (setReceived d es) = (waiting es).filter fun e => e.dataSeq != d := by
  refine waiting_take rfl (fun e es => ?_) h
  rw [setReceived]
  split_ifs with heq
  · exact filter_cons_of_neg (by simp)
  · rfl

theorem waiting_eraseP (h : Increasing es) (d : ℕ) :
    waiting (es.eraseP fun e => e.dataSeq == d) = (waiting es).filter fun e => e.dataSeq != d := by
  refine waiting_take rfl (fun e es => ?_) h
  by_cases heq : e.dataSeq = d
  · rw [eraseP_cons_of_pos (by simpa using heq), if_pos heq]
  · rw [eraseP_cons_of_neg (by simpa using heq), if_neg heq]

theorem map_dataSeq_setReceived (d : ℕ) :
    (setReceived d es).map SendEntry.dataSeq = es.map SendEntry.dataSeq := by
  induction es with
  | nil => rfl
  | cons e es ih =>
    rw [setReceived]
    split_ifs with heq
    · rfl
    · rw [map_cons, map_cons, ih]

theorem Increasing.setReceived (h : Increasing es) (d : ℕ) : Increasing (setReceived d es) := by
  have hmap : ((Sending.setReceived d es).map SendEntry.dataSeq).Pairwise (· < ·) := by
    rw [map_dataSeq_setReceived]
    exact pairwise_map.2 h
  exact pairwise_map.1 hmap

theorem drain_suffix (store : List (ℕ × Bytes)) : (drain es store).1 <:+ es := by
  induction es generalizing store with
  | nil => exact suffix_rfl
  | cons e es ih =>
    rw [drain]
    split_ifs with hpending
    · exact suffix_rfl
    · exact (ih _).trans (suffix_cons e es)

theorem head_drain (store : List (ℕ × Bytes)) :
    ∀ e ∈ (drain es store).1.head?, e.state = .pending := by
  induction es generalizing store with
  | nil => simp [drain]
  | cons e es ih =>
    rw [drain]
    split_ifs with hpending
    · simpa using hpending
    · exact ih _

theorem waiting_drain (store : List (ℕ × Bytes)) : waiting (drain es store).1 = waiting es := by
  induction es generalizing store with
  | nil => rfl
  | cons e es ih =>
    rw [drain]
    split_ifs with hpending
    · rfl
    · rw [ih, waiting, waiting, filter_cons_of_neg (by simpa using hpending)]

theorem store_drain (h : Increasing es)
    (hstore : ∀ p ∈ store, ∃ e ∈ waiting es, e.dataSeq = p.1) : (drain es store).2 = store := by
  induction es generalizing store with
  | nil => rfl
  | cons e es ih =>
    obtain ⟨hlater, hes⟩ := pairwise_cons.1 h
    rw [drain]
    split_ifs with hpending
    · rfl
    · have hwaiting : waiting (e :: es) = waiting es := filter_cons_of_neg (by simpa using hpending)
      rw [hwaiting] at hstore
      have hself : store.filter (fun p => p.1 != e.dataSeq) = store := by
        rw [filter_eq_self]
        intro p hp
        obtain ⟨x, hx, hxp⟩ := hstore p hp
        have hlt := hlater x (mem_waiting.1 hx).1
        rw [bne_iff_ne]
        omega
      rw [hself, ih hes hstore]

theorem eraseP_eq_filter (h : (store.map fst).Nodup) (d : ℕ) :
    store.eraseP (fun p => p.1 == d) = store.filter fun p => p.1 != d := by
  induction store with
  | nil => rfl
  | cons p store ih =>
    rw [map_cons, nodup_cons] at h
    by_cases heq : p.1 = d
    · subst heq
      rw [eraseP_cons_of_pos (by simp), filter_cons_of_neg (by simp)]
      refine (filter_eq_self.2 fun q hq => ?_).symm
      rw [bne_iff_ne]
      exact fun hqp => h.1 (hqp ▸ mem_map_of_mem hq)
    · rw [eraseP_cons_of_neg (by simpa using heq), filter_cons_of_pos (by simpa using heq), ih h.2]

theorem sum_size_filter (h : Increasing es) (he : e ∈ es) :
    (es.map SendEntry.size).sum =
      e.size + ((es.filter fun x => x.dataSeq != e.dataSeq).map SendEntry.size).sum := by
  have hperm := filter_append_perm (fun x => x.dataSeq == e.dataSeq) es
  rw [h.filter_eq he] at hperm
  exact (hperm.map SendEntry.size).sum_eq.symm

end increasing

namespace SendWindow

structure Wf (w : SendWindow) : Prop where
  increasing : Increasing w.entries
  below : ∀ e ∈ w.entries, e.dataSeq < w.nextDataSeq
  front : ∀ e ∈ w.entries.head?, e.state = .pending
  stored : w.dataStore.map fst = w.pendingEntries.map SendEntry.dataSeq
  inFlight : w.bytesInFlight = (w.pendingEntries.map SendEntry.size).sum

structure Without (d : ℕ) (w w' : SendWindow) : Prop where
  wf : w'.Wf
  pending : w'.pendingEntries = w.pendingEntries.filter fun e => e.dataSeq != d
  store : w'.dataStore = w.dataStore.filter fun p => p.1 != d
  nextDataSeq : w'.nextDataSeq = w.nextDataSeq
  nextChannelSeq : w'.nextChannelSeq = w.nextChannelSeq
  maxEntries : w'.maxEntries = w.maxEntries
  length : w'.entries.length ≤ w.entries.length

theorem wf_new : (new initialDataSeq initialChannelSeq logWindowSize).Wf :=
  ⟨List.Pairwise.nil, by simp [new], by simp [new], rfl, rfl⟩

theorem pendingEntries_record (w : SendWindow) (channelSeq : ℕ) (data : Bytes) (now count : ℕ) :
    (w.record channelSeq data now count).pendingEntries = w.pendingEntries ++
      [⟨w.nextDataSeq, channelSeq, now, data.length, .pending, count⟩] := by
  simp only [pendingEntries, record, waiting, filter_append]
  rfl

variable {w : SendWindow}

theorem Wf.record (h : w.Wf) (channelSeq : ℕ) (data : Bytes) (now count : ℕ) :
    (w.record channelSeq data now count).Wf where
  increasing := by
    refine pairwise_append.2 ⟨h.increasing, pairwise_singleton _ _, fun a ha b hb => ?_⟩
    rw [mem_singleton.1 hb]
    exact h.below a ha
  below := forall_mem_append.2 ⟨fun e he => Nat.lt_succ_of_lt (h.below e he),
    forall_mem_singleton.2 (Nat.lt_succ_self _)⟩
  front := by
    intro e he
    simp only [SendWindow.record] at he
    rcases hes : w.entries with _ | ⟨first, rest⟩
    · rw [hes] at he
      cases he
      rfl
    · rw [hes] at he
      exact h.front e (by rw [hes]; exact he)
  stored := by
    rw [pendingEntries_record, map_append, ← h.stored]
    exact map_append
  inFlight := by
    rw [pendingEntries_record, map_append, sum_append, ← h.inFlight]
    simp [SendWindow.record]

theorem Wf.mem_store (h : w.Wf) {p : ℕ × Bytes} (hp : p ∈ w.dataStore) :
    ∃ e ∈ w.pendingEntries, e.dataSeq = p.1 := by
  have hkey : p.1 ∈ w.dataStore.map fst := mem_map_of_mem hp
  rw [h.stored, mem_map] at hkey
  exact hkey

theorem Wf.getByDataSeq (h : w.Wf) (he : e ∈ w.pendingEntries) :
    w.getByDataSeq e.dataSeq = some e := by
  have hmem := (mem_waiting.1 he).1
  rcases hfind : w.getByDataSeq e.dataSeq with _ | x
  · have hnone := find?_eq_none.1 hfind e hmem
    simp at hnone
  · have hx := mem_of_find?_eq_some hfind
    have hseq : x.dataSeq = e.dataSeq := by simpa using find?_some hfind
    rw [h.increasing.eq_of_dataSeq hx hmem hseq]

theorem Wf.without_absent (h : w.Wf)
    (hd : ∀ e ∈ w.pendingEntries, e.dataSeq ≠ d) : Without d w w where
  wf := h
  pending := by
    refine (filter_eq_self.2 fun e he => ?_).symm
    rw [bne_iff_ne]
    exact hd e he
  store := by
    refine (filter_eq_self.2 fun p hp => ?_).symm
    obtain ⟨e, he, heq⟩ := h.mem_store hp
    rw [bne_iff_ne, ← heq]
    exact hd e he
  nextDataSeq := rfl
  nextChannelSeq := rfl
  maxEntries := rfl
  length := le_rfl

theorem Wf.without_advance (h : w.Wf) (he : e ∈ w.pendingEntries) {es : List SendEntry}
    (hincreasing : Increasing es) (hmap : ∀ x ∈ es, x.dataSeq ∈ w.entries.map SendEntry.dataSeq)
    (hwaiting : waiting es = w.pendingEntries.filter fun x => x.dataSeq != e.dataSeq)
    (hlength : es.length ≤ w.entries.length)
    (hstore : store = w.dataStore.filter fun p => p.1 != e.dataSeq) :
    Without e.dataSeq w (advanceWindow { w with
      entries := es, bytesInFlight := w.bytesInFlight - e.size, dataStore := store }) := by
  have hkeys : store.map fst = (waiting es).map SendEntry.dataSeq := by
    have hcomm := congrArg (filter fun d => d != e.dataSeq) h.stored
    rw [filter_map, filter_map] at hcomm
    rw [hstore, hwaiting]
    exact hcomm
  have hsame : (drain es store).2 = store := by
    refine store_drain hincreasing fun p hp => ?_
    have hkey : p.1 ∈ store.map fst := mem_map_of_mem hp
    rw [hkeys, mem_map] at hkey
    exact hkey
  have hpending : (advanceWindow { w with
      entries := es, bytesInFlight := w.bytesInFlight - e.size, dataStore :=
        store }).pendingEntries =
      waiting es := waiting_drain store
  refine ⟨⟨?_, ?_, ?_, ?_, ?_⟩, hpending.trans hwaiting, hsame.trans hstore, rfl, rfl, rfl, ?_⟩
  · exact hincreasing.sublist (drain_suffix store).sublist
  · intro x hx
    obtain ⟨y, hy, hyx⟩ := mem_map.1 (hmap x ((drain_suffix store).subset hx))
    rw [← hyx]
    exact h.below y hy
  · exact head_drain store
  · rw [hpending, ← hkeys]
    exact congrArg _ hsame
  · rw [hpending, hwaiting]
    have hsum : (w.pendingEntries.map SendEntry.size).sum = _ :=
      sum_size_filter h.increasing.waiting he
    rw [h.inFlight, hsum]
    exact Nat.add_sub_cancel_left _ _
  · exact (drain_suffix store).length_le.trans hlength

theorem getByDataSeq_absent (h : ∀ e ∈ w.pendingEntries, e.dataSeq ≠ d) :
    ∀ e ∈ w.getByDataSeq d, e.state ≠ .pending := by
  intro e he hstate
  have hseq : e.dataSeq = d := by simpa using find?_some he
  exact h e (mem_waiting.2 ⟨mem_of_find?_eq_some he, hstate⟩) hseq

/-- **An acknowledged packet no longer waits, and nothing else changes.** -/
theorem markReceived_spec (h : w.Wf) (d : ℕ) : Without d w (w.markReceived d).2 := by
  by_cases hd : ∃ e ∈ w.pendingEntries, e.dataSeq = d
  · obtain ⟨e, he, rfl⟩ := hd
    have hstate := (mem_waiting.1 he).2
    rw [markReceived, h.getByDataSeq he]
    dsimp only
    rw [if_neg (not_not.2 hstate)]
    refine h.without_advance he (h.increasing.setReceived e.dataSeq) (fun x hx => ?_)
      (waiting_setReceived h.increasing e.dataSeq) ?_ rfl
    · rw [← map_dataSeq_setReceived e.dataSeq]
      exact mem_map_of_mem hx
    · rw [← length_map SendEntry.dataSeq, map_dataSeq_setReceived, length_map]
  · have habsent : ∀ e ∈ w.pendingEntries, e.dataSeq ≠ d := fun e he heq => hd ⟨e, he, heq⟩
    have hunchanged : (w.markReceived d).2 = w := by
      rw [markReceived]
      rcases hget : w.getByDataSeq d with _ | x
      · rfl
      · exact congrArg snd (if_pos (getByDataSeq_absent habsent x hget))
    rw [hunchanged]
    exact h.without_absent habsent

/-- **A lost packet no longer waits either**, and its bytes and its channel number come out. -/
theorem markLost_spec (h : w.Wf) (d : ℕ) :
    ((∀ e ∈ w.pendingEntries, e.dataSeq ≠ d) ∧ w.markLost d = (none, w)) ∨
      ∃ e ∈ w.pendingEntries, e.dataSeq = d ∧ ∃ data, (d, data) ∈ w.dataStore ∧
        (w.markLost d).1 = some ⟨e.channelSeq, data⟩ ∧ Without d w (w.markLost d).2 := by
  by_cases hd : ∃ e ∈ w.pendingEntries, e.dataSeq = d
  · obtain ⟨e, he, rfl⟩ := hd
    refine .inr ⟨e, he, rfl, ?_⟩
    have hstate := (mem_waiting.1 he).2
    -- the store has the packet's bytes, once
    have hkey : e.dataSeq ∈ w.dataStore.map fst := by
      rw [h.stored]
      exact mem_map_of_mem he
    obtain ⟨p, hp, hpd⟩ := mem_map.1 hkey
    obtain ⟨q, hq⟩ : ∃ q, w.dataStore.find? (fun p => p.1 == e.dataSeq) = some q := by
      rw [← Option.isSome_iff_exists, find?_isSome]
      exact ⟨p, hp, by simpa using hpd⟩
    have hqd : q.1 = e.dataSeq := by simpa using find?_some hq
    have hnodup : (w.dataStore.map fst).Nodup := by
      rw [h.stored]
      exact List.Pairwise.map _ (fun _ _ hlt => ne_of_lt hlt) h.increasing.waiting
    have herase : w.dataStore.eraseP (fun p => p.1 == e.dataSeq) =
        w.dataStore.filter fun p => p.1 != e.dataSeq := eraseP_eq_filter hnodup e.dataSeq
    refine ⟨q.2, ?_, ?_⟩
    · rw [← hqd]
      exact mem_of_find?_eq_some hq
    · rw [markLost, h.getByDataSeq he]
      dsimp only
      rw [if_neg (not_not.2 hstate), hq]
      refine ⟨rfl, h.without_advance he (h.increasing.sublist eraseP_sublist) (fun x hx => ?_)
        (waiting_eraseP h.increasing e.dataSeq) eraseP_sublist.length_le herase⟩
      exact mem_map_of_mem (eraseP_sublist.subset hx)
  · have habsent : ∀ e ∈ w.pendingEntries, e.dataSeq ≠ d := fun e he heq => hd ⟨e, he, heq⟩
    refine .inl ⟨habsent, ?_⟩
    rw [markLost]
    rcases hget : w.getByDataSeq d with _ | x
    · rfl
    · exact if_pos (getByDataSeq_absent habsent x hget)

theorem length_markReceived_front (h : w.Wf) {front : SendEntry}
    {rest : List SendEntry} (hes : w.entries = front :: rest) :
    (w.markReceived front.dataSeq).1 = some front.size ∧
      (w.markReceived front.dataSeq).2.entries.length ≤ rest.length := by
  have hstate : front.state = .pending := h.front front (by rw [hes]; rfl)
  have hmem : front ∈ w.pendingEntries := mem_waiting.2 ⟨by simp [hes], hstate⟩
  rw [markReceived, h.getByDataSeq hmem]
  dsimp only
  rw [if_neg (not_not.2 hstate)]
  refine ⟨rfl, ?_⟩
  have hset : setReceived front.dataSeq w.entries = { front with state := .received } :: rest := by
    rw [hes, setReceived, if_pos rfl]
  show (drain (setReceived front.dataSeq w.entries) _).1.length ≤ rest.length
  rw [hset, drain, if_neg (by simp)]
  exact (drain_suffix _).length_le

/-- **A cumulative acknowledgement** takes out, one by one, the packets that wait up to its number.
-/
theorem markReceivedThrough_spec (h : w.Wf) (s : ℕ) :
    ∃ ds : List ℕ, (w.markReceivedThrough s).2 = ds.foldl (fun w d => (w.markReceived d).2) w ∧
      ∀ e ∈ w.pendingEntries, e.dataSeq ∈ ds ↔ e.dataSeq ≤ s := by
  suffices hrounds : ∀ (rounds : ℕ) (w : SendWindow) (bytes : ℕ), w.Wf → w.entries.length ≤ rounds →
      ∃ ds : List ℕ, (markThrough s rounds w bytes).2 = ds.foldl (fun w d => (w.markReceived d).2)
      w ∧
        ∀ e ∈ w.pendingEntries, e.dataSeq ∈ ds ↔ e.dataSeq ≤ s from
    hrounds w.entries.length w 0 h le_rfl
  intro rounds
  induction rounds with
  | zero =>
    intro w bytes _ hlen
    have hnil : w.entries = [] := eq_nil_of_length_eq_zero (Nat.le_zero.1 hlen)
    exact ⟨[], rfl, by simp [pendingEntries, waiting, hnil]⟩
  | succ rounds ih =>
    intro w bytes h hlen
    rw [markThrough]
    rcases hes : w.entries with _ | ⟨front, rest⟩
    · exact ⟨[], rfl, by simp [pendingEntries, waiting, hes]⟩
    dsimp only
    split_ifs with hfront
    · -- the entries after the front have higher numbers still
      refine ⟨[], rfl, fun e he => ?_⟩
      have hincreasing := h.increasing
      rw [hes] at hincreasing
      have hmem := (mem_waiting.1 he).1
      rw [hes] at hmem
      have hle : front.dataSeq ≤ e.dataSeq := by
        rcases mem_cons.1 hmem with rfl | hmem
        · exact le_rfl
        · exact ((pairwise_cons.1 hincreasing).1 e hmem).le
      simp only [not_mem_nil, false_iff]
      omega
    · obtain ⟨hsize, hshorter⟩ := length_markReceived_front h hes
      have hspec := markReceived_spec h front.dataSeq
      rw [hes, length_cons] at hlen
      obtain ⟨ds, hfold, hds⟩ := ih (w.markReceived front.dataSeq).2 (bytes + front.size) hspec.wf
        (by omega)
      refine ⟨front.dataSeq :: ds, ?_, fun e he => ?_⟩
      · rw [foldl_cons, ← hfold]
        rcases hmark : w.markReceived front.dataSeq with ⟨size, w'⟩
        rw [hmark] at hsize
        rw [show size = some front.size from hsize]
      · rw [mem_cons]
        by_cases heq : e.dataSeq = front.dataSeq
        · omega
        · rw [← hds e (by rw [hspec.pending, mem_filter]; exact ⟨he, by simpa using heq⟩)]
          simp [heq]

/-! ### Whole runs -/

inductive Call
  | push (data : Bytes) (now : ℕ)
  | pushRetransmit (channelSeq : ℕ) (data : Bytes) (now : ℕ)
  | markReceived (dataSeq : ℕ)
  | markReceivedThrough (dataSeq : ℕ)
  | markLost (dataSeq : ℕ)
  | setPeerWindow (logWindowSize : ℕ)

structure Logged where
  window : SendWindow
  sent : List (ℕ × Bytes)

def Logged.step (l : Logged) : Call → Logged
  | .push data now =>
    ⟨(l.window.push data now).2, l.sent ++ ((l.window.push data now).1.map fun n =>
      (n.1, data)).toList⟩
  | .pushRetransmit channelSeq data now =>
    ⟨(l.window.pushRetransmit channelSeq data now).2,
      l.sent ++ ((l.window.pushRetransmit channelSeq data now).1.map fun n => (n, data)).toList⟩
  | .markReceived dataSeq => { l with window := (l.window.markReceived dataSeq).2 }
  | .markReceivedThrough dataSeq => { l with window := (l.window.markReceivedThrough dataSeq).2 }
  | .markLost dataSeq => { l with window := (l.window.markLost dataSeq).2 }
  | .setPeerWindow logWindowSize => { l with window := l.window.setPeerWindow logWindowSize }

structure Kept (sent : List (ℕ × Bytes)) (w : SendWindow) : Prop where
  wf : w.Wf
  assigned : ∀ p ∈ sent, p.1 < w.nextDataSeq
  store : w.dataStore = sent.filter fun p => p.1 ∈ w.pendingEntries.map SendEntry.dataSeq

structure Through (w : SendWindow) (s : ℕ) : Prop where
  above : ∀ e ∈ (w.markReceivedThrough s).2.entries, s < e.dataSeq
  bytes : (w.markReceivedThrough s).1 + (w.markReceivedThrough s).2.bytesInFlight = w.bytesInFlight

variable {sent : List (ℕ × Bytes)} {w' : SendWindow}

theorem Kept.without (h : Kept sent w) (hw : Without d w w') : Kept sent w' where
  wf := hw.wf
  assigned := by
    rw [hw.nextDataSeq]
    exact h.assigned
  store := by
    have hmem (n : ℕ) : n ∈ w'.pendingEntries.map SendEntry.dataSeq ↔
        n ≠ d ∧ n ∈ w.pendingEntries.map SendEntry.dataSeq := by
      simp only [hw.pending, mem_map, mem_filter, bne_iff_ne]
      constructor
      · rintro ⟨e, ⟨he, hne⟩, rfl⟩
        exact ⟨hne, e, he, rfl⟩
      · rintro ⟨hne, e, he, rfl⟩
        exact ⟨e, ⟨he, hne⟩, rfl⟩
    rw [hw.store, h.store, filter_filter]
    refine filter_congr fun p _ => ?_
    rw [Bool.eq_iff_iff, Bool.and_eq_true, bne_iff_ne, decide_eq_true_iff, decide_eq_true_iff, hmem]

theorem Kept.record (h : Kept sent w) (channelSeq : ℕ) (data : Bytes) (now count : ℕ) :
    Kept (sent ++ [(w.nextDataSeq, data)]) (w.record channelSeq data now count) where
  wf := h.wf.record channelSeq data now count
  assigned := forall_mem_append.2 ⟨fun p hp => Nat.lt_succ_of_lt (h.assigned p hp),
    forall_mem_singleton.2 (Nat.lt_succ_self _)⟩
  store := by
    rw [pendingEntries_record, map_append, filter_append]
    refine congr (congrArg _ (h.store.trans (filter_congr fun p hp => ?_))) ?_
    · -- the new number is none of the old ones
      have hlt := h.assigned p hp
      simp [hlt.ne]
    · simp

theorem Kept.markReceivedThrough (h : Kept sent w) (s : ℕ) :
    Kept sent (w.markReceivedThrough s).2 := by
  obtain ⟨ds, hds, -⟩ := markReceivedThrough_spec h.wf s
  rw [hds]
  exact foldlRecOn ds _ h fun w hw d _ => hw.without (markReceived_spec hw.wf d)

theorem kept_step {l : Logged} (h : Kept l.sent l.window) (c : Call) :
    Kept (l.step c).sent (l.step c).window := by
  cases c with
  | push data now =>
    unfold Logged.step push
    split_ifs
    · simpa using h
    · obtain ⟨⟨h₁, h₂, h₃, h₄, h₅⟩, hassigned, hstore⟩ :=
        h.record l.window.nextChannelSeq data now 1
      exact ⟨⟨h₁, h₂, h₃, h₄, h₅⟩, hassigned, hstore⟩
  | pushRetransmit channelSeq data now =>
    unfold Logged.step pushRetransmit
    split_ifs
    · simpa using h
    · exact h.record channelSeq data now 2
  | markReceived d => exact h.without (markReceived_spec h.wf d)
  | markReceivedThrough s => exact h.markReceivedThrough s
  | markLost d =>
    rcases markLost_spec h.wf d with ⟨-, hsame⟩ | ⟨e, -, -, data, -, -, hw⟩
    · simpa only [Logged.step, hsame] using h
    · exact h.without hw
  | setPeerWindow n => exact { h with wf := ⟨h.wf.1, h.wf.2, h.wf.3, h.wf.4, h.wf.5⟩ }

theorem markReceived_bytes (h : w.Wf) (d : ℕ) :
    (w.markReceived d).1.getD 0 + (w.markReceived d).2.bytesInFlight = w.bytesInFlight := by
  rw [markReceived]
  rcases hget : w.getByDataSeq d with _ | e
  · exact Nat.zero_add _
  · dsimp only
    split_ifs with hstate
    · exact Nat.zero_add _
    · have he : e ∈ w.pendingEntries := mem_waiting.2 ⟨mem_of_find?_eq_some hget, not_not.1 hstate⟩
      have hsum : (w.pendingEntries.map SendEntry.size).sum = _ :=
        sum_size_filter h.increasing.waiting he
      rw [← h.inFlight] at hsum
      show e.size + (w.bytesInFlight - e.size) = w.bytesInFlight
      omega

theorem markThrough_bytes (s rounds : ℕ) (h : w.Wf) (bytes : ℕ) :
    (markThrough s rounds w bytes).1 + (markThrough s rounds w bytes).2.bytesInFlight =
      bytes + w.bytesInFlight := by
  induction rounds generalizing w bytes with
  | zero => rfl
  | succ rounds ih =>
    rw [markThrough]
    rcases hes : w.entries with _ | ⟨front, rest⟩
    · rfl
    dsimp only
    split_ifs
    · rfl
    · have hbytes := markReceived_bytes h front.dataSeq
      have hwf := (markReceived_spec h front.dataSeq).wf
      rw [show w.markReceived front.dataSeq = (some front.size, (w.markReceived front.dataSeq).2)
        from
        Prod.ext (length_markReceived_front h hes).1 rfl] at hbytes ⊢
      dsimp only [Option.getD_some] at hbytes ⊢
      rw [ih hwf]
      omega

theorem pendingEntries_foldl_markReceived (h : w.Wf) {ds : List ℕ} {e : SendEntry}
    (he : e ∈ (ds.foldl (fun w d => (w.markReceived d).2) w).pendingEntries) :
    e ∈ w.pendingEntries ∧ e.dataSeq ∉ ds := by
  induction ds generalizing w with
  | nil => exact ⟨he, not_mem_nil⟩
  | cons d ds ih =>
    have hspec := markReceived_spec h d
    obtain ⟨hmem, hds⟩ := ih hspec.wf he
    rw [hspec.pending, mem_filter, bne_iff_ne] at hmem
    exact ⟨hmem.1, fun hd => (mem_cons.1 hd).elim hmem.2 hds⟩

theorem Wf.entries_above (h : w.Wf) {s : ℕ} (hs : ∀ e ∈ w.pendingEntries, s < e.dataSeq) :
    ∀ e ∈ w.entries, s < e.dataSeq := by
  intro e he
  obtain ⟨increasing, -, front, -, -⟩ := h
  rcases hes : w.entries with _ | ⟨first, rest⟩
  · simp [hes] at he
  rw [hes] at he increasing front
  have hfirst : s < first.dataSeq := hs first (mem_waiting.2 ⟨by simp [hes], front first rfl⟩)
  rcases mem_cons.1 he with rfl | he
  · exact hfirst
  · exact hfirst.trans ((pairwise_cons.1 increasing).1 e he)

theorem through_of_wf (h : w.Wf) (s : ℕ) : Through w s where
  above := by
    obtain ⟨ds, hds, hle⟩ := markReceivedThrough_spec h s
    have hkept : (w.markReceivedThrough s).2.Wf := by
      rw [hds]
      exact foldlRecOn ds _ h fun w hw d _ => (markReceived_spec hw d).wf
    refine hkept.entries_above fun e he => ?_
    rw [hds] at he
    obtain ⟨hpending, hnot⟩ := pendingEntries_foldl_markReceived h he
    exact not_le.1 fun hes => hnot ((hle e hpending).2 hes)
  bytes := (markThrough_bytes s _ h 0).trans (Nat.zero_add _)

/-- **The structure of the send window** after any calls, and what a cumulative acknowledgement then
does. -/
theorem kept_run (initialDataSeq initialChannelSeq logWindowSize : ℕ) (calls : List Call) :
    let l := run Logged.step ⟨new initialDataSeq initialChannelSeq logWindowSize, []⟩ calls
    Kept l.sent l.window ∧ ∀ s, Through l.window s := by
  have hstart : Kept [] (new initialDataSeq initialChannelSeq logWindowSize) :=
    ⟨wf_new _ _ _, by simp, rfl⟩
  have hkept := run_inv (I := fun l : Logged => Kept l.sent l.window) (s := ⟨_, []⟩)
    (fun _ c h => kept_step h c) hstart calls
  exact ⟨hkept, through_of_wf hkept.wf⟩

end SendWindow

end Linrdp.Rdpeudp.Sending
