import Linrdp.Rdpeudp.Sending
import Mathlib.Data.List.Range

/-!
# What a sender holds

Of a connection, what `send` accepted and the peer did not acknowledge yet: the send buffer, the
send window and the retransmit queue. The connection changes them in seven ways only (`Act`). `Kept`
is where the accepted chunks are: chunk `i` has the channel number `chunkSeq i`, and each number is
once among the packets that wait, the queue and the acknowledged ones. Every act keeps it
(`Kept.run`).
-/

namespace Linrdp.Rdpeudp.Sender

open List Lib.Runs Rdpeudp.Pdu Rdpeudp.Seq Rdpeudp.Sending SendWindow

structure Outbox where
  buffer : List Bytes
  window : SendWindow
  queue : List RetransmitEntry
  announced : Option ℕ

inductive Act
  | accept (chunks : List Bytes)
  | resize (maxEntries : ℕ)
  | acknowledge (dataSeq : ℕ)
  | lose (dataSeq : ℕ)
  | retire (reported : ℕ)
  | takeNew (now : ℕ)
  | takeLost (now : ℕ)

namespace Outbox

variable (o : Outbox)

def step : Act → Outbox
  | .accept chunks => { o with buffer := o.buffer ++ chunks }
  | .resize maxEntries => { o with window := { o.window with maxEntries := maxEntries } }
  | .acknowledge d => { o with window := (o.window.markReceived d).2 }
  | .lose d =>
    match o.window.markLost d with
    | (none, _) => o
    | (some info, window) =>
      { o with
        window := window
        queue := enqueue o.queue info.channelSeq info.data
        announced := some window.lowestUnacknowledged }
  | .retire reported =>
    if o.announced.any fun announced => reported >
      announced then { o with announced := none } else o
  | .takeNew now =>
    match o.buffer with
    | [] => o
    | data :: buffer =>
      match o.window.push data now with
      | (none, _) => o
      | (some _, window) => { o with buffer := buffer, window := window }
  | .takeLost now =>
    match o.queue with
    | [] => o
    | entry :: queue =>
      match o.window.pushRetransmit entry.channelSeq entry.data now with
      | (none, _) => o
      | (some _, window) => { o with queue := queue, window := window }

def ackedBy : Act → List ℕ
  | .acknowledge d => (o.window.pendingEntries.filter fun e => e.dataSeq == d).map
      SendEntry.channelSeq
  | _ => []

def ackedAlong : Outbox → List Act → List ℕ
  | _, [] => []
  | o, a :: acts => o.ackedBy a ++ ackedAlong (o.step a) acts

theorem ackedAlong_append (as bs : List Act) :
    o.ackedAlong (as ++ bs) = o.ackedAlong as ++ (run step o as).ackedAlong bs := by
  induction as generalizing o with
  | nil => rfl
  | cons a as ih => rw [cons_append, ackedAlong, ackedAlong, ih, run_cons, append_assoc]

theorem ackedAlong_eq_nil {acts : List Act} (h : ∀ a ∈ acts, ∀ d, a ≠ .acknowledge d) :
    o.ackedAlong acts = [] := by
  induction acts generalizing o with
  | nil => rfl
  | cons a acts ih =>
    rw [ackedAlong, ih _ fun b hb => h b (mem_cons_of_mem a hb), append_nil]
    cases a with
    | acknowledge d => exact absurd rfl (h _ mem_cons_self d)
    | _ => rfl

end Outbox

open Outbox SendEntry

/-! ### Where the chunks are -/

theorem count_without (es : List SendEntry) (d a : ℕ) :
    ((es.filter fun e => e.dataSeq != d).map channelSeq).count a +
        ((es.filter fun e => e.dataSeq == d).map channelSeq).count a =
      (es.map channelSeq).count a := by
  have hsplit := (filter_append_perm (fun e : SendEntry => e.dataSeq != d) es).map
    channelSeq
  have hnot : (fun e : SendEntry => !(e.dataSeq != d)) = fun e => e.dataSeq == d := by
    funext e
    exact Bool.not_not _
  rw [hnot, map_append] at hsplit
  rw [← hsplit.count_eq a, count_append]

theorem ackedAlong_acknowledge {o : Outbox} (h : o.window.Wf) (ds : List ℕ) :
    (o.ackedAlong (ds.map Act.acknowledge)).Perm
      ((o.window.pendingEntries.filter fun e => e.dataSeq ∈ ds).map channelSeq) := by
  induction ds generalizing o with
  | nil => simp [ackedAlong]
  | cons d ds ih =>
    have hwithout := markReceived_spec h d
    have hrest := ih (o := o.step (.acknowledge d)) hwithout.wf
    have hpending : (o.step (.acknowledge d)).window.pendingEntries =
        o.window.pendingEntries.filter fun e => e.dataSeq != d := hwithout.pending
    rw [hpending, filter_filter] at hrest
    refine perm_iff_count.2 fun a => ?_
    -- those in `d :: ds` are `d` itself and those of `ds` that are not `d`
    have hsplit := count_without (o.window.pendingEntries.filter fun e => e.dataSeq ∈ d :: ds) d a
    rw [filter_filter, filter_filter] at hsplit
    have hfirst : (fun e : SendEntry => (e.dataSeq == d) && decide (e.dataSeq ∈ d :: ds)) =
        fun e => e.dataSeq == d := by
      funext e
      by_cases he : e.dataSeq = d <;> simp [he]
    have hlater : (fun e : SendEntry => (e.dataSeq != d) && decide (e.dataSeq ∈ d :: ds)) =
        fun e => decide (e.dataSeq ∈ ds) && (e.dataSeq != d) := by
      funext e
      by_cases he : e.dataSeq = d <;> simp [he, Bool.and_comm]
    rw [hfirst, hlater] at hsplit
    rw [← hsplit, map_cons, ackedAlong, count_append, hrest.count_eq a, Nat.add_comm]
    rfl

structure Kept (accepted : List Bytes) (acked : List ℕ) (k : ℕ) (o : Outbox) : Prop where
  wf : o.window.Wf
  sent : k ≤ accepted.length
  buffer : o.buffer = accepted.drop k
  next : o.window.nextChannelSeq = chunkSeq k
  stored : ∀ e ∈ o.window.pendingEntries, ∃ i data, e.channelSeq = chunkSeq i ∧
    accepted[i]? = some data ∧ (e.dataSeq, data) ∈ o.window.dataStore
  queued : ∀ r ∈ o.queue, ∃ i, r.channelSeq = chunkSeq i ∧ accepted[i]? = some r.data
  places : (o.window.pendingEntries.map channelSeq ++
    (o.queue.map RetransmitEntry.channelSeq ++ acked)).Perm ((List.range k).map chunkSeq)

namespace Kept

variable {accepted : List Bytes} {acked : List ℕ} {k : ℕ} {o : Outbox} (h : Kept accepted acked k o)

include h

theorem nodup : (o.window.pendingEntries.map channelSeq ++
      (o.queue.map RetransmitEntry.channelSeq ++ acked)).Nodup :=
  h.places.nodup_iff.2 (nodup_range.map chunkSeq_strictMono.injective)

theorem perm {acked' : List ℕ} (hperm : acked.Perm acked') : Kept accepted acked' k o :=
  { h with places := (((hperm.append_left _).append_left _).symm).trans h.places }

theorem data_unique {d : ℕ} {data data' : Bytes}
    (hdata : (d, data) ∈ o.window.dataStore) (hdata' : (d, data') ∈ o.window.dataStore) :
    data = data' := by
  have hnodup : (o.window.dataStore.map Prod.fst).Nodup := by
    rw [h.wf.stored]
    exact List.Pairwise.map _ (fun _ _ hlt => ne_of_lt hlt) h.wf.increasing.waiting
  exact congrArg Prod.snd (inj_on_of_nodup_map hnodup hdata hdata' rfl)

theorem accept (chunks : List Bytes) :
    Kept (accepted ++ chunks) acked k (o.step (.accept chunks)) := by
  refine ⟨h.wf, ?_, ?_, h.next, fun e he => ?_, fun r hr => ?_, h.places⟩
  · rw [length_append]
    exact Nat.le_add_right_of_le h.sent
  · rw [drop_append_of_le_length h.sent, ← h.buffer]
    rfl
  · obtain ⟨i, data, hseq, hdata, hstored⟩ := h.stored e he
    exact ⟨i, data, hseq, getElem?_append_of_eq_some hdata _, hstored⟩
  · obtain ⟨i, hseq, hdata⟩ := h.queued r hr
    exact ⟨i, hseq, getElem?_append_of_eq_some hdata _⟩

theorem stored_without {d : ℕ} {window : SendWindow}
    (hwithout : SendWindow.Without d o.window window) :
    ∀ e ∈ window.pendingEntries, ∃ i data, e.channelSeq = chunkSeq i ∧
      accepted[i]? = some data ∧ (e.dataSeq, data) ∈ window.dataStore := by
  intro e he
  rw [hwithout.pending, mem_filter] at he
  obtain ⟨i, data, hseq, hdata, hstored⟩ := h.stored e he.1
  refine ⟨i, data, hseq, hdata, ?_⟩
  rw [hwithout.store]
  exact mem_filter.2 ⟨hstored, he.2⟩

theorem acknowledge (d : ℕ) :
    Kept accepted (acked ++ o.ackedBy (.acknowledge d)) k (o.step (.acknowledge d)) := by
  have hwithout := markReceived_spec h.wf d
  refine ⟨hwithout.wf, h.sent, h.buffer, hwithout.nextChannelSeq.trans h.next,
    h.stored_without hwithout, h.queued, ?_⟩
  refine perm_iff_count.2 fun a => ?_
  have hplaces := h.places.count_eq a
  have hsplit := count_without o.window.pendingEntries d a
  show List.count a ((o.window.markReceived d).2.pendingEntries.map _ ++
    (o.queue.map _ ++ (acked ++ (o.window.pendingEntries.filter _).map _))) = _
  rw [hwithout.pending]
  simp only [count_append] at hplaces ⊢
  omega

theorem lose (d : ℕ) : Kept accepted acked k (o.step (.lose d)) := by
  rcases markLost_spec h.wf d with ⟨_, hnone⟩ | ⟨e, he, rfl, data, hdata, hinfo, hwithout⟩
  · rw [step, hnone]
    exact h
  have hnew : ¬ o.queue.any (fun r => r.channelSeq == e.channelSeq) := by
    intro hany
    obtain ⟨r, hr, heq⟩ := any_eq_true.1 hany
    have hdisjoint := (nodup_append.1 h.nodup).2.2 e.channelSeq (mem_map_of_mem he)
      e.channelSeq (mem_append_left _ (mem_map.2 ⟨r, hr, by simpa using heq⟩))
    exact hdisjoint rfl
  have hstep : o.step (.lose e.dataSeq) =
      ⟨o.buffer, (o.window.markLost e.dataSeq).2, o.queue ++ [⟨e.channelSeq, data⟩],
        some (o.window.markLost e.dataSeq).2.lowestUnacknowledged⟩ := by
    rcases hlost : o.window.markLost e.dataSeq with ⟨info, window⟩
    rw [hlost] at hinfo
    rw [step, hlost, show info = some ⟨e.channelSeq, data⟩ from hinfo]
    simp only [enqueue, if_neg hnew]
  rw [hstep]
  refine ⟨hwithout.wf, h.sent, h.buffer, hwithout.nextChannelSeq.trans h.next,
    h.stored_without hwithout, fun r hr => ?_, ?_⟩
  · rcases mem_append.1 hr with hr | hr
    · exact h.queued r hr
    · obtain ⟨i, data', hseq, hdata', hstored⟩ := h.stored e he
      rw [mem_singleton.1 hr, h.data_unique hdata hstored]
      exact ⟨i, hseq, hdata'⟩
  · refine perm_iff_count.2 fun a => ?_
    have hplaces := h.places.count_eq a
    have hsplit := count_without o.window.pendingEntries e.dataSeq a
    have hone : o.window.pendingEntries.filter (fun x => x.dataSeq == e.dataSeq) = [e] :=
      h.wf.increasing.waiting.filter_eq he
    rw [hone] at hsplit
    show List.count a ((o.window.markLost e.dataSeq).2.pendingEntries.map _ ++
      ((o.queue ++ [RetransmitEntry.mk e.channelSeq data]).map _ ++ acked)) = _
    rw [hwithout.pending]
    simp only [count_append, map_append] at hplaces hsplit ⊢
    simp only [map_cons, map_nil] at hsplit ⊢
    omega

theorem resize (maxEntries : ℕ) : Kept accepted acked k (o.step (.resize maxEntries)) :=
  { h with wf := { h.wf with } }

theorem retire (reported : ℕ) : Kept accepted acked k (o.step (.retire reported)) := by
  rw [step]
  split_ifs
  · exact { h with }
  · exact h

theorem stored_record {i : ℕ} {data : Bytes} (hdata : accepted[i]? = some data) (now count : ℕ) :
    ∀ e ∈ (o.window.record (chunkSeq i) data now count).pendingEntries, ∃ j content,
      e.channelSeq = chunkSeq j ∧ accepted[j]? = some content ∧
        (e.dataSeq, content) ∈ (o.window.record (chunkSeq i) data now count).dataStore := by
  intro e he
  rw [pendingEntries_record] at he
  rcases mem_append.1 he with he | he
  · obtain ⟨j, content, hseq, hcontent, hstored⟩ := h.stored e he
    exact ⟨j, content, hseq, hcontent, mem_append_left _ hstored⟩
  · rw [mem_singleton.1 he]
    exact ⟨i, data, rfl, hdata, mem_append_right _ (mem_singleton.2 rfl)⟩

theorem takeNew (now : ℕ) : ∃ k', Kept accepted acked k' (o.step (.takeNew now)) := by
  rw [step]
  rcases hbuffer : o.buffer with _ | ⟨data, buffer⟩
  · exact ⟨k, h⟩
  dsimp only
  rw [push]
  split_ifs with hfull
  · exact ⟨k, h⟩
  -- the chunk at the front of the buffer is the next one, and gets the next number
  have hdrop : accepted.drop k = data :: buffer := h.buffer.symm.trans hbuffer
  have hlt : k < accepted.length := by
    by_contra hge
    rw [drop_eq_nil_of_le (not_lt.1 hge)] at hdrop
    cases hdrop
  rw [drop_eq_getElem_cons hlt, cons.injEq] at hdrop
  have hdata : accepted[k]? = some data := by rw [getElem?_eq_getElem hlt, hdrop.1]
  refine ⟨k + 1, ?_⟩
  dsimp only
  rw [h.next]
  have hrecord := h.wf.record (chunkSeq k) data now 1
  refine ⟨{ hrecord with }, hlt,
    hdrop.2.symm, nextChannelSeq_chunkSeq k, h.stored_record hdata now 1, h.queued, ?_⟩
  refine perm_iff_count.2 fun a => ?_
  have hplaces := h.places.count_eq a
  show List.count a ((o.window.record (chunkSeq k) data now 1).pendingEntries.map _ ++ _) = _
  rw [pendingEntries_record, range_succ]
  simp only [count_append, map_append] at hplaces ⊢
  simp only [map_cons, map_nil]
  omega

theorem takeLost (now : ℕ) : Kept accepted acked k (o.step (.takeLost now)) := by
  rw [step]
  rcases hqueue : o.queue with _ | ⟨entry, queue⟩
  · exact h
  dsimp only
  rw [pushRetransmit]
  split_ifs with hfull
  · exact h
  obtain ⟨i, hseq, hdata⟩ := h.queued entry (by rw [hqueue]; exact mem_cons_self)
  dsimp only
  rw [hseq]
  refine ⟨h.wf.record (chunkSeq i) entry.data now 2, h.sent, h.buffer, h.next,
    h.stored_record hdata now 2,
    fun r hr => h.queued r (by rw [hqueue]; exact mem_cons_of_mem _ hr), ?_⟩
  refine perm_iff_count.2 fun a => ?_
  have hplaces := h.places.count_eq a
  rw [hqueue, map_cons, hseq] at hplaces
  rw [pendingEntries_record, ← hplaces]
  simp only [count_append, map_append, map_cons, map_nil, count_cons, count_nil]
  omega

/-- **Every act keeps the chunks**; what it acknowledges is acknowledged. -/
theorem step (a : Act) (ha : ∀ chunks, a ≠ .accept chunks) :
    ∃ k', Kept accepted (acked ++ o.ackedBy a) k' (o.step a) := by
  cases a with
  | accept chunks => exact absurd rfl (ha chunks)
  | acknowledge d => exact ⟨k, h.acknowledge d⟩
  | resize maxEntries => exact ⟨k, (h.resize maxEntries).perm (by simp [ackedBy])⟩
  | lose d => exact ⟨k, (h.lose d).perm (by simp [ackedBy])⟩
  | retire reported => exact ⟨k, (h.retire reported).perm (by simp [ackedBy])⟩
  | takeNew now =>
    obtain ⟨k', h'⟩ := h.takeNew now
    exact ⟨k', h'.perm (by simp [ackedBy])⟩
  | takeLost now => exact ⟨k, (h.takeLost now).perm (by simp [ackedBy])⟩

theorem run {acts : List Act} (hacts : ∀ a ∈ acts, ∀ chunks, a ≠ .accept chunks) :
    ∃ k', Kept accepted (acked ++ o.ackedAlong acts) k' (Lib.Runs.run Outbox.step o acts) := by
  induction acts generalizing acked k o with
  | nil => exact ⟨k, h.perm (by simp [Outbox.ackedAlong])⟩
  | cons a acts ih =>
    obtain ⟨k₁, h₁⟩ := h.step a (hacts a mem_cons_self)
    obtain ⟨k₂, h₂⟩ := ih h₁ fun b hb => hacts b (mem_cons_of_mem a hb)
    rw [append_assoc] at h₂
    exact ⟨k₂, h₂⟩

end Kept

end Linrdp.Rdpeudp.Sender
