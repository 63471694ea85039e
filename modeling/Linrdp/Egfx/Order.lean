import Linrdp.Lib.Runs
import Linrdp.Egfx.Requests

/-!
# The order of the graphics output

The display loop and the two dispatchers share one thread and change places where they await. The
display ships queued PDUs as an event stamped with the generation (`drainAndSend`); the client's
PDUs are answered by what `process` drains. Both routes end at one writer, under the lock of the
server. Only a new desktop size on the legacy path ends the loop early, which drops what the
dispatchers have in hand.

`output_order`: the resets, surfaces and frames of a generation reach the client in the order they
were queued, none twice and none left out, and a confirm is the last of what is old.
-/

namespace Linrdp.Egfx.Order

open List Lib.Runs
open Egfx.Capabilities Egfx.Output Egfx.Requests GraphicsPipelineServer

/-! ### The display's pieces between two awaits -/

/-- The part of `ensure_surface` before the drain, and whether there is one. -/
def ensureSurface (s : GraphicsPipelineServer) (hadSurface : Bool) (order : List ℕ)
    (width height : ℕ) : Bool × GraphicsPipelineServer :=
  let s := if hadSurface then s.resize order width height else s
  let s := s.setOutputDimensions width height
  match s.createSurfaceWithFormat width height .xRgb with
  | (none, s) => (false, s)
  | (some id, s) => (true, (s.mapSurfaceToOutput id 0 0).2)

/-! ### The loop -/

structure Batch where
  generation : ℕ
  entries : List Entry

inductive Holder
  | free | dispatchPdu | dispatchEvents
deriving DecidableEq

structure Loop where
  channel : Channel
  (events taken : List Batch)
  holder : Holder
  (rest written : List Entry)
  /-- the display has left the loop with a new desktop size -/
  leaving : Bool

def start (counter channelId : ℕ) : Loop where
  channel := ⟨{ new counter with channelId := some channelId }, true⟩
  events := []
  taken := []
  holder := .free
  rest := []
  written := []
  leaving := false

inductive Step
  | ensureSurface (hadSurface : Bool) (order : List ℕ) (width height : ℕ)
  /-- the end of `send_clear` and `send_h264` -/
  | sendFrame (now timestampMs id : ℕ) (frame : Frame)
  | setMaxFramesInFlight (max : ℕ)
  | legacyResize | reactivate
  | receive (now : ℕ) (pdu : ClientPdu)
  | close
  | recvMany (count : ℕ)
  | lock | next | write | elsewhere

namespace Loop

def withServer (l : Loop) (s : GraphicsPipelineServer) : Loop :=
  { l with channel := { l.channel with server := s } }

/-- The generation is read under the lock of the drain. -/
def drainAndSend (size : GfxPdu → ℕ) (l : Loop) : Loop :=
  let (drained, s) := l.channel.server.drainOutput size
  match s.channelId with
  | none => l.withServer s
  | some _ => { l.withServer s with events := l.events ++ [⟨s.generation, drained⟩] }

/-- A message of the client can be taken: by its own dispatcher, or, from the tunnel, as an event.
-/
def listens (l : Loop) : Bool :=
  match l.holder with
  | .free => true
  | .dispatchPdu => false
  | .dispatchEvents => l.rest.isEmpty

def answering (l : Loop) : Holder :=
  match l.holder with
  | .dispatchEvents => .dispatchEvents
  | _ => .dispatchPdu

end Loop

def step (size : GfxPdu → ℕ) (l : Loop) : Step → Loop
  | .ensureSurface hadSurface order width height =>
    if l.leaving then l else
    let (created, s) := ensureSurface l.channel.server hadSurface order width height
    if created then (l.withServer s).drainAndSend size else l.withServer s
  | .sendFrame now timestampMs id frame =>
    if l.leaving then l else
    (l.withServer (sendFrame l.channel.server now timestampMs id frame).2).drainAndSend size
  | .setMaxFramesInFlight max => l.withServer (l.channel.server.setMaxFramesInFlight max)
  | .legacyResize => if l.channel.server.isReady then l else { l with leaving := true }
  | .reactivate =>
    if l.leaving then { l with taken := [], holder := .free, rest := [], leaving := false } else l
  | .receive now pdu =>
    if l.listens then
      let (replies, channel) := l.channel.processData size now pdu
      { l with channel := channel, holder := l.answering, rest := replies }
    else l
  | .close => if l.listens then { l with channel := l.channel.close } else l
  | .recvMany count =>
    if l.holder = .dispatchEvents then l
    else { l with taken := l.taken ++ l.events.take count, events := l.events.drop count }
  | .lock => if l.holder = .free ∧ l.taken ≠ [] then { l with holder := .dispatchEvents } else l
  | .next =>
    if l.rest ≠ [] then l
    else
      match l.holder, l.taken with
      | .dispatchEvents, batch :: taken =>
        if batch.generation = l.channel.server.generation then
          { l with taken := taken, rest := batch.entries }
        else { l with taken := taken }
      | _, _ => { l with holder := .free }
  | .write =>
    match l.rest with
    | [] => l
    | e :: rest => { l with rest := rest, written := l.written ++ [e] }
  | .elsewhere =>
    l.withServer { l.channel.server with nextGeneration := l.channel.server.nextGeneration + 1 }

def before (size : GfxPdu → ℕ) (counter channelId : ℕ) (steps : List Step) (n : ℕ) : Loop :=
  stateAt (step size) (start counter channelId) steps n

/-! ### The order -/

variable (generation : ℕ)

def outputOf (e : Entry) : Bool := e.generation == generation && e.pdu.isOutput

def isConfirm : GfxPdu → Bool
  | .capabilitiesConfirm _ => true
  | _ => false

structure OutputOrder (size : GfxPdu → ℕ) (counter channelId : ℕ) (steps : List Step) : Prop where
  /-- What is written of a generation is the beginning of what was queued in it. -/
  inOrder : ∀ n generation,
    (before size counter channelId steps n).written.filter (outputOf generation) <+:
      (before size counter channelId steps n).channel.server.queued.filter (outputOf generation)
  /-- Entries are numbered as they were queued, so none is another. -/
  numbered : ∀ n i (e : Entry), (before size counter channelId steps n).channel.server.queued[i]? =
    some e → e.serial = i
  /-- After a confirm nothing queued before it is written. -/
  confirmed : ∀ (n i j : ℕ) (c e : Entry), (before size counter channelId steps n).written[i]? =
    some c →
    isConfirm c.pdu = true → i < j → (before size counter channelId steps n).written[j]? = some e →
    c.serial < e.serial

/-! ### The log of what was queued -/

structure Log (s : GraphicsPipelineServer) : Prop where
  numbered : ∀ i (e : Entry), s.queued[i]? = some e → e.serial = i
  generations : s.queued.Pairwise fun e e' => e.generation ≤ e'.generation
  bound : ∀ e ∈ s.queued, e.generation ≤ s.generation
  fresh : s.generation < s.nextGeneration
  confirms : s.queued.Pairwise fun e c =>
    isConfirm c.pdu = true → e.generation = c.generation → e.pdu.isOutput = false
  idle : s.state ≠ .ready → s.state ≠ .resizing ∧ s.queued.filter (outputOf s.generation) = []
  started : s.channelId.isSome

section log

variable {s s' : GraphicsPipelineServer}

theorem filter_outputOf_eq_nil {l : List Entry} {generation : ℕ}
    (h : ∀ e ∈ l, e.generation = generation → e.pdu.isOutput = false) :
    l.filter (outputOf generation) = [] := by
  refine filter_eq_nil_iff.2 fun e he hout => ?_
  simp only [outputOf, Bool.and_eq_true, beq_iff_eq] at hout
  exact Bool.false_ne_true ((h e he hout.1).symm.trans hout.2)

section

variable (h : Log s)
include h

theorem Log.filter_of_lt {generation : ℕ} (hlt : s.generation < generation) :
    s.queued.filter (outputOf generation) = [] :=
  filter_outputOf_eq_nil fun e he hgen => by
    have hle := h.bound e he
    omega

theorem Log.confirm_lt {c e : Entry} (hc : c ∈ s.queued) (he : e ∈ s.queued)
    (hconfirm : isConfirm c.pdu = true) (hout : e.pdu.isOutput = true)
    (hgen : c.generation ≤ e.generation) : c.serial < e.serial := by
  obtain ⟨i, hi⟩ := getElem?_of_mem hc
  obtain ⟨j, hj⟩ := getElem?_of_mem he
  rw [h.numbered i c hi, h.numbered j e hj]
  obtain ⟨hilt, hi'⟩ := List.getElem?_eq_some_iff.1 hi
  obtain ⟨hjlt, hj'⟩ := List.getElem?_eq_some_iff.1 hj
  rcases Nat.lt_trichotomy i j with hij | rfl | hji
  · exact hij
  · rw [hi, Option.some.injEq] at hj
    subst hj
    cases hpdu : c.pdu <;> simp [hpdu, isConfirm, GfxPdu.isOutput] at hconfirm hout
  · have hle := pairwise_iff_getElem.1 h.generations j i hjlt hilt hji
    have hnone := pairwise_iff_getElem.1 h.confirms j i hjlt hilt hji
    rw [hi', hj'] at hle hnone
    exact absurd ((hnone hconfirm (by omega)).symm.trans hout) Bool.false_ne_true

theorem Log.append {new : List Entry} (hqueued : s'.queued = s.queued ++ new)
    (hnew : ∀ e ∈ new, e.generation = s.generation)
    (hserial : ∀ i (e : Entry), new[i]? = some e → e.serial = s.queued.length + i)
    (hgen : s'.generation = s.generation) (hnext : s'.nextGeneration = s.nextGeneration)
    (hid : s'.channelId = s.channelId)
    (hconfirms : s'.queued.Pairwise fun e c =>
      isConfirm c.pdu = true → e.generation = c.generation → e.pdu.isOutput = false)
    (hidle : s'.state ≠ .ready → s'.state ≠ .resizing ∧ s'.queued.filter (outputOf s.generation) =
      []) :
    Log s' := by
  refine ⟨fun i e he => ?_, ?_, fun e he => ?_, ?_, hconfirms, hgen ▸ hidle, hid ▸ h.started⟩
  · rw [hqueued] at he
    rcases Nat.lt_or_ge i s.queued.length with hlt | hge
    · exact h.numbered i e (by rwa [getElem?_append_left hlt] at he)
    · rw [getElem?_append_right hge] at he
      have hnum := hserial _ e he
      omega
  · rw [hqueued]
    refine pairwise_append.2 ⟨h.generations, ?_, fun e he e' he' => ?_⟩
    · exact pairwise_of_forall_mem_list fun e he e' he' => by rw [hnew e he, hnew e' he']
    · rw [hnew e' he']
      exact h.bound e he
  · rw [hqueued] at he
    rw [hgen]
    rcases mem_append.1 he with he | he
    · exact h.bound e he
    · exact (hnew e he).le
  · rw [hgen, hnext]
    exact h.fresh

theorem Log.queues (hq : Queues s s') (hstate : s'.state = s.state)
    (hidle : s.state ≠ .ready → s'.queued = s.queued) : Log s' := by
  obtain ⟨new, -, hqueued, hnew, hserial⟩ := hq.entries
  have hplain : ∀ c ∈ new, isConfirm c.pdu = true → False := fun c hc hconfirm => by
    have hout := (hnew c hc).2
    cases hpdu : c.pdu <;> simp [hpdu, isConfirm, GfxPdu.isOutput] at hconfirm hout
  refine h.append hqueued (fun e he => (hnew e he).1) hserial hq.generation hq.nextGeneration
    hq.channelId
    ?_ fun hready => ?_
  · rw [hqueued]
    refine pairwise_append.2 ⟨h.confirms, ?_, fun e _ c hc hconfirm => (hplain c hc hconfirm).elim⟩
    exact pairwise_of_forall_mem_list fun e _ c hc hconfirm => (hplain c hc hconfirm).elim
  · rw [hstate] at hready
    rw [hstate, hidle hready]
    exact h.idle hready

theorem Log.of_queued (hqueued : s'.queued = s.queued) (hgen : s.generation ≤ s'.generation)
    (hfresh : s'.generation < s'.nextGeneration) (hid : s'.channelId = s.channelId)
    (hidle : s'.state ≠ .ready →
      s'.state ≠ .resizing ∧ s.queued.filter (outputOf s'.generation) = []) : Log s' where
  numbered := hqueued ▸ h.numbered
  generations := hqueued ▸ h.generations
  bound := hqueued ▸ fun e he => (h.bound e he).trans hgen
  fresh := hfresh
  confirms := hqueued ▸ h.confirms
  idle := hqueued ▸ hidle
  started := hid ▸ h.started

theorem Log.congr (hqueued : s'.queued = s.queued) (hgen : s'.generation = s.generation)
    (hnext : s.nextGeneration ≤ s'.nextGeneration) (hid : s'.channelId = s.channelId)
    (hstate : s'.state = s.state ∨ s'.state = .ready) : Log s' := by
  refine h.of_queued hqueued hgen.ge (hgen ▸ h.fresh.trans_le hnext) hid fun hready => ?_
  rcases hstate with hstate | hstate
  · rw [hstate] at hready ⊢
    rw [hgen]
    exact h.idle hready
  · exact absurd hstate hready

theorem Log.takeGeneration (hqueued : s'.queued = s.queued)
    (hgen : s'.generation = s.nextGeneration) (hnext : s.nextGeneration < s'.nextGeneration)
    (hid : s'.channelId = s.channelId) (hstate : s'.state ≠ .resizing) : Log s' :=
  h.of_queued hqueued (hgen ▸ h.fresh.le) (hgen ▸ hnext) hid fun _ =>
    ⟨hstate, hgen ▸ h.filter_of_lt h.fresh⟩

theorem Log.close : Log s.close :=
  h.takeGeneration rfl rfl (Nat.lt_succ_self _) rfl (by simp [GraphicsPipelineServer.close])

theorem Log.restartIfReady :
    Log s.restartIfReady ∧ s.restartIfReady.queued.filter (outputOf s.restartIfReady.generation) =
    [] := by
  unfold GraphicsPipelineServer.restartIfReady
  split_ifs with hready
  · refine ⟨h.takeGeneration rfl rfl (Nat.lt_succ_self _) rfl ?_, h.filter_of_lt h.fresh⟩
    simp [restart, GraphicsPipelineServer.takeGeneration, hready]
  · exact ⟨h, (h.idle hready).2⟩

theorem Log.push {pdu : GfxPdu} (hout : pdu.isOutput = false)
    (hconfirm : isConfirm pdu = true → s.queued.filter (outputOf s.generation) = []) :
    Log (s.push pdu) := by
  refine h.append rfl (by simp) (fun i e he => ?_) rfl rfl rfl ?_ fun hready => ?_
  · obtain ⟨rfl, rfl⟩ : i = 0 ∧ _ = e := by simpa [getElem?_singleton] using he
    rfl
  · refine pairwise_append.2 ⟨h.confirms, by simp, fun e he c hc hisConfirm hgen => ?_⟩
    rw [mem_singleton.1 hc] at hisConfirm hgen
    have hnot := filter_eq_nil_iff.1 (hconfirm hisConfirm) e he
    simpa [outputOf, hgen] using hnot
  · refine ⟨(h.idle hready).1, ?_⟩
    rw [GraphicsPipelineServer.push, filter_append, (h.idle hready).2]
    simp [outputOf, hout]

end

end log

/-! ### Answers to the client -/

structure Answers (s s' : GraphicsPipelineServer) (replies : List Entry) : Prop where
  queued : s'.queued = s.queued ++ replies
  plain : ∀ e ∈ replies, e.pdu.isOutput = false
  serials : replies.Pairwise (fun e e' => e.serial < e'.serial) ∧
    ∀ e ∈ replies, s.queued.length ≤ e.serial
  queue : s'.outputQueue = []
  generation : s.generation ≤ s'.generation
  log : Log s'

section answers

variable {s : GraphicsPipelineServer} {size : GfxPdu → ℕ}

theorem Answers.silent {s' : GraphicsPipelineServer} (hqueued : s'.queued = s.queued)
    (hqueue : s'.outputQueue = []) (hgen : s.generation ≤ s'.generation) (hlog : Log s') :
    Answers s s' [] := ⟨by simp [hqueued], by simp, by simp, hqueue, hgen, hlog⟩

theorem Answers.single {t : GraphicsPipelineServer} {pdu : GfxPdu} (hqueued : t.queued = s.queued)
    (hqueue : t.outputQueue = []) (hgen : s.generation ≤ t.generation) (hlog : Log (t.push pdu))
    (hout : pdu.isOutput = false) :
    Answers s ((t.push pdu).drainOutput size).2 ((t.push pdu).drainOutput size).1 := by
  have hreplies : ((t.push pdu).drainOutput size).1 = [⟨s.queued.length, t.generation, pdu⟩] := by
    simp [drainOutput, push, hqueue, hqueued]
  rw [hreplies]
  refine ⟨?_, by simp [hout], by simp, rfl, hgen, ?_⟩
  · simp [drainOutput, push, hqueued]
  · exact hlog.congr rfl rfl le_rfl rfl (.inl rfl)

theorem restartIfReady_spec (h : Log s) (hqueue : s.outputQueue = []) :
    s.restartIfReady.queued = s.queued ∧ s.restartIfReady.outputQueue = [] ∧
      s.generation ≤ s.restartIfReady.generation := by
  unfold restartIfReady
  split_ifs
  · exact ⟨rfl, rfl, h.fresh.le⟩
  · exact ⟨rfl, hqueue, le_rfl⟩

theorem answers_process (h : Log s) (hqueue : s.outputQueue = []) (now : ℕ) (pdu : ClientPdu) :
    Answers s (s.process size now pdu).2 (s.process size now pdu).1 := by
  have hsame : ∀ frames, Answers s ({ s with frames := frames }.drainOutput size).2
      ({ s with frames := frames }.drainOutput size).1 := fun frames => by
    have hreplies : ({ s with frames := frames }.drainOutput size).1 = [] := hqueue
    rw [hreplies]
    exact .silent rfl rfl le_rfl (h.congr rfl rfl le_rfl rfl (.inl rfl))
  unfold process
  cases pdu with
  | capabilitiesAdvertise caps =>
    obtain ⟨hlog, hnone⟩ := h.restartIfReady
    obtain ⟨hqueued, hempty, hgen⟩ := restartIfReady_spec h hqueue
    rcases hcap : negotiateCapabilities caps preferredCapabilities with _ | cap
    · rw [handle_advertise_none hcap]
      have hreplies : ({ s.restartIfReady with closeRequested := true }.drainOutput size).1 = [] :=
          hempty
      rw [hreplies]
      exact .silent hqueued rfl hgen (hlog.congr rfl rfl le_rfl rfl (.inl rfl))
    · rw [handle_advertise_some hcap]
      refine Answers.single hqueued hempty hgen (Log.push ?_ rfl fun _ => hnone) rfl
      exact hlog.congr rfl rfl le_rfl rfl (.inr rfl)
  | frameAcknowledge frameId queueDepth => exact hsame _
  | cacheImportOffer =>
    exact Answers.single rfl hqueue le_rfl (h.push rfl (by simp [isConfirm])) rfl
  | other => exact hsame s.frames

end answers

/-! ### The invariant -/

def pending (batches : List Batch) : List Entry :=
  (batches.filter fun b => b.generation == generation).flatMap Batch.entries

structure Inv (l : Loop) : Prop where
  queue : l.channel.server.outputQueue = []
  log : Log l.channel.server
  batches : ∀ b ∈ l.taken ++ l.events, b.generation ≤ l.channel.server.generation ∧
    ∀ e ∈ b.entries, outputOf b.generation e = true
  flow : l.written.filter (outputOf l.channel.server.generation) ++
      l.rest.filter (outputOf l.channel.server.generation) ++
      pending l.channel.server.generation (l.taken ++ l.events) =
    l.channel.server.queued.filter (outputOf l.channel.server.generation)
  past : ∀ generation, generation ≠ l.channel.server.generation →
    l.written.filter (outputOf generation) <+: l.channel.server.queued.filter (outputOf generation)
  known : ∀ e ∈ l.written ++ l.rest, e ∈ l.channel.server.queued
  held : (∀ e ∈ l.rest, outputOf l.channel.server.generation e = true) ∨
    l.rest.Pairwise (fun e e' => e.serial < e'.serial) ∧
      ∀ e ∈ l.rest, e.pdu.isOutput = false ∧ ∀ w ∈ l.written, w.serial < e.serial
  confirmed : l.written.Pairwise fun c e => isConfirm c.pdu = true → c.serial < e.serial
  free : l.holder = .free → l.rest = []
  leaving : l.leaving = true →
    l.channel.server.queued.filter (outputOf l.channel.server.generation) = []

section steps

variable {size : GfxPdu → ℕ} {l : Loop}

theorem Inv.rest_of_listens (h : Inv l) (hlistens : l.listens = true) : l.rest = [] := by
  unfold Loop.listens at hlistens
  split at hlistens
  · exact h.free ‹_›
  · contradiction
  · simpa using hlistens

theorem Inv.serial_lt (h : Inv l) {w : Entry} (hw : w ∈ l.written) :
    w.serial < l.channel.server.queued.length := by
  obtain ⟨i, hi⟩ := getElem?_of_mem (h.known w (mem_append_left _ hw))
  rw [h.log.numbered i w hi]
  exact (List.getElem?_eq_some_iff.1 hi).1

theorem pending_append (batches batches' : List Batch) :
    pending generation (batches ++ batches') = pending generation batches ++
    pending generation batches' := by
  simp [pending]

theorem pending_eq_nil {generation : ℕ} {batches : List Batch}
    (h : ∀ b ∈ batches, b.generation ≠ generation) : pending generation batches = [] := by
  unfold pending
  rw [filter_eq_nil_iff.2 fun b hb => by simpa using h b hb]
  rfl

theorem inv_answers (h : Inv l) {channel : Channel} {holder : Holder} {replies : List Entry}
    (hlistens : l.listens = true) (ha : Answers l.channel.server channel.server replies)
    (hfree : holder = .free → replies = []) :
    Inv { l with channel := channel, holder := holder, rest := replies } := by
  have hrest := h.rest_of_listens hlistens
  have hplain : ∀ generation, replies.filter (outputOf generation) = [] := fun generation =>
    filter_outputOf_eq_nil fun e he _ => ha.plain e he
  have hfilter : ∀ generation, channel.server.queued.filter (outputOf generation) =
      l.channel.server.queued.filter (outputOf generation) := fun generation => by
    rw [ha.queued, filter_append, hplain, append_nil]
  have hflow := h.flow
  rw [hrest, filter_nil, append_nil] at hflow
  have hbefore : ∀ generation, l.written.filter (outputOf generation) <+:
      l.channel.server.queued.filter (outputOf generation) := fun generation => by
    by_cases hgen : generation = l.channel.server.generation
    · exact hgen ▸ ⟨_, hflow⟩
    · exact h.past generation hgen
  refine ⟨ha.queue, ha.log, fun b hb => ?_, ?_, fun generation _ => ?_, fun e he => ?_, ?_,
    h.confirmed, hfree, fun hleaving => ?_⟩
  · obtain ⟨hle, hout⟩ := h.batches b hb
    exact ⟨hle.trans ha.generation, hout⟩
  · simp only [hplain, hfilter, append_nil]
    rcases ha.generation.eq_or_lt with heq | hlt
    · rw [← heq]
      exact hflow
    · have hnone := h.log.filter_of_lt hlt
      have hwritten := hbefore channel.server.generation
      rw [hnone] at hwritten ⊢
      rw [prefix_nil.1 hwritten, pending_eq_nil fun b hb => ?_]
      · rfl
      · have hle := (h.batches b hb).1
        omega
  · rw [hfilter]
    exact hbefore generation
  · simp only [ha.queued]
    rcases mem_append.1 he with he | he
    · exact mem_append_left _ (h.known e (mem_append_left _ he))
    · exact mem_append_right _ he
  · refine .inr ⟨ha.serials.1, fun e he => ⟨ha.plain e he, fun w hw => ?_⟩⟩
    exact (h.serial_lt hw).trans_le (ha.serials.2 e he)
  · simp only [hfilter]
    rcases ha.generation.eq_or_lt with heq | hlt
    · rw [← heq]
      exact h.leaving hleaving
    · exact h.log.filter_of_lt hlt

theorem inv_drainAndSend (h : Inv l) {s : GraphicsPipelineServer} (hq : Queues l.channel.server s)
    (hstate : s.state = l.channel.server.state)
    (hidle : l.channel.server.state ≠ .ready → s.queued = l.channel.server.queued)
    (hleaving : l.leaving = false) : Inv ((l.withServer s).drainAndSend size) := by
  have hlog := h.log.queues hq hstate hidle
  obtain ⟨new, hqueue, hqueued, hnew, -⟩ := hq.entries
  rw [h.queue, nil_append] at hqueue
  obtain ⟨id, hid⟩ := Option.isSome_iff_exists.1 hlog.started
  have hout : ∀ e ∈ new, outputOf l.channel.server.generation e = true := fun e he => by
    simp [outputOf, (hnew e he).1, (hnew e he).2]
  have heq : (l.withServer s).drainAndSend size =
      { l.withServer (s.drainOutput size).2 with
        events := l.events ++ [⟨l.channel.server.generation, new⟩] } := by
    simp only [Loop.drainAndSend, Loop.withServer, drainOutput, hid, hqueue, hq.generation]
  have hfilter : ∀ generation, s.queued.filter (outputOf generation) =
      l.channel.server.queued.filter (outputOf generation) ++ new.filter (outputOf generation) :=
    fun generation => by rw [hqueued, filter_append]
  rw [heq]
  refine ⟨rfl, hlog.congr rfl rfl le_rfl rfl (.inl rfl), fun b hb => ?_, ?_, fun generation hgen =>
    ?_, fun e he => ?_, ?_, h.confirmed, h.free, fun h' => ?_⟩
  · simp only [← append_assoc, mem_append, mem_singleton] at hb
    rcases hb with hb | rfl
    · obtain ⟨hle, hentries⟩ := h.batches b (mem_append.2 hb)
      exact ⟨hle.trans_eq hq.generation.symm, hentries⟩
    · exact ⟨hq.generation.ge, hout⟩
  · show filter (outputOf s.generation) l.written ++ filter (outputOf s.generation) l.rest ++
      pending s.generation (l.taken ++ (l.events ++ [_])) = s.queued.filter (outputOf s.generation)
    rw [hq.generation, hfilter, ← h.flow, ← append_assoc l.taken, pending_append, ← append_assoc]
    congr 1
    simp [pending, filter_eq_self.2 hout]
  · exact (h.past generation fun h' => hgen (h'.trans hq.generation.symm)).trans
      (hfilter generation ▸ prefix_append _ _)
  · show e ∈ s.queued
    rw [hqueued]
    exact mem_append_left _ (h.known e he)
  · rcases h.held with hheld | hheld
    · exact .inl fun e he => by
        show outputOf s.generation e = true
        rw [hq.generation]
        exact hheld e he
    · exact .inr hheld
  · exact absurd (hleaving.symm.trans h') Bool.false_ne_true

theorem inv_withServer (h : Inv l) {s : GraphicsPipelineServer}
    (hqueue : s.outputQueue = l.channel.server.outputQueue)
    (hqueued : s.queued = l.channel.server.queued)
    (hgen : s.generation = l.channel.server.generation) (hlog : Log s) : Inv (l.withServer s) := by
  refine ⟨hqueue.trans h.queue, hlog, ?_, ?_, ?_, ?_, ?_, h.confirmed, h.free, ?_⟩ <;>
    simp only [Loop.withServer, hqueued, hgen]
  · exact h.batches
  · exact h.flow
  · exact h.past
  · exact h.known
  · exact h.held
  · exact h.leaving

section

variable (s : GraphicsPipelineServer) (hadSurface : Bool) (order : List ℕ) (width height : ℕ)

theorem resize_state :
    Queues s (if hadSurface then s.resize order width height else s) ∧
      (if hadSurface then s.resize order width height else s).state = s.state ∧
      (s.state ≠ .ready → (if hadSurface then s.resize order width height else s) = s) := by
  cases hadSurface with
  | false => exact ⟨.refl s, rfl, fun _ => rfl⟩
  | true =>
    refine ⟨queues_resize s order width height [], ?_, fun hready => ?_⟩
    · exact (serve_state (fun _ => 0) s (.resize order width height [])).1
    · obtain heq | ⟨hready', -⟩ := s.resizeWithMonitors_cases order width height []
      · exact heq
      · exact absurd hready' hready

theorem ensureSurface_spec (hresizing : s.state ≠ .resizing) :
    Queues s (ensureSurface s hadSurface order width height).2 ∧
      (ensureSurface s hadSurface order width height).2.state = s.state ∧
      ((ensureSurface s hadSurface order width height).1 = false ↔ s.state ≠ .ready) ∧
      (s.state ≠ .ready → (ensureSurface s hadSurface order width height).2 =
        s.setOutputDimensions width height) := by
  obtain ⟨hqueues, hstate, hsame⟩ := resize_state s hadSurface order width height
  unfold ensureSurface
  simp only
  by_cases hready : s.state = .ready
  · generalize (if hadSurface then s.resize order width height else s) = t at hqueues hstate ⊢
    have hsized : Queues s (t.setOutputDimensions width height) :=
      hqueues.trans (.of_eq rfl rfl rfl rfl rfl rfl)
    have hstate' : (t.setOutputDimensions width height).state = s.state := hstate
    generalize t.setOutputDimensions width height = u at hsized hstate' ⊢
    have hqueues' := hsized.trans (queues_createSurface u width height .xRgb)
    have hcreated := (serve_state (fun _ => 0) u (.createSurface width height .xRgb)).1
    rcases hcreate : u.createSurfaceWithFormat width height .xRgb with ⟨_ | id, v⟩
    · exact absurd (hstate'.trans hready) (createSurface_none.1 (congrArg Prod.fst hcreate)).1
    · rw [serve, hcreate] at hcreated
      rw [hcreate] at hqueues'
      have hmapped := (serve_state (fun _ => 0) v (.mapSurfaceToOutput id 0 0)).1
      refine ⟨hqueues'.trans (queues_mapSurfaceToOutput v id 0 0), ?_, by simp [hready], by
        simp [hready]⟩
      exact hmapped.trans (hcreated.trans hstate')
  · rw [hsame hready]
    have hnone : (s.setOutputDimensions width height).createSurfaceWithFormat width height .xRgb =
        (none, s.setOutputDimensions width height) := by
      rw [createSurfaceWithFormat, if_pos ⟨hready, hresizing⟩]
    rw [hnone]
    exact ⟨.of_eq rfl rfl rfl rfl rfl rfl, rfl, by simp [hready], fun _ => rfl⟩

end

section

variable (h : Inv l)
include h

theorem inv_ensureSurface (hleaving : l.leaving = false) (hadSurface : Bool)
    (order : List ℕ) (width height : ℕ) :
    Inv (step size l (.ensureSurface hadSurface order width height)) := by
  have hresizing : l.channel.server.state ≠ .resizing := fun hstate =>
    (h.log.idle (by simp [hstate])).1 hstate
  obtain ⟨hqueues, hstate, hdrains, hsame⟩ :=
    ensureSurface_spec l.channel.server hadSurface order width height hresizing
  rw [step, if_neg (by simp [hleaving])]
  rcases hensure : ensureSurface l.channel.server hadSurface order width height with ⟨_ | _, s⟩
  · rw [hensure] at hdrains hsame
    have hready := hdrains.1 rfl
    have heq : s = l.channel.server.setOutputDimensions width height := hsame hready
    simp only [heq, Bool.false_eq_true, if_false]
    exact inv_withServer h rfl rfl rfl (h.log.congr rfl rfl le_rfl rfl (.inl rfl))
  · rw [hensure] at hqueues hstate hdrains
    refine inv_drainAndSend h hqueues hstate (fun hready => ?_) hleaving
    exact absurd (hdrains.2 hready) (by simp)

theorem inv_sendFrame (hleaving : l.leaving = false) (now timestampMs id : ℕ)
    (frame : Frame) : Inv (step size l (.sendFrame now timestampMs id frame)) := by
  rw [step, if_neg (by simp [hleaving])]
  refine inv_drainAndSend h (queues_frame _ _ _ _ _)
    (serve_state (fun _ => 0) l.channel.server (.frame now timestampMs id frame)).1
      (fun hready => ?_)
    hleaving
  obtain heq | ⟨_, _, _, _, -, hready', -⟩ := painted_frame l.channel.server now timestampMs id
      frame
  · rw [heq]
  · exact absurd hready' hready

theorem inv_receive (hlistens : l.listens = true) (now : ℕ) (pdu : ClientPdu) :
    Inv (step size l (.receive now pdu)) := by
  have hanswering : l.answering ≠ .free := by
    unfold Loop.answering
    split <;> simp
  have ha : Answers l.channel.server (l.channel.server.process size now pdu).2
      (l.channel.server.process size now pdu).1 := answers_process h.log h.queue now pdu
  have hanswers : Answers l.channel.server (l.channel.processData size now pdu).2.server
      (l.channel.processData size now pdu).1 := by
    unfold Channel.processData
    split_ifs with hopen
    · simp only
      split_ifs with hclose
      · exact { ha with generation := ha.generation.trans ha.log.fresh.le, log := ha.log.close }
      · exact ha
    · exact .silent rfl h.queue le_rfl h.log
  rw [step, if_pos hlistens]
  exact inv_answers h hlistens hanswers fun hfree => absurd hfree hanswering

theorem inv_close (hlistens : l.listens = true) : Inv (step size l .close) := by
  have hrest := h.rest_of_listens hlistens
  rw [step, if_pos hlistens]
  have hsilent : Answers l.channel.server l.channel.close.server [] := by
    unfold Channel.close
    split_ifs with hopen
    · exact .silent rfl h.queue h.log.fresh.le h.log.close
    · exact .silent rfl h.queue le_rfl h.log
  have hinv : Inv { l with channel := l.channel.close, holder := l.holder, rest := [] } :=
    inv_answers h hlistens hsilent fun _ => rfl
  rwa [← hrest] at hinv

theorem inv_next : Inv (step size l .next) := by
  rw [step]
  split_ifs with hbusy
  · exact h
  have hrest : l.rest = [] := by simpa using hbusy
  have hflow := h.flow
  rw [hrest, filter_nil, append_nil] at hflow
  split
  · next batch taken hholder htaken =>
    have hbatches : ∀ b ∈ taken ++ l.events, b ∈ l.taken ++ l.events := fun b hb => by
      rw [htaken]
      exact mem_cons_of_mem _ hb
    have hbatch := h.batches batch (by simp [htaken])
    split_ifs with hgen
    · have hall : ∀ e ∈ batch.entries, outputOf l.channel.server.generation e = true :=
        hgen ▸ hbatch.2
      refine ⟨h.queue, h.log, fun b hb => h.batches b (hbatches b hb), ?_, h.past, fun e he => ?_,
        .inl hall, h.confirmed, fun hfree => ?_, h.leaving⟩
      · rw [← hflow, filter_eq_self.2 hall, htaken, append_assoc]
        simp [pending, hgen]
      · rcases mem_append.1 he with he | he
        · exact h.known e (mem_append_left _ he)
        · have hmem : e ∈ l.channel.server.queued.filter
            (outputOf l.channel.server.generation) := by
            rw [← hflow, htaken]
            simp [pending, hgen, he]
          exact mem_of_mem_filter hmem
      · rw [hholder] at hfree
        contradiction
    · refine { h with batches := fun b hb => h.batches b (hbatches b hb), flow := ?_ }
      rw [← h.flow, htaken]
      simp [pending, hgen]
  · exact { h with free := fun _ => hrest }

theorem inv_write : Inv (step size l .write) := by
  rw [step]
  split
  · exact h
  next e rest hrest =>
  have hmem : e ∈ l.channel.server.queued := h.known e (by simp [hrest])
  have hlater : ∀ c ∈ l.written, isConfirm c.pdu = true → c.serial < e.serial :=
      fun c hc hconfirm => by
    have hc' := h.known c (mem_append_left _ hc)
    rcases h.held with hheld | ⟨-, hheld⟩
    · have hout := hheld e (by simp [hrest])
      simp only [outputOf, Bool.and_eq_true, beq_iff_eq] at hout
      exact h.log.confirm_lt hc' hmem hconfirm hout.2 (hout.1.symm ▸ h.log.bound c hc')
    · exact (hheld e (by simp [hrest])).2 c hc
  refine ⟨h.queue, h.log, h.batches, ?_, fun generation hgen => ?_, fun e' he' => h.known e' ?_, ?_,
    pairwise_append.2 ⟨h.confirmed, by simp, fun c hc e' he' => ?_⟩, fun hfree => ?_, h.leaving⟩
  · rw [← h.flow, hrest, filter_append, append_assoc, append_assoc, append_assoc,
      ← append_assoc ([e].filter _), ← filter_append]
    rfl
  · have hnone : [e].filter (outputOf generation) = [] := by
      refine filter_outputOf_eq_nil fun e' he' hgen' => ?_
      rw [mem_singleton.1 he'] at hgen' ⊢
      rcases h.held with hheld | ⟨-, hheld⟩
      · have hout := hheld e (by simp [hrest])
        simp only [outputOf, Bool.and_eq_true, beq_iff_eq] at hout
        exact absurd (hgen'.symm.trans hout.1) hgen
      · exact (hheld e (by simp [hrest])).1
    rw [filter_append, hnone, append_nil]
    exact h.past generation hgen
  · simpa [hrest, or_assoc] using he'
  · rcases h.held with hheld | ⟨hsorted, hheld⟩
    · exact .inl fun e' he' => hheld e' (by simp [hrest, he'])
    · rw [hrest] at hsorted
      refine .inr ⟨(pairwise_cons.1 hsorted).2, fun e' he' => ?_⟩
      obtain ⟨hout, hnew⟩ := hheld e' (by simp [hrest, he'])
      exact ⟨hout, forall_mem_append.2 ⟨hnew, forall_mem_singleton.2
        ((pairwise_cons.1 hsorted).1 e' he')⟩⟩
  · rw [mem_singleton.1 he']
    exact hlater c hc
  · have hempty := h.free hfree
    rw [hrest] at hempty
    contradiction

theorem inv_recvMany (count : ℕ) : Inv (step size l (.recvMany count)) := by
  rw [step]
  split_ifs with hholder
  · exact h
  · have hsame : l.taken ++ l.events.take count ++ l.events.drop count = l.taken ++ l.events := by
      rw [append_assoc, take_append_drop]
    refine { h with batches := ?_, flow := ?_ }
    · simp only [hsame]
      exact h.batches
    · simp only [hsame]
      exact h.flow

theorem inv_reactivate : Inv (step size l .reactivate) := by
  rw [step]
  split_ifs with hleaving
  swap
  · exact h
  have hnone := h.leaving hleaving
  have hflow := h.flow
  rw [hnone, append_eq_nil_iff, append_eq_nil_iff, pending_append, append_eq_nil_iff] at hflow
  obtain ⟨⟨hwritten, -⟩, -, hevents⟩ := hflow
  refine ⟨h.queue, h.log, fun b hb => h.batches b (mem_append_right _ hb), ?_, h.past,
    fun e he => h.known e ?_, .inl (by simp), h.confirmed, fun _ => rfl, by simp⟩
  · simp only [nil_append, filter_nil, append_nil]
    rw [hwritten, hevents, hnone]
    rfl
  · simp only [append_nil] at he
    exact mem_append_left _ he

theorem inv_step (st : Step) : Inv (step size l st) := by
  cases st with
  | ensureSurface hadSurface order width height =>
    cases hleaving : l.leaving with
    | false => exact inv_ensureSurface h hleaving hadSurface order width height
    | true => rwa [step, if_pos hleaving]
  | sendFrame now timestampMs id frame =>
    cases hleaving : l.leaving with
    | false => exact inv_sendFrame h hleaving now timestampMs id frame
    | true => rwa [step, if_pos hleaving]
  | setMaxFramesInFlight max =>
    exact inv_withServer h rfl rfl rfl (h.log.congr rfl rfl le_rfl rfl (.inl rfl))
  | legacyResize =>
    rw [step]
    split_ifs with hready
    · exact h
    · have hidle : l.channel.server.state ≠ .ready := by simpa [isReady] using hready
      exact { h with leaving := fun _ => (h.log.idle hidle).2 }
  | reactivate => exact inv_reactivate h
  | receive now pdu =>
    cases hlistens : l.listens with
    | true => exact inv_receive h hlistens now pdu
    | false => rwa [step, if_neg (by simp [hlistens])]
  | close =>
    cases hlistens : l.listens with
    | true => exact inv_close h hlistens
    | false => rwa [step, if_neg (by simp [hlistens])]
  | recvMany count => exact inv_recvMany h count
  | lock =>
    rw [step]
    split_ifs with hfree
    · exact { h with free := by simp }
    · exact h
  | next => exact inv_next h
  | write => exact inv_write h
  | elsewhere =>
    exact inv_withServer h rfl rfl rfl (h.log.congr rfl rfl (Nat.le_succ _) rfl (.inl rfl))

end

end steps

theorem inv_start (counter channelId : ℕ) : Inv (start counter channelId) := by
  refine ⟨rfl, ⟨?_, .nil, ?_, Nat.lt_succ_self _, .nil, fun _ => ⟨?_, rfl⟩, rfl⟩, ?_, rfl, ?_, ?_,
    .inl ?_, .nil, fun _ => rfl, fun _ => rfl⟩ <;>
    simp [start, new]

theorem inv_before (size : GfxPdu → ℕ) (counter channelId : ℕ) (steps : List Step) (n : ℕ) :
    Inv (before size counter channelId steps n) :=
  run_inv (I := Inv) (fun _ st h => inv_step h st) (inv_start counter channelId) (steps.take n)

/-- **The output of a generation is written in order**, and a confirm comes after all that is old.
-/
theorem output_order (size : GfxPdu → ℕ) (counter channelId : ℕ) (steps : List Step) :
    OutputOrder size counter channelId steps where
  inOrder n generation := by
    have h := inv_before size counter channelId steps n
    by_cases hgen : generation = (before size counter channelId steps n).channel.server.generation
    · rw [hgen, ← h.flow, append_assoc]
      exact prefix_append _ _
    · exact h.past generation hgen
  numbered n := (inv_before size counter channelId steps n).log.numbered
  confirmed n i j c e hc hconfirm hij he := by
    have h := (inv_before size counter channelId steps n).confirmed
    obtain ⟨hi, rfl⟩ := List.getElem?_eq_some_iff.1 hc
    obtain ⟨hj, rfl⟩ := List.getElem?_eq_some_iff.1 he
    exact pairwise_iff_getElem.1 h i j hi hj hij hconfirm

end Linrdp.Egfx.Order
