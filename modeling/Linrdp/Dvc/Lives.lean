import Mathlib.Data.List.Count
import Linrdp.Dvc.Lifecycle

/-!
# Every channel lives once

The promises of `Linrdp.Dvc.Lifecycle` hold after any operations of the server and any messages of
the client (`lives`). `Handles` is what an operation does to the server and to the view of every
channel, the creation of a channel and the answers to Create Requests apart; it is put together
along the code. `Inv` collects the phases of all channels, and one lemma for each operation keeps
it.
-/

namespace Linrdp.Dvc.Lifecycle

open Function Option List Dvc.Pdu Dvc.Server Dvc.SoftSync Lib.Runs Relation DrdynvcServer Nat View
open ClientPdu ServerPdu

variable {P : Type}

/-! ### The view under the changes of the tables -/

theorem callsOf_append (id : ℕ) (calls more : List Call) :
    callsOf id (calls ++ more) = callsOf id calls ++ callsOf id more := filter_append ..

theorem callsOf_self (id : ℕ) (call : Call) (h : id = channelOf call) :
    callsOf id [call] = [call] := by
  simp [callsOf, h]

variable {id : ℕ} {call : Call}

theorem callsOf_other (h : id ≠ channelOf call) : callsOf id [call] = [] := by
  simp [callsOf, h.symm]

theorem closesOf_append (id : ℕ) (sent more : List ServerPdu) :
    closesOf id (sent ++ more) = closesOf id sent + closesOf id more := countP_append

@[simp] theorem closesOf_nil (id : ℕ) : closesOf id [] = 0 := rfl

theorem closesOf_newClose (id channelId : ℕ) :
    closesOf id [.newClose channelId] = if channelId = id then 1 else 0 := by
  simp [closesOf, newClose, isClose]

theorem closesOf_data (id : ℕ) (data : List DataPdu) : closesOf id (data.map .data) = 0 := by
  simp [closesOf, isClose]

variable {f : DynamicChannel P → DynamicChannel P}

section tables

variable {d : DrdynvcServer P} {id channelId : ℕ} {n : ℕ}

theorem get_modify (d : DrdynvcServer P) (channelId : ℕ) (f : DynamicChannel P → DynamicChannel P)
    (id : ℕ) : (d.modify channelId f).get id = (d.get id).map fun c =>
      if c.channelId = channelId then { f c with channelId := c.channelId } else c := by
  unfold DrdynvcServer.get DrdynvcServer.modify
  rw [find?_map]
  congr 2
  funext c
  simp only [comp]
  split_ifs <;> rfl

theorem get_remove (d : DrdynvcServer P) (channelId id : ℕ) :
    (d.removeByChannelId channelId).get id = if id = channelId then none else d.get id := by
  unfold DrdynvcServer.get removeByChannelId
  rw [find?_filter]
  split_ifs with h
  · rw [find?_eq_none]
    simp [h]
  · congr 1
    funext c
    by_cases hc : c.channelId = id
    · simp [hc, h]
    · simp [hc]

theorem view_modify_state (n id : ℕ)
    (hf : ∀ c, (f c).state = c.state) : view (d.modify channelId f) n id = view d n id := by
  have hstate : ((d.modify channelId f).get id).map DynamicChannel.state =
      (d.get id).map DynamicChannel.state := by
    rw [get_modify, Option.map_map]
    congr 1
    funext c
    simp only [comp]
    split_ifs
    · exact hf c
    · rfl
  exact congrArg (View.mk · _ _) hstate

theorem view_record_other (n : ℕ) (h : id ≠ channelOf call) :
    view (d.record call) n id = view d n id := by
  have hcalls : callsOf id (d.record call).calls = callsOf id d.calls := by
    rw [record, callsOf_append, callsOf_other h, append_nil]
  exact congrArg (View.mk _ · _) hcalls

theorem isChannelOpened_iff_state :
    d.isChannelOpened id = true ↔ (d.get id).map DynamicChannel.state = some .opened := by
  rw [isChannelOpened]
  cases d.get id with
  | none | some c => simp

theorem view_remove_other (n : ℕ) (h : id ≠ channelId) :
    view (d.removeByChannelId channelId) n id = view d n id := by
  have hget : (d.removeByChannelId channelId).get id = d.get id := by rw [get_remove, if_neg h]
  have hcalls : callsOf id (d.removeByChannelId channelId).calls = callsOf id d.calls := by
    rw [removeByChannelId]
    split_ifs
    · rw [callsOf_append, callsOf_other h, append_nil]
    · rfl
  rw [view, hget, hcalls, view]

theorem view_remove (k : ℕ) (hk : k ≤ 1) (hopened : 0 < k → d.isChannelOpened id = true) :
    ReflTransGen (Moving id) (view d n id) (view (d.removeByChannelId id) (n + k) id) := by
  have hget : (d.removeByChannelId id).get id = none := by rw [get_remove, if_pos rfl]
  unfold view
  rw [hget, map_none]
  by_cases h : d.isChannelOpened id = true
  · have hcalls : callsOf id (d.removeByChannelId id).calls = callsOf id d.calls ++
      [.close id] := by
      rw [removeByChannelId]
      rw [if_pos h, callsOf_append, callsOf_self id (.close id) rfl]
    rw [isChannelOpened_iff_state.1 h, hcalls]
    exact .single (.closed hk)
  · have hcalls : callsOf id (d.removeByChannelId id).calls = callsOf id d.calls := by
      rw [removeByChannelId]
      rw [if_neg h]
    obtain rfl : k = 0 := by
      by_contra hne
      exact h (hopened (pos_of_ne_zero hne))
    rw [hcalls]
    rcases hfound : d.get id with _ | c
    · exact .refl
    · refine .single (.forgotten fun hstate => h ?_)
      rw [isChannelOpened_iff_state, hfound, map_some, hstate]

end tables

/-! ### What an operation does -/

structure Frame (d d' : DrdynvcServer P) : Prop where
  caps : d'.capsReceived = d.capsReceived
  next : d'.nextChannelId = d.nextChannelId
  ids : (d'.dynamicChannels.map DynamicChannel.channelId).Sublist
    (d.dynamicChannels.map DynamicChannel.channelId)
  outgoing : d'.outgoingTunnelChannels ⊆ d.outgoingTunnelChannels
  incoming : d'.incomingTunnelChannels ⊆ d.incomingTunnelChannels ++ d.outgoingTunnelChannels

theorem Frame.refl (d : DrdynvcServer P) : Frame d d :=
  ⟨rfl, rfl, .refl _, fun _ h => h, subset_append_left ..⟩

variable {d d' : DrdynvcServer P}

theorem Frame.trans {d'' : DrdynvcServer P} (h : Frame d d') (h' : Frame d' d'') : Frame d d'' := by
  refine ⟨h'.caps.trans h.caps, h'.next.trans h.next, h'.ids.trans h.ids,
    fun e he => h.outgoing (h'.outgoing he), fun e he => ?_⟩
  rcases mem_append.1 (h'.incoming he) with hin | hout
  · exact h.incoming hin
  · exact mem_append_right _ (h.outgoing hout)

theorem frame_modify (d : DrdynvcServer P) (channelId : ℕ)
    (f : DynamicChannel P → DynamicChannel P) : Frame d (d.modify channelId f) := by
  have hids : (d.modify channelId f).dynamicChannels.map DynamicChannel.channelId =
      d.dynamicChannels.map DynamicChannel.channelId := by
    rw [DrdynvcServer.modify, List.map_map]
    refine map_congr_left fun c _ => ?_
    simp only [comp]
    split_ifs <;> rfl
  exact ⟨rfl, rfl, by rw [hids], fun _ h => h, subset_append_left ..⟩

theorem frame_remove (d : DrdynvcServer P) (channelId : ℕ) :
    Frame d (d.removeByChannelId channelId) :=
  ⟨rfl, rfl, filter_sublist.map _, fun _ h => mem_of_mem_filter h,
    fun _ h => mem_append_left _ (mem_of_mem_filter h)⟩

theorem frame_record (d : DrdynvcServer P) (call : Call) : Frame d (d.record call) :=
  ⟨rfl, rfl, .refl _, fun _ h => h, subset_append_left ..⟩

structure Handles (resp : List ServerPdu) (d d' : DrdynvcServer P) : Prop where
  frame : Frame d d'
  creates : ∀ id name, .create id name ∉ resp
  moves : ∀ id n k, k ≤ closesOf id resp →
    ReflTransGen (Moving id) (view d n id) (view d' (n + k) id)

theorem Handles.refl (d : DrdynvcServer P) : Handles [] d d := by
  refine ⟨.refl d, by simp, fun id n k hk => ?_⟩
  obtain rfl : k = 0 := by simpa using hk
  exact .refl

variable {resp : List ServerPdu}

theorem Handles.trans {more : List ServerPdu} {d'' : DrdynvcServer P}
    (h : Handles resp d d') (h' : Handles more d' d'') : Handles (resp ++ more) d d'' := by
  refine ⟨h.frame.trans h'.frame, fun id name hmem => ?_, fun id n k hk => ?_⟩
  · rcases mem_append.1 hmem with hmem | hmem
    · exact h.creates id name hmem
    · exact h'.creates id name hmem
  · rw [closesOf_append] at hk
    -- as many of them as there are belong to the first part
    obtain ⟨k₁, k₂, rfl, h₁, h₂⟩ : ∃ k₁ k₂, k = k₁ + k₂ ∧ k₁ ≤ closesOf id resp ∧
        k₂ ≤ closesOf id more :=
      ⟨min k (closesOf id resp), k - closesOf id resp, by omega, by omega, by omega⟩
    rw [← add_assoc]
    exact (h.moves id n k₁ h₁).trans (h'.moves id (n + k₁) k₂ h₂)

theorem Handles.silent (h : Handles resp d d') : Handles [] d d' :=
  ⟨h.frame, by simp, fun id n k hk => h.moves id n k (by rw [closesOf_nil] at hk; omega)⟩

theorem handles_of_view (hframe : Frame d d')
    (hcreates : ∀ id name, .create id name ∉ resp) (hcloses : ∀ id, closesOf id resp = 0)
    (hview : ∀ n id, view d' n id = view d n id) : Handles resp d d' := by
  refine ⟨hframe, hcreates, fun id n k hk => ?_⟩
  obtain rfl : k = 0 := by
    rw [hcloses] at hk
    omega
  rw [add_zero, hview]

variable {c : DynamicChannel P} {channelId : ℕ}

section operations

variable {d d' : DrdynvcServer P} {resp : List ServerPdu} {channelId : ℕ}

theorem handles_modify (d : DrdynvcServer P) (channelId : ℕ)
    (hf : ∀ c, (f c).state = c.state) : Handles [] d (d.modify channelId f) :=
  handles_of_view (frame_modify d channelId f) (by simp) (fun _ => rfl)
    fun n id => view_modify_state n id hf

theorem handles_remove (d : DrdynvcServer P) (channelId : ℕ) :
    Handles [] d (d.removeByChannelId channelId) := by
  refine ⟨frame_remove d channelId, by simp, fun id n k hk => ?_⟩
  obtain rfl : k = 0 := by simpa using hk
  by_cases h : id = channelId
  · subst h
    exact view_remove 0 (by omega) (by omega)
  · rw [add_zero, view_remove_other n h]

theorem handles_close (hopened : d.isChannelOpened channelId = true) :
    Handles [.newClose channelId] d (d.removeByChannelId channelId) := by
  refine ⟨frame_remove d channelId, by simp [newClose], fun id n k hk => ?_⟩
  rw [closesOf_newClose] at hk
  by_cases h : id = channelId
  · subst h
    rw [if_pos rfl] at hk
    exact view_remove k hk fun _ => hopened
  · obtain rfl : k = 0 := by
      rw [if_neg (Ne.symm h)] at hk
      omega
    rw [add_zero, view_remove_other n h]

theorem handles_record_process (hopened : d.isChannelOpened channelId = true) (payload : Bytes) :
    Handles [] d (d.record (.process channelId payload)) := by
  refine ⟨frame_record d _, by simp, fun id n k hk => ?_⟩
  obtain rfl : k = 0 := by simpa using hk
  by_cases h : id = channelId
  · subst h
    unfold view
    rw [show (d.record (.process id payload)).get id = d.get id from rfl,
      isChannelOpened_iff_state.1 hopened, record, callsOf_append,
      callsOf_self id (.process id payload) rfl]
    exact .single (.data payload)
  · rw [add_zero, view_record_other n h]

theorem isChannelOpened_modify (hf : ∀ c, (f c).state = c.state) (id : ℕ) :
    (d.modify channelId f).isChannelOpened id = d.isChannelOpened id := by
  have hstate : (view (d.modify channelId f) 0 id).state = (view d 0 id).state := by
    rw [view_modify_state 0 id hf]
  rw [Bool.eq_iff_iff, isChannelOpened_iff_state, isChannelOpened_iff_state]
  exact Eq.congr_left hstate

theorem isChannelOpened_modify_self (hget : d.get channelId = some c) (hstate : c.state = .opened)
    (hf : ∀ c, (f c).state = c.state) : (d.modify channelId f).isChannelOpened channelId =
    true := by
  rw [isChannelOpened_modify hf, isChannelOpened_iff_state, hget, map_some, hstate]

theorem handles_process (hget : d.get channelId = some c) (hstate : c.state = .opened)
    (payload : Bytes) (hf : ∀ c, (f c).state = c.state) :
    Handles [] d ((d.modify channelId f).record (.process channelId payload)) :=
  (handles_modify d channelId hf).trans
    (handles_record_process (isChannelOpened_modify_self hget hstate hf) payload)

theorem handles_field (hchannels : d'.dynamicChannels = d.dynamicChannels)
    (hcalls : d'.calls = d.calls) (hframe : Frame d d') : Handles [] d d' := by
  refine handles_of_view hframe (by simp) (fun _ => rfl) fun n id => ?_
  unfold view DrdynvcServer.get
  rw [hchannels, hcalls]

theorem data_of_encodeDvcMessages {messages : List Bytes} {pdus : List ServerPdu}
    (h : DrdynvcServer.ofEncode (encodeDvcMessages channelId messages) = .ok pdus) :
    ∃ data : List DataPdu, pdus = data.map .data := by
  rcases hencode : messages.mapM (encodeDvcMessage channelId) with _ | data
  · rw [encodeDvcMessages, hencode] at h
    cases h
  · rw [encodeDvcMessages, hencode] at h
    cases h
    exact ⟨_, rfl⟩

theorem handles_data (data : List DataPdu) (h : Handles [] d d') :
    Handles (data.map .data) d d' := by
  exact ⟨h.frame, by simp, fun id n k hk => h.moves id n k (by simpa [closesOf_data] using hk)⟩

theorem handles_closeChannel (d : DrdynvcServer P) (channelId : ℕ) :
    Handles (d.closeChannel channelId).1.toList d (d.closeChannel channelId).2 := by
  unfold closeChannel
  split
  · exact .refl d
  · rename_i c hget
    split
    · exact handles_modify d channelId fun c => rfl
    · exact handles_remove d channelId
    · exact handles_remove d channelId
    · rename_i hstate
      refine handles_close ?_
      rw [isChannelOpened_iff_state, hget, map_some, hstate]

theorem handles_read (d : DrdynvcServer P) (frame : Bytes) :
    Handles [] d { d with readFrames := d.readFrames ++ [frame] } :=
  handles_field rfl rfl ⟨rfl, rfl, .refl _, fun _ h => h, subset_append_left ..⟩

theorem handles_switch (d : DrdynvcServer P) (tunnels requested : List SoftSyncTunnelType) :
    Handles [] d { d with
      incomingTunnelChannels := d.outgoingTunnelChannels.filter fun e => e.2 ∈ tunnels
      softSyncState := .active requested true
      earlyTunnelFrames := [] } :=
  handles_field rfl rfl ⟨rfl, rfl, .refl _, fun _ h => h,
    fun _ h => mem_append_right _ (mem_of_mem_filter h)⟩

theorem view_call_self (hget : d.get channelId = some c)
    (hcall : channelId = channelOf call) (f : DynamicChannel P → DynamicChannel P) (n : ℕ) :
    view ((d.modify channelId f).record call) n channelId =
      ⟨some (f c).state, callsOf channelId d.calls ++ [call], n⟩ := by
  have hget' : ((d.modify channelId f).record call).get channelId =
      some { f c with channelId := c.channelId } := by
    rw [show ((d.modify channelId f).record call).get channelId = (d.modify channelId f).get
      channelId
      from rfl, get_modify, hget, map_some, if_pos (get_some hget).2]
  rw [view, hget', record, callsOf_append, callsOf_self channelId call hcall]
  rfl

theorem view_call_other (hid : id ≠ channelId) (hcall : channelId = channelOf call)
    (f : DynamicChannel P → DynamicChannel P) (n : ℕ) :
    view ((d.modify channelId f).record call) n id = view d n id := by
  have hget : (d.modify channelId f).get id = d.get id := by
    rw [get_modify]
    rcases hfound : d.get id with _ | c
    · rfl
    · rw [map_some, if_neg (by rw [(get_some hfound).2]; exact hid)]
  rw [view_record_other n (hcall ▸ hid), view, hget]
  rfl

end operations

structure Decides (channelId status : ℕ) (resp : List ServerPdu) (d d' : DrdynvcServer P) :
    Prop where
  frame : Frame d d'
  creates : ∀ id name, .create id name ∉ resp
  others : ∀ id, id ≠ channelId → ∀ n, view d' (n + closesOf id resp) id = view d n id
  decided : ∀ n, Decided channelId status (view d n channelId)
    (view d' (n + closesOf channelId resp) channelId)

variable {status : ℕ}

section processors

variable [DvcProcessor P] {d d' : DrdynvcServer P} {resp : List ServerPdu}

theorem handles_processData {pdu : DataPdu} (h : d.processData pdu = .ok (resp, d')) :
    Handles resp d d' := by
  rw [processData] at h
  split at h
  · cases h
  rename_i c hget
  split_ifs at h with hstate
  rw [not_not] at hstate
  split at h
  · cases h
    exact handles_modify d _ fun c => rfl
  rename_i complete completeData hcomplete
  obtain ⟨⟨messages, processor⟩, -, h⟩ := bind_ok h
  obtain ⟨pdus, hpdus, h⟩ := bind_ok h
  obtain ⟨data, rfl⟩ := data_of_encodeDvcMessages hpdus
  have hprocess := handles_process hget hstate complete (f := fun c =>
    { c with completeData := completeData, processor := processor }) fun c => rfl
  split_ifs at h
  · cases h
    refine (handles_data data hprocess).trans (handles_close ?_)
    exact isChannelOpened_modify_self hget hstate fun c => rfl
  · cases h
    exact handles_data data hprocess

variable (spoil : P → P)

theorem handles_dataError (d : DrdynvcServer P) (pdu : DataPdu) :
    Handles [] d (dataError spoil d pdu) := by
  unfold dataError
  dsimp only
  split
  · exact .refl d
  rename_i c hget
  split_ifs with hstate
  · exact .refl d
  rw [not_not] at hstate
  split
  · exact .refl d
  · exact handles_process hget hstate _ fun c => rfl

theorem handles_readTunnelFrame {frame : Bytes} (h : d.readTunnelFrame frame = .ok (resp, d')) :
    Handles resp d d' := by
  rw [readTunnelFrame] at h
  have hread := handles_read d frame
  split at h
  · split_ifs at h
    · exact hread.trans (handles_processData h)
    · cases h
      exact hread
  · cases h
    exact hread.trans (handles_remove _ _)
  · cases h
    exact hread

theorem handles_frameError (d : DrdynvcServer P) (frame : Bytes) :
    Handles [] d (frameError spoil d frame) := by
  unfold frameError
  have hread := handles_read d frame
  split
  · exact hread.trans (handles_dataError spoil _ _)
  · exact hread

theorem handles_readTunnelFrames {frames : List Bytes}
    (h : d.readTunnelFrames frames = .ok (resp, d')) : Handles resp d d' := by
  induction frames generalizing d resp with
  | nil =>
    cases h
    exact .refl _
  | cons frame frames ih =>
    obtain ⟨⟨first, d₁⟩, hfirst, h⟩ := bind_ok h
    obtain ⟨⟨rest, d₂⟩, hrest, h⟩ := bind_ok h
    cases h
    exact (handles_readTunnelFrame hfirst).trans (ih hrest)

theorem handles_framesError (frames : List Bytes) (d : DrdynvcServer P) :
    Handles [] d (framesError spoil d frames) := by
  induction frames generalizing d with
  | nil => exact .refl d
  | cons frame frames ih =>
    rw [framesError]
    split
    · rename_i first d₁ hfirst
      exact (handles_readTunnelFrame hfirst).silent.trans (ih d₁)
    · exact handles_frameError spoil d frame

theorem handles_processSoftSyncResponse {tunnels : List SoftSyncTunnelType}
    (h : d.processSoftSyncResponse tunnels = .ok (resp, d')) : Handles resp d d' := by
  rw [processSoftSyncResponse] at h
  split at h
  · cases h
    exact .refl d
  · cases h
    exact .refl d
  · split_ifs at h
    exact (handles_switch d tunnels _).trans (handles_readTunnelFrames h)

theorem handles_responseError (d : DrdynvcServer P) (tunnels : List SoftSyncTunnelType) :
    Handles [] d (responseError spoil d tunnels) := by
  unfold responseError
  split
  · split_ifs
    · exact .refl d
    · exact (handles_switch d tunnels _).trans (handles_framesError spoil _ _)
  · exact .refl d

theorem handles_processTunnel {frame : Bytes} (h : d.processTunnel frame = .ok (resp, d')) :
    Handles resp d d' := by
  rw [processTunnel] at h
  split_ifs at h
  · exact handles_readTunnelFrame h
  · cases h
    exact handles_field rfl rfl ⟨rfl, rfl, .refl _, fun _ h => h, subset_append_left ..⟩

theorem handles_tunnelError (d : DrdynvcServer P) (frame : Bytes) :
    Handles [] d (tunnelError spoil d frame) := by
  unfold tunnelError
  split_ifs
  · exact handles_frameError spoil d frame
  · exact .refl d

omit [DvcProcessor P] in
theorem decides_call (hget : d.get channelId = some c)
    (hstate : c.state = .creation) (data : List DataPdu)
    (hcall : channelId = channelOf call)
    (hdecided : ∀ calls n, Decided channelId status ⟨some .creation, calls, n⟩
      ⟨some (f c).state, calls ++ [call], n⟩) :
    Decides channelId status (data.map .data) d ((d.modify channelId f).record call) := by
  refine ⟨(frame_modify d channelId f).trans (frame_record _ call), by simp, fun id hid n => ?_,
    fun n => ?_⟩
  · rw [closesOf_data, add_zero, view_call_other hid hcall]
  · rw [closesOf_data, add_zero, view_call_self hget hcall, view, hget, map_some, hstate]
    exact hdecided _ n

section

variable (hget : d.get channelId = some c) (hstate : c.state = .creation)
include hget hstate

theorem decides_processCreate (h : d.processCreate channelId status = .ok (resp, d')) :
    Decides channelId status resp d d' := by
  rw [processCreate, hget] at h
  dsimp only at h
  rw [if_neg (not_not.2 hstate)] at h
  split_ifs at h with hstatus hclose
  · cases h
    exact decides_call hget hstate [] rfl fun calls n => .refused hstatus
  · cases h
    obtain rfl : status = 0 := not_not.1 hstatus
    refine ⟨frame_remove d channelId, by simp [newClose], fun id hid n => ?_, fun n => ?_⟩
    · rw [closesOf_newClose, if_neg (Ne.symm hid), add_zero, view_remove_other n hid]
    · have hopened : ¬d.isChannelOpened channelId = true := by
        rw [isChannelOpened_iff_state, hget, map_some, hstate]
        simp
      have hview : view (d.removeByChannelId channelId) (n + 1) channelId =
          ⟨none, callsOf channelId d.calls, n + 1⟩ := by
        rw [view, get_remove, if_pos rfl, removeByChannelId]
        rw [if_neg hopened]
        rfl
      rw [closesOf_newClose, if_pos rfl, hview, view, hget, map_some, hstate]
      exact .cancelled
  · obtain rfl : status = 0 := not_not.1 hstatus
    obtain ⟨⟨messages, processor⟩, -, h⟩ := bind_ok h
    obtain ⟨pdus, hpdus, h⟩ := bind_ok h
    obtain ⟨data, rfl⟩ := data_of_encodeDvcMessages hpdus
    cases h
    exact decides_call hget hstate data rfl fun calls n => .opened

theorem decides_createError {e : String} (h : d.processCreate channelId status = .error e) :
    Decides channelId status [] d (createError spoil d channelId) := by
  rw [processCreate, hget] at h
  dsimp only at h
  rw [if_neg (not_not.2 hstate)] at h
  split_ifs at h with hstatus hclose
  obtain rfl : status = 0 := not_not.1 hstatus
  rw [createError, hget]
  dsimp only
  rw [if_neg (not_not.2 hstate)]
  exact decides_call hget hstate [] rfl fun calls n => .opened

end

end processors

/-! ### The invariant -/

structure Tables (d : DrdynvcServer P) (given : List ℕ) : Prop where
  distinct : (d.dynamicChannels.map DynamicChannel.channelId).Nodup
  below : ∀ id ∈ d.dynamicChannels.map DynamicChannel.channelId, id < d.nextChannelId
  given_once : given.Nodup
  given_below : ∀ id ∈ given, id < d.nextChannelId

theorem Tables.frame {given : List ℕ} (h : Tables d given) (hframe : Frame d d') :
    Tables d' given := by
  refine ⟨h.distinct.sublist hframe.ids, fun id hid => ?_, h.given_once, ?_⟩
  · rw [hframe.next]
    exact h.below id (hframe.ids.subset hid)
  · rw [hframe.next]
    exact h.given_below

section insert

variable (d : DrdynvcServer P) (processor : P) (state : ChannelState) {id channelId n : ℕ}

theorem get_insertWithId (channelId id : ℕ) : (d.insertWithId processor state channelId).get id =
    (d.get id).or (if channelId = id then some
    ⟨state, processor, .new, channelId, false⟩ else none) := by
  unfold DrdynvcServer.get insertWithId
  rw [find?_append, find?_singleton]
  simp only [beq_iff_eq]

theorem view_insertWithId_other (h : id ≠ channelId) :
    view (d.insertWithId processor state channelId) n id = view d n id := by
  rw [view, get_insertWithId, if_neg (Ne.symm h), or_none]
  rfl

theorem view_insertWithId_self (h : view d n id = ⟨none, [], 0⟩) :
    view (d.insertWithId processor state id) n id = ⟨some state, [], 0⟩ := by
  obtain ⟨hget, hcalls, rfl⟩ := mk.inj h
  rw [map_eq_none_iff] at hget
  rw [view, get_insertWithId, hget, if_pos rfl, none_or, map_some]
  exact congrArg (View.mk _ · _) hcalls

variable {d} {given : List ℕ}

theorem Tables.insert (h : Tables d given) :
    Tables ({ d with nextChannelId := d.nextChannelId + 1 }.insertWithId processor state
    d.nextChannelId)
      (given ++ [d.nextChannelId]) := by
  have hids : d.nextChannelId ∉ d.dynamicChannels.map DynamicChannel.channelId :=
    fun hmem => absurd (h.below _ hmem) (lt_irrefl _)
  have hnew : d.nextChannelId ∉ given := fun hmem => absurd (h.given_below _ hmem) (lt_irrefl _)
  refine ⟨?_, fun id hid => ?_, ?_, fun id hid => ?_⟩
  · rw [insertWithId, map_append, map_singleton, nodup_append_comm]
    exact nodup_cons.2 ⟨hids, h.distinct⟩
  · rw [insertWithId, map_append, map_singleton, mem_append, mem_singleton] at hid
    rcases hid with hid | rfl
    · exact lt_succ_of_lt (h.below id hid)
    · exact lt_succ_self _
  · rw [nodup_append_comm]
    exact nodup_cons.2 ⟨hnew, h.given_once⟩
  · rw [mem_append, mem_singleton] at hid
    rcases hid with hid | rfl
    · exact lt_succ_of_lt (h.given_below id hid)
    · exact lt_succ_self _

end insert

theorem moving_none {v v' : View} (h : ReflTransGen (Moving id) v v') (hv : v.state = none) :
    v' = v := by
  induction h with
  | refl => rfl
  | tail _ hmove ih =>
    subst ih
    cases hmove <;> simp at hv

theorem Life.view_append (d : DrdynvcServer P) (sent resp : List ServerPdu) (given : List ℕ)
    (id : ℕ) : (⟨d, sent ++ resp, given⟩ : Life P).view id =
      Lifecycle.view d (closesOf id sent + closesOf id resp) id := by
  rw [Life.view, closesOf_append]

theorem Capable.snoc {ops : List (Op P)} (h : Capable ops) (op : Op P) : Capable (ops ++ [op]) := by
  obtain ⟨payload, version, hmem, hdecode⟩ := h
  exact ⟨payload, version, mem_append_left _ hmem, hdecode⟩

variable {payload : Bytes}

section invariant

variable [DvcProcessor P] (spoil : P → P)

structure Inv (ops : List (Op P)) (s : Life P) : Prop where
  tables : Tables s.server s.given
  fresh : ∀ id, s.server.nextChannelId ≤ id → s.view id = ⟨none, [], 0⟩
  phase : ∀ id, Phase (Answered spoil ops id 0) (Refused spoil ops id) id (s.view id)
  requested : ∀ id name, .create id name ∈ s.sent → s.server.capsReceived = true
  caps : s.server.capsReceived = true → Capable ops
  routed : ∀ id, id ∈ s.server.outgoingTunnelChannels.map Prod.fst ∨
    id ∈ s.server.incomingTunnelChannels.map Prod.fst → Moved spoil ops id

variable {spoil} {ops : List (Op P)} {s : Life P} {op : Op P}

theorem Moved.snoc (h : Moved spoil ops id) (op : Op P) : Moved spoil (ops ++ [op]) id :=
  (sometime_snoc ..).2 (.inl h)

def Quiet (s : Life P) (op : Op P) : Prop := ∀ id status, ¬Answers s op id status

omit [DvcProcessor P] in
theorem quiet_of_ne (s : Life P) (h : ∀ payload, op ≠ .message payload) : Quiet s op := by
  rintro id status ⟨⟨payload, hop, -⟩, -⟩
  exact h payload hop

omit [DvcProcessor P] in
theorem quiet_of_decode (s : Life P)
    (h : ∀ id status, decode payload ≠ some (.create id status)) : Quiet s (.message payload) := by
  rintro id status ⟨⟨_, hop, hanswer⟩, -⟩
  cases hop
  exact h id status hanswer

theorem answered_snoc_iff (hs : run (step spoil) start ops = s) (hquiet : ¬Answers s op id status) :
    Answered spoil ops id status ↔ Answered spoil (ops ++ [op]) id status := by
  unfold Answered
  rw [sometime_snoc, hs, or_iff_left hquiet]

theorem Phase.snoc {v : View} (hs : run (step spoil) start ops = s)
    (hquiet : ∀ status, ¬Answers s op id status)
    (h : Phase (Answered spoil ops id 0) (Refused spoil ops id) id v) :
    Phase (Answered spoil (ops ++ [op]) id 0) (Refused spoil (ops ++ [op]) id) id v := by
  refine h.congr (answered_snoc_iff hs (hquiet 0)) (exists_congr fun status => ?_)
  rw [answered_snoc_iff hs (hquiet status)]

section

variable (h : Inv spoil ops s)
include h

theorem routed_of_frame (hframe : Frame s.server d) (op : Op P)
    (id : ℕ) (hid : id ∈ d.outgoingTunnelChannels.map Prod.fst ∨
      id ∈ d.incomingTunnelChannels.map Prod.fst) : Moved spoil (ops ++ [op]) id := by
  refine (h.routed id ?_).snoc op
  rcases hid with hid | hid
  · exact .inl (map_subset _ hframe.outgoing hid)
  · have hin := map_subset Prod.fst hframe.incoming hid
    rw [map_append, mem_append] at hin
    exact hin.symm

theorem Inv.of_frame (hframe : Frame s.server d)
    (hcreates : ∀ id name, ServerPdu.create id name ∉ resp)
    (hfresh : ∀ id, s.server.nextChannelId ≤ id →
      Life.view { s with server := d, sent := s.sent ++ resp } id = ⟨none, [], 0⟩)
    (hphase : ∀ id, Phase (Answered spoil (ops ++ [op]) id 0) (Refused spoil (ops ++ [op]) id) id
      (Life.view { s with server := d, sent := s.sent ++ resp } id)) :
    Inv spoil (ops ++ [op]) { s with server := d, sent := s.sent ++ resp } := by
  refine ⟨h.tables.frame hframe, fun id hid => ?_, hphase, fun id name hmem => ?_, fun hcaps => ?_,
    routed_of_frame h hframe op⟩
  · rw [hframe.next] at hid
    exact hfresh id hid
  · rw [hframe.caps]
    rcases mem_append.1 hmem with hmem | hmem
    · exact h.requested id name hmem
    · exact absurd hmem (hcreates id name)
  · rw [hframe.caps] at hcaps
    exact (h.caps hcaps).snoc op

theorem inv_handles (hs : run (step spoil) start ops = s) (hquiet : Quiet s op)
    (hd : Handles resp s.server d) :
    Inv spoil (ops ++ [op]) { s with server := d, sent := s.sent ++ resp } := by
  have hmoves (id : ℕ) := hd.moves id (closesOf id s.sent) (closesOf id resp) le_rfl
  refine h.of_frame hd.frame hd.creates (fun id hid => ?_) fun id => ?_
  · have hnone := h.fresh id hid
    rw [Life.view_append, moving_none (hmoves id) (by rw [← Life.view, hnone]), ← Life.view, hnone]
  · rw [Life.view_append]
    exact ((h.phase id).moves (hmoves id)).snoc hs (hquiet id)

theorem Inv.same (hs : run (step spoil) start ops = s) (hquiet : Quiet s op) :
    Inv spoil (ops ++ [op]) s := by simpa using inv_handles h hs hquiet (.refl s.server)

end

theorem createChannel_ok {build : ℕ → P} {request : Option ServerPdu}
    (h : d.createChannel build = .ok (request, d')) :
    ∃ state, d' = { d with nextChannelId := d.nextChannelId + 1 }.insertWithId
    (build d.nextChannelId)
        state d.nextChannelId ∧
      (state = .pending ∧ request = none ∨
        state = .creation ∧ d.capsReceived = true ∧ ∃ name,
        request = some (.create d.nextChannelId name)) := by
  obtain ⟨⟨channelId, d₁⟩, hreserve, h⟩ := bind_ok h
  rw [reserveChannel] at hreserve
  split_ifs at hreserve
  cases hreserve
  dsimp only at h
  split_ifs at h with hcaps
  · cases h
    exact ⟨.pending, rfl, .inl ⟨rfl, rfl⟩⟩
  · cases h
    exact ⟨.creation, rfl, .inr ⟨rfl, by simpa using hcaps, _, rfl⟩⟩

section asked

variable (h : Inv spoil ops s) (hs : run (step spoil) start ops = s)

include h hs

theorem inv_create {build : ℕ → P} :
    Inv spoil (ops ++ [.create build]) (step spoil s (.create build)) := by
  have hquiet : Quiet s (.create build) := quiet_of_ne s (by simp)
  unfold step
  dsimp only
  split
  case h_2 => exact h.same hs hquiet
  rename_i request d hcreate
  obtain ⟨state, rfl, hrequest⟩ := createChannel_ok hcreate
  have hstate : state = .pending ∨ state = .creation := hrequest.imp And.left And.left
  have hcloses (id : ℕ) : closesOf id request.toList = 0 := by
    rcases hrequest with ⟨-, rfl⟩ | ⟨-, -, name, rfl⟩ <;> rfl
  refine ⟨h.tables.insert _ state, fun id hid => ?_, fun id => ?_, fun id name hmem => ?_,
    fun hcaps => (h.caps hcaps).snoc _, fun id hid => (h.routed id hid).snoc _⟩
  · have hid : s.server.nextChannelId < id := hid
    rw [Life.view_append, hcloses, add_zero, view_insertWithId_other _ _ _ hid.ne']
    exact h.fresh id hid.le
  · rw [Life.view_append, hcloses, add_zero]
    by_cases hid : id = s.server.nextChannelId
    · have hfresh := h.fresh id hid.ge
      have hview := view_insertWithId_self { s.server with nextChannelId :=
          s.server.nextChannelId + 1 }
        (build s.server.nextChannelId) state hfresh
      have hborn := ((h.phase id).born hfresh hstate).snoc hs (hquiet id)
      subst hid
      rw [← hview] at hborn
      exact hborn
    · rw [view_insertWithId_other _ _ _ hid]
      exact (h.phase id).snoc hs (hquiet id)
  · rcases mem_append.1 hmem with hmem | hmem
    · exact h.requested id name hmem
    · rcases hrequest with ⟨-, rfl⟩ | ⟨-, hcaps, -⟩
      · simp at hmem
      · exact hcaps

theorem inv_reserve : Inv spoil (ops ++ [.reserve]) (step spoil s .reserve) := by
  have hquiet : Quiet s .reserve := quiet_of_ne s (by simp)
  unfold step
  dsimp only
  split
  case h_2 => exact h.same hs hquiet
  rename_i channelId d hreserve
  rw [reserveChannel] at hreserve
  split_ifs at hreserve
  cases hreserve
  refine ⟨⟨h.tables.distinct, fun id hid => ?_, h.tables.given_once, fun id hid => ?_⟩,
    fun id hid => ?_,
    fun id => (h.phase id).snoc hs (hquiet id), h.requested, fun hcaps => (h.caps hcaps).snoc _,
    fun id hid => (h.routed id hid).snoc _⟩
  · exact lt_succ_of_lt (h.tables.below id hid)
  · exact lt_succ_of_lt (h.tables.given_below id hid)
  · exact h.fresh id (le_of_succ_le hid)

theorem inv_requestReliableUdp {ids : List ℕ} :
    Inv spoil (ops ++ [.requestReliableUdp ids]) (step spoil s (.requestReliableUdp ids)) := by
  have hquiet : Quiet s (.requestReliableUdp ids) := quiet_of_ne s (by simp)
  unfold step
  dsimp only
  split
  case h_2 => exact h.same hs hquiet
  rename_i request d hrequest
  rw [requestReliableUdp] at hrequest
  split_ifs at hrequest with hempty hidle hopened hnodup
  cases hrequest
  have hcloses (id : ℕ) : closesOf id [.softSyncRequest [⟨.reliableUdp, ids⟩]] = 0 := rfl
  refine ⟨{ h.tables with },
    fun id hid => ?_, fun id => ?_, fun id name hmem => ?_, fun hcaps => (h.caps hcaps).snoc _,
    fun id hid => ?_⟩
  · rw [Life.view_append, hcloses]
    exact h.fresh id hid
  · rw [Life.view_append, hcloses]
    exact (h.phase id).snoc hs (hquiet id)
  · rcases mem_append.1 hmem with hmem | hmem
    · exact h.requested id name hmem
    · simp at hmem
  · rcases hid with hid | hid
    · -- the channels of the request are open
      have hid : id ∈ ids := by simpa using hid
      have hopen : s.server.isChannelOpened id = true := by
        simp only [List.any_eq_true, Bool.not_eq_true', not_exists, not_and,
          Bool.not_eq_false] at hopened
        exact hopened id hid
      exact (sometime_snoc ..).2 (.inr ⟨⟨ids, rfl, hid⟩, hs ▸ hopen⟩)
    · exact (h.routed id (.inr hid)).snoc _

end asked

/-! ### The client's messages -/

theorem view_processCapabilities (d : DrdynvcServer P) (n id : ℕ) :
    ReflTransGen (Moving id) (view d n id) (view d.processCapabilities.2 n id) := by
  have hget : d.processCapabilities.2.get id = (d.get id).map fun c =>
      if c.state = .pending then { c with state := .creation } else c := by
    unfold DrdynvcServer.get processCapabilities
    rw [find?_map]
    congr 2
    funext c
    simp only [comp]
    split_ifs <;> rfl
  unfold view
  rw [hget]
  rcases d.get id with _ | c
  · exact .refl
  · by_cases hstate : c.state = .pending
    · rw [map_some, map_some, map_some, if_pos hstate, hstate]
      exact .single .requested
    · rw [map_some, map_some, map_some, if_neg hstate]
      exact .refl

theorem closesOf_processCapabilities (d : DrdynvcServer P) (id : ℕ) :
    closesOf id d.processCapabilities.1 = 0 := by simp [closesOf, processCapabilities, isClose]

section answered

variable (h : Inv spoil ops s) (hs : run (step spoil) start ops = s)

include h hs

theorem inv_answer (hdecode : decode payload = some (.create channelId status))
    (hstate : (s.server.get channelId).map DynamicChannel.state = some .creation)
    (hd : Decides channelId status resp s.server d) :
    Inv spoil (ops ++ [.message payload]) { s with server := d, sent := s.sent ++ resp } := by
  have hanswers : Answers s (.message payload) channelId status := ⟨⟨payload, rfl, hdecode⟩, hstate⟩
  have honly {id other : ℕ} (hanswer : Answers s (.message payload) id other) :
      id = channelId ∧ other = status := by
    obtain ⟨⟨_, hop, hother⟩, -⟩ := hanswer
    cases hop
    rw [hdecode] at hother
    cases hother
    exact ⟨rfl, rfl⟩
  have hnew : Answered spoil (ops ++ [.message payload]) channelId status :=
    (sometime_snoc ..).2 (.inr (by rw [hs]; exact hanswers))
  refine h.of_frame hd.frame hd.creates (fun id hid => ?_) fun id => ?_
  · have hne : id ≠ channelId := by
      rintro rfl
      have hnone := congrArg state (h.fresh id hid)
      rw [Life.view, Lifecycle.view, hstate] at hnone
      cases hnone
    rw [Life.view_append, hd.others id hne, ← Life.view, h.fresh id hid]
  · rw [Life.view_append]
    by_cases hid : id = channelId
    · subst hid
      have hphase := h.phase id
      by_cases hstatus : status = 0
      · refine (hphase.confirmed (hd.decided _) hstatus).congr
          (iff_of_true trivial (hstatus ▸ hnew))
            (exists_congr fun other => and_congr_right fun hother => ?_)
        exact answered_snoc_iff hs fun hanswer => hother ((honly hanswer).2.trans hstatus)
      · refine (hphase.refused (hd.decided _) hstatus).congr
          (answered_snoc_iff hs fun hanswer => hstatus (honly hanswer).2.symm)
          (iff_of_true trivial ⟨status, hstatus, hnew⟩)
    · rw [hd.others id hid]
      exact (h.phase id).snoc hs fun other hanswer => hid (honly hanswer).1

theorem inv_capabilities {version : CapsVersion}
    (hdecode : decode payload = some (.capabilities version)) :
    Inv spoil (ops ++ [.message payload]) (step spoil s (.message payload)) := by
  have hquiet : Quiet s (.message payload) := quiet_of_decode s (by simp [hdecode])
  have hstep : step spoil s (.message payload) =
      ⟨s.server.processCapabilities.2, s.sent ++ s.server.processCapabilities.1, s.given⟩ := by
    unfold step
    dsimp only
    rw [process, hdecode]
    rfl
  rw [hstep]
  have hids : s.server.processCapabilities.2.dynamicChannels.map DynamicChannel.channelId =
      s.server.dynamicChannels.map DynamicChannel.channelId := by
    rw [processCapabilities, List.map_map]
    refine map_congr_left fun c _ => ?_
    simp only [comp]
    split_ifs <;> rfl
  refine ⟨{ h.tables with distinct := ?_, below := ?_ }, fun id hid => ?_, fun id => ?_,
    fun _ _ _ => rfl, fun _ => ⟨payload, version, by simp, hdecode⟩, fun id hid =>
    (h.routed id hid).snoc _⟩
  · rw [hids]
    exact h.tables.distinct
  · rw [hids]
    exact h.tables.below
  · have hnone := h.fresh id hid
    have hmoves := view_processCapabilities s.server (closesOf id s.sent) id
    rw [Life.view_append, closesOf_processCapabilities, add_zero,
      moving_none hmoves (by rw [← Life.view, hnone]), ← Life.view, hnone]
  · rw [Life.view_append, closesOf_processCapabilities, add_zero]
    exact ((h.phase id).moves (view_processCapabilities s.server _ id)).snoc hs (hquiet id)

theorem inv_settle {left : DrdynvcServer P} {result :
    Except String (List ServerPdu × DrdynvcServer P)} (hquiet : Quiet s op)
    (hok : ∀ resp d, result = .ok (resp, d) → Handles resp s.server d)
    (herror : ∀ e, result = .error e → Handles [] s.server left) :
    Inv spoil (ops ++ [op]) (s.settle left result) := by
  rcases result with e | ⟨resp, d⟩
  · have hleft := inv_handles h hs hquiet (herror e rfl)
    rw [append_nil] at hleft
    exact hleft
  · exact inv_handles h hs hquiet (hok resp d rfl)

theorem inv_create_response (hdecode : decode payload = some (.create channelId status)) :
    Inv spoil (ops ++ [.message payload]) (step spoil s (.message payload)) := by
  have hstep : step spoil s (.message payload) =
      s.settle (createError spoil s.server channelId)
      (s.server.processCreate channelId status) := by
    unfold step
    dsimp only
    rw [process, processError, hdecode]
  rw [hstep]
  by_cases hstate : (s.server.get channelId).map DynamicChannel.state = some .creation
  · obtain ⟨c, hget, hcreation⟩ := map_eq_some_iff.1 hstate
    rcases hresult : s.server.processCreate channelId status with e | ⟨resp, d⟩
    · have hleft := inv_answer h hs hdecode hstate
        (decides_createError spoil hget hcreation hresult)
      rw [append_nil] at hleft
      exact hleft
    · exact inv_answer h hs hdecode hstate (decides_processCreate hget hcreation hresult)
  · -- an answer to nothing is refused and changes nothing
    have hquiet : Quiet s (.message payload) := by
      rintro id other ⟨⟨_, hop, hanswer⟩, hcreation⟩
      cases hop
      rw [hdecode] at hanswer
      cases hanswer
      exact hstate hcreation
    have hleft : createError spoil s.server channelId = s.server := by
      rw [createError]
      split
      · rfl
      · rename_i c hget
        rw [if_pos fun hcreation => hstate (by rw [hget, map_some, hcreation])]
    refine inv_settle h hs hquiet (fun resp d hresult => ?_) fun e _ => ?_
    · rw [processCreate] at hresult
      split at hresult
      · cases hresult
      · rename_i c hget
        rw [if_pos fun hcreation => hstate (by rw [hget, map_some, hcreation])] at hresult
        cases hresult
    · rw [hleft]
      exact .refl _

theorem inv_message : Inv spoil (ops ++ [.message payload]) (step spoil s (.message payload)) := by
  rcases hdecode : decode payload with _ | pdu
  · have hquiet : Quiet s (.message payload) := quiet_of_decode s (by simp [hdecode])
    unfold step
    dsimp only
    rw [process, processError, hdecode]
    exact inv_settle h hs hquiet (fun _ _ hok => by cases hok) fun _ _ => .refl _
  by_cases hcreate : ∃ channelId status, pdu = .create channelId status
  · obtain ⟨channelId, status, rfl⟩ := hcreate
    exact inv_create_response h hs hdecode
  have hquiet : Quiet s (.message payload) := by
    refine quiet_of_decode s fun id status hanswer => hcreate ⟨id, status, ?_⟩
    exact some.inj (hdecode.symm.trans hanswer)
  cases pdu
  case capabilities version => exact inv_capabilities h hs hdecode
  case create channelId status => exact absurd ⟨channelId, status, rfl⟩ hcreate
  all_goals
    unfold step
    dsimp only
    rw [process, processError, hdecode]
  case close channelId =>
    refine inv_settle h hs hquiet (fun resp d hresult => ?_) fun _ _ => .refl _
    cases hresult
    exact handles_remove _ _
  case data pdu =>
    exact inv_settle h hs hquiet (fun resp d => handles_processData) fun _ _ => handles_dataError ..
  case softSyncResponse tunnels =>
    exact inv_settle h hs hquiet (fun resp d => handles_processSoftSyncResponse)
      fun _ _ => handles_responseError ..

theorem inv_step (op : Op P) : Inv spoil (ops ++ [op]) (step spoil s op) := by
  cases op with
  | create build => exact inv_create h hs
  | reserve => exact inv_reserve h hs
  | close channelId =>
    exact inv_handles h hs (quiet_of_ne s (by simp)) (handles_closeChannel s.server channelId)
  | requestReliableUdp ids => exact inv_requestReliableUdp h hs
  | message payload => exact inv_message h hs
  | tunnel payload =>
    exact inv_settle h hs (quiet_of_ne s (by simp)) (fun resp d => handles_processTunnel)
      fun _ _ => handles_tunnelError ..
  | processorChanges channelId processor =>
    have hquiet : Quiet s (.processorChanges channelId processor) := quiet_of_ne s (by simp)
    have hmodify := inv_handles h hs hquiet (handles_modify s.server channelId
      (f := fun c => { c with processor := processor }) fun c => rfl)
    rw [append_nil] at hmodify
    exact hmodify

end answered

theorem inv_run (spoil : P → P) (ops : List (Op P)) :
    Inv spoil ops (run (step spoil) start ops) := by
  refine run_history ?_ (fun ops op h => inv_step h rfl op) ops
  refine ⟨⟨by simp [start, DrdynvcServer.new], by simp [start, DrdynvcServer.new], by simp [start],
    by simp [start]⟩, fun id _ => rfl, fun id => ?_, by simp [start], by
    simp [start, DrdynvcServer.new], by simp [start, DrdynvcServer.new]⟩
  refine .waiting ?_ (.inl rfl)
  rintro ⟨status, -, hanswered⟩
  exact not_sometime_nil _ hanswered

end invariant

/-! ### The promises -/

variable {calls : List Call}

theorem mem_callsOf (id : ℕ) (call : Call) (h : id = channelOf call) :
    call ∈ callsOf id calls ↔ call ∈ calls := by
  rw [callsOf, mem_filter]
  simp [h]

theorem count_callsOf (id : ℕ) (call : Call) (h : id = channelOf call) (calls : List Call) :
    (callsOf id calls).count call = calls.count call := count_filter (by simp [h])

theorem Running.not_mem_close (h : Running id calls) : .close id ∉ calls := by
  obtain ⟨payloads, rfl⟩ := h
  simp

theorem Running.count_start (h : Running id calls) : calls.count (.start id) = 1 := by
  obtain ⟨payloads, rfl⟩ := h
  rw [count_cons_self, count_eq_zero_of_not_mem (by simp)]

section promises

variable {C R : Prop} {id : ℕ} {v : View}

theorem Phase.starts (h : Phase C R id v) : v.calls.count (.start id) ≤ 1 := by
  cases h with
  | waiting hR h | failed hR h | cancelled hC hR => simp
  | opened hC hR h => exact h.count_start.le
  | closed hC hR h hn => simp [h.count_start]

theorem Phase.confirmed_of (h : Phase C R id v) (hlived : .start id ∈ v.calls ∨ 0 < v.closes) :
    C := by
  cases h with
  | waiting hR h | failed hR h => simp at hlived
  | opened hC hR h | cancelled hC hR | closed hC hR h hn => exact hC

theorem Phase.closes_le (h : Phase C R id v) : v.closes ≤ 1 := by
  cases h with
  | closed hC hR h hn => exact hn
  | _ => simp

def View.closings (v : View) (id : ℕ) : ℕ :=
  v.calls.count (.close id) + if v.state = some .opened then 1 else 0

theorem Phase.closings (h : Phase C R id v) :
    v.closings id ≤ 1 ∧ (.start id ∈ v.calls ∨ R → v.closings id = 1) := by
  cases h with
  | waiting hR h => rcases h with rfl | rfl | rfl <;> simp [closings, hR]
  | opened hC hR h | closed hC hR h hn => simp [closings, count_eq_zero_of_not_mem h.not_mem_close]
  | failed hR h => rcases h with rfl | ⟨status, rfl⟩ <;> simp [closings]
  | cancelled hC hR => simp [closings, hR]

theorem Running.process_split {tail before after : List Call}
    (h : Running id calls) (htail : tail = [] ∨ tail = [.close id])
    (hsplit : calls ++ tail = before ++ .process id payload :: after) :
    .start id ∈ before ∧ .close id ∉ before := by
  constructor
  · obtain ⟨payloads, rfl⟩ := h
    rcases before with _ | ⟨first, before⟩
    · simp at hsplit
    · rw [cons_append, cons_append, cons.injEq] at hsplit
      rw [← hsplit.1]
      exact mem_cons_self
  · -- what stands before a call with data stands before the tail
    have hpre : before <+: calls := by
      rcases htail with rfl | rfl
      · rw [append_nil] at hsplit
        exact ⟨_, hsplit.symm⟩
      · have hlast := congrArg dropLast hsplit
        rw [dropLast_concat, dropLast_append_of_ne_nil (by simp)] at hlast
        exact ⟨_, hlast.symm⟩
    exact fun hmem => h.not_mem_close (hpre.subset hmem)

theorem Phase.process_split (h : Phase C R id v) {before after : List Call}
    (hsplit : v.calls = before ++ .process id payload :: after) :
    .start id ∈ before ∧ .close id ∉ before := by
  cases h with
  | waiting hR h | cancelled hC hR => simp at hsplit
  | opened hC hR h => exact h.process_split (.inl rfl) (by rw [append_nil]; exact hsplit)
  | failed hR h => rcases before with _ | ⟨first, before⟩ <;> simp at hsplit
  | closed hC hR h hn => exact h.process_split (.inr rfl) hsplit

end promises

theorem count_close_dropped
    (hdistinct : (d.dynamicChannels.map DynamicChannel.channelId).Nodup) (n id : ℕ) :
    (dropped d).count (.close id) = (view d n id).closings id := by
  have hopen : id ∈ d.openChannelIds ↔ (d.get id).map DynamicChannel.state = some .opened := by
    unfold openChannelIds
    rw [List.mem_map]
    constructor
    · rintro ⟨c, hc, rfl⟩
      obtain ⟨hmem, hstate⟩ := mem_filter.1 hc
      have hfound : (d.get c.channelId).isSome := by
        rw [DrdynvcServer.get, find?_isSome]
        exact ⟨c, hmem, by simp⟩
      obtain ⟨o, ho⟩ := isSome_iff_exists.1 hfound
      obtain rfl := inj_on_of_nodup_map hdistinct (get_some ho).1 hmem (get_some ho).2
      rw [ho, map_some, beq_iff_eq.1 hstate]
    · intro hstate
      obtain ⟨c, hget, hopened⟩ := map_eq_some_iff.1 hstate
      exact ⟨c, mem_filter.2 ⟨(get_some hget).1, by rw [hopened]; rfl⟩, (get_some hget).2⟩
  have honce : d.openChannelIds.Nodup := hdistinct.sublist (filter_sublist.map _)
  have hcount : (d.openChannelIds.map Call.close).count (.close id) = d.openChannelIds.count id :=
    count_map_of_injective _ _ (fun a b hab => by simpa using hab) id
  rw [dropped, count_append, hcount, honce.count, closings, view]
  rw [count_callsOf id (.close id) rfl]
  simp only [hopen]

/-- **The life of a dynamic channel.** Whatever the server creates and closes and whatever the
client sends, in any order, the promises hold. -/
theorem lives [DvcProcessor P] (spoil : P → P) (ops : List (Op P)) :
    Lives spoil ops (run (step spoil) start ops) := by
  have h := inv_run spoil ops
  refine ⟨fun id name hmem => h.caps (h.requested id name hmem), fun id => ?_, fun id hstart => ?_,
    fun id payload before after hsplit => ?_, fun id => ?_, fun id hlived => ?_,
    fun id => (h.phase id).closes_le, fun id hn => (h.phase id).confirmed_of (.inr hn),
    h.tables.given_once, h.routed⟩
  · rw [← count_callsOf id (.start id) rfl]
    exact (h.phase id).starts
  · exact (h.phase id).confirmed_of (.inl ((mem_callsOf id (.start id) rfl).2 hstart))
  · have hcalls := congrArg (callsOf id) hsplit
    rw [callsOf_append, ← singleton_append, callsOf_append,
      callsOf_self id (.process id payload) rfl, singleton_append] at hcalls
    rw [← mem_callsOf id (.start id) rfl, ← mem_callsOf id (.close id) rfl]
    exact (h.phase id).process_split hcalls
  · rw [count_close_dropped h.tables.distinct]
    exact (h.phase id).closings.1
  · rw [count_close_dropped h.tables.distinct]
    exact (h.phase id).closings.2 (hlived.imp_left (mem_callsOf id (.start id) rfl).2)

end Linrdp.Dvc.Lifecycle
