import Mathlib.Data.List.Induction
import Mathlib.Data.List.Nodup
import Linrdp.Dvc.Transport

/-!
# The hand-over to the tunnel

What a connection promises about its two transports (`SoftSynced`): frames of the tunnel wait for
the client's answer and are then read in their order, each once; from the request on the data of a
moved channel goes into the tunnel, in its order and once, but not before the answer; all else goes
over the main connection. It fails where a channel is closed before its last data are written, and
`softSynced_iff` says that this is the only way.
-/

namespace Linrdp.Dvc.SoftSync

open List hiding after
open Dvc.Pdu Dvc.Server Dvc.Transport DrdynvcServer RdpServer DynamicChannel Handed

variable {P : Type}

/-! ### The moved channels in the tables -/

structure Tracks (d : DrdynvcServer P) (ids : List ℕ) : Prop where
  distinct : (d.dynamicChannels.map channelId).Nodup
  given : ∀ c ∈ d.dynamicChannels, c.channelId < d.nextChannelId
  routed : ∀ id, id ∈ d.outgoingTunnelChannels.map Prod.fst ↔
    id ∈ ids ∧ id ∈ d.dynamicChannels.map channelId
  old : ∀ id ∈ ids, id < d.nextChannelId
  opened : ∀ c ∈ d.dynamicChannels, c.channelId ∈ ids → c.state = .opened

theorem Tracks.congr {d d' : DrdynvcServer P} {ids : List ℕ} (h : Tracks d ids)
    (hchannels : d'.dynamicChannels = d.dynamicChannels)
    (hnext : d'.nextChannelId = d.nextChannelId)
    (hout : d'.outgoingTunnelChannels = d.outgoingTunnelChannels) : Tracks d' ids := by
  refine ⟨?_, ?_, ?_, ?_, ?_⟩ <;> simp only [hchannels, hnext, hout]
  exacts [h.distinct, h.given, h.routed, h.old, h.opened]

structure Keeps (frames : List Bytes) (d d' : DrdynvcServer P) : Prop where
  state : d'.softSyncState = d.softSyncState
  early : d'.earlyTunnelFrames = d.earlyTunnelFrames
  read : d'.readFrames = d.readFrames ++ frames
  tracks : ∀ ids, Tracks d ids → Tracks d' ids

variable {fs : List Bytes} {d d' : DrdynvcServer P}

theorem Keeps.trans {gs : List Bytes} {d'' : DrdynvcServer P} (h : Keeps fs d d')
    (h' : Keeps gs d' d'') : Keeps (fs ++ gs) d d'' :=
  ⟨h'.state.trans h.state, h'.early.trans h.early, by rw [h'.read, h.read, append_assoc],
    fun ids ht => h'.tracks ids (h.tracks ids ht)⟩

theorem Keeps.received (h : Keeps fs d d') :
    d'.softSyncResponseReceived = d.softSyncResponseReceived := by
  unfold softSyncResponseReceived
  rw [h.state]

variable {id : ℕ}

theorem get_some {c : DynamicChannel P} (h : d.get id = some c) :
    c ∈ d.dynamicChannels ∧ c.channelId = id := by
  have hid := find?_some h
  exact ⟨mem_of_find?_eq_some h, by simpa using hid⟩

theorem keeps_map {f : DynamicChannel P → DynamicChannel P}
    (hid : ∀ c ∈ d.dynamicChannels, (f c).channelId = c.channelId)
    (hopened : ∀ c ∈ d.dynamicChannels,
      (∀ o ∈ d.dynamicChannels, o.channelId = c.channelId → o.state = .opened) →
      (f c).state = .opened) :
    Keeps [] d { d with dynamicChannels := d.dynamicChannels.map f } := by
  have hsame : (d.dynamicChannels.map f).map channelId =
      d.dynamicChannels.map channelId := by
    rw [map_map]
    exact map_congr_left fun c hc => hid c hc
  refine ⟨rfl, rfl, (append_nil _).symm, fun ids h => ⟨?_, ?_, ?_, h.old, ?_⟩⟩
  · rw [hsame]
    exact h.distinct
  · refine forall_mem_map.2 fun c hc => ?_
    rw [hid c hc]
    exact h.given c hc
  · intro id
    rw [hsame]
    exact h.routed id
  · refine forall_mem_map.2 fun c hc hmem => ?_
    rw [hid c hc] at hmem
    exact hopened c hc fun o ho hsame => h.opened o ho (hsame ▸ hmem)

theorem keeps_modify (d : DrdynvcServer P) (id : ℕ) {f : DynamicChannel P → DynamicChannel P}
    (hstate : ∀ c, (f c).state = c.state) : Keeps [] d (d.modify id f) := by
  refine keeps_map (fun c _ => ?_) fun c hc hopened => ?_
  · split_ifs <;> rfl
  · split_ifs
    · exact (hstate c).trans (hopened c hc rfl)
    · exact hopened c hc rfl

theorem keeps_modify_of_not_opened {c : DynamicChannel P}
    (hget : d.get id = some c) (hstate : c.state ≠ .opened)
    (f : DynamicChannel P → DynamicChannel P) : Keeps [] d (d.modify id f) := by
  obtain ⟨hmem, hid⟩ := get_some hget
  refine keeps_map (fun o _ => ?_) fun o ho hopened => ?_
  · split_ifs <;> rfl
  · split_ifs with ho'
    · exact absurd (hopened c hmem (by rw [hid, ho'])) hstate
    · exact hopened o ho rfl

theorem keeps_remove (d : DrdynvcServer P) (id : ℕ) : Keeps [] d (d.removeByChannelId id) := by
  refine ⟨rfl, rfl, (append_nil _).symm, fun ids h =>
    ⟨h.distinct.sublist (filter_sublist.map _), ?_, fun other => ?_, h.old, ?_⟩⟩
  · intro c hc
    exact h.given c (mem_of_mem_filter hc)
  · have hout : other ∈ (d.removeByChannelId id).outgoingTunnelChannels.map Prod.fst ↔
        other ∈ d.outgoingTunnelChannels.map Prod.fst ∧ other ≠ id := by
      simp only [removeByChannelId, mem_map, mem_filter, bne_iff_ne]
      grind
    have hleft : other ∈ (d.removeByChannelId id).dynamicChannels.map channelId ↔
        other ∈ d.dynamicChannels.map channelId ∧ other ≠ id := by
      simp only [removeByChannelId, mem_map, mem_filter, bne_iff_ne]
      grind
    rw [hout, hleft, h.routed other, and_assoc]
  · intro c hc
    exact h.opened c (mem_of_mem_filter hc)

theorem keeps_record (d : DrdynvcServer P) (call : Call) : Keeps [] d (d.record call) := by
  exact ⟨rfl, rfl, (append_nil _).symm, fun ids h => h.congr rfl rfl rfl⟩

theorem Keeps.record (h : Keeps fs d d') (call : Call) : Keeps fs d (d'.record call) := by
  simpa using h.trans (keeps_record d' call)

theorem Keeps.remove (h : Keeps fs d d') (id : ℕ) : Keeps fs d (d'.removeByChannelId id) := by
  simpa using h.trans (keeps_remove d' id)

theorem keeps_closeChannel (d : DrdynvcServer P) (id : ℕ) : Keeps [] d (d.closeChannel id).2 := by
  rw [closeChannel]
  split
  · exact ⟨rfl, rfl, (append_nil _).symm, fun ids h => h⟩
  · split
    · exact keeps_modify d id fun c => rfl
    all_goals exact keeps_remove d id

theorem bind_ok {α β : Type} {x : Except String α} {f : α → Except String β} {b : β}
    (h : (x >>= f) = .ok b) : ∃ a, x = .ok a ∧ f a = .ok b := by
  cases x with
  | error e => cases h
  | ok a => exact ⟨a, rfl, h⟩

variable {frame : Bytes}

section processors

variable [DvcProcessor P] {d d' : DrdynvcServer P} {resp : List ServerPdu}

theorem keeps_processData {pdu : DataPdu} (h : d.processData pdu = .ok (resp, d')) :
    Keeps [] d d' := by
  rw [processData] at h
  split at h
  · cases h
  · split_ifs at h
    split at h
    · cases h
      exact keeps_modify d _ fun c => rfl
    · obtain ⟨⟨messages, processor⟩, -, h⟩ := bind_ok h
      obtain ⟨pdus, -, h⟩ := bind_ok h
      split_ifs at h
      · cases h
        apply Keeps.remove
        apply Keeps.record
        exact keeps_modify d _ fun c => rfl
      · cases h
        apply Keeps.record
        exact keeps_modify d _ fun c => rfl

theorem keeps_readTunnelFrame (h : d.readTunnelFrame frame = .ok (resp, d')) :
    Keeps [frame] d d' := by
  rw [readTunnelFrame] at h
  have hread : Keeps [frame] d { d with readFrames := d.readFrames ++ [frame] } :=
    ⟨rfl, rfl, rfl, fun ids h => h.congr rfl rfl rfl⟩
  split at h
  · split_ifs at h
    · simpa using hread.trans (keeps_processData h)
    · cases h
      exact hread
  · cases h
    exact hread.remove _
  · cases h
    exact hread

theorem keeps_readTunnelFrames {frames : List Bytes}
    (h : d.readTunnelFrames frames = .ok (resp, d')) : Keeps frames d d' := by
  induction frames generalizing d resp with
  | nil =>
    cases h
    exact ⟨rfl, rfl, (append_nil _).symm, fun ids h => h⟩
  | cons frame frames ih =>
    obtain ⟨⟨first, d₁⟩, hfirst, h⟩ := bind_ok h
    obtain ⟨⟨rest, d₂⟩, hrest, h⟩ := bind_ok h
    cases h
    exact (keeps_readTunnelFrame hfirst).trans (ih hrest)

theorem keeps_processCapabilities (d : DrdynvcServer P) : Keeps [] d d.processCapabilities.2 := by
  have hmap : Keeps [] d { d with dynamicChannels := d.dynamicChannels.map fun c =>
      if c.state = .pending then { c with state := .creation } else c } := by
    refine keeps_map (fun c _ => ?_) fun c hc hstate => ?_
    · split_ifs <;> rfl
    · rw [if_neg (by simp [hstate c hc rfl])]
      exact hstate c hc rfl
  exact { hmap with tracks := fun ids h => (hmap.tracks ids h).congr rfl rfl rfl }

theorem keeps_processCreate {status : ℕ} (h : d.processCreate id status = .ok (resp, d')) :
    Keeps [] d d' := by
  rw [processCreate] at h
  split at h
  · cases h
  · rename_i c hget
    split_ifs at h with hstate hstatus hclose
    · cases h
      exact (keeps_modify_of_not_opened hget (by simp_all) _).record _
    · cases h
      exact keeps_remove d id
    · obtain ⟨⟨messages, processor⟩, -, h⟩ := bind_ok h
      obtain ⟨pdus, -, h⟩ := bind_ok h
      cases h
      exact (keeps_modify_of_not_opened hget (by simp_all) _).record _

theorem keeps_createChannel {build : ℕ → P} {request : Option ServerPdu}
    (h : d.createChannel build = .ok (request, d')) : Keeps [] d d' := by
  obtain ⟨⟨id, d₁⟩, hreserve, h⟩ := bind_ok h
  rw [reserveChannel] at hreserve
  split_ifs at hreserve
  cases hreserve
  have hinsert (state : ChannelState) :
      Keeps [] d (({ d with nextChannelId := d.nextChannelId + 1 } : DrdynvcServer P).insertWithId
        (build d.nextChannelId) state d.nextChannelId) := by
    refine ⟨rfl, rfl, (append_nil _).symm, fun ids h =>
      ⟨?_, ?_, fun id => ?_, fun id hid => ?_, ?_⟩⟩
    · simp only [insertWithId, map_append, map_cons, map_nil]
      rw [nodup_append]
      refine ⟨h.distinct, by simp, fun id hid new hnew => ?_⟩
      obtain ⟨c, hc, rfl⟩ := mem_map.1 hid
      rw [mem_singleton.1 hnew]
      exact (h.given c hc).ne
    · exact forall_mem_append.2 ⟨fun c hc => Nat.lt_succ_of_lt (h.given c hc),
        forall_mem_singleton.2 (Nat.lt_succ_self _)⟩
    · simp only [insertWithId, map_append, map_cons, map_nil, mem_append, mem_singleton]
      rw [h.routed id]
      have hold := h.old id
      grind
    · exact Nat.lt_succ_of_lt (h.old id hid)
    · exact forall_mem_append.2 ⟨h.opened,
        forall_mem_singleton.2 fun hmem => absurd (h.old _ hmem) (lt_irrefl _)⟩
  dsimp only at h
  split_ifs at h <;> cases h <;> exact hinsert _

theorem keeps_process {payload : Bytes} (h : d.process payload = .ok (resp, d')) :
    Keeps [] d d' ∨ ∃ tunnels, d.processSoftSyncResponse tunnels = .ok (resp, d') := by
  rw [process] at h
  split at h
  · cases h
  · cases h
    exact .inl (keeps_processCapabilities d)
  · exact .inl (keeps_processCreate h)
  · cases h
    exact .inl (keeps_remove d _)
  · exact .inl (keeps_processData h)
  · exact .inr ⟨_, h⟩

end processors

/-! ### The invariant -/

def tunneled (e : Handed) : Bool := e.moved && e.opened

def FramesRead (d : DrdynvcServer P) (frames : List Bytes) : Prop :=
  if d.softSyncResponseReceived then d.earlyTunnelFrames = [] ∧ d.readFrames = frames
  else d.earlyTunnelFrames = frames ∧ d.readFrames = []

structure Inv (frames : List Bytes) (s : RdpServer P) : Prop where
  tracks : Tracks s.drdynvc s.movedIds
  idle : s.drdynvc.softSyncState = .idle ↔ s.moved = none
  frames : FramesRead s.drdynvc frames
  tx : ∀ t ids, s.moved = some (t, ids) → s.udpTunnelTx = some t ∨ s.udpTunnelTx = none
  oneTunnel : ∀ e ∈ s.tunnel, ∃ ids, s.moved = some (e.1, ids)
  held : s.drdynvc.softSyncResponseReceived = false → s.tunnel = []
  flow : (s.tunnel.map Prod.snd ++ s.tunnelBacklog).map some =
    (s.handed.filter tunneled).map fun e => e.pdu.encode
  direct : s.tcp = (s.handed.filter fun e => !tunneled e).map pdu

def Flushed (s : RdpServer P) : Prop :=
  s.drdynvc.softSyncResponseReceived = true → s.tunnelBacklog = []

abbrev Between (frames : List Bytes) (s : RdpServer P) : Prop := Inv frames s ∧ Flushed s

section

variable {frames : List Bytes} {s s' : RdpServer P}

theorem lookup_isSome_iff {ids : List (ℕ × SoftSyncTunnelType)} :
    (ids.lookup id).isSome ↔ id ∈ ids.map Prod.fst := by
  induction ids with
  | nil => simp
  | cons e ids ih =>
    rw [lookup_cons, map_cons, mem_cons, ← ih]
    split <;> simp_all

theorem isChannelOpened_iff (h : Tracks s.drdynvc s.movedIds) (hid : id ∈ s.movedIds) :
    s.drdynvc.isChannelOpened id = true ↔ id ∈ s.drdynvc.outgoingTunnelChannels.map Prod.fst := by
  rw [h.routed id, isChannelOpened, Option.any_eq_true]
  constructor
  · rintro ⟨c, hget, -⟩
    obtain ⟨hmem, rfl⟩ := get_some hget
    exact ⟨hid, mem_map_of_mem hmem⟩
  · rintro ⟨-, hmem⟩
    obtain ⟨c, hc, rfl⟩ := mem_map.1 hmem
    have hsome : (s.drdynvc.get c.channelId).isSome := by
      rw [DrdynvcServer.get, find?_isSome]
      exact ⟨c, hc, by simp⟩
    obtain ⟨o, ho⟩ := Option.isSome_iff_exists.1 hsome
    obtain ⟨hmem, hsame⟩ := get_some ho
    exact ⟨o, ho, by rw [h.opened o hmem (hsame ▸ hid)]; rfl⟩

theorem tunneled_hand_iff {pdu : ServerPdu} : tunneled (s.hand pdu) = true ↔
    ∃ id, pdu.dataChannel = some id ∧ id ∈ s.movedIds ∧ s.drdynvc.isChannelOpened id = true := by
  rw [tunneled, hand]
  cases pdu.dataChannel with
  | none | some id => simp

theorem outgoingTunnel_isSome (h : Tracks s.drdynvc s.movedIds) {pdu : ServerPdu} {bytes : Bytes}
    (hbytes : pdu.encode = some bytes) :
    (s.drdynvc.outgoingTunnel bytes).isSome = tunneled (s.hand pdu) := by
  have hlookup : s.drdynvc.outgoingTunnel bytes =
      (dataChannelId bytes).bind s.drdynvc.tunnelForOutgoingChannel := by
    rw [outgoingTunnel]
    split_ifs with hempty
    · rw [List.isEmpty_iff] at hempty
      cases dataChannelId bytes with
      | none => rfl
      | some id => simp only [Option.bind_some, tunnelForOutgoingChannel, hempty, lookup_nil]
    · rfl
  rw [hlookup, dataChannelId_encode hbytes, Bool.eq_iff_iff, tunneled_hand_iff]
  cases hchannel : pdu.dataChannel with
  | none => simp
  | some id =>
    rw [Option.bind_some, tunnelForOutgoingChannel, lookup_isSome_iff]
    constructor
    · intro hmem
      have hid := ((h.routed id).1 hmem).1
      exact ⟨id, rfl, hid, (isChannelOpened_iff h hid).2 hmem⟩
    · rintro ⟨other, hsame, hid, hopened⟩
      obtain rfl := Option.some.inj hsame
      exact (isChannelOpened_iff h hid).1 hopened

theorem ofEncode_ok {α : Type} {x : Option α} {a : α} (h : DrdynvcServer.ofEncode x = .ok a) :
    x = some a := by
  cases x with
  | none => cases h
  | some b =>
    cases h
    rfl

variable {messages : List ServerPdu}

variable {into : List Bytes} {direct : List ServerPdu}

def Routed (handed : List Handed) (into : List Bytes) (direct : List ServerPdu) : Prop :=
  into.map some = (handed.filter tunneled).map (fun e => e.pdu.encode) ∧
    direct = (handed.filter fun e => !tunneled e).map pdu

theorem routed_each (h : Tracks s.drdynvc s.movedIds)
    (hroute : RdpServer.routeEach s.drdynvc messages = .ok (into, direct)) :
    Routed (messages.map s.hand) into direct := by
  induction messages generalizing into direct with
  | nil =>
    cases hroute
    exact ⟨rfl, rfl⟩
  | cons message messages ih =>
    obtain ⟨unframed, hunframed, hroute⟩ := bind_ok hroute
    obtain ⟨⟨into₀, direct₀⟩, hrest, hroute⟩ := bind_ok hroute
    obtain ⟨hinto, hdirect⟩ := ih hrest
    have hbytes := ofEncode_ok hunframed
    have hsome := outgoingTunnel_isSome h hbytes
    rw [map_cons, Routed, filter_cons, filter_cons]
    split_ifs at hroute with htunnel
    · cases hroute
      rw [hsome] at htunnel
      rw [if_pos htunnel, if_neg (by simp [htunnel]), map_cons, map_cons, hinto, ← hbytes]
      exact ⟨rfl, hdirect⟩
    · cases hroute
      rw [hsome] at htunnel
      rw [if_neg htunnel, if_pos (by simp [htunnel]), map_cons, ← hdirect]
      exact ⟨hinto, rfl⟩

theorem routed (h : Tracks s.drdynvc s.movedIds)
    (hroute : RdpServer.routeDvcMessages s.drdynvc messages = .ok (into, direct)) :
    Routed (messages.map s.hand) into direct := by
  rw [routeDvcMessages] at hroute
  split_ifs at hroute with hnone
  · cases hroute
    have hempty : s.drdynvc.outgoingTunnelChannels = [] := by simpa [tunnelsChannels] using hnone
    have hdirect : ∀ e ∈ messages.map s.hand, tunneled e = false := by
      intro e he
      obtain ⟨pdu, -, rfl⟩ := mem_map.1 he
      rw [Bool.eq_false_iff]
      intro htunnel
      obtain ⟨id, -, hid, hopened⟩ := tunneled_hand_iff.1 htunnel
      have hmem := (isChannelOpened_iff h hid).1 hopened
      rw [hempty] at hmem
      cases hmem
    have hno : (messages.map s.hand).filter tunneled = [] := by
      rw [filter_eq_nil_iff]
      exact fun e he => by simp [hdirect e he]
    have hall : (messages.map s.hand).filter (fun e => !tunneled e) = messages.map s.hand := by
      rw [filter_eq_self]
      exact fun e he => by simp [hdirect e he]
    rw [Routed, hno, hall, map_map]
    exact ⟨rfl, (map_id' messages).symm⟩
  · exact routed_each h hroute

theorem inv_flush (h : Inv frames s) (hflush : s.flushTunnelBacklog = .ok s') :
    Between frames s' := by
  rw [flushTunnelBacklog] at hflush
  split_ifs at hflush with hempty hanswer
  · cases hflush
    exact ⟨h, fun _ => hempty⟩
  · cases hflush
    exact ⟨h, fun hreceived => by simp [hreceived] at hanswer⟩
  · have hreceived : s.drdynvc.softSyncResponseReceived = true := by simpa using hanswer
    rw [sendToTunnel] at hflush
    split at hflush
    · cases hflush
    · rename_i t htx
      split_ifs at hflush
      cases hflush
      have hmoved : ∃ ids, s.moved = some (t, ids) := by
        rcases hmoved : s.moved with _ | ⟨u, ids⟩
        · have hidle := h.idle.2 hmoved
          rw [softSyncResponseReceived, hidle] at hreceived
          cases hreceived
        · rcases h.tx u ids hmoved with hu | hu
          · rw [htx] at hu
            cases hu
            exact ⟨ids, rfl⟩
          · rw [htx] at hu
            cases hu
      refine ⟨{ h with oneTunnel := ?_, held := ?_, flow := ?_ }, fun _ => rfl⟩
      · exact forall_mem_append.2 ⟨h.oneTunnel, forall_mem_map.2 fun _ _ => hmoved⟩
      · intro hnot
        rw [hreceived] at hnot
        cases hnot
      · rw [← h.flow]
        simp

theorem inv_write (h : Inv frames s)
    (hwrite : s.writeDvcMessages messages = .ok s') : Between frames s' := by
  obtain ⟨⟨into, direct⟩, hroute, hwrite⟩ := bind_ok hwrite
  obtain ⟨-, -, hwrite⟩ := bind_ok hwrite
  obtain ⟨hinto, hdirect⟩ := routed h.tracks hroute
  have hinv : Inv frames { s with
      tcp := s.tcp ++ direct
      tunnelBacklog := s.tunnelBacklog ++ into
      handed := s.handed ++ messages.map s.hand } := by
    refine { h with flow := ?_, direct := ?_ }
    · rw [← append_assoc, map_append, h.flow, hinto, filter_append, map_append]
    · rw [h.direct, hdirect, filter_append, map_append]
  exact inv_flush hinv hwrite

theorem FramesRead.keeps (h : FramesRead d frames)
    (hkeeps : Keeps [] d d') : FramesRead d' frames := by
  unfold FramesRead at h ⊢
  rw [hkeeps.received, hkeeps.early, hkeeps.read, append_nil]
  exact h

theorem inv_withDrdynvc (h : Inv frames s) (hkeeps : Keeps [] s.drdynvc d) :
    Inv frames (s.withDrdynvc d) := by
  refine ⟨hkeeps.tracks _ h.tracks, ?_, h.frames.keeps hkeeps, h.tx, h.oneTunnel, ?_, h.flow,
    h.direct⟩
  · rw [withDrdynvc, hkeeps.state]
    exact h.idle
  · rw [withDrdynvc, hkeeps.received]
    exact h.held

theorem between_withDrdynvc (h : Between frames s) (hkeeps : Keeps [] s.drdynvc d) :
    Between frames (s.withDrdynvc d) := by
  refine ⟨inv_withDrdynvc h.1 hkeeps, ?_⟩
  rw [Flushed, withDrdynvc, hkeeps.received]
  exact h.2

theorem tracks_request {request : ServerPdu} (h : Tracks d [])
    (hrequest : d.requestReliableUdp d.openChannelIds = .ok (request, d')) :
    Tracks d' d.openChannelIds ∧ d.softSyncState = .idle ∧
      d'.softSyncState = .active [.reliableUdp] false ∧
      d'.earlyTunnelFrames = d.earlyTunnelFrames ∧ d'.readFrames = d.readFrames := by
  have hopen : ∀ id ∈ d.openChannelIds, ∃ c ∈ d.dynamicChannels, c.channelId = id ∧
      c.state = .opened := by
    intro id hid
    obtain ⟨c, hc, rfl⟩ := mem_map.1 hid
    obtain ⟨hmem, hstate⟩ := mem_filter.1 hc
    exact ⟨c, hmem, rfl, by simpa using hstate⟩
  rw [requestReliableUdp] at hrequest
  split_ifs at hrequest with hsome hidle hopened hnodup
  cases hrequest
  refine ⟨⟨h.distinct, h.given, fun id => ?_, fun id hid => ?_, fun c hc hid => ?_⟩, by
    simpa using hidle, rfl, rfl, rfl⟩
  · have hsame : (d.openChannelIds.map fun id => (id, SoftSyncTunnelType.reliableUdp)).map
      Prod.fst =
        d.openChannelIds := by
      rw [map_map]
      exact map_id' _
    rw [hsame]
    constructor
    · intro hid
      obtain ⟨c, hc, rfl, -⟩ := hopen id hid
      exact ⟨hid, mem_map_of_mem hc⟩
    · exact And.left
  · obtain ⟨c, hc, rfl, -⟩ := hopen id hid
    exact h.given c hc
  · obtain ⟨o, ho, hsame, hstate⟩ := hopen _ hid
    rw [← inj_on_of_nodup_map h.distinct ho hc hsame]
    exact hstate

section

variable (h : Between frames s)
include h

theorem between_remember (confirmed : Bool) (pending : Option ℕ) (gone : List ℕ) :
    Between frames { s with
      multitransportConfirmed := confirmed
      pendingSoftSync := pending
      goneTunnels := gone } := by
  obtain ⟨h, hflushed⟩ := h
  exact ⟨{ h with }, hflushed⟩

theorem inv_softSync {toTunnel : ℕ} (hsync : s.softSync toTunnel = .ok s') : Between frames s' := by
  rw [softSync] at hsync
  split_ifs at hsync
  · cases hsync
    exact between_remember h _ _ _
  · obtain ⟨⟨request, d⟩, hrequest, hwrite⟩ := bind_ok hsync
    replace h := h.1
    have hidle : s.drdynvc.softSyncState = .idle := by
      rw [requestReliableUdp] at hrequest
      split_ifs at hrequest with hsome hidle
      simpa using hidle
    have hmoved := h.idle.1 hidle
    have htracks := h.tracks
    rw [movedIds, hmoved] at htracks
    obtain ⟨htracks, -, hstate, hearly, hread⟩ := tracks_request htracks hrequest
    have hbefore : s.drdynvc.softSyncResponseReceived = false := by
      rw [softSyncResponseReceived, hidle]
    have hafter : d.softSyncResponseReceived = false := by rw [softSyncResponseReceived, hstate]
    have htunnel := h.held hbefore
    have hframes : FramesRead d frames := by
      have hframes := h.frames
      unfold FramesRead at hframes ⊢
      rw [hbefore] at hframes
      rw [hafter, hearly, hread]
      exact hframes
    have hinv : Inv frames { s with
        drdynvc := d
        udpTunnelTx := some toTunnel
        moved := some (toTunnel, s.drdynvc.openChannelIds) } := by
      refine ⟨htracks, ?_, hframes, ?_, ?_, fun _ => htunnel, h.flow, h.direct⟩
      · simp [hstate]
      · intro t ids hsome
        cases hsome
        exact .inl rfl
      · rw [htunnel]
        exact fun e he => absurd he not_mem_nil
    exact inv_write hinv hwrite

theorem inv_resume (hresume : s.resumeSoftSync = .ok s') : Between frames s' := by
  rw [resumeSoftSync] at hresume
  split at hresume
  · exact inv_softSync (between_remember h _ _ _) hresume
  · cases hresume
    exact h

theorem inv_multitransportResponse {requestId hrResponse : ℕ}
    (hserve : (s.onMultitransportResponse requestId hrResponse).resumeSoftSync = .ok s') :
    Between frames s' := by
  refine inv_resume ?_ hserve
  rw [onMultitransportResponse]
  split_ifs
  · exact h
  all_goals exact between_remember h _ _ _

theorem inv_softSyncToUdp {toTunnel : ℕ}
    (hserve : s.softSyncToUdp toTunnel = .ok s') : Between frames s' := by
  rw [softSyncToUdp] at hserve
  split_ifs at hserve
  · cases hserve
    exact h
  · exact inv_softSync h hserve
  · cases hserve
    exact between_remember h _ _ _

theorem inv_closeDynamicChannel {channelId : ℕ}
    (hserve : s.closeDynamicChannel channelId = .ok s') : Between frames s' := by
  have hkeeps := keeps_closeChannel s.drdynvc channelId
  rw [closeDynamicChannel] at hserve
  split at hserve
  case h_1 d hd =>
    rw [hd] at hkeeps
    cases hserve
    exact between_withDrdynvc h hkeeps
  case h_2 close d hd =>
    rw [hd] at hkeeps
    exact inv_write (inv_withDrdynvc h.1 hkeeps) hserve

end

theorem inv_start (processors : List P) (requestId : Option ℕ) :
    Between [] (start processors requestId) := by
  refine ⟨⟨⟨?_, ?_, ?_, ?_, ?_⟩, ?_, ?_, ?_, ?_, fun _ => rfl, rfl, rfl⟩, fun _ => rfl⟩
  · rw [nodup_iff_injective_getElem]
    intro i j hij
    exact Fin.ext (by simpa [start] using hij)
  · intro c hc
    obtain ⟨id, hid, rfl⟩ := mem_mapIdx.1 hc
    exact hid
  · simp [start, DrdynvcServer.new, movedIds]
  · simp [start, movedIds]
  · simp [start, movedIds]
  · simp [start, DrdynvcServer.new]
  · exact ⟨rfl, rfl⟩
  · simp [start]
  · simp [start]

theorem inv_usbDevice {channelId : ℕ} {messages : List Bytes} {retract : Bool}
    (h : Between frames s) (hserve : s.usbDevice channelId messages retract = .ok s') :
    Between frames s' := by
  by_cases hopened : s.drdynvc.isChannelOpened channelId = true
  · rw [usbDevice, if_pos hopened] at hserve
    obtain ⟨pdus, -, hserve⟩ := bind_ok hserve
    have hclose := keeps_closeChannel s.drdynvc channelId
    split_ifs at hserve
    · split at hserve
      · cases hserve
      · rename_i close d hd
        rw [hd] at hclose
        exact inv_write (inv_withDrdynvc h.1 hclose) hserve
    · exact inv_write h.1 hserve
  · rw [usbDevice, if_neg hopened] at hserve
    cases hserve
    exact h

section processors

variable [DvcProcessor P]

/-- **The frames that waited are read when the answer comes.** -/
theorem inv_response {tunnels : List SoftSyncTunnelType} {resp : List ServerPdu}
    (h : Inv frames s) (hresponse : s.drdynvc.processSoftSyncResponse tunnels = .ok (resp, d)) :
    Inv frames (s.withDrdynvc d) := by
  rw [processSoftSyncResponse] at hresponse
  split at hresponse
  · cases hresponse
    exact h
  · cases hresponse
    exact h
  · rename_i requested hstate
    split_ifs at hresponse
    have hkeeps := keeps_readTunnelFrames hresponse
    have hbefore : s.drdynvc.softSyncResponseReceived = false := by
      rw [softSyncResponseReceived, hstate]
    have hafter : d.softSyncResponseReceived = true := by
      rw [hkeeps.received]
      rfl
    have hframes := h.frames
    rw [FramesRead, hbefore] at hframes
    obtain ⟨hearly, hread⟩ := hframes
    refine ⟨hkeeps.tracks _ (h.tracks.congr rfl rfl rfl), ?_, ?_, h.tx, h.oneTunnel, ?_, h.flow,
      h.direct⟩
    · rw [withDrdynvc, hkeeps.state]
      constructor
      · exact nofun
      · intro hmoved
        rw [h.idle.2 hmoved] at hstate
        cases hstate
    · rw [FramesRead, withDrdynvc, hafter]
      refine ⟨hkeeps.early, ?_⟩
      rw [hkeeps.read, hread, hearly]
      rfl
    · rw [withDrdynvc, hafter]
      intro hnot
      cases hnot

theorem inv_tunnelFrame {resp : List ServerPdu} (h : Between frames s)
    (htunnel : s.drdynvc.processTunnel frame = .ok (resp, d)) :
    Between (frames ++ [frame]) (s.withDrdynvc d) := by
  obtain ⟨h, hflushed⟩ := h
  have hframes := h.frames
  rw [processTunnel] at htunnel
  split_ifs at htunnel with hreceived hfull
  · have hkeeps := keeps_readTunnelFrame htunnel
    rw [FramesRead, hreceived] at hframes
    obtain ⟨hearly, hread⟩ := hframes
    refine ⟨⟨hkeeps.tracks _ h.tracks, ?_, ?_, h.tx, h.oneTunnel, ?_, h.flow, h.direct⟩,
      fun _ => hflushed hreceived⟩
    · rw [withDrdynvc, hkeeps.state]
      exact h.idle
    · rw [FramesRead, withDrdynvc, hkeeps.received, hreceived]
      exact ⟨hkeeps.early.trans hearly, by rw [hkeeps.read, hread]⟩
    · rw [withDrdynvc, hkeeps.received]
      exact h.held
  · cases htunnel
    rw [FramesRead, if_neg hreceived] at hframes
    obtain ⟨hearly, hread⟩ := hframes
    refine ⟨{ h with tracks := h.tracks.congr rfl rfl rfl, frames := ?_ }, hflushed⟩
    refine (if_neg hreceived).mpr ⟨?_, hread⟩
    exact congrArg (· ++ [frame]) hearly

theorem inv_drdynvcPdu {payload : Bytes} (h : Inv frames s)
    (hserve : s.handleDrdynvc payload = .ok s') : Between frames s' := by
  obtain ⟨⟨resp, d⟩, hprocess, hserve⟩ := bind_ok hserve
  obtain ⟨s₁, hwrite, hserve⟩ := bind_ok hserve
  obtain ⟨s₂, hflush, hresume⟩ := bind_ok hserve
  have hprocessed : Inv frames (s.withDrdynvc d) := by
    rcases keeps_process hprocess with hkeeps | ⟨tunnels, hresponse⟩
    · exact inv_withDrdynvc h hkeeps
    · exact inv_response h hresponse
  exact inv_resume (inv_flush (inv_write hprocessed hwrite).1 hflush) hresume

theorem inv_openDynamicChannel {build : ℕ → P} (h : Between frames s)
    (hserve : s.openDynamicChannel build = .ok s') : Between frames s' := by
  obtain ⟨⟨request, d⟩, hcreate, hserve⟩ := bind_ok hserve
  have hkeeps := keeps_createChannel hcreate
  cases request with
  | none =>
    cases hserve
    exact between_withDrdynvc h hkeeps
  | some request => exact inv_write (inv_withDrdynvc h.1 hkeeps) hserve

theorem inv_udpTunnelData (h : Between frames s)
    (hserve : s.udpTunnelData frame = .ok s') : Between (frames ++ [frame]) s' := by
  obtain ⟨⟨resp, d⟩, htunnel, hserve⟩ := bind_ok hserve
  have hnext := inv_tunnelFrame h htunnel
  dsimp only at hserve
  split_ifs at hserve
  · cases hserve
    exact hnext
  · exact inv_write hnext.1 hserve

theorem inv_serve {st : Step P} (h : Between frames s) (hserve : s.serve st = .ok s') :
    Between (frames ++ tunnelFrames [st]) s' := by
  have quiet (hinv : Between frames s') (hst : tunnelFrames [st] = []) :
      Between (frames ++ tunnelFrames [st]) s' := by
    rw [hst, append_nil]
    exact hinv
  cases st with
  | drdynvcPdu payload => exact quiet (inv_drdynvcPdu h.1 hserve) rfl
  | multitransportResponse requestId hrResponse =>
    exact quiet (inv_multitransportResponse h hserve) rfl
  | otherPdu => exact quiet (inv_resume h hserve) rfl
  | softSyncToUdp toTunnel => exact quiet (inv_softSyncToUdp h hserve) rfl
  | openDynamicChannel build => exact quiet (inv_openDynamicChannel h hserve) rfl
  | closeDynamicChannel channelId => exact quiet (inv_closeDynamicChannel h hserve) rfl
  | udpTunnelClosed =>
    refine quiet ?_ rfl
    rw [serve, udpTunnelClosed] at hserve
    split_ifs at hserve
    cases hserve
    obtain ⟨h, hflushed⟩ := h
    exact ⟨{ h with tx := fun _ _ _ => .inr rfl },
      hflushed⟩
  | udpTunnelData frame => exact inv_udpTunnelData h hserve
  | echo channelId request =>
    refine quiet ?_ rfl
    rw [serve, echo] at hserve
    split_ifs at hserve
    · obtain ⟨pdus, -, hserve⟩ := bind_ok hserve
      exact inv_write h.1 hserve
    · cases hserve
      exact h
  | usbDevice channelId messages retract => exact quiet (inv_usbDevice h hserve) rfl
  | egfx channelId messages isCurrent =>
    refine quiet ?_ rfl
    obtain ⟨pdus, -, hserve⟩ := bind_ok hserve
    split_ifs at hserve
    · exact inv_write h.1 hserve
    · cases hserve
      exact h
  | processorChanges channelId processor =>
    cases hserve
    exact quiet (between_withDrdynvc h (keeps_modify s.drdynvc channelId fun c => rfl)) rfl
  | pumpEnds tunnel =>
    cases hserve
    exact quiet (between_remember h _ _ _) rfl

theorem inv_after {processors : List P} {requestId : Option ℕ} {steps : List (Step P)}
    {s : RdpServer P} (h : after processors requestId steps = .ok s) :
    Between (tunnelFrames steps) s := by
  induction steps using reverseRecOn generalizing s with
  | nil =>
    cases h
    exact inv_start processors requestId
  | append_singleton steps st ih =>
    rw [after, foldlM_append] at h
    obtain ⟨s₀, hsteps, hst⟩ := bind_ok h
    simp only [foldlM_cons, foldlM_nil, bind_pure] at hst
    rw [tunnelFrames, filterMap_append]
    exact inv_serve (ih hsteps) hst

end processors

end

/-! ### The result -/

/-- The promise, after some steps without an error. Every run before it is one too, so that this is
said of every moment. -/
structure SoftSynced (steps : List (Step P)) (s : RdpServer P) : Prop where
  /-- no tunnel frame is read before the answer -/
  waiting : s.drdynvc.softSyncResponseReceived = false → s.drdynvc.readFrames = []
  /-- those that came so far have then been read, each once and in their order -/
  reading : s.drdynvc.softSyncResponseReceived = true → s.drdynvc.readFrames = tunnelFrames steps
  held : s.drdynvc.softSyncResponseReceived = false → s.tunnel = []
  sent : s.drdynvc.softSyncResponseReceived = true → s.tunnelBacklog = []
  oneTunnel : ∀ e ∈ s.tunnel, ∃ ids, s.moved = some (e.1, ids)
  /-- the data of the moved channels, each once and in its order -/
  moved : (s.tunnel.map Prod.snd ++ s.tunnelBacklog).map some =
    (s.handed.filter moved).map fun e => e.pdu.encode
  /-- everything else -/
  others : s.tcp = (s.handed.filter fun e => !e.moved).map pdu

section result

variable [DvcProcessor P] {processors : List P} {requestId : Option ℕ} {steps : List (Step P)}
  {s : RdpServer P}

/-- **The hand-over keeps its promise exactly in the runs that write no data of a moved channel
after the channel was closed.** -/
theorem softSynced_iff (h : after processors requestId steps = .ok s) :
    (∀ e ∈ s.handed, e.moved = true → e.opened = true) ↔ SoftSynced steps s := by
  obtain ⟨hinv, hflushed⟩ := inv_after h
  constructor
  · intro hopen
    have hsame : ∀ e ∈ s.handed, tunneled e = e.moved := by
      intro e he
      rw [tunneled]
      cases hmoved : e.moved with
      | false => rfl
      | true => exact hopen e he hmoved
    have hframes := hinv.frames
    refine ⟨fun hnot => ?_, fun hyes => ?_, hinv.held, hflushed, hinv.oneTunnel, ?_, ?_⟩
    · rw [FramesRead, hnot] at hframes
      exact hframes.2
    · rw [FramesRead, hyes] at hframes
      exact hframes.2
    · rw [hinv.flow, filter_congr hsame]
    · rw [hinv.direct, filter_congr fun e he => by rw [hsame e he]]
  · intro hsync e he hmoved
    -- as many messages are written to the main connection as there are others
    have hsub : (s.handed.filter fun e => !e.moved).Sublist
        (s.handed.filter fun e => !tunneled e) := by
      apply monotone_filter_right
      intro e hnot
      have hnot : e.moved = false := by simpa using hnot
      rw [tunneled, hnot]
      rfl
    have hlength : (s.handed.filter fun e => !e.moved).length =
        (s.handed.filter fun e => !tunneled e).length := by
      have htcp := congrArg List.length (hsync.others.symm.trans hinv.direct)
      simpa using htcp
    have hall := hsub.eq_of_length hlength
    by_contra hclosed
    have hmem : e ∈ s.handed.filter fun e => !tunneled e := by
      rw [mem_filter, tunneled, Bool.eq_false_iff.2 hclosed, Bool.and_false]
      exact ⟨he, rfl⟩
    rw [← hall, mem_filter] at hmem
    simp [hmoved] at hmem

end result

structure Quiet where

instance : DvcProcessor Quiet where
  channelName _ := []
  start p _ := .ok ([], p)
  process p _ _ := .ok ([], p)
  close p _ := p
  closeRequested _ := false

def movedRun : List (Step Quiet) :=
  [.drdynvcPdu [0x50, 0, 2, 0], .openDynamicChannel fun _ => Quiet.mk,
    .drdynvcPdu [0x10, 0, 0, 0, 0, 0], .multitransportResponse 1 0, .softSyncToUdp 7]

def answeredRun : List (Step Quiet) :=
  movedRun ++ [.usbDevice 0 [[1]] false, .udpTunnelData [0x30, 0, 2],
    .drdynvcPdu [0x90, 0, 1, 0, 0, 0, 1, 0, 0, 0], .usbDevice 0 [[3]] false]

theorem softSynced_answeredRun :
    ∃ s, after [] (some 1) answeredRun = .ok s ∧ s.tunnel.length = 2 ∧
      SoftSynced answeredRun s := by
  have hrun : after [] (some 1) answeredRun = .ok _ := rfl
  exact ⟨_, hrun, rfl, (softSynced_iff hrun).1 (by decide)⟩

def retractRun : List (Step Quiet) := movedRun ++ [.usbDevice 0 [[1]] true]

/-- **Counterexample.** The retraction is data of the moved channel, and is written to the main
connection: the channel is closed before its message is routed. -/
theorem retraction_written_to_tcp :
    ∃ s, after [] (some 1) retractRun = .ok s ∧ ¬SoftSynced retractRun s := by
  refine ⟨_, rfl, fun h => ?_⟩
  have hothers := h.others
  revert hothers
  decide

end Linrdp.Dvc.SoftSync
