import Linrdp.Dvc.Lives

/-!
# Messages that crossed the close of their channel

The server closes a channel, and the client has messages of it on their way. From the tunnel such
data is dropped. On the main connection a Close for a channel that is gone does nothing, but data is
an error (`process_data_gone`), which ends the connection. So a run behind the close is spared
exactly if no data of the channel comes on the main connection any more (`spares_iff`).
-/

namespace Linrdp.Dvc.Closing

open Dvc.Pdu Dvc.Server Dvc.SoftSync Dvc.Transport Dvc.Lifecycle
open Lib.Runs DrdynvcServer ClientPdu

variable {P : Type}

def IsData (id : ℕ) (op : Op P) : Prop :=
  ∃ payload pdu, op = .message payload ∧ decode payload = some (.data pdu) ∧
    DataPdu.channelId pdu = id

def IsClose (id : ℕ) (op : Op P) : Prop :=
  ∃ payload, op = .message payload ∧ decode payload = some (.close id)

section

variable [DvcProcessor P] {d : DrdynvcServer P} {id : ℕ}

/-- A message is handled without an error, an answer, a call or a change of another channel. -/
def Unharmed (id : ℕ) (d : DrdynvcServer P) (payload : Bytes) : Prop :=
  ∃ d', d.process payload = .ok ([], d') ∧ d'.calls = d.calls ∧
    ∀ other, other ≠ id → d'.get other = d.get other

def Spares (id : ℕ) (s : Life P) (op : Op P) : Prop :=
  ∀ payload, op = .message payload → IsData id op ∨ IsClose id op → Unharmed id s.server payload

/-! ### A channel that is gone -/

theorem process_close_gone (hgone : d.get id = none) {payload : Bytes}
    (hdecode : decode payload = some (.close id)) : Unharmed id d payload := by
  refine ⟨d.removeByChannelId id, ?_, ?_, fun other hother => ?_⟩
  · rw [process, hdecode]
  · have hopened : ¬d.isChannelOpened id = true := by
      rw [isChannelOpened_iff_state, hgone]
      simp
    rw [removeByChannelId]
    exact if_neg hopened
  · rw [get_remove, if_neg hother]

theorem spares_iff_of_gone {s : Life P} (hgone : s.server.get id = none) (op : Op P) :
    Spares id s op ↔ ¬IsData id op := by
  constructor
  · rintro h ⟨payload, pdu, rfl, hdecode, hid⟩
    obtain ⟨d', hok, -⟩ := h payload rfl (.inl ⟨payload, pdu, rfl, hdecode, hid⟩)
    rw [process, hdecode] at hok
    dsimp only at hok
    rw [processData, hid, hgone] at hok
    cases hok
  · rintro hdata payload rfl (h | ⟨_, hop, hdecode⟩)
    · exact absurd h hdata
    · cases hop
      exact process_close_gone hgone hdecode

/-! ### Runs behind the close -/

theorem gone_of_closed (spoil : P → P) (ops : List (Op P)) {id : ℕ}
    (hclosed : 0 < closesOf id (run (step spoil) start ops).sent) :
    (run (step spoil) start ops).server.get id = none := by
  have hphase := (inv_run spoil ops).phase id
  have hstate : ((run (step spoil) start ops).view id).state = none := by
    generalize hv : (run (step spoil) start ops).view id = v at hphase
    have hcloses : v.closes = closesOf id (run (step spoil) start ops).sent := by rw [← hv]; rfl
    cases hphase with
    | waiting hR h | opened hC hR h | failed hR h => exact absurd hcloses (by simp only; omega)
    | cancelled hC hR | closed hC hR h hn => rfl
  exact Option.map_eq_none_iff.1 hstate

theorem closesOf_step (spoil : P → P) (s : Life P) (op : Op P) (id : ℕ) :
    closesOf id s.sent ≤ closesOf id (step spoil s op).sent := by
  have hsent : ∃ more, (step spoil s op).sent = s.sent ++ more := by
    have hnone : ∃ more, s.sent = s.sent ++ more := ⟨[], (List.append_nil _).symm⟩
    unfold step
    split
    · split
      · exact ⟨_, rfl⟩
      · exact hnone
    · split <;> exact hnone
    · exact ⟨_, rfl⟩
    · split
      · exact ⟨_, rfl⟩
      · exact hnone
    iterate 2
      · unfold Life.settle
        split
        · exact ⟨_, rfl⟩
        · exact hnone
    · exact hnone
  obtain ⟨more, hmore⟩ := hsent
  rw [hmore, closesOf_append]
  omega

/-- **Closing a channel.** Once the server has closed a channel, whatever happens on the connection
then, the messages of the channel that still come on the main connection do no harm exactly if none
of them is data. -/
theorem spares_iff (spoil : P → P) (ops rest : List (Op P)) (id : ℕ)
    (hclosed : 0 < closesOf id (run (step spoil) start ops).sent) :
    Along (step spoil) (Spares id) (run (step spoil) start ops) rest ↔ ∀ op ∈ rest,
    ¬IsData id op := by
  induction rest generalizing ops with
  | nil => simp
  | cons op rest ih =>
    have hstep : run (step spoil) start (ops ++ [op]) = step spoil (run (step spoil) start ops)
        op := by
      rw [run_append, run_cons, run_nil]
    have hrest := ih (ops ++ [op]) (by
      rw [hstep]
      exact hclosed.trans_le (closesOf_step spoil _ op id))
    rw [hstep] at hrest
    rw [along_cons, spares_iff_of_gone (gone_of_closed spoil ops hclosed), hrest,
      List.forall_mem_cons]

end

/-! ### A microphone that is closed while it streams -/

def closedRun : List (Op Quiet) :=
  [.message [0x50, 0, 2, 0], .create fun _ => Quiet.mk, .message [0x10, 0, 0, 0, 0, 0], .close 0]

/-- A Close of the client that crosses that of the server does no harm. -/
theorem spares_client_close :
    0 < closesOf 0 (run (step id) start closedRun).sent ∧
      Along (step id) (Spares 0) (run (step id) start closedRun) [.message [0x40, 0]] := by
  have hclosed : 0 < closesOf 0 (run (step id) start closedRun).sent := by decide
  refine ⟨hclosed, (spares_iff id closedRun [.message [0x40, 0]] 0 hclosed).2 fun op hop => ?_⟩
  rintro ⟨payload, pdu, rfl, hdecode, -⟩
  cases List.mem_singleton.1 hop
  rw [show decode [0x40, 0] = some (.close 0) by decide] at hdecode
  cases hdecode

/-- **Counterexample.** One piece of data, which the client sent before it saw the Close of its
channel, ends the connection. -/
theorem connection_ended_by_data :
    (∃ s, after [] none
        [.drdynvcPdu [0x50, 0, 2, 0], .openDynamicChannel fun _ => Quiet.mk,
          .drdynvcPdu [0x10, 0, 0, 0, 0, 0], .closeDynamicChannel 0] = .ok s ∧
        .newClose 0 ∈ s.tcp) ∧
      after [] none
        [.drdynvcPdu [0x50, 0, 2, 0], .openDynamicChannel fun _ => Quiet.mk,
          .drdynvcPdu [0x10, 0, 0, 0, 0, 0], .closeDynamicChannel 0,
          .drdynvcPdu [0x30, 0, 1, 2, 3]] =
        .error "invalid channel id" ∧
      ¬Along (step id) (Spares 0) (run (step id) start closedRun)
        [.message [0x30, 0, 1, 2, 3]] := by
  refine ⟨⟨_, rfl, by decide⟩, rfl, fun h => ?_⟩
  obtain ⟨d', hok, -⟩ := h.1 [0x30, 0, 1, 2, 3]
      rfl (.inl ⟨_, .data .u8 .u8 0 [1, 2, 3], rfl, by decide, rfl⟩)
  rw [show (run (step id) start closedRun).server.process [0x30, 0, 1, 2, 3] =
    .error "invalid channel id" from rfl] at hok
  cases hok

end Linrdp.Dvc.Closing
