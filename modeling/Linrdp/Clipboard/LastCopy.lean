import Linrdp.Clipboard.Fetch

/-!
# The last copy is the one that is published

`delivered_right`: as long as a list whose data is asked for comes with no other request under way,
what is delivered is what the client copied last, as the kind it was requested as, and a response to
an earlier copy's request is dropped. The invariant is that there is at most one request under way,
and that it is the awaited one or nothing is awaited.
-/

namespace Linrdp.Clipboard.Fetch

open List Lib.Runs State Option

structure Inv (d : Decoders) (contents : Contents) (s : State) : Prop where
  right : Right d contents s
  last : s.backend.Last
  remote : s.channel.remoteFileListFormatId = fileGroupDescriptorW s.current
  one : s.outstanding.length ≤ 1
  asked : ∀ q ∈ s.outstanding,
    (q.copy = s.copies.length ∧ s.copies ≠ [] ∧
      Awaits s.current (contents s.copies.length) s.backend q.wanted q.format) ∨
    (q.copy < s.copies.length ∧ s.backend.incoming = none ∧ fileGroupDescriptorW s.current = none)
  pending : ∀ q ∈ s.sent, q.copy = s.copies.length →
    s.channel.pendingFormatDataRequest = some q.format

section system

variable {d : Decoders} {contents : Contents} {s : State}

theorem inv_start : Inv d contents start where
  right := nofun
  last := last_of_none rfl
  remote := rfl
  one := Nat.zero_le 1
  asked := nofun
  pending := nofun

theorem Right.append {s' : State} (h : Right d contents s) (formats : List ClipboardFormat)
    (hcopies : s'.copies = s.copies ++ [formats]) (hsame : s'.delivered = s.delivered) :
    Right d contents s' := by
  intro p hp
  rw [hsame] at hp
  obtain ⟨formats', hget, hrendered⟩ := h p hp
  exact ⟨formats', hcopies ▸ getElem?_append_of_eq_some hget _, hrendered⟩

theorem getElem?_current (h : s.copies ≠ []) : s.copies[s.copies.length - 1]? = some s.current := by
  unfold current
  rw [← getLast?_eq_getElem?, getLast?_eq_getLast_of_ne_nil h, getLastD_eq_getLast?,
    getLast?_eq_getLast_of_ne_nil h]
  rfl

@[simp] theorem ask_none (s : State) : s.ask none = s := by simp [ask, requests]

@[simp] theorem deliver_none (s : State) : s.deliver none = s := by simp [deliver]

theorem Inv.deliver (h : Inv d contents s) {delivery : Option Delivery}
    (hd : ∀ x ∈ delivery, s.copies ≠ [] ∧ rendered d s.current (contents s.copies.length) = some x)
    : Inv d contents (s.deliver delivery) := by
  refine { h with right := forall_mem_append.2 ⟨h.right, forall_mem_map.2 fun x hx => ?_⟩ }
  obtain ⟨hne, hrendered⟩ := hd x (mem_toList.1 hx)
  exact ⟨s.current, getElem?_current hne, hrendered⟩

structure Idle (d : Decoders) (contents : Contents) (s : State) : Prop where
  right : Right d contents s
  last : s.backend.Last
  remote : s.channel.remoteFileListFormatId = fileGroupDescriptorW s.current
  quiet : s.outstanding = []

theorem Idle.inv (h : Idle d contents s) : Inv d contents s where
  right := h.right
  last := h.last
  remote := h.remote
  one := by rw [h.quiet]; exact Nat.zero_le 1
  asked := fun q hq => by rw [h.quiet] at hq; cases hq
  pending := fun q hq => by
    have hmem : q ∈ s.outstanding := mem_append_right _ hq
    rw [h.quiet] at hmem
    cases hmem

theorem Idle.forgetRequest (h : Idle d contents s) : Idle d contents s.forgetRequest :=
  { h with }

theorem Idle.ask (h : Idle d contents s) {paste : Option Paste}
    (hpaste : ∀ p ∈ paste, s.copies ≠ [] ∧
      Awaits s.current (contents s.copies.length) s.backend p.wanted p.format) :
    Inv d contents (s.ask paste) := by
  have hempty : s.queue = [] ∧ s.deferred = [] ∧ s.sent = [] := by
    simpa [outstanding, and_assoc] using h.quiet
  obtain ⟨hqueue, hdeferred, hsent⟩ := hempty
  have hout : (s.ask paste).outstanding = s.requests paste false ++ s.requests paste true := by
    simp [State.outstanding, State.ask, hqueue, hdeferred, hsent]
  cases paste with
  | none =>
    refine Idle.inv { h with quiet := ?_ }
    rw [hout]
    rfl
  | some p =>
    have hone : (s.ask (some p)).outstanding = [⟨s.copies.length, p.wanted, p.format⟩] := by
      rw [hout]
      unfold requests
      cases hd : p.deferred <;> simp [Option.filter, hd]
    refine ⟨h.right, h.last, h.remote, by rw [hone]; exact Nat.le_refl 1, fun q hq => ?_,
      fun q hq => ?_⟩
    · rw [hone] at hq
      obtain rfl := mem_singleton.1 hq
      exact .inl ⟨rfl, hpaste p rfl⟩
    · have hq' : q ∈ s.sent := hq
      rw [hsent] at hq'
      cases hq'

section

variable (h : Inv d contents s)
include h

theorem inv_formatList (formats : List ClipboardFormat) (hold : Bool)
    (hset : Settled s (.formatList formats hold)) : Inv d contents (s.formatList formats hold) := by
  unfold formatList
  dsimp only
  have hcurrent : (s.copies ++ [formats]).getLastD [] = formats := by simp
  have hremote : fileGroupDescriptorW formats = fileGroupDescriptorW
      ((s.copies ++ [formats]).getLastD []) := by
    rw [hcurrent]
  cases hpaste : (s.backend.onRemoteCopy formats hold).2 with
  | none =>
    obtain ⟨hincoming, hlist⟩ := onRemoteCopy_none hpaste
    have hbelow : ∀ q ∈ s.outstanding, q.copy < (s.copies ++ [formats]).length := by
      intro q hq
      rw [length_append, length_singleton]
      rcases h.asked q hq with ⟨hcopy, -⟩ | ⟨hcopy, -⟩ <;> omega
    rw [ask_none]
    refine ⟨h.right.append formats rfl rfl, last_onRemoteCopy s.backend, hremote, h.one,
      fun q hq => .inr ⟨hbelow q hq, hincoming, hremote.symm.trans hlist⟩, fun q hq hcopy => ?_⟩
    have := hbelow q (mem_append_right _ hq)
    exact absurd hcopy (Nat.ne_of_lt this)
  | some p =>
    apply Idle.ask
    · exact ⟨h.right.append formats rfl rfl, last_onRemoteCopy s.backend, hremote,
        hset (wants_of_some hpaste)⟩
    · intro p' hp'
      obtain rfl := some.inj hp'
      refine ⟨fun hnil => by simp at hnil, ?_⟩
      show Awaits ((s.copies ++ [formats]).getLastD []) _ _ _ _
      rw [hcurrent]
      exact awaits_onRemoteCopy s.backend _ hpaste

theorem inv_fire (i : ℕ) : Inv d contents (step d contents s (.fire i)) := by
  unfold step
  dsimp only
  cases hget : s.deferred[i]? with
  | none => exact h
  | some q =>
    obtain ⟨hlt, hq⟩ := List.getElem?_eq_some_iff.1 hget
    have hmem : ∀ q', q' ∈ (s.queue ++ [q]) ++ s.deferred.eraseIdx i ++ s.sent →
        q' ∈ s.outstanding := by
      intro q' hq'
      simp only [mem_append, mem_singleton, outstanding] at hq' ⊢
      rcases hq' with ((hq' | rfl) | hq') | hq'
      · exact .inl (.inl hq')
      · exact .inl (.inr (mem_of_getElem? hget))
      · exact .inl (.inr (mem_of_mem_eraseIdx hq'))
      · exact .inr hq'
    have hlen : ((s.queue ++ [q]) ++ s.deferred.eraseIdx i ++ s.sent).length =
        s.outstanding.length := by
      have := length_eraseIdx_of_lt hlt
      simp only [length_append, length_singleton, outstanding]
      omega
    exact { h with one := hlen ▸ h.one, asked := fun q' hq' => h.asked q' (hmem q' hq') }

theorem Inv.alone_queue {q : Request} {rest : List Request}
    (hq : s.queue = q :: rest) : rest = [] ∧ s.deferred = [] ∧ s.sent = [] := by
  have hone := h.one
  simp only [outstanding, hq, length_append, length_cons] at hone
  refine ⟨length_eq_zero_iff.1 ?_, length_eq_zero_iff.1 ?_, length_eq_zero_iff.1 ?_⟩ <;>
    omega

theorem Inv.alone_sent {q : Request} {rest : List Request}
    (hq : s.sent = q :: rest) : s.queue = [] ∧ s.deferred = [] ∧ rest = [] := by
  have hone := h.one
  simp only [outstanding, hq, length_append, length_cons] at hone
  refine ⟨length_eq_zero_iff.1 ?_, length_eq_zero_iff.1 ?_, length_eq_zero_iff.1 ?_⟩ <;>
    omega

theorem inv_send : Inv d contents (step d contents s .send) := by
  unfold step
  dsimp only
  cases hqueue : s.queue with
  | nil => exact h
  | cons q rest =>
    obtain ⟨rfl, hdeferred, hsent⟩ := h.alone_queue hqueue
    have hout : [] ++ s.deferred ++ (s.sent ++ [q]) = s.outstanding := by
      simp [outstanding, hqueue, hdeferred, hsent]
    dsimp only
    refine ⟨h.right, h.last, h.remote, ?_, fun q' hq' => ?_, fun q' hq' _ => ?_⟩
    · show ([] ++ s.deferred ++ (s.sent ++ [q])).length ≤ 1
      rw [hout]
      exact h.one
    · have hmem : q' ∈ [] ++ s.deferred ++ (s.sent ++ [q]) := hq'
      rw [hout] at hmem
      exact h.asked q' hmem
    · have hmem : q' ∈ s.sent ++ [q] := hq'
      rw [hsent, nil_append, mem_singleton] at hmem
      rw [hmem]

end

theorem isFileListResponse_none (h : s.channel.remoteFileListFormatId = none) (data : Option Bytes)
    : s.isFileListResponse d data = false := by
  unfold isFileListResponse
  rw [h]
  cases s.channel.pendingFormatDataRequest <;> simp

theorem toBackend_unawaited (h : s.backend.incoming = none) (data : Option Bytes) :
    s.toBackend d data = s := by
  unfold toBackend Backend.onFormatDataResponse
  rw [h]
  dsimp only
  rw [ask_none, deliver_none]

theorem response_unawaited (hincoming : s.backend.incoming = none)
    (hremote : s.channel.remoteFileListFormatId = none) (data : Option Bytes) :
    s.response d data = s.forgetRequest := by
  have hbackend : s.forgetRequest.backend.incoming = none := hincoming
  unfold response
  rw [isFileListResponse_none hremote, if_neg Bool.false_ne_true, toBackend_unawaited hbackend]

theorem inv_toBackend (h : Idle d contents s) (hne : s.copies ≠ []) {kind : IncomingKind}
    {format : FormatId}
    (hawaits : Awaits s.current (contents s.copies.length) s.backend (.kind kind) format) :
    Inv d contents (s.toBackend d (contents s.copies.length format)) := by
  obtain ⟨hdeliver, hpaste⟩ := onFormatDataResponse_awaits (d := d) h.last hawaits
  have hidle : Idle d contents
      { s with backend := (s.backend.onFormatDataResponse d (contents s.copies.length format)).1
        } :=
    { h with last := last_onFormatDataResponse _ h.last }
  refine (hidle.ask fun p hp => ⟨hne, hpaste p hp⟩).deliver fun x hx => ?_
  exact ⟨hne, hdeliver x hx⟩

theorem inv_response (h : Idle d contents s) (hne : s.copies ≠ []) {wanted : Wanted}
    {format : FormatId} (hpending : s.channel.pendingFormatDataRequest = some format)
    (hawaits : Awaits s.current (contents s.copies.length) s.backend wanted format) :
    Inv d contents (s.response d (contents s.copies.length format)) := by
  cases wanted with
  | kind k =>
    have hlist : fileGroupDescriptorW s.current = none := by
      cases k <;> exact hawaits.2.1
    unfold response
    rw [isFileListResponse_none (h.remote.trans hlist), if_neg Bool.false_ne_true]
    exact inv_toBackend h.forgetRequest hne hawaits
  | fileList =>
    obtain ⟨hincoming, hlist⟩ := hawaits
    have hbackend : s.forgetRequest.backend.incoming = none := hincoming
    unfold response
    split_ifs with hdata
    · refine h.forgetRequest.inv.deliver fun x hx => ⟨hne, ?_⟩
      obtain ⟨data, hget, rfl⟩ := map_eq_some_iff.1 hx
      have hfile : d.isFileList data = true := by
        simpa [isFileListResponse, hpending, h.remote, hlist, hget] using hdata
      show rendered d s.current (contents s.copies.length) = _
      unfold rendered
      rw [hlist]
      dsimp only
      rw [hget, bind_some, if_pos hfile]
    · rw [toBackend_unawaited hbackend]
      exact h.forgetRequest.inv

theorem inv_respond (h : Inv d contents s) : Inv d contents (step d contents s .respond) := by
  unfold step
  dsimp only
  cases hsent : s.sent with
  | nil => exact h
  | cons q rest =>
    obtain ⟨hqueue, hdeferred, rfl⟩ := h.alone_sent hsent
    have hq : q ∈ s.sent := by rw [hsent]; exact mem_singleton_self q
    have hidle : Idle d contents { s with sent := [] } :=
      { h with quiet := by simp [outstanding, hqueue, hdeferred] }
    dsimp only
    rcases h.asked q (mem_append_right _ hq) with ⟨hcopy, hne, hawaits⟩ | ⟨-, hincoming, hlist⟩
    · rw [hcopy]
      exact inv_response hidle hne (h.pending q hq hcopy) hawaits
    · have hremote := h.remote.trans hlist
      rw [response_unawaited (s := { s with sent := [] }) hincoming hremote]
      exact hidle.forgetRequest.inv

theorem inv_step (h : Inv d contents s) (e : Event) (hset : Settled s e) :
    Inv d contents (step d contents s e) := by
  cases e with
  | formatList formats hold => exact inv_formatList h formats hold hset
  | fire i => exact inv_fire h i
  | send => exact inv_send h
  | respond => exact inv_respond h

theorem drops_of_inv (h : Inv d contents s) (e : Event) : Drops d contents s e := by
  cases e with
  | formatList | fire | send => trivial
  | respond =>
    intro q hq hcopy
    obtain ⟨rest, hsent⟩ : ∃ rest, s.sent = q :: rest := head?_eq_some_iff.1 hq
    have hmem : q ∈ s.outstanding := by simp [outstanding, hsent]
    rcases h.asked q hmem with ⟨hcurrent, -⟩ | ⟨-, hincoming, hlist⟩
    · exact absurd hcurrent hcopy
    · unfold step
      rw [hsent]
      dsimp only
      have hremote := h.remote.trans hlist
      rw [response_unawaited (s := { s with sent := rest }) hincoming hremote]
      exact ⟨rfl, rfl⟩

end system

def firstByte : Decoders where
  text data := if data = [1] then "first" else "second"
  dibToPng _ := none
  dibToBmp _ := none
  isFileList _ := false

/-- The client's copies: each format of copy `n` is the byte `n` after the signature of a PNG, and
the text is the byte alone. -/
def numbered : Contents := fun n format =>
  some (if format = cfUnicodeText then [.ofNat n] else pngMagic ++ [.ofNat n])

def textList : List ClipboardFormat := [⟨cfUnicodeText, none⟩]

def pngList : List ClipboardFormat := [⟨49000, some "PNG"⟩]

def inTurn : List Event :=
  [.formatList textList false, .send, .respond, .formatList pngList true, .fire 0, .send, .respond]

def overtaken : List Event :=
  [.formatList textList false, .send, .formatList textList false, .send, .respond]

def putOff : List Event :=
  [.formatList pngList true, .formatList pngList true, .fire 0, .send, .respond]

end Linrdp.Clipboard.Fetch
