import Linrdp.Lib.Runs
import Mathlib.Algebra.Order.Ring.Nat

/-!
# What the client copied, fetched and published

The way of a client's copy to the session's clipboard: the format list, the request for its data,
which may be put off while the session starts, and the response. The backend of `clipboard.rs` and
the channel of `ironrdp-cliprdr` both remember the last request only, and a response carries nothing
of its request; `Right` and `Drops` say what they owe the session all the same.

Requests carry the copy they are made for, which is not on the wire. The decoders of text and
bitmaps and the parser of file lists are parameters.
-/

namespace Linrdp.Clipboard.Fetch

open Lib.Runs

abbrev Bytes := List UInt8

abbrev FormatId := ℕ

structure ClipboardFormat where
  id : FormatId
  name : Option String

def cfUnicodeText : FormatId := 13

def cfDib : FormatId := 8

def cfDibV5 : FormatId := 17

inductive IncomingKind
  | text | png | dib

inductive Wanted
  | kind (k : IncomingKind)
  | fileList

abbrev SelectionTarget := String × Bytes

structure ImageFetch where
  targets : List SelectionTarget
  dibFollowup : Option FormatId

/-- The decoders: UTF-16 text with its line ends, a bitmap as a PNG and as a BMP file, and whether
the data is a file list. -/
structure Decoders where
  text : Bytes → String
  (dibToPng dibToBmp : Bytes → Option Bytes)
  isFileList : Bytes → Bool

inductive Delivery
  | text (text : String)
  | image (targets : List SelectionTarget)
  | fileList (data : Bytes)
deriving DecidableEq

/-- `ClipboardMessage::SendInitiatePaste`, at once or by the thread that waits first. -/
structure Paste where
  format : FormatId
  wanted : Wanted
  deferred : Bool

/-! ### The backend -/

structure Backend where
  incoming : Option IncomingKind
  (incomingGen copyGeneration : ℕ)
  imageFetch : Option ImageFetch

variable (formats : List ClipboardFormat)

def named (want : String) : Option ClipboardFormat := formats.find? fun f => f.name == some want

def fileGroupDescriptorW : Option FormatId :=
  (named formats "FileGroupDescriptorW").map ClipboardFormat.id

def pngOf : Option FormatId := (named formats "PNG").map ClipboardFormat.id

def dibOf : Option FormatId := [cfDib, cfDibV5].find? fun id => formats.any fun f => f.id == id

def hasText : Bool := formats.any fun f => f.id == cfUnicodeText

namespace Backend

def new : Backend := ⟨none, 0, 0, none⟩

def expect (b : Backend) (kind : IncomingKind) : Backend :=
  { b with incoming := some kind, incomingGen := b.copyGeneration }

/-- The client copied something; `hold` says that the session has only just come up. -/
def onRemoteCopy (hold : Bool) (b : Backend) : Backend × Option Paste :=
  let b := { b with copyGeneration := (b.copyGeneration + 1) % 2 ^ 32, imageFetch := none }
  match fileGroupDescriptorW formats, pngOf formats, dibOf formats with
  | some list, _, _ => ({ b with incoming := none }, some ⟨list, .fileList, false⟩)
  | none, some png, dib =>
    ({ b with imageFetch := some ⟨[], dib⟩ }.expect .png, some ⟨png, .kind .png, hold⟩)
  | none, none, some dib =>
    ({ b with imageFetch := some ⟨[], none⟩ }.expect .dib, some ⟨dib, .kind .dib, hold⟩)
  | none, none, none =>
    if hasText formats then (b.expect .text, some ⟨cfUnicodeText, .kind .text, false⟩)
    else ({ b with incoming := none }, none)

def addTargets (b : Backend) (targets : List SelectionTarget) : Backend :=
  { b with imageFetch := b.imageFetch.map fun f => { f with targets := f.targets ++ targets } }

def finishImageFetch (b : Backend) : Backend × Option Paste × Option Delivery :=
  match b.imageFetch with
  | none => (b, none, none)
  | some fetch =>
    match fetch.dibFollowup with
    | some dib =>
      ({ b with imageFetch := some ⟨fetch.targets, none⟩ }.expect .dib,
        some ⟨dib, .kind .dib, false⟩, none)
    | none =>
      ({ b with imageFetch := none }, none,
        if fetch.targets.isEmpty then none else some (.image fetch.targets))

end Backend

open Backend Option

def pngMagic : Bytes := [0x89, 0x50, 0x4e, 0x47]

def pngTargets (data : Option Bytes) : List SelectionTarget :=
  match data with
  | none => []
  | some data => if pngMagic.isPrefixOf data then [("image/png", data)] else []

variable (d : Decoders)

def dibTargets (data : Option Bytes) : List SelectionTarget :=
  match data with
  | none => []
  | some data =>
    ((d.dibToPng data).map fun png => ("image/png", png)).toList ++
      match d.dibToBmp data with
      | none => []
      | some bmp => [("image/bmp", bmp), ("image/x-bmp", bmp)]

def textDelivery (data : Option Bytes) : Option Delivery :=
  match data with
  | none => none
  | some data => if d.text data = "" then none else some (.text (d.text data))

def Backend.interpret (data : Option Bytes) (b : Backend) :
    IncomingKind → Backend × Option Paste × Option Delivery
  | .text => (b, none, textDelivery d data)
  | .png => (b.addTargets (pngTargets data)).finishImageFetch
  | .dib => (b.addTargets (dibTargets d data)).finishImageFetch

/-- The payload of a response, `none` if the client could not serve it. -/
def Backend.onFormatDataResponse (data : Option Bytes) (b : Backend) :
    Backend × Option Paste × Option Delivery :=
  match b.incoming with
  | none => (b, none, none)
  | some kind =>
    let b := { b with incoming := none }
    if b.incomingGen ≠ b.copyGeneration then (b, none, none) else b.interpret d data kind

/-! ### The channel and the loop -/

structure Channel where
  (pendingFormatDataRequest remoteFileListFormatId : Option FormatId)

structure Request where
  copy : ℕ
  wanted : Wanted
  format : FormatId

structure State where
  backend : Backend
  channel : Channel
  /-- the lists so far; the copies are counted from one -/
  copies : List (List ClipboardFormat)
  /-- the messages to the server's loop -/
  queue : List Request
  /-- the threads that wait before they send theirs -/
  deferred : List Request
  /-- the requests on the wire, the oldest first -/
  sent : List Request
  /-- what was delivered, with the copy that was current then -/
  delivered : List (ℕ × Delivery)

def start : State := ⟨.new, ⟨none, none⟩, [], [], [], [], []⟩

namespace State

variable (s : State)

def current : List ClipboardFormat := s.copies.getLastD []

def outstanding : List Request := s.queue ++ s.deferred ++ s.sent

def requests (paste : Option Paste) (deferred : Bool) : List Request :=
  (paste.filter fun p => p.deferred == deferred).toList.map fun p =>
    ⟨s.copies.length, p.wanted, p.format⟩

def ask (paste : Option Paste) : State :=
  { s with
    queue := s.queue ++ s.requests paste false
    deferred := s.deferred ++ s.requests paste true }

def deliver (delivery : Option Delivery) : State :=
  { s with delivered := s.delivered ++ delivery.toList.map fun x => (s.copies.length, x) }

def formatList (formats : List ClipboardFormat) (hold : Bool) : State :=
  let outcome := s.backend.onRemoteCopy formats hold
  ({ s with
    backend := outcome.1
    channel := ⟨none, fileGroupDescriptorW formats⟩
    copies := s.copies ++ [formats] }).ask outcome.2

def isFileListResponse (d : Decoders) (data : Option Bytes) : Bool :=
  s.channel.pendingFormatDataRequest.isSome &&
    s.channel.pendingFormatDataRequest == s.channel.remoteFileListFormatId && data.any d.isFileList

def forgetRequest : State :=
  { s with channel := { s.channel with pendingFormatDataRequest := none } }

def toBackend (d : Decoders) (data : Option Bytes) : State :=
  let outcome := s.backend.onFormatDataResponse d data
  (({ s with backend := outcome.1 }).ask outcome.2.1).deliver outcome.2.2

def response (d : Decoders) (data : Option Bytes) : State :=
  if s.isFileListResponse d data then s.forgetRequest.deliver (data.map .fileList)
  else s.forgetRequest.toBackend d data

end State

inductive Event
  | formatList (formats : List ClipboardFormat) (hold : Bool)
  | fire (i : ℕ)
  /-- the loop takes its next message: `initiate_paste` -/
  | send | respond

abbrev Contents := ℕ → FormatId → Option Bytes

variable (contents : Contents)

def step (s : State) : Event → State
  | .formatList formats hold => s.formatList formats hold
  | .fire i =>
    match s.deferred[i]? with
    | none => s
    | some q => { s with deferred := s.deferred.eraseIdx i, queue := s.queue ++ [q] }
  | .send =>
    match s.queue with
    | [] => s
    | q :: rest =>
      { s with
        queue := rest
        channel := { s.channel with pendingFormatDataRequest := some q.format }
        sent := s.sent ++ [q] }
  | .respond =>
    match s.sent with
    | [] => s
    | q :: rest => ({ s with sent := rest }).response d (contents q.copy q.format)

/-! ### What a copy is for the session -/

def imageDelivery (targets : List SelectionTarget) : Option Delivery :=
  if targets.isEmpty then none else some (.image targets)

def pngPart (content : FormatId → Option Bytes) : List SelectionTarget :=
  match pngOf formats with
  | none => []
  | some png => pngTargets (content png)

/-- The client's copy as the session gets it, each format decoded as the kind it is. -/
def rendered (formats : List ClipboardFormat) (content : FormatId → Option Bytes) :
    Option Delivery :=
  match fileGroupDescriptorW formats with
  | some list => (content list).bind fun data =>
      if d.isFileList data then some (.fileList data) else none
  | none =>
    match pngOf formats, dibOf formats with
    | none, none => if hasText formats then textDelivery d (content cfUnicodeText) else none
    | _, dib => imageDelivery (pngPart formats content ++ dibTargets d (dib.bind content))

/-- **What was delivered is what the client had copied last.** -/
def Right (s : State) : Prop :=
  ∀ p ∈ s.delivered, ∃ formats, s.copies[p.1 - 1]? = some formats ∧
    rendered d formats (contents p.1) = some p.2

/-- **A response to an earlier copy's request is dropped.** -/
def Drops (s : State) : Event → Prop
  | .respond => ∀ q ∈ s.sent.head?, q.copy ≠ s.copies.length →
    (step d contents s .respond).backend = s.backend ∧
      (step d contents s .respond).delivered = s.delivered
  | _ => True

/-- The list offers files, an image or text. -/
def Wants (formats : List ClipboardFormat) : Prop :=
  ∃ f ∈ formats, f.name = some "FileGroupDescriptorW" ∨ f.name = some "PNG" ∨
    f.id ∈ [cfDib, cfDibV5, cfUnicodeText]

/-- A list whose data is asked for comes with no request under way. -/
def Settled (s : State) : Event → Prop
  | .formatList formats _ => Wants formats → s.outstanding = []
  | _ => True

/-! ### The backend and one copy -/

def Awaits (content : FormatId → Option Bytes) (b : Backend) :
    Wanted → FormatId → Prop
  | .fileList, format => b.incoming = none ∧ fileGroupDescriptorW formats = some format
  | .kind .text, format => b.incoming = some .text ∧ fileGroupDescriptorW formats = none ∧
    pngOf formats = none ∧ dibOf formats = none ∧ hasText formats = true ∧ format = cfUnicodeText
  | .kind .png, format => b.incoming = some .png ∧ fileGroupDescriptorW formats = none ∧
    pngOf formats = some format ∧ b.imageFetch = some ⟨[], dibOf formats⟩
  | .kind .dib, format => b.incoming = some .dib ∧ fileGroupDescriptorW formats = none ∧
    dibOf formats = some format ∧ b.imageFetch = some ⟨pngPart formats content, none⟩

def Backend.Last (b : Backend) : Prop := b.incoming.isSome = true → b.incomingGen = b.copyGeneration

section backend

variable {d : Decoders} {formats : List ClipboardFormat} {hold : Bool} {b : Backend}
  {content : FormatId → Option Bytes}

theorem last_expect (b : Backend) (kind : IncomingKind) : (b.expect kind).Last := fun _ => rfl

theorem last_of_none (h : b.incoming = none) : b.Last := by
  intro hsome
  rw [h] at hsome
  cases hsome

theorem last_onRemoteCopy (b : Backend) : (b.onRemoteCopy formats hold).1.Last := by
  unfold onRemoteCopy
  dsimp only
  split
  · exact last_of_none rfl
  · exact last_expect _ _
  · exact last_expect _ _
  · split_ifs
    · exact last_expect _ _
    · exact last_of_none rfl

theorem awaits_onRemoteCopy (b : Backend) (content : FormatId → Option Bytes) {p : Paste}
    (h : (b.onRemoteCopy formats hold).2 = some p) :
    Awaits formats content (b.onRemoteCopy formats hold).1 p.wanted p.format := by
  unfold onRemoteCopy at h ⊢
  dsimp only at h ⊢
  split at h
  case h_1 list hlist =>
    obtain rfl := some.inj h
    exact ⟨rfl, hlist⟩
  case h_2 png hlist hpng =>
    obtain rfl := some.inj h
    exact ⟨rfl, hlist, hpng, rfl⟩
  case h_3 dib hlist hpng hdib =>
    obtain rfl := some.inj h
    refine ⟨rfl, hlist, hdib, ?_⟩
    unfold pngPart
    rw [hpng]
    rfl
  case h_4 hlist hpng hdib =>
    split_ifs at h ⊢ with htext
    obtain rfl := some.inj h
    exact ⟨rfl, hlist, hpng, hdib, htext, rfl⟩

theorem mem_of_named {want : String} {id : FormatId}
    (h : (named formats want).map ClipboardFormat.id = some id) : ∃ f ∈ formats,
    f.name = some want := by
  obtain ⟨f, hf, -⟩ := map_eq_some_iff.1 h
  exact ⟨f, List.mem_of_find?_eq_some hf, by simpa using List.find?_some hf⟩

theorem wants_of_some {p : Paste} (h : (b.onRemoteCopy formats hold).2 = some p) :
    Wants formats := by
  unfold onRemoteCopy at h
  dsimp only at h
  split at h
  case h_1 list hlist =>
    obtain ⟨f, hf, hname⟩ := mem_of_named hlist
    exact ⟨f, hf, .inl hname⟩
  case h_2 png hlist hpng =>
    obtain ⟨f, hf, hname⟩ := mem_of_named hpng
    exact ⟨f, hf, .inr (.inl hname)⟩
  case h_3 dib hlist hpng hdib =>
    have hid := List.mem_of_find?_eq_some hdib
    obtain ⟨f, hf, rfl⟩ : ∃ f ∈ formats, f.id = dib := by simpa using List.find?_some hdib
    exact ⟨f, hf, .inr (.inr (List.mem_append_left [cfUnicodeText] hid))⟩
  case h_4 hlist hpng hdib =>
    split_ifs at h with htext
    obtain ⟨f, hf, hid⟩ : ∃ f ∈ formats, f.id = cfUnicodeText := by simpa [hasText] using htext
    exact ⟨f, hf, .inr (.inr (by simp [hid]))⟩

theorem onRemoteCopy_none (h : (b.onRemoteCopy formats hold).2 = none) :
    (b.onRemoteCopy formats hold).1.incoming = none ∧ fileGroupDescriptorW formats = none := by
  unfold onRemoteCopy at h ⊢
  dsimp only at h ⊢
  split at h
  case h_1 | h_2 | h_3 => cases h
  case h_4 hlist hpng hdib =>
    split_ifs at h ⊢
    exact ⟨rfl, hlist⟩

theorem last_finishImageFetch (h : b.incoming = none) : b.finishImageFetch.1.Last := by
  unfold finishImageFetch
  split
  · exact last_of_none h
  · split
    · exact last_expect _ _
    · exact last_of_none h

theorem last_onFormatDataResponse (data : Option Bytes) (h : b.Last) :
    (b.onFormatDataResponse d data).1.Last := by
  unfold onFormatDataResponse
  split
  · exact h
  · dsimp only
    split_ifs
    · exact last_of_none rfl
    · unfold interpret
      split
      · exact last_of_none rfl
      all_goals exact last_finishImageFetch rfl

theorem onFormatDataResponse_some {kind : IncomingKind} (data : Option Bytes) (hlast : b.Last)
    (h : b.incoming = some kind) :
    b.onFormatDataResponse d data = { b with incoming := none }.interpret d data kind := by
  have hgen : b.incomingGen = b.copyGeneration := hlast (by rw [h]; rfl)
  unfold onFormatDataResponse
  rw [h]
  dsimp only
  rw [if_neg (not_not.2 hgen)]

theorem finishImageFetch_complete {t : List SelectionTarget} (h : b.imageFetch = some ⟨t, none⟩) :
    b.finishImageFetch = ({ b with imageFetch := none }, none, imageDelivery t) := by
  unfold finishImageFetch imageDelivery
  rw [h]

theorem finishImageFetch_followup {t : List SelectionTarget} {i : FormatId}
    (h : b.imageFetch = some ⟨t, some i⟩) :
    b.finishImageFetch = ({ b with imageFetch := some ⟨t, none⟩ }.expect .dib,
      some ⟨i, .kind .dib, false⟩, none) := by
  unfold finishImageFetch
  rw [h]

/-- **A response with the copy's own data** delivers the copy, or nothing, or has the backend ask
for the rest of it. -/
theorem onFormatDataResponse_awaits {kind : IncomingKind} {format : FormatId} (hlast : b.Last)
    (h : Awaits formats content b (.kind kind) format) :
    (∀ delivery ∈ (b.onFormatDataResponse d (content format)).2.2,
      rendered d formats content = some delivery) ∧
    ∀ p ∈ (b.onFormatDataResponse d (content format)).2.1,
      Awaits formats content (b.onFormatDataResponse d (content format)).1 p.wanted p.format := by
  cases kind with
  | text =>
    obtain ⟨hincoming, hlist, hpng, hdib, htext, rfl⟩ := h
    rw [onFormatDataResponse_some _ hlast hincoming, interpret]
    have hrendered : rendered d formats content = textDelivery d (content cfUnicodeText) := by
      simp [rendered, hlist, hpng, hdib, htext]
    exact ⟨fun delivery hd => hrendered.trans hd, nofun⟩
  | png =>
    obtain ⟨hincoming, hlist, hpng, hfetch⟩ := h
    rw [onFormatDataResponse_some _ hlast hincoming, interpret]
    have hpart : pngPart formats content = pngTargets (content format) := by
      unfold pngPart
      rw [hpng]
    cases hdib : dibOf formats with
    | none =>
      have hrendered : rendered d formats content = imageDelivery
          (pngTargets (content format)) := by
        simp [rendered, hlist, hpng, hdib, hpart, dibTargets]
      rw [finishImageFetch_complete (t := pngTargets (content format))
        (by simp [addTargets, hfetch, hdib])]
      exact ⟨fun delivery hd => hrendered.trans hd, nofun⟩
    | some dib =>
      rw [finishImageFetch_followup (t := pngTargets (content format)) (i := dib)
        (by simp [addTargets, hfetch, hdib])]
      refine ⟨nofun, fun p hp => ?_⟩
      obtain rfl := some.inj hp
      exact ⟨rfl, hlist, hdib, by rw [hpart]; rfl⟩
  | dib =>
    obtain ⟨hincoming, hlist, hdib, hfetch⟩ := h
    rw [onFormatDataResponse_some _ hlast hincoming, interpret]
    have hrendered : rendered d formats content =
        imageDelivery (pngPart formats content ++ dibTargets d (content format)) := by
      unfold rendered
      rw [hlist, hdib]
      cases pngOf formats <;> rfl
    rw [finishImageFetch_complete (t := pngPart formats content ++ dibTargets d (content format))
      (by simp [addTargets, hfetch])]
    exact ⟨fun delivery hd => hrendered.trans hd, nofun⟩

end backend

end Linrdp.Clipboard.Fetch
