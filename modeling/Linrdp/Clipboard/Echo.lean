import Linrdp.Lib.Runs
import Mathlib.Data.List.Infix

/-!
# The echo guard

What the client copies is published on the session's clipboard, and a thread polls that clipboard
for local copies. A single slot, the echo guard, holds the content published last, so that the poll
that finds it there takes it for what it is. The slot is written when the publication is decided on,
the selection is taken later, and a poll is three requests: `step` has one event for each of these.

`NoEcho` is what the slot is for, and `Orderly` says when it is enough: no publication overlaps a
poll or another publication, and no text has `file://` in it, which one poll remembers as a text and
the next one compares, as a file list, with the last file list.
-/

namespace Linrdp.Clipboard.Echo

open Lib.Runs Option

abbrev Text := List Char

def mentionsFile (text : Text) : Bool := text.tails.any fun rest => "file://".toList.isPrefixOf rest

structure Content where
  (gnomeCopied uriList text : Option Text)

def Content.strings (c : Content) : List Text :=
  c.gnomeCopied.toList ++ c.uriList.toList ++ c.text.toList

inductive Publication
  /-- the text branch of `on_format_data_response` -/
  | text (text : Text)
  | files (uris : List Text)
  | image

namespace Publication

def gnomeCopied (uris : List Text) : Text := "copy\n".toList ++ List.intercalate ['\n'] uris

def content : Publication → Content
  | .text t => ⟨none, none, some t⟩
  | .files uris => ⟨some (gnomeCopied uris), some (List.intercalate ['\r', '\n'] uris), none⟩
  | .image => ⟨none, none, none⟩

def guarded : Publication → Option Text
  | .text t => some t
  | .files uris => some (gnomeCopied uris)
  | .image => none

def published : Publication → Bool
  | .text t => !t.isEmpty
  | .files uris => !uris.isEmpty
  | .image => true

/-- The publication is not a text that reads as a file list. -/
def plain : Publication → Bool
  | .text t => !mentionsFile t
  | _ => true

end Publication

inductive Board
  | copied (content : Content)
  | owned (publication : Publication)

def Board.content : Board → Content
  | .copied c => c
  | .owned p => p.content

inductive Phase
  | idle
  | gnomeCopied (bytes : Option Text)
  | uriText (uriText : Option Text)
  | boardText (uriText boardText : Option Text)
deriving DecidableEq

inductive Announcement
  | initiateFileCopy (filesText : Text)
  | initiateCopy (text : Text)

def Announcement.content : Announcement → Text
  | .initiateFileCopy filesText => filesText
  | .initiateCopy text => text

structure State where
  board : Board
  owners : List Publication
  echoGuard : Option Text
  /-- `bound_at` is the gate's generation -/
  bound : Bool
  (lastText lastFiles : Option Text)
  phase : Phase
  /-- what came from the client and was not copied locally since -/
  fromClient : List Text

def start (content : Content) : State := ⟨.copied content, [], none, false, none, none, .idle, []⟩

inductive Event
  | publish (publication : Publication)
  | own (i : ℕ)
  | copy (content : Content)
  | bind
  /-- the poller's next request, or the rest of its iteration; `readable` says whether the file list
  names a file the session can read -/
  | poll (readable : Bool)

namespace State

variable (s : State)

def publish (p : Publication) : State :=
  if p.published then
    { s with
      echoGuard := p.guarded.or s.echoGuard
      owners := s.owners ++ [p]
      fromClient := p.content.strings ++ s.fromClient }
  else s

def own (i : ℕ) : State :=
  match s.owners[i]? with
  | none => s
  | some p => { s with board := .owned p, owners := s.owners.eraseIdx i }

def copy (c : Content) : State :=
  { s with
    board := .copied c
    fromClient := s.fromClient.filter fun text => !(c.strings.contains text) }

def follow : State :=
  if s.bound then s else { s with bound := true, lastText := none, lastFiles := none }

variable (uriText boardText : Option Text) (readable : Bool)

def offer : State × Option Announcement :=
  match (uriText.filter mentionsFile).or (boardText.filter mentionsFile), boardText with
  | some filesText, _ =>
    if s.lastFiles = some filesText then (s, none)
    else
      ({ s with lastFiles := some filesText, lastText := some filesText },
        if readable then some (.initiateFileCopy filesText) else none)
  | none, some text =>
    if s.lastText = some text then (s, none)
    else ({ s with lastText := some text, lastFiles := none }, some (.initiateCopy text))
  | none, none => (s, none)

def advertise : State × Option Announcement :=
  let guard := s.echoGuard
  let s := { s with echoGuard := none, phase := .idle }
  if uriText.isSome ∧ guard = uriText then ({ s with lastFiles := uriText }, none)
  else if boardText.isSome ∧ guard = boardText then ({ s with lastText := boardText }, none)
  else s.offer uriText boardText readable

def poll : State × Option Announcement :=
  match s.phase with
  | .idle =>
    let s := s.follow
    ({ s with phase := .gnomeCopied s.board.content.gnomeCopied }, none)
  | .gnomeCopied bytes => ({ s with phase := .uriText (bytes.or s.board.content.uriList) }, none)
  | .uriText uriText =>
    ({ s with phase := .boardText uriText (s.board.content.text.filter fun t => !t.isEmpty) }, none)
  | .boardText uriText boardText => s.advertise uriText boardText readable

end State

open State

def step (s : State) : Event → State
  | .publish p => s.publish p
  | .own i => s.own i
  | .copy c => s.copy c
  | .bind => { s with bound := false }
  | .poll readable => (s.poll readable).1

/-- **The poller advertises nothing that came from the client.** -/
def NoEcho (s : State) : Event → Prop
  | .poll readable => ∀ a ∈ (s.poll readable).2, a.content ∉ s.fromClient
  | _ => True

instance (s : State) : DecidablePred (NoEcho s)
  | .poll readable => inferInstanceAs (Decidable
      (∀ a ∈ (s.poll readable).2, a.content ∉ s.fromClient))
  | .publish _ | .own _ | .copy _ | .bind => instDecidableTrue

def State.holdsClient (s : State) : Bool :=
  match s.board with
  | .copied _ => false
  | .owned p => p.guarded.isSome

/-- **When the guard is enough.** A publication starts between two polls, when the one before was
seen or is gone from the clipboard; the selection is taken before the next poll; the text is not a
file list; and the gate is not bound anew while the clipboard has client data. -/
def Orderly (s : State) : Event → Prop
  | .publish p => p.guarded = none ∨ p.plain = true ∧ s.phase = .idle ∧ s.owners = [] ∧
      (s.echoGuard = none ∨ s.holdsClient = false)
  | .poll _ => s.owners = []
  | .bind => s.holdsClient = false
  | _ => True

instance (s : State) : DecidablePred (Orderly s)
  | .publish p => inferInstanceAs (Decidable (p.guarded = none ∨ p.plain = true ∧ s.phase = .idle ∧
      s.owners = [] ∧ (s.echoGuard = none ∨ s.holdsClient = false)))
  | .poll _ => inferInstanceAs (Decidable (s.owners = []))
  | .bind => inferInstanceAs (Decidable (s.holdsClient = false))
  | .own _ | .copy _ => instDecidableTrue

/-! ### The end of an iteration -/

theorem offer_frame (s : State) (u t : Option Text) (readable : Bool) :
    ∃ lastText lastFiles, (s.offer u t readable).1 =
      { s with lastText := lastText, lastFiles := lastFiles } := by
  unfold offer
  split
  case h_1 | h_2 =>
    split
    case isTrue => exact ⟨s.lastText, s.lastFiles, rfl⟩
    case isFalse => exact ⟨_, _, rfl⟩
  case h_3 => exact ⟨s.lastText, s.lastFiles, rfl⟩

theorem advertise_frame (s : State) (u t : Option Text) (readable : Bool) :
    ∃ lastText lastFiles, (s.advertise u t readable).1 =
      { s with echoGuard := none, phase := .idle, lastText := lastText, lastFiles :=
      lastFiles } := by
  unfold advertise
  dsimp only
  split_ifs
  · exact ⟨_, _, rfl⟩
  · exact ⟨_, _, rfl⟩
  · obtain ⟨lastText, lastFiles, heq⟩ :=
      offer_frame { s with echoGuard := none, phase := .idle } u t readable
    exact ⟨lastText, lastFiles, heq⟩

section poll

variable {s : State}

theorem offer_text_last {t : Text} (hfile : mentionsFile t = false) (hlast : s.lastText = some t)
    (readable : Bool) : s.offer none (some t) readable = (s, none) := by
  have hsource : ((none : Option Text).filter mentionsFile).or ((some t).filter mentionsFile) =
      none := by
    simp [Option.filter, hfile]
  unfold offer
  rw [hsource]
  exact if_pos hlast

theorem offer_files_last {x : Text} (hlast : s.lastFiles = some x) (readable : Bool) :
    s.offer (some x) none readable = (s, none) := by
  unfold offer
  have hsource : ((some x).filter mentionsFile).or ((none : Option Text).filter mentionsFile) =
      if mentionsFile x then some x else none := by simp [Option.filter]
  rw [hsource]
  by_cases hfile : mentionsFile x = true
  · rw [if_pos hfile]
    exact if_pos hlast
  · rw [if_neg hfile]

theorem advertise_cases {u t : Option Text} {readable : Bool} {a : Announcement}
    (ha : (s.advertise u t readable).2 = some a) :
    (u = some a.content ∧ s.echoGuard ≠ some a.content ∧ s.lastFiles ≠ some a.content) ∨
      (t = some a.content ∧ s.echoGuard ≠ some a.content ∧
        (mentionsFile a.content = true ∨ s.lastText ≠ some a.content)) := by
  unfold advertise at ha
  dsimp only at ha
  split_ifs at ha with hu ht
  have hu' : ∀ x, u = some x → s.echoGuard ≠ some x := by
    rintro x rfl hx
    exact hu ⟨rfl, hx⟩
  have ht' : ∀ x, t = some x → s.echoGuard ≠ some x := by
    rintro x rfl hx
    exact ht ⟨rfl, hx⟩
  unfold offer at ha
  split at ha
  case h_1 filesText hsource =>
    by_cases hlast : s.lastFiles = some filesText
    · rw [if_pos hlast] at ha
      cases ha
    · rw [if_neg hlast] at ha
      obtain ⟨-, rfl⟩ : readable = true ∧ Announcement.initiateFileCopy filesText = a := by
        simpa using ha
      rcases or_eq_some_iff.1 hsource with huri | ⟨-, htext⟩
      · have hmem := eq_some_of_filter_eq_some huri
        exact Or.inl ⟨hmem, hu' _ hmem, hlast⟩
      · have hmem := eq_some_of_filter_eq_some htext
        have hfile := (filter_eq_some_iff.1 htext).2
        exact Or.inr ⟨hmem, ht' _ hmem, Or.inl hfile⟩
  case h_2 text hsource =>
    split_ifs at ha with hlast
    obtain rfl := some.inj ha
    exact Or.inr ⟨rfl, ht' _ rfl, Or.inr hlast⟩
  case h_3 => cases ha

end poll

end Linrdp.Clipboard.Echo
