import Linrdp.Session.Gate

/-!
# The microphone FIFO

`MicFifo` of `mic.rs`: the client's packets go into the FIFO of the session the gate has bound. The
generation of the gate is remembered with every attempt to open the FIFO, also with one that fails.
From then on the packets of the session are dropped without another attempt, and `served_iff` says
that nothing else goes wrong.
-/

namespace Linrdp.Audio.Microphone

open Lib.Runs Session.Gate

/-- `file` is the path it was opened under. -/
structure MicFifo where
  file : Option String
  generation : Option ℕ
deriving DecidableEq

open MicFifo

/-- A packet, with what the system says to an attempt to open the FIFO and to write to it. -/
structure Packet where
  data : List UInt8
  opens : Bool
  written : Option ℕ

/-- `open`; a FIFO without a reader cannot be opened. -/
def openFifo (gate : Worker) (opens : Bool) : Option String := if opens then gate.micFifo else none

/-- The first half of `write`: the file of this generation. -/
def MicFifo.attach (m : MicFifo) (gate : Worker) (opens : Bool) : MicFifo :=
  if m.generation = some gate.generation then m else ⟨openFifo gate opens, some gate.generation⟩

def MicFifo.write (m : MicFifo) (gate : Worker) (p : Packet) :
    Option (String × List UInt8) × MicFifo :=
  match (m.attach gate p.opens).file, p.written with
  | none, _ => (none, m.attach gate p.opens)
  | some path, some n => (some (path, p.data.take n), m.attach gate p.opens)
  | some _, none => (none, ⟨none, none⟩)

structure State where
  gate : Worker
  fifo : MicFifo

def start (consoleUser : Option String) (env : Environment) : State :=
  ⟨Session.Gate.start true consoleUser env, ⟨none, none⟩⟩

inductive Event
  | packet (p : Packet)
  | gate (c : Call)

def step (s : State) : Event → State
  | .packet p => { s with fifo := (s.fifo.write s.gate p).2 }
  | .gate c => { s with gate := Session.Gate.step s.gate c }

def Deliverable (s : State) (p : Packet) (path : String) : Prop :=
  s.gate.micFifo = some path ∧ p.opens = true ∧ p.written = some p.data.length

/-- Only a packet that cannot be delivered is dropped, and bytes go to the bound session only. -/
def Served (s : State) : Event → Prop
  | .packet p => (∀ path, Deliverable s p path → (s.fifo.write s.gate p).1 = some (path, p.data)) ∧
      ∀ path bytes, (s.fifo.write s.gate p).1 = some (path, bytes) → s.gate.micFifo = some path
  | .gate _ => True

/-- A packet that could be delivered comes after an attempt of the same generation that failed. -/
def Silenced (s : State) : Event → Prop
  | .packet p => s.fifo = ⟨none, some s.gate.generation⟩ ∧ ∃ path, Deliverable s p path
  | .gate _ => False

structure Inv (s : State) : Prop where
  armed : s.gate.armed = true
  past : ∀ g ∈ s.fifo.generation, g ≤ s.gate.generation
  bound : s.fifo.generation = some s.gate.generation → ∀ path ∈ s.fifo.file,
    s.gate.micFifo = some path

variable {s : State}

theorem step_gate {w : Worker} (h : w.armed = true) (c : Call) :
    (Session.Gate.step w c).armed = true ∧
      ((Session.Gate.step w c).generation = w.generation + 1 ∨
        (Session.Gate.step w c).generation = w.generation ∧
          (Session.Gate.step w c).micFifo = w.micFifo) := by
  have hcommit : ∀ env wanted, (w.commit env wanted).2.armed = true ∧
      ((w.commit env wanted).2.generation = w.generation + 1 ∨
        (w.commit env wanted).2.generation = w.generation ∧
          (w.commit env wanted).2.micFifo = w.micFifo) := by
    intro env wanted
    unfold Worker.commit
    split
    · refine ⟨h, .inr ⟨rfl, ?_⟩⟩
      simp only [Worker.micFifo, Worker.audioTarget, h, if_true]
    · exact ⟨h, .inl rfl⟩
  cases c with
  | bind | bindGreeter | bindCompositor => exact hcommit _ _

theorem Inv.attach (h : Inv s) (opens : Bool) :
    Inv { s with fifo := s.fifo.attach s.gate opens } := by
  unfold MicFifo.attach
  split_ifs with hsame
  · exact h
  · refine ⟨h.armed, ?_, ?_⟩
    · rintro g ⟨⟩
      exact Nat.le_refl _
    · rintro - path hpath
      dsimp only [openFifo] at hpath
      split_ifs at hpath
      · exact hpath
      · cases hpath

theorem inv_step (h : Inv s) (e : Event) : Inv (step s e) := by
  cases e with
  | packet p =>
    have hattach := h.attach p.opens
    show Inv { s with fifo := (s.fifo.write s.gate p).2 }
    unfold write
    split
    · exact hattach
    · exact hattach
    · exact ⟨h.armed, by simp, by simp⟩
  | gate c =>
    obtain ⟨harmed, hmoved | ⟨hgeneration, hfifo⟩⟩ := step_gate h.armed c
    · refine ⟨harmed, fun g hg => ?_, fun hg => ?_⟩
      · have hle := h.past g hg
        simp only [step, hmoved]
        omega
      · have hle := h.past _ hg
        simp only [step, hmoved] at hle
        omega
    · refine ⟨harmed, ?_, ?_⟩
      · simpa only [step, hgeneration] using h.past
      · simpa only [step, hgeneration, hfifo] using h.bound

theorem served_iff_not_silenced (h : Inv s) (e : Event) : Served s e ↔ ¬Silenced s e := by
  cases e with
  | gate c => exact iff_of_true trivial id
  | packet p =>
    constructor
    · rintro ⟨hdelivers, -⟩ ⟨hfifo, path, hpath⟩
      have hwrite := hdelivers path hpath
      rw [hfifo, write, attach, if_pos rfl] at hwrite
      cases hwrite
    · intro hheard
      have hattach := h.attach p.opens
      have hgeneration : (s.fifo.attach s.gate p.opens).generation = some s.gate.generation := by
        unfold attach
        split_ifs with hsame
        · exact hsame
        · rfl
      refine ⟨fun path hpath => ?_, fun path bytes hwrite => ?_⟩
      · obtain ⟨hfifo, hopens, hwritten⟩ := hpath
        have hfile : (s.fifo.attach s.gate p.opens).file = some path := by
          rcases hopen : (s.fifo.attach s.gate p.opens).file with _ | path'
          · -- nothing is open only after an attempt that failed
            refine absurd ⟨?_, path, hfifo, hopens, hwritten⟩ hheard
            unfold attach at hopen
            split_ifs at hopen with hsame
            · rw [← hsame, ← hopen]
            · rw [openFifo, if_pos hopens, hfifo] at hopen
              cases hopen
          · rw [← hfifo, hattach.bound hgeneration path' hopen]
        rw [write, hfile, hwritten]
        dsimp only
        rw [List.take_length]
      · unfold write at hwrite
        split at hwrite
        · cases hwrite
        · next hfile _ =>
          cases hwrite
          exact hattach.bound hgeneration path hfile
        · cases hwrite

/-- **The state of a silenced packet is that after a failed attempt** to open the FIFO, made for an
earlier packet in the same generation. -/
theorem failed_before_silenced {consoleUser : Option String} {env : Environment} {es : List Event}
    {g : ℕ} (h : (run step (start consoleUser env) es).fifo = ⟨none, some g⟩) :
    ∃ pre p, pre ++ [.packet p] <+: es ∧ (run step (start consoleUser env) pre).gate.generation =
    g ∧
      openFifo (run step (start consoleUser env) pre).gate p.opens = none := by
  induction es using List.reverseRecOn with
  | nil => cases h
  | append_singleton es e ih =>
    rw [run_append, run_cons, run_nil] at h
    -- an attempt of the run so far is one of the longer run
    suffices hnew : (run step (start consoleUser env) es).fifo = ⟨none, some g⟩ ∨ ∃ p,
        e = .packet p ∧ (run step (start consoleUser env) es).gate.generation = g ∧
        openFifo (run step (start consoleUser env) es).gate p.opens = none by
      rcases hnew with hold | ⟨p, rfl, hfailed⟩
      · obtain ⟨pre, p, hpre, hfailed⟩ := ih hold
        exact ⟨pre, p, hpre.trans (List.prefix_append es [e]), hfailed⟩
      · exact ⟨es, p, List.prefix_rfl, hfailed⟩
    cases e with
    | gate c => exact .inl h
    | packet p =>
      dsimp only [step] at h
      unfold write at h
      split at h
      · rename_i hfile
        unfold attach at h hfile
        split_ifs at h hfile
        · exact .inl h
        · exact .inr ⟨p, rfl, Option.some.inj (congrArg generation h), hfile⟩
      · rename_i hfile _
        cases hfile.symm.trans (congrArg file h)
      · cases h

/-- **Microphone packets reach the bound session and no other**, exactly in the runs in which no
packet that could be delivered comes after a failed attempt to open the FIFO of its session. -/
theorem served_iff (consoleUser : Option String) (env : Environment) (es : List Event) :
    Along step Served (start consoleUser env) es ↔
      Along step (fun s e => ¬Silenced s e) (start consoleUser env) es := by
  refine along_iff_along (I := Inv) (D := fun _ _ => True)
    (fun s e h _ => ⟨served_iff_not_silenced h e, fun _ => inv_step h e⟩) ?_
      (along_of_forall fun _ _ => trivial)
  exact ⟨rfl, by simp [start], by simp [start]⟩

def lateReader : List Event :=
  [.gate (.bind "alice" 77 "" "/run/user/1000" (1920, 1080) (some "/home/alice")),
    .packet ⟨[1, 2], false, none⟩, .packet ⟨[3, 4], true, some 2⟩]

/-- The second packet is dropped as well. -/
theorem late_reader_hears_nothing :
    ¬Along step Served (start none ⟨none, none, none, none⟩) lateReader := by
  rintro ⟨-, -, ⟨hdelivers, -⟩, -⟩
  have hwrite := hdelivers "/run/user/1000/linrdp/mic.fifo" ⟨by decide, rfl, rfl⟩
  exact absurd hwrite (by decide)

end Linrdp.Audio.Microphone
