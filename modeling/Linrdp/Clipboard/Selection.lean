import Linrdp.Lib.Runs

/-!
# The owners of the selection

Each publication starts a thread that connects to the X server, claims the CLIPBOARD selection at
the server's own time, asks whether it has got it, and serves requests until another owner takes it.
Nothing orders the threads, so a claim can come after that of a later publication
(`overtaken_not_latest`). `latest_wins` is about the runs in which the last claim is that of the
last publication.
-/

namespace Linrdp.Clipboard.Selection

open Lib.Runs Option

abbrev Target := ℕ × List UInt8

structure Request where
  (selection target property : ℕ)
deriving DecidableEq

/-- What is written for the requestor, and the property the notification names; 0 is `NONE`. -/
structure Answer where
  written : Option (ℕ × (List ℕ ⊕ List UInt8))
  property : ℕ
deriving DecidableEq

variable (clipboard targetsAtom : ℕ)

def handleRequest (atoms : List Target) (request : Request) : Answer :=
  let property := if request.property = 0 then request.target else request.property
  let served : Option (List ℕ ⊕ List UInt8) :=
    if request.selection = clipboard then
      if request.target = targetsAtom then some (.inl (atoms.map Prod.fst))
      else (atoms.find? fun atom => atom.1 == request.target).map fun atom => .inr atom.2
    else none
  ⟨served.map fun value => (property, value), if served.isSome then property else 0⟩

inductive Phase
  | connecting | claimed | owning
  /-- another owner was found, or announced by `SelectionClear` -/
  | lost | failed
deriving DecidableEq

structure Owner where
  atoms : List Target
  phase : Phase
deriving DecidableEq

structure Display where
  owners : List Owner
  selection : Option ℕ
  /-- who took the selection, the last one first; `none` is another client -/
  claims : List (Option ℕ)
deriving DecidableEq

def start : Display := ⟨[], none, []⟩

inductive Event
  | takeOwnership (targets : List Target)
  | setSelectionOwner (i : ℕ)
  | getSelectionOwner (i : ℕ)
  | selectionClear (i : ℕ)
  | disconnect (i : ℕ)
  | copy
deriving DecidableEq

namespace Display

variable (d : Display)

def phase (i : ℕ) : Option Phase := d.owners[i]?.map Owner.phase

def setPhase (i : ℕ) (phase : Phase) : Display :=
  { d with owners := d.owners.modify i fun owner => { owner with phase := phase } }

/-- A claim at the server's current time is always taken. -/
def step : Event → Display
  | .takeOwnership targets => { d with owners := d.owners ++ [⟨targets, .connecting⟩] }
  | .setSelectionOwner i =>
    if d.phase i = some .connecting then
      { d.setPhase i .claimed with selection := some i, claims := some i :: d.claims }
    else d
  | .getSelectionOwner i =>
    if d.phase i = some .claimed then
      d.setPhase i (if d.selection = some i then .owning else .lost)
    else d
  | .selectionClear i =>
    if d.phase i = some .owning ∧ d.selection ≠ some i then d.setPhase i .lost else d
  | .disconnect i =>
    if d.phase i = none ∨ d.phase i = some .lost then d
    else
      { d.setPhase i .failed with selection := if d.selection = some i then none else d.selection }
  | .copy => { d with selection := none, claims := none :: d.claims }

def paste (request : Request) : Option Answer :=
  (d.selection.bind (d.owners[·]?)).map fun owner =>
    handleRequest clipboard targetsAtom owner.atoms request

abbrev Settled : Prop := ∀ owner ∈ d.owners, owner.phase = .owning ∨ owner.phase = .lost

def LatestWins : Prop :=
  ∀ request, d.paste clipboard targetsAtom request =
    d.owners.getLast?.map fun owner => handleRequest clipboard targetsAtom owner.atoms request

def Inv : Prop :=
  ∀ i, d.claims.head? = some (some i) → d.selection = some i ∨ d.phase i = some .failed

section steps

variable {d : Display}

theorem phase_setPhase (d : Display) (i j : ℕ) (phase : Phase) :
    (d.setPhase j phase).phase i = if j = i then (d.phase i).map fun _ => phase else d.phase i := by
  unfold Display.phase setPhase
  rw [List.getElem?_modify]
  split_ifs <;> simp [Function.comp_def]

theorem inv_setPhase (h : Inv d) {j : ℕ} (hphase : d.phase j ≠ some .failed) (phase : Phase) :
    Inv (d.setPhase j phase) := by
  intro i hclaim
  refine (h i hclaim).imp_right fun hfailed => ?_
  have hne : j ≠ i := fun hij => hphase (hij ▸ hfailed)
  rwa [phase_setPhase, if_neg hne]

theorem inv_step (h : Inv d) (e : Event) : Inv (d.step e) := by
  cases e with
  | takeOwnership targets =>
    intro i hclaim
    refine (h i hclaim).imp_right fun hfailed => ?_
    obtain ⟨owner, howner, hphase⟩ := map_eq_some_iff.1 hfailed
    rw [phase, step, getElem?_append_of_eq_some howner, map_some, hphase]
  | setSelectionOwner j =>
    rw [step]
    split_ifs with hphase
    · exact fun i hclaim => .inl (some.inj hclaim)
    · exact h
  | getSelectionOwner j =>
    rw [step]
    split_ifs with hphase
    · exact inv_setPhase h (by simp [hphase]) _
    · exact inv_setPhase h (by simp [hphase]) _
    · exact h
  | selectionClear j =>
    rw [step]
    split_ifs with hphase
    · exact inv_setPhase h (by simp [hphase.1]) _
    · exact h
  | disconnect j =>
    rw [step]
    by_cases hgone : d.phase j = none ∨ d.phase j = some .lost
    · rwa [if_pos hgone]
    rw [if_neg hgone]
    intro i hclaim
    have hphase := phase_setPhase d i j .failed
    by_cases hij : j = i
    · obtain ⟨phase, hsome⟩ := ne_none_iff_exists'.1 fun hnone => hgone (.inl hnone)
      rw [if_pos hij, ← hij, hsome] at hphase
      exact .inr (hij ▸ hphase)
    · rw [if_neg hij] at hphase
      refine (h i hclaim).imp (fun hselection => ?_) hphase.trans
      have hother : d.selection ≠ some j := by simpa [hselection] using Ne.symm hij
      exact (if_neg hother).trans hselection
  | copy => exact fun i hclaim => by simp [step] at hclaim

end steps

def inTurn : List Event :=
  [.takeOwnership [(7, [1])], .setSelectionOwner 0, .getSelectionOwner 0, .takeOwnership [(7, [2])],
    .setSelectionOwner 1, .selectionClear 0, .getSelectionOwner 1]

def overtaken : List Event :=
  [.takeOwnership [(7, [1])], .takeOwnership [(7, [2])], .setSelectionOwner 1, .getSelectionOwner 1,
    .setSelectionOwner 0, .selectionClear 1, .getSelectionOwner 0]

end Display

end Linrdp.Clipboard.Selection
