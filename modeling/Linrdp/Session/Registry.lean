import Mathlib.Data.List.Range

/-!
# The session registry: which account owns which display number

One record file per display number, in a root-only state directory. The directory is a function
from numbers to records; `find` is the lookup by account that a login starts with, and it returns
the record at the *lowest* number of the configured range that names the account.

Main results: `find_eq_some_of_unique`, `mem_of_find` and `find_eq_none` say exactly what `find`
returns, so that later modules never unfold it.
-/

namespace Linrdp.Session.Registry

open List Function

structure SessionRecord where
  user : String
  display : ℕ
  (runtimeDir xauthority : String)
  locked : Bool
  (logindId bus : Option String)
  backend : String
deriving DecidableEq

abbrev Records := ℕ → Option SessionRecord

structure DisplayRange where
  (lo hi : ℕ)
deriving DecidableEq

def DisplayRange.numbers (range : DisplayRange) : List ℕ :=
  List.range' range.lo (range.hi + 1 - range.lo)

variable (records : Records)

/-- The session belonging to `user`, if one is recorded in the range. -/
def find (user : String) (range : DisplayRange) : Option SessionRecord :=
  (range.numbers.filterMap records).find? (·.user == user)

def forgetRecord (display : ℕ) : Records := Function.update records display none

def writeRecord (rec : SessionRecord) : Records :=
  Function.update records rec.display (some rec)

/-- Record a new lock state; with nothing recorded for the number the files stay as they are. -/
def setLocked (display : ℕ) (locked : Bool) : Records :=
  match records display with
  | none => records
  | some rec => writeRecord records { rec with locked := locked }

/-! ### What `find` returns -/

variable {records : Records} {user : String} {range : DisplayRange}

variable {rec : SessionRecord}

theorem mem_of_find (h : find records user range = some rec) :
    rec.user = user ∧ ∃ d ∈ range.numbers, records d = some rec := by
  unfold find at h
  have hu := find?_some h
  have hm := mem_of_find?_eq_some h
  rw [mem_filterMap] at hm
  exact ⟨by simpa using hu, hm⟩

theorem find_eq_none :
    find records user range = none ↔
      ∀ d ∈ range.numbers, ∀ rec, records d = some rec → rec.user ≠ user := by
  unfold find
  rw [find?_eq_none]
  constructor
  · intro h d hd rec hr hu
    exact h rec (mem_filterMap.2 ⟨d, hd, hr⟩) (by simpa using hu)
  · intro h rec hm hu
    obtain ⟨d, hd, hr⟩ := mem_filterMap.1 hm
    exact h d hd rec hr (by simpa using hu)

variable {d : ℕ}

/-- **An account with one record is found at it**, whatever the other numbers hold. -/
theorem find_eq_some_of_unique (hd : d ∈ range.numbers) (hr : records d = some rec)
    (hu : rec.user = user) (huniq : ∀ d' rec', records d' = some rec' → rec'.user = user → d' = d) :
    find records user range = some rec := by
  cases hf : find records user range with
  | none => exact absurd hu (find_eq_none.1 hf d hd rec hr)
  | some rec' =>
    obtain ⟨hu', d', -, hr'⟩ := mem_of_find hf
    obtain rfl := huniq d' rec' hr' hu'
    rw [hr] at hr'
    exact hr'.symm

variable {d' : ℕ}

theorem forgetRecord_of_ne (h : d' ≠ d) :
    forgetRecord records d d' = records d' := update_of_ne h _ _

@[simp] theorem forgetRecord_self (d : ℕ) : forgetRecord records d d = none := update_self ..

theorem forgetRecord_some
    (h : forgetRecord records d d' = some rec) : d' ≠ d ∧ records d' = some rec := by
  by_cases hd : d' = d
  · subst hd; simp at h
  · exact ⟨hd, by rwa [forgetRecord_of_ne hd] at h⟩

theorem writeRecord_some {rec' : SessionRecord} (h : writeRecord records rec d = some rec') :
    (d = rec.display ∧ rec' = rec) ∨ (d ≠ rec.display ∧ records d = some rec') := by
  rw [writeRecord, update_apply] at h
  split_ifs at h with hd
  · exact Or.inl ⟨hd, (Option.some.inj h).symm⟩
  · exact Or.inr ⟨hd, h⟩

theorem setLocked_some {locked : Bool} (hdisp : ∀ d rec, records d = some rec → rec.display = d)
    (h : setLocked records d locked d' = some rec) :
    ∃ old, records d' = some old ∧ rec = { old with locked := rec.locked } := by
  unfold setLocked at h
  cases ho : records d with
  | none => rw [ho] at h; exact ⟨rec, h, rfl⟩
  | some old =>
    rw [ho] at h
    rcases writeRecord_some h with ⟨hd, rfl⟩ | ⟨-, h⟩
    · have : d' = d := by rw [hd]; exact hdisp d old ho
      exact ⟨old, by rw [this, ho], rfl⟩
    · exact ⟨rec, h, rfl⟩

end Linrdp.Session.Registry
