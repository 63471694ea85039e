import Mathlib.Data.List.Basic
import Mathlib.Logic.Relation

/-!
# A tree of directories, files and symbolic links

The operations are those that are given a directory and one name in it, and follow no link:
`openDir`, `make` and `remove`. `walk` goes by a whole path, follows the links it meets, and says
whether it met one. `Below t root d` says that the directory `d` lies in the tree under `root`; the
operations keep it (`Below.mono`), and a walk that meets no link stays below where it starts
(`walk_straight`).
-/

namespace Linrdp.Lib.FileTree

open List Option

variable {ν : Type*}

inductive Part (ν : Type*)
  | name (n : ν)
  | up

inductive Node (ν : Type*)
  | dir (parent : ℕ) (entries : List (ν × ℕ))
  | file
  | link (absolute : Bool) (target : List (Part ν))

structure Fs (ν : Type*) where
  nodes : List (Node ν)

inductive Errno
  | noEntry | alreadyExists | notDirectory | isDirectory | loop
  | other (code : ℕ)

namespace Fs

def isDir (t : Fs ν) (i : ℕ) : Bool :=
  match t.nodes[i]? with
  | some (.dir _ _) => true
  | _ => false

def entries (t : Fs ν) (i : ℕ) : List (ν × ℕ) :=
  match t.nodes[i]? with
  | some (.dir _ entries) => entries
  | _ => []

def parent (t : Fs ν) (i : ℕ) : ℕ :=
  match t.nodes[i]? with
  | some (.dir parent _) => parent
  | _ => 0

def setEntries (t : Fs ν) (d : ℕ) (entries : List (ν × ℕ)) : Fs ν :=
  ⟨t.nodes.set d (.dir (t.parent d) entries)⟩

variable (node : Node ν)

section nodes

variable {t : Fs ν} {d : ℕ}

theorem lt_of_isDir {i : ℕ} (h : t.isDir i = true) : i < t.nodes.length := by
  by_contra hge
  unfold isDir at h
  rw [getElem?_eq_none (by omega)] at h
  cases h

theorem nodes_setEntries (t : Fs ν) (hd : t.isDir d = true) (es : List (ν × ℕ)) (i : ℕ) :
    (t.setEntries d es).nodes[i]? = if i = d then some (.dir (t.parent d) es) else t.nodes[i]? := by
  have hlt := lt_of_isDir hd
  show (t.nodes.set d (.dir (t.parent d) es))[i]? = _
  rw [getElem?_set]
  by_cases hi : i = d
  · rw [if_pos hi, if_pos hi.symm, if_pos hlt]
  · rw [if_neg hi, if_neg (Ne.symm hi)]

theorem isDir_setEntries {i : ℕ} (hd : t.isDir d = true) (es : List (ν × ℕ)) (hi : t.isDir i = true)
    : (t.setEntries d es).isDir i = true := by
  unfold isDir
  rw [nodes_setEntries t hd]
  by_cases hid : i = d
  · rw [if_pos hid]
  · rw [if_neg hid]
    exact hi

theorem entries_setEntries (hd : t.isDir d = true) (es : List (ν × ℕ)) (a : ℕ) :
    (t.setEntries d es).entries a = if a = d then es else t.entries a := by
  unfold entries
  rw [nodes_setEntries t hd]
  by_cases ha : a = d
  · rw [if_pos ha, if_pos ha]
  · rw [if_neg ha, if_neg ha]

theorem isDir_append {i : ℕ} (hi : t.isDir i = true) : isDir ⟨t.nodes ++ [node]⟩ i = true := by
  unfold isDir
  rw [getElem?_append_left (lt_of_isDir hi)]
  exact hi

theorem entries_append {a : ℕ} (ha : t.isDir a = true) :
    entries ⟨t.nodes ++ [node]⟩ a = t.entries a := by
  unfold entries
  rw [getElem?_append_left (lt_of_isDir ha)]

end nodes

variable [DecidableEq ν]

def entry (t : Fs ν) (d : ℕ) (n : ν) : Option ℕ :=
  ((t.entries d).find? fun e => e.1 = n).map Prod.snd

/-- `openat` with `O_DIRECTORY` and `O_NOFOLLOW`. -/
def openDir (t : Fs ν) (d : ℕ) (n : ν) : Except Errno ℕ :=
  match t.entry d n with
  | none => .error .noEntry
  | some i =>
    match t.nodes[i]? with
    | some (.dir _ _) => .ok i
    | some (.link _ _) => .error .loop
    | _ => .error .notDirectory

/-- `mkdirat`, `symlinkat`, and `openat` with `O_CREAT` and `O_EXCL`: a new node under a name that
is free. -/
def make (t : Fs ν) (d : ℕ) (n : ν) (node : Node ν) : Except Errno ℕ × Fs ν :=
  if t.isDir d then
    match t.entry d n with
    | some _ => (.error .alreadyExists, t)
    | none =>
      (.ok t.nodes.length,
        ⟨(t.setEntries d (t.entries d ++ [(n, t.nodes.length)])).nodes ++ [node]⟩)
  else (.error .noEntry, t)

/-- `unlinkat`: the name of a node that is not a directory is taken away. -/
def remove (t : Fs ν) (d : ℕ) (n : ν) : Except Errno ℕ × Fs ν :=
  match t.entry d n with
  | none => (.error .noEntry, t)
  | some i =>
    if t.isDir i then (.error .isDirectory, t)
    else (.ok i, t.setEntries d ((t.entries d).filter fun e => e.1 ≠ n))

/-- The way along a path, from the directory `d`: where it ends, and whether a link was met. -/
def walk (t : Fs ν) : ℕ → ℕ → List (Part ν) → Bool → Option (ℕ × Bool)
  | _, d, [], met => some (d, met)
  | 0, _, _ :: _, _ => none
  | limit + 1, d, .up :: rest, met => t.walk limit (t.parent d) rest met
  | limit + 1, d, .name n :: rest, met =>
    match t.entry d n with
    | none => none
    | some i =>
      match t.nodes[i]? with
      | some (.dir _ _) => t.walk limit i rest met
      | some (.link absolute target) => t.walk limit (if absolute then 0 else d)
          (target ++ rest) true
      | _ => none

def Child (t : Fs ν) (a b : ℕ) : Prop := ∃ n, t.entry a n = some b ∧ t.isDir b = true

/-- The directory `d` lies in the tree under `root`. -/
def Below (t : Fs ν) (root d : ℕ) : Prop := Relation.ReflTransGen t.Child root d

/-- The names lead down from directory to directory, with no link among them. -/
def Straight (t : Fs ν) : ℕ → List ν → Prop
  | _, [] => True
  | d, n :: rest => ∃ i, t.entry d n = some i ∧ t.isDir i = true ∧ t.Straight i rest

variable {t t' : Fs ν} {root d : ℕ} {n : ν}

theorem Below.mono (h : t.Below root d) (hchild : ∀ a b, t.Child a b → t'.Child a b) :
    t'.Below root d := Relation.ReflTransGen.mono hchild _ _ h

theorem isDir_of_entry {i : ℕ} (h : t.entry d n = some i) : t.isDir d = true := by
  unfold entry entries at h
  unfold isDir
  split at h
  case h_1 => rfl
  case h_2 => cases h

theorem below_openDir {i : ℕ} (hd : t.Below root d) (h : t.openDir d n = .ok i) :
    t.Below root i := by
  unfold openDir at h
  split at h
  case h_1 => cases h
  case h_2 j hj =>
    split at h
    case h_1 p es hnode =>
      obtain rfl := Except.ok.inj h
      have hdir : t.isDir j = true := by
        unfold isDir
        rw [hnode]
      exact hd.tail ⟨n, hj, hdir⟩
    case h_2 | h_3 => cases h

/-! ### What the operations leave alone -/

theorem child_append {a b : ℕ} (h : t.Child a b) : Child ⟨t.nodes ++ [node]⟩ a b := by
  obtain ⟨n, hn, hb⟩ := h
  refine ⟨n, ?_, isDir_append node hb⟩
  unfold entry at hn ⊢
  rw [entries_append node (isDir_of_entry hn)]
  exact hn

theorem child_setEntries (hd : t.isDir d = true) {es : List (ν × ℕ)}
    (hes : ∀ n b, t.entry d n = some b → t.isDir b = true →
      (es.find? fun e => e.1 = n).map Prod.snd = some b) {a b : ℕ} (h : t.Child a b) :
    (t.setEntries d es).Child a b := by
  obtain ⟨n, hn, hb⟩ := h
  refine ⟨n, ?_, isDir_setEntries hd es hb⟩
  unfold entry
  rw [entries_setEntries hd]
  by_cases ha : a = d
  · subst ha
    rw [if_pos rfl]
    exact hes n b hn hb
  · rw [if_neg ha]
    exact hn

theorem child_make {node : Node ν} {a b : ℕ} (h : t.Child a b) : (t.make d n node).2.Child a b := by
  unfold make
  split
  case isFalse => exact h
  case isTrue hd =>
    split
    case h_1 => exact h
    case h_2 =>
      refine child_append node (child_setEntries hd ?_ h)
      intro m b hm _
      unfold entry at hm
      obtain ⟨e, he, rfl⟩ := map_eq_some_iff.1 hm
      rw [find?_append, he]
      rfl

theorem child_remove {a b : ℕ} (h : t.Child a b) : (t.remove d n).2.Child a b := by
  unfold remove
  split
  case h_1 => exact h
  case h_2 i hi =>
    split
    case isTrue => exact h
    case isFalse hnot =>
      refine child_setEntries (isDir_of_entry hi) ?_ h
      intro m b hm hb
      have hmn : m ≠ n := by
        rintro rfl
        rw [hi] at hm
        obtain rfl := some.inj hm
        exact hnot hb
      unfold entry at hm
      have hpred : (fun e : ν × ℕ => decide (decide (e.1 ≠ n) = true ∧ decide (e.1 = m) = true)) =
          fun e => decide (e.1 = m) := by
        funext e
        by_cases hem : e.1 = m
        · simp [hem, hmn]
        · simp [hem]
      rw [find?_filter, hpred]
      exact hm

theorem below_make {node : Node ν} {e : ℕ} (h : t.Below root e) :
    (t.make d n node).2.Below root e :=
  h.mono fun _ _ => child_make

theorem below_remove {e : ℕ} (h : t.Below root e) : (t.remove d n).2.Below root e :=
  h.mono fun _ _ => child_remove

/-! ### Walks -/

theorem met_of_walk {limit : ℕ} {path : List (Part ν)} {met : Bool}
    (h : t.walk limit d path true = some (root, met)) : met = true := by
  induction limit generalizing d path with
  | zero =>
    cases path with
    | nil => exact (Prod.mk.inj (some.inj h)).2.symm
    | cons part rest => cases h
  | succ limit ih =>
    cases path with
    | nil => exact (Prod.mk.inj (some.inj h)).2.symm
    | cons part rest =>
      cases part with
      | up => exact ih h
      | name n =>
        rw [walk] at h
        split at h
        case h_1 => cases h
        case h_2 =>
          split at h
          case h_1 | h_2 => exact ih h
          case h_3 => cases h

/-- **A walk along names meets no link exactly if they lead straight down**, and then it stays
below. -/
theorem walk_straight (root : ℕ) {limit e : ℕ} {names : List ν} {met : Bool}
    (h : t.walk limit d (names.map .name) false = some (e, met)) :
    (met = false ↔ t.Straight d names) ∧ (met = false → t.Below root d → t.Below root e) := by
  induction limit generalizing d names with
  | zero =>
    cases names with
    | nil =>
      obtain ⟨rfl, rfl⟩ := Prod.mk.inj (some.inj h)
      exact ⟨iff_of_true rfl trivial, fun _ hd => hd⟩
    | cons n rest => cases h
  | succ limit ih =>
    cases names with
    | nil =>
      obtain ⟨rfl, rfl⟩ := Prod.mk.inj (some.inj h)
      exact ⟨iff_of_true rfl trivial, fun _ hd => hd⟩
    | cons n rest =>
      rw [map_cons, walk] at h
      split at h
      case h_1 => cases h
      case h_2 i hi =>
        rw [Straight]
        split at h
        case h_1 hnode =>
          have hdir : t.isDir i = true := by
            unfold isDir
            rw [hnode]
          obtain ⟨hstraight, hbelow⟩ := ih h
          refine ⟨?_, fun hmet hd => hbelow hmet (hd.tail ⟨n, hi, hdir⟩)⟩
          simp [hi, hdir, hstraight]
        case h_2 hnode =>
          obtain rfl := met_of_walk h
          exact ⟨iff_of_false nofun (by simp [hi, isDir, hnode]), nofun⟩
        case h_3 => cases h

end Fs

end Linrdp.Lib.FileTree
