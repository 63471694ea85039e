import Linrdp.Lib.TextLines
import Linrdp.Session.Registry

/-!
# The record files

`write_record` and `read_record` of `registry.rs`: a file of `key=value` lines. The reader takes the
first line of each key; a record without a `locked` line counts as locked, and one without a
`backend` line is served the way its bus says. Every reading goes through `field_append`: of a whole
file (`readText_body`), and of one that is being written (`cut_locked_iff`). The abstract directory
of `Registry` is what the files read as (`view_writeRecord`, `view_forgetRecord`).
-/

namespace Linrdp.Session.RecordFile

open List hiding rec
open Option hiding rec
open Lib.TextLines Function RecordFile
open Session.Registry hiding writeRecord setLocked

/-! ### The text of a record -/

inductive Key
  | user | display | runtimeDir | xauthority | locked | logindId | bus | backend
deriving DecidableEq

def Key.text : Key → Text
  | .user => ['u', 's', 'e', 'r']
  | .display => ['d', 'i', 's', 'p', 'l', 'a', 'y']
  | .runtimeDir => ['r', 'u', 'n', 't', 'i', 'm', 'e', '_', 'd', 'i', 'r']
  | .xauthority => ['x', 'a', 'u', 't', 'h', 'o', 'r', 'i', 't', 'y']
  | .locked => ['l', 'o', 'c', 'k', 'e', 'd']
  | .logindId => ['l', 'o', 'g', 'i', 'n', 'd', '_', 'i', 'd']
  | .bus => ['b', 'u', 's']
  | .backend => ['b', 'a', 'c', 'k', 'e', 'n', 'd']

def boolText : Bool → Text
  | true => ['t', 'r', 'u', 'e']
  | false => ['f', 'a', 'l', 's', 'e']

variable (rec : SessionRecord)

def head : List (Key × Text) :=
  [(.user, rec.user.toList), (.display, Nat.toDigits 10 rec.display),
    (.runtimeDir, rec.runtimeDir.toList), (.xauthority, rec.xauthority.toList)]

def tail : List (Key × Text) :=
  (rec.logindId.map fun id => (Key.logindId, id.toList)).toList ++
    (rec.bus.map fun bus => (Key.bus, bus.toList)).toList ++ [(.backend, rec.backend.toList)]

def entries : List (Key × Text) := head rec ++ (.locked, boolText rec.locked) :: tail rec

def line (entry : Key × Text) : Text := entry.1.text ++ '=' :: entry.2

def body : Text := unlines ((entries rec).map line)

/-! ### Reading -/

def field (t : Text) (key : Key) : Option Text :=
  (lines t).findSome? (stripPrefix (key.text ++ ['=']))

def notEmpty (value : Option Text) : Option Text := value.filter fun v => v ≠ []

def gnomeHeadlessId : Text := "gnome-headless".toList

def x11Id : Text := "x11".toList

def readText (t : Text) : Option SessionRecord := do
  let bus := notEmpty (field t .bus)
  let backend := (notEmpty (field t .backend)).getD (if bus.isSome then gnomeHeadlessId else x11Id)
  let user ← field t .user
  let display ← (parseU16 (← field t .display)).toOption
  let runtimeDir ← field t .runtimeDir
  let xauthority ← field t .xauthority
  return {
    user := .ofList user
    display := display
    runtimeDir := .ofList runtimeDir
    xauthority := .ofList xauthority
    locked := match field t .locked with
      | none => true
      | some v => v = boolText true
    logindId := (notEmpty (field t .logindId)).map String.ofList
    bus := bus.map String.ofList
    backend := .ofList backend }

/-- `fs::read_to_string` fails on bytes that are not UTF-8. -/
def readBytes (bytes : List UInt8) : Option SessionRecord := (fromUtf8 bytes).bind readText

/-! ### The directory -/

/-- The bytes of `display-N.session`, for each `N`. -/
abbrev Files := ℕ → Option (List UInt8)

def writeRecord (files : Files) (rec : SessionRecord) : Files :=
  update files rec.display (some (asBytes (body rec)))

def readRecord (files : Files) (display : ℕ) : Option SessionRecord :=
    (files display).bind readBytes

/-- With no record to read nothing is written. -/
def setLocked (files : Files) (display : ℕ) (locked : Bool) : Files :=
  match readRecord files display with
  | none => files
  | some rec => writeRecord files { rec with locked := locked }

def lockOne (acc : Files × ℕ) (display : ℕ) : Files × ℕ :=
  match readRecord acc.1 display with
  | none => acc
  | some rec =>
    if rec.locked then acc else (writeRecord acc.1 { rec with locked := true }, acc.2 + 1)

def lockAll (files : Files) (range : DisplayRange) : Files × ℕ :=
  range.numbers.foldl lockOne (files, 0)

/-! ### Keys and lines -/

theorem Key.text_inj {k k' : Key} : k.text = k'.text ↔ k = k' := by cases k <;> cases k' <;> decide

theorem Key.equals_notMem (k : Key) : '=' ∉ k.text := by cases k <;> decide

theorem Key.feed_notMem (k : Key) : '\n' ∉ k.text := by cases k <;> decide

theorem feed_notMem_line {entry : Key × Text} (h : '\n' ∉ entry.2) : '\n' ∉ line entry := by
  simp [line, h, entry.1.feed_notMem]

theorem feed_notMem_lines {es : List (Key × Text)} (h : ∀ e ∈ es, '\n' ∉ e.2) :
    ∀ l ∈ es.map line, '\n' ∉ l :=
  forall_mem_map.2 fun e he => feed_notMem_line (h e he)

theorem stripPrefix_line (key : Key) (entry : Key × Text) :
    stripPrefix (key.text ++ ['=']) (line entry) = if entry.1 =
    key then some entry.2 else none := by
  split_ifs with hkey
  · subst hkey
    have hline : line entry = (entry.1.text ++ ['=']) ++ entry.2 := by simp [line]
    rw [hline, stripPrefix_append]
  · refine stripPrefix_eq_none ?_
    rintro ⟨rest, hrest⟩
    have hsplit := congrArg (splitOnce '=') hrest
    rw [append_assoc, singleton_append, line, splitOnce_append _ key.equals_notMem,
      splitOnce_append _ entry.1.equals_notMem] at hsplit
    have htext := (Prod.mk.inj (some.inj hsplit)).1
    exact hkey (Key.text_inj.1 htext).symm

theorem chomp_line (entry : Key × Text) : chomp (line entry) = line (entry.1, chomp entry.2) := by
  rcases eq_nil_or_concat entry.2 with hnil | ⟨init, c, hlast⟩
  · simp [chomp, line, hnil, endLine]
  · by_cases hc : c = '\r'
    · simp [chomp, line, hlast, hc, endLine]
    · have hne : ∀ l : Text, endLine (c :: l) = (c :: l).reverse := fun l =>
        endLine_of_ne (by simpa using hc)
      simp [chomp, line, hlast, hne]

/-! ### What a key reads -/

def lookup (es : List (Key × Text)) (key : Key) : Option Text :=
  (es.find? fun e => e.1 = key).map fun e => chomp e.2

theorem findSome?_lines (es : List (Key × Text)) (key : Key) :
    ((es.map line).map chomp).findSome? (stripPrefix (key.text ++ ['='])) = lookup es key := by
  induction es with
  | nil => rfl
  | cons e es ih =>
    rw [map_cons, map_cons, findSome?_cons, ih, chomp_line, stripPrefix_line]
    by_cases hkey : e.1 = key
    all_goals simp [lookup, hkey]

/-- **What a key reads** in whole lines and what is behind them. -/
theorem field_append {es : List (Key × Text)} (h : ∀ e ∈ es, '\n' ∉ e.2) (s : Text) (key : Key) :
    field (unlines (es.map line) ++ s) key = (lookup es key).or (field s key) := by
  rw [field, lines_unlines_append (feed_notMem_lines h), findSome?_append, findSome?_lines, field]

def value : Key → Option Text
  | .user => some rec.user.toList
  | .display => some (Nat.toDigits 10 rec.display)
  | .runtimeDir => some rec.runtimeDir.toList
  | .xauthority => some rec.xauthority.toList
  | .locked => some (boolText rec.locked)
  | .logindId => rec.logindId.map String.toList
  | .bus => rec.bus.map String.toList
  | .backend => some rec.backend.toList

variable {rec : SessionRecord}

theorem mem_entries {e : Key × Text} (h : e ∈ entries rec) : value rec e.1 = some e.2 := by
  rcases rec with ⟨user, display, runtimeDir, xauthority, locked, logindId, bus, backend⟩
  simp only [entries, head, tail, mem_append, mem_cons, not_mem_nil, or_false,
    mem_toList, map_eq_some_iff] at h
  rcases h with (rfl | rfl | rfl | rfl) | rfl | (⟨id, rfl, rfl⟩ | ⟨bus, rfl, rfl⟩) | rfl
  all_goals rfl

theorem lookup_entries (rec : SessionRecord) (key : Key) :
    lookup (entries rec) key = (value rec key).map chomp := by
  rcases rec with ⟨user, display, runtimeDir, xauthority, locked, logindId, bus, backend⟩
  cases key <;> cases logindId <;> cases bus <;> rfl

structure Plain (rec : SessionRecord) : Prop where
  display : rec.display < 65536
  noFeed : ∀ key v, value rec key = some v → '\n' ∉ v
  logindId : rec.logindId ≠ some ""
  bus : rec.bus ≠ some ""
  backend : rec.backend ≠ ""

theorem Plain.entries (h : Plain rec) : ∀ e ∈ entries rec, '\n' ∉ e.2 :=
  fun e he => h.noFeed e.1 e.2 (mem_entries he)

theorem field_body (h : Plain rec) (key : Key) :
    field (body rec) key = (value rec key).map chomp := by
  have happend := field_append h.entries [] key
  rw [append_nil] at happend
  rw [body, happend, lookup_entries]
  cases (value rec key).map chomp <;> rfl

theorem chomp_eq_iff (v : Text) : chomp v = v ↔ v.getLast? ≠ some '\r' := endLine_reverse_eq_iff v

theorem chomp_toDigits (n : ℕ) : chomp (Nat.toDigits 10 n) = Nat.toDigits 10 n := by
  rw [chomp_eq_iff]
  intro hlast
  have hdigit := Nat.isDigit_of_mem_toDigits (by decide) (by decide) (mem_of_getLast? hlast)
  exact absurd hdigit (by decide)

theorem chomp_boolText (b : Bool) : chomp (boolText b) = boolText b := by cases b <;> rfl

/-! ### Reading a whole file -/

def reread (rec : SessionRecord) : SessionRecord :=
  let bus := notEmpty ((value rec .bus).map chomp)
  { user := .ofList (chomp rec.user.toList)
    display := rec.display
    runtimeDir := .ofList (chomp rec.runtimeDir.toList)
    xauthority := .ofList (chomp rec.xauthority.toList)
    locked := rec.locked
    logindId := (notEmpty ((value rec .logindId).map chomp)).map String.ofList
    bus := bus.map String.ofList
    backend := .ofList ((notEmpty (some (chomp rec.backend.toList))).getD
      (if bus.isSome then gnomeHeadlessId else x11Id)) }

theorem boolText_eq_iff (b : Bool) : decide (boolText b = boolText true) = b := by
  cases b <;> decide

theorem readText_body (h : Plain rec) : readText (body rec) = some (reread rec) := by
  have hdisplay : parseU16 (Nat.toDigits 10 rec.display) = .ok ⟨rec.display, h.display⟩ :=
    parseUnsigned_toDigits h.display
  simp only [readText, field_body h, value, map_some, chomp_toDigits, chomp_boolText, hdisplay,
    Except.toOption, bind_eq_bind, bind_some, boolText_eq_iff]
  rfl

variable {v : Text}

theorem notEmpty_some (h : v ≠ []) : notEmpty (some v) = some v := by
  simp [notEmpty, filter_some, h]

theorem notEmpty_eq_some {o : Option Text} (h : notEmpty o = some v) : o = some v := by
  rw [notEmpty, filter_eq_some_iff] at h
  exact h.1

def NoReturn (rec : SessionRecord) : Prop :=
  ∀ key v, value rec key = some v → v.getLast? ≠ some '\r'

theorem NoReturn.chomp (h : NoReturn rec) (key : Key)
    (hv : value rec key = some v) : chomp v = v := (chomp_eq_iff v).2 (h key v hv)

variable {o : Option String}

theorem optional_reread (hempty : o ≠ some "")
    (hreturn : ∀ v, o.map String.toList = some v → chomp v = v) :
    (notEmpty ((o.map String.toList).map chomp)).map String.ofList = o := by
  cases o with
  | none => rfl
  | some v =>
    have hne : v.toList ≠ [] := by
      intro hnil
      exact hempty (by rw [String.toList_eq_nil_iff.1 hnil])
    rw [map_some, map_some, hreturn v.toList rfl, notEmpty_some hne, map_some, String.ofList_toList]

theorem optional_of_reread (h : (notEmpty ((o.map String.toList).map chomp)).map String.ofList = o)
    (hv : o.map String.toList = some v) : chomp v = v := by
  obtain ⟨s, rfl, rfl⟩ := map_eq_some_iff.1 hv
  obtain ⟨w, hw, rfl⟩ := map_eq_some_iff.1 h
  have hsome := notEmpty_eq_some hw
  simpa using hsome

theorem reread_eq (h : Plain rec) (hreturn : NoReturn rec) : reread rec = rec := by
  have hid := optional_reread h.logindId fun v hv => hreturn.chomp .logindId hv
  have hbus := optional_reread h.bus fun v hv => hreturn.chomp .bus hv
  have hbackend : rec.backend.toList ≠ [] := fun hnil => h.backend (String.toList_eq_nil_iff.1 hnil)
  have huser := hreturn.chomp .user rfl
  have hdir := hreturn.chomp .runtimeDir rfl
  have hxauthority := hreturn.chomp .xauthority rfl
  have hback := hreturn.chomp .backend rfl
  simp only [reread, value, huser, hdir, hxauthority, hback, hid, hbus, notEmpty_some hbackend,
    getD_some, String.ofList_toList]

theorem chomp_backend {v : String} {bus : Bool}
    (h : String.ofList ((notEmpty (some (chomp v.toList))).getD
      (if bus then gnomeHeadlessId else x11Id)) = v) : chomp v.toList = v.toList := by
  have hlist := congrArg String.toList h
  rw [String.toList_ofList] at hlist
  cases hread : notEmpty (some (chomp v.toList)) with
  | some w =>
    have hw := some.inj (notEmpty_eq_some hread)
    rw [hread, getD_some] at hlist
    rw [hw, hlist]
  | none =>
    rw [hread, getD_none] at hlist
    rw [← hlist]
    cases bus <;> decide

theorem noReturn_of_reread (h : reread rec = rec) : NoReturn rec := by
  intro key v hv
  rw [← chomp_eq_iff]
  have hstring : ∀ {s : String}, String.ofList (chomp s.toList) = s →
      chomp s.toList = s.toList := by
    intro s hs
    have hlist := congrArg String.toList hs
    rwa [String.toList_ofList] at hlist
  cases key with
  | user =>
    obtain rfl := some.inj hv
    exact hstring (congrArg SessionRecord.user h)
  | display =>
    obtain rfl := some.inj hv
    exact chomp_toDigits _
  | runtimeDir =>
    obtain rfl := some.inj hv
    exact hstring (congrArg SessionRecord.runtimeDir h)
  | xauthority =>
    obtain rfl := some.inj hv
    exact hstring (congrArg SessionRecord.xauthority h)
  | locked =>
    obtain rfl := some.inj hv
    exact chomp_boolText _
  | logindId => exact optional_of_reread (congrArg SessionRecord.logindId h) hv
  | bus => exact optional_of_reread (congrArg SessionRecord.bus h) hv
  | backend =>
    obtain rfl := some.inj hv
    exact chomp_backend (congrArg SessionRecord.backend h)

/-! ### What a reader can return -/

variable {t : Text} {key : Key}

theorem feed_notMem_field (h : field t key = some v) : '\n' ∉ v := by
  obtain ⟨l, hl, hstrip⟩ := exists_of_findSome?_eq_some h
  have hline := feed_notMem_of_mem_lines hl
  unfold stripPrefix at hstrip
  split_ifs at hstrip
  obtain rfl := some.inj hstrip
  exact fun hmem => hline (mem_of_mem_drop hmem)

theorem readText_some (h : readText t = some rec) :
    field t .user = some rec.user.toList ∧ field t .runtimeDir = some rec.runtimeDir.toList ∧
      field t .xauthority = some rec.xauthority.toList ∧ rec.display < 65536 ∧
      rec.locked = (match field t .locked with
        | none => true
        | some v => decide (v = boolText true)) ∧
      rec.logindId = (notEmpty (field t .logindId)).map String.ofList ∧
      rec.bus = (notEmpty (field t .bus)).map String.ofList ∧
      rec.backend.toList = (notEmpty (field t .backend)).getD
        (if (notEmpty (field t .bus)).isSome then gnomeHeadlessId else x11Id) := by
  simp only [readText, bind_eq_bind, bind_eq_some_iff, Option.pure_def, some.injEq] at h
  obtain ⟨user, huser, display, hdisplay, number, hnumber, dir, hdir, xauthority, hxauthority,
      rfl⟩ := h
  refine ⟨?_, ?_, ?_, number.isLt, rfl, rfl, rfl, ?_⟩
  · rw [huser, String.toList_ofList]
  · rw [hdir, String.toList_ofList]
  · rw [hxauthority, String.toList_ofList]
  · rw [String.toList_ofList]

theorem notEmpty_ne_nil {o : Option Text} (h : notEmpty o = some v) : v ≠ [] := by
  rw [notEmpty, filter_eq_some_iff] at h
  simpa using h.2

theorem optional_read (ho : o = (notEmpty (field t key)).map String.ofList) :
    o ≠ some "" ∧ ∀ v, o.map String.toList = some v → '\n' ∉ v := by
  subst ho
  constructor
  · intro hempty
    obtain ⟨v, hv, hnil⟩ := map_eq_some_iff.1 hempty
    exact notEmpty_ne_nil hv (by simpa using congrArg String.toList hnil)
  · intro v hv
    obtain ⟨s, hs, rfl⟩ := map_eq_some_iff.1 hv
    obtain ⟨w, hw, rfl⟩ := map_eq_some_iff.1 hs
    rw [String.toList_ofList]
    exact feed_notMem_field (notEmpty_eq_some hw)

/-- **A record that was read can be written**: its values stand on lines. -/
theorem plain_of_readText (h : readText t = some rec) : Plain rec := by
  obtain ⟨huser, hdir, hxauthority, hdisplay, -, hid, hbus, hbackend⟩ := readText_some h
  have hback : rec.backend.toList ≠ [] ∧ '\n' ∉ rec.backend.toList := by
    rw [hbackend]
    cases hread : notEmpty (field t .backend) with
    | some v => exact ⟨notEmpty_ne_nil hread, feed_notMem_field (notEmpty_eq_some hread)⟩
    | none =>
      split
      · decide
      · decide
  refine ⟨hdisplay, ?_, (optional_read hid).1, (optional_read hbus).1, ?_⟩
  · intro key v hv
    cases key with
    | user => exact feed_notMem_field (huser.trans hv)
    | display =>
      obtain rfl := some.inj hv
      intro hmem
      exact absurd (Nat.isDigit_of_mem_toDigits (by decide) (by decide) hmem) (by decide)
    | runtimeDir => exact feed_notMem_field (hdir.trans hv)
    | xauthority => exact feed_notMem_field (hxauthority.trans hv)
    | locked =>
      obtain rfl := some.inj hv
      cases rec.locked <;> decide
    | logindId => exact (optional_read hid).2 v hv
    | bus => exact (optional_read hbus).2 v hv
    | backend =>
      obtain rfl := some.inj hv
      exact hback.2
  · intro hempty
    exact hback.1 (by rw [hempty]; rfl)

theorem plain_of_readRecord {files : Files} {d : ℕ}
    (h : readRecord files d = some rec) : Plain rec := by
  obtain ⟨bytes, -, hbytes⟩ := bind_eq_some_iff.1 h
  obtain ⟨t, -, ht⟩ := bind_eq_some_iff.1 hbytes
  exact plain_of_readText ht

/-! ### The lock state -/

section

variable {files : Files} {rec : SessionRecord} {d e : ℕ} {b : Bool}

theorem value_withLocked
    (h : value { rec with locked := b } key = some v) : v = boolText b ∨
    value rec key = some v := by
  cases key with
  | locked => exact .inl (some.inj h).symm
  | _ => exact .inr h

theorem Plain.withLocked (h : Plain rec) (b : Bool) : Plain { rec with locked := b } where
  display := h.display
  noFeed key v hv := by
    rcases value_withLocked hv with rfl | hv
    · cases b <;> decide
    · exact h.noFeed key v hv
  logindId := h.logindId
  bus := h.bus
  backend := h.backend

theorem NoReturn.withLocked (h : NoReturn rec) (b : Bool) : NoReturn { rec with locked := b } := by
  intro key v hv
  rcases value_withLocked hv with rfl | hv
  · cases b <;> decide
  · exact h key v hv

def Filed (files : Files) : Prop := ∀ d rec, readRecord files d = some rec → rec.display = d

theorem readRecord_writeRecord_self (h : Plain rec) :
    readRecord (writeRecord files rec) rec.display = some (reread rec) := by
  rw [readRecord, writeRecord, update_self, bind_some, readBytes, fromUtf8_asBytes,
    bind_some, readText_body h]

theorem readRecord_writeRecord_of_ne (h : d ≠ rec.display) :
    readRecord (writeRecord files rec) d = readRecord files d := by
  rw [readRecord, writeRecord, update_of_ne h, readRecord]

theorem Filed.writeRecord (hf : Filed files) (h : Plain rec) : Filed (writeRecord files rec) := by
  intro d r hr
  by_cases hd : d = rec.display
  · subst hd
    rw [readRecord_writeRecord_self h] at hr
    rw [← some.inj hr]
    rfl
  · rw [readRecord_writeRecord_of_ne hd] at hr
    exact hf d r hr

theorem Filed.setLocked (hf : Filed files) (d : ℕ) (b : Bool) : Filed (setLocked files d b) := by
  unfold RecordFile.setLocked
  cases hd : readRecord files d with
  | none => exact hf
  | some r => exact hf.writeRecord ((plain_of_readRecord hd).withLocked b)

theorem readRecord_setLocked (hf : Filed files) (he : readRecord files e = some rec)
    (hreturn : NoReturn rec) (d : ℕ) (b : Bool) :
    readRecord (setLocked files d b) e = some (if d =
    e then { rec with locked := b } else rec) := by
  unfold setLocked
  by_cases hde : d = e
  · subst hde
    have hplain := (plain_of_readRecord he).withLocked b
    obtain rfl := hf d rec he
    rw [he, if_pos rfl]
    exact (readRecord_writeRecord_self hplain).trans
      (congrArg some (reread_eq hplain (hreturn.withLocked b)))
  · rw [if_neg hde]
    cases hd : readRecord files d with
    | none => exact he
    | some r => exact (readRecord_writeRecord_of_ne (hf d r hd ▸ Ne.symm hde)).trans he

theorem lockOne_cases (acc : Files × ℕ) (d : ℕ) : (lockOne acc d).1 = setLocked acc.1 d true ∨
    (lockOne acc d).1 = acc.1 ∧ ∀ r, readRecord acc.1 d = some r → r.locked = true := by
  unfold lockOne setLocked
  cases hd : readRecord acc.1 d with
  | none => exact .inl rfl
  | some r =>
    by_cases hlocked : r.locked = true
    all_goals simp [hlocked]

theorem readRecord_lockOne {acc : Files × ℕ} (hf : Filed acc.1) (he : readRecord acc.1 e = some rec)
    (hreturn : NoReturn rec) (d : ℕ) :
    Filed (lockOne acc d).1 ∧
      readRecord (lockOne acc d).1 e = some (if d =
      e then { rec with locked := true } else rec) := by
  obtain h | ⟨h, hlocked⟩ := lockOne_cases acc d
  · rw [h]
    exact ⟨hf.setLocked d true, readRecord_setLocked hf he hreturn d true⟩
  · rw [h, he]
    refine ⟨hf, congrArg some ?_⟩
    split_ifs with hde
    · rw [← hlocked rec (hde ▸ he)]
    · rfl

theorem readRecord_foldl_lockOne {acc : Files × ℕ} (hf : Filed acc.1)
    (he : readRecord acc.1 e = some rec) (hreturn : NoReturn rec) (ds : List ℕ) :
    readRecord (ds.foldl lockOne acc).1 e =
      some (if e ∈ ds then { rec with locked := true } else rec) := by
  induction ds generalizing acc rec with
  | nil => exact he
  | cons d ds ih =>
    obtain ⟨hf', he'⟩ := readRecord_lockOne hf he hreturn d
    rw [foldl_cons]
    split_ifs at he' with hde
    · have hmem : e ∈ d :: ds := hde ▸ mem_cons_self
      rw [ih hf' he' (hreturn.withLocked true), if_pos hmem]
      split <;> rfl
    · rw [ih hf' he' hreturn]
      simp [Ne.symm hde]

/-! ### The directory of `Registry` -/

theorem view_writeRecord (h : Plain rec) (hreturn : NoReturn rec) :
    readRecord (writeRecord files rec) = Registry.writeRecord (readRecord files) rec := by
  funext d
  by_cases hd : d = rec.display
  · subst hd
    rw [readRecord_writeRecord_self h, reread_eq h hreturn, Registry.writeRecord, update_self]
  · rw [readRecord_writeRecord_of_ne hd, Registry.writeRecord, update_of_ne hd]

theorem view_forgetRecord (d : ℕ) :
    readRecord (update files d none) = forgetRecord (readRecord files) d := by
  funext e
  by_cases he : e = d
  · simp [readRecord, he]
  · rw [forgetRecord_of_ne he, readRecord, update_of_ne he, readRecord]

/-- What is written is `Plain`, and no value of it ends in a return. -/
inductive Edit
  | write (rec : SessionRecord) (plain : Plain rec) (noReturn : NoReturn rec)
  | setLocked (display : ℕ) (locked : Bool)
  | forget (display : ℕ)

def edit (files : Files) : Edit → Files
  | .write rec _ _ => writeRecord files rec
  | .setLocked display locked => setLocked files display locked
  | .forget display => update files display none

def editRecords (records : Records) : Edit → Records
  | .write rec _ _ => Registry.writeRecord records rec
  | .setLocked display locked => Registry.setLocked records display locked
  | .forget display => forgetRecord records display

/-- **The files read as the records of `Registry`** after any edits of an empty directory. -/
theorem readRecord_edits (edits : List Edit) :
    readRecord (edits.foldl edit fun _ => none) = edits.foldl editRecords fun _ => none := by
  suffices h : ∀ files, (∀ d rec, readRecord files d = some rec → NoReturn rec) →
      readRecord (edits.foldl edit files) = edits.foldl editRecords (readRecord files) from
    h _ fun _ _ h => by cases h
  induction edits with
  | nil => exact fun _ _ => rfl
  | cons e edits ih =>
    intro files hreturn
    -- a new lock state is a write of the record that was read
    have hwrite : ∀ rec, Plain rec → NoReturn rec →
        readRecord (edits.foldl edit (writeRecord files rec)) =
          edits.foldl editRecords (Registry.writeRecord (readRecord files) rec) := by
      intro rec plain noReturn
      rw [← view_writeRecord plain noReturn]
      refine ih _ fun d r hr => ?_
      rw [view_writeRecord plain noReturn] at hr
      obtain ⟨-, rfl⟩ | ⟨-, hr⟩ := writeRecord_some hr
      · exact noReturn
      · exact hreturn d r hr
    cases e with
    | write rec plain noReturn => exact hwrite rec plain noReturn
    | setLocked display locked =>
      rw [foldl_cons, foldl_cons, edit, editRecords, setLocked, Registry.setLocked]
      cases hd : readRecord files display with
      | none => exact ih files hreturn
      | some r =>
        exact hwrite _ ((plain_of_readRecord hd).withLocked locked)
          ((hreturn _ r hd).withLocked locked)
    | forget display =>
      rw [foldl_cons, foldl_cons, edit, editRecords, ← view_forgetRecord]
      refine ih _ fun d r hr => ?_
      rw [view_forgetRecord] at hr
      exact hreturn d r (forgetRecord_some hr).2

end

/-! ### A reader in the middle of a write -/

section

variable {rec : SessionRecord} {cut : ℕ} {t : Text}

def front (rec : SessionRecord) : Text :=
  unlines ((head rec).map line) ++ (Key.locked.text ++ ['='])

def flagStart (rec : SessionRecord) : ℕ := (asBytes (front rec)).length

theorem body_eq (rec : SessionRecord) :
    body rec = front rec ++ (boolText rec.locked ++ '\n' :: unlines ((tail rec).map line)) := by
  simp [body, entries, front, line, unlines]

theorem Plain.head (h : Plain rec) : ∀ e ∈ head rec, '\n' ∉ e.2 :=
  fun e he => h.entries e (mem_append_left _ he)

theorem length_boolText_true : (asBytes (boolText true)).length = 4 := by decide

theorem field_locked_of_short (h : Plain rec) (hpre : t <+: front rec) (hne : t ≠ front rec) :
    field t .locked = none := by
  have hshort : t <+: unlines ((head rec).map line ++ [Key.locked.text]) := by
    have hlast : t <+: unlines ((head rec).map line) ++ Key.locked.text := by
      rw [front, ← append_assoc] at hpre hne
      exact (prefix_concat_iff.1 hpre).resolve_left hne
    refine hlast.trans ⟨['\n'], ?_⟩
    simp [unlines]
  have hlines : ∀ l ∈ (head rec).map line ++ [Key.locked.text], '\n' ∉ l :=
    forall_mem_append.2 ⟨feed_notMem_lines h.head, forall_mem_singleton.2 Key.locked.feed_notMem⟩
  refine findSome?_eq_none_iff.2 fun l hl => stripPrefix_eq_none fun hkey => ?_
  obtain ⟨whole, hwhole, hl⟩ := mem_lines_of_prefix hlines hshort l hl
  have hwholePre := hkey.trans hl
  rcases mem_append.1 hwhole with hmem | hmem
  · obtain ⟨e, he, rfl⟩ := mem_map.1 hmem
    have hother : e.1 ≠ .locked := by
      simp only [head, mem_cons, not_mem_nil, or_false] at he
      rcases he with rfl | rfl | rfl | rfl <;> simp
    obtain ⟨rest, hrest⟩ := hwholePre
    have hstrip := stripPrefix_append (Key.locked.text ++ ['=']) rest
    rw [hrest, stripPrefix_line, if_neg hother] at hstrip
    simp at hstrip
  · rw [mem_singleton.1 hmem] at hwholePre
    exact absurd hwholePre.length_le (by decide)

theorem field_front_append (h : Plain rec) (s : Text) (key : Key) :
    field (front rec ++ s) key =
      (lookup (head rec) key).or (field (Key.locked.text ++ '=' :: s) key) := by
  rw [front, append_assoc, field_append h.head]
  simp

theorem field_locked_of_line {s : Text} (hv : '\n' ∉ v) (hr : v.getLast? ≠ some '\r')
    (hs : s = [] ∨ ∃ rest, s = '\n' :: rest) :
    field (Key.locked.text ++ '=' :: (v ++ s)) .locked = some v := by
  have hline : '\n' ∉ line (.locked, v) := feed_notMem_line hv
  have hlines : ∃ ls, lines (line (.locked, v) ++ s) = line (.locked, v) :: ls := by
    rcases hs with rfl | ⟨rest, rfl⟩
    · refine ⟨[], ?_⟩
      rw [append_nil, lines_of_notMem hline, if_neg (by simp [line])]
    · refine ⟨lines rest, ?_⟩
      have hchomp := chomp_line (.locked, v)
      rw [(chomp_eq_iff v).2 hr] at hchomp
      rw [lines_feed rest hline, ← chomp, hchomp]
  obtain ⟨ls, hls⟩ := hlines
  have htext : Key.locked.text ++ '=' :: (v ++ s) = line (.locked, v) ++ s := by simp [line]
  rw [htext, field, hls, findSome?_cons, stripPrefix_line, if_pos rfl]

theorem lookup_head_locked (rec : SessionRecord) : lookup (head rec) .locked = none := rfl

theorem readText_front (h : Plain rec) {s : Text} (hv : '\n' ∉ v) (hr : v.getLast? ≠ some '\r')
    (hs : s = [] ∨ ∃ rest, s = '\n' :: rest) :
    ∃ r, readText (front rec ++ (v ++ s)) = some r ∧ r.locked = decide (v = boolText true) := by
  have hlocked : field (front rec ++ (v ++ s)) .locked = some v := by
    rw [field_front_append h, lookup_head_locked, none_or, field_locked_of_line hv hr hs]
  have hdisplay : parseU16 (Nat.toDigits 10 rec.display) = .ok ⟨rec.display, h.display⟩ :=
    parseUnsigned_toDigits h.display
  have hfield : ∀ (key : Key) {w : Text}, lookup (head rec) key = some w →
      field (front rec ++ (v ++ s)) key = some w := by
    intro key w hw
    rw [field_front_append h, hw, some_or]
  have huser := hfield .user rfl
  have hnumber := hfield .display rfl
  have hdir := hfield .runtimeDir rfl
  have hxauthority := hfield .xauthority rfl
  have hsome : (readText (front rec ++ (v ++ s))).isSome = true := by
    simp only [readText, huser, hnumber, hdir, hxauthority, chomp_toDigits, hdisplay,
      Except.toOption, bind_eq_bind, bind_some, Option.pure_def, isSome_some]
  obtain ⟨r, hr⟩ := isSome_iff_exists.1 hsome
  obtain ⟨-, -, -, -, hrlocked, -⟩ := readText_some hr
  rw [hlocked] at hrlocked
  exact ⟨r, hr, hrlocked⟩

variable {r : SessionRecord}

theorem readBytes_take (h : readBytes ((asBytes (body rec)).take cut) = some r) :
    ∃ t, readText t = some r ∧ asBytes t = (asBytes (body rec)).take cut ∧ t <+: body rec := by
  obtain ⟨t, ht, hr⟩ := bind_eq_some_iff.1 h
  have hbytes := asBytes_of_fromUtf8 ht
  refine ⟨t, hr, hbytes, asBytes_prefix_iff.1 ?_⟩
  rw [hbytes]
  exact take_prefix cut _

theorem asBytes_body (rec : SessionRecord) :
    asBytes (body rec) = asBytes (front rec) ++ (asBytes (boolText rec.locked) ++
      asBytes ('\n' :: unlines ((tail rec).map line))) := by
  rw [body_eq, asBytes_append, asBytes_append]

theorem locked_of_cut_before (h : Plain rec) (hcut : cut < flagStart rec)
    (hr : readBytes ((asBytes (body rec)).take cut) = some r) : r.locked = true := by
  obtain ⟨t, hread, hbytes, -⟩ := readBytes_take hr
  have htake : asBytes t = (asBytes (front rec)).take cut := by
    rw [hbytes, asBytes_body, take_append_of_le_length (Nat.le_of_lt hcut)]
  have hpre : t <+: front rec := by
    rw [← asBytes_prefix_iff, htake]
    exact take_prefix cut _
  have hne : t ≠ front rec := by
    rintro rfl
    have hlen := congrArg List.length htake
    rw [length_take, ← flagStart] at hlen
    omega
  obtain ⟨-, -, -, -, hlocked, -⟩ := readText_some hread
  rwa [field_locked_of_short h hpre hne] at hlocked

theorem unlocked_of_cut_inside (h : Plain rec) (hlocked : rec.locked = true)
    (hstart : flagStart rec ≤ cut) (hcut : cut < flagStart rec + 4) :
    ∃ r, readBytes ((asBytes (body rec)).take cut) = some r ∧ r.locked = false := by
  obtain ⟨k, hk, rfl⟩ : ∃ k, k < 4 ∧ cut = flagStart rec + k :=
      ⟨cut - flagStart rec, by omega, by omega⟩
  have htrue : ∀ k < 4, (asBytes (boolText true)).take k = asBytes ((boolText true).take k) ∧
      '\n' ∉ (boolText true).take k ∧ ((boolText true).take k).getLast? ≠ some '\r' ∧
      (boolText true).take k ≠ boolText true := by decide
  obtain ⟨hbytes, hfeed, hreturn, hne⟩ := htrue k hk
  obtain ⟨r, hr, hrlocked⟩ := readText_front h hfeed hreturn (.inl rfl : ([] : Text) = [] ∨ _)
  refine ⟨r, ?_, by rw [hrlocked]; exact decide_eq_false hne⟩
  have htake : (asBytes (body rec)).take (flagStart rec + k) =
      asBytes (front rec ++ ((boolText true).take k ++ [])) := by
    have hshort : k ≤ (asBytes (boolText true)).length := by
      rw [length_boolText_true]
      omega
    rw [asBytes_body, hlocked, flagStart, take_length_add_append,
      take_append_of_le_length hshort, hbytes, append_nil, asBytes_append]
  rw [htake, readBytes, fromUtf8_asBytes, bind_some, hr]

theorem locked_of_cut_after (h : Plain rec) (hlocked : rec.locked = true)
    (hcut : flagStart rec + 4 ≤ cut)
    (hr : readBytes ((asBytes (body rec)).take cut) = some r) : r.locked = true := by
  obtain ⟨t, hread, hbytes, hpre⟩ := readBytes_take hr
  obtain ⟨s, rfl⟩ : front rec ++ boolText true <+: t := by
    have hfull : asBytes (body rec) = asBytes (front rec ++ boolText true) ++
        asBytes ('\n' :: unlines ((tail rec).map line)) := by
      rw [asBytes_body, hlocked, asBytes_append, append_assoc]
    rw [← asBytes_prefix_iff, hbytes, prefix_take_iff, hfull]
    refine ⟨prefix_append _ _, ?_⟩
    rw [asBytes_append, length_append, length_boolText_true]
    exact hcut
  have hs : s = [] ∨ ∃ rest, s = '\n' :: rest := by
    rw [body_eq, hlocked, append_assoc, prefix_append_right_inj, prefix_append_right_inj] at hpre
    rcases s with _ | ⟨c, rest⟩
    · exact .inl rfl
    · obtain ⟨rfl, -⟩ := cons_prefix_cons.1 hpre
      exact .inr ⟨rest, rfl⟩
  obtain ⟨r', hr', hrlocked⟩ := readText_front h (v := boolText true) (by decide) (by decide) hs
  rw [append_assoc, hr'] at hread
  obtain rfl := some.inj hread
  rw [hrlocked]
  exact decide_eq_true rfl

end

/-! ### What the record files are for -/

/-- What a record that is filed keeps: it reads back, a new lock state changes nothing else of it,
and a reader that finds only its first `cut` bytes does not take a locked session for an open one.
-/
structure Keeps (rec : SessionRecord) (cut : ℕ) : Prop where
  readBack : ∀ files, readRecord (writeRecord files rec) rec.display = some rec
  setLocked : ∀ files d b, Filed files →
    readRecord (setLocked (writeRecord files rec) d b) rec.display =
      some (if d = rec.display then { rec with locked := b } else rec)
  lockAll : ∀ files range, Filed files →
    readRecord (lockAll (writeRecord files rec) range).1 rec.display =
      some (if rec.display ∈ range.numbers then { rec with locked := true } else rec)
  torn : rec.locked = true → ∀ r,
    readBytes ((asBytes (body rec)).take cut) = some r → r.locked = true

def InsideFlag (rec : SessionRecord) (cut : ℕ) : Prop :=
  flagStart rec ≤ cut ∧ cut < flagStart rec + 4

/-- **A record file keeps its record** exactly when no value ends in a carriage return and, for a
locked one, the cut is not inside the word `true`. -/
theorem keeps_iff {rec : SessionRecord} (h : Plain rec) (cut : ℕ) :
    Keeps rec cut ↔ NoReturn rec ∧ (rec.locked = true → ¬ InsideFlag rec cut) := by
  constructor
  · intro hkeeps
    constructor
    · have hback := hkeeps.readBack fun _ => none
      rw [readRecord_writeRecord_self h] at hback
      exact noReturn_of_reread (some.inj hback)
    · rintro hlocked ⟨hstart, hend⟩
      obtain ⟨r, hr, hopen⟩ := unlocked_of_cut_inside h hlocked hstart hend
      rw [hkeeps.torn hlocked r hr] at hopen
      simp at hopen
  · rintro ⟨hreturn, hcut⟩
    have hback : ∀ files, readRecord (writeRecord files rec) rec.display = some rec := fun files =>
      (readRecord_writeRecord_self h).trans (congrArg some (reread_eq h hreturn))
    refine ⟨hback, ?_, ?_, ?_⟩
    · intro files d b hf
      exact readRecord_setLocked (hf.writeRecord h) (hback files) hreturn d b
    · intro files range hf
      exact readRecord_foldl_lockOne (hf.writeRecord h) (hback files) hreturn range.numbers
    · intro hlocked r hr
      rcases Nat.lt_or_ge cut (flagStart rec) with hbefore | hstart
      · exact locked_of_cut_before h hbefore hr
      · refine locked_of_cut_after h hlocked ?_ hr
        by_contra hend
        exact hcut hlocked ⟨hstart, by omega⟩

def lockedSession : SessionRecord where
  user := "alice"
  display := 10
  runtimeDir := "/run/user/1000"
  xauthority := "/run/user/1000/linrdp/Xauthority"
  locked := true
  logindId := some "c2"
  bus := none
  backend := "x11"

theorem lockedSession_values (h : value lockedSession key = some v) :
    '\n' ∉ v ∧ v.getLast? ≠ some '\r' := by
  cases key <;> simp only [value, lockedSession, map_some, map_none, some.injEq,
    reduceCtorEq] at h <;> subst h <;> decide

theorem lockedSession_plain : Plain lockedSession where
  display := by decide
  noFeed _ _ hv := (lockedSession_values hv).1
  logindId := by decide
  bus := by decide
  backend := by decide

/-- The file cut after `locked`, and after the last letter of `true`. -/
theorem lockedSession_kept : Keeps lockedSession (flagStart lockedSession - 1) ∧
    Keeps lockedSession (flagStart lockedSession + 4) := by
  have hreturn : NoReturn lockedSession := fun _ _ hv => (lockedSession_values hv).2
  have hpos : 0 < flagStart lockedSession := by
    rw [flagStart, front, asBytes_append, length_append]
    have hkey : (asBytes (Key.locked.text ++ ['='])).length = 7 := by decide
    omega
  constructor <;> refine (keeps_iff lockedSession_plain _).2 ⟨hreturn, ?_⟩ <;>
    rintro - ⟨hstart, hend⟩ <;> omega

/-- A reader that finds the file up to `locked=tru` takes the session for an open one. -/
theorem lockedSession_opened :
    Plain lockedSession ∧ lockedSession.locked = true ∧
      flagStart lockedSession + 3 < (asBytes (body lockedSession)).length ∧
      ∃ r, readBytes ((asBytes (body lockedSession)).take (flagStart lockedSession + 3)) = some r ∧
        r.locked = false := by
  obtain ⟨r, hr, hopen⟩ := unlocked_of_cut_inside lockedSession_plain rfl
    (Nat.le_add_right (flagStart lockedSession) 3) (by omega)
  refine ⟨lockedSession_plain, rfl, ?_, r, hr, hopen⟩
  have htrue : (asBytes (boolText lockedSession.locked)).length = 4 := length_boolText_true
  rw [asBytes_body, length_append, length_append, htrue, flagStart]
  omega

end Linrdp.Session.RecordFile
