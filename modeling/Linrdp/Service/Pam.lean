import Linrdp.Lib.TextLines
import Mathlib.Data.List.Infix

/-!
# The credential-capture line in the PAM stacks

`service/pam.rs`, and the loop of `install` over the stack files of a distribution. `wire` appends a
marker and the capture line to a stack; `unwire` leaves out every marker with the capture line
behind it, and writes the other lines back with line feeds. A stack that `wire` changed is given
back byte for byte exactly when it ended in a line feed, had no carriage return before one, and held
no marked capture line of its own (`undone_iff`). The copy that `wire` keeps stays the original,
however often `install` runs and whatever it fails to write, exactly when the stack lacks at most
one of the lines it is to have (`backup_iff`).
-/

namespace Linrdp.Service.Pam

open Function List Lib.TextLines Prod Option

def marker : Text := "# linrdp credential capture — added by `linrdp service install`".toList

def captureFlag : Text := "--capture-credential".toList

inductive Stack
  | auth | password
deriving DecidableEq

def Stack.keyword : Stack → Text
  | .auth => "auth".toList
  | .password => "password".toList

inductive Outcome
  | added (path : Text) (kind : Stack)
  | alreadyPresent (path : Text) (kind : Stack)
  | removed (path : Text)
  | absent (path : Text)
deriving DecidableEq

variable (pamDir : Text)

def inDir (name : String) : Text := pamDir ++ '/' :: name.toList

def candidates : List (Text × List Stack) :=
  [(inDir pamDir "common-auth", [.auth]),
    (inDir pamDir "common-password", [.password]),
    (inDir pamDir "system-auth", [.auth, .password]),
    (inDir pamDir "password-auth", [.auth, .password])]

def lineFor (kind : Stack) (binary : Text) : Text :=
  kind.keyword ++ List.replicate (9 - kind.keyword.length) ' ' ++
    (" optional  pam_exec.so expose_authtok quiet ".toList ++ (binary ++ ' ' :: captureFlag))

def contains (pattern t : Text) : Bool := decide (pattern <:+: t)

def isCapture (kind : Stack) (line : Text) : Bool :=
  (trimStart line).head? != some '#' && contains captureFlag (trimStart line) &&
    firstWord line == some kind.keyword

def hasCapture (body : Text) (kind : Stack) : Bool := (lines body).any (isCapture kind)

def stackTypes : List Text :=
  ["auth".toList, "account".toList, "password".toList, "session".toList,
    "-auth".toList, "-account".toList, "-password".toList, "-session".toList]

def isStackLine (line : Text) : Bool :=
  (trim line).isEmpty || (trim line).head? == some '#' || (trim line).head? == some '@' ||
    (firstWord (trim line)).any fun first => stackTypes.contains first

def looksLikeAStack (body : Text) : Bool := (lines body).all isStackLine

/-! ### The two edits -/

variable (original : Text)

def ended : Text :=
  if original.getLast? ≠ some '\n' ∧ original ≠ [] then original ++ ['\n'] else original

def block (kind : Stack) (binary : Text) : Text := marker ++ '\n' :: (lineFor kind binary ++ ['\n'])

def proposed (kind : Stack) (binary : Text) : Text := ended original ++ block kind binary

/-- Ours, if the line it introduces really is a capture line. -/
def ours (line next : Text) : Bool := trimEnd line == marker && contains captureFlag next

def kept : List Text → List Text × Bool
  | [] => ([], false)
  | [line] => ([line], false)
  | line :: next :: rest =>
    if ours line next then ((kept rest).1, true)
    else (line :: (kept (next :: rest)).1, (kept (next :: rest)).2)

def rejoin (ls : List Text) : Text := List.intercalate ['\n'] ls ++ ['\n']

def stripped : Option Text :=
  if (kept (lines original)).2 then some (rejoin (kept (lines original)).1) else none

/-! ### The files -/

abbrev Disk := Text → Option (List UInt8)

def Disk.write (disk : Disk) (path body : Text) :
    Disk := Function.update disk path (some (asBytes body))

def readToString (disk : Disk) (path : Text) : Option Text := (disk path).bind fromUtf8

def backupPath (path : Text) : Text := path ++ ".linrdp-backup".toList

structure Writes where
  (backup file : Bool)

variable (io : Writes)

def replace (disk : Disk) (path original body : Text) (done : Outcome) :
    Except Text Outcome × Disk :=
  if !io.backup then (.error ("write the backup ".toList ++ backupPath path), disk)
  else if !io.file then (.error ("write ".toList ++ path), disk.write (backupPath path) original)
  else (.ok done, (disk.write (backupPath path) original).write path body)

def refusal (path : Text) : Text :=
  "refusing to change ".toList ++ path ++
    (": the result would not be a usable PAM stack, and this file decides whether anyone can " ++
      "log into this machine. Nothing was changed.").toList

def wire (verify : Text → Bool) (disk : Disk) (path : Text) (kind : Stack) (binary : Text) :
    Except Text Outcome × Disk :=
  match readToString disk path with
  | none => (.ok (.absent path), disk)
  | some original =>
    if hasCapture original kind then (.ok (.alreadyPresent path kind), disk)
    else if !verify (proposed original kind binary) then (.error (refusal path), disk)
    else replace io disk path original (proposed original kind binary) (.added path kind)

def unwire (disk : Disk) (path : Text) : Except Text Outcome × Disk :=
  match readToString disk path with
  | none => (.ok (.absent path), disk)
  | some original =>
    match stripped original with
    | none => (.ok (.absent path), disk)
    | some body => replace io disk path original body (.removed path)

/-! ### Install -/

def each {α : Type} (edit : Disk → α → Except Text Outcome × Disk) :
    List α → Disk → Except Text (List Outcome) × Disk
  | [], disk => (.ok [], disk)
  | a :: rest, disk =>
    match edit disk a with
    | (.error e, disk) => (.error e, disk)
    | (.ok outcome, disk) => ((each edit rest disk).1.map (outcome :: ·), (each edit rest disk).2)

def wirings : List (Text × Stack) :=
  (candidates pamDir).flatMap fun candidate => candidate.2.map fun kind => (candidate.1, kind)

/-- One `install`: the writes of each wiring succeed or fail on their own. -/
def install (io : Text → Stack → Writes) (pamDir binary : Text) :
    Disk → Except Text (List Outcome) × Disk :=
  each (fun disk wiring => wire (io wiring.1 wiring.2) looksLikeAStack disk wiring.1 wiring.2
    binary)
    (wirings pamDir)

/-- Several of them, one after another. -/
def installs (pamDir binary : Text) (ios : List (Text → Stack → Writes)) (disk : Disk) : Disk :=
  ios.foldl (fun disk io => (install io pamDir binary disk).2) disk

/-! ### What a stack must be to be given back -/

def Marked (content : Text) : Prop :=
  ∃ before line next after, lines content = before ++ line :: next :: after ∧ ours line next = true

structure Restorable (content : Text) : Prop where
  feed : content.getLast? = some '\n'
  crLf : ¬HasCrLf content
  marked : ¬Marked content

/-! ### The lines `wire` adds -/

theorem feed_notMem_marker : '\n' ∉ marker := by decide

theorem contains_marker : contains captureFlag marker = false := by decide

theorem trimEnd_marker : trimEnd marker = marker := by decide

theorem getLast?_marker : marker.getLast? ≠ some '\r' := by decide

variable {binary : Text}

section

variable (kind : Stack)

theorem feed_notMem_lineFor (h : '\n' ∉ binary) : '\n' ∉ lineFor kind binary := by
  have hhead : '\n' ∉ kind.keyword ++ replicate (9 - kind.keyword.length) ' ' := by
    cases kind with
    | auth => decide
    | password => decide
  have hflag : '\n' ∉ ' ' :: captureFlag := by decide
  have htext : '\n' ∉ " optional  pam_exec.so expose_authtok quiet ".toList := by decide
  simp only [lineFor, mem_append, not_or]
  exact ⟨mem_append.not.1 hhead |> not_or.1, htext, h, hflag⟩

theorem exists_lineFor_eq (binary : Text) : ∃ start, lineFor kind binary = start ++ captureFlag :=
  ⟨kind.keyword ++ replicate (9 - kind.keyword.length) ' ' ++
    (" optional  pam_exec.so expose_authtok quiet ".toList ++ (binary ++ [' '])), by simp [lineFor]⟩

theorem contains_lineFor (binary : Text) : contains captureFlag (lineFor kind binary) = true := by
  obtain ⟨start, h⟩ := exists_lineFor_eq kind binary
  exact decide_eq_true ⟨start, [], by rw [append_nil, h]⟩

theorem getLast?_lineFor (binary : Text) : (lineFor kind binary).getLast? ≠ some '\r' := by
  obtain ⟨start, h⟩ := exists_lineFor_eq kind binary
  rw [h, getLast?_append_of_ne_nil start (by decide)]
  decide

theorem firstWord_lineFor (binary : Text) :
    firstWord (lineFor kind binary) = some kind.keyword := by cases kind <;> rfl

theorem isCapture_lineFor (added : Stack) (binary : Text) :
    isCapture kind (lineFor added binary) = decide (kind = added) := by
  have htrim : trimStart (lineFor added binary) = lineFor added binary := by cases added <;> rfl
  have hhead : (lineFor added binary).head? ≠ some '#' := by
    cases added <;> exact fun h => absurd (some.inj h) (by decide)
  have hkeyword : added.keyword = kind.keyword ↔ kind = added := by
    cases added <;> cases kind <;> decide
  rw [isCapture, htrim, contains_lineFor, firstWord_lineFor, bne_iff_ne.2 hhead]
  rw [Bool.eq_iff_iff]
  simp [hkeyword]

theorem ours_marker (binary : Text) : ours marker (lineFor kind binary) = true := by
  rw [ours, trimEnd_marker, contains_lineFor]
  simp

theorem lines_block (h : '\n' ∉ binary) :
    lines (block kind binary) = [marker, lineFor kind binary] := by
  rw [block, lines_append_feed _ feed_notMem_marker getLast?_marker,
    lines_append_feed _ (feed_notMem_lineFor kind h) (getLast?_lineFor kind binary)]
  rfl

end

theorem terminated_ended (content : Text) : Terminated (ended content) := by
  unfold ended
  split_ifs with h
  · exact terminated_iff.2 (.inr getLast?_concat)
  · rw [terminated_iff]
    by_contra hnot
    rw [not_or] at hnot
    exact h ⟨hnot.2, hnot.1⟩

variable {content : Text}

theorem ended_of_terminated (h : Terminated content) : ended content = content := by
  rw [terminated_iff] at h
  exact if_neg fun hn => h.elim hn.2 hn.1

theorem lines_proposed (content : Text) (kind : Stack) (h : '\n' ∉ binary) :
    lines (proposed content kind binary) = lines (ended content) ++
    [marker, lineFor kind binary] := by
  rw [proposed, (terminated_ended content).lines_append, lines_block kind h]

/-- **Wiring twice is wiring once**: the line is there. -/
theorem hasCapture_proposed (content : Text) (kind : Stack) (h : '\n' ∉ binary) :
    hasCapture (proposed content kind binary) kind = true := by
  rw [hasCapture, lines_proposed content kind h, any_append]
  simp [isCapture_lineFor]

/-! ### The lines `unwire` keeps -/

theorem kept_append {line next : Text} (h : ours line next = true)
    (hline : contains captureFlag line = false) (ls : List Text) :
    kept (ls ++ [line, next]) = ((kept ls).1, true) := by
  fun_induction kept ls with
  | case1 => simp [kept, h]
  | case2 l =>
    have hl : ours l line = false := by rw [ours, hline, Bool.and_false]
    simp [kept, h, hl]
  | case3 l n rest hours ih => rw [cons_append, cons_append, kept, if_pos hours, ih]
  | case4 l n rest hours ih => rw [cons_append, cons_append, kept, if_neg hours, ← cons_append, ih]

variable {ls : List Text}

theorem kept_of_not_removed (h : (kept ls).2 = false) : (kept ls).1 = ls := by
  fun_induction kept ls with
  | case1 | case2 l => rfl
  | case3 l n rest hours ih => cases h
  | case4 l n rest hours ih => rw [ih h]

theorem length_kept_le (ls : List Text) : (kept ls).1.length ≤ ls.length := by
  fun_induction kept ls with
  | case1 | case2 l => exact le_rfl
  | case3 l n rest hours ih =>
    simp only [length_cons]
    omega
  | case4 l n rest hours ih =>
    simp only [length_cons] at ih ⊢
    omega

theorem length_kept_lt (h : (kept ls).2 = true) : (kept ls).1.length < ls.length := by
  fun_induction kept ls with
  | case1 | case2 l => cases h
  | case3 l n rest hours ih =>
    have hle := length_kept_le rest
    simp only [length_cons]
    omega
  | case4 l n rest hours ih =>
    have hlt := ih h
    simp only [length_cons] at hlt ⊢
    omega

theorem mem_of_mem_kept {l : Text} (h : l ∈ (kept ls).1) : l ∈ ls := by
  fun_induction kept ls with
  | case1 | case2 a => exact h
  | case3 a n rest hours ih => exact mem_cons_of_mem _ (mem_cons_of_mem _ (ih h))
  | case4 a n rest hours ih =>
    rcases mem_cons.1 h with rfl | h
    · exact mem_cons_self
    · exact mem_cons_of_mem _ (ih h)

theorem removed_iff (ls : List Text) : (kept ls).2 = true ↔
    ∃ before line next after, ls = before ++ line :: next :: after ∧ ours line next = true := by
  fun_induction kept ls with
  | case1 => simp
  | case2 l =>
    refine iff_of_false Bool.false_ne_true ?_
    rintro ⟨before, line, next, after, h, -⟩
    have hlen := congrArg List.length h
    simp only [length_append, length_cons, length_nil] at hlen
    omega
  | case3 l n rest hours ih => exact iff_of_true rfl ⟨[], l, n, rest, rfl, hours⟩
  | case4 l n rest hours ih =>
    rw [ih]
    constructor
    · rintro ⟨before, line, next, after, h, ho⟩
      exact ⟨l :: before, line, next, after, by rw [h]; rfl, ho⟩
    · rintro ⟨before, line, next, after, h, ho⟩
      cases before with
      | nil =>
        obtain ⟨hl, h⟩ := cons.inj h
        obtain ⟨hn, -⟩ := cons.inj h
        rw [hl, hn] at hours
        exact absurd ho hours
      | cons b before => exact ⟨before, line, next, after, (cons.inj h).2, ho⟩

/-! ### Giving a stack back -/

theorem count_feed_rejoin (h : ∀ l ∈ ls, '\n' ∉ l) : (rejoin ls).count '\n' = max ls.length 1 := by
  cases ls with
  | nil => rfl
  | cons l ls =>
    rw [rejoin, intercalate_feed (cons_ne_nil l ls), count_feed_unlines h, length_cons]
    omega

theorem getLast?_rejoin (ls : List Text) : (rejoin ls).getLast? = some '\n' := getLast?_concat

theorem not_removed_of_rejoin_eq (h : rejoin (kept (lines content)).1 = content) :
    (kept (lines content)).2 = false := by
  have hterm : Terminated content := terminated_iff.2 (.inr (h ▸ getLast?_rejoin _))
  have hcount := congrArg (List.count '\n') h
  rw [count_feed_rejoin fun l hl => feed_notMem_of_mem_lines (mem_of_mem_kept hl),
    hterm.count_feed] at hcount
  rw [Bool.eq_false_iff]
  intro hr
  have hlt := length_kept_lt hr
  -- the one line that an empty result stands for is no removed pair
  have hone : (lines content).length = 1 := by omega
  obtain ⟨l, hl⟩ := length_eq_one_iff.1 hone
  rw [hl] at hr
  cases hr

theorem lines_ne_nil (h : content.getLast? = some '\n') : lines content ≠ [] := by
  intro hnil
  have hcount := (terminated_iff.2 (.inr h)).count_feed
  rw [hnil, length_nil, count_eq_zero] at hcount
  exact hcount (mem_of_getLast? h)

theorem rejoin_lines_iff (h : content.getLast? = some '\n') :
    rejoin (lines content) = content ↔ ¬HasCrLf content := by
  rw [rejoin, intercalate_feed (lines_ne_nil h), unlines_lines_iff (terminated_iff.2 (.inr h))]

/-- **The lines that are kept make up the original** exactly when it can be restored. -/
theorem rejoin_kept_eq_iff (content : Text) :
    rejoin (kept (lines (ended content))).1 = content ↔ Restorable content := by
  constructor
  · intro h
    have hfeed : content.getLast? = some '\n' := h ▸ getLast?_rejoin _
    rw [ended_of_terminated (terminated_iff.2 (.inr hfeed))] at h
    have hremoved := not_removed_of_rejoin_eq h
    rw [kept_of_not_removed hremoved, rejoin_lines_iff hfeed] at h
    refine ⟨hfeed, h, fun hm => ?_⟩
    have hr := (removed_iff _).2 hm
    rw [hremoved] at hr
    cases hr
  · rintro ⟨hfeed, hcr, hmarked⟩
    have hremoved : (kept (lines content)).2 = false :=
      Bool.eq_false_iff.2 fun hr => hmarked ((removed_iff _).1 hr)
    rw [ended_of_terminated (terminated_iff.2 (.inr hfeed)), kept_of_not_removed hremoved,
      (rejoin_lines_iff hfeed).2 hcr]

theorem kept_proposed (content : Text) (kind : Stack) (h : '\n' ∉ binary) :
    kept (lines (proposed content kind binary)) = ((kept (lines (ended content))).1, true) := by
  rw [lines_proposed content kind h, kept_append (ours_marker kind binary) contains_marker]

theorem stripped_proposed (content : Text) (kind : Stack) (h : '\n' ∉ binary) :
    stripped (proposed content kind binary) = some (rejoin (kept (lines (ended content))).1) := by
  rw [stripped, kept_proposed content kind h, if_pos rfl]

/-! ### On disk -/

theorem readToString_write (disk : Disk) (path body : Text) :
    readToString (disk.write path body) path = some body := by
  rw [readToString, Disk.write, update_self, bind_some, fromUtf8_asBytes]

variable {disk : Disk} {path : Text}

theorem eq_asBytes (h : readToString disk path = some content) :
    disk path = some (asBytes content) := by
  obtain ⟨bytes, hbytes, hdecode⟩ := bind_eq_some_iff.1 h
  rw [hbytes, asBytes_of_fromUtf8 hdecode]

def Writes.done : Writes := ⟨true, true⟩

theorem replace_done (disk : Disk) (path original body : Text) (outcome : Outcome) :
    replace .done disk path original body outcome =
      (.ok outcome, (disk.write (backupPath path) original).write path body) := rfl

theorem wire_added {io : Writes} {verify : Text → Bool} {disk' : Disk}
    {kind : Stack} (hread : readToString disk path = some content)
    (h : wire io verify disk path kind binary = (.ok (.added path kind), disk')) :
    disk' = (disk.write (backupPath path) content).write path (proposed content kind binary) := by
  rw [wire, hread] at h
  dsimp only [replace] at h
  split_ifs at h
  iterate 4 cases (mk.inj h).1
  exact (mk.inj h).2.symm

structure Undone (verify : Text → Bool) (disk disk' : Disk) (path : Text) (kind : Stack)
    (binary : Text) : Prop where
  restored : (unwire .done disk' path).2 path = disk path
  once : ∀ io, wire io verify disk' path kind binary = (.ok (.alreadyPresent path kind), disk')
  kept : ∃ bytes added, disk path = some bytes ∧ disk' path = some (bytes ++ added)

theorem exists_ended_append (content : Text) : ∃ feed, ended content = content ++ feed := by
  unfold ended
  split_ifs
  · exact ⟨['\n'], rfl⟩
  · exact ⟨[], (append_nil content).symm⟩

section added

variable {io : Writes} {verify : Text → Bool} {disk disk' : Disk} {path content : Text}
  {kind : Stack} {binary : Text}

theorem restored_iff (hbinary : '\n' ∉ binary) (hread : readToString disk path = some content)
    (h : wire io verify disk path kind binary = (.ok (.added path kind), disk')) :
    (unwire .done disk' path).2 path = disk path ↔ Restorable content := by
  rw [wire_added hread h, unwire, readToString_write]
  dsimp only
  rw [stripped_proposed content kind hbinary]
  dsimp only
  rw [replace_done, eq_asBytes hread, ← rejoin_kept_eq_iff]
  dsimp only
  rw [Disk.write, update_self, some_inj]
  exact asBytes_injective.eq_iff

/-- **Uninstall undoes install** in a stack file exactly when the file ended in a line feed, had no
carriage return before one, and no marked capture line of its own. -/
theorem undone_iff (hbinary : '\n' ∉ binary) (hread : readToString disk path = some content)
    (h : wire io verify disk path kind binary = (.ok (.added path kind), disk')) :
    Undone verify disk disk' path kind binary ↔ Restorable content := by
  constructor
  · intro hundone
    exact (restored_iff hbinary hread h).1 hundone.restored
  · intro hrestorable
    refine ⟨(restored_iff hbinary hread h).2 hrestorable, fun io => ?_, ?_⟩
    · rw [wire_added hread h, wire, readToString_write]
      exact if_pos (hasCapture_proposed content kind hbinary)
    · obtain ⟨feed, hfeed⟩ := exists_ended_append content
      refine ⟨asBytes content, asBytes (feed ++ block kind binary), eq_asBytes hread, ?_⟩
      rw [wire_added hread h, Disk.write, update_self, proposed, hfeed, append_assoc,
        asBytes_append]

end added

/-! ### Stacks -/

def stackPath : Text := "/etc/pam.d/common-auth".toList

def binaryPath : Text := "/usr/local/bin/linrdp".toList

def oneStack (content : Text) : Disk := Disk.write (fun _ => none) stackPath content

theorem readToString_oneStack (content : Text) :
    readToString (oneStack content) stackPath = some content :=
  readToString_write (fun _ => none) stackPath content

def wiredStack (content : Text) : Disk :=
  (wire .done looksLikeAStack (oneStack content) stackPath .auth binaryPath).2

theorem wire_oneStack (hcapture : hasCapture content .auth = false)
    (hverify : looksLikeAStack (proposed content .auth binaryPath) = true) :
    wire .done looksLikeAStack (oneStack content) stackPath .auth binaryPath =
      (.ok (.added stackPath .auth), wiredStack content) := by
  refine Prod.ext ?_ rfl
  rw [wire, readToString_oneStack]
  dsimp only
  rw [hcapture, hverify, if_neg Bool.false_ne_true, if_neg (by decide), replace_done]

theorem feed_notMem_binaryPath : '\n' ∉ binaryPath := by decide

theorem undone_common_auth :
    Undone looksLikeAStack (oneStack "auth required pam_unix.so\n".toList)
      (wiredStack "auth required pam_unix.so\n".toList) stackPath .auth binaryPath := by
  refine (undone_iff feed_notMem_binaryPath (readToString_oneStack _)
    (wire_oneStack (by decide +kernel) (by decide +kernel))).2
      ⟨by decide +kernel, by decide +kernel, ?_⟩
  rw [Marked, ← removed_iff]
  decide +kernel

def Spoiled (content : Text) : Prop :=
  (wire .done looksLikeAStack (oneStack content) stackPath .auth binaryPath).1 =
      .ok (.added stackPath .auth) ∧
    (unwire .done (wiredStack content) stackPath).2 stackPath ≠ oneStack content stackPath

theorem spoiled_of_ends (hcapture : hasCapture content .auth = false)
    (hverify : looksLikeAStack (proposed content .auth binaryPath) = true)
    (hends : ¬(content.getLast? = some '\n' ∧ ¬HasCrLf content)) : Spoiled content := by
  have hwire := wire_oneStack hcapture hverify
  refine ⟨by rw [hwire], fun hsame => ?_⟩
  have hrestorable :=
    (restored_iff feed_notMem_binaryPath (readToString_oneStack content) hwire).1 hsame
  exact hends ⟨hrestorable.feed, hrestorable.crLf⟩

/-- **Counterexample.** An empty stack, one without a feed at its end and one with carriage returns
are accepted, and none of them is given back. -/
theorem not_undone_line_ends : Spoiled "".toList ∧ Spoiled "auth required pam_unix.so".toList ∧
    Spoiled "auth required pam_unix.so\r\n".toList := by
  rw [show "auth required pam_unix.so".toList = _ from String.toList_ofList,
    show "auth required pam_unix.so\r\n".toList = _ from String.toList_ofList]
  refine ⟨spoiled_of_ends ?_ ?_ ?_, spoiled_of_ends ?_ ?_ ?_, spoiled_of_ends ?_ ?_ ?_⟩ <;>
    decide +kernel

/-! ### The backup

Every edit writes the copy anew, of the stack as it is then. -/

-- A feed behind a carriage return makes it part of the line's end. It is white space at the end of
-- the line, and decides neither what the line is nor whether it may stand in a stack.
section ended

theorem trimStart_concat (l : Text) :
    trimStart (l ++ ['\r']) = if trimStart l = [] then [] else trimStart l ++ ['\r'] := by
  rw [trimStart, trimStart, dropWhile_append]
  cases l.dropWhile isWhiteSpace with
  | nil => decide
  | cons c t => rfl

theorem contains_concat (l : Text) : contains captureFlag (l ++ ['\r']) = contains captureFlag
    l := by
  have hsuffix : ¬captureFlag <:+ l ++ ['\r'] := by
    intro h
    have hlast := h.getLast (by decide)
    rw [getLast_concat] at hlast
    exact absurd hlast (by decide)
  simp [contains, infix_concat_iff, hsuffix]

theorem isCapture_concat (kind : Stack) (l : Text) :
    isCapture kind (l ++ ['\r']) = isCapture kind l := by
  unfold isCapture firstWord
  rw [trimStart_concat]
  cases h : trimStart l with
  | nil => rfl
  | cons c t =>
    have hword : ((c :: t) ++ ['\r']).takeWhile (fun c => !isWhiteSpace c) =
        (c :: t).takeWhile fun c => !isWhiteSpace c := by
      rw [takeWhile_append]
      split_ifs with hwhole
      · rw [( takeWhile_prefix _).eq_of_length hwhole]
        simp [show isWhiteSpace '\r' = true by decide]
      · rfl
    rw [if_neg (cons_ne_nil c t), contains_concat, hword]
    rfl

theorem isStackLine_concat (l : Text) : isStackLine (l ++ ['\r']) = isStackLine l := by
  have htrim : trim (l ++ ['\r']) = trim l := by
    have hstart := trimStart_concat l
    unfold trimStart at hstart
    rw [trim, trim, hstart]
    split_ifs with h
    · rw [h]
    · exact rdropWhile_concat_pos _ _ _ (by decide)
  rw [isStackLine, htrim, isStackLine]

theorem map_lines_ended {β : Type} (p : Text → β) (hp : ∀ l, p (l ++ ['\r']) = p l)
    (content : Text) : (lines (ended content)).map p = (lines content).map p := by
  by_cases hterm : Terminated content
  · rw [ended_of_terminated hterm]
  · obtain ⟨whole, rest, rfl, hwhole, hrest⟩ := terminated_append content
    have hne : rest ≠ [] := fun h => hterm (by rwa [h, append_nil])
    have hchomp : p (chomp rest) = p rest := by
      rcases eq_chomp rest with h | h
      · rw [← h]
      · rw [h, hp, ← h]
    rw [terminated_iff, not_or] at hterm
    rw [ended, if_pos ⟨hterm.2, hterm.1⟩, append_assoc, hwhole.lines_append, hwhole.lines_append,
      lines_feed [] hrest, lines_of_notMem hrest, if_neg hne, map_append, map_append, map_cons,
      ← chomp, hchomp]
    rfl

theorem hasCapture_ended (content : Text) (kind : Stack) :
    hasCapture (ended content) kind = hasCapture content kind := by
  have h := congrArg (List.any · id) (map_lines_ended _ (isCapture_concat kind) content)
  rwa [List.any_map, List.any_map] at h

theorem looksLikeAStack_ended (content : Text) :
    looksLikeAStack (ended content) = looksLikeAStack content := by
  have h := congrArg (List.all · id) (map_lines_ended _ isStackLine_concat content)
  rwa [List.all_map, List.all_map] at h

end ended

theorem hasCapture_proposed_iff (content : Text) (kind added : Stack) (h : '\n' ∉ binary) :
    hasCapture (proposed content added binary) kind = true ↔
      hasCapture content kind = true ∨ kind = added := by
  have hmarker : isCapture kind marker = false := by cases kind <;> decide +kernel
  rw [hasCapture, lines_proposed content added h, any_append, ← hasCapture, hasCapture_ended]
  simp [hmarker, isCapture_lineFor]

theorem looksLikeAStack_proposed (kind : Stack) (h : '\n' ∉ binary)
    (hstack : looksLikeAStack content = true) :
    looksLikeAStack (proposed content kind binary) = true := by
  have hmarker : isStackLine marker = true := by decide +kernel
  have hline : isStackLine (lineFor kind binary) = true := by
    have htrim : trim (lineFor kind binary) = lineFor kind binary := by
      obtain ⟨start, heq⟩ := exists_lineFor_eq kind binary
      have hstart : (lineFor kind binary).dropWhile isWhiteSpace = lineFor kind binary := by
        cases kind <;> rfl
      rw [trim, hstart, rdropWhile_eq_self_iff]
      intro hne
      simp only [heq]
      rw [getLast_append_right (by decide)]
      decide
    have hkeyword : stackTypes.contains kind.keyword = true := by cases kind <;> decide +kernel
    rw [isStackLine, htrim, firstWord_lineFor, Option.any_some, hkeyword, Bool.or_true]
  rw [looksLikeAStack, lines_proposed content kind h, all_append, ← looksLikeAStack,
    looksLikeAStack_ended, hstack]
  simp [hmarker, hline]

/-! #### One wiring -/

theorem wire_cases (io : Writes) (verify : Text → Bool) (disk : Disk) (path : Text) (kind : Stack)
    (binary : Text) :
    (wire io verify disk path kind binary).2 = disk ∨
      ∃ content, readToString disk path = some content ∧ hasCapture content kind = false ∧
        ((wire io verify disk path kind binary).2 = disk.write (backupPath path) content ∨
          (wire io verify disk path kind binary).2 =
            (disk.write (backupPath path) content).write path (proposed content kind binary)) := by
  rw [wire]
  split
  · exact .inl rfl
  · rename_i content hread
    unfold replace
    split_ifs with hcapture
    · exact .inl rfl
    · exact .inl rfl
    · exact .inl rfl
    · exact .inr ⟨content, hread, Bool.eq_false_iff.2 hcapture, .inl rfl⟩
    · exact .inr ⟨content, hread, Bool.eq_false_iff.2 hcapture, .inr rfl⟩

theorem each_inv {α : Type} {edit : Disk → α → Except Text Outcome × Disk} {I : Disk → Prop}
    {l : List α} (hedit : ∀ a ∈ l, ∀ disk, I disk → I (edit disk a).2) (hI : I disk) :
    I (each edit l disk).2 := by
  induction l generalizing disk with
  | nil => exact hI
  | cons a rest ih =>
    have hone := hedit a mem_cons_self disk hI
    rw [each]
    split
    · rename_i heq
      rwa [heq] at hone
    · rename_i heq
      rw [heq] at hone
      exact ih (fun b hb => hedit b (mem_cons_of_mem a hb)) hone

@[simp] theorem write_self (disk : Disk) (path body : Text) :
    disk.write path body path = some (asBytes body) := update_self _ _ _

theorem write_apart {q : Text} (hq : q ≠ path) (body : Text) : disk.write q body path = disk path :=
  update_of_ne hq.symm _ _

/-! #### The stack files of a distribution -/

theorem apart {pamDir q : Text} {kinds ks : List Stack} (hfile : (path, kinds) ∈ candidates pamDir)
    (hq : (q, ks) ∈ candidates pamDir) :
    q = path ∧ ks = kinds ∨ q ≠ path ∧ q ≠ backupPath path ∧ backupPath q ≠ path := by
  simp only [candidates, mem_cons, mk.injEq, not_mem_nil, or_false] at hfile hq
  rcases hfile with ⟨rfl, rfl⟩ | ⟨rfl, rfl⟩ | ⟨rfl, rfl⟩ | ⟨rfl, rfl⟩ <;>
    rcases hq with ⟨rfl, rfl⟩ | ⟨rfl, rfl⟩ | ⟨rfl, rfl⟩ | ⟨rfl, rfl⟩ <;>
    simp [inDir, backupPath]

theorem mem_wirings {pamDir q : Text} {kind : Stack} (h : (q, kind) ∈ wirings pamDir) :
    ∃ ks, (q, ks) ∈ candidates pamDir ∧ kind ∈ ks := by
  obtain ⟨⟨q', ks⟩, hmem, hkind⟩ := mem_flatMap.1 h
  obtain ⟨kind', hks, heq⟩ := mem_map.1 hkind
  obtain ⟨rfl, rfl⟩ := mk.inj heq
  exact ⟨ks, hmem, hks⟩

section backup

variable {pamDir path content : Text} {kinds : List Stack}

/-- The stack is as it was, or the copy is. -/
def Backed (disk disk' : Disk) (path : Text) : Prop :=
  disk' path = disk path ∨ disk' (backupPath path) = disk path

def missing (content : Text) (kinds : List Stack) : List Stack :=
  kinds.filter fun kind => !hasCapture content kind

theorem mem_missing {kind : Stack} :
    kind ∈ missing content kinds ↔ kind ∈ kinds ∧ hasCapture content kind = false := by
  simp [missing]

/-- The stack before the first edit, or after the only one. -/
def EditedOnce (path content binary : Text) (kinds : List Stack) (disk : Disk) : Prop :=
  disk path = some (asBytes content) ∨
    ∃ kind ∈ missing content kinds, disk path = some (asBytes (proposed content kind binary)) ∧
      disk (backupPath path) = some (asBytes content)

theorem backupPath_ne (path : Text) : backupPath path ≠ path := by simp [backupPath]

theorem editedOnce_wire (io : Writes) {kind : Stack} (hbinary : '\n' ∉ binary)
    (hkind : kind ∈ kinds) (hone : (missing content kinds).length ≤ 1)
    (h : EditedOnce path content binary kinds disk) :
    EditedOnce path content binary kinds (wire io looksLikeAStack disk path kind binary).2 := by
  rcases wire_cases io looksLikeAStack disk path kind
    binary with heq | ⟨original, hread, hmissing, heq⟩
  · rwa [heq]
  · have hpath := eq_asBytes hread
    rcases h with h | ⟨added, hadded, h, -⟩
    · -- the first edit: the copy is the original, and stays beside it if the file cannot be written
      obtain rfl : original = content := asBytes_injective (some.inj (hpath.symm.trans h))
      rcases heq with heq | heq <;> rw [heq]
      · exact .inl ((write_apart (backupPath_ne path) _).trans h)
      · refine .inr ⟨kind, mem_missing.2 ⟨hkind, hmissing⟩, write_self _ _ _, ?_⟩
        rw [write_apart (backupPath_ne path).symm, write_self]
    · -- no second one: the other lines were there
      obtain rfl : original = proposed content added binary :=
        asBytes_injective (some.inj (hpath.symm.trans h))
      rw [Bool.eq_false_iff, ne_eq, hasCapture_proposed_iff _ _ _ hbinary, not_or] at hmissing
      have hsame : kind = added := by
        have hmem : kind ∈ missing content kinds :=
            mem_missing.2 ⟨hkind, Bool.eq_false_iff.2 hmissing.1⟩
        obtain ⟨k, hk⟩ := length_eq_one_iff.1 (le_antisymm hone (length_pos_of_mem hmem))
        rw [hk, mem_singleton] at hmem hadded
        rw [hmem, hadded]
      exact absurd hsame hmissing.2

theorem editedOnce_installs (hbinary : '\n' ∉ binary) (hfile : (path, kinds) ∈ candidates pamDir)
    (hone : (missing content kinds).length ≤ 1) (ios : List (Text → Stack → Writes))
    (h : EditedOnce path content binary kinds disk) :
    EditedOnce path content binary kinds (installs pamDir binary ios disk) := by
  induction ios generalizing disk with
  | nil => exact h
  | cons io ios ih =>
    refine ih (each_inv (fun wiring hwiring disk h => ?_) h)
    obtain ⟨q, kind⟩ := wiring
    obtain ⟨ks, hq, hkind⟩ := mem_wirings hwiring
    rcases apart hfile hq with ⟨rfl, rfl⟩ | ⟨hne, hbackup, hpath⟩
    · exact editedOnce_wire _ hbinary hkind hone h
    · have hinj : backupPath q ≠ backupPath path := fun heq => hne (append_cancel_right heq)
      rcases wire_cases (io q kind) looksLikeAStack disk q kind
        binary with heq | ⟨original, -, -, heq | heq⟩
      · rwa [heq]
      · rw [heq, EditedOnce, write_apart hpath, write_apart hinj]
        exact h
      · rw [heq, EditedOnce, write_apart hne, write_apart hpath, write_apart hbackup,
          write_apart hinj]
        exact h

/-! #### Both lines -/

theorem exists_wirings_eq (h : (path, [.auth, .password]) ∈ candidates pamDir) :
    ∃ before after, wirings pamDir = before ++ (path, .auth) :: (path, .password) :: after ∧
      ∀ wiring ∈ before ++ after, wiring.1 ≠ path ∧ wiring.1 ≠ backupPath path := by
  simp only [candidates, mem_cons, mk.injEq, not_mem_nil, or_false] at h
  rcases h with ⟨-, h⟩ | ⟨-, h⟩ | ⟨rfl, -⟩ | ⟨rfl, -⟩
  · cases h
  · cases h
  · exact ⟨[_, _], [_, _], rfl, by simp [inDir, backupPath]⟩
  · exact ⟨[_, _, _, _], [], rfl, by simp [inDir, backupPath]⟩

def wireDone (binary : Text) (disk : Disk) (wiring : Text × Stack) : Except Text Outcome × Disk :=
  wire .done looksLikeAStack disk wiring.1 wiring.2 binary

theorem each_absent {l : List (Text × Stack)} (rest : List (Text × Stack))
    (h : ∀ wiring ∈ l, disk wiring.1 = none) :
    (each (wireDone binary) (l ++ rest) disk).2 = (each (wireDone binary) rest disk).2 := by
  induction l with
  | nil => rfl
  | cons wiring l ih =>
    have hwire : wireDone binary disk wiring = (.ok (.absent wiring.1), disk) := by
      rw [wireDone, wire, readToString, h wiring mem_cons_self]
      rfl
    rw [cons_append, each, hwire]
    exact ih fun w hw => h w (mem_cons_of_mem wiring hw)

theorem each_added {kind : Stack} (rest : List (Text × Stack)) (hbinary : '\n' ∉ binary)
    (hpath : disk path = some (asBytes content)) (hstack : looksLikeAStack content = true)
    (hmissing : hasCapture content kind = false) :
    (each (wireDone binary) ((path, kind) :: rest) disk).2 =
      (each (wireDone binary) rest
        ((disk.write (backupPath path) content).write path (proposed content kind binary))).2 := by
  have hread : readToString disk path = some content := by
    rw [readToString, hpath, bind_some, fromUtf8_asBytes]
  have hwire : wireDone binary disk (path, kind) = (.ok (.added path kind),
      (disk.write (backupPath path) content).write path (proposed content kind binary)) := by
    rw [wireDone, wire, hread]
    dsimp only
    rw [hmissing, looksLikeAStack_proposed kind hbinary hstack, if_neg Bool.false_ne_true,
      if_neg (by decide), replace_done]
  rw [each, hwire]

theorem length_lt_proposed (content : Text) (kind : Stack) :
    content.length < (proposed content kind binary).length := by
  obtain ⟨feed, hfeed⟩ := exists_ended_append content
  simp only [proposed, hfeed, block, length_append, length_cons]
  omega

/-- The file alone on the disk, and an `install` that adds both lines to it. -/
theorem not_backed_of_both (hbinary : '\n' ∉ binary)
    (h : (path, [.auth, .password]) ∈ candidates pamDir) (hstack : looksLikeAStack content = true)
    (hmissing : ∀ kind, hasCapture content kind = false) :
    let disk := Disk.write (fun _ => none) path content
    ¬Backed disk (installs pamDir binary [fun _ _ => .done] disk) path := by
  intro disk
  obtain ⟨before, after, hwirings, hapart⟩ := exists_wirings_eq h
  have hother : ∀ wiring ∈ before ++ after, disk wiring.1 = none := fun w hw =>
    write_apart (hapart w hw).1.symm _
  have hpath : disk path = some (asBytes content) := write_self _ _ _
  have hsecond : hasCapture (proposed content .auth binary) .password = false := by
    rw [Bool.eq_false_iff, ne_eq, hasCapture_proposed_iff _ _ _ hbinary, hmissing]
    decide
  have hfinal : installs pamDir binary [fun _ _ => .done] disk =
    (each (wireDone binary) (wirings pamDir) disk).2 := rfl
  rw [Backed, hfinal, hwirings, each_absent _ fun w hw => hother w (mem_append_left _ hw),
    each_added _ hbinary hpath hstack (hmissing _),
    each_added _ hbinary (write_self _ _ _) (looksLikeAStack_proposed _ hbinary hstack) hsecond,
    ← append_nil after, each_absent]
  · have hfirst := @length_lt_proposed binary content .auth
    have hlonger := @length_lt_proposed binary (proposed content .auth binary) .password
    rw [each, hpath]
    dsimp only
    rw [write_self, some_inj, asBytes_injective.eq_iff, write_apart (backupPath_ne path).symm,
      write_self, some_inj, asBytes_injective.eq_iff]
    rintro (heq | heq)
    · rw [heq] at hlonger
      omega
    · rw [heq] at hfirst
      exact lt_irrefl _ hfirst
  · intro w hw
    obtain ⟨hne, hbackup⟩ := hapart w (mem_append_right _ hw)
    rw [write_apart hne.symm, write_apart hbackup.symm, write_apart hne.symm,
      write_apart hbackup.symm, hother w (mem_append_right _ hw)]

/-- **The backup stays the original**, through every number of installs and whatever of their writes
fails, exactly when the stack lacks at most one of the lines it is to have: a second edit copies the
stack with the first line in it. -/
theorem backup_iff (hbinary : '\n' ∉ binary) (hfile : (path, kinds) ∈ candidates pamDir)
    (hstack : looksLikeAStack content = true) :
    (missing content kinds).length ≤ 1 ↔ ∀ disk, readToString disk path = some content →
      ∀ ios, Backed disk (installs pamDir binary ios disk) path := by
  constructor
  · intro hone disk hread ios
    rw [Backed, eq_asBytes hread]
    rcases editedOnce_installs hbinary hfile hone ios
      (.inl (eq_asBytes hread)) with h | ⟨-, -, -, h⟩
    · exact .inl h
    · exact .inr h
  · intro h
    by_contra hboth
    have hkinds : kinds = [.auth, .password] := by
      have hle := length_filter_le (fun kind => !hasCapture content kind) kinds
      simp only [candidates, mem_cons, mk.injEq, not_mem_nil, or_false] at hfile
      rcases hfile with ⟨-, rfl⟩ | ⟨-, rfl⟩ | ⟨-, rfl⟩ | ⟨-, rfl⟩
      · exact absurd hle hboth
      · exact absurd hle hboth
      · rfl
      · rfl
    subst hkinds
    have hmissing : ∀ kind, hasCapture content kind = false := by
      cases hauth : hasCapture content .auth <;> cases hpassword : hasCapture content .password <;>
        simp [missing, hauth, hpassword] at hboth
      rintro (_ | _)
      · exact hauth
      · exact hpassword
    exact not_backed_of_both hbinary hfile hstack hmissing (h _ (readToString_write _ _ _) _)

end backup

def pamD : Text := "/etc/pam.d".toList

def systemAuth (content : Text) : Disk :=
  Disk.write (fun _ => none) (inDir pamD "system-auth") content

def passwordStack : Text :=
  "password optional pam_exec.so /usr/bin/linrdp --capture-credential\n".toList

/-- The second `install` fails between its two writes. -/
theorem backup_of_one_line :
    Backed (systemAuth passwordStack) (installs pamD binaryPath
      [fun _ _ => .done, fun _ _ => ⟨true, false⟩] (systemAuth passwordStack))
        (inDir pamD "system-auth") :=
  (@backup_iff _ pamD _ passwordStack [.auth, .password] feed_notMem_binaryPath
    (by simp [candidates])
    (by decide +kernel)).1 (by decide +kernel) _ (readToString_write _ _ _) _

def unixStack : Text := "auth required pam_unix.so\n".toList

/-- **Counterexample.** With both lines the copy is the stack that already has the first. -/
theorem backup_lost_with_both_lines :
    installs pamD binaryPath [fun _ _ => .done] (systemAuth unixStack)
      (backupPath (inDir pamD "system-auth")) ≠ systemAuth unixStack
        (inDir pamD "system-auth") := by
  intro h
  refine @not_backed_of_both _ _ _ unixStack feed_notMem_binaryPath (by simp [candidates])
    (by decide +kernel) ?_ (.inr h)
  rintro (_ | _) <;> decide +kernel

end Linrdp.Service.Pam
