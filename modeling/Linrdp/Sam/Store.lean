import Linrdp.Sam.Seal
import Mathlib.Data.List.AList

/-!
# The account store: one sealed password per account

The store file is a header line and one `user:blob` line per account; a file without the header is a
legacy one and holds passwords in clear. `setPassword` owes that it succeeds with the new password
and every other account as it was, or fails and the file is as it was (`Preserves`). It does so
exactly when the load is not one that fails on an existing file (`preserves_iff`), which is taken
for an empty store. A rendered map is read back with its names, and sealing a legacy file keeps
every password (`roundTrips`).
-/

namespace Linrdp.Sam.Store

open List Lib Lib.TextLines Sam.Seal AList Option

abbrev Accounts := AList fun _ : Text => Text

abbrev Entry := Sigma fun _ : Text => Text

/-- The machine a store is on: its identity, the order in which it enumerates a hash map, and the
nonces it draws. -/
structure Machine where
  id : Identity
  order : Accounts → List Entry
  order_perm : ∀ m, (order m).Perm m.entries
  nonce : ℕ → List UInt8
  length_nonce : ∀ i, (nonce i).length = nonceLen

/-- A name `passwd` can hold. -/
structure ValidName (user : Text) : Prop where
  ne_nil : user ≠ []
  colon : ':' ∉ user
  feed : '\n' ∉ user

def sealHeader : Text := "#linrdp-sam v1".toList

variable (C : Crypto) (M : Machine)

def machineKeyFor (mode : KeyMode) : C.Key := C.deriveKey (ikmForMode M.id mode)

/-! ### Parsing and rendering -/

variable (keyFor : KeyMode → C.Key)

def parseLine (isSealed : Bool) (line : Text) : Option (Text × Text) :=
  match splitOnce ':' line with
  | none => none
  | some (user, rest) =>
    if user = [] then none
    else if isSealed then (openBlob C rest user keyFor).map fun password => (user, password)
    else some (user, rest)

def insertLine (isSealed : Bool) (m : Accounts) (line : Text) : Accounts :=
  match parseLine C keyFor isSealed line with
  | none => m
  | some (user, password) => m.insert user password

def parseBody (body : Text) : Accounts :=
  let all := lines body
  if all.head? = some sealHeader then all.tail.foldl (insertLine C keyFor true) ∅
  else all.foldl (insertLine C keyFor false) ∅

def lineName (line : Text) : Option Text := ((splitOnce ':' line).map Prod.fst).filter (· ≠ [])

def parseNames (body : Text) : List Text :=
  let all := lines body
  (if all.head? = some sealHeader then all.tail else all).filterMap lineName

def bodyHasLegacy (body : Text) : Bool := trim body ≠ [] && (lines body).head? ≠ some sealHeader

def renderLines (key : C.Key) (mode : KeyMode) (nonce : ℕ → List UInt8) : ℕ → List Entry → Text
  | _, [] => []
  | i, e :: es => (e.1 ++ ':' :: sealBlob C key mode (nonce i) e.1 e.2) ++
      '\n' :: renderLines key mode nonce (i + 1) es

def renderBody (m : Accounts) (key : C.Key) (mode : KeyMode) : Text :=
  sealHeader ++ '\n' :: renderLines C key mode M.nonce 0 (M.order m)

/-! ### The file and the operations on it -/

inductive IoError
  | notFound | other | invalidData
deriving DecidableEq

inductive StoreFile
  | missing
  /-- there, but reading it fails -/
  | unreadable (content : List UInt8)
  | present (content : List UInt8)

def readToString : StoreFile → Except IoError Text
  | .missing => .error .notFound
  | .unreadable _ => .error .other
  | .present content =>
    match fromUtf8 content with
    | none => .error .invalidData
    | some t => .ok t

variable (file : StoreFile)

def load : Except IoError Accounts := (readToString file).map (parseBody C (machineKeyFor C M))

def lookup (file : StoreFile) (user : Text) : Except IoError (Option Text) :=
  (load C M file).map fun m => m.lookup user

structure Outcome where
  (dir lock write : Bool)

/-- The read-modify-write, with the lock held. A load that fails counts as an empty store. -/
def setPasswordLocked (write : Bool) (file : StoreFile) (user password : Text) :
    Except IoError Unit × StoreFile :=
  let m := match load C M file with
    | .ok m => m
    | .error _ => ∅
  let (ikm, mode) := buildIkm M.id
  let body := renderBody C M (m.insert user password) (C.deriveKey ikm) mode
  if write then (.ok (), .present (asBytes body)) else (.error .other, file)

def setPassword (o : Outcome) (file : StoreFile) (user password : Text) :
    Except IoError Unit × StoreFile :=
  if !o.dir then (.error .other, file)
  else if !o.lock then (.error .other, file)
  else setPasswordLocked C M o.write file user password

def legacyContent : Option Text :=
  match readToString file with
  | .ok content => if bodyHasLegacy content then some content else none
  | .error _ => none

variable (lock write : Bool)

/-- Rewrite a legacy store in sealed form. `seen` is the file at the first check, `file` the one
found with the lock held; a rewrite that fails leaves it. -/
def migratePlaintext (seen file : StoreFile) : StoreFile :=
  if (legacyContent seen).isNone || !lock then file
  else match legacyContent file with
    | none => file
    | some content =>
      let m := parseBody C (machineKeyFor C M) content
      let (ikm, mode) := buildIkm M.id
      if write then .present (asBytes (renderBody C M m (C.deriveKey ikm) mode)) else file

/-! ### What a rendered body parses to -/

section

variable {C}

variable {keyFor : KeyMode → C.Key}

theorem splitOnce_of_parseLine {s : Bool} {line user password : Text}
    (h : parseLine C keyFor s line = some (user, password)) :
    user ≠ [] ∧ ∃ rest, splitOnce ':' line = some (user, rest) := by
  unfold parseLine at h
  cases hs : splitOnce ':' line with
  | none => simp [hs] at h
  | some p =>
    simp only [hs] at h
    split_ifs at h with hu hsealed
    · obtain ⟨_, -, he⟩ := map_eq_some_iff.1 h
      obtain rfl := (Prod.mk.inj he).1
      exact ⟨hu, p.2, rfl⟩
    · obtain rfl := (Prod.mk.inj (some.inj h)).1
      exact ⟨hu, p.2, rfl⟩

theorem valid_of_parseLine {s : Bool} {line user password : Text}
    (hf : '\n' ∉ line) (h : parseLine C keyFor s line = some (user, password)) :
    ValidName user := by
  obtain ⟨hu, rest, hs⟩ := splitOnce_of_parseLine h
  obtain ⟨hline, hcolon⟩ := splitOnce_some hs
  exact ⟨hu, hcolon, fun hm => hf (by rw [hline]; exact mem_append_left _ hm)⟩

theorem valid_of_mem_foldl {s : Bool} {ls : List Text} {m : Accounts}
    (hl : ∀ l ∈ ls, '\n' ∉ l) (hm : ∀ u ∈ m, ValidName u) :
    ∀ u ∈ ls.foldl (insertLine C keyFor s) m, ValidName u := by
  induction ls generalizing m with
  | nil => exact hm
  | cons l ls ih =>
    refine ih (fun l' h => hl l' (mem_cons_of_mem _ h)) ?_
    intro v hv
    unfold insertLine at hv
    cases hp : parseLine C keyFor s l with
    | none => rw [hp] at hv; exact hm v hv
    | some p =>
      rw [hp] at hv
      rcases mem_insert _ |>.1 hv with rfl | hv
      · exact valid_of_parseLine (hl l mem_cons_self) hp
      · exact hm v hv

theorem valid_of_mem_parseBody {body u : Text} (h : u ∈ parseBody C keyFor body) : ValidName u := by
  have hempty : ∀ v ∈ (∅ : Accounts), ValidName v := fun v hv => absurd hv (notMem_empty v)
  unfold parseBody at h
  simp only at h
  split_ifs at h
  · exact valid_of_mem_foldl
      (fun l hl => feed_notMem_of_mem_lines (mem_of_mem_tail hl)) hempty u h
  · exact valid_of_mem_foldl (fun l hl => feed_notMem_of_mem_lines hl) hempty u h

theorem getLast?_ne_of_forall {l : Text} {c : Char} (h : c ∉ l) : l.getLast? ≠ some c :=
  fun he => h (mem_of_getLast? he)

variable {mode : KeyMode}

abbrev ReadsAs (keyFor : KeyMode → C.Key) (l : Text) (e : Entry) : Prop :=
  parseLine C keyFor true l = some (e.1, e.2)

theorem lines_renderLines {nonce : ℕ → List UInt8} (hn : ∀ i, (nonce i).length = nonceLen)
    (es : List Entry) (i : ℕ) (hv : ∀ e ∈ es, ValidName e.1) :
    List.Forall₂ (ReadsAs keyFor) (lines (renderLines C (keyFor mode) mode nonce i es)) es := by
  induction es generalizing i with
  | nil => exact .nil
  | cons e es ih =>
    have he := hv e mem_cons_self
    -- the blob has neither a line feed nor a carriage return
    have hblob := fun c => @mem_sealBlob C (keyFor mode) mode (nonce i) e.1 e.2 c
    have hfeed : '\n' ∉ e.1 ++ ':' :: sealBlob C (keyFor mode) mode (nonce i) e.1 e.2 := by
      simp only [mem_append, mem_cons, not_or]
      exact ⟨he.feed, by decide, fun hm => (hblob _ hm).1 rfl⟩
    have hcr : (e.1 ++ ':' :: sealBlob C (keyFor mode) mode (nonce i) e.1 e.2).getLast? ≠
        some '\r' := by
      rw [getLast?_append_cons]
      refine getLast?_ne_of_forall ?_
      simp only [mem_cons, not_or]
      exact ⟨by decide, fun hm => (hblob _ hm).2 rfl⟩
    rw [renderLines, lines_append_feed _ hfeed hcr]
    refine .cons ?_ (ih (i + 1) fun e' h => hv e' (mem_cons_of_mem _ h))
    unfold ReadsAs parseLine
    simp only [splitOnce_append _ he.colon, if_neg he.ne_nil, openBlob_sealBlob keyFor mode (hn i),
      map_some, if_true]

theorem foldl_insertLine {ls : List Text} {es : List Entry}
    (h : List.Forall₂ (ReadsAs keyFor) ls es) (m : Accounts) :
    ls.foldl (insertLine C keyFor true) m = es.foldl (fun m e => m.insert e.1 e.2) m := by
  induction h generalizing m with
  | nil => rfl
  | cons he _ ih => rw [foldl_cons, insertLine, he, ih, foldl_cons]

theorem filterMap_lineName {ls : List Text} {es : List Entry}
    (h : List.Forall₂ (ReadsAs keyFor) ls es) : ls.filterMap lineName = es.keys := by
  induction h with
  | nil => rfl
  | @cons l e _ _ he _ ih =>
    obtain ⟨hu, rest, hs⟩ := splitOnce_of_parseLine he
    have hname : lineName l = some e.1 := by simp [lineName, hs, hu]
    rw [filterMap_cons_some hname, ih, keys_cons]

theorem lookup_foldl_insert (u : Text) (es : List Entry) (m : Accounts) (hnd : es.NodupKeys) :
    (es.foldl (fun m e => m.insert e.1 e.2) m).lookup u = (es.dlookup u).or (m.lookup u) := by
  induction es generalizing m with
  | nil => simp
  | cons e es ih =>
    obtain ⟨k, v⟩ := e
    obtain ⟨hk, hnd'⟩ := nodupKeys_cons.1 hnd
    rw [foldl_cons, ih _ hnd']
    by_cases huk : u = k
    · subst huk
      rw [dlookup_eq_none.2 hk, dlookup_cons_eq]
      simp
    · rw [lookup_insert_ne huk, dlookup_cons_ne es (⟨k, v⟩ : Entry) huk]

theorem lines_renderBody (keyFor : KeyMode → C.Key) (mode : KeyMode) {m : Accounts}
    (hv : ∀ u ∈ m, ValidName u) :
    ∃ ls, lines (renderBody C M m (keyFor mode) mode) = sealHeader :: ls ∧
      List.Forall₂ (ReadsAs keyFor) ls (M.order m) :=
  ⟨_, lines_append_feed _ (by decide) (by decide), lines_renderLines M.length_nonce _ _ fun e he =>
    hv e.1 (mem_keys_of_mem ((M.order_perm m).mem_iff.1 he))⟩

/-- **A rendered map is read back**, whatever order it was enumerated in. -/
theorem lookup_parseBody_renderBody {m : Accounts} (hv : ∀ u ∈ m, ValidName u) (u : Text) :
    (parseBody C keyFor (renderBody C M m (keyFor mode) mode)).lookup u = m.lookup u := by
  have hperm := M.order_perm m
  have hnd : (M.order m).NodupKeys := (perm_nodupKeys hperm).2 m.nodupKeys
  obtain ⟨ls, hlines, hread⟩ := lines_renderBody M keyFor mode hv
  unfold parseBody
  simp only [hlines, head?_cons, if_true, tail_cons]
  rw [foldl_insertLine hread, lookup_foldl_insert u _ _ hnd, lookup_empty, or_none,
    perm_dlookup u hnd hperm]
  rfl

theorem parseNames_renderBody {m : Accounts} (hv : ∀ u ∈ m, ValidName u) :
    (parseNames (renderBody C M m (keyFor mode) mode)).Perm m.keys := by
  obtain ⟨ls, hlines, hread⟩ := lines_renderBody M keyFor mode hv
  unfold parseNames
  simp only [hlines, head?_cons, if_true, tail_cons]
  rw [filterMap_lineName hread]
  exact (M.order_perm m).map Sigma.fst

end

/-! ### What `setPassword` owes the store -/

def gives : Except IoError (Option Text) → Except IoError (Option Text)
  | .error .notFound => .ok none
  | r => r

def Unopenable : Prop := file ≠ .missing ∧ ∃ e, load C M file = .error e

/-- **Setting a password preserves the store**: the account gets the password and the others keep
theirs, or the call fails and the file stays; a file that cannot be opened is never replaced. -/
def Preserves (o : Outcome) (file : StoreFile) (user password : Text) : Prop :=
  let r := setPassword C M o file user password
  ((r.1 = .ok () ∧ lookup C M r.2 user = .ok (some password) ∧
      ∀ v, v ≠ user → gives (lookup C M r.2 v) = gives (lookup C M file v)) ∨
    ((∃ e, r.1 = .error e) ∧ r.2 = file)) ∧
  (Unopenable C M file → r.2 = file)

def Outcome.stops (o : Outcome) : Prop := o.dir = false ∨ o.lock = false ∨ o.write = false

def Readable : Prop := file = .missing ∨ ∃ t, readToString file = .ok t

section preserves

variable {C M} {o : Outcome} {file : StoreFile} {user password : Text}

theorem lookup_renderBody {mode : KeyMode} {m : Accounts} (hv : ∀ u ∈ m, ValidName u) (u : Text) :
    lookup C M (.present (asBytes (renderBody C M m (machineKeyFor C M mode) mode))) u =
      .ok (m.lookup u) := by
  simp only [lookup, load, readToString, fromUtf8_asBytes, Except.map,
    lookup_parseBody_renderBody M hv]

theorem setPassword_of_stops (C : Crypto) (M : Machine) (file : StoreFile) (user password : Text)
    (h : o.stops) : ∃ e, setPassword C M o file user password = (.error e, file) := by
  rcases o with ⟨dir, lock, write⟩
  rcases h with h | h | h <;> simp only at h <;> subst h
  · exact ⟨.other, rfl⟩
  · cases dir <;> exact ⟨.other, rfl⟩
  · cases dir <;> cases lock <;> exact ⟨.other, rfl⟩

def loaded (C : Crypto) (M : Machine) (file : StoreFile) : Accounts :=
  match load C M file with
  | .ok m => m
  | .error _ => ∅

theorem setPassword_of_not_stops (h : ¬ o.stops) :
    setPassword C M o file user password = (.ok (), .present (asBytes
      (renderBody C M ((loaded C M file).insert user password)
        (machineKeyFor C M (buildIkm M.id).2) (buildIkm M.id).2))) := by
  simp only [Outcome.stops, not_or, Bool.not_eq_false] at h
  unfold setPassword setPasswordLocked machineKeyFor
  simp only [h.1, h.2.1, h.2.2, Bool.not_true, Bool.false_eq_true, if_false, if_true,
    ikmForMode_buildIkm]
  rfl

theorem valid_of_mem_loaded {u : Text} (h : u ∈ loaded C M file) : ValidName u := by
  unfold loaded load at h
  cases hr : readToString file with
  | error e => simp only [hr, Except.map] at h; exact absurd h (notMem_empty u)
  | ok t => simp only [hr, Except.map] at h; exact valid_of_mem_parseBody h

theorem lookup_of_not_stops (hu : ValidName user) (h : ¬ o.stops) (v : Text) :
    lookup C M (setPassword C M o file user password).2 v =
      .ok (((loaded C M file).insert user password).lookup v) := by
  have hv : ∀ w ∈ (loaded C M file).insert user password, ValidName w := by
    intro w hw
    rcases mem_insert _ |>.1 hw with rfl | hw
    · exact hu
    · exact valid_of_mem_loaded hw
  rw [setPassword_of_not_stops h, lookup_renderBody hv]

theorem gives_lookup_of_readable (h : Readable file) (v : Text) :
    gives (lookup C M file v) = .ok ((loaded C M file).lookup v) := by
  rcases h with rfl | ⟨t, ht⟩
  · rfl
  · simp only [lookup, loaded, load, ht, Except.map, gives]

theorem load_of_not_readable (h : ¬ Readable file) :
    ∃ e, e ≠ .notFound ∧ load C M file = .error e := by
  simp only [Readable, not_or, not_exists] at h
  rcases file with _ | c | c
  · exact absurd rfl h.1
  · exact ⟨.other, by decide, rfl⟩
  · refine ⟨.invalidData, by decide, ?_⟩
    cases hc : fromUtf8 c with
    | none => simp only [load, readToString, hc, Except.map]
    | some t => exact absurd (by simp only [readToString, hc]) (h.2 t)

theorem exists_ne (user : Text) : ∃ v, v ≠ user := ⟨'x' :: user, by simp⟩

/-- **When `setPassword` preserves the store**: exactly when the file is absent or readable text, or
the call fails before it replaces it. -/
theorem preserves_iff (C : Crypto) (M : Machine) (o : Outcome) (file : StoreFile)
    (user password : Text) (hu : ValidName user) :
    Preserves C M o file user password ↔ Readable file ∨ o.stops := by
  constructor
  · rintro ⟨hp, -⟩
    by_contra hc
    simp only [not_or] at hc
    obtain ⟨hr, hs⟩ := hc
    rcases hp with ⟨-, -, hothers⟩ | ⟨⟨e, he⟩, -⟩
    · obtain ⟨v, hv⟩ := exists_ne user
      obtain ⟨e, hne, hl⟩ := load_of_not_readable (C := C) (M := M) hr
      have hbefore : gives (lookup C M file v) = .error e := by
        simp only [lookup, hl, Except.map]
        cases e <;> first | rfl | exact absurd rfl hne
      have hafter := hothers v hv
      rw [lookup_of_not_stops hu hs, hbefore] at hafter
      cases hafter
    · rw [setPassword_of_not_stops hs] at he
      cases he
  · intro h
    by_cases hs : o.stops
    · obtain ⟨e, he⟩ := setPassword_of_stops C M file user password hs
      unfold Preserves
      rw [he]
      exact ⟨Or.inr ⟨⟨e, rfl⟩, rfl⟩, fun _ => rfl⟩
    · have hr : Readable file := h.resolve_right hs
      refine ⟨Or.inl ⟨?_, ?_, fun v hv => ?_⟩, ?_⟩
      · rw [setPassword_of_not_stops hs]
      · rw [lookup_of_not_stops hu hs, lookup_insert]
      · rw [lookup_of_not_stops hu hs, lookup_insert_ne hv, gives_lookup_of_readable hr]
        rfl
      · rintro ⟨hne, e, he⟩
        obtain ⟨t, ht⟩ := hr.resolve_left hne
        simp [load, ht, Except.map] at he

end preserves

/-! ### Migrating a legacy store -/

/-- **The body of a store round trips**: a rendered map is read back, its names are its keys, and
migrating a file keeps what every account looks up to, seals it and leaves nothing for a second
migration. -/
structure RoundTrips : Prop where
  parsed : ∀ (keyFor : KeyMode → C.Key) (mode : KeyMode) (m : Accounts), (∀ u ∈ m, ValidName u) →
    ∀ u, (parseBody C keyFor (renderBody C M m (keyFor mode) mode)).lookup u = m.lookup u
  names : ∀ (keyFor : KeyMode → C.Key) (mode : KeyMode) (m : Accounts), (∀ u ∈ m, ValidName u) →
    (parseNames (renderBody C M m (keyFor mode) mode)).Perm m.keys
  migrated : ∀ lock write seen file u,
    lookup C M (migratePlaintext C M lock write seen file) u = lookup C M file u
  isSealed : ∀ seen file, (legacyContent seen).isSome → (legacyContent file).isSome →
    ∃ body, readToString (migratePlaintext C M true true seen file) = .ok body ∧
      (lines body).head? = some sealHeader
  once : ∀ lock write seen file, migratePlaintext C M lock write seen
    (migratePlaintext C M true true file file) = migratePlaintext C M true true file file

section migrate

variable {C M} {file : StoreFile} {content : Text}

theorem readToString_of_legacyContent (h : legacyContent file = some content) :
    readToString file = .ok content := by
  unfold legacyContent at h
  split at h
  · rename_i t ht
    split_ifs at h
    rw [ht, some.inj h]
  · cases h

theorem head?_renderBody (m : Accounts) (key : C.Key) (mode : KeyMode) :
    (lines (renderBody C M m key mode)).head? = some sealHeader := by
  rw [renderBody, lines_append_feed _ (by decide) (by decide), head?_cons]

theorem migratePlaintext_of_none (seen : StoreFile)
    (h : legacyContent file = none) : migratePlaintext C M lock write seen file = file := by
  unfold migratePlaintext
  simp only [h, ite_self]

theorem lookup_migratePlaintext (seen file : StoreFile) (u : Text) :
    lookup C M (migratePlaintext C M lock write seen file) u = lookup C M file u := by
  cases h : legacyContent file with
  | none => rw [migratePlaintext_of_none lock write seen h]
  | some content =>
    have hkey : C.deriveKey (buildIkm M.id).1 = machineKeyFor C M (buildIkm M.id).2 := by
      rw [machineKeyFor, ikmForMode_buildIkm]
    simp only [migratePlaintext, h]
    split_ifs
    · rfl
    · rw [hkey, lookup_renderBody fun v hv => valid_of_mem_parseBody hv]
      simp only [lookup, load, readToString_of_legacyContent h, Except.map]
    · rfl

theorem sealed_migratePlaintext {seen file : StoreFile} (hseen : (legacyContent seen).isSome)
    (hfile : (legacyContent file).isSome) :
    ∃ body, readToString (migratePlaintext C M true true seen file) = .ok body ∧
      (lines body).head? = some sealHeader := by
  obtain ⟨content, hcontent⟩ := isSome_iff_exists.1 hfile
  simp only [migratePlaintext, isNone_eq_false_iff.2 hseen, hcontent, Bool.not_true, Bool.or_self,
    Bool.false_eq_true, if_false, if_true]
  exact ⟨_, by rw [readToString, fromUtf8_asBytes], head?_renderBody _ _ _⟩

theorem legacyContent_migratePlaintext (file : StoreFile) :
    legacyContent (migratePlaintext C M true true file file) = none := by
  cases h : legacyContent file with
  | none => rw [migratePlaintext_of_none _ _ _ h, h]
  | some content =>
    have hsome : (legacyContent file).isSome := isSome_iff_exists.2 ⟨content, h⟩
    obtain ⟨body, hread, hhead⟩ := sealed_migratePlaintext (C := C) (M := M) hsome hsome
    simp [legacyContent, hread, bodyHasLegacy, hhead]

/-- **A store body round trips**, on every machine and with every cipher that opens what it sealed.
-/
theorem roundTrips (C : Crypto) (M : Machine) : RoundTrips C M where
  parsed _ _ _ hv u := lookup_parseBody_renderBody M hv u
  names _ _ _ hv := parseNames_renderBody M hv
  migrated := lookup_migratePlaintext
  isSealed _ _ hseen hfile := sealed_migratePlaintext hseen hfile
  once lock write seen file :=
    migratePlaintext_of_none lock write seen (legacyContent_migratePlaintext file)

end migrate

/-! ### A host with a readable and an unreadable store -/

theorem toNat_letter (b : UInt8) : (Char.ofNat (b.toNat + 65)).toNat = b.toNat + 65 := by
  have hb := b.toNat_lt
  have hvalid : (b.toNat + 65).isValidChar := .inl (by omega)
  rw [Char.ofNat, dif_pos hvalid]
  rfl

/-- A stand-in: the tag of a message is its key, and a byte is encoded as a character. -/
def tagCipher : Crypto where
  Key := List UInt8
  deriveKey := fun ikm => ikm
  encrypt := fun k _ aad msg => msg ++ (k ++ aad ++ replicate 16 0).take 16
  decrypt := fun k _ aad c =>
    if c.drop (c.length - 16) = (k ++ aad ++ replicate 16 0).take 16
    then some (c.take (c.length - 16)) else none
  decrypt_encrypt := by
    intro k nonce aad msg
    have hlen : ((k ++ aad ++ replicate 16 0).take 16).length = 16 := by
      simp only [length_take, length_append, length_replicate]; omega
    have hsub : (msg ++ (k ++ aad ++ replicate 16 0).take 16).length - 16 = msg.length := by
      rw [length_append, hlen]; omega
    rw [hsub, drop_left, take_left, if_pos rfl]
  length_encrypt := by simp only [length_append, length_take, length_replicate]; omega
  encode bytes := bytes.map fun b => Char.ofNat (b.toNat + 65)
  decode t := some (t.map fun c => UInt8.ofNat (c.toNat - 65))
  decode_encode bytes := by simp [Function.comp_def, toNat_letter]
  mem_encode bytes c hc := by
    obtain ⟨b, -, rfl⟩ := mem_map.1 hc
    have hb := toNat_letter b
    constructor <;> rintro h <;> simp [h] at hb

def host : Machine where
  id := ⟨"4c4c4544\n".toList, "b0a1f2\n".toList⟩
  order := entries
  order_perm := fun _ => List.Perm.refl _
  nonce := fun _ => replicate 12 7
  length_nonce := fun _ => rfl

def allWell : Outcome := ⟨true, true, true⟩

theorem validName_alice : ValidName "alice".toList := ⟨by decide, by decide, by decide⟩

/-- The equivalence at a legacy store that holds one account. -/
theorem preserves_iff_bob :
    Readable (.present (asBytes "bob:hunter2\n".toList)) ∧
      Preserves tagCipher host allWell (.present (asBytes "bob:hunter2\n".toList))
        "alice".toList "pw".toList := by
  have hr : Readable (.present (asBytes "bob:hunter2\n".toList)) :=
    Or.inr ⟨_, by rw [readToString, fromUtf8_asBytes]⟩
  exact ⟨hr, (preserves_iff tagCipher host allWell _ _ _ validName_alice).2 (Or.inl hr)⟩

/-- **A store cut inside a two-byte character is replaced by one that holds only `alice`.** -/
theorem unreadable_not_preserves :
    ¬ Preserves tagCipher host allWell (.present (asBytes "bob:hunter2\n".toList ++ [0xC3]))
      "alice".toList "pw".toList := by
  have hcut : fromUtf8 (asBytes "bob:hunter2\n".toList ++ [0xC3]) = none := by decide +kernel
  rintro ⟨-, h⟩
  have hsame := h ⟨by simp, .invalidData, by simp only [load, readToString, hcut, Except.map]⟩
  rw [setPassword_of_not_stops (by simp [Outcome.stops, allWell])] at hsame
  -- the new file reads back as text, the old one did not
  have hnew := congrArg readToString hsame
  simp only [readToString, hcut, fromUtf8_asBytes, reduceCtorEq] at hnew

end Linrdp.Sam.Store
