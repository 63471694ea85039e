import Linrdp.Lib.TextLines

/-!
# The list of copied files

`path_to_uri` writes every byte outside a small set as a percent sign and two digits.
`parse_uri_list` puts a blank for `%20` and a letter for `%C3`, and leaves every other escape as it
is. So the paths come back exactly when each of their bytes is one that is written as it is, or a
blank (`roundTrips_iff`).
-/

namespace Linrdp.Clipboard.UriList

open List Lib.TextLines

abbrev Path := List UInt8

/-! ### Texts -/

/-- `str::replace`: `skip` characters are still part of the match before. -/
def replaceFrom (pattern new : Text) : ℕ → Text → Text
  | _, [] => []
  | skip + 1, _ :: t => replaceFrom pattern new skip t
  | 0, c :: t =>
    if pattern <+: c :: t then new ++ replaceFrom pattern new (pattern.length - 1) t
    else c :: replaceFrom pattern new 0 t

def replace (pattern new t : Text) : Text := replaceFrom pattern new 0 t

def trimStartMatches (pattern : Text) : ℕ → Text → Text
  | 0, t => t
  | n + 1, t => match stripPrefix pattern t with
    | some rest => trimStartMatches pattern n rest
    | none => t

/-! ### Writing and reading -/

def scheme : Text := ['f', 'i', 'l', 'e', ':', '/', '/']

variable (b : UInt8)

def isUnreserved : Bool :=
  (65 ≤ b && b ≤ 90) || (97 ≤ b && b ≤ 122) || (48 ≤ b && b ≤ 57) || [45, 46, 95, 126, 47].contains
    b

def hexDigit (n : ℕ) : Char :=
  ['0', '1', '2', '3', '4', '5', '6', '7', '8', '9', 'A', 'B', 'C', 'D', 'E', 'F'].getD n '0'

def encodeByte : Text :=
  if isUnreserved b then [Char.ofNat b.toNat]
  else ['%', hexDigit (b.toNat / 16), hexDigit (b.toNat % 16)]

variable (path : Path)

def pathToUri : Text := scheme ++ path.flatMap encodeByte

def decode (t : Text) : Text := replace ['%', 'C', '3'] ['Ã'] (replace ['%', '2', '0'] [' '] t)

def parseLine (line : Text) : Option Path :=
  let line := trim line
  if scheme <+: line then some (asBytes (decode (trimStartMatches scheme line.length line)))
  else if line ≠ [] ∧ ¬['c', 'o', 'p', 'y'] <+: line ∧
    ¬['c', 'u', 't'] <+: line then some (asBytes line)
  else none

def parseUriList (t : Text) : List Path := (lines t).filterMap parseLine

inductive Heading
  | none | copy | cut

def Heading.lines : Heading → List Text
  | .none => []
  | .copy => [['c', 'o', 'p', 'y']]
  | .cut => [['c', 'u', 't']]

theorem trim_eq_self {t : Text} (h : ∀ c ∈ t, isWhiteSpace c = false) : trim t = t := by
  have hdrop : t.dropWhile isWhiteSpace = t :=
    dropWhile_eq_self_iff.2 fun hl => by simp [h _ (getElem_mem hl)]
  rw [trim, hdrop, rdropWhile_eq_self_iff]
  exact fun hne => by simp [h _ (getLast_mem hne)]

/-! ### One escape after the other -/

section

variable {pattern new t : Text}

theorem replaceFrom_skip (skipped rest : Text) :
    replaceFrom pattern new skipped.length (skipped ++ rest) = replace pattern new rest := by
  induction skipped with
  | nil => rfl
  | cons c skipped ih => exact ih

theorem replace_match (hne : pattern ≠ []) (rest : Text) :
    replace pattern new (pattern ++ rest) = new ++ replace pattern new rest := by
  cases pattern with
  | nil => exact absurd rfl hne
  | cons c pattern =>
    have hpre : c :: pattern <+: c :: (pattern ++ rest) := prefix_append (c :: pattern) rest
    rw [replace, cons_append, replaceFrom, if_pos hpre]
    exact congrArg (new ++ ·) (replaceFrom_skip pattern rest)

/-- A match begins at no character of `t`, whatever is behind it. -/
def Passes (pattern t : Text) : Prop :=
  t.length ≤ pattern.length ∧ ∀ i < t.length, ¬t.drop i <+: pattern

instance (pattern t : Text) : Decidable (Passes pattern t) := inferInstanceAs (Decidable (_ ∧ _))

theorem replace_passes (h : Passes pattern t) (rest : Text) :
    replace pattern new (t ++ rest) = t ++ replace pattern new rest := by
  induction t with
  | nil => rfl
  | cons c t ih =>
    obtain ⟨hlen, hno⟩ := h
    have hne : ¬pattern <+: c :: (t ++ rest) := fun hpre =>
      hno 0 (Nat.zero_lt_succ _) (prefix_of_prefix_length_le (prefix_append (c :: t) rest) hpre
        hlen)
    rw [cons_append, replace, replaceFrom, if_neg hne, cons_append]
    refine congrArg (c :: ·) (ih ⟨by simp at hlen; omega, fun i hi => ?_⟩)
    exact hno (i + 1) (Nat.succ_lt_succ hi)

theorem replace_flatMap {f g : UInt8 → Text}
    (h : ∀ b rest, replace pattern new (f b ++ rest) = g b ++ replace pattern new rest)
    (path : Path) : replace pattern new (path.flatMap f) = path.flatMap g := by
  induction path with
  | nil => rfl
  | cons b path ih => rw [flatMap_cons, h, ih, flatMap_cons]

end

theorem forall_byte {P : UInt8 → Prop} (h : ∀ n < 256, P (UInt8.ofNat n)) (b : UInt8) : P b := by
  have hb := h b.toNat b.toNat_lt
  rwa [UInt8.ofNat_toNat] at hb

def unblank : Text := if b = 32 then [' '] else encodeByte b

def restored : Text := if b = 0xC3 then ['Ã'] else unblank b

theorem decode_encode : decode (path.flatMap encodeByte) = path.flatMap restored := by
  have hblank : ∀ b, b ≠ 32 → Passes ['%', '2', '0'] (encodeByte b) :=
    forall_byte (by decide +kernel)
  have hletter : ∀ b, b ≠ 0xC3 → Passes ['%', 'C', '3'] (unblank b) :=
    forall_byte (by decide +kernel)
  rw [decode, replace_flatMap (g := unblank), replace_flatMap (g := restored)]
  · intro b rest
    by_cases hb : b = 0xC3
    · rw [hb]
      exact replace_match (by simp) rest
    · rw [replace_passes (hletter b hb), restored, if_neg hb]
  · intro b rest
    by_cases hb : b = 32
    · rw [hb]
      exact replace_match (by simp) rest
    · rw [replace_passes (hblank b hb), unblank, if_neg hb]

abbrev Plain (b : UInt8) : Prop := isUnreserved b = true ∨ b = 32

theorem asBytes_restored :
    if Plain b then asBytes (restored b) = [b] else 1 < (asBytes (restored b)).length := by
  revert b
  exact forall_byte (by decide +kernel)

theorem asBytes_flatMap :
    asBytes ((b :: path).flatMap restored) = asBytes (restored b) ++ asBytes
    (path.flatMap restored) := by
  rw [flatMap_cons, asBytes_append]

theorem length_le_restored : path.length ≤ (asBytes (path.flatMap restored)).length := by
  induction path with
  | nil => exact Nat.zero_le _
  | cons b path ih =>
    have hb := asBytes_restored b
    rw [asBytes_flatMap, length_append, length_cons]
    split_ifs at hb
    · rw [hb, length_singleton]
      omega
    · omega

theorem restored_eq_iff : asBytes (path.flatMap restored) = path ↔ ∀ b ∈ path, Plain b := by
  induction path with
  | nil => simp [asBytes]
  | cons b path ih =>
    have hb := asBytes_restored b
    rw [asBytes_flatMap, forall_mem_cons, ← ih]
    split_ifs at hb with hplain
    · rw [hb, singleton_append, cons_inj_right]
      exact ⟨fun h => ⟨hplain, h⟩, And.right⟩
    · refine iff_of_false (fun h => ?_) fun h => hplain h.1
      have hlen := congrArg List.length h
      have hrest := length_le_restored path
      rw [length_append, length_cons] at hlen
      omega

/-! ### The lines -/

theorem isWhiteSpace_uri : ∀ c ∈ pathToUri path, isWhiteSpace c = false := by
  have hscheme : scheme.any isWhiteSpace = false := by decide
  have hbyte : ∀ b, (encodeByte b).any isWhiteSpace = false := forall_byte (by decide +kernel)
  intro c hc
  rw [← Bool.not_eq_true]
  rcases mem_append.1 hc with hc | hc
  · exact any_eq_false.1 hscheme c hc
  · obtain ⟨b, -, hc⟩ := mem_flatMap.1 hc
    exact any_eq_false.1 (hbyte b) c hc

theorem parseLine_uri {path : Path} (h : path.head? = some 47) :
    parseLine (pathToUri path) = some (asBytes (path.flatMap restored)) := by
  obtain ⟨rest, rfl⟩ := head?_eq_some_iff.1 h
  have hnone : stripPrefix scheme ((47 :: rest).flatMap encodeByte) = none :=
    stripPrefix_eq_none (by simp [scheme, encodeByte, isUnreserved])
  have hstrip : ∀ n, trimStartMatches scheme (n + 1 + 1) (pathToUri (47 :: rest)) =
      (47 :: rest).flatMap encodeByte := by
    intro n
    rw [trimStartMatches, pathToUri, stripPrefix_append]
    simp only [trimStartMatches, hnone]
  have hpre : scheme <+: pathToUri (47 :: rest) := prefix_append _ _
  unfold parseLine
  simp only [trim_eq_self (isWhiteSpace_uri _), if_pos hpre]
  rw [← decode_encode, ← hstrip]
  rfl

theorem filterMap_uris {paths : List Path} (h : ∀ p ∈ paths, p.head? = some 47) :
    (paths.map pathToUri).filterMap parseLine = paths.map fun p =>
    asBytes (p.flatMap restored) := by
  rw [filterMap_map, ← filterMap_eq_map]
  exact filterMap_congr fun p hp => parseLine_uri (h p hp)

/-- **A list of paths comes back** exactly when every byte of every path is unreserved or a blank.
-/
theorem roundTrips_iff {t : Text} {paths : List Path} (heading : Heading)
    (h : ∀ p ∈ paths, p.head? = some 47) (ht : lines t = heading.lines ++ paths.map pathToUri) :
    parseUriList t = paths ↔ ∀ p ∈ paths, ∀ b ∈ p, Plain b := by
  have hheading : heading.lines.filterMap parseLine = [] := by
    cases heading <;> decide
  rw [parseUriList, ht, filterMap_append, hheading, filterMap_uris h, nil_append]
  nth_rewrite 2 [← map_id paths]
  rw [map_inj_left]
  exact forall₂_congr fun p _ => restored_eq_iff p

/-- The path `/a b` under a heading. -/
theorem roundTrips_blank : parseUriList "copy\nfile:///a%20b".toList = [[47, 97, 32, 98]] :=
  (roundTrips_iff .copy (by decide) (by decide)).2 (by simp [Plain, isUnreserved])

/-- The path `/+` comes back as `/%2B`. -/
theorem plus_not_restored : lines "file:///%2B\r\n".toList = [pathToUri [47, 43]] ∧
    parseUriList "file:///%2B\r\n".toList = [[47, 37, 50, 66]] := by decide +kernel

end Linrdp.Clipboard.UriList
