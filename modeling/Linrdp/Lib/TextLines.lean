import Mathlib.Data.List.DropRight

/-!
# Texts as lists of characters: lines, splitting, trimming

* `lines` splits at line feeds, drops the feed and one carriage return before it, and yields no
  empty last line; `unlines` ends every line with a feed, and gives a text back from its lines
  exactly when it is terminated and no line of it ends in a carriage return (`unlines_lines_iff`);
* `splitOnce c` cuts at the first `c`, `trim` drops white space at both ends;
* `asBytes` and `fromUtf8` are the UTF-8 encoding and its partial inverse (`fromUtf8_asBytes`);
* `parseUnsigned` reads a number as `str::parse` does, and a decimal back
(`parseUnsigned_toDigits`).
-/

namespace Linrdp.Lib.TextLines

open List Option

abbrev Text := List Char

/-! ### Lines -/

/-- A finished line, read backwards, without the carriage return of a `\r\n`. -/
def endLine : List Char → Text
  | '\r' :: acc => acc.reverse
  | acc => acc.reverse

/-- The lines of a text, `acc` being the current line read so far, backwards. -/
def linesFrom : List Char → Text → List Text
  | [], [] => []
  | acc, [] => [acc.reverse]
  | acc, c :: cs => if c = '\n' then endLine acc :: linesFrom [] cs else linesFrom (c :: acc) cs

def lines (t : Text) : List Text := linesFrom [] t

theorem linesFrom_append (l acc rest : Text) (h : '\n' ∉ l) :
    linesFrom acc (l ++ '\n' :: rest) = endLine (l.reverse ++ acc) :: lines rest := by
  induction l generalizing acc with
  | nil => simp [linesFrom, lines]
  | cons c l ih =>
    have hc : c ≠ '\n' := fun e => h (e ▸ mem_cons_self)
    have hl : '\n' ∉ l := fun hl => h (mem_cons_of_mem _ hl)
    simp only [cons_append, linesFrom, if_neg hc, ih (c :: acc) hl, reverse_cons,
      append_assoc, nil_append]

theorem endLine_of_ne {acc : List Char} (h : acc.head? ≠ some '\r') :
    endLine acc = acc.reverse := by
  unfold endLine
  split
  · simp at h
  · rfl

variable {l : Text}

theorem lines_append_feed (rest : Text) (hf : '\n' ∉ l) (hr : l.getLast? ≠ some '\r') :
    lines (l ++ '\n' :: rest) = l :: lines rest := by
  unfold lines
  rw [linesFrom_append l [] rest hf, append_nil, endLine_of_ne, reverse_reverse, lines]
  rwa [head?_reverse]

theorem endLine_subset (acc : List Char) : ∀ c ∈ endLine acc, c ∈ acc := by
  intro c hc
  unfold endLine at hc
  split at hc <;> simp_all

theorem feed_notMem_linesFrom (t acc : Text) (h : '\n' ∉ acc) : ∀ l ∈ linesFrom acc t,
    '\n' ∉ l := by
  induction t generalizing acc with
  | nil =>
    intro l hl
    rcases acc with _ | ⟨a, acc⟩
    · simp [linesFrom] at hl
    · simp only [linesFrom, mem_singleton] at hl
      subst hl
      rwa [mem_reverse]
  | cons c t ih =>
    intro l hl
    simp only [linesFrom] at hl
    split_ifs at hl with hc
    · rcases mem_cons.1 hl with rfl | hl
      · exact fun hm => h (endLine_subset acc _ hm)
      · exact ih [] (by simp) l hl
    · refine ih (c :: acc) ?_ l hl
      simp only [mem_cons, not_or]
      exact ⟨fun e => hc e.symm, h⟩

variable {t : Text}

theorem feed_notMem_of_mem_lines (h : l ∈ lines t) : '\n' ∉ l :=
  feed_notMem_linesFrom t [] (by simp) l h

/-! ### Splitting -/

def splitOnce (c : Char) : Text → Option (Text × Text)
  | [] => none
  | x :: xs => if x = c then some ([], xs) else (splitOnce c xs).map fun p => (x :: p.1, p.2)

variable {c : Char} {a : Text}

theorem splitOnce_append (b : Text) (h : c ∉ a) : splitOnce c (a ++ c :: b) = some (a, b) := by
  induction a with
  | nil => simp [splitOnce]
  | cons x a ih =>
    have hx : x ≠ c := fun e => h (e ▸ mem_cons_self)
    have ha : c ∉ a := fun ha => h (mem_cons_of_mem _ ha)
    simp [splitOnce, hx, ih ha]

theorem splitOnce_some {b : Text} (h : splitOnce c t = some (a, b)) : t = a ++ c :: b ∧ c ∉ a := by
  induction t generalizing a with
  | nil => simp [splitOnce] at h
  | cons x t ih =>
    unfold splitOnce at h
    split_ifs at h with hx
    · obtain ⟨rfl, rfl⟩ := Prod.mk.inj (some.inj h)
      simp [hx]
    · obtain ⟨⟨a', b'⟩, ht, he⟩ := map_eq_some_iff.1 h
      obtain ⟨rfl, rfl⟩ := Prod.mk.inj he
      obtain ⟨h1, h2⟩ := ih ht
      refine ⟨by rw [h1]; rfl, ?_⟩
      simp only [mem_cons, not_or]
      exact ⟨fun e => hx e.symm, h2⟩

def stripPrefix (p t : Text) : Option Text :=
  if p.isPrefixOf t then some (t.drop p.length) else none

theorem stripPrefix_append (p t : Text) : stripPrefix p (p ++ t) = some t := by simp [stripPrefix]

theorem stripPrefix_eq_none {p : Text} (h : ¬ p <+: t) : stripPrefix p t = none := by
  simp [stripPrefix, h]

/-! ### Texts that end in a feed -/

inductive Terminated : Text → Prop
  | nil : Terminated []
  | line {l rest : Text} : '\n' ∉ l → Terminated rest → Terminated (l ++ '\n' :: rest)

theorem exists_firstLine (t : Text) : '\n' ∉ t ∨ ∃ l rest, t = l ++ '\n' :: rest ∧ '\n' ∉ l := by
  induction t with
  | nil => exact .inl not_mem_nil
  | cons c t ih =>
    by_cases hc : c = '\n'
    · exact .inr ⟨[], t, by rw [hc]; rfl, not_mem_nil⟩
    · rcases ih with h | ⟨l, rest, rfl, hl⟩
      · exact .inl (not_mem_cons_of_ne_of_not_mem (Ne.symm hc) h)
      · exact .inr ⟨c :: l, rest, rfl, not_mem_cons_of_ne_of_not_mem (Ne.symm hc) hl⟩

theorem terminated_append (t : Text) : ∃ whole rest, t = whole ++ rest ∧ Terminated whole ∧
    '\n' ∉ rest := by
  induction hn : t.length using Nat.strong_induction_on generalizing t with
  | _ n ih =>
    rcases exists_firstLine t with h | ⟨l, rest, rfl, hl⟩
    · exact ⟨[], t, rfl, .nil, h⟩
    · have hlt : rest.length < n := by
        rw [← hn, length_append, length_cons]
        omega
      obtain ⟨whole, last, rfl, hw, hlast⟩ := ih _ hlt rest rfl
      exact ⟨l ++ '\n' :: whole, last, by simp, .line hl hw, hlast⟩

theorem terminated_iff : Terminated t ↔ t = [] ∨ t.getLast? = some '\n' := by
  constructor
  · intro h
    induction h with
    | nil => exact .inl rfl
    | @line l rest _ _ ih =>
      right
      rcases ih with rfl | ih
      · rw [getLast?_append, getLast?_singleton, some_or]
      · rw [getLast?_append, getLast?_cons, ih]
        rfl
  · rintro (rfl | h)
    · exact .nil
    · obtain ⟨whole, rest, rfl, hw, hrest⟩ := terminated_append t
      rcases eq_nil_or_concat rest with rfl | ⟨init, c, rfl⟩
      · rwa [append_nil]
      · rw [concat_eq_append, ← append_assoc, getLast?_concat, some_inj] at h
        exact absurd (by simp [h]) hrest

theorem lines_feed (rest : Text) (h : '\n' ∉ l) :
    lines (l ++ '\n' :: rest) = endLine l.reverse :: lines rest := by
  rw [lines, linesFrom_append l [] rest h, append_nil]

theorem Terminated.lines_append (h : Terminated t) (s : Text) :
    lines (t ++ s) = lines t ++ lines s := by
  induction h with
  | nil => rfl
  | line hl _ ih => rw [append_assoc, cons_append, lines_feed _ hl, lines_feed _ hl, ih,
      cons_append]

theorem lines_of_notMem (h : '\n' ∉ t) : lines t = if t = [] then [] else [t] := by
  suffices hfrom : ∀ acc, linesFrom acc t = if acc = [] ∧ t = [] then [] else [acc.reverse ++ t] by
    simpa [lines] using hfrom []
  intro acc
  induction t generalizing acc with
  | nil => cases acc <;> simp [linesFrom]
  | cons c t ih =>
    have hc : c ≠ '\n' := fun e => h (e ▸ mem_cons_self)
    simp [linesFrom, hc, ih fun ht => h (mem_cons_of_mem c ht)]

def chomp (l : Text) : Text := endLine l.reverse

theorem eq_chomp (l : Text) : l = chomp l ∨ l = chomp l ++ ['\r'] := by
  by_cases hr : l.getLast? = some '\r'
  · rw [← head?_reverse] at hr
    obtain ⟨acc, hacc⟩ := head?_eq_some_iff.1 hr
    right
    rw [chomp, hacc, endLine, ← reverse_cons, ← hacc, reverse_reverse]
  · left
    rw [chomp, endLine_of_ne (by rwa [head?_reverse]), reverse_reverse]

theorem chomp_prefix (l : Text) : chomp l <+: l := by
  rcases eq_chomp l with h | h
  · exact ⟨[], by rw [append_nil, ← h]⟩
  · exact ⟨['\r'], h.symm⟩

def unlines (ls : List Text) : Text := ls.flatMap fun l => l ++ ['\n']

@[simp] theorem unlines_nil : unlines [] = [] := rfl

@[simp] theorem unlines_cons (l : Text) (ls : List Text) :
    unlines (l :: ls) = l ++ '\n' :: unlines ls := by
  rw [unlines, flatMap_cons, append_assoc]
  rfl

variable {ls : List Text}

theorem intercalate_feed (h : ls ≠ []) : List.intercalate ['\n'] ls ++ ['\n'] = unlines ls := by
  induction ls with
  | nil => exact absurd rfl h
  | cons l ls ih =>
    cases ls with
    | nil => rw [intercalate_singleton, unlines_cons, unlines_nil]
    | cons l' ls =>
      rw [intercalate_cons_cons, append_assoc, append_assoc, ih (cons_ne_nil _ _), unlines_cons l]
      rfl

theorem count_feed_unlines (h : ∀ l ∈ ls, '\n' ∉ l) : (unlines ls).count '\n' = ls.length := by
  induction ls with
  | nil => rfl
  | cons l ls ih =>
    rw [unlines_cons, count_append, count_eq_zero_of_not_mem (h l mem_cons_self),
      count_cons_self, ih fun l' hl' => h l' (mem_cons_of_mem l hl'), length_cons]
    omega

theorem Terminated.count_feed (h : Terminated t) : t.count '\n' = (lines t).length := by
  induction h with
  | nil => rfl
  | line hl _ ih =>
    rw [count_append, count_eq_zero_of_not_mem hl, count_cons_self, ih, lines_feed _ hl,
      length_cons]
    omega

theorem append_feed_inj {b c d : Text} (ha : '\n' ∉ a) (hc : '\n' ∉ c) :
    a ++ '\n' :: b = c ++ '\n' :: d ↔ a = c ∧ b = d := by
  constructor
  · intro h
    have hsplit := congrArg (splitOnce '\n') h
    rw [splitOnce_append b ha, splitOnce_append d hc, some_inj] at hsplit
    exact Prod.mk.inj hsplit
  · rintro ⟨rfl, rfl⟩
    rfl

theorem lines_unlines_append (h : ∀ l ∈ ls, '\n' ∉ l) (s : Text) :
    lines (unlines ls ++ s) = ls.map chomp ++ lines s := by
  induction ls with
  | nil => rfl
  | cons l ls ih =>
    rw [unlines_cons, append_assoc, cons_append, lines_feed _ (h l mem_cons_self),
      ih fun l' hl' => h l' (mem_cons_of_mem l hl'), map_cons, cons_append, chomp]

theorem prefix_of_prefix_feed {rest : Text} (ht : '\n' ∉ t) (h : t <+: l ++ '\n' :: rest) :
    t <+: l := by
  rcases prefix_or_prefix_of_prefix h (prefix_append l _) with h' | ⟨s, rfl⟩
  · exact h'
  · rcases s with _ | ⟨c, s⟩
    · simp
    · rw [prefix_append_right_inj, cons_prefix_cons] at h
      obtain ⟨rfl, -⟩ := h
      exact absurd (by simp) ht

/-- **Every line of a truncated text** is the front of a line of the whole. -/
theorem mem_lines_of_prefix (hls : ∀ l ∈ ls, '\n' ∉ l)
    (h : t <+: unlines ls) : ∀ l ∈ lines t, ∃ whole ∈ ls, l <+: whole := by
  induction ls generalizing t with
  | nil =>
    obtain rfl := prefix_nil.1 h
    simp [lines, linesFrom]
  | cons first ls ih =>
    intro l hl
    rw [unlines_cons] at h
    rcases exists_firstLine t with ht | ⟨l', rest, rfl, hl'⟩
    · rw [lines_of_notMem ht] at hl
      split_ifs at hl
      · simp at hl
      · obtain rfl := mem_singleton.1 hl
        exact ⟨first, mem_cons_self, prefix_of_prefix_feed ht h⟩
    · obtain ⟨s, hs⟩ := h
      rw [append_assoc, cons_append, append_feed_inj hl' (hls first mem_cons_self)] at hs
      obtain ⟨rfl, hrest⟩ := hs
      rw [lines_feed _ hl', mem_cons] at hl
      rcases hl with rfl | hl
      · exact ⟨l', mem_cons_self, chomp_prefix l'⟩
      · obtain ⟨whole, hwhole, hpre⟩ :=
          ih (fun l hl => hls l (mem_cons_of_mem l' hl)) ⟨s, hrest⟩ l hl
        exact ⟨whole, mem_cons_of_mem l' hwhole, hpre⟩

theorem endLine_reverse_eq_iff (l : Text) : endLine l.reverse = l ↔ l.getLast? ≠ some '\r' := by
  constructor
  · intro h hr
    rw [← head?_reverse] at hr
    obtain ⟨acc, hacc⟩ := head?_eq_some_iff.1 hr
    have hlen := congrArg List.length h
    have hlen' := congrArg List.length hacc
    rw [hacc, endLine, length_reverse] at hlen
    rw [length_reverse, length_cons] at hlen'
    omega
  · intro hr
    rw [endLine_of_ne (by rwa [head?_reverse]), reverse_reverse]

def HasCrLf (t : Text) : Prop := ['\r', '\n'] <:+: t

instance (t : Text) : Decidable (HasCrLf t) := inferInstanceAs (Decidable (['\r', '\n'] <:+: t))

theorem not_hasCrLf_nil : ¬HasCrLf [] := by decide

theorem hasCrLf_append_feed (rest : Text) (h : '\n' ∉ l) :
    HasCrLf (l ++ '\n' :: rest) ↔ l.getLast? = some '\r' ∨ HasCrLf rest := by
  induction l with
  | nil => simp [HasCrLf, infix_cons_iff]
  | cons c l ih =>
    have hl : '\n' ∉ l := fun hm => h (mem_cons_of_mem c hm)
    have hcons : HasCrLf (c :: (l ++ '\n' :: rest)) ↔
        (c = '\r' ∧ l = []) ∨ HasCrLf (l ++ '\n' :: rest) := by
      rw [HasCrLf, infix_cons_iff, cons_prefix_cons]
      refine or_congr ?_ Iff.rfl
      cases l with
      | nil => simp [eq_comm]
      | cons d l =>
        have hd : '\n' ≠ d := fun e => hl (e ▸ mem_cons_self)
        simp [hd]
    rw [cons_append, hcons, ih hl, getLast?_cons]
    cases l with
    | nil => simp
    | cons d l => simp [getLast?_cons]

/-- **A text is what its lines make up** exactly when it ends in a feed, if it is not empty, and
none of its lines ends in a carriage return. -/
theorem unlines_lines_iff (h : Terminated t) : unlines (lines t) = t ↔ ¬HasCrLf t := by
  induction h with
  | nil => exact iff_of_true rfl not_hasCrLf_nil
  | @line l rest hl _ ih =>
    have hend : '\n' ∉ endLine l.reverse := fun hm =>
      hl (mem_reverse.1 (endLine_subset _ _ hm))
    rw [lines_feed _ hl, unlines_cons, append_feed_inj hend hl, ih, endLine_reverse_eq_iff,
      hasCrLf_append_feed _ hl, not_or]

/-! ### Trimming -/

def isWhiteSpace (c : Char) : Bool :=
  (9 ≤ c.toNat && c.toNat ≤ 13) || (0x2000 ≤ c.toNat && c.toNat ≤ 0x200A) ||
    [0x20, 0x85, 0xA0, 0x1680, 0x2028, 0x2029, 0x202F, 0x205F, 0x3000].contains c.toNat

def trimStart (t : Text) : Text := t.dropWhile isWhiteSpace

def trimEnd (t : Text) : Text := t.rdropWhile isWhiteSpace

def firstWord (t : Text) : Option Text :=
  match (trimStart t).takeWhile fun c => !isWhiteSpace c with
  | [] => none
  | word => some word

def trim (t : Text) : Text := (t.dropWhile isWhiteSpace).rdropWhile isWhiteSpace

theorem dropWhile_rdropWhile_dropWhile {α : Type*} (p : α → Bool) (l : List α) :
    ((l.dropWhile p).rdropWhile p).dropWhile p = (l.dropWhile p).rdropWhile p := by
  rw [dropWhile_eq_self_iff]
  intro hlen
  have hpre := rdropWhile_prefix p (l.dropWhile p)
  -- the first character of the result is the first one kept on the left
  rw [hpre.getElem hlen]
  exact dropWhile_get_zero_not p l (hlen.trans_le hpre.length_le)

theorem trim_trim (t : Text) : trim (trim t) = trim t := by
  unfold trim
  rw [dropWhile_rdropWhile_dropWhile, rdropWhile_idempotent]

/-! ### UTF-8 -/

def asBytes (t : Text) : List UInt8 := (String.ofList t).toUTF8.data.toList

def fromUtf8 (bytes : List UInt8) : Option Text :=
  (ByteArray.mk bytes.toArray).utf8Decode?.map Array.toList

@[simp] theorem fromUtf8_asBytes (t : Text) : fromUtf8 (asBytes t) = some t := by
  have h : (ByteArray.mk (asBytes t).toArray) = t.utf8Encode := by
    unfold asBytes
    rw [String.toUTF8_eq_toByteArray, String.toByteArray_ofList, Array.toArray_toList]
  rw [fromUtf8, h, utf8Decode?_utf8Encode]
  rfl

theorem asBytes_of_fromUtf8 {bytes : List UInt8} (h : fromUtf8 bytes = some t) :
    asBytes t = bytes := by
  obtain ⟨chars, hchars, rfl⟩ := map_eq_some_iff.1 h
  have hsome : (ByteArray.mk bytes.toArray).utf8Decode?.isSome := by rw [hchars]; rfl
  have hget : (ByteArray.mk bytes.toArray).utf8Decode?.get hsome = chars := by
    simp only [hchars, get_some]
  have henc := ByteArray.utf8Encode_get_utf8Decode? (h := hsome)
  rw [hget] at henc
  rw [asBytes, String.toUTF8_eq_toByteArray, String.toByteArray_ofList, henc]

theorem asBytes_append (t s : Text) : asBytes (t ++ s) = asBytes t ++ asBytes s := by
  simp only [asBytes, String.toUTF8_eq_toByteArray, String.toByteArray_ofList, utf8Encode_append,
    ByteArray.data_append, Array.toList_append]

theorem asBytes_injective : Function.Injective asBytes := by
  intro t s h
  have hdecode := congrArg fromUtf8 h
  rwa [fromUtf8_asBytes, fromUtf8_asBytes, some_inj] at hdecode

theorem asBytes_cons (c : Char) (t : Text) :
    asBytes (c :: t) = String.utf8EncodeChar c ++ asBytes t := by
  rw [← singleton_append, asBytes_append]
  congr 1
  simp [asBytes, String.toUTF8_eq_toByteArray, utf8Encode_singleton]

theorem utf8EncodeChar_append_inj {d : Char} {xs ys : List UInt8}
    (h : String.utf8EncodeChar c ++ xs = String.utf8EncodeChar d ++ ys) : c = d := by
  have hdecode : ∀ (c : Char) (xs : List UInt8),
      (String.utf8EncodeChar c ++ xs).toByteArray.utf8DecodeChar? 0 = some c := by
    intro c xs
    rw [toByteArray_append]
    exact ByteArray.utf8DecodeChar?_utf8EncodeChar_append
  have hc := hdecode c xs
  rw [h, hdecode d ys] at hc
  exact (some.inj hc).symm

theorem asBytes_prefix_iff {s : Text} : asBytes t <+: asBytes s ↔ t <+: s := by
  constructor
  · intro h
    induction t generalizing s with
    | nil => exact nil_prefix
    | cons c t ih =>
      obtain ⟨rest, hrest⟩ := h
      rw [asBytes_cons, append_assoc] at hrest
      cases s with
      | nil =>
        have hlen := congrArg List.length hrest
        have hsize := c.utf8Size_pos
        simp [asBytes] at hlen
        omega
      | cons d s =>
        rw [asBytes_cons] at hrest
        obtain rfl := utf8EncodeChar_append_inj hrest
        exact cons_prefix_cons.2 ⟨rfl, ih ⟨rest, append_cancel_left hrest⟩⟩
  · rintro ⟨rest, rfl⟩
    exact ⟨asBytes rest, (asBytes_append t rest).symm⟩

/-! ### Numbers -/

/-- `str::parse` for an unsigned number of at most `max`, with the texts of `ParseIntError`. -/
def parseUnsigned (max : ℕ) (t : Text) : Except Text (Fin (max + 1)) :=
  let digits := match t with
    | '+' :: d :: ds => d :: ds
    | _ => t
  if t = [] then .error "cannot parse integer from empty string".toList
  else digits.foldlM (fun n c =>
    if !c.isDigit then .error "invalid digit found in string".toList
    else
      let value := 10 * (n : ℕ) + (c.toNat - '0'.toNat)
      if h : value < max + 1 then .ok ⟨value, h⟩
      else .error "number too large to fit in target type".toList) 0

theorem parseUnsigned_toDigits {max n : ℕ} (h : n < max + 1) :
    parseUnsigned max (Nat.toDigits 10 n) = .ok ⟨n, h⟩ := by
  -- the fold reads any digits whose value fits, from any value read so far
  have hfold : ∀ (ds : Text) (acc : Fin (max + 1)), (∀ c ∈ ds, c.isDigit = true) →
      ∀ hfits : Nat.ofDigitChars 10 ds acc < max + 1,
      ds.foldlM (fun (n : Fin (max + 1)) c =>
        if !c.isDigit then .error "invalid digit found in string".toList
        else
          let value := 10 * (n : ℕ) + (c.toNat - '0'.toNat)
          if h : value < max + 1 then (.ok ⟨value, h⟩ : Except Text (Fin (max + 1)))
          else .error "number too large to fit in target type".toList) acc =
        .ok ⟨Nat.ofDigitChars 10 ds acc, hfits⟩ := by
    intro ds
    induction ds with
    | nil =>
      intro acc _ hfits
      rfl
    | cons c ds ih =>
      intro acc hdigits hfits
      rw [Nat.ofDigitChars_cons] at hfits
      have hle : 10 * (acc : ℕ) + (c.toNat - '0'.toNat) < max + 1 := by
        have hmono := @Nat.ofDigitChars_eq_ofDigitChars_zero ds
            (10 * (acc : ℕ) + (c.toNat - '0'.toNat))
        have hpow : 1 ≤ 10 ^ ds.length := Nat.one_le_pow _ _ (by decide)
        have hmul := Nat.le_mul_of_pos_left (10 * (acc : ℕ) + (c.toNat - '0'.toNat)) hpow
        omega
      rw [foldlM_cons]
      simp only [hdigits c mem_cons_self, Bool.not_true, Bool.false_eq_true, if_false, hle,
        dif_pos]
      exact ih ⟨_, hle⟩ (fun d hd => hdigits d (mem_cons_of_mem c hd)) hfits
  have hdigits : ∀ c ∈ Nat.toDigits 10 n, c.isDigit = true := fun c hc =>
    Nat.isDigit_of_mem_toDigits (by decide) (by decide) hc
  have hread := hfold (Nat.toDigits 10 n) 0 hdigits
  simp only [Fin.val_zero, Nat.ofDigitChars_ten_toDigits] at hread
  unfold parseUnsigned
  rw [if_neg Nat.toDigits_ne_nil]
  split
  next d ds heq =>
    have hplus := hdigits '+' (heq ▸ mem_cons_self)
    exact absurd hplus (by decide)
  next => exact hread h

def parseU16 (t : Text) : Except Text (Fin 65536) := parseUnsigned 65535 t

end Linrdp.Lib.TextLines
