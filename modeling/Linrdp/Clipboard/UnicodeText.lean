import Linrdp.Clipboard.UriList

/-!
# The text of the clipboard

A copied text goes to the client as UTF-16 with CRLF line ends and a terminator, and a client's text
is read the other way. A text without NUL that makes both ways comes back with its line ends,
whichever they were, as line feeds (`text_roundTrip`).
-/

namespace Linrdp.Clipboard.UnicodeText

open List Lib.TextLines UriList UInt8

/-! ### To the client -/

def textToCrlf : Text → Text
  | [] => []
  | '\n' :: t => '\r' :: '\n' :: textToCrlf t
  | '\r' :: '\n' :: t => '\r' :: '\n' :: textToCrlf t
  | '\r' :: t => '\r' :: '\n' :: textToCrlf t
  | c :: t => c :: textToCrlf t

def encodeUtf16 (c : Char) : List ℕ :=
  if c.toNat < 0x10000 then [c.toNat]
  else [0xD800 + (c.toNat - 0x10000) / 0x400, 0xDC00 + (c.toNat - 0x10000) % 0x400]

def toLeBytes (unit : ℕ) : List UInt8 := [ofNat unit, ofNat (unit / 256)]

variable (t : Text)

def textToUtf16Crlf : List UInt8 := ((textToCrlf t).flatMap encodeUtf16).flatMap toLeBytes ++ [0, 0]

/-! ### From the client -/

/-- The units of `chunks_exact(2)` up to the terminator. -/
def units : List UInt8 → List ℕ
  | lo :: hi :: data =>
    let unit := lo.toNat + 256 * hi.toNat
    if unit = 0 then [] else unit :: units data
  | _ => []

/-- `char::decode_utf16`, with `none` for a surrogate that is not one of a pair. -/
def decodeUtf16 : List ℕ → List (Option Char)
  | [] => []
  | u :: us =>
    if u < 0xD800 ∨ 0xE000 ≤ u then some (Char.ofNat u) :: decodeUtf16 us
    else match us with
      | [] => [none]
      | low :: rest =>
        if 0xDC00 ≤ u ∨ low < 0xDC00 ∨ 0xE000 ≤ low then none :: decodeUtf16 (low :: rest)
        else some (Char.ofNat (0x10000 + (u - 0xD800) * 0x400 + (low - 0xDC00))) :: decodeUtf16 rest

variable (data : List UInt8)

def readUtf16String : Option Text := (decodeUtf16 (units data)).mapM id

def decodeUtf16Lossy : Text := (decodeUtf16 (units data)).map (·.getD '\uFFFD')

/-- The text that `on_format_data_response` reads; an empty one it drops. -/
def incomingText : Text :=
  replace ['\r', '\n'] ['\n'] ((readUtf16String data).getD (decodeUtf16Lossy data))

/-! ### Line ends -/

def toLf : Text → Text
  | [] => []
  | '\r' :: '\n' :: t => '\n' :: toLf t
  | '\r' :: t => '\n' :: toLf t
  | c :: t => c :: toLf t

/-- A carriage return stands before each line feed and nowhere else. -/
def Paired : Prop := t[0]? ≠ some '\n' ∧ ∀ i : ℕ, t[i]? = some '\r' ↔ t[i + 1]? = some '\n'

theorem textToCrlf_idem : textToCrlf (textToCrlf t) = textToCrlf t := by
  fun_induction textToCrlf t with
  | case1 => rfl
  | case2 t ih | case3 t ih | case4 t _ ih => rw [textToCrlf, ih]
  | case5 c t hn _ hr ih => rw [textToCrlf, ih] <;> grind

theorem Paired.crlf {t : Text} (h : Paired t) : Paired ('\r' :: '\n' :: t) := by
  refine ⟨by simp, fun i => ?_⟩
  rcases i with _ | _ | i
  · simp
  · simpa using h.1
  · exact h.2 i

theorem paired_textToCrlf : Paired (textToCrlf t) := by
  fun_induction textToCrlf t with
  | case1 => simp [Paired]
  | case2 t ih | case3 t ih | case4 t _ ih => exact ih.crlf
  | case5 c t hn _ hr ih =>
    refine ⟨by simpa using hn, fun i => ?_⟩
    cases i with
    | zero => simpa [show c ≠ '\r' from hr] using ih.1
    | succ i => exact ih.2 i

theorem replace_textToCrlf : replace ['\r', '\n'] ['\n'] (textToCrlf t) = toLf t := by
  have hcrlf (rest : Text) : replace ['\r', '\n'] ['\n'] ('\r' :: '\n' :: rest) =
      '\n' :: replace ['\r', '\n'] ['\n'] rest := replace_match (by decide) rest
  fun_induction textToCrlf t with
  | case1 => rfl
  | case2 t ih => rw [hcrlf, ih, toLf] <;> simp
  | case3 t ih => rw [hcrlf, ih, toLf]
  | case4 t hn ih => rw [hcrlf, ih, toLf]; assumption
  | case5 c t hn _ hr ih =>
    have hpass : Passes ['\r', '\n'] [c] := ⟨by simp, by simpa using hr⟩
    rw [toLf, ← ih]
    · exact replace_passes hpass (textToCrlf t)
    all_goals assumption

/-! ### Units -/

theorem toNat_valid (c : Char) : c.toNat < 0xD800 ∨ 0xDFFF < c.toNat ∧ c.toNat < 0x110000 := c.valid

theorem encodeUtf16_range {c : Char} (h : c ≠ '\x00') : ∀ u ∈ encodeUtf16 c, 0 < u ∧ u < 65536 := by
  have hpos : c.toNat ≠ 0 := fun h0 => h (Char.toNat_inj.1 h0)
  have hvalid := toNat_valid c
  intro u hu
  rw [encodeUtf16] at hu
  split_ifs at hu <;> simp at hu <;> omega

theorem units_flatMap {us : List ℕ} (h : ∀ u ∈ us, 0 < u ∧ u < 65536) :
    units (us.flatMap toLeBytes ++ [0, 0]) = us := by
  induction us with
  | nil => rfl
  | cons u us ih =>
    obtain ⟨hu, hus⟩ := forall_mem_cons.1 h
    have hunit : (ofNat u).toNat + 256 * (ofNat (u / 256)).toNat = u := by
      rw [toNat_ofNat', toNat_ofNat']
      omega
    simp only [flatMap_cons, toLeBytes, cons_append, nil_append, units, hunit]
    rw [if_neg hu.1.ne', ih hus]

theorem decodeUtf16_append (c : Char) (us : List ℕ) :
    decodeUtf16 (encodeUtf16 c ++ us) = some c :: decodeUtf16 us := by
  have hvalid := toNat_valid c
  by_cases hplane : c.toNat < 0x10000
  · have hone : c.toNat < 0xD800 ∨ 0xE000 ≤ c.toNat := by omega
    rw [encodeUtf16, if_pos hplane]
    cases us <;> simp [decodeUtf16, hone]
  · have hpair : 0x10000 + (0xD800 + (c.toNat - 0x10000) / 0x400 - 0xD800) * 0x400 +
        (0xDC00 + (c.toNat - 0x10000) % 0x400 - 0xDC00) = c.toNat := by omega
    rw [encodeUtf16, if_neg hplane, cons_append, cons_append, nil_append, decodeUtf16,
      if_neg (by omega), if_neg (by omega), hpair, Char.ofNat_toNat]

theorem decodeUtf16_flatMap : decodeUtf16 (t.flatMap encodeUtf16) = t.map some := by
  induction t with
  | nil => rfl
  | cons c t ih => rw [flatMap_cons, decodeUtf16_append, ih, map_cons]

theorem mapM_map_some : (t.map some).mapM id = some t := by
  induction t with
  | nil => rfl
  | cons c t ih => simp [ih]

theorem nul_notMem_textToCrlf {t : Text} (h : '\x00' ∉ t) : '\x00' ∉ textToCrlf t := by
  fun_induction textToCrlf t <;> simp_all

theorem text_roundTrip (t : Text) (h : '\x00' ∉ t) :
    textToCrlf (textToCrlf t) = textToCrlf t ∧ Paired (textToCrlf t) ∧
      incomingText (textToUtf16Crlf t) = toLf t := by
  have hunits : units (textToUtf16Crlf t) = (textToCrlf t).flatMap encodeUtf16 := by
    refine units_flatMap fun u hu => ?_
    obtain ⟨c, hc, hu⟩ := mem_flatMap.1 hu
    exact encodeUtf16_range (fun h0 => nul_notMem_textToCrlf h (h0 ▸ hc)) u hu
  have hread : readUtf16String (textToUtf16Crlf t) = some (textToCrlf t) := by
    rw [readUtf16String, hunits, decodeUtf16_flatMap, mapM_map_some]
  refine ⟨textToCrlf_idem t, paired_textToCrlf t, ?_⟩
  rw [incomingText, hread, Option.getD_some, replace_textToCrlf]

theorem text_roundTrip_smile : '\x00' ∉ ['\r', Char.ofNat 0x1F600, '\n', '\r', '\n'] ∧
    incomingText (textToUtf16Crlf ['\r', Char.ofNat 0x1F600, '\n', '\r', '\n']) =
      ['\n', Char.ofNat 0x1F600, '\n', '\n'] := ⟨by decide, (text_roundTrip _ (by decide)).2.2⟩

end Linrdp.Clipboard.UnicodeText
