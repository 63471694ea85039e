import Mathlib.Data.Nat.Digits.Defs
import Linrdp.Lib.TextLines

/-!
# The cookie of a display

An authority file is a sequence of records, each a family and four fields, and a field is its length
and that many bytes. `readRecord` reads what `Record.bytes` writes and nothing else
(`readRecord_eq_some_iff`), so any bytes are whole records and a rest that holds none, and a look-up
asks the records in their order (`search_records`). A cut inside a record leaves no record behind it
(`readRecord_take`).
-/

namespace Linrdp.Session.Xauth

abbrev Cookie := Vector UInt8 16

open List Lib.TextLines

abbrev Bytes := List UInt8

def toBeBytes (n : ℕ) : Bytes := [UInt8.ofNat (n / 256), UInt8.ofNat n]

variable (hi lo : UInt8)

def fromBeBytes : ℕ := 256 * hi.toNat + lo.toNat

theorem fromBeBytes_lt : fromBeBytes hi lo < 65536 := by
  have hhi := hi.toNat_lt
  have hlo := lo.toNat_lt
  unfold fromBeBytes
  omega

theorem fromBeBytes_toBeBytes {n : ℕ} (h : n < 65536) :
    fromBeBytes (UInt8.ofNat (n / 256)) (UInt8.ofNat n) = n := by
  rw [fromBeBytes, UInt8.toNat_ofNat', UInt8.toNat_ofNat']
  omega

theorem toBeBytes_fromBeBytes : toBeBytes (fromBeBytes hi lo) = [hi, lo] := by
  have hlo := lo.toNat_lt
  have hdiv : fromBeBytes hi lo / 256 = hi.toNat := by
    unfold fromBeBytes
    omega
  rw [toBeBytes, hdiv, UInt8.ofNat_toNat, fromBeBytes]
  simp

/-! ### Records -/

abbrev Field := {value : Bytes // value.length < 65536}

def fieldBytes (f : Field) : Bytes := toBeBytes f.1.length ++ f.1

/-- The value at the front and what is behind it. Every access of the source is a `get`; where one
fails, the record is given up, and the position it leaves is not used again. -/
def field : Bytes → Option (Field × Bytes)
  | hi :: lo :: rest =>
    let len := fromBeBytes hi lo
    if len ≤ rest.length then
      some (⟨rest.take len, (length_take_le ..).trans_lt (fromBeBytes_lt hi lo)⟩, rest.drop len)
    else none
  | _ => none

structure Record where
  family : UInt8 × UInt8
  (address number name data : Field)

open Record Option

def Record.bytes (r : Record) : Bytes :=
  r.family.1 :: r.family.2 ::
    (fieldBytes r.address ++ (fieldBytes r.number ++ (fieldBytes r.name ++ fieldBytes r.data)))

def readRecord : Bytes → Option (Record × Bytes)
  | hi :: lo :: rest => do
    let (address, rest) ← field rest
    let (number, rest) ← field rest
    let (name, rest) ← field rest
    let (data, rest) ← field rest
    some (⟨(hi, lo), address, number, name, data⟩, rest)
  | _ => none

theorem field_eq_some_iff {t rest : Bytes} {f : Field} :
    field t = some (f, rest) ↔ t = fieldBytes f ++ rest := by
  constructor
  · intro h
    unfold field at h
    split at h
    · rename_i hi lo t
      dsimp only at h
      split_ifs at h with hlen
      cases h
      rw [fieldBytes, length_take_of_le hlen, toBeBytes_fromBeBytes, append_assoc, take_append_drop]
      rfl
    · cases h
  · rintro rfl
    obtain ⟨value, hvalue⟩ := f
    simp [fieldBytes, toBeBytes, field, fromBeBytes_toBeBytes hvalue]

theorem readRecord_eq_some_iff {t rest : Bytes} {r : Record} :
    readRecord t = some (r, rest) ↔ t = r.bytes ++ rest := by
  constructor
  · intro h
    unfold readRecord at h
    split at h
    · obtain ⟨⟨address, t₁⟩, h₁, h⟩ := bind_eq_some_iff.1 h
      obtain ⟨⟨number, t₂⟩, h₂, h⟩ := bind_eq_some_iff.1 h
      obtain ⟨⟨name, t₃⟩, h₃, h⟩ := bind_eq_some_iff.1 h
      obtain ⟨⟨data, t₄⟩, h₄, h⟩ := bind_eq_some_iff.1 h
      cases h
      rw [field_eq_some_iff.1 h₁, field_eq_some_iff.1 h₂, field_eq_some_iff.1 h₃,
        field_eq_some_iff.1 h₄]
      simp [bytes]
    · cases h
  · rintro rfl
    have hread : ∀ f rest, field (fieldBytes f ++ rest) = some (f, rest) := fun f rest =>
      field_eq_some_iff.2 rfl
    simp [bytes, readRecord, hread]

theorem readRecord_take {r : Record} {n : ℕ} (h : n < r.bytes.length) :
    readRecord (r.bytes.take n) = none := by
  rw [eq_none_iff_forall_ne_some]
  rintro ⟨r', rest⟩ hread
  have hwhole : readRecord r.bytes = some (r', rest ++ r.bytes.drop n) := by
    rw [readRecord_eq_some_iff, ← append_assoc, ← readRecord_eq_some_iff.1 hread, take_append_drop]
  have hself : readRecord r.bytes = some (r, []) := readRecord_eq_some_iff.2 (append_nil _).symm
  rw [hself] at hwhole
  have hnil : r.bytes.drop n = [] := (append_eq_nil_iff.1
      (congrArg Prod.snd (some.inj hwhole)).symm).2
  exact absurd (drop_eq_nil_iff.1 hnil) h.not_ge

theorem exists_take (records : List Record) (n : ℕ) : ∃ k tail, readRecord tail = none ∧
    (records.flatMap bytes).take n = (records.take k).flatMap bytes ++ tail := by
  induction records generalizing n with
  | nil => exact ⟨0, [], rfl, take_nil⟩
  | cons r records ih =>
    rw [flatMap_cons]
    by_cases hn : n < r.bytes.length
    · exact ⟨0, r.bytes.take n, readRecord_take hn, take_append_of_le_length hn.le⟩
    · obtain ⟨k, tail, htail, htake⟩ := ih (n - r.bytes.length)
      refine ⟨k + 1, tail, htail, ?_⟩
      rw [take_append, take_of_length_le (not_lt.1 hn), htake, take_succ_cons, flatMap_cons,
        append_assoc]

/-! ### The look-up -/

theorem length_lt_of_readRecord {t rest : Bytes} {r : Record} (h : readRecord t = some (r, rest)) :
    rest.length < t.length := by
  rw [readRecord_eq_some_iff.1 h]
  simp only [bytes, length_append, length_cons]
  omega

def search (wanted raw : Bytes) : Option (Bytes × Bytes) :=
  match _h : readRecord raw with
  | none => none
  | some (r, rest) => if r.number.1 = wanted then some (r.name.1, r.data.1) else search wanted rest
termination_by raw.length
decreasing_by exact length_lt_of_readRecord _h

variable (display : UInt16)

def displayText : Bytes := asBytes (Nat.toDigits 10 display.toNat)

variable (path : String)

def noCookie (display : UInt16) : String :=
  path ++ " holds no cookie for display :" ++ toString display.toNat

def cookieFor (raw : Bytes) (display : UInt16) : Except String (Bytes × Bytes) :=
  match search (displayText display) raw with
  | some found => .ok found
  | none => .error (noCookie path display)

theorem exists_records (raw : Bytes) :
    ∃ (records : List Record) (tail : Bytes),
      raw = records.flatMap bytes ++ tail ∧ readRecord tail = none := by
  rcases hread : readRecord raw with _ | ⟨r, rest⟩
  · exact ⟨[], raw, rfl, hread⟩
  · obtain ⟨records, tail, hrest, htail⟩ := exists_records rest
    refine ⟨r :: records, tail, ?_, htail⟩
    rw [readRecord_eq_some_iff.1 hread, flatMap_cons, append_assoc, ← hrest]
termination_by raw.length
decreasing_by exact length_lt_of_readRecord hread

theorem search_records (wanted : Bytes) (records : List Record) {tail : Bytes}
    (h : readRecord tail = none) : search wanted (records.flatMap bytes ++ tail) =
      (records.find? fun r => r.number.1 = wanted).map fun r => (r.name.1, r.data.1) := by
  induction records with
  | nil =>
    rw [flatMap_nil, nil_append, search]
    split
    · rfl
    · simp_all
  | cons r records ih =>
    have hread : readRecord ((r :: records).flatMap bytes ++ tail) =
        some (r, records.flatMap bytes ++ tail) :=
      readRecord_eq_some_iff.2 (by rw [flatMap_cons, append_assoc])
    rw [search]
    split
    · simp_all
    · rename_i r' rest hread'
      cases hread'.symm.trans hread
      split_ifs with hnumber
      · rw [find?_cons_of_pos (by simpa using hnumber)]
        rfl
      · rw [find?_cons_of_neg (by simpa using hnumber), ih]

/-! ### The entries -/

def protocolName : Bytes := asBytes "MIT-MAGIC-COOKIE-1".toList

/-- A length that a `u16` cannot hold would be written as zero. -/
def lengthBytes (n : ℕ) : Bytes := toBeBytes (if n < 65536 then n else 0)

def xauthorityEntry (cookie : Cookie) : Bytes :=
  toBeBytes 0xFFFF ++ toBeBytes 0 ++ lengthBytes (displayText display).length ++
    displayText display ++
    lengthBytes protocolName.length ++ protocolName ++ lengthBytes cookie.toList.length ++
    cookie.toList

theorem displayText_inj {d d' : UInt16} : displayText d = displayText d' ↔ d = d' := by
  refine ⟨fun h => ?_, congrArg displayText⟩
  have hdigits := asBytes_injective h
  have hvalue : ∀ n, Nat.ofDigitChars 10 (Nat.toDigits 10 n) 0 = n := fun n =>
    Nat.ofDigitChars_toDigits (by decide) (by decide)
  rw [← UInt16.toNat_inj, ← hvalue d.toNat, hdigits, hvalue]

theorem length_asBytes_le (t : Text) : (asBytes t).length ≤ 4 * t.length := by
  induction t with
  | nil => decide
  | cons c t ih =>
    have hsize := c.utf8Size_le_four
    rw [asBytes_cons, length_append, String.length_utf8EncodeChar, length_cons]
    omega

theorem length_displayText_lt : (displayText display).length < 65536 := by
  have hbytes := length_asBytes_le (Nat.toDigits 10 display.toNat)
  have hdigits := Nat.toDigits_length 10 display.toNat 5 (by decide)
      (display.toNat_lt.trans (by decide))
  rw [displayText]
  omega

def entryRecord (e : UInt16 × Cookie) : Record where
  family := (0xFF, 0xFF)
  address := ⟨[], by decide⟩
  number := ⟨displayText e.1, length_displayText_lt e.1⟩
  name := ⟨protocolName, by decide⟩
  data := ⟨e.2.toList, by simp⟩

theorem xauthorityEntry_eq (e : UInt16 × Cookie) :
    xauthorityEntry e.1 e.2 = (entryRecord e).bytes := by
  have hname : protocolName.length < 65536 := by decide
  simp only [xauthorityEntry, entryRecord, bytes, fieldBytes, lengthBytes,
    if_pos (length_displayText_lt e.1), if_pos hname, Vector.length_toList, append_assoc]
  rfl

variable (entries : List (UInt16 × Cookie))

def file : Bytes := entries.flatMap fun e => xauthorityEntry e.1 e.2

theorem file_eq : file entries = (entries.map entryRecord).flatMap bytes := by
  rw [file, flatMap_map]
  exact flatMap_congr fun e _ => xauthorityEntry_eq e

def answer (display : UInt16) (entries : List (UInt16 × Cookie)) : Except String (Bytes × Bytes) :=
  (entries.find? fun e => e.1 = display).elim (.error (noCookie path display)) fun e =>
    .ok (protocolName, e.2.toList)

theorem cookieFor_file (display : UInt16) (entries : List (UInt16 × Cookie)) {tail : Bytes}
    (h : readRecord tail = none) : cookieFor path (file entries ++ tail) display =
    answer path display entries := by
  have hfind : (entries.map entryRecord).find? (fun r => r.number.1 = displayText display) =
      (entries.find? fun e => e.1 = display).map entryRecord := by
    rw [find?_map]
    congr 2
    funext e
    simp [entryRecord, displayText_inj]
  rw [cookieFor, file_eq, search_records _ _ h, hfind, answer]
  generalize entries.find? _ = found
  cases found <;> rfl

/-- **The look-up.** -/
structure LooksUp (path : String) (display : UInt16) : Prop where
  /-- the first entry of the display, or an error -/
  whole : ∀ entries, cookieFor path (file entries) display = answer path display entries
  /-- of a file that is cut off, the entries that lie wholly before the cut -/
  truncated : ∀ entries n, ∃ k, file (entries.take k) <+: (file entries).take n ∧
    cookieFor path ((file entries).take n) display = answer path display (entries.take k)
  /-- of any bytes, a record with the number of the display, which is no other display's -/
  own : ∀ raw found, cookieFor path raw display = .ok found →
    ∃ (before : List Record) (r : Record) (behind : Bytes),
    raw = before.flatMap bytes ++ r.bytes ++ behind ∧ found = (r.name.1, r.data.1) ∧
    ∀ d, r.number.1 = displayText d ↔ d = display

theorem looksUp (path : String) (display : UInt16) : LooksUp path display where
  whole entries := by
    rw [← append_nil (file entries)]
    exact cookieFor_file path display entries rfl
  truncated entries n := by
    obtain ⟨k, tail, htail, htake⟩ := exists_take (entries.map entryRecord) n
    rw [← map_take, ← file_eq, ← file_eq] at htake
    exact ⟨k, ⟨tail, htake.symm⟩, by rw [htake, cookieFor_file path display _ htail]⟩
  own raw found h := by
    obtain ⟨records, tail, rfl, htail⟩ := exists_records raw
    rw [cookieFor, search_records _ _ htail] at h
    rcases hfind : records.find? fun r => r.number.1 = displayText display with _ | r <;>
      rw [hfind] at h <;> cases h
    obtain ⟨hnumber, before, behind, rfl, -⟩ := find?_eq_some_iff_append.1 hfind
    refine ⟨before, r, behind.flatMap bytes ++ tail, by simp, rfl, fun d => ?_⟩
    rw [of_decide_eq_true hnumber, displayText_inj, eq_comm]

end Linrdp.Session.Xauth
