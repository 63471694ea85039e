import Linrdp.Clipboard.UnicodeText
import Linrdp.Input.Locks

/-!
# Characters of a text, typed

A client may send the UTF-16 units of a text instead of keys. Each input path takes a unit for a
character of its own: a character outside the basic plane, which has two of them, is not typed on
X11, and on libei and Mutter comes as two keysyms that are no character's. Two of the paths have
another keysym for the second half of Latin-1 than the third. `typed_iff`: every other text is
typed.
-/

namespace Linrdp.Input.Unicode

open List Lib.TextLines Clipboard.UnicodeText

inductive KeyboardEvent
  | unicodePressed (code : UInt16)
  | unicodeReleased (code : UInt16)

/-- With what a path needs: a live connection to the X server and a keycode that it has no use for,
and a text device of libei with the function for it, which old libraries do not have. -/
inductive Path
  | x11 (alive : Bool) (unicodeKeycode : Option ℕ)
  | libei (text textKeysym : Bool)
  | mutter

/-- `unicode_to_keysym` of `ei.rs`, which `send_unicode` of X11 has as well. -/
def unicodeToKeysym (cp : ℕ) : ℕ := if 0x20 ≤ cp ∧ cp ≤ 0x7e then cp else 0x01000000 ||| cp

/-- `unicode_to_keysym` of `mutter.rs`: Latin-1 is its own keysym. -/
def latinToKeysym (cp : ℕ) : ℕ :=
  if 0x20 ≤ cp ∧ cp ≤ 0x7e ∨ 0xa0 ≤ cp ∧ cp ≤ 0xff then cp else 0x01000000 ||| cp

def tap (keysym : ℕ) : List (ℕ × Bool) := [(keysym, true), (keysym, false)]

namespace Path

def press : Path → ℕ → List (ℕ × Bool)
  | .x11 alive unicodeKeycode, code =>
    -- `char::from_u32`
    if ¬code.isValidChar then []
    else
      match unicodeKeycode with
      | none => []
      -- on a dead connection `change_keyboard_mapping` fails
      | some _ => if alive then tap (unicodeToKeysym code) else []
  | .libei text textKeysym, code =>
    if ¬text then []
    else if ¬textKeysym then []
    else if unicodeToKeysym code ≠ 0 then tap (unicodeToKeysym code)
    else []
  | .mutter, code => tap (latinToKeysym code)

def keyboard (path : Path) : KeyboardEvent → List (ℕ × Bool)
  | .unicodePressed code => path.press code.toNat
  | .unicodeReleased _ => []

def ready : Path → Prop
  | .x11 alive unicodeKeycode => alive ∧ unicodeKeycode.isSome
  | .libei text textKeysym => text ∧ textKeysym
  | .mutter => True

/-- The X11 path of a handler. -/
def ofX11 (s : Locks.State) : Path :=
  .x11 s.world.alive (s.findScratch.handler.unicodeKeycode.map Subtype.val)

end Path

/-- **One `send_unicode`**: the keys that the handler injects are the taps of its path, on the
scratch keycode. -/
theorem sendUnicode_eq (s : Locks.State) (code : UInt16) :
    s.sendUnicode code.toNat = ((Path.ofX11 s).press code.toNat).foldl
      (fun s' tap => s'.fakeKey (s.findScratch.handler.unicodeKeycode.elim 0 Subtype.val) tap.2)
      (if code.toNat.isValidChar then s.findScratch else s) := by
  have hcode := code.toNat_lt
  have hsurrogate : code.toNat.isValidChar ↔ ¬(0xD800 ≤ code.toNat ∧ code.toNat < 0xE000) := by
    unfold Nat.isValidChar
    omega
  have halive : s.findScratch.world = s.world := by
    unfold Locks.State.findScratch
    split_ifs <;> rfl
  rw [Locks.State.sendUnicode, Path.ofX11, Path.press.eq_def, halive]
  dsimp only
  by_cases hvalid : code.toNat.isValidChar
  · rw [if_neg (hsurrogate.1 hvalid), if_neg (not_not.2 hvalid), if_pos hvalid]
    cases s.findScratch.handler.unicodeKeycode with
    | none => rfl
    | some keycode => cases s.world.alive <;> rfl
  · rw [if_pos (not_not.1 fun h => hvalid (hsurrogate.2 h)), if_pos hvalid, if_neg hvalid]
    rfl

/-- The units of the presses; a release may follow at any time, or not at all. -/
def codes (events : List KeyboardEvent) : List ℕ :=
  events.filterMap fun
    | .unicodePressed code => some code.toNat
    | .unicodeReleased _ => none

/-- The keysyms of the characters, each pressed and released. -/
def Typed (path : Path) (events : List KeyboardEvent) (t : Text) : Prop :=
  events.flatMap path.keyboard = t.flatMap fun c => tap (latinToKeysym c.toNat)

structure Types (path : Path) (c : Char) : Prop where
  ready : path.ready
  basic : c.toNat < 0x10000
  latin : path = .mutter ∨ c.toNat < 0xa0 ∨ 0xff < c.toNat

theorem or_base {cp : ℕ} (h : cp < 0x110000) : 0x01000000 ||| cp = 0x01000000 + cp :=
  (Nat.two_pow_add_eq_or_of_lt (i := 24) (by omega) 1).symm

/-- It is the keysym of a character. -/
def Named (keysym : ℕ) : Prop := ∃ c : Char, latinToKeysym c.toNat = keysym

theorem not_named {cp : ℕ} (hlt : cp < 0x110000)
    (h : ¬cp.isValidChar ∨ 0x20 ≤ cp ∧ cp ≤ 0x7e ∨ 0xa0 ≤ cp ∧ cp ≤ 0xff) :
    ¬Named (0x01000000 ||| cp) := by
  rintro ⟨c, hc⟩
  have hvalid := toNat_valid c
  rw [latinToKeysym, or_base hlt, or_base (by omega)] at hc
  split_ifs at hc with hlatin
  · omega
  · obtain rfl : c.toNat = cp := Nat.add_left_cancel hc
    exact h.elim (absurd c.valid) hlatin

theorem flatMap_keyboard (path : Path) (events : List KeyboardEvent) :
    events.flatMap path.keyboard = (codes events).flatMap path.press := by
  induction events with
  | nil => rfl
  | cons e events ih => cases e <;> simp [codes, Path.keyboard, ih]

variable {path : Path} {c : Char}

theorem flatMap_press_of_types (h : Types path c) :
    (encodeUtf16 c).flatMap path.press = tap (latinToKeysym c.toNat) := by
  obtain ⟨hready, hbasic, hlatin⟩ := h
  have hvalid : c.toNat.isValidChar := c.valid
  have hpos : unicodeToKeysym c.toNat ≠ 0 := by
    rw [unicodeToKeysym, or_base (by omega)]
    split_ifs <;> omega
  have hsame (hne : path ≠ .mutter) : unicodeToKeysym c.toNat = latinToKeysym c.toNat := by
    have hlatin := hlatin.resolve_left hne
    unfold unicodeToKeysym latinToKeysym
    split_ifs <;> omega
  rw [encodeUtf16, if_pos hbasic, flatMap_singleton]
  cases path with
  | x11 alive unicodeKeycode =>
    obtain ⟨rfl, hkeycode⟩ := hready
    obtain ⟨keycode, rfl⟩ := Option.isSome_iff_exists.1 hkeycode
    simp [Path.press, hvalid, hsame]
  | libei text textKeysym =>
    obtain ⟨rfl, rfl⟩ := hready
    rw [hsame (by simp)] at hpos
    simp [Path.press, hpos, hsame]
  | mutter => rfl

theorem mem_press {code : ℕ} {k : ℕ × Bool} (h : k ∈ path.press code) :
    path.ready ∧ (path = .mutter ∧ k.1 = latinToKeysym code ∨
      path ≠ .mutter ∧ k.1 = unicodeToKeysym code) := by
  cases path with
  | x11 alive unicodeKeycode =>
    cases alive <;> cases unicodeKeycode <;> simp_all [Path.press, Path.ready, tap]; grind
  | libei text textKeysym => cases text <;> cases textKeysym <;>
      simp_all [Path.press, Path.ready, tap]; grind
  | mutter => simp_all [Path.press, Path.ready, tap]; grind

theorem not_named_of_not_types (h : ¬Types path c) :
    ∀ k ∈ (encodeUtf16 c).flatMap path.press, ¬Named k.1 := by
  intro k hk
  obtain ⟨code, hcode, hpress⟩ := mem_flatMap.1 hk
  obtain ⟨hready, hkeysym⟩ := mem_press hpress
  have hvalid := toNat_valid c
  rw [encodeUtf16] at hcode
  split_ifs at hcode with hbasic
  · obtain rfl := mem_singleton.1 hcode
    have hlatin : ¬(path = .mutter ∨ c.toNat < 0xa0 ∨ 0xff < c.toNat) := fun hlatin =>
      h ⟨hready, hbasic, hlatin⟩
    rw [not_or] at hlatin
    rw [(hkeysym.resolve_left fun hm => hlatin.1 hm.1).2, unicodeToKeysym, if_neg (by omega)]
    exact not_named (by omega) (by omega)
  · -- half of a pair
    have hhalf : 0xD800 ≤ code ∧ code < 0xE000 := by
      simp only [mem_cons, not_mem_nil, or_false] at hcode
      omega
    have hbase : k.1 = 0x01000000 ||| code := by
      rcases hkeysym with ⟨-, hk⟩ | ⟨-, hk⟩
      · rw [hk, latinToKeysym, if_neg (by omega)]
      · rw [hk, unicodeToKeysym, if_neg (by omega)]
    rw [hbase]
    refine not_named (by omega) (.inl ?_)
    unfold Nat.isValidChar
    omega

open Classical in
theorem countP_named (path : Path) (t : Text) :
    (t.flatMap fun c => (encodeUtf16 c).flatMap path.press).countP (fun k => Named k.1) =
      2 * t.countP (Types path ·) := by
  induction t with
  | nil => rfl
  | cons c t ih =>
    rw [flatMap_cons, countP_append, ih]
    by_cases hc : Types path c
    · rw [flatMap_press_of_types hc, countP_cons_of_pos (by simpa using hc)]
      have hnamed : Named (latinToKeysym c.toNat) := ⟨c, rfl⟩
      simp [tap, hnamed]
      omega
    · rw [countP_eq_zero.2 (by simpa using not_named_of_not_types hc),
        countP_cons_of_neg (by simpa using hc), Nat.zero_add]

/-- **Which texts are typed**, on each path: those in which every character is one that the path
types. -/
theorem typed_iff (path : Path) (events : List KeyboardEvent) (t : Text)
    (h : codes events = t.flatMap encodeUtf16) : Typed path events t ↔ ∀ c ∈ t, Types path c := by
  classical
  rw [Typed, flatMap_keyboard, h, flatMap_assoc]
  constructor
  · intro heq c hc
    have hcount := countP_named path t
    rw [heq] at hcount
    have hall : (t.flatMap fun c => tap (latinToKeysym c.toNat)).countP (fun k => Named k.1) =
        (t.flatMap fun c => tap (latinToKeysym c.toNat)).length := by
      refine countP_eq_length.2 fun k hk => ?_
      obtain ⟨c, -, hk⟩ := mem_flatMap.1 hk
      simp only [tap, mem_cons, not_mem_nil, or_false] at hk
      rcases hk with rfl | rfl <;> exact decide_eq_true ⟨c, rfl⟩
    have hlength : (t.flatMap fun c => tap (latinToKeysym c.toNat)).length = 2 * t.length := by
      simp [tap, length_flatMap, Nat.mul_comm]
    have htypes : t.countP (Types path ·) = t.length := by omega
    simpa using countP_eq_length.1 htypes c hc
  · intro htypes
    exact flatMap_congr fun c hc => flatMap_press_of_types (htypes c hc)

def grinning : List KeyboardEvent := [.unicodePressed 0xD83D, .unicodeReleased 0xD83D,
    .unicodePressed 0xDE00]

/-- A letter, one of Latin-1 and a sign outside it, the releases late. -/
def word : List KeyboardEvent :=
  [.unicodePressed 0x41, .unicodePressed 0xDF, .unicodeReleased 0x41, .unicodePressed 0x20AC,
    .unicodeReleased 0xDF, .unicodeReleased 0x20AC]

theorem typed_iff_word : codes word = "Aß€".toList.flatMap encodeUtf16 ∧
    Typed .mutter word "Aß€".toList ∧ ¬Typed (.x11 true (some 8)) word "Aß€".toList := by
  have hcodes : codes word = "Aß€".toList.flatMap encodeUtf16 := by decide
  refine ⟨hcodes, (typed_iff .mutter _ _ hcodes).2 fun c hc => ⟨trivial, ?_, .inl rfl⟩, fun h => ?_⟩
  · have hmem : c = 'A' ∨ c = 'ß' ∨ c = '€' := by simpa using hc
    rcases hmem with rfl | rfl | rfl <;> decide
  · have hlatin := ((typed_iff _ _ _ hcodes).1 h 'ß' (by decide)).latin.resolve_left nofun
    exact absurd hlatin (by decide)

/-- **Counterexample.** A character outside the basic plane is not typed on any path, and one of the
second half of Latin-1 has another keysym on X11 than on Mutter. -/
theorem not_typed_grinning : codes grinning = "😀".toList.flatMap encodeUtf16 ∧
    ¬Typed (.x11 true (some 8)) grinning "😀".toList ∧
    ¬Typed (.libei true true) grinning "😀".toList ∧
      ¬Typed .mutter grinning "😀".toList ∧ ¬Typed (.x11 true (some 8)) [.unicodePressed 0xE9]
      "é".toList := by
  unfold Typed
  decide

end Linrdp.Input.Unicode
