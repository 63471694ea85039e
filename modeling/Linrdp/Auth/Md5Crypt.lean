import Mathlib.Data.Nat.Bits
import Mathlib.Data.UInt

/-!
# Passwords under md5-crypt

`verify_crypt` and `verify_md5` of `linrdp/src/auth.rs` beside the standard algorithm. MD5 is any
function from byte strings to sixteen bytes; the checkers of the other schemes are parameters. The
two agree up to the last step (`digest_eq`), where the source takes the bytes of each group of three
in the other order. `accepts_iff` says for which digests this makes no difference.
-/

namespace Linrdp.Auth.Md5Crypt

open List Nat

abbrev Bytes := List UInt8

abbrev Digest := Fin 16 → UInt8

variable (d : Digest)

def Digest.bytes : Bytes := List.ofFn d

def dollar : UInt8 := 36

/-- `$1$` -/
def magic : Bytes := [dollar, 49, dollar]

/-- `./0-9A-Za-z` -/
def b64 : Bytes :=
  [46, 47] ++ (List.range 10).map (fun i => UInt8.ofNat (48 + i)) ++
    (List.range 26).map (fun i => UInt8.ofNat (65 + i)) ++
    (List.range 26).map (fun i => UInt8.ofNat (97 + i))

def ascii (s : String) : Bytes := s.toList.map fun c => .ofNat c.toNat

example : b64 = ascii "./0123456789ABCDEFGHIJKLMNOPQRSTUVWXYZabcdefghijklmnopqrstuvwxyz" := by
  decide +kernel

/-- `n` symbols for the number `w`, its lowest six bits first. -/
def emit : ℕ → ℕ → Bytes
  | 0, _ => []
  | n + 1, w => b64.getD (w &&& 0x3f) 0 :: emit n (w >>> 6)

def split (sep : UInt8) : Bytes → List Bytes
  | [] => [[]]
  | b :: rest =>
    if b = sep then [] :: split sep rest
    else
      match split sep rest with
      | [] => [[b]]
      | first :: others => (b :: first) :: others

/-- Every pair is looked at, whatever the earlier ones were. -/
def constantTimeEq (a b : Bytes) : Bool :=
  a.length == b.length && (a.zip b).foldl (fun acc e => acc ||| (e.1 ^^^ e.2)) 0 == 0

/-! ### `verify_md5` -/

/-- As many bytes of the alternate digest as the password has, sixteen at a time. -/
def consumeAlt (alt : Bytes) (pwLen : ℕ) : Bytes :=
  if 16 < pwLen then alt ++ consumeAlt alt (pwLen - 16) else alt.take pwLen
termination_by pwLen

def bitLoop (pw : Bytes) (i : ℕ) : Bytes :=
  if 0 < i then
    (if i &&& 1 ≠ 0 then [0] else pw.take 1) ++ bitLoop pw (i >>> 1)
  else []
termination_by i
decreasing_by
  rw [shiftRight_eq_div_pow]
  omega

def order : List (Fin 16 × Fin 16 × Fin 16) :=
  [(0, 6, 12), (1, 7, 13), (2, 8, 14), (3, 9, 15), (4, 10, 5)]

def output (digest : Digest) : Bytes :=
  (order.flatMap fun grp =>
    let (b0, b1, b2) := ((digest grp.1).toNat, (digest grp.2.1).toNat, (digest grp.2.2).toNat)
    emit 4 ((b2 <<< 16) ||| (b1 <<< 8) ||| b0)) ++ emit 2 (digest 11).toNat

section md5

variable (md5 : Bytes → Digest)

variable (pw sl : Bytes)

def start : Digest :=
  let altDigest := md5 (pw ++ sl ++ pw)
  md5 (pw ++ magic ++ sl ++ consumeAlt altDigest.bytes pw.length ++ bitLoop pw pw.length)

def round (digest : Digest) (r : ℕ) : Digest :=
  md5 ((if r &&& 1 ≠ 0 then pw else digest.bytes) ++ (if r % 3 ≠ 0 then sl else []) ++
    (if r % 7 ≠ 0 then pw else []) ++ (if r &&& 1 ≠ 0 then digest.bytes else pw))

def digest : Digest := (List.range 1000).foldl (round md5 pw sl) (start md5 pw sl)

/-- The parts of the entry are what stands between the dollar signs; there must be four. -/
def verifyMd5 (password hash : Bytes) : Bool :=
  match split dollar hash with
  | [_, _, salt, expected] => constantTimeEq (output (digest md5 password salt)) expected
  | _ => false

structure Checks where
  (sha256 sha512 yescrypt : Bytes → Bytes → Bool)

def verifyCrypt (checks : Checks) (password hash : Bytes) : Bool :=
  match (split dollar (hash.dropWhile (· == dollar))).headD [] with
  | [49] => verifyMd5 md5 password hash
  | [53] => checks.sha256 password hash
  | [54] => checks.sha512 password hash
  | [121] => checks.yescrypt password hash
  | _ => false

end md5

/-! ### The standard -/

namespace Standard

def repeated (alt : Bytes) (n : ℕ) : Bytes := (List.replicate n alt).flatten.take n

/-- A zero for every bit of the length that is set, the password's first byte for every other. -/
def ofBits (pw : Bytes) : Bytes := pw.length.bits.flatMap fun bit => if bit then [0] else pw.take 1

def group (i j k : Fin 16) : Bytes :=
  emit 4 ((d i).toNat * 2 ^ 16 + (d j).toNat * 2 ^ 8 + (d k).toNat)

def encode : Bytes :=
  group d 0 6 12 ++ group d 1 7 13 ++ group d 2 8 14 ++ group d 3 9 15 ++ group d 4 10 5 ++
    emit 2 (d 11).toNat

variable (md5 : Bytes → Digest)

def mix (pw salt : Bytes) (d : Digest) (r : ℕ) : Digest :=
  let third := if 3 ∣ r then [] else salt
  let seventh := if 7 ∣ r then [] else pw
  if Odd r then md5 (pw ++ third ++ seventh ++ d.bytes) else md5 (d.bytes ++ third ++ seventh ++ pw)

def digest (pw salt : Bytes) : Digest :=
  (List.range 1000).foldl (mix md5 pw salt)
    (md5 (pw ++ magic ++ salt ++ repeated (md5 (pw ++ salt ++ pw)).bytes pw.length ++ ofBits pw))

/-- `crypt`: the entry for a password. Of a longer salt only eight characters count. -/
def crypt (password salt : Bytes) : Bytes :=
  magic ++ salt.take 8 ++ dollar :: encode (digest md5 password (salt.take 8))

end Standard

structure Salt where
  bytes : Bytes
  ends : dollar ∉ bytes
  short : bytes.length ≤ 8

def stored (salt : Salt) (expected : Bytes) : Bytes := magic ++ salt.bytes ++ dollar :: expected

/-- The digest reads the same when the bytes of every group are taken in the other order. -/
def Mirrored : Prop := d 0 = d 12 ∧ d 1 = d 13 ∧ d 2 = d 14 ∧ d 3 = d 15 ∧ d 4 = d 5

/-! ### The same digest -/

theorem length_bytes : d.bytes.length = 16 := length_ofFn

theorem length_flatten_replicate {alt : Bytes} (h : alt.length = 16) (n : ℕ) :
    (List.replicate n alt).flatten.length = 16 * n := by
  rw [length_flatten, map_replicate, sum_replicate_nat, h, mul_comm]

theorem Standard.repeated_block {alt : Bytes} (h : alt.length = 16) {n : ℕ} (hn : 16 < n) :
    repeated alt n = alt ++ repeated alt (n - 16) := by
  obtain ⟨m, rfl⟩ : ∃ m, n = m + 16 := ⟨n - 16, by omega⟩
  have hcopies : (replicate (m + 16) alt).flatten =
      alt ++ ((replicate m alt).flatten ++ (replicate 15 alt).flatten) := by
    rw [show m + 16 = (m + 15) + 1 from rfl, replicate_succ, flatten_cons,
      replicate_add, flatten_append]
  have hlen := length_flatten_replicate h m
  rw [repeated, hcopies, Nat.add_comm, ← h, take_length_add_append,
    take_append_of_le_length (by omega), Nat.add_sub_cancel_left, repeated]

theorem consumeAlt_eq {alt : Bytes} (h : alt.length = 16) (n : ℕ) :
    consumeAlt alt n = Standard.repeated alt n := by
  fun_induction consumeAlt alt n with
  | case1 n hn ih => rw [ih, Standard.repeated_block h hn]
  | case2 n hn =>
    rcases n with _ | n
    · rfl
    · rw [Standard.repeated, replicate_succ, flatten_cons, take_append_of_le_length (by omega)]

theorem bitLoop_eq (pw : Bytes) (i : ℕ) :
    bitLoop pw i = i.bits.flatMap fun bit => if bit then [0] else pw.take 1 := by
  fun_induction bitLoop pw i with
  | case1 i hi ih =>
    -- the lowest bit of the length, and the rest of them
    have hbits : i.bits = i.bodd :: i.div2.bits := by
      conv_lhs => rw [← bit_bodd_div2 i]
      refine bits_append_bit _ _ fun hzero => ?_
      have hi' := bit_bodd_div2 i
      rw [hzero] at hi'
      cases hodd : i.bodd with
      | true => rfl
      | false =>
        rw [hodd] at hi'
        simp at hi'
        omega
    have hodd : i.bodd = true ↔ i &&& 1 ≠ 0 := by
      rw [and_one_is_mod, bodd_eq_one_and_ne_zero]
      simp [one_and_eq_mod_two]
    rw [hbits, flatMap_cons, ih, shiftRight_eq_div_pow, pow_one, div2_val]
    simp only [hodd]
  | case2 i hi =>
    obtain rfl : i = 0 := by omega
    rfl

section md5

variable (md5 : Bytes → Digest)

theorem round_eq (pw sl : Bytes) (d : Digest) (r : ℕ) :
    round md5 pw sl d r = Standard.mix md5 pw sl d r := by
  have hodd : r &&& 1 ≠ 0 ↔ Odd r := by rw [and_one_is_mod, odd_iff]; omega
  have hthird : (if r % 3 ≠ 0 then sl else []) = if 3 ∣ r then [] else sl := by
    simp only [dvd_iff_mod_eq_zero, ne_eq, ite_not]
  have hseventh : (if r % 7 ≠ 0 then pw else []) = if 7 ∣ r then [] else pw := by
    simp only [dvd_iff_mod_eq_zero, ne_eq, ite_not]
  unfold round Standard.mix
  rw [hthird, hseventh]
  by_cases h : Odd r
  · rw [if_pos (hodd.2 h), if_pos (hodd.2 h), if_pos h]
  · rw [if_neg (fun hne => h (hodd.1 hne)), if_neg (fun hne => h (hodd.1 hne)), if_neg h]

/-- **The digest is the standard one.** -/
theorem digest_eq (pw sl : Bytes) : digest md5 pw sl = Standard.digest md5 pw sl := by
  have hround : round md5 pw sl = Standard.mix md5 pw sl := by
    funext d r
    exact round_eq md5 pw sl d r
  unfold digest Standard.digest start
  dsimp only
  rw [hround, consumeAlt_eq (length_bytes _), bitLoop_eq]
  rfl

end md5

/-! ### The two orders -/

theorem b64_inj : ∀ v < 64, ∀ w < 64, b64.getD v 0 = b64.getD w 0 → v = w := by decide +kernel

theorem emit_inj {n v w : ℕ} (hv : v < 64 ^ n) (hw : w < 64 ^ n) (h : emit n v = emit n w) :
    v = w := by
  induction n generalizing v w with
  | zero =>
    rw [pow_zero] at hv hw
    omega
  | succ n ih =>
    rw [pow_succ] at hv hw
    obtain ⟨hlow, hrest⟩ := cons.inj h
    have hmask (x : ℕ) : x &&& 0x3f = x % 64 := and_two_pow_sub_one_eq_mod x 6
    rw [hmask, hmask] at hlow
    have hlow := b64_inj _ (mod_lt v (by omega)) _ (mod_lt w (by omega)) hlow
    rw [shiftRight_eq_div_pow, shiftRight_eq_div_pow] at hrest
    have hhigh : v / 2 ^ 6 = w / 2 ^ 6 := ih (by omega) (by omega) hrest
    omega

theorem or_bytes (a b c : UInt8) :
    (a.toNat <<< 16) ||| (b.toNat <<< 8) ||| c.toNat = a.toNat * 2 ^ 16 + b.toNat * 2 ^ 8 +
    c.toNat := by
  have hb := b.toNat_lt
  have hc := c.toNat_lt
  have hlow : (b.toNat <<< 8) ||| c.toNat = b.toNat * 2 ^ 8 + c.toNat := by
    rw [← Nat.shiftLeft_add_eq_or_of_lt (by omega), Nat.shiftLeft_eq]
  rw [Nat.or_assoc, hlow, ← Nat.shiftLeft_add_eq_or_of_lt (by omega), Nat.shiftLeft_eq,
    Nat.add_assoc]

theorem output_eq : output d = Standard.group d 12 6 0 ++ Standard.group d 13 7 1 ++
    Standard.group d 14 8 2 ++ Standard.group d 15 9 3 ++ Standard.group d 5 10 4 ++ emit 2
    (d 11).toNat := by
  simp only [output, order, flatMap_cons, flatMap_nil, or_bytes, Standard.group,
    append_nil, append_assoc]

@[simp] theorem length_emit (n w : ℕ) : (emit n w).length = n := by
  induction n generalizing w with
  | zero => rfl
  | succ n ih => rw [emit, length_cons, ih]

theorem group_mirror_iff (i j k : Fin 16) :
    Standard.group d k j i = Standard.group d i j k ↔ d i = d k := by
  have hi := (d i).toNat_lt
  have hj := (d j).toNat_lt
  have hk := (d k).toNat_lt
  constructor
  · intro h
    have heq := emit_inj (by omega) (by omega) h
    exact UInt8.toNat_inj.1 (by omega)
  · intro h
    rw [Standard.group, Standard.group, h]

/-- **The two outputs are one for a mirrored digest, and no other.** -/
theorem output_eq_encode_iff : output d = Standard.encode d ↔ Mirrored d := by
  have hlen (i j k : Fin 16) : (Standard.group d i j k).length = 4 := length_emit ..
  rw [output_eq, Standard.encode]
  constructor
  · intro h
    obtain ⟨h, -⟩ := append_inj' h rfl
    obtain ⟨h, h4⟩ := append_inj' h (by rw [hlen, hlen])
    obtain ⟨h, h3⟩ := append_inj' h (by rw [hlen, hlen])
    obtain ⟨h, h2⟩ := append_inj' h (by rw [hlen, hlen])
    obtain ⟨h0, h1⟩ := append_inj' h (by rw [hlen, hlen])
    rw [group_mirror_iff] at h0 h1 h2 h3 h4
    exact ⟨h0, h1, h2, h3, h4⟩
  · rintro ⟨h0, h1, h2, h3, h4⟩
    rw [(group_mirror_iff d 0 6 12).2 h0, (group_mirror_iff d 1 7 13).2 h1,
      (group_mirror_iff d 2 8 14).2 h2, (group_mirror_iff d 3 9 15).2 h3,
      (group_mirror_iff d 4 10 5).2 h4]

/-! ### The entry -/

theorem foldl_or_eq_zero_iff (es : List (UInt8 × UInt8)) (acc : UInt8) :
    es.foldl (fun acc e => acc ||| (e.1 ^^^ e.2)) acc = 0 ↔ acc = 0 ∧ ∀ e ∈ es, e.1 = e.2 := by
  induction es generalizing acc with
  | nil => simp
  | cons e es ih =>
    rw [foldl_cons, ih, forall_mem_cons, ← and_assoc, UInt8.or_eq_zero_iff, UInt8.xor_eq_zero_iff]

theorem constantTimeEq_iff (a b : Bytes) : constantTimeEq a b = true ↔ a = b := by
  rw [constantTimeEq, Bool.and_eq_true, beq_iff_eq, beq_iff_eq, foldl_or_eq_zero_iff]
  constructor
  · rintro ⟨hlen, -, hall⟩
    refine ext_getElem hlen fun i hi hi' => ?_
    exact hall (a[i], b[i]) (mem_iff_getElem.2 ⟨i, by simp; omega, by simp⟩)
  · rintro rfl
    refine ⟨rfl, rfl, fun e he => ?_⟩
    obtain ⟨i, hi, rfl⟩ := mem_iff_getElem.1 he
    simp

theorem split_ne_nil (sep : UInt8) (bytes : Bytes) : split sep bytes ≠ [] := by
  fun_induction split sep bytes <;> simp

theorem split_append {sep : UInt8} {first : Bytes} (h : sep ∉ first) (rest : Bytes) :
    split sep (first ++ sep :: rest) = first :: split sep rest := by
  induction first with
  | nil => rw [nil_append, split, if_pos rfl]
  | cons b first ih =>
    rw [mem_cons, not_or] at h
    rw [cons_append, split, if_neg (Ne.symm h.1), ih h.2]

theorem split_of_not_mem {sep : UInt8} {bytes : Bytes} (h : sep ∉ bytes) :
    split sep bytes = [bytes] := by
  induction bytes with
  | nil => rfl
  | cons b bytes ih =>
    rw [mem_cons, not_or] at h
    rw [split, if_neg (Ne.symm h.1), ih h.2]

theorem split_of_mem {sep : UInt8} {bytes : Bytes} (h : sep ∈ bytes) :
    ∃ first second rest, split sep bytes = first :: second :: rest := by
  induction bytes with
  | nil => exact absurd h not_mem_nil
  | cons b bytes ih =>
    rw [split]
    by_cases hb : b = sep
    · obtain ⟨second, rest, hrest⟩ := exists_cons_of_ne_nil (split_ne_nil sep bytes)
      rw [if_pos hb, hrest]
      exact ⟨[], second, rest, rfl⟩
    · obtain ⟨first, second, rest, hrest⟩ := ih ((mem_cons.1 h).resolve_left (Ne.symm hb))
      rw [if_neg hb, hrest]
      exact ⟨b :: first, second, rest, rfl⟩

theorem dollar_notMem_emit (n w : ℕ) : dollar ∉ emit n w := by
  have halphabet : ∀ v < 64, b64.getD v 0 ≠ dollar := by decide +kernel
  induction n generalizing w with
  | zero => exact not_mem_nil
  | succ n ih =>
    rw [emit, mem_cons, not_or]
    refine ⟨(halphabet _ ?_).symm, ih _⟩
    rw [show (0x3f : ℕ) = 2 ^ 6 - 1 from rfl, and_two_pow_sub_one_eq_mod]
    exact mod_lt _ (by omega)

theorem dollar_notMem_output : dollar ∉ output d := by
  rw [output_eq]
  simp only [mem_append, not_or]
  have hgroup (i j k : Fin 16) : dollar ∉ Standard.group d i j k := dollar_notMem_emit 4 _
  exact ⟨⟨⟨⟨⟨hgroup 12 6 0, hgroup 13 7 1⟩, hgroup 14 8 2⟩, hgroup 15 9 3⟩, hgroup 5 10 4⟩,
    dollar_notMem_emit 2 _⟩

section md5

variable (md5 : Bytes → Digest)

theorem split_stored (salt : Salt) (expected : Bytes) :
    split dollar (stored salt expected) = [] :: [49] :: salt.bytes :: split dollar expected := by
  have hparts : stored salt expected = [] ++ dollar ::
      ([49] ++ dollar :: (salt.bytes ++ dollar :: expected)) := by
    simp [stored, magic]
  rw [hparts, split_append (by simp), split_append (by decide), split_append salt.ends]

theorem verifyMd5_stored (password : Bytes) (salt : Salt) (expected : Bytes) :
    verifyMd5 md5 password (stored salt expected) = true ↔
      output (digest md5 password salt.bytes) = expected := by
  rw [verifyMd5, split_stored]
  by_cases h : dollar ∈ expected
  · -- with a fifth part the entry is refused, and no output is like that
    obtain ⟨first, second, rest, hsplit⟩ := split_of_mem h
    rw [hsplit]
    refine iff_of_false (by simp) fun heq => ?_
    exact dollar_notMem_output _ (heq ▸ h)
  · rw [split_of_not_mem h]
    exact constantTimeEq_iff _ _

theorem verifyCrypt_stored (checks : Checks) (password : Bytes) (salt : Salt) (expected : Bytes) :
    verifyCrypt md5 checks password (stored salt expected) =
      verifyMd5 md5 password (stored salt expected) := by
  have htrimmed : (stored salt expected).dropWhile (· == dollar) =
      [49] ++ dollar :: (salt.bytes ++ dollar :: expected) := by
    simp [stored, magic, dollar]
  rw [verifyCrypt, htrimmed, split_append (by decide)]
  rfl

/-- **md5-crypt.** The source accepts a password exactly when its standard hash is the stored one,
for all hashes that can be stored with a salt, exactly if the digest of the password is mirrored. -/
theorem accepts_iff (password : Bytes) (salt : Salt) :
    (∀ expected, verifyMd5 md5 password (stored salt expected) = true ↔
        Standard.crypt md5 password salt.bytes = stored salt expected) ↔
      Mirrored (Standard.digest md5 password salt.bytes) := by
  have hstandard (expected : Bytes) : Standard.crypt md5 password salt.bytes =
      stored salt expected ↔
      Standard.encode (Standard.digest md5 password salt.bytes) = expected := by
    rw [Standard.crypt, take_of_length_le salt.short, stored, append_right_inj, cons.injEq,
      and_iff_right rfl]
  rw [← output_eq_encode_iff]
  simp only [verifyMd5_stored, hstandard, digest_eq]
  constructor
  · intro h
    exact ((h _).1 rfl).symm
  · intro h expected
    rw [h]

end md5

/-! ### A password that is refused -/

/-- What the thousand rounds give for `password` and `saltsalt`; as a stand-in for MD5, all it
gives. -/
def lastDigest (_ : Bytes) : Digest := fun i =>
  [98, 241, 94, 175, 155, 241, 59, 9, 109, 243, 147, 86, 246, 251, 10, 128].getD i 0

theorem digest_lastDigest (pw salt : Bytes) : Standard.digest lastDigest pw salt = lastDigest
    [] := by
  have hmix : Standard.mix lastDigest pw salt = fun _ _ => lastDigest [] := by
    funext d r
    unfold Standard.mix
    exact ite_self _
  unfold Standard.digest
  rw [hmix]
  induction List.range 1000 with
  | nil => rfl
  | cons r rounds ih => exact ih

def saltsalt : Salt := ⟨ascii "saltsalt", by decide, by decide⟩

/-- What `openssl passwd -1 -salt saltsalt password` prints. -/
def entry : Bytes := ascii "$1$saltsalt$qjXMvbEw8oaL.CzflDtaK/"

/-- **Counterexample.** The hash of a password is stored, and the password is refused. -/
theorem right_password_refused :
    Standard.crypt lastDigest (ascii "password") saltsalt.bytes = entry ∧
      verifyMd5 lastDigest (ascii "password") entry = false ∧
      ∀ checks, verifyCrypt lastDigest checks (ascii "password") entry = false := by
  have hentry : stored saltsalt (Standard.encode (lastDigest [])) = entry := by decide +kernel
  have hrefused : verifyMd5 lastDigest (ascii "password") entry = false := by
    rw [← hentry, Bool.eq_false_iff, ne_eq, verifyMd5_stored, digest_eq, digest_lastDigest,
      output_eq_encode_iff]
    rintro ⟨h, -⟩
    exact absurd h (by decide)
  refine ⟨?_, hrefused, fun checks => ?_⟩
  · rw [Standard.crypt, digest_lastDigest, ← hentry]
    rfl
  · rw [← hentry] at hrefused ⊢
    exact (verifyCrypt_stored lastDigest checks _ saltsalt _).trans hrefused

end Linrdp.Auth.Md5Crypt
