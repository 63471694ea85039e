import Linrdp.Lib.TextLines

/-!
# Sealing a password to this machine

A stored password is a blob `v1.<mode>.<base64url(nonce || ciphertext)>`: AES-256-GCM under a key
derived from the machine's identity, the account name bound in as associated data. The cipher, the
key derivation and base64 are a `Crypto`: functions with the behaviour their documentation promises.
`openBlob_sealBlob`: a blob sealed on this machine opens on it, for its account, to its password.
-/

namespace Linrdp.Sam.Seal

open List Lib Lib.TextLines

/-- AES-256-GCM, HKDF-SHA256 and base64. Decryption inverts encryption under the same key, nonce and
associated data, and a ciphertext carries a tag of sixteen bytes. Decoding inverts encoding, and
what is encoded has no line end. -/
structure Crypto where
  Key : Type
  deriveKey : List UInt8 → Key
  encrypt : Key → List UInt8 → List UInt8 → List UInt8 → List UInt8
  decrypt : Key → List UInt8 → List UInt8 → List UInt8 → Option (List UInt8)
  decrypt_encrypt : ∀ k nonce aad msg, decrypt k nonce aad (encrypt k nonce aad msg) = some msg
  length_encrypt : ∀ k nonce aad msg, (encrypt k nonce aad msg).length = msg.length + 16
  encode : List UInt8 → Text
  decode : Text → Option (List UInt8)
  decode_encode : ∀ bytes, decode (encode bytes) = some bytes
  mem_encode : ∀ bytes, ∀ c ∈ encode bytes, c ≠ '\n' ∧ c ≠ '\r'

inductive KeyMode
  | dmi | machineId

def KeyMode.tag : KeyMode → Char
  | .dmi => 'd'
  | .machineId => 'm'

def KeyMode.fromTag (tag : Text) : Option KeyMode :=
  if tag = ['d'] then some .dmi else if tag = ['m'] then some .machineId else none

structure Identity where
  (productUuid machineId : Text)

variable (id : Identity)

def ikmForMode : KeyMode → List UInt8
  | .dmi => asBytes (trim id.productUuid) ++ asBytes (trim id.machineId)
  | .machineId => asBytes (trim id.machineId)

def buildIkm : List UInt8 × KeyMode :=
  let pu := trim id.productUuid
  let mid := trim id.machineId
  if pu = [] then (asBytes mid, .machineId) else (ikmForMode ⟨pu, mid⟩ .dmi, .dmi)

theorem ikmForMode_buildIkm : ikmForMode id (buildIkm id).2 = (buildIkm id).1 := by
  unfold buildIkm
  simp only
  split_ifs
  · rfl
  · simp only [ikmForMode, trim_trim]

def blobVersion : Text := ['v', '1']

def nonceLen : ℕ := 12

variable (C : Crypto)

/-- Seal a password for an account. The nonce is drawn by the caller of the model. -/
def sealBlob (key : C.Key) (mode : KeyMode) (nonce : List UInt8) (account password : Text) : Text :=
  let ciphertext := C.encrypt key nonce (asBytes account) (asBytes password)
  blobVersion ++ '.' :: mode.tag :: '.' :: C.encode (nonce ++ ciphertext)

def openBlob (blob account : Text) (keyFor : KeyMode → C.Key) : Option Text := do
  -- `splitn(3, '.')`: the third part is the rest, dots included
  let (version, rest) ← splitOnce '.' blob
  let (tag, body) ← splitOnce '.' rest
  if version ≠ blobVersion then none
  else
    let mode ← KeyMode.fromTag tag
    let packed ← C.decode body
    if packed.length ≤ nonceLen then none
    else
      let plaintext ← C.decrypt (keyFor mode) (packed.take nonceLen) (asBytes account)
        (packed.drop nonceLen)
      fromUtf8 plaintext

variable {C}

theorem fromTag_tag (mode : KeyMode) : KeyMode.fromTag [mode.tag] = some mode := by
  cases mode <;> rfl

/-- **A blob opens to the password it was sealed from.** -/
theorem openBlob_sealBlob (keyFor : KeyMode → C.Key) (mode : KeyMode) {nonce : List UInt8}
    (hn : nonce.length = nonceLen) (account password : Text) :
    openBlob C (sealBlob C (keyFor mode) mode nonce account password) account keyFor =
    some password := by
  set ct := C.encrypt (keyFor mode) nonce (asBytes account) (asBytes password) with hct
  have h1 : splitOnce '.' (blobVersion ++ '.' :: mode.tag :: '.' :: C.encode (nonce ++ ct)) =
      some (blobVersion, mode.tag :: '.' :: C.encode (nonce ++ ct)) :=
    splitOnce_append _ (by decide)
  have h2 : splitOnce '.' (mode.tag :: '.' :: C.encode (nonce ++ ct)) =
      some ([mode.tag], C.encode (nonce ++ ct)) :=
    splitOnce_append (a := [mode.tag]) _ (by cases mode <;> decide)
  have hlen : ¬ (nonce ++ ct).length ≤ nonceLen := by
    rw [length_append, hn, hct, C.length_encrypt]; omega
  have htake : (nonce ++ ct).take nonceLen = nonce := by rw [← hn, take_left]
  have hdrop : (nonce ++ ct).drop nonceLen = ct := by rw [← hn, drop_left]
  unfold openBlob sealBlob
  simp only [← hct, h1, h2, Option.bind_eq_bind, Option.bind_some, ne_eq, not_true_eq_false,
    if_false, fromTag_tag, C.decode_encode, if_neg hlen, htake, hdrop]
  rw [hct, C.decrypt_encrypt, Option.bind_some, fromUtf8_asBytes]

/-! ### A blob is one line of text -/

theorem mem_sealBlob {key : C.Key} {mode : KeyMode} {nonce : List UInt8} {account password : Text}
    {c : Char} (h : c ∈ sealBlob C key mode nonce account password) : c ≠ '\n' ∧ c ≠ '\r' := by
  simp only [sealBlob, blobVersion, cons_append, nil_append, mem_cons] at h
  rcases h with rfl | rfl | rfl | rfl | rfl | h
  · decide
  · decide
  · decide
  · cases mode <;> decide
  · decide
  · exact C.mem_encode _ c h

end Linrdp.Sam.Seal
