import Refract.Ir.Content
import Refract.Machine.Base64
import Refract.Stream.Utf8

open refract.ir refract.machine refract.stream

namespace refract.store

/-- A master key of 32 bytes. -/
abbrev MasterKey := { key : Bytes // key.length = 32 }

/-- A number of 12 bytes that is drawn for one encryption. -/
abbrev Nonce := { nonce : Bytes // nonce.length = 12 }

/-- AES-256-GCM, with the associated data that all credentials are bound to. -/
structure Cipher where
  encrypt : MasterKey → Bytes → Bytes → Option Bytes
  decrypt : MasterKey → Bytes → Bytes → Option Bytes

/-- What was encrypted is decrypted with the same key, and with no other. -/
structure Cipher.Correct (cipher : Cipher) : Prop where
  opens : ∀ key nonce plain sealed, cipher.encrypt key nonce plain = some sealed → cipher.decrypt key nonce sealed = some plain
  refuses : ∀ key other nonce plain sealed, cipher.encrypt key nonce plain = some sealed → other ≠ key →
    cipher.decrypt other nonce sealed = none

inductive CryptoError where
  | base64
  | too_short
  | decryption_failed
  | utf8
  deriving DecidableEq, Repr

/-- The text of an error, but for what the decoder says about base64. -/
def CryptoError.to_string : CryptoError → String
  | .base64 => "invalid base64"
  | .too_short => "ciphertext too short"
  | .decryption_failed => "decryption failed"
  | .utf8 => "plaintext is not valid utf8"

/-- What encrypted texts begin with. -/
def PREFIX : String := "refract.v1."

def is_encrypted (stored : String) : Bool := PREFIX.toList.isPrefixOf stored.toList

section Cipher

variable (cipher : Cipher)

def encrypt_credential (plaintext : String) (key : MasterKey) (nonce : Nonce) : Except CryptoError String :=
  match cipher.encrypt key nonce (as_bytes plaintext) with
  | none => .error .decryption_failed
  | some ciphertext => .ok (PREFIX ++ String.ofList (base64.encode (nonce.val ++ ciphertext)))

/-- A text that was not encrypted is left as it is. -/
def decrypt_credential (stored : String) (key : MasterKey) : Except CryptoError String :=
  match strip_start stored PREFIX with
  | none => .ok stored
  | some body =>
    match base64.decode body.toList with
    | none => .error .base64
    | some blob =>
      if blob.length < 12 then .error .too_short
      else
        match cipher.decrypt key (blob.take 12) (blob.drop 12) with
        | none => .error .decryption_failed
        | some plaintext => (from_utf8 plaintext).mapError fun _ => .utf8

/-- The texts that a credential is encrypted to with a key. -/
def Sealed (key : MasterKey) (plaintext stored : String) : Prop :=
  ∃ nonce, encrypt_credential cipher plaintext key nonce = .ok stored

end Cipher

theorem is_encrypted_append (body : String) : is_encrypted (PREFIX ++ body) = true := by
  simp [is_encrypted]

theorem strip_start_append (body : String) : strip_start (PREFIX ++ body) PREFIX = some body := by
  simp [strip_start]

section Sealed

variable {cipher : Cipher} {key other : MasterKey} {plaintext stored : String}

theorem Sealed.encrypted (hsealed : Sealed cipher key plaintext stored) : is_encrypted stored = true := by
  obtain ⟨nonce, hencrypt⟩ := hsealed
  unfold encrypt_credential at hencrypt
  split at hencrypt
  · cases hencrypt
  · obtain rfl := Except.ok.inj hencrypt
    exact is_encrypted_append _

/-- The reading of an encrypted text is the reading of its blob. -/
theorem decrypt_credential_blob (key : MasterKey) (nonce : Nonce) (ciphertext : Bytes) :
    decrypt_credential cipher (PREFIX ++ String.ofList (base64.encode (nonce.val ++ ciphertext))) key =
      match cipher.decrypt key nonce.val ciphertext with
      | none => .error .decryption_failed
      | some plaintext => (from_utf8 plaintext).mapError fun _ => .utf8 := by
  have hlength : ¬(nonce.val ++ ciphertext).length < 12 := by
    rw [List.length_append, nonce.property]
    omega
  simp only [decrypt_credential, strip_start_append, String.toList_ofList, base64.decode_encode, if_neg hlength,
    List.take_left' nonce.property, List.drop_left' nonce.property]

/-- What was encrypted is read with its key. -/
theorem Sealed.decrypt (hcipher : cipher.Correct) (hsealed : Sealed cipher key plaintext stored) :
    decrypt_credential cipher stored key = .ok plaintext := by
  obtain ⟨nonce, hencrypt⟩ := hsealed
  unfold encrypt_credential at hencrypt
  split at hencrypt
  · cases hencrypt
  next ciphertext hciphertext =>
    obtain rfl := Except.ok.inj hencrypt
    rw [decrypt_credential_blob, hcipher.opens key nonce.val _ ciphertext hciphertext]
    simp [from_utf8_as_bytes, Except.mapError]

theorem Sealed.decrypt_other (hcipher : cipher.Correct) (hsealed : Sealed cipher key plaintext stored) (hother : other ≠ key) :
    decrypt_credential cipher stored other = .error .decryption_failed := by
  obtain ⟨nonce, hencrypt⟩ := hsealed
  unfold encrypt_credential at hencrypt
  split at hencrypt
  · cases hencrypt
  next ciphertext hciphertext =>
    obtain rfl := Except.ok.inj hencrypt
    rw [decrypt_credential_blob, hcipher.refuses key other nonce.val _ ciphertext hciphertext hother]

end Sealed

end refract.store
