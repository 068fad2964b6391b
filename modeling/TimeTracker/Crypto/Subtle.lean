import TimeTracker.Crypto.Wire
import TimeTracker.Library.Aead

/-!
# Sealing and opening a body

The two operations of the browser's cipher an entry body goes through.  The
nonce is drawn by the browser, so it is an argument here.
-/

namespace TimeTracker.Crypto.Subtle

open TimeTracker.Text
open TimeTracker.Library.Aead
open TimeTracker.Crypto.Wire

/-- What WebCrypto can fail with; the text of a rejection is the browser's. -/
inductive CryptoError
  | rejected (operation : String)
  | notUtf8
  deriving DecidableEq, Repr

section Bodies

variable {K : Type} (cipher : Cipher K)

/-- Encrypts one entry body under the data key. -/
def sealBody (dek : K) (nonce : Bytes) (plaintext : String) : Sealed :=
  { nonce, ciphertext := cipher.encrypt dek nonce (utf8 plaintext) }

/-- Decrypts one entry body under the data key. -/
def openBody (dek : K) (body : Sealed) : Except CryptoError String :=
  match cipher.decrypt dek body.nonce body.ciphertext with
  | none => .error (.rejected "decrypt")
  | some bytes =>
      match fromUtf8 bytes with
      | some text => .ok text
      | none => .error .notUtf8

@[simp] theorem openBody_sealBody (dek : K) (nonce : Bytes) (plaintext : String) :
    openBody cipher dek (sealBody cipher dek nonce plaintext) = .ok plaintext := by
  simp [openBody, sealBody]

/-- Another key rejects the body. -/
theorem openBody_of_ne {dek other : K} (apart : dek ≠ other) (nonce : Bytes)
    (plaintext : String) :
    openBody cipher other (sealBody cipher dek nonce plaintext) =
      .error (.rejected "decrypt") := by
  simp [openBody, sealBody, decrypt_encrypt_of_ne cipher apart]

end Bodies

end TimeTracker.Crypto.Subtle
