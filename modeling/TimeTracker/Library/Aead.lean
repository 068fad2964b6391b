import Mathlib.Logic.Basic
import Mathlib.Data.List.Basic

/-!
# Authenticated encryption

An ideal cipher: a ciphertext opens exactly when it was sealed under the same
key and nonce, and no ciphertext is sealed under two keys.  Writing the key in
front of the plaintext is one such cipher, for runs on concrete keys.
-/

namespace TimeTracker.Library.Aead

/-- An ideal authenticated cipher with keys in `K`. -/
structure Cipher (K : Type) where
  encrypt : K → List UInt8 → List UInt8 → List UInt8
  decrypt : K → List UInt8 → List UInt8 → Option (List UInt8)
  decrypt_eq_some : ∀ {key nonce ciphertext plaintext},
    decrypt key nonce ciphertext = some plaintext ↔
      ciphertext = encrypt key nonce plaintext
  key_of_encrypt : ∀ {key other nonce otherNonce plaintext otherPlaintext},
    encrypt key nonce plaintext = encrypt other otherNonce otherPlaintext →
      key = other

section Ciphers

variable {K : Type} (cipher : Cipher K)

@[simp] theorem decrypt_encrypt (key : K) (nonce plaintext : List UInt8) :
    cipher.decrypt key nonce (cipher.encrypt key nonce plaintext) = some plaintext :=
  cipher.decrypt_eq_some.mpr rfl

/-- Another key opens nothing. -/
theorem decrypt_encrypt_of_ne {key other : K} (apart : key ≠ other)
    (nonce otherNonce plaintext : List UInt8) :
    cipher.decrypt other otherNonce (cipher.encrypt key nonce plaintext) = none := by
  cases opened : cipher.decrypt other otherNonce (cipher.encrypt key nonce plaintext) with
  | none => rfl
  | some text =>
      have same := cipher.decrypt_eq_some.mp opened
      exact absurd (cipher.key_of_encrypt same) apart

end Ciphers

/-- A cipher serves the keys of another type, each under a name of its own. -/
def Cipher.named {K L : Type} (cipher : Cipher K) (name : L → K)
    (distinct : Function.Injective name) : Cipher L where
  encrypt key := cipher.encrypt (name key)
  decrypt key := cipher.decrypt (name key)
  decrypt_eq_some := cipher.decrypt_eq_some
  key_of_encrypt same := distinct (cipher.key_of_encrypt same)

/-! ## The key in the clear -/

/-- A numbered key, in unary, and a mark where it ends. -/
def label (key : Nat) : List UInt8 :=
  List.replicate key 1 ++ [0]

/-- Two labels in front of two texts agree only if the keys do. -/
theorem label_append_inj {key other : Nat} {text otherText : List UInt8}
    (same : label key ++ text = label other ++ otherText) :
    key = other ∧ text = otherText := by
  induction key generalizing other with
  | zero =>
      cases other with
      | zero => simpa [label] using same
      | succ other => simp [label, List.replicate_succ] at same
  | succ key ih =>
      cases other with
      | zero => simp [label, List.replicate_succ] at same
      | succ other =>
          have shorter : label key ++ text = label other ++ otherText := by
            simpa [label, List.replicate_succ] using same
          obtain ⟨keys, texts⟩ := ih shorter
          exact ⟨congrArg Nat.succ keys, texts⟩

/-- The cipher that writes its key in front of the plaintext. -/
def labelled : Cipher Nat where
  encrypt key _ plaintext := label key ++ plaintext
  decrypt key _ ciphertext :=
    if label key <+: ciphertext then some (ciphertext.drop (key + 1)) else none
  decrypt_eq_some := by
    intro key nonce ciphertext plaintext
    have length : (label key).length = key + 1 := by simp [label]
    constructor
    · intro opened
      split at opened
      · next isLabelled =>
          obtain ⟨rest, rfl⟩ := isLabelled
          rw [← length, List.drop_left] at opened
          cases opened
          rfl
      · cases opened
    · rintro rfl
      rw [if_pos (List.prefix_append ..), ← length, List.drop_left]
  key_of_encrypt same := (label_append_inj same).1

end TimeTracker.Library.Aead
