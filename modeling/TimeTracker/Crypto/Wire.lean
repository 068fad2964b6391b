import TimeTracker.Text
import TimeTracker.Library.Base64
import TimeTracker.Library.Json

/-!
# Wire shapes and key-derivation constants

The constants every stored wrap is tagged with, the two routes a wrap can
belong to, and the v2 envelope of a sealed body.
-/

namespace TimeTracker.Crypto.Wire

open TimeTracker.Text
open TimeTracker.Library

/-- AES-KW of a 256-bit key: 32 bytes plus the 8-byte integrity block. -/
def WRAPPED_KEY_LEN : Nat := 40

/-- The only KDF key-encryption keys are derived with. -/
def KDF_HKDF_SHA256 : String := "hkdf-sha256"

/-- The only key-wrap algorithm in use. -/
def WRAP_ALG_AESKW256 : String := "aeskw256"

/-- Which secret derives the key that opens a wrap. -/
inductive WrapKind
  | passkey
  | encryptionKey
  deriving DecidableEq, Repr

namespace WrapKind

/-- The stored form, in the column and on the wire. -/
def asStr : WrapKind → String
  | .passkey => "passkey"
  | .encryptionKey => "encryption_key"

/-- Reads the stored form back. -/
def parse (raw : String) : Option WrapKind :=
  if raw = "passkey" then some .passkey
  else if raw = "encryption_key" then some .encryptionKey
  else none

@[simp] theorem parse_asStr (kind : WrapKind) : parse kind.asStr = some kind := by
  cases kind <;> rfl

/-- Only the stored form of a kind reads back as that kind. -/
theorem parse_eq_some {raw : String} {kind : WrapKind} :
    parse raw = some kind ↔ raw = kind.asStr := by
  constructor
  · intro parsed
    unfold parse at parsed
    split at parsed
    · rename_i same
      cases parsed
      exact same
    · split at parsed
      · rename_i same
        cases parsed
        exact same
      · cases parsed
  · rintro rfl
    exact parse_asStr kind

theorem asStr_injective : Function.Injective asStr := by
  intro first second same
  have parsed := parse_asStr first
  rw [same, parse_asStr] at parsed
  exact (Option.some.inj parsed).symm

@[simp] theorem asStr_passkey_ne :
    WrapKind.passkey.asStr ≠ WrapKind.encryptionKey.asStr :=
  fun same => WrapKind.noConfusion (asStr_injective same)

end WrapKind

/-! ## The v2 envelope -/

/-- Envelope version written for sealed bodies. -/
def V2 : Nat := 2

/-- The only body algorithm. -/
def ALG_V2 : String := "a256gcm"

/-- AES-GCM nonce length, in bytes. -/
def NONCE_LEN : Nat := 12

/-- The JSON and base64 libraries envelopes are written with. -/
structure Formats where
  json : Json.Text
  base64 : Base64.Codec

/-- A nonce and the AES-GCM output that goes with it. -/
structure Sealed where
  nonce : Bytes
  ciphertext : Bytes
  deriving DecidableEq, Repr

/-- A stored v2 envelope could not be interpreted. -/
inductive WireError
  | malformed
  | base64 (field : String)
  | nonceLength (length : Nat)
  | unsupportedAlg (alg : String)
  | unsupportedVersion (version : Nat)
  deriving DecidableEq, Repr

/-- The read shape; other fields are ignored. -/
structure WireEnvelopeIn where
  v : Nat
  alg : String
  n : String
  ct : String
  deriving DecidableEq, Repr

def WireEnvelopeIn.fromJson (json : Json.Value) : Option WireEnvelopeIn := do
  let json := json.asStruct ["v", "alg", "n", "ct"]
  let v ← (← json.required? "v").natBelow? 256
  let alg ← (← json.required? "alg").string?
  let n ← (← json.required? "n").string?
  let ct ← (← json.required? "ct").string?
  return { v, alg, n, ct }

section Envelopes

variable (formats : Formats)

/-- The written shape. -/
def wireEnvelopeOut (sealed : Sealed) : List (String × Json.Value) :=
  [("v", .nat V2), ("alg", .string ALG_V2),
    ("n", .string (formats.base64.encode sealed.nonce)),
    ("ct", .string (formats.base64.encode sealed.ciphertext))]

/-- Wraps a sealed body for storage. -/
def encodeV2 (sealed : Sealed) : String :=
  formats.json.write (wireEnvelopeOut formats sealed)

/-- Decodes one base64 field, or names it. -/
def decodeField (field text : String) : Except WireError Bytes :=
  match formats.base64.decode text with
  | some bytes => .ok bytes
  | none => .error (.base64 field)

/-- Reads a sealed body back: shape, version, algorithm, base64, nonce length. -/
def decodeV2 (raw : String) : Except WireError Sealed :=
  match (formats.json.read raw).bind WireEnvelopeIn.fromJson with
  | none => .error .malformed
  | some env => do
      if env.v ≠ V2 then
        throw (.unsupportedVersion env.v)
      if env.alg ≠ ALG_V2 then
        throw (.unsupportedAlg env.alg)
      let nonce ← decodeField formats "n" env.n
      let ciphertext ← decodeField formats "ct" env.ct
      if nonce.length ≠ NONCE_LEN then
        throw (.nonceLength nonce.length)
      return { nonce, ciphertext }

theorem flat_wireEnvelopeOut (sealed : Sealed) :
    ∀ member ∈ wireEnvelopeOut formats sealed, member.2.Flat := by
  simp [wireEnvelopeOut, Json.Value.Flat, V2]

theorem read_encodeV2 (sealed : Sealed) :
    formats.json.read (encodeV2 formats sealed) =
      some (.object (wireEnvelopeOut formats sealed)) :=
  formats.json.read_write _ (flat_wireEnvelopeOut formats sealed)

@[simp] theorem decodeField_encode (field : String) (bytes : Bytes) :
    decodeField formats field (formats.base64.encode bytes) = .ok bytes := by
  simp [decodeField, formats.base64.decode_encode]

/-- A sealed body with a nonce of the right length reads back. -/
theorem decodeV2_encodeV2 {sealed : Sealed} (fits : sealed.nonce.length = NONCE_LEN) :
    decodeV2 formats (encodeV2 formats sealed) = .ok sealed := by
  have shape : WireEnvelopeIn.fromJson (.object (wireEnvelopeOut formats sealed)) =
      some { v := V2, alg := ALG_V2,
             n := formats.base64.encode sealed.nonce,
             ct := formats.base64.encode sealed.ciphertext } := rfl
  simp [decodeV2, read_encodeV2, shape, fits, bind, Except.bind, pure, Except.pure]

end Envelopes

end TimeTracker.Crypto.Wire
