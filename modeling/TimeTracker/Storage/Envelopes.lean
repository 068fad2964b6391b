import TimeTracker.Crypto.Subtle
import TimeTracker.Tab.State

/-!
# The versioned wrapper of every stored body

A row says itself which of the two shapes it has: the plaintext v1 envelope or
the sealed v2 one.  A reader goes by the row; only a writer chooses.
-/

namespace TimeTracker.Storage.Envelopes

open TimeTracker.Text
open TimeTracker.Library
open TimeTracker.Crypto.Wire
open TimeTracker.Crypto.Subtle
open TimeTracker.Tab.State

def VERSION : Nat := 1

def ALG_PLAINTEXT : String := "none"

/-- What the page is built on: the JSON and base64 libraries and the cipher. -/
structure Platform (K : Type) where
  formats : Formats
  cipher : Aead.Cipher K

/-- A stored envelope could not be interpreted.  A malformed one without a
detail carries the JSON library's own text. -/
inductive EnvelopeError
  | malformed (detail : Option String)
  | unsupportedVersion (version : Nat)
  | unsupportedAlg (alg : String)
  | wire (error : WireError)
  deriving DecidableEq, Repr

/-- The v1 envelope. -/
structure Envelope where
  v : Nat
  alg : String
  body : String
  deriving DecidableEq, Repr

/-- A missing body is the empty one. -/
def Envelope.fromJson (json : Json.Value) : Option Envelope := do
  let json := json.asStruct ["v", "alg", "body"]
  let v ← (← json.required? "v").natBelow? 256
  let alg ← (← json.required? "alg").string?
  let body ← ((← json.field? "body").getD (.string "")).string?
  return { v, alg, body }

def Envelope.toJson (env : Envelope) : List (String × Json.Value) :=
  [("v", .nat env.v), ("alg", .string env.alg), ("body", .string env.body)]

/-- What a stored envelope turns out to be, before any key is involved. -/
inductive ReadPlan
  | plaintext (body : String)
  | sealed (body : Sealed)
  deriving DecidableEq, Repr

section Envelopes

variable (formats : Formats)

/-- The body of a v1 envelope in the clear. -/
def planPlaintext (json : Json.Value) : Except EnvelopeError ReadPlan :=
  match Envelope.fromJson json with
  | none => .error (.malformed none)
  | some env =>
      if env.alg ≠ ALG_PLAINTEXT then .error (.unsupportedAlg env.alg)
      else .ok (.plaintext env.body)

/-- The `v` of any document, as `value["v"].as_u64()` reads it. -/
def version? (json : Json.Value) : Option Nat := do
  (← json.last? "v").natBelow? (2 ^ 64)

/-- Decides what a stored string is, by its own `v`. -/
def planRead (raw : String) : Except EnvelopeError ReadPlan :=
  match formats.json.read raw with
  | none => .error (.malformed none)
  | some json =>
      match version? json with
      | none => .error (.malformed (some "missing or non-numeric `v` field"))
      | some 1 => planPlaintext json
      | some 2 =>
          match decodeV2 formats raw with
          | .ok body => .ok (.sealed body)
          | .error error => .error (.wire error)
      | some other =>
          if other < 256 then .error (.unsupportedVersion other)
          else .error (.malformed (some s!"envelope version {other} is out of range"))

/-- Wraps a plaintext body for storage, unsealed. -/
def wrapV1 (body : String) : String :=
  formats.json.write ({ v := VERSION, alg := ALG_PLAINTEXT, body } : Envelope).toJson

@[simp] theorem planRead_wrapV1 (body : String) :
    planRead formats (wrapV1 formats body) = .ok (.plaintext body) := by
  have flat : ∀ member ∈ ({ v := VERSION, alg := ALG_PLAINTEXT, body } : Envelope).toJson,
      member.2.Flat := by
    simp [Envelope.toJson, Json.Value.Flat, VERSION]
  have read : formats.json.read (wrapV1 formats body) = some (.object
      ({ v := VERSION, alg := ALG_PLAINTEXT, body } : Envelope).toJson) :=
    formats.json.read_write _ flat
  unfold planRead
  rw [read]
  rfl

/-- What a v2 envelope was sealed as, it reads as. -/
theorem planRead_encodeV2 {body : Sealed} (fits : body.nonce.length = NONCE_LEN) :
    planRead formats (encodeV2 formats body) = .ok (.sealed body) := by
  have version : version? (.object (wireEnvelopeOut formats body)) = some 2 := rfl
  unfold planRead
  simp only [read_encodeV2, version, decodeV2_encodeV2 formats fits]

end Envelopes

/-- Wraps a body, sealing it first when the session holds a key. -/
def wrap {K : Type} (platform : Platform K) (nonce : Bytes) (body : String) :
    Option (SessionKey K) → String
  | none => wrapV1 platform.formats body
  | some session =>
      encodeV2 platform.formats (sealBody platform.cipher session.key nonce body)

end TimeTracker.Storage.Envelopes
