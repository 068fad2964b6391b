import TimeTracker.Server.Schema

/-!
# WebAuthn ceremony state

The third-party verification a ceremony rests on, as the functions the server
calls, and the signed cookie that carries a ceremony between its two requests.
-/

namespace TimeTracker.Server.Ceremony

open TimeTracker.Text
open TimeTracker.Server.Schema

/-- What the server calls of the WebAuthn, JSON, base64 and HMAC libraries. -/
structure Webauthn where
  /-- Stored state of a registration, an authentication and a discoverable
  authentication. -/
  Registration : Type
  Authentication : Type
  Discoverable : Type
  /-- Parsed browser responses. -/
  RegisterResponse : Type
  LoginResponse : Type
  /-- A verified credential, and the result of a verified assertion. -/
  Key : Type
  Result : Type
  parseRegister : String → Option RegisterResponse
  parseLogin : String → Option LoginResponse
  finishRegistration : RegisterResponse → Registration → Option Key
  finishAuthentication : LoginResponse → Authentication → Option Result
  identifyDiscoverable : LoginResponse → Option Bytes
  finishDiscoverable : LoginResponse → Discoverable → Key → Option Result
  credId : Key → Bytes
  resultCredId : Result → Bytes
  updateCredential : Key → Result → Key
  toVec : Key → Option Bytes
  fromSlice : Bytes → Option Key
  base64Decode : String → Option Bytes
  hmacVerify : Bytes → Bytes → Bool
  parseState : Bytes → Option
    (String × Registration × Int ⊕ String × Authentication × Int ⊕
      Discoverable × Int)

/-- The state of a ceremony between its two requests. -/
inductive PasskeyState (wa : Webauthn)
  | reg (subject : String) (reg : wa.Registration) (expiresAt : Int)
  | auth (subject : String) (auth : wa.Authentication) (expiresAt : Int)
  | discoverableAuth (auth : wa.Discoverable) (expiresAt : Int)

variable {wa : Webauthn}

/-- Length of the signature at the end of the cookie. -/
def SIG_LEN : Nat := 32

def PasskeyState.expiresAt : PasskeyState wa → Int
  | .reg _ _ expiresAt => expiresAt
  | .auth _ _ expiresAt => expiresAt
  | .discoverableAuth _ expiresAt => expiresAt

/-- `serde_json::from_slice` at the state type. -/
def PasskeyState.fromSlice (wa : Webauthn) (body : Bytes) :
    Option (PasskeyState wa) :=
  (wa.parseState body).map fun
    | .inl (subject, registration, expires) => .reg subject registration expires
    | .inr (.inl (subject, authentication, expires)) =>
        .auth subject authentication expires
    | .inr (.inr (discoverable, expires)) => .discoverableAuth discoverable expires

/-- Checks the signature and the expiry of a ceremony cookie and reads it. -/
def decode (wa : Webauthn) (now : Timestamp) (raw : String) :
    Option (PasskeyState wa) := do
  let bytes ← wa.base64Decode raw
  if bytes.length < SIG_LEN then none
  let body := bytes.take (bytes.length - SIG_LEN)
  let sig := bytes.drop (bytes.length - SIG_LEN)
  if !wa.hmacVerify body sig then none
  let state ← PasskeyState.fromSlice wa body
  if state.expiresAt < now then none
  return state

/-- An implementation whose credentials are their own ids and whose ceremony
cookies name their subject in plain text, for concrete runs. -/
def plainWebauthn : Webauthn where
  Registration := Unit
  Authentication := Unit
  Discoverable := Unit
  RegisterResponse := String
  LoginResponse := String
  Key := Bytes
  Result := Bytes
  parseRegister := some
  parseLogin := some
  finishRegistration response _ := some (asciiBytes response)
  finishAuthentication response _ := some (asciiBytes response)
  identifyDiscoverable response := some (asciiBytes response)
  finishDiscoverable response _ _ := some (asciiBytes response)
  credId key := key
  resultCredId result := result
  updateCredential key _ := key
  toVec key := some key
  fromSlice blob := some blob
  base64Decode raw := some (asciiBytes raw)
  hmacVerify _ _ := true
  parseState body := some (.inl
    (String.ofList (body.map fun byte => Char.ofNat byte.toNat), (), 1000))

end TimeTracker.Server.Ceremony
