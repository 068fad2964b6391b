import TimeTracker.Server.Store
import TimeTracker.Server.Ceremony
import TimeTracker.Library.Atomic

/-!
# The server functions

Each server function is a program of atomic statements: one statement for a
single query or for a whole transaction.  The label of a statement says which
statement of the source it is.
-/

namespace TimeTracker.Server.Functions

open TimeTracker.Text
open TimeTracker.Crypto.Wire
open TimeTracker.Date
open TimeTracker.Library.Atomic
open TimeTracker.Server.Schema
open TimeTracker.Server.Store
open TimeTracker.Server.Ceremony

/-- The statements of the server functions. -/
inductive Site
  | findUser
  | findOrCreate
  | isEncrypted (userId : Int)
  | listWraps (userId : Int)
  | enable (userId : Int) (credentialId : Option Bytes)
  | findCredential (credentialId : Bytes)
  | hasWrap (userId : Int) (credentialId : Bytes)
  | insertWrap (userId : Int) (credentialId : Bytes)
  | replaceKeyWrap (userId : Int)
  | insertPasskey (userId : Int)
  | deletePasskey (userId id : Int)
  | loadEntry (userId : Int)
  | datesInRange (userId : Int)
  | entriesInRange (userId : Int)
  | saveEntry (userId : Int)
  | updateAfterUse (rowId : Int)
  | loadUser (userId : Int)
  | bumpEpoch (userId : Int)
  deriving DecidableEq, Repr

/-- What a valid session token asserts. -/
structure SessionClaims where
  email : String
  epoch : Int
  deriving DecidableEq, Repr

/-- The `Set-Cookie` header of a response.  Setting it again overwrites it. -/
inductive SetCookie
  | session (claims : SessionClaims)
  | clearSession
  | clearPasskeyState
  deriving DecidableEq, Repr

/-- The per-request context: the verified claims, the ceremony cookie and the
clock. -/
structure AppCtx where
  claims : Option SessionClaims
  passkeyState : Option String
  now : Timestamp

/-- A server function in progress: it may refuse, and it may set a cookie. -/
abbrev Handler := ExceptT String (StateT (Option SetCookie) (Program Database Site DbError))

/-- Execute one statement; a failure is logged and becomes an opaque message. -/
def query {α : Type} (site : Site) (statement : Sql α) : Handler α := do
  let reply ← (Program.perform site statement : Program Database Site DbError _)
  match reply with
  | .ok value => return value
  | .error _ => throw "Internal server error"

def setCookie (cookie : SetCookie) : Handler Unit :=
  set (some cookie)

/-- The outcome of a transaction that may also refuse. -/
def refuse (outcome : Except String Unit) : Handler Unit :=
  match outcome with
  | .ok () => return ()
  | .error message => throw message

/-- Unwrap an option, or refuse. -/
def orRefuse {α : Type} (message : String) : Option α → Handler α
  | some value => return value
  | none => throw message

/-- Resolves the session to a live user, enforcing revocation. -/
def requireUser (ctx : AppCtx) : Handler User := do
  let claims ← orRefuse "Not signed in" ctx.claims
  let found ← query .findUser (findByEmail claims.email)
  let found ← orRefuse "Not signed in" found
  if found.sessionEpoch ≠ claims.epoch then
    throw "Not signed in"
  return found

/-- Whose session this is, as the request itself says; the tables are not asked. -/
def currentSession (ctx : AppCtx) : Handler (Option String) :=
  return ctx.claims.map SessionClaims.email

/-! ## Encryption -/

/-- Refuses a wrapped data key that is not the length AES-KW produces. -/
def checkWrapLen (wrapped : Bytes) : Handler Unit :=
  if wrapped.length = WRAPPED_KEY_LEN then return ()
  else throw
    "We couldn't store that key: it is not the right size. Reload this page and try again."

/-- The passkey half of turning encryption on. -/
structure PasskeyWrapDto where
  credentialId : Bytes
  wrappedKey : Bytes
  deriving DecidableEq, Repr

/-- One route to the account's data key, as seen from the browser. -/
structure WrapDto where
  kind : String
  credentialId : Option Bytes
  wrappedKey : Bytes
  kdf : String
  wrapAlg : String
  deriving DecidableEq, Repr

def WrapDto.ofRow (row : WrapRow) : WrapDto :=
  { kind := row.kind.asStr, credentialId := row.credentialId,
    wrappedKey := row.wrappedKey, kdf := row.kdf, wrapAlg := row.wrapAlg }

/-- The signed-in account's encryption state, as seen from the browser. -/
structure EncryptionStatus where
  account : String
  enabled : Bool
  deriving DecidableEq, Repr

def encryptionStatus (ctx : AppCtx) : Handler EncryptionStatus := do
  let me ← requireUser ctx
  let enabled ← query (.isEncrypted me.id) (isEncrypted me.id)
  return { account := me.email, enabled }

def encryptionWraps (ctx : AppCtx) : Handler (List WrapDto) := do
  let me ← requireUser ctx
  let rows ← query (.listWraps me.id) (listWraps me.id)
  return rows.map WrapDto.ofRow

/-- The transaction of `encryption_enable`. -/
def enableTransaction (userId : Int) (passkey : Option PasskeyWrapDto)
    (encryptionKeyWrap : Bytes) (now : Timestamp) : Sql (Except String Unit) := do
  if ← isEncrypted userId then
    return .error "Encryption is already enabled for this account."
  setEncrypted userId now
  if let some passkey := passkey then
    insertWrap userId .passkey (some passkey.credentialId) passkey.wrappedKey now
  insertWrap userId .encryptionKey none encryptionKeyWrap now
  return .ok ()

def encryptionEnable (ctx : AppCtx) (passkey : Option PasskeyWrapDto)
    (encryptionKeyWrap : Bytes) : Handler Unit := do
  let me ← requireUser ctx
  checkWrapLen encryptionKeyWrap
  if let some passkey := passkey then
    checkWrapLen passkey.wrappedKey
  let outcome ← query (.enable me.id (passkey.map PasskeyWrapDto.credentialId))
    (enableTransaction me.id passkey encryptionKeyWrap ctx.now)
  refuse outcome

def encryptionAddPasskeyWrap (ctx : AppCtx) (credentialId wrappedKey : Bytes) :
    Handler Unit := do
  let me ← requireUser ctx
  checkWrapLen wrappedKey
  let row ← query (.findCredential credentialId) (findByCredentialId credentialId)
  if row.map PasskeyRow.userId ≠ some me.id then
    throw "That passkey does not belong to your account."
  if !(← query (.isEncrypted me.id) (isEncrypted me.id)) then
    throw "This account isn't encrypted, so there's no key to give that passkey."
  if ← query (.hasWrap me.id credentialId)
      (hasWrapForCredential me.id credentialId) then
    throw "That passkey can already open your entries."
  query (.insertWrap me.id credentialId)
    (insertWrap me.id .passkey (some credentialId) wrappedKey ctx.now)

def encryptionReplaceKeyWrap (ctx : AppCtx) (wrappedKey : Bytes) :
    Handler Unit := do
  let me ← requireUser ctx
  checkWrapLen wrappedKey
  query (.replaceKeyWrap me.id)
    (replaceEncryptionKeyWrap me.id wrappedKey ctx.now)

/-! ## Entries -/

/-- Refuses absurd inputs without inspecting them. -/
def MAX_BODY_BYTES : Nat := 256 * 1024

def parseDate (raw : String) : Handler NaiveDate :=
  orRefuse "Invalid date" (parseIso raw)

def entryLoad (ctx : AppCtx) (date : String) : Handler (Option String) := do
  let me ← requireUser ctx
  let date ← parseDate date
  query (.loadEntry me.id) (load me.id date)

/-- Widest span a single range query may cover. -/
def MAX_RANGE_DAYS : Int := 366

def parseRange (first last : String) : Handler (NaiveDate × NaiveDate) := do
  let first ← parseDate first
  let last ← parseDate last
  if last.Before first then
    throw "Invalid date range"
  if numDays first last > MAX_RANGE_DAYS then
    throw "Date range is too wide"
  return (first, last)

/-- The transaction of `entry_save`. -/
def saveTransaction (userId : Int) (date : NaiveDate) (body : String)
    (now : Timestamp) : Sql (Except String Unit) := do
  if !(← isEncrypted userId) then
    return .error "Set up encryption on this account before saving entries."
  save userId date body now
  return .ok ()

def entrySave (ctx : AppCtx) (date body : String) : Handler Unit := do
  let me ← requireUser ctx
  let date ← parseDate date
  if body.utf8ByteSize > MAX_BODY_BYTES then
    throw "That entry is too large to save"
  let outcome ← query (.saveEntry me.id) (saveTransaction me.id date body ctx.now)
  refuse outcome

/-- Which days in the range have an entry. -/
def entryDatesInRange (ctx : AppCtx) (first last : String) : Handler (List String) := do
  let me ← requireUser ctx
  let (first, last) ← parseRange first last
  let dates ← query (.datesInRange me.id) (datesInRange me.id first last)
  return dates.map toIso

/-- Every entry in the range, bodies included and uninterpreted. -/
def entriesInRange (ctx : AppCtx) (first last : String) :
    Handler (List (String × String)) := do
  let me ← requireUser ctx
  let (first, last) ← parseRange first last
  let entries ← query (.entriesInRange me.id) (Store.entriesInRange me.id first last)
  return entries.map fun (date, body) => (toIso date, body)

/-! ## Passkeys -/

def passkeyRegisterFinish (wa : Webauthn) (ctx : AppCtx) (responseJson : String)
    (prfCapable : Bool) : Handler Unit := do
  let me ← requireUser ctx
  let raw ← orRefuse "Your passkey session expired. Please retry." ctx.passkeyState
  let state ← orRefuse "Your passkey session is invalid. Please retry."
    (decode wa ctx.now raw)
  setCookie .clearPasskeyState
  match state with
  | .reg subject reg _ =>
      if subject ≠ me.email then
        throw "Wrong ceremony type."
      let rpc ← orRefuse "Malformed credential response."
        (wa.parseRegister responseJson)
      let key ← orRefuse "Could not verify your passkey."
        (wa.finishRegistration rpc reg)
      let blob ← orRefuse "Internal server error" (wa.toVec key)
      let _ ← query (.insertPasskey me.id)
        (insertPasskey me.id (wa.credId key) blob prfCapable ctx.now)
  | _ => throw "Wrong ceremony type."

/-- The transaction of `passkey_delete`. -/
def deleteTransaction (userId id : Int) : Sql (Except String Unit) := do
  let rows ← listByUser userId
  match rows.find? fun row => row.id = id with
  | none => return .error "That passkey no longer exists."
  | some target =>
      let encrypted ← isEncrypted userId
      let wraps ← listWraps userId
      let thisCredentialHasAWrap := wraps.any fun w =>
        w.kind = .passkey && w.credentialId = some target.credentialId
      let passkeyWrapCount := (wraps.filter fun w => w.kind = .passkey).length
      if encrypted && thisCredentialHasAWrap && passkeyWrapCount ≤ 1 then
        return .error
          "This is your last passkey that can unlock your encrypted entries. Removing it would lock you out for good — use your encryption key, or add another passkey first."
      if !(← deleteForUser id userId) then
        return .error "That passkey no longer exists."
      deleteWrapForCredential userId target.credentialId
      return .ok ()

def passkeyDelete (ctx : AppCtx) (id : Int) : Handler Unit := do
  let me ← requireUser ctx
  let outcome ← query (.deletePasskey me.id id) (deleteTransaction me.id id)
  refuse outcome

/-- Completes a sign-in ceremony and sets the session cookie. -/
def passkeyLoginFinish (wa : Webauthn) (ctx : AppCtx) (responseJson : String) :
    Handler Unit := do
  let generic := "We couldn't verify your passkey."
  let raw ← orRefuse "Your sign-in session expired. Please retry." ctx.passkeyState
  let state ← orRefuse "Your sign-in session is invalid. Please retry."
    (decode wa ctx.now raw)
  setCookie .clearPasskeyState
  let pkc ← orRefuse "Malformed credential response." (wa.parseLogin responseJson)
  let (row, updated) ← match state with
    | .auth subject auth _ => do
        let result ← orRefuse generic (wa.finishAuthentication pkc auth)
        let row ← query (.findCredential (wa.resultCredId result))
          (findByCredentialId (wa.resultCredId result))
        let row ← orRefuse generic row
        let owner ← query .findUser (findByEmail subject)
        let owner ← orRefuse generic owner
        if row.userId ≠ owner.id then
          throw generic
        let key ← orRefuse "Internal server error" (wa.fromSlice row.passkey)
        pure (row, wa.updateCredential key result)
    | .discoverableAuth auth _ => do
        let credId ← orRefuse generic (wa.identifyDiscoverable pkc)
        let row ← query (.findCredential credId) (findByCredentialId credId)
        let row ← orRefuse generic row
        let key ← orRefuse "Internal server error" (wa.fromSlice row.passkey)
        let result ← orRefuse generic (wa.finishDiscoverable pkc auth key)
        pure (row, wa.updateCredential key result)
    | .reg _ _ _ => throw "Wrong ceremony type."
  let blob ← orRefuse "Internal server error" (wa.toVec updated)
  query (.updateAfterUse row.id) (updateAfterUse row.id blob ctx.now)
  let owner ← query (.loadUser row.userId) fun db =>
    match db.user? row.userId with
    | some user => .ok (user, db)
    | none => .error .notFound
  setCookie (.session { email := owner.email, epoch := owner.sessionEpoch })

/-! ## Sessions -/

/-- A spent magic link signs in: the account is found or created, and the cookie
carries the epoch that read. -/
def magicSignIn (email : String) (now : Timestamp) : Handler Unit := do
  let user ← query .findOrCreate (findOrCreate email now)
  setCookie (.session { email := user.email, epoch := user.sessionEpoch })

/-- Clears the session cookie on this device only. -/
def logout : Handler Unit :=
  setCookie .clearSession

/-- Invalidates every session token issued to this user, on every device. -/
def signOutEverywhere (ctx : AppCtx) : Handler Unit := do
  let me ← requireUser ctx
  query (.bumpEpoch me.id) (bumpEpoch me.id)
  setCookie .clearSession

end TimeTracker.Server.Functions
