import TimeTracker.Client.Session
import TimeTracker.Crypto.Ceremony
import TimeTracker.Tab.System

/-!
# Calls from a ceremony

The device the ceremonies run on, with the session cookie all its tabs share, and
the database behind the server.  A call leaves with the cookie of that moment, is
executed by the server statement by statement, and is answered at a later moment,
when its response may set the cookie; either way may be lost.
-/

namespace TimeTracker.Client.Calls

open TimeTracker.Text
open TimeTracker.Library.Atomic
open TimeTracker.Library.Rely
open TimeTracker.Server.Schema
open TimeTracker.Server.Store
open TimeTracker.Server.Functions
open TimeTracker.Tab.State
open TimeTracker.Tab.System
open TimeTracker.Client.Session

/-! ## The device -/

/-- One device and the server it talks to. -/
structure World (D : Type) where
  db : Database
  now : Timestamp
  /-- The session cookie. -/
  cookie : Option SessionClaims
  keystore : Option (Record D)
  /-- Every data key a ceremony has handed to its tab, oldest first. -/
  sessions : List (SessionKey D)
  /-- The encryption key shown last. -/
  shown : Option String

/-- A fresh device and a freshly migrated database. -/
def World.initial (D : Type) : World D :=
  { db := .empty, now := 0, cookie := none, keystore := none, sessions := [],
    shown := none }

/-- The server functions the ceremonies call. -/
inductive Endpoint
  | status
  | wraps
  | loginFinish
  | enable
  | addPasskeyWrap
  | replaceKeyWrap
  | other
  deriving DecidableEq, Repr

/-- What a ceremony is suspended at.  A request that goes on with what was done
before under a session of one account names that account. -/
inductive Await
  | send (endpoint : Endpoint) (account : Option String)
  | server (site : Site)
  | receive (endpoint : Endpoint)
  /-- `passkey_login_start`, which leaves the session alone. -/
  | challenge (user : String)
  | authenticator
  | webCrypto
  /-- The encryption key is on screen, and the user has it. -/
  | keyScreen
  | handOver
  /-- The keystore is written, or read. -/
  | remember
  | restore
  /-- Something other than a ceremony happens on the device. -/
  | elsewhere
  deriving DecidableEq, Repr

/-- Why an await failed: a statement was rolled back, or what came back was an
error with this text. -/
inductive Fault
  | db (error : DbError)
  | thrown (text : String)
  deriving DecidableEq, Repr

def Fault.text : Fault → String
  | .db _ => "Internal server error"
  | .thrown text => text

def dbFaults : Faults DbError Fault where
  raise := .db
  lower
    | .db error => error
    | .thrown _ => .unavailable
  lower_raise _ := rfl

/-- The server's part of the world. -/
def dbPart (D : Type) : Part (World D) Database where
  get := World.db
  set db world := { world with db }
  get_set _ _ := rfl
  set_get _ := rfl

/-! ## Errors of a call -/

/-- The fixed wrapper around every message a server function refuses with. -/
def SERVER_FN_ERROR_PREFIX : String := "error running server function: "

/-- `ServerFnError`: a refusal the server chose to explain, or a call that never
got an answer. -/
inductive CallError
  | refused (message : String)
  | transport (text : String)
  deriving DecidableEq, Repr

/-- The text of the error, as it is displayed. -/
def CallError.toText : CallError → String
  | .refused message => SERVER_FN_ERROR_PREFIX ++ message
  | .transport text => text

def startsWith (raw start : String) : Bool :=
  start.toList.isPrefixOf raw.toList

def contains (raw part : String) : Bool :=
  decide (part.toList <:+: raw.toList)

/-- The message a server function chose to refuse with. -/
def serverRefusal (raw : String) : Option String :=
  if startsWith raw SERVER_FN_ERROR_PREFIX then
    some (String.ofList (raw.toList.drop SERVER_FN_ERROR_PREFIX.toList.length))
  else none

/-- The messages of the server functions that pass through. -/
def FRIENDLY_STARTS : List String :=
  ["We couldn't", "Your sign-in", "Your passkey", "Too many", "That passkey",
    "This is your last passkey", "Encryption is already", "Not signed in",
    "Wrong ceremony", "Malformed credential"]

/-- Maps a raw WebAuthn or server error to something a person can act on. -/
def friendlyError (raw : String) : String :=
  let raw := (serverRefusal raw).getD raw
  let lower := String.ofList (raw.toList.map Char.toLower)
  if contains lower "cancel" || contains lower "notallowederror" then
    "Sign-in was cancelled."
  else if contains lower "not supported" || contains lower "unavailable" ||
      contains lower "no window" || contains lower "non-promise" then
    "Your browser doesn't support passkeys for this site."
  else if FRIENDLY_STARTS.any (startsWith raw) then raw
  else "Couldn't complete that passkey step. Please try again."

/-- A network or server failure unrelated to WebAuthn itself. -/
def SERVER_UNREACHABLE : String :=
  "Couldn't reach the server. Check your connection and try again."

/-- For a call whose failures are never worth repeating. -/
def serverUnreachable (_ : CallError) : String :=
  SERVER_UNREACHABLE

/-- For a call that can refuse with a sentence worth showing. -/
def serverMessage (error : CallError) : String :=
  (serverRefusal error.toText).getD SERVER_UNREACHABLE

/-- A refusal is repeated word for word. -/
@[simp] theorem serverRefusal_refused (message : String) :
    serverRefusal (CallError.refused message).toText = some message := by
  simp [serverRefusal, startsWith, CallError.toText]

@[simp] theorem serverMessage_refused (message : String) :
    serverMessage (.refused message) = message := by
  rw [serverMessage, serverRefusal_refused, Option.getD_some]

/-! ## One call -/

section Call

variable {D α : Type}

namespace World

/-- The context the server builds from the cookies of a request sent now. -/
def request (world : World D) (passkeyState : Option String) : AppCtx :=
  { claims := world.cookie, passkeyState, now := world.now }

/-- A response arrives and may set the session cookie. -/
def arrive (world : World D) (header : Option SetCookie) : World D :=
  { world with cookie := receive header world.cookie }

end World

/-- What the caller of a server function is told, with the session the request
was sent under. -/
def told (claims : Option SessionClaims) :
    Except String α → Except CallError (α × Option SessionClaims)
  | .ok value => .ok (value, claims)
  | .error message => .error (.refused message)

/-- Call a server function. -/
def call (endpoint : Endpoint) (account passkeyState : Option String)
    (handler : AppCtx → Handler α) :
    Program (World D) Await Fault (Except CallError (α × Option SessionClaims)) := do
  let sent ← Program.perform (.send endpoint account)
    fun world => .ok (world.request passkeyState, world)
  match sent with
  | .error fault => return .error (.transport fault.text)
  | .ok ctx => do
      let answer ← ((handler ctx).run.run none).zoom (dbPart D) dbFaults .server
      let received ← Program.perform (.receive endpoint)
        fun world => .ok ((), world.arrive answer.2)
      match received with
      | .error fault => return .error (.transport fault.text)
      | .ok () => return told ctx.claims answer.1

variable {terms : Terms Await (World D)} {rely : World D → World D → Prop}
  {guarantee : Await → World D → World D → Prop}

/-- What remains to be shown once the server has answered: the response may
arrive, or be lost. -/
def Answered (terms : Terms Await (World D)) (rely : World D → World D → Prop)
    (guarantee : Await → World D → World D → Prop) (endpoint : Endpoint)
    (claims : Option SessionClaims)
    (post : Except CallError (α × Option SessionClaims) → World D → Prop)
    (answer : Except String α × Option SetCookie) (world : World D) : Prop :=
  ∀ later, rely world later →
    (terms.executes (.receive endpoint) later →
      guarantee (.receive endpoint) later (later.arrive answer.2) ∧
      post (told claims answer.1) (later.arrive answer.2)) ∧
    (terms.fails (.receive endpoint) → ∀ text, post (.error (.transport text)) later)

/-- A call: the request is lost, or is sent and executed and then answered. -/
theorem obeys_call {endpoint : Endpoint} {account passkeyState : Option String}
    {handler : AppCtx → Handler α} {world : World D}
    {post : Except CallError (α × Option SessionClaims) → World D → Prop}
    (unsent : ∀ later text, rely world later → post (.error (.transport text)) later)
    (sent : ∀ later, rely world later → terms.executes (.send endpoint account) later →
      guarantee (.send endpoint account) later later ∧
      Obeys terms rely guarantee
        (Answered terms rely guarantee endpoint later.cookie post)
        (((handler (later.request passkeyState)).run.run none).zoom (dbPart D)
          dbFaults .server) later) :
    Obeys terms rely guarantee post (call endpoint account passkeyState handler) world := by
  refine obeys_bind (obeys_perform ?_ ?_ ?_)
  · exact fun later grown meets => (sent later grown meets).1
  · intro later ctx next grown meets ran
    cases ran
    refine obeys_bind (Obeys.mono ?_ (sent later grown meets).2)
    rintro ⟨reply, header⟩ world answered last grown'
    obtain ⟨arrived, lost⟩ := answered last grown'
    exact ⟨arrived, fun fails fault => lost fails fault.text⟩
  · exact fun later fault grown => unsent later fault.text grown

end Call

end TimeTracker.Client.Calls
