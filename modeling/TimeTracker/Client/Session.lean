import TimeTracker.Server.Interference
import TimeTracker.Library.Run

/-!
# The browser's session cookie

One browser, signed in to one account: the ceremonies that have begun, the
requests on their way, each executed by the server statement by statement, and
the session cookie the responses set and clear in the order they arrive.  A
session token is the claims it asserts.
-/

namespace TimeTracker.Client.Session

open TimeTracker.Text
open TimeTracker.Library.Atomic
open TimeTracker.Library.Rely
open TimeTracker.Library.Run
open TimeTracker.Library.Indexed
open TimeTracker.Server.Schema
open TimeTracker.Server.Store
open TimeTracker.Server.Ceremony
open TimeTracker.Server.Functions
open TimeTracker.Server.Execution
open TimeTracker.Server.Outcomes
open TimeTracker.Server.Interference

/-- The calls of a ceremony besides its assertion. -/
inductive Errand
  | status
  | wraps
  | enable (passkey : Option PasskeyWrapDto) (encryptionKeyWrap : Bytes)
  | addPasskeyWrap (credentialId wrappedKey : Bytes)
  | replaceKeyWrap (wrappedKey : Bytes)

/-- The server function an errand calls; what it reads is not followed here. -/
def Errand.handler (ctx : AppCtx) : Errand → Handler Unit
  | .status => do
      let _ ← encryptionStatus ctx
      return ()
  | .wraps => do
      let _ ← encryptionWraps ctx
      return ()
  | .enable passkey encryptionKeyWrap =>
      encryptionEnable ctx passkey encryptionKeyWrap
  | .addPasskeyWrap credentialId wrappedKey =>
      encryptionAddPasskeyWrap ctx credentialId wrappedKey
  | .replaceKeyWrap wrappedKey => encryptionReplaceKeyWrap ctx wrappedKey

/-- A request on its way: what the server has still to execute of it, whether
its response has arrived, and whether the server was done with it when a
session epoch was last raised. -/
structure Exchange where
  program : Program Database Site DbError (Reply Unit)
  endsSession : Bool
  arrived : Bool
  early : Bool

/-- The browser, and the database behind the server. -/
structure Browser where
  db : Database
  cookie : Option SessionClaims
  /-- Ceremonies that have begun and not sent `passkey_login_finish` yet. -/
  asserting : Nat
  exchanges : List Exchange
  /-- Whether a sign-out has been answered with success. -/
  signedOut : Bool

/-- What can happen next. -/
inductive Event
  /-- A ceremony begins; `passkey_login_start` leaves the session alone. -/
  | beginCeremony
  /-- `assert_with_prf` sends the authenticator's response. -/
  | finishAssertion (now : Timestamp) (passkeyState responseJson : String)
  | errand (now : Timestamp) (errand : Errand)
  /-- `sign_out` reaches `end_session`. -/
  | endSession (now : Timestamp) (everywhere : Bool)
  | execute (exchange : Nat)
  | fail (exchange : Nat) (failure : DbError)
  | arrive (exchange : Nat)

/-- Whether a ceremony cookie, if it is any good, was issued to ask for this
account. -/
def asksFor (wa : Webauthn) (account : String) (now : Timestamp) (raw : String) :
    Bool :=
  match decode wa now raw with
  | some (.auth subject _ _) => normalizeEmail subject = some account
  | some (.discoverableAuth _ _) => false
  | some (.reg _ _ _) | none => true

/-- The account a session names. -/
def accountOf (claims : Option SessionClaims) : Option String :=
  claims.bind fun claims => normalizeEmail claims.email

/-- The session cookie after a response. -/
def receive (header : Option SetCookie) (cookie : Option SessionClaims) :
    Option SessionClaims :=
  match header with
  | some (.session claims) => some claims
  | some .clearSession => none
  | some .clearPasskeyState | none => cookie

/-- The statement raises a session epoch. -/
def raisesEpoch : Site → Bool
  | .bumpEpoch _ => true
  | _ => false

namespace Browser

/-- A browser with nothing on its way. -/
def signedIn (db : Database) (cookie : Option SessionClaims) : Browser :=
  { db, cookie, asserting := 0, exchanges := [], signedOut := false }

/-- The context the server builds from the cookies of a request sent now. -/
def ctx (browser : Browser) (now : Timestamp) (passkeyState : Option String) :
    AppCtx :=
  { claims := browser.cookie, passkeyState, now }

def send (browser : Browser) (endsSession : Bool) (handler : Handler Unit) :
    Browser :=
  { browser with
    exchanges := browser.exchanges ++
      [{ program := handler.run.run none, endsSession, arrived := false,
         early := false }] }

/-- Record which exchanges the server was done with before an epoch is raised. -/
def noteEpoch (browser : Browser) (site : Option Site) : Browser :=
  if site.any raisesEpoch then
    { browser with exchanges := browser.exchanges.map fun exchange =>
        { exchange with
          early := exchange.early || (result? exchange.program).isSome } }
  else browser

end Browser

/-- One step of the browser, or of the server on its behalf. -/
def step (wa : Webauthn) (account : String) (browser : Browser) :
    Event → Option Browser
  | .beginCeremony => some { browser with asserting := browser.asserting + 1 }
  | .finishAssertion now passkeyState responseJson =>
      if 0 < browser.asserting && asksFor wa account now passkeyState then
        some ({ browser with asserting := browser.asserting - 1 }.send false
          (passkeyLoginFinish wa (browser.ctx now (some passkeyState)) responseJson))
      else none
  | .errand now errand =>
      some (browser.send false (errand.handler (browser.ctx now none)))
  | .endSession now everywhere =>
      some (browser.send true
        (if everywhere then signOutEverywhere (browser.ctx now none) else logout))
  | .execute index =>
      match browser.exchanges[index]? with
      | none => none
      | some exchange =>
          (advance? exchange.program browser.db).map fun (program, db) =>
            let noted := browser.noteEpoch (site? exchange.program)
            { noted with
              db, exchanges := noted.exchanges.set index { exchange with program } }
  | .fail index failure =>
      match browser.exchanges[index]? with
      | none => none
      | some exchange =>
          (abort? exchange.program failure).map fun program =>
            { browser with
              exchanges := browser.exchanges.set index { exchange with program } }
  | .arrive index =>
      match browser.exchanges[index]? with
      | none => none
      | some exchange =>
          if exchange.arrived then none
          else match result? exchange.program with
          | none => none
          | some (reply, header) => some
              { browser with
                cookie := receive header browser.cookie
                signedOut :=
                  browser.signedOut || (exchange.endsSession && reply.isOk)
                exchanges :=
                  browser.exchanges.set index { exchange with arrived := true } }

/-! ## The accounts -/

/-- Accounts keep their ids and addresses, and their epochs only rise. -/
def Aged (before after : Database) : Prop :=
  ∀ user ∈ before.users, ∃ user' ∈ after.users, user'.id = user.id ∧
    user'.email = user.email ∧ user.sessionEpoch ≤ user'.sessionEpoch

/-- The epoch of this account has risen. -/
def Raised (account : String) (before after : Database) : Prop :=
  ∀ user ∈ before.users, user.email = account →
    ∃ user' ∈ after.users, user'.email = account ∧
      user.sessionEpoch < user'.sessionEpoch

/-- What every statement keeps to: accounts age, and a statement that raises an
epoch raises this account's. -/
def Keeps (account : String) (site : Site) (before after : Database) : Prop :=
  Aged before after ∧ (raisesEpoch site = true → Raised account before after)

theorem Aged.refl (db : Database) : Aged db db :=
  fun user member => ⟨user, member, rfl, rfl, le_refl _⟩

theorem Aged.trans {first second third : Database} (left : Aged first second)
    (right : Aged second third) : Aged first third := by
  intro user member
  obtain ⟨user', member', id', email', epoch'⟩ := left user member
  obtain ⟨user'', member'', id'', email'', epoch''⟩ := right user' member'
  exact ⟨user'', member'', id''.trans id', email''.trans email',
    le_trans epoch' epoch''⟩

theorem Aged.of_users {before after : Database} (users : after.users = before.users) :
    Aged before after := by
  intro user member
  exact ⟨user, users ▸ member, rfl, rfl, le_refl _⟩

/-- The account with this address has this id. -/
def Known (account : String) (userId : Int) (db : Database) : Prop :=
  ∃ user ∈ db.users, user.id = userId ∧ user.email = account

theorem Known.aged {account : String} {userId : Int} {before after : Database}
    (known : Known account userId before) (aged : Aged before after) :
    Known account userId after := by
  obtain ⟨user, member, rfl, rfl⟩ := known
  obtain ⟨user', member', id', email', -⟩ := aged user member
  exact ⟨user', member', id', email'⟩

/-- A token of this account, issued no later than now. -/
def Issued (account : String) (claims : SessionClaims) (db : Database) : Prop :=
  normalizeEmail claims.email = some account ∧
    ∃ user ∈ db.users, user.email = account ∧ claims.epoch ≤ user.sessionEpoch

/-- A token of this account, issued before its epoch was last raised. -/
def Revoked (account : String) (claims : SessionClaims) (db : Database) : Prop :=
  normalizeEmail claims.email = some account ∧
    ∃ user ∈ db.users, user.email = account ∧ claims.epoch < user.sessionEpoch

section Tokens

variable {account : String} {claims : SessionClaims} {before after : Database}

theorem Issued.aged (issued : Issued account claims before)
    (aged : Aged before after) : Issued account claims after := by
  obtain ⟨named, user, member, email, epoch⟩ := issued
  obtain ⟨user', member', -, email', epoch'⟩ := aged user member
  exact ⟨named, user', member', email'.trans email, le_trans epoch epoch'⟩

theorem Revoked.aged (revoked : Revoked account claims before)
    (aged : Aged before after) : Revoked account claims after := by
  obtain ⟨named, user, member, email, epoch⟩ := revoked
  obtain ⟨user', member', -, email', epoch'⟩ := aged user member
  exact ⟨named, user', member', email'.trans email, lt_of_lt_of_le epoch epoch'⟩

/-- Raising the epoch revokes every token issued so far. -/
theorem Issued.raised (issued : Issued account claims before)
    (raised : Raised account before after) : Revoked account claims after := by
  obtain ⟨named, user, member, email, epoch⟩ := issued
  obtain ⟨user', member', email', epoch'⟩ := raised user member email
  exact ⟨named, user', member', email', lt_of_le_of_lt epoch epoch'⟩

/-- A revoked token signs nobody in. -/
theorem Revoked.not_signedIn {db : Database} (revoked : Revoked account claims db)
    {ctx : AppCtx} (sent : ctx.claims = some claims) (me : User) :
    ¬ SignedIn ctx db me := by
  rintro ⟨claims', email, sent', named', found, epoch'⟩
  cases Option.some.inj (sent.symm.trans sent')
  obtain ⟨named, user, member, at_account, epoch⟩ := revoked
  cases Option.some.inj (named.symm.trans named')
  obtain ⟨member', email'⟩ := mem_of_userByEmail found
  have same : me = user := Table.eq_of_conflict User.conflict_symm member' member
    (.inr (email'.trans at_account.symm))
  subst same
  omega

end Tokens

end TimeTracker.Client.Session
