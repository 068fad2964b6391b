import TimeTracker.Crypto.Ceremony
import TimeTracker.Tab.System

/-!
# The unlock that rides a sign-in

The passkey that signs in has evaluated its PRF already, so the page asks three
times in a row, whose session it has now, whether that account is encrypted, and
which wraps it has, and files the key that its own wrap opens for the next page
load to find.  Each answer is the one of the session the request happened to carry.
-/

namespace TimeTracker.Client.AfterSignIn

open TimeTracker.Text
open TimeTracker.Crypto.Wire
open TimeTracker.Crypto.Ceremony
open TimeTracker.Server.Functions
open TimeTracker.Tab.State
open TimeTracker.Tab.System

/-- Where `unlock_after_sign_in` is suspended. -/
inductive UnlockStage (K : Type)
  /-- Awaiting `current_session`. -/
  | naming
  /-- Awaiting `encryption_status`. -/
  | checking (user : String)
  /-- Awaiting `encryption_wraps`, and the key one of them opens. -/
  | fetching (user : String)
  /-- About to enter `SessionKey::remember`. -/
  | holding (key : SessionKey K)
  /-- `remember`, awaiting the keystore. -/
  | remembering (key : SessionKey K)
  | finished
  deriving DecidableEq, Repr

/-- The key a sign-in has opened. -/
def UnlockStage.key? {K : Type} : UnlockStage K → Option (SessionKey K)
  | .holding key | .remembering key => some key
  | .naming | .checking _ | .fetching _ | .finished => none

/-- A sign-in that unlocks: the passkey that asserted, and the forget count before the
first await. -/
structure SignIn (K : Type) where
  credentialId : Bytes
  forgets : Forgets
  stage : UnlockStage K
  deriving DecidableEq, Repr

section Steps

variable {K : Type}

/-- The key that the passkey's own wrap holds, filed under this user. -/
def openRoute (suite : KeySuite K) (prfOutput : Bytes) (wraps : List WrapDto)
    (credentialId : Bytes) (user : String) (forgets : Forgets) : Option (SessionKey K) := do
  let route ← chooseRoute wraps (some credentialId)
  (unlockWithPrf suite prfOutput route.wrappedKey user forgets).toOption

namespace SignIn

/-- `passkey_login_finish` has answered. -/
def begun (credentialId : Bytes) (forgets : Forgets) : SignIn K :=
  { credentialId, forgets, stage := .naming }

def goTo (signIn : SignIn K) (stage : UnlockStage K) : SignIn K :=
  { signIn with stage }

/-- `current_session` answers: without a session there is no account to unlock. -/
def sessionAnswered (signIn : SignIn K) (session : Option String) : Option (SignIn K) :=
  match signIn.stage with
  | .naming =>
      some (signIn.goTo (match session with
        | some user => .checking user
        | none => .finished))
  | _ => none

/-- `encryption_status` answers; which account it answers for is not looked at. -/
def statusAnswered (signIn : SignIn K) (status : EncryptionStatus) : Option (SignIn K) :=
  match signIn.stage with
  | .checking user =>
      some (signIn.goTo (if status.enabled then .fetching user else .finished))
  | _ => none

/-- `encryption_wraps` answers, and the passkey's own wrap is opened if it is among them. -/
def wrapsAnswered (suite : KeySuite K) (prfOutput : Bytes) (signIn : SignIn K)
    (wraps : List WrapDto) : Option (SignIn K) :=
  match signIn.stage with
  | .fetching user =>
      let opened := openRoute suite prfOutput wraps signIn.credentialId user signIn.forgets
      some (signIn.goTo (match opened with
        | some key => .holding key
        | none => .finished))
  | _ => none

/-- `SessionKey::remember` up to its await: it refuses when this page load has been
asked to forget the device's key since. -/
def remember (page : Page K) (signIn : SignIn K) : Option (SignIn K) :=
  match signIn.stage with
  | .holding key =>
      some (signIn.goTo (if page.stillCurrent key.forgets then .remembering key else .finished))
  | _ => none

/-- The keystore commits the record. -/
def put (signIn : SignIn K) : Option (SignIn K × Record K) :=
  match signIn.stage with
  | .remembering key => some (signIn.goTo .finished, { user := key.user, key := key.key })
  | _ => none

/-- An await fails; the sign-in itself stands. -/
def failed (signIn : SignIn K) : Option (SignIn K) :=
  match signIn.stage with
  | .naming | .checking _ | .fetching _ | .remembering _ => some (signIn.goTo .finished)
  | .holding _ | .finished => none

end SignIn

/-! ## Which key a sign-in holds -/

variable {suite : KeySuite K} {prfOutput : Bytes} {wraps : List WrapDto} {page : Page K}
  {signIn later : SignIn K} {key : SessionKey K}

/-- Before the wraps there is no key. -/
theorem sessionAnswered_key {session : Option String}
    (moved : signIn.sessionAnswered session = some later) : later.stage.key? = none := by
  unfold SignIn.sessionAnswered at moved
  split at moved
  · cases moved
    cases session <;> rfl
  · cases moved

theorem statusAnswered_key {status : EncryptionStatus}
    (moved : signIn.statusAnswered status = some later) : later.stage.key? = none := by
  unfold SignIn.statusAnswered at moved
  split at moved
  · cases moved
    cases enabled : status.enabled <;> simp [SignIn.goTo, UnlockStage.key?]
  · cases moved

/-- The key a sign-in comes to hold is the one its passkey opens for the account it
was told. -/
theorem wrapsAnswered_key (moved : signIn.wrapsAnswered suite prfOutput wraps = some later)
    (holds : later.stage.key? = some key) :
    ∃ user, signIn.stage = .fetching user ∧
      openRoute suite prfOutput wraps signIn.credentialId user signIn.forgets = some key := by
  unfold SignIn.wrapsAnswered at moved
  split at moved
  · next user at_stage =>
      cases moved
      cases opened : openRoute suite prfOutput wraps signIn.credentialId user signIn.forgets with
      | none =>
          rw [opened] at holds
          cases holds
      | some found =>
          rw [opened] at holds
          cases holds
          exact ⟨user, at_stage, opened⟩
  · cases moved

/-- From then on the key is kept or lost. -/
theorem remember_key (moved : signIn.remember page = some later)
    (holds : later.stage.key? = some key) : signIn.stage.key? = some key := by
  unfold SignIn.remember at moved
  split at moved
  · next held at_stage =>
      cases moved
      rw [at_stage]
      by_cases current : page.stillCurrent held.forgets = true
      · simpa [SignIn.goTo, UnlockStage.key?, current] using holds
      · simp [SignIn.goTo, current, UnlockStage.key?] at holds
  · cases moved

theorem failed_key (moved : signIn.failed = some later) : later.stage.key? = none := by
  unfold SignIn.failed at moved
  split at moved <;> cases moved <;> rfl

/-- What reaches the keystore is the key held, under the account it was opened for. -/
theorem put_key {record : Record K} (moved : signIn.put = some (later, record)) :
    later.stage.key? = none ∧
      ∃ key, signIn.stage.key? = some key ∧ record = { user := key.user, key := key.key } := by
  unfold SignIn.put at moved
  split at moved
  · next held at_stage =>
      cases moved
      exact ⟨rfl, held, congrArg UnlockStage.key? at_stage, rfl⟩
  · cases moved

end Steps

end TimeTracker.Client.AfterSignIn
