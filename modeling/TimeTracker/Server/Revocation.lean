import TimeTracker.Library.Serving
import TimeTracker.Server.Account
import TimeTracker.Server.Deciding
import TimeTracker.Server.SessionToken

/-!
# Signing out everywhere

Sign-ins, sign-outs and authenticated requests interleaved statement by
statement.  A session reads the account's epoch in its last statement, and its
token is minted later; `require_user` accepts it as long as the account's epoch
is still the one that was read.
-/

namespace TimeTracker.Server.Revocation

open TimeTracker.Text
open TimeTracker.Crypto.Wire
open TimeTracker.Date
open TimeTracker.Library
open TimeTracker.Library.Run
open TimeTracker.Library.Atomic
open TimeTracker.Library.Rely
open TimeTracker.Library.Indexed
open TimeTracker.Library.Serving
open TimeTracker.Server.Schema
open TimeTracker.Server.Store
open TimeTracker.Server.Ceremony
open TimeTracker.Server.Functions
open TimeTracker.Server.Execution
open TimeTracker.Server.Outcomes
open TimeTracker.Server.Interference
open TimeTracker.Server.Deciding
open TimeTracker.Server.SessionToken

/-! ## The requests -/

/-- What can be asked of the server: a session to begin or to end, or a request
that presents one. -/
inductive Request
  | magicSignIn (email : String) (now : Timestamp)
  | passkeyLoginFinish (ctx : AppCtx) (responseJson : String)
  | logout
  | signOutEverywhere (ctx : AppCtx)
  | call (ctx : AppCtx) (call : Account.Call)
  | status (ctx : AppCtx)
  | wraps (ctx : AppCtx)
  | load (ctx : AppCtx) (date : String)

/-- The server function of a request; what it reads is not followed here. -/
def Request.handler (wa : Webauthn) : Request → Handler Unit
  | .magicSignIn email now => Functions.magicSignIn email now
  | .passkeyLoginFinish ctx responseJson => Functions.passkeyLoginFinish wa ctx responseJson
  | .logout => Functions.logout
  | .signOutEverywhere ctx => Functions.signOutEverywhere ctx
  | .call ctx asked => Account.handle wa ctx asked
  | .status ctx => do
      let _ ← encryptionStatus ctx
      return ()
  | .wraps ctx => do
      let _ ← encryptionWraps ctx
      return ()
  | .load ctx date => do
      let _ ← entryLoad ctx date
      return ()

/-- The request begins no session. -/
def Request.Other : Request → Prop
  | .magicSignIn _ _ => False
  | .passkeyLoginFinish _ _ => False
  | _ => True

def serve (wa : Webauthn) (request : Request) :
    Program Database Site DbError (Reply Unit) :=
  (request.handler wa).run.run none

/-- Requests in progress, each under a number of its own. -/
abbrev Sessions := Service Database Site DbError Nat Request (Reply Unit)

abbrev Event := Serving.Event Nat Request DbError

/-! ## What a statement does to the accounts -/

/-- Every account's address is a normalized one. -/
def Normal (db : Database) : Prop :=
  ∀ user ∈ db.users, normalizeEmail user.email = some user.email

/-- Accounts keep their ids and addresses, and their epochs but for the one the
statement raises; a statement that raises one does nothing else. -/
structure Tracks (site : Site) (before after : Database) : Prop where
  users : ∀ user ∈ before.users, ∃ user' ∈ after.users, user'.id = user.id ∧
    user'.email = user.email ∧
    user'.sessionEpoch = user.sessionEpoch + if site = .bumpEpoch user.id then 1 else 0
  normal : Normal before → Normal after
  raises : ∀ userId, site = .bumpEpoch userId → after = effect (bumpEpoch userId) before

/-- The session a response sets was read from an account as it is. -/
def Vouched (reply : Reply Unit) (db : Database) : Prop :=
  ∀ claims, reply.2 = some (.session claims) →
    ∃ user ∈ db.users, user.email = claims.email ∧ user.sessionEpoch = claims.epoch

/-- The others may do anything in between. -/
abbrev Free (_ _ : Database) : Prop := True

/-- The statement raises no epoch. -/
def Quiet (site : Site) : Prop :=
  ∀ userId, site ≠ .bumpEpoch userId

section Statements

variable {site : Site} {before after : Database} {α : Type} {statement : Sql α}

theorem Tracks.keepsUsers (tracks : Tracks site before after) : KeepsUsers before after := by
  intro user member
  obtain ⟨user', member', id, email, -⟩ := tracks.users user member
  exact ⟨user', member', id, email⟩

theorem Tracks.of_users (quiet : Quiet site) (users : after.users = before.users) :
    Tracks site before after := by
  constructor
  · intro user member
    exact ⟨user, users ▸ member, rfl, rfl, by rw [if_neg (quiet user.id), Int.add_zero]⟩
  · intro normal user member
    exact normal user (users ▸ member)
  · exact fun userId raises => absurd raises (quiet userId)

theorem quiet_of_isRead (reads : isRead site = true) : Quiet site := by
  rintro userId rfl
  cases reads

theorem idle_tracks (db : Database) : Idle Free Tracks db :=
  fun _ _ _ reads => Tracks.of_users (quiet_of_isRead reads) rfl

/-- A statement that leaves the accounts alone. -/
theorem tracks_effect (quiet : Quiet site)
    (users : ∀ value next, statement before = .ok (value, next) → next.users = before.users) :
    Tracks site before (effect statement before) := by
  apply Tracks.of_users quiet
  cases ran : statement before with
  | error failure => rw [effect_of_error ran]
  | ok pair =>
      rw [effect_of_ok ran]
      exact users pair.1 pair.2 ran

/-- A statement that rewrites one account, but not its epoch. -/
theorem Tracks.of_rewrite {userId : Int} {change : User → User} (quiet : Quiet site)
    (users : ∀ user, user ∈ after.users ↔ ∃ old ∈ before.users,
      (if old.id = userId then change old else old) = user)
    (keeps : ∀ user, (change user).id = user.id ∧ (change user).email = user.email ∧
      (change user).sessionEpoch = user.sessionEpoch) : Tracks site before after := by
  have same : ∀ user : User,
      (if user.id = userId then change user else user).id = user.id ∧
        (if user.id = userId then change user else user).email = user.email ∧
        (if user.id = userId then change user else user).sessionEpoch = user.sessionEpoch := by
    intro user
    split
    · exact keeps user
    · exact ⟨rfl, rfl, rfl⟩
  constructor
  · intro user member
    refine ⟨_, (users _).mpr ⟨user, member, rfl⟩, (same user).1, (same user).2.1, ?_⟩
    rw [if_neg (quiet user.id), Int.add_zero]
    exact (same user).2.2
  · intro normal user member
    obtain ⟨old, present, rfl⟩ := (users user).mp member
    rw [(same old).2.1]
    exact normal old present
  · exact fun userId raises => absurd raises (quiet userId)

theorem tracks_bumpEpoch (userId : Int) (before : Database) :
    Tracks (.bumpEpoch userId) before (effect (bumpEpoch userId) before) := by
  constructor
  · intro user member
    refine ⟨_, mem_bumpEpoch.mpr ⟨user, member, rfl⟩, ?_⟩
    by_cases own : user.id = userId
    · simp [own]
    · have other : Site.bumpEpoch userId ≠ .bumpEpoch user.id :=
        fun same => own (Site.bumpEpoch.inj same).symm
      simp [own, other]
  · intro normal user member
    obtain ⟨old, present, rfl⟩ := mem_bumpEpoch.mp member
    split
    · exact normal old present
    · exact normal old present
  · rintro other same
    rw [Site.bumpEpoch.inj same]

/-- The account a sign-in ends on is one of its address, as it is. -/
theorem findOrCreate_user {email : String} {now : Timestamp} {user : User}
    (ran : findOrCreate email now before = .ok (user, after)) :
    user ∈ after.users ∧ Tracks .findOrCreate before after := by
  have quiet : Quiet .findOrCreate := fun _ => nofun
  obtain ⟨-, refused⟩ | ⟨normalized, named, ⟨found, here, answered⟩ |
    ⟨-, next, answered, registered⟩⟩ := findOrCreate_cases email now before
  · cases refused.symm.trans ran
  · cases answered.symm.trans ran
    exact ⟨(mem_of_userByEmail here).1, Tracks.of_users quiet rfl⟩
  · cases answered.symm.trans ran
    refine ⟨registered.mem_users.mpr (Or.inr rfl), ?_, ?_, ?_⟩
    · intro old member
      exact ⟨old, registered.mem_users.mpr (Or.inl member), rfl, rfl,
        by rw [if_neg (quiet old.id), Int.add_zero]⟩
    · intro normal other member
      rcases registered.mem_users.mp member with old | rfl
      · exact normal other old
      · exact normalizeEmail_idem named
    · exact fun userId raises => absurd raises (quiet userId)

/-- A statement commits nothing, or leaves the accounts alone. -/
theorem Tracks.of_ran (quiet : Quiet site)
    (ran : ∀ value next, statement before = .ok (value, next) →
      Tracks site before next) : Tracks site before (effect statement before) := by
  cases outcome : statement before with
  | error failure =>
      rw [effect_of_error outcome]
      exact Tracks.of_users quiet rfl
  | ok pair =>
      rw [effect_of_ok outcome]
      exact ran pair.1 pair.2 outcome

theorem tracks_enableTransaction {userId : Int} {passkey : Option PasskeyWrapDto}
    {encryptionKeyWrap : Bytes} {now : Timestamp} {outcome : Except String Unit}
    (quiet : Quiet site)
    (ran : enableTransaction userId passkey encryptionKeyWrap now before =
      .ok (outcome, after)) : Tracks site before after := by
  obtain ⟨rfl, -⟩ | ⟨-, -, -, enabled⟩ := enableTransaction_eq_ok ran
  · exact Tracks.of_users quiet rfl
  · exact Tracks.of_rewrite quiet enabled.users fun user => ⟨rfl, rfl, rfl⟩

theorem users_replaceEncryptionKeyWrap {userId : Int} {wrappedKey : Bytes}
    {now : Timestamp} {value : Unit}
    (ran : replaceEncryptionKeyWrap userId wrappedKey now before = .ok (value, after)) :
    after.users = before.users := by
  obtain ⟨rfl, -⟩ | replaced := replaceEncryptionKeyWrap_eq_ok ran
  · rfl
  · exact replaced.users

theorem users_deleteTransaction {userId id : Int} {outcome : Except String Unit}
    (ran : deleteTransaction userId id before = .ok (outcome, after)) :
    after.users = before.users := by
  obtain ⟨rfl, -⟩ | ⟨target, -, -, deleted⟩ := deleteTransaction_eq_ok ran
  · rfl
  · exact deleted.users

theorem users_saveTransaction {userId : Int} {date : NaiveDate} {body : String}
    {now : Timestamp} {outcome : Except String Unit}
    (ran : saveTransaction userId date body now before = .ok (outcome, after)) :
    after.users = before.users := by
  obtain ⟨rfl, -⟩ | ⟨-, -, saved⟩ := saveTransaction_eq_ok ran
  · rfl
  · exact (Database.upsertEntry_eq_ok saved).2.1

end Statements

/-! ## What a request does -/

section Requests

variable {ctx : AppCtx} {db : Database}

theorem vouched_of_no_session {result : Except String Unit} {header : Option SetCookie}
    (none : ∀ claims, header ≠ some (.session claims)) : Vouched (result, header) db :=
  fun claims set => absurd set (none claims)

theorem serves_call {post : Reply Unit → Database → Prop} (wa : Webauthn)
    (asked : Account.Call)
    (ends : ∀ result header later, (∀ claims, header ≠ some (.session claims)) →
      post (result, header) later) :
    Serves Free Tracks post (Account.handle wa ctx asked) none db := by
  have refused : ∀ later (message : String), Since Free db later →
      post (.error message, none) later :=
    fun later _ _ => ends _ _ later nofun
  cases asked with
  | encryptionEnable passkey encryptionKeyWrap =>
      refine serves_encryptionEnable (idle_tracks db) refused ?_
      intro before later me _ signedIn _
      refine ⟨Tracks.of_ran (fun _ => nofun) fun outcome next ran =>
        tracks_enableTransaction (fun _ => nofun) ran, ?_⟩
      exact fun _ next _ => ends _ _ next nofun
  | encryptionAddPasskeyWrap credentialId wrappedKey =>
      refine serves_encryptionAddPasskeyWrap (idle_tracks db) refused ?_
      intro before later me _ signedIn _
      refine ⟨tracks_effect (fun _ => nofun) fun value next ran => ?_, ?_⟩
      · obtain ⟨id, inserted⟩ := wrapInserted ran
        exact inserted.users
      · exact fun _ next _ => ends _ _ next nofun
  | encryptionReplaceKeyWrap wrappedKey =>
      refine serves_encryptionReplaceKeyWrap (idle_tracks db) refused ?_
      intro before later me _ signedIn _
      exact ⟨tracks_effect (fun _ => nofun) fun _ _ => users_replaceEncryptionKeyWrap,
        fun _ next _ => ends _ _ next nofun⟩
  | passkeyRegisterFinish responseJson prfCapable =>
      refine serves_passkeyRegisterFinish (idle_tracks db)
        (fun later _ _ _ none => ends _ _ later none) ?_
      intro credentialId blob before later me _ signedIn _
      refine ⟨tracks_effect (fun _ => nofun) fun value next ran =>
        (Outcomes.insertPasskey_eq_ok ran).2.1, ?_⟩
      exact fun _ next _ => ends _ _ next nofun
  | passkeyDelete id =>
      refine serves_passkeyDelete (idle_tracks db) refused ?_
      intro before later me _ signedIn _
      exact ⟨tracks_effect (fun _ => nofun) fun _ _ => users_deleteTransaction,
        fun _ next _ => ends _ _ next nofun⟩
  | entrySave date body =>
      refine serves_entrySave (idle_tracks db) refused ?_
      intro day before later me _ signedIn _
      exact ⟨tracks_effect (fun _ => nofun) fun _ _ => users_saveTransaction,
        fun _ next _ => ends _ _ next nofun⟩

/-- A request that begins no session moves the epochs only by its own `bump_epoch`, and
sets none. -/
theorem serves_other {post : Reply Unit → Database → Prop} (wa : Webauthn)
    (request : Request) (other : request.Other) (db : Database)
    (ends : ∀ result header later, (∀ claims, header ≠ some (.session claims)) →
      post (result, header) later) :
    Serves Free Tracks post (request.handler wa) none db := by
  have refused : ∀ later (message : String), Since Free db later →
      post (.error message, none) later :=
    fun later _ _ => ends _ _ later nofun
  cases request with
  | magicSignIn email now => exact other.elim
  | passkeyLoginFinish ctx responseJson => exact other.elim
  | logout => exact serves_setCookie (ends _ _ db nofun)
  | signOutEverywhere ctx =>
      refine serves_signOutEverywhere (idle_tracks db) refused ?_
      intro before later me _ signedIn _
      exact ⟨tracks_bumpEpoch me.id later, fun _ next _ => ends _ _ next nofun⟩
  | call ctx asked => exact serves_call wa asked ends
  | status ctx =>
      refine serves_bind (serves_encryptionStatus (idle_tracks db) refused ?_)
      exact fun _ later _ _ _ _ _ _ => serves_pure (ends _ _ later nofun)
  | wraps ctx =>
      refine serves_bind (serves_encryptionWraps (idle_tracks db) refused ?_)
      exact fun _ later _ _ _ _ _ _ => serves_pure (ends _ _ later nofun)
  | load ctx date =>
      refine serves_bind (serves_entryLoad (idle_tracks db) refused ?_)
      exact fun later _ _ => serves_pure (ends _ _ later nofun)

/-- Every request moves the epochs only by its own `bump_epoch`, and sets a session
only from an account it read last. -/
theorem serves_request (wa : Webauthn) (request : Request) (db : Database) :
    Obeys .any Free Tracks Vouched (serve wa request) db := by
  show Serves Free Tracks Vouched (request.handler wa) none db
  have ends : ∀ result header later, (∀ claims, header ≠ some (.session claims)) →
      Vouched (result, header) later :=
    fun _ _ _ => vouched_of_no_session
  cases request with
  | magicSignIn email now =>
      refine serves_magicSignIn (fun later _ => ?_) ?_ fun _ _ => vouched_of_no_session nofun
      · exact Tracks.of_ran (fun _ => nofun) fun user next ran => (findOrCreate_user ran).2
      · rintro later user next _ ran claims ⟨⟩
        exact ⟨user, (findOrCreate_user ran).1, rfl, rfl⟩
  | passkeyLoginFinish ctx responseJson =>
      refine serves_passkeyLoginFinish (idle_tracks db)
        (fun _ _ _ _ none => vouched_of_no_session none) ?_
      intro later row blob _ _ _
      refine ⟨Tracks.of_users (fun _ => nofun) rfl, idle_tracks _, ?_⟩
      intro last _
      refine ⟨vouched_of_no_session nofun, ?_⟩
      rintro owner member - claims ⟨⟩
      exact ⟨owner, member, rfl, rfl⟩
  | logout => exact serves_other wa .logout trivial db ends
  | signOutEverywhere ctx => exact serves_other wa (.signOutEverywhere ctx) trivial db ends
  | call ctx asked => exact serves_other wa (.call ctx asked) trivial db ends
  | status ctx => exact serves_other wa (.status ctx) trivial db ends
  | wraps ctx => exact serves_other wa (.wraps ctx) trivial db ends
  | load ctx date => exact serves_other wa (.load ctx date) trivial db ends

end Requests

/-! ## Along a run -/

/-- The account whose epoch an event raises, if any. -/
def bumped? (service : Sessions) : Event → Option Int
  | .execute id =>
      match service.nextSite? id with
      | some (.bumpEpoch userId) => some userId
      | _ => none
  | _ => none

/-- The accounts whose epochs a run raises, as often as it raises them. -/
def bumps (wa : Webauthn) (service : Sessions) : List Event → List Int
  | [] => []
  | event :: rest =>
      match step (serve wa) service event with
      | none => []
      | some next => (bumped? service event).toList ++ bumps wa next rest

section Runs

variable {wa : Webauthn} {service next last : Sessions} {event : Event}
  {events : List Event}

theorem count_bumped? (id : Nat) {site : Site} (at_site : service.nextSite? id = some site)
    (userId : Int) : ((bumped? service (.execute id)).toList.count userId : Int) =
      if site = .bumpEpoch userId then 1 else 0 := by
  unfold bumped?
  simp only [at_site]
  split
  · next other same =>
      cases same
      by_cases own : other = userId <;> simp [own]
  · next quiet =>
      rw [if_neg fun same => quiet userId (congrArg some same)]
      rfl

theorem bumped?_of_not_execute (other : ∀ id, event ≠ .execute id) :
    bumped? service event = none := by
  cases event with
  | execute id => exact absurd rfl (other id)
  | start id request => rfl
  | fail id failure => rfl

/-- The requests in progress keep to what they promise, and addresses are normal. -/
structure Sound (service : Sessions) : Prop where
  promises : service.Promises Tracks Vouched
  normal : Normal service.store

theorem sound_idle : Sound (.idle .empty) := by
  constructor
  · exact nofun
  · intro user member
    exact absurd member (Table.not_mem_empty user)

/-- Between two moments an account keeps its id and address, and its epoch rises once
for every time it is raised. -/
def Counts (raised : List Int) (before after : Database) : Prop :=
  ∀ user ∈ before.users, ∃ user' ∈ after.users, user'.id = user.id ∧
    user'.email = user.email ∧
    user'.sessionEpoch = user.sessionEpoch + raised.count user.id

theorem Counts.refl (db : Database) : Counts [] db db :=
  fun user member => ⟨user, member, rfl, rfl, by simp⟩

theorem Counts.trans {first second : List Int} {before middle after : Database}
    (left : Counts first before middle) (right : Counts second middle after) :
    Counts (first ++ second) before after := by
  intro user member
  obtain ⟨middleUser, middleMember, id, email, epoch⟩ := left user member
  obtain ⟨lastUser, lastMember, id', email', epoch'⟩ := right middleUser middleMember
  refine ⟨lastUser, lastMember, id'.trans id, email'.trans email, ?_⟩
  rw [epoch', epoch, id, List.count_append]
  push_cast
  omega

theorem Sound.step (sound : Sound service)
    (taken : Serving.step (serve wa) service event = some next) :
    Sound next ∧ Counts (bumped? service event).toList service.store next.store ∧
      (∀ userId, bumped? service event = some userId →
        next.store = effect (bumpEpoch userId) service.store) ∧
      ∀ request reply, service.answered? event.call = none →
        next.answered? event.call = some (request, reply) → Vouched reply next.store := by
  obtain ⟨promises, moved, answers⟩ :=
    step_promises (serves_request wa) sound.promises taken
  obtain ⟨same, other⟩ | ⟨id, site, rfl, at_site, tracks⟩ := moved
  · rw [bumped?_of_not_execute other, same]
    exact ⟨⟨promises, same ▸ sound.normal⟩, Counts.refl _, nofun, same ▸ answers⟩
  · refine ⟨⟨promises, tracks.normal sound.normal⟩, ?_, ?_, answers⟩
    · intro user member
      rw [count_bumped? id at_site]
      exact tracks.users user member
    · intro userId raises
      apply tracks.raises
      simp only [bumped?, at_site] at raises
      split at raises
      · next other same =>
          cases raises
          exact Option.some.inj same
      · cases raises

theorem Sound.run (sound : Sound service)
    (ran : runFrom (Serving.step (serve wa)) service events = some last) :
    Sound last ∧ Counts (bumps wa service events) service.store last.store := by
  induction events generalizing service with
  | nil =>
      cases ran
      exact ⟨sound, Counts.refl _⟩
  | cons event rest ih =>
      obtain ⟨middle, taken, ran⟩ := runFrom_cons_eq_some.mp ran
      obtain ⟨sound', counts, -⟩ := sound.step taken
      obtain ⟨sound'', counts'⟩ := ih sound' ran
      refine ⟨sound'', ?_⟩
      simp only [bumps, taken]
      exact counts.trans counts'

end Runs

/-! ## Accepting a token -/

section Accepting

variable (signing : Signing) (key : Bytes)

/-- The context of a request that presents this cookie. -/
def contextOf (raw : String) (now : Int) : AppCtx :=
  { claims := (verifyAt signing raw now key).toOption, passkeyState := none, now }

/-- What `require_user` answers to a request that presents this cookie. -/
def requireUserAt (raw : String) (now : Int) (db : Database) : Except String User :=
  (execute (requireUser (contextOf signing key raw now)) none ⟨none, db, []⟩).1.1

/-- `require_user` lets the request through. -/
def Accepts (raw : String) (now : Int) (db : Database) : Prop :=
  ∃ me, requireUserAt signing key raw now db = .ok me

variable {signing key} {raw : String} {now : Int} {db : Database} {me : User}

theorem requireUserAt_eq_ok :
    requireUserAt signing key raw now db = .ok me ↔
      SignedIn (contextOf signing key raw now) db me := by
  constructor
  · have ensured : Ensures (requireUser (contextOf signing key raw now)) db []
        fun reply _ _ => ∀ me, reply = .ok me → SignedIn (contextOf signing key raw now) db me := by
      apply ensures_requireUser
      · rintro me log signedIn - other ⟨⟩
        exact signedIn
      · exact fun _ _ _ _ => nofun
    exact ensured none none me
  · intro signedIn
    rw [requireUserAt, signedIn.execute_requireUser]

/-- The email index finds every account. -/
theorem userByEmail_of_mem {user : User} (member : user ∈ db.users) :
    userByEmail db user.email = some user := by
  cases search : userByEmail db user.email with
  | none => exact absurd (List.find?_eq_none.mp search user member) (by simp)
  | some other =>
      obtain ⟨present, email⟩ := mem_of_userByEmail search
      rw [Table.eq_of_conflict User.conflict_symm present member (Or.inr email)]

/-- What a request asserts that presents an issued token. -/
theorem claims_contextOf (signing : Signing) (key : Bytes) (now : Int) (email : String)
    {epoch issued : Int} (issuable : Issuable epoch issued) :
    (contextOf signing key (issueAt signing email epoch issued key) now).claims =
      if issued ≤ now + SKEW_TOLERANCE_SECS ∧ now < issued + MAX_AGE_SECONDS then
        some { email, epoch } else none := by
  rw [contextOf, verifyAt_issueAt issuable]
  split
  · next early => rw [if_neg fun inside => absurd inside.1 (by omega)]; rfl
  split
  · next late => rw [if_neg fun inside => absurd inside.2 (by omega)]; rfl
  · next early late => rw [if_pos ⟨by omega, by omega⟩]; rfl

/-- A token of a live account is accepted in its window if its epoch is the
account's. -/
theorem accepts_issueAt {user : User} {epoch issued : Int} (normal : Normal db)
    (member : user ∈ db.users) (issuable : Issuable epoch issued) :
    Accepts signing key (issueAt signing user.email epoch issued key) now db ↔
      user.sessionEpoch = epoch ∧ issued ≤ now + SKEW_TOLERANCE_SECS ∧
        now < issued + MAX_AGE_SECONDS := by
  have found := userByEmail_of_mem member
  have claimed := claims_contextOf signing key now user.email issuable
  constructor
  · rintro ⟨me, accepted⟩
    obtain ⟨claims, email, holds, named, at_email, same⟩ := requireUserAt_eq_ok.mp accepted
    rw [claimed] at holds
    split at holds
    · next inside =>
        cases holds
        cases (normal user member).symm.trans named
        cases found.symm.trans at_email
        exact ⟨same, inside⟩
    · cases holds
  · rintro ⟨same, inside⟩
    refine ⟨user, requireUserAt_eq_ok.mpr ?_⟩
    refine ⟨{ email := user.email, epoch }, user.email, ?_, normal user member, found, same⟩
    rw [claimed, if_pos inside]

/-- Raising one account's epoch changes nothing for requests of the others. -/
theorem requireUserAt_bumpEpoch {userId : Int} (other : me.id ≠ userId) :
    requireUserAt signing key raw now (effect (bumpEpoch userId) db) = .ok me ↔
      requireUserAt signing key raw now db = .ok me := by
  rw [requireUserAt_eq_ok, requireUserAt_eq_ok]
  constructor
  · rintro ⟨claims, email, holds, named, found, epoch⟩
    obtain ⟨member, at_email⟩ := mem_of_userByEmail found
    obtain ⟨old, present, same⟩ := mem_bumpEpoch.mp member
    have apart : old.id ≠ userId := by
      rintro rfl
      rw [if_pos rfl] at same
      exact other (same ▸ rfl)
    rw [if_neg apart] at same
    subst same
    exact ⟨claims, email, holds, named, at_email ▸ userByEmail_of_mem present, epoch⟩
  · rintro ⟨claims, email, holds, named, found, epoch⟩
    obtain ⟨member, at_email⟩ := mem_of_userByEmail found
    have present := mem_bumpEpoch.mpr ⟨me, member, if_neg other⟩
    exact ⟨claims, email, holds, named, at_email ▸ userByEmail_of_mem present, epoch⟩

end Accepting

/-! ## Signing out everywhere -/

/-- The response of this call sets a session that asserts `claims`. -/
def SetsSession (service : Sessions) (id : Nat) (claims : SessionClaims) : Prop :=
  ∃ request outcome, service.answered? id = some (request, outcome, some (.session claims))

/-- Along the run a call read the session it answers with, in the event that leads to
`middle`; `later` is the rest of the run. -/
def ReadAt (wa : Webauthn) (events : List Event) (claims : SessionClaims)
    (middle : Sessions) (later : List Event) : Prop :=
  ∃ past reading before, events = past ++ reading :: later ∧
    runFrom (step (serve wa)) (.idle .empty) past = some before ∧
    step (serve wa) before reading = some middle ∧
    before.answered? reading.call = none ∧ SetsSession middle reading.call claims

/-- If the text ends in the tag of what comes before it, then that was signed for a
session some response set. -/
def SignedHere (signing : Signing) (key : Bytes) (service : Sessions) (raw : String) : Prop :=
  ∀ signed, raw.toList = signed ++ '.' :: sign signing signed key →
    ∃ id claims issued, SetsSession service id claims ∧ Issuable claims.epoch issued ∧
      signed = payload signing claims.email claims.epoch issued

/-- What a run makes of the sessions read along it. -/
structure Revokes (wa : Webauthn) (signing : Signing) (key : Bytes) (events : List Event)
    (last : Sessions) : Prop where
  /-- A token is accepted in its window unless its account's epoch was raised since
  the token's epoch was read. -/
  own : ∀ claims middle later, ReadAt wa events claims middle later →
    ∃ user ∈ middle.store.users,
      claims = { email := user.email, epoch := user.sessionEpoch } ∧
      ∀ issued now, Issuable claims.epoch issued →
        (Accepts signing key (issueAt signing claims.email claims.epoch issued key) now
            last.store ↔
          user.id ∉ bumps wa middle later ∧ issued ≤ now + SKEW_TOLERANCE_SECS ∧
            now < issued + MAX_AGE_SECONDS)
  /-- Raising one account's epoch changes nothing for the others. -/
  others : ∀ past event rest before after userId, events = past ++ event :: rest →
    runFrom (step (serve wa)) (.idle .empty) past = some before →
    step (serve wa) before event = some after → bumped? before event = some userId →
    ∀ raw now me, me.id ≠ userId →
      (requireUserAt signing key raw now after.store = .ok me ↔
        requireUserAt signing key raw now before.store = .ok me)
  /-- Nothing else is accepted. -/
  minted : ∀ raw now, SignedHere signing key last raw →
    Accepts signing key raw now last.store →
    ∃ claims middle later issued, ReadAt wa events claims middle later ∧
      Issuable claims.epoch issued ∧
      raw = issueAt signing claims.email claims.epoch issued key

section Revoking

variable {wa : Webauthn} {signing : Signing} {key : Bytes} {events : List Event}
  {last : Sessions}

/-- What a session read along the run is worth in the end. -/
theorem accepts_of_readAt {claims : SessionClaims} {middle : Sessions} {later : List Event}
    (ran : runFrom (step (serve wa)) (.idle .empty) events = some last)
    (readAt : ReadAt wa events claims middle later) :
    ∃ user ∈ middle.store.users,
      claims = { email := user.email, epoch := user.sessionEpoch } ∧
      ∀ issued now, Issuable claims.epoch issued →
        (Accepts signing key (issueAt signing claims.email claims.epoch issued key) now
            last.store ↔
          user.id ∉ bumps wa middle later ∧ issued ≤ now + SKEW_TOLERANCE_SECS ∧
            now < issued + MAX_AGE_SECONDS) := by
  obtain ⟨past, reading, before, rfl, reached, taken, pending, request, outcome, ended⟩ :=
    readAt
  obtain ⟨before', reached', ran⟩ := runFrom_append_eq_some.mp ran
  cases reached.symm.trans reached'
  obtain ⟨middle', taken', ran⟩ := runFrom_cons_eq_some.mp ran
  cases taken.symm.trans taken'
  obtain ⟨sound, -, -, vouched⟩ := (sound_idle.run reached).1.step taken
  obtain ⟨user, member, email, epoch⟩ := vouched _ _ pending ended claims rfl
  obtain ⟨sound', counts⟩ := sound.run ran
  obtain ⟨user', member', -, email', epoch'⟩ := counts user member
  have named : claims = { email := user.email, epoch := user.sessionEpoch } := by
    rw [email, epoch]
  refine ⟨user, member, named, ?_⟩
  intro issued now issuable
  rw [← email, ← email', accepts_issueAt sound'.normal member' issuable, epoch', epoch,
    ← List.count_eq_zero]
  refine and_congr_left fun _ => ?_
  omega

/-- In every run of sign-ins, sign-outs and requests, a session ends with the next
sign-out everywhere of its own account, and not before. -/
theorem sign_out_everywhere_revokes (wa : Webauthn) (signing : Signing) (key : Bytes)
    {events : List Event} {last : Sessions}
    (ran : runFrom (step (serve wa)) (.idle .empty) events = some last) :
    Revokes wa signing key events last := by
  constructor
  · intro claims middle later readAt
    exact accepts_of_readAt ran readAt
  · intro past event rest before after userId _ reached taken raises raw now me other
    obtain ⟨-, -, raised, -⟩ := (sound_idle.run reached).1.step taken
    rw [raised userId raises]
    exact requireUserAt_bumpEpoch other
  · rintro raw now signedHere ⟨me, accepted⟩
    obtain ⟨claims, -, holds, -⟩ := requireUserAt_eq_ok.mp accepted
    have verified : ∃ claims, verifyAt signing raw now key = .ok claims := by
      cases outcome : verifyAt signing raw now key with
      | error refused => simp [contextOf, outcome, Except.toOption] at holds
      | ok claims => exact ⟨claims, rfl⟩
    obtain ⟨asserted, verified⟩ := verified
    obtain refused | refused | ⟨signed, tagged⟩ := verifyAt_cases signing raw now key
    · cases refused.symm.trans verified
    · cases refused.symm.trans verified
    · obtain ⟨id, claims, issued, ⟨request, outcome, ended⟩, issuable, rfl⟩ :=
        signedHere signed tagged
      obtain ⟨past, reading, later, before, middle, rfl, reached, taken, rfl, pending,
        answered, -⟩ := answered_at ran rfl ended
      refine ⟨claims, middle, later, issued, ?_, issuable, ?_⟩
      · exact ⟨past, reading, before, rfl, reached, taken, pending, request, outcome, answered⟩
      · rw [issueAt, ← tagged, String.ofList_toList]

end Revoking

/-! ## Signing in again -/

/-- Alice's first session, as it signs her out everywhere. -/
def aliceLeaving : AppCtx :=
  { claims := some { email := "alice@example.com", epoch := 0 }
    passkeyState := none
    now := 3 }

/-- Alice signs in, and signs out everywhere while a second sign-in is under way. -/
def signedInAgain : List Event :=
  [.start 0 (.magicSignIn "alice@example.com" 0), .execute 0,
    .start 1 (.signOutEverywhere aliceLeaving), .execute 1,
    .start 2 (.magicSignIn "Alice@Example.com" 5), .execute 1, .execute 2]

/-- Her first session is over, and her second one works. -/
theorem sign_out_everywhere_revokes_again :
    ∃ last, runFrom (step (serve plainWebauthn)) (.idle .empty) signedInAgain = some last ∧
      ¬ Accepts plainSigning [7] (issueAt plainSigning "alice@example.com" 0 1 [7]) 9
        last.store ∧
      Accepts plainSigning [7] (issueAt plainSigning "alice@example.com" 1 6 [7]) 9
        last.store := by
  have first : ∃ middle, ReadAt plainWebauthn signedInAgain
      { email := "alice@example.com", epoch := 0 } middle (signedInAgain.drop 2) ∧
      (∀ user ∈ middle.store.users, user.id = 1) ∧
      bumps plainWebauthn middle (signedInAgain.drop 2) = [1] :=
    ⟨_, ⟨signedInAgain.take 1, .execute 0, _, rfl, rfl, rfl, rfl, _, _, rfl⟩,
      fun user member => List.mem_singleton.mp member ▸ rfl, rfl⟩
  have second : ∃ middle, ReadAt plainWebauthn signedInAgain
      { email := "alice@example.com", epoch := 1 } middle [] :=
    ⟨_, signedInAgain.take 6, .execute 2, _, rfl, rfl, rfl, rfl, _, _, rfl⟩
  obtain ⟨last, ran⟩ : ∃ last, runFrom (step (serve plainWebauthn)) (.idle .empty)
      signedInAgain = some last := ⟨_, rfl⟩
  have revokes := sign_out_everywhere_revokes plainWebauthn plainSigning [7] ran
  refine ⟨last, ran, ?_, ?_⟩
  · obtain ⟨middle, readAt, only, raised⟩ := first
    obtain ⟨user, member, -, accepted⟩ := revokes.own _ _ _ readAt
    rw [accepted 1 9 ⟨by decide, by decide, by decide⟩, raised, only user member]
    simp
  · obtain ⟨middle, readAt⟩ := second
    obtain ⟨user, -, -, accepted⟩ := revokes.own _ _ _ readAt
    rw [accepted 6 9 ⟨by decide, by decide, by decide⟩]
    exact ⟨nofun, by decide, by decide⟩

end TimeTracker.Server.Revocation
