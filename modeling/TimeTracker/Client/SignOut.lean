import TimeTracker.Client.Session
import TimeTracker.Server.Account
import TimeTracker.Server.Deciding

/-!
# What sign-out does to the session

Every request of a browser keeps the accounts ageing, and the only one that
sets the session cookie reads the epoch in its last statement.  So a token is
revoked when the server was done with its request before `sign_out_everywhere`
raised the epoch, and a browser that receives no other token after its sign-out
is answered stays signed out.
-/

namespace TimeTracker.Client.SignOut

open TimeTracker.Text
open TimeTracker.Library.Atomic
open TimeTracker.Library.Rely
open TimeTracker.Library.Run
open TimeTracker.Library.Indexed
open TimeTracker.Server.Schema
open TimeTracker.Server.Store
open TimeTracker.Server.Ceremony
open TimeTracker.Server.Functions
open TimeTracker.Server.Execution
open TimeTracker.Server.Outcomes
open TimeTracker.Server.Interference
open TimeTracker.Server.Deciding hiding serves_signOutEverywhere serves_passkeyLoginFinish
open TimeTracker.Server.Account (enrolP aliceCtx serve)
open TimeTracker.Client.Session

/-- The session a response sets, if any, is this account's. -/
def SetsIssued (account : String) (reply : Reply Unit) (db : Database) : Prop :=
  ∀ claims, reply.2 = some (.session claims) → Issued account claims db

/-- What the response of a request promises: a session it sets is this
account's, and a sign-out that succeeds clears the cookie. -/
def Answers (account : String) (endsSession : Bool) (reply : Reply Unit)
    (db : Database) : Prop :=
  SetsIssued account reply db ∧
    (endsSession = true → reply.1.isOk = true → reply.2 = some .clearSession)

section Serving

variable {account : String} {ctx : AppCtx} {db : Database}

/-! ## Statements -/

/-- Reading keeps the accounts. -/
theorem idle_keeps (db : Database) : Idle Aged (Keeps account) db := by
  rintro later site - reads
  have quiet : raisesEpoch site = false := by
    cases site <;> first | rfl | cases reads
  exact ⟨Aged.refl later, fun raises => absurd raises (by simp [quiet])⟩

/-- Rewriting one account's other columns ages it. -/
theorem aged_of_rewrite {before after : Database} {userId : Int}
    {change : User → User}
    (users : ∀ user, user ∈ after.users ↔ ∃ old ∈ before.users,
      (if old.id = userId then change old else old) = user)
    (keeps : ∀ user, (change user).id = user.id ∧ (change user).email = user.email ∧
      user.sessionEpoch ≤ (change user).sessionEpoch) : Aged before after := by
  intro user member
  refine ⟨_, (users _).mpr ⟨user, member, rfl⟩, ?_⟩
  split
  · exact keeps user
  · exact ⟨rfl, rfl, le_refl _⟩

theorem aged_enableTransaction {userId : Int} {passkey : Option PasskeyWrapDto}
    {encryptionKeyWrap : Bytes} {now : Timestamp} {before after : Database}
    {outcome : Except String Unit}
    (ran : enableTransaction userId passkey encryptionKeyWrap now before =
      .ok (outcome, after)) : Aged before after := by
  obtain ⟨rfl, -⟩ | ⟨-, -, -, enabled⟩ := enableTransaction_eq_ok ran
  · exact Aged.refl _
  · exact aged_of_rewrite enabled.users fun user => ⟨rfl, rfl, le_refl _⟩

theorem aged_replaceEncryptionKeyWrap {userId : Int} {wrappedKey : Bytes}
    {now : Timestamp} {before after : Database} {value : Unit}
    (ran : replaceEncryptionKeyWrap userId wrappedKey now before =
      .ok (value, after)) : Aged before after := by
  obtain ⟨rfl, -⟩ | replaced := replaceEncryptionKeyWrap_eq_ok ran
  · exact Aged.refl _
  · exact Aged.of_users replaced.users

/-- Bumping the account's epoch raises it. -/
theorem keeps_bumpEpoch {userId : Int} {db : Database}
    (known : Known account userId db) :
    Keeps account (.bumpEpoch userId) db (effect (bumpEpoch userId) db) := by
  refine ⟨aged_of_rewrite (fun user => mem_bumpEpoch) fun user => ⟨rfl, rfl, ?_⟩,
    fun _ => ?_⟩
  · show user.sessionEpoch ≤ user.sessionEpoch + 1
    omega
  · intro user member email
    obtain ⟨owner, present, rfl, named⟩ := known
    have same : user = owner := Table.eq_of_conflict User.conflict_symm member present
      (.inr (email.trans named.symm))
    subst same
    refine ⟨_, mem_bumpEpoch.mpr ⟨user, member, rfl⟩, ?_⟩
    simp only [if_true]
    exact ⟨email, by omega⟩

/-- A handler that answers without touching the cookie sets no session. -/
theorem setsIssued_none {result : Except String Unit} {db : Database} :
    SetsIssued account (result, none) db :=
  nofun

theorem setsIssued_clears {result : Except String Unit} {header : SetCookie}
    {db : Database} (clears : ∀ claims, header ≠ .session claims) :
    SetsIssued account (result, some header) db := by
  intro claims same
  exact absurd (Option.some.inj same) (clears claims)

/-! ## Handlers -/

section Requests

variable (named : ∀ claims, ctx.claims = some claims →
    normalizeEmail claims.email = some account)

include named

/-- Who is signed in is the account the session names. -/
theorem known_of_signedIn {me : User} (signedIn : SignedIn ctx db me) :
    Known account me.id db := by
  obtain ⟨claims, email, sent, named', at_email, -⟩ := signedIn
  cases Option.some.inj ((named claims sent).symm.trans named')
  obtain ⟨member, email'⟩ := mem_of_userByEmail at_email
  exact ⟨me, member, rfl, email'⟩

theorem serves_signOutEverywhere :
    Serves Aged (Keeps account) (Answers account true) (signOutEverywhere ctx) none
      db := by
  apply Server.Deciding.serves_signOutEverywhere (idle_keeps db)
  · exact fun later message _ => ⟨setsIssued_none, fun _ => nofun⟩
  · intro before later me _ signedIn since
    have known := known_of_signedIn named signedIn
    exact ⟨keeps_bumpEpoch (known.aged (rely_of_since (Aged.refl _) Aged.trans since)),
      fun _ _ _ => ⟨setsIssued_clears nofun, fun _ _ => rfl⟩⟩

end Requests

/-- A statement that leaves the epochs alone decides without setting a session. -/
theorem decides_of_aged {β : Type} {site : User → Site} {statement : User → Sql β}
    {result : β → Except String Unit} (quiet : ∀ me, raisesEpoch (site me) = false)
    (ages : ∀ me before value after, statement me before = .ok (value, after) →
      Aged before after) :
    Decides Aged (Keeps account) ctx db site statement fun value next =>
      SetsIssued account (result value, none) next := by
  intro before later me _ _ _
  refine ⟨⟨?_, fun raises => absurd raises (by simp [quiet])⟩, fun _ _ _ => setsIssued_none⟩
  cases ran : statement me later with
  | error failure =>
      rw [effect_of_error ran]
      exact Aged.refl later
  | ok pair =>
      rw [effect_of_ok ran]
      exact ages me later pair.1 pair.2 ran

theorem serves_errand (errand : Errand) :
    Serves Aged (Keeps account) (SetsIssued account) (errand.handler ctx) none db := by
  cases errand with
  | status =>
      exact serves_bind (serves_encryptionStatus (idle_keeps db)
        (fun _ _ _ => setsIssued_none) fun _ _ _ _ _ _ _ _ => setsIssued_none)
  | wraps =>
      exact serves_bind (serves_encryptionWraps (idle_keeps db)
        (fun _ _ _ => setsIssued_none) fun _ _ _ _ _ _ _ _ => setsIssued_none)
  | enable passkey encryptionKeyWrap =>
      exact serves_encryptionEnable (idle_keeps db) (fun _ _ _ => setsIssued_none)
        (decides_of_aged (fun _ => rfl) fun _ _ _ _ ran => aged_enableTransaction ran)
  | addPasskeyWrap credentialId wrappedKey =>
      refine serves_encryptionAddPasskeyWrap (idle_keeps db) (fun _ _ _ => setsIssued_none)
        (decides_of_aged (fun _ => rfl) fun _ _ _ _ ran => ?_)
      obtain ⟨id, inserted⟩ := wrapInserted ran
      exact Aged.of_users inserted.users
  | replaceKeyWrap wrappedKey =>
      exact serves_encryptionReplaceKeyWrap (idle_keeps db) (fun _ _ _ => setsIssued_none)
        (decides_of_aged (fun _ => rfl) fun _ _ _ _ ran =>
          aged_replaceEncryptionKeyWrap ran)

/-- `passkey_login_finish`, for a ceremony that asked for this account, sets a
session with the epoch of that account as its last statement reads it. -/
theorem serves_passkeyLoginFinish {wa : Webauthn} {raw : String} {responseJson : String}
    (sent : ctx.passkeyState = some raw) (asked : asksFor wa account ctx.now raw = true) :
    Serves Aged (Keeps account) (SetsIssued account)
      (passkeyLoginFinish wa ctx responseJson) none db := by
  apply Server.Deciding.serves_passkeyLoginFinish (idle_keeps db)
  · exact fun later message header _ plain claims set => absurd set (plain claims)
  · intro later row blob _ answers ⟨raw', state, sent', decoded, asserts⟩
    cases Option.some.inj (sent.symm.trans sent')
    have updated : Aged later (later.updatePasskey row.id blob ctx.now) := Aged.of_users rfl
    refine ⟨⟨updated, nofun⟩, idle_keeps _, fun last since =>
      ⟨setsIssued_clears nofun, fun owner member same claims set => ?_⟩⟩
    cases set
    -- the row that answered belongs to the account the ceremony asked for
    cases state with
    | reg subject reg expiresAt => exact absurd rfl (asserts subject reg expiresAt)
    | discoverableAuth auth expiresAt => simp [asksFor, decoded] at asked
    | auth subject auth expiresAt =>
        have named : normalizeEmail subject = some account := by
          simpa [asksFor, decoded] using asked
        obtain ⟨middle, email, answerer, -, since', named', at_email, answered⟩ :=
          answers raw subject auth expiresAt sent decoded
        cases Option.some.inj (named.symm.trans named')
        obtain ⟨present, email'⟩ := mem_of_userByEmail at_email
        have aged := rely_of_since (Aged.refl _) Aged.trans since
        have aged' := rely_of_since (Aged.refl _) Aged.trans since'
        have known : Known account row.userId last :=
          Known.aged ⟨answerer, present, answered, email'⟩ (aged'.trans (updated.trans aged))
        obtain ⟨user, member', id', email''⟩ := known
        have one : owner = user := Table.eq_of_conflict User.conflict_symm member member'
          (.inl (same.trans id'.symm))
        subst one
        have normalized : normalizeEmail account = some account := normalizeEmail_idem named
        exact ⟨email'' ▸ normalized, owner, member, email'', le_refl _⟩

end Serving

/-! ## Runs of the browser -/

/-- A session-setting response that arrives after a sign-out was answered
belongs to a request the server was done with before an epoch was raised. -/
def ArrivesInTime (browser : Browser) (event : Event) : Prop :=
  ∀ index exchange reply claims, event = .arrive index →
    browser.exchanges[index]? = some exchange →
    result? exchange.program = some (reply, some (.session claims)) →
    browser.signedOut = true → exchange.early = true

/-- What every run whose responses arrive in time keeps. -/
structure Consistent (account : String) (browser : Browser) : Prop where
  named : ∀ claims, browser.cookie = some claims →
    normalizeEmail claims.email = some account
  serves : ∀ exchange ∈ browser.exchanges,
    Obeys .any Aged (Keeps account) (Answers account exchange.endsSession)
      exchange.program browser.db
  early : ∀ exchange ∈ browser.exchanges, exchange.early = true →
    ∃ reply, result? exchange.program = some reply ∧
      ∀ claims, reply.2 = some (.session claims) → Revoked account claims browser.db
  out : browser.signedOut = true → ∀ claims, browser.cookie = some claims →
    Revoked account claims browser.db

namespace Consistent

variable {wa : Webauthn} {account : String} {browser : Browser}

theorem answers_stable {endsSession : Bool} :
    Stable Aged (Answers account endsSession) := by
  intro reply db later ⟨issued, clears⟩ aged
  exact ⟨fun claims set => (issued claims set).aged aged, clears⟩

theorem answers_of_setsIssued {program : Program Database Site DbError (Reply Unit)}
    {db : Database}
    (obeys : Obeys .any Aged (Keeps account) (SetsIssued account) program db) :
    Obeys .any Aged (Keeps account) (Answers account false) program db :=
  obeys.mono fun _ _ issued => ⟨issued, nofun⟩

/-- A request is sent with the cookie of this account. -/
theorem send {endsSession : Bool} {handler : Handler Unit}
    (held : Consistent account browser)
    (serves : Serves Aged (Keeps account) (Answers account endsSession) handler none
      browser.db) :
    Consistent account (browser.send endsSession handler) where
  named := held.named
  out := held.out
  serves := by
    intro exchange member
    obtain old | new := List.mem_append.mp member
    · exact held.serves exchange old
    · rw [List.mem_singleton.mp new]
      exact serves
  early := by
    intro exchange member marked
    obtain old | new := List.mem_append.mp member
    · exact held.early exchange old marked
    · rw [List.mem_singleton.mp new] at marked
      cases marked

/-- Noting an epoch only marks requests the server is done with. -/
theorem mem_noteEpoch {site : Site} {exchange : Exchange}
    (member : exchange ∈ (browser.noteEpoch (some site)).exchanges) :
    ∃ old ∈ browser.exchanges, exchange.program = old.program ∧
      exchange.endsSession = old.endsSession ∧
      (exchange.early = true → old.early = true ∨
        raisesEpoch site = true ∧ (result? old.program).isSome = true) := by
  unfold Browser.noteEpoch at member
  split at member
  · next raises =>
      obtain ⟨old, present, rfl⟩ := List.mem_map.mp member
      exact ⟨old, present, rfl, rfl, fun marked => by simp_all⟩
  · exact ⟨exchange, member, rfl, rfl, Or.inl⟩

theorem noteEpoch_same (site : Option Site) :
    (browser.noteEpoch site).cookie = browser.cookie ∧
      (browser.noteEpoch site).signedOut = browser.signedOut := by
  unfold Browser.noteEpoch
  split <;> exact ⟨rfl, rfl⟩

/-- A statement of one request ages the accounts under all the others. -/
theorem execute {index : Nat} {exchange : Exchange}
    {program : Program Database Site DbError (Reply Unit)} {db : Database}
    (held : Consistent account browser)
    (found : browser.exchanges[index]? = some exchange)
    (ran : advance? exchange.program browser.db = some (program, db)) :
    Consistent account
      { browser.noteEpoch (site? exchange.program) with
        db
        exchanges := (browser.noteEpoch (site? exchange.program)).exchanges.set
          index { exchange with program } } := by
  have member := List.mem_of_getElem? found
  obtain ⟨obeys, site, at_site, aged, raised⟩ :=
    Obeys.advance Aged.refl (held.serves exchange member) (fun _ _ => trivial) ran
  obtain ⟨same_cookie, same_out⟩ : (browser.noteEpoch _).cookie = browser.cookie ∧ _ :=
    noteEpoch_same (site? exchange.program)
  rw [at_site] at same_cookie same_out ⊢
  constructor
  · intro claims holds
    exact held.named claims (same_cookie ▸ holds)
  · intro other present
    obtain old | rfl := List.mem_or_eq_of_mem_set present
    · obtain ⟨original, at_original, same, same_kind, -⟩ := mem_noteEpoch old
      rw [same, same_kind]
      have obeyed := held.serves original at_original
      exact obeyed.later Aged.trans answers_stable aged
    · exact obeys
  · intro other present marked
    obtain old | rfl := List.mem_or_eq_of_mem_set present
    · obtain ⟨original, at_original, same, -, early⟩ := mem_noteEpoch old
      rw [same]
      obtain before | ⟨raises, ended⟩ := early marked
      · obtain ⟨reply, ended, revoked⟩ := held.early original at_original before
        exact ⟨reply, ended, fun claims set => (revoked claims set).aged aged⟩
      · -- the epoch rises over every token issued so far
        obtain ⟨reply, ended⟩ := Option.isSome_iff_exists.mp ended
        refine ⟨reply, ended, fun claims set => ?_⟩
        have issued := ((held.serves original at_original).ended ended).1 claims set
        exact issued.raised (raised raises)
    · obtain ⟨reply, ended, -⟩ := held.early exchange member marked
      rw [result?_of_site? at_site] at ended
      cases ended
  · intro answered claims holds
    exact (held.out (same_out ▸ answered) claims (same_cookie ▸ holds)).aged aged

theorem fail {index : Nat} {exchange : Exchange} {failure : DbError}
    {program : Program Database Site DbError (Reply Unit)}
    (held : Consistent account browser)
    (found : browser.exchanges[index]? = some exchange)
    (ran : abort? exchange.program failure = some program) :
    Consistent account { browser with
      exchanges := browser.exchanges.set index { exchange with program } } := by
  have member := List.mem_of_getElem? found
  refine ⟨held.named, ?_, ?_, held.out⟩
  · intro other present
    obtain old | rfl := List.mem_or_eq_of_mem_set present
    · exact held.serves other old
    · exact (held.serves exchange member).abort Aged.refl (fun _ => trivial) ran
  · intro other present marked
    obtain old | rfl := List.mem_or_eq_of_mem_set present
    · exact held.early other old marked
    · obtain ⟨reply, ended, -⟩ := held.early exchange member marked
      cases program' : exchange.program with
      | done result =>
          rw [program'] at ran
          cases ran
      | atomic site statement next =>
          rw [program'] at ended
          cases ended

/-- A response that arrives in time leaves a signed-out browser without a token
or with a revoked one. -/
theorem arrive {index : Nat} {exchange : Exchange} {reply : Reply Unit}
    (held : Consistent account browser)
    (found : browser.exchanges[index]? = some exchange)
    (ended : result? exchange.program = some reply)
    (inTime : ∀ claims, reply.2 = some (.session claims) →
      browser.signedOut = true → exchange.early = true) :
    Consistent account
      { browser with
        cookie := receive reply.2 browser.cookie
        signedOut := browser.signedOut || (exchange.endsSession && reply.1.isOk)
        exchanges := browser.exchanges.set index { exchange with arrived := true } } := by
  have member := List.mem_of_getElem? found
  obtain ⟨issued, clears⟩ := (held.serves exchange member).ended ended
  constructor
  · intro claims holds
    obtain ⟨result, header⟩ := reply
    match header, holds with
    | some (.session other), holds =>
        cases holds
        exact (issued _ rfl).1
    | some .clearPasskeyState, holds => exact held.named claims holds
    | none, holds => exact held.named claims holds
  · intro other present
    obtain old | rfl := List.mem_or_eq_of_mem_set present
    · exact held.serves other old
    · exact held.serves exchange member
  · intro other present marked
    obtain old | rfl := List.mem_or_eq_of_mem_set present
    · exact held.early other old marked
    · exact held.early exchange member marked
  · intro answered claims holds
    obtain ⟨result, header⟩ := reply
    -- a response that does not clear the cookie is not the sign-out's success
    have before : header ≠ some .clearSession → browser.signedOut = true := by
      intro other
      by_contra not_yet
      simp_all
    match header, holds with
    | some (.session other), holds =>
        cases holds
        obtain ⟨reply, ended', revoked⟩ :=
          held.early exchange member (inTime _ rfl (before nofun))
        cases Option.some.inj (ended.symm.trans ended')
        exact revoked _ rfl
    | some .clearPasskeyState, holds => exact held.out (before nofun) claims holds
    | none, holds => exact held.out (before nofun) claims holds

end Consistent

/-- One step whose response, if it is one, arrives in time. -/
theorem consistent_step {wa : Webauthn} {account : String} {browser next : Browser}
    {event : Event} (held : Consistent account browser)
    (inTime : ArrivesInTime browser event)
    (taken : step wa account browser event = some next) :
    Consistent account next := by
  have named : ∀ now passkeyState claims,
      (browser.ctx now passkeyState).claims = some claims →
        normalizeEmail claims.email = some account :=
    fun _ _ => held.named
  cases event with
  | beginCeremony =>
      cases taken
      exact ⟨held.named, held.serves, held.early, held.out⟩
  | finishAssertion now passkeyState responseJson =>
      simp only [step] at taken
      split at taken
      · next enabled =>
          cases taken
          rw [Bool.and_eq_true] at enabled
          have began : Consistent account
              { browser with asserting := browser.asserting - 1 } :=
            ⟨held.named, held.serves, held.early, held.out⟩
          exact began.send (Consistent.answers_of_setsIssued
            (serves_passkeyLoginFinish rfl enabled.2))
      · cases taken
  | errand now errand =>
      cases taken
      exact held.send (Consistent.answers_of_setsIssued
        (serves_errand errand))
  | endSession now everywhere =>
      cases taken
      apply held.send
      cases everywhere with
      | true => exact serves_signOutEverywhere (named now none)
      | false => exact serves_setCookie ⟨setsIssued_clears nofun, fun _ _ => rfl⟩
  | execute index =>
      simp only [step] at taken
      split at taken
      · cases taken
      · next exchange found =>
          obtain ⟨⟨program, db⟩, ran, rfl⟩ := Option.map_eq_some_iff.mp taken
          exact held.execute found ran
  | fail index failure =>
      simp only [step] at taken
      split at taken
      · cases taken
      · next exchange found =>
          obtain ⟨program, ran, rfl⟩ := Option.map_eq_some_iff.mp taken
          exact held.fail found ran
  | arrive index =>
      simp only [step] at taken
      split at taken
      · cases taken
      · next exchange found =>
          split at taken
          · cases taken
          · split at taken
            · cases taken
            · next result header ended =>
                cases taken
                refine held.arrive found ended ?_
                intro claims set before
                cases set
                exact inTime index exchange result claims rfl found ended before

/-- `require_user` accepts nobody with the cookie this browser holds. -/
def NobodySignedIn (browser : Browser) : Prop :=
  ∀ ctx : AppCtx, ctx.claims = browser.cookie →
    Ensures (requireUser ctx) browser.db [] fun reply _ _ =>
      ∀ me, reply ≠ .ok me

/-- Once a sign-out has been answered with success, a browser whose session
responses all arrive in time holds no token `require_user` accepts. -/
theorem signed_out_stays_signed_out (wa : Webauthn) (account : String)
    (db : Database) (cookie : Option SessionClaims) (events : List Event)
    {last : Browser}
    (named : ∀ claims, cookie = some claims →
      normalizeEmail claims.email = some account)
    (run : runFrom (step wa account) (.signedIn db cookie) events = some last)
    (inTime : StepsMeet (step wa account) ArrivesInTime (.signedIn db cookie) events)
    (answered : last.signedOut = true) : NobodySignedIn last := by
  have start : Consistent account (.signedIn db cookie) :=
    ⟨named, nofun, nofun, nofun⟩
  have held : Consistent account last := invariant_stepsMeet
    (fun _ _ _ held inTime taken => consistent_step held inTime taken)
    start inTime run
  intro ctx sent
  refine ensures_requireUser ?_ fun _ _ _ => nofun
  intro me log signedIn same
  obtain ⟨claims, -, sent', -⟩ := id signedIn
  exact absurd signedIn ((held.out answered claims (sent ▸ sent')).not_signedIn sent' me)

/-! ## A token that comes too early, and one that comes too late -/

/-- `plainWebauthn`, with ceremony cookies that ask for their subject. -/
def assertingWebauthn : Webauthn :=
  { plainWebauthn with
    parseState := fun body => some (.inr (.inl
      (String.ofList (body.map fun byte => Char.ofNat byte.toNat), (), 1000))) }

/-- Alice with her passkey `p`. -/
def aliceEnrolled : Database :=
  enrolP.foldl (serve plainWebauthn) Database.empty

/-- Her ceremony cookie. -/
def aliceAsked : String := "alice@example.com--------------------------------"

/-- The server is done with the assertion before she signs out everywhere. -/
def assertedBefore : List Event :=
  [.beginCeremony, .finishAssertion 1 aliceAsked "p",
    .execute 0, .execute 0, .execute 0, .execute 0,
    .endSession 1 true, .execute 1, .execute 1, .arrive 1, .arrive 0]

/-- The assertion of a ceremony begun before the sign-out is sent after it. -/
def assertedAfter : List Event :=
  [.beginCeremony, .endSession 1 false, .arrive 0,
    .finishAssertion 1 aliceAsked "p",
    .execute 1, .execute 1, .execute 1, .execute 1, .arrive 1]

/-- The late response signs alice's browser in again. -/
theorem assertedAfter_signs_in :
    ∃ last, runFrom (step assertingWebauthn "alice@example.com")
        (.signedIn aliceEnrolled aliceCtx.claims)
        assertedAfter = some last ∧
      last.signedOut = true ∧ last.asserting = 0 ∧
      (∀ exchange ∈ last.exchanges, exchange.arrived = true) ∧
      ¬ NobodySignedIn last := by
  refine ⟨_, rfl, rfl, rfl, ?_, ?_⟩
  · intro exchange member
    obtain rfl | rfl := List.mem_pair.mp member
    · rfl
    · rfl
  · intro nobody
    exact nobody ⟨aliceCtx.claims, none, 1⟩ rfl none none _ rfl

theorem arrivesInTime_of_signedIn {browser : Browser} {event : Event}
    (signedIn : browser.signedOut = false) : ArrivesInTime browser event := by
  intro index exchange reply claims same found ended answered
  exact absurd (signedIn.symm.trans answered) Bool.noConfusion

/-- A revoked token arrives late, and signs nobody in. -/
theorem assertedBefore_stays_signed_out :
    ∃ last, runFrom (step assertingWebauthn "alice@example.com")
        (.signedIn aliceEnrolled aliceCtx.claims) assertedBefore = some last ∧
      NobodySignedIn last := by
  refine ⟨_, rfl, signed_out_stays_signed_out assertingWebauthn "alice@example.com"
    aliceEnrolled aliceCtx.claims assertedBefore ?_ rfl ?_ rfl⟩
  · intro claims same
    cases same
    rfl
  · -- ten steps before the sign-out is answered, and then the revoked token
    iterate 10
      refine fun _ taken => ⟨arrivesInTime_of_signedIn rfl, ?_⟩
      cases taken
    refine fun _ _ => ⟨?_, trivial⟩
    intro index exchange reply claims same found ended answered
    cases same
    cases found
    rfl

end TimeTracker.Client.SignOut
