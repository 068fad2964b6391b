import TimeTracker.Server.Attested
import TimeTracker.Server.LinkHandler

/-!
# Who an issued session names

The two ways to a session, a passkey and a mailed link, next to everything else
the server is asked, interleaved statement by statement on any database.  A
session is set only for the account that was proven, and by nothing else.
-/

namespace TimeTracker.Server.SignIn

open TimeTracker.Text
open TimeTracker.Library
open TimeTracker.Library.Run
open TimeTracker.Library.Atomic
open TimeTracker.Library.Rely
open TimeTracker.Library.Indexed
open TimeTracker.Library.Serving
open TimeTracker.Library.Recording
open TimeTracker.Server.Schema
open TimeTracker.Server.Store
open TimeTracker.Server.Ceremony
open TimeTracker.Server.Functions (SessionClaims SetCookie AppCtx)
open TimeTracker.Server.Execution (findByEmail_eq_ok)
open TimeTracker.Server.Interference (Reply)
open TimeTracker.Server.MagicLink (Links MagicLinkToken SameLink ConsumeResult LinkError
  sameLink_spend insertToken_cases)
open TimeTracker.Server.SingleUse (Ceremonies plainCeremonies holderWithP)
open TimeTracker.Server.LinkHandler
open TimeTracker.Server.Attested

inductive Request
  | passkeyLoginFinish (ctx : AppCtx) (responseJson : String)
  | link (ctx : LinkCtx) (token : String)
  | requestMagicLink (ctx : LinkCtx) (email : String)
  | other (request : {request : Revocation.Request // request.Other})

inductive Answer
  | function (reply : Reply Unit)
  | page (response : Response)
  | mailed (reply : Except String Unit) (mail : Option OutboundEmail)

/-- The session an answer sets. -/
def Answer.session? : Answer → Option SessionClaims
  | .function (_, some (.session claims)) => some claims
  | .page { cookie := some (.session claims), .. } => some claims
  | _ => none

def serve (wa : Webauthn) (hash : String → Bytes) :
    Request → Program Tables Site DbError Answer
  | .passkeyLoginFinish ctx responseJson => do
      let reply ← (Revocation.serve wa (.passkeyLoginFinish ctx responseJson)).zoom dbPart faults
        .server
      return .function reply
  | .link ctx token => do
      let response ← consume hash ctx token
      return .page response
  | .requestMagicLink ctx email => do
      let (reply, mail) ← requestMagicLink hash ctx email
      return .mailed reply mail
  | .other request => do
      let reply ← (Revocation.serve wa request.val).zoom dbPart faults .server
      return .function reply

/-- Requests in progress, each under a number of its own. -/
abbrev Traffic := Service Tables Site DbError Nat Request Answer

abbrev Event := Serving.Event Nat Request DbError

/-- A link that is there was there before, or is new. -/
def Files (New : MagicLinkToken → Prop) (before after : Links) : Prop :=
  ∀ row ∈ after, (∃ old ∈ before, SameLink old row) ∨ New row

theorem Files.refl (New : MagicLinkToken → Prop) (links : Links) : Files New links links :=
  fun row member => Or.inl ⟨row, member, .refl row⟩

/-- The link a call follows, as it read it. -/
def Followed (hash : String → Bytes) (token : String) (journal : Journal Site Tables)
    (old : MagicLinkToken) : Prop :=
  old.tokenHash = hash token ∧
    ∃ tables, (.link .selectToken, tables) ∈ journal ∧ old ∈ tables.links

/-- The link a request has minted: for the address it was asked for, or for the one of the
link it follows. -/
def Minted (hash : String → Bytes) (journal : Journal Site Tables) (row : MagicLinkToken) :
    Request → Prop
  | .requestMagicLink ctx email =>
      row.tokenHash = hash ctx.drawn ∧ normalizeEmail email = some row.email
  | .link ctx token => row.tokenHash = hash ctx.drawn ∧
      ∃ old, Followed hash token journal old ∧ normalizeEmail old.email = some row.email
  | _ => False

/-- What every statement of a request does. -/
structure Does (hash : String → Bytes) (request : Request) (journal : Journal Site Tables)
    (site : Site) (before after : Tables) : Prop where
  users : KeepsUsers before.db after.db
  links : Files (fun row => site = .link .insertToken ∧ Minted hash journal row request)
    before.links after.links

/-! ## The link a handler follows -/

/-- How a link that set a session came to it, by the statements that were run. -/
structure LinkProof (ran : Site → Tables → Prop) (hash : String → Bytes) (ctx : LinkCtx)
    (token : String) (claims : SessionClaims) (row : MagicLinkToken) (user : User) :
    Prop where
  /-- It is the link of this token, unspent and in time. -/
  found : ∃ tables, ran (.link .selectToken) tables ∧ row ∈ tables.links
  tokenHash : row.tokenHash = hash token
  unspent : row.usedAt = none
  inTime : ctx.now < row.expiresAt
  /-- This call is the one that spent it. -/
  spent : ∃ tables, ran (.link (.spendToken row.id)) tables ∧
    ∃ current ∈ tables.links, current.id = row.id ∧ current.usedAt = none
  /-- The account of its address is signed in as it was found or created. -/
  account : ∃ tables, ran (.server .findOrCreate) tables ∧
    answer (findOrCreate row.email ctx.now) tables.db = .ok user
  session : claims = { email := user.email, epoch := user.sessionEpoch }

section Links

variable {hash : String → Bytes} {token : String} {now : Timestamp}
  {New : MagicLinkToken → Prop}

/-- The row of the token, as the table of links was read. -/
def ReadRow (hash : String → Bytes) (token : String) (journal : Journal MagicLink.Site Links)
    (row : MagicLinkToken) : Prop :=
  row.tokenHash = hash token ∧ ∃ links, (.selectToken, links) ∈ journal ∧ row ∈ links

/-- The row was unspent when this call spent it. -/
def SpentRow (now : Timestamp) (journal : Journal MagicLink.Site Links)
    (row : MagicLinkToken) : Prop :=
  row.usedAt = none ∧ now < row.expiresAt ∧
    ∃ links, (.spendToken row.id, links) ∈ journal ∧
      ∃ current ∈ links, current.id = row.id ∧ current.usedAt = none

/-- What a consume answers was read, and spent, in its journal. -/
def Consumes (hash : String → Bytes) (token : String) (now : Timestamp)
    (result : Except LinkError ConsumeResult) (journal : Journal MagicLink.Site Links) :
    Prop :=
  match result with
  | .ok (.consumed email) => ∃ row, row.email = email ∧ ReadRow hash token journal row ∧
      SpentRow now journal row
  | .ok (.stale email) => ∃ row, row.email = email ∧ ReadRow hash token journal row
  | _ => True

/-- The links are those there were, but for what an insert adds. -/
def FilesOnly (New : MagicLinkToken → Prop) (_ : Journal MagicLink.Site Links)
    (site : MagicLink.Site) (before after : Links) : Prop :=
  Files (fun row => site = .insertToken ∧ New row) before after

theorem records_query {α : Type} {context : String} {site : MagicLink.Site}
    {statement : Links → Except DbError (α × Links)}
    {journal : Journal MagicLink.Site Links}
    {P : Journal MagicLink.Site Links → MagicLink.Site → Links → Links → Prop}
    {Q : Except LinkError α → Journal MagicLink.Site Links → Prop}
    (does : ∀ links, P journal site links (effect statement links))
    (committed : ∀ links value next, statement links = .ok (value, next) →
      Q (.ok value) (journal ++ [(site, links)]))
    (failed : ∀ error later, Q (.error error) later) :
    Records P Q (MagicLink.query context site statement).run journal := by
  refine ⟨fun links => ⟨does links, ?_⟩, fun failure => failed _ journal⟩
  cases ran : statement links with
  | ok pair =>
      rw [answer_of_ok ran]
      exact committed links pair.1 pair.2 ran
  | error failure =>
      rw [answer_of_error ran]
      exact failed _ _

theorem records_consume :
    Records (FilesOnly New) (Consumes hash token now) (MagicLink.consume hash now token).run
      [] := by
  refine records_attempt_bind (records_query ?_ ?_ fun _ _ => trivial)
  · exact fun links => .refl _ links
  rintro links found next ⟨⟩
  cases search : links.rows.find? fun row => row.tokenHash = hash token with
  | none => exact records_attempt_pure trivial
  | some row =>
      have member : row ∈ links := List.mem_of_find?_eq_some search
      have named : row.tokenHash = hash token := by simpa using List.find?_some search
      have read : ∀ later, ReadRow hash token ([(.selectToken, links)] ++ later) row :=
        fun later => ⟨named, links, List.mem_append_left _ (List.mem_singleton.mpr rfl), member⟩
      change Records _ _ (ExceptT.run (ite _ _ _)) _
      split
      · exact records_attempt_pure ⟨row, rfl, read []⟩
      · next fresh =>
          simp only [Bool.or_eq_true, Option.isSome_iff_ne_none, decide_eq_true_eq,
            not_or, not_not, not_le] at fresh
          refine records_attempt_bind (records_query ?_ ?_ fun _ _ => trivial)
          · intro links new present
            obtain ⟨old, here, same⟩ := List.mem_map.mp present
            exact Or.inl ⟨old, here, same ▸ sameLink_spend row.id now old⟩
          rintro links' updated next ⟨⟩
          change Records _ _ (ExceptT.run (ite _ _ _)) _
          split
          · next once =>
              obtain ⟨current, here, unspent⟩ : ∃ current ∈ links'.rows,
                  (decide (current.id = row.id) && decide (current.usedAt = none)) = true := by
                rw [← List.countP_pos_iff]
                omega
              simp only [Bool.and_eq_true, decide_eq_true_eq] at unspent
              refine records_attempt_pure ⟨row, rfl, read [_], fresh.1, fresh.2, links', ?_,
                current, here, unspent⟩
              exact List.mem_append_right _ (List.mem_singleton.mpr rfl)
          · exact records_attempt_pure ⟨row, rfl, read [_]⟩

theorem records_mint {journal : Journal MagicLink.Site Links} {email : String} {ttl : Int}
    (new : ∀ row : MagicLinkToken, row.tokenHash = hash token →
      normalizeEmail email = some row.email → New row) :
    Records (FilesOnly New) (fun _ _ => True) (MagicLink.mint hash token now email ttl).run
      journal := by
  unfold MagicLink.mint
  cases named : normalizeEmail email with
  | none => exact records_attempt_throw trivial
  | some normalized =>
      refine records_attempt_bind (records_query ?_ ?_ fun _ _ => trivial)
      · intro links
        obtain ⟨failure, refused⟩ | ⟨next, id, inserted, members⟩ := insertToken_cases _ links
        · rw [effect_of_error refused]
          exact .refl _ links
        · rw [effect_of_ok inserted]
          intro row present
          rcases (members row).mp present with old | rfl
          · exact Or.inl ⟨row, old, .refl row⟩
          · exact Or.inr ⟨rfl, new _ rfl named⟩
      · exact fun _ _ _ _ => records_attempt_pure trivial

end Links

section Handlers

variable {hash : String → Bytes} {request : Request} {journal : Journal Site Tables}
  {α : Type}

/-- What works on the links alone keeps the accounts. -/
theorem records_links {New : MagicLinkToken → Prop}
    {Q : α → Journal MagicLink.Site Links → Prop}
    {program : Program Links MagicLink.Site DbError α}
    (records : Records (FilesOnly New) Q program [])
    (minted : ∀ later row, (∀ entry ∈ journal, entry ∈ later) → New row →
      Minted hash later row request) :
    Records (Does hash request)
      (fun result later => (∀ entry ∈ journal, entry ∈ later) ∧
        ∃ inner, Lifts linksPart Site.link inner later ∧ Q result inner)
      (program.zoom linksPart faults .link) journal := by
  refine Records.mono ?_ (fun _ _ ends => ends)
    ((records_zoom (Lifts.nil journal) records).grows fun _ member => member)
  rintro later site before after ⟨grown, inner, label, held, -, rfl, files, rfl⟩
  refine ⟨.refl before.db, ?_⟩
  intro row present
  rcases files row present with old | ⟨rfl, new⟩
  · exact Or.inl old
  · exact Or.inr ⟨rfl, minted later row grown new⟩

/-- What works on the accounts alone keeps the links. -/
theorem records_accounts {Q : α → Journal Functions.Site Database → Prop}
    {program : Program Database Functions.Site DbError α}
    (records : Records (fun _ _ => KeepsUsers) Q program []) :
    Records (Does hash request)
      (fun result later => (∀ entry ∈ journal, entry ∈ later) ∧
        ∃ inner, Lifts dbPart Site.server inner later ∧ Q result inner)
      (program.zoom dbPart faults .server) journal := by
  refine Records.mono ?_ (fun _ _ ends => ends)
    ((records_zoom (Lifts.nil journal) records).grows fun _ member => member)
  rintro later site before after ⟨-, inner, label, held, -, rfl, keeps, rfl⟩
  exact ⟨keeps, .refl _ before.links⟩

/-- A fresh link is the caller's own. -/
theorem records_mint_link {ctx : LinkCtx} {email : String}
    (minted : ∀ later (row : MagicLinkToken), (∀ entry ∈ journal, entry ∈ later) →
      row.tokenHash = hash ctx.drawn → normalizeEmail email = some row.email →
      Minted hash later row request) :
    Records (Does hash request) (fun _ _ => True) (mint hash ctx email) journal := by
  have files : Records
      (FilesOnly fun row => row.tokenHash = hash ctx.drawn ∧
        normalizeEmail email = some row.email)
      (fun _ _ => True) (MagicLink.mint hash ctx.drawn ctx.now email ctx.ttl).run [] :=
    records_mint fun row drawn named => ⟨drawn, named⟩
  refine (records_links files ?_).weaken fun _ _ _ => trivial
  rintro later row grown ⟨drawn, named⟩
  exact minted later row grown drawn named

/-- A reissue sets no session. -/
theorem records_reissue {ctx : LinkCtx} {token : String} {old : MagicLinkToken}
    (followed : Followed hash token journal old) :
    Records (Does hash (.link ctx token)) (fun response _ => response.cookie = none)
      (reissue hash ctx old.email) journal := by
  unfold reissue
  split
  · exact rfl
  · refine (records_mint_link ?_).bind ?_
    · intro later row grown drawn named
      obtain ⟨same, tables, read, member⟩ := followed
      exact ⟨drawn, old, ⟨same, tables, grown _ read, member⟩, named⟩
    · rintro (error | drawn) later -
      · exact rfl
      · exact rfl

theorem records_findOrCreate (email : String) (now : Timestamp) :
    Records (fun _ _ => KeepsUsers)
      (fun reply inner => ∀ user, reply = .ok user → ∃ db, (.findOrCreate, db) ∈ inner ∧
        answer (findOrCreate email now) db = .ok user)
      (Program.perform .findOrCreate (findOrCreate email now) :
        Program Database Functions.Site DbError _) [] := by
  refine records_perform (fun db => ?_) ?_ fun _ _ => nofun
  · have tracks : Revocation.Tracks .findOrCreate db (effect (findOrCreate email now) db) :=
      .of_ran (fun _ => nofun) fun user next ran => (Revocation.findOrCreate_user ran).2
    exact tracks.keepsUsers
  · rintro db user next ran _ ⟨⟩
    exact ⟨db, List.mem_singleton.mpr rfl, answer_of_ok ran⟩

/-- A session in the response was come to by the token. -/
theorem records_link (ctx : LinkCtx) (token : String) :
    Records (Does hash (.link ctx token))
      (fun response journal => ∀ claims, response.cookie = some (.session claims) →
        ∃ row user, LinkProof (fun site tables => (site, tables) ∈ journal) hash ctx token
          claims row user)
      (consume hash ctx token) [] := by
  have files : Records (FilesOnly fun _ => False) (Consumes hash token ctx.now)
      (MagicLink.consume hash ctx.now token).run [] := records_consume
  refine (records_links files fun _ _ _ => False.elim).bind ?_
  rintro (error | (email | email | _)) journal ⟨-, inner, lifts, holds⟩
  · exact nofun
  · obtain ⟨row, rfl, ⟨named, links, readIn, member⟩, unspent, inTime, links', spentIn,
      current, present, id, unspent'⟩ := holds
    refine (records_accounts (records_findOrCreate row.email ctx.now)).bind ?_
    rintro (error | user) later ⟨grown, inner', lifts', answered⟩
    · exact nofun
    rintro claims ⟨⟩
    obtain ⟨db, foundIn, answered⟩ := answered user rfl
    obtain ⟨read, ranRead, rfl⟩ := lifts _ _ readIn
    obtain ⟨spent, ranSpent, rfl⟩ := lifts _ _ spentIn
    obtain ⟨asked, ranAsked, rfl⟩ := lifts' _ _ foundIn
    exact ⟨row, user, ⟨read, grown _ ranRead, member⟩, named, unspent, inTime,
      ⟨spent, grown _ ranSpent, current, present, id, unspent'⟩, ⟨asked, ranAsked, answered⟩,
      rfl⟩
  · obtain ⟨row, rfl, named, links, readIn, member⟩ := holds
    obtain ⟨read, ranRead, rfl⟩ := lifts _ _ readIn
    refine (records_reissue ⟨named, read, ranRead, member⟩).weaken ?_
    intro response later none claims set
    cases none.symm.trans set
  · exact nofun

theorem records_requestMagicLink (ctx : LinkCtx) (email : String) :
    Records (Does hash (.requestMagicLink ctx email)) (fun _ _ => True)
      (requestMagicLink hash ctx email) [] := by
  unfold requestMagicLink
  cases named : normalizeEmail email with
  | none => exact trivial
  | some normalized =>
      dsimp only
      split
      · exact trivial
      · refine records_bind (records_perform ?_ ?_ fun _ _ => trivial)
        · exact fun tables => ⟨.refl tables.db, .refl _ tables.links⟩
        · intro tables _ _ _
          refine (records_mint_link ?_).bind ?_
          · intro later row _ drawn again
            refine ⟨drawn, ?_⟩
            rw [named, ← again, normalizeEmail_idem named]
          · rintro (error | drawn) later -
            · exact trivial
            · exact trivial

end Handlers

/-! ## What an answer proves -/

section Answers

variable {wa : Webauthn} {hash : String → Bytes} {claims : SessionClaims}

theorem session?_function {reply : Reply Unit} :
    (Answer.function reply).session? = some claims ↔ reply.2 = some (.session claims) := by
  rcases reply with ⟨result, _ | (set | _ | _)⟩ <;> simp [Answer.session?]

theorem session?_page {response : Response} :
    (Answer.page response).session? = some claims ↔
      response.cookie = some (.session claims) := by
  rcases response with ⟨status, body, _ | (set | _ | _), location, mail⟩ <;>
    simp [Answer.session?]

/-- A session in the answer was come to by the statements of the journal, and by a request
that may begin one. -/
def Proves (wa : Webauthn) (hash : String → Bytes) (request : Request) (answer : Answer)
    (journal : Journal Site Tables) : Prop :=
  ∀ claims, answer.session? = some claims →
    match request with
    | .passkeyLoginFinish ctx responseJson => ∃ state row owner,
        PasskeyProof wa
          (fun site db => ∃ tables, (.server site, tables) ∈ journal ∧ tables.db = db) ctx
          responseJson claims state row owner
    | .link ctx token => ∃ row user,
        LinkProof (fun site tables => (site, tables) ∈ journal) hash ctx token claims row user
    | _ => False

/-- A finish keeps the accounts, and its journal proves the session it sets. -/
theorem records_passkeyLoginFinish (names : NamesItsCredential wa) (ctx : AppCtx)
    (responseJson : String) :
    Records (fun _ _ => KeepsUsers) (SessionsProven wa ctx responseJson)
      (Revocation.serve wa (.passkeyLoginFinish ctx responseJson)) [] := by
  have logs : Logs (SessionsProven wa ctx responseJson)
      (Functions.passkeyLoginFinish wa ctx responseJson) none [] :=
    logs_passkeyLoginFinish names
  have keeps := Revocation.serves_request wa (.passkeyLoginFinish ctx responseJson) .empty
  exact ((records_of_obeys keeps).and logs).mono
    (fun _ _ _ _ done => done.1.keepsUsers) fun _ _ ends => ends.2

/-- The other requests keep the accounts and set no session. -/
theorem records_other (request : {request : Revocation.Request // request.Other}) :
    Records (fun _ _ => KeepsUsers) (fun reply _ => ∀ claims, reply.2 ≠ some (.session claims))
      (Revocation.serve wa request.val) [] := by
  have serves : Obeys .any Revocation.Free Revocation.Tracks
      (fun (reply : Reply Unit) _ => ∀ claims, reply.2 ≠ some (.session claims))
      (Revocation.serve wa request.val) .empty :=
    Revocation.serves_other wa request.val request.property .empty fun _ _ _ none => none
  refine (records_of_obeys serves).mono (fun _ _ _ _ done => done.keepsUsers) ?_
  rintro reply journal ⟨db, none⟩
  exact none

theorem records_serve (names : NamesItsCredential wa) (request : Request) :
    Records (Does hash request) (Proves wa hash request) (serve wa hash request) [] := by
  cases request with
  | passkeyLoginFinish ctx responseJson =>
      refine (records_accounts (records_passkeyLoginFinish names ctx responseJson)).bind ?_
      rintro reply journal ⟨-, inner, lifts, proven⟩ claims set
      obtain ⟨state, row, owner, proof⟩ := proven claims (session?_function.mp set)
      exact ⟨state, row, owner, proof.mono lifts⟩
  | link ctx token =>
      refine (records_link ctx token).bind ?_
      exact fun response journal proven claims set => proven claims (session?_page.mp set)
  | requestMagicLink ctx email =>
      refine (records_requestMagicLink ctx email).bind ?_
      exact fun _ _ _ => nofun
  | other request =>
      refine (records_accounts (records_other request)).bind ?_
      rintro reply journal ⟨-, inner, -, none⟩ claims set
      exact none claims (session?_function.mp set)

end Answers

/-! ## The address a link was minted for -/

/-- The row is a link that was minted for this address: it was there at the start, a call
for the address inserted it, or a call that followed an older link of the address did. -/
inductive MintedFor (wa : Webauthn) (hash : String → Bytes) (start : Tables)
    (events : List Event) : MagicLinkToken → String → Prop
  | filed {old row : MagicLinkToken} (present : old ∈ start.links) (same : SameLink old row) :
      MintedFor wa hash start events row old.email
  | requested {id : Nat} {ctx : LinkCtx} {email : String} {row : MagicLinkToken}
      {tables : Tables} (asked : .start id (.requestMagicLink ctx email) ∈ events)
      (ran : Executed (serve wa hash) start events id (.link .insertToken) tables)
      (drawn : row.tokenHash = hash ctx.drawn)
      (named : normalizeEmail email = some row.email) : MintedFor wa hash start events row email
  | reissued {id : Nat} {ctx : LinkCtx} {token email : String} {old row : MagicLinkToken}
      {tables : Tables} (asked : .start id (.link ctx token) ∈ events)
      (ran : Executed (serve wa hash) start events id (.link .insertToken) tables)
      (followed : old.tokenHash = hash token) (first : MintedFor wa hash start events old email)
      (drawn : row.tokenHash = hash ctx.drawn)
      (named : normalizeEmail old.email = some row.email) : MintedFor wa hash start events row email

section Runs

variable {wa : Webauthn} {hash : String → Bytes} {start : Tables} {events : List Event}
  {last : Traffic} {row : MagicLinkToken} {email : String}

theorem MintedFor.same {row' : MagicLinkToken} (minted : MintedFor wa hash start events row email)
    (same : SameLink row row') : MintedFor wa hash start events row' email := by
  cases minted with
  | filed present first => exact .filed present (first.trans same)
  | requested asked ran drawn named =>
      exact .requested asked ran (same.tokenHash.trans drawn) (same.email ▸ named)
  | reissued asked ran followed first drawn named =>
      exact .reissued asked ran followed first (same.tokenHash.trans drawn) (same.email ▸ named)

/-- Signing in by the row is signing in by the address it was minted for. -/
theorem MintedFor.normalizeEmail_eq (minted : MintedFor wa hash start events row email)
    {normalized : String} (named : normalizeEmail row.email = some normalized) :
    normalizeEmail email = some normalized := by
  induction minted generalizing normalized with
  | filed present same => rwa [same.email] at named
  | requested asked ran drawn here =>
      rwa [normalizeEmail_idem here, ← here] at named
  | reissued asked ran followed first drawn here ih =>
      rw [normalizeEmail_idem here, ← here] at named
      exact ih named

/-- Every link of the tables was minted for some address. -/
def AllMinted (wa : Webauthn) (hash : String → Bytes) (start : Tables) (events : List Event)
    (tables : Tables) : Prop :=
  ∀ row ∈ tables.links, ∃ email, MintedFor wa hash start events row email

theorem allMinted_run (names : NamesItsCredential wa)
    (ran : runFrom (step (serve wa hash)) (.idle start) events = some last) :
    Recorded (Does hash) (Proves wa hash)
      (fun id site tables => Executed (serve wa hash) start events id site tables ∧
        AllMinted wa hash start events tables) last := by
  refine (recorded_run ?_ (records_serve names) ?_ (List.append_nil events).symm ran).2
  · exact fun row member => ⟨row.email, .filed member (.refl row)⟩
  intro id request journal site before after asked entries executed held does row present
  obtain ⟨old, member, same⟩ | ⟨rfl, minted⟩ := does.links row present
  · obtain ⟨email, minted⟩ := held old member
    exact ⟨email, minted.same same⟩
  · cases request with
    | passkeyLoginFinish ctx responseJson => exact minted.elim
    | other request => exact minted.elim
    | requestMagicLink ctx email =>
        exact ⟨email, .requested asked executed minted.1 minted.2⟩
    | link ctx token =>
        obtain ⟨drawn, old, ⟨followed, tables, read, member⟩, named⟩ := minted
        obtain ⟨email, first⟩ := (entries _ read).2 old member
        exact ⟨email, .reissued asked executed followed first drawn named⟩

/-- The accounts a statement met are there to the end. -/
theorem keepsUsers_of_executed (names : NamesItsCredential wa)
    (ran : runFrom (step (serve wa hash)) (.idle start) events = some last) {id : Nat}
    {site : Site} {met : Tables}
    (executed : Executed (serve wa hash) start events id site met) :
    KeepsUsers met.db last.store.db := by
  obtain ⟨past, later, before, rfl, reached, -, rfl⟩ := executed
  obtain ⟨before', reached', ran⟩ := runFrom_append_eq_some.mp ran
  cases reached.symm.trans reached'
  have recorded := (recorded_run (M := fun _ => True) trivial (records_serve names)
    (fun _ _ _ _ _ _ _ _ _ _ _ => trivial) (List.append_nil past).symm reached).2
  refine recorded.keeps (K := fun before after => KeepsUsers before.db after.db)
    (fun tables => .refl tables.db) KeepsUsers.trans (records_serve names) ?_ ran
  exact fun _ _ _ _ _ does => does.users

end Runs

/-! ## The account a session names -/

/-- The account a session names was proven to the call that set it, by the statements that
call ran. -/
inductive Proven (ce : Ceremonies) (hash : String → Bytes) (start : Tables)
    (events : List Event) (id : Nat) : Request → SessionClaims → Prop
  /-- By its passkey, in a ceremony the server began. -/
  | passkey {ctx : AppCtx} {responseJson : String} {claims : SessionClaims}
      {state : PasskeyState ce.toWebauthn} {row : PasskeyRow} {owner : User}
      (proof : PasskeyProof ce.toWebauthn
        (fun site db => ∃ tables, Executed (serve ce.toWebauthn hash) start events id
          (.server site) tables ∧ tables.db = db)
        ctx responseJson claims state row owner)
      (begun : ∀ Issued raw, ctx.passkeyState = some raw → Unforged ce Issued raw →
        Issued state)
      (inTime : ctx.now ≤ state.expiresAt)
      (subject : ∀ subject auth expiresAt, state = .auth subject auth expiresAt →
        normalizeEmail subject = some claims.email) :
      Proven ce hash start events id (.passkeyLoginFinish ctx responseJson) claims
  /-- By a link that was minted for its address. -/
  | link {ctx : LinkCtx} {token : String} {claims : SessionClaims} {row : MagicLinkToken}
      {user : User} {email : String}
      (proof : LinkProof (Executed (serve ce.toWebauthn hash) start events id) hash ctx token
        claims row user)
      (minted : MintedFor ce.toWebauthn hash start events row email)
      (named : normalizeEmail email = some claims.email) :
      Proven ce hash start events id (.link ctx token) claims

theorem normalizeEmail_of_answer {email : String} {now : Timestamp} {db : Database}
    {user : User} (answered : answer (findOrCreate email now) db = .ok user) :
    normalizeEmail email = some user.email := by
  obtain ⟨-, refused⟩ | ⟨normalized, named, ⟨found, here, ran⟩ | ⟨-, next, ran, -⟩⟩ :=
    findOrCreate_cases email now db
  · cases (answer_of_error refused).symm.trans answered
  · cases (answer_of_ok ran).symm.trans answered
    rw [named, (mem_of_userByEmail here).2]
  · cases (answer_of_ok ran).symm.trans answered
    exact named

/-- In every run on any database, a session is set by a finish for the owner of the
credential it verified, who is the ceremony's subject, or by a link for the address it was
minted for, and by nothing else. -/
theorem session_names_the_proven (ce : Ceremonies)
    (names : NamesItsCredential ce.toWebauthn) (hash : String → Bytes) {start : Tables}
    {events : List Event} {last : Traffic}
    (ran : runFrom (step (serve ce.toWebauthn hash)) (.idle start) events = some last)
    {id : Nat} {request : Request} {answer : Answer} {claims : SessionClaims}
    (answered : last.answered? id = some (request, answer))
    (set : answer.session? = some claims) :
    Proven ce hash start events id request claims := by
  obtain ⟨journal, entries, proves⟩ := (allMinted_run names ran).answered answered
  have executed : ∀ site tables, (site, tables) ∈ journal →
      Executed (serve ce.toWebauthn hash) start events id site tables :=
    fun site tables member => (entries _ member).1
  have proven := proves claims set
  cases request with
  | requestMagicLink ctx email => exact proven.elim
  | other request => exact proven.elim
  | link ctx token =>
      obtain ⟨row, user, ⟨found, tokenHash, unspent, inTime, spent, account, rfl⟩⟩ := proven
      obtain ⟨read, readIn, member⟩ := found
      obtain ⟨spentAt, spentIn, current⟩ := spent
      obtain ⟨asked, askedIn, created⟩ := account
      obtain ⟨email, minted⟩ := (entries _ readIn).2 row member
      have named := minted.normalizeEmail_eq (normalizeEmail_of_answer created)
      exact .link ⟨⟨read, executed _ _ readIn, member⟩, tokenHash, unspent, inTime,
        ⟨spentAt, executed _ _ spentIn, current⟩, ⟨asked, executed _ _ askedIn, created⟩, rfl⟩
        minted named
  | passkeyLoginFinish ctx responseJson =>
      obtain ⟨state, row, owner, proof⟩ := proven
      have lifted := proof.mono fun site db => fun ⟨tables, member, same⟩ =>
        (⟨tables, executed _ _ member, same⟩ : ∃ tables, Executed (serve ce.toWebauthn hash)
          start events id (.server site) tables ∧ tables.db = db)
      obtain ⟨raw, sent, decoded⟩ := lifted.presented
      refine .passkey lifted ?_ (decode_eq_some decoded).1 ?_
      · intro Issued raw' sent' unforged
        cases sent.symm.trans sent'
        exact unforged.issued decoded
      · -- both accounts are in the last database, where an id is one account's
        intro subject auth expiresAt same
        obtain ⟨db, named, ⟨asked, executed, rfl⟩, present, normalized, id⟩ :=
          lifted.subject subject auth expiresAt same
        obtain ⟨db, ⟨read, executed', rfl⟩, member⟩ := lifted.current
        obtain ⟨first, here, firstId, firstEmail⟩ :=
          keepsUsers_of_executed names ran executed named present
        obtain ⟨second, there, secondId, secondEmail⟩ :=
          keepsUsers_of_executed names ran executed' owner member
        have one : first = second := Table.eq_of_conflict User.conflict_symm here there
          (Or.inl (firstId.trans (id.trans secondId.symm)))
        rw [normalized, lifted.session, ← firstEmail, ← secondEmail, one]

/-- Alice has a passkey, and no links are out. -/
def onlyHolder : Tables :=
  { links := .empty, db := holderWithP }

/-- The cookie of a ceremony begun for her. -/
def aliceCeremony : String :=
  SingleUse.plainText (asciiBytes "alice@example.com" ++ List.replicate SIG_LEN 0)

def linkCtx (now : Timestamp) : LinkCtx :=
  { now, ttl := 900, siteBaseUrl := "http://localhost:3000", drawn := "token",
    admits := fun _ => true }

/-- She asks for a link, follows it, and uses her passkey meanwhile. -/
def bothWays : List Event :=
  [.start 0 (.requestMagicLink (linkCtx 700) "Alice@Example.com"), .execute 0, .execute 0,
    .start 1 (.link (linkCtx 710) "token"), .execute 1,
    .start 2 (.passkeyLoginFinish ⟨none, some aliceCeremony, 720⟩ "p"), .execute 2, .execute 2,
    .execute 1, .execute 2, .execute 1, .execute 2]

/-- Both ways she is signed in as herself. -/
theorem session_names_the_proven_bothWays :
    Proven plainCeremonies asciiBytes onlyHolder bothWays 1 (.link (linkCtx 710) "token")
        { email := "alice@example.com", epoch := 0 } ∧
      Proven plainCeremonies asciiBytes onlyHolder bothWays 2
        (.passkeyLoginFinish ⟨none, some aliceCeremony, 720⟩ "p")
        { email := "alice@example.com", epoch := 0 } := by
  have names : NamesItsCredential plainCeremonies.toWebauthn := by
    rintro pkc auth key credentialId result ⟨⟩ ⟨⟩
    rfl
  obtain ⟨last, ran, link, passkey⟩ : ∃ last,
      runFrom (step (serve plainCeremonies.toWebauthn asciiBytes)) (.idle onlyHolder) bothWays =
        some last ∧
      last.answered? 1 = some (.link (linkCtx 710) "token",
        .page (signInResponse "alice@example.com" 0)) ∧
      last.answered? 2 = some (.passkeyLoginFinish ⟨none, some aliceCeremony, 720⟩ "p",
        .function (.ok (), some (.session { email := "alice@example.com", epoch := 0 }))) :=
    ⟨_, rfl, rfl, rfl⟩
  exact ⟨session_names_the_proven plainCeremonies names asciiBytes ran link rfl,
    session_names_the_proven plainCeremonies names asciiBytes ran passkey rfl⟩

end TimeTracker.Server.SignIn
