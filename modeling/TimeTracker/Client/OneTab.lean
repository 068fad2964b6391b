import TimeTracker.Client.KeysAtHome
import TimeTracker.Client.Routes
import TimeTracker.Client.SignOut

/-!
# One account, one tab

The ceremonies of one account, from one tab, each run to completion before the
next.  An account is then either not encrypted and without wraps, or each of its
wraps is filed under a secret of its own: the passkey wraps under their
credential's PRF output, the other one under the encryption key shown last.
-/

namespace TimeTracker.Client.OneTab

open TimeTracker.Text
open TimeTracker.Library
open TimeTracker.Library.Atomic
open TimeTracker.Library.Rely
open TimeTracker.Library.Indexed
open TimeTracker.Library.KeyWrap
open TimeTracker.Crypto.Wire
open TimeTracker.Crypto.EncryptionKey
open TimeTracker.Crypto.Ceremony
open TimeTracker.Server.Schema
open TimeTracker.Server.Store
open TimeTracker.Server.Ceremony
open TimeTracker.Server.Functions
open TimeTracker.Server.Execution
open TimeTracker.Server.Outcomes
open TimeTracker.Server.Interference
open TimeTracker.Server.Deciding
open TimeTracker.Tab.State
open TimeTracker.Client.Session
open TimeTracker.Client.Calls
open TimeTracker.Client.Flow
open TimeTracker.Client.Routes
open TimeTracker.Client.KeysAtHome (plainBrowser aliceAsked answers)

/-! ## One request by itself -/

section Requests

variable {α : Type} {ctx : AppCtx} {db : Database} {account : String} {userId : Int}

/-- Nothing else is executed meanwhile. -/
abbrev ServesAlone (post : Reply α → Database → Prop) (handler : Handler α)
    (db : Database) : Prop :=
  Serves (· = ·) (fun _ _ _ => True) post handler none db

theorem since_eq {later : Database} (since : Since (· = ·) db later) : later = db :=
  (rely_of_since rfl Eq.trans since).symm

theorem idle_alone : Idle (· = ·) (fun _ _ _ => True) db :=
  fun _ _ _ _ => trivial

theorem decides_alone {β : Type} {site : User → Site} {statement : User → Sql β}
    {leaves : β → Database → Prop}
    (left : ∀ me value next, SignedIn ctx db me → statement me db = .ok (value, next) →
      leaves value next) :
    Decides (· = ·) (fun _ _ _ => True) ctx db site statement leaves := by
  intro before later me grown signedIn grown'
  obtain rfl := since_eq grown
  obtain rfl := since_eq grown'
  exact ⟨trivial, fun value next => left me value next signedIn⟩

/-- The account, and a session that names no other one. -/
structure Mine (account : String) (userId : Int) (claims : Option SessionClaims)
    (db : Database) : Prop where
  known : Known account userId db
  named : ∀ session, claims = some session → normalizeEmail session.email = some account

/-- Who is signed in is the account itself. -/
theorem Mine.id_eq {me : User} (mine : Mine account userId ctx.claims db)
    (signedIn : SignedIn ctx db me) : me.id = userId := by
  obtain ⟨user, member, same, email⟩ := SignOut.known_of_signedIn mine.named signedIn
  obtain ⟨owner, present, rfl, email'⟩ := mine.known
  have one : user = owner := Table.eq_of_conflict User.conflict_symm member present
    (.inr (email.trans email'.symm))
  rw [← same, one]

/-- What a request leaves that stores no wrap. -/
def Spares (before after : Database) : Prop :=
  after.users = before.users ∧ after.wraps = before.wraps

/-- The account's encryption-key wrap is this one: it has been, or it is stored now. -/
def Reissued (userId : Int) (wrapped : Bytes) (now : Timestamp) (before after : Database) :
    Prop :=
  after = before ∧ (∃ row ∈ before.wraps, IsKeyWrap userId row ∧ row.wrappedKey = wrapped) ∨
    KeyWrapReplaced before after userId wrapped now

theorem Reissued.users {wrapped : Bytes} {now : Timestamp} {before after : Database}
    (reissued : Reissued userId wrapped now before after) : after.users = before.users := by
  obtain ⟨rfl, -⟩ | replaced := reissued
  · rfl
  · exact replaced.users

/-- A session a response sets, if any, is this account's. -/
def SetsMine (account : String) (header : Option SetCookie) : Prop :=
  ∀ claims, header = some (.session claims) → normalizeEmail claims.email = some account

/-- `passkey_login_finish` signs in nobody but the account its ceremony asked for. -/
theorem serves_login {wa : Webauthn} {raw responseJson : String}
    (sent : ctx.passkeyState = some raw) (asked : asksFor wa account ctx.now raw = true) :
    ServesAlone (fun reply next => Spares db next ∧ SetsMine account reply.2)
      (passkeyLoginFinish wa ctx responseJson) db := by
  apply Server.Deciding.serves_passkeyLoginFinish idle_alone
  · intro later message header grown plain
    obtain rfl := since_eq grown
    exact ⟨⟨rfl, rfl⟩, fun claims set => absurd set (plain claims)⟩
  · intro later row blob grown answers ⟨raw', state, sent', decoded, asserts⟩
    cases Option.some.inj (sent.symm.trans sent')
    obtain rfl := since_eq grown
    refine ⟨trivial, idle_alone, fun last grown' => ?_⟩
    obtain rfl := since_eq grown'
    refine ⟨⟨⟨rfl, rfl⟩, fun claims set => absurd (Option.some.inj set) nofun⟩, ?_⟩
    refine fun owner member same => ⟨⟨rfl, rfl⟩, fun claims set => ?_⟩
    cases set
    cases state with
    | reg subject reg expiresAt => exact absurd rfl (asserts subject reg expiresAt)
    | discoverableAuth auth expiresAt => simp [asksFor, decoded] at asked
    | auth subject auth expiresAt =>
        have named : normalizeEmail subject = some account := by
          simpa [asksFor, decoded] using asked
        obtain ⟨middle, email, answerer, since, -, named', at_email, answered⟩ :=
          answers raw subject auth expiresAt sent decoded
        cases Option.some.inj (named.symm.trans named')
        obtain rfl := since_eq since
        obtain ⟨present, email'⟩ := mem_of_userByEmail at_email
        have one : owner = answerer := Table.eq_of_conflict User.conflict_symm member present
          (.inl (same.trans answered.symm))
        have normalized : normalizeEmail account = some account := normalizeEmail_idem named
        rw [one, email']
        exact normalized

section Account

variable (ctx) (mine : Mine account userId ctx.claims db)

include mine

theorem serves_status :
    ServesAlone (fun reply next => next = db ∧ reply.2 = none ∧
        ∀ status, reply.1 = .ok status → (status.enabled = true ↔ Encrypted db userId))
      (encryptionStatus ctx) db := by
  apply serves_encryptionStatus idle_alone
  · exact fun later message grown => ⟨since_eq grown, rfl, nofun⟩
  · intro before later me enabled grown signedIn grown' ran
    obtain rfl := since_eq grown
    obtain rfl := since_eq grown'
    refine ⟨rfl, rfl, ?_⟩
    rintro status ⟨⟩
    rw [← mine.id_eq signedIn]
    exact (isEncrypted_eq_ok ran).2.2

theorem serves_wraps :
    ServesAlone (fun reply next => next = db ∧ reply.2 = none ∧
        ∀ wraps, reply.1 = .ok wraps → wraps = (wrapsOf db userId).map wrapDto)
      (encryptionWraps ctx) db := by
  apply serves_encryptionWraps idle_alone
  · exact fun later message grown => ⟨since_eq grown, rfl, nofun⟩
  · intro before later me rows grown signedIn grown' ran
    obtain rfl := since_eq grown
    obtain rfl := since_eq grown'
    refine ⟨rfl, rfl, ?_⟩
    rintro wraps ⟨⟩
    rw [← mine.id_eq signedIn]
    exact map_ofRow_listWraps ran

/-- `encryption_enable` answers that it turned encryption on, or changes nothing. -/
theorem serves_enable {passkey : Option PasskeyWrapDto} {encryptionKeyWrap : Bytes} :
    ServesAlone (fun reply next => reply.2 = none ∧
        ((∃ message, reply.1 = .error message) ∧ next = db ∨
          reply.1 = .ok () ∧ db.HasUser userId ∧
            Server.Outcomes.Enabled db next userId passkey encryptionKeyWrap ctx.now))
      (encryptionEnable ctx passkey encryptionKeyWrap) db := by
  apply serves_encryptionEnable idle_alone
  · exact fun later message grown => ⟨rfl, .inl ⟨⟨_, rfl⟩, since_eq grown⟩⟩
  · refine decides_alone fun me outcome next signedIn ran => ⟨rfl, ?_⟩
    rw [mine.id_eq signedIn] at ran
    obtain ⟨rfl, -, refused⟩ | ⟨-, present, rfl, enabled⟩ := enableTransaction_eq_ok ran
    · exact .inl ⟨refused, rfl⟩
    · exact .inr ⟨rfl, present, enabled⟩

theorem serves_addPasskeyWrap {credentialId wrappedKey : Bytes} :
    ServesAlone (fun reply next => reply.2 = none ∧
        (next = db ∨ ∃ id, WrapInserted db next
          (storedWrap id userId .passkey (some credentialId) wrappedKey ctx.now)))
      (encryptionAddPasskeyWrap ctx credentialId wrappedKey) db := by
  apply serves_encryptionAddPasskeyWrap idle_alone
  · exact fun later message grown => ⟨rfl, .inl (since_eq grown)⟩
  · refine decides_alone fun me _ next signedIn ran => ⟨rfl, ?_⟩
    rw [mine.id_eq signedIn] at ran
    exact .inr (wrapInserted ran)

/-- `encryption_replace_key_wrap` answers that this wrap is the account's, or changes
nothing. -/
theorem serves_replaceKeyWrap {wrappedKey : Bytes} :
    ServesAlone (fun reply next => reply.2 = none ∧
        ((∃ message, reply.1 = .error message) ∧ next = db ∨
          reply.1 = .ok () ∧ Reissued userId wrappedKey ctx.now db next))
      (encryptionReplaceKeyWrap ctx wrappedKey) db := by
  apply serves_encryptionReplaceKeyWrap idle_alone
  · exact fun later message grown => ⟨rfl, .inl ⟨⟨_, rfl⟩, since_eq grown⟩⟩
  · refine decides_alone fun me _ next signedIn ran => ⟨rfl, .inr ⟨rfl, ?_⟩⟩
    rw [mine.id_eq signedIn] at ran
    exact replaceEncryptionKeyWrap_eq_ok ran

theorem serves_delete {id : Int} :
    ServesAlone (fun reply next => reply.2 = none ∧
        (next = db ∨ ∃ target, PasskeyDeleted db next userId target))
      (passkeyDelete ctx id) db := by
  apply serves_passkeyDelete idle_alone
  · exact fun later message grown => ⟨rfl, .inl (since_eq grown)⟩
  · refine decides_alone fun me outcome next signedIn ran => ⟨rfl, ?_⟩
    rw [mine.id_eq signedIn] at ran
    obtain ⟨rfl, -⟩ | ⟨target, -, -, deleted⟩ := deleteTransaction_eq_ok ran
    · exact .inl rfl
    · exact .inr ⟨target, deleted⟩

end Account

theorem serves_register (account : String) {wa : Webauthn} {responseJson : String}
    {prfCapable : Bool} :
    ServesAlone (fun reply next => Spares db next ∧ SetsMine account reply.2)
      (passkeyRegisterFinish wa ctx responseJson prfCapable) db := by
  apply serves_passkeyRegisterFinish idle_alone
  · intro later message header grown plain
    obtain rfl := since_eq grown
    exact ⟨⟨rfl, rfl⟩, fun claims set => absurd set (plain claims)⟩
  · intro credentialId blob
    refine decides_alone fun me id next signedIn ran => ?_
    obtain ⟨-, users, -, wraps⟩ := Server.Outcomes.insertPasskey_eq_ok ran
    exact ⟨⟨users, wraps⟩, fun claims set => absurd (Option.some.inj set) nofun⟩

end Requests

/-! ## One ceremony by itself -/

/-- What does not fail in a ceremony that runs to completion: the server's word on an
enabled account arrives, and what the ceremony shows or hands over is.  Its word on a
re-issued key may be lost, unless that leaves the ceremony unconfirmed. -/
def Settled (unconfirmed : Prop) : Await → Prop
  | .receive .replaceKeyWrap => unconfirmed
  | .receive .enable => True
  | .keyScreen | .handOver | .remember => True
  | _ => False

section Ceremonies

variable {D α : Type} {world : World D} {unconfirmed : Prop}

/-- Run to completion, with nothing else happening on the device, the program ends in
`post`. -/
abbrev Completes (unconfirmed : Prop) (post : α → World D → Prop)
    (program : Program (World D) Await Fault α) (world : World D) : Prop :=
  Obeys (.sparing (Settled unconfirmed)) (· = ·) (fun _ _ _ => True) post program world

theorem completes_awaiting {await : Await} {change : World D → World D}
    {post : Except Fault Unit → World D → Prop} (done : post (.ok ()) (change world))
    (failed : ¬ Settled unconfirmed await → ∀ fault, post (.error fault) world) :
    Completes unconfirmed post (awaiting await change) world := by
  rintro later rfl
  exact ⟨fun _ => ⟨trivial, done⟩, failed⟩

theorem completes_webCrypto {computed : Except UnlockError α}
    {post : Except UnlockError α → World D → Prop} (next : post computed world)
    (refused : ∀ error, post (.error error) world) :
    Completes unconfirmed post (webCrypto computed) world :=
  obeys_bind (completes_awaiting next fun _ _ => refused _)

/-- Only the database has changed. -/
def Served (before after : World D) : Prop :=
  ∃ db, after = { before with db }

/-- A call, once its handler is served by itself. -/
theorem completes_call {endpoint : Endpoint} {account passkeyState : Option String}
    {handler : AppCtx → Handler α} {post : Except CallError (α × Option SessionClaims) →
      World D → Prop} (promise : Reply α → Database → Prop)
    (serves : ServesAlone promise (handler (world.request passkeyState)) world.db)
    (unsent : ∀ text, post (.error (.transport text)) world)
    (arrived : ∀ reply header db, promise (reply, header) db →
      post (told world.cookie reply) (({ world with db } : World D).arrive header))
    (lost : ¬ Settled unconfirmed (.receive endpoint) → ∀ reply db text, promise reply db →
      post (.error (.transport text)) { world with db }) :
    Completes unconfirmed post (call endpoint account passkeyState handler) world := by
  apply obeys_call
  · rintro later text rfl
    exact unsent text
  rintro later rfl -
  refine ⟨trivial, ?_⟩
  have executed : Obeys .any (· = ·) (fun _ _ _ => True) promise
      ((handler (world.request passkeyState)).run.run none) ((dbPart D).get world) := serves
  have framed : Served world world := ⟨world.db, rfl⟩
  refine Obeys.mono ?_ (obeys_zoom ?_ ?_ framed executed)
  · rintro ⟨reply, header⟩ _ ⟨promised, db, rfl⟩ later rfl
    exact ⟨fun _ => ⟨trivial, arrived reply header db promised⟩,
      fun fails text => lost fails (reply, header) db text promised⟩
  · rintro before after framed rfl
    exact ⟨rfl, framed⟩
  · rintro label before after ⟨db, rfl⟩ -
    exact ⟨trivial, after, rfl⟩

end Ceremonies

section Account

variable {D : Type} {browser : Browser D} {account user : String} {userId : Int}
  {world later last : World D} {unconfirmed : Prop}

/-- The ceremony cookie of the answer was set for a sign-in of this account. -/
def Asks (account : String) (answer : Answer browser) : Prop :=
  ∀ now, asksFor browser.wa account now answer.passkeyState = true

/-- What a ceremony leaves that has stored and shown nothing. -/
structure Quiet (account : String) (userId : Int) (before after : World D) : Prop where
  mine : Mine account userId after.cookie after.db
  spares : Spares before.db after.db
  shown : after.shown = before.shown

theorem Quiet.refl (mine : Mine account userId world.cookie world.db) :
    Quiet account userId world world :=
  ⟨mine, ⟨rfl, rfl⟩, rfl⟩

theorem Quiet.trans (first : Quiet account userId world later)
    (second : Quiet account userId later last) : Quiet account userId world last :=
  ⟨second.mine, ⟨second.spares.1.trans first.spares.1, second.spares.2.trans first.spares.2⟩,
    second.shown.trans first.shown⟩

theorem Mine.of_users {claims : Option SessionClaims} {db next : Database}
    (mine : Mine account userId claims db) (users : next.users = db.users) :
    Mine account userId claims next :=
  ⟨mine.known.aged (Aged.of_users users), mine.named⟩

/-- A response arrives that sets no session but one of this account. -/
theorem Mine.receive {claims : Option SessionClaims} {header : Option SetCookie}
    {db : Database} (mine : Mine account userId claims db) (sets : SetsMine account header) :
    Mine account userId (receive header claims) db := by
  refine ⟨mine.known, fun session set => ?_⟩
  cases header with
  | none => exact mine.named session set
  | some header =>
      cases header with
      | session issued =>
          cases set
          exact sets session rfl
      | clearSession => cases set
      | clearPasskeyState => exact mine.named session set

theorem quiet_served {db : Database} (mine : Mine account userId world.cookie world.db)
    (spares : Spares world.db db) : Quiet account userId world { world with db } :=
  ⟨mine.of_users spares.1, spares, rfl⟩

theorem Quiet.arrive {header : Option SetCookie} (quiet : Quiet account userId world later)
    (sets : SetsMine account header) : Quiet account userId world (later.arrive header) :=
  ⟨quiet.mine.receive sets, quiet.spares, quiet.shown⟩

/-! ### Asserting, and reading the wraps -/

theorem completes_assertWithPrf {answer : Answer browser}
    {post : Except AssertionError PrfAssertion → World D → Prop}
    (mine : Mine account userId world.cookie world.db) (asks : Asks account answer)
    (next : ∀ later result, Quiet account userId world later →
      (∀ assertion, result = .ok assertion →
        assertion.prfOutput = browser.prf assertion.credentialId) → post result later) :
    Completes unconfirmed post (assertWithPrf browser user answer).run world := by
  have gaveUp : ∀ {later} error, Quiet account userId world later →
      post (.error error) later :=
    fun error quiet => next _ _ quiet fun _ same => absurd same nofun
  have here : Quiet account userId world world := .refl mine
  refine obeys_attempt_bind (obeys_orGiveUp (completes_awaiting ?_ fun _ _ => gaveUp _ here))
  refine obeys_attempt_bind (obeys_orGiveUp (completes_awaiting ?_ fun _ _ => gaveUp _ here))
  refine obeys_attempt_bind (obeys_orGiveUp (completes_call _
    (serves_login rfl (asks world.now)) (fun _ => gaveUp _ here) ?_ ?_))
  · rintro reply header db ⟨spares, sets⟩
    have quiet := (quiet_served mine spares).arrive sets
    cases reply with
    | error message => exact gaveUp _ quiet
    | ok _ =>
        cases given : answer.prfOutput with
        | none => exact gaveUp _ quiet
        | some prfOutput =>
            cases named : credentialIdFromResponse browser answer.responseJson with
            | none => exact gaveUp _ quiet
            | some credentialId =>
                refine next _ _ quiet fun assertion same => ?_
                cases same
                exact answer.fixed credentialId prfOutput named given
  · rintro - ⟨reply, header⟩ db text ⟨spares, -⟩
    exact gaveUp _ (quiet_served mine spares)

/-- The wraps a ceremony is handed are the account's. -/
theorem completes_wraps {named : Option String}
    {post : Except CallError (List WrapDto × Option SessionClaims) → World D → Prop}
    (mine : Mine account userId world.cookie world.db)
    (answered : post (.ok ((wrapsOf world.db userId).map wrapDto, world.cookie)) world)
    (failed : ∀ error, post (.error error) world) :
    Completes unconfirmed post (call .wraps named none encryptionWraps) world := by
  refine completes_call _ (serves_wraps (world.request none) mine)
    (fun _ => failed _) ?_ ?_
  · rintro (message | wraps) header db ⟨rfl, rfl, listed⟩
    · exact failed _
    · rw [told, listed wraps rfl]
      exact answered
  · rintro - reply db text ⟨rfl, -⟩
    exact failed _

theorem completes_orMessage {α : Type} {message : String} {option : Option α}
    {post : Except String α → World D → Prop}
    (found : ∀ value, option = some value → post (.ok value) world)
    (missing : option = none → post (.error message) world) :
    Completes unconfirmed post (orMessage message option : Ceremony D α).run world := by
  cases option with
  | none => exact missing rfl
  | some value => exact found value rfl

/-- The opener a ceremony is handed holds one of the account's wraps. -/
theorem completes_openExistingRoute {source : KeySource} {answer : Answer browser}
    {post : Except String Opener → World D → Prop}
    (mine : Mine account userId world.cookie world.db) (asks : Asks account answer)
    (opened : ∀ later existing row, Quiet account userId world later →
      row ∈ world.db.wraps → row.userId = userId → existing.wrap = row.wrappedKey →
      post (.ok existing) later)
    (failed : ∀ later message, Quiet account userId world later →
      post (.error message) later) :
    Completes unconfirmed post (openExistingRoute browser user source answer
      ((wrapsOf world.db userId).map wrapDto)).run world := by
  have chosen : ∀ {asked route},
      chooseRoute ((wrapsOf world.db userId).map wrapDto) asked = some route →
      ∃ row ∈ world.db.wraps, row.userId = userId ∧ route.wrappedKey = row.wrappedKey := by
    intro asked route found
    obtain ⟨dto, member, offers⟩ := chooseRoute_eq_some found
    obtain ⟨row, listed, rfl⟩ := List.mem_map.mp member
    obtain ⟨stored, owns⟩ := mem_wrapsOf.mp listed
    exact ⟨row, stored, owns, (routeOf_eq_some.mp offers).2.2.2.2⟩
  have here : Quiet account userId world world := .refl mine
  cases source with
  | passkey =>
      refine obeys_attempt_bind (obeys_orGiveUp (completes_assertWithPrf mine asks ?_))
      rintro later (error | existing) quiet -
      · exact failed later _ quiet
      · refine obeys_attempt_bind (completes_orMessage ?_ fun _ => failed later _ quiet)
        intro route found
        obtain ⟨row, stored, owns, same⟩ := chosen found
        exact obeys_attempt_pure (opened later _ row quiet stored owns same)
  | encryptionKey key =>
      refine obeys_attempt_bind (completes_orMessage ?_ fun _ => failed world _ here)
      intro route found
      obtain ⟨row, stored, owns, same⟩ := chosen found
      exact obeys_attempt_pure (opened world _ row here stored owns same)

/-! ### What the ceremonies leave -/

/-- The account is encrypted, and each wrap is filed under a secret of its own, the
encryption key's under the key shown last. -/
def On (browser : Browser D) (userId : Int) (world : World D) : Prop :=
  ∃ dek bytes, Routed browser.suite browser.prf world.db userId dek bytes ∧
    world.shown = some (formatKey bytes)

/-- A ceremony of the account leaves it as it should be, if it was. -/
structure Stands (browser : Browser D) (account : String) (userId : Int)
    (before after : World D) : Prop where
  mine : Mine account userId after.cookie after.db
  off : Bare before.db userId → Bare after.db userId
  on : On browser userId before → On browser userId after

theorem Quiet.stands (quiet : Quiet account userId world later) :
    Stands browser account userId world later := by
  refine ⟨quiet.mine, fun bare => bare.of_same quiet.spares.1 quiet.spares.2, ?_⟩
  rintro ⟨dek, bytes, routed, shown⟩
  exact ⟨dek, bytes, routed.of_same quiet.spares.1 quiet.spares.2, quiet.shown.trans shown⟩

/-- An account with a wrap is not bare. -/
theorem absurd_of_bare {row : EntryKeyWrap} {p : Prop} (bare : Bare world.db userId)
    (stored : row ∈ world.db.wraps) (owns : row.userId = userId) : p :=
  absurd owns (bare.2 row stored)

/-- Whatever opens a wrap of the account finds its data key. -/
theorem found_eq_of_routed {existing : Opener} {row : EntryKeyWrap} {dek found : D}
    {bytes : KeyBytes} (routed : Routed browser.suite browser.prf world.db userId dek bytes)
    (stored : row ∈ world.db.wraps) (owns : row.userId = userId)
    (same : existing.wrap = row.wrappedKey) (finds : Opens browser.suite existing found) :
    found = dek :=
  (((routed.filed row stored owns).opens_iff same).mp finds).2

/-- A passkey was given a wrap of what an opener found. -/
theorem stands_inserted {existing : Opener} {row : EntryKeyWrap} {found : D} {id : Int}
    {target : Bytes} {now : Timestamp} {db : Database}
    (quiet : Quiet account userId world later) (stored : row ∈ world.db.wraps)
    (owns : row.userId = userId) (same : existing.wrap = row.wrappedKey)
    (finds : Opens browser.suite existing found)
    (inserted : WrapInserted later.db db (storedWrap id userId .passkey (some target)
      (lock browser.suite .passkey (browser.prf target) found) now)) :
    Stands browser account userId world { later with db } := by
  refine ⟨quiet.mine.of_users inserted.users, fun bare => absurd_of_bare bare stored owns, ?_⟩
  rintro ⟨dek, bytes, routed, shown⟩
  obtain rfl := found_eq_of_routed routed stored owns same finds
  exact ⟨found, bytes,
    (routed.of_same quiet.spares.1 quiet.spares.2).wrapInserted inserted,
    quiet.shown.trans shown⟩

theorem completes_addPasskeyKey {target : Bytes} {source : KeySource}
    {opening adding : Answer browser} (mine : Mine account userId world.cookie world.db)
    (opens : Asks account opening) (adds : Asks account adding) :
    Completes unconfirmed (fun _ later => Stands browser account userId world later)
      (addPasskeyKey browser user target source opening adding).run world := by
  have here : Quiet account userId world world := .refl mine
  refine obeys_attempt_bind (obeys_orGiveUp (completes_wraps mine ?_ fun _ => here.stands))
  simp only [Except.mapError]
  split
  · exact obeys_attempt_bind (obeys_attempt_throw here.stands)
  refine obeys_attempt_bind (completes_openExistingRoute mine opens ?_
    fun later _ quiet => quiet.stands)
  intro second existing row quiet stored owns same
  refine obeys_attempt_bind (obeys_orGiveUp (completes_assertWithPrf quiet.mine adds ?_))
  rintro third (error | fresh) quiet' prf
  · exact (quiet.trans quiet').stands
  replace quiet := quiet.trans quiet'
  refine obeys_attempt_bind (obeys_orGiveUp ?_)
  unfold mustBeTarget
  split
  case isFalse => exact quiet.stands
  case isTrue answered =>
  refine obeys_attempt_bind (obeys_orGiveUp (completes_webCrypto ?_ fun _ => quiet.stands))
  cases added : addPasskeyRoute browser.suite existing fresh.prfOutput with
  | error error => exact quiet.stands
  | ok wrapped =>
      obtain ⟨found, finds, rfl⟩ := addPasskeyRoute_eq_ok added
      have leaves : ∀ db, (db = third.db ∨ ∃ id, WrapInserted third.db db
            (storedWrap id userId .passkey (some target)
              (lock browser.suite .passkey fresh.prfOutput found) third.now)) →
          Stands browser account userId world { third with db } := by
        rintro db (rfl | ⟨id, inserted⟩)
        · exact quiet.stands
        · rw [prf fresh rfl, answered] at inserted
          exact stands_inserted quiet stored owns same finds inserted
      refine obeys_attempt_bind (obeys_orGiveUp (completes_call _
        (serves_addPasskeyWrap (third.request none) quiet.mine)
        (fun _ => quiet.stands) ?_ ?_))
      · rintro reply header db ⟨rfl, inserted⟩
        have stands := leaves db inserted
        cases reply <;> exact stands
      · rintro - reply db text ⟨-, inserted⟩
        exact leaves db inserted

/-! ### The encryption key -/

theorem completes_replaceKeyWrap {wrapped : Bytes} {named : Option String}
    {post : Except CallError (Unit × Option SessionClaims) → World D → Prop}
    (mine : Mine account userId world.cookie world.db)
    (stored : ∀ db claims, Reissued userId wrapped world.now world.db db →
      post (.ok ((), claims)) { world with db })
    (failed : ∀ error db, db = world.db ∨
        ¬ unconfirmed ∧ Reissued userId wrapped world.now world.db db →
      post (.error error) { world with db }) :
    Completes unconfirmed post (call .replaceKeyWrap named none fun ctx =>
      encryptionReplaceKeyWrap ctx wrapped) world := by
  refine completes_call _ (serves_replaceKeyWrap (world.request none) mine)
    (fun _ => failed _ world.db (.inl rfl)) ?_ ?_
  · rintro reply header db ⟨rfl, ⟨⟨message, rfl⟩, rfl⟩ | ⟨rfl, reissued⟩⟩
    · exact failed _ world.db (.inl rfl)
    · exact stored db _ reissued
  · rintro lost reply db text ⟨-, ⟨-, rfl⟩ | ⟨-, reissued⟩⟩
    · exact failed _ world.db (.inl rfl)
    · exact failed _ db (.inr ⟨lost, reissued⟩)

/-- The wrap stored by a re-issue, if the server says so, is the account's, and may have
been already when its first answer was lost. -/
theorem completes_store {wrapped : Bytes} {named : Option String}
    {post : Except String Unit → World D → Prop}
    (mine : Mine account userId world.cookie world.db)
    (stored : ∀ middle db,
      (middle = world.db ∨ Reissued userId wrapped world.now world.db middle) →
      Reissued userId wrapped world.now middle db → post (.ok ()) { world with db })
    (failed : ∀ db, db = world.db ∨ ¬ unconfirmed →
      post (.error REISSUE_UNCONFIRMED) { world with db }) :
    Completes unconfirmed post (storeEncryptionKeyWrap named wrapped) world := by
  refine obeys_bind (completes_replaceKeyWrap mine (fun db _ => stored world.db db (.inl rfl)) ?_)
  intro error middle first
  have users : middle.users = world.db.users := by
    obtain rfl | ⟨-, reissued⟩ := first
    · rfl
    · exact reissued.users
  refine obeys_bind (completes_replaceKeyWrap (mine.of_users users) ?_ ?_)
  · exact fun db _ => stored middle db (first.imp_right And.right)
  · intro error db second
    apply failed db
    obtain rfl | ⟨lost, -⟩ := second
    · exact first.imp_right And.left
    · exact .inr lost

theorem completes_showKey {key : String} {post : Except String Unit → World D → Prop}
    (seen : post (.ok ()) { world with shown := some key }) :
    Completes unconfirmed post (showKey key : Ceremony D Unit).run world :=
  obeys_orGiveUp (completes_awaiting seen fun unsettled => absurd trivial unsettled)

theorem routed_reissued {dek : D} {bytes newBytes : KeyBytes} {now : Timestamp}
    {before after : Database}
    (routed : Routed browser.suite browser.prf before userId dek bytes)
    (reissued : Reissued userId (lock browser.suite .encryptionKey newBytes.val dek) now
      before after) :
    Routed browser.suite browser.prf after userId dek newBytes := by
  obtain ⟨rfl, row, stored, keyWrap, locked⟩ | replaced := reissued
  · exact routed.keyWrapKept stored keyWrap locked
  · exact routed.keyWrapReplaced replaced

/-- A re-issued key was stored, at the first try or the second, and shown. -/
theorem stands_reissued {existing : Opener} {row : EntryKeyWrap} {found : D}
    {newBytes : KeyBytes} {now : Timestamp} {middle db : Database}
    (quiet : Quiet account userId world later) (stored : row ∈ world.db.wraps)
    (owns : row.userId = userId) (same : existing.wrap = row.wrappedKey)
    (finds : Opens browser.suite existing found)
    (first : middle = later.db ∨
      Reissued userId (lock browser.suite .encryptionKey newBytes.val found) now
        later.db middle)
    (second : Reissued userId (lock browser.suite .encryptionKey newBytes.val found) now
      middle db) :
    Stands browser account userId world
      { later with db, shown := some (formatKey newBytes) } := by
  have users : db.users = later.db.users := by
    obtain rfl | reissued := first
    · exact second.users
    · exact second.users.trans reissued.users
  refine ⟨quiet.mine.of_users users, fun bare => absurd_of_bare bare stored owns, ?_⟩
  rintro ⟨dek, bytes, routed, -⟩
  obtain rfl := found_eq_of_routed routed stored owns same finds
  have routed' := routed.of_same quiet.spares.1 quiet.spares.2
  refine ⟨found, newBytes, ?_, rfl⟩
  obtain rfl | reissued := first
  · exact routed_reissued routed' second
  · exact routed_reissued (routed_reissued routed' reissued) second

/-- A re-issue leaves the account as it should be, or ends unconfirmed. -/
theorem completes_newKey {source : KeySource} {answer : Answer browser} {bytes : KeyBytes}
    (mine : Mine account userId world.cookie world.db) (asks : Asks account answer) :
    Completes unconfirmed (fun result later => Stands browser account userId world later ∨
        result = .error REISSUE_UNCONFIRMED ∧ ¬ unconfirmed)
      (newKey browser user source answer bytes).run world := by
  have here : Quiet account userId world world := .refl mine
  refine obeys_attempt_bind (obeys_attempt_bind (obeys_orGiveUp
    (completes_wraps mine ?_ fun _ => .inl here.stands)))
  refine obeys_attempt_bind (completes_openExistingRoute mine asks ?_
    fun later _ quiet => .inl quiet.stands)
  intro later existing row quiet stored owns same
  refine obeys_attempt_bind (obeys_orGiveUp (completes_webCrypto ?_
    fun _ => .inl quiet.stands))
  cases reissued : reissueEncryptionKey browser.suite existing bytes with
  | error error => exact .inl quiet.stands
  | ok pair =>
      obtain ⟨shown, found, finds, locked⟩ := reissueEncryptionKey_eq_ok reissued
      refine obeys_attempt_bind (obeys_orGiveUp (completes_store quiet.mine ?_ ?_))
      · intro middle db first second
        rw [locked] at first second
        have stands := stands_reissued quiet stored owns same finds first second
        refine obeys_attempt_pure (completes_showKey ?_)
        rw [shown]
        exact .inl stands
      · rintro db (rfl | lost)
        · exact .inl quiet.stands
        · exact .inr ⟨rfl, lost⟩

/-! ### Turning encryption on -/

/-- An enable ceremony that succeeds leaves the account encrypted, and any other one as
it was. -/
def TurnsOn (browser : Browser D) (account : String) (userId : Int)
    (result : Except String Unit) (later : World D) : Prop :=
  Mine account userId later.cookie later.db ∧
    match result with
    | .ok _ => On browser userId later
    | .error _ => Bare later.db userId

theorem completes_handOver {key : SessionKey D} {post : Except String Unit → World D → Prop}
    (done : post (.ok ())
      { world with
        sessions := world.sessions ++ [key]
        keystore := some { user := key.user, key := key.key } }) :
    Completes unconfirmed post (handOver key).run world := by
  refine obeys_attempt_bind (obeys_orGiveUp (completes_awaiting ?_
    fun unsettled => absurd trivial unsettled))
  exact obeys_orGiveUp (completes_awaiting done fun unsettled => absurd trivial unsettled)

/-- Once the pending enable is on screen, both routes go on alike. -/
theorem completes_commit {pending : PendingEnable D} {draw : Draw D}
    (mine : Mine account userId world.cookie world.db) (bare : Bare world.db userId)
    (shows : pending.encryptionKey = formatKey draw.keyBytes)
    (keys : pending.encryptionKeyWrap =
      lock browser.suite .encryptionKey draw.keyBytes.val draw.dek)
    (passkeys : ∀ dto, pending.passkey = some dto →
      dto.wrappedKey = lock browser.suite .passkey (browser.prf dto.credentialId) draw.dek) :
    Completes unconfirmed (TurnsOn browser account userId) (do
      showKey pending.encryptionKey
      let key ← commitEnable pending
      handOver key : Ceremony D Unit).run world := by
  refine obeys_attempt_bind (completes_showKey ?_)
  refine obeys_attempt_bind (obeys_attempt_bind (obeys_orGiveUp (completes_call _
    (serves_enable (world.request none) mine) (fun _ => ⟨mine, bare⟩) ?_
    fun unsettled => absurd trivial unsettled)))
  rintro reply header db ⟨rfl, ⟨⟨message, rfl⟩, rfl⟩ | ⟨rfl, present, enabled⟩⟩
  · exact ⟨mine, bare⟩
  · refine obeys_attempt_pure (completes_handOver ⟨⟨?_, mine.named⟩, draw.dek,
      draw.keyBytes, routed_enabled bare present keys passkeys enabled, congrArg some shows⟩)
    exact mine.known.aged
      (SignOut.aged_of_rewrite enabled.users fun user => ⟨rfl, rfl, le_refl _⟩)

theorem completes_turnOn {forgets : Forgets} {draw : Draw D}
    {route : Option (Answer browser)} (mine : Mine account userId world.cookie world.db)
    (bare : Bare world.db userId) (asks : ∀ answer, route = some answer → Asks account answer) :
    Completes unconfirmed (TurnsOn browser account userId)
      (turnOn browser user forgets draw route).run world := by
  cases route with
  | some answer =>
      refine obeys_attempt_bind (obeys_attempt_bind (obeys_orGiveUp
        (completes_assertWithPrf mine (asks answer rfl) ?_)))
      rintro first (error | asserted) quiet prf
      · exact ⟨quiet.mine, bare.of_same quiet.spares.1 quiet.spares.2⟩
      have bare' := bare.of_same quiet.spares.1 quiet.spares.2
      refine obeys_attempt_bind (obeys_orGiveUp (completes_webCrypto ?_
        fun _ => ⟨quiet.mine, bare'⟩))
      refine obeys_attempt_pure (completes_commit quiet.mine bare' rfl rfl ?_)
      rintro dto same
      cases same
      exact congrArg (lock browser.suite .passkey · draw.dek) (prf asserted rfl)
  | none =>
      refine obeys_attempt_bind (obeys_attempt_bind (obeys_orGiveUp
        (completes_webCrypto ?_ fun _ => ⟨mine, bare⟩)))
      exact obeys_attempt_pure (completes_commit mine bare rfl rfl nofun)

/-! ### The other calls -/

theorem completes_passkeyDelete {id : Int}
    (mine : Mine account userId world.cookie world.db) :
    Completes unconfirmed (fun _ later => Stands browser account userId world later)
      (call .other none none fun ctx => passkeyDelete ctx id) world := by
  have leaves : ∀ db, (db = world.db ∨ ∃ target, PasskeyDeleted world.db db userId target) →
      Stands browser account userId world { world with db } := by
    rintro db (rfl | ⟨target, deleted⟩)
    · exact (Quiet.refl mine).stands
    refine ⟨mine.of_users deleted.users, fun bare => bare.passkeyDeleted deleted, ?_⟩
    rintro ⟨dek, bytes, routed, shown⟩
    exact ⟨dek, bytes, routed.passkeyDeleted deleted, shown⟩
  refine completes_call _ (serves_delete (world.request none) mine)
    (fun _ => (Quiet.refl mine).stands) ?_ ?_
  · rintro reply header db ⟨rfl, left⟩
    exact leaves db left
  · rintro - reply db text ⟨-, left⟩
    exact leaves db left

theorem completes_passkeyRegister {passkeyState responseJson : String} {prfCapable : Bool}
    (mine : Mine account userId world.cookie world.db) :
    Completes unconfirmed (fun _ later => Stands browser account userId world later)
      (call .other none (some passkeyState) fun ctx =>
        passkeyRegisterFinish browser.wa ctx responseJson prfCapable) world := by
  refine completes_call _ (serves_register account) (fun _ => (Quiet.refl mine).stands) ?_ ?_
  · rintro reply header db ⟨spares, sets⟩
    exact ((quiet_served mine spares).arrive sets).stands
  · rintro - reply db text ⟨spares, -⟩
    exact (quiet_served mine spares).stands

/-- What a probe is told of the account. -/
theorem completes_probe {named : Option String}
    (mine : Mine account userId world.cookie world.db) :
    Completes unconfirmed (fun result later => later = world ∧ ∀ status claims,
        result = .ok (status, claims) → (status.enabled = true ↔ Encrypted world.db userId))
      (call .status named none encryptionStatus) world := by
  refine completes_call _ (serves_status (world.request none) mine)
    (fun _ => ⟨rfl, nofun⟩) ?_ ?_
  · rintro (message | status) header db ⟨rfl, rfl, enabled⟩
    · exact ⟨rfl, nofun⟩
    · refine ⟨rfl, ?_⟩
      rintro status claims ⟨⟩
      exact enabled status rfl
  · rintro - reply db text ⟨rfl, -⟩
    exact ⟨rfl, nofun⟩

end Account

/-! ## Histories -/

section Histories

variable {D : Type} (browser : Browser D) (account : String)

/-- The device and its tab, which offers to turn encryption on while its state is
`EncryptionState::Disabled`. -/
structure Page (D : Type) where
  world : World D
  disabled : Bool

/-- What is run on the page, one after another. -/
inductive Ceremony (browser : Browser D)
  | probe
  | turnOn (user : String) (forgets : Forgets) (draw : Draw D)
      (route : Option (Answer browser))
  | addPasskeyKey (user : String) (target : Bytes) (source : KeySource)
      (opening adding : Answer browser)
  | newKey (user : String) (source : KeySource) (answer : Answer browser)
      (bytes : KeyBytes)
  | passkeyRegisterFinish (passkeyState responseJson : String) (prfCapable : Bool)
  | passkeyDelete (id : Int)
  /-- Time passes, and the session is refreshed or ends. -/
  | elsewhere (now : Timestamp) (claims : Option SessionClaims)

/-- The state a probe publishes for its answer. -/
def probed : Except CallError (EncryptionStatus × Option SessionClaims) → Bool
  | .ok (status, _) => !status.enabled
  | .error _ => false

/-- One ceremony of the account, run to completion.  Its assertions are for this
account, encryption is turned on where that is offered, and a re-issue that loses an
answer of the server does not end unconfirmed. -/
inductive Runs : Page D → Ceremony browser → Page D → Prop
  | probe {page : Page D} {named : Option String} {result last}
      (ended : Ends (.sparing (Settled False)) (call .status named none encryptionStatus)
        page.world result last) :
      Runs page .probe { world := last, disabled := probed result }
  | turnOn {page : Page D} {user forgets draw route result last}
      (offered : page.disabled = true)
      (asks : ∀ answer, route = some answer → Asks account answer)
      (ended : Ends (.sparing (Settled False)) (turnOn browser user forgets draw route).run
        page.world result last) :
      Runs page (.turnOn user forgets draw route)
        { world := last, disabled := !result.isOk }
  | addPasskeyKey {page : Page D} {user target source opening adding result last}
      (opens : Asks account opening) (adds : Asks account adding)
      (ended : Ends (.sparing (Settled False))
        (addPasskeyKey browser user target source opening adding).run
        page.world result last) :
      Runs page (.addPasskeyKey user target source opening adding)
        { page with world := last }
  | newKey {page : Page D} {user source answer bytes result last}
      (asks : Asks account answer)
      (ended : Ends (.sparing (Settled (result = .error REISSUE_UNCONFIRMED)))
        (newKey browser user source answer bytes).run page.world result last) :
      Runs page (.newKey user source answer bytes) { page with world := last }
  | passkeyRegisterFinish {page : Page D} {passkeyState responseJson prfCapable result last}
      (ended : Ends (.sparing (Settled False)) (call .other none (some passkeyState) fun ctx =>
          passkeyRegisterFinish browser.wa ctx responseJson prfCapable)
        page.world result last) :
      Runs page (.passkeyRegisterFinish passkeyState responseJson prfCapable)
        { page with world := last }
  | passkeyDelete {page : Page D} {id result last}
      (ended : Ends (.sparing (Settled False)) (call .other none none fun ctx =>
          passkeyDelete ctx id)
        page.world result last) :
      Runs page (.passkeyDelete id) { page with world := last }
  | elsewhere {page : Page D} {now claims}
      (named : ∀ session, claims = some session →
        normalizeEmail session.email = some account) :
      Runs page (.elsewhere now claims)
        { page with world := { page.world with now, cookie := claims } }

/-- A history of ceremonies of the account. -/
inductive History : Page D → List (Ceremony browser) → Page D → Prop
  | start (page : Page D) : History page [] page
  | next {first middle last : Page D} {past : List (Ceremony browser)}
      {ceremony : Ceremony browser} (before : History first past middle)
      (runs : Runs browser account middle ceremony last) :
      History first (past ++ [ceremony]) last

/-- What every history keeps. -/
structure Held (userId : Int) (page : Page D) : Prop where
  mine : Mine account userId page.world.cookie page.world.db
  standing : Bare page.world.db userId ∨ page.disabled = false ∧ On browser userId page.world

variable {browser account} {userId : Int} {page next last : Page D}

theorem Held.stands {world : World D} (held : Held browser account userId page)
    (stands : Stands browser account userId page.world world) :
    Held browser account userId { page with world } :=
  ⟨stands.mine, held.standing.imp stands.off fun ⟨enabled, on⟩ => ⟨enabled, stands.on on⟩⟩

theorem held_runs {ceremony : Ceremony browser} (held : Held browser account userId page)
    (runs : Runs browser account page ceremony next) :
    Held browser account userId next := by
  cases runs with
  | @probe named result world ended =>
      obtain ⟨rfl, told⟩ := (completes_probe held.mine).ends ended
      refine ⟨held.mine, held.standing.imp_right ?_⟩
      rintro ⟨-, on⟩
      refine ⟨?_, on⟩
      obtain ⟨dek, bytes, routed, -⟩ := on
      cases result with
      | error error => rfl
      | ok answer =>
          rw [probed, (told answer.1 answer.2 rfl).mpr routed.encrypted]
          rfl
  | @turnOn user forgets draw route result world offered asks ended =>
      have bare : Bare page.world.db userId := by
        obtain bare | ⟨enabled, -⟩ := held.standing
        · exact bare
        · rw [offered] at enabled
          cases enabled
      obtain ⟨mine, turned⟩ := (completes_turnOn held.mine bare asks).ends ended
      cases result with
      | error message => exact ⟨mine, .inl turned⟩
      | ok _ => exact ⟨mine, .inr ⟨rfl, turned⟩⟩
  | addPasskeyKey opens adds ended =>
      exact held.stands ((completes_addPasskeyKey held.mine opens adds).ends ended)
  | newKey asks ended =>
      obtain stands | ⟨reported, confirmed⟩ := (completes_newKey held.mine asks).ends ended
      · exact held.stands stands
      · exact absurd reported confirmed
  | passkeyRegisterFinish ended =>
      exact held.stands ((completes_passkeyRegister held.mine).ends ended)
  | passkeyDelete ended =>
      exact held.stands ((completes_passkeyDelete held.mine).ends ended)
  | elsewhere named => exact ⟨⟨held.mine.known, named⟩, held.standing⟩

theorem held_history {past : List (Ceremony browser)}
    (held : Held browser account userId page)
    (history : History browser account page past last) :
    Held browser account userId last := by
  induction history with
  | start => exact held
  | next before runs ih => exact held_runs ih runs

/-- Every wrap stored for the account has a secret of its own, which finds one data key,
the same for all of them; nothing else opens the wrap, and asked for it, `choose_route`
hands it out. -/
def RoutesOpen (browser : Browser D) (userId : Int) (world : World D) : Prop :=
  (∀ row ∈ world.db.wraps, row.userId ≠ userId) ∨
    ∃ dek rows, listWraps userId world.db = .ok (rows, world.db) ∧
      ∀ row ∈ world.db.wraps, row.userId = userId →
        (∃ opener : Opener, opener.wrap = row.wrappedKey ∧
          Owns browser.prf world.shown row opener) ∧
        (∀ (opener : Opener) found, opener.wrap = row.wrappedKey →
          (Opens browser.suite opener found ↔
            Owns browser.prf world.shown row opener ∧ found = dek)) ∧
        ∃ route, chooseRoute (rows.map WrapDto.ofRow) row.credentialId = some route ∧
          route.wrappedKey = row.wrappedKey

/-- In every history that starts with an account that is not encrypted, the account's
wraps open the same data key, each for its own secret. -/
theorem routes_open_one_key {past : List (Ceremony browser)}
    (mine : Mine account userId page.world.cookie page.world.db)
    (bare : Bare page.world.db userId) (history : History browser account page past last) :
    RoutesOpen browser userId last.world := by
  obtain bare | ⟨-, dek, bytes, routed, shown⟩ :=
    (held_history ⟨mine, .inl bare⟩ history).standing
  · exact .inl bare.2
  · obtain ⟨rows, listed⟩ := routed.lists
    refine .inr ⟨dek, rows, listed, fun row stored owns => ?_⟩
    have filed := routed.filed row stored owns
    rw [shown]
    exact ⟨filed.exists_owns, fun opener found same => filed.opens_iff same,
      routed.chooses listed stored owns⟩

end Histories

/-! ## Three passkeys and two keys -/

def alice : User :=
  { id := 1, email := "alice@example.com", sessionEpoch := 0, createdAt := 0
    encryptedAt := none }

/-- The passkeys `p`, `q` and `r`. -/
def alicesPasskeys : List PasskeyRow :=
  [(1, [112]), (2, [113]), (3, [114])].map fun (id, credentialId) =>
    { id, userId := 1, credentialId, passkey := credentialId, name := none
      prfCapable := true, createdAt := 0, lastUsedAt := none }

def aliceEnrolled : Database :=
  { Database.empty with
    users := ⟨[alice], List.pairwise_singleton _ _⟩
    passkeys := ⟨alicesPasskeys, by decide⟩
    entries_user := fun _ row_mem => absurd row_mem (Table.not_mem_empty _)
    passkeys_user := by
      intro row row_mem
      refine ⟨alice, List.mem_singleton_self alice, ?_⟩
      obtain ⟨pair, -, rfl⟩ := List.mem_map.mp row_mem
      rfl
    wraps_user := fun _ row_mem => absurd row_mem (Table.not_mem_empty _) }

/-- Alice is signed in, and her tab knows that her entries are not encrypted. -/
def alicesPage : Page UInt8 where
  world :=
    { World.initial UInt8 with
      db := aliceEnrolled
      cookie := some { email := "alice@example.com", epoch := 0 } }
  disabled := true

def firstKey : KeyBytes :=
  ⟨List.replicate 20 10, List.length_replicate ..⟩

def secondKey : KeyBytes :=
  ⟨List.replicate 20 11, List.length_replicate ..⟩

/-- Alice's passkeys answer challenges made out to her. -/
theorem asks_answers (credentialId : Bytes) :
    Asks "alice@example.com" (answers credentialId) := by
  intro now
  have decoded : decode plainBrowser.wa now aliceAsked =
      if 1000 < now then none else some (.auth "alice@example.com" () 1000) := rfl
  change asksFor plainBrowser.wa "alice@example.com" now aliceAsked = true
  rw [asksFor, decoded]
  by_cases expired : 1000 < now
  · rw [if_pos expired]
  · rw [if_neg expired]
    decide +kernel

/-- She turns encryption on with `p`, gives `q` a key with it and `r` one with her
encryption key, has that issued anew with `q`, and deletes `p`. -/
def allRoutes : List (Ceremony plainBrowser) :=
  [.turnOn "alice@example.com" 0 ⟨firstKey, 1⟩ (some (answers [112])),
    .addPasskeyKey "alice@example.com" [113] .passkey (answers [112]) (answers [113]),
    .addPasskeyKey "alice@example.com" [114] (.encryptionKey (formatKey firstKey))
      (answers [112]) (answers [114]),
    .newKey "alice@example.com" .passkey (answers [113]) secondKey,
    .passkeyDelete 1]

/-- Nothing fails, except that the first answer to the re-issued wrap is lost. -/
theorem routes_open_one_key_alice :
    ∃ last, History plainBrowser "alice@example.com" alicesPage allRoutes last ∧
      last.world.shown = some (formatKey secondKey) ∧
      last.world.db.wraps.rows.map EntryKeyWrap.wrappedKey =
        [lock plainBrowser.suite .passkey (plainBrowser.prf [113]) 1,
          lock plainBrowser.suite .passkey (plainBrowser.prf [114]) 1,
          lock plainBrowser.suite .encryptionKey secondKey.val 1] ∧
      RoutesOpen plainBrowser 1 last.world := by
  have ends : ∀ {α : Type} (program : Program (World UInt8) Await Fault α) (world : World UInt8),
      Ends (.sparing (Settled False)) program world
        (program.run (.thrown "") ⟨none, world, []⟩).1
        (program.run (.thrown "") ⟨none, world, []⟩).2.store :=
    fun program world => ends_run (fun _ _ => trivial) (.thrown "") none program world [] nofun
  have turnedOn : History plainBrowser "alice@example.com" alicesPage (allRoutes.take 1) _ :=
    .next (.start alicesPage) (.turnOn rfl (by rintro answer ⟨⟩; exact asks_answers _)
      (ends _ _))
  have added : History plainBrowser "alice@example.com" alicesPage (allRoutes.take 3) _ :=
    .next (.next turnedOn (.addPasskeyKey (asks_answers _) (asks_answers _) (ends _ _)))
      (.addPasskeyKey (asks_answers _) (asks_answers _) (ends _ _))
  -- await 16 of the re-issue is the answer to its first `encryption_replace_key_wrap`
  have reissued : History plainBrowser "alice@example.com" alicesPage (allRoutes.take 4) _ :=
    .next added (.newKey (asks_answers _)
      (ends_run (fun _ _ => trivial) (.thrown "") (some 16) _ _ [] (by
        rintro count site ⟨⟩ found
        have lost : site = .receive .replaceKeyWrap :=
          Option.some.inj (found.symm.trans (by decide +kernel))
        rw [lost]
        change ¬ _ = Except.error REISSUE_UNCONFIRMED
        decide +kernel)))
  have history : History plainBrowser "alice@example.com" alicesPage allRoutes _ :=
    .next reissued (.passkeyDelete (ends _ _))
  refine ⟨_, history, ?_, ?_, routes_open_one_key ⟨⟨alice, ?_, rfl, rfl⟩, ?_⟩ ?_ history⟩
  · decide +kernel
  · decide +kernel
  · exact List.mem_singleton_self alice
  · rintro session ⟨⟩
    decide +kernel
  · refine ⟨?_, fun row row_mem => absurd row_mem (Table.not_mem_empty _)⟩
    rintro ⟨user, member, -, marked⟩
    rw [List.mem_singleton.mp member] at marked
    exact marked rfl

end TimeTracker.Client.OneTab
