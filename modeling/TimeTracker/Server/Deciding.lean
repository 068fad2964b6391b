import TimeTracker.Server.Interference

/-!
# Deciding under interference

The server functions of the encryption key read the database, and then decide in
one statement.  A rule of this module names what a caller has to show: what holds
when the call gives up, and what the deciding statement does once the account is
known.  Between the reads the other requests keep to `rely`.
-/

namespace TimeTracker.Server.Deciding

open TimeTracker.Text
open TimeTracker.Crypto.Wire
open TimeTracker.Date
open TimeTracker.Library.Atomic
open TimeTracker.Library.Rely
open TimeTracker.Server.Schema
open TimeTracker.Server.Store
open TimeTracker.Server.Ceremony
open TimeTracker.Server.Functions
open TimeTracker.Server.Execution
open TimeTracker.Server.Outcomes
open TimeTracker.Server.Interference

/-- Reading keeps the guarantee, wherever interference leads. -/
def Idle (rely : Database → Database → Prop)
    (guarantee : Site → Database → Database → Prop) (db : Database) : Prop :=
  ∀ later site, Since rely db later → isRead site = true → guarantee site later later

section Rules

variable {rely : Database → Database → Prop}
  {guarantee : Site → Database → Database → Prop} {ctx : AppCtx} {db : Database}
  {cookie : Option SetCookie} {α : Type}

theorem Idle.since {later : Database} (idle : Idle rely guarantee db)
    (grown : Since rely db later) : Idle rely guarantee later :=
  fun last site grown' => idle last site (grown.trans grown')

/-- A statement that only reads. -/
theorem serves_look {site : Site} {statement : Sql α} {post : Reply α → Database → Prop}
    (idle : Idle rely guarantee db) (reads : isRead site = true)
    (unchanged : ∀ later value next, statement later = .ok (value, next) → next = later)
    (answered : ∀ later value, Since rely db later →
      statement later = .ok (value, later) → post (.ok value, cookie) later)
    (failed : ∀ later, Since rely db later →
      post (.error "Internal server error", cookie) later) :
    Serves rely guarantee post (query site statement) cookie db := by
  apply serves_query
  · intro later grown
    have same : effect statement later = later := by
      cases ran : statement later with
      | error failure => exact effect_of_error ran
      | ok pair => rw [effect_of_ok ran, unchanged later pair.1 pair.2 ran]
    rw [same]
    exact idle later site (.single grown) reads
  · intro later value next grown ran
    obtain rfl := unchanged later value next ran
    exact answered next value (.single grown) ran
  · exact fun later grown => failed later (.single grown)

/-- `require_user` passes on the account the session names. -/
theorem serves_requireUser {post : Reply User → Database → Prop}
    (idle : Idle rely guarantee db)
    (signedIn : ∀ later me, Since rely db later → SignedIn ctx later me →
      post (.ok me, cookie) later)
    (refused : ∀ later message, Since rely db later →
      post (.error message, cookie) later) :
    Serves rely guarantee post (requireUser ctx) cookie db := by
  refine serves_bind (serves_orRefuse ?_ (refused db _ .refl))
  intro claims sent
  refine serves_bind (serves_look idle rfl
    (fun _ _ _ ran => (findByEmail_eq_ok ran).1) ?_ fun later => refused later _)
  intro later found grown ran
  refine serves_bind (serves_orRefuse ?_ (refused later _ grown))
  rintro me rfl
  refine serves_ite
    (fun _ => serves_bind (serves_throw (refused later _ grown))) fun epoch => ?_
  obtain ⟨email, named, at_email⟩ := (findByEmail_eq_ok ran).2 me rfl
  exact serves_pure (signedIn later me grown
    ⟨claims, email, sent, named, at_email, not_not.mp epoch⟩)

theorem serves_encryptionStatus {post : Reply EncryptionStatus → Database → Prop}
    (idle : Idle rely guarantee db)
    (refused : ∀ later message, Since rely db later → post (.error message, none) later)
    (answered : ∀ before later me enabled, Since rely db before →
      SignedIn ctx before me → Since rely before later →
      isEncrypted me.id later = .ok (enabled, later) →
      post (.ok { account := me.email, enabled }, none) later) :
    Serves rely guarantee post (encryptionStatus ctx) none db := by
  refine serves_bind (serves_requireUser idle ?_ refused)
  intro before me grown signedIn
  refine serves_bind (serves_look (idle.since grown) rfl
    (fun _ _ _ ran => (isEncrypted_eq_ok ran).1) ?_ ?_)
  · intro later enabled grown' ran
    exact serves_pure (answered before later me enabled grown signedIn grown' ran)
  · exact fun later grown' => refused later _ (grown.trans grown')

theorem serves_encryptionWraps {post : Reply (List WrapDto) → Database → Prop}
    (idle : Idle rely guarantee db)
    (refused : ∀ later message, Since rely db later → post (.error message, none) later)
    (answered : ∀ before later me rows, Since rely db before →
      SignedIn ctx before me → Since rely before later →
      listWraps me.id later = .ok (rows, later) →
      post (.ok (rows.map WrapDto.ofRow), none) later) :
    Serves rely guarantee post (encryptionWraps ctx) none db := by
  refine serves_bind (serves_requireUser idle ?_ refused)
  intro before me grown signedIn
  refine serves_bind (serves_look (idle.since grown) rfl
    (fun _ _ _ ran => (listWraps_eq_ok ran).1) ?_ ?_)
  · intro later rows grown' ran
    exact serves_pure (answered before later me rows grown signedIn grown' ran)
  · exact fun later grown' => refused later _ (grown.trans grown')

/-- The statement a call decides in, at a database interference may have led to
since the account was read: what it keeps to, and what a committed one leaves. -/
def Decides {β : Type} (rely : Database → Database → Prop)
    (guarantee : Site → Database → Database → Prop) (ctx : AppCtx) (db : Database)
    (site : User → Site) (statement : User → Sql β) (leaves : β → Database → Prop) :
    Prop :=
  ∀ before later me, Since rely db before → SignedIn ctx before me →
    Since rely before later →
    guarantee (site me) later (effect (statement me) later) ∧
      ∀ value next, statement me later = .ok (value, next) → leaves value next

section Calls

variable {post : Reply Unit → Database → Prop}
  (idle : Idle rely guarantee db)
  (refused : ∀ later message, Since rely db later → post (.error message, none) later)

include idle refused

theorem serves_encryptionEnable {passkey : Option PasskeyWrapDto}
    {encryptionKeyWrap : Bytes}
    (turns : Decides rely guarantee ctx db
      (fun me => .enable me.id (passkey.map PasskeyWrapDto.credentialId))
      (fun me => enableTransaction me.id passkey encryptionKeyWrap ctx.now)
      fun outcome next => post (outcome, none) next) :
    Serves rely guarantee post (encryptionEnable ctx passkey encryptionKeyWrap)
      none db := by
  refine serves_bind (serves_requireUser idle ?_ refused)
  intro before me grown signedIn
  have transaction : Serves rely guarantee post
      (query (.enable me.id (passkey.map PasskeyWrapDto.credentialId))
        (enableTransaction me.id passkey encryptionKeyWrap ctx.now) >>= refuse)
      none before := by
    refine serves_bind (serves_query ?_ ?_ ?_)
    · intro later grown'
      exact (turns before later me grown signedIn (.single grown')).1
    · intro later outcome next grown' ran
      exact serves_refuse
        ((turns before later me grown signedIn (.single grown')).2 outcome next ran)
    · exact fun later grown' => refused later _ (grown.tail grown')
  refine serves_bind (serves_ite (fun _ => serves_pure ?_)
    fun _ => serves_throw (refused before _ grown))
  cases passkey with
  | none => exact transaction
  | some dto =>
      exact serves_bind (serves_ite (fun _ => serves_pure transaction)
        fun _ => serves_throw (refused before _ grown))

theorem serves_encryptionAddPasskeyWrap {credentialId wrappedKey : Bytes}
    (adds : Decides rely guarantee ctx db (fun me => .insertWrap me.id credentialId)
      (fun me => insertWrap me.id .passkey (some credentialId) wrappedKey ctx.now)
      fun _ next => post (.ok (), none) next) :
    Serves rely guarantee post (encryptionAddPasskeyWrap ctx credentialId wrappedKey)
      none db := by
  refine serves_bind (serves_requireUser idle ?_ refused)
  intro before me grown signedIn
  refine serves_bind (serves_ite (fun _ => serves_pure ?_)
    fun _ => serves_throw (refused before _ grown))
  refine serves_bind (serves_look (idle.since grown) rfl
    (fun _ _ _ ran => (findByCredentialId_eq_ok ran).1) ?_
    fun later grown' => refused later _ (grown.trans grown'))
  intro second row since₂ ran
  refine serves_ite (fun _ => serves_bind (serves_throw
    (refused second _ (grown.trans since₂)))) fun _ => ?_
  refine serves_bind (serves_look (idle.since (grown.trans since₂)) rfl
    (fun _ _ _ ran => (isEncrypted_eq_ok ran).1) ?_
    fun later grown' => refused later _ ((grown.trans since₂).trans grown'))
  intro third encrypted since₃ ran
  replace since₃ := since₂.trans since₃
  refine serves_ite (fun _ => serves_bind (serves_throw
    (refused third _ (grown.trans since₃)))) fun _ => ?_
  refine serves_bind (serves_look (idle.since (grown.trans since₃)) rfl
    (fun _ _ _ ran => (hasWrapForCredential_eq_ok ran).1) ?_
    fun later grown' => refused later _ ((grown.trans since₃).trans grown'))
  intro fourth present since₄ ran
  replace since₄ := since₃.trans since₄
  refine serves_ite (fun _ => serves_bind (serves_throw
    (refused fourth _ (grown.trans since₄)))) fun _ => ?_
  apply serves_query
  · intro later grown'
    exact (adds before later me grown signedIn (since₄.tail grown')).1
  · intro later value next grown' ran
    exact (adds before later me grown signedIn (since₄.tail grown')).2 value next ran
  · exact fun later grown' => refused later _ (grown.trans (since₄.tail grown'))

theorem serves_encryptionReplaceKeyWrap {wrappedKey : Bytes}
    (replaces : Decides rely guarantee ctx db (fun me => .replaceKeyWrap me.id)
      (fun me => replaceEncryptionKeyWrap me.id wrappedKey ctx.now)
      fun _ next => post (.ok (), none) next) :
    Serves rely guarantee post (encryptionReplaceKeyWrap ctx wrappedKey) none db := by
  refine serves_bind (serves_requireUser idle ?_ refused)
  intro before me grown signedIn
  refine serves_bind (serves_ite (fun _ => serves_pure ?_)
    fun _ => serves_throw (refused before _ grown))
  apply serves_query
  · intro later grown'
    exact (replaces before later me grown signedIn (.single grown')).1
  · intro later value next grown' ran
    exact (replaces before later me grown signedIn (.single grown')).2 value next ran
  · exact fun later grown' => refused later _ (grown.tail grown')

theorem serves_passkeyDelete {id : Int}
    (deletes : Decides rely guarantee ctx db (fun me => .deletePasskey me.id id)
      (fun me => deleteTransaction me.id id)
      fun outcome next => post (outcome, none) next) :
    Serves rely guarantee post (passkeyDelete ctx id) none db := by
  refine serves_bind (serves_requireUser idle ?_ refused)
  intro before me grown signedIn
  refine serves_bind (serves_query ?_ ?_ ?_)
  · intro later grown'
    exact (deletes before later me grown signedIn (.single grown')).1
  · intro later outcome next grown' ran
    exact serves_refuse
      ((deletes before later me grown signedIn (.single grown')).2 outcome next ran)
  · exact fun later grown' => refused later _ (grown.tail grown')

theorem serves_entrySave {date body : String}
    (saves : ∀ day, Decides rely guarantee ctx db (fun me => .saveEntry me.id)
      (fun me => saveTransaction me.id day body ctx.now)
      fun outcome next => post (outcome, none) next) :
    Serves rely guarantee post (entrySave ctx date body) none db := by
  refine serves_bind (serves_requireUser idle ?_ refused)
  intro before me grown signedIn
  refine serves_bind (serves_orRefuse (fun day _ => ?_) (refused before _ grown))
  refine serves_ite (fun _ => serves_bind (serves_throw (refused before _ grown)))
    fun _ => ?_
  refine serves_bind (serves_query ?_ ?_ ?_)
  · intro later grown'
    exact (saves day before later me grown signedIn (.single grown')).1
  · intro later outcome next grown' ran
    exact serves_refuse
      ((saves day before later me grown signedIn (.single grown')).2 outcome next ran)
  · exact fun later grown' => refused later _ (grown.tail grown')

end Calls

/-- `sign_out_everywhere` raises the epoch of the account, and clears the cookie. -/
theorem serves_signOutEverywhere {post : Reply Unit → Database → Prop}
    (idle : Idle rely guarantee db)
    (refused : ∀ later message, Since rely db later → post (.error message, none) later)
    (bumps : Decides rely guarantee ctx db (fun me => .bumpEpoch me.id)
      (fun me => bumpEpoch me.id) fun _ next => post (.ok (), some .clearSession) next) :
    Serves rely guarantee post (signOutEverywhere ctx) none db := by
  refine serves_bind (serves_requireUser idle ?_ refused)
  intro before me grown signedIn
  refine serves_bind (serves_query ?_ ?_ ?_)
  · intro later grown'
    exact (bumps before later me grown signedIn (.single grown')).1
  · intro later value next grown' ran
    exact serves_setCookie
      ((bumps before later me grown signedIn (.single grown')).2 value next ran)
  · exact fun later grown' => refused later _ (grown.tail grown')

/-- A spent magic link sets a session of the account it finds or creates. -/
theorem serves_magicSignIn {email : String} {now : Timestamp}
    {post : Reply Unit → Database → Prop}
    (kept : ∀ later, rely db later →
      guarantee .findOrCreate later (effect (findOrCreate email now) later))
    (signsIn : ∀ later user next, rely db later →
      findOrCreate email now later = .ok (user, next) →
      post (.ok (), some (.session { email := user.email, epoch := user.sessionEpoch })) next)
    (failed : ∀ later, rely db later → post (.error "Internal server error", none) later) :
    Serves rely guarantee post (magicSignIn email now) none db := by
  refine serves_bind (serves_query kept ?_ failed)
  intro later user next grown ran
  exact serves_setCookie (signsIn later user next grown ran)

section Reads

variable {first last : String}

theorem serves_entryLoad {date : String} {post : Reply (Option String) → Database → Prop}
    (idle : Idle rely guarantee db)
    (refused : ∀ later message, Since rely db later → post (.error message, none) later)
    (answered : ∀ later body, Since rely db later → post (.ok body, none) later) :
    Serves rely guarantee post (entryLoad ctx date) none db := by
  refine serves_bind (serves_requireUser idle ?_ refused)
  intro before me grown signedIn
  refine serves_bind (serves_orRefuse (fun day _ => ?_) (refused before _ grown))
  refine serves_look (idle.since grown) rfl ?_ ?_ ?_
  · rintro later body next ⟨⟩
    rfl
  · exact fun later body grown' _ => answered later body (grown.trans grown')
  · exact fun later grown' => refused later _ (grown.trans grown')

theorem serves_parseRange {post : Reply (NaiveDate × NaiveDate) → Database → Prop}
    (refused : ∀ message, post (.error message, cookie) db)
    (parsed : ∀ range, post (.ok range, cookie) db) :
    Serves rely guarantee post (parseRange first last) cookie db := by
  refine serves_bind (serves_orRefuse (fun first _ => ?_) (refused _))
  refine serves_bind (serves_orRefuse (fun last _ => ?_) (refused _))
  refine serves_ite (fun _ => serves_bind (serves_throw (refused _))) fun _ => ?_
  exact serves_ite (fun _ => serves_bind (serves_throw (refused _))) fun _ =>
    serves_pure (parsed _)

theorem serves_entryDatesInRange {post : Reply (List String) → Database → Prop}
    (idle : Idle rely guarantee db)
    (refused : ∀ later message, Since rely db later → post (.error message, none) later)
    (answered : ∀ later dates, Since rely db later → post (.ok dates, none) later) :
    Serves rely guarantee post (entryDatesInRange ctx first last) none db := by
  refine serves_bind (serves_requireUser idle ?_ refused)
  intro before me grown signedIn
  refine serves_bind (serves_parseRange (fun _ => refused before _ grown) fun range => ?_)
  refine serves_bind (serves_look (idle.since grown) rfl ?_ ?_ ?_)
  · rintro later dates next ⟨⟩
    rfl
  · exact fun later dates grown' _ => serves_pure (answered later _ (grown.trans grown'))
  · exact fun later grown' => refused later _ (grown.trans grown')

theorem serves_entriesInRange {post : Reply (List (String × String)) → Database → Prop}
    (idle : Idle rely guarantee db)
    (refused : ∀ later message, Since rely db later → post (.error message, none) later)
    (answered : ∀ later entries, Since rely db later → post (.ok entries, none) later) :
    Serves rely guarantee post (entriesInRange ctx first last) none db := by
  refine serves_bind (serves_requireUser idle ?_ refused)
  intro before me grown signedIn
  refine serves_bind (serves_parseRange (fun _ => refused before _ grown) fun range => ?_)
  refine serves_bind (serves_look (idle.since grown) rfl ?_ ?_ ?_)
  · rintro later entries next ⟨⟩
    rfl
  · exact fun later entries grown' _ => serves_pure (answered later _ (grown.trans grown'))
  · exact fun later grown' => refused later _ (grown.trans grown')

end Reads

theorem serves_passkeyRegisterFinish {wa : Webauthn} {responseJson : String}
    {prfCapable : Bool} {post : Reply Unit → Database → Prop}
    (idle : Idle rely guarantee db)
    (refused : ∀ later message header, Since rely db later →
      (∀ claims, header ≠ some (.session claims)) → post (.error message, header) later)
    (inserts : ∀ credentialId blob, Decides rely guarantee ctx db
      (fun me => .insertPasskey me.id)
      (fun me => insertPasskey me.id credentialId blob prfCapable ctx.now)
      fun _ next => post (.ok (), some .clearPasskeyState) next) :
    Serves rely guarantee post (passkeyRegisterFinish wa ctx responseJson prfCapable)
      none db := by
  refine serves_bind (serves_requireUser idle ?_
    fun later message grown => refused later message none grown nofun)
  intro before me grown signedIn
  refine serves_bind (serves_orRefuse (fun raw _ => ?_)
    (refused before _ none grown nofun))
  refine serves_bind (serves_orRefuse (fun state _ => ?_)
    (refused before _ none grown nofun))
  refine serves_bind (serves_setCookie ?_)
  have gaveUp : ∀ later message, Since rely before later →
      post (.error message, some .clearPasskeyState) later :=
    fun later message grown' =>
      refused later message _ (grown.trans grown') fun _ => nofun
  cases state with
  | auth subject auth expiresAt => exact serves_throw (gaveUp before _ .refl)
  | discoverableAuth auth expiresAt => exact serves_throw (gaveUp before _ .refl)
  | reg subject reg expiresAt =>
      refine serves_ite
        (fun _ => serves_bind (serves_throw (gaveUp before _ .refl))) fun _ => ?_
      refine serves_bind (serves_orRefuse (fun rpc _ => ?_) (gaveUp before _ .refl))
      refine serves_bind (serves_orRefuse (fun key _ => ?_) (gaveUp before _ .refl))
      refine serves_bind (serves_orRefuse (fun blob _ => ?_) (gaveUp before _ .refl))
      refine serves_bind (serves_query ?_ ?_ ?_)
      · intro later grown'
        exact (inserts _ blob before later me grown signedIn (.single grown')).1
      · intro later value next grown' ran
        exact serves_pure
          ((inserts _ blob before later me grown signedIn (.single grown')).2 value next ran)
      · exact fun later grown' => gaveUp later _ (.single grown')

/-- The credential that answered belongs to the account a ceremony asked for. -/
def AnswersFor (rely : Database → Database → Prop) (wa : Webauthn) (ctx : AppCtx)
    (db later : Database) (userId : Int) : Prop :=
  ∀ raw subject auth expiresAt, ctx.passkeyState = some raw →
    decode wa ctx.now raw = some (.auth subject auth expiresAt) →
    ∃ middle email owner, Since rely db middle ∧ Since rely middle later ∧
      normalizeEmail subject = some email ∧ userByEmail middle email = some owner ∧
      owner.id = userId

/-- The ceremony cookie is one a sign-in was started with. -/
def Asserts (wa : Webauthn) (ctx : AppCtx) : Prop :=
  ∃ raw state, ctx.passkeyState = some raw ∧ decode wa ctx.now raw = some state ∧
    ∀ subject reg expiresAt, state ≠ .reg subject reg expiresAt

/-- `passkey_login_finish` sets a session of the account whose credential
answered, as its last statement reads that account. -/
theorem serves_passkeyLoginFinish {wa : Webauthn} {responseJson : String}
    {post : Reply Unit → Database → Prop} (idle : Idle rely guarantee db)
    (refused : ∀ later message header, Since rely db later →
      (∀ claims, header ≠ some (.session claims)) → post (.error message, header) later)
    (uses : ∀ later (row : PasskeyRow) blob, Since rely db later →
      AnswersFor rely wa ctx db later row.userId → Asserts wa ctx →
      guarantee (.updateAfterUse row.id) later (later.updatePasskey row.id blob ctx.now) ∧
      Idle rely guarantee (later.updatePasskey row.id blob ctx.now) ∧
      ∀ last, Since rely (later.updatePasskey row.id blob ctx.now) last →
        post (.error "Internal server error", some .clearPasskeyState) last ∧
        ∀ owner ∈ last.users, owner.id = row.userId →
          post (.ok (), some (.session
            { email := owner.email, epoch := owner.sessionEpoch })) last) :
    Serves rely guarantee post (passkeyLoginFinish wa ctx responseJson) none db := by
  have gaveUp : ∀ later message, Since rely db later →
      post (.error message, some .clearPasskeyState) later :=
    fun later message grown => refused later message _ grown fun _ => nofun
  refine serves_bind (serves_orRefuse ?_ (refused db _ none .refl nofun))
  intro raw sent
  refine serves_bind (serves_orRefuse ?_ (refused db _ none .refl nofun))
  intro state decoded
  refine serves_bind (serves_setCookie ?_)
  refine serves_bind (serves_orRefuse (fun pkc _ => ?_) (gaveUp db _ .refl))
  have finish : ∀ (row : PasskeyRow) (updated : wa.Key) (later : Database),
      Since rely db later → AnswersFor rely wa ctx db later row.userId → Asserts wa ctx →
      Serves rely guarantee post (signInWith wa ctx row updated)
        (some .clearPasskeyState) later := by
    intro row updated later grown answers asserts
    have answersLast : ∀ last, Since rely later last →
        AnswersFor rely wa ctx db last row.userId := by
      intro last grown' raw subject auth expiresAt sent decoded
      obtain ⟨middle, email, owner, first, second, found⟩ :=
        answers raw subject auth expiresAt sent decoded
      exact ⟨middle, email, owner, first, second.trans grown', found⟩
    refine serves_bind (serves_orRefuse (fun blob _ => ?_) (gaveUp later _ grown))
    refine serves_bind (serves_query ?_ ?_ fun last grown' =>
      gaveUp last _ (grown.tail grown'))
    · intro last grown'
      exact (uses last row blob (grown.tail grown') (answersLast last (.single grown'))
        asserts).1
    intro before value after grown' ran
    cases ran
    obtain ⟨-, idle', leaves⟩ :=
      uses before row blob (grown.tail grown') (answersLast before (.single grown')) asserts
    refine serves_bind (serves_look idle' rfl
      (fun _ _ _ ran => (loadUser_eq_ok.mp ran).1) ?_ fun last grown => (leaves last grown).1)
    intro last owner grown ran
    obtain ⟨-, member, same⟩ := loadUser_eq_ok.mp ran
    exact serves_setCookie ((leaves last grown).2 owner member same)
  cases state with
  | reg subject reg expiresAt =>
      exact serves_bind (serves_throw (gaveUp db _ .refl))
  | discoverableAuth auth expiresAt =>
      have other : ∀ later userId, AnswersFor rely wa ctx db later userId := by
        intro later userId raw' subject auth' expiresAt' sent' decoded'
        cases Option.some.inj (sent.symm.trans sent')
        cases Option.some.inj (decoded.symm.trans decoded')
      refine serves_bind (serves_orRefuse (fun credId _ => ?_) (gaveUp db _ .refl))
      refine serves_bind (serves_look idle rfl
        (fun _ _ _ ran => (findByCredentialId_eq_ok ran).1) ?_ fun later => gaveUp later _)
      intro later row grown ran
      refine serves_bind (serves_orRefuse (fun row _ => ?_) (gaveUp later _ grown))
      refine serves_bind (serves_orRefuse (fun key _ => ?_) (gaveUp later _ grown))
      refine serves_bind (serves_orRefuse (fun result _ => ?_) (gaveUp later _ grown))
      exact serves_bind (serves_pure (finish row _ later grown (other later row.userId)
        ⟨raw, _, sent, decoded, nofun⟩))
  | auth subject auth expiresAt =>
      refine serves_bind (serves_orRefuse (fun result _ => ?_) (gaveUp db _ .refl))
      refine serves_bind (serves_look idle rfl
        (fun _ _ _ ran => (findByCredentialId_eq_ok ran).1) ?_ fun later => gaveUp later _)
      intro later row grown ran
      refine serves_bind (serves_orRefuse (fun row _ => ?_) (gaveUp later _ grown))
      refine serves_bind (serves_look (idle.since grown) rfl
        (fun _ _ _ ran => (findByEmail_eq_ok ran).1) ?_
        fun last grown' => gaveUp last _ (grown.trans grown'))
      intro last owner grown' ran
      replace grown := grown.trans grown'
      refine serves_bind (serves_orRefuse ?_ (gaveUp last _ grown))
      rintro owner rfl
      refine serves_ite
        (fun _ => serves_bind (serves_throw (gaveUp last _ grown))) fun mine => ?_
      refine serves_bind (serves_orRefuse (fun key _ => ?_) (gaveUp last _ grown))
      refine serves_bind (serves_pure (finish row _ last grown ?_
        ⟨raw, _, sent, decoded, nofun⟩))
      intro raw' subject' auth' expiresAt' sent' decoded'
      cases Option.some.inj (sent.symm.trans sent')
      cases Option.some.inj (decoded.symm.trans decoded')
      obtain ⟨email, named, at_email⟩ := (findByEmail_eq_ok ran).2 owner rfl
      exact ⟨last, email, owner, grown, .refl, named, at_email, (not_not.mp mine).symm⟩

end Rules

end TimeTracker.Server.Deciding
