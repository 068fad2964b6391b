import TimeTracker.Client.KeysAtHome
import TimeTracker.Client.Tabs
import TimeTracker.Storage.Saves

/-!
# Whose key a stored body is sealed under

As long as the unlocks that ride a sign-in are handed the wraps of the account they
were told of, every key a tab holds is the one of the account it is filed under,
whatever the other tabs do.  A save is executed for the account of the session its
request carries, though, so bodies are then sealed under their own account's key
exactly as long as that account is the one the tab showed when the text was set.
-/

namespace TimeTracker.Client.SealedAtHome

open TimeTracker.Text
open TimeTracker.Date
open TimeTracker.Library
open TimeTracker.Library.KeyWrap
open TimeTracker.Library.Atomic
open TimeTracker.Library.Indexed
open TimeTracker.Library.Run
open TimeTracker.Crypto.Wire
open TimeTracker.Crypto.Subtle
open TimeTracker.Crypto.Ceremony
open TimeTracker.Server.Schema
open TimeTracker.Server.Store
open TimeTracker.Server.Functions
open TimeTracker.Server.Execution
open TimeTracker.Server.Outcomes
open TimeTracker.Server.Entries
open TimeTracker.Server.Account (findOrCreate_cases)
open TimeTracker.Tab
open TimeTracker.Tab.State
open TimeTracker.Tab.System
open TimeTracker.Tab.System.Page
open TimeTracker.Tab.Rerun
open TimeTracker.Tab.Keys
open TimeTracker.Storage.Envelopes
open TimeTracker.Storage.Seam
open TimeTracker.Storage.Hook
open TimeTracker.Client.DataKeys
open TimeTracker.Client.AfterSignIn
open TimeTracker.Client.Tabs

/-! ## What is filed where it belongs -/

section Homes

variable {K : Type} (platform : Platform K) (suite : KeySuite K) (owner : K → String)

/-- The data key of the account that the user's address names. -/
def KeyOfUser (db : Database) (user : String) (dek : K) : Prop :=
  ∃ email, normalizeEmail user = some email ∧ KeyOf suite db email dek

/-- A wrap filed under a credential is of the account the credential is enrolled with. -/
def WrapsEnrolled (db : Database) : Prop :=
  ∀ wrap ∈ db.wraps, ∀ row ∈ db.passkeys, wrap.credentialId = some row.credentialId →
    row.userId = wrap.userId

/-- Every sealed body stored for an account was sealed under the account's data key. -/
def BodiesAtHome (db : Database) : Prop :=
  ∀ user ∈ db.users, ∀ day body, bodyOf db user.id day = some body →
    ∀ sealed, planRead platform.formats body = .ok (.sealed sealed) →
      ∃ dek, KeyOf suite db user.email dek ∧
        ∃ nonce text, sealed = sealBody platform.cipher dek nonce text

/-- The write goes out under the key of the account the tab showed when it was set. -/
structure OwnWrite (db : Database) (write : Write K) : Prop where
  sealing : ∀ key, write.task.stage = .sealing (.remote key) →
    write.user = some key.user ∧ KeyOfUser suite db key.user key.key
  sending : ∀ key envelope, write.task.stage = .sending (.remote key) envelope →
    (write.user = some key.user ∧ KeyOfUser suite db key.user key.key) ∧
      ∃ nonce : Nonce, envelope = wrap platform nonce.val write.task.value (some key)

/-- The keys of the tab are those of the accounts they are filed under. -/
structure OwnTab (db : Database) (tab : Tab K) : Prop where
  home : AtHome tab.page
  keyed : Keyed (KeyOfUser suite db) tab.page
  writes : ∀ write ∈ tab.writes, OwnWrite platform suite db write
  signIns : ∀ signIn ∈ tab.signIns, ∀ key, signIn.stage.key? = some key →
    KeyOfUser suite db key.user key.key

/-- What every step of the device keeps. -/
structure Own (device : Device K) : Prop where
  sound : Sound suite owner device.db
  enrolled : WrapsEnrolled device.db
  keystore : ∀ record, device.keystore = some record →
    KeyOfUser suite device.db record.user record.key
  tabs : ∀ tab ∈ device.tabs, OwnTab platform suite device.db tab

/-- A device on which no tab has been opened yet. -/
structure Starts (device : Device K) : Prop where
  sound : Sound suite owner device.db
  enrolled : WrapsEnrolled device.db
  keystore : ∀ record, device.keystore = some record →
    KeyOfUser suite device.db record.user record.key
  tabs : device.tabs = []
  bodies : BodiesAtHome platform suite device.db

variable {platform suite owner} {db next : Database} {device : Device K}

theorem Starts.own (starts : Starts platform suite owner device) :
    Own platform suite owner device where
  sound := starts.sound
  enrolled := starts.enrolled
  keystore := starts.keystore
  tabs tab member := by
    rw [starts.tabs] at member
    cases member

theorem KeyOfUser.grows {user : String} {dek : K} (key : KeyOfUser suite db user dek)
    (grown : Grows suite db next) : KeyOfUser suite next user dek := by
  obtain ⟨email, named, key⟩ := key
  exact ⟨email, named, grown.keys email dek key⟩

theorem OwnWrite.grows {write : Write K} (own : OwnWrite platform suite db write)
    (grown : Grows suite db next) : OwnWrite platform suite next write := by
  constructor
  · intro key at_stage
    obtain ⟨shown, filed⟩ := own.sealing key at_stage
    exact ⟨shown, filed.grows grown⟩
  · intro key envelope at_stage
    obtain ⟨⟨shown, filed⟩, wrapped⟩ := own.sending key envelope at_stage
    exact ⟨⟨shown, filed.grows grown⟩, wrapped⟩

theorem OwnTab.grows {tab : Tab K} (own : OwnTab platform suite db tab)
    (grown : Grows suite db next) : OwnTab platform suite next tab where
  home := own.home
  keyed := own.keyed.mono fun _ _ key => key.grows grown
  writes write member := (own.writes write member).grows grown
  signIns signIn member key holds := (own.signIns signIn member key holds).grows grown

/-- A step of the server that leaves the wraps and the passkeys alone. -/
theorem Own.withDb (own : Own platform suite owner device)
    (kept : Keeps suite owner device.db next) (wraps : next.wraps = device.db.wraps)
    (passkeys : next.passkeys = device.db.passkeys) :
    Own platform suite owner { device with db := next } where
  sound := kept.1
  enrolled := by
    rw [WrapsEnrolled, wraps, passkeys]
    exact own.enrolled
  keystore record filed := (own.keystore record filed).grows kept.2
  tabs tab member := (own.tabs tab member).grows kept.2

/-- One tab moves on, and the cookie and the keystore with it. -/
theorem Own.withTab (own : Own platform suite owner device) {place : Nat} {tab : Tab K}
    {cookie : Option SessionClaims} {keystore : Option (Record K)}
    (filed : ∀ record, keystore = some record →
      KeyOfUser suite device.db record.user record.key)
    (moved : OwnTab platform suite device.db tab) :
    Own platform suite owner ({ device with cookie, keystore }.withTab place tab) where
  sound := own.sound
  enrolled := own.enrolled
  keystore := filed
  tabs other member := by
    obtain old | rfl := List.mem_or_eq_of_mem_set member
    · exact own.tabs other old
    · exact moved

/-- A sign-up only adds to the accounts. -/
theorem tables_findOrCreate (db : Database) (email : String) (now : Timestamp) :
    (effect (findOrCreate email now) db).entries = db.entries ∧
      (effect (findOrCreate email now) db).passkeys = db.passkeys ∧
      (effect (findOrCreate email now) db).wraps = db.wraps := by
  obtain same | ⟨row, created⟩ := findOrCreate_cases db email now
  · rw [same]
    exact ⟨rfl, rfl, rfl⟩
  · exact ⟨created.entries, created.passkeys, created.wraps⟩

/-- Bodies stay sealed under their own keys while accounts come and age. -/
theorem BodiesAtHome.grows (held : BodiesAtHome platform suite db)
    (grown : Grows suite db next) (entries : next.entries = db.entries)
    (users : ∀ user ∈ next.users, db.HasUser user.id →
      ∃ old ∈ db.users, old.id = user.id ∧ old.email = user.email) :
    BodiesAtHome platform suite next := by
  intro user member day body stored sealed plan
  rw [bodyOf, entries] at stored
  obtain ⟨row, filed, owns, -⟩ := bodyOf_eq_some.mp stored
  obtain ⟨old, earlier, same, named⟩ := users user member (owns ▸ db.entries_user row filed)
  rw [← same] at stored
  obtain ⟨dek, key, made⟩ := held old earlier day body stored sealed plan
  exact ⟨dek, named ▸ grown.keys old.email dek key, made⟩

end Homes

/-! ## The key a passkey opens -/

section Passkeys

variable {K : Type} {suite : KeySuite K} {owner : K → String} {prf : Bytes → Bytes}
  {db : Database} {ctx : AppCtx} {wraps : List WrapDto}

theorem ok_of_toOption {ε α : Type} {result : Except ε α} {value : α}
    (answered : result.toOption = some value) : result = .ok value := by
  cases result with
  | error error => cases answered
  | ok found =>
      cases answered
      rfl

/-- Whatever fails, the wraps a request is told of are those of the account its
session names. -/
theorem ensures_encryptionWraps (log : Log) :
    Ensures (encryptionWraps ctx) db log fun reply _ _ =>
      ∀ wraps, reply = .ok wraps →
        ∃ me, SignedIn ctx db me ∧ wraps = (wrapsOf db me.id).map wrapDto := by
  refine ensures_bind (ensures_requireUser ?_ fun _ _ _ _ => nofun)
  intro me log' signedIn _
  refine ensures_bind (ensures_query (fun _ => nofun) (fun _ _ _ => nofun) ?_)
  intro rows next ran
  refine ensures_pure fun wraps answered => ?_
  cases answered
  exact ⟨me, signedIn, map_ofRow_listWraps ran⟩

theorem answerOf_encryptionWraps (answered : answerOf (encryptionWraps ctx) db = some wraps) :
    ∃ me, SignedIn ctx db me ∧ wraps = (wrapsOf db me.id).map wrapDto := by
  exact ensures_encryptionWraps [] none none wraps (ok_of_toOption answered)

/-- A credential a challenge accepts is enrolled with the challenged account. -/
theorem enrolledWith_iff {user : String} {credentialId : Bytes}
    (enrolled : enrolledWith db user credentialId = true) :
    ∃ owner ∈ db.users, normalizeEmail user = some owner.email ∧
      ∃ row ∈ db.passkeys, row.credentialId = credentialId ∧ row.userId = owner.id := by
  unfold enrolledWith at enrolled
  split at enrolled
  · next owner row found enrolled' =>
      obtain ⟨email, named, found⟩ := Option.bind_eq_some_iff.mp found
      obtain ⟨member, rfl⟩ := mem_of_userByEmail found
      have credential := List.find?_some enrolled'
      exact ⟨owner, member, named, row, List.mem_of_find?_eq_some enrolled',
        of_decide_eq_true credential, of_decide_eq_true enrolled⟩
  · cases enrolled

/-- Who presents a credential is offered the wraps filed under it. -/
theorem credentialId_of_selected {kind : WrapKind} {credentialId : Bytes} {wrap : WrapDto}
    (offered : selected kind (some credentialId) wrap = true) :
    wrap.credentialId = some credentialId := by
  cases kind with
  | passkey => exact of_decide_eq_true offered
  | encryptionKey => cases offered

/-- What a passkey opens is a wrap filed under it, of the account that was told of its
wraps, and the key in it is the one of whoever that account is. -/
theorem wrap_of_openRoute (sound : Sound suite owner db) {me : User} {prfOutput : Bytes}
    {credentialId : Bytes} {user : String} {forgets : Forgets} {key : SessionKey K}
    (opens : openRoute suite prfOutput ((wrapsOf db me.id).map wrapDto) credentialId user
      forgets = some key) :
    key.user = user ∧ ∃ wrap ∈ db.wraps, wrap.userId = me.id ∧
      wrap.credentialId = some credentialId ∧
        ∀ account ∈ db.users, account.id = wrap.userId → KeyOf suite db account.email key.key := by
  obtain ⟨route, chosen, opened⟩ := Option.bind_eq_some_iff.mp opens
  obtain ⟨dto, listed, offers⟩ := chooseRoute_eq_some chosen
  obtain ⟨wrap, filed, rfl⟩ := List.mem_map.mp listed
  obtain ⟨stored, mine⟩ := mem_wrapsOf.mp filed
  obtain ⟨-, -, asked, -, wrapped⟩ := routeOf_eq_some.mp offers
  obtain ⟨filedUnder, opened⟩ := unlock_eq_ok (ok_of_toOption opened)
  refine ⟨filedUnder, wrap, stored, mine, credentialId_of_selected asked, ?_⟩
  intro account member filedFor
  obtain ⟨-, dek, dekOf, holds⟩ := sound.held wrap stored account member filedFor
  have found := opened.wraps
  rw [Opener.wrap, wrapped] at found
  exact found.unique holds ▸ dekOf

/-- In the page, a passkey opens no wrap but its own account's, so the key it finds is
that account's, whoever the wraps were asked for by. -/
theorem keyOfUser_of_openWithPasskey (sound : Sound suite owner db)
    (enrolled : WrapsEnrolled db) {user : String} {forgets : Forgets} {credentialId : Bytes}
    {key : SessionKey K}
    (answered : answerOf (encryptionWraps ctx) db = some wraps)
    (opens : openWithPasskey suite prf db wraps credentialId user forgets = some key) :
    KeyOfUser suite db user key.key := by
  obtain ⟨me, signedIn, rfl⟩ := answerOf_encryptionWraps answered
  obtain ⟨asserted, opens⟩ := Option.ite_none_right_eq_some.mp opens
  obtain ⟨account, member, named, row, rowMember, credential, owns⟩ := enrolledWith_iff asserted
  obtain ⟨-, wrap, stored, -, filedUnder, keys⟩ := wrap_of_openRoute sound opens
  have here : wrap.credentialId = some row.credentialId := credential ▸ filedUnder
  have filedFor : account.id = wrap.userId :=
    owns.symm.trans (enrolled wrap stored row rowMember here)
  exact ⟨account.email, named, keys account member filedFor⟩

/-- After a sign-in, the key is that of the account whose wraps were handed out: the
user's, if the session said so. -/
theorem keyOfUser_of_wrapsAnswered (sound : Sound suite owner db) {signIn later : SignIn K}
    {key : SessionKey K} (answered : answerOf (encryptionWraps ctx) db = some wraps)
    (moved : signIn.wrapsAnswered suite (prf signIn.credentialId) wraps = some later)
    (holds : later.stage.key? = some key)
    (agrees : ∀ user, signIn.stage = .fetching user → ∀ me, SignedIn ctx db me →
      (∃ wrap ∈ db.wraps, wrap.userId = me.id ∧
        wrap.credentialId = some signIn.credentialId) →
      normalizeEmail user = some me.email) :
    KeyOfUser suite db key.user key.key := by
  obtain ⟨me, signedIn, rfl⟩ := answerOf_encryptionWraps answered
  obtain ⟨user, at_stage, opens⟩ := wrapsAnswered_key moved holds
  obtain ⟨rfl, wrap, stored, mine, filedUnder, keys⟩ := wrap_of_openRoute sound opens
  have named := agrees key.user at_stage me signedIn ⟨wrap, stored, mine, filedUnder⟩
  exact ⟨me.email, named, keys me signedIn.mem mine.symm⟩

end Passkeys

/-! ## Every step in a tab -/

section Steps

variable {K : Type} {platform : Platform K} {suite : KeySuite K} {owner : K → String}
  {prf : Bytes → Bytes} {db : Database} {device next : Device K} {place : Nat} {tab : Tab K}

theorem ownTab_opened (own : Own platform suite owner device) (day : NaiveDate) :
    OwnTab platform suite device.db (Tab.opened device day) where
  home := atHome_initial _ _
  keyed := by
    refine ⟨?_, nofun, own.keystore⟩
    intro key unlocked
    cases signedIn : device.cookie <;>
      simp [Tab.opened, Page.initial, EncryptionCtx.probing, initialState, signedIn] at unlocked
  writes _ member := by cases member
  signIns _ member := by cases member

/-- A text is set under the key of the account shown, if under any. -/
theorem OwnTab.set (own : OwnTab platform suite db tab) (text : String) :
    OwnTab platform suite db (tab.set text) := by
  refine ⟨own.home, own.keyed, ?_, own.signIns⟩
  intro write member
  obtain old | new := List.mem_append.mp member
  · exact own.writes write old
  · rw [List.mem_singleton.mp new]
    simp only [store]
    cases target : writeTarget tab.day.backend tab.day.key tab.page.ctx.state.writeKey with
    | error error =>
        constructor
        · rintro key ⟨⟩
        · rintro key envelope ⟨⟩
    | ok target' =>
        constructor
        · rintro key ⟨⟩
          obtain ⟨-, unlocked⟩ := writeTarget_eq_remote.mp target
          exact ⟨own.home.unlocked key unlocked, own.keyed.unlocked key unlocked⟩
        · rintro key envelope ⟨⟩

/-- One write moves on. -/
theorem OwnTab.withWrite (own : OwnTab platform suite db tab) {index : Nat} {write : Write K}
    (moved : OwnWrite platform suite db write) :
    OwnTab platform suite db { tab with writes := tab.writes.set index write } := by
  refine ⟨own.home, own.keyed, ?_, own.signIns⟩
  intro other member
  obtain old | rfl := List.mem_or_eq_of_mem_set member
  · exact own.writes other old
  · exact moved

/-- One sign-in moves on. -/
theorem OwnTab.withSignIn (own : OwnTab platform suite db tab) {index : Nat}
    {signIn : SignIn K}
    (moved : ∀ key, signIn.stage.key? = some key → KeyOfUser suite db key.user key.key) :
    OwnTab platform suite db (tab.withSignIn index signIn) := by
  refine ⟨own.home, own.keyed, own.writes, ?_⟩
  intro other member
  obtain old | rfl := List.mem_or_eq_of_mem_set member
  · exact own.signIns other old
  · exact moved

theorem ownWrite_finished {write : Write K} {result : Except StorageError Unit}
    (finished : write.task.stage = .finished result) : OwnWrite platform suite db write := by
  constructor <;> simp [finished]

theorem OwnWrite.sealed {write : Write K} {nonce : Nonce} {task : StoreTask K}
    (own : OwnWrite platform suite db write)
    (moved : write.task.sealWith platform nonce = some task) :
    OwnWrite platform suite db { write with task } := by
  obtain ⟨target, at_stage, rfl⟩ := StoreTask.sealWith_eq_some.mp moved
  constructor
  · rintro key ⟨⟩
  · rintro key envelope ⟨⟩
    exact ⟨own.sealing key at_stage, nonce, rfl⟩

/-- A step in a tab leaves every tab with keys of its own. -/
theorem own_acts (own : Own platform suite owner device) (found : device.tabs[place]? = some tab)
    (acts : Acts platform suite prf device place tab next) :
    Own platform suite owner next ∧ next.db = device.db := by
  have ownTab := own.tabs tab (List.mem_of_getElem? found)
  cases acts with
  | quiet page writes signIns =>
      refine ⟨own.withTab own.keystore ?_, rfl⟩
      obtain same | ⟨row, reported⟩ := page
      · exact ⟨same ▸ ownTab.home, same ▸ ownTab.keyed, writes ▸ ownTab.writes,
          signIns ▸ ownTab.signIns⟩
      · exact ⟨reported ▸ ownTab.home.reprobe, reported ▸ ownTab.keyed.reprobe,
          writes ▸ ownTab.writes, signIns ▸ ownTab.signIns⟩
  | page permitted taken =>
      have home := atHome_step (ownTab.home.withKeystore device.keystore) taken
      have keyed := keyed_step (ownTab.keyed.withKeystore own.keystore) (by
        rintro task key user forgets rfl -
        cases permitted) taken
      exact ⟨own.withTab keyed.keystore ⟨home, keyed, ownTab.writes, ownTab.signIns⟩, rfl⟩
  | opened suspended answered opens taken =>
      refine ⟨own.withTab own.keystore ⟨?_, ?_, ownTab.writes, ownTab.signIns⟩, rfl⟩
      · exact (atHome_systemStep ownTab.home taken).1 rfl
      · apply keyed_systemStep ownTab.keyed _ taken
        rintro task key user forgets ⟨⟩ suspended'
        cases suspended.symm.trans suspended'
        exact keyOfUser_of_openWithPasskey own.sound own.enrolled answered opens
  | set text => exact ⟨own.withTab own.keystore (ownTab.set text), rfl⟩
  | moved found' moves =>
      refine ⟨own.withTab own.keystore (ownTab.withWrite ?_), rfl⟩
      obtain ⟨nonce, moved⟩ | moved := moves
      · exact (ownTab.writes _ (List.mem_of_getElem? found')).sealed moved
      · obtain ⟨-, rfl⟩ := StoreTask.sealFailed_eq_some moved
        exact ownWrite_finished rfl
  | signedIn claims credentialId =>
      refine ⟨own.withTab own.keystore ⟨ownTab.home, ownTab.keyed, ownTab.writes, ?_⟩, rfl⟩
      intro signIn member key holds
      obtain old | new := List.mem_append.mp member
      · exact ownTab.signIns signIn old key holds
      · rw [List.mem_singleton.mp new] at holds
        cases holds
  | unlocking found' keeps =>
      refine ⟨own.withTab own.keystore (ownTab.withSignIn fun key holds => ?_), rfl⟩
      exact ownTab.signIns _ (List.mem_of_getElem? found') key (keeps key holds)
  | filed found' put =>
      obtain ⟨gone, key, holds, rfl⟩ := put_key put
      have filed := ownTab.signIns _ (List.mem_of_getElem? found') key holds
      refine ⟨own.withTab ?_ (ownTab.withSignIn fun key' holds' => ?_), rfl⟩
      · rintro record ⟨⟩
        exact filed
      · rw [gone] at holds'
        cases holds'

end Steps

/-! ## Saves -/

section Saves

variable {K : Type} {platform : Platform K} {suite : KeySuite K} {owner : K → String}
  {db next : Database} {ctx : AppCtx} {task later : StoreTask K} {me : User}
  {key : SessionKey K} {envelope : String}

/-- What `entry_save` asks before it stores this body for an account. -/
structure Accepts (ctx : AppCtx) (db : Database) (body : String) (me : User) : Prop where
  signedIn : SignedIn ctx db me
  encrypted : me.encryptedAt ≠ none
  fits : body.utf8ByteSize ≤ MAX_BODY_BYTES

/-- Whatever fails, a save leaves the tables alone or stores the body for an account
it accepts. -/
theorem ensures_entrySave_accepts (date body : String) (log : Log) :
    Ensures (entrySave ctx date body) db log fun _ next _ => next = db ∨
      ∃ me, Accepts ctx db body me ∧ Saved me.id date body db next ∧
        next.passkeys = db.passkeys ∧ next.wraps = db.wraps := by
  apply (ensures_entrySave ctx db date body).mono
  intro reply next log' decision
  cases decision with
  | refused same => exact .inl rfl
  | failed passed aborted executed => exact .inl rfl
  | @committed call outcome next log' passed ran executed =>
      obtain ⟨signedIn, parsed, fits⟩ := passed
      obtain ⟨same, -⟩ | ⟨⟨user, member, owns, marked⟩, -, upserted⟩ :=
        saveTransaction_eq_ok ran
      · exact .inl same
      · obtain rfl := Table.eq_of_conflict User.conflict_symm member signedIn.mem (.inl owns)
        obtain ⟨-, -, passkeys, wraps⟩ := Database.upsertEntry_eq_ok upserted
        refine .inr ⟨_, ⟨signedIn, marked, fits⟩, ?_, passkeys, wraps⟩
        rw [← toIso_of_parseIso parsed]
        exact Saved.of_upsertEntry upserted

/-- What becomes of a save that the server executes. -/
theorem executeSave_outcome (at_stage : task.stage = .sending (.remote key) envelope)
    (ran : task.executeSave ctx db = some (later, next)) :
    (∃ result, later = { task with stage := .finished result }) ∧
      (next = db ∨ ∃ me, Accepts ctx db envelope me ∧
        Saved me.id (toIso task.key.date) envelope db next ∧
        next.passkeys = db.passkeys ∧ next.wraps = db.wraps) := by
  simp only [StoreTask.executeSave, at_stage, Option.some.injEq, Prod.mk.injEq] at ran
  obtain ⟨rfl, rfl⟩ := ran
  exact ⟨⟨_, rfl⟩, ensures_entrySave_accepts (toIso task.key.date) envelope [] none none⟩

/-- A save for an account that accepts it is stored. -/
theorem executeSave_accepted (at_stage : task.stage = .sending (.remote key) envelope)
    (accepts : Accepts ctx db envelope me)
    (ran : task.executeSave ctx db = some (later, next)) :
    Saved me.id (toIso task.key.date) envelope db next := by
  simp only [StoreTask.executeSave, at_stage, Option.some.injEq, Prod.mk.injEq] at ran
  obtain ⟨-, rfl⟩ := ran
  have accepted : (execute (entrySave ctx (toIso task.key.date) envelope) none
      ⟨none, db, []⟩).1.1 = .ok () :=
    execute_entrySave accepts.signedIn accepts.encrypted task.key.date accepts.fits none
  obtain ⟨⟨message, refused⟩, -⟩ | ⟨-, other, signedIn, saved⟩ :=
    ensures_entrySave_saved ctx (toIso task.key.date) envelope db [] none none
  · cases refused.symm.trans accepted
  · obtain rfl := signedIn.unique accepts.signedIn
    exact saved

/-- What is wrapped under a session's key reads as a body sealed under it. -/
theorem planRead_wrap (nonce : Nonce) (text : String) (key : SessionKey K) :
    planRead platform.formats (wrap platform nonce.val text (some key)) =
      .ok (.sealed (sealBody platform.cipher key.key nonce.val text)) :=
  planRead_encodeV2 platform.formats nonce.property

/-- A save stored for an account whose data key it is sealed under. -/
theorem BodiesAtHome.saved (held : BodiesAtHome platform suite db) {nonce : Nonce}
    {day text : String} (member : me ∈ db.users) (own : KeyOf suite db me.email key.key)
    (grown : Grows suite db next)
    (saved : Saved me.id day (wrap platform nonce.val text (some key)) db next) :
    BodiesAtHome platform suite next := by
  intro user stored day' body found sealed plan
  rw [saved.users] at stored
  by_cases here : me.id = user.id ∧ day = day'
  · obtain ⟨same, rfl⟩ := here
    obtain rfl := Table.eq_of_conflict User.conflict_symm member stored (.inl same)
    cases saved.stored.symm.trans found
    rw [planRead_wrap] at plan
    cases plan
    exact ⟨key.key, grown.keys _ _ own, nonce.val, text, rfl⟩
  · rw [saved.frame user.id day' here] at found
    obtain ⟨dek, keyed, made⟩ := held user stored day' body found sealed plan
    exact ⟨dek, grown.keys _ _ keyed, made⟩

/-- Where bodies are at home, the key a stored one was wrapped under is the data key of
its account. -/
theorem BodiesAtHome.keyOf_of_stored {nonce : Nonce} {day text : String}
    (held : BodiesAtHome platform suite db) (member : me ∈ db.users)
    (stored : bodyOf db me.id day = some (wrap platform nonce.val text (some key))) :
    KeyOf suite db me.email key.key := by
  obtain ⟨dek, own, other, text', made⟩ :=
    held me member day _ stored _ (planRead_wrap nonce text key)
  have same : key.key = dek := platform.cipher.key_of_encrypt (congrArg Sealed.ciphertext made)
  exact same ▸ own

end Saves

/-! ## Runs -/

section Runs

variable {K : Type} (platform : Platform K) (suite : KeySuite K) (owner : K → String)
  (prf : Bytes → Bytes) {device next : Device K}

/-- A save that `entry_save` accepts is executed for the account that the tab showed when
the text was set. -/
def SavesForShown (device : Device K) : Tabs.Event K → Prop
  | .tab place (.saveExecuted index claims now) =>
      ∀ tab, device.tabs[place]? = some tab → ∀ write, tab.writes[index]? = some write →
        ∀ target envelope, write.task.stage = .sending target envelope →
          ∀ me, Accepts (requestOf claims now) device.db envelope me →
            write.user.bind normalizeEmail = some me.email
  | _ => True

/-- The wraps that a sign-in is handed, if the account they are of has given its passkey a
key, are those of the account that `current_session` named. -/
def SignInsAgree (device : Device K) : Tabs.Event K → Prop
  | .tab place (.signInFetched index claims now) =>
      ∀ tab, device.tabs[place]? = some tab → ∀ signIn, tab.signIns[index]? = some signIn →
        ∀ user, signIn.stage = .fetching user →
          ∀ me, SignedIn (requestOf claims now) device.db me →
            (∃ wrap ∈ device.db.wraps, wrap.userId = me.id ∧
              wrap.credentialId = some signIn.credentialId) →
            normalizeEmail user = some me.email
  | _ => True

variable {platform suite owner prf}

/-- A save leaves the accounts, their passkeys and their wraps alone. -/
theorem tables_executeSave {ctx : AppCtx} {task later : StoreTask K} {db after : Database}
    (ran : task.executeSave ctx db = some (later, after)) :
    after.users = db.users ∧ after.passkeys = db.passkeys ∧ after.wraps = db.wraps := by
  obtain ⟨key, envelope, at_stage, -⟩ := StoreTask.executeSave_cases ran
  obtain ⟨-, same | ⟨me, -, saved, passkeys, wraps⟩⟩ := executeSave_outcome at_stage ran
  · rw [same]
    exact ⟨rfl, rfl, rfl⟩
  · exact ⟨saved.users, passkeys, wraps⟩

/-- A save changes the rows of one account and nothing else. -/
theorem own_saves {place index : Nat} {tab : Tab K} {claims : Option SessionClaims}
    {now : Timestamp} (own : Own platform suite owner device)
    (found : device.tabs[place]? = some tab)
    (saves : Tabs.Saves device place tab index claims now next) :
    Own platform suite owner next ∧ Keeps suite owner device.db next.db := by
  have ownTab := own.tabs tab (List.mem_of_getElem? found)
  cases saves with
  | executed found' ran =>
      obtain ⟨key, envelope, at_stage, -⟩ := StoreTask.executeSave_cases ran
      obtain ⟨⟨result, rfl⟩, -⟩ := executeSave_outcome at_stage ran
      obtain ⟨users, passkeys, wraps⟩ := tables_executeSave ran
      have kept := keeps_of_same own.sound users wraps
      have own' := own.withDb kept wraps passkeys
      exact ⟨own'.withTab own'.keystore ((ownTab.grows kept.2).withWrite (ownWrite_finished rfl)),
        kept⟩

/-- A sign-in that is handed the wraps of the account it was told of. -/
theorem own_fetches {place index : Nat} {tab : Tab K} {claims : Option SessionClaims}
    {now : Timestamp} (own : Own platform suite owner device)
    (found : device.tabs[place]? = some tab)
    (agrees : SignInsAgree (K := K) device (.tab place (.signInFetched index claims now)))
    (fetches : Fetches suite prf device place tab index claims now next) :
    Own platform suite owner next := by
  have ownTab := own.tabs tab (List.mem_of_getElem? found)
  cases fetches with
  | answered found' answered moved =>
      refine own.withTab own.keystore (ownTab.withSignIn fun key holds => ?_)
      exact keyOfUser_of_wrapsAnswered own.sound answered moved holds
        (agrees tab found _ found')

/-- A step on which sign-ins agree leaves every tab with keys of its own. -/
theorem own_step {event : Tabs.Event K} (own : Own platform suite owner device)
    (agrees : SignInsAgree device event)
    (taken : Tabs.step platform suite prf device event = some next) :
    Own platform suite owner next := by
  cases event with
  | cookie claims =>
      cases taken
      exact ⟨own.sound, own.enrolled, own.keystore, own.tabs⟩
  | signUp email now =>
      cases taken
      obtain ⟨-, passkeys, wraps⟩ := tables_findOrCreate device.db email now
      exact own.withDb (keeps_findOrCreate own.sound email now) wraps passkeys
  | revoke userId =>
      cases taken
      exact own.withDb (keeps_bumpEpoch own.sound userId) rfl rfl
  | opened day =>
      cases taken
      refine ⟨own.sound, own.enrolled, own.keystore, fun tab member => ?_⟩
      obtain old | new := List.mem_append.mp member
      · exact own.tabs tab old
      · rw [List.mem_singleton.mp new]
        exact ownTab_opened own day
  | tab place event =>
      obtain ⟨tab, found, acted⟩ := Option.bind_eq_some_iff.mp taken
      obtain ⟨index, claims, now, -, saves⟩ | ⟨index, claims, now, rfl, fetches⟩ | ⟨-, acts⟩ :=
        act_cases acted
      · exact (own_saves own found saves).1
      · exact own_fetches own found agrees fetches
      · exact (own_acts own found acts).1

/-- Whoever's key a device holds, accounts keep their data keys on the server. -/
theorem sound_step {event : Tabs.Event K} (sound : Sound suite owner device.db)
    (taken : Tabs.step platform suite prf device event = some next) :
    Sound suite owner next.db := by
  cases event with
  | cookie claims =>
      cases taken
      exact sound
  | signUp email now =>
      cases taken
      exact (keeps_findOrCreate sound email now).1
  | revoke userId =>
      cases taken
      exact (keeps_bumpEpoch sound userId).1
  | opened day =>
      cases taken
      exact sound
  | tab place event =>
      obtain ⟨tab, found, acted⟩ := Option.bind_eq_some_iff.mp taken
      obtain ⟨index, claims, now, -, saves⟩ | ⟨index, claims, now, -, fetches⟩ | ⟨-, acts⟩ :=
        act_cases acted
      · cases saves with
        | executed found' ran =>
            obtain ⟨users, -, wraps⟩ := tables_executeSave ran
            exact (keeps_of_same sound users wraps).1
      · cases fetches
        exact sound
      · cases acts <;> exact sound

/-- After a save, bodies are at home exactly when it was executed for the account shown. -/
theorem bodiesAtHome_saves_iff {place index : Nat} {tab : Tab K}
    {claims : Option SessionClaims} {now : Timestamp} (own : Own platform suite owner device)
    (held : BodiesAtHome platform suite device.db) (found : device.tabs[place]? = some tab)
    (saves : Tabs.Saves device place tab index claims now next) :
    BodiesAtHome platform suite next.db ↔
      SavesForShown (K := K) device (.tab place (.saveExecuted index claims now)) := by
  have ownTab := own.tabs tab (List.mem_of_getElem? found)
  have kept := (own_saves own found saves).2
  cases saves with
  | @executed write task db found' ran =>
      obtain ⟨key, envelope, at_stage, -⟩ := StoreTask.executeSave_cases ran
      obtain ⟨⟨shown, email, named, keyed⟩, nonce, rfl⟩ :=
        (ownTab.writes write (List.mem_of_getElem? found')).sending key envelope at_stage
      constructor
      · intro bodies tab' foundTab write' foundWrite target envelope' at_stage' me accepts
        cases found.symm.trans foundTab
        cases found'.symm.trans foundWrite
        cases at_stage.symm.trans at_stage'
        have saved := executeSave_accepted at_stage accepts ran
        have member : me ∈ db.users := saved.users ▸ accepts.signedIn.mem
        have stored : owner key.key = me.email := kept.1.owned _ _
          (bodies.keyOf_of_stored member saved.stored)
        have sealedFor : owner key.key = email := own.sound.owned _ _ keyed
        rw [shown, Option.bind_some, named, ← stored, sealedFor]
      · intro meets
        obtain same | ⟨me, accepts, saved, -, -⟩ := (executeSave_outcome at_stage ran).2
        · rw [show db = device.db from same] at *
          exact held
        · have sealedFor := meets tab found write found' _ _ at_stage me accepts
          rw [shown, Option.bind_some, named] at sealedFor
          cases sealedFor
          exact held.saved accepts.signedIn.mem keyed kept.2 saved

/-- Every other step leaves bodies at home. -/
theorem bodiesAtHome_step_iff {event : Tabs.Event K} (own : Own platform suite owner device)
    (held : BodiesAtHome platform suite device.db)
    (taken : Tabs.step platform suite prf device event = some next) :
    BodiesAtHome platform suite next.db ↔ SavesForShown device event := by
  cases event with
  | cookie claims =>
      cases taken
      exact iff_of_true held trivial
  | signUp email now =>
      cases taken
      refine iff_of_true (held.grows (keeps_findOrCreate own.sound email now).2
        (tables_findOrCreate device.db email now).1 ?_) trivial
      intro user member known
      obtain same | ⟨row, created⟩ := findOrCreate_cases device.db email now
      · rw [same] at member
        exact ⟨user, member, rfl, rfl⟩
      · obtain old | rfl := (created.users user).mp member
        · exact ⟨user, old, rfl, rfl⟩
        · exact absurd known created.fresh
  | revoke userId =>
      cases taken
      refine iff_of_true (held.grows (keeps_bumpEpoch own.sound userId).2 rfl ?_) trivial
      intro user member _
      obtain ⟨old, earlier, rfl⟩ := mem_bumpEpoch.mp member
      refine ⟨old, earlier, ?_⟩
      split <;> exact ⟨rfl, rfl⟩
  | opened day =>
      cases taken
      exact iff_of_true held trivial
  | tab place event =>
      obtain ⟨tab, found, acted⟩ := Option.bind_eq_some_iff.mp taken
      obtain ⟨index, claims, now, rfl, saves⟩ | ⟨index, claims, now, rfl, fetches⟩ |
        ⟨other, acts⟩ := act_cases acted
      · exact bodiesAtHome_saves_iff own held found saves
      · cases fetches
        exact iff_of_true held trivial
      · rw [(own_acts own found acts).2]
        refine iff_of_true held ?_
        cases event with
        | saveExecuted index claims now => cases other
        | _ => trivial

variable (platform suite prf)

/-- From a device without tabs on, in a run in which every sign-in is handed the wraps of
the account it was told of, every sealed body the server stores is sealed under its own
account's data key, in every state, exactly when each save that is accepted is executed
for the account its tab showed when the text was set. -/
theorem sealed_at_home_iff (starts : Starts platform suite owner device)
    (events : List (Tabs.Event K))
    (agree : StepsMeet (Tabs.step platform suite prf) SignInsAgree device events) :
    Throughout (Tabs.step platform suite prf) (fun device => BodiesAtHome platform suite device.db)
        device events ↔
      StepsMeet (Tabs.step platform suite prf) SavesForShown device events :=
  throughout_iff_stepsMeet_under (fun _ _ _ own agrees taken => own_step own agrees taken)
    (fun _ _ _ own held taken => bodiesAtHome_step_iff own held taken) starts.own starts.bodies
    agree

end Runs

section Cookies

variable {K : Type}

/-- The request of an executed save carries the session of the user that the tab showed
when the text was set. -/
def cookieKept (device : Device K) : Tabs.Event K → Bool
  | .tab place (.saveExecuted index claims _) =>
      (device.tabs[place]?.bind fun tab => tab.writes[index]?).all fun write =>
        write.user = claims.map SessionClaims.email
  | _ => true

/-- While the session cookie is the one of the page load, saves are for the account
shown. -/
theorem savesForShown_of_cookieKept (device : Device K) (event : Tabs.Event K)
    (kept : cookieKept device event = true) : SavesForShown device event := by
  unfold SavesForShown
  split
  · intro tab found write found' _ _ _ me accepts
    obtain ⟨claims', email, carried, named, known, -⟩ := accepts.signedIn
    simp only [cookieKept, found, found', Option.bind_some, Option.all_some,
      decide_eq_true_eq] at kept
    cases carried
    rw [kept, Option.map_some, Option.bind_some, named, (mem_of_userByEmail known).2]
  · trivial

/-- The wraps of a sign-in are asked for under the session that `current_session` named. -/
def sessionKept (device : Device K) : Tabs.Event K → Bool
  | .tab place (.signInFetched index claims _) =>
      (device.tabs[place]?.bind fun tab => tab.signIns[index]?).all fun signIn =>
        match signIn.stage with
        | .fetching user => claims.map SessionClaims.email = some user
        | _ => true
  | _ => true

/-- While the session cookie is the one of the sign-in, its wraps are those of the account
that signed in. -/
theorem signInsAgree_of_sessionKept (device : Device K) (event : Tabs.Event K)
    (kept : sessionKept device event = true) : SignInsAgree device event := by
  unfold SignInsAgree
  split
  · intro tab found signIn found' user at_stage me signedIn _
    obtain ⟨claims', email, carried, named, known, -⟩ := signedIn
    simp only [sessionKept, found, found', at_stage, Option.bind_some, Option.all_some,
      decide_eq_true_eq] at kept
    cases carried
    rw [← Option.some.inj kept, named, (mem_of_userByEmail known).2]
  · trivial

end Cookies

/-! ## A session replaced in another tab -/

open TimeTracker.Client.Session (Known)
open TimeTracker.Client.KeysAtHome (plainBrowser drawnFor home_initial)
open TimeTracker.Storage.Saves (plainPlatform plainNonce mayFirst)

theorem toNat_injective : Function.Injective UInt8.toNat :=
  fun _ _ => UInt8.toNat_inj.mp

/-- The formats of before, and the cipher that keeps the key in the clear. -/
def bytePlatform : Platform UInt8 :=
  { formats := plainPlatform.formats
    cipher := Aead.labelled.named UInt8.toNat toNat_injective }

/-- alice with a passkey, and bob. -/
def enrolledAlice : Database :=
  effect (insertPasskey 1 [1] [] true 0)
    (effect (findOrCreate "bob@example.com" 0)
      (effect (findOrCreate "alice@example.com" 0) .empty))

def alicesPasskeyWrap : PasskeyWrapDto :=
  { credentialId := [1], wrappedKey := lock plainBrowser.suite .passkey (plainBrowser.prf [1]) 1 }

def keyWrapOf (dek : UInt8) : Bytes :=
  lock plainBrowser.suite .encryptionKey (List.replicate 20 7) dek

/-- alice's account is encrypted with data key 1, and bob's with data key 2. -/
def bothEncrypted : Database :=
  effect (enableTransaction 2 none (keyWrapOf 2) 0)
    (effect (enableTransaction 1 (some alicesPasskeyWrap) (keyWrapOf 1) 0) enrolledAlice)

def freshDevice : Device UInt8 :=
  { db := bothEncrypted, cookie := none, keystore := none, tabs := [] }

theorem known_enrolledAlice :
    Known "alice@example.com" 1 enrolledAlice ∧ Known "bob@example.com" 2 enrolledAlice := by
  have users : enrolledAlice.users.rows =
      [{ id := 1, email := "alice@example.com", sessionEpoch := 0, createdAt := 0
         encryptedAt := none },
        { id := 2, email := "bob@example.com", sessionEpoch := 0, createdAt := 0
          encryptedAt := none }] := rfl
  constructor
  · exact ⟨_, users ▸ List.mem_cons_self .., rfl, rfl⟩
  · exact ⟨_, users ▸ List.mem_cons_of_mem _ (List.mem_singleton_self _), rfl, rfl⟩

theorem keyWrapOf_wraps (dek : UInt8) : Wraps plainBrowser.suite dek (keyWrapOf dek) :=
  wraps_lock ..

theorem sound_bothEncrypted : Sound plainBrowser.suite drawnFor bothEncrypted := by
  have fresh := (home_initial drawnFor plainBrowser.suite).sound
  have alice := (keeps_findOrCreate fresh "alice@example.com" 0).1
  have bob := (keeps_findOrCreate alice "bob@example.com" 0).1
  have enrolled : Sound plainBrowser.suite drawnFor enrolledAlice :=
    (keeps_insertPasskey bob 1 [1] [] true 0).1
  have passkeyHolds : ∀ dto, some alicesPasskeyWrap = some dto →
      Wraps plainBrowser.suite 1 dto.wrappedKey := by
    rintro dto ⟨⟩
    exact wraps_lock plainBrowser.suite .passkey (plainBrowser.prf [1]) 1
  have first := keeps_enableTransaction enrolled known_enrolledAlice.1 rfl
    (keyWrapOf_wraps 1) passkeyHolds 0
  have noPasskey : ∀ dto : PasskeyWrapDto, none = some dto →
      Wraps plainBrowser.suite 2 dto.wrappedKey := by
    rintro dto ⟨⟩
  exact (keeps_enableTransaction first.1 (known_enrolledAlice.2.aged first.2.aged) rfl
    (keyWrapOf_wraps 2) noPasskey 0).1

/-- The passkey is alice's, and so is the one wrap filed under it. -/
theorem wrapsEnrolled_bothEncrypted : WrapsEnrolled bothEncrypted := by
  have enrolled : bothEncrypted.passkeys.rows.map
      (fun row => (row.credentialId, row.userId)) = [([1], 1)] := rfl
  have filed : bothEncrypted.wraps.rows.map (fun wrap => (wrap.credentialId, wrap.userId)) =
      [(some [1], 1), (none, 1), (none, 2)] := rfl
  intro wrap stored row member filedUnder
  have passkey : (row.credentialId, row.userId) ∈ [([1], 1)] :=
    enrolled ▸ List.mem_map_of_mem member
  have wrapped : (wrap.credentialId, wrap.userId) ∈
      [(some [1], 1), (none, 1), (none, 2)] := filed ▸ List.mem_map_of_mem stored
  obtain ⟨credential, owns⟩ := Prod.mk.inj (List.mem_singleton.mp passkey)
  rw [filedUnder, credential] at wrapped
  have alices : wrap.userId = 1 := by simpa using wrapped
  exact owns.trans alices.symm

theorem starts_freshDevice :
    Starts bytePlatform plainBrowser.suite drawnFor freshDevice where
  sound := sound_bothEncrypted
  enrolled := wrapsEnrolled_bothEncrypted
  keystore := nofun
  tabs := rfl
  bodies := by
    intro user _ day body stored
    have none_stored : bothEncrypted.entries.rows = [] := rfl
    obtain ⟨row, filed, -⟩ := bodyOf_eq_some.mp stored
    rw [show row ∈ freshDevice.db.entries ↔ row ∈ bothEncrypted.entries.rows from Iff.rfl,
      none_stored] at filed
    cases filed

def alice : SessionClaims :=
  { email := "alice@example.com", epoch := 0 }

def bob : SessionClaims :=
  { email := "bob@example.com", epoch := 0 }

/-- A page load, whose probe finds a key on the device if there is one for the account. -/
def opensAs (place : Nat) (claims : SessionClaims) : List (Tabs.Event UInt8) :=
  [.cookie (some claims), .opened mayFirst,
    .tab place (.page .startProbe), .tab place (.sent (.status 0)),
    .tab place (.statusExecuted 0 (some claims) 0),
    .tab place (.page (.statusAnswered 0 (some { account := claims.email, enabled := true }))),
    .tab place (.page (.keystoreRead 0 false))]

/-- Alice opens the app in a tab, and unlocks with her passkey. -/
def aliceUnlocks : List (Tabs.Event UInt8) :=
  opensAs 0 alice ++
    [.tab 0 (.page (.beginCeremony "alice@example.com")), .tab 0 (.sent (.wraps 1)),
      .tab 0 (.passkeyUsed 1 (some alice) 0 [1]), .tab 0 (.page (.enterUnlock 1)),
      .tab 0 (.page (.putCommitted 1)), .tab 0 (.page (.resumeUnlock 1))]

/-- Alice signs in with her passkey, which asks whose session it is under one cookie, and
for the wraps under another. -/
def aliceSignsIn (session wraps : SessionClaims) : List (Tabs.Event UInt8) :=
  [.opened mayFirst, .tab 0 (.signedIn alice [1]), .cookie (some session),
    .tab 0 (.sent (.signInSession 0)), .tab 0 (.signInNamed 0 (some session) 0),
    .tab 0 (.sent (.signInStatus 0)), .tab 0 (.signInChecked 0 (some session) 0),
    .cookie (some wraps),
    .tab 0 (.sent (.signInWraps 0)), .tab 0 (.signInFetched 0 (some wraps) 0),
    .tab 0 (.signInRemembers 0), .tab 0 (.signInPut 0)]

/-- A character is typed in a tab, and its body is sealed. -/
def typesIn (place : Nat) : List (Tabs.Event UInt8) :=
  [.tab place (.set "a"), .tab place (.sealed 0 (plainNonce 1))]

/-- The save leaves with this cookie, and is executed. -/
def savesAs (place : Nat) (claims : SessionClaims) : List (Tabs.Event UInt8) :=
  [.cookie (some claims), .tab place (.sent (.save 0)),
    .tab place (.saveExecuted 0 (some claims) 1)]

/-- Alice signs in, and the next page load has her key. -/
def aliceReturns : List (Tabs.Event UInt8) :=
  aliceSignsIn alice alice ++ opensAs 1 alice ++ typesIn 1 ++ savesAs 1 alice

/-- Bob signs in in another tab before the save leaves. -/
def bobInterrupts : List (Tabs.Event UInt8) :=
  aliceUnlocks ++ typesIn 0 ++ savesAs 0 bob

/-- Bob is signed in in another tab while `current_session` answers, and again when he
comes back to his own entries. -/
def bobBetween : List (Tabs.Event UInt8) :=
  aliceSignsIn bob alice ++ opensAs 1 bob ++ typesIn 1 ++ savesAs 1 bob

/-- Under alice's own cookie, the body is stored, and bodies are at home. -/
theorem sealed_at_home_alice :
    (∃ last, runFrom (Tabs.step bytePlatform plainBrowser.suite plainBrowser.prf) freshDevice
        aliceReturns = some last ∧ (bodyOf last.db 1 "2026-05-01").isSome) ∧
    Throughout (Tabs.step bytePlatform plainBrowser.suite plainBrowser.prf)
      (fun device => BodiesAtHome bytePlatform plainBrowser.suite device.db) freshDevice
      aliceReturns := by
  constructor
  · have stored : (runFrom (Tabs.step bytePlatform plainBrowser.suite plainBrowser.prf)
        freshDevice aliceReturns).map
          (fun last => (bodyOf last.db 1 "2026-05-01").isSome) = some true := by
      decide +kernel
    exact Option.map_eq_some_iff.mp stored
  · have agree : StepsMeet (Tabs.step bytePlatform plainBrowser.suite plainBrowser.prf)
        SignInsAgree freshDevice aliceReturns :=
      StepsMeet.mono signInsAgree_of_sessionKept (by decide +kernel)
    refine (sealed_at_home_iff _ _ _ starts_freshDevice _ agree).mpr
      (StepsMeet.mono savesForShown_of_cookieKept ?_)
    decide +kernel

/-- A body of bob's that is wrapped under data key 1, which is alice's. -/
theorem not_throughout_of_stored {events : List (Tabs.Event UInt8)} (key : SessionKey UInt8)
    (alices : key.key = 1)
    (ends : (runFrom (Tabs.step bytePlatform plainBrowser.suite plainBrowser.prf) freshDevice
      events).map
        (fun last => (last.db.users.rows.map (fun user => (user.id, user.email)),
          bodyOf last.db 2 "2026-05-01")) =
      some ([(1, "alice@example.com"), (2, "bob@example.com")],
        some (wrap bytePlatform (plainNonce 1).val "a" (some key)))) :
    ¬ Throughout (Tabs.step bytePlatform plainBrowser.suite plainBrowser.prf)
        (fun device => BodiesAtHome bytePlatform plainBrowser.suite device.db) freshDevice
        events := by
  intro always
  obtain ⟨last, ran, same⟩ := Option.map_eq_some_iff.mp ends
  obtain ⟨users, stored⟩ := Prod.mk.inj same
  rw [← List.append_nil events] at always
  have held : BodiesAtHome bytePlatform plainBrowser.suite last.db := always.at_split ran
  have sound : Sound plainBrowser.suite drawnFor last.db :=
    invariant_runFrom (I := fun device => Sound plainBrowser.suite drawnFor device.db)
      (fun _ _ _ sound taken => sound_step sound taken) starts_freshDevice.sound ran
  obtain ⟨user, member, named⟩ : ∃ user ∈ last.db.users,
      (user.id, user.email) = (2, "bob@example.com") :=
    List.mem_map.mp (users ▸ by decide)
  obtain ⟨id, email⟩ := Prod.mk.inj named
  have keyed : KeyOf plainBrowser.suite last.db user.email key.key :=
    held.keyOf_of_stored member (id ▸ stored)
  have bobs : drawnFor 1 = "bob@example.com" := alices ▸ email ▸ sound.owned _ _ keyed
  exact absurd bobs (by decide)

/-- Alice's key seals a body of bob's: when the cookie of her save names him, and when the
cookie of her sign-in names him for one answer, whatever cookie his own save carries. -/
theorem bob_replaces_alice :
    Starts bytePlatform plainBrowser.suite drawnFor freshDevice ∧
      ¬ Throughout (Tabs.step bytePlatform plainBrowser.suite plainBrowser.prf)
          (fun device => BodiesAtHome bytePlatform plainBrowser.suite device.db) freshDevice
          bobInterrupts ∧
      StepsMeet (Tabs.step bytePlatform plainBrowser.suite plainBrowser.prf) SavesForShown
          freshDevice bobBetween ∧
      ¬ Throughout (Tabs.step bytePlatform plainBrowser.suite plainBrowser.prf)
          (fun device => BodiesAtHome bytePlatform plainBrowser.suite device.db) freshDevice
          bobBetween := by
  let opened (user : String) : SessionKey UInt8 := { key := 1, user, forgets := 0 }
  refine ⟨starts_freshDevice, ?_, ?_, ?_⟩
  · exact not_throughout_of_stored (opened "alice@example.com") rfl (by decide +kernel)
  · exact StepsMeet.mono savesForShown_of_cookieKept (by decide +kernel)
  · exact not_throughout_of_stored (opened "bob@example.com") rfl (by decide +kernel)

end TimeTracker.Client.SealedAtHome
