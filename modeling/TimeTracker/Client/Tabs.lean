import TimeTracker.Client.AfterSignIn
import TimeTracker.Client.DataKeys
import TimeTracker.Storage.Settles
import TimeTracker.Tab.Keys

/-!
# Several tabs on one device

Each tab has its own page load, with the day it shows, its writes, its loads and the
unlocks that ride its sign-ins; what the tabs share is the session cookie, the keystore
and the server.  A request leaves with the cookie of that moment, is executed by the
server at some later one, and what the tab did meanwhile is up to the tab.
-/

namespace TimeTracker.Client.Tabs

open TimeTracker.Text
open TimeTracker.Date
open TimeTracker.Library.Atomic
open TimeTracker.Crypto.Wire
open TimeTracker.Crypto.Ceremony
open TimeTracker.Server.Schema
open TimeTracker.Server.Store
open TimeTracker.Server.Functions
open TimeTracker.Server.Execution
open TimeTracker.Server.Outcomes
open TimeTracker.Tab
open TimeTracker.Tab.State
open TimeTracker.Tab.System
open TimeTracker.Tab.System.Page
open TimeTracker.Tab.Rerun
open TimeTracker.Storage.Envelopes
open TimeTracker.Storage.Seam
open TimeTracker.Storage.Hook
open TimeTracker.Storage.Settles
open TimeTracker.Client.AfterSignIn

/-! ## The state -/

/-- Where a session's entries live. -/
def backendOf (user : Option String) : Backend :=
  if user.isSome then .remote else .localStorage

/-- What a tab sends a request for. -/
inductive Purpose
  | status (probe : Nat)
  | wraps (ceremony : Nat)
  | load (place : Nat)
  | save (place : Nat)
  | signInSession (place : Nat)
  | signInStatus (place : Nat)
  | signInWraps (place : Nat)
  deriving DecidableEq, Repr

/-- A write in flight, with the user the tab showed when the text was set. -/
structure Write (K : Type) where
  user : Option String
  task : StoreTask K

/-- A load in flight, with the backend it reads from. -/
structure Load (K : Type) where
  backend : Backend
  task : LoadTask K

/-- One tab, on one day. -/
structure Tab (K : Type) where
  page : Page K
  persistent : Persistent
  /-- What the load effect last ran for. -/
  seen : Option (StorageKey × Backend × KeyIdentity)
  writes : List (Write K)
  loads : List (Load K)
  /-- The passkey sign-ins of the tab, each with the unlock it goes on to. -/
  signIns : List (SignIn K)
  /-- The requests that have left, with the session cookie each of them carries. -/
  sent : List (Purpose × Option SessionClaims)
  /-- What the server answered the status calls of the probes. -/
  statuses : List (Nat × EncryptionStatus)

/-- The browser with its tabs, and the server's tables. -/
structure Device (K : Type) where
  db : Database
  cookie : Option SessionClaims
  keystore : Option (Record K)
  tabs : List (Tab K)

/-- What can happen in a tab, or to a request of it. -/
inductive TabEvent (K : Type)
  | page (event : System.Event K)
  /-- The user picks another day. -/
  | goTo (day : NaiveDate)
  /-- The load effect runs. -/
  | load
  | set (text : String)
  | sealed (write : Nat) (nonce : Nonce)
  | sealFailed (write : Nat)
  | sent (purpose : Purpose)
  | statusExecuted (probe : Nat) (claims : Option SessionClaims) (now : Timestamp)
  /-- The server answers with the wraps, and a passkey opens one of them. -/
  | passkeyUsed (ceremony : Nat) (claims : Option SessionClaims) (now : Timestamp)
      (credentialId : Bytes)
  | loadExecuted (load : Nat) (claims : Option SessionClaims) (now : Timestamp)
  /-- The browser's own storage answers, or a request is lost. -/
  | loadAnswered (load : Nat) (raw : Except StorageError (Option String))
  | rowOpened (load : Nat)
  | published (load : Nat)
  | saveExecuted (write : Nat) (claims : Option SessionClaims) (now : Timestamp)
  /-- `passkey_login_finish` answers with the session of the account that the
  credential is enrolled with. -/
  | signedIn (claims : SessionClaims) (credentialId : Bytes)
  | signInNamed (signIn : Nat) (claims : Option SessionClaims) (now : Timestamp)
  | signInChecked (signIn : Nat) (claims : Option SessionClaims) (now : Timestamp)
  | signInFetched (signIn : Nat) (claims : Option SessionClaims) (now : Timestamp)
  | signInRemembers (signIn : Nat)
  | signInPut (signIn : Nat)
  | signInFailed (signIn : Nat)

inductive Event (K : Type)
  /-- A sign-in that unlocks nothing, or a sign-out, in whatever tab. -/
  | cookie (claims : Option SessionClaims)
  /-- An account is created at its first sign-in. -/
  | signUp (email : String) (now : Timestamp)
  /-- An account is signed out everywhere. -/
  | revoke (userId : Int)
  /-- A tab is opened or reloaded. -/
  | opened (day : NaiveDate)
  | tab (place : Nat) (event : TabEvent K)

/-! ## The steps -/

/-- The context of a request that carries this cookie. -/
def requestOf (claims : Option SessionClaims) (now : Timestamp) : AppCtx :=
  { claims, passkeyState := none, now }

/-- What the server answers a request it executes by itself. -/
def answerOf {α : Type} (handler : Handler α) (db : Database) : Option α :=
  (execute handler none ⟨none, db, []⟩).1.1.toOption

/-- Whether the credential is enrolled with the account that was challenged, as
`passkey_login_finish` checks. -/
def enrolledWith (db : Database) (user : String) (credentialId : Bytes) : Bool :=
  match (normalizeEmail user).bind (userByEmail db),
    db.passkeys.rows.find? fun row => row.credentialId = credentialId with
  | some owner, some row => row.userId = owner.id
  | _, _ => false

section Steps

variable {K : Type} (platform : Platform K) (suite : KeySuite K) (prf : Bytes → Bytes)

/-- The key a passkey of the user's finds among the wraps. -/
def openWithPasskey (db : Database) (wraps : List WrapDto) (credentialId : Bytes)
    (user : String) (forgets : Forgets) : Option (SessionKey K) :=
  if enrolledWith db user credentialId then
    openRoute suite (prf credentialId) wraps credentialId user forgets
  else none

namespace Tab

/-- A page load on this device. -/
def opened (device : Device K) (day : NaiveDate) : Tab K :=
  let user := device.cookie.map SessionClaims.email
  { page := .initial user device.keystore
    persistent :=
      { value := none, key := .timeEntry day, backend := backendOf user, generation := ⟨0⟩ }
    seen := none, writes := [], loads := [], signIns := [], sent := [], statuses := [] }

/-- The day with the backend the user's session has. -/
def day (tab : Tab K) : Persistent :=
  { tab.persistent with backend := backendOf tab.page.user }

/-- What the load effect subscribes to. -/
def inputs (tab : Tab K) : StorageKey × Backend × KeyIdentity :=
  (tab.day.key, tab.day.backend, keyIdentity tab.page.ctx)

/-- `Persistent::set`. -/
def set (tab : Tab K) (text : String) : Tab K :=
  let (persistent, task) := tab.day.set tab.page.ctx.state text
  { tab with persistent, writes := tab.writes ++ [{ user := tab.page.user, task }] }

/-- The load effect. -/
def load (tab : Tab K) : Tab K :=
  let (persistent, task) := tab.day.load tab.page.ctx.state
  { tab with
    persistent, seen := some tab.inputs
    loads := tab.loads ++ [{ backend := tab.day.backend, task }] }

/-- A finished load publishes what it read, or reports the row. -/
def publish (tab : Tab K) (place : Nat) (load : Load K)
    (read : Except StorageError (Option String)) : Tab K :=
  let finished := { load with task := { load.task with stage := .finished } }
  let generation := tab.persistent.generation
  let reprobing := reprobes tab.page.ctx .unopenable
  let shown := load.task.publishes? generation reprobing
  let page := match reported? (loadedValue read) with
    | some row => if generation.isCurrent load.task.token then tab.page.reprobe row else tab.page
    | none => tab.page
  { tab with
    page, loads := tab.loads.set place finished
    persistent := { tab.persistent with value := shown.or tab.persistent.value } }

/-- Whether something in the tab is waiting to send this request. -/
def awaits (tab : Tab K) : Purpose → Bool
  | .status probe =>
      match tab.page.stage? probe with
      | some (.probing _ _) => true
      | _ => false
  | .wraps ceremony =>
      match tab.page.stage? ceremony with
      | some (.opening _ _) => true
      | _ => false
  | .load place =>
      match tab.loads[place]? with
      | some { backend := .remote, task := { stage := .requesting, .. } } => true
      | _ => false
  | .save place =>
      match tab.writes[place]? with
      | some { task := { stage := .sending (.remote _) _, .. }, .. } => true
      | _ => false
  | .signInSession place =>
      match tab.signIns[place]? with
      | some { stage := .naming, .. } => true
      | _ => false
  | .signInStatus place =>
      match tab.signIns[place]? with
      | some { stage := .checking _, .. } => true
      | _ => false
  | .signInWraps place =>
      match tab.signIns[place]? with
      | some { stage := .fetching _, .. } => true
      | _ => false

/-- What the page may do by itself: a status answer is the server's, a key is
opened by a passkey, a row is reported by a load, and only a sign-out changes the
user of a page load. -/
def permits (tab : Tab K) : System.Event K → Bool
  | .userChanged _ | .keyOpened _ _ | .rowSeen _ => false
  | .beginCeremony user => tab.page.user = some user
  | .statusAnswered probe (some status) => (probe, status) ∈ tab.statuses
  | _ => true

def withSignIn (tab : Tab K) (place : Nat) (signIn : SignIn K) : Tab K :=
  { tab with signIns := tab.signIns.set place signIn }

end Tab

namespace Device

def withTab (device : Device K) (place : Nat) (tab : Tab K) : Device K :=
  { device with tabs := device.tabs.set place tab }

/-- One step in a tab, or of the server for it. -/
def act (device : Device K) (place : Nat) (tab : Tab K) : TabEvent K → Option (Device K)
  | .page event => do
      if tab.permits event then
        let page ← Rerun.step { tab.page with keystore := device.keystore } (.own event)
        let cookie := if changesUser event then none else device.cookie
        some ({ device with cookie, keystore := page.keystore }.withTab place { tab with page })
      else none
  | .goTo day =>
      some (device.withTab place
        { tab with persistent := { tab.persistent with key := .timeEntry day } })
  | .load => if tab.seen = some tab.inputs then none else some (device.withTab place tab.load)
  | .set text => some (device.withTab place (tab.set text))
  | .sealed index nonce => do
      let write ← tab.writes[index]?
      let task ← write.task.sealWith platform nonce
      some (device.withTab place { tab with writes := tab.writes.set index { write with task } })
  | .sealFailed index => do
      let write ← tab.writes[index]?
      let task ← write.task.sealFailed
      some (device.withTab place { tab with writes := tab.writes.set index { write with task } })
  | .sent purpose =>
      if tab.awaits purpose then
        some (device.withTab place { tab with sent := tab.sent ++ [(purpose, device.cookie)] })
      else none
  | .statusExecuted probe claims now => do
      if (.status probe, claims) ∈ tab.sent then
        let status ← answerOf (encryptionStatus (requestOf claims now)) device.db
        some (device.withTab place { tab with statuses := tab.statuses ++ [(probe, status)] })
      else none
  | .passkeyUsed ceremony claims now credentialId =>
      match tab.page.stage? ceremony with
      | some (.opening user forgets) => do
          if (.wraps ceremony, claims) ∈ tab.sent then
            let wraps ← answerOf (encryptionWraps (requestOf claims now)) device.db
            let key ← openWithPasskey suite prf device.db wraps credentialId user forgets
            let page ← System.step tab.page (.keyOpened ceremony key.key)
            some (device.withTab place { tab with page })
          else none
      | _ => none
  | .loadExecuted index claims now => do
      let load ← tab.loads[index]?
      if (.load index, claims) ∈ tab.sent then
        let task ← load.task.executeLoad platform (requestOf claims now) device.db
        some (device.withTab place { tab with loads := tab.loads.set index { load with task } })
      else none
  | .loadAnswered index raw => do
      let load ← tab.loads[index]?
      if load.backend = .localStorage ∨ raw.toOption = none then
        let task ← load.task.answer platform raw
        some (device.withTab place { tab with loads := tab.loads.set index { load with task } })
      else none
  | .rowOpened index => do
      let load ← tab.loads[index]?
      let task ← load.task.openWith platform
      some (device.withTab place { tab with loads := tab.loads.set index { load with task } })
  | .published index => do
      let load ← tab.loads[index]?
      match load.task.stage with
      | .resolved read => some (device.withTab place (tab.publish index load read))
      | _ => none
  | .saveExecuted index claims now => do
      let write ← tab.writes[index]?
      if (.save index, claims) ∈ tab.sent then
        let (task, db) ← write.task.executeSave (requestOf claims now) device.db
        some ({ device with db }.withTab place
          { tab with writes := tab.writes.set index { write with task } })
      else none
  -- Only a page load without a user offers to sign in.
  | .signedIn claims credentialId =>
      if tab.page.user = none ∧ enrolledWith device.db claims.email credentialId then
        let signIn := SignIn.begun credentialId tab.page.forgets
        some ({ device with cookie := some claims }.withTab place
          { tab with signIns := tab.signIns ++ [signIn] })
      else none
  | .signInNamed index claims now => do
      let signIn ← tab.signIns[index]?
      if (.signInSession index, claims) ∈ tab.sent then
        let session ← answerOf (currentSession (requestOf claims now)) device.db
        let signIn ← signIn.sessionAnswered session
        some (device.withTab place (tab.withSignIn index signIn))
      else none
  | .signInChecked index claims now => do
      let signIn ← tab.signIns[index]?
      if (.signInStatus index, claims) ∈ tab.sent then
        let status ← answerOf (encryptionStatus (requestOf claims now)) device.db
        let signIn ← signIn.statusAnswered status
        some (device.withTab place (tab.withSignIn index signIn))
      else none
  | .signInFetched index claims now => do
      let signIn ← tab.signIns[index]?
      if (.signInWraps index, claims) ∈ tab.sent then
        let wraps ← answerOf (encryptionWraps (requestOf claims now)) device.db
        let signIn ← signIn.wrapsAnswered suite (prf signIn.credentialId) wraps
        some (device.withTab place (tab.withSignIn index signIn))
      else none
  | .signInRemembers index => do
      let signIn ← tab.signIns[index]?
      let signIn ← signIn.remember tab.page
      some (device.withTab place (tab.withSignIn index signIn))
  | .signInPut index => do
      let signIn ← tab.signIns[index]?
      let (signIn, record) ← signIn.put
      some ({ device with keystore := some record }.withTab place (tab.withSignIn index signIn))
  | .signInFailed index => do
      let signIn ← tab.signIns[index]?
      let signIn ← signIn.failed
      some (device.withTab place (tab.withSignIn index signIn))

end Device

/-- One step of the device. -/
def step (device : Device K) : Event K → Option (Device K)
  | .cookie claims => some { device with cookie := claims }
  | .signUp email now =>
      some { device with db := effect (findOrCreate email now) device.db }
  | .revoke userId => some { device with db := effect (bumpEpoch userId) device.db }
  | .opened day => some { device with tabs := device.tabs ++ [.opened device day] }
  | .tab place event => do
      device.act platform suite prf place (← device.tabs[place]?) event

/-! ## What a step does -/

/-- What a step in a tab makes of the device, unless the server executes a save or hands
the wraps to a sign-in. -/
inductive Acts (device : Device K) (place : Nat) (tab : Tab K) : Device K → Prop
  /-- The page is at most told of a row. -/
  | quiet {later : Tab K}
      (page : later.page = tab.page ∨ ∃ row, later.page = tab.page.reprobe row)
      (writes : later.writes = tab.writes) (signIns : later.signIns = tab.signIns) :
      Acts device place tab (device.withTab place later)
  | page {event : System.Event K} {page : Page K} {cookie : Option SessionClaims}
      (permitted : tab.permits event = true)
      (taken : Rerun.step { tab.page with keystore := device.keystore } (.own event) =
        some page) :
      Acts device place tab
        ({ device with cookie, keystore := page.keystore }.withTab place { tab with page })
  | opened {ceremony : Nat} {user : String} {forgets : Forgets}
      {claims : Option SessionClaims} {now : Timestamp} {wraps : List WrapDto}
      {credentialId : Bytes} {key : SessionKey K} {page : Page K}
      (suspended : tab.page.stage? ceremony = some (.opening user forgets))
      (answered : answerOf (encryptionWraps (requestOf claims now)) device.db = some wraps)
      (opens : openWithPasskey suite prf device.db wraps credentialId user forgets = some key)
      (taken : System.step tab.page (.keyOpened ceremony key.key) = some page) :
      Acts device place tab (device.withTab place { tab with page })
  | set (text : String) : Acts device place tab (device.withTab place (tab.set text))
  | moved {index : Nat} {write : Write K} {task : StoreTask K}
      (found : tab.writes[index]? = some write)
      (moves : (∃ nonce, write.task.sealWith platform nonce = some task) ∨
        write.task.sealFailed = some task) :
      Acts device place tab
        (device.withTab place { tab with writes := tab.writes.set index { write with task } })
  | signedIn (claims : SessionClaims) (credentialId : Bytes) :
      Acts device place tab
        ({ device with cookie := some claims }.withTab place
          { tab with signIns := tab.signIns ++ [SignIn.begun credentialId tab.page.forgets] })
  /-- A sign-in goes on with the key it has, if it has one. -/
  | unlocking {index : Nat} {signIn later : SignIn K}
      (found : tab.signIns[index]? = some signIn)
      (keeps : ∀ key, later.stage.key? = some key → signIn.stage.key? = some key) :
      Acts device place tab (device.withTab place (tab.withSignIn index later))
  | filed {index : Nat} {signIn later : SignIn K} {record : Record K}
      (found : tab.signIns[index]? = some signIn)
      (put : signIn.put = some (later, record)) :
      Acts device place tab
        ({ device with keystore := some record }.withTab place (tab.withSignIn index later))

/-- The server executes a save of the tab's. -/
inductive Saves (device : Device K) (place : Nat) (tab : Tab K) (index : Nat)
    (claims : Option SessionClaims) (now : Timestamp) : Device K → Prop
  | executed {write : Write K} {task : StoreTask K} {db : Database}
      (found : tab.writes[index]? = some write)
      (ran : write.task.executeSave (requestOf claims now) device.db = some (task, db)) :
      Saves device place tab index claims now
        ({ device with db }.withTab place
          { tab with writes := tab.writes.set index { write with task } })

/-- The server hands the wraps to a sign-in of the tab's. -/
inductive Fetches (device : Device K) (place : Nat) (tab : Tab K) (index : Nat)
    (claims : Option SessionClaims) (now : Timestamp) : Device K → Prop
  | answered {signIn later : SignIn K} {wraps : List WrapDto}
      (found : tab.signIns[index]? = some signIn)
      (answered : answerOf (encryptionWraps (requestOf claims now)) device.db = some wraps)
      (moved : signIn.wrapsAnswered suite (prf signIn.credentialId) wraps = some later) :
      Fetches device place tab index claims now
        (device.withTab place (tab.withSignIn index later))

/-- The steps that go by which account a request is answered for. -/
def decidedByClaims : TabEvent K → Bool
  | .saveExecuted _ _ _ | .signInFetched _ _ _ => true
  | _ => false

variable {platform suite prf} {device next : Device K} {place : Nat} {tab : Tab K}
  {event : TabEvent K}

theorem publish_page (index : Nat) (load : Load K)
    (read : Except StorageError (Option String)) :
    (tab.publish index load read).page = tab.page ∨
      ∃ row, (tab.publish index load read).page = tab.page.reprobe row := by
  unfold Tab.publish
  dsimp only
  split
  · next row _ =>
      split
      · exact .inr ⟨row, rfl⟩
      · exact .inl rfl
  · exact .inl rfl

/-- Nothing else happens in a tab. -/
theorem act_cases (taken : device.act platform suite prf place tab event = some next) :
    (∃ index claims now, event = .saveExecuted index claims now ∧
      Saves device place tab index claims now next) ∨
    (∃ index claims now, event = .signInFetched index claims now ∧
      Fetches suite prf device place tab index claims now next) ∨
    (decidedByClaims event = false ∧ Acts platform suite prf device place tab next) := by
  cases event with
  | saveExecuted index claims now =>
      simp only [Device.act, Option.bind_eq_bind, Option.bind_eq_some_iff] at taken
      obtain ⟨write, found, taken⟩ := taken
      split at taken
      · simp only [Option.bind_eq_some_iff] at taken
        obtain ⟨⟨task, db⟩, ran, same⟩ := taken
        cases same
        exact .inl ⟨index, claims, now, rfl, .executed found ran⟩
      · cases taken
  | signInFetched index claims now =>
      simp only [Device.act, Option.bind_eq_bind, Option.bind_eq_some_iff] at taken
      obtain ⟨signIn, found, taken⟩ := taken
      split at taken
      · simp only [Option.bind_eq_some_iff] at taken
        obtain ⟨wraps, answered, later, moved, same⟩ := taken
        cases same
        exact .inr (.inl ⟨index, claims, now, rfl, .answered found answered moved⟩)
      · cases taken
  | page event =>
      refine .inr (.inr ⟨rfl, ?_⟩)
      simp only [Device.act, Option.bind_eq_bind] at taken
      split at taken
      · next permitted =>
          obtain ⟨page, stepped, same⟩ := Option.bind_eq_some_iff.mp taken
          cases same
          exact .page permitted stepped
      · cases taken
  | goTo day =>
      cases taken
      exact .inr (.inr ⟨rfl, .quiet (.inl rfl) rfl rfl⟩)
  | load =>
      refine .inr (.inr ⟨rfl, ?_⟩)
      simp only [Device.act] at taken
      split at taken
      · cases taken
      · cases taken
        exact .quiet (.inl rfl) rfl rfl
  | set text =>
      cases taken
      exact .inr (.inr ⟨rfl, .set text⟩)
  | sealed index nonce =>
      refine .inr (.inr ⟨rfl, ?_⟩)
      simp only [Device.act, Option.bind_eq_bind, Option.bind_eq_some_iff] at taken
      obtain ⟨write, found, task, moved, same⟩ := taken
      cases same
      exact .moved found (.inl ⟨nonce, moved⟩)
  | sealFailed index =>
      refine .inr (.inr ⟨rfl, ?_⟩)
      simp only [Device.act, Option.bind_eq_bind, Option.bind_eq_some_iff] at taken
      obtain ⟨write, found, task, moved, same⟩ := taken
      cases same
      exact .moved found (.inr moved)
  | sent purpose =>
      refine .inr (.inr ⟨rfl, ?_⟩)
      simp only [Device.act] at taken
      split at taken
      · cases taken
        exact .quiet (.inl rfl) rfl rfl
      · cases taken
  | statusExecuted probe claims now =>
      refine .inr (.inr ⟨rfl, ?_⟩)
      simp only [Device.act, Option.bind_eq_bind] at taken
      split at taken
      · obtain ⟨status, -, same⟩ := Option.bind_eq_some_iff.mp taken
        cases same
        exact .quiet (.inl rfl) rfl rfl
      · cases taken
  | passkeyUsed ceremony claims now credentialId =>
      refine .inr (.inr ⟨rfl, ?_⟩)
      simp only [Device.act] at taken
      split at taken
      · next user forgets suspended =>
          split at taken
          · simp only [Option.bind_eq_bind, Option.bind_eq_some_iff] at taken
            obtain ⟨wraps, answered, key, opens, page, taken, same⟩ := taken
            cases same
            exact .opened suspended answered opens taken
          · cases taken
      · cases taken
  | loadExecuted index claims now =>
      refine .inr (.inr ⟨rfl, ?_⟩)
      simp only [Device.act, Option.bind_eq_bind, Option.bind_eq_some_iff] at taken
      obtain ⟨load, -, taken⟩ := taken
      split at taken
      · obtain ⟨task, -, same⟩ := Option.bind_eq_some_iff.mp taken
        cases same
        exact .quiet (.inl rfl) rfl rfl
      · cases taken
  | loadAnswered index raw =>
      refine .inr (.inr ⟨rfl, ?_⟩)
      simp only [Device.act, Option.bind_eq_bind, Option.bind_eq_some_iff] at taken
      obtain ⟨load, -, taken⟩ := taken
      split at taken
      · obtain ⟨task, -, same⟩ := Option.bind_eq_some_iff.mp taken
        cases same
        exact .quiet (.inl rfl) rfl rfl
      · cases taken
  | rowOpened index =>
      refine .inr (.inr ⟨rfl, ?_⟩)
      simp only [Device.act, Option.bind_eq_bind, Option.bind_eq_some_iff] at taken
      obtain ⟨load, -, task, -, same⟩ := taken
      cases same
      exact .quiet (.inl rfl) rfl rfl
  | published index =>
      refine .inr (.inr ⟨rfl, ?_⟩)
      simp only [Device.act, Option.bind_eq_bind, Option.bind_eq_some_iff] at taken
      obtain ⟨load, -, taken⟩ := taken
      split at taken
      · next read resolved =>
          cases taken
          exact .quiet (publish_page index load read) rfl rfl
      · cases taken
  | signedIn claims credentialId =>
      refine .inr (.inr ⟨rfl, ?_⟩)
      simp only [Device.act] at taken
      split at taken
      · cases taken
        exact .signedIn claims credentialId
      · cases taken
  | signInNamed index claims now =>
      refine .inr (.inr ⟨rfl, ?_⟩)
      simp only [Device.act, Option.bind_eq_bind, Option.bind_eq_some_iff] at taken
      obtain ⟨signIn, found, taken⟩ := taken
      split at taken
      · simp only [Option.bind_eq_some_iff] at taken
        obtain ⟨session, -, later, moved, same⟩ := taken
        cases same
        refine .unlocking found fun key holds => ?_
        rw [sessionAnswered_key moved] at holds
        cases holds
      · cases taken
  | signInChecked index claims now =>
      refine .inr (.inr ⟨rfl, ?_⟩)
      simp only [Device.act, Option.bind_eq_bind, Option.bind_eq_some_iff] at taken
      obtain ⟨signIn, found, taken⟩ := taken
      split at taken
      · simp only [Option.bind_eq_some_iff] at taken
        obtain ⟨status, -, later, moved, same⟩ := taken
        cases same
        refine .unlocking found fun key holds => ?_
        rw [statusAnswered_key moved] at holds
        cases holds
      · cases taken
  | signInRemembers index =>
      refine .inr (.inr ⟨rfl, ?_⟩)
      simp only [Device.act, Option.bind_eq_bind, Option.bind_eq_some_iff] at taken
      obtain ⟨signIn, found, later, moved, same⟩ := taken
      cases same
      exact .unlocking found fun key holds => remember_key moved holds
  | signInPut index =>
      refine .inr (.inr ⟨rfl, ?_⟩)
      simp only [Device.act, Option.bind_eq_bind, Option.bind_eq_some_iff] at taken
      obtain ⟨signIn, found, ⟨later, record⟩, put, same⟩ := taken
      cases same
      exact .filed found put
  | signInFailed index =>
      refine .inr (.inr ⟨rfl, ?_⟩)
      simp only [Device.act, Option.bind_eq_bind, Option.bind_eq_some_iff] at taken
      obtain ⟨signIn, found, later, moved, same⟩ := taken
      cases same
      refine .unlocking found fun key holds => ?_
      rw [failed_key moved] at holds
      cases holds

end Steps

end TimeTracker.Client.Tabs
