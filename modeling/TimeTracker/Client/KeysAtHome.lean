import TimeTracker.Client.Flow
import TimeTracker.Client.DataKeys
import TimeTracker.Server.SingleUse

/-!
# Keys stay with their account

Every ceremony names its account by the tab it runs in, and every request is
executed for the account of the session cookie.  As long as the two agree where a
ceremony relies on it, every wrap the server stores, every data key a tab holds
and the keystore's record belong to the account they are filed under, however the
ceremonies and everything else on the device are interleaved.
-/

namespace TimeTracker.Client.KeysAtHome

open TimeTracker.Text
open TimeTracker.Library
open TimeTracker.Library.KeyWrap
open TimeTracker.Library.Atomic
open TimeTracker.Library.Rely
open TimeTracker.Library.Run
open TimeTracker.Crypto.Wire
open TimeTracker.Crypto.EncryptionKey
open TimeTracker.Crypto.Ceremony
open TimeTracker.Server.Schema
open TimeTracker.Server.Store
open TimeTracker.Server.Ceremony
open TimeTracker.Server.Functions
open TimeTracker.Server.Outcomes
open TimeTracker.Server.Interference
open TimeTracker.Server.SingleUse (plainCeremonies)
open TimeTracker.Tab.State
open TimeTracker.Tab.System
open TimeTracker.Client.Session
open TimeTracker.Client.Calls
open TimeTracker.Client.Flow
open TimeTracker.Client.DataKeys

/-! ## What the device and the server keep to -/

section Homes

variable {D : Type} (suite : KeySuite D) (owner : D → String)

/-- Every wrap, every data key in use and the keystore's record are filed under
the account whose data key they hold. -/
structure Home (world : World D) : Prop where
  sound : Sound suite owner world.db
  sessions : ∀ key ∈ world.sessions, KeyOf suite world.db key.user key.key
  keystore : ∀ record, world.keystore = some record →
    KeyOf suite world.db record.user record.key

/-- What every step makes of a world whose keys are at home. -/
def Stays (before after : World D) : Prop :=
  Home suite owner after ∧ Grows suite before.db after.db

variable {suite owner} {first second third world later : World D}

theorem Stays.trans (left : Stays suite owner first second)
    (right : Stays suite owner second third) : Stays suite owner first third :=
  ⟨right.1, left.2.trans right.2⟩

theorem Stays.here (stays : Stays suite owner first second) :
    Stays suite owner second second :=
  ⟨stays.1, .refl _⟩

/-- A step of the server. -/
theorem Home.set (home : Home suite owner world) {db : Database}
    (kept : Keeps suite owner world.db db) :
    Stays suite owner world { world with db } := by
  refine ⟨⟨kept.1, ?_, ?_⟩, kept.2⟩
  · exact fun key member => kept.2.keys _ _ (home.sessions key member)
  · exact fun record filed => kept.2.keys _ _ (home.keystore record filed)

/-- A step that leaves the database and everything that holds a key alone. -/
theorem Home.same (home : Home suite owner world) (db : later.db = world.db)
    (sessions : later.sessions = world.sessions)
    (keystore : later.keystore = world.keystore) : Stays suite owner world later := by
  refine ⟨⟨?_, ?_, ?_⟩, ?_⟩
  · rw [db]
    exact home.sound
  · rw [db, sessions]
    exact home.sessions
  · rw [db, keystore]
    exact home.keystore
  · rw [db]
    exact .refl _

end Homes

/-- A request a ceremony builds on is sent under a session of the account it was
built for, or under no session at all. -/
def InAccount {D : Type} : Await → World D → Prop
  | .send _ (some account), world => Names account world.cookie
  | _, _ => True

instance {D : Type} (await : Await) (world : World D) : Decidable (InAccount await world) :=
  match await with
  | .send _ (some account) => inferInstanceAs (Decidable (Names account world.cookie))
  | .send _ none | .server _ | .receive _ | .challenge _ | .authenticator | .webCrypto
  | .keyScreen | .handOver | .remember | .restore | .elsewhere => isTrue trivial

section Steps

variable {D : Type} {suite : KeySuite D} {owner : D → String} {α : Type}
  {world : World D}

/-- Under interference that keeps keys at home, the program keeps them there and
ends in `post`. -/
abbrev Meets (suite : KeySuite D) (owner : D → String) (post : α → World D → Prop)
    (program : Program (World D) Await Fault α) (world : World D) : Prop :=
  Obeys (.when InAccount) (Stays suite owner) (fun _ => Stays suite owner) post
    program world

theorem meets_awaiting {await : Await} {change : World D → World D}
    {post : Except Fault Unit → World D → Prop}
    (kept : ∀ later, Stays suite owner world later → Stays suite owner later (change later))
    (next : ∀ later result, Stays suite owner world later → post result later) :
    Meets suite owner post (awaiting await change) world := by
  apply obeys_perform
  · exact fun later grown _ => kept later grown
  · intro later value changed grown _ ran
    cases ran
    exact next _ _ (grown.trans (kept later grown))
  · exact fun later failure grown => next later _ grown

theorem meets_webCrypto {computed : Except UnlockError α}
    {post : Except UnlockError α → World D → Prop}
    (next : ∀ later, Stays suite owner world later → post computed later)
    (refused : ∀ later error, Stays suite owner world later → post (.error error) later) :
    Meets suite owner post (webCrypto computed) world := by
  refine obeys_bind (meets_awaiting (fun later grown => grown.here) ?_)
  rintro later (fault | _) grown
  · exact refused later _ grown
  · exact next later grown

/-- A call that keeps the data keys, whoever it is executed for if it names no
account and otherwise for the account it names. -/
theorem meets_call {endpoint : Endpoint} {account passkeyState : Option String}
    {handler : AppCtx → Handler α}
    (promise : Option SessionClaims → α → Database → Prop)
    {post : Except CallError (α × Option SessionClaims) → World D → Prop}
    (stable : ∀ claims value before after, promise claims value before →
      Grows suite before after → promise claims value after)
    (keeps : ∀ ctx db, Sound suite owner db → Grows suite world.db db →
      (∀ name, account = some name → Names name ctx.claims) →
      KeepsKeys suite owner (promise ctx.claims) (handler ctx) db)
    (answered : ∀ later value claims, Stays suite owner world later →
      promise claims value later.db → post (.ok (value, claims)) later)
    (failed : ∀ later error, Stays suite owner world later → post (.error error) later) :
    Meets suite owner post (call endpoint account passkeyState handler) world := by
  apply obeys_call
  · exact fun later text grown => failed later _ grown
  intro sent grown meets
  refine ⟨grown.here, ?_⟩
  have names : ∀ name, account = some name → Names name sent.cookie := by
    rintro name rfl
    exact meets
  have executed : KeepsKeys suite owner (promise sent.cookie)
      (handler (sent.request passkeyState)) ((dbPart D).get sent) :=
    keeps (sent.request passkeyState) sent.db grown.1.sound grown.2 names
  refine Obeys.mono ?_ (obeys_zoom ?_ ?_ grown executed)
  · rintro ⟨reply, header⟩ after ⟨promised, grown'⟩ later grown''
    have arrived : Stays suite owner later (later.arrive header) :=
      grown''.1.same rfl rfl rfl
    refine ⟨fun _ => ⟨arrived, ?_⟩, fun _ text => failed later _ (grown'.trans grown'')⟩
    cases reply with
    | error message => exact failed _ _ ((grown'.trans grown'').trans arrived)
    | ok value =>
        apply answered _ value sent.cookie ((grown'.trans grown'').trans arrived)
        exact stable _ value _ _ (promised value rfl) (grown''.trans arrived).2
  · intro before after framed kept
    exact ⟨⟨kept.1.sound, kept.2⟩, framed.trans kept⟩
  · intro label before after framed kept
    have stays := framed.1.set kept
    exact ⟨stays, framed.trans stays⟩

end Steps

/-! ## The ceremonies -/

section Ceremonies

variable {D : Type} {browser : Browser D} {owner : D → String} {world : World D}
  {user : String}

/-- An assertion only refreshes the session. -/
theorem meets_assertWithPrf {answer : Answer browser}
    {post : Except AssertionError PrfAssertion → World D → Prop}
    (next : ∀ later result, Stays browser.suite owner world later → post result later) :
    Meets browser.suite owner post (assertWithPrf browser user answer).run world := by
  refine obeys_attempt_bind (obeys_orGiveUp (meets_awaiting (fun _ grown => grown.here) ?_))
  rintro first (fault | _) grown
  · exact next first _ grown
  refine obeys_attempt_bind (obeys_orGiveUp (meets_awaiting (fun _ grown => grown.here) ?_))
  rintro second (fault | _) grown'
  · exact next second _ (grown.trans grown')
  replace grown := grown.trans grown'
  refine obeys_attempt_bind (obeys_orGiveUp (meets_call
    (fun _ _ _ => True) (fun _ _ _ _ _ _ => trivial) ?_ ?_ ?_))
  · exact fun ctx db sound _ _ => keepsKeys_passkeyLoginFinish sound
  · intro third _ _ grown' _
    replace grown := grown.trans grown'
    cases answer.prfOutput with
    | none => exact obeys_attempt_throw (next third _ grown)
    | some prfOutput =>
        cases credentialIdFromResponse browser answer.responseJson with
        | none => exact obeys_attempt_throw (next third _ grown)
        | some credentialId => exact obeys_attempt_pure (next third _ grown)
  · exact fun third error grown' => next third _ (grown.trans grown')

/-- The wraps of the session's account, which is the one the request names, if it
names any. -/
theorem meets_wraps {account : Option String}
    {post : Except CallError (List WrapDto × Option SessionClaims) → World D → Prop}
    (answered : ∀ later wraps claims, Stays browser.suite owner world later →
      (∀ name, account = some name → Names name claims) →
      (∀ dto ∈ wraps, HoldsKey browser.suite claims dto.wrappedKey later.db) →
      post (.ok (wraps, claims)) later)
    (failed : ∀ later error, Stays browser.suite owner world later →
      post (.error error) later) :
    Meets browser.suite owner post (call .wraps account none encryptionWraps) world := by
  apply meets_call fun claims wraps db => (∀ name, account = some name → Names name claims) ∧
    ∀ dto ∈ wraps, HoldsKey browser.suite claims dto.wrappedKey db
  · exact fun claims wraps before after ⟨names, holds⟩ grown =>
      ⟨names, fun dto listed => (holds dto listed).grows grown⟩
  · intro ctx db sound grown names
    apply Obeys.mono _ (keepsKeys_encryptionWraps sound)
    exact fun reply next holds wraps ok => ⟨names, holds wraps ok⟩
  · rintro later wraps claims grown ⟨names, holds⟩
    exact answered later wraps claims grown names holds
  · exact failed

theorem wrappedKey_of_chooseRoute {wraps : List WrapDto} {credentialId : Option Bytes}
    {route : WrapRoute} (chosen : chooseRoute wraps credentialId = some route) :
    ∃ dto ∈ wraps, dto.wrappedKey = route.wrappedKey := by
  obtain ⟨dto, listed, offers⟩ := chooseRoute_eq_some chosen
  exact ⟨dto, listed, (routeOf_eq_some.mp offers).2.2.2.2.symm⟩

theorem meets_orMessage {α : Type} {message : String} {option : Option α}
    {post : Except String α → World D → Prop}
    (found : ∀ value, option = some value → post (.ok value) world)
    (missing : option = none → post (.error message) world) :
    Meets browser.suite owner post (orMessage message option : Ceremony D α).run world := by
  cases option with
  | none => exact missing rfl
  | some value => exact found value rfl

/-- The opener a ceremony is handed holds one of the wraps it was offered. -/
theorem meets_openExistingRoute {source : KeySource} {answer : Answer browser}
    {wraps : List WrapDto} {post : Except String Opener → World D → Prop}
    (opened : ∀ later existing, Stays browser.suite owner world later →
      (∃ dto ∈ wraps, dto.wrappedKey = existing.wrap) → post (.ok existing) later)
    (failed : ∀ later message, Stays browser.suite owner world later →
      post (.error message) later) (home : Home browser.suite owner world) :
    Meets browser.suite owner post (openExistingRoute browser user source answer wraps).run
      world := by
  cases source with
  | passkey =>
      refine obeys_attempt_bind (obeys_orGiveUp (meets_assertWithPrf ?_))
      rintro later (error | existing) grown
      · exact failed later _ grown
      refine obeys_attempt_bind (meets_orMessage ?_ fun _ => failed later _ grown)
      exact fun route chosen =>
        obeys_attempt_pure (opened later _ grown (wrappedKey_of_chooseRoute chosen))
  | encryptionKey key =>
      have here : Stays browser.suite owner world world := ⟨home, .refl _⟩
      refine obeys_attempt_bind (meets_orMessage ?_ fun _ => failed world _ here)
      exact fun route chosen =>
        obeys_attempt_pure (opened world _ here (wrappedKey_of_chooseRoute chosen))

/-- Storing a re-issued wrap of the account's data key. -/
theorem meets_storeEncryptionKeyWrap {account : String} {wrapped : Bytes} {dek : D}
    {post : Except String Unit → World D → Prop}
    (key : KeyOf browser.suite world.db account dek)
    (holds : Wraps browser.suite dek wrapped)
    (next : ∀ later result, Stays browser.suite owner world later → post result later) :
    Meets browser.suite owner post (storeEncryptionKeyWrap (some account) wrapped)
      world := by
  have replaces : ∀ (here : World D) post', Stays browser.suite owner world here ∨ here = world →
      (∀ later result, Stays browser.suite owner here later → post' result later) →
      Meets browser.suite owner post' (call .replaceKeyWrap (some account) none fun ctx =>
        encryptionReplaceKeyWrap ctx wrapped) here := by
    intro here post' reached next'
    have key' : KeyOf browser.suite here.db account dek := by
      obtain grown | rfl := reached
      · exact grown.2.keys account dek key
      · exact key
    apply meets_call (fun _ _ _ => True) fun _ _ _ _ _ _ => trivial
    · intro ctx db sound grown names
      exact keepsKeys_encryptionReplaceKeyWrap sound (names account rfl)
        (grown.keys account dek key') holds
    · exact fun later _ claims grown _ => next' later _ grown
    · exact fun later error grown => next' later _ grown
  refine obeys_bind (replaces world _ (.inr rfl) ?_)
  rintro later (error | _) grown
  · refine obeys_bind (replaces later _ (.inl grown) ?_)
    rintro last (error | _) grown'
    · exact next last _ (grown.trans grown')
    · exact next last _ (grown.trans grown')
  · exact next later _ grown

/-- A re-issue for the account whose data key the opener's wrap holds. -/
theorem meets_reissue {account : String} {existing : Opener} {bytes : KeyBytes}
    {dek : D} {post : Except String String → World D → Prop}
    (key : KeyOf browser.suite world.db account dek)
    (holds : Wraps browser.suite dek existing.wrap)
    (next : ∀ later result, Stays browser.suite owner world later → post result later) :
    Meets browser.suite owner post (reissue browser (some account) existing bytes).run
      world := by
  refine obeys_attempt_bind (obeys_orGiveUp (meets_webCrypto ?_ ?_))
  · intro later grown
    cases reissued : reissueEncryptionKey browser.suite existing bytes with
    | error error => exact next later _ grown
    | ok pair =>
        obtain ⟨-, found, opens, locked⟩ := reissueEncryptionKey_eq_ok reissued
        have same : found = dek := opens.wraps.unique holds
        have holds' : Wraps browser.suite dek pair.2 := by
          rw [locked, same]
          exact wraps_lock ..
        refine obeys_attempt_bind (obeys_orGiveUp (meets_storeEncryptionKeyWrap
          (grown.2.keys account dek key) holds' ?_))
        rintro last (error | _) grown'
        · exact next last _ (grown.trans grown')
        · exact obeys_attempt_pure (next last _ (grown.trans grown'))
  · exact fun later error grown => next later _ grown

/-- The key a ceremony hands over, and the keystore's record of it. -/
theorem meets_handOver {key : SessionKey D} {post : Except String Unit → World D → Prop}
    (mine : KeyOf browser.suite world.db key.user key.key)
    (next : ∀ later result, Stays browser.suite owner world later → post result later) :
    Meets browser.suite owner post (handOver key).run world := by
  refine obeys_attempt_bind (obeys_orGiveUp (meets_awaiting ?_ ?_))
  · rintro later ⟨home, grown⟩
    refine ⟨⟨home.sound, ?_, home.keystore⟩, .refl _⟩
    intro other member
    obtain old | rfl := List.mem_append.mp member |>.imp_right List.mem_singleton.mp
    · exact home.sessions other old
    · exact grown.keys _ _ mine
  rintro later (fault | _) grown
  · exact next later _ grown
  refine obeys_orGiveUp (meets_awaiting ?_ ?_)
  · rintro last ⟨home, grown'⟩
    refine ⟨⟨home.sound, home.sessions, ?_⟩, .refl _⟩
    rintro record filed
    cases filed
    exact grown'.keys _ _ (grown.2.keys _ _ mine)
  · exact fun last result grown' => next last _ (grown.trans grown')

theorem meets_showKey {key : String} {post : Except String Unit → World D → Prop}
    (next : ∀ later result, Stays browser.suite owner world later → post result later) :
    Meets browser.suite owner post (showKey key : Ceremony D Unit).run world := by
  apply obeys_orGiveUp (meets_awaiting _ fun later result => next later _)
  exact fun later grown => grown.1.same rfl rfl rfl

/-- What every ceremony that ends is free to end in. -/
abbrev Ending {α : Type} : α → World D → Prop :=
  fun _ _ => True

theorem meets_addPasskeyKey {target : Bytes} {source : KeySource}
    {opening adding : Answer browser} :
    Meets browser.suite owner Ending
      (addPasskeyKey browser user target source opening adding).run world := by
  refine obeys_attempt_bind (obeys_orGiveUp (meets_wraps ?_ fun _ _ _ => trivial))
  intro first wraps claims grown names holds
  simp only [Except.mapError]
  split
  · exact obeys_attempt_bind (obeys_attempt_throw trivial)
  refine obeys_attempt_bind (meets_openExistingRoute ?_ (fun _ _ _ => trivial) grown.1)
  rintro second existing grown₂ ⟨dto, listed, same⟩
  refine obeys_attempt_bind (obeys_orGiveUp (meets_assertWithPrf ?_))
  rintro third (error | fresh) grown₃
  · exact trivial
  refine obeys_attempt_bind (obeys_orGiveUp ?_)
  cases mustBeTarget fresh.credentialId target with
  | error message => exact trivial
  | ok _ =>
      refine obeys_attempt_bind (obeys_orGiveUp (meets_webCrypto ?_ fun _ _ _ => trivial))
      intro fourth grown₄
      cases added : addPasskeyRoute browser.suite existing fresh.prfOutput with
      | error error => exact trivial
      | ok wrapped =>
          obtain ⟨account, dek, named, key, wraps⟩ :=
            (holds dto listed).grows ((grown₂.trans grown₃).trans grown₄).2
          obtain ⟨found, opens, rfl⟩ := addPasskeyRoute_eq_ok added
          have same : found = dek := opens.wraps.unique (same ▸ wraps)
          subst same
          rw [named]
          refine obeys_attempt_bind (obeys_orGiveUp (meets_call (fun _ _ _ => True)
            (fun _ _ _ _ _ _ => trivial) ?_ (fun _ _ _ _ _ => trivial) fun _ _ _ => trivial))
          intro ctx db sound grown₅ names
          exact keepsKeys_encryptionAddPasskeyWrap sound (names account rfl)
            (grown₅.keys account found key) (wraps_lock ..)

theorem meets_newKey {source : KeySource} {answer : Answer browser} {bytes : KeyBytes} :
    Meets browser.suite owner Ending (newKey browser user source answer bytes).run
      world := by
  refine obeys_attempt_bind (obeys_attempt_bind (obeys_orGiveUp
    (meets_wraps ?_ fun _ _ _ => trivial)))
  intro first wraps claims grown names holds
  refine obeys_attempt_bind (meets_openExistingRoute ?_ (fun _ _ _ => trivial) grown.1)
  rintro second existing grown₂ ⟨dto, listed, same⟩
  obtain ⟨account, dek, named, key, wraps⟩ := (holds dto listed).grows grown₂.2
  rw [named]
  refine meets_reissue key (same ▸ wraps) ?_
  rintro third (message | newKey) grown₃
  · exact trivial
  · exact meets_showKey fun _ _ _ => trivial

/-- The wraps an enable ceremony sends hold the data key it drew. -/
theorem meets_turnOn {forgets : Forgets} {draw : Draw D} {route : Option (Answer browser)}
    (mine : owner draw.dek = user) :
    Meets browser.suite owner Ending (turnOn browser user forgets draw route).run world := by
  -- once the pending enable is on screen, both routes go on alike
  have commits : ∀ (pending : PendingEnable D) (later : World D),
      pending.sessionKey = { key := draw.dek, user, forgets } →
      Wraps browser.suite draw.dek pending.encryptionKeyWrap →
      (∀ dto, pending.passkey = some dto → Wraps browser.suite draw.dek dto.wrappedKey) →
      Meets browser.suite owner Ending (do
        showKey pending.encryptionKey
        let key ← commitEnable pending
        handOver key : Ceremony D Unit).run later := by
    intro pending later session holdsKey holdsPasskey
    refine obeys_attempt_bind (meets_showKey ?_)
    rintro first (message | _) grown
    · exact trivial
    refine obeys_attempt_bind (obeys_attempt_bind (obeys_orGiveUp (meets_call
      (fun _ _ db => KeyOf browser.suite db user draw.dek) ?_ ?_ ?_ fun _ _ _ => trivial)))
    · exact fun _ _ _ _ key grown => grown.keys user draw.dek key
    · intro ctx db sound _ names
      refine keepsKeys_encryptionEnable sound (names user ?_) mine holdsKey holdsPasskey
      rw [session]
    · intro second _ _ grown key
      refine obeys_attempt_pure (meets_handOver ?_ fun _ _ _ => trivial)
      rw [session]
      exact key
  cases route with
  | some answer =>
      refine obeys_attempt_bind (obeys_attempt_bind (obeys_orGiveUp (meets_assertWithPrf ?_)))
      rintro first (error | asserted) grown
      · exact trivial
      refine obeys_attempt_bind (obeys_orGiveUp (meets_webCrypto ?_ fun _ _ _ => trivial))
      intro second grown'
      refine obeys_attempt_pure (commits _ second rfl (wraps_lock ..) ?_)
      rintro dto same
      cases same
      exact wraps_lock ..
  | none =>
      refine obeys_attempt_bind (obeys_attempt_bind (obeys_orGiveUp
        (meets_webCrypto ?_ fun _ _ _ => trivial)))
      intro first grown
      exact obeys_attempt_pure (commits _ first rfl (wraps_lock ..) nofun)

/-- A data key found in a wrap of the account the request named is that account's. -/
theorem keyOf_of_opens {claims : Option SessionClaims} {opener : Opener} {dek : D}
    {db : Database} (names : Names user claims)
    (holds : HoldsKey browser.suite claims opener.wrap db)
    (opens : Opens browser.suite opener dek) : KeyOf browser.suite db user dek := by
  obtain ⟨account, found, named, key, wraps⟩ := holds
  rw [← names.eq named, opens.wraps.unique wraps]
  exact key

/-- The unlock prompt's passkey route. -/
theorem meets_usePasskey {forgets : Forgets} {answer : Answer browser} :
    Meets browser.suite owner Ending (usePasskey browser user forgets answer).run
      world := by
  refine obeys_attempt_bind (obeys_attempt_bind (obeys_orGiveUp
    (meets_wraps ?_ fun _ _ _ => trivial)))
  intro first wraps claims grown names holds
  refine obeys_attempt_bind (obeys_orGiveUp (meets_assertWithPrf ?_))
  rintro second (error | assertion) grown₂
  · exact trivial
  refine obeys_attempt_bind (meets_orMessage ?_ fun _ => trivial)
  intro route chosen
  refine obeys_orGiveUp (meets_webCrypto ?_ fun _ _ _ => trivial)
  intro third grown₃
  cases unlocked : unlockWithPrf browser.suite assertion.prfOutput route.wrappedKey user
      forgets with
  | error error => exact trivial
  | ok key =>
      obtain ⟨named, opens⟩ := unlock_eq_ok unlocked
      obtain ⟨dto, listed, same⟩ := wrappedKey_of_chooseRoute chosen
      refine meets_handOver ?_ fun _ _ _ => trivial
      rw [named]
      refine keyOf_of_opens (names user rfl) ?_ opens
      exact same ▸ (holds dto listed).grows (grown₂.trans grown₃).2

/-- A declined or a repeated offer leaves the keys where they are. -/
theorem meets_offerReissue {existing : Opener} {dek : D}
    {post : Except String Unit → World D → Prop} (offers : List KeyBytes)
    (home : Home browser.suite owner world)
    (key : KeyOf browser.suite world.db user dek)
    (holds : Wraps browser.suite dek existing.wrap)
    (next : ∀ later result, Stays browser.suite owner world later → post result later) :
    Meets browser.suite owner post (offerReissue browser user existing offers) world := by
  induction offers generalizing world with
  | nil => exact next world _ ⟨home, .refl _⟩
  | cons bytes offers ih =>
      refine obeys_bind (meets_reissue key holds ?_)
      rintro later (message | newKey) grown
      · apply ih grown.1 (grown.2.keys user dek key)
        exact fun last result grown' => next last result (grown.trans grown')
      · exact meets_showKey fun last result grown' => next last result (grown.trans grown')

/-- The unlock prompt's typed route, with the offer of a fresh key. -/
theorem meets_submitKey {typed : String} {forgets : Forgets} {offers : List KeyBytes} :
    Meets browser.suite owner Ending (submitKey browser typed user forgets offers).run
      world := by
  refine obeys_attempt_bind (obeys_attempt_bind (obeys_orGiveUp
    (meets_wraps ?_ fun _ _ _ => trivial)))
  intro first wraps claims grown names holds
  refine obeys_attempt_bind (meets_orMessage ?_ fun _ => trivial)
  intro route chosen
  refine obeys_attempt_bind (obeys_orGiveUp (meets_webCrypto ?_ fun _ _ _ => trivial))
  intro second grown₂
  cases unlocked : unlockWithEncryptionKey browser.suite typed route.wrappedKey user
      forgets with
  | error error => exact trivial
  | ok key =>
      obtain ⟨named, opens⟩ := unlock_eq_ok unlocked
      obtain ⟨dto, listed, same⟩ := wrappedKey_of_chooseRoute chosen
      have mine : KeyOf browser.suite second.db user key.key := by
        refine keyOf_of_opens (names user rfl) ?_ opens
        exact same ▸ (holds dto listed).grows grown₂.2
      refine obeys_attempt_pure (obeys_attempt_bind (obeys_orGiveUp
        (meets_offerReissue offers grown₂.1 mine opens.wraps ?_)))
      rintro third (message | _) grown₃
      · exact trivial
      · refine meets_handOver ?_ fun _ _ _ => trivial
        rw [named]
        exact grown₃.2.keys user key.key mine

/-- A key from the keystore is the account's its record names. -/
theorem meets_restore {forgets : Forgets} :
    Meets browser.suite owner Ending (restore user forgets : Ceremony D Unit).run
      world := by
  refine obeys_attempt_bind (obeys_orGiveUp (obeys_perform ?_ ?_ fun _ _ _ => trivial))
  · exact fun later grown _ => grown.here
  rintro later found next grown - ran
  cases ran
  simp only [Except.mapError]
  cases filed : later.keystore with
  | none => exact trivial
  | some record =>
      dsimp only
      split
      · next same =>
          refine obeys_orGiveUp (meets_awaiting ?_ fun _ _ _ => trivial)
          rintro last ⟨home, grown'⟩
          refine ⟨⟨home.sound, ?_, home.keystore⟩, .refl _⟩
          intro key member
          obtain old | rfl := List.mem_append.mp member |>.imp_right List.mem_singleton.mp
          · exact home.sessions key old
          · exact same ▸ grown'.keys _ _ (grown.1.keystore record filed)
      · exact trivial

end Ceremonies

/-! ## Everything on the device -/

/-- What happens next to the ceremonies, at any moment. -/
inductive Elsewhere
  /-- A tab signs in, refreshes its session or signs out. -/
  | cookie (claims : Option SessionClaims)
  | clock (time : Timestamp)
  /-- The keystore is told to forget. -/
  | forget
  /-- An account is created at its first sign-in. -/
  | signUp (email : String)
  /-- An account is signed out everywhere. -/
  | revoke (userId : Int)

def Elsewhere.change {D : Type} (event : Elsewhere) (world : World D) : World D :=
  match event with
  | .cookie claims => { world with cookie := claims }
  | .clock time => { world with now := time }
  | .forget => { world with keystore := none }
  | .signUp email =>
      { world with db := effect (findOrCreate email world.now) world.db }
  | .revoke userId => { world with db := effect (bumpEpoch userId) world.db }

/-- What may be started on the device, by the tab of this user.  An enable ceremony
draws a data key of its own, which is what makes it its user's. -/
inductive Request {D : Type} (browser : Browser D) (owner : D → String)
  | turnOn (user : String) (forgets : Forgets) (draw : Draw D)
      (route : Option (Answer browser)) (mine : owner draw.dek = user)
  | addPasskeyKey (user : String) (target : Bytes) (source : KeySource)
      (opening adding : Answer browser)
  | newKey (user : String) (source : KeySource) (answer : Answer browser)
      (bytes : KeyBytes)
  | usePasskey (user : String) (forgets : Forgets) (answer : Answer browser)
  | submitKey (typed user : String) (forgets : Forgets) (offers : List KeyBytes)
  | restore (user : String) (forgets : Forgets)
  | passkeyRegisterFinish (passkeyState responseJson : String) (prfCapable : Bool)
  | passkeyDelete (id : Int)
  | elsewhere (event : Elsewhere)

section Device

variable {D : Type} {browser : Browser D} {owner : D → String}

/-- A ceremony whose outcome is only displayed. -/
def displayed {ε α : Type} (program : Program (World D) Await Fault (Except ε α)) :
    Program (World D) Await Fault Unit := do
  let _ ← program
  return ()

def serve : Request browser owner → Program (World D) Await Fault Unit
  | .turnOn user forgets draw route _ =>
      displayed (turnOn browser user forgets draw route).run
  | .addPasskeyKey user target source opening adding =>
      displayed (addPasskeyKey browser user target source opening adding).run
  | .newKey user source answer bytes =>
      displayed (newKey browser user source answer bytes).run
  | .usePasskey user forgets answer =>
      displayed (usePasskey browser user forgets answer).run
  | .submitKey typed user forgets offers =>
      displayed (submitKey browser typed user forgets offers).run
  | .restore user forgets => displayed (restore user forgets : Ceremony D Unit).run
  | .passkeyRegisterFinish passkeyState responseJson prfCapable =>
      displayed (call .other none (some passkeyState) fun ctx =>
        passkeyRegisterFinish browser.wa ctx responseJson prfCapable)
  | .passkeyDelete id => displayed (call .other none none fun ctx =>
      passkeyDelete ctx id)
  | .elsewhere event => displayed (awaiting .elsewhere event.change)

theorem stays_elsewhere {world : World D} (home : Home browser.suite owner world)
    (event : Elsewhere) : Stays browser.suite owner world (event.change world) := by
  cases event with
  | cookie claims => exact home.same rfl rfl rfl
  | clock time => exact home.same rfl rfl rfl
  | forget => exact ⟨⟨home.sound, home.sessions, nofun⟩, .refl _⟩
  | signUp email => exact home.set (keeps_findOrCreate home.sound email world.now)
  | revoke userId => exact home.set (keeps_bumpEpoch home.sound userId)

theorem preserves_displayed {ε α : Type} {world : World D}
    {program : Program (World D) Await Fault (Except ε α)}
    (meets : Meets browser.suite owner Ending program world) :
    Preserves InAccount (Stays browser.suite owner) (displayed program) world :=
  obeys_bind meets

/-- Whatever is started keeps the keys at home. -/
theorem preserves_serve (request : Request browser owner) {world : World D} :
    Preserves InAccount (Stays browser.suite owner) (serve request) world := by
  -- a call that builds on nothing and promises nothing
  have serves : ∀ (passkeyState : Option String) (handler : AppCtx → Handler Unit),
      (∀ ctx db, Sound browser.suite owner db →
        KeepsKeys browser.suite owner (fun _ _ => True) (handler ctx) db) →
      Meets browser.suite owner Ending (call .other none passkeyState handler) world := by
    intro passkeyState handler keeps
    apply meets_call (fun _ _ _ => True) fun _ _ _ _ _ _ => trivial
    · exact fun ctx db sound _ _ => keeps ctx db sound
    · exact fun _ _ _ _ _ => trivial
    · exact fun _ _ _ => trivial
  cases request with
  | turnOn user forgets draw route mine =>
      exact preserves_displayed (meets_turnOn mine)
  | addPasskeyKey user target source opening adding =>
      exact preserves_displayed meets_addPasskeyKey
  | newKey user source answer bytes => exact preserves_displayed meets_newKey
  | usePasskey user forgets answer => exact preserves_displayed meets_usePasskey
  | submitKey typed user forgets offers => exact preserves_displayed meets_submitKey
  | restore user forgets => exact preserves_displayed meets_restore
  | passkeyRegisterFinish passkeyState responseJson prfCapable =>
      exact preserves_displayed (serves _ _ fun ctx db => keepsKeys_passkeyRegisterFinish)
  | passkeyDelete id =>
      exact preserves_displayed (serves _ _ fun ctx db => keepsKeys_passkeyDelete)
  | elsewhere event =>
      apply preserves_displayed
      apply meets_awaiting _ fun _ _ _ => trivial
      exact fun later grown => stays_elsewhere grown.1 event

end Device

/-! ## Every key is filed under its account -/

section Runs

variable {D : Type} (browser : Browser D) (owner : D → String)

/-- Every wrap stored for an account holds the account's data key, and so does
every session key and every keystore record filed under it. -/
structure FiledUnder (suite : KeySuite D) (keyOf : String → Option D)
    (world : World D) : Prop where
  wraps : ∀ row ∈ world.db.wraps, ∀ user ∈ world.db.users, user.id = row.userId →
    ∃ dek, keyOf user.email = some dek ∧ Wraps suite dek row.wrappedKey
  sessions : ∀ key ∈ world.sessions, keyOf key.user = some key.key
  keystore : ∀ record, world.keystore = some record →
    keyOf record.user = some record.key

/-- From a fresh device on, accounts have data keys of their own, drawn by enable
ceremonies for them, under which everything is filed. -/
def KeysStayHome (moves : List (Move (Request browser owner) Fault)) : Prop :=
  ∃ keyOf : String → Option D,
    (∀ account dek, keyOf account = some dek → owner dek = account) ∧
    Throughout (Pool.step serve)
      (fun pool => FiledUnder browser.suite keyOf pool.store) ⟨World.initial D, []⟩ moves

theorem home_initial (suite : KeySuite D) : Home suite owner (World.initial D) where
  sound := {
    bare := nofun
    held := nofun
    owned := by
      rintro email dek ⟨user, member, -⟩
      cases member }
  sessions := nofun
  keystore := nofun

variable {owner}

theorem Home.filedUnder {suite : KeySuite D} {keyOf : String → Option D}
    {world : World D} (home : Home suite owner world)
    (named : ∀ account dek, KeyOf suite world.db account dek → keyOf account = some dek) :
    FiledUnder suite keyOf world where
  wraps row stored user member owns := by
    obtain ⟨-, dek, key, holds⟩ := home.sound.held row stored user member owns
    exact ⟨dek, named user.email dek key, holds⟩
  sessions key member := named _ _ (home.sessions key member)
  keystore record filed := named _ _ (home.keystore record filed)

/-- Keys stay with their account in every interleaving in which each request that
builds on what was done for an account is sent under a session of that account. -/
theorem keys_stay_home (moves : List (Move (Request browser owner) Fault))
    (meets : StepsMeet (Pool.step serve) (Pool.Executes InAccount)
      ⟨World.initial D, []⟩ moves) : KeysStayHome browser owner moves := by
  have start : Stays browser.suite owner (World.initial D) (World.initial D) :=
    ⟨home_initial owner browser.suite, .refl _⟩
  obtain ⟨last, always⟩ := pool_keeps (fun stays => stays.here)
    (fun first second => first.trans second) (fun request _ _ => preserves_serve request)
    start meets
  -- data keys are only ever added, so the last state knows them all
  have known : ∀ account, ∃ found : Option D, ∀ dek,
      KeyOf browser.suite last.db account dek ↔ found = some dek := by
    intro account
    by_cases keyed : ∃ dek, KeyOf browser.suite last.db account dek
    · obtain ⟨dek, key⟩ := keyed
      refine ⟨some dek, fun other => ⟨fun key' => congrArg some (key.unique key'), ?_⟩⟩
      exact fun same => Option.some.inj same ▸ key
    · refine ⟨none, fun other => ⟨fun key => absurd ⟨other, key⟩ keyed, nofun⟩⟩
  choose keyOf spec using known
  refine ⟨keyOf, ?_, ?_⟩
  · intro account dek same
    exact always.start.2.1.sound.owned account dek ((spec account dek).mpr same)
  · apply always.mono
    rintro pool ⟨reached, grows⟩
    apply reached.1.filedUnder
    exact fun account dek key => (spec account dek).mp (grows.2.keys account dek key)

end Runs

/-! ## A cookie replaced while the encryption key is on screen -/

/-- The credential id in a response, as `credential_id_from_response` reads it. -/
def spelledId (responseJson : String) : Option Bytes := do
  let value ← Json.compact.read responseJson
  let rawId ← (← value.last? "rawId").string?
  Base64.standard.decode rawId

/-- A server that takes a response for the credential it names.  Its ceremony cookies
ask for their subject; after a `+`, they enrol a passkey for it. -/
def plainServer : Webauthn :=
  { plainCeremonies.toWebauthn with
    RegisterResponse := Bytes
    LoginResponse := Bytes
    parseRegister := spelledId
    parseLogin := spelledId
    finishRegistration := fun credentialId _ => some credentialId
    finishAuthentication := fun credentialId _ => some credentialId
    identifyDiscoverable := some
    finishDiscoverable := fun credentialId _ _ => some credentialId
    parseState := fun
      | 43 :: subject => plainWebauthn.parseState subject
      | subject => plainCeremonies.parseState subject }

/-- A browser whose wraps spell their secrets out, and whose passkeys' PRF outputs
are their padded credential ids. -/
def plainBrowser : Browser UInt8 where
  suite := labelled (fun | .passkey => 0 | .encryptionKey => 1)
    (fun | .passkey => 6 | .encryptionKey => 18) (by
      intro kind other same
      cases kind <;> cases other <;> first | rfl | cases same)
  json := Json.compact
  base64url := Base64.standard
  wa := plainServer
  prf credentialId := (credentialId ++ List.replicate 32 0).take 32

/-- The response of a passkey. -/
def spelled (credentialId : Bytes) : String :=
  Json.compact.write [("rawId", .string (Base64.standard.encode credentialId))]

theorem credentialIdFromResponse_spelled (credentialId : Bytes) :
    credentialIdFromResponse plainBrowser (spelled credentialId) = some credentialId := by
  have read : plainBrowser.json.read (spelled credentialId) =
      some (.object [("rawId", .string (Base64.standard.encode credentialId))]) := by
    apply Json.compact.read_write
    intro member listed
    rw [List.mem_singleton.mp listed]
    trivial
  rw [credentialIdFromResponse, read]
  exact Base64.standard.decode_encode credentialId

/-- The cookie of a ceremony that asks for alice. -/
def aliceAsked : String := "alice@example.com--------------------------------"

/-- One of alice's passkeys answers a challenge made out to her. -/
def answers (credentialId : Bytes) : Answer plainBrowser where
  passkeyState := aliceAsked
  responseJson := spelled credentialId
  prfOutput := some (plainBrowser.prf credentialId)
  fixed := by
    rintro named output spells ⟨⟩
    rw [credentialIdFromResponse_spelled] at spells
    cases spells
    rfl

/-- Data key 1 is drawn for alice, and every other one for bob. -/
def drawnFor (dek : UInt8) : String :=
  if dek = 1 then "alice@example.com" else "bob@example.com"

/-- A tab of this browser signs in. -/
def signsIn (email : String) : Move (Request plainBrowser drawnFor) Fault :=
  .start (.elsewhere (.cookie (some { email, epoch := 0 })))

/-- Alice and bob sign up, and alice signs in. -/
def aliceSignedIn : List (Move (Request plainBrowser drawnFor) Fault) :=
  [.start (.elsewhere (.signUp "alice@example.com")), .advance 0,
    .start (.elsewhere (.signUp "bob@example.com")), .advance 1,
    signsIn "alice@example.com", .advance 2]

/-- She has her encryption key on screen. -/
def aliceReadsHerKey : List (Move (Request plainBrowser drawnFor) Fault) :=
  aliceSignedIn ++
    [.start (.turnOn "alice@example.com" 0 ⟨⟨List.replicate 20 7, rfl⟩, 1⟩ none rfl),
      .advance 3, .advance 3]

/-- Bob signs in in another tab. -/
def bobSignsIn : List (Move (Request plainBrowser drawnFor) Fault) :=
  [signsIn "bob@example.com", .advance 4]

/-- The enable ceremony is committed, and hands its key over. -/
def enableCommitted : List (Move (Request plainBrowser drawnFor) Fault) :=
  List.replicate 6 (.advance 3)

/-- The accounts and the wraps of a world, without their other columns. -/
def filing {D : Type} (world : World D) : List (Int × String) × List (Int × Bytes) :=
  (world.db.users.rows.map fun user => (user.id, user.email),
    world.db.wraps.rows.map fun row => (row.userId, row.wrappedKey))

/-- Bob's account is encrypted with the data key of alice's ceremony. -/
theorem bobSignsIn_crosses :
    ¬ KeysStayHome plainBrowser drawnFor
      (aliceReadsHerKey ++ bobSignsIn ++ enableCommitted) := by
  rintro ⟨keyOf, owned, always⟩
  have ends : (runFrom (Pool.step serve) ⟨World.initial UInt8, []⟩
      (aliceReadsHerKey ++ bobSignsIn ++ enableCommitted)).map (fun pool => filing pool.store) =
      some ([(1, "alice@example.com"), (2, "bob@example.com")],
        [(2, lock plainBrowser.suite .encryptionKey (List.replicate 20 7) 1)]) := rfl
  obtain ⟨last, ran, same⟩ := Option.map_eq_some_iff.mp ends
  obtain ⟨users, wraps⟩ := Prod.mk.inj same
  rw [← List.append_nil (aliceReadsHerKey ++ bobSignsIn ++ enableCommitted)] at always
  have filed : FiledUnder plainBrowser.suite keyOf last.store := always.at_split ran
  obtain ⟨row, stored, named⟩ : ∃ row ∈ last.store.db.wraps,
      (row.userId, row.wrappedKey) = (2, _) :=
    List.mem_map.mp (wraps ▸ List.mem_singleton_self _)
  obtain ⟨bob, member, named'⟩ : ∃ user ∈ last.store.db.users,
      (user.id, user.email) = (2, "bob@example.com") :=
    List.mem_map.mp (users ▸ by decide)
  obtain ⟨owns, holds⟩ := Prod.mk.inj named
  obtain ⟨id, email⟩ := Prod.mk.inj named'
  obtain ⟨dek, key, wraps'⟩ := filed.wraps row stored bob member (id.trans owns.symm)
  have alices : dek = 1 := wraps'.unique (holds ▸ wraps_lock ..)
  have bobs : drawnFor 1 = "bob@example.com" := alices ▸ email ▸ owned bob.email dek key
  exact absurd bobs (by decide)

/-- Alice enrols a passkey, turns encryption on with it, and has her encryption key on
screen when bob signs in in another tab, where he turns encryption on as well.  She
signs in again before she goes on. -/
def bothTurnOn : List (Move (Request plainBrowser drawnFor) Fault) :=
  aliceSignedIn ++
    [.start (.passkeyRegisterFinish ("+" ++ aliceAsked) (spelled [112]) true)] ++
    List.replicate 4 (.advance 3) ++
    [.start (.turnOn "alice@example.com" 0 ⟨⟨List.replicate 20 7, rfl⟩, 1⟩
      (some (answers [112])) rfl)] ++
    List.replicate 10 (.advance 4) ++
    [signsIn "bob@example.com", .advance 5,
      .start (.turnOn "bob@example.com" 0 ⟨⟨List.replicate 20 5, rfl⟩, 2⟩ none rfl)] ++
    List.replicate 8 (.advance 6) ++
    [signsIn "alice@example.com", .advance 7] ++
    List.replicate 6 (.advance 4)

/-- Each of them ends up with wraps and a session key of their own. -/
theorem keys_stay_home_alice :
    (∃ last, runFrom (Pool.step serve) ⟨World.initial UInt8, []⟩ bothTurnOn = some last ∧
      last.store.sessions.map SessionKey.user = ["bob@example.com", "alice@example.com"] ∧
      (filing last.store).2 =
        [(2, lock plainBrowser.suite .encryptionKey (List.replicate 20 5) 2),
          (1, lock plainBrowser.suite .passkey (plainBrowser.prf [112]) 1),
          (1, lock plainBrowser.suite .encryptionKey (List.replicate 20 7) 1)]) ∧
    KeysStayHome plainBrowser drawnFor bothTurnOn := by
  constructor
  · have ends : (runFrom (Pool.step serve) ⟨World.initial UInt8, []⟩ bothTurnOn).map
        (fun pool => (pool.store.sessions.map SessionKey.user, (filing pool.store).2)) =
        some (["bob@example.com", "alice@example.com"],
          [(2, lock plainBrowser.suite .encryptionKey (List.replicate 20 5) 2),
            (1, lock plainBrowser.suite .passkey (plainBrowser.prf [112]) 1),
            (1, lock plainBrowser.suite .encryptionKey (List.replicate 20 7) 1)]) := by
      decide +kernel
    obtain ⟨last, ran, same⟩ := Option.map_eq_some_iff.mp ends
    obtain ⟨users, wraps⟩ := Prod.mk.inj same
    exact ⟨last, ran, users, wraps⟩
  · apply keys_stay_home plainBrowser
    decide +kernel

end TimeTracker.Client.KeysAtHome
