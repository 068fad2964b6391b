import TimeTracker.Client.Calls

/-!
# The ceremonies

What runs when encryption is turned on, a passkey is given a key, the encryption
key is issued anew, or a device is unlocked: each of them awaits the server, the
authenticator, WebCrypto and the user, in the order the page does.  What the user
and the authenticator answer, and what is drawn at random, are arguments.
-/

namespace TimeTracker.Client.Flow

open TimeTracker.Text
open TimeTracker.Library
open TimeTracker.Library.Atomic
open TimeTracker.Library.Rely
open TimeTracker.Crypto.Wire
open TimeTracker.Crypto.EncryptionKey
open TimeTracker.Crypto.Ceremony
open TimeTracker.Server.Schema
open TimeTracker.Server.Store
open TimeTracker.Server.Ceremony
open TimeTracker.Server.Functions
open TimeTracker.Tab.State
open TimeTracker.Tab.System
open TimeTracker.Client.Session
open TimeTracker.Client.Calls

/-- What the ceremonies are built on: WebCrypto, the JSON and base64url libraries,
the server's WebAuthn, and the PRF output of each credential. -/
structure Browser (D : Type) where
  suite : KeySuite D
  json : Json.Text
  base64url : Base64.Codec
  wa : Webauthn
  prf : Bytes → Bytes

/-- A ceremony in progress, which may end in a message for the user. -/
abbrev Ceremony (D : Type) := Attempt (World D) Await Fault String

section Ceremonies

variable {D : Type} (browser : Browser D)

/-- Await something that always has this effect on the world when it happens. -/
def awaiting (await : Await) (change : World D → World D) :
    Program (World D) Await Fault (Except Fault Unit) :=
  Program.perform await fun world => .ok ((), change world)

/-- Await a computation of WebCrypto, which the browser may refuse. -/
def webCrypto {α : Type} (computed : Except UnlockError α) :
    Program (World D) Await Fault (Except UnlockError α) := do
  let finished ← awaiting .webCrypto id
  match finished with
  | .ok () => return computed
  | .error fault => return .error (.crypto (.rejected fault.text))

/-- The value, or the message the ceremony ends with. -/
def orMessage {α : Type} (message : String) : Option α → Ceremony D α
  | some value => return value
  | none => throw message

/-! ## Asserting a passkey -/

/-- Pulls the credential id back out of a WebAuthn response. -/
def credentialIdFromResponse (responseJson : String) : Option Bytes := do
  let value ← browser.json.read responseJson
  let rawId ← (← value.last? "rawId").string?
  browser.base64url.decode rawId

/-- Which credential answered, and its PRF output. -/
structure PrfAssertion where
  credentialId : Bytes
  prfOutput : Bytes
  deriving DecidableEq, Repr

/-- Why an assertion did not yield usable key material. -/
inductive AssertionError
  | ceremony (message : String)
  | noPrf
  | unidentified
  deriving DecidableEq, Repr

/-- What the authenticator answers a challenge with, under the ceremony cookie it
is sent back with.  A credential has one PRF output. -/
structure Answer where
  passkeyState : String
  responseJson : String
  prfOutput : Option Bytes
  fixed : ∀ credentialId output,
    credentialIdFromResponse browser responseJson = some credentialId →
    prfOutput = some output → output = browser.prf credentialId

/-- Runs a passkey assertion with the PRF extension evaluated. -/
def assertWithPrf (user : String) (answer : Answer browser) :
    Attempt (World D) Await Fault AssertionError PrfAssertion := do
  let ceremony := fun raw => AssertionError.ceremony (friendlyError raw)
  orGiveUp (fun fault : Fault => ceremony fault.text) (awaiting (.challenge user) id)
  orGiveUp (fun fault : Fault => ceremony fault.text) (awaiting .authenticator id)
  let _ ← orGiveUp (fun error : CallError => ceremony error.toText)
    (call .loginFinish none (some answer.passkeyState) fun ctx =>
      passkeyLoginFinish browser.wa ctx answer.responseJson)
  match answer.prfOutput with
  | none => throw .noPrf
  | some prfOutput =>
      match credentialIdFromResponse browser answer.responseJson with
      | none => throw .unidentified
      | some credentialId => return { credentialId, prfOutput }

/-- An assertion failure, for a caller with no encryption key to point at. -/
def assertionMessage : AssertionError → String
  | .ceremony message => message
  | .noPrf =>
      "That passkey's authenticator didn't produce an unlock key on this browser. Try another passkey."
  | .unidentified =>
      "That passkey didn't identify itself to this browser, so there's no way to tell which key it holds."

/-! ## Giving a passkey a key -/

/-- Which secret a ceremony will open the account's data key with. -/
inductive KeySource
  | passkey
  | encryptionKey (key : String)
  deriving DecidableEq, Repr

/-- What a failed re-wrap means, which depends on the secret that was meant to
open the key. -/
def rewrapFailed : Opener → UnlockError → String
  | .encryptionKey _ _, .malformed _ =>
      "That doesn't look like an encryption key, so nothing was changed."
  | .encryptionKey _ _, .crypto _ =>
      "That encryption key didn't open your entries, so that passkey was left as it was. Check the key and try again."
  | .passkey _ _, _ => "Couldn't derive an unlock key for that passkey."

/-- Opens the route `source` names, ready to be re-wrapped under a new one. -/
def openExistingRoute (user : String) (source : KeySource) (answer : Answer browser)
    (wraps : List WrapDto) : Ceremony D Opener :=
  match source with
  | .passkey => do
      let existing ← orGiveUp assertionMessage (assertWithPrf browser user answer).run
      let route ← orMessage
        "That passkey can't open your entries, so it has no key to hand on. Choose one that already can."
        (chooseRoute wraps (some existing.credentialId))
      return .passkey existing.prfOutput route.wrappedKey
  | .encryptionKey key => do
      let route ← orMessage
        "This account has no encryption key on file, so there's nothing left to open your entries with."
        (chooseRoute wraps none)
      return .encryptionKey key route.wrappedKey

/-- Refuses an assertion that did not come from the credential this step is for. -/
def mustBeTarget (answered target : Bytes) : Except String Unit :=
  if answered = target then .ok ()
  else .error
    "That wasn't the passkey this step is for. Start again and choose it when your browser asks for it."

/-- Gives `target` its own route to the account's data key. -/
def addPasskeyKey (user : String) (target : Bytes) (source : KeySource)
    (opening adding : Answer browser) : Ceremony D Unit := do
  let (wraps, claims) ← orGiveUp serverUnreachable (call .wraps none none encryptionWraps)
  if (chooseRoute wraps (some target)).isSome then
    throw "That passkey can already open your entries."
  let existing ← openExistingRoute browser user source opening wraps
  let fresh ← orGiveUp assertionMessage (assertWithPrf browser user adding).run
  orGiveUp id (pure (mustBeTarget fresh.credentialId target))
  let wrapped ← orGiveUp (rewrapFailed existing)
    (webCrypto (addPasskeyRoute browser.suite existing fresh.prfOutput))
  let _ ← orGiveUp serverMessage (call .addPasskeyWrap (accountOf claims) none fun ctx =>
    encryptionAddPasskeyWrap ctx target wrapped)

/-! ## Issuing the encryption key anew -/

/-- What a caller must say when a re-issue may or may not have committed. -/
def REISSUE_UNCONFIRMED : String :=
  "We couldn't confirm the new encryption key was stored, and can't tell whether it replaced the old one — so don't rely on either. While you still have a passkey that works, go to your account page and generate a new encryption key."

/-- Stores a re-issued wrap, retrying once with the identical bytes. -/
def storeEncryptionKeyWrap (account : Option String) (wrappedKey : Bytes) :
    Program (World D) Await Fault (Except String Unit) := do
  let replace := call .replaceKeyWrap account none fun ctx =>
    encryptionReplaceKeyWrap ctx wrappedKey
  let first ← replace
  match first with
  | .ok _ => return .ok ()
  | .error _ => do
      let second ← replace
      match second with
      | .ok _ => return .ok ()
      | .error _ => return .error REISSUE_UNCONFIRMED

/-- Wraps the data key under a fresh encryption key and replaces the stored wrap,
returning the key to show once. -/
def reissue (account : Option String) (existing : Opener) (bytes : KeyBytes) :
    Ceremony D String := do
  let (newKey, newWrap) ← orGiveUp
    (fun _ => "Couldn't generate a new encryption key. Your current one still works.")
    (webCrypto (reissueEncryptionKey browser.suite existing bytes))
  orGiveUp id (storeEncryptionKeyWrap account newWrap)
  return newKey

/-- The re-issue run from the account page. -/
def reissueWith (user : String) (source : KeySource) (answer : Answer browser)
    (bytes : KeyBytes) : Ceremony D String := do
  let (wraps, claims) ← orGiveUp serverUnreachable (call .wraps none none encryptionWraps)
  let existing ← openExistingRoute browser user source answer wraps
  reissue browser (accountOf claims) existing bytes

/-- The key goes on screen, and stays there until the user has it. -/
def showKey (key : String) : Ceremony D Unit :=
  orGiveUp Fault.text (awaiting .keyScreen fun world => { world with shown := some key })

/-- The account page's "Generate a new key". -/
def newKey (user : String) (source : KeySource) (answer : Answer browser)
    (bytes : KeyBytes) : Ceremony D Unit := do
  let key ← reissueWith browser user source answer bytes
  showKey key

/-! ## Turning encryption on -/

/-- The enable ceremony, paused with the encryption key on screen. -/
structure PendingEnable (D : Type) where
  sessionKey : SessionKey D
  encryptionKey : String
  passkey : Option PasskeyWrapDto
  encryptionKeyWrap : Bytes

def KEY_GENERATION_FAILED : String :=
  "This browser couldn't generate the keys this needs."

/-- Everything turning encryption on does before the server hears about it. -/
def beginEnable (user : String) (forgets : Forgets) (draw : Draw D)
    (answer : Answer browser) : Ceremony D (PendingEnable D) := do
  let asserted ← orGiveUp assertionMessage (assertWithPrf browser user answer).run
  let enabled ← orGiveUp (fun _ => KEY_GENERATION_FAILED)
    (webCrypto (.ok (enable browser.suite draw asserted.prfOutput user forgets)))
  return {
    sessionKey := enabled.sessionKey
    encryptionKey := enabled.encryptionKey
    passkey := enabled.passkeyWrap.map fun wrappedKey =>
      { credentialId := asserted.credentialId, wrappedKey }
    encryptionKeyWrap := enabled.encryptionKeyWrap }

/-- The same pause, on the route with no passkey wrap at all. -/
def beginEnableEncryptionKeyOnly (user : String) (forgets : Forgets) (draw : Draw D) :
    Ceremony D (PendingEnable D) := do
  let enabled ← orGiveUp (fun _ => KEY_GENERATION_FAILED)
    (webCrypto (.ok (enableEncryptionKeyOnly browser.suite draw user forgets)))
  return {
    sessionKey := enabled.sessionKey
    encryptionKey := enabled.encryptionKey
    passkey := none
    encryptionKeyWrap := enabled.encryptionKeyWrap }

/-- What a failed enable call is reported as: a refusal rolled back, and anything
else may have committed. -/
def enableFailed (raw : String) : String :=
  match serverRefusal raw with
  | some said =>
      said ++ " Nothing was changed, so the key you just saved is not this account's key — reload this page to see where the account actually stands."
  | none =>
      friendlyError raw ++ " We couldn't confirm encryption was turned on. Reload this page and read this panel: if it says encryption is on, the key you just saved is the right one — keep it. If it still offers to turn encryption on, nothing was changed and you can try again."

/-- Run only once the user has confirmed they hold the key. -/
def commitEnable (pending : PendingEnable D) : Ceremony D (SessionKey D) := do
  let _ ← orGiveUp (fun error : CallError => enableFailed error.toText)
    (call .enable (some pending.sessionKey.user) none fun ctx =>
      encryptionEnable ctx pending.passkey pending.encryptionKeyWrap)
  return pending.sessionKey

/-- A key goes to its tab, by way of `EncryptionCtx::unlock`; a `remember` that is
refused is one that fails. -/
def handOver (key : SessionKey D) : Ceremony D Unit := do
  orGiveUp Fault.text (awaiting .handOver fun world =>
    { world with sessions := world.sessions ++ [key] })
  orGiveUp Fault.text (awaiting .remember fun world =>
    { world with keystore := some { user := key.user, key := key.key } })

/-- Turning encryption on, with a passkey if one answers and otherwise with the
encryption key as the only route. -/
def turnOn (user : String) (forgets : Forgets) (draw : Draw D)
    (route : Option (Answer browser)) : Ceremony D Unit := do
  let pending ← match route with
    | some answer => beginEnable browser user forgets draw answer
    | none => beginEnableEncryptionKeyOnly browser user forgets draw
  showKey pending.encryptionKey
  let key ← commitEnable pending
  handOver key

/-! ## Unlocking -/

/-- Unlocks with a passkey. -/
def unlockWithPasskey (user : String) (forgets : Forgets) (answer : Answer browser) :
    Ceremony D (SessionKey D) := do
  let (wraps, _) ← orGiveUp serverUnreachable
    (call .wraps (some user) none encryptionWraps)
  let assertion ← orGiveUp
    (fun
      | .ceremony message => message
      | .noPrf =>
          "That passkey didn't provide an unlock key on this browser. Try your encryption key instead."
      | .unidentified =>
          "That passkey didn't identify itself to this browser. Try your encryption key instead.")
    (assertWithPrf browser user answer).run
  let route ← orMessage
    "That passkey can't unlock this account. Try your encryption key instead."
    (chooseRoute wraps (some assertion.credentialId))
  orGiveUp (fun _ => "That passkey couldn't unlock this account.")
    (webCrypto (unlockWithPrf browser.suite assertion.prfOutput route.wrappedKey
      user forgets))

/-- Unlocks with a typed encryption key; the key and the wrap it opened come with
the data key. -/
def unlockWithTypedKey (typed user : String) (forgets : Forgets) :
    Ceremony D (SessionKey D × String × Bytes) := do
  let (wraps, _) ← orGiveUp serverUnreachable
    (call .wraps (some user) none encryptionWraps)
  let route ← orMessage "This account has no encryption key set up."
    (chooseRoute wraps none)
  let key ← orGiveUp
    (fun
      | .malformed _ => "That doesn't look like an encryption key."
      | .crypto _ => "That encryption key didn't work.")
    (webCrypto (unlockWithEncryptionKey browser.suite typed route.wrappedKey
      user forgets))
  return (key, typed, route.wrappedKey)

/-- The offer of a fresh key after a typed one: the user may try until it works,
or keep the current key. -/
def offerReissue (user : String) (existing : Opener) :
    List KeyBytes → Program (World D) Await Fault (Except String Unit)
  | [] => return .ok ()
  | bytes :: later => do
      let outcome ← (reissue browser (some user) existing bytes).run
      match outcome with
      | .ok newKey => (showKey newKey).run
      | .error _ => offerReissue user existing later

/-- The unlock prompt's passkey route. -/
def usePasskey (user : String) (forgets : Forgets) (answer : Answer browser) :
    Ceremony D Unit := do
  let key ← unlockWithPasskey browser user forgets answer
  handOver key

/-- The unlock prompt's typed route. -/
def submitKey (typed user : String) (forgets : Forgets) (offers : List KeyBytes) :
    Ceremony D Unit := do
  let (key, oldKey, oldWrap) ← unlockWithTypedKey browser typed user forgets
  orGiveUp id (offerReissue browser user (.encryptionKey oldKey oldWrap) offers)
  handOver key

/-- Picks the key back up from the keystore, if its record is this account's. -/
def restore (user : String) (forgets : Forgets) : Ceremony D Unit := do
  let record ← orGiveUp Fault.text
    (Program.perform .restore fun world => .ok (world.keystore, world))
  match record with
  | none => return ()
  | some record =>
      if record.user = user then
        orGiveUp Fault.text (awaiting .handOver fun world => { world with
          sessions := world.sessions ++ [{ key := record.key, user, forgets }] })
      else return ()

end Ceremonies

end TimeTracker.Client.Flow
