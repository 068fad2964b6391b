import TimeTracker.Crypto.EncryptionKey
import TimeTracker.Crypto.Subtle
import TimeTracker.Library.KeyWrap
import TimeTracker.Tab.State

/-!
# The ceremonies of the data key

Which stored wrap a secret is tried on, and the steps that create, open and
re-wrap an account's data key.  What the browser draws at random is an argument
here, and WebCrypto is an ideal suite of key derivation and key wrap.
-/

namespace TimeTracker.Crypto.Ceremony

open TimeTracker.Text
open TimeTracker.Library.KeyWrap
open TimeTracker.Crypto.Wire
open TimeTracker.Crypto.Subtle
open TimeTracker.Crypto.EncryptionKey
open TimeTracker.Server.Functions
open TimeTracker.Tab.State

/-- HKDF and AES-KW, on data keys of type `D`.  A route is derived under an `info` of its
own, for which its kind stands. -/
abbrev KeySuite (D : Type) := Suite WrapKind Bytes Bytes D

/-! ## Choosing a wrap -/

/-- The wrap this device is going to try to open. -/
structure WrapRoute where
  kind : WrapKind
  credentialId : Option Bytes
  wrappedKey : Bytes
  deriving DecidableEq, Repr

/-- Whether a row of this kind is the one asked for: a credential asks for its
own wrap, and the user who typed a key for the encryption key's. -/
def selected (kind : WrapKind) (credentialId : Option Bytes) (wrap : WrapDto) : Bool :=
  match kind, credentialId with
  | .passkey, some id => wrap.credentialId = some id
  | .encryptionKey, none => true
  | _, _ => false

/-- The route a row offers, if it is the one asked for and this build knows its
kind and its algorithms. -/
def routeOf (credentialId : Option Bytes) (wrap : WrapDto) : Option WrapRoute := do
  let kind ← WrapKind.parse wrap.kind
  if wrap.kdf ≠ KDF_HKDF_SHA256 ∨ wrap.wrapAlg ≠ WRAP_ALG_AESKW256 then none
  else if selected kind credentialId wrap then
    some { kind, credentialId := wrap.credentialId, wrappedKey := wrap.wrappedKey }
  else none

/-- Picks the wrap to open, given the credential that just asserted. -/
def chooseRoute (wraps : List WrapDto) (credentialId : Option Bytes) :
    Option WrapRoute :=
  wraps.findSome? (routeOf credentialId)

section Routes

variable {wraps : List WrapDto} {wrap : WrapDto} {credentialId : Option Bytes}
  {route : WrapRoute}

theorem routeOf_eq_some : routeOf credentialId wrap = some route ↔
    WrapKind.parse wrap.kind = some route.kind ∧
      (wrap.kdf = KDF_HKDF_SHA256 ∧ wrap.wrapAlg = WRAP_ALG_AESKW256) ∧
      selected route.kind credentialId wrap = true ∧
      route.credentialId = wrap.credentialId ∧ route.wrappedKey = wrap.wrappedKey := by
  unfold routeOf
  cases parsed : WrapKind.parse wrap.kind with
  | none => simp
  | some kind =>
      rw [Option.bind_eq_bind, Option.bind_some]
      split
      · next unknown =>
          simp only [reduceCtorEq, false_iff]
          rintro ⟨-, known, -⟩
          exact unknown.elim (· known.1) (· known.2)
      · next known =>
          have known' := not_or.mp known
          simp only [not_not] at known'
          cases route
          simp only [Option.some.injEq, WrapRoute.mk.injEq, Option.ite_none_right_eq_some]
          constructor
          · rintro ⟨asked, rfl, rfl, rfl⟩
            exact ⟨rfl, known', asked, rfl, rfl⟩
          · rintro ⟨rfl, -, asked, rfl, rfl⟩
            exact ⟨asked, rfl, rfl, rfl⟩

theorem chooseRoute_eq_some (chosen : chooseRoute wraps credentialId = some route) :
    ∃ wrap ∈ wraps, routeOf credentialId wrap = some route :=
  List.exists_of_findSome?_eq_some chosen

/-- The only row that offers a route is the one chosen. -/
theorem chooseRoute_of_unique (member : wrap ∈ wraps)
    (offers : routeOf credentialId wrap = some route)
    (unique : ∀ other ∈ wraps, ∀ found, routeOf credentialId other = some found →
      found = route) :
    chooseRoute wraps credentialId = some route := by
  cases chosen : chooseRoute wraps credentialId with
  | none =>
      have missing := List.findSome?_eq_none_iff.mp chosen wrap member
      rw [offers] at missing
      cases missing
  | some found =>
      obtain ⟨other, member', offers'⟩ := chooseRoute_eq_some chosen
      rw [unique other member' found offers']

end Routes

/-! ## Opening a wrap -/

/-- A stored wrap together with the secret that opens it. -/
inductive Opener
  /-- One credential's PRF output, against that credential's wrap. -/
  | passkey (prfOutput wrap : Bytes)
  /-- The encryption key as the user typed it, against the wrap it opens. -/
  | encryptionKey (key : String) (wrap : Bytes)
  deriving DecidableEq, Repr

/-- The wrapped data key this opener unwraps. -/
def Opener.wrap : Opener → Bytes
  | .passkey _ wrap => wrap
  | .encryptionKey _ wrap => wrap

/-- A ceremony that had to open an existing wrap did not get there. -/
inductive UnlockError
  | malformed (error : EncryptionKeyError)
  | crypto (error : CryptoError)
  deriving DecidableEq, Repr

section Ceremonies

variable {D : Type} (suite : KeySuite D)

/-- Derives the key-encryption key for one route from that route's secret. -/
def derive (kind : WrapKind) (ikm : Bytes) : suite.Kek :=
  suite.derive kind ikm

/-- Derives the key-encryption key that opens `opener`.  What the user typed is
normalized first. -/
def kekFor : Opener → Except UnlockError suite.Kek
  | .passkey prfOutput _ => .ok (derive suite .passkey prfOutput)
  | .encryptionKey key _ =>
      match normalize key with
      | .ok bytes => .ok (derive suite .encryptionKey bytes)
      | .error error => .error (.malformed error)

/-- `subtle::unwrap_dek_sealed` and `subtle::unwrap_dek_raw`. -/
def unwrapDek (wrapped : Bytes) (kek : suite.Kek) : Except UnlockError D :=
  match suite.unwrap kek wrapped with
  | some dek => .ok dek
  | none => .error (.crypto (.rejected "unwrapKey"))

/-- What one ceremony draws at random: the bytes of an encryption key, and a
data key. -/
structure Draw (D : Type) where
  keyBytes : KeyBytes
  dek : D

/-- A fresh encryption key and the bytes whose KEK wraps the data key. -/
def newEncryptionKey (bytes : KeyBytes) : String × Bytes :=
  (formatKey bytes, bytes.val)

/-- Everything the enable ceremony produced. -/
structure Enabled (D : Type) where
  sessionKey : SessionKey D
  /-- Shown once and never again. -/
  encryptionKey : String
  /-- Absent on the encryption-key-only route. -/
  passkeyWrap : Option Bytes
  encryptionKeyWrap : Bytes

/-- Generates the account's data key and wraps it under every route it is going
to have. -/
def enableWith (draw : Draw D) (prfOutput : Option Bytes) (user : String)
    (forgets : Forgets) : Enabled D :=
  let (encryptionKey, keyBytes) := newEncryptionKey draw.keyBytes
  { sessionKey := { key := draw.dek, user, forgets }
    encryptionKey
    passkeyWrap := prfOutput.map fun prfOutput =>
      suite.wrap (derive suite .passkey prfOutput) draw.dek
    encryptionKeyWrap := suite.wrap (derive suite .encryptionKey keyBytes) draw.dek }

/-- Turns encryption on for an account. -/
def enable (draw : Draw D) (prfOutput : Bytes) (user : String) (forgets : Forgets) :
    Enabled D :=
  enableWith suite draw (some prfOutput) user forgets

/-- Turns encryption on with the encryption key as the account's only route. -/
def enableEncryptionKeyOnly (draw : Draw D) (user : String) (forgets : Forgets) :
    Enabled D :=
  enableWith suite draw none user forgets

/-- Opens a wrap into a sealed key. -/
def unlock (opener : Opener) (user : String) (forgets : Forgets) :
    Except UnlockError (SessionKey D) := do
  let kek ← kekFor suite opener
  let key ← unwrapDek suite opener.wrap kek
  return { key, user, forgets }

/-- Unlocks with a passkey's PRF output. -/
def unlockWithPrf (prfOutput wrap : Bytes) (user : String) (forgets : Forgets) :
    Except UnlockError (SessionKey D) :=
  unlock suite (.passkey prfOutput wrap) user forgets

/-- Unlocks with a typed encryption key. -/
def unlockWithEncryptionKey (key : String) (wrap : Bytes) (user : String)
    (forgets : Forgets) : Except UnlockError (SessionKey D) :=
  unlock suite (.encryptionKey key wrap) user forgets

/-- Re-wraps the account's data key under a new key-encryption key. -/
def rewrap (existing : Opener) (newKind : WrapKind) (newIkm : Bytes) :
    Except UnlockError Bytes := do
  let existingKek ← kekFor suite existing
  let rawKey ← unwrapDek suite existing.wrap existingKek
  return suite.wrap (derive suite newKind newIkm) rawKey

/-- Wraps the data key under a newly enrolled passkey's KEK. -/
def addPasskeyRoute (existing : Opener) (newPrfOutput : Bytes) :
    Except UnlockError Bytes :=
  rewrap suite existing .passkey newPrfOutput

/-- Issues a fresh encryption key and wraps the data key under it. -/
def reissueEncryptionKey (existing : Opener) (bytes : KeyBytes) :
    Except UnlockError (String × Bytes) := do
  let (key, bytes) := newEncryptionKey bytes
  let wrap ← rewrap suite existing .encryptionKey bytes
  return (key, wrap)

/-! ## What the ceremonies compute -/

/-- The opener's secret opens its wrap, and finds this data key. -/
def Opens (opener : Opener) (dek : D) : Prop :=
  ∃ kek, kekFor suite opener = .ok kek ∧ suite.unwrap kek opener.wrap = some dek

variable {suite}

/-- What an opener finds is what its wrap holds. -/
theorem Opens.wraps {opener : Opener} {dek : D} (opens : Opens suite opener dek) :
    Wraps suite dek opener.wrap := by
  obtain ⟨kek, -, opened⟩ := opens
  exact wraps_of_unwrap opened

/-- A PRF output opens what it locked. -/
theorem opens_passkey {prfOutput wrap : Bytes} {dek : D} :
    Opens suite (.passkey prfOutput wrap) dek ↔
      openWith suite .passkey prfOutput wrap = some dek := by
  constructor
  · rintro ⟨kek, derived, opened⟩
    cases derived
    exact opened
  · exact fun opened => ⟨_, rfl, opened⟩

/-- A typed key opens what the bytes it reads back as locked. -/
theorem opens_encryptionKey {key : String} {wrap : Bytes} {dek : D} :
    Opens suite (.encryptionKey key wrap) dek ↔
      ∃ bytes, normalize key = .ok bytes ∧
        openWith suite .encryptionKey bytes wrap = some dek := by
  constructor
  · rintro ⟨kek, derived, opened⟩
    simp only [kekFor] at derived
    split at derived
    · next bytes read =>
        cases derived
        exact ⟨bytes, read, opened⟩
    · cases derived
  · rintro ⟨bytes, read, opened⟩
    refine ⟨derive suite .encryptionKey bytes, ?_, opened⟩
    simp only [kekFor, read]

theorem unwrapDek_eq_ok {wrapped : Bytes} {kek : suite.Kek} {dek : D} :
    unwrapDek suite wrapped kek = .ok dek ↔ suite.unwrap kek wrapped = some dek := by
  unfold unwrapDek
  split
  · next found opened => simp [opened]
  · next opened => simp [opened]

theorem unlock_eq_ok {opener : Opener} {user : String} {forgets : Forgets}
    {key : SessionKey D} (unlocked : unlock suite opener user forgets = .ok key) :
    key.user = user ∧ Opens suite opener key.key := by
  cases derived : kekFor suite opener with
  | error error =>
      simp [unlock, derived, bind, Except.bind] at unlocked
  | ok kek =>
      cases opened : unwrapDek suite opener.wrap kek with
      | error error =>
          simp [unlock, derived, opened, bind, Except.bind] at unlocked
      | ok dek =>
          simp only [unlock, derived, opened, bind, Except.bind, pure, Except.pure,
            Except.ok.injEq] at unlocked
          subst unlocked
          exact ⟨rfl, kek, derived, unwrapDek_eq_ok.mp opened⟩

/-- A re-wrap locks what the opener found under the new secret. -/
theorem rewrap_eq_ok {existing : Opener} {kind : WrapKind} {ikm wrapped : Bytes}
    (rewrapped : rewrap suite existing kind ikm = .ok wrapped) :
    ∃ dek, Opens suite existing dek ∧ wrapped = lock suite kind ikm dek := by
  cases derived : kekFor suite existing with
  | error error =>
      simp [rewrap, derived, bind, Except.bind] at rewrapped
  | ok kek =>
      cases opened : unwrapDek suite existing.wrap kek with
      | error error =>
          simp [rewrap, derived, opened, bind, Except.bind] at rewrapped
      | ok dek =>
          simp only [rewrap, derived, opened, bind, Except.bind, pure, Except.pure,
            Except.ok.injEq] at rewrapped
          exact ⟨dek, ⟨kek, derived, unwrapDek_eq_ok.mp opened⟩, rewrapped.symm⟩

theorem addPasskeyRoute_eq_ok {existing : Opener} {prfOutput wrapped : Bytes}
    (added : addPasskeyRoute suite existing prfOutput = .ok wrapped) :
    ∃ dek, Opens suite existing dek ∧ wrapped = lock suite .passkey prfOutput dek :=
  rewrap_eq_ok added

/-- A re-issue shows the key whose bytes lock the new wrap. -/
theorem reissueEncryptionKey_eq_ok {existing : Opener} {bytes : KeyBytes}
    {key : String} {wrapped : Bytes}
    (reissued : reissueEncryptionKey suite existing bytes = .ok (key, wrapped)) :
    key = formatKey bytes ∧
      ∃ dek, Opens suite existing dek ∧
        wrapped = lock suite .encryptionKey bytes.val dek := by
  unfold reissueEncryptionKey newEncryptionKey at reissued
  cases rewrapped : rewrap suite existing .encryptionKey bytes.val with
  | error error =>
      simp [rewrapped, bind, Except.bind] at reissued
  | ok blob =>
      simp only [rewrapped, bind, Except.bind, pure, Except.pure, Except.ok.injEq,
        Prod.mk.injEq] at reissued
      obtain ⟨rfl, rfl⟩ := reissued
      exact ⟨rfl, rewrap_eq_ok rewrapped⟩

end Ceremonies

end TimeTracker.Crypto.Ceremony
