import TimeTracker.Server.Account
import TimeTracker.Server.Deciding
import TimeTracker.Client.Session
import TimeTracker.Crypto.Ceremony

/-!
# The data key of an account

An account's data key is the one its encryption-key wrap holds.  A database is
sound when every wrap of an account holds that account's data key, and the data
key was generated for that account.  Each deciding statement that stores a wrap
of the right key keeps a database sound, and keeps every account its data key.
-/

namespace TimeTracker.Client.DataKeys

open TimeTracker.Text
open TimeTracker.Library.KeyWrap
open TimeTracker.Library.Atomic
open TimeTracker.Library.Rely
open TimeTracker.Library.Indexed
open TimeTracker.Crypto.Wire
open TimeTracker.Crypto.Ceremony
open TimeTracker.Server.Schema
open TimeTracker.Server.Store
open TimeTracker.Server.Ceremony
open TimeTracker.Server.Functions
open TimeTracker.Server.Execution
open TimeTracker.Server.Outcomes
open TimeTracker.Server.Interference
open TimeTracker.Server.Deciding
open TimeTracker.Server.Account (KeyWrapsBare SignedUp findOrCreate_cases)
open TimeTracker.Client.Session

section DataKeys

variable {D : Type} (suite : KeySuite D) (owner : D → String)

/-- The data key that the account's encryption-key wrap holds. -/
def KeyOf (db : Database) (email : String) (dek : D) : Prop :=
  ∃ user ∈ db.users, user.email = email ∧
    ∃ row ∈ db.wraps, IsKeyWrap user.id row ∧ Wraps suite dek row.wrappedKey

/-- Every wrap of an account holds the account's data key, which was generated for
that account; an account with wraps is encrypted. -/
structure Sound (db : Database) : Prop where
  bare : KeyWrapsBare db
  held : ∀ row ∈ db.wraps, ∀ user ∈ db.users, user.id = row.userId →
    user.encryptedAt ≠ none ∧
      ∃ dek, KeyOf suite db user.email dek ∧ Wraps suite dek row.wrappedKey
  owned : ∀ email dek, KeyOf suite db email dek → owner dek = email

/-- The accounts age, and keep their data keys. -/
structure Grows (before after : Database) : Prop where
  aged : Aged before after
  keys : ∀ email dek, KeyOf suite before email dek → KeyOf suite after email dek

/-- What every statement makes of a sound database. -/
def Keeps (before after : Database) : Prop :=
  Sound suite owner after ∧ Grows suite before after

variable {suite owner} {db next : Database} {email : String} {dek other : D}

/-- An account has one data key. -/
theorem KeyOf.unique (first : KeyOf suite db email dek)
    (second : KeyOf suite db email other) : dek = other := by
  obtain ⟨user, member, named, row, stored, keyWrap, holds⟩ := first
  obtain ⟨user', member', named', row', stored', keyWrap', holds'⟩ := second
  have users : user = user' := Table.eq_of_conflict User.conflict_symm member member'
    (.inr (named.trans named'.symm))
  subst users
  have rows : row = row' := Table.eq_of_conflict EntryKeyWrap.conflict_symm stored stored'
    (.inr (.inr ⟨keyWrap.1.trans keyWrap'.1.symm, keyWrap.2, keyWrap'.2⟩))
  subst rows
  exact holds.unique holds'

theorem Grows.refl (db : Database) : Grows suite db db :=
  ⟨Aged.refl db, fun _ _ key => key⟩

theorem Grows.trans {first second third : Database} (left : Grows suite first second)
    (right : Grows suite second third) : Grows suite first third :=
  ⟨left.aged.trans right.aged, fun email dek key => right.keys email dek (left.keys email dek key)⟩

/-- A statement that touches neither accounts nor wraps. -/
theorem keeps_of_same (sound : Sound suite owner db) (users : next.users = db.users)
    (wraps : next.wraps = db.wraps) : Keeps suite owner db next := by
  have same : ∀ email dek, KeyOf suite next email dek ↔ KeyOf suite db email dek := by
    intro email dek
    rw [KeyOf, KeyOf, users, wraps]
  refine ⟨⟨?_, ?_, ?_⟩, Aged.of_users users, fun email dek => (same email dek).mpr⟩
  · rw [KeyWrapsBare, wraps]
    exact sound.bare
  · intro row stored user member owns
    rw [wraps] at stored
    rw [users] at member
    obtain ⟨encrypted, dek, key, holds⟩ := sound.held row stored user member owns
    exact ⟨encrypted, dek, (same _ _).mpr key, holds⟩
  · exact fun email dek key => sound.owned email dek ((same email dek).mp key)

theorem keeps_refl (sound : Sound suite owner db) : Keeps suite owner db db :=
  ⟨sound, .refl db⟩

/-! ## Rewriting accounts -/

/-- Rewriting other columns of one account. -/
theorem keeps_of_rewrite {userId : Int} {change : User → User}
    (sound : Sound suite owner db)
    (users : ∀ user, user ∈ next.users ↔ ∃ old ∈ db.users,
      (if old.id = userId then change old else old) = user)
    (keeps : ∀ user, (change user).id = user.id ∧ (change user).email = user.email ∧
      user.sessionEpoch ≤ (change user).sessionEpoch ∧
      (user.encryptedAt ≠ none → (change user).encryptedAt ≠ none))
    (wraps : next.wraps = db.wraps) : Keeps suite owner db next := by
  have rewritten : ∀ user ∈ next.users, ∃ old ∈ db.users, user.id = old.id ∧
      user.email = old.email ∧ (old.encryptedAt ≠ none → user.encryptedAt ≠ none) := by
    intro user member
    obtain ⟨old, earlier, rfl⟩ := (users user).mp member
    refine ⟨old, earlier, ?_⟩
    split
    · exact ⟨(keeps old).1, (keeps old).2.1, (keeps old).2.2.2⟩
    · exact ⟨rfl, rfl, id⟩
  have aged : Aged db next := by
    intro user member
    refine ⟨_, (users _).mpr ⟨user, member, rfl⟩, ?_⟩
    split
    · exact ⟨(keeps user).1, (keeps user).2.1, (keeps user).2.2.1⟩
    · exact ⟨rfl, rfl, le_refl _⟩
  have grown : ∀ email dek, KeyOf suite db email dek → KeyOf suite next email dek := by
    rintro email dek ⟨user, member, rfl, row, stored, keyWrap, holds⟩
    obtain ⟨user', member', same, named, -⟩ := aged user member
    exact ⟨user', member', named, row, wraps ▸ stored, same ▸ keyWrap, holds⟩
  refine ⟨⟨?_, ?_, ?_⟩, aged, grown⟩
  · rw [KeyWrapsBare, wraps]
    exact sound.bare
  · intro row stored user member owns
    rw [wraps] at stored
    obtain ⟨old, member', same, named, marked⟩ := rewritten user member
    obtain ⟨encrypted, dek, key, holds⟩ :=
      sound.held row stored old member' (same.symm.trans owns)
    exact ⟨marked encrypted, dek, named ▸ grown _ dek key, holds⟩
  · rintro email dek ⟨user, member, rfl, row, stored, keyWrap, holds⟩
    obtain ⟨old, member', same, named, -⟩ := rewritten user member
    rw [wraps] at stored
    exact sound.owned _ dek ⟨old, member', named.symm, row, stored, same ▸ keyWrap, holds⟩

/-- A new account has no wraps. -/
theorem keeps_signedUp (sound : Sound suite owner db) {row : User}
    (created : SignedUp db next row) : Keeps suite owner db next := by
  have aged : Aged db next := fun user member =>
    ⟨user, (created.users user).mpr (.inl member), rfl, rfl, le_refl _⟩
  have grown : ∀ email dek, KeyOf suite db email dek → KeyOf suite next email dek := by
    rintro email dek ⟨user, member, named, wrap, stored, rest⟩
    exact ⟨user, (created.users user).mpr (.inl member), named, wrap,
      created.wraps ▸ stored, rest⟩
  have old : ∀ user ∈ next.users, ∀ wrap ∈ next.wraps, user.id = wrap.userId →
      user ∈ db.users ∧ wrap ∈ db.wraps := by
    intro user member wrap stored owns
    rw [created.wraps] at stored
    obtain member | rfl := (created.users user).mp member
    · exact ⟨member, stored⟩
    · exact absurd (owns ▸ db.wraps_user wrap stored) created.fresh
  refine ⟨⟨?_, ?_, ?_⟩, aged, grown⟩
  · rw [KeyWrapsBare, created.wraps]
    exact sound.bare
  · intro wrap stored user member owns
    obtain ⟨member', stored'⟩ := old user member wrap stored owns
    obtain ⟨encrypted, dek, key, holds⟩ := sound.held wrap stored' user member' owns
    exact ⟨encrypted, dek, grown _ dek key, holds⟩
  · rintro email dek ⟨user, member, rfl, wrap, stored, keyWrap, holds⟩
    obtain ⟨member', stored'⟩ := old user member wrap stored keyWrap.1.symm
    exact sound.owned _ dek ⟨user, member', rfl, wrap, stored', keyWrap, holds⟩

theorem keeps_findOrCreate (sound : Sound suite owner db) (email : String) (now : Timestamp) :
    Keeps suite owner db (effect (findOrCreate email now) db) := by
  obtain same | ⟨row, created⟩ := findOrCreate_cases db email now
  · rw [same]
    exact ⟨sound, .refl db⟩
  · exact keeps_signedUp sound created

theorem keeps_bumpEpoch (sound : Sound suite owner db) (userId : Int) :
    Keeps suite owner db (effect (bumpEpoch userId) db) := by
  apply keeps_of_rewrite sound (fun user => mem_bumpEpoch) ?_ rfl
  intro user
  refine ⟨rfl, rfl, ?_, id⟩
  show user.sessionEpoch ≤ user.sessionEpoch + 1
  omega

/-! ## Storing wraps -/

/-- The row holds the data key of the account it is filed under. -/
def HoldsKeyOf (suite : KeySuite D) (db : Database) (userId : Int) (email : String)
    (row : EntryKeyWrap) : Prop :=
  row.userId = userId ∧
    ∃ dek, KeyOf suite db email dek ∧ Wraps suite dek row.wrappedKey

/-- An account's rows may come and go as long as each new one holds its data key,
and one encryption-key wrap is left where there was one. -/
theorem keeps_of_wraps {userId : Int} (sound : Sound suite owner db)
    (known : Known email userId db) (users : next.users = db.users)
    (rows : ∀ row ∈ next.wraps, row ∈ db.wraps ∨ HoldsKeyOf suite db userId email row ∧
      (row.kind = WrapKind.encryptionKey.asStr → row.credentialId = none))
    (kept : ∀ row ∈ db.wraps, ∀ id, IsKeyWrap id row → row ∈ next.wraps ∨
      id = userId ∧ ∃ row' ∈ next.wraps, IsKeyWrap userId row' ∧
        HoldsKeyOf suite db userId email row') : Keeps suite owner db next := by
  have same : ∀ user ∈ db.users, user.id = userId → user.email = email := by
    obtain ⟨me, present, rfl, rfl⟩ := known
    intro user member same
    rw [Table.eq_of_conflict User.conflict_symm member present (.inl same)]
  have grown : ∀ email dek, KeyOf suite db email dek → KeyOf suite next email dek := by
    rintro address dek ⟨user, member, rfl, row, stored, keyWrap, holds⟩
    obtain left | ⟨rfl, row', left, keyWrap', -, other, key, holds'⟩ :=
      kept row stored user.id keyWrap
    · exact ⟨user, users ▸ member, rfl, row, left, keyWrap, holds⟩
    · have here : KeyOf suite db user.email dek := ⟨user, member, rfl, row, stored, keyWrap, holds⟩
      rw [same user member rfl] at here
      rw [here.unique key]
      exact ⟨user, users ▸ member, rfl, row', left, keyWrap', holds'⟩
  have back : ∀ email dek, KeyOf suite next email dek → KeyOf suite db email dek := by
    rintro address dek ⟨user, member, rfl, row, stored, keyWrap, holds⟩
    rw [users] at member
    obtain old | ⟨⟨owns, other, key, holds'⟩, -⟩ := rows row stored
    · exact ⟨user, member, rfl, row, old, keyWrap, holds⟩
    · rw [same user member (keyWrap.1.symm.trans owns), holds.unique holds']
      exact key
  refine ⟨⟨?_, ?_, ?_⟩, Aged.of_users users, grown⟩
  · intro row stored kind
    obtain old | ⟨-, bare⟩ := rows row stored
    · exact sound.bare row old kind
    · exact bare kind
  · intro row stored user member owns
    rw [users] at member
    obtain old | ⟨⟨owns', dek, key, holds⟩, -⟩ := rows row stored
    · obtain ⟨encrypted, dek, key, holds⟩ := sound.held row old user member owns
      exact ⟨encrypted, dek, grown _ dek key, holds⟩
    · have named := same user member (owns.trans owns')
      have keyed := key
      obtain ⟨user', member', named', wrap, stored', keyWrap, -⟩ := keyed
      have users' : user = user' := Table.eq_of_conflict User.conflict_symm member member'
        (.inr (named.trans named'.symm))
      subst users'
      refine ⟨(sound.held wrap stored' user member keyWrap.1.symm).1, dek, ?_, holds⟩
      exact grown _ dek (named ▸ key)
  · exact fun address dek key => sound.owned address dek (back address dek key)

/-- An encrypted account's new passkey wrap. -/
theorem keeps_wrapInserted {id userId : Int} {credentialId wrappedKey : Bytes}
    {now : Timestamp} (sound : Sound suite owner db) (known : Known email userId db)
    (key : KeyOf suite db email dek) (holds : Wraps suite dek wrappedKey)
    (inserted : WrapInserted db next
      (storedWrap id userId .passkey (some credentialId) wrappedKey now)) :
    Keeps suite owner db next := by
  apply keeps_of_wraps sound known inserted.users
  · intro row stored
    obtain old | rfl := (inserted.wraps row).mp stored
    · exact .inl old
    · exact .inr ⟨⟨rfl, dek, key, holds⟩, fun kind => absurd kind WrapKind.asStr_passkey_ne⟩
  · exact fun row stored id keyWrap => .inl ((inserted.wraps row).mpr (.inl stored))

/-- A new encryption-key wrap in the place of the old one. -/
theorem keeps_keyWrapReplaced {userId : Int} {wrappedKey : Bytes} {now : Timestamp}
    (sound : Sound suite owner db) (known : Known email userId db)
    (key : KeyOf suite db email dek) (holds : Wraps suite dek wrappedKey)
    (replaced : KeyWrapReplaced db next userId wrappedKey now) :
    Keeps suite owner db next := by
  obtain ⟨id, wraps⟩ := replaced.wraps
  have new : HoldsKeyOf suite db userId email
      (storedWrap id userId .encryptionKey none wrappedKey now) :=
    ⟨rfl, dek, key, holds⟩
  apply keeps_of_wraps sound known replaced.users
  · intro row stored
    obtain ⟨old, -⟩ | rfl := (wraps row).mp stored
    · exact .inl old
    · exact .inr ⟨new, fun _ => rfl⟩
  · intro row stored id' keyWrap
    by_cases mine : IsKeyWrap userId row
    · exact .inr ⟨keyWrap.1.symm.trans mine.1, _, (wraps _).mpr (.inr rfl), ⟨rfl, rfl⟩, new⟩
    · exact .inl ((wraps row).mpr (.inl ⟨stored, mine⟩))

/-- Deleting a passkey leaves the encryption-key wraps alone. -/
theorem keeps_passkeyDeleted {userId : Int} {target : PasskeyRow}
    (sound : Sound suite owner db) (known : Known email userId db)
    (deleted : PasskeyDeleted db next userId target) : Keeps suite owner db next := by
  apply keeps_of_wraps sound known deleted.users
  · exact fun row stored => .inl ((deleted.wraps row).mp stored).1
  · intro row stored id keyWrap
    refine .inl ((deleted.wraps row).mpr ⟨stored, ?_⟩)
    rintro ⟨-, filed⟩
    rw [sound.bare row stored keyWrap.2] at filed
    cases filed

/-- Turning encryption on gives the account the data key its wraps hold. -/
theorem keyOf_enabled {userId : Int} {passkey : Option PasskeyWrapDto}
    {encryptionKeyWrap : Bytes} {now : Timestamp} (known : Known email userId db)
    (holdsKey : Wraps suite dek encryptionKeyWrap)
    (enabled : Enabled db next userId passkey encryptionKeyWrap now) :
    KeyOf suite next email dek := by
  obtain ⟨keyId, passkeyId, wraps⟩ := enabled.wraps
  obtain ⟨me, present, rfl, rfl⟩ := known
  refine ⟨_, (enabled.users _).mpr ⟨me, present, rfl⟩, ?_, _,
    (wraps _).mpr (.inr (.inl rfl)), ?_, holdsKey⟩
  · split <;> rfl
  · split <;> exact ⟨rfl, rfl⟩

/-- Turning encryption on with wraps of a data key generated for the account. -/
theorem keeps_enabled {userId : Int} {passkey : Option PasskeyWrapDto}
    {encryptionKeyWrap : Bytes} {now : Timestamp} (sound : Sound suite owner db)
    (known : Known email userId db)
    (mine : owner dek = email) (holdsKey : Wraps suite dek encryptionKeyWrap)
    (holdsPasskey : ∀ dto, passkey = some dto → Wraps suite dek dto.wrappedKey)
    (enabled : Enabled db next userId passkey encryptionKeyWrap now) :
    Keeps suite owner db next := by
  have mineKey := keyOf_enabled known holdsKey enabled
  obtain ⟨keyId, passkeyId, wraps⟩ := enabled.wraps
  obtain ⟨me, present, rfl, rfl⟩ := known
  have aged : Aged db next := by
    intro user member
    refine ⟨_, (enabled.users _).mpr ⟨user, member, rfl⟩, ?_⟩
    split
    · exact ⟨rfl, rfl, le_refl _⟩
    · exact ⟨rfl, rfl, le_refl _⟩
  have grown : ∀ email dek, KeyOf suite db email dek → KeyOf suite next email dek := by
    rintro email dek ⟨user, member, rfl, row, stored, keyWrap, holds⟩
    obtain ⟨user', member', same, named, -⟩ := aged user member
    exact ⟨user', member', named, row, (wraps row).mpr (.inl stored), same ▸ keyWrap, holds⟩
  have before : ∀ user ∈ next.users, ∃ old ∈ db.users, user.id = old.id ∧
      user.email = old.email ∧ (old.encryptedAt ≠ none ∨ old.id = me.id →
        user.encryptedAt ≠ none) := by
    intro user member
    obtain ⟨old, earlier, rfl⟩ := (enabled.users user).mp member
    refine ⟨old, earlier, ?_⟩
    split
    · exact ⟨rfl, rfl, fun _ => nofun⟩
    · next other => exact ⟨rfl, rfl, fun marked => marked.resolve_right other⟩
  refine ⟨⟨?_, ?_, ?_⟩, aged, grown⟩
  · intro row stored kind
    obtain old | rfl | ⟨dto, -, rfl⟩ := (wraps row).mp stored
    · exact sound.bare row old kind
    · rfl
    · exact absurd kind WrapKind.asStr_passkey_ne
  · intro row stored user member owns
    obtain ⟨old, earlier, sameId, sameEmail, marked⟩ := before user member
    have filedHere : ∀ wrapped, row.userId = me.id → row.wrappedKey = wrapped →
        Wraps suite dek wrapped → user.encryptedAt ≠ none ∧
          ∃ dek, KeyOf suite next user.email dek ∧ Wraps suite dek row.wrappedKey := by
      rintro wrapped owns' rfl holds
      have users : old = me := Table.eq_of_conflict User.conflict_symm earlier present
        (.inl (sameId.symm.trans (owns.trans owns')))
      subst users
      exact ⟨marked (.inr rfl), dek, sameEmail ▸ mineKey, holds⟩
    obtain stored' | rfl | ⟨dto, sent, rfl⟩ := (wraps row).mp stored
    · obtain ⟨encrypted, dek, key, holds⟩ :=
        sound.held row stored' old earlier (sameId.symm.trans owns)
      exact ⟨marked (.inl encrypted), dek, sameEmail ▸ grown _ dek key, holds⟩
    · exact filedHere _ rfl rfl holdsKey
    · exact filedHere _ rfl rfl (holdsPasskey dto sent)
  · rintro email other ⟨user, member, rfl, row, stored, keyWrap, holds⟩
    obtain ⟨old, earlier, sameId, sameEmail, -⟩ := before user member
    obtain stored' | rfl | ⟨dto, -, rfl⟩ := (wraps row).mp stored
    · exact sound.owned _ other ⟨old, earlier, sameEmail.symm, row, stored',
        sameId ▸ keyWrap, holds⟩
    · have users : old = me := Table.eq_of_conflict User.conflict_symm earlier present
        (.inl (sameId.symm.trans keyWrap.1.symm))
      subst users
      rw [holds.unique holdsKey, sameEmail, mine]
    · exact absurd keyWrap.2 WrapKind.asStr_passkey_ne

/-- The transaction by itself, whether or not it goes through. -/
theorem keeps_enableTransaction {userId : Int} {passkey : Option PasskeyWrapDto}
    {encryptionKeyWrap : Bytes} (sound : Sound suite owner db) (known : Known email userId db)
    (mine : owner dek = email) (holdsKey : Wraps suite dek encryptionKeyWrap)
    (holdsPasskey : ∀ dto, passkey = some dto → Wraps suite dek dto.wrappedKey)
    (now : Timestamp) :
    Keeps suite owner db (effect (enableTransaction userId passkey encryptionKeyWrap now) db) := by
  cases ran : enableTransaction userId passkey encryptionKeyWrap now db with
  | error failure =>
      rw [effect_of_error ran]
      exact keeps_refl sound
  | ok pair =>
      rw [effect_of_ok ran]
      obtain ⟨same, -⟩ | ⟨-, -, -, enabled⟩ := enableTransaction_eq_ok ran
      · rw [same]
        exact keeps_refl sound
      · exact keeps_enabled sound known mine holdsKey holdsPasskey enabled

theorem keeps_insertPasskey (sound : Sound suite owner db) (userId : Int)
    (credentialId passkey : Bytes) (prfCapable : Bool) (now : Timestamp) :
    Keeps suite owner db
      (effect (insertPasskey userId credentialId passkey prfCapable now) db) := by
  cases ran : insertPasskey userId credentialId passkey prfCapable now db with
  | error failure =>
      rw [effect_of_error ran]
      exact keeps_refl sound
  | ok pair =>
      rw [effect_of_ok ran]
      obtain ⟨-, users, -, wraps⟩ := insertPasskey_eq_ok ran
      exact keeps_of_same sound users wraps

/-! ## The calls that store and read wraps -/

/-- The session names this account, if it names any. -/
def Names (account : String) (claims : Option SessionClaims) : Prop :=
  ∀ session, claims = some session → normalizeEmail session.email = some account

instance (account : String) (claims : Option SessionClaims) :
    Decidable (Names account claims) :=
  inferInstanceAs (Decidable
    (∀ session ∈ claims, normalizeEmail session.email = some account))

/-- The wrap holds the data key of the account the session names. -/
def HoldsKey (suite : KeySuite D) (claims : Option SessionClaims) (wrapped : Bytes)
    (db : Database) : Prop :=
  ∃ account dek, accountOf claims = some account ∧ KeyOf suite db account dek ∧
    Wraps suite dek wrapped

theorem HoldsKey.grows {claims : Option SessionClaims} {wrapped : Bytes}
    (holds : HoldsKey suite claims wrapped db) (grown : Grows suite db next) :
    HoldsKey suite claims wrapped next := by
  obtain ⟨account, dek, named, key, wraps⟩ := holds
  exact ⟨account, dek, named, grown.keys account dek key, wraps⟩

theorem Names.eq {account other : String} {claims : Option SessionClaims}
    (names : Names account claims) (named : accountOf claims = some other) :
    other = account := by
  obtain ⟨session, sent, named⟩ := Option.bind_eq_some_iff.mp named
  exact Option.some.inj (named.symm.trans (names session sent))

theorem Keeps.trans {first second third : Database} (left : Keeps suite owner first second)
    (right : Keeps suite owner second third) : Keeps suite owner first third :=
  ⟨right.1, left.2.trans right.2⟩

theorem keeps_of_since {later : Database} (sound : Sound suite owner db)
    (since : Since (Keeps suite owner) db later) : Keeps suite owner db later :=
  rely_of_since (keeps_refl sound) Keeps.trans since

theorem idle_keeps (sound : Sound suite owner db) :
    Idle (Keeps suite owner) (fun _ => Keeps suite owner) db :=
  fun _ _ since _ => keeps_refl (keeps_of_since sound since).1

section Calls

variable {ctx : AppCtx} {account : String}

/-- The account a session signs in stays known. -/
theorem known_of_signedIn {before later : Database} {me : User}
    (signedIn : SignedIn ctx before me) (grown : Grows suite before later) :
    Known me.email me.id later ∧ ∀ account, Names account ctx.claims → me.email = account := by
  obtain ⟨session, email, sent, named, found, -⟩ := signedIn
  obtain ⟨member, rfl⟩ := mem_of_userByEmail found
  refine ⟨Known.aged ⟨me, member, rfl, rfl⟩ grown.aged, fun account names => ?_⟩
  exact Option.some.inj (named.symm.trans (names session sent))

/-- A deciding statement that keeps the data keys wherever it is executed. -/
theorem decides_of_keeps {β : Type} {site : User → Site} {statement : User → Sql β}
    {leaves : β → Database → Prop} (sound : Sound suite owner db)
    (kept : ∀ later me value next, Keeps suite owner db later → Known me.email me.id later →
      (∀ account, Names account ctx.claims → me.email = account) →
      statement me later = .ok (value, next) →
      Keeps suite owner later next ∧ leaves value next) :
    Decides (Keeps suite owner) (fun _ => Keeps suite owner) ctx db site statement leaves := by
  intro before later me first signedIn second
  have grown := keeps_of_since sound (first.trans second)
  have sound' := (keeps_of_since sound first).1
  obtain ⟨known, named⟩ := known_of_signedIn signedIn (keeps_of_since sound' second).2
  constructor
  · cases ran : statement me later with
    | error failure =>
        rw [effect_of_error ran]
        exact keeps_refl grown.1
    | ok pair =>
        rw [effect_of_ok ran]
        exact (kept later me pair.1 pair.2 grown known named ran).1
  · exact fun value next ran => (kept later me value next grown known named ran).2

/-- A request that keeps every account its data key, with what its answer
promises. -/
def KeepsKeys {α : Type} (suite : KeySuite D) (owner : D → String)
    (promise : α → Database → Prop) (handler : Handler α) (db : Database) : Prop :=
  Serves (Keeps suite owner) (fun _ => Keeps suite owner)
    (fun reply next => ∀ value, reply.1 = .ok value → promise value next) handler none db

/-- The wraps an account is told hold its data key. -/
theorem keepsKeys_encryptionWraps (sound : Sound suite owner db) :
    KeepsKeys suite owner
      (fun wraps next => ∀ dto ∈ wraps, HoldsKey suite ctx.claims dto.wrappedKey next)
      (encryptionWraps ctx) db := by
  apply serves_encryptionWraps (idle_keeps sound) (fun _ _ _ => nofun)
  intro before later me rows first signedIn second read wraps answered dto listed
  cases answered
  have sound' := (keeps_of_since sound first).1
  have grown := keeps_of_since sound' second
  obtain ⟨⟨user, member, same, named⟩, -⟩ := known_of_signedIn signedIn grown.2
  obtain ⟨session, email, sent, normalized, found, -⟩ := signedIn
  obtain ⟨-, rfl⟩ := mem_of_userByEmail found
  rw [map_ofRow_listWraps read] at listed
  obtain ⟨record, filed, rfl⟩ := List.mem_map.mp listed
  obtain ⟨stored, owns⟩ := mem_wrapsOf.mp filed
  obtain ⟨-, dek, key, holds⟩ :=
    grown.1.held record stored user member (same.trans owns.symm)
  refine ⟨me.email, dek, ?_, named ▸ key, holds⟩
  rw [accountOf, sent, Option.bind_some, normalized]

/-- Turning encryption on under a session of the account the data key was
generated for. -/
theorem keepsKeys_encryptionEnable {passkey : Option PasskeyWrapDto}
    {encryptionKeyWrap : Bytes} (sound : Sound suite owner db)
    (names : Names account ctx.claims) (mine : owner dek = account)
    (holdsKey : Wraps suite dek encryptionKeyWrap)
    (holdsPasskey : ∀ dto, passkey = some dto → Wraps suite dek dto.wrappedKey) :
    KeepsKeys suite owner (fun _ next => KeyOf suite next account dek)
      (encryptionEnable ctx passkey encryptionKeyWrap) db := by
  apply serves_encryptionEnable (idle_keeps sound) (fun _ _ _ => nofun)
  apply decides_of_keeps sound
  intro later me outcome next kept known named ran
  rw [named account names] at known
  obtain ⟨rfl, -, message, rfl⟩ | ⟨-, -, rfl, enabled⟩ := enableTransaction_eq_ok ran
  · exact ⟨keeps_refl kept.1, nofun⟩
  · exact ⟨keeps_enabled kept.1 known mine holdsKey holdsPasskey enabled,
      fun _ _ => keyOf_enabled known holdsKey enabled⟩

/-- Storing a passkey wrap of the account's data key. -/
theorem keepsKeys_encryptionAddPasskeyWrap {credentialId wrappedKey : Bytes}
    (sound : Sound suite owner db) (names : Names account ctx.claims)
    (key : KeyOf suite db account dek) (holds : Wraps suite dek wrappedKey) :
    KeepsKeys suite owner (fun _ _ => True)
      (encryptionAddPasskeyWrap ctx credentialId wrappedKey) db := by
  apply serves_encryptionAddPasskeyWrap (idle_keeps sound) (fun _ _ _ => nofun)
  apply decides_of_keeps sound
  intro later me value next kept known named ran
  rw [named account names] at known
  obtain ⟨id, inserted⟩ := wrapInserted ran
  have key' := kept.2.keys account dek key
  exact ⟨keeps_wrapInserted kept.1 known key' holds inserted, fun _ _ => trivial⟩

/-- Replacing the encryption-key wrap by one of the account's data key. -/
theorem keepsKeys_encryptionReplaceKeyWrap {wrappedKey : Bytes}
    (sound : Sound suite owner db) (names : Names account ctx.claims)
    (key : KeyOf suite db account dek) (holds : Wraps suite dek wrappedKey) :
    KeepsKeys suite owner (fun _ _ => True)
      (encryptionReplaceKeyWrap ctx wrappedKey) db := by
  apply serves_encryptionReplaceKeyWrap (idle_keeps sound) (fun _ _ _ => nofun)
  apply decides_of_keeps sound
  intro later me value next kept known named ran
  rw [named account names] at known
  refine ⟨?_, fun _ _ => trivial⟩
  obtain ⟨rfl, -⟩ | replaced := replaceEncryptionKeyWrap_eq_ok ran
  · exact keeps_refl kept.1
  · exact keeps_keyWrapReplaced kept.1 known (kept.2.keys account dek key) holds replaced

/-! ## The other requests -/

theorem keepsKeys_passkeyDelete {id : Int} (sound : Sound suite owner db) :
    KeepsKeys suite owner (fun _ _ => True) (passkeyDelete ctx id) db := by
  apply serves_passkeyDelete (idle_keeps sound) (fun _ _ _ => nofun)
  apply decides_of_keeps sound
  intro later me outcome next kept known named ran
  refine ⟨?_, fun _ _ => trivial⟩
  obtain ⟨rfl, -⟩ | ⟨target, -, -, deleted⟩ := deleteTransaction_eq_ok ran
  · exact keeps_refl kept.1
  · exact keeps_passkeyDeleted kept.1 known deleted

theorem keepsKeys_passkeyRegisterFinish {wa : Webauthn} {responseJson : String}
    {prfCapable : Bool} (sound : Sound suite owner db) :
    KeepsKeys suite owner (fun _ _ => True)
      (passkeyRegisterFinish wa ctx responseJson prfCapable) db := by
  apply serves_passkeyRegisterFinish (idle_keeps sound) (fun _ _ _ _ _ => nofun)
  intro credentialId blob
  apply decides_of_keeps sound
  intro later me rowId next kept known named ran
  obtain ⟨-, users, -, wraps⟩ := insertPasskey_eq_ok ran
  exact ⟨keeps_of_same kept.1 users wraps, fun _ _ => trivial⟩

theorem keepsKeys_passkeyLoginFinish {wa : Webauthn} {responseJson : String}
    (sound : Sound suite owner db) :
    KeepsKeys suite owner (fun _ _ => True) (passkeyLoginFinish wa ctx responseJson)
      db := by
  apply serves_passkeyLoginFinish (idle_keeps sound) (fun _ _ _ _ _ => nofun)
  intro later row blob since _ _
  have kept : Keeps suite owner later (later.updatePasskey row.id blob ctx.now) :=
    keeps_of_same (keeps_of_since sound since).1 rfl rfl
  exact ⟨kept, idle_keeps kept.1, fun _ _ => ⟨nofun, fun _ _ _ _ _ => trivial⟩⟩

end Calls

end DataKeys

end TimeTracker.Client.DataKeys
