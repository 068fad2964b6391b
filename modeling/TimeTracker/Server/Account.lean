import TimeTracker.Server.Outcomes
import TimeTracker.Library.Run

/-!
# Account invariants over sequential runs

The server as a state machine whose steps are whole requests, one after
another, and what its runs keep true of the tables: when wraps match the
encryption flag, and when the last unlocking passkey is protected.
-/

namespace TimeTracker.Server.Account

open TimeTracker.Text
open TimeTracker.Crypto.Wire
open TimeTracker.Date
open TimeTracker.Library.Atomic
open TimeTracker.Library.Indexed
open TimeTracker.Library.Run
open TimeTracker.Server.Schema
open TimeTracker.Server.Store
open TimeTracker.Server.Ceremony
open TimeTracker.Server.Functions
open TimeTracker.Server.Execution
open TimeTracker.Server.Outcomes

/-! ## The state machine -/

/-- The requests that touch keys, passkeys or entries. -/
inductive Call
  | encryptionEnable (passkey : Option PasskeyWrapDto) (encryptionKeyWrap : Bytes)
  | encryptionAddPasskeyWrap (credentialId wrappedKey : Bytes)
  | encryptionReplaceKeyWrap (wrappedKey : Bytes)
  | passkeyRegisterFinish (responseJson : String) (prfCapable : Bool)
  | passkeyDelete (id : Int)
  | entrySave (date body : String)

/-- The server function a request calls. -/
def handle (wa : Webauthn) (ctx : AppCtx) : Call → Handler Unit
  | .encryptionEnable passkey encryptionKeyWrap =>
      encryptionEnable ctx passkey encryptionKeyWrap
  | .encryptionAddPasskeyWrap credentialId wrappedKey =>
      encryptionAddPasskeyWrap ctx credentialId wrappedKey
  | .encryptionReplaceKeyWrap wrappedKey => encryptionReplaceKeyWrap ctx wrappedKey
  | .passkeyRegisterFinish responseJson prfCapable =>
      passkeyRegisterFinish wa ctx responseJson prfCapable
  | .passkeyDelete id => passkeyDelete ctx id
  | .entrySave date body => entrySave ctx date body

/-- A request, and the statement at which the database fails, if any. -/
structure Request where
  ctx : AppCtx
  call : Call
  faultAt : Option Nat

/-- An account is created at its first sign-in, or a request is served. -/
inductive Event
  | signUp (email : String) (now : Timestamp)
  | request (request : Request)

/-- Where a request leaves the server. -/
def outcome (wa : Webauthn) (db : Database) (request : Request) :
    (Except String Unit × Option SetCookie) × Machine Database Site :=
  execute (handle wa request.ctx request.call) none ⟨request.faultAt, db, []⟩

/-- The statements a request executes, each with the database it meets. -/
def executed (wa : Webauthn) (db : Database) (request : Request) : Log :=
  (outcome wa db request).2.log

def serve (wa : Webauthn) (db : Database) : Event → Database
  | .signUp email now => effect (findOrCreate email now) db
  | .request request => (outcome wa db request).2.store

def step (wa : Webauthn) (db : Database) (event : Event) : Option Database :=
  some (serve wa db event)

/-! ## Wraps match the encryption flag -/

/-- The encryption-key wraps of the account. -/
def keyWraps (db : Database) (userId : Int) : List EntryKeyWrap :=
  db.wraps.rows.filter fun row =>
    row.userId = userId && row.kind = WrapKind.encryptionKey.asStr

/-- Wraps exist exactly when the account is encrypted. -/
structure WrapsMatch (db : Database) : Prop where
  encrypted_iff : ∀ user ∈ db.users,
    user.encryptedAt ≠ none ↔ (keyWraps db user.id).length = 1
  bare : ∀ user ∈ db.users, user.encryptedAt = none →
    (∀ row ∈ db.wraps, row.userId ≠ user.id) ∧
      ∀ entry ∈ db.entries, entry.userId ≠ user.id
  length : ∀ row ∈ db.wraps, row.wrappedKey.length = WRAPPED_KEY_LEN
  credential : ∀ first ∈ db.wraps, ∀ second ∈ db.wraps,
    first.userId = second.userId → first.credentialId ≠ none →
      first.credentialId = second.credentialId → first = second

/-- Turning encryption on with well-formed wraps succeeds for every account
that is not encrypted. -/
def EnableSucceeds (db : Database) : Prop :=
  ∀ user ∈ db.users, user.encryptedAt = none →
    ∀ passkey encryptionKeyWrap now, ∃ next,
      enableTransaction user.id passkey encryptionKeyWrap now db =
        .ok (.ok (), next)

/-- What is left of `WrapsMatch` once the unique indexes have done their part. -/
structure Matches (db : Database) : Prop where
  keyed : ∀ user ∈ db.users, user.encryptedAt ≠ none →
    ∃ row ∈ db.wraps, IsKeyWrap user.id row
  bare : ∀ user ∈ db.users, user.encryptedAt = none →
    (∀ row ∈ db.wraps, row.userId ≠ user.id) ∧
      ∀ entry ∈ db.entries, entry.userId ≠ user.id
  length : ∀ row ∈ db.wraps, row.wrappedKey.length = WRAPPED_KEY_LEN

/-- Encryption-key wraps are filed under no credential. -/
def KeyWrapsBare (db : Database) : Prop :=
  ∀ row ∈ db.wraps, row.kind = WrapKind.encryptionKey.asStr →
    row.credentialId = none

section Counting

variable {db : Database} {userId : Int}

theorem mem_keyWraps {row : EntryKeyWrap} :
    row ∈ keyWraps db userId ↔ row ∈ db.wraps ∧ IsKeyWrap userId row := by
  simp only [keyWraps, List.mem_filter, Bool.and_eq_true, decide_eq_true_eq]
  exact Iff.rfl

/-- The partial index leaves room for one encryption-key wrap. -/
theorem length_keyWraps_le_one (db : Database) (userId : Int) :
    (keyWraps db userId).length ≤ 1 := by
  have distinct : (keyWraps db userId).Pairwise
      fun first second => ¬ first.Conflict second := db.wraps.distinct.filter _
  match hrows : keyWraps db userId with
  | [] => exact Nat.zero_le 1
  | [row] => exact le_refl 1
  | first :: second :: rest =>
      have hfirst : first ∈ keyWraps db userId := by simp [hrows]
      have hsecond : second ∈ keyWraps db userId := by simp [hrows]
      obtain ⟨-, huser, hkind⟩ := mem_keyWraps.mp hfirst
      obtain ⟨-, huser', hkind'⟩ := mem_keyWraps.mp hsecond
      rw [hrows] at distinct
      have apart := (List.pairwise_cons.mp distinct).1 second (List.mem_cons_self ..)
      exact absurd (.inr (.inr ⟨huser.trans huser'.symm, hkind, hkind'⟩)) apart

theorem length_keyWraps_eq_one :
    (keyWraps db userId).length = 1 ↔ ∃ row ∈ db.wraps, IsKeyWrap userId row := by
  constructor
  · intro one
    obtain ⟨row, hrow⟩ := List.exists_mem_of_length_pos (Nat.lt_of_lt_of_eq one_pos one.symm)
    exact ⟨row, mem_keyWraps.mp hrow⟩
  · rintro ⟨row, hrow⟩
    have pos := List.length_pos_of_mem (mem_keyWraps.mpr hrow)
    have bound := length_keyWraps_le_one db userId
    omega

/-- The unique indexes give the rest of `WrapsMatch`. -/
theorem wrapsMatch_iff : WrapsMatch db ↔ Matches db := by
  constructor
  · intro holds
    exact ⟨fun user hmem marked => length_keyWraps_eq_one.mp
      ((holds.encrypted_iff user hmem).mp marked), holds.bare, holds.length⟩
  · intro holds
    refine ⟨fun user hmem => ⟨fun marked => length_keyWraps_eq_one.mpr
      (holds.keyed user hmem marked), ?_⟩, holds.bare, holds.length, ?_⟩
    · intro one bare
      obtain ⟨row, hrow, huser, -⟩ := length_keyWraps_eq_one.mp one
      exact (holds.bare user hmem bare).1 row hrow huser
    · intro first hfirst second hsecond same present clash
      exact Table.eq_of_conflict EntryKeyWrap.conflict_symm hfirst hsecond
        (.inr (.inl ⟨same, present, clash⟩))

end Counting

section Steps

variable {db next : Database} {userId : Int} {now : Timestamp}

/-- The user row of an encrypted account is marked. -/
theorem marked_of_encrypted {user : User} (encrypted : Encrypted db user.id)
    (hmem : user ∈ db.users) : user.encryptedAt ≠ none := by
  obtain ⟨other, hother, hid, marked⟩ := encrypted
  rwa [Table.eq_of_conflict User.conflict_symm hmem hother (.inl hid.symm)]

theorem encrypted_of_wrap (holds : Matches db) {row : EntryKeyWrap}
    (hrow : row ∈ db.wraps) : Encrypted db row.userId := by
  obtain ⟨user, hmem, hid⟩ := db.wraps_user row hrow
  refine ⟨user, hmem, hid, fun bare => ?_⟩
  exact (holds.bare user hmem bare).1 row hrow hid.symm

theorem encrypted_of_users (same : next.users = db.users) :
    Encrypted next userId ↔ Encrypted db userId := by
  unfold Encrypted
  rw [same]

/-- A change that adds no wrap and no entry to an unencrypted account and keeps
an encryption-key wrap for every encrypted one. -/
theorem Matches.of_same_users (users : next.users = db.users)
    (kept : ∀ user ∈ db.users, user.encryptedAt ≠ none →
      ∃ row ∈ next.wraps, IsKeyWrap user.id row)
    (wraps : ∀ row ∈ next.wraps, row.wrappedKey.length = WRAPPED_KEY_LEN ∧
      Encrypted db row.userId)
    (entries : ∀ entry ∈ next.entries, Encrypted db entry.userId) :
    Matches next := by
  refine ⟨?_, ?_, fun row hrow => (wraps row hrow).1⟩
  · rw [users]
    exact kept
  · rw [users]
    intro user hmem bare
    refine ⟨fun row hrow hid => ?_, fun entry hentry hid => ?_⟩
    · exact marked_of_encrypted (hid ▸ (wraps row hrow).2) hmem bare
    · exact marked_of_encrypted (hid ▸ entries entry hentry) hmem bare

theorem encrypted_of_entry (holds : Matches db) {entry : TimeEntry}
    (hentry : entry ∈ db.entries) : Encrypted db entry.userId := by
  obtain ⟨user, hmem, hid⟩ := db.entries_user entry hentry
  refine ⟨user, hmem, hid, fun bare => ?_⟩
  exact (holds.bare user hmem bare).2 entry hentry hid.symm

theorem Matches.enabled (holds : Matches db) {passkey : Option PasskeyWrapDto}
    {encryptionKeyWrap : Bytes}
    (length : encryptionKeyWrap.length = WRAPPED_KEY_LEN)
    (length' : ∀ dto, passkey = some dto →
      dto.wrappedKey.length = WRAPPED_KEY_LEN)
    (enabled : Enabled db next userId passkey encryptionKeyWrap now) :
    Matches next := by
  obtain ⟨keyId, passkeyId, wraps⟩ := enabled.wraps
  have mine : ∀ row ∈ next.wraps, row ∈ db.wraps ∨ row.userId = userId := by
    intro row hrow
    rcases (wraps row).mp hrow with old | rfl | ⟨dto, -, rfl⟩
    · exact .inl old
    · exact .inr rfl
    · exact .inr rfl
  refine ⟨?_, ?_, ?_⟩
  · intro user hmem marked
    obtain ⟨old, hold, rfl⟩ := (enabled.users user).mp hmem
    by_cases here : old.id = userId
    · refine ⟨_, (wraps _).mpr (.inr (.inl rfl)), ?_, rfl⟩
      simp only [here, if_true, storedWrap, newWrap]
    · simp only [here, if_false] at marked ⊢
      obtain ⟨row, hrow, key⟩ := holds.keyed old hold marked
      exact ⟨row, (wraps row).mpr (.inl hrow), key⟩
  · intro user hmem bare
    obtain ⟨old, hold, rfl⟩ := (enabled.users user).mp hmem
    by_cases here : old.id = userId
    · simp only [here, if_true] at bare
      cases bare
    · simp only [here, if_false] at bare ⊢
      refine ⟨fun row hrow same => ?_, ?_⟩
      · rcases mine row hrow with before | own
        · exact (holds.bare old hold bare).1 row before same
        · exact here (same.symm.trans own)
      · rw [enabled.entries]
        exact (holds.bare old hold bare).2
  · intro row hrow
    rcases (wraps row).mp hrow with old | rfl | ⟨dto, hdto, rfl⟩
    · exact holds.length row old
    · exact length
    · exact length' dto hdto

theorem Matches.wrapInserted (holds : Matches db) {id : Int} {kind : WrapKind}
    {credential : Option Bytes} {wrapped : Bytes}
    (length : wrapped.length = WRAPPED_KEY_LEN) (encrypted : Encrypted db userId)
    (inserted : WrapInserted db next
      (storedWrap id userId kind credential wrapped now)) : Matches next := by
  refine Matches.of_same_users inserted.users ?_ ?_ ?_
  · intro user hmem marked
    obtain ⟨row, hrow, key⟩ := holds.keyed user hmem marked
    exact ⟨row, (inserted.wraps row).mpr (.inl hrow), key⟩
  · intro row hrow
    rcases (inserted.wraps row).mp hrow with old | rfl
    · exact ⟨holds.length row old, encrypted_of_wrap holds old⟩
    · exact ⟨length, encrypted⟩
  · rw [inserted.entries]
    exact fun entry hentry => encrypted_of_entry holds hentry

/-- Replacing the encryption-key wrap keeps the invariant exactly when the
account is encrypted. -/
theorem Matches.replaced (holds : Matches db) {wrappedKey : Bytes}
    (length : wrappedKey.length = WRAPPED_KEY_LEN)
    (replaced : KeyWrapReplaced db next userId wrappedKey now) :
    Matches next ↔ Encrypted db userId := by
  obtain ⟨id, wraps⟩ := replaced.wraps
  constructor
  · intro after
    have hrow := (wraps _).mpr (.inr rfl)
    exact (encrypted_of_users replaced.users).mp (encrypted_of_wrap after hrow)
  · intro encrypted
    refine Matches.of_same_users replaced.users ?_ ?_ ?_
    · intro user hmem marked
      by_cases here : user.id = userId
      · exact ⟨_, (wraps _).mpr (.inr rfl), here.symm, rfl⟩
      · obtain ⟨row, hrow, key⟩ := holds.keyed user hmem marked
        exact ⟨row, (wraps row).mpr (.inl ⟨hrow, fun own =>
          here (key.1.symm.trans own.1)⟩), key⟩
    · intro row hrow
      rcases (wraps row).mp hrow with ⟨old, -⟩ | rfl
      · exact ⟨holds.length row old, encrypted_of_wrap holds old⟩
      · exact ⟨length, encrypted⟩
    · rw [replaced.entries]
      exact fun entry hentry => encrypted_of_entry holds hentry

theorem Matches.deleted (holds : Matches db) (keys : KeyWrapsBare db)
    {target : PasskeyRow} (deleted : PasskeyDeleted db next userId target) :
    Matches next := by
  refine Matches.of_same_users deleted.users ?_ ?_ ?_
  · intro user hmem marked
    obtain ⟨row, hrow, key⟩ := holds.keyed user hmem marked
    refine ⟨row, (deleted.wraps row).mpr ⟨hrow, ?_⟩, key⟩
    rintro ⟨-, filed⟩
    rw [keys row hrow key.2] at filed
    cases filed
  · intro row hrow
    have old := ((deleted.wraps row).mp hrow).1
    exact ⟨holds.length row old, encrypted_of_wrap holds old⟩
  · rw [deleted.entries]
    exact fun entry hentry => encrypted_of_entry holds hentry

theorem Matches.saved (holds : Matches db) {row : TimeEntry}
    (encrypted : Encrypted db row.userId)
    (saved : db.upsertEntry row = .ok next) : Matches next := by
  obtain ⟨-, users, -, wraps⟩ := Database.upsertEntry_eq_ok saved
  refine Matches.of_same_users users ?_ ?_ ?_
  · rw [wraps]
    exact holds.keyed
  · rw [wraps]
    exact fun row hrow => ⟨holds.length row hrow, encrypted_of_wrap holds hrow⟩
  · intro entry hentry
    rcases Database.userId_of_mem_upsertEntry saved hentry with ⟨old, hold, same⟩ | same
    · exact same ▸ encrypted_of_entry holds hold
    · exact same ▸ encrypted

theorem Matches.registered (holds : Matches db) (users : next.users = db.users)
    (entries : next.entries = db.entries) (wraps : next.wraps = db.wraps) :
    Matches next := by
  refine ⟨?_, ?_, ?_⟩
  · rw [users, wraps]
    exact holds.keyed
  · rw [users, wraps, entries]
    exact holds.bare
  · rw [wraps]
    exact holds.length

theorem KeyWrapsBare.of_wraps (keys : KeyWrapsBare db)
    (wraps : ∀ row ∈ next.wraps, row ∈ db.wraps ∨
      (row.kind = WrapKind.encryptionKey.asStr → row.credentialId = none)) :
    KeyWrapsBare next := by
  intro row hrow kind
  rcases wraps row hrow with old | new
  · exact keys row old kind
  · exact new kind

theorem storedWrap_bare {id : Int} {kind : WrapKind} {credential : Option Bytes}
    {wrapped : Bytes} (bare : kind = .encryptionKey → credential = none) :
    (storedWrap id userId kind credential wrapped now).kind =
        WrapKind.encryptionKey.asStr →
      (storedWrap id userId kind credential wrapped now).credentialId = none :=
  fun same => bare (WrapKind.asStr_injective same)

/-! ## What never fails on a unique index -/

theorem isEncrypted_of_mem {user : User} (hmem : user ∈ db.users) :
    isEncrypted user.id db = .ok (user.encryptedAt.isSome, db) := by
  unfold isEncrypted
  rw [Database.user?_eq_some.mpr ⟨hmem, rfl⟩]

theorem insertWrap_isOk (kind : WrapKind) {credential : Option Bytes}
    (wrapped : Bytes) (now : Timestamp) (huser : db.HasUser userId)
    (room : db.RoomFor userId kind.asStr credential) :
    ∃ next, insertWrap userId kind credential wrapped now db = .ok ((), next) := by
  obtain ⟨next, inserted⟩ := (Database.insertWrap_isOk db
    (newWrap userId kind credential wrapped now)).mpr ⟨huser, room⟩
  unfold insertWrap
  rw [inserted]
  exact ⟨next, rfl⟩

theorem Matches.enableSucceeds (holds : Matches db) : EnableSucceeds db := by
  intro user hmem bare passkey encryptionKeyWrap now
  have unmarked : isEncrypted user.id db = .ok (false, db) := by
    rw [isEncrypted_of_mem hmem, bare]
    rfl
  obtain ⟨marked, hmarked⟩ : ∃ marked, setEncrypted user.id now db =
      .ok ((), marked) := ⟨_, rfl⟩
  have wraps : marked.wraps = db.wraps := by
    cases hmarked
    rfl
  have huser : marked.HasUser user.id := by
    cases hmarked
    exact Database.hasUser_updateUser.mpr ⟨user, hmem, rfl⟩
  have none_yet : ∀ row ∈ marked.wraps, row.userId ≠ user.id := by
    rw [wraps]
    exact (holds.bare user hmem bare).1
  have room : ∀ kind credential, marked.RoomFor user.id kind credential :=
    fun kind credential row hrow same => absurd same (none_yet row hrow)
  cases passkey with
  | none =>
      obtain ⟨last, hkey⟩ := insertWrap_isOk .encryptionKey encryptionKeyWrap
        now huser (room _ none)
      refine ⟨last, sql_bind_eq_ok.mpr ⟨false, db, unmarked, ?_⟩⟩
      refine sql_bind_eq_ok.mpr ⟨(), marked, hmarked, ?_⟩
      exact sql_bind_eq_ok.mpr ⟨(), last, hkey, rfl⟩
  | some dto =>
      obtain ⟨first, hpasskey⟩ := insertWrap_isOk .passkey dto.wrappedKey now huser
        (room _ (some dto.credentialId))
      obtain ⟨id, added⟩ := Outcomes.wrapInserted hpasskey
      have huser' : first.HasUser user.id := by
        unfold Database.HasUser
        rw [added.users]
        exact huser
      have room' : first.RoomFor user.id WrapKind.encryptionKey.asStr none := by
        intro row hrow same
        rcases (added.wraps row).mp hrow with old | rfl
        · exact absurd same (none_yet row old)
        · exact ⟨fun absent => absurd rfl absent,
            fun _ => WrapKind.asStr_passkey_ne⟩
      obtain ⟨last, hkey⟩ := insertWrap_isOk .encryptionKey encryptionKeyWrap
        now huser' room'
      refine ⟨last, sql_bind_eq_ok.mpr ⟨false, db, unmarked, ?_⟩⟩
      refine sql_bind_eq_ok.mpr ⟨(), marked, hmarked, ?_⟩
      refine sql_bind_eq_ok.mpr ⟨(), first, hpasskey, ?_⟩
      exact sql_bind_eq_ok.mpr ⟨(), last, hkey, rfl⟩

theorem replaceEncryptionKeyWrap_isOk (wrappedKey : Bytes) (now : Timestamp)
    (huser : db.HasUser userId) :
    ∃ next, replaceEncryptionKeyWrap userId wrappedKey now db = .ok ((), next) := by
  obtain ⟨current, hcurrent⟩ : ∃ current, currentKeyWrap userId db =
      .ok (current, db) := ⟨_, rfl⟩
  by_cases same : current = some wrappedKey
  · refine ⟨db, sql_bind_eq_ok.mpr ⟨current, db, hcurrent, ?_⟩⟩
    rw [if_pos same]
    rfl
  · obtain ⟨removed, hremoved⟩ : ∃ removed, deleteKeyWraps userId db =
        .ok ((), removed) := ⟨_, rfl⟩
    have room : removed.RoomFor userId WrapKind.encryptionKey.asStr none := by
      intro row hrow owned
      refine ⟨fun absent => absurd rfl absent, fun _ kind => ?_⟩
      cases hremoved
      have kept := (Database.mem_deleteWraps.mp hrow).2
      simp [owned, kind] at kept
    have huser' : removed.HasUser userId := by
      cases hremoved
      exact huser
    obtain ⟨next, hinsert⟩ := insertWrap_isOk .encryptionKey wrappedKey now
      huser' room
    refine ⟨next, sql_bind_eq_ok.mpr ⟨current, db, hcurrent, ?_⟩⟩
    rw [if_neg same]
    exact sql_bind_eq_ok.mpr ⟨(), removed, hremoved, hinsert⟩

end Steps

/-! ## One request -/

section Requests

variable (wa : Webauthn) {db : Database}

/-- What a handler ensures holds of the request that calls it. -/
theorem served (ctx : AppCtx) (call : Call) (faultAt : Option Nat)
    {Q : Except String Unit → Database → Log → Prop}
    (ensured : Ensures (handle wa ctx call) db [] Q) :
    Q (outcome wa db ⟨ctx, call, faultAt⟩).1.1
      (serve wa db (.request ⟨ctx, call, faultAt⟩))
      (executed wa db ⟨ctx, call, faultAt⟩) :=
  ensured faultAt none

/-- What creating an account changes. -/
structure SignedUp (db next : Database) (row : User) : Prop where
  fresh : ¬ db.HasUser row.id
  bare : row.encryptedAt = none
  users : ∀ other, other ∈ next.users ↔ other ∈ db.users ∨ other = row
  entries : next.entries = db.entries
  passkeys : next.passkeys = db.passkeys
  wraps : next.wraps = db.wraps

/-- A sign-up leaves the database alone or adds one unencrypted account. -/
theorem findOrCreate_cases (db : Database) (email : String) (now : Timestamp) :
    effect (findOrCreate email now) db = db ∨
      ∃ row, SignedUp db (effect (findOrCreate email now) db) row := by
  cases created : findOrCreate email now db with
  | error failure => exact .inl (effect_of_error created)
  | ok pair =>
      rw [effect_of_ok created]
      obtain ⟨same | ⟨row, fresh, bare, users⟩, entries, passkeys, wraps⟩ :=
        findOrCreate_eq_ok created
      · exact .inl same
      · exact .inr ⟨row, fresh, bare, users, entries, passkeys, wraps⟩

theorem signUp_cases (db : Database) (email : String)
    (now : Timestamp) :
    serve wa db (.signUp email now) = db ∨
      ∃ row, SignedUp db (serve wa db (.signUp email now)) row :=
  findOrCreate_cases db email now

theorem Matches.signedUp (holds : Matches db) {next : Database} {row : User}
    (created : SignedUp db next row) : Matches next := by
  refine ⟨?_, ?_, ?_⟩
  · intro user hmem marked
    rw [created.wraps]
    rcases (created.users user).mp hmem with old | rfl
    · exact holds.keyed user old marked
    · exact absurd created.bare marked
  · intro user hmem hbare
    rw [created.wraps, created.entries]
    rcases (created.users user).mp hmem with old | rfl
    · exact holds.bare user old hbare
    · refine ⟨fun wrap hwrap same => ?_, fun entry hentry same => ?_⟩
      · exact created.fresh (same ▸ db.wraps_user wrap hwrap)
      · exact created.fresh (same ▸ db.entries_user entry hentry)
  · rw [created.wraps]
    exact holds.length

/-- No request files an encryption-key wrap under a credential. -/
theorem keyWrapsBare_serve (keys : KeyWrapsBare db) (event : Event) :
    KeyWrapsBare (serve wa db event) := by
  cases event with
  | signUp email now =>
      rcases signUp_cases wa db email now with same | ⟨row, created⟩
      · rw [same]
        exact keys
      · exact keys.of_wraps fun row hrow => .inl (created.wraps ▸ hrow)
  | request request =>
      obtain ⟨ctx, call, faultAt⟩ := request
      cases call with
      | encryptionEnable passkey encryptionKeyWrap =>
          refine (served wa ctx (.encryptionEnable passkey encryptionKeyWrap) faultAt
            (ensures_encryptionEnable ctx db passkey encryptionKeyWrap)).keeps keys ?_
          rintro me value next - - ran
          rcases enableTransaction_eq_ok ran with ⟨rfl, -⟩ | ⟨-, -, -, enabled⟩
          · exact keys
          · obtain ⟨keyId, passkeyId, wraps⟩ := enabled.wraps
            refine keys.of_wraps fun row hrow => ?_
            rcases (wraps row).mp hrow with old | rfl | ⟨dto, -, rfl⟩
            · exact .inl old
            · exact .inr (storedWrap_bare fun _ => rfl)
            · exact .inr (storedWrap_bare nofun)
      | encryptionAddPasskeyWrap credentialId wrappedKey =>
          refine (served wa ctx (.encryptionAddPasskeyWrap credentialId wrappedKey) faultAt
            (ensures_encryptionAddPasskeyWrap ctx db credentialId wrappedKey)).keeps keys ?_
          rintro me value next - - ran
          obtain ⟨id, inserted⟩ := Outcomes.wrapInserted ran
          refine keys.of_wraps fun row hrow => ?_
          rcases (inserted.wraps row).mp hrow with old | rfl
          · exact .inl old
          · exact .inr (storedWrap_bare nofun)
      | encryptionReplaceKeyWrap wrappedKey =>
          refine (served wa ctx (.encryptionReplaceKeyWrap wrappedKey) faultAt
            (ensures_encryptionReplaceKeyWrap ctx db wrappedKey)).keeps keys ?_
          rintro me value next - - ran
          rcases replaceEncryptionKeyWrap_eq_ok ran with ⟨rfl, -⟩ | replaced
          · exact keys
          · obtain ⟨id, wraps⟩ := replaced.wraps
            refine keys.of_wraps fun row hrow => ?_
            rcases (wraps row).mp hrow with ⟨old, -⟩ | rfl
            · exact .inl old
            · exact .inr (storedWrap_bare fun _ => rfl)
      | passkeyRegisterFinish responseJson prfCapable =>
          refine (served wa ctx (.passkeyRegisterFinish responseJson prfCapable) faultAt
            (ensures_passkeyRegisterFinish ctx db wa responseJson prfCapable)).keeps keys ?_
          rintro me value next - - ran
          obtain ⟨-, -, -, wraps⟩ := insertPasskey_eq_ok ran
          exact keys.of_wraps fun row hrow => .inl (wraps ▸ hrow)
      | passkeyDelete id =>
          refine (served wa ctx (.passkeyDelete id) faultAt
            (ensures_passkeyDelete ctx db id)).keeps keys ?_
          rintro me value next - - ran
          rcases deleteTransaction_eq_ok ran with ⟨rfl, -⟩ | ⟨target, -, -, deleted⟩
          · exact keys
          · exact keys.of_wraps fun row hrow =>
              .inl ((deleted.wraps row).mp hrow).1
      | entrySave date body =>
          refine (served wa ctx (.entrySave date body) faultAt
            (ensures_entrySave ctx db date body)).keeps keys ?_
          rintro me value next - - ran
          rcases saveTransaction_eq_ok ran with ⟨rfl, -⟩ | ⟨-, -, saved⟩
          · exact keys
          · obtain ⟨-, -, -, wraps⟩ := Database.upsertEntry_eq_ok saved
            exact keys.of_wraps fun row hrow => .inl (wraps ▸ hrow)

/-- Whenever the request replaces an encryption-key wrap, the account is
encrypted by then. -/
def ReplacesWhenEncrypted (wa : Webauthn) (db : Database) : Event → Prop
  | .signUp _ _ => True
  | .request request => ∀ userId met,
      (.replaceKeyWrap userId, met) ∈ executed wa db request → Encrypted met userId

/-- Requests other than a replacement keep the invariant. -/
theorem matches_serve_other (keys : KeyWrapsBare db) (holds : Matches db)
    (event : Event) (other : ∀ request wrappedKey, event = .request request →
      request.call ≠ .encryptionReplaceKeyWrap wrappedKey) :
    Matches (serve wa db event) ∧ ReplacesWhenEncrypted wa db event := by
  cases event with
  | signUp email now =>
      refine ⟨?_, trivial⟩
      rcases signUp_cases wa db email now with same | ⟨row, created⟩
      · rw [same]
        exact holds
      · exact holds.signedUp created
  | request request =>
      obtain ⟨ctx, call, faultAt⟩ := request
      cases call with
      | encryptionEnable passkey encryptionKeyWrap =>
          have decision := served wa ctx (.encryptionEnable passkey encryptionKeyWrap) faultAt
            (ensures_encryptionEnable ctx db passkey encryptionKeyWrap)
          refine ⟨decision.keeps holds ?_, fun userId met hmem => ?_⟩
          · rintro me value next ⟨-, length, length'⟩ - ran
            rcases enableTransaction_eq_ok ran with ⟨rfl, -⟩ | ⟨-, -, -, enabled⟩
            · exact holds
            · exact holds.enabled length length' enabled
          · obtain ⟨me, -, same, -⟩ := decision.executed_site hmem rfl
            cases same
      | encryptionAddPasskeyWrap credentialId wrappedKey =>
          have decision := served wa ctx (.encryptionAddPasskeyWrap credentialId wrappedKey) faultAt
            (ensures_encryptionAddPasskeyWrap ctx db credentialId wrappedKey)
          refine ⟨decision.keeps holds ?_, fun userId met hmem => ?_⟩
          · rintro me value next ⟨-, length, -, encrypted, -⟩ - ran
            obtain ⟨id, inserted⟩ := Outcomes.wrapInserted ran
            exact holds.wrapInserted length encrypted inserted
          · obtain ⟨me, -, same, -⟩ := decision.executed_site hmem rfl
            cases same
      | encryptionReplaceKeyWrap wrappedKey =>
          exact absurd rfl (other _ wrappedKey rfl)
      | passkeyRegisterFinish responseJson prfCapable =>
          have decision := served wa ctx (.passkeyRegisterFinish responseJson prfCapable) faultAt
            (ensures_passkeyRegisterFinish ctx db wa responseJson prfCapable)
          refine ⟨decision.keeps holds ?_, fun userId met hmem => ?_⟩
          · rintro me value next - - ran
            obtain ⟨-, users, entries, wraps⟩ := insertPasskey_eq_ok ran
            exact holds.registered users entries wraps
          · obtain ⟨me, -, same, -⟩ := decision.executed_site hmem rfl
            cases same
      | passkeyDelete id =>
          have decision := served wa ctx (.passkeyDelete id) faultAt
            (ensures_passkeyDelete ctx db id)
          refine ⟨decision.keeps holds ?_, fun userId met hmem => ?_⟩
          · rintro me value next - - ran
            rcases deleteTransaction_eq_ok ran with ⟨rfl, -⟩ | ⟨target, -, -, deleted⟩
            · exact holds
            · exact holds.deleted keys deleted
          · obtain ⟨me, -, same, -⟩ := decision.executed_site hmem rfl
            cases same
      | entrySave date body =>
          have decision := served wa ctx (.entrySave date body) faultAt
            (ensures_entrySave ctx db date body)
          refine ⟨decision.keeps holds ?_, fun userId met hmem => ?_⟩
          · rintro me value next - - ran
            rcases saveTransaction_eq_ok ran with ⟨rfl, -⟩ | ⟨encrypted, -, saved⟩
            · exact holds
            · exact holds.saved encrypted saved
          · obtain ⟨me, -, same, -⟩ := decision.executed_site hmem rfl
            cases same

/-- A replacement keeps the invariant exactly when the account is encrypted. -/
theorem matches_serve_replace (holds : Matches db) (ctx : AppCtx)
    (wrappedKey : Bytes) (faultAt : Option Nat) :
    Matches (serve wa db
        (.request ⟨ctx, .encryptionReplaceKeyWrap wrappedKey, faultAt⟩)) ↔
      ReplacesWhenEncrypted wa db
        (.request ⟨ctx, .encryptionReplaceKeyWrap wrappedKey, faultAt⟩) := by
  have decision := served wa ctx (.encryptionReplaceKeyWrap wrappedKey) faultAt
    (ensures_encryptionReplaceKeyWrap ctx db wrappedKey)
  show _ ↔ ∀ userId met, (.replaceKeyWrap userId, met) ∈ executed wa db
    ⟨ctx, .encryptionReplaceKeyWrap wrappedKey, faultAt⟩ → Encrypted met userId
  generalize (outcome wa db ⟨ctx, .encryptionReplaceKeyWrap wrappedKey, faultAt⟩).1.1 =
    reply at decision
  generalize serve wa db
    (.request ⟨ctx, .encryptionReplaceKeyWrap wrappedKey, faultAt⟩) = next at decision ⊢
  generalize executed wa db ⟨ctx, .encryptionReplaceKeyWrap wrappedKey, faultAt⟩ =
    log at decision ⊢
  cases decision with
  | refused same =>
      exact iff_of_true holds fun userId met hmem =>
        absurd hmem (not_mem_of_writes same rfl)
  | failed passed aborted wrote =>
      obtain ⟨next, ran⟩ := replaceEncryptionKeyWrap_isOk wrappedKey ctx.now
        ⟨_, passed.1.mem, rfl⟩
      rw [ran] at aborted
      cases aborted
  | @committed me value next log passed ran wrote =>
      have guarded : (∀ userId met, (.replaceKeyWrap userId, met) ∈ log →
          Encrypted met userId) ↔ Encrypted db me.id := by
        constructor
        · intro all
          exact all me.id db ((mem_iff_of_writes wrote rfl).mpr ⟨rfl, rfl⟩)
        · intro encrypted userId met hmem
          obtain ⟨same, rfl⟩ := (mem_iff_of_writes wrote rfl).mp hmem
          cases same
          exact encrypted
      rw [guarded]
      rcases replaceEncryptionKeyWrap_eq_ok ran with
        ⟨rfl, row, hrow, key, -⟩ | replaced
      · exact iff_of_true holds (key.1 ▸ encrypted_of_wrap holds hrow)
      · exact holds.replaced passed.2 replaced

theorem matches_serve_iff (keys : KeyWrapsBare db) (holds : Matches db)
    (event : Event) :
    Matches (serve wa db event) ↔ ReplacesWhenEncrypted wa db event := by
  by_cases replacing : ∃ request wrappedKey, event = .request request ∧
      request.call = .encryptionReplaceKeyWrap wrappedKey
  · obtain ⟨⟨ctx, call, faultAt⟩, wrappedKey, rfl, same⟩ := replacing
    cases same
    exact matches_serve_replace wa holds ctx wrappedKey faultAt
  · obtain ⟨after, meets⟩ := matches_serve_other wa keys holds event
      fun request wrappedKey hevent hcall =>
        replacing ⟨request, wrappedKey, hevent, hcall⟩
    exact iff_of_true after meets

/-- The key state of every account: wraps match the encryption flag, and
encryption can still be turned on wherever it is off. -/
def KeyStateSound (db : Database) : Prop :=
  WrapsMatch db ∧ EnableSucceeds db

theorem keyStateSound_iff : KeyStateSound db ↔ Matches db :=
  ⟨fun sound => wrapsMatch_iff.mp sound.1,
    fun holds => ⟨wrapsMatch_iff.mpr holds, holds.enableSucceeds⟩⟩

theorem matches_empty : Matches Database.empty :=
  ⟨fun _ hmem => absurd hmem (Table.not_mem_empty _),
    fun _ hmem => absurd hmem (Table.not_mem_empty _),
    fun _ hmem => absurd hmem (Table.not_mem_empty _)⟩

/--
Over every run of requests from an empty database, the key state of all
accounts stays sound exactly when no encryption-key wrap is replaced for an
account that is not encrypted.
-/
theorem key_state_sound_iff_replaced_when_encrypted (events : List Event) :
    Throughout (step wa) KeyStateSound Database.empty events ↔
      StepsMeet (step wa) (ReplacesWhenEncrypted wa) Database.empty events := by
  refine throughout_iff_stepsMeet (J := KeyWrapsBare) ?_ ?_
    (fun _ hmem => absurd hmem (Table.not_mem_empty _))
    (keyStateSound_iff.mpr matches_empty)
  · rintro db event next keys taken
    cases taken
    exact keyWrapsBare_serve wa keys event
  · rintro db event next keys sound taken
    cases taken
    rw [keyStateSound_iff]
    exact matches_serve_iff wa keys (keyStateSound_iff.mp sound) event

end Requests

section Blocked

/-- Alice's requests in the runs below. -/
def aliceCtx : AppCtx :=
  { claims := some { email := "alice@example.com", epoch := 0 }
    passkeyState := some "alice@example.com--------------------------------"
    now := 1 }

/-- Forty bytes, as a wrapped key has. -/
def wrapOf (byte : UInt8) : Bytes :=
  List.replicate WRAPPED_KEY_LEN byte

/-- An account that re-issues its encryption key before it has one. -/
def replaceBeforeEnable : List Event :=
  [.signUp "alice@example.com" 0,
    .request ⟨aliceCtx, .encryptionReplaceKeyWrap (wrapOf 1), none⟩]

/-- The stray wrap stays, and blocks turning encryption on for good. -/
theorem replaceBeforeEnable_breaks_key_state :
    ∃ db, runFrom (step plainWebauthn) Database.empty replaceBeforeEnable = some db ∧
      ¬ WrapsMatch db ∧ ¬ EnableSucceeds db ∧
      enableTransaction 1 none (wrapOf 2) 2 db = .error .uniqueViolation := by
  refine ⟨_, rfl, ?_, ?_, rfl⟩
  · intro holds
    have marked := (holds.encrypted_iff
      { id := 1, email := "alice@example.com", sessionEpoch := 0, createdAt := 0,
        encryptedAt := none } (List.mem_singleton.mpr rfl)).mpr rfl
    exact marked rfl
  · intro enableSucceeds
    obtain ⟨next, ran⟩ := enableSucceeds
      { id := 1, email := "alice@example.com", sessionEpoch := 0, createdAt := 0,
        encryptedAt := none } (List.mem_singleton.mpr rfl) rfl none (wrapOf 2) 2
    cases ran

end Blocked

/-! ## The last unlocking passkey -/

/-- Every passkey wrap of the account names a passkey of the account. -/
def Backed (db : Database) (userId : Int) : Prop :=
  ∀ row ∈ db.wraps, IsPasskeyWrap userId row →
    ∃ credentialId, row.credentialId = some credentialId ∧
      Enrolled db userId credentialId

/-- The account is encrypted and one of its passkeys can unlock it. -/
def Unlockable (db : Database) (userId : Int) : Prop :=
  Encrypted db userId ∧ ∃ credentialId, Enrolled db userId credentialId ∧
    ∃ row ∈ db.wraps, IsPasskeyWrap userId row ∧
      row.credentialId = some credentialId

/-- Whenever the request turns encryption on for this account with a passkey
wrap, the passkey is one of the account's by then. -/
def EnablesEnrolled (wa : Webauthn) (userId : Int) (db : Database) :
    Event → Prop
  | .signUp _ _ => True
  | .request request => ∀ credentialId met,
      (.enable userId (some credentialId), met) ∈ executed wa db request →
        ¬ Encrypted met userId → Enrolled met userId credentialId

/-- What the guard needs: wraps are backed, and stay so, and an unlockable
account stays unlockable. -/
def Guarded (userId : Int) (db next : Database) : Prop :=
  Backed next userId ∧ (Unlockable db userId → Unlockable next userId)

section Guard

variable {db next : Database} {userId : Int}

theorem Encrypted.mono (users : ∀ user ∈ db.users, user.encryptedAt ≠ none →
      ∃ user' ∈ next.users, user'.id = user.id ∧ user'.encryptedAt ≠ none)
    (encrypted : Encrypted db userId) : Encrypted next userId := by
  obtain ⟨user, hmem, hid, marked⟩ := encrypted
  obtain ⟨user', hmem', hid', marked'⟩ := users user hmem marked
  exact ⟨user', hmem', hid'.trans hid, marked'⟩

/-- Changes that take no passkey away and touch passkey wraps only by adding
backed ones. -/
theorem guarded_of_grows (backed : Backed db userId)
    (encrypted : Encrypted db userId → Encrypted next userId)
    (passkeys : ∀ row ∈ db.passkeys, row ∈ next.passkeys)
    (kept : ∀ row ∈ db.wraps, IsPasskeyWrap userId row → row ∈ next.wraps)
    (added : ∀ row ∈ next.wraps, IsPasskeyWrap userId row → row ∈ db.wraps ∨
      ∃ credentialId, row.credentialId = some credentialId ∧
        Enrolled db userId credentialId) :
    Guarded userId db next := by
  have enrolled : ∀ {credentialId}, Enrolled db userId credentialId →
      Enrolled next userId credentialId :=
    fun ⟨row, hrow, holds⟩ => ⟨row, passkeys row hrow, holds⟩
  constructor
  · intro row hrow mine
    rcases added row hrow mine with old | ⟨credentialId, filed, mine'⟩
    · obtain ⟨credentialId, filed, mine'⟩ := backed row old mine
      exact ⟨credentialId, filed, enrolled mine'⟩
    · exact ⟨credentialId, filed, enrolled mine'⟩
  · rintro ⟨marked, credentialId, mine, row, hrow, own, filed⟩
    exact ⟨encrypted marked, credentialId, enrolled mine, row, kept row hrow own,
      own, filed⟩

/-- A list without duplicates that has a member and two elements has another. -/
theorem exists_other {row : EntryKeyWrap} (hrow : row ∈ passkeyWraps db userId)
    (two : 2 ≤ (passkeyWraps db userId).length) :
    ∃ other ∈ passkeyWraps db userId, other ≠ row := by
  have distinct : (passkeyWraps db userId).Nodup := by
    refine ((db.wraps.distinct.filter _).filter _).imp ?_
    rintro first second apart rfl
    exact apart (.inl rfl)
  obtain ⟨other, hother⟩ := List.exists_mem_of_length_pos
    (l := (passkeyWraps db userId).erase row) (by
      rw [List.length_erase_of_mem hrow]
      omega)
  exact ⟨other, List.mem_of_mem_erase hother,
    (distinct.mem_erase_iff.mp hother).1⟩

/-- The guard of `passkey_delete` counts wraps; since every wrap is backed, a
second wrap is a second passkey that can unlock. -/
theorem guarded_of_deleted {owner : Int} {target : PasskeyRow}
    (backed : Backed db userId)
    (deleted : PasskeyDeleted db next owner target) :
    Guarded userId db next := by
  have keeps : ∀ {credentialId}, Enrolled db userId credentialId →
      (userId = owner → credentialId ≠ target.credentialId) →
      Enrolled next userId credentialId := by
    rintro credentialId ⟨row, hrow, huser, hcred⟩ other
    refine ⟨row, (deleted.passkeys row).mpr ⟨hrow, ?_⟩, huser, hcred⟩
    rintro ⟨same, howner⟩
    refine other (huser.symm.trans howner) ?_
    rw [← hcred, Table.eq_of_conflict PasskeyRow.conflict_symm hrow
      deleted.present (.inl same)]
  have keepsWrap : ∀ {row}, row ∈ db.wraps → IsPasskeyWrap userId row →
      (userId = owner → row.credentialId ≠ some target.credentialId) →
      row ∈ next.wraps := by
    intro row hrow mine other
    refine (deleted.wraps row).mpr ⟨hrow, ?_⟩
    rintro ⟨howner, filed⟩
    exact other (mine.1.symm.trans howner) filed
  constructor
  · intro row hrow mine
    obtain ⟨old, untouched⟩ := (deleted.wraps row).mp hrow
    obtain ⟨credentialId, filed, enrolled⟩ := backed row old mine
    refine ⟨credentialId, filed, keeps enrolled ?_⟩
    rintro rfl rfl
    exact untouched ⟨mine.1, filed⟩
  · rintro ⟨marked, credentialId, enrolled, row, hrow, mine, filed⟩
    have marked' := (encrypted_of_users deleted.users).mpr marked
    by_cases hit : userId = owner ∧ credentialId = target.credentialId
    · obtain ⟨rfl, rfl⟩ := hit
      have two := deleted.guard marked ⟨row, hrow, mine, filed⟩
      obtain ⟨other, hother, different⟩ :=
        exists_other (mem_passkeyWraps.mpr ⟨hrow, mine⟩) two
      obtain ⟨hother, mine'⟩ := mem_passkeyWraps.mp hother
      obtain ⟨credentialId', filed', enrolled'⟩ := backed other hother mine'
      have apart : credentialId' ≠ target.credentialId := by
        rintro rfl
        refine different (Table.eq_of_conflict EntryKeyWrap.conflict_symm hother
          hrow (.inr (.inl ⟨mine'.1.trans mine.1.symm, ?_, filed'.trans filed.symm⟩)))
        rw [filed']
        exact Option.some_ne_none _
      refine ⟨marked', credentialId', keeps enrolled' fun _ => apart, other,
        keepsWrap hother mine' fun _ same => ?_, mine', filed'⟩
      exact apart (Option.some.inj (filed'.symm.trans same))
    · have apart : userId = owner → credentialId ≠ target.credentialId :=
        fun howner same => hit ⟨howner, same⟩
      refine ⟨marked', credentialId, keeps enrolled apart, row,
        keepsWrap hrow mine fun howner same => ?_, mine, filed⟩
      exact apart howner (Option.some.inj (filed.symm.trans same))

theorem guarded_of_replaced {owner : Int} {wrappedKey : Bytes} {now : Timestamp}
    {value : Unit} (backed : Backed db userId)
    (ran : replaceEncryptionKeyWrap owner wrappedKey now db = .ok (value, next)) :
    Guarded userId db next := by
  rcases replaceEncryptionKeyWrap_eq_ok ran with ⟨rfl, -⟩ | replaced
  · exact ⟨backed, fun unlockable => unlockable⟩
  · obtain ⟨id, wraps⟩ := replaced.wraps
    refine guarded_of_grows backed (encrypted_of_users replaced.users).mpr ?_ ?_ ?_
    · exact fun row hrow => replaced.passkeys ▸ hrow
    · intro row hrow mine
      refine (wraps row).mpr (.inl ⟨hrow, fun key => ?_⟩)
      exact WrapKind.asStr_passkey_ne (mine.2.symm.trans key.2)
    · intro row hrow mine
      rcases (wraps row).mp hrow with ⟨old, -⟩ | rfl
      · exact .inl old
      · exact absurd mine.2.symm WrapKind.asStr_passkey_ne

theorem guarded_of_registered {owner : Int} {credentialId passkey : Bytes}
    {prfCapable : Bool} {now : Timestamp} {rowId : Int} (backed : Backed db userId)
    (ran : insertPasskey owner credentialId passkey prfCapable now db =
      .ok (rowId, next)) : Guarded userId db next := by
  obtain ⟨passkeys, users, -, wraps⟩ := insertPasskey_eq_ok ran
  exact guarded_of_grows backed (encrypted_of_users users).mpr passkeys
    (fun row hrow _ => wraps ▸ hrow) (fun row hrow _ => .inl (wraps ▸ hrow))

/-- One request keeps every passkey wrap of the account backed and the account
unlockable, unless it turns encryption on with a foreign passkey. -/
theorem guarded_serve (wa : Webauthn) (backed : Backed db userId) (event : Event)
    (meets : EnablesEnrolled wa userId db event) :
    Guarded userId db (serve wa db event) := by
  have stays : Guarded userId db db := ⟨backed, fun unlockable => unlockable⟩
  cases event with
  | signUp email now =>
      rcases signUp_cases wa db email now with same | ⟨row, created⟩
      · rw [same]
        exact stays
      · refine guarded_of_grows backed ?_ ?_ ?_ ?_
        · exact Encrypted.mono fun user hmem marked =>
            ⟨user, (created.users user).mpr (.inl hmem), rfl, marked⟩
        · exact fun row hrow => created.passkeys ▸ hrow
        · exact fun row hrow _ => created.wraps ▸ hrow
        · exact fun row hrow _ => .inl (created.wraps ▸ hrow)
  | request request =>
      obtain ⟨ctx, call, faultAt⟩ := request
      cases call with
      | encryptionEnable passkey encryptionKeyWrap =>
          refine (served wa ctx (.encryptionEnable passkey encryptionKeyWrap) faultAt
            (ensures_encryptionEnable ctx db passkey encryptionKeyWrap)).keeps stays ?_
          rintro me value next - wrote ran
          rcases enableTransaction_eq_ok ran with ⟨rfl, -⟩ | ⟨bare, -, -, enabled⟩
          · exact stays
          · obtain ⟨keyId, passkeyId, wraps⟩ := enabled.wraps
            refine guarded_of_grows backed ?_ ?_ ?_ ?_
            · refine Encrypted.mono fun user hmem marked =>
                ⟨_, (enabled.users _).mpr ⟨user, hmem, rfl⟩, ?_, ?_⟩
              · split <;> rfl
              · split
                · exact Option.some_ne_none _
                · exact marked
            · exact fun row hrow => enabled.passkeys ▸ hrow
            · exact fun row hrow _ => (wraps row).mpr (.inl hrow)
            · intro row hrow mine
              rcases (wraps row).mp hrow with old | rfl | ⟨dto, rfl, rfl⟩
              · exact .inl old
              · exact absurd mine.2.symm WrapKind.asStr_passkey_ne
              · refine .inr ⟨dto.credentialId, rfl, ?_⟩
                have owner : me.id = userId := mine.1
                subst owner
                exact meets dto.credentialId db
                  ((mem_iff_of_writes wrote rfl).mpr ⟨rfl, rfl⟩) bare
      | encryptionAddPasskeyWrap credentialId wrappedKey =>
          refine (served wa ctx (.encryptionAddPasskeyWrap credentialId wrappedKey) faultAt
            (ensures_encryptionAddPasskeyWrap ctx db credentialId
              wrappedKey)).keeps stays ?_
          rintro me value next ⟨-, -, enrolled, -, -⟩ - ran
          obtain ⟨id, inserted⟩ := Outcomes.wrapInserted ran
          refine guarded_of_grows backed (encrypted_of_users inserted.users).mpr
            ?_ ?_ ?_
          · exact fun row hrow => inserted.passkeys ▸ hrow
          · exact fun row hrow _ => (inserted.wraps row).mpr (.inl hrow)
          · intro row hrow mine
            rcases (inserted.wraps row).mp hrow with old | rfl
            · exact .inl old
            · have owner : me.id = userId := mine.1
              exact .inr ⟨credentialId, rfl, owner ▸ enrolled⟩
      | encryptionReplaceKeyWrap wrappedKey =>
          refine (served wa ctx (.encryptionReplaceKeyWrap wrappedKey) faultAt
            (ensures_encryptionReplaceKeyWrap ctx db wrappedKey)).keeps stays ?_
          rintro me value next - - ran
          exact guarded_of_replaced backed ran
      | passkeyRegisterFinish responseJson prfCapable =>
          refine (served wa ctx (.passkeyRegisterFinish responseJson prfCapable) faultAt
            (ensures_passkeyRegisterFinish ctx db wa responseJson
              prfCapable)).keeps stays ?_
          rintro me value next - - ran
          exact guarded_of_registered backed ran
      | passkeyDelete id =>
          refine (served wa ctx (.passkeyDelete id) faultAt
            (ensures_passkeyDelete ctx db id)).keeps stays ?_
          rintro me value next - - ran
          rcases deleteTransaction_eq_ok ran with ⟨rfl, -⟩ | ⟨target, -, -, deleted⟩
          · exact stays
          · exact guarded_of_deleted backed deleted
      | entrySave date body =>
          refine (served wa ctx (.entrySave date body) faultAt
            (ensures_entrySave ctx db date body)).keeps stays ?_
          rintro call value next - - ran
          rcases saveTransaction_eq_ok ran with ⟨rfl, -⟩ | ⟨-, -, saved⟩
          · exact stays
          · obtain ⟨-, users, passkeys, wraps⟩ := Database.upsertEntry_eq_ok saved
            exact guarded_of_grows backed (encrypted_of_users users).mpr
              (fun row hrow => passkeys ▸ hrow) (fun row hrow _ => wraps ▸ hrow)
              (fun row hrow _ => .inl (wraps ▸ hrow))

end Guard

/--
Once an encrypted account can be unlocked by one of its passkeys, it can be in
every later state, in every run in which the account turns encryption on with
no passkey wrap but for a passkey of its own.
-/
theorem unlockable_forever (wa : Webauthn) (userId : Int)
    (before after : List Event) {middle last : Database}
    (reached : runFrom (step wa) Database.empty before = some middle)
    (unlockable : Unlockable middle userId)
    (continued : runFrom (step wa) middle after = some last)
    (meets : StepsMeet (step wa) (EnablesEnrolled wa userId) Database.empty
      (before ++ after)) :
    Unlockable last userId := by
  obtain ⟨first, later⟩ := stepsMeet_append.mp meets
  have backed : Backed middle userId := by
    refine invariant_stepsMeet (I := fun db => Backed db userId) ?_
      (fun row hrow => absurd hrow (Table.not_mem_empty _)) first reached
    rintro db event next backed meets taken
    cases taken
    exact (guarded_serve wa backed event meets).1
  have kept : Backed last userId ∧ Unlockable last userId := by
    refine invariant_stepsMeet (I := fun db => Backed db userId ∧ Unlockable db userId)
      ?_ ⟨backed, unlockable⟩ (later middle reached) continued
    rintro db event next ⟨backed, unlockable⟩ meets taken
    cases taken
    obtain ⟨backed', stays⟩ := guarded_serve wa backed event meets
    exact ⟨backed', stays unlockable⟩
  exact kept.2

/-- Only turning encryption on with a passkey wrap can break the condition. -/
theorem enablesEnrolled_of_no_passkey (wa : Webauthn) {db : Database}
    {userId : Int} {event : Event}
    (other : ∀ ctx dto encryptionKeyWrap faultAt, event ≠
      .request ⟨ctx, .encryptionEnable (some dto) encryptionKeyWrap, faultAt⟩) :
    EnablesEnrolled wa userId db event := by
  cases event with
  | signUp email now => trivial
  | request request =>
      obtain ⟨ctx, call, faultAt⟩ := request
      intro credentialId met hmem
      cases call with
      | encryptionEnable passkey encryptionKeyWrap =>
          cases passkey with
          | some dto => exact absurd rfl (other ctx dto encryptionKeyWrap faultAt)
          | none =>
              obtain ⟨me, -, same, -⟩ := (served wa ctx
                (.encryptionEnable none encryptionKeyWrap) faultAt
                (ensures_encryptionEnable ctx db none encryptionKeyWrap)).executed_site
                  hmem rfl
              cases same
      | encryptionAddPasskeyWrap credentialId wrappedKey =>
          obtain ⟨me, -, same, -⟩ := (served wa ctx
            (.encryptionAddPasskeyWrap credentialId wrappedKey) faultAt
            (ensures_encryptionAddPasskeyWrap ctx db credentialId
              wrappedKey)).executed_site hmem rfl
          cases same
      | encryptionReplaceKeyWrap wrappedKey =>
          obtain ⟨me, -, same, -⟩ := (served wa ctx
            (.encryptionReplaceKeyWrap wrappedKey) faultAt
            (ensures_encryptionReplaceKeyWrap ctx db wrappedKey)).executed_site hmem rfl
          cases same
      | passkeyRegisterFinish responseJson prfCapable =>
          obtain ⟨call, -, same, -⟩ := (served wa ctx
            (.passkeyRegisterFinish responseJson prfCapable) faultAt
            (ensures_passkeyRegisterFinish ctx db wa responseJson
              prfCapable)).executed_site hmem rfl
          cases same
      | passkeyDelete id =>
          obtain ⟨me, -, same, -⟩ := (served wa ctx (.passkeyDelete id) faultAt
            (ensures_passkeyDelete ctx db id)).executed_site hmem rfl
          cases same
      | entrySave date body =>
          obtain ⟨call, -, same, -⟩ := (served wa ctx (.entrySave date body) faultAt
            (ensures_entrySave ctx db date body)).executed_site hmem rfl
          cases same

section LastPasskey

/-- Alice enrols the passkey `p`. -/
def enrolP : List Event :=
  [.signUp "alice@example.com" 0,
    .request ⟨aliceCtx, .passkeyRegisterFinish "p" true, none⟩]

/-- Turning encryption on without a passkey wrap, then giving `p` one. -/
def keyOnlyThenP : List Event :=
  enrolP ++ [.request ⟨aliceCtx, .encryptionEnable none (wrapOf 1), none⟩,
    .request ⟨aliceCtx, .encryptionAddPasskeyWrap (asciiBytes "p") (wrapOf 2), none⟩]

/-- Turning encryption on with a wrap for a credential nobody enrolled, then
giving `p` one. -/
def ghostThenP : List Event :=
  enrolP ++ [.request ⟨aliceCtx,
      .encryptionEnable (some ⟨asciiBytes "ghost", wrapOf 1⟩) (wrapOf 1), none⟩,
    .request ⟨aliceCtx, .encryptionAddPasskeyWrap (asciiBytes "p") (wrapOf 2), none⟩]

/-- Removing the passkey `p`. -/
def deleteP : List Event :=
  [.request ⟨aliceCtx, .passkeyDelete 1, none⟩]

/-- Alice's account once it is encrypted, and the row of `p`. -/
def encryptedAlice : User :=
  { id := 1, email := "alice@example.com", sessionEpoch := 0, createdAt := 0,
    encryptedAt := some 1 }

def rowOfP : PasskeyRow :=
  { id := 1, userId := 1, credentialId := asciiBytes "p",
    passkey := asciiBytes "p", name := none, prfCapable := true, createdAt := 1,
    lastUsedAt := none }

/-- Any database that holds these rows and a wrap for `p` can be unlocked by it. -/
theorem unlockable_by_p {db : Database} (wrapId : Int)
    (user : encryptedAlice ∈ db.users) (passkey : rowOfP ∈ db.passkeys)
    (wrap : storedWrap wrapId 1 .passkey (some (asciiBytes "p")) (wrapOf 2) 1 ∈
      db.wraps) : Unlockable db 1 :=
  ⟨⟨_, user, rfl, Option.some_ne_none _⟩, _, ⟨_, passkey, rfl, rfl⟩, _, wrap,
    ⟨rfl, rfl⟩, rfl⟩

/-- The protection at work: `p` is the last passkey, and stays. -/
theorem unlockable_forever_p :
    ∃ middle last, runFrom (step plainWebauthn) Database.empty keyOnlyThenP =
        some middle ∧
      runFrom (step plainWebauthn) middle deleteP = some last ∧
      Unlockable last 1 := by
  refine ⟨_, _, rfl, rfl, unlockable_forever plainWebauthn 1 keyOnlyThenP deleteP
    rfl ?_ rfl ?_⟩
  · exact unlockable_by_p 2 (List.mem_singleton.mpr rfl)
      (List.mem_singleton.mpr rfl)
      (List.mem_cons_of_mem _ (List.mem_singleton.mpr rfl))
  · refine stepsMeet_of_forall fun event hevent db =>
      enablesEnrolled_of_no_passkey plainWebauthn ?_
    rintro ctx dto encryptionKeyWrap faultAt rfl
    simp [keyOnlyThenP, enrolP, deleteP] at hevent

/-- With the ghost wrap the guard counts two, and lets the only passkey go. -/
theorem ghost_wrap_defeats_guard :
    ∃ middle last, runFrom (step plainWebauthn) Database.empty ghostThenP =
        some middle ∧ Unlockable middle 1 ∧
      runFrom (step plainWebauthn) middle deleteP = some last ∧
      ¬ Unlockable last 1 := by
  refine ⟨_, _, rfl, ?_, rfl, ?_⟩
  · exact unlockable_by_p 3 (List.mem_singleton.mpr rfl)
      (List.mem_singleton.mpr rfl)
      (List.mem_cons_of_mem _ (List.mem_cons_of_mem _ (List.mem_singleton.mpr rfl)))
  · rintro ⟨-, -, ⟨row, hrow, -⟩, -⟩
    exact List.not_mem_nil hrow

end LastPasskey

end TimeTracker.Server.Account
