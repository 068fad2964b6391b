import TimeTracker.Text
import TimeTracker.Crypto.Wire
import TimeTracker.Library.Indexed

/-!
# The database

The tables of the migrations with their unique indexes and foreign keys, and
the writes SQLite offers on them.  The indexes are part of the table types and
the foreign keys are fields of `Database`, so a state the schema forbids cannot
be built; a write that would lead to one is an error.
-/

namespace TimeTracker.Server.Schema

open TimeTracker.Text
open TimeTracker.Crypto.Wire
open TimeTracker.Library.Indexed

/-- A point in time, as the `TIMESTAMP` columns hold it. -/
abbrev Timestamp := Int

/-- Why a statement failed. -/
inductive DbError
  | unavailable
  | notFound
  | uniqueViolation
  | foreignKeyViolation
  | unrecognizedKind
  deriving DecidableEq, Repr

structure User where
  id : Int
  email : String
  sessionEpoch : Int
  createdAt : Timestamp
  encryptedAt : Option Timestamp
  deriving DecidableEq, Repr

structure TimeEntry where
  userId : Int
  entryDate : String
  body : String
  updatedAt : Timestamp
  deriving DecidableEq, Repr

structure PasskeyRow where
  id : Int
  userId : Int
  credentialId : Bytes
  passkey : Bytes
  name : Option String
  prfCapable : Bool
  createdAt : Timestamp
  lastUsedAt : Option Timestamp
  deriving DecidableEq, Repr

structure EntryKeyWrap where
  id : Int
  userId : Int
  kind : String
  credentialId : Option Bytes
  wrappedKey : Bytes
  kdf : String
  wrapAlg : String
  createdAt : Timestamp
  deriving DecidableEq, Repr

/-- The primary key and `idx_user_email`. -/
def User.Conflict (first second : User) : Prop :=
  first.id = second.id ∨ first.email = second.email

/-- The primary key `(user_id, entry_date)`. -/
def TimeEntry.Conflict (first second : TimeEntry) : Prop :=
  first.userId = second.userId ∧ first.entryDate = second.entryDate

/-- The primary key and `idx_passkey_credential_id`. -/
def PasskeyRow.Conflict (first second : PasskeyRow) : Prop :=
  first.id = second.id ∨ first.credentialId = second.credentialId

/-- The primary key, `idx_entry_key_wrap_cred` and
`idx_entry_key_wrap_one_encryption_key`. -/
def EntryKeyWrap.Conflict (first second : EntryKeyWrap) : Prop :=
  first.id = second.id ∨
    (first.userId = second.userId ∧ first.credentialId ≠ none ∧
      first.credentialId = second.credentialId) ∨
    (first.userId = second.userId ∧
      first.kind = WrapKind.encryptionKey.asStr ∧
      second.kind = WrapKind.encryptionKey.asStr)

instance : DecidableRel User.Conflict := fun first second =>
  inferInstanceAs (Decidable (first.id = second.id ∨ first.email = second.email))

instance : DecidableRel TimeEntry.Conflict := fun first second =>
  inferInstanceAs (Decidable (first.userId = second.userId ∧
    first.entryDate = second.entryDate))

instance : DecidableRel PasskeyRow.Conflict := fun first second =>
  inferInstanceAs (Decidable (first.id = second.id ∨
    first.credentialId = second.credentialId))

instance : DecidableRel EntryKeyWrap.Conflict := fun first second =>
  inferInstanceAs (Decidable (first.id = second.id ∨
    (first.userId = second.userId ∧ first.credentialId ≠ none ∧
      first.credentialId = second.credentialId) ∨
    (first.userId = second.userId ∧
      first.kind = WrapKind.encryptionKey.asStr ∧
      second.kind = WrapKind.encryptionKey.asStr)))

theorem User.conflict_symm (first second : User)
    (conflict : User.Conflict first second) : User.Conflict second first :=
  conflict.imp Eq.symm Eq.symm

theorem TimeEntry.conflict_symm (first second : TimeEntry)
    (conflict : TimeEntry.Conflict first second) :
    TimeEntry.Conflict second first :=
  conflict.imp Eq.symm Eq.symm

theorem PasskeyRow.conflict_symm (first second : PasskeyRow)
    (conflict : PasskeyRow.Conflict first second) :
    PasskeyRow.Conflict second first :=
  conflict.imp Eq.symm Eq.symm

theorem EntryKeyWrap.conflict_symm (first second : EntryKeyWrap)
    (conflict : EntryKeyWrap.Conflict first second) :
    EntryKeyWrap.Conflict second first := by
  rcases conflict with same | ⟨user, present, same⟩ | ⟨user, hfirst, hsecond⟩
  · exact .inl same.symm
  · exact .inr (.inl ⟨user.symm, same ▸ present, same.symm⟩)
  · exact .inr (.inr ⟨user.symm, hsecond, hfirst⟩)

/-! ## The database -/

/-- The tables, with the foreign keys on `user(id)`. -/
structure Database where
  users : Table User User.Conflict
  entries : Table TimeEntry TimeEntry.Conflict
  passkeys : Table PasskeyRow PasskeyRow.Conflict
  wraps : Table EntryKeyWrap EntryKeyWrap.Conflict
  entries_user : ∀ row ∈ entries, ∃ user ∈ users, user.id = row.userId
  passkeys_user : ∀ row ∈ passkeys, ∃ user ∈ users, user.id = row.userId
  wraps_user : ∀ row ∈ wraps, ∃ user ∈ users, user.id = row.userId

namespace Database

/-- The freshly migrated database. -/
def empty : Database where
  users := .empty
  entries := .empty
  passkeys := .empty
  wraps := .empty
  entries_user := fun _ hrow => absurd hrow (Table.not_mem_empty _)
  passkeys_user := fun _ hrow => absurd hrow (Table.not_mem_empty _)
  wraps_user := fun _ hrow => absurd hrow (Table.not_mem_empty _)

/-- The primary key SQLite gives the next row. -/
def nextId (ids : List Int) : Int :=
  ids.foldr max 0 + 1

theorem lt_nextId {ids : List Int} {id : Int} (hid : id ∈ ids) :
    id < nextId ids := by
  unfold nextId
  induction ids with
  | nil => cases hid
  | cons first rest ih =>
      rw [List.foldr_cons]
      rcases List.mem_cons.mp hid with rfl | later
      · omega
      · have := ih later
        omega

/-- The row with this primary key. -/
def user? (db : Database) (userId : Int) : Option User :=
  db.users.rows.find? fun user => user.id = userId

theorem user?_eq_some {db : Database} {userId : Int} {user : User} :
    db.user? userId = some user ↔ user ∈ db.users ∧ user.id = userId := by
  constructor
  · intro found
    refine ⟨List.mem_of_find?_eq_some found, ?_⟩
    simpa using List.find?_some found
  · rintro ⟨hmem, hid⟩
    cases found : db.user? userId with
    | none =>
        have absent := List.find?_eq_none.mp found user hmem
        exact absurd (decide_eq_true hid) absent
    | some other =>
        have hother := List.mem_of_find?_eq_some found
        have hid' : other.id = userId := by
          simpa using List.find?_some found
        rw [Table.eq_of_conflict User.conflict_symm hother hmem
          (.inl (hid'.trans hid.symm))]

/-- Insert an account; the email index may refuse it. -/
def insertUser (db : Database) (email : String) (now : Timestamp) :
    Except DbError Database :=
  match hinsert : db.users.insert?
      { id := nextId (db.users.rows.map User.id), email, sessionEpoch := 0,
        createdAt := now, encryptedAt := none } with
  | none => .error .uniqueViolation
  | some users => .ok { db with
      users
      entries_user := fun row hrow =>
        let ⟨user, hmem, hid⟩ := db.entries_user row hrow
        ⟨user, (Table.mem_insert hinsert).mpr (.inl hmem), hid⟩
      passkeys_user := fun row hrow =>
        let ⟨user, hmem, hid⟩ := db.passkeys_user row hrow
        ⟨user, (Table.mem_insert hinsert).mpr (.inl hmem), hid⟩
      wraps_user := fun row hrow =>
        let ⟨user, hmem, hid⟩ := db.wraps_user row hrow
        ⟨user, (Table.mem_insert hinsert).mpr (.inl hmem), hid⟩ }

/-- Rewrite the non-key columns of one account. -/
def updateUser (db : Database) (userId : Int) (change : User → User)
    (keeps : ∀ user, (change user).id = user.id ∧
      (change user).email = user.email) : Database :=
  let rewrite := fun user : User => if user.id = userId then change user else user
  have same : ∀ user, (rewrite user).id = user.id ∧
      (rewrite user).email = user.email := by
    intro user
    by_cases here : user.id = userId
    · simpa only [rewrite, here, if_true] using keeps user
    · simp only [rewrite, here, if_false, and_self]
  have present : ∀ {userId : Int}, (∃ user ∈ db.users, user.id = userId) →
      ∀ keeps, ∃ user ∈ db.users.update rewrite keeps, user.id = userId :=
    fun ⟨user, hmem, hid⟩ keeps =>
      ⟨rewrite user, Table.mem_update.mpr ⟨user, hmem, rfl⟩,
        (same user).1.trans hid⟩
  { db with
    users := db.users.update rewrite fun first second conflict => by
      simpa only [User.Conflict, (same first).1, (same first).2,
        (same second).1, (same second).2] using conflict
    entries_user := fun row hrow => present (db.entries_user row hrow) _
    passkeys_user := fun row hrow => present (db.passkeys_user row hrow) _
    wraps_user := fun row hrow => present (db.wraps_user row hrow) _ }

/-- What `DO UPDATE SET body, updated_at` makes of an old row. -/
def overwrite (row old : TimeEntry) : TimeEntry :=
  if old.Conflict row then
    { old with body := row.body, updatedAt := row.updatedAt }
  else old

@[simp] theorem overwrite_userId (row old : TimeEntry) :
    (overwrite row old).userId = old.userId := by
  unfold overwrite
  split <;> rfl

@[simp] theorem overwrite_entryDate (row old : TimeEntry) :
    (overwrite row old).entryDate = old.entryDate := by
  unfold overwrite
  split <;> rfl

/-- `INSERT ... ON CONFLICT (user_id, entry_date) DO UPDATE`. -/
def upsertEntry (db : Database) (row : TimeEntry) : Except DbError Database :=
  if ∃ old ∈ db.entries.rows, old.Conflict row then
    .ok { db with
      entries := db.entries.update (overwrite row) fun first second conflict => by
        simpa only [TimeEntry.Conflict, overwrite_userId, overwrite_entryDate]
          using conflict
      entries_user := fun new hnew =>
        let ⟨old, hold, hnew⟩ := Table.mem_update.mp hnew
        let ⟨user, hmem, hid⟩ := db.entries_user old hold
        ⟨user, hmem, by rw [← hnew, overwrite_userId, hid]⟩ }
  else if huser : ∃ user ∈ db.users.rows, user.id = row.userId then
    match hinsert : db.entries.insert? row with
    | none => .error .uniqueViolation
    | some entries => .ok { db with
        entries
        entries_user := fun new hnew =>
          ((Table.mem_insert hinsert).mp hnew).elim
            (db.entries_user new) (fun same => same ▸ huser) }
  else .error .foreignKeyViolation

/-- Insert a passkey row; `id` is chosen here. -/
def insertPasskey (db : Database) (row : PasskeyRow) :
    Except DbError Database :=
  let new := { row with id := nextId (db.passkeys.rows.map PasskeyRow.id) }
  if huser : ∃ user ∈ db.users.rows, user.id = row.userId then
    match hinsert : db.passkeys.insert? new with
    | none => .error .uniqueViolation
    | some passkeys => .ok { db with
        passkeys
        passkeys_user := fun other hother =>
          ((Table.mem_insert hinsert).mp hother).elim
            (db.passkeys_user other) (fun same => same ▸ huser) }
  else .error .foreignKeyViolation

/-- `DELETE FROM passkey_credential WHERE ...`. -/
def deletePasskeys (db : Database) (selects : PasskeyRow → Bool) : Database :=
  { db with
    passkeys := db.passkeys.deleteWhere selects
    passkeys_user := fun row hrow =>
      db.passkeys_user row (Table.mem_deleteWhere.mp hrow).1 }

/-- Insert a wrap; `id` is chosen here. -/
def insertWrap (db : Database) (row : EntryKeyWrap) : Except DbError Database :=
  let new := { row with id := nextId (db.wraps.rows.map EntryKeyWrap.id) }
  if huser : ∃ user ∈ db.users.rows, user.id = row.userId then
    match hinsert : db.wraps.insert? new with
    | none => .error .uniqueViolation
    | some wraps => .ok { db with
        wraps
        wraps_user := fun other hother =>
          ((Table.mem_insert hinsert).mp hother).elim
            (db.wraps_user other) (fun same => same ▸ huser) }
  else .error .foreignKeyViolation

/-- `DELETE FROM entry_key_wrap WHERE ...`. -/
def deleteWraps (db : Database) (selects : EntryKeyWrap → Bool) : Database :=
  { db with
    wraps := db.wraps.deleteWhere selects
    wraps_user := fun row hrow =>
      db.wraps_user row (Table.mem_deleteWhere.mp hrow).1 }

/-- Rewrite the non-key columns of one passkey row. -/
def updatePasskey (db : Database) (id : Int) (passkey : Bytes)
    (lastUsedAt : Timestamp) : Database :=
  let rewrite := fun row : PasskeyRow =>
    if row.id = id then { row with passkey, lastUsedAt := some lastUsedAt } else row
  have same : ∀ row, (rewrite row).id = row.id ∧
      (rewrite row).credentialId = row.credentialId ∧
      (rewrite row).userId = row.userId := by
    intro row
    by_cases here : row.id = id <;>
      simp only [rewrite, here, if_true, if_false, and_self]
  { db with
    passkeys := db.passkeys.update rewrite fun first second conflict => by
      simpa only [PasskeyRow.Conflict, (same first).1, (same first).2.1,
        (same second).1, (same second).2.1] using conflict
    passkeys_user := fun new hnew =>
      let ⟨old, hold, hnew⟩ := Table.mem_update.mp hnew
      let ⟨user, hmem, hid⟩ := db.passkeys_user old hold
      ⟨user, hmem, by rw [← hnew, (same old).2.2, hid]⟩ }

/-! ## What each write does -/

/-- A user row exists for this id. -/
def HasUser (db : Database) (userId : Int) : Prop :=
  ∃ user ∈ db.users, user.id = userId

/-- The row a new account is stored as. -/
def newUser (db : Database) (email : String) (now : Timestamp) : User :=
  { id := nextId (db.users.rows.map User.id), email, sessionEpoch := 0,
    createdAt := now, encryptedAt := none }

/-- The account is added at the end of its table, and the rest is as it was. -/
structure Registered (db next : Database) (user : User) : Prop where
  users : next.users.rows = db.users.rows ++ [user]
  entries : next.entries = db.entries
  passkeys : next.passkeys = db.passkeys
  wraps : next.wraps = db.wraps

theorem Registered.mem_users {db next : Database} {user : User}
    (registered : Registered db next user) {other : User} :
    other ∈ next.users ↔ other ∈ db.users ∨ other = user := by
  rw [Table.mem_def, registered.users, List.mem_append, List.mem_singleton]
  exact Iff.rfl

/-- An address no account has is not refused. -/
theorem insertUser_of_absent {db : Database} {email : String}
    (absent : ∀ user ∈ db.users, user.email ≠ email) (now : Timestamp) :
    ∃ next, db.insertUser email now = .ok next ∧
      Registered db next (db.newUser email now) := by
  have free : ∀ old ∈ db.users, ¬ User.Conflict old (db.newUser email now) := by
    rintro old member (same | same)
    · have below := lt_nextId (List.mem_map_of_mem (f := User.id) member)
      exact absurd same (Int.ne_of_lt below)
    · exact absent old member same
  obtain ⟨users, inserted⟩ := Table.insert?_isSome free
  unfold insertUser
  split
  · next refused => cases refused.symm.trans inserted
  · next users' inserted' =>
      exact ⟨_, rfl, (Table.insert?_eq_some.mp inserted').2, rfl, rfl, rfl⟩

/-- The next account's id is not in use. -/
theorem nextId_fresh (db : Database) :
    ¬ db.HasUser (nextId (db.users.rows.map User.id)) := by
  rintro ⟨user, hmem, hid⟩
  have below := lt_nextId (List.mem_map_of_mem (f := User.id) hmem)
  omega

theorem mem_updateUser {db : Database} {userId : Int} {change : User → User}
    {keeps : ∀ user, (change user).id = user.id ∧
      (change user).email = user.email} {user : User} :
    user ∈ (db.updateUser userId change keeps).users ↔
      ∃ old ∈ db.users, (if old.id = userId then change old else old) = user :=
  List.mem_map

theorem hasUser_updateUser {db : Database} {userId other : Int}
    {change : User → User} {keeps : ∀ user, (change user).id = user.id ∧
      (change user).email = user.email} :
    (db.updateUser userId change keeps).HasUser other ↔ db.HasUser other := by
  constructor
  · rintro ⟨user, hmem, hid⟩
    obtain ⟨old, hold, rfl⟩ := mem_updateUser.mp hmem
    refine ⟨old, hold, ?_⟩
    split at hid
    · rw [← hid, (keeps old).1]
    · exact hid
  · rintro ⟨user, hmem, hid⟩
    refine ⟨_, mem_updateUser.mpr ⟨user, hmem, rfl⟩, ?_⟩
    split
    · rw [(keeps user).1, hid]
    · exact hid

theorem upsertEntry_eq_ok {db next : Database} {row : TimeEntry}
    (saved : db.upsertEntry row = .ok next) :
    (∀ entry, entry ∈ next.entries →
      (∃ old ∈ db.entries, overwrite row old = entry) ∨ entry = row) ∧
    next.users = db.users ∧ next.passkeys = db.passkeys ∧
      next.wraps = db.wraps := by
  unfold upsertEntry at saved
  split at saved
  · cases saved
    exact ⟨fun entry hentry => .inl (List.mem_map.mp hentry), rfl, rfl, rfl⟩
  · rename_i fresh
    split at saved
    · split at saved
      · cases saved
      · rename_i entries hinsert
        cases saved
        refine ⟨fun entry hentry => ?_, rfl, rfl, rfl⟩
        rcases (Table.mem_insert hinsert).mp hentry with old | new
        · refine .inl ⟨entry, old, ?_⟩
          unfold overwrite
          rw [if_neg fun conflict => fresh ⟨entry, old, conflict⟩]
        · exact .inr new
    · cases saved

/-- The account of an entry after a save had one before, or is the saver. -/
theorem userId_of_mem_upsertEntry {db next : Database} {row entry : TimeEntry}
    (saved : db.upsertEntry row = .ok next) (hentry : entry ∈ next.entries) :
    (∃ old ∈ db.entries, old.userId = entry.userId) ∨
      entry.userId = row.userId := by
  rcases (upsertEntry_eq_ok saved).1 entry hentry with ⟨old, hold, rfl⟩ | rfl
  · exact .inl ⟨old, hold, (overwrite_userId row old).symm⟩
  · exact .inr rfl

theorem insertPasskey_eq_ok {db next : Database} {row : PasskeyRow}
    (inserted : db.insertPasskey row = .ok next) :
    (∀ other, other ∈ next.passkeys ↔ other ∈ db.passkeys ∨
      other = { row with id := nextId (db.passkeys.rows.map PasskeyRow.id) }) ∧
    next.users = db.users ∧ next.entries = db.entries ∧
      next.wraps = db.wraps := by
  unfold insertPasskey at inserted
  dsimp only at inserted
  split at inserted
  · split at inserted
    · cases inserted
    · rename_i passkeys hinsert
      cases inserted
      exact ⟨fun other => Table.mem_insert hinsert, rfl, rfl, rfl⟩
  · cases inserted

theorem insertWrap_eq_ok {db next : Database} {row : EntryKeyWrap}
    (inserted : db.insertWrap row = .ok next) :
    (∀ other, other ∈ next.wraps ↔ other ∈ db.wraps ∨
      other = { row with id := nextId (db.wraps.rows.map EntryKeyWrap.id) }) ∧
    next.users = db.users ∧ next.entries = db.entries ∧
      next.passkeys = db.passkeys := by
  unfold insertWrap at inserted
  dsimp only at inserted
  split at inserted
  · split at inserted
    · cases inserted
    · rename_i wraps hinsert
      cases inserted
      exact ⟨fun other => Table.mem_insert hinsert, rfl, rfl, rfl⟩
  · cases inserted

/-- The two partial indexes of `entry_key_wrap` have room for a row. -/
def RoomFor (db : Database) (userId : Int) (kind : String)
    (credentialId : Option Bytes) : Prop :=
  ∀ old ∈ db.wraps, old.userId = userId →
    (credentialId ≠ none → old.credentialId ≠ credentialId) ∧
    (kind = WrapKind.encryptionKey.asStr →
      old.kind ≠ WrapKind.encryptionKey.asStr)

/-- An insert goes through exactly when the account exists and the two partial
indexes have room; the primary key is always free. -/
theorem insertWrap_isOk (db : Database) (row : EntryKeyWrap) :
    (∃ next, db.insertWrap row = .ok next) ↔
      db.HasUser row.userId ∧
        db.RoomFor row.userId row.kind row.credentialId := by
  unfold insertWrap
  dsimp only
  constructor
  · rintro ⟨next, inserted⟩
    split at inserted
    · rename_i huser
      refine ⟨huser, ?_⟩
      split at inserted
      · cases inserted
      · rename_i wraps hinsert
        intro old hold same
        have apart := (Table.insert?_eq_some.mp hinsert).1 old hold
        refine ⟨fun present clash => apart (.inr (.inl ⟨same, ?_, clash⟩)),
          fun key clash => apart (.inr (.inr ⟨same, clash, key⟩))⟩
        rw [clash]
        exact present
    · cases inserted
  · rintro ⟨huser, room⟩
    have huser' : ∃ user ∈ db.users.rows, user.id = row.userId := huser
    rw [dif_pos huser']
    split
    · rename_i hinsert
      have free : ∀ old ∈ db.wraps, ¬ old.Conflict
          { row with id := nextId (db.wraps.rows.map EntryKeyWrap.id) } := by
        rintro old hold (same | ⟨same, present, clash⟩ | ⟨same, hold', hnew⟩)
        · have below := lt_nextId (List.mem_map_of_mem (f := EntryKeyWrap.id) hold)
          have same' : old.id = nextId (db.wraps.rows.map EntryKeyWrap.id) := same
          omega
        · exact (room old hold same).1 (clash ▸ present) clash
        · exact (room old hold same).2 hnew hold'
      obtain ⟨wraps, accepted⟩ := Table.insert?_isSome free
      rw [accepted] at hinsert
      cases hinsert
    · exact ⟨_, rfl⟩

theorem rows_insertWrap {db next : Database} {row : EntryKeyWrap}
    (inserted : db.insertWrap row = .ok next) :
    next.wraps.rows = db.wraps.rows ++
      [{ row with id := nextId (db.wraps.rows.map EntryKeyWrap.id) }] := by
  unfold insertWrap at inserted
  dsimp only at inserted
  split at inserted
  · split at inserted
    · cases inserted
    · rename_i wraps hinsert
      cases inserted
      exact (Table.insert?_eq_some.mp hinsert).2
  · cases inserted

/-- An insert the partial indexes have no room for. -/
theorem insertWrap_eq_error {db : Database} {row : EntryKeyWrap}
    (known : db.HasUser row.userId)
    (full : ¬ db.RoomFor row.userId row.kind row.credentialId) :
    db.insertWrap row = .error .uniqueViolation := by
  cases outcome : db.insertWrap row with
  | ok next => exact absurd ((db.insertWrap_isOk row).mp ⟨next, outcome⟩).2 full
  | error failure =>
      unfold insertWrap at outcome
      dsimp only at outcome
      split at outcome
      · split at outcome
        · cases outcome
          rfl
        · cases outcome
      · next unknown => exact absurd known unknown

@[simp] theorem mem_deleteWraps {db : Database} {selects : EntryKeyWrap → Bool}
    {row : EntryKeyWrap} :
    row ∈ (db.deleteWraps selects).wraps ↔
      row ∈ db.wraps ∧ selects row = false :=
  Table.mem_deleteWhere

@[simp] theorem mem_deletePasskeys {db : Database}
    {selects : PasskeyRow → Bool} {row : PasskeyRow} :
    row ∈ (db.deletePasskeys selects).passkeys ↔
      row ∈ db.passkeys ∧ selects row = false :=
  Table.mem_deleteWhere

end Database

/-! ## The accounts over time -/

/-- Accounts keep their ids and addresses. -/
def KeepsUsers (before after : Database) : Prop :=
  ∀ user ∈ before.users, ∃ user' ∈ after.users, user'.id = user.id ∧ user'.email = user.email

theorem KeepsUsers.refl (db : Database) : KeepsUsers db db :=
  fun user member => ⟨user, member, rfl, rfl⟩

theorem KeepsUsers.trans {first middle last : Database} (left : KeepsUsers first middle)
    (right : KeepsUsers middle last) : KeepsUsers first last := by
  intro user member
  obtain ⟨between, present, id, email⟩ := left user member
  obtain ⟨later, present', id', email'⟩ := right between present
  exact ⟨later, present', id'.trans id, email'.trans email⟩

theorem KeepsUsers.of_users {before after : Database} (users : after.users = before.users) :
    KeepsUsers before after :=
  fun user member => ⟨user, users ▸ member, rfl, rfl⟩

end TimeTracker.Server.Schema
