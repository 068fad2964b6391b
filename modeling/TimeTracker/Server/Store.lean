import TimeTracker.Server.Schema
import TimeTracker.Date
import Mathlib.Data.List.Sort

/-!
# The repositories

One function for each query the server runs: accounts, wrapped data keys,
passkeys and day entries.  A function is a statement that either commits with
an answer or fails and is rolled back, so composing several of them composes
the body of a transaction.
-/

namespace TimeTracker.Server.Store

open TimeTracker.Text
open TimeTracker.Crypto.Wire
open TimeTracker.Date
open TimeTracker.Library.Indexed
open TimeTracker.Server.Schema

/-- A statement, or the body of a transaction. -/
abbrev Sql := StateT Database (Except DbError)

/-! ## Accounts -/

/-- Trims and lowercases, and rejects addresses that cannot be real. -/
def normalizeEmail (raw : String) : Option String :=
  let trimmed := (trim raw.toList).map Char.toLower
  if trimmed.isEmpty || trimmed.any isWhitespace then none
  else
    match splitOnce '@' trimmed with
    | none => none
    | some (localPart, domain) =>
        if localPart.isEmpty || domain.isEmpty || !domain.contains '.' ||
          domain.contains '@' then none
        else some (String.ofList trimmed)

/-- One at sign with something before it and a dot after it, no white space and no
ASCII capitals. -/
structure Address (email : String) : Prop where
  oneAt : email.toList.count '@' = 1
  parts : ∃ localPart domain, email.toList = localPart ++ '@' :: domain ∧ localPart ≠ [] ∧
    '.' ∈ domain
  plain : ∀ c ∈ email.toList, isWhitespace c = false
  lower : ∀ c ∈ email.toList, c.isUpper = false

theorem normalizeEmail_eq_some {raw email : String} :
    normalizeEmail raw = some email ↔
      email.toList = (trim raw.toList).map Char.toLower ∧ Address email := by
  unfold normalizeEmail
  dsimp only
  constructor
  · intro normalized
    split at normalized
    · cases normalized
    · next plain =>
        split at normalized
        · cases normalized
        · next localPart domain found =>
            obtain ⟨shape, before⟩ := splitOnce_eq_some.mp found
            split at normalized
            · cases normalized
            · next sound =>
                cases normalized
                simp only [Bool.or_eq_true, not_or, List.isEmpty_iff, Bool.not_eq_true',
                  Bool.not_eq_false, List.contains_iff_mem] at sound plain
                obtain ⟨⟨⟨named, -⟩, dotted⟩, after⟩ := sound
                rw [String.toList_ofList]
                refine ⟨rfl, ?_, ⟨localPart, domain, ?_, named, dotted⟩, ?_, ?_⟩
                · rw [String.toList_ofList, shape, List.count_append, List.count_cons_self,
                    List.count_eq_zero.mpr before, List.count_eq_zero.mpr after]
                · rw [String.toList_ofList, shape]
                · rw [String.toList_ofList]
                  simpa using plain.2
                · rw [String.toList_ofList]
                  intro c member
                  obtain ⟨old, -, rfl⟩ := List.mem_map.mp member
                  exact isUpper_toLower old
  · rintro ⟨chars, address⟩
    obtain ⟨localPart, domain, shape, named, dotted⟩ := address.parts
    have counted := address.oneAt
    rw [shape, List.count_append, List.count_cons_self] at counted
    have before : '@' ∉ localPart := List.count_eq_zero.mp (by omega)
    have after : '@' ∉ domain := List.count_eq_zero.mp (by omega)
    have split : splitOnce '@' email.toList = some (localPart, domain) :=
      splitOnce_eq_some.mpr ⟨shape, before⟩
    have plain : email.toList.any isWhitespace = false := by
      simpa using address.plain
    have some : email.toList.isEmpty = false := by simp [shape]
    rw [← chars, some, plain, split]
    have domain_some : domain ≠ [] := List.ne_nil_of_mem dotted
    simp [named, dotted, after, domain_some]

/-- An address is normalized. -/
theorem Address.normalizeEmail_self {email : String} (address : Address email) :
    normalizeEmail email = some email := by
  refine normalizeEmail_eq_some.mpr ⟨?_, address⟩
  rw [trim_of_absent address.plain]
  conv_lhs => rw [← List.map_id email.toList]
  exact List.map_congr_left fun c member => (toLower_of_lower (address.lower c member)).symm

/-- A normalized address is normalized. -/
theorem normalizeEmail_idem {raw email : String}
    (normalized : normalizeEmail raw = some email) :
    normalizeEmail email = some email :=
  (normalizeEmail_eq_some.mp normalized).2.normalizeEmail_self

def userByEmail (db : Database) (email : String) : Option User :=
  db.users.rows.find? fun user => user.email = email

theorem mem_of_userByEmail {db : Database} {email : String} {user : User}
    (found : userByEmail db email = some user) :
    user ∈ db.users ∧ user.email = email := by
  refine ⟨List.mem_of_find?_eq_some found, ?_⟩
  simpa using List.find?_some found

def findByEmail (email : String) : Sql (Option User) := fun db =>
  match normalizeEmail email with
  | none => .ok (none, db)
  | some normalized => .ok (userByEmail db normalized, db)

/-- Returns the existing account for `email`, creating one if absent. -/
def findOrCreate (email : String) (now : Timestamp) : Sql User := fun db =>
  match normalizeEmail email with
  | none => .error .notFound
  | some normalized =>
      match userByEmail db normalized with
      | some found => .ok (found, db)
      | none => do
          let next ← db.insertUser normalized now
          match userByEmail next normalized with
          | some found => .ok (found, next)
          | none => .error .notFound

/-- What an address finds or makes: nothing if it is none, else the account that has it, or
a new one at the end of the table. -/
theorem findOrCreate_cases (email : String) (now : Timestamp) (db : Database) :
    (normalizeEmail email = none ∧ findOrCreate email now db = .error .notFound) ∨
    ∃ normalized, normalizeEmail email = some normalized ∧
      ((∃ user, userByEmail db normalized = some user ∧
          findOrCreate email now db = .ok (user, db)) ∨
        userByEmail db normalized = none ∧
          ∃ next, findOrCreate email now db = .ok (db.newUser normalized now, next) ∧
            db.Registered next (db.newUser normalized now)) := by
  unfold findOrCreate
  cases named : normalizeEmail email with
  | none => exact Or.inl ⟨rfl, rfl⟩
  | some normalized =>
      refine Or.inr ⟨normalized, rfl, ?_⟩
      cases found : userByEmail db normalized with
      | some user => exact Or.inl ⟨user, rfl, by simp only [found]⟩
      | none =>
          have absent : ∀ user ∈ db.users.rows, user.email ≠ normalized := by
            simpa [userByEmail] using found
          obtain ⟨next, inserted, registered⟩ := Database.insertUser_of_absent absent now
          have search : userByEmail next normalized = some (db.newUser normalized now) := by
            have here : db.users.rows.find? (fun user => user.email = normalized) = none := found
            rw [userByEmail, registered.users, List.find?_append, here]
            simp [Database.newUser]
          exact Or.inr ⟨rfl, next, by simp [found, inserted, search, bind, Except.bind], registered⟩

/-- Invalidates every session token already issued to this user. -/
def bumpEpoch (userId : Int) : Sql Unit := fun db =>
  .ok ((), db.updateUser userId
    (fun user => { user with sessionEpoch := user.sessionEpoch + 1 })
    fun _ => ⟨rfl, rfl⟩)

/-! ## Wrapped data keys -/

/-- A wrap row's public read shape. -/
structure WrapRow where
  kind : WrapKind
  credentialId : Option Bytes
  wrappedKey : Bytes
  kdf : String
  wrapAlg : String
  deriving DecidableEq, Repr

/-- The read shape of a stored row, if this build knows its kind. -/
def intoWrapRow (record : EntryKeyWrap) : Except DbError WrapRow :=
  match WrapKind.parse record.kind with
  | none => .error .unrecognizedKind
  | some kind => .ok
      { kind, credentialId := record.credentialId,
        wrappedKey := record.wrappedKey, kdf := record.kdf,
        wrapAlg := record.wrapAlg }

/-- The row a new wrap is stored as. -/
def newWrap (userId : Int) (kind : WrapKind) (credentialId : Option Bytes)
    (wrappedKey : Bytes) (now : Timestamp) : EntryKeyWrap :=
  { id := 0, userId, kind := kind.asStr, credentialId, wrappedKey,
    kdf := KDF_HKDF_SHA256, wrapAlg := WRAP_ALG_AESKW256, createdAt := now }

/-- Inserts one route to the account's data key. -/
def insertWrap (userId : Int) (kind : WrapKind) (credentialId : Option Bytes)
    (wrappedKey : Bytes) (now : Timestamp) : Sql Unit := fun db =>
  (db.insertWrap (newWrap userId kind credentialId wrappedKey now)).map
    fun next => ((), next)

/-- Marks the account as switched to client-side encryption. -/
def setEncrypted (userId : Int) (now : Timestamp) : Sql Unit := fun db =>
  .ok ((), db.updateUser userId
    (fun user => { user with encryptedAt := some now }) fun _ => ⟨rfl, rfl⟩)

/-- Whether the account's entries are ciphertext. -/
def isEncrypted (userId : Int) : Sql Bool := fun db =>
  match db.user? userId with
  | none => .error .notFound
  | some user => .ok (user.encryptedAt.isSome, db)

/-- The rows `list_wraps` reads. -/
def wrapsOf (db : Database) (userId : Int) : List EntryKeyWrap :=
  db.wraps.rows.filter fun row => row.userId = userId

/-- All routes to the account's data key. -/
def listWraps (userId : Int) : Sql (List WrapRow) := fun db =>
  ((wrapsOf db userId).mapM intoWrapRow).map fun rows => (rows, db)

def hasWrapForCredential (userId : Int) (credentialId : Bytes) : Sql Bool :=
  fun db => .ok (db.wraps.rows.any fun row =>
    row.userId = userId && row.credentialId = some credentialId, db)

def deleteWrapForCredential (userId : Int) (credentialId : Bytes) : Sql Unit :=
  fun db => .ok ((), db.deleteWraps fun row =>
    row.userId = userId && row.credentialId = some credentialId)

/-- The encryption-key wrap the account holds now. -/
def currentKeyWrap (userId : Int) : Sql (Option Bytes) := fun db =>
  .ok ((db.wraps.rows.find? fun row =>
    row.userId = userId && row.kind = WrapKind.encryptionKey.asStr).map
      EntryKeyWrap.wrappedKey, db)

def deleteKeyWraps (userId : Int) : Sql Unit := fun db =>
  .ok ((), db.deleteWraps fun row =>
    row.userId = userId && row.kind = WrapKind.encryptionKey.asStr)

/-- Replaces the account's encryption-key wrap, leaving exactly one; submitting
the wrap the account already holds changes nothing. -/
def replaceEncryptionKeyWrap (userId : Int) (wrappedKey : Bytes)
    (now : Timestamp) : Sql Unit := do
  let current ← currentKeyWrap userId
  if current = some wrappedKey then return ()
  deleteKeyWraps userId
  insertWrap userId .encryptionKey none wrappedKey now

/-! ## Passkeys -/

/-- Stores a freshly registered credential. -/
def insertPasskey (userId : Int) (credentialId passkey : Bytes)
    (prfCapable : Bool) (now : Timestamp) : Sql Int := fun db => do
  let next ← db.insertPasskey
    { id := 0, userId, credentialId, passkey, name := none, prfCapable,
      createdAt := now, lastUsedAt := none }
  match next.passkeys.rows.find? fun row => row.credentialId = credentialId with
  | none => .error .notFound
  | some row => .ok (row.id, next)

/-- The account's passkeys, newest first. -/
def listByUser (userId : Int) : Sql (List PasskeyRow) := fun db =>
  .ok ((db.passkeys.rows.filter fun row => row.userId = userId).insertionSort
    fun first second => second.createdAt ≤ first.createdAt, db)

def findByCredentialId (credentialId : Bytes) : Sql (Option PasskeyRow) :=
  fun db => .ok (db.passkeys.rows.find? fun row =>
    row.credentialId = credentialId, db)

/-- Deletes a credential; the owner is part of the condition. -/
def deleteForUser (id userId : Int) : Sql Bool := fun db =>
  let selects := fun row : PasskeyRow => row.id = id && row.userId = userId
  .ok (db.passkeys.rows.any selects, db.deletePasskeys selects)

/-- Persists the advanced credential counter after a successful assertion. -/
def updateAfterUse (rowId : Int) (passkey : Bytes) (now : Timestamp) :
    Sql Unit := fun db =>
  .ok ((), db.updatePasskey rowId passkey now)

/-! ## Entries -/

/-- Reads one day's stored body. -/
def load (userId : Int) (date : NaiveDate) : Sql (Option String) := fun db =>
  .ok ((db.entries.rows.find? fun row =>
    row.userId = userId && row.entryDate = toIso date).map TimeEntry.body, db)

/-- Writes one day's body, replacing any previous value for that day. -/
def save (userId : Int) (date : NaiveDate) (body : String) (now : Timestamp) :
    Sql Unit := fun db =>
  (db.upsertEntry { userId, entryDate := toIso date, body, updatedAt := now }).map
    fun next => ((), next)

/-- The rows a range query selects, ordered by date.  The dates are compared as text. -/
def rowsInRange (db : Database) (userId : Int) (first last : NaiveDate) : List TimeEntry :=
  (db.entries.rows.filter fun row => row.userId = userId &&
      (toIso first ≤ row.entryDate && row.entryDate ≤ toIso last)).insertionSort
    fun row other => row.entryDate ≤ other.entryDate

/-- The days in a range that have an entry. -/
def datesInRange (userId : Int) (first last : NaiveDate) : Sql (List NaiveDate) := fun db =>
  .ok ((rowsInRange db userId first last).filterMap fun row => parseIso row.entryDate, db)

/-- Every entry in a range, bodies included. -/
def entriesInRange (userId : Int) (first last : NaiveDate) :
    Sql (List (NaiveDate × String)) := fun db =>
  .ok ((rowsInRange db userId first last).filterMap fun row =>
    (parseIso row.entryDate).map fun date => (date, row.body), db)

end TimeTracker.Server.Store
