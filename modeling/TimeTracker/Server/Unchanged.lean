import TimeTracker.Server.Entries

/-!
# An error means nothing changed

Each of the five writing functions either reports success with everything it
meant to write in place, or reports an error over the tables it was given.  The
database may fail at any statement of the run: a transaction counts as one
statement, since a failure anywhere inside it rolls all of it back.  A refusal a
transaction commits is an answer of the statement, and has to be shown to have
written nothing.
-/

namespace TimeTracker.Server.Unchanged

open TimeTracker.Text
open TimeTracker.Crypto.Wire
open TimeTracker.Date
open TimeTracker.Library.Atomic
open TimeTracker.Library.Indexed
open TimeTracker.Server.Schema
open TimeTracker.Server.Store
open TimeTracker.Server.Functions
open TimeTracker.Server.Execution
open TimeTracker.Server.Outcomes
open TimeTracker.Server.Entries

/-- An error left every table as it was; a success wrote what was asked. -/
def AllOrNothing {α : Type} (db : Database) (written : Database → Prop)
    (reply : Except String α) (next : Database) : Prop :=
  match reply with
  | .ok _ => written next
  | .error _ => next = db

/-- Whichever statement the database fails at, the run is all or nothing. -/
def Untorn {α : Type} (handler : Handler α) (db : Database)
    (written : Database → Prop) : Prop :=
  ∀ faultAt cookie log,
    let outcome := execute handler cookie ⟨faultAt, db, log⟩
    AllOrNothing db written outcome.1.1 outcome.2.store

/-- A handler that decides in one statement is all or nothing when every answer
of the statement is. -/
theorem untorn_of_decision {α β δ : Type} {handler : Handler α} {Guard : δ → Prop}
    {site : δ → Site} {statement : δ → Sql β} {respond : β → Except String α}
    {db : Database} {written : Database → Prop}
    (decides : ∀ log, Ensures handler db log
      (Decision Guard site statement respond db log))
    (answers : ∀ call value next, Guard call → statement call db = .ok (value, next) →
      AllOrNothing db written (respond value) next) :
    Untorn handler db written := by
  intro faultAt cookie log
  have decision := decides log faultAt cookie
  dsimp only at decision ⊢
  generalize execute handler cookie ⟨faultAt, db, log⟩ = outcome at decision ⊢
  obtain ⟨⟨reply, header⟩, faultAt', next, log'⟩ := outcome
  cases decision with
  | refused same => exact rfl
  | failed passed aborted executed => exact rfl
  | committed passed ran executed => exact answers _ _ _ passed ran

variable (ctx : AppCtx) (db : Database)

/-- The account is encrypted from now on, and has the wraps of the request. -/
def EnableWritten (passkey : Option PasskeyWrapDto) (encryptionKeyWrap : Bytes)
    (next : Database) : Prop :=
  ∃ me, SignedIn ctx db me ∧ ¬ Encrypted db me.id ∧
    Enabled db next me.id passkey encryptionKeyWrap ctx.now

/-- The account has one more wrap, for the passkey of the request. -/
def PasskeyWrapWritten (credentialId wrappedKey : Bytes) (next : Database) : Prop :=
  ∃ me id, SignedIn ctx db me ∧
    WrapInserted db next
      (storedWrap id me.id .passkey (some credentialId) wrappedKey ctx.now)

/-- The account has one encryption-key wrap, the one of the request, and every
other row is as it was. -/
structure KeyWrapWritten (wrappedKey : Bytes) (me : User) (next : Database) : Prop where
  signedIn : SignedIn ctx db me
  present : ∃ row ∈ next.wraps, IsKeyWrap me.id row ∧ row.wrappedKey = wrappedKey
  only : ∀ row ∈ next.wraps, IsKeyWrap me.id row → row.wrappedKey = wrappedKey
  others : ∀ row, ¬ IsKeyWrap me.id row → (row ∈ next.wraps ↔ row ∈ db.wraps)
  users : next.users = db.users
  entries : next.entries = db.entries
  passkeys : next.passkeys = db.passkeys

/-- The passkey of the request is gone, and its wrap with it. -/
def DeleteWritten (id : Int) (next : Database) : Prop :=
  ∃ me target, SignedIn ctx db me ∧ target.id = id ∧
    PasskeyDeleted db next me.id target

/-- The day of the request reads as its body, and nothing else changed. -/
def SaveWritten (date body : String) (next : Database) : Prop :=
  ∃ me, SignedIn ctx db me ∧ Saved me.id date body db next ∧
    (∃ row ∈ next.entries, row.userId = me.id ∧ row.entryDate = date ∧
      row.body = body ∧ row.updatedAt = ctx.now) ∧
    next.passkeys = db.passkeys ∧ next.wraps = db.wraps

/-! ## The five functions -/

/-- The refusal of an encrypted account is decided before the first write. -/
theorem untorn_encryptionEnable (passkey : Option PasskeyWrapDto)
    (encryptionKeyWrap : Bytes) :
    Untorn (encryptionEnable ctx passkey encryptionKeyWrap) db
      (EnableWritten ctx db passkey encryptionKeyWrap) := by
  refine untorn_of_decision
    (fun log => ensures_encryptionEnable ctx db passkey encryptionKeyWrap) ?_
  intro me outcome next guard ran
  obtain ⟨same, -, message, rfl⟩ | ⟨unmarked, -, rfl, enabled⟩ :=
    enableTransaction_eq_ok ran
  · exact same
  · exact ⟨me, guard.1, unmarked, enabled⟩

/-- Outside a transaction: everything before the insert only reads. -/
theorem untorn_encryptionAddPasskeyWrap (credentialId wrappedKey : Bytes) :
    Untorn (encryptionAddPasskeyWrap ctx credentialId wrappedKey) db
      (PasskeyWrapWritten ctx db credentialId wrappedKey) := by
  refine untorn_of_decision
    (fun log => ensures_encryptionAddPasskeyWrap ctx db credentialId wrappedKey) ?_
  intro me value next guard ran
  obtain ⟨id, inserted⟩ := wrapInserted ran
  exact ⟨me, id, guard.1, inserted⟩

/-- Two encryption-key wraps of one account are one row. -/
theorem keyWrap_unique {userId : Int} {first second : EntryKeyWrap}
    (hfirst : first ∈ db.wraps) (hsecond : second ∈ db.wraps)
    (firstKey : IsKeyWrap userId first) (secondKey : IsKeyWrap userId second) :
    first = second := by
  refine Table.eq_of_conflict EntryKeyWrap.conflict_symm hfirst hsecond ?_
  exact .inr (.inr ⟨firstKey.1.trans secondKey.1.symm, firstKey.2, secondKey.2⟩)

theorem isKeyWrap_storedWrap {id userId : Int} {wrappedKey : Bytes} {now : Timestamp} :
    IsKeyWrap userId (storedWrap id userId .encryptionKey none wrappedKey now) :=
  ⟨rfl, rfl⟩

/-- Resending the wrap the account holds is a success that writes nothing. -/
theorem untorn_encryptionReplaceKeyWrap (wrappedKey : Bytes) :
    Untorn (encryptionReplaceKeyWrap ctx wrappedKey) db
      (fun next => ∃ me, KeyWrapWritten ctx db wrappedKey me next) := by
  refine untorn_of_decision
    (fun log => ensures_encryptionReplaceKeyWrap ctx db wrappedKey) ?_
  intro me value next guard ran
  refine ⟨me, ?_⟩
  obtain ⟨rfl, row, hrow, key, wrapped⟩ | replaced := replaceEncryptionKeyWrap_eq_ok ran
  · refine ⟨guard.1, ⟨row, hrow, key, wrapped⟩, ?_, fun _ _ => Iff.rfl, rfl, rfl, rfl⟩
    intro other hother otherKey
    rw [keyWrap_unique next hother hrow otherKey key, wrapped]
  · obtain ⟨id, wraps⟩ := replaced.wraps
    refine ⟨guard.1, ⟨_, (wraps _).mpr (.inr rfl), isKeyWrap_storedWrap, rfl⟩, ?_, ?_,
      replaced.users, replaced.entries, replaced.passkeys⟩
    · intro row hrow key
      obtain ⟨-, notKey⟩ | rfl := (wraps row).mp hrow
      · exact absurd key notKey
      · rfl
    · intro row notKey
      rw [wraps]
      refine ⟨?_, fun old => .inl ⟨old, notKey⟩⟩
      rintro (⟨old, -⟩ | rfl)
      · exact old
      · exact absurd isKeyWrap_storedWrap notKey

/-- The lock-out refusal and the two "no longer exists" ones write nothing. -/
theorem untorn_passkeyDelete (id : Int) :
    Untorn (passkeyDelete ctx id) db (DeleteWritten ctx db id) := by
  refine untorn_of_decision (fun log => ensures_passkeyDelete ctx db id) ?_
  intro me outcome next signedIn ran
  obtain ⟨same, message, rfl⟩ | ⟨target, hid, rfl, deleted⟩ := deleteTransaction_eq_ok ran
  · exact same
  · exact ⟨me, target, signedIn, hid, deleted⟩

/-- The row an upsert is for is there afterwards, stamped with its time. -/
theorem row_of_upsertEntry {next : Database} {row : TimeEntry}
    (saved : db.upsertEntry row = .ok next) :
    ∃ entry ∈ next.entries, entry.userId = row.userId ∧
      entry.entryDate = row.entryDate ∧ entry.body = row.body ∧
      entry.updatedAt = row.updatedAt := by
  unfold Database.upsertEntry at saved
  split at saved
  · next present =>
      cases saved
      obtain ⟨old, hold, conflict⟩ := present
      refine ⟨Database.overwrite row old, List.mem_map.mpr ⟨old, hold, rfl⟩, ?_⟩
      rw [Database.overwrite, if_pos conflict]
      exact ⟨conflict.1, conflict.2, rfl, rfl⟩
  · split at saved
    · split at saved
      · cases saved
      · next entries inserted =>
          cases saved
          exact ⟨row, (Table.mem_insert inserted).mpr (.inr rfl), rfl, rfl, rfl, rfl⟩
    · cases saved

/-- The refusal of an account without encryption is decided before the upsert. -/
theorem untorn_entrySave (date body : String) :
    Untorn (entrySave ctx date body) db (SaveWritten ctx db date body) := by
  refine untorn_of_decision (fun log => ensures_entrySave ctx db date body) ?_
  rintro ⟨me, day⟩ outcome next ⟨signedIn, parsed, -⟩ ran
  obtain ⟨same, message, rfl⟩ | ⟨-, rfl, upserted⟩ := saveTransaction_eq_ok ran
  · exact same
  · rw [toIso_of_parseIso parsed] at upserted
    obtain ⟨-, -, passkeys, wraps⟩ := Database.upsertEntry_eq_ok upserted
    exact ⟨me, signedIn, .of_upsertEntry upserted, row_of_upsertEntry db upserted,
      passkeys, wraps⟩

/-- For every state of the database, every argument and every statement the
database fails at, an error of one of the five functions left every table as it
was, and a success wrote all it means to write. -/
theorem error_means_unchanged :
    (∀ passkey encryptionKeyWrap,
      Untorn (encryptionEnable ctx passkey encryptionKeyWrap) db
        (EnableWritten ctx db passkey encryptionKeyWrap)) ∧
    (∀ credentialId wrappedKey,
      Untorn (encryptionAddPasskeyWrap ctx credentialId wrappedKey) db
        (PasskeyWrapWritten ctx db credentialId wrappedKey)) ∧
    (∀ wrappedKey, Untorn (encryptionReplaceKeyWrap ctx wrappedKey) db
      (fun next => ∃ me, KeyWrapWritten ctx db wrappedKey me next)) ∧
    (∀ id, Untorn (passkeyDelete ctx id) db (DeleteWritten ctx db id)) ∧
    ∀ date body, Untorn (entrySave ctx date body) db (SaveWritten ctx db date body) :=
  ⟨untorn_encryptionEnable ctx db, untorn_encryptionAddPasskeyWrap ctx db,
    untorn_encryptionReplaceKeyWrap ctx db, untorn_passkeyDelete ctx db,
    untorn_entrySave ctx db⟩

end TimeTracker.Server.Unchanged
