import TimeTracker.Server.Execution

/-!
# What each server function does

For each writing server function, the guards a run has passed when it reaches
its deciding statement, and what that statement does to the tables.
-/

namespace TimeTracker.Server.Outcomes

open TimeTracker.Text
open TimeTracker.Crypto.Wire
open TimeTracker.Date
open TimeTracker.Library.Atomic
open TimeTracker.Library.Indexed
open TimeTracker.Server.Schema
open TimeTracker.Server.Store
open TimeTracker.Server.Ceremony
open TimeTracker.Server.Functions
open TimeTracker.Server.Execution

/-! ## Facts about one account -/

/-- The account is marked as encrypted. -/
def Encrypted (db : Database) (userId : Int) : Prop :=
  ∃ user ∈ db.users, user.id = userId ∧ user.encryptedAt ≠ none

/-- The account has a passkey row with this credential id. -/
def Enrolled (db : Database) (userId : Int) (credentialId : Bytes) : Prop :=
  ∃ row ∈ db.passkeys, row.userId = userId ∧ row.credentialId = credentialId

/-- The account has a wrap of some kind under this credential id. -/
def HasWrap (db : Database) (userId : Int) (credentialId : Bytes) : Prop :=
  ∃ row ∈ db.wraps, row.userId = userId ∧ row.credentialId = some credentialId

section Queries

variable {db next : Database} {userId id : Int} {credentialId : Bytes}

theorem isEncrypted_eq_ok {value : Bool}
    (ran : isEncrypted userId db = .ok (value, next)) :
    next = db ∧ db.HasUser userId ∧ (value = true ↔ Encrypted db userId) := by
  unfold isEncrypted at ran
  split at ran
  · cases ran
  · rename_i user found
    cases ran
    obtain ⟨hmem, hid⟩ := Database.user?_eq_some.mp found
    refine ⟨rfl, ⟨user, hmem, hid⟩, ?_⟩
    rw [Option.isSome_iff_ne_none]
    constructor
    · intro marked
      exact ⟨user, hmem, hid, marked⟩
    · rintro ⟨other, hother, hother_id, marked⟩
      rwa [Table.eq_of_conflict User.conflict_symm hmem hother
        (.inl (hid.trans hother_id.symm))]

theorem findByCredentialId_eq_ok {value : Option PasskeyRow}
    (ran : findByCredentialId credentialId db = .ok (value, next)) :
    next = db ∧ ∀ row, value = some row →
      row ∈ db.passkeys ∧ row.credentialId = credentialId := by
  cases ran
  refine ⟨rfl, fun row found => ⟨List.mem_of_find?_eq_some found, ?_⟩⟩
  simpa using List.find?_some found

theorem hasWrapForCredential_eq_ok {value : Bool}
    (ran : hasWrapForCredential userId credentialId db = .ok (value, next)) :
    next = db ∧ (value = true ↔ HasWrap db userId credentialId) := by
  cases ran
  refine ⟨rfl, ?_⟩
  simp only [List.any_eq_true, Bool.and_eq_true, decide_eq_true_eq]
  exact Iff.rfl

theorem insertWrap_ran {kind : WrapKind} {credential : Option Bytes}
    {wrapped : Bytes} {now : Timestamp} {value : Unit}
    (ran : insertWrap userId kind credential wrapped now db = .ok (value, next)) :
    db.insertWrap (newWrap userId kind credential wrapped now) = .ok next := by
  unfold insertWrap at ran
  cases inserted : db.insertWrap (newWrap userId kind credential wrapped now) with
  | error failure =>
      rw [inserted] at ran
      cases ran
  | ok after =>
      rw [inserted] at ran
      cases ran
      rfl

theorem listByUser_eq_ok {rows : List PasskeyRow}
    (ran : listByUser userId db = .ok (rows, next)) :
    next = db ∧ ∀ row, row ∈ rows ↔ row ∈ db.passkeys ∧ row.userId = userId := by
  cases ran
  refine ⟨rfl, fun row => ?_⟩
  rw [List.mem_insertionSort, List.mem_filter, decide_eq_true_eq]
  exact Iff.rfl

/-- The account a passkey row names, as one statement. -/
def loadUser (id : Int) : Sql User := fun db =>
  match db.user? id with
  | some user => .ok (user, db)
  | none => .error .notFound

theorem loadUser_eq_ok {user : User} :
    loadUser id db = .ok (user, next) ↔ next = db ∧ user ∈ db.users ∧ user.id = id := by
  unfold loadUser
  rw [← Database.user?_eq_some]
  cases db.user? id with
  | none => simp
  | some found => simp [and_comm, eq_comm]

/-- Where the two ways of `passkey_login_finish` meet: the credential is stored
with its counter, and the account of its row is signed in. -/
def signInWith (wa : Webauthn) (ctx : AppCtx) (row : PasskeyRow) (updated : wa.Key) :
    Handler Unit := do
  let blob ← orRefuse "Internal server error" (wa.toVec updated)
  query (.updateAfterUse row.id) (updateAfterUse row.id blob ctx.now)
  let owner ← query (.loadUser row.userId) (loadUser row.userId)
  setCookie (.session { email := owner.email, epoch := owner.sessionEpoch })

end Queries

/-! ## The guards -/

section Handlers

variable (ctx : AppCtx) (db : Database) {log : Log}

/-- `encryption_enable` reaches its transaction signed in, with wraps of the
right length. -/
theorem ensures_encryptionEnable (passkey : Option PasskeyWrapDto)
    (encryptionKeyWrap : Bytes) :
    Ensures (encryptionEnable ctx passkey encryptionKeyWrap) db log
      (Decision
        (fun me => SignedIn ctx db me ∧
          encryptionKeyWrap.length = WRAPPED_KEY_LEN ∧
          ∀ dto, passkey = some dto → dto.wrappedKey.length = WRAPPED_KEY_LEN)
        (fun me => .enable me.id (passkey.map PasskeyWrapDto.credentialId))
        (fun me => enableTransaction me.id passkey encryptionKeyWrap ctx.now)
        id db log) := by
  refine ensures_bind (ensures_requireUser ?_ fun _ _ same => .refused same)
  intro me log' signedIn same
  refine ensures_bind (ensures_ite (fun length => ensures_pure ?_)
    fun _ => ensures_throw (.refused same))
  cases passkey with
  | none =>
      exact ensures_decide_refuse me ⟨signedIn, length, nofun⟩ same
  | some dto =>
      refine ensures_bind (ensures_ite (fun length' => ensures_pure ?_)
        fun _ => ensures_throw (.refused same))
      refine ensures_decide_refuse me ⟨signedIn, length, ?_⟩ same
      rintro other heq
      cases heq
      exact length'

theorem ensures_encryptionAddPasskeyWrap (credentialId wrappedKey : Bytes) :
    Ensures (encryptionAddPasskeyWrap ctx credentialId wrappedKey) db log
      (Decision
        (fun me => SignedIn ctx db me ∧ wrappedKey.length = WRAPPED_KEY_LEN ∧
          Enrolled db me.id credentialId ∧ Encrypted db me.id ∧
          ¬ HasWrap db me.id credentialId)
        (fun me => .insertWrap me.id credentialId)
        (fun me => insertWrap me.id .passkey (some credentialId) wrappedKey ctx.now)
        .ok db log) := by
  refine ensures_bind (ensures_requireUser ?_ fun _ _ same => .refused same)
  intro me log' signedIn same
  refine ensures_bind (ensures_ite (fun length => ensures_pure ?_)
    fun _ => ensures_throw (.refused same))
  refine ensures_bind (ensures_read rfl
    (fun _ _ ran => (findByCredentialId_eq_ok ran).1) ?_
    fun _ _ same' => .refused (same'.trans same))
  intro row log' ran same'
  replace same := same'.trans same
  refine ensures_ite
    (fun _ => ensures_bind (ensures_throw (.refused same))) fun howner => ?_
  have enrolled : Enrolled db me.id credentialId := by
    obtain ⟨passkey, rfl, hme⟩ := Option.map_eq_some_iff.mp (not_not.mp howner)
    obtain ⟨hmem, hcred⟩ := (findByCredentialId_eq_ok ran).2 passkey rfl
    exact ⟨passkey, hmem, hme, hcred⟩
  refine ensures_bind (ensures_read rfl
    (fun _ _ ran => (isEncrypted_eq_ok ran).1) ?_
    fun _ _ same' => .refused (same'.trans same))
  intro encrypted log' ran same'
  replace same := same'.trans same
  refine ensures_ite
    (fun _ => ensures_bind (ensures_throw (.refused same))) fun hencrypted => ?_
  have marked : Encrypted db me.id := by
    refine (isEncrypted_eq_ok ran).2.2.mp ?_
    simpa using hencrypted
  refine ensures_bind (ensures_read rfl
    (fun _ _ ran => (hasWrapForCredential_eq_ok ran).1) ?_
    fun _ _ same' => .refused (same'.trans same))
  intro present log' ran same'
  replace same := same'.trans same
  refine ensures_ite
    (fun _ => ensures_bind (ensures_throw (.refused same))) fun habsent => ?_
  have absent : ¬ HasWrap db me.id credentialId := fun has =>
    habsent ((hasWrapForCredential_eq_ok ran).2.mpr has)
  exact ensures_decide me ⟨signedIn, length, enrolled, marked, absent⟩ same

/-- `encryption_replace_key_wrap` reaches the store signed in, with a wrap of
the right length; it does not ask whether the account is encrypted. -/
theorem ensures_encryptionReplaceKeyWrap (wrappedKey : Bytes) :
    Ensures (encryptionReplaceKeyWrap ctx wrappedKey) db log
      (Decision
        (fun me => SignedIn ctx db me ∧ wrappedKey.length = WRAPPED_KEY_LEN)
        (fun me => .replaceKeyWrap me.id)
        (fun me => replaceEncryptionKeyWrap me.id wrappedKey ctx.now)
        .ok db log) := by
  refine ensures_bind (ensures_requireUser ?_ fun _ _ same => .refused same)
  intro me log' signedIn same
  refine ensures_bind (ensures_ite (fun length => ensures_pure ?_)
    fun _ => ensures_throw (.refused same))
  exact ensures_decide me ⟨signedIn, length⟩ same

theorem ensures_entrySave (date body : String) :
    Ensures (entrySave ctx date body) db log
      (Decision
        (fun call : User × NaiveDate => SignedIn ctx db call.1 ∧
          parseIso date = some call.2 ∧ body.utf8ByteSize ≤ MAX_BODY_BYTES)
        (fun call => .saveEntry call.1.id)
        (fun call => saveTransaction call.1.id call.2 body ctx.now)
        id db log) := by
  refine ensures_bind (ensures_requireUser ?_ fun _ _ same => .refused same)
  intro me log' signedIn same
  refine ensures_bind (ensures_orRefuse ?_ fun _ => .refused same)
  intro day parsed
  refine ensures_ite
    (fun _ => ensures_bind (ensures_throw (.refused same))) fun small => ?_
  exact ensures_decide_refuse (me, day)
    ⟨signedIn, parsed, Nat.le_of_not_gt small⟩ same

theorem ensures_passkeyRegisterFinish (wa : Webauthn) (responseJson : String)
    (prfCapable : Bool) :
    Ensures (passkeyRegisterFinish wa ctx responseJson prfCapable) db log
      (Decision
        (fun call : User × Bytes × Bytes => SignedIn ctx db call.1)
        (fun call => .insertPasskey call.1.id)
        (fun call => insertPasskey call.1.id call.2.1 call.2.2 prfCapable ctx.now)
        (fun _ => .ok ()) db log) := by
  refine ensures_bind (ensures_requireUser ?_ fun _ _ same => .refused same)
  intro me log' signedIn same
  refine ensures_bind (ensures_orRefuse (fun raw _ => ?_) fun _ => .refused same)
  refine ensures_bind (ensures_orRefuse (fun state _ => ?_) fun _ => .refused same)
  refine ensures_bind (ensures_setCookie ?_)
  cases state with
  | auth subject auth expiresAt => exact ensures_throw (.refused same)
  | discoverableAuth auth expiresAt => exact ensures_throw (.refused same)
  | reg subject reg expiresAt =>
      refine ensures_ite
        (fun _ => ensures_bind (ensures_throw (.refused same))) fun _ => ?_
      refine ensures_bind (ensures_orRefuse (fun rpc _ => ?_) fun _ => .refused same)
      refine ensures_bind (ensures_orRefuse (fun key _ => ?_) fun _ => .refused same)
      refine ensures_bind (ensures_orRefuse (fun blob _ => ?_) fun _ => .refused same)
      exact ensures_decide_bind (me, wa.credId key, blob) signedIn same
        fun _ _ _ _ holds => ensures_pure holds

theorem ensures_passkeyDelete (id : Int) :
    Ensures (passkeyDelete ctx id) db log
      (Decision (fun me => SignedIn ctx db me)
        (fun me => .deletePasskey me.id id)
        (fun me => deleteTransaction me.id id) (fun outcome => outcome) db log) := by
  refine ensures_bind (ensures_requireUser ?_ fun _ _ same => .refused same)
  intro me log' signedIn same
  exact ensures_decide_refuse me signedIn same

end Handlers

/-! ## What the deciding statements do -/

/-- The row is a route to the account's data key by encryption key. -/
def IsKeyWrap (userId : Int) (row : EntryKeyWrap) : Prop :=
  row.userId = userId ∧ row.kind = WrapKind.encryptionKey.asStr

/-- The row is a route to the account's data key by passkey. -/
def IsPasskeyWrap (userId : Int) (row : EntryKeyWrap) : Prop :=
  row.userId = userId ∧ row.kind = WrapKind.passkey.asStr

/-- The stored form of a new wrap, under the id it was given. -/
def storedWrap (id userId : Int) (kind : WrapKind) (credentialId : Option Bytes)
    (wrappedKey : Bytes) (now : Timestamp) : EntryKeyWrap :=
  { newWrap userId kind credentialId wrappedKey now with id }

/-- What one inserted wrap changes. -/
structure WrapInserted (db next : Database) (row : EntryKeyWrap) : Prop where
  wraps : ∀ other, other ∈ next.wraps ↔ other ∈ db.wraps ∨ other = row
  users : next.users = db.users
  entries : next.entries = db.entries
  passkeys : next.passkeys = db.passkeys

/-- What turning encryption on changes. -/
structure Enabled (db next : Database) (userId : Int)
    (passkey : Option PasskeyWrapDto) (encryptionKeyWrap : Bytes)
    (now : Timestamp) : Prop where
  users : ∀ user, user ∈ next.users ↔ ∃ old ∈ db.users,
    (if old.id = userId then { old with encryptedAt := some now } else old) = user
  wraps : ∃ keyId passkeyId, ∀ row, row ∈ next.wraps ↔ row ∈ db.wraps ∨
    row = storedWrap keyId userId .encryptionKey none encryptionKeyWrap now ∨
    ∃ dto, passkey = some dto ∧ row = storedWrap passkeyId userId .passkey
      (some dto.credentialId) dto.wrappedKey now
  entries : next.entries = db.entries
  passkeys : next.passkeys = db.passkeys

/-- What replacing the encryption-key wrap changes. -/
structure KeyWrapReplaced (db next : Database) (userId : Int)
    (wrappedKey : Bytes) (now : Timestamp) : Prop where
  wraps : ∃ id, ∀ row, row ∈ next.wraps ↔
    (row ∈ db.wraps ∧ ¬ IsKeyWrap userId row) ∨
      row = storedWrap id userId .encryptionKey none wrappedKey now
  users : next.users = db.users
  entries : next.entries = db.entries
  passkeys : next.passkeys = db.passkeys

/-- The passkey wraps the deletion guard counts. -/
def passkeyWraps (db : Database) (userId : Int) : List EntryKeyWrap :=
  (wrapsOf db userId).filter fun row => row.kind = WrapKind.passkey.asStr

/-- What deleting a passkey changes, and the guard it passed. -/
structure PasskeyDeleted (db next : Database) (userId : Int)
    (target : PasskeyRow) : Prop where
  present : target ∈ db.passkeys
  owner : target.userId = userId
  guard : Encrypted db userId →
    (∃ row ∈ db.wraps, IsPasskeyWrap userId row ∧
      row.credentialId = some target.credentialId) →
    2 ≤ (passkeyWraps db userId).length
  passkeys : ∀ row, row ∈ next.passkeys ↔
    row ∈ db.passkeys ∧ ¬ (row.id = target.id ∧ row.userId = userId)
  wraps : ∀ row, row ∈ next.wraps ↔ row ∈ db.wraps ∧
    ¬ (row.userId = userId ∧ row.credentialId = some target.credentialId)
  users : next.users = db.users
  entries : next.entries = db.entries

section Statements

variable {db next : Database} {userId id : Int} {now : Timestamp}

theorem mem_passkeyWraps {row : EntryKeyWrap} :
    row ∈ passkeyWraps db userId ↔ row ∈ db.wraps ∧ IsPasskeyWrap userId row := by
  simp only [passkeyWraps, wrapsOf, List.mem_filter, decide_eq_true_eq,
    and_assoc]
  exact Iff.rfl

theorem wrapInserted {kind : WrapKind} {credential : Option Bytes}
    {wrapped : Bytes} {value : Unit}
    (ran : insertWrap userId kind credential wrapped now db = .ok (value, next)) :
    ∃ id, WrapInserted db next (storedWrap id userId kind credential wrapped now) := by
  obtain ⟨wraps, users, entries, passkeys⟩ :=
    Database.insertWrap_eq_ok (insertWrap_ran ran)
  exact ⟨_, wraps, users, entries, passkeys⟩

/-- `encryption_enable` refuses an encrypted account and switches any other. -/
theorem enableTransaction_eq_ok {passkey : Option PasskeyWrapDto}
    {encryptionKeyWrap : Bytes} {outcome : Except String Unit}
    (ran : enableTransaction userId passkey encryptionKeyWrap now db =
      .ok (outcome, next)) :
    (next = db ∧ Encrypted db userId ∧ ∃ message, outcome = .error message) ∨
      (¬ Encrypted db userId ∧ db.HasUser userId ∧ outcome = .ok () ∧
        Enabled db next userId passkey encryptionKeyWrap now) := by
  obtain ⟨encrypted, middle, hencrypted, decided⟩ := sql_bind_eq_ok.mp ran
  obtain ⟨rfl, huser, hiff⟩ := isEncrypted_eq_ok hencrypted
  split at decided
  · rename_i marked
    cases decided
    exact .inl ⟨rfl, hiff.mp marked, _, rfl⟩
  · rename_i unmarked
    refine .inr ⟨fun marked => unmarked (hiff.mpr marked), huser, ?_⟩
    obtain ⟨_, switched, hset, inserts⟩ := sql_bind_eq_ok.mp decided
    cases hset
    cases passkey with
    | none =>
        obtain ⟨_, last, hkey, replied⟩ := sql_bind_eq_ok.mp inserts
        cases replied
        obtain ⟨keyId, key⟩ := wrapInserted hkey
        refine ⟨rfl, ?_, ⟨keyId, 0, fun row => ?_⟩, key.entries, key.passkeys⟩
        · intro user
          rw [key.users]
          exact Database.mem_updateUser
        · rw [key.wraps]
          exact ⟨fun h => h.imp_right .inl, fun h => h.imp_right fun h =>
            h.elim (fun key => key) nofun⟩
    | some dto =>
        obtain ⟨_, first, hpasskey, later⟩ := sql_bind_eq_ok.mp inserts
        obtain ⟨_, last, hkey, replied⟩ := sql_bind_eq_ok.mp later
        cases replied
        obtain ⟨passkeyId, added⟩ := wrapInserted hpasskey
        obtain ⟨keyId, key⟩ := wrapInserted hkey
        refine ⟨rfl, ?_, ⟨keyId, passkeyId, fun row => ?_⟩,
          key.entries.trans added.entries, key.passkeys.trans added.passkeys⟩
        · intro user
          rw [key.users, added.users]
          exact Database.mem_updateUser
        · rw [key.wraps, added.wraps, or_assoc]
          refine or_congr Iff.rfl ?_
          constructor
          · rintro (rfl | rfl)
            · exact .inr ⟨dto, rfl, rfl⟩
            · exact .inl rfl
          · rintro (rfl | ⟨other, same, rfl⟩)
            · exact .inr rfl
            · cases same
              exact .inl rfl

/-- `replace_encryption_key_wrap` keeps the wrap it is given again, and
otherwise leaves exactly the new one. -/
theorem replaceEncryptionKeyWrap_eq_ok {wrappedKey : Bytes} {value : Unit}
    (ran : replaceEncryptionKeyWrap userId wrappedKey now db = .ok (value, next)) :
    (next = db ∧ ∃ row ∈ db.wraps, IsKeyWrap userId row ∧
        row.wrappedKey = wrappedKey) ∨
      KeyWrapReplaced db next userId wrappedKey now := by
  obtain ⟨current, middle, hcurrent, decided⟩ := sql_bind_eq_ok.mp ran
  unfold currentKeyWrap at hcurrent
  cases hcurrent
  split at decided
  · rename_i same
    cases decided
    obtain ⟨row, hfind, hwrapped⟩ := Option.map_eq_some_iff.mp same
    refine .inl ⟨rfl, row, List.mem_of_find?_eq_some hfind, ?_, hwrapped⟩
    simpa [IsKeyWrap] using List.find?_some hfind
  · obtain ⟨_, deleted, hdelete, inserts⟩ := sql_bind_eq_ok.mp decided
    cases hdelete
    obtain ⟨id, added⟩ := wrapInserted inserts
    refine .inr ⟨⟨id, fun row => ?_⟩, added.users, added.entries, added.passkeys⟩
    rw [added.wraps, Database.mem_deleteWraps]
    simp only [Bool.and_eq_false_iff, decide_eq_false_iff_not, IsKeyWrap,
      not_and_or]

/-- `entry_save` changes only the entries of an encrypted account. -/
theorem saveTransaction_eq_ok {date : NaiveDate} {body : String}
    {outcome : Except String Unit}
    (ran : saveTransaction userId date body now db = .ok (outcome, next)) :
    (next = db ∧ ∃ message, outcome = .error message) ∨
      (Encrypted db userId ∧ outcome = .ok () ∧
        db.upsertEntry { userId, entryDate := toIso date, body, updatedAt := now } =
          .ok next) := by
  obtain ⟨encrypted, middle, hencrypted, decided⟩ := sql_bind_eq_ok.mp ran
  obtain ⟨rfl, -, hiff⟩ := isEncrypted_eq_ok hencrypted
  split at decided
  · cases decided
    exact .inl ⟨rfl, _, rfl⟩
  · rename_i marked
    obtain ⟨_, last, hsave, replied⟩ := sql_bind_eq_ok.mp decided
    cases replied
    refine .inr ⟨hiff.mp (by simpa using marked), rfl, ?_⟩
    unfold save at hsave
    cases upserted : middle.upsertEntry
        { userId, entryDate := toIso date, body, updatedAt := now } with
    | error failure =>
        rw [upserted] at hsave
        cases hsave
    | ok after =>
        rw [upserted] at hsave
        cases hsave
        rfl

/-- A new passkey row changes nothing else. -/
theorem insertPasskey_eq_ok {credentialId passkey : Bytes} {prfCapable : Bool}
    {rowId : Int}
    (ran : insertPasskey userId credentialId passkey prfCapable now db =
      .ok (rowId, next)) :
    (∀ row ∈ db.passkeys, row ∈ next.passkeys) ∧ next.users = db.users ∧
      next.entries = db.entries ∧ next.wraps = db.wraps := by
  unfold insertPasskey at ran
  cases inserted : db.insertPasskey
      { id := 0, userId, credentialId, passkey, name := none, prfCapable,
        createdAt := now, lastUsedAt := none } with
  | error failure =>
      rw [inserted] at ran
      cases ran
  | ok after =>
      rw [inserted] at ran
      obtain ⟨rows, users, entries, wraps⟩ := Database.insertPasskey_eq_ok inserted
      have same : after = next := by
        dsimp only [bind, Except.bind] at ran
        split at ran
        · cases ran
        · cases ran
          rfl
      subst same
      exact ⟨fun row hrow => (rows row).mpr (.inl hrow), users, entries, wraps⟩

/-- The read shape keeps the credential, and the kind as its stored form. -/
theorem intoWrapRow_eq_ok {record : EntryKeyWrap} {row : WrapRow}
    (read : intoWrapRow record = .ok row) :
    record.kind = row.kind.asStr ∧ record.credentialId = row.credentialId ∧
      record.wrappedKey = row.wrappedKey := by
  unfold intoWrapRow at read
  split at read
  · cases read
  · rename_i kind parsed
    cases read
    exact ⟨WrapKind.parse_eq_some.mp parsed, rfl, rfl⟩

theorem mapM_intoWrapRow {records : List EntryKeyWrap} {rows : List WrapRow}
    (read : records.mapM intoWrapRow = .ok rows) :
    List.Forall₂ (fun record row => intoWrapRow record = .ok row) records rows := by
  induction records generalizing rows with
  | nil =>
      cases read
      exact .nil
  | cons record rest ih =>
      rw [List.mapM_cons] at read
      cases hrecord : intoWrapRow record with
      | error failure =>
          rw [hrecord] at read
          cases read
      | ok row =>
          cases hrest : rest.mapM intoWrapRow with
          | error failure =>
              rw [hrecord, hrest] at read
              cases read
          | ok others =>
              rw [hrecord, hrest] at read
              cases read
              exact .cons hrecord (ih hrest)

theorem listWraps_eq_ok {rows : List WrapRow}
    (ran : listWraps userId db = .ok (rows, next)) :
    next = db ∧ List.Forall₂ (fun record row => intoWrapRow record = .ok row)
      (wrapsOf db userId) rows := by
  unfold listWraps at ran
  cases read : (wrapsOf db userId).mapM intoWrapRow with
  | error failure =>
      rw [read] at ran
      cases ran
  | ok others =>
      rw [read] at ran
      cases ran
      exact ⟨rfl, mapM_intoWrapRow read⟩

/-- A stored row as the browser sees it. -/
def wrapDto (record : EntryKeyWrap) : WrapDto :=
  { kind := record.kind, credentialId := record.credentialId,
    wrappedKey := record.wrappedKey, kdf := record.kdf, wrapAlg := record.wrapAlg }

theorem wrapDto_of_intoWrapRow {record : EntryKeyWrap} {row : WrapRow}
    (read : intoWrapRow record = .ok row) : WrapDto.ofRow row = wrapDto record := by
  unfold intoWrapRow at read
  split at read
  · cases read
  · next kind parsed =>
      cases read
      simp only [WrapDto.ofRow, wrapDto, WrapKind.parse_eq_some.mp parsed]

/-- What the browser is told of an account's wraps. -/
theorem map_ofRow_listWraps {rows : List WrapRow}
    (ran : listWraps userId db = .ok (rows, next)) :
    rows.map WrapDto.ofRow = (wrapsOf db userId).map wrapDto := by
  obtain ⟨-, paired⟩ := listWraps_eq_ok ran
  clear ran
  generalize wrapsOf db userId = records at paired ⊢
  induction paired with
  | nil => rfl
  | cons read _ ih => rw [List.map_cons, List.map_cons, ih, wrapDto_of_intoWrapRow read]

theorem mem_wrapsOf {record : EntryKeyWrap} :
    record ∈ wrapsOf db userId ↔ record ∈ db.wraps ∧ record.userId = userId := by
  simp only [wrapsOf, List.mem_filter, decide_eq_true_eq]
  exact Iff.rfl

/-- The guard's two counts over the read shape are counts over the table. -/
theorem guard_counts {records : List EntryKeyWrap} {rows : List WrapRow}
    (read : List.Forall₂ (fun record row => intoWrapRow record = .ok row)
      records rows) (credentialId : Bytes) :
    ((rows.any fun w => w.kind = .passkey && w.credentialId = some credentialId) =
      true ↔ ∃ record ∈ records, record.kind = WrapKind.passkey.asStr ∧
        record.credentialId = some credentialId) ∧
    (rows.filter fun w => w.kind = .passkey).length =
      (records.filter fun record => record.kind = WrapKind.passkey.asStr).length := by
  induction read with
  | nil => simp
  | @cons record row records rows here rest ih =>
      obtain ⟨hkind, hcred, -⟩ := intoWrapRow_eq_ok here
      have kinds : (record.kind = WrapKind.passkey.asStr) ↔ row.kind = .passkey := by
        rw [hkind]
        exact WrapKind.asStr_injective.eq_iff
      constructor
      · rw [List.any_cons, Bool.or_eq_true, ih.1]
        simp only [Bool.and_eq_true, decide_eq_true_eq, List.mem_cons,
          exists_eq_or_imp, kinds, hcred]
      · by_cases same : row.kind = .passkey
        · rw [List.filter_cons_of_pos (by simpa using same),
            List.filter_cons_of_pos (by simpa using kinds.mpr same),
            List.length_cons, List.length_cons, ih.2]
        · rw [List.filter_cons_of_neg (by simpa using same),
            List.filter_cons_of_neg (by simpa using fun h => same (kinds.mp h)), ih.2]

/-- `passkey_delete` refuses, or removes one passkey together with its wrap. -/
theorem deleteTransaction_eq_ok {outcome : Except String Unit}
    (ran : deleteTransaction userId id db = .ok (outcome, next)) :
    (next = db ∧ ∃ message, outcome = .error message) ∨
      ∃ target, target.id = id ∧ outcome = .ok () ∧
        PasskeyDeleted db next userId target := by
  obtain ⟨rows, middle, hrows, searched⟩ := sql_bind_eq_ok.mp ran
  obtain ⟨rfl, hmem⟩ := listByUser_eq_ok hrows
  cases found : rows.find? fun row => row.id = id with
  | none =>
      simp only [found] at searched
      cases searched
      exact .inl ⟨rfl, _, rfl⟩
  | some target =>
      simp only [found] at searched
      obtain ⟨present, owner⟩ := (hmem target).mp (List.mem_of_find?_eq_some found)
      have hid : target.id = id := by simpa using List.find?_some found
      obtain ⟨encrypted, middle', hencrypted, checked⟩ := sql_bind_eq_ok.mp searched
      obtain ⟨rfl, -, hmarked⟩ := isEncrypted_eq_ok hencrypted
      obtain ⟨wraps, middle'', hwraps, guarded⟩ := sql_bind_eq_ok.mp checked
      obtain ⟨rfl, read⟩ := listWraps_eq_ok hwraps
      obtain ⟨hany, hcount⟩ := guard_counts read target.credentialId
      split at guarded
      · cases guarded
        exact .inl ⟨rfl, _, rfl⟩
      · rename_i passed
        obtain ⟨deleted, removed, hdelete, cleaned⟩ := sql_bind_eq_ok.mp guarded
        unfold deleteForUser at hdelete
        cases hdelete
        split at cleaned
        · rename_i absent
          have gone : ∀ row ∈ middle''.passkeys.rows,
              ¬ (row.id = id ∧ row.userId = userId) := by simpa using absent
          exact absurd ⟨hid, owner⟩ (gone target present)
        · obtain ⟨_, last, hwrap, replied⟩ := sql_bind_eq_ok.mp cleaned
          unfold deleteWrapForCredential at hwrap
          cases hwrap
          cases replied
          refine .inr ⟨target, hid, rfl, present, owner, ?_, ?_, ?_, rfl, rfl⟩
          · rintro marked ⟨row, hrow, ⟨huser, hkind⟩, hcred⟩
            rw [passkeyWraps, ← hcount]
            have hencrypted : encrypted = true := hmarked.mpr marked
            have has := hany.mpr ⟨row, List.mem_filter.mpr
              ⟨hrow, by simpa using huser⟩, hkind, hcred⟩
            simp only [hencrypted, has, Bool.true_and, decide_eq_true_eq] at passed
            omega
          · intro row
            rw [hid]
            refine Database.mem_deletePasskeys.trans (and_congr Iff.rfl ?_)
            simp only [Bool.and_eq_false_iff, decide_eq_false_iff_not, not_and_or]
          · intro row
            refine Database.mem_deleteWraps.trans (and_congr Iff.rfl ?_)
            simp only [Bool.and_eq_false_iff, decide_eq_false_iff_not, not_and_or]

/-- Creating an account on first sign-in adds at most one unencrypted user,
under an id no other row has. -/
theorem findOrCreate_eq_ok {email : String} {user : User}
    (ran : findOrCreate email now db = .ok (user, next)) :
    (next = db ∨ ∃ row : User, ¬ db.HasUser row.id ∧ row.encryptedAt = none ∧
      ∀ other, other ∈ next.users ↔ other ∈ db.users ∨ other = row) ∧
    next.entries = db.entries ∧ next.passkeys = db.passkeys ∧
      next.wraps = db.wraps := by
  obtain ⟨-, refused⟩ | ⟨normalized, -, ⟨found, -, answered⟩ | ⟨-, after, answered, registered⟩⟩ :=
    findOrCreate_cases email now db
  · cases refused.symm.trans ran
  · cases answered.symm.trans ran
    exact ⟨.inl rfl, rfl, rfl, rfl⟩
  · cases answered.symm.trans ran
    exact ⟨.inr ⟨_, db.nextId_fresh, rfl, fun _ => registered.mem_users⟩,
      registered.entries, registered.passkeys, registered.wraps⟩

theorem mem_bumpEpoch {userId : Int} {before : Database} {user : User} :
    user ∈ (effect (bumpEpoch userId) before).users ↔ ∃ old ∈ before.users,
      (if old.id = userId then { old with sessionEpoch := old.sessionEpoch + 1 }
        else old) = user := by
  apply Database.mem_updateUser
  exact fun _ => ⟨rfl, rfl⟩

end Statements

end TimeTracker.Server.Outcomes
