import TimeTracker.Server.Opaque

/-!
# The wraps the server stores

Every wrap that a server function files names algorithms this build knows, and has a
credential exactly if it is a passkey's.  However requests interleave, the table holds
no other, so a query by credential and a query by kind see the same wraps.  The functions
that only read, and the one that renames a passkey, touch no wrap and are left out.
-/

namespace TimeTracker.Server.Filing

open TimeTracker.Text
open TimeTracker.Crypto.Wire
open TimeTracker.Library
open TimeTracker.Library.Run
open TimeTracker.Library.Indexed
open TimeTracker.Library.Serving
open TimeTracker.Server.Schema
open TimeTracker.Server.Store
open TimeTracker.Server.Ceremony
open TimeTracker.Server.Functions
open TimeTracker.Server.Execution
open TimeTracker.Server.Outcomes
open TimeTracker.Server.Interference
open TimeTracker.Server.Revocation (Free)
open TimeTracker.Server.Opaque

/-- A wrap as a server function files it. -/
inductive Known : EntryKeyWrap → Prop
  | passkey (id userId : Int) (credentialId wrapped : Bytes) (now : Timestamp) :
      Known (storedWrap id userId .passkey (some credentialId) wrapped now)
  | encryptionKey (id userId : Int) (wrapped : Bytes) (now : Timestamp) :
      Known (storedWrap id userId .encryptionKey none wrapped now)

def KnownWraps (db : Database) : Prop :=
  ∀ row ∈ db.wraps, Known row

/-! ## What the statements keep -/

section Statements

variable {before after : Database}

theorem KnownWraps.of_wraps (known : KnownWraps before)
    (wraps : ∀ row ∈ after.wraps, row ∈ before.wraps ∨ Known row) : KnownWraps after :=
  fun row stored => (wraps row stored).elim (known row) id

theorem KnownWraps.of_same (known : KnownWraps before) (same : after.wraps = before.wraps) :
    KnownWraps after :=
  known.of_wraps fun _ stored => .inl (same ▸ stored)

theorem knownWraps_enableTransaction {userId : Int} {passkey : Option PasskeyWrapDto}
    {encryptionKeyWrap : Bytes} {now : Timestamp} {outcome : Except String Unit}
    (ran : enableTransaction userId passkey encryptionKeyWrap now before = .ok (outcome, after))
    (known : KnownWraps before) : KnownWraps after := by
  obtain ⟨rfl, -⟩ | ⟨-, -, -, enabled⟩ := enableTransaction_eq_ok ran
  · exact known
  · obtain ⟨keyId, passkeyId, wraps⟩ := enabled.wraps
    refine known.of_wraps fun row stored => ?_
    obtain old | rfl | ⟨dto, -, rfl⟩ := (wraps row).mp stored
    · exact .inl old
    · exact .inr (.encryptionKey ..)
    · exact .inr (.passkey ..)

theorem knownWraps_replaceEncryptionKeyWrap {userId : Int} {wrapped : Bytes} {now : Timestamp}
    {value : Unit}
    (ran : replaceEncryptionKeyWrap userId wrapped now before = .ok (value, after))
    (known : KnownWraps before) : KnownWraps after := by
  obtain ⟨rfl, -⟩ | replaced := replaceEncryptionKeyWrap_eq_ok ran
  · exact known
  · obtain ⟨id, wraps⟩ := replaced.wraps
    refine known.of_wraps fun row stored => ?_
    obtain ⟨old, -⟩ | rfl := (wraps row).mp stored
    · exact .inl old
    · exact .inr (.encryptionKey ..)

/-- No statement files any other wrap. -/
theorem writes_knownWraps : Writes fun before after => KnownWraps before → KnownWraps after where
  refl _ known := known
  enableTransaction := knownWraps_enableTransaction
  insertWrap ran known := by
    obtain ⟨id, inserted⟩ := Outcomes.wrapInserted ran
    refine known.of_wraps fun row stored => ?_
    obtain old | rfl := (inserted.wraps row).mp stored
    · exact .inl old
    · exact .inr (.passkey ..)
  replaceEncryptionKeyWrap := knownWraps_replaceEncryptionKeyWrap
  findOrCreate ran known := known.of_same (findOrCreate_eq_ok ran).2.2.2
  updatePasskey _ _ _ _ known := known
  insertPasskey ran known := known.of_same (Outcomes.insertPasskey_eq_ok ran).2.2.2
  deleteTransaction ran known := by
    obtain ⟨rfl, -⟩ | ⟨target, -, -, deleted⟩ := deleteTransaction_eq_ok ran
    · exact known
    · exact known.of_wraps fun row stored => .inl ((deleted.wraps row).mp stored).1
  bumpEpoch := by
    rintro userId value before after ⟨⟩ known
    exact known

theorem knownWraps_saveTransaction {userId : Int} {date : Date.NaiveDate} {body : String}
    {now : Timestamp} {outcome : Except String Unit}
    (ran : saveTransaction userId date body now before = .ok (outcome, after))
    (known : KnownWraps before) : KnownWraps after := by
  obtain ⟨rfl, -⟩ | ⟨-, -, saved⟩ := saveTransaction_eq_ok ran
  · exact known
  · exact known.of_same (Database.upsertEntry_eq_ok saved).2.2.2

end Statements

/-! ## Every table the server functions reach -/

section Runs

variable {wa : Webauthn} {service next : Requests} {event : Event}

/-- The requests in progress file only such wraps, and there are no others. -/
structure Sound (service : Requests) : Prop where
  promises : service.Promises (fun _ before after => KnownWraps before → KnownWraps after)
    fun _ _ => True
  known : KnownWraps service.store

theorem Sound.step (sound : Sound service)
    (taken : Serving.step (serve wa) service event = some next) : Sound next := by
  have serves : ∀ (request : Request) store, Serves Free
      (fun _ before after => KnownWraps before → KnownWraps after) (fun _ _ => True)
        (request.handler wa) none store :=
    fun _ _ => writes_knownWraps.serves fun _ _ _ _ _ _ _ _ _ => knownWraps_saveTransaction
  obtain ⟨promises, ⟨same, -⟩ | ⟨id, site, -, -, kept⟩, -⟩ :=
    step_promises serves sound.promises taken
  · exact ⟨promises, same ▸ sound.known⟩
  · exact ⟨promises, kept sound.known⟩

/-- However the requests interleave, and whichever statements fail. -/
theorem knownWraps_of_run {events : List Event}
    (ran : runFrom (Serving.step (serve wa)) (.idle .empty) events = some service) :
    KnownWraps service.store := by
  have sound : Sound service := by
    refine invariant_runFrom (I := Sound) (fun _ _ _ held taken => held.step taken) ?_ ran
    exact ⟨nofun, fun row stored => absurd stored (Table.not_mem_empty row)⟩
  exact sound.known

end Runs

/-! ## What the queries see -/

section Queries

variable {db : Database} {userId : Int} {credentialId : Bytes} {row : EntryKeyWrap}

/-- A wrap filed under a credential is a passkey's. -/
theorem Known.isPasskeyWrap (known : Known row) (owns : row.userId = userId)
    (filed : row.credentialId = some credentialId) : IsPasskeyWrap userId row := by
  cases known with
  | passkey id other filedUnder wrapped now => exact ⟨owns, rfl⟩
  | encryptionKey id other wrapped now => cases filed

theorem Known.credentialId_eq_none (known : Known row)
    (key : row.kind = WrapKind.encryptionKey.asStr) : row.credentialId = none := by
  cases known with
  | passkey id other filedUnder wrapped now => exact absurd key WrapKind.asStr_passkey_ne
  | encryptionKey id other wrapped now => rfl

theorem Known.algorithms (known : Known row) :
    row.kdf = KDF_HKDF_SHA256 ∧ row.wrapAlg = WRAP_ALG_AESKW256 := by
  cases known with
  | passkey id other filedUnder wrapped now => exact ⟨rfl, rfl⟩
  | encryptionKey id other wrapped now => exact ⟨rfl, rfl⟩

theorem Known.intoWrapRow_isOk (known : Known row) : ∃ read, intoWrapRow row = .ok read := by
  cases known with
  | passkey id other filedUnder wrapped now => exact ⟨_, rfl⟩
  | encryptionKey id other wrapped now => exact ⟨_, rfl⟩

/-- `list_wraps` never meets a kind it does not know. -/
theorem listWraps_isOk (known : KnownWraps db) (userId : Int) :
    ∃ rows, listWraps userId db = .ok (rows, db) := by
  have each : ∀ records : List EntryKeyWrap, (∀ row ∈ records, Known row) →
      ∃ rows, records.mapM intoWrapRow = .ok rows := by
    intro records
    induction records with
    | nil => exact fun _ => ⟨[], rfl⟩
    | cons record rest ih =>
        intro known
        obtain ⟨row, first⟩ := (known record (List.mem_cons_self ..)).intoWrapRow_isOk
        obtain ⟨rows, later⟩ := ih fun row member => known row (List.mem_cons_of_mem _ member)
        refine ⟨row :: rows, ?_⟩
        rw [List.mapM_cons, first, later]
        rfl
  obtain ⟨rows, read⟩ := each (wrapsOf db userId) fun row member =>
    known row (mem_wrapsOf.mp member).1
  refine ⟨rows, ?_⟩
  rw [listWraps, read]
  rfl

/-- What the guard of `passkey_delete` asks of the account's wraps. -/
def thisCredentialHasAWrap (wraps : List WrapRow) (credentialId : Bytes) : Bool :=
  wraps.any fun w => w.kind = .passkey && w.credentialId = some credentialId

/-- The guard of `passkey_delete` finds the wraps `has_wrap_for_credential` counts. -/
theorem thisCredentialHasAWrap_iff (known : KnownWraps db) {rows : List WrapRow}
    (read : listWraps userId db = .ok (rows, db)) :
    thisCredentialHasAWrap rows credentialId = true ↔ HasWrap db userId credentialId := by
  rw [thisCredentialHasAWrap, (guard_counts (listWraps_eq_ok read).2 credentialId).1]
  constructor
  · rintro ⟨row, member, -, filed⟩
    obtain ⟨stored, owns⟩ := mem_wrapsOf.mp member
    exact ⟨row, stored, owns, filed⟩
  · rintro ⟨row, stored, owns, filed⟩
    exact ⟨row, mem_wrapsOf.mpr ⟨stored, owns⟩,
      ((known row stored).isPasskeyWrap owns filed).2, filed⟩

/-- The sentence the last passkey that can unlock is kept with. -/
def LAST_PASSKEY : String :=
  "This is your last passkey that can unlock your encrypted entries. Removing it would lock you out for good — use your encryption key, or add another passkey first."

/-- `passkey_delete` keeps the last passkey that can unlock, and no other. -/
theorem deleteTransaction_refuses_iff (known : KnownWraps db) {target : PasskeyRow}
    (present : target ∈ db.passkeys) (owner : target.userId = userId) :
    deleteTransaction userId target.id db = .ok (.error LAST_PASSKEY, db) ↔
      Encrypted db userId ∧ HasWrap db userId target.credentialId ∧
        (passkeyWraps db userId).length ≤ 1 := by
  obtain ⟨rows, listed⟩ : ∃ rows, listByUser userId db = .ok (rows, db) := ⟨_, rfl⟩
  have found : rows.find? (fun row => row.id = target.id) = some target := by
    obtain ⟨-, member⟩ := listByUser_eq_ok listed
    cases search : rows.find? fun row => row.id = target.id with
    | none =>
        have absent := List.find?_eq_none.mp search target ((member target).mpr ⟨present, owner⟩)
        simp at absent
    | some other =>
        have same : other.id = target.id := by simpa using List.find?_some search
        have stored := ((member other).mp (List.mem_of_find?_eq_some search)).1
        rw [Table.eq_of_conflict PasskeyRow.conflict_symm stored present (.inl same)]
  obtain ⟨user, member, same⟩ := db.passkeys_user target present
  obtain ⟨encrypted, marked⟩ : ∃ encrypted, isEncrypted userId db = .ok (encrypted, db) := by
    rw [isEncrypted, Database.user?_eq_some.mpr ⟨member, same.trans owner⟩]
    exact ⟨_, rfl⟩
  obtain ⟨wraps, read⟩ := listWraps_isOk known userId
  have guard : (encrypted && thisCredentialHasAWrap wraps target.credentialId &&
      (wraps.filter fun w => w.kind = .passkey).length ≤ 1) = true ↔
      Encrypted db userId ∧ HasWrap db userId target.credentialId ∧
        (passkeyWraps db userId).length ≤ 1 := by
    rw [Bool.and_eq_true, Bool.and_eq_true, (isEncrypted_eq_ok marked).2.2,
      thisCredentialHasAWrap_iff known read, decide_eq_true_eq,
      (guard_counts (listWraps_eq_ok read).2 target.credentialId).2, and_assoc]
    rfl
  rw [← guard]
  constructor
  · intro refused
    obtain ⟨_, _, first, rest⟩ := sql_bind_eq_ok.mp refused
    cases listed.symm.trans first
    simp only [found] at rest
    obtain ⟨_, _, first, rest⟩ := sql_bind_eq_ok.mp rest
    cases marked.symm.trans first
    obtain ⟨_, _, first, rest⟩ := sql_bind_eq_ok.mp rest
    cases read.symm.trans first
    split at rest
    · next held => exact held
    · obtain ⟨deleted, removed, first, rest⟩ := sql_bind_eq_ok.mp rest
      split at rest
      · obtain ⟨outcome, -⟩ := Prod.mk.inj (Except.ok.inj rest)
        exact absurd (Except.error.inj outcome) (by simp [LAST_PASSKEY])
      · obtain ⟨_, _, -, rest⟩ := sql_bind_eq_ok.mp rest
        cases rest
  · intro held
    refine sql_bind_eq_ok.mpr ⟨rows, db, listed, ?_⟩
    simp only [found]
    refine sql_bind_eq_ok.mpr ⟨encrypted, db, marked, ?_⟩
    refine sql_bind_eq_ok.mpr ⟨wraps, db, read, ?_⟩
    rw [thisCredentialHasAWrap] at held
    rw [if_pos held]
    rfl

end Queries

end TimeTracker.Server.Filing
