import Mathlib.Logic.Relation
import TimeTracker.Storage.Saves

/-!
# A sealed body there and back

One write carried to its end and the reads that follow it: the envelope, the
request, the size cap, the row, and the way back through the row's own version.
-/

namespace TimeTracker.Storage.RoundTrip

open Relation
open TimeTracker.Text
open TimeTracker.Date
open TimeTracker.Crypto.Wire
open TimeTracker.Crypto.Subtle
open TimeTracker.Server.Schema
open TimeTracker.Server.Functions
open TimeTracker.Server.Execution
open TimeTracker.Server.Entries
open TimeTracker.Tab.State
open TimeTracker.Storage.Envelopes
open TimeTracker.Storage.Seam
open TimeTracker.Storage.Hook
open TimeTracker.Storage.Saves

section RoundTrips

variable {K : Type} (platform : Platform K)

/-- Reads a value stored on the server, through a request that may fail;
`none` means nothing stored for this day. -/
def load (ctx : AppCtx) (faultAt : Option Nat) (db : Database) (key : StorageKey)
    (session : Option (SessionKey K)) : Except StorageError (Option String) := do
  let answered := (execute (entryLoad ctx (toIso key.date)) none ⟨faultAt, db, []⟩).1.1
  match ← answered.mapError .server with
  | none => return none
  | some raw => return some (← readRow platform raw session key)

/-- A write to its end: sealed with the nonce drawn for it, sent and executed. -/
def finish (nonce : Nonce) (ctx : AppCtx) (db : Database) (task : StoreTask K) :
    Option (StoreTask K × Database) := do
  (← task.sealWith platform nonce).executeSave ctx db

/-! ## What a write hands to the server -/

/-- One stage of a write, whatever the browser and the server make of it. -/
inductive Stage : StoreTask K → StoreTask K → Prop
  | sealed {task next : StoreTask K} (nonce : Nonce)
      (taken : task.sealWith platform nonce = some next) : Stage task next
  | sealFailed {task next : StoreTask K} (taken : task.sealFailed = some next) :
      Stage task next
  | executed {task next : StoreTask K} (ctx : AppCtx) (db after : Database)
      (taken : task.executeSave ctx db = some (next, after)) : Stage task next

/-- What the task sends to the server, if it does, is the v2 envelope of its own
text, sealed under the key of its own target. -/
structure Seals (task : StoreTask K) : Prop where
  envelope : ∀ session envelope, task.stage = .sending (.remote session) envelope →
    ∃ nonce : Nonce, envelope = wrap platform nonce.val task.value (some session)

variable {platform}

theorem seals_store (backend : Backend) (key : StorageKey) (value : String)
    (session : WriteKey K) : Seals platform (store backend key value session) := by
  constructor
  intro target envelope at_stage
  unfold store at at_stage
  split at at_stage
  · cases at_stage
  · cases at_stage

theorem Seals.stage {task next : StoreTask K} (taken : Stage platform task next) :
    Seals platform next := by
  constructor
  intro session envelope at_stage
  cases taken with
  | sealed nonce sealing =>
      obtain ⟨target, -, rfl⟩ := StoreTask.sealWith_eq_some.mp sealing
      cases at_stage
      exact ⟨nonce, rfl⟩
  | sealFailed failing =>
      obtain ⟨-, rfl⟩ := StoreTask.sealFailed_eq_some failing
      cases at_stage
  | executed ctx db after executing =>
      obtain ⟨target, sent, -, ⟨⟨error, rfl⟩, -⟩ | ⟨rfl, -⟩⟩ :=
        StoreTask.executeSave_cases executing
      · cases at_stage
      · cases at_stage

theorem Seals.stages {task last : StoreTask K} (start : Seals platform task)
    (stages : ReflTransGen (Stage platform) task last) : Seals platform last := by
  cases stages with
  | refl => exact start
  | tail _ taken => exact Seals.stage taken

/-! ## What a read makes of the row -/

variable {ctx : AppCtx} {db : Database} {me : User} {key : StorageKey} {raw : String}

/-- An unfailing load reads the row of the account its session names. -/
theorem load_of_row (signedIn : SignedIn ctx db me)
    (row : bodyOf db me.id (toIso key.date) = some raw) (session : Option (SessionKey K)) :
    load platform ctx none db key session =
      (readRow platform raw session key).map some := by
  unfold load
  rw [execute_entryLoad signedIn, row]
  cases read : readRow platform raw session key <;>
    simp [bind, Except.bind, Except.mapError, read, pure, Except.pure, Except.map]

/-- A load that answers read the row of the account its session names. -/
theorem load_eq_ok (signedIn : SignedIn ctx db me)
    (row : bodyOf db me.id (toIso key.date) = some raw) {faultAt : Option Nat}
    {session : Option (SessionKey K)} {value : Option String}
    (answered : load platform ctx faultAt db key session = .ok value) :
    ∃ text, value = some text ∧ readRow platform raw session key = .ok text := by
  have ensured : Ensures (entryLoad ctx (toIso key.date)) db [] fun reply _ _ =>
      ∀ body, reply = .ok body → body = bodyOf db me.id (toIso key.date) :=
    ensures_entryLoad signedIn key.date
  have only := ensured faultAt none
  dsimp only at only
  unfold load at answered
  dsimp only at answered
  generalize (execute (entryLoad ctx (toIso key.date)) none
    ⟨faultAt, db, []⟩).1.1 = reply at only answered
  cases reply with
  | error message => cases answered
  | ok body =>
      rw [row] at only
      cases only body rfl
      cases read : readRow platform raw session key with
      | error failure =>
          simp [bind, Except.bind, Except.mapError, read] at answered
      | ok text =>
          simp [bind, Except.bind, Except.mapError, read, pure, Except.pure] at answered
          exact ⟨text, answered.symm, rfl⟩

/-- A sealed row is locked to a session without a key. -/
theorem readRow_wrap_locked (nonce : Nonce) (body : String) (writer : SessionKey K)
    (key : StorageKey) :
    readRow platform (wrap platform nonce.val body (some writer)) none key =
      .error (.locked key.asKey) := by
  have plan : planRead platform.formats (wrap platform nonce.val body (some writer)) =
      .ok (.sealed (sealBody platform.cipher writer.key nonce.val body)) :=
    planRead_encodeV2 platform.formats nonce.property
  simp [readRow, decideRow, plan, bind, Except.bind]

/-- A sealed row does not open under another data key. -/
theorem readRow_wrap_of_ne {writer reader : SessionKey K} (apart : writer.key ≠ reader.key)
    (nonce : Nonce) (body : String) (key : StorageKey) :
    readRow platform (wrap platform nonce.val body (some writer)) (some reader) key =
      .error (.crypto key.asKey (.rejected "decrypt")) := by
  have plan : planRead platform.formats (wrap platform nonce.val body (some writer)) =
      .ok (.sealed (sealBody platform.cipher writer.key nonce.val body)) :=
    planRead_encodeV2 platform.formats nonce.property
  simp [readRow, decideRow, plan, openRow, openBody_of_ne platform.cipher apart, bind,
    Except.bind, Except.mapError]

variable (platform)

/-- Every read of the day through this request: the body under the data key, and
under nothing else. -/
structure ReadsBack (ctx : AppCtx) (db : Database) (key : StorageKey) (dek : K)
    (body : String) : Prop where
  opens : ∀ reader : SessionKey K, reader.key = dek →
    load platform ctx none db key (some reader) = .ok (some body)
  locked : load platform ctx none db key none = .error (.locked key.asKey)
  rejects : ∀ reader : SessionKey K, reader.key ≠ dek →
    load platform ctx none db key (some reader) =
      .error (.crypto key.asKey (.rejected "decrypt"))
  only : ∀ faultAt session text,
    load platform ctx faultAt db key session = .ok (some text) →
      text = body ∧ ∃ reader, session = some reader ∧ reader.key = dek

variable {platform}

theorem readsBack_of_row (signedIn : SignedIn ctx db me) {nonce : Nonce} {body : String}
    {writer : SessionKey K}
    (row : bodyOf db me.id (toIso key.date) =
      some (wrap platform nonce.val body (some writer))) :
    ReadsBack platform ctx db key writer.key body := by
  constructor
  · intro reader same
    rw [load_of_row signedIn row, readRow_wrap same.symm nonce.property]
    rfl
  · rw [load_of_row signedIn row, readRow_wrap_locked]
    rfl
  · intro reader apart
    rw [load_of_row signedIn row, readRow_wrap_of_ne (Ne.symm apart)]
    rfl
  · intro faultAt session text answered
    obtain ⟨_, ⟨⟩, read⟩ := load_eq_ok signedIn row answered
    cases session with
    | none =>
        rw [readRow_wrap_locked] at read
        cases read
    | some reader =>
        by_cases same : reader.key = writer.key
        · rw [readRow_wrap same.symm nonce.property] at read
          exact ⟨(Except.ok.inj read).symm, reader, rfl, same⟩
        · rw [readRow_wrap_of_ne (Ne.symm same)] at read
          cases read

/-! ## The whole path -/

/-- What becomes of a sealed write of an encrypted account. -/
theorem finish_store (nonce : Nonce) (ctx : AppCtx) (db : Database) (key : StorageKey)
    (body : String) (session : SessionKey K) :
    finish platform nonce ctx db (store .remote key body (.sealed session)) =
      some ({ key, value := body,
              stage := .finished ((execute (entrySave ctx (toIso key.date)
                (wrap platform nonce.val body (some session))) none
                  ⟨none, db, []⟩).1.1.mapError .server) },
        (execute (entrySave ctx (toIso key.date)
          (wrap platform nonce.val body (some session))) none ⟨none, db, []⟩).2.store) :=
  rfl

/-- The envelope of a body is stored exactly when it fits, and is refused with
the tables untouched when it does not. -/
theorem finish_cases (platform : Platform K) (nonce : Nonce) (body : String) (key : StorageKey)
    (session : SessionKey K) (signedIn : SignedIn ctx db me)
    (encrypted : me.encryptedAt ≠ none) :
    ∃ done after,
      finish platform nonce ctx db (store .remote key body (.sealed session)) =
          some (done, after) ∧
        ((wrap platform nonce.val body (some session)).utf8ByteSize ≤ MAX_BODY_BYTES ∧
            done.Stored ∧
            bodyOf after me.id (toIso key.date) =
              some (wrap platform nonce.val body (some session)) ∨
          MAX_BODY_BYTES < (wrap platform nonce.val body (some session)).utf8ByteSize ∧
            (∃ error, done.stage = .finished (.error error)) ∧ after = db) := by
  refine ⟨_, _, finish_store nonce ctx db key body session, ?_⟩
  generalize wrap platform nonce.val body (some session) = envelope
  rcases le_or_gt envelope.utf8ByteSize MAX_BODY_BYTES with fits | tooLarge
  · refine Or.inl ⟨fits, ?_⟩
    have accepted : (execute (entrySave ctx (toIso key.date) envelope) none
        ⟨none, db, []⟩).1.1 = .ok () :=
      execute_entrySave signedIn encrypted key.date fits none
    obtain ⟨⟨message, refused⟩, -⟩ | ⟨-, other, otherIn, saved⟩ :=
      ensures_entrySave_saved ctx (toIso key.date) envelope db [] none none
    · cases accepted.symm.trans refused
    · obtain rfl := otherIn.unique signedIn
      refine ⟨?_, saved.stored⟩
      simp only [StoreTask.Stored, accepted]
      rfl
  · have ensured : Ensures (entrySave ctx (toIso key.date) envelope) db [] fun reply next _ =>
        (∃ message, reply = .error message) ∧ next = db :=
      ensures_entrySave_too_large (toIso key.date) tooLarge
    obtain ⟨⟨message, refused⟩, same⟩ := ensured none none
    refine Or.inr ⟨tooLarge, ⟨.server message, ?_⟩, same⟩
    simp only [refused]
    rfl

/-- The whole save and load path of a sealed body: every string a write hands to
the server is a v2 envelope; an envelope within the cap is stored, and reads back
as the body under the data key and under nothing else for as long as the row
stands; and an envelope over the cap is refused with the tables as they were. -/
theorem sealed_round_trip (platform : Platform K) (key : StorageKey) (body : String)
    (session : SessionKey K) (nonce : Nonce) (ctx : AppCtx) (db : Database) (me : User)
    (signedIn : SignedIn ctx db me) (encrypted : me.encryptedAt ≠ none) :
    (∀ backend value write sending target envelope,
      ReflTransGen (Stage platform) (store backend key value write) sending →
      sending.stage = .sending (.remote target) envelope →
        ∃ content, planRead platform.formats envelope = .ok (.sealed content)) ∧
    (∀ faultAt envelope, MAX_BODY_BYTES < envelope.utf8ByteSize →
      (∃ message, (execute (entrySave ctx (toIso key.date) envelope) none
        ⟨faultAt, db, []⟩).1.1 = .error message) ∧
      (execute (entrySave ctx (toIso key.date) envelope) none
        ⟨faultAt, db, []⟩).2.store = db) ∧
    ∃ done after,
      finish platform nonce ctx db (store .remote key body (.sealed session)) =
          some (done, after) ∧
      (done.Stored ↔
        (wrap platform nonce.val body (some session)).utf8ByteSize ≤ MAX_BODY_BYTES) ∧
      (¬ done.Stored → (∃ error, done.stage = .finished (.error error)) ∧ after = db) ∧
      (done.Stored → ∀ ctx' later me', SignedIn ctx' later me' → me'.id = me.id →
        bodyOf later me.id (toIso key.date) = bodyOf after me.id (toIso key.date) →
          ReadsBack platform ctx' later key session.key body) := by
  refine ⟨?_, ?_, ?_⟩
  · intro backend value write sending target envelope stages at_stage
    obtain ⟨drawn, rfl⟩ :=
      ((seals_store backend key value write).stages stages).envelope target envelope at_stage
    exact ⟨_, planRead_encodeV2 platform.formats drawn.property⟩
  · intro faultAt envelope tooLarge
    exact ensures_entrySave_too_large (toIso key.date) tooLarge faultAt none
  · obtain ⟨done, after, finished, ⟨fits, stored, row⟩ | ⟨tooLarge, ⟨error, failed⟩, same⟩⟩ :=
      finish_cases platform nonce body key session signedIn encrypted
    · refine ⟨done, after, finished, iff_of_true stored fits, absurd stored, ?_⟩
      intro _ ctx' later me' signedIn' account kept
      apply readsBack_of_row signedIn'
      rw [account, kept, row]
    · have unstored : ¬ done.Stored := by
        intro stored
        cases failed.symm.trans stored
      exact ⟨done, after, finished, iff_of_false unstored (not_le.mpr tooLarge),
        fun _ => ⟨⟨error, failed⟩, same⟩, fun stored => absurd stored unstored⟩

end RoundTrips

/-- alice's first note comes back under her key, and is locked without it. -/
theorem sealed_round_trip_alice :
    ∃ done after,
      finish plainPlatform (plainNonce 1) (request aliceClaims 0) aliceEncrypted
          (store .remote (.timeEntry mayFirst) "a" (.sealed aliceKey)) = some (done, after) ∧
      done.Stored ∧
      load plainPlatform (request aliceClaims 5) none after (.timeEntry mayFirst)
          (some aliceKey) = .ok (some "a") ∧
      load plainPlatform (request aliceClaims 5) none after (.timeEntry mayFirst) none =
          .error (.locked "time_entry:2026-05-01") := by
  have signedIn : SignedIn (request aliceClaims 0) aliceEncrypted alice :=
    ⟨aliceClaims, "alice@example.com", rfl, by decide, by decide, rfl⟩
  have fits : (wrap plainPlatform (plainNonce 1).val "a" (some aliceKey)).utf8ByteSize ≤
      MAX_BODY_BYTES := by
    decide +kernel
  obtain ⟨-, -, done, after, finished, stored, -, reads⟩ :=
    sealed_round_trip plainPlatform (.timeEntry mayFirst) "a" aliceKey (plainNonce 1)
      (request aliceClaims 0) aliceEncrypted alice signedIn (by decide)
  have users : (finish plainPlatform (plainNonce 1) (request aliceClaims 0) aliceEncrypted
      (store .remote (.timeEntry mayFirst) "a" (.sealed aliceKey))).map
        (fun ended => ended.2.users.rows) = some [alice] := by
    decide +kernel
  rw [finished] at users
  have found : Server.Store.userByEmail after "alice@example.com" = some alice := by
    have rows : after.users.rows = [alice] := Option.some.inj users
    rw [Server.Store.userByEmail, rows]
    rfl
  have back := reads (stored.mpr fits) (request aliceClaims 5) after alice
    ⟨aliceClaims, "alice@example.com", rfl, by decide, found, rfl⟩ rfl rfl
  refine ⟨done, after, finished, stored.mpr fits, back.opens aliceKey rfl, ?_⟩
  rw [back.locked]
  decide

end TimeTracker.Storage.RoundTrip
