import TimeTracker.Server.Account

/-!
# Concurrent key changes

Key-changing requests interleaved statement by statement, and when a passkey
wrap can be left without its passkey.
-/

namespace TimeTracker.Server.Concurrent

open TimeTracker.Text
open TimeTracker.Crypto.Wire
open TimeTracker.Library.Atomic
open TimeTracker.Library.Run
open TimeTracker.Server.Schema
open TimeTracker.Server.Store
open TimeTracker.Server.Ceremony
open TimeTracker.Server.Functions
open TimeTracker.Server.Execution
open TimeTracker.Server.Outcomes
open TimeTracker.Server.Account

/-- The requests that change an account's keys or passkeys, each under the
context it arrived with. -/
inductive KeyChange
  | addPasskeyWrap (ctx : AppCtx) (credentialId wrappedKey : Bytes)
  | replaceKeyWrap (ctx : AppCtx) (wrappedKey : Bytes)
  | registerFinish (ctx : AppCtx) (responseJson : String) (prfCapable : Bool)
  | deletePasskey (ctx : AppCtx) (id : Int)

/-- The server function of a request. -/
def KeyChange.handler (wa : Webauthn) : KeyChange → Handler Unit
  | .addPasskeyWrap ctx credentialId wrappedKey =>
      encryptionAddPasskeyWrap ctx credentialId wrappedKey
  | .replaceKeyWrap ctx wrappedKey => encryptionReplaceKeyWrap ctx wrappedKey
  | .registerFinish ctx responseJson prfCapable =>
      passkeyRegisterFinish wa ctx responseJson prfCapable
  | .deletePasskey ctx id => passkeyDelete ctx id

/-- The thread that serves a request. -/
def thread (wa : Webauthn) (request : KeyChange) :
    Program Database Site DbError (Except String Unit × Option SetCookie) :=
  ((request.handler wa).run.run none)

/-- Every passkey wrap names a passkey of the same user. -/
def WrapsBacked (db : Database) : Prop :=
  ∀ row ∈ db.wraps, row.kind = WrapKind.passkey.asStr →
    ∃ credentialId, row.credentialId = some credentialId ∧
      Enrolled db row.userId credentialId

/-- A wrap that is about to be inserted, and not to be refused by an index,
names a passkey its account still has. -/
def InsertsEnrolled : Site → Database → Prop
  | .insertWrap userId credentialId, db =>
      db.HasUser userId →
        db.RoomFor userId WrapKind.passkey.asStr (some credentialId) →
          Enrolled db userId credentialId
  | _, _ => True

/-- The statement keeps the wraps backed exactly when it meets the condition. -/
abbrev Exact : Site → (Database → Database) → Prop :=
  Pool.Exact WrapsBacked InsertsEnrolled

section Statements

variable {site : Site}

/-- A statement whose label carries no condition only has to keep the wraps
backed. -/
theorem exact_of_keeps {α : Type} {statement : Sql α}
    (free : ∀ db, InsertsEnrolled site db)
    (keeps : ∀ db value next, WrapsBacked db →
      statement db = .ok (value, next) → WrapsBacked next) :
    Exact site (effect statement) := by
  refine fun db backed => iff_of_true ?_ (free db)
  cases ran : statement db with
  | error failure => rwa [effect_of_error ran]
  | ok pair =>
      rw [effect_of_ok ran]
      exact keeps db pair.1 pair.2 backed ran

theorem exact_of_reads {α : Type} {statement : Sql α}
    (free : ∀ db, InsertsEnrolled site db)
    (reads : ∀ db value next, statement db = .ok (value, next) → next = db) :
    Exact site (effect statement) :=
  exact_of_keeps free fun db value next backed ran => reads db value next ran ▸ backed

theorem backed_iff {db : Database} :
    WrapsBacked db ↔ ∀ userId, Backed db userId := by
  constructor
  · rintro backed userId row hrow ⟨rfl, kind⟩
    exact backed row hrow kind
  · intro backed row hrow kind
    exact backed row.userId row hrow ⟨rfl, kind⟩

theorem exact_insertWrap (userId : Int) (credentialId wrappedKey : Bytes)
    (now : Timestamp) :
    Exact (.insertWrap userId credentialId)
      (effect (insertWrap userId .passkey (some credentialId) wrappedKey now)) := by
  intro db backed
  by_cases accepted : db.HasUser userId ∧
      db.RoomFor userId WrapKind.passkey.asStr (some credentialId)
  · obtain ⟨next, ran⟩ := insertWrap_isOk .passkey wrappedKey now accepted.1 accepted.2
    obtain ⟨id, inserted⟩ := Outcomes.wrapInserted ran
    rw [effect_of_ok ran]
    have enrolled : ∀ {userId credentialId}, Enrolled next userId credentialId ↔
        Enrolled db userId credentialId := by
      unfold Enrolled
      rw [inserted.passkeys]
    constructor
    · intro after _ _
      obtain ⟨other, filed, mine⟩ := after _ ((inserted.wraps _).mpr (.inr rfl)) rfl
      cases filed
      exact enrolled.mp mine
    · intro enrolls row hrow kind
      rcases (inserted.wraps row).mp hrow with old | rfl
      · obtain ⟨other, filed, mine⟩ := backed row old kind
        exact ⟨other, filed, enrolled.mpr mine⟩
      · exact ⟨credentialId, rfl, enrolled.mpr (enrolls accepted.1 accepted.2)⟩
  · have refused : effect (insertWrap userId .passkey (some credentialId) wrappedKey
        now) db = db := by
      cases ran : insertWrap userId .passkey (some credentialId) wrappedKey now db with
      | error failure => exact effect_of_error ran
      | ok pair =>
          exact absurd ((Database.insertWrap_isOk db _).mp
            ⟨pair.2, insertWrap_ran ran⟩) accepted
    rw [refused]
    exact iff_of_true backed fun huser room => absurd ⟨huser, room⟩ accepted

/-- Statements that add no passkey wrap and take no passkey away from one. -/
theorem backed_of_guarded {db next : Database}
    (guarded : ∀ userId, Guarded userId db next) : WrapsBacked next :=
  backed_iff.mpr fun userId => (guarded userId).1

end Statements

/-! ## The requests -/

section Requests

variable (ctx : AppCtx)

theorem each_requireUser : Each Exact (requireUser ctx) := by
  refine each_bind (each_orRefuse _ _) fun claims => ?_
  refine each_bind (each_query (exact_of_reads (fun _ => trivial)
    fun _ _ _ ran => (findByEmail_eq_ok ran).1)) fun found => ?_
  refine each_bind (each_orRefuse _ _) fun found => ?_
  exact each_ite (each_bind (each_throw _) fun _ => each_pure _) (each_pure _)

theorem each_encryptionAddPasskeyWrap (credentialId wrappedKey : Bytes) :
    Each Exact (encryptionAddPasskeyWrap ctx credentialId wrappedKey) := by
  refine each_bind (each_requireUser ctx) fun me => ?_
  refine each_bind (each_ite (each_pure _) (each_throw _)) fun _ => ?_
  refine each_bind (each_query (exact_of_reads (fun _ => trivial)
    fun _ _ _ ran => (findByCredentialId_eq_ok ran).1)) fun row => ?_
  have last : Each Exact (query (.insertWrap me.id credentialId)
      (insertWrap me.id .passkey (some credentialId) wrappedKey ctx.now)) :=
    each_query (exact_insertWrap me.id credentialId wrappedKey ctx.now)
  have third : Each Exact (do
      if ← query (.hasWrap me.id credentialId)
          (hasWrapForCredential me.id credentialId) then
        throw "That passkey can already open your entries."
      query (.insertWrap me.id credentialId)
        (insertWrap me.id .passkey (some credentialId) wrappedKey ctx.now)) := by
    refine each_bind (each_query (exact_of_reads (fun _ => trivial)
      fun _ _ _ ran => (hasWrapForCredential_eq_ok ran).1)) fun present => ?_
    exact each_ite (each_bind (each_throw _) fun _ => last) last
  have second : Each Exact (do
      if !(← query (.isEncrypted me.id) (isEncrypted me.id)) then
        throw "This account isn't encrypted, so there's no key to give that passkey."
      if ← query (.hasWrap me.id credentialId)
          (hasWrapForCredential me.id credentialId) then
        throw "That passkey can already open your entries."
      query (.insertWrap me.id credentialId)
        (insertWrap me.id .passkey (some credentialId) wrappedKey ctx.now)) := by
    refine each_bind (each_query (exact_of_reads (fun _ => trivial)
      fun _ _ _ ran => (isEncrypted_eq_ok ran).1)) fun encrypted => ?_
    exact each_ite (each_bind (each_throw _) fun _ => third) third
  exact each_ite (each_bind (each_throw _) fun _ => second) second

theorem each_encryptionReplaceKeyWrap (wrappedKey : Bytes) :
    Each Exact (encryptionReplaceKeyWrap ctx wrappedKey) := by
  refine each_bind (each_requireUser ctx) fun me => ?_
  refine each_bind (each_ite (each_pure _) (each_throw _)) fun _ => ?_
  refine each_query (exact_of_keeps (fun _ => trivial) ?_)
  intro db value next backed ran
  exact backed_of_guarded fun userId =>
    guarded_of_replaced (backed_iff.mp backed userId) ran

theorem each_passkeyRegisterFinish (wa : Webauthn) (responseJson : String)
    (prfCapable : Bool) :
    Each Exact (passkeyRegisterFinish wa ctx responseJson prfCapable) := by
  refine each_bind (each_requireUser ctx) fun me => ?_
  refine each_bind (each_orRefuse _ _) fun raw => ?_
  refine each_bind (each_orRefuse _ _) fun state => ?_
  refine each_bind (each_setCookie _) fun _ => ?_
  cases state with
  | auth subject auth expiresAt => exact each_throw _
  | discoverableAuth auth expiresAt => exact each_throw _
  | reg subject reg expiresAt =>
      have store : Each Exact (do
          let rpc ← orRefuse "Malformed credential response."
            (wa.parseRegister responseJson)
          let key ← orRefuse "Could not verify your passkey."
            (wa.finishRegistration rpc reg)
          let blob ← orRefuse "Internal server error" (wa.toVec key)
          let _ ← query (.insertPasskey me.id)
            (insertPasskey me.id (wa.credId key) blob prfCapable ctx.now)) := by
        refine each_bind (each_orRefuse _ _) fun rpc => ?_
        refine each_bind (each_orRefuse _ _) fun key => ?_
        refine each_bind (each_orRefuse _ _) fun blob => ?_
        refine each_bind (each_query (exact_of_keeps (fun _ => trivial) ?_))
          fun _ => each_pure _
        intro db value next backed ran
        exact backed_of_guarded fun userId =>
          guarded_of_registered (backed_iff.mp backed userId) ran
      exact each_ite (each_bind (each_throw _) fun _ => store) store

theorem each_passkeyDelete (id : Int) : Each Exact (passkeyDelete ctx id) := by
  refine each_bind (each_requireUser ctx) fun me => ?_
  refine each_bind (each_query (exact_of_keeps (fun _ => trivial) ?_))
    fun outcome => each_refuse outcome
  intro db value next backed ran
  rcases deleteTransaction_eq_ok ran with ⟨rfl, -⟩ | ⟨target, -, -, deleted⟩
  · exact backed
  · exact backed_of_guarded fun userId =>
      guarded_of_deleted (backed_iff.mp backed userId) deleted

theorem each_thread (wa : Webauthn) (request : KeyChange) :
    (thread wa request).Each Exact := by
  cases request with
  | addPasskeyWrap ctx credentialId wrappedKey =>
      exact each_encryptionAddPasskeyWrap ctx credentialId wrappedKey none
  | replaceKeyWrap ctx wrappedKey => exact each_encryptionReplaceKeyWrap ctx wrappedKey none
  | registerFinish ctx responseJson prfCapable =>
      exact each_passkeyRegisterFinish ctx wa responseJson prfCapable none
  | deletePasskey ctx id => exact each_passkeyDelete ctx id none

end Requests

/--
From any database whose passkey wraps are backed, every interleaving of key
changes keeps them backed throughout exactly when each wrap it inserts names a
passkey its account still has at that statement.
-/
theorem wraps_backed_iff_inserts_enrolled (wa : Webauthn) (db : Database)
    (moves : List (Move KeyChange DbError)) (backed : WrapsBacked db) :
    Throughout (Pool.step (thread wa)) (fun pool => WrapsBacked pool.store)
        ⟨db, []⟩ moves ↔
      StepsMeet (Pool.step (thread wa)) (Pool.Executes InsertsEnrolled)
        ⟨db, []⟩ moves :=
  Pool.throughout_iff (each_thread wa)
    (fun _ hmem => absurd hmem List.not_mem_nil) backed

/-- Alice's account, encrypted by its encryption key alone, with the passkey
`p` enrolled. -/
def beforeRace : Database :=
  (enrolP ++ [Event.request ⟨aliceCtx, .encryptionEnable none (wrapOf 1), none⟩]).foldl
    (serve plainWebauthn) Database.empty

/-- Giving `p` a wrap. -/
def addP : List (Move KeyChange DbError) :=
  [.start (.addPasskeyWrap aliceCtx (asciiBytes "p") (wrapOf 2)),
    .advance 0, .advance 0, .advance 0, .advance 0, .advance 0]

/-- Deleting `p` between the ownership check of the first request and its insert. -/
def deleteBetween : List (Move KeyChange DbError) :=
  [.start (.addPasskeyWrap aliceCtx (asciiBytes "p") (wrapOf 2)),
    .start (.deletePasskey aliceCtx 1),
    .advance 0, .advance 0, .advance 0, .advance 0, .advance 1, .advance 1,
    .advance 0]

theorem beforeRace_backed : WrapsBacked beforeRace := by
  intro row hrow kind
  rw [List.mem_singleton.mp (show row ∈ [_] from hrow)] at kind
  exact absurd kind.symm WrapKind.asStr_passkey_ne

/-- An interleaving that meets the condition. -/
theorem wraps_backed_addP :
    Throughout (Pool.step (thread plainWebauthn)) (fun pool => WrapsBacked pool.store)
      ⟨beforeRace, []⟩ addP := by
  refine (wraps_backed_iff_inserts_enrolled plainWebauthn beforeRace addP
    beforeRace_backed).mpr ?_
  refine fun _ taken => ⟨trivial, ?_⟩
  cases taken
  -- four reads, and then the insert
  iterate 4
    refine fun _ taken => ⟨fun _ same => ?_, ?_⟩
    · cases same
      trivial
    cases taken
  refine fun _ taken => ⟨fun _ same => ?_, trivial⟩
  cases same
  exact fun _ _ => ⟨rowOfP, List.mem_singleton.mpr rfl, rfl, rfl⟩

/-- The insert goes through after the passkey is gone. -/
theorem deleteBetween_strands_wrap :
    WrapsBacked beforeRace ∧ ∃ db,
      (runFrom (Pool.step (thread plainWebauthn)) ⟨beforeRace, []⟩ deleteBetween).map
        Pool.store = some db ∧ ¬ WrapsBacked db := by
  refine ⟨beforeRace_backed, _, rfl, fun backed => ?_⟩
  obtain ⟨credentialId, -, row, hrow, -⟩ := backed
    (storedWrap 2 1 .passkey (some (asciiBytes "p")) (wrapOf 2) 1)
    (List.mem_cons_of_mem _ (List.mem_singleton.mpr rfl)) rfl
  exact List.not_mem_nil hrow

end TimeTracker.Server.Concurrent
