import TimeTracker.Server.Entries
import TimeTracker.Storage.Seam

/-!
# Writing and reading a day

The half of the seam the page talks to: the value on screen, the task each
write of it spawns, and the task each load of a day spawns.  A write seals the
body and then sends it; a load asks the server, opens the row, and publishes the
text if nothing newer began meanwhile.
-/

namespace TimeTracker.Storage.Hook

open TimeTracker.Text
open TimeTracker.Date
open TimeTracker.Library.Atomic
open TimeTracker.Crypto.Wire
open TimeTracker.Server.Schema
open TimeTracker.Server.Functions
open TimeTracker.Server.Execution
open TimeTracker.Server.Entries
open TimeTracker.Tab.State
open TimeTracker.Storage.Envelopes
open TimeTracker.Storage.Seam

/-- A nonce drawn for AES-GCM. -/
abbrev Nonce := { bytes : Bytes // bytes.length = NONCE_LEN }

/-- How far a write has come. -/
inductive StoreStage (K : Type)
  | sealing (target : WriteTarget K)
  | sending (target : WriteTarget K) (envelope : String)
  | finished (result : Except StorageError Unit)
  deriving DecidableEq

/-- A write in flight, with the day and the text it was spawned for. -/
structure StoreTask (K : Type) where
  key : StorageKey
  value : String
  stage : StoreStage K
  deriving DecidableEq

section Tasks

variable {K : Type}

/-- Writes a value: a refused write never starts. -/
def store (backend : Backend) (key : StorageKey) (value : String)
    (session : WriteKey K) : StoreTask K :=
  match writeTarget backend key session with
  | .ok target => { key, value, stage := .sealing target }
  | .error error => { key, value, stage := .finished (.error error) }

/-- The request context of a save sent with this session. -/
def request (claims : SessionClaims) (now : Timestamp) : AppCtx :=
  { claims := some claims, passkeyState := none, now }

namespace StoreTask

/-- The body is wrapped, and sealed if the target has a key. -/
def sealWith (platform : Platform K) (nonce : Nonce) (task : StoreTask K) :
    Option (StoreTask K) :=
  match task.stage with
  | .sealing target =>
      let envelope := wrap platform nonce.val task.value target.sealing
      some { task with stage := .sending target envelope }
  | _ => none

/-- WebCrypto refuses to seal. -/
def sealFailed (task : StoreTask K) : Option (StoreTask K) :=
  match task.stage with
  | .sealing _ =>
      let error := StorageError.crypto task.key.asKey (.rejected "encrypt")
      some { task with stage := .finished (.error error) }
  | _ => none

/-- The server executes the request and answers it. -/
def executeSave (ctx : AppCtx) (db : Database) (task : StoreTask K) :
    Option (StoreTask K × Database) :=
  match task.stage with
  | .sending (.remote _) envelope =>
      let save := entrySave ctx (toIso task.key.date) envelope
      let outcome := execute save none ⟨none, db, []⟩
      let result := outcome.1.1.mapError StorageError.server
      some ({ task with stage := .finished result }, outcome.2.store)
  | _ => none

/-- Whether the write has been stored. -/
def Stored (task : StoreTask K) : Prop :=
  task.stage = .finished (.ok ())

instance [DecidableEq K] (task : StoreTask K) : Decidable task.Stored :=
  inferInstanceAs (Decidable (task.stage = .finished (.ok ())))

end StoreTask

end Tasks

/-- A value persisted across reloads. -/
structure Persistent where
  value : Option String
  key : StorageKey
  backend : Backend
  generation : Generation
  deriving DecidableEq

/-- Updates the value and spawns the write of it. -/
def Persistent.set {K : Type} (day : Persistent) (session : EncryptionState K)
    (value : String) : Persistent × StoreTask K :=
  ({ day with value := some value, generation := day.generation.next },
    store day.backend day.key value session.writeKey)

/-! ## One load -/

/-- How far a load has come. -/
inductive LoadStage (K : Type)
  | requesting
  | opening (read : RowRead K)
  | resolved (read : Except StorageError (Option String))
  | finished
  deriving DecidableEq

/-- A load in flight, with the day, the key and the token it began with. -/
structure LoadTask (K : Type) where
  key : StorageKey
  session : Option (SessionKey K)
  token : Nat
  stage : LoadStage K
  deriving DecidableEq

/-- What a finished read leaves the day showing. -/
inductive Loaded
  | value (text : String)
  | sealed
  | unopenable
  deriving DecidableEq, Repr

/-- Collapses a storage read into the loaded state: nothing stored and most
failures alike become loaded and empty. -/
def loadedValue : Except StorageError (Option String) → Loaded
  | .ok value => .value (value.getD "")
  | .error (.locked _) => .sealed
  | .error (.crypto _ _) => .unopenable
  | .error _ => .value ""

/-- The load effect: blanks the value, and spawns a load as the newest operation. -/
def Persistent.load {K : Type} (day : Persistent) (session : EncryptionState K) :
    Persistent × LoadTask K :=
  let generation := day.generation.next
  ({ day with value := none, generation },
    { key := day.key, session := session.key, token := generation.count,
      stage := .requesting })

namespace LoadTask

variable {K : Type}

/-- The request comes back with the stored row, with nothing, or failed. -/
def answer (platform : Platform K) (raw : Except StorageError (Option String))
    (task : LoadTask K) : Option (LoadTask K) :=
  match task.stage with
  | .requesting =>
      some { task with
        stage := match raw with
          | .error error => .resolved (.error error)
          | .ok none => .resolved (.ok none)
          | .ok (some raw) =>
              match decideRow platform raw task.session task.key with
              | .error error => .resolved (.error error)
              | .ok read => .opening read }
  | _ => none

/-- The server executes the request and answers it. -/
def executeLoad (platform : Platform K) (ctx : AppCtx) (db : Database) (task : LoadTask K) :
    Option (LoadTask K) :=
  let reply := (execute (entryLoad ctx (toIso task.key.date)) none ⟨none, db, []⟩).1.1
  task.answer platform (reply.mapError .server)

/-- The row is opened, if its key opens it. -/
def openWith (platform : Platform K) (task : LoadTask K) : Option (LoadTask K) :=
  match task.stage with
  | .opening read =>
      some { task with stage := .resolved ((openRow platform read task.key).map some) }
  | _ => none

/-- What the load publishes: nothing if a newer operation has begun, and nothing over a
row that says the session is stale. -/
def publishes? (generation : Generation) (reprobing : Bool) (task : LoadTask K) :
    Option String :=
  match task.stage with
  | .resolved read =>
      if generation.isCurrent task.token then
        match loadedValue read with
        | .value text => some text
        | .sealed => none
        | .unopenable => if reprobing then none else some ""
      else none
  | _ => none

/-- The load ends. -/
def finish (task : LoadTask K) : Option (LoadTask K) :=
  match task.stage with
  | .resolved _ => some { task with stage := .finished }
  | _ => none

end LoadTask

/-! ## What one task does -/

section Tasks

variable {K : Type} {platform : Platform K} {task next : StoreTask K}
  {nonce : Nonce} {ctx : AppCtx} {db after : Database}

theorem StoreTask.sealWith_eq_some :
    task.sealWith platform nonce = some next ↔
      ∃ target, task.stage = .sealing target ∧
        next = { task with
          stage := .sending target
            (wrap platform nonce.val task.value target.sealing) } := by
  unfold StoreTask.sealWith
  split
  · next target at_stage =>
      simp only [Option.some.injEq, at_stage, StoreStage.sealing.injEq]
      exact ⟨fun same => ⟨target, rfl, same.symm⟩, fun ⟨_, rfl, same⟩ => same.symm⟩
  · next other =>
      constructor
      · nofun
      · rintro ⟨target, at_stage, -⟩
        exact absurd at_stage (other target)

theorem StoreTask.sealFailed_eq_some (failed : task.sealFailed = some next) :
    (∃ target, task.stage = .sealing target) ∧
      next = { task with
        stage := .finished (.error (.crypto task.key.asKey (.rejected "encrypt"))) } := by
  unfold StoreTask.sealFailed at failed
  split at failed
  · next target at_stage =>
      cases failed
      exact ⟨⟨target, at_stage⟩, rfl⟩
  · cases failed

/-- An executed save was refused and changed nothing, or it stored its envelope
for the account its session names. -/
theorem StoreTask.executeSave_cases (executed : task.executeSave ctx db = some (next, after)) :
    ∃ session envelope, task.stage = .sending (.remote session) envelope ∧
      ((∃ error, next = { task with stage := .finished (.error error) }) ∧ after = db ∨
        next = { task with stage := .finished (.ok ()) } ∧
          ∃ me, SignedIn ctx db me ∧
            Saved me.id (toIso task.key.date) envelope db after) := by
  unfold StoreTask.executeSave at executed
  split at executed
  · next session envelope at_stage =>
      cases executed
      refine ⟨session, envelope, at_stage, ?_⟩
      have outcome := ensures_entrySave_saved ctx (toIso task.key.date) envelope db []
        none none
      obtain ⟨⟨message, refused⟩, same⟩ | ⟨accepted, saved⟩ := outcome
      · rw [refused]
        exact Or.inl ⟨⟨_, rfl⟩, same⟩
      · rw [accepted]
        exact Or.inr ⟨rfl, saved⟩
  · cases executed

end Tasks

end TimeTracker.Storage.Hook
