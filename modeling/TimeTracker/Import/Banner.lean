import TimeTracker.Library.Run
import TimeTracker.Storage.Hook
import TimeTracker.Storage.Local

/-!
# The import banner

Copying what a signed-out browser holds into the account that has signed in.  The
offer is made of two scans, of the browser's storage and of the server; a click
copies the offered days one by one.  Other tabs and devices may save in between.
-/

namespace TimeTracker.Import.Banner

open TimeTracker.Date
open TimeTracker.Library.Atomic
open TimeTracker.Server.Schema
open TimeTracker.Server.Functions
open TimeTracker.Server.Execution
open TimeTracker.Server.Entries
open TimeTracker.Tab.State
open TimeTracker.Storage.Envelopes
open TimeTracker.Storage.Seam
open TimeTracker.Storage.Hook
open TimeTracker.Storage.Local

/-- Per-device marker so the banner appears at most once. -/
def DONE_FLAG_KEY : String := "time_entry_import_done"

/-- How far back a first sign-in looks for local entries. -/
def LOOKBACK_DAYS : Nat := 365

/-- The local days worth offering: those the server does not already have. -/
def importable (onDevice onServer : List NaiveDate) : List NaiveDate :=
  onDevice.filter fun day => !onServer.contains day

/-- Whether an import of `total` offered days that landed `copied` of them may settle
this device, and the status line to show for it. -/
def importOutcome (copied total : Nat) : Bool × String :=
  let fullySucceeded := decide (copied = total)
  let message :=
    if fullySucceeded then
      let noun := if copied = 1 then "day" else "days"
      s!"Imported {copied} {noun}."
    else
      let noun := if total = 1 then "day" else "days"
      s!"Imported {copied} of {total} {noun}."
  (fullySucceeded, message)

/-- Whether this device has already been offered (and settled) the import. -/
def alreadyDone (faults : Faults) (storage : LocalStorage) : Bool :=
  !faults.unavailable && !faults.item DONE_FLAG_KEY && (storage.getItem DONE_FLAG_KEY).isSome

/-! ## Making the offer -/

/-- How far an offer has come. -/
inductive OfferStage
  | scanning
  | asking (first today : NaiveDate) (onDevice : List NaiveDate)
  | offering (offer : List NaiveDate)
  | finished
  deriving DecidableEq

/-- An offer being made, by the banner mounted then and under the token it took. -/
structure OfferTask where
  mount : Nat
  token : Nat
  stage : OfferStage
  deriving DecidableEq

namespace OfferTask

/-- Scans the browser's storage; with nothing there the server is not asked. -/
def scan (faults : Faults) (storage : LocalStorage) (today : NaiveDate) (task : OfferTask) :
    Option OfferTask :=
  match task.stage with
  | .scanning => do
      let first ← today.checkedSubDays LOOKBACK_DAYS
      let onDevice := (datesWithEntries faults storage today first today).toOption.getD []
      let stage := if onDevice.isEmpty then .offering [] else .asking first today onDevice
      some { task with stage }
  | _ => none

/-- The server's days come back, or the request for them failed. -/
def compare (onServer : Except StorageError (List NaiveDate)) (task : OfferTask) :
    Option OfferTask :=
  match task.stage with
  | .asking _ _ onDevice =>
      some { task with stage := .offering (importable onDevice (onServer.toOption.getD [])) }
  | _ => none

/-- The days the server answers, those that parse. -/
def remoteDates (reply : Except String (List String)) : Except StorageError (List NaiveDate) :=
  (reply.map fun days => days.filterMap parseIso).mapError .server

/-- What the server answers to the request for the days of a range. -/
def answer (ctx : AppCtx) (db : Database) (first today : NaiveDate) :
    Except String (List String) :=
  (execute (entryDatesInRange ctx (toIso first) (toIso today)) none ⟨none, db, []⟩).1.1

/-- The server executes the request and answers it. -/
def executeScan (ctx : AppCtx) (db : Database) (task : OfferTask) : Option OfferTask :=
  match task.stage with
  | .asking first today _ => task.compare (remoteDates (answer ctx db first today))
  | _ => none

end OfferTask

/-! ## Copying the offered days -/

/-- How far an import has come: the rows left to copy, and how many have landed. -/
inductive ImportStage (K : Type)
  | reading
  | copying (rest : List (NaiveDate × String)) (copied : Nat)
  | storing (task : StoreTask K) (rest : List (NaiveDate × String)) (copied : Nat)
  | ended

/-- An import in progress, with the days and the session of the click. -/
structure ImportTask (K : Type) where
  mount : Nat
  days : List NaiveDate
  session : EncryptionState K
  stage : ImportStage K

/-- The request of a write never reached the server, or its answer got lost. -/
def unanswered {K : Type} (message : String) (task : StoreTask K) : Option (StoreTask K) :=
  match task.stage with
  | .sending (.remote _) _ => some { task with stage := .finished (.error (.server message)) }
  | _ => none

/-- What the page makes of a write the server executed, if the answer may get lost. -/
def heard {K : Type} (lost : Option String) (task answered : StoreTask K) :
    Option (StoreTask K) :=
  match lost with
  | none => some answered
  | some message => unanswered message task

namespace ImportTask

variable {K : Type}

/-- Reads the bodies between the first and the last of the days, without a key. -/
def read (platform : Platform K) (faults : Faults) (storage : LocalStorage)
    (today : NaiveDate) (task : ImportTask K) : Option (ImportTask K) :=
  match task.stage with
  | .reading =>
      match task.days.head?, task.days.getLast? with
      | some first, some last =>
          let found := bodiesInRange platform.formats faults storage today first last
          let rows := (found.toOption.map fun found => (readRange platform found none).rows).getD []
          some { task with stage := .copying rows 0 }
      | _, _ => some { task with stage := .ended }
  | _ => none

/-- One turn of the loop: the next row is passed over or stored, and what came of a
write is counted. -/
def proceed (task : ImportTask K) : Option (ImportTask K) :=
  match task.stage with
  | .copying ((date, body) :: rest) copied =>
      if task.days.contains date then
        let copy := store .remote (.timeEntry date) body task.session.writeKey
        some { task with stage := .storing copy rest copied }
      else some { task with stage := .copying rest copied }
  | .storing copy rest copied =>
      match copy.stage with
      | .finished (.ok ()) => some { task with stage := .copying rest (copied + 1) }
      | .finished (.error _) => some { task with stage := .copying rest copied }
      | _ => none
  | _ => none

/-- The write in flight moves on. -/
def withCopy (move : StoreTask K → Option (StoreTask K)) (task : ImportTask K) :
    Option (ImportTask K) :=
  match task.stage with
  | .storing copy rest copied => do
      let copy ← move copy
      some { task with stage := .storing copy rest copied }
  | _ => none

/-- The server executes the write in flight; its answer may get lost. -/
def executeCopy (ctx : AppCtx) (db : Database) (lost : Option String) (task : ImportTask K) :
    Option (ImportTask K × Database) :=
  match task.stage with
  | .storing copy rest copied => do
      let (answered, after) ← copy.executeSave ctx db
      let copy ← heard lost copy answered
      some ({ task with stage := .storing copy rest copied }, after)
  | _ => none

/-- The loop is over: how many days landed decides. -/
def finish (task : ImportTask K) : Option (ImportTask K × Bool × String) :=
  match task.stage with
  | .copying [] copied =>
      some ({ task with stage := .ended }, importOutcome copied task.days.length)
  | _ => none

end ImportTask

/-! ## The banner -/

/-- The banner on one device, what it has in flight, and the server's tables. -/
structure ImportBanner (K : Type) where
  storage : LocalStorage
  today : NaiveDate
  mount : Nat
  generation : Generation
  candidates : List NaiveDate
  status : Option String
  offers : List OfferTask
  imports : List (ImportTask K)
  db : Database
  /-- How often the device has been marked as settled. -/
  marks : Nat

inductive Event (K : Type)
  | effect (signedIn : Bool) (faults : Faults)
  | scanned (offer : Nat) (faults : Faults)
  | answered (offer : Nat) (ctx : AppCtx)
  | scanLost (offer : Nat) (message : String)
  | published (offer : Nat) (keeps : Bool)
  | dismissed (keeps : Bool)
  | clicked (session : EncryptionState K)
  | read (task : Nat) (faults : Faults)
  | proceeded (task : Nat)
  | sealed (task : Nat) (nonce : Nonce)
  | sealFailed (task : Nat)
  | copied (task : Nat) (ctx : AppCtx) (lost : Option String)
  | copyLost (task : Nat) (message : String)
  | finished (task : Nat) (keeps : Bool)
  | mounted
  | saved (ctx : AppCtx) (date body : String)
  | written (storage : LocalStorage)
  | clock (today : NaiveDate)

section Banners

variable {K : Type}

namespace ImportBanner

/-- Marks this device's import as settled, if the browser keeps the flag. -/
def markDone (keeps : Bool) (banner : ImportBanner K) : ImportBanner K :=
  { banner with
    storage := if keeps then banner.storage.setItem DONE_FLAG_KEY "1" else banner.storage
    marks := banner.marks + 1 }

def markDoneIf (settles keeps : Bool) (banner : ImportBanner K) : ImportBanner K :=
  if settles then banner.markDone keeps else banner

def withOffer (banner : ImportBanner K) (index : Nat) (task : OfferTask) : ImportBanner K :=
  { banner with offers := banner.offers.set index task }

def withImport (banner : ImportBanner K) (index : Nat) (task : ImportTask K) : ImportBanner K :=
  { banner with imports := banner.imports.set index task }

/-- The effect that follows the signed-in user: every run of it invalidates the fetch
in flight, and the early return does not start another. -/
def runEffect (signedIn : Bool) (faults : Faults) (banner : ImportBanner K) : ImportBanner K :=
  let generation := banner.generation.next
  if !signedIn || alreadyDone faults banner.storage then
    { banner with generation, candidates := [] }
  else
    let task := { mount := banner.mount, token := generation.count, stage := .scanning }
    { banner with generation, offers := banner.offers ++ [task] }

/-- Whether a fetch is the newest one, of the banner still mounted. -/
def isNewest (banner : ImportBanner K) (task : OfferTask) : Bool :=
  task.mount == banner.mount && banner.generation.isCurrent task.token

/-- The end of a fetch: the newest one publishes its offer, and an empty offer settles
the device. -/
def publish (index : Nat) (keeps : Bool) (banner : ImportBanner K) : Option (ImportBanner K) := do
  let task ← banner.offers[index]?
  match task.stage with
  | .offering offer =>
      let banner := banner.withOffer index { task with stage := .finished }
      if banner.isNewest task then
        some { banner.markDoneIf offer.isEmpty keeps with candidates := offer }
      else some banner
  | _ => none

/-- The click that imports what is offered, with the session as it is then. -/
def click (session : EncryptionState K) (banner : ImportBanner K) : ImportBanner K :=
  let task :=
    { mount := banner.mount, days := banner.candidates, session, stage := .reading }
  { banner with imports := banner.imports ++ [task] }

/-- The end of an import: a full one settles the device. -/
def finishImport (index : Nat) (keeps : Bool) (banner : ImportBanner K) :
    Option (ImportBanner K) := do
  let task ← banner.imports[index]?
  let (ended, fullySucceeded, message) ← task.finish
  let banner := (banner.withImport index ended).markDoneIf fullySucceeded keeps
  some (if task.mount = banner.mount then
    { banner with candidates := [], status := some message } else banner)

end ImportBanner

variable (platform : Platform K)

/-- One step of the page, of the browser, of the server, or of somebody else. -/
def step (banner : ImportBanner K) : Event K → Option (ImportBanner K)
  | .effect signedIn faults => some (banner.runEffect signedIn faults)
  | .scanned index faults => do
      let task ← (← banner.offers[index]?).scan faults banner.storage banner.today
      some (banner.withOffer index task)
  | .answered index ctx => do
      let task ← (← banner.offers[index]?).executeScan ctx banner.db
      some (banner.withOffer index task)
  | .scanLost index message => do
      let task ← (← banner.offers[index]?).compare (.error (.server message))
      some (banner.withOffer index task)
  | .published index keeps => banner.publish index keeps
  | .dismissed keeps => some { banner.markDone keeps with candidates := [] }
  | .clicked session => some (banner.click session)
  | .read index faults => do
      let task ← (← banner.imports[index]?).read platform faults banner.storage banner.today
      some (banner.withImport index task)
  | .proceeded index => do
      let task ← (← banner.imports[index]?).proceed
      some (banner.withImport index task)
  | .sealed index nonce => do
      let task ← (← banner.imports[index]?).withCopy (·.sealWith platform nonce)
      some (banner.withImport index task)
  | .sealFailed index => do
      let task ← (← banner.imports[index]?).withCopy (·.sealFailed)
      some (banner.withImport index task)
  | .copied index ctx lost => do
      let (task, db) ← (← banner.imports[index]?).executeCopy ctx banner.db lost
      some { banner.withImport index task with db }
  | .copyLost index message => do
      let task ← (← banner.imports[index]?).withCopy (unanswered message)
      some (banner.withImport index task)
  | .finished index keeps => banner.finishImport index keeps
  | .mounted =>
      some { banner with
        mount := banner.mount + 1, generation := ⟨0⟩, candidates := [], status := none }
  | .saved ctx date body =>
      some { banner with
        db := (execute (entrySave ctx date body) none ⟨none, banner.db, []⟩).2.store }
  | .written storage => some { banner with storage }
  | .clock today => some { banner with today }

/-- The banner of a page just loaded, with nothing in flight. -/
def freshPage (storage : LocalStorage) (today : NaiveDate) (db : Database) : ImportBanner K :=
  { storage, today, mount := 0, generation := ⟨0⟩, candidates := [], status := none,
    offers := [], imports := [], db, marks := 0 }

end Banners

/-! ## What one task does -/

theorem importOutcome_settles {copied total : Nat} :
    (importOutcome copied total).1 = true ↔ copied = total := by
  simp [importOutcome]

theorem mem_importable {onDevice onServer : List NaiveDate} {day : NaiveDate} :
    day ∈ importable onDevice onServer ↔ day ∈ onDevice ∧ day ∉ onServer := by
  simp [importable]

section Tasks

variable {K : Type} {platform : Platform K} {faults : Faults} {storage : LocalStorage}
  {today : NaiveDate} {ctx : AppCtx} {db after : Database}

theorem OfferTask.scan_eq_some {task next : OfferTask}
    (scanned : task.scan faults storage today = some next) :
    ∃ first, today.checkedSubDays LOOKBACK_DAYS = some first ∧
      ((∃ onDevice, datesWithEntries faults storage today first today = .ok onDevice ∧
          onDevice ≠ [] ∧ next = { task with stage := .asking first today onDevice }) ∨
        ((∀ onDevice, datesWithEntries faults storage today first today = .ok onDevice →
            onDevice = []) ∧ next = { task with stage := .offering [] })) := by
  unfold OfferTask.scan at scanned
  split at scanned
  · obtain ⟨first, window, same⟩ := Option.bind_eq_some_iff.mp scanned
    refine ⟨first, window, ?_⟩
    cases found : datesWithEntries faults storage today first today with
    | error error =>
        rw [found] at same
        cases same
        exact Or.inr ⟨nofun, rfl⟩
    | ok onDevice =>
        rw [found] at same
        cases onDevice with
        | nil =>
            cases same
            exact Or.inr ⟨fun _ same => (Except.ok.inj same).symm, rfl⟩
        | cons day rest =>
            cases same
            exact Or.inl ⟨day :: rest, rfl, List.cons_ne_nil _ _, rfl⟩
  · cases scanned

theorem OfferTask.compare_eq_some {onServer : Except StorageError (List NaiveDate)}
    {task next : OfferTask} (compared : task.compare onServer = some next) :
    ∃ first today onDevice, task.stage = .asking first today onDevice ∧
      next = { task with
        stage := .offering (importable onDevice (onServer.toOption.getD [])) } := by
  unfold OfferTask.compare at compared
  split at compared
  · next first today onDevice at_stage =>
      cases compared
      exact ⟨first, today, onDevice, at_stage, rfl⟩
  · cases compared

/-- The days the server answers are those of the account's rows, within the window as text. -/
theorem OfferTask.mem_remoteDates {first last : NaiveDate} {days : List String}
    (answered : answer ctx db first last = .ok days) :
    ∃ me, SignedIn ctx db me ∧ ∀ date,
      date ∈ (remoteDates (answer ctx db first last)).toOption.getD [] ↔
        (toIso first ≤ toIso date ∧ toIso date ≤ toIso last) ∧
          bodyOf db me.id (toIso date) ≠ none := by
  have ensured : Ensures (entryDatesInRange ctx (toIso first) (toIso last)) db [] _ :=
    ensures_entryDatesInRange first last
  obtain ⟨me, signedIn, rfl⟩ := ensured none none days answered
  refine ⟨me, signedIn, fun date => ?_⟩
  rw [answered]
  simp only [remoteDates, Except.map, Except.mapError, Except.toOption, Option.getD_some,
    List.filterMap_map, Function.comp_def, parseIso_toIso, List.mem_filterMap, mem_rowsInRange]
  constructor
  · rintro ⟨day, ⟨row, ⟨member, owner, within⟩, parsed⟩, same⟩
    cases same
    rw [toIso_of_parseIso parsed]
    refine ⟨within, Option.ne_none_iff_exists'.mpr ⟨row.body, ?_⟩⟩
    exact bodyOf_eq_some.mpr ⟨row, member, owner, rfl, rfl⟩
  · rintro ⟨within, present⟩
    obtain ⟨body, stored⟩ := Option.ne_none_iff_exists'.mp present
    obtain ⟨row, member, owner, dated, -⟩ := bodyOf_eq_some.mp stored
    rw [← dated] at within
    exact ⟨date, ⟨row, ⟨member, owner, within⟩, by rw [dated, parseIso_toIso]⟩, rfl⟩

theorem ImportTask.withCopy_eq_some {move : StoreTask K → Option (StoreTask K)}
    {task next : ImportTask K} (moved : task.withCopy move = some next) :
    ∃ copy copy' rest copied, task.stage = .storing copy rest copied ∧
      move copy = some copy' ∧ next = { task with stage := .storing copy' rest copied } := by
  unfold ImportTask.withCopy at moved
  split at moved
  · next copy rest copied at_stage =>
      obtain ⟨copy', here, same⟩ := Option.bind_eq_some_iff.mp moved
      cases same
      exact ⟨copy, copy', rest, copied, at_stage, here, rfl⟩
  · cases moved

theorem unanswered_eq_some {message : String} {task next : StoreTask K}
    (failed : unanswered message task = some next) :
    next = { task with stage := .finished (.error (.server message)) } := by
  unfold unanswered at failed
  split at failed
  · cases failed
    rfl
  · cases failed

theorem heard_eq_some {lost : Option String} {task answered next : StoreTask K}
    (hears : heard lost task answered = some next) :
    next = answered ∨
      ∃ message, next = { task with stage := .finished (.error (.server message)) } := by
  cases lost with
  | none =>
      cases hears
      exact Or.inl rfl
  | some message => exact Or.inr ⟨message, unanswered_eq_some hears⟩

theorem ImportTask.executeCopy_eq_some {lost : Option String} {task next : ImportTask K}
    (executed : task.executeCopy ctx db lost = some (next, after)) :
    ∃ copy answered copy' rest copied, task.stage = .storing copy rest copied ∧
      copy.executeSave ctx db = some (answered, after) ∧
      heard lost copy answered = some copy' ∧
      next = { task with stage := .storing copy' rest copied } := by
  unfold ImportTask.executeCopy at executed
  split at executed
  · next copy rest copied at_stage =>
      obtain ⟨⟨answered, db'⟩, saved, executed⟩ := Option.bind_eq_some_iff.mp executed
      obtain ⟨copy', hears, same⟩ := Option.bind_eq_some_iff.mp executed
      cases same
      exact ⟨copy, answered, copy', rest, copied, at_stage, saved, hears, rfl⟩
  · cases executed

/-- An executed copy leaves the tables as the save it sends does. -/
theorem store_executeSave {copy answered : StoreTask K}
    (executed : copy.executeSave ctx db = some (answered, after)) :
    ∃ session envelope, copy.stage = .sending (.remote session) envelope ∧
      after = (execute (entrySave ctx (toIso copy.key.date) envelope) none
        ⟨none, db, []⟩).2.store := by
  unfold StoreTask.executeSave at executed
  split at executed
  · next session envelope at_stage =>
      cases executed
      exact ⟨session, envelope, at_stage, rfl⟩
  · cases executed

/-- A save executed by itself was refused and changed nothing, or it stored its body
for the account its session names. -/
theorem execute_entrySave_cases (ctx : AppCtx) (db : Database) (date body : String) :
    let outcome := execute (entrySave ctx date body) none ⟨none, db, []⟩
    (∃ message, outcome.1.1 = .error message) ∧ outcome.2.store = db ∨
      outcome.1.1 = .ok () ∧ ∃ me, SignedIn ctx db me ∧
        Saved me.id date body db outcome.2.store :=
  ensures_entrySave_saved ctx date body db [] none none

end Tasks

end TimeTracker.Import.Banner
