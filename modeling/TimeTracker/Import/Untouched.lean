import TimeTracker.Import.Settled

/-!
# What an import overwrites

The offer is computed at one time and carried out at another, by saves that replace
whatever they find.  A copy takes nothing away as long as the scan behind its offer
saw the account's rows, and nobody has saved that day since.
-/

namespace TimeTracker.Import.Untouched

open TimeTracker.Library
open TimeTracker.Library.Run
open TimeTracker.Date
open TimeTracker.Server.Schema
open TimeTracker.Server.Store
open TimeTracker.Server.Functions
open TimeTracker.Server.Execution
open TimeTracker.Server.Entries
open TimeTracker.Tab.State
open TimeTracker.Storage.Envelopes
open TimeTracker.Storage.Seam
open TimeTracker.Storage.Hook
open TimeTracker.Storage.Local
open TimeTracker.Storage.Saves (mayFirst maySecond aliceEncrypted aliceKey plainNonce)
open TimeTracker.Import.Banner
open TimeTracker.Import.Settled (devicePlatform oneDay aliceNow)

/-- The account a request's session names. -/
def accountOf (ctx : AppCtx) (db : Database) : Option Int := do
  let claims ← ctx.claims
  let email ← normalizeEmail claims.email
  let user ← userByEmail db email
  if user.sessionEpoch = claims.epoch then some user.id else none

/-- The account a save is stored for, if the server accepts it. -/
def acceptedFor (ctx : AppCtx) (db : Database) (date body : String) : Option Int :=
  match (execute (entrySave ctx date body) none ⟨none, db, []⟩).1.1 with
  | .ok () => accountOf ctx db
  | .error _ => none

theorem accountOf_eq {ctx : AppCtx} {db : Database} {me : User} (signedIn : SignedIn ctx db me) :
    accountOf ctx db = some me.id := by
  obtain ⟨claims, email, holds, normalized, found, epoch⟩ := signedIn
  simp [accountOf, holds, normalized, found, epoch]

/-- A save changes nothing, or the one day of the account it is accepted for. -/
theorem acceptedFor_cases (ctx : AppCtx) (db : Database) (date body : String) :
    let after := (execute (entrySave ctx date body) none ⟨none, db, []⟩).2.store
    acceptedFor ctx db date body = none ∧ after = db ∨
      ∃ userId, acceptedFor ctx db date body = some userId ∧ Saved userId date body db after := by
  obtain ⟨⟨message, refused⟩, same⟩ | ⟨accepted, me, signedIn, saved⟩ :=
    execute_entrySave_cases ctx db date body
  · exact Or.inl ⟨by rw [acceptedFor, refused], same⟩
  · refine Or.inr ⟨me.id, ?_, saved⟩
    rw [acceptedFor, accepted]
    exact accountOf_eq signedIn

/-! ## What came of the scans -/

/-- A scan of the server that has ended: the account it was answered for, if it was and
the window is written plainly; the tables then; and the saves accepted since. -/
structure Scan where
  answeredFor : Option Int
  db : Database
  saved : List (Int × String)

/-- The scans so far, and which of them is behind each offer, behind the candidates, and
behind each import. -/
structure History where
  scans : List Scan
  behind : Nat → Option Nat
  shown : Option Nat
  chosen : Nat → Option Nat

section Histories

variable {K : Type}

/-- The day and the envelope an import is sending. -/
def sending (banner : ImportBanner K) (index : Nat) : Option (NaiveDate × String) := do
  let task ← banner.imports[index]?
  match task.stage with
  | .storing copy _ _ =>
      match copy.stage with
      | .sending (.remote _) envelope => some (copy.key.date, envelope)
      | _ => none
  | _ => none

/-- The account the scan of an offer is answered for, over a window written plainly. -/
def scannedFor (banner : ImportBanner K) (index : Nat) (ctx : AppCtx) : Option Int := do
  let task ← banner.offers[index]?
  match task.stage with
  | .asking first today _ =>
      match OfferTask.answer ctx banner.db first today with
      | .ok _ =>
          if first.FourDigitYear ∧ today.FourDigitYear then accountOf ctx banner.db else none
      | .error _ => none
  | _ => none

namespace History

def empty : History where
  scans := []
  behind := fun _ => none
  shown := none
  chosen := fun _ => none

/-- A scan behind an offer ends. -/
def scan (history : History) (index : Nat) (answeredFor : Option Int) (db : Database) :
    History :=
  { history with
    scans := history.scans ++ [{ answeredFor, db, saved := [] }]
    behind := Function.update history.behind index (some history.scans.length) }

/-- A save is accepted. -/
def save (history : History) (account : Option Int) (day : String) : History :=
  match account with
  | none => history
  | some userId =>
      { history with
        scans := history.scans.map fun scan =>
          { scan with saved := scan.saved ++ [(userId, day)] } }

def after (history : History) (banner : ImportBanner K) : Event K → History
  | .answered index ctx => history.scan index (scannedFor banner index ctx) banner.db
  | .scanLost index _ => history.scan index none banner.db
  | .published index _ =>
      match banner.offers[index]? with
      | some task =>
          if banner.isNewest task then { history with shown := history.behind index }
          else history
      | none => history
  | .clicked _ =>
      { history with
        chosen := Function.update history.chosen banner.imports.length history.shown }
  | .copied index ctx _ =>
      match sending banner index with
      | some (date, envelope) =>
          history.save (acceptedFor ctx banner.db (toIso date) envelope) (toIso date)
      | none => history
  | .saved ctx date body => history.save (acceptedFor ctx banner.db date body) date
  | _ => history

/-- The scan behind an import. -/
def scanOf (history : History) (index : Nat) : Option Scan := do
  history.scans[← history.chosen index]?

end History

variable (platform : Platform K)

/-- The banner's step, with the history kept beside it. -/
def observe (observed : ImportBanner K × History) (event : Event K) :
    Option (ImportBanner K × History) :=
  (step platform observed.1 event).map fun next => (next, observed.2.after observed.1 event)

/-- An accepted copy is of a day that the scan behind its offer saw free for that account:
the scan was answered for it, or there was no row at the time.  No save of that day has
been accepted for it since. -/
def Fresh (observed : ImportBanner K × History) : Event K → Prop
  | .copied index ctx _ => ∀ date envelope userId scan,
      sending observed.1 index = some (date, envelope) →
      acceptedFor ctx observed.1.db (toIso date) envelope = some userId →
      observed.2.scanOf index = some scan →
      (scan.answeredFor = some userId ∨ bodyOf scan.db userId (toIso date) = none) ∧
        (userId, toIso date) ∉ scan.saved
  | _ => True

/-- Whatever the page does, each row the server had keeps its body. -/
def KeepsRows (banner : ImportBanner K) (event : Event K) : Prop :=
  (∀ ctx date body, event ≠ .saved ctx date body) →
    ∀ next, step platform banner event = some next →
      ∀ userId day body, bodyOf banner.db userId day = some body →
        bodyOf next.db userId day = some body

variable {platform}

/-- The history does not change what steps are taken. -/
theorem stepsMeet_observe {cond : ImportBanner K → Event K → Prop} {banner : ImportBanner K}
    {history : History} {events : List (Event K)}
    (meets : StepsMeet (observe platform) (fun observed => cond observed.1) (banner, history)
      events) : StepsMeet (step platform) cond banner events := by
  induction events generalizing banner history with
  | nil => trivial
  | cons event rest ih =>
      intro next taken
      have observed : observe platform (banner, history) event =
          some (next, history.after banner event) := by
        rw [observe, taken]
        rfl
      obtain ⟨now, later⟩ := meets _ observed
      exact ⟨now, ih later⟩

end Histories

/-! ## What the scans know along a run -/

section Runs

variable {K : Type}

/-- None of these days has a row the scan and the saves since know nothing of. -/
def Clear (db : Database) (days : List NaiveDate) (scan : Scan) : Prop :=
  ∀ userId, ∀ day ∈ days,
    scan.answeredFor = some userId ∨ bodyOf scan.db userId (toIso day) = none →
    (userId, toIso day) ∉ scan.saved → bodyOf db userId (toIso day) = none

/-- There are no days, or they are clear as far as the scan behind them goes. -/
def Seen (scans : List Scan) (db : Database) (id : Option Nat) (days : List NaiveDate) : Prop :=
  days = [] ∨ ∃ scan, id.bind (fun id => scans[id]?) = some scan ∧ Clear db days scan

/-- A scan of the browser keeps to the window, and an offer is clear. -/
def OfferSeen (history : History) (db : Database) (index : Nat) (task : OfferTask) : Prop :=
  match task.stage with
  | .asking first today onDevice => ∀ day ∈ onDevice, day.Within first today
  | .offering offer => Seen history.scans db (history.behind index) offer
  | .scanning | .finished => True

/-- The copy in flight is of an offered day. -/
def CopiesOffered (task : ImportTask K) : Prop :=
  ∀ copy rest copied, task.stage = .storing copy rest copied → copy.key.date ∈ task.days

/-- What holds of the banner and its history in every state. -/
structure Knows (observed : ImportBanner K × History) : Prop where
  offers : ∀ index task, observed.1.offers[index]? = some task →
    OfferSeen observed.2 observed.1.db index task
  candidates : Seen observed.2.scans observed.1.db observed.2.shown observed.1.candidates
  imports : ∀ index task, observed.1.imports[index]? = some task →
    Seen observed.2.scans observed.1.db (observed.2.chosen index) task.days
  copies : ∀ task ∈ observed.1.imports, CopiesOffered task

variable {db after : Database} {days : List NaiveDate} {scans : List Scan} {id : Option Nat}
  {banner next : ImportBanner K} {history : History}

theorem Seen.append (seen : Seen scans db id days) (scan : Scan) :
    Seen (scans ++ [scan]) db id days := by
  refine seen.imp_right fun ⟨old, found, clear⟩ => ⟨old, ?_, clear⟩
  obtain ⟨id, rfl, here⟩ := Option.bind_eq_some_iff.mp found
  rw [Option.bind_some, List.getElem?_append_left (List.getElem?_eq_some_iff.mp here).1]
  exact here

/-- An accepted save is noted by every scan so far. -/
theorem Seen.save (seen : Seen scans db id days) {userId : Int} {day body : String}
    (saved : Saved userId day body db after) :
    Seen (scans.map fun scan => { scan with saved := scan.saved ++ [(userId, day)] })
      after id days := by
  refine seen.imp_right fun ⟨old, found, clear⟩ => ?_
  obtain ⟨id, rfl, here⟩ := Option.bind_eq_some_iff.mp found
  refine ⟨{ old with saved := old.saved ++ [(userId, day)] }, ?_, ?_⟩
  · rw [Option.bind_some, List.getElem?_map, here]
    rfl
  · intro other date member free unsaved
    have apart : ¬ (userId = other ∧ day = toIso date) := by
      rintro ⟨rfl, rfl⟩
      exact unsaved (List.mem_append_right _ (List.mem_singleton.mpr rfl))
    rw [saved.frame other (toIso date) apart]
    exact clear other date member free fun already => unsaved (List.mem_append_left _ already)

theorem OfferSeen.save {index : Nat} {task : OfferTask}
    (seen : OfferSeen history db index task) {userId : Int} {day body : String}
    (saved : Saved userId day body db after) :
    OfferSeen (history.save (some userId) day) after index task := by
  unfold OfferSeen at seen ⊢
  split at seen
  · exact seen
  · exact seen.save saved
  · trivial
  · trivial

/-- Whatever a save comes to, the banner knows what it knew. -/
theorem Knows.save (knows : Knows (banner, history)) (ctx : AppCtx) (date body : String) :
    Knows ({ banner with
      db := (execute (entrySave ctx date body) none ⟨none, banner.db, []⟩).2.store },
      history.save (acceptedFor ctx banner.db date body) date) := by
  obtain ⟨refused, same⟩ | ⟨userId, accepted, saved⟩ := acceptedFor_cases ctx banner.db date body
  · rw [refused, same]
    exact knows
  · rw [accepted]
    exact {
      offers := fun index task found => (knows.offers index task found).save saved
      candidates := knows.candidates.save saved
      imports := fun index task found => (knows.imports index task found).save saved
      copies := knows.copies }

theorem knows_freshPage (storage : LocalStorage) (today : NaiveDate) (db : Database) :
    Knows (freshPage (K := K) storage today db, History.empty) where
  offers := by simp [freshPage]
  candidates := Or.inl rfl
  imports := by simp [freshPage]
  copies := by simp [freshPage]

theorem Knows.withOffer (knows : Knows (banner, history)) {index : Nat} {task : OfferTask}
    (seen : OfferSeen history banner.db index task) :
    Knows (banner.withOffer index task, history) := by
  refine { knows with offers := fun other found at_other => ?_ }
  by_cases same : index = other
  · subst same
    have bound : index < banner.offers.length := by
      have := (List.getElem?_eq_some_iff.mp at_other).1
      simpa [ImportBanner.withOffer] using this
    have here : (banner.offers.set index task)[index]? = some task :=
      List.getElem?_set_self bound
    cases here.symm.trans at_other
    exact seen
  · have there : (banner.offers.set index task)[other]? = some found := at_other
    rw [List.getElem?_set_ne same] at there
    exact knows.offers other found there

theorem Knows.withImport (knows : Knows (banner, history)) {index : Nat}
    {old task : ImportTask K} (found : banner.imports[index]? = some old)
    (days : task.days = old.days) (copies : CopiesOffered task) :
    Knows (banner.withImport index task, history) := by
  refine { knows with imports := fun other import' at_other => ?_, copies := ?_ }
  · by_cases same : index = other
    · subst same
      have here : (banner.imports.set index task)[index]? = some task :=
        List.getElem?_set_self (List.getElem?_eq_some_iff.mp found).1
      cases here.symm.trans at_other
      rw [days]
      exact knows.imports index old found
    · have there : (banner.imports.set index task)[other]? = some import' := at_other
      rw [List.getElem?_set_ne same] at there
      exact knows.imports other import' there
  · intro other member
    obtain old | rfl := List.mem_or_eq_of_mem_set member
    · exact knows.copies other old
    · exact copies

/-- A scan of the server that ends leaves an offer it has seen to be clear. -/
theorem Knows.scan (knows : Knows (banner, history)) {index : Nat} {task next : OfferTask}
    (found : banner.offers[index]? = some task) (answeredFor : Option Int)
    {onServer : Except StorageError (List NaiveDate)}
    (compared : task.compare onServer = some next)
    (sees : ∀ userId, answeredFor = some userId → ∀ first today onDevice,
      task.stage = .asking first today onDevice →
      ∀ day, day.Within first today → bodyOf banner.db userId (toIso day) ≠ none →
        day ∈ onServer.toOption.getD []) :
    Knows (banner.withOffer index next, history.scan index answeredFor banner.db) := by
  obtain ⟨first, today, onDevice, at_stage, rfl⟩ := OfferTask.compare_eq_some compared
  have kept : Knows (banner, history.scan index answeredFor banner.db) := {
    offers := fun other task' at_other => by
      have seen := knows.offers other task' at_other
      unfold OfferSeen at seen ⊢
      split at seen
      · exact seen
      · next offering =>
          have apart : other ≠ index := by
            rintro rfl
            cases found.symm.trans at_other
            cases at_stage.symm.trans offering
          dsimp only [History.scan]
          rw [Function.update_of_ne apart]
          exact seen.append _
      · trivial
      · trivial
    candidates := knows.candidates.append _
    imports := fun other task at_other => (knows.imports other task at_other).append _
    copies := knows.copies }
  apply kept.withOffer
  refine Or.inr ⟨{ answeredFor, db := banner.db, saved := [] }, ?_, ?_⟩
  · simp [History.scan]
  · intro userId day member free _
    obtain ⟨held, absent⟩ := mem_importable.mp member
    have within : ∀ day ∈ onDevice, day.Within first today := by
      have seen := knows.offers index task found
      unfold OfferSeen at seen
      rw [at_stage] at seen
      exact seen
    rcases free with answered | none_then
    · by_contra present
      exact absent (sees userId answered first today onDevice at_stage day (within day held)
        present)
    · exact none_then

/-- A range of plainly written dates holds no other dates. -/
theorem fourDigitYear_of_within {day first last : NaiveDate} (opens : first.FourDigitYear)
    (closes : last.FourDigitYear) (within : day.Within first last) : day.FourDigitYear := by
  obtain ⟨later, earlier⟩ := within
  unfold NaiveDate.Before at later earlier
  unfold NaiveDate.FourDigitYear at *
  omega

/-- What the server answers over a plainly written window leaves out no row of the
account it is answered for. -/
theorem sees_of_scannedFor {index : Nat} {task : OfferTask} {ctx : AppCtx}
    (found : banner.offers[index]? = some task) {userId : Int}
    (scanned : scannedFor banner index ctx = some userId) {first today : NaiveDate}
    {onDevice : List NaiveDate} (at_stage : task.stage = .asking first today onDevice)
    {day : NaiveDate} (within : day.Within first today)
    (present : bodyOf banner.db userId (toIso day) ≠ none) :
    day ∈ (OfferTask.remoteDates (OfferTask.answer ctx banner.db first today)).toOption.getD
      [] := by
  simp only [scannedFor, found, Option.bind_eq_bind, Option.bind_some, at_stage] at scanned
  cases answered : OfferTask.answer ctx banner.db first today with
  | error message =>
      rw [answered] at scanned
      cases scanned
  | ok days =>
      obtain ⟨me, signedIn, shows⟩ := OfferTask.mem_remoteDates answered
      rw [answered] at scanned
      dsimp only at scanned
      split at scanned
      · next plain =>
          obtain rfl := Option.some.inj ((accountOf_eq signedIn).symm.trans scanned)
          have own := fourDigitYear_of_within plain.1 plain.2 within
          rw [← answered]
          refine (shows day).mpr ⟨⟨?_, ?_⟩, present⟩
          · exact toIso_le_toIso plain.1 own within.1
          · exact toIso_le_toIso own plain.2 within.2
      · cases scanned

/-! ## Each step -/

variable {platform : Platform K} {task moved : ImportTask K}

theorem copiesOffered_read {faults : Faults} {storage : LocalStorage} {today : NaiveDate}
    (read : task.read platform faults storage today = some moved) :
    moved.days = task.days ∧ CopiesOffered moved := by
  unfold ImportTask.read at read
  split at read
  · split at read
    · cases read
      exact ⟨rfl, by rintro copy rest copied ⟨⟩⟩
    · cases read
      exact ⟨rfl, by rintro copy rest copied ⟨⟩⟩
  · cases read

theorem copiesOffered_proceed (proceeded : task.proceed = some moved) :
    moved.days = task.days ∧ CopiesOffered moved := by
  unfold ImportTask.proceed at proceeded
  split at proceeded
  · next date body rest copied at_stage =>
      split at proceeded
      · next offered =>
          cases proceeded
          refine ⟨rfl, ?_⟩
          rintro copy rest copied ⟨⟩
          have onDay : (store .remote (.timeEntry date) body task.session.writeKey).key =
              .timeEntry date := by
            unfold store
            split <;> rfl
          rw [onDay]
          exact List.contains_iff_mem.mp offered
      · cases proceeded
        exact ⟨rfl, by rintro copy rest copied ⟨⟩⟩
  · split at proceeded
    · cases proceeded
      exact ⟨rfl, by rintro copy rest copied ⟨⟩⟩
    · cases proceeded
      exact ⟨rfl, by rintro copy rest copied ⟨⟩⟩
    · cases proceeded
  · cases proceeded

theorem CopiesOffered.withCopy (copies : CopiesOffered task)
    {move : StoreTask K → Option (StoreTask K)} (moves : task.withCopy move = some moved)
    (same : ∀ copy copy', move copy = some copy' → copy'.key = copy.key) :
    moved.days = task.days ∧ CopiesOffered moved := by
  obtain ⟨copy, copy', rest, copied, at_stage, here, rfl⟩ := ImportTask.withCopy_eq_some moves
  refine ⟨rfl, ?_⟩
  rintro _ _ _ ⟨⟩
  rw [same copy copy' here]
  exact copies copy rest copied at_stage

theorem CopiesOffered.executeCopy (copies : CopiesOffered task) {ctx : AppCtx}
    {lost : Option String} (executed : task.executeCopy ctx db lost = some (moved, after)) :
    moved.days = task.days ∧ CopiesOffered moved := by
  obtain ⟨copy, answered, copy', rest, copied, at_stage, ran, hears, rfl⟩ :=
    ImportTask.executeCopy_eq_some executed
  obtain ⟨session, envelope, -, outcome⟩ := StoreTask.executeSave_cases ran
  have key : copy'.key = copy.key := by
    obtain rfl | ⟨message, rfl⟩ := heard_eq_some hears
    · obtain ⟨⟨error, rfl⟩, -⟩ | ⟨rfl, -⟩ := outcome <;> rfl
    · rfl
  refine ⟨rfl, ?_⟩
  rintro _ _ _ ⟨⟩
  rw [key]
  exact copies copy rest copied at_stage

/-- What an executed copy sends. -/
theorem sending_of_executeCopy {index : Nat} {ctx : AppCtx} {lost : Option String}
    (found : banner.imports[index]? = some task)
    (executed : task.executeCopy ctx banner.db lost = some (moved, after)) :
    ∃ date envelope, sending banner index = some (date, envelope) ∧
      after = (execute (entrySave ctx (toIso date) envelope) none
        ⟨none, banner.db, []⟩).2.store ∧
      (CopiesOffered task → date ∈ task.days) := by
  obtain ⟨copy, answered, copy', rest, copied, at_stage, ran, -, -⟩ :=
    ImportTask.executeCopy_eq_some executed
  obtain ⟨session, envelope, sends, same⟩ := store_executeSave ran
  refine ⟨copy.key.date, envelope, ?_, same, fun copies => copies copy rest copied at_stage⟩
  simp only [sending, found, Option.bind_eq_bind, Option.bind_some, at_stage, sends]

theorem Knows.publish (knows : Knows (banner, history)) {index : Nat} {keeps : Bool}
    (published : banner.publish index keeps = some next) :
    Knows (next, history.after banner (.published index keeps)) := by
  obtain ⟨task, found, published⟩ := Option.bind_eq_some_iff.mp published
  split at published
  · next offer at_stage =>
      have seen := knows.offers index task found
      unfold OfferSeen at seen
      rw [at_stage] at seen
      have ended : Knows (banner.withOffer index { task with stage := .finished }, history) :=
        knows.withOffer trivial
      have newest : (banner.withOffer index { task with stage := .finished }).isNewest task =
          banner.isNewest task := rfl
      dsimp only at published
      simp only [History.after, found]
      rw [newest] at published
      cases fresh : banner.isNewest task with
      | false =>
          rw [fresh] at published
          cases published
          exact ended
      | true =>
          rw [fresh] at published
          cases published
          cases offer with
          | nil => exact { ended with candidates := Or.inl rfl }
          | cons day rest => exact { ended with candidates := seen }
  · cases published

theorem Knows.finishImport (knows : Knows (banner, history)) {index : Nat} {keeps : Bool}
    (finished : banner.finishImport index keeps = some next) : Knows (next, history) := by
  obtain ⟨task, ended, settles, message, found, finishes, middle, rfl, outcome⟩ :=
    Settled.finishImport_eq_some finished
  have days : ended.days = task.days := by
    unfold ImportTask.finish at finishes
    split at finishes
    · cases finishes
      rfl
    · cases finishes
  have copies : CopiesOffered ended := by
    intro copy rest copied storing
    rw [Settled.ended_of_finish finishes] at storing
    cases storing
  have moved := knows.withImport found days copies
  cases settles with
  | false =>
      obtain rfl | rfl := outcome
      · exact moved
      · exact { moved with candidates := Or.inl rfl }
  | true =>
      obtain rfl | rfl := outcome
      · exact { moved with candidates := moved.candidates }
      · exact { moved with candidates := Or.inl rfl }

theorem Knows.step (knows : Knows (banner, history)) {event : Event K}
    (taken : step platform banner event = some next) :
    Knows (next, history.after banner event) := by
  cases event with
  | effect signedIn faults =>
      cases taken
      show Knows (banner.runEffect signedIn faults, history)
      unfold ImportBanner.runEffect
      split
      · exact { knows with candidates := Or.inl rfl }
      · refine { knows with offers := fun index task found => ?_ }
        rcases Nat.lt_or_ge index banner.offers.length with old | new
        · rw [List.getElem?_append_left old] at found
          exact knows.offers index task found
        · rw [List.getElem?_append_right new] at found
          cases List.mem_singleton.mp (List.mem_of_getElem? found)
          trivial
  | scanned index faults =>
      obtain ⟨task, found, taken⟩ := Option.bind_eq_some_iff.mp taken
      obtain ⟨task', scanned, same⟩ := Option.bind_eq_some_iff.mp taken
      cases same
      apply knows.withOffer
      obtain ⟨first, -, ⟨onDevice, read, -, rfl⟩ | ⟨-, rfl⟩⟩ := OfferTask.scan_eq_some scanned
      · exact fun day member => within_of_datesWithEntries read member
      · exact Or.inl rfl
  | answered index ctx =>
      obtain ⟨task, found, taken⟩ := Option.bind_eq_some_iff.mp taken
      obtain ⟨task', executed, same⟩ := Option.bind_eq_some_iff.mp taken
      cases same
      unfold OfferTask.executeScan at executed
      split at executed
      · next first today onDevice at_stage =>
          refine knows.scan found (scannedFor banner index ctx) executed ?_
          intro userId scanned first' today' onDevice' at_stage' day within present
          cases at_stage.symm.trans at_stage'
          exact sees_of_scannedFor found scanned at_stage within present
      · cases executed
  | scanLost index message =>
      obtain ⟨task, found, taken⟩ := Option.bind_eq_some_iff.mp taken
      obtain ⟨task', compared, same⟩ := Option.bind_eq_some_iff.mp taken
      cases same
      exact knows.scan found none compared nofun
  | published index keeps => exact knows.publish taken
  | dismissed keeps =>
      cases taken
      exact { knows with candidates := Or.inl rfl }
  | clicked session =>
      cases taken
      refine { knows with imports := fun index task found => ?_, copies := ?_ }
      · dsimp only [History.after]
        rcases Nat.lt_trichotomy index banner.imports.length with old | rfl | beyond
        · have there : (banner.imports ++ [_])[index]? = some task := found
          rw [List.getElem?_append_left old] at there
          rw [Function.update_of_ne (Nat.ne_of_lt old)]
          exact knows.imports index task there
        · have there : (banner.imports ++ [_])[banner.imports.length]? = some task := found
          rw [List.getElem?_append_right (Nat.le_refl _), Nat.sub_self] at there
          cases there
          rw [Function.update_self]
          exact knows.candidates
        · have bound := (List.getElem?_eq_some_iff.mp found).1
          simp only [ImportBanner.click, List.length_append, List.length_singleton] at bound
          omega
      · intro task member
        obtain old | new := List.mem_append.mp member
        · exact knows.copies task old
        · rw [List.mem_singleton.mp new]
          rintro copy rest copied ⟨⟩
  | read index faults =>
      obtain ⟨task, found, taken⟩ := Option.bind_eq_some_iff.mp taken
      obtain ⟨task', read, same⟩ := Option.bind_eq_some_iff.mp taken
      cases same
      obtain ⟨days, copies⟩ := copiesOffered_read read
      exact knows.withImport found days copies
  | proceeded index =>
      obtain ⟨task, found, taken⟩ := Option.bind_eq_some_iff.mp taken
      obtain ⟨task', proceeded, same⟩ := Option.bind_eq_some_iff.mp taken
      cases same
      obtain ⟨days, copies⟩ := copiesOffered_proceed proceeded
      exact knows.withImport found days copies
  | sealed index nonce =>
      obtain ⟨task, found, taken⟩ := Option.bind_eq_some_iff.mp taken
      obtain ⟨task', moves, same⟩ := Option.bind_eq_some_iff.mp taken
      cases same
      obtain ⟨days, copies⟩ := (knows.copies task (List.mem_of_getElem? found)).withCopy moves
        fun copy copy' sealing => by
          obtain ⟨target, -, rfl⟩ := StoreTask.sealWith_eq_some.mp sealing
          rfl
      exact knows.withImport found days copies
  | sealFailed index =>
      obtain ⟨task, found, taken⟩ := Option.bind_eq_some_iff.mp taken
      obtain ⟨task', moves, same⟩ := Option.bind_eq_some_iff.mp taken
      cases same
      obtain ⟨days, copies⟩ := (knows.copies task (List.mem_of_getElem? found)).withCopy moves
        fun copy copy' failing => by
          obtain ⟨-, rfl⟩ := StoreTask.sealFailed_eq_some failing
          rfl
      exact knows.withImport found days copies
  | copied index ctx lost =>
      obtain ⟨task, found, taken⟩ := Option.bind_eq_some_iff.mp taken
      obtain ⟨⟨task', after⟩, executed, same⟩ := Option.bind_eq_some_iff.mp taken
      cases same
      obtain ⟨days, copies⟩ :=
        (knows.copies task (List.mem_of_getElem? found)).executeCopy executed
      obtain ⟨date, envelope, sends, rfl, -⟩ := sending_of_executeCopy found executed
      simp only [History.after, sends]
      exact (knows.save ctx (toIso date) envelope).withImport found days copies
  | copyLost index message =>
      obtain ⟨task, found, taken⟩ := Option.bind_eq_some_iff.mp taken
      obtain ⟨task', moves, same⟩ := Option.bind_eq_some_iff.mp taken
      cases same
      obtain ⟨days, copies⟩ := (knows.copies task (List.mem_of_getElem? found)).withCopy moves
        fun copy copy' failing => by rw [unanswered_eq_some failing]
      exact knows.withImport found days copies
  | finished index keeps => exact knows.finishImport taken
  | mounted =>
      cases taken
      exact { knows with candidates := Or.inl rfl }
  | saved ctx date body =>
      cases taken
      exact knows.save ctx date body
  | written storage =>
      cases taken
      exact { knows with }
  | clock today =>
      cases taken
      exact { knows with }

/-- A copy of a day the scan saw free, and nobody has saved since, replaces no row. -/
theorem Knows.keepsRows (knows : Knows (banner, history)) {event : Event K}
    (fresh : Fresh (banner, history) event) : KeepsRows platform banner event := by
  intro own next taken userId day body stored
  cases event with
  | copied index ctx lost =>
      obtain ⟨task, found, taken⟩ := Option.bind_eq_some_iff.mp taken
      obtain ⟨⟨task', after⟩, executed, same⟩ := Option.bind_eq_some_iff.mp taken
      cases same
      obtain ⟨date, envelope, sends, rfl, offered⟩ := sending_of_executeCopy found executed
      have member := offered (knows.copies task (List.mem_of_getElem? found))
      obtain ⟨-, same⟩ | ⟨account, accepted, saved⟩ :=
        acceptedFor_cases ctx banner.db (toIso date) envelope
      · dsimp only
        rw [same]
        exact stored
      · rcases knows.imports index task found with none_offered | ⟨scan, behind, clear⟩
        · rw [none_offered] at member
          cases member
        · obtain ⟨free, unsaved⟩ := fresh date envelope account scan sends accepted behind
          have absent := clear account date member free unsaved
          have apart : ¬ (account = userId ∧ toIso date = day) := by
            rintro ⟨rfl, rfl⟩
            cases absent.symm.trans stored
          exact (saved.frame userId day apart).trans stored
  | saved ctx date body => exact absurd rfl (own ctx date body)
  | published index keeps =>
      obtain ⟨task, offer, -, -, ended, rfl, outcome⟩ := Settled.publish_eq_some taken
      obtain rfl | rfl := outcome
      · exact stored
      · cases offer <;> exact stored
  | finished index keeps =>
      obtain ⟨task, ended, settles, message, -, -, middle, rfl, outcome⟩ :=
        Settled.finishImport_eq_some taken
      cases settles <;> obtain rfl | rfl := outcome <;> exact stored
  | effect signedIn faults =>
      cases taken
      unfold ImportBanner.runEffect
      split <;> exact stored
  | dismissed keeps =>
      cases taken
      exact stored
  | clicked session =>
      cases taken
      exact stored
  | mounted =>
      cases taken
      exact stored
  | written storage =>
      cases taken
      exact stored
  | clock today =>
      cases taken
      exact stored
  | _ =>
      obtain ⟨task, -, taken⟩ := Option.bind_eq_some_iff.mp taken
      obtain ⟨task', -, same⟩ := Option.bind_eq_some_iff.mp taken
      cases same
      exact stored

/-- As long as every accepted copy is of a day that the scan behind its offer saw free,
and that nobody has saved since, the page takes no row's body away. -/
theorem import_keeps_rows (storage : LocalStorage) (today : NaiveDate) (db : Database)
    {events : List (Event K)}
    (fresh : StepsMeet (observe platform) Fresh
      (freshPage storage today db, History.empty) events) :
    StepsMeet (step platform) (KeepsRows platform) (freshPage storage today db) events := by
  apply stepsMeet_observe
  refine fresh.of_invariant (I := Knows) ?_ ?_ (knows_freshPage storage today db)
  · rintro ⟨banner, history⟩ event next knows - observed
    obtain ⟨after, taken, rfl⟩ := Option.map_eq_some_iff.mp observed
    exact knows.step taken
  · rintro ⟨banner, history⟩ event knows meets
    exact knows.keepsRows meets

end Runs

/-! ## A day left out of the offer, and a scan that failed -/

/-- A browser that holds two days. -/
def twoDays : LocalStorage where
  items :=
    [((StorageKey.timeEntry mayFirst).asKey,
      String.ofList (Json.quoted (wrapV1 devicePlatform.formats "planned the week"))),
    ((StorageKey.timeEntry maySecond).asKey,
      String.ofList (Json.quoted (wrapV1 devicePlatform.formats "wrote it up")))]
  unique := by decide +kernel

/-- alice's phone has saved the first day.  Her laptop offers the second one and is about
to copy it. -/
def oneDayLeftOut : List (Event Nat) :=
  [.saved (aliceNow 1) "2026-05-01" "from the phone", .effect true .clear, .scanned 0 .clear,
    .answered 0 (aliceNow 2), .published 0 true, .clicked (.unlocked aliceKey),
    .read 0 .clear, .proceeded 0, .sealed 0 (plainNonce 1)]

theorem import_keeps_rows_oneDayLeftOut :
    ∃ last, runFrom (step devicePlatform) (freshPage twoDays maySecond aliceEncrypted)
        (oneDayLeftOut ++ [.copied 0 (aliceNow 3) none]) = some last ∧
      bodyOf last.db 1 "2026-05-01" = some "from the phone" ∧
      (bodyOf last.db 1 "2026-05-02").isSome ∧
      StepsMeet (step devicePlatform) (KeepsRows devicePlatform)
        (freshPage twoDays maySecond aliceEncrypted)
        (oneDayLeftOut ++ [.copied 0 (aliceNow 3) none]) := by
  have ends : (runFrom (step devicePlatform) (freshPage twoDays maySecond aliceEncrypted)
      (oneDayLeftOut ++ [.copied 0 (aliceNow 3) none])).map (fun last =>
        (bodyOf last.db 1 "2026-05-01", (bodyOf last.db 1 "2026-05-02").isSome)) =
      some (some "from the phone", true) := by
    decide +kernel
  obtain ⟨last, ran, same⟩ := Option.map_eq_some_iff.mp ends
  obtain ⟨kept, copied⟩ := Prod.mk.inj same
  refine ⟨last, ran, kept, copied, import_keeps_rows twoDays maySecond aliceEncrypted ?_⟩
  refine stepsMeet_append.mpr ⟨stepsMeet_of_forall ?_, ?_⟩
  · simp [oneDayLeftOut, Fresh]
  · intro observed reached after _
    refine ⟨?_, trivial⟩
    -- the scan was answered for the account, after the phone's save
    have scans : (runFrom (observe devicePlatform)
        (freshPage twoDays maySecond aliceEncrypted, History.empty) oneDayLeftOut).map
          (fun observed => ((observed.2.scanOf 0).map fun scan => (scan.answeredFor, scan.saved),
            (sending observed.1 0).map fun sent =>
              acceptedFor (aliceNow 3) observed.1.db (toIso sent.1) sent.2)) =
        some (some (some 1, []), some (some 1)) := by
      decide +kernel
    rw [reached] at scans
    obtain ⟨scanned, accepts⟩ := Prod.mk.inj (Option.some.inj scans)
    intro date envelope userId scan sends accepted behind
    rw [behind] at scanned
    rw [sends] at accepts
    obtain ⟨answeredFor, saved⟩ := Prod.mk.inj (Option.some.inj scanned)
    cases (Option.some.inj accepts).symm.trans accepted
    exact ⟨Or.inl answeredFor, by simp [saved]⟩

/-- alice's phone has saved the day her laptop holds, too, and the request for the
server's days fails. -/
def scanFails : List (Event Nat) :=
  [.saved (aliceNow 1) "2026-05-01" "from the phone", .effect true .clear, .scanned 0 .clear,
    .scanLost 0 "offline", .published 0 true, .clicked (.unlocked aliceKey),
    .read 0 .clear, .proceeded 0, .sealed 0 (plainNonce 1)]

/-- The day is offered and copied over the phone's. -/
theorem scanFails_overwrites :
    ¬ StepsMeet (step devicePlatform) (KeepsRows devicePlatform)
      (freshPage oneDay mayFirst aliceEncrypted) (scanFails ++ [.copied 0 (aliceNow 3) none]) := by
  intro meets
  have reaches : (runFrom (step devicePlatform) (freshPage oneDay mayFirst aliceEncrypted)
      scanFails).map (fun before => (bodyOf before.db 1 "2026-05-01",
        (step devicePlatform before (.copied 0 (aliceNow 3) none)).map fun last =>
          bodyOf last.db 1 "2026-05-01" == some "from the phone")) =
      some (some "from the phone", some false) := by
    decide +kernel
  obtain ⟨before, reached, same⟩ := Option.map_eq_some_iff.mp reaches
  obtain ⟨stored, lost⟩ := Prod.mk.inj same
  obtain ⟨last, taken, replaced⟩ := Option.map_eq_some_iff.mp lost
  have keeps := ((stepsMeet_append.mp meets).2 before reached last taken).1
  have kept := keeps nofun last taken 1 "2026-05-01" "from the phone" stored
  rw [kept] at replaced
  exact absurd replaced (by decide)

end TimeTracker.Import.Untouched
