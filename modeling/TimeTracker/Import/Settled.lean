import TimeTracker.Import.Banner
import TimeTracker.Storage.Saves

/-!
# When an import settles the device

The flag that ends the offers is permanent.  As long as the scans behind the offers
read all the device holds, it is set only when each of those days has a row on the
server, whatever else fails.
-/

namespace TimeTracker.Import.Settled

open TimeTracker.Library
open TimeTracker.Library.Run
open TimeTracker.Date
open TimeTracker.Server.Schema
open TimeTracker.Server.Functions
open TimeTracker.Server.Execution
open TimeTracker.Server.Entries
open TimeTracker.Tab.State
open TimeTracker.Storage.Envelopes
open TimeTracker.Storage.Seam
open TimeTracker.Storage.Hook
open TimeTracker.Storage.Saves (signedIn_of_users mayFirst aliceEncrypted aliceClaims
  aliceKey plainNonce)
open TimeTracker.Storage.Local
open TimeTracker.Import.Banner

/-- The device holds the day, and the lookback window reaches it. -/
def Held (storage : LocalStorage) (today date : NaiveDate) : Prop :=
  storage.Holds today date ∧
    ∃ first, today.checkedSubDays LOOKBACK_DAYS = some first ∧ date.Within first today

/-- The account the session names has a row for the day. -/
def HasRow (claims : SessionClaims) (db : Database) (date : NaiveDate) : Prop :=
  ∃ me, SignedIn (request claims 0) db me ∧ bodyOf db me.id (toIso date) ≠ none

section Rows

variable {claims : SessionClaims} {db after : Database}

/-- A save takes no row away. -/
theorem HasRow.of_saved {date : NaiveDate} (row : HasRow claims db date) {userId : Int}
    {day body : String} (saved : Saved userId day body db after) : HasRow claims after date := by
  obtain ⟨me, signedIn, present⟩ := row
  refine ⟨me, signedIn_of_users signedIn saved.users rfl, ?_⟩
  by_cases own : userId = me.id ∧ day = toIso date
  · obtain ⟨rfl, rfl⟩ := own
    rw [saved.stored]
    exact Option.some_ne_none _
  · rw [saved.frame me.id (toIso date) own]
    exact present

/-- The day an account saved has a row. -/
theorem hasRow_of_saved {ctx : AppCtx} {me : User} {date : NaiveDate} {body : String}
    (same : ctx.claims = some claims) (signedIn : SignedIn ctx db me)
    (saved : Saved me.id (toIso date) body db after) : HasRow claims after date := by
  refine ⟨me, signedIn_of_users signedIn saved.users same.symm, ?_⟩
  rw [saved.stored]
  exact Option.some_ne_none _

end Rows

/-! ## What the banner knows -/

section Settling

variable {K : Type} (claims : SessionClaims) (storage : LocalStorage) (today : NaiveDate)

/-- Every day held is among these days or on the server. -/
structure Covers (db : Database) (days : List NaiveDate) : Prop where
  unique : days.Nodup
  covers : ∀ date, Held storage today date → date ∈ days ∨ HasRow claims db date

/-- The offer leaves out no day the server lacks. -/
def OfferCovers (db : Database) (task : OfferTask) : Prop :=
  match task.stage with
  | .scanning => True
  | .asking _ _ onDevice => Covers claims storage today db onDevice
  | .offering offer => Covers claims storage today db offer
  | .finished => True

/-- The days counted so far are different ones of the days offered, they are on the
server, and none of them is among the days still to come. -/
structure Landed (db : Database) (days : List NaiveDate) (copied : Nat)
    (rest landed : List NaiveDate) : Prop where
  count : landed.length = copied
  unique : (landed ++ rest).Nodup
  offered : landed ⊆ days
  stored : ∀ date ∈ landed, HasRow claims db date

/-- A copy in flight is of an offered day, and leaves a row once it is counted. -/
structure Copies (db : Database) (days : List NaiveDate) (copy : StoreTask K)
    (date : NaiveDate) : Prop where
  onDay : copy.key = .timeEntry date
  offered : date ∈ days
  stored : copy.Stored → HasRow claims db date

/-- The import was offered every day the server lacks, and counts what has landed. -/
def ImportCovers (db : Database) (task : ImportTask K) : Prop :=
  match task.stage with
  | .reading => task.days = [] ∨ Covers claims storage today db task.days
  | .copying rest copied =>
      Covers claims storage today db task.days ∧
        ∃ landed, Landed claims db task.days copied (rest.map Prod.fst) landed
  | .storing copy rest copied =>
      Covers claims storage today db task.days ∧ ∃ landed date,
        Landed claims db task.days copied (date :: rest.map Prod.fst) landed ∧
          Copies claims db task.days copy date
  | .ended => True

/-- What holds of the banner in every state. -/
structure Ready (banner : ImportBanner K) : Prop where
  onDay : banner.today = today
  holds : ∀ date, banner.storage.Holds today date ↔ storage.Holds today date
  candidates : banner.candidates = [] ∨ Covers claims storage today banner.db banner.candidates
  offers : ∀ task ∈ banner.offers, OfferCovers claims storage today banner.db task
  imports : ∀ task ∈ banner.imports, ImportCovers claims storage today banner.db task

variable {claims storage today} {db after : Database} {days : List NaiveDate}
  {banner next : ImportBanner K}

theorem Covers.mono (covers : Covers claims storage today db days)
    (grows : ∀ date, HasRow claims db date → HasRow claims after date) :
    Covers claims storage today after days :=
  ⟨covers.unique, fun date held => (covers.covers date held).imp_right (grows date)⟩

theorem Landed.mono {copied : Nat} {rest landed : List NaiveDate}
    (counted : Landed claims db days copied rest landed)
    (grows : ∀ date, HasRow claims db date → HasRow claims after date) :
    Landed claims after days copied rest landed :=
  { counted with stored := fun date member => grows date (counted.stored date member) }

theorem Copies.mono {copy : StoreTask K} {date : NaiveDate}
    (copies : Copies claims db days copy date)
    (grows : ∀ date, HasRow claims db date → HasRow claims after date) :
    Copies claims after days copy date :=
  { copies with stored := fun finished => grows date (copies.stored finished) }

theorem OfferCovers.mono {task : OfferTask} (covers : OfferCovers claims storage today db task)
    (grows : ∀ date, HasRow claims db date → HasRow claims after date) :
    OfferCovers claims storage today after task := by
  unfold OfferCovers at covers ⊢
  split at covers
  · trivial
  · exact covers.mono grows
  · exact covers.mono grows
  · trivial

theorem ImportCovers.mono {task : ImportTask K}
    (covers : ImportCovers claims storage today db task)
    (grows : ∀ date, HasRow claims db date → HasRow claims after date) :
    ImportCovers claims storage today after task := by
  unfold ImportCovers at covers ⊢
  split at covers
  · exact covers.imp_right fun covers => covers.mono grows
  · obtain ⟨covers, landed, counted⟩ := covers
    exact ⟨covers.mono grows, landed, counted.mono grows⟩
  · obtain ⟨covers, landed, date, counted, copies⟩ := covers
    exact ⟨covers.mono grows, landed, date, counted.mono grows, copies.mono grows⟩
  · trivial

/-- If every offered day has landed, every day held is on the server. -/
theorem Covers.all_stored (covers : Covers claims storage today db days) {copied : Nat}
    {landed : List NaiveDate} (counted : Landed claims db days copied [] landed)
    (full : copied = days.length) {date : NaiveDate} (held : Held storage today date) :
    HasRow claims db date := by
  have unique : landed.Nodup := by
    simpa using counted.unique
  have long : days.length ≤ landed.length := by
    rw [counted.count, full]
  have same : landed.Perm days :=
    (List.subperm_of_subset unique counted.offered).perm_of_length_le long
  rcases covers.covers date held with offered | stored
  · exact counted.stored date (same.mem_iff.mpr offered)
  · exact stored

/-! ## Each step -/

theorem Ready.withOffer (ready : Ready claims storage today banner) {index : Nat}
    {task : OfferTask} (covers : OfferCovers claims storage today banner.db task) :
    Ready claims storage today (banner.withOffer index task) := by
  refine { ready with offers := fun other member => ?_ }
  obtain old | rfl := List.mem_or_eq_of_mem_set member
  · exact ready.offers other old
  · exact covers

theorem Ready.withImport (ready : Ready claims storage today banner) {index : Nat}
    {task : ImportTask K} (covers : ImportCovers claims storage today banner.db task) :
    Ready claims storage today (banner.withImport index task) := by
  refine { ready with imports := fun other member => ?_ }
  obtain old | rfl := List.mem_or_eq_of_mem_set member
  · exact ready.imports other old
  · exact covers

theorem Ready.withDb (ready : Ready claims storage today banner)
    (grows : ∀ date, HasRow claims banner.db date → HasRow claims after date) :
    Ready claims storage today { banner with db := after } where
  onDay := ready.onDay
  holds := ready.holds
  candidates := ready.candidates.imp_right fun covers => covers.mono grows
  offers task member := (ready.offers task member).mono grows
  imports task member := (ready.imports task member).mono grows

/-- The flag is no day. -/
theorem holds_setItem_flag (value : String) (date : NaiveDate) :
    (storage.setItem DONE_FLAG_KEY value).Holds today date ↔ storage.Holds today date := by
  have dated : (StorageKey.timeEntry date).asKey ≠ DONE_FLAG_KEY := by
    intro same
    have parsed := StorageKey.parse_eq_some.mpr same.symm
    rw [show StorageKey.parse DONE_FLAG_KEY = none from by decide] at parsed
    cases parsed
  have legacy : LEGACY_KEY ≠ DONE_FLAG_KEY := by decide
  unfold LocalStorage.Holds
  rw [LocalStorage.getItem_setItem_of_ne dated, LocalStorage.getItem_setItem_of_ne legacy]

theorem Ready.markDone (ready : Ready claims storage today banner) (keeps : Bool) :
    Ready claims storage today (banner.markDone keeps) := by
  refine { ready with holds := fun date => ?_ }
  cases keeps with
  | false => exact ready.holds date
  | true => exact (holds_setItem_flag "1" date).trans (ready.holds date)

/-- The scans behind the offers read every key that bears on the window, if the device
holds a day there. -/
def Whole (banner : ImportBanner K) : Event K → Prop
  | .scanned _ faults => (∃ date, Held banner.storage banner.today date) →
      ∀ first, banner.today.checkedSubDays LOOKBACK_DAYS = some first →
        faults.Spare banner.storage first banner.today
  | _ => True

theorem Ready.held (ready : Ready claims storage today banner) {date : NaiveDate} :
    Held banner.storage banner.today date ↔ Held storage today date := by
  rw [ready.onDay, Held, Held, ready.holds]

/-- A whole scan of the browser's storage finds every day held. -/
theorem Ready.scan (ready : Ready claims storage today banner) {index : Nat} {faults : Faults}
    (whole : Whole banner (.scanned index faults)) {task next : OfferTask}
    (scanned : task.scan faults banner.storage banner.today = some next) :
    OfferCovers claims storage today banner.db next := by
  obtain ⟨first, window, outcome⟩ := OfferTask.scan_eq_some scanned
  have found : ∀ date, Held storage today date → ∃ onDevice,
      datesWithEntries faults banner.storage banner.today first banner.today = .ok onDevice ∧
        date ∈ onDevice := by
    intro date held
    have here := ready.held.mpr held
    obtain ⟨onDevice, read, all⟩ := datesWithEntries_of_spare (whole ⟨date, here⟩ first window)
    obtain ⟨holds, start, same, within⟩ := here
    cases window.symm.trans same
    exact ⟨onDevice, read, all date holds within⟩
  rcases outcome with ⟨onDevice, read, -, rfl⟩ | ⟨empty, rfl⟩
  · refine ⟨nodup_datesWithEntries read, fun date held => Or.inl ?_⟩
    obtain ⟨days, same, member⟩ := found date held
    cases read.symm.trans same
    exact member
  · refine ⟨List.nodup_nil, fun date held => ?_⟩
    obtain ⟨onDevice, read, member⟩ := found date held
    rw [empty onDevice read] at member
    cases member

/-- Leaving out days the server has loses none it lacks. -/
theorem Covers.importable (covers : Covers claims storage today db days)
    {onServer : List NaiveDate} (stored : ∀ date ∈ onServer, HasRow claims db date) :
    Covers claims storage today db (importable days onServer) := by
  refine ⟨covers.unique.filter _, fun date held => ?_⟩
  rcases covers.covers date held with offered | row
  · by_cases there : date ∈ onServer
    · exact Or.inr (stored date there)
    · exact Or.inl (mem_importable.mpr ⟨offered, there⟩)
  · exact Or.inr row

theorem OfferCovers.compare {task next : OfferTask}
    (covers : OfferCovers claims storage today db task)
    {onServer : Except StorageError (List NaiveDate)}
    (compared : task.compare onServer = some next)
    (stored : ∀ date ∈ onServer.toOption.getD [], HasRow claims db date) :
    OfferCovers claims storage today db next := by
  obtain ⟨first, last, onDevice, at_stage, rfl⟩ := OfferTask.compare_eq_some compared
  unfold OfferCovers at covers
  rw [at_stage] at covers
  exact covers.importable stored

theorem OfferCovers.executeScan {task next : OfferTask} {ctx : AppCtx}
    (covers : OfferCovers claims storage today db task) (same : ctx.claims = some claims)
    (executed : task.executeScan ctx db = some next) :
    OfferCovers claims storage today db next := by
  unfold OfferTask.executeScan at executed
  split at executed
  · next first last onDevice at_stage =>
      refine covers.compare executed fun date member => ?_
      cases answered : OfferTask.answer ctx db first last with
      | error message =>
          rw [answered] at member
          cases member
      | ok days =>
          obtain ⟨me, signedIn, days⟩ := OfferTask.mem_remoteDates answered
          exact ⟨me, signedIn_of_users signedIn rfl same.symm, ((days date).mp member).2⟩
  · cases executed

/-- The loop starts with nothing counted, over different days. -/
theorem ImportCovers.read {platform : Platform K} {faults : Faults} {device : LocalStorage}
    {day : NaiveDate} {task next : ImportTask K}
    (covers : ImportCovers claims storage today db task)
    (read : task.read platform faults device day = some next) :
    ImportCovers claims storage today db next := by
  unfold ImportTask.read at read
  split at read
  · next at_stage =>
      unfold ImportCovers at covers
      rw [at_stage] at covers
      split at read
      · next first last head tail =>
          cases read
          refine ⟨covers.resolve_left fun none => ?_, [], ⟨rfl, ?_, List.nil_subset _, ?_⟩⟩
          · rw [none] at head
            cases head
          · rw [List.nil_append]
            cases found : bodiesInRange platform.formats faults device day first last with
            | error error => exact List.nodup_nil
            | ok rows => exact (sublist_readRange rows none).nodup (nodup_bodiesInRange found)
          · exact fun _ member => absurd member List.not_mem_nil
      · cases read
        trivial
  · cases read

/-- A row is passed over or stored, and what has landed is counted. -/
theorem ImportCovers.proceed {task next : ImportTask K}
    (covers : ImportCovers claims storage today db task)
    (proceeded : task.proceed = some next) :
    ImportCovers claims storage today db next := by
  unfold ImportTask.proceed at proceeded
  split at proceeded
  · next date body rest copied at_stage =>
      unfold ImportCovers at covers
      rw [at_stage] at covers
      obtain ⟨covers, landed, counted⟩ := covers
      split at proceeded
      · next offered =>
          cases proceeded
          refine ⟨covers, landed, date, counted, ⟨?_, by simpa using offered, ?_⟩⟩
          · unfold store
            split <;> rfl
          · unfold store
            split <;> nofun
      · cases proceeded
        refine ⟨covers, landed, { counted with unique := ?_ }⟩
        exact counted.unique.sublist ((List.sublist_cons_self _ _).append_left landed)
  · next copy rest copied at_stage =>
      unfold ImportCovers at covers
      rw [at_stage] at covers
      obtain ⟨covers, landed, date, counted, copies⟩ := covers
      split at proceeded
      · next stored =>
          cases proceeded
          refine ⟨covers, landed ++ [date], ?_, ?_, ?_, ?_⟩
          · rw [List.length_append, counted.count]
            rfl
          · rw [List.append_assoc]
            exact counted.unique
          · apply List.append_subset.mpr
            exact ⟨counted.offered, List.cons_subset.mpr ⟨copies.offered, List.nil_subset _⟩⟩
          · intro other member
            rcases List.mem_append.mp member with earlier | same
            · exact counted.stored other earlier
            · rw [List.mem_singleton.mp same]
              exact copies.stored stored
      · cases proceeded
        refine ⟨covers, landed, { counted with unique := ?_ }⟩
        exact counted.unique.sublist ((List.sublist_cons_self _ _).append_left landed)
      · cases proceeded
  · cases proceeded

/-- A copy that moves on without being stored counts for nothing. -/
theorem ImportCovers.withCopy {move : StoreTask K → Option (StoreTask K)}
    {task next : ImportTask K} (covers : ImportCovers claims storage today db task)
    (moved : task.withCopy move = some next)
    (quiet : ∀ copy copy', move copy = some copy' → copy'.key = copy.key ∧ ¬ copy'.Stored) :
    ImportCovers claims storage today db next := by
  obtain ⟨copy, copy', rest, copied, at_stage, here, rfl⟩ := ImportTask.withCopy_eq_some moved
  unfold ImportCovers at covers
  rw [at_stage] at covers
  obtain ⟨covers, landed, date, counted, copies⟩ := covers
  obtain ⟨key, unstored⟩ := quiet copy copy' here
  exact ⟨covers, landed, date, counted, key.trans copies.onDay, copies.offered,
    fun stored => absurd stored unstored⟩

/-- A save of any account grows the rows of this one. -/
theorem grows_of_executeSave {ctx : AppCtx} {copy answered : StoreTask K}
    (executed : copy.executeSave ctx db = some (answered, after)) (date : NaiveDate)
    (row : HasRow claims db date) : HasRow claims after date := by
  obtain ⟨session, envelope, -, ⟨-, same⟩ | ⟨-, me, -, saved⟩⟩ :=
    StoreTask.executeSave_cases executed
  · rw [same]
    exact row
  · exact row.of_saved saved

/-- A copy the server accepted leaves a row, whether or not its answer arrives. -/
theorem ImportCovers.executeCopy {ctx : AppCtx} {lost : Option String}
    {task next : ImportTask K} (covers : ImportCovers claims storage today db task)
    (same : ctx.claims = some claims)
    (executed : task.executeCopy ctx db lost = some (next, after)) :
    ImportCovers claims storage today after next ∧
      ∀ date, HasRow claims db date → HasRow claims after date := by
  obtain ⟨copy, answered, copy', rest, copied, at_stage, ran, hears, rfl⟩ :=
    ImportTask.executeCopy_eq_some executed
  have grows : ∀ date, HasRow claims db date → HasRow claims after date :=
    grows_of_executeSave ran
  refine ⟨?_, grows⟩
  unfold ImportCovers at covers
  rw [at_stage] at covers
  obtain ⟨covers, landed, date, counted, copies⟩ := covers
  obtain ⟨session, envelope, -, outcome⟩ := StoreTask.executeSave_cases ran
  refine ⟨covers.mono grows, landed, date, counted.mono grows, ?_, copies.offered, ?_⟩
  · obtain rfl | ⟨message, rfl⟩ := heard_eq_some hears
    · obtain ⟨⟨error, rfl⟩, -⟩ | ⟨rfl, -⟩ := outcome <;> exact copies.onDay
    · exact copies.onDay
  · intro stored
    obtain rfl | ⟨message, rfl⟩ := heard_eq_some hears
    · obtain ⟨⟨error, rfl⟩, -⟩ | ⟨rfl, me, signedIn, saved⟩ := outcome
      · cases stored
      · rw [copies.onDay] at saved
        exact hasRow_of_saved same signedIn saved
    · cases stored

/-- A full import has stored every day held. -/
theorem ImportCovers.settles {task ended : ImportTask K} {message : String}
    (covers : ImportCovers claims storage today db task)
    (finished : task.finish = some (ended, true, message)) {date : NaiveDate}
    (held : Held storage today date) : HasRow claims db date := by
  unfold ImportTask.finish at finished
  split at finished
  · next copied at_stage =>
      unfold ImportCovers at covers
      rw [at_stage] at covers
      obtain ⟨covers, landed, counted⟩ := covers
      have settles : (importOutcome copied task.days.length).1 = true :=
        congrArg (fun outcome => outcome.2.1) (Option.some.inj finished)
      exact covers.all_stored counted (importOutcome_settles.mp settles) held
  · cases finished

theorem ended_of_finish {task ended : ImportTask K} {settles : Bool} {message : String}
    (finished : task.finish = some (ended, settles, message)) : ended.stage = .ended := by
  unfold ImportTask.finish at finished
  split at finished
  · cases finished
    rfl
  · cases finished

/-- A fetch that ends is dropped, or publishes what it offers. -/
theorem publish_eq_some {index : Nat} {keeps : Bool}
    (published : banner.publish index keeps = some next) :
    ∃ task offer, banner.offers[index]? = some task ∧ task.stage = .offering offer ∧
      ∃ ended, ended = banner.withOffer index { task with stage := .finished } ∧
        (next = ended ∨
          next = { ended.markDoneIf offer.isEmpty keeps with candidates := offer }) := by
  obtain ⟨task, found, published⟩ := Option.bind_eq_some_iff.mp published
  split at published
  · next offer at_stage =>
      refine ⟨task, offer, found, at_stage, _, rfl, ?_⟩
      dsimp only at published
      split at published
      · exact Or.inr (Option.some.inj published).symm
      · exact Or.inl (Option.some.inj published).symm
  · cases published

theorem finishImport_eq_some {index : Nat} {keeps : Bool}
    (finished : banner.finishImport index keeps = some next) :
    ∃ task ended settles message, banner.imports[index]? = some task ∧
      task.finish = some (ended, settles, message) ∧
      ∃ middle, middle = (banner.withImport index ended).markDoneIf settles keeps ∧
        (next = middle ∨ next = { middle with candidates := [], status := some message }) := by
  obtain ⟨task, found, finished⟩ := Option.bind_eq_some_iff.mp finished
  obtain ⟨⟨ended, settles, message⟩, finishes, finished⟩ := Option.bind_eq_some_iff.mp finished
  refine ⟨task, ended, settles, message, found, finishes, _, rfl, ?_⟩
  have same := Option.some.inj finished
  split at same
  · exact Or.inr same.symm
  · exact Or.inl same.symm

theorem Ready.markDoneIf (ready : Ready claims storage today banner) (settles keeps : Bool) :
    Ready claims storage today (banner.markDoneIf settles keeps) := by
  unfold ImportBanner.markDoneIf
  split
  · exact ready.markDone keeps
  · exact ready

theorem Ready.publish (ready : Ready claims storage today banner) {index : Nat} {keeps : Bool}
    (published : banner.publish index keeps = some next) :
    Ready claims storage today next := by
  obtain ⟨task, offer, found, at_stage, ended, rfl, outcome⟩ := publish_eq_some published
  have covers := ready.offers task (List.mem_of_getElem? found)
  unfold OfferCovers at covers
  rw [at_stage] at covers
  have ended : Ready claims storage today
      (banner.withOffer index { task with stage := .finished }) := ready.withOffer trivial
  obtain rfl | rfl := outcome
  · exact ended
  · have marked := ended.markDoneIf offer.isEmpty keeps
    have sameDb : ((banner.withOffer index { task with stage := .finished }).markDoneIf
        offer.isEmpty keeps).db = banner.db := by
      unfold ImportBanner.markDoneIf
      split <;> rfl
    exact { marked with candidates := Or.inr (sameDb ▸ covers) }

theorem Ready.finishImport (ready : Ready claims storage today banner) {index : Nat}
    {keeps : Bool} (finished : banner.finishImport index keeps = some next) :
    Ready claims storage today next := by
  obtain ⟨task, ended, settles, message, -, finishes, middle, rfl, outcome⟩ :=
    finishImport_eq_some finished
  have covers : ImportCovers claims storage today banner.db ended := by
    unfold ImportCovers
    rw [ended_of_finish finishes]
    trivial
  have moved : Ready claims storage today (banner.withImport index ended) :=
    ready.withImport covers
  have marked := moved.markDoneIf settles keeps
  obtain rfl | rfl := outcome
  · exact marked
  · exact { marked with candidates := Or.inl rfl }

variable (claims)

/-- The banner's requests go out for this account, and neither the browser's storage nor
the day changes under it. -/
def Steady : Event K → Prop
  | .answered _ ctx => ctx.claims = some claims
  | .copied _ ctx _ => ctx.claims = some claims
  | .written _ => False
  | .clock _ => False
  | _ => True

/-- If the step marks the device as settled, and is no dismissal, then every day held is
on the server. -/
def SettlesSafely (platform : Platform K) (banner : ImportBanner K) (event : Event K) : Prop :=
  (∀ keeps, event ≠ .dismissed keeps) →
    ∀ next, step platform banner event = some next → next.marks ≠ banner.marks →
      ∀ date, Held banner.storage banner.today date → HasRow claims banner.db date

variable {claims} {platform : Platform K} {event : Event K}

theorem Ready.step (ready : Ready claims storage today banner) (steady : Steady claims event)
    (whole : Whole banner event) (taken : step platform banner event = some next) :
    Ready claims storage today next := by
  cases event with
  | effect signedIn faults =>
      cases taken
      unfold ImportBanner.runEffect
      split
      · exact { ready with candidates := Or.inl rfl }
      · refine { ready with offers := fun task member => ?_ }
        obtain old | new := List.mem_append.mp member
        · exact ready.offers task old
        · rw [List.mem_singleton.mp new]
          trivial
  | scanned index faults =>
      obtain ⟨task, found, taken⟩ := Option.bind_eq_some_iff.mp taken
      obtain ⟨task', scanned, same⟩ := Option.bind_eq_some_iff.mp taken
      cases same
      exact ready.withOffer (ready.scan whole scanned)
  | answered index ctx =>
      obtain ⟨task, found, taken⟩ := Option.bind_eq_some_iff.mp taken
      obtain ⟨task', executed, same⟩ := Option.bind_eq_some_iff.mp taken
      cases same
      have covers := ready.offers task (List.mem_of_getElem? found)
      exact ready.withOffer (covers.executeScan steady executed)
  | scanLost index message =>
      obtain ⟨task, found, taken⟩ := Option.bind_eq_some_iff.mp taken
      obtain ⟨task', compared, same⟩ := Option.bind_eq_some_iff.mp taken
      cases same
      have covers := ready.offers task (List.mem_of_getElem? found)
      refine ready.withOffer (covers.compare compared fun date member => ?_)
      exact absurd member List.not_mem_nil
  | published index keeps => exact ready.publish taken
  | dismissed keeps =>
      cases taken
      exact { ready.markDone keeps with candidates := Or.inl rfl }
  | clicked session =>
      cases taken
      refine { ready with imports := fun task member => ?_ }
      obtain old | new := List.mem_append.mp member
      · exact ready.imports task old
      · rw [List.mem_singleton.mp new]
        exact ready.candidates
  | read index faults =>
      obtain ⟨task, found, taken⟩ := Option.bind_eq_some_iff.mp taken
      obtain ⟨task', read, same⟩ := Option.bind_eq_some_iff.mp taken
      cases same
      exact ready.withImport ((ready.imports task (List.mem_of_getElem? found)).read read)
  | proceeded index =>
      obtain ⟨task, found, taken⟩ := Option.bind_eq_some_iff.mp taken
      obtain ⟨task', proceeded, same⟩ := Option.bind_eq_some_iff.mp taken
      cases same
      exact ready.withImport ((ready.imports task (List.mem_of_getElem? found)).proceed proceeded)
  | sealed index nonce =>
      obtain ⟨task, found, taken⟩ := Option.bind_eq_some_iff.mp taken
      obtain ⟨task', moved, same⟩ := Option.bind_eq_some_iff.mp taken
      cases same
      have covers := ready.imports task (List.mem_of_getElem? found)
      refine ready.withImport (covers.withCopy moved fun copy copy' sealing => ?_)
      obtain ⟨target, -, rfl⟩ := StoreTask.sealWith_eq_some.mp sealing
      exact ⟨rfl, nofun⟩
  | sealFailed index =>
      obtain ⟨task, found, taken⟩ := Option.bind_eq_some_iff.mp taken
      obtain ⟨task', moved, same⟩ := Option.bind_eq_some_iff.mp taken
      cases same
      have covers := ready.imports task (List.mem_of_getElem? found)
      refine ready.withImport (covers.withCopy moved fun copy copy' failing => ?_)
      obtain ⟨-, rfl⟩ := StoreTask.sealFailed_eq_some failing
      exact ⟨rfl, nofun⟩
  | copied index ctx lost =>
      obtain ⟨task, found, taken⟩ := Option.bind_eq_some_iff.mp taken
      obtain ⟨⟨task', after⟩, executed, same⟩ := Option.bind_eq_some_iff.mp taken
      cases same
      have covers := ready.imports task (List.mem_of_getElem? found)
      obtain ⟨landed, grows⟩ := covers.executeCopy steady executed
      exact (ready.withDb grows).withImport landed
  | copyLost index message =>
      obtain ⟨task, found, taken⟩ := Option.bind_eq_some_iff.mp taken
      obtain ⟨task', moved, same⟩ := Option.bind_eq_some_iff.mp taken
      cases same
      have covers := ready.imports task (List.mem_of_getElem? found)
      refine ready.withImport (covers.withCopy moved fun copy copy' failing => ?_)
      rw [unanswered_eq_some failing]
      exact ⟨rfl, nofun⟩
  | finished index keeps => exact ready.finishImport taken
  | mounted =>
      cases taken
      exact { ready with candidates := Or.inl rfl }
  | saved ctx date body =>
      cases taken
      refine ready.withDb fun day row => ?_
      obtain ⟨-, same⟩ | ⟨-, me, -, saved⟩ := execute_entrySave_cases ctx banner.db date body
      · rw [same]
        exact row
      · exact row.of_saved saved
  | written storage => exact absurd steady id
  | clock today => exact absurd steady id

theorem Ready.settles (ready : Ready claims storage today banner) :
    SettlesSafely claims platform banner event := by
  intro undismissed next taken marked date here
  have held := ready.held.mp here
  cases event with
  | published index keeps =>
      obtain ⟨task, offer, found, at_stage, ended, rfl, outcome⟩ := publish_eq_some taken
      have covers := ready.offers task (List.mem_of_getElem? found)
      unfold OfferCovers at covers
      rw [at_stage] at covers
      obtain rfl | rfl := outcome
      · exact absurd rfl marked
      · cases offer with
        | nil => exact (covers.covers date held).resolve_left List.not_mem_nil
        | cons day rest => exact absurd rfl marked
  | finished index keeps =>
      obtain ⟨task, ended, settles, message, found, finishes, middle, rfl, outcome⟩ :=
        finishImport_eq_some taken
      have covers := ready.imports task (List.mem_of_getElem? found)
      cases settles with
      | true => exact covers.settles finishes held
      | false => obtain rfl | rfl := outcome <;> exact absurd rfl marked
  | dismissed keeps => exact absurd rfl (undismissed keeps)
  | effect signedIn faults =>
      cases taken
      unfold ImportBanner.runEffect at marked
      split at marked <;> exact absurd rfl marked
  | clicked session =>
      cases taken
      exact absurd rfl marked
  | mounted =>
      cases taken
      exact absurd rfl marked
  | saved ctx date body =>
      cases taken
      exact absurd rfl marked
  | written storage =>
      cases taken
      exact absurd rfl marked
  | clock today =>
      cases taken
      exact absurd rfl marked
  | copied index ctx lost =>
      obtain ⟨task, -, taken⟩ := Option.bind_eq_some_iff.mp taken
      obtain ⟨⟨task', after⟩, -, same⟩ := Option.bind_eq_some_iff.mp taken
      cases same
      exact absurd rfl marked
  | _ =>
      obtain ⟨task, -, taken⟩ := Option.bind_eq_some_iff.mp taken
      obtain ⟨task', -, same⟩ := Option.bind_eq_some_iff.mp taken
      cases same
      exact absurd rfl marked

end Settling

/-! ## A day copied, and a day overlooked -/

/-- Compact JSON, strict base64, and the cipher that keeps the key in the clear. -/
def devicePlatform : Platform Nat :=
  { formats := { json := Json.documents, base64 := Base64.standard }
    cipher := Aead.labelled }

/-- A browser that holds one day. -/
def oneDay : LocalStorage where
  items := [((StorageKey.timeEntry mayFirst).asKey,
    String.ofList (Json.quoted (wrapV1 devicePlatform.formats "planned the week")))]
  unique := List.nodup_singleton _

def aliceNow (now : Timestamp) : AppCtx :=
  request aliceClaims now

end TimeTracker.Import.Settled
