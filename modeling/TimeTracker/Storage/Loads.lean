import Mathlib.Data.List.Find
import TimeTracker.Storage.Saves

/-!
# Reading one's own writes

Every change of the day, and every key published anew, starts a load; every
keystroke starts a save.  The server executes all of them in any order, so a
load reads back what the tab had written only if the saves of its day reached
the server first.
-/

namespace TimeTracker.Storage.Loads

open TimeTracker.Text
open TimeTracker.Date
open TimeTracker.Library.Run
open TimeTracker.Crypto.Wire
open TimeTracker.Server.Schema
open TimeTracker.Server.Functions
open TimeTracker.Server.Execution
open TimeTracker.Server.Entries
open TimeTracker.Tab.State
open TimeTracker.Storage.Envelopes
open TimeTracker.Storage.Seam
open TimeTracker.Storage.Hook
open TimeTracker.Storage.Saves

/-! ## One tab on any day -/

/-- A tab with its writes and its loads in flight. -/
structure Tab (K : Type) extends Editor K where
  loads : List (LoadTask K)

inductive Event
  | write (event : Saves.Event)
  | goTo (day : NaiveDate)
  | unlockedAgain (forgets : Forgets)
  | answered (load : Nat) (now : Timestamp)
  | answerLost (load : Nat) (error : StorageError)
  | opened (load : Nat)
  | published (load : Nat) (reprobing : Bool)

section Tabs

variable {K : Type} (platform : Platform K) (claims : SessionClaims)

def Tab.withLoad (tab : Tab K) (index : Nat) (task : LoadTask K) : Tab K :=
  { tab with loads := tab.loads.set index task }

/-- The load effect runs. -/
def Tab.load (tab : Tab K) : Tab K :=
  let (persistent, task) := tab.persistent.load tab.encryption
  { tab with persistent, loads := tab.loads ++ [task] }

/-- What publishing a load would show. -/
def Tab.publishes? (tab : Tab K) (index : Nat) (reprobing : Bool) : Option String := do
  (← tab.loads[index]?).publishes? tab.persistent.generation reprobing

/-- One step of the tab, of the browser's cipher, of the network or of the server. -/
def step (tab : Tab K) : Event → Option (Tab K)
  | .write event => do
      let editor ← Saves.step platform claims tab.toEditor event
      some { tab with toEditor := editor }
  | .goTo day =>
      some { tab with persistent := { tab.persistent with key := .timeEntry day } }.load
  | .unlockedAgain forgets =>
      match tab.encryption with
      | .unlocked session =>
          some { tab with encryption := .unlocked { session with forgets } }.load
      | _ => none
  | .answered index now => do
      let task ← (← tab.loads[index]?).executeLoad platform (request claims now) tab.db
      some (tab.withLoad index task)
  | .answerLost index error => do
      let task ← (← tab.loads[index]?).answer platform (.error error)
      some (tab.withLoad index task)
  | .opened index => do
      let task ← (← tab.loads[index]?).openWith platform
      some (tab.withLoad index task)
  | .published index reprobing => do
      let task ← (← tab.loads[index]?).finish
      let value := (tab.publishes? index reprobing).or tab.persistent.value
      some { tab.withLoad index task with persistent := { tab.persistent with value } }

/-- A signed-in tab that holds the account's key, on a day it has not loaded yet. -/
def mounted (day : NaiveDate) (session : SessionKey K) (db : Database) : Tab K :=
  { unlockedOn day session none db with loads := [] }

end Tabs

section Steps

variable {K : Type} {platform : Platform K} {claims : SessionClaims} {tab next : Tab K}
  {index : Nat}

theorem step_write_eq_some {event : Saves.Event} :
    step platform claims tab (.write event) = some next ↔
      ∃ editor, Saves.step platform claims tab.toEditor event = some editor ∧
        { tab with toEditor := editor } = next := by
  simp only [step, Option.bind_eq_bind, Option.bind_eq_some_iff, Option.some.injEq]

theorem step_answered_eq_some {now : Timestamp} :
    step platform claims tab (.answered index now) = some next ↔
      ∃ old, tab.loads[index]? = some old ∧ ∃ new,
        old.executeLoad platform (request claims now) tab.db = some new ∧
        tab.withLoad index new = next := by
  simp only [step, Option.bind_eq_bind, Option.bind_eq_some_iff, Option.some.injEq]

theorem step_answerLost_eq_some {error : StorageError} :
    step platform claims tab (.answerLost index error) = some next ↔
      ∃ old, tab.loads[index]? = some old ∧ ∃ new,
        old.answer platform (.error error) = some new ∧ tab.withLoad index new = next := by
  simp only [step, Option.bind_eq_bind, Option.bind_eq_some_iff, Option.some.injEq]

theorem step_opened_eq_some :
    step platform claims tab (.opened index) = some next ↔
      ∃ old, tab.loads[index]? = some old ∧ ∃ new,
        old.openWith platform = some new ∧ tab.withLoad index new = next := by
  simp only [step, Option.bind_eq_bind, Option.bind_eq_some_iff, Option.some.injEq]

theorem step_published_eq_some {reprobing : Bool} :
    step platform claims tab (.published index reprobing) = some next ↔
      ∃ old, tab.loads[index]? = some old ∧ ∃ new, old.finish = some new ∧
        { tab.withLoad index new with
          persistent := { tab.persistent with
            value := (tab.publishes? index reprobing).or tab.persistent.value } } = next := by
  simp only [step, Option.bind_eq_bind, Option.bind_eq_some_iff, Option.some.injEq]

end Steps

/-! ## What the events say -/

/-- The day shown, the texts set so far and the days they were set on, the saves the
server executed, and the loads: the day of each, and how many sets came before it.
For each load answered, the save of its day executed last by then. -/
structure History where
  day : NaiveDate
  sets : List (NaiveDate × String)
  executed : List Nat
  loads : List (NaiveDate × Nat)
  answered : List (Nat × Option Nat)

/-- The set is on this day. -/
def History.On (history : History) (day : NaiveDate) (set : Nat) : Prop :=
  (history.sets[set]?).map Prod.fst = some day

instance (history : History) (day : NaiveDate) (set : Nat) : Decidable (history.On day set) :=
  inferInstanceAs (Decidable (_ = _))

/-- The save of a day that the server executed last. -/
def History.lastExecuted (history : History) (day : NaiveDate) : Option Nat :=
  history.executed.reverse.find? fun save => history.On day save

def History.after (history : History) : Event → History
  | .write (.set text) => { history with sets := history.sets ++ [(history.day, text)] }
  | .write (.executed save _) => { history with executed := history.executed ++ [save] }
  | .goTo day =>
      { history with day, loads := history.loads ++ [(day, history.sets.length)] }
  | .unlockedAgain _ =>
      { history with loads := history.loads ++ [(history.day, history.sets.length)] }
  | .answered load _ =>
      { history with
        answered := history.answered ++
          [(load, (history.loads[load]?).bind fun began => history.lastExecuted began.1)] }
  | _ => history

def historyOf (day : NaiveDate) (events : List Event) : History :=
  events.foldl History.after { day, sets := [], executed := [], loads := [], answered := [] }

/-- The load of this day began after the set. -/
structure History.BeganAfter (history : History) (load : Nat) (day : NaiveDate) (set : Nat) :
    Prop where
  onDay : history.On day set
  before : ∃ sets, history.loads[load]? = some (day, sets) ∧ set < sets

/-- When the server answered the load, the save of its day that it had executed last was
of the last set made before the load began, or of a later one. -/
def History.InTime (history : History) (load : Nat) : Prop :=
  ∀ day, (∃ set, history.BeganAfter load day set) →
    ∃ save, (load, some save) ∈ history.answered ∧
      ∀ set, history.BeganAfter load day set → set ≤ save

/-- The text is that of the last set on its day made before the load began, or of a
later one. -/
def History.Own (history : History) (load : Nat) (text : String) : Prop :=
  ∀ day, (∃ set, history.BeganAfter load day set) →
    ∃ set, history.sets[set]? = some (day, text) ∧
      ∀ earlier, history.BeganAfter load day earlier → earlier ≤ set

section Histories

variable (history : History) (day : NaiveDate)

theorem historyOf_append (past : List Event) (event : Event) :
    historyOf day (past ++ [event]) = (historyOf day past).after event := by
  rw [historyOf, List.foldl_append]
  rfl

variable {history}

/-- A set of the past stays where it is. -/
theorem On.append {set : Nat} (added : List (NaiveDate × String))
    (bound : set < history.sets.length) :
    { history with sets := history.sets ++ added }.On day set ↔ history.On day set := by
  rw [History.On, History.On, List.getElem?_append_left bound]

end Histories

/-! ## What the tab and the row hold along a run -/

section Runs

variable {K : Type} (platform : Platform K) (claims : SessionClaims)
  (session : SessionKey K)

/-- No save has failed. -/
def Unfailed (tasks : List (StoreTask K)) : Prop :=
  ∀ task ∈ tasks, ∀ error, task.stage ≠ .finished (.error error)

/-- The save seals under the account's key, and sends its own text. -/
structure Seals (task : StoreTask K) : Prop where
  target : ∀ target, task.stage = .sealing target →
    ∃ held, target = .remote held ∧ held.key = session.key
  envelope : ∀ target envelope, task.stage = .sending target envelope →
    EnvelopeOf platform session task.value envelope

/-- The load is on its way to this text. -/
def Reads (text : String) (task : LoadTask K) : Prop :=
  match task.stage with
  | .requesting => False
  | .opening read => openRow platform read task.key = .ok text
  | .resolved read => read = .ok (some text)
  | .finished => True

/-- What the events so far say about the tab and about the rows. -/
structure Tracks (history : History) (tab : Tab K) : Prop where
  onDay : tab.persistent.key = .timeEntry history.day
  remote : tab.persistent.backend = .remote
  unlocked : ∃ held, tab.encryption = .unlocked held ∧ held.key = session.key
  sets : tab.tasks.map (fun task => (task.key.date, task.value)) = history.sets
  seals : ∀ task ∈ tab.tasks, Seals platform session task
  executed : ∀ save ∈ history.executed, save < history.sets.length
  loads : tab.loads.map (fun task => task.key.date) = history.loads.map Prod.fst
  began : ∀ load ∈ history.loads, load.2 ≤ history.sets.length
  keyed : ∀ task ∈ tab.loads, ∃ held, task.session = some held ∧ held.key = session.key
  rows : Unfailed tab.tasks → ∀ day save, history.lastExecuted day = some save →
    ∃ text, history.sets[save]? = some (day, text) ∧
      RowOf platform claims day session tab.db text
  reads : Unfailed tab.tasks → ∀ load save, (load, some save) ∈ history.answered →
    ∃ task text, tab.loads[load]? = some task ∧
      history.sets[save]? = some (task.key.date, text) ∧ Reads platform text task

variable {platform claims session} {history : History} {tab next : Tab K}

theorem tracks_mounted (day : NaiveDate) (db : Database) :
    Tracks platform claims session (historyOf day []) (mounted day session db) := by
  constructor <;> simp [mounted, unlockedOn, historyOf, History.lastExecuted]

theorem wrap_congr {held : SessionKey K} (same : held.key = session.key) (nonce : Nonce)
    (text : String) :
    wrap platform nonce.val text (some held) = wrap platform nonce.val text (some session) := by
  simp only [wrap, same]

theorem seals_sealing {key : StorageKey} {value : String} {held : SessionKey K}
    (same : held.key = session.key) :
    Seals platform session { key, value, stage := .sealing (.remote held) } := by
  refine ⟨?_, nofun⟩
  rintro target ⟨⟩
  exact ⟨held, rfl, same⟩

theorem seals_sending {key : StorageKey} {value envelope : String} {target : WriteTarget K}
    (sealed_value : EnvelopeOf platform session value envelope) :
    Seals platform session { key, value, stage := .sending target envelope } := by
  refine ⟨nofun, ?_⟩
  rintro target envelope ⟨⟩
  exact sealed_value

theorem seals_finished {task : StoreTask K} {result : Except StorageError Unit}
    (finished : task.stage = .finished result) : Seals platform session task := by
  constructor <;> simp [finished]

/-- A set by the tab is the newest, and moves no row. -/
theorem Tracks.set (tracks : Tracks platform claims session history tab) (text : String) :
    Tracks platform claims session (history.after (.write (.set text)))
      { tab with
        persistent := (tab.persistent.set tab.encryption text).1
        tasks := tab.tasks ++ [(tab.persistent.set tab.encryption text).2] } := by
  obtain ⟨held, unlocked, same⟩ := tracks.unlocked
  have spawned : (tab.persistent.set tab.encryption text).2 =
      { key := .timeEntry history.day, value := text, stage := .sealing (.remote held) } := by
    simp [Persistent.set, tracks.onDay, tracks.remote, unlocked, store, writeTarget,
      EncryptionState.writeKey]
  have unfailed : Unfailed (tab.tasks ++ [(tab.persistent.set tab.encryption text).2]) →
      Unfailed tab.tasks :=
    fun whole task member => whole task (List.mem_append_left _ member)
  rw [spawned] at unfailed ⊢
  have kept : ∀ {save : Nat} {pair : NaiveDate × String}, history.sets[save]? = some pair →
      (history.sets ++ [(history.day, text)])[save]? = some pair := by
    intro save pair found
    rw [List.getElem?_append_left (List.getElem?_eq_some_iff.mp found).1]
    exact found
  have last : ∀ day, (history.after (.write (.set text))).lastExecuted day =
      history.lastExecuted day := by
    intro day
    unfold History.lastExecuted
    apply List.find?_congr
    intro save member
    have bound := tracks.executed save (List.mem_reverse.mp member)
    exact decide_eq_decide.mpr (On.append day _ bound)
  constructor
  · exact tracks.onDay
  · exact tracks.remote
  · exact tracks.unlocked
  · rw [List.map_append, tracks.sets]
    rfl
  · intro task member
    obtain old | new := List.mem_append.mp member
    · exact tracks.seals task old
    · rw [List.mem_singleton.mp new]
      exact seals_sealing same
  · intro save member
    have bound := tracks.executed save member
    simp only [History.after, List.length_append]
    omega
  · exact tracks.loads
  · intro load member
    have bound := tracks.began load member
    simp only [History.after, List.length_append]
    omega
  · exact tracks.keyed
  · intro whole day save executed
    rw [last] at executed
    obtain ⟨written, found, row⟩ := tracks.rows (unfailed whole) day save executed
    exact ⟨written, kept found, row⟩
  · intro whole load save answered
    obtain ⟨task, written, found, set, reads⟩ := tracks.reads (unfailed whole) load save answered
    exact ⟨task, written, found, kept set, reads⟩

/-- A save that was running has not failed. -/
theorem unfailed_of_set {tasks : List (StoreTask K)} {index : Nat} {old new : StoreTask K}
    (found : tasks[index]? = some old) (running : ∀ error, old.stage ≠ .finished (.error error))
    (whole : Unfailed (tasks.set index new)) : Unfailed tasks := by
  intro task member error
  obtain ⟨other, here⟩ := List.mem_iff_getElem?.mp member
  by_cases own : index = other
  · subst own
    cases found.symm.trans here
    exact running error
  · have there : (tasks.set index new)[other]? = some task := by
      rw [List.getElem?_set_ne own]
      exact here
    exact whole task (List.mem_of_getElem? there) error

/-- A save that moves on without reaching the server moves no row. -/
theorem Tracks.withTask (tracks : Tracks platform claims session history tab) {index : Nat}
    {old new : StoreTask K} (found : tab.tasks[index]? = some old) (key : new.key = old.key)
    (value : new.value = old.value) (seals : Seals platform session new)
    (running : ∀ error, old.stage ≠ .finished (.error error)) :
    Tracks platform claims session history
      { tab with toEditor := tab.toEditor.withTask index new } := by
  have unfailed : Unfailed (tab.tasks.set index new) → Unfailed tab.tasks :=
    unfailed_of_set found running
  constructor
  · exact tracks.onDay
  · exact tracks.remote
  · exact tracks.unlocked
  · rw [← tracks.sets]
    exact map_set_of_eq found (by rw [key, value])
  · intro task member
    obtain old | rfl := List.mem_or_eq_of_mem_set member
    · exact tracks.seals task old
    · exact seals
  · exact tracks.executed
  · exact tracks.loads
  · exact tracks.began
  · exact tracks.keyed
  · exact fun whole => tracks.rows (unfailed whole)
  · exact fun whole => tracks.reads (unfailed whole)

/-- A save the server executed: its day's row is of its text from now on. -/
theorem Tracks.executedSave (tracks : Tracks platform claims session history tab) {index : Nat}
    {old new : StoreTask K} {now : Timestamp} {db : Database}
    (found : tab.tasks[index]? = some old)
    (ran : old.executeSave (request claims now) tab.db = some (new, db)) :
    Tracks platform claims session (history.after (.write (.executed index now)))
      { tab with toEditor := { tab.toEditor.withTask index new with db } } := by
  obtain ⟨target, envelope, at_stage, outcome⟩ := StoreTask.executeSave_cases ran
  have bound := (List.getElem?_eq_some_iff.mp found).1
  have length : tab.tasks.length = history.sets.length := by
    rw [← tracks.sets, List.length_map]
  have set : history.sets[index]? = some (old.key.date, old.value) := by
    rw [← tracks.sets, List.getElem?_map, found]
    rfl
  have last : ∀ day, (history.after (.write (.executed index now))).lastExecuted day =
      if day = old.key.date then some index else history.lastExecuted day := by
    intro day
    have own : (history.after (.write (.executed index now))).On day index ↔
        day = old.key.date := by
      rw [History.On, History.after, set]
      exact ⟨fun same => (Option.some.inj same).symm, fun same => congrArg some same.symm⟩
    have reversed : (history.after (.write (.executed index now))).executed.reverse =
        index :: history.executed.reverse := by
      rw [History.after, List.reverse_append, List.reverse_singleton, List.singleton_append]
    unfold History.lastExecuted
    rw [reversed, List.find?_cons]
    by_cases same : day = old.key.date
    · rw [if_pos same]
      simp only [decide_eq_true (own.mpr same)]
    · rw [if_neg same]
      simp only [decide_eq_false (mt own.mp same)]
      rfl
  have same : new.key = old.key ∧ new.value = old.value ∧
      ∃ result, new.stage = .finished result := by
    obtain ⟨⟨error, rfl⟩, -⟩ | ⟨rfl, -⟩ := outcome <;> exact ⟨rfl, rfl, _, rfl⟩
  obtain ⟨key, value, result, finished⟩ := same
  have unfailed : Unfailed (tab.tasks.set index new) → Unfailed tab.tasks :=
    unfailed_of_set found fun error failed => nomatch at_stage.symm.trans failed
  constructor
  · exact tracks.onDay
  · exact tracks.remote
  · exact tracks.unlocked
  · rw [History.after, ← tracks.sets]
    exact map_set_of_eq found (by rw [key, value])
  · intro task member
    obtain old_mem | rfl := List.mem_or_eq_of_mem_set member
    · exact tracks.seals task old_mem
    · exact seals_finished finished
  · intro save member
    obtain old_mem | new_mem := List.mem_append.mp member
    · exact tracks.executed save old_mem
    · rw [List.mem_singleton.mp new_mem]
      exact length ▸ bound
  · exact tracks.loads
  · exact tracks.began
  · exact tracks.keyed
  · intro whole day save executed
    rw [last] at executed
    have stored : ∀ error, new.stage ≠ .finished (.error error) :=
      whole new (List.mem_of_getElem? (List.getElem?_set_self bound))
    obtain ⟨⟨error, rfl⟩, -⟩ | ⟨rfl, me, signedIn, saved⟩ := outcome
    · exact absurd rfl (stored error)
    · split at executed
      · next own =>
          cases executed
          subst own
          refine ⟨old.value, set, me, envelope, signedIn_of_users signedIn saved.users rfl,
            saved.stored, ?_⟩
          exact (tracks.seals old (List.mem_of_getElem? found)).envelope _ _ at_stage
      · next other =>
          obtain ⟨text, set, owner, body, ownerIn, row, sealed⟩ :=
            tracks.rows (unfailed whole) day save executed
          refine ⟨text, set, owner, body, signedIn_of_users ownerIn saved.users rfl, ?_, sealed⟩
          rw [saved.frame owner.id (toIso day) ?_]
          · exact row
          · rintro ⟨-, same⟩
            exact other (toIso_injective same).symm
  · exact fun whole => tracks.reads (unfailed whole)

/-- A load begins, after all the sets so far. -/
theorem Tracks.load (tracks : Tracks platform claims session history tab) :
    Tracks platform claims session
      { history with loads := history.loads ++ [(history.day, history.sets.length)] }
      tab.load := by
  constructor
  · exact tracks.onDay
  · exact tracks.remote
  · exact tracks.unlocked
  · exact tracks.sets
  · exact tracks.seals
  · exact tracks.executed
  · show (tab.loads ++ [_]).map _ = _
    rw [List.map_append, List.map_append, tracks.loads]
    simp [tracks.onDay, StorageKey.date]
  · intro load member
    obtain old | new := List.mem_append.mp member
    · exact tracks.began load old
    · rw [List.mem_singleton.mp new]
  · intro task member
    obtain old | new := List.mem_append.mp member
    · exact tracks.keyed task old
    · obtain ⟨held, unlocked, same⟩ := tracks.unlocked
      rw [List.mem_singleton.mp new]
      exact ⟨held, by simp [unlocked, EncryptionState.key], same⟩
  · exact tracks.rows
  · intro whole load save answered
    obtain ⟨task, text, found, set, reads⟩ := tracks.reads whole load save answered
    refine ⟨task, text, ?_, set, reads⟩
    show (tab.loads ++ [_])[load]? = some task
    rw [List.getElem?_append_left (List.getElem?_eq_some_iff.mp found).1]
    exact found

/-- A load that moves on stays on its way to its text. -/
theorem Tracks.withLoad (tracks : Tracks platform claims session history tab) {index : Nat}
    {old new : LoadTask K} (found : tab.loads[index]? = some old) (key : new.key = old.key)
    (held : new.session = old.session)
    (reads : ∀ text, Reads platform text old → Reads platform text new) :
    Tracks platform claims session history (tab.withLoad index new) := by
  have bound := (List.getElem?_eq_some_iff.mp found).1
  constructor
  · exact tracks.onDay
  · exact tracks.remote
  · exact tracks.unlocked
  · exact tracks.sets
  · exact tracks.seals
  · exact tracks.executed
  · rw [← tracks.loads]
    exact map_set_of_eq found (by rw [key])
  · exact tracks.began
  · intro task member
    obtain old_mem | rfl := List.mem_or_eq_of_mem_set member
    · exact tracks.keyed task old_mem
    · rw [held]
      exact tracks.keyed old (List.mem_of_getElem? found)
  · exact tracks.rows
  · intro whole load save answered
    obtain ⟨task, text, here, set, reading⟩ := tracks.reads whole load save answered
    by_cases own : index = load
    · subst own
      cases found.symm.trans here
      exact ⟨new, text, List.getElem?_set_self bound, key ▸ set, reads text reading⟩
    · refine ⟨task, text, ?_, set, reading⟩
      show (tab.loads.set index new)[load]? = some task
      rw [List.getElem?_set_ne own]
      exact here

theorem answer_eq_some {raw : Except StorageError (Option String)} {old new : LoadTask K}
    (answered : old.answer platform raw = some new) :
    old.stage = .requesting ∧ new.key = old.key ∧ new.session = old.session := by
  unfold LoadTask.answer at answered
  split at answered
  · next requesting =>
      cases answered
      exact ⟨requesting, rfl, rfl⟩
  · cases answered

/-- A row of the tab's own text is opened to that text. -/
theorem reads_of_row {text : String} {day : NaiveDate} {old new : LoadTask K}
    {now : Timestamp} {held : SessionKey K}
    (row : RowOf platform claims day session tab.db text) (date : old.key.date = day)
    (keyed : old.session = some held) (same : held.key = session.key)
    (answered : old.executeLoad platform (request claims now) tab.db = some new) :
    Reads platform text new := by
  obtain ⟨me, envelope, signedIn, stored, nonce, rfl⟩ := row
  have signedIn : SignedIn (request claims now) tab.db me :=
    signedIn_of_users signedIn rfl rfl
  have opens : readRow platform (wrap platform nonce.val text (some session)) (some held)
      old.key = .ok text := readRow_wrap same.symm nonce.property text old.key
  unfold LoadTask.executeLoad at answered
  rw [execute_entryLoad signedIn, date, stored] at answered
  unfold LoadTask.answer at answered
  split at answered
  · cases decided : decideRow platform (wrap platform nonce.val text (some session))
        (some held) old.key with
    | error error =>
        rw [readRow, decided] at opens
        cases opens
    | ok read =>
        rw [readRow, decided] at opens
        simp only [Except.mapError, keyed, decided] at answered
        cases answered
        exact opens
  · cases answered

/-- The server answers a load: it is on its way to the text of the save executed last. -/
theorem Tracks.answered (tracks : Tracks platform claims session history tab) {index : Nat}
    {old new : LoadTask K} {now : Timestamp} (found : tab.loads[index]? = some old)
    (answered : old.executeLoad platform (request claims now) tab.db = some new) :
    Tracks platform claims session (history.after (.answered index now))
      (tab.withLoad index new) := by
  obtain ⟨requesting, key, held⟩ := answer_eq_some answered
  have bound := (List.getElem?_eq_some_iff.mp found).1
  have moved : Tracks platform claims session history (tab.withLoad index new) := by
    refine tracks.withLoad found key held fun text reads => ?_
    simp only [Reads, requesting] at reads
  refine { moved with reads := fun whole load save member => ?_ }
  obtain old_mem | new_mem := List.mem_append.mp member
  · exact moved.reads whole load save old_mem
  · obtain ⟨rfl, last⟩ := Prod.mk.inj (List.mem_singleton.mp new_mem)
    obtain ⟨began, at_load, last⟩ := Option.bind_eq_some_iff.mp last.symm
    obtain ⟨text, set, row⟩ := tracks.rows whole began.1 save last
    have date : old.key.date = began.1 := by
      have dates := congrArg (fun dates => dates[load]?) tracks.loads
      simp only [List.getElem?_map, found, at_load, Option.map_some, Option.some.injEq] at dates
      exact dates
    obtain ⟨holder, keyed, same⟩ := tracks.keyed old (List.mem_of_getElem? found)
    refine ⟨new, text, List.getElem?_set_self bound, ?_, ?_⟩
    · rw [key, date]
      exact set
    · exact reads_of_row row date keyed same answered

theorem Tracks.write (tracks : Tracks platform claims session history tab)
    {event : Saves.Event} {editor : Editor K}
    (taken : Saves.step platform claims tab.toEditor event = some editor) :
    Tracks platform claims session (history.after (.write event))
      { tab with toEditor := editor } := by
  cases event with
  | set text =>
      cases taken
      exact tracks.set text
  | sealed index nonce =>
      obtain ⟨old, target, found, at_stage, rfl⟩ := step_sealed_eq_some.mp taken
      obtain ⟨held, rfl, key⟩ :=
        (tracks.seals old (List.mem_of_getElem? found)).target target at_stage
      refine tracks.withTask found ?_ ?_ (seals_sending ?_) ?_
      · rfl
      · rfl
      · exact ⟨nonce, wrap_congr key nonce old.value⟩
      · simp [at_stage]
  | sealFailed index =>
      obtain ⟨old, target, found, at_stage, rfl⟩ := step_sealFailed_eq_some taken
      refine tracks.withTask found ?_ ?_ (seals_finished rfl) ?_
      · rfl
      · rfl
      · simp [at_stage]
  | executed index now =>
      obtain ⟨old, new, db, found, ran, rfl⟩ := step_executed_eq_some.mp taken
      exact tracks.executedSave found ran

theorem Tracks.step (tracks : Tracks platform claims session history tab) {event : Event}
    (taken : step platform claims tab event = some next) :
    Tracks platform claims session (history.after event) next := by
  cases event with
  | write event =>
      obtain ⟨editor, wrote, rfl⟩ := step_write_eq_some.mp taken
      exact tracks.write wrote
  | goTo day =>
      cases taken
      have moved : Tracks platform claims session { history with day }
          { tab with persistent := { tab.persistent with key := .timeEntry day } } :=
        { tracks with onDay := rfl }
      exact moved.load
  | unlockedAgain forgets =>
      obtain ⟨held, unlocked, same⟩ := tracks.unlocked
      simp only [Loads.step, unlocked] at taken
      cases taken
      have republished : Tracks platform claims session history
          { tab with encryption := .unlocked { held with forgets } } :=
        { tracks with unlocked := ⟨_, rfl, same⟩ }
      exact republished.load
  | answered index now =>
      obtain ⟨old, found, new, answered, rfl⟩ := step_answered_eq_some.mp taken
      exact tracks.answered found answered
  | answerLost index error =>
      obtain ⟨old, found, new, lost, rfl⟩ := step_answerLost_eq_some.mp taken
      obtain ⟨requesting, key, held⟩ := answer_eq_some lost
      refine tracks.withLoad found key held fun text reads => ?_
      simp only [Reads, requesting] at reads
  | opened index =>
      obtain ⟨old, found, new, opened, rfl⟩ := step_opened_eq_some.mp taken
      unfold LoadTask.openWith at opened
      split at opened
      · next read opening =>
          cases opened
          refine tracks.withLoad found ?_ ?_ fun text reads => ?_
          · rfl
          · rfl
          · simp only [Reads, opening] at reads
            simp only [Reads, reads, Except.map]
      · cases opened
  | published index reprobing =>
      obtain ⟨old, found, new, finished, rfl⟩ := step_published_eq_some.mp taken
      unfold LoadTask.finish at finished
      split at finished
      · cases finished
        have ended : Tracks platform claims session history
            (tab.withLoad index { old with stage := .finished }) :=
          tracks.withLoad found rfl rfl fun _ _ => trivial
        exact { ended with onDay := ended.onDay, remote := ended.remote }
      · cases finished

theorem Tracks.run {day : NaiveDate} {db : Database} {last : Tab K} {events : List Event}
    (ran : runFrom (Loads.step platform claims) (mounted day session db) events = some last) :
    Tracks platform claims session (historyOf day events) last := by
  refine history_runFrom
    (I := fun past tab => Tracks platform claims session (historyOf day past) tab)
    ?_ (tracks_mounted day db) ran
  intro past tab event next tracks taken
  rw [historyOf_append]
  exact tracks.step taken

/-- A load answered in time publishes the tab's own text, if it publishes. -/
theorem Tracks.own (tracks : Tracks platform claims session history tab)
    (whole : Unfailed tab.tasks) {index : Nat} (inTime : history.InTime index)
    {reprobing : Bool} {text : String} (published : tab.publishes? index reprobing = some text) :
    history.Own index text := by
  intro day began
  obtain ⟨save, answered, latest⟩ := inTime day began
  obtain ⟨task, read, found, stored, reads⟩ := tracks.reads whole index save answered
  have date : task.key.date = day := by
    obtain ⟨set, -, sets, at_load, -⟩ := began
    have dates := congrArg (fun dates => dates[index]?) tracks.loads
    simp only [List.getElem?_map, found, at_load, Option.map_some, Option.some.injEq] at dates
    exact dates
  have same : read = text := by
    simp only [Tab.publishes?, found, Option.bind_eq_bind, Option.bind_some] at published
    unfold LoadTask.publishes? at published
    split at published
    · next resolved =>
        simp only [Reads, resolved] at reads
        subst reads
        split at published
        · exact Option.some.inj published
        · cases published
    · cases published
  exact ⟨save, by rw [stored, date, same], latest⟩

variable (platform claims session)

/-- Every load that began after a set of its day had been answered in time when it was
published, unless something newer had begun. -/
def InOrder (day : NaiveDate) (db : Database) (events : List Event) : Prop :=
  ∀ past index reprobing later before task,
    events = past ++ .published index reprobing :: later →
    runFrom (Loads.step platform claims) (mounted day session db) past = some before →
    before.loads[index]? = some task →
    before.persistent.generation.isCurrent task.token = true → (historyOf day past).InTime index

/-- Every value a load publishes is the text of the last set on its day made before it
began, or of a later one, if there was a set on its day before it began. -/
def ReadsOwnWrites (day : NaiveDate) (db : Database) (events : List Event) : Prop :=
  ∀ past index reprobing later before text,
    events = past ++ .published index reprobing :: later →
    runFrom (Loads.step platform claims) (mounted day session db) past = some before →
    before.publishes? index reprobing = some text → (historyOf day past).Own index text

variable {platform claims session}

/-- What a load publishes, it publishes as the newest operation. -/
theorem isCurrent_of_publishes? {index : Nat} {reprobing : Bool} {text : String}
    {task : LoadTask K} (found : tab.loads[index]? = some task)
    (published : tab.publishes? index reprobing = some text) :
    tab.persistent.generation.isCurrent task.token = true := by
  simp only [Tab.publishes?, found, Option.bind_eq_bind, Option.bind_some] at published
  unfold LoadTask.publishes? at published
  split at published
  · split at published
    · next current => exact current
    · cases published
  · cases published

/-- A save that failed stays failed. -/
theorem unfailed_of_write {event : Saves.Event} {editor : Editor K}
    (wrote : Saves.step platform claims tab.toEditor event = some editor)
    (whole : Unfailed editor.tasks) : Unfailed tab.tasks := by
  cases event with
  | set text =>
      cases wrote
      exact fun task member => whole task (List.mem_append_left _ member)
  | sealed index nonce =>
      obtain ⟨old, target, found, at_stage, rfl⟩ := step_sealed_eq_some.mp wrote
      exact unfailed_of_set found (by simp [at_stage]) whole
  | sealFailed index =>
      obtain ⟨old, target, found, at_stage, rfl⟩ := step_sealFailed_eq_some wrote
      exact unfailed_of_set found (by simp [at_stage]) whole
  | executed index now =>
      obtain ⟨old, new, db, found, ran, rfl⟩ := step_executed_eq_some.mp wrote
      obtain ⟨target, envelope, at_stage, -⟩ := StoreTask.executeSave_cases ran
      exact unfailed_of_set found (by simp [at_stage]) whole

theorem unfailed_of_step {event : Event}
    (taken : Loads.step platform claims tab event = some next) (whole : Unfailed next.tasks) :
    Unfailed tab.tasks := by
  cases event with
  | write event =>
      obtain ⟨editor, wrote, rfl⟩ := step_write_eq_some.mp taken
      exact unfailed_of_write wrote whole
  | goTo day =>
      cases taken
      exact whole
  | unlockedAgain forgets =>
      simp only [Loads.step] at taken
      split at taken
      · cases taken
        exact whole
      · cases taken
  | answered index now =>
      obtain ⟨old, -, new, -, rfl⟩ := step_answered_eq_some.mp taken
      exact whole
  | answerLost index error =>
      obtain ⟨old, -, new, -, rfl⟩ := step_answerLost_eq_some.mp taken
      exact whole
  | opened index =>
      obtain ⟨old, -, new, -, rfl⟩ := step_opened_eq_some.mp taken
      exact whole
  | published index reprobing =>
      obtain ⟨old, -, new, -, rfl⟩ := step_published_eq_some.mp taken
      exact whole

theorem unfailed_of_run {events : List Event} {last : Tab K}
    (ran : runFrom (Loads.step platform claims) tab events = some last)
    (whole : Unfailed last.tasks) : Unfailed tab.tasks := by
  induction events generalizing tab with
  | nil =>
      cases ran
      exact whole
  | cons event rest ih =>
      obtain ⟨middle, taken, ran⟩ := runFrom_cons_eq_some.mp ran
      exact unfailed_of_step taken (ih ran)

/-- A tab whose saves all succeed reads its own writes, as long as every load it
publishes was answered after the saves of its day. -/
theorem reads_own_writes (day : NaiveDate) (db : Database) {events : List Event}
    {last : Tab K}
    (ran : runFrom (Loads.step platform claims) (mounted day session db) events = some last)
    (whole : Unfailed last.tasks)
    (inOrder : InOrder platform claims session day db events) :
    ReadsOwnWrites platform claims session day db events := by
  rintro past index reprobing later before text rfl reached published
  obtain ⟨middle, here, rest⟩ := runFrom_append_eq_some.mp ran
  cases reached.symm.trans here
  have tracks := Tracks.run reached
  obtain ⟨task, found⟩ : ∃ task, before.loads[index]? = some task := by
    obtain ⟨task, found, -⟩ := Option.bind_eq_some_iff.mp published
    exact ⟨task, found⟩
  have current := isCurrent_of_publishes? found published
  exact tracks.own (unfailed_of_run rest whole)
    (inOrder past index reprobing later before task rfl reached found current) published

end Runs

/-! ## There and back, before and after the save -/

/-- alice writes two characters, the first save is stored, and she looks at the next
day and comes back. -/
def thereAndBack : List Event :=
  [.goTo mayFirst, .write (.set "a"), .write (.sealed 0 (plainNonce 1)),
    .write (.executed 0 1), .write (.set "ab"), .write (.sealed 1 (plainNonce 2)),
    .goTo maySecond, .goTo mayFirst]

/-- The second save is stored before the load is answered. -/
def saveFirst : List Event :=
  thereAndBack ++ [.write (.executed 1 2), .answered 2 3, .opened 2, .published 2 false]

theorem inOrder_saveFirst :
    InOrder plainPlatform aliceClaims aliceKey mayFirst aliceEncrypted saveFirst := by
  intro past index reprobing later before task split _ _ _
  obtain ⟨rfl, rfl⟩ : past = saveFirst.dropLast ∧ index = 2 := by
    simp [saveFirst, thereAndBack, List.cons_eq_append_iff] at split
    exact ⟨split.1, split.2.1.1⟩
  rintro day -
  refine ⟨1, List.mem_singleton.mpr rfl, ?_⟩
  rintro set ⟨-, sets, began, before⟩
  cases Option.some.inj (began : some (mayFirst, 2) = some (day, sets))
  exact Nat.le_of_lt_succ before

theorem reads_own_writes_saveFirst :
    ∃ last, runFrom (step plainPlatform aliceClaims)
        (mounted mayFirst aliceKey aliceEncrypted) saveFirst = some last ∧
      last.persistent.value = some "ab" ∧
      ReadsOwnWrites plainPlatform aliceClaims aliceKey mayFirst aliceEncrypted saveFirst := by
  have ends : (runFrom (step plainPlatform aliceClaims)
      (mounted mayFirst aliceKey aliceEncrypted) saveFirst).map
        (fun last => (last.persistent.value, decide (∀ task ∈ last.tasks, task.Stored))) =
      some (some "ab", true) := by
    decide +kernel
  obtain ⟨last, ran, same⟩ := Option.map_eq_some_iff.mp ends
  obtain ⟨shown, stored⟩ := Prod.mk.inj same
  have whole : Unfailed last.tasks := by
    intro task member error failed
    cases failed.symm.trans (of_decide_eq_true stored task member)
  exact ⟨last, ran, shown, reads_own_writes mayFirst aliceEncrypted ran whole inOrder_saveFirst⟩

/-- The load overtakes the second save. -/
def overtaken : List Event :=
  thereAndBack ++ [.answered 2 2, .opened 2, .published 2 false, .write (.executed 1 3)]

/-- Every save is stored, and the load of a day set twice shows the first text. -/
theorem overtaken_reads_older_text :
    ∃ last, runFrom (step plainPlatform aliceClaims)
        (mounted mayFirst aliceKey aliceEncrypted) overtaken = some last ∧
      (∀ task ∈ last.tasks, task.Stored) ∧ last.persistent.value = some "a" ∧
      ¬ ReadsOwnWrites plainPlatform aliceClaims aliceKey mayFirst aliceEncrypted
        overtaken := by
  have ends : (runFrom (step plainPlatform aliceClaims)
      (mounted mayFirst aliceKey aliceEncrypted) overtaken).map
        (fun last => (last.persistent.value, decide (∀ task ∈ last.tasks, task.Stored))) =
      some (some "a", true) := by
    decide +kernel
  have publishes : (runFrom (step plainPlatform aliceClaims)
      (mounted mayFirst aliceKey aliceEncrypted) (overtaken.take 10)).map
        (fun before => before.publishes? 2 false) = some (some "a") := by
    decide +kernel
  obtain ⟨last, ran, same⟩ := Option.map_eq_some_iff.mp ends
  obtain ⟨shown, stored⟩ := Prod.mk.inj same
  refine ⟨last, ran, of_decide_eq_true stored, shown, fun reads => ?_⟩
  obtain ⟨before, reached, published⟩ := Option.map_eq_some_iff.mp publishes
  have own : (historyOf mayFirst (overtaken.take 10)).Own 2 "a" :=
    reads (overtaken.take 10) 2 false [.write (.executed 1 3)] before "a" rfl reached published
  -- the second set was made before the load began
  have second : (historyOf mayFirst (overtaken.take 10)).BeganAfter 2 mayFirst 1 :=
    ⟨rfl, 2, rfl, by decide⟩
  obtain ⟨set, at_set, latest⟩ := own mayFirst ⟨1, second⟩
  have texts : (historyOf mayFirst (overtaken.take 10)).sets =
      [(mayFirst, "a"), (mayFirst, "ab")] := rfl
  rw [texts] at at_set
  match set, latest 1 second with
  | 1, _ => simp at at_set
  | n + 2, _ => simp at at_set

end TimeTracker.Storage.Loads
