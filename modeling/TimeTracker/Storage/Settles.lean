import TimeTracker.Storage.Hook
import TimeTracker.Tab.Holders
import TimeTracker.Tab.WayOut

/-!
# Probing and loading come to rest

A load that meets a row it cannot read reports it, the report may start a probe,
the probe publishes a state, and a new key re-runs the load.  Nothing else keeps
this going: once the user leaves the tab alone, a bounded number of loads and
probes is all there is, whatever the rows, the server and the keystore answer.
-/

namespace TimeTracker.Storage.Settles

open TimeTracker.Library
open TimeTracker.Library.Run
open TimeTracker.Date (fromYmdOpt)
open TimeTracker.Crypto.Wire
open TimeTracker.Crypto.Subtle
open TimeTracker.Server.Functions
open TimeTracker.Tab.State
open TimeTracker.Tab.System
open TimeTracker.Tab.Rerun
open TimeTracker.Tab.Holders
open TimeTracker.Tab.WayOut
open TimeTracker.Storage.Envelopes
open TimeTracker.Storage.Seam
open TimeTracker.Storage.Hook

/-! ## The day and its reader -/

/-- Which key a read would use, reduced to something that can be compared. -/
inductive KeyIdentity
  | noKey
  | key (n : Nat)
  deriving DecidableEq, Repr

/-- Which identity a state reduces to, given how many keys were published. -/
def identityOf (hasKey : Bool) (keys : Nat) : KeyIdentity :=
  if hasKey then .key keys else .noKey

/-- Which key a read would use now. -/
def keyIdentity {K : Type} (ctx : EncryptionCtx K) : KeyIdentity :=
  identityOf ctx.state.key.isSome ctx.keys

/-- How a backend fails before there is a row to look at. -/
inductive Failure
  | unavailable
  | decode
  | server (message : String)
  deriving DecidableEq, Repr

def Failure.error (key : StorageKey) : Failure → StorageError
  | .unavailable => .unavailable
  | .decode => .decode key.asKey
  | .server message => .server message

/-- A page that shows a day: the identity its load effect last ran for, and
every load the effect has spawned. -/
structure DayTab (K : Type) where
  page : Page K
  persistent : Persistent
  seen : KeyIdentity
  loads : List (LoadTask K)

inductive DayEvent (K : Type)
  /-- Anything the user, a ceremony or another tab does. -/
  | acted (event : TabEvent K)
  | typed (text : String)
  | moved (key : StorageKey) (backend : Backend)
  | statusAnswered (probe : Nat) (answer : Option EncryptionStatus)
  | keystoreRead (probe : Nat) (failed : Bool) (record : Option (Record K))
  | discarded (probe : Nat) (failed : Bool)
  | cameBack (load : Nat) (found : Except Failure (Option String))
  | reran

section DayTabs

variable {K : Type} (platform : Platform K)

/-- What a load makes of what the backend found, with the key it captured. -/
def readFound (task : LoadTask K) :
    Except Failure (Option String) → Except StorageError (Option String)
  | .error failure => .error (failure.error task.key)
  | .ok none => .ok none
  | .ok (some raw) => (readRow platform raw task.session task.key).map some

/-- The row a finished read reports, if it reports one. -/
def reported? : Loaded → Option UnreadableRow
  | .value _ => none
  | .sealed => some .sealed
  | .unopenable => some .unopenable

/-- Whether `reprobe` starts a probe for the row. -/
def reprobes (ctx : EncryptionCtx K) (row : UnreadableRow) : Bool :=
  (contradictedBy row ctx.state).isSome && !(row.latched && ctx.reprobed)

namespace DayTab

/-- The load effect. -/
def load (tab : DayTab K) : DayTab K :=
  let (persistent, task) := tab.persistent.load tab.page.ctx.state
  { tab with
    persistent, seen := keyIdentity tab.page.ctx, loads := tab.loads ++ [task] }

/-- A load that comes back publishes what it read, or reports the row. -/
def cameBack (tab : DayTab K) (place : Nat) (task : LoadTask K)
    (read : Except StorageError (Option String)) : DayTab K :=
  let finished := tab.loads.set place { task with stage := .finished }
  let generation := tab.persistent.generation
  let reprobing := reprobes tab.page.ctx .unopenable
  let shown := LoadTask.publishes? generation reprobing { task with stage := .resolved read }
  let persistent := { tab.persistent with value := shown.or tab.persistent.value }
  match reported? (loadedValue read) with
  | some row =>
      let page := if generation.isCurrent task.token then tab.page.reprobe row else tab.page
      { tab with page, persistent, loads := finished }
  | none => { tab with persistent, loads := finished }

end DayTab

/-- One step of the page, of the server, of the keystore or of another tab. -/
def step (tab : DayTab K) : DayEvent K → Option (DayTab K)
  | .acted event => (Tab.Rerun.step tab.page event).map fun page => { tab with page }
  | .typed text =>
      some { tab with persistent := (tab.persistent.set tab.page.ctx.state text).1 }
  | .moved key backend =>
      some { tab with persistent := { tab.persistent with key, backend } }.load
  | .statusAnswered probe answer =>
      (Tab.System.step tab.page (.statusAnswered probe answer)).map fun page => { tab with page }
  | .keystoreRead probe failed record =>
      (Tab.System.step { tab.page with keystore := record } (.keystoreRead probe failed)).map
        fun page => { tab with page }
  | .discarded probe failed =>
      (Tab.System.step tab.page (.discarded probe failed)).map fun page => { tab with page }
  | .cameBack place found => do
      let task ← tab.loads[place]?
      match task.stage with
      | .requesting => some (tab.cameBack place task (readFound platform task found))
      | _ => none
  | .reran => if keyIdentity tab.page.ctx = tab.seen then none else some tab.load

/-- The steps that are left when nobody does anything. -/
def quiet : DayEvent K → Bool
  | .acted _ | .typed _ | .moved _ _ => false
  | .statusAnswered _ _ | .keystoreRead _ _ _ | .discarded _ _ | .cameBack _ _ | .reran => true

/-- A step of a tab that is left alone. -/
def quietStep (tab : DayTab K) (event : DayEvent K) : Option (DayTab K) :=
  if quiet event then step platform tab event else none

/-- A page load: the probe effect and the load effect have run once. -/
def mounted (user : Option String) (keystore : Option (Record K)) (key : StorageKey)
    (backend : Backend) : DayTab K :=
  DayTab.load
    { page := (Page.initial user keystore).startProbe .unknown
      persistent := { value := none, key, backend, generation := ⟨0⟩ }
      seen := .noKey, loads := [] }

/-! ## What a load can report -/

variable {platform}

theorem loadedValue_server {failure : Failure} {key : StorageKey} :
    loadedValue (.error (failure.error key)) = .value "" := by
  cases failure <;> rfl

/-- A row that does not read is sealed against a session without a key, or would
not open under the key there is, or is no envelope. -/
theorem readRow_error {raw : String} {session : Option (SessionKey K)} {key : StorageKey}
    {error : StorageError} (failed : readRow platform raw session key = .error error) :
    (∃ source, error = .envelope key.asKey source) ∨
      (session = none ∧ error = .locked key.asKey) ∨
      (session.isSome = true ∧ ∃ detail, error = .crypto key.asKey detail) := by
  unfold readRow decideRow at failed
  cases plan : planRead platform.formats raw with
  | error source =>
      simp only [plan, bind, Except.bind] at failed
      exact .inl ⟨source, (Except.error.inj failed).symm⟩
  | ok plan' =>
      cases plan' with
      | plaintext body =>
          simp only [plan, bind, Except.bind, openRow] at failed
          cases failed
      | sealed body =>
          cases session with
          | none =>
              simp only [plan, bind, Except.bind] at failed
              exact .inr (.inl ⟨rfl, (Except.error.inj failed).symm⟩)
          | some session =>
              simp only [plan, bind, Except.bind, openRow] at failed
              cases opened : openBody platform.cipher session.key body with
              | ok text =>
                  rw [opened] at failed
                  cases failed
              | error detail =>
                  rw [opened] at failed
                  exact .inr (.inr ⟨rfl, detail, (Except.error.inj failed).symm⟩)

/-- A load reports a sealed row without a key, and an unopenable one with it. -/
theorem session_of_reported {task : LoadTask K} {found : Except Failure (Option String)}
    {row : UnreadableRow} (reported : reported? (loadedValue (readFound platform task found)) =
      some row) : task.session.isSome = row.latched := by
  unfold readFound at reported
  split at reported
  · rw [loadedValue_server] at reported
    cases reported
  · cases reported
  · next raw =>
      cases read : readRow platform raw task.session task.key with
      | ok text =>
          rw [read] at reported
          cases reported
      | error error =>
          rw [read] at reported
          obtain ⟨source, rfl⟩ | ⟨keyless, rfl⟩ | ⟨keyed, detail, rfl⟩ := readRow_error read
          · cases reported
          · cases reported
            rw [keyless]
            rfl
          · cases reported
            rw [keyed]
            rfl

/-! ## What holds of every tab -/

/-- The load that holds the newest token, if one does, is the only one, and it
has a key just when the effect last ran for one. -/
structure Sound (tab : DayTab K) : Prop where
  holder : OneHolder tab.page
  published : ∀ n, tab.seen = .key n → n ≤ tab.page.ctx.keys
  issued : ∀ task ∈ tab.loads, task.token ≤ tab.persistent.generation.count
  sole : ∀ (place other : Nat) (task task' : LoadTask K), tab.loads[place]? = some task →
    tab.loads[other]? = some task' → task.token = tab.persistent.generation.count →
    task'.token = tab.persistent.generation.count → place = other
  keyed : ∀ task ∈ tab.loads, task.token = tab.persistent.generation.count →
    (task.session.isSome = true ↔ tab.seen ≠ .noKey)

theorem keyIdentity_eq_noKey {ctx : EncryptionCtx K} :
    keyIdentity ctx = .noKey ↔ ctx.state.key = none := by
  unfold keyIdentity identityOf
  cases ctx.state.key <;> simp

namespace Sound

variable {tab : DayTab K}

/-- The page may move on by itself. -/
theorem withPage (sound : Sound tab) {page : Page K} (holder : OneHolder page)
    (onward : Onward tab.page.ctx page.ctx) : Sound { tab with page } :=
  { sound with
    holder
    published := fun n seen => (sound.published n seen).trans onward.keys }

/-- The load effect takes the newest token for the key it reads with. -/
theorem load (sound : Sound tab) : Sound tab.load := by
  have old : ∀ task ∈ tab.loads, task.token ≠ tab.persistent.generation.count + 1 := by
    intro task member
    have issued := sound.issued task member
    omega
  refine ⟨sound.holder, ?_, ?_, ?_, ?_⟩
  · intro n seen
    simp only [DayTab.load, keyIdentity, identityOf] at seen ⊢
    split at seen <;> cases seen
    exact le_rfl
  · intro task member
    obtain earlier | new := List.mem_append.mp member
    · exact Nat.le_succ_of_le (sound.issued task earlier)
    · cases List.mem_singleton.mp new
      exact le_rfl
  · have last : ∀ (place : Nat) (task : LoadTask K), tab.load.loads[place]? = some task →
        task.token = tab.persistent.generation.count + 1 → place = tab.loads.length := by
      intro place task here newest
      by_contra apart
      have inside := (List.getElem?_eq_some_iff.mp here).1
      simp only [DayTab.load, List.length_append, List.length_singleton] at inside
      rw [DayTab.load, List.getElem?_append_left (by omega)] at here
      exact old task (List.mem_of_getElem? here) newest
    exact fun place other task task' here there newest newest' =>
      (last place task here newest).trans (last other task' there newest').symm
  · intro task member newest
    obtain earlier | new := List.mem_append.mp member
    · exact absurd newest (old task earlier)
    · cases List.mem_singleton.mp new
      simp only [DayTab.load, Persistent.load, ne_eq, keyIdentity_eq_noKey]
      exact Option.isSome_iff_ne_none

/-- Typing takes a token that no load holds. -/
theorem typed (sound : Sound tab) (state : EncryptionState K) (text : String) :
    Sound { tab with persistent := (tab.persistent.set state text).1 } := by
  have old : ∀ task ∈ tab.loads, task.token ≠ tab.persistent.generation.count + 1 := by
    intro task member
    have issued := sound.issued task member
    omega
  refine ⟨sound.holder, sound.published, ?_, ?_, ?_⟩
  · exact fun task member => Nat.le_succ_of_le (sound.issued task member)
  · intro place other task task' here _ newest
    exact absurd newest (old task (List.mem_of_getElem? here))
  · exact fun task member newest => absurd newest (old task member)

/-- A load that ends keeps its token. -/
theorem finish (sound : Sound tab) {place : Nat} {task : LoadTask K}
    (found : tab.loads[place]? = some task) (value : Option String) :
    Sound { tab with
      persistent := { tab.persistent with value }
      loads := tab.loads.set place { task with stage := .finished } } := by
  have back : ∀ (other : Nat) (after : LoadTask K),
      (tab.loads.set place { task with stage := .finished })[other]? = some after →
        ∃ before, tab.loads[other]? = some before ∧ before.token = after.token ∧
          before.session = after.session := by
    intro other after here
    by_cases same : other = place
    · subst same
      rw [List.getElem?_set_self (List.getElem?_eq_some_iff.mp found).1] at here
      cases here
      exact ⟨task, found, rfl, rfl⟩
    · rw [List.getElem?_set_ne (Ne.symm same)] at here
      exact ⟨after, here, rfl, rfl⟩
  refine ⟨sound.holder, sound.published, ?_, ?_, ?_⟩
  · intro after member
    obtain ⟨other, here⟩ := List.mem_iff_getElem?.mp member
    obtain ⟨before, there, token, -⟩ := back other after here
    exact token ▸ sound.issued before (List.mem_of_getElem? there)
  · intro first second after after' here there newest newest'
    obtain ⟨before, here, token, -⟩ := back first after here
    obtain ⟨before', there, token', -⟩ := back second after' there
    exact sound.sole first second before before' here there (token.trans newest)
      (token'.trans newest')
  · intro after member newest
    obtain ⟨other, here⟩ := List.mem_iff_getElem?.mp member
    obtain ⟨before, there, token, session⟩ := back other after here
    rw [← session]
    exact sound.keyed before (List.mem_of_getElem? there) (token.trans newest)

theorem cameBack (sound : Sound tab) {place : Nat} {task : LoadTask K}
    (found : tab.loads[place]? = some task) (read : Except StorageError (Option String)) :
    Sound (tab.cameBack place task read) := by
  unfold DayTab.cameBack
  dsimp only
  split
  · next row reported =>
      have ended := sound.finish found
        ((LoadTask.publishes? tab.persistent.generation (reprobes tab.page.ctx .unopenable)
          { task with stage := .resolved read }).or tab.persistent.value)
      split
      · exact ended.withPage sound.holder.reprobe (Onward.reprobe _ _)
      · exact ended
  · exact sound.finish found _

end Sound

theorem sound_mounted (user : Option String) (keystore : Option (Record K)) (key : StorageKey)
    (backend : Backend) : Sound (mounted user keystore key backend) := by
  apply Sound.load
  constructor
  · exact (oneHolder_initial user keystore).startProbe rfl
  · intro n seen
    cases seen
  · exact fun task member => absurd member List.not_mem_nil
  · intro place other task task' here
    cases here
  · exact fun task member => absurd member List.not_mem_nil

theorem step_cameBack_eq_some {tab next : DayTab K} {place : Nat}
    {found : Except Failure (Option String)} :
    step platform tab (.cameBack place found) = some next ↔
      ∃ task, tab.loads[place]? = some task ∧ task.stage = .requesting ∧
        next = tab.cameBack place task (readFound platform task found) := by
  simp only [step, Option.bind_eq_bind, Option.bind_eq_some_iff]
  constructor
  · rintro ⟨task, here, taken⟩
    split at taken
    · next waiting => exact ⟨task, here, waiting, (Option.some.inj taken).symm⟩
    · cases taken
  · rintro ⟨task, here, waiting, rfl⟩
    exact ⟨task, here, by rw [waiting]⟩

theorem sound_step {tab next : DayTab K} {event : DayEvent K} (sound : Sound tab)
    (taken : step platform tab event = some next) : Sound next := by
  cases event with
  | acted event =>
      obtain ⟨page, moved, rfl⟩ := Option.map_eq_some_iff.mp taken
      exact sound.withPage (oneHolder_step sound.holder moved) (onward_step moved)
  | typed text =>
      cases taken
      exact sound.typed _ text
  | moved key backend =>
      cases taken
      have there : Sound { tab with persistent := { tab.persistent with key, backend } } :=
        ⟨sound.holder, sound.published, sound.issued, sound.sole, sound.keyed⟩
      exact there.load
  | statusAnswered probe answer =>
      obtain ⟨page, moved, rfl⟩ := Option.map_eq_some_iff.mp taken
      exact sound.withPage (oneHolder_systemStep sound.holder moved) (onward_systemStep moved)
  | keystoreRead probe failed record =>
      obtain ⟨page, moved, rfl⟩ := Option.map_eq_some_iff.mp taken
      have stored : OneHolder { tab.page with keystore := record } :=
        sound.holder.congr (fun _ => rfl) rfl rfl
      have onward := onward_systemStep moved
      exact sound.withPage (oneHolder_systemStep stored moved) onward
  | discarded probe failed =>
      obtain ⟨page, moved, rfl⟩ := Option.map_eq_some_iff.mp taken
      exact sound.withPage (oneHolder_systemStep sound.holder moved) (onward_systemStep moved)
  | cameBack place found =>
      obtain ⟨task, here, -, rfl⟩ := step_cameBack_eq_some.mp taken
      exact sound.cameBack here _
  | reran =>
      simp only [step] at taken
      split at taken
      · cases taken
      · cases taken
        exact sound.load

/-! ## What is still to come -/

/-- The load is still in flight. -/
def waiting (task : LoadTask K) : Bool :=
  match task.stage with
  | .requesting => true
  | _ => false

/-- The load in flight that may publish has no key. -/
def Blind (tab : DayTab K) : Prop :=
  ∃ task ∈ tab.loads, waiting task = true ∧
    task.token = tab.persistent.generation.count ∧ task.session.isNone = true

instance (tab : DayTab K) : Decidable (Blind tab) :=
  inferInstanceAs (Decidable (∃ task ∈ tab.loads, _))

/-- How many loads and probes the latch, a probe in flight, and the reader can
still lead to. -/
def latchWorth (tab : DayTab K) : Nat :=
  if tab.page.ctx.reprobed then 0 else 5

def probeWorth (tab : DayTab K) : Nat :=
  if CurrentProbe tab.page then 1 else 0

def readerWorth (tab : DayTab K) : Nat :=
  if keyIdentity tab.page.ctx = tab.seen then if Blind tab then 2 else 0
  else if tab.page.ctx.state.key.isSome then 1 else 3

def worth (tab : DayTab K) : Nat :=
  latchWorth tab + probeWorth tab + readerWorth tab

theorem worth_le (tab : DayTab K) : worth tab ≤ 9 := by
  unfold worth latchWorth probeWorth readerWorth
  repeat' split
  all_goals omega

/-- The loads and the tasks that were ever started; a tab left alone starts no task
but probes. -/
def started (tab : DayTab K) : Nat :=
  tab.loads.length + tab.page.tasks.length

/-- The answers a probe in flight still waits for. -/
def left : Stage K → Nat
  | .probing _ _ => 3
  | .restoring _ _ _ => 2
  | .discarding _ => 1
  | _ => 0

def tasksLeft (page : Page K) : Nat :=
  (page.tasks.map fun task => left task.stage).sum

/-- The steps there can still be: the answers that are outstanding, and four for
every load or probe to come. -/
def remaining (tab : DayTab K) : Nat :=
  tasksLeft tab.page + tab.loads.countP waiting + 4 * worth tab

/-! ## A probe moves on -/

theorem sum_map_modify {α : Type} {items : List α} {f : α → Nat} {change : α → α} {i : Nat}
    {item : α} (here : items[i]? = some item) :
    ((items.modify i change).map f).sum + f item = (items.map f).sum + f (change item) := by
  induction items generalizing i with
  | nil => cases here
  | cons first rest ih =>
      cases i with
      | zero =>
          cases here
          simp only [List.modify_zero_cons, List.map_cons, List.sum_cons]
          omega
      | succ i =>
          have later := ih (i := i) (by simpa using here)
          simp only [List.modify_succ_cons, List.map_cons, List.sum_cons]
          omega

theorem tasksLeft_goTo {page : Page K} {index : Nat} {old : Stage K} (stage : Stage K)
    (suspended : page.stage? index = some old) :
    tasksLeft (page.goTo index stage) + left old = tasksLeft page + left stage := by
  obtain ⟨task, found, rfl⟩ := stage?_eq_some.mp suspended
  exact sum_map_modify found

/-- What an answer does to a probe: it waits for the next one under its token, or
publishes if it still may and ends. -/
inductive ProbeMoves (page next : Page K) : Prop
  | on {index token : Nat} {old stage : Stage K} (suspended : page.stage? index = some old)
      (holds : probe? old = some token) (keeps : probe? stage = some token)
      (nearer : left stage < left old) (ctx : next.ctx = page.ctx)
      (tasks : next.tasks = (page.goTo index stage).tasks)
  | concluded {index token : Nat} {old : Stage K} (state : EncryptionState K)
      (suspended : page.stage? index = some old) (holds : probe? old = some token)
      (ctx : next.ctx = page.ctx.publishIf token state)
      (tasks : next.tasks = (page.goTo index .finished).tasks)

theorem probeMoves_statusAnswered {page next : Page K} {probe : Nat}
    {answer : Option EncryptionStatus}
    (taken : Tab.System.step page (.statusAnswered probe answer) = some next) :
    ProbeMoves page next := by
  cases step_eq_some.mp taken with
  | statusAnswered answer suspended =>
      unfold Page.statusAnswered
      dsimp only
      split
      · exact .concluded _ suspended rfl rfl rfl
      · split
        · exact .concluded _ suspended rfl rfl rfl
        · exact .concluded _ suspended rfl rfl rfl
        · exact .on suspended rfl rfl (by simp [left]) rfl rfl

theorem probeMoves_keystoreRead {page next : Page K} {probe : Nat} {failed : Bool}
    (record : Option (Record K))
    (taken : Tab.System.step { page with keystore := record } (.keystoreRead probe failed) =
      some next) : ProbeMoves page next := by
  cases step_eq_some.mp taken with
  | keystoreRead failed suspended =>
      unfold Page.keystoreRead
      dsimp only
      split
      · exact .concluded _ suspended rfl rfl rfl
      · split
        · exact .concluded _ suspended rfl rfl rfl
        · split
          · exact .on suspended rfl rfl (by simp [left]) rfl rfl
          · exact .concluded _ suspended rfl rfl rfl

theorem probeMoves_discarded {page next : Page K} {probe : Nat} {failed : Bool}
    (taken : Tab.System.step page (.discarded probe failed) = some next) :
    ProbeMoves page next := by
  cases step_eq_some.mp taken with
  | discarded failed suspended => exact .concluded _ suspended rfl rfl rfl

section ProbeMoves

variable {tab : DayTab K} {page : Page K}

theorem currentProbe_of_tasks {index : Nat} {old stage : Stage K} {token : Nat}
    (suspended : tab.page.stage? index = some old) (holds : probe? old = some token)
    (keeps : probe? stage = some token ∨ probe? stage = none)
    (ctx : page.ctx.generation = tab.page.ctx.generation)
    (tasks : page.tasks = (tab.page.goTo index stage).tasks) (current : CurrentProbe page) :
    CurrentProbe tab.page := by
  obtain ⟨task, member, newest⟩ := current
  rw [tasks] at member
  rw [ctx] at newest
  obtain ⟨other, found⟩ := List.mem_iff_getElem?.mp member
  obtain ⟨-, same⟩ | ⟨-, before⟩ :=
    stage?_goTo_eq_some (stage?_eq_some.mpr ⟨task, found, rfl⟩)
  · obtain ⟨asked, at_index, rfl⟩ := stage?_eq_some.mp suspended
    refine ⟨asked, List.mem_of_getElem? at_index, ?_⟩
    rw [same] at newest
    obtain kept | silent := keeps
    · rw [holds, ← kept, newest]
    · rw [silent] at newest
      cases newest
  · obtain ⟨earlier, at_other, same⟩ := stage?_eq_some.mp before
    exact ⟨earlier, List.mem_of_getElem? at_other, same ▸ newest⟩

theorem token?_of_probe? {stage : Stage K} {token : Nat} (holds : probe? stage = some token) :
    stage.token? = some token := by
  cases stage <;> first | exact holds | cases holds

theorem left_of_probe? {stage : Stage K} {token : Nat} (holds : probe? stage = some token) :
    1 ≤ left stage := by
  cases stage <;> simp_all [probe?, left]

/-- The worth of a tab when its page has moved on with the same context. -/
theorem worth_le_of_ctx (ctx : page.ctx = tab.page.ctx)
    (current : CurrentProbe page → CurrentProbe tab.page) :
    worth { tab with page } ≤ worth tab := by
  have probes : probeWorth { tab with page } ≤ probeWorth tab := by
    unfold probeWorth
    dsimp only
    split
    · next now => rw [if_pos (current now)]
    · exact Nat.zero_le _
  have latch : latchWorth { tab with page } = latchWorth tab := by
    simp only [latchWorth, ctx]
  have reader : readerWorth { tab with page } = readerWorth tab := by
    unfold readerWorth
    simp only [ctx]
    rfl
  unfold worth
  omega

/-- A probe that moves on waits for less. -/
theorem tasks_probeMoves (moves : ProbeMoves tab.page page) :
    page.tasks.length = tab.page.tasks.length ∧ tasksLeft page + 1 ≤ tasksLeft tab.page := by
  have same : ∀ index (stage : Stage K), page.tasks = (tab.page.goTo index stage).tasks →
      page.tasks.length = tab.page.tasks.length ∧
        tasksLeft page = tasksLeft (tab.page.goTo index stage) := by
    intro index stage tasks
    refine ⟨by simp [tasks, Page.goTo], by rw [tasksLeft, tasks, tasksLeft]⟩
  cases moves with
  | @on index token old stage suspended holds keeps nearer ctx tasks =>
      obtain ⟨length, sum⟩ := same index stage tasks
      have moved := tasksLeft_goTo stage suspended
      exact ⟨length, by rw [sum]; omega⟩
  | @concluded index token old state suspended holds ctx tasks =>
      obtain ⟨length, sum⟩ := same index .finished tasks
      have moved := tasksLeft_goTo .finished suspended
      have asked := left_of_probe? holds
      have ended : left (.finished : Stage K) = 0 := rfl
      exact ⟨length, by rw [sum]; omega⟩

/-- What a probe publishes makes the reader load once more, if it is a key. -/
theorem readerWorth_publish (sound : Sound tab) {state : EncryptionState K}
    (published : page.ctx = tab.page.ctx.publish state)
    (keyless : tab.page.ctx.state.key = none) :
    readerWorth { tab with page } ≤ readerWorth tab + 1 := by
  cases opened : state.key with
  | none =>
      have before : keyIdentity tab.page.ctx = .noKey := keyIdentity_eq_noKey.mpr keyless
      have after : keyIdentity page.ctx = .noKey :=
        keyIdentity_eq_noKey.mpr (by rw [published]; exact opened)
      have silent : page.ctx.state.key = none := by
        rw [published]
        exact opened
      have same : readerWorth { tab with page } = readerWorth tab := by
        unfold readerWorth
        simp only [before, after, silent, keyless]
        rfl
      omega
  | some key =>
      have new : keyIdentity page.ctx = .key (tab.page.ctx.keys + 1) := by
        simp [published, keyIdentity, identityOf, EncryptionCtx.publish, opened]
      have unseen : keyIdentity page.ctx ≠ tab.seen := by
        rw [new]
        intro seen
        have known := sound.published _ seen.symm
        omega
      have keyed : page.ctx.state.key.isSome = true := by
        rw [published]
        exact Option.isSome_iff_exists.mpr ⟨key, opened⟩
      unfold readerWorth
      rw [if_neg unseen, if_pos keyed]
      exact Nat.le_add_left _ _

/-- A probe's answer is worth no more than the probe was. -/
theorem worth_probeMoves (sound : Sound tab) (moves : ProbeMoves tab.page page) :
    worth { tab with page } ≤ worth tab := by
  cases moves with
  | on suspended holds keeps nearer ctx tasks =>
      exact worth_le_of_ctx ctx
        (currentProbe_of_tasks suspended holds (.inl keeps) (by rw [ctx]) tasks)
  | @concluded index token old state suspended holds ctx tasks =>
      by_cases newest : tab.page.ctx.generation.count = token
      · subst newest
        have published : page.ctx = tab.page.ctx.publish state := by
          rw [ctx]
          simp [EncryptionCtx.publishIf, EncryptionCtx.mayPublish]
        have asked : probeWorth tab = 1 := by
          obtain ⟨task, found, rfl⟩ := stage?_eq_some.mp suspended
          exact if_pos ⟨task, List.mem_of_getElem? found, holds⟩
        have answered : probeWorth { tab with page } = 0 := by
          apply if_neg
          rintro ⟨task, member, current⟩
          have free := sound.holder.release suspended (token?_of_probe? holds)
          rw [published] at current
          obtain ⟨other, found⟩ := List.mem_iff_getElem?.mp (tasks ▸ member)
          exact free.free other ⟨task.stage, stage?_eq_some.mpr ⟨task, found, rfl⟩,
            token?_of_probe? current⟩
        have latch : latchWorth { tab with page } = latchWorth tab := by
          simp only [latchWorth, published, EncryptionCtx.publish]
        have keyless : tab.page.ctx.state.key = none :=
          sound.holder.keyless index ⟨old, suspended, token?_of_probe? holds⟩
        have reader := readerWorth_publish sound published keyless
        unfold worth
        omega
      · rw [EncryptionCtx.publishIf_stale _ _ _ newest] at ctx
        exact worth_le_of_ctx ctx
          (currentProbe_of_tasks suspended holds (.inr rfl) (by rw [ctx]) tasks)

end ProbeMoves

/-! ## A load comes back -/

theorem readerWorth_le (tab : DayTab K) : readerWorth tab ≤ 3 := by
  unfold readerWorth
  repeat' split
  all_goals omega

theorem probeWorth_le (tab : DayTab K) : probeWorth tab ≤ 1 := by
  unfold probeWorth
  split <;> omega

/-- A report the context declines to act on changes nothing. -/
theorem reprobe_eq_self {page : Page K} {row : UnreadableRow}
    (declined : reprobes page.ctx row = false) : page.reprobe row = page := by
  unfold reprobes at declined
  unfold Page.reprobe
  split
  · rfl
  · next meanwhile contradicted =>
      rw [contradicted] at declined
      simp only [Option.isSome_some, Bool.true_and, Bool.not_eq_false',
        Bool.and_eq_true] at declined
      have claimed : page.ctx.claimReprobe = (false, page.ctx) := by
        simp [EncryptionCtx.claimReprobe, ← declined.2]
      simp only [declined.1, if_true, claimed, Bool.false_eq_true, if_false]

/-- An ambiguous row starts a probe only while the latch is unspent. -/
theorem reprobes_unopenable {ctx : EncryptionCtx K} (acts : reprobes ctx .unopenable = true) :
    ctx.reprobed = false := by
  cases latch : ctx.reprobed with
  | false => rfl
  | true =>
      rw [reprobes, latch] at acts
      exact absurd (Bool.and_eq_true _ _ ▸ acts).2 (by decide)

/-- A report that is acted on parks the state where no key is, spends the latch if
the row is ambiguous, and starts at most one probe. -/
structure Reprobed (page next : Page K) (row : UnreadableRow) : Prop where
  keyless : next.ctx.state.key = none
  latched : next.ctx.reprobed = (row.latched || page.ctx.reprobed)
  tasks : next.tasks.length ≤ page.tasks.length + 1
  left : tasksLeft next ≤ tasksLeft page + 3

theorem reprobed_startProbe {page before : Page K} {row : UnreadableRow}
    {meanwhile : EncryptionState K} (tasks : before.tasks = page.tasks)
    (latched : before.ctx.reprobed = (row.latched || page.ctx.reprobed))
    (keyless : meanwhile.key = none) : Reprobed page (before.startProbe meanwhile) row := by
  cases shown : before.user with
  | none =>
      rw [startProbe_of_none shown]
      refine ⟨rfl, latched, ?_, ?_⟩
      · simp [tasks]
      · simp [tasksLeft, tasks]
  | some user =>
      rw [startProbe_of_some shown]
      refine ⟨keyless, latched, ?_, ?_⟩
      · simp [Page.spawn, tasks]
      · simp [tasksLeft, Page.spawn, left, tasks]

theorem reprobed_of_reprobes {page : Page K} {row : UnreadableRow}
    (acts : reprobes page.ctx row = true) : Reprobed page (page.reprobe row) row := by
  unfold reprobes at acts
  rw [Bool.and_eq_true] at acts
  obtain ⟨contradicts, unspent⟩ := acts
  obtain ⟨meanwhile, contradicted⟩ := Option.isSome_iff_exists.mp contradicts
  have keyless := key_of_contradictedBy contradicted
  unfold Page.reprobe
  rw [contradicted]
  cases latched : row.latched with
  | false => exact reprobed_startProbe rfl (by rw [latched]; rfl) keyless
  | true =>
      have fresh : page.ctx.reprobed = false := by simpa [latched] using unspent
      have claimed : page.ctx.claimReprobe = (true, { page.ctx with reprobed := true }) := by
        simp [EncryptionCtx.claimReprobe, fresh]
      simp only [claimed, if_true]
      exact reprobed_startProbe rfl (by rw [latched]; rfl) keyless

section CameBack

variable {tab : DayTab K} {place : Nat} {task : LoadTask K}

/-- The tab with the load at its end, and the page as given. -/
def ended (tab : DayTab K) (place : Nat) (task : LoadTask K) (page : Page K)
    (value : Option String) : DayTab K :=
  { tab with
    page
    persistent := { tab.persistent with value }
    loads := tab.loads.set place { task with stage := .finished } }

theorem waiting_ended (found : tab.loads[place]? = some task)
    (waits : task.stage = .requesting) (page : Page K) (value : Option String) :
    (ended tab place task page value).loads.countP waiting + 1 =
      tab.loads.countP waiting := by
  obtain ⟨inside, rfl⟩ := List.getElem?_eq_some_iff.mp found
  have before : waiting tab.loads[place] = true := by rw [waiting, waits]
  have after : waiting { tab.loads[place] with stage := .finished } = false := rfl
  have some_waits := List.countP_pos_iff.mpr ⟨_, List.getElem_mem inside, before⟩
  rw [ended, List.countP_set inside, before, after, if_pos rfl, if_neg nofun]
  omega

theorem blind_of_ended {page : Page K} {value : Option String}
    (blind : Blind (ended tab place task page value)) : Blind tab := by
  obtain ⟨other, member, waits, newest, keyless⟩ := blind
  obtain old | rfl := List.mem_or_eq_of_mem_set member
  · exact ⟨other, old, waits, newest, keyless⟩
  · exact absurd waits Bool.noConfusion

/-- The only load that held the token does not come back twice. -/
theorem not_blind_ended (sound : Sound tab) (found : tab.loads[place]? = some task)
    (newest : task.token = tab.persistent.generation.count) {page : Page K}
    {value : Option String} : ¬ Blind (ended tab place task page value) := by
  rintro ⟨other, member, waits, newest', -⟩
  obtain ⟨index, here⟩ := List.mem_iff_getElem?.mp member
  by_cases same : index = place
  · subst same
    rw [ended, List.getElem?_set_self (List.getElem?_eq_some_iff.mp found).1] at here
    cases here
    exact absurd waits Bool.noConfusion
  · rw [ended, List.getElem?_set_ne (Ne.symm same)] at here
    exact same (sound.sole index place other task here found newest' newest)

/-- A load that starts nothing is worth nothing afterwards. -/
theorem worth_ended_le (tab : DayTab K) (place : Nat) (task : LoadTask K)
    (value : Option String) : worth (ended tab place task tab.page value) ≤ worth tab := by
  have reader : readerWorth (ended tab place task tab.page value) ≤ readerWorth tab := by
    unfold readerWorth
    by_cases seen : keyIdentity tab.page.ctx = tab.seen
    · rw [if_pos (show keyIdentity (ended tab place task tab.page value).page.ctx =
        (ended tab place task tab.page value).seen from seen), if_pos seen]
      split
      · next blind => rw [if_pos (blind_of_ended blind)]
      · exact Nat.zero_le _
    · rw [if_neg (show ¬ keyIdentity (ended tab place task tab.page value).page.ctx =
        (ended tab place task tab.page value).seen from seen), if_neg seen]
      exact le_rfl
  have latch : latchWorth (ended tab place task tab.page value) = latchWorth tab := rfl
  have probes : probeWorth (ended tab place task tab.page value) = probeWorth tab := rfl
  unfold worth
  omega

/-- A report that is acted on pays for the probe it starts: a sealed row with the
load that had no key, an ambiguous one with the latch. -/
theorem worth_ended_lt (sound : Sound tab) {row : UnreadableRow}
    (found : tab.loads[place]? = some task) (waits : task.stage = .requesting)
    (newest : task.token = tab.persistent.generation.count)
    (reported : task.session.isSome = row.latched)
    (acts : reprobes tab.page.ctx row = true) (value : Option String) :
    worth (ended tab place task (tab.page.reprobe row) value) + 1 ≤ worth tab := by
  have reprobed := reprobed_of_reprobes acts
  have member := List.mem_of_getElem? found
  have identity : keyIdentity (tab.page.reprobe row).ctx = .noKey :=
    keyIdentity_eq_noKey.mpr reprobed.keyless
  have probes := probeWorth_le (ended tab place task (tab.page.reprobe row) value)
  have reader := readerWorth_le (ended tab place task (tab.page.reprobe row) value)
  cases row with
  | sealed =>
      have disabled : tab.page.ctx.state = .disabled := by
        unfold reprobes contradictedBy at acts
        split at acts <;> simp_all
      have before : keyIdentity tab.page.ctx = .noKey :=
        keyIdentity_eq_noKey.mpr (by rw [disabled]; rfl)
      have keyless : task.session = none :=
        Option.not_isSome_iff_eq_none.mp (by rw [reported]; decide)
      have seen : tab.seen = .noKey := by
        by_contra other
        have keyed := (sound.keyed task member newest).mpr other
        rw [keyless] at keyed
        cases keyed
      have blind : readerWorth tab = 2 := by
        unfold readerWorth
        rw [if_pos (before.trans seen.symm), if_pos ⟨task, member, by rw [waiting, waits], newest,
          by rw [keyless]; rfl⟩]
      have done : readerWorth (ended tab place task (tab.page.reprobe .sealed) value) = 0 := by
        exact (if_pos (identity.trans seen.symm)).trans
          (if_neg (not_blind_ended sound found newest))
      have latch : latchWorth (ended tab place task (tab.page.reprobe .sealed) value) =
          latchWorth tab := by
        unfold latchWorth
        rw [show (ended tab place task (tab.page.reprobe .sealed) value).page.ctx.reprobed =
          tab.page.ctx.reprobed from reprobed.latched]
      unfold worth
      omega
  | unopenable =>
      have fresh := reprobes_unopenable acts
      have unspent : latchWorth tab = 5 := by
        unfold latchWorth
        rw [fresh]
        rfl
      have spent : latchWorth (ended tab place task (tab.page.reprobe .unopenable) value) = 0 := by
        unfold latchWorth
        exact if_pos reprobed.latched
      unfold worth
      omega

end CameBack

/-! ## Every quiet step -/

variable (platform) in
/-- What a load that comes back does: it ends, and its report starts a probe or
does not. -/
theorem cameBack_cases (tab : DayTab K) (place : Nat) (task : LoadTask K)
    (found : Except Failure (Option String)) :
    ∃ value, tab.cameBack place task (readFound platform task found) =
        ended tab place task tab.page value ∨
      ∃ row, task.token = tab.persistent.generation.count ∧
        task.session.isSome = row.latched ∧ reprobes tab.page.ctx row = true ∧
        tab.cameBack place task (readFound platform task found) =
          ended tab place task (tab.page.reprobe row) value := by
  refine ⟨(LoadTask.publishes? tab.persistent.generation (reprobes tab.page.ctx .unopenable)
    { task with stage := .resolved (readFound platform task found) }).or
      tab.persistent.value, ?_⟩
  unfold DayTab.cameBack
  dsimp only
  split
  · next row reported =>
      by_cases newest : tab.persistent.generation.isCurrent task.token = true
      · rw [if_pos newest]
        cases acts : reprobes tab.page.ctx row with
        | false =>
            rw [reprobe_eq_self acts]
            exact .inl rfl
        | true =>
            exact .inr ⟨row, (Generation.isCurrent_iff.mp newest).symm,
              session_of_reported reported, acts, rfl⟩
      · rw [if_neg newest]
        exact .inl rfl
  · exact .inl rfl

/-- The load effect re-runs for what a new identity was worth. -/
theorem worth_load {tab : DayTab K} (sound : Sound tab)
    (unseen : keyIdentity tab.page.ctx ≠ tab.seen) : worth tab.load + 1 ≤ worth tab := by
  have latch : latchWorth tab.load = latchWorth tab := rfl
  have probes : probeWorth tab.load = probeWorth tab := rfl
  have reader : readerWorth tab.load + 1 ≤ readerWorth tab := by
    have after : readerWorth tab.load = if Blind tab.load then 2 else 0 := if_pos rfl
    have before : readerWorth tab = if tab.page.ctx.state.key.isSome then 1 else 3 :=
      if_neg unseen
    rw [after, before]
    cases key : tab.page.ctx.state.key with
    | none =>
        simp only [Option.isSome_none, Bool.false_eq_true, if_false]
        split <;> omega
    | some held =>
        have sighted : ¬ Blind tab.load := by
          rintro ⟨task, member, -, newest, keyless⟩
          obtain old | new := List.mem_append.mp member
          · have issued := sound.issued task old
            rw [newest] at issued
            exact absurd issued (Nat.not_succ_le_self _)
          · cases List.mem_singleton.mp new
            have keyless' : tab.page.ctx.state.key.isNone = true := keyless
            rw [key] at keyless'
            cases keyless'
        rw [if_neg sighted, Option.isSome_some, if_pos rfl]
  unfold worth
  omega

/-- A quiet step pays for what it starts, and leaves less to come. -/
theorem quietStep_pays {tab next : DayTab K} {event : DayEvent K} (sound : Sound tab)
    (taken : quietStep platform tab event = some next) :
    Sound next ∧ started next + worth next ≤ started tab + worth tab ∧
      remaining next + 1 ≤ remaining tab := by
  unfold quietStep at taken
  split at taken
  · next quietly =>
      refine ⟨sound_step sound taken, ?_⟩
      have probed : ∀ page, ProbeMoves tab.page page →
          started { tab with page } + worth { tab with page } ≤ started tab + worth tab ∧
            remaining { tab with page } + 1 ≤ remaining tab := by
        intro page moves
        have cheaper := worth_probeMoves sound moves
        obtain ⟨same, nearer⟩ := tasks_probeMoves moves
        refine ⟨?_, ?_⟩
        · simp only [started, same]
          omega
        · simp only [remaining]
          omega
      cases event with
      | acted | typed | moved => cases quietly
      | statusAnswered probe answer =>
          obtain ⟨page, moved, rfl⟩ := Option.map_eq_some_iff.mp taken
          exact probed page (probeMoves_statusAnswered moved)
      | keystoreRead probe failed record =>
          obtain ⟨page, moved, rfl⟩ := Option.map_eq_some_iff.mp taken
          exact probed page (probeMoves_keystoreRead record moved)
      | discarded probe failed =>
          obtain ⟨page, moved, rfl⟩ := Option.map_eq_some_iff.mp taken
          exact probed page (probeMoves_discarded moved)
      | cameBack place found =>
          obtain ⟨task, here, waits, rfl⟩ := step_cameBack_eq_some.mp taken
          obtain ⟨value, same | ⟨row, newest, reported, acts, same⟩⟩ :=
            cameBack_cases platform tab place task found
          · rw [same]
            have cheaper := worth_ended_le tab place task value
            have fewer := waiting_ended here waits tab.page value
            refine ⟨?_, ?_⟩
            · simp only [started, ended, List.length_set] at cheaper ⊢
              omega
            · simp only [remaining] at cheaper ⊢
              have tasks : tasksLeft (ended tab place task tab.page value).page =
                  tasksLeft tab.page := rfl
              omega
          · rw [same]
            have cheaper := worth_ended_lt sound here waits newest reported acts value
            have fewer := waiting_ended here waits (tab.page.reprobe row) value
            have reprobed := reprobed_of_reprobes acts
            have tasks := reprobed.tasks
            have left := reprobed.left
            refine ⟨?_, ?_⟩
            · simp only [started, ended, List.length_set] at cheaper ⊢
              omega
            · have same_tasks : tasksLeft (ended tab place task (tab.page.reprobe row) value).page =
                  tasksLeft (tab.page.reprobe row) := rfl
              simp only [remaining] at cheaper ⊢
              omega
      | reran =>
          simp only [step] at taken
          split at taken
          · cases taken
          · next unseen =>
              cases taken
              have cheaper := worth_load sound unseen
              have loads : tab.load.loads.length = tab.loads.length + 1 := by
                simp [DayTab.load]
              have waits : tab.load.loads.countP waiting = tab.loads.countP waiting + 1 := by
                simp [DayTab.load, Persistent.load, waiting]
              have page : tab.load.page = tab.page := rfl
              refine ⟨?_, ?_⟩
              · simp only [started, loads, page]
                omega
              · simp only [remaining, waits, page]
                omega
  · cases taken

/-! ## The latch -/

variable (platform) in
/-- Whether the step starts a probe because of a row that would not open. -/
def ambiguous (tab : DayTab K) : DayEvent K → Bool
  | .cameBack place found =>
      match tab.loads[place]? with
      | some task =>
          waiting task && tab.persistent.generation.isCurrent task.token &&
            decide (loadedValue (readFound platform task found) = .unopenable) &&
            reprobes tab.page.ctx .unopenable
      | none => false
  | .acted (.own (.rowSeen .unopenable)) => reprobes tab.page.ctx .unopenable
  | _ => false

theorem onward_dayStep {tab next : DayTab K} {event : DayEvent K}
    (taken : step platform tab event = some next) : Onward tab.page.ctx next.page.ctx := by
  cases event with
  | acted event =>
      obtain ⟨page, moved, rfl⟩ := Option.map_eq_some_iff.mp taken
      exact onward_step moved
  | typed text =>
      cases taken
      exact Onward.refl _
  | moved key backend =>
      cases taken
      exact Onward.refl _
  | statusAnswered probe answer =>
      obtain ⟨page, moved, rfl⟩ := Option.map_eq_some_iff.mp taken
      exact onward_systemStep moved
  | keystoreRead probe failed record =>
      obtain ⟨page, moved, rfl⟩ := Option.map_eq_some_iff.mp taken
      have onward := onward_systemStep moved
      exact onward
  | discarded probe failed =>
      obtain ⟨page, moved, rfl⟩ := Option.map_eq_some_iff.mp taken
      exact onward_systemStep moved
  | cameBack place found =>
      obtain ⟨task, here, -, rfl⟩ := step_cameBack_eq_some.mp taken
      obtain ⟨value, same | ⟨row, -, -, -, same⟩⟩ := cameBack_cases platform tab place task found
      · rw [same]
        exact Onward.refl _
      · rw [same]
        exact Onward.reprobe _ _
  | reran =>
      simp only [step] at taken
      split at taken
      · cases taken
      · cases taken
        exact Onward.refl _

/-- The latch is what an ambiguous row spends. -/
theorem reprobed_of_ambiguous {tab next : DayTab K} {event : DayEvent K}
    (spends : ambiguous platform tab event = true)
    (taken : step platform tab event = some next) :
    tab.page.ctx.reprobed = false ∧ next.page.ctx.reprobed = true := by
  unfold ambiguous at spends
  split at spends
  · next place found =>
      split at spends
      · next task here =>
          simp only [Bool.and_eq_true, decide_eq_true_eq] at spends
          obtain ⟨⟨⟨-, newest⟩, damaged⟩, acts⟩ := spends
          obtain ⟨task', here', -, rfl⟩ := step_cameBack_eq_some.mp taken
          cases here.symm.trans here'
          refine ⟨reprobes_unopenable acts, ?_⟩
          have reported : reported? (loadedValue (readFound platform task found)) =
              some .unopenable := by
            rw [damaged]
            rfl
          simp only [DayTab.cameBack, reported, newest, if_true]
          exact (reprobed_of_reprobes acts).latched
      · cases spends
  · refine ⟨reprobes_unopenable spends, ?_⟩
    simp only [step] at taken
    obtain ⟨page, moved, rfl⟩ := Option.map_eq_some_iff.mp taken
    cases moved
    exact (reprobed_of_reprobes spends).latched
  · cases spends

theorem latch_pays {tab next : DayTab K} {event : DayEvent K}
    (taken : step platform tab event = some next) :
    (ambiguous platform tab event).toNat + (!next.page.ctx.reprobed).toNat ≤
      (!tab.page.ctx.reprobed).toNat := by
  cases spends : ambiguous platform tab event with
  | true =>
      obtain ⟨before, after⟩ := reprobed_of_ambiguous spends taken
      rw [before, after]
      decide
  | false =>
      have onward := (onward_dayStep taken).reprobed
      cases before : tab.page.ctx.reprobed with
      | true =>
          rw [onward before]
          decide
      | false => cases next.page.ctx.reprobed <;> decide

/-! ## The bound -/

section Bound

variable {user : Option String} {keystore : Option (Record K)} {key : StorageKey}
  {backend : Backend} {tab last : DayTab K} {events : List (DayEvent K)}

theorem step_of_quietStep {next : DayTab K} {event : DayEvent K}
    (taken : quietStep platform tab event = some next) :
    step platform tab event = some next := by
  unfold quietStep at taken
  split at taken
  · exact taken
  · cases taken

/-- What a tab left alone starts. -/
theorem started_le (sound : Sound tab) (alone : runFrom (quietStep platform) tab events =
    some last) : started last ≤ started tab + 9 := by
  have kept := invariant_runFrom
    (I := fun now => Sound now ∧ started now + worth now ≤ started tab + worth tab)
    (fun now event next held taken => by
      obtain ⟨sound, cheaper, -⟩ := quietStep_pays held.1 taken
      exact ⟨sound, cheaper.trans held.2⟩)
    ⟨sound, le_rfl⟩ alone
  have bounded := worth_le tab
  have paid := kept.2
  omega

/-- How long a tab left alone goes on. -/
theorem length_le (sound : Sound tab) (alone : runFrom (quietStep platform) tab events =
    some last) :
    events.length ≤ tasksLeft tab.page + tab.loads.countP waiting + 36 := by
  have pays : ∀ (now : DayTab K) event next, Sound now →
      quietStep platform now event = some next →
        Sound next ∧ 1 + remaining next ≤ remaining now := by
    intro now event next sound taken
    obtain ⟨sound', -, nearer⟩ := quietStep_pays sound taken
    exact ⟨sound', by omega⟩
  have paid := spent_add_le pays sound alone
  rw [spent_one alone] at paid
  have bounded := worth_le tab
  unfold remaining at paid
  omega

variable (platform) in
/-- How many probes a run starts because of a row that would not open. -/
def ambiguousProbes (tab : DayTab K) (events : List (DayEvent K)) : Nat :=
  spent (step platform) (fun tab event => (ambiguous platform tab event).toNat) tab events

theorem ambiguousProbes_le (run : runFrom (step platform) tab events = some last) :
    ambiguousProbes platform tab events ≤ 1 := by
  have pays : ∀ (now : DayTab K) event next, True → step platform now event = some next →
      True ∧ (ambiguous platform now event).toNat + (!next.page.ctx.reprobed).toNat ≤
        (!now.page.ctx.reprobed).toNat :=
    fun now event next _ taken => ⟨trivial, latch_pays taken⟩
  have paid := spent_add_le pays trivial run
  have one := Bool.toNat_le (!tab.page.ctx.reprobed)
  exact (Nat.le_add_right _ _).trans (paid.trans one)

/-- Probing and loading come to rest.  Whatever happened before, from the moment
the tab is left alone at most nine loads and probes are started, there are at most
thirty-six steps more than answers outstanding, and over the whole page load at
most one probe is started by a row that would not open. -/
theorem cycle_settles {past : List (DayEvent K)}
    (run : runFrom (step platform) (mounted user keystore key backend) past = some tab)
    (alone : runFrom (quietStep platform) tab events = some last) :
    started last ≤ started tab + 9 ∧
    events.length ≤ tasksLeft tab.page + tab.loads.countP waiting + 36 ∧
    ambiguousProbes platform (mounted user keystore key backend) (past ++ events) ≤ 1 := by
  have sound : Sound tab :=
    invariant_runFrom (fun _ _ _ => sound_step) (sound_mounted user keystore key backend) run
  have whole : runFrom (step platform) (mounted user keystore key backend) (past ++ events) =
      some last :=
    runFrom_append_eq_some.mpr
      ⟨tab, run, runFrom_of_le (fun _ _ _ taken => step_of_quietStep taken) alone⟩
  exact ⟨started_le sound alone, length_le sound alone, ambiguousProbes_le whole⟩

end Bound

end DayTabs

/-! ## A row of another account -/

/-- Compact JSON, strict base64, and the cipher that keeps the key in the clear. -/
def labelledPlatform : Platform Nat :=
  { formats := { json := Json.compact, base64 := Base64.standard }
    cipher := Aead.labelled }

/-- A row sealed under another key than the device's. -/
def foreignRow : String :=
  encodeV2 labelledPlatform.formats
    (sealBody labelledPlatform.cipher 8 (List.replicate NONCE_LEN 0) "x")

/-- The device's key is found, the day is read with it and would not open, and the
probe that starts is told the session is another account's. -/
def foreignDay : List (DayEvent Nat) :=
  [.statusAnswered 0 (some ⟨"ada", true⟩), .keystoreRead 0 false (some ⟨"ada", 7⟩), .reran,
    .cameBack 1 (.ok (some foreignRow)), .reran, .statusAnswered 1 (some ⟨"eve", true⟩),
    .cameBack 2 (.ok (some foreignRow))]

def adaDay : DayTab Nat :=
  mounted (some "ada") none (.timeEntry ((fromYmdOpt 2026 9 4).get (by decide))) .remote

theorem cycle_settles_foreignDay :
    ∃ last, runFrom (quietStep labelledPlatform) adaDay foreignDay = some last ∧
      started last ≤ started adaDay + 9 := by
  have runs : (runFrom (quietStep labelledPlatform) adaDay foreignDay).isSome = true := by
    decide +kernel
  obtain ⟨last, alone⟩ := Option.isSome_iff_exists.mp runs
  have run : runFrom (step labelledPlatform) adaDay [] = some adaDay := rfl
  exact ⟨last, alone, (cycle_settles run alone).1⟩

end TimeTracker.Storage.Settles
