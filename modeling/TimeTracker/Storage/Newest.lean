import TimeTracker.Storage.Hook

/-!
# The newest operation decides what a day shows

A day on the page is set by keystrokes and blanked and read again whenever its
key, its backend or the identity of the session's key changes.  The loads in
flight resolve in any order and with any outcome; what is shown at the end is
what the newest of all these operations says.
-/

namespace TimeTracker.Storage.Newest

open TimeTracker.Library.Run
open TimeTracker.Tab.State
open TimeTracker.Storage.Seam
open TimeTracker.Storage.Hook

/-! ## The page -/

/-- A day on the page, and every load that was spawned for it. -/
structure Page (K : Type) where
  persistent : Persistent
  loads : List (LoadTask K)

inductive Event (K : Type)
  | set (session : EncryptionState K) (text : String)
  | restarted (key : StorageKey) (backend : Backend) (session : EncryptionState K)
  | resolved (load : Nat) (read : Except StorageError (Option String)) (reprobing : Bool)

section Pages

variable {K : Type}

/-- The load comes back with this read, and publishes it if it still may. -/
def Page.resolve (page : Page K) (load : Nat) (task : LoadTask K)
    (read : Except StorageError (Option String)) (reprobing : Bool) : Page K :=
  let shown := LoadTask.publishes? page.persistent.generation reprobing
    { task with stage := .resolved read }
  { persistent := { page.persistent with value := shown.or page.persistent.value }
    loads := page.loads.set load { task with stage := .finished } }

/-- One keystroke, one run of the load effect, or one load that comes back. -/
def step (page : Page K) : Event K → Option (Page K)
  | .set session text =>
      some { page with persistent := (page.persistent.set session text).1 }
  | .restarted key backend session =>
      let (persistent, task) := { page.persistent with key, backend }.load session
      some { persistent, loads := page.loads ++ [task] }
  | .resolved load read reprobing => do
      let task ← page.loads[load]?
      match task.stage with
      | .requesting => some (page.resolve load task read reprobing)
      | _ => none

/-- The page before its first load. -/
def mounted (key : StorageKey) (backend : Backend) : Page K :=
  { persistent := { value := none, key, backend, generation := ⟨0⟩ }, loads := [] }

theorem step_resolved_eq_some {page next : Page K} {load : Nat}
    {read : Except StorageError (Option String)} {reprobing : Bool} :
    step page (.resolved load read reprobing) = some next ↔
      ∃ task, page.loads[load]? = some task ∧ task.stage = .requesting ∧
        next = page.resolve load task read reprobing := by
  simp only [step, Option.bind_eq_bind, Option.bind_eq_some_iff]
  constructor
  · rintro ⟨task, found, taken⟩
    split at taken
    · next waiting => exact ⟨task, found, waiting, (Option.some.inj taken).symm⟩
    · cases taken
  · rintro ⟨task, found, waiting, rfl⟩
    exact ⟨task, found, by rw [waiting]⟩

end Pages

/-! ## What the events say -/

/-- An operation on the day: a text set, or a load by its place. -/
inductive Operation
  | set (text : String)
  | load (place : Nat)
  deriving DecidableEq, Repr

/-- How many loads have begun, which operation is the newest, and which loads
have come back with what. -/
structure History where
  loads : Nat
  newest : Option Operation
  resolved : List (Nat × Except StorageError (Option String) × Bool)

def History.after {K : Type} (history : History) : Event K → History
  | .set _ text => { history with newest := some (.set text) }
  | .restarted _ _ _ =>
      { history with loads := history.loads + 1, newest := some (.load history.loads) }
  | .resolved load read reprobing =>
      { history with resolved := history.resolved ++ [(load, read, reprobing)] }

def historyOf {K : Type} (events : List (Event K)) : History :=
  events.foldl History.after { loads := 0, newest := none, resolved := [] }

/-- What a read leaves on screen when nothing newer has begun. -/
def shows (read : Except StorageError (Option String)) (reprobing : Bool) : Option String :=
  match loadedValue read with
  | .value text => some text
  | .sealed => none
  | .unopenable => if reprobing then none else some ""

section Runs

variable {K : Type}

theorem historyOf_append (past : List (Event K)) (event : Event K) :
    historyOf (past ++ [event]) = (historyOf past).after event := by
  rw [historyOf, List.foldl_append]
  rfl

/-- A load may publish just when it is the newest operation. -/
theorem publishes?_eq (generation : Generation) (reprobing : Bool) (task : LoadTask K)
    (read : Except StorageError (Option String)) :
    LoadTask.publishes? generation reprobing { task with stage := .resolved read } =
      if generation.count = task.token then shows read reprobing else none := by
  simp only [LoadTask.publishes?, Generation.isCurrent_iff]
  rfl

/-- How the page stands to the operations so far. -/
structure Follows (history : History) (page : Page K) : Prop where
  count : page.loads.length = history.loads
  /-- No token was issued ahead of the counter. -/
  issued : ∀ task ∈ page.loads, task.token ≤ page.persistent.generation.count
  /-- Only the newest operation, when it is a load, holds the current token. -/
  current : ∀ (place : Nat) (task : LoadTask K), page.loads[place]? = some task →
    (page.persistent.generation.count = task.token ↔ history.newest = some (.load place))
  finished : ∀ (place : Nat) read reprobing, (place, read, reprobing) ∈ history.resolved →
    ∃ task, page.loads[place]? = some task ∧ task.stage = .finished
  /-- A newest load that is still in flight has left the day blank. -/
  blank : ∀ (place : Nat) (task : LoadTask K), history.newest = some (.load place) →
    page.loads[place]? = some task → task.stage = .requesting → page.persistent.value = none
  set : ∀ text, history.newest = some (.set text) → page.persistent.value = some text
  loaded : ∀ (place : Nat) read reprobing, history.newest = some (.load place) →
    (place, read, reprobing) ∈ history.resolved →
    page.persistent.value = shows read reprobing

variable {history : History} {page next : Page K}

theorem follows_mounted (key : StorageKey) (backend : Backend) :
    Follows (historyOf ([] : List (Event K))) (mounted key backend : Page K) := by
  constructor <;> simp [mounted, historyOf]

/-- A set is the newest operation, and no load holds its token. -/
theorem Follows.set_step (follows : Follows history page) (session : EncryptionState K)
    (text : String) :
    Follows (history.after (.set session text : Event K))
      { page with persistent := (page.persistent.set session text).1 } where
  count := follows.count
  issued task member := Nat.le_succ_of_le (follows.issued task member)
  current place task found := by
    have old := follows.issued task (List.mem_of_getElem? found)
    simp only [Persistent.set, Generation.count_next, History.after, Option.some.injEq,
      reduceCtorEq, iff_false]
    omega
  finished := follows.finished
  blank _ _ newest := by cases newest
  set other newest := by
    cases newest
    rfl
  loaded _ _ _ newest := by cases newest

/-- A load that begins blanks the day and takes the token nothing else holds. -/
theorem Follows.restarted_step (follows : Follows history page) (key : StorageKey)
    (backend : Backend) (session : EncryptionState K) :
    let begun := { page.persistent with key, backend }.load session
    Follows (history.after (.restarted key backend session : Event K))
      { persistent := begun.1, loads := page.loads ++ [begun.2] } := by
  have place_lt : ∀ (place : Nat) (task : LoadTask K), page.loads[place]? = some task →
      place < history.loads := by
    intro place task found
    rw [← follows.count]
    exact (List.getElem?_eq_some_iff.mp found).1
  constructor
  · simp [History.after, follows.count]
  · intro task member
    obtain old | new := List.mem_append.mp member
    · exact Nat.le_succ_of_le (follows.issued task old)
    · cases List.mem_singleton.mp new
      exact le_rfl
  · intro place task found
    by_cases old : place < page.loads.length
    · rw [List.getElem?_append_left old] at found
      have issued := follows.issued task (List.mem_of_getElem? found)
      have earlier := place_lt place task found
      simp only [Persistent.load, Generation.count_next, History.after, Option.some.injEq,
        Operation.load.injEq]
      omega
    · have last : place = page.loads.length := by
        have inside := (List.getElem?_eq_some_iff.mp found).1
        rw [List.length_append, List.length_singleton] at inside
        omega
      rw [last, List.getElem?_concat_length] at found
      cases found
      simp [Persistent.load, History.after, last, follows.count]
  · intro place read reprobing member
    obtain ⟨task, found, stage⟩ := follows.finished place read reprobing member
    refine ⟨task, ?_, stage⟩
    rw [List.getElem?_append_left (List.getElem?_eq_some_iff.mp found).1, found]
  · intro place task _ _ _
    rfl
  · intro text newest
    cases newest
  · intro place read reprobing newest member
    cases newest
    obtain ⟨task, found, -⟩ := follows.finished _ read reprobing member
    exact absurd (place_lt _ task found) (lt_irrefl _)

/-- A load that comes back after something newer has begun changes nothing shown. -/
theorem Follows.resolve_stale (follows : Follows history page) {load : Nat}
    {task : LoadTask K} (found : page.loads[load]? = some task)
    (newer : history.newest ≠ some (.load load))
    (read : Except StorageError (Option String)) (reprobing : Bool) :
    (page.resolve load task read reprobing).persistent = page.persistent := by
  have stale := (not_congr (follows.current load task found)).mpr newer
  simp only [Page.resolve, publishes?_eq, if_neg stale, Option.none_or]

/-- The newest load, come back, leaves the day showing what it read. -/
theorem Follows.resolve_newest (follows : Follows history page) {load : Nat}
    {task : LoadTask K} (found : page.loads[load]? = some task)
    (waits : task.stage = .requesting) (newest : history.newest = some (.load load))
    (read : Except StorageError (Option String)) (reprobing : Bool) :
    (page.resolve load task read reprobing).persistent =
      { page.persistent with value := shows read reprobing } := by
  have current := (follows.current load task found).mpr newest
  have blank := follows.blank load task newest found waits
  simp only [Page.resolve, publishes?_eq, if_pos current, blank, Option.or_none]

theorem Follows.resolved_step (follows : Follows history page) {load : Nat}
    {task : LoadTask K} (found : page.loads[load]? = some task)
    (waits : task.stage = .requesting) (read : Except StorageError (Option String))
    (reprobing : Bool) :
    Follows (history.after (.resolved load read reprobing : Event K))
      (page.resolve load task read reprobing) := by
  have generation : (page.resolve load task read reprobing).persistent.generation =
      page.persistent.generation := rfl
  have bound := (List.getElem?_eq_some_iff.mp found).1
  -- A load of the page is the one that came back, or it is as it was.
  have cases_loads : ∀ (place : Nat) (other : LoadTask K),
      (page.resolve load task read reprobing).loads[place]? = some other →
        place = load ∧ other = { task with stage := .finished } ∨
          place ≠ load ∧ page.loads[place]? = some other := by
    intro place other here
    by_cases same : place = load
    · subst same
      rw [Page.resolve, List.getElem?_set_self bound] at here
      exact .inl ⟨rfl, (Option.some.inj here).symm⟩
    · rw [Page.resolve, List.getElem?_set_ne (Ne.symm same)] at here
      exact .inr ⟨same, here⟩
  constructor
  · simp [Page.resolve, History.after, follows.count]
  · intro other member
    obtain ⟨place, here⟩ := List.mem_iff_getElem?.mp member
    obtain ⟨-, rfl⟩ | ⟨-, old⟩ := cases_loads place other here
    · exact follows.issued task (List.mem_of_getElem? found)
    · exact follows.issued other (List.mem_of_getElem? old)
  · intro place other here
    rw [generation]
    obtain ⟨rfl, rfl⟩ | ⟨-, old⟩ := cases_loads place other here
    · exact follows.current place task found
    · exact follows.current place other old
  · intro place read' reprobing' member
    by_cases same : place = load
    · subst same
      exact ⟨_, List.getElem?_set_self bound, rfl⟩
    · obtain old | new := List.mem_append.mp member
      · obtain ⟨other, here, stage⟩ := follows.finished place read' reprobing' old
        exact ⟨other, (List.getElem?_set_ne (Ne.symm same)).trans here, stage⟩
      · cases List.mem_singleton.mp new
        exact absurd rfl same
  · intro place other newest here waiting
    obtain ⟨-, rfl⟩ | ⟨apart, old⟩ := cases_loads place other here
    · cases waiting
    · rw [follows.resolve_stale found]
      · exact follows.blank place other newest old waiting
      · intro now
        cases newest.symm.trans now
        exact apart rfl
  · intro text newest
    rw [follows.resolve_stale found]
    · exact follows.set text newest
    · intro now
      cases newest.symm.trans now
  · intro place read' reprobing' newest member
    obtain old | new := List.mem_append.mp member
    · rw [follows.resolve_stale found]
      · exact follows.loaded place read' reprobing' newest old
      · intro now
        cases newest.symm.trans now
        obtain ⟨other, here, stage⟩ := follows.finished load read' reprobing' old
        cases found.symm.trans here
        exact absurd (waits.symm.trans stage) nofun
    · cases List.mem_singleton.mp new
      rw [follows.resolve_newest found waits newest]

theorem follows_step {event : Event K} (follows : Follows history page)
    (taken : step page event = some next) : Follows (history.after event) next := by
  cases event with
  | set session text =>
      cases taken
      exact follows.set_step session text
  | restarted key backend session =>
      cases taken
      exact follows.restarted_step key backend session
  | resolved load read reprobing =>
      obtain ⟨task, found, waits, rfl⟩ := step_resolved_eq_some.mp taken
      exact follows.resolved_step found waits read reprobing

theorem follows_run {key : StorageKey} {backend : Backend} {events : List (Event K)}
    (run : runFrom step (mounted key backend) events = some page) :
    Follows (historyOf events) page := by
  have kept := history_runFrom (I := fun past page => Follows (historyOf past) page)
    (fun past state event next follows taken => by
      rw [historyOf_append]
      exact follows_step follows taken)
    (follows_mounted key backend) run
  simpa using kept

/-- A stale load never wins.  After any run: if the newest operation is a set,
its text is shown; if it is a load, what that load read is shown once it has come
back, and nothing before; and a load that is not the newest operation changes
nothing shown when it comes back. -/
theorem newest_operation_wins {key : StorageKey} {backend : Backend}
    {events : List (Event K)}
    (run : runFrom step (mounted key backend) events = some page) :
    (∀ text, (historyOf events).newest = some (.set text) →
      page.persistent.value = some text) ∧
    (∀ load read reprobing, (historyOf events).newest = some (.load load) →
      (load, read, reprobing) ∈ (historyOf events).resolved →
      page.persistent.value = shows read reprobing) ∧
    (∀ (load : Nat) task, (historyOf events).newest = some (.load load) →
      page.loads[load]? = some task → task.stage = .requesting →
      page.persistent.value = none) ∧
    (∀ load read reprobing next, step page (.resolved load read reprobing) = some next →
      (historyOf events).newest ≠ some (.load load) →
      next.persistent = page.persistent) := by
  have follows := follows_run run
  refine ⟨follows.set, follows.loaded, follows.blank, ?_⟩
  intro load read reprobing next taken newer
  obtain ⟨task, found, -, rfl⟩ := step_resolved_eq_some.mp taken
  exact follows.resolve_stale found newer read reprobing

/-- Two loads and a keystroke between them; the first load comes back last. -/
def overlapping (day : StorageKey) : List (Event K) :=
  [.restarted day .localStorage .disabled, .set .disabled "typed",
    .restarted day .remote .disabled, .resolved 1 (.ok (some "stored")) false,
    .resolved 0 (.ok (some "stale")) false]

/-- The newest load's text is the one shown after them. -/
theorem newest_operation_wins_overlapping :
    let day := StorageKey.timeEntry ⟨2026, 9, 4, by decide, by decide, by decide⟩
    ∃ page : Page Unit,
      runFrom step (mounted day .localStorage) (overlapping day) = some page ∧
        page.persistent.value = some "stored" := by
  intro day
  have run : runFrom step (mounted day .localStorage : Page Unit) (overlapping day) =
      some _ := rfl
  exact ⟨_, run, (newest_operation_wins run).2.1 1 (.ok (some "stored")) false rfl
    (List.mem_cons_self ..)⟩

end Runs

end TimeTracker.Storage.Newest
