import TimeTracker.Tab.System

/-!
# A forgotten key and the keystore's one record

Every request to forget the device's key raises the forget count before its
delete is issued.  From then on a ceremony begun earlier can no longer issue a
put; what may still commit is a put it had already issued, and that is undone
only by a delete that commits later.
-/

namespace TimeTracker.Tab.Forget

open TimeTracker.Library.Run
open TimeTracker.Server.Functions
open TimeTracker.Tab.State
open TimeTracker.Tab.System
open TimeTracker.Tab.System.Page

section Forgotten

variable {K : Type}

/-- A delete was issued and has not committed. -/
def Stage.deletes : Stage K → Bool
  | .forgetting _ | .discarding _ => true
  | _ => false

/-- A ceremony is inside `remember`, its put in flight or settled. -/
def Stage.remembers : Stage K → Bool
  | .remembering _ _ _ => true
  | _ => false

/-- Some task is at a stage of this kind. -/
def Pending (page : Page K) (kind : Stage K → Bool) : Prop :=
  ∃ task ∈ page.tasks, kind task.stage = true

/-- The event starts an unlock ceremony. -/
def beginsCeremony : Event K → Bool
  | .beginCeremony _ => true
  | _ => false

/-- The event is a keystore operation failing. -/
def storageFails : Event K → Bool
  | .putFailed _ | .deleteFailed _ => true
  | .keystoreRead _ failed | .discarded _ failed => failed
  | _ => false

/-- A ceremony that was told to forget while it was inside `remember`, and
finds its account still signed in, leaves no record for good: there is none, or
a delete is still to commit, or another ceremony is still to look. -/
def LeavesNoRecord (page : Page K) (event : Event K) : Prop :=
  ∀ index token key, event = .resumeUnlock index →
    page.stage? index = some (.remembering token key .settled) →
    page.stillCurrent key.forgets = false →
    page.isCurrentAccount key = true →
    page.keystore = none ∨ Pending page Stage.deletes ∨
      ∃ other task, other ≠ index ∧ page.tasks[other]? = some task ∧
        Stage.remembers task.stage = true

/-! ## Captured counts -/

/-- Every count a ceremony captured and still carries is below `count`. -/
def CapturedBelow (page : Page K) (count : Forgets) : Prop :=
  Carried page Stage.forgets? fun _ forgets => forgets < count

namespace CapturedBelow

variable {page : Page K} {count : Forgets}

theorem of_le {later : Page K} {above : Forgets} (held : CapturedBelow page count)
    (tasks : later.tasks = page.tasks) (le : count ≤ above) :
    CapturedBelow later above := by
  refine Carried.mono held tasks ?_
  intro outranked forgets below
  exact Nat.lt_of_lt_of_le below le

theorem same {later : Page K} (held : CapturedBelow page count)
    (tasks : later.tasks = page.tasks) : CapturedBelow later count :=
  held.of_le tasks (Nat.le_refl _)

theorem spawn {stage : Stage K} (held : CapturedBelow page count)
    (new : ∀ forgets, stage.forgets? = some forgets → forgets < count) :
    CapturedBelow (page.spawn stage) count :=
  Carried.spawn held new

theorem outrank {later : Page K} (held : CapturedBelow page count)
    (tasks : later.tasks = page.outrank.tasks) : CapturedBelow later count := by
  refine Carried.outrank held tasks ?_
  exact fun outranked forgets below => below

theorem keep {index : Nat} {stage old : Stage K} (held : CapturedBelow page count)
    (suspended : page.stage? index = some old)
    (kept : stage.forgets? = old.forgets?) :
    CapturedBelow (page.goTo index stage) count := by
  refine Carried.keep held suspended ?_
  rw [kept]
  exact fun _ carried => carried

theorem drop {index : Nat} {stage : Stage K} (held : CapturedBelow page count)
    (dropped : stage.forgets? = none) :
    CapturedBelow (page.goTo index stage) count :=
  Carried.drop held dropped

theorem startProbe {meanwhile : EncryptionState K}
    (held : CapturedBelow page count) :
    CapturedBelow (page.startProbe meanwhile) count := by
  unfold Page.startProbe
  split
  · exact held.same rfl
  · exact spawn (held.same rfl) (by simp [Stage.forgets?])

theorem reprobe {row : UnreadableRow} (held : CapturedBelow page count) :
    CapturedBelow (page.reprobe row) count := by
  unfold Page.reprobe
  have claimed : CapturedBelow { page with ctx := page.ctx.claimReprobe.2 } count :=
    held.same rfl
  split
  · exact held
  · split
    · dsimp only
      split
      · exact claimed.startProbe
      · exact claimed
    · exact held.startProbe

theorem statusAnswered {index token : Nat} {user : String}
    {answer : Option EncryptionStatus} (held : CapturedBelow page count) :
    CapturedBelow (page.statusAnswered index user token answer) count := by
  have concluded : ∀ state, CapturedBelow
      ({ page with ctx := page.ctx.publishIf token state }.goTo index .finished)
      count :=
    fun state => drop (held.same rfl) rfl
  unfold Page.statusAnswered
  dsimp only
  split
  · exact concluded .unreachable
  · split
    · exact concluded .unreachable
    · exact concluded .disabled
    · exact held.drop rfl

theorem keystoreRead {index token : Nat} {user : String} {forgets : Forgets}
    {failed : Bool} (held : CapturedBelow page count) :
    CapturedBelow (page.keystoreRead index user token forgets failed) count := by
  have concluded : ∀ state, CapturedBelow
      ({ page with ctx := page.ctx.publishIf token state }.goTo index .finished)
      count :=
    fun state => drop (held.same rfl) rfl
  unfold Page.keystoreRead
  dsimp only
  split
  · exact concluded .locked
  · split
    · exact concluded .locked
    · split
      · exact held.drop rfl
      · exact concluded _

theorem afterRemember {index token : Nat} {key : SessionKey K}
    (held : CapturedBelow page count) :
    CapturedBelow (page.afterRemember index token key) count := by
  unfold Page.afterRemember
  split
  · exact drop (held.same rfl) rfl
  · split
    · exact held.drop rfl
    · exact drop (held.same rfl) rfl

theorem enterUnlock {index : Nat} {key : SessionKey K}
    (held : CapturedBelow page count)
    (suspended : page.stage? index = some (.holding key)) :
    CapturedBelow (page.enterUnlock index key) count := by
  unfold Page.enterUnlock
  have entered : CapturedBelow
      { page with ctx := page.ctx.beginProbe.publish .locked } count :=
    held.same rfl
  split
  · exact held.drop rfl
  · dsimp only
    split
    · exact entered.keep suspended rfl
    · exact entered.afterRemember

end CapturedBelow

/-- Only a ceremony that begins captures a count. -/
theorem capturedBelow_step {page next : Page K} {event : Event K} {count : Forgets}
    (held : CapturedBelow page count)
    (begins : beginsCeremony event = true → page.forgets < count)
    (taken : step page event = some next) : CapturedBelow next count := by
  cases step_eq_some.mp taken with
  | userChanged user => exact held.same rfl
  | startProbe => exact held.startProbe
  | rowSeen row => exact held.reprobe
  | statusAnswered answer suspended => exact held.statusAnswered
  | keystoreRead failed suspended => exact held.keystoreRead
  | discarded failed suspended => exact CapturedBelow.drop (held.same rfl) rfl
  | beginCeremony user =>
      apply held.spawn
      intro forgets captured
      cases captured
      exact begins rfl
  | keyOpened key suspended => exact held.keep suspended rfl
  | ceremonyFailed suspended => exact held.drop rfl
  | enterUnlock suspended => exact held.enterUnlock suspended
  | putCommitted suspended =>
      exact CapturedBelow.keep (held.same rfl) suspended rfl
  | putFailed suspended => exact held.keep suspended rfl
  | resumeUnlock suspended => exact held.afterRemember
  | lock => exact CapturedBelow.spawn (held.outrank rfl) (by simp [Stage.forgets?])
  | signingOut =>
      exact CapturedBelow.spawn (held.outrank rfl) (by simp [Stage.forgets?])
  | forget suspended => exact CapturedBelow.drop (held.same rfl) rfl
  | deleteCommitted suspended =>
      apply CapturedBelow.drop (held.same rfl)
      split <;> rfl
  | deleteFailed suspended =>
      apply held.drop
      split <;> rfl
  | sessionEnded accepted suspended => exact CapturedBelow.drop (held.same rfl) rfl

/-! ## Pending deletes and ceremonies still to look -/

namespace Pending

variable {page : Page K} {kind : Stage K → Bool}

theorem of_tasks {later : Page K} (pending : Pending page kind)
    (tasks : later.tasks = page.tasks) : Pending later kind := by
  obtain ⟨task, member, at_kind⟩ := pending
  exact ⟨task, tasks ▸ member, at_kind⟩

theorem outrank {later : Page K} (pending : Pending page kind)
    (tasks : later.tasks = page.outrank.tasks) : Pending later kind := by
  obtain ⟨task, member, at_kind⟩ := pending
  refine ⟨{ task with outranked := true }, ?_, at_kind⟩
  rw [tasks]
  exact mem_outrank.mpr ⟨task, member, rfl⟩

theorem spawn {stage : Stage K} (pending : Pending page kind) :
    Pending (page.spawn stage) kind := by
  obtain ⟨task, member, at_kind⟩ := pending
  exact ⟨task, List.mem_append_left _ member, at_kind⟩

theorem spawned {stage : Stage K} (at_kind : kind stage = true) :
    Pending (page.spawn stage) kind :=
  ⟨_, List.mem_append_right _ (List.mem_singleton.mpr rfl), at_kind⟩

/-- The task moved is pending when its new stage is. -/
theorem moved {index : Nat} {stage old : Stage K}
    (suspended : page.stage? index = some old) (at_kind : kind stage = true) :
    Pending (page.goTo index stage) kind := by
  obtain ⟨task, found, -⟩ := stage?_eq_some.mp suspended
  exact ⟨_, mem_goTo found, at_kind⟩

theorem goTo {index : Nat} {stage old : Stage K} (pending : Pending page kind)
    (suspended : page.stage? index = some old)
    (kept : kind old = true → kind stage = true) :
    Pending (page.goTo index stage) kind := by
  obtain ⟨task, member, at_kind⟩ := pending
  obtain ⟨resumed, found, rfl⟩ := stage?_eq_some.mp suspended
  by_cases same : task = resumed
  · subst same
    exact moved suspended (kept at_kind)
  · exact ⟨task, mem_goTo_of_ne found member same, at_kind⟩

end Pending

/-- A record on the device is about to be deleted, or some ceremony has still
to look whether it may stay. -/
def RecordWatched (page : Page K) : Prop :=
  page.keystore = none ∨ Pending page Stage.deletes ∨ Pending page Stage.remembers

namespace RecordWatched

variable {page : Page K}

theorem same {later : Page K} (held : RecordWatched page)
    (keystore : later.keystore = page.keystore) (tasks : later.tasks = page.tasks) :
    RecordWatched later := by
  obtain none | pending | pending := held
  · exact Or.inl (keystore.trans none)
  · exact Or.inr (Or.inl (pending.of_tasks tasks))
  · exact Or.inr (Or.inr (pending.of_tasks tasks))

theorem spawn {stage : Stage K} (held : RecordWatched page) :
    RecordWatched (page.spawn stage) := by
  obtain none | pending | pending := held
  · exact Or.inl none
  · exact Or.inr (Or.inl pending.spawn)
  · exact Or.inr (Or.inr pending.spawn)

theorem outrank {later : Page K} (held : RecordWatched page)
    (keystore : later.keystore = page.keystore)
    (tasks : later.tasks = page.outrank.tasks) : RecordWatched later := by
  obtain none | pending | pending := held
  · exact Or.inl (keystore.trans none)
  · exact Or.inr (Or.inl (pending.outrank tasks))
  · exact Or.inr (Or.inr (pending.outrank tasks))

theorem goTo {index : Nat} {stage old : Stage K} (held : RecordWatched page)
    (suspended : page.stage? index = some old)
    (deletes : Stage.deletes old = true → Stage.deletes stage = true)
    (remembers : Stage.remembers old = true → Stage.remembers stage = true) :
    RecordWatched (page.goTo index stage) := by
  obtain none | pending | pending := held
  · exact Or.inl none
  · exact Or.inr (Or.inl (pending.goTo suspended deletes))
  · exact Or.inr (Or.inr (pending.goTo suspended remembers))

theorem startProbe {meanwhile : EncryptionState K} (held : RecordWatched page) :
    RecordWatched (page.startProbe meanwhile) := by
  unfold Page.startProbe
  split
  · exact held.same rfl rfl
  · exact spawn (held.same rfl rfl)

theorem reprobe {row : UnreadableRow} (held : RecordWatched page) :
    RecordWatched (page.reprobe row) := by
  unfold Page.reprobe
  have claimed : RecordWatched { page with ctx := page.ctx.claimReprobe.2 } :=
    held.same rfl rfl
  split
  · exact held
  · split
    · dsimp only
      split
      · exact claimed.startProbe
      · exact claimed
    · exact held.startProbe

theorem statusAnswered {index token : Nat} {user : String}
    {answer : Option EncryptionStatus} (held : RecordWatched page)
    (suspended : page.stage? index = some (.probing user token)) :
    RecordWatched (page.statusAnswered index user token answer) := by
  have concluded : ∀ state, RecordWatched
      ({ page with ctx := page.ctx.publishIf token state }.goTo index .finished) :=
    fun state => goTo (held.same rfl rfl) suspended nofun nofun
  unfold Page.statusAnswered
  dsimp only
  split
  · exact concluded .unreachable
  · split
    · exact concluded .unreachable
    · exact concluded .disabled
    · exact held.goTo suspended nofun nofun

theorem keystoreRead {index token : Nat} {user : String} {forgets : Forgets}
    {failed : Bool} (held : RecordWatched page)
    (suspended : page.stage? index = some (.restoring user token forgets)) :
    RecordWatched (page.keystoreRead index user token forgets failed) := by
  have concluded : ∀ state, RecordWatched
      ({ page with ctx := page.ctx.publishIf token state }.goTo index .finished) :=
    fun state => goTo (held.same rfl rfl) suspended nofun nofun
  unfold Page.keystoreRead
  dsimp only
  split
  · exact concluded .locked
  · split
    · exact concluded .locked
    · split
      · exact held.goTo suspended nofun nofun
      · exact concluded _

theorem enterUnlock {index : Nat} {key : SessionKey K} (held : RecordWatched page)
    (suspended : page.stage? index = some (.holding key)) :
    RecordWatched (page.enterUnlock index key) := by
  obtain ⟨-, same⟩ | ⟨-, ctx, ⟨-, token, same⟩ | ⟨-, same⟩⟩ :=
    enterUnlock_cases page index key
  · rw [same]
    exact held.goTo suspended nofun nofun
  · rw [same]
    exact goTo (held.same rfl rfl) suspended nofun nofun
  · rw [same]
    exact goTo (held.same rfl rfl) suspended nofun nofun

/-- A ceremony that resumes forgets, or leaves the record to the others. -/
theorem afterRemember {index token : Nat} {key : SessionKey K} {put : Put}
    (suspended : page.stage? index = some (.remembering token key put))
    (others : page.isCurrentAccount key = true →
      page.keystore = none ∨ Pending page Stage.deletes ∨
        ∃ other task, other ≠ index ∧ page.tasks[other]? = some task ∧
          Stage.remembers task.stage = true) :
    RecordWatched (page.afterRemember index token key) := by
  obtain ⟨-, same⟩ | ⟨account, ctx, same⟩ :=
    afterRemember_cases page index token key
  · rw [same]
    have asked : page.recordForget.stage? index = some (.remembering token key put) :=
      suspended
    exact Or.inr (Or.inl (Pending.moved asked rfl))
  · rw [same]
    obtain none | pending | ⟨other, task, apart, found, remembers⟩ := others account
    · exact Or.inl none
    · exact Or.inr (Or.inl (Pending.goTo (pending.of_tasks rfl) suspended nofun))
    · refine Or.inr (Or.inr ⟨task, ?_, remembers⟩)
      apply List.mem_of_getElem? (i := other)
      rw [getElem?_goTo_of_ne apart]
      exact found

end RecordWatched

/-- The forget count moves only together with a delete. -/
theorem forgets_step {page next : Page K} {event : Event K}
    (taken : step page event = some next) :
    next.forgets = page.forgets ∨
      next.forgets = page.forgets + 1 ∧ Pending next Stage.deletes := by
  cases step_eq_some.mp taken with
  | lock => exact Or.inr ⟨rfl, Pending.spawned rfl⟩
  | @forget index suspended =>
      have asked : page.recordForget.stage? index = some .leaving := suspended
      exact Or.inr ⟨rfl, Pending.moved asked rfl⟩
  | enterUnlock suspended =>
      obtain ⟨-, same⟩ | ⟨-, ctx, ⟨-, token, same⟩ | ⟨-, same⟩⟩ :=
        enterUnlock_cases page _ _
      all_goals
        rw [same]
        exact Or.inl rfl
  | @resumeUnlock index token key suspended =>
      have asked : page.recordForget.stage? index =
          some (.remembering token key .settled) := suspended
      obtain ⟨-, same⟩ | ⟨-, ctx, same⟩ := afterRemember_cases page index token key
      · rw [same]
        exact Or.inr ⟨rfl, Pending.moved asked rfl⟩
      · rw [same]
        exact Or.inl rfl
  | _ => exact Or.inl (by simp [Page.outrank])

/-- After a forget, as long as no ceremony begins, no storage operation fails
and no resumed ceremony leaves its record, a record is always watched. -/
theorem recordWatched_step {page next : Page K} {event : Event K}
    (held : RecordWatched page) (below : CapturedBelow page page.forgets)
    (succeeds : storageFails event = false) (cleans : LeavesNoRecord page event)
    (taken : step page event = some next) : RecordWatched next := by
  cases step_eq_some.mp taken with
  | userChanged user => exact held.same rfl rfl
  | startProbe => exact held.startProbe
  | rowSeen row => exact held.reprobe
  | statusAnswered answer suspended => exact held.statusAnswered suspended
  | keystoreRead failed suspended => exact held.keystoreRead suspended
  | discarded failed suspended =>
      cases failed with
      | true => cases succeeds
      | false => exact Or.inl rfl
  | beginCeremony user => exact held.spawn
  | keyOpened key suspended => exact held.goTo suspended nofun nofun
  | ceremonyFailed suspended => exact held.goTo suspended nofun nofun
  | enterUnlock suspended => exact held.enterUnlock suspended
  | putCommitted suspended =>
      apply Or.inr (Or.inr _)
      exact Pending.moved suspended rfl
  | putFailed suspended => exact held.goTo suspended nofun (fun _ => rfl)
  | resumeUnlock suspended =>
      apply RecordWatched.afterRemember suspended
      intro account
      apply cleans _ _ _ rfl suspended _ account
      -- the count this ceremony captured is older than the forget
      obtain ⟨task, found, at_stage⟩ := stage?_eq_some.mp suspended
      have older := below task (List.mem_of_getElem? found) _
        (congrArg Stage.forgets? at_stage)
      simpa [stillCurrent] using Nat.ne_of_lt older
  | lock => exact Or.inr (Or.inl (Pending.spawned rfl))
  | signingOut => exact RecordWatched.spawn (held.outrank rfl rfl)
  | @forget index suspended =>
      have asked : page.recordForget.stage? index = some .leaving := suspended
      exact Or.inr (Or.inl (Pending.moved asked rfl))
  | deleteCommitted suspended => exact Or.inl rfl
  | deleteFailed suspended => cases succeeds
  | sessionEnded accepted suspended =>
      exact RecordWatched.goTo (held.same rfl rfl) suspended nofun nofun

/-! ## The guarantee -/

/-- No captured count is from the future. -/
theorem capturedBelow_run {user : Option String} {keystore : Option (Record K)}
    {events : List (Event K)} {page : Page K}
    (run : runFrom step (Page.initial user keystore) events = some page) :
    CapturedBelow page (page.forgets + 1) := by
  apply invariant_runFrom (I := fun page => CapturedBelow page (page.forgets + 1))
    _ _ run
  · intro page event next held taken
    have counted : page.forgets ≤ next.forgets := by
      obtain same | ⟨raised, -⟩ := forgets_step taken
      · exact Nat.le_of_eq same.symm
      · exact raised ▸ Nat.le_succ _
    have below := capturedBelow_step held (fun _ => Nat.lt_succ_self _) taken
    exact below.of_le rfl (Nat.succ_le_succ counted)
  · intro task member
    simp [Page.initial] at member

/-- What holds after a forget until every path has finished. -/
structure Forgotten (page : Page K) : Prop where
  below : CapturedBelow page page.forgets
  watched : RecordWatched page

/-- The step that raises the count establishes it. -/
theorem Forgotten.of_forget {asked told : Page K} {event : Event K}
    (captured : CapturedBelow asked (asked.forgets + 1))
    (forgot : step asked event = some told) (counted : told.forgets ≠ asked.forgets) :
    Forgotten told := by
  obtain same | ⟨raised, deleting⟩ := forgets_step forgot
  · exact absurd same counted
  · have below := capturedBelow_step captured (fun _ => Nat.lt_succ_self _) forgot
    rw [← raised] at below
    exact ⟨below, Or.inr (Or.inl deleting)⟩

/-- The events after the last forget: nobody begins a ceremony, and the
keystore answers every request. -/
def AfterLastForget (event : Event K) : Prop :=
  beginsCeremony event = false ∧ storageFails event = false

theorem Forgotten.step {page next : Page K} {event : Event K}
    (held : Forgotten page)
    (meets : AfterLastForget event ∧ LeavesNoRecord page event)
    (taken : System.step page event = some next) : Forgotten next := by
  obtain ⟨⟨begins, succeeds⟩, cleans⟩ := meets
  constructor
  · have below := capturedBelow_step held.below (by simp [begins]) taken
    obtain same | ⟨raised, -⟩ := forgets_step taken
    · exact below.of_le rfl (Nat.le_of_eq same.symm)
    · exact below.of_le rfl (raised ▸ Nat.le_succ _)
  · exact recordWatched_step held.watched held.below succeeds cleans taken

/-- Once every path has finished there is nobody left to watch a record. -/
theorem Forgotten.keystore_eq_none {page : Page K} (held : Forgotten page)
    (done : ∀ task ∈ page.tasks, task.stage = .finished) : page.keystore = none := by
  obtain none | ⟨task, member, deletes⟩ | ⟨task, member, remembers⟩ := held.watched
  · exact none
  · simp [done task member, Stage.deletes] at deletes
  · simp [done task member, Stage.remembers] at remembers

/-- After a forget that no ceremony begins after, on a run whose resumed
ceremonies leave no record and whose keystore operations succeed, the keystore
is empty once everything has finished. -/
theorem forgotten_stays_forgotten (user : Option String)
    (keystore : Option (Record K)) {asked told last : Page K}
    {before after : List (Event K)} {request : Event K}
    (earlier : runFrom step (Page.initial user keystore) before = some asked)
    (forgot : step asked request = some told)
    (counted : told.forgets ≠ asked.forgets)
    (later : runFrom step told after = some last)
    (nothingBegins : ∀ event ∈ after, AfterLastForget event)
    (cleans : StepsMeet step LeavesNoRecord told after)
    (done : ∀ task ∈ last.tasks, task.stage = .finished) : last.keystore = none := by
  have start := Forgotten.of_forget (capturedBelow_run earlier) forgot counted
  have meets : StepsMeet step
      (fun page event => AfterLastForget event ∧ LeavesNoRecord page event)
      told after :=
    stepsMeet_and (stepsMeet_of_forall fun event member _ =>
      nothingBegins event member) cleans
  have held : Forgotten last := invariant_stepsMeet
    (fun page event next held meets taken => held.step meets taken) start meets later
  exact held.keystore_eq_none done

end Forgotten

/-! ## A put that commits in time, and one that commits late -/

/-- alice's ceremony has issued its put when she locks. -/
def puttingThenLocked : Option (Page Nat) :=
  runFrom step (Page.initial (some "alice@example.com") none)
    [.beginCeremony "alice@example.com", .keyOpened 0 7, .enterUnlock 0]

/-- The put commits before the delete of "Lock now". -/
def putFirst : List (Event Nat) :=
  [.putCommitted 0, .deleteCommitted 1, .resumeUnlock 0]

theorem forgotten_stays_forgotten_putFirst :
    ∃ asked told last, puttingThenLocked = some asked ∧
      step asked .lock = some told ∧
      runFrom step told putFirst = some last ∧ last.keystore = none := by
  refine ⟨_, _, _, rfl, rfl, rfl, ?_⟩
  apply @forgotten_stays_forgotten Nat (some "alice@example.com") none _ _ _
    [.beginCeremony "alice@example.com", .keyOpened 0 7, .enterUnlock 0] putFirst
    .lock rfl rfl _ rfl
  · simp [putFirst, AfterLastForget, beginsCeremony, storageFails]
  · refine fun _ taken => ⟨nofun, ?_⟩
    cases taken
    refine fun _ taken => ⟨nofun, ?_⟩
    cases taken
    exact fun _ _ => ⟨fun _ _ _ _ _ _ _ => Or.inl rfl, trivial⟩
  · decide
  · decide

/-- The delete commits first, and the put after it. -/
def deleteFirst : List (Event Nat) :=
  [.deleteCommitted 1, .putCommitted 0, .resumeUnlock 0]

/-- The resumed ceremony sees its stale token and returns, and alice's key stays
on the device she locked. -/
theorem deleteFirst_keeps_record :
    ∃ asked told last, puttingThenLocked = some asked ∧
      step asked .lock = some told ∧ told.forgets ≠ asked.forgets ∧
      runFrom step told deleteFirst = some last ∧
      (∀ event ∈ deleteFirst, AfterLastForget event) ∧
      (∀ task ∈ last.tasks, task.stage = .finished) ∧
      last.keystore = some { user := "alice@example.com", key := 7 } := by
  refine ⟨_, _, _, rfl, rfl, by decide, rfl, ?_, by decide, rfl⟩
  simp [deleteFirst, AfterLastForget, beginsCeremony, storageFails]

end TimeTracker.Tab.Forget
