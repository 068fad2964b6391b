import TimeTracker.Tab.State
import TimeTracker.Library.Run

/-!
# One page load as a transition system

The steps are the await points of the asynchronous paths that move a tab's
encryption state: probes, unlock ceremonies, "Lock now" and sign-out.  Each
path is a task that remembers where it is suspended and what it captured before
that; the event that resumes it carries the answer it was waiting for.
-/

namespace TimeTracker.Tab.System

open TimeTracker.Server.Functions
open TimeTracker.Tab.State

/-- The keystore's one record. -/
structure Record (K : Type) where
  user : String
  key : K
  deriving DecidableEq, Repr

/-- Whether the keystore write of `remember` has been decided. -/
inductive Put
  | inFlight
  | settled
  deriving DecidableEq, Repr

/-- Where a task is suspended. -/
inductive Stage (K : Type)
  /-- `probe`, awaiting the status call. -/
  | probing (user : String) (token : Nat)
  /-- `probe`, awaiting the keystore read of `SessionKey::restore`. -/
  | restoring (user : String) (token : Nat) (forgets : Forgets)
  /-- `probe`, awaiting the discard of another account's record. -/
  | discarding (token : Nat)
  /-- An unlock ceremony that captured `Forgets::now` and has no key yet. -/
  | opening (user : String) (forgets : Forgets)
  /-- An unlock ceremony about to enter `EncryptionCtx::unlock`. -/
  | holding (key : SessionKey K)
  /-- `EncryptionCtx::unlock`, awaiting `remember`. -/
  | remembering (token : Nat) (key : SessionKey K) (put : Put)
  /-- `sign_out` between the click and its first poll. -/
  | leaving
  /-- A delete issued by `forget_device_key`; sign-out goes on afterwards. -/
  | forgetting (endsSession : Bool)
  /-- `sign_out`, awaiting the server. -/
  | endingSession
  | finished
  deriving DecidableEq, Repr

/-- The probe token a suspended path still holds. -/
def Stage.token? {K : Type} : Stage K → Option Nat
  | .probing _ token | .restoring _ token _ | .discarding token => some token
  | .remembering token _ _ => some token
  | .opening _ _ | .holding _ | .leaving | .forgetting _ | .endingSession => none
  | .finished => none

/-- The forget count a path that may still write the keystore captured. -/
def Stage.forgets? {K : Type} : Stage K → Option Forgets
  | .opening _ forgets => some forgets
  | .holding key | .remembering _ key _ => some key.forgets
  | .probing _ _ | .restoring _ _ _ | .discarding _ | .leaving => none
  | .forgetting _ | .endingSession | .finished => none

/-- A path in progress, and whether a lock or a sign-out was asked for since it
began. -/
structure TabTask (K : Type) where
  stage : Stage K
  outranked : Bool
  deriving DecidableEq, Repr

/-- One page load and the device's keystore. -/
structure Page (K : Type) where
  /-- `AuthCtx::user`. -/
  user : Option String
  ctx : EncryptionCtx K
  forgets : Forgets
  keystore : Option (Record K)
  tasks : List (TabTask K)
  deriving DecidableEq, Repr

/-- What can happen next; an index names the task that is resumed. -/
inductive Event (K : Type)
  | userChanged (user : Option String)
  /-- The probe effect re-runs, or the user asks for a retry. -/
  | startProbe
  /-- The storage seam met a row it could not read. -/
  | rowSeen (row : UnreadableRow)
  | statusAnswered (task : Nat) (answer : Option EncryptionStatus)
  | keystoreRead (task : Nat) (failed : Bool)
  | discarded (task : Nat) (failed : Bool)
  | beginCeremony (user : String)
  | keyOpened (task : Nat) (key : K)
  | ceremonyFailed (task : Nat)
  | enterUnlock (task : Nat)
  | putCommitted (task : Nat)
  | putFailed (task : Nat)
  | resumeUnlock (task : Nat)
  | lock
  | signingOut
  | forget (task : Nat)
  | deleteCommitted (task : Nat)
  | deleteFailed (task : Nat)
  | sessionEnded (task : Nat) (accepted : Bool)
  deriving DecidableEq, Repr

section Steps

variable {K : Type}

namespace Page

/-- A fresh page load. -/
def initial (user : Option String) (keystore : Option (Record K)) : Page K :=
  { user, ctx := .probing user, forgets := 0, keystore, tasks := [] }

/-- Add a task. -/
def spawn (page : Page K) (stage : Stage K) : Page K :=
  { page with tasks := page.tasks ++ [{ stage, outranked := false }] }

/-- Move a task to its next stage. -/
def goTo (page : Page K) (task : Nat) (stage : Stage K) : Page K :=
  { page with tasks := page.tasks.modify task fun old => { old with stage } }

/-- Every path in progress is outranked by what the user just asked for. -/
def outrank (page : Page K) : Page K :=
  { page with tasks := page.tasks.map fun task => { task with outranked := true } }

/-- The stage a task is at. -/
def stage? (page : Page K) (task : Nat) : Option (Stage K) :=
  (page.tasks[task]?).map TabTask.stage

/-- Whether `key` belongs to the account signed in right now. -/
def isCurrentAccount (page : Page K) (key : SessionKey K) : Bool :=
  page.user = some key.user

/-- Whether nothing has asked this device to forget its key since. -/
def stillCurrent (page : Page K) (forgets : Forgets) : Bool :=
  forgets = page.forgets

/-- `EncryptionCtx::start_probe`. -/
def startProbe (page : Page K) (meanwhile : EncryptionState K) : Page K :=
  let ctx := page.ctx.beginProbe
  match page.user with
  | none => { page with ctx := ctx.publish .disabled }
  | some user =>
      { page with ctx := ctx.publish meanwhile }.spawn
        (.probing user ctx.generation.count)

/-- `EncryptionCtx::reprobe`. -/
def reprobe (page : Page K) (row : UnreadableRow) : Page K :=
  match contradictedBy row page.ctx.state with
  | none => page
  | some meanwhile =>
      if row.latched then
        let (claimed, ctx) := page.ctx.claimReprobe
        if claimed then { page with ctx }.startProbe meanwhile
        else { page with ctx }
      else page.startProbe meanwhile

/-- `crypto::forget_device_key`: the count is bumped, then the delete is
issued; the delete is the task's to wait for. -/
def recordForget (page : Page K) : Page K :=
  { page with forgets := page.forgets + 1 }

/-- The part of `EncryptionCtx::unlock` after `remember`. -/
def afterRemember (page : Page K) (task token : Nat) (key : SessionKey K) : Page K :=
  if !page.isCurrentAccount key then
    page.recordForget.goTo task (.forgetting false)
  else if !page.ctx.mayPublish token then
    page.goTo task .finished
  else
    { page with ctx := page.ctx.publish (.unlocked key) }.goTo task .finished

/-- `EncryptionCtx::unlock` up to the first await inside `remember`.  A refused
`remember` does not suspend, so what follows it runs at once. -/
def enterUnlock (page : Page K) (task : Nat) (key : SessionKey K) : Page K :=
  if !page.isCurrentAccount key then page.goTo task .finished
  else
    let ctx := page.ctx.beginProbe
    let token := ctx.generation.count
    let page := { page with ctx := ctx.publish .locked }
    if page.stillCurrent key.forgets then
      page.goTo task (.remembering token key .inFlight)
    else page.afterRemember task token key

/-- `probe`, after the status call. -/
def statusAnswered (page : Page K) (task : Nat) (user : String) (token : Nat)
    (answer : Option EncryptionStatus) : Page K :=
  let conclude := fun state : EncryptionState K =>
    { page with ctx := page.ctx.publishIf token state }.goTo task .finished
  match answer with
  | none => conclude .unreachable
  | some status =>
      match probeAnswer status user with
      | .wrongAccount => conclude .unreachable
      | .notEncrypted => conclude .disabled
      | .needsKey => page.goTo task (.restoring user token page.forgets)

/-- `probe`, after the keystore read. -/
def keystoreRead (page : Page K) (task : Nat) (user : String) (token : Nat)
    (forgets : Forgets) (failed : Bool) : Page K :=
  let conclude := fun state : EncryptionState K =>
    { page with ctx := page.ctx.publishIf token state }.goTo task .finished
  if failed then conclude .locked
  else
    match page.keystore with
    | none => conclude .locked
    | some record =>
        if record.user ≠ user then page.goTo task (.discarding token)
        else conclude (.unlocked { key := record.key, user, forgets })

end Page

open Page

/-- One step of the page. -/
def step (page : Page K) : Event K → Option (Page K)
  | .userChanged user => some { page with user }
  | .startProbe => some (page.startProbe .unknown)
  | .rowSeen row => some (page.reprobe row)
  | .statusAnswered task answer =>
      match page.stage? task with
      | some (.probing user token) => some (page.statusAnswered task user token answer)
      | _ => none
  | .keystoreRead task failed =>
      match page.stage? task with
      | some (.restoring user token forgets) =>
          some (page.keystoreRead task user token forgets failed)
      | _ => none
  | .discarded task failed =>
      match page.stage? task with
      | some (.discarding token) =>
          let keystore := if failed then page.keystore else none
          some ({ page with
            keystore, ctx := page.ctx.publishIf token .locked }.goTo task .finished)
      | _ => none
  | .beginCeremony user => some (page.spawn (.opening user page.forgets))
  | .keyOpened task key =>
      match page.stage? task with
      | some (.opening user forgets) =>
          some (page.goTo task (.holding { key, user, forgets }))
      | _ => none
  | .ceremonyFailed task =>
      match page.stage? task with
      | some (.opening _ _) => some (page.goTo task .finished)
      | _ => none
  | .enterUnlock task =>
      match page.stage? task with
      | some (.holding key) => some (page.enterUnlock task key)
      | _ => none
  | .putCommitted task =>
      match page.stage? task with
      | some (.remembering token key .inFlight) =>
          some ({ page with
            keystore := some { user := key.user, key := key.key } }.goTo task
              (.remembering token key .settled))
      | _ => none
  | .putFailed task =>
      match page.stage? task with
      | some (.remembering token key .inFlight) =>
          some (page.goTo task (.remembering token key .settled))
      | _ => none
  | .resumeUnlock task =>
      match page.stage? task with
      | some (.remembering token key .settled) =>
          some (page.afterRemember task token key)
      | _ => none
  | .lock =>
      some ({ page.outrank with
        ctx := page.ctx.beginProbe.publish .locked }.recordForget.spawn
          (.forgetting false))
  | .signingOut =>
      some ({ page.outrank with ctx := page.ctx.beginProbe }.spawn .leaving)
  | .forget task =>
      match page.stage? task with
      | some .leaving => some (page.recordForget.goTo task (.forgetting true))
      | _ => none
  | .deleteCommitted task =>
      match page.stage? task with
      | some (.forgetting endsSession) =>
          some ({ page with keystore := none }.goTo task
            (if endsSession then .endingSession else .finished))
      | _ => none
  | .deleteFailed task =>
      match page.stage? task with
      | some (.forgetting endsSession) =>
          some (page.goTo task (if endsSession then .endingSession else .finished))
      | _ => none
  | .sessionEnded task accepted =>
      match page.stage? task with
      | some .endingSession =>
          let user := if accepted then none else page.user
          some ({ page with user }.goTo task .finished)
      | _ => none

/-- What each event can do: the step relation `step` computes, with the stage
the resumed task was suspended at. -/
inductive Transition (page : Page K) : Event K → Page K → Prop
  | userChanged (user : Option String) :
      Transition page (.userChanged user) { page with user }
  | startProbe : Transition page .startProbe (page.startProbe .unknown)
  | rowSeen (row : UnreadableRow) :
      Transition page (.rowSeen row) (page.reprobe row)
  | statusAnswered {task token : Nat} {user : String}
      (answer : Option EncryptionStatus)
      (suspended : page.stage? task = some (.probing user token)) :
      Transition page (.statusAnswered task answer)
        (page.statusAnswered task user token answer)
  | keystoreRead {task token : Nat} {user : String} {forgets : Forgets}
      (failed : Bool)
      (suspended : page.stage? task = some (.restoring user token forgets)) :
      Transition page (.keystoreRead task failed)
        (page.keystoreRead task user token forgets failed)
  | discarded {task token : Nat} (failed : Bool)
      (suspended : page.stage? task = some (.discarding token)) :
      Transition page (.discarded task failed)
        ({ page with
          keystore := if failed then page.keystore else none
          ctx := page.ctx.publishIf token .locked }.goTo task .finished)
  | beginCeremony (user : String) :
      Transition page (.beginCeremony user) (page.spawn (.opening user page.forgets))
  | keyOpened {task : Nat} {user : String} {forgets : Forgets} (key : K)
      (suspended : page.stage? task = some (.opening user forgets)) :
      Transition page (.keyOpened task key)
        (page.goTo task (.holding { key, user, forgets }))
  | ceremonyFailed {task : Nat} {user : String} {forgets : Forgets}
      (suspended : page.stage? task = some (.opening user forgets)) :
      Transition page (.ceremonyFailed task) (page.goTo task .finished)
  | enterUnlock {task : Nat} {key : SessionKey K}
      (suspended : page.stage? task = some (.holding key)) :
      Transition page (.enterUnlock task) (page.enterUnlock task key)
  | putCommitted {task token : Nat} {key : SessionKey K}
      (suspended : page.stage? task = some (.remembering token key .inFlight)) :
      Transition page (.putCommitted task)
        ({ page with keystore := some { user := key.user, key := key.key } }.goTo
          task (.remembering token key .settled))
  | putFailed {task token : Nat} {key : SessionKey K}
      (suspended : page.stage? task = some (.remembering token key .inFlight)) :
      Transition page (.putFailed task)
        (page.goTo task (.remembering token key .settled))
  | resumeUnlock {task token : Nat} {key : SessionKey K}
      (suspended : page.stage? task = some (.remembering token key .settled)) :
      Transition page (.resumeUnlock task) (page.afterRemember task token key)
  | lock :
      Transition page .lock
        ({ page.outrank with
          ctx := page.ctx.beginProbe.publish .locked }.recordForget.spawn
            (.forgetting false))
  | signingOut :
      Transition page .signingOut
        ({ page.outrank with ctx := page.ctx.beginProbe }.spawn .leaving)
  | forget {task : Nat} (suspended : page.stage? task = some .leaving) :
      Transition page (.forget task)
        (page.recordForget.goTo task (.forgetting true))
  | deleteCommitted {task : Nat} {endsSession : Bool}
      (suspended : page.stage? task = some (.forgetting endsSession)) :
      Transition page (.deleteCommitted task)
        ({ page with keystore := none }.goTo task
          (if endsSession then .endingSession else .finished))
  | deleteFailed {task : Nat} {endsSession : Bool}
      (suspended : page.stage? task = some (.forgetting endsSession)) :
      Transition page (.deleteFailed task)
        (page.goTo task (if endsSession then .endingSession else .finished))
  | sessionEnded {task : Nat} (accepted : Bool)
      (suspended : page.stage? task = some .endingSession) :
      Transition page (.sessionEnded task accepted)
        ({ page with user := if accepted then none else page.user }.goTo task
          .finished)

/-- The step function takes exactly the transitions. -/
theorem step_eq_some {page next : Page K} {event : Event K} :
    step page event = some next ↔ Transition page event next := by
  constructor
  · intro taken
    cases event <;> simp only [step] at taken <;> try split at taken
    all_goals cases taken
    all_goals constructor
    all_goals assumption
  · intro transition
    cases transition <;> simp_all [step]

/-! ## The task list -/

section Tasks

variable {page : Page K} {P : TabTask K → Prop}

theorem stage?_eq_some {index : Nat} {stage : Stage K} :
    page.stage? index = some stage ↔
      ∃ task, page.tasks[index]? = some task ∧ task.stage = stage := by
  simp [stage?]

theorem forall_spawn {stage : Stage K} :
    (∀ task ∈ (page.spawn stage).tasks, P task) ↔
      (∀ task ∈ page.tasks, P task) ∧ P { stage, outranked := false } := by
  simp [spawn, or_imp, forall_and]

theorem mem_outrank {task : TabTask K} :
    task ∈ page.outrank.tasks ↔
      ∃ old ∈ page.tasks, { old with outranked := true } = task := by
  simp [outrank]

/-- A property of all tasks survives a move that keeps it for the one moved. -/
theorem forall_goTo {index : Nat} {stage : Stage K}
    (held : ∀ task ∈ page.tasks, P task)
    (moved : ∀ task, page.tasks[index]? = some task → P { task with stage }) :
    ∀ task ∈ (page.goTo index stage).tasks, P task := by
  intro task member
  obtain ⟨position, found⟩ := List.mem_iff_getElem?.mp member
  simp only [goTo, List.getElem?_modify] at found
  split at found
  · next same =>
      subst same
      obtain ⟨old, at_old, rfl⟩ := Option.map_eq_some_iff.mp found
      exact moved old at_old
  · obtain ⟨old, at_old, rfl⟩ := Option.map_eq_some_iff.mp found
    exact held _ (List.mem_of_getElem? at_old)

/-- The task moved is at its new stage. -/
theorem mem_goTo {index : Nat} {task : TabTask K} {stage : Stage K}
    (found : page.tasks[index]? = some task) :
    { task with stage } ∈ (page.goTo index stage).tasks := by
  apply List.mem_of_getElem? (i := index)
  simp [goTo, found]

/-- Every other task stays where it was. -/
theorem mem_goTo_of_ne {index : Nat} {old task : TabTask K} {stage : Stage K}
    (found : page.tasks[index]? = some old) (member : task ∈ page.tasks)
    (other : task ≠ old) :
    task ∈ (page.goTo index stage).tasks := by
  obtain ⟨position, at_position⟩ := List.mem_iff_getElem?.mp member
  have apart : index ≠ position := by
    rintro rfl
    exact other (Option.some.inj (at_position.symm.trans found))
  apply List.mem_of_getElem? (i := position)
  simp [goTo, apart, at_position]

/-- A move leaves the tasks at other positions alone. -/
theorem getElem?_goTo_of_ne {index other : Nat} {stage : Stage K}
    (apart : other ≠ index) :
    (page.goTo index stage).tasks[other]? = page.tasks[other]? := by
  simp [goTo, Ne.symm apart]

end Tasks

/-! ## What the suspended tasks carry -/

/-- Every value a suspended task carries, read off its stage, satisfies `P`,
which may ask whether the task has been outranked. -/
def Carried (page : Page K) (read : Stage K → Option Nat) (P : Bool → Nat → Prop) :
    Prop :=
  ∀ task ∈ page.tasks, ∀ value, read task.stage = some value →
    P task.outranked value

namespace Carried

variable {page later : Page K} {read : Stage K → Option Nat}
  {P Q : Bool → Nat → Prop}

theorem mono (held : Carried page read P) (tasks : later.tasks = page.tasks)
    (implies : ∀ outranked value, P outranked value → Q outranked value) :
    Carried later read Q := by
  intro task member value carried
  rw [tasks] at member
  exact implies _ _ (held task member value carried)

theorem spawn {stage : Stage K} (held : Carried page read P)
    (new : ∀ value, read stage = some value → P false value) :
    Carried (page.spawn stage) read P :=
  forall_spawn.mpr ⟨held, new⟩

theorem outrank (held : Carried page read P)
    (tasks : later.tasks = page.outrank.tasks)
    (implies : ∀ outranked value, P outranked value → Q true value) :
    Carried later read Q := by
  intro task member value carried
  rw [tasks] at member
  obtain ⟨old, earlier, rfl⟩ := mem_outrank.mp member
  exact implies _ _ (held old earlier value carried)

/-- A task may move on with the value it carries. -/
theorem keep {index : Nat} {stage old : Stage K} (held : Carried page read P)
    (suspended : page.stage? index = some old)
    (kept : ∀ value, read stage = some value → read old = some value) :
    Carried (page.goTo index stage) read P := by
  apply forall_goTo held
  intro task found value carried
  obtain ⟨same, found', rfl⟩ := stage?_eq_some.mp suspended
  cases Option.some.inj (found.symm.trans found')
  exact held task (List.mem_of_getElem? found) value (kept value carried)

/-- A task may move on and drop its value. -/
theorem drop {index : Nat} {stage : Stage K} (held : Carried page read P)
    (dropped : read stage = none) : Carried (page.goTo index stage) read P := by
  apply forall_goTo held
  intro task found value carried
  simp [dropped] at carried

end Carried

/-! ## What the steps leave alone -/

section Frames

variable (page : Page K) (stage : Stage K) (index token : Nat) (user : String)

@[simp] theorem forgets_spawn : (page.spawn stage).forgets = page.forgets :=
  rfl

@[simp] theorem keystore_spawn : (page.spawn stage).keystore = page.keystore :=
  rfl

@[simp] theorem forgets_goTo : (page.goTo index stage).forgets = page.forgets :=
  rfl

@[simp] theorem keystore_goTo : (page.goTo index stage).keystore = page.keystore :=
  rfl

@[simp] theorem forgets_recordForget : page.recordForget.forgets = page.forgets + 1 :=
  rfl

@[simp] theorem keystore_recordForget : page.recordForget.keystore = page.keystore :=
  rfl

@[simp] theorem forgets_startProbe (meanwhile : EncryptionState K) :
    (page.startProbe meanwhile).forgets = page.forgets := by
  unfold startProbe
  split <;> rfl

@[simp] theorem keystore_startProbe (meanwhile : EncryptionState K) :
    (page.startProbe meanwhile).keystore = page.keystore := by
  unfold startProbe
  split <;> rfl

@[simp] theorem forgets_reprobe (row : UnreadableRow) :
    (page.reprobe row).forgets = page.forgets := by
  unfold reprobe
  repeat' split
  all_goals simp

@[simp] theorem keystore_reprobe (row : UnreadableRow) :
    (page.reprobe row).keystore = page.keystore := by
  unfold reprobe
  repeat' split
  all_goals simp

@[simp] theorem forgets_statusAnswered (answer : Option EncryptionStatus) :
    (page.statusAnswered index user token answer).forgets = page.forgets := by
  unfold statusAnswered
  dsimp only
  repeat' split
  all_goals rfl

@[simp] theorem keystore_statusAnswered (answer : Option EncryptionStatus) :
    (page.statusAnswered index user token answer).keystore = page.keystore := by
  unfold statusAnswered
  dsimp only
  repeat' split
  all_goals rfl

@[simp] theorem forgets_keystoreRead (forgets : Forgets) (failed : Bool) :
    (page.keystoreRead index user token forgets failed).forgets = page.forgets := by
  unfold keystoreRead
  dsimp only
  repeat' split
  all_goals rfl

@[simp] theorem keystore_keystoreRead (forgets : Forgets) (failed : Bool) :
    (page.keystoreRead index user token forgets failed).keystore =
      page.keystore := by
  unfold keystoreRead
  dsimp only
  repeat' split
  all_goals rfl

/-- After `remember`, a ceremony forgets on behalf of an account that has left,
and otherwise ends, whether or not it publishes. -/
theorem afterRemember_cases (key : SessionKey K) :
    (page.isCurrentAccount key = false ∧
      page.afterRemember index token key =
        page.recordForget.goTo index (.forgetting false)) ∨
    (page.isCurrentAccount key = true ∧ ∃ ctx,
      page.afterRemember index token key =
        { page with ctx }.goTo index .finished) := by
  unfold afterRemember
  cases account : page.isCurrentAccount key with
  | false => exact Or.inl ⟨rfl, rfl⟩
  | true =>
      refine Or.inr ⟨rfl, ?_⟩
      simp only [Bool.not_true, Bool.false_eq_true, if_false]
      split
      · exact ⟨page.ctx, rfl⟩
      · exact ⟨_, rfl⟩

/-- A ceremony that enters stops at once, awaits its put, or was told to forget
and ends without one. -/
theorem enterUnlock_cases (key : SessionKey K) :
    (page.isCurrentAccount key = false ∧
      page.enterUnlock index key = page.goTo index .finished) ∨
    (page.isCurrentAccount key = true ∧ ∃ ctx,
      (page.stillCurrent key.forgets = true ∧ ∃ token,
        page.enterUnlock index key =
          { page with ctx }.goTo index (.remembering token key .inFlight)) ∨
      (page.stillCurrent key.forgets = false ∧
        page.enterUnlock index key = { page with ctx }.goTo index .finished)) := by
  unfold enterUnlock
  cases account : page.isCurrentAccount key with
  | false => exact Or.inl ⟨rfl, rfl⟩
  | true =>
      refine Or.inr ⟨rfl, ?_⟩
      simp only [Bool.not_true, Bool.false_eq_true, if_false]
      split
      · next current => exact ⟨_, Or.inl ⟨current, _, rfl⟩⟩
      · next stale =>
          rw [Bool.not_eq_true] at stale
          obtain ⟨other, -⟩ | ⟨-, ctx, same⟩ := afterRemember_cases
            { page with ctx := page.ctx.beginProbe.publish .locked } index
            page.ctx.beginProbe.generation.count key
          · exact absurd (account.symm.trans other) Bool.noConfusion
          · exact ⟨ctx, Or.inr ⟨stale, same⟩⟩

end Frames

end Steps

end TimeTracker.Tab.System
