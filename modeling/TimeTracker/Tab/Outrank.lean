import TimeTracker.Tab.System

/-!
# What "Lock now" and sign-out outrank

Locking and signing out both start a new generation, so a path that holds an
older token may not publish.  An unlock ceremony takes its token only when it
enters `EncryptionCtx::unlock`, and the guarantee is exact up to that moment: a
ceremony that enters before the user asks is outranked, one that enters
afterwards takes a token newer than the request.
-/

namespace TimeTracker.Tab.Outrank

open TimeTracker.Library.Run
open TimeTracker.Server.Functions
open TimeTracker.Tab.State
open TimeTracker.Tab.System
open TimeTracker.Tab.System.Page

section Outranked

variable {K : Type}

/-! ## Tokens -/

/-- A task's token is not from the future, and is from the past once a lock or
a sign-out was asked for after the task began. -/
def BehindToken (generation : Nat) (outranked : Bool) (token : Nat) : Prop :=
  token ≤ generation ∧ (outranked = true → token < generation)

/-- The invariant of the newest-operation counter. -/
def TokensBehind (page : Page K) : Prop :=
  Carried page Stage.token? (BehindToken page.ctx.generation.count)

namespace TokensBehind

variable {page : Page K}

/-- Only the task list and the counter matter. -/
theorem of_later {later : Page K} (held : TokensBehind page)
    (tasks : later.tasks = page.tasks)
    (le : page.ctx.generation.count ≤ later.ctx.generation.count) :
    TokensBehind later := by
  refine Carried.mono held tasks ?_
  rintro outranked token ⟨not_future, past⟩
  exact ⟨by omega, fun marked => by have := past marked; omega⟩

/-- Locking and signing out put every token held so far in the past. -/
theorem outrank {later : Page K} (held : TokensBehind page)
    (tasks : later.tasks = page.outrank.tasks)
    (newer : later.ctx.generation.count = page.ctx.generation.count + 1) :
    TokensBehind later := by
  refine Carried.outrank held tasks ?_
  rintro outranked token ⟨not_future, -⟩
  exact ⟨by omega, fun _ => by omega⟩

theorem spawn {stage : Stage K} (held : TokensBehind page)
    (newest : ∀ token, stage.token? = some token →
      token ≤ page.ctx.generation.count) :
    TokensBehind (page.spawn stage) := by
  apply Carried.spawn held
  intro token carried
  exact ⟨newest token carried, nofun⟩

theorem keep {index : Nat} {stage old : Stage K} (held : TokensBehind page)
    (suspended : page.stage? index = some old)
    (kept : stage.token? = old.token?) :
    TokensBehind (page.goTo index stage) := by
  apply Carried.keep held suspended
  rw [kept]
  exact fun _ carried => carried

theorem drop {index : Nat} {stage : Stage K} (held : TokensBehind page)
    (dropped : stage.token? = none) : TokensBehind (page.goTo index stage) :=
  Carried.drop held dropped

theorem startProbe {meanwhile : EncryptionState K} (held : TokensBehind page) :
    TokensBehind (page.startProbe meanwhile) := by
  unfold Page.startProbe
  split
  · exact held.of_later rfl (by simp)
  · apply spawn
    · exact held.of_later rfl (by simp)
    · intro token holds
      cases holds
      simp

theorem reprobe {row : UnreadableRow} (held : TokensBehind page) :
    TokensBehind (page.reprobe row) := by
  unfold Page.reprobe
  have claimed : TokensBehind { page with ctx := page.ctx.claimReprobe.2 } :=
    held.of_later rfl (Nat.le_refl _)
  split
  · exact held
  · split
    · dsimp only
      split
      · exact claimed.startProbe
      · exact claimed
    · exact held.startProbe

theorem afterRemember {index token : Nat} {key : SessionKey K}
    (held : TokensBehind page) :
    TokensBehind (page.afterRemember index token key) := by
  unfold Page.afterRemember
  split
  · exact drop (held.of_later rfl (Nat.le_refl _)) rfl
  · split
    · exact held.drop rfl
    · exact drop (held.of_later rfl (by simp)) rfl

theorem statusAnswered {index token : Nat} {user : String}
    {answer : Option EncryptionStatus} (held : TokensBehind page)
    (suspended : page.stage? index = some (.probing user token)) :
    TokensBehind (page.statusAnswered index user token answer) := by
  have concluded : ∀ state, TokensBehind
      ({ page with ctx := page.ctx.publishIf token state }.goTo index .finished) :=
    fun state => drop (held.of_later rfl (by simp)) rfl
  unfold Page.statusAnswered
  dsimp only
  split
  · exact concluded .unreachable
  · split
    · exact concluded .unreachable
    · exact concluded .disabled
    · exact held.keep suspended rfl

theorem keystoreRead {index token : Nat} {user : String} {forgets : Forgets}
    {failed : Bool} (held : TokensBehind page)
    (suspended : page.stage? index = some (.restoring user token forgets)) :
    TokensBehind (page.keystoreRead index user token forgets failed) := by
  have concluded : ∀ state, TokensBehind
      ({ page with ctx := page.ctx.publishIf token state }.goTo index .finished) :=
    fun state => drop (held.of_later rfl (by simp)) rfl
  unfold Page.keystoreRead
  dsimp only
  split
  · exact concluded .locked
  · split
    · exact concluded .locked
    · next record stored =>
        split
        · exact held.keep suspended rfl
        · exact concluded (.unlocked { key := record.key, user, forgets })

/-- A ceremony that enters takes the newest token, and is not outranked by
anything that happened before. -/
theorem enterUnlock {index : Nat} {key : SessionKey K} (held : TokensBehind page)
    (inTime : page.isCurrentAccount key = true →
      ∀ task, page.tasks[index]? = some task → task.outranked = false) :
    TokensBehind (page.enterUnlock index key) := by
  unfold Page.enterUnlock
  have entered : TokensBehind
      { page with ctx := page.ctx.beginProbe.publish .locked } :=
    held.of_later rfl (by simp)
  by_cases account : page.isCurrentAccount key = true
  · simp only [account, Bool.not_true, Bool.false_eq_true, if_false]
    split
    · apply forall_goTo entered
      intro task found token carried
      cases carried
      simp [BehindToken, inTime account task found]
    · exact entered.afterRemember
  · simp only [account, Bool.not_false, if_true]
    exact held.drop rfl

end TokensBehind

/-! ## The guarantee -/

/-- A ceremony enters `EncryptionCtx::unlock`, and passes its account check,
only if nothing was locked or signed out since it began. -/
def EntersInTime (page : Page K) (event : Event K) : Prop :=
  ∀ index key, event = .enterUnlock index →
    page.stage? index = some (.holding key) →
    page.isCurrentAccount key = true →
    ∀ task, page.tasks[index]? = some task → task.outranked = false

/-- The step publishes `EncryptionState::Unlocked`. -/
def PublishesUnlocked (page next : Page K) : Prop :=
  next.ctx.state.key.isSome = true ∧
    (next.ctx.keys ≠ page.ctx.keys ∨ next.ctx.state ≠ page.ctx.state)

/-- The task an event resumes. -/
def resumed? : Event K → Option Nat
  | .userChanged _ | .startProbe | .rowSeen _ | .beginCeremony _ => none
  | .lock | .signingOut => none
  | .statusAnswered task _ | .keystoreRead task _ | .discarded task _ => some task
  | .keyOpened task _ | .ceremonyFailed task | .enterUnlock task => some task
  | .putCommitted task | .putFailed task | .resumeUnlock task => some task
  | .forget task | .deleteCommitted task | .deleteFailed task => some task
  | .sessionEnded task _ => some task

/-- Only a probe or a ceremony that nothing has outranked since it began
publishes a key. -/
def OnlyCurrentUnlocks (page : Page K) (event : Event K) : Prop :=
  ∀ next, step page event = some next → PublishesUnlocked page next →
    ∃ index task, resumed? event = some index ∧
      page.tasks[index]? = some task ∧ task.outranked = false

/-- A context that is republished without a key publishes none. -/
theorem not_publishesUnlocked_of_keyless {page next : Page K}
    (keyless : next.ctx.state.key = none) : ¬ PublishesUnlocked page next := by
  rintro ⟨keyed, -⟩
  simp [keyless] at keyed

theorem not_publishesUnlocked_of_same {page next : Page K}
    (state : next.ctx.state = page.ctx.state) (keys : next.ctx.keys = page.ctx.keys) :
    ¬ PublishesUnlocked page next := by
  rintro ⟨-, changed | changed⟩
  · exact changed keys
  · exact changed state

/-- What still holds its token may publish only if nothing outranked it. -/
theorem TokensBehind.current_of_mayPublish {page : Page K} (held : TokensBehind page)
    {index token : Nat} {stage : Stage K} (suspended : page.stage? index = some stage)
    (holds : stage.token? = some token) (may : page.ctx.mayPublish token = true) :
    ∃ task, page.tasks[index]? = some task ∧ task.outranked = false := by
  obtain ⟨task, found, rfl⟩ := stage?_eq_some.mp suspended
  refine ⟨task, found, ?_⟩
  have behind := (held task (List.mem_of_getElem? found) token holds).2
  have newest : page.ctx.generation.count = token := by
    simpa [EncryptionCtx.mayPublish] using may
  cases marked : task.outranked with
  | false => rfl
  | true =>
      have := behind marked
      omega

/-- A step keeps the counter's invariant when no ceremony enters late. -/
theorem tokensBehind_step {page next : Page K} {event : Event K}
    (held : TokensBehind page) (inTime : EntersInTime page event)
    (taken : step page event = some next) : TokensBehind next := by
  have same_ctx : ∀ {later : Page K}, later.tasks = page.tasks →
      later.ctx = page.ctx → TokensBehind later :=
    fun tasks ctx => held.of_later tasks (by rw [ctx])
  cases step_eq_some.mp taken with
  | userChanged user => exact same_ctx rfl rfl
  | startProbe => exact held.startProbe
  | rowSeen row => exact held.reprobe
  | statusAnswered answer suspended => exact held.statusAnswered suspended
  | keystoreRead failed suspended => exact held.keystoreRead suspended
  | discarded failed suspended =>
      exact TokensBehind.drop (held.of_later rfl (by simp)) rfl
  | beginCeremony user => exact held.spawn (by simp [Stage.token?])
  | keyOpened key suspended => exact held.drop rfl
  | ceremonyFailed suspended => exact held.drop rfl
  | enterUnlock suspended =>
      exact held.enterUnlock (inTime _ _ rfl suspended)
  | putCommitted suspended =>
      exact TokensBehind.keep (same_ctx rfl rfl) suspended rfl
  | putFailed suspended => exact held.keep suspended rfl
  | resumeUnlock suspended => exact held.afterRemember
  | lock =>
      apply TokensBehind.spawn
      · exact held.outrank rfl (by simp [recordForget])
      · simp [Stage.token?]
  | signingOut =>
      apply TokensBehind.spawn
      · exact held.outrank rfl (by simp)
      · simp [Stage.token?]
  | forget suspended => exact TokensBehind.drop (same_ctx rfl rfl) rfl
  | deleteCommitted suspended =>
      apply TokensBehind.drop (same_ctx rfl rfl)
      split <;> rfl
  | deleteFailed suspended =>
      apply held.drop
      split <;> rfl
  | sessionEnded accepted suspended =>
      exact TokensBehind.drop (same_ctx rfl rfl) rfl

/-- A conclusion that publishes a key had its token to do so. -/
theorem mayPublish_of_publishIf {page : Page K} {index token : Nat}
    {state : EncryptionState K}
    (published : PublishesUnlocked page
      ({ page with ctx := page.ctx.publishIf token state }.goTo index .finished)) :
    page.ctx.mayPublish token = true := by
  by_contra stale
  apply not_publishesUnlocked_of_same _ _ published <;>
    simp [goTo, EncryptionCtx.publishIf, stale]

theorem mayPublish_of_statusAnswered {page : Page K} {index token : Nat}
    {user : String} {answer : Option EncryptionStatus}
    (published : PublishesUnlocked page
      (page.statusAnswered index user token answer)) :
    page.ctx.mayPublish token = true := by
  unfold Page.statusAnswered at published
  dsimp only at published
  split at published
  · exact mayPublish_of_publishIf published
  · split at published
    · exact mayPublish_of_publishIf published
    · exact mayPublish_of_publishIf published
    · exact absurd published (not_publishesUnlocked_of_same rfl rfl)

theorem mayPublish_of_keystoreRead {page : Page K} {index token : Nat}
    {user : String} {forgets : Forgets} {failed : Bool}
    (published : PublishesUnlocked page
      (page.keystoreRead index user token forgets failed)) :
    page.ctx.mayPublish token = true := by
  unfold Page.keystoreRead at published
  dsimp only at published
  split at published
  · exact mayPublish_of_publishIf published
  · split at published
    · exact mayPublish_of_publishIf published
    · split at published
      · exact absurd published (not_publishesUnlocked_of_same rfl rfl)
      · exact mayPublish_of_publishIf published

theorem mayPublish_of_afterRemember {page : Page K} {index token : Nat}
    {key : SessionKey K}
    (published : PublishesUnlocked page (page.afterRemember index token key)) :
    page.ctx.mayPublish token = true := by
  unfold Page.afterRemember at published
  split at published
  · exact absurd published (not_publishesUnlocked_of_same rfl rfl)
  · split at published
    · exact absurd published (not_publishesUnlocked_of_same rfl rfl)
    · next may => simpa using may

/-- Starting a probe parks the state where no key is. -/
theorem not_publishesUnlocked_startProbe {page : Page K}
    {meanwhile : EncryptionState K} (keyless : meanwhile.key = none) :
    ¬ PublishesUnlocked page (page.startProbe meanwhile) := by
  unfold Page.startProbe
  split
  · exact not_publishesUnlocked_of_keyless rfl
  · exact not_publishesUnlocked_of_keyless keyless

theorem not_publishesUnlocked_reprobe {page : Page K} {row : UnreadableRow} :
    ¬ PublishesUnlocked page (page.reprobe row) := by
  unfold Page.reprobe
  split
  · exact not_publishesUnlocked_of_same rfl rfl
  · next meanwhile contradicted =>
      have keyless : meanwhile.key = none := by
        unfold contradictedBy at contradicted
        split at contradicted <;> cases contradicted <;> rfl
      split
      · dsimp only
        split
        · exact not_publishesUnlocked_startProbe keyless
        · exact not_publishesUnlocked_of_same rfl rfl
      · exact not_publishesUnlocked_startProbe keyless

/-- A ceremony publishes on entering only past its account check. -/
theorem isCurrentAccount_of_enterUnlock {page : Page K} {index : Nat}
    {key : SessionKey K}
    (published : PublishesUnlocked page (page.enterUnlock index key)) :
    page.isCurrentAccount key = true := by
  by_contra other
  rw [Bool.not_eq_true] at other
  unfold Page.enterUnlock at published
  simp only [other, Bool.not_false, if_true] at published
  exact not_publishesUnlocked_of_same rfl rfl published

/-- One step: what publishes a key holds a token nothing has outranked. -/
theorem onlyCurrentUnlocks_of_tokensBehind {page : Page K} {event : Event K}
    (held : TokensBehind page) (inTime : EntersInTime page event) :
    OnlyCurrentUnlocks page event := by
  intro next taken published
  cases step_eq_some.mp taken with
  | userChanged user => exact absurd published (not_publishesUnlocked_of_same rfl rfl)
  | startProbe => exact absurd published (not_publishesUnlocked_startProbe rfl)
  | rowSeen row => exact absurd published not_publishesUnlocked_reprobe
  | statusAnswered answer suspended =>
      obtain ⟨task, found, fresh⟩ := held.current_of_mayPublish suspended rfl
        (mayPublish_of_statusAnswered published)
      exact ⟨_, task, rfl, found, fresh⟩
  | keystoreRead failed suspended =>
      obtain ⟨task, found, fresh⟩ := held.current_of_mayPublish suspended rfl
        (mayPublish_of_keystoreRead published)
      exact ⟨_, task, rfl, found, fresh⟩
  | discarded failed suspended =>
      obtain ⟨task, found, fresh⟩ := held.current_of_mayPublish suspended rfl
        (by
          by_contra stale
          apply not_publishesUnlocked_of_same _ _ published <;>
            simp [goTo, EncryptionCtx.publishIf, stale])
      exact ⟨_, task, rfl, found, fresh⟩
  | beginCeremony user => exact absurd published (not_publishesUnlocked_of_same rfl rfl)
  | keyOpened key suspended =>
      exact absurd published (not_publishesUnlocked_of_same rfl rfl)
  | ceremonyFailed suspended =>
      exact absurd published (not_publishesUnlocked_of_same rfl rfl)
  | enterUnlock suspended =>
      have account := isCurrentAccount_of_enterUnlock published
      obtain ⟨task, found, -⟩ := stage?_eq_some.mp suspended
      exact ⟨_, task, rfl, found, inTime _ _ rfl suspended account task found⟩
  | putCommitted suspended =>
      exact absurd published (not_publishesUnlocked_of_same rfl rfl)
  | putFailed suspended =>
      exact absurd published (not_publishesUnlocked_of_same rfl rfl)
  | resumeUnlock suspended =>
      obtain ⟨task, found, fresh⟩ := held.current_of_mayPublish suspended rfl
        (mayPublish_of_afterRemember published)
      exact ⟨_, task, rfl, found, fresh⟩
  | lock => exact absurd published (not_publishesUnlocked_of_keyless rfl)
  | signingOut => exact absurd published (not_publishesUnlocked_of_same rfl rfl)
  | forget suspended => exact absurd published (not_publishesUnlocked_of_same rfl rfl)
  | deleteCommitted suspended =>
      exact absurd published (not_publishesUnlocked_of_same rfl rfl)
  | deleteFailed suspended =>
      exact absurd published (not_publishesUnlocked_of_same rfl rfl)
  | sessionEnded accepted suspended =>
      exact absurd published (not_publishesUnlocked_of_same rfl rfl)

/-- On every run of a page load in which no ceremony enters
`EncryptionCtx::unlock` after the user locked or signed out, nothing begun
before that ever publishes `Unlocked` afterwards. -/
theorem outranked_never_unlocks (user : Option String)
    (keystore : Option (Record K)) (events : List (Event K))
    (inTime : StepsMeet step EntersInTime (Page.initial user keystore) events) :
    StepsMeet step OnlyCurrentUnlocks (Page.initial user keystore) events := by
  have start : TokensBehind (Page.initial user keystore : Page K) := by
    intro task member
    simp [Page.initial] at member
  apply StepsMeet.of_invariant (I := TokensBehind) _ _ start inTime
  · intro page event next held entered taken
    exact tokensBehind_step held entered taken
  · intro page event held entered
    exact onlyCurrentUnlocks_of_tokensBehind held entered

end Outranked

/-! ## A ceremony that enters in time, and one that enters late -/

/-- alice's ceremony is remembering its key when she locks; it resumes last. -/
def lockedWhileRemembering : List (Event Nat) :=
  [.beginCeremony "alice@example.com", .keyOpened 0 7, .enterUnlock 0,
    .lock, .putCommitted 0, .deleteCommitted 1, .resumeUnlock 0]

/-- The run is outranked as promised: it ends locked. -/
theorem outranked_never_unlocks_lockedWhileRemembering :
    StepsMeet step OnlyCurrentUnlocks
      (Page.initial (some "alice@example.com") none) lockedWhileRemembering := by
  apply outranked_never_unlocks
  simp only [lockedWhileRemembering, StepsMeet]
  refine fun _ taken => ⟨nofun, ?_⟩
  cases taken
  refine fun _ taken => ⟨nofun, ?_⟩
  cases taken
  refine fun _ taken => ⟨?_, ?_⟩
  · intro index key same _ _ task found
    cases same
    cases found
    rfl
  · cases taken
    exact fun _ _ => ⟨nofun, fun _ _ => ⟨nofun, fun _ _ => ⟨nofun,
      fun _ _ => ⟨nofun, trivial⟩⟩⟩⟩

/-- The same ceremony is still asking the authenticator when alice locks. -/
def lockedWhileOpening : List (Event Nat) :=
  [.beginCeremony "alice@example.com", .lock, .deleteCommitted 1, .keyOpened 0 7]

/-- It takes its token after the lock, so the lock does not outrank it. -/
theorem late_entry_unlocks :
    ∃ page next : Page Nat,
      runFrom step (Page.initial (some "alice@example.com") none)
        lockedWhileOpening = some page ∧
      page.tasks[0]?.map TabTask.outranked = some true ∧
      step page (.enterUnlock 0) = some next ∧
      next.ctx.state =
        .unlocked { key := 7, user := "alice@example.com", forgets := 0 } ∧
      ¬ StepsMeet step OnlyCurrentUnlocks
        (Page.initial (some "alice@example.com") none)
        (lockedWhileOpening ++ [.enterUnlock 0]) := by
  refine ⟨_, _, rfl, rfl, rfl, rfl, ?_⟩
  intro meets
  obtain ⟨last, -⟩ := (stepsMeet_append.mp meets).2 _ rfl _ rfl
  obtain ⟨index, task, same, found, fresh⟩ := last _ rfl ⟨rfl, Or.inl (by decide)⟩
  cases same
  cases found
  exact Bool.noConfusion fresh

end TimeTracker.Tab.Outrank
