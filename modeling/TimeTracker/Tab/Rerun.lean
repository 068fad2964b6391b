import TimeTracker.Tab.System

/-!
# The key belongs to the account shown

The probe effect subscribes to `AuthCtx::user`, so every change of the user
re-runs the probe, and other tabs write the one keystore of the device at any
time.  A probe may publish a key because its token is current, a ceremony
because it looks at the account again; either way the key is the one of the
account the tab shows.
-/

namespace TimeTracker.Tab.Rerun

open TimeTracker.Library.Run
open TimeTracker.Server.Functions
open TimeTracker.Tab.State
open TimeTracker.Tab.System
open TimeTracker.Tab.System.Page

/-- What happens in this tab, and what another tab leaves in the keystore. -/
inductive TabEvent (K : Type)
  | own (event : Event K)
  | elsewhere (record : Option (Record K))
  deriving DecidableEq, Repr

section Steps

variable {K : Type}

/-- The events that set `AuthCtx::user`. -/
def changesUser : Event K → Bool
  | .userChanged _ => true
  | .sessionEnded _ accepted => accepted
  | _ => false

/-- A step of the page; the probe effect re-runs with every change of the user. -/
def step (page : Page K) : TabEvent K → Option (Page K)
  | .own event =>
      (System.step page event).map fun next =>
        if changesUser event then next.startProbe .unknown else next
  | .elsewhere record => some { page with keystore := record }

/-! ## What a probe in flight is asking about -/

/-- The account and the token of a probe that may still publish a key. -/
def asking? : Stage K → Option (String × Nat)
  | .probing user token | .restoring user token _ => some (user, token)
  | _ => none

/-- No probe holds a token from the future. -/
def Dated (page : Page K) : Prop :=
  ∀ task ∈ page.tasks, ∀ user token, asking? task.stage = some (user, token) →
    token ≤ page.ctx.generation.count

/-- The key published is the shown account's, and so is the one a probe that
holds the current token would publish. -/
structure AtHome (page : Page K) : Prop where
  dated : Dated page
  unlocked : ∀ key, page.ctx.state = .unlocked key → page.user = some key.user
  current : ∀ task ∈ page.tasks, ∀ user,
    asking? task.stage = some (user, page.ctx.generation.count) → page.user = some user

variable {page later : Page K}

/-- Signed out, a probe has its answer at once. -/
theorem startProbe_of_none {meanwhile : EncryptionState K} (shown : page.user = none) :
    page.startProbe meanwhile =
      { page with ctx := page.ctx.beginProbe.publish .disabled } := by
  simp only [Page.startProbe, shown]

/-- Signed in, a probe asks about the account shown under the newest token. -/
theorem startProbe_of_some {meanwhile : EncryptionState K} {user : String}
    (shown : page.user = some user) :
    page.startProbe meanwhile =
      { page with ctx := page.ctx.beginProbe.publish meanwhile }.spawn
        (.probing user (page.ctx.generation.count + 1)) := by
  simp only [Page.startProbe, shown]
  rfl

/-- A row that contradicts the state parks it where no key is. -/
theorem key_of_contradictedBy {row : UnreadableRow} {state meanwhile : EncryptionState K}
    (contradicted : contradictedBy row state = some meanwhile) : meanwhile.key = none := by
  unfold contradictedBy at contradicted
  split at contradicted <;> cases contradicted <;> rfl

theorem ne_unlocked_of_keyless {state : EncryptionState K} (keyless : state.key = none)
    (key : SessionKey K) : state ≠ .unlocked key := by
  rintro rfl
  cases keyless

namespace AtHome

/-- Whoever starts a probe leaves nothing behind that could still publish. -/
theorem startProbe {meanwhile : EncryptionState K} (keyless : meanwhile.key = none)
    (dated : Dated page) : AtHome (page.startProbe meanwhile) := by
  have past : ∀ task ∈ page.tasks, ∀ user token, asking? task.stage = some (user, token) →
      token < page.ctx.generation.count + 1 :=
    fun task member user token asks => Nat.lt_succ_of_le (dated task member user token asks)
  cases shown : page.user with
  | none =>
      rw [startProbe_of_none shown]
      refine ⟨fun task member user token asks => (past task member user token asks).le,
        nofun, ?_⟩
      exact fun task member user asks => absurd (past task member user _ asks) (lt_irrefl _)
  | some user =>
      rw [startProbe_of_some shown]
      refine ⟨forall_spawn.mpr ⟨fun task member user token asks =>
        (past task member user token asks).le, ?_⟩, ?_, forall_spawn.mpr
          ⟨fun task member user asks => ?_, ?_⟩⟩
      · intro user token asks
        cases asks
        exact le_rfl
      · intro key unlocked
        exact absurd unlocked (ne_unlocked_of_keyless keyless key)
      · exact absurd (past task member user _ asks) (lt_irrefl _)
      · intro user asks
        cases asks
        exact shown

/-- A newer token with no key published puts every probe in the past. -/
theorem newer (home : AtHome page) (tasks : later.tasks = page.tasks)
    (count : later.ctx.generation.count = page.ctx.generation.count + 1)
    (unlocked : ∀ key, later.ctx.state = .unlocked key → later.user = some key.user) :
    AtHome later := by
  have past : ∀ task ∈ later.tasks, ∀ user token, asking? task.stage = some (user, token) →
      token < later.ctx.generation.count := by
    intro task member user token asks
    rw [tasks] at member
    rw [count]
    exact Nat.lt_succ_of_le (home.dated task member user token asks)
  refine ⟨fun task member user token asks => (past task member user token asks).le,
    unlocked, ?_⟩
  exact fun task member user asks => absurd (past task member user _ asks) (lt_irrefl _)

/-- Only the user, the tasks, the counter and the state matter. -/
theorem congr (home : AtHome page) (tasks : later.tasks = page.tasks)
    (user : later.user = page.user)
    (count : later.ctx.generation = page.ctx.generation)
    (unlocked : ∀ key, later.ctx.state = .unlocked key → later.user = some key.user) :
    AtHome later := by
  refine ⟨?_, unlocked, ?_⟩
  · intro task member
    rw [tasks] at member
    rw [count]
    exact home.dated task member
  · intro task member
    rw [tasks] at member
    rw [count, user]
    exact home.current task member

/-- What other tabs leave in the keystore is not asked about here. -/
theorem withKeystore (home : AtHome page) (keystore : Option (Record K)) :
    AtHome { page with keystore } :=
  home.congr rfl rfl rfl home.unlocked

theorem spawn {stage : Stage K} (home : AtHome page) (silent : asking? stage = none) :
    AtHome (page.spawn stage) := by
  refine ⟨forall_spawn.mpr ⟨home.dated, ?_⟩, home.unlocked,
    forall_spawn.mpr ⟨home.current, ?_⟩⟩
  · intro user token asks
    rw [silent] at asks
    cases asks
  · intro user asks
    rw [silent] at asks
    cases asks

/-- A task may move on without asking for anything else. -/
theorem goTo {index : Nat} {stage old : Stage K} (home : AtHome page)
    (suspended : page.stage? index = some old)
    (kept : ∀ user token, asking? stage = some (user, token) →
      asking? old = some (user, token)) : AtHome (page.goTo index stage) := by
  obtain ⟨task, found, rfl⟩ := stage?_eq_some.mp suspended
  have member := List.mem_of_getElem? found
  refine ⟨forall_goTo home.dated ?_, home.unlocked, forall_goTo home.current ?_⟩
  · intro same found' user token asks
    cases Option.some.inj (found.symm.trans found')
    exact home.dated task member user token (kept user token asks)
  · intro same found' user asks
    cases Option.some.inj (found.symm.trans found')
    exact home.current task member user (kept user _ asks)

/-- A task that ends asks for nothing. -/
theorem drop {index : Nat} {stage : Stage K} (home : AtHome page)
    (silent : asking? stage = none) : AtHome (page.goTo index stage) := by
  refine ⟨forall_goTo home.dated ?_, home.unlocked, forall_goTo home.current ?_⟩
  · intro task _ user token asks
    rw [show asking? stage = none from silent] at asks
    cases asks
  · intro task _ user asks
    rw [show asking? stage = none from silent] at asks
    cases asks

/-- A probe concludes: the state it publishes is the shown account's. -/
theorem conclude {index token : Nat} {state : EncryptionState K} (home : AtHome page)
    (own : page.ctx.generation.count = token → ∀ key, state = .unlocked key →
      page.user = some key.user) :
    AtHome ({ page with ctx := page.ctx.publishIf token state }.goTo index .finished) := by
  have published : AtHome { page with ctx := page.ctx.publishIf token state } := by
    refine AtHome.congr home rfl rfl (by simp) ?_
    intro key unlocked
    simp only [EncryptionCtx.publishIf, EncryptionCtx.mayPublish,
      Generation.isCurrent_iff] at unlocked
    split at unlocked
    · next current => exact own current key unlocked
    · exact home.unlocked key unlocked
  exact published.drop rfl

theorem statusAnswered {index token : Nat} {user : String}
    {answer : Option EncryptionStatus} (home : AtHome page)
    (suspended : page.stage? index = some (.probing user token)) :
    AtHome (page.statusAnswered index user token answer) := by
  unfold Page.statusAnswered
  dsimp only
  split
  · exact home.conclude nofun
  · split
    · exact home.conclude nofun
    · exact home.conclude nofun
    · exact home.goTo suspended fun _ _ asks => asks

/-- The key a probe restores is its own account's, the one it was asked about. -/
theorem keystoreRead {index token : Nat} {user : String} {forgets : Forgets}
    {failed : Bool} (home : AtHome page)
    (suspended : page.stage? index = some (.restoring user token forgets)) :
    AtHome (page.keystoreRead index user token forgets failed) := by
  unfold Page.keystoreRead
  dsimp only
  split
  · exact home.conclude nofun
  · split
    · exact home.conclude nofun
    · next record stored =>
        split
        · exact home.drop rfl
        · apply home.conclude
          intro current key unlocked
          cases unlocked
          obtain ⟨task, found, stage⟩ := stage?_eq_some.mp suspended
          apply home.current task (List.mem_of_getElem? found)
          rw [stage, current]
          rfl

theorem reprobe {row : UnreadableRow} (home : AtHome page) :
    AtHome (page.reprobe row) := by
  unfold Page.reprobe
  split
  · exact home
  · next meanwhile contradicted =>
      have keyless := key_of_contradictedBy contradicted
      split
      · dsimp only
        split
        · exact AtHome.startProbe keyless home.dated
        · exact home.congr rfl rfl rfl home.unlocked
      · exact AtHome.startProbe keyless home.dated

/-- Before it publishes, a ceremony looks at the account again. -/
theorem afterRemember {index token : Nat} {key : SessionKey K} (home : AtHome page) :
    AtHome (page.afterRemember index token key) := by
  unfold Page.afterRemember
  split
  · exact AtHome.drop (home.congr rfl rfl rfl home.unlocked) rfl
  · next account =>
      split
      · exact home.drop rfl
      · apply AtHome.drop _ rfl
        refine AtHome.congr home rfl rfl rfl ?_
        intro other unlocked
        cases unlocked
        simpa [isCurrentAccount] using account

theorem enterUnlock {index : Nat} {key : SessionKey K} (home : AtHome page) :
    AtHome (page.enterUnlock index key) := by
  have entered : AtHome { page with ctx := page.ctx.beginProbe.publish .locked } :=
    home.newer rfl rfl nofun
  unfold Page.enterUnlock
  split
  · exact home.drop rfl
  · dsimp only
    split
    · exact entered.drop rfl
    · exact entered.afterRemember

end AtHome

/-! ## Every step -/

theorem atHome_initial (user : Option String) (keystore : Option (Record K)) :
    AtHome (Page.initial user keystore) := by
  refine ⟨nofun, ?_, nofun⟩
  intro key unlocked
  cases user <;> cases unlocked

/-- A step that leaves the user alone keeps the key at home; one that changes
the user leaves no token from the future. -/
theorem atHome_systemStep {next : Page K} {event : Event K} (home : AtHome page)
    (taken : System.step page event = some next) :
    (changesUser event = false → AtHome next) ∧ Dated next := by
  have outranked : ∀ {later : Page K}, later.tasks = page.outrank.tasks →
      later.ctx.generation.count = page.ctx.generation.count + 1 →
      (∀ key, later.ctx.state = .unlocked key → later.user = some key.user) →
      AtHome later := by
    intro later tasks count unlocked
    have marked : AtHome page.outrank := by
      refine ⟨?_, home.unlocked, ?_⟩
      · intro task member
        obtain ⟨old, earlier, rfl⟩ := mem_outrank.mp member
        exact home.dated old earlier
      · intro task member
        obtain ⟨old, earlier, rfl⟩ := mem_outrank.mp member
        exact home.current old earlier
    exact marked.newer tasks count unlocked
  suffices kept : AtHome next ∨ changesUser event = true ∧ Dated next by
    obtain kept | ⟨changes, dated⟩ := kept
    · exact ⟨fun _ => kept, kept.dated⟩
    · refine ⟨fun same => ?_, dated⟩
      rw [changes] at same
      cases same
  cases step_eq_some.mp taken with
  | userChanged user => exact .inr ⟨rfl, home.dated⟩
  | startProbe => exact .inl (AtHome.startProbe rfl home.dated)
  | rowSeen row => exact .inl home.reprobe
  | statusAnswered answer suspended => exact .inl (home.statusAnswered suspended)
  | keystoreRead failed suspended => exact .inl (home.keystoreRead suspended)
  | discarded failed suspended =>
      apply Or.inl
      have left := home.withKeystore (if failed then page.keystore else none)
      exact left.conclude fun _ _ unlocked => by cases unlocked
  | beginCeremony user => exact .inl (home.spawn rfl)
  | keyOpened key suspended => exact .inl (home.drop rfl)
  | ceremonyFailed suspended => exact .inl (home.drop rfl)
  | enterUnlock suspended => exact .inl home.enterUnlock
  | putCommitted suspended =>
      exact .inl (AtHome.drop (home.withKeystore _) rfl)
  | putFailed suspended => exact .inl (home.drop rfl)
  | resumeUnlock suspended => exact .inl home.afterRemember
  | lock => exact .inl (AtHome.spawn (outranked rfl rfl nofun) rfl)
  | signingOut => exact .inl (AtHome.spawn (outranked rfl rfl home.unlocked) rfl)
  | forget suspended =>
      exact .inl (AtHome.drop (home.congr rfl rfl rfl home.unlocked) rfl)
  | deleteCommitted suspended =>
      apply Or.inl
      apply (home.withKeystore none).drop
      split <;> rfl
  | deleteFailed suspended =>
      apply Or.inl
      apply home.drop
      split <;> rfl
  | sessionEnded accepted suspended =>
      cases accepted with
      | false => exact .inl (home.drop rfl)
      | true => exact .inr ⟨rfl, forall_goTo home.dated nofun⟩

theorem atHome_step {next : Page K} {event : TabEvent K} (home : AtHome page)
    (taken : step page event = some next) : AtHome next := by
  cases event with
  | elsewhere record =>
      cases taken
      exact home.withKeystore record
  | own event =>
      obtain ⟨stepped, moved, rfl⟩ := Option.map_eq_some_iff.mp taken
      obtain ⟨kept, dated⟩ := atHome_systemStep home moved
      split
      · exact AtHome.startProbe rfl dated
      · next same => exact kept (by simpa using same)

/-- In every state a tab reaches, an unlocked key is the account's it shows. -/
theorem unlocked_key_is_shown_account {user : Option String}
    {keystore : Option (Record K)} {events : List (TabEvent K)} {last : Page K}
    (run : runFrom step (Page.initial user keystore) events = some last) (key : SessionKey K)
    (unlocked : last.ctx.state = .unlocked key) : last.user = some key.user :=
  (invariant_runFrom (fun _ _ _ home taken => atHome_step home taken)
    (atHome_initial user keystore) run).unlocked key unlocked

/-- A probe finds the device's key for the account shown. -/
theorem unlocked_key_is_shown_account_restored :
    ∃ last : Page Nat,
      runFrom step (Page.initial (some "ada") (some ⟨"ada", 7⟩))
        [.own .startProbe, .own (.statusAnswered 0 (some ⟨"ada", true⟩)),
          .own (.keystoreRead 0 false)] = some last ∧
        last.ctx.state = .unlocked ⟨7, "ada", 0⟩ ∧ last.user = some "ada" := by
  have run : runFrom step (Page.initial (some "ada") (some ⟨"ada", 7⟩) : Page Nat)
      [.own .startProbe, .own (.statusAnswered 0 (some ⟨"ada", true⟩)),
        .own (.keystoreRead 0 false)] = some _ := rfl
  exact ⟨_, run, rfl, unlocked_key_is_shown_account run ⟨7, "ada", 0⟩ rfl⟩

end Steps

end TimeTracker.Tab.Rerun
