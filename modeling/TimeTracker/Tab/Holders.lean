import TimeTracker.Tab.Rerun

/-!
# Who holds the newest token

Every path that publishes takes a token of its own, so at most one task in
flight holds the newest one, and while a key is published nobody does.
-/

namespace TimeTracker.Tab.Holders

open TimeTracker.Library.Run
open TimeTracker.Server.Functions
open TimeTracker.Tab.State
open TimeTracker.Tab.System
open TimeTracker.Tab.System.Page
open TimeTracker.Tab.Rerun

section Holders

variable {K : Type} {page later : Page K}

theorem stage?_goTo_of_ne {index other : Nat} {stage : Stage K} (apart : other ≠ index) :
    (page.goTo index stage).stage? other = page.stage? other := by
  rw [stage?, getElem?_goTo_of_ne apart, stage?]

theorem stage?_goTo_eq_some {index other : Nat} {stage found : Stage K} :
    (page.goTo index stage).stage? other = some found →
      other = index ∧ found = stage ∨ other ≠ index ∧ page.stage? other = some found := by
  intro here
  by_cases same : other = index
  · subst same
    rw [stage?, goTo, List.getElem?_modify_eq, Option.map_eq_some_iff] at here
    obtain ⟨moved, at_index, rfl⟩ := here
    obtain ⟨old, -, rfl⟩ := Option.map_eq_some_iff.mp at_index
    exact .inl ⟨rfl, rfl⟩
  · rw [stage?_goTo_of_ne same] at here
    exact .inr ⟨same, here⟩

theorem stage?_spawn_eq_some {stage found : Stage K} {index : Nat} :
    (page.spawn stage).stage? index = some found →
      page.stage? index = some found ∨ index = page.tasks.length ∧ found = stage := by
  intro here
  simp only [stage?, spawn, Option.map_eq_some_iff] at here ⊢
  obtain ⟨task, at_index, rfl⟩ := here
  by_cases old : index < page.tasks.length
  · rw [List.getElem?_append_left old] at at_index
    exact .inl ⟨task, at_index, rfl⟩
  · have last : index = page.tasks.length := by
      have inside := (List.getElem?_eq_some_iff.mp at_index).1
      rw [List.length_append, List.length_singleton] at inside
      omega
    rw [last, List.getElem?_concat_length] at at_index
    cases at_index
    exact .inr ⟨last, rfl⟩

theorem stage?_outrank (index : Nat) : page.outrank.stage? index = page.stage? index := by
  simp only [stage?, outrank, List.getElem?_map, Option.map_map]
  rfl

/-! ## The newest token -/

/-- The task is suspended with the newest token. -/
def Holds (page : Page K) (index : Nat) : Prop :=
  ∃ stage, page.stage? index = some stage ∧
    stage.token? = some page.ctx.generation.count

/-- No token is from the future, and at most one task holds the newest; none
does while a key is published. -/
structure OneHolder (page : Page K) : Prop where
  issued : ∀ index stage token, page.stage? index = some stage →
    stage.token? = some token → token ≤ page.ctx.generation.count
  sole : ∀ index other, Holds page index → Holds page other → index = other
  keyless : ∀ index, Holds page index → page.ctx.state.key = none

/-- A token that nobody holds. -/
structure NoHolder (page : Page K) : Prop where
  issued : ∀ index stage token, page.stage? index = some stage →
    stage.token? = some token → token ≤ page.ctx.generation.count
  free : ∀ index, ¬ Holds page index

theorem NoHolder.oneHolder (free : NoHolder page) : OneHolder page where
  issued := free.issued
  sole index _ holds := absurd holds (free.free index)
  keyless index holds := absurd holds (free.free index)

/-- Whoever takes a new token is, for the moment, without anyone who holds it. -/
theorem OneHolder.newer (held : OneHolder page)
    (stages : ∀ index, later.stage? index = page.stage? index)
    (count : later.ctx.generation.count = page.ctx.generation.count + 1) : NoHolder later where
  issued index stage token here holds := by
    rw [stages] at here
    have old := held.issued index stage token here holds
    omega
  free index := by
    rintro ⟨stage, here, holds⟩
    rw [stages] at here
    have old := held.issued index stage _ here holds
    omega

theorem NoHolder.congr (free : NoHolder page)
    (stages : ∀ index, later.stage? index = page.stage? index)
    (generation : later.ctx.generation = page.ctx.generation) : NoHolder later where
  issued index stage token here := by
    rw [stages] at here
    rw [generation]
    exact free.issued index stage token here
  free index := by
    rintro ⟨stage, here, holds⟩
    rw [stages] at here
    rw [generation] at holds
    exact free.free index ⟨stage, here, holds⟩

theorem OneHolder.congr (held : OneHolder page)
    (stages : ∀ index, later.stage? index = page.stage? index)
    (ctx : later.ctx.generation = page.ctx.generation)
    (state : later.ctx.state = page.ctx.state) : OneHolder later := by
  have same : ∀ index, Holds later index → Holds page index := by
    rintro index ⟨stage, here, holds⟩
    rw [stages] at here
    rw [ctx] at holds
    exact ⟨stage, here, holds⟩
  constructor
  · intro index stage token here
    rw [stages] at here
    rw [ctx]
    exact held.issued index stage token here
  · exact fun index other first second => held.sole index other (same _ first) (same _ second)
  · intro index holds
    rw [state]
    exact held.keyless index (same index holds)

/-- A new task may take the free token while no key is published. -/
theorem NoHolder.spawn {stage : Stage K} (free : NoHolder page)
    (newest : ∀ token, stage.token? = some token → token = page.ctx.generation.count)
    (keyless : page.ctx.state.key = none) : OneHolder (page.spawn stage) := by
  have holder : ∀ index, Holds (page.spawn stage) index → index = page.tasks.length := by
    rintro index ⟨found, here, holds⟩
    obtain old | ⟨last, -⟩ := stage?_spawn_eq_some here
    · exact absurd ⟨found, old, holds⟩ (free.free index)
    · exact last
  constructor
  · intro index found token here holds
    obtain old | ⟨-, rfl⟩ := stage?_spawn_eq_some here
    · exact free.issued index found token old holds
    · exact (newest token holds).le
  · exact fun index other first second => (holder index first).trans (holder other second).symm
  · exact fun _ _ => keyless

theorem OneHolder.spawn {stage : Stage K} (held : OneHolder page)
    (silent : stage.token? = none) : OneHolder (page.spawn stage) := by
  have old : ∀ index found token, (page.spawn stage).stage? index = some found →
      found.token? = some token → page.stage? index = some found := by
    intro index found token here holds
    obtain old | ⟨-, rfl⟩ := stage?_spawn_eq_some here
    · exact old
    · rw [silent] at holds
      cases holds
  have same : ∀ index, Holds (page.spawn stage) index → Holds page index :=
    fun index ⟨found, here, holds⟩ => ⟨found, old index found _ here holds, holds⟩
  exact ⟨fun index found token here holds =>
      held.issued index found token (old index found token here holds) holds,
    fun index other first second => held.sole index other (same _ first) (same _ second),
    fun index holds => held.keyless index (same index holds)⟩

/-- A task may take the free token while no key is published. -/
theorem NoHolder.goTo {index : Nat} {stage : Stage K} (free : NoHolder page)
    (newest : ∀ token, stage.token? = some token → token = page.ctx.generation.count)
    (keyless : ∀ token, stage.token? = some token → page.ctx.state.key = none) :
    OneHolder (page.goTo index stage) := by
  have holder : ∀ other, Holds (page.goTo index stage) other →
      other = index ∧ stage.token? = some page.ctx.generation.count := by
    rintro other ⟨found, here, holds⟩
    obtain ⟨same, rfl⟩ | ⟨-, old⟩ := stage?_goTo_eq_some here
    · exact ⟨same, holds⟩
    · exact absurd ⟨found, old, holds⟩ (free.free other)
  constructor
  · intro other found token here holds
    obtain ⟨-, rfl⟩ | ⟨-, old⟩ := stage?_goTo_eq_some here
    · exact (newest token holds).le
    · exact free.issued other found token old holds
  · exact fun first second left right => (holder first left).1.trans (holder second right).1.symm
  · exact fun other holds => keyless _ (holder other holds).2

/-- A task may move on with the token it holds, or without it. -/
theorem OneHolder.goTo {index : Nat} {old stage : Stage K} (held : OneHolder page)
    (suspended : page.stage? index = some old)
    (kept : ∀ token, stage.token? = some token → old.token? = some token) :
    OneHolder (page.goTo index stage) := by
  have back : ∀ other found token, (page.goTo index stage).stage? other = some found →
      found.token? = some token → ∃ before, page.stage? other = some before ∧
        before.token? = some token := by
    intro other found token here holds
    obtain ⟨rfl, rfl⟩ | ⟨-, before⟩ := stage?_goTo_eq_some here
    · exact ⟨old, suspended, kept token holds⟩
    · exact ⟨found, before, holds⟩
  have same : ∀ other, Holds (page.goTo index stage) other → Holds page other :=
    fun other ⟨found, here, holds⟩ => back other found _ here holds
  constructor
  · intro other found token here holds
    obtain ⟨before, at_other, carried⟩ := back other found token here holds
    exact held.issued other before token at_other carried
  · exact fun first second left right => held.sole first second (same _ left) (same _ right)
  · exact fun other holds => held.keyless other (same other holds)

/-- A task may let its token go. -/
theorem OneHolder.letGo {index : Nat} {old stage : Stage K} (held : OneHolder page)
    (suspended : page.stage? index = some old) (free : stage.token? = none) :
    OneHolder (page.goTo index stage) := by
  refine held.goTo suspended fun token holds => ?_
  rw [free] at holds
  cases holds

/-- The only holder of the token leaves it to nobody. -/
theorem OneHolder.release {index : Nat} {old : Stage K} (held : OneHolder page)
    (suspended : page.stage? index = some old)
    (holds : old.token? = some page.ctx.generation.count) :
    NoHolder (page.goTo index .finished) where
  issued other found token here carried := by
    obtain ⟨-, rfl⟩ | ⟨-, before⟩ := stage?_goTo_eq_some here
    · cases carried
    · exact held.issued other found token before carried
  free other := by
    rintro ⟨found, here, carried⟩
    obtain ⟨-, rfl⟩ | ⟨apart, before⟩ := stage?_goTo_eq_some here
    · cases carried
    · exact apart (held.sole other index ⟨found, before, carried⟩ ⟨old, suspended, holds⟩)

/-- A task that publishes under its token, if it still may, and ends. -/
theorem OneHolder.conclude {index token : Nat} {old : Stage K} {state : EncryptionState K}
    (held : OneHolder page) (suspended : page.stage? index = some old)
    (holds : old.token? = some token) :
    OneHolder
      ({ page with ctx := page.ctx.publishIf token state }.goTo index .finished) := by
  by_cases current : page.ctx.generation.count = token
  · have free := held.release suspended (holds.trans (congrArg some current.symm))
    have left : NoHolder
        ({ page with ctx := page.ctx.publishIf token state }.goTo index .finished) :=
      free.congr (fun _ => rfl) (by simp [System.Page.goTo])
    exact left.oneHolder
  · rw [EncryptionCtx.publishIf_stale _ _ _ current]
    exact held.letGo suspended rfl

/-! ## Every step -/

namespace OneHolder

/-- A probe takes the newest token, and parks the state where no key is. -/
theorem startProbe {meanwhile : EncryptionState K} (held : OneHolder page)
    (keyless : meanwhile.key = none) : OneHolder (page.startProbe meanwhile) := by
  cases shown : page.user with
  | none =>
      rw [startProbe_of_none shown]
      exact NoHolder.oneHolder (held.newer (fun _ => rfl) rfl)
  | some user =>
      rw [startProbe_of_some shown]
      have free : NoHolder { page with ctx := page.ctx.beginProbe.publish meanwhile } :=
        held.newer (fun _ => rfl) rfl
      apply free.spawn
      · intro token holds
        cases holds
        rfl
      · exact keyless

theorem statusAnswered {index token : Nat} {user : String}
    {answer : Option EncryptionStatus} (held : OneHolder page)
    (suspended : page.stage? index = some (.probing user token)) :
    OneHolder (page.statusAnswered index user token answer) := by
  unfold Page.statusAnswered
  dsimp only
  split
  · exact held.conclude suspended rfl
  · split
    · exact held.conclude suspended rfl
    · exact held.conclude suspended rfl
    · exact held.goTo suspended fun _ holds => holds

theorem keystoreRead {index token : Nat} {user : String} {forgets : Forgets}
    {failed : Bool} (held : OneHolder page)
    (suspended : page.stage? index = some (.restoring user token forgets)) :
    OneHolder (page.keystoreRead index user token forgets failed) := by
  unfold Page.keystoreRead
  dsimp only
  split
  · exact held.conclude suspended rfl
  · split
    · exact held.conclude suspended rfl
    · split
      · exact held.goTo suspended fun _ holds => holds
      · exact held.conclude suspended rfl

theorem reprobe {row : UnreadableRow} (held : OneHolder page) :
    OneHolder (page.reprobe row) := by
  unfold Page.reprobe
  split
  · exact held
  · next meanwhile contradicted =>
      have keyless := key_of_contradictedBy contradicted
      split
      · dsimp only
        split
        · have claimed : OneHolder { page with ctx := page.ctx.claimReprobe.2 } :=
            held.congr (fun _ => rfl) rfl rfl
          exact claimed.startProbe keyless
        · exact held.congr (fun _ => rfl) rfl rfl
      · exact held.startProbe keyless

/-- A ceremony that may publish holds the token, and ends with it. -/
theorem afterRemember {index token : Nat} {key : SessionKey K} {old : Stage K}
    (held : OneHolder page) (suspended : page.stage? index = some old)
    (holds : old.token? = some token) : OneHolder (page.afterRemember index token key) := by
  unfold Page.afterRemember
  split
  · have counted : OneHolder page.recordForget := held.congr (fun _ => rfl) rfl rfl
    exact counted.letGo suspended rfl
  · split
    · exact held.letGo suspended rfl
    · next may =>
        have current : page.ctx.generation.count = token := by
          simpa [EncryptionCtx.mayPublish] using may
        have free := held.release suspended (holds.trans (congrArg some current.symm))
        exact NoHolder.oneHolder (free.congr (fun _ => rfl) rfl)

theorem enterUnlock {index : Nat} {key : SessionKey K} (held : OneHolder page)
    (suspended : page.stage? index = some (.holding key)) :
    OneHolder (page.enterUnlock index key) := by
  have free : NoHolder { page with ctx := page.ctx.beginProbe.publish .locked } :=
    held.newer (fun _ => rfl) rfl
  unfold Page.enterUnlock
  split
  · exact held.letGo suspended rfl
  · dsimp only
    split
    · apply free.goTo
      · intro token holds
        cases holds
        rfl
      · exact fun _ _ => rfl
    · -- The key was to be forgotten: nobody ever holds the token.
      unfold Page.afterRemember
      split
      · have counted : NoHolder
            { page with ctx := page.ctx.beginProbe.publish .locked }.recordForget :=
          free.congr (fun _ => rfl) rfl
        exact counted.goTo nofun nofun
      · split
        · exact free.goTo nofun nofun
        · have opened : NoHolder
              { page with
                ctx := (page.ctx.beginProbe.publish .locked).publish (.unlocked key) } :=
            free.congr (fun _ => rfl) rfl
          exact opened.goTo nofun nofun

end OneHolder

theorem oneHolder_initial (user : Option String) (keystore : Option (Record K)) :
    OneHolder (Page.initial user keystore) := by
  have idle : NoHolder (Page.initial user keystore) := by
    refine ⟨nofun, ?_⟩
    rintro index ⟨stage, here, -⟩
    cases here
  exact idle.oneHolder

theorem oneHolder_systemStep {next : Page K} {event : Event K} (held : OneHolder page)
    (taken : System.step page event = some next) : OneHolder next := by
  have same : ∀ {later : Page K}, later.tasks = page.tasks → later.ctx = page.ctx →
      OneHolder later := by
    intro later tasks ctx
    refine held.congr (fun index => ?_) (by rw [ctx]) (by rw [ctx])
    rw [stage?, tasks, stage?]
  have outranked : ∀ {later : Page K}, later.tasks = page.outrank.tasks →
      later.ctx.generation.count = page.ctx.generation.count + 1 → OneHolder later := by
    intro later tasks count
    refine NoHolder.oneHolder (held.newer (fun index => ?_) count)
    rw [stage?, tasks, ← stage?_outrank, stage?]
  cases step_eq_some.mp taken with
  | userChanged user => exact same rfl rfl
  | startProbe => exact held.startProbe rfl
  | rowSeen row => exact held.reprobe
  | statusAnswered answer suspended => exact held.statusAnswered suspended
  | keystoreRead failed suspended => exact held.keystoreRead suspended
  | discarded failed suspended =>
      have left : OneHolder
          { page with keystore := if failed then page.keystore else none } := same rfl rfl
      exact left.conclude suspended rfl
  | beginCeremony user => exact held.spawn rfl
  | keyOpened key suspended => exact held.letGo suspended rfl
  | ceremonyFailed suspended => exact held.letGo suspended rfl
  | enterUnlock suspended => exact held.enterUnlock suspended
  | @putCommitted task token key suspended =>
      have stored : OneHolder
          { page with keystore := some { user := key.user, key := key.key } } := same rfl rfl
      exact stored.goTo suspended fun _ holds => holds
  | putFailed suspended => exact held.goTo suspended fun _ holds => holds
  | resumeUnlock suspended => exact held.afterRemember suspended rfl
  | lock => exact OneHolder.spawn (outranked rfl rfl) rfl
  | signingOut => exact OneHolder.spawn (outranked rfl rfl) rfl
  | forget suspended =>
      have counted : OneHolder page.recordForget := same rfl rfl
      exact counted.letGo suspended rfl
  | @deleteCommitted task endsSession suspended =>
      have left : OneHolder { page with keystore := none } := same rfl rfl
      refine left.letGo suspended ?_
      cases endsSession <;> rfl
  | @deleteFailed task endsSession suspended =>
      refine held.letGo suspended ?_
      cases endsSession <;> rfl
  | sessionEnded accepted suspended =>
      have ended : OneHolder { page with user := if accepted then none else page.user } :=
        same rfl rfl
      exact ended.letGo suspended rfl

/-- In every state a tab reaches, at most one task holds the newest token, and
none does while a key is published. -/
theorem oneHolder_step {next : Page K} {event : TabEvent K} (held : OneHolder page)
    (taken : Rerun.step page event = some next) : OneHolder next := by
  cases event with
  | elsewhere record =>
      cases taken
      exact held.congr (fun _ => rfl) rfl rfl
  | own event =>
      obtain ⟨stepped, moved, rfl⟩ := Option.map_eq_some_iff.mp taken
      have kept := oneHolder_systemStep held moved
      split
      · exact kept.startProbe rfl
      · exact kept

/-! ## What never goes back -/

/-- Keys are only ever added, and the latch stays spent. -/
structure Onward (ctx later : EncryptionCtx K) : Prop where
  keys : ctx.keys ≤ later.keys
  reprobed : ctx.reprobed = true → later.reprobed = true

namespace Onward

variable {ctx middle next : EncryptionCtx K}

theorem refl (ctx : EncryptionCtx K) : Onward ctx ctx :=
  ⟨le_rfl, id⟩

theorem trans (first : Onward ctx middle) (second : Onward middle next) : Onward ctx next :=
  ⟨first.keys.trans second.keys, second.reprobed ∘ first.reprobed⟩

theorem publish (ctx : EncryptionCtx K) (state : EncryptionState K) :
    Onward ctx (ctx.publish state) := by
  refine ⟨?_, id⟩
  unfold EncryptionCtx.publish
  dsimp only
  split <;> omega

theorem publishIf (ctx : EncryptionCtx K) (token : Nat) (state : EncryptionState K) :
    Onward ctx (ctx.publishIf token state) := by
  unfold EncryptionCtx.publishIf
  split
  · exact publish ctx state
  · exact refl ctx

theorem beginProbe (ctx : EncryptionCtx K) : Onward ctx ctx.beginProbe :=
  ⟨le_rfl, id⟩

theorem beginPublish (ctx : EncryptionCtx K) (state : EncryptionState K) :
    Onward ctx (ctx.beginProbe.publish state) :=
  (beginProbe ctx).trans (publish ctx.beginProbe state)

theorem startProbe {page : Page K} (before : Onward ctx page.ctx)
    (meanwhile : EncryptionState K) : Onward ctx (page.startProbe meanwhile).ctx := by
  cases shown : page.user with
  | none =>
      rw [startProbe_of_none shown]
      exact before.trans (beginPublish page.ctx .disabled)
  | some user =>
      rw [startProbe_of_some shown]
      exact before.trans (beginPublish page.ctx meanwhile)

theorem reprobe (page : Page K) (row : UnreadableRow) :
    Onward page.ctx (page.reprobe row).ctx := by
  have claimed : Onward page.ctx page.ctx.claimReprobe.2 := ⟨le_rfl, fun _ => rfl⟩
  unfold Page.reprobe
  split
  · exact refl _
  · split
    · dsimp only
      split
      · exact startProbe claimed _
      · exact claimed
    · exact startProbe (refl _) _

theorem afterRemember {page : Page K} (before : Onward ctx page.ctx) (index token : Nat)
    (key : SessionKey K) : Onward ctx (page.afterRemember index token key).ctx := by
  unfold Page.afterRemember
  split
  · exact before
  · split
    · exact before
    · exact before.trans (publish page.ctx _)

end Onward

theorem onward_systemStep {next : Page K} {event : Event K}
    (taken : System.step page event = some next) : Onward page.ctx next.ctx := by
  have conclude : ∀ token state, Onward page.ctx (page.ctx.publishIf token state) :=
    Onward.publishIf page.ctx
  cases step_eq_some.mp taken with
  | startProbe => exact Onward.startProbe (Onward.refl _) _
  | rowSeen row => exact Onward.reprobe _ _
  | statusAnswered answer suspended =>
      unfold Page.statusAnswered
      dsimp only
      repeat' split
      all_goals first | exact conclude _ _ | exact Onward.refl page.ctx
  | keystoreRead failed suspended =>
      unfold Page.keystoreRead
      dsimp only
      repeat' split
      all_goals first | exact conclude _ _ | exact Onward.refl page.ctx
  | discarded failed suspended => exact conclude _ _
  | enterUnlock suspended =>
      unfold Page.enterUnlock
      split
      · exact Onward.refl page.ctx
      · dsimp only
        split
        · exact Onward.beginPublish page.ctx .locked
        · exact Onward.afterRemember (Onward.beginPublish page.ctx .locked) _ _ _
  | resumeUnlock suspended => exact Onward.afterRemember (Onward.refl _) _ _ _
  | lock => exact Onward.beginPublish page.ctx .locked
  | signingOut => exact Onward.beginProbe page.ctx
  | userChanged | beginCeremony | keyOpened | ceremonyFailed | putCommitted | putFailed
  | forget | deleteCommitted | deleteFailed | sessionEnded => exact Onward.refl page.ctx

theorem onward_step {next : Page K} {event : TabEvent K}
    (taken : Rerun.step page event = some next) : Onward page.ctx next.ctx := by
  cases event with
  | elsewhere record =>
      cases taken
      exact Onward.refl _
  | own event =>
      obtain ⟨stepped, moved, rfl⟩ := Option.map_eq_some_iff.mp taken
      have kept := onward_systemStep moved
      split
      · exact Onward.startProbe kept _
      · exact kept

end Holders

end TimeTracker.Tab.Holders
