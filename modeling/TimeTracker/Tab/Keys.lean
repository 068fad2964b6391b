import TimeTracker.Tab.Rerun

/-!
# Where the keys of a page come from

A page has a key when it has published it, and a ceremony has one while it is
suspended with it.  The only keys there ever are were opened by a ceremony or
filed in the keystore, each under the user it was opened or filed for.
-/

namespace TimeTracker.Tab.Keys

open TimeTracker.Server.Functions
open TimeTracker.Tab.State
open TimeTracker.Tab.System
open TimeTracker.Tab.System.Page
open TimeTracker.Tab.Rerun

section Keys

variable {K : Type} (P : String → K → Prop)

/-- The key a suspended ceremony carries. -/
def carried? : Stage K → Option (SessionKey K)
  | .holding key | .remembering _ key _ => some key
  | _ => none

/-- Every key on the page and in the keystore satisfies `P` with its user. -/
structure Keyed (page : Page K) : Prop where
  unlocked : ∀ key, page.ctx.state = .unlocked key → P key.user key.key
  carried : ∀ task ∈ page.tasks, ∀ key, carried? task.stage = some key → P key.user key.key
  keystore : ∀ record, page.keystore = some record → P record.user record.key

variable {P} {Q : String → K → Prop} {page later : Page K}

namespace Keyed

theorem mono (implies : ∀ user key, P user key → Q user key) (keyed : Keyed P page) :
    Keyed Q page where
  unlocked key published := implies _ _ (keyed.unlocked key published)
  carried task member key carries := implies _ _ (keyed.carried task member key carries)
  keystore record filed := implies _ _ (keyed.keystore record filed)

theorem congr (keyed : Keyed P page) (tasks : later.tasks = page.tasks)
    (keystore : later.keystore = page.keystore)
    (unlocked : ∀ key, later.ctx.state = .unlocked key → P key.user key.key) :
    Keyed P later := by
  refine ⟨unlocked, ?_, ?_⟩
  · rw [tasks]
    exact keyed.carried
  · rw [keystore]
    exact keyed.keystore

theorem withKeystore (keyed : Keyed P page) {keystore : Option (Record K)}
    (filed : ∀ record, keystore = some record → P record.user record.key) :
    Keyed P { page with keystore } :=
  ⟨keyed.unlocked, keyed.carried, filed⟩

theorem spawn {stage : Stage K} (keyed : Keyed P page) (keyless : carried? stage = none) :
    Keyed P (page.spawn stage) := by
  refine ⟨keyed.unlocked, forall_spawn.mpr ⟨keyed.carried, ?_⟩, keyed.keystore⟩
  intro key carries
  rw [keyless] at carries
  cases carries

theorem goTo {index : Nat} {stage : Stage K} (keyed : Keyed P page)
    (moved : ∀ key, carried? stage = some key → P key.user key.key) :
    Keyed P (page.goTo index stage) :=
  ⟨keyed.unlocked, forall_goTo keyed.carried fun _ _ => moved, keyed.keystore⟩

theorem drop {index : Nat} {stage : Stage K} (keyed : Keyed P page)
    (keyless : carried? stage = none) : Keyed P (page.goTo index stage) := by
  apply keyed.goTo
  intro key carries
  rw [keyless] at carries
  cases carries

/-- The key a task is suspended with. -/
theorem at_stage {index : Nat} {stage : Stage K} {key : SessionKey K}
    (keyed : Keyed P page) (suspended : page.stage? index = some stage)
    (carries : carried? stage = some key) : P key.user key.key := by
  obtain ⟨task, found, rfl⟩ := stage?_eq_some.mp suspended
  exact keyed.carried task (List.mem_of_getElem? found) key carries

theorem startProbe {meanwhile : EncryptionState K} (keyless : meanwhile.key = none)
    (keyed : Keyed P page) : Keyed P (page.startProbe meanwhile) := by
  cases shown : page.user with
  | none =>
      rw [startProbe_of_none shown]
      exact keyed.congr rfl rfl nofun
  | some user =>
      rw [startProbe_of_some shown]
      refine spawn (keyed.congr rfl rfl ?_) rfl
      exact fun key unlocked => absurd unlocked (ne_unlocked_of_keyless keyless key)

theorem reprobe {row : UnreadableRow} (keyed : Keyed P page) : Keyed P (page.reprobe row) := by
  unfold Page.reprobe
  split
  · exact keyed
  · next meanwhile contradicted =>
      have keyless := key_of_contradictedBy contradicted
      split
      · dsimp only
        split
        · exact startProbe keyless (keyed.congr rfl rfl keyed.unlocked)
        · exact keyed.congr rfl rfl keyed.unlocked
      · exact startProbe keyless keyed

/-- A probe concludes with a state of its own. -/
theorem conclude {index token : Nat} {state : EncryptionState K} (keyed : Keyed P page)
    (own : ∀ key, state = .unlocked key → P key.user key.key) :
    Keyed P ({ page with ctx := page.ctx.publishIf token state }.goTo index .finished) := by
  have published : Keyed P { page with ctx := page.ctx.publishIf token state } := by
    refine keyed.congr rfl rfl ?_
    intro key unlocked
    simp only [EncryptionCtx.publishIf] at unlocked
    split at unlocked
    · exact own key unlocked
    · exact keyed.unlocked key unlocked
  exact published.drop rfl

theorem statusAnswered {index token : Nat} {user : String}
    {answer : Option EncryptionStatus} (keyed : Keyed P page) :
    Keyed P (page.statusAnswered index user token answer) := by
  unfold Page.statusAnswered
  dsimp only
  split
  · exact keyed.conclude nofun
  · split
    · exact keyed.conclude nofun
    · exact keyed.conclude nofun
    · exact keyed.drop rfl

/-- A probe publishes the keystore's key under the user it is filed under. -/
theorem keystoreRead {index token : Nat} {user : String} {forgets : Forgets}
    {failed : Bool} (keyed : Keyed P page) :
    Keyed P (page.keystoreRead index user token forgets failed) := by
  unfold Page.keystoreRead
  dsimp only
  split
  · exact keyed.conclude nofun
  · split
    · exact keyed.conclude nofun
    · next record filed =>
        split
        · exact keyed.drop rfl
        · next same =>
            apply keyed.conclude
            intro key unlocked
            cases unlocked
            obtain rfl := not_not.mp same
            exact keyed.keystore record filed

theorem afterRemember {index token : Nat} {key : SessionKey K} (keyed : Keyed P page)
    (own : P key.user key.key) : Keyed P (page.afterRemember index token key) := by
  unfold Page.afterRemember
  split
  · exact drop (keyed.congr rfl rfl keyed.unlocked) rfl
  · split
    · exact keyed.drop rfl
    · refine drop (keyed.congr rfl rfl ?_) rfl
      intro other unlocked
      cases unlocked
      exact own

theorem enterUnlock {index : Nat} {key : SessionKey K} (keyed : Keyed P page)
    (own : P key.user key.key) : Keyed P (page.enterUnlock index key) := by
  have entered : Keyed P { page with ctx := page.ctx.beginProbe.publish .locked } :=
    keyed.congr rfl rfl nofun
  unfold Page.enterUnlock
  split
  · exact keyed.drop rfl
  · dsimp only
    split
    · apply entered.goTo
      intro other carries
      cases carries
      exact own
    · exact entered.afterRemember own

end Keyed

/-! ## Every step -/

/-- The keys of a page stay as they should be when those its ceremonies open are. -/
theorem keyed_systemStep {next : Page K} {event : Event K} (keyed : Keyed P page)
    (opens : ∀ task key user forgets, event = .keyOpened task key →
      page.stage? task = some (.opening user forgets) → P user key)
    (taken : System.step page event = some next) : Keyed P next := by
  have outranked : Keyed P page.outrank := by
    refine ⟨keyed.unlocked, ?_, keyed.keystore⟩
    intro task member
    obtain ⟨old, earlier, rfl⟩ := mem_outrank.mp member
    exact keyed.carried old earlier
  cases step_eq_some.mp taken with
  | userChanged user => exact keyed.congr rfl rfl keyed.unlocked
  | startProbe => exact keyed.startProbe rfl
  | rowSeen row => exact keyed.reprobe
  | statusAnswered answer suspended => exact keyed.statusAnswered
  | keystoreRead failed suspended => exact keyed.keystoreRead
  | discarded failed suspended =>
      have left : Keyed P { page with
          keystore := if failed then page.keystore else none } := by
        apply keyed.withKeystore
        intro record filed
        split at filed
        · exact keyed.keystore record filed
        · cases filed
      exact left.conclude nofun
  | beginCeremony user => exact keyed.spawn rfl
  | keyOpened key suspended =>
      apply keyed.goTo
      intro other carries
      cases carries
      exact opens _ _ _ _ rfl suspended
  | ceremonyFailed suspended => exact keyed.drop rfl
  | enterUnlock suspended => exact keyed.enterUnlock (keyed.at_stage suspended rfl)
  | putCommitted suspended =>
      have own := keyed.at_stage suspended rfl
      apply Keyed.goTo
      · apply keyed.withKeystore
        intro record filed
        cases filed
        exact own
      · intro other carries
        cases carries
        exact own
  | putFailed suspended =>
      apply keyed.goTo
      intro other carries
      cases carries
      exact keyed.at_stage suspended rfl
  | resumeUnlock suspended => exact keyed.afterRemember (keyed.at_stage suspended rfl)
  | lock => exact Keyed.spawn (outranked.congr rfl rfl nofun) rfl
  | signingOut => exact Keyed.spawn (outranked.congr rfl rfl keyed.unlocked) rfl
  | forget suspended => exact Keyed.drop (keyed.congr rfl rfl keyed.unlocked) rfl
  | deleteCommitted suspended =>
      have forgotten : Keyed P { page with keystore := none } := keyed.withKeystore nofun
      apply forgotten.drop
      split <;> rfl
  | deleteFailed suspended =>
      apply keyed.drop
      split <;> rfl
  | sessionEnded accepted suspended =>
      exact Keyed.drop (keyed.congr rfl rfl keyed.unlocked) rfl

/-- The same with the probe effect re-run by a change of the user. -/
theorem keyed_step {next : Page K} {event : Event K} (keyed : Keyed P page)
    (opens : ∀ task key user forgets, event = .keyOpened task key →
      page.stage? task = some (.opening user forgets) → P user key)
    (taken : Rerun.step page (.own event) = some next) : Keyed P next := by
  obtain ⟨stepped, moved, rfl⟩ := Option.map_eq_some_iff.mp taken
  have kept := keyed_systemStep keyed opens moved
  split
  · exact kept.startProbe rfl
  · exact kept

end Keys

end TimeTracker.Tab.Keys
