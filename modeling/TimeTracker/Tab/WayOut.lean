import TimeTracker.Tab.Rerun

/-!
# The way out of not knowing

A signed-in tab that does not know its encryption yet refuses every write, so
something must be on its way that will tell.  A sign-out takes the counter away
from the probe in flight and publishes nothing itself; if the server refuses it,
the tab keeps waiting for an answer that may no longer be published.  Exactly
these refusals leave a tab without a way out.
-/

namespace TimeTracker.Tab.WayOut

open TimeTracker.Library.Run
open TimeTracker.Server.Functions
open TimeTracker.Tab.State
open TimeTracker.Tab.System
open TimeTracker.Tab.System.Page
open TimeTracker.Tab.Rerun

section Waiting

variable {K : Type}

/-- The probe token of a task that is a probe in flight. -/
def probe? : Stage K → Option Nat
  | .probing _ token | .restoring _ token _ | .discarding token => some token
  | _ => none

/-- The task is a sign-out between the click and the server's answer. -/
def signingOut : Stage K → Bool
  | .leaving | .forgetting true | .endingSession => true
  | _ => false

/-- A probe in flight may still publish its answer. -/
def CurrentProbe (page : Page K) : Prop :=
  ∃ task ∈ page.tasks, probe? task.stage = some page.ctx.generation.count

/-- A sign-out is waiting for the keystore or for the server. -/
def PendingSignOut (page : Page K) : Prop :=
  ∃ task ∈ page.tasks, signingOut task.stage = true

instance (page : Page K) : Decidable (CurrentProbe page) :=
  inferInstanceAs (Decidable (∃ task ∈ page.tasks, _))

instance (page : Page K) : Decidable (PendingSignOut page) :=
  inferInstanceAs (Decidable (∃ task ∈ page.tasks, _))

/-- A signed-in tab that does not know its state has something under way. -/
def HasWayOut (page : Page K) : Prop :=
  page.user ≠ none → page.ctx.state = .unknown → CurrentProbe page ∨ PendingSignOut page

/-- The server refuses the only sign-out pending, in a signed-in tab that still
does not know its state and whose newest token no probe in flight holds. -/
def Strands (page : Page K) : TabEvent K → Prop
  | .own (.sessionEnded task false) =>
      page.user ≠ none ∧ page.ctx.state = .unknown ∧ ¬ CurrentProbe page ∧
        ∀ other ≠ task, ∀ stage, page.stage? other = some stage → signingOut stage = false
  | _ => False

/-! ## What keeps a way out -/

variable {page later : Page K}

namespace HasWayOut

theorem of_known (known : page.ctx.state ≠ .unknown) : HasWayOut page :=
  fun _ unknown => absurd unknown known

/-- Starting a probe is a way out, or an answer. -/
theorem startProbe (meanwhile : EncryptionState K) :
    HasWayOut (page.startProbe meanwhile) := by
  cases shown : page.user with
  | none =>
      rw [startProbe_of_none shown]
      exact of_known nofun
  | some user =>
      rw [startProbe_of_some shown]
      exact fun _ _ => .inl ⟨_, List.mem_append_right _ (List.mem_singleton_self _), rfl⟩

/-- Only the user, the context and the tasks matter. -/
theorem congr (held : HasWayOut page) (user : later.user = page.user)
    (ctx : later.ctx = page.ctx) (tasks : later.tasks = page.tasks) : HasWayOut later := by
  unfold HasWayOut CurrentProbe PendingSignOut at *
  rw [user, ctx, tasks]
  exact held

theorem spawn (held : HasWayOut page) (stage : Stage K) : HasWayOut (page.spawn stage) := by
  intro signedIn unknown
  obtain ⟨task, member, current⟩ | ⟨task, member, pending⟩ := held signedIn unknown
  · exact .inl ⟨task, List.mem_append_left _ member, current⟩
  · exact .inr ⟨task, List.mem_append_left _ member, pending⟩

/-- A task may move on if it is not the way out, or remains it. -/
theorem goTo {index : Nat} {old stage : Stage K} (held : HasWayOut page)
    (suspended : page.stage? index = some old)
    (probes : probe? old = some page.ctx.generation.count →
      probe? stage = some page.ctx.generation.count)
    (leaves : signingOut old = true → signingOut stage = true) :
    HasWayOut (page.goTo index stage) := by
  obtain ⟨moved, found, rfl⟩ := stage?_eq_some.mp suspended
  intro signedIn unknown
  obtain ⟨task, member, current⟩ | ⟨task, member, pending⟩ := held signedIn unknown
  · by_cases same : task = moved
    · subst same
      exact .inl ⟨_, mem_goTo found, probes current⟩
    · exact .inl ⟨task, mem_goTo_of_ne found member same, current⟩
  · by_cases same : task = moved
    · subst same
      exact .inr ⟨_, mem_goTo found, leaves pending⟩
    · exact .inr ⟨task, mem_goTo_of_ne found member same, pending⟩

/-- A probe that concludes has told, or was not the way out. -/
theorem conclude {index token : Nat} {old : Stage K} {state : EncryptionState K}
    (held : HasWayOut page) (suspended : page.stage? index = some old)
    (holds : probe? old = some token) (tells : state ≠ .unknown) :
    HasWayOut
      ({ page with ctx := page.ctx.publishIf token state }.goTo index .finished) := by
  by_cases current : page.ctx.generation.count = token
  · apply of_known
    simpa [System.Page.goTo, EncryptionCtx.publishIf, EncryptionCtx.mayPublish, current,
      EncryptionCtx.publish] using tells
  · rw [EncryptionCtx.publishIf_stale _ _ _ current]
    refine held.goTo suspended (fun newest => ?_) (fun leaves => ?_)
    · rw [holds] at newest
      exact absurd (Option.some.inj newest).symm current
    · cases old <;> cases holds <;> cases leaves

theorem statusAnswered {index token : Nat} {user : String}
    {answer : Option EncryptionStatus} (held : HasWayOut page)
    (suspended : page.stage? index = some (.probing user token)) :
    HasWayOut (page.statusAnswered index user token answer) := by
  unfold Page.statusAnswered
  dsimp only
  split
  · exact held.conclude suspended rfl nofun
  · split
    · exact held.conclude suspended rfl nofun
    · exact held.conclude suspended rfl nofun
    · exact held.goTo suspended (fun newest => newest) nofun

theorem keystoreRead {index token : Nat} {user : String} {forgets : Forgets}
    {failed : Bool} (held : HasWayOut page)
    (suspended : page.stage? index = some (.restoring user token forgets)) :
    HasWayOut (page.keystoreRead index user token forgets failed) := by
  unfold Page.keystoreRead
  dsimp only
  split
  · exact held.conclude suspended rfl nofun
  · split
    · exact held.conclude suspended rfl nofun
    · split
      · exact held.goTo suspended (fun newest => newest) nofun
      · exact held.conclude suspended rfl nofun

theorem reprobe {row : UnreadableRow} (held : HasWayOut page) :
    HasWayOut (page.reprobe row) := by
  unfold Page.reprobe
  split
  · exact held
  · next meanwhile contradicted =>
      split
      · dsimp only
        split
        · exact HasWayOut.startProbe meanwhile
        · -- The row contradicts a known state, which spending the latch leaves alone.
          apply of_known
          intro unknown
          rw [show page.ctx.state = .unknown from unknown] at contradicted
          cases row <;> cases contradicted
      · exact HasWayOut.startProbe meanwhile

theorem afterRemember {index token : Nat} {key : SessionKey K} {old : Stage K}
    (held : HasWayOut page) (suspended : page.stage? index = some old)
    (silent : probe? old = none) (stays : signingOut old = false) :
    HasWayOut (page.afterRemember index token key) := by
  have ends : ∀ {later : Page K} {stage : Stage K}, HasWayOut later →
      later.stage? index = some old → HasWayOut (later.goTo index stage) := by
    intro later stage held suspended
    refine held.goTo suspended (fun newest => ?_) (fun leaves => ?_)
    · rw [silent] at newest
      cases newest
    · rw [stays] at leaves
      cases leaves
  unfold Page.afterRemember
  split
  · exact ends (held.congr rfl rfl rfl) suspended
  · split
    · exact ends held suspended
    · exact of_known nofun

theorem enterUnlock {index : Nat} {key : SessionKey K} (held : HasWayOut page)
    (suspended : page.stage? index = some (.holding key)) :
    HasWayOut (page.enterUnlock index key) := by
  unfold Page.enterUnlock
  split
  · exact held.goTo suspended nofun nofun
  · dsimp only
    split
    · exact of_known nofun
    · exact afterRemember (of_known nofun) suspended rfl rfl

end HasWayOut

/-! ## Every step -/

/-- What a task that ends leaves is what the other tasks are. -/
theorem exists_goTo {P : Stage K → Prop} {index : Nat} {stage : Stage K} (ends : ¬ P stage) :
    (∃ task ∈ (page.goTo index stage).tasks, P task.stage) ↔
      ∃ other ≠ index, ∃ old, page.stage? other = some old ∧ P old := by
  constructor
  · rintro ⟨task, member, holds⟩
    obtain ⟨other, found⟩ := List.mem_iff_getElem?.mp member
    by_cases same : other = index
    · subst same
      rw [goTo, List.getElem?_modify_eq] at found
      obtain ⟨old, -, rfl⟩ := Option.map_eq_some_iff.mp found
      exact absurd holds ends
    · rw [getElem?_goTo_of_ne same] at found
      exact ⟨other, same, task.stage, stage?_eq_some.mpr ⟨task, found, rfl⟩, holds⟩
  · rintro ⟨other, apart, old, suspended, holds⟩
    obtain ⟨task, found, rfl⟩ := stage?_eq_some.mp suspended
    have kept : (page.goTo index stage).tasks[other]? = some task :=
      (getElem?_goTo_of_ne apart).trans found
    exact ⟨task, List.mem_of_getElem? kept, holds⟩

/-- A refused sign-out leaves a way out just when it does not strand the tab. -/
theorem hasWayOut_refused {task : Nat} (suspended : page.stage? task = some .endingSession) :
    HasWayOut (page.goTo task .finished) ↔ ¬ Strands page (.own (.sessionEnded task false)) := by
  have probes : CurrentProbe (page.goTo task .finished) ↔ CurrentProbe page := by
    have silent : ¬ probe? (.finished : Stage K) = some page.ctx.generation.count := nofun
    refine (exists_goTo (P := fun stage => probe? stage = some page.ctx.generation.count)
      silent).trans ⟨?_, ?_⟩
    · rintro ⟨other, -, old, found, current⟩
      obtain ⟨probe, at_other, rfl⟩ := stage?_eq_some.mp found
      exact ⟨probe, List.mem_of_getElem? at_other, current⟩
    · rintro ⟨probe, member, current⟩
      obtain ⟨other, found⟩ := List.mem_iff_getElem?.mp member
      have at_other := stage?_eq_some.mpr ⟨probe, found, rfl⟩
      refine ⟨other, ?_, probe.stage, at_other, current⟩
      rintro rfl
      rw [Option.some.inj (at_other.symm.trans suspended)] at current
      cases current
  have leaves : PendingSignOut (page.goTo task .finished) ↔
      ∃ other ≠ task, ∃ old, page.stage? other = some old ∧ signingOut old = true :=
    exists_goTo (P := fun stage => signingOut stage = true) nofun
  constructor
  · rintro held ⟨signedIn, unknown, stale, others⟩
    obtain current | pending := held signedIn unknown
    · exact stale (probes.mp current)
    · obtain ⟨other, apart, old, found, pending⟩ := leaves.mp pending
      rw [others other apart old found] at pending
      cases pending
  · intro spared signedIn unknown
    by_contra stuck
    obtain ⟨stale, alone⟩ := not_or.mp stuck
    refine spared ⟨signedIn, unknown, fun current => stale (probes.mpr current), ?_⟩
    intro other apart old found
    exact Bool.eq_false_iff.mpr fun pending =>
      alone (leaves.mpr ⟨other, apart, old, found, pending⟩)

/-- Every other step keeps the way out, or changes the user. -/
theorem hasWayOut_systemStep {next : Page K} {event : Event K} (held : HasWayOut page)
    (taken : System.step page event = some next)
    (answered : ∀ task, event ≠ .sessionEnded task false) :
    HasWayOut next ∨ changesUser event = true := by
  cases step_eq_some.mp taken with
  | userChanged user => exact .inr rfl
  | startProbe => exact .inl (HasWayOut.startProbe .unknown)
  | rowSeen row => exact .inl held.reprobe
  | statusAnswered answer suspended => exact .inl (held.statusAnswered suspended)
  | keystoreRead failed suspended => exact .inl (held.keystoreRead suspended)
  | discarded failed suspended =>
      have left : HasWayOut
          { page with keystore := if failed then page.keystore else none } :=
        held.congr rfl rfl rfl
      exact .inl (left.conclude suspended rfl nofun)
  | beginCeremony user => exact .inl (held.spawn _)
  | keyOpened key suspended => exact .inl (held.goTo suspended nofun nofun)
  | ceremonyFailed suspended => exact .inl (held.goTo suspended nofun nofun)
  | enterUnlock suspended => exact .inl (held.enterUnlock suspended)
  | putCommitted suspended =>
      exact .inl (HasWayOut.goTo (held.congr rfl rfl rfl) suspended nofun nofun)
  | putFailed suspended => exact .inl (held.goTo suspended nofun nofun)
  | resumeUnlock suspended => exact .inl (held.afterRemember suspended rfl rfl)
  | lock => exact .inl (HasWayOut.of_known nofun)
  | signingOut =>
      exact .inl fun _ _ => .inr ⟨_, List.mem_append_right _ (List.mem_singleton_self _), rfl⟩
  | forget suspended =>
      exact .inl (HasWayOut.goTo (held.congr rfl rfl rfl) suspended nofun fun _ => rfl)
  | @deleteCommitted task endsSession suspended =>
      have left : HasWayOut { page with keystore := none } := held.congr rfl rfl rfl
      refine .inl (left.goTo suspended nofun fun leaves => ?_)
      cases endsSession
      · cases leaves
      · rfl
  | @deleteFailed task endsSession suspended =>
      refine .inl (held.goTo suspended nofun fun leaves => ?_)
      cases endsSession
      · cases leaves
      · rfl
  | sessionEnded accepted suspended =>
      cases accepted with
      | false => exact absurd rfl (answered _)
      | true => exact .inr rfl

/-- A step out of a state with a way out keeps one just when it strands nobody. -/
theorem hasWayOut_step {next : Page K} {event : TabEvent K} (held : HasWayOut page)
    (taken : Rerun.step page event = some next) : HasWayOut next ↔ ¬ Strands page event := by
  cases event with
  | elsewhere record =>
      cases taken
      exact ⟨fun _ => id, fun _ => held.congr rfl rfl rfl⟩
  | own event =>
      obtain ⟨stepped, moved, rfl⟩ := Option.map_eq_some_iff.mp taken
      by_cases refused : ∃ task, event = .sessionEnded task false
      · obtain ⟨task, rfl⟩ := refused
        cases step_eq_some.mp moved with
        | sessionEnded accepted suspended => exact hasWayOut_refused suspended
      · have answered : ∀ task, event ≠ .sessionEnded task false :=
          fun task same => refused ⟨task, same⟩
        have spared : ¬ Strands page (.own event) := by
          intro strands
          unfold Strands at strands
          split at strands
          · next same => exact answered _ (TabEvent.own.inj same)
          · exact strands
        refine iff_of_true ?_ spared
        obtain kept | changes := hasWayOut_systemStep held moved answered
        · split
          · exact HasWayOut.startProbe .unknown
          · exact kept
        · rw [if_pos changes]
          exact HasWayOut.startProbe .unknown

/-- A page load after the probe effect has run for the first time. -/
def mounted (user : Option String) (keystore : Option (Record K)) : Page K :=
  (Page.initial user keystore).startProbe .unknown

/-- A run leaves a way out in every state it reaches just when none of its
steps strands the tab. -/
theorem way_out_throughout_iff (user : Option String) (keystore : Option (Record K))
    (events : List (TabEvent K)) :
    Throughout Rerun.step HasWayOut (mounted user keystore) events ↔
        StepsMeet Rerun.step (fun page event => ¬ Strands page event) (mounted user keystore)
        events :=
  throughout_iff_stepsMeet (J := fun _ => True) (fun _ _ _ _ _ => trivial)
    (fun _ _ _ _ held taken => hasWayOut_step held taken) trivial
    (HasWayOut.startProbe .unknown)

end Waiting

/-- The user signs out before the first probe has answered, and the server
refuses: the answer of the probe is discarded, and nothing is under way. -/
def refusedEarly : List (TabEvent Nat) :=
  [.own .signingOut, .own (.forget 1), .own (.deleteCommitted 1),
    .own (.sessionEnded 1 false), .own (.statusAnswered 0 (some ⟨"ada", false⟩))]

/-- Not every state a tab reaches has a way out. -/
theorem refused_sign_out_strands :
    ¬ ∀ (user : Option String) (keystore : Option (Record Nat)) (events : List (TabEvent Nat))
      (last : Page Nat), runFrom Rerun.step (mounted user keystore) events = some last →
        HasWayOut last := by
  intro always
  have run : runFrom Rerun.step (mounted (some "ada") none) refusedEarly = some _ := rfl
  have held := always (some "ada") none refusedEarly _ run
  exact absurd (held nofun rfl) (by decide)

end TimeTracker.Tab.WayOut
