import Mathlib.Logic.Basic
import Mathlib.Data.Option.Basic
import Mathlib.Data.List.Basic

/-!
# Runs of a partial step function

A system is a partial step function on states; every choice it leaves open is
named by the event.  A run is a list of events executed from a start state.
The rules below lift facts about one step to whole runs, and the exactness rule
turns a condition on single steps into an equivalence about runs.
-/

namespace TimeTracker.Library.Run

universe u v

variable {σ : Type u} {ε : Type v}

/-- Execute the events in order; `none` at the first one that is not enabled. -/
def runFrom (step : σ → ε → Option σ) : σ → List ε → Option σ
  | state, [] => some state
  | state, event :: rest =>
      (step state event).bind fun next => runFrom step next rest

/-- Every step the run takes meets `cond` in the state just before it. -/
def StepsMeet (step : σ → ε → Option σ) (cond : σ → ε → Prop) :
    σ → List ε → Prop
  | _, [] => True
  | state, event :: rest =>
      ∀ next, step state event = some next →
        cond state event ∧ StepsMeet step cond next rest

/-- `P` holds in every state the run reaches, the start state included. -/
def Throughout (step : σ → ε → Option σ) (P : σ → Prop) :
    σ → List ε → Prop
  | state, [] => P state
  | state, event :: rest =>
      P state ∧ ∀ next, step state event = some next →
        Throughout step P next rest

/-- What the steps of the run cost together, up to the first one not enabled. -/
def spent (step : σ → ε → Option σ) (cost : σ → ε → Nat) : σ → List ε → Nat
  | _, [] => 0
  | state, event :: rest =>
      match step state event with
      | none => 0
      | some next => cost state event + spent step cost next rest

/-- Some run leads from the first state to the second. -/
def Reaches (step : σ → ε → Option σ) (first last : σ) : Prop :=
  ∃ events, runFrom step first events = some last

section Runs

variable {step : σ → ε → Option σ}

@[simp] theorem runFrom_nil (state : σ) :
    runFrom step state [] = some state :=
  rfl

theorem runFrom_cons (state : σ) (event : ε) (rest : List ε) :
    runFrom step state (event :: rest) =
      (step state event).bind fun next => runFrom step next rest :=
  rfl

/-- A run that starts with an event takes that step first. -/
theorem runFrom_cons_eq_some {state last : σ} {event : ε} {rest : List ε} :
    runFrom step state (event :: rest) = some last ↔
      ∃ next, step state event = some next ∧
        runFrom step next rest = some last := by
  rw [runFrom_cons, Option.bind_eq_some_iff]

theorem runFrom_append (state : σ) (first second : List ε) :
    runFrom step state (first ++ second) =
      (runFrom step state first).bind fun middle =>
        runFrom step middle second := by
  induction first generalizing state with
  | nil => rfl
  | cons event rest ih =>
      rw [List.cons_append, runFrom_cons, runFrom_cons, Option.bind_assoc]
      congr 1
      funext next
      exact ih next

theorem runFrom_append_eq_some {state last : σ} {first second : List ε} :
    runFrom step state (first ++ second) = some last ↔
      ∃ middle, runFrom step state first = some middle ∧
        runFrom step middle second = some last := by
  rw [runFrom_append, Option.bind_eq_some_iff]

theorem Reaches.refl (state : σ) : Reaches step state state :=
  ⟨[], rfl⟩

theorem Reaches.single {state next : σ} {event : ε}
    (taken : step state event = some next) : Reaches step state next :=
  ⟨[event], runFrom_cons_eq_some.mpr ⟨next, taken, rfl⟩⟩

theorem Reaches.trans {first middle last : σ}
    (left : Reaches step first middle) (right : Reaches step middle last) :
    Reaches step first last := by
  obtain ⟨before, hbefore⟩ := left
  obtain ⟨after, hafter⟩ := right
  exact ⟨before ++ after, runFrom_append_eq_some.mpr ⟨middle, hbefore, hafter⟩⟩

/-- A run of some of the steps is a run of all of them. -/
theorem runFrom_of_le {more : σ → ε → Option σ}
    (included : ∀ state event next, step state event = some next →
      more state event = some next)
    {first last : σ} {events : List ε} (run : runFrom step first events = some last) :
    runFrom more first events = some last := by
  induction events generalizing first with
  | nil => exact run
  | cons event rest ih =>
      obtain ⟨next, taken, remaining⟩ := runFrom_cons_eq_some.mp run
      exact runFrom_cons_eq_some.mpr ⟨next, included first event next taken, ih remaining⟩

/-- What every step preserves, every run preserves. -/
theorem invariant_runFrom {I : σ → Prop}
    (preserved : ∀ state event next, I state →
      step state event = some next → I next)
    {first last : σ} {events : List ε} (start : I first)
    (run : runFrom step first events = some last) : I last := by
  induction events generalizing first with
  | nil =>
      cases run
      exact start
  | cons event rest ih =>
      obtain ⟨next, taken, remaining⟩ := runFrom_cons_eq_some.mp run
      exact ih (preserved first event next start taken) remaining

/-- The same with the events so far in the invariant. -/
theorem history_runFrom {I : List ε → σ → Prop}
    (kept : ∀ past state event next, I past state →
      step state event = some next → I (past ++ [event]) next)
    {past events : List ε} {state last : σ} (start : I past state)
    (ran : runFrom step state events = some last) : I (past ++ events) last := by
  induction events generalizing past state with
  | nil =>
      cases ran
      simpa using start
  | cons event rest ih =>
      obtain ⟨next, taken, ran⟩ := runFrom_cons_eq_some.mp ran
      have later := ih (kept past state event next start taken) ran
      simpa using later

/-- What every step under a condition preserves, every run whose steps all
meet the condition preserves. -/
theorem invariant_stepsMeet {I : σ → Prop} {cond : σ → ε → Prop}
    (preserved : ∀ state event next, I state → cond state event →
      step state event = some next → I next)
    {first last : σ} {events : List ε} (start : I first)
    (meets : StepsMeet step cond first events)
    (run : runFrom step first events = some last) : I last := by
  induction events generalizing first with
  | nil =>
      cases run
      exact start
  | cons event rest ih =>
      obtain ⟨next, taken, remaining⟩ := runFrom_cons_eq_some.mp run
      obtain ⟨now, later⟩ := meets next taken
      exact ih (preserved first event next start now taken) later remaining

/-- If every step is paid for out of a potential, so is every run. -/
theorem spent_add_le {I : σ → Prop} {cost : σ → ε → Nat} {potential : σ → Nat}
    (pays : ∀ state event next, I state → step state event = some next →
      I next ∧ cost state event + potential next ≤ potential state)
    {first last : σ} {events : List ε} (start : I first)
    (run : runFrom step first events = some last) :
    spent step cost first events + potential last ≤ potential first := by
  induction events generalizing first with
  | nil =>
      cases run
      simp [spent]
  | cons event rest ih =>
      obtain ⟨next, taken, remaining⟩ := runFrom_cons_eq_some.mp run
      obtain ⟨kept, paid⟩ := pays first event next start taken
      have later := ih kept remaining
      simp only [spent, taken]
      omega

/-- A run whose steps cost one each costs its length. -/
theorem spent_one {first last : σ} {events : List ε}
    (run : runFrom step first events = some last) :
    spent step (fun _ _ => 1) first events = events.length := by
  induction events generalizing first with
  | nil => rfl
  | cons event rest ih =>
      obtain ⟨next, taken, remaining⟩ := runFrom_cons_eq_some.mp run
      simp only [spent, taken, ih remaining, List.length_cons]
      omega

theorem StepsMeet.mono {cond weaker : σ → ε → Prop}
    (implies : ∀ state event, cond state event → weaker state event)
    {state : σ} {events : List ε}
    (meets : StepsMeet step cond state events) :
    StepsMeet step weaker state events := by
  induction events generalizing state with
  | nil => trivial
  | cons event rest ih =>
      intro next taken
      obtain ⟨now, later⟩ := meets next taken
      exact ⟨implies state event now, ih later⟩

/-- Under an invariant the condition keeps, the condition may be traded for one
it implies there. -/
theorem StepsMeet.of_invariant {I : σ → Prop} {cond goal : σ → ε → Prop}
    (preserved : ∀ state event next, I state → cond state event →
      step state event = some next → I next)
    (local_step : ∀ state event, I state → cond state event → goal state event)
    {state : σ} {events : List ε} (start : I state)
    (meets : StepsMeet step cond state events) :
    StepsMeet step goal state events := by
  induction events generalizing state with
  | nil => trivial
  | cons event rest ih =>
      intro next taken
      obtain ⟨now, later⟩ := meets next taken
      exact ⟨local_step state event start now,
        ih (preserved state event next start now taken) later⟩

theorem stepsMeet_of_forall {cond : σ → ε → Prop} {state : σ} {events : List ε}
    (always : ∀ event ∈ events, ∀ state, cond state event) :
    StepsMeet step cond state events := by
  induction events generalizing state with
  | nil => trivial
  | cons event rest ih =>
      exact fun next taken => ⟨always event (List.mem_cons_self ..) state,
        ih fun other hother => always other (List.mem_cons_of_mem _ hother)⟩

theorem stepsMeet_and {left right : σ → ε → Prop} {state : σ} {events : List ε}
    (hleft : StepsMeet step left state events)
    (hright : StepsMeet step right state events) :
    StepsMeet step (fun state event => left state event ∧ right state event)
      state events := by
  induction events generalizing state with
  | nil => trivial
  | cons event rest ih =>
      intro next taken
      obtain ⟨now_left, later_left⟩ := hleft next taken
      obtain ⟨now_right, later_right⟩ := hright next taken
      exact ⟨⟨now_left, now_right⟩, ih later_left later_right⟩

instance decidableStepsMeet {cond : σ → ε → Prop}
    [∀ state event, Decidable (cond state event)] :
    ∀ state events, Decidable (StepsMeet step cond state events)
  | _, [] => isTrue trivial
  | state, event :: rest =>
      match taken : step state event with
      | none => isTrue fun next taken' => by
          rw [taken] at taken'
          cases taken'
      | some next =>
          have : Decidable (StepsMeet step cond next rest) := decidableStepsMeet next rest
          decidable_of_iff (cond state event ∧ StepsMeet step cond next rest)
            ⟨fun meets next' taken' => by
              cases Option.some.inj (taken.symm.trans taken')
              exact meets,
            fun meets => meets next taken⟩

/-- The steps of a run in two parts are the steps of its parts. -/
theorem stepsMeet_append {cond : σ → ε → Prop} {state : σ}
    {before after : List ε} :
    StepsMeet step cond state (before ++ after) ↔
      StepsMeet step cond state before ∧
        ∀ middle, runFrom step state before = some middle →
          StepsMeet step cond middle after := by
  induction before generalizing state with
  | nil =>
      refine ⟨fun meets => ⟨trivial, fun middle run => ?_⟩, fun meets => meets.2 _ rfl⟩
      cases run
      exact meets
  | cons event rest ih =>
      constructor
      · intro meets
        refine ⟨fun next taken => ?_, fun middle run => ?_⟩
        · exact ⟨(meets next taken).1, (ih.mp (meets next taken).2).1⟩
        · obtain ⟨next, taken, remaining⟩ := runFrom_cons_eq_some.mp run
          exact (ih.mp (meets next taken).2).2 middle remaining
      · rintro ⟨first, later⟩ next taken
        refine ⟨(first next taken).1, ih.mpr ⟨(first next taken).2, ?_⟩⟩
        intro middle remaining
        exact later middle (runFrom_cons_eq_some.mpr ⟨next, taken, remaining⟩)

theorem Throughout.start {P : σ → Prop} {state : σ} {events : List ε}
    (always : Throughout step P state events) : P state := by
  cases events with
  | nil => exact always
  | cons event rest => exact always.1

/-- A fact that holds throughout a run holds after each of its prefixes. -/
theorem Throughout.at_split {P : σ → Prop} {state middle : σ}
    {before after : List ε}
    (always : Throughout step P state (before ++ after))
    (run : runFrom step state before = some middle) : P middle := by
  induction before generalizing state with
  | nil =>
      cases run
      exact Throughout.start always
  | cons event rest ih =>
      obtain ⟨next, taken, remaining⟩ := runFrom_cons_eq_some.mp run
      exact ih (always.2 next taken) remaining

theorem throughout_of_stepsMeet {I : σ → Prop} {cond : σ → ε → Prop}
    (preserved : ∀ state event next, I state → cond state event →
      step state event = some next → I next)
    {state : σ} {events : List ε} (start : I state)
    (meets : StepsMeet step cond state events) :
    Throughout step I state events := by
  induction events generalizing state with
  | nil => exact start
  | cons event rest ih =>
      refine ⟨start, fun next taken => ?_⟩
      obtain ⟨now, later⟩ := meets next taken
      exact ih (preserved state event next start now taken) later

/-- If every step out of an `I` state leads along `R`, then every state of the run
leads along `R` to one state, the last. -/
theorem throughout_until {I : σ → Prop} {R : σ → σ → Prop} {cond : σ → ε → Prop}
    (preserved : ∀ state event next, I state → cond state event →
      step state event = some next → I next ∧ R state next)
    (settled : ∀ state, I state → R state state)
    (compose : ∀ first second third, R first second → R second third → R first third)
    {state : σ} {events : List ε} (start : I state)
    (meets : StepsMeet step cond state events) :
    ∃ last, Throughout step (fun state => I state ∧ R state last) state events := by
  induction events generalizing state with
  | nil => exact ⟨state, start, settled state start⟩
  | cons event rest ih =>
      cases taken : step state event with
      | none =>
          refine ⟨state, ⟨start, settled state start⟩, fun next taken' => ?_⟩
          rw [taken] at taken'
          cases taken'
      | some next =>
          obtain ⟨now, later⟩ := meets next taken
          obtain ⟨kept, led⟩ := preserved state event next start now taken
          obtain ⟨last, always⟩ := ih kept later
          refine ⟨last, ⟨start, compose _ _ _ led always.start.2⟩, fun next' taken' => ?_⟩
          cases Option.some.inj (taken.symm.trans taken')
          exact always

theorem Throughout.mono {P Q : σ → Prop} (implies : ∀ state, P state → Q state)
    {state : σ} {events : List ε} (always : Throughout step P state events) :
    Throughout step Q state events := by
  induction events generalizing state with
  | nil => exact implies state always
  | cons event rest ih =>
      exact ⟨implies state always.1, fun next taken => ih (always.2 next taken)⟩

/--
Exactness.  If, under a background fact `J` that every step meeting `rely` keeps, a
step out of a good state ends in a good state exactly when it meets the condition,
then a run from a good state whose steps all meet `rely` stays good throughout exactly
when all its steps meet the condition.
-/
theorem throughout_iff_stepsMeet_under {I J : σ → Prop} {rely cond : σ → ε → Prop}
    (background : ∀ state event next, J state → rely state event →
      step state event = some next → J next)
    (exact_step : ∀ state event next, J state → I state →
      step state event = some next → (I next ↔ cond state event))
    {state : σ} {events : List ε} (held : J state) (start : I state)
    (relies : StepsMeet step rely state events) :
    Throughout step I state events ↔ StepsMeet step cond state events := by
  induction events generalizing state with
  | nil => exact ⟨fun _ => trivial, fun _ => start⟩
  | cons event rest ih =>
      constructor
      · intro always next taken
        obtain ⟨now, later⟩ := relies next taken
        have good : I next := Throughout.start (always.2 next taken)
        have held' := background state event next held now taken
        exact ⟨(exact_step state event next held start taken).mp good,
          (ih held' good later).mp (always.2 next taken)⟩
      · intro meets
        refine ⟨start, fun next taken => ?_⟩
        obtain ⟨now, later⟩ := relies next taken
        obtain ⟨met, remaining⟩ := meets next taken
        have good := (exact_step state event next held start taken).mpr met
        have held' := background state event next held now taken
        exact (ih held' good later).mpr remaining

/-- The same where every step keeps the background fact. -/
theorem throughout_iff_stepsMeet {I J : σ → Prop} {cond : σ → ε → Prop}
    (background : ∀ state event next, J state →
      step state event = some next → J next)
    (exact_step : ∀ state event next, J state → I state →
      step state event = some next → (I next ↔ cond state event))
    {state : σ} {events : List ε} (held : J state) (start : I state) :
    Throughout step I state events ↔ StepsMeet step cond state events := by
  have free : StepsMeet step (fun _ _ => True) state events :=
    stepsMeet_of_forall fun _ _ _ => trivial
  refine throughout_iff_stepsMeet_under ?_ exact_step held start free
  intro state event next held _ taken
  exact background state event next held taken

end Runs

end TimeTracker.Library.Run
