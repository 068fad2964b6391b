import Mathlib.Logic.Basic
import Mathlib.Data.List.Basic
import TimeTracker.Library.Run

/-!
# Programs of atomic statements

A program is a sequence of atomic statements on a shared store, each with a
label that says which statement of the source it is.  A statement either
commits and returns a value, or fails and leaves the store as it found it.  One
program can be run by itself, or a pool of programs can be interleaved
statement by statement; the two readings share the definition of the program.
-/

namespace TimeTracker.Library.Atomic

open TimeTracker.Library.Run

/-- Programs over a store `σ`, with statement labels `κ` and failures `ξ`. -/
inductive Program (σ κ ξ : Type) (α : Type) : Type 1
  | done (result : α)
  | atomic {β : Type} (site : κ) (statement : σ → Except ξ (β × σ))
      (next : Except ξ β → Program σ κ ξ α)

section Programs

variable {σ κ ξ α β : Type}

/-- What a statement does to the store: commit, or roll back and change nothing. -/
def effect (statement : σ → Except ξ (β × σ)) (store : σ) : σ :=
  match statement store with
  | .ok (_, next) => next
  | .error _ => store

/-- What a statement answers. -/
def answer (statement : σ → Except ξ (β × σ)) (store : σ) : Except ξ β :=
  (statement store).map Prod.fst

theorem effect_of_ok {statement : σ → Except ξ (β × σ)} {store next : σ}
    {value : β} (committed : statement store = .ok (value, next)) :
    effect statement store = next := by
  simp only [effect, committed]

theorem effect_of_error {statement : σ → Except ξ (β × σ)} {store : σ}
    {failure : ξ} (failed : statement store = .error failure) :
    effect statement store = store := by
  simp only [effect, failed]

theorem answer_of_ok {statement : σ → Except ξ (β × σ)} {store next : σ}
    {value : β} (committed : statement store = .ok (value, next)) :
    answer statement store = .ok value := by
  simp only [answer, committed, Except.map]

theorem answer_of_error {statement : σ → Except ξ (β × σ)} {store : σ}
    {failure : ξ} (failed : statement store = .error failure) :
    answer statement store = .error failure := by
  simp only [answer, failed, Except.map]

namespace Program

/-- Sequential composition. -/
def bind : Program σ κ ξ α → (α → Program σ κ ξ β) → Program σ κ ξ β
  | .done result, rest => rest result
  | .atomic site statement next, rest =>
      .atomic site statement fun reply => (next reply).bind rest

instance : Monad (Program σ κ ξ) where
  pure := .done
  bind := bind

/-- The program of a single statement. -/
def perform (site : κ) (statement : σ → Except ξ (β × σ)) :
    Program σ κ ξ (Except ξ β) :=
  .atomic site statement .done

@[simp] theorem pure_eq (result : α) :
    (pure result : Program σ κ ξ α) = .done result :=
  rfl

@[simp] theorem done_bind (result : α) (rest : α → Program σ κ ξ β) :
    (Program.done result >>= rest) = rest result :=
  rfl

@[simp] theorem atomic_bind {γ : Type} (site : κ)
    (statement : σ → Except ξ (γ × σ)) (next : Except ξ γ → Program σ κ ξ α)
    (rest : α → Program σ κ ξ β) :
    (Program.atomic site statement next >>= rest) =
      .atomic site statement fun reply => next reply >>= rest :=
  rfl

/-- Every statement of the program, wherever the replies lead, satisfies `Q`. -/
def Each (Q : κ → (σ → σ) → Prop) : Program σ κ ξ α → Prop
  | .done _ => True
  | .atomic site statement next =>
      Q site (effect statement) ∧ ∀ reply, (next reply).Each Q

section Each

variable {Q : κ → (σ → σ) → Prop}

@[simp] theorem each_done (result : α) :
    (Program.done result : Program σ κ ξ α).Each Q :=
  trivial

@[simp] theorem each_perform {site : κ} {statement : σ → Except ξ (β × σ)} :
    (perform site statement).Each Q ↔ Q site (effect statement) :=
  ⟨And.left, fun holds => ⟨holds, fun _ => trivial⟩⟩

theorem each_bind {program : Program σ κ ξ α}
    {rest : α → Program σ κ ξ β} (first : program.Each Q)
    (later : ∀ result, (rest result).Each Q) : (program >>= rest).Each Q := by
  induction program with
  | done result => exact later result
  | atomic site statement next ih =>
      exact ⟨first.1, fun reply => ih reply (first.2 reply)⟩

theorem Each.mono {R : κ → (σ → σ) → Prop}
    (implies : ∀ site effect, Q site effect → R site effect)
    {program : Program σ κ ξ α} (each : program.Each Q) : program.Each R := by
  induction program with
  | done result => trivial
  | atomic site statement next ih =>
      exact ⟨implies site _ each.1, fun reply => ih reply (each.2 reply)⟩

end Each

end Program

/-! ## Programs on a part of the store -/

/-- A part of a larger store. -/
structure Part (σ τ : Type) where
  get : σ → τ
  set : τ → σ → σ
  get_set : ∀ part store, get (set part store) = part
  set_get : ∀ store, set (get store) store = store

/-- Failures of a part among the failures of the whole. -/
structure Faults (ξ' ξ : Type) where
  raise : ξ' → ξ
  lower : ξ → ξ'
  lower_raise : ∀ failure, lower (raise failure) = failure

section Parts

variable {τ κ' ξ' : Type}

/-- A statement on a part of the store. -/
def onPart (part : Part σ τ) (faults : Faults ξ' ξ)
    (statement : τ → Except ξ' (β × τ)) (store : σ) : Except ξ (β × σ) :=
  match statement (part.get store) with
  | .ok (value, next) => .ok (value, part.set next store)
  | .error failure => .error (faults.raise failure)

variable (part : Part σ τ) (faults : Faults ξ' ξ)
  (statement : τ → Except ξ' (β × τ)) (store : σ)

theorem effect_onPart : effect (onPart part faults statement) store =
    part.set (effect statement (part.get store)) store := by
  unfold effect onPart
  cases statement (part.get store) with
  | ok pair => rfl
  | error failure => exact (part.set_get store).symm

theorem answer_onPart : (answer (onPart part faults statement) store).mapError faults.lower =
    answer statement (part.get store) := by
  unfold answer onPart
  cases statement (part.get store) with
  | ok pair => rfl
  | error failure => exact congrArg Except.error (faults.lower_raise failure)

/-- A program on a part of the store. -/
def Program.zoom (relabel : κ' → κ) : Program τ κ' ξ' α → Program σ κ ξ α
  | .done result => .done result
  | .atomic site statement next =>
      .atomic (relabel site) (onPart part faults statement) fun reply =>
        (next (reply.mapError faults.lower)).zoom relabel

end Parts

/-- A sequential run in progress: the statement at which the store fails, if
any, the store, and the statements that committed or were refused so far, each
with the store it met. -/
structure Machine (σ κ : Type) where
  faultAt : Option Nat
  store : σ
  log : List (κ × σ)

namespace Program

/-- Run a program by itself.  The statement counted down to by `faultAt` fails
with `fault`. -/
def run (fault : ξ) : Program σ κ ξ α → Machine σ κ → α × Machine σ κ
  | .done result, machine => (result, machine)
  | .atomic site statement next, ⟨faultAt, store, log⟩ =>
      if faultAt = some 0 then
        (next (.error fault)).run fault ⟨none, store, log⟩
      else
        (next (answer statement store)).run fault
          ⟨faultAt.map (· - 1), effect statement store, log ++ [(site, store)]⟩

section Run

variable {fault : ξ}

@[simp] theorem run_done (result : α) (machine : Machine σ κ) :
    (Program.done result : Program σ κ ξ α).run fault machine =
      (result, machine) :=
  rfl

/-- Running a composition runs the first part and goes on from where it ended. -/
theorem run_bind (program : Program σ κ ξ α) (rest : α → Program σ κ ξ β)
    (machine : Machine σ κ) :
    (program >>= rest).run fault machine =
      (rest (program.run fault machine).1).run fault
        (program.run fault machine).2 := by
  induction program generalizing machine with
  | done result => rfl
  | atomic site statement next ih =>
      rw [atomic_bind, run, run]
      split
      · exact ih _ _
      · exact ih _ _

theorem run_perform (site : κ) (statement : σ → Except ξ (β × σ))
    (machine : Machine σ κ) :
    (perform site statement).run fault machine =
      if machine.faultAt = some 0 then
        (.error fault, ⟨none, machine.store, machine.log⟩)
      else (answer statement machine.store,
        ⟨machine.faultAt.map (· - 1), effect statement machine.store,
          machine.log ++ [(site, machine.store)]⟩) := by
  rw [perform, run]
  split <;> rfl

end Run

end Program

/-- Programs in progress on one shared store. -/
structure Pool (σ κ ξ α : Type) where
  store : σ
  threads : List (Program σ κ ξ α)

/-- A scheduling choice: a request arrives, a thread executes its next
statement, or that statement fails. -/
inductive Move (ρ ξ : Type)
  | start (request : ρ)
  | advance (thread : Nat)
  | fail (thread : Nat) (failure : ξ)

namespace Pool

variable {ρ : Type}

/-- The label of the statement a thread is about to execute. -/
def nextSite? (pool : Pool σ κ ξ α) (thread : Nat) : Option κ :=
  match pool.threads[thread]? with
  | some (.atomic site _ _) => some site
  | _ => none

/-- One step of the interleaving. -/
def step (serve : ρ → Program σ κ ξ α) (pool : Pool σ κ ξ α) :
    Move ρ ξ → Option (Pool σ κ ξ α)
  | .start request =>
      some { pool with threads := pool.threads ++ [serve request] }
  | .advance thread =>
      match pool.threads[thread]? with
      | some (.atomic _ statement next) =>
          some ⟨effect statement pool.store,
            pool.threads.set thread (next (answer statement pool.store))⟩
      | _ => none
  | .fail thread failure =>
      match pool.threads[thread]? with
      | some (.atomic _ _ next) =>
          some { pool with threads :=
            pool.threads.set thread (next (.error failure)) }
      | _ => none

/-- The step executes no statement, or one whose label and store meet `cond`. -/
def Executes (cond : κ → σ → Prop) (pool : Pool σ κ ξ α) :
    Move ρ ξ → Prop
  | .advance thread => ∀ site, pool.nextSite? thread = some site →
      cond site pool.store
  | _ => True

instance {cond : κ → σ → Prop} [∀ site store, Decidable (cond site store)]
    (pool : Pool σ κ ξ α) (move : Move ρ ξ) : Decidable (Executes cond pool move) :=
  match move with
  | .start _ | .fail _ _ => isTrue trivial
  | .advance thread =>
      inferInstanceAs (Decidable (∀ site ∈ pool.nextSite? thread, cond site pool.store))

variable {serve : ρ → Program σ κ ξ α} {Q : κ → (σ → σ) → Prop}

/-- Everything one step of the interleaving can do: leave the store alone, or
apply the effect of one statement of one thread. -/
theorem step_cases (served : ∀ request, (serve request).Each Q)
    {pool next : Pool σ κ ξ α} {move : Move ρ ξ}
    (each : ∀ program ∈ pool.threads, program.Each Q)
    (taken : step serve pool move = some next) :
    (∀ program ∈ next.threads, program.Each Q) ∧
      ((next.store = pool.store ∧
          ∀ cond : κ → σ → Prop, (∀ thread, move ≠ .advance thread) ∧
            Executes cond pool move) ∨
        ∃ thread site change, move = .advance thread ∧
          pool.nextSite? thread = some site ∧ Q site change ∧
          next.store = change pool.store) := by
  cases move with
  | start request =>
      cases taken
      refine ⟨?_, .inl ⟨rfl, fun _ => ⟨fun _ => nofun, trivial⟩⟩⟩
      intro program hmem
      rcases List.mem_append.mp hmem with old | new
      · exact each program old
      · rw [List.mem_singleton.mp new]
        exact served request
  | advance thread =>
      simp only [step] at taken
      split at taken
      · rename_i site statement rest hthread
        cases taken
        have here := each _ (List.mem_of_getElem? hthread)
        refine ⟨?_, .inr ⟨thread, site, effect statement, rfl, ?_, here.1, rfl⟩⟩
        · intro program hmem
          rcases List.mem_or_eq_of_mem_set hmem with old | new
          · exact each program old
          · rw [new]
            exact here.2 _
        · simp only [nextSite?, hthread]
      · cases taken
  | fail thread failure =>
      simp only [step] at taken
      split at taken
      · rename_i site statement rest hthread
        cases taken
        have here := each _ (List.mem_of_getElem? hthread)
        refine ⟨?_, .inl ⟨rfl, fun _ => ⟨fun _ => nofun, trivial⟩⟩⟩
        intro program hmem
        rcases List.mem_or_eq_of_mem_set hmem with old | new
        · exact each program old
        · rw [new]
          exact here.2 _
      · cases taken

/-- Out of a good store, the statement ends in a good store exactly when its
label and the store meet `cond`. -/
def Exact (I : σ → Prop) (cond : κ → σ → Prop) (site : κ) (change : σ → σ) : Prop :=
  ∀ store, I store → (I (change store) ↔ cond site store)

/--
Exactness for interleavings.  If every statement of every request is exact for
`I` and `cond`, then an interleaving stays good throughout exactly when every
statement it executes meets `cond`.
-/
theorem throughout_iff {I : σ → Prop} {cond : κ → σ → Prop}
    (served : ∀ request, (serve request).Each (Exact I cond))
    {pool : Pool σ κ ξ α} {moves : List (Move ρ ξ)}
    (each : ∀ program ∈ pool.threads, program.Each (Exact I cond))
    (start : I pool.store) :
    Throughout (step serve) (fun pool => I pool.store) pool moves ↔
      StepsMeet (step serve) (Executes cond) pool moves := by
  refine throughout_iff_stepsMeet
    (J := fun pool => ∀ program ∈ pool.threads, program.Each (Exact I cond))
    ?_ ?_ each start
  · intro state move next each taken
    exact (step_cases served each taken).1
  · intro state move next each good taken
    obtain ⟨-, same | ⟨thread, site, change, rfl, hsite, exact_change, after⟩⟩ :=
      step_cases served each taken
    · exact iff_of_true (same.1 ▸ good) (same.2 cond).2
    · rw [after, exact_change _ good]
      constructor
      · intro meets other hother
        rw [hsite] at hother
        cases hother
        exact meets
      · intro executes
        exact executes site hsite

end Pool

end Programs

end TimeTracker.Library.Atomic
