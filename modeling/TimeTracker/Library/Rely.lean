import TimeTracker.Library.Atomic
import Mathlib.Logic.Relation

/-!
# Programs under interference

Between any two statements of a program the other programs may change the
store, but only along a relation the program relies on.  `Obeys` says that
every statement the program commits then meets a guarantee, and that its result
meets a postcondition whenever it ends.  Both are promised under terms: when a
statement may be executed, and which statements may fail.
-/

namespace TimeTracker.Library.Rely

open TimeTracker.Library.Atomic
open TimeTracker.Library.Run

/-- When a statement may be executed, and which statements may fail. -/
structure Terms (κ σ : Type) where
  executes : κ → σ → Prop
  fails : κ → Prop

namespace Terms

variable {κ σ : Type}

/-- Every statement may be executed, and may fail. -/
def any : Terms κ σ :=
  { executes := fun _ _ => True, fails := fun _ => True }

/-- Statements that meet a condition may be executed, and any may fail. -/
def when (cond : κ → σ → Prop) : Terms κ σ :=
  { executes := cond, fails := fun _ => True }

/-- Every statement may be executed, and may fail unless it is spared. -/
def sparing (spared : κ → Prop) : Terms κ σ :=
  { executes := fun _ _ => True, fails := fun site => ¬ spared site }

end Terms

/-- What interference can make of a store. -/
abbrev Since {σ : Type} (rely : σ → σ → Prop) : σ → σ → Prop :=
  Relation.ReflTransGen rely

/-- Interference along a relation that composes stays in it, where it holds at all. -/
theorem rely_of_since {σ : Type} {rely : σ → σ → Prop} {first last : σ}
    (here : rely first first) (compose : ∀ {a b c}, rely a b → rely b c → rely a c)
    (since : Since rely first last) : rely first last := by
  induction since with
  | refl => exact here
  | tail _ step ih => exact compose ih step

section Rely

variable {σ κ ξ α β : Type} {terms : Terms κ σ}
  {rely : σ → σ → Prop} {guarantee : κ → σ → σ → Prop} {post : α → σ → Prop}

/-- Started in `store`, the program meets its guarantee and its postcondition
under interference along `rely`, on these terms. -/
def Obeys (terms : Terms κ σ) (rely : σ → σ → Prop)
    (guarantee : κ → σ → σ → Prop) (post : α → σ → Prop) :
    Program σ κ ξ α → σ → Prop
  | .done result, store => post result store
  | .atomic site statement next, store => ∀ later, rely store later →
      (terms.executes site later →
        guarantee site later (effect statement later) ∧
        Obeys terms rely guarantee post (next (answer statement later))
          (effect statement later)) ∧
      (terms.fails site → ∀ failure,
        Obeys terms rely guarantee post (next (.error failure)) later)

/-- A postcondition interference cannot break. -/
def Stable (rely : σ → σ → Prop) (post : α → σ → Prop) : Prop :=
  ∀ result store later, post result store → rely store later → post result later

/-- Interference before a program starts does not matter to it. -/
theorem Obeys.later {program : Program σ κ ξ α} {store later : σ}
    (obeys : Obeys terms rely guarantee post program store)
    (compose : ∀ {a b c}, rely a b → rely b c → rely a c)
    (stable : Stable rely post) (grown : rely store later) :
    Obeys terms rely guarantee post program later := by
  cases program with
  | done result => exact stable result store later obeys grown
  | atomic site statement next =>
      intro last grown'
      exact obeys last (compose grown grown')

theorem obeys_bind {program : Program σ κ ξ β} {rest : β → Program σ κ ξ α}
    {store : σ}
    (first : Obeys terms rely guarantee
      (fun result store => Obeys terms rely guarantee post (rest result) store)
      program store) :
    Obeys terms rely guarantee post (program >>= rest) store := by
  induction program generalizing store with
  | done result => exact first
  | atomic site statement next ih =>
      intro later grown
      obtain ⟨executed, failed⟩ := first later grown
      refine ⟨fun meets => ?_, fun fails failure => ih _ (failed fails failure)⟩
      obtain ⟨kept, answered⟩ := executed meets
      exact ⟨kept, ih _ answered⟩

theorem obeys_perform {site : κ} {statement : σ → Except ξ (β × σ)}
    {post : Except ξ β → σ → Prop} {store : σ}
    (kept : ∀ later, rely store later → terms.executes site later →
      guarantee site later (effect statement later))
    (committed : ∀ later value next, rely store later → terms.executes site later →
      statement later = .ok (value, next) → post (.ok value) next)
    (failed : ∀ later failure, rely store later → post (.error failure) later) :
    Obeys terms rely guarantee post (Program.perform site statement) store := by
  intro later grown
  refine ⟨fun meets => ⟨kept later grown meets, ?_⟩,
    fun _ failure => failed later failure grown⟩
  cases ran : statement later with
  | ok pair =>
      rw [answer_of_ok ran, effect_of_ok ran]
      exact committed later pair.1 pair.2 grown meets ran
  | error failure =>
      rw [answer_of_error ran, effect_of_error ran]
      exact failed later failure grown

theorem Obeys.mono {weaker : α → σ → Prop}
    (implies : ∀ result store, post result store → weaker result store)
    {program : Program σ κ ξ α} {store : σ}
    (obeys : Obeys terms rely guarantee post program store) :
    Obeys terms rely guarantee weaker program store := by
  induction program generalizing store with
  | done result => exact implies result store obeys
  | atomic site statement next ih =>
      intro later grown
      obtain ⟨executed, failed⟩ := obeys later grown
      refine ⟨fun meets => ?_, fun fails failure => ih _ (failed fails failure)⟩
      obtain ⟨kept, answered⟩ := executed meets
      exact ⟨kept, ih _ answered⟩

/-- What every store and every result meets, every program keeps to. -/
theorem obeys_of_forall (kept : ∀ site before after, guarantee site before after)
    (ended : ∀ result store, post result store) {program : Program σ κ ξ α} {store : σ} :
    Obeys terms rely guarantee post program store := by
  induction program generalizing store with
  | done result => exact ended result store
  | atomic site statement next ih =>
      exact fun later _ => ⟨fun _ => ⟨kept site later _, ih _⟩, fun _ failure => ih _⟩

/-- A program that keeps a guarantee keeps what the guarantee implies. -/
theorem Obeys.guarantees {weaker : κ → σ → σ → Prop}
    (implies : ∀ site before after, guarantee site before after → weaker site before after)
    {program : Program σ κ ξ α} {store : σ}
    (obeys : Obeys terms rely guarantee post program store) :
    Obeys terms rely weaker post program store := by
  induction program generalizing store with
  | done result => exact obeys
  | atomic site statement next ih =>
      intro later grown
      obtain ⟨executed, failed⟩ := obeys later grown
      refine ⟨fun meets => ?_, fun fails failure => ih _ (failed fails failure)⟩
      obtain ⟨kept, answered⟩ := executed meets
      exact ⟨implies site later _ kept, ih _ answered⟩

/-! ## One statement at a time -/

/-- The label of the statement a program executes next. -/
def site? : Program σ κ ξ α → Option κ
  | .done _ => none
  | .atomic site _ _ => some site

/-- The result of a program that has ended. -/
def result? : Program σ κ ξ α → Option α
  | .done result => some result
  | .atomic _ _ _ => none

/-- Execute the next statement. -/
def advance? : Program σ κ ξ α → σ → Option (Program σ κ ξ α × σ)
  | .done _, _ => none
  | .atomic _ statement next, store =>
      some (next (answer statement store), effect statement store)

/-- The next statement fails and is rolled back. -/
def abort? : Program σ κ ξ α → ξ → Option (Program σ κ ξ α)
  | .done _, _ => none
  | .atomic _ _ next, failure => some (next (.error failure))

/-- A statement executed keeps the guarantee, and the rest goes on obeying. -/
theorem Obeys.advance (reflexive : ∀ store, rely store store)
    {program next : Program σ κ ξ α} {store later : σ}
    (obeys : Obeys terms rely guarantee post program store)
    (meets : ∀ site, site? program = some site → terms.executes site store)
    (ran : advance? program store = some (next, later)) :
    Obeys terms rely guarantee post next later ∧
      ∃ site, site? program = some site ∧ guarantee site store later := by
  cases program with
  | done result => cases ran
  | atomic site statement rest =>
      cases ran
      obtain ⟨kept, answered⟩ := (obeys store (reflexive store)).1 (meets site rfl)
      exact ⟨answered, site, rfl, kept⟩

/-- A program with a statement to execute has not ended. -/
theorem result?_of_site? {program : Program σ κ ξ α} {site : κ}
    (at_site : site? program = some site) : result? program = none := by
  cases program with
  | done result => cases at_site
  | atomic site statement next => rfl

theorem Obeys.abort (reflexive : ∀ store, rely store store)
    {program next : Program σ κ ξ α} {store : σ} {failure : ξ}
    (obeys : Obeys terms rely guarantee post program store)
    (fails : ∀ site, terms.fails site)
    (ran : abort? program failure = some next) :
    Obeys terms rely guarantee post next store := by
  cases program with
  | done result => cases ran
  | atomic site statement rest =>
      cases ran
      exact (obeys store (reflexive store)).2 (fails site) failure

/-- A program that has ended meets its postcondition. -/
theorem Obeys.ended {program : Program σ κ ξ α} {store : σ} {result : α}
    (obeys : Obeys terms rely guarantee post program store)
    (done : result? program = some result) : post result store := by
  cases program with
  | done other =>
      cases done
      exact obeys
  | atomic site statement next => cases done

/-! ## A program by itself -/

/-- Run by itself on these terms, the program may end in a result and a store. -/
inductive Ends (terms : Terms κ σ) : Program σ κ ξ α → σ → α → σ → Prop
  | done (result : α) (store : σ) : Ends terms (.done result) store result store
  | executed {β : Type} {site : κ} {statement : σ → Except ξ (β × σ)}
      {next : Except ξ β → Program σ κ ξ α} {store last : σ} {result : α}
      (meets : terms.executes site store)
      (rest : Ends terms (next (answer statement store)) (effect statement store)
        result last) :
      Ends terms (.atomic site statement next) store result last
  | failed {β : Type} {site : κ} {statement : σ → Except ξ (β × σ)}
      {next : Except ξ β → Program σ κ ξ α} {store last : σ} {result : α}
      (fails : terms.fails site) (failure : ξ)
      (rest : Ends terms (next (.error failure)) store result last) :
      Ends terms (.atomic site statement next) store result last

/-- What a program obeys without interference holds where it ends. -/
theorem Obeys.ends {program : Program σ κ ξ α} {store last : σ} {result : α}
    (obeys : Obeys terms (· = ·) guarantee post program store)
    (ended : Ends terms program store result last) : post result last := by
  induction ended with
  | done result store => exact obeys
  | executed meets rest ih => exact ih ((obeys _ rfl).1 meets).2
  | failed fails failure rest ih => exact ih ((obeys _ rfl).2 fails failure)

/-- The label of the statement a run by itself comes to after this many. -/
def siteAt? : Program σ κ ξ α → σ → Nat → Option κ
  | .done _, _, _ => none
  | .atomic site _ _, _, 0 => some site
  | .atomic _ statement next, store, count + 1 =>
      siteAt? (next (answer statement store)) (effect statement store) count

/-- A run in which nothing fails but a statement that may is an end of the program. -/
theorem ends_run (executes : ∀ site store, terms.executes site store) (fault : ξ)
    (faultAt : Option Nat) (program : Program σ κ ξ α) (store : σ) (log : List (κ × σ))
    (fails : ∀ count site, faultAt = some count → siteAt? program store count = some site →
      terms.fails site) :
    Ends terms program store (program.run fault ⟨faultAt, store, log⟩).1
      (program.run fault ⟨faultAt, store, log⟩).2.store := by
  induction program generalizing faultAt store log with
  | done result => exact .done result store
  | atomic site statement next ih =>
      rw [Program.run]
      split
      · next now =>
          exact .failed (fails 0 site now rfl) fault
            (ih _ none _ _ fun _ _ never => absurd never (Option.some_ne_none _).symm)
      · next later =>
          refine .executed (executes site store) (ih _ _ _ _ fun count other at_count found => ?_)
          obtain ⟨total, same, rest⟩ := Option.map_eq_some_iff.mp at_count
          cases total with
          | zero => exact absurd same later
          | succ total =>
              obtain rfl : total = count := rest
              exact fails (total + 1) other same found

/-! ## Programs that may give up -/

section Attempts

variable {ε : Type}

/-- A program that ends early with an error. -/
abbrev Attempt (σ κ ξ ε : Type) := ExceptT ε (Program σ κ ξ)

theorem obeys_attempt_pure {value : α} {post : Except ε α → σ → Prop} {store : σ}
    (holds : post (.ok value) store) :
    Obeys terms rely guarantee post (pure value : Attempt σ κ ξ ε α).run store :=
  holds

theorem obeys_attempt_throw {error : ε} {post : Except ε α → σ → Prop} {store : σ}
    (holds : post (.error error) store) :
    Obeys terms rely guarantee post (throw error : Attempt σ κ ξ ε α).run store :=
  holds

/-- An error skips the rest. -/
theorem obeys_attempt_bind {attempt : Attempt σ κ ξ ε β} {rest : β → Attempt σ κ ξ ε α}
    {post : Except ε α → σ → Prop} {store : σ}
    (first : Obeys terms rely guarantee
      (fun result store => match result with
        | .ok value => Obeys terms rely guarantee post (rest value).run store
        | .error error => post (.error error) store)
      attempt.run store) :
    Obeys terms rely guarantee post (attempt >>= rest).run store := by
  have unfolded : (attempt >>= rest).run = attempt.run >>= ExceptT.bindCont rest := rfl
  rw [unfolded]
  apply obeys_bind
  refine Obeys.mono ?_ first
  rintro (error | value) store holds
  · exact holds
  · exact holds

/-- Carry on with the answer, or give up with what `describe` makes of the error. -/
def orGiveUp {ε' : Type} (describe : ε' → ε) (program : Program σ κ ξ (Except ε' α)) :
    Attempt σ κ ξ ε α :=
  ExceptT.mk (program >>= fun result => pure (result.mapError describe))

theorem obeys_orGiveUp {ε' : Type} {describe : ε' → ε}
    {program : Program σ κ ξ (Except ε' α)} {post : Except ε α → σ → Prop} {store : σ}
    (obeys : Obeys terms rely guarantee
      (fun result store => post (result.mapError describe) store) program store) :
    Obeys terms rely guarantee post (orGiveUp describe program).run store :=
  obeys_bind obeys

end Attempts

/-! ## Programs on a part of the store -/

section Parts

variable {τ κ' ξ' : Type} {part : Part σ τ} {relabel : κ' → κ} {faults : Faults ξ' ξ}
  {partRely : τ → τ → Prop} {partGuarantee : κ' → τ → τ → Prop}
  {partPost : α → τ → Prop}

/-- A program on a part of the store obeys there what it obeys by itself, and
what holds around that part goes on holding. -/
theorem obeys_zoom {frame : σ → Prop}
    (relies : ∀ before after, frame before → rely before after →
      partRely (part.get before) (part.get after) ∧ frame after)
    (guarantees : ∀ label before after, frame before →
      partGuarantee label (part.get before) after →
      guarantee (relabel label) before (part.set after before) ∧
        frame (part.set after before))
    {program : Program τ κ' ξ' α} {store : σ} (framed : frame store)
    (obeys : Obeys .any partRely partGuarantee partPost program (part.get store)) :
    Obeys terms rely guarantee
      (fun result store => partPost result (part.get store) ∧ frame store)
      (program.zoom part faults relabel) store := by
  induction program generalizing store with
  | done result => exact ⟨obeys, framed⟩
  | atomic label statement next ih =>
      intro later grown
      obtain ⟨grown', framed'⟩ := relies store later framed grown
      obtain ⟨executed, failed⟩ := obeys (part.get later) grown'
      obtain ⟨kept, answered⟩ := executed trivial
      refine ⟨fun _ => ?_, fun _ failure => ih _ framed' (failed trivial _)⟩
      obtain ⟨kept', framed''⟩ := guarantees label later _ framed' kept
      rw [effect_onPart]
      refine ⟨kept', ?_⟩
      dsimp only
      rw [answer_onPart]
      apply ih _ framed''
      rw [part.get_set]
      exact answered

end Parts

/-! ## Programs side by side -/

section Pools

variable {ρ : Type} {serve : ρ → Program σ κ ξ α} {keeps : σ → σ → Prop}
  {cond : κ → σ → Prop}

/-- A program that keeps `keeps` under interference that keeps it too, as long
as its statements meet `cond`. -/
def Preserves (cond : κ → σ → Prop) (keeps : σ → σ → Prop) (program : Program σ κ ξ α)
    (store : σ) : Prop :=
  Obeys (.when cond) keeps (fun _ => keeps) (fun _ _ => True) program store

/-- One step of the interleaving keeps the relation, and every program goes on
keeping it. -/
theorem pool_step_keeps
    (served : ∀ request {store}, keeps store store →
      Preserves cond keeps (serve request) store)
    {pool next : Pool σ κ ξ α} {move : Move ρ ξ}
    (each : ∀ program ∈ pool.threads, Preserves cond keeps program pool.store)
    (compose : ∀ {a b c}, keeps a b → keeps b c → keeps a c)
    (here : keeps pool.store pool.store)
    (meets : Pool.Executes cond pool move)
    (taken : Pool.step serve pool move = some next) :
    keeps pool.store next.store ∧
      ∀ program ∈ next.threads, Preserves cond keeps program next.store := by
  have stable : Stable keeps fun (_ : α) (_ : σ) => True := fun _ _ _ holds _ => holds
  cases move with
  | start request =>
      cases taken
      refine ⟨here, fun program member => ?_⟩
      obtain old | new := List.mem_append.mp member
      · exact each program old
      · rw [List.mem_singleton.mp new]
        exact served request here
  | advance thread =>
      simp only [Pool.step] at taken
      split at taken
      · next site statement rest found =>
          cases taken
          have at_site : pool.nextSite? thread = some site := by
            simp only [Pool.nextSite?, found]
          obtain ⟨kept, answered⟩ :=
            (each _ (List.mem_of_getElem? found) _ here).1 (meets site at_site)
          refine ⟨kept, fun program member => ?_⟩
          obtain old | rfl := List.mem_or_eq_of_mem_set member
          · exact Obeys.later (each program old) compose stable kept
          · exact answered
      · cases taken
  | fail thread failure =>
      simp only [Pool.step] at taken
      split at taken
      · next site statement rest found =>
          cases taken
          have failed := (each _ (List.mem_of_getElem? found) _ here).2 trivial failure
          refine ⟨here, fun program member => ?_⟩
          obtain old | rfl := List.mem_or_eq_of_mem_set member
          · exact each program old
          · exact failed
      · cases taken

/-- If every program keeps a relation as long as its statements meet the
condition, then in every interleaving whose statements all meet it the relation
leads from the first store to each store, and from there to the last. -/
theorem pool_keeps (settled : ∀ {a b}, keeps a b → keeps b b)
    (compose : ∀ {a b c}, keeps a b → keeps b c → keeps a c)
    (served : ∀ request {store}, keeps store store →
      Preserves cond keeps (serve request) store)
    {store : σ} {moves : List (Move ρ ξ)} (start : keeps store store)
    (meets : StepsMeet (Pool.step serve) (Pool.Executes cond) ⟨store, []⟩ moves) :
    ∃ last, Throughout (Pool.step serve)
      (fun pool => keeps store pool.store ∧ keeps pool.store last) ⟨store, []⟩ moves := by
  let I := fun pool : Pool σ κ ξ α => keeps store pool.store ∧
    ∀ program ∈ pool.threads, Preserves cond keeps program pool.store
  have preserved : ∀ pool move next, I pool → Pool.Executes cond pool move →
      Pool.step serve pool move = some next → I next ∧ keeps pool.store next.store := by
    rintro pool move next ⟨kept, each⟩ meets taken
    have here : keeps pool.store pool.store := settled kept
    obtain ⟨step_kept, later⟩ := pool_step_keeps served each compose here meets taken
    exact ⟨⟨compose kept step_kept, later⟩, step_kept⟩
  have begins : I ⟨store, []⟩ := ⟨start, nofun⟩
  obtain ⟨last, always⟩ := throughout_until preserved (fun _ held => settled held.1)
    (fun _ _ _ => compose) begins meets
  exact ⟨last.store, always.mono fun pool held => ⟨held.1.1, held.2⟩⟩

end Pools

end Rely

end TimeTracker.Library.Rely
