import TimeTracker.Library.Serving
import Mathlib.Data.List.Forall2
import Mathlib.Data.Option.Basic

/-!
# Two runs side by side

Stores are related when some party cannot tell them apart.  Two statements are
alike when related stores lead them to related answers and stores, and two
programs are twins when they go on alike from any related stores.  Twin calls of
two services answer alike as long as all the other calls, which may differ
between the two, leave the relation alone.
-/

namespace TimeTracker.Library.Twin

open TimeTracker.Library.Run
open TimeTracker.Library.Atomic
open TimeTracker.Library.Rely
open TimeTracker.Library.Serving

/-! ## Statements and programs -/

section Programs

variable {σ κ ξ α α' β β' : Type} {R : σ → σ → Prop}

/-- Both fail in the same way, or both commit. -/
inductive Outcomes (R : σ → σ → Prop) (Q : β → β' → Prop) :
    Except ξ (β × σ) → Except ξ (β' × σ) → Prop
  | failed (failure : ξ) : Outcomes R Q (.error failure) (.error failure)
  | committed {value : β} {value' : β'} {next next' : σ} (answers : Q value value')
      (stores : R next next') : Outcomes R Q (.ok (value, next)) (.ok (value', next'))

/-- On related stores the two statements have related outcomes. -/
def Alike (R : σ → σ → Prop) (Q : β → β' → Prop) (first : σ → Except ξ (β × σ))
    (second : σ → Except ξ (β' × σ)) : Prop :=
  ∀ x y, R x y → Outcomes R Q (first x) (second y)

/-- Two programs whose statements are alike and whose results are related. -/
def Twins (R : σ → σ → Prop) (P : α → α' → Prop) :
    Program σ κ ξ α → Program σ κ ξ α' → Prop
  | .done result, .done result' => P result result'
  | .atomic _ statement next, .atomic _ statement' next' =>
      ∃ Q : _ → _ → Prop, Alike R Q statement statement' ∧
        (∀ value value', Q value value' →
          Twins R P (next (.ok value)) (next' (.ok value'))) ∧
        ∀ failure, Twins R P (next (.error failure)) (next' (.error failure))
  | _, _ => False

theorem Outcomes.mono {Q T : β → β' → Prop} {first : Except ξ (β × σ)}
    {second : Except ξ (β' × σ)} (outcomes : Outcomes R Q first second)
    (implies : ∀ value value', Q value value' → T value value') : Outcomes R T first second := by
  cases outcomes with
  | failed failure => exact .failed failure
  | committed answers stores => exact .committed (implies _ _ answers) stores

theorem Alike.mono {Q T : β → β' → Prop} {first : σ → Except ξ (β × σ)}
    {second : σ → Except ξ (β' × σ)} (alike : Alike R Q first second)
    (implies : ∀ value value', Q value value' → T value value') : Alike R T first second :=
  fun x y same => (alike x y same).mono implies

/-- A statement that only reads, and reads related answers off related stores. -/
theorem alike_read {Q : β → β → Prop} {statement : σ → Except ξ (β × σ)} (value : σ → β)
    (reads : ∀ store, statement store = .ok (value store, store))
    (related : ∀ x y, R x y → Q (value x) (value y)) : Alike R Q statement statement := by
  intro x y same
  rw [reads, reads]
  exact .committed (related x y same) same

/-- Replies of two statements. -/
inductive Replies (Q : β → β' → Prop) : Except ξ β → Except ξ β' → Prop
  | failed (failure : ξ) : Replies Q (.error failure) (.error failure)
  | committed {value : β} {value' : β'} (answers : Q value value') :
      Replies Q (.ok value) (.ok value')

variable {P : α → α' → Prop} {Q : β → β' → Prop}

theorem twins_perform {site site' : κ} {statement : σ → Except ξ (β × σ)}
    {statement' : σ → Except ξ (β' × σ)} (alike : Alike R Q statement statement') :
    Twins R (Replies Q) (Program.perform site statement)
      (Program.perform site' statement') :=
  ⟨Q, alike, fun _ _ => Replies.committed, Replies.failed⟩

theorem twins_bind {program : Program σ κ ξ β} {program' : Program σ κ ξ β'}
    {rest : β → Program σ κ ξ α} {rest' : β' → Program σ κ ξ α'}
    (first : Twins R Q program program')
    (later : ∀ value value', Q value value' → Twins R P (rest value) (rest' value')) :
    Twins R P (program >>= rest) (program' >>= rest') := by
  induction program generalizing program' with
  | done result =>
      cases program' with
      | done result' => exact later result result' first
      | atomic site' statement' next' => exact first.elim
  | atomic site statement next ih =>
      cases program' with
      | done result' => exact first.elim
      | atomic site' statement' next' =>
          obtain ⟨T, alike, committed, failed⟩ := first
          exact ⟨T, alike, fun value value' related => ih _ (committed value value' related),
            fun failure => ih _ (failed failure)⟩

theorem Twins.mono {T : α → α' → Prop} {program : Program σ κ ξ α}
    {program' : Program σ κ ξ α'} (twins : Twins R P program program')
    (implies : ∀ result result', P result result' → T result result') :
    Twins R T program program' := by
  induction program generalizing program' with
  | done result =>
      cases program' with
      | done result' => exact implies result result' twins
      | atomic site' statement' next' => exact twins.elim
  | atomic site statement next ih =>
      cases program' with
      | done result' => exact twins.elim
      | atomic site' statement' next' =>
          obtain ⟨Q, alike, committed, failed⟩ := twins
          exact ⟨Q, alike, fun value value' related => ih _ (committed value value' related),
            fun failure => ih _ (failed failure)⟩

/-- One statement of each, on related stores. -/
theorem Twins.execute {site site' : κ} {statement : σ → Except ξ (β × σ)}
    {statement' : σ → Except ξ (β' × σ)} {next : Except ξ β → Program σ κ ξ α}
    {next' : Except ξ β' → Program σ κ ξ α'} {x y : σ}
    (twins : Twins R P (.atomic site statement next) (.atomic site' statement' next'))
    (related : R x y) :
    R (effect statement x) (effect statement' y) ∧
      Twins R P (next (answer statement x)) (next' (answer statement' y)) := by
  obtain ⟨T, alike, committed, failed⟩ := twins
  have outcomes := alike x y related
  cases ran : statement x with
  | error failure =>
      rw [ran] at outcomes
      cases ran' : statement' y with
      | error failure' =>
          rw [ran'] at outcomes
          cases outcomes
          rw [effect_of_error ran, effect_of_error ran', answer_of_error ran,
            answer_of_error ran']
          exact ⟨related, failed failure⟩
      | ok pair =>
          rw [ran'] at outcomes
          cases outcomes
  | ok pair =>
      rw [ran] at outcomes
      cases ran' : statement' y with
      | error failure' =>
          rw [ran'] at outcomes
          cases outcomes
      | ok pair' =>
          rw [ran'] at outcomes
          cases outcomes with
          | committed answers stores =>
              rw [effect_of_ok ran, effect_of_ok ran', answer_of_ok ran, answer_of_ok ran']
              exact ⟨stores, committed _ _ answers⟩

end Programs

/-! ## Services -/

section Services

variable {σ κ ξ ι ρ α : Type}

/-- The same event of two runs, but for the request. -/
inductive SameEvent (S : ρ → ρ → Prop) : Event ι ρ ξ → Event ι ρ ξ → Prop
  | start (id : ι) {request request' : ρ} (same : S request request') :
      SameEvent S (.start id request) (.start id request')
  | execute (id : ι) : SameEvent S (.execute id) (.execute id)
  | fail (id : ι) (failure : ξ) : SameEvent S (.fail id failure) (.fail id failure)

theorem SameEvent.refl {S : ρ → ρ → Prop} (reflexive : ∀ request, S request request)
    (event : Event ι ρ ξ) : SameEvent S event event := by
  cases event with
  | start id request => exact .start id (reflexive request)
  | execute id => exact .execute id
  | fail id failure => exact .fail id failure

theorem SameEvent.call {S : ρ → ρ → Prop} {event event' : Event ι ρ ξ}
    (same : SameEvent S event event') : event.call = event'.call := by
  cases same with
  | start id same => rfl
  | execute id => rfl
  | fail id failure => rfl

/-- Two calls in progress that go on alike. -/
structure CallsAlike (R : σ → σ → Prop) (S : ρ → ρ → Prop) (P : α → α → Prop)
    (call call' : Call σ κ ξ ρ α) : Prop where
  requests : S call.request call'.request
  rest : Twins R P call.rest call'.rest

/-- Every call keeps to `rely`, and those that are not `mine` to `keeps` as well. -/
def Minds (mine : ι → Bool) (rely keeps : σ → σ → Prop) (service : Service σ κ ξ ι ρ α) :
    Prop :=
  ∀ id call, service.calls id = some call →
    Obeys .any rely
      (fun _ before after => rely before after ∧ (mine id = false → keeps before after))
      (fun _ _ => True) call.rest service.store

/-- Two services in related states, whose calls that are `mine` go on alike. -/
structure Pair (mine : ι → Bool) (rely keeps R : σ → σ → Prop) (S : ρ → ρ → Prop)
    (P : α → α → Prop) (left right : Service σ κ ξ ι ρ α) : Prop where
  stores : R left.store right.store
  calls : ∀ id, mine id = true →
    Option.Rel (CallsAlike R S P) (left.calls id) (right.calls id)
  left : Minds mine rely keeps left
  right : Minds mine rely keeps right

/-- What two services promise of their requests: `fits` says which request a call of
that name may serve. -/
structure Setting (serve : ρ → Program σ κ ξ α) (mine : ι → Bool) (fits : ι → ρ → Prop)
    (rely keeps R : σ → σ → Prop) (S : ρ → ρ → Prop) (P : α → α → Prop) : Prop where
  rely_refl : ∀ x, rely x x
  rely_trans : ∀ {x y z}, rely x y → rely y z → rely x z
  keeps_refl : ∀ x, keeps x x
  keeps_left : ∀ {x y z}, R x y → keeps x z → R z y
  keeps_right : ∀ {x y z}, R x y → keeps y z → R x z
  serves : ∀ id request store, fits id request →
    Obeys .any rely
      (fun _ before after => rely before after ∧ (mine id = false → keeps before after))
      (fun _ _ => True) (serve request) store
  twins : ∀ id request request', mine id = true → fits id request → fits id request' →
    S request request' → Twins R P (serve request) (serve request')

/-- Every call that starts serves a request its name may serve. -/
def Fit (fits : ι → ρ → Prop) (events : List (Event ι ρ ξ)) : Prop :=
  ∀ id request, .start id request ∈ events → fits id request

/-- The events of the calls that are `mine`. -/
def eventsOf (mine : ι → Bool) (events : List (Event ι ρ ξ)) : List (Event ι ρ ξ) :=
  events.filter fun event => mine event.call

variable {serve : ρ → Program σ κ ξ α} {mine : ι → Bool} {fits : ι → ρ → Prop}
  {rely keeps R : σ → σ → Prop} {S : ρ → ρ → Prop} {P : α → α → Prop}
  {left right left' right' : Service σ κ ξ ι ρ α}

/-- What a call of the left service is, its twin is in the right one. -/
theorem Pair.found (pair : Pair mine rely keeps R S P left right) {id : ι}
    (own : mine id = true) {call call' : Call σ κ ξ ρ α} (here : left.calls id = some call)
    (there : right.calls id = some call') : CallsAlike R S P call call' := by
  have related := pair.calls id own
  rw [here, there] at related
  cases related
  assumption

/-- Twin calls answer alike. -/
theorem Pair.answered (pair : Pair mine rely keeps R S P left right) {id : ι}
    (own : mine id = true) :
    Option.Rel (fun first second => S first.1 second.1 ∧ P first.2 second.2)
      (left.answered? id) (right.answered? id) := by
  have related := pair.calls id own
  cases here : left.calls id with
  | none =>
      cases there : right.calls id with
      | none =>
          rw [Service.answered?, Service.answered?, here, there]
          exact Option.Rel.none
      | some call' =>
          rw [here, there] at related
          cases related
  | some call =>
      cases there : right.calls id with
      | none =>
          rw [here, there] at related
          cases related
      | some call' =>
          obtain ⟨same, twins⟩ := pair.found own here there
          obtain ⟨request, rest⟩ := call
          obtain ⟨request', rest'⟩ := call'
          rw [Service.answered?, Service.answered?, here, there]
          cases rest with
          | done result =>
              cases rest' with
              | done result' => exact Option.Rel.some ⟨same, twins⟩
              | atomic site' statement' next' => exact twins.elim
          | atomic site statement next =>
              cases rest' with
              | done result' => exact twins.elim
              | atomic site' statement' next' => exact Option.Rel.none

variable [DecidableEq ι]

/-- The program of a call changes, and the store along `rely`. -/
theorem Minds.put (setting : Setting serve mine fits rely keeps R S P)
    (minds : Minds mine rely keeps left) {id : ι} {call : Call σ κ ξ ρ α} {store : σ}
    (grown : rely left.store store)
    (obeys : Obeys .any rely
      (fun _ before after => rely before after ∧ (mine id = false → keeps before after))
      (fun _ _ => True) call.rest store) :
    Minds mine rely keeps { left.put id call with store } := by
  intro other found at_other
  obtain ⟨rfl, rfl⟩ | ⟨-, before⟩ := (calls_put_eq_some ..).mp at_other
  · exact obeys
  · exact (minds other found before).later setting.rely_trans
      (fun _ _ _ _ _ => trivial) grown

/-- A step keeps to `rely`, and to `keeps` where it is not `mine`. -/
theorem Minds.step (setting : Setting serve mine fits rely keeps R S P)
    (minds : Minds mine rely keeps left) {event : Event ι ρ ξ}
    (fit : ∀ id request, event = .start id request → fits id request)
    (taken : step serve left event = some left') :
    Minds mine rely keeps left' ∧
      (mine event.call = false → keeps left.store left'.store) := by
  have here := setting.rely_refl left.store
  cases event with
  | start id request =>
      obtain ⟨-, rfl⟩ := step_start_eq_some.mp taken
      exact ⟨minds.put setting here (setting.serves id request _ (fit id request rfl)),
        fun _ => setting.keeps_refl _⟩
  | execute id =>
      obtain ⟨request, site, β, statement, rest, found, rfl⟩ := step_execute_eq_some.mp taken
      obtain ⟨⟨grown, kept⟩, obeys⟩ := (minds id _ found _ here).1 trivial
      exact ⟨minds.put setting grown obeys, kept⟩
  | fail id failure =>
      obtain ⟨request, site, β, statement, rest, found, rfl⟩ := step_fail_eq_some.mp taken
      exact ⟨minds.put setting here ((minds id _ found _ here).2 trivial failure),
        fun _ => setting.keeps_refl _⟩

/-- The left service serves a call that is not `mine`. -/
theorem Pair.step_left (setting : Setting serve mine fits rely keeps R S P)
    (pair : Pair mine rely keeps R S P left right) {event : Event ι ρ ξ}
    (fit : ∀ id request, event = .start id request → fits id request)
    (other : mine event.call = false) (taken : step serve left event = some left') :
    Pair mine rely keeps R S P left' right := by
  obtain ⟨minds, kept⟩ := pair.left.step setting fit taken
  refine ⟨setting.keeps_left pair.stores (kept other), ?_, minds, pair.right⟩
  intro id own
  have apart : id ≠ event.call := by
    rintro rfl
    cases own.symm.trans other
  rw [calls_of_step taken apart]
  exact pair.calls id own

/-- The right service serves a call that is not `mine`. -/
theorem Pair.step_right (setting : Setting serve mine fits rely keeps R S P)
    (pair : Pair mine rely keeps R S P left right) {event : Event ι ρ ξ}
    (fit : ∀ id request, event = .start id request → fits id request)
    (other : mine event.call = false) (taken : step serve right event = some right') :
    Pair mine rely keeps R S P left right' := by
  obtain ⟨minds, kept⟩ := pair.right.step setting fit taken
  refine ⟨setting.keeps_right pair.stores (kept other), ?_, pair.left, minds⟩
  intro id own
  have apart : id ≠ event.call := by
    rintro rfl
    cases own.symm.trans other
  rw [calls_of_step taken apart]
  exact pair.calls id own

/-- A call of the pair moves in both services. -/
theorem Pair.calls_put (pair : Pair mine rely keeps R S P left right) {id : ι}
    {call call' : Call σ κ ξ ρ α} (alike : CallsAlike R S P call call') (other : ι)
    (own : mine other = true) :
    Option.Rel (CallsAlike R S P) ((left.put id call).calls other)
      ((right.put id call').calls other) := by
  by_cases same : other = id
  · subst same
    rw [calls_put_self, calls_put_self]
    exact Option.Rel.some alike
  · rw [calls_put_of_ne _ _ _ _ same, calls_put_of_ne _ _ _ _ same]
    exact pair.calls other own

/-- Both services take the same step of a call that is `mine`. -/
theorem Pair.step (setting : Setting serve mine fits rely keeps R S P)
    (pair : Pair mine rely keeps R S P left right) {event event' : Event ι ρ ξ}
    (same : SameEvent S event event') (own : mine event.call = true)
    (fit : ∀ id request, event = .start id request → fits id request)
    (fit' : ∀ id request, event' = .start id request → fits id request)
    (taken : Serving.step serve left event = some left')
    (taken' : Serving.step serve right event' = some right') :
    Pair mine rely keeps R S P left' right' := by
  have minds := (pair.left.step setting fit taken).1
  have minds' := (pair.right.step setting fit' taken').1
  cases same with
  | @start id request request' same =>
      obtain ⟨-, rfl⟩ := step_start_eq_some.mp taken
      obtain ⟨-, rfl⟩ := step_start_eq_some.mp taken'
      have twins := setting.twins id request request' own (fit id request rfl)
        (fit' id request' rfl) same
      exact ⟨pair.stores, pair.calls_put ⟨same, twins⟩, minds, minds'⟩
  | execute id =>
      obtain ⟨request, site, β, statement, rest, found, rfl⟩ := step_execute_eq_some.mp taken
      obtain ⟨request', site', β', statement', rest', found', rfl⟩ :=
        step_execute_eq_some.mp taken'
      obtain ⟨same, twins⟩ := pair.found own found found'
      obtain ⟨stores, twins⟩ := twins.execute pair.stores
      exact ⟨stores, pair.calls_put ⟨same, twins⟩, minds, minds'⟩
  | fail id failure =>
      obtain ⟨request, site, β, statement, rest, found, rfl⟩ := step_fail_eq_some.mp taken
      obtain ⟨request', site', β', statement', rest', found', rfl⟩ :=
        step_fail_eq_some.mp taken'
      obtain ⟨same, -, -, -, failed⟩ := pair.found own found found'
      exact ⟨pair.stores, pair.calls_put ⟨same, failed failure⟩, minds, minds'⟩

/-- The right service serves nothing that is `mine`. -/
theorem Pair.run_right (setting : Setting serve mine fits rely keeps R S P)
    (pair : Pair mine rely keeps R S P left right) {events : List (Event ι ρ ξ)}
    (fit : Fit fits events) (others : ∀ event ∈ events, mine event.call = false)
    (ran : runFrom (Serving.step serve) right events = some right') :
    Pair mine rely keeps R S P left right' := by
  induction events generalizing right with
  | nil =>
      cases ran
      exact pair
  | cons event rest ih =>
      obtain ⟨middle, taken, ran⟩ := runFrom_cons_eq_some.mp ran
      have pair' := pair.step_right setting
        (fun id request same => fit id request (same ▸ List.mem_cons_self ..))
        (others event (List.mem_cons_self ..)) taken
      exact ih pair' (fun id request member => fit id request (List.mem_cons_of_mem _ member))
        (fun event member => others event (List.mem_cons_of_mem _ member)) ran

/-- Two runs with the same events of the calls that are `mine`, in the same order. -/
theorem Pair.run (setting : Setting serve mine fits rely keeps R S P)
    (pair : Pair mine rely keeps R S P left right) {events events' : List (Event ι ρ ξ)}
    (fit : Fit fits events) (fit' : Fit fits events')
    (same : List.Forall₂ (SameEvent S) (eventsOf mine events) (eventsOf mine events'))
    (ran : runFrom (Serving.step serve) left events = some left')
    (ran' : runFrom (Serving.step serve) right events' = some right') :
    Pair mine rely keeps R S P left' right' := by
  induction events generalizing left right events' with
  | nil =>
      cases ran
      have none := List.forall₂_nil_left_iff.mp same
      apply pair.run_right setting fit' _ ran'
      intro event member
      exact Bool.not_eq_true _ ▸ List.filter_eq_nil_iff.mp none event member
  | cons event rest ih =>
      obtain ⟨middle, taken, ran⟩ := runFrom_cons_eq_some.mp ran
      have fitHere : ∀ id request, event = .start id request → fits id request :=
        fun id request same => fit id request (same ▸ List.mem_cons_self ..)
      have fitLater : Fit fits rest :=
        fun id request member => fit id request (List.mem_cons_of_mem _ member)
      cases own : mine event.call with
      | false =>
          rw [eventsOf, List.filter_cons_of_neg (by simp [own])] at same
          exact ih (pair.step_left setting fitHere own taken) fitLater fit' same ran ran'
      | true =>
          rw [eventsOf, List.filter_cons, if_pos own] at same
          obtain ⟨event', rest', sameHere, sameLater, split⟩ := List.forall₂_cons_left_iff.mp same
          obtain ⟨before, after, rfl, others, own', rfl⟩ := List.filter_eq_cons_iff.mp split
          obtain ⟨first, ranBefore, ran'⟩ := runFrom_append_eq_some.mp ran'
          obtain ⟨second, taken', ran'⟩ := runFrom_cons_eq_some.mp ran'
          have paired := pair.run_right setting
            (fun id request member => fit' id request (List.mem_append_left _ member))
            (fun event member => Bool.not_eq_true _ ▸ others event member) ranBefore
          have stepped := paired.step setting sameHere own fitHere
            (fun id request same => fit' id request
              (List.mem_append_right _ (same ▸ List.mem_cons_self ..))) taken taken'
          exact ih stepped fitLater
            (fun id request member => fit' id request
              (List.mem_append_right _ (List.mem_cons_of_mem _ member))) sameLater ran ran'

end Services

end TimeTracker.Library.Twin
