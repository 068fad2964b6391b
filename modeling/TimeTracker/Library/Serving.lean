import TimeTracker.Library.Rely

/-!
# Calls on a shared store

A service keeps a store and the calls it is serving, each under a name of its
own.  A call arrives, executes its next statement, or that statement fails; any
two calls may be interleaved statement by statement.  A call keeps its request,
so that what was answered can be compared with what was asked.
-/

namespace TimeTracker.Library.Serving

open TimeTracker.Library.Run
open TimeTracker.Library.Atomic
open TimeTracker.Library.Rely

/-- A call in progress: the request, and what is left of the program serving it. -/
structure Call (σ κ ξ ρ α : Type) where
  request : ρ
  rest : Program σ κ ξ α

/-- Calls in progress on one store, by name. -/
structure Service (σ κ ξ ι ρ α : Type) where
  store : σ
  calls : ι → Option (Call σ κ ξ ρ α)

/-- A scheduling choice. -/
inductive Event (ι ρ ξ : Type)
  | start (id : ι) (request : ρ)
  | execute (id : ι)
  | fail (id : ι) (failure : ξ)
  deriving DecidableEq

/-- The call an event is about. -/
def Event.call {ι ρ ξ : Type} : Event ι ρ ξ → ι
  | .start id _ => id
  | .execute id => id
  | .fail id _ => id

section Services

variable {σ κ ξ ι ρ α : Type}

/-- No call in progress. -/
def Service.idle (store : σ) : Service σ κ ξ ι ρ α :=
  { store, calls := fun _ => none }

@[simp] theorem store_idle (store : σ) :
    (Service.idle store : Service σ κ ξ ι ρ α).store = store :=
  rfl

@[simp] theorem calls_idle (store : σ) (id : ι) :
    (Service.idle store : Service σ κ ξ ι ρ α).calls id = none :=
  rfl

/-- What the call has answered, if it has. -/
def Service.answered? (service : Service σ κ ξ ι ρ α) (id : ι) : Option (ρ × α) :=
  match service.calls id with
  | some ⟨request, .done result⟩ => some (request, result)
  | _ => none

theorem answered?_eq_some {service : Service σ κ ξ ι ρ α} {id : ι} {request : ρ} {result : α} :
    service.answered? id = some (request, result) ↔
      service.calls id = some ⟨request, .done result⟩ := by
  unfold Service.answered?
  split
  · next found => simp [found]
  · next other =>
      constructor
      · nofun
      · intro found
        exact absurd found (other request result)

variable [DecidableEq ι]

/-- Files the state of one call. -/
def Service.put (service : Service σ κ ξ ι ρ α) (id : ι) (call : Call σ κ ξ ρ α) :
    Service σ κ ξ ι ρ α :=
  { service with
    calls := fun other => if other = id then some call else service.calls other }

/-- The label of the statement the call is about to execute. -/
def Service.nextSite? (service : Service σ κ ξ ι ρ α) (id : ι) : Option κ :=
  match service.calls id with
  | some ⟨_, .atomic site _ _⟩ => some site
  | _ => none

/-- One step of the interleaving. -/
def step (serve : ρ → Program σ κ ξ α) (service : Service σ κ ξ ι ρ α) :
    Event ι ρ ξ → Option (Service σ κ ξ ι ρ α)
  | .start id request =>
      match service.calls id with
      | none => some (service.put id ⟨request, serve request⟩)
      | some _ => none
  | .execute id =>
      match service.calls id with
      | some ⟨request, .atomic _ statement next⟩ =>
          some { service.put id ⟨request, next (answer statement service.store)⟩ with
            store := effect statement service.store }
      | _ => none
  | .fail id failure =>
      match service.calls id with
      | some ⟨request, .atomic _ _ next⟩ =>
          some (service.put id ⟨request, next (.error failure)⟩)
      | _ => none

section Puts

variable (service : Service σ κ ξ ι ρ α) (id other : ι) (call : Call σ κ ξ ρ α)

@[simp] theorem store_put : (service.put id call).store = service.store :=
  rfl

@[simp] theorem calls_put_self : (service.put id call).calls id = some call :=
  if_pos rfl

theorem calls_put_of_ne (apart : other ≠ id) :
    (service.put id call).calls other = service.calls other :=
  if_neg apart

theorem calls_put_eq_some {found : Call σ κ ξ ρ α} :
    (service.put id call).calls other = some found ↔
      other = id ∧ call = found ∨ other ≠ id ∧ service.calls other = some found := by
  by_cases own : other = id
  · subst own
    simp
  · simp [calls_put_of_ne service id other call own, own]

end Puts

/-! ## What one step does -/

variable {serve : ρ → Program σ κ ξ α} {service next : Service σ κ ξ ι ρ α} {id : ι}

theorem step_start_eq_some {request : ρ} :
    step serve service (.start id request) = some next ↔
      service.calls id = none ∧ next = service.put id ⟨request, serve request⟩ := by
  cases found : service.calls id with
  | none => simp [step, found, eq_comm]
  | some call => simp [step, found]

theorem step_execute_eq_some :
    step serve service (.execute id) = some next ↔
      ∃ (request : ρ) (site : κ) (β : Type) (statement : σ → Except ξ (β × σ))
        (rest : Except ξ β → Program σ κ ξ α),
        service.calls id = some ⟨request, .atomic site statement rest⟩ ∧
          next = { service.put id ⟨request, rest (answer statement service.store)⟩ with
            store := effect statement service.store } := by
  unfold step
  constructor
  · intro taken
    dsimp only at taken
    split at taken
    · next request β site statement rest found =>
        cases taken
        exact ⟨request, site, β, statement, rest, found, rfl⟩
    · cases taken
  · rintro ⟨request, site, β, statement, rest, found, rfl⟩
    simp only [found]

theorem step_fail_eq_some {failure : ξ} :
    step serve service (.fail id failure) = some next ↔
      ∃ (request : ρ) (site : κ) (β : Type) (statement : σ → Except ξ (β × σ))
        (rest : Except ξ β → Program σ κ ξ α),
        service.calls id = some ⟨request, .atomic site statement rest⟩ ∧
          next = service.put id ⟨request, rest (.error failure)⟩ := by
  unfold step
  constructor
  · intro taken
    dsimp only at taken
    split at taken
    · next request β site statement rest found =>
        cases taken
        exact ⟨request, site, β, statement, rest, found, rfl⟩
    · cases taken
  · rintro ⟨request, site, β, statement, rest, found, rfl⟩
    simp only [found]

/-- A step moves no call but its own. -/
theorem calls_of_step {event : Event ι ρ ξ} (taken : step serve service event = some next)
    {other : ι} (apart : other ≠ event.call) : next.calls other = service.calls other := by
  cases event with
  | start id request =>
      obtain ⟨-, rfl⟩ := step_start_eq_some.mp taken
      exact calls_put_of_ne service id other _ apart
  | execute id =>
      obtain ⟨request, site, β, statement, rest, -, rfl⟩ := step_execute_eq_some.mp taken
      exact calls_put_of_ne service id other _ apart
  | fail id failure =>
      obtain ⟨request, site, β, statement, rest, -, rfl⟩ := step_fail_eq_some.mp taken
      exact calls_put_of_ne service id other _ apart

/-- A call keeps its request. -/
theorem request_of_step {event : Event ι ρ ξ} (taken : step serve service event = some next)
    {other : ι} {call : Call σ κ ξ ρ α} (found : service.calls other = some call) :
    ∃ rest, next.calls other = some ⟨call.request, rest⟩ := by
  by_cases own : other = event.call
  · subst own
    cases event with
    | start id request =>
        obtain ⟨fresh, -⟩ := step_start_eq_some.mp taken
        cases fresh.symm.trans found
    | execute id =>
        obtain ⟨request, site, β, statement, rest, here, rfl⟩ := step_execute_eq_some.mp taken
        cases here.symm.trans found
        exact ⟨_, calls_put_self service id _⟩
    | fail id failure =>
        obtain ⟨request, site, β, statement, rest, here, rfl⟩ := step_fail_eq_some.mp taken
        cases here.symm.trans found
        exact ⟨_, calls_put_self service id _⟩
  · exact ⟨call.rest, (calls_of_step taken own).trans found⟩

/-- A call that has answered is over. -/
theorem answered_of_step {event : Event ι ρ ξ} (taken : step serve service event = some next)
    {other : ι} {request : ρ} {result : α}
    (found : service.calls other = some ⟨request, .done result⟩) :
    next.calls other = some ⟨request, .done result⟩ := by
  by_cases own : other = event.call
  · subst own
    cases event with
    | start id request =>
        obtain ⟨fresh, -⟩ := step_start_eq_some.mp taken
        cases fresh.symm.trans found
    | execute id =>
        obtain ⟨_, site, β, statement, rest, here, -⟩ := step_execute_eq_some.mp taken
        cases here.symm.trans found
    | fail id failure =>
        obtain ⟨_, site, β, statement, rest, here, -⟩ := step_fail_eq_some.mp taken
        cases here.symm.trans found
  · exact (calls_of_step taken own).trans found

/-! ## Along a run -/

/-- A call that has answered is over for the rest of the run. -/
theorem answered_of_run {events : List (Event ι ρ ξ)}
    (ran : runFrom (step serve) service events = some next) {request : ρ} {result : α}
    (found : service.calls id = some ⟨request, .done result⟩) :
    next.calls id = some ⟨request, .done result⟩ := by
  refine invariant_runFrom
    (I := fun state => state.calls id = some ⟨request, .done result⟩) ?_ found ran
  intro state event after held taken
  exact answered_of_step taken held

/-- A call keeps its request along a run. -/
theorem request_of_run {events : List (Event ι ρ ξ)}
    (ran : runFrom (step serve) service events = some next) {call : Call σ κ ξ ρ α}
    (found : service.calls id = some call) :
    ∃ rest, next.calls id = some ⟨call.request, rest⟩ := by
  refine invariant_runFrom
    (I := fun state : Service σ κ ξ ι ρ α =>
      ∃ rest, state.calls id = some ⟨call.request, rest⟩) ?_
    ⟨call.rest, found⟩ ran
  rintro state event after ⟨rest, held⟩ taken
  obtain ⟨later, kept⟩ := request_of_step taken held
  exact ⟨later, kept⟩

/-- An answer was given by one event of the run. -/
theorem answered_at {events : List (Event ι ρ ξ)}
    (ran : runFrom (step serve) service events = some next) {request : ρ} {result : α}
    (pending : service.answered? id = none)
    (ended : next.answered? id = some (request, result)) :
    ∃ past event later before after, events = past ++ event :: later ∧
      runFrom (step serve) service past = some before ∧
      step serve before event = some after ∧ event.call = id ∧
      before.answered? id = none ∧ after.answered? id = some (request, result) ∧
      runFrom (step serve) after later = some next := by
  induction events generalizing service with
  | nil =>
      cases ran
      cases pending.symm.trans ended
  | cons event rest ih =>
      obtain ⟨middle, taken, ran⟩ := runFrom_cons_eq_some.mp ran
      cases here : middle.answered? id with
      | none =>
          obtain ⟨past, other, later, before, after, rfl, reached, facts⟩ := ih ran here
          exact ⟨event :: past, other, later, before, after, rfl,
            runFrom_cons_eq_some.mpr ⟨middle, taken, reached⟩, facts⟩
      | some pair =>
          have own : event.call = id := by
            by_contra apart
            have same : middle.answered? id = service.answered? id := by
              unfold Service.answered?
              rw [calls_of_step taken (Ne.symm apart)]
            cases here.symm.trans (same.trans pending)
          have kept : middle.answered? id = some (request, result) := by
            obtain ⟨asked, answer⟩ := pair
            have final := answered_of_run ran (answered?_eq_some.mp here)
            rw [here, ← answered?_eq_some.mpr final, ended]
          exact ⟨[], event, rest, service, middle, rfl, rfl, taken, own, pending, kept, ran⟩

/-- What was asked for is in progress, or answered. -/
theorem request_of_start_mem {events : List (Event ι ρ ξ)} {request : ρ}
    (ran : runFrom (step serve) service events = some next)
    (asked : .start id request ∈ events) :
    ∃ rest, next.calls id = some ⟨request, rest⟩ := by
  induction events generalizing service with
  | nil => cases asked
  | cons event rest ih =>
      obtain ⟨middle, taken, ran⟩ := runFrom_cons_eq_some.mp ran
      rcases List.mem_cons.mp asked with rfl | later
      · obtain ⟨-, rfl⟩ := step_start_eq_some.mp taken
        exact request_of_run ran (calls_put_self service id ⟨request, serve request⟩)
      · exact ih ran later

/-- Every call in progress was asked for. -/
theorem start_mem_of_run {events : List (Event ι ρ ξ)} {store : σ}
    (ran : runFrom (step serve) (.idle store) events = some next) {call : Call σ κ ξ ρ α}
    (found : next.calls id = some call) : .start id call.request ∈ events := by
  have asked : ∀ other call, next.calls other = some call →
      .start other call.request ∈ ([] : List (Event ι ρ ξ)) ++ events := by
    refine history_runFrom
      (I := fun past state => ∀ other (call : Call σ κ ξ ρ α),
        state.calls other = some call → .start other call.request ∈ past) ?_ nofun ran
    intro past state event after held taken other call at_other
    rw [List.mem_append]
    by_cases own : other = event.call
    · subst own
      cases event with
      | start id request =>
          obtain ⟨-, rfl⟩ := step_start_eq_some.mp taken
          cases (calls_put_self state id _).symm.trans at_other
          exact Or.inr (List.mem_singleton.mpr rfl)
      | execute id =>
          obtain ⟨request, site, β, statement, rest, here, rfl⟩ :=
            step_execute_eq_some.mp taken
          cases (calls_put_self state id _).symm.trans at_other
          exact Or.inl (held id ⟨request, .atomic site statement rest⟩ here)
      | fail id failure =>
          obtain ⟨request, site, β, statement, rest, here, rfl⟩ :=
            step_fail_eq_some.mp taken
          cases (calls_put_self state id _).symm.trans at_other
          exact Or.inl (held id ⟨request, .atomic site statement rest⟩ here)
    · rw [calls_of_step taken own] at at_other
      exact Or.inl (held other call at_other)
  exact asked id call found

/-! ## What a statement does and how the call goes on -/

section Moves

/-- What the program answers, if it is done, meets `F`. -/
def EndsIn (F : α → Prop) (program : Program σ κ ξ α) : Prop :=
  ∀ result, result? program = some result → F result

/-- A program ends where what follows it does. -/
theorem ends_bind {β : Type} {F : α → Prop} {later : β → Program σ κ ξ α}
    {program : Program σ κ ξ β} :
    EndsIn F (program >>= later) ↔ EndsIn (fun result => EndsIn F (later result)) program := by
  cases program with
  | done result =>
      constructor
      · rintro ends other ⟨⟩
        exact ends
      · exact fun ends => ends result rfl
  | atomic site statement next => exact ⟨fun _ => nofun, fun _ => nofun⟩

variable {rely : σ → σ → Prop} {Q : κ → σ → σ → Program σ κ ξ α → Prop} {F : α → Prop}
  {post : α → σ → Prop}

/-- While the others change the store along `rely`, every statement the program executes
does `Q`, which sees the store before and after and the rest of the program; a program
ended by a failed statement answers `F`; and where the program ends, its result meets
`post`. -/
def Moves (rely : σ → σ → Prop) (Q : κ → σ → σ → Program σ κ ξ α → Prop) (F : α → Prop)
    (post : α → σ → Prop) : Program σ κ ξ α → σ → Prop
  | .done result, store => post result store
  | .atomic site statement rest, store => ∀ later, rely store later →
      (Q site later (effect statement later) (rest (answer statement later)) ∧
        Moves rely Q F post (rest (answer statement later)) (effect statement later)) ∧
      ∀ failure, EndsIn F (rest (.error failure)) ∧
        Moves rely Q F post (rest (.error failure)) later

/-- A guarantee under any interference is kept by every statement. -/
theorem moves_of_obeys {guarantee : κ → σ → σ → Prop} {program : Program σ κ ξ α} {store : σ}
    (implies : ∀ site before after rest, guarantee site before after → Q site before after rest)
    (ends : ∀ result, F result)
    (obeys : Obeys .any (fun _ _ => True) guarantee post program store) :
    Moves rely Q F post program store := by
  induction program generalizing store with
  | done result => exact obeys
  | atomic site statement rest ih =>
      intro later _
      obtain ⟨executed, failed⟩ := obeys later trivial
      obtain ⟨kept, goes⟩ := executed trivial
      refine ⟨⟨implies site later _ _ kept, ih _ goes⟩, fun failure => ⟨?_, ?_⟩⟩
      · exact fun result _ => ends result
      · exact ih _ (failed trivial failure)

/-- A program followed by another one. -/
theorem moves_bind {β : Type} {later : β → Program σ κ ξ α} {program : Program σ κ ξ β}
    {store : σ}
    (first : Moves rely (fun site before after rest => Q site before after (rest >>= later))
      (fun result => EndsIn F (later result))
      (fun result store => Moves rely Q F post (later result) store) program store) :
    Moves rely Q F post (program >>= later) store := by
  induction program generalizing store with
  | done result => exact first
  | atomic site statement rest ih =>
      intro last grown
      obtain ⟨⟨does, goes⟩, failed⟩ := first last grown
      refine ⟨⟨does, ih _ goes⟩, fun failure => ⟨?_, ?_⟩⟩
      · exact ends_bind.mpr (failed failure).1
      · exact ih _ (failed failure).2

theorem Moves.mono {weaker : α → σ → Prop}
    (implies : ∀ result store, post result store → weaker result store)
    {program : Program σ κ ξ α} {store : σ} (moves : Moves rely Q F post program store) :
    Moves rely Q F weaker program store := by
  induction program generalizing store with
  | done result => exact implies result store moves
  | atomic site statement rest ih =>
      intro later grown
      obtain ⟨⟨does, goes⟩, failed⟩ := moves later grown
      exact ⟨⟨does, ih _ goes⟩, fun failure => ⟨(failed failure).1, ih _ (failed failure).2⟩⟩

/-- What another program did before does not matter. -/
theorem Moves.later {program : Program σ κ ξ α} {store last : σ}
    (moves : Moves rely Q F (fun _ _ => True) program store)
    (compose : ∀ {a b c}, rely a b → rely b c → rely a c) (grown : rely store last) :
    Moves rely Q F (fun _ _ => True) program last := by
  cases program with
  | done result => trivial
  | atomic site statement rest => exact fun other grown' => moves other (compose grown grown')

/-- Every call in progress moves by the condition of its request. -/
def Service.Moving (rely : σ → σ → Prop) (Q : ρ → κ → σ → σ → Program σ κ ξ α → Prop)
    (F : ρ → α → Prop) (service : Service σ κ ξ ι ρ α) : Prop :=
  ∀ id call, service.calls id = some call →
    Moves rely (Q call.request) (F call.request) (fun _ _ => True) call.rest service.store

section Services

variable {Q : ρ → κ → σ → σ → Program σ κ ξ α → Prop} {F : ρ → α → Prop}

/-- One call moves on, and leaves a store the others can go on from. -/
theorem Service.Moving.put (moving : service.Moving rely Q F)
    (compose : ∀ {a b c}, rely a b → rely b c → rely a c) {id : ι} {call : Call σ κ ξ ρ α}
    {store : σ} (grown : rely service.store store)
    (moves : Moves rely (Q call.request) (F call.request) (fun _ _ => True) call.rest store) :
    Service.Moving rely Q F { service.put id call with store } := by
  intro other found at_other
  obtain ⟨-, rfl⟩ | ⟨-, before⟩ := (calls_put_eq_some ..).mp at_other
  · exact moves
  · exact (moving other found before).later compose grown

/-- One step leaves the store alone and ends no call but in `F`, or is a statement that
does `Q`. -/
theorem step_moves (reflexive : ∀ store, rely store store)
    (compose : ∀ {a b c}, rely a b → rely b c → rely a c)
    (steps : ∀ request site before after rest, Q request site before after rest →
      rely before after)
    (served : ∀ request store, EndsIn (F request) (serve request) ∧
      Moves rely (Q request) (F request) (fun _ _ => True) (serve request) store)
    (moving : service.Moving rely Q F) {event : Event ι ρ ξ}
    (taken : step serve service event = some next) :
    next.Moving rely Q F ∧
      (next.store = service.store ∧ (∀ id, event ≠ .execute id) ∧
          (∃ request rest, next.calls event.call = some ⟨request, rest⟩ ∧
            EndsIn (F request) rest) ∨
        ∃ id site request rest, event = .execute id ∧ service.nextSite? id = some site ∧
          next.calls id = some ⟨request, rest⟩ ∧ Q request site service.store next.store rest) := by
  have here := reflexive service.store
  cases event with
  | start id request =>
      obtain ⟨-, rfl⟩ := step_start_eq_some.mp taken
      obtain ⟨ends, moves⟩ := served request service.store
      exact ⟨moving.put compose here moves, Or.inl ⟨rfl, fun _ => nofun, request, _,
        calls_put_self service id _, ends⟩⟩
  | execute id =>
      obtain ⟨request, site, β, statement, rest, found, rfl⟩ := step_execute_eq_some.mp taken
      obtain ⟨does, moves⟩ := (moving id _ found service.store here).1
      refine ⟨moving.put compose (steps request site _ _ _ does) moves,
        Or.inr ⟨id, site, request, _, rfl, ?_, ?_, does⟩⟩
      · simp only [Service.nextSite?, found]
      · exact calls_put_self service id _
  | fail id failure =>
      obtain ⟨request, site, β, statement, rest, found, rfl⟩ := step_fail_eq_some.mp taken
      obtain ⟨ends, moves⟩ := (moving id _ found service.store here).2 failure
      exact ⟨moving.put compose here moves, Or.inl ⟨rfl, fun _ => nofun, request, _,
        calls_put_self service id _, ends⟩⟩

end Services

end Moves

/-! ## Calls that promise something of their answer -/

section Promises

variable {guarantee : κ → σ → σ → Prop} {post : α → σ → Prop}

/-- Whatever the others do in between, a call in progress keeps the guarantee with
every statement, and answers what meets `post` where it answers. -/
def Service.Promises (guarantee : κ → σ → σ → Prop) (post : α → σ → Prop)
    (service : Service σ κ ξ ι ρ α) : Prop :=
  ∀ id call, service.calls id = some call → result? call.rest = none →
    ∀ store, Obeys .any (fun _ _ => True) guarantee post call.rest store

theorem Service.Promises.put (promises : service.Promises guarantee post)
    {request : ρ} {rest : Program σ κ ξ α} {store : σ}
    (obeys : Obeys .any (fun _ _ => True) guarantee post rest store) :
    (service.put id ⟨request, rest⟩).Promises guarantee post := by
  intro other call found going later
  obtain ⟨-, rfl⟩ | ⟨-, before⟩ := (calls_put_eq_some ..).mp found
  · cases rest with
    | done result => cases going
    | atomic site statement next => exact fun last _ => obeys last trivial
  · exact promises other call before going later

/-- One step keeps the promises: the store is left alone or changed under the
guarantee, and a call that answers meets `post` there. -/
theorem step_promises
    (served : ∀ request store,
      Obeys .any (fun _ _ => True) guarantee post (serve request) store)
    (promises : service.Promises guarantee post) {event : Event ι ρ ξ}
    (taken : step serve service event = some next) :
    next.Promises guarantee post ∧
      (next.store = service.store ∧ (∀ id, event ≠ .execute id) ∨
        ∃ id site, event = .execute id ∧ service.nextSite? id = some site ∧
          guarantee site service.store next.store) ∧
      ∀ request result, service.answered? event.call = none →
        next.answered? event.call = some (request, result) → post result next.store := by
  cases event with
  | start id request =>
      obtain ⟨-, rfl⟩ := step_start_eq_some.mp taken
      have obeys := served request service.store
      refine ⟨promises.put obeys, Or.inl ⟨rfl, fun _ => nofun⟩, ?_⟩
      intro asked result _ ended
      have here := (calls_put_self service id _).symm.trans (answered?_eq_some.mp ended)
      obtain ⟨rfl, rest⟩ := Call.mk.inj (Option.some.inj here)
      rw [rest] at obeys
      exact obeys
  | execute id =>
      obtain ⟨request, site, β, statement, rest, found, rfl⟩ := step_execute_eq_some.mp taken
      obtain ⟨kept, obeys⟩ :=
        (promises id _ found rfl service.store service.store trivial).1 trivial
      refine ⟨promises.put obeys, Or.inr ⟨id, site, rfl, ?_, kept⟩, ?_⟩
      · simp only [Service.nextSite?, found]
      · intro asked result _ ended
        have here := (calls_put_self service id _).symm.trans (answered?_eq_some.mp ended)
        obtain ⟨rfl, rest⟩ := Call.mk.inj (Option.some.inj here)
        rw [rest] at obeys
        exact obeys
  | fail id failure =>
      obtain ⟨request, site, β, statement, rest, found, rfl⟩ := step_fail_eq_some.mp taken
      have obeys := (promises id _ found rfl service.store service.store trivial).2 trivial failure
      refine ⟨promises.put obeys, Or.inl ⟨rfl, fun _ => nofun⟩, ?_⟩
      intro asked result _ ended
      have here := (calls_put_self service id _).symm.trans (answered?_eq_some.mp ended)
      obtain ⟨rfl, rest⟩ := Call.mk.inj (Option.some.inj here)
      rw [rest] at obeys
      exact obeys

end Promises

end Services

end TimeTracker.Library.Serving
