import Mathlib.Data.List.Induction
import TimeTracker.Library.Serving

/-!
# The journal of a program

The others may do anything to the store between two statements of a program.
`Records` says what holds of its statements and of its result all the same, in
terms of its journal: the statements it has executed so far, each with the
store it met.  In a run of calls the journal of a call is made of its own
events.
-/

namespace TimeTracker.Library.Recording

open TimeTracker.Library.Run
open TimeTracker.Library.Atomic
open TimeTracker.Library.Rely
open TimeTracker.Library.Serving

section Programs

variable {σ κ ξ α β : Type}

/-- Statements that were executed, each with the store it met. -/
abbrev Journal (κ σ : Type) := List (κ × σ)

/-- Whatever store each statement meets, what it does meets `P`, and the result meets
`Q`; both see the journal so far. -/
def Records (P : Journal κ σ → κ → σ → σ → Prop) (Q : α → Journal κ σ → Prop) :
    Program σ κ ξ α → Journal κ σ → Prop
  | .done result, journal => Q result journal
  | .atomic site statement next, journal =>
      (∀ store, P journal site store (effect statement store) ∧
        Records P Q (next (answer statement store)) (journal ++ [(site, store)])) ∧
      ∀ failure, Records P Q (next (.error failure)) journal

variable {P P' : Journal κ σ → κ → σ → σ → Prop} {Q Q' : α → Journal κ σ → Prop}
  {journal : Journal κ σ}

theorem records_bind {program : Program σ κ ξ β} {rest : β → Program σ κ ξ α}
    (first : Records P (fun result journal => Records P Q (rest result) journal) program
      journal) :
    Records P Q (program >>= rest) journal := by
  induction program generalizing journal with
  | done result => exact first
  | atomic site statement next ih =>
      refine ⟨fun store => ?_, fun failure => ih _ (first.2 failure)⟩
      obtain ⟨does, goes⟩ := first.1 store
      exact ⟨does, ih _ goes⟩

theorem records_perform {site : κ} {statement : σ → Except ξ (β × σ)}
    {Q : Except ξ β → Journal κ σ → Prop}
    (does : ∀ store, P journal site store (effect statement store))
    (committed : ∀ store value next, statement store = .ok (value, next) →
      Q (.ok value) (journal ++ [(site, store)]))
    (failed : ∀ failure later, Q (.error failure) later) :
    Records P Q (Program.perform site statement) journal := by
  refine ⟨fun store => ⟨does store, ?_⟩, fun failure => failed failure journal⟩
  cases ran : statement store with
  | ok pair =>
      rw [answer_of_ok ran]
      exact committed store pair.1 pair.2 ran
  | error failure =>
      rw [answer_of_error ran]
      exact failed failure _

theorem Records.mono
    (does : ∀ journal site before after, P journal site before after →
      P' journal site before after)
    (ends : ∀ result journal, Q result journal → Q' result journal)
    {program : Program σ κ ξ α} (records : Records P Q program journal) :
    Records P' Q' program journal := by
  induction program generalizing journal with
  | done result => exact ends result journal records
  | atomic site statement next ih =>
      refine ⟨fun store => ?_, fun failure => ih _ (records.2 failure)⟩
      obtain ⟨done, goes⟩ := records.1 store
      exact ⟨does _ _ _ _ done, ih _ goes⟩

/-- The result may be asked for less. -/
theorem Records.weaken {program : Program σ κ ξ α} (records : Records P Q program journal)
    (ends : ∀ result journal, Q result journal → Q' result journal) :
    Records P Q' program journal :=
  records.mono (fun _ _ _ _ done => done) ends

/-- What follows may rest on what the first part ends in. -/
theorem Records.bind {R : β → Journal κ σ → Prop} {program : Program σ κ ξ β}
    {rest : β → Program σ κ ξ α} (first : Records P R program journal)
    (later : ∀ result journal, R result journal → Records P Q (rest result) journal) :
    Records P Q (program >>= rest) journal :=
  records_bind (first.weaken later)

theorem Records.and {program : Program σ κ ξ α} (first : Records P Q program journal)
    (second : Records P' Q' program journal) :
    Records (fun journal site before after => P journal site before after ∧
        P' journal site before after)
      (fun result journal => Q result journal ∧ Q' result journal) program journal := by
  induction program generalizing journal with
  | done result => exact ⟨first, second⟩
  | atomic site statement next ih =>
      refine ⟨fun store => ?_, fun failure => ih _ (first.2 failure) (second.2 failure)⟩
      obtain ⟨done, goes⟩ := first.1 store
      obtain ⟨done', goes'⟩ := second.1 store
      exact ⟨⟨done, done'⟩, ih _ goes goes'⟩

/-- A journal only grows. -/
theorem Records.grows {start : Journal κ σ} {program : Program σ κ ξ α}
    (grown : ∀ entry ∈ start, entry ∈ journal) (records : Records P Q program journal) :
    Records
      (fun journal site before after => (∀ entry ∈ start, entry ∈ journal) ∧
        P journal site before after)
      (fun result journal => (∀ entry ∈ start, entry ∈ journal) ∧ Q result journal) program
      journal := by
  induction program generalizing journal with
  | done result => exact ⟨grown, records⟩
  | atomic site statement next ih =>
      refine ⟨fun store => ?_, fun failure => ih _ grown (records.2 failure)⟩
      obtain ⟨done, goes⟩ := records.1 store
      exact ⟨⟨grown, done⟩,
        ih _ (fun entry member => List.mem_append_left _ (grown entry member)) goes⟩

/-- What a program promises under any interference, it does. -/
theorem records_of_obeys {guarantee : κ → σ → σ → Prop} {post : α → σ → Prop}
    {program : Program σ κ ξ α} {store : σ}
    (obeys : Obeys .any (fun _ _ => True) guarantee post program store) :
    Records (fun _ => guarantee) (fun result _ => ∃ store, post result store) program
      journal := by
  induction program generalizing store journal with
  | done result => exact ⟨store, obeys⟩
  | atomic site statement next ih =>
      refine ⟨fun later => ?_, fun failure => ih _ ((obeys store trivial).2 trivial failure)⟩
      obtain ⟨kept, goes⟩ := (obeys later trivial).1 trivial
      exact ⟨kept, ih _ goes⟩

/-! ## Programs that may give up -/

section Attempts

variable {ε : Type} {Q : Except ε α → Journal κ σ → Prop}

theorem records_attempt_pure {value : α} (holds : Q (.ok value) journal) :
    Records P Q (pure value : Attempt σ κ ξ ε α).run journal :=
  holds

theorem records_attempt_throw {error : ε} (holds : Q (.error error) journal) :
    Records P Q (throw error : Attempt σ κ ξ ε α).run journal :=
  holds

/-- An error skips the rest. -/
theorem records_attempt_bind {attempt : Attempt σ κ ξ ε β} {rest : β → Attempt σ κ ξ ε α}
    (first : Records P
      (fun result journal => match result with
        | .ok value => Records P Q (rest value).run journal
        | .error error => Q (.error error) journal)
      attempt.run journal) :
    Records P Q (attempt >>= rest).run journal := by
  have unfolded : (attempt >>= rest).run = attempt.run >>= ExceptT.bindCont rest := rfl
  rw [unfolded]
  refine first.bind ?_
  rintro (error | value) journal holds
  · exact holds
  · exact holds

end Attempts

end Programs

/-! ## Programs on a part of the store -/

section Parts

variable {σ τ κ κ' ξ ξ' α : Type} {part : Part σ τ} {faults : Faults ξ' ξ}
  {relabel : κ' → κ}

/-- What the journal of the part has was executed on the whole. -/
def Lifts (part : Part σ τ) (relabel : κ' → κ) (inner : Journal κ' τ)
    (journal : Journal κ σ) : Prop :=
  ∀ site held, (site, held) ∈ inner →
    ∃ store, (relabel site, store) ∈ journal ∧ part.get store = held

theorem Lifts.snoc {inner : Journal κ' τ} {journal : Journal κ σ}
    (lifts : Lifts part relabel inner journal) (site : κ') (store : σ) :
    Lifts part relabel (inner ++ [(site, part.get store)])
      (journal ++ [(relabel site, store)]) := by
  intro other held member
  rcases List.mem_append.mp member with old | new
  · obtain ⟨met, present, same⟩ := lifts other held old
    exact ⟨met, List.mem_append_left _ present, same⟩
  · cases List.mem_singleton.mp new
    exact ⟨store, List.mem_append_right _ (List.mem_singleton.mpr rfl), rfl⟩

theorem Lifts.nil (journal : Journal κ σ) :
    Lifts part relabel ([] : Journal κ' τ) journal :=
  fun _ _ member => absurd member List.not_mem_nil

/-- A program on a part of the store records there what it records by itself. -/
theorem records_zoom {P : Journal κ' τ → κ' → τ → τ → Prop} {Q : α → Journal κ' τ → Prop}
    {program : Program τ κ' ξ' α} {inner : Journal κ' τ} {journal : Journal κ σ}
    (lifts : Lifts part relabel inner journal) (records : Records P Q program inner) :
    Records
      (fun journal site before after => ∃ inner label held,
        Lifts part relabel inner journal ∧ site = relabel label ∧
        P inner label (part.get before) held ∧ after = part.set held before)
      (fun result journal => ∃ inner, Lifts part relabel inner journal ∧ Q result inner)
      (program.zoom part faults relabel) journal := by
  induction program generalizing inner journal with
  | done result => exact ⟨inner, lifts, records⟩
  | atomic label statement next ih =>
      refine ⟨fun store => ?_, fun failure => ih _ lifts (records.2 _)⟩
      obtain ⟨does, goes⟩ := records.1 (part.get store)
      refine ⟨⟨inner, label, _, lifts, rfl, does, effect_onPart part faults statement store⟩, ?_⟩
      dsimp only
      rw [answer_onPart]
      exact ih _ (lifts.snoc label store) goes

end Parts

/-! ## Along a run of calls -/

section Runs

variable {σ κ ξ ι ρ α : Type} {serve : ρ → Program σ κ ξ α}
  {P : ρ → Journal κ σ → κ → σ → σ → Prop} {Q : ρ → α → Journal κ σ → Prop}
  {ran ran' : ι → κ → σ → Prop} {service next last : Service σ κ ξ ι ρ α} {store : σ}
  {events : List (Serving.Event ι ρ ξ)}

/-- Every call in progress has a journal of what it ran, and goes on by it. -/
def Recorded (P : ρ → Journal κ σ → κ → σ → σ → Prop) (Q : ρ → α → Journal κ σ → Prop)
    (ran : ι → κ → σ → Prop) (service : Service σ κ ξ ι ρ α) : Prop :=
  ∀ id call, service.calls id = some call → ∃ journal : Journal κ σ,
    (∀ entry ∈ journal, ran id entry.1 entry.2) ∧
    Records (P call.request) (Q call.request) call.rest journal

theorem Recorded.mono (recorded : Recorded P Q ran service)
    (implies : ∀ id site store, ran id site store → ran' id site store) :
    Recorded P Q ran' service := by
  intro id call found
  obtain ⟨journal, entries, records⟩ := recorded id call found
  exact ⟨journal, fun entry member => implies _ _ _ (entries entry member), records⟩

/-- What a call answers was recorded of the statements it executed. -/
theorem Recorded.answered (recorded : Recorded P Q ran service)
    {id : ι} {request : ρ} {result : α}
    (ended : service.answered? id = some (request, result)) :
    ∃ journal : Journal κ σ, (∀ entry ∈ journal, ran id entry.1 entry.2) ∧
      Q request result journal :=
  recorded id _ (answered?_eq_some.mp ended)

variable [DecidableEq ι]

/-- Along the events the call executed this statement, which met this store. -/
def Executed (serve : ρ → Program σ κ ξ α) (store : σ)
    (events : List (Serving.Event ι ρ ξ)) (id : ι) (site : κ) (met : σ) : Prop :=
  ∃ past later before, events = past ++ .execute id :: later ∧
    runFrom (step serve) (.idle store) past = some before ∧
    before.nextSite? id = some site ∧ before.store = met

theorem Recorded.put (recorded : Recorded P Q ran service) {id : ι}
    {call : Call σ κ ξ ρ α} {journal : Journal κ σ}
    (entries : ∀ entry ∈ journal, ran id entry.1 entry.2)
    (records : Records (P call.request) (Q call.request) call.rest journal) :
    Recorded P Q ran (service.put id call) := by
  intro other found at_other
  obtain ⟨rfl, rfl⟩ | ⟨-, before⟩ := (calls_put_eq_some ..).mp at_other
  · exact ⟨journal, entries, records⟩
  · exact recorded other found before

/-- One step leaves the store alone, or is a statement that does what is recorded. -/
theorem recorded_step
    (served : ∀ request, Records (P request) (Q request) (serve request) [])
    (recorded : Recorded P Q ran service) {event : Serving.Event ι ρ ξ}
    (runs : ∀ id site, event = .execute id → service.nextSite? id = some site →
      ran id site service.store)
    (taken : step serve service event = some next) :
    Recorded P Q ran next ∧
      (next.store = service.store ∨
        ∃ id site call journal, event = .execute id ∧ service.calls id = some call ∧
          service.nextSite? id = some site ∧ (∀ entry ∈ journal, ran id entry.1 entry.2) ∧
          P call.request journal site service.store next.store) := by
  cases event with
  | start id request =>
      obtain ⟨-, rfl⟩ := step_start_eq_some.mp taken
      exact ⟨recorded.put (fun _ member => absurd member List.not_mem_nil) (served request),
        Or.inl rfl⟩
  | execute id =>
      obtain ⟨request, site, β, statement, rest, found, rfl⟩ := step_execute_eq_some.mp taken
      obtain ⟨journal, entries, records⟩ := recorded id _ found
      obtain ⟨does, goes⟩ := records.1 service.store
      have at_site : service.nextSite? id = some site := by
        simp only [Service.nextSite?, found]
      refine ⟨recorded.put ?_ goes,
        Or.inr ⟨id, site, _, journal, rfl, found, at_site, entries, does⟩⟩
      intro entry member
      rcases List.mem_append.mp member with old | new
      · exact entries entry old
      · cases List.mem_singleton.mp new
        exact runs id site rfl at_site
  | fail id failure =>
      obtain ⟨request, site, β, statement, rest, found, rfl⟩ := step_fail_eq_some.mp taken
      obtain ⟨journal, entries, records⟩ := recorded id _ found
      exact ⟨recorded.put entries (records.2 failure), Or.inl rfl⟩

/-- What every recorded statement does, the run does. -/
theorem Recorded.keeps {K : σ → σ → Prop} (reflexive : ∀ store, K store store)
    (compose : ∀ {a b c}, K a b → K b c → K a c)
    (served : ∀ request, Records (P request) (Q request) (serve request) [])
    (does : ∀ request journal site before after, P request journal site before after →
      K before after)
    (recorded : Recorded P Q ran service)
    (run : runFrom (step serve) service events = some last) : K service.store last.store := by
  replace recorded : Recorded P Q (fun _ _ _ => True) service :=
    recorded.mono fun _ _ _ _ => trivial
  induction events generalizing service with
  | nil =>
      cases run
      exact reflexive _
  | cons event rest ih =>
      obtain ⟨middle, taken, run⟩ := runFrom_cons_eq_some.mp run
      obtain ⟨recorded', moved⟩ :=
        recorded_step served recorded (fun _ _ _ _ => trivial) taken
      refine compose ?_ (ih run recorded')
      rcases moved with same | ⟨id, site, call, journal, -, -, -, -, done⟩
      · rw [same]
        exact reflexive _
      · exact does _ _ _ _ _ done

/-- Along a run every call keeps its journal of what it executed.  An invariant `M` of the
stores may rest on the journal and on what was asked for. -/
theorem recorded_run {M : σ → Prop} (start : M store)
    (served : ∀ request, Records (P request) (Q request) (serve request) [])
    (kept : ∀ id request journal site before after, .start id request ∈ events →
      (∀ entry ∈ journal, Executed serve store events id entry.1 entry.2 ∧ M entry.2) →
      Executed serve store events id site before → M before →
      P request journal site before after → M after)
    {past rest : List (Serving.Event ι ρ ξ)} (split : events = past ++ rest)
    (run : runFrom (step serve) (.idle store) past = some service) :
    M service.store ∧
      Recorded P Q (fun id site met => Executed serve store events id site met ∧ M met)
        service := by
  induction past using List.reverseRecOn generalizing rest service with
  | nil =>
      cases run
      exact ⟨start, nofun⟩
  | append_singleton past event ih =>
      obtain ⟨before, reached, taken⟩ := runFrom_append_eq_some.mp run
      obtain ⟨after, taken, ended⟩ := runFrom_cons_eq_some.mp taken
      cases ended
      rw [List.append_assoc] at split
      obtain ⟨held, recorded⟩ := ih split reached
      have executes : ∀ id site, event = .execute id → before.nextSite? id = some site →
          Executed serve store events id site before.store ∧ M before.store := by
        rintro id site rfl at_site
        exact ⟨⟨past, rest, before, split, reached, at_site, rfl⟩, held⟩
      obtain ⟨recorded', moved⟩ := recorded_step served recorded executes taken
      refine ⟨?_, recorded'⟩
      rcases moved with same | ⟨id, site, call, journal, rfl, found, at_site, entries, done⟩
      · rw [same]
        exact held
      · have asked : .start id call.request ∈ events := by
          rw [split]
          exact List.mem_append_left _ (start_mem_of_run reached found)
        exact kept id call.request journal site _ _ asked entries
          (executes id site rfl at_site).1 held done

end Runs

end TimeTracker.Library.Recording
