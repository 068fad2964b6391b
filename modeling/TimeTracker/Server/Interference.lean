import TimeTracker.Server.Outcomes
import TimeTracker.Library.Rely

/-!
# Server functions under interference

The rules of `Obeys` for handlers, whose result is a reply together with the
cookie the response sets.
-/

namespace TimeTracker.Server.Interference

open TimeTracker.Library.Atomic
open TimeTracker.Library.Rely
open TimeTracker.Server.Schema
open TimeTracker.Server.Store
open TimeTracker.Server.Functions
open TimeTracker.Server.Execution (run_query)

/-- What a handler answers, and the cookie its response sets. -/
abbrev Reply (α : Type) := Except String α × Option SetCookie

/-- The handler, with the cookie set so far, obeys `guarantee` and `post` while
the other requests keep to `rely`. -/
def Serves {α : Type} (rely : Database → Database → Prop)
    (guarantee : Site → Database → Database → Prop)
    (post : Reply α → Database → Prop) (handler : Handler α)
    (cookie : Option SetCookie) (db : Database) : Prop :=
  Obeys .any rely guarantee post (handler.run.run cookie) db

section Rules

variable {α β : Type} {rely : Database → Database → Prop}
  {guarantee : Site → Database → Database → Prop} {post : Reply α → Database → Prop}
  {cookie : Option SetCookie} {db : Database}

theorem serves_pure {value : α} (holds : post (.ok value, cookie) db) :
    Serves rely guarantee post (pure value) cookie db :=
  holds

theorem serves_throw {message : String} (holds : post (.error message, cookie) db) :
    Serves rely guarantee post (throw message) cookie db :=
  holds

theorem serves_setCookie {header : SetCookie} {post : Reply Unit → Database → Prop}
    (holds : post (.ok (), some header) db) :
    Serves rely guarantee post (setCookie header) cookie db :=
  holds

/-- Composition: the rest starts with the cookie and the database the first
part leaves. -/
theorem serves_bind {handler : Handler β} {rest : β → Handler α}
    (first : Serves rely guarantee
      (fun reply db => match reply with
        | (.ok value, cookie) => Serves rely guarantee post (rest value) cookie db
        | (.error message, cookie) => post (.error message, cookie) db)
      handler cookie db) :
    Serves rely guarantee post (handler >>= rest) cookie db := by
  have unfolded : (handler >>= rest).run.run cookie =
      (handler.run.run cookie) >>= fun pair =>
        (ExceptT.bindCont rest pair.1).run pair.2 :=
    rfl
  unfold Serves
  rw [unfolded]
  apply obeys_bind
  refine Obeys.mono ?_ first
  rintro ⟨message | value, header⟩ store holds
  · exact holds
  · exact holds

theorem serves_orRefuse {message : String} {option : Option α}
    (found : ∀ value, option = some value → post (.ok value, cookie) db)
    (missing : post (.error message, cookie) db) :
    Serves rely guarantee post (orRefuse message option) cookie db := by
  cases option with
  | none => exact serves_throw missing
  | some value => exact serves_pure (found value rfl)

theorem serves_refuse {outcome : Except String Unit}
    {post : Reply Unit → Database → Prop} (holds : post (outcome, cookie) db) :
    Serves rely guarantee post (refuse outcome) cookie db := by
  cases outcome with
  | ok value => exact holds
  | error message => exact holds

theorem serves_ite {condition : Prop} [Decidable condition]
    {first second : Handler α}
    (yes : condition → Serves rely guarantee post first cookie db)
    (no : ¬ condition → Serves rely guarantee post second cookie db) :
    Serves rely guarantee post (if condition then first else second) cookie db := by
  split
  · exact yes ‹_›
  · exact no ‹_›

/-- One statement, executed or failed at some later moment. -/
theorem serves_query {site : Site} {statement : Sql α}
    (kept : ∀ later, rely db later → guarantee site later (effect statement later))
    (committed : ∀ later value next, rely db later →
      statement later = .ok (value, next) → post (.ok value, cookie) next)
    (failed : ∀ later, rely db later →
      post (.error "Internal server error", cookie) later) :
    Serves rely guarantee post (query site statement) cookie db := by
  unfold Serves
  rw [run_query]
  apply obeys_bind
  apply obeys_perform fun later grown _ => kept later grown
  · intro later value next grown _ ran
    exact committed later value next grown ran
  · intro later failure grown
    exact failed later grown

/-- What comes after the last statement reaches the database no more. -/
theorem serves_then {handler : Handler α} {respond : α → β}
    (serves : Serves rely guarantee (fun _ _ => True) handler cookie db) :
    Serves rely guarantee (fun _ _ => True) (handler >>= fun value => pure (respond value))
      cookie db := by
  refine serves_bind (Obeys.mono ?_ serves)
  rintro ⟨message | value, header⟩ store -
  · exact trivial
  · exact serves_pure trivial

end Rules

end TimeTracker.Server.Interference
