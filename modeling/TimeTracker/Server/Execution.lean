import TimeTracker.Server.Functions

/-!
# Reasoning about server functions

Two readings of a handler.  Run by itself, `Ensures` says what holds of its
reply, the database and the statements executed, whichever statement the
database fails at.  Interleaved with others, `Each` says what holds of every
statement it can execute.
-/

namespace TimeTracker.Server.Execution

open TimeTracker.Text
open TimeTracker.Library.Atomic
open TimeTracker.Server.Schema
open TimeTracker.Server.Store
open TimeTracker.Server.Functions

/-- The statements a run executed, each with the database it met. -/
abbrev Log := List (Site × Database)

section Statements

variable {α β : Type} {db final : Database}

theorem sql_bind_eq_ok {first : Sql α} {rest : α → Sql β} {result : β} :
    (first >>= rest) db = .ok (result, final) ↔
      ∃ value middle, first db = .ok (value, middle) ∧
        rest value middle = .ok (result, final) := by
  have unfolded : (first >>= rest) db =
      (first db).bind fun pair => rest pair.1 pair.2 := rfl
  rw [unfolded]
  constructor
  · intro ran
    cases hfirst : first db with
    | error failure =>
        rw [hfirst] at ran
        cases ran
    | ok pair =>
        rw [hfirst] at ran
        exact ⟨pair.1, pair.2, rfl, ran⟩
  · rintro ⟨value, middle, hfirst, hrest⟩
    rw [hfirst]
    exact hrest

@[simp] theorem sql_pure (value : α) : (pure value : Sql α) db = .ok (value, db) :=
  rfl

end Statements

/-! ## A handler by itself -/

section Alone

variable {α β : Type}

/-- Run a handler by itself. -/
def execute (handler : Handler α) (cookie : Option SetCookie)
    (machine : Machine Database Site) :
    (Except String α × Option SetCookie) × Machine Database Site :=
  (handler.run.run cookie).run .unavailable machine

/-- Whichever statement the database fails at, `Q` holds of the reply, of the
database and of the executed statements at the end. -/
def Ensures (handler : Handler α) (db : Database) (log : Log)
    (Q : Except String α → Database → Log → Prop) : Prop :=
  ∀ faultAt cookie,
    let outcome := execute handler cookie ⟨faultAt, db, log⟩
    Q outcome.1.1 outcome.2.store outcome.2.log

variable {db : Database} {log : Log} {Q : Except String α → Database → Log → Prop}

theorem execute_bind (handler : Handler α) (rest : α → Handler β)
    (cookie : Option SetCookie) (machine : Machine Database Site) :
    execute (handler >>= rest) cookie machine =
      match execute handler cookie machine with
      | ((.ok value, cookie), machine) => execute (rest value) cookie machine
      | ((.error message, cookie), machine) =>
          ((.error message, cookie), machine) := by
  have unfolded : execute (handler >>= rest) cookie machine =
      ((handler.run.run cookie) >>= fun pair =>
        ((ExceptT.bindCont rest pair.1).run pair.2)).run .unavailable machine :=
    rfl
  rw [unfolded, Program.run_bind]
  rcases hrun : execute handler cookie machine with
    ⟨⟨message | value, cookie'⟩, machine'⟩
  · rw [execute] at hrun
    rw [hrun]
    rfl
  · rw [execute] at hrun
    rw [hrun]
    rfl

/-- Composition: what the first part ensures is what the rest starts from. -/
theorem ensures_bind {handler : Handler β} {rest : β → Handler α}
    (first : Ensures handler db log fun reply db log =>
      match reply with
      | .ok value => Ensures (rest value) db log Q
      | .error message => Q (.error message) db log) :
    Ensures (handler >>= rest) db log Q := by
  intro faultAt cookie
  have here := first faultAt cookie
  simp only [execute_bind]
  rcases hrun : execute handler cookie ⟨faultAt, db, log⟩ with
    ⟨⟨message | value, cookie'⟩, machine⟩
  · rw [hrun] at here
    exact here
  · rw [hrun] at here
    exact here machine.faultAt cookie'

theorem ensures_pure {value : α} (holds : Q (.ok value) db log) :
    Ensures (pure value) db log Q :=
  fun _ _ => holds

theorem ensures_throw {message : String} (holds : Q (.error message) db log) :
    Ensures (throw message) db log Q :=
  fun _ _ => holds

theorem ensures_setCookie {header : SetCookie}
    {Q : Except String Unit → Database → Log → Prop}
    (holds : Q (.ok ()) db log) : Ensures (setCookie header) db log Q :=
  fun _ _ => holds

theorem ensures_orRefuse {message : String} {option : Option α}
    (found : ∀ value, option = some value → Q (.ok value) db log)
    (missing : option = none → Q (.error message) db log) :
    Ensures (orRefuse message option) db log Q := by
  cases option with
  | none => exact ensures_throw (missing rfl)
  | some value => exact ensures_pure (found value rfl)

theorem ensures_refuse {outcome : Except String Unit}
    {Q : Except String Unit → Database → Log → Prop} (holds : Q outcome db log) :
    Ensures (refuse outcome) db log Q := by
  cases outcome with
  | ok value => exact ensures_pure holds
  | error message => exact ensures_throw holds

/-- A statement by itself, as a program. -/
theorem run_query (site : Site) (statement : Sql α) (cookie : Option SetCookie) :
    (query site statement).run.run cookie =
      Program.perform site statement >>= fun reply =>
        match reply with
        | .ok value => (.done (.ok value, cookie) : Program Database Site DbError _)
        | .error _ => .done (.error "Internal server error", cookie) := by
  unfold query
  refine congrArg (Program.atomic site statement) (funext fun reply => ?_)
  cases reply <;> rfl

/-- One statement: it is not reached, it is rolled back, or it commits. -/
theorem ensures_query {site : Site} {statement : Sql α}
    (unreached : Q (.error "Internal server error") db log)
    (failed : ∀ failure, statement db = .error failure →
      Q (.error "Internal server error") db (log ++ [(site, db)]))
    (committed : ∀ value next, statement db = .ok (value, next) →
      Q (.ok value) next (log ++ [(site, db)])) :
    Ensures (query site statement) db log Q := by
  intro faultAt cookie
  rw [execute, run_query, Program.run_bind, Program.run_perform]
  by_cases now : faultAt = some 0
  · simp only [now, if_true]
    exact unreached
  · simp only [now, if_false]
    cases hstatement : statement db with
    | error failure =>
        rw [answer_of_error hstatement, effect_of_error hstatement]
        exact failed failure hstatement
    | ok pair =>
        rw [answer_of_ok hstatement, effect_of_ok hstatement]
        exact committed pair.1 pair.2 hstatement

theorem ensures_ite {condition : Prop} [Decidable condition]
    {first second : Handler α}
    (yes : condition → Ensures first db log Q)
    (no : ¬ condition → Ensures second db log Q) :
    Ensures (if condition then first else second) db log Q := by
  split
  · exact yes ‹_›
  · exact no ‹_›

theorem Ensures.mono {handler : Handler α}
    {R : Except String α → Database → Log → Prop}
    (ensured : Ensures handler db log Q)
    (implies : ∀ reply next log', Q reply next log' → R reply next log') :
    Ensures handler db log R :=
  fun faultAt cookie => implies _ _ _ (ensured faultAt cookie)

end Alone

/-! ## A handler by itself, and the statement the database fails at -/

section Counting

variable {α β : Type}

/-- A run that answers has executed this many statements, none of them the one the
database fails at. -/
def Takes (handler : Handler α) (count : Nat) : Prop :=
  ∀ machine cookie value, (execute handler cookie machine).1.1 = .ok value →
    (∀ site < count, machine.faultAt ≠ some site) ∧
      (execute handler cookie machine).2.faultAt = machine.faultAt.map (· - count)

theorem takes_pure (value : α) : Takes (pure value) 0 := by
  intro machine cookie _ _
  refine ⟨fun site before => absurd before (Nat.not_lt_zero site), ?_⟩
  change machine.faultAt = _
  cases machine.faultAt <;> rfl

theorem takes_throw (message : String) (count : Nat) :
    Takes (throw message : Handler α) count :=
  fun _ _ _ answered => absurd answered nofun

theorem takes_orRefuse (message : String) (option : Option α) :
    Takes (orRefuse message option) 0 := by
  cases option with
  | none => exact takes_throw message 0
  | some value => exact takes_pure value

theorem takes_query (site : Site) (statement : Sql α) : Takes (query site statement) 1 := by
  intro ⟨faultAt, db, log⟩ cookie value answered
  rw [execute, run_query, Program.run_bind, Program.run_perform] at answered ⊢
  by_cases due : faultAt = some 0
  · simp only [due, if_true] at answered
    exact absurd answered nofun
  · simp only [due, if_false] at answered ⊢
    refine ⟨fun site before => ?_, by cases answer statement db <;> rfl⟩
    rwa [Nat.lt_one_iff.mp before]

theorem takes_bind {handler : Handler β} {rest : β → Handler α} {first second : Nat}
    (early : Takes handler first) (late : ∀ value, Takes (rest value) second) :
    Takes (handler >>= rest) (first + second) := by
  intro machine cookie value answered
  rw [execute_bind] at answered ⊢
  rcases ran : execute handler cookie machine with ⟨⟨message | middle, cookie'⟩, machine'⟩
  · rw [ran] at answered
    exact absurd answered nofun
  · rw [ran] at answered
    obtain ⟨spared, left⟩ := early machine cookie middle (congrArg (·.1.1) ran)
    rw [ran] at left
    obtain ⟨later, rest⟩ := late middle machine' cookie' value answered
    rw [show machine'.faultAt = _ from left] at later rest
    refine ⟨fun site before due => ?_, rest.trans ?_⟩
    · rcases Nat.lt_or_ge site first with within | beyond
      · exact spared site within due
      · refine later (site - first) (by omega) ?_
        rw [due]
        rfl
    · cases machine.faultAt with
      | none => rfl
      | some site => exact congrArg some (Nat.sub_sub site first second)

end Counting

/-! ## A handler by itself, when the database does not fail -/

section Unfailing

variable {α : Type} {db : Database} {log : Log} {cookie : Option SetCookie}

/-- One statement of a run nothing fails in. -/
theorem execute_query {site : Site} {statement : Sql α} {value : α} {next : Database}
    (committed : statement db = .ok (value, next)) :
    execute (query site statement) cookie ⟨none, db, log⟩ =
      ((.ok value, cookie), ⟨none, next, log ++ [(site, db)]⟩) := by
  rw [execute, run_query, Program.run_bind, Program.run_perform]
  simp [answer_of_ok committed, effect_of_ok committed]

theorem execute_pure (value : α) :
    execute (pure value) cookie ⟨none, db, log⟩ = ((.ok value, cookie), ⟨none, db, log⟩) :=
  rfl

theorem execute_orRefuse_some (message : String) (value : α) :
    execute (orRefuse message (some value)) cookie ⟨none, db, log⟩ =
      ((.ok value, cookie), ⟨none, db, log⟩) :=
  rfl

end Unfailing

/-! ## A handler among others -/

section Interleaved

variable {α β : Type} {Q : Site → (Database → Database) → Prop}

/-- Every statement the handler can execute satisfies `Q`. -/
def Each (Q : Site → (Database → Database) → Prop) (handler : Handler α) : Prop :=
  ∀ cookie, (handler.run.run cookie).Each Q

theorem each_pure (value : α) : Each Q (pure value : Handler α) :=
  fun _ => trivial

theorem each_throw (message : String) : Each Q (throw message : Handler α) :=
  fun _ => trivial

theorem each_setCookie (header : SetCookie) : Each Q (setCookie header) :=
  fun _ => trivial

theorem each_bind {handler : Handler α} {rest : α → Handler β}
    (first : Each Q handler) (later : ∀ value, Each Q (rest value)) :
    Each Q (handler >>= rest) := by
  intro cookie
  refine Program.each_bind (first cookie) ?_
  rintro ⟨message | value, cookie'⟩
  · exact trivial
  · exact later value cookie'

theorem each_query {site : Site} {statement : Sql α}
    (holds : Q site (effect statement)) : Each Q (query site statement) := by
  intro cookie
  refine ⟨holds, ?_⟩
  rintro (failure | value)
  · exact trivial
  · exact trivial

theorem each_orRefuse (message : String) (option : Option α) :
    Each Q (orRefuse message option) := by
  cases option with
  | none => exact each_throw message
  | some value => exact each_pure value

theorem each_refuse (outcome : Except String Unit) : Each Q (refuse outcome) := by
  cases outcome with
  | ok value => exact each_pure value
  | error message => exact each_throw message

theorem each_ite {condition : Prop} [Decidable condition]
    {first second : Handler α} (yes : Each Q first) (no : Each Q second) :
    Each Q (if condition then first else second) := by
  split
  · exact yes
  · exact no

end Interleaved

/-! ## Handlers that end in one deciding statement -/

/-- The statement only reads. -/
def isRead : Site → Bool
  | .findUser | .isEncrypted _ | .listWraps _ | .findCredential _
  | .hasWrap _ _ | .loadEntry _ | .datesInRange _ | .entriesInRange _ | .loadUser _ => true
  | _ => false

/-- The writing statements of a log. -/
def writes (log : Log) : Log :=
  log.filter fun executed => !isRead executed.1

/-- The session of the request names this user, and is not revoked. -/
def SignedIn (ctx : AppCtx) (db : Database) (me : User) : Prop :=
  ∃ claims email, ctx.claims = some claims ∧
    normalizeEmail claims.email = some email ∧
    userByEmail db email = some me ∧ me.sessionEpoch = claims.epoch

/--
How a run ends when the handler reads, and then decides in one statement: it
gave up before the statement, or it passed every guard and the statement was
rolled back or committed.
-/
inductive Decision {α β δ : Type} (Guard : δ → Prop) (site : δ → Site)
    (statement : δ → Sql β) (respond : β → Except String α)
    (db : Database) (log : Log) : Except String α → Database → Log → Prop
  | refused {message : String} {log' : Log} (same : writes log' = writes log) :
      Decision Guard site statement respond db log (.error message) db log'
  | failed {call : δ} {failure : DbError} {log' : Log} (passed : Guard call)
      (aborted : statement call db = .error failure)
      (executed : writes log' = writes log ++ writes [(site call, db)]) :
      Decision Guard site statement respond db log
        (.error "Internal server error") db log'
  | committed {call : δ} {value : β} {next : Database} {log' : Log}
      (passed : Guard call) (ran : statement call db = .ok (value, next))
      (executed : writes log' = writes log ++ writes [(site call, db)]) :
      Decision Guard site statement respond db log (respond value) next log'

/-- A session names one account. -/
theorem SignedIn.unique {ctx : AppCtx} {db : Database} {me other : User}
    (signedIn : SignedIn ctx db me) (otherIn : SignedIn ctx db other) : me = other := by
  obtain ⟨claims, email, holds, normalized, found, -⟩ := signedIn
  obtain ⟨otherClaims, otherEmail, otherHolds, otherNormalized, otherFound, -⟩ := otherIn
  cases holds.symm.trans otherHolds
  cases normalized.symm.trans otherNormalized
  exact Option.some.inj (found.symm.trans otherFound)

/-- A session names a live account. -/
theorem SignedIn.mem {ctx : AppCtx} {db : Database} {me : User}
    (signedIn : SignedIn ctx db me) : me ∈ db.users := by
  obtain ⟨claims, email, -, -, found, -⟩ := signedIn
  exact (mem_of_userByEmail found).1

/-- A session that names a live account resolves to it. -/
theorem SignedIn.execute_requireUser {ctx : AppCtx} {db : Database} {me : User}
    {log : Log} {cookie : Option SetCookie} (signedIn : SignedIn ctx db me) :
    execute (requireUser ctx) cookie ⟨none, db, log⟩ =
      ((.ok me, cookie), ⟨none, db, log ++ [(.findUser, db)]⟩) := by
  obtain ⟨claims, email, presented, normalized, found, epoch⟩ := signedIn
  have read : findByEmail claims.email db = .ok (some me, db) := by
    simp [findByEmail, normalized, found]
  unfold requireUser
  rw [presented, execute_bind, execute_orRefuse_some]
  dsimp only
  rw [execute_bind, execute_query read]
  dsimp only
  rw [execute_bind, execute_orRefuse_some]
  dsimp only
  rw [if_neg (not_not_intro epoch)]
  exact execute_pure me

section Decisions

variable {α β δ : Type} {Guard : δ → Prop} {site : δ → Site}
  {statement : δ → Sql β} {respond : β → Except String α}
  {db next : Database} {log log' : Log} {reply : Except String α}

/-- What holds before and after every commit holds after the run. -/
theorem Decision.keeps {I : Database → Prop}
    (decision : Decision Guard site statement respond db log reply next log')
    (start : I db)
    (kept : ∀ call value next, Guard call →
      writes log' = writes log ++ writes [(site call, db)] →
      statement call db = .ok (value, next) → I next) : I next := by
  cases decision with
  | refused same => exact start
  | failed passed aborted executed => exact start
  | committed passed ran executed => exact kept _ _ _ passed executed ran

/-- A run from an empty log that wrote nothing executed no writing statement. -/
theorem not_mem_of_writes {executed : Site} {met : Database}
    (same : writes log' = writes []) (writing : isRead executed = false) :
    (executed, met) ∉ log' := by
  intro hmem
  have wrote : (executed, met) ∈ writes log' :=
    List.mem_filter.mpr ⟨hmem, by simp [writing]⟩
  rw [same] at wrote
  cases wrote

/-- The writing statements of a run from an empty log that wrote once. -/
theorem mem_iff_of_writes {executed decided : Site} {met : Database}
    (wrote : writes log' = writes [] ++ writes [(decided, db)])
    (writing : isRead executed = false) :
    (executed, met) ∈ log' ↔ executed = decided ∧ met = db := by
  have filtered : (executed, met) ∈ log' ↔ (executed, met) ∈ writes log' := by
    rw [writes, List.mem_filter]
    simp [writing]
  rw [filtered, wrote]
  constructor
  · intro hmem
    cases List.mem_singleton.mp (List.mem_filter.mp hmem).1
    exact ⟨rfl, rfl⟩
  · rintro ⟨rfl, rfl⟩
    exact List.mem_filter.mpr ⟨List.mem_singleton.mpr rfl, by simp [writing]⟩

/-- A write in the log of a run from an empty log is the deciding statement. -/
theorem Decision.executed_site
    (decision : Decision Guard site statement respond db [] reply next log')
    {executed : Site} {met : Database} (hmem : (executed, met) ∈ log')
    (writing : isRead executed = false) :
    ∃ call, Guard call ∧ executed = site call ∧ met = db := by
  cases decision with
  | refused same => exact absurd hmem (not_mem_of_writes same writing)
  | failed passed aborted wrote =>
      exact ⟨_, passed, (mem_iff_of_writes wrote writing).mp hmem⟩
  | committed passed ran wrote =>
      exact ⟨_, passed, (mem_iff_of_writes wrote writing).mp hmem⟩

end Decisions

section Rules

variable {db : Database} {log : Log}

@[simp] theorem writes_append (first second : Log) :
    writes (first ++ second) = writes first ++ writes second :=
  List.filter_append ..

theorem findByEmail_eq_ok {email : String} {next : Database} {value : Option User}
    (ran : findByEmail email db = .ok (value, next)) :
    next = db ∧ ∀ user, value = some user → ∃ normalized,
      normalizeEmail email = some normalized ∧
        userByEmail db normalized = some user := by
  unfold findByEmail at ran
  split at ran
  · cases ran
    exact ⟨rfl, nofun⟩
  · next normalized named =>
      cases ran
      exact ⟨rfl, fun user found => ⟨normalized, named, found⟩⟩

/-- `require_user` reads the account and passes it on, or refuses. -/
theorem ensures_requireUser {ctx : AppCtx}
    {Q : Except String User → Database → Log → Prop}
    (signedIn : ∀ me log', SignedIn ctx db me → writes log' = writes log →
      Q (.ok me) db log')
    (refused : ∀ message log', writes log' = writes log →
      Q (.error message) db log') :
    Ensures (requireUser ctx) db log Q := by
  have read : writes [(Site.findUser, db)] = [] := rfl
  refine ensures_bind (ensures_orRefuse ?_ fun _ => refused _ _ rfl)
  intro claims hclaims
  refine ensures_bind (ensures_query (refused _ _ rfl)
    (fun _ _ => refused _ _ (by simp [read])) ?_)
  intro found next hfound
  obtain ⟨rfl, huser⟩ := findByEmail_eq_ok hfound
  refine ensures_bind (ensures_orRefuse ?_
    fun _ => refused _ _ (by simp [read]))
  rintro me rfl
  obtain ⟨email, hemail, hme⟩ := huser me rfl
  refine ensures_ite
    (fun _ => ensures_bind (ensures_throw (refused _ _ (by simp [read])))) ?_
  intro hepoch
  exact ensures_pure (signedIn me _
    ⟨claims, email, hclaims, hemail, hme, not_not.mp hepoch⟩ (by simp [read]))

/-- A read in the middle of a handler leaves the database and the writes alone. -/
theorem ensures_read {α : Type} {site : Site} {statement : Sql α}
    {Q : Except String α → Database → Log → Prop} (reads : isRead site = true)
    (unchanged : ∀ value next, statement db = .ok (value, next) → next = db)
    (answered : ∀ value log', statement db = .ok (value, db) →
      writes log' = writes log → Q (.ok value) db log')
    (refused : ∀ message log', writes log' = writes log →
      Q (.error message) db log') :
    Ensures (query site statement) db log Q := by
  have read : writes [(site, db)] = [] := by simp [writes, reads]
  refine ensures_query (refused _ _ rfl)
    (fun _ _ => refused _ _ (by simp [read])) ?_
  intro value next ran
  obtain rfl := unchanged value next ran
  exact answered value _ ran (by simp [read])

/-- The deciding statement closes the run. -/
theorem ensures_decide {α δ : Type} {Guard : δ → Prop} {site : δ → Site}
    {statement : δ → Sql α} {log' : Log} (call : δ) (passed : Guard call)
    (same : writes log' = writes log) :
    Ensures (query (site call) (statement call)) db log'
      (Decision Guard site statement .ok db log) := by
  refine ensures_query (.refused same) (fun failure aborted => ?_) ?_
  · exact .failed passed aborted (by rw [writes_append, same])
  · intro value next ran
    exact .committed passed ran (by rw [writes_append, same])

/-- The deciding statement, followed by a reply computed from its answer. -/
theorem ensures_decide_bind {α β δ : Type} {Guard : δ → Prop} {site : δ → Site}
    {statement : δ → Sql β} {respond : β → Except String α}
    {rest : β → Handler α} {log' : Log} (call : δ) (passed : Guard call)
    (same : writes log' = writes log)
    (answers : ∀ value next log'' (Q : Except String α → Database → Log → Prop),
      Q (respond value) next log'' → Ensures (rest value) next log'' Q) :
    Ensures (query (site call) (statement call) >>= rest) db log'
      (Decision Guard site statement respond db log) := by
  refine ensures_bind (ensures_query (.refused same) (fun failure aborted => ?_) ?_)
  · exact .failed passed aborted (by rw [writes_append, same])
  · intro value next ran
    exact answers _ _ _ _ (.committed passed ran (by rw [writes_append, same]))

/-- The deciding transaction closes the run, and may refuse. -/
theorem ensures_decide_refuse {δ : Type} {Guard : δ → Prop} {site : δ → Site}
    {statement : δ → Sql (Except String Unit)} {log' : Log} (call : δ)
    (passed : Guard call) (same : writes log' = writes log) :
    Ensures (query (site call) (statement call) >>= refuse) db log'
      (Decision Guard site statement id db log) :=
  ensures_decide_bind call passed same fun _ _ _ _ holds => ensures_refuse holds

end Rules

end TimeTracker.Server.Execution
