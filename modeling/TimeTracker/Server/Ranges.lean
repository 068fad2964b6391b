import TimeTracker.Server.Entries
import TimeTracker.Spelling
import TimeTracker.Library.Run

/-!
# Days of a range

A range query compares spelled dates as text.  What it answers for an account
are the saved days between the two it is given, in order, exactly when no saved
day is one that the spelling of the years misfiles.
-/

namespace TimeTracker.Server.Ranges

open TimeTracker.Date
open TimeTracker.Calendar
open TimeTracker.Spelling
open TimeTracker.Library.Atomic
open TimeTracker.Library.Indexed
open TimeTracker.Library.Run
open TimeTracker.Server.Schema
open TimeTracker.Server.Store
open TimeTracker.Server.Functions
open TimeTracker.Server.Execution
open TimeTracker.Server.Outcomes
open TimeTracker.Server.Entries

/-! ## Days a text range misfiles -/

/-- The day's spelling lies between those of the ends of the range. -/
def TextWithin (day first last : NaiveDate) : Prop :=
  toIso first ≤ toIso day ∧ toIso day ≤ toIso last

/--
A day that a range across years gets wrong.  Where the year of the start sorts
after the year of the end the range selects nothing, so any day in it is.  Where
it sorts before, a day of another year is, if its year sorts between them
without lying between them, or the other way round.
-/
def Misfiled (first last day : NaiveDate) : Prop :=
  first.year ≠ last.year ∧
    if yearRank first.year < yearRank last.year then
      day.year ≠ first.year ∧ day.year ≠ last.year ∧
        ¬ ((yearRank first.year < yearRank day.year ∧
            yearRank day.year < yearRank last.year) ↔
          (first.year < day.year ∧ day.year < last.year))
    else day.Within first last

section Selection

variable {first last day : NaiveDate}

theorem yearRank_eq_iff (day other : NaiveDate) :
    yearRank day.year = yearRank other.year ↔ day.year = other.year :=
  ⟨yearRank_injective, fun same => by rw [same]⟩

theorem year_le_of_not_before (ordered : ¬ last.Before first) : first.year ≤ last.year := by
  simp only [NaiveDate.Before] at ordered
  omega

/-- A text range selects a day as it should, unless the day is misfiled. -/
theorem textWithin_iff (ordered : ¬ last.Before first) :
    (TextWithin day first last ↔ day.Within first last) ↔ ¬ Misfiled first last day := by
  have opens := yearRank_eq_iff day first
  have closes := yearRank_eq_iff day last
  have ends := yearRank_eq_iff first last
  have years := year_le_of_not_before ordered
  simp only [TextWithin, toIso_le_iff, SortsBefore, NaiveDate.Within, NaiveDate.Before,
    Misfiled]
  clear ordered
  generalize yearRank day.year = rank at *
  generalize yearRank first.year = firstRank at *
  generalize yearRank last.year = lastRank at *
  -- inside a year both orders compare the same months and days
  generalize (day.month < first.month ∨ day.month = first.month ∧ day.day < first.day) = early
  generalize (last.month < day.month ∨ last.month = day.month ∧ last.day < day.day) = late
  by_cases early <;> by_cases late <;>
    simp only [*, and_true, and_false, or_false] <;> split <;> omega

/-- A range of at most so many days touches three years at most. -/
theorem year_le_of_narrow (narrow : numDays first last ≤ MAX_RANGE_DAYS) :
    last.year ≤ first.year + 2 := by
  have high := (dayNumber_bounds first).2
  have low := (dayNumber_bounds last).1
  unfold numDays MAX_RANGE_DAYS at narrow
  refine Int.not_lt.mp fun far => ?_
  have later : first.year + 1 ≤ last.year := by omega
  have years := yearStart_mono later
  omega

/-- Days of a range that are not misfiled sort as they lie in it. -/
theorem before_of_toIso_lt {other : NaiveDate} (narrow : numDays first last ≤ MAX_RANGE_DAYS)
    (dayWithin : day.Within first last) (otherWithin : other.Within first last)
    (dayFiled : ¬ Misfiled first last day) (otherFiled : ¬ Misfiled first last other)
    (less : toIso day < toIso other) : day.Before other := by
  have span := year_le_of_narrow narrow
  have years := yearRank_eq_iff day other
  have dayFirst := yearRank_eq_iff day first
  have dayLast := yearRank_eq_iff day last
  have otherFirst := yearRank_eq_iff other first
  have otherLast := yearRank_eq_iff other last
  have dayOpens := year_le_of_not_before dayWithin.1
  have dayCloses := year_le_of_not_before dayWithin.2
  have otherOpens := year_le_of_not_before otherWithin.1
  have otherCloses := year_le_of_not_before otherWithin.2
  simp only [Misfiled, dayWithin, otherWithin] at dayFiled otherFiled
  rw [toIso_lt_iff] at less
  simp only [SortsBefore] at less
  clear dayWithin otherWithin narrow
  simp only [NaiveDate.Before]
  generalize yearRank day.year = rank at *
  generalize yearRank other.year = otherRank at *
  generalize yearRank first.year = firstRank at *
  generalize yearRank last.year = lastRank at *
  refine less.elim (fun sorts => .inl ?_) .inr
  by_cases ascending : firstRank < lastRank
  · simp only [ascending, if_true] at dayFiled otherFiled
    omega
  · simp only [ascending, if_false, and_true, not_not] at dayFiled
    omega

end Selection

/-! ## What the two queries answer -/

/-- The rows of a range, as `entries_in_range` reads them. -/
def dayRows (db : Database) (userId : Int) (first last : NaiveDate) :
    List (NaiveDate × String) :=
  (rowsInRange db userId first last).filterMap fun row =>
    (parseIso row.entryDate).map fun date => (date, row.body)

section Rows

variable {db : Database} {userId : Int} {first last day : NaiveDate} {body : String}

theorem parseIso_eq_some {raw : String} : parseIso raw = some day ↔ toIso day = raw := by
  refine ⟨toIso_of_parseIso, ?_⟩
  rintro rfl
  exact parseIso_toIso day

/-- The rows are the days whose text lies in the range, with their bodies. -/
theorem mem_dayRows :
    (day, body) ∈ dayRows db userId first last ↔
      bodyOf db userId (toIso day) = some body ∧ TextWithin day first last := by
  simp only [dayRows, List.mem_filterMap, Option.map_eq_some_iff, Prod.mk.injEq,
    mem_rowsInRange, bodyOf_eq_some, parseIso_eq_some]
  constructor
  · rintro ⟨row, ⟨member, owner, opens, closes⟩, date, spelled, rfl, rfl⟩
    rw [← spelled] at opens closes
    exact ⟨⟨row, member, owner, spelled.symm, rfl⟩, opens, closes⟩
  · rintro ⟨⟨row, member, owner, spelled, rfl⟩, opens, closes⟩
    rw [← spelled] at opens closes
    exact ⟨row, ⟨member, owner, opens, closes⟩, day, spelled.symm, rfl, rfl⟩

/-- The rows come in the order of their text, no two of one day. -/
theorem pairwise_rowsInRange :
    (rowsInRange db userId first last).Pairwise fun row other =>
      row.entryDate < other.entryDate := by
  have total : Std.Total fun row other : TimeEntry => row.entryDate ≤ other.entryDate :=
    ⟨fun row other => String.le_total row.entryDate other.entryDate⟩
  have transitive : IsTrans TimeEntry fun row other => row.entryDate ≤ other.entryDate :=
    ⟨fun _ _ _ => String.le_trans⟩
  have apart : (rowsInRange db userId first last).Pairwise fun row other =>
      row.entryDate ≠ other.entryDate := by
    refine (List.perm_insertionSort _ _).symm.pairwise ?_ Ne.symm
    refine (List.pairwise_filter.mpr ?_)
    refine db.entries.distinct.imp fun free rowSelected otherSelected same => free ?_
    simp only [Bool.and_eq_true, decide_eq_true_eq] at rowSelected otherSelected
    exact ⟨rowSelected.1.trans otherSelected.1.symm, same⟩
  have sorted : (rowsInRange db userId first last).Pairwise fun row other =>
      row.entryDate ≤ other.entryDate := List.pairwise_insertionSort _ _
  refine (sorted.and apart).imp fun ⟨ordered, different⟩ => ?_
  by_contra notLess
  exact different (String.le_antisymm ordered (String.not_lt.mp notLess))

theorem pairwise_dayRows :
    (dayRows db userId first last).Pairwise fun row other => toIso row.1 < toIso other.1 := by
  refine List.pairwise_filterMap.mpr (pairwise_rowsInRange.imp ?_)
  rintro row other less ⟨date, body⟩ read ⟨date', body'⟩ read'
  obtain ⟨day, spelled, same⟩ := Option.map_eq_some_iff.mp read
  obtain ⟨day', spelled', same'⟩ := Option.map_eq_some_iff.mp read'
  cases same
  cases same'
  rw [toIso_of_parseIso spelled, toIso_of_parseIso spelled']
  exact less

end Rows

/-! ## The two requests -/

section Requests

variable {ctx : AppCtx} {db : Database} {me : User} {log : Log}
  {opens closes : String} {first last : NaiveDate}

/-- What `parse_range` accepts. -/
theorem accepted_of_parseRange (db : Database)
    (accepted : parseRange opens closes = pure (first, last)) :
    toIso first = opens ∧ toIso last = closes ∧ ¬ last.Before first ∧
      numDays first last ≤ MAX_RANGE_DAYS := by
  have answer : (execute (parseRange opens closes) none ⟨none, db, []⟩).1.1 =
      .ok (first, last) := by
    rw [accepted]
    rfl
  unfold parseRange parseDate at answer
  cases start : parseIso opens with
  | none =>
      rw [start] at answer
      cases answer
  | some date =>
      rw [start, execute_bind, execute_orRefuse_some] at answer
      dsimp only at answer
      cases stop : parseIso closes with
      | none =>
          rw [stop] at answer
          cases answer
      | some other =>
          rw [stop, execute_bind, execute_orRefuse_some] at answer
          dsimp only at answer
          by_cases backwards : other.Before date
          · rw [if_pos backwards] at answer
            cases answer
          · rw [if_neg backwards] at answer
            by_cases wide : numDays date other > MAX_RANGE_DAYS
            · rw [if_pos wide] at answer
              cases answer
            · rw [if_neg wide] at answer
              cases answer
              exact ⟨toIso_of_parseIso start, toIso_of_parseIso stop, backwards,
                Int.not_lt.mp wide⟩

theorem datesInRange_eq (db : Database) (userId : Int) (first last : NaiveDate) :
    datesInRange userId first last db =
      .ok ((dayRows db userId first last).map Prod.fst, db) := by
  rw [datesInRange, dayRows, List.map_filterMap]
  simp only [Option.map_map, Function.comp_def, Option.map_id']

theorem execute_entryDatesInRange (signedIn : SignedIn ctx db me)
    (accepted : parseRange opens closes = pure (first, last)) (cookie : Option SetCookie) :
    (execute (entryDatesInRange ctx opens closes) cookie ⟨none, db, log⟩).1.1 =
      .ok ((dayRows db me.id first last).map fun row => toIso row.1) := by
  unfold entryDatesInRange
  rw [execute_bind, signedIn.execute_requireUser]
  dsimp only
  rw [accepted, execute_bind, execute_pure]
  dsimp only
  rw [execute_bind, execute_query (datesInRange_eq db me.id first last)]
  dsimp only
  rw [execute_pure, List.map_map]
  rfl

theorem execute_entriesInRange (signedIn : SignedIn ctx db me)
    (accepted : parseRange opens closes = pure (first, last)) (cookie : Option SetCookie) :
    (execute (Functions.entriesInRange ctx opens closes) cookie ⟨none, db, log⟩).1.1 =
      .ok ((dayRows db me.id first last).map fun row => (toIso row.1, row.2)) := by
  have read : Store.entriesInRange me.id first last db =
      .ok (dayRows db me.id first last, db) := rfl
  unfold Functions.entriesInRange
  rw [execute_bind, signedIn.execute_requireUser]
  dsimp only
  rw [accepted, execute_bind, execute_pure]
  dsimp only
  rw [execute_bind, execute_query read]
  rfl

end Requests

/-! ## The days an account has saved -/

/-- The tables, and the body last accepted for each day of one account. -/
structure History where
  db : Database
  saved : NaiveDate → Option String

/-- A save by anyone, with the statement the database fails at, or anything else
that is done to the tables. -/
inductive Event
  | save (ctx : AppCtx) (date body : String) (faultAt : Option Nat)
      (cookie : Option SetCookie)
  | other (next : Database)

/-- The account a session names. -/
def accountOf (ctx : AppCtx) (db : Database) : Option Int := do
  let claims ← ctx.claims
  let email ← normalizeEmail claims.email
  let me ← userByEmail db email
  return me.id

/-- What an answered save adds to the account's days. -/
def noteSave (userId : Int) (ctx : AppCtx) (date body : String)
    (reply : Except String Unit) (history : History) : NaiveDate → Option String :=
  match reply, parseIso date with
  | .ok (), some day =>
      if accountOf ctx history.db = some userId then
        Function.update history.saved day (some body)
      else history.saved
  | _, _ => history.saved

/-- Only saves change the days of an account. -/
def step (userId : Int) (history : History) : Event → Option History
  | .save ctx date body faultAt cookie =>
      let outcome := execute (entrySave ctx date body) cookie ⟨faultAt, history.db, []⟩
      some ⟨outcome.2.store, noteSave userId ctx date body outcome.1.1 history⟩
  | .other next =>
      if entriesOf next userId = entriesOf history.db userId then
        some { history with db := next }
      else none

/-- An account that has saved nothing. -/
def start (db : Database) : History :=
  ⟨db, fun _ => none⟩

/-- The column holds the body last accepted for each day. -/
def Tracks (userId : Int) (history : History) : Prop :=
  ∀ day, bodyOf history.db userId (toIso day) = history.saved day

section Runs

variable {userId : Int} {history next : History}

theorem SignedIn.accountOf_eq {ctx : AppCtx} {db : Database} {me : User}
    (signedIn : SignedIn ctx db me) : accountOf ctx db = some me.id := by
  obtain ⟨claims, email, presented, normalized, found, -⟩ := signedIn
  simp [accountOf, presented, normalized, found]

/-- A body is read off the account's own rows. -/
theorem bodyOf_eq (db : Database) (userId : Int) (day : String) :
    bodyOf db userId day =
      ((entriesOf db userId).find? fun row => row.entryDate = day).map TimeEntry.body := by
  rw [bodyOf, entriesOf, List.find?_filter]
  simp only [decide_eq_true_eq, Bool.decide_and]

/-- An answered save is noted for the account whose row it wrote. -/
theorem Tracks.save (tracks : Tracks userId history) (ctx : AppCtx) (date body : String)
    (faultAt : Option Nat) (cookie : Option SetCookie)
    (taken : step userId history (.save ctx date body faultAt cookie) = some next) :
    Tracks userId next := by
  cases taken
  have decides : Ensures (entrySave ctx date body) history.db [] _ :=
    ensures_entrySave ctx history.db date body
  have decision := decides faultAt cookie
  dsimp only at decision ⊢
  generalize execute (entrySave ctx date body) cookie ⟨faultAt, history.db, []⟩ = outcome
    at decision ⊢
  obtain ⟨⟨reply, header⟩, faultAt', after, log⟩ := outcome
  cases decision with
  | refused same => exact tracks
  | failed passed aborted executed => exact tracks
  | @committed call outcome after log passed ran executed =>
      obtain ⟨signedIn, parsed, -⟩ := passed
      obtain ⟨⟨message, rfl⟩, rfl⟩ | ⟨rfl, saved⟩ := saveTransaction_cases ran
      · exact tracks
      · intro day
        have named := SignedIn.accountOf_eq signedIn
        simp only [noteSave, parsed, named, Option.some.injEq]
        by_cases own : call.1.id = userId
        · rw [if_pos own]
          rw [own] at saved
          by_cases same : day = call.2
          · rw [same, Function.update_self]
            exact saved.stored
          · rw [Function.update_of_ne same, ← tracks day]
            exact saved.frame _ _ fun both => same (toIso_injective both.2.symm)
        · rw [if_neg own, ← tracks day]
          exact saved.frame _ _ fun both => own both.1

theorem Tracks.step (tracks : Tracks userId history) (event : Event)
    (taken : step userId history event = some next) : Tracks userId next := by
  cases event with
  | save ctx date body faultAt cookie => exact tracks.save ctx date body faultAt cookie taken
  | other after =>
      simp only [Ranges.step] at taken
      split at taken
      · next same =>
          cases taken
          intro day
          rw [bodyOf_eq, same, ← bodyOf_eq]
          exact tracks day
      · cases taken

theorem tracks_run {db : Database} {events : List Event}
    (empty : entriesOf db userId = [])
    (ran : runFrom (Ranges.step userId) (start db) events = some history) :
    Tracks userId history := by
  refine invariant_runFrom (fun _ event _ tracks taken => tracks.step event taken) ?_ ran
  intro day
  rw [start, bodyOf_eq, empty]
  rfl

end Runs

/-! ## When the answers are right -/

/-- Both queries answer the saved days of the range, by calendar date and each
once, and the second one with the body last saved for each. -/
def RangesCorrect (ctx : AppCtx) (history : History) (opens closes : String)
    (first last : NaiveDate) : Prop :=
  ∃ rows : List (NaiveDate × String),
    (rows.Pairwise fun row other => row.1.Before other.1) ∧
    (∀ day body, (day, body) ∈ rows ↔
      history.saved day = some body ∧ day.Within first last) ∧
    ∀ cookie log,
      (execute (entryDatesInRange ctx opens closes) cookie
        ⟨none, history.db, log⟩).1.1 = .ok (rows.map fun row => toIso row.1) ∧
      (execute (Functions.entriesInRange ctx opens closes) cookie
        ⟨none, history.db, log⟩).1.1 = .ok (rows.map fun row => (toIso row.1, row.2))

section Answers

variable {ctx : AppCtx} {history : History} {me : User} {opens closes : String}
  {first last : NaiveDate}

/-- With no saved day misfiled, text and calendar select and order alike. -/
theorem rangesCorrect_of_filed (tracks : Tracks me.id history)
    (signedIn : SignedIn ctx history.db me)
    (accepted : parseRange opens closes = pure (first, last))
    (filed : ∀ day, history.saved day ≠ none → ¬ Misfiled first last day) :
    RangesCorrect ctx history opens closes first last := by
  obtain ⟨-, -, ordered, narrow⟩ := accepted_of_parseRange history.db accepted
  have selected : ∀ day body, (day, body) ∈ dayRows history.db me.id first last ↔
      history.saved day = some body ∧ day.Within first last := by
    intro day body
    rw [mem_dayRows, tracks day]
    refine and_congr_right fun saved => (textWithin_iff ordered).mpr (filed day ?_)
    rw [saved]
    exact Option.some_ne_none body
  refine ⟨dayRows history.db me.id first last, ?_, selected, fun cookie log => ?_⟩
  · refine pairwise_dayRows.imp_of_mem ?_
    rintro ⟨day, body⟩ ⟨other, body'⟩ member member' less
    obtain ⟨saved, within⟩ := (selected day body).mp member
    obtain ⟨saved', within'⟩ := (selected other body').mp member'
    refine before_of_toIso_lt narrow within within' (filed day ?_) (filed other ?_) less
    · rw [saved]
      exact Option.some_ne_none body
    · rw [saved']
      exact Option.some_ne_none body'
  · exact ⟨execute_entryDatesInRange signedIn accepted cookie,
      execute_entriesInRange signedIn accepted cookie⟩

/-- A right answer shows that no saved day is misfiled. -/
theorem filed_of_rangesCorrect (tracks : Tracks me.id history)
    (signedIn : SignedIn ctx history.db me)
    (accepted : parseRange opens closes = pure (first, last))
    (correct : RangesCorrect ctx history opens closes first last) (day : NaiveDate)
    (present : history.saved day ≠ none) : ¬ Misfiled first last day := by
  obtain ⟨-, -, ordered, -⟩ := accepted_of_parseRange history.db accepted
  obtain ⟨rows, -, selected, answers⟩ := correct
  have answered := (answers none []).2
  rw [execute_entriesInRange signedIn accepted] at answered
  have injective : Function.Injective
      fun row : NaiveDate × String => (toIso row.1, row.2) := by
    rintro ⟨date, body⟩ ⟨date', body'⟩ same
    obtain ⟨dates, bodies⟩ := Prod.mk.inj same
    exact Prod.ext (toIso_injective dates) bodies
  have same := List.map_injective_iff.mpr injective (Except.ok.inj answered)
  obtain ⟨body, saved⟩ := Option.ne_none_iff_exists'.mp present
  have read : (day, body) ∈ dayRows history.db me.id first last ↔
      history.saved day = some body ∧ TextWithin day first last := by
    rw [mem_dayRows, tracks day]
  rw [same, selected] at read
  simp only [saved, true_and] at read
  exact (textWithin_iff ordered).mp read.symm

/-- After any run of saves, a range a session may ask for is answered right
exactly when no saved day of its account is misfiled. -/
theorem ranges_correct_iff {db : Database} {events : List Event}
    (empty : entriesOf db me.id = [])
    (ran : runFrom (step me.id) (start db) events = some history)
    (signedIn : SignedIn ctx history.db me)
    (accepted : parseRange opens closes = pure (first, last)) :
    RangesCorrect ctx history opens closes first last ↔
      ∀ day, history.saved day ≠ none → ¬ Misfiled first last day :=
  have tracks := tracks_run empty ran
  ⟨filed_of_rangesCorrect tracks signedIn accepted,
    rangesCorrect_of_filed tracks signedIn accepted⟩

theorem yearRank_of_plain {year : Int} (plain : 0 ≤ year ∧ year ≤ 9999) :
    (yearRank year : Int) = 20000004 + 1000 * year := by
  rw [yearRank, signRank, if_neg (by omega), if_neg (by omega), digitsRank, if_pos (by omega)]
  omega

theorem yearRank_lt_of_not_plain {day : NaiveDate} (signed : ¬ day.FourDigitYear) :
    yearRank day.year < 20000000 := by
  have digits := digitsRank_lt (natAbs_year_lt day)
  have sign : signRank day.year < 2 := by
    simp only [NaiveDate.FourDigitYear] at signed
    unfold signRank
    split
    · decide
    · split
      · decide
      · omega
  unfold yearRank
  omega

/-- A range in the years that are written with four digits misfiles nothing. -/
theorem not_misfiled_of_fourDigitYears {day : NaiveDate} (opens : first.FourDigitYear)
    (closes : last.FourDigitYear) (ordered : ¬ last.Before first) :
    ¬ Misfiled first last day := by
  have low := yearRank_of_plain opens
  have high := yearRank_of_plain closes
  simp only [NaiveDate.Before] at ordered
  rw [Misfiled]
  by_cases plain : day.FourDigitYear
  · have rank := yearRank_of_plain plain
    rintro ⟨apart, misfiled⟩
    rw [if_pos (by omega)] at misfiled
    omega
  · have rank := yearRank_lt_of_not_plain plain
    simp only [NaiveDate.FourDigitYear] at opens closes plain
    rintro ⟨apart, misfiled⟩
    rw [if_pos (by omega)] at misfiled
    omega

/-- After any run of saves, a range in those years is answered right. -/
theorem ranges_correct_of_fourDigitYears {db : Database} {events : List Event}
    (empty : entriesOf db me.id = [])
    (ran : runFrom (step me.id) (start db) events = some history)
    (signedIn : SignedIn ctx history.db me)
    (accepted : parseRange opens closes = pure (first, last))
    (firstPlain : first.FourDigitYear) (lastPlain : last.FourDigitYear) :
    RangesCorrect ctx history opens closes first last := by
  obtain ⟨-, -, ordered, -⟩ := accepted_of_parseRange history.db accepted
  exact rangesCorrect_of_filed (tracks_run empty ran) signedIn accepted
    fun _ _ => not_misfiled_of_fourDigitYears firstPlain lastPlain ordered

end Answers

/-! ## Around the year 10000 -/

/-- An account with encryption turned on. -/
def keeper : User :=
  { id := 1, email := "alice@example.com", sessionEpoch := 0, createdAt := 0
    encryptedAt := some 0 }

def keeperOnly : Database :=
  { Database.empty with
    users := ⟨[keeper], List.pairwise_singleton _ _⟩
    entries_user := fun _ row_mem => absurd row_mem (Table.not_mem_empty _)
    passkeys_user := fun _ row_mem => absurd row_mem (Table.not_mem_empty _)
    wraps_user := fun _ row_mem => absurd row_mem (Table.not_mem_empty _) }

def keeperCtx : AppCtx :=
  { claims := some { email := "alice@example.com", epoch := 0 }
    passkeyState := none
    now := 1 }

/-- A save that nothing fails in. -/
def saves (date body : String) : Event :=
  .save keeperCtx date body none none

def newYearsEve : List Event :=
  [saves "9999-12-31" "eve", saves "+10000-01-01" "day"]

def eve : NaiveDate :=
  ⟨9999, 12, 31, by decide, MAX.month_range, by decide⟩

def newYear : NaiveDate :=
  ⟨10000, 1, 1, by decide, MIN.month_range, by decide⟩

theorem signedIn_keeper {history : History} (kept : history.db.users = keeperOnly.users) :
    SignedIn keeperCtx history.db keeper := by
  refine ⟨_, "alice@example.com", rfl, by decide +kernel, ?_, rfl⟩
  rw [userByEmail, kept]
  rfl

/-- One day of it is asked for, and answered. -/
theorem ranges_correct_newYear :
    ∃ history, runFrom (step keeper.id) (start keeperOnly) newYearsEve = some history ∧
      RangesCorrect keeperCtx history "+10000-01-01" "+10000-01-31" newYear
        ⟨10000, 1, 31, by decide, by decide, by decide⟩ := by
  have empty : entriesOf keeperOnly keeper.id = [] := rfl
  have ran : runFrom (step keeper.id) (start keeperOnly) newYearsEve = some _ := rfl
  refine ⟨_, ran, (ranges_correct_iff empty ran (signedIn_keeper rfl) rfl).mpr ?_⟩
  exact fun _ _ misfiled => misfiled.1 rfl

/-- The range from the one day to the other is accepted and holds neither. -/
theorem newYearsEve_range_is_empty :
    ∃ history, runFrom (step keeper.id) (start keeperOnly) newYearsEve = some history ∧
      history.saved eve = some "eve" ∧ history.saved newYear = some "day" ∧
      parseRange "9999-12-31" "+10000-01-01" = pure (eve, newYear) ∧
      (execute (entryDatesInRange keeperCtx "9999-12-31" "+10000-01-01") none
        ⟨none, history.db, []⟩).1.1 = .ok [] ∧
      ¬ RangesCorrect keeperCtx history "9999-12-31" "+10000-01-01" eve newYear := by
  refine ⟨_, rfl, rfl, rfl, rfl, rfl, ?_⟩
  rintro ⟨rows, -, selected, answers⟩
  have present := (selected eve "eve").mpr ⟨rfl, by decide⟩
  have nothing : [] = rows.map fun row => toIso row.1 := Except.ok.inj (answers none []).1
  rw [List.map_eq_nil_iff.mp nothing.symm] at present
  exact List.not_mem_nil present

end TimeTracker.Server.Ranges
