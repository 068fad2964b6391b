import TimeTracker.Calendar

/-!
# The dates a page is rendered from

The day page and the week page of a date compute their month, their week and
their neighbours with operators that panic outside the representable range.
Each of them fails at its own edge; together they are safe on one interval,
which is not all a URL can name.
-/

namespace TimeTracker.Pages

open TimeTracker.Date
open TimeTracker.Calendar

/-- The Monday and Sunday bracketing `date`.  A result of `none` is a panic. -/
def weekBounds (date : NaiveDate) : Option (NaiveDate × NaiveDate) := do
  let start ← date.checkedSubDays (numDaysFromMonday date)
  let last ← checkedAddDays start 6
  return (start, last)

/-- The first of the month after `start`'s. -/
def nextMonth (start : NaiveDate) : Option NaiveDate :=
  if start.month = 12 then fromYmdOpt (start.year + 1) 1 1
  else fromYmdOpt start.year (start.month + 1) 1

/-- The first and last day of `date`'s month. -/
def monthBounds (date : NaiveDate) : Option (NaiveDate × NaiveDate) := do
  let start ← fromYmdOpt date.year date.month 1
  let following ← nextMonth start
  let last ← following.checkedSubDays 1
  return (start, last)

/-- The loop over the days of the month. -/
def monthDays (last day : NaiveDate) (cells : List (Option NaiveDate)) :
    Option (List (Option NaiveDate)) :=
  if last.Before day then some cells
  else
    match _step : checkedAddDays day 1 with
    | none => none
    | some next => monthDays last next (cells ++ [some day])
termination_by (last.dayNumber + 1 - day.dayNumber).toNat
decreasing_by
  have number := dayNumber_checkedAddDays _step
  rename_i unfinished
  rw [before_iff] at unfinished
  omega

/-- The loop that pads the final row. -/
def padRow (cells : List (Option NaiveDate)) : List (Option NaiveDate) :=
  if cells.length % 7 = 0 then cells else padRow (cells ++ [none])
termination_by (7 - cells.length % 7) % 7
decreasing_by
  rw [List.length_append, List.length_singleton]
  omega

/-- The month's days laid out Monday-first in whole weeks. -/
def monthGrid (anyDay : NaiveDate) : Option (List (Option NaiveDate)) := do
  let (first, last) ← monthBounds anyDay
  let lead := numDaysFromMonday first
  let cells ← monthDays last first (List.replicate lead none)
  return padRow cells

/-- What the header's date control asks the store for and lays out. -/
structure DatePicker where
  marked : NaiveDate × NaiveDate
  grid : List (Option NaiveDate)

def datePicker (date : NaiveDate) : Option DatePicker := do
  let marked ← monthBounds date
  let grid ← monthGrid date
  return { marked, grid }

/-- The targets of the two day steppers. -/
def previousDay (date : NaiveDate) : Option NaiveDate :=
  date.checkedSubDays 1
def nextDay (date : NaiveDate) : Option NaiveDate :=
  checkedAddDays date 1

/-- What the week page reads, and the targets of its two links. -/
structure WeekBody where
  start : NaiveDate
  last : NaiveDate
  previous : String
  following : String

def weekBody (anchor : NaiveDate) : Option WeekBody := do
  let (start, last) ← weekBounds anchor
  let previous ← start.checkedSubDays 7
  let following ← checkedAddDays start 7
  return { start, last, previous := toIso previous, following := toIso following }

/-- No date computation for the pages of this day panics. -/
structure Renders (date : NaiveDate) : Prop where
  dayPage : ∃ picker, datePicker date = some picker
  weekPage : ∃ body, weekBody date = some body
  previousDay : ∃ day, previousDay date = some day
  nextDay : ∃ day, nextDay date = some day

/-! ## Where each of them fails -/

section Months

variable {date first last : NaiveDate}

/-- The last month has no next one to step back from. -/
theorem monthBounds_eq_none (year : date.year = MAX_YEAR) (month : date.month = 12) :
    monthBounds date = none := by
  unfold monthBounds
  cases opens : fromYmdOpt date.year date.month 1 with
  | none => rfl
  | some start =>
      obtain ⟨sameYear, sameMonth, -⟩ := fromYmdOpt_eq_some opens
      have beyond : nextMonth start = none := by
        rw [nextMonth, if_pos (sameMonth.trans month)]
        exact fromYmdOpt_eq_none (by omega)
      simp [beyond]

theorem before_nextMonth {start following : NaiveDate}
    (follows : nextMonth start = some following) : start.Before following := by
  unfold nextMonth at follows
  split at follows
  · obtain ⟨year, -, -⟩ := fromYmdOpt_eq_some follows
    exact .inl (by omega)
  · obtain ⟨year, month, -⟩ := fromYmdOpt_eq_some follows
    exact .inr ⟨year.symm, .inl (by omega)⟩

/-- Every other month runs from its first day to the day before the next one. -/
theorem monthBounds_isSome (earlier : ¬ (date.year = MAX_YEAR ∧ date.month = 12)) :
    ∃ first last, monthBounds date = some (first, last) ∧
      last.dayNumber < MAX.dayNumber := by
  have month_range := date.month_range
  have year_range := date.year_range
  have thirty := le_daysInMonth date.year date.month
  obtain ⟨start, opens⟩ : ∃ start, fromYmdOpt date.year date.month 1 = some start :=
    fromYmdOpt_isSome year_range month_range (by omega)
  obtain ⟨sameYear, sameMonth, firstDay⟩ := fromYmdOpt_eq_some opens
  obtain ⟨following, follows⟩ : ∃ following, nextMonth start = some following := by
    unfold nextMonth
    split
    · have := le_daysInMonth (start.year + 1) 1
      exact fromYmdOpt_isSome (by omega) (by decide) (by omega)
    · have := le_daysInMonth start.year (start.month + 1)
      exact fromYmdOpt_isSome (by omega) (by omega) (by omega)
  have later := dayNumber_lt_of_before (before_nextMonth follows)
  have low := dayNumber_range start
  have high := dayNumber_range following
  obtain ⟨last, closes⟩ :=
    (checkedSubDays_isSome following 1).mpr (by omega)
  have before := dayNumber_checkedSubDays closes
  exact ⟨start, last, by simp [monthBounds, opens, follows, closes], by omega⟩

/-- The loop reaches the last day of a month that another month follows. -/
theorem monthDays_isSome (last day : NaiveDate) (cells : List (Option NaiveDate))
    (room : last.dayNumber < MAX.dayNumber) :
    ∃ grown, monthDays last day cells = some grown := by
  fun_induction monthDays last day cells with
  | case1 day cells finished => exact ⟨cells, rfl⟩
  | case2 day cells unfinished stuck =>
      rw [before_iff] at unfinished
      obtain ⟨next, step⟩ := (checkedAddDays_isSome day 1).mpr (by omega)
      cases stuck.symm.trans step
  | case3 day cells unfinished next step ih => exact ih

/-- So is the grid of such a month filled. -/
theorem monthGrid_isSome (earlier : ¬ (date.year = MAX_YEAR ∧ date.month = 12)) :
    ∃ first last cells, monthBounds date = some (first, last) ∧
      last.dayNumber < MAX.dayNumber ∧ monthGrid date = some cells := by
  obtain ⟨first, last, bounds, room⟩ := monthBounds_isSome earlier
  obtain ⟨cells, filled⟩ := monthDays_isSome last first
    (List.replicate (numDaysFromMonday first) none) room
  exact ⟨first, last, padRow cells, bounds, room, by simp [monthGrid, bounds, filled]⟩

/-- The date control fails in the last month only. -/
theorem datePicker_isSome :
    (∃ picker, datePicker date = some picker) ↔
      ¬ (date.year = MAX_YEAR ∧ date.month = 12) := by
  constructor
  · rintro ⟨picker, rendered⟩ ⟨year, month⟩
    rw [datePicker, monthBounds_eq_none year month] at rendered
    cases rendered
  · intro earlier
    obtain ⟨first, last, cells, bounds, -, grid⟩ := monthGrid_isSome earlier
    exact ⟨⟨(first, last), cells⟩, by simp [datePicker, bounds, grid]⟩

end Months

/-- The week page needs the Mondays before and after its own. -/
theorem weekBody_isSome {date : NaiveDate} :
    (∃ body, weekBody date = some body) ↔
      MIN.dayNumber + 7 ≤ date.dayNumber - (date.dayNumber - 1) % 7 ∧
        date.dayNumber - (date.dayNumber - 1) % 7 + 7 ≤ MAX.dayNumber := by
  have lead := numDaysFromMonday_eq date
  constructor
  · rintro ⟨body, rendered⟩
    obtain ⟨⟨start, last⟩, bounds, rest⟩ := Option.bind_eq_some_iff.mp rendered
    obtain ⟨previous, back, rest⟩ := Option.bind_eq_some_iff.mp rest
    obtain ⟨following, forth, -⟩ := Option.bind_eq_some_iff.mp rest
    obtain ⟨monday, opens, closes⟩ := Option.bind_eq_some_iff.mp bounds
    obtain ⟨sunday, -, same⟩ := Option.bind_eq_some_iff.mp closes
    cases same
    have number := dayNumber_checkedSubDays opens
    have low := (checkedSubDays_isSome start 7).mp ⟨previous, back⟩
    have high := (checkedAddDays_isSome start 7).mp ⟨following, forth⟩
    omega
  · rintro ⟨low, high⟩
    obtain ⟨start, opens⟩ := (checkedSubDays_isSome date
      (numDaysFromMonday date)).mpr (by omega)
    have number := dayNumber_checkedSubDays opens
    obtain ⟨last, closes⟩ := (checkedAddDays_isSome start 6).mpr (by omega)
    obtain ⟨previous, back⟩ := (checkedSubDays_isSome start 7).mpr (by omega)
    obtain ⟨following, forth⟩ := (checkedAddDays_isSome start 7).mpr (by omega)
    exact ⟨⟨start, last, toIso previous, toIso following⟩,
      by simp [weekBody, weekBounds, opens, closes, back, forth]⟩

/-! ## The days both pages can be rendered for -/

/-- The second Monday of the first year. -/
def EARLIEST : NaiveDate :=
  ⟨-262143, 1, 12, by decide, MIN.month_range, by decide⟩

/-- The last day of the last month but one. -/
def LATEST : NaiveDate :=
  ⟨262142, 11, 30, by decide, by decide, by decide⟩

theorem latest_before_iff {date : NaiveDate} :
    LATEST.Before date ↔ date.year = MAX_YEAR ∧ date.month = 12 := by
  have year_range := date.year_range
  have month_range := date.month_range
  have day_range := date.day_range
  have november : daysInMonth MAX_YEAR 11 = 30 := rfl
  constructor
  · rintro (year | ⟨year, month | ⟨month, day⟩⟩)
    · exact absurd year_range.2 (Int.not_le.mpr year)
    · exact ⟨year.symm, Nat.le_antisymm month_range.2 month⟩
    · have year : date.year = MAX_YEAR := year.symm
      have month : date.month = 11 := month.symm
      rw [year, month, november] at day_range
      exact absurd day_range.2 (Nat.not_le.mpr day)
  · rintro ⟨year, month⟩
    refine .inr ⟨year.symm, .inl ?_⟩
    rw [month]
    decide

/-- The pages of a day render, and its neighbours can be stepped to, exactly from the
second Monday of the first year up to the last month. -/
theorem renders_iff_within (date : NaiveDate) : Renders date ↔ date.Within EARLIEST LATEST := by
  have first : MIN.dayNumber = -95746129 := by decide
  have last : MAX.dayNumber = 95745399 := by decide
  have earliest : EARLIEST.dayNumber = -95746118 := by decide
  have latest : LATEST.dayNumber = 95745368 := by decide
  constructor
  · intro renders
    have week := weekBody_isSome.mp renders.weekPage
    have month := datePicker_isSome.mp renders.dayPage
    rw [← latest_before_iff, before_iff] at month
    rw [within_iff]
    omega
  · intro within
    rw [within_iff] at within
    refine ⟨datePicker_isSome.mpr ?_, weekBody_isSome.mpr ?_, ?_, ?_⟩
    · rw [← latest_before_iff, before_iff]
      omega
    · omega
    · exact (checkedSubDays_isSome date 1).mpr (by omega)
    · exact (checkedAddDays_isSome date 1).mpr (by omega)

/-- Whatever path segment is accepted, the pages it names render exactly if the day lies
in that range. -/
theorem renders_iff (raw : String) :
    (∀ date, parseIso raw = some date → Renders date) ↔
      ∀ date, parseIso raw = some date → date.Within EARLIEST LATEST :=
  forall_congr' fun date => imp_congr_right fun _ => renders_iff_within date

/-- An ordinary day. -/
theorem renders_today :
    ∃ date, parseIso "2026-09-04" = some date ∧ Renders date := by
  let today : NaiveDate := ⟨2026, 9, 4, by decide, by decide, by decide⟩
  have parsed : parseIso "2026-09-04" = some today := by decide
  refine ⟨today, parsed, (renders_iff "2026-09-04").mpr ?_ today parsed⟩
  intro date named
  cases Option.some.inj (parsed.symm.trans named)
  decide

/-- The last day a URL can name: its month has no next one, its week runs out of
the range, and there is no day after it. -/
theorem not_renders_last_day :
    ∃ date, parseIso "+262142-12-31" = some date ∧ datePicker date = none ∧
      weekBody date = none ∧ nextDay date = none ∧ ¬ Renders date := by
  have unrendered : datePicker MAX = none := by decide
  refine ⟨MAX, by decide, unrendered, by decide, by decide, fun renders => ?_⟩
  obtain ⟨picker, rendered⟩ := renders.dayPage
  cases unrendered.symm.trans rendered

end TimeTracker.Pages
