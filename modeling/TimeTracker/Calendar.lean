import Mathlib.Data.List.Sort
import TimeTracker.Date

/-!
# Day numbers

Days are numbered without gaps from the first to the last representable one, in
calendar order.  A step of so many days is a step of so many numbers, so the
checked operations fail exactly when they would leave the range, and the day of
the week is a remainder.
-/

namespace TimeTracker.Calendar

open TimeTracker.Date

/-- Days of the year before the month begins. -/
def daysBefore (year : Int) (month : Nat) : Nat :=
  ((List.range' 1 (month - 1)).map (daysInMonth year)).sum

/-- Days before the year begins, counted from the start of the year 1. -/
def yearStart (year : Int) : Int :=
  let past := year - 1
  365 * past + past / 4 - past / 100 + past / 400

section Years

variable {year : Int} {month : Nat}

theorem dayNumber_eq (date : NaiveDate) :
    date.dayNumber =
      yearStart date.year + (daysBefore date.year date.month + date.day : Nat) :=
  rfl

theorem daysBefore_one : daysBefore year 1 = 0 :=
  rfl

theorem daysBefore_succ (year : Int) (positive : 1 ≤ month) :
    daysBefore year (month + 1) = daysBefore year month + daysInMonth year month := by
  obtain ⟨before, rfl⟩ := Nat.exists_eq_add_of_le positive
  have range : List.range' 1 (1 + before) = List.range' 1 before ++ [1 + before] := by
    rw [Nat.add_comm 1 before, List.range'_concat, Nat.one_mul, Nat.add_comm 1 before]
  simp [daysBefore, range]

/-- A month has ended before a later one begins. -/
theorem daysBefore_add_le (year : Int) {later : Nat} (positive : 1 ≤ month) (less : month < later) :
    daysBefore year month + daysInMonth year month ≤ daysBefore year later := by
  induction less with
  | refl => exact Nat.le_of_eq (daysBefore_succ year positive).symm
  | @step reached less ih =>
      rw [daysBefore_succ year (Nat.le_trans positive (Nat.le_of_succ_le less))]
      omega

/-- A year has 365 days, a leap year one more. -/
theorem daysBefore_thirteen :
    daysBefore year 13 = if isLeapYear year then 366 else 365 := by
  cases leap : isLeapYear year <;>
    simp [daysBefore, daysInMonth, List.range', leap]

theorem yearStart_succ (year : Int) :
    yearStart (year + 1) = yearStart year + daysBefore year 13 := by
  rw [daysBefore_thirteen]
  simp only [yearStart]
  split
  · next leap =>
      simp only [isLeapYear, Bool.and_eq_true, Bool.or_eq_true, beq_iff_eq, bne_iff_ne,
        ne_eq] at leap
      omega
  · next common =>
      simp only [isLeapYear, Bool.and_eq_true, Bool.or_eq_true, beq_iff_eq, bne_iff_ne,
        ne_eq] at common
      omega

/-- A year has ended before a later one begins. -/
theorem yearStart_mono {later : Int} (less : year ≤ later) :
    yearStart year + 365 * (later - year) ≤ yearStart later := by
  simp only [yearStart]
  omega

end Years

/-- The last day of a month is before the first of the next one. -/
theorem monthDay_le (date : NaiveDate) :
    daysBefore date.year date.month + date.day ≤ daysBefore date.year 13 := by
  have total : _ ≤ daysBefore date.year 13 :=
    daysBefore_add_le date.year date.month_range.1 (Nat.lt_succ_of_le date.month_range.2)
  have := date.day_range
  omega

/-- The numbers of a year's days lie between its start and the next year's. -/
theorem dayNumber_bounds (date : NaiveDate) :
    yearStart date.year < date.dayNumber ∧ date.dayNumber ≤ yearStart (date.year + 1) := by
  have last := monthDay_le date
  have first := date.day_range.1
  rw [yearStart_succ, dayNumber_eq]
  omega

theorem dayNumber_lt_of_before {first second : NaiveDate} (earlier : first.Before second) :
    first.dayNumber < second.dayNumber := by
  rcases earlier with year | ⟨year, month | ⟨month, day⟩⟩
  · have high := (dayNumber_bounds first).2
    have low := (dayNumber_bounds second).1
    have years := yearStart_mono (Int.add_one_le_of_lt year)
    omega
  · have total := daysBefore_add_le first.year first.month_range.1 month
    have last := first.day_range.2
    have first' := second.day_range.1
    rw [dayNumber_eq, dayNumber_eq, ← year]
    omega
  · rw [dayNumber_eq, dayNumber_eq, ← year, ← month]
    omega

theorem before_iff {first second : NaiveDate} :
    first.Before second ↔ first.dayNumber < second.dayNumber := by
  refine ⟨dayNumber_lt_of_before, fun less => ?_⟩
  obtain earlier | rfl | later := first.before_trichotomy second
  · exact earlier
  · exact absurd less (Int.lt_irrefl _)
  · have := dayNumber_lt_of_before later
    omega

theorem dayNumber_injective {first second : NaiveDate}
    (same : first.dayNumber = second.dayNumber) : first = second := by
  obtain earlier | rfl | later := first.before_trichotomy second
  · have := dayNumber_lt_of_before earlier
    omega
  · rfl
  · have := dayNumber_lt_of_before later
    omega

theorem within_iff {date first last : NaiveDate} :
    date.Within first last ↔
      first.dayNumber ≤ date.dayNumber ∧ date.dayNumber ≤ last.dayNumber := by
  rw [NaiveDate.Within, before_iff, before_iff]
  omega

/-- Days no later one of which is before an earlier one, and all different, ascend. -/
theorem pairwise_before {dates : List NaiveDate}
    (sorted : dates.Pairwise fun date other => ¬ other.Before date) (unique : dates.Nodup) :
    dates.Pairwise NaiveDate.Before := by
  refine (sorted.and unique).imp ?_
  rintro date other ⟨notAfter, apart⟩
  obtain earlier | same | later := date.before_trichotomy other
  · exact earlier
  · exact absurd same apart
  · exact absurd later notAfter

/-- Sorting by day sorts. -/
theorem sorted_insertionSort {α : Type} (day : α → NaiveDate) (items : List α) :
    (items.insertionSort fun item other => ¬ (day other).Before (day item)).Pairwise
      fun item other => ¬ (day other).Before (day item) := by
  have total : Std.Total fun item other : α => ¬ (day other).Before (day item) := by
    refine ⟨fun item other => ?_⟩
    simp only [before_iff]
    omega
  have transitive : IsTrans α fun item other => ¬ (day other).Before (day item) := by
    refine ⟨fun first second third => ?_⟩
    simp only [before_iff]
    omega
  exact List.pairwise_insertionSort _ _

/-! ## One day further -/

/-- `NaiveDate::MIN` and `NaiveDate::MAX`. -/
def MIN : NaiveDate :=
  ⟨MIN_YEAR, 1, 1, by decide, by decide, by decide⟩
def MAX : NaiveDate :=
  ⟨MAX_YEAR, 12, 31, by decide, by decide, by decide⟩

/-- `NaiveDate::succ_opt`: the day after. -/
def succOpt (date : NaiveDate) : Option NaiveDate :=
  if date.day < daysInMonth date.year date.month then
    fromYmdOpt date.year date.month (date.day + 1)
  else if date.month < 12 then fromYmdOpt date.year (date.month + 1) 1
  else fromYmdOpt (date.year + 1) 1 1

/-- `NaiveDate::checked_add_days`. -/
def checkedAddDays (date : NaiveDate) : Nat → Option NaiveDate
  | 0 => some date
  | days + 1 => (checkedAddDays date days).bind succOpt

section Steps

variable {date next : NaiveDate} {year : Int} {month day days : Nat}

theorem fromYmdOpt_eq_some (found : fromYmdOpt year month day = some next) :
    next.year = year ∧ next.month = month ∧ next.day = day := by
  unfold fromYmdOpt at found
  split at found
  · split at found
    · split at found
      · cases found
        exact ⟨rfl, rfl, rfl⟩
      · cases found
    · cases found
  · cases found

theorem fromYmdOpt_isSome (hyear : MIN_YEAR ≤ year ∧ year ≤ MAX_YEAR)
    (hmonth : 1 ≤ month ∧ month ≤ 12) (hday : 1 ≤ day ∧ day ≤ daysInMonth year month) :
    ∃ next, fromYmdOpt year month day = some next := by
  rw [fromYmdOpt, dif_pos hyear, dif_pos hmonth, dif_pos hday]
  exact ⟨_, rfl⟩

theorem fromYmdOpt_eq_none (outside : MAX_YEAR < year) : fromYmdOpt year month day = none := by
  rw [fromYmdOpt, dif_neg (by omega)]

/-- Every month has 28 days. -/
theorem le_daysInMonth (year : Int) (month : Nat) : 28 ≤ daysInMonth year month := by
  unfold daysInMonth
  split
  · split <;> decide
  · split <;> decide

theorem daysInMonth_twelve (year : Int) : daysInMonth year 12 = 31 :=
  rfl

theorem dayNumber_succOpt (found : succOpt date = some next) :
    next.dayNumber = date.dayNumber + 1 := by
  have day_range := date.day_range
  unfold succOpt at found
  split at found
  · obtain ⟨year, month, day⟩ := fromYmdOpt_eq_some found
    rw [dayNumber_eq, dayNumber_eq, year, month, day]
    omega
  · split at found
    · obtain ⟨year, month, day⟩ := fromYmdOpt_eq_some found
      rw [dayNumber_eq, dayNumber_eq, year, month, day,
        daysBefore_succ date.year date.month_range.1]
      omega
    · next december =>
        obtain ⟨year, month, day⟩ := fromYmdOpt_eq_some found
        have last : date.month = 12 := by
          have := date.month_range
          omega
        have total : daysBefore date.year 13 = _ := daysBefore_succ _ (by decide)
        rw [dayNumber_eq, dayNumber_eq, year, month, day, yearStart_succ, daysBefore_one,
          total, last]
        rw [last] at day_range
        simp only [last] at *
        omega

/-- Only the last representable day has none after it. -/
theorem succOpt_isSome (date : NaiveDate) (room : date.dayNumber < MAX.dayNumber) :
    ∃ next, succOpt date = some next := by
  have month_range := date.month_range
  have day_range := date.day_range
  have year_range := date.year_range
  unfold succOpt
  split
  · exact fromYmdOpt_isSome year_range month_range (by omega)
  · next full =>
      split
      · have := le_daysInMonth date.year (date.month + 1)
        exact fromYmdOpt_isSome year_range (by omega) (by omega)
      · next december =>
          have month : date.month = 12 := by omega
          have day : date.day = 31 := by
            rw [month, daysInMonth_twelve] at full day_range
            omega
          have := le_daysInMonth (date.year + 1) 1
          refine fromYmdOpt_isSome ⟨by omega, Int.not_lt.mp fun beyond => ?_⟩ (by decide)
            (by omega)
          have year : date.year = MAX.year :=
            Int.le_antisymm year_range.2 (Int.le_of_lt_add_one beyond)
          have last : date.dayNumber = MAX.dayNumber := by
            rw [dayNumber_eq, dayNumber_eq, year, month, day]
            rfl
          omega

theorem dayNumber_predOpt (found : date.predOpt = some next) :
    next.dayNumber = date.dayNumber - 1 := by
  have day_range := date.day_range
  have month_range := date.month_range
  unfold NaiveDate.predOpt at found
  split at found
  · obtain ⟨year, month, day⟩ := fromYmdOpt_eq_some found
    rw [dayNumber_eq, dayNumber_eq, year, month, day]
    omega
  · split at found
    · obtain ⟨year, month, day⟩ := fromYmdOpt_eq_some found
      have total : daysBefore date.year (date.month - 1 + 1) = _ :=
        daysBefore_succ date.year (by omega)
      rw [Nat.sub_add_cancel month_range.1] at total
      rw [dayNumber_eq, dayNumber_eq, year, month, day, total]
      omega
    · next january =>
        obtain ⟨year, month, day⟩ := fromYmdOpt_eq_some found
        have first : date.month = 1 := by omega
        have total : daysBefore (date.year - 1) 13 = _ := daysBefore_succ _ (by decide)
        have later := yearStart_succ (date.year - 1)
        rw [total, daysInMonth_twelve, Int.sub_add_cancel] at later
        rw [dayNumber_eq, dayNumber_eq, year, month, day, first, daysBefore_one, later]
        omega

/-- Only the first representable day has none before it. -/
theorem predOpt_isSome (date : NaiveDate) (room : MIN.dayNumber < date.dayNumber) :
    ∃ next, date.predOpt = some next := by
  have month_range := date.month_range
  have day_range := date.day_range
  have year_range := date.year_range
  unfold NaiveDate.predOpt
  split
  · exact fromYmdOpt_isSome year_range month_range (by omega)
  · split
    · have := le_daysInMonth date.year (date.month - 1)
      exact fromYmdOpt_isSome year_range (by omega) (by omega)
    · next january =>
        refine fromYmdOpt_isSome ⟨Int.not_lt.mp fun beyond => ?_, by omega⟩ (by decide)
          (by rw [daysInMonth_twelve]; decide)
        have year : date.year = MIN.year :=
          Int.le_antisymm (Int.le_of_sub_one_lt beyond) year_range.1
        have month : date.month = 1 := by omega
        have day : date.day = 1 := by omega
        have first : date.dayNumber = MIN.dayNumber := by
          rw [dayNumber_eq, dayNumber_eq, year, month, day]
          rfl
        omega

/-! ## Many days further -/

theorem dayNumber_checkedAddDays (found : checkedAddDays date days = some next) :
    next.dayNumber = date.dayNumber + days := by
  induction days generalizing next with
  | zero =>
      cases found
      exact (Int.add_zero _).symm
  | succ days ih =>
      obtain ⟨reached, before, step⟩ := Option.bind_eq_some_iff.mp found
      rw [dayNumber_succOpt step, ih before]
      omega

theorem dayNumber_checkedSubDays (found : date.checkedSubDays days = some next) :
    next.dayNumber = date.dayNumber - days := by
  induction days generalizing next with
  | zero =>
      cases found
      exact (Int.sub_zero _).symm
  | succ days ih =>
      obtain ⟨reached, before, step⟩ := Option.bind_eq_some_iff.mp found
      rw [dayNumber_predOpt step, ih before]
      omega

theorem dayNumber_range (date : NaiveDate) :
    MIN.dayNumber ≤ date.dayNumber ∧ date.dayNumber ≤ MAX.dayNumber := by
  have year_range := date.year_range
  have high := (dayNumber_bounds date).2
  have low := (dayNumber_bounds date).1
  have first : MIN.dayNumber = yearStart MIN_YEAR + 1 := rfl
  have last : MAX.dayNumber = yearStart (MAX_YEAR + 1) := rfl
  have earliest := yearStart_mono year_range.1
  have latest := yearStart_mono (Int.add_le_add_right year_range.2 1)
  omega

/-- Adding days fails exactly beyond the last representable one. -/
theorem checkedAddDays_isSome (date : NaiveDate) (days : Nat) :
    (∃ next, checkedAddDays date days = some next) ↔
      date.dayNumber + days ≤ MAX.dayNumber := by
  constructor
  · rintro ⟨next, found⟩
    rw [← dayNumber_checkedAddDays found]
    exact (dayNumber_range next).2
  · intro room
    induction days with
    | zero => exact ⟨date, rfl⟩
    | succ days ih =>
        obtain ⟨reached, found⟩ := ih (by omega)
        have number := dayNumber_checkedAddDays found
        obtain ⟨next, step⟩ := succOpt_isSome reached (by omega)
        exact ⟨next, Option.bind_eq_some_iff.mpr ⟨reached, found, step⟩⟩

/-- Subtracting days fails exactly before the first representable one. -/
theorem checkedSubDays_isSome (date : NaiveDate) (days : Nat) :
    (∃ next, date.checkedSubDays days = some next) ↔
      MIN.dayNumber ≤ date.dayNumber - days := by
  constructor
  · rintro ⟨next, found⟩
    rw [← dayNumber_checkedSubDays found]
    exact (dayNumber_range next).1
  · intro room
    induction days with
    | zero => exact ⟨date, rfl⟩
    | succ days ih =>
        obtain ⟨reached, found⟩ := ih (by omega)
        have number := dayNumber_checkedSubDays found
        obtain ⟨next, step⟩ := predOpt_isSome reached (by omega)
        exact ⟨next, Option.bind_eq_some_iff.mpr ⟨reached, found, step⟩⟩

theorem checkedAddDays_eq_some :
    checkedAddDays date days = some next ↔ next.dayNumber = date.dayNumber + days := by
  refine ⟨dayNumber_checkedAddDays, fun number => ?_⟩
  obtain ⟨reached, found⟩ :=
    (checkedAddDays_isSome date days).mpr (number ▸ (dayNumber_range next).2)
  rwa [dayNumber_injective (number.trans (dayNumber_checkedAddDays found).symm)]

theorem checkedSubDays_eq_some :
    date.checkedSubDays days = some next ↔ next.dayNumber = date.dayNumber - days := by
  refine ⟨dayNumber_checkedSubDays, fun number => ?_⟩
  obtain ⟨reached, found⟩ :=
    (checkedSubDays_isSome date days).mpr (number ▸ (dayNumber_range next).1)
  rwa [dayNumber_injective (number.trans (dayNumber_checkedSubDays found).symm)]

theorem succOpt_eq_some : succOpt date = some next ↔ next.dayNumber = date.dayNumber + 1 := by
  have step : checkedAddDays date 1 = some next ↔ _ := checkedAddDays_eq_some
  exact step

/-- Every number of the range is some day's. -/
theorem exists_dayNumber (number : Int) (low : MIN.dayNumber ≤ number)
    (high : number ≤ MAX.dayNumber) : ∃ date : NaiveDate, date.dayNumber = number := by
  obtain ⟨date, found⟩ :=
    (checkedAddDays_isSome MIN (number - MIN.dayNumber).toNat).mpr (by omega)
  exact ⟨date, by rw [dayNumber_checkedAddDays found]; omega⟩

end Steps

/-! ## Days of the week -/

/-- `weekday().num_days_from_monday()`; the year 1 began on a Monday. -/
def numDaysFromMonday (date : NaiveDate) : Nat :=
  ((date.dayNumber - 1) % 7).toNat

theorem numDaysFromMonday_eq (date : NaiveDate) :
    (numDaysFromMonday date : Int) = (date.dayNumber - 1) % 7 :=
  Int.toNat_of_nonneg (Int.emod_nonneg _ (by decide))

/-- 2026-09-04 is a Friday. -/
example : (parseIso "2026-09-04").map numDaysFromMonday = some 4 := by decide

end TimeTracker.Calendar
