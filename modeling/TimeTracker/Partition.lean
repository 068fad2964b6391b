import TimeTracker.Pages

/-!
# Weeks and months partition the days

The week of a day is the week of each of its seven days, and the month's bounds take in
the days of the month and no other.  The grid of a month has each of these days once, in
the column of its weekday.
-/

namespace TimeTracker.Partition

open TimeTracker.Date
open TimeTracker.Calendar
open TimeTracker.Pages

/-! ## Weeks -/

section Weeks

variable {date start last : NaiveDate}

/-- The two ends of a week, by number. -/
theorem weekBounds_eq_some :
    weekBounds date = some (start, last) ↔
      start.dayNumber = date.dayNumber - (date.dayNumber - 1) % 7 ∧
        last.dayNumber = start.dayNumber + 6 := by
  have lead := numDaysFromMonday_eq date
  constructor
  · intro bounds
    obtain ⟨monday, opens, rest⟩ := Option.bind_eq_some_iff.mp bounds
    obtain ⟨sunday, closes, same⟩ := Option.bind_eq_some_iff.mp rest
    cases same
    rw [checkedSubDays_eq_some] at opens
    rw [checkedAddDays_eq_some] at closes
    omega
  · rintro ⟨first, second⟩
    have opens : date.checkedSubDays (numDaysFromMonday date) = some start :=
      checkedSubDays_eq_some.mpr (by omega)
    have closes : checkedAddDays start 6 = some last := checkedAddDays_eq_some.mpr (by omega)
    simp [weekBounds, opens, closes]

/-- What the week of a day is. -/
structure IsWeekOf (date start last : NaiveDate) : Prop where
  monday : numDaysFromMonday start = 0
  sunday : numDaysFromMonday last = 6
  span : checkedAddDays start 6 = some last
  within : date.Within start last
  shared : ∀ day : NaiveDate, day.Within start last → weekBounds day = some (start, last)
  disjoint : ∀ other start' last', weekBounds other = some (start', last') →
    (start', last') ≠ (start, last) →
      ∀ day : NaiveDate, day.Within start last → ¬ day.Within start' last'
  following : ∃ next last', checkedAddDays start 7 = some next ∧ succOpt last = some next ∧
    weekBounds next = some (next, last')
  preceding : ∃ previous last', start.checkedSubDays 7 = some previous ∧
    weekBounds previous = some (previous, last') ∧ succOpt last' = some start

/-- Every day of a week has that week. -/
theorem weekBounds_of_within {day : NaiveDate} (bounds : weekBounds date = some (start, last))
    (within : day.Within start last) : weekBounds day = some (start, last) := by
  rw [within_iff] at within
  rw [weekBounds_eq_some] at bounds ⊢
  omega

/-- A Monday with six days after it begins its week. -/
theorem weekBounds_monday (monday : (start.dayNumber - 1) % 7 = 0)
    (span : last.dayNumber = start.dayNumber + 6) : weekBounds start = some (start, last) := by
  rw [weekBounds_eq_some]
  omega

theorem isWeekOf (bounds : weekBounds date = some (start, last))
    (low : MIN.dayNumber + 7 ≤ start.dayNumber) (high : last.dayNumber + 7 ≤ MAX.dayNumber) :
    IsWeekOf date start last := by
  obtain ⟨first, second⟩ := weekBounds_eq_some.mp bounds
  obtain ⟨next, followed⟩ := exists_dayNumber (start.dayNumber + 7) (by omega) (by omega)
  obtain ⟨nextLast, followedLast⟩ := exists_dayNumber (last.dayNumber + 7) (by omega) (by omega)
  obtain ⟨previous, preceded⟩ := exists_dayNumber (start.dayNumber - 7) (by omega) (by omega)
  obtain ⟨previousLast, precededLast⟩ :=
    exists_dayNumber (start.dayNumber - 1) (by omega) (by omega)
  constructor
  · have lead := numDaysFromMonday_eq start
    omega
  · have lead := numDaysFromMonday_eq last
    omega
  · exact checkedAddDays_eq_some.mpr second
  · rw [within_iff]
    omega
  · exact fun day within => weekBounds_of_within bounds within
  · intro other start' last' bounds' apart day within within'
    have same := weekBounds_of_within bounds' within'
    rw [weekBounds_of_within bounds within, Option.some_inj] at same
    exact apart same.symm
  · exact ⟨next, nextLast, checkedAddDays_eq_some.mpr followed,
      succOpt_eq_some.mpr (by omega), weekBounds_monday (by omega) (by omega)⟩
  · exact ⟨previous, previousLast, checkedSubDays_eq_some.mpr preceded,
      weekBounds_monday (by omega) (by omega), succOpt_eq_some.mpr (by omega)⟩

end Weeks

/-! ## Months -/

section Months

variable {date first last : NaiveDate}

/-- The first of the next month comes after the last day of this one. -/
theorem dayNumber_nextMonth {start following : NaiveDate} (first : start.day = 1)
    (follows : nextMonth start = some following) :
    following.dayNumber = start.dayNumber + daysInMonth start.year start.month := by
  unfold nextMonth at follows
  split at follows
  · next december =>
      obtain ⟨year, month, day⟩ := fromYmdOpt_eq_some follows
      have total : daysBefore start.year 13 = _ := daysBefore_succ _ (by decide)
      rw [dayNumber_eq, dayNumber_eq, year, month, day, first, yearStart_succ, daysBefore_one,
        total, december]
      omega
  · obtain ⟨year, month, day⟩ := fromYmdOpt_eq_some follows
    rw [dayNumber_eq, dayNumber_eq, year, month, day, first,
      daysBefore_succ start.year start.month_range.1]
    omega

/-- The first and the last day of the month, by their fields. -/
theorem monthBounds_fields (bounds : monthBounds date = some (first, last)) :
    (first.year = date.year ∧ first.month = date.month ∧ first.day = 1) ∧
      last.year = date.year ∧ last.month = date.month ∧
        last.day = daysInMonth date.year date.month := by
  obtain ⟨start, opens, rest⟩ := Option.bind_eq_some_iff.mp bounds
  obtain ⟨following, follows, rest⟩ := Option.bind_eq_some_iff.mp rest
  obtain ⟨final, closes, same⟩ := Option.bind_eq_some_iff.mp rest
  cases same
  obtain ⟨year, month, day⟩ := fromYmdOpt_eq_some opens
  have length := dayNumber_nextMonth day follows
  have days := le_daysInMonth date.year date.month
  -- the day of that number is known already
  let ending : NaiveDate := ⟨date.year, date.month, daysInMonth date.year date.month,
    date.year_range, date.month_range, by omega⟩
  have number : ending.dayNumber = last.dayNumber := by
    rw [checkedSubDays_eq_some] at closes
    rw [closes, length, dayNumber_eq, dayNumber_eq first, year, month, day]
    simp only [ending]
    omega
  obtain rfl := dayNumber_injective number
  exact ⟨⟨year, month, day⟩, rfl, rfl, rfl⟩

/-- What the bounds of a month are: its first day, its last, and its days between them. -/
structure IsMonthOf (date first last : NaiveDate) : Prop where
  opens : first.year = date.year ∧ first.month = date.month ∧ first.day = 1
  closes : last.year = date.year ∧ last.month = date.month ∧
    last.day = daysInMonth date.year date.month
  days : ∀ day : NaiveDate,
    day.Within first last ↔ day.year = date.year ∧ day.month = date.month

theorem within_monthBounds_iff {day : NaiveDate} (bounds : monthBounds date = some (first, last)) :
    day.Within first last ↔ day.year = date.year ∧ day.month = date.month := by
  obtain ⟨⟨year, month, one⟩, year', month', final⟩ := monthBounds_fields bounds
  have day_range := day.day_range
  rw [NaiveDate.Within, NaiveDate.Before, NaiveDate.Before, year, month, one, year', month', final]
  constructor
  · omega
  · rintro ⟨sameYear, sameMonth⟩
    rw [sameYear, sameMonth] at day_range
    omega

theorem isMonthOf (bounds : monthBounds date = some (first, last)) : IsMonthOf date first last :=
  ⟨(monthBounds_fields bounds).1, (monthBounds_fields bounds).2,
    fun _ => within_monthBounds_iff bounds⟩

end Months

/-! ## The grid -/

/-- What the loop over the days appends. -/
theorem monthDays_eq_some {last day : NaiveDate} {cells grown : List (Option NaiveDate)}
    (filled : monthDays last day cells = some grown) :
    ∃ days : List NaiveDate, grown = cells ++ days.map some ∧
      (days.length : Int) = max 0 (last.dayNumber + 1 - day.dayNumber) ∧
        ∀ (i : Nat) (other : NaiveDate), days[i]? = some other →
          other.dayNumber = day.dayNumber + i := by
  fun_induction monthDays last day cells with
  | case1 day cells finished =>
      cases filled
      rw [before_iff] at finished
      exact ⟨[], by simp, by simp; omega, by simp⟩
  | case2 day cells unfinished stuck => cases filled
  | case3 day cells unfinished next step ih =>
      obtain ⟨days, rfl, length, numbers⟩ := ih filled
      have number := dayNumber_checkedAddDays step
      rw [before_iff] at unfinished
      refine ⟨day :: days, by simp, by rw [List.length_cons]; omega, ?_⟩
      rintro (_ | i) other found
      · cases found
        exact (Int.add_zero _).symm
      · rw [numbers i other found]
        omega

/-- The final row is filled with fewer blanks than a row has. -/
theorem padRow_eq (cells : List (Option NaiveDate)) :
    ∃ blanks, padRow cells = cells ++ List.replicate blanks none ∧ blanks < 7 ∧
      (cells.length + blanks) % 7 = 0 := by
  fun_induction padRow cells with
  | case1 cells whole => exact ⟨0, by simp, by decide, whole⟩
  | case2 cells ragged ih =>
      obtain ⟨blanks, padded, few, whole⟩ := ih
      rw [List.length_append, List.length_singleton] at whole
      refine ⟨blanks + 1, ?_, ?_, ?_⟩
      · rw [padded, List.append_assoc, List.replicate_succ]
        rfl
      · omega
      · omega

section Grid

variable {date : NaiveDate} {cells : List (Option NaiveDate)}

/-- A cell between the blanks in front and those behind. -/
theorem getElem?_padded {lead trail i : Nat} {days : List NaiveDate} {day : NaiveDate} :
    (List.replicate lead none ++ days.map some ++ List.replicate trail none)[i]? =
        some (some day) ↔ lead ≤ i ∧ days[i - lead]? = some day := by
  rw [List.append_assoc, List.getElem?_append, List.length_replicate]
  split
  · next early => simp [early]
  · next late =>
      rw [List.getElem?_append, List.length_map]
      split
      · simp [Nat.not_lt.mp late]
      · next beyond => simp [List.getElem?_replicate, Nat.not_lt.mp beyond]

/-- Which day is in which cell. -/
structure LaidOut (first last : NaiveDate) (cells : List (Option NaiveDate)) : Prop where
  wholeRows : cells.length % 7 = 0
  length : (cells.length : Int) <
    numDaysFromMonday first + (last.dayNumber + 1 - first.dayNumber) + 7
  cell : ∀ (i : Nat) (day : NaiveDate), cells[i]? = some (some day) ↔
    day.Within first last ∧ i = numDaysFromMonday first + (day.dayNumber - first.dayNumber)

theorem laidOut_monthGrid {first last : NaiveDate} (bounds : monthBounds date = some (first, last))
    (ordered : first.dayNumber ≤ last.dayNumber) (grid : monthGrid date = some cells) :
    LaidOut first last cells := by
  obtain ⟨found, bounds', rest⟩ := Option.bind_eq_some_iff.mp grid
  cases bounds.symm.trans bounds'
  obtain ⟨grown, filled, same⟩ := Option.bind_eq_some_iff.mp rest
  cases same
  obtain ⟨days, rfl, length, numbers⟩ := monthDays_eq_some filled
  obtain ⟨blanks, padded, few, whole⟩ := padRow_eq
    (List.replicate (numDaysFromMonday first) none ++ days.map some)
  rw [padded]
  simp only [List.length_append, List.length_replicate, List.length_map] at whole
  refine ⟨?_, ?_, fun i day => ?_⟩
  · simpa [Nat.add_assoc] using whole
  · simp only [List.length_append, List.length_replicate, List.length_map]
    omega
  · rw [getElem?_padded, within_iff]
    constructor
    · rintro ⟨late, found⟩
      have number := numbers _ day found
      have early := (List.getElem?_eq_some_iff.mp found).1
      omega
    · rintro ⟨⟨low, high⟩, place⟩
      refine ⟨by omega, ?_⟩
      obtain ⟨other, found⟩ : ∃ other, days[i - numDaysFromMonday first]? = some other :=
        ⟨_, List.getElem?_eq_getElem (by omega)⟩
      have number := numbers _ other found
      have same : other = day := dayNumber_injective (by omega)
      rw [found, same]

/-- What the grid of a month is. -/
structure IsGridOf (date : NaiveDate) (cells : List (Option NaiveDate)) : Prop where
  wholeRows : cells.length % 7 = 0
  once : ∀ day : NaiveDate, day.year = date.year ∧ day.month = date.month →
    ∃! i : Nat, cells[i]? = some (some day)
  noOther : ∀ (i : Nat) (day : NaiveDate), cells[i]? = some (some day) →
    day.year = date.year ∧ day.month = date.month
  inOrder : ∀ (i j : Nat) (day other : NaiveDate), cells[i]? = some (some day) →
    cells[j]? = some (some other) → i < j → day.Before other
  column : ∀ (i : Nat) (day : NaiveDate), cells[i]? = some (some day) →
    i % 7 = numDaysFromMonday day
  noEmptyRow : ∀ row, 7 * row < cells.length →
    ∃ (i : Nat) (day : NaiveDate), 7 * row ≤ i ∧ i < 7 * row + 7 ∧ cells[i]? = some (some day)

theorem isGridOf {first last : NaiveDate} (month : IsMonthOf date first last)
    (long : first.dayNumber + 7 ≤ last.dayNumber) (laid : LaidOut first last cells) :
    IsGridOf date cells := by
  have lead := numDaysFromMonday_eq first
  have length := laid.length
  constructor
  · exact laid.wholeRows
  · intro day same
    have within := (month.days day).mpr same
    have later := (within_iff.mp within).1
    refine ⟨(numDaysFromMonday first + (day.dayNumber - first.dayNumber)).toNat,
      (laid.cell _ day).mpr ⟨within, by omega⟩, fun i found => ?_⟩
    have place := ((laid.cell i day).mp found).2
    omega
  · exact fun i day found => (month.days day).mp ((laid.cell i day).mp found).1
  · intro i j day other found found' less
    have place := ((laid.cell i day).mp found).2
    have place' := ((laid.cell j other).mp found').2
    rw [before_iff]
    omega
  · intro i day found
    have place := ((laid.cell i day).mp found).2
    have weekday := numDaysFromMonday_eq day
    omega
  · intro row room
    have whole := laid.wholeRows
    have low := (dayNumber_range first).1
    have high := (dayNumber_range last).2
    -- the first day is in the first row, and every other row begins with a day
    obtain ⟨i, early, late, low', high'⟩ : ∃ i : Nat, 7 * row ≤ i ∧ i < 7 * row + 7 ∧
        numDaysFromMonday first ≤ i ∧
          i ≤ numDaysFromMonday first + (last.dayNumber - first.dayNumber) := by
      cases row with
      | zero => exact ⟨numDaysFromMonday first, by omega, by omega, le_rfl, by omega⟩
      | succ row => exact ⟨7 * (row + 1), le_rfl, by omega, by omega, by omega⟩
    obtain ⟨day, number⟩ := exists_dayNumber
      (first.dayNumber + (i - numDaysFromMonday first)) (by omega) (by omega)
    refine ⟨i, day, early, late, (laid.cell i day).mpr ⟨?_, by omega⟩⟩
    rw [within_iff]
    omega

end Grid

/-- A month has four weeks at least. -/
theorem IsMonthOf.long {date first last : NaiveDate} (month : IsMonthOf date first last) :
    first.dayNumber + 27 ≤ last.dayNumber := by
  obtain ⟨year, month', day⟩ := month.opens
  obtain ⟨year', month'', day'⟩ := month.closes
  have days := le_daysInMonth date.year date.month
  rw [dayNumber_eq, dayNumber_eq, year, month', day, year', month'', day']
  omega

/-! ## Away from the ends of the range -/

/-- Whether the date is at least a month from the first and the last representable day. -/
def AMonthInside (date : NaiveDate) : Prop :=
  MIN.dayNumber + 31 ≤ date.dayNumber ∧ date.dayNumber + 31 ≤ MAX.dayNumber

/-- Weeks and months partition the days, and the grid of a month is what it should be. -/
theorem calendar_partitions (date : NaiveDate) (inside : AMonthInside date) :
    (∃ start last, weekBounds date = some (start, last) ∧ IsWeekOf date start last) ∧
      (∃ first last, monthBounds date = some (first, last) ∧ IsMonthOf date first last) ∧
      ∃ cells, monthGrid date = some cells ∧ IsGridOf date cells := by
  obtain ⟨low, high⟩ := inside
  refine ⟨?_, ?_⟩
  · obtain ⟨start, opens⟩ := exists_dayNumber
      (date.dayNumber - (date.dayNumber - 1) % 7) (by omega) (by omega)
    obtain ⟨last, closes⟩ := exists_dayNumber (start.dayNumber + 6) (by omega) (by omega)
    have bounds : weekBounds date = some (start, last) := weekBounds_eq_some.mpr ⟨opens, closes⟩
    exact ⟨start, last, bounds, isWeekOf bounds (by omega) (by omega)⟩
  · have earlier : ¬ (date.year = MAX_YEAR ∧ date.month = 12) := by
      have latest : LATEST.dayNumber + 31 = MAX.dayNumber := by decide
      rw [← latest_before_iff, before_iff]
      omega
    obtain ⟨first, last, cells, bounds, room, grid⟩ := monthGrid_isSome earlier
    have month := isMonthOf bounds
    have long := month.long
    exact ⟨⟨first, last, bounds, month⟩, cells, grid,
      isGridOf month (by omega) (laidOut_monthGrid bounds (by omega) grid)⟩

/-- A day of a leap year's February. -/
theorem calendar_partitions_leap :
    let date := ⟨2028, 2, 5, by decide, by decide, by decide⟩
    (∃ first last, monthBounds date = some (first, last) ∧ first.day = 1 ∧ last.day = 29) ∧
      ∃ cells, monthGrid date = some cells ∧ IsGridOf date cells := by
  intro date
  obtain ⟨-, ⟨first, last, bounds, month⟩, grid⟩ :=
    calendar_partitions date ⟨by decide, by decide⟩
  exact ⟨⟨first, last, bounds, month.opens.2.2, month.closes.2.2⟩, grid⟩

end TimeTracker.Partition
