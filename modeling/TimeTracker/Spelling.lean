import TimeTracker.Calendar

/-!
# The order of spelled dates

A column of spelled dates sorts by text.  Within one year that is calendar
order.  Across years it is the order of the spelled years: those with a plus
sign first, then those with a minus sign, then the plain ones, and within each
the digits from the left, what begins another first.
-/

namespace TimeTracker.Spelling

open TimeTracker.Text
open TimeTracker.Library
open TimeTracker.Date
open TimeTracker.Calendar

/-! ## Where a year sorts -/

/-- The sign: a plus before a minus before none. -/
def signRank (year : Int) : Nat :=
  if 9999 < year then 0 else if year < 0 then 1 else 2

/-- The digits from the left, as six of them, and then how many there are. -/
def digitsRank (value : Nat) : Nat :=
  if value < 10000 then 1000 * value + 4
  else if value < 100000 then 100 * value + 5
  else 10 * value + 6

/-- Where the spelled year sorts among the representable ones. -/
def yearRank (year : Int) : Nat :=
  10000000 * signRank year + digitsRank year.natAbs

/-- A spelled date sorts before another one. -/
def SortsBefore (first second : NaiveDate) : Prop :=
  yearRank first.year < yearRank second.year ∨ first.year = second.year ∧
    (first.month < second.month ∨ first.month = second.month ∧ first.day < second.day)

theorem digitsRank_lt {value : Nat} (small : value < 1000000) :
    digitsRank value < 10000000 := by
  unfold digitsRank
  split
  · omega
  · split <;> omega

theorem digitsRank_injective {first second : Nat}
    (same : digitsRank first = digitsRank second) : first = second := by
  unfold digitsRank at same
  split at same <;> split at same <;> (try split at same) <;> (try split at same) <;> omega

theorem natAbs_year_lt (date : NaiveDate) : date.year.natAbs < 1000000 := by
  have := date.year_range
  simp only [MIN_YEAR, MAX_YEAR] at this
  omega

theorem yearRank_injective {first second : NaiveDate}
    (same : yearRank first.year = yearRank second.year) : first.year = second.year := by
  have low := digitsRank_lt (natAbs_year_lt first)
  have high := digitsRank_lt (natAbs_year_lt second)
  unfold yearRank at same
  have digits : digitsRank first.year.natAbs = digitsRank second.year.natAbs := by omega
  have signs : signRank first.year = signRank second.year := by omega
  have values := digitsRank_injective digits
  unfold signRank at signs
  split at signs <;> split at signs <;> (try split at signs) <;> (try split at signs) <;> omega

/-! ## Digits before a dash -/

theorem pad_four_of_le {value : Nat} (wide : 1000 ≤ value) :
    pad 4 value = Nat.toDigits 10 value := by
  have length : ¬ (Nat.toDigits 10 value).length ≤ 3 := by
    rw [Nat.length_toDigits_le_iff (by decide) (by decide)]
    omega
  have none : 4 - (Nat.toDigits 10 value).length = 0 := by omega
  simp [pad, none]

theorem length_pad_four {count value : Nat} (low : 10 ^ (count + 3) ≤ value)
    (high : value < 10 ^ (count + 4)) : (pad 4 value).length = count + 4 := by
  have wide : 1000 ≤ value := by
    have := Nat.pow_le_pow_right (n := 10) (by decide) (Nat.le_add_left 3 count)
    omega
  have atMost := (Nat.length_toDigits_le_iff (b := 10) (by decide)
    (Nat.succ_pos (count + 3))).mpr high
  have atLeast := (Nat.length_toDigits_le_iff (b := 10) (n := value) (by decide)
    (Nat.succ_pos (count + 2))).not.mpr (Nat.not_lt.mpr low)
  rw [pad_four_of_le wide]
  omega

/-- Numbers of as many digits. -/
theorem pad_append_lt {first second : Nat}
    (width : (pad 4 first).length = (pad 4 second).length) (less : first < second)
    (rest other : List Char) : pad 4 first ++ rest < pad 4 second ++ other := by
  apply Decimal.append_lt_append width
  apply Decimal.lt_of_ofDigitChars_lt
  · exact fun c => isDigit_of_mem_pad
  · exact fun c => isDigit_of_mem_pad
  · exact width
  · rw [ofDigitChars_pad, ofDigitChars_pad]
    exact less

/-- A wide number is spelled as its leading part and then the rest. -/
theorem pad_lead {count value : Nat} (wide : 1000 ≤ value / 10 ^ count) :
    ∃ tail, pad 4 value = pad 4 (value / 10 ^ count) ++ tail ∧ tail.length = count ∧
      ∀ c ∈ tail, c.isDigit = true := by
  have positive : 0 < value / 10 ^ count := by omega
  have small : value % 10 ^ count < 10 ^ count := Nat.mod_lt _ (Nat.pow_pos (by decide))
  have whole : 1000 ≤ value := Nat.le_trans wide (Nat.div_le_self _ _)
  obtain ⟨tail, digits, rest⟩ := Decimal.toDigits_split positive small
  rw [Nat.div_add_mod] at digits
  exact ⟨tail, by rw [pad_four_of_le whole, digits, pad_four_of_le wide], rest⟩

/-- A number against a longer one: the leading part decides, and what begins
another comes first, as a dash sorts before a digit. -/
theorem pad_append_lt_of_lead {first second : Nat} (count : Nat) (more : 0 < count)
    (wide : 1000 ≤ second / 10 ^ count)
    (width : (pad 4 first).length = (pad 4 (second / 10 ^ count)).length)
    (atMost : first ≤ second / 10 ^ count) (rest other : List Char) :
    pad 4 first ++ '-' :: rest < pad 4 second ++ other := by
  obtain ⟨tail, spelled, length, all⟩ := pad_lead wide
  rw [spelled, List.append_assoc]
  rcases Nat.lt_or_eq_of_le atMost with less | same
  · exact pad_append_lt width less _ _
  · rw [same]
    apply List.append_left_lt
    cases tail with
    | nil => exact absurd length (Nat.ne_of_lt more)
    | cons c tail =>
        have digit := (Decimal.toNat_of_isDigit (all c (List.mem_cons_self ..))).1
        rw [List.cons_append]
        exact List.cons_lt_cons_iff.mpr (.inl (Nat.lt_of_lt_of_le (by decide) digit))

/-- A longer number against a shorter one. -/
theorem pad_lead_append_lt {first second : Nat} (count : Nat) (wide : 1000 ≤ first / 10 ^ count)
    (width : (pad 4 (first / 10 ^ count)).length = (pad 4 second).length)
    (less : first / 10 ^ count < second) (rest other : List Char) :
    pad 4 first ++ rest < pad 4 second ++ other := by
  obtain ⟨tail, spelled, -⟩ := pad_lead wide
  rw [spelled, List.append_assoc]
  exact pad_append_lt width less _ _

/-- Years have four, five or six digits. -/
theorem pad_widths {value : Nat} (small : value < 1000000) :
    (value < 10000 ∧ (pad 4 value).length = 4 ∧ digitsRank value = 1000 * value + 4) ∨
    (10000 ≤ value ∧ value < 100000 ∧ (pad 4 value).length = 5 ∧
      digitsRank value = 100 * value + 5) ∨
    (100000 ≤ value ∧ (pad 4 value).length = 6 ∧ digitsRank value = 10 * value + 6) := by
  have four : 10 ^ 4 = 10000 := rfl
  unfold digitsRank
  split
  · next narrow => exact .inl ⟨narrow, length_pad (by decide) narrow, rfl⟩
  · next wide =>
      have wide := Nat.le_of_not_lt wide
      split
      · next narrow =>
          have length : (pad 4 value).length = 1 + 4 := length_pad_four wide narrow
          exact .inr (.inl ⟨wide, narrow, length, rfl⟩)
      · next wider =>
          have wider := Nat.le_of_not_lt wider
          have length : (pad 4 value).length = 2 + 4 := length_pad_four wider small
          exact .inr (.inr ⟨wider, length, rfl⟩)

theorem length_four {value : Nat} (narrow : value < 10000) : (pad 4 value).length = 4 :=
  length_pad (by decide) narrow

theorem length_five {value : Nat} (wide : 10000 ≤ value) (narrow : value < 100000) :
    (pad 4 value).length = 5 :=
  length_pad_four (Nat.le_trans (Nat.le_of_eq rfl) wide) narrow

/-- The spelled numbers sort by their rank. -/
theorem pad_lt_of_digitsRank {first second : Nat} (firstSmall : first < 1000000)
    (secondSmall : second < 1000000) (less : digitsRank first < digitsRank second)
    (rest other : List Char) : pad 4 first ++ '-' :: rest < pad 4 second ++ '-' :: other := by
  rcases pad_widths firstSmall with ⟨low, width, rank⟩ | ⟨low, high, width, rank⟩ |
    ⟨low, width, rank⟩
  · rcases pad_widths secondSmall with ⟨low', width', rank'⟩ | ⟨low', high', width', rank'⟩ |
      ⟨low', width', rank'⟩
    · exact pad_append_lt (by omega) (by omega) _ _
    · have lead : (pad 4 (second / 10 ^ 1)).length = 4 := length_four (by omega)
      exact pad_append_lt_of_lead 1 Nat.one_pos (by omega) (by omega) (by omega) _ _
    · have lead : (pad 4 (second / 10 ^ 2)).length = 4 := length_four (by omega)
      exact pad_append_lt_of_lead 2 Nat.two_pos (by omega) (by omega) (by omega) _ _
  · rcases pad_widths secondSmall with ⟨low', width', rank'⟩ | ⟨low', high', width', rank'⟩ |
      ⟨low', width', rank'⟩
    · have lead : (pad 4 (first / 10 ^ 1)).length = 4 := length_four (by omega)
      exact pad_lead_append_lt 1 (by omega) (by omega) (by omega) _ _
    · exact pad_append_lt (by omega) (by omega) _ _
    · have lead : (pad 4 (second / 10 ^ 1)).length = 5 := length_five (by omega) (by omega)
      exact pad_append_lt_of_lead 1 Nat.one_pos (by omega) (by omega) (by omega) _ _
  · rcases pad_widths secondSmall with ⟨low', width', rank'⟩ | ⟨low', high', width', rank'⟩ |
      ⟨low', width', rank'⟩
    · have lead : (pad 4 (first / 10 ^ 2)).length = 4 := length_four (by omega)
      exact pad_lead_append_lt 2 (by omega) (by omega) (by omega) _ _
    · have lead : (pad 4 (first / 10 ^ 1)).length = 5 := length_five (by omega) (by omega)
      exact pad_lead_append_lt 1 (by omega) (by omega) (by omega) _ _
    · exact pad_append_lt (by omega) (by omega) _ _

/-! ## Spelled years and dates -/

/-- What stands before the digits of a year. -/
theorem formatYear_cases (year : Int) :
    (signRank year = 0 ∧ formatYear year = '+' :: pad 4 year.natAbs) ∨
    (signRank year = 1 ∧ formatYear year = '-' :: pad 4 year.natAbs) ∨
    (signRank year = 2 ∧ formatYear year = pad 4 year.natAbs) := by
  unfold signRank formatYear
  by_cases large : 9999 < year
  · rw [if_pos large, if_neg (by omega), if_neg (by omega)]
    exact .inl ⟨rfl, rfl⟩
  · rw [if_neg large]
    by_cases negative : year < 0
    · rw [if_pos negative, if_neg (by omega), if_pos negative]
      exact .inr (.inl ⟨rfl, rfl⟩)
    · have value : year.toNat = year.natAbs := by omega
      rw [if_neg negative, if_pos (by omega), value]
      exact .inr (.inr ⟨rfl, rfl⟩)

/-- A sign sorts before a digit. -/
theorem sign_lt_pad {sign : Char} (below : sign < '0') (value : Nat) (rest other : List Char) :
    sign :: rest < pad 4 value ++ other := by
  obtain ⟨c, tail, shape, digit⟩ := head_pad 4 value other
  rw [shape]
  have above := (Decimal.toNat_of_isDigit digit).1
  exact List.cons_lt_cons_iff.mpr (.inl (Nat.lt_of_lt_of_le below above))

/-- A sign that sorts first decides before any digit is read. -/
theorem formatYear_lt_of_sign {first second : Int} (less : signRank first < signRank second)
    (rest other : List Char) :
    formatYear first ++ '-' :: rest < formatYear second ++ '-' :: other := by
  rcases formatYear_cases first with ⟨rank, spelled⟩ | ⟨rank, spelled⟩ | ⟨rank, spelled⟩
  · rcases formatYear_cases second with ⟨rank', spelled'⟩ | ⟨rank', spelled'⟩ |
      ⟨rank', spelled'⟩
    · omega
    · rw [spelled, spelled', List.cons_append, List.cons_append]
      exact List.cons_lt_cons_iff.mpr (.inl (by decide))
    · rw [spelled, spelled', List.cons_append]
      exact sign_lt_pad (by decide) _ _ _
  · rcases formatYear_cases second with ⟨rank', spelled'⟩ | ⟨rank', spelled'⟩ |
      ⟨rank', spelled'⟩
    · omega
    · omega
    · rw [spelled, spelled', List.cons_append]
      exact sign_lt_pad (by decide) _ _ _
  · rcases formatYear_cases second with ⟨rank', -⟩ | ⟨rank', -⟩ | ⟨rank', -⟩ <;> omega

/-- Under one sign the digits decide. -/
theorem formatYear_lt_of_digits {first second : Int} (same : signRank first = signRank second)
    (firstSmall : first.natAbs < 1000000) (secondSmall : second.natAbs < 1000000)
    (less : digitsRank first.natAbs < digitsRank second.natAbs) (rest other : List Char) :
    formatYear first ++ '-' :: rest < formatYear second ++ '-' :: other := by
  have digits := pad_lt_of_digitsRank firstSmall secondSmall less rest other
  rcases formatYear_cases first with ⟨rank, spelled⟩ | ⟨rank, spelled⟩ | ⟨rank, spelled⟩
  · rcases formatYear_cases second with ⟨rank', spelled'⟩ | ⟨rank', -⟩ | ⟨rank', -⟩
    · rw [spelled, spelled', List.cons_append, List.cons_append]
      exact List.cons_lt_cons_iff.mpr (.inr ⟨rfl, digits⟩)
    · omega
    · omega
  · rcases formatYear_cases second with ⟨rank', -⟩ | ⟨rank', spelled'⟩ | ⟨rank', -⟩
    · omega
    · rw [spelled, spelled', List.cons_append, List.cons_append]
      exact List.cons_lt_cons_iff.mpr (.inr ⟨rfl, digits⟩)
    · omega
  · rcases formatYear_cases second with ⟨rank', -⟩ | ⟨rank', -⟩ | ⟨rank', spelled'⟩
    · omega
    · omega
    · rwa [spelled, spelled']

theorem toList_toIso (date : NaiveDate) :
    (toIso date).toList = formatYear date.year ++
      ('-' :: (pad 2 date.month ++ ('-' :: pad 2 date.day))) := by
  rw [toIso, String.toList_ofList, List.append_assoc]
  rfl

theorem toIso_lt_of_sortsBefore {first second : NaiveDate} (sorts : SortsBefore first second) :
    toIso first < toIso second := by
  rw [String.lt_iff, toList_toIso, toList_toIso]
  rcases sorts with year | ⟨year, later⟩
  · have low := digitsRank_lt (natAbs_year_lt first)
    have high := digitsRank_lt (natAbs_year_lt second)
    unfold yearRank at year
    by_cases same : signRank first.year = signRank second.year
    · exact formatYear_lt_of_digits same (natAbs_year_lt first) (natAbs_year_lt second)
        (by omega) _ _
    · exact formatYear_lt_of_sign (by omega) _ _
  · rw [year]
    apply List.append_left_lt
    exact List.cons_lt_cons_iff.mpr (.inr ⟨rfl, monthDay_lt_monthDay later⟩)

theorem sortsBefore_trichotomy (first second : NaiveDate) :
    SortsBefore first second ∨ first = second ∨ SortsBefore second first := by
  by_cases year : first.year = second.year
  · obtain earlier | rfl | later := first.before_trichotomy second
    · rcases earlier with less | ⟨-, rest⟩
      · omega
      · exact .inl (.inr ⟨year, rest⟩)
    · exact .inr (.inl rfl)
    · rcases later with less | ⟨-, rest⟩
      · omega
      · exact .inr (.inr (.inr ⟨year.symm, rest⟩))
  · rcases Nat.lt_trichotomy (yearRank first.year) (yearRank second.year) with less | same | more
    · exact .inl (.inl less)
    · exact absurd (yearRank_injective same) year
    · exact .inr (.inr (.inl more))

/-- The text of dates sorts as the dates do. -/
theorem toIso_lt_iff {first second : NaiveDate} :
    toIso first < toIso second ↔ SortsBefore first second := by
  refine ⟨fun less => ?_, toIso_lt_of_sortsBefore⟩
  obtain before | rfl | after := sortsBefore_trichotomy first second
  · exact before
  · exact absurd less (String.lt_irrefl _)
  · exact absurd less (String.lt_asymm (toIso_lt_of_sortsBefore after))

theorem toIso_le_iff {first second : NaiveDate} :
    toIso first ≤ toIso second ↔ ¬ SortsBefore second first := by
  rw [← toIso_lt_iff, String.not_lt]

end TimeTracker.Spelling
