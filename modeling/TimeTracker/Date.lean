import TimeTracker.Library.Decimal
import TimeTracker.Text
import Mathlib.Data.Int.Notation
import Mathlib.Tactic.Common

/-!
# Calendar dates

Dates of the proleptic Gregorian calendar in the range the calendar library
represents, the one spelling the program stores and puts in URLs, and the
strict reader of that spelling.
-/

namespace TimeTracker.Date

open TimeTracker.Text
open TimeTracker.Library

def isLeapYear (year : Int) : Bool :=
  year % 4 == 0 && (year % 100 != 0 || year % 400 == 0)

def daysInMonth (year : Int) (month : Nat) : Nat :=
  if month = 2 then if isLeapYear year then 29 else 28
  else if month = 4 ∨ month = 6 ∨ month = 9 ∨ month = 11 then 30
  else 31

/-- First and last representable years. -/
def MIN_YEAR : Int := -262143
def MAX_YEAR : Int := 262142

/-- A representable calendar day. -/
structure NaiveDate where
  year : Int
  month : Nat
  day : Nat
  year_range : MIN_YEAR ≤ year ∧ year ≤ MAX_YEAR
  month_range : 1 ≤ month ∧ month ≤ 12
  day_range : 1 ≤ day ∧ day ≤ daysInMonth year month
  deriving DecidableEq

/-- `NaiveDate::from_ymd_opt`. -/
def fromYmdOpt (year : Int) (month day : Nat) : Option NaiveDate :=
  if hyear : MIN_YEAR ≤ year ∧ year ≤ MAX_YEAR then
    if hmonth : 1 ≤ month ∧ month ≤ 12 then
      if hday : 1 ≤ day ∧ day ≤ daysInMonth year month then
        some ⟨year, month, day, hyear, hmonth, hday⟩
      else none
    else none
  else none

/-- Chronological order. -/
def NaiveDate.Before (first second : NaiveDate) : Prop :=
  first.year < second.year ∨ first.year = second.year ∧
    (first.month < second.month ∨ first.month = second.month ∧ first.day < second.day)

instance (first second : NaiveDate) : Decidable (first.Before second) :=
  inferInstanceAs (Decidable (_ ∨ _ ∧ (_ ∨ _ ∧ _)))

/-- Whether the date is one of those from `first` to `last`. -/
def NaiveDate.Within (date first last : NaiveDate) : Prop :=
  ¬ date.Before first ∧ ¬ last.Before date

instance (date first last : NaiveDate) : Decidable (date.Within first last) :=
  inferInstanceAs (Decidable (_ ∧ _))

/-- `NaiveDate::pred_opt`: the day before. -/
def NaiveDate.predOpt (date : NaiveDate) : Option NaiveDate :=
  if 1 < date.day then fromYmdOpt date.year date.month (date.day - 1)
  else if 1 < date.month then
    fromYmdOpt date.year (date.month - 1) (daysInMonth date.year (date.month - 1))
  else fromYmdOpt (date.year - 1) 12 31

/-- `NaiveDate::checked_sub_days`. -/
def NaiveDate.checkedSubDays (date : NaiveDate) : Nat → Option NaiveDate
  | 0 => some date
  | days + 1 => (date.checkedSubDays days).bind NaiveDate.predOpt

/-- Days up to the date, counted from the start of the year 1. -/
def NaiveDate.dayNumber (date : NaiveDate) : Int :=
  let past := date.year - 1
  365 * past + past / 4 - past / 100 + past / 400 +
    (((List.range' 1 (date.month - 1)).map (daysInMonth date.year)).sum + date.day : Nat)

/-- `(second - first).num_days()`. -/
def numDays (first second : NaiveDate) : Int :=
  second.dayNumber - first.dayNumber

/-- Decimal digits, padded with zeros to a width. -/
def pad (width value : Nat) : List Char :=
  let digits := Nat.toDigits 10 value
  List.replicate (width - digits.length) '0' ++ digits

/-- `%Y`: four digits, with a sign before years that need one. -/
def formatYear (year : Int) : List Char :=
  if 0 ≤ year ∧ year ≤ 9999 then pad 4 year.toNat
  else (if year < 0 then '-' else '+') :: pad 4 year.natAbs

/-- The date as the URL and the database both store it. -/
def toIso (date : NaiveDate) : String :=
  String.ofList
    (formatYear date.year ++ '-' :: pad 2 date.month ++ '-' :: pad 2 date.day)

/-- Up to `width` leading decimal digits as a number; at least one is needed. -/
def scanNumber (width : Nat) (chars : List Char) : Option (Nat × List Char) :=
  let digits := (chars.take width).takeWhile Char.isDigit
  if digits.isEmpty then none
  else some (digits.foldl (fun value c => value * 10 + (c.toNat - '0'.toNat)) 0,
    chars.drop digits.length)

/-- `%Y`: a signed year of any width, or an unsigned one of up to four digits. -/
def scanYear (chars : List Char) : Option (Int × List Char) :=
  match chars with
  | '-' :: rest => (scanNumber rest.length rest).map fun (value, rest) =>
      (-(value : Int), rest)
  | '+' :: rest => (scanNumber rest.length rest).map fun (value, rest) =>
      ((value : Int), rest)
  | _ => (scanNumber 4 chars).map fun (value, rest) => ((value : Int), rest)

def scanLiteral (expected : Char) : List Char → Option (List Char)
  | c :: rest => if c = expected then some rest else none
  | [] => none

/-- `NaiveDate::parse_from_str(raw, "%Y-%m-%d")`: lenient about padding, a sign
and white space before each number. -/
def parseFromStr (raw : String) : Option NaiveDate := do
  let (year, rest) ← scanYear (raw.toList.dropWhile isWhitespace)
  let rest ← scanLiteral '-' rest
  let (month, rest) ← scanNumber 2 (rest.dropWhile isWhitespace)
  let rest ← scanLiteral '-' rest
  let (day, rest) ← scanNumber 2 (rest.dropWhile isWhitespace)
  if rest.isEmpty then fromYmdOpt year month day else none

/-- Parses a `YYYY-MM-DD` segment strictly: what it accepts reformats to itself. -/
def parseIso (raw : String) : Option NaiveDate :=
  (parseFromStr raw).filter fun date => toIso date = raw

theorem toIso_of_parseIso {raw : String} {date : NaiveDate}
    (parsed : parseIso raw = some date) : toIso date = raw := by
  have kept := (Option.filter_eq_some_iff.mp parsed).2
  simpa using kept

/-! ## What is formatted parses back -/

/-- A padded number is one or more digits. -/
theorem isDigit_of_mem_pad {width value : Nat} {c : Char} (member : c ∈ pad width value) :
    c.isDigit = true := by
  rcases List.mem_append.mp member with zero | digit
  · rw [List.eq_of_mem_replicate zero]
    decide
  · exact Nat.isDigit_of_mem_toDigits (by decide) (by decide) digit

theorem pad_ne_nil (width value : Nat) : pad width value ≠ [] := by
  intro empty
  have present : Nat.toDigits 10 value ≠ [] := Nat.toDigits_ne_nil
  exact present (List.append_eq_nil_iff.mp empty).2

/-- A number of at most `width` digits is padded to exactly that many. -/
theorem length_pad {width value : Nat} (positive : 0 < width) (small : value < 10 ^ width) :
    (pad width value).length = width := by
  have fits := (Nat.length_toDigits_le_iff (by decide) positive).mpr small
  simp [pad]
  omega

theorem ofDigitChars_pad (width value : Nat) :
    Nat.ofDigitChars 10 (pad width value) 0 = value := by
  rw [pad, Nat.ofDigitChars_append, Nat.ofDigitChars_replicate_zero, Nat.mul_zero,
    Nat.ofDigitChars_ten_toDigits]

/-- The reader's running value is the number the digits spell. -/
theorem foldl_digits (digits : List Char) :
    digits.foldl (fun value c => value * 10 + (c.toNat - '0'.toNat)) 0 =
      Nat.ofDigitChars 10 digits 0 := by
  have order : (fun value (c : Char) => value * 10 + (c.toNat - '0'.toNat)) =
      fun value c => 10 * value + (c.toNat - '0'.toNat) := by
    funext value c
    rw [Nat.mul_comm]
  rw [order, ← Nat.ofDigitChars_eq_foldl]

/-- Digits are read up to what follows them, if that is no digit or if the reader
stops there by itself. -/
theorem scanNumber_append {limit : Nat} {digits rest : List Char} (present : digits ≠ [])
    (all : ∀ c ∈ digits, c.isDigit = true) (within : digits.length ≤ limit)
    (ends : digits.length = limit ∨ ∀ c ∈ rest.head?, c.isDigit = false) :
    scanNumber limit (digits ++ rest) = some (Nat.ofDigitChars 10 digits 0, rest) := by
  have read : ((digits ++ rest).take limit).takeWhile Char.isDigit = digits := by
    rw [List.take_append, List.take_of_length_le within, List.takeWhile_append_of_pos all]
    rcases ends with full | stops
    · simp [full]
    · cases rest with
      | nil => simp
      | cons c rest =>
          have stop : c.isDigit = false := stops c rfl
          cases limit - digits.length <;> simp [stop]
  have some : digits.isEmpty = false := by simpa using present
  simp only [scanNumber, read, some, Bool.false_eq_true, if_false, foldl_digits, List.drop_left]

theorem scanNumber_pad {limit width value : Nat} {rest : List Char}
    (within : (pad width value).length ≤ limit)
    (ends : (pad width value).length = limit ∨ ∀ c ∈ rest.head?, c.isDigit = false) :
    scanNumber limit (pad width value ++ rest) = some (value, rest) := by
  rw [scanNumber_append (pad_ne_nil width value) (fun c => isDigit_of_mem_pad) within ends,
    ofDigitChars_pad]

theorem head_pad (width value : Nat) (rest : List Char) :
    ∃ c tail, pad width value ++ rest = c :: tail ∧ c.isDigit = true := by
  cases digits : pad width value with
  | nil => exact absurd digits (pad_ne_nil width value)
  | cons c tail =>
      have member : c ∈ pad width value := by
        rw [digits]
        exact List.mem_cons_self ..
      exact ⟨c, tail ++ rest, rfl, isDigit_of_mem_pad member⟩

theorem isWhitespace_of_isDigit {c : Char} (digit : c.isDigit = true) :
    isWhitespace c = false := by
  simp only [Char.isDigit, Bool.and_eq_true, decide_eq_true_eq, ge_iff_le,
    UInt32.le_iff_toNat_le] at digit
  obtain ⟨low, high⟩ := digit
  have low : 48 ≤ c.toNat := low
  have high : c.toNat ≤ 57 := high
  simp only [isWhitespace, Bool.or_eq_false_iff, Bool.and_eq_false_iff,
    decide_eq_false_iff_not, beq_eq_false_iff_ne]
  omega

/-- No white space stands before digits. -/
theorem dropWhile_digits {digits : List Char} (present : digits ≠ [])
    (all : ∀ c ∈ digits, c.isDigit = true) (rest : List Char) :
    (digits ++ rest).dropWhile isWhitespace = digits ++ rest := by
  cases digits with
  | nil => exact absurd rfl present
  | cons c tail =>
      rw [List.cons_append, List.dropWhile_cons,
        isWhitespace_of_isDigit (all c (List.mem_cons_self ..))]
      rfl

theorem dropWhile_pad (width value : Nat) (rest : List Char) :
    (pad width value ++ rest).dropWhile isWhitespace = pad width value ++ rest :=
  dropWhile_digits (pad_ne_nil width value) (fun _ => isDigit_of_mem_pad) rest

theorem scanYear_of_digit {c : Char} {tail : List Char} (digit : c.isDigit = true) :
    scanYear (c :: tail) =
      (scanNumber 4 (c :: tail)).map fun (value, rest) => ((value : Int), rest) := by
  unfold scanYear
  split
  · next same =>
      cases same
      exact absurd digit (by decide)
  · next same =>
      cases same
      exact absurd digit (by decide)
  · rfl

theorem scanYear_formatYear (year : Int) (rest : List Char) :
    scanYear (formatYear year ++ '-' :: rest) = some (year, '-' :: rest) := by
  have stops : ∀ c ∈ ('-' :: rest).head?, c.isDigit = false := by
    rintro c ⟨⟩
    decide
  have whole : ∀ value : Nat, scanNumber (pad 4 value ++ '-' :: rest).length
      (pad 4 value ++ '-' :: rest) = some (value, '-' :: rest) := by
    intro value
    exact scanNumber_pad (by simp) (Or.inr stops)
  unfold formatYear
  split
  · next plain =>
      obtain ⟨c, tail, shape, digit⟩ := head_pad 4 year.toNat ('-' :: rest)
      have length : (pad 4 year.toNat).length = 4 := length_pad (by decide) (by omega)
      have read : scanNumber 4 (pad 4 year.toNat ++ '-' :: rest) =
          some (year.toNat, '-' :: rest) :=
        scanNumber_pad (Nat.le_of_eq length) (Or.inl length)
      have value : (year.toNat : Int) = year := by omega
      rw [shape, scanYear_of_digit digit, ← shape, read]
      simp only [Option.map_some, value]
  · next signed =>
      split
      · next negative =>
          have value : -(year.natAbs : Int) = year := by omega
          rw [List.cons_append]
          simp only [scanYear, whole, Option.map_some, value]
      · next positive =>
          have value : (year.natAbs : Int) = year := by omega
          rw [List.cons_append]
          simp only [scanYear, whole, Option.map_some, value]

theorem dropWhile_formatYear (year : Int) (rest : List Char) :
    (formatYear year ++ rest).dropWhile isWhitespace = formatYear year ++ rest := by
  have minus : isWhitespace '-' = false := by decide
  have plus : isWhitespace '+' = false := by decide
  unfold formatYear
  split
  · exact dropWhile_pad 4 year.toNat rest
  · split
    · simp [minus]
    · simp [plus]

theorem fromYmdOpt_self (date : NaiveDate) :
    fromYmdOpt date.year date.month date.day = some date := by
  rw [fromYmdOpt, dif_pos date.year_range, dif_pos date.month_range, dif_pos date.day_range]

theorem daysInMonth_le (year : Int) (month : Nat) : daysInMonth year month ≤ 31 := by
  unfold daysInMonth
  split
  · split <;> decide
  · split <;> decide

theorem parseFromStr_toIso (date : NaiveDate) : parseFromStr (toIso date) = some date := by
  have month_range := date.month_range
  have day_range := date.day_range
  have days := daysInMonth_le date.year date.month
  have month : (pad 2 date.month).length = 2 := length_pad (by decide) (by omega)
  have day : (pad 2 date.day).length = 2 := length_pad (by decide) (by omega)
  have scanMonth : scanNumber 2 (pad 2 date.month ++ '-' :: pad 2 date.day) =
      some (date.month, '-' :: pad 2 date.day) :=
    scanNumber_pad (Nat.le_of_eq month) (Or.inl month)
  have scanDay : scanNumber 2 (pad 2 date.day ++ []) = some (date.day, []) :=
    scanNumber_pad (Nat.le_of_eq day) (Or.inl day)
  rw [List.append_nil] at scanDay
  have skipMonth := dropWhile_pad 2 date.month ('-' :: pad 2 date.day)
  have skipDay := dropWhile_pad 2 date.day []
  rw [List.append_nil] at skipDay
  have chars : (toIso date).toList = formatYear date.year ++
      '-' :: (pad 2 date.month ++ '-' :: pad 2 date.day) := by
    simp [toIso]
  simp [parseFromStr, chars, dropWhile_formatYear, scanYear_formatYear, scanLiteral,
    skipMonth, scanMonth, skipDay, scanDay, fromYmdOpt_self]

/-- Every representable day is read back from its own spelling. -/
@[simp] theorem parseIso_toIso (date : NaiveDate) : parseIso (toIso date) = some date := by
  simp [parseIso, parseFromStr_toIso]

/-- Days are told apart by their spelling. -/
theorem toIso_injective : Function.Injective toIso := by
  intro first second same
  have parsed := parseIso_toIso first
  rw [same, parseIso_toIso] at parsed
  exact (Option.some.inj parsed).symm

/-! ## Dates compare as text -/

/-- Numbers of at most `width` digits, padded, compare as text. -/
theorem pad_lt_pad {width first second : Nat} (positive : 0 < width)
    (fits : first < 10 ^ width) (others : second < 10 ^ width) (less : first < second) :
    pad width first < pad width second := by
  apply Decimal.lt_of_ofDigitChars_lt
  · exact fun c => isDigit_of_mem_pad
  · exact fun c => isDigit_of_mem_pad
  · rw [length_pad positive fits, length_pad positive others]
  · rw [ofDigitChars_pad, ofDigitChars_pad]
    exact less

/-- A year written with four digits and no sign. -/
def NaiveDate.FourDigitYear (date : NaiveDate) : Prop :=
  0 ≤ date.year ∧ date.year ≤ 9999

instance (date : NaiveDate) : Decidable date.FourDigitYear :=
  inferInstanceAs (Decidable (_ ∧ _))

theorem toList_toIso {date : NaiveDate} (plain : date.FourDigitYear) :
    (toIso date).toList =
      pad 4 date.year.toNat ++ ('-' :: (pad 2 date.month ++ ('-' :: pad 2 date.day))) := by
  have unsigned : 0 ≤ date.year ∧ date.year ≤ 9999 := plain
  rw [toIso, String.toList_ofList, formatYear, if_pos unsigned, List.append_assoc]
  rfl

/-- Month and day fit their two digits. -/
theorem NaiveDate.twoDigits (date : NaiveDate) : date.month < 10 ^ 2 ∧ date.day < 10 ^ 2 := by
  have month_range := date.month_range
  have day_range := date.day_range
  have long := daysInMonth_le date.year date.month
  omega

/-- Within a year an earlier day is the smaller text. -/
theorem monthDay_lt_monthDay {first second : NaiveDate}
    (earlier : first.month < second.month ∨
      first.month = second.month ∧ first.day < second.day) :
    pad 2 first.month ++ '-' :: pad 2 first.day <
      pad 2 second.month ++ '-' :: pad 2 second.day := by
  obtain ⟨month, day⟩ := first.twoDigits
  obtain ⟨month', day'⟩ := second.twoDigits
  rcases earlier with less | ⟨same, less⟩
  · apply Decimal.append_lt_append
    · rw [length_pad (by decide) month, length_pad (by decide) month']
    · exact pad_lt_pad (by decide) month month' less
  · rw [same]
    apply List.append_left_lt
    exact List.cons_lt_cons_iff.mpr (Or.inr ⟨rfl, pad_lt_pad (by decide) day day' less⟩)

/-- An earlier date is the smaller text, in the years that are written plainly. -/
theorem toIso_lt_toIso {first second : NaiveDate} (plain : first.FourDigitYear)
    (others : second.FourDigitYear) (earlier : first.Before second) :
    toIso first < toIso second := by
  have years : first.year.toNat < 10 ^ 4 ∧ second.year.toNat < 10 ^ 4 := by
    have := plain.2
    have := others.2
    omega
  rw [String.lt_iff, toList_toIso plain, toList_toIso others]
  rcases earlier with less | ⟨same, later⟩
  · apply Decimal.append_lt_append
    · rw [length_pad (by decide) years.1, length_pad (by decide) years.2]
    · have low := plain.1
      exact pad_lt_pad (by decide) years.1 years.2 (by omega)
  · rw [same]
    apply List.append_left_lt
    exact List.cons_lt_cons_iff.mpr (Or.inr ⟨rfl, monthDay_lt_monthDay later⟩)

theorem NaiveDate.before_trichotomy (first second : NaiveDate) :
    first.Before second ∨ first = second ∨ second.Before first := by
  obtain ⟨year, month, day, -, -, -⟩ := first
  obtain ⟨year', month', day', -, -, -⟩ := second
  simp only [NaiveDate.Before, NaiveDate.mk.injEq]
  omega

/-- A range of dates is a range of texts, in the years that are written plainly. -/
theorem toIso_le_toIso {first second : NaiveDate} (plain : first.FourDigitYear)
    (others : second.FourDigitYear) (ordered : ¬ second.Before first) :
    toIso first ≤ toIso second := by
  obtain earlier | rfl | later := first.before_trichotomy second
  · exact List.le_of_lt (toIso_lt_toIso plain others earlier)
  · exact String.le_refl _
  · exact absurd later ordered

example : (parseIso "2026-09-04").map toIso = some "2026-09-04" := by decide

example : parseIso "2026-9-4" = none := by decide

end TimeTracker.Date
