import TimeTracker.Calendar

/-!
# What reads as a date

The calendar library skips white space before each number, and takes a year with a
sign and of any width, and a month or a day of one digit.  Of everything it accepts
`parse_iso` keeps the one spelling that formatting writes.
-/

namespace TimeTracker.Lenient

open TimeTracker.Text
open TimeTracker.Date
open TimeTracker.Calendar

/-- Digits that spell a number. -/
structure Spells (digits : List Char) (value : Nat) : Prop where
  present : digits ≠ []
  all : ∀ c ∈ digits, c.isDigit = true
  value : Nat.ofDigitChars 10 digits 0 = value

/-- A year without a sign is of at most four digits. -/
inductive SpellsYear : List Char → Int → Prop
  | plain {digits : List Char} {value : Nat} (spells : Spells digits value)
      (narrow : digits.length ≤ 4) : SpellsYear digits value
  | plus {digits : List Char} {value : Nat} (spells : Spells digits value) :
      SpellsYear ('+' :: digits) value
  | minus {digits : List Char} {value : Nat} (spells : Spells digits value) :
      SpellsYear ('-' :: digits) (-value)

/-- The text names the date, however it spells it. -/
def Reads (chars : List Char) (date : NaiveDate) : Prop :=
  ∃ blank year blank' month blank'' day,
    chars = blank ++ (year ++ '-' :: (blank' ++ (month ++ '-' :: (blank'' ++ day)))) ∧
    Blank blank ∧ Blank blank' ∧ Blank blank'' ∧ SpellsYear year date.year ∧
    Spells month date.month ∧ month.length ≤ 2 ∧ Spells day date.day ∧ day.length ≤ 2

section Scanners

variable {limit value : Nat} {year : Int} {chars rest digits : List Char}

theorem scanNumber_eq_some (scanned : scanNumber limit chars = some (value, rest)) :
    ∃ digits, chars = digits ++ rest ∧ Spells digits value ∧ digits.length ≤ limit := by
  unfold scanNumber at scanned
  dsimp only at scanned
  split at scanned
  · cases scanned
  · next present =>
      have start : (chars.take limit).takeWhile Char.isDigit <+: chars :=
        (List.takeWhile_prefix _).trans (List.take_prefix _ _)
      cases scanned
      refine ⟨(chars.take limit).takeWhile Char.isDigit, ?_, ⟨?_, ?_, ?_⟩, ?_⟩
      · exact (List.prefix_iff_eq_append.mp start).symm
      · simpa using present
      · exact fun c => List.mem_takeWhile_imp
      · exact (foldl_digits _).symm
      · exact (List.takeWhile_prefix _).length_le.trans (List.length_take_le _ _)

theorem scanYear_eq_some (scanned : scanYear chars = some (year, rest)) :
    ∃ text, chars = text ++ rest ∧ SpellsYear text year := by
  unfold scanYear at scanned
  split at scanned
  · obtain ⟨⟨value, rest'⟩, found, same⟩ := Option.map_eq_some_iff.mp scanned
    cases same
    obtain ⟨digits, rfl, spells, -⟩ := scanNumber_eq_some found
    exact ⟨'-' :: digits, rfl, .minus spells⟩
  · obtain ⟨⟨value, rest'⟩, found, same⟩ := Option.map_eq_some_iff.mp scanned
    cases same
    obtain ⟨digits, rfl, spells, -⟩ := scanNumber_eq_some found
    exact ⟨'+' :: digits, rfl, .plus spells⟩
  · obtain ⟨⟨value, rest'⟩, found, same⟩ := Option.map_eq_some_iff.mp scanned
    cases same
    obtain ⟨digits, rfl, spells, narrow⟩ := scanNumber_eq_some found
    exact ⟨digits, rfl, .plain spells narrow⟩

theorem scanLiteral_eq_some {c : Char} :
    scanLiteral c chars = some rest ↔ chars = c :: rest := by
  cases chars with
  | nil => simp [scanLiteral]
  | cons other tail =>
      by_cases same : other = c <;> simp [scanLiteral, same]

theorem Spells.scanNumber (spells : Spells digits value) (limit : Nat) (rest : List Char)
    (within : digits.length ≤ limit) (stops : ∀ c ∈ rest.head?, c.isDigit = false) :
    scanNumber limit (digits ++ rest) = some (value, rest) := by
  rw [scanNumber_append spells.present spells.all within (Or.inr stops), spells.value]

theorem stops_at_dash (rest : List Char) : ∀ c ∈ ('-' :: rest).head?, c.isDigit = false := by
  rintro c ⟨⟩
  decide

theorem SpellsYear.scanYear (spells : SpellsYear chars year) (rest : List Char) :
    scanYear (chars ++ '-' :: rest) = some (year, '-' :: rest) := by
  cases spells with
  | @plain digits value spells narrow =>
      obtain ⟨c, tail, rfl⟩ := List.exists_cons_of_ne_nil spells.present
      have digit := spells.all c (List.mem_cons_self ..)
      have read := spells.scanNumber _ _ narrow (stops_at_dash rest)
      rw [List.cons_append] at read ⊢
      rw [scanYear_of_digit digit, read]
      rfl
  | @plus digits value spells =>
      have read := spells.scanNumber (digits ++ '-' :: rest).length _ (by simp)
        (stops_at_dash rest)
      simp only [List.cons_append, Date.scanYear, read, Option.map_some]
  | @minus digits value spells =>
      have read := spells.scanNumber (digits ++ '-' :: rest).length _ (by simp)
        (stops_at_dash rest)
      simp only [List.cons_append, Date.scanYear, read, Option.map_some]

end Scanners

theorem SpellsYear.dropWhile {chars : List Char} {year : Int} (spells : SpellsYear chars year)
    (rest : List Char) : (chars ++ rest).dropWhile isWhitespace = chars ++ rest := by
  cases spells with
  | plain spells narrow => exact dropWhile_digits spells.present spells.all rest
  | plus spells =>
      have sign : isWhitespace '+' = false := by decide
      rw [List.cons_append, List.dropWhile_cons, sign]
      rfl
  | minus spells =>
      have sign : isWhitespace '-' = false := by decide
      rw [List.cons_append, List.dropWhile_cons, sign]
      rfl

/-- The lenient reader accepts exactly the spellings of a date. -/
theorem parseFromStr_eq_some {raw : String} {date : NaiveDate} :
    parseFromStr raw = some date ↔ Reads raw.toList date := by
  constructor
  · intro parsed
    simp only [parseFromStr, Option.bind_eq_bind, Option.bind_eq_some_iff, Prod.exists,
      scanLiteral_eq_some] at parsed
    obtain ⟨year, _, readYear, afterYear, rfl, month, _, readMonth, afterMonth, rfl, day,
      rest, readDay, made⟩ := parsed
    obtain ⟨yearText, shape, spellsYear⟩ := scanYear_eq_some readYear
    obtain ⟨monthText, shape', spellsMonth, monthWidth⟩ := scanNumber_eq_some readMonth
    obtain ⟨dayText, shape'', spellsDay, dayWidth⟩ := scanNumber_eq_some readDay
    split at made
    · next ended =>
        obtain rfl := List.isEmpty_iff.mp ended
        obtain ⟨rfl, rfl, rfl⟩ := fromYmdOpt_eq_some made
        rw [List.append_nil] at shape''
        refine ⟨raw.toList.takeWhile isWhitespace, yearText, afterYear.takeWhile isWhitespace,
          monthText, afterMonth.takeWhile isWhitespace, dayText, ?_, blank_takeWhile _,
          blank_takeWhile _, blank_takeWhile _, spellsYear, spellsMonth, monthWidth, spellsDay,
          dayWidth⟩
        rw [← shape'', List.takeWhile_append_dropWhile, ← shape', List.takeWhile_append_dropWhile,
          ← shape, List.takeWhile_append_dropWhile]
    · cases made
  · rintro ⟨blank, year, blank', month, blank'', day, shape, isBlank, isBlank', isBlank'',
      spellsYear, spellsMonth, monthWidth, spellsDay, dayWidth⟩
    have readMonth := spellsMonth.scanNumber _ _ monthWidth (stops_at_dash (blank'' ++ day))
    have readDay := spellsDay.scanNumber _ [] dayWidth (by simp)
    rw [List.append_nil] at readDay
    have skipMonth := dropWhile_digits spellsMonth.present spellsMonth.all
      ('-' :: (blank'' ++ day))
    have skipDay := dropWhile_digits spellsDay.present spellsDay.all []
    rw [List.append_nil] at skipDay
    simp [parseFromStr, shape, isBlank.dropWhile, spellsYear.dropWhile, spellsYear.scanYear,
      scanLiteral, isBlank'.dropWhile, skipMonth, readMonth, isBlank''.dropWhile, skipDay,
      readDay, fromYmdOpt_self]

/-- The strict reader accepts one spelling of each date. -/
theorem parseIso_eq_some {raw : String} {date : NaiveDate} :
    parseIso raw = some date ↔ raw = toIso date := by
  constructor
  · exact fun parsed => (toIso_of_parseIso parsed).symm
  · rintro rfl
    exact parseIso_toIso date

/-- Every other spelling of the date is refused, not read as some other date. -/
theorem parseIso_of_reads {raw : String} {date : NaiveDate} (reads : Reads raw.toList date)
    (other : raw ≠ toIso date) : parseIso raw = none := by
  rw [parseIso, parseFromStr_eq_some.mpr reads]
  exact Option.filter_eq_none_iff.mpr (by simpa using Ne.symm other)

example : (parseFromStr " +02026- 9-4").map toIso = some "2026-09-04" := by decide

end TimeTracker.Lenient
