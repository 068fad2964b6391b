import TimeTracker.Storage.Seam

/-!
# A range read, row by row

The two passes of a range read, with whatever opens the rows in the second: together
they read every row by itself, and the flags say which failures they met.
-/

namespace TimeTracker.Storage.RangeReads

open TimeTracker.Date
open TimeTracker.Crypto.Wire
open TimeTracker.Tab.State
open TimeTracker.Storage.Envelopes
open TimeTracker.Storage.Seam

section RangeReads

variable {K : Type}

/-- One row read by itself: decided, and then opened. -/
def readAlone (platform : Platform K) (opener : Opener K) (session : Option (SessionKey K))
    (row : NaiveDate × String) : Except StorageError String := do
  opener (← decideRow platform row.2 session (.timeEntry row.1)) (.timeEntry row.1)

variable {platform : Platform K} {opener : Opener K} {session : Option (SessionKey K)}
  {rows : List (NaiveDate × String)}

theorem keepRow_eq_some {T : Type} {date : NaiveDate} {read : Except StorageError T}
    {kept : NaiveDate × T} : keepRow date read = some kept ↔ kept.1 = date ∧ read = .ok kept.2 := by
  obtain ⟨day, value⟩ := kept
  cases read with
  | error error => simp [keepRow]
  | ok found => simp [keepRow, eq_comm]

theorem failedWith_isCrypto_iff {T : Type} {read : Except StorageError T} :
    failedWith StorageError.isCrypto read = true ↔
      ∃ key detail, read = .error (.crypto key detail) := by
  cases read with
  | error error => cases error <;> simp [failedWith, StorageError.isCrypto]
  | ok value => simp [failedWith]

/-- The decided rows are those that could be decided, each under its day. -/
theorem mem_decideRows {date : NaiveDate} {read : RowRead K} :
    (date, read) ∈ (decideRows platform rows session).1 ↔
      ∃ raw, (date, raw) ∈ rows ∧
        decideRow platform raw session (.timeEntry date) = .ok read := by
  simp only [decideRows, keepRows_eq, List.mem_filterMap, keepRow_eq_some]
  constructor
  · rintro ⟨⟨day, raw⟩, member, rfl, decided⟩
    exact ⟨raw, member, decided⟩
  · rintro ⟨raw, member, decided⟩
    exact ⟨(date, raw), member, rfl, decided⟩

/-- A row is locked exactly when it is a v2 envelope and the session has no key. -/
theorem decideRow_locked_iff {raw : String} {key : StorageKey} :
    failedWith StorageError.isLocked (decideRow platform raw session key) = true ↔
      (∃ body, planRead platform.formats raw = .ok (.sealed body)) ∧ session = none := by
  unfold decideRow
  split <;> next plan => simp [plan, failedWith, StorageError.isLocked]

/-- A row that cannot be read changes nothing of what the others yield. -/
theorem openRows_decideRows (opener : Opener K) :
    (openRows opener (decideRows platform rows session).1).1 =
      rows.filterMap fun row => keepRow row.1 (readAlone platform opener session row) := by
  simp only [openRows, decideRows, keepRows_eq]
  rw [List.filterMap_filterMap]
  apply List.filterMap_congr
  rintro ⟨date, raw⟩ -
  cases decided : decideRow platform raw session (.timeEntry date) <;>
    simp [keepRow, readAlone, decided, bind, Except.bind]

/-- A range read of the page shows each day what a read of that day shows. -/
theorem rows_readRange : (readRange platform rows session).rows =
    rows.filterMap fun row =>
      keepRow row.1 (readRow platform row.2 session (.timeEntry row.1)) := by
  simp only [readRange, openRows_decideRows]
  rfl

theorem decideRows_isSealed_iff : (decideRows platform rows session).2 = true ↔
    (∃ row ∈ rows, ∃ body, planRead platform.formats row.2 = .ok (.sealed body)) ∧
      session = none := by
  simp only [decideRows, keepRows_eq, List.any_eq_true, decideRow_locked_iff]
  constructor
  · rintro ⟨row, member, isSealed, keyless⟩
    exact ⟨⟨row, member, isSealed⟩, keyless⟩
  · rintro ⟨⟨row, member, isSealed⟩, keyless⟩
    exact ⟨row, member, isSealed, keyless⟩

theorem openRows_unopenable_iff :
    (openRows opener (decideRows platform rows session).1).2 = true ↔
      ∃ row ∈ rows, ∃ read, decideRow platform row.2 session (.timeEntry row.1) = .ok read ∧
        ∃ key detail, opener read (.timeEntry row.1) = .error (.crypto key detail) := by
  rw [openRows, keepRows_eq]
  simp only [List.any_eq_true, failedWith_isCrypto_iff]
  constructor
  · rintro ⟨⟨date, read⟩, member, rejected⟩
    obtain ⟨raw, member, decided⟩ := mem_decideRows.mp member
    exact ⟨(date, raw), member, read, decided, rejected⟩
  · rintro ⟨⟨date, raw⟩, member, read, decided, rejected⟩
    exact ⟨(date, read), mem_decideRows.mpr ⟨raw, member, decided⟩, rejected⟩

/-- The two passes of a range read, with any opener: in the order of the rows, what each
reads as by itself; whether some row is a v2 envelope and the session has no key; and
whether the opener rejected some decided row. -/
theorem range_read_agrees (platform : Platform K) (opener : Opener K)
    (session : Option (SessionKey K)) (rows : List (NaiveDate × String)) :
    let (decided, isSealed) := decideRows platform rows session
    let (opened, unopenable) := openRows opener decided
    opened = (rows.filterMap fun row => keepRow row.1 (readAlone platform opener session row)) ∧
    (isSealed = true ↔
      (∃ row ∈ rows, ∃ body, planRead platform.formats row.2 = .ok (.sealed body)) ∧
        session = none) ∧
    (unopenable = true ↔
      ∃ row ∈ rows, ∃ read, decideRow platform row.2 session (.timeEntry row.1) = .ok read ∧
        ∃ key detail, opener read (.timeEntry row.1) = .error (.crypto key detail)) :=
  ⟨openRows_decideRows opener, decideRows_isSealed_iff, openRows_unopenable_iff⟩

end RangeReads

end TimeTracker.Storage.RangeReads
