import TimeTracker.Server.Outcomes

/-!
# One day's row

What the entries table holds for one user and day, and what a save that was
accepted did to it.
-/

namespace TimeTracker.Server.Entries

open TimeTracker.Date
open TimeTracker.Library.Atomic
open TimeTracker.Library.Indexed
open TimeTracker.Server.Schema
open TimeTracker.Server.Schema.Database
open TimeTracker.Server.Store
open TimeTracker.Server.Functions
open TimeTracker.Server.Execution
open TimeTracker.Server.Outcomes

/-- The body stored for one user and day. -/
def bodyOf (db : Database) (userId : Int) (entryDate : String) : Option String :=
  (db.entries.rows.find? fun row =>
    row.userId = userId && row.entryDate = entryDate).map TimeEntry.body

theorem load_eq (db : Database) (userId : Int) (date : NaiveDate) :
    load userId date db = .ok (bodyOf db userId (toIso date), db) :=
  rfl

section Upsert

variable {db next : Database} {row : TimeEntry}

/-- Rewriting conflicting rows selects the rows that were there before. -/
theorem map_body_find?_overwrite (rows : List TimeEntry) (userId : Int)
    (entryDate : String) :
    ((rows.map (overwrite row)).find? fun other =>
      other.userId = userId && other.entryDate = entryDate).map TimeEntry.body =
    (rows.find? fun other =>
      other.userId = userId && other.entryDate = entryDate).map
        fun old => (overwrite row old).body := by
  simp only [List.find?_map, Option.map_map, Function.comp_def, overwrite_userId,
    overwrite_entryDate]

theorem conflict_of_selected {old : TimeEntry} {userId : Int} {entryDate : String}
    (selected : (old.userId = userId && old.entryDate = entryDate : Bool) = true) :
    old.userId = userId ∧ old.entryDate = entryDate := by
  simpa using selected

/-- The row an upsert is for reads back as the body just written. -/
theorem bodyOf_upsertEntry (saved : db.upsertEntry row = .ok next) :
    bodyOf next row.userId row.entryDate = some row.body := by
  unfold upsertEntry at saved
  split at saved
  · next present =>
      cases saved
      obtain ⟨old, old_mem, conflict⟩ := present
      rw [bodyOf, Table.rows_update, map_body_find?_overwrite]
      cases found : db.entries.rows.find? fun other =>
          other.userId = row.userId && other.entryDate = row.entryDate with
      | none =>
          have absent := List.find?_eq_none.mp found old old_mem
          simp [conflict.1, conflict.2] at absent
      | some other =>
          have selected := List.find?_some found
          have same : other.Conflict row := conflict_of_selected selected
          simp [overwrite, same]
  · next absent =>
      split at saved
      · split at saved
        · cases saved
        · next entries inserted =>
            cases saved
            have rows := (Table.insert?_eq_some.mp inserted).2
            have none_before : db.entries.rows.find? (fun other =>
                other.userId = row.userId && other.entryDate = row.entryDate) = none := by
              apply List.find?_eq_none.mpr
              intro old old_mem selected
              apply absent
              exact ⟨old, old_mem, conflict_of_selected selected⟩
            simp [bodyOf, rows, List.find?_append, none_before]
      · cases saved

/-- An upsert leaves every other user's day, and every other day, alone. -/
theorem bodyOf_upsertEntry_of_ne (saved : db.upsertEntry row = .ok next)
    {userId : Int} {entryDate : String}
    (other : ¬ (row.userId = userId ∧ row.entryDate = entryDate)) :
    bodyOf next userId entryDate = bodyOf db userId entryDate := by
  unfold upsertEntry at saved
  split at saved
  · cases saved
    rw [bodyOf, Table.rows_update, map_body_find?_overwrite, bodyOf]
    cases found : db.entries.rows.find? fun old =>
        old.userId = userId && old.entryDate = entryDate with
    | none => rfl
    | some old =>
        have selected := List.find?_some found
        obtain ⟨hasUser, hasDate⟩ := conflict_of_selected selected
        have apart : ¬ old.Conflict row := by
          rintro ⟨sameUser, sameDate⟩
          exact other ⟨sameUser ▸ hasUser, sameDate ▸ hasDate⟩
        simp [overwrite, apart]
  · split at saved
    · split at saved
      · cases saved
      · next entries inserted =>
          cases saved
          have rows := (Table.insert?_eq_some.mp inserted).2
          simp only [bodyOf, rows, List.find?_append]
          simp [other]
    · cases saved

end Upsert

/-- What an accepted `entry_save` for one user did: the day reads as the new
body, every other row reads as before, and the accounts are as they were. -/
structure Saved (userId : Int) (entryDate body : String) (db next : Database) :
    Prop where
  users : next.users = db.users
  stored : bodyOf next userId entryDate = some body
  frame : ∀ other day, ¬ (userId = other ∧ entryDate = day) →
    bodyOf next other day = bodyOf db other day

theorem Saved.of_upsertEntry {db next : Database} {row : TimeEntry}
    (saved : db.upsertEntry row = .ok next) :
    Saved row.userId row.entryDate row.body db next := by
  constructor
  · exact (upsertEntry_eq_ok saved).2.1
  · exact bodyOf_upsertEntry saved
  · intro other day apart
    exact bodyOf_upsertEntry_of_ne saved apart

/-- The transaction of a save commits a refusal, or the row. -/
theorem saveTransaction_cases {userId : Int} {date : NaiveDate} {body : String}
    {now : Timestamp} {db next : Database} {outcome : Except String Unit}
    (ran : saveTransaction userId date body now db = .ok (outcome, next)) :
    (∃ message, outcome = .error message) ∧ next = db ∨
      outcome = .ok () ∧ Saved userId (toIso date) body db next := by
  obtain ⟨encrypted, middle, checked, rest⟩ := sql_bind_eq_ok.mp ran
  obtain rfl := (isEncrypted_eq_ok checked).1
  cases encrypted with
  | false =>
      cases rest
      exact Or.inl ⟨⟨_, rfl⟩, rfl⟩
  | true =>
      obtain ⟨value, written, wrote, finished⟩ := sql_bind_eq_ok.mp rest
      cases finished
      unfold Store.save at wrote
      cases upserted : middle.upsertEntry
          { userId, entryDate := toIso date, body, updatedAt := now } with
      | error failure =>
          rw [upserted] at wrote
          cases wrote
      | ok saved =>
          rw [upserted] at wrote
          cases wrote
          exact Or.inr ⟨rfl, Saved.of_upsertEntry upserted⟩

/-- A save by itself is refused and changes nothing, or is accepted for the
account its session names. -/
theorem ensures_entrySave_saved (ctx : AppCtx) (entryDate body : String)
    (db : Database) (log : Log) :
    Ensures (entrySave ctx entryDate body) db log fun reply next _ =>
      (∃ message, reply = .error message) ∧ next = db ∨
        reply = .ok () ∧ ∃ me, SignedIn ctx db me ∧
          Saved me.id entryDate body db next := by
  apply (ensures_entrySave ctx db entryDate body).mono
  intro reply next log' decision
  cases decision with
  | refused same => exact Or.inl ⟨⟨_, rfl⟩, rfl⟩
  | failed passed aborted executed => exact Or.inl ⟨⟨_, rfl⟩, rfl⟩
  | committed passed ran executed =>
      obtain ⟨signedIn, parsed, -⟩ := passed
      obtain ⟨⟨message, refused⟩, same⟩ | ⟨accepted, saved⟩ := saveTransaction_cases ran
      · exact Or.inl ⟨⟨message, refused⟩, same⟩
      · rw [toIso_of_parseIso parsed] at saved
        exact Or.inr ⟨accepted, _, signedIn, saved⟩

/-! ## One account's rows -/

def entriesOf (db : Database) (userId : Int) : List TimeEntry :=
  db.entries.rows.filter fun row => row.userId = userId

theorem rows_upsertEntry {db next : Database} {row : TimeEntry}
    (saved : db.upsertEntry row = .ok next) :
    next.entries.rows = if ∃ old ∈ db.entries.rows, old.Conflict row then
      db.entries.rows.map (overwrite row) else db.entries.rows ++ [row] := by
  unfold upsertEntry at saved
  split at saved
  · next present =>
      cases saved
      rw [if_pos present]
      rfl
  · next absent =>
      rw [if_neg absent]
      split at saved
      · split at saved
        · cases saved
        · next entries inserted =>
            cases saved
            exact (Table.insert?_eq_some.mp inserted).2
      · cases saved

/-- A save leaves the other accounts' rows alone. -/
theorem entriesOf_upsertEntry_of_ne {db next : Database} {row : TimeEntry}
    (saved : db.upsertEntry row = .ok next) {userId : Int} (other : row.userId ≠ userId) :
    entriesOf next userId = entriesOf db userId := by
  rw [entriesOf, rows_upsertEntry saved, entriesOf]
  split
  · rw [List.filter_map]
    simp only [Function.comp_def, overwrite_userId]
    have apart : ∀ old ∈ db.entries.rows.filter (fun row => row.userId = userId),
        overwrite row old = old := by
      intro old selected
      have owner : old.userId = userId := by simpa using (List.mem_filter.mp selected).2
      rw [overwrite, if_neg fun conflict => other (conflict.1.symm.trans owner)]
    exact (List.map_congr_left apart).trans (List.map_id _)
  · simp [List.filter_append, other]

/-- The rows of a range, by date. -/
def range (rows : List TimeEntry) (first last : NaiveDate) : List TimeEntry :=
  (rows.filter fun row =>
    toIso first ≤ row.entryDate && row.entryDate ≤ toIso last).insertionSort
      fun row other => row.entryDate ≤ other.entryDate

theorem rowsInRange_eq (db : Database) (userId : Int) (first last : NaiveDate) :
    rowsInRange db userId first last = range (entriesOf db userId) first last := by
  rw [rowsInRange, range, entriesOf, List.filter_filter]
  simp only [Bool.and_comm]

/-- A range is cut out by the dates alone. -/
theorem map_range {change : TimeEntry → TimeEntry}
    (dated : ∀ row, (change row).entryDate = row.entryDate) (rows : List TimeEntry)
    (first last : NaiveDate) :
    (range rows first last).map change = range (rows.map change) first last := by
  have sorted : ∀ rows : List TimeEntry,
      (rows.insertionSort fun row other => row.entryDate ≤ other.entryDate).map change =
        (rows.map change).insertionSort fun row other => row.entryDate ≤ other.entryDate := by
    intro rows
    apply List.map_insertionSort
    intro row _ other _
    rw [dated, dated]
  rw [range, range, sorted, List.filter_map]
  simp only [Function.comp_def, dated]

/-- The body of a day is the body of its row. -/
theorem bodyOf_eq_some {db : Database} {userId : Int} {day body : String} :
    bodyOf db userId day = some body ↔
      ∃ row ∈ db.entries, row.userId = userId ∧ row.entryDate = day ∧ row.body = body := by
  rw [bodyOf, Option.map_eq_some_iff]
  constructor
  · rintro ⟨row, found, rfl⟩
    have selected := List.find?_some found
    obtain ⟨owner, dated⟩ := conflict_of_selected selected
    exact ⟨row, List.mem_of_find?_eq_some found, owner, dated, rfl⟩
  · rintro ⟨row, member, rfl, rfl, rfl⟩
    cases found : db.entries.rows.find? fun other =>
        other.userId = row.userId && other.entryDate = row.entryDate with
    | none => simpa using List.find?_eq_none.mp found row member
    | some other =>
        have selected := List.find?_some found
        have same : other.Conflict row := conflict_of_selected selected
        have own := Table.eq_of_conflict TimeEntry.conflict_symm
          (List.mem_of_find?_eq_some found) member same
        exact ⟨other, rfl, congrArg TimeEntry.body own⟩

theorem mem_rowsInRange {db : Database} {userId : Int} {start stop : NaiveDate}
    {row : TimeEntry} :
    row ∈ rowsInRange db userId start stop ↔ row ∈ db.entries ∧ row.userId = userId ∧
      toIso start ≤ row.entryDate ∧ row.entryDate ≤ toIso stop := by
  unfold rowsInRange
  rw [List.mem_insertionSort, List.mem_filter]
  simp [Table.mem_def]

/-- A range is refused, or read as it is. -/
theorem parseRange_cases (first last : String) :
    (∃ message, parseRange first last = throw message) ∨
      ∃ start stop, toIso start = first ∧ toIso stop = last ∧
        parseRange first last = pure (start, stop) := by
  unfold parseRange parseDate
  cases opens : parseIso first with
  | none => exact .inl ⟨_, rfl⟩
  | some start =>
      cases closes : parseIso last with
      | none => exact .inl ⟨_, rfl⟩
      | some stop =>
          by_cases backwards : stop.Before start
          · refine .inl ⟨"Invalid date range", ?_⟩
            show (if stop.Before start then _ else _) = _
            rw [if_pos backwards]
            rfl
          · by_cases wide : numDays start stop > MAX_RANGE_DAYS
            · refine .inl ⟨"Date range is too wide", ?_⟩
              show (if stop.Before start then _ else _) = _
              rw [if_neg backwards]
              show (if numDays start stop > MAX_RANGE_DAYS then _ else _) = _
              rw [if_pos wide]
              rfl
            · refine .inr ⟨start, stop, toIso_of_parseIso opens, toIso_of_parseIso closes, ?_⟩
              show (if stop.Before start then _ else _) = _
              rw [if_neg backwards]
              exact if_neg wide

/-! ## Requests for one day -/

/-- An upsert for a live account is written. -/
theorem upsertEntry_ok {db : Database} {row : TimeEntry} (known : db.HasUser row.userId) :
    ∃ next, db.upsertEntry row = .ok next := by
  unfold upsertEntry
  split
  · exact ⟨_, rfl⟩
  · next free =>
      have apart : ∀ old ∈ db.entries, ¬ old.Conflict row :=
        fun old member conflict => free ⟨old, member, conflict⟩
      obtain ⟨entries, inserted⟩ := Table.insert?_isSome apart
      split
      · split
        · next refused => cases inserted.symm.trans refused
        · exact ⟨_, rfl⟩
      · next unknown => exact absurd known unknown

/-- An upsert for no account is refused. -/
theorem upsertEntry_eq_error {db : Database} {row : TimeEntry}
    (unknown : ¬ db.HasUser row.userId) :
    db.upsertEntry row = .error .foreignKeyViolation := by
  have absent : ¬ ∃ old ∈ db.entries.rows, old.Conflict row := by
    rintro ⟨old, member, same, -⟩
    obtain ⟨user, present, owner⟩ := db.entries_user old member
    exact unknown ⟨user, present, owner.trans same⟩
  have missing : ¬ ∃ user ∈ db.users.rows, user.id = row.userId := unknown
  unfold upsertEntry
  rw [if_neg absent, dif_neg missing]

/-- A save for a live, encrypted account is accepted. -/
theorem saveTransaction_ok {db : Database} {me : User} (member : me ∈ db.users)
    (encrypted : me.encryptedAt ≠ none) (date : NaiveDate) (body : String) (now : Timestamp) :
    ∃ next, saveTransaction me.id date body now db = .ok (.ok (), next) := by
  have known : db.HasUser me.id := ⟨me, member, rfl⟩
  obtain ⟨next, upserted⟩ : ∃ next, db.upsertEntry
      { userId := me.id, entryDate := toIso date, body, updatedAt := now } = .ok next :=
    upsertEntry_ok known
  have marked : isEncrypted me.id db = .ok (true, db) := by
    simp [isEncrypted, user?_eq_some.mpr ⟨member, rfl⟩, Option.isSome_iff_ne_none, encrypted]
  refine ⟨next, sql_bind_eq_ok.mpr ⟨_, _, marked, ?_⟩⟩
  refine sql_bind_eq_ok.mpr ⟨(), next, ?_, rfl⟩
  unfold Store.save
  rw [upserted]
  rfl

section Requests

variable {ctx : AppCtx} {db : Database} {me : User} {log : Log}

/-- A load answers the stored body of the account its session names. -/
theorem execute_entryLoad (signedIn : SignedIn ctx db me) (date : NaiveDate)
    (cookie : Option SetCookie) :
    (execute (entryLoad ctx (toIso date)) cookie ⟨none, db, log⟩).1.1 =
      .ok (bodyOf db me.id (toIso date)) := by
  unfold entryLoad
  rw [execute_bind, signedIn.execute_requireUser]
  dsimp only
  rw [parseDate, parseIso_toIso, execute_bind, execute_orRefuse_some]
  dsimp only
  rw [execute_query (load_eq db me.id date)]

/-- Whatever fails, a load that answers answers the stored body. -/
theorem ensures_entryLoad (signedIn : SignedIn ctx db me) (date : NaiveDate) :
    Ensures (entryLoad ctx (toIso date)) db log fun reply _ _ =>
      ∀ body, reply = .ok body → body = bodyOf db me.id (toIso date) := by
  refine ensures_bind (ensures_requireUser ?_ fun _ _ _ _ => nofun)
  intro found log' signedIn' _
  obtain rfl := signedIn'.unique signedIn
  dsimp only
  rw [parseDate, parseIso_toIso]
  refine ensures_bind (ensures_orRefuse ?_ fun _ _ => nofun)
  rintro day ⟨⟩
  refine ensures_query (fun _ => nofun) (fun _ _ _ => nofun) ?_
  intro value next ran body answered
  rw [load_eq] at ran
  cases ran
  exact (Except.ok.inj answered).symm

/-- A save for an encrypted account is stored when its body fits. -/
theorem execute_entrySave (signedIn : SignedIn ctx db me) (encrypted : me.encryptedAt ≠ none)
    (date : NaiveDate) {body : String} (fits : body.utf8ByteSize ≤ MAX_BODY_BYTES)
    (cookie : Option SetCookie) :
    (execute (entrySave ctx (toIso date) body) cookie ⟨none, db, log⟩).1.1 = .ok () := by
  obtain ⟨next, ran⟩ := saveTransaction_ok signedIn.mem encrypted date body ctx.now
  unfold entrySave
  rw [execute_bind, signedIn.execute_requireUser]
  dsimp only
  rw [parseDate, parseIso_toIso, execute_bind, execute_orRefuse_some]
  dsimp only
  rw [if_neg (not_lt.mpr fits), execute_bind, execute_query ran]
  rfl

/-- A body over the cap is refused before the tables are touched. -/
theorem ensures_entrySave_too_large (date : String) {body : String}
    (tooLarge : MAX_BODY_BYTES < body.utf8ByteSize) :
    Ensures (entrySave ctx date body) db log fun reply next _ =>
      (∃ message, reply = .error message) ∧ next = db := by
  apply (ensures_entrySave ctx db date body).mono
  intro reply next log' decision
  cases decision with
  | refused same => exact ⟨⟨_, rfl⟩, rfl⟩
  | failed passed aborted executed => exact ⟨⟨_, rfl⟩, rfl⟩
  | committed passed ran executed =>
      obtain ⟨-, -, fits⟩ := passed
      exact absurd tooLarge (not_lt.mpr fits)

/-- Whatever fails, the days a range answers are those of the account's rows in it. -/
theorem ensures_entryDatesInRange (first last : NaiveDate) :
    Ensures (entryDatesInRange ctx (toIso first) (toIso last)) db log fun reply _ _ =>
      ∀ days, reply = .ok days → ∃ me, SignedIn ctx db me ∧
        days = ((rowsInRange db me.id first last).filterMap fun row =>
          parseIso row.entryDate).map toIso := by
  refine ensures_bind (ensures_requireUser ?_ fun _ _ _ _ => nofun)
  intro me log' signedIn _
  dsimp only
  obtain ⟨message, refused⟩ | ⟨start, stop, opens, closes, read⟩ :=
    parseRange_cases (toIso first) (toIso last)
  · rw [refused]
    exact ensures_bind (ensures_throw fun _ => nofun)
  · obtain rfl := toIso_injective opens
    obtain rfl := toIso_injective closes
    rw [read]
    refine ensures_bind (ensures_pure ?_)
    refine ensures_bind (ensures_query (fun _ => nofun) (fun _ _ _ => nofun) ?_)
    intro dates next ran
    cases ran
    refine ensures_pure fun days answered => ?_
    exact ⟨me, signedIn, (Except.ok.inj answered).symm⟩

end Requests

end TimeTracker.Server.Entries
