import TimeTracker.Server.Deciding
import TimeTracker.Server.Entries
import TimeTracker.Server.Views

/-!
# What one account sees

The part of the database a signed-in account can learn about is its own row, its
credentials, its days and its wraps.  Two runs that show it the same at the start
and serve it the same requests give it the same responses, whatever the other
accounts do in between.
-/

namespace TimeTracker.Server.Isolation

open TimeTracker.Text
open TimeTracker.Crypto.Wire
open TimeTracker.Date
open TimeTracker.Library
open TimeTracker.Library.Run
open TimeTracker.Library.Atomic
open TimeTracker.Library.Rely
open TimeTracker.Library.Indexed
open TimeTracker.Library.Serving
open TimeTracker.Library.Twin
open TimeTracker.Server.Schema
open TimeTracker.Server.Store
open TimeTracker.Server.Functions
open TimeTracker.Server.Execution
open TimeTracker.Server.Outcomes
open TimeTracker.Server.Entries
open TimeTracker.Server.Interference
open TimeTracker.Server.Deciding
open TimeTracker.Server.Views

/-! ## The account's part of the database -/

/-- A day's row without the time it was written. -/
def undatedEntry (row : TimeEntry) : TimeEntry :=
  { row with updatedAt := 0 }

/-- A wrap without its row id and the time it was written. -/
def undatedWrap (row : EntryKeyWrap) : EntryKeyWrap :=
  { row with id := 0, createdAt := 0 }

def credentialsOf (db : Database) (userId : Int) : List Bytes :=
  (db.passkeys.rows.filter fun row => row.userId = userId).map PasskeyRow.credentialId

/-- What the server can show an account of itself. -/
structure Seen where
  id : Int
  epoch : Int
  encrypted : Bool
  credentials : List Bytes
  entries : List TimeEntry
  wraps : List EntryKeyWrap

def seen (db : Database) (me : User) : Seen where
  id := me.id
  epoch := me.sessionEpoch
  encrypted := me.encryptedAt.isSome
  credentials := credentialsOf db me.id
  entries := (entriesOf db me.id).map undatedEntry
  wraps := (wrapsOf db me.id).map undatedWrap

/-- What the account of an address sees, if there is one. -/
def shown (account : String) (db : Database) : Option Seen :=
  (userByEmail db account).map (seen db)

/-- The account sees the same in both databases, and its id is the one expected. -/
structure Same (account : String) (expected : Option Int) (x y : Database) : Prop where
  shown : shown account x = shown account y
  id : (Isolation.shown account x).map Seen.id = expected

/-- The account of the address has this id in both databases, and sees the same. -/
structure Present (account : String) (userId : Int) (x y : Database) (me me' : User) :
    Prop where
  left : userByEmail x account = some me
  right : userByEmail y account = some me'
  id : me.id = userId
  id' : me'.id = userId
  epoch : me.sessionEpoch = me'.sessionEpoch
  encrypted : me.encryptedAt.isSome = me'.encryptedAt.isSome
  credentials : credentialsOf x userId = credentialsOf y userId
  entries : (entriesOf x userId).map undatedEntry = (entriesOf y userId).map undatedEntry
  wraps : (wrapsOf x userId).map undatedWrap = (wrapsOf y userId).map undatedWrap

section Sharing

variable {account : String} {userId : Int} {x y : Database} {me me' : User}

theorem Same.present (same : Same account (some userId) x y) :
    ∃ me me', Present account userId x y me me' := by
  obtain ⟨shown, id⟩ := same
  obtain ⟨seen, at_x, rfl⟩ := Option.map_eq_some_iff.mp id
  rw [at_x] at shown
  obtain ⟨me, found, rfl⟩ := Option.map_eq_some_iff.mp at_x
  obtain ⟨me', found', same⟩ := Option.map_eq_some_iff.mp shown.symm
  have ids : me'.id = me.id := congrArg Seen.id same
  have credentials : credentialsOf y me'.id = credentialsOf x me.id :=
    congrArg Seen.credentials same
  have entries : (entriesOf y me'.id).map undatedEntry = (entriesOf x me.id).map undatedEntry :=
    congrArg Seen.entries same
  have wraps : (wrapsOf y me'.id).map undatedWrap = (wrapsOf x me.id).map undatedWrap :=
    congrArg Seen.wraps same
  rw [ids] at credentials entries wraps
  exact ⟨me, me', found, found', rfl, ids, (congrArg Seen.epoch same).symm,
    (congrArg Seen.encrypted same).symm, credentials.symm, entries.symm, wraps.symm⟩

theorem Present.same (present : Present account userId x y me me') :
    Same account (some userId) x y := by
  obtain ⟨left, right, rfl, id, epoch, encrypted, credentials, entries, wraps⟩ := present
  constructor
  · rw [shown, shown, left, right]
    simp only [Option.map_some, seen, id, epoch, encrypted, credentials, entries, wraps]
  · rw [shown, left]
    rfl

/-- The account stays shown alike while its entries and wraps change alike. -/
theorem Present.same_of_rows (present : Present account userId x y me me')
    {next next' : Database} (users : next.users = x.users) (users' : next'.users = y.users)
    (passkeys : next.passkeys = x.passkeys) (passkeys' : next'.passkeys = y.passkeys)
    (entries : (entriesOf next userId).map undatedEntry =
      (entriesOf next' userId).map undatedEntry)
    (wraps : (wrapsOf next userId).map undatedWrap = (wrapsOf next' userId).map undatedWrap) :
    Same account (some userId) next next' := by
  refine @Present.same account userId _ _ me me' ?_
  constructor
  · rw [userByEmail, users]
    exact present.left
  · rw [userByEmail, users']
    exact present.right
  · exact present.id
  · exact present.id'
  · exact present.epoch
  · exact present.encrypted
  · rw [credentialsOf, credentialsOf, passkeys, passkeys']
    exact present.credentials
  · exact entries
  · exact wraps

theorem Present.user? (present : Present account userId x y me me') :
    x.user? userId = some me ∧ y.user? userId = some me' :=
  ⟨Database.user?_eq_some.mpr ⟨(mem_of_userByEmail present.left).1, present.id⟩,
    Database.user?_eq_some.mpr ⟨(mem_of_userByEmail present.right).1, present.id'⟩⟩

theorem alike_isEncrypted :
    Alike (Same account (some userId)) Eq (isEncrypted userId) (isEncrypted userId) := by
  intro x y same
  obtain ⟨me, me', present⟩ := same.present
  obtain ⟨here, there⟩ := present.user?
  simp only [isEncrypted, here, there]
  exact .committed present.encrypted same

/-- Rows selected by the account and a condition. -/
theorem find?_entriesOf (db : Database) (selects : TimeEntry → Bool) :
    (db.entries.rows.find? fun row => row.userId = userId && selects row) =
      (entriesOf db userId).find? selects := by
  simp [entriesOf, List.find?_filter]

theorem rel_refl {α : Type} (option : Option α) : Option.Rel Eq option option := by
  cases option with
  | none => exact Option.Rel.none
  | some value => exact Option.Rel.some rfl

theorem alike_load (date : NaiveDate) :
    Alike (Same account (some userId)) (Option.Rel Eq) (load userId date)
      (load userId date) := by
  refine alike_read (fun db => ((entriesOf db userId).find? fun row =>
    row.entryDate = toIso date).map TimeEntry.body) ?_ ?_
  · intro db
    rw [load, find?_entriesOf]
  · intro x y same
    obtain ⟨me, me', present⟩ := same.present
    have read : ∀ rows : List TimeEntry,
        (rows.find? fun row => row.entryDate = toIso date).map TimeEntry.body =
          ((rows.map undatedEntry).find? fun row => row.entryDate = toIso date).map
            TimeEntry.body := by
      intro rows
      rw [List.find?_map, Option.map_map]
      rfl
    rw [read, present.entries, ← read]
    exact rel_refl _

/-- Both accounts' rows in a range are the same but for the times. -/
theorem Present.range (present : Present account userId x y me me') (first last : NaiveDate) :
    (rowsInRange x userId first last).map undatedEntry =
      (rowsInRange y userId first last).map undatedEntry := by
  have dated : ∀ row, (undatedEntry row).entryDate = row.entryDate := fun _ => rfl
  rw [rowsInRange_eq, rowsInRange_eq, map_range dated, map_range dated, present.entries]

theorem alike_datesInRange (first last : NaiveDate) :
    Alike (Same account (some userId)) Eq (datesInRange userId first last)
      (datesInRange userId first last) := by
  refine alike_read _ (fun _ => rfl) ?_
  intro x y same
  obtain ⟨me, me', present⟩ := same.present
  have read : ∀ rows : List TimeEntry, (rows.filterMap fun row => parseIso row.entryDate) =
      (rows.map undatedEntry).filterMap fun row => parseIso row.entryDate := by
    intro rows
    rw [List.filterMap_map]
    rfl
  rw [read, present.range, ← read]

theorem alike_entriesInRange (first last : NaiveDate) :
    Alike (Same account (some userId))
      (List.Forall₂ fun entry entry' => entry.1 = entry'.1 ∧ entry.2 = entry'.2)
      (Store.entriesInRange userId first last) (Store.entriesInRange userId first last) := by
  refine alike_read _ (fun _ => rfl) ?_
  intro x y same
  obtain ⟨me, me', present⟩ := same.present
  have read : ∀ rows : List TimeEntry,
      (rows.filterMap fun row => (parseIso row.entryDate).map fun date => (date, row.body)) =
        (rows.map undatedEntry).filterMap fun row =>
          (parseIso row.entryDate).map fun date => (date, row.body) := by
    intro rows
    rw [List.filterMap_map]
    rfl
  rw [read, present.range, ← read]
  exact List.forall₂_same.mpr fun _ _ => ⟨rfl, rfl⟩

theorem alike_listWraps :
    Alike (Same account (some userId)) Eq (listWraps userId) (listWraps userId) := by
  intro x y same
  obtain ⟨me, me', present⟩ := same.present
  have read : ∀ rows : List EntryKeyWrap,
      rows.mapM intoWrapRow = (rows.map undatedWrap).mapM intoWrapRow := by
    intro rows
    rw [List.mapM_map]
    rfl
  rw [listWraps, listWraps, read, present.wraps, ← read]
  cases (wrapsOf y userId).mapM intoWrapRow with
  | error failure => exact .failed failure
  | ok rows => exact .committed rfl same

theorem alike_hasWrapForCredential (credentialId : Bytes) :
    Alike (Same account (some userId)) Eq (hasWrapForCredential userId credentialId)
      (hasWrapForCredential userId credentialId) := by
  refine alike_read (fun db =>
    (wrapsOf db userId).any fun row => row.credentialId = some credentialId) ?_ ?_
  · intro db
    rw [hasWrapForCredential, wrapsOf, List.any_filter]
  · intro x y same
    obtain ⟨me, me', present⟩ := same.present
    have read : ∀ rows : List EntryKeyWrap,
        (rows.any fun row => row.credentialId = some credentialId) =
          (rows.map undatedWrap).any fun row => row.credentialId = some credentialId := by
      intro rows
      rw [List.any_map]
      rfl
    rw [read, present.wraps, ← read]

theorem alike_currentKeyWrap :
    Alike (Same account (some userId)) Eq (currentKeyWrap userId) (currentKeyWrap userId) := by
  refine alike_read (fun db => ((wrapsOf db userId).find? fun row =>
    row.kind = WrapKind.encryptionKey.asStr).map EntryKeyWrap.wrappedKey) ?_ ?_
  · intro db
    simp [currentKeyWrap, wrapsOf, List.find?_filter]
  · intro x y same
    obtain ⟨me, me', present⟩ := same.present
    have read : ∀ rows : List EntryKeyWrap,
        (rows.find? fun row => row.kind = WrapKind.encryptionKey.asStr).map
            EntryKeyWrap.wrappedKey =
          ((rows.map undatedWrap).find? fun row =>
            row.kind = WrapKind.encryptionKey.asStr).map EntryKeyWrap.wrappedKey := by
      intro rows
      rw [List.find?_map, Option.map_map]
      rfl
    rw [read, present.wraps, ← read]

/-- The credential index finds the account's credentials. -/
theorem findByCredentialId_owner (db : Database) (credentialId : Bytes) :
    (db.passkeys.rows.find? fun row => row.credentialId = credentialId).map
        PasskeyRow.userId = some userId ↔ credentialId ∈ credentialsOf db userId := by
  constructor
  · intro found
    obtain ⟨row, at_credential, owner⟩ := Option.map_eq_some_iff.mp found
    have same : row.credentialId = credentialId := by
      simpa using List.find?_some at_credential
    refine List.mem_map.mpr ⟨row, List.mem_filter.mpr ⟨?_, ?_⟩, same⟩
    · exact List.mem_of_find?_eq_some at_credential
    · simpa using owner
  · intro enrolled
    obtain ⟨row, selected, same⟩ := List.mem_map.mp enrolled
    obtain ⟨member, owner⟩ := List.mem_filter.mp selected
    cases search : db.passkeys.rows.find? fun row => row.credentialId = credentialId with
    | none => exact absurd (List.find?_eq_none.mp search row member) (by simp [same])
    | some other =>
        have present := List.mem_of_find?_eq_some search
        have same' : other.credentialId = credentialId := by
          simpa using List.find?_some search
        have conflict : other = row := Table.eq_of_conflict PasskeyRow.conflict_symm
          present member (.inr (same'.trans same.symm))
        subst conflict
        simpa using owner

theorem alike_findByCredentialId (credentialId : Bytes) :
    Alike (Same account (some userId))
      (fun row row' => row.map PasskeyRow.userId = some userId ↔
        row'.map PasskeyRow.userId = some userId)
      (findByCredentialId credentialId) (findByCredentialId credentialId) := by
  refine alike_read _ (fun _ => rfl) ?_
  intro x y same
  obtain ⟨me, me', present⟩ := same.present
  rw [findByCredentialId_owner, findByCredentialId_owner, present.credentials]

/-! ## The account's own writes -/

/-- Rewriting an account finds it rewritten. -/
theorem userByEmail_updateUser {change : User → User}
    (keeps : ∀ user, (change user).id = user.id ∧ (change user).email = user.email)
    (db : Database) :
    userByEmail (db.updateUser userId change keeps) account =
      (userByEmail db account).map fun user =>
        if user.id = userId then change user else user := by
  have same : ∀ user : User, (if user.id = userId then change user else user).email =
      user.email := by
    intro user
    split
    · exact (keeps user).2
    · rfl
  show (db.users.rows.map _).find? _ = _
  rw [List.find?_map, userByEmail]
  simp only [Function.comp_def, same]

theorem alike_setEncrypted (now now' : Timestamp) :
    Alike (Same account (some userId)) Eq (setEncrypted userId now)
      (setEncrypted userId now') := by
  intro x y same
  obtain ⟨me, me', present⟩ := same.present
  refine .committed rfl (@Present.same account userId _ _ { me with encryptedAt := some now }
    { me' with encryptedAt := some now' } ?_)
  constructor
  · rw [userByEmail_updateUser, present.left, Option.map_some, if_pos present.id]
  · rw [userByEmail_updateUser, present.right, Option.map_some, if_pos present.id']
  · exact present.id
  · exact present.id'
  · exact present.epoch
  · rfl
  · exact present.credentials
  · exact present.entries
  · exact present.wraps

/-- The indexes on wraps have room for one account's row by that account's rows. -/
theorem roomFor_iff (db : Database) (kind : String) (credentialId : Option Bytes) :
    db.RoomFor userId kind credentialId ↔ ∀ old ∈ (wrapsOf db userId).map undatedWrap,
      (credentialId ≠ none → old.credentialId ≠ credentialId) ∧
      (kind = WrapKind.encryptionKey.asStr → old.kind ≠ WrapKind.encryptionKey.asStr) := by
  simp only [List.forall_mem_map, Database.RoomFor]
  constructor
  · intro room old selected
    obtain ⟨member, owner⟩ := mem_wrapsOf.mp selected
    exact room old member owner
  · intro room old member owner
    exact room old (mem_wrapsOf.mpr ⟨member, owner⟩)

theorem Present.hasUser (present : Present account userId x y me me') :
    x.HasUser userId ∧ y.HasUser userId :=
  ⟨⟨me, (mem_of_userByEmail present.left).1, present.id⟩,
    ⟨me', (mem_of_userByEmail present.right).1, present.id'⟩⟩

theorem alike_insertWrap (kind : WrapKind) (credentialId : Option Bytes) (wrapped : Bytes)
    (now now' : Timestamp) :
    Alike (Same account (some userId)) Eq (insertWrap userId kind credentialId wrapped now)
      (insertWrap userId kind credentialId wrapped now') := by
  intro x y same
  obtain ⟨me, me', present⟩ := same.present
  obtain ⟨known, known'⟩ := present.hasUser
  have rooms : x.RoomFor userId kind.asStr credentialId ↔
      y.RoomFor userId kind.asStr credentialId := by
    rw [roomFor_iff, roomFor_iff, present.wraps]
  unfold insertWrap
  by_cases room : x.RoomFor userId kind.asStr credentialId
  · obtain ⟨next, inserted⟩ := (Database.insertWrap_isOk x
      (newWrap userId kind credentialId wrapped now)).mpr ⟨known, room⟩
    obtain ⟨next', inserted'⟩ := (Database.insertWrap_isOk y
      (newWrap userId kind credentialId wrapped now')).mpr ⟨known', rooms.mp room⟩
    rw [inserted, inserted']
    obtain ⟨-, users, entries, passkeys⟩ := Database.insertWrap_eq_ok inserted
    obtain ⟨-, users', entries', passkeys'⟩ := Database.insertWrap_eq_ok inserted'
    refine .committed rfl (present.same_of_rows users users' passkeys passkeys' ?_ ?_)
    · rw [entriesOf, entriesOf, entries, entries']
      exact present.entries
    · rw [wrapsOf, wrapsOf, Database.rows_insertWrap inserted,
        Database.rows_insertWrap inserted', List.filter_append, List.filter_append,
        List.map_append, List.map_append]
      congr 1
      · exact present.wraps
      · simp [newWrap, undatedWrap]
  · rw [Database.insertWrap_eq_error known room,
      Database.insertWrap_eq_error known' fun room' => room (rooms.mpr room')]
    exact .failed DbError.uniqueViolation

/-- What the account's wraps are once some of them are deleted. -/
theorem wrapsOf_deleteWraps (db : Database) (selects : EntryKeyWrap → Bool) :
    wrapsOf (db.deleteWraps selects) userId =
      (wrapsOf db userId).filter fun row => !selects row := by
  show List.filter _ (List.filter _ _) = List.filter _ (List.filter _ _)
  rw [List.filter_filter, List.filter_filter]
  simp only [Bool.and_comm]

theorem alike_deleteKeyWraps :
    Alike (Same account (some userId)) Eq (deleteKeyWraps userId) (deleteKeyWraps userId) := by
  intro x y same
  obtain ⟨me, me', present⟩ := same.present
  refine .committed rfl (present.same_of_rows rfl rfl rfl rfl present.entries ?_)
  have deleted : ∀ db : Database,
      (wrapsOf (db.deleteWraps fun row =>
        row.userId = userId && row.kind = WrapKind.encryptionKey.asStr) userId).map undatedWrap =
      ((wrapsOf db userId).map undatedWrap).filter fun row =>
        !(row.userId = userId && row.kind = WrapKind.encryptionKey.asStr) := by
    intro db
    rw [wrapsOf_deleteWraps, List.filter_map]
    rfl
  rw [deleted, deleted, present.wraps]

/-- A save rewrites the account's row of the day, or appends one. -/
theorem entriesOf_undated {db next : Database} {row : TimeEntry}
    (saved : db.upsertEntry row = .ok next) (own : row.userId = userId) :
    (entriesOf next userId).map undatedEntry =
      if ∃ old ∈ (entriesOf db userId).map undatedEntry, old.entryDate = row.entryDate then
        ((entriesOf db userId).map undatedEntry).map (Database.overwrite (undatedEntry row))
      else (entriesOf db userId).map undatedEntry ++ [undatedEntry row] := by
  have taken : (∃ old ∈ db.entries.rows, old.Conflict row) ↔
      ∃ old ∈ (entriesOf db userId).map undatedEntry, old.entryDate = row.entryDate := by
    constructor
    · rintro ⟨old, member, owner, day⟩
      refine ⟨undatedEntry old, List.mem_map_of_mem (List.mem_filter.mpr ⟨member, ?_⟩), day⟩
      simp [owner, own]
    · rintro ⟨_, undated, day⟩
      obtain ⟨old, selected, rfl⟩ := List.mem_map.mp undated
      obtain ⟨member, owner⟩ := List.mem_filter.mp selected
      have owner : old.userId = userId := by simpa using owner
      exact ⟨old, member, owner.trans own.symm, day⟩
  have undated : ∀ old, undatedEntry (Database.overwrite row old) =
      Database.overwrite (undatedEntry row) (undatedEntry old) := by
    intro old
    by_cases conflict : old.Conflict row
    · have conflict' : (undatedEntry old).Conflict (undatedEntry row) := conflict
      rw [Database.overwrite, Database.overwrite, if_pos conflict, if_pos conflict']
      rfl
    · have conflict' : ¬ (undatedEntry old).Conflict (undatedEntry row) := conflict
      rw [Database.overwrite, Database.overwrite, if_neg conflict, if_neg conflict']
  rw [entriesOf, rows_upsertEntry saved]
  simp only [taken]
  split
  · rw [List.filter_map, List.map_map, List.map_map]
    simp only [Function.comp_def, Database.overwrite_userId, undated]
    rfl
  · rw [List.filter_append, List.map_append]
    simp [own, entriesOf]

theorem alike_save (date : NaiveDate) (body : String) (now now' : Timestamp) :
    Alike (Same account (some userId)) Eq (save userId date body now)
      (save userId date body now') := by
  intro x y same
  obtain ⟨me, me', present⟩ := same.present
  obtain ⟨known, known'⟩ := present.hasUser
  obtain ⟨next, saved⟩ : ∃ next, x.upsertEntry
      { userId, entryDate := toIso date, body, updatedAt := now } = .ok next :=
    upsertEntry_ok known
  obtain ⟨next', saved'⟩ : ∃ next, y.upsertEntry
      { userId, entryDate := toIso date, body, updatedAt := now' } = .ok next :=
    upsertEntry_ok known'
  unfold save
  rw [saved, saved']
  obtain ⟨-, users, passkeys, wraps⟩ := Database.upsertEntry_eq_ok saved
  obtain ⟨-, users', passkeys', wraps'⟩ := Database.upsertEntry_eq_ok saved'
  refine .committed rfl (present.same_of_rows users users' passkeys passkeys' ?_ ?_)
  · rw [entriesOf_undated saved rfl, entriesOf_undated saved' rfl, present.entries]
    rfl
  · rw [wrapsOf, wrapsOf, wraps, wraps']
    exact present.wraps

end Sharing

/-- The point of view of the account of an address. -/
def viewOf (account : String) (expected : Option Int) : Viewpoint where
  same := Same account expected
  owns userId := expected = some userId
  asks claims := normalizeEmail claims.email = some account
  clock _ _ := True
  stored := Eq
  submitted := Eq

theorem sound_viewOf (account : String) (expected : Option Int) :
    Sound (viewOf account expected) where
  findByEmail := by
    intro claims named x y same
    have normalized : normalizeEmail claims.email = some account := named
    simp only [findByEmail, normalized]
    refine .committed ?_ same
    cases expected with
    | none =>
        have absent : ∀ db, shown account db = none → userByEmail db account = none :=
          fun db nothing => Option.map_eq_none_iff.mp nothing
        have nothing := Option.map_eq_none_iff.mp same.id
        rw [absent x nothing, absent y (same.shown ▸ nothing)]
        exact Option.Rel.none
    | some userId =>
        obtain ⟨me, me', present⟩ := same.present
        rw [present.left, present.right]
        obtain ⟨-, email⟩ := mem_of_userByEmail present.left
        obtain ⟨-, email'⟩ := mem_of_userByEmail present.right
        exact Option.Rel.some ⟨congrArg some present.id.symm, present.id.trans present.id'.symm,
          email.trans email'.symm, present.epoch⟩
  isEncrypted := by
    rintro userId ⟨⟩
    exact alike_isEncrypted
  setEncrypted := by
    rintro userId now now' ⟨⟩ -
    exact alike_setEncrypted now now'
  insertWrap := by
    rintro userId kind credentialId wrapped now now' ⟨⟩ -
    exact alike_insertWrap kind credentialId wrapped now now'
  listWraps := by
    rintro userId ⟨⟩
    exact alike_listWraps
  hasWrapForCredential := by
    rintro userId credentialId ⟨⟩
    exact alike_hasWrapForCredential credentialId
  currentKeyWrap := by
    rintro userId ⟨⟩
    exact alike_currentKeyWrap
  deleteKeyWraps := by
    rintro userId ⟨⟩
    exact alike_deleteKeyWraps
  findByCredentialId := by
    rintro userId credentialId ⟨⟩
    exact alike_findByCredentialId credentialId
  load := by
    rintro userId date ⟨⟩
    exact alike_load date
  save := by
    rintro userId date body _ now now' ⟨⟩ ⟨⟩ -
    exact alike_save date body now now'
  datesInRange := by
    rintro userId first last ⟨⟩
    exact alike_datesInRange first last
  entriesInRange := by
    rintro userId first last ⟨⟩
    exact alike_entriesInRange first last
  bytes := by
    rintro body _ ⟨⟩
    rfl

/-! ## What the other accounts do -/

/-- The accounts' ids and addresses. -/
def roster (db : Database) : List (Int × String) :=
  db.users.rows.map fun user => (user.id, user.email)

def SameRoster (before after : Database) : Prop :=
  roster before = roster after

/-- The account of the address is another one. -/
def Apart (account : String) (userId : Int) (db : Database) : Prop :=
  (userId, account) ∉ roster db

/-- A change of one account's rows shows no other account anything. -/
structure Spares (account : String) (userId : Int) (before after : Database) : Prop where
  roster : SameRoster before after
  shown : Apart account userId before → shown account before = shown account after

/-- Every commit of a statement changes one account's rows only. -/
def Touches {α : Type} (account : String) (userId : Int) (statement : Sql α) : Prop :=
  ∀ db value next, statement db = .ok (value, next) → Spares account userId db next

section Others

variable {α β : Type} {account : String} {userId : Int} {db next : Database}

theorem Spares.refl (db : Database) : Spares account userId db db :=
  ⟨rfl, fun _ => rfl⟩

theorem Spares.trans {before middle after : Database}
    (first : Spares account userId before middle) (second : Spares account userId middle after) :
    Spares account userId before after := by
  refine ⟨first.roster.trans second.roster, fun apart => ?_⟩
  have apart' : Apart account userId middle := by
    rw [Apart, ← first.roster]
    exact apart
  exact (first.shown apart).trans (second.shown apart')

theorem touches_bind {first : Sql β} {rest : β → Sql α} (touches : Touches account userId first)
    (later : ∀ value, Touches account userId (rest value)) :
    Touches account userId (first >>= rest) := by
  intro db value next ran
  obtain ⟨answer, middle, ran, ran'⟩ := sql_bind_eq_ok.mp ran
  exact (touches db answer middle ran).trans (later answer middle value next ran')

theorem touches_pure (value : α) : Touches account userId (pure value : Sql α) := by
  rintro db _ _ ⟨⟩
  exact Spares.refl db

theorem touches_read {statement : Sql α}
    (reads : ∀ db value next, statement db = .ok (value, next) → next = db) :
    Touches account userId statement := by
  intro db value next ran
  obtain rfl := reads db value next ran
  exact Spares.refl next

/-- The account of an address apart has another id. -/
theorem Apart.id_ne (apart : Apart account userId db) {me : User}
    (found : userByEmail db account = some me) : me.id ≠ userId := by
  rintro rfl
  obtain ⟨member, rfl⟩ := mem_of_userByEmail found
  exact apart (List.mem_map_of_mem (f := fun user : User => (user.id, user.email)) member)

/-- Nothing that is shown to an account apart has changed. -/
theorem Spares.of_rows (roster : SameRoster db next)
    (user : Apart account userId db → userByEmail next account = userByEmail db account)
    (passkeys : next.passkeys = db.passkeys)
    (entries : ∀ other, userId ≠ other → entriesOf next other = entriesOf db other)
    (wraps : ∀ other, userId ≠ other → wrapsOf next other = wrapsOf db other) :
    Spares account userId db next := by
  refine ⟨roster, fun apart => ?_⟩
  rw [Isolation.shown, Isolation.shown, user apart]
  cases found : userByEmail db account with
  | none => rfl
  | some me =>
      have other : userId ≠ me.id := (apart.id_ne found).symm
      simp only [Option.map_some, seen, credentialsOf, passkeys, entries me.id other,
        wraps me.id other]

theorem touches_setEncrypted (now : Timestamp) :
    Touches account userId (setEncrypted userId now) := by
  rintro db _ _ ⟨⟩
  refine Spares.of_rows ?_ ?_ rfl (fun _ _ => rfl) fun _ _ => rfl
  · show db.users.rows.map _ = (db.users.rows.map _).map _
    rw [List.map_map]
    refine List.map_congr_left fun user _ => ?_
    simp only [Function.comp_apply]
    split <;> rfl
  · intro apart
    rw [userByEmail_updateUser]
    cases found : userByEmail db account with
    | none => rfl
    | some me => rw [Option.map_some, if_neg (apart.id_ne found)]

theorem touches_insertWrap (kind : WrapKind) (credentialId : Option Bytes) (wrapped : Bytes)
    (now : Timestamp) :
    Touches account userId (insertWrap userId kind credentialId wrapped now) := by
  intro db value next ran
  have inserted := insertWrap_ran ran
  obtain ⟨-, users, entries, passkeys⟩ := Database.insertWrap_eq_ok inserted
  refine Spares.of_rows ?_ (fun _ => ?_) passkeys (fun _ _ => ?_) fun other apart => ?_
  · rw [SameRoster, roster, roster, users]
  · rw [userByEmail, users, userByEmail]
  · rw [entriesOf, entries, entriesOf]
  · rw [wrapsOf, Database.rows_insertWrap inserted, List.filter_append, wrapsOf]
    simp [newWrap, apart]

theorem touches_deleteKeyWraps : Touches account userId (deleteKeyWraps userId) := by
  rintro db _ _ ⟨⟩
  refine Spares.of_rows rfl (fun _ => rfl) rfl (fun _ _ => rfl) fun other apart => ?_
  rw [wrapsOf_deleteWraps]
  refine List.filter_eq_self.mpr fun row selected => ?_
  have owner := (mem_wrapsOf.mp selected).2
  simp [owner, Ne.symm apart]

theorem touches_save (date : NaiveDate) (body : String) (now : Timestamp) :
    Touches account userId (save userId date body now) := by
  intro db value next ran
  unfold save at ran
  cases upserted : db.upsertEntry { userId, entryDate := toIso date, body, updatedAt := now } with
  | error failure =>
      rw [upserted] at ran
      cases ran
  | ok saved =>
      rw [upserted] at ran
      cases ran
      obtain ⟨-, users, passkeys, wraps⟩ := Database.upsertEntry_eq_ok upserted
      refine Spares.of_rows ?_ (fun _ => ?_) passkeys (fun other apart => ?_) fun _ _ => ?_
      · rw [SameRoster, roster, roster, users]
      · rw [userByEmail, users, userByEmail]
      · exact entriesOf_upsertEntry_of_ne upserted apart
      · rw [wrapsOf, wraps, wrapsOf]

theorem touches_isEncrypted (other : Int) : Touches account userId (isEncrypted other) :=
  touches_read fun _ _ _ ran => (isEncrypted_eq_ok ran).1

theorem touches_enableTransaction (passkey : Option PasskeyWrapDto) (encryptionKeyWrap : Bytes)
    (now : Timestamp) :
    Touches account userId (enableTransaction userId passkey encryptionKeyWrap now) := by
  refine touches_bind (touches_isEncrypted userId) fun encrypted => ?_
  cases encrypted with
  | true => exact touches_pure _
  | false =>
      refine touches_bind (touches_setEncrypted now) fun _ => ?_
      cases passkey with
      | none => exact touches_bind (touches_insertWrap _ _ _ _) fun _ => touches_pure _
      | some dto =>
          refine touches_bind (touches_insertWrap _ _ _ _) fun _ => ?_
          exact touches_bind (touches_insertWrap _ _ _ _) fun _ => touches_pure _

theorem touches_replaceEncryptionKeyWrap (wrappedKey : Bytes) (now : Timestamp) :
    Touches account userId (replaceEncryptionKeyWrap userId wrappedKey now) := by
  refine touches_bind (touches_read ?_) fun current => ?_
  · rintro db _ _ ⟨⟩
    rfl
  · by_cases same : current = some wrappedKey
    · simp only [same, if_true]
      exact touches_pure _
    · simp only [same, if_false]
      exact touches_bind touches_deleteKeyWraps fun _ => touches_insertWrap _ _ _ _

theorem touches_saveTransaction (date : NaiveDate) (body : String) (now : Timestamp) :
    Touches account userId (saveTransaction userId date body now) := by
  refine touches_bind (touches_isEncrypted userId) fun encrypted => ?_
  cases encrypted with
  | false => exact touches_pure _
  | true => exact touches_bind (touches_save date body now) fun _ => touches_pure _

end Others

/-! ## Every request keeps to its own account -/

/-- The session of the request is not of this account. -/
def Foreign (account : String) (ctx : AppCtx) : Prop :=
  ∀ claims, ctx.claims = some claims → normalizeEmail claims.email ≠ some account

/-- No account comes or goes, and a request of another account shows this one nothing. -/
def Minding (account : String) (ctx : AppCtx) (_ : Site) (before after : Database) : Prop :=
  SameRoster before after ∧
    (Foreign account ctx → shown account before = shown account after)

section Requests

variable {account : String} {ctx : AppCtx} {db : Database}

theorem minding_refl (site : Site) (db : Database) : Minding account ctx site db db :=
  ⟨rfl, fun _ => rfl⟩

theorem idle_minding (db : Database) : Idle SameRoster (Minding account ctx) db :=
  fun later site _ _ => minding_refl site later

/-- A statement on the account the session names. -/
theorem minding_effect {α : Type} {statement : Sql α} {later : Database} {me : User}
    {site : Site} (signedIn : SignedIn ctx db me) (grown : SameRoster db later)
    (touches : Touches account me.id statement) :
    Minding account ctx site later (effect statement later) := by
  cases ran : statement later with
  | error failure =>
      rw [effect_of_error ran]
      exact minding_refl site later
  | ok pair =>
      rw [effect_of_ok ran]
      obtain ⟨kept, hidden⟩ := touches later pair.1 pair.2 ran
      refine ⟨kept, fun foreign => hidden ?_⟩
      intro listed
      rw [← grown] at listed
      obtain ⟨user, member, same⟩ := List.mem_map.mp listed
      obtain ⟨claims, email, holds, named, found, -⟩ := signedIn
      obtain ⟨present, rfl⟩ := mem_of_userByEmail found
      have own : user = me := Table.eq_of_conflict User.conflict_symm member present
        (.inl (congrArg Prod.fst same))
      subst own
      exact foreign claims holds (named.trans (congrArg some (congrArg Prod.snd same)))

/-- Statements on the account decide nothing about the others. -/
theorem decides_minding {β : Type} {site : User → Site} {statement : User → Sql β}
    (touches : ∀ me : User, Touches account me.id (statement me)) :
    Decides SameRoster (Minding account ctx) ctx db site statement fun _ _ => True := by
  intro before later me _ signedIn grown
  have roster : SameRoster before later := rely_of_since rfl Eq.trans grown
  exact ⟨minding_effect signedIn roster (touches me), fun _ _ _ => trivial⟩

theorem serves_endpoint (endpoint : Endpoint) :
    Serves SameRoster (Minding account ctx) (fun _ _ => True) (endpoint.handler ctx) none db := by
  have idle : Idle SameRoster (Minding account ctx) db := idle_minding db
  cases endpoint with
  | entryLoad date =>
      exact serves_then (serves_entryLoad idle (fun _ _ _ => trivial) fun _ _ _ => trivial)
  | entrySave date body =>
      exact serves_then (serves_entrySave idle (fun _ _ _ => trivial) fun day =>
        decides_minding fun me => touches_saveTransaction _ _ _)
  | entryDatesInRange first last =>
      exact serves_then (serves_entryDatesInRange idle (fun _ _ _ => trivial)
        fun _ _ _ => trivial)
  | entriesInRange first last =>
      exact serves_then (serves_entriesInRange idle (fun _ _ _ => trivial)
        fun _ _ _ => trivial)
  | encryptionStatus =>
      exact serves_then (serves_encryptionStatus idle (fun _ _ _ => trivial)
        fun _ _ _ _ _ _ _ _ => trivial)
  | encryptionWraps =>
      exact serves_then (serves_encryptionWraps idle (fun _ _ _ => trivial)
        fun _ _ _ _ _ _ _ _ => trivial)
  | encryptionEnable passkey encryptionKeyWrap =>
      exact serves_then (serves_encryptionEnable idle (fun _ _ _ => trivial)
        (decides_minding fun me => touches_enableTransaction _ _ _))
  | encryptionAddPasskeyWrap credentialId wrappedKey =>
      exact serves_then (serves_encryptionAddPasskeyWrap idle (fun _ _ _ => trivial)
        (decides_minding fun me => touches_insertWrap _ _ _ _))
  | encryptionReplaceKeyWrap wrappedKey =>
      exact serves_then (serves_encryptionReplaceKeyWrap idle (fun _ _ _ => trivial)
        (decides_minding fun me => touches_replaceEncryptionKeyWrap _ _))

end Requests

/-! ## Two runs -/

/-- A request to one of the nine endpoints. -/
structure Request where
  ctx : AppCtx
  endpoint : Endpoint

def serve (request : Request) : Program Database Site DbError (Reply Response) :=
  (request.endpoint.handler request.ctx).run.run none

abbrev Endpoints := Service Database Site DbError Nat Request (Reply Response)

abbrev Event := Serving.Event Nat Request DbError

/-- The calls that are the account's present its sessions, and the others do not. -/
def Asks (account : String) (mine : Nat → Bool) (id : Nat) (request : Request) : Prop :=
  if mine id = true then
    ∃ claims, request.ctx.claims = some claims ∧ normalizeEmail claims.email = some account
  else Foreign account request.ctx

/-- The same request, at any time. -/
structure SameRequest (request request' : Request) : Prop where
  claims : request.ctx.claims = request'.ctx.claims
  endpoint : request.endpoint = request'.endpoint

section Runs

variable {account : String} {mine : Nat → Bool} {expected : Option Int}

/-- Equal responses, once no body is hidden from the account. -/
theorem sameResponse_eq {response response' : Response}
    (same : SameResponse (viewOf account expected) response response') :
    response = response' := by
  cases same with
  | body stored =>
      cases stored with
      | none => rfl
      | some same => exact congrArg (fun body => Response.body (some body)) same
  | entries stored =>
      refine congrArg Response.entries (List.forall₂_eq_eq_eq ▸ stored.imp ?_)
      exact fun entry entry' related => Prod.ext related.1 related.2
  | dates dates => rfl
  | status status => rfl
  | wraps wraps => rfl
  | done => rfl

/-- The nine endpoints serve the account alike. -/
theorem setting (account : String) (mine : Nat → Bool) (expected : Option Int) :
    Setting serve mine (Asks account mine) SameRoster
      (fun before after => shown account before = shown account after)
      (Same account expected) SameRequest Eq where
  rely_refl _ := rfl
  rely_trans := Eq.trans
  keeps_refl _ := rfl
  keeps_left same kept := ⟨kept.symm.trans same.shown, kept ▸ same.id⟩
  keeps_right same kept := ⟨same.shown.trans kept, same.id⟩
  serves := by
    intro id request store asks
    have serves : Serves SameRoster (Minding account request.ctx) (fun _ _ => True)
        (request.endpoint.handler request.ctx) none store := serves_endpoint request.endpoint
    refine Obeys.guarantees ?_ serves
    rintro site before after ⟨kept, hidden⟩
    refine ⟨kept, fun other => hidden ?_⟩
    rwa [Asks, if_neg (by simp [other])] at asks
  twins := by
    rintro id ⟨ctx, endpoint⟩ ⟨ctx', _⟩ own asks - ⟨claims, ⟨⟩⟩
    rw [Asks, if_pos own] at asks
    obtain ⟨asserted, holds, named⟩ := asks
    have context : SameContext (viewOf account expected) ctx ctx' := by
      refine ⟨claims, ?_, trivial⟩
      rintro other holds'
      cases holds.symm.trans holds'
      exact named
    have call : SameCall (viewOf account expected) endpoint endpoint := by
      cases endpoint with
      | entrySave date body => exact .entrySave date rfl
      | _ => exact .refl _ nofun
    refine (agree_endpoint (sound_viewOf account expected) context call none).mono ?_
    intro reply reply' related
    cases related with
    | refused message cookie => rfl
    | answered cookie same => rw [sameResponse_eq same]

/-- Two runs that show an account the same at the start and serve it the same requests,
whatever the other accounts ask for in between, answer it the same. -/
theorem account_isolation (account : String) (mine : Nat → Bool) {db db' : Database}
    (same : shown account db = shown account db') {events events' : List Event}
    (asks : Fit (Asks account mine) events) (asks' : Fit (Asks account mine) events')
    (own : List.Forall₂ (SameEvent SameRequest) (eventsOf mine events) (eventsOf mine events'))
    {last last' : Endpoints} (ran : runFrom (step serve) (.idle db) events = some last)
    (ran' : runFrom (step serve) (.idle db') events' = some last') :
    ∀ id, mine id = true →
      (last.answered? id).map Prod.snd = (last'.answered? id).map Prod.snd := by
  have start : Pair mine SameRoster
      (fun before after => shown account before = shown account after)
      (Same account ((shown account db).map Seen.id)) SameRequest Eq
      (.idle db : Endpoints) (.idle db') :=
    ⟨⟨same, rfl⟩, fun _ _ => Option.Rel.none, nofun, nofun⟩
  intro id mineId
  have answered := (start.run (setting account mine _) asks asks' own ran ran').answered mineId
  cases here : last.answered? id with
  | none =>
      rw [here] at answered
      cases there : last'.answered? id with
      | none => rfl
      | some pair =>
          rw [there] at answered
          cases answered
  | some pair =>
      rw [here] at answered
      cases there : last'.answered? id with
      | none =>
          rw [there] at answered
          cases answered
      | some pair' =>
          rw [there] at answered
          cases answered with
          | some related => exact congrArg some related.2

end Runs

/-! ## Two accounts on one day -/

/-- Alice and Bob have signed up. -/
def aliceAndBob : Database :=
  effect (findOrCreate "bob@example.com" 0)
    (effect (findOrCreate "alice@example.com" 0) .empty)

def requestOf (email : String) (endpoint : Endpoint) : Request where
  ctx := { claims := some { email, epoch := 0 }, passkeyState := none, now := 5 }
  endpoint := endpoint

def wrapped (byte : UInt8) : Bytes :=
  List.replicate WRAPPED_KEY_LEN byte

/-- Alice turns encryption on, saves a day and reads it back. -/
def aliceAlone : List Event :=
  [.start 0 (requestOf "alice@example.com" (.encryptionEnable none (wrapped 1))),
    .execute 0, .execute 0,
    .start 1 (requestOf "alice@example.com" (.entrySave "2026-07-30" "a")), .execute 1,
    .execute 1,
    .start 2 (requestOf "Alice@Example.com" (.entryLoad "2026-07-30")), .execute 2,
    .execute 2]

/-- Meanwhile Bob does the same, with another body for the same day. -/
def aliceWithBob : List Event :=
  [.start 0 (requestOf "alice@example.com" (.encryptionEnable none (wrapped 1))),
    .execute 0,
    .start 10 (requestOf "bob@example.com" (.encryptionEnable none (wrapped 2))),
    .execute 10, .execute 10, .execute 0,
    .start 1 (requestOf "alice@example.com" (.entrySave "2026-07-30" "a")), .execute 1,
    .execute 1,
    .start 11 (requestOf "bob@example.com" (.entrySave "2026-07-30" "b")), .execute 11,
    .execute 11,
    .start 2 (requestOf "Alice@Example.com" (.entryLoad "2026-07-30")), .execute 2,
    .execute 2]

/-- Alice's calls are the ones below ten, in both runs. -/
theorem account_isolation_bob :
    ∃ last last', runFrom (step serve) (.idle aliceAndBob) aliceWithBob = some last ∧
      runFrom (step serve) (.idle aliceAndBob) aliceAlone = some last' ∧
      (last'.answered? 2).map Prod.snd = some (.ok (.body (some "a")), none) ∧
      (last.answered? 2).map Prod.snd = (last'.answered? 2).map Prod.snd := by
  have alice : normalizeEmail "alice@example.com" = some "alice@example.com" := by
    decide +kernel
  have alice' : normalizeEmail "Alice@Example.com" = some "alice@example.com" := by
    decide +kernel
  have bob : normalizeEmail "bob@example.com" ≠ some "alice@example.com" := by
    decide +kernel
  have asks : Fit (Asks "alice@example.com" fun id => id < 10) aliceWithBob := by
    intro id request member
    simp only [aliceWithBob, List.mem_cons, Event.start.injEq, List.not_mem_nil, or_false,
      reduceCtorEq, false_or] at member
    obtain ⟨rfl, rfl⟩ | ⟨rfl, rfl⟩ | ⟨rfl, rfl⟩ | ⟨rfl, rfl⟩ | ⟨rfl, rfl⟩ := member
    · exact ⟨_, rfl, alice⟩
    · rintro claims ⟨⟩ named
      exact bob named
    · exact ⟨_, rfl, alice⟩
    · rintro claims ⟨⟩ named
      exact bob named
    · exact ⟨_, rfl, alice'⟩
  have asks' : Fit (Asks "alice@example.com" fun id => id < 10) aliceAlone := by
    intro id request member
    simp only [aliceAlone, List.mem_cons, Event.start.injEq, List.not_mem_nil, or_false,
      reduceCtorEq, false_or] at member
    obtain ⟨rfl, rfl⟩ | ⟨rfl, rfl⟩ | ⟨rfl, rfl⟩ := member
    · exact ⟨_, rfl, alice⟩
    · exact ⟨_, rfl, alice⟩
    · exact ⟨_, rfl, alice'⟩
  have own : List.Forall₂ (SameEvent SameRequest)
      (eventsOf (fun id => id < 10) aliceWithBob) (eventsOf (fun id => id < 10) aliceAlone) := by
    have equal : eventsOf (fun id => id < 10) aliceWithBob =
        eventsOf (fun id => id < 10) aliceAlone := rfl
    rw [equal]
    exact List.forall₂_same.mpr fun event _ => SameEvent.refl (fun _ => ⟨rfl, rfl⟩) event
  refine ⟨_, _, rfl, rfl, rfl, ?_⟩
  exact account_isolation "alice@example.com" (fun id => id < 10)
    (Eq.refl (shown "alice@example.com" aliceAndBob)) asks asks' own rfl rfl 2 rfl

end TimeTracker.Server.Isolation
