import TimeTracker.Server.Deciding
import TimeTracker.Server.Entries
import TimeTracker.Server.Revocation
import TimeTracker.Server.Views

/-!
# Bodies are opaque

The server stores a body and answers it, and looks at nothing of it but its
length.  Two runs whose saves carry bodies of equal length decide the same and
leave the same database but for the bodies, and each answers the bodies last
accepted in it.
-/

namespace TimeTracker.Server.Opaque

open TimeTracker.Text
open TimeTracker.Crypto.Wire
open TimeTracker.Date
open TimeTracker.Library
open TimeTracker.Library.Run
open TimeTracker.Library.Atomic
open TimeTracker.Library.Rely
open TimeTracker.Library.Indexed
open TimeTracker.Library.Serving
open TimeTracker.Library.Twin
open TimeTracker.Server.Schema
open TimeTracker.Server.Store
open TimeTracker.Server.Ceremony
open TimeTracker.Server.Functions
open TimeTracker.Server.Execution
open TimeTracker.Server.Outcomes
open TimeTracker.Server.Entries
open TimeTracker.Server.Interference
open TimeTracker.Server.Deciding
open TimeTracker.Server.Revocation (Free userByEmail_of_mem tracks_enableTransaction
  tracks_bumpEpoch findOrCreate_user users_replaceEncryptionKeyWrap users_deleteTransaction
  users_saveTransaction)
open TimeTracker.Server.Views

/-! ## Everything but the bodies -/

/-- A day's row without its body. -/
def blank (row : TimeEntry) : TimeEntry :=
  { row with body := "" }

/-- Two databases that are the same but for the bodies. -/
structure SameButBodies (x y : Database) : Prop where
  users : x.users = y.users
  passkeys : x.passkeys = y.passkeys
  wraps : x.wraps = y.wraps
  entries : x.entries.rows.map blank = y.entries.rows.map blank

section Statements

variable {x y : Database}

theorem SameButBodies.refl (db : Database) : SameButBodies db db :=
  ⟨rfl, rfl, rfl, rfl⟩

theorem SameButBodies.user? (same : SameButBodies x y) (userId : Int) :
    x.user? userId = y.user? userId := by
  rw [Database.user?, Database.user?, same.users]

theorem SameButBodies.userByEmail (same : SameButBodies x y) (email : String) :
    userByEmail x email = userByEmail y email := by
  rw [Store.userByEmail, Store.userByEmail, same.users]

theorem alike_findByEmail (email : String) :
    Alike SameButBodies Eq (findByEmail email) (findByEmail email) := by
  intro x y same
  unfold findByEmail
  cases normalizeEmail email with
  | none => exact .committed rfl same
  | some normalized => exact .committed (same.userByEmail normalized) same

theorem alike_isEncrypted (userId : Int) :
    Alike SameButBodies Eq (isEncrypted userId) (isEncrypted userId) := by
  intro x y same
  simp only [isEncrypted, same.user? userId]
  cases y.user? userId with
  | none => exact .failed DbError.notFound
  | some user => exact .committed rfl same

theorem alike_listWraps (userId : Int) :
    Alike SameButBodies Eq (listWraps userId) (listWraps userId) := by
  intro x y same
  have wraps : wrapsOf x userId = wrapsOf y userId := by rw [wrapsOf, wrapsOf, same.wraps]
  rw [listWraps, listWraps, wraps]
  cases (wrapsOf y userId).mapM intoWrapRow with
  | error failure => exact .failed failure
  | ok rows => exact .committed rfl same

theorem alike_hasWrapForCredential (userId : Int) (credentialId : Bytes) :
    Alike SameButBodies Eq (hasWrapForCredential userId credentialId)
      (hasWrapForCredential userId credentialId) := by
  refine alike_read _ (fun _ => rfl) fun x y same => ?_
  rw [same.wraps]

theorem alike_currentKeyWrap (userId : Int) :
    Alike SameButBodies Eq (currentKeyWrap userId) (currentKeyWrap userId) := by
  refine alike_read _ (fun _ => rfl) fun x y same => ?_
  rw [same.wraps]

theorem alike_findByCredentialId (credentialId : Bytes) :
    Alike SameButBodies Eq (findByCredentialId credentialId)
      (findByCredentialId credentialId) := by
  refine alike_read _ (fun _ => rfl) fun x y same => ?_
  rw [same.passkeys]

theorem alike_listByUser (userId : Int) :
    Alike SameButBodies Eq (listByUser userId) (listByUser userId) := by
  refine alike_read _ (fun _ => rfl) fun x y same => ?_
  rw [same.passkeys]

/-- Rewriting accounts reads no bodies. -/
theorem SameButBodies.updateUser (same : SameButBodies x y) (userId : Int)
    (change : User → User)
    (keeps : ∀ user, (change user).id = user.id ∧ (change user).email = user.email) :
    SameButBodies (x.updateUser userId change keeps) (y.updateUser userId change keeps) := by
  refine ⟨Table.ext_rows ?_, same.passkeys, same.wraps, same.entries⟩
  show x.users.rows.map _ = y.users.rows.map _
  rw [same.users]

theorem alike_setEncrypted (userId : Int) (now : Timestamp) :
    Alike SameButBodies Eq (setEncrypted userId now) (setEncrypted userId now) :=
  fun _ _ same => .committed rfl (same.updateUser userId _ _)

theorem alike_bumpEpoch (userId : Int) :
    Alike SameButBodies Eq (bumpEpoch userId) (bumpEpoch userId) :=
  fun _ _ same => .committed rfl (same.updateUser userId _ _)

/-- What an insert, an update or a delete makes of two databases: it fails in the same
way, or leaves them the same but for the bodies. -/
def Keeps (change : Database → Except DbError Database) : Prop :=
  ∀ x y, SameButBodies x y →
    (∃ failure, change x = .error failure ∧ change y = .error failure) ∨
      ∃ next next', change x = .ok next ∧ change y = .ok next' ∧ SameButBodies next next'

theorem keeps_insertWrap (row : EntryKeyWrap) : Keeps fun db => db.insertWrap row := by
  rintro ⟨users, entries, passkeys, wraps, _, _, _⟩ ⟨_, entries', _, _, _, _, _⟩
    ⟨⟨⟩, ⟨⟩, ⟨⟩, same⟩
  unfold Database.insertWrap
  dsimp only
  split
  · split
    · exact .inl ⟨_, rfl, rfl⟩
    · exact .inr ⟨_, _, rfl, rfl, rfl, rfl, rfl, same⟩
  · exact .inl ⟨_, rfl, rfl⟩

theorem keeps_insertUser (email : String) (now : Timestamp) :
    Keeps fun db => db.insertUser email now := by
  rintro ⟨users, entries, passkeys, wraps, _, _, _⟩ ⟨_, entries', _, _, _, _, _⟩
    ⟨⟨⟩, ⟨⟩, ⟨⟩, same⟩
  unfold Database.insertUser
  dsimp only
  split
  · exact .inl ⟨_, rfl, rfl⟩
  · exact .inr ⟨_, _, rfl, rfl, rfl, rfl, rfl, same⟩

theorem keeps_insertPasskey (row : PasskeyRow) : Keeps fun db => db.insertPasskey row := by
  rintro ⟨users, entries, passkeys, wraps, _, _, _⟩ ⟨_, entries', _, _, _, _, _⟩
    ⟨⟨⟩, ⟨⟩, ⟨⟩, same⟩
  unfold Database.insertPasskey
  dsimp only
  split
  · split
    · exact .inl ⟨_, rfl, rfl⟩
    · exact .inr ⟨_, _, rfl, rfl, rfl, rfl, rfl, same⟩
  · exact .inl ⟨_, rfl, rfl⟩

/-- A change, and then what is read off the changed database. -/
theorem Keeps.alike {α : Type} {change : Database → Except DbError Database}
    {rest : Database → Except DbError (α × Database)} (keeps : Keeps change)
    (later : ∀ x y, SameButBodies x y → Outcomes SameButBodies Eq (rest x) (rest y)) :
    Alike SameButBodies Eq (fun db => (change db).bind rest)
      (fun db => (change db).bind rest) := by
  intro x y same
  obtain ⟨failure, here, there⟩ | ⟨next, next', here, there, kept⟩ := keeps x y same
  · dsimp only
    rw [here, there]
    exact .failed failure
  · dsimp only
    rw [here, there]
    exact later next next' kept

theorem alike_insertWrap (userId : Int) (kind : WrapKind) (credentialId : Option Bytes)
    (wrapped : Bytes) (now : Timestamp) :
    Alike SameButBodies Eq (insertWrap userId kind credentialId wrapped now)
      (insertWrap userId kind credentialId wrapped now) := by
  have unfolded : insertWrap userId kind credentialId wrapped now = fun db =>
      (db.insertWrap (newWrap userId kind credentialId wrapped now)).bind fun next =>
        .ok ((), next) := by
    funext db
    rw [insertWrap]
    cases db.insertWrap (newWrap userId kind credentialId wrapped now) <;> rfl
  rw [unfolded]
  exact (keeps_insertWrap _).alike fun _ _ same => .committed rfl same

theorem alike_findOrCreate (email : String) (now : Timestamp) :
    Alike SameButBodies Eq (findOrCreate email now) (findOrCreate email now) := by
  intro x y same
  unfold findOrCreate
  cases normalizeEmail email with
  | none => exact .failed DbError.notFound
  | some normalized =>
      dsimp only
      rw [same.userByEmail]
      cases userByEmail y normalized with
      | some found => exact .committed rfl same
      | none =>
          refine (keeps_insertUser normalized now).alike (fun x y same => ?_) x y same
          rw [same.userByEmail]
          cases userByEmail y normalized with
          | none => exact .failed DbError.notFound
          | some found => exact .committed rfl same

theorem alike_insertPasskey (userId : Int) (credentialId passkey : Bytes) (prfCapable : Bool)
    (now : Timestamp) :
    Alike SameButBodies Eq (insertPasskey userId credentialId passkey prfCapable now)
      (insertPasskey userId credentialId passkey prfCapable now) := by
  intro x y same
  refine (keeps_insertPasskey _).alike (fun x y same => ?_) x y same
  rw [same.passkeys]
  cases y.passkeys.rows.find? fun row => row.credentialId = credentialId with
  | none => exact .failed DbError.notFound
  | some row => exact .committed rfl same

theorem SameButBodies.deleteWraps (same : SameButBodies x y) (selects : EntryKeyWrap → Bool) :
    SameButBodies (x.deleteWraps selects) (y.deleteWraps selects) := by
  refine ⟨same.users, same.passkeys, Table.ext_rows ?_, same.entries⟩
  show x.wraps.rows.filter _ = y.wraps.rows.filter _
  rw [same.wraps]

theorem alike_deleteKeyWraps (userId : Int) :
    Alike SameButBodies Eq (deleteKeyWraps userId) (deleteKeyWraps userId) :=
  fun _ _ same => .committed rfl (same.deleteWraps _)

theorem alike_deleteWrapForCredential (userId : Int) (credentialId : Bytes) :
    Alike SameButBodies Eq (deleteWrapForCredential userId credentialId)
      (deleteWrapForCredential userId credentialId) :=
  fun _ _ same => .committed rfl (same.deleteWraps _)

theorem alike_deleteForUser (id userId : Int) :
    Alike SameButBodies Eq (deleteForUser id userId) (deleteForUser id userId) := by
  intro x y same
  refine .committed (by rw [same.passkeys]) ⟨same.users, Table.ext_rows ?_, same.wraps,
    same.entries⟩
  show x.passkeys.rows.filter _ = y.passkeys.rows.filter _
  rw [same.passkeys]

theorem alike_updateAfterUse (rowId : Int) (passkey : Bytes) (now : Timestamp) :
    Alike SameButBodies Eq (updateAfterUse rowId passkey now)
      (updateAfterUse rowId passkey now) := by
  intro x y same
  refine .committed rfl ⟨same.users, Table.ext_rows ?_, same.wraps, same.entries⟩
  show x.passkeys.rows.map _ = y.passkeys.rows.map _
  rw [same.passkeys]

/-! ## The entries table -/

/-- The days of the rows that a condition on accounts and days selects. -/
theorem SameButBodies.filter (same : SameButBodies x y) (selects : TimeEntry → Bool)
    (unread : ∀ row, selects (blank row) = selects row) :
    (x.entries.rows.filter selects).map blank = (y.entries.rows.filter selects).map blank := by
  have commutes : ∀ rows : List TimeEntry,
      (rows.filter selects).map blank = (rows.map blank).filter selects := by
    intro rows
    rw [List.filter_map]
    simp only [Function.comp_def, unread]
  rw [commutes, commutes, same.entries]

theorem SameButBodies.rowsInRange (same : SameButBodies x y) (userId : Int)
    (first last : NaiveDate) :
    (rowsInRange x userId first last).map blank =
      (rowsInRange y userId first last).map blank := by
  have dated : ∀ row, (blank row).entryDate = row.entryDate := fun _ => rfl
  rw [rowsInRange_eq, rowsInRange_eq, map_range dated, map_range dated, entriesOf, entriesOf,
    same.filter _ fun _ => rfl]

theorem alike_load (userId : Int) (date : NaiveDate) :
    Alike SameButBodies (Option.Rel fun _ _ => True) (load userId date)
      (load userId date) := by
  refine alike_read _ (fun db => load_eq db userId date) fun x y same => ?_
  have found : ∀ db : Database, (bodyOf db userId (toIso date)).isSome =
      (db.entries.rows.filter fun row =>
        row.userId = userId && row.entryDate = toIso date).head?.isSome := by
    intro db
    rw [bodyOf, Option.isSome_map, List.head?_filter]
  have present : (bodyOf x userId (toIso date)).isSome = (bodyOf y userId (toIso date)).isSome := by
    have blanks := congrArg (fun rows => rows.head?.isSome)
      (same.filter (fun row => row.userId = userId && row.entryDate = toIso date) fun _ => rfl)
    simp only [List.head?_map, Option.isSome_map] at blanks
    rw [found, found, blanks]
  cases here : bodyOf x userId (toIso date) with
  | none =>
      cases there : bodyOf y userId (toIso date) with
      | none => exact Option.Rel.none
      | some body' => simp [here, there] at present
  | some body =>
      cases there : bodyOf y userId (toIso date) with
      | none => simp [here, there] at present
      | some body' => exact Option.Rel.some trivial

/-- Rows that are the same but for their bodies have the same days. -/
theorem forall₂_of_map_blank {rows rows' : List TimeEntry}
    (same : rows.map blank = rows'.map blank) :
    List.Forall₂ (fun row row' => blank row = blank row') rows rows' := by
  rw [← List.forall₂_eq_eq_eq] at same
  exact List.forall₂_map_left_iff.mp (List.forall₂_map_right_iff.mp same)

theorem alike_datesInRange (userId : Int) (first last : NaiveDate) :
    Alike SameButBodies Eq (datesInRange userId first last)
      (datesInRange userId first last) := by
  refine alike_read _ (fun _ => rfl) fun x y same => ?_
  have dates : ∀ rows : List TimeEntry, (rows.filterMap fun row => parseIso row.entryDate) =
      (rows.map blank).filterMap fun row => parseIso row.entryDate := by
    intro rows
    rw [List.filterMap_map]
    rfl
  rw [dates, same.rowsInRange, ← dates]

theorem alike_entriesInRange (userId : Int) (first last : NaiveDate) :
    Alike SameButBodies
      (List.Forall₂ fun entry entry' => entry.1 = entry'.1 ∧ True)
      (Store.entriesInRange userId first last) (Store.entriesInRange userId first last) := by
  refine alike_read _ (fun _ => rfl) fun x y same => ?_
  refine List.rel_filterMap ?_ (forall₂_of_map_blank (same.rowsInRange userId first last))
  intro row row' blanks
  have day : (blank row).entryDate = (blank row').entryDate := by rw [blanks]
  replace day : row.entryDate = row'.entryDate := day
  dsimp only
  rw [day]
  cases parseIso row'.entryDate with
  | none => exact Option.Rel.none
  | some date => exact Option.Rel.some ⟨rfl, trivial⟩

/-- A save changes the days of the table in the same way, whatever it stores. -/
theorem SameButBodies.upsert (same : SameButBodies x y) {next next' : Database}
    {row row' : TimeEntry} (blanks : blank row = blank row')
    (saved : x.upsertEntry row = .ok next) (saved' : y.upsertEntry row' = .ok next') :
    SameButBodies next next' := by
  obtain ⟨-, users, passkeys, wraps⟩ := Database.upsertEntry_eq_ok saved
  obtain ⟨-, users', passkeys', wraps'⟩ := Database.upsertEntry_eq_ok saved'
  refine ⟨by rw [users, users', same.users], by rw [passkeys, passkeys', same.passkeys],
    by rw [wraps, wraps', same.wraps], ?_⟩
  -- the rows after a save, without their bodies
  have rows : ∀ {db next : Database} {row : TimeEntry}, db.upsertEntry row = .ok next →
      next.entries.rows.map blank =
        if ∃ old ∈ db.entries.rows.map blank, old.Conflict (blank row) then
          (db.entries.rows.map blank).map (Database.overwrite (blank row))
        else db.entries.rows.map blank ++ [blank row] := by
    intro db next row saved
    have taken : (∃ old ∈ db.entries.rows, old.Conflict row) ↔
        ∃ old ∈ db.entries.rows.map blank, old.Conflict (blank row) := by
      constructor
      · rintro ⟨old, member, conflict⟩
        exact ⟨blank old, List.mem_map_of_mem member, conflict⟩
      · rintro ⟨_, listed, conflict⟩
        obtain ⟨old, member, rfl⟩ := List.mem_map.mp listed
        exact ⟨old, member, conflict⟩
    have overwritten : ∀ old,
        blank (Database.overwrite row old) = Database.overwrite (blank row) (blank old) := by
      intro old
      by_cases conflict : old.Conflict row
      · have conflict' : (blank old).Conflict (blank row) := conflict
        rw [Database.overwrite, Database.overwrite, if_pos conflict, if_pos conflict']
        rfl
      · have conflict' : ¬ (blank old).Conflict (blank row) := conflict
        rw [Database.overwrite, Database.overwrite, if_neg conflict, if_neg conflict']
    rw [rows_upsertEntry saved]
    simp only [taken]
    split
    · rw [List.map_map, List.map_map]
      exact List.map_congr_left fun old _ => overwritten old
    · rw [List.map_append]
      rfl
  rw [rows saved, rows saved', same.entries, blanks]

theorem alike_save (userId : Int) (date : NaiveDate) (body body' : String) (now : Timestamp) :
    Alike SameButBodies Eq (save userId date body now) (save userId date body' now) := by
  intro x y same
  unfold save
  by_cases known : x.HasUser userId
  · have known' : y.HasUser userId := by
      rw [Database.HasUser, ← same.users]
      exact known
    obtain ⟨next, saved⟩ : ∃ next, x.upsertEntry
        { userId, entryDate := toIso date, body, updatedAt := now } = .ok next :=
      upsertEntry_ok known
    obtain ⟨next', saved'⟩ : ∃ next, y.upsertEntry
        { userId, entryDate := toIso date, body := body', updatedAt := now } = .ok next :=
      upsertEntry_ok known'
    rw [saved, saved']
    have blanks : blank { userId, entryDate := toIso date, body, updatedAt := now } =
        blank { userId, entryDate := toIso date, body := body', updatedAt := now } := rfl
    exact .committed rfl (same.upsert blanks saved saved')
  · have unknown' : ¬ y.HasUser userId := by
      rw [Database.HasUser, ← same.users]
      exact known
    rw [upsertEntry_eq_error known, upsertEntry_eq_error unknown']
    exact .failed DbError.foreignKeyViolation

theorem alike_deleteTransaction (userId id : Int) :
    Alike SameButBodies Eq (deleteTransaction userId id) (deleteTransaction userId id) := by
  refine alike_bind (alike_listByUser userId) ?_
  rintro rows _ rfl
  cases rows.find? fun row => row.id = id with
  | none => exact alike_pure rfl
  | some target =>
      refine alike_bind (alike_isEncrypted userId) ?_
      rintro encrypted _ rfl
      refine alike_bind (alike_listWraps userId) ?_
      rintro wraps _ rfl
      dsimp only
      split
      · exact alike_pure rfl
      · refine alike_bind (alike_deleteForUser id userId) ?_
        rintro deleted _ rfl
        cases deleted with
        | false => exact alike_pure rfl
        | true =>
            exact alike_bind (alike_deleteWrapForCredential userId target.credentialId)
              fun _ _ _ => alike_pure rfl

end Statements

/-- The point of view of everybody who is not shown the bodies. -/
def withoutBodies : Viewpoint where
  same := SameButBodies
  owns _ := True
  asks _ := True
  clock := Eq
  stored _ _ := True
  submitted body body' := body.utf8ByteSize = body'.utf8ByteSize

theorem sound_withoutBodies : Sound withoutBodies where
  findByEmail := by
    intro claims _
    refine (alike_findByEmail claims.email).mono ?_
    rintro found _ rfl
    cases found with
    | none => exact Option.Rel.none
    | some me => exact Option.Rel.some ⟨trivial, rfl, rfl, rfl⟩
  isEncrypted userId _ := alike_isEncrypted userId
  setEncrypted := by
    rintro userId now _ - rfl
    exact alike_setEncrypted userId now
  insertWrap := by
    rintro userId kind credentialId wrapped now _ - rfl
    exact alike_insertWrap userId kind credentialId wrapped now
  listWraps userId _ := alike_listWraps userId
  hasWrapForCredential userId credentialId _ := alike_hasWrapForCredential userId credentialId
  currentKeyWrap userId _ := alike_currentKeyWrap userId
  deleteKeyWraps userId _ := alike_deleteKeyWraps userId
  findByCredentialId := by
    intro userId credentialId _
    refine (alike_findByCredentialId credentialId).mono ?_
    rintro row _ rfl
    exact Iff.rfl
  load userId date _ := alike_load userId date
  save := by
    rintro userId date body body' now _ - - rfl
    exact alike_save userId date body body' now
  datesInRange userId first last _ := alike_datesInRange userId first last
  entriesInRange userId first last _ := alike_entriesInRange userId first last
  bytes _ _ same := same

/-! ## The requests -/

/-- Everything that can be asked of the server once a link was mailed. -/
inductive Request
  | endpoint (ctx : AppCtx) (endpoint : Endpoint)
  | magicSignIn (email : String) (now : Timestamp)
  | passkeyLoginFinish (ctx : AppCtx) (responseJson : String)
  | passkeyRegisterFinish (ctx : AppCtx) (responseJson : String) (prfCapable : Bool)
  | passkeyDelete (ctx : AppCtx) (id : Int)
  | logout
  | signOutEverywhere (ctx : AppCtx)

/-- The server function of a request. -/
def Request.handler (wa : Webauthn) : Request → Handler Response
  | .endpoint ctx asked => asked.handler ctx
  | .magicSignIn email now => do
      Functions.magicSignIn email now
      return .done
  | .passkeyLoginFinish ctx responseJson => do
      Functions.passkeyLoginFinish wa ctx responseJson
      return .done
  | .passkeyRegisterFinish ctx responseJson prfCapable => do
      Functions.passkeyRegisterFinish wa ctx responseJson prfCapable
      return .done
  | .passkeyDelete ctx id => do
      Functions.passkeyDelete ctx id
      return .done
  | .logout => do
      Functions.logout
      return .done
  | .signOutEverywhere ctx => do
      Functions.signOutEverywhere ctx
      return .done

def serve (wa : Webauthn) (request : Request) :
    Program Database Site DbError (Reply Response) :=
  (request.handler wa).run.run none

abbrev Requests := Service Database Site DbError Nat Request (Reply Response)

abbrev Event := Serving.Event Nat Request DbError

/-- The same request, but for the body of a save: that has the same length. -/
inductive SameRequest : Request → Request → Prop
  | entrySave (ctx : AppCtx) (date : String) {body body' : String}
      (length : body.utf8ByteSize = body'.utf8ByteSize) :
      SameRequest (.endpoint ctx (.entrySave date body)) (.endpoint ctx (.entrySave date body'))
  | refl (request : Request) : SameRequest request request

section Requests

variable {wa : Webauthn} {ctx : AppCtx}

theorem sameContext (ctx : AppCtx) : SameContext withoutBodies ctx ctx :=
  ⟨rfl, fun _ _ => trivial, rfl⟩

/-- The account of a session is read the same way, with all its columns. -/
theorem agree_account : Agree SameButBodies Eq (requireUser ctx) (requireUser ctx) := by
  refine agree_bind (B := Eq) (agree_orRefuse ?_) ?_
  · cases ctx.claims with
    | none => exact Option.Rel.none
    | some claims => exact Option.Rel.some rfl
  · rintro claims _ rfl
    refine agree_bind (agree_query (alike_findByEmail claims.email)) ?_
    rintro found _ rfl
    refine agree_bind (B := Eq) (agree_orRefuse ?_) ?_
    · cases found with
      | none => exact Option.Rel.none
      | some me => exact Option.Rel.some rfl
    · rintro me _ rfl
      exact agree_ite Iff.rfl (fun _ => agree_throw_bind _) fun _ => agree_pure rfl

/-- The same option is unwrapped the same way. -/
theorem agree_option {α : Type} (message : String) (option : Option α) :
    Agree SameButBodies Eq (orRefuse message option) (orRefuse message option) := by
  apply agree_orRefuse
  cases option with
  | none => exact Option.Rel.none
  | some value => exact Option.Rel.some rfl

theorem agree_magicSignIn (email : String) (now : Timestamp) :
    Agree SameButBodies (fun _ _ => True) (magicSignIn email now) (magicSignIn email now) := by
  refine agree_bind (agree_query (alike_findOrCreate email now)) ?_
  rintro user _ rfl
  exact agree_setCookie _ trivial

theorem agree_signOutEverywhere :
    Agree SameButBodies (fun _ _ => True) (signOutEverywhere ctx) (signOutEverywhere ctx) := by
  refine agree_bind agree_account ?_
  rintro me _ rfl
  exact agree_bind (agree_query (alike_bumpEpoch me.id)) fun _ _ _ => agree_setCookie _ trivial

theorem agree_passkeyDelete (id : Int) :
    Agree SameButBodies (fun _ _ => True) (passkeyDelete ctx id) (passkeyDelete ctx id) := by
  refine agree_bind agree_account ?_
  rintro me _ rfl
  exact agree_bind (agree_query (alike_deleteTransaction me.id id)) fun _ _ => agree_refuse

theorem agree_passkeyRegisterFinish (responseJson : String) (prfCapable : Bool) :
    Agree SameButBodies (fun _ _ => True) (passkeyRegisterFinish wa ctx responseJson prfCapable)
      (passkeyRegisterFinish wa ctx responseJson prfCapable) := by
  refine agree_bind agree_account ?_
  rintro me _ rfl
  refine agree_bind (agree_option _ _) ?_
  rintro raw _ rfl
  refine agree_bind (agree_option _ _) ?_
  rintro state _ rfl
  refine agree_bind (B := fun _ _ => True) (agree_setCookie _ trivial) fun _ _ _ => ?_
  cases state with
  | auth subject auth expiresAt => exact agree_throw _
  | discoverableAuth auth expiresAt => exact agree_throw _
  | reg subject reg expiresAt =>
      refine agree_ite Iff.rfl (fun _ => agree_throw_bind _) fun _ => ?_
      refine agree_bind (agree_option _ _) ?_
      rintro rpc _ rfl
      refine agree_bind (agree_option _ _) ?_
      rintro key _ rfl
      refine agree_bind (agree_option _ _) ?_
      rintro blob _ rfl
      refine agree_bind (agree_query (alike_insertPasskey _ _ _ _ _)) ?_
      exact fun _ _ _ => agree_pure trivial

theorem agree_passkeyLoginFinish (responseJson : String) :
    Agree SameButBodies (fun _ _ => True) (passkeyLoginFinish wa ctx responseJson)
      (passkeyLoginFinish wa ctx responseJson) := by
  refine agree_bind (agree_option _ _) ?_
  rintro raw _ rfl
  refine agree_bind (agree_option _ _) ?_
  rintro state _ rfl
  refine agree_bind (B := fun _ _ => True) (agree_setCookie _ trivial) fun _ _ _ => ?_
  refine agree_bind (agree_option _ _) ?_
  rintro pkc _ rfl
  have finish : ∀ (row : PasskeyRow) (updated : wa.Key),
      Agree SameButBodies (fun _ _ => True) (signInWith wa ctx row updated)
        (signInWith wa ctx row updated) := by
    intro row updated
    refine agree_bind (agree_option _ _) ?_
    rintro blob _ rfl
    refine agree_bind (agree_query (alike_updateAfterUse _ _ _)) fun _ _ _ => ?_
    refine agree_bind (B := Eq) (agree_query ?_) ?_
    · intro x y same
      rw [loadUser, loadUser, same.user?]
      cases y.user? row.userId with
      | none => exact .failed DbError.notFound
      | some user => exact .committed rfl same
    · rintro owner _ rfl
      exact agree_setCookie _ trivial
  cases state with
  | reg subject reg expiresAt => exact agree_throw_bind _
  | discoverableAuth auth expiresAt =>
      refine agree_bind (agree_option _ _) ?_
      rintro credId _ rfl
      refine agree_bind (agree_query (alike_findByCredentialId credId)) ?_
      rintro row _ rfl
      refine agree_bind (agree_option _ _) ?_
      rintro row _ rfl
      refine agree_bind (agree_option _ _) ?_
      rintro key _ rfl
      refine agree_bind (agree_option _ _) ?_
      rintro result _ rfl
      exact finish row _
  | auth subject auth expiresAt =>
      refine agree_bind (agree_option _ _) ?_
      rintro result _ rfl
      refine agree_bind (agree_query (alike_findByCredentialId _)) ?_
      rintro row _ rfl
      refine agree_bind (agree_option _ _) ?_
      rintro row _ rfl
      refine agree_bind (agree_query (alike_findByEmail subject)) ?_
      rintro owner _ rfl
      refine agree_bind (agree_option _ _) ?_
      rintro owner _ rfl
      refine agree_ite Iff.rfl (fun _ => agree_throw_bind _) fun _ => ?_
      refine agree_bind (agree_option _ _) ?_
      rintro key _ rfl
      exact finish row _

/-- Every request is decided alike, whatever the bodies. -/
theorem agree_request {request request' : Request} (same : SameRequest request request') :
    Agree SameButBodies (SameResponse withoutBodies) (request.handler wa)
      (request'.handler wa) := by
  cases same with
  | entrySave ctx date length =>
      exact agree_endpoint sound_withoutBodies (sameContext ctx) (.entrySave date length)
  | refl =>
      have done : ∀ {handler : Handler Unit},
          Agree SameButBodies (fun _ _ => True) handler handler →
          Agree SameButBodies (SameResponse withoutBodies)
            (handler >>= fun _ => pure .done) (handler >>= fun _ => pure .done) :=
        fun agree => agree_bind agree fun _ _ _ => agree_pure .done
      cases request with
      | endpoint ctx asked =>
          apply agree_endpoint sound_withoutBodies (sameContext ctx)
          cases asked with
          | entrySave date body => exact .entrySave date rfl
          | _ => exact .refl _ nofun
      | magicSignIn email now => exact done (agree_magicSignIn email now)
      | passkeyLoginFinish ctx responseJson => exact done (agree_passkeyLoginFinish responseJson)
      | passkeyRegisterFinish ctx responseJson prfCapable =>
          exact done (agree_passkeyRegisterFinish responseJson prfCapable)
      | passkeyDelete ctx id => exact done (agree_passkeyDelete id)
      | logout => exact done (agree_setCookie _ trivial)
      | signOutEverywhere ctx => exact done agree_signOutEverywhere

end Requests

/-! ## What one statement does to the bodies -/

/-- The account that the session of a request names. -/
def named (ctx : AppCtx) (db : Database) : Option Int := do
  let claims ← ctx.claims
  let email ← normalizeEmail claims.email
  (userByEmail db email).map User.id

/-- The account a request to an endpoint is for. -/
def Request.account? (request : Request) (db : Database) : Option Int :=
  match request with
  | .endpoint ctx _ => named ctx db
  | _ => none

/-- The account, day and body of a save that a call reports as done once the statement it
executes on this database is. -/
def saved? (request : Request) (before : Database)
    (rest : Program Database Site DbError (Reply Response)) : Option (Int × String × String) :=
  match request, result? rest with
  | .endpoint _ (.entrySave date body), some (.ok _, _) =>
      (request.account? before).map fun userId => (userId, date, body)
  | _, _ => none

/-- A day a range query shows. -/
def InRange (first last day : String) : Prop :=
  first ≤ day ∧ day ≤ last ∧ (parseIso day).isSome = true

/-- The request is answered, and its answer shows bodies. -/
def Shows (request : Request) (reply : Reply Response) : Prop :=
  match request, reply.1 with
  | .endpoint _ (.entryLoad _), .ok _ => True
  | .endpoint _ (.entriesInRange _ _), .ok _ => True
  | _, _ => False

/-- The request is answered, and its answer shows bodies or reports one as saved. -/
def Concerns (request : Request) (reply : Reply Response) : Prop :=
  match request, reply.1 with
  | .endpoint _ (.entryLoad _), .ok _ => True
  | .endpoint _ (.entriesInRange _ _), .ok _ => True
  | .endpoint _ (.entrySave _ _), .ok _ => True
  | _, _ => False

/-- The answer is what is stored for each day asked for, and nothing else. -/
inductive Echo (stored : String → Option String) : Request → Reply Response → Prop
  | load (ctx : AppCtx) (date : String) (cookie : Option SetCookie) :
      Echo stored (.endpoint ctx (.entryLoad date)) (.ok (.body (stored date)), cookie)
  | range (ctx : AppCtx) {first last : String} {entries : List (String × String)}
      (cookie : Option SetCookie)
      (exact : ∀ day body, (day, body) ∈ entries ↔
        InRange first last day ∧ stored day = some body) :
      Echo stored (.endpoint ctx (.entriesInRange first last)) (.ok (.entries entries), cookie)

/-- A statement stores the body its call reports as saved, for the account its session
names, and no other; and what a call answers of the bodies is what those of that account
are. -/
structure Files (request : Request) (_ : Site) (before after : Database)
    (rest : Program Database Site DbError (Reply Response)) : Prop where
  users : KeepsUsers before after
  kept : saved? request before rest = none → after.entries = before.entries
  stored : ∀ userId date body, saved? request before rest = some (userId, date, body) →
    Saved userId date body before after
  echoes : ∀ reply, result? rest = some reply → Shows request reply →
    ∃ userId, request.account? before = some userId ∧ Echo (bodyOf before userId) request reply

/-- The entries are left as they are, and the accounts keep their names. -/
structure Leaves (before after : Database) : Prop where
  entries : after.entries = before.entries
  users : KeepsUsers before after

section Statements

variable {wa : Webauthn} {ctx : AppCtx} {db : Database}

/-- While the accounts keep their names, a session names the account it was found to. -/
theorem named_of_signedIn {before later : Database} {me : User}
    (signedIn : SignedIn ctx before me) (kept : KeepsUsers before later) :
    named ctx later = some me.id := by
  obtain ⟨claims, email, sent, normalized, found, -⟩ := signedIn
  obtain ⟨member, rfl⟩ := mem_of_userByEmail found
  obtain ⟨user, present, id, email⟩ := kept me member
  have found' : userByEmail later me.email = some user := email ▸ userByEmail_of_mem present
  simp [named, sent, normalized, found', id]

theorem entries_enableTransaction {userId : Int} {passkey : Option PasskeyWrapDto}
    {encryptionKeyWrap : Bytes} {now : Timestamp} {outcome : Except String Unit}
    {before after : Database} (ran : enableTransaction userId passkey encryptionKeyWrap now
      before = .ok (outcome, after)) : after.entries = before.entries := by
  obtain ⟨rfl, -⟩ | ⟨-, -, -, enabled⟩ := enableTransaction_eq_ok ran
  · rfl
  · exact enabled.entries

theorem entries_replaceEncryptionKeyWrap {userId : Int} {wrappedKey : Bytes}
    {now : Timestamp} {value : Unit} {before after : Database}
    (ran : replaceEncryptionKeyWrap userId wrappedKey now before = .ok (value, after)) :
    after.entries = before.entries := by
  obtain ⟨rfl, -⟩ | replaced := replaceEncryptionKeyWrap_eq_ok ran
  · rfl
  · exact replaced.entries

theorem entries_deleteTransaction {userId id : Int} {outcome : Except String Unit}
    {before after : Database}
    (ran : deleteTransaction userId id before = .ok (outcome, after)) :
    after.entries = before.entries := by
  obtain ⟨rfl, -⟩ | ⟨target, -, -, deleted⟩ := deleteTransaction_eq_ok ran
  · rfl
  · exact deleted.entries

/-- A change that every statement makes of the tables it writes. -/
structure Writes (change : Database → Database → Prop) : Prop where
  refl : ∀ db, change db db
  enableTransaction : ∀ {userId passkey encryptionKeyWrap now outcome before after},
    enableTransaction userId passkey encryptionKeyWrap now before = .ok (outcome, after) →
      change before after
  insertWrap : ∀ {userId credentialId wrapped now value before after},
    insertWrap userId .passkey (some credentialId) wrapped now before = .ok (value, after) →
      change before after
  replaceEncryptionKeyWrap : ∀ {userId wrapped now value before after},
    replaceEncryptionKeyWrap userId wrapped now before = .ok (value, after) →
      change before after
  findOrCreate : ∀ {email now user before after},
    findOrCreate email now before = .ok (user, after) → change before after
  updatePasskey : ∀ rowId blob now before, change before (before.updatePasskey rowId blob now)
  insertPasskey : ∀ {userId credentialId blob prfCapable now rowId before after},
    insertPasskey userId credentialId blob prfCapable now before = .ok (rowId, after) →
      change before after
  deleteTransaction : ∀ {userId id outcome before after},
    deleteTransaction userId id before = .ok (outcome, after) → change before after
  bumpEpoch : ∀ {userId value before after},
    bumpEpoch userId before = .ok (value, after) → change before after

section Changes

variable {change : Database → Database → Prop}

theorem Writes.effect (writes : Writes change) {α : Type} {statement : Sql α}
    {before : Database} (ran : ∀ value after, statement before = .ok (value, after) →
      change before after) : change before (effect statement before) := by
  cases reply : statement before with
  | error failure =>
      rw [effect_of_error reply]
      exact writes.refl before
  | ok pair =>
      rw [effect_of_ok reply]
      exact ran pair.1 pair.2 reply

theorem Writes.decides (writes : Writes change) {β : Type} {site : User → Site}
    {statement : User → Sql β} (ran : ∀ (me : User) before value after,
      statement me before = .ok (value, after) → change before after) :
    Decides Free (fun _ => change) ctx db site statement fun _ _ => True :=
  fun _ later me _ _ _ => ⟨writes.effect (ran me later), fun _ _ _ => trivial⟩

/-- Whatever all statements do to the tables, every request does with each of its own. -/
theorem Writes.serves (writes : Writes change) {request : Request}
    (saves : ∀ ctx date body, request = .endpoint ctx (.entrySave date body) →
      ∀ userId day before outcome after,
        saveTransaction userId day body ctx.now before = .ok (outcome, after) →
          change before after) :
    Serves Free (fun _ => change) (fun _ _ => True) (request.handler wa) none db := by
  have idle : Idle Free (fun _ => change) db := fun later _ _ _ => writes.refl later
  cases request with
  | endpoint ctx asked =>
      cases asked with
      | entrySave date body =>
          refine serves_then (serves_entrySave idle (fun _ _ _ => trivial) fun day => ?_)
          exact writes.decides fun me => saves ctx date body rfl me.id day
      | entryLoad date =>
          exact serves_then (serves_entryLoad idle (fun _ _ _ => trivial)
            fun _ _ _ => trivial)
      | entryDatesInRange first last =>
          exact serves_then (serves_entryDatesInRange idle (fun _ _ _ => trivial)
            fun _ _ _ => trivial)
      | entriesInRange first last =>
          exact serves_then (serves_entriesInRange idle (fun _ _ _ => trivial)
            fun _ _ _ => trivial)
      | encryptionStatus =>
          exact serves_then (serves_encryptionStatus idle (fun _ _ _ => trivial)
            fun _ _ _ _ _ _ _ _ => trivial)
      | encryptionWraps =>
          exact serves_then (serves_encryptionWraps idle (fun _ _ _ => trivial)
            fun _ _ _ _ _ _ _ _ => trivial)
      | encryptionEnable passkey encryptionKeyWrap =>
          exact serves_then (serves_encryptionEnable idle (fun _ _ _ => trivial)
            (writes.decides fun _ _ _ _ => writes.enableTransaction))
      | encryptionAddPasskeyWrap credentialId wrappedKey =>
          exact serves_then (serves_encryptionAddPasskeyWrap idle (fun _ _ _ => trivial)
            (writes.decides fun _ _ _ _ => writes.insertWrap))
      | encryptionReplaceKeyWrap wrappedKey =>
          exact serves_then (serves_encryptionReplaceKeyWrap idle (fun _ _ _ => trivial)
            (writes.decides fun _ _ _ _ => writes.replaceEncryptionKeyWrap))
  | magicSignIn email now =>
      refine serves_then (serves_magicSignIn (fun later _ => ?_) (fun _ _ _ _ _ => trivial)
        fun _ _ => trivial)
      exact writes.effect fun _ _ => writes.findOrCreate
  | passkeyLoginFinish ctx responseJson =>
      refine serves_then (serves_passkeyLoginFinish idle (fun _ _ _ _ _ => trivial) ?_)
      exact fun later row blob _ _ _ => ⟨writes.updatePasskey row.id blob ctx.now later,
        fun last _ _ _ => writes.refl last, fun _ _ => ⟨trivial, fun _ _ _ => trivial⟩⟩
  | passkeyRegisterFinish ctx responseJson prfCapable =>
      exact serves_then (serves_passkeyRegisterFinish idle (fun _ _ _ _ _ => trivial)
        fun credentialId blob => writes.decides fun _ _ _ _ => writes.insertPasskey)
  | passkeyDelete ctx id =>
      exact serves_then (serves_passkeyDelete idle (fun _ _ _ => trivial)
        (writes.decides fun _ _ _ _ => writes.deleteTransaction))
  | logout => exact serves_then (serves_setCookie trivial)
  | signOutEverywhere ctx =>
      exact serves_then (serves_signOutEverywhere idle (fun _ _ _ => trivial)
        (writes.decides fun _ _ _ _ => writes.bumpEpoch))

end Changes

/-- Nothing but a save writes to the entries. -/
theorem writes_leaves : Writes Leaves where
  refl db := ⟨rfl, .refl db⟩
  enableTransaction ran :=
    have tracks : Revocation.Tracks .findUser _ _ := tracks_enableTransaction (fun _ => nofun) ran
    ⟨entries_enableTransaction ran, tracks.keepsUsers⟩
  insertWrap ran :=
    have inserted := Database.insertWrap_eq_ok (insertWrap_ran ran)
    ⟨inserted.2.2.1, .of_users inserted.2.1⟩
  replaceEncryptionKeyWrap ran :=
    ⟨entries_replaceEncryptionKeyWrap ran, .of_users (users_replaceEncryptionKeyWrap ran)⟩
  findOrCreate ran := ⟨(findOrCreate_eq_ok ran).2.1, (findOrCreate_user ran).2.keepsUsers⟩
  updatePasskey _ _ _ _ := ⟨rfl, .of_users rfl⟩
  insertPasskey ran :=
    have inserted := Outcomes.insertPasskey_eq_ok ran
    ⟨inserted.2.2.1, .of_users inserted.2.1⟩
  deleteTransaction ran :=
    ⟨entries_deleteTransaction ran, .of_users (users_deleteTransaction ran)⟩
  bumpEpoch := by
    rintro userId value before after ⟨⟩
    exact ⟨rfl, (tracks_bumpEpoch userId before).keepsUsers⟩

/-- Every request but a save leaves the entries alone. -/
theorem serves_leaves {request : Request}
    (other : ∀ ctx date body, request ≠ .endpoint ctx (.entrySave date body)) :
    Serves Free (fun _ => Leaves) (fun _ _ => True) (request.handler wa) none db :=
  writes_leaves.serves fun ctx date body same => absurd same (other ctx date body)

theorem concerns_of_shows {request : Request} {reply : Reply Response}
    (shows : Shows request reply) : Concerns request reply := by
  unfold Shows at shows
  unfold Concerns
  split at shows <;> simp_all

/-- A refusal says nothing of the bodies. -/
theorem not_concerns_error (request : Request) (message : String) (cookie : Option SetCookie) :
    ¬ Concerns request (.error message, cookie) := by
  unfold Concerns
  split <;> simp_all

/-- A call that does not end in an answer about bodies reports none as saved. -/
theorem saved?_eq_none {request : Request} {before : Database}
    {rest : Program Database Site DbError (Reply Response)}
    (silent : EndsIn (fun reply => ¬ Concerns request reply) rest) :
    saved? request before rest = none := by
  unfold saved?
  split
  · next ended => exact absurd trivial (silent _ ended)
  · rfl

/-- Nothing of the bodies is read or written. -/
theorem files_of_leaves {request : Request} {site : Site} {before after : Database}
    {rest : Program Database Site DbError (Reply Response)}
    (silent : EndsIn (fun reply => ¬ Concerns request reply) rest)
    (leaves : Leaves before after) : Files request site before after rest := by
  refine ⟨leaves.users, fun _ => leaves.entries, ?_, ?_⟩
  · intro userId date body saved
    cases (saved?_eq_none silent).symm.trans saved
  · exact fun reply ended shows => absurd (concerns_of_shows shows) (silent reply ended)

/-- A refusal changes nothing and shows nothing. -/
theorem files_refused {request : Request} {site : Site} {before : Database} {message : String}
    {cookie : Option SetCookie} :
    Files request site before before (.done (.error message, cookie)) := by
  refine files_of_leaves ?_ ⟨rfl, .refl before⟩
  rintro reply ⟨⟩
  exact not_concerns_error request message cookie

/-! ## Handlers by their statements -/

/-- How a handler goes on from a reply: a refusal is passed on. -/
def goOn {α β : Type} (rest : β → Handler α) (reply : Reply β) :
    Program Database Site DbError (Reply α) :=
  (ExceptT.bindCont rest reply.1).run reply.2

section Rules

variable {α β : Type} {rely : Database → Database → Prop}
  {Q : Site → Database → Database → Program Database Site DbError (Reply α) → Prop}
  {F : Reply α → Prop} {post : Reply α → Database → Prop} {cookie : Option SetCookie}

/-- A composition of handlers moves by the conditions of its parts. -/
theorem moves_then {handler : Handler β} {rest : β → Handler α}
    (first : Moves rely
      (fun site before after left => Q site before after (left >>= goOn rest))
      (fun reply => EndsIn F (goOn rest reply))
      (fun reply db => Moves rely Q F post (goOn rest reply) db) (handler.run.run cookie) db) :
    Moves rely Q F post ((handler >>= rest).run.run cookie) db := by
  have unfolded : (handler >>= rest).run.run cookie =
      (handler.run.run cookie) >>= goOn rest :=
    rfl
  rw [unfolded]
  exact moves_bind first

theorem moves_query {site : Site} {statement : Sql α}
    (committed : ∀ before value after, rely db before →
      statement before = .ok (value, after) →
        Q site before after (.done (.ok value, cookie)) ∧ post (.ok value, cookie) after)
    (aborted : ∀ before, Q site before before (.done (.error "Internal server error", cookie)))
    (failed : F (.error "Internal server error", cookie))
    (refused : ∀ later, post (.error "Internal server error", cookie) later) :
    Moves rely Q F post ((query site statement).run.run cookie) db := by
  intro before grown
  refine ⟨?_, fun failure => ⟨?_, refused before⟩⟩
  · cases ran : statement before with
    | error failure =>
        rw [answer_of_error ran, effect_of_error ran]
        exact ⟨aborted before, refused before⟩
    | ok pair =>
        rw [answer_of_ok ran, effect_of_ok ran]
        exact committed before pair.1 pair.2 grown ran
  · rintro reply ⟨⟩
    exact failed

/-- Finding the account of a session changes nothing. -/
theorem moves_requireUser
    {Q : Site → Database → Database → Program Database Site DbError (Reply User) → Prop}
    {F : Reply User → Prop} {post : Reply User → Database → Prop}
    (finds : ∀ site before left, Q site before before left) (ends : ∀ reply, F reply)
    (signedIn : ∀ later me, SignedIn ctx later me → post (.ok me, cookie) later)
    (refused : ∀ later message, post (.error message, cookie) later) :
    Moves rely Q F post ((requireUser ctx).run.run cookie) db := by
  have obeys : Serves Free (fun _ before after => after = before) post (requireUser ctx)
      cookie db :=
    serves_requireUser (fun _ _ _ _ => rfl) (fun later me _ => signedIn later me)
      fun later message _ => refused later message
  refine moves_of_obeys ?_ ends obeys
  rintro site before after left rfl
  exact finds site after left

end Rules

/-- While the accounts keep their names, a call of the request answers no bodies but those
it reads, and stores none but those it saves, for the account its session names. -/
def Faithful (request : Request) (program : Program Database Site DbError (Reply Response)) :
    Prop :=
  EndsIn (fun reply => ¬ Concerns request reply) program ∧ ∀ db,
    Moves KeepsUsers (Files request) (fun reply => ¬ Concerns request reply) (fun _ _ => True)
      program db

/-- A call that finds its account, and nothing about bodies with it. -/
theorem faithful_account {α : Type} {request : Request} {handler : User → Handler α}
    (respond : α → Response)
    (silent : ∀ me cookie, EndsIn (fun reply => ¬ Concerns request reply)
      ((handler me).run.run cookie >>= goOn fun value => pure (respond value)))
    (later : ∀ db me, SignedIn ctx db me → Moves KeepsUsers
      (fun site before after left => Files request site before after
        (left >>= goOn fun value => pure (respond value)))
      (fun reply => EndsIn (fun reply => ¬ Concerns request reply)
        (goOn (fun value => pure (respond value)) reply))
      (fun _ _ => True) ((handler me).run.run none) db) :
    Faithful request
      (((requireUser ctx >>= handler) >>= fun value => pure (respond value)).run.run none) := by
  have quiet : ∀ reply : Reply User, EndsIn (fun reply => ¬ Concerns request reply)
      (goOn handler reply >>= goOn fun value => pure (respond value)) := by
    rintro ⟨message | me, cookie⟩
    · rintro reply ⟨⟩
      exact not_concerns_error request message cookie
    · exact silent me cookie
  have ends : ∀ program : Program Database Site DbError (Reply User),
      EndsIn (fun reply => ¬ Concerns request reply)
        ((program >>= goOn handler) >>= goOn fun value => pure (respond value)) := by
    intro program
    rw [ends_bind, ends_bind]
    exact fun reply _ => ends_bind.mp (quiet reply)
  refine ⟨ends _, fun db => moves_then (moves_then (moves_requireUser ?_ ?_ ?_ ?_))⟩
  · exact fun site before left => files_of_leaves (ends left) ⟨rfl, .refl before⟩
  · exact fun reply => ends_bind.mp (quiet reply)
  · intro found me signedIn
    refine (later found me signedIn).mono ?_
    rintro ⟨message | value, cookie⟩ store - <;> trivial
  · exact fun _ _ => trivial

theorem faithful_entryLoad (ctx : AppCtx) (date : String) :
    Faithful (.endpoint ctx (.entryLoad date))
      (serve wa (.endpoint ctx (.entryLoad date))) := by
  refine faithful_account Response.body (fun me cookie => ?_) fun db me signedIn => ?_
  · unfold parseDate
    cases parseIso date with
    | none =>
        rintro reply ⟨⟩
        exact not_concerns_error _ _ _
    | some day => exact nofun
  · unfold parseDate
    cases parsed : parseIso date with
    | none => trivial
    | some day =>
        apply moves_query
        · rintro before body after grown ⟨⟩
          refine ⟨⟨.refl before, fun _ => rfl, nofun, ?_⟩, trivial⟩
          rintro reply ⟨⟩ -
          rw [← toIso_of_parseIso parsed]
          exact ⟨me.id, named_of_signedIn signedIn grown, .load ctx (toIso day) none⟩
        · exact fun before => files_refused
        · rintro reply ⟨⟩
          exact not_concerns_error _ _ _
        · exact fun _ => trivial

/-- A range shows each day in it that has a body, with its body. -/
theorem mem_entriesInRange {db : Database} {userId : Int} {start stop : NaiveDate}
    {entries : List (NaiveDate × String)} {after : Database}
    (ran : Store.entriesInRange userId start stop db = .ok (entries, after)) (day body : String) :
    (day, body) ∈ entries.map (fun (date, body) => (toIso date, body)) ↔
      InRange (toIso start) (toIso stop) day ∧ bodyOf db userId day = some body := by
  cases ran
  rw [bodyOf_eq_some]
  simp only [List.mem_map, List.mem_filterMap, Option.map_eq_some_iff, mem_rowsInRange]
  constructor
  · rintro ⟨_, ⟨row, ⟨member, owner, opens, closes⟩, date, parsed, rfl⟩, same⟩
    obtain ⟨rfl, rfl⟩ := Prod.mk.inj same
    rw [toIso_of_parseIso parsed]
    exact ⟨⟨opens, closes, by rw [parsed]; rfl⟩, row, member, owner, rfl, rfl⟩
  · rintro ⟨⟨opens, closes, real⟩, row, member, owner, rfl, rfl⟩
    obtain ⟨date, parsed⟩ := Option.isSome_iff_exists.mp real
    refine ⟨(date, row.body), ⟨row, ⟨member, owner, opens, closes⟩, date, parsed, rfl⟩, ?_⟩
    rw [toIso_of_parseIso parsed]

theorem faithful_entriesInRange (ctx : AppCtx) (first last : String) :
    Faithful (.endpoint ctx (.entriesInRange first last))
      (serve wa (.endpoint ctx (.entriesInRange first last))) := by
  refine faithful_account Response.entries (fun me cookie => ?_) fun db me signedIn => ?_
  · obtain ⟨message, refused⟩ | ⟨start, stop, -, -, read⟩ := parseRange_cases first last
    · rw [refused]
      rintro reply ⟨⟩
      exact not_concerns_error _ _ _
    · rw [read]
      exact nofun
  · obtain ⟨message, refused⟩ | ⟨start, stop, rfl, rfl, read⟩ := parseRange_cases first last
    · rw [refused]
      trivial
    · rw [read]
      show Moves _ _ _ _ ((query (.entriesInRange me.id)
        (Store.entriesInRange me.id start stop) >>= fun entries =>
          pure (entries.map fun (date, body) => (toIso date, body))).run.run none) _
      apply moves_then
      apply moves_query
      · intro before entries after grown ran
        refine ⟨⟨?_, fun _ => ?_, nofun, ?_⟩, trivial⟩
        · cases ran
          exact .refl _
        · cases ran
          rfl
        · rintro reply ⟨⟩ -
          exact ⟨me.id, named_of_signedIn signedIn grown, .range ctx none (mem_entriesInRange ran)⟩
      · exact fun before => files_refused
      · rintro reply ⟨⟩ reply ⟨⟩
        exact not_concerns_error _ _ _
      · exact fun _ => trivial

theorem faithful_entrySave (ctx : AppCtx) (date body : String) :
    Faithful (.endpoint ctx (.entrySave date body))
      (serve wa (.endpoint ctx (.entrySave date body))) := by
  refine faithful_account (fun _ => Response.done) (fun me cookie => ?_) fun db me signedIn => ?_
  · unfold parseDate
    cases parseIso date with
    | none =>
        rintro reply ⟨⟩
        exact not_concerns_error _ _ _
    | some day =>
        show EndsIn _ ((if body.utf8ByteSize > MAX_BODY_BYTES then _ else _ : Handler Unit).run.run
          cookie >>= _)
        split
        · rintro reply ⟨⟩
          exact not_concerns_error _ _ _
        · exact nofun
  · unfold parseDate
    cases parsed : parseIso date with
    | none => trivial
    | some day =>
        show Moves _ _ _ _ ((if body.utf8ByteSize > MAX_BODY_BYTES then _ else _ :
          Handler Unit).run.run none) _
        split
        · trivial
        · show Moves _ _ _ _ ((query (.saveEntry me.id)
            (saveTransaction me.id day body ctx.now) >>= refuse).run.run none) _
          apply moves_then
          apply moves_query
          · intro before outcome after grown ran
            obtain ⟨⟨message, rfl⟩, rfl⟩ | ⟨rfl, saved⟩ := saveTransaction_cases ran
            · exact ⟨files_refused, trivial⟩
            · rw [toIso_of_parseIso parsed] at saved
              have reports : saved? (.endpoint ctx (.entrySave date body)) before
                  (.done (.ok Response.done, none)) = some (me.id, date, body) :=
                congrArg (Option.map fun userId => (userId, date, body))
                  (named_of_signedIn signedIn grown)
              refine ⟨⟨.of_users saved.users, ?_, ?_, fun reply _ shows => shows.elim⟩, trivial⟩
              · exact fun unsaved => absurd (reports.symm.trans unsaved) nofun
              · intro userId entryDate stored reported
                cases Option.some.inj (reports.symm.trans reported)
                exact saved
          · exact fun before => files_refused
          · rintro reply ⟨⟩ reply ⟨⟩
            exact not_concerns_error _ _ _
          · exact fun _ => trivial

theorem faithful_request (request : Request) : Faithful request (serve wa request) := by
  have quiet : ∀ request : Request,
      (∀ ctx date body, request ≠ .endpoint ctx (.entrySave date body)) →
      (∀ reply, ¬ Concerns request reply) → Faithful request (serve wa request) := by
    intro request other silent
    refine ⟨fun reply _ => silent reply, fun db => ?_⟩
    have obeys : Serves Free (fun _ => Leaves) (fun _ _ => True) (request.handler wa) none db :=
      serves_leaves other
    refine moves_of_obeys ?_ silent obeys
    exact fun site before after rest leaves => files_of_leaves (fun reply _ => silent reply) leaves
  cases request with
  | endpoint ctx asked =>
      cases asked with
      | entryLoad date => exact faithful_entryLoad ctx date
      | entriesInRange first last => exact faithful_entriesInRange ctx first last
      | entrySave date body => exact faithful_entrySave ctx date body
      | _ => exact quiet _ nofun fun _ => id
  | _ => exact quiet _ nofun fun _ => id

end Statements

/-! ## The bodies last accepted -/

/-- What a step makes the server accept. -/
def accepted? (service next : Requests) : Event → Option (Int × String × String)
  | .execute id =>
      (next.calls id).bind fun call => saved? call.request service.store call.rest
  | _ => none

/-- The saves accepted along a run, the oldest first. -/
def accepted (wa : Webauthn) (service : Requests) : List Event → List (Int × String × String)
  | [] => []
  | event :: rest =>
      match step (serve wa) service event with
      | none => []
      | some next => (accepted? service next event).toList ++ accepted wa next rest

/-- The body last accepted for one user and day. -/
def lastAccepted (saves : List (Int × String × String)) (userId : Int) (day : String) :
    Option String :=
  (saves.reverse.find? fun save => save.1 = userId && save.2.1 = day).map fun save => save.2.2

section Runs

variable {wa : Webauthn} {service next : Requests} {saves : List (Int × String × String)}

theorem lastAccepted_concat (saves : List (Int × String × String)) (userId : Int)
    (day body : String) (other : Int) (date : String) :
    lastAccepted (saves ++ [(userId, day, body)]) other date =
      if userId = other ∧ day = date then some body else lastAccepted saves other date := by
  unfold lastAccepted
  rw [List.reverse_append, List.reverse_singleton, List.singleton_append, List.find?_cons]
  by_cases same : userId = other ∧ day = date
  · simp [same]
  · rw [if_neg same]
    have skipped : (userId = other && day = date : Bool) = false := by simpa using same
    simp only [skipped]

/-- The server holds the bodies last accepted, and every call keeps to the rules. -/
structure Holds (saves : List (Int × String × String)) (service : Requests) : Prop where
  bodies : ∀ userId day, bodyOf service.store userId day = lastAccepted saves userId day
  moving : service.Moving KeepsUsers Files fun request reply => ¬ Concerns request reply

theorem holds_idle : Holds [] (.idle .empty) := by
  constructor
  · exact fun _ _ => rfl
  · nofun

/-- One step: the saves it accepts are stored, and the answer it gives is an echo of the
bodies of the account its session names. -/
theorem Holds.step (holds : Holds saves service) {event : Event}
    (taken : step (serve wa) service event = some next) :
    Holds (saves ++ (accepted? service next event).toList) next ∧
      ∀ request reply, next.answered? event.call = some (request, reply) →
        Shows request reply → ∃ id userId, event = .execute id ∧
          request.account? service.store = some userId ∧
          Echo (lastAccepted saves userId) request reply := by
  obtain ⟨moving, ⟨same, other, request, rest, found, ends⟩ |
    ⟨id, site, request, rest, rfl, -, found, files⟩⟩ :=
    step_moves KeepsUsers.refl KeepsUsers.trans (fun _ _ _ _ _ files => files.users)
      (fun request db => ⟨(faithful_request request).1, (faithful_request request).2 db⟩)
      holds.moving taken
  · -- the request arrives, or its statement fails
    have nothing : accepted? service next event = none := by
      cases event with
      | execute id => exact absurd rfl (other id)
      | _ => rfl
    refine ⟨⟨fun userId day => ?_, moving⟩, ?_⟩
    · rw [nothing, same, Option.toList_none, List.append_nil]
      exact holds.bodies userId day
    · intro asked reply answered shows
      rw [answered?_eq_some, found] at answered
      cases answered
      exact absurd (concerns_of_shows shows) (ends reply rfl)
  · have stores : accepted? service next (.execute id) =
        saved? request service.store rest := by
      simp only [accepted?, found, Option.bind_some]
    refine ⟨⟨fun userId day => ?_, moving⟩, ?_⟩
    · rw [stores]
      cases saved : saved? request service.store rest with
      | none =>
          rw [Option.toList_none, List.append_nil, ← holds.bodies userId day, bodyOf,
            files.kept saved, bodyOf]
      | some save =>
          obtain ⟨owner, date, body⟩ := save
          have kept := files.stored owner date body saved
          rw [Option.toList_some, lastAccepted_concat]
          split
          · next own =>
              obtain ⟨rfl, rfl⟩ := own
              exact kept.stored
          · next apart => rw [kept.frame userId day apart, holds.bodies userId day]
    · intro asked reply answered shows
      rw [answered?_eq_some, Event.call, found] at answered
      cases answered
      obtain ⟨userId, mine, echo⟩ := files.echoes reply rfl shows
      rw [funext (holds.bodies userId)] at echo
      exact ⟨id, userId, rfl, mine, echo⟩

theorem Holds.run (holds : Holds saves service) {events : List Event}
    (ran : runFrom (Serving.step (serve wa)) service events = some next) :
    Holds (saves ++ accepted wa service events) next := by
  induction events generalizing saves service with
  | nil =>
      cases ran
      rwa [accepted, List.append_nil]
  | cons event rest ih =>
      obtain ⟨middle, taken, ran⟩ := runFrom_cons_eq_some.mp ran
      have later := ih (holds.step taken).1 ran
      rw [List.append_assoc] at later
      simpa only [accepted, taken] using later

/-- Every answer that shows bodies shows the ones last accepted for the account that the
session of its request names, when the call read them and answered. -/
def Echoes (wa : Webauthn) (events : List Event) (last : Requests) : Prop :=
  ∀ id request reply, last.answered? id = some (request, reply) → Shows request reply →
    ∃ past later before after userId, events = past ++ .execute id :: later ∧
      runFrom (step (serve wa)) (.idle .empty) past = some before ∧
      step (serve wa) before (.execute id) = some after ∧
      before.answered? id = none ∧ after.answered? id = some (request, reply) ∧
      request.account? before.store = some userId ∧
      Echo (lastAccepted (accepted wa (.idle .empty) past) userId) request reply

theorem echoes_of_run {events : List Event}
    (ran : runFrom (step (serve wa)) (.idle .empty) events = some next) :
    Echoes wa events next := by
  intro id request reply answered shows
  obtain ⟨past, event, later, before, after, rfl, reached, taken, rfl, pending, ended, -⟩ :=
    answered_at ran rfl answered
  have holds := holds_idle.run reached
  obtain ⟨id, userId, rfl, mine, echo⟩ := (holds.step taken).2 request reply ended shows
  exact ⟨past, later, before, after, userId, rfl, reached, taken, pending, ended, mine, echo⟩

/-- No body reaches a decision of the server. -/
theorem setting (wa : Webauthn) :
    Setting (serve wa) (fun _ : Nat => true) (fun _ _ => True) (fun _ _ => True) Eq
      SameButBodies SameRequest (RepliesAlike (SameResponse withoutBodies)) where
  rely_refl _ := trivial
  rely_trans _ _ := trivial
  keeps_refl _ := rfl
  keeps_left same kept := kept ▸ same
  keeps_right same kept := kept ▸ same
  serves _ _ _ _ :=
    obeys_of_forall (fun _ _ _ => ⟨trivial, fun other => nomatch other⟩) fun _ _ => trivial
  twins _ _ _ _ _ _ same := agree_request same none

/-- Two runs with the same requests but for the bodies of their saves, each as long as
the other's: they decide the same and leave the same database but for the bodies, and
each of them answers the bodies last accepted in it. -/
theorem bodies_are_echoed (wa : Webauthn) {events events' : List Event}
    (same : List.Forall₂ (SameEvent SameRequest) events events') {last last' : Requests}
    (ran : runFrom (step (serve wa)) (.idle .empty) events = some last)
    (ran' : runFrom (step (serve wa)) (.idle .empty) events' = some last') :
    SameButBodies last.store last'.store ∧
      (∀ id, Option.Rel (fun first second => SameRequest first.1 second.1 ∧
        RepliesAlike (SameResponse withoutBodies) first.2 second.2)
        (last.answered? id) (last'.answered? id)) ∧
      Echoes wa events last ∧ Echoes wa events' last' := by
  have every : ∀ events : List Event, eventsOf (fun _ => true) events = events :=
    fun events => List.filter_eq_self.mpr fun _ _ => rfl
  have start : Pair (fun _ => true) (fun _ _ => True) Eq SameButBodies SameRequest
      (RepliesAlike (SameResponse withoutBodies)) (.idle .empty : Requests) (.idle .empty) :=
    ⟨.refl _, fun _ _ => Option.Rel.none, nofun, nofun⟩
  have paired := start.run (setting wa) (fun _ _ _ => trivial) (fun _ _ _ => trivial)
    (by rwa [every, every]) ran ran'
  exact ⟨paired.stores, fun id => paired.answered rfl, echoes_of_run ran, echoes_of_run ran'⟩

end Runs

/-! ## A sealed body and a plain one -/

def alice : AppCtx where
  claims := some { email := "alice@example.com", epoch := 0 }
  passkeyState := none
  now := 3

/-- Alice signs in, turns encryption on, saves a day and reads it back. -/
def savesAndLoads (body : String) : List Event :=
  [.start 0 (.magicSignIn "alice@example.com" 0), .execute 0,
    .start 1 (.endpoint alice (.encryptionEnable none (List.replicate WRAPPED_KEY_LEN 1))),
    .execute 1, .execute 1,
    .start 2 (.endpoint alice (.entrySave "2026-07-30" body)), .execute 2,
    .start 3 (.endpoint alice (.entryLoad "2026-07-30")), .execute 3, .execute 2, .execute 3]

theorem bodies_are_echoed_savesAndLoads :
    ∃ last last',
      runFrom (step (serve plainWebauthn)) (.idle .empty) (savesAndLoads "v2.") = some last ∧
      runFrom (step (serve plainWebauthn)) (.idle .empty) (savesAndLoads "abc") = some last' ∧
      (last.answered? 3).map Prod.snd = some (.ok (.body (some "v2.")), none) ∧
      (last'.answered? 3).map Prod.snd = some (.ok (.body (some "abc")), none) ∧
      SameButBodies last.store last'.store := by
  have same : List.Forall₂ (SameEvent SameRequest) (savesAndLoads "v2.")
      (savesAndLoads "abc") := by
    have refl : ∀ event : Event, SameEvent SameRequest event event :=
      SameEvent.refl SameRequest.refl
    repeat' first
      | exact .nil
      | refine .cons (.start 2 (.entrySave alice "2026-07-30" (by decide))) ?_
      | refine .cons (refl _) ?_
  refine ⟨_, _, rfl, rfl, rfl, rfl, ?_⟩
  exact (bodies_are_echoed plainWebauthn same rfl rfl).1

end TimeTracker.Server.Opaque
