import TimeTracker.Storage.Envelopes
import TimeTracker.Date

/-!
# The persistent storage seam

What reading one stored row and writing one body come down to, before and
around the backend call: which key is used, which envelope is written, and the
writes that must never reach a backend.
-/

namespace TimeTracker.Storage.Seam

open TimeTracker.Text
open TimeTracker.Date
open TimeTracker.Crypto.Wire
open TimeTracker.Crypto.Subtle
open TimeTracker.Tab.State
open TimeTracker.Storage.Envelopes

/-- The key every pre-dated entry was stored under. -/
def LEGACY_KEY : String := "time_entry"

/-- Identifies one stored document. -/
inductive StorageKey
  | timeEntry (date : NaiveDate)
  deriving DecidableEq

namespace StorageKey

/-- The key as written to the underlying store. -/
def asKey : StorageKey → String
  | .timeEntry date => LEGACY_KEY ++ ":" ++ toIso date

/-- The day this key addresses. -/
def date : StorageKey → NaiveDate
  | .timeEntry date => date

/-- The inverse of `asKey`, or `none` for a string that does not name a stored day. -/
def parse (raw : String) : Option StorageKey := do
  let rest ← stripPrefix LEGACY_KEY raw
  let date ← stripPrefix ":" rest
  (parseIso date).map .timeEntry

theorem parse_eq_some {raw : String} {key : StorageKey} :
    parse raw = some key ↔ raw = key.asKey := by
  obtain ⟨date⟩ := key
  simp only [parse, Option.bind_eq_bind, Option.bind_eq_some_iff, Option.map_eq_some_iff,
    stripPrefix_eq_some, timeEntry.injEq]
  constructor
  · rintro ⟨rest, rfl, text, rfl, date, parsed, rfl⟩
    rw [asKey, toIso_of_parseIso parsed, String.append_assoc]
  · rintro rfl
    exact ⟨":" ++ toIso date, by rw [asKey, String.append_assoc], toIso date, rfl, date,
      parseIso_toIso date, rfl⟩

theorem asKey_injective : Function.Injective asKey := by
  intro first second same
  have parsed : parse second.asKey = some second := parse_eq_some.mpr rfl
  rw [← same, parse_eq_some.mpr rfl] at parsed
  exact Option.some.inj parsed

/-- The undated key is no day's. -/
theorem asKey_ne_legacy (key : StorageKey) : key.asKey ≠ LEGACY_KEY := by
  intro same
  have longer := congrArg String.length same
  rw [asKey, String.length_append, String.length_append] at longer
  have colon : ":".length = 1 := rfl
  omega

end StorageKey

/-- Something went wrong reaching or interpreting the backing store. -/
inductive StorageError
  | unavailable
  | decode (key : String)
  | envelope (key : String) (source : EnvelopeError)
  | locked (key : String)
  | encryptionRequired (key : String)
  | crypto (key : String) (detail : CryptoError)
  | write (key : String)
  | server (message : String)
  deriving DecidableEq, Repr

/-- What reading one stored row comes down to.  A sealed row without a key is
not among the cases. -/
inductive RowRead (K : Type)
  | plaintext (body : String)
  | sealed (session : SessionKey K) (body : Sealed)
  deriving DecidableEq, Repr

/-- Where a write is going; there is no unsealed way to the server. -/
inductive WriteTarget (K : Type)
  | localStorage
  | remote (session : SessionKey K)
  deriving DecidableEq, Repr

section Seam

variable {K : Type}

/-- Decides what reading one stored row requires, before any key is used. -/
def decideRow (platform : Platform K) (raw : String)
    (session : Option (SessionKey K)) (key : StorageKey) :
    Except StorageError (RowRead K) :=
  match planRead platform.formats raw, session with
  | .error source, _ => .error (.envelope key.asKey source)
  | .ok (.plaintext body), _ => .ok (.plaintext body)
  | .ok (.sealed body), some session => .ok (.sealed session body)
  | .ok (.sealed _), none => .error (.locked key.asKey)

/-- Carries out what `decideRow` decided. -/
def openRow (platform : Platform K) (read : RowRead K) (key : StorageKey) :
    Except StorageError String :=
  match read with
  | .plaintext body => .ok body
  | .sealed session body =>
      (openBody platform.cipher session.key body).mapError (.crypto key.asKey)

/-- The text of one stored row. -/
def readRow (platform : Platform K) (raw : String)
    (session : Option (SessionKey K)) (key : StorageKey) :
    Except StorageError String := do
  openRow platform (← decideRow platform raw session key) key

/-- A row that cannot be read costs its own day and nothing more. -/
def keepRow {T : Type} (date : NaiveDate) : Except StorageError T → Option (NaiveDate × T)
  | .ok value => some (date, value)
  | .error _ => none

/-- Every stored body a range read could open, and whether it had to leave any
sealed, or met one that would not open. -/
structure RangeRead where
  rows : List (NaiveDate × String)
  isSealed : Bool
  unopenable : Bool
  deriving DecidableEq

def StorageError.isLocked : StorageError → Bool
  | .locked _ => true
  | _ => false

def StorageError.isCrypto : StorageError → Bool
  | .crypto _ _ => true
  | _ => false

def failedWith {T : Type} (kind : StorageError → Bool) : Except StorageError T → Bool
  | .ok _ => false
  | .error error => kind error

/-- Goes through the rows of a range, keeping the ones that can be read, and notes
whether one failed like this. -/
def keepRows {S T : Type} (read : NaiveDate × S → Except StorageError T)
    (kind : StorageError → Bool) (rows : List (NaiveDate × S)) : List (NaiveDate × T) × Bool :=
  rows.foldl (fun (kept, seen) row =>
    (kept ++ (keepRow row.1 (read row)).toList, seen || failedWith kind (read row)))
    ([], false)

/-- Decides every row of a range read, dropping the ones that cannot be read at all;
and whether one was sealed against a session without a key. -/
def decideRows (platform : Platform K) (rows : List (NaiveDate × String))
    (session : Option (SessionKey K)) : List (NaiveDate × RowRead K) × Bool :=
  keepRows (fun row => decideRow platform row.2 session (.timeEntry row.1))
    StorageError.isLocked rows

/-- What carries out the decision on one row. -/
abbrev Opener (K : Type) := RowRead K → StorageKey → Except StorageError String

/-- Opens every decided row, dropping the ones that will not open; and whether there
was one. -/
def openRows (opener : Opener K) (rows : List (NaiveDate × RowRead K)) :
    List (NaiveDate × String) × Bool :=
  keepRows (fun row => opener row.2 (.timeEntry row.1)) StorageError.isCrypto rows

/-- What a range read makes of the rows its backend found. -/
def readRange (platform : Platform K) (rows : List (NaiveDate × String))
    (session : Option (SessionKey K)) : RangeRead :=
  let (decided, isSealed) := decideRows platform rows session
  let (opened, unopenable) := openRows (openRow platform) decided
  { rows := opened, isSealed, unopenable }

/-- The key the body is sealed under, if any. -/
def WriteTarget.sealing : WriteTarget K → Option (SessionKey K)
  | .localStorage => none
  | .remote session => some session

/-- Pairs the backend with what the session can do, refusing the two
combinations that must never reach a backend. -/
def writeTarget (backend : Backend) (key : StorageKey) (session : WriteKey K) :
    Except StorageError (WriteTarget K) :=
  match session, backend with
  | .locked, _ => .error (.locked key.asKey)
  | .plaintext, .localStorage => .ok .localStorage
  | .sealed _, .localStorage => .ok .localStorage
  | .sealed session, .remote => .ok (.remote session)
  | .plaintext, .remote => .error (.encryptionRequired key.asKey)

variable {platform : Platform K} {nonce : Bytes}

/-- A body sealed under a session's key reads back under the same data key,
whoever the session says the key belongs to. -/
theorem readRow_wrap {writer reader : SessionKey K} (same : writer.key = reader.key)
    (fits : nonce.length = NONCE_LEN) (body : String) (key : StorageKey) :
    readRow platform (wrap platform nonce body (some writer)) (some reader) key =
      .ok body := by
  have plan : planRead platform.formats (wrap platform nonce body (some writer)) =
      .ok (.sealed (sealBody platform.cipher writer.key nonce body)) :=
    planRead_encodeV2 platform.formats fits
  simp [readRow, decideRow, plan, openRow, same, bind, Except.bind, Except.mapError]

/-- The loop keeps what each row reads as by itself. -/
theorem keepRows_eq {S T : Type} {read : NaiveDate × S → Except StorageError T}
    {kind : StorageError → Bool} {rows : List (NaiveDate × S)} :
    keepRows read kind rows =
      (rows.filterMap fun row => keepRow row.1 (read row),
        rows.any fun row => failedWith kind (read row)) := by
  have loop : ∀ (kept : List (NaiveDate × T)) (seen : Bool),
      rows.foldl (fun (kept, seen) row =>
          (kept ++ (keepRow row.1 (read row)).toList, seen || failedWith kind (read row)))
        (kept, seen) =
      (kept ++ rows.filterMap fun row => keepRow row.1 (read row),
        seen || rows.any fun row => failedWith kind (read row)) := by
    induction rows with
    | nil => simp
    | cons row rest ih =>
        intro kept seen
        rw [List.foldl_cons, ih, List.any_cons, Bool.or_assoc]
        cases kept' : keepRow row.1 (read row) <;> simp [kept']
  exact loop [] false

/-- Rows that are kept, each under its own day, keep their order. -/
theorem sublist_filterMap {S T : Type} {keep : S → Option (NaiveDate × T)} {day : S → NaiveDate}
    (same : ∀ row kept, keep row = some kept → kept.1 = day row) (rows : List S) :
    ((rows.filterMap keep).map Prod.fst).Sublist (rows.map day) := by
  induction rows with
  | nil => exact .slnil
  | cons row rest ih =>
      rw [List.filterMap_cons, List.map_cons]
      split
      · exact ih.cons _
      · next kept here =>
          rw [List.map_cons, same row kept here]
          exact ih.cons_cons _

theorem fst_of_keepRow {T : Type} {date : NaiveDate} {read : Except StorageError T}
    {kept : NaiveDate × T} (keeps : keepRow date read = some kept) : kept.1 = date := by
  cases read with
  | error error => cases keeps
  | ok value =>
      cases keeps
      rfl

theorem sublist_keepRows {S T : Type} {read : NaiveDate × S → Except StorageError T}
    {kind : StorageError → Bool} (rows : List (NaiveDate × S)) :
    ((keepRows read kind rows).1.map Prod.fst).Sublist (rows.map Prod.fst) := by
  rw [keepRows_eq]
  exact sublist_filterMap (fun _ _ keeps => fst_of_keepRow keeps) rows

/-- A range read shows days its backend found, in their order. -/
theorem sublist_readRange (rows : List (NaiveDate × String)) (session : Option (SessionKey K)) :
    ((readRange platform rows session).rows.map Prod.fst).Sublist (rows.map Prod.fst) :=
  (sublist_keepRows _).trans (sublist_keepRows rows)

/-- A remote write carries a key: the session was unlocked when it began. -/
theorem writeTarget_eq_remote {backend : Backend} {key : StorageKey}
    {state : EncryptionState K} {session : SessionKey K} :
    writeTarget backend key state.writeKey = .ok (.remote session) ↔
      backend = .remote ∧ state = .unlocked session := by
  cases state <;> cases backend <;> simp [writeTarget, EncryptionState.writeKey]

end Seam

end TimeTracker.Storage.Seam
