import TimeTracker.Library.Run
import TimeTracker.Storage.LocalStore
import TimeTracker.Storage.RoundTrip

/-!
# Writing around the legacy alias

The undated blob stands in for today as long as today has no value of its own.  A
store deletes the blob by the date alone, also when a dated value hides it; and a
clear takes the dated value away, and leaves the blob to stand in for what was
cleared.
-/

namespace TimeTracker.Storage.LegacyAlias

open TimeTracker.Text
open TimeTracker.Library
open TimeTracker.Library.Run
open TimeTracker.Date
open TimeTracker.Calendar
open TimeTracker.Crypto.Wire
open TimeTracker.Server.Schema
open TimeTracker.Server.Functions
open TimeTracker.Server.Execution
open TimeTracker.Server.Entries
open TimeTracker.Tab.State
open TimeTracker.Storage.Envelopes
open TimeTracker.Storage.Seam
open TimeTracker.Storage.Local
open TimeTracker.Storage.LocalStore
open TimeTracker.Storage.Hook (Nonce StoreTask)
open TimeTracker.Storage.RoundTrip (finish finish_store load_of_row)

/-! ## Runs on one device -/

/-- The browser's storage, and the day it is there. -/
structure Device where
  storage : LocalStorage
  today : NaiveDate

inductive Event (K : Type)
  | store (date : NaiveDate) (value : String) (session : WriteKey K) (nonce : Bytes)
      (faults : WriteFaults)
  | clear (date : NaiveDate) (session : WriteKey K) (faults : WriteFaults)
  | load (date : NaiveDate) (session : Option (SessionKey K)) (faults : Faults)
  /-- A later day begins. -/
  | dayBegins (day : NaiveDate)

section Runs

variable {K : Type} (platform : Platform K) (codec : Codec platform.formats)

/-- The contents after a store on this device. -/
def stored (device : Device) (date : NaiveDate) (value : String) (session : WriteKey K)
    (nonce : Bytes) (faults : WriteFaults) : LocalStorage :=
  (store platform codec nonce faults device.storage device.today (.timeEntry date) value
    session).2

def step (device : Device) : Event K → Option Device
  | .store date value session nonce faults =>
      some { device with storage := stored platform codec device date value session nonce faults }
  | .clear date session faults =>
      some { device with storage := (clear faults device.storage (.timeEntry date) session).2 }
  | .load _ _ _ => some device
  | .dayBegins day => if device.today.Before day then some { device with today := day } else none

/-- A store that deletes the legacy blob replaces the blob's own text: the blob stood in
for the day, and was what the day loaded as. -/
def DeletesSuperseded (device : Device) : Event K → Prop
  | .store date value session nonce faults =>
      blob device.storage ≠ none →
      blob (stored platform codec device date value session nonce faults) = none →
        legacyStandsInFor date device.today (datedItem device.storage date).isSome = true ∧
        loadLocal platform.formats .clear device.storage device.today (.timeEntry date) =
          aliased platform.formats (blob device.storage)
  | _ => True

/-- A store to today that nothing refuses and no call fails. -/
def WritesToday (device : Device) (date : NaiveDate) (session : WriteKey K)
    (faults : WriteFaults) : Prop :=
  date = device.today ∧ session ≠ .locked ∧ faults = .clear

/-- The store is not one to today while a value of today's own hides the blob. -/
def HiddenKept (device : Device) : Event K → Prop
  | .store date _ session _ faults =>
      WritesToday device date session faults → blob device.storage ≠ none →
        datedItem device.storage date = none
  | _ => True

variable {platform codec} {device : Device} {date : NaiveDate} {value : String}
  {session : WriteKey K} {nonce : Bytes} {faults : WriteFaults}

/-- The one way to lose the blob. -/
theorem blob_stored (writes : WritesToday device date session faults) :
    blob (stored platform codec device date value session nonce faults) = none := by
  obtain ⟨rfl, unlocked, rfl⟩ := writes
  rw [stored, store_eq_storeValue unlocked]
  obtain ⟨faulty, -⟩ | ⟨next, carried, -, -, -, blobs⟩ :=
    storeValue_cases codec .clear device.storage device.today device.today
      (wrapV1 platform.formats value)
  · exact absurd rfl faulty
  · rw [carried, blobs, if_pos ⟨rfl, rfl⟩]

theorem blob_stored_of_not (writes : ¬ WritesToday device date session faults) :
    blob (stored platform codec device date value session nonce faults) =
      blob device.storage := by
  by_cases unlocked : session = .locked
  · rw [unlocked]
    rfl
  rw [stored, store_eq_storeValue unlocked]
  obtain ⟨-, error, failed⟩ | ⟨next, carried, clear, -, -, blobs⟩ :=
    storeValue_cases codec faults device.storage device.today date
      (wrapV1 platform.formats value)
  · rw [failed]
  · have kept : ¬ (date = device.today ∧ faults.removeItem = false) :=
      fun removed => writes ⟨removed.1, unlocked, clear.mpr removed.2⟩
    rw [carried, blobs, if_neg kept]

/-- A store deletes only what it supersedes exactly when it is not one to today while a
value of today's own hides the blob. -/
theorem deletesSuperseded_iff (device : Device) (event : Event K) :
    DeletesSuperseded platform codec device event ↔ HiddenKept device event := by
  cases event with
  | store date value session nonce faults =>
      constructor
      · intro supersedes writes there
        obtain ⟨stands, -⟩ := supersedes there (blob_stored writes)
        simp only [legacyStandsInFor, Bool.and_eq_true, Bool.not_eq_true',
          Option.isSome_eq_false_iff, Option.isNone_iff_eq_none] at stands
        exact stands.2
      · intro kept there gone
        by_cases writes : WritesToday device date session faults
        · have alone := kept writes there
          have today := writes.1
          constructor
          · rw [alone]
            simp [legacyStandsInFor, today]
          · rw [loadLocal_clear, alone, resolved, if_pos today]
        · rw [blob_stored_of_not writes] at gone
          exact absurd gone there
  | _ => exact Iff.rfl

/-- In a run of stores, clears and loads, every store that deletes the legacy blob replaces
the blob's own text, exactly when none is made to today while a value of today's own hides
the blob. -/
theorem deletes_only_superseded_iff (platform : Platform K) (codec : Codec platform.formats)
    (device : Device) (events : List (Event K)) :
    StepsMeet (step platform codec) (DeletesSuperseded platform codec) device events ↔
      StepsMeet (step platform codec) HiddenKept device events :=
  ⟨StepsMeet.mono fun device event => (deletesSuperseded_iff device event).mp,
    StepsMeet.mono fun device event => (deletesSuperseded_iff device event).mpr⟩

/-- The blob is gone, or no day from today on has a value of its own. -/
def Unplanned (device : Device) : Prop :=
  blob device.storage = none ∨
    ∀ date, ¬ date.Before device.today → datedItem device.storage date = none

/-- Nothing is stored ahead of its day, and the removal of the blob does not fail. -/
def Prompt (device : Device) : Event K → Prop
  | .store date _ _ _ faults => ¬ device.today.Before date ∧ faults.removeItem = false
  | _ => True

theorem Unplanned.hiddenKept (unplanned : Unplanned device) (event : Event K) :
    HiddenKept device event := by
  cases event with
  | store date value session nonce faults =>
      intro writes there
      obtain gone | free := unplanned
      · exact absurd gone there
      · refine free date fun earlier => ?_
        rw [writes.1, before_iff] at earlier
        omega
  | _ => trivial

theorem Unplanned.step {event : Event K} {next : Device} (unplanned : Unplanned device)
    (prompt : Prompt device event) (taken : step platform codec device event = some next) :
    Unplanned next := by
  cases event with
  | store date value session nonce faults =>
      cases taken
      by_cases unlocked : session = .locked
      · subst unlocked
        exact unplanned
      rw [stored, store_eq_storeValue unlocked]
      obtain ⟨-, error, failed⟩ | ⟨next, carried, -, -, items, blobs⟩ :=
        storeValue_cases codec faults device.storage device.today date
          (wrapV1 platform.formats value)
      · rw [failed]
        exact unplanned
      rw [carried]
      by_cases today : date = device.today
      · exact .inl (by rw [blobs, if_pos ⟨today, prompt.2⟩])
      · refine unplanned.imp (fun gone => ?_) fun free other notBefore => ?_
        · rw [blobs, gone, ite_self]
        · have apart : other ≠ date := by
            rintro rfl
            obtain earlier | same | later := other.before_trichotomy device.today
            · exact notBefore earlier
            · exact today same
            · exact prompt.1 later
          exact (items other apart).trans (free other notBefore)
  | clear date session faults =>
      cases taken
      by_cases unlocked : session = .locked
      · subst unlocked
        exact unplanned
      rw [clear_eq_clearLocal unlocked]
      obtain ⟨error, failed⟩ | ⟨next, carried, cleared, items, blobs⟩ :=
        clearLocal_cases faults device.storage date
      · rw [failed]
        exact unplanned
      rw [carried]
      refine unplanned.imp blobs.trans fun free other notBefore => ?_
      by_cases same : other = date
      · rw [same]
        exact cleared
      · exact (items other same).trans (free other notBefore)
  | load date session faults =>
      cases taken
      exact unplanned
  | dayBegins day =>
      obtain ⟨later, same⟩ := Option.ite_none_right_eq_some.mp taken
      cases same
      refine unplanned.imp id fun free other notBefore => free other fun earlier => ?_
      dsimp only at notBefore
      rw [before_iff] at later notBefore earlier
      omega

/-- Where no day from today on has a value of its own yet, stores that are never ahead of
their day delete nothing but what they replace. -/
theorem deletes_superseded_of_prompt {events : List (Event K)} (unplanned : Unplanned device)
    (prompt : StepsMeet (LegacyAlias.step platform codec) Prompt device events) :
    StepsMeet (LegacyAlias.step platform codec) (DeletesSuperseded platform codec) device
      events :=
  StepsMeet.of_invariant (fun _ _ _ unplanned prompt taken => unplanned.step prompt taken)
    (fun device event unplanned _ => (deletesSuperseded_iff device event).mpr
      (unplanned.hiddenKept event)) unplanned prompt

end Runs

/-! ## A text that was never shown -/

open TimeTracker.Storage.Saves (mayFirst)

/-- Compact JSON with its string literals, strict base64, and the cipher that keeps the key
in the clear. -/
def documentPlatform : Platform Nat :=
  { formats := { json := Json.documents, base64 := Base64.standard }
    cipher := Aead.labelled }

/-- The literals of that JSON. -/
def literals : Codec documentPlatform.formats where
  encode text := String.ofList (Json.quoted text)
  read_encode text := by
    have reads : Json.readQuoted (Json.quoted text) = some (text, []) := by
      simpa using Json.readQuoted_quoted text []
    simp [documentPlatform, Json.documents, reads]

/-- A browser with the notes of before entries were dated. -/
def undated : LocalStorage where
  items := [(LEGACY_KEY, "\"old notes\"")]
  unique := List.nodup_singleton _

/-- The last day of April. -/
def aprilLast : NaiveDate :=
  ⟨2026, 4, 30, mayFirst.year_range, by decide, by decide⟩

/-- Tomorrow is planned ahead, and the plan is edited once tomorrow has come. -/
def plannedAhead : List (Event Nat) :=
  [.store mayFirst "plan" .plaintext [] .clear, .dayBegins mayFirst,
    .store mayFirst "done" .plaintext [] .clear]

/-- The old notes, which the plan hid, are deleted. -/
theorem plannedAhead_deletes_unseen :
    ¬ StepsMeet (step documentPlatform literals) (DeletesSuperseded documentPlatform literals)
      { storage := undated, today := aprilLast } plannedAhead := by
  intro meets
  have kept : StepsMeet (step documentPlatform literals) HiddenKept
      { storage := undated, today := aprilLast }
      (plannedAhead.take 2 ++ [.store mayFirst "done" .plaintext [] .clear]) :=
    StepsMeet.mono (fun device event => (deletesSuperseded_iff device event).mp) meets
  let planned := stored documentPlatform literals { storage := undated, today := aprilLast }
    mayFirst "plan" .plaintext [] .clear
  have ran : runFrom (step documentPlatform literals) { storage := undated, today := aprilLast }
      (plannedAhead.take 2) = some { storage := planned, today := mayFirst } := rfl
  obtain ⟨hides, -⟩ := (stepsMeet_append.mp kept).2 _ ran _ rfl
  have there : blob planned ≠ none := by decide +kernel
  have dated : datedItem planned mayFirst ≠ none := by decide +kernel
  exact dated (hides ⟨rfl, nofun, rfl⟩ there)

/-! ## A day cleared -/

section Clears

variable {K : Type}

/-- `storage::clear` on the server: the empty text is written. -/
def clearRemote (key : StorageKey) (session : WriteKey K) : StoreTask K :=
  Hook.store .remote key "" session

variable {platform : Platform K} {faults : WriteFaults} {storage next : LocalStorage}
  {today date : NaiveDate} {session : WriteKey K}

/-- What a clear on this device leaves behind. -/
theorem clear_eq_ok
    (cleared : clear faults storage (.timeEntry date) session = (.ok (), next)) :
    datedItem next date = none ∧
      (∀ other, other ≠ date → datedItem next other = datedItem storage other) ∧
      blob next = blob storage := by
  by_cases unlocked : session = .locked
  · subst unlocked
    cases cleared
  rw [clear_eq_clearLocal unlocked] at cleared
  obtain ⟨error, failed⟩ | ⟨next', carried, gone, items, blobs⟩ :=
    clearLocal_cases faults storage date
  · cases failed.symm.trans cleared
  · cases carried.symm.trans cleared
    exact ⟨gone, items, blobs⟩

/-- A save that was answered with success was stored for the account of its session. -/
theorem saved_of_stored {nonce : Nonce} {ctx : AppCtx} {db after : Database} {key : StorageKey}
    {value : String} {writer : SessionKey K} {task : StoreTask K}
    (ran : finish platform nonce ctx db (Hook.store .remote key value (.sealed writer)) =
      some (task, after)) (stored : task.Stored) :
    ∃ me, SignedIn ctx db me ∧
      Saved me.id (toIso key.date) (wrap platform nonce.val value (some writer)) db after := by
  cases (finish_store nonce ctx db key value writer).symm.trans ran
  obtain ⟨⟨message, refused⟩, -⟩ | ⟨-, me, signedIn, saved⟩ :=
    ensures_entrySave_saved ctx (toIso key.date)
      (wrap platform nonce.val value (some writer)) db [] none none
  · simp only [StoreTask.Stored] at stored
    rw [refused] at stored
    cases stored
  · exact ⟨me, signedIn, saved⟩

/-- On the device, a clear that succeeds leaves the day with nothing stored and every other
day as it was, exactly when the legacy blob does not stand by for it; on the server it
leaves the empty text and every other row as it was. -/
theorem clear_clears_iff (platform : Platform K) :
    (∀ faults storage today date (session : WriteKey K) next,
      clear faults storage (.timeEntry date) session = (.ok (), next) →
        (((∀ reader, load platform .clear next today (.timeEntry date) reader = .ok none) ∧
          ∀ other, other ≠ date → ∀ reader,
            load platform .clear next today (.timeEntry other) reader =
              load platform .clear storage today (.timeEntry other) reader) ↔
          ¬ (date = today ∧ blob storage ≠ none))) ∧
    ∀ date writer nonce ctx db task after,
      finish platform nonce ctx db (clearRemote (.timeEntry date) (.sealed writer)) =
          some (task, after) → task.Stored →
        ∃ me, SignedIn ctx db me ∧
          (∀ ctx', SignedIn ctx' after me →
            RoundTrip.load platform ctx' none after (.timeEntry date) (some writer) =
              .ok (some "")) ∧
          ∀ user day, ¬ (user = me.id ∧ day = toIso date) →
            bodyOf after user day = bodyOf db user day := by
  constructor
  · intro faults storage today date session next cleared
    obtain ⟨gone, items, blobs⟩ := clear_eq_ok cleared
    have frame : ∀ other, other ≠ date → ∀ reader,
        load platform .clear next today (.timeEntry other) reader =
          load platform .clear storage today (.timeEntry other) reader :=
      fun other apart _ => load_congr (items other apart) fun _ => blobs
    constructor
    · rintro ⟨nothing, -⟩ ⟨here, there⟩
      exact there (blobs ▸ (load_eq_none_iff.mp (nothing none)).2 here)
    · intro apart
      refine ⟨fun reader => load_eq_none_iff.mpr ⟨gone, fun here => ?_⟩, frame⟩
      rw [blobs]
      by_contra there
      exact apart ⟨here, there⟩
  · intro date writer nonce ctx db task after ran stored
    obtain ⟨me, signedIn, saved⟩ := saved_of_stored ran stored
    refine ⟨me, signedIn, fun ctx' signedIn' => ?_, fun user day apart => ?_⟩
    · rw [load_of_row signedIn' saved.stored, readRow_wrap rfl nonce.property]
      rfl
    · exact saved.frame user day fun same => apart ⟨same.1.symm, same.2.symm⟩

end Clears

/-- The old notes are what today loads as after it was cleared. -/
theorem cleared_comes_back :
    ∃ next, clear .clear undated (.timeEntry mayFirst) (.plaintext : WriteKey Nat) =
        (.ok (), next) ∧
      load documentPlatform .clear next mayFirst (.timeEntry mayFirst) none =
        .ok (some "old notes") ∧
      load documentPlatform .clear next mayFirst (.timeEntry mayFirst) none ≠ .ok none := by
  have shown : load documentPlatform .clear
      (clear .clear undated (.timeEntry mayFirst) (.plaintext : WriteKey Nat)).2 mayFirst
        (.timeEntry mayFirst) none = .ok (some "old notes") := by
    decide +kernel
  exact ⟨_, rfl, shown, fun nothing => by cases shown.symm.trans nothing⟩

end TimeTracker.Storage.LegacyAlias
