import TimeTracker.Library.Run
import TimeTracker.Storage.Hook

/-!
# Saves in flight

Every keystroke spawns its own store task: the body is sealed, and then sent to
the server, which replaces the day's row.  Nothing orders the tasks of one tab,
so the row keeps the text of the save the server executed last.
-/

namespace TimeTracker.Storage.Saves

open TimeTracker.Text
open TimeTracker.Date
open TimeTracker.Library
open TimeTracker.Library.Run
open TimeTracker.Library.Indexed
open TimeTracker.Library.Atomic
open TimeTracker.Crypto.Wire
open TimeTracker.Server
open TimeTracker.Server.Schema
open TimeTracker.Server.Functions
open TimeTracker.Server.Execution
open TimeTracker.Server.Entries
open TimeTracker.Tab.State
open TimeTracker.Storage.Envelopes
open TimeTracker.Storage.Seam
open TimeTracker.Storage.Hook

/-! ## One tab on one day -/

/-- A day open in a tab, with its writes in flight and the server's tables. -/
structure Editor (K : Type) where
  persistent : Persistent
  encryption : EncryptionState K
  tasks : List (StoreTask K)
  db : Database

inductive Event
  | set (value : String)
  | sealed (task : Nat) (nonce : Nonce)
  | sealFailed (task : Nat)
  | executed (task : Nat) (now : Timestamp)

section Editors

variable {K : Type} (platform : Platform K) (claims : SessionClaims)

def Editor.withTask (editor : Editor K) (index : Nat) (task : StoreTask K) :
    Editor K :=
  { editor with tasks := editor.tasks.set index task }

/-- One step of the tab, of the browser's cipher or of the server. -/
def step (editor : Editor K) : Event → Option (Editor K)
  | .set value =>
      let (persistent, task) := editor.persistent.set editor.encryption value
      some { editor with persistent, tasks := editor.tasks ++ [task] }
  | .sealed index nonce => do
      let task ← (← editor.tasks[index]?).sealWith platform nonce
      some (editor.withTask index task)
  | .sealFailed index => do
      let task ← (← editor.tasks[index]?).sealFailed
      some (editor.withTask index task)
  | .executed index now => do
      let (task, db) ← (← editor.tasks[index]?).executeSave (request claims now) editor.db
      some { editor.withTask index task with db }

/-- A signed-in tab that has just shown a day and holds the account's key. -/
def unlockedOn (day : NaiveDate) (session : SessionKey K) (value : Option String)
    (db : Database) : Editor K :=
  { persistent :=
      { value, key := .timeEntry day, backend := .remote, generation := ⟨0⟩ }
    encryption := .unlocked session
    tasks := []
    db }

end Editors

section Steps

variable {K : Type} {platform : Platform K} {claims : SessionClaims} {editor next : Editor K}
  {index : Nat}

theorem step_sealed_eq_some {nonce : Nonce} :
    step platform claims editor (.sealed index nonce) = some next ↔
      ∃ old target, editor.tasks[index]? = some old ∧ old.stage = .sealing target ∧
        next = editor.withTask index { old with
          stage := .sending target (wrap platform nonce.val old.value target.sealing) } := by
  simp only [step, Option.bind_eq_bind, Option.bind_eq_some_iff]
  constructor
  · rintro ⟨old, found, new, moved, same⟩
    obtain ⟨target, at_stage, rfl⟩ := StoreTask.sealWith_eq_some.mp moved
    exact ⟨old, target, found, at_stage, (Option.some.inj same).symm⟩
  · rintro ⟨old, target, found, at_stage, rfl⟩
    exact ⟨old, found, _, StoreTask.sealWith_eq_some.mpr ⟨target, at_stage, rfl⟩, rfl⟩

theorem step_sealFailed_eq_some
    (taken : step platform claims editor (.sealFailed index) = some next) :
    ∃ old target, editor.tasks[index]? = some old ∧ old.stage = .sealing target ∧
      next = editor.withTask index { old with
        stage := .finished (.error (.crypto old.key.asKey (.rejected "encrypt"))) } := by
  simp only [step, Option.bind_eq_bind, Option.bind_eq_some_iff] at taken
  obtain ⟨old, found, new, moved, same⟩ := taken
  obtain ⟨⟨target, at_stage⟩, rfl⟩ := StoreTask.sealFailed_eq_some moved
  exact ⟨old, target, found, at_stage, (Option.some.inj same).symm⟩

theorem step_executed_eq_some {now : Timestamp} :
    step platform claims editor (.executed index now) = some next ↔
      ∃ old new db, editor.tasks[index]? = some old ∧
        old.executeSave (request claims now) editor.db = some (new, db) ∧
        next = { editor.withTask index new with db } := by
  simp only [step, Option.bind_eq_bind, Option.bind_eq_some_iff]
  constructor
  · rintro ⟨old, found, ⟨new, db⟩, ran, same⟩
    exact ⟨old, new, db, found, ran, (Option.some.inj same).symm⟩
  · rintro ⟨old, new, db, found, ran, rfl⟩
    exact ⟨old, found, (new, db), ran, rfl⟩

end Steps

/-- The texts set, in order. -/
def texts : List Event → List String
  | [] => []
  | .set value :: rest => value :: texts rest
  | _ :: rest => texts rest

/-- The write the server executed last. -/
def lastExecuted : List Event → Option Nat
  | [] => none
  | .executed index _ :: rest => some ((lastExecuted rest).getD index)
  | _ :: rest => lastExecuted rest

/-- The text of the write the server executed last. -/
def lastExecutedText (events : List Event) : Option String :=
  (lastExecuted events).bind fun index => (texts events)[index]?

section History

variable (past : List Event)

theorem texts_append (later : List Event) :
    texts (past ++ later) = texts past ++ texts later := by
  induction past with
  | nil => rfl
  | cons event rest ih => cases event <;> simp [texts, ih]

theorem lastExecuted_append (later : List Event) :
    lastExecuted (past ++ later) = (lastExecuted later).or (lastExecuted past) := by
  induction past with
  | nil => simp [lastExecuted]
  | cons event rest ih =>
      cases event with
      | executed index now => cases h : lastExecuted later <;> simp [lastExecuted, ih, h]
      | _ => simp [lastExecuted, ih]

end History

/-! ## What the row holds along a run -/

section Runs

variable {K : Type} (platform : Platform K) (claims : SessionClaims)
  (day : NaiveDate) (session : SessionKey K)

/-- The envelope is of this text, sealed under the tab's key. -/
def EnvelopeOf (text envelope : String) : Prop :=
  ∃ nonce : Nonce, envelope = wrap platform nonce.val text (some session)

/-- The row of the day, for the account the session names, is of this text. -/
def RowOf (db : Database) (text : String) : Prop :=
  ∃ me envelope, SignedIn (request claims 0) db me ∧
    bodyOf db me.id (toIso day) = some envelope ∧
    EnvelopeOf platform session text envelope

/-- A task writes the day it was spawned on, and sends its own text. -/
structure Honest (task : StoreTask K) : Prop where
  key : task.key = .timeEntry day
  target : ∀ target, task.stage = .sealing target → target = .remote session
  envelope : ∀ target envelope, task.stage = .sending target envelope →
    EnvelopeOf platform session task.value envelope

/-- What the events so far say about the tab and about the row. -/
structure Follows (value : Option String) (past : List Event) (editor : Editor K) :
    Prop where
  onDay : editor.persistent.key = .timeEntry day
  remote : editor.persistent.backend = .remote
  unlocked : editor.encryption = .unlocked session
  shown : editor.persistent.value = (texts past).getLast?.or value
  values : editor.tasks.map StoreTask.value = texts past
  honest : ∀ task ∈ editor.tasks, Honest platform day session task
  untouched : lastExecuted past = none → ∀ task ∈ editor.tasks, ¬ task.Stored
  stored : ∀ index, lastExecuted past = some index →
    ∃ task, editor.tasks[index]? = some task ∧
      (task.Stored → RowOf platform claims day session editor.db task.value)

variable {platform claims day session} {value : Option String}
  {past : List Event} {editor next : Editor K}

/-- A task that moves on keeps what it was spawned with. -/
theorem map_set_of_eq {α β : Type} {f : α → β} {tasks : List α} {index : Nat} {old new : α}
    (found : tasks[index]? = some old) (same : f new = f old) :
    (tasks.set index new).map f = tasks.map f := by
  obtain ⟨bound, rfl⟩ := List.getElem?_eq_some_iff.mp found
  rw [List.map_set, same]
  apply List.ext_getElem?
  intro other
  by_cases here : index = other
  · subst here
    simp [bound]
  · rw [List.getElem?_set_ne here]

theorem signedIn_of_users {ctx other : AppCtx} {db after : Database} {me : User}
    (signedIn : SignedIn ctx db me) (users : after.users = db.users)
    (same : other.claims = ctx.claims) : SignedIn other after me := by
  obtain ⟨claims, email, holds, normalized, found, epoch⟩ := signedIn
  refine ⟨claims, email, same.trans holds, normalized, ?_, epoch⟩
  simpa [Store.userByEmail, users] using found

theorem follows_unlockedOn (db : Database) :
    Follows platform claims day session value []
      (unlockedOn day session value db) := by
  constructor <;> simp [unlockedOn, texts, lastExecuted]

theorem honest_sealing {value : String} :
    Honest platform day session
      { key := .timeEntry day, value, stage := .sealing (.remote session) } := by
  refine ⟨rfl, ?_, nofun⟩
  rintro target ⟨⟩
  rfl

theorem honest_sending {key : StorageKey} {value envelope : String} {target : WriteTarget K}
    (onDay : key = .timeEntry day) (sealed_value : EnvelopeOf platform session value envelope) :
    Honest platform day session { key, value, stage := .sending target envelope } := by
  refine ⟨onDay, nofun, ?_⟩
  rintro target envelope ⟨⟩
  exact sealed_value

theorem honest_finished {task : StoreTask K} {result : Except StorageError Unit}
    (onDay : task.key = .timeEntry day) (finished : task.stage = .finished result) :
    Honest platform day session task := by
  refine ⟨onDay, ?_, ?_⟩ <;> simp [finished]

/-- A new write is spawned sealing, under the tab's key. -/
theorem Follows.set (held : Follows platform claims day session value past editor)
    (text : String) :
    Follows platform claims day session value (past ++ [.set text])
      { editor with
        persistent := (editor.persistent.set editor.encryption text).1
        tasks := editor.tasks ++ [(editor.persistent.set editor.encryption text).2] } := by
  have spawned : (editor.persistent.set editor.encryption text).2 =
      { key := .timeEntry day, value := text, stage := .sealing (.remote session) } := by
    simp [Persistent.set, held.onDay, held.remote, held.unlocked, store, writeTarget,
      EncryptionState.writeKey]
  have same : lastExecuted (past ++ [.set text]) = lastExecuted past := by
    simp [lastExecuted_append, lastExecuted]
  rw [spawned]
  constructor
  · exact held.onDay
  · exact held.remote
  · exact held.unlocked
  · simp [Persistent.set, texts_append, texts]
  · simp [held.values, texts_append, texts]
  · intro task member
    obtain old | new := List.mem_append.mp member
    · exact held.honest task old
    · rw [List.mem_singleton.mp new]
      exact honest_sealing
  · intro none_yet task member
    rw [same] at none_yet
    obtain old | new := List.mem_append.mp member
    · exact held.untouched none_yet task old
    · rw [List.mem_singleton.mp new]
      rintro ⟨⟩
  · intro index executed
    rw [same] at executed
    obtain ⟨task, found, row⟩ := held.stored index executed
    refine ⟨task, ?_, row⟩
    rw [List.getElem?_append_left (List.getElem?_eq_some_iff.mp found).1]
    exact found

/-- A task that moves on without reaching the server changes no row. -/
theorem Follows.withTask (held : Follows platform claims day session value past editor)
    {index : Nat} {old new : StoreTask K} {event : Event}
    (found : editor.tasks[index]? = some old) (same : new.value = old.value)
    (honest : Honest platform day session new) (unfinished : ¬ new.Stored)
    (quiet : texts [event] = [] ∧ lastExecuted [event] = none) :
    Follows platform claims day session value (past ++ [event])
      (editor.withTask index new) := by
  obtain ⟨no_text, no_save⟩ := quiet
  have bound := (List.getElem?_eq_some_iff.mp found).1
  constructor
  · exact held.onDay
  · exact held.remote
  · exact held.unlocked
  · rw [texts_append, no_text, List.append_nil]
    exact held.shown
  · rw [texts_append, no_text, List.append_nil, ← held.values]
    exact map_set_of_eq found same
  · intro task member
    obtain old_mem | rfl := List.mem_or_eq_of_mem_set member
    · exact held.honest task old_mem
    · exact honest
  · intro none_yet task member
    rw [lastExecuted_append, no_save, Option.none_or] at none_yet
    obtain old_mem | rfl := List.mem_or_eq_of_mem_set member
    · exact held.untouched none_yet task old_mem
    · exact unfinished
  · intro other executed
    rw [lastExecuted_append, no_save, Option.none_or] at executed
    obtain ⟨task, here, row⟩ := held.stored other executed
    by_cases moved : index = other
    · subst moved
      exact ⟨new, List.getElem?_set_self bound, fun finished => absurd finished unfinished⟩
    · refine ⟨task, ?_, row⟩
      rw [Editor.withTask, List.getElem?_set_ne moved]
      exact here

/-- A save the server executed is the last one so far. -/
theorem Follows.executed (held : Follows platform claims day session value past editor)
    {index : Nat} {old new : StoreTask K} {now : Timestamp} {db : Database}
    (found : editor.tasks[index]? = some old)
    (ran : old.executeSave (request claims now) editor.db = some (new, db)) :
    Follows platform claims day session value (past ++ [.executed index now])
      { editor.withTask index new with db } := by
  have bound := (List.getElem?_eq_some_iff.mp found).1
  have member := List.mem_of_getElem? found
  have last : lastExecuted (past ++ [.executed index now]) = some index := by
    simp [lastExecuted_append, lastExecuted]
  have unchanged : texts (past ++ [.executed index now]) = texts past := by
    simp [texts_append, texts]
  obtain ⟨key, envelope, at_stage, outcome⟩ := StoreTask.executeSave_cases ran
  have sent := (held.honest old member).envelope _ _ at_stage
  have onDay := (held.honest old member).key
  have same : new.value = old.value ∧ new.key = old.key ∧
      ∃ result, new.stage = .finished result := by
    obtain ⟨⟨error, rfl⟩, -⟩ | ⟨rfl, -⟩ := outcome <;> exact ⟨rfl, rfl, _, rfl⟩
  obtain ⟨same_value, same_key, result, finished⟩ := same
  constructor
  · exact held.onDay
  · exact held.remote
  · exact held.unlocked
  · rw [unchanged]
    exact held.shown
  · rw [unchanged, ← held.values]
    exact map_set_of_eq found same_value
  · intro task task_mem
    obtain old_mem | rfl := List.mem_or_eq_of_mem_set task_mem
    · exact held.honest task old_mem
    · exact honest_finished (same_key.trans onDay) finished
  · simp [last]
  · intro other executed
    obtain rfl := Option.some.inj (last.symm.trans executed)
    refine ⟨new, List.getElem?_set_self bound, ?_⟩
    intro stored
    obtain ⟨⟨error, rfl⟩, -⟩ | ⟨rfl, me, signedIn, saved⟩ := outcome
    · cases stored
    · refine ⟨me, envelope, signedIn_of_users signedIn saved.users rfl, ?_, sent⟩
      simpa [onDay, StorageKey.date] using saved.stored

theorem Follows.step {event : Event}
    (held : Follows platform claims day session value past editor)
    (taken : step platform claims editor event = some next) :
    Follows platform claims day session value (past ++ [event]) next := by
  cases event with
  | set text =>
      cases taken
      exact held.set text
  | sealed index nonce =>
      obtain ⟨old, target, found, at_stage, rfl⟩ := step_sealed_eq_some.mp taken
      have honest := held.honest old (List.mem_of_getElem? found)
      obtain rfl := honest.target target at_stage
      refine held.withTask found ?_ ?_ ?_ ⟨rfl, rfl⟩
      · rfl
      · exact honest_sending honest.key ⟨nonce, rfl⟩
      · rintro ⟨⟩
  | sealFailed index =>
      obtain ⟨old, target, found, at_stage, rfl⟩ := step_sealFailed_eq_some taken
      have honest := held.honest old (List.mem_of_getElem? found)
      refine held.withTask found ?_ ?_ ?_ ⟨rfl, rfl⟩
      · rfl
      · exact honest_finished honest.key rfl
      · rintro ⟨⟩
  | executed index now =>
      obtain ⟨old, new, db, found, ran, rfl⟩ := step_executed_eq_some.mp taken
      exact held.executed found ran

theorem Follows.run {db : Database} {last : Editor K} {events : List Event}
    (ran : runFrom (Saves.step platform claims) (unlockedOn day session value db) events =
      some last) :
    Follows platform claims day session value events last :=
  history_runFrom (fun _ _ _ _ held taken => held.step taken)
    (follows_unlockedOn db) ran

/-- The body stored for the day opens to this text under the tab's key. -/
def OpensTo (platform : Platform K) (claims : SessionClaims) (day : NaiveDate)
    (session : SessionKey K) (db : Database) (text : String) : Prop :=
  ∃ me body, SignedIn (request claims 0) db me ∧
    bodyOf db me.id (toIso day) = some body ∧
    readRow platform body (some session) (.timeEntry day) = .ok text

theorem RowOf.opensTo_iff {db : Database} {written text : String}
    (row : RowOf platform claims day session db written) :
    OpensTo platform claims day session db text ↔ written = text := by
  obtain ⟨me, envelope, signedIn, stored, nonce, rfl⟩ := row
  have opens : readRow platform (wrap platform nonce.val written (some session))
      (some session) (.timeEntry day) = .ok written :=
    readRow_wrap rfl nonce.property written (.timeEntry day)
  constructor
  · rintro ⟨other, body, otherIn, otherStored, reads⟩
    obtain rfl := signedIn.unique otherIn
    cases stored.symm.trans otherStored
    exact Except.ok.inj (opens.symm.trans reads)
  · rintro rfl
    exact ⟨me, _, signedIn, stored, opens⟩

/-- Once every write has been stored, the row is of the text the server executed
last. -/
theorem rowOf_lastExecuted {db : Database} {last : Editor K} {events : List Event}
    {written : String}
    (ran : runFrom (Saves.step platform claims) (unlockedOn day session value db) events =
      some last)
    (complete : ∀ task ∈ last.tasks, task.Stored)
    (carried : lastExecutedText events = some written) :
    RowOf platform claims day session last.db written := by
  have held := Follows.run ran
  obtain ⟨index, executed, text⟩ := Option.bind_eq_some_iff.mp carried
  obtain ⟨task, found, row⟩ := held.stored index executed
  have same : task.value = written := by
    simpa [← held.values, found] using text
  rw [← same]
  exact row (complete task (List.mem_of_getElem? found))

/-- Once every write has been stored, the body opens to the last text set, the
one on the screen, exactly when the save the server executed last carried that
text. -/
theorem last_set_stored_iff (value : Option String) (db : Database)
    {last : Editor K} {events : List Event} {text : String}
    (ran : runFrom (Saves.step platform claims) (unlockedOn day session value db) events =
      some last)
    (complete : ∀ task ∈ last.tasks, task.Stored)
    (lastSet : (texts events).getLast? = some text) :
    last.persistent.value = some text ∧
        OpensTo platform claims day session last.db text ↔
      lastExecutedText events = some text := by
  have held := Follows.run ran
  have shown : last.persistent.value = some text := by
    rw [held.shown, lastSet, Option.some_or]
  cases executed : lastExecuted events with
  | none =>
      have member : text ∈ last.tasks.map StoreTask.value := by
        rw [held.values]
        exact List.mem_of_getLast? lastSet
      obtain ⟨task, task_mem, -⟩ := List.mem_map.mp member
      exact absurd (complete task task_mem) (held.untouched executed task task_mem)
  | some index =>
      obtain ⟨task, found, -⟩ := held.stored index executed
      have carried : lastExecutedText events = some task.value := by
        simp [lastExecutedText, executed, ← held.values, found]
      have row := rowOf_lastExecuted ran complete carried
      rw [carried, row.opensTo_iff, Option.some.injEq]
      exact and_iff_right shown

end Runs

/-! ## Two keystrokes, in order and swapped -/

/-- alice's account, with encryption turned on. -/
def alice : User :=
  { id := 1, email := "alice@example.com", sessionEpoch := 0, createdAt := 0
    encryptedAt := some 0 }

def aliceEncrypted : Database :=
  { Database.empty with
    users := ⟨[alice], List.pairwise_singleton _ _⟩
    entries_user := fun _ row_mem => absurd row_mem (Table.not_mem_empty _)
    passkeys_user := fun _ row_mem => absurd row_mem (Table.not_mem_empty _)
    wraps_user := fun _ row_mem => absurd row_mem (Table.not_mem_empty _) }

def aliceClaims : SessionClaims :=
  { email := "alice@example.com", epoch := 0 }

def aliceKey : SessionKey Nat :=
  { key := 7, user := "alice@example.com", forgets := 0 }

/-- Compact JSON, strict base64, and the cipher that keeps the key in the clear. -/
def plainPlatform : Platform Nat :=
  { formats := { json := Json.compact, base64 := Base64.standard }
    cipher := Aead.labelled }

def plainNonce (byte : UInt8) : Nonce :=
  ⟨List.replicate NONCE_LEN byte, List.length_replicate ..⟩

def mayFirst : NaiveDate :=
  ⟨2026, 5, 1, by decide, by decide, by decide⟩

def maySecond : NaiveDate :=
  ⟨2026, 5, 2, by decide, by decide, by decide⟩

/-- alice types two characters, and both bodies are sealed. -/
def twoKeystrokes : List Event :=
  [.set "a", .set "ab", .sealed 0 (plainNonce 1), .sealed 1 (plainNonce 2)]

def inOrder : List Event :=
  twoKeystrokes ++ [.executed 0 1, .executed 1 2]

theorem last_set_stored_inOrder :
    ∃ last, runFrom (step plainPlatform aliceClaims)
        (unlockedOn mayFirst aliceKey none aliceEncrypted) inOrder = some last ∧
      last.persistent.value = some "ab" ∧
      OpensTo plainPlatform aliceClaims mayFirst aliceKey last.db "ab" := by
  have completes : (runFrom (step plainPlatform aliceClaims)
      (unlockedOn mayFirst aliceKey none aliceEncrypted) inOrder).map
        (fun last => decide (∀ task ∈ last.tasks, task.Stored)) = some true := by
    decide +kernel
  obtain ⟨last, ran, complete⟩ := Option.map_eq_some_iff.mp completes
  exact ⟨last, ran,
    (last_set_stored_iff none aliceEncrypted ran (of_decide_eq_true complete) rfl).mpr rfl⟩

def swapped : List Event :=
  twoKeystrokes ++ [.executed 1 1, .executed 0 2]

/-- The screen shows both characters, and the row only the first. -/
theorem swapped_stores_older_text :
    ∃ last, runFrom (step plainPlatform aliceClaims)
        (unlockedOn mayFirst aliceKey none aliceEncrypted) swapped = some last ∧
      (∀ task ∈ last.tasks, task.Stored) ∧
      (texts swapped).getLast? = some "ab" ∧ last.persistent.value = some "ab" ∧
      OpensTo plainPlatform aliceClaims mayFirst aliceKey last.db "a" ∧
      ¬ OpensTo plainPlatform aliceClaims mayFirst aliceKey last.db "ab" := by
  have completes : (runFrom (step plainPlatform aliceClaims)
      (unlockedOn mayFirst aliceKey none aliceEncrypted) swapped).map
        (fun last => decide (∀ task ∈ last.tasks, task.Stored)) = some true := by
    decide +kernel
  obtain ⟨last, ran, stored⟩ := Option.map_eq_some_iff.mp completes
  have complete := of_decide_eq_true stored
  have row : RowOf plainPlatform aliceClaims mayFirst aliceKey last.db "a" :=
    rowOf_lastExecuted ran complete rfl
  refine ⟨last, ran, complete, rfl, (Follows.run ran).shown, ?_, ?_⟩
  · exact row.opensTo_iff.mpr rfl
  · intro opens
    exact absurd (row.opensTo_iff.mp opens) (by decide)

end TimeTracker.Storage.Saves
