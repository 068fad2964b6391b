import TimeTracker.Calendar
import TimeTracker.Storage.Local

/-!
# Days kept on the device

One day of `localStorage` loaded, stored and cleared, with the undated value that
stands in for today.  What a day loads as is decided by two items alone: the one
under its own key and the undated one.
-/

namespace TimeTracker.Storage.LocalStore

open TimeTracker.Text
open TimeTracker.Library
open TimeTracker.Date
open TimeTracker.Crypto.Wire
open TimeTracker.Tab.State
open TimeTracker.Storage.Envelopes
open TimeTracker.Storage.Seam
open TimeTracker.Storage.Local

/-! ## The calls -/

/-- The JSON writer of string literals, which the reader reads back. -/
structure Codec (formats : Formats) where
  encode : String → String
  read_encode : ∀ text, formats.json.read (encode text) = some (.string text)

/-- Which calls fail during one write. -/
structure WriteFaults where
  unavailable : Bool
  setItem : Bool
  removeItem : Bool
  deriving DecidableEq, Repr

/-- Every call succeeds. -/
def WriteFaults.clear : WriteFaults where
  unavailable := false
  setItem := false
  removeItem := false

/-- Whether writing a day supersedes the legacy alias. -/
def shouldClearLegacy (written today : NaiveDate) : Bool :=
  written = today

/-- `local::load`. -/
def loadLocal (formats : Formats) (faults : Faults) (storage : LocalStorage)
    (today : NaiveDate) (key : StorageKey) : Except StorageError (Option String) := do
  reach faults
  let dated ←
    match ← read faults storage key.asKey with
    | none => pure none
    | some raw =>
        match decode formats raw with
        | some body => pure (some body)
        | none => throw (.decode key.asKey)
  let legacy ← read faults storage LEGACY_KEY
  resolveLoad formats key.date today dated legacy

/-- `local::store_value`. -/
def storeValue {formats : Formats} (codec : Codec formats) (faults : WriteFaults)
    (storage : LocalStorage) (today : NaiveDate) (key : StorageKey) (wrapped : String) :
    Except StorageError Unit × LocalStorage :=
  if faults.unavailable then (.error .unavailable, storage)
  else if faults.setItem then (.error (.write key.asKey), storage)
  else
    let written := storage.setItem key.asKey (codec.encode wrapped)
    -- the alias has been superseded for today; a removal that fails is ignored
    if shouldClearLegacy key.date today && !faults.removeItem then
      (.ok (), written.removeItem LEGACY_KEY)
    else (.ok (), written)

/-- `local::clear`. -/
def clearLocal (faults : WriteFaults) (storage : LocalStorage) (key : StorageKey) :
    Except StorageError Unit × LocalStorage :=
  if faults.unavailable then (.error .unavailable, storage)
  else if faults.removeItem then (.error (.write key.asKey), storage)
  else (.ok (), storage.removeItem key.asKey)

section Seam

variable {K : Type}

/-- `storage::load` on this device. -/
def load (platform : Platform K) (faults : Faults) (storage : LocalStorage)
    (today : NaiveDate) (key : StorageKey) (session : Option (SessionKey K)) :
    Except StorageError (Option String) := do
  match ← loadLocal platform.formats faults storage today key with
  | none => return none
  | some raw => return some (← readRow platform raw session key)

/-- `storage::store` on this device.  A refused write never starts.  The nonce would be the
one to seal with. -/
def store (platform : Platform K) (codec : Codec platform.formats) (nonce : Bytes)
    (faults : WriteFaults) (storage : LocalStorage) (today : NaiveDate) (key : StorageKey)
    (value : String) (session : WriteKey K) : Except StorageError Unit × LocalStorage :=
  match writeTarget .localStorage key session with
  | .error error => (.error error, storage)
  | .ok target =>
      storeValue codec faults storage today key (wrap platform nonce value target.sealing)

/-- `storage::clear` on this device. -/
def clear (faults : WriteFaults) (storage : LocalStorage) (key : StorageKey)
    (session : WriteKey K) : Except StorageError Unit × LocalStorage :=
  match session with
  | .locked => (.error (.locked key.asKey), storage)
  | _ => clearLocal faults storage key

end Seam

/-! ## The two items behind a day -/

/-- What the legacy blob reads as, where it stands in. -/
def aliased (formats : Formats) : Option String → Except StorageError (Option String)
  | none => .ok none
  | some raw =>
      match decode formats raw with
      | some body => .ok (some (wrapV1 formats body))
      | none => .error (.decode LEGACY_KEY)

/-- What a day loads as, given the items under its own key and under the legacy one. -/
def resolved (formats : Formats) (today date : NaiveDate) (dated legacy : Option String) :
    Except StorageError (Option String) :=
  match dated with
  | some raw =>
      match decode formats raw with
      | some body => .ok (some body)
      | none => .error (.decode (StorageKey.timeEntry date).asKey)
  | none => if date = today then aliased formats legacy else .ok none

/-- The item under the day's own key. -/
def datedItem (storage : LocalStorage) (date : NaiveDate) : Option String :=
  storage.getItem (StorageKey.timeEntry date).asKey

/-- The legacy blob. -/
def blob (storage : LocalStorage) : Option String :=
  storage.getItem LEGACY_KEY

section Items

variable {formats : Formats} {storage : LocalStorage} {today date : NaiveDate}

theorem shouldClearLegacy_iff : shouldClearLegacy date today = true ↔ date = today :=
  decide_eq_true_iff

theorem asKey_ne_asKey {other : NaiveDate} (apart : other ≠ date) :
    (StorageKey.timeEntry other).asKey ≠ (StorageKey.timeEntry date).asKey :=
  fun same => apart (by simpa using StorageKey.asKey_injective same)

theorem resolveLoad_some {body : String} {legacy : Option String} :
    resolveLoad formats date today (some body) legacy = .ok (some body) := by
  simp [resolveLoad, legacyStandsInFor]

theorem resolveLoad_none {legacy : Option String} :
    resolveLoad formats date today none legacy =
      if date = today then aliased formats legacy else .ok none := by
  by_cases here : date = today
  · have stands : legacyStandsInFor date today false = true := by simp [legacyStandsInFor, here]
    unfold resolveLoad
    rw [if_pos here, Option.isSome_none, stands]
    cases legacy <;> rfl
  · simp [resolveLoad, legacyStandsInFor, here]

/-- A load that no call fails depends on two items only. -/
theorem loadLocal_clear :
    loadLocal formats .clear storage today (.timeEntry date) =
      resolved formats today date (datedItem storage date) (blob storage) := by
  have reads : ∀ key, read .clear storage key = .ok (storage.getItem key) := fun _ => rfl
  have reached : reach .clear = .ok () := rfl
  rw [loadLocal, reached, reads, reads, datedItem, blob]
  cases storage.getItem (StorageKey.timeEntry date).asKey with
  | none => exact resolveLoad_none
  | some raw =>
      cases decoded : decode formats raw with
      | none => simp [resolved, decoded, bind, Except.bind, throw, throwThe, MonadExceptOf.throw]
      | some body =>
          simpa [resolved, decoded, bind, Except.bind, pure, Except.pure] using resolveLoad_some

/-- Nothing is stored for a day that has no item of its own, nor the blob as an alias. -/
theorem resolved_eq_none_iff {dated legacy : Option String} :
    resolved formats today date dated legacy = .ok none ↔
      dated = none ∧ (date = today → legacy = none) := by
  unfold resolved
  cases dated with
  | some raw => cases decoded : decode formats raw <;> simp [decoded]
  | none =>
      by_cases here : date = today
      · cases legacy with
        | none => simp [aliased, here]
        | some raw => cases decoded : decode formats raw <;> simp [aliased, decoded, here]
      · simp [here]

end Items

/-! ## What the calls change -/

section Changes

variable {formats : Formats} {codec : Codec formats}

@[simp] theorem decode_encode (text : String) : decode formats (codec.encode text) = some text := by
  simp [decode, codec.read_encode, Json.Value.string?]

/-- A write that is carried out, and one that is not. -/
theorem storeValue_cases (codec : Codec formats) (faults : WriteFaults) (storage : LocalStorage)
    (today date : NaiveDate) (wrapped : String) :
    (faults ≠ .clear ∧ ∃ error,
      storeValue codec faults storage today (.timeEntry date) wrapped = (.error error, storage)) ∨
    ∃ next, storeValue codec faults storage today (.timeEntry date) wrapped = (.ok (), next) ∧
      (faults = .clear ↔ faults.removeItem = false) ∧
      datedItem next date = some (codec.encode wrapped) ∧
      (∀ other, other ≠ date → datedItem next other = datedItem storage other) ∧
      blob next =
        if date = today ∧ faults.removeItem = false then none else blob storage := by
  obtain ⟨unavailable, fails, keeps⟩ := faults
  by_cases fault : unavailable = true ∨ fails = true
  · refine .inl ⟨?_, ?_⟩
    · rintro ⟨⟩
      simp at fault
    · unfold storeValue
      split
      · exact ⟨_, rfl⟩
      · next available => exact ⟨_, if_pos (fault.resolve_left available)⟩
  obtain ⟨rfl, rfl⟩ : unavailable = false ∧ fails = false := by simpa using fault
  have clear : WriteFaults.mk false false keeps = .clear ↔ keeps = false := by
    simp [WriteFaults.clear]
  simp only [storeValue, Bool.false_eq_true, if_false]
  refine .inr ?_
  split
  · next superseded =>
      have removes : date = today ∧ keeps = false := by
        simpa [shouldClearLegacy_iff, StorageKey.date] using superseded
      refine ⟨_, rfl, clear, ?_, fun other apart => ?_, ?_⟩
      · rw [datedItem, LocalStorage.getItem_removeItem_of_ne (StorageKey.asKey_ne_legacy _),
          LocalStorage.getItem_setItem_self]
      · rw [datedItem, LocalStorage.getItem_removeItem_of_ne (StorageKey.asKey_ne_legacy _),
          LocalStorage.getItem_setItem_of_ne (asKey_ne_asKey apart)]
        rfl
      · rw [blob, LocalStorage.getItem_removeItem_self, if_pos removes]
  · next kept =>
      have stays : ¬ (date = today ∧ keeps = false) := by
        simpa [shouldClearLegacy_iff, StorageKey.date] using kept
      refine ⟨_, rfl, clear, LocalStorage.getItem_setItem_self, fun other apart => ?_, ?_⟩
      · exact LocalStorage.getItem_setItem_of_ne (asKey_ne_asKey apart)
      · rw [blob, LocalStorage.getItem_setItem_of_ne (StorageKey.asKey_ne_legacy _).symm,
          if_neg stays]
        rfl

/-- A clear that is carried out, and one that is not. -/
theorem clearLocal_cases (faults : WriteFaults) (storage : LocalStorage) (date : NaiveDate) :
    (∃ error, clearLocal faults storage (.timeEntry date) = (.error error, storage)) ∨
    ∃ next, clearLocal faults storage (.timeEntry date) = (.ok (), next) ∧
      datedItem next date = none ∧
      (∀ other, other ≠ date → datedItem next other = datedItem storage other) ∧
      blob next = blob storage := by
  unfold clearLocal
  split
  · exact .inl ⟨_, rfl⟩
  split
  · exact .inl ⟨_, rfl⟩
  refine .inr ⟨_, rfl, LocalStorage.getItem_removeItem_self, fun other apart => ?_, ?_⟩
  · exact LocalStorage.getItem_removeItem_of_ne (asKey_ne_asKey apart)
  · exact LocalStorage.getItem_removeItem_of_ne (StorageKey.asKey_ne_legacy _).symm

end Changes

/-! ## A day stored, and the others -/

section Frames

variable {K : Type} {platform : Platform K} {codec : Codec platform.formats} {nonce : Bytes}
  {faults : WriteFaults} {storage next : LocalStorage} {today date : NaiveDate}
  {value : String} {session : WriteKey K} {reader : Option (SessionKey K)}

/-- The load of a day, from the two items behind it. -/
theorem load_clear :
    load platform .clear storage today (.timeEntry date) reader =
      (resolved platform.formats today date (datedItem storage date) (blob storage)).bind
        fun found => match found with
          | none => .ok none
          | some raw => (readRow platform raw reader (.timeEntry date)).map some := by
  rw [load, loadLocal_clear]
  cases resolved platform.formats today date (datedItem storage date) (blob storage) with
  | error error => rfl
  | ok found =>
      cases found with
      | none => rfl
      | some raw => cases read : readRow platform raw reader (.timeEntry date) <;>
          simp [bind, Except.bind, read, pure, Except.pure, Except.map]

theorem load_eq_none_iff :
    load platform .clear storage today (.timeEntry date) reader = .ok none ↔
      datedItem storage date = none ∧ (date = today → blob storage = none) := by
  rw [load_clear, ← @resolved_eq_none_iff platform.formats]
  rcases resolved platform.formats today date (datedItem storage date) (blob storage) with
    error | (_ | raw)
  · simp [Except.bind]
  · simp [Except.bind]
  · cases read : readRow platform raw reader (.timeEntry date) <;>
      simp [Except.bind, read, Except.map]

/-- Days whose items are the same load alike, and so do days but today whatever becomes of
the legacy blob. -/
theorem load_congr (items : datedItem next date = datedItem storage date)
    (blobs : date = today → blob next = blob storage) :
    load platform .clear next today (.timeEntry date) reader =
      load platform .clear storage today (.timeEntry date) reader := by
  have same : resolved platform.formats today date (datedItem next date) (blob next) =
      resolved platform.formats today date (datedItem storage date) (blob storage) := by
    rw [items]
    unfold resolved
    cases datedItem storage date with
    | some raw => rfl
    | none =>
        by_cases here : date = today
        · simp only [if_pos here, blobs here]
        · simp only [if_neg here]
  rw [load_clear, load_clear, same]

/-- A write to this device is never sealed. -/
theorem store_eq_storeValue (unlocked : session ≠ .locked) :
    store platform codec nonce faults storage today (.timeEntry date) value session =
      storeValue codec faults storage today (.timeEntry date)
        (wrapV1 platform.formats value) := by
  cases session with
  | plaintext => rfl
  | sealed key => rfl
  | locked => exact absurd rfl unlocked

theorem clear_eq_clearLocal (unlocked : session ≠ .locked) :
    clear faults storage (.timeEntry date) session =
      clearLocal faults storage (.timeEntry date) := by
  cases session with
  | plaintext => rfl
  | sealed key => rfl
  | locked => exact absurd rfl unlocked

/-- A plaintext row reads as its body, with or without a key. -/
theorem readRow_wrapV1 (body : String) (key : StorageKey) :
    readRow platform (wrapV1 platform.formats body) reader key = .ok body := by
  simp [readRow, decideRow, openRow, bind, Except.bind]

theorem load_of_stored
    (stored : datedItem next date = some (codec.encode (wrapV1 platform.formats value))) :
    load platform .clear next today (.timeEntry date) reader = .ok (some value) := by
  rw [load_clear, stored]
  simp [resolved, readRow_wrapV1, Except.bind, Except.map]

/-- A day stored loads as what was stored, every other day as before; and a store that
fails or is refused changes no load. -/
theorem store_load_frame (platform : Platform K) (codec : Codec platform.formats)
    (nonce : Bytes) (faults : WriteFaults) (storage : LocalStorage) (today date : NaiveDate)
    (value : String) (session : WriteKey K) :
    let (result, next) := store platform codec nonce faults storage today (.timeEntry date)
      value session
    (result = .ok () →
      (∀ reader, load platform .clear next today (.timeEntry date) reader = .ok (some value)) ∧
      ∀ other, other ≠ date → ∀ reader,
        load platform .clear next today (.timeEntry other) reader =
          load platform .clear storage today (.timeEntry other) reader) ∧
    (result ≠ .ok () ∨ session = .locked → ∀ other reader,
      load platform .clear next today (.timeEntry other) reader =
        load platform .clear storage today (.timeEntry other) reader) := by
  by_cases unlocked : session = .locked
  · subst unlocked
    exact ⟨nofun, fun _ _ _ => rfl⟩
  rw [store_eq_storeValue unlocked]
  obtain ⟨-, error, failed⟩ | ⟨next, carried, -, stored, items, blobs⟩ :=
    storeValue_cases codec faults storage today date (wrapV1 platform.formats value)
  · rw [failed]
    exact ⟨nofun, fun _ _ _ => rfl⟩
  · rw [carried]
    refine ⟨fun _ => ⟨fun reader => load_of_stored stored, fun other apart reader => ?_⟩, ?_⟩
    · refine load_congr (items other apart) fun here => ?_
      rw [blobs, if_neg fun written => apart (here.trans written.1.symm)]
    · rintro (failed | locked)
      · exact absurd rfl failed
      · exact absurd locked unlocked

end Frames

end TimeTracker.Storage.LocalStore
