import TimeTracker.Storage.LocalStore

/-!
# The readers of the device

The scan for days, the range read and the load of one day, over the same contents.
One looks at names of keys and the others at values, and they agree on every day.
-/

namespace TimeTracker.Storage.Readers

open TimeTracker.Date
open TimeTracker.Calendar
open TimeTracker.Crypto.Wire
open TimeTracker.Storage.Envelopes
open TimeTracker.Storage.Seam
open TimeTracker.Storage.Local
open TimeTracker.Storage.LocalStore

section Scans

variable {keys : List String} {legacyPresent : Bool} {today first last date : NaiveDate}

theorem mem_datesOnDevice_dated :
    (date, Source.dated) ∈ datesOnDevice keys legacyPresent today first last ↔
      date ∈ datesFromKeys keys first last := by
  unfold datesOnDevice
  dsimp only
  split
  · simp [List.mem_insertionSort]
  · simp

theorem mem_datesOnDevice_legacy :
    (date, Source.legacy) ∈ datesOnDevice keys legacyPresent today first last ↔
      date = today ∧ legacyPresent ∧ today.Within first last ∧
        today ∉ datesFromKeys keys first last := by
  unfold datesOnDevice
  simp only [aliased_iff]
  split
  · next aliased => simp [List.mem_insertionSort, aliased]
  · next plain => simp [plain]

theorem pairwise_datesFromKeys :
    (datesFromKeys keys first last).Pairwise fun date other => ¬ other.Before date :=
  sorted_insertionSort id _

/-- A scan lists its days in ascending order, each of them once. -/
theorem pairwise_datesOnDevice (unique : keys.Nodup) :
    ((datesOnDevice keys legacyPresent today first last).map Prod.fst).Pairwise
      NaiveDate.Before := by
  refine pairwise_before ?_ (nodup_datesOnDevice unique)
  unfold datesOnDevice
  dsimp only
  split
  · exact List.pairwise_map.mpr (sorted_insertionSort Prod.fst _)
  · rw [List.map_map]
    exact pairwise_datesFromKeys.map id fun _ _ order => order

end Scans

section Readers

variable {formats : Formats} {storage : LocalStorage} {today first last date : NaiveDate}

/-- The load of the day would take the legacy blob. -/
def TakesLegacy (storage : LocalStorage) (today date : NaiveDate) : Prop :=
  legacyStandsInFor date today (datedItem storage date).isSome = true ∧
    (blob storage).isSome = true

theorem takesLegacy_iff :
    TakesLegacy storage today date ↔
      date = today ∧ datedItem storage today = none ∧ blob storage ≠ none := by
  rw [TakesLegacy, Option.isSome_iff_ne_none]
  constructor
  · rintro ⟨stands, there⟩
    obtain ⟨rfl, alone⟩ : date = today ∧ datedItem storage date = none := by
      simpa [legacyStandsInFor] using stands
    exact ⟨rfl, alone, there⟩
  · rintro ⟨rfl, alone, there⟩
    exact ⟨by simp [legacyStandsInFor, alone], there⟩

theorem filterMap_range_getElem? {α : Type} (items : List α) :
    (List.range items.length).filterMap (fun i => items[i]?) = items := by
  induction items with
  | nil => rfl
  | cons item rest ih =>
      rw [List.length_cons, List.range_succ_eq_map, List.filterMap_cons, List.filterMap_map]
      exact congrArg (item :: ·) ih

/-- A scan that no call fails sees every key. -/
theorem allKeys_clear : allKeys .clear storage = .ok storage.keys :=
  congrArg Except.ok (filterMap_range_getElem? storage.keys)

/-- A day's load says that nothing is stored exactly when neither item is there for it. -/
theorem loadLocal_ne_none :
    loadLocal formats .clear storage today (.timeEntry date) ≠ .ok none ↔
      datedItem storage date ≠ none ∨ blob storage ≠ none ∧ date = today := by
  rw [loadLocal_clear, ne_eq, resolved_eq_none_iff]
  tauto

theorem mem_datesFromKeys_storage :
    date ∈ datesFromKeys storage.keys first last ↔
      datedItem storage date ≠ none ∧ date.Within first last := by
  rw [mem_datesFromKeys, LocalStorage.mem_keys]
  rfl

/-- A marked day's body is what its load finds. -/
theorem bodyFor_eq_loadLocal {source : Source}
    (marked : (date, source) ∈
      datesOnDevice storage.keys (blob storage).isSome today first last) :
    bodyFor formats .clear storage date source (blob storage) =
      loadLocal formats .clear storage today (.timeEntry date) := by
  rw [loadLocal_clear]
  cases source with
  | dated =>
      have there := (mem_datesFromKeys_storage.mp (mem_datesOnDevice_dated.mp marked)).1
      obtain ⟨raw, found⟩ := Option.ne_none_iff_exists'.mp there
      have reads : read .clear storage (StorageKey.timeEntry date).asKey = .ok (some raw) :=
        congrArg Except.ok found
      rw [found, bodyFor, reads]
      unfold resolved
      cases decoded : decode formats raw <;>
        simp [decoded, bind, Except.bind, throw, throwThe, MonadExceptOf.throw, pure, Except.pure]
  | legacy =>
      obtain ⟨rfl, -, within, undated⟩ := mem_datesOnDevice_legacy.mp marked
      have alone : datedItem storage date = none := by
        by_contra there
        exact undated (mem_datesFromKeys_storage.mpr ⟨there, within⟩)
      rw [alone, bodyFor, resolveLoad_none, resolved]

/-- The day with the envelope that its load finds, if it finds one. -/
def loadedRow (formats : Formats) (storage : LocalStorage) (today date : NaiveDate) :
    Option (NaiveDate × String) :=
  match loadLocal formats .clear storage today (.timeEntry date) with
  | .ok (some envelope) => some (date, envelope)
  | _ => none

/-- The readers agree: the scan lists, in order, the days whose load finds something, it
marks as legacy the days whose load takes the legacy blob, and the range read returns
what the loads of its days find. -/
theorem readers_agree (formats : Formats) (storage : LocalStorage)
    (today first last : NaiveDate) :
    ∃ dates rows,
      datesWithEntries .clear storage today first last = .ok dates ∧
      bodiesInRange formats .clear storage today first last = .ok rows ∧
      dates.Pairwise NaiveDate.Before ∧
      (∀ date, date ∈ dates ↔ date.Within first last ∧
        loadLocal formats .clear storage today (.timeEntry date) ≠ .ok none) ∧
      (∀ date, (date, Source.legacy) ∈
          datesOnDevice storage.keys (blob storage).isSome today first last ↔
        date.Within first last ∧ TakesLegacy storage today date) ∧
      rows = dates.filterMap (loadedRow formats storage today) := by
  refine ⟨(datesOnDevice storage.keys (blob storage).isSome today first last).map Prod.fst, _,
    ?_, ?_, pairwise_datesOnDevice storage.unique, ?_, ?_, rfl⟩
  · rw [datesWithEntries, allKeys_clear]
    rfl
  · rw [bodiesInRange, allKeys_clear]
    refine congrArg Except.ok ?_
    rw [List.filterMap_map]
    apply List.filterMap_congr
    rintro ⟨date, source⟩ marked
    have same : bodyFor formats .clear storage date source (storage.getItem LEGACY_KEY) = _ :=
      bodyFor_eq_loadLocal marked
    simp only [same, Function.comp_apply, loadedRow]
    rcases loadLocal formats .clear storage today (.timeEntry date) with error | (_ | body) <;>
      rfl
  · intro date
    rw [mem_datesOnDevice, loadLocal_ne_none, LocalStorage.mem_keys, Option.isSome_iff_ne_none]
    rfl
  · intro date
    rw [mem_datesOnDevice_legacy, takesLegacy_iff, mem_datesFromKeys_storage,
      Option.isSome_iff_ne_none]
    constructor
    · rintro ⟨rfl, there, within, undated⟩
      exact ⟨within, rfl, by_contra fun dated => undated ⟨dated, within⟩, there⟩
    · rintro ⟨within, rfl, alone, there⟩
      exact ⟨rfl, there, within, fun dated => dated.1 alone⟩

end Readers

end TimeTracker.Storage.Readers
