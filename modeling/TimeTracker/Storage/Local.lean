import Mathlib.Data.List.Sort
import TimeTracker.Lenient
import TimeTracker.Storage.Seam

/-!
# `localStorage`

What a browser keeps of a signed-out user's days: the rule that files the undated
value under today, the days a scan finds, and the bodies it reads.  Every call on
the browser's storage may fail.
-/

namespace TimeTracker.Storage.Local

open TimeTracker.Library
open TimeTracker.Date
open TimeTracker.Lenient (Reads parseIso_eq_some parseIso_of_reads)
open TimeTracker.Crypto.Wire
open TimeTracker.Storage.Envelopes
open TimeTracker.Storage.Seam

/-! ## The browser's storage -/

/-- What the browser keeps for this origin, in the order it enumerates the keys. -/
structure LocalStorage where
  items : List (String × String)
  unique : (items.map Prod.fst).Nodup

namespace LocalStorage

def keys (storage : LocalStorage) : List String :=
  storage.items.map Prod.fst

def getItem (storage : LocalStorage) (key : String) : Option String :=
  (storage.items.find? fun item => item.1 = key).map Prod.snd

/-- The items with one of them replaced, or added at the end. -/
def replaced (items : List (String × String)) (key value : String) : List (String × String) :=
  if key ∈ items.map Prod.fst then
    items.map fun item => if item.1 = key then (key, value) else item
  else items ++ [(key, value)]

theorem map_fst_replaced (items : List (String × String)) (key value : String) :
    (replaced items key value).map Prod.fst =
      if key ∈ items.map Prod.fst then items.map Prod.fst else items.map Prod.fst ++ [key] := by
  unfold replaced
  split
  · rw [List.map_map]
    apply List.map_congr_left
    intro item _
    dsimp only [Function.comp_apply]
    split
    · next same => exact same.symm
    · rfl
  · simp

def setItem (storage : LocalStorage) (key value : String) : LocalStorage where
  items := replaced storage.items key value
  unique := by
    rw [map_fst_replaced]
    split
    · exact storage.unique
    · next absent =>
        apply List.Nodup.append storage.unique (List.nodup_singleton key)
        rwa [List.disjoint_singleton]

def removeItem (storage : LocalStorage) (key : String) : LocalStorage where
  items := storage.items.filter fun item => item.1 ≠ key
  unique := storage.unique.sublist (List.filter_sublist.map Prod.fst)

theorem mem_keys {storage : LocalStorage} {key : String} :
    key ∈ storage.keys ↔ storage.getItem key ≠ none := by
  simp [keys, getItem]

theorem getItem_setItem_of_ne {storage : LocalStorage} {key value other : String}
    (apart : other ≠ key) : (storage.setItem key value).getItem other = storage.getItem other := by
  have differ : ¬ key = other := fun same => apart same.symm
  unfold getItem setItem replaced
  dsimp only
  split
  · rw [List.find?_map, Option.map_map]
    have same : ((fun item : String × String => decide (item.1 = other)) ∘ fun item =>
        if item.1 = key then (key, value) else item) = fun item => decide (item.1 = other) := by
      funext item
      dsimp only [Function.comp_apply]
      split
      · next here => rw [here]
      · rfl
    rw [same]
    cases found : storage.items.find? fun item => decide (item.1 = other) with
    | none => rfl
    | some item =>
        have here : item.1 = other := by simpa using List.find?_some found
        simp [here, apart]
  · simp [List.find?_append, differ]

theorem getItem_setItem_self {storage : LocalStorage} {key value : String} :
    (storage.setItem key value).getItem key = some value := by
  unfold getItem setItem replaced
  dsimp only
  split
  · next present =>
      obtain ⟨item, member, same⟩ := List.mem_map.mp present
      rw [List.find?_map, Option.map_map]
      have found : (storage.items.find? ((fun item : String × String => decide (item.1 = key)) ∘
          fun item => if item.1 = key then (key, value) else item)).isSome :=
        List.find?_isSome.mpr ⟨item, member, by simp [same]⟩
      obtain ⟨other, here⟩ := Option.isSome_iff_exists.mp found
      have own : other.1 = key := by
        have decided := List.find?_some here
        by_contra apart
        simp [apart] at decided
      rw [here]
      simp [own]
  · next absent =>
      have none : storage.items.find? (fun item => decide (item.1 = key)) = none := by
        rw [List.find?_eq_none]
        intro item member
        simpa using fun same => absent (List.mem_map.mpr ⟨item, member, same⟩)
      simp [List.find?_append, none]

theorem getItem_removeItem_self {storage : LocalStorage} {key : String} :
    (storage.removeItem key).getItem key = none := by
  simp [getItem, removeItem, List.find?_filter]

theorem getItem_removeItem_of_ne {storage : LocalStorage} {key other : String}
    (apart : other ≠ key) : (storage.removeItem key).getItem other = storage.getItem other := by
  unfold getItem removeItem
  dsimp only
  rw [List.find?_filter]
  congr 2
  funext item
  by_cases here : item.1 = other
  · simp [here, apart]
  · simp [here]

end LocalStorage

/-- Which calls fail during one scan of the storage: reaching it, its length, the key
at an index, the value under a key. -/
structure Faults where
  unavailable : Bool
  length : Bool
  key : Nat → Bool
  item : String → Bool

/-- Every call succeeds. -/
def Faults.clear : Faults where
  unavailable := false
  length := false
  key := fun _ => false
  item := fun _ => false

/-! ## Which days a device holds -/

/-- Which key a day's value was found under. -/
inductive Source
  | dated
  | legacy
  deriving DecidableEq, Repr

/-- Whether the undated legacy blob stands in for the day's value. -/
def legacyStandsInFor (requested today : NaiveDate) (hasDatedValue : Bool) : Bool :=
  requested = today && !hasDatedValue

/-- Decodes a value the codec wrote: a JSON string. -/
def decode (formats : Formats) (raw : String) : Option String := do
  (← formats.json.read raw).string?

/-- Decides what a read returns, given the decoded value of the dated key and the raw
one of the legacy key. -/
def resolveLoad (formats : Formats) (requested today : NaiveDate)
    (datedRaw legacyRaw : Option String) : Except StorageError (Option String) :=
  if !legacyStandsInFor requested today datedRaw.isSome then .ok datedRaw
  else
    match legacyRaw with
    | none => .ok none
    | some raw =>
        match decode formats raw with
        | some body => .ok (some (wrapV1 formats body))
        | none => .error (.decode LEGACY_KEY)

/-- Picks the dated keys falling inside a range. -/
def datesFromKeys (keys : List String) (first last : NaiveDate) : List NaiveDate :=
  (((keys.filterMap StorageKey.parse).map StorageKey.date).filter fun date =>
    date.Within first last).insertionSort fun date other => ¬ other.Before date

/-- Every day in a range this device holds a value for, and where each one lives. -/
def datesOnDevice (keys : List String) (legacyPresent : Bool) (today first last : NaiveDate) :
    List (NaiveDate × Source) :=
  let dated := datesFromKeys keys first last
  let todayInRange := decide (today.Within first last)
  let aliased := legacyPresent && todayInRange &&
    legacyStandsInFor today today (dated.contains today)
  let out := dated.map fun date => (date, Source.dated)
  if aliased then
    (out ++ [(today, Source.legacy)]).insertionSort fun day other => ¬ other.1.Before day.1
  else out

/-! ## The scans -/

section Scans

variable (formats : Formats) (faults : Faults) (storage : LocalStorage)

/-- Reaches the browser's storage. -/
def reach : Except StorageError Unit :=
  if faults.unavailable then .error .unavailable else .ok ()

def read (key : String) : Except StorageError (Option String) :=
  if faults.item key then .error .unavailable else .ok (storage.getItem key)

/-- Every key currently in the store; one that cannot be read is left out. -/
def allKeys : Except StorageError (List String) :=
  if faults.length then .error .unavailable
  else .ok ((List.range storage.keys.length).filterMap fun i =>
    if faults.key i then none else storage.keys[i]?)

def datesWithEntries (today first last : NaiveDate) : Except StorageError (List NaiveDate) := do
  reach faults
  let keys ← allKeys faults storage
  let legacy ← read faults storage LEGACY_KEY
  return (datesOnDevice keys legacy.isSome today first last).map Prod.fst

/-- The envelope string for one day, or `none` if the key it names has since gone. -/
def bodyFor (date : NaiveDate) (source : Source) (legacyRaw : Option String) :
    Except StorageError (Option String) :=
  match source with
  | .dated => do
      let key := (StorageKey.timeEntry date).asKey
      match ← read faults storage key with
      | none => return none
      | some raw =>
          match decode formats raw with
          | some body => return some body
          | none => throw (.decode key)
  | .legacy => resolveLoad formats date date none legacyRaw

/-- Reads every entry in a range; a day that cannot be read is skipped. -/
def bodiesInRange (today first last : NaiveDate) :
    Except StorageError (List (NaiveDate × String)) := do
  reach faults
  let keys ← allKeys faults storage
  let legacyRaw ← read faults storage LEGACY_KEY
  return (datesOnDevice keys legacyRaw.isSome today first last).filterMap fun (date, source) =>
    match bodyFor formats faults storage date source legacyRaw with
    | .ok (some body) => some (date, body)
    | .ok none => none
    | .error _ => none

end Scans

/-! ## What a scan finds -/

section Found

variable {keys : List String} {legacyPresent : Bool} {today first last date : NaiveDate}

theorem mem_datesFromKeys :
    date ∈ datesFromKeys keys first last ↔
      (StorageKey.timeEntry date).asKey ∈ keys ∧ date.Within first last := by
  unfold datesFromKeys
  simp only [List.mem_insertionSort, List.mem_filter, List.mem_map, List.mem_filterMap,
    decide_eq_true_eq, StorageKey.parse_eq_some]
  constructor
  · rintro ⟨⟨⟨day⟩, ⟨raw, member, rfl⟩, rfl⟩, within⟩
    exact ⟨member, within⟩
  · rintro ⟨member, within⟩
    exact ⟨⟨_, ⟨_, member, rfl⟩, rfl⟩, within⟩

theorem nodup_datesFromKeys (unique : keys.Nodup) : (datesFromKeys keys first last).Nodup := by
  have parsed : (keys.filterMap StorageKey.parse).Nodup := by
    apply unique.filterMap
    intro raw other key here there
    rw [StorageKey.parse_eq_some.mp here, StorageKey.parse_eq_some.mp there]
  have dates : Function.Injective StorageKey.date := by
    rintro ⟨date⟩ ⟨other⟩ same
    exact congrArg StorageKey.timeEntry same
  unfold datesFromKeys
  rw [(List.perm_insertionSort _ _).nodup_iff]
  exact (parsed.map dates).filter _

/-- The undated value stands in for today where today is scanned and has no dated one. -/
theorem aliased_iff :
    (legacyPresent && decide (today.Within first last) &&
      legacyStandsInFor today today ((datesFromKeys keys first last).contains today)) = true ↔
    legacyPresent ∧ today.Within first last ∧ today ∉ datesFromKeys keys first last := by
  simp [legacyStandsInFor, and_assoc]

/-- The days of a scan: those of the dated keys in the range, and today when the undated
value stands in for it. -/
theorem perm_datesOnDevice :
    ((datesOnDevice keys legacyPresent today first last).map Prod.fst).Perm
      (if legacyPresent ∧ today.Within first last ∧ today ∉ datesFromKeys keys first last then
        datesFromKeys keys first last ++ [today] else datesFromKeys keys first last) := by
  have dates : ((datesFromKeys keys first last).map fun date => (date, Source.dated)).map
      Prod.fst = datesFromKeys keys first last := by
    rw [List.map_map]
    exact List.map_id _
  unfold datesOnDevice
  simp only [aliased_iff]
  split
  · refine ((List.perm_insertionSort _ _).map Prod.fst).trans ?_
    rw [List.map_append, dates]
    rfl
  · rw [dates]

theorem mem_datesOnDevice :
    date ∈ (datesOnDevice keys legacyPresent today first last).map Prod.fst ↔
      date.Within first last ∧
        ((StorageKey.timeEntry date).asKey ∈ keys ∨ legacyPresent ∧ date = today) := by
  rw [perm_datesOnDevice.mem_iff]
  split
  · next aliased =>
      obtain ⟨legacy, within, -⟩ := aliased
      rw [List.mem_append, List.mem_singleton, mem_datesFromKeys]
      constructor
      · rintro (⟨member, inside⟩ | rfl)
        · exact ⟨inside, Or.inl member⟩
        · exact ⟨within, Or.inr ⟨legacy, rfl⟩⟩
      · rintro ⟨inside, member | ⟨-, same⟩⟩
        · exact Or.inl ⟨member, inside⟩
        · exact Or.inr same
  · next plain =>
      rw [mem_datesFromKeys]
      constructor
      · rintro ⟨member, inside⟩
        exact ⟨inside, Or.inl member⟩
      · rintro ⟨inside, member | ⟨legacy, rfl⟩⟩
        · exact ⟨member, inside⟩
        · have dated : date ∈ datesFromKeys keys first last := by
            by_contra absent
            exact plain ⟨legacy, inside, absent⟩
          exact mem_datesFromKeys.mp dated

theorem nodup_datesOnDevice (unique : keys.Nodup) :
    ((datesOnDevice keys legacyPresent today first last).map Prod.fst).Nodup := by
  have dated : (datesFromKeys keys first last).Nodup := nodup_datesFromKeys unique
  rw [perm_datesOnDevice.nodup_iff]
  split
  · next aliased =>
      apply dated.append (List.nodup_singleton today)
      rw [List.disjoint_singleton]
      exact aliased.2.2
  · exact dated

/-- A day has one spelling and one key, of everything that reads as the day and of all
the keys of a browser; the undated key is no day's. -/
theorem days_have_one_key :
    (∀ date, parseIso (toIso date) = some date) ∧
    (∀ raw date, parseIso raw = some date ↔ raw = toIso date) ∧
    (∀ raw date, Reads raw.toList date → raw ≠ toIso date → parseIso raw = none) ∧
    (∀ raw key, StorageKey.parse raw = some key ↔ raw = key.asKey) ∧
    (∀ raw other key, StorageKey.parse raw = some key → StorageKey.parse other = some key →
      raw = other) ∧
    StorageKey.parse LEGACY_KEY = none ∧
    ∀ (storage : LocalStorage) first last, (datesFromKeys storage.keys first last).Nodup ∧
      ∀ date, date ∈ datesFromKeys storage.keys first last ↔
        (StorageKey.timeEntry date).asKey ∈ storage.keys ∧ date.Within first last := by
  refine ⟨parseIso_toIso, fun raw date => parseIso_eq_some,
    fun raw date => parseIso_of_reads, fun raw key => StorageKey.parse_eq_some, ?_, ?_,
    fun storage first last => ⟨nodup_datesFromKeys storage.unique, fun date => mem_datesFromKeys⟩⟩
  · intro raw other key here there
    rw [StorageKey.parse_eq_some.mp here, StorageKey.parse_eq_some.mp there]
  · rw [Option.eq_none_iff_forall_ne_some]
    intro key named
    exact key.asKey_ne_legacy (StorageKey.parse_eq_some.mp named).symm

end Found

section Devices

variable {formats : Formats} {faults : Faults} {storage : LocalStorage}
  {keys : List String} {today first last : NaiveDate}

/-- The day's value is under its dated key, or it is today's, undated. -/
def LocalStorage.Holds (storage : LocalStorage) (today date : NaiveDate) : Prop :=
  storage.getItem (StorageKey.timeEntry date).asKey ≠ none ∨
    storage.getItem LEGACY_KEY ≠ none ∧ date = today

theorem mem_allKeys (listed : allKeys faults storage = .ok keys) {key : String} :
    key ∈ keys ↔ ∃ i, faults.key i = false ∧ storage.keys[i]? = some key := by
  unfold allKeys at listed
  split at listed
  · cases listed
  · cases listed
    rw [List.mem_filterMap]
    constructor
    · rintro ⟨i, -, found⟩
      split at found
      · cases found
      · next reads => exact ⟨i, by simpa using reads, found⟩
    · rintro ⟨i, reads, found⟩
      have bound := (List.getElem?_eq_some_iff.mp found).1
      exact ⟨i, List.mem_range.mpr bound, by rw [reads]; exact found⟩

theorem nodup_allKeys (listed : allKeys faults storage = .ok keys) : keys.Nodup := by
  unfold allKeys at listed
  split at listed
  · cases listed
  · cases listed
    apply List.nodup_range.filterMap
    intro i j key here there
    split at here
    · cases here
    · split at there
      · cases there
      · obtain ⟨bound, same⟩ := List.getElem?_eq_some_iff.mp here
        obtain ⟨bound', same'⟩ := List.getElem?_eq_some_iff.mp there
        exact (storage.unique.getElem_inj_iff).mp (same.trans same'.symm)

theorem datesWithEntries_eq_ok {dates : List NaiveDate}
    (scanned : datesWithEntries faults storage today first last = .ok dates) :
    ∃ keys, allKeys faults storage = .ok keys ∧
      dates = (datesOnDevice keys (storage.getItem LEGACY_KEY).isSome today first last).map
        Prod.fst := by
  unfold datesWithEntries reach read at scanned
  split at scanned
  · cases scanned
  · cases listed : allKeys faults storage with
    | error error =>
        rw [listed] at scanned
        cases scanned
    | ok keys =>
        rw [listed] at scanned
        split at scanned
        · cases scanned
        · cases scanned
          exact ⟨keys, rfl, rfl⟩

/-- No day is found twice. -/
theorem nodup_datesWithEntries {dates : List NaiveDate}
    (scanned : datesWithEntries faults storage today first last = .ok dates) : dates.Nodup := by
  obtain ⟨keys, listed, rfl⟩ := datesWithEntries_eq_ok scanned
  exact nodup_datesOnDevice (nodup_allKeys listed)

theorem within_of_datesWithEntries {dates : List NaiveDate}
    (scanned : datesWithEntries faults storage today first last = .ok dates)
    {date : NaiveDate} (member : date ∈ dates) : date.Within first last := by
  obtain ⟨keys, -, rfl⟩ := datesWithEntries_eq_ok scanned
  exact (mem_datesOnDevice.mp member).1

/-- Every call that bears on a day of the range succeeds. -/
structure Faults.Spare (faults : Faults) (storage : LocalStorage) (first last : NaiveDate) :
    Prop where
  available : faults.unavailable = false
  length : faults.length = false
  legacy : faults.item LEGACY_KEY = false
  keys : ∀ i date, storage.keys[i]? = some (StorageKey.timeEntry date).asKey →
    date.Within first last → faults.key i = false

/-- A scan that nothing goes wrong with finds every day of the range the device holds. -/
theorem datesWithEntries_of_spare (spare : faults.Spare storage first last) :
    ∃ dates, datesWithEntries faults storage today first last = .ok dates ∧
      ∀ date, storage.Holds today date → date.Within first last → date ∈ dates := by
  obtain ⟨keys, listed⟩ : ∃ keys, allKeys faults storage = .ok keys := by
    simp [allKeys, spare.length]
  refine ⟨(datesOnDevice keys (storage.getItem LEGACY_KEY).isSome today first last).map
    Prod.fst, ?_, ?_⟩
  · simp [datesWithEntries, reach, spare.available, listed, read, spare.legacy, bind,
      Except.bind, pure, Except.pure]
  · intro date holds within
    rw [mem_datesOnDevice]
    refine ⟨within, ?_⟩
    rcases holds with dated | ⟨legacy, rfl⟩
    · obtain ⟨i, found⟩ := List.mem_iff_getElem?.mp (LocalStorage.mem_keys.mpr dated)
      exact Or.inl ((mem_allKeys listed).mpr ⟨i, spare.keys i date found within, found⟩)
    · exact Or.inr ⟨Option.isSome_iff_ne_none.mpr legacy, rfl⟩

/-- A range read finds no day twice. -/
theorem nodup_bodiesInRange {rows : List (NaiveDate × String)}
    (found : bodiesInRange formats faults storage today first last = .ok rows) :
    (rows.map Prod.fst).Nodup := by
  unfold bodiesInRange reach read at found
  split at found
  · cases found
  · cases listed : allKeys faults storage with
    | error error =>
        rw [listed] at found
        cases found
    | ok keys =>
        rw [listed] at found
        split at found
        · cases found
        · cases found
          refine (sublist_filterMap ?_ _).nodup (nodup_datesOnDevice (nodup_allKeys listed))
          rintro ⟨date, source⟩ kept here
          dsimp only at here
          split at here
          · cases here
            rfl
          · cases here
          · cases here

end Devices

end TimeTracker.Storage.Local
