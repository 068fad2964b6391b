import Mathlib.Data.BitVec
import TimeTracker.Calendar
import TimeTracker.Library.Tally

/-!
# The totals of a week

Each day of a week is parsed, and the parses are combined: a total, a row for each day
with work, and one for each project.  The parser is a library's, and a hash map hands
out its entries in an order of its own.
-/

namespace TimeTracker.WeekView

open TimeTracker.Date
open TimeTracker.Calendar
open TimeTracker.Library.Tally

abbrev U32 := BitVec 32

/-- What the parser finds of a project on one day. -/
structure Project where
  name : String
  totalMinutes : U32
  deriving DecidableEq, Repr

/-- What the parser makes of one day. -/
structure TimeTrackingData where
  totalMinutes : U32
  projects : List Project
  deriving DecidableEq, Repr

/-- A week's totals, ready to render. -/
@[ext]
structure WeekTotals where
  totalMinutes : U32
  perDay : List (NaiveDate × U32)
  perProject : List (String × U32)

/-- The order in which a hash map hands out its entries. -/
structure HashOrder where
  iterate : List (String × U32) → List (String × U32)
  perm : ∀ entries, (iterate entries).Perm entries

/-- How two projects are ordered: the larger one first, then by name.  Bytes in UTF-8
compare as the characters do. -/
def LargerFirst (project other : String × U32) : Prop :=
  other.2 < project.2 ∨ project.2 = other.2 ∧ project.1 ≤ other.1

instance (project other : String × U32) : Decidable (LargerFirst project other) :=
  inferInstanceAs (Decidable (_ ∨ _ ∧ _))

section Aggregates

variable (parse : String → TimeTrackingData) (order : HashOrder)

/-- Whether the day is skipped: it was saved and then emptied. -/
def emptied (body : String) : Bool :=
  (parse body).totalMinutes = 0 && (parse body).projects.isEmpty

/-- The loop over the days. -/
def visit (week : WeekTotals) (row : NaiveDate × String) : WeekTotals :=
  let parsed := parse row.2
  if emptied parse row.2 then week
  else
    { totalMinutes := week.totalMinutes + parsed.totalMinutes
      perDay := week.perDay ++ [(row.1, parsed.totalMinutes)]
      perProject := parsed.projects.foldl
        (fun tally project => bump project.name project.totalMinutes tally) week.perProject }

/-- Parses each day and combines the results. -/
def aggregate (rows : List (NaiveDate × String)) : WeekTotals :=
  let week := rows.foldl (visit parse) { totalMinutes := 0, perDay := [], perProject := [] }
  { totalMinutes := week.totalMinutes
    perDay := week.perDay.insertionSort fun day other => ¬ other.1.Before day.1
    perProject := (order.iterate week.perProject).insertionSort LargerFirst }

/-- The projects of a day as amounts under their names. -/
def items (row : NaiveDate × String) : List (String × U32) :=
  (parse row.2).projects.map fun project => (project.name, project.totalMinutes)

/-- The days with work, each with its minutes. -/
def workedDays (rows : List (NaiveDate × String)) : List (NaiveDate × U32) :=
  (rows.filter fun row => !emptied parse row.2).map fun row =>
    (row.1, (parse row.2).totalMinutes)

variable {parse order}

/-- An emptied day has nothing to add. -/
theorem emptied_iff {body : String} :
    emptied parse body = true ↔ (parse body).totalMinutes = 0 ∧ (parse body).projects = [] := by
  simp [emptied]

theorem foldl_visit (rows : List (NaiveDate × String)) (week : WeekTotals) :
    rows.foldl (visit parse) week =
      { totalMinutes := week.totalMinutes + (rows.map fun row => (parse row.2).totalMinutes).sum
        perDay := week.perDay ++ workedDays parse rows
        perProject := collect (rows.flatMap (items parse)) week.perProject } := by
  induction rows generalizing week with
  | nil => simp [workedDays, collect]
  | cons row rest ih =>
      rw [List.foldl_cons, ih]
      by_cases none : emptied parse row.2 = true
      · obtain ⟨noMinutes, noProjects⟩ := emptied_iff.mp none
        simp [visit, none, noMinutes, workedDays, items, noProjects]
      · simp [visit, none, workedDays, items, collect, List.foldl_append, List.foldl_map,
          add_assoc]

theorem aggregate_eq (rows : List (NaiveDate × String)) :
    aggregate parse order rows =
      { totalMinutes := (rows.map fun row => (parse row.2).totalMinutes).sum
        perDay := (workedDays parse rows).insertionSort fun day other => ¬ other.1.Before day.1
        perProject := (order.iterate (collect (rows.flatMap (items parse)) [])).insertionSort
          LargerFirst } := by
  simp [aggregate, foldl_visit]

/-- Sums that fit in 32 bits are those of the whole numbers. -/
theorem toNat_sum {values : List U32} (fits : (values.map BitVec.toNat).sum < 2 ^ 32) :
    values.sum.toNat = (values.map BitVec.toNat).sum := by
  induction values with
  | nil => rfl
  | cons value rest ih =>
      rw [List.map_cons, List.sum_cons] at fits ⊢
      rw [List.sum_cons, BitVec.toNat_add, ih (by omega), Nat.mod_eq_of_lt fits]

/-- The minutes of a project over all the days. -/
def minutesOf (parse : String → TimeTrackingData) (name : String)
    (rows : List (NaiveDate × String)) : Nat :=
  (((rows.flatMap fun row => (parse row.2).projects).filter fun project =>
    project.name = name).map fun project => project.totalMinutes.toNat).sum

theorem toNat_amountOf {name : String} {rows : List (NaiveDate × String)}
    (fits : minutesOf parse name rows < 2 ^ 32) :
    (amountOf name (rows.flatMap (items parse))).toNat = minutesOf parse name rows := by
  have same : (((rows.flatMap (items parse)).filter fun item => item.1 = name).map
      Prod.snd).map BitVec.toNat = ((rows.flatMap fun row => (parse row.2).projects).filter
        fun project => project.name = name).map fun project => project.totalMinutes.toNat := by
    unfold items
    rw [← List.map_flatMap, List.filter_map, List.map_map, List.map_map]
    rfl
  rw [amountOf, toNat_sum (same ▸ fits), same]
  rfl

/-! ## The orders of the tables -/

theorem largerFirst_iff {project other : String × U32} :
    LargerFirst project other ↔ other.2.toNat < project.2.toNat ∨
      project.2.toNat = other.2.toNat ∧ project.1 ≤ other.1 := by
  rw [LargerFirst, BitVec.lt_def, BitVec.toNat_inj]

theorem LargerFirst.antisymm {project other : String × U32} (first : LargerFirst project other)
    (second : LargerFirst other project) : project = other := by
  rw [largerFirst_iff] at first second
  obtain less | ⟨same, names⟩ := first
  · obtain less' | ⟨same, -⟩ := second <;> omega
  · obtain less | ⟨-, names'⟩ := second
    · omega
    · exact Prod.ext (String.le_antisymm names names') (BitVec.toNat_inj.mp same)

/-- The table of projects is in order. -/
theorem sorted_perProject (entries : List (String × U32)) :
    (entries.insertionSort LargerFirst).Pairwise LargerFirst := by
  have total : Std.Total LargerFirst := by
    refine ⟨fun project other => ?_⟩
    rw [largerFirst_iff, largerFirst_iff]
    obtain less | same | less := Nat.lt_trichotomy project.2.toNat other.2.toNat
    · exact .inr (.inl less)
    · obtain names | names := String.le_total project.1 other.1
      · exact .inl (.inr ⟨same, names⟩)
      · exact .inr (.inr ⟨same.symm, names⟩)
    · exact .inl (.inl less)
  have transitive : IsTrans (String × U32) LargerFirst := by
    refine ⟨fun first second third before after => ?_⟩
    rw [largerFirst_iff] at before after ⊢
    obtain less | ⟨same, names⟩ := before
    · obtain less' | ⟨same, -⟩ := after
      · exact .inl (by omega)
      · exact .inl (by omega)
    · obtain less | ⟨same', names'⟩ := after
      · exact .inl (by omega)
      · exact .inr ⟨by omega, String.le_trans names names'⟩
  exact List.pairwise_insertionSort _ _

theorem map_fst_workedDays_sublist (rows : List (NaiveDate × String)) :
    ((workedDays parse rows).map Prod.fst).Sublist (rows.map Prod.fst) := by
  rw [workedDays, List.map_map]
  exact List.filter_sublist.map Prod.fst

/-- The table of days ascends, as long as no day comes twice. -/
theorem sorted_perDay {rows : List (NaiveDate × String)} (distinct : (rows.map Prod.fst).Nodup) :
    (((workedDays parse rows).insertionSort fun day other => ¬ other.1.Before day.1)).Pairwise
      fun day other => day.1.Before other.1 := by
  refine List.pairwise_map.mp (pairwise_before ?_ ?_)
  · exact List.pairwise_map.mpr (sorted_insertionSort Prod.fst _)
  · exact ((List.perm_insertionSort _ _).map Prod.fst).nodup_iff.mpr
      ((map_fst_workedDays_sublist rows).nodup distinct)

/-! ## Nothing is lost -/

/-- A day is in the table exactly when there is something on it. -/
theorem mem_workedDays {date : NaiveDate} {minutes : U32} {rows : List (NaiveDate × String)} :
    (date, minutes) ∈ workedDays parse rows ↔ ∃ body, (date, body) ∈ rows ∧
      ¬ ((parse body).totalMinutes = 0 ∧ (parse body).projects = []) ∧
        minutes = (parse body).totalMinutes := by
  simp only [workedDays, List.mem_map, List.mem_filter, Bool.not_eq_true', Prod.mk.injEq,
    ← emptied_iff, Bool.not_eq_true]
  constructor
  · rintro ⟨⟨date, body⟩, ⟨member, worked⟩, rfl, rfl⟩
    exact ⟨body, member, worked, rfl⟩
  · rintro ⟨body, member, worked, rfl⟩
    exact ⟨⟨date, body⟩, ⟨member, worked⟩, rfl, rfl⟩

/-- The days left out have no minutes. -/
theorem sum_workedDays (rows : List (NaiveDate × String)) :
    ((workedDays parse rows).map fun day => day.2.toNat).sum =
      (rows.map fun row => (parse row.2).totalMinutes.toNat).sum := by
  induction rows with
  | nil => rfl
  | cons row rest ih =>
      by_cases none : emptied parse row.2 = true
      · have noMinutes := (emptied_iff.mp none).1
        simpa [workedDays, none, noMinutes] using ih
      · simpa [workedDays, none] using ih

/-- A name is among the items when a row has a project of that name. -/
theorem mem_map_fst_items {name : String} {rows : List (NaiveDate × String)} :
    name ∈ (rows.flatMap (items parse)).map Prod.fst ↔
      ∃ row ∈ rows, ∃ project ∈ (parse row.2).projects, project.name = name := by
  simp [items]

/-- What a week's totals say of the rows they were computed from. -/
structure Conserves (parse : String → TimeTrackingData) (rows : List (NaiveDate × String))
    (week : WeekTotals) : Prop where
  total : week.totalMinutes.toNat = (rows.map fun row => (parse row.2).totalMinutes.toNat).sum
  totalPerDay : week.totalMinutes.toNat = (week.perDay.map fun day => day.2.toNat).sum
  project : ∀ name minutes, (name, minutes) ∈ week.perProject →
    minutes.toNat = minutesOf parse name rows
  named : ∀ name, (∃ minutes, (name, minutes) ∈ week.perProject) ↔
    ∃ row ∈ rows, ∃ project ∈ (parse row.2).projects, project.name = name
  unique : (week.perProject.map Prod.fst).Nodup
  largerFirst : week.perProject.Pairwise fun project other =>
    other.2 < project.2 ∨ project.2 = other.2 ∧ project.1 < other.1
  ascending : week.perDay.Pairwise fun day other => day.1.Before other.1
  day : ∀ date minutes, (date, minutes) ∈ week.perDay ↔ ∃ body, (date, body) ∈ rows ∧
    ¬ ((parse body).totalMinutes = 0 ∧ (parse body).projects = []) ∧
      minutes = (parse body).totalMinutes

section Tables

variable {rows : List (NaiveDate × String)}

theorem perProject_perm (order : HashOrder) (rows : List (NaiveDate × String)) :
    (aggregate parse order rows).perProject.Perm (collect (rows.flatMap (items parse)) []) := by
  rw [aggregate_eq]
  exact (List.perm_insertionSort _ _).trans (order.perm _)

theorem perDay_perm (order : HashOrder) (rows : List (NaiveDate × String)) :
    (aggregate parse order rows).perDay.Perm (workedDays parse rows) := by
  rw [aggregate_eq]
  exact List.perm_insertionSort _ _

theorem nodup_perProject : ((aggregate parse order rows).perProject.map Prod.fst).Nodup :=
  ((perProject_perm order rows).map Prod.fst).nodup_iff.mpr nodup_collect_nil

/-- No two projects have the same name, so the order of the table is strict. -/
theorem pairwise_perProject : (aggregate parse order rows).perProject.Pairwise
    fun project other => other.2 < project.2 ∨ project.2 = other.2 ∧ project.1 < other.1 := by
  have sorted : (aggregate parse order rows).perProject.Pairwise LargerFirst := by
    rw [aggregate_eq]
    exact sorted_perProject _
  refine (sorted.and (List.pairwise_map.mp nodup_perProject)).imp ?_
  rintro project other ⟨less | ⟨same, names⟩, apart⟩
  · exact .inl less
  · refine .inr ⟨same, String.not_le.mp fun back => apart ?_⟩
    exact String.le_antisymm names back

theorem pairwise_perDay (distinct : (rows.map Prod.fst).Nodup) :
    (aggregate parse order rows).perDay.Pairwise fun day other => day.1.Before other.1 := by
  rw [aggregate_eq]
  exact sorted_perDay distinct

/-- The totals do not depend on the order of the rows or of the map's entries. -/
theorem aggregate_perm {other : List (NaiveDate × String)} {order' : HashOrder}
    (same : other.Perm rows) (distinct : (rows.map Prod.fst).Nodup) :
    aggregate parse order' other = aggregate parse order rows := by
  have distinct' : (other.map Prod.fst).Nodup := (same.map Prod.fst).nodup_iff.mpr distinct
  have total : (aggregate parse order' other).totalMinutes =
      (aggregate parse order rows).totalMinutes := by
    rw [aggregate_eq, aggregate_eq]
    exact (same.map _).sum_eq
  have days : (aggregate parse order' other).perDay = (aggregate parse order rows).perDay := by
    refine List.Perm.eq_of_pairwise ?_ (pairwise_perDay distinct') (pairwise_perDay distinct) ?_
    · intro day day' _ _ before after
      rw [before_iff] at before after
      omega
    · have rows : (workedDays parse other).Perm (workedDays parse rows) := (same.filter _).map _
      exact ((perDay_perm order' other).trans rows).trans (perDay_perm order _).symm
  have projects : (aggregate parse order' other).perProject =
      (aggregate parse order rows).perProject := by
    refine List.Perm.eq_of_pairwise ?_ (sorted_perProject _) (sorted_perProject _) ?_
    · intro project project' _ _ first second
      exact LargerFirst.antisymm first second
    · have tallies := collect_perm (same.flatMap_right (items parse))
      exact ((perProject_perm order' other).trans tallies).trans (perProject_perm order rows).symm
  exact WeekTotals.ext total days projects

end Tables

/-- The minutes of a week are conserved, whatever the parser finds and in whatever order
the rows and the map's entries come, as long as the sums fit. -/
theorem aggregate_conserves (parse : String → TimeTrackingData) (order : HashOrder)
    (rows : List (NaiveDate × String)) (distinct : (rows.map Prod.fst).Nodup)
    (totalFits : (rows.map fun row => (parse row.2).totalMinutes.toNat).sum < 2 ^ 32)
    (projectsFit : ∀ name, minutesOf parse name rows < 2 ^ 32) :
    Conserves parse rows (aggregate parse order rows) ∧
      ∀ (other : List (NaiveDate × String)) (order' : HashOrder), other.Perm rows →
        aggregate parse order' other = aggregate parse order rows := by
  have total : (aggregate parse order rows).totalMinutes.toNat =
      (rows.map fun row => (parse row.2).totalMinutes.toNat).sum := by
    have each : (rows.map fun row => (parse row.2).totalMinutes).map BitVec.toNat =
        rows.map fun row => (parse row.2).totalMinutes.toNat := List.map_map
    rw [aggregate_eq, toNat_sum (each ▸ totalFits), each]
  refine ⟨⟨total, ?_, ?_, ?_, nodup_perProject, pairwise_perProject, pairwise_perDay distinct,
    ?_⟩, fun other order' same => aggregate_perm same distinct⟩
  · have days : ((aggregate parse order rows).perDay.map fun day => day.2.toNat).Perm
        ((workedDays parse rows).map fun day => day.2.toNat) := (perDay_perm order rows).map _
    rw [total, days.sum_eq, sum_workedDays]
  · intro name minutes member
    obtain ⟨-, rfl⟩ := mem_collect.mp ((perProject_perm order rows).mem_iff.mp member)
    exact toNat_amountOf (projectsFit name)
  · intro name
    rw [← mem_map_fst_items]
    simp only [(perProject_perm order rows).mem_iff, mem_collect]
    exact ⟨fun found => found.choose_spec.1, fun named => ⟨_, named, rfl⟩⟩
  · intro date minutes
    rw [(perDay_perm order rows).mem_iff, mem_workedDays]

/-- Two days, one of which was emptied. -/
theorem aggregate_conserves_emptied :
    let parse := fun body =>
      if body = "9-10 code1" then { totalMinutes := 60, projects := [⟨"code1", 60⟩] }
      else { totalMinutes := 0, projects := [] }
    let rows := [(⟨2026, 9, 1, by decide, by decide, by decide⟩, ""),
      (⟨2026, 9, 2, by decide, by decide, by decide⟩, "9-10 code1")]
    Conserves parse rows (aggregate parse ⟨id, fun _ => .refl _⟩ rows) := by
  intro parse rows
  refine (aggregate_conserves parse ⟨id, fun _ => .refl _⟩ rows (by decide) (by decide) ?_).1
  intro name
  by_cases named : "code1" = name <;> simp [minutesOf, rows, parse, named]

end Aggregates

end TimeTracker.WeekView
