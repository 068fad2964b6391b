import Mathlib.Logic.Basic
import Mathlib.Data.List.Basic
import Mathlib.Data.List.Pairwise

/-!
# Tables with unique indexes

A table is a list of rows no two of which conflict, where a conflict is two
rows that some unique index of the schema forbids side by side.  The indexes
are part of the type, so a table that breaks one cannot be built: an insert
that would break one is refused, and an update has to show that it does not
move any indexed column.
-/

namespace TimeTracker.Library.Indexed

universe u

/-- Rows of type `α` under the unique indexes `Conflict` describes. -/
structure Table (α : Type u) (Conflict : α → α → Prop) where
  rows : List α
  distinct : rows.Pairwise fun first second => ¬ Conflict first second

namespace Table

variable {α : Type u} {Conflict : α → α → Prop}

/-- The table with no rows. -/
def empty : Table α Conflict :=
  ⟨[], List.Pairwise.nil⟩

@[simp] theorem rows_empty : (empty : Table α Conflict).rows = [] :=
  rfl

theorem ext_rows {first second : Table α Conflict}
    (same : first.rows = second.rows) : first = second := by
  cases first
  cases second
  cases same
  rfl

instance : Membership α (Table α Conflict) :=
  ⟨fun table row => row ∈ table.rows⟩

theorem mem_def {row : α} {table : Table α Conflict} :
    row ∈ table ↔ row ∈ table.rows :=
  Iff.rfl

@[simp] theorem not_mem_empty (row : α) :
    row ∉ (empty : Table α Conflict) :=
  List.not_mem_nil

/-- Two rows of one table that conflict are the same row, provided that the
conflict reads the same from both sides. -/
theorem eq_of_conflict (symmetric : ∀ a b, Conflict a b → Conflict b a)
    {table : Table α Conflict} {first second : α}
    (hfirst : first ∈ table) (hsecond : second ∈ table)
    (conflict : Conflict first second) : first = second := by
  by_contra different
  have swap : Std.Symm fun a b => ¬ Conflict a b :=
    ⟨fun a b apart reversed => apart (symmetric b a reversed)⟩
  exact table.distinct.forall hfirst hsecond different conflict

/-- A condition whose rows would all conflict selects one row at most. -/
theorem countP_le_one {table : Table α Conflict} {selects : α → Bool}
    (clash : ∀ a b, selects a = true → selects b = true → Conflict a b) :
    table.rows.countP selects ≤ 1 := by
  have distinct := table.distinct.sublist (List.filter_sublist (p := selects))
  rw [List.countP_eq_length_filter]
  cases selected : table.rows.filter selects with
  | nil => simp
  | cons first rest =>
      cases rest with
      | nil => simp
      | cons second rest =>
          have member : ∀ row ∈ [first, second], selects row = true := by
            intro row listed
            have here : row ∈ table.rows.filter selects := by
              rw [selected]
              rcases List.mem_cons.mp listed with rfl | listed
              · simp
              · simp [List.mem_singleton.mp listed]
            exact (List.mem_filter.mp here).2
          rw [selected] at distinct
          have apart := List.rel_of_pairwise_cons distinct (List.mem_cons_self ..)
          exact absurd (clash first second (member first (by simp)) (member second (by simp)))
            apart

/-- Such a condition selects exactly one row if it selects any. -/
theorem countP_eq_one {table : Table α Conflict} {selects : α → Bool}
    (clash : ∀ a b, selects a = true → selects b = true → Conflict a b) :
    table.rows.countP selects = 1 ↔ ∃ row ∈ table, selects row = true := by
  have most := table.countP_le_one clash
  have positive : 0 < table.rows.countP selects ↔ ∃ row ∈ table, selects row = true :=
    List.countP_pos_iff
  rw [← positive]
  omega

section Insert

variable [DecidableRel Conflict]

/-- `INSERT`: append the row unless it conflicts with one already there. -/
def insert? (table : Table α Conflict) (row : α) : Option (Table α Conflict) :=
  if free : ∀ old ∈ table.rows, ¬ Conflict old row then
    some ⟨table.rows ++ [row], by
      rw [List.pairwise_append]
      refine ⟨table.distinct, List.pairwise_singleton _ _, ?_⟩
      intro old hold new hnew
      rw [List.mem_singleton.mp hnew]
      exact free old hold⟩
  else none

/-- An insert succeeds exactly when no row conflicts, and then appends. -/
theorem insert?_eq_some {table next : Table α Conflict} {row : α} :
    table.insert? row = some next ↔
      (∀ old ∈ table, ¬ Conflict old row) ∧
        next.rows = table.rows ++ [row] := by
  unfold insert?
  split
  · rename_i free
    constructor
    · intro heq
      cases heq
      exact ⟨free, rfl⟩
    · rintro ⟨-, hrows⟩
      exact congrArg some (ext_rows hrows.symm)
  · rename_i taken
    constructor
    · intro heq
      cases heq
    · rintro ⟨free, -⟩
      exact (taken free).elim

theorem insert?_isSome {table : Table α Conflict} {row : α}
    (free : ∀ old ∈ table, ¬ Conflict old row) :
    ∃ next, table.insert? row = some next := by
  unfold insert?
  split
  · exact ⟨_, rfl⟩
  · rename_i taken
    exact (taken free).elim

theorem mem_insert {table next : Table α Conflict} {row other : α}
    (inserted : table.insert? row = some next) :
    other ∈ next ↔ other ∈ table ∨ other = row := by
  rw [mem_def, (insert?_eq_some.mp inserted).2, List.mem_append,
    List.mem_singleton]
  exact Iff.rfl

end Insert

/-- `DELETE ... WHERE`: keep the rows the condition does not select. -/
def deleteWhere (table : Table α Conflict) (selects : α → Bool) :
    Table α Conflict :=
  ⟨table.rows.filter fun row => !selects row,
    table.distinct.sublist List.filter_sublist⟩

@[simp] theorem mem_deleteWhere {table : Table α Conflict}
    {selects : α → Bool} {row : α} :
    row ∈ table.deleteWhere selects ↔ row ∈ table ∧ selects row = false := by
  rw [mem_def, deleteWhere, List.mem_filter, Bool.not_eq_true']
  exact Iff.rfl

/-- `UPDATE`: rewrite every row by a function that creates no conflict. -/
def update (table : Table α Conflict) (rewrite : α → α)
    (keeps : ∀ a b, Conflict (rewrite a) (rewrite b) → Conflict a b) :
    Table α Conflict :=
  ⟨table.rows.map rewrite,
    table.distinct.map rewrite fun a b apart conflict =>
      apart (keeps a b conflict)⟩

@[simp] theorem rows_update {table : Table α Conflict} {rewrite : α → α}
    {keeps : ∀ a b, Conflict (rewrite a) (rewrite b) → Conflict a b} :
    (table.update rewrite keeps).rows = table.rows.map rewrite :=
  rfl

theorem mem_update {table : Table α Conflict} {rewrite : α → α}
    {keeps : ∀ a b, Conflict (rewrite a) (rewrite b) → Conflict a b} {row : α} :
    row ∈ table.update rewrite keeps ↔
      ∃ old ∈ table, rewrite old = row := by
  rw [mem_def, rows_update, List.mem_map]
  exact Iff.rfl

end Table

end TimeTracker.Library.Indexed
