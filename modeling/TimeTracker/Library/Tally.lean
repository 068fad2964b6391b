import Mathlib.Algebra.BigOperators.Group.List.Basic
import Mathlib.Data.List.Nodup

/-!
# Tallies

A map that amounts are added up in, kept as a list of entries.  What is under a key is
the sum of everything that was added under it, in whatever order that happened.
-/

namespace TimeTracker.Library.Tally

variable {κ ν : Type} [DecidableEq κ] [AddCommMonoid ν]

/-- Adds to the entry of the key, which is made if there is none. -/
def bump (key : κ) (amount : ν) : List (κ × ν) → List (κ × ν)
  | [] => [(key, amount)]
  | (name, value) :: rest =>
      if name = key then (name, value + amount) :: rest
      else (name, value) :: bump key amount rest

/-- Adds up all the items. -/
def collect (items tally : List (κ × ν)) : List (κ × ν) :=
  items.foldl (fun tally item => bump item.1 item.2 tally) tally

/-- What the items add up to under the key. -/
def amountOf (key : κ) (items : List (κ × ν)) : ν :=
  ((items.filter fun item => item.1 = key).map Prod.snd).sum

section Amounts

variable {key name : κ} {amount value : ν} {items other tally : List (κ × ν)}

theorem amountOf_cons :
    amountOf key ((name, value) :: items) =
      (if name = key then value else 0) + amountOf key items := by
  by_cases here : name = key <;> simp [amountOf, here]

theorem amountOf_perm (same : items.Perm other) : amountOf key items = amountOf key other :=
  ((same.filter _).map _).sum_eq

/-- Nothing is under a key that no item has. -/
theorem amountOf_of_notMem (absent : key ∉ items.map Prod.fst) : amountOf key items = 0 := by
  have none : items.filter (fun item => item.1 = key) = [] := by
    rw [List.filter_eq_nil_iff]
    intro item member
    simpa using fun same => absent (List.mem_map.mpr ⟨item, member, same⟩)
  rw [amountOf, none]
  rfl

/-- Where keys are not repeated, what is under a key is the one value it has. -/
theorem amountOf_of_mem (unique : (items.map Prod.fst).Nodup) (member : (key, value) ∈ items) :
    amountOf key items = value := by
  induction items with
  | nil => cases member
  | cons item rest ih =>
      obtain ⟨name, first⟩ := item
      obtain ⟨absent, unique⟩ := List.nodup_cons.mp unique
      rw [amountOf_cons]
      obtain same | later := List.mem_cons.mp member
      · cases same
        rw [if_pos rfl, amountOf_of_notMem absent, add_zero]
      · have apart : name ≠ key := by
          rintro rfl
          exact absent (List.mem_map.mpr ⟨_, later, rfl⟩)
        rw [if_neg apart, zero_add, ih unique later]

theorem map_fst_bump :
    (bump key amount tally).map Prod.fst =
      if key ∈ tally.map Prod.fst then tally.map Prod.fst else tally.map Prod.fst ++ [key] := by
  induction tally with
  | nil => rfl
  | cons item rest ih =>
      obtain ⟨name, value⟩ := item
      by_cases here : name = key
      · simp [bump, here]
      · have apart : key ≠ name := Ne.symm here
        simp only [bump, if_neg here, List.map_cons, ih, List.mem_cons, apart, false_or]
        split <;> simp

theorem nodup_bump (unique : (tally.map Prod.fst).Nodup) :
    ((bump key amount tally).map Prod.fst).Nodup := by
  rw [map_fst_bump]
  split
  · exact unique
  · next absent =>
      apply List.Nodup.append unique (List.nodup_singleton key)
      rwa [List.disjoint_singleton]

theorem amountOf_bump :
    amountOf name (bump key amount tally) =
      amountOf name tally + if key = name then amount else 0 := by
  induction tally with
  | nil => rw [bump, amountOf_cons, add_comm]
  | cons item rest ih =>
      obtain ⟨first, value⟩ := item
      by_cases here : first = key
      · rw [bump, if_pos here, amountOf_cons, amountOf_cons, here]
        by_cases same : key = name <;> simp [same, add_right_comm, add_assoc]
      · rw [bump, if_neg here, amountOf_cons, amountOf_cons, ih, add_assoc]

theorem nodup_collect (unique : (tally.map Prod.fst).Nodup) :
    ((collect items tally).map Prod.fst).Nodup := by
  induction items generalizing tally with
  | nil => exact unique
  | cons item rest ih => exact ih (nodup_bump unique)

theorem mem_map_fst_collect :
    name ∈ (collect items tally).map Prod.fst ↔
      name ∈ tally.map Prod.fst ∨ name ∈ items.map Prod.fst := by
  induction items generalizing tally with
  | nil => simp [collect]
  | cons item rest ih =>
      have one : name ∈ (bump item.1 item.2 tally).map Prod.fst ↔
          name ∈ tally.map Prod.fst ∨ name = item.1 := by
        rw [map_fst_bump]
        split
        · next present =>
            refine ⟨Or.inl, fun either => either.elim id fun same => same ▸ present⟩
        · simp
      rw [show collect (item :: rest) tally = collect rest (bump item.1 item.2 tally) from rfl, ih,
        one, List.map_cons, List.mem_cons, or_assoc]

theorem amountOf_collect :
    amountOf name (collect items tally) = amountOf name tally + amountOf name items := by
  induction items generalizing tally with
  | nil => simp [collect, amountOf]
  | cons item rest ih =>
      obtain ⟨key, amount⟩ := item
      rw [show collect ((key, amount) :: rest) tally =
          collect rest (bump key amount tally) from rfl,
        ih, amountOf_bump, amountOf_cons, add_assoc]

theorem nodup_collect_nil :
    ((collect items ([] : List (κ × ν))).map Prod.fst).Nodup :=
  nodup_collect List.nodup_nil

theorem mem_map_fst_collect_nil :
    name ∈ (collect items ([] : List (κ × ν))).map Prod.fst ↔ name ∈ items.map Prod.fst :=
  mem_map_fst_collect.trans (or_iff_right List.not_mem_nil)

theorem amountOf_collect_nil : amountOf name (collect items []) = amountOf name items :=
  amountOf_collect.trans (zero_add _)

/-- The entries of a tally: every key that was added to, with all that was added. -/
theorem mem_collect :
    (name, value) ∈ collect items [] ↔
      name ∈ items.map Prod.fst ∧ value = amountOf name items := by
  constructor
  · intro member
    refine ⟨mem_map_fst_collect_nil.mp (List.mem_map.mpr ⟨_, member, rfl⟩), ?_⟩
    rw [← amountOf_collect_nil, amountOf_of_mem nodup_collect_nil member]
  · rintro ⟨key, rfl⟩
    obtain ⟨⟨found, value⟩, member, same⟩ := List.mem_map.mp (mem_map_fst_collect_nil.mpr key)
    cases same
    rwa [← amountOf_collect_nil, amountOf_of_mem nodup_collect_nil member]

/-- The order of the items does not matter. -/
theorem collect_perm (same : items.Perm other) : (collect items []).Perm (collect other []) := by
  have unique : ∀ items : List (κ × ν), (collect items []).Nodup :=
    fun items => nodup_collect_nil.of_map Prod.fst
  rw [List.perm_ext_iff_of_nodup (unique items) (unique other)]
  rintro ⟨name, value⟩
  rw [mem_collect, mem_collect, amountOf_perm same, (same.map Prod.fst).mem_iff]

end Amounts

end TimeTracker.Library.Tally
