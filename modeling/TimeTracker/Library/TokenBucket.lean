import Mathlib.Algebra.Order.Ring.Defs
import Mathlib.Algebra.Order.Ring.Cast
import Mathlib.Tactic.Linarith

/-!
# Token buckets

A bucket is refilled at a constant rate up to its capacity, and whoever finds a token
in it may spend it.  However the refills are cut into pieces, the bucket holds the
same in the end; and over any stretch of time it hands out no more than its capacity
and what has come back meanwhile.
-/

namespace TimeTracker.Library.TokenBucket

variable {α : Type} [CommRing α] [LinearOrder α]

/-- What the bucket holds once so much has come back. -/
def refill (capacity tokens amount : α) : α :=
  min (tokens + amount) capacity

section Refills

variable {capacity tokens amount later : α}

theorem refill_le_capacity : refill capacity tokens amount ≤ capacity :=
  min_le_right _ _

theorem refill_le_add : refill capacity tokens amount ≤ tokens + amount :=
  min_le_left _ _

theorem refill_zero (held : tokens ≤ capacity) : refill capacity tokens 0 = tokens := by
  rw [refill, add_zero, min_eq_left held]

variable [IsStrictOrderedRing α]

theorem refill_nonneg (held : 0 ≤ tokens) (comes : 0 ≤ amount) (room : 0 ≤ capacity) :
    0 ≤ refill capacity tokens amount :=
  le_min (add_nonneg held comes) room

/-- Refills add up, whether or not the bucket overflows in between. -/
theorem refill_refill (comes : 0 ≤ later) :
    refill capacity (refill capacity tokens amount) later =
      refill capacity tokens (amount + later) := by
  have overflows : capacity ≤ capacity + later := le_add_of_nonneg_right comes
  rw [refill, refill, refill, ← min_add_add_right, add_assoc, min_assoc, min_eq_right overflows]

/-- A token is there once enough has come back for one. -/
theorem one_le_refill (room : 1 ≤ capacity) (held : 0 ≤ tokens) (comes : 1 ≤ amount) :
    1 ≤ refill capacity tokens amount :=
  le_min (le_add_of_nonneg_of_le held comes) room

end Refills

/--
What a window of time has seen spent, with what the bucket holds since it was last
seen: nothing before the window opens; inside it, no more than the capacity and what
has come back since; and never more than that over the whole window.
-/
structure Budget (capacity rate opens closes seen tokens : α) (spent : Nat) : Prop where
  before : seen < opens → spent = 0
  inside : seen ≤ closes → (spent : α) + tokens ≤ capacity + rate * max (seen - opens) 0
  total : (spent : α) ≤ capacity + rate * (closes - opens)

section Windows

variable [IsStrictOrderedRing α] {capacity rate opens closes seen tokens now : α}
  {spent cost : Nat}

/-- A full bucket has the whole budget. -/
theorem budget_full (room : 0 ≤ capacity) (flows : 0 ≤ rate) (window : opens ≤ closes) :
    Budget capacity rate opens closes seen capacity 0 where
  before _ := rfl
  inside _ := by
    have comes : 0 ≤ rate * max (seen - opens) 0 := mul_nonneg flows (le_max_right _ _)
    rw [Nat.cast_zero, zero_add]
    exact le_add_of_nonneg_right comes
  total := by
    rw [Nat.cast_zero]
    exact add_nonneg room (mul_nonneg flows (sub_nonneg.mpr window))

/-- The budget is kept by a visit that spends no more than is there, and is not earlier
than the one before. -/
theorem Budget.visit (budget : Budget capacity rate opens closes seen tokens spent)
    (flows : 0 ≤ rate) (order : seen ≤ now)
    (affords : (cost : α) ≤ refill capacity tokens ((now - seen) * rate)) :
    Budget capacity rate opens closes now
      (refill capacity tokens ((now - seen) * rate) - cost)
      (spent + if opens ≤ now ∧ now ≤ closes then cost else 0) := by
  have spends : (0 : α) ≤ cost := Nat.cast_nonneg cost
  have full : refill capacity tokens ((now - seen) * rate) ≤ capacity := refill_le_capacity
  have comes : refill capacity tokens ((now - seen) * rate) ≤ tokens + (now - seen) * rate :=
    refill_le_add
  generalize refill capacity tokens ((now - seen) * rate) = held at *
  by_cases early : now < opens
  · obtain rfl : spent = 0 := budget.before (lt_of_le_of_lt order early)
    have outside : ¬ (opens ≤ now ∧ now ≤ closes) := fun inside => not_lt.mpr inside.1 early
    rw [if_neg outside]
    refine ⟨fun _ => rfl, fun _ => ?_, budget.total⟩
    have grown : 0 ≤ rate * max (now - opens) 0 := mul_nonneg flows (le_max_right _ _)
    push_cast
    linarith
  · have opened : opens ≤ now := not_lt.mp early
    by_cases late : now ≤ closes
    · -- what was spent before, with all that is there now
      have allowed : (spent : α) + held ≤ capacity + rate * (now - opens) := by
        by_cases first : seen < opens
        · rw [budget.before first, Nat.cast_zero, zero_add]
          have grown : 0 ≤ rate * (now - opens) := mul_nonneg flows (sub_nonneg.mpr opened)
          linarith
        · have so_far := budget.inside (order.trans late)
          rw [max_eq_left (sub_nonneg.mpr (not_lt.mp first))] at so_far
          linarith [so_far, comes]
      rw [if_pos ⟨opened, late⟩]
      refine ⟨fun early' => absurd early' early, fun _ => ?_, ?_⟩
      · rw [max_eq_left (sub_nonneg.mpr opened)]
        push_cast
        linarith
      · have shorter : rate * (now - opens) ≤ rate * (closes - opens) :=
          mul_le_mul_of_nonneg_left (sub_le_sub_right late _) flows
        push_cast
        linarith
    · rw [if_neg fun inside => late inside.2]
      exact ⟨fun early' => absurd early' early, fun late' => absurd late' late, budget.total⟩

end Windows

end TimeTracker.Library.TokenBucket
