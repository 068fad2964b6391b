import Mathlib.Algebra.Ring.Int.Defs
import Mathlib.Algebra.Ring.Nat

/-!
# Decimal integers

The text of a machine integer and the reader of that text, which takes a sign
and leading zeros and refuses what does not fit the word.
-/

namespace TimeTracker.Library.Decimal

/-- The signed integers of a word of this many bits. -/
def Fits (bits : Nat) (n : Int) : Prop :=
  -2 ^ (bits - 1) ≤ n ∧ n < 2 ^ (bits - 1)

instance (bits : Nat) (n : Int) : Decidable (Fits bits n) :=
  inferInstanceAs (Decidable (_ ∧ _))

/-- The decimal text of an integer. -/
def write (n : Int) : List Char :=
  if n < 0 then '-' :: Nat.toDigits 10 n.natAbs else Nat.toDigits 10 n.natAbs

/-- A number of one or more digits. -/
def readDigits (chars : List Char) : Option Nat :=
  if chars ≠ [] ∧ chars.all Char.isDigit then some (Nat.ofDigitChars 10 chars 0)
  else none

/-- An integer with an optional sign, if it fits the word. -/
def read (bits : Nat) (chars : List Char) : Option Int :=
  let value : Option Int := match chars with
    | '-' :: digits => (readDigits digits).map fun n => -(n : Int)
    | '+' :: digits => (readDigits digits).map fun n => (n : Int)
    | digits => (readDigits digits).map fun n => (n : Int)
  value.filter fun n => Fits bits n

theorem isDigit_toDigits {n : Nat} {c : Char} (member : c ∈ Nat.toDigits 10 n) :
    c.isDigit = true :=
  Nat.isDigit_of_mem_toDigits (by decide) (by decide) member

@[simp] theorem readDigits_toDigits (n : Nat) :
    readDigits (Nat.toDigits 10 n) = some n := by
  have present : Nat.toDigits 10 n ≠ [] := Nat.toDigits_ne_nil
  have digits : (Nat.toDigits 10 n).all Char.isDigit = true :=
    List.all_eq_true.mpr fun _ => isDigit_toDigits
  rw [readDigits, if_pos ⟨present, digits⟩, Nat.ofDigitChars_ten_toDigits]

/-- A number is read without a sign as it is with one. -/
theorem read_of_digits {bits : Nat} {chars : List Char}
    (digits : ∀ c ∈ chars, c.isDigit = true) :
    read bits chars =
      ((readDigits chars).map fun n => (n : Int)).filter fun n => Fits bits n := by
  unfold read
  split
  · exact absurd (digits '-' (List.mem_cons_self ..)) (by decide)
  · exact absurd (digits '+' (List.mem_cons_self ..)) (by decide)
  · rfl

/-- What is written reads back. -/
theorem read_write {bits : Nat} {n : Int} (fits : Fits bits n) :
    read bits (write n) = some n := by
  unfold write
  split
  · next negative =>
      have value : -(n.natAbs : Int) = n := by omega
      rw [read, readDigits_toDigits]
      exact Option.filter_eq_some_iff.mpr ⟨congrArg some value, decide_eq_true fits⟩
  · next positive =>
      have value : (n.natAbs : Int) = n := by omega
      rw [read_of_digits fun _ => isDigit_toDigits]
      simp [value, fits]

/-- The text of an integer is digits after an optional minus sign. -/
theorem not_mem_write {n : Int} {c : Char} (noDigit : c.isDigit = false)
    (noSign : c ≠ '-') : c ∉ write n := by
  unfold write
  have absent : c ∉ Nat.toDigits 10 n.natAbs := by
    intro member
    rw [isDigit_toDigits member] at noDigit
    cases noDigit
  split
  · exact fun member => (List.mem_cons.mp member).elim noSign absent
  · exact absent

theorem toNat_of_isDigit {c : Char} (digit : c.isDigit = true) :
    48 ≤ c.toNat ∧ c.toNat ≤ 57 := by
  simp only [Char.isDigit, Bool.and_eq_true, decide_eq_true_eq, ge_iff_le,
    UInt32.le_iff_toNat_le] at digit
  exact digit

/-- The first digit counts as many units as there are numbers of the remaining ones. -/
theorem ofDigitChars_cons (c : Char) (rest : List Char) :
    Nat.ofDigitChars 10 (c :: rest) 0 =
      10 ^ rest.length * (c.toNat - 48) + Nat.ofDigitChars 10 rest 0 := by
  have zero : '0'.toNat = 48 := rfl
  rw [Nat.ofDigitChars_cons, Nat.ofDigitChars_eq_ofDigitChars_zero, Nat.mul_zero, Nat.zero_add,
    zero]

theorem ofDigitChars_lt {chars : List Char} (digits : ∀ c ∈ chars, c.isDigit = true) :
    Nat.ofDigitChars 10 chars 0 < 10 ^ chars.length := by
  induction chars with
  | nil => simp
  | cons c rest ih =>
      obtain ⟨low, high⟩ := toNat_of_isDigit (digits c (List.mem_cons_self ..))
      have later := ih fun other member => digits other (List.mem_cons_of_mem _ member)
      have scaled : 10 ^ rest.length * (c.toNat - 48) ≤ 10 ^ rest.length * 9 :=
        Nat.mul_le_mul_left _ (by omega)
      rw [ofDigitChars_cons, List.length_cons, Nat.pow_succ]
      omega

/-- Of two numbers of as many digits, the smaller one is the smaller text. -/
theorem lt_of_ofDigitChars_lt {first second : List Char}
    (digits : ∀ c ∈ first, c.isDigit = true) (others : ∀ c ∈ second, c.isDigit = true)
    (width : first.length = second.length)
    (less : Nat.ofDigitChars 10 first 0 < Nat.ofDigitChars 10 second 0) : first < second := by
  induction first generalizing second with
  | nil =>
      cases second with
      | nil => exact absurd less (Nat.lt_irrefl _)
      | cons d rest => cases width
  | cons c rest ih =>
      cases second with
      | nil => cases width
      | cons d other =>
          have length : rest.length = other.length := Nat.succ.inj width
          have low := (toNat_of_isDigit (others d (List.mem_cons_self ..))).1
          have below := ofDigitChars_lt fun e member =>
            others e (List.mem_cons_of_mem _ member)
          rw [ofDigitChars_cons, ofDigitChars_cons, length] at less
          rw [List.cons_lt_cons_iff]
          rcases Nat.lt_trichotomy c.toNat d.toNat with smaller | same | larger
          · exact Or.inl smaller
          · refine Or.inr ⟨Char.toNat_inj.mp same, ?_⟩
            rw [same] at less
            exact ih (fun e member => digits e (List.mem_cons_of_mem _ member))
              (fun e member => others e (List.mem_cons_of_mem _ member)) length
              (Nat.lt_of_add_lt_add_left less)
          · have more : 10 ^ other.length * (d.toNat - 48 + 1) ≤
                10 ^ other.length * (c.toNat - 48) :=
              Nat.mul_le_mul_left _ (by omega)
            rw [Nat.mul_add, Nat.mul_one] at more
            omega

/-- What follows texts of one length does not change their order. -/
theorem append_lt_append {α : Type} [LT α] {first second : List α}
    (width : first.length = second.length) (less : first < second) (rest other : List α) :
    first ++ rest < second ++ other := by
  induction first generalizing second with
  | nil =>
      cases second with
      | nil => exact absurd less (List.not_lt_nil _)
      | cons d tail => cases width
  | cons c tail ih =>
      cases second with
      | nil => cases width
      | cons d others =>
          rw [List.cons_append, List.cons_append, List.cons_lt_cons_iff]
          obtain smaller | ⟨rfl, later⟩ := List.cons_lt_cons_iff.mp less
          · exact Or.inl smaller
          · exact Or.inr ⟨rfl, ih (Nat.succ.inj width) later⟩

/-- The digits of a number are those of its leading part, and then the rest. -/
theorem toDigits_split {count lead low : Nat} (positive : 0 < lead) (small : low < 10 ^ count) :
    ∃ tail, Nat.toDigits 10 (10 ^ count * lead + low) = Nat.toDigits 10 lead ++ tail ∧
      tail.length = count ∧ ∀ c ∈ tail, c.isDigit = true := by
  induction count generalizing low with
  | zero =>
      obtain rfl := Nat.lt_one_iff.mp small
      exact ⟨[], by simp, rfl, fun c member => absurd member List.not_mem_nil⟩
  | succ count ih =>
      have part : low / 10 < 10 ^ count := by
        rw [Nat.pow_succ] at small
        omega
      obtain ⟨tail, digits, length, all⟩ := ih part
      have number : 10 ^ (count + 1) * lead + low =
          10 * (10 ^ count * lead + low / 10) + low % 10 := by
        rw [Nat.pow_succ, Nat.mul_comm (10 ^ count) 10, Nat.mul_assoc]
        omega
      have leads : 0 < 10 ^ count * lead + low / 10 :=
        Nat.add_pos_left (Nat.mul_pos (Nat.pow_pos (by decide)) positive) _
      have last : low % 10 < 10 := Nat.mod_lt _ (by decide)
      refine ⟨tail ++ [(low % 10).digitChar], ?_, by simp [length], ?_⟩
      · rw [number, ← Nat.toDigits_append_toDigits (by decide) leads last, digits,
          Nat.toDigits_of_lt_base last, List.append_assoc]
      · intro c member
        rcases List.mem_append.mp member with early | final
        · exact all c early
        · rw [← Nat.toDigits_of_lt_base last] at final
          exact isDigit_toDigits final

end TimeTracker.Library.Decimal
