import TimeTracker.Crypto.EncryptionKey

/-!
# Transcriptions of an encryption key

The reader of encryption keys sees its input only through `stripped`.  Its
three answers are told apart by the length of what is left and by the first
character outside the alphabet, and the keys it accepts are exactly the ones
whose printed symbols are what is left.
-/

namespace TimeTracker.Crypto.EncryptionKey

open TimeTracker.Text
open TimeTracker.Library.Bits

/-! ## Reading the symbols -/

/-- The place of a symbol in the alphabet. -/
def symbolValue (c : Char) : UInt8 :=
  UInt8.ofNat (ALPHABET.idxOf c)

/-- The first character that is not a symbol. -/
def foreign? (chars : List Char) : Option Char :=
  chars.find? fun c => decide (c ∉ ALPHABET)

theorem idxOf?_alphabet : ∀ c ∈ ALPHABET, ALPHABET.idxOf? c = some (ALPHABET.idxOf c) :=
  List.all_iff_forall_prop.mp (by decide)

theorem position_eq (c : Char) :
    position c = if c ∈ ALPHABET then .ok (symbolValue c) else .error (.character c) := by
  unfold position
  by_cases member : c ∈ ALPHABET
  · rw [idxOf?_alphabet c member, if_pos member]
    rfl
  · rw [List.idxOf?_eq_none_iff.mpr member, if_neg member]

/-- Reading stops at the first character that is not a symbol. -/
theorem mapM_position (chars : List Char) :
    chars.mapM position = match foreign? chars with
      | some c => .error (.character c)
      | none => .ok (chars.map symbolValue) := by
  induction chars with
  | nil => rfl
  | cons c rest ih =>
      rw [List.mapM_cons, position_eq, ih]
      by_cases member : c ∈ ALPHABET
      · have later : foreign? (c :: rest) = foreign? rest := by
          simp [foreign?, member]
        rw [if_pos member, later]
        cases foreign? rest <;> rfl
      · have here : foreign? (c :: rest) = some c := by
          simp [foreign?, member]
        rw [if_neg member, here]
        rfl

/-- The bytes a list of symbols is packed into. -/
def packed (chars : List Char) : Bytes :=
  (chars.map symbolValue).zipIdx.foldl writeSymbol (List.replicate KEY_BYTES 0)

/-- The reader looks at what is left of its input, and at nothing else. -/
theorem normalize_eq (input : String) :
    normalize input =
      if (stripped input).length ≠ KEY_CHARS then .error (.length (stripped input).length)
      else match foreign? (stripped input) with
        | some c => .error (.character c)
        | none => .ok (packed (stripped input)) := by
  by_cases count : (stripped input).length = KEY_CHARS
  · simp only [normalize, count, ne_eq, not_true_eq_false, if_false, mapM_position]
    cases foreign? (stripped input) <;> rfl
  · simp only [normalize, count, ne_eq, not_false_eq_true, if_true]
    rfl

/-! ## Packing and unpacking -/

theorem packBits_symbolBit : ∀ value < 32,
    packBits ((List.range 5).map (symbolBit (UInt8.ofNat value))) = UInt8.ofNat value := by
  decide

theorem symbolValue_alphabet : ∀ c ∈ ALPHABET,
    ALPHABET.idxOf c < 32 ∧ ALPHABET.getD (symbolValue c).toNat '0' = c :=
  List.all_iff_forall_prop.mp (by decide)

section Packed

variable {chars : List Char} (count : chars.length = KEY_CHARS)
include count

theorem length_packed : (packed chars).length = KEY_BYTES :=
  (bitAt_written ((List.length_map _).trans count)).1

/-- A symbol read out of the packed bytes is the one packed there. -/
theorem symbolAt_packed (plain : ∀ c ∈ chars, c ∈ ALPHABET) {i : Nat}
    (inside : i < chars.length) :
    symbolAt (packed chars) (i * 5) = symbolValue (chars[i]) := by
  obtain ⟨-, bits⟩ := bitAt_written ((List.length_map symbolValue).trans count)
  obtain ⟨small, -⟩ := symbolValue_alphabet _ (plain _ (List.getElem_mem inside))
  have read : (List.range 5).map (fun offset => bitAt (packed chars) (i * 5 + offset)) =
      (List.range 5).map (symbolBit (symbolValue chars[i])) := by
    apply List.map_congr_left
    intro offset member
    have low := List.mem_range.mp member
    have place : i * 5 + offset < 8 * KEY_BYTES := by
      simp only [count, KEY_CHARS, KEY_BYTES] at inside ⊢
      omega
    have quotient : (i * 5 + offset) / 5 = i := by omega
    have remainder : (i * 5 + offset) % 5 = offset := by omega
    have inMap : i < (chars.map symbolValue).length := by simpa using inside
    rw [packed, bits _ place, quotient, remainder, List.getD_eq_getElem _ _ inMap,
      List.getElem_map]
  rw [symbolAt_eq, read]
  exact packBits_symbolBit _ small

/-- Printing the packed bytes gives the symbols back. -/
theorem symbols_packed (plain : ∀ c ∈ chars, c ∈ ALPHABET) :
    symbols (packed chars) = chars := by
  apply List.ext_getElem
  · simp [symbols, count]
  · intro i _ inside
    obtain ⟨-, symbol⟩ := symbolValue_alphabet _ (plain _ (List.getElem_mem inside))
    simp only [symbols, List.getElem_map, List.getElem_range,
      symbolAt_packed count plain inside, symbol]

end Packed

/-- A printed key without its hyphens is its symbols. -/
theorem filter_formatKey (key : KeyBytes) :
    (formatKey key).toList.filter (fun c => c ≠ '-') = symbols key.val := by
  have plain : ∀ part ∈ groups (symbols key.val), ∀ c ∈ part,
      (decide (c ≠ '-')) = true := by
    intro part part_mem c c_mem
    have member := List.mem_flatten_of_mem part_mem c_mem
    rw [flatten_groups] at member
    have kept := (alphabet_plain c (mem_symbols member)).1
    simp only [Bool.and_eq_true] at kept
    exact kept.2
  rw [formatKey, String.toList_ofList, filter_intercalate (by decide) _ plain, flatten_groups]

/-! ## The three answers -/

theorem normalize_length (input : String) (n : Nat) :
    normalize input = .error (.length n) ↔
      (stripped input).length ≠ KEY_CHARS ∧ n = (stripped input).length := by
  rw [normalize_eq]
  by_cases count : (stripped input).length = KEY_CHARS
  · rw [if_neg (not_not.mpr count)]
    cases foreign? (stripped input) <;> simp [count]
  · rw [if_pos count]
    simp [count, eq_comm]

theorem normalize_character (input : String) (c : Char) :
    normalize input = .error (.character c) ↔
      (stripped input).length = KEY_CHARS ∧ foreign? (stripped input) = some c := by
  rw [normalize_eq]
  by_cases count : (stripped input).length = KEY_CHARS
  · rw [if_neg (not_not.mpr count)]
    cases foreign? (stripped input) <;> simp [count]
  · rw [if_pos count]
    simp [count]

theorem normalize_of_stripped_eq {input other : String}
    (same : stripped input = stripped other) : normalize input = normalize other := by
  rw [normalize_eq, normalize_eq, same]

theorem normalize_ok (input : String) (bytes : Bytes) :
    normalize input = .ok bytes ↔ ∃ key : KeyBytes, key.val = bytes ∧
      (formatKey key).toList.filter (fun c => c ≠ '-') = stripped input := by
  constructor
  · intro read
    rw [normalize_eq] at read
    split at read
    · cases read
    · next full =>
      have count := not_not.mp full
      split at read
      · cases read
      · next native =>
        cases read
        have plain : ∀ c ∈ stripped input, c ∈ ALPHABET := by
          simpa [foreign?] using native
        refine ⟨⟨packed (stripped input), length_packed count⟩, rfl, ?_⟩
        rw [filter_formatKey, symbols_packed count plain]
  · rintro ⟨key, rfl, printed⟩
    rw [filter_formatKey, ← stripped_formatKey] at printed
    exact (normalize_of_stripped_eq printed.symm).trans (normalize_formatKey key)

/-- Two inputs that are both accepted are read alike just when the same symbols
are left of them. -/
theorem stripped_eq_iff {input other : String} {bytes bytes' : Bytes}
    (read : normalize input = .ok bytes) (read' : normalize other = .ok bytes') :
    stripped input = stripped other ↔ bytes = bytes' := by
  constructor
  · intro same
    exact Except.ok.inj (read.symm.trans ((normalize_of_stripped_eq same).trans read'))
  · rintro rfl
    obtain ⟨key, value, printed⟩ := (normalize_ok ..).mp read
    obtain ⟨key', value', printed'⟩ := (normalize_ok ..).mp read'
    have same : key = key' := Subtype.ext (value.trans value'.symm)
    rw [← printed, ← printed', same]

/-- The codec is a bijection up to transcription: keys are read back, every
input gets the answer its symbols call for, and accepted inputs are read alike
exactly when their symbols are the same. -/
theorem normalize_transcription :
    (∀ key : KeyBytes, normalize (formatKey key) = .ok key.val) ∧
    (∀ input n, normalize input = .error (.length n) ↔
      (stripped input).length ≠ KEY_CHARS ∧ n = (stripped input).length) ∧
    (∀ input c, normalize input = .error (.character c) ↔
      (stripped input).length = KEY_CHARS ∧ foreign? (stripped input) = some c) ∧
    (∀ input bytes, normalize input = .ok bytes ↔ ∃ key : KeyBytes, key.val = bytes ∧
      (formatKey key).toList.filter (fun c => c ≠ '-') = stripped input) ∧
    (∀ input other, stripped input = stripped other → normalize input = normalize other) ∧
    (∀ input other bytes bytes', normalize input = .ok bytes → normalize other = .ok bytes' →
      bytes ≠ bytes' → stripped input ≠ stripped other) :=
  ⟨normalize_formatKey, normalize_length, normalize_character, normalize_ok,
    fun _ _ same => normalize_of_stripped_eq same,
    fun _ _ _ _ read read' apart same => apart ((stripped_eq_iff read read').mp same)⟩

end TimeTracker.Crypto.EncryptionKey
