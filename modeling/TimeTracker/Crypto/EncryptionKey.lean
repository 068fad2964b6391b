import Mathlib.Data.Bool.AllAny
import TimeTracker.Text
import TimeTracker.Library.Bits

/-!
# The encryption key in printable form

160 random bits in Crockford base32, eight groups of four, and the reader of
whatever the user types back.  The reader undoes the writer.
-/

namespace TimeTracker.Crypto.EncryptionKey

open TimeTracker.Text
open TimeTracker.Library.Bits

/-- Bytes of entropy in an encryption key. -/
def KEY_BYTES : Nat := 20

/-- Characters in a normalized encryption key. -/
def KEY_CHARS : Nat := 32

/-- The random bytes of an encryption key. -/
abbrev KeyBytes := { bytes : Bytes // bytes.length = KEY_BYTES }

/-- Crockford base32: no `I`, `L`, `O` and `U`. -/
def ALPHABET : List Char :=
  "0123456789ABCDEFGHJKMNPQRSTVWXYZ".toList

/-- A candidate encryption key could not be normalized. -/
inductive EncryptionKeyError
  | length (count : Nat)
  | character (c : Char)
  deriving DecidableEq, Repr

/-- Reads the 5-bit symbol starting at bit `bitStart`. -/
def symbolAt (bytes : Bytes) (bitStart : Nat) : UInt8 :=
  (List.range 5).foldl (fun acc offset =>
    let bit := bitStart + offset
    let bitValue := bytes.getD (bit / 8) 0 >>> UInt8.ofNat (7 - bit % 8) &&& 1
    acc <<< 1 ||| bitValue) 0

/-- `chunks(4)`. -/
def groups : List Char → List (List Char)
  | a :: b :: c :: d :: rest => [a, b, c, d] :: groups rest
  | [] => []
  | rest => [rest]

/-- The symbols of a key, before they are grouped. -/
def symbols (bytes : Bytes) : List Char :=
  (List.range KEY_CHARS).map fun i =>
    ALPHABET.getD (symbolAt bytes (i * 5)).toNat '0'

/-- Groups of four symbols, joined with `-`. -/
def formatKey (bytes : KeyBytes) : String :=
  String.ofList (['-'].intercalate (groups (symbols bytes.val)))

/-- Maps a character typed for an excluded lookalike onto the actual symbol. -/
def foldAlias (c : Char) : Char :=
  if c = 'I' ∨ c = 'L' then '1' else if c = 'O' then '0' else c

/-- What is left of the input without white space, hyphens, case and aliases. -/
def stripped (input : String) : List Char :=
  (input.toList.filter fun c => !isWhitespace c && c ≠ '-').map fun c =>
    foldAlias c.toUpper

/-- The value of a symbol. -/
def position (c : Char) : Except EncryptionKeyError UInt8 :=
  match ALPHABET.idxOf? c with
  | some place => .ok (UInt8.ofNat place)
  | none => .error (.character c)

/-- Sets the bits of one symbol. -/
def writeSymbol (bytes : Bytes) (symbol : UInt8 × Nat) : Bytes :=
  (List.range 5).foldl (fun bytes offset =>
    if symbol.1 >>> UInt8.ofNat (4 - offset) &&& 1 = 1 then
      setBit bytes (symbol.2 * 5 + offset)
    else bytes) bytes

/-- Reverses `formatKey`. -/
def normalize (input : String) : Except EncryptionKeyError Bytes := do
  let stripped := stripped input
  if stripped.length ≠ KEY_CHARS then
    throw (.length stripped.length)
  let symbols ← stripped.mapM position
  return symbols.zipIdx.foldl writeSymbol (List.replicate KEY_BYTES 0)

/-! ## The bits of a symbol -/

/-- A byte from its lowest bits, the first one the most significant. -/
def packBits (bits : List Bool) : UInt8 :=
  bits.foldl (fun acc bit => acc <<< 1 ||| if bit then 1 else 0) 0

/-- Bit `offset` of a symbol, as the reader tests it. -/
def symbolBit (symbol : UInt8) (offset : Nat) : Bool :=
  symbol >>> UInt8.ofNat (4 - offset) &&& 1 = 1

theorem packBits_lt (a b c d e : Bool) : (packBits [a, b, c, d, e]).toNat < 32 := by
  revert a b c d e
  decide

theorem symbolBit_packBits (a b c d e : Bool) (offset : Fin 5) :
    symbolBit (packBits [a, b, c, d, e]) offset = [a, b, c, d, e][offset] := by
  revert a b c d e offset
  decide

section Symbols

variable (bytes : Bytes) (bitStart : Nat)

theorem symbolAt_eq : symbolAt bytes bitStart =
    packBits ((List.range 5).map fun offset => bitAt bytes (bitStart + offset)) := by
  have bitValue (place : Nat) :
      bytes.getD (place / 8) 0 >>> UInt8.ofNat (7 - place % 8) &&& 1 =
        if bitAt bytes place then 1 else 0 :=
    shift_and_one (by omega)
  simp only [symbolAt, packBits, List.foldl_map, bitValue]

theorem symbolAt_lt : (symbolAt bytes bitStart).toNat < 32 := by
  rw [symbolAt_eq]
  exact packBits_lt ..

/-- The bits of a symbol are the five bits it was read from. -/
theorem symbolBit_symbolAt {offset : Nat} (small : offset < 5) :
    symbolBit (symbolAt bytes bitStart) offset = bitAt bytes (bitStart + offset) := by
  rw [symbolAt_eq]
  have bit := symbolBit_packBits (bitAt bytes (bitStart + 0)) (bitAt bytes (bitStart + 1))
    (bitAt bytes (bitStart + 2)) (bitAt bytes (bitStart + 3))
    (bitAt bytes (bitStart + 4)) ⟨offset, small⟩
  have which : offset = 0 ∨ offset = 1 ∨ offset = 2 ∨ offset = 3 ∨ offset = 4 := by omega
  obtain rfl | rfl | rfl | rfl | rfl := which <;> exact bit

end Symbols

/-! ## Writing symbols into bytes -/

/-- The bits a list of offsets of one symbol stands for. -/
def claims (symbol : UInt8 × Nat) (index offset : Nat) : Bool :=
  symbolBit symbol.1 offset && symbol.2 * 5 + offset = index

theorem bitAt_foldl_setBit (symbol : UInt8 × Nat) (place : symbol.2 < KEY_CHARS)
    (offsets : List Nat) (small : ∀ offset ∈ offsets, offset < 5) (bytes : Bytes)
    (length : bytes.length = KEY_BYTES) :
    let written := offsets.foldl (fun bytes offset =>
      if symbol.1 >>> UInt8.ofNat (4 - offset) &&& 1 = 1 then
        setBit bytes (symbol.2 * 5 + offset)
      else bytes) bytes
    written.length = KEY_BYTES ∧ ∀ index,
      bitAt written index = (bitAt bytes index || offsets.any (claims symbol index)) := by
  induction offsets generalizing bytes with
  | nil => simp [length]
  | cons offset rest ih =>
      have here := small offset (List.mem_cons_self ..)
      have later := ih (fun other other_mem => small other (List.mem_cons_of_mem _ other_mem))
      by_cases bit : symbol.1 >>> UInt8.ofNat (4 - offset) &&& 1 = 1
      · have inside : (symbol.2 * 5 + offset) / 8 < bytes.length := by
          rw [length]
          simp only [KEY_CHARS, KEY_BYTES] at place ⊢
          omega
        obtain ⟨same, bits⟩ := later (setBit bytes (symbol.2 * 5 + offset))
          ((length_setBit ..).trans length)
        simp only [List.foldl_cons, bit, if_true]
        refine ⟨same, fun index => ?_⟩
        rw [bits, bitAt_setBit inside, List.any_cons]
        have claimed : claims symbol index offset =
            decide (symbol.2 * 5 + offset = index) := by
          simp [claims, symbolBit, bit]
        rw [claimed, Bool.or_assoc, Bool.or_left_comm]
      · obtain ⟨same, bits⟩ := later bytes length
        simp only [List.foldl_cons, bit, if_false]
        refine ⟨same, fun index => ?_⟩
        rw [bits]
        simp [claims, symbolBit, bit]

theorem bitAt_foldl_writeSymbol (places : List (UInt8 × Nat))
    (inside : ∀ symbol ∈ places, symbol.2 < KEY_CHARS) (bytes : Bytes)
    (length : bytes.length = KEY_BYTES) :
    (places.foldl writeSymbol bytes).length = KEY_BYTES ∧ ∀ index,
      bitAt (places.foldl writeSymbol bytes) index = (bitAt bytes index ||
        places.any fun symbol => (List.range 5).any (claims symbol index)) := by
  induction places generalizing bytes with
  | nil => simp [length]
  | cons symbol rest ih =>
      obtain ⟨same, bits⟩ := bitAt_foldl_setBit symbol
        (inside symbol (List.mem_cons_self ..)) (List.range 5)
        (fun offset member => List.mem_range.mp member) bytes length
      obtain ⟨finished, all⟩ := ih
        (fun other member => inside other (List.mem_cons_of_mem _ member)) _ same
      refine ⟨finished, fun index => ?_⟩
      rw [List.foldl_cons, List.any_cons, ← Bool.or_assoc, ← bits]
      exact all index

/-! ## The round trip -/

/-- A joined list of groups without its separators. -/
theorem filter_intercalate {keep : Char → Bool} {separator : Char}
    (dropped : keep separator = false) (parts : List (List Char))
    (kept : ∀ part ∈ parts, ∀ c ∈ part, keep c = true) :
    ([separator].intercalate parts).filter keep = parts.flatten := by
  induction parts with
  | nil => rfl
  | cons first rest ih =>
      have head : first.filter keep = first :=
        List.filter_eq_self.mpr (kept first (List.mem_cons_self ..))
      have tail := ih fun part member => kept part (List.mem_cons_of_mem _ member)
      cases rest with
      | nil => simpa [List.intercalate] using head
      | cons second rest =>
          rw [List.intercalate_cons_cons, List.filter_append, List.filter_append, head, tail]
          simp [dropped]

theorem flatten_groups (chars : List Char) : (groups chars).flatten = chars := by
  induction chars using groups.induct with
  | case1 a b c d rest ih => simp [groups, ih]
  | case2 => rfl
  | case3 rest short nonempty =>
      rw [groups]
      · simp
      · exact short
      · exact nonempty

/-- A symbol survives stripping, upper-casing and alias folding. -/
theorem alphabet_plain : ∀ c ∈ ALPHABET,
    (!isWhitespace c && c ≠ '-') = true ∧ foldAlias c.toUpper = c :=
  List.all_iff_forall_prop.mp (by decide)

theorem position_alphabet : ∀ value < 32,
    position (ALPHABET.getD value '0') = .ok (UInt8.ofNat value) := by
  decide

theorem mem_symbols {bytes : Bytes} {c : Char} (member : c ∈ symbols bytes) :
    c ∈ ALPHABET := by
  obtain ⟨i, -, rfl⟩ := List.mem_map.mp member
  have small : (symbolAt bytes (i * 5)).toNat < ALPHABET.length := symbolAt_lt ..
  rw [List.getD_eq_getElem _ _ small]
  exact List.getElem_mem small

theorem stripped_formatKey (bytes : KeyBytes) :
    stripped (formatKey bytes) = symbols bytes.val := by
  have plain : ∀ part ∈ groups (symbols bytes.val), ∀ c ∈ part,
      (!isWhitespace c && c ≠ '-') = true := by
    intro part part_mem c c_mem
    have member := List.mem_flatten_of_mem part_mem c_mem
    rw [flatten_groups] at member
    exact (alphabet_plain c (mem_symbols member)).1
  rw [stripped, formatKey, String.toList_ofList, filter_intercalate (by decide) _ plain,
    flatten_groups]
  have folded : ∀ c ∈ symbols bytes.val, foldAlias c.toUpper = c :=
    fun c member => (alphabet_plain c (mem_symbols member)).2
  exact (List.map_congr_left folded).trans (List.map_id _)

/-- Reading succeeds when each item does. -/
theorem mapM_map_eq_ok {α β γ ε : Type} {items : List α} {write : α → β}
    {read : β → Except ε γ} {value : α → γ}
    (reads : ∀ item, read (write item) = .ok (value item)) :
    (items.map write).mapM read = .ok (items.map value) := by
  induction items with
  | nil => rfl
  | cons item rest ih =>
      simp only [List.map_cons, List.mapM_cons, reads, ih]
      rfl

theorem mapM_position_symbols (bytes : Bytes) :
    (symbols bytes).mapM position =
      .ok ((List.range KEY_CHARS).map fun i => symbolAt bytes (i * 5)) := by
  apply mapM_map_eq_ok
  intro i
  rw [position_alphabet _ (symbolAt_lt ..)]
  exact congrArg Except.ok UInt8.ofNat_toNat

/-- The symbols of a key claim the bits they have, five each. -/
theorem any_claims {values : List UInt8} (count : values.length = KEY_CHARS) {index : Nat}
    (inside : index < 8 * KEY_BYTES) :
    (values.zipIdx.any fun symbol => (List.range 5).any (claims symbol index)) =
      symbolBit (values.getD (index / 5) 0) (index % 5) := by
  have place : index / 5 < values.length := by
    rw [count]
    simp only [KEY_BYTES, KEY_CHARS] at inside ⊢
    omega
  rw [List.getD_eq_getElem _ _ place]
  apply Bool.eq_iff_iff.mpr
  simp only [List.any_eq_true, Prod.exists, List.mem_zipIdx_iff_getElem?, List.mem_range,
    claims, Bool.and_eq_true, decide_eq_true_eq]
  constructor
  · rintro ⟨symbol, i, found, offset, small, bit, rfl⟩
    obtain ⟨bound, rfl⟩ := List.getElem?_eq_some_iff.mp found
    have quotient : (i * 5 + offset) / 5 = i := by omega
    have remainder : (i * 5 + offset) % 5 = offset := by omega
    simpa only [quotient, remainder] using bit
  · intro bit
    exact ⟨_, index / 5, List.getElem?_eq_getElem place, index % 5,
      Nat.mod_lt _ (by decide), bit, by omega⟩

/-- What writing all symbols into an empty key gives, bit by bit. -/
theorem bitAt_written {values : List UInt8} (count : values.length = KEY_CHARS) :
    (values.zipIdx.foldl writeSymbol (List.replicate KEY_BYTES 0)).length = KEY_BYTES ∧
      ∀ index < 8 * KEY_BYTES,
        bitAt (values.zipIdx.foldl writeSymbol (List.replicate KEY_BYTES 0)) index =
          symbolBit (values.getD (index / 5) 0) (index % 5) := by
  have inside : ∀ symbol ∈ values.zipIdx, symbol.2 < KEY_CHARS := by
    intro symbol member
    have bound := List.snd_lt_of_mem_zipIdx member
    omega
  obtain ⟨same, bits⟩ := bitAt_foldl_writeSymbol _ inside
    (List.replicate KEY_BYTES 0) List.length_replicate
  refine ⟨same, fun index small => ?_⟩
  rw [bits, bitAt_replicate_zero, Bool.false_or, any_claims count small]

/-- What the user is shown reads back as the bytes it was made from. -/
theorem normalize_formatKey (bytes : KeyBytes) :
    normalize (formatKey bytes) = .ok bytes.val := by
  obtain ⟨bytes, length⟩ := bytes
  have count : (symbols bytes).length = KEY_CHARS := by simp [symbols]
  have places : ((List.range KEY_CHARS).map fun i => symbolAt bytes (i * 5)).length =
      KEY_CHARS := by simp
  obtain ⟨same, bits⟩ := bitAt_written places
  have written : ((List.range KEY_CHARS).map fun i =>
      symbolAt bytes (i * 5)).zipIdx.foldl writeSymbol (List.replicate KEY_BYTES 0) =
        bytes := by
    apply ext_bitAt (same.trans length.symm)
    intro index small
    rw [same] at small
    have place : index / 5 < KEY_CHARS := by
      simp only [KEY_BYTES, KEY_CHARS] at small ⊢
      omega
    rw [bits index small, List.getD_eq_getElem _ _ (by simpa using place), List.getElem_map,
      List.getElem_range, symbolBit_symbolAt _ _ (Nat.mod_lt _ (by decide)), Nat.div_add_mod']
  simp only [normalize, stripped_formatKey, count, mapM_position_symbols]
  simp [written, bind, Except.bind, pure, Except.pure]

end TimeTracker.Crypto.EncryptionKey
