import Mathlib.Algebra.Ring.Nat
import Mathlib.Data.List.Infix
import Mathlib.Data.List.TakeWhile

/-!
# Strings and bytes

The part of the standard library's string handling that the program rests on,
over lists of characters: Unicode white space, trimming, and splitting at the
first separator.
-/

namespace TimeTracker.Text

/-- A byte string. -/
abbrev Bytes := List UInt8

/-- The bytes of a string of ASCII characters. -/
def asciiBytes (text : String) : Bytes :=
  text.toList.map fun c => UInt8.ofNat c.toNat

/-- `str::as_bytes`. -/
def utf8 (text : String) : Bytes :=
  text.toByteArray.data.toList

/-- `String::from_utf8`. -/
def fromUtf8 (bytes : Bytes) : Option String :=
  String.fromUTF8? ⟨bytes.toArray⟩

@[simp] theorem fromUtf8_utf8 (text : String) : fromUtf8 (utf8 text) = some text := by
  have bytes : (⟨(utf8 text).toArray⟩ : ByteArray) = text.toByteArray := by
    simp [utf8]
  rw [fromUtf8, bytes]
  exact dif_pos text.isValidUTF8

/-- `char::is_whitespace`: the Unicode `White_Space` property. -/
def isWhitespace (c : Char) : Bool :=
  let code := c.toNat
  (9 ≤ code && code ≤ 13) || code == 0x20 || code == 0x85 || code == 0xA0 ||
    code == 0x1680 || (0x2000 ≤ code && code ≤ 0x200A) || code == 0x2028 ||
    code == 0x2029 || code == 0x202F || code == 0x205F || code == 0x3000

/-- `str::trim`: drop white space from both ends. -/
def trim (chars : List Char) : List Char :=
  ((chars.dropWhile isWhitespace).reverse.dropWhile isWhitespace).reverse

/-- Nothing but white space. -/
def Blank (chars : List Char) : Prop :=
  ∀ c ∈ chars, isWhitespace c = true

theorem blank_takeWhile (chars : List Char) : Blank (chars.takeWhile isWhitespace) :=
  fun _ => List.mem_takeWhile_imp

theorem Blank.dropWhile {blank : List Char} (isBlank : Blank blank) (rest : List Char) :
    (blank ++ rest).dropWhile isWhitespace = rest.dropWhile isWhitespace :=
  List.dropWhile_append_of_pos isBlank

/-- White space at either end makes no difference. -/
theorem trim_append {blank chars blank' : List Char} (isBlank : Blank blank)
    (isBlank' : Blank blank') : trim (blank ++ chars ++ blank') = trim chars := by
  unfold trim
  rw [List.append_assoc, isBlank.dropWhile, List.dropWhile_append]
  split
  · next none =>
      rw [List.dropWhile_eq_nil_iff.mpr isBlank', List.isEmpty_iff.mp none]
  · have ends : ∀ c ∈ blank'.reverse, isWhitespace c = true :=
      fun c member => isBlank' c (List.mem_reverse.mp member)
    rw [List.reverse_append, List.dropWhile_append_of_pos ends]

theorem trim_map {f : Char → Char} (keeps : ∀ c, isWhitespace (f c) = isWhitespace c)
    (chars : List Char) : trim (chars.map f) = (trim chars).map f := by
  have same : isWhitespace ∘ f = isWhitespace := funext keeps
  unfold trim
  rw [List.dropWhile_map, same, ← List.map_reverse, List.dropWhile_map, same, List.map_reverse]

theorem dropWhile_isWhitespace {chars : List Char}
    (absent : ∀ c ∈ chars, isWhitespace c = false) :
    chars.dropWhile isWhitespace = chars := by
  cases chars with
  | nil => rfl
  | cons c rest => simp [absent c (List.mem_cons_self ..)]

/-- A string without white space has nothing to trim. -/
theorem trim_of_absent {chars : List Char}
    (absent : ∀ c ∈ chars, isWhitespace c = false) : trim chars = chars := by
  unfold trim
  rw [dropWhile_isWhitespace absent, dropWhile_isWhitespace, List.reverse_reverse]
  simpa using absent

/-! ## ASCII case -/

theorem isUpper_iff {c : Char} : c.isUpper = true ↔ 65 ≤ c.toNat ∧ c.toNat ≤ 90 := by
  have range : c.isUpper = true ↔ 'A'.val ≤ c.val ∧ c.val ≤ 'Z'.val := decide_eq_true_iff
  rw [range, UInt32.le_iff_toNat_le, UInt32.le_iff_toNat_le]
  exact Iff.rfl

/-- `char::to_ascii_lowercase` moves the capitals and nothing else. -/
theorem toLower_cases (c : Char) :
    c.isUpper = true ∧ c.toLower.toNat = c.toNat + 32 ∨ c.isUpper = false ∧ c.toLower = c := by
  by_cases upper : c.isUpper = true
  · refine Or.inl ⟨upper, ?_⟩
    have range : c.val ≥ 'A'.val ∧ c.val ≤ 'Z'.val := of_decide_eq_true upper
    have high := (isUpper_iff.mp upper).2
    have moved : c.toLower.val = c.val + ('a'.val - 'A'.val) :=
      congrArg Char.val (dif_pos range)
    have sum : (c.val + ('a'.val - 'A'.val)).toNat = (c.toNat + 32) % 2 ^ 32 :=
      UInt32.toNat_add ..
    change c.toLower.val.toNat = c.toNat + 32
    rw [moved, sum]
    exact Nat.mod_eq_of_lt (by omega)
  · refine Or.inr ⟨Bool.not_eq_true _ ▸ upper, ?_⟩
    exact dif_neg fun range => upper (decide_eq_true range)

theorem isUpper_toLower (c : Char) : c.toLower.isUpper = false := by
  rw [← Bool.not_eq_true, isUpper_iff]
  rcases toLower_cases c with ⟨upper, same⟩ | ⟨lower, same⟩
  · have := isUpper_iff.mp upper
    omega
  · rw [same, ← isUpper_iff, lower]
    decide

theorem toLower_of_lower {c : Char} (lower : c.isUpper = false) : c.toLower = c := by
  rcases toLower_cases c with ⟨upper, -⟩ | ⟨-, same⟩
  · rw [lower] at upper
    cases upper
  · exact same

theorem isWhitespace_toLower (c : Char) : isWhitespace c.toLower = isWhitespace c := by
  rcases toLower_cases c with ⟨upper, same⟩ | ⟨-, same⟩
  · have := isUpper_iff.mp upper
    simp only [isWhitespace, same]
    grind
  · rw [same]

/-! ## Splitting -/

/-- `str::split_once`: what stands before and after the first separator. -/
def splitOnce (separator : Char) : List Char → Option (List Char × List Char)
  | [] => none
  | c :: rest =>
      if c = separator then some ([], rest)
      else (splitOnce separator rest).map fun (before, after) =>
        (c :: before, after)

theorem splitOnce_eq_some {separator : Char} {chars before after : List Char} :
    splitOnce separator chars = some (before, after) ↔
      chars = before ++ separator :: after ∧ separator ∉ before := by
  induction chars generalizing before with
  | nil => simp [splitOnce]
  | cons c rest ih =>
      unfold splitOnce
      split
      · next same =>
          subst same
          constructor
          · rintro ⟨⟩
            exact ⟨rfl, List.not_mem_nil⟩
          · rintro ⟨shape, absent⟩
            cases before with
            | nil =>
                cases shape
                rfl
            | cons other tail =>
                cases shape
                exact absurd (List.mem_cons_self ..) absent
      · next apart =>
          constructor
          · intro found
            obtain ⟨⟨head, tail⟩, inner, same⟩ := Option.map_eq_some_iff.mp found
            cases same
            obtain ⟨rfl, absent⟩ := ih.mp inner
            exact ⟨rfl, List.not_mem_cons_of_ne_of_not_mem (Ne.symm apart) absent⟩
          · rintro ⟨shape, absent⟩
            cases before with
            | nil =>
                cases shape
                exact absurd rfl apart
            | cons other tail =>
                cases shape
                rw [ih.mpr ⟨rfl, fun member => absent (List.mem_cons_of_mem _ member)⟩]
                rfl

/-- `str::strip_prefix`. -/
def stripPrefix (start text : String) : Option String :=
  if start.toList.isPrefixOf text.toList then
    some (String.ofList (text.toList.drop start.toList.length))
  else none

/-- What is stripped is what the text starts with. -/
theorem stripPrefix_eq_some {start text rest : String} :
    stripPrefix start text = some rest ↔ text = start ++ rest := by
  unfold stripPrefix
  constructor
  · intro stripped
    split at stripped
    · next starts =>
        cases stripped
        obtain ⟨tail, same⟩ := List.isPrefixOf_iff_prefix.mp starts
        apply String.toList_inj.mp
        rw [String.toList_append, String.toList_ofList, ← same, List.drop_left]
    · cases stripped
  · rintro rfl
    rw [String.toList_append, if_pos (List.isPrefixOf_iff_prefix.mpr ⟨rest.toList, rfl⟩),
      List.drop_left, String.ofList_toList]

end TimeTracker.Text
