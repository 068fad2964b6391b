import Mathlib.Logic.Basic
import Mathlib.Data.List.Basic

/-!
# JSON documents

A document as a tree that keeps the members of an object in order and with
their duplicates, the two ways a reader treats duplicates, and what a JSON
library promises about the flat objects a program writes.  The compact writer
below, with its reader of flat objects, keeps that promise.
-/

namespace TimeTracker.Library.Json

/-- A JSON document.  A number that is not a natural one keeps its text. -/
inductive Value
  | null
  | bool (value : Bool)
  | nat (value : Nat)
  | number (text : String)
  | string (value : String)
  | array (items : List Value)
  | object (members : List (String × Value))

/-- The members of an object under one name. -/
def Value.under (name : String) : Value → List Value
  | .object members => (members.filter fun member => member.1 = name).map Prod.snd
  | _ => []

/-- Reading into a map: the last of several members counts. -/
def Value.last? (name : String) (json : Value) : Option Value :=
  (json.under name).getLast?

/-- Reading into a structure: a duplicate is an error, so is a document that is
not an object; `none` inside says the field is missing. -/
def Value.field? (name : String) : Value → Option (Option Value)
  | .object members =>
      match (Value.object members).under name with
      | [] => some none
      | [value] => some (some value)
      | _ => none
  | _ => none

/-- The member a structure must have. -/
def Value.required? (name : String) (json : Value) : Option Value :=
  (json.field? name).join

/-- A structure may also be written as the array of its fields in order. -/
def Value.asStruct (names : List String) : Value → Value
  | .array items =>
      if items.length ≤ names.length then .object (names.zip items) else .null
  | json => json

/-- A natural number below the bound. -/
def Value.natBelow? (bound : Nat) : Value → Option Nat
  | .nat value => if value < bound then some value else none
  | _ => none

def Value.string? : Value → Option String
  | .string value => some value
  | _ => none

theorem Value.natBelow?_eq_some {bound n : Nat} {json : Value} :
    json.natBelow? bound = some n ↔ json = .nat n ∧ n < bound := by
  cases json <;> simp [natBelow?]
  omega

theorem Value.string?_eq_some {text : String} {json : Value} :
    json.string? = some text ↔ json = .string text := by
  cases json <;> simp [string?]

section Members

variable {members : List (String × Value)} {name : String}

theorem Value.field?_eq_some_none :
    (Value.object members).field? name = some none ↔ (Value.object members).under name = [] := by
  simp only [field?]
  split <;> simp_all

theorem Value.field?_eq_some_some {value : Value} :
    (Value.object members).field? name = some (some value) ↔
      (Value.object members).under name = [value] := by
  simp only [field?]
  split <;> simp_all

/-- A structure has a member just when the object has it once. -/
theorem Value.required?_eq_some {value : Value} :
    (Value.object members).required? name = some value ↔
      (Value.object members).under name = [value] := by
  rw [required?, Option.join_eq_some_iff, field?_eq_some_some]

end Members

/-- What a flat object holds: single digits and strings. -/
def Value.Flat : Value → Prop
  | .nat value => value < 10
  | .string _ => True
  | _ => False

/-- A library whose reader undoes its writer on flat objects. -/
structure Text where
  write : List (String × Value) → String
  read : String → Option Value
  read_write : ∀ members, (∀ member ∈ members, member.2.Flat) →
    read (write members) = some (.object members)

/-! ## The compact text of flat objects -/

def hexDigit (value : Nat) : Char :=
  if value < 10 then Char.ofNat (48 + value) else Char.ofNat (97 + (value - 10))

def hexValue? (c : Char) : Option Nat :=
  (List.range 16).find? fun value => hexDigit value = c

theorem hexValue?_hexDigit (value : Nat) (small : value < 16) :
    hexValue? (hexDigit value) = some value := by
  have all : ∀ n : Fin 16, hexValue? (hexDigit n) = some n.val := by decide
  exact all ⟨value, small⟩

/-- One character of a string literal. -/
def escape (c : Char) : List Char :=
  if c = '"' then ['\\', '"']
  else if c = '\\' then ['\\', '\\']
  else if c = '\n' then ['\\', 'n']
  else if c = '\r' then ['\\', 'r']
  else if c = '\t' then ['\\', 't']
  else if c.toNat = 8 then ['\\', 'b']
  else if c.toNat = 12 then ['\\', 'f']
  else if c.toNat < 32 then
    ['\\', 'u', '0', '0', hexDigit (c.toNat / 16), hexDigit (c.toNat % 16)]
  else [c]

/-- The character a short escape stands for. -/
def unescape? (c : Char) : Option Char :=
  if c = '"' then some '"'
  else if c = '\\' then some '\\'
  else if c = '/' then some '/'
  else if c = 'n' then some '\n'
  else if c = 'r' then some '\r'
  else if c = 't' then some '\t'
  else if c = 'b' then some (Char.ofNat 8)
  else if c = 'f' then some (Char.ofNat 12)
  else none

/-- The rest of a string literal, up to its closing quote. -/
def readString : List Char → Option (List Char × List Char)
  | [] => none
  | '"' :: rest => some ([], rest)
  | '\\' :: 'u' :: a :: b :: c :: d :: rest => do
      let a ← hexValue? a
      let b ← hexValue? b
      let c ← hexValue? c
      let d ← hexValue? d
      let (chars, rest) ← readString rest
      some (Char.ofNat (a * 4096 + b * 256 + c * 16 + d) :: chars, rest)
  | '\\' :: c :: rest => do
      let c ← unescape? c
      let (chars, rest) ← readString rest
      some (c :: chars, rest)
  | c :: rest => do
      let (chars, rest) ← readString rest
      some (c :: chars, rest)

theorem readString_short {mark c : Char} (short : mark ≠ 'u')
    (stands : unescape? mark = some c) (rest : List Char) :
    readString (['\\', mark] ++ rest) =
      (readString rest).map fun (chars, rest) => (c :: chars, rest) := by
  have read : readString ('\\' :: mark :: rest) = (unescape? mark).bind fun c =>
      (readString rest).bind fun (chars, rest) => some (c :: chars, rest) := by
    rw [readString]
    · rfl
    · intro a b c d rest' same
      exact absurd same short
  rw [List.cons_append, List.singleton_append, read, stands]
  cases readString rest <;> rfl

theorem readString_plain {c : Char} (quote : c ≠ '"') (backslash : c ≠ '\\')
    (rest : List Char) :
    readString (c :: rest) =
      (readString rest).map fun (chars, rest) => (c :: chars, rest) := by
  rw [readString]
  · cases readString rest <;> rfl
  · exact quote
  · intro a b c d rest same
    exact absurd same backslash
  · intro a rest same
    exact absurd same backslash

theorem readString_escape (c : Char) (rest : List Char) :
    readString (escape c ++ rest) =
      (readString rest).map fun (chars, rest) => (c :: chars, rest) := by
  have named : ∀ n : Nat, c.toNat = n → c = Char.ofNat n := by
    rintro n rfl
    exact (Char.ofNat_toNat c).symm
  unfold escape
  split_ifs with quote backslash newline carriage tab back feed control
  · exact readString_short (by decide) (by rw [quote]; rfl) rest
  · exact readString_short (by decide) (by rw [backslash]; rfl) rest
  · exact readString_short (by decide) (by rw [newline]; rfl) rest
  · exact readString_short (by decide) (by rw [carriage]; rfl) rest
  · exact readString_short (by decide) (by rw [tab]; rfl) rest
  · exact readString_short (by decide) (by rw [named 8 back]; rfl) rest
  · exact readString_short (by decide) (by rw [named 12 feed]; rfl) rest
  · have high := hexValue?_hexDigit (c.toNat / 16) (by omega)
    have low := hexValue?_hexDigit (c.toNat % 16) (by omega)
    have zero : hexValue? '0' = some 0 := by decide
    have joined : 0 * 4096 + 0 * 256 + c.toNat / 16 * 16 + c.toNat % 16 = c.toNat := by
      omega
    simp only [List.cons_append, List.nil_append, readString, zero, high, low, joined,
      Char.ofNat_toNat, Option.bind_eq_bind, Option.bind_some]
    cases readString rest <;> rfl
  · exact readString_plain quote backslash rest

/-- A string literal reads back, and leaves what follows it. -/
theorem readString_escaped (chars rest : List Char) :
    readString (chars.flatMap escape ++ '"' :: rest) = some (chars, rest) := by
  induction chars with
  | nil => rfl
  | cons c chars ih =>
      rw [List.flatMap_cons, List.append_assoc, readString_escape, ih]
      rfl

def quoted (text : String) : List Char :=
  '"' :: text.toList.flatMap escape ++ ['"']

def readQuoted : List Char → Option (String × List Char)
  | '"' :: rest => (readString rest).map fun (chars, rest) =>
      (String.ofList chars, rest)
  | _ => none

theorem readQuoted_quoted (text : String) (rest : List Char) :
    readQuoted (quoted text ++ rest) = some (text, rest) := by
  simp [quoted, readQuoted, readString_escaped]

def writeValue : Value → List Char
  | .nat value => [Char.ofNat (48 + value)]
  | .string value => quoted value
  | _ => ['n', 'u', 'l', 'l']

def readValue : List Char → Option (Value × List Char)
  | [] => none
  | c :: rest =>
      if c = '"' then (readQuoted (c :: rest)).map fun (text, rest) =>
        (.string text, rest)
      else if c.isDigit then some (.nat (c.toNat - 48), rest)
      else none

theorem readValue_writeValue {value : Value} (flat : value.Flat)
    (rest : List Char) : readValue (writeValue value ++ rest) = some (value, rest) := by
  cases value with
  | nat value =>
      have all : ∀ n : Fin 10, Char.ofNat (48 + n) ≠ '"' ∧
          (Char.ofNat (48 + n)).isDigit = true ∧
          (Char.ofNat (48 + n)).toNat - 48 = n := by decide
      obtain ⟨plain, digit, same⟩ := all ⟨value, flat⟩
      simp [writeValue, readValue, plain, digit, same]
  | string value =>
      have quote : writeValue (.string value) ++ rest =
          '"' :: (value.toList.flatMap escape ++ '"' :: rest) := by
        simp [writeValue, quoted]
      have literal : '"' :: (value.toList.flatMap escape ++ '"' :: rest) =
          quoted value ++ rest := by
        simp [quoted]
      rw [quote, readValue, if_pos rfl, literal, readQuoted_quoted]
      rfl
  | null => cases flat
  | bool value => cases flat
  | number text => cases flat
  | array items => cases flat
  | object members => cases flat

def writeMember (member : String × Value) : List Char :=
  quoted member.1 ++ ':' :: writeValue member.2

def writeMembers : List (String × Value) → List Char
  | [] => ['}']
  | [member] => writeMember member ++ ['}']
  | member :: rest => writeMember member ++ ',' :: writeMembers rest

def readMember (chars : List Char) : Option ((String × Value) × List Char) :=
  match readQuoted chars with
  | some (name, ':' :: rest) =>
      (readValue rest).map fun (value, rest) => ((name, value), rest)
  | _ => none

theorem readMember_writeMember {member : String × Value} (flat : member.2.Flat)
    (rest : List Char) :
    readMember (writeMember member ++ rest) = some (member, rest) := by
  simp [readMember, writeMember, readQuoted_quoted, readValue_writeValue flat]

/-- Members up to the closing brace; the fuel bounds their number. -/
def readMembers : Nat → List Char → Option (List (String × Value))
  | 0, _ => none
  | fuel + 1, chars =>
      match readMember chars with
      | some (member, ['}']) => some [member]
      | some (member, ',' :: rest) =>
          (readMembers fuel rest).map fun members => member :: members
      | _ => none

theorem readMembers_writeMembers {first : String × Value}
    {members : List (String × Value)} {fuel : Nat}
    (flat : ∀ member ∈ first :: members, member.2.Flat)
    (enough : members.length < fuel) :
    readMembers fuel (writeMembers (first :: members)) = some (first :: members) := by
  induction members generalizing first fuel with
  | nil =>
      cases fuel with
      | zero => cases enough
      | succ fuel =>
          have read := readMember_writeMember (flat first (List.mem_cons_self ..)) ['}']
          simp [writeMembers, readMembers, read]
  | cons second rest ih =>
      cases fuel with
      | zero => cases enough
      | succ fuel =>
          have read := readMember_writeMember (flat first (List.mem_cons_self ..))
            (',' :: writeMembers (second :: rest))
          have later : readMembers fuel (writeMembers (second :: rest)) =
              some (second :: rest) :=
            ih (fun member member_mem => flat member (List.mem_cons_of_mem _ member_mem))
              (by simpa using enough)
          simp [writeMembers, readMembers, read, later]

theorem length_writeMembers (members : List (String × Value)) :
    members.length < (writeMembers members).length := by
  induction members with
  | nil => simp [writeMembers]
  | cons first rest ih =>
      cases rest with
      | nil =>
          simp only [writeMembers, writeMember, quoted, List.length_append,
            List.length_cons, List.length_nil]
          omega
      | cons second rest =>
          simp only [writeMembers, List.length_append, List.length_cons] at ih ⊢
          omega

def readObject : List Char → Option Value
  | '{' :: rest =>
      if rest = ['}'] then some (.object [])
      else (readMembers rest.length rest).map .object
  | _ => none

theorem readObject_writeMembers (members : List (String × Value))
    (flat : ∀ member ∈ members, member.2.Flat) :
    readObject ('{' :: writeMembers members) = some (.object members) := by
  cases members with
  | nil => rfl
  | cons first rest =>
      have long := length_writeMembers (first :: rest)
      have more : writeMembers (first :: rest) ≠ ['}'] := by
        intro same
        rw [same] at long
        simp at long
      have read := readMembers_writeMembers flat
        (show rest.length < (writeMembers (first :: rest)).length from
          Nat.lt_trans (Nat.lt_succ_self _) long)
      simp only [readObject, more, if_false, read, Option.map_some]

/-- The compact text of a flat object, and its reader. -/
def compact : Text where
  write members := String.ofList ('{' :: writeMembers members)
  read text := readObject text.toList
  read_write members flat := by
    rw [String.toList_ofList]
    exact readObject_writeMembers members flat

/-- The same text, and a reader of string literals besides. -/
def documents : Text where
  write := compact.write
  read text :=
    match readQuoted text.toList with
    | some (value, []) => some (.string value)
    | _ => compact.read text
  read_write members flat := by
    have opens : readQuoted (compact.write members).toList = none := by
      simp [compact, readQuoted]
    rw [opens]
    exact compact.read_write members flat

end TimeTracker.Library.Json
