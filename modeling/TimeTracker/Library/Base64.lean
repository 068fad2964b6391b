import Mathlib.Logic.Basic
import Mathlib.Data.List.Basic

/-!
# Base64

What a base64 codec promises, and the standard alphabet with strict canonical
padding as one that keeps the promise.
-/

namespace TimeTracker.Library.Base64

/-- A codec whose decoder undoes its encoder. -/
structure Codec where
  encode : List UInt8 → String
  decode : String → Option (List UInt8)
  decode_encode : ∀ bytes, decode (encode bytes) = some bytes

/-- The symbol for six bits. -/
def symbol (sextet : Nat) : Char :=
  if sextet < 26 then Char.ofNat (65 + sextet)
  else if sextet < 52 then Char.ofNat (97 + (sextet - 26))
  else if sextet < 62 then Char.ofNat (48 + (sextet - 52))
  else if sextet = 62 then '+' else '/'

/-- The six bits of a symbol. -/
def sextet? (c : Char) : Option Nat :=
  (List.range 64).find? fun sextet => symbol sextet = c

theorem sextet?_symbol (sextet : Nat) (small : sextet < 64) :
    sextet? (symbol sextet) = some sextet := by
  have all : ∀ n : Fin 64, sextet? (symbol n) = some n.val := by decide
  exact all ⟨sextet, small⟩

theorem symbol_ne_padding (sextet : Nat) (small : sextet < 64) :
    symbol sextet ≠ '=' := by
  have all : ∀ n : Fin 64, symbol n ≠ '=' := by decide
  exact all ⟨sextet, small⟩

/-- Three bytes become four symbols; one or two at the end are padded. -/
def encodeChars : List UInt8 → List Char
  | [] => []
  | [a] =>
      let n := a.toNat * 16
      [symbol (n / 64), symbol (n % 64), '=', '=']
  | [a, b] =>
      let n := (a.toNat * 256 + b.toNat) * 4
      [symbol (n / 4096), symbol (n / 64 % 64), symbol (n % 64), '=']
  | a :: b :: c :: rest =>
      let n := a.toNat * 65536 + b.toNat * 256 + c.toNat
      symbol (n / 262144) :: symbol (n / 4096 % 64) :: symbol (n / 64 % 64) ::
        symbol (n % 64) :: encodeChars rest

/-- Four symbols become three bytes; padded groups end the text, and the bits
they leave over are zero. -/
def decodeChars : List Char → Option (List UInt8)
  | [] => some []
  | w :: x :: y :: z :: rest => do
      let w ← sextet? w
      let x ← sextet? x
      if z = '=' then
        if rest ≠ [] then none
        if y = '=' then
          let n := w * 64 + x
          if n % 16 = 0 then some [UInt8.ofNat (n / 16)] else none
        else
          let y ← sextet? y
          let n := w * 4096 + x * 64 + y
          if n % 4 = 0 then
            some [UInt8.ofNat (n / 1024), UInt8.ofNat (n / 4 % 256)]
          else none
      else
        let y ← sextet? y
        let z ← sextet? z
        let n := w * 262144 + x * 4096 + y * 64 + z
        let rest ← decodeChars rest
        some (UInt8.ofNat (n / 65536) :: UInt8.ofNat (n / 256 % 256) ::
          UInt8.ofNat (n % 256) :: rest)
  | _ => none

/-- Four sextets make up the number they were taken from. -/
theorem join_sextets (n : Nat) :
    n / 262144 * 262144 + n / 4096 % 64 * 4096 + n / 64 % 64 * 64 + n % 64 = n := by
  have first := Nat.div_add_mod n 64
  have second := Nat.div_add_mod (n / 64) 64
  have third := Nat.div_add_mod (n / 64 / 64) 64
  rw [Nat.div_div_eq_div_mul] at second third
  rw [Nat.div_div_eq_div_mul] at third
  simp only [Nat.reduceMul] at second third
  omega

theorem ofNat_of_eq {n : Nat} {byte : UInt8} (same : n = byte.toNat) :
    UInt8.ofNat n = byte := by
  rw [same, UInt8.ofNat_toNat]

theorem decodeChars_encodeChars (bytes : List UInt8) :
    decodeChars (encodeChars bytes) = some bytes := by
  induction bytes using encodeChars.induct with
  | case1 => rfl
  | case2 a =>
      have ha := a.toNat_lt
      have first := sextet?_symbol (a.toNat * 16 / 64) (by omega)
      have second := sextet?_symbol (a.toNat * 16 % 64) (by omega)
      have joined : a.toNat * 16 / 64 * 64 + a.toNat * 16 % 64 = a.toNat * 16 := by
        omega
      simp [encodeChars, decodeChars, first, second, joined]
  | case3 a b =>
      have ha := a.toNat_lt
      have hb := b.toNat_lt
      simp only [encodeChars]
      generalize bits : (a.toNat * 256 + b.toNat) * 4 = n
      have first := sextet?_symbol (n / 4096) (by omega)
      have second := sextet?_symbol (n / 64 % 64) (by omega)
      have third := sextet?_symbol (n % 64) (by omega)
      have unpadded := symbol_ne_padding (n % 64) (by omega)
      have joined : n / 4096 * 4096 + n / 64 % 64 * 64 + n % 64 = n := by omega
      have aligned : n % 4 = 0 := by omega
      have high : UInt8.ofNat (n / 1024) = a := ofNat_of_eq (by omega)
      have low : UInt8.ofNat (n / 4 % 256) = b := ofNat_of_eq (by omega)
      simp only [decodeChars, first, second, third, unpadded, joined, aligned, high,
        low, Option.bind_eq_bind, Option.bind_some, ne_eq, not_true_eq_false,
        if_true, if_false]
  | case4 a b c rest ih =>
      have ha := a.toNat_lt
      have hb := b.toNat_lt
      have hc := c.toNat_lt
      simp only [encodeChars]
      generalize bits : a.toNat * 65536 + b.toNat * 256 + c.toNat = n
      have first := sextet?_symbol (n / 262144) (by omega)
      have second := sextet?_symbol (n / 4096 % 64) (by omega)
      have third := sextet?_symbol (n / 64 % 64) (by omega)
      have fourth := sextet?_symbol (n % 64) (by omega)
      have unpadded := symbol_ne_padding (n % 64) (by omega)
      have joined := join_sextets n
      have high : UInt8.ofNat (n / 65536) = a := ofNat_of_eq (by omega)
      have middle : UInt8.ofNat (n / 256 % 256) = b := ofNat_of_eq (by omega)
      have low : UInt8.ofNat (n % 256) = c := ofNat_of_eq (by omega)
      simp only [decodeChars, first, second, third, fourth, unpadded, joined, ih,
        high, middle, low, Option.bind_eq_bind, Option.bind_some, if_false]

/-- The standard alphabet. -/
def standard : Codec where
  encode bytes := String.ofList (encodeChars bytes)
  decode text := decodeChars text.toList
  decode_encode bytes := by
    rw [String.toList_ofList]
    exact decodeChars_encodeChars bytes

/-! ## The URL-safe alphabet without padding -/

/-- The symbol's URL-safe form. -/
def toUrl (c : Char) : Char :=
  if c = '+' then '-' else if c = '/' then '_' else c

def fromUrl (c : Char) : Char :=
  if c = '-' then '+' else if c = '_' then '/' else c

/-- The padding goes. -/
def urlChars (bytes : List UInt8) : List Char :=
  ((encodeChars bytes).filter (· ≠ '=')).map toUrl

/-- Symbols of the standard alphabet and padding are refused; the padding the
length calls for is put back. -/
def readUrl (chars : List Char) : Option (List UInt8) :=
  if chars.any fun c => c = '=' || c = '+' || c = '/' then none
  else decodeChars (chars.map fromUrl ++ List.replicate ((4 - chars.length % 4) % 4) '=')

/-- The characters of the URL-safe alphabet. -/
def urlAlphabet : List Char :=
  (List.range 64).map fun n => toUrl (symbol n)

/-- Symbols without the padding, and what their number leaves to pad. -/
theorem encodeChars_eq (bytes : List UInt8) :
    ∃ sextets : List Nat, (∀ sextet ∈ sextets, sextet < 64) ∧
      encodeChars bytes = sextets.map symbol ++
        List.replicate ((4 - sextets.length % 4) % 4) '=' := by
  induction bytes using encodeChars.induct with
  | case1 => exact ⟨[], nofun, rfl⟩
  | case2 a =>
      have ha := a.toNat_lt
      refine ⟨[a.toNat * 16 / 64, a.toNat * 16 % 64], ?_, rfl⟩
      simp only [List.mem_cons, List.not_mem_nil, or_false, forall_eq_or_imp, forall_eq]
      omega
  | case3 a b =>
      have ha := a.toNat_lt
      have hb := b.toNat_lt
      refine ⟨[(a.toNat * 256 + b.toNat) * 4 / 4096,
        (a.toNat * 256 + b.toNat) * 4 / 64 % 64, (a.toNat * 256 + b.toNat) * 4 % 64], ?_, rfl⟩
      simp only [List.mem_cons, List.not_mem_nil, or_false, forall_eq_or_imp, forall_eq]
      omega
  | case4 a b c rest ih =>
      have ha := a.toNat_lt
      have hb := b.toNat_lt
      have hc := c.toNat_lt
      obtain ⟨sextets, small, same⟩ := ih
      refine ⟨(a.toNat * 65536 + b.toNat * 256 + c.toNat) / 262144 ::
        (a.toNat * 65536 + b.toNat * 256 + c.toNat) / 4096 % 64 ::
        (a.toNat * 65536 + b.toNat * 256 + c.toNat) / 64 % 64 ::
        (a.toNat * 65536 + b.toNat * 256 + c.toNat) % 64 :: sextets, ?_, ?_⟩
      · simp only [List.mem_cons, forall_eq_or_imp]
        refine ⟨by omega, by omega, by omega, by omega, small⟩
      · have padding : (4 - (sextets.length + 1 + 1 + 1 + 1) % 4) % 4 =
            (4 - sextets.length % 4) % 4 := by omega
        simp [encodeChars, same, padding]

theorem fromUrl_toUrl_symbol (sextet : Nat) (small : sextet < 64) :
    fromUrl (toUrl (symbol sextet)) = symbol sextet := by
  have all : ∀ n : Fin 64, fromUrl (toUrl (symbol n)) = symbol n := by decide
  exact all ⟨sextet, small⟩

theorem urlChars_eq {bytes : List UInt8} {sextets : List Nat}
    (small : ∀ sextet ∈ sextets, sextet < 64) {padding : Nat}
    (same : encodeChars bytes = sextets.map symbol ++ List.replicate padding '=') :
    urlChars bytes = sextets.map fun sextet => toUrl (symbol sextet) := by
  have kept : (sextets.map symbol).filter (· ≠ '=') = sextets.map symbol := by
    apply List.filter_eq_self.mpr
    intro c member
    obtain ⟨sextet, inside, rfl⟩ := List.mem_map.mp member
    simpa using symbol_ne_padding sextet (small sextet inside)
  have gone : (List.replicate padding '=').filter (· ≠ '=') = [] := by
    simp
  rw [urlChars, same, List.filter_append, kept, gone, List.append_nil, List.map_map]
  rfl

/-- Every character written is one of the alphabet. -/
theorem mem_urlAlphabet {bytes : List UInt8} {c : Char} (member : c ∈ urlChars bytes) :
    c ∈ urlAlphabet := by
  obtain ⟨sextets, small, same⟩ := encodeChars_eq bytes
  rw [urlChars_eq small same] at member
  obtain ⟨sextet, inside, rfl⟩ := List.mem_map.mp member
  exact List.mem_map.mpr ⟨sextet, List.mem_range.mpr (small sextet inside), rfl⟩

theorem readUrl_urlChars (bytes : List UInt8) : readUrl (urlChars bytes) = some bytes := by
  obtain ⟨sextets, small, same⟩ := encodeChars_eq bytes
  have plain : (urlChars bytes).any (fun c => c = '=' || c = '+' || c = '/') = false := by
    apply List.any_eq_false.mpr
    intro c member
    have all : urlAlphabet.any (fun c => c = '=' || c = '+' || c = '/') = false := by decide
    exact List.any_eq_false.mp all c (mem_urlAlphabet member)
  have back : (urlChars bytes).map fromUrl = sextets.map symbol := by
    rw [urlChars_eq small same, List.map_map]
    exact List.map_congr_left fun sextet inside =>
      fromUrl_toUrl_symbol sextet (small sextet inside)
  have length : (urlChars bytes).length = sextets.length := by
    rw [urlChars_eq small same, List.length_map]
  rw [readUrl, if_neg (by simp [plain]), back, length, ← same]
  exact decodeChars_encodeChars bytes

/-- The URL-safe alphabet without padding. -/
def urlSafeNoPad : Codec where
  encode bytes := String.ofList (urlChars bytes)
  decode text := readUrl text.toList
  decode_encode bytes := by
    rw [String.toList_ofList]
    exact readUrl_urlChars bytes

end TimeTracker.Library.Base64
