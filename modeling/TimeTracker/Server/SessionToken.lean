import TimeTracker.Library.Base64
import TimeTracker.Library.Decimal
import TimeTracker.Server.Functions

/-!
# The session cookie's token format

`v1.<b64url(email)>.<issued>.<expires>.<epoch>.<hmac_hex>`, with the MAC taken
over the five preceding dot-joined fields.  Verification looks at the signature
and the clock only; the epoch is compared with the account's by `require_user`.
-/

namespace TimeTracker.Server.SessionToken

open TimeTracker.Text
open TimeTracker.Library
open TimeTracker.Server.Schema
open TimeTracker.Server.Functions

/-- 30 days. -/
def MAX_AGE_SECONDS : Int := 30 * 24 * 60 * 60

def VERSION : String := "v1"

def SKEW_TOLERANCE_SECS : Int := 5

inductive SessionError
  | malformed
  | badSignature
  | expired
  | inFuture
  deriving DecidableEq, Repr

/-- HMAC-SHA-256 and the URL-safe base64 codec, none of whose text has a dot. -/
structure Signing where
  hmac : Bytes → Bytes → Bytes
  base64url : Base64.Codec
  undotted : ∀ bytes, '.' ∉ (base64url.encode bytes).toList

/-! ## Hexadecimal tags -/

/-- `hex::encode`. -/
def hexEncode (bytes : Bytes) : List Char :=
  bytes.flatMap fun byte =>
    [Nat.digitChar (byte.toNat / 16), Nat.digitChar (byte.toNat % 16)]

theorem undotted_hexEncode (bytes : Bytes) : '.' ∉ hexEncode bytes := by
  have digits : ∀ n : Fin 16, Nat.digitChar n ≠ '.' := by decide
  intro member
  obtain ⟨byte, -, dot⟩ := List.mem_flatMap.mp member
  have small := byte.toNat_lt
  obtain dot | dot := List.mem_pair.mp dot
  · exact digits ⟨byte.toNat / 16, by omega⟩ dot.symm
  · exact digits ⟨byte.toNat % 16, by omega⟩ dot.symm

/-- Compares two tags without leaving early. -/
def constantTimeEq (a b : Bytes) : Bool :=
  if a.length ≠ b.length then false
  else (a.zip b).foldl (fun acc (x, y) => acc ||| (x ^^^ y)) 0 == 0

theorem foldl_or_eq_zero {pairs : List (UInt8 × UInt8)} {acc : UInt8} :
    pairs.foldl (fun acc (x, y) => acc ||| (x ^^^ y)) acc = 0 ↔
      acc = 0 ∧ ∀ pair ∈ pairs, pair.1 = pair.2 := by
  induction pairs generalizing acc with
  | nil => simp
  | cons pair rest ih =>
      rw [List.foldl_cons, ih, List.forall_mem_cons, ← and_assoc]
      simp [UInt8.or_eq_zero_iff]

theorem constantTimeEq_iff {a b : Bytes} : constantTimeEq a b = true ↔ a = b := by
  unfold constantTimeEq
  split
  · next apart =>
      simp only [Bool.false_eq_true, false_iff]
      exact fun same => apart (congrArg List.length same)
  · next length =>
      rw [beq_iff_eq, foldl_or_eq_zero, ← List.forall₂_eq_eq_eq, List.forall₂_iff_zip]
      constructor
      · rintro ⟨-, same⟩
        exact ⟨not_not.mp length, fun {a b} member => same (a, b) member⟩
      · rintro ⟨-, same⟩
        exact ⟨rfl, fun pair member => same member⟩

@[simp] theorem constantTimeEq_self (a : Bytes) : constantTimeEq a a = true :=
  constantTimeEq_iff.mpr rfl

/-! ## Issuing and verifying -/

section Tokens

variable (signing : Signing)

/-- The tag of a payload, in hexadecimal. -/
def sign (payload : List Char) (key : Bytes) : List Char :=
  hexEncode (signing.hmac key (utf8 (String.ofList payload)))

/-- The fields before the tag. -/
def fields (email : String) (epoch issued : Int) : List (List Char) :=
  [VERSION.toList, (signing.base64url.encode (utf8 email)).toList, Decimal.write issued,
    Decimal.write (issued + MAX_AGE_SECONDS), Decimal.write epoch]

def payload (email : String) (epoch issued : Int) : List Char :=
  ['.'].intercalate (fields signing email epoch issued)

/-- Issues a token valid for `MAX_AGE_SECONDS` from `now`. -/
def issueAt (email : String) (epoch now : Int) (key : Bytes) : String :=
  let payload := payload signing email epoch now
  String.ofList (payload ++ '.' :: sign signing payload key)

/-- Verifies signature and clock. -/
def verifyAt (raw : String) (now : Int) (key : Bytes) :
    Except SessionError SessionClaims :=
  match raw.toList.splitOn '.' with
  | [version, email, issuedText, expiresText, epochText, tag] =>
      if version ≠ VERSION.toList then .error .malformed else
      match Decimal.read 64 issuedText, Decimal.read 64 expiresText,
          Decimal.read 64 epochText with
      | some issued, some expires, some epoch =>
          -- the signature is checked before any claim is trusted
          let payload := ['.'].intercalate
            [version, email, issuedText, expiresText, epochText]
          if constantTimeEq (utf8 (String.ofList (sign signing payload key)))
              (utf8 (String.ofList tag)) = false then
            .error .badSignature
          else if issued > now + SKEW_TOLERANCE_SECS then .error .inFuture
          else if now ≥ expires then .error .expired
          else
            match (signing.base64url.decode (String.ofList email)).bind fromUtf8 with
            | some email => .ok { email, epoch }
            | none => .error .malformed
      | _, _, _ => .error .malformed
  | _ => .error .malformed

/-- What `issue_at` can be asked for without an overflow. -/
def Issuable (epoch issued : Int) : Prop :=
  Decimal.Fits 64 epoch ∧ Decimal.Fits 64 issued ∧
    Decimal.Fits 64 (issued + MAX_AGE_SECONDS)

/-- If the text ends in the tag of what comes before it, then that was signed, and
`issue_at` signs nothing but the payloads of its tokens. -/
def Unforged (key : Bytes) (raw : String) : Prop :=
  ∀ signed, raw.toList = signed ++ '.' :: sign signing signed key →
    ∃ email epoch issued, Issuable epoch issued ∧
      signed = payload signing email epoch issued

variable {signing} {key : Bytes} {raw email : String} {epoch issued now : Int}

theorem utf8_inj {first second : String} : utf8 first = utf8 second ↔ first = second := by
  constructor
  · intro same
    have read := congrArg fromUtf8 same
    rw [fromUtf8_utf8, fromUtf8_utf8] at read
    exact Option.some.inj read
  · exact congrArg utf8

theorem undotted_write (n : Int) : '.' ∉ Decimal.write n :=
  Decimal.not_mem_write rfl (by decide)

/-- A token splits into the fields it was made of. -/
theorem splitOn_issueAt : (issueAt signing email epoch issued key).toList.splitOn '.' =
    fields signing email epoch issued ++
      [sign signing (payload signing email epoch issued) key] := by
  have joined : (issueAt signing email epoch issued key).toList = ['.'].intercalate
      (fields signing email epoch issued ++
        [sign signing (payload signing email epoch issued) key]) := by
    rw [issueAt, String.toList_ofList]
    simp [payload, fields, List.intercalate]
  rw [joined]
  apply List.splitOn_intercalate
  · intro field member
    simp only [fields, List.cons_append, List.nil_append, List.mem_cons,
      List.not_mem_nil, or_false] at member
    rcases member with rfl | rfl | rfl | rfl | rfl | rfl
    · decide
    · exact signing.undotted _
    · exact undotted_write _
    · exact undotted_write _
    · exact undotted_write _
    · exact undotted_hexEncode _
  · simp

/-- An issued token is accepted exactly inside its window, with its own claims. -/
theorem verifyAt_issueAt (issuable : Issuable epoch issued) :
    verifyAt signing (issueAt signing email epoch issued key) now key =
      if issued > now + SKEW_TOLERANCE_SECS then .error .inFuture
      else if now ≥ issued + MAX_AGE_SECONDS then .error .expired
      else .ok { email, epoch } := by
  obtain ⟨fitsEpoch, fitsIssued, fitsExpires⟩ := issuable
  unfold verifyAt
  rw [splitOn_issueAt]
  simp only [fields, List.cons_append, List.nil_append, payload, constantTimeEq_self,
    Decimal.read_write fitsEpoch, Decimal.read_write fitsIssued,
    Decimal.read_write fitsExpires, String.ofList_toList, signing.base64url.decode_encode,
    fromUtf8_utf8, Option.bind_some, ne_eq, not_true_eq_false, if_false,
    Bool.true_eq_false]

/-- A text is malformed, is badly signed, or ends in the tag of what comes before
it. -/
theorem verifyAt_cases (signing : Signing) (raw : String) (now : Int) (key : Bytes) :
    verifyAt signing raw now key = .error .malformed ∨
      verifyAt signing raw now key = .error .badSignature ∨
      ∃ signed, raw.toList = signed ++ '.' :: sign signing signed key := by
  have joined : ['.'].intercalate (raw.toList.splitOn '.') = raw.toList :=
    List.intercalate_splitOn '.'
  unfold verifyAt
  split
  · next version email issuedText expiresText epochText tag parts =>
      rw [parts] at joined
      split
      · exact .inl rfl
      split
      · by_cases tagged : sign signing (['.'].intercalate
            [version, email, issuedText, expiresText, epochText]) key = tag
        · refine .inr (.inr ⟨['.'].intercalate
            [version, email, issuedText, expiresText, epochText], ?_⟩)
          rw [tagged, ← joined]
          simp [List.intercalate]
        · refine .inr (.inl (if_pos ?_))
          rw [← Bool.not_eq_true, constantTimeEq_iff, utf8_inj]
          exact fun same => tagged (String.ofList_injective same)
      · exact .inl rfl
  · exact .inl rfl

/-- A token is accepted exactly if it is one that was issued and the clock is inside
its window, and then it asserts what it was issued with; outside the window the
error says on which side. -/
theorem verifyAt_exact (signing : Signing) (key : Bytes) (now : Int) (raw : String)
    (unforged : Unforged signing key raw) :
    (∀ claims, verifyAt signing raw now key = .ok claims ↔
      ∃ email epoch issued, Issuable epoch issued ∧
        raw = issueAt signing email epoch issued key ∧
        issued ≤ now + SKEW_TOLERANCE_SECS ∧ now < issued + MAX_AGE_SECONDS ∧
        claims = { email, epoch }) ∧
    ∀ email epoch issued, Issuable epoch issued →
      raw = issueAt signing email epoch issued key →
      (issued > now + SKEW_TOLERANCE_SECS →
        verifyAt signing raw now key = .error .inFuture) ∧
      (issued ≤ now + SKEW_TOLERANCE_SECS → now ≥ issued + MAX_AGE_SECONDS →
        verifyAt signing raw now key = .error .expired) := by
  have issuedHere : ∀ signed, raw.toList = signed ++ '.' :: sign signing signed key →
      ∃ email epoch issued, Issuable epoch issued ∧
        raw = issueAt signing email epoch issued key := by
    intro signed tagged
    obtain ⟨email, epoch, issued, issuable, rfl⟩ := unforged signed tagged
    refine ⟨email, epoch, issued, issuable, ?_⟩
    rw [issueAt, ← tagged, String.ofList_toList]
  refine ⟨fun claims => ⟨fun accepted => ?_, ?_⟩, ?_⟩
  · obtain refused | refused | ⟨signed, tagged⟩ := verifyAt_cases signing raw now key
    · rw [accepted] at refused
      cases refused
    · rw [accepted] at refused
      cases refused
    · obtain ⟨email, epoch, issued, issuable, rfl⟩ := issuedHere signed tagged
      rw [verifyAt_issueAt issuable] at accepted
      split at accepted
      · cases accepted
      · split at accepted
        · cases accepted
        · cases accepted
          exact ⟨email, epoch, issued, issuable, rfl, by omega, by omega, rfl⟩
  · rintro ⟨email, epoch, issued, issuable, rfl, early, late, rfl⟩
    rw [verifyAt_issueAt issuable, if_neg (by omega), if_neg (by omega)]
  · rintro email epoch issued issuable rfl
    rw [verifyAt_issueAt issuable]
    refine ⟨fun future => if_pos future, fun early late => ?_⟩
    rw [if_neg (by omega), if_pos late]

end Tokens

/-! ## A token in its window -/

/-- Two texts that end in tags agree up to the last dot. -/
theorem append_tag_inj {first second tag other : List Char} (undotted : '.' ∉ tag)
    (undotted' : '.' ∉ other) (same : first ++ '.' :: tag = second ++ '.' :: other) :
    first = second := by
  have shorter : ∀ {rest tag other : List Char}, '.' ∉ tag →
      '.' :: tag = rest ++ '.' :: other → rest = [] := by
    intro rest tag other absent same
    cases rest with
    | nil => rfl
    | cons c rest =>
        have tail : tag = rest ++ '.' :: other := (List.cons.inj same).2
        exact absurd (tail ▸ List.mem_append_right _ (List.mem_cons_self ..)) absent
  obtain ⟨rest, rfl, ends⟩ | ⟨rest, rfl, ends⟩ := List.append_eq_append_iff.mp same
  · rw [shorter undotted ends, List.append_nil]
  · rw [shorter undotted' ends, List.append_nil]

/-- An issued token is no forgery. -/
theorem unforged_issueAt {signing : Signing} {key : Bytes} {email : String}
    {epoch issued : Int} (issuable : Issuable epoch issued) :
    Unforged signing key (issueAt signing email epoch issued key) := by
  intro signed tagged
  rw [issueAt, String.toList_ofList] at tagged
  refine ⟨email, epoch, issued, issuable, ?_⟩
  exact (append_tag_inj (undotted_hexEncode _) (undotted_hexEncode _) tagged).symm

/-- A stand-in that signs with the key itself. -/
def plainSigning : Signing where
  hmac key _ := key
  base64url := Base64.urlSafeNoPad
  undotted bytes member := by
    rw [Base64.urlSafeNoPad, String.toList_ofList] at member
    exact absurd (Base64.mem_urlAlphabet member) (by decide)

/-- A token of an address full of dots, three seconds before the issuer's clock. -/
theorem verifyAt_exact_dotted :
    verifyAt plainSigning
        (issueAt plainSigning "a.lice@mail.example.com" (-3) 1788000000 [7]) 1787999997 [7] =
      .ok { email := "a.lice@mail.example.com", epoch := -3 } := by
  have issuable : Issuable (-3) 1788000000 := ⟨by decide, by decide, by decide⟩
  exact ((verifyAt_exact plainSigning [7] 1787999997 _ (unforged_issueAt issuable)).1 _).mpr
    ⟨_, _, _, issuable, rfl, by decide, by decide, rfl⟩

end TimeTracker.Server.SessionToken
