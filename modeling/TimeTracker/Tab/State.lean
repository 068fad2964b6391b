import Mathlib.Logic.Basic
import TimeTracker.Server.Functions

/-!
# What a tab knows about its encryption

The state one page load keeps: the newest-operation counter, the count of
requests to forget the device's key, and the encryption context every part of
the page reads.  Data keys are opaque handles of type `K`.
-/

namespace TimeTracker.Tab.State

open TimeTracker.Server.Functions

/-- Monotonic counter identifying the newest operation in flight. -/
structure Generation where
  count : Nat
  deriving DecidableEq, Repr

/-- Starts a new operation, invalidating any earlier one. -/
def Generation.next (generation : Generation) : Generation :=
  ⟨generation.count + 1⟩

/-- Whether `token` identifies the newest operation. -/
def Generation.isCurrent (generation : Generation) (token : Nat) : Bool :=
  generation.count == token

@[simp] theorem Generation.count_next (generation : Generation) :
    generation.next.count = generation.count + 1 :=
  rfl

@[simp] theorem Generation.isCurrent_iff {generation : Generation} {token : Nat} :
    generation.isCurrent token = true ↔ generation.count = token := by
  simp [Generation.isCurrent]

/-- How many times this device had been told to forget its data key when a
ceremony started. -/
abbrev Forgets := Nat

/-- A data key opened in this session, for one account. -/
structure SessionKey (K : Type) where
  key : K
  user : String
  forgets : Forgets
  deriving DecidableEq, Repr

/-- What the view layer knows about this account's encryption. -/
inductive EncryptionState (K : Type)
  | unknown
  | unreachable
  | disabled
  | locked
  | unlocked (key : SessionKey K)
  deriving DecidableEq, Repr

/-- Where a session's entries live. -/
inductive Backend
  | localStorage
  | remote
  deriving DecidableEq, Repr

/-- What a write should do with the body. -/
inductive WriteKey (K : Type)
  | plaintext
  | sealed (key : SessionKey K)
  | locked
  deriving DecidableEq, Repr

section States

variable {K : Type}

/-- The key to open stored bodies with, if there is one. -/
def EncryptionState.key : EncryptionState K → Option (SessionKey K)
  | .unlocked key => some key
  | .unknown | .unreachable | .disabled | .locked => none

/-- What a write should do; not the mirror of `key`. -/
def EncryptionState.writeKey : EncryptionState K → WriteKey K
  | .disabled => .plaintext
  | .unlocked key => .sealed key
  | .unknown | .unreachable | .locked => .locked

/-- What a page load seeds the context to. -/
def initialState (user : Option String) : EncryptionState K :=
  if user.isSome then .unknown else .disabled

/-- How a row failed to read, as evidence about the session that read it. -/
inductive UnreadableRow
  | sealed
  | unopenable
  deriving DecidableEq, Repr

/-- Whether acting on this row is limited to once per page load. -/
def UnreadableRow.latched (row : UnreadableRow) : Bool :=
  row == .unopenable

/-- Which state a row that would not read contradicts, and what a probe
confirming it parks at meanwhile. -/
def contradictedBy (row : UnreadableRow) (state : EncryptionState K) :
    Option (EncryptionState K) :=
  match row, state with
  | .sealed, .disabled => some .locked
  | .unopenable, .unlocked _ => some .unknown
  | _, _ => none

/-- What a status answer means for the tab that asked. -/
inductive ProbeAnswer
  | wrongAccount
  | notEncrypted
  | needsKey
  deriving DecidableEq, Repr

/-- The account is checked first, before `enabled` is looked at. -/
def probeAnswer (status : EncryptionStatus) (user : String) : ProbeAnswer :=
  if status.account ≠ user then .wrongAccount
  else if status.enabled then .needsKey
  else .notEncrypted

/-- This account's encryption state, shared across the component tree. -/
structure EncryptionCtx (K : Type) where
  state : EncryptionState K
  /-- How many keys this page load has published. -/
  keys : Nat
  generation : Generation
  /-- Whether the one re-probe for an ambiguous row is spent. -/
  reprobed : Bool
  deriving DecidableEq, Repr

namespace EncryptionCtx

/-- The context of a fresh page load. -/
def probing (user : Option String) : EncryptionCtx K :=
  { state := initialState user, keys := 0, generation := ⟨0⟩, reprobed := false }

/-- Invalidates every probe in flight; the new count is the token of the one
starting now. -/
def beginProbe (ctx : EncryptionCtx K) : EncryptionCtx K :=
  { ctx with generation := ctx.generation.next }

/-- Whether `token` still identifies the newest probe, and so may publish. -/
def mayPublish (ctx : EncryptionCtx K) (token : Nat) : Bool :=
  ctx.generation.isCurrent token

/-- Publishes a state, giving a newly unlocked key an identity of its own. -/
def publish (ctx : EncryptionCtx K) (state : EncryptionState K) :
    EncryptionCtx K :=
  { ctx with
    state
    keys := if state.key.isSome then ctx.keys + 1 else ctx.keys }

/-- Publishes an answer if its token is still the newest. -/
def publishIf (ctx : EncryptionCtx K) (token : Nat) (state : EncryptionState K) :
    EncryptionCtx K :=
  if ctx.mayPublish token then ctx.publish state else ctx

/-- Takes the single re-probe a page load allows an ambiguous row. -/
def claimReprobe (ctx : EncryptionCtx K) : Bool × EncryptionCtx K :=
  (!ctx.reprobed, { ctx with reprobed := true })

section Lemmas

variable (ctx : EncryptionCtx K) (state : EncryptionState K) (token : Nat)

@[simp] theorem generation_beginProbe :
    ctx.beginProbe.generation.count = ctx.generation.count + 1 :=
  rfl

@[simp] theorem keys_beginProbe : ctx.beginProbe.keys = ctx.keys :=
  rfl

@[simp] theorem generation_publish : (ctx.publish state).generation = ctx.generation :=
  rfl

@[simp] theorem keys_publish_of_keyless (keyless : state.key = none) :
    (ctx.publish state).keys = ctx.keys := by
  simp [publish, keyless]

@[simp] theorem generation_publishIf :
    (ctx.publishIf token state).generation = ctx.generation := by
  unfold publishIf
  split <;> rfl

/-- An answer that may not publish changes nothing. -/
theorem publishIf_stale (stale : ctx.generation.count ≠ token) :
    ctx.publishIf token state = ctx := by
  simp [publishIf, mayPublish, stale]

@[simp] theorem keys_publishIf_of_keyless (keyless : state.key = none) :
    (ctx.publishIf token state).keys = ctx.keys := by
  unfold publishIf
  split
  · exact keys_publish_of_keyless ctx state keyless
  · rfl

end Lemmas

end EncryptionCtx

end States

end TimeTracker.Tab.State
