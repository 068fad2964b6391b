import TimeTracker.Client.KeysAtHome
import TimeTracker.Server.Outcomes
import TimeTracker.Storage.Saves

/-!
# Encryption keys issued anew

Any number of tabs re-issue the encryption key of one account.  Each sends the wrap of
its fresh key and retries once with the same bytes; a request or its answer may be
late or lost, and may reach the server after the page has given up on it.
-/

namespace TimeTracker.Client.Reissues

open TimeTracker.Text
open TimeTracker.Library
open TimeTracker.Library.Run
open TimeTracker.Library.Indexed
open TimeTracker.Library.Atomic
open TimeTracker.Library.KeyWrap
open TimeTracker.Crypto.Wire
open TimeTracker.Crypto.EncryptionKey
open TimeTracker.Crypto.Ceremony
open TimeTracker.Server.Schema
open TimeTracker.Server.Store
open TimeTracker.Server.Functions
open TimeTracker.Server.Execution
open TimeTracker.Server.Outcomes
open TimeTracker.Storage.Hook (request)
open TimeTracker.Storage.Saves
open TimeTracker.Client.Calls
open TimeTracker.Client.Flow
open TimeTracker.Client.KeysAtHome (plainBrowser)

/-! ## The account's encryption-key wrap -/

/-- The encryption-key wrap an account holds, as `replace_encryption_key_wrap` reads it. -/
def keyWrapOf (db : Database) (userId : Int) : Option Bytes :=
  (db.wraps.rows.find? fun row =>
    row.userId = userId && row.kind = WrapKind.encryptionKey.asStr).map EntryKeyWrap.wrappedKey

section Wraps

variable {db next : Database} {userId : Int} {wrappedKey : Bytes} {now : Timestamp}

theorem keyWrapOf_of_mem {row : EntryKeyWrap} (member : row ∈ db.wraps) (own : IsKeyWrap userId row)
    (only : ∀ other ∈ db.wraps, IsKeyWrap userId other → other.wrappedKey = wrappedKey) :
    keyWrapOf db userId = some wrappedKey := by
  unfold keyWrapOf
  cases found : db.wraps.rows.find? fun row =>
      row.userId = userId && row.kind = WrapKind.encryptionKey.asStr with
  | none =>
      have absent := List.find?_eq_none.mp found row member
      simp [own.1, own.2] at absent
  | some other =>
      have selected : IsKeyWrap userId other := by
        simpa [IsKeyWrap] using List.find?_some found
      exact congrArg some (only other (List.mem_of_find?_eq_some found) selected)

/-- A replace leaves the account with the wrap it was given. -/
theorem keyWrapOf_replaced
    (ran : replaceEncryptionKeyWrap userId wrappedKey now db = .ok ((), next)) :
    keyWrapOf next userId = some wrappedKey := by
  obtain ⟨current, middle, read, decided⟩ := sql_bind_eq_ok.mp ran
  cases read
  split at decided
  · next same =>
      cases decided
      exact same
  · obtain ⟨_, deleted, delete, inserts⟩ := sql_bind_eq_ok.mp decided
    cases delete
    obtain ⟨id, added⟩ := wrapInserted inserts
    have stored : storedWrap id userId .encryptionKey none wrappedKey now ∈ next.wraps :=
      (added.wraps _).mpr (Or.inr rfl)
    refine keyWrapOf_of_mem stored ⟨rfl, rfl⟩ fun other member own => ?_
    rcases (added.wraps other).mp member with kept | rfl
    · have dropped := (Database.mem_deleteWraps.mp kept).2
      simp [own.1, own.2] at dropped
    · rfl

/-- A replace takes two statements: its session is resolved, and the wrap is replaced. -/
theorem takes_encryptionReplaceKeyWrap (ctx : AppCtx) (wrappedKey : Bytes) :
    Takes (encryptionReplaceKeyWrap ctx wrappedKey) 2 := by
  have resolves : Takes (requireUser ctx) (0 + (1 + (0 + 0))) := by
    refine takes_bind (takes_orRefuse _ _) fun claims => ?_
    refine takes_bind (takes_query _ _) fun found => ?_
    refine takes_bind (takes_orRefuse _ _) fun found => ?_
    dsimp only
    split
    · exact takes_bind (takes_throw _ 0) fun _ => takes_pure _
    · exact takes_pure _
  have checked : Takes (checkWrapLen wrappedKey) 0 := by
    unfold checkWrapLen
    split
    · exact takes_pure _
    · exact takes_throw _ _
  exact takes_bind resolves fun me => takes_bind checked fun _ => takes_query _ _

/-- A replace executed by itself was refused and changed nothing, or stored its wrap for
the account its session names. -/
theorem execute_replace_cases (ctx : AppCtx) (faultAt : Option Nat) (db : Database)
    (wrappedKey : Bytes) :
    let outcome := execute (encryptionReplaceKeyWrap ctx wrappedKey) none ⟨faultAt, db, []⟩
    (∃ message, outcome.1.1 = .error message) ∧ outcome.2.store = db ∨
      outcome.1.1 = .ok () ∧ wrappedKey.length = WRAPPED_KEY_LEN ∧
        outcome.2.store.users = db.users ∧
        ∃ me, SignedIn ctx db me ∧ keyWrapOf outcome.2.store me.id = some wrappedKey := by
  have ensured : Ensures (encryptionReplaceKeyWrap ctx wrappedKey) db [] _ :=
    ensures_encryptionReplaceKeyWrap ctx db wrappedKey
  have decision := ensured faultAt none
  dsimp only at decision ⊢
  generalize (execute (encryptionReplaceKeyWrap ctx wrappedKey) none
    ⟨faultAt, db, []⟩) = outcome at decision ⊢
  generalize outcome.1.1 = reply at decision ⊢
  generalize outcome.2.store = next at decision ⊢
  generalize outcome.2.log = log at decision
  cases decision with
  | refused same => exact Or.inl ⟨⟨_, rfl⟩, rfl⟩
  | failed passed aborted executed => exact Or.inl ⟨⟨_, rfl⟩, rfl⟩
  | @committed me value next log passed ran executed =>
      refine Or.inr ⟨rfl, passed.2, ?_, me, passed.1, keyWrapOf_replaced ran⟩
      obtain ⟨rfl, -⟩ | replaced := replaceEncryptionKeyWrap_eq_ok ran
      · rfl
      · exact replaced.users

end Wraps

/-! ## The ceremonies and their requests -/

/-- How far a ceremony has come: it waits for the answer to a request, its first or its
second one; or it has ended. -/
inductive Stage
  | waiting (request : Nat) (retried : Bool)
  | stored
  | unconfirmed
  deriving DecidableEq, Repr

def Stage.isWaiting : Stage → Bool
  | .waiting _ _ => true
  | _ => false

/-- What a ceremony that has ended tells its user, other than the key. -/
def Stage.message : Stage → Option String
  | .unconfirmed => some REISSUE_UNCONFIRMED
  | _ => none

/-- A re-issue whose fresh key has been drawn and wraps the data key. -/
structure Reissue {D : Type} (suite : KeySuite D) where
  existing : Opener
  bytes : KeyBytes
  key : String
  wrappedKey : Bytes
  issued : reissueEncryptionKey suite existing bytes = .ok (key, wrappedKey)
  stage : Stage

/-- The key of a ceremony opens the wrap it sends, to the data key it started from. -/
theorem Reissue.opens {D : Type} {suite : KeySuite D} (ceremony : Reissue suite) :
    ∃ dek, Opens suite ceremony.existing dek ∧
      Opens suite (.encryptionKey ceremony.key ceremony.wrappedKey) dek := by
  obtain ⟨key, dek, opens, wrappedKey⟩ := reissueEncryptionKey_eq_ok ceremony.issued
  refine ⟨dek, opens, opens_encryptionKey.mpr ⟨ceremony.bytes.val, ?_, ?_⟩⟩
  · rw [key, normalize_formatKey]
  · rw [wrappedKey, openWith_lock]
    exact ⟨⟨rfl, rfl⟩, rfl⟩

/-- Where a request is: on its way, answered with the answer on its way, or neither. -/
inductive Fate
  | travelling
  | replied (reply : Except String Unit)
  | over
  deriving DecidableEq

/-- One call of `encryption_replace_key_wrap`. -/
structure Request where
  ceremony : Nat
  wrappedKey : Bytes
  fate : Fate
  deriving DecidableEq

/-- The re-issues of one account, in all its tabs. -/
structure Account {D : Type} (suite : KeySuite D) where
  db : Database
  ceremonies : List (Reissue suite)
  requests : List Request
  /-- Whose key was shown last. -/
  shown : Option Nat
  /-- Whose wrap the server stored last. -/
  storedLast : Option Nat

inductive Event
  | began (existing : Opener) (bytes : KeyBytes)
  | executed (request : Nat) (now : Timestamp) (faultAt : Option Nat)
  | lost (request : Nat)
  | arrived (request : Nat)
  | gaveUp (ceremony : Nat) (text : String)

section Accounts

variable {D : Type} (suite : KeySuite D) (claims : SessionClaims)

namespace Account

variable {suite}

def withCeremony (account : Account suite) (index : Nat) (ceremony : Reissue suite) :
    Account suite :=
  { account with ceremonies := account.ceremonies.set index ceremony }

def withFate (account : Account suite) (index : Nat) (request : Request) (fate : Fate) :
    Account suite :=
  { account with requests := account.requests.set index { request with fate } }

/-- A call has ended: a first failure is retried with the identical bytes, and a success
has the key shown. -/
def callEnded (account : Account suite) (index : Nat) (ceremony : Reissue suite)
    (retried : Bool) (outcome : Except CallError Unit) : Account suite :=
  match outcome, retried with
  | .ok (), _ =>
      { account.withCeremony index { ceremony with stage := .stored } with shown := some index }
  | .error _, false =>
      let request :=
        { ceremony := index, wrappedKey := ceremony.wrappedKey, fate := .travelling }
      { account.withCeremony index
          { ceremony with stage := .waiting account.requests.length true } with
        requests := account.requests ++ [request] }
  | .error _, true => account.withCeremony index { ceremony with stage := .unconfirmed }

/-- A tab draws a fresh key, wraps the data key under it, and sends the wrap; a ceremony
that cannot do so ends there. -/
def begin (existing : Opener) (bytes : KeyBytes) (account : Account suite) :
    Option (Account suite) :=
  match issued : reissueEncryptionKey suite existing bytes with
  | .ok (key, wrappedKey) =>
      let request := { ceremony := account.ceremonies.length, wrappedKey, fate := .travelling }
      let ceremony :=
        { existing, bytes, key, wrappedKey, issued
          stage := .waiting account.requests.length false }
      some { account with
        ceremonies := account.ceremonies ++ [ceremony]
        requests := account.requests ++ [request] }
  | .error _ => none

/-- The server executes a request, however late. -/
def serve (index : Nat) (now : Timestamp) (faultAt : Option Nat) (account : Account suite) :
    Option (Account suite) := do
  let sent ← account.requests[index]?
  match sent.fate with
  | .travelling =>
      let outcome := execute (encryptionReplaceKeyWrap (request claims now) sent.wrappedKey)
        none ⟨faultAt, account.db, []⟩
      let reply := outcome.1.1
      some { account.withFate index sent (.replied reply) with
        db := outcome.2.store
        storedLast := if reply.isOk then some sent.ceremony else account.storedLast }
  | _ => none

/-- A request or an answer gets lost. -/
def lose (index : Nat) (account : Account suite) : Option (Account suite) := do
  let sent ← account.requests[index]?
  some (account.withFate index sent .over)

/-- An answer arrives; a page that has given up on its request drops it. -/
def arrive (index : Nat) (account : Account suite) : Option (Account suite) := do
  let sent ← account.requests[index]?
  match sent.fate with
  | .replied reply => do
      let account := account.withFate index sent .over
      let ceremony ← account.ceremonies[sent.ceremony]?
      match ceremony.stage with
      | .waiting awaited retried =>
          if awaited = index then
            some (account.callEnded sent.ceremony ceremony retried
              (reply.mapError .refused))
          else some account
      | _ => some account
  | _ => none

/-- A call fails on the page's side, whatever becomes of its request. -/
def giveUp (index : Nat) (text : String) (account : Account suite) :
    Option (Account suite) := do
  let ceremony ← account.ceremonies[index]?
  match ceremony.stage with
  | .waiting _ retried =>
      some (account.callEnded index ceremony retried (.error (.transport text)))
  | _ => none

end Account

variable {suite} in
/-- One step of a tab, of the network or of the server. -/
def step (account : Account suite) : Event → Option (Account suite)
  | .began existing bytes => account.begin existing bytes
  | .executed request now faultAt => account.serve claims request now faultAt
  | .lost request => account.lose request
  | .arrived request => account.arrive request
  | .gaveUp ceremony text => account.giveUp ceremony text

/-- The account as it is, with no re-issue begun. -/
def untouched (db : Database) : Account suite :=
  { db, ceremonies := [], requests := [], shown := none, storedLast := none }

end Accounts

/-! ## The key shown last -/

section Shown

variable {D : Type} {suite : KeySuite D} (claims : SessionClaims)

namespace Account

/-- The ceremony waits for an answer. -/
def Waits (account : Account suite) (index : Nat) : Prop :=
  ∃ ceremony, account.ceremonies[index]? = some ceremony ∧ ceremony.stage.isWaiting = true

/-- No ceremony ended unconfirmed. -/
def Confirmed (account : Account suite) : Prop :=
  ∀ ceremony ∈ account.ceremonies, ceremony.stage ≠ .unconfirmed

/-- No request is outstanding: none may still reach the server, and none is waited for. -/
def Quiet (account : Account suite) : Prop :=
  (∀ request ∈ account.requests, request.fate ≠ .travelling) ∧
    ∀ index, ¬ account.Waits index

/-- The server takes the request: its session is live, its wrap has the right length, and
the database fails at neither of its statements. -/
def Takes (account : Account suite) (wrappedKey : Bytes) (now : Timestamp)
    (faultAt : Option Nat) : Prop :=
  (∃ me, SignedIn (request claims now) account.db me) ∧
    wrappedKey.length = WRAPPED_KEY_LEN ∧ faultAt ≠ some 0 ∧ faultAt ≠ some 1

/-- The account's wrap is that of the key shown last, which opens it, or the one it
started with. -/
structure KeyWorks (start : Database) (account : Account suite) : Prop where
  shown : ∀ index, account.shown = some index →
    ∃ ceremony dek, account.ceremonies[index]? = some ceremony ∧
      Opens suite (.encryptionKey ceremony.key ceremony.wrappedKey) dek ∧
      ∀ now me, SignedIn (request claims now) account.db me →
        keyWrapOf account.db me.id = some ceremony.wrappedKey
  unshown : account.shown = none → ∀ now me, SignedIn (request claims now) account.db me →
    keyWrapOf account.db me.id = keyWrapOf start me.id

end Account

/--
The order that keeps the key shown last working.  A success shows a key only if its wrap
was stored last, or the ceremony whose wrap was has yet to hear of it; and a request the
server takes after its ceremony has ended carries the wrap of the key shown last.
-/
def InTurn (account : Account suite) : Event → Prop
  | .arrived index => ∀ request ceremony retried, account.requests[index]? = some request →
      request.fate = .replied (.ok ()) →
      account.ceremonies[request.ceremony]? = some ceremony →
      ceremony.stage = .waiting index retried →
      account.storedLast = some request.ceremony ∨
        ∃ other, account.storedLast = some other ∧ other ≠ request.ceremony ∧
          account.Waits other
  | .executed index now faultAt => ∀ request, account.requests[index]? = some request →
      request.fate = .travelling → account.Takes claims request.wrappedKey now faultAt →
      account.Waits request.ceremony ∨ account.shown = some request.ceremony
  | _ => True

/-! ### The wraps of the ceremonies -/

namespace Account

/-- The wraps of the ceremonies, which no step changes. -/
def wraps (account : Account suite) : List Bytes :=
  account.ceremonies.map Reissue.wrappedKey

/-- The account holds the wrap stored last, and each request carries its ceremony's. -/
structure Sound (start : Database) (account : Account suite) : Prop where
  users : account.db.users = start.users
  carried : ∀ request ∈ account.requests,
    account.wraps[request.ceremony]? = some request.wrappedKey
  stored : ∀ index, account.storedLast = some index →
    ∃ wrappedKey, account.wraps[index]? = some wrappedKey ∧
      ∀ now me, SignedIn (request claims now) account.db me →
        keyWrapOf account.db me.id = some wrappedKey
  unstored : account.storedLast = none → ∀ now me,
    SignedIn (request claims now) account.db me →
      keyWrapOf account.db me.id = keyWrapOf start me.id

/-- The wrap stored last is that of the key shown last, or of a ceremony that waits. -/
def Pending (account : Account suite) : Prop :=
  account.storedLast = account.shown ∨
    ∃ index, account.storedLast = some index ∧ account.Waits index

variable {claims} {start : Database} {account next : Account suite}

theorem sound_untouched (db : Database) : (untouched suite db).Sound claims db where
  users := rfl
  carried := fun _ member => absurd member List.not_mem_nil
  stored := fun _ stored => nomatch stored
  unstored := fun _ _ _ _ => rfl

/-- A step that leaves the database alone adds ceremonies and requests. -/
theorem Sound.later (sound : account.Sound claims start) (db : next.db = account.db)
    (storedLast : next.storedLast = account.storedLast)
    (wraps : account.wraps <+: next.wraps)
    (carried : ∀ request ∈ next.requests,
      next.wraps[request.ceremony]? = some request.wrappedKey) :
    next.Sound claims start where
  users := db ▸ sound.users
  carried := carried
  stored := by
    intro index stored
    obtain ⟨wrappedKey, found, holds⟩ := sound.stored index (storedLast ▸ stored)
    obtain ⟨bound, rfl⟩ := List.getElem?_eq_some_iff.mp found
    exact ⟨_, List.prefix_iff_getElem?.mp wraps index bound, db ▸ holds⟩
  unstored := by
    rw [storedLast, db]
    exact sound.unstored

theorem mem_withFate {index : Nat} {sent other : Request} {fate : Fate}
    (found : account.requests[index]? = some sent)
    (member : other ∈ (account.withFate index sent fate).requests) :
    ∃ before ∈ account.requests, before.ceremony = other.ceremony ∧
      before.wrappedKey = other.wrappedKey := by
  rcases List.mem_or_eq_of_mem_set member with kept | rfl
  · exact ⟨other, kept, rfl, rfl⟩
  · exact ⟨sent, List.mem_of_getElem? found, rfl, rfl⟩

theorem Sound.withFate (sound : account.Sound claims start) {index : Nat} {sent : Request}
    (found : account.requests[index]? = some sent) (fate : Fate) :
    (account.withFate index sent fate).Sound claims start := by
  refine sound.later rfl rfl (List.prefix_refl _) fun other member => ?_
  obtain ⟨before, listed, ceremony, wrappedKey⟩ := mem_withFate found member
  rw [← ceremony, ← wrappedKey]
  exact sound.carried before listed

section Ending

variable {index : Nat} {ceremony after : Reissue suite}
  (found : account.ceremonies[index]? = some ceremony)

include found

theorem wraps_withStage (stage : Stage) :
    (account.withCeremony index { ceremony with stage }).wraps = account.wraps :=
  map_set_of_eq found rfl

theorem waits_withCeremony {other : Nat} :
    (account.withCeremony index after).Waits other ↔
      if other = index then after.stage.isWaiting = true else account.Waits other := by
  obtain ⟨bound, -⟩ := List.getElem?_eq_some_iff.mp found
  unfold Waits withCeremony
  split
  · next same =>
      subst same
      simp [List.getElem?_set_self bound]
  · next apart =>
      rw [List.getElem?_set_ne (Ne.symm apart)]

/-- A ceremony that was waiting had not ended unconfirmed. -/
theorem confirmed_of_withCeremony (waits : ceremony.stage.isWaiting = true)
    (confirmed : (account.withCeremony index after).Confirmed) : account.Confirmed := by
  intro other member
  obtain ⟨place, here⟩ := List.mem_iff_getElem?.mp member
  by_cases same : index = place
  · subst same
    cases Option.some.inj (here.symm.trans found)
    intro unconfirmed
    rw [unconfirmed] at waits
    cases waits
  · have kept : (account.withCeremony index after).ceremonies[place]? = some other :=
      (List.getElem?_set_ne same).trans here
    exact confirmed other (List.mem_of_getElem? kept)

theorem Sound.withStage (sound : account.Sound claims start) (stage : Stage) :
    (account.withCeremony index { ceremony with stage }).Sound claims start := by
  have kept := wraps_withStage found stage
  refine sound.later rfl rfl (kept ▸ List.prefix_refl _) ?_
  rw [kept]
  exact sound.carried

theorem Sound.callEnded (sound : account.Sound claims start) (retried : Bool)
    (outcome : Except CallError Unit) :
    (account.callEnded index ceremony retried outcome).Sound claims start := by
  unfold Account.callEnded
  split
  · have ended := sound.withStage found .stored
    exact ended.later rfl rfl (List.prefix_refl _) ended.carried
  · have waiting := sound.withStage found (.waiting account.requests.length true)
    refine waiting.later rfl rfl (List.prefix_refl _) fun other member => ?_
    rcases List.mem_append.mp member with listed | sent
    · exact waiting.carried other listed
    · cases List.mem_singleton.mp sent
      change (account.withCeremony index _).wraps[index]? = _
      rw [wraps_withStage found, wraps, List.getElem?_map, found]
      rfl
  · exact sound.withStage found .unconfirmed

/-- An answer leaves the key shown last or a waiting ceremony with the wrap stored last,
unless it leaves a ceremony unconfirmed. -/
theorem pending_callEnded (waits : ceremony.stage.isWaiting = true) {retried : Bool}
    {outcome : Except CallError Unit} (held : account.Confirmed → account.Pending)
    (inTurn : outcome = .ok () → account.storedLast = some index ∨
      ∃ other, account.storedLast = some other ∧ other ≠ index ∧ account.Waits other)
    (confirmed : (account.callEnded index ceremony retried outcome).Confirmed) :
    (account.callEnded index ceremony retried outcome).Pending := by
  unfold Account.callEnded at confirmed ⊢
  split at confirmed
  · obtain same | ⟨other, stored, apart, waits'⟩ := inTurn rfl
    · exact Or.inl same
    · refine Or.inr ⟨other, stored, ?_⟩
      exact (waits_withCeremony found).mpr (by rwa [if_neg apart])
  · obtain same | ⟨other, stored, waits'⟩ :=
      held (confirmed_of_withCeremony found waits confirmed)
    · exact Or.inl same
    · refine Or.inr ⟨other, stored, (waits_withCeremony found).mpr ?_⟩
      split
      · rfl
      · exact waits'
  · have unconfirmed := confirmed { ceremony with stage := .unconfirmed }
      (List.mem_of_getElem? (List.getElem?_set_self (List.getElem?_eq_some_iff.mp found).1))
    exact absurd rfl unconfirmed

end Ending

variable (claims) in
/-- What every step keeps: the account is sound, and unless a ceremony ended unconfirmed,
the wrap stored last is that of the key shown last or of a ceremony that waits. -/
structure Kept (start : Database) (account : Account suite) : Prop where
  sound : account.Sound claims start
  pending : account.Confirmed → account.Pending

theorem Kept.withFate (kept : account.Kept claims start) {index : Nat} {sent : Request}
    (found : account.requests[index]? = some sent) (fate : Fate) :
    (account.withFate index sent fate).Kept claims start where
  sound := kept.sound.withFate found fate
  pending := kept.pending

theorem Kept.callEnded (kept : account.Kept claims start) {index : Nat}
    {ceremony : Reissue suite} (found : account.ceremonies[index]? = some ceremony)
    (waits : ceremony.stage.isWaiting = true) {retried : Bool}
    {outcome : Except CallError Unit}
    (inTurn : outcome = .ok () → account.storedLast = some index ∨
      ∃ other, account.storedLast = some other ∧ other ≠ index ∧ account.Waits other) :
    (account.callEnded index ceremony retried outcome).Kept claims start where
  sound := kept.sound.callEnded found retried outcome
  pending := pending_callEnded found waits kept.pending inTurn

/-- A ceremony begins, and sends its wrap. -/
theorem Kept.added (kept : account.Kept claims start) (ceremony : Reissue suite) :
    Kept claims start { account with
      ceremonies := account.ceremonies ++ [ceremony]
      requests := account.requests ++
        [⟨account.ceremonies.length, ceremony.wrappedKey, .travelling⟩] } where
  sound := by
    have wraps : (account.ceremonies ++ [ceremony]).map Reissue.wrappedKey =
        account.wraps ++ [ceremony.wrappedKey] := by
      simp [Account.wraps]
    have grows : account.wraps <+: (account.ceremonies ++ [ceremony]).map Reissue.wrappedKey :=
      wraps ▸ List.prefix_append _ _
    refine kept.sound.later rfl rfl grows fun other member => ?_
    change ((account.ceremonies ++ [ceremony]).map Reissue.wrappedKey)[_]? = _
    rw [wraps]
    rcases List.mem_append.mp member with listed | sent
    · have carried := kept.sound.carried other listed
      obtain ⟨bound, -⟩ := List.getElem?_eq_some_iff.mp carried
      rw [List.getElem?_append_left bound, carried]
    · cases List.mem_singleton.mp sent
      simp [Account.wraps]
  pending confirmed := by
    have before : account.Confirmed := fun other member =>
      confirmed other (List.mem_append_left _ member)
    obtain same | ⟨index, stored, other, found, waits⟩ := kept.pending before
    · exact Or.inl same
    · obtain ⟨bound, -⟩ := List.getElem?_eq_some_iff.mp found
      exact Or.inr ⟨index, stored, other,
        (List.getElem?_append_left bound).trans found, waits⟩

theorem Kept.began (kept : account.Kept claims start) {existing : Opener} {bytes : KeyBytes}
    (taken : account.begin existing bytes = some next) : next.Kept claims start := by
  unfold Account.begin at taken
  split at taken
  · cases taken
    exact kept.added _
  · cases taken

/-- The server stores a wrap, which its ceremony waits to hear of or has shown. -/
theorem Kept.replaced (kept : account.Kept claims start) {db : Database} {index : Nat}
    {wrappedKey : Bytes} (users : db.users = account.db.users)
    (carried : account.wraps[index]? = some wrappedKey)
    (replaced : ∀ now me, SignedIn (request claims now) db me →
      keyWrapOf db me.id = some wrappedKey)
    (waits : account.Waits index ∨ account.shown = some index) :
    Kept claims start { account with db, storedLast := some index } where
  sound := {
    users := users.trans kept.sound.users
    carried := kept.sound.carried
    stored := by
      rintro _ ⟨⟩
      exact ⟨wrappedKey, carried, replaced⟩
    unstored := nofun }
  pending _ := by
    rcases waits with waits | shown
    · exact Or.inr ⟨index, rfl, waits⟩
    · exact Or.inl shown.symm

theorem Kept.served (kept : account.Kept claims start) {index : Nat} {now : Timestamp}
    {faultAt : Option Nat} (inTurn : InTurn claims account (.executed index now faultAt))
    (taken : account.serve claims index now faultAt = some next) : next.Kept claims start := by
  obtain ⟨sent, found, taken⟩ := Option.bind_eq_some_iff.mp taken
  split at taken
  · next travelling =>
      have counted := takes_encryptionReplaceKeyWrap (request claims now) sent.wrappedKey
        ⟨faultAt, account.db, []⟩ none ()
      have ended := execute_replace_cases (request claims now) faultAt account.db sent.wrappedKey
      dsimp only at taken ended
      change some _ = some next at taken
      generalize execute (encryptionReplaceKeyWrap (request claims now) sent.wrappedKey) none
        ⟨faultAt, account.db, []⟩ = outcome at taken counted ended
      rcases ended with ⟨⟨message, refused⟩, same⟩ | ⟨accepted, length, users, me, here, replaced⟩
      · rw [refused, same] at taken
        cases taken
        exact kept.withFate found (.replied (.error message))
      · rw [accepted] at taken
        cases taken
        obtain ⟨spared, -⟩ := counted accepted
        have takes : account.Takes claims sent.wrappedKey now faultAt :=
          ⟨⟨me, here⟩, length, spared 0 (by decide), spared 1 (by decide)⟩
        refine (kept.withFate found (.replied (.ok ()))).replaced users
          (kept.sound.carried sent (List.mem_of_getElem? found)) ?_
          (inTurn sent found travelling takes)
        intro now me' signedIn
        have same : me' = me := (signedIn_of_users signedIn users.symm rfl).unique here
        rw [same]
        exact replaced
  · cases taken

theorem Kept.arrived (kept : account.Kept claims start) {index : Nat}
    (inTurn : InTurn claims account (.arrived index))
    (taken : account.arrive index = some next) : next.Kept claims start := by
  obtain ⟨sent, found, taken⟩ := Option.bind_eq_some_iff.mp taken
  split at taken
  · next reply replied =>
      have kept' := kept.withFate found .over
      obtain ⟨ceremony, here, taken⟩ := Option.bind_eq_some_iff.mp taken
      split at taken
      · next awaited retried waiting =>
          split at taken
          · next same =>
              cases taken
              refine kept'.callEnded here (by rw [waiting]; rfl) fun answered => ?_
              cases reply with
              | error message => cases answered
              | ok value =>
                  exact inTurn sent ceremony retried found replied here (same ▸ waiting)
          · cases taken
            exact kept'
      · cases taken
        exact kept'
  · cases taken

theorem Kept.gaveUp (kept : account.Kept claims start) {index : Nat} {text : String}
    (taken : account.giveUp index text = some next) : next.Kept claims start := by
  obtain ⟨ceremony, found, taken⟩ := Option.bind_eq_some_iff.mp taken
  split at taken
  · next awaited retried waiting =>
      cases taken
      exact kept.callEnded found (by rw [waiting]; rfl) nofun
  · cases taken

theorem Kept.step (kept : account.Kept claims start) {event : Event}
    (inTurn : InTurn claims account event)
    (taken : Reissues.step claims account event = some next) : next.Kept claims start := by
  cases event with
  | began existing bytes => exact kept.began taken
  | executed index now faultAt => exact kept.served inTurn taken
  | lost index =>
      obtain ⟨sent, found, same⟩ := Option.bind_eq_some_iff.mp taken
      cases same
      exact kept.withFate found .over
  | arrived index => exact kept.arrived inTurn taken
  | gaveUp index text => exact kept.gaveUp taken

/-- With no request outstanding, the wrap stored last is that of the key shown last. -/
theorem Kept.keyWorks (kept : account.Kept claims start) (confirmed : account.Confirmed)
    (quiet : account.Quiet) : account.KeyWorks claims start := by
  have same : account.storedLast = account.shown := by
    obtain same | ⟨index, -, waits⟩ := kept.pending confirmed
    · exact same
    · exact absurd waits (quiet.2 index)
  constructor
  · intro index shown
    obtain ⟨wrappedKey, found, holds⟩ := kept.sound.stored index (same.trans shown)
    rw [wraps, List.getElem?_map] at found
    obtain ⟨ceremony, here, rfl⟩ := Option.map_eq_some_iff.mp found
    obtain ⟨dek, -, opens⟩ := ceremony.opens
    exact ⟨ceremony, dek, here, opens, holds⟩
  · exact fun unshown => kept.sound.unstored (same.trans unshown)

end Account

variable {claims}

/-- In turn, the key shown last works whenever every ceremony was confirmed and no request
is outstanding. -/
theorem shown_key_works (db : Database) {events : List Event}
    (inTurn : StepsMeet (step claims) (InTurn claims) (untouched suite db) events) :
    Throughout (step claims)
      (fun last => last.Confirmed → last.Quiet → last.KeyWorks claims db)
      (untouched suite db) events := by
  have kept : Throughout (step claims) (Account.Kept claims db) (untouched suite db) events := by
    refine throughout_of_stepsMeet (fun _ _ _ kept => kept.step) ?_ inTurn
    exact ⟨Account.sound_untouched db, fun _ => Or.inl rfl⟩
  exact kept.mono fun last kept => kept.keyWorks

theorem Account.confirmed_iff {account : Account suite} :
    account.Confirmed ↔ .unconfirmed ∉ account.ceremonies.map Reissue.stage := by
  simp [Account.Confirmed]

theorem Account.quiet_iff {account : Account suite} :
    account.Quiet ↔ .travelling ∉ account.requests.map Request.fate ∧
      ∀ stage ∈ account.ceremonies.map Reissue.stage, stage.isWaiting = false := by
  have none_waits : (∀ index, ¬ account.Waits index) ↔
      ∀ ceremony ∈ account.ceremonies, ceremony.stage.isWaiting = false := by
    constructor
    · intro still ceremony member
      obtain ⟨index, here⟩ := List.mem_iff_getElem?.mp member
      exact Bool.eq_false_iff.mpr fun waits => still index ⟨ceremony, here, waits⟩
    · rintro ended index ⟨ceremony, here, waits⟩
      rw [ended ceremony (List.mem_of_getElem? here)] at waits
      cases waits
  simp [Account.Quiet, none_waits]

/-- Enough for a step to be in its turn: the answered ceremony's wrap was stored last, and
an executed request's ceremony waits. -/
def atOnce (account : Account suite) : Event → Bool
  | .arrived index => (account.requests[index]?).all fun sent =>
      account.storedLast == some sent.ceremony
  | .executed index _ _ => (account.requests[index]?).all fun sent =>
      (account.ceremonies[sent.ceremony]?).any fun ceremony => ceremony.stage.isWaiting
  | _ => true

theorem inTurn_of_atOnce {account : Account suite} {event : Event}
    (here : atOnce account event = true) : InTurn claims account event := by
  cases event with
  | arrived index =>
      intro sent ceremony retried found _ _ _
      simp only [atOnce, found, Option.all_some, beq_iff_eq] at here
      exact Or.inl here
  | executed index now faultAt =>
      intro sent found _ _
      simp only [atOnce, found, Option.all_some] at here
      cases listed : account.ceremonies[sent.ceremony]? with
      | none => simp [listed] at here
      | some ceremony => exact Or.inl ⟨ceremony, listed, by simpa [listed] using here⟩
  | _ => trivial

end Shown

/-! ## A lost answer, and a late request -/

/-- The PRF output of alice's passkey. -/
def alicePrf : Bytes :=
  List.replicate 32 5

/-- Alice's data key, as her passkey holds it. -/
def alicePasskey : Opener :=
  .passkey alicePrf (lock plainBrowser.suite .passkey alicePrf 1)

def oldKey : KeyBytes :=
  ⟨List.replicate 20 6, rfl⟩

def firstKey : KeyBytes :=
  ⟨List.replicate 20 8, rfl⟩

def secondKey : KeyBytes :=
  ⟨List.replicate 20 9, rfl⟩

/-- Alice's account, with her old encryption key. -/
def aliceKeyed : Database :=
  (execute (encryptionReplaceKeyWrap (request aliceClaims 0)
    (lock plainBrowser.suite .encryptionKey oldKey.val 1)) none ⟨none, aliceEncrypted, []⟩).2.store

/-- The answer to the first request is lost, and the retry finds its work done. -/
def answerLost : List Event :=
  [.began alicePasskey firstKey, .executed 0 1 none, .lost 0, .gaveUp 0 "connection lost",
    .executed 1 2 none, .arrived 1]

theorem shown_key_works_answerLost :
    ∃ last, runFrom (step aliceClaims) (untouched plainBrowser.suite aliceKeyed) answerLost =
        some last ∧
      last.shown = some 0 ∧ last.Confirmed ∧ last.Quiet ∧
      last.KeyWorks aliceClaims aliceKeyed := by
  have ends : (runFrom (step aliceClaims) (untouched plainBrowser.suite aliceKeyed)
      answerLost).map (fun last => (last.shown, last.ceremonies.map Reissue.stage,
        last.requests.map Request.fate)) =
      some (some 0, [.stored], [.over, .over]) := by
    decide +kernel
  obtain ⟨last, ran, same⟩ := Option.map_eq_some_iff.mp ends
  simp only [Prod.mk.injEq] at same
  obtain ⟨shown, stages, fates⟩ := same
  have confirmed : last.Confirmed := by
    rw [Account.confirmed_iff, stages]
    decide
  have quiet : last.Quiet := by
    rw [Account.quiet_iff, stages, fates]
    decide
  have inTurn : StepsMeet (step aliceClaims) (fun account event => atOnce account event = true)
      (untouched plainBrowser.suite aliceKeyed) answerLost := by
    decide +kernel
  have works := shown_key_works aliceKeyed (inTurn.mono fun _ _ => inTurn_of_atOnce)
  rw [← List.append_nil answerLost] at works
  exact ⟨last, ran, shown, confirmed, quiet, works.at_split ran confirmed quiet⟩

/-- The page gives up on a request the server has not seen, its retry is stored and shown,
another tab's key is stored and shown, and then the server executes the first request. -/
def lateRequest : List Event :=
  [.began alicePasskey firstKey, .gaveUp 0 "connection lost", .executed 1 1 none, .arrived 1,
    .began alicePasskey secondKey, .executed 2 2 none, .arrived 2, .executed 0 3 none]

/-- Every ceremony was confirmed, and the account holds the wrap of a key that is no longer
the one shown. -/
theorem lateRequest_strands_shown_key :
    ∃ last, runFrom (step aliceClaims) (untouched plainBrowser.suite aliceKeyed) lateRequest =
        some last ∧
      last.Confirmed ∧ last.Quiet ∧ ¬ last.KeyWorks aliceClaims aliceKeyed := by
  have ends : (runFrom (step aliceClaims) (untouched plainBrowser.suite aliceKeyed)
      lateRequest).map (fun last => (last.shown, last.db.users.rows, last.wraps,
        keyWrapOf last.db alice.id, last.ceremonies.map Reissue.stage,
        last.requests.map Request.fate)) =
      some (some 1, [alice], [lock plainBrowser.suite .encryptionKey firstKey.val 1,
          lock plainBrowser.suite .encryptionKey secondKey.val 1],
        some (lock plainBrowser.suite .encryptionKey firstKey.val 1),
        [.stored, .stored], [.replied (.ok ()), .over, .over]) := rfl
  obtain ⟨last, ran, same⟩ := Option.map_eq_some_iff.mp ends
  simp only [Prod.mk.injEq] at same
  obtain ⟨shown, users, wraps, held, stages, fates⟩ := same
  refine ⟨last, ran, ?_, ?_, fun works => ?_⟩
  · rw [Account.confirmed_iff, stages]
    decide
  · rw [Account.quiet_iff, stages, fates]
    decide
  · obtain ⟨ceremony, -, here, -, holds⟩ := works.shown 1 shown
    have second : last.wraps[1]? = some ceremony.wrappedKey := by
      rw [Account.wraps, List.getElem?_map, here]
      rfl
    have signedIn : SignedIn (request aliceClaims 4) last.db alice :=
      ⟨aliceClaims, _, rfl, rfl, by rw [userByEmail, users]; rfl, rfl⟩
    have stands := holds 4 alice signedIn
    rw [wraps] at second
    rw [held, ← second] at stands
    exact absurd stands (by decide +kernel)

end TimeTracker.Client.Reissues
