import TimeTracker.Crypto.Ceremony
import TimeTracker.Server.Filing

/-!
# Which passkeys can unlock

The encryption panel joins an account's passkeys with its wraps, and offers the openers
that `choose_route` finds a wrap for.  Over every table the server functions reach, these
are the credentials the server's own two queries find a wrap for.
-/

namespace TimeTracker.Client.Panel

open TimeTracker.Text
open TimeTracker.Crypto.Wire
open TimeTracker.Crypto.Ceremony
open TimeTracker.Library
open TimeTracker.Library.Run
open TimeTracker.Library.Indexed
open TimeTracker.Server.Schema
open TimeTracker.Server.Store
open TimeTracker.Server.Ceremony
open TimeTracker.Server.Functions
open TimeTracker.Server.Execution
open TimeTracker.Server.Outcomes
open TimeTracker.Server.Opaque
open TimeTracker.Server.Filing

/-- Whether one enrolled passkey can open the account's data key. -/
inductive RouteStatus
  | canUnlock
  | noKeyYet
  | neverCapable
  deriving DecidableEq, Repr

/-- One row of the account's passkey list. -/
structure PasskeyListItem where
  name : String
  credentialId : Bytes
  prfCapable : Bool
  deriving DecidableEq, Repr

/-- One enrolled passkey, as the panel talks about it. -/
structure PasskeyRoute where
  name : String
  credentialId : Bytes
  status : RouteStatus
  deriving DecidableEq, Repr

/-- Joins one passkey against the account's stored wraps. -/
def classify (row : PasskeyListItem) (wraps : List WrapDto) : PasskeyRoute :=
  let status :=
    if (chooseRoute wraps (some row.credentialId)).isSome then RouteStatus.canUnlock
    else if row.prfCapable then .noKeyYet
    else .neverCapable
  { name := row.name, credentialId := row.credentialId, status }

/-- Everything the panel fetches about the account in one go. -/
structure Overview where
  routes : List PasskeyRoute
  hasEncryptionKeyWrap : Bool
  deriving DecidableEq, Repr

/-- What `load_overview` makes of the two lists it fetches. -/
def overview (rows : List PasskeyListItem) (wraps : List WrapDto) : Overview :=
  { routes := rows.map fun row => classify row wraps
    hasEncryptionKeyWrap := (chooseRoute wraps none).isSome }

/-- Which of the account's secrets can open its data key right now. -/
inductive Openers
  | nothing
  | encryptionKeyOnly
  | passkeyOnly
  | either
  deriving DecidableEq, Repr

namespace Openers

def of (overview : Overview) : Openers :=
  let passkey := overview.routes.any fun route => route.status = .canUnlock
  match passkey, overview.hasEncryptionKeyWrap with
  | true, true => .either
  | true, false => .passkeyOnly
  | false, true => .encryptionKeyOnly
  | false, false => .nothing

/-- Whether a passkey assertion is worth offering as the opener. -/
def passkey : Openers → Bool
  | .passkeyOnly | .either => true
  | .nothing | .encryptionKeyOnly => false

/-- Whether the encryption key is worth offering as the opener. -/
def encryptionKey : Openers → Bool
  | .encryptionKeyOnly | .either => true
  | .nothing | .passkeyOnly => false

end Openers

section Offers

variable {wraps : List WrapDto}

theorem classify_status_iff {row : PasskeyListItem} :
    (classify row wraps).status = .canUnlock ↔
      (chooseRoute wraps (some row.credentialId)).isSome = true := by
  rw [classify]
  split
  · next found => simp [found]
  · next missing =>
      split
      · simp [missing]
      · simp [missing]

theorem passkey_of (rows : List PasskeyListItem) :
    (Openers.of (overview rows wraps)).passkey =
      rows.any fun row => (chooseRoute wraps (some row.credentialId)).isSome := by
  have each : (overview rows wraps).routes.any (fun route => route.status = .canUnlock) =
      rows.any fun row => (chooseRoute wraps (some row.credentialId)).isSome := by
    simp only [overview, List.any_map, Function.comp_def, classify_status_iff,
      Bool.decide_eq_true]
  rw [← each]
  unfold Openers.of
  cases (overview rows wraps).routes.any fun route => route.status = .canUnlock <;>
    cases (overview rows wraps).hasEncryptionKeyWrap <;> rfl

theorem encryptionKey_of (rows : List PasskeyListItem) :
    (Openers.of (overview rows wraps)).encryptionKey = (chooseRoute wraps none).isSome := by
  show _ = (overview rows wraps).hasEncryptionKeyWrap
  unfold Openers.of
  cases (overview rows wraps).routes.any fun route => route.status = .canUnlock <;>
    cases (overview rows wraps).hasEncryptionKeyWrap <;> rfl

end Offers

/-! ## Which wrap is chosen -/

/-- The kind of wrap that is asked for: a passkey's, or the encryption key's. -/
def askedKind : Option Bytes → WrapKind
  | some _ => .passkey
  | none => .encryptionKey

/-- The wrap is of the kind that is asked for, of the credential if one is asked for, and
under the algorithms this build knows. -/
structure Requested (asked : Option Bytes) (wrap : WrapDto) : Prop where
  kind : wrap.kind = (askedKind asked).asStr
  credential : ∀ id, asked = some id → wrap.credentialId = some id
  kdf : wrap.kdf = KDF_HKDF_SHA256
  wrapAlg : wrap.wrapAlg = WRAP_ALG_AESKW256

section Choosing

variable {wraps other : List WrapDto} {wrap : WrapDto} {asked : Option Bytes} {route : WrapRoute}

theorem routeOf_iff : routeOf asked wrap = some route ↔ Requested asked wrap ∧
    route = { kind := askedKind asked, credentialId := wrap.credentialId,
              wrappedKey := wrap.wrappedKey } := by
  rw [routeOf_eq_some, WrapKind.parse_eq_some]
  constructor
  · rintro ⟨kind, ⟨kdf, wrapAlg⟩, chosen, credentialId, wrappedKey⟩
    obtain ⟨chosenKind, _, _⟩ := route
    cases credentialId
    cases wrappedKey
    cases chosenKind <;> cases asked
    · cases chosen
    · exact ⟨⟨kind, fun id same => same ▸ of_decide_eq_true chosen, kdf, wrapAlg⟩, rfl⟩
    · exact ⟨⟨kind, nofun, kdf, wrapAlg⟩, rfl⟩
    · cases chosen
  · rintro ⟨requested, rfl⟩
    refine ⟨requested.kind, ⟨requested.kdf, requested.wrapAlg⟩, ?_, rfl, rfl⟩
    cases asked with
    | none => rfl
    | some id => exact decide_eq_true (requested.credential id rfl)

/-- A route is one of the wraps asked for. -/
theorem exists_of_chooseRoute (chosen : chooseRoute wraps asked = some route) :
    ∃ wrap ∈ wraps, Requested asked wrap ∧
      route = { kind := askedKind asked, credentialId := wrap.credentialId,
                wrappedKey := wrap.wrappedKey } := by
  obtain ⟨wrap, member, offers⟩ := chooseRoute_eq_some chosen
  exact ⟨wrap, member, routeOf_iff.mp offers⟩

theorem chooseRoute_isSome_iff :
    (chooseRoute wraps asked).isSome = true ↔ ∃ wrap ∈ wraps, Requested asked wrap := by
  constructor
  · intro found
    obtain ⟨route, chosen⟩ := Option.isSome_iff_exists.mp found
    obtain ⟨wrap, member, requested, -⟩ := exists_of_chooseRoute chosen
    exact ⟨wrap, member, requested⟩
  · rintro ⟨wrap, member, requested⟩
    exact List.findSome?_isSome_iff.mpr
      ⟨wrap, member, Option.isSome_iff_exists.mpr ⟨_, routeOf_iff.mpr ⟨requested, rfl⟩⟩⟩

theorem chooseRoute_eq_none_iff :
    chooseRoute wraps asked = none ↔ ¬ ∃ wrap ∈ wraps, Requested asked wrap := by
  rw [← chooseRoute_isSome_iff, Bool.not_eq_true, Option.isSome_eq_false_iff,
    Option.isNone_iff_eq_none]

/-- Where at most one wrap is asked for, the order of the rows does not matter. -/
theorem chooseRoute_perm (same : other.Perm wraps)
    (unique : ∀ wrap ∈ wraps, ∀ wrap' ∈ wraps, Requested asked wrap → Requested asked wrap' →
      wrap = wrap') : chooseRoute other asked = chooseRoute wraps asked := by
  cases chosen : chooseRoute wraps asked with
  | none =>
      rw [chooseRoute_eq_none_iff] at chosen ⊢
      rintro ⟨wrap, member, requested⟩
      exact chosen ⟨wrap, same.mem_iff.mp member, requested⟩
  | some route =>
      obtain ⟨wrap, member, requested, rfl⟩ := exists_of_chooseRoute chosen
      refine chooseRoute_of_unique (same.mem_iff.mpr member)
        (routeOf_iff.mpr ⟨requested, rfl⟩) fun wrap' member' found offers => ?_
      obtain ⟨requested', rfl⟩ := routeOf_iff.mp offers
      rw [unique wrap member wrap' (same.mem_iff.mp member') requested requested']

end Choosing

/-! ## Over the tables the server reaches -/

section Reached

variable {db : Database} {userId : Int} {asked : Option Bytes} {credentialId : Bytes}
  {row : EntryKeyWrap}

/-- What a stored wrap is asked for by. -/
theorem requested_wrapDto_iff (known : Known row) :
    Requested asked (wrapDto row) ↔
      row.kind = (askedKind asked).asStr ∧ row.credentialId = asked := by
  constructor
  · intro requested
    refine ⟨requested.kind, ?_⟩
    cases asked with
    | none => exact known.credentialId_eq_none requested.kind
    | some id => exact requested.credential id rfl
  · rintro ⟨kind, filed⟩
    exact ⟨kind, fun id same => filed.trans same, known.algorithms.1, known.algorithms.2⟩

/-- The unique indexes leave one wrap to ask for. -/
theorem requested_unique (known : KnownWraps db) :
    ∀ wrap ∈ (wrapsOf db userId).map wrapDto, ∀ wrap' ∈ (wrapsOf db userId).map wrapDto,
      Requested asked wrap → Requested asked wrap' → wrap = wrap' := by
  intro wrap member wrap' member' requested requested'
  obtain ⟨row, listed, rfl⟩ := List.mem_map.mp member
  obtain ⟨row', listed', rfl⟩ := List.mem_map.mp member'
  obtain ⟨stored, owns⟩ := mem_wrapsOf.mp listed
  obtain ⟨stored', owns'⟩ := mem_wrapsOf.mp listed'
  obtain ⟨kind, filed⟩ := (requested_wrapDto_iff (known row stored)).mp requested
  obtain ⟨kind', filed'⟩ := (requested_wrapDto_iff (known row' stored')).mp requested'
  have conflict : row.Conflict row' := by
    cases asked with
    | none => exact .inr (.inr ⟨owns.trans owns'.symm, kind, kind'⟩)
    | some id =>
        exact .inr (.inl ⟨owns.trans owns'.symm, by rw [filed]; nofun, filed.trans filed'.symm⟩)
  rw [Table.eq_of_conflict EntryKeyWrap.conflict_symm stored stored' conflict]

/-- A credential has a route exactly if the server finds it a wrap. -/
theorem chooseRoute_isSome_iff_hasWrap (known : KnownWraps db) :
    (chooseRoute ((wrapsOf db userId).map wrapDto) (some credentialId)).isSome = true ↔
      HasWrap db userId credentialId := by
  rw [chooseRoute_isSome_iff]
  constructor
  · rintro ⟨_, member, requested⟩
    obtain ⟨row, listed, rfl⟩ := List.mem_map.mp member
    obtain ⟨stored, owns⟩ := mem_wrapsOf.mp listed
    exact ⟨row, stored, owns, requested.credential credentialId rfl⟩
  · rintro ⟨row, stored, owns, filed⟩
    have passkey := (known row stored).isPasskeyWrap owns filed
    exact ⟨wrapDto row, List.mem_map_of_mem (mem_wrapsOf.mpr ⟨stored, owns⟩),
      (requested_wrapDto_iff (known row stored)).mpr ⟨passkey.2, filed⟩⟩

/-- What `encryption_wraps` answers. -/
theorem execute_encryptionWraps {ctx : AppCtx} {me : User} {log : Log}
    (known : KnownWraps db) (signedIn : SignedIn ctx db me) (cookie : Option SetCookie) :
    (execute (encryptionWraps ctx) cookie ⟨none, db, log⟩).1.1 =
      .ok ((wrapsOf db me.id).map wrapDto) := by
  obtain ⟨rows, read⟩ := listWraps_isOk known me.id
  unfold encryptionWraps
  rw [execute_bind, signedIn.execute_requireUser]
  dsimp only
  rw [execute_bind, execute_query read]
  dsimp only
  rw [execute_pure, map_ofRow_listWraps read]

/-- What a list of wraps is good for, whatever it holds. -/
structure Chooses (wraps : List WrapDto) : Prop where
  chosen : ∀ asked route, chooseRoute wraps asked = some route →
    ∃ wrap ∈ wraps, Requested asked wrap ∧
      route = { kind := askedKind asked, credentialId := wrap.credentialId,
                wrappedKey := wrap.wrappedKey }
  missing : ∀ asked, chooseRoute wraps asked = none ↔ ¬ ∃ wrap ∈ wraps, Requested asked wrap
  canUnlock : ∀ row, (classify row wraps).status = .canUnlock ↔
    (chooseRoute wraps (some row.credentialId)).isSome = true
  passkey : ∀ rows : List PasskeyListItem, (Openers.of (overview rows wraps)).passkey =
    rows.any fun row => (chooseRoute wraps (some row.credentialId)).isSome
  encryptionKey : ∀ rows, (Openers.of (overview rows wraps)).encryptionKey =
    (chooseRoute wraps none).isSome

theorem chooses (wraps : List WrapDto) : Chooses wraps where
  chosen _ _ := exists_of_chooseRoute
  missing _ := chooseRoute_eq_none_iff
  canUnlock _ := classify_status_iff
  passkey := passkey_of
  encryptionKey := encryptionKey_of

/-- What the browser finds of an account's credentials is what the server finds. -/
structure Agrees (db : Database) (userId : Int) (wraps : List WrapDto) : Prop where
  filed : ∀ asked route, chooseRoute wraps asked = some route → route.credentialId = asked
  has : ∀ credentialId, hasWrapForCredential userId credentialId db =
    .ok ((chooseRoute wraps (some credentialId)).isSome, db)
  guard : ∃ rows, listWraps userId db = .ok (rows, db) ∧ ∀ credentialId,
    thisCredentialHasAWrap rows credentialId = (chooseRoute wraps (some credentialId)).isSome
  refuses : ∀ target ∈ db.passkeys, target.userId = userId →
    (deleteTransaction userId target.id db = .ok (.error LAST_PASSKEY, db) ↔
      Encrypted db userId ∧ (chooseRoute wraps (some target.credentialId)).isSome = true ∧
        (passkeyWraps db userId).length ≤ 1)
  order : ∀ other asked, other.Perm wraps → chooseRoute other asked = chooseRoute wraps asked

theorem agrees (known : KnownWraps db) : Agrees db userId ((wrapsOf db userId).map wrapDto) := by
  obtain ⟨rows, read⟩ := listWraps_isOk known userId
  constructor
  · intro asked route chosen
    obtain ⟨_, member, requested, rfl⟩ := exists_of_chooseRoute chosen
    obtain ⟨row, listed, rfl⟩ := List.mem_map.mp member
    exact ((requested_wrapDto_iff (known row (mem_wrapsOf.mp listed).1)).mp requested).2
  · intro credentialId
    obtain ⟨holds, ran⟩ : ∃ holds, hasWrapForCredential userId credentialId db =
        .ok (holds, db) := ⟨_, rfl⟩
    have same : holds = (chooseRoute ((wrapsOf db userId).map wrapDto)
        (some credentialId)).isSome := by
      rw [Bool.eq_iff_iff, (hasWrapForCredential_eq_ok ran).2,
        chooseRoute_isSome_iff_hasWrap known]
    rw [ran, same]
  · refine ⟨rows, read, fun credentialId => ?_⟩
    rw [Bool.eq_iff_iff, thisCredentialHasAWrap_iff known read,
      chooseRoute_isSome_iff_hasWrap known]
  · intro target present owner
    rw [deleteTransaction_refuses_iff known present owner, chooseRoute_isSome_iff_hasWrap known]
  · exact fun other asked same => chooseRoute_perm same (requested_unique known)

/-- A list of wraps offers what was asked for, whatever else it holds; and however requests
interleave, the browser and the server agree on which credentials can unlock. -/
theorem unlock_routes_agree (wa : Webauthn) :
    (∀ wraps, Chooses wraps) ∧
      ∀ (events : List Event) (service : Requests),
        runFrom (Serving.step (serve wa)) (.idle .empty) events = some service →
          ∀ ctx me, SignedIn ctx service.store me →
            ∃ wraps, (execute (encryptionWraps ctx) none ⟨none, service.store, []⟩).1.1 =
              .ok wraps ∧ Agrees service.store me.id wraps := by
  refine ⟨chooses, fun events service ran ctx me signedIn => ?_⟩
  have known := knownWraps_of_run ran
  exact ⟨_, execute_encryptionWraps known signedIn none, agrees known⟩

end Reached

/-- Alice signs in and turns encryption on with the passkey `p`. -/
def enabledWithP : List Event :=
  [.start 0 (.magicSignIn "alice@example.com" 0), .execute 0,
    .start 1 (.endpoint alice (.encryptionEnable
      (some ⟨asciiBytes "p", List.replicate WRAPPED_KEY_LEN 2⟩)
      (List.replicate WRAPPED_KEY_LEN 1))),
    .execute 1, .execute 1]

theorem unlock_routes_agree_enabledWithP :
    ∃ service wraps, runFrom (Serving.step (serve plainWebauthn)) (.idle .empty) enabledWithP =
      some service ∧ Agrees service.store 1 wraps ∧
        (chooseRoute wraps (some (asciiBytes "p"))).isSome = true := by
  obtain ⟨service, ran, signedIn, has⟩ : ∃ service,
      runFrom (Serving.step (serve plainWebauthn)) (.idle .empty) enabledWithP = some service ∧
        SignedIn alice service.store ⟨1, "alice@example.com", 0, 0, some 3⟩ ∧
        hasWrapForCredential 1 (asciiBytes "p") service.store = .ok (true, service.store) :=
    ⟨_, rfl, ⟨_, "alice@example.com", rfl, by decide, rfl, rfl⟩, rfl⟩
  obtain ⟨wraps, -, agrees⟩ := (unlock_routes_agree plainWebauthn).2 _ _ ran _ _ signedIn
  refine ⟨service, wraps, ran, agrees, ?_⟩
  have same := has.symm.trans (agrees.has (asciiBytes "p"))
  exact (Prod.mk.inj (Except.ok.inj same)).1.symm

/-- A key wrap filed under a credential is chosen by its kind alone, though there is none
of that kind filed under no credential. -/
theorem chooseRoute_filed_key :
    let wrap : WrapDto :=
      { kind := WrapKind.encryptionKey.asStr, credentialId := some (asciiBytes "p"),
        wrappedKey := List.replicate WRAPPED_KEY_LEN 1, kdf := KDF_HKDF_SHA256,
        wrapAlg := WRAP_ALG_AESKW256 }
    (chooseRoute [wrap] none).isSome = true ∧
      ¬ ∃ other ∈ [wrap], Requested none other ∧ other.credentialId = none := by
  refine ⟨by decide, ?_⟩
  rintro ⟨other, member, -, filed⟩
  cases List.mem_singleton.mp member
  cases filed

end TimeTracker.Client.Panel
