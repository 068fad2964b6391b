import TimeTracker.Crypto.Ceremony
import TimeTracker.Server.Outcomes

/-!
# The routes of an account

An account that one tab has turned encryption on for keeps every wrap filed under
the secret it is locked with: a credential's PRF output, or the bytes of the
encryption key shown last.  Each statement that stores such a wrap keeps it so, and
then every wrap opens for its own secret, and for no other.
-/

namespace TimeTracker.Client.Routes

open TimeTracker.Text
open TimeTracker.Library.KeyWrap
open TimeTracker.Crypto.Wire
open TimeTracker.Crypto.EncryptionKey
open TimeTracker.Crypto.Ceremony
open TimeTracker.Server.Schema
open TimeTracker.Server.Store
open TimeTracker.Server.Functions
open TimeTracker.Server.Outcomes

section Routes

variable {D : Type} (suite : KeySuite D) (prf : Bytes → Bytes)

/-- The account is not encrypted and has no wraps. -/
def Bare (db : Database) (userId : Int) : Prop :=
  ¬ Encrypted db userId ∧ ∀ row ∈ db.wraps, row.userId ≠ userId

/-- A wrap of the account's data key, locked with the secret it is filed under. -/
inductive Filed (userId : Int) (dek : D) (bytes : KeyBytes) : EntryKeyWrap → Prop
  | passkey (id : Int) (credentialId : Bytes) (now : Timestamp) :
      Filed userId dek bytes (storedWrap id userId .passkey (some credentialId)
        (lock suite .passkey (prf credentialId) dek) now)
  | encryptionKey (id : Int) (now : Timestamp) :
      Filed userId dek bytes (storedWrap id userId .encryptionKey none
        (lock suite .encryptionKey bytes.val dek) now)

/-- The account is encrypted, its encryption key has a wrap, and each of its wraps
is locked with the secret it is filed under. -/
structure Routed (db : Database) (userId : Int) (dek : D) (bytes : KeyBytes) : Prop where
  encrypted : Encrypted db userId
  keyed : ∃ row ∈ db.wraps, IsKeyWrap userId row
  filed : ∀ row ∈ db.wraps, row.userId = userId → Filed suite prf userId dek bytes row

/-- The secret an opener offers is the wrap's own: its credential's PRF output, or
the encryption key shown last, in any form that reads back as the same bytes. -/
def Owns (shown : Option String) (row : EntryKeyWrap) : Opener → Prop
  | .passkey prfOutput _ =>
      row.kind = WrapKind.passkey.asStr ∧ row.credentialId.map prf = some prfOutput
  | .encryptionKey typed _ =>
      row.kind = WrapKind.encryptionKey.asStr ∧ ∃ key bytes, shown = some key ∧
        normalize key = .ok bytes ∧ normalize typed = .ok bytes

variable {suite prf} {db next : Database} {userId : Int} {dek : D} {bytes : KeyBytes}
  {row : EntryKeyWrap} {now : Timestamp}

/-! ## What the statements keep -/

theorem Bare.of_same (bare : Bare db userId) (users : next.users = db.users)
    (wraps : next.wraps = db.wraps) : Bare next userId := by
  rw [Bare, Encrypted, users, wraps]
  exact bare

theorem Routed.of_same (routed : Routed suite prf db userId dek bytes)
    (users : next.users = db.users) (wraps : next.wraps = db.wraps) :
    Routed suite prf next userId dek bytes := by
  refine ⟨?_, ?_, ?_⟩
  · rw [Encrypted, users]
    exact routed.encrypted
  · rw [wraps]
    exact routed.keyed
  · rw [wraps]
    exact routed.filed

/-- Turning encryption on with wraps locked with the secrets they are filed under. -/
theorem routed_enabled {passkey : Option PasskeyWrapDto} {encryptionKeyWrap : Bytes}
    (bare : Bare db userId) (present : db.HasUser userId)
    (key : encryptionKeyWrap = lock suite .encryptionKey bytes.val dek)
    (passkeys : ∀ dto, passkey = some dto →
      dto.wrappedKey = lock suite .passkey (prf dto.credentialId) dek)
    (enabled : Enabled db next userId passkey encryptionKeyWrap now) :
    Routed suite prf next userId dek bytes := by
  obtain ⟨keyId, passkeyId, wraps⟩ := enabled.wraps
  obtain ⟨user, member, same⟩ := present
  refine ⟨?_, ⟨_, (wraps _).mpr (.inr (.inl rfl)), ⟨rfl, rfl⟩⟩, ?_⟩
  · refine ⟨{ user with encryptedAt := some now },
      (enabled.users _).mpr ⟨user, member, if_pos same⟩, same, nofun⟩
  · intro row stored owns
    obtain old | rfl | ⟨dto, sent, rfl⟩ := (wraps row).mp stored
    · exact absurd owns (bare.2 row old)
    · rw [key]
      exact .encryptionKey keyId now
    · rw [passkeys dto sent]
      exact .passkey passkeyId dto.credentialId now

/-- Giving a passkey a wrap locked with its PRF output. -/
theorem Routed.wrapInserted {id : Int} {credentialId : Bytes}
    (routed : Routed suite prf db userId dek bytes)
    (inserted : WrapInserted db next (storedWrap id userId .passkey (some credentialId)
      (lock suite .passkey (prf credentialId) dek) now)) :
    Routed suite prf next userId dek bytes := by
  obtain ⟨keyRow, stored, keyWrap⟩ := routed.keyed
  refine ⟨?_, ⟨keyRow, (inserted.wraps _).mpr (.inl stored), keyWrap⟩, ?_⟩
  · rw [Encrypted, inserted.users]
    exact routed.encrypted
  · intro row stored owns
    obtain old | rfl := (inserted.wraps row).mp stored
    · exact routed.filed row old owns
    · exact .passkey id credentialId now

/-- The passkey wraps do not depend on the encryption key. -/
theorem Filed.passkey_of_not_keyWrap {other : KeyBytes}
    (filed : Filed suite prf userId dek bytes row) (passkey : ¬ IsKeyWrap userId row) :
    Filed suite prf userId dek other row := by
  cases filed with
  | passkey id credentialId now => exact .passkey id credentialId now
  | encryptionKey id now => exact absurd ⟨rfl, rfl⟩ passkey

/-- Replacing the encryption-key wrap by one locked with new bytes. -/
theorem Routed.keyWrapReplaced {newBytes : KeyBytes}
    (routed : Routed suite prf db userId dek bytes)
    (replaced : KeyWrapReplaced db next userId
      (lock suite .encryptionKey newBytes.val dek) now) :
    Routed suite prf next userId dek newBytes := by
  obtain ⟨id, wraps⟩ := replaced.wraps
  refine ⟨?_, ⟨_, (wraps _).mpr (.inr rfl), ⟨rfl, rfl⟩⟩, ?_⟩
  · rw [Encrypted, replaced.users]
    exact routed.encrypted
  · intro row stored owns
    obtain ⟨old, passkey⟩ | rfl := (wraps row).mp stored
    · exact (routed.filed row old owns).passkey_of_not_keyWrap passkey
    · exact .encryptionKey id now

/-- A wrap locked with new bytes was there already: the bytes are not new. -/
theorem Routed.keyWrapKept {newBytes : KeyBytes}
    (routed : Routed suite prf db userId dek bytes) (stored : row ∈ db.wraps)
    (keyWrap : IsKeyWrap userId row)
    (locked : row.wrappedKey = lock suite .encryptionKey newBytes.val dek) :
    Routed suite prf db userId dek newBytes := by
  have same : bytes = newBytes := by
    cases routed.filed row stored keyWrap.1 with
    | passkey id credentialId now => exact absurd keyWrap.2 WrapKind.asStr_passkey_ne
    | encryptionKey id now =>
        apply Subtype.ext
        exact (suite.derive_inj (suite.kek_of_wrap locked)).2
  rw [← same]
  exact routed

/-- Deleting a passkey takes at most its own wrap. -/
theorem Routed.passkeyDeleted {target : PasskeyRow}
    (routed : Routed suite prf db userId dek bytes)
    (deleted : PasskeyDeleted db next userId target) :
    Routed suite prf next userId dek bytes := by
  obtain ⟨keyRow, stored, keyWrap⟩ := routed.keyed
  refine ⟨?_, ⟨keyRow, (deleted.wraps _).mpr ⟨stored, ?_⟩, keyWrap⟩, ?_⟩
  · rw [Encrypted, deleted.users]
    exact routed.encrypted
  · rintro ⟨owns, filed⟩
    cases routed.filed keyRow stored owns with
    | passkey id credentialId now => exact absurd keyWrap.2 WrapKind.asStr_passkey_ne
    | encryptionKey id now => cases filed
  · exact fun row stored => routed.filed row ((deleted.wraps row).mp stored).1

theorem Bare.passkeyDeleted {target : PasskeyRow} (bare : Bare db userId)
    (deleted : PasskeyDeleted db next userId target) : Bare next userId := by
  refine ⟨?_, fun row stored => bare.2 row ((deleted.wraps row).mp stored).1⟩
  rw [Encrypted, deleted.users]
  exact bare.1

/-! ## What the secrets open -/

theorem Filed.wraps (filed : Filed suite prf userId dek bytes row) :
    Wraps suite dek row.wrappedKey := by
  cases filed with
  | passkey id credentialId now => exact wraps_lock ..
  | encryptionKey id now => exact wraps_lock ..

/-- An opener opens a wrap exactly if it offers the wrap's own secret, and then it
finds the account's data key. -/
theorem Filed.opens_iff {opener : Opener} {found : D}
    (filed : Filed suite prf userId dek bytes row) (same : opener.wrap = row.wrappedKey) :
    Opens suite opener found ↔
      Owns prf (some (formatKey bytes)) row opener ∧ found = dek := by
  cases opener with
  | passkey prfOutput wrap =>
      obtain rfl : wrap = row.wrappedKey := same
      rw [opens_passkey]
      cases filed with
      | passkey id credentialId now =>
          refine (openWith_lock suite).trans ?_
          constructor
          · rintro ⟨⟨-, rfl⟩, rfl⟩
            exact ⟨⟨rfl, rfl⟩, rfl⟩
          · rintro ⟨⟨-, own⟩, rfl⟩
            exact ⟨⟨rfl, Option.some.inj own⟩, rfl⟩
      | encryptionKey id now =>
          refine (openWith_lock suite).trans ?_
          constructor
          · rintro ⟨⟨kinds, -⟩, -⟩
            cases kinds
          · rintro ⟨⟨-, own⟩, -⟩
            cases own
  | encryptionKey typed wrap =>
      obtain rfl : wrap = row.wrappedKey := same
      rw [opens_encryptionKey]
      cases filed with
      | passkey id credentialId now =>
          constructor
          · rintro ⟨secret, -, opened⟩
            obtain ⟨⟨kinds, -⟩, -⟩ := (openWith_lock suite).mp opened
            cases kinds
          · rintro ⟨⟨kind, -⟩, -⟩
            exact absurd kind.symm WrapKind.asStr_passkey_ne.symm
      | encryptionKey id now =>
          constructor
          · rintro ⟨secret, typedReads, opened⟩
            obtain ⟨⟨-, rfl⟩, rfl⟩ := (openWith_lock suite).mp opened
            exact ⟨⟨rfl, _, _, rfl, normalize_formatKey bytes, typedReads⟩, rfl⟩
          · rintro ⟨⟨-, key, secret, last, keyReads, typedReads⟩, rfl⟩
            cases last
            rw [normalize_formatKey] at keyReads
            cases keyReads
            exact ⟨bytes.val, typedReads, (openWith_lock suite).mpr ⟨⟨rfl, rfl⟩, rfl⟩⟩

/-- Every wrap has a secret of its own. -/
theorem Filed.exists_owns (filed : Filed suite prf userId dek bytes row) :
    ∃ opener, opener.wrap = row.wrappedKey ∧
      Owns prf (some (formatKey bytes)) row opener := by
  cases filed with
  | passkey id credentialId now =>
      exact ⟨.passkey (prf credentialId) _, rfl, rfl, rfl⟩
  | encryptionKey id now =>
      exact ⟨.encryptionKey (formatKey bytes) _, rfl, rfl, _, _, rfl,
        normalize_formatKey bytes, normalize_formatKey bytes⟩

/-! ## Which wrap a secret is handed -/

theorem routeOf_storedWrap {id : Int} {kind : WrapKind} {credentialId asked : Option Bytes}
    {wrapped : Bytes} :
    routeOf asked (wrapDto (storedWrap id userId kind credentialId wrapped now)) =
      if selected kind asked (wrapDto (storedWrap id userId kind credentialId wrapped now))
      then some { kind, credentialId, wrappedKey := wrapped } else none := by
  simp [routeOf, wrapDto, storedWrap, newWrap]

/-- A wrap is offered to whoever asks for its credential, or for none if it is the
encryption key's. -/
theorem Filed.offers (filed : Filed suite prf userId dek bytes row) :
    ∃ kind, routeOf row.credentialId (wrapDto row) =
      some { kind, credentialId := row.credentialId, wrappedKey := row.wrappedKey } := by
  cases filed with
  | passkey id credentialId now =>
      refine ⟨.passkey, routeOf_storedWrap.trans (if_pos ?_)⟩
      simp [selected, wrapDto, storedWrap, newWrap]
  | encryptionKey id now => exact ⟨.encryptionKey, routeOf_storedWrap.trans (if_pos rfl)⟩

/-- A stored wrap that is offered is offered as it is, to whoever asks for its
kind and its credential. -/
theorem routeOf_storedWrap_eq_some {id : Int} {kind : WrapKind}
    {credentialId asked : Option Bytes} {wrapped : Bytes} {route : WrapRoute}
    (offers : routeOf asked (wrapDto (storedWrap id userId kind credentialId wrapped now)) =
      some route) :
    route = { kind, credentialId, wrappedKey := wrapped } ∧
      (kind = .passkey → credentialId = asked ∧ asked ≠ none) ∧
      (kind = .encryptionKey → asked = none) := by
  rw [routeOf_storedWrap] at offers
  split at offers
  · next asks =>
      refine ⟨(Option.some.inj offers).symm, ?_⟩
      cases kind with
      | passkey =>
          cases asked with
          | none => exact absurd asks Bool.noConfusion
          | some id => exact ⟨fun _ => ⟨of_decide_eq_true asks, nofun⟩, nofun⟩
      | encryptionKey =>
          cases asked with
          | none => exact ⟨nofun, fun _ => rfl⟩
          | some id => exact absurd asks Bool.noConfusion
  · cases offers

/-- Wraps offered to the same are locked alike. -/
theorem Filed.offers_unique {other : EntryKeyWrap} {asked : Option Bytes}
    {route found : WrapRoute}
    (filed : Filed suite prf userId dek bytes row)
    (filed' : Filed suite prf userId dek bytes other)
    (offers : routeOf asked (wrapDto row) = some route)
    (offers' : routeOf asked (wrapDto other) = some found) : found = route := by
  cases filed with
  | passkey id credentialId now =>
      obtain ⟨rfl, asks, -⟩ := routeOf_storedWrap_eq_some offers
      obtain ⟨rfl, some_asked⟩ := asks rfl
      cases filed' with
      | passkey id' credentialId' now' =>
          obtain ⟨rfl, asks', -⟩ := routeOf_storedWrap_eq_some offers'
          cases (asks' rfl).1
          rfl
      | encryptionKey id' now' =>
          exact absurd ((routeOf_storedWrap_eq_some offers').2.2 rfl) some_asked
  | encryptionKey id now =>
      obtain ⟨rfl, -, asks⟩ := routeOf_storedWrap_eq_some offers
      cases filed' with
      | passkey id' credentialId' now' =>
          exact absurd (asks rfl) ((routeOf_storedWrap_eq_some offers').2.1 rfl).2
      | encryptionKey id' now' => exact (routeOf_storedWrap_eq_some offers').1

/-- The account's wraps can be listed. -/
theorem Routed.lists (routed : Routed suite prf db userId dek bytes) :
    ∃ rows, listWraps userId db = .ok (rows, db) := by
  have each : ∀ records : List EntryKeyWrap,
      (∀ row ∈ records, Filed suite prf userId dek bytes row) →
      ∃ rows, records.mapM intoWrapRow = .ok rows := by
    intro records filed
    induction records with
    | nil => exact ⟨[], rfl⟩
    | cons row rest ih =>
        obtain ⟨rows, read⟩ := ih fun other member => filed other (.tail _ member)
        have parsed : ∃ first, intoWrapRow row = .ok first := by
          cases filed row (.head _) with
          | passkey id credentialId now => exact ⟨_, rfl⟩
          | encryptionKey id now => exact ⟨_, rfl⟩
        obtain ⟨first, parsed⟩ := parsed
        refine ⟨first :: rows, ?_⟩
        rw [List.mapM_cons, parsed, read]
        rfl
  obtain ⟨rows, read⟩ := each (wrapsOf db userId) fun row listed =>
    routed.filed row (mem_wrapsOf.mp listed).1 (mem_wrapsOf.mp listed).2
  exact ⟨rows, by rw [listWraps, read, Except.map]⟩

/-- Asked for any of the account's wraps, `choose_route` hands out that wrap. -/
theorem Routed.chooses {rows : List WrapRow} (routed : Routed suite prf db userId dek bytes)
    (listed : listWraps userId db = .ok (rows, next)) (stored : row ∈ db.wraps)
    (owns : row.userId = userId) :
    ∃ route, chooseRoute (rows.map WrapDto.ofRow) row.credentialId = some route ∧
      route.wrappedKey = row.wrappedKey := by
  have filed := routed.filed row stored owns
  obtain ⟨kind, offers⟩ := filed.offers
  rw [map_ofRow_listWraps listed]
  refine ⟨_, chooseRoute_of_unique
    (List.mem_map_of_mem (mem_wrapsOf.mpr ⟨stored, owns⟩)) offers ?_, rfl⟩
  intro dto member found offers'
  obtain ⟨other, listed', rfl⟩ := List.mem_map.mp member
  obtain ⟨stored', owns'⟩ := mem_wrapsOf.mp listed'
  exact filed.offers_unique (routed.filed other stored' owns') offers offers'

end Routes

end TimeTracker.Client.Routes
