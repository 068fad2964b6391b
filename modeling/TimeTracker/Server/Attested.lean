import TimeTracker.Library.Recording
import TimeTracker.Server.Revocation
import TimeTracker.Server.SingleUse

/-!
# What a passkey sign-in has shown

`passkey_login_finish` reads the credential the browser's response proves, the
account a ceremony was begun for, and at last the account it signs in.  Its
journal ties the four together, whatever the others do to the database between
one statement and the next.
-/

namespace TimeTracker.Server.Attested

open TimeTracker.Text
open TimeTracker.Library.Atomic
open TimeTracker.Library.Recording
open TimeTracker.Server.Schema
open TimeTracker.Server.Store
open TimeTracker.Server.Ceremony
open TimeTracker.Server.Functions
open TimeTracker.Server.Execution
open TimeTracker.Server.Outcomes
open TimeTracker.Server.Interference (Reply)
open TimeTracker.Server.SingleUse (Ceremonies toVec fromSlice_toVec)

/-! ## Handlers and their journals -/

section Rules

variable {α β : Type} {cookie : Option SetCookie} {journal : Journal Site Database}

/-- Whatever database each statement meets, the reply meets `Q` with the journal. -/
def Logs (Q : Reply α → Journal Site Database → Prop) (handler : Handler α)
    (cookie : Option SetCookie) (journal : Journal Site Database) : Prop :=
  Records (fun _ _ _ _ => True) Q (handler.run.run cookie) journal

variable {Q : Reply α → Journal Site Database → Prop}

theorem logs_pure {value : α} (holds : Q (.ok value, cookie) journal) :
    Logs Q (pure value) cookie journal :=
  holds

theorem logs_throw {message : String} (holds : Q (.error message, cookie) journal) :
    Logs Q (throw message) cookie journal :=
  holds

theorem logs_setCookie {header : SetCookie} {Q : Reply Unit → Journal Site Database → Prop}
    (holds : Q (.ok (), some header) journal) : Logs Q (setCookie header) cookie journal :=
  holds

theorem logs_bind {handler : Handler β} {rest : β → Handler α}
    (first : Logs
      (fun reply journal => match reply with
        | (.ok value, cookie) => Logs Q (rest value) cookie journal
        | (.error message, cookie) => Q (.error message, cookie) journal)
      handler cookie journal) :
    Logs Q (handler >>= rest) cookie journal := by
  have unfolded : (handler >>= rest).run.run cookie =
      (handler.run.run cookie) >>= fun pair =>
        (ExceptT.bindCont rest pair.1).run pair.2 :=
    rfl
  unfold Logs
  rw [unfolded]
  refine Records.bind first ?_
  rintro ⟨message | value, header⟩ journal holds
  · exact holds
  · exact holds

theorem logs_orRefuse {message : String} {option : Option α}
    (found : ∀ value, option = some value → Q (.ok value, cookie) journal)
    (missing : Q (.error message, cookie) journal) :
    Logs Q (orRefuse message option) cookie journal := by
  cases option with
  | none => exact logs_throw missing
  | some value => exact logs_pure (found value rfl)

theorem logs_ite {condition : Prop} [Decidable condition] {first second : Handler α}
    (yes : condition → Logs Q first cookie journal)
    (no : ¬ condition → Logs Q second cookie journal) :
    Logs Q (if condition then first else second) cookie journal := by
  split
  · exact yes ‹_›
  · exact no ‹_›

/-- One statement, on a database that may be any. -/
theorem logs_query {site : Site} {statement : Sql α}
    (committed : ∀ db value next, statement db = .ok (value, next) →
      Q (.ok value, cookie) (journal ++ [(site, db)]))
    (failed : ∀ later, Q (.error "Internal server error", cookie) later) :
    Logs Q (query site statement) cookie journal := by
  unfold Logs
  rw [run_query]
  apply records_bind
  exact records_perform (fun _ => trivial) committed fun _ later => failed later

end Rules

/-! ## The ceremony -/

/-- If the signature of the cookie verifies, what it signs is a state the server issued. -/
def Unforged (ce : Ceremonies) (Issued : PasskeyState ce.toWebauthn → Prop)
    (raw : String) : Prop :=
  ∀ bytes, ce.base64Decode raw = some bytes → SIG_LEN ≤ bytes.length →
    ce.hmacVerify (bytes.take (bytes.length - SIG_LEN))
      (bytes.drop (bytes.length - SIG_LEN)) = true →
    ∃ state, Issued state ∧ toVec ce state = some (bytes.take (bytes.length - SIG_LEN))

theorem decode_eq_some {wa : Webauthn} {now : Timestamp} {raw : String}
    {state : PasskeyState wa} (decoded : decode wa now raw = some state) :
    now ≤ state.expiresAt ∧ ∃ bytes, wa.base64Decode raw = some bytes ∧
      SIG_LEN ≤ bytes.length ∧
      wa.hmacVerify (bytes.take (bytes.length - SIG_LEN))
        (bytes.drop (bytes.length - SIG_LEN)) = true ∧
      PasskeyState.fromSlice wa (bytes.take (bytes.length - SIG_LEN)) = some state := by
  obtain ⟨bytes, read, rest⟩ := Option.bind_eq_some_iff.mp decoded
  split at rest
  · cases rest
  · next long =>
      dsimp only at rest
      split at rest
      · cases rest
      · next verified =>
          obtain ⟨read', parsed, rest⟩ := Option.bind_eq_some_iff.mp rest
          split at rest
          · cases rest
          · next fresh =>
              cases rest
              exact ⟨not_lt.mp fresh, bytes, read, not_lt.mp long, by simpa using verified,
                parsed⟩

/-- A cookie that decodes carries a state the server issued, which has not expired. -/
theorem Unforged.issued {ce : Ceremonies} {Issued : PasskeyState ce.toWebauthn → Prop}
    {now : Timestamp} {raw : String} {state : PasskeyState ce.toWebauthn}
    (unforged : Unforged ce Issued raw)
    (decoded : decode ce.toWebauthn now raw = some state) : Issued state := by
  obtain ⟨-, bytes, read, long, verified, parsed⟩ := decode_eq_some decoded
  obtain ⟨signed, issued, written⟩ := unforged bytes read long verified
  cases (fromSlice_toVec written).symm.trans parsed
  exact issued

/-! ## The credential, its owner and the subject -/

/-- The response passes the verification of this ceremony, by the credential of this row. -/
def Verified (wa : Webauthn) (responseJson : String) (row : PasskeyRow) :
    PasskeyState wa → Prop
  | .auth _ auth _ => ∃ pkc result, wa.parseLogin responseJson = some pkc ∧
      wa.finishAuthentication pkc auth = some result ∧
      wa.resultCredId result = row.credentialId
  | .discoverableAuth auth _ => ∃ pkc key result, wa.parseLogin responseJson = some pkc ∧
      wa.fromSlice row.passkey = some key ∧
      wa.finishDiscoverable pkc auth key = some result ∧
      wa.resultCredId result = row.credentialId
  | .reg _ _ _ => False

/-- A discoverable verification returns the credential its response names. -/
def NamesItsCredential (wa : Webauthn) : Prop :=
  ∀ pkc auth key credentialId result, wa.identifyDiscoverable pkc = some credentialId →
    wa.finishDiscoverable pkc auth key = some result → wa.resultCredId result = credentialId

/-- How a finish that sets a session came to it, by the statements it ran. -/
structure PasskeyProof (wa : Webauthn) (ran : Site → Database → Prop) (ctx : AppCtx)
    (responseJson : String) (claims : SessionClaims) (state : PasskeyState wa)
    (row : PasskeyRow) (owner : User) : Prop where
  /-- The cookie carries the ceremony. -/
  presented : ∃ raw, ctx.passkeyState = some raw ∧ decode wa ctx.now raw = some state
  verified : Verified wa responseJson row state
  /-- The credential was enrolled when it was looked up. -/
  enrolled : ∃ db, ran (.findCredential row.credentialId) db ∧ row ∈ db.passkeys
  /-- Its owner is signed in as the last statement reads the account. -/
  current : ∃ db, ran (.loadUser row.userId) db ∧ owner ∈ db.users
  owned : owner.id = row.userId
  session : claims = { email := owner.email, epoch := owner.sessionEpoch }
  /-- A ceremony bound to a subject is the owner's. -/
  subject : ∀ subject auth expiresAt, state = .auth subject auth expiresAt →
    ∃ db named, ran .findUser db ∧ named ∈ db.users ∧
      normalizeEmail subject = some named.email ∧ named.id = owner.id

section Finish

variable {wa : Webauthn} {ctx : AppCtx} {responseJson : String}

theorem PasskeyProof.mono {ran ran' : Site → Database → Prop} {claims : SessionClaims}
    {state : PasskeyState wa} {row : PasskeyRow} {owner : User}
    (proof : PasskeyProof wa ran ctx responseJson claims state row owner)
    (implies : ∀ site db, ran site db → ran' site db) :
    PasskeyProof wa ran' ctx responseJson claims state row owner := by
  obtain ⟨presented, verified, ⟨looked, ranLook, enrolled⟩, ⟨last, ranLast, current⟩, owned,
    session, subject⟩ := proof
  refine ⟨presented, verified, ⟨looked, implies _ _ ranLook, enrolled⟩,
    ⟨last, implies _ _ ranLast, current⟩, owned, session, ?_⟩
  intro address auth expiresAt same
  obtain ⟨db, named, ranFind, facts⟩ := subject address auth expiresAt same
  exact ⟨db, named, implies _ _ ranFind, facts⟩

/-- The journal proves every session the reply sets. -/
def SessionsProven (wa : Webauthn) (ctx : AppCtx) (responseJson : String)
    (reply : Reply Unit) (journal : Journal Site Database) : Prop :=
  ∀ claims, reply.2 = some (.session claims) → ∃ state row owner,
    PasskeyProof wa (fun site db => (site, db) ∈ journal) ctx responseJson claims state row
      owner

/-- The last steps sign in the account of the row, as they read it. -/
theorem logs_signInWith (state : PasskeyState wa) {row : PasskeyRow} {updated : wa.Key}
    {journal : Journal Site Database}
    (proves : ∀ (later : Journal Site Database) (db : Database) (owner : User),
      owner ∈ db.users → owner.id = row.userId → (∀ entry ∈ journal, entry ∈ later) →
      (.loadUser row.userId, db) ∈ later →
      PasskeyProof wa (fun site db => (site, db) ∈ later) ctx responseJson
        { email := owner.email, epoch := owner.sessionEpoch } state row owner) :
    Logs (SessionsProven wa ctx responseJson) (signInWith wa ctx row updated)
      (some .clearPasskeyState) journal := by
  refine logs_bind (logs_orRefuse (fun blob _ => ?_) nofun)
  refine logs_bind (logs_query ?_ fun _ => nofun)
  intro stored value next _
  refine logs_bind (logs_query ?_ fun _ => nofun)
  intro last owner next' ran
  obtain ⟨-, member, same⟩ := loadUser_eq_ok.mp ran
  refine logs_setCookie ?_
  rintro claims ⟨⟩
  refine ⟨state, row, owner, proves _ last owner member same ?_ ?_⟩
  · intro entry present
    exact List.mem_append_left _ (List.mem_append_left _ present)
  · exact List.mem_append_right _ (List.mem_singleton.mpr rfl)

/-- A lookup of a credential, which goes on with the row it finds. -/
theorem logs_findCredential {α : Type} {Q : Reply α → Journal Site Database → Prop}
    {cookie : Option SetCookie} {journal : Journal Site Database} {credentialId : Bytes}
    {message : String} {rest : PasskeyRow → Handler α}
    (refused : ∀ error later, Q (.error error, cookie) later)
    (found : ∀ (db : Database) (row : PasskeyRow), row ∈ db.passkeys →
      row.credentialId = credentialId →
      Logs Q (rest row) cookie (journal ++ [(.findCredential row.credentialId, db)])) :
    Logs Q
      (query (.findCredential credentialId) (findByCredentialId credentialId) >>= fun found =>
        orRefuse message found >>= rest)
      cookie journal := by
  refine logs_bind (logs_query ?_ (refused _))
  intro db row next ran
  refine logs_bind (logs_orRefuse ?_ (refused _ _))
  rintro row rfl
  obtain ⟨enrolled, rfl⟩ := (findByCredentialId_eq_ok ran).2 row rfl
  exact found db row enrolled rfl

theorem logs_passkeyLoginFinish (names : NamesItsCredential wa) :
    Logs (SessionsProven wa ctx responseJson) (passkeyLoginFinish wa ctx responseJson) none
      [] := by
  refine logs_bind (logs_orRefuse ?_ nofun)
  intro raw sent
  refine logs_bind (logs_orRefuse ?_ nofun)
  intro state decoded
  refine logs_bind (logs_setCookie ?_)
  refine logs_bind (logs_orRefuse ?_ nofun)
  intro pkc parsed
  have presented : ∃ raw, ctx.passkeyState = some raw ∧ decode wa ctx.now raw = some state :=
    ⟨raw, sent, decoded⟩
  cases state with
  | reg subject reg expiresAt => exact logs_bind (logs_throw nofun)
  | auth subject auth expiresAt =>
      refine logs_bind (logs_orRefuse ?_ nofun)
      intro result verified
      refine logs_findCredential (fun _ _ => nofun) ?_
      intro looked row enrolled credential
      refine logs_bind (logs_query ?_ fun _ => nofun)
      intro asked found next' ran'
      refine logs_bind (logs_orRefuse ?_ nofun)
      rintro named rfl
      obtain ⟨email, normalized, at_email⟩ := (findByEmail_eq_ok ran').2 named rfl
      obtain ⟨present, rfl⟩ := mem_of_userByEmail at_email
      refine logs_ite (fun _ => logs_bind (logs_throw nofun)) fun same => ?_
      refine logs_bind (logs_orRefuse (fun key _ => ?_) nofun)
      refine logs_bind (logs_pure (logs_signInWith (.auth subject auth expiresAt) ?_))
      intro later last owner member owned keeps read
      refine ⟨presented, ⟨pkc, result, parsed, verified, credential.symm⟩, ?_,
        ⟨last, read, member⟩, owned, rfl, ?_⟩
      · refine ⟨looked, keeps _ ?_, enrolled⟩
        simp
      · rintro _ _ _ ⟨⟩
        refine ⟨asked, named, keeps _ ?_, present, normalized, ?_⟩
        · simp
        · rw [owned, not_not.mp same]
  | discoverableAuth auth expiresAt =>
      refine logs_bind (logs_orRefuse ?_ nofun)
      intro credentialId identified
      refine logs_findCredential (fun _ _ => nofun) ?_
      intro looked row enrolled credential
      refine logs_bind (logs_orRefuse ?_ nofun)
      intro key read
      refine logs_bind (logs_orRefuse ?_ nofun)
      intro result verified
      refine logs_bind (logs_pure (logs_signInWith (.discoverableAuth auth expiresAt) ?_))
      intro later last owner member owned keeps loaded
      have named := names pkc auth key credentialId result identified verified
      refine ⟨presented, ⟨pkc, key, result, parsed, read, verified, ?_⟩, ?_,
        ⟨last, loaded, member⟩, owned, rfl, nofun⟩
      · rw [named, credential]
      · refine ⟨looked, keeps _ ?_, enrolled⟩
        simp

end Finish

end TimeTracker.Server.Attested
