import TimeTracker.Server.Outcomes
import TimeTracker.Library.Run

/-!
# How often a ceremony is finished

The state of a sign-in ceremony is in a signed cookie the client holds, and the
server remembers nothing of it.  A client may finish a ceremony again with the
cookie and a response it has kept, and is signed in again unless one of the
checks fails the second time.
-/

namespace TimeTracker.Server.SingleUse

open TimeTracker.Text
open TimeTracker.Library.Atomic
open TimeTracker.Library.Indexed
open TimeTracker.Library.Run
open TimeTracker.Server.Schema
open TimeTracker.Server.Store
open TimeTracker.Server.Ceremony
open TimeTracker.Server.Functions
open TimeTracker.Server.Execution
open TimeTracker.Server.Outcomes

/-! ## When a handler answers -/

section Answers

variable {α β : Type} {cookie : Option SetCookie} {machine : Machine Database Site}

/-- The handler answers, and `Q` holds of the answer, the cookie and the machine. -/
def Answers (handler : Handler α) (cookie : Option SetCookie)
    (machine : Machine Database Site)
    (Q : α → Option SetCookie → Machine Database Site → Prop) : Prop :=
  match execute handler cookie machine with
  | ((.ok value, cookie), machine) => Q value cookie machine
  | ((.error _, _), _) => False

variable {Q : α → Option SetCookie → Machine Database Site → Prop}

theorem answers_bind {handler : Handler β} {rest : β → Handler α} :
    Answers (handler >>= rest) cookie machine Q ↔
      Answers handler cookie machine fun value cookie machine =>
        Answers (rest value) cookie machine Q := by
  unfold Answers
  rw [execute_bind]
  rcases execute handler cookie machine with ⟨⟨message | value, cookie'⟩, machine'⟩
  · exact Iff.rfl
  · exact Iff.rfl

theorem answers_pure {value : α} :
    Answers (pure value) cookie machine Q ↔ Q value cookie machine :=
  Iff.rfl

theorem answers_throw {message : String} :
    Answers (throw message : Handler α) cookie machine Q ↔ False :=
  Iff.rfl

theorem answers_setCookie {header : SetCookie}
    {Q : Unit → Option SetCookie → Machine Database Site → Prop} :
    Answers (setCookie header) cookie machine Q ↔ Q () (some header) machine :=
  Iff.rfl

theorem answers_orRefuse {message : String} {option : Option α} :
    Answers (orRefuse message option) cookie machine Q ↔
      ∃ value, option = some value ∧ Q value cookie machine := by
  cases option with
  | none => exact ⟨False.elim, fun ⟨_, missing, _⟩ => nomatch missing⟩
  | some value =>
      refine ⟨fun holds => ⟨value, rfl, holds⟩, ?_⟩
      rintro ⟨other, ⟨⟩, holds⟩
      exact holds

/-- A statement that commits, in a run nothing fails in. -/
theorem answers_query {site : Site} {statement : Sql α} {value : α} {db next : Database}
    {log : Log} (committed : statement db = .ok (value, next)) :
    Answers (query site statement) cookie ⟨none, db, log⟩ Q ↔
      Q value cookie ⟨none, next, log ++ [(site, db)]⟩ := by
  rw [Answers, execute_query committed]

theorem answers_ite {condition : Prop} [Decidable condition]
    {first second : Handler α} :
    Answers (if condition then first else second) cookie machine Q ↔
      if condition then Answers first cookie machine Q
      else Answers second cookie machine Q := by
  split <;> exact Iff.rfl

end Answers

/-! ## Starting a ceremony -/

/-- What the server calls to start a sign-in ceremony, with the documented
relation of the two directions: what is encoded decodes, and what is signed
verifies.  The challenge is drawn from `Entropy`. -/
structure Ceremonies extends Webauthn where
  Entropy : Type
  startAuthentication : Entropy → List Key → Option (String × Authentication)
  startDiscoverable : Entropy → Option (String × Discoverable)
  stateToVec : String × Registration × Int ⊕ String × Authentication × Int ⊕
    Discoverable × Int → Option Bytes
  hmacSign : Bytes → Bytes
  base64Encode : Bytes → String
  parseState_stateToVec : ∀ state body,
    stateToVec state = some body → parseState body = some state
  hmacVerify_hmacSign : ∀ body, hmacVerify body (hmacSign body) = true
  length_hmacSign : ∀ body, (hmacSign body).length = SIG_LEN
  base64Decode_base64Encode : ∀ bytes, base64Decode (base64Encode bytes) = some bytes

variable {ce : Ceremonies}

/-- `serde_json::to_vec` at the state type. -/
def toVec (ce : Ceremonies) : PasskeyState ce.toWebauthn → Option Bytes
  | .reg subject reg expiresAt => ce.stateToVec (.inl (subject, reg, expiresAt))
  | .auth subject auth expiresAt => ce.stateToVec (.inr (.inl (subject, auth, expiresAt)))
  | .discoverableAuth auth expiresAt => ce.stateToVec (.inr (.inr (auth, expiresAt)))

/-- Signs a state into the cookie that carries it. -/
def encode (ce : Ceremonies) (state : PasskeyState ce.toWebauthn) : Option String := do
  let body ← toVec ce state
  return ce.base64Encode (body ++ ce.hmacSign body)

theorem fromSlice_toVec {state : PasskeyState ce.toWebauthn} {body : Bytes}
    (written : toVec ce state = some body) :
    PasskeyState.fromSlice ce.toWebauthn body = some state := by
  cases state <;> rw [PasskeyState.fromSlice, ce.parseState_stateToVec _ _ written] <;> rfl

/-- A cookie is read back as often as it is presented, until it expires. -/
theorem decode_encode {state : PasskeyState ce.toWebauthn} {raw : String} {now : Timestamp}
    (encoded : encode ce state = some raw) (fresh : now ≤ state.expiresAt) :
    decode ce.toWebauthn now raw = some state := by
  obtain ⟨body, written, same⟩ := Option.bind_eq_some_iff.mp encoded
  cases same
  have length : (body ++ ce.hmacSign body).length - SIG_LEN = body.length := by
    rw [List.length_append, ce.length_hmacSign, Nat.add_sub_cancel]
  have long : ¬ (body ++ ce.hmacSign body).length < SIG_LEN := by
    rw [List.length_append, ce.length_hmacSign]
    omega
  have current : ¬ state.expiresAt < now := not_lt.mpr fresh
  simp only [decode, ce.base64Decode_base64Encode, Option.bind_eq_bind, Option.bind_some,
    if_neg long, length, List.take_left, List.drop_left, ce.hmacVerify_hmacSign,
    fromSlice_toVec written]
  simp [current]

/-- Lifetime of a ceremony state, in seconds. -/
def MAX_AGE_SECONDS : Int := 300

/-- Unwrap an option, or refuse. -/
def orError {α : Type} (message : String) : Option α → Except String α
  | some value => .ok value
  | none => .error message

/-- A statement that only reads; its failure is logged and becomes opaque. -/
def readOnly {α : Type} (statement : Sql α) (db : Database) : Except String α :=
  match statement db with
  | .ok (value, _) => .ok value
  | .error _ => .error "Internal server error"

/-- `require_user().is_ok()`: the session is live. -/
def sessionLives (ctx : AppCtx) (db : Database) : Bool :=
  match ctx.claims with
  | none => false
  | some claims =>
      match readOnly (findByEmail claims.email) db with
      | .ok (some found) => found.sessionEpoch = claims.epoch
      | _ => false

/-- Begins a sign-in ceremony: the challenge for the browser, and the ceremony
cookie set with it.  Nothing is written.  `quota` is the rate limit of the
caller's address, by whether the caller is signed in. -/
def passkeyLoginStart (ce : Ceremonies) (ctx : AppCtx) (quota : Bool → Except String Unit)
    (entropy : ce.Entropy) (email : Option String) (db : Database) :
    Except String (String × String) := do
  let generic := "We couldn't verify your passkey."
  quota (sessionLives ctx db)
  let (rcr, state) ← match email with
    | some raw => do
        let normalized ← orError generic (normalizeEmail raw)
        let found ← readOnly (findByEmail normalized) db
        let found ← orError generic found
        let rows ← readOnly (listByUser found.id) db
        if rows.isEmpty then
          throw generic
        let keys ← orError "Internal server error"
          (rows.mapM fun row => ce.fromSlice row.passkey)
        let (rcr, auth) ← orError generic (ce.startAuthentication entropy keys)
        pure (rcr, PasskeyState.auth normalized auth (ctx.now + MAX_AGE_SECONDS))
    | none => do
        let (rcr, auth) ← orError generic (ce.startDiscoverable entropy)
        pure (rcr, PasskeyState.discoverableAuth auth (ctx.now + MAX_AGE_SECONDS))
  let encoded ← orError "Internal server error" (encode ce state)
  return (rcr, encoded)

/-! ## Finishing a ceremony -/

/-- The row of a credential, and the account of an address. -/
def credentialRow (db : Database) (credentialId : Bytes) : Option PasskeyRow :=
  db.passkeys.rows.find? fun row => row.credentialId = credentialId

def accountNamed (db : Database) (email : String) : Option User :=
  (normalizeEmail email).bind (userByEmail db)

/-- The state and the response pass every check of a finish, on these tables. -/
def Accepts (wa : Webauthn) (db : Database) (responseJson : String) :
    PasskeyState wa → Prop
  | .auth subject auth _ => ∃ pkc result row owner key,
      wa.parseLogin responseJson = some pkc ∧
      wa.finishAuthentication pkc auth = some result ∧
      credentialRow db (wa.resultCredId result) = some row ∧
      accountNamed db subject = some owner ∧ row.userId = owner.id ∧
      wa.fromSlice row.passkey = some key ∧
      wa.toVec (wa.updateCredential key result) ≠ none
  | .discoverableAuth auth _ => ∃ pkc credId row key result,
      wa.parseLogin responseJson = some pkc ∧
      wa.identifyDiscoverable pkc = some credId ∧
      credentialRow db credId = some row ∧
      wa.fromSlice row.passkey = some key ∧
      wa.finishDiscoverable pkc auth key = some result ∧
      wa.toVec (wa.updateCredential key result) ≠ none
  | .reg _ _ _ => False

/-- The answer signs its caller in. -/
def issues : Except String Unit × Option SetCookie → Bool
  | (.ok (), some (.session _)) => true
  | _ => false

section Finish

variable {wa : Webauthn} {ctx : AppCtx} {db : Database} {log : Log}
  {cookie : Option SetCookie} {responseJson : String}

theorem findByEmail_eq (email : String) (db : Database) :
    findByEmail email db = .ok (accountNamed db email, db) := by
  unfold findByEmail accountNamed
  cases normalizeEmail email <;> rfl

/-- The last steps store the credential and sign in the account of its row. -/
theorem answers_signIn {row : PasskeyRow} (present : row ∈ db.passkeys) (blob : Bytes) :
    Answers (query (.updateAfterUse row.id) (updateAfterUse row.id blob ctx.now))
      cookie ⟨none, db, log⟩ fun _ cookie machine =>
        Answers (query (.loadUser row.userId) (loadUser row.userId)) cookie machine
          fun owner cookie machine =>
          Answers (setCookie (.session { email := owner.email, epoch := owner.sessionEpoch }))
            cookie machine fun _ header _ => ∃ claims, header = some (.session claims) := by
  have stored : updateAfterUse row.id blob ctx.now db =
      .ok ((), db.updatePasskey row.id blob ctx.now) := rfl
  obtain ⟨owner, member, same⟩ := db.passkeys_user row present
  have found : loadUser row.userId (db.updatePasskey row.id blob ctx.now) =
      .ok (owner, db.updatePasskey row.id blob ctx.now) :=
    loadUser_eq_ok.mpr ⟨rfl, member, same⟩
  rw [answers_query stored, answers_query found]
  exact ⟨_, rfl⟩

/-- Run by itself, a finish signs its caller in exactly when the cookie carries a
state that has not expired and all its checks pass. -/
theorem answers_passkeyLoginFinish (wa : Webauthn) (ctx : AppCtx) (db : Database) (log : Log)
    (responseJson : String) :
    Answers (passkeyLoginFinish wa ctx responseJson) none ⟨none, db, log⟩
        (fun _ header _ => ∃ claims, header = some (.session claims)) ↔
      ∃ raw state, ctx.passkeyState = some raw ∧ decode wa ctx.now raw = some state ∧
        Accepts wa db responseJson state := by
  unfold passkeyLoginFinish
  rw [answers_bind, answers_orRefuse]
  refine exists_congr fun raw => ?_
  rw [answers_bind, answers_orRefuse]
  simp only [exists_and_left]
  refine and_congr_right fun _ => exists_congr fun state => and_congr_right fun _ => ?_
  rw [answers_bind, answers_setCookie, answers_bind, answers_orRefuse]
  have find : ∀ credentialId, findByCredentialId credentialId db =
      .ok (credentialRow db credentialId, db) := fun _ => rfl
  cases state with
  | reg subject reg expiresAt =>
      rw [Accepts]
      refine iff_of_false ?_ id
      rintro ⟨pkc, -, answers⟩
      rw [answers_bind] at answers
      exact answers
  | auth subject auth expiresAt =>
      rw [Accepts]
      simp only [answers_bind, answers_orRefuse, answers_query (find _),
        answers_query (findByEmail_eq _ _), answers_ite, answers_pure, answers_throw]
      constructor
      · rintro ⟨pkc, parsed, result, verified, row, found, owner, named, rest⟩
        split at rest
        · exact rest.elim
        · next own =>
            obtain ⟨key, read, blob, written, -⟩ := rest
            exact ⟨pkc, result, row, owner, key, parsed, verified, found, named,
              not_not.mp own, read, Option.ne_none_iff_exists'.mpr ⟨blob, written⟩⟩
      · rintro ⟨pkc, result, row, owner, key, parsed, verified, found, named, own, read,
          stores⟩
        refine ⟨pkc, parsed, result, verified, row, found, owner, named, ?_⟩
        rw [if_neg (not_not_intro own)]
        obtain ⟨blob, written⟩ := Option.ne_none_iff_exists'.mp stores
        exact ⟨key, read, blob, written,
          answers_signIn (List.mem_of_find?_eq_some found) blob⟩
  | discoverableAuth auth expiresAt =>
      rw [Accepts]
      simp only [answers_bind, answers_orRefuse, answers_query (find _), answers_pure]
      constructor
      · rintro ⟨pkc, parsed, credId, named, row, found, key, read, result, verified, blob,
          written, -⟩
        exact ⟨pkc, credId, row, key, result, parsed, named, found, read, verified,
          Option.ne_none_iff_exists'.mpr ⟨blob, written⟩⟩
      · rintro ⟨pkc, credId, row, key, result, parsed, named, found, read, verified, stores⟩
        obtain ⟨blob, written⟩ := Option.ne_none_iff_exists'.mp stores
        exact ⟨pkc, parsed, credId, named, row, found, key, read, result, verified, blob,
          written, answers_signIn (List.mem_of_find?_eq_some found) blob⟩

end Finish

/-! ## Runs of starts and finishes -/

/-- The tables, the ceremony cookies issued so far, and the ceremonies whose
cookie has signed somebody in. -/
structure Sessions where
  db : Database
  cookies : List String
  spent : List Nat

/-- A start, a finish with any cookie issued so far and any response, or anything
else that is done to the tables. -/
inductive Event (ce : Ceremonies)
  | start (ctx : AppCtx) (quota : Bool → Except String Unit) (entropy : ce.Entropy)
      (email : Option String)
  | finish (ceremony : Nat) (claims : Option SessionClaims) (now : Timestamp)
      (responseJson : String)
  | other (change : Database → Database)

/-- The request of a client that presents a cookie it was given. -/
def presents (sessions : Sessions) (ceremony : Nat) (claims : Option SessionClaims)
    (now : Timestamp) : AppCtx :=
  { claims, passkeyState := sessions.cookies[ceremony]?, now }

def step (ce : Ceremonies) (sessions : Sessions) : Event ce → Option Sessions
  | .start ctx quota entropy email =>
      match passkeyLoginStart ce ctx quota entropy email sessions.db with
      | .ok (_, encoded) => some { sessions with cookies := sessions.cookies ++ [encoded] }
      | .error _ => some sessions
  | .finish ceremony claims now responseJson =>
      let outcome := execute (passkeyLoginFinish ce.toWebauthn
        (presents sessions ceremony claims now) responseJson) none ⟨none, sessions.db, []⟩
      some { sessions with
        db := outcome.2.store
        spent := if issues outcome.1 then ceremony :: sessions.spent else sessions.spent }
  | .other change => some { sessions with db := change sessions.db }

def start (db : Database) : Sessions :=
  ⟨db, [], []⟩

/-- No ceremony has signed anybody in twice. -/
def SpentOnce (sessions : Sessions) : Prop :=
  sessions.spent.Nodup

/-- The request finishes a ceremony that has signed somebody in before, with a
cookie that has not expired and a response that still passes every check. -/
def Resends (sessions : Sessions) : Event ce → Prop
  | .finish ceremony _ now responseJson => ceremony ∈ sessions.spent ∧
      ∃ raw state, sessions.cookies[ceremony]? = some raw ∧
        decode ce.toWebauthn now raw = some state ∧
        Accepts ce.toWebauthn sessions.db responseJson state
  | _ => False

section Runs

variable {sessions next : Sessions}

theorem issues_iff {handler : Handler Unit} {db : Database} :
    issues (execute handler none ⟨none, db, []⟩).1 = true ↔
      Answers handler none ⟨none, db, []⟩
        fun _ header _ => ∃ claims, header = some (.session claims) := by
  unfold Answers
  rcases execute handler none ⟨none, db, []⟩ with ⟨⟨message | value, header⟩, machine⟩
  · exact ⟨nofun, False.elim⟩
  · cases header with
    | none => exact ⟨nofun, fun ⟨_, same⟩ => nomatch same⟩
    | some header =>
        cases header with
        | session claims => exact ⟨fun _ => ⟨claims, rfl⟩, fun _ => rfl⟩
        | clearSession => exact ⟨nofun, fun ⟨_, same⟩ => nomatch same⟩
        | clearPasskeyState => exact ⟨nofun, fun ⟨_, same⟩ => nomatch same⟩

/-- A step keeps every ceremony spent once just when it is no accepted resend. -/
theorem spentOnce_step {event : Event ce} (held : SpentOnce sessions)
    (taken : step ce sessions event = some next) :
    SpentOnce next ↔ ¬ Resends sessions event := by
  cases event with
  | start ctx quota entropy email =>
      refine iff_of_true ?_ id
      cases started : passkeyLoginStart ce ctx quota entropy email sessions.db with
      | error message =>
          simp only [step, started] at taken
          cases taken
          exact held
      | ok reply =>
          simp only [step, started] at taken
          cases taken
          exact held
  | other change =>
      cases taken
      exact iff_of_true held id
  | finish ceremony claims now responseJson =>
      cases taken
      have signsIn := issues_iff.trans (answers_passkeyLoginFinish ce.toWebauthn
        (presents sessions ceremony claims now) sessions.db [] responseJson)
      have once : sessions.spent.Nodup := held
      unfold SpentOnce
      dsimp only
      split
      · next issued =>
          rw [List.nodup_cons, and_iff_left once]
          refine not_congr ⟨fun again => ⟨again, signsIn.mp issued⟩, fun resends => resends.1⟩
      · next refused =>
          exact iff_of_true held fun resends => refused (signsIn.mpr resends.2)

/-- In every state of a run each ceremony has signed in at most once, just when
no request of the run is an accepted resend. -/
theorem spent_once_throughout_iff (ce : Ceremonies) (db : Database)
    (events : List (Event ce)) :
    Throughout (step ce) SpentOnce (start db) events ↔
      StepsMeet (step ce) (fun sessions event => ¬ Resends sessions event) (start db)
        events :=
  throughout_iff_stepsMeet (J := fun _ => True) (fun _ _ _ _ _ => trivial)
    (fun _ _ _ _ held taken => spentOnce_step held taken) trivial List.nodup_nil

end Runs

/-! ## A finish sent twice -/

/-- The text with these bytes. -/
def plainText (bytes : Bytes) : String :=
  String.ofList (bytes.map fun byte => Char.ofNat byte.toNat)

theorem asciiBytes_plainText (bytes : Bytes) : asciiBytes (plainText bytes) = bytes := by
  have each : (fun c : Char => UInt8.ofNat c.toNat) ∘ (fun byte : UInt8 => Char.ofNat byte.toNat) =
      id := by
    funext byte
    have small := byte.toNat_lt
    have valid : byte.toNat.isValidChar := .inl (by omega)
    have same : (Char.ofNat byte.toNat).toNat = byte.toNat := by
      rw [Char.ofNat, dif_pos valid]
      rfl
    rw [Function.comp_apply, same, UInt8.ofNat_toNat, id]
  rw [asciiBytes, plainText, String.toList_ofList, List.map_map, each, List.map_id]

/-- A state that names its subject in plain text. -/
def askedState (body : Bytes) :
    String × Unit × Int ⊕ String × Unit × Int ⊕ Unit × Int :=
  .inr (.inl (plainText body, (), 1000))

def askedBytes (state : String × Unit × Int ⊕ String × Unit × Int ⊕ Unit × Int) :
    Option Bytes :=
  match state with
  | .inr (.inl (subject, _, _)) =>
      if askedState (asciiBytes subject) = state then some (asciiBytes subject) else none
  | _ => none

theorem askedState_askedBytes {state : String × Unit × Int ⊕ String × Unit × Int ⊕ Unit × Int}
    {body : Bytes} (written : askedBytes state = some body) :
    some (askedState body) = some state := by
  unfold askedBytes at written
  split at written
  · split at written
    · next same =>
        cases written
        exact congrArg some same
    · cases written
  · cases written

/-- Ceremonies that ask for their subject, for concrete runs. -/
def plainCeremonies : Ceremonies :=
  { plainWebauthn with
    parseState := fun body => some (askedState body)
    Entropy := Unit
    startAuthentication := fun _ _ => some ("challenge", ())
    startDiscoverable := fun _ => some ("challenge", ())
    stateToVec := askedBytes
    hmacSign := fun _ => List.replicate SIG_LEN 0
    base64Encode := plainText
    parseState_stateToVec := fun _ _ => askedState_askedBytes
    hmacVerify_hmacSign := fun _ => rfl
    length_hmacSign := fun _ => List.length_replicate ..
    base64Decode_base64Encode := fun bytes => congrArg some (asciiBytes_plainText bytes) }

/-- An account with the passkey `p`. -/
def holder : User :=
  { id := 1, email := "alice@example.com", sessionEpoch := 0, createdAt := 0
    encryptedAt := none }

def passkeyP : PasskeyRow :=
  { id := 1, userId := 1, credentialId := asciiBytes "p", passkey := asciiBytes "p"
    name := none, prfCapable := true, createdAt := 0, lastUsedAt := none }

def holderWithP : Database :=
  { Database.empty with
    users := ⟨[holder], List.pairwise_singleton _ _⟩
    passkeys := ⟨[passkeyP], List.pairwise_singleton _ _⟩
    entries_user := fun _ row_mem => absurd row_mem (Table.not_mem_empty _)
    passkeys_user := fun row row_mem =>
      ⟨holder, List.mem_singleton.mpr rfl, by rw [List.mem_singleton.mp row_mem]; rfl⟩
    wraps_user := fun _ row_mem => absurd row_mem (Table.not_mem_empty _) }

/-- One ceremony is started and finished; its account is signed out everywhere;
and the same cookie and response are sent again before the state expires. -/
def sentTwice : List (Event plainCeremonies) :=
  [.start ⟨none, none, 700⟩ (fun _ => .ok ()) () (some "alice@example.com"),
    .finish 0 none 710 "p",
    .other (effect (bumpEpoch 1)),
    .finish 0 none 720 "p"]

/-- The second finish signs in again, at the new epoch. -/
theorem sentTwice_signs_in_twice :
    ∃ last, runFrom (step plainCeremonies) (start holderWithP) sentTwice = some last ∧
      last.cookies.length = 1 ∧ last.spent = [0, 0] ∧ ¬ SpentOnce last := by
  refine ⟨_, rfl, rfl, rfl, fun once => ?_⟩
  have distinct : [0, 0].Nodup := once
  exact absurd distinct (by decide)

end TimeTracker.Server.SingleUse
