import TimeTracker.Library.Twin
import TimeTracker.Server.Execution

/-!
# The nine endpoints from one point of view

What a party can tell of a database and of the requests of two runs is a
`Viewpoint`.  When every statement is alike from it, so are the responses of the
entry and the encryption endpoints.
-/

namespace TimeTracker.Server.Views

open TimeTracker.Text
open TimeTracker.Crypto.Wire
open TimeTracker.Date
open TimeTracker.Library.Atomic
open TimeTracker.Library.Rely
open TimeTracker.Library.Twin
open TimeTracker.Server.Schema
open TimeTracker.Server.Store
open TimeTracker.Server.Functions
open TimeTracker.Server.Execution (run_query)

section Statements

variable {α α' β β' : Type} {R : Database → Database → Prop}
  {P : α → α' → Prop} {Q : β → β' → Prop}

theorem alike_pure {value : α} {value' : α'} (related : P value value') :
    Alike R P (pure value : Sql α) (pure value' : Sql α') :=
  fun _ _ same => .committed related same

theorem alike_bind {first : Sql β} {first' : Sql β'} {rest : β → Sql α} {rest' : β' → Sql α'}
    (alike : Alike R Q first first')
    (later : ∀ value value', Q value value' → Alike R P (rest value) (rest' value')) :
    Alike R P (first >>= rest) (first' >>= rest') := by
  intro x y same
  have unfolded : ∀ {γ δ : Type} (one : Sql γ) (two : γ → Sql δ) (db : Database),
      (one >>= two) db = (one db).bind fun pair => two pair.1 pair.2 := fun _ _ _ => rfl
  rw [unfolded, unfolded]
  have outcomes := alike x y same
  cases ran : first x with
  | error failure =>
      rw [ran] at outcomes
      cases ran' : first' y with
      | error failure' =>
          rw [ran'] at outcomes
          cases outcomes
          exact .failed failure
      | ok pair =>
          rw [ran'] at outcomes
          cases outcomes
  | ok pair =>
      rw [ran] at outcomes
      cases ran' : first' y with
      | error failure' =>
          rw [ran'] at outcomes
          cases outcomes
      | ok pair' =>
          rw [ran'] at outcomes
          cases outcomes with
          | committed answers stores => exact later _ _ answers _ _ stores

end Statements

/-! ## Handlers -/

/-- Both refuse with the same message, or both answer; the cookies are the same. -/
inductive RepliesAlike {α α' : Type} (A : α → α' → Prop) :
    Except String α × Option SetCookie → Except String α' × Option SetCookie → Prop
  | refused (message : String) (cookie : Option SetCookie) :
      RepliesAlike A (.error message, cookie) (.error message, cookie)
  | answered {value : α} {value' : α'} (cookie : Option SetCookie)
      (related : A value value') : RepliesAlike A (.ok value, cookie) (.ok value', cookie)

/-- Two handlers that go on alike from related databases, and answer alike. -/
def Agree {α α' : Type} (R : Database → Database → Prop) (A : α → α' → Prop)
    (handler : Handler α) (handler' : Handler α') : Prop :=
  ∀ cookie, Twins R (RepliesAlike A) (handler.run.run cookie) (handler'.run.run cookie)

section Handlers

variable {α α' β β' : Type} {R : Database → Database → Prop}
  {A : α → α' → Prop} {B : β → β' → Prop}

theorem agree_pure {value : α} {value' : α'} (related : A value value') :
    Agree R A (pure value) (pure value') :=
  fun cookie => RepliesAlike.answered cookie related

theorem agree_throw (message : String) :
    Agree R A (throw message) (throw message) :=
  fun cookie => RepliesAlike.refused message cookie

theorem agree_setCookie {A : Unit → Unit → Prop} (header : SetCookie) (related : A () ()) :
    Agree R A (setCookie header) (setCookie header) :=
  fun _ => RepliesAlike.answered (some header) related

theorem agree_bind {handler : Handler β} {handler' : Handler β'} {rest : β → Handler α}
    {rest' : β' → Handler α'} (first : Agree R B handler handler')
    (later : ∀ value value', B value value' → Agree R A (rest value) (rest' value')) :
    Agree R A (handler >>= rest) (handler' >>= rest') := by
  intro cookie
  have unfolded : ∀ {γ δ : Type} (one : Handler γ) (two : γ → Handler δ),
      (one >>= two).run.run cookie = (one.run.run cookie) >>= fun pair =>
        (ExceptT.bindCont two pair.1).run pair.2 := fun _ _ => rfl
  rw [unfolded, unfolded]
  apply twins_bind (first cookie)
  intro reply reply' related
  cases related with
  | refused message cookie => exact RepliesAlike.refused message cookie
  | answered cookie related => exact later _ _ related cookie

/-- A refusal skips the rest. -/
theorem agree_throw_bind (message : String) {rest : β → Handler α} {rest' : β' → Handler α'} :
    Agree R A (throw message >>= rest) (throw message >>= rest') := by
  refine agree_bind (B := fun _ _ => False) (agree_throw message) ?_
  exact fun _ _ impossible => impossible.elim

theorem agree_query {site site' : Site} {statement : Sql α} {statement' : Sql α'}
    (alike : Alike R A statement statement') :
    Agree R A (query site statement) (query site' statement') := by
  intro cookie
  rw [run_query, run_query]
  apply twins_bind (twins_perform alike)
  intro reply reply' related
  cases related with
  | failed failure => exact RepliesAlike.refused _ cookie
  | committed related => exact RepliesAlike.answered cookie related

theorem agree_orRefuse {message : String} {option : Option α} {option' : Option α'}
    (related : Option.Rel A option option') :
    Agree R A (orRefuse message option) (orRefuse message option') := by
  cases related with
  | none => exact agree_throw message
  | some related => exact agree_pure related

theorem agree_refuse {outcome outcome' : Except String Unit} (same : outcome = outcome') :
    Agree R (fun _ _ => True) (refuse outcome) (refuse outcome') := by
  subst same
  cases outcome with
  | ok value => exact agree_pure trivial
  | error message => exact agree_throw message

theorem agree_ite {condition condition' : Prop} [Decidable condition] [Decidable condition']
    {first second : Handler α} {first' second' : Handler α'} (same : condition ↔ condition')
    (yes : condition → Agree R A first first') (no : ¬ condition → Agree R A second second') :
    Agree R A (if condition then first else second)
      (if condition' then first' else second') := by
  by_cases holds : condition
  · rw [if_pos holds, if_pos (same.mp holds)]
    exact yes holds
  · rw [if_neg holds, if_neg fun holds' => holds (same.mpr holds')]
    exact no holds

end Handlers

/-! ## A point of view -/

/-- What a party can tell apart: databases, the instants of two requests, the bodies
stored and the bodies submitted; and which accounts it watches. -/
structure Viewpoint where
  same : Database → Database → Prop
  owns : Int → Prop
  asks : SessionClaims → Prop
  clock : Timestamp → Timestamp → Prop
  stored : String → String → Prop
  submitted : String → String → Prop

/-- Two readings of one watched account. -/
structure SameUser (view : Viewpoint) (me me' : User) : Prop where
  owned : view.owns me.id
  id : me.id = me'.id
  email : me.email = me'.email
  epoch : me.sessionEpoch = me'.sessionEpoch

/-- Every statement of the nine endpoints is alike from this point of view. -/
structure Sound (view : Viewpoint) : Prop where
  findByEmail : ∀ claims, view.asks claims →
    Alike view.same (Option.Rel (SameUser view)) (findByEmail claims.email)
      (findByEmail claims.email)
  isEncrypted : ∀ userId, view.owns userId →
    Alike view.same Eq (isEncrypted userId) (isEncrypted userId)
  setEncrypted : ∀ userId now now', view.owns userId → view.clock now now' →
    Alike view.same Eq (setEncrypted userId now) (setEncrypted userId now')
  insertWrap : ∀ userId kind credentialId wrappedKey now now', view.owns userId →
    view.clock now now' → Alike view.same Eq
      (insertWrap userId kind credentialId wrappedKey now)
      (insertWrap userId kind credentialId wrappedKey now')
  listWraps : ∀ userId, view.owns userId →
    Alike view.same Eq (listWraps userId) (listWraps userId)
  hasWrapForCredential : ∀ userId credentialId, view.owns userId →
    Alike view.same Eq (hasWrapForCredential userId credentialId)
      (hasWrapForCredential userId credentialId)
  currentKeyWrap : ∀ userId, view.owns userId →
    Alike view.same Eq (currentKeyWrap userId) (currentKeyWrap userId)
  deleteKeyWraps : ∀ userId, view.owns userId →
    Alike view.same Eq (deleteKeyWraps userId) (deleteKeyWraps userId)
  findByCredentialId : ∀ userId credentialId, view.owns userId →
    Alike view.same
      (fun row row' => row.map PasskeyRow.userId = some userId ↔
        row'.map PasskeyRow.userId = some userId)
      (findByCredentialId credentialId) (findByCredentialId credentialId)
  load : ∀ userId date, view.owns userId →
    Alike view.same (Option.Rel view.stored) (load userId date) (load userId date)
  save : ∀ userId date body body' now now', view.owns userId → view.submitted body body' →
    view.clock now now' →
    Alike view.same Eq (save userId date body now) (save userId date body' now')
  datesInRange : ∀ userId first last, view.owns userId →
    Alike view.same Eq (datesInRange userId first last) (datesInRange userId first last)
  entriesInRange : ∀ userId first last, view.owns userId →
    Alike view.same (List.Forall₂ fun entry entry' =>
        entry.1 = entry'.1 ∧ view.stored entry.2 entry'.2)
      (Store.entriesInRange userId first last) (Store.entriesInRange userId first last)
  bytes : ∀ body body', view.submitted body body' → body.utf8ByteSize = body'.utf8ByteSize

/-! ## The endpoints -/

/-- The entry and the encryption endpoints. -/
inductive Endpoint
  | entryLoad (date : String)
  | entrySave (date body : String)
  | entryDatesInRange (first last : String)
  | entriesInRange (first last : String)
  | encryptionStatus
  | encryptionWraps
  | encryptionEnable (passkey : Option PasskeyWrapDto) (encryptionKeyWrap : Bytes)
  | encryptionAddPasskeyWrap (credentialId wrappedKey : Bytes)
  | encryptionReplaceKeyWrap (wrappedKey : Bytes)

/-- What the endpoints answer. -/
inductive Response
  | body (body : Option String)
  | dates (dates : List String)
  | entries (entries : List (String × String))
  | status (status : EncryptionStatus)
  | wraps (wraps : List WrapDto)
  | done

/-- The server function of an endpoint. -/
def Endpoint.handler (ctx : AppCtx) : Endpoint → Handler Response
  | .entryLoad date => return .body (← Functions.entryLoad ctx date)
  | .entrySave date body => do
      Functions.entrySave ctx date body
      return .done
  | .entryDatesInRange first last => return .dates (← Functions.entryDatesInRange ctx first last)
  | .entriesInRange first last => return .entries (← Functions.entriesInRange ctx first last)
  | .encryptionStatus => return .status (← Functions.encryptionStatus ctx)
  | .encryptionWraps => return .wraps (← Functions.encryptionWraps ctx)
  | .encryptionEnable passkey encryptionKeyWrap => do
      Functions.encryptionEnable ctx passkey encryptionKeyWrap
      return .done
  | .encryptionAddPasskeyWrap credentialId wrappedKey => do
      Functions.encryptionAddPasskeyWrap ctx credentialId wrappedKey
      return .done
  | .encryptionReplaceKeyWrap wrappedKey => do
      Functions.encryptionReplaceKeyWrap ctx wrappedKey
      return .done

/-- The contexts of two requests in one session. -/
structure SameContext (view : Viewpoint) (ctx ctx' : AppCtx) : Prop where
  claims : ctx.claims = ctx'.claims
  asks : ∀ claims, ctx.claims = some claims → view.asks claims
  clock : view.clock ctx.now ctx'.now

/-- The same call, but for the body it submits. -/
inductive SameCall (view : Viewpoint) : Endpoint → Endpoint → Prop
  | entrySave (date : String) {body body' : String} (submitted : view.submitted body body') :
      SameCall view (.entrySave date body) (.entrySave date body')
  | refl (endpoint : Endpoint) (other : ∀ date body, endpoint ≠ .entrySave date body) :
      SameCall view endpoint endpoint

/-- The same response, but for the bodies it shows. -/
inductive SameResponse (view : Viewpoint) : Response → Response → Prop
  | body {body body' : Option String} (stored : Option.Rel view.stored body body') :
      SameResponse view (.body body) (.body body')
  | entries {entries entries' : List (String × String)}
      (stored : List.Forall₂ (fun entry entry' =>
        entry.1 = entry'.1 ∧ view.stored entry.2 entry'.2) entries entries') :
      SameResponse view (.entries entries) (.entries entries')
  | dates (dates : List String) : SameResponse view (.dates dates) (.dates dates)
  | status (status : EncryptionStatus) : SameResponse view (.status status) (.status status)
  | wraps (wraps : List WrapDto) : SameResponse view (.wraps wraps) (.wraps wraps)
  | done : SameResponse view .done .done

section Endpoints

variable {view : Viewpoint} {ctx ctx' : AppCtx}

theorem agree_requireUser (sound : Sound view) (same : SameContext view ctx ctx') :
    Agree view.same (SameUser view) (requireUser ctx) (requireUser ctx') := by
  unfold requireUser
  rw [← same.claims]
  refine agree_bind (B := fun claims claims' => claims = claims' ∧ view.asks claims)
    (agree_orRefuse ?_) ?_
  · cases held : ctx.claims with
    | none => exact Option.Rel.none
    | some claims => exact Option.Rel.some ⟨rfl, same.asks claims held⟩
  · rintro claims _ ⟨rfl, asks⟩
    refine agree_bind (agree_query (sound.findByEmail claims asks)) fun found found' related => ?_
    refine agree_bind (agree_orRefuse related) fun me me' user => ?_
    refine agree_ite ?_ (fun _ => agree_throw_bind _) fun _ => agree_pure user
    rw [user.epoch]

/-- Dates are read the same way. -/
theorem agree_parseDate (raw : String) :
    Agree view.same Eq (parseDate raw) (parseDate raw) := by
  apply agree_orRefuse
  cases parseIso raw with
  | none => exact Option.Rel.none
  | some date => exact Option.Rel.some rfl

theorem agree_parseRange (first last : String) :
    Agree view.same Eq (parseRange first last) (parseRange first last) := by
  refine agree_bind (agree_parseDate first) ?_
  rintro first _ rfl
  refine agree_bind (agree_parseDate last) ?_
  rintro last _ rfl
  refine agree_ite Iff.rfl (fun _ => agree_throw_bind _) fun _ => ?_
  exact agree_ite Iff.rfl (fun _ => agree_throw_bind _) fun _ => agree_pure rfl

theorem agree_checkWrapLen (wrapped : Bytes) :
    Agree view.same (fun _ _ => True) (checkWrapLen wrapped) (checkWrapLen wrapped) :=
  agree_ite Iff.rfl (fun _ => agree_pure trivial) fun _ => agree_throw _

variable {userId : Int} {now now' : Timestamp}

theorem alike_enableTransaction (sound : Sound view) (owned : view.owns userId)
    (clock : view.clock now now') (passkey : Option PasskeyWrapDto)
    (encryptionKeyWrap : Bytes) :
    Alike view.same Eq (enableTransaction userId passkey encryptionKeyWrap now)
      (enableTransaction userId passkey encryptionKeyWrap now') := by
  have key : ∀ kind credentialId wrapped,
      Alike view.same Eq (insertWrap userId kind credentialId wrapped now)
        (insertWrap userId kind credentialId wrapped now') :=
    fun kind credentialId wrapped =>
      sound.insertWrap userId kind credentialId wrapped now now' owned clock
  refine alike_bind (sound.isEncrypted userId owned) ?_
  rintro encrypted _ rfl
  cases encrypted with
  | true => exact alike_pure rfl
  | false =>
      refine alike_bind (sound.setEncrypted userId now now' owned clock) fun _ _ _ => ?_
      cases passkey with
      | none => exact alike_bind (key _ _ _) fun _ _ _ => alike_pure rfl
      | some dto =>
          refine alike_bind (key _ _ _) fun _ _ _ => ?_
          exact alike_bind (key _ _ _) fun _ _ _ => alike_pure rfl

theorem alike_replaceEncryptionKeyWrap (sound : Sound view) (owned : view.owns userId)
    (clock : view.clock now now') (wrappedKey : Bytes) :
    Alike view.same Eq (replaceEncryptionKeyWrap userId wrappedKey now)
      (replaceEncryptionKeyWrap userId wrappedKey now') := by
  refine alike_bind (sound.currentKeyWrap userId owned) ?_
  rintro current _ rfl
  by_cases same : current = some wrappedKey
  · simp only [same, if_true]
    exact alike_pure rfl
  · simp only [same, if_false]
    refine alike_bind (sound.deleteKeyWraps userId owned) fun _ _ _ => ?_
    exact sound.insertWrap userId _ _ _ now now' owned clock

theorem alike_saveTransaction (sound : Sound view) (owned : view.owns userId)
    (clock : view.clock now now') (date : NaiveDate) {body body' : String}
    (submitted : view.submitted body body') :
    Alike view.same Eq (saveTransaction userId date body now)
      (saveTransaction userId date body' now') := by
  refine alike_bind (sound.isEncrypted userId owned) ?_
  rintro encrypted _ rfl
  cases encrypted with
  | false => exact alike_pure rfl
  | true =>
      refine alike_bind (sound.save userId date body body' now now' owned submitted clock) ?_
      exact fun _ _ _ => alike_pure rfl

theorem agree_encryptionEnable (sound : Sound view) (same : SameContext view ctx ctx')
    (passkey : Option PasskeyWrapDto) (encryptionKeyWrap : Bytes) :
    Agree view.same (fun _ _ => True) (encryptionEnable ctx passkey encryptionKeyWrap)
      (encryptionEnable ctx' passkey encryptionKeyWrap) := by
  refine agree_bind (agree_requireUser sound same) fun me me' user => ?_
  obtain ⟨owned, id, -, -⟩ := user
  refine agree_bind (agree_checkWrapLen encryptionKeyWrap) fun _ _ _ => ?_
  have transaction : Agree view.same (fun _ _ => True)
      (query (.enable me.id (passkey.map PasskeyWrapDto.credentialId))
        (enableTransaction me.id passkey encryptionKeyWrap ctx.now) >>= refuse)
      (query (.enable me'.id (passkey.map PasskeyWrapDto.credentialId))
        (enableTransaction me'.id passkey encryptionKeyWrap ctx'.now) >>= refuse) := by
    rw [← id]
    exact agree_bind (agree_query
      (alike_enableTransaction sound owned same.clock passkey encryptionKeyWrap))
      fun _ _ => agree_refuse
  cases passkey with
  | none => exact transaction
  | some dto => exact agree_bind (agree_checkWrapLen dto.wrappedKey) fun _ _ _ => transaction

theorem agree_encryptionAddPasskeyWrap (sound : Sound view)
    (same : SameContext view ctx ctx') (credentialId wrappedKey : Bytes) :
    Agree view.same (fun _ _ => True) (encryptionAddPasskeyWrap ctx credentialId wrappedKey)
      (encryptionAddPasskeyWrap ctx' credentialId wrappedKey) := by
  refine agree_bind (agree_requireUser sound same) fun me me' user => ?_
  obtain ⟨owned, id, -, -⟩ := user
  rw [← id]
  refine agree_bind (agree_checkWrapLen wrappedKey) fun _ _ _ => ?_
  refine agree_bind (agree_query (sound.findByCredentialId me.id credentialId owned)) ?_
  intro row row' mine
  refine agree_ite (not_congr mine) (fun _ => agree_throw_bind _) fun _ => ?_
  refine agree_bind (agree_query (sound.isEncrypted me.id owned)) ?_
  rintro encrypted _ rfl
  refine agree_ite Iff.rfl (fun _ => agree_throw_bind _) fun _ => ?_
  refine agree_bind (agree_query (sound.hasWrapForCredential me.id credentialId owned)) ?_
  rintro present _ rfl
  refine agree_ite Iff.rfl (fun _ => agree_throw_bind _) fun _ => ?_
  exact agree_query ((sound.insertWrap me.id .passkey (some credentialId) wrappedKey _ _ owned
    same.clock).mono fun _ _ _ => trivial)

theorem agree_encryptionReplaceKeyWrap (sound : Sound view)
    (same : SameContext view ctx ctx') (wrappedKey : Bytes) :
    Agree view.same (fun _ _ => True) (encryptionReplaceKeyWrap ctx wrappedKey)
      (encryptionReplaceKeyWrap ctx' wrappedKey) := by
  refine agree_bind (agree_requireUser sound same) fun me me' user => ?_
  obtain ⟨owned, id, -, -⟩ := user
  rw [← id]
  refine agree_bind (agree_checkWrapLen wrappedKey) fun _ _ _ => ?_
  exact agree_query ((alike_replaceEncryptionKeyWrap sound owned same.clock wrappedKey).mono
    fun _ _ _ => trivial)

theorem agree_entrySave (sound : Sound view) (same : SameContext view ctx ctx')
    (date : String) {body body' : String} (submitted : view.submitted body body') :
    Agree view.same (fun _ _ => True) (entrySave ctx date body)
      (entrySave ctx' date body') := by
  refine agree_bind (agree_requireUser sound same) fun me me' user => ?_
  obtain ⟨owned, id, -, -⟩ := user
  rw [← id]
  refine agree_bind (agree_parseDate date) ?_
  rintro day _ rfl
  refine agree_ite ?_ (fun _ => agree_throw_bind _) fun _ => ?_
  · rw [sound.bytes body body' submitted]
  exact agree_bind (agree_query (alike_saveTransaction sound owned same.clock day submitted))
    fun _ _ => agree_refuse

/-- From this point of view every endpoint answers the same. -/
theorem agree_endpoint (sound : Sound view) (same : SameContext view ctx ctx')
    {endpoint endpoint' : Endpoint} (call : SameCall view endpoint endpoint') :
    Agree view.same (SameResponse view) (endpoint.handler ctx) (endpoint'.handler ctx') := by
  cases call with
  | entrySave date submitted =>
      refine agree_bind (agree_entrySave sound same date submitted) ?_
      exact fun _ _ _ => agree_pure .done
  | refl _ other =>
      cases endpoint with
      | entrySave date body => exact absurd rfl (other date body)
      | entryLoad date =>
          refine agree_bind (B := Option.Rel view.stored) ?_
            fun _ _ stored => agree_pure (.body stored)
          refine agree_bind (agree_requireUser sound same) fun me me' user => ?_
          rw [← user.id]
          refine agree_bind (agree_parseDate date) ?_
          rintro day _ rfl
          exact agree_query (sound.load me.id day user.owned)
      | entryDatesInRange first last =>
          refine agree_bind (B := Eq) ?_ ?_
          · refine agree_bind (agree_requireUser sound same) fun me me' user => ?_
            rw [← user.id]
            refine agree_bind (agree_parseRange first last) ?_
            rintro ⟨first, last⟩ _ rfl
            refine agree_bind (agree_query (sound.datesInRange me.id first last user.owned)) ?_
            rintro dates _ rfl
            exact agree_pure rfl
          · rintro dates _ rfl
            exact agree_pure (.dates dates)
      | entriesInRange first last =>
          refine agree_bind (B := List.Forall₂ fun entry entry' =>
            entry.1 = entry'.1 ∧ view.stored entry.2 entry'.2) ?_
            fun _ _ stored => agree_pure (.entries stored)
          refine agree_bind (agree_requireUser sound same) fun me me' user => ?_
          rw [← user.id]
          refine agree_bind (agree_parseRange first last) ?_
          rintro ⟨first, last⟩ _ rfl
          refine agree_bind (agree_query (sound.entriesInRange me.id first last user.owned)) ?_
          intro entries entries' stored
          refine agree_pure (List.forall₂_map_left_iff.mpr (List.forall₂_map_right_iff.mpr ?_))
          exact stored.imp fun entry entry' related => ⟨congrArg toIso related.1, related.2⟩
      | encryptionStatus =>
          refine agree_bind (B := Eq) ?_ ?_
          · refine agree_bind (agree_requireUser sound same) fun me me' user => ?_
            rw [← user.id, ← user.email]
            refine agree_bind (agree_query (sound.isEncrypted me.id user.owned)) ?_
            rintro enabled _ rfl
            exact agree_pure rfl
          · rintro status _ rfl
            exact agree_pure (.status status)
      | encryptionWraps =>
          refine agree_bind (B := Eq) ?_ ?_
          · refine agree_bind (agree_requireUser sound same) fun me me' user => ?_
            rw [← user.id]
            refine agree_bind (agree_query (sound.listWraps me.id user.owned)) ?_
            rintro rows _ rfl
            exact agree_pure rfl
          · rintro wraps _ rfl
            exact agree_pure (.wraps wraps)
      | encryptionEnable passkey encryptionKeyWrap =>
          refine agree_bind (agree_encryptionEnable sound same passkey encryptionKeyWrap) ?_
          exact fun _ _ _ => agree_pure .done
      | encryptionAddPasskeyWrap credentialId wrappedKey =>
          refine agree_bind (agree_encryptionAddPasskeyWrap sound same credentialId wrappedKey) ?_
          exact fun _ _ _ => agree_pure .done
      | encryptionReplaceKeyWrap wrappedKey =>
          refine agree_bind (agree_encryptionReplaceKeyWrap sound same wrappedKey) ?_
          exact fun _ _ _ => agree_pure .done

end Endpoints

end TimeTracker.Server.Views
