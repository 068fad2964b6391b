import TimeTracker.Library.Serving
import TimeTracker.Server.Store

/-!
# One-time sign-in links

The table of mailed tokens, the two statements a consume runs on it, and mints
and consumes interleaved statement by statement.  The table holds hashes only.
-/

namespace TimeTracker.Server.MagicLink

open TimeTracker.Text
open TimeTracker.Library.Run
open TimeTracker.Library.Atomic
open TimeTracker.Library.Indexed
open TimeTracker.Library.Serving
open TimeTracker.Server.Schema
open TimeTracker.Server.Store

structure MagicLinkToken where
  id : Int
  tokenHash : Bytes
  email : String
  expiresAt : Timestamp
  usedAt : Option Timestamp
  createdAt : Timestamp
  deriving DecidableEq, Repr

/-- The primary key and `idx_magic_token_hash`. -/
def MagicLinkToken.Conflict (first second : MagicLinkToken) : Prop :=
  first.id = second.id ∨ first.tokenHash = second.tokenHash

instance : DecidableRel MagicLinkToken.Conflict := fun first second =>
  inferInstanceAs (Decidable (first.id = second.id ∨ first.tokenHash = second.tokenHash))

theorem MagicLinkToken.conflict_symm (first second : MagicLinkToken)
    (conflict : Conflict first second) : Conflict second first :=
  conflict.imp Eq.symm Eq.symm

abbrev Links := Table MagicLinkToken MagicLinkToken.Conflict

/-- The statements of minting and consuming. -/
inductive Site
  | insertToken
  | selectToken
  | spendToken (id : Int)
  deriving DecidableEq, Repr

/-- A row's one change: it is spent, unless it was before. -/
def spend (id : Int) (now : Timestamp) (row : MagicLinkToken) : MagicLinkToken :=
  if row.id = id ∧ row.usedAt = none then { row with usedAt := some now } else row

section Spend

variable (id : Int) (now : Timestamp) (row : MagicLinkToken)

@[simp] theorem spend_id : (spend id now row).id = row.id := by
  unfold spend
  split <;> rfl

@[simp] theorem spend_tokenHash : (spend id now row).tokenHash = row.tokenHash := by
  unfold spend
  split <;> rfl

@[simp] theorem spend_email : (spend id now row).email = row.email := by
  unfold spend
  split <;> rfl

@[simp] theorem spend_expiresAt : (spend id now row).expiresAt = row.expiresAt := by
  unfold spend
  split <;> rfl

theorem spend_of_used {row : MagicLinkToken} (used : row.usedAt ≠ none) :
    spend id now row = row :=
  if_neg fun unused => used unused.2

theorem spend_of_ne {row : MagicLinkToken} (other : row.id ≠ id) : spend id now row = row :=
  if_neg fun same => other same.1

/-- The named row is used afterwards. -/
theorem spend_used : (spend row.id now row).usedAt ≠ none := by
  unfold spend
  split
  · exact Option.some_ne_none now
  · next used =>
      intro unused
      exact used ⟨rfl, unused⟩

end Spend

/-- `INSERT INTO magic_link_token`; the id is chosen here. -/
def insertToken (row : MagicLinkToken) (links : Links) : Except DbError (Unit × Links) :=
  match links.insert? { row with id := Database.nextId (links.rows.map MagicLinkToken.id) } with
  | none => .error .uniqueViolation
  | some next => .ok ((), next)

def selectToken (tokenHash : Bytes) (links : Links) :
    Except DbError (Option MagicLinkToken × Links) :=
  .ok (links.rows.find? fun row => row.tokenHash = tokenHash, links)

/-- `UPDATE ... SET used_at WHERE id = ? AND used_at IS NULL`, and how many rows
that was. -/
def spendToken (id : Int) (now : Timestamp) (links : Links) : Except DbError (Nat × Links) :=
  .ok (links.rows.countP fun row => row.id = id && row.usedAt = none,
    links.update (spend id now) fun first second conflict => by
      simpa [MagicLinkToken.Conflict] using conflict)

/-! ## The two functions -/

/-- The errors of the two functions, with the text they carry. -/
inductive LinkError
  | message (text : String)
  | context (text : String) (failure : DbError)
  deriving DecidableEq, Repr

/-- Outcome of presenting a token. -/
inductive ConsumeResult
  | consumed (email : String)
  | stale (email : String)
  | notFound
  deriving DecidableEq, Repr

abbrev LinkHandler := ExceptT LinkError (Program Links Site DbError)

/-- One statement; a failure is returned with its context. -/
def query {α : Type} (context : String) (site : Site)
    (statement : Links → Except DbError (α × Links)) : LinkHandler α := do
  let reply ← (Program.perform site statement : Program Links Site DbError _)
  match reply with
  | .ok value => return value
  | .error failure => throw (.context context failure)

section Functions

variable (hash : String → Bytes)

/-- Creates a token row and returns the raw token, drawn as `token`. -/
def mint (token : String) (now : Timestamp) (email : String) (ttl : Int) :
    LinkHandler String := do
  match normalizeEmail email with
  | none => throw (.message "not a usable email address")
  | some normalized =>
      query "insert magic_link_token" .insertToken
        (insertToken
          { id := 0, tokenHash := hash token, email := normalized, expiresAt := now + ttl,
            usedAt := none, createdAt := now })
      return token

/-- Spends a token, at most once. -/
def consume (now : Timestamp) (token : String) : LinkHandler ConsumeResult := do
  let row ← query "consume magic link token" .selectToken (selectToken (hash token))
  match row with
  | none => return .notFound
  | some row =>
      if row.usedAt.isSome || row.expiresAt ≤ now then
        return .stale row.email
      let updated ← query "consume magic link token" (.spendToken row.id)
        (spendToken row.id now)
      if updated = 1 then
        return .consumed row.email
      else
        return .stale row.email

end Functions

/-- A request for a link or of a link, with the clock it reads. -/
inductive Request
  | mint (email : String) (ttl : Int) (token : String) (now : Timestamp)
  | consume (token : String) (now : Timestamp)
  deriving DecidableEq, Repr

/-- The token a request is about. -/
def Request.token : Request → String
  | .mint _ _ token _ => token
  | .consume token _ => token

inductive Reply
  | minted (result : Except LinkError String)
  | consumed (result : Except LinkError ConsumeResult)
  deriving DecidableEq

def serve (hash : String → Bytes) : Request → Program Links Site DbError Reply
  | .mint email ttl token now => do
      let result ← (mint hash token now email ttl).run
      return .minted result
  | .consume token now => do
      let result ← (consume hash now token).run
      return .consumed result

/-- Mints and consumes in progress, each under a number of its own. -/
abbrev LinkService := Service Links Site DbError Nat Request Reply

abbrev LinkEvent := Event Nat Request DbError

/-! ## The statements of one call -/

/-- What a consume does with the count its update answered. -/
def afterSpend (email : String) : Except DbError Nat → Program Links Site DbError Reply
  | .error failure =>
      .done (.consumed (.error (.context "consume magic link token" failure)))
  | .ok updated =>
      .done (.consumed (.ok (if updated = 1 then .consumed email else .stale email)))

/-- A consume about to spend the row it has read. -/
def spending (id : Int) (email : String) (now : Timestamp) :
    Program Links Site DbError Reply :=
  .atomic (.spendToken id) (spendToken id now) (afterSpend email)

/-- What a consume does with the row it has read. -/
def afterSelect (now : Timestamp) :
    Except DbError (Option MagicLinkToken) → Program Links Site DbError Reply
  | .error failure =>
      .done (.consumed (.error (.context "consume magic link token" failure)))
  | .ok none => .done (.consumed (.ok .notFound))
  | .ok (some row) =>
      if row.usedAt.isSome || row.expiresAt ≤ now then
        .done (.consumed (.ok (.stale row.email)))
      else spending row.id row.email now

/-- What a mint does with the outcome of its insert. -/
def afterInsert (token : String) : Except DbError Unit → Program Links Site DbError Reply
  | .error failure => .done (.minted (.error (.context "insert magic_link_token" failure)))
  | .ok () => .done (.minted (.ok token))

/-- The row a mint inserts, up to its id. -/
def mintedRow (hash : String → Bytes) (token : String) (now : Timestamp) (email : String)
    (ttl : Int) : MagicLinkToken :=
  { id := 0, tokenHash := hash token, email, expiresAt := now + ttl, usedAt := none,
    createdAt := now }

section Shapes

variable (hash : String → Bytes) (token : String) (now : Timestamp)

theorem serve_consume : serve hash (.consume token now) =
    .atomic .selectToken (selectToken (hash token)) (afterSelect now) := by
  refine congrArg (Program.atomic Site.selectToken (selectToken (hash token))) (funext ?_)
  rintro (failure | _ | row)
  · rfl
  · rfl
  · simp only [afterSelect]
    change Program.bind (ExceptT.run (ite _ _ _)) _ = _
    split
    · rfl
    · refine congrArg (Program.atomic (Site.spendToken row.id) (spendToken row.id now))
        (funext ?_)
      rintro (failure | updated)
      · rfl
      · simp only [afterSpend]
        change Program.bind (ExceptT.run (ite _ _ _)) _ = _
        split <;> rfl

theorem serve_mint (email : String) (ttl : Int) : serve hash (.mint email ttl token now) =
    match normalizeEmail email with
    | none => .done (.minted (.error (.message "not a usable email address")))
    | some normalized => .atomic .insertToken
        (insertToken (mintedRow hash token now normalized ttl)) (afterInsert token) := by
  cases named : normalizeEmail email with
  | none => simp [serve, mint, named]
  | some normalized =>
      simp only [serve, mint, named]
      refine congrArg (Program.atomic Site.insertToken
        (insertToken (mintedRow hash token now normalized ttl))) (funext ?_)
      rintro (failure | _) <;> rfl

end Shapes

/-! ## What a statement does to the rows -/

/-- The row is the same link as before, and is not unspent again. -/
structure SameLink (old new : MagicLinkToken) : Prop where
  id : new.id = old.id
  tokenHash : new.tokenHash = old.tokenHash
  email : new.email = old.email
  expiresAt : new.expiresAt = old.expiresAt
  used : old.usedAt ≠ none → new.usedAt ≠ none

/-- Every link is still there. -/
def Grows (links next : Links) : Prop :=
  ∀ row ∈ links, ∃ later ∈ next, SameLink row later

theorem SameLink.refl (row : MagicLinkToken) : SameLink row row :=
  ⟨rfl, rfl, rfl, rfl, fun used => used⟩

theorem SameLink.trans {first middle last : MagicLinkToken} (left : SameLink first middle)
    (right : SameLink middle last) : SameLink first last :=
  ⟨right.id.trans left.id, right.tokenHash.trans left.tokenHash, right.email.trans left.email,
    right.expiresAt.trans left.expiresAt, fun used => right.used (left.used used)⟩

theorem sameLink_spend (id : Int) (now : Timestamp) (row : MagicLinkToken) :
    SameLink row (spend id now row) :=
  ⟨spend_id id now row, spend_tokenHash id now row, spend_email id now row,
    spend_expiresAt id now row, fun used => (spend_of_used id now used).symm ▸ used⟩

theorem Grows.refl (links : Links) : Grows links links :=
  fun row member => ⟨row, member, .refl row⟩

section Statements

variable {links next : Links} {row : MagicLinkToken}

/-- An insert adds the row under a fresh id, or is refused. -/
theorem insertToken_cases (row : MagicLinkToken) (links : Links) :
    (∃ failure, insertToken row links = .error failure) ∨
      ∃ next id, insertToken row links = .ok ((), next) ∧
        ∀ other, other ∈ next ↔ other ∈ links ∨ other = { row with id } := by
  unfold insertToken
  cases inserted : links.insert?
      { row with id := Database.nextId (links.rows.map MagicLinkToken.id) } with
  | none => exact Or.inl ⟨_, rfl⟩
  | some next => exact Or.inr ⟨next, _, rfl, fun other => Table.mem_insert inserted⟩

theorem grows_effect_insertToken (row : MagicLinkToken) (links : Links) :
    Grows links (effect (insertToken row) links) := by
  obtain ⟨failure, refused⟩ | ⟨next, id, inserted, members⟩ := insertToken_cases row links
  · rw [effect_of_error refused]
    exact .refl links
  · rw [effect_of_ok inserted]
    exact fun old member => ⟨old, (members old).mpr (Or.inl member), .refl old⟩

theorem answer_selectToken (tokenHash : Bytes) (links : Links) :
    answer (selectToken tokenHash) links =
      .ok (links.rows.find? fun row => row.tokenHash = tokenHash) :=
  rfl

theorem effect_selectToken (tokenHash : Bytes) (links : Links) :
    effect (selectToken tokenHash) links = links :=
  rfl

theorem rows_effect_spendToken (id : Int) (now : Timestamp) (links : Links) :
    (effect (spendToken id now) links).rows = links.rows.map (spend id now) :=
  rfl

theorem answer_spendToken (id : Int) (now : Timestamp) (links : Links) :
    answer (spendToken id now) links =
      .ok (links.rows.countP fun row => row.id = id && row.usedAt = none) :=
  rfl

theorem grows_effect_spendToken (id : Int) (now : Timestamp) (links : Links) :
    Grows links (effect (spendToken id now) links) := by
  intro row member
  refine ⟨spend id now row, ?_, sameLink_spend id now row⟩
  rw [Table.mem_def, rows_effect_spendToken]
  exact List.mem_map_of_mem member

/-- The update selects its row exactly when that is unspent. -/
theorem countP_spendToken (member : row ∈ links) :
    (links.rows.countP fun other => other.id = row.id && other.usedAt = none) = 1 ↔
      row.usedAt = none := by
  rw [Table.countP_eq_one]
  · constructor
    · rintro ⟨other, present, selected⟩
      simp only [Bool.and_eq_true, decide_eq_true_eq] at selected
      have same : other = row :=
        Table.eq_of_conflict MagicLinkToken.conflict_symm present member (Or.inl selected.1)
      exact same ▸ selected.2
    · intro unused
      exact ⟨row, member, by simp [unused]⟩
  · intro first second here there
    simp only [Bool.and_eq_true, decide_eq_true_eq] at here there
    exact Or.inl (here.1.trans there.1.symm)

/-- A spent row stays as it is, and so does every other row. -/
theorem effect_spendToken_of_used (member : row ∈ links) (used : row.usedAt ≠ none)
    (now : Timestamp) : effect (spendToken row.id now) links = links := by
  apply Table.ext_rows
  rw [rows_effect_spendToken]
  conv_rhs => rw [← List.map_id links.rows]
  apply List.map_congr_left
  intro other present
  by_cases same : other.id = row.id
  · have here : other = row :=
      Table.eq_of_conflict MagicLinkToken.conflict_symm present member (Or.inl same)
    rw [here]
    exact spend_of_used row.id now used
  · exact spend_of_ne row.id now same

end Statements

/-! ## How far a call has come -/

section Progress

variable (hash : String → Bytes) (links : Links)

/-- The table has a row for this token that says so. -/
def Filed (token : String) (email : String) (expiresAt : Timestamp) : Prop :=
  ∃ row ∈ links, row.tokenHash = hash token ∧ row.email = email ∧ row.expiresAt = expiresAt

/-- A mint has not begun, has failed, or has filed its token. -/
def Minting (email : String) (ttl : Int) (token : String) (now : Timestamp)
    (rest : Program Links Site DbError Reply) : Prop :=
  rest = serve hash (.mint email ttl token now) ∨
    (∃ error, rest = .done (.minted (.error error))) ∨
    rest = .done (.minted (.ok token)) ∧
      ∃ normalized, normalizeEmail email = some normalized ∧
        Filed hash links token normalized (now + ttl)

/-- A consume has not begun, is about to spend the row it has read, or has found
nothing, a spent or expired link, or a link it has spent in time. -/
def Consuming (token : String) (now : Timestamp)
    (rest : Program Links Site DbError Reply) : Prop :=
  rest = serve hash (.consume token now) ∨
    (∃ row ∈ links, row.tokenHash = hash token ∧ now < row.expiresAt ∧
      rest = spending row.id row.email now) ∨
    rest = .done (.consumed (.ok .notFound)) ∨
    (∃ row ∈ links, row.tokenHash = hash token ∧
      rest = .done (.consumed (.ok (.stale row.email)))) ∨
    ∃ row ∈ links, row.tokenHash = hash token ∧ now < row.expiresAt ∧ row.usedAt ≠ none ∧
      rest = .done (.consumed (.ok (.consumed row.email)))

end Progress

section Growth

variable {hash : String → Bytes} {links next : Links} {token : String} {now : Timestamp}
  {rest : Program Links Site DbError Reply}

theorem Filed.grows {email : String} {expiresAt : Timestamp}
    (filed : Filed hash links token email expiresAt) (grows : Grows links next) :
    Filed hash next token email expiresAt := by
  obtain ⟨row, member, hashed, named, expires⟩ := filed
  obtain ⟨later, present, same⟩ := grows row member
  exact ⟨later, present, same.tokenHash.trans hashed, same.email.trans named,
    same.expiresAt.trans expires⟩

theorem Minting.grows {email : String} {ttl : Int}
    (going : Minting hash links email ttl token now rest) (grows : Grows links next) :
    Minting hash next email ttl token now rest := by
  obtain waiting | failed | ⟨ended, normalized, named, filed⟩ := going
  · exact Or.inl waiting
  · exact Or.inr (Or.inl failed)
  · exact Or.inr (Or.inr ⟨ended, normalized, named, filed.grows grows⟩)

theorem Consuming.grows (going : Consuming hash links token now rest)
    (grows : Grows links next) : Consuming hash next token now rest := by
  obtain waiting | ⟨row, member, hashed, early, rfl⟩ | missing | ⟨row, member, hashed, rfl⟩ |
    ⟨row, member, hashed, early, used, rfl⟩ := going
  · exact Or.inl waiting
  · obtain ⟨later, present, same⟩ := grows row member
    refine Or.inr (Or.inl ⟨later, present, same.tokenHash.trans hashed, ?_, ?_⟩)
    · rwa [same.expiresAt]
    · rw [same.id, same.email]
  · exact Or.inr (Or.inr (Or.inl missing))
  · obtain ⟨later, present, same⟩ := grows row member
    refine Or.inr (Or.inr (Or.inr (Or.inl ⟨later, present, same.tokenHash.trans hashed, ?_⟩)))
    rw [same.email]
  · obtain ⟨later, present, same⟩ := grows row member
    refine Or.inr (Or.inr (Or.inr (Or.inr
      ⟨later, present, same.tokenHash.trans hashed, ?_, same.used used, ?_⟩)))
    · rwa [same.expiresAt]
    · rw [same.email]

end Growth

/-! ## What one statement of a call does -/

section Statement

variable {hash : String → Bytes} {links : Links} {token : String} {now : Timestamp}
  {site : Site} {β : Type} {statement : Links → Except DbError (β × Links)}
  {rest : Except DbError β → Program Links Site DbError Reply}

/-- Either nothing changes and the link is not won, or the call spends its own,
unspent link in time and says so. -/
theorem Consuming.executes
    (going : Consuming hash links token now (.atomic site statement rest)) :
    Consuming hash (effect statement links) token now (rest (answer statement links)) ∧
      (effect statement links = links ∧
          (∀ email, rest (answer statement links) ≠
            .done (.consumed (.ok (.consumed email)))) ∨
        ∃ row ∈ links, row.tokenHash = hash token ∧ row.usedAt = none ∧
          (effect statement links).rows = links.rows.map (spend row.id now) ∧
          rest (answer statement links) = .done (.consumed (.ok (.consumed row.email)))) := by
  obtain waiting | ⟨row, member, hashed, early, shape⟩ | ended | ⟨_, _, _, ended⟩ |
    ⟨_, _, _, _, _, ended⟩ := going
  · rw [serve_consume] at waiting
    cases waiting
    rw [effect_selectToken, answer_selectToken]
    cases found : links.rows.find? fun row => row.tokenHash = hash token with
    | none => exact ⟨Or.inr (Or.inr (Or.inl rfl)), Or.inl ⟨rfl, fun _ => nofun⟩⟩
    | some row =>
        have member : row ∈ links := List.mem_of_find?_eq_some found
        have hashed : row.tokenHash = hash token := by simpa using List.find?_some found
        simp only [afterSelect]
        split
        · exact ⟨Or.inr (Or.inr (Or.inr (Or.inl ⟨row, member, hashed, rfl⟩))),
            Or.inl ⟨trivial, fun _ => nofun⟩⟩
        · next fresh =>
            have early : now < row.expiresAt := by
              simp only [Bool.or_eq_true, decide_eq_true_eq, not_or, not_le] at fresh
              exact fresh.2
            exact ⟨Or.inr (Or.inl ⟨row, member, hashed, early, rfl⟩),
              Or.inl ⟨trivial, fun _ => nofun⟩⟩
  · cases shape
    have grows := grows_effect_spendToken row.id now links
    obtain ⟨later, present, same⟩ := grows row member
    rw [answer_spendToken]
    simp only [afterSpend, countP_spendToken member]
    by_cases unused : row.usedAt = none
    · rw [if_pos unused]
      have spent : spend row.id now row ∈ effect (spendToken row.id now) links := by
        rw [Table.mem_def, rows_effect_spendToken]
        exact List.mem_map_of_mem member
      refine ⟨Or.inr (Or.inr (Or.inr (Or.inr ⟨_, spent, ?_, ?_, ?_, ?_⟩))), Or.inr
        ⟨row, member, hashed, unused, rfl, rfl⟩⟩
      · rwa [spend_tokenHash]
      · rwa [spend_expiresAt]
      · exact spend_used now row
      · rw [spend_email]
    · rw [if_neg unused, effect_spendToken_of_used member unused]
      exact ⟨Or.inr (Or.inr (Or.inr (Or.inl ⟨row, member, hashed, rfl⟩))),
        Or.inl ⟨rfl, fun _ => nofun⟩⟩
  · cases ended
  · cases ended
  · cases ended

theorem Consuming.grows_executes
    (going : Consuming hash links token now (.atomic site statement rest)) :
    Grows links (effect statement links) := by
  obtain ⟨-, ⟨same, -⟩ | ⟨row, -, -, -, rows, -⟩⟩ := going.executes
  · rw [same]
    exact .refl links
  · have spent : effect statement links = effect (spendToken row.id now) links :=
      Table.ext_rows rows
    rw [spent]
    exact grows_effect_spendToken row.id now links

/-- A mint files its token, or fails and changes nothing. -/
theorem Minting.executes {email : String} {ttl : Int}
    (going : Minting hash links email ttl token now (.atomic site statement rest)) :
    Minting hash (effect statement links) email ttl token now
        (rest (answer statement links)) ∧
      Grows links (effect statement links) ∧
      ((∃ error, rest (answer statement links) = .done (.minted (.error error))) ∧
          effect statement links = links ∨
        rest (answer statement links) = .done (.minted (.ok token)) ∧
          ∃ normalized row, normalizeEmail email = some normalized ∧
            row.tokenHash = hash token ∧ row.email = normalized ∧
            row.expiresAt = now + ttl ∧
            ∀ other, other ∈ effect statement links ↔ other ∈ links ∨ other = row) := by
  obtain waiting | ⟨error, ended⟩ | ⟨ended, -⟩ := going
  · rw [serve_mint] at waiting
    cases named : normalizeEmail email with
    | none =>
        rw [named] at waiting
        cases waiting
    | some normalized =>
        rw [named] at waiting
        cases waiting
        refine ⟨?_, grows_effect_insertToken _ links, ?_⟩
        · obtain ⟨failure, refused⟩ | ⟨next, id, inserted, members⟩ :=
            insertToken_cases (mintedRow hash token now normalized ttl) links
          · rw [answer_of_error refused]
            exact Or.inr (Or.inl ⟨_, rfl⟩)
          · rw [answer_of_ok inserted, effect_of_ok inserted]
            exact Or.inr (Or.inr ⟨rfl, normalized, named, _, (members _).mpr (Or.inr rfl), rfl,
              rfl, rfl⟩)
        · obtain ⟨failure, refused⟩ | ⟨next, id, inserted, members⟩ :=
            insertToken_cases (mintedRow hash token now normalized ttl) links
          · rw [answer_of_error refused, effect_of_error refused]
            exact Or.inl ⟨⟨_, rfl⟩, rfl⟩
          · rw [answer_of_ok inserted, effect_of_ok inserted]
            exact Or.inr ⟨rfl, normalized, _, rfl, rfl, rfl, rfl, members⟩
  · cases ended
  · cases ended

end Statement

/-! ## What holds along a run -/

/-- The store does not fail. -/
def Unfailing (event : LinkEvent) : Prop :=
  ∀ id failure, event ≠ .fail id failure

section Runs

variable (hash : String → Bytes)

/-- Every row was minted, every call has come as far as it says, and a token is
consumed once. -/
structure Honest (service : LinkService) : Prop where
  rows : ∀ row ∈ service.store, ∃ id email ttl token now,
    service.calls id =
        some ⟨.mint email ttl token now, .done (.minted (.ok token))⟩ ∧
      row.tokenHash = hash token ∧ normalizeEmail email = some row.email ∧
      row.expiresAt = now + ttl
  mints : ∀ id email ttl token now rest,
    service.calls id = some ⟨.mint email ttl token now, rest⟩ →
      Minting hash service.store email ttl token now rest
  consumes : ∀ id token now rest,
    service.calls id = some ⟨.consume token now, rest⟩ →
      Consuming hash service.store token now rest
  once : ∀ id other token now later email otherEmail,
    service.calls id =
        some ⟨.consume token now, .done (.consumed (.ok (.consumed email)))⟩ →
      service.calls other =
          some ⟨.consume token later, .done (.consumed (.ok (.consumed otherEmail)))⟩ →
        id = other

variable {hash}

theorem honest_idle : Honest hash (.idle .empty) := by
  constructor
  · intro row member
    exact absurd member (Table.not_mem_empty row)
  · nofun
  · nofun
  · nofun

variable {service next : LinkService}

/-- A new call has not begun. -/
theorem Honest.start (held : Honest hash service) {id : Nat} {request : Request}
    (taken : step (serve hash) service (.start id request) = some next) : Honest hash next := by
  obtain ⟨fresh, rfl⟩ := step_start_eq_some.mp taken
  have begun : ∀ {other token now email},
      (service.put id ⟨request, serve hash request⟩).calls other =
          some ⟨.consume token now, .done (.consumed (.ok (.consumed email)))⟩ →
        service.calls other =
          some ⟨.consume token now, .done (.consumed (.ok (.consumed email)))⟩ := by
    intro other token now email found
    obtain ⟨-, new⟩ | ⟨-, before⟩ := (calls_put_eq_some ..).mp found
    · obtain ⟨rfl, rest⟩ := Call.mk.inj new
      rw [serve_consume] at rest
      cases rest
    · exact before
  constructor
  · intro row member
    obtain ⟨mintId, email, ttl, token, now, minted, facts⟩ := held.rows row member
    refine ⟨mintId, email, ttl, token, now, (calls_put_eq_some ..).mpr (Or.inr ⟨?_, minted⟩),
      facts⟩
    rintro rfl
    cases fresh.symm.trans minted
  · intro other email ttl token now rest found
    obtain ⟨-, new⟩ | ⟨-, before⟩ := (calls_put_eq_some ..).mp found
    · obtain ⟨rfl, rfl⟩ := Call.mk.inj new
      exact Or.inl rfl
    · exact held.mints other email ttl token now rest before
  · intro other token now rest found
    obtain ⟨-, new⟩ | ⟨-, before⟩ := (calls_put_eq_some ..).mp found
    · obtain ⟨rfl, rfl⟩ := Call.mk.inj new
      exact Or.inl rfl
    · exact held.consumes other token now rest before
  · intro one other token now later email otherEmail first second
    exact held.once one other token now later email otherEmail (begun first) (begun second)

section Execute

variable {id : Nat} {site : Site} {β : Type}
  {statement : Links → Except DbError (β × Links)}
  {rest : Except DbError β → Program Links Site DbError Reply}

/-- A mint that runs its insert. -/
theorem Honest.executeMint (held : Honest hash service) {email : String} {ttl : Int}
    {token : String} {now : Timestamp}
    (found : service.calls id = some ⟨.mint email ttl token now, .atomic site statement rest⟩) :
    Honest hash { service.put id ⟨.mint email ttl token now,
      rest (answer statement service.store)⟩ with store := effect statement service.store } := by
  obtain ⟨going, grows, outcome⟩ := (held.mints id email ttl token now _ found).executes
  have old : ∀ {mintId request reply},
      service.calls mintId = some ⟨request, .done reply⟩ →
        (service.put id ⟨.mint email ttl token now,
          rest (answer statement service.store)⟩).calls mintId =
            some ⟨request, .done reply⟩ := by
    intro mintId request reply answered
    refine (calls_put_eq_some ..).mpr (Or.inr ⟨?_, answered⟩)
    rintro rfl
    cases found.symm.trans answered
  have before : ∀ {other named at_ reply},
      (service.put id ⟨.mint email ttl token now,
          rest (answer statement service.store)⟩).calls other =
          some ⟨.consume named at_, reply⟩ →
        service.calls other = some ⟨.consume named at_, reply⟩ := by
    intro other named at_ reply at_other
    obtain ⟨-, new⟩ | ⟨-, before⟩ := (calls_put_eq_some ..).mp at_other
    · cases (Call.mk.inj new).1
    · exact before
  constructor
  · intro row member
    have minted : row ∈ service.store ∨
        rest (answer statement service.store) = .done (.minted (.ok token)) ∧
          row.tokenHash = hash token ∧ normalizeEmail email = some row.email ∧
          row.expiresAt = now + ttl := by
      obtain ⟨-, same⟩ | ⟨ended, normalized, new, named, hashed, mail, expires, members⟩ := outcome
      · rw [same] at member
        exact Or.inl member
      · rcases (members row).mp member with present | rfl
        · exact Or.inl present
        · exact Or.inr ⟨ended, hashed, mail ▸ named, expires⟩
    rcases minted with present | ⟨ended, facts⟩
    · obtain ⟨mintId, raw, life, other, at_, minted, facts⟩ := held.rows row present
      exact ⟨mintId, raw, life, other, at_, old minted, facts⟩
    · refine ⟨id, email, ttl, token, now, ?_, facts⟩
      rw [← ended]
      exact calls_put_self service id _
  · intro other raw life named at_ reply at_other
    obtain ⟨-, new⟩ | ⟨-, before⟩ := (calls_put_eq_some ..).mp at_other
    · obtain ⟨same, rfl⟩ := Call.mk.inj new
      cases same
      exact going
    · exact (held.mints other raw life named at_ reply before).grows grows
  · intro other named at_ reply at_other
    exact (held.consumes other named at_ reply (before at_other)).grows grows
  · intro one other named at_ later mail otherMail first second
    exact held.once one other named at_ later mail otherMail (before first) (before second)

/-- A consume that reads or spends. -/
theorem Honest.executeConsume (held : Honest hash service) {token : String} {now : Timestamp}
    (found : service.calls id = some ⟨.consume token now, .atomic site statement rest⟩) :
    Honest hash { service.put id ⟨.consume token now,
      rest (answer statement service.store)⟩ with store := effect statement service.store } := by
  have going := held.consumes id token now _ found
  have grows := going.grows_executes
  obtain ⟨progress, outcome⟩ := going.executes
  -- a row is one of the old rows, spent or not
  have rows : ∀ row ∈ effect statement service.store,
      ∃ old ∈ service.store, SameLink old row := by
    intro row member
    obtain ⟨same, -⟩ | ⟨spent, -, -, -, rows, -⟩ := outcome
    · rw [same] at member
      exact ⟨row, member, .refl row⟩
    · rw [Table.mem_def, rows] at member
      obtain ⟨old, present, rfl⟩ := List.mem_map.mp member
      exact ⟨old, present, sameLink_spend spent.id now old⟩
  -- who wins spends a row that no earlier winner's row can be
  have alone : ∀ {other later mail otherMail},
      rest (answer statement service.store) = .done (.consumed (.ok (.consumed mail))) →
        service.calls other ≠
          some ⟨.consume token later, .done (.consumed (.ok (.consumed otherMail)))⟩ := by
    intro other later mail otherMail won earlier
    obtain ⟨-, lost⟩ | ⟨row, member, hashed, unused, -, -⟩ := outcome
    · exact lost mail won
    · obtain waiting | ⟨_, _, _, _, ended⟩ | ended | ⟨_, _, _, ended⟩ |
        ⟨spent, present, same, -, used, -⟩ := held.consumes other token later _ earlier
      · rw [serve_consume] at waiting
        cases waiting
      · cases ended
      · cases ended
      · cases ended
      · have one : spent = row :=
          Table.eq_of_conflict MagicLinkToken.conflict_symm present member
            (Or.inr (same.trans hashed.symm))
        exact used (one ▸ unused)
  constructor
  · intro row member
    obtain ⟨old, present, same⟩ := rows row member
    obtain ⟨mintId, email, ttl, named, at_, minted, hashed, mail, expires⟩ :=
      held.rows old present
    refine ⟨mintId, email, ttl, named, at_,
      (calls_put_eq_some ..).mpr (Or.inr ⟨?_, minted⟩), same.tokenHash.trans hashed, ?_,
      same.expiresAt.trans expires⟩
    · rintro rfl
      cases found.symm.trans minted
    · rw [same.email]
      exact mail
  · intro other email ttl named at_ reply at_other
    obtain ⟨-, new⟩ | ⟨-, before⟩ := (calls_put_eq_some ..).mp at_other
    · cases (Call.mk.inj new).1
    · exact (held.mints other email ttl named at_ reply before).grows grows
  · intro other named at_ reply at_other
    obtain ⟨-, new⟩ | ⟨-, before⟩ := (calls_put_eq_some ..).mp at_other
    · obtain ⟨same, rfl⟩ := Call.mk.inj new
      cases same
      exact progress
    · exact (held.consumes other named at_ reply before).grows grows
  · intro one other named at_ later mail otherMail first second
    obtain ⟨rfl, new⟩ | ⟨apart, before⟩ := (calls_put_eq_some ..).mp first <;>
      obtain ⟨rfl, new'⟩ | ⟨apart', before'⟩ := (calls_put_eq_some ..).mp second
    · rfl
    · obtain ⟨same, won⟩ := Call.mk.inj new
      cases same
      exact absurd before' (alone won)
    · obtain ⟨same, won⟩ := Call.mk.inj new'
      cases same
      exact absurd before (alone won)
    · exact held.once one other named at_ later mail otherMail before before'

end Execute

/-- One step of unfailing mints and consumes. -/
theorem Honest.kept (held : Honest hash service) {event : LinkEvent}
    (sound : Unfailing event) (taken : step (serve hash) service event = some next) :
    Honest hash next := by
  cases event with
  | start id request => exact held.start taken
  | execute id =>
      obtain ⟨request, site, β, statement, rest, found, rfl⟩ := step_execute_eq_some.mp taken
      cases request with
      | mint email ttl token now => exact held.executeMint found
      | consume token now => exact held.executeConsume found
  | fail id failure => exact absurd rfl (sound id failure)

theorem Honest.run (held : Honest hash service) {events : List LinkEvent}
    (sound : ∀ event ∈ events, Unfailing event)
    (ran : runFrom (step (serve hash)) service events = some next) :
    Honest hash next := by
  induction events generalizing service with
  | nil =>
      cases ran
      exact held
  | cons event rest ih =>
      obtain ⟨middle, taken, ran⟩ := runFrom_cons_eq_some.mp ran
      exact ih (held.kept (sound event (by simp)) taken)
        (fun event member => sound event (by simp [member])) ran

end Runs

/-! ## One token's calls by themselves -/

/-- The row of a token, as a consume selects it. -/
def selected (tokenHash : Bytes) (links : Links) : Option MagicLinkToken :=
  links.rows.find? fun row => row.tokenHash = tokenHash

/-- A row without the number the table gave it. -/
def unnumbered (row : MagicLinkToken) : MagicLinkToken :=
  { row with id := 0 }

section Selected

variable {links next : Links} {tokenHash : Bytes} {row : MagicLinkToken}

theorem selected_eq_some :
    selected tokenHash links = some row ↔ row ∈ links ∧ row.tokenHash = tokenHash := by
  constructor
  · intro found
    exact ⟨List.mem_of_find?_eq_some found, by simpa using List.find?_some found⟩
  · rintro ⟨member, hashed⟩
    cases found : selected tokenHash links with
    | none =>
        have absent := List.find?_eq_none.mp found row member
        simp [hashed] at absent
    | some other =>
        have present : other ∈ links := List.mem_of_find?_eq_some found
        have same : other.tokenHash = tokenHash := by simpa using List.find?_some found
        rw [Table.eq_of_conflict MagicLinkToken.conflict_symm present member
          (Or.inr (same.trans hashed.symm))]

/-- Rows that differ in their number only say the same. -/
theorem eq_of_unnumbered {first second : MagicLinkToken}
    (same : unnumbered first = unnumbered second) :
    first.email = second.email ∧ first.usedAt = second.usedAt ∧
      first.expiresAt = second.expiresAt := by
  simp only [unnumbered, MagicLinkToken.mk.injEq] at same
  exact ⟨same.2.2.1, same.2.2.2.2.1, same.2.2.2.1⟩

theorem selected_eq_none :
    selected tokenHash links = none ↔ ∀ row ∈ links, row.tokenHash ≠ tokenHash := by
  simp [selected, Table.mem_def]

/-- An insert goes through exactly when the token has no row yet. -/
theorem insertToken_of_selected (row : MagicLinkToken) (links : Links) :
    selected row.tokenHash links = none ∧
        (∃ next id, insertToken row links = .ok ((), next) ∧
          next.rows = links.rows ++ [{ row with id }]) ∨
      selected row.tokenHash links ≠ none ∧
        insertToken row links = .error .uniqueViolation := by
  unfold insertToken
  cases found : selected row.tokenHash links with
  | none =>
      have free : ∀ old ∈ links, ¬ old.Conflict
          { row with id := Database.nextId (links.rows.map MagicLinkToken.id) } := by
        rintro old member (same | same)
        · have below : old.id < Database.nextId (links.rows.map MagicLinkToken.id) :=
            Database.lt_nextId (List.mem_map_of_mem member)
          exact absurd same (ne_of_lt below)
        · exact selected_eq_none.mp found old member same
      obtain ⟨next, inserted⟩ := Table.insert?_isSome free
      refine Or.inl ⟨rfl, next, _, ?_, (Table.insert?_eq_some.mp inserted).2⟩
      simp only [inserted]
  | some old =>
      obtain ⟨member, hashed⟩ := selected_eq_some.mp found
      refine Or.inr ⟨Option.some_ne_none old, ?_⟩
      cases inserted : links.insert?
          { row with id := Database.nextId (links.rows.map MagicLinkToken.id) } with
      | none => rfl
      | some next =>
          exact absurd (Or.inr hashed) ((Table.insert?_eq_some.mp inserted).1 old member)

/-- What a mint does to the row of a token. -/
theorem selected_effect_insertToken (row : MagicLinkToken) (links : Links)
    (tokenHash : Bytes) :
    (selected tokenHash (effect (insertToken row) links)).map unnumbered =
      ((selected tokenHash links).map unnumbered).or
        (if row.tokenHash = tokenHash then some (unnumbered row) else none) := by
  obtain ⟨absent, next, id, inserted, rows⟩ | ⟨present, refused⟩ :=
    insertToken_of_selected row links
  · rw [effect_of_ok inserted]
    simp only [selected, rows, List.find?_append, Option.map_or]
    by_cases here : row.tokenHash = tokenHash
    · simp [here, unnumbered]
    · simp [here]
  · rw [effect_of_error refused]
    by_cases here : row.tokenHash = tokenHash
    · obtain ⟨old, found⟩ := Option.ne_none_iff_exists'.mp (here ▸ present)
      simp [found]
    · simp [here]

/-- What a spend does to the row of a token. -/
theorem selected_effect_spendToken (id : Int) (now : Timestamp) :
    selected tokenHash (effect (spendToken id now) links) =
      (selected tokenHash links).map (spend id now) := by
  have kept : (fun row => decide (row.tokenHash = tokenHash)) ∘ spend id now =
      fun row => decide (row.tokenHash = tokenHash) := by
    funext row
    simp
  rw [selected, rows_effect_spendToken, List.find?_map, kept, selected]

end Selected

section Alone

variable (hash : String → Bytes) (token : String)

/-- Two programs of one call about the token, on two tables that number its row
differently. -/
def Alike (links others : Links) (rest rest' : Program Links Site DbError Reply) : Prop :=
  (∃ request : Request, request.token = token ∧ rest = serve hash request ∧
      rest' = serve hash request) ∨
    (∃ row row' now, selected (hash token) links = some row ∧
      selected (hash token) others = some row' ∧ row.email = row'.email ∧
      rest = spending row.id row.email now ∧ rest' = spending row'.id row'.email now) ∨
    ∃ reply, rest = .done reply ∧ rest' = .done reply

/-- The second service serves the calls about the token as the first does. -/
structure Mirrors (tokenOf : Nat → String) (service alone : LinkService) : Prop where
  link : (selected (hash token) service.store).map unnumbered =
    (selected (hash token) alone.store).map unnumbered
  calls : ∀ id, tokenOf id = token →
    Option.Rel (fun call call' => call.request = call'.request ∧
        Alike hash token service.store alone.store call.rest call'.rest)
      (service.calls id) (alone.calls id)

variable {hash token} {tokenOf : Nat → String} {service alone next : LinkService}

theorem Alike.grows {links next others next' : Links}
    {rest rest' : Program Links Site DbError Reply}
    (alike : Alike hash token links others rest rest') (grows : Grows links next)
    (grows' : Grows others next') : Alike hash token next next' rest rest' := by
  obtain waiting | ⟨row, row', now, found, found', email, rfl, rfl⟩ | ended := alike
  · exact Or.inl waiting
  · obtain ⟨member, hashed⟩ := selected_eq_some.mp found
    obtain ⟨member', hashed'⟩ := selected_eq_some.mp found'
    obtain ⟨later, present, same⟩ := grows row member
    obtain ⟨later', present', same'⟩ := grows' row' member'
    refine Or.inr (Or.inl ⟨later, later', now,
      selected_eq_some.mpr ⟨present, same.tokenHash.trans hashed⟩,
      selected_eq_some.mpr ⟨present', same'.tokenHash.trans hashed'⟩, ?_, ?_, ?_⟩)
    · rw [same.email, same'.email, email]
    · rw [same.id, same.email]
    · rw [same'.id, same'.email]
  · exact Or.inr (Or.inr ended)

/-- Both sides execute the next statement of a call about the token. -/
theorem Alike.executes {links others : Links} {site : Site} {β : Type}
    {statement : Links → Except DbError (β × Links)}
    {rest : Except DbError β → Program Links Site DbError Reply}
    {program : Program Links Site DbError Reply}
    (alike : Alike hash token links others (.atomic site statement rest) program)
    (link : (selected (hash token) links).map unnumbered =
      (selected (hash token) others).map unnumbered) :
    ∃ (site' : Site) (β' : Type) (statement' : Links → Except DbError (β' × Links))
      (rest' : Except DbError β' → Program Links Site DbError Reply),
      program = .atomic site' statement' rest' ∧
        (selected (hash token) (effect statement links)).map unnumbered =
          (selected (hash token) (effect statement' others)).map unnumbered ∧
        Grows links (effect statement links) ∧ Grows others (effect statement' others) ∧
        Alike hash token (effect statement links) (effect statement' others)
          (rest (answer statement links)) (rest' (answer statement' others)) := by
  obtain ⟨request, about, waiting, rfl⟩ | ⟨row, row', now, found, found', email, shape, rfl⟩ |
    ⟨reply, ended, -⟩ := alike
  · cases request with
    | mint mail ttl named now =>
        obtain rfl : named = token := about
        rw [serve_mint] at waiting ⊢
        cases normalized : normalizeEmail mail with
        | none =>
            rw [normalized] at waiting
            cases waiting
        | some normal =>
            rw [normalized] at waiting
            cases waiting
            refine ⟨_, _, _, _, rfl, ?_, grows_effect_insertToken _ links,
              grows_effect_insertToken _ others, ?_⟩
            · rw [selected_effect_insertToken, selected_effect_insertToken, link]
            · have empty : selected (hash named) links = none ↔
                  selected (hash named) others = none := by
                rw [← Option.map_eq_none_iff (f := unnumbered), link, Option.map_eq_none_iff]
              refine Or.inr (Or.inr ?_)
              obtain ⟨absent, after, id, inserted, -⟩ | ⟨present, refused⟩ :=
                insertToken_of_selected (mintedRow hash named now normal ttl) links <;>
              obtain ⟨absent', after', id', inserted', -⟩ | ⟨present', refused'⟩ :=
                insertToken_of_selected (mintedRow hash named now normal ttl) others
              · rw [answer_of_ok inserted, answer_of_ok inserted']
                exact ⟨_, rfl, rfl⟩
              · exact absurd (empty.mp absent) present'
              · exact absurd (empty.mpr absent') present
              · rw [answer_of_error refused, answer_of_error refused']
                exact ⟨_, rfl, rfl⟩
    | consume named now =>
        obtain rfl : named = token := about
        rw [serve_consume] at waiting ⊢
        cases waiting
        refine ⟨_, _, _, _, rfl, link, .refl links, .refl others, ?_⟩
        rw [answer_selectToken, answer_selectToken, effect_selectToken, effect_selectToken]
        change Alike hash named links others (afterSelect now (.ok (selected (hash named) links)))
          (afterSelect now (.ok (selected (hash named) others)))
        cases found : selected (hash named) links with
        | none =>
            rw [found, Option.map_none, eq_comm, Option.map_eq_none_iff] at link
            rw [link]
            exact Or.inr (Or.inr ⟨_, rfl, rfl⟩)
        | some row =>
            rw [found, Option.map_some, eq_comm, Option.map_eq_some_iff] at link
            obtain ⟨row', found', same⟩ := link
            obtain ⟨email, used, expires⟩ := eq_of_unnumbered same
            rw [found']
            simp only [afterSelect, used, expires]
            split
            · exact Or.inr (Or.inr ⟨_, rfl, by rw [email]⟩)
            · exact Or.inr (Or.inl ⟨row, row', now, found, found', email.symm, rfl, rfl⟩)
  · cases shape
    obtain ⟨member, -⟩ := selected_eq_some.mp found
    obtain ⟨member', -⟩ := selected_eq_some.mp found'
    rw [found, found', Option.map_some, Option.map_some, Option.some.injEq] at link
    obtain ⟨-, used, -⟩ := eq_of_unnumbered link
    refine ⟨_, _, _, _, rfl, ?_, grows_effect_spendToken row.id now links,
      grows_effect_spendToken row'.id now others, ?_⟩
    · rw [selected_effect_spendToken, selected_effect_spendToken, found, found']
      simp only [Option.map_some, Option.some.injEq, spend, true_and, used]
      split
      · simpa [unnumbered, used] using link
      · exact link
    · rw [answer_spendToken, answer_spendToken]
      simp only [afterSpend, countP_spendToken member, countP_spendToken member', used, email]
      exact Or.inr (Or.inr ⟨_, rfl, rfl⟩)
  · cases ended

/-- The row of a token is moved by calls about that token only. -/
theorem Honest.selected_of_ne (held : Honest hash service)
    (injective : Function.Injective hash) {id : Nat} {request : Request} {site : Site}
    {β : Type} {statement : Links → Except DbError (β × Links)}
    {rest : Except DbError β → Program Links Site DbError Reply}
    (found : service.calls id = some ⟨request, .atomic site statement rest⟩)
    (apart : request.token ≠ token) :
    selected (hash token) (effect statement service.store) =
        selected (hash token) service.store ∧
      Grows service.store (effect statement service.store) := by
  cases request with
  | mint email ttl named now =>
      obtain ⟨-, grows, outcome⟩ := (held.mints id email ttl named now _ found).executes
      refine ⟨?_, grows⟩
      obtain ⟨-, same⟩ | ⟨-, normalized, row, -, hashed, -, -, members⟩ := outcome
      · rw [same]
      · apply Option.ext
        intro other
        rw [selected_eq_some, selected_eq_some, members]
        constructor
        · rintro ⟨present | rfl, mine⟩
          · exact ⟨present, mine⟩
          · exact absurd (injective (hashed.symm.trans mine)) apart
        · rintro ⟨present, mine⟩
          exact ⟨Or.inl present, mine⟩
  | consume named now =>
      have going := held.consumes id named now _ found
      refine ⟨?_, going.grows_executes⟩
      obtain ⟨-, ⟨same, -⟩ | ⟨row, member, hashed, -, rows, -⟩⟩ := going.executes
      · rw [same]
      · have spent : effect statement service.store =
            effect (spendToken row.id now) service.store := Table.ext_rows rows
        rw [spent, selected_effect_spendToken]
        cases mine : selected (hash token) service.store with
        | none => rfl
        | some other =>
            obtain ⟨present, hashed'⟩ := selected_eq_some.mp mine
            have different : other.id ≠ row.id := by
              intro same
              have one : other = row :=
                Table.eq_of_conflict MagicLinkToken.conflict_symm present member (Or.inl same)
              rw [one, hashed] at hashed'
              exact apart (injective hashed')
            rw [Option.map_some, spend_of_ne row.id now different]

/-- A call is filed under a name of its token. -/
def Named (tokenOf : Nat → String) (event : LinkEvent) : Prop :=
  ∀ id request, event = .start id request → request.token = tokenOf id

/-- Every call in progress is. -/
def AllNamed (tokenOf : Nat → String) (service : LinkService) : Prop :=
  ∀ id call, service.calls id = some call → call.request.token = tokenOf id

theorem AllNamed.kept (all : AllNamed tokenOf service) {event : LinkEvent}
    (named : Named tokenOf event) (taken : step (serve hash) service event = some next) :
    AllNamed tokenOf next := by
  intro id call found
  by_cases own : id = event.call
  · subst own
    cases event with
    | start id request =>
        obtain ⟨-, rfl⟩ := step_start_eq_some.mp taken
        cases (calls_put_self service id _).symm.trans found
        exact named id request rfl
    | execute id =>
        obtain ⟨request, site, β, statement, rest, here, rfl⟩ := step_execute_eq_some.mp taken
        cases (calls_put_self service id _).symm.trans found
        exact all id ⟨request, .atomic site statement rest⟩ here
    | fail id failure =>
        obtain ⟨request, site, β, statement, rest, here, rfl⟩ := step_fail_eq_some.mp taken
        cases (calls_put_self service id _).symm.trans found
        exact all id ⟨request, .atomic site statement rest⟩ here
  · rw [calls_of_step taken own] at found
    exact all id call found

theorem rel_mono {α β : Type 1} {R S : α → β → Prop} {first : Option α} {second : Option β}
    (related : Option.Rel R first second) (implies : ∀ a b, R a b → S a b) :
    Option.Rel S first second := by
  cases related with
  | some here => exact .some (implies _ _ here)
  | none => exact .none

/-- Another token's call leaves the mirror as it is. -/
theorem Mirrors.other (mirrors : Mirrors hash token tokenOf service alone)
    (held : Honest hash service) (all : AllNamed tokenOf service)
    (injective : Function.Injective hash) {event : LinkEvent} (unfailing : Unfailing event)
    (apart : tokenOf event.call ≠ token)
    (taken : step (serve hash) service event = some next) :
    Mirrors hash token tokenOf next alone := by
  have moved : selected (hash token) next.store = selected (hash token) service.store ∧
      Grows service.store next.store := by
    cases event with
    | start id request =>
        obtain ⟨-, rfl⟩ := step_start_eq_some.mp taken
        exact ⟨rfl, .refl _⟩
    | execute id =>
        obtain ⟨request, site, β, statement, rest, here, rfl⟩ := step_execute_eq_some.mp taken
        apply held.selected_of_ne injective here
        rw [all id _ here]
        exact apart
    | fail id failure => exact absurd rfl (unfailing id failure)
  constructor
  · rw [moved.1]
    exact mirrors.link
  · intro id mine
    have stays : id ≠ event.call := by
      rintro rfl
      exact apart mine
    rw [calls_of_step taken stays]
    apply rel_mono (mirrors.calls id mine)
    rintro call call' ⟨same, alike⟩
    exact ⟨same, alike.grows moved.2 (.refl _)⟩

/-- A call about the token is mirrored. -/
theorem Mirrors.own (mirrors : Mirrors hash token tokenOf service alone)
    {event : LinkEvent} (unfailing : Unfailing event) (named : Named tokenOf event)
    (mine : tokenOf event.call = token)
    (taken : step (serve hash) service event = some next) :
    ∃ after, step (serve hash) alone event = some after ∧
      Mirrors hash token tokenOf next after := by
  cases event with
  | start id request =>
      obtain ⟨fresh, rfl⟩ := step_start_eq_some.mp taken
      have related := mirrors.calls id mine
      rw [fresh] at related
      have fresh' : alone.calls id = none := by
        cases at_alone : alone.calls id with
        | none => rfl
        | some call =>
            rw [at_alone] at related
            cases related
      refine ⟨_, step_start_eq_some.mpr ⟨fresh', rfl⟩, mirrors.link, ?_⟩
      intro other about
      by_cases own : other = id
      · subst own
        rw [calls_put_self, calls_put_self]
        exact .some ⟨rfl, Or.inl ⟨request, (named other request rfl).trans mine, rfl, rfl⟩⟩
      · rw [calls_put_of_ne _ _ _ _ own, calls_put_of_ne _ _ _ _ own]
        exact mirrors.calls other about
  | execute id =>
      obtain ⟨request, site, β, statement, rest, here, rfl⟩ := step_execute_eq_some.mp taken
      have related := mirrors.calls id mine
      rw [here] at related
      cases at_alone : alone.calls id with
      | none =>
          rw [at_alone] at related
          cases related
      | some call =>
          rw [at_alone] at related
          obtain ⟨same, alike⟩ := Option.rel_some_some.mp related
          obtain ⟨site', β', statement', rest', shape, link, grows, grows', next⟩ :=
            alike.executes mirrors.link
          obtain ⟨request', rest⟩ := call
          dsimp only at same shape
          subst same shape
          refine ⟨_, step_execute_eq_some.mpr
            ⟨_, site', β', statement', rest', at_alone, rfl⟩, link, ?_⟩
          intro other about
          change Option.Rel _ ((service.put id _).calls other) ((alone.put id _).calls other)
          by_cases own : other = id
          · subst own
            rw [calls_put_self, calls_put_self]
            exact .some ⟨rfl, next⟩
          · rw [calls_put_of_ne _ _ _ _ own, calls_put_of_ne _ _ _ _ own]
            apply rel_mono (mirrors.calls other about)
            rintro call call' ⟨same, alike⟩
            exact ⟨same, alike.grows grows grows'⟩
  | fail id failure => exact absurd rfl (unfailing id failure)

/-- The calls about one token run as they would if there were no others. -/
theorem Mirrors.run (mirrors : Mirrors hash token tokenOf service alone)
    (held : Honest hash service) (all : AllNamed tokenOf service)
    (injective : Function.Injective hash) {events : List LinkEvent}
    (unfailing : ∀ event ∈ events, Unfailing event)
    (named : ∀ event ∈ events, Named tokenOf event)
    (ran : runFrom (step (serve hash)) service events = some next) :
    ∃ after, runFrom (step (serve hash)) alone
        (events.filter fun event => tokenOf event.call = token) = some after ∧
      Mirrors hash token tokenOf next after := by
  induction events generalizing service alone with
  | nil =>
      cases ran
      exact ⟨alone, rfl, mirrors⟩
  | cons event rest ih =>
      obtain ⟨middle, taken, ran⟩ := runFrom_cons_eq_some.mp ran
      have unfails := unfailing event (by simp)
      have names := named event (by simp)
      have unfailing' : ∀ later ∈ rest, Unfailing later :=
        fun later member => unfailing later (by simp [member])
      have named' : ∀ later ∈ rest, Named tokenOf later :=
        fun later member => named later (by simp [member])
      have held' := held.kept unfails taken
      have all' := all.kept names taken
      by_cases mine : tokenOf event.call = token
      · obtain ⟨after, moved, mirrors'⟩ := mirrors.own unfails names mine taken
        obtain ⟨last, ran', ends⟩ := ih mirrors' held' all' unfailing' named' ran
        refine ⟨last, ?_, ends⟩
        rw [List.filter_cons_of_pos (by simpa using mine)]
        exact runFrom_cons_eq_some.mpr ⟨after, moved, ran'⟩
      · have mirrors' := mirrors.other held all injective unfails mine taken
        obtain ⟨last, ran', ends⟩ := ih mirrors' held' all' unfailing' named' ran
        refine ⟨last, ?_, ends⟩
        rwa [List.filter_cons_of_neg (by simpa using mine)]

end Alone

/-! ## A link works once -/

section Once

variable {hash : String → Bytes} {service next : LinkService}

/-- No step takes a link away. -/
theorem Honest.grows (held : Honest hash service) {event : LinkEvent}
    (unfailing : Unfailing event) (taken : step (serve hash) service event = some next) :
    Grows service.store next.store := by
  cases event with
  | start id request =>
      obtain ⟨-, rfl⟩ := step_start_eq_some.mp taken
      exact .refl _
  | execute id =>
      obtain ⟨request, site, β, statement, rest, here, rfl⟩ := step_execute_eq_some.mp taken
      cases request with
      | mint email ttl token now =>
          exact (held.mints id email ttl token now _ here).executes.2.1
      | consume token now => exact (held.consumes id token now _ here).grows_executes
  | fail id failure => exact absurd rfl (unfailing id failure)

/-- A call that arrives once the token is filed will not miss it. -/
theorem Honest.finds (held : Honest hash service) {events : List LinkEvent}
    (unfailing : ∀ event ∈ events, Unfailing event)
    (ran : runFrom (step (serve hash)) service events = some next) {token : String}
    (filed : ∃ row ∈ service.store, row.tokenHash = hash token) {id : Nat}
    (waiting : ∀ now, service.calls id ≠
      some ⟨.consume token now, .done (.consumed (.ok .notFound))⟩) (now : Timestamp) :
    next.calls id ≠ some ⟨.consume token now, .done (.consumed (.ok .notFound))⟩ := by
  induction events generalizing service with
  | nil =>
      cases ran
      exact waiting now
  | cons event rest ih =>
      obtain ⟨middle, taken, ran⟩ := runFrom_cons_eq_some.mp ran
      have unfails := unfailing event (by simp)
      obtain ⟨row, member, hashed⟩ := filed
      obtain ⟨later, present, same⟩ := held.grows unfails taken row member
      refine ih (held.kept unfails taken)
        (fun later member => unfailing later (by simp [member])) ran
        ⟨later, present, same.tokenHash.trans hashed⟩ ?_
      intro clock missed
      by_cases own : id = event.call
      · subst own
        cases event with
        | start id request =>
            obtain ⟨-, rfl⟩ := step_start_eq_some.mp taken
            have begins := (calls_put_self service id _).symm.trans missed
            rw [Option.some.injEq, Call.mk.injEq] at begins
            obtain ⟨rfl, begins⟩ := begins
            rw [serve_consume] at begins
            cases begins
        | execute id =>
            obtain ⟨request, site, β, statement, reply, here, rfl⟩ :=
              step_execute_eq_some.mp taken
            have ends := (calls_put_self service id _).symm.trans missed
            rw [Option.some.injEq, Call.mk.injEq] at ends
            obtain ⟨rfl, ends⟩ := ends
            obtain begun | ⟨_, _, _, _, shape⟩ | ended | ⟨_, _, _, ended⟩ |
              ⟨_, _, _, _, _, ended⟩ := held.consumes id token clock _ here
            · rw [serve_consume] at begun
              cases begun
              have found : selected (hash token) service.store = some row :=
                selected_eq_some.mpr ⟨member, hashed⟩
              change afterSelect clock (.ok (selected (hash token) service.store)) = _ at ends
              rw [found, afterSelect] at ends
              split at ends
              · cases ends
              · cases ends
            · cases shape
              rw [answer_spendToken, afterSpend] at ends
              split at ends
              · cases ends
              · cases ends
            · cases ended
            · cases ended
            · cases ended
        | fail id failure => exact absurd rfl (unfails id failure)
      · rw [calls_of_step taken own] at missed
        exact waiting clock missed

/-- A call about the token changes a row only by consuming it. -/
theorem Honest.unchanged (held : Honest hash service) {id : Nat} {token : String}
    {now : Timestamp} {rest : Program Links Site DbError Reply}
    (found : service.calls id = some ⟨.consume token now, rest⟩)
    (taken : step (serve hash) service (.execute id) = some next) :
    next.store = service.store ∨ ∃ email,
      next.calls id = some ⟨.consume token now, .done (.consumed (.ok (.consumed email)))⟩ := by
  obtain ⟨request, site, β, statement, rest, here, rfl⟩ := step_execute_eq_some.mp taken
  cases here.symm.trans found
  obtain ⟨-, ⟨same, -⟩ | ⟨row, -, -, -, -, ends⟩⟩ :=
    (held.consumes id token now _ here).executes
  · exact Or.inl same
  · refine Or.inr ⟨row.email, ?_⟩
    rw [← ends]
    exact calls_put_self service id _

/-- A token is drawn by one mint. -/
def Distinct (events : List LinkEvent) : Prop :=
  ∀ id other email ttl token now otherEmail otherTtl later,
    .start id (.mint email ttl token now) ∈ events →
      .start other (.mint otherEmail otherTtl token later) ∈ events → id = other

/-- What becomes of the consumes of a run. -/
structure WorksOnce (hash : String → Bytes) (tokenOf : Nat → String)
    (events : List LinkEvent) (service : LinkService) : Prop where
  /-- At most one call consumes a token. -/
  once : ∀ id other token now later email otherEmail,
    service.answered? id =
        some (.consume token now, .consumed (.ok (.consumed email))) →
      service.answered? other =
          some (.consume token later, .consumed (.ok (.consumed otherEmail))) →
        id = other
  /-- It does so in time, and every call about a minted token names the address
  the token was minted for. -/
  minted : ∀ id token now reply mint raw ttl clock,
    service.answered? id = some (.consume token now, reply) →
      .start mint (.mint raw ttl token clock) ∈ events →
        reply = .consumed (.ok .notFound) ∨ ∃ email, normalizeEmail raw = some email ∧
          (reply = .consumed (.ok (.stale email)) ∨
            reply = .consumed (.ok (.consumed email)) ∧ now < clock + ttl)
  /-- A call that arrives once the token is out finds it. -/
  found : ∀ id token now reply mint raw ttl clock past later middle,
    service.answered? id = some (.consume token now, reply) →
      events = past ++ later → runFrom (step (serve hash)) (.idle .empty) past = some middle →
        middle.answered? mint = some (.mint raw ttl token clock, .minted (.ok token)) →
          middle.calls id = none → reply ≠ .consumed (.ok .notFound)
  /-- A string that is no minted token is not found. -/
  unminted : ∀ id token now reply,
    service.answered? id = some (.consume token now, reply) →
      (∀ mint raw ttl clock, .start mint (.mint raw ttl token clock) ∉ events) →
        reply = .consumed (.ok .notFound)
  /-- A call that does not consume its token changes no row. -/
  unchanged : ∀ id token now reply past later middle next,
    service.answered? id = some (.consume token now, reply) →
      (∀ email, reply ≠ .consumed (.ok (.consumed email))) →
        events = past ++ .execute id :: later →
          runFrom (step (serve hash)) (.idle .empty) past = some middle →
            step (serve hash) middle (.execute id) = some next → next.store = middle.store
  /-- The calls about one token end as they would if there were no others. -/
  alone : ∀ token, ∃ alone,
    runFrom (step (serve hash)) (.idle .empty)
        (events.filter fun event => tokenOf event.call = token) = some alone ∧
      ∀ id, tokenOf id = token → alone.answered? id = service.answered? id

theorem mirrors_idle (token : String) (tokenOf : Nat → String) :
    Mirrors hash token tokenOf (.idle .empty) (.idle .empty) :=
  ⟨rfl, fun _ _ => .none⟩

/-- Mirrored calls have answered alike. -/
theorem Mirrors.answered {token : String} {tokenOf : Nat → String} {alone : LinkService}
    (mirrors : Mirrors hash token tokenOf service alone) {id : Nat}
    (about : tokenOf id = token) : alone.answered? id = service.answered? id := by
  have related := mirrors.calls id about
  unfold Service.answered?
  cases here : service.calls id with
  | none =>
      cases there : alone.calls id with
      | none => rfl
      | some call =>
          rw [here, there] at related
          cases related
  | some call =>
      cases there : alone.calls id with
      | none =>
          rw [here, there] at related
          cases related
      | some call' =>
          rw [here, there] at related
          obtain ⟨request, rest⟩ := call
          obtain ⟨request', rest'⟩ := call'
          obtain ⟨same, alike⟩ := Option.rel_some_some.mp related
          dsimp only at same alike
          subst same
          obtain ⟨asked, -, rfl, rfl⟩ | ⟨row, row', now, -, -, -, rfl, rfl⟩ | ⟨reply, rfl, rfl⟩ :=
            alike
          · rfl
          · rfl
          · rfl

section Answers

variable {events : List LinkEvent} {id : Nat} {token : String} {now : Timestamp} {reply : Reply}

/-- A consume that has answered found no row, a row that was spent or late, or a row that
it spent in time. -/
theorem Honest.ended (held : Honest hash service)
    (answered : service.answered? id = some (.consume token now, reply)) :
    reply = .consumed (.ok .notFound) ∨
      ∃ row ∈ service.store, row.tokenHash = hash token ∧
        (reply = .consumed (.ok (.stale row.email)) ∨
          reply = .consumed (.ok (.consumed row.email)) ∧ now < row.expiresAt) := by
  obtain begun | ⟨_, _, _, _, shape⟩ | ended | ⟨row, member, hashed, ended⟩ |
    ⟨row, member, hashed, early, -, ended⟩ :=
      held.consumes id token now _ (answered?_eq_some.mp answered)
  · rw [serve_consume] at begun
    cases begun
  · cases shape
  · cases ended
    exact Or.inl rfl
  · cases ended
    exact Or.inr ⟨row, member, hashed, Or.inl rfl⟩
  · cases ended
    exact Or.inr ⟨row, member, hashed, Or.inr ⟨rfl, early⟩⟩

/-- A row of a token is one that a mint of the run has filed. -/
theorem Honest.minted_of_row (held : Honest hash service) (injective : Function.Injective hash)
    (ran : runFrom (step (serve hash)) (.idle .empty) events = some service)
    {row : MagicLinkToken} (member : row ∈ service.store) (hashed : row.tokenHash = hash token) :
    ∃ mint raw ttl clock, .start mint (.mint raw ttl token clock) ∈ events ∧
      normalizeEmail raw = some row.email ∧ row.expiresAt = clock + ttl := by
  obtain ⟨mint, raw, ttl, other, clock, filed, hashed', mail, expires⟩ := held.rows row member
  obtain rfl := injective (hashed'.symm.trans hashed)
  exact ⟨mint, raw, ttl, clock, start_mem_of_run ran filed, mail, expires⟩

/-- Where a token is drawn once, its row has the address and the time of its mint. -/
theorem Honest.row_of_mint (held : Honest hash service) (injective : Function.Injective hash)
    (distinct : Distinct events)
    (ran : runFrom (step (serve hash)) (.idle .empty) events = some service) {mint : Nat}
    {raw : String} {ttl : Int} {clock : Timestamp}
    (asked : .start mint (.mint raw ttl token clock) ∈ events) {row : MagicLinkToken}
    (member : row ∈ service.store) (hashed : row.tokenHash = hash token) :
    normalizeEmail raw = some row.email ∧ row.expiresAt = clock + ttl := by
  obtain ⟨other, raw', ttl', clock', asked', mail, expires⟩ :=
    held.minted_of_row injective ran member hashed
  obtain rfl := distinct mint other raw ttl token clock raw' ttl' clock' asked asked'
  obtain ⟨rest, here⟩ := request_of_start_mem ran asked
  obtain ⟨rest', here'⟩ := request_of_start_mem ran asked'
  cases here.symm.trans here'
  exact ⟨mail, expires⟩

/-- A call about a minted token names the address it was minted for, and consumes it only
in time. -/
theorem Honest.answers_minted (held : Honest hash service) (injective : Function.Injective hash)
    (distinct : Distinct events)
    (ran : runFrom (step (serve hash)) (.idle .empty) events = some service) {mint : Nat}
    {raw : String} {ttl : Int} {clock : Timestamp}
    (answered : service.answered? id = some (.consume token now, reply))
    (asked : .start mint (.mint raw ttl token clock) ∈ events) :
    reply = .consumed (.ok .notFound) ∨ ∃ email, normalizeEmail raw = some email ∧
      (reply = .consumed (.ok (.stale email)) ∨
        reply = .consumed (.ok (.consumed email)) ∧ now < clock + ttl) := by
  obtain missed | ⟨row, member, hashed, ended⟩ := held.ended answered
  · exact Or.inl missed
  · obtain ⟨mail, expires⟩ := held.row_of_mint injective distinct ran asked member hashed
    rw [expires] at ended
    exact Or.inr ⟨row.email, mail, ended⟩

/-- A string that no mint of the run drew is not found. -/
theorem Honest.answers_unminted (held : Honest hash service)
    (injective : Function.Injective hash)
    (ran : runFrom (step (serve hash)) (.idle .empty) events = some service)
    (answered : service.answered? id = some (.consume token now, reply))
    (absent : ∀ mint raw ttl clock, .start mint (.mint raw ttl token clock) ∉ events) :
    reply = .consumed (.ok .notFound) := by
  obtain missed | ⟨row, member, hashed, -⟩ := held.ended answered
  · exact missed
  · obtain ⟨mint, raw, ttl, clock, asked, -⟩ := held.minted_of_row injective ran member hashed
    exact absurd asked (absent mint raw ttl clock)

/-- A mint that has answered with its token has filed it. -/
theorem Honest.filed_of_answered (held : Honest hash service) {raw : String} {ttl : Int}
    {clock : Timestamp} (answered : service.answered? id =
      some (.mint raw ttl token clock, .minted (.ok token))) :
    ∃ row ∈ service.store, row.tokenHash = hash token := by
  obtain begun | ⟨error, ended⟩ | ⟨-, normalized, -, row, member, hashed, -⟩ :=
    held.mints id raw ttl token clock _ (answered?_eq_some.mp answered)
  · rw [serve_mint] at begun
    split at begun
    · cases begun
    · cases begun
  · cases ended
  · exact ⟨row, member, hashed⟩

/-- A call that arrives once the token is out finds it. -/
theorem Honest.answers_found (held : Honest hash service)
    (unfailing : ∀ event ∈ events, Unfailing event)
    (ran : runFrom (step (serve hash)) service events = some next) {mint : Nat} {raw : String}
    {ttl : Int} {clock : Timestamp}
    (minted : service.answered? mint = some (.mint raw ttl token clock, .minted (.ok token)))
    (fresh : service.calls id = none)
    (answered : next.answered? id = some (.consume token now, reply)) :
    reply ≠ .consumed (.ok .notFound) := by
  rintro rfl
  have waiting : ∀ now, service.calls id ≠
      some ⟨.consume token now, .done (.consumed (.ok .notFound))⟩ := by
    intro now
    rw [fresh]
    nofun
  exact held.finds unfailing ran (held.filed_of_answered minted) waiting now
    (answered?_eq_some.mp answered)

/-- A statement of a call that does not end in consuming its token changes no row. -/
theorem Honest.answers_unchanged (held : Honest hash service) {last : LinkService}
    (taken : step (serve hash) service (.execute id) = some next)
    (ran : runFrom (step (serve hash)) next events = some last)
    (answered : last.answered? id = some (.consume token now, reply))
    (lost : ∀ email, reply ≠ .consumed (.ok (.consumed email))) :
    next.store = service.store := by
  obtain ⟨request, site, β, statement, going, here, -⟩ := step_execute_eq_some.mp taken
  obtain ⟨rest, ends⟩ :=
    request_of_run (runFrom_cons_eq_some.mpr ⟨next, taken, ran⟩) here
  cases ends.symm.trans (answered?_eq_some.mp answered)
  obtain same | ⟨email, won⟩ := held.unchanged here taken
  · exact same
  · cases (answered_of_run ran won).symm.trans (answered?_eq_some.mp answered)
    exact absurd rfl (lost email)

end Answers

/-- For every interleaving of mints and consumes, statement by statement: a link
works once, in time, for the address it was minted for, and on its own. -/
theorem magic_link_works_once (injective : Function.Injective hash)
    {tokenOf : Nat → String} {events : List LinkEvent}
    (unfailing : ∀ event ∈ events, Unfailing event) (distinct : Distinct events)
    (named : ∀ event ∈ events, Named tokenOf event)
    (ran : runFrom (step (serve hash)) (.idle .empty) events = some service) :
    WorksOnce hash tokenOf events service := by
  have held : Honest hash service := honest_idle.run unfailing ran
  constructor
  · intro id other token now later email otherEmail first second
    exact held.once id other token now later email otherEmail
      (answered?_eq_some.mp first) (answered?_eq_some.mp second)
  · intro id token now reply mint raw ttl clock answered asked
    exact held.answers_minted injective distinct ran answered asked
  · intro id token now reply mint raw ttl clock past later middle answered split reached minted
      fresh
    subst split
    obtain ⟨middle', reached', ran⟩ := runFrom_append_eq_some.mp ran
    cases reached.symm.trans reached'
    have heldThen : Honest hash middle :=
      honest_idle.run (fun event member => unfailing event (by simp [member])) reached
    exact heldThen.answers_found (fun event member => unfailing event (by simp [member])) ran
      minted fresh answered
  · intro id token now reply answered absent
    exact held.answers_unminted injective ran answered absent
  · intro id token now reply past later middle next answered lost split reached taken
    subst split
    obtain ⟨middle', reached', rest⟩ := runFrom_append_eq_some.mp ran
    cases reached.symm.trans reached'
    obtain ⟨next', taken', ran⟩ := runFrom_cons_eq_some.mp rest
    cases taken.symm.trans taken'
    have heldThen : Honest hash middle :=
      honest_idle.run (fun event member => unfailing event (by simp [member])) reached
    exact heldThen.answers_unchanged taken ran answered lost
  · intro token
    obtain ⟨alone, ran', mirrors⟩ :=
      (mirrors_idle token tokenOf).run honest_idle nofun injective unfailing named ran
    exact ⟨alone, ran', fun id about => mirrors.answered about⟩

end Once

/-! ## Two clicks on one link -/

/-- One link is mailed, and two clicks on it race statement by statement. -/
def twoClicks : List LinkEvent :=
  [.start 0 (.mint " Alice@Example.com" 900 "t1" 0), .execute 0,
    .start 1 (.consume "t1" 10), .start 2 (.consume "t1" 11),
    .execute 1, .execute 2, .execute 2, .execute 1]

/-- The second click wins, and the first is told that the link is spent. -/
theorem magic_link_works_once_twoClicks :
    ∃ service, runFrom (step (serve utf8)) (.idle .empty) twoClicks = some service ∧
      service.answered? 2 =
        some (.consume "t1" 11, .consumed (.ok (.consumed "alice@example.com"))) ∧
      service.answered? 1 =
        some (.consume "t1" 10, .consumed (.ok (.stale "alice@example.com"))) ∧
      WorksOnce utf8 (fun _ => "t1") twoClicks service := by
  have won : (runFrom (step (serve utf8)) (.idle .empty) twoClicks).bind
      (fun service => service.answered? 2) =
        some (.consume "t1" 11, .consumed (.ok (.consumed "alice@example.com"))) := by
    decide +kernel
  have lost : (runFrom (step (serve utf8)) (.idle .empty) twoClicks).bind
      (fun service => service.answered? 1) =
        some (.consume "t1" 10, .consumed (.ok (.stale "alice@example.com"))) := by
    decide +kernel
  obtain ⟨service, ran, answered⟩ := Option.bind_eq_some_iff.mp won
  rw [ran, Option.bind_some] at lost
  have injective : Function.Injective utf8 := by
    intro first second same
    have read := congrArg fromUtf8 same
    simpa using read
  refine ⟨service, ran, answered, lost, magic_link_works_once injective ?_ ?_ ?_ ran⟩
  · intro event member id failure
    rintro rfl
    revert member
    simp [twoClicks]
  · intro id other email ttl token now otherEmail otherTtl later asked asked'
    simp [twoClicks] at asked asked'
    exact asked.1.trans asked'.1.symm
  · rintro event member id request rfl
    simp [twoClicks] at member
    obtain ⟨-, rfl⟩ | ⟨-, rfl⟩ | ⟨-, rfl⟩ := member <;> rfl

end TimeTracker.Server.MagicLink
