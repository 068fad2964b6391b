import TimeTracker.Server.Revocation

/-!
# One account for each address

Every lookup of an account goes through the normal form of an address, and a
normal form is its own.  So however an address is spelled when an account is
asked for, looked up, or named by a session's token, it is one row that is
found.
-/

namespace TimeTracker.Server.Addresses

open TimeTracker.Text
open TimeTracker.Date
open TimeTracker.Library.Atomic
open TimeTracker.Server.Schema
open TimeTracker.Server.Store
open TimeTracker.Server.Functions
open TimeTracker.Server.SessionToken
open TimeTracker.Server.Revocation

/-- The texts differ only in ASCII case and in the white space around them. -/
def Respelled (first second : String) : Prop :=
  ∃ before text after before' text' after', Blank before ∧ Blank after ∧ Blank before' ∧
    Blank after' ∧ first.toList = before ++ text ++ after ∧
    second.toList = before' ++ text' ++ after' ∧
    text.map Char.toLower = text'.map Char.toLower

theorem map_toLower_trim (chars : List Char) :
    (trim chars).map Char.toLower = trim (chars.map Char.toLower) :=
  (trim_map isWhitespace_toLower chars).symm

theorem Respelled.trim_eq {first second : String} (respelled : Respelled first second) :
    (trim first.toList).map Char.toLower = (trim second.toList).map Char.toLower := by
  obtain ⟨before, text, after, before', text', after', blank, blankAfter, blank', blankAfter',
    shape, shape', same⟩ := respelled
  rw [shape, shape', trim_append blank blankAfter, trim_append blank' blankAfter',
    map_toLower_trim, map_toLower_trim, same]

theorem Respelled.normalizeEmail_eq {first second : String}
    (respelled : Respelled first second) :
    normalizeEmail first = normalizeEmail second := by
  unfold normalizeEmail
  rw [respelled.trim_eq]

/-! ## Asking for accounts -/

/-- An account asked for under some spelling of its address. -/
structure Call where
  email : String
  now : Timestamp
  deriving DecidableEq, Repr

/-- The database after a call. -/
def after (db : Database) (call : Call) : Database :=
  effect (findOrCreate call.email call.now) db

/-- The database after the calls, in their order. -/
def afterAll (db : Database) (calls : List Call) : Database :=
  calls.foldl after db

/-- The account was created by a call for its address. -/
structure Created (call : Call) (user : User) : Prop where
  named : normalizeEmail call.email = some user.email
  createdAt : user.createdAt = call.now
  epoch : user.sessionEpoch = 0
  plain : user.encryptedAt = none

section Calls

variable {db : Database} {call : Call} {calls : List Call} {email : String} {user : User}

/-- An account that has an address keeps it. -/
theorem userByEmail_after (call : Call) (found : userByEmail db email = some user) :
    userByEmail (after db call) email = some user := by
  unfold after
  obtain ⟨-, refused⟩ | ⟨normalized, -, ⟨other, -, answered⟩ |
    ⟨-, next, answered, registered⟩⟩ := findOrCreate_cases call.email call.now db
  · rwa [effect_of_error refused]
  · rwa [effect_of_ok answered]
  · unfold userByEmail at found ⊢
    rw [effect_of_ok answered, registered.users, List.find?_append, found]
    rfl

/-- A call adds no account but the one it asks for. -/
theorem userByEmail_of_after (found : userByEmail (after db call) email = some user) :
    userByEmail db email = some user ∨
      userByEmail db email = none ∧ Created call user := by
  unfold after at found
  obtain ⟨-, refused⟩ | ⟨normalized, named, ⟨other, -, answered⟩ |
    ⟨-, next, answered, registered⟩⟩ := findOrCreate_cases call.email call.now db
  · rw [effect_of_error refused] at found
    exact Or.inl found
  · rw [effect_of_ok answered] at found
    exact Or.inl found
  · cases known : userByEmail db email with
    | some old =>
        have kept := userByEmail_after call known
        rw [after, found] at kept
        exact Or.inl kept.symm
    | none =>
        rw [effect_of_ok answered] at found
        obtain ⟨member, at_email⟩ := mem_of_userByEmail found
        rcases registered.mem_users.mp member with old | rfl
        · have search := userByEmail_of_mem old
          rw [at_email, known] at search
          cases search
        · exact Or.inr ⟨rfl, named, rfl, rfl, rfl⟩

/-- A call for an address is answered with the account that has it afterwards. -/
theorem findOrCreate_after (db : Database) (named : normalizeEmail call.email = some email) :
    ∃ user, findOrCreate call.email call.now db = .ok (user, after db call) ∧
      userByEmail (after db call) email = some user := by
  unfold after
  obtain ⟨refused, -⟩ | ⟨normalized, here, ⟨found, present, answered⟩ |
    ⟨-, next, answered, registered⟩⟩ := findOrCreate_cases call.email call.now db
  · cases refused.symm.trans named
  · cases here.symm.trans named
    rw [effect_of_ok answered]
    exact ⟨found, answered, present⟩
  · cases here.symm.trans named
    rw [effect_of_ok answered]
    exact ⟨_, answered, userByEmail_of_mem (registered.mem_users.mpr (Or.inr rfl))⟩

theorem userByEmail_afterAll (found : userByEmail db email = some user) :
    userByEmail (afterAll db calls) email = some user := by
  induction calls generalizing db with
  | nil => exact found
  | cons call rest ih => exact ih (userByEmail_after call found)

/-- Whoever has an address in the end had it before, or has it by the call that was the
first to ask for it. -/
theorem userByEmail_of_afterAll (found : userByEmail (afterAll db calls) email = some user) :
    userByEmail db email = some user ∨
      userByEmail db email = none ∧ ∃ call ∈ calls, Created call user := by
  induction calls generalizing db with
  | nil => exact Or.inl found
  | cons call rest ih =>
      rcases ih found with known | ⟨absent, maker, member, created⟩
      · rcases userByEmail_of_after known with old | ⟨none, created⟩
        · exact Or.inl old
        · exact Or.inr ⟨none, call, List.mem_cons_self .., created⟩
      · refine Or.inr ⟨?_, maker, List.mem_cons_of_mem _ member, created⟩
        cases known : userByEmail db email with
        | none => rfl
        | some old => cases absent.symm.trans (userByEmail_after call known)

/-- Among other calls too a call for an address is answered with the account that has it in
the end. -/
theorem findOrCreate_afterAll (db : Database) (past rest : List Call)
    (named : normalizeEmail call.email = some email) :
    ∃ user, answer (findOrCreate call.email call.now) (afterAll db past) = .ok user ∧
      userByEmail (afterAll db (past ++ call :: rest)) email = some user := by
  obtain ⟨user, answered, present⟩ := findOrCreate_after (afterAll db past) named
  refine ⟨user, answer_of_ok answered, ?_⟩
  have split : afterAll db (past ++ call :: rest) =
      afterAll (after (afterAll db past) call) rest := List.foldl_append
  rw [split]
  exact userByEmail_afterAll present

end Calls

/-! ## The account of an address -/

/-- The account is the only one of its address, whichever way it is come to. -/
structure OneAccount (db : Database) (calls : List Call) (email : String) (user : User) :
    Prop where
  /-- It is the one row that has the address. -/
  row : ∀ other, other ∈ (afterAll db calls).users ∧ other.email = email ↔ other = user
  /-- It was there before, or was created by one of the calls. -/
  made : userByEmail db email = some user ∨
    userByEmail db email = none ∧ ∃ call ∈ calls, Created call user
  /-- Every call for the address is answered with it. -/
  answered : ∀ past call rest, calls = past ++ call :: rest →
    normalizeEmail call.email = some email →
    answer (findOrCreate call.email call.now) (afterAll db past) = .ok user
  /-- It is found under the spellings of the address and under no others. -/
  found : ∀ spelling, findByEmail spelling (afterAll db calls) =
    .ok (some user, afterAll db calls) ↔ normalizeEmail spelling = some email
  /-- Those are also the ones a token can name it by. -/
  accepted : ∀ signing key spelling epoch issued now, Issuable epoch issued →
    (requireUserAt signing key (issueAt signing spelling epoch issued key) now
        (afterAll db calls) = .ok user ↔
      normalizeEmail spelling = some email ∧ epoch = user.sessionEpoch ∧
        issued ≤ now + SKEW_TOLERANCE_SECS ∧ now < issued + MAX_AGE_SECONDS)

section Accounts

variable {db : Database} {email : String} {user : User}

theorem findByEmail_eq_some (found : userByEmail db email = some user) {spelling : String} :
    findByEmail spelling db = .ok (some user, db) ↔ normalizeEmail spelling = some email := by
  unfold findByEmail
  constructor
  · intro answered
    split at answered
    · cases answered
    · next normalized named =>
        have search : userByEmail db normalized = some user := by simpa using answered
        rw [named, ← (mem_of_userByEmail search).2, (mem_of_userByEmail found).2]
  · intro named
    simp only [named, found]

theorem requireUserAt_issueAt (found : userByEmail db email = some user) {signing : Signing}
    {key : Bytes} {spelling : String} {epoch issued now : Int}
    (issuable : Issuable epoch issued) :
    requireUserAt signing key (issueAt signing spelling epoch issued key) now db = .ok user ↔
      normalizeEmail spelling = some email ∧ epoch = user.sessionEpoch ∧
        issued ≤ now + SKEW_TOLERANCE_SECS ∧ now < issued + MAX_AGE_SECONDS := by
  have claimed := claims_contextOf signing key now spelling issuable
  rw [requireUserAt_eq_ok]
  constructor
  · rintro ⟨claims, normalized, holds, named, search, same⟩
    rw [claimed] at holds
    split at holds
    · next inside =>
        cases holds
        refine ⟨?_, same.symm, inside⟩
        rw [named, ← (mem_of_userByEmail search).2, (mem_of_userByEmail found).2]
    · cases holds
  · rintro ⟨named, rfl, inside⟩
    refine ⟨{ email := spelling, epoch := user.sessionEpoch }, email, ?_, named, found, rfl⟩
    rw [claimed, if_pos inside]

/-- The account that has an address in the end is the only one it ever leads to. -/
theorem oneAccount_of_afterAll {calls : List Call}
    (found : userByEmail (afterAll db calls) email = some user) :
    OneAccount db calls email user := by
  constructor
  · intro other
    constructor
    · rintro ⟨member, rfl⟩
      exact Option.some.inj ((userByEmail_of_mem member).symm.trans found)
    · rintro rfl
      exact mem_of_userByEmail found
  · exact userByEmail_of_afterAll found
  · rintro past call rest rfl named
    obtain ⟨other, answered, kept⟩ := findOrCreate_afterAll db past rest named
    cases kept.symm.trans found
    exact answered
  · exact fun spelling => findByEmail_eq_some found
  · exact fun _ _ _ _ _ _ issuable => requireUserAt_issueAt found issuable

/-- Normalising is idempotent and yields addresses; it does not see case and white space
around; and an address that accounts are asked for, under any spellings, has one. -/
theorem one_account_per_address :
    (∀ raw email, normalizeEmail raw = some email →
      normalizeEmail email = some email ∧ Address email) ∧
    (∀ first second, Respelled first second →
      normalizeEmail first = normalizeEmail second) ∧
    ∀ db calls email, (∃ call ∈ calls, normalizeEmail call.email = some email) →
      ∃ user, OneAccount db calls email user := by
  refine ⟨?_, fun _ _ => Respelled.normalizeEmail_eq, ?_⟩
  · intro raw email normalized
    exact ⟨normalizeEmail_idem normalized, (normalizeEmail_eq_some.mp normalized).2⟩
  · rintro db calls email ⟨call, member, named⟩
    obtain ⟨past, rest, rfl⟩ := List.append_of_mem member
    obtain ⟨user, -, present⟩ := findOrCreate_afterAll db past rest named
    exact ⟨user, oneAccount_of_afterAll present⟩

/-- Alice asks twice, and Bob in between. -/
def askedTwice : List Call :=
  [⟨"  Alice@Example.COM \n", 3⟩, ⟨"bob@example.com", 4⟩, ⟨"alice@example.com", 5⟩]

theorem one_account_per_address_twice :
    ∃ user, OneAccount .empty askedTwice "alice@example.com" user :=
  one_account_per_address.2.2 .empty askedTwice "alice@example.com"
    ⟨_, List.mem_cons_self .., by decide⟩

end Accounts

end TimeTracker.Server.Addresses
