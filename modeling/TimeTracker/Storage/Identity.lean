import TimeTracker.Storage.Settles

/-!
# Noticing a new key

The load effect follows the key through a memo.  The memo is recomputed at some
moment after a publish, perhaps once for several of them, and the load re-runs when
the memo's value has changed.
-/

namespace TimeTracker.Storage.Identity

open TimeTracker.Library.Run
open TimeTracker.Tab.State
open TimeTracker.Storage.Settles

variable {K : Type}

/-- The context, and every identity the memo over it has computed, the newest first. -/
structure Watched (K : Type) where
  ctx : EncryptionCtx K
  computed : List KeyIdentity

inductive Event (K : Type)
  | publish (state : EncryptionState K)
  | recompute

/-- A page load before anything is published or computed. -/
def start (user : Option String) : Watched K :=
  { ctx := .probing user, computed := [] }

def step (watched : Watched K) : Event K → Option (Watched K)
  | .publish state => some { watched with ctx := watched.ctx.publish state }
  | .recompute =>
      some { watched with computed := keyIdentity watched.ctx :: watched.computed }

/-- A memo recomputed now has a new value, and re-runs the load. -/
def Watched.Notifies (watched : Watched K) : Prop :=
  watched.computed.head? ≠ some (keyIdentity watched.ctx)

theorem keyIdentity_eq_key {ctx : EncryptionCtx K} {n : Nat} :
    keyIdentity ctx = .key n ↔ ctx.state.key ≠ none ∧ ctx.keys = n := by
  unfold keyIdentity identityOf
  cases ctx.state.key <;> simp

/-- The identity of a state never runs ahead of the counter. -/
theorem le_keys_of_keyIdentity {ctx : EncryptionCtx K} {n : Nat}
    (same : keyIdentity ctx = .key n) : n ≤ ctx.keys :=
  Nat.le_of_eq (keyIdentity_eq_key.mp same).2.symm

theorem keys_le_keys_publish (ctx : EncryptionCtx K) (state : EncryptionState K) :
    ctx.keys ≤ (ctx.publish state).keys := by
  unfold EncryptionCtx.publish
  dsimp only
  split
  · exact Nat.le_succ _
  · exact Nat.le_refl _

/-- A state with a key takes the next number. -/
theorem keyIdentity_publish {state : EncryptionState K} (keyed : state.key ≠ none)
    (ctx : EncryptionCtx K) : keyIdentity (ctx.publish state) = .key (ctx.keys + 1) := by
  have isSome : state.key.isSome = true := Option.isSome_iff_ne_none.mpr keyed
  exact keyIdentity_eq_key.mpr ⟨keyed, by simp [EncryptionCtx.publish, isSome]⟩

section Runs

variable {watched next : Watched K} {event : Event K} {events : List (Event K)}

/-- No number beyond the counter has been computed. -/
def Counted (watched : Watched K) : Prop :=
  ∀ n, .key n ∈ watched.computed → n ≤ watched.ctx.keys

theorem keys_le_of_step (taken : step watched event = some next) :
    watched.ctx.keys ≤ next.ctx.keys := by
  cases event with
  | publish state =>
      cases taken
      exact keys_le_keys_publish watched.ctx state
  | recompute =>
      cases taken
      exact Nat.le_refl _

theorem keys_le_of_run (ran : runFrom step watched events = some next) :
    watched.ctx.keys ≤ next.ctx.keys := by
  refine invariant_runFrom (I := fun state => watched.ctx.keys ≤ state.ctx.keys) ?_
    (Nat.le_refl _) ran
  intro state event after held taken
  exact held.trans (keys_le_of_step taken)

theorem counted_step (counted : Counted watched) (taken : step watched event = some next) :
    Counted next := by
  cases event with
  | publish state =>
      cases taken
      exact fun n member => (counted n member).trans (keys_le_keys_publish watched.ctx state)
  | recompute =>
      cases taken
      intro n member
      rcases List.mem_cons.mp member with same | earlier
      · exact le_keys_of_keyIdentity same.symm
      · exact counted n earlier

theorem counted_run (counted : Counted watched) (ran : runFrom step watched events = some next) :
    Counted next :=
  invariant_runFrom (fun _ _ _ held taken => counted_step held taken) counted ran

/-- Publishes alone compute nothing, and number the key that is left, if one is, anew. -/
theorem publishes_of_run {states : List (EncryptionState K)}
    (ran : runFrom step watched (states.map .publish) = some next) :
    next.computed = watched.computed ∧
      (states ≠ [] → next.ctx.state.key ≠ none → watched.ctx.keys < next.ctx.keys) := by
  induction states generalizing watched with
  | nil =>
      cases ran
      exact ⟨rfl, fun some => absurd rfl some⟩
  | cons state rest ih =>
      obtain ⟨middle, taken, ran⟩ := runFrom_cons_eq_some.mp ran
      cases taken
      obtain ⟨computed, later⟩ := ih ran
      refine ⟨computed, fun _ keyed => ?_⟩
      cases rest with
      | nil =>
          cases ran
          have numbered := keyIdentity_publish keyed watched.ctx
          exact Nat.lt_of_succ_le (le_keys_of_keyIdentity numbered)
      | cons other rest =>
          exact (keys_le_keys_publish watched.ctx state).trans_lt (later nofun keyed)

/-- Recomputed again after some publishes, the memo re-runs the load exactly when
there was one and the page had a key at either moment. -/
theorem notifies_iff {states : List (EncryptionState K)}
    (ran : runFrom step watched (.recompute :: states.map .publish) = some next) :
    next.Notifies ↔
      states ≠ [] ∧ ¬ (watched.ctx.state.key = none ∧ next.ctx.state.key = none) := by
  obtain ⟨middle, taken, ran⟩ := runFrom_cons_eq_some.mp ran
  cases taken
  obtain ⟨computed, numbered⟩ := publishes_of_run ran
  unfold Watched.Notifies
  rw [computed, List.head?_cons, ne_eq, Option.some_inj]
  by_cases idle : states = []
  · subst idle
    cases ran
    simp
  · rw [and_iff_right idle, not_iff_not]
    constructor
    · intro same
      by_cases keyed : next.ctx.state.key = none
      · have none := keyIdentity_eq_noKey.mpr keyed
        exact ⟨keyIdentity_eq_noKey.mp (same.trans none), keyed⟩
      · have ahead := numbered idle keyed
        have behind := le_keys_of_keyIdentity
          (same.trans (keyIdentity_eq_key.mpr ⟨keyed, rfl⟩))
        exact absurd ahead (Nat.not_lt.mpr behind)
    · rintro ⟨before, after⟩
      rw [keyIdentity_eq_noKey.mpr before, keyIdentity_eq_noKey.mpr after]

/-- Whatever was published and whenever the memo was recomputed, a newly published key
has an identity nothing had before it, all states without a key have one identity, and
the load re-runs for a key and for nothing else. -/
theorem new_key_noticed (user : Option String) (past : List (Event K)) (now : Watched K)
    (ran : runFrom step (start user) past = some now) :
    (∀ key, keyIdentity (now.ctx.publish (.unlocked key)) ∉ now.computed ∧
      ∀ earlier later middle, past = earlier ++ later →
        runFrom step (start user) earlier = some middle →
          keyIdentity (now.ctx.publish (.unlocked key)) ≠ keyIdentity middle.ctx) ∧
    (∀ earlier later middle, past = earlier ++ later →
      runFrom step (start user) earlier = some middle →
        now.ctx.state.key = none → middle.ctx.state.key = none →
          keyIdentity now.ctx = keyIdentity middle.ctx) ∧
    ∀ states next, runFrom step now (.recompute :: states.map .publish) = some next →
      (next.Notifies ↔
        states ≠ [] ∧ ¬ (now.ctx.state.key = none ∧ next.ctx.state.key = none)) := by
  refine ⟨fun key => ?_, ?_, fun states next => notifies_iff⟩
  · have keyed : (EncryptionState.unlocked key).key ≠ none := Option.some_ne_none key
    rw [keyIdentity_publish keyed]
    constructor
    · intro member
      have counted : Counted (start user : Watched K) := fun _ none => absurd none List.not_mem_nil
      exact absurd (counted_run counted ran _ member) (Nat.not_succ_le_self _)
    · rintro earlier later middle rfl reached same
      obtain ⟨middle', reached', rest⟩ := runFrom_append_eq_some.mp ran
      cases reached.symm.trans reached'
      have behind := (le_keys_of_keyIdentity same.symm).trans (keys_le_of_run rest)
      exact Nat.not_succ_le_self _ behind
  · intro earlier later middle _ _ keyless keyless'
    rw [keyIdentity_eq_noKey.mpr keyless, keyIdentity_eq_noKey.mpr keyless']

end Runs

/-- A tab that is unlocked, then locked, its memo recomputed every time. -/
def relocked : List (Event Nat) :=
  [.recompute, .publish .locked, .recompute, .publish (.unlocked ⟨7, "alice@example.com", 0⟩),
    .recompute, .publish .locked, .recompute]

/-- The same key published again is noticed. -/
theorem new_key_noticed_relocked : ∃ now,
    runFrom step (start (some "alice@example.com")) relocked = some now ∧
      now.computed = [.noKey, .key 1, .noKey, .noKey] ∧
      keyIdentity (now.ctx.publish (.unlocked ⟨7, "alice@example.com", 0⟩)) ∉ now.computed := by
  obtain ⟨now, ran, computed⟩ : ∃ now,
      runFrom step (start (some "alice@example.com")) relocked = some now ∧
        now.computed = [.noKey, .key 1, .noKey, .noKey] := ⟨_, rfl, rfl⟩
  have noticed := new_key_noticed (some "alice@example.com") relocked now ran
  exact ⟨now, ran, computed, (noticed.1 _).1⟩

end TimeTracker.Storage.Identity
