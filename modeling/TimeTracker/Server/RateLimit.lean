import Mathlib.Data.Rat.Floor
import TimeTracker.Library.TokenBucket

/-!
# The rate limiters

A keyed token bucket, in exact arithmetic.  The clock is read before the lock is
taken, so calls may arrive with timestamps in any order; a bucket remembers the
timestamp of the last call, not the latest one.
-/

namespace TimeTracker.Server.RateLimit

open TimeTracker.Library.TokenBucket

/-! ## The limiter -/

def MAGIC_CAPACITY : Nat := 5
def MAGIC_REFILL_PER_SEC : ℚ := 1 / 30
def CEREMONY_CAPACITY : Nat := 30
def CEREMONY_REFILL_PER_SEC : ℚ := 1 / 5

structure Bucket where
  tokens : ℚ
  lastSeen : ℚ

/-- A keyed token-bucket limiter. -/
structure Limiter where
  capacity : ℚ
  refillPerSec : ℚ
  buckets : String → Option Bucket

/-- The largest `u32`. -/
def U32_MAX : Nat := 2 ^ 32 - 1

namespace Limiter

def new (capacity : Nat) (refillPerSec : ℚ) : Limiter where
  capacity := capacity
  refillPerSec := refillPerSec
  buckets := fun _ => none

/-- How long an exhausted bucket takes to hand back one token, in whole seconds.  The
conversion to `u32` saturates, and so it does on the reciprocal of zero. -/
def retryAfterSecs (limiter : Limiter) : Nat :=
  if limiter.refillPerSec = 0 then U32_MAX
  else min (max ⌈1 / limiter.refillPerSec⌉ 1).toNat U32_MAX

/-- The bucket under a key, a full one if there is none yet. -/
def bucket (limiter : Limiter) (key : String) (now : ℚ) : Bucket :=
  (limiter.buckets key).getD { tokens := limiter.capacity, lastSeen := now }

def insert (limiter : Limiter) (key : String) (bucket : Bucket) : Limiter :=
  { limiter with buckets := Function.update limiter.buckets key (some bucket) }

/-- Consumes one token for the key at this time; `false` when the bucket is empty. -/
def checkAt (limiter : Limiter) (key : String) (now : ℚ) : Bool × Limiter :=
  let bucket := limiter.bucket key now
  let elapsed := max (now - bucket.lastSeen) 0
  -- capped at the capacity: idling must not bank tokens without limit
  let tokens := min (bucket.tokens + elapsed * limiter.refillPerSec) limiter.capacity
  if 1 ≤ tokens then (true, limiter.insert key { tokens := tokens - 1, lastSeen := now })
  else (false, limiter.insert key { tokens, lastSeen := now })

end Limiter

/-- Which quota a passkey ceremony draws on. -/
inductive PasskeyQuota
  | signIn
  | ceremony
  deriving DecidableEq, Repr

namespace PasskeyQuota

/-- The limiter of the quota, as the process starts with it. -/
def limiter : PasskeyQuota → Limiter
  | .signIn => .new MAGIC_CAPACITY MAGIC_REFILL_PER_SEC
  | .ceremony => .new CEREMONY_CAPACITY CEREMONY_REFILL_PER_SEC

/-- The refusal, with the wait this quota imposes. -/
def tooMany (quota : PasskeyQuota) : String :=
  "Too many attempts. Please wait " ++ toString quota.limiter.retryAfterSecs ++
    " seconds and try again."

end PasskeyQuota

structure Call where
  key : String
  now : ℚ
  deriving DecidableEq

namespace Limiter

/-- The limiter after these calls. -/
def after (limiter : Limiter) : List Call → Limiter
  | [] => limiter
  | call :: rest => (limiter.checkAt call.key call.now).2.after rest

/-- The calls, each with what was decided on it. -/
def decisions (limiter : Limiter) : List Call → List (Call × Bool)
  | [] => []
  | call :: rest =>
      (call, (limiter.checkAt call.key call.now).1) ::
        (limiter.checkAt call.key call.now).2.decisions rest

/-- How many calls on the key are admitted with a timestamp of the window. -/
def admittedIn (limiter : Limiter) (key : String) (opens closes : ℚ) (calls : List Call) : Nat :=
  (limiter.decisions calls).countP fun (call, admitted) =>
    admitted && call.key = key && opens ≤ call.now && call.now ≤ closes

/-! ## One call -/

/-- What the bucket holds when the call arrives. -/
def held (limiter : Limiter) (key : String) (now : ℚ) : ℚ :=
  refill limiter.capacity (limiter.bucket key now).tokens
    (max (now - (limiter.bucket key now).lastSeen) 0 * limiter.refillPerSec)

/-- What the call spends. -/
def cost (limiter : Limiter) (key : String) (now : ℚ) : Nat :=
  if 1 ≤ limiter.held key now then 1 else 0

/-- The limiters agree on everything that bears on the key. -/
structure Agrees (key : String) (limiter other : Limiter) : Prop where
  capacity : other.capacity = limiter.capacity
  rate : other.refillPerSec = limiter.refillPerSec
  bucket : other.buckets key = limiter.buckets key

variable {limiter other : Limiter} {key : String} {now : ℚ}

theorem checkAt_eq (limiter : Limiter) (key : String) (now : ℚ) :
    limiter.checkAt key now =
      (decide (1 ≤ limiter.held key now),
        limiter.insert key
          { tokens := limiter.held key now - limiter.cost key now, lastSeen := now }) := by
  unfold checkAt
  by_cases there : 1 ≤ limiter.held key now
  · rw [cost, if_pos there, decide_eq_true there, Nat.cast_one]
    exact if_pos there
  · rw [cost, if_neg there, decide_eq_false there, Nat.cast_zero, sub_zero]
    exact if_neg there

theorem cost_le_held (held : 0 ≤ limiter.held key now) :
    (limiter.cost key now : ℚ) ≤ limiter.held key now := by
  unfold cost
  split
  · next there => simpa using there
  · simpa using held

@[simp] theorem bucket_insert {bucket : Bucket} :
    (limiter.insert key bucket).bucket key now = bucket := by
  simp [Limiter.bucket, insert]

@[simp] theorem checkAt_capacity : (limiter.checkAt key now).2.capacity = limiter.capacity := by
  rw [checkAt_eq]
  rfl

@[simp] theorem checkAt_refillPerSec :
    (limiter.checkAt key now).2.refillPerSec = limiter.refillPerSec := by
  rw [checkAt_eq]
  rfl

theorem bucket_checkAt (limiter : Limiter) (key : String) (now later : ℚ) :
    (limiter.checkAt key now).2.bucket key later =
      { tokens := limiter.held key now - limiter.cost key now, lastSeen := now } := by
  rw [checkAt_eq, bucket_insert]

theorem buckets_insert_of_ne {bucket : Bucket} {name : String} (apart : name ≠ key) :
    (limiter.insert key bucket).buckets name = limiter.buckets name :=
  Function.update_of_ne apart _ _

/-! ## Keys by themselves -/

theorem Agrees.held (agrees : Agrees key limiter other) (now : ℚ) :
    other.held key now = limiter.held key now := by
  simp only [Limiter.held, Limiter.bucket, agrees.capacity, agrees.rate, agrees.bucket]

/-- Limiters that agree on a key decide alike on it, and go on agreeing. -/
theorem Agrees.checkAt (agrees : Agrees key limiter other) (now : ℚ) :
    (other.checkAt key now).1 = (limiter.checkAt key now).1 ∧
      Agrees key (limiter.checkAt key now).2 (other.checkAt key now).2 := by
  rw [checkAt_eq, checkAt_eq, cost, cost, agrees.held]
  refine ⟨rfl, agrees.capacity, agrees.rate, ?_⟩
  simp [insert]

/-- A call on another key changes nothing here. -/
theorem agrees_checkAt_of_ne {name : String} (apart : name ≠ key) (now : ℚ) :
    Agrees key limiter (limiter.checkAt name now).2 := by
  rw [checkAt_eq]
  exact ⟨rfl, rfl, buckets_insert_of_ne (Ne.symm apart)⟩

theorem Agrees.decisions {calls : List Call} (agrees : Agrees key limiter other)
    (own : ∀ call ∈ calls, call.key = key) : other.decisions calls = limiter.decisions calls := by
  induction calls generalizing limiter other with
  | nil => rfl
  | cons call rest ih =>
      obtain ⟨name, now⟩ := call
      obtain rfl : name = key := own _ (List.mem_cons_self ..)
      obtain ⟨same, next⟩ := agrees.checkAt now
      rw [Limiter.decisions, Limiter.decisions, same,
        ih next fun call member => own call (List.mem_cons_of_mem _ member)]

/-- What is decided on the calls of a key is what would be decided on them alone. -/
theorem filter_decisions (limiter : Limiter) (key : String) (calls : List Call) :
    (limiter.decisions calls).filter (fun decision => decision.1.key = key) =
      limiter.decisions (calls.filter fun call => call.key = key) := by
  induction calls generalizing limiter with
  | nil => rfl
  | cons call rest ih =>
      by_cases own : call.key = key
      · simp only [Limiter.decisions, List.filter_cons, own, decide_true, if_true, ih]
      · simp only [Limiter.decisions, List.filter_cons, own, decide_false, Bool.false_eq_true,
          if_false, ih]
        apply (agrees_checkAt_of_ne own call.now).decisions
        intro later member
        exact of_decide_eq_true (List.mem_filter.mp member).2

theorem admittedIn_filter (limiter : Limiter) (key : String) (opens closes : ℚ)
    (calls : List Call) :
    limiter.admittedIn key opens closes (calls.filter fun call => call.key = key) =
      limiter.admittedIn key opens closes calls := by
  rw [admittedIn, admittedIn, ← filter_decisions, List.countP_filter]
  apply List.countP_congr
  simp +contextual

/-! ## What every call keeps -/

/-- Every bucket holds at least nothing and at most the capacity. -/
structure Sound (limiter : Limiter) : Prop where
  room : 0 ≤ limiter.capacity
  flows : 0 ≤ limiter.refillPerSec
  tokens : ∀ key bucket, limiter.buckets key = some bucket →
    0 ≤ bucket.tokens ∧ bucket.tokens ≤ limiter.capacity

theorem sound_new {capacity : Nat} {rate : ℚ} (flows : 0 ≤ rate) :
    (Limiter.new capacity rate).Sound where
  room := Nat.cast_nonneg capacity
  flows := flows
  tokens _ _ := nofun

theorem Sound.bucket (sound : limiter.Sound) (key : String) (now : ℚ) :
    0 ≤ (limiter.bucket key now).tokens ∧
      (limiter.bucket key now).tokens ≤ limiter.capacity := by
  unfold Limiter.bucket
  cases found : limiter.buckets key with
  | none => exact ⟨sound.room, le_refl _⟩
  | some bucket => exact sound.tokens key bucket found

theorem held_le_capacity : limiter.held key now ≤ limiter.capacity :=
  refill_le_capacity

theorem Sound.held_nonneg (sound : limiter.Sound) (key : String) (now : ℚ) :
    0 ≤ limiter.held key now :=
  refill_nonneg (sound.bucket key now).1 (mul_nonneg (le_max_right _ _) sound.flows) sound.room

theorem Sound.checkAt (sound : limiter.Sound) (key : String) (now : ℚ) :
    (limiter.checkAt key now).2.Sound := by
  have affords := cost_le_held (sound.held_nonneg key now)
  have spends : (0 : ℚ) ≤ limiter.cost key now := Nat.cast_nonneg _
  rw [checkAt_eq]
  refine ⟨sound.room, sound.flows, ?_⟩
  intro name bucket found
  by_cases own : name = key
  · have same : some (Bucket.mk (limiter.held key now - limiter.cost key now) now) =
        some bucket := by simpa [insert, own] using found
    cases same
    exact ⟨sub_nonneg.mpr affords, (sub_le_self _ spends).trans held_le_capacity⟩
  · exact sound.tokens name bucket ((buckets_insert_of_ne own).symm.trans found)

/-- In every order of calls, and on any keys. -/
theorem Sound.after (sound : limiter.Sound) (calls : List Call) : (limiter.after calls).Sound := by
  induction calls generalizing limiter with
  | nil => exact sound
  | cons call rest ih => exact ih (sound.checkAt call.key call.now)

/-! ## What a window admits -/

theorem admittedIn_cons {opens closes : ℚ} {rest : List Call} :
    limiter.admittedIn key opens closes ({ key, now } :: rest) =
      (if opens ≤ now ∧ now ≤ closes then limiter.cost key now else 0) +
        (limiter.checkAt key now).2.admittedIn key opens closes rest := by
  rw [admittedIn, decisions, List.countP_cons, ← admittedIn, Nat.add_comm, checkAt_eq, cost]
  congr 1
  by_cases inside : opens ≤ now ∧ now ≤ closes <;> by_cases there : 1 ≤ limiter.held key now <;>
    simp [inside, there]

/-- The call that comes now is not older than the last one, and the bucket has kept to the
budget of the window so far. -/
structure Ready (limiter : Limiter) (key : String) (opens closes : ℚ) (spent : Nat) (now : ℚ) :
    Prop where
  order : (limiter.bucket key now).lastSeen ≤ now
  budget : Budget limiter.capacity limiter.refillPerSec opens closes
    (limiter.bucket key now).lastSeen (limiter.bucket key now).tokens spent

theorem Ready.visit {opens closes : ℚ} {spent : Nat}
    (ready : limiter.Ready key opens closes spent now) (sound : limiter.Sound) :
    Budget limiter.capacity limiter.refillPerSec opens closes now
      (limiter.held key now - limiter.cost key now)
      (spent + if opens ≤ now ∧ now ≤ closes then limiter.cost key now else 0) := by
  have refilled : limiter.held key now = refill limiter.capacity
      (limiter.bucket key now).tokens
      ((now - (limiter.bucket key now).lastSeen) * limiter.refillPerSec) := by
    rw [held, max_eq_left (sub_nonneg.mpr ready.order)]
  have affords := cost_le_held (sound.held_nonneg key now)
  rw [refilled] at affords ⊢
  exact ready.budget.visit sound.flows ready.order affords

theorem Ready.checkAt {opens closes later : ℚ} {spent : Nat}
    (ready : limiter.Ready key opens closes spent now) (sound : limiter.Sound)
    (order : now ≤ later) :
    (limiter.checkAt key now).2.Ready key opens closes
      (spent + if opens ≤ now ∧ now ≤ closes then limiter.cost key now else 0) later := by
  constructor
  · rw [bucket_checkAt]
    exact order
  · rw [bucket_checkAt, checkAt_capacity, checkAt_refillPerSec]
    exact ready.visit sound

/-- While the calls on a key arrive in order, a window admits what its budget allows. -/
theorem admittedIn_le_of_ready {opens closes : ℚ} {calls : List Call} {spent : Nat}
    (sound : limiter.Sound) (own : ∀ call ∈ calls, call.key = key)
    (ordered : calls.Pairwise fun call later => call.now ≤ later.now)
    (ready : ∀ call ∈ calls, limiter.Ready key opens closes spent call.now)
    (total : (spent : ℚ) ≤ limiter.capacity + limiter.refillPerSec * (closes - opens)) :
    (spent + limiter.admittedIn key opens closes calls : ℚ) ≤
      limiter.capacity + limiter.refillPerSec * (closes - opens) := by
  induction calls generalizing limiter spent with
  | nil => simpa [admittedIn, decisions] using total
  | cons call rest ih =>
      obtain ⟨name, now⟩ := call
      obtain rfl : name = key := own _ (List.mem_cons_self ..)
      have now_ready : limiter.Ready name opens closes spent now := ready _ (List.mem_cons_self ..)
      have remaining := ih (sound.checkAt name now)
        (fun call member => own call (List.mem_cons_of_mem _ member)) ordered.tail
        (fun call member => now_ready.checkAt sound (List.rel_of_pairwise_cons ordered member))
        (by simpa using (now_ready.visit sound).total)
      rw [checkAt_capacity, checkAt_refillPerSec, Nat.cast_add, add_assoc] at remaining
      rw [admittedIn_cons, Nat.cast_add]
      exact remaining

/-- How far the timestamps of the calls move forward, all steps together. -/
def forward : List Call → ℚ
  | call :: next :: rest => max (next.now - call.now) 0 + forward (next :: rest)
  | _ => 0

theorem countP_decisions_cons {rest : List Call} :
    (limiter.decisions ({ key, now } :: rest)).countP Prod.snd =
      limiter.cost key now + ((limiter.checkAt key now).2.decisions rest).countP Prod.snd := by
  rw [decisions, List.countP_cons, Nat.add_comm, checkAt_eq, cost]
  simp

/-- Calls on one key, in whatever order: they are admitted from what is there at the first
one, and what comes back with every step forward. -/
theorem admitted_le_forward {calls : List Call} (sound : limiter.Sound)
    (own : ∀ call ∈ calls, call.key = key) :
    ((limiter.decisions ({ key, now } :: calls)).countP Prod.snd : ℚ) ≤
      limiter.held key now + limiter.refillPerSec * forward ({ key, now } :: calls) := by
  have affords := cost_le_held (sound.held_nonneg key now)
  induction calls generalizing limiter now with
  | nil =>
      rw [countP_decisions_cons]
      simpa [decisions, forward] using affords
  | cons next rest ih =>
      obtain ⟨name, later⟩ := next
      obtain rfl : name = key := own _ (List.mem_cons_self ..)
      have sound' := sound.checkAt name now
      have remaining : _ ≤ (limiter.checkAt name now).2.held name later + _ :=
        ih sound' (fun call member => own call (List.mem_cons_of_mem _ member))
          (cost_le_held (sound'.held_nonneg name later))
      have comes : (limiter.checkAt name now).2.held name later ≤
          limiter.held name now - limiter.cost name now +
            max (later - now) 0 * limiter.refillPerSec := by
        rw [held, bucket_checkAt, checkAt_refillPerSec]
        exact refill_le_add
      rw [countP_decisions_cons, forward, Nat.cast_add]
      rw [checkAt_refillPerSec] at remaining
      linarith

/-! ## The window law -/

/-- The calls on the key arrive in the order of their timestamps. -/
def InOrder (key : String) (calls : List Call) : Prop :=
  (calls.filter fun call => call.key = key).Pairwise fun call later => call.now ≤ later.now

/-- No window admits more than the capacity and what comes back while it is open. -/
def WindowLaw (limiter : Limiter) (key : String) (calls : List Call) : Prop :=
  ∀ opens closes, opens ≤ closes →
    (limiter.admittedIn key opens closes calls : ℚ) ≤
      limiter.capacity + limiter.refillPerSec * (closes - opens)

variable {capacity : Nat} {rate : ℚ} {calls : List Call}

theorem windowLaw_of_inOrder (flows : 0 ≤ rate) (ordered : InOrder key calls) :
    (Limiter.new capacity rate).WindowLaw key calls := by
  intro opens closes window
  have sound : (Limiter.new capacity rate).Sound := sound_new flows
  have start : ∀ now, (Limiter.new capacity rate).Ready key opens closes 0 now :=
    fun now => ⟨le_refl _, budget_full sound.room sound.flows window⟩
  have admits := admittedIn_le_of_ready sound
    (fun call member => of_decide_eq_true (List.mem_filter.mp member).2) ordered
    (fun call _ => start call.now) (start 0).budget.total
  rw [admittedIn_filter] at admits
  simpa using admits

/-- Without a refill the order does not matter. -/
theorem windowLaw_of_still : (Limiter.new capacity 0).WindowLaw key calls := by
  intro opens closes _
  have sound : (Limiter.new capacity 0).Sound := sound_new le_rfl
  rw [← admittedIn_filter]
  have own : ∀ call ∈ calls.filter fun call => call.key = key, call.key = key :=
    fun call member => of_decide_eq_true (List.mem_filter.mp member).2
  have fewer : (Limiter.new capacity 0).admittedIn key opens closes
      (calls.filter fun call => call.key = key) ≤
      ((Limiter.new capacity 0).decisions
        (calls.filter fun call => call.key = key)).countP Prod.snd := by
    apply List.countP_mono_left
    rintro ⟨call, admitted⟩ _ counted
    simp only [Bool.and_eq_true] at counted
    exact counted.1.1.1
  cases found : calls.filter fun call => call.key = key with
  | nil => simp [admittedIn, decisions, Limiter.new]
  | cons call rest =>
      obtain ⟨name, now⟩ := call
      rw [found] at own fewer
      obtain rfl : name = key := own _ (List.mem_cons_self ..)
      have all : _ ≤ (Limiter.new capacity 0).held name now + _ :=
        admitted_le_forward sound fun call member => own call (List.mem_cons_of_mem _ member)
      have full : (Limiter.new capacity 0).held name now ≤ capacity := held_le_capacity
      have counted : ((Limiter.new capacity 0).admittedIn name opens closes
          ({ key := name, now } :: rest) : ℚ) ≤ _ := Nat.cast_le.mpr fewer
      simp only [Limiter.new, zero_mul, add_zero] at all counted ⊢
      exact counted.trans (all.trans full)

/-- A limiter without capacity admits nothing. -/
theorem admittedIn_of_empty {opens closes : ℚ} (empty : limiter.capacity = 0) :
    limiter.admittedIn key opens closes calls = 0 := by
  induction calls generalizing limiter with
  | nil => rfl
  | cons call rest ih =>
      have refused : ¬ 1 ≤ limiter.held call.key call.now := by
        have full : limiter.held call.key call.now ≤ 0 := empty ▸ held_le_capacity
        linarith
      have remaining : (limiter.checkAt call.key call.now).2.admittedIn key opens closes rest = 0 :=
        ih (by rw [checkAt_capacity, empty])
      rw [admittedIn, decisions, List.countP_cons, ← admittedIn, remaining, checkAt_eq]
      simp [refused]

theorem windowLaw_of_empty (flows : 0 ≤ rate) : (Limiter.new 0 rate).WindowLaw key calls := by
  intro opens closes window
  rw [admittedIn_of_empty Nat.cast_zero, Nat.cast_zero]
  exact add_nonneg (Nat.cast_nonneg 0) (mul_nonneg flows (sub_nonneg.mpr window))

/-- Whatever the other keys do, the calls on a key are decided as if they were alone; and
while they arrive in order, or nothing ever comes back, or there is nothing to spend, no
window admits more than the capacity and what comes back while it is open. -/
theorem window_law (capacity : Nat) (rate : ℚ) (flows : 0 ≤ rate) (key : String)
    (calls : List Call) :
    ((Limiter.new capacity rate).decisions calls).filter
        (fun decision => decision.1.key = key) =
      (Limiter.new capacity rate).decisions (calls.filter fun call => call.key = key) ∧
    (InOrder key calls ∨ rate = 0 ∨ capacity = 0 →
      (Limiter.new capacity rate).WindowLaw key calls) := by
  refine ⟨filter_decisions _ key calls, ?_⟩
  rintro (ordered | rfl | rfl)
  · exact windowLaw_of_inOrder flows ordered
  · exact windowLaw_of_still
  · exact windowLaw_of_empty flows

/-- Five attempts at once, and two more half a minute later. -/
theorem window_law_signIn :
    PasskeyQuota.signIn.limiter.WindowLaw "203.0.113.9"
      (List.replicate 5 { key := "203.0.113.9", now := 0 } ++
        List.replicate 2 { key := "203.0.113.9", now := 30 }) :=
  (window_law MAGIC_CAPACITY MAGIC_REFILL_PER_SEC (by decide +kernel) _ _).2
    (.inl (by unfold InOrder; decide +kernel))

/-! ## A timestamp out of order -/

/-- As many calls at one time as there are tokens are all admitted, and the bucket is
empty afterwards. -/
theorem drained {time : ℚ} {tokens : Nat} {rest : List Call}
    (found : limiter.buckets key = some { tokens, lastSeen := time })
    (room : (tokens : ℚ) ≤ limiter.capacity) :
    ∃ empty : Limiter, empty.buckets key = some { tokens := 0, lastSeen := time } ∧
      empty.capacity = limiter.capacity ∧ empty.refillPerSec = limiter.refillPerSec ∧
      limiter.admittedIn key time time (List.replicate tokens { key, now := time } ++ rest) =
        tokens + empty.admittedIn key time time rest := by
  induction tokens generalizing limiter with
  | zero => exact ⟨limiter, by simpa using found, rfl, rfl, by simp⟩
  | succ tokens ih =>
      have there : limiter.held key time = tokens + 1 := by
        rw [held, Limiter.bucket, found]
        simpa using refill_zero room
      have spends : limiter.cost key time = 1 := by
        rw [cost, there, if_pos (le_add_of_nonneg_left (Nat.cast_nonneg tokens))]
      have next : (limiter.checkAt key time).2.buckets key =
          some { tokens, lastSeen := time } := by
        rw [checkAt_eq, there, spends]
        simp [insert]
      have smaller : (tokens : ℚ) ≤ (limiter.checkAt key time).2.capacity := by
        rw [checkAt_capacity]
        push_cast at room
        linarith
      obtain ⟨empty, at_zero, capacity, rate, admits⟩ := ih next smaller
      refine ⟨empty, at_zero, capacity.trans checkAt_capacity, rate.trans checkAt_refillPerSec, ?_⟩
      rw [List.replicate_succ, List.cons_append, admittedIn_cons, spends, admits,
        if_pos ⟨le_refl time, le_refl time⟩]
      omega

/-- The bucket is emptied, then hears from an older call, and then from a call of the
time before. -/
def rewound (key : String) (time : ℚ) (capacity : Nat) : List Call :=
  List.replicate capacity { key, now := time } ++ [{ key, now := 0 }, { key, now := time }]

/-- The older call takes the bucket back in time, and the next one is paid for the
way forward. -/
theorem admittedIn_rewound {time : ℚ}
    (found : limiter.buckets key = some { tokens := 0, lastSeen := time })
    (room : 1 ≤ limiter.capacity) (since : 0 < time) (comes : time * limiter.refillPerSec = 1) :
    limiter.admittedIn key time time [{ key, now := 0 }, { key, now := time }] = 1 := by
  have nothing : limiter.held key 0 = 0 := by
    have back : max (0 - time) 0 = 0 := max_eq_right (by linarith)
    rw [held, Limiter.bucket, found, Option.getD_some, back, zero_mul]
    exact refill_zero (by linarith)
  have refused : limiter.cost key 0 = 0 := by
    rw [cost, nothing]
    exact if_neg (by norm_num)
  have there : (limiter.checkAt key 0).2.held key time = 1 := by
    rw [held, bucket_checkAt, nothing, refused, checkAt_capacity, checkAt_refillPerSec, sub_zero,
      max_eq_left since.le, comes, refill]
    simpa using room
  have spends : (limiter.checkAt key 0).2.cost key time = 1 := by
    rw [cost, there, if_pos le_rfl]
  rw [admittedIn_cons, refused, ite_self, admittedIn_cons, spends,
    if_pos ⟨le_refl time, le_refl time⟩]
  rfl

/-- Every limiter that has something to spend, and gets something back, breaks the law
once an older timestamp comes after a newer one. -/
theorem not_windowLaw_rewound (spendable : 1 ≤ capacity) (flows : 0 < rate) :
    ¬ (Limiter.new capacity rate).WindowLaw key (rewound key (1 / rate) capacity) := by
  obtain ⟨fewer, rfl⟩ := Nat.exists_eq_add_of_le' spendable
  have since : 0 < 1 / rate := one_div_pos.mpr flows
  have comes : 1 / rate * rate = 1 := one_div_mul_cancel flows.ne'
  generalize 1 / rate = time at since comes ⊢
  have there : (Limiter.new (fewer + 1) rate).held key time = fewer + 1 := by
    simp [held, Limiter.bucket, Limiter.new, refill]
  have spends : (Limiter.new (fewer + 1) rate).cost key time = 1 := by
    rw [cost, there, if_pos (le_add_of_nonneg_left (Nat.cast_nonneg fewer))]
  have next : ((Limiter.new (fewer + 1) rate).checkAt key time).2.buckets key =
      some { tokens := fewer, lastSeen := time } := by
    rw [checkAt_eq, there, spends]
    simp [insert]
  have room : ((Limiter.new (fewer + 1) rate).checkAt key time).2.capacity = fewer + 1 := by
    rw [checkAt_capacity]
    exact Nat.cast_succ fewer
  have smaller : (fewer : ℚ) ≤ ((Limiter.new (fewer + 1) rate).checkAt key time).2.capacity := by
    rw [room]
    linarith
  obtain ⟨empty, at_zero, capacity, rate', admits⟩ := drained next smaller
  have one_more : empty.admittedIn key time time [{ key, now := 0 }, { key, now := time }] = 1 := by
    apply admittedIn_rewound at_zero _ since
    · rw [rate', checkAt_refillPerSec]
      exact comes
    · rw [capacity, room]
      exact le_add_of_nonneg_left (Nat.cast_nonneg fewer)
  have count : (Limiter.new (fewer + 1) rate).admittedIn key time time
      (rewound key time (fewer + 1)) = fewer + 2 := by
    rw [rewound, List.replicate_succ, List.cons_append, admittedIn_cons, spends, admits, one_more,
      if_pos ⟨le_refl time, le_refl time⟩]
    omega
  intro law
  have bounded := law time time le_rfl
  rw [count, sub_self, mul_zero, add_zero] at bounded
  have full : (Limiter.new (fewer + 1) rate).capacity = fewer + 1 := Nat.cast_succ fewer
  rw [full] at bounded
  push_cast at bounded
  linarith

/-- In every order of timestamps, the law is kept by the limiters that have nothing to
spend or get nothing back, and by no others. -/
theorem windowLaw_any_order_iff (flows : 0 ≤ rate) :
    (∀ calls, (Limiter.new capacity rate).WindowLaw key calls) ↔ rate = 0 ∨ capacity = 0 := by
  constructor
  · intro law
    by_contra neither
    obtain ⟨moves, spendable⟩ := not_or.mp neither
    exact not_windowLaw_rewound (Nat.one_le_iff_ne_zero.mpr spendable)
      (lt_of_le_of_ne flows (Ne.symm moves)) (law _)
  · rintro (rfl | rfl) calls
    · exact windowLaw_of_still
    · exact windowLaw_of_empty flows

/-- Five sign-in attempts, an older one, and a sixth of the first five's time. -/
theorem six_at_once :
    PasskeyQuota.signIn.limiter.admittedIn "203.0.113.9" 30 30 (rewound "203.0.113.9" 30 5) = 6 ∧
      ¬ PasskeyQuota.signIn.limiter.WindowLaw "203.0.113.9" (rewound "203.0.113.9" 30 5) := by
  have six : PasskeyQuota.signIn.limiter.admittedIn "203.0.113.9" 30 30
      (rewound "203.0.113.9" 30 5) = 6 := by
    decide +kernel
  refine ⟨six, fun law => ?_⟩
  have bounded := law 30 30 le_rfl
  rw [six, sub_self, mul_zero, add_zero] at bounded
  exact absurd bounded (by decide +kernel)

/-! ## The quoted wait -/

/-- Decisions in two parts are those on the first calls, and then those on the rest. -/
theorem decisions_eq_append {first second : List (Call × Bool)}
    (decided : limiter.decisions calls = first ++ second) :
    ∃ before rest, calls = before ++ rest ∧ limiter.decisions before = first ∧
      (limiter.after before).decisions rest = second := by
  induction first generalizing limiter calls with
  | nil => exact ⟨[], calls, rfl, rfl, decided⟩
  | cons decision first ih =>
      cases calls with
      | nil => cases decided
      | cons call rest =>
          obtain ⟨head, tail⟩ := List.cons.inj decided
          obtain ⟨before, rest, rfl, firsts, seconds⟩ := ih tail
          exact ⟨call :: before, rest, rfl, by rw [decisions, head, firsts], seconds⟩

theorem decisions_eq_cons {call : Call} {admitted : Bool} {rest : List (Call × Bool)}
    (decided : limiter.decisions calls = (call, admitted) :: rest) :
    ∃ later, calls = call :: later ∧ (limiter.checkAt call.key call.now).1 = admitted ∧
      (limiter.checkAt call.key call.now).2.decisions later = rest := by
  cases calls with
  | nil => cases decided
  | cons first later =>
      obtain ⟨head, tail⟩ := List.cons.inj decided
      obtain ⟨rfl, same⟩ := Prod.mk.inj head
      exact ⟨later, rfl, same, tail⟩

/-- Since a call at this time left so many tokens, nothing has been spent. -/
def Waiting (limiter : Limiter) (key : String) (tokens since now : ℚ) : Prop :=
  ∃ seen, since ≤ seen ∧ seen ≤ now ∧ limiter.buckets key =
    some { tokens := refill limiter.capacity tokens ((seen - since) * limiter.refillPerSec)
           lastSeen := seen }

/-- What is there after a wait is what has come back since it began. -/
theorem Waiting.held {tokens since : ℚ} (waiting : limiter.Waiting key tokens since now)
    (sound : limiter.Sound) :
    limiter.held key now =
      refill limiter.capacity tokens ((now - since) * limiter.refillPerSec) := by
  obtain ⟨seen, -, order, found⟩ := waiting
  have comes : 0 ≤ (now - seen) * limiter.refillPerSec :=
    mul_nonneg (sub_nonneg.mpr order) sound.flows
  rw [Limiter.held, Limiter.bucket, found, Option.getD_some, max_eq_left (sub_nonneg.mpr order),
    refill_refill comes]
  congr 1
  ring

/-- A refused retry does not lengthen the wait. -/
theorem Waiting.checkAt {tokens since later : ℚ} {name : String}
    (waiting : limiter.Waiting key tokens since now) (sound : limiter.Sound)
    (refused : name = key → (limiter.checkAt name now).1 = false) (order : now ≤ later) :
    (limiter.checkAt name now).2.Waiting key tokens since later := by
  by_cases own : name = key
  · obtain rfl := own
    have holds := waiting.held sound
    obtain ⟨seen, started, earlier, -⟩ := waiting
    have nothing : ¬ 1 ≤ limiter.held name now := by
      have no := refused rfl
      rw [checkAt_eq] at no
      exact of_decide_eq_false no
    refine ⟨now, started.trans earlier, order, ?_⟩
    rw [checkAt_capacity, checkAt_refillPerSec, checkAt_eq, cost, if_neg nothing, holds]
    simp [insert]
  · obtain ⟨seen, started, earlier, found⟩ := waiting
    refine ⟨seen, started, earlier.trans order, ?_⟩
    rw [checkAt_capacity, checkAt_refillPerSec, ← found]
    exact (agrees_checkAt_of_ne own now).bucket

/-- And so the wait goes on over any calls, none of the key's admitted. -/
theorem Waiting.after {tokens since later : ℚ}
    (waiting : limiter.Waiting key tokens since now) (sound : limiter.Sound)
    (ordered : (calls.map Call.now ++ [later]).Pairwise (· ≤ ·))
    (started : ∀ time ∈ calls.map Call.now ++ [later], now ≤ time)
    (refused : ∀ decision ∈ limiter.decisions calls,
      decision.1.key = key → decision.2 = false) :
    (limiter.after calls).Waiting key tokens since later := by
  induction calls generalizing limiter now with
  | nil =>
      obtain ⟨seen, first, order, found⟩ := waiting
      exact ⟨seen, first, order.trans (started later (List.mem_singleton_self _)), found⟩
  | cons call rest ih =>
      have reached : limiter.Waiting key tokens since call.now := by
        obtain ⟨seen, first, order, found⟩ := waiting
        exact ⟨seen, first, order.trans (started _ (List.mem_cons_self ..)), found⟩
      apply ih (reached.checkAt sound (refused _ (List.mem_cons_self ..)) le_rfl)
        (sound.checkAt call.key call.now) ordered.tail
      · intro time member
        exact List.rel_of_pairwise_cons ordered member
      · intro decision member
        exact refused decision (List.mem_cons_of_mem _ member)

/-- The quoted wait is long enough for one token to come back. -/
theorem one_le_retryAfterSecs_mul (limiter : Limiter) (flows : 0 < limiter.refillPerSec)
    (fits : max ⌈1 / limiter.refillPerSec⌉ 1 ≤ (U32_MAX : Int)) :
    1 ≤ (limiter.retryAfterSecs : ℚ) * limiter.refillPerSec := by
  have positive : (0 : Int) ≤ max ⌈1 / limiter.refillPerSec⌉ 1 :=
    zero_le_one.trans (le_max_right _ _)
  have quoted : (limiter.retryAfterSecs : Int) = max ⌈1 / limiter.refillPerSec⌉ 1 := by
    rw [retryAfterSecs, if_neg flows.ne']
    omega
  have enough : 1 / limiter.refillPerSec ≤ (limiter.retryAfterSecs : ℚ) := by
    have above : ⌈1 / limiter.refillPerSec⌉ ≤ (limiter.retryAfterSecs : Int) :=
      quoted ▸ le_max_left _ _
    exact_mod_cast Int.ceil_le.mp above
  exact (div_le_iff₀ flows).mp enough

/-- A call refused leaves the bucket waiting with what it held. -/
theorem waiting_of_refused (refused : (limiter.checkAt key now).1 = false) :
    (limiter.checkAt key now).2.Waiting key (limiter.held key now) now now := by
  have nothing : ¬ 1 ≤ limiter.held key now := by
    rw [checkAt_eq] at refused
    exact of_decide_eq_false refused
  refine ⟨now, le_refl _, le_refl _, ?_⟩
  rw [checkAt_capacity, checkAt_refillPerSec, sub_self, zero_mul, refill_zero held_le_capacity,
    checkAt_eq, cost, if_neg nothing]
  simp [insert]

/-- After a refused call, and none admitted since, the first one past the quoted wait is
admitted. -/
theorem checkAt_of_waited {tokens since : ℚ} (waiting : limiter.Waiting key tokens since now)
    (sound : limiter.Sound) (spendable : 1 ≤ limiter.capacity) (left : 0 ≤ tokens)
    (flows : 0 < limiter.refillPerSec)
    (fits : max ⌈1 / limiter.refillPerSec⌉ 1 ≤ (U32_MAX : Int))
    (waited : since + limiter.retryAfterSecs ≤ now) :
    (limiter.checkAt key now).1 = true := by
  have enough : 1 ≤ (now - since) * limiter.refillPerSec :=
    (one_le_retryAfterSecs_mul limiter flows fits).trans
      (mul_le_mul_of_nonneg_right (by linarith) flows.le)
  rw [checkAt_eq, waiting.held sound]
  exact decide_eq_true (one_le_refill spendable left enough)

theorem after_capacity : (limiter.after calls).capacity = limiter.capacity := by
  induction calls generalizing limiter with
  | nil => rfl
  | cons call rest ih => exact ih.trans checkAt_capacity

theorem after_refillPerSec : (limiter.after calls).refillPerSec = limiter.refillPerSec := by
  induction calls generalizing limiter with
  | nil => rfl
  | cons call rest ih => exact ih.trans checkAt_refillPerSec

/-- Over calls in the order of their timestamps, every bucket holds at least nothing and at
most the capacity, and the first call on a key after a refused one and the wait that was
quoted is admitted, unless one in between was. -/
theorem quoted_wait_suffices (capacity : Nat) (rate : ℚ) (spendable : 1 ≤ capacity)
    (flows : 0 < rate) (fits : max ⌈1 / rate⌉ 1 ≤ (U32_MAX : Int)) (calls : List Call)
    (ordered : (calls.map Call.now).Pairwise (· ≤ ·)) :
    (∀ before rest, calls = before ++ rest →
      ∀ key bucket, ((Limiter.new capacity rate).after before).buckets key = some bucket →
        0 ≤ bucket.tokens ∧ bucket.tokens ≤ capacity) ∧
    ∀ earlier refused between retry admitted later,
      (Limiter.new capacity rate).decisions calls =
        earlier ++ (refused, false) :: between ++ (retry, admitted) :: later →
      retry.key = refused.key →
      (∀ decision ∈ between, decision.1.key = refused.key → decision.2 = false) →
      refused.now + ((Limiter.new capacity rate).retryAfterSecs : ℚ) ≤ retry.now →
      admitted = true := by
  have sound : (Limiter.new capacity rate).Sound := sound_new flows.le
  constructor
  · rintro before rest - key bucket found
    have kept := (sound.after before).tokens key bucket found
    rwa [after_capacity] at kept
  intro earlier refused between retry admitted later decided same alone waited
  rw [List.append_assoc] at decided
  obtain ⟨before, rest, rfl, -, decided⟩ := decisions_eq_append decided
  obtain ⟨rest, rfl, turned_away, decided⟩ := decisions_eq_cons decided
  obtain ⟨middle, rest, rfl, refusals, decided⟩ := decisions_eq_append decided
  obtain ⟨rest, rfl, granted, -⟩ := decisions_eq_cons decided
  have sound' := sound.after before
  have began := waiting_of_refused turned_away
  rw [List.map_append, List.map_cons, List.map_append, List.map_cons] at ordered
  have ordered' : (refused.now :: (middle.map Call.now ++ [retry.now])).Pairwise (· ≤ ·) := by
    refine (List.pairwise_append.mp ordered).2.1.sublist ?_
    simp
  have waiting := began.after (sound'.checkAt _ _) ordered'.tail
    (fun time member => List.rel_of_pairwise_cons ordered' member)
    (fun decision member => alone decision (refusals ▸ member))
  rw [← granted, same]
  apply checkAt_of_waited waiting ((sound'.checkAt _ _).after middle)
  · simpa [after_capacity, Limiter.new] using spendable
  · exact sound'.held_nonneg _ _
  · simpa [after_refillPerSec, Limiter.new] using flows
  · simpa [after_refillPerSec, Limiter.new] using fits
  · simpa [retryAfterSecs, after_refillPerSec, Limiter.new] using waited

/-- Six sign-in attempts at once, and another after the half minute that the sixth was
told to wait. -/
theorem quoted_wait_suffices_signIn :
    ((PasskeyQuota.signIn.limiter.after
      (List.replicate 6 { key := "203.0.113.9", now := 0 })).checkAt "203.0.113.9" 30).1 =
      true := by
  refine (quoted_wait_suffices MAGIC_CAPACITY MAGIC_REFILL_PER_SEC (by decide)
    (by decide +kernel) (by decide +kernel)
    (List.replicate 6 { key := "203.0.113.9", now := 0 } ++
      [{ key := "203.0.113.9", now := 30 }]) (by decide +kernel)).2
    (List.replicate 5 ({ key := "203.0.113.9", now := 0 }, true))
    { key := "203.0.113.9", now := 0 } [] { key := "203.0.113.9", now := 30 } _ [] ?_ rfl nofun ?_
  · decide +kernel
  · decide +kernel

end Limiter

example : PasskeyQuota.signIn.tooMany =
    "Too many attempts. Please wait 30 seconds and try again." := by decide +kernel

end TimeTracker.Server.RateLimit
