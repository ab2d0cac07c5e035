import Mathlib.Data.Rat.Floor
import ZedRegistry.Lib.AssocTable
import ZedRegistry.Lib.Execution
import ZedRegistry.Lib.TokenBucket

/-!
# Rate limiting

`ratelimit.rs`: one token bucket for each credential, in a table of bounded
size whose full and idle buckets may be dropped.  Instants are rational numbers
of seconds and token balances are exact.
-/

set_option autoImplicit false

namespace ZedRegistry

open TokenBucket

def idleEviction : ℚ := 600

def limiterMaxBuckets : Nat := 100000

structure Bucket where
  tokens : ℚ
  lastSeen : ℚ
  deriving DecidableEq

structure RateLimiter where
  buckets : AssocTable String Bucket
  clock : ℚ
  burst : ℚ
  perSecond : ℚ
  maxBuckets : Nat

inductive Decision where
  | allow
  | deny (retryAfterSecs : Nat)
  deriving DecidableEq

namespace RateLimiter

/-- `none` is a rate that is not finite. -/
def newWithLimit (burst : UInt32) (perSecond : Option ℚ) (maxBuckets : Nat) (clock : ℚ) :
    RateLimiter where
  buckets := ∅
  clock := clock
  burst := (max burst.toNat 1 : Nat)
  perSecond := match perSecond with
    | some rate => if 0 < rate then rate else 1
    | none => 1
  maxBuckets := max maxBuckets 1

def new (burst : UInt32) (perSecond : Option ℚ) (clock : ℚ) : RateLimiter :=
  newWithLimit burst perSecond limiterMaxBuckets clock

end RateLimiter

def checkedDurationSince (later earlier : ℚ) : Option ℚ :=
  if earlier ≤ later then some (later - earlier) else none

/-- The ceiling, at least 1, as a saturating `u64`. -/
def retryAfterSecs (perSecond deficit : ℚ) : Nat :=
  min (2 ^ 64 - 1) (max 1 ⌈deficit / perSecond⌉).toNat

/-- A request charged against a balance: the decision and what is left. -/
def charge (perSecond balance : ℚ) : Decision × ℚ :=
  if 1 ≤ balance then (.allow, balance - 1)
  else (.deny (retryAfterSecs perSecond (1 - balance)), balance)

/-- The bucket refilled up to `now` and charged; `none` is the `expect` that
panics on a bucket seen after `now`. -/
def Bucket.charged (burst perSecond : ℚ) (bucket : Bucket) (now : ℚ) :
    Option (Decision × Bucket) :=
  (checkedDurationSince now bucket.lastSeen).map fun elapsed =>
    let (decision, tokens) := charge perSecond (refill burst perSecond bucket.tokens elapsed)
    (decision, ⟨tokens, now⟩)

namespace RateLimiter

def safeToForget (limiter : RateLimiter) (now : ℚ) (bucket : Bucket) : Bool :=
  match checkedDurationSince now bucket.lastSeen with
  | none => false
  | some idle =>
    idleEviction ≤ idle && limiter.burst ≤ bucket.tokens + idle * limiter.perSecond

/-- The table without the buckets that are safe to forget. -/
def reclaim (limiter : RateLimiter) (now : ℚ) : RateLimiter :=
  { limiter with buckets := AssocTable.retain limiter.buckets fun bucket =>
      !limiter.safeToForget now bucket }

/-- `buckets.entry(key).or_insert(…)` and the charge of that bucket. -/
def chargeKey (limiter : RateLimiter) (key : String) (now : ℚ) :
    Option (Decision × RateLimiter) :=
  let bucket := (limiter.buckets.lookup key).getD ⟨limiter.burst, now⟩
  (bucket.charged limiter.burst limiter.perSecond now).map fun (decision, bucket) =>
    (decision, { limiter with buckets := limiter.buckets.insert key bucket })

def crowded (limiter : RateLimiter) (key : String) : Prop :=
  key ∉ limiter.buckets ∧ limiter.maxBuckets ≤ AssocTable.size limiter.buckets

instance (limiter : RateLimiter) (key : String) : Decidable (limiter.crowded key) :=
  inferInstanceAs (Decidable (_ ∧ _))

def checkSerialized (limiter : RateLimiter) (key : String) (now : ℚ) :
    Option (Decision × RateLimiter) :=
  if now < limiter.clock then some (.deny 1, limiter)
  else
    let limiter := { limiter with clock := now }
    if limiter.crowded key then
      let reclaimed := limiter.reclaim now
      if limiter.maxBuckets ≤ AssocTable.size reclaimed.buckets then some (.deny 1, reclaimed)
      else reclaimed.chargeKey key now
    else limiter.chargeKey key now

def sweepSerialized (limiter : RateLimiter) (now : ℚ) : RateLimiter :=
  if now < limiter.clock then limiter else { limiter with clock := now }.reclaim now

end RateLimiter

/-! ## Runs -/

inductive LimiterOp where
  | check (key : String) (now : ℚ)
  | sweep (now : ℚ)

/-- An answered check. -/
structure Verdict where
  key : String
  time : ℚ
  decision : Decision
  deriving DecidableEq

/-- The limiter, and every answer so far. -/
structure LimiterRun where
  limiter : RateLimiter
  answers : List Verdict

def LimiterRun.fresh (burst : UInt32) (perSecond : Option ℚ) (maxBuckets : Nat) (start : ℚ) :
    LimiterRun :=
  ⟨.newWithLimit burst perSecond maxBuckets start, []⟩

/-- `none` is a panic. -/
def limiterStep (state : LimiterRun) : LimiterOp → Option LimiterRun
  | .check key now => (state.limiter.checkSerialized key now).map fun (decision, limiter) =>
    ⟨limiter, state.answers ++ [⟨key, now, decision⟩]⟩
  | .sweep now => some { state with limiter := state.limiter.sweepSerialized now }

/-! ## Balances -/

namespace RateLimiter

/-- What a limiter keeps true of its own fields. -/
structure WellFormed (limiter : RateLimiter) : Prop where
  burst : 1 ≤ limiter.burst
  perSecond : 0 < limiter.perSecond
  watermark : ∀ key bucket, limiter.buckets.lookup key = some bucket →
    bucket.lastSeen ≤ limiter.clock
  tokens : ∀ key bucket, limiter.buckets.lookup key = some bucket → 0 ≤ bucket.tokens

theorem newWithLimit_wellFormed (burst : UInt32) (perSecond : Option ℚ) (maxBuckets : Nat)
    (clock : ℚ) : (newWithLimit burst perSecond maxBuckets clock).WellFormed where
  burst := by
    have atLeastOne : 1 ≤ max burst.toNat 1 := le_max_right burst.toNat 1
    exact Nat.one_le_cast.mpr atLeastOne
  perSecond := by
    unfold newWithLimit
    cases perSecond with
    | none => exact one_pos
    | some rate =>
        by_cases positive : 0 < rate
        · simp [positive]
        · simp [positive]
  watermark := by
    intro key bucket found
    simp [newWithLimit] at found
  tokens := by
    intro key bucket found
    simp [newWithLimit] at found

/-- The balance that a request of `key` at `time` finds; a forgotten bucket is
found full. -/
def balance (limiter : RateLimiter) (key : String) (time : ℚ) : ℚ :=
  match limiter.buckets.lookup key with
  | some bucket =>
    refill limiter.burst limiter.perSecond bucket.tokens (time - bucket.lastSeen)
  | none => limiter.burst

theorem balance_of_lookup {limiter : RateLimiter} {key : String} {bucket : Bucket}
    (found : limiter.buckets.lookup key = some bucket) (time : ℚ) :
    limiter.balance key time =
      refill limiter.burst limiter.perSecond bucket.tokens (time - bucket.lastSeen) := by
  simp [balance, found]

theorem balance_of_absent {limiter : RateLimiter} {key : String}
    (absent : limiter.buckets.lookup key = none) (time : ℚ) :
    limiter.balance key time = limiter.burst := by
  simp [balance, absent]

theorem balance_le_burst (limiter : RateLimiter) (key : String) (time : ℚ) :
    limiter.balance key time ≤ limiter.burst := by
  unfold balance
  split
  · exact refill_le_burst _ _ _ _
  · exact le_rfl

theorem WellFormed.balance_nonneg {limiter : RateLimiter} (wellFormed : limiter.WellFormed)
    (key : String) {time : ℚ} (later : limiter.clock ≤ time) :
    0 ≤ limiter.balance key time := by
  have capacity := wellFormed.burst
  cases found : limiter.buckets.lookup key with
  | none =>
      rw [balance_of_absent found]
      linarith
  | some bucket =>
      rw [balance_of_lookup found]
      have seen := wellFormed.watermark key bucket found
      apply refill_nonneg
      · linarith
      · exact wellFormed.perSecond.le
      · exact wellFormed.tokens key bucket found
      · linarith

/-- A balance is a bucket's whole state: what it will be follows from what it is. -/
theorem WellFormed.refill_balance {limiter : RateLimiter} (wellFormed : limiter.WellFormed)
    (key : String) {time later : ℚ} (forward : time ≤ later) :
    refill limiter.burst limiter.perSecond (limiter.balance key time) (later - time) =
      limiter.balance key later := by
  have gain := wellFormed.perSecond.le
  have waited := sub_nonneg.mpr forward
  cases found : limiter.buckets.lookup key with
  | none =>
      rw [balance_of_absent found, balance_of_absent found]
      exact refill_of_full gain waited le_rfl
  | some bucket =>
      have elapsed : (time - bucket.lastSeen) + (later - time) = later - bucket.lastSeen := by
        ring
      rw [balance_of_lookup found, balance_of_lookup found, refill_refill _ _ gain waited, elapsed]

/-- A balance grows no faster than the rate. -/
theorem WellFormed.balance_later {limiter : RateLimiter} (wellFormed : limiter.WellFormed)
    (key : String) {time later : ℚ} (forward : time ≤ later) :
    limiter.balance key later ≤
      limiter.balance key time + (later - time) * limiter.perSecond := by
  rw [← wellFormed.refill_balance key forward]
  exact refill_le_add _ _ _ _

/-! ## Forgetting full buckets -/

/-- `next` is `limiter` at `now`, less buckets that are safe to forget. -/
structure Forgets (limiter : RateLimiter) (now : ℚ) (next : RateLimiter) : Prop where
  onTime : limiter.clock ≤ now
  clock : next.clock = now
  burst : next.burst = limiter.burst
  perSecond : next.perSecond = limiter.perSecond
  lookup : ∀ key, next.buckets.lookup key = limiter.buckets.lookup key ∨
    next.buckets.lookup key = none ∧ ∃ bucket, limiter.buckets.lookup key = some bucket ∧
      limiter.safeToForget now bucket = true

theorem forgets_nothing {limiter : RateLimiter} {now : ℚ} (onTime : limiter.clock ≤ now) :
    limiter.Forgets now { limiter with clock := now } :=
  ⟨onTime, rfl, rfl, rfl, fun _ => Or.inl rfl⟩

theorem forgets_reclaim {limiter : RateLimiter} {now : ℚ} (onTime : limiter.clock ≤ now) :
    limiter.Forgets now ({ limiter with clock := now }.reclaim now) where
  onTime := onTime
  clock := rfl
  burst := rfl
  perSecond := rfl
  lookup key := by
    have kept := AssocTable.lookup_retain limiter.buckets
      (fun bucket => !limiter.safeToForget now bucket) key
    cases found : limiter.buckets.lookup key with
    | none =>
        rw [found] at kept
        exact Or.inl kept
    | some bucket =>
        rw [found] at kept
        by_cases safe : limiter.safeToForget now bucket = true
        · have dropped : (some bucket).filter (fun bucket => !limiter.safeToForget now bucket) =
              none := by simp [Option.filter, safe]
          exact Or.inr ⟨kept.trans dropped, bucket, rfl, safe⟩
        · have retained : (some bucket).filter (fun bucket => !limiter.safeToForget now bucket) =
              some bucket := by simp [Option.filter, safe]
          exact Or.inl (kept.trans retained)

/-- A bucket that is safe to forget would be full from now on. -/
theorem safeToForget_full {limiter : RateLimiter} {now : ℚ} {bucket : Bucket}
    (safe : limiter.safeToForget now bucket = true) :
    limiter.burst ≤ bucket.tokens + (now - bucket.lastSeen) * limiter.perSecond := by
  unfold safeToForget checkedDurationSince at safe
  by_cases seen : bucket.lastSeen ≤ now
  · simp only [if_pos seen, Bool.and_eq_true, decide_eq_true_eq] at safe
    exact safe.2
  · simp [if_neg seen] at safe

theorem Forgets.lookup_some {limiter next : RateLimiter} {now : ℚ}
    (forgets : limiter.Forgets now next) {key : String} {bucket : Bucket}
    (found : next.buckets.lookup key = some bucket) :
    limiter.buckets.lookup key = some bucket := by
  rcases forgets.lookup key with same | ⟨gone, _⟩
  · rw [same] at found
    exact found
  · rw [gone] at found
    contradiction

theorem Forgets.wellFormed {limiter next : RateLimiter} {now : ℚ}
    (forgets : limiter.Forgets now next) (wellFormed : limiter.WellFormed) :
    next.WellFormed where
  burst := by
    rw [forgets.burst]
    exact wellFormed.burst
  perSecond := by
    rw [forgets.perSecond]
    exact wellFormed.perSecond
  watermark key bucket found := by
    rw [forgets.clock]
    exact (wellFormed.watermark key bucket (forgets.lookup_some found)).trans forgets.onTime
  tokens key bucket found := wellFormed.tokens key bucket (forgets.lookup_some found)

/-- Nobody can tell a forgotten bucket from a full one. -/
theorem Forgets.balance {limiter next : RateLimiter} {now : ℚ}
    (forgets : limiter.Forgets now next) (wellFormed : limiter.WellFormed) (key : String)
    {time : ℚ} (later : now ≤ time) : next.balance key time = limiter.balance key time := by
  rcases forgets.lookup key with same | ⟨gone, bucket, held, safe⟩
  · unfold RateLimiter.balance
    rw [same, forgets.burst, forgets.perSecond]
  · rw [balance_of_absent gone, forgets.burst, balance_of_lookup held]
    symm
    have forward : now - bucket.lastSeen ≤ time - bucket.lastSeen := by linarith
    exact refill_of_projected wellFormed.perSecond.le forward (safeToForget_full safe)

/-! ## Charging a key -/

/-- The limiter once a request of `key` at `now` has been charged. -/
def taken (limiter : RateLimiter) (key : String) (now : ℚ) : RateLimiter :=
  let bucket : Bucket := ⟨(charge limiter.perSecond (limiter.balance key now)).2, now⟩
  { limiter with buckets := limiter.buckets.insert key bucket }

/-- The `expect` of `check_serialized` holds, and the charge is one of the balance. -/
theorem WellFormed.chargeKey {limiter : RateLimiter} (wellFormed : limiter.WellFormed)
    (key : String) {now : ℚ} (current : limiter.clock = now) :
    limiter.chargeKey key now =
      some ((charge limiter.perSecond (limiter.balance key now)).1, limiter.taken key now) := by
  unfold RateLimiter.chargeKey Bucket.charged checkedDurationSince taken
  cases found : limiter.buckets.lookup key with
  | none =>
      have full := refill_zero limiter.perSecond (le_refl limiter.burst)
      simp [balance_of_absent found, full]
  | some bucket =>
      have seen := wellFormed.watermark key bucket found
      rw [current] at seen
      simp [balance_of_lookup found, seen]

theorem charge_nonneg (perSecond : ℚ) {balance : ℚ} (nonneg : 0 ≤ balance) :
    0 ≤ (charge perSecond balance).2 := by
  unfold charge
  split
  · rename_i enough
    exact sub_nonneg.mpr enough
  · exact nonneg

theorem charge_le (perSecond balance : ℚ) : (charge perSecond balance).2 ≤ balance := by
  unfold charge
  split
  · linarith
  · exact le_rfl

@[simp] theorem clock_taken (limiter : RateLimiter) (key : String) (now : ℚ) :
    (limiter.taken key now).clock = limiter.clock := rfl

@[simp] theorem perSecond_taken (limiter : RateLimiter) (key : String) (now : ℚ) :
    (limiter.taken key now).perSecond = limiter.perSecond := rfl

theorem lookup_taken_self (limiter : RateLimiter) (key : String) (now : ℚ) :
    (limiter.taken key now).buckets.lookup key =
      some ⟨(charge limiter.perSecond (limiter.balance key now)).2, now⟩ :=
  AList.lookup_insert _

theorem lookup_taken_other (limiter : RateLimiter) {key other : String} (now : ℚ)
    (differs : other ≠ key) :
    (limiter.taken key now).buckets.lookup other = limiter.buckets.lookup other :=
  AList.lookup_insert_ne differs

/-- A bucket after a charge is the charged one or an earlier one. -/
theorem lookup_taken {limiter : RateLimiter} {key other : String} {now : ℚ} {bucket : Bucket}
    (found : (limiter.taken key now).buckets.lookup other = some bucket) :
    bucket = ⟨(charge limiter.perSecond (limiter.balance key now)).2, now⟩ ∨
      limiter.buckets.lookup other = some bucket := by
  by_cases same : other = key
  · rw [same, lookup_taken_self] at found
    exact Or.inl (Option.some.inj found).symm
  · rw [lookup_taken_other limiter now same] at found
    exact Or.inr found

theorem WellFormed.taken {limiter : RateLimiter} (wellFormed : limiter.WellFormed)
    (key : String) {now : ℚ} (current : limiter.clock = now) :
    (limiter.taken key now).WellFormed where
  burst := wellFormed.burst
  perSecond := wellFormed.perSecond
  watermark other bucket found := by
    rcases lookup_taken found with rfl | earlier
    · exact current.ge
    · exact wellFormed.watermark other bucket earlier
  tokens other bucket found := by
    rcases lookup_taken found with rfl | earlier
    · exact charge_nonneg _ (wellFormed.balance_nonneg key current.le)
    · exact wellFormed.tokens other bucket earlier

theorem balance_taken_self (limiter : RateLimiter) (key : String) (now time : ℚ) :
    (limiter.taken key now).balance key time =
      refill limiter.burst limiter.perSecond
        (charge limiter.perSecond (limiter.balance key now)).2 (time - now) :=
  balance_of_lookup (lookup_taken_self limiter key now) time

theorem balance_taken_other (limiter : RateLimiter) {key other : String} (now time : ℚ)
    (differs : other ≠ key) :
    (limiter.taken key now).balance other time = limiter.balance other time := by
  unfold balance
  rw [lookup_taken_other limiter now differs]
  rfl

/-- A check that the table has no room for: every bucket that stays is one that
may not be forgotten. -/
def RefusedForCapacity (limiter : RateLimiter) (key : String) (now : ℚ) : Prop :=
  limiter.clock ≤ now ∧ limiter.crowded key ∧
    limiter.maxBuckets ≤ AssocTable.size (limiter.reclaim now).buckets

instance (limiter : RateLimiter) (key : String) (now : ℚ) :
    Decidable (limiter.RefusedForCapacity key now) :=
  inferInstanceAs (Decidable (_ ∧ _ ∧ _))

/-- Everything a check can do. -/
inductive CheckOutcome (limiter : RateLimiter) (key : String) (now : ℚ) :
    Decision → RateLimiter → Prop where
  | rewound (behind : now < limiter.clock) : CheckOutcome limiter key now (.deny 1) limiter
  | refused (next : RateLimiter) (forgets : limiter.Forgets now next)
      (capacity : limiter.RefusedForCapacity key now) :
      CheckOutcome limiter key now (.deny 1) next
  | charged (next : RateLimiter) (forgets : limiter.Forgets now next)
      (room : ¬ limiter.RefusedForCapacity key now) :
      CheckOutcome limiter key now (charge next.perSecond (next.balance key now)).1
        (next.taken key now)

theorem WellFormed.checkSerialized {limiter : RateLimiter} (wellFormed : limiter.WellFormed)
    (key : String) (now : ℚ) :
    ∃ decision next, limiter.checkSerialized key now = some (decision, next) ∧
      CheckOutcome limiter key now decision next := by
  unfold RateLimiter.checkSerialized
  by_cases behind : now < limiter.clock
  · exact ⟨.deny 1, limiter, if_pos behind, .rewound behind⟩
  · have onTime : limiter.clock ≤ now := not_lt.mp behind
    rw [if_neg behind]
    by_cases crowded : limiter.crowded key
    · have forgets := forgets_reclaim onTime
      by_cases overfull : limiter.maxBuckets ≤ AssocTable.size (limiter.reclaim now).buckets
      · exact ⟨.deny 1, _, (if_pos crowded).trans (if_pos overfull),
          .refused _ forgets ⟨onTime, crowded, overfull⟩⟩
      · have charged := (forgets.wellFormed wellFormed).chargeKey key forgets.clock
        exact ⟨_, _, (if_pos crowded).trans ((if_neg overfull).trans charged),
          .charged _ forgets fun capacity => overfull capacity.2.2⟩
    · have forgets := forgets_nothing onTime
      have charged := (forgets.wellFormed wellFormed).chargeKey key forgets.clock
      exact ⟨_, _, (if_neg crowded).trans charged,
        .charged _ forgets fun capacity => crowded capacity.2.1⟩

theorem CheckOutcome.wellFormed {limiter next : RateLimiter} {key : String} {now : ℚ}
    {decision : Decision} (outcome : CheckOutcome limiter key now decision next)
    (wellFormed : limiter.WellFormed) : next.WellFormed := by
  cases outcome with
  | rewound behind => exact wellFormed
  | refused _ forgets capacity => exact forgets.wellFormed wellFormed
  | charged middle forgets room =>
      exact (forgets.wellFormed wellFormed).taken key forgets.clock

theorem CheckOutcome.settings {limiter next : RateLimiter} {key : String} {now : ℚ}
    {decision : Decision} (outcome : CheckOutcome limiter key now decision next) :
    next.burst = limiter.burst ∧ next.perSecond = limiter.perSecond := by
  cases outcome with
  | rewound behind => exact ⟨rfl, rfl⟩
  | refused _ forgets capacity => exact ⟨forgets.burst, forgets.perSecond⟩
  | charged middle forgets room => exact ⟨forgets.burst, forgets.perSecond⟩

theorem sweepSerialized_cases (limiter : RateLimiter) (now : ℚ) :
    (now < limiter.clock ∧ limiter.sweepSerialized now = limiter) ∨
      limiter.Forgets now (limiter.sweepSerialized now) := by
  unfold sweepSerialized
  by_cases behind : now < limiter.clock
  · rw [if_pos behind]
    exact Or.inl ⟨behind, rfl⟩
  · rw [if_neg behind]
    exact Or.inr (forgets_reclaim (not_lt.mp behind))

end RateLimiter

/-! ## One step of a run -/

theorem limiterStep_check {state next : LimiterRun} {key : String} {now : ℚ}
    (wellFormed : state.limiter.WellFormed)
    (stepped : limiterStep state (.check key now) = some next) :
    ∃ decision, RateLimiter.CheckOutcome state.limiter key now decision next.limiter ∧
      next.answers = state.answers ++ [⟨key, now, decision⟩] := by
  obtain ⟨decision, limiter, checked, outcome⟩ := wellFormed.checkSerialized key now
  simp only [limiterStep, checked, Option.map_some, Option.some.injEq] at stepped
  subst stepped
  exact ⟨decision, outcome, rfl⟩

theorem limiterStep_sweep {state next : LimiterRun} {now : ℚ}
    (stepped : limiterStep state (.sweep now) = some next) :
    next.answers = state.answers ∧
      ((now < state.limiter.clock ∧ next.limiter = state.limiter) ∨
        state.limiter.Forgets now next.limiter) := by
  obtain rfl := Option.some.inj stepped
  exact ⟨rfl, state.limiter.sweepSerialized_cases now⟩

/-- No step panics, and each keeps the limiter well formed with its settings. -/
theorem limiterStep_enabled {state : LimiterRun} (wellFormed : state.limiter.WellFormed)
    (operation : LimiterOp) : ∃ next, limiterStep state operation = some next := by
  cases operation with
  | check key now =>
      obtain ⟨decision, limiter, checked, _⟩ := wellFormed.checkSerialized key now
      exact ⟨_, by rw [limiterStep, checked, Option.map_some]⟩
  | sweep now => exact ⟨_, rfl⟩

theorem limiterStep_wellFormed {state next : LimiterRun} {operation : LimiterOp}
    (wellFormed : state.limiter.WellFormed) (stepped : limiterStep state operation = some next) :
    next.limiter.WellFormed := by
  cases operation with
  | check key now =>
      obtain ⟨decision, outcome, _⟩ := limiterStep_check wellFormed stepped
      exact outcome.wellFormed wellFormed
  | sweep now =>
      rcases (limiterStep_sweep stepped).2 with ⟨_, same⟩ | forgets
      · rw [same]
        exact wellFormed
      · exact forgets.wellFormed wellFormed

theorem fresh_wellFormed (burst : UInt32) (perSecond : Option ℚ) (maxBuckets : Nat) (start : ℚ) :
    (LimiterRun.fresh burst perSecond maxBuckets start).limiter.WellFormed :=
  RateLimiter.newWithLimit_wellFormed burst perSecond maxBuckets start

theorem exec_limiter_total {state : LimiterRun} (wellFormed : state.limiter.WellFormed)
    (operations : List LimiterOp) :
    ∃ final, Execution.exec limiterStep state operations = some final := by
  induction operations generalizing state with
  | nil => exact ⟨state, rfl⟩
  | cons operation rest ih =>
      obtain ⟨next, stepped⟩ := limiterStep_enabled wellFormed operation
      obtain ⟨final, run⟩ := ih (limiterStep_wellFormed wellFormed stepped)
      exact ⟨final, (Execution.exec_cons_some limiterStep).mpr ⟨next, stepped, run⟩⟩

end ZedRegistry
