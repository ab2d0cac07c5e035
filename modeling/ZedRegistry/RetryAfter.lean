import Mathlib.Order.Bounds.Basic
import ZedRegistry.RateLimit

/-!
# Retry-After

A key that was denied for lack of tokens is allowed again once it has waited as
long as it was told to, and no whole number of seconds below that is enough.
Until a check of the key is allowed, its balance is the one the denial found,
refilled.
-/

set_option autoImplicit false

namespace ZedRegistry

open TokenBucket

/-! ## Whole seconds -/

theorem charge_allow_iff {perSecond balance : ℚ} :
    (charge perSecond balance).1 = .allow ↔ 1 ≤ balance := by
  unfold charge
  by_cases enough : 1 ≤ balance
  · simp [enough]
  · simp [enough]

theorem charge_deny_iff {perSecond balance : ℚ} {wait : Nat} :
    (charge perSecond balance).1 = .deny wait ↔
      balance < 1 ∧ retryAfterSecs perSecond (1 - balance) = wait := by
  unfold charge
  by_cases enough : 1 ≤ balance
  · simp [enough]
  · simp [enough, not_le.mp enough]

/-- A denial leaves the balance as it is. -/
theorem charge_of_lacking {perSecond balance : ℚ} (lacking : balance < 1) :
    (charge perSecond balance).2 = balance := by
  rw [charge, if_neg (not_le.mpr lacking)]

theorem retryAfterSecs_isLeast {perSecond deficit : ℚ}
    (fits : deficit / perSecond ≤ (2 ^ 64 - 1 : Nat)) :
    IsLeast {wait : Nat | 1 ≤ wait ∧ deficit / perSecond ≤ wait}
      (retryAfterSecs perSecond deficit) := by
  have whole (wait : Nat) : deficit / perSecond ≤ wait ↔ ⌈deficit / perSecond⌉ ≤ (wait : ℤ) := by
    rw [Int.ceil_le, Int.cast_natCast]
  rw [whole] at fits
  simp only [whole, retryAfterSecs]
  constructor
  · constructor
    · omega
    · omega
  · rintro wait ⟨atLeastOne, enough⟩
    omega

namespace RateLimiter

/-- A check of `key` would be allowed. -/
def Allows (limiter : RateLimiter) (key : String) (now : ℚ) : Prop :=
  (limiter.checkSerialized key now).map Prod.fst = some .allow

instance (limiter : RateLimiter) (key : String) (now : ℚ) : Decidable (limiter.Allows key now) :=
  inferInstanceAs (Decidable (_ = _))

theorem CheckOutcome.allow_iff {limiter next : RateLimiter} {key : String} {now : ℚ}
    {decision : Decision} (outcome : CheckOutcome limiter key now decision next)
    (wellFormed : limiter.WellFormed) (onTime : limiter.clock ≤ now)
    (room : ¬ limiter.RefusedForCapacity key now) :
    decision = .allow ↔ 1 ≤ limiter.balance key now := by
  cases outcome with
  | rewound behind => exact absurd behind (not_lt.mpr onTime)
  | refused _ _ capacity => exact absurd capacity room
  | charged middle forgets _ =>
      rw [charge_allow_iff, forgets.balance wellFormed key le_rfl]

theorem WellFormed.allows_iff {limiter : RateLimiter} (wellFormed : limiter.WellFormed)
    {key : String} {now : ℚ} (onTime : limiter.clock ≤ now)
    (room : ¬ limiter.RefusedForCapacity key now) :
    limiter.Allows key now ↔ 1 ≤ limiter.balance key now := by
  obtain ⟨decision, next, checked, outcome⟩ := wellFormed.checkSerialized key now
  rw [← outcome.allow_iff wellFormed onTime room, Allows, checked, Option.map_some,
    Option.some.injEq]

/-- A key denied for lack of tokens is in the table, and was told what its balance asks for. -/
theorem CheckOutcome.denied {limiter next : RateLimiter} {key : String} {now : ℚ}
    {decision : Decision} {wait : Nat} (outcome : CheckOutcome limiter key now decision next)
    (wellFormed : limiter.WellFormed) (onTime : limiter.clock ≤ now)
    (room : ¬ limiter.RefusedForCapacity key now) (denied : decision = .deny wait) :
    retryAfterSecs limiter.perSecond (1 - limiter.balance key now) = wait ∧
      next.clock = now ∧ key ∈ next.buckets := by
  cases outcome with
  | rewound behind => exact absurd behind (not_lt.mpr onTime)
  | refused _ _ capacity => exact absurd capacity room
  | charged middle forgets _ =>
      rw [charge_deny_iff, forgets.balance wellFormed key le_rfl, forgets.perSecond] at denied
      have present : key ∈ (middle.taken key now).buckets :=
        (AList.mem_insert _).mpr (Or.inl rfl)
      exact ⟨denied.2, forgets.clock, present⟩

/-! ## What leaves a key undisturbed -/

/-- From the later watermark on, the key finds the balance it would have found. -/
structure Undisturbed (key : String) (limiter next : RateLimiter) : Prop where
  burst : next.burst = limiter.burst
  perSecond : next.perSecond = limiter.perSecond
  clock : limiter.clock ≤ next.clock
  balance : ∀ time, next.clock ≤ time → next.balance key time = limiter.balance key time

theorem Undisturbed.refl (key : String) (limiter : RateLimiter) : Undisturbed key limiter limiter :=
  ⟨rfl, rfl, le_rfl, fun _ _ => rfl⟩

theorem Undisturbed.trans {key : String} {first second third : RateLimiter}
    (early : Undisturbed key first second) (late : Undisturbed key second third) :
    Undisturbed key first third where
  burst := late.burst.trans early.burst
  perSecond := late.perSecond.trans early.perSecond
  clock := early.clock.trans late.clock
  balance time later :=
    (late.balance time later).trans (early.balance time (late.clock.trans later))

theorem Forgets.undisturbed {limiter next : RateLimiter} {now : ℚ}
    (forgets : limiter.Forgets now next) (wellFormed : limiter.WellFormed) (key : String) :
    Undisturbed key limiter next where
  burst := forgets.burst
  perSecond := forgets.perSecond
  clock := forgets.onTime.trans_eq forgets.clock.symm
  balance _ later := forgets.balance wellFormed key (forgets.clock.ge.trans later)

/-- Only an allowed request of a key takes from it. -/
theorem WellFormed.taken_undisturbed {limiter : RateLimiter} (wellFormed : limiter.WellFormed)
    {key asked : String} {now : ℚ} (current : limiter.clock = now)
    (spared : asked = key → limiter.balance asked now < 1) :
    Undisturbed key limiter (limiter.taken asked now) where
  burst := rfl
  perSecond := rfl
  clock := le_rfl
  balance time later := by
    by_cases same : key = asked
    · have forward : now ≤ time := current.ge.trans later
      subst same
      rw [balance_taken_self, charge_of_lacking (spared rfl), wellFormed.refill_balance key forward]
    · exact balance_taken_other limiter now time same

theorem CheckOutcome.undisturbed {limiter next : RateLimiter} {key asked : String} {now : ℚ}
    {decision : Decision} (outcome : CheckOutcome limiter asked now decision next)
    (wellFormed : limiter.WellFormed) (spared : asked = key → decision ≠ .allow) :
    Undisturbed key limiter next := by
  cases outcome with
  | rewound behind => exact .refl key limiter
  | refused _ forgets capacity => exact forgets.undisturbed wellFormed key
  | charged middle forgets room =>
      have lacking (same : asked = key) : middle.balance asked now < 1 :=
        not_le.mp fun enough => spared same (charge_allow_iff.mpr enough)
      exact (forgets.undisturbed wellFormed key).trans
        ((forgets.wellFormed wellFormed).taken_undisturbed forgets.clock lacking)

end RateLimiter

/-- The operation is a check of `key` that is allowed. -/
def Grants (key : String) (state : LimiterRun) : LimiterOp → Prop
  | .check asked now => asked = key ∧ state.limiter.Allows asked now
  | .sweep _ => False

theorem limiterStep_undisturbed {key : String} {state next : LimiterRun} {operation : LimiterOp}
    (wellFormed : state.limiter.WellFormed) (withheld : ¬ Grants key state operation)
    (stepped : limiterStep state operation = some next) :
    RateLimiter.Undisturbed key state.limiter next.limiter := by
  cases operation with
  | check asked now =>
      obtain ⟨decision, limiter, checked, outcome⟩ := wellFormed.checkSerialized asked now
      simp only [limiterStep, checked, Option.map_some, Option.some.injEq] at stepped
      subst stepped
      apply outcome.undisturbed wellFormed
      intro same allowed
      apply withheld
      rw [Grants, RateLimiter.Allows, checked, allowed]
      exact ⟨same, rfl⟩
  | sweep now =>
      rcases (limiterStep_sweep stepped).2 with ⟨_, same⟩ | forgets
      · rw [same]
        exact .refl key state.limiter
      · exact forgets.undisturbed wellFormed key

/-- A run in which no check of the key is allowed leaves it undisturbed. -/
theorem exec_undisturbed {key : String} {state final : LimiterRun} {operations : List LimiterOp}
    (wellFormed : state.limiter.WellFormed)
    (withheld : Execution.Allowed limiterStep (fun state operation => ¬ Grants key state operation)
      state operations)
    (run : Execution.exec limiterStep state operations = some final) :
    RateLimiter.Undisturbed key state.limiter final.limiter :=
  Execution.exec_monotone_of_allowed limiterStep
    (fun state => .refl key state.limiter) (fun _ _ _ => .trans)
    (fun _ _ _ wellFormed withheld stepped =>
      ⟨limiterStep_wellFormed wellFormed stepped,
        limiterStep_undisturbed wellFormed withheld stepped⟩)
    wellFormed withheld run

/-! ## The promise of a denial -/

/-- After a denial of `key` at `time`, waiting `wait` is enough for the next
check of it, whatever other checks, sweeps and further denials come before. -/
def HonestWait (denied : LimiterRun) (key : String) (time : ℚ) (wait : Nat) : Prop :=
  ∀ between later again, Execution.exec limiterStep denied between = some later →
    Execution.Allowed limiterStep (fun state operation => ¬ Grants key state operation)
      denied between →
    later.limiter.clock ≤ again → ¬ later.limiter.RefusedForCapacity key again →
    time + wait ≤ again → later.limiter.Allows key again

/-- `denied` is reached from `state` by denying `key` at `time` for lack of tokens. -/
structure LacksTokens (state denied : LimiterRun) (key : String) (time : ℚ) (wait : Nat) :
    Prop where
  onTime : state.limiter.clock ≤ time
  room : ¬ state.limiter.RefusedForCapacity key time
  stepped : limiterStep state (.check key time) = some denied
  answered : denied.answers = state.answers ++ [⟨key, time, .deny wait⟩]

theorem LacksTokens.withheld {state denied : LimiterRun} {key : String} {time : ℚ} {wait : Nat}
    (lacks : LacksTokens state denied key time wait) (wellFormed : state.limiter.WellFormed) :
    retryAfterSecs state.limiter.perSecond (1 - state.limiter.balance key time) = wait ∧
      denied.limiter.clock = time ∧ key ∈ denied.limiter.buckets ∧
      RateLimiter.Undisturbed key state.limiter denied.limiter := by
  obtain ⟨decision, outcome, answered⟩ := limiterStep_check wellFormed lacks.stepped
  have same := List.append_cancel_left (answered.symm.trans lacks.answered)
  have told : decision = .deny wait := congrArg Verdict.decision (List.cons.inj same).1
  obtain ⟨asks, clock, present⟩ := outcome.denied wellFormed lacks.onTime lacks.room told
  refine ⟨asks, clock, present, outcome.undisturbed wellFormed ?_⟩
  intro _ allowed
  rw [told] at allowed
  contradiction

/-- A wait is honest exactly when the missing tokens are refilled in it. -/
theorem LacksTokens.honestWait_iff {state denied : LimiterRun} {key : String} {time : ℚ}
    {wait : Nat} (lacks : LacksTokens state denied key time wait)
    (wellFormed : state.limiter.WellFormed) (seconds : Nat) :
    HonestWait denied key time seconds ↔
      (1 - state.limiter.balance key time) / state.limiter.perSecond ≤ seconds := by
  obtain ⟨_, clock, present, undisturbed⟩ := lacks.withheld wellFormed
  have deniedWell := limiterStep_wellFormed wellFormed lacks.stepped
  have refilled {again : ℚ} (forward : time ≤ again) : 1 ≤ state.limiter.balance key again ↔
      (1 - state.limiter.balance key time) / state.limiter.perSecond ≤ again - time := by
    rw [← wellFormed.refill_balance key forward,
      le_refill_iff wellFormed.perSecond wellFormed.burst]
  constructor
  · intro honest
    -- Nothing happens in between, and the key is checked as soon as it may be.
    have forward : time ≤ time + seconds := le_add_of_nonneg_right seconds.cast_nonneg
    have onTime : denied.limiter.clock ≤ time + seconds := clock.trans_le forward
    have room : ¬ denied.limiter.RefusedForCapacity key (time + seconds) :=
      fun refused => refused.2.1.1 present
    have allowed := honest [] denied (time + seconds) rfl trivial onTime room le_rfl
    rw [deniedWell.allows_iff onTime room, undisturbed.balance _ onTime, refilled forward,
      add_sub_cancel_left] at allowed
    exact allowed
  · intro enough between later again run withheld onTime room waited
    have laterWell : later.limiter.WellFormed :=
      Execution.exec_invariant limiterStep (fun _ _ _ => limiterStep_wellFormed) deniedWell run
    have spared := undisturbed.trans (exec_undisturbed deniedWell withheld run)
    have forward : time ≤ again := (le_add_of_nonneg_right seconds.cast_nonneg).trans waited
    rw [laterWell.allows_iff onTime room, spared.balance again onTime, refilled forward]
    exact enough.trans (le_sub_iff_add_le'.mpr waited)

/-- The wait a denial announces is the least honest one, as long as it fits its type. -/
theorem retry_after_least_honest (burst : UInt32) (perSecond : Option ℚ) (maxBuckets : Nat)
    (start : ℚ) {operations : List LimiterOp} {state denied : LimiterRun} {key : String}
    {time : ℚ} {wait : Nat}
    (reached : Execution.exec limiterStep (.fresh burst perSecond maxBuckets start) operations =
      some state)
    (lacks : LacksTokens state denied key time wait)
    (fits : (1 - state.limiter.balance key time) / state.limiter.perSecond ≤ (2 ^ 64 - 1 : Nat)) :
    IsLeast {seconds : Nat | 1 ≤ seconds ∧ HonestWait denied key time seconds} wait := by
  have wellFormed : state.limiter.WellFormed :=
    Execution.exec_invariant limiterStep (fun _ _ _ => limiterStep_wellFormed)
      (fresh_wellFormed burst perSecond maxBuckets start) reached
  obtain ⟨announced, _⟩ := lacks.withheld wellFormed
  simp only [lacks.honestWait_iff wellFormed]
  rw [← announced]
  exact retryAfterSecs_isLeast fits

/-- One token, refilled every two seconds. -/
theorem retry_after_least_honest_sample :
    ∃ state denied,
      Execution.exec limiterStep (.fresh 1 (some (1 / 2)) 2 0) [.check "a" 0] = some state ∧
        LacksTokens state denied "a" 0 2 ∧
        IsLeast {seconds : Nat | 1 ≤ seconds ∧ HonestWait denied "a" 0 seconds} 2 := by
  have concrete : ∀ state ∈ Execution.exec limiterStep (.fresh 1 (some (1 / 2)) 2 0)
      [.check "a" 0], state.limiter.clock ≤ 0 ∧ ¬ state.limiter.RefusedForCapacity "a" 0 ∧
        (limiterStep state (.check "a" 0)).map LimiterRun.answers =
          some (state.answers ++ [⟨"a", 0, .deny 2⟩]) ∧
        (1 - state.limiter.balance "a" 0) / state.limiter.perSecond ≤ (2 ^ 64 - 1 : Nat) := by
    decide +kernel
  obtain ⟨state, reached⟩ := exec_limiter_total (fresh_wellFormed 1 (some (1 / 2)) 2 0)
    [.check "a" 0]
  obtain ⟨onTime, room, answered, fits⟩ := concrete state reached
  obtain ⟨denied, stepped, answered⟩ := Option.map_eq_some_iff.mp answered
  have lacks : LacksTokens state denied "a" 0 2 := ⟨onTime, room, stepped, answered⟩
  exact ⟨state, denied, reached, lacks, retry_after_least_honest 1 (some (1 / 2)) 2 0 reached
    lacks fits⟩

end ZedRegistry
