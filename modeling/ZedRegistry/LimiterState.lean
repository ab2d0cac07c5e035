import ZedRegistry.RateLimit

/-!
# The state of a rate limiter

The table never outgrows its bound, every bucket holds between zero tokens and
the burst and was last seen no later than the watermark, and an operation at a
time before the watermark changes nothing.
-/

set_option autoImplicit false

namespace ZedRegistry

namespace RateLimiter

def NoBucketOverfull (limiter : RateLimiter) : Prop :=
  ∀ key bucket, limiter.buckets.lookup key = some bucket → bucket.tokens ≤ limiter.burst

def WithinCapacity (limiter : RateLimiter) : Prop :=
  AssocTable.size limiter.buckets ≤ limiter.maxBuckets

/-- What a limiter made with these settings keeps true of its table. -/
structure Coherent (burst : ℚ) (maxBuckets : Nat) (limiter : RateLimiter) : Prop where
  wellFormed : limiter.WellFormed
  burst : limiter.burst = burst
  maxBuckets : limiter.maxBuckets = maxBuckets
  bounded : limiter.NoBucketOverfull
  within : limiter.WithinCapacity

theorem newWithLimit_coherent (burst : UInt32) (perSecond : Option ℚ) (maxBuckets : Nat)
    (clock : ℚ) :
    (newWithLimit burst perSecond maxBuckets clock).Coherent (max burst.toNat 1 : Nat)
      (max maxBuckets 1) where
  wellFormed := newWithLimit_wellFormed burst perSecond maxBuckets clock
  burst := rfl
  maxBuckets := rfl
  bounded key bucket found := by
    simp [newWithLimit] at found
  within := Nat.zero_le _

/-! ## Balances -/

theorem Forgets.noBucketOverfull {limiter next : RateLimiter} {now : ℚ}
    (forgets : limiter.Forgets now next) (bounded : limiter.NoBucketOverfull) :
    next.NoBucketOverfull := by
  intro key bucket found
  rw [forgets.burst]
  exact bounded key bucket (forgets.lookup_some found)

/-- A charged bucket holds no more than the balance it was charged from. -/
theorem taken_noBucketOverfull {limiter : RateLimiter} (bounded : limiter.NoBucketOverfull)
    (key : String) (now : ℚ) : (limiter.taken key now).NoBucketOverfull := by
  intro other bucket found
  rcases lookup_taken found with rfl | earlier
  · exact (charge_le _ _).trans (balance_le_burst limiter key now)
  · exact bounded other bucket earlier

theorem CheckOutcome.noBucketOverfull {limiter next : RateLimiter} {key : String} {now : ℚ}
    {decision : Decision} (outcome : CheckOutcome limiter key now decision next)
    (bounded : limiter.NoBucketOverfull) : next.NoBucketOverfull := by
  cases outcome with
  | rewound behind => exact bounded
  | refused _ forgets capacity => exact forgets.noBucketOverfull bounded
  | charged middle forgets room =>
      exact taken_noBucketOverfull (forgets.noBucketOverfull bounded) key now

theorem sweepSerialized_noBucketOverfull {limiter : RateLimiter}
    (bounded : limiter.NoBucketOverfull) (now : ℚ) :
    (limiter.sweepSerialized now).NoBucketOverfull := by
  rcases limiter.sweepSerialized_cases now with ⟨_, same⟩ | forgets
  · rw [same]
    exact bounded
  · exact forgets.noBucketOverfull bounded

/-! ## Capacity -/

theorem WithinCapacity.reclaim {limiter : RateLimiter} (within : limiter.WithinCapacity)
    (now : ℚ) : (limiter.reclaim now).WithinCapacity :=
  (AssocTable.size_retain_le _ _).trans within

/-- A key is charged only when it has a bucket or the table has room for one. -/
theorem WithinCapacity.chargeKey {limiter next : RateLimiter} {key : String} {now : ℚ}
    {decision : Decision} (within : limiter.WithinCapacity) (room : ¬ limiter.crowded key)
    (charged : limiter.chargeKey key now = some (decision, next)) :
    next.WithinCapacity ∧ next.maxBuckets = limiter.maxBuckets := by
  obtain ⟨⟨_, bucket⟩, _, result⟩ := Option.map_eq_some_iff.mp charged
  obtain ⟨_, rfl⟩ := Prod.mk.inj result
  refine ⟨?_, rfl⟩
  unfold WithinCapacity
  by_cases present : key ∈ limiter.buckets
  · rw [AssocTable.size_insert_of_present present]
    exact within
  · rw [AssocTable.size_insert_of_absent present]
    have below : ¬ limiter.maxBuckets ≤ AssocTable.size limiter.buckets :=
      fun full => room ⟨present, full⟩
    exact not_le.mp below

theorem WithinCapacity.checkSerialized {limiter next : RateLimiter} {key : String} {now : ℚ}
    {decision : Decision} (within : limiter.WithinCapacity)
    (checked : limiter.checkSerialized key now = some (decision, next)) :
    next.WithinCapacity ∧ next.maxBuckets = limiter.maxBuckets := by
  unfold RateLimiter.checkSerialized at checked
  by_cases behind : now < limiter.clock
  · rw [if_pos behind] at checked
    obtain ⟨_, rfl⟩ := Prod.mk.inj (Option.some.inj checked)
    exact ⟨within, rfl⟩
  · rw [if_neg behind] at checked
    have moved : ({ limiter with clock := now } : RateLimiter).WithinCapacity := within
    by_cases crowded : ({ limiter with clock := now } : RateLimiter).crowded key
    · have reclaimed := moved.reclaim now
      by_cases overfull : limiter.maxBuckets ≤
          AssocTable.size (({ limiter with clock := now } : RateLimiter).reclaim now).buckets
      · have refused := (if_pos crowded).symm.trans checked
        rw [if_pos overfull] at refused
        obtain ⟨_, rfl⟩ := Prod.mk.inj (Option.some.inj refused)
        exact ⟨reclaimed, rfl⟩
      · have charged := (if_pos crowded).symm.trans checked
        rw [if_neg overfull] at charged
        exact reclaimed.chargeKey (fun full => overfull full.2) charged
    · exact moved.chargeKey crowded ((if_neg crowded).symm.trans checked)

theorem WithinCapacity.sweepSerialized {limiter : RateLimiter} (within : limiter.WithinCapacity)
    (now : ℚ) : (limiter.sweepSerialized now).WithinCapacity ∧
      (limiter.sweepSerialized now).maxBuckets = limiter.maxBuckets := by
  unfold RateLimiter.sweepSerialized
  by_cases behind : now < limiter.clock
  · rw [if_pos behind]
    exact ⟨within, rfl⟩
  · rw [if_neg behind]
    have moved : ({ limiter with clock := now } : RateLimiter).WithinCapacity := within
    exact ⟨moved.reclaim now, rfl⟩

end RateLimiter

/-! ## Runs -/

def LimiterOp.time : LimiterOp → ℚ
  | .check _ now => now
  | .sweep now => now

theorem limiterStep_coherent {burst : ℚ} {maxBuckets : Nat} {state next : LimiterRun}
    {operation : LimiterOp} (coherent : state.limiter.Coherent burst maxBuckets)
    (stepped : limiterStep state operation = some next) :
    next.limiter.Coherent burst maxBuckets := by
  have wellFormed := limiterStep_wellFormed coherent.wellFormed stepped
  cases operation with
  | check key now =>
      obtain ⟨decision, outcome, _⟩ := limiterStep_check coherent.wellFormed stepped
      obtain ⟨⟨answer, limiter⟩, checked, result⟩ := Option.map_eq_some_iff.mp stepped
      obtain rfl := result
      obtain ⟨within, unchanged⟩ := coherent.within.checkSerialized checked
      exact ⟨wellFormed, outcome.settings.1.trans coherent.burst,
        unchanged.trans coherent.maxBuckets, outcome.noBucketOverfull coherent.bounded, within⟩
  | sweep now =>
      obtain rfl := Option.some.inj stepped
      obtain ⟨within, unchanged⟩ := coherent.within.sweepSerialized now
      have burst : (state.limiter.sweepSerialized now).burst = state.limiter.burst := by
        rcases state.limiter.sweepSerialized_cases now with ⟨_, same⟩ | forgets
        · rw [same]
        · exact forgets.burst
      exact ⟨wellFormed, burst.trans coherent.burst, unchanged.trans coherent.maxBuckets,
        RateLimiter.sweepSerialized_noBucketOverfull coherent.bounded now, within⟩

/-- An operation at a time before the watermark is answered without effect. -/
theorem limiterStep_rewound {state next : LimiterRun} {operation : LimiterOp}
    (behind : operation.time < state.limiter.clock)
    (stepped : limiterStep state operation = some next) : next.limiter = state.limiter := by
  cases operation with
  | check key now =>
      obtain ⟨⟨answer, limiter⟩, checked, result⟩ := Option.map_eq_some_iff.mp stepped
      obtain rfl := result
      have denied : state.limiter.checkSerialized key now = some (.deny 1, state.limiter) :=
        if_pos behind
      rw [denied] at checked
      exact (Prod.mk.inj (Option.some.inj checked)).2.symm
  | sweep now =>
      obtain rfl := Option.some.inj stepped
      exact if_pos behind

/-- Whatever checks and sweeps a limiter has seen, and at whatever times: its
table is within its bound, every bucket is within the burst and the watermark,
no operation panics and a rewound one changes nothing. -/
theorem limiter_state_coherent (burst : UInt32) (perSecond : Option ℚ) (maxBuckets : Nat)
    (start : ℚ) (operations : List LimiterOp) :
    ∃ state,
      Execution.exec limiterStep (.fresh burst perSecond maxBuckets start) operations =
          some state ∧
        state.limiter.maxBuckets = max maxBuckets 1 ∧
        state.limiter.burst = (max burst.toNat 1 : Nat) ∧
        AssocTable.size state.limiter.buckets ≤ state.limiter.maxBuckets ∧
        (∀ key bucket, state.limiter.buckets.lookup key = some bucket →
          0 ≤ bucket.tokens ∧ bucket.tokens ≤ state.limiter.burst ∧
            bucket.lastSeen ≤ state.limiter.clock) ∧
        (∀ operation, ∃ next, limiterStep state operation = some next) ∧
        ∀ operation next, operation.time < state.limiter.clock →
          limiterStep state operation = some next → next.limiter = state.limiter := by
  have fresh := RateLimiter.newWithLimit_coherent burst perSecond maxBuckets start
  obtain ⟨state, run⟩ := exec_limiter_total
    (fresh_wellFormed burst perSecond maxBuckets start) operations
  have coherent : state.limiter.Coherent (max burst.toNat 1 : Nat) (max maxBuckets 1) :=
    Execution.exec_invariant limiterStep (fun _ _ _ => limiterStep_coherent) fresh run
  refine ⟨state, run, coherent.maxBuckets, coherent.burst, coherent.within, ?_, ?_, ?_⟩
  · intro key bucket found
    exact ⟨coherent.wellFormed.tokens key bucket found, coherent.bounded key bucket found,
      coherent.wellFormed.watermark key bucket found⟩
  · exact limiterStep_enabled coherent.wellFormed
  · intro operation next behind stepped
    exact limiterStep_rewound behind stepped

end ZedRegistry
