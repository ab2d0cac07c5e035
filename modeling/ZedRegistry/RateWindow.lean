import ZedRegistry.RateLimit

/-!
# What a credential can obtain in a window of time

The budget of a key is its balance when the window starts, or now, whichever is
later, and what the window still refills.  Every allowed request in the window
is paid from it, and forgetting buckets never adds to it.
-/

set_option autoImplicit false

namespace ZedRegistry

open TokenBucket

def allowsWithin (key : String) (opens closes : ℚ) (answers : List Verdict) : Nat :=
  answers.countP fun answer =>
    answer.key = key && answer.decision = .allow && opens ≤ answer.time && answer.time ≤ closes

namespace RateLimiter

def budget (limiter : RateLimiter) (key : String) (opens closes : ℚ) : ℚ :=
  if max limiter.clock opens ≤ closes then
    limiter.balance key (max limiter.clock opens) +
      (closes - max limiter.clock opens) * limiter.perSecond
  else 0

theorem WellFormed.budget_nonneg {limiter : RateLimiter} (wellFormed : limiter.WellFormed)
    (key : String) (opens closes : ℚ) : 0 ≤ limiter.budget key opens closes := by
  unfold budget
  split
  · rename_i before
    have held := wellFormed.balance_nonneg key (le_max_left limiter.clock opens)
    have refilled := mul_nonneg (sub_nonneg.mpr before) wellFormed.perSecond.le
    linarith
  · exact le_rfl

/-- A full bucket at the start of the window is the most a key can have. -/
theorem WellFormed.budget_le {limiter : RateLimiter} (wellFormed : limiter.WellFormed)
    (key : String) {opens closes : ℚ} (window : opens ≤ closes) :
    limiter.budget key opens closes ≤
      limiter.burst + limiter.perSecond * (closes - opens) := by
  have capacity := wellFormed.burst
  have gain := wellFormed.perSecond
  unfold budget
  split
  · have full := limiter.balance_le_burst key (max limiter.clock opens)
    have starts := le_max_right limiter.clock opens
    have refilled : (closes - max limiter.clock opens) * limiter.perSecond ≤
        (closes - opens) * limiter.perSecond :=
      mul_le_mul_of_nonneg_right (by linarith) gain.le
    linarith
  · have refilled := mul_nonneg (sub_nonneg.mpr window) gain.le
    linarith

theorem Forgets.budget_le {limiter next : RateLimiter} {now : ℚ}
    (forgets : limiter.Forgets now next) (wellFormed : limiter.WellFormed) (key : String)
    (opens closes : ℚ) : next.budget key opens closes ≤ limiter.budget key opens closes := by
  have nonneg := wellFormed.budget_nonneg key opens closes
  have moved : max limiter.clock opens ≤ max now opens := max_le_max_right opens forgets.onTime
  unfold budget at nonneg ⊢
  rw [forgets.clock, forgets.perSecond]
  by_cases inside : max now opens ≤ closes
  · rw [if_pos inside, if_pos (moved.trans inside),
      forgets.balance wellFormed key (le_max_left now opens)]
    have grown := wellFormed.balance_later key moved
    linarith
  · rw [if_neg inside]
    exact nonneg

theorem charge_spends (perSecond balance : ℚ) :
    (charge perSecond balance).2 +
      (if (charge perSecond balance).1 = .allow then 1 else 0) = balance := by
  unfold charge
  by_cases enough : 1 ≤ balance
  · simp [enough]
  · simp [enough]

/-- Whether an answer counts in the window. -/
def counts (opens closes now : ℚ) (decision : Decision) : ℚ :=
  if decision = .allow ∧ opens ≤ now ∧ now ≤ closes then 1 else 0

/-- An allowed request is paid from the budget of its key. -/
theorem WellFormed.budget_taken {limiter : RateLimiter} (wellFormed : limiter.WellFormed)
    (key : String) {now : ℚ} (current : limiter.clock = now) (opens closes : ℚ) :
    counts opens closes now (charge limiter.perSecond (limiter.balance key now)).1 +
        (limiter.taken key now).budget key opens closes ≤ limiter.budget key opens closes := by
  have gain := wellFormed.perSecond.le
  have spends := charge_spends limiter.perSecond (limiter.balance key now)
  unfold budget counts
  rw [clock_taken, perSecond_taken, current, balance_taken_self]
  by_cases before : now < opens
  · rw [if_neg fun counted => absurd counted.2.1 (not_le.mpr before), zero_add]
    by_cases inside : max now opens ≤ closes
    · rw [if_pos inside, if_pos inside]
      have later : now ≤ max now opens := le_max_left now opens
      have waits : refill limiter.burst limiter.perSecond
          (charge limiter.perSecond (limiter.balance key now)).2 (max now opens - now) ≤
          limiter.balance key (max now opens) := by
        rw [← wellFormed.refill_balance key later]
        exact refill_mono _ _ _ (charge_le limiter.perSecond (limiter.balance key now))
      linarith
    · rw [if_neg inside, if_neg inside]
  · have started : max now opens = now := max_eq_left (not_lt.mp before)
    rw [started, sub_self]
    by_cases inside : now ≤ closes
    · rw [if_pos inside, if_pos inside]
      have kept := refill_le_add limiter.burst limiter.perSecond
        (charge limiter.perSecond (limiter.balance key now)).2 0
      rw [zero_mul, add_zero] at kept
      have window : opens ≤ now ∧ now ≤ closes := ⟨not_lt.mp before, inside⟩
      simp only [window, and_self, and_true]
      linarith
    · rw [if_neg inside, if_neg inside, if_neg fun counted => absurd counted.2.2 inside]
      exact (add_zero 0).le

theorem budget_taken_other (limiter : RateLimiter) {key other : String} (now opens closes : ℚ)
    (differs : other ≠ key) :
    (limiter.taken key now).budget other opens closes = limiter.budget other opens closes := by
  unfold budget
  rw [balance_taken_other limiter now _ differs]
  rfl

/-- No check adds to the budget of a key, and one it allows is paid. -/
theorem CheckOutcome.budget_le {limiter next : RateLimiter} {asked : String} {now : ℚ}
    {decision : Decision} (outcome : CheckOutcome limiter asked now decision next)
    (wellFormed : limiter.WellFormed) (key : String) (opens closes : ℚ) :
    (if asked = key then counts opens closes now decision else 0) +
      next.budget key opens closes ≤ limiter.budget key opens closes := by
  cases outcome with
  | rewound behind => simp [counts]
  | refused _ forgets capacity =>
      have kept := forgets.budget_le wellFormed key opens closes
      simpa [counts] using kept
  | charged middle forgets room =>
      have kept := forgets.budget_le wellFormed key opens closes
      by_cases same : asked = key
      · subst same
        have paid := (forgets.wellFormed wellFormed).budget_taken asked forgets.clock opens closes
        rw [if_pos rfl]
        exact paid.trans kept
      · rw [if_neg same, zero_add, budget_taken_other middle now opens closes (Ne.symm same)]
        exact kept

end RateLimiter

theorem allowsWithin_append (key : String) (opens closes : ℚ) (answers : List Verdict)
    (answer : Verdict) :
    (allowsWithin key opens closes (answers ++ [answer]) : ℚ) =
      allowsWithin key opens closes answers +
        (if answer.key = key then RateLimiter.counts opens closes answer.time answer.decision
          else 0) := by
  unfold allowsWithin RateLimiter.counts
  rw [List.countP_append, Nat.cast_add, List.countP_singleton]
  by_cases same : answer.key = key
  · simp [same, and_assoc]
  · simp [same]

/-- What is spent in the window and what is left of the budget never grows. -/
theorem limiterStep_spent {state next : LimiterRun} {operation : LimiterOp}
    (wellFormed : state.limiter.WellFormed)
    (stepped : limiterStep state operation = some next) (key : String) (opens closes : ℚ) :
    allowsWithin key opens closes next.answers + next.limiter.budget key opens closes ≤
      allowsWithin key opens closes state.answers + state.limiter.budget key opens closes := by
  cases operation with
  | check asked now =>
      obtain ⟨decision, outcome, answered⟩ := limiterStep_check wellFormed stepped
      have paid := outcome.budget_le wellFormed key opens closes
      rw [answered, allowsWithin_append]
      linarith
  | sweep now =>
      obtain ⟨answered, moved⟩ := limiterStep_sweep stepped
      rw [answered]
      rcases moved with ⟨_, same⟩ | forgets
      · rw [same]
      · have kept := forgets.budget_le wellFormed key opens closes
        linarith

theorem exec_spent {state final : LimiterRun} {operations : List LimiterOp}
    (wellFormed : state.limiter.WellFormed)
    (run : Execution.exec limiterStep state operations = some final) (key : String)
    (opens closes : ℚ) :
    allowsWithin key opens closes final.answers + final.limiter.budget key opens closes ≤
      allowsWithin key opens closes state.answers + state.limiter.budget key opens closes := by
  induction operations generalizing state with
  | nil =>
      obtain rfl := Option.some.inj run
      exact le_rfl
  | cons operation rest ih =>
      obtain ⟨next, stepped, run⟩ := (Execution.exec_cons_some limiterStep).mp run
      exact (ih (limiterStep_wellFormed wellFormed stepped) run).trans
        (limiterStep_spent wellFormed stepped key opens closes)

/-- Between two instants a credential is allowed at most a burst and what the
time between them refills, in every run of checks and sweeps. -/
theorem allows_in_window_le (burst : UInt32) (perSecond : Option ℚ) (maxBuckets : Nat)
    (start : ℚ) (operations : List LimiterOp) (key : String) {opens closes : ℚ}
    (window : opens ≤ closes) :
    ∃ final, Execution.exec limiterStep (.fresh burst perSecond maxBuckets start) operations =
        some final ∧
      (allowsWithin key opens closes final.answers : ℚ) ≤
        (RateLimiter.newWithLimit burst perSecond maxBuckets start).burst +
          (RateLimiter.newWithLimit burst perSecond maxBuckets start).perSecond *
            (closes - opens) := by
  have wellFormed := fresh_wellFormed burst perSecond maxBuckets start
  obtain ⟨final, run⟩ := exec_limiter_total wellFormed operations
  refine ⟨final, run, ?_⟩
  have finalWell : final.limiter.WellFormed :=
    Execution.exec_invariant limiterStep
      (fun _ _ _ holds stepped => limiterStep_wellFormed holds stepped) wellFormed run
  have left := finalWell.budget_nonneg key opens closes
  calc (allowsWithin key opens closes final.answers : ℚ)
      ≤ allowsWithin key opens closes final.answers + final.limiter.budget key opens closes := by
        linarith
    _ ≤ allowsWithin key opens closes [] +
          (LimiterRun.fresh burst perSecond maxBuckets start).limiter.budget key opens closes :=
        exec_spent wellFormed run key opens closes
    _ = (RateLimiter.newWithLimit burst perSecond maxBuckets start).budget key opens closes :=
        zero_add _
    _ ≤ _ := wellFormed.budget_le key window

theorem allows_in_window_le_sample :
    (0 : ℚ) ≤ 2 ∧
      ∃ final, Execution.exec limiterStep (.fresh 3 (some 1) 2 0)
          [.check "tok" 0, .check "tok" 0, .sweep 1, .check "tok" 2] = some final ∧
        (allowsWithin "tok" 0 2 final.answers : ℚ) ≤
          (RateLimiter.newWithLimit 3 (some 1) 2 0).burst +
            (RateLimiter.newWithLimit 3 (some 1) 2 0).perSecond * (2 - 0) :=
  ⟨zero_le_two, allows_in_window_le 3 (some 1) 2 0 _ "tok" zero_le_two⟩

end ZedRegistry
