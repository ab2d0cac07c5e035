import ZedRegistry.RateLimit

/-!
# Eviction is unobservable

The reference limiter charges the same buckets, has no bound on its table and
never removes one.  The limiter agrees with it on every balance from now on, and
so on every decision, as long as no check is refused for capacity.
-/

set_option autoImplicit false

namespace ZedRegistry

open TokenBucket

/-! ## The reference limiter -/

namespace RateLimiter

def checkUnbounded (limiter : RateLimiter) (key : String) (now : ℚ) :
    Option (Decision × RateLimiter) :=
  if now < limiter.clock then some (.deny 1, limiter)
  else { limiter with clock := now }.chargeKey key now

/-- A sweep that only moves the watermark. -/
def tick (limiter : RateLimiter) (now : ℚ) : RateLimiter :=
  if now < limiter.clock then limiter else { limiter with clock := now }

end RateLimiter

def referenceStep (state : LimiterRun) : LimiterOp → Option LimiterRun
  | .check key now => (state.limiter.checkUnbounded key now).map fun (decision, limiter) =>
    ⟨limiter, state.answers ++ [⟨key, now, decision⟩]⟩
  | .sweep now => some { state with limiter := state.limiter.tick now }

/-! ## The simulation -/

namespace RateLimiter

/-- From the clock on, both limiters find the same balance for every key. -/
structure Agrees (limiter reference : RateLimiter) : Prop where
  clock : reference.clock = limiter.clock
  burst : reference.burst = limiter.burst
  perSecond : reference.perSecond = limiter.perSecond
  balance : ∀ key time, limiter.clock ≤ time →
    reference.balance key time = limiter.balance key time

theorem Agrees.refl (limiter : RateLimiter) : limiter.Agrees limiter :=
  ⟨rfl, rfl, rfl, fun _ _ _ => rfl⟩

theorem Agrees.forgets {limiter reference next : RateLimiter} {now : ℚ}
    (agrees : limiter.Agrees reference) (wellFormed : limiter.WellFormed)
    (forgets : limiter.Forgets now next) : next.Agrees { reference with clock := now } where
  clock := forgets.clock.symm
  burst := agrees.burst.trans forgets.burst.symm
  perSecond := agrees.perSecond.trans forgets.perSecond.symm
  balance key time later := by
    rw [forgets.clock] at later
    rw [forgets.balance wellFormed key later]
    exact agrees.balance key time (forgets.onTime.trans later)

theorem Agrees.taken {limiter reference : RateLimiter} {now : ℚ}
    (agrees : limiter.Agrees reference) (current : limiter.clock = now) (key : String) :
    (limiter.taken key now).Agrees (reference.taken key now) where
  clock := agrees.clock
  burst := agrees.burst
  perSecond := agrees.perSecond
  balance other time later := by
    by_cases same : other = key
    · subst same
      rw [balance_taken_self, balance_taken_self, agrees.burst, agrees.perSecond,
        agrees.balance other now current.le]
    · rw [balance_taken_other limiter now time same, balance_taken_other reference now time same]
      exact agrees.balance other time later

/-- A check that is not refused for capacity gets the reference's decision. -/
theorem Agrees.check {limiter reference next : RateLimiter} {key : String} {now : ℚ}
    {decision : Decision} (agrees : limiter.Agrees reference) (wellFormed : limiter.WellFormed)
    (referenceWell : reference.WellFormed)
    (outcome : CheckOutcome limiter key now decision next)
    (room : ¬ limiter.RefusedForCapacity key now) :
    ∃ after, reference.checkUnbounded key now = some (decision, after) ∧
      next.Agrees after ∧ after.WellFormed := by
  unfold checkUnbounded
  rw [agrees.clock]
  cases outcome with
  | rewound behind => exact ⟨reference, if_pos behind, agrees, referenceWell⟩
  | refused _ forgets capacity => exact absurd capacity room
  | charged middle forgets _ =>
      have moved := agrees.forgets wellFormed forgets
      have onTime : reference.clock ≤ now := agrees.clock.trans_le forgets.onTime
      have movedWell : ({ reference with clock := now } : RateLimiter).WellFormed :=
        (forgets_nothing onTime).wellFormed referenceWell
      refine ⟨_, (if_neg (not_lt.mpr forgets.onTime)).trans ?_,
        moved.taken forgets.clock key, movedWell.taken key rfl⟩
      rw [movedWell.chargeKey key rfl, moved.balance key now forgets.clock.le, moved.perSecond]

theorem Agrees.tick {limiter reference next : RateLimiter} {now : ℚ}
    (agrees : limiter.Agrees reference) (wellFormed : limiter.WellFormed)
    (referenceWell : reference.WellFormed)
    (moved : (now < limiter.clock ∧ next = limiter) ∨ limiter.Forgets now next) :
    next.Agrees (reference.tick now) ∧ (reference.tick now).WellFormed := by
  unfold RateLimiter.tick
  rw [agrees.clock]
  rcases moved with ⟨behind, same⟩ | forgets
  · rw [if_pos behind, same]
    exact ⟨agrees, referenceWell⟩
  · rw [if_neg (not_lt.mpr forgets.onTime)]
    have onTime : reference.clock ≤ now := agrees.clock.trans_le forgets.onTime
    exact ⟨agrees.forgets wellFormed forgets,
      (forgets_nothing onTime).wellFormed referenceWell⟩

end RateLimiter

/-- The operation is not a check that the table has no room for. -/
def HasRoom (state : LimiterRun) : LimiterOp → Prop
  | .check key now => ¬ state.limiter.RefusedForCapacity key now
  | .sweep _ => True

instance (state : LimiterRun) : (operation : LimiterOp) → Decidable (HasRoom state operation)
  | .check key now => inferInstanceAs (Decidable (¬ state.limiter.RefusedForCapacity key now))
  | .sweep _ => isTrue trivial

/-- The two runs have answered alike and agree on what is to come. -/
structure RunsAgree (state reference : LimiterRun) : Prop where
  answers : reference.answers = state.answers
  limiter : state.limiter.Agrees reference.limiter
  wellFormed : state.limiter.WellFormed
  referenceWell : reference.limiter.WellFormed

theorem RunsAgree.step {state reference next : LimiterRun} {operation : LimiterOp}
    (agree : RunsAgree state reference) (room : HasRoom state operation)
    (stepped : limiterStep state operation = some next) :
    ∃ after, referenceStep reference operation = some after ∧ RunsAgree next after := by
  have wellFormed := limiterStep_wellFormed agree.wellFormed stepped
  cases operation with
  | check key now =>
      obtain ⟨decision, outcome, answered⟩ := limiterStep_check agree.wellFormed stepped
      obtain ⟨after, checked, agrees, afterWell⟩ :=
        agree.limiter.check agree.wellFormed agree.referenceWell outcome room
      refine ⟨_, by rw [referenceStep, checked, Option.map_some], ?_, agrees, wellFormed,
        afterWell⟩
      rw [answered, agree.answers]
  | sweep now =>
      obtain ⟨answered, moved⟩ := limiterStep_sweep stepped
      obtain ⟨agrees, afterWell⟩ :=
        agree.limiter.tick agree.wellFormed agree.referenceWell moved
      exact ⟨_, rfl, agree.answers.trans answered.symm, agrees, wellFormed, afterWell⟩

theorem RunsAgree.exec {state reference final : LimiterRun} {operations : List LimiterOp}
    (agree : RunsAgree state reference)
    (room : Execution.Allowed limiterStep HasRoom state operations)
    (run : Execution.exec limiterStep state operations = some final) :
    ∃ after, Execution.exec referenceStep reference operations = some after ∧
      RunsAgree final after := by
  induction operations generalizing state reference with
  | nil =>
      obtain rfl := Option.some.inj run
      exact ⟨reference, rfl, agree⟩
  | cons operation rest ih =>
      obtain ⟨next, stepped, run⟩ := (Execution.exec_cons_some limiterStep).mp run
      obtain ⟨middle, referenceStepped, agree⟩ := agree.step room.1 stepped
      obtain ⟨after, referenceRun, agree⟩ := ih agree (room.2 next stepped) run
      exact ⟨after, (Execution.exec_cons_some referenceStep).mpr
        ⟨middle, referenceStepped, referenceRun⟩, agree⟩

/-! ## The checks of one key -/

def answersOf (key : String) (answers : List Verdict) : List Verdict :=
  answers.filter fun answer => answer.key = key

def ownChecks (key : String) (operations : List LimiterOp) : List LimiterOp :=
  operations.filter fun operation => match operation with
    | .check asked _ => asked = key
    | .sweep _ => false

/-- No check comes before the watermark: check times do not decrease, and no
sweep runs at a time that a later check has not reached. -/
def Timely : ℚ → List LimiterOp → Prop
  | _, [] => True
  | clock, .check _ now :: rest => clock ≤ now ∧ Timely now rest
  | clock, .sweep now :: rest => Timely (max clock now) rest

/-- One run has the bucket and the answers of `key` that the other has, at a
clock that the other has reached. -/
structure SameKey (key : String) (state own : LimiterRun) : Prop where
  clock : own.limiter.clock ≤ state.limiter.clock
  burst : own.limiter.burst = state.limiter.burst
  perSecond : own.limiter.perSecond = state.limiter.perSecond
  bucket : own.limiter.buckets.lookup key = state.limiter.buckets.lookup key
  answers : own.answers = answersOf key state.answers
  wellFormed : state.limiter.WellFormed
  ownWell : own.limiter.WellFormed

theorem SameKey.balance {key : String} {state own : LimiterRun} (same : SameKey key state own)
    (time : ℚ) : own.limiter.balance key time = state.limiter.balance key time := by
  unfold RateLimiter.balance
  rw [same.bucket, same.burst, same.perSecond]

theorem answersOf_append (key : String) (answers : List Verdict) (answer : Verdict) :
    answersOf key (answers ++ [answer]) =
      answersOf key answers ++ if answer.key = key then [answer] else [] := by
  unfold answersOf
  rw [List.filter_append]
  by_cases same : answer.key = key
  · simp [same]
  · simp [same]

/-- A check of the reference that is not behind its clock. -/
theorem referenceStep_check {state : LimiterRun} (wellFormed : state.limiter.WellFormed)
    (key : String) {now : ℚ} (onTime : state.limiter.clock ≤ now) :
    ∃ next, referenceStep state (.check key now) = some next ∧ next.limiter.WellFormed ∧
      next.limiter = ({ state.limiter with clock := now } : RateLimiter).taken key now ∧
      next.answers = state.answers ++
        [⟨key, now, (charge state.limiter.perSecond (state.limiter.balance key now)).1⟩] := by
  have movedWell : ({ state.limiter with clock := now } : RateLimiter).WellFormed :=
    (RateLimiter.forgets_nothing onTime).wellFormed wellFormed
  have charged := movedWell.chargeKey key rfl
  refine ⟨⟨_, _⟩, ?_, movedWell.taken key rfl, rfl, rfl⟩
  rw [referenceStep, RateLimiter.checkUnbounded, if_neg (not_lt.mpr onTime), charged,
    Option.map_some]
  rfl

theorem SameKey.own {key : String} {state own : LimiterRun} (same : SameKey key state own)
    {now : ℚ} (onTime : state.limiter.clock ≤ now) :
    ∃ next after, referenceStep state (.check key now) = some next ∧
      referenceStep own (.check key now) = some after ∧ SameKey key next after ∧
      next.limiter.clock = now := by
  obtain ⟨next, stepped, wellFormed, limiter, answered⟩ :=
    referenceStep_check same.wellFormed key onTime
  obtain ⟨after, ownStepped, ownWell, ownLimiter, ownAnswered⟩ :=
    referenceStep_check same.ownWell key (same.clock.trans onTime)
  refine ⟨next, after, stepped, ownStepped, ?_, by rw [limiter]; rfl⟩
  constructor
  · rw [limiter, ownLimiter]
    exact le_rfl
  · rw [limiter, ownLimiter]
    exact same.burst
  · rw [limiter, ownLimiter]
    exact same.perSecond
  · rw [limiter, ownLimiter, RateLimiter.lookup_taken_self, RateLimiter.lookup_taken_self]
    have found := same.balance now
    unfold RateLimiter.balance at found ⊢
    simp only [same.perSecond] at found ⊢
    rw [found]
  · rw [answered, ownAnswered, answersOf_append, if_pos rfl, same.answers, same.perSecond,
      same.balance now]
  · exact wellFormed
  · exact ownWell

theorem SameKey.other {key asked : String} {state own : LimiterRun}
    (same : SameKey key state own) (differs : asked ≠ key) {now : ℚ}
    (onTime : state.limiter.clock ≤ now) :
    ∃ next, referenceStep state (.check asked now) = some next ∧ SameKey key next own ∧
      next.limiter.clock = now := by
  obtain ⟨next, stepped, wellFormed, limiter, answered⟩ :=
    referenceStep_check same.wellFormed asked onTime
  refine ⟨next, stepped, ?_, by rw [limiter]; rfl⟩
  constructor
  · rw [limiter]
    exact same.clock.trans onTime
  · rw [limiter]
    exact same.burst
  · rw [limiter]
    exact same.perSecond
  · rw [limiter, RateLimiter.lookup_taken_other _ now (Ne.symm differs)]
    exact same.bucket
  · rw [answered, answersOf_append, if_neg differs, List.append_nil, same.answers]
  · exact wellFormed
  · exact same.ownWell

theorem SameKey.sweep {key : String} {state own : LimiterRun} (same : SameKey key state own)
    (now : ℚ) :
    SameKey key { state with limiter := state.limiter.tick now } own ∧
      (state.limiter.tick now).clock = max state.limiter.clock now := by
  unfold RateLimiter.tick
  by_cases behind : now < state.limiter.clock
  · rw [if_pos behind, max_eq_left behind.le]
    exact ⟨same, rfl⟩
  · have onTime := not_lt.mp behind
    rw [if_neg behind, max_eq_right onTime]
    exact ⟨⟨same.clock.trans onTime, same.burst, same.perSecond, same.bucket, same.answers,
      (RateLimiter.forgets_nothing onTime).wellFormed same.wellFormed, same.ownWell⟩, rfl⟩

/-- The reference answers the checks of a key as if no other key existed. -/
theorem SameKey.exec {key : String} {state own : LimiterRun} (same : SameKey key state own)
    (operations : List LimiterOp) (timely : Timely state.limiter.clock operations) :
    ∃ final after, Execution.exec referenceStep state operations = some final ∧
      Execution.exec referenceStep own (ownChecks key operations) = some after ∧
      SameKey key final after := by
  induction operations generalizing state own with
  | nil => exact ⟨state, own, rfl, rfl, same⟩
  | cons operation rest ih =>
      cases operation with
      | check asked now =>
          obtain ⟨onTime, timely⟩ := timely
          by_cases mine : asked = key
          · subst mine
            obtain ⟨next, middle, stepped, ownStepped, same, reached⟩ := same.own onTime
            rw [← reached] at timely
            obtain ⟨final, after, run, ownRun, same⟩ := ih same timely
            refine ⟨final, after, ?_, ?_, same⟩
            · exact (Execution.exec_cons_some referenceStep).mpr ⟨next, stepped, run⟩
            · have here : ownChecks asked (.check asked now :: rest) =
                  .check asked now :: ownChecks asked rest := by simp [ownChecks]
              rw [here]
              exact (Execution.exec_cons_some referenceStep).mpr ⟨middle, ownStepped, ownRun⟩
          · obtain ⟨next, stepped, same, reached⟩ := same.other mine onTime
            rw [← reached] at timely
            obtain ⟨final, after, run, ownRun, same⟩ := ih same timely
            refine ⟨final, after, ?_, ?_, same⟩
            · exact (Execution.exec_cons_some referenceStep).mpr ⟨next, stepped, run⟩
            · have skipped : ownChecks key (.check asked now :: rest) = ownChecks key rest := by
                simp [ownChecks, mine]
              rw [skipped]
              exact ownRun
      | sweep now =>
          obtain ⟨swept, reached⟩ := same.sweep now
          have timely : Timely (state.limiter.tick now).clock rest := by
            rw [reached]
            exact timely
          obtain ⟨final, after, run, ownRun, same⟩ := ih swept timely
          refine ⟨final, after, ?_, ?_, same⟩
          · exact (Execution.exec_cons_some referenceStep).mpr ⟨_, rfl, run⟩
          · have skipped : ownChecks key (.sweep now :: rest) = ownChecks key rest := by
              simp [ownChecks]
            rw [skipped]
            exact ownRun

/-- A run that refuses no check for capacity answers every check as the
reference does, whatever was evicted and when, and answers the checks of a key
as the reference answers these checks alone. -/
theorem eviction_unobservable (burst : UInt32) (perSecond : Option ℚ) (maxBuckets : Nat)
    (start : ℚ) (operations : List LimiterOp)
    (room : Execution.Allowed limiterStep HasRoom
      (.fresh burst perSecond maxBuckets start) operations) :
    ∃ final reference,
      Execution.exec limiterStep (.fresh burst perSecond maxBuckets start) operations =
          some final ∧
        Execution.exec referenceStep (.fresh burst perSecond maxBuckets start) operations =
          some reference ∧
        final.answers = reference.answers ∧
        (Timely start operations → ∀ key, ∃ own,
          Execution.exec referenceStep (.fresh burst perSecond maxBuckets start)
              (ownChecks key operations) = some own ∧
            answersOf key final.answers = own.answers) := by
  have wellFormed := fresh_wellFormed burst perSecond maxBuckets start
  obtain ⟨final, run⟩ := exec_limiter_total wellFormed operations
  have agree : RunsAgree (.fresh burst perSecond maxBuckets start)
      (.fresh burst perSecond maxBuckets start) :=
    ⟨rfl, .refl _, wellFormed, wellFormed⟩
  obtain ⟨reference, referenceRun, agree⟩ := agree.exec room run
  refine ⟨final, reference, run, referenceRun, agree.answers.symm, ?_⟩
  intro timely key
  have same : SameKey key (.fresh burst perSecond maxBuckets start)
      (.fresh burst perSecond maxBuckets start) :=
    ⟨le_rfl, rfl, rfl, rfl, rfl, wellFormed, wellFormed⟩
  obtain ⟨again, own, againRun, ownRun, same⟩ := same.exec operations timely
  rw [referenceRun] at againRun
  obtain rfl := Option.some.inj againRun
  exact ⟨own, ownRun, by rw [← agree.answers, same.answers]⟩

theorem eviction_unobservable_sample :
    Execution.Allowed limiterStep HasRoom (.fresh 2 (some 1) 2 0)
        [.check "a" 0, .check "b" 1, .sweep 700, .check "c" 700, .check "a" 701] ∧
      ∃ final reference,
        Execution.exec limiterStep (.fresh 2 (some 1) 2 0)
            [.check "a" 0, .check "b" 1, .sweep 700, .check "c" 700, .check "a" 701] =
            some final ∧
          Execution.exec referenceStep (.fresh 2 (some 1) 2 0)
              [.check "a" 0, .check "b" 1, .sweep 700, .check "c" 700, .check "a" 701] =
            some reference ∧
          final.answers = reference.answers := by
  have room : Execution.Allowed limiterStep HasRoom (.fresh 2 (some 1) 2 0)
      [.check "a" 0, .check "b" 1, .sweep 700, .check "c" 700, .check "a" 701] := by
    decide +kernel
  obtain ⟨final, reference, run, referenceRun, same, _⟩ :=
    eviction_unobservable 2 (some 1) 2 0 _ room
  exact ⟨room, final, reference, run, referenceRun, same⟩

end ZedRegistry
