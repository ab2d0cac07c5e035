import Mathlib.Algebra.Order.Ring.Int
import Mathlib.Data.Nat.Basic

/-!
# Loops that advance

A loop is a function from its state to another pass or a result.  Where every pass moves
a position on and none moves it past a limit, the loop ends, after as many passes as fit.
-/

set_option autoImplicit false

namespace BoundedLoop

/-- What one pass comes to. -/
inductive Pass (State Result : Type) where
  | again (state : State)
  | stop (result : Result)

variable {State Result : Type} (pass : State → Pass State Result)

/-- So many passes lead from one state to another. -/
inductive Passes : Nat → State → State → Prop where
  | nil (state : State) : Passes 0 state state
  | cons {count : Nat} {first second last : State} (stepped : pass first = .again second)
      (rest : Passes count second last) : Passes (count + 1) first last

/-- The loop stops after so many passes. -/
def Ends (count : Nat) (state : State) (result : Result) : Prop :=
  ∃ last, Passes pass count state last ∧ pass last = .stop result

variable {pass}

theorem Ends.cons {count : Nat} {first second : State} {result : Result}
    (stepped : pass first = .again second) (ends : Ends pass count second result) :
    Ends pass (count + 1) first result := by
  obtain ⟨last, passes, stopped⟩ := ends
  exact ⟨last, .cons stepped passes, stopped⟩

theorem Ends.unique {count other : Nat} {state : State} {result otherResult : Result}
    (ends : Ends pass count state result) (otherEnds : Ends pass other state otherResult) :
    count = other ∧ result = otherResult := by
  obtain ⟨last, passes, stopped⟩ := ends
  obtain ⟨otherLast, otherPasses, otherStopped⟩ := otherEnds
  induction passes generalizing other with
  | nil state =>
      cases otherPasses with
      | nil =>
          rw [stopped] at otherStopped
          cases otherStopped
          exact ⟨rfl, rfl⟩
      | cons stepped _ =>
          rw [stopped] at stepped
          cases stepped
  | cons stepped _ inductionHypothesis =>
      cases otherPasses with
      | nil =>
          rw [stepped] at otherStopped
          cases otherStopped
      | cons otherStepped rest =>
          rw [stepped] at otherStepped
          cases otherStepped
          obtain ⟨sameCount, sameResult⟩ := inductionHypothesis stopped rest
          exact ⟨congrArg (· + 1) sameCount, sameResult⟩

/-! ## Invariants -/

section Invariants

variable {valid : State → Prop}
  (kept : ∀ {state next}, valid state → pass state = .again next → valid next)
include kept

theorem Passes.keeps {count : Nat} {first last : State} (passes : Passes pass count first last)
    (start : valid first) : valid last := by
  induction passes with
  | nil => exact start
  | cons stepped _ inductionHypothesis => exact inductionHypothesis (kept start stepped)

/-- A value that no pass changes and that the loop returns where it stops. -/
theorem Ends.value {value : State → Result}
    (same : ∀ {state next}, valid state → pass state = .again next → value state = value next)
    (stops : ∀ {state result}, valid state → pass state = .stop result → value state = result)
    {count : Nat} {state : State} {result : Result} (start : valid state)
    (ends : Ends pass count state result) : value state = result := by
  obtain ⟨last, passes, stopped⟩ := ends
  induction passes with
  | nil => exact stops start stopped
  | cons stepped _ inductionHypothesis =>
      rw [same start stepped]
      exact inductionHypothesis (kept start stepped) stopped

/-- A number that grows by one in every pass counts the passes. -/
theorem Passes.counted {tally : State → Nat}
    (counts : ∀ {state next}, valid state → pass state = .again next → tally next = tally state + 1)
    {count : Nat} {first last : State} (passes : Passes pass count first last)
    (start : valid first) : tally last = tally first + count := by
  induction passes with
  | nil => rfl
  | cons stepped _ inductionHypothesis =>
      have later := inductionHypothesis (kept start stepped)
      have here := counts start stepped
      omega

end Invariants

/-! ## Progress -/

section Progress

variable {valid : State → Prop} {position : State → Nat} {stride limit : Nat}

/-- Every pass moves on by at least a stride, and none past the limit. -/
structure Advances (pass : State → Pass State Result) (valid : State → Prop)
    (position : State → Nat) (stride limit : Nat) : Prop where
  keeps : ∀ {state next}, valid state → pass state = .again next → valid next
  grows : ∀ {state next}, valid state → pass state = .again next →
    position state + stride ≤ position next
  stays : ∀ {state next}, valid state → pass state = .again next → position next ≤ limit

variable (advances : Advances pass valid position stride limit)
include advances

theorem Advances.passes_le {count : Nat} {first last : State}
    (passes : Passes pass count first last) (start : valid first) :
    position first + count * stride ≤ position last := by
  induction passes with
  | nil => omega
  | cons stepped _ inductionHypothesis =>
      have later := inductionHypothesis (advances.keeps start stepped)
      have here := advances.grows start stepped
      rw [Nat.add_mul]
      omega

theorem Advances.last_le {count : Nat} {first last : State} (some : 0 < count)
    (passes : Passes pass count first last) (start : valid first) : position last ≤ limit := by
  induction passes with
  | nil => omega
  | cons stepped rest inductionHypothesis =>
      cases rest with
      | nil => exact advances.stays start stepped
      | cons => exact inductionHypothesis (Nat.succ_pos _) (advances.keeps start stepped)

/-- There are no more passes than there are strides below the limit. -/
theorem Advances.count_le {count : Nat} {first last : State}
    (passes : Passes pass count first last) (start : valid first) : count * stride ≤ limit := by
  cases count with
  | zero => omega
  | succ count =>
      have below := advances.last_le (Nat.succ_pos _) passes start
      have above := advances.passes_le passes start
      omega

theorem Advances.ends (positive : 0 < stride) {state : State} (start : valid state) :
    ∃ count result, Ends pass count state result := by
  induction room : limit - position state using Nat.strongRecOn generalizing state with
  | ind room inductionHypothesis =>
      cases stepped : pass state with
      | stop result => exact ⟨0, result, state, .nil state, stepped⟩
      | again next =>
          have here := advances.grows start stepped
          have inside := advances.stays start stepped
          obtain ⟨count, result, ends⟩ := inductionHypothesis (limit - position next) (by omega)
            (advances.keeps start stepped) rfl
          exact ⟨count + 1, result, ends.cons stepped⟩

end Progress

end BoundedLoop
