import Mathlib.Algebra.Order.Ring.Int
import Mathlib.Data.List.Basic
import Mathlib.Order.Defs.PartialOrder

/-!
# Executions of a partial step function

A system is a step function `step : σ → ε → Option σ`; `none` says that the
event is not enabled.  `exec` runs a list of events and `Allowed` says that
every step a run takes meets a condition on the state before it.  An invariant
is proved once per step and lifted to whole runs by the rules below.
-/

set_option autoImplicit false

namespace Execution

variable {σ ε : Type} (step : σ → ε → Option σ)

def exec : σ → List ε → Option σ
  | state, [] => some state
  | state, event :: rest => (step state event).bind fun next => exec next rest

/-- Every step the run takes meets `condition` in the state it starts from. -/
def Allowed (condition : σ → ε → Prop) : σ → List ε → Prop
  | _, [] => True
  | state, event :: rest =>
      condition state event ∧
        ∀ next, step state event = some next → Allowed condition next rest

instance decidableAllowed (condition : σ → ε → Prop)
    [decide : ∀ state event, Decidable (condition state event)] :
    (state : σ) → (events : List ε) → Decidable (Allowed step condition state events)
  | _, [] => isTrue trivial
  | state, event :: rest =>
      have := decide state event
      match stepped : step state event with
      | none => decidable_of_iff (condition state event) (by simp [Allowed, stepped])
      | some next =>
          have := decidableAllowed condition next rest
          decidable_of_iff (condition state event ∧ Allowed step condition next rest)
            (by simp [Allowed, stepped])

@[simp] theorem exec_nil (state : σ) : exec step state [] = some state := rfl

theorem exec_cons_some {state final : σ} {event : ε} {rest : List ε} :
    exec step state (event :: rest) = some final ↔
      ∃ next, step state event = some next ∧ exec step next rest = some final := by
  simp [exec, Option.bind_eq_some_iff]

theorem exec_append_some {state final : σ} {early late : List ε} :
    exec step state (early ++ late) = some final ↔
      ∃ middle, exec step state early = some middle ∧
        exec step middle late = some final := by
  induction early generalizing state with
  | nil => simp
  | cons event rest ih =>
      rw [List.cons_append, exec_cons_some]
      constructor
      · rintro ⟨next, stepped, run⟩
        obtain ⟨middle, before, after⟩ := ih.mp run
        exact ⟨middle, (exec_cons_some step).mpr ⟨next, stepped, before⟩, after⟩
      · rintro ⟨middle, before, after⟩
        obtain ⟨next, stepped, run⟩ := (exec_cons_some step).mp before
        exact ⟨next, stepped, ih.mpr ⟨middle, run, after⟩⟩

/-- The steps of a prefix and of the rest of an allowed run are allowed. -/
theorem allowed_append {condition : σ → ε → Prop} {state middle : σ}
    {early late : List ε} (run : exec step state early = some middle) :
    Allowed step condition state (early ++ late) ↔
      Allowed step condition state early ∧ Allowed step condition middle late := by
  induction early generalizing state with
  | nil =>
      obtain rfl := Option.some.inj run
      simp [Allowed]
  | cons event rest ih =>
      obtain ⟨next, stepped, run⟩ := (exec_cons_some step).mp run
      simp only [List.cons_append, Allowed, stepped, Option.some.injEq]
      constructor
      · rintro ⟨here, later⟩
        obtain ⟨first, second⟩ := (ih run).mp (later next rfl)
        exact ⟨⟨here, fun _ same => same ▸ first⟩, second⟩
      · rintro ⟨⟨here, first⟩, second⟩
        exact ⟨here, fun _ same => same ▸ (ih run).mpr ⟨first next rfl, second⟩⟩

/-! ## Invariants -/

/-- What every allowed step preserves, an allowed run preserves. -/
theorem exec_invariant_of_allowed {condition : σ → ε → Prop} {invariant : σ → Prop}
    (preserved : ∀ state event next, invariant state → condition state event →
      step state event = some next → invariant next)
    {state final : σ} {events : List ε} (start : invariant state)
    (allowed : Allowed step condition state events)
    (run : exec step state events = some final) : invariant final := by
  induction events generalizing state with
  | nil =>
      obtain rfl := Option.some.inj run
      exact start
  | cons event rest ih =>
      obtain ⟨next, stepped, run⟩ := (exec_cons_some step).mp run
      exact ih (preserved state event next start allowed.1 stepped)
        (allowed.2 next stepped) run

theorem allowed_trivial (state : σ) (events : List ε) :
    Allowed step (fun _ _ => True) state events := by
  induction events generalizing state with
  | nil => trivial
  | cons event rest ih => exact ⟨trivial, fun next _ => ih next⟩

theorem exec_invariant {invariant : σ → Prop}
    (preserved : ∀ state event next, invariant state →
      step state event = some next → invariant next)
    {state final : σ} {events : List ε} (start : invariant state)
    (run : exec step state events = some final) : invariant final :=
  exec_invariant_of_allowed step
    (fun state event next holds _ stepped => preserved state event next holds stepped)
    start (allowed_trivial step state events) run

/-- A preorder that every allowed step from an invariant state moves along
relates the two ends of the run. -/
theorem exec_monotone_of_allowed {condition : σ → ε → Prop} {invariant : σ → Prop}
    {relates : σ → σ → Prop} (reflexive : ∀ state, relates state state)
    (transitive : ∀ first second third, relates first second →
      relates second third → relates first third)
    (preserved : ∀ state event next, invariant state → condition state event →
      step state event = some next → invariant next ∧ relates state next)
    {state final : σ} {events : List ε} (start : invariant state)
    (allowed : Allowed step condition state events)
    (run : exec step state events = some final) : relates state final := by
  induction events generalizing state with
  | nil =>
      obtain rfl := Option.some.inj run
      exact reflexive state
  | cons event rest ih =>
      obtain ⟨next, stepped, run⟩ := (exec_cons_some step).mp run
      obtain ⟨holds, moved⟩ := preserved state event next start allowed.1 stepped
      exact transitive state next final moved (ih holds (allowed.2 next stepped) run)

theorem exec_monotone {invariant : σ → Prop} {relates : σ → σ → Prop}
    (reflexive : ∀ state, relates state state)
    (transitive : ∀ first second third, relates first second →
      relates second third → relates first third)
    (preserved : ∀ state event next, invariant state →
      step state event = some next → invariant next ∧ relates state next)
    {state final : σ} {events : List ε} (start : invariant state)
    (run : exec step state events = some final) : relates state final :=
  exec_monotone_of_allowed step reflexive transitive
    (fun state event next holds _ stepped => preserved state event next holds stepped)
    start (allowed_trivial step state events) run

/-- A property that a step keeps exactly when it meets a condition is kept by a
run exactly when every step of the run meets the condition. -/
theorem exec_iff_allowed {condition : σ → ε → Prop} {invariant property : σ → Prop}
    (preserved : ∀ state event next, invariant state → step state event = some next →
      invariant next ∧ (property next ↔ property state ∧ condition state event))
    {state final : σ} {events : List ε} (start : invariant state)
    (run : exec step state events = some final) :
    property final ↔ property state ∧ Allowed step condition state events := by
  induction events generalizing state with
  | nil =>
      obtain rfl := Option.some.inj run
      simp [Allowed]
  | cons event rest ih =>
      obtain ⟨next, stepped, run⟩ := (exec_cons_some step).mp run
      obtain ⟨holds, here⟩ := preserved state event next start stepped
      rw [ih holds run, here, and_assoc]
      simp only [Allowed, stepped, Option.some.injEq, forall_eq']

/-! ## Single steps of a run -/

/-- Somewhere in the run, `event` takes `state` to `next`. -/
def TakesStep (start : σ) (events : List ε) (state : σ) (event : ε) (next : σ) : Prop :=
  ∃ early late, events = early ++ event :: late ∧ exec step start early = some state ∧
    step state event = some next

/-- The run before and after a step of it. -/
theorem TakesStep.split {start state next final : σ} {events : List ε} {event : ε}
    (taken : TakesStep step start events state event next)
    (run : exec step start events = some final) :
    ∃ early late, events = early ++ event :: late ∧ exec step start early = some state ∧
      exec step next late = some final := by
  obtain ⟨early, late, rfl, before, stepped⟩ := taken
  obtain ⟨middle, before', after⟩ := (exec_append_some step).mp run
  rw [before] at before'
  obtain rfl := Option.some.inj before'
  obtain ⟨next', stepped', after⟩ := (exec_cons_some step).mp after
  rw [stepped] at stepped'
  obtain rfl := Option.some.inj stepped'
  exact ⟨early, late, rfl, before, after⟩

theorem takesStep_cons {start state next : σ} {first event : ε} {rest : List ε} :
    TakesStep step start (first :: rest) state event next ↔
      (state = start ∧ event = first ∧ step start first = some next) ∨
        ∃ middle, step start first = some middle ∧ TakesStep step middle rest state event next := by
  constructor
  · rintro ⟨early, late, split, before, stepped⟩
    cases early with
    | nil =>
        obtain ⟨rfl, rfl⟩ := List.cons.inj split
        obtain rfl := Option.some.inj before
        exact Or.inl ⟨rfl, rfl, stepped⟩
    | cons other early =>
        obtain ⟨rfl, rfl⟩ := List.cons.inj split
        obtain ⟨middle, moved, before⟩ := (exec_cons_some step).mp before
        exact Or.inr ⟨middle, moved, early, late, rfl, before, stepped⟩
  · rintro (⟨rfl, rfl, stepped⟩ | ⟨middle, moved, early, late, rfl, before, stepped⟩)
    · exact ⟨[], rest, rfl, rfl, stepped⟩
    · exact ⟨first :: early, late, rfl, (exec_cons_some step).mpr ⟨middle, moved, before⟩, stepped⟩

/-- What a step does exactly when it meets a condition, every step of a run does
exactly when the run is allowed. -/
theorem forall_takesStep_iff_allowed {condition : σ → ε → Prop} {property : σ → ε → σ → Prop}
    {invariant : σ → Prop}
    (preserved : ∀ state event next, invariant state → step state event = some next →
      invariant next ∧ (property state event next ↔ condition state event))
    {start final : σ} {events : List ε} (holds : invariant start)
    (run : exec step start events = some final) :
    (∀ state event next, TakesStep step start events state event next →
      property state event next) ↔ Allowed step condition start events := by
  induction events generalizing start with
  | nil =>
      simp only [Allowed, iff_true]
      rintro state event next ⟨early, late, split, -⟩
      simp at split
  | cons first rest ih =>
      obtain ⟨middle, moved, run⟩ := (exec_cons_some step).mp run
      obtain ⟨kept, here⟩ := preserved start first middle holds moved
      simp only [Allowed, moved, Option.some.injEq, forall_eq']
      rw [← here, ← ih kept run]
      constructor
      · intro every
        refine ⟨every _ _ _ ((takesStep_cons step).mpr (Or.inl ⟨rfl, rfl, moved⟩)), ?_⟩
        intro state event next taken
        exact every _ _ _ ((takesStep_cons step).mpr (Or.inr ⟨middle, moved, taken⟩))
      · rintro ⟨now, later⟩ state event next taken
        rcases (takesStep_cons step).mp taken with ⟨rfl, rfl, stepped⟩ | ⟨other, moved', taken⟩
        · rw [moved] at stepped
          obtain rfl := Option.some.inj stepped
          exact now
        · rw [moved] at moved'
          obtain rfl := Option.some.inj moved'
          exact later state event next taken

end Execution
