import ZedRegistry.Lib.Execution

/-!
# Forward simulation

One step function is simulated by another along a relation of their states when
the steps it is allowed to take are matched by runs of the other, of any length
and none at all included.  Allowed runs are then matched by runs, and what every
state of the other system has, the state that a run is matched with has.
-/

set_option autoImplicit false

namespace Execution

variable {σ ε α β : Type} {step : σ → ε → Option σ} {shadow : α → β → Option α}

theorem exec_singleton {state next : σ} {event : ε} (stepped : step state event = some next) :
    exec step state [event] = some next := by
  simp [exec, stepped]

/-- A run is allowed when an invariant of its events gives the condition of each. -/
theorem allowed_of_invariant {condition : σ → ε → Prop} {invariant : σ → Prop}
    {events : List ε}
    (preserved : ∀ event ∈ events, ∀ state next, invariant state →
      step state event = some next → invariant next)
    (meets : ∀ event ∈ events, ∀ state, invariant state → condition state event)
    {state : σ} (start : invariant state) : Allowed step condition state events := by
  induction events generalizing state with
  | nil => trivial
  | cons event rest ih =>
      refine ⟨meets event List.mem_cons_self state start, fun next stepped => ?_⟩
      refine ih (fun other member => preserved other (List.mem_cons_of_mem event member))
        (fun other member => meets other (List.mem_cons_of_mem event member)) ?_
      exact preserved event List.mem_cons_self state next start stepped

/-- `shadow` follows the allowed steps of `step` from states that keep `invariant`. -/
structure Simulates (step : σ → ε → Option σ) (shadow : α → β → Option α)
    (condition : σ → ε → Prop) (invariant : σ → Prop) (relates : σ → α → Prop) : Prop where
  preserved : ∀ state event next, invariant state → step state event = some next →
    invariant next
  matched : ∀ state event next image, invariant state → condition state event →
    relates state image → step state event = some next →
    ∃ actions later, exec shadow image actions = some later ∧ relates next later

namespace Simulates

variable {condition : σ → ε → Prop} {invariant : σ → Prop} {relates : σ → α → Prop}

/-- An allowed run is matched by a run. -/
theorem run (simulates : Simulates step shadow condition invariant relates) {start final : σ}
    {image : α} {events : List ε} (holds : invariant start) (related : relates start image)
    (allowed : Allowed step condition start events)
    (run : exec step start events = some final) :
    ∃ actions later, exec shadow image actions = some later ∧ relates final later := by
  induction events generalizing start image with
  | nil =>
      obtain rfl := Option.some.inj run
      exact ⟨[], image, rfl, related⟩
  | cons event rest ih =>
      obtain ⟨next, stepped, run⟩ := (exec_cons_some step).mp run
      obtain ⟨early, middle, before, related⟩ :=
        simulates.matched start event next image holds allowed.1 related stepped
      obtain ⟨late, later, after, related⟩ :=
        ih (simulates.preserved start event next holds stepped) related
          (allowed.2 next stepped) run
      exact ⟨early ++ late, later, (exec_append_some shadow).mpr ⟨middle, before, after⟩,
        related⟩

/-- What every step of the shadow keeps holds of the states that runs are matched with. -/
theorem transfers (simulates : Simulates step shadow condition invariant relates)
    {safe : α → Prop}
    (keeps : ∀ image action later, safe image → shadow image action = some later → safe later)
    {start final : σ} {image : α} {events : List ε} (holds : invariant start)
    (related : relates start image) (initially : safe image)
    (allowed : Allowed step condition start events)
    (run : exec step start events = some final) :
    ∃ actions later, exec shadow image actions = some later ∧ relates final later ∧
      safe later := by
  obtain ⟨actions, later, shadowed, related⟩ := simulates.run holds related allowed run
  exact ⟨actions, later, shadowed, related, exec_invariant shadow keeps initially shadowed⟩

end Simulates

end Execution
