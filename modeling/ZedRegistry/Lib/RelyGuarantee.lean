import Mathlib.Logic.Function.Basic
import ZedRegistry.Lib.Execution

/-!
# Agents over a shared state

Any number of agents, each in a phase of its own, move one at a time over a
shared state.  A proof outline gives an invariant of the shared state, an
assertion for each phase, what a move guarantees to the other agents, and which
actions it permits.  Where every permitted move keeps its own assertion and every
assertion is stable under what the others guarantee, invariant and assertions hold
in every configuration that permitted actions reach.
-/

set_option autoImplicit false

namespace RelyGuarantee

open Execution

structure Config (σ π : Type) where
  shared : σ
  phases : Nat → π

abbrev Move (σ π α : Type) := Nat → σ → π → α → Option (σ × π)

variable {σ π α : Type}

def Config.initial (shared : σ) (idle : π) : Config σ π := ⟨shared, fun _ => idle⟩

def Config.put (config : Config σ π) (agent : Nat) (moved : σ × π) : Config σ π :=
  ⟨moved.1, Function.update config.phases agent moved.2⟩

def step (move : Move σ π α) (config : Config σ π) (event : Nat × α) : Option (Config σ π) :=
  (move event.1 config.shared (config.phases event.1) event.2).map (config.put event.1)

theorem step_some {move : Move σ π α} {config next : Config σ π} {event : Nat × α} :
    step move config event = some next ↔
      ∃ shared phase, move event.1 config.shared (config.phases event.1) event.2 =
          some (shared, phase) ∧
        next = ⟨shared, Function.update config.phases event.1 phase⟩ := by
  unfold step
  rw [Option.map_eq_some_iff]
  constructor
  · rintro ⟨⟨shared, phase⟩, moved, rfl⟩
    exact ⟨shared, phase, moved, rfl⟩
  · rintro ⟨shared, phase, moved, rfl⟩
    exact ⟨(shared, phase), moved, rfl⟩

structure Outline (move : Move σ π α) where
  invariant : σ → Prop
  assertion : Nat → σ → π → Prop
  guarantee : Nat → σ → σ → Prop
  permits : Nat → α → Prop
  sequential : ∀ {agent : Nat} {shared shared' : σ} {phase phase' : π} {action : α},
    permits agent action → invariant shared → assertion agent shared phase →
      move agent shared phase action = some (shared', phase') →
        invariant shared' ∧ assertion agent shared' phase' ∧ guarantee agent shared shared'
  stable : ∀ {agent other : Nat} {shared shared' : σ} {phase : π}, agent ≠ other →
    assertion agent shared phase → guarantee other shared shared' → assertion agent shared' phase

namespace Outline

variable {move : Move σ π α} (outline : Outline move)

def Holds (config : Config σ π) : Prop :=
  outline.invariant config.shared ∧
    ∀ agent, outline.assertion agent config.shared (config.phases agent)

theorem holds_step {config next : Config σ π} {event : Nat × α}
    (permitted : outline.permits event.1 event.2) (holds : outline.Holds config)
    (stepped : step move config event = some next) :
    outline.Holds next ∧ outline.guarantee event.1 config.shared next.shared := by
  obtain ⟨invariant, assertions⟩ := holds
  obtain ⟨shared, phase, moved, rfl⟩ := step_some.mp stepped
  obtain ⟨kept, reached, guaranteed⟩ :=
    outline.sequential permitted invariant (assertions event.1) moved
  refine ⟨⟨kept, ?_⟩, guaranteed⟩
  intro agent
  by_cases same : agent = event.1
  · subst same
    simpa only [Function.update_self] using reached
  · simp only [Function.update_of_ne same]
    exact outline.stable same (assertions agent) guaranteed

/-- Outline and guarantees hold along a run of permitted actions. -/
theorem holds_and_relates_run (relates : σ → σ → Prop) (reflexive : ∀ shared, relates shared shared)
    (transitive : ∀ first second third, relates first second →
      relates second third → relates first third)
    (refines : ∀ agent shared shared', outline.guarantee agent shared shared' →
      relates shared shared')
    {config final : Config σ π} {events : List (Nat × α)}
    (permitted : ∀ event ∈ events, outline.permits event.1 event.2) (holds : outline.Holds config)
    (run : exec (step move) config events = some final) :
    outline.Holds final ∧ relates config.shared final.shared := by
  induction events generalizing config with
  | nil =>
      obtain rfl := Option.some.inj run
      exact ⟨holds, reflexive _⟩
  | cons event rest ih =>
      obtain ⟨next, stepped, run⟩ := (exec_cons_some (step move)).mp run
      obtain ⟨here, later⟩ := List.forall_mem_cons.mp permitted
      obtain ⟨kept, guaranteed⟩ := outline.holds_step here holds stepped
      obtain ⟨ended, moved⟩ := ih later kept run
      exact ⟨ended, transitive _ _ _ (refines event.1 _ _ guaranteed) moved⟩

theorem holds_run {config final : Config σ π} {events : List (Nat × α)}
    (permitted : ∀ event ∈ events, outline.permits event.1 event.2) (holds : outline.Holds config)
    (run : exec (step move) config events = some final) : outline.Holds final :=
  (outline.holds_and_relates_run (fun _ _ => True) (fun _ => trivial) (fun _ _ _ _ _ => trivial)
    (fun _ _ _ _ => trivial) permitted holds run).1

/-- What every guarantee refines holds from one end of a run to the other. -/
theorem relates_run (relates : σ → σ → Prop) (reflexive : ∀ shared, relates shared shared)
    (transitive : ∀ first second third, relates first second →
      relates second third → relates first third)
    (refines : ∀ agent shared shared', outline.guarantee agent shared shared' →
      relates shared shared')
    {config final : Config σ π} {events : List (Nat × α)}
    (permitted : ∀ event ∈ events, outline.permits event.1 event.2) (holds : outline.Holds config)
    (run : exec (step move) config events = some final) : relates config.shared final.shared :=
  (outline.holds_and_relates_run relates reflexive transitive refines permitted holds run).2

end Outline

end RelyGuarantee
