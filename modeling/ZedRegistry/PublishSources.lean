import ZedRegistry.PublishAtomic

/-!
# Where publishes come from

A condition on attempts and their publishes that holds of every publish when it is
admitted holds of whatever runs and of whatever has committed a version.
-/

set_option autoImplicit false

namespace ZedRegistry

variable {I : Interfaces}

/-- Every publish that runs or has committed a version meets the condition. -/
structure Sourced (source : Nat → Publish I → Prop) (world : PublishWorld I) : Prop where
  running : ∀ attempt publish point,
    world.phases attempt = some (.running publish point) → source attempt publish
  authors : ∀ key attempt publish,
    world.authors key = some (attempt, publish) → source attempt publish

theorem Sourced.mono {source other : Nat → Publish I → Prop} {world : PublishWorld I}
    (sourced : Sourced source world)
    (implies : ∀ attempt publish, source attempt publish → other attempt publish) :
    Sourced other world where
  running attempt publish point running :=
    implies attempt publish (sourced.running attempt publish point running)
  authors key attempt publish known :=
    implies attempt publish (sourced.authors key attempt publish known)

theorem Sourced.goto {source : Nat → Publish I → Prop} {world : PublishWorld I}
    (sourced : Sourced source world) (attempt : Nat) {phase : PublishPhase I}
    (ofSource : ∀ publish point, phase = .running publish point → source attempt publish) :
    Sourced source (world.goto attempt phase) where
  running other publish point running := by
    by_cases same : other = attempt
    · subst same
      have phases : (world.goto other phase).phases other = some phase := Function.update_self ..
      rw [phases] at running
      exact ofSource publish point (Option.some.inj running)
    · have phases : (world.goto attempt phase).phases other = world.phases other :=
        Function.update_of_ne same ..
      rw [phases] at running
      exact sourced.running other publish point running
  authors := sourced.authors

theorem Sourced.effect {source : Nat → Publish I → Prop} {world next : PublishWorld I}
    {attempt : Nat} {publish : Publish I} {point : PublishPoint I}
    (sourced : Sourced source world)
    (running : world.phases attempt = some (.running publish point))
    (effect : PublishEffect world attempt publish point next) : Sourced source next where
  running other publish' point' running' := by
    rw [effect.phases] at running'
    exact sourced.running other publish' point' running'
  authors key other author known := by
    rcases effect.rows with ⟨-, same⟩ | ⟨package, -, rfl⟩
    · rw [same] at known
      exact sourced.authors key other author known
    · by_cases own : key = (package.id, publish.ver)
      · subst own
        have landed : (world.land attempt publish package).authors (package.id, publish.ver) =
            some (attempt, publish) := Function.update_self ..
        rw [landed] at known
        obtain ⟨rfl, rfl⟩ := Prod.mk.inj (Option.some.inj known)
        exact sourced.running attempt publish point running
      · have kept : (world.land attempt publish package).authors key = world.authors key :=
          Function.update_of_ne own ..
        rw [kept] at known
        exact sourced.authors key other author known

/-- A step brings in no publish but the one it admits. -/
theorem Sourced.step {source : Nat → Publish I → Prop} {world next : PublishWorld I}
    {event : PublishEvent I} (sourced : Sourced source world) (invariant : PublishInvariant world)
    (admits : ∀ attempt answers request publish, event = .arrive attempt answers request →
      admitPublish I world.orgId answers request = .ok publish → source attempt publish)
    (stepped : publishStep world event = some next) : Sourced source next := by
  cases publishStep_some stepped with
  | refused attempt answers request error unused =>
      exact sourced.goto attempt fun publish point same => by cases same
  | admitted attempt answers request publish unused accepted =>
      refine sourced.goto attempt fun other point same => ?_
      obtain ⟨rfl, -⟩ := PublishPhase.running.inj same
      exact admits attempt answers request publish rfl accepted
  | advanced attempt answer publish point _ running moved =>
      obtain ⟨middle, phase, effect, rfl, own, -⟩ := invariant.stepsTo running moved
      refine (sourced.effect running effect).goto attempt fun other later same => ?_
      subst same
      obtain rfl : other = publish := own
      exact sourced.running attempt other point running
  | crashed attempt publish point running =>
      exact (sourced.effect running .rollback).goto attempt fun other later same => by cases same
  | claimed | yanked | indexed => exact ⟨sourced.running, sourced.authors⟩

end ZedRegistry
