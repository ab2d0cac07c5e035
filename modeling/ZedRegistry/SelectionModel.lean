import Mathlib.Data.Finset.SDiff
import ZedRegistry.Lib.Execution

/-!
# The latest-selection model

`formal/latest_selection.qnt`: three totally ordered versions are published in
any order, yanked, restored and replayed, and one of them is advertised as the
latest.
-/

set_option autoImplicit false

namespace ZedRegistry.LatestSelection

open Execution

/-- `NONE`. -/
def noVersion : Int := 0

def versions : Finset Int := {1, 2, 3}

structure State where
  published : Finset Int
  yanked : Finset Int
  advertisedLatest : Int
  sawOutOfOrderPublish : Bool
  sawYankLatest : Bool
  sawRestoreNewer : Bool
  sawIdempotentReplay : Bool
  deriving DecidableEq

def expectedLatest (published yanked : Finset Int) : Int :=
  if 3 ∈ published ∧ 3 ∉ yanked then 3
  else if 2 ∈ published ∧ 2 ∉ yanked then 2
  else if 1 ∈ published ∧ 1 ∉ yanked then 1
  else noVersion

/-- `init`. -/
def initial : State where
  published := ∅
  yanked := ∅
  advertisedLatest := noVersion
  sawOutOfOrderPublish := false
  sawYankLatest := false
  sawRestoreNewer := false
  sawIdempotentReplay := false

/-! ## Actions -/

def publish (version : Int) (s : State) : Option State :=
  if version ∈ versions ∧ version ∉ s.published then
    some { s with
      published := insert version s.published
      advertisedLatest := expectedLatest (insert version s.published) s.yanked
      sawOutOfOrderPublish := s.sawOutOfOrderPublish || decide (version < s.advertisedLatest) }
  else none

def yank (version : Int) (s : State) : Option State :=
  if version ∈ s.published ∧ version ∉ s.yanked then
    some { s with
      yanked := insert version s.yanked
      advertisedLatest := expectedLatest s.published (insert version s.yanked)
      sawYankLatest := s.sawYankLatest || decide (s.advertisedLatest = version) }
  else none

def restore (version : Int) (s : State) : Option State :=
  if version ∈ s.yanked then
    some { s with
      yanked := s.yanked \ {version}
      advertisedLatest := expectedLatest s.published (s.yanked \ {version})
      sawRestoreNewer := s.sawRestoreNewer || decide (s.advertisedLatest < version) }
  else none

/-- Putting a state that a version already has is a no-op. -/
def replayYank (version : Int) (s : State) : Option State :=
  if version ∈ s.yanked then some { s with sawIdempotentReplay := true } else none

def replayRestore (version : Int) (s : State) : Option State :=
  if version ∈ s.published ∧ version ∉ s.yanked then
    some { s with sawIdempotentReplay := true }
  else none

def idle (s : State) : Option State := some s

inductive Action where
  | publish (version : Int)
  | yank (version : Int)
  | restore (version : Int)
  | replayYank (version : Int)
  | replayRestore (version : Int)
  | idle
  deriving DecidableEq

/-- The version of an action is drawn from `VERSIONS`. -/
def step (s : State) : Action → Option State
  | .publish version => if version ∈ versions then publish version s else none
  | .yank version => if version ∈ versions then yank version s else none
  | .restore version => if version ∈ versions then restore version s else none
  | .replayYank version => if version ∈ versions then replayYank version s else none
  | .replayRestore version => if version ∈ versions then replayRestore version s else none
  | .idle => idle s

/-! ## The safety property -/

def IdentitiesAreBounded (s : State) : Prop :=
  s.published ⊆ versions ∧ s.yanked ⊆ versions ∧
    (s.advertisedLatest = noVersion ∨ s.advertisedLatest ∈ versions)

def OnlyPublishedVersionsAreYanked (s : State) : Prop := s.yanked ⊆ s.published

def LatestIsDeterministic (s : State) : Prop :=
  s.advertisedLatest = expectedLatest s.published s.yanked

def LatestIsVisible (s : State) : Prop :=
  s.advertisedLatest = noVersion ∨
    s.advertisedLatest ∈ s.published ∧ s.advertisedLatest ∉ s.yanked

def NoLatestIffNoVisibleVersion (s : State) : Prop :=
  s.advertisedLatest ≠ noVersion ∨ ∀ version ∈ s.published, version ∈ s.yanked

structure SelectionSafety (s : State) : Prop where
  identitiesAreBounded : IdentitiesAreBounded s
  onlyPublishedVersionsAreYanked : OnlyPublishedVersionsAreYanked s
  latestIsDeterministic : LatestIsDeterministic s
  latestIsVisible : LatestIsVisible s
  noLatestIffNoVisibleVersion : NoLatestIffNoVisibleVersion s

/-! ## The expected latest version -/

/-- A version that is published and not yanked. -/
def Shown (published yanked : Finset Int) (version : Int) : Prop :=
  version ∈ published ∧ version ∉ yanked

section Expected

variable {published yanked : Finset Int}

/-- The cases of `expected_latest`: the greatest of the three that is shown, or none. -/
theorem expectedLatest_cases (published yanked : Finset Int) :
    (Shown published yanked 3 ∧ expectedLatest published yanked = 3) ∨
    (¬Shown published yanked 3 ∧ Shown published yanked 2 ∧
      expectedLatest published yanked = 2) ∨
    (¬Shown published yanked 3 ∧ ¬Shown published yanked 2 ∧ Shown published yanked 1 ∧
      expectedLatest published yanked = 1) ∨
    (¬Shown published yanked 3 ∧ ¬Shown published yanked 2 ∧ ¬Shown published yanked 1 ∧
      expectedLatest published yanked = noVersion) := by
  by_cases three : Shown published yanked 3
  · exact .inl ⟨three, if_pos three⟩
  refine .inr ?_
  by_cases two : Shown published yanked 2
  · exact .inl ⟨three, two, (if_neg three).trans (if_pos two)⟩
  refine .inr ?_
  by_cases one : Shown published yanked 1
  · exact .inl ⟨three, two, one, (if_neg three).trans ((if_neg two).trans (if_pos one))⟩
  · exact .inr ⟨three, two, one, (if_neg three).trans ((if_neg two).trans (if_neg one))⟩

theorem versions_cases {version : Int} (known : version ∈ versions) :
    version = 1 ∨ version = 2 ∨ version = 3 := by
  simpa [versions] using known

theorem expectedLatest_shown (some' : expectedLatest published yanked ≠ noVersion) :
    Shown published yanked (expectedLatest published yanked) ∧
      expectedLatest published yanked ∈ versions := by
  rcases expectedLatest_cases published yanked with
    ⟨shown, same⟩ | ⟨-, shown, same⟩ | ⟨-, -, shown, same⟩ | ⟨-, -, -, same⟩
  · rw [same]
    exact ⟨shown, by decide⟩
  · rw [same]
    exact ⟨shown, by decide⟩
  · rw [same]
    exact ⟨shown, by decide⟩
  · exact absurd same some'

/-- Nothing that is shown is above the expected latest version. -/
theorem le_expectedLatest {version : Int} (known : version ∈ versions)
    (shown : Shown published yanked version) : version ≤ expectedLatest published yanked := by
  rcases expectedLatest_cases published yanked with
    ⟨-, same⟩ | ⟨three, -, same⟩ | ⟨three, two, -, same⟩ | ⟨three, two, one, same⟩
  · rcases versions_cases known with rfl | rfl | rfl <;> omega
  · rcases versions_cases known with rfl | rfl | rfl
    · omega
    · omega
    · exact absurd shown three
  · rcases versions_cases known with rfl | rfl | rfl
    · omega
    · exact absurd shown two
    · exact absurd shown three
  · rcases versions_cases known with rfl | rfl | rfl
    · exact absurd shown one
    · exact absurd shown two
    · exact absurd shown three

end Expected

/-- The three conditions that the actions keep give all five. -/
theorem selectionSafety_of {s : State} (published : s.published ⊆ versions)
    (yanked : s.yanked ⊆ s.published) (latest : LatestIsDeterministic s) :
    SelectionSafety s := by
  by_cases none' : s.advertisedLatest = noVersion
  · refine ⟨⟨published, yanked.trans published, .inl none'⟩, yanked, latest, .inl none', .inr ?_⟩
    intro version member
    by_contra shown
    have below := le_expectedLatest (published member) ⟨member, shown⟩
    rw [← latest, none'] at below
    rcases versions_cases (published member) with rfl | rfl | rfl <;>
      exact absurd below (by decide)
  · have chosen := expectedLatest_shown (latest ▸ none')
    rw [← latest] at chosen
    exact ⟨⟨published, yanked.trans published, .inr chosen.2⟩, yanked, latest, .inr chosen.1,
      .inl none'⟩

theorem initial_safe : SelectionSafety initial :=
  selectionSafety_of (Finset.empty_subset _) (Finset.empty_subset _) rfl

/-! ## Every run -/

/-- One action, by what it does to the two sets. -/
inductive Stepped (s : State) : State → Prop
  | publishes (version : Int) (note : Bool) (known : version ∈ versions) :
      Stepped s { s with
        published := insert version s.published
        advertisedLatest := expectedLatest (insert version s.published) s.yanked
        sawOutOfOrderPublish := note }
  | yanks (version : Int) (note : Bool) (member : version ∈ s.published) :
      Stepped s { s with
        yanked := insert version s.yanked
        advertisedLatest := expectedLatest s.published (insert version s.yanked)
        sawYankLatest := note }
  | restores (version : Int) (note : Bool) :
      Stepped s { s with
        yanked := s.yanked \ {version}
        advertisedLatest := expectedLatest s.published (s.yanked \ {version})
        sawRestoreNewer := note }
  | replays (note : Bool) : Stepped s { s with sawIdempotentReplay := note }

theorem of_guard {guard : Prop} [Decidable guard] {before next : State}
    (stepped : (if guard then some before else none) = some next) :
    guard ∧ before = next := by
  split at stepped
  · rename_i holds
    exact ⟨holds, Option.some.inj stepped⟩
  · contradiction

theorem of_drawn {version : Int} {next : State} {act : Option State}
    (stepped : (if version ∈ versions then act else none) = some next) :
    version ∈ versions ∧ act = some next := by
  split at stepped
  · rename_i known
    exact ⟨known, stepped⟩
  · contradiction

theorem step_some {s next : State} {action : Action} (stepped : step s action = some next) :
    Stepped s next := by
  cases action with
  | publish version =>
      obtain ⟨known, acted⟩ := of_drawn stepped
      obtain ⟨-, rfl⟩ := of_guard acted
      exact .publishes version _ known
  | yank version =>
      obtain ⟨-, acted⟩ := of_drawn stepped
      obtain ⟨⟨member, -⟩, rfl⟩ := of_guard acted
      exact .yanks version _ member
  | restore version =>
      obtain ⟨-, acted⟩ := of_drawn stepped
      obtain ⟨-, rfl⟩ := of_guard acted
      exact .restores version _
  | replayYank version =>
      obtain ⟨-, acted⟩ := of_drawn stepped
      obtain ⟨-, rfl⟩ := of_guard acted
      exact .replays true
  | replayRestore version =>
      obtain ⟨-, acted⟩ := of_drawn stepped
      obtain ⟨-, rfl⟩ := of_guard acted
      exact .replays true
  | idle =>
      obtain rfl := Option.some.inj stepped
      exact .replays s.sawIdempotentReplay

theorem step_safe (s : State) (action : Action) (next : State) (safe : SelectionSafety s)
    (stepped : step s action = some next) : SelectionSafety next := by
  have published := safe.identitiesAreBounded.1
  have yanked := safe.onlyPublishedVersionsAreYanked
  cases step_some stepped with
  | publishes version note known =>
      refine selectionSafety_of (Finset.insert_subset known published) ?_ rfl
      exact yanked.trans (Finset.subset_insert version s.published)
  | yanks version note member =>
      exact selectionSafety_of published (Finset.insert_subset member yanked) rfl
  | restores version note =>
      exact selectionSafety_of published (Finset.sdiff_subset.trans yanked) rfl
  | replays note => exact selectionSafety_of published yanked safe.latestIsDeterministic

/-- In every reachable state `selection_safety` holds, and runs that published and
yanked the same versions, in whatever order, advertise the same one. -/
theorem selection_safety {actions others : List Action} {final other : State}
    (run : exec step initial actions = some final)
    (otherRun : exec step initial others = some other) :
    SelectionSafety final ∧ (final.published = other.published → final.yanked = other.yanked →
      final.advertisedLatest = other.advertisedLatest) := by
  have safe := exec_invariant step step_safe initial_safe run
  have otherSafe := exec_invariant step step_safe initial_safe otherRun
  refine ⟨safe, fun published yanked => ?_⟩
  rw [safe.latestIsDeterministic, otherSafe.latestIsDeterministic, published, yanked]

/-- Two orders of publishing, with a yank that is taken back. -/
theorem selection_safety_orders : ∃ final other,
    exec step initial [.publish 3, .publish 1, .yank 3, .replayYank 3] = some final ∧
      exec step initial [.publish 1, .publish 3, .yank 1, .restore 1, .yank 3] = some other ∧
        SelectionSafety final ∧ (final.published = other.published →
          final.yanked = other.yanked → final.advertisedLatest = other.advertisedLatest) := by
  have run : (exec step initial [.publish 3, .publish 1, .yank 3, .replayYank 3]).isSome := by
    decide
  have otherRun :
      (exec step initial [.publish 1, .publish 3, .yank 1, .restore 1, .yank 3]).isSome := by
    decide
  obtain ⟨final, run⟩ := Option.isSome_iff_exists.mp run
  obtain ⟨other, otherRun⟩ := Option.isSome_iff_exists.mp otherRun
  exact ⟨final, other, run, otherRun, selection_safety run otherRun⟩

end ZedRegistry.LatestSelection
