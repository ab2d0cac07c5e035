import ZedRegistry.DependencyGraph
import ZedRegistry.PublicAliases

/-!
# Aliases and visibility

Publishes beside the visibilities of the canonical plane, which anything may
change at any time.  `publish` puts the aliases of a package without a look at
its visibility, so a run keeps the bytes of protected packages from the public
locations exactly when no such put creates an object.
-/

set_option autoImplicit false

namespace ZedRegistry

open Execution

variable (I : Interfaces)

/-! ## The two planes -/

/-- `visibility` is that of the canonical package by org slug and name, if there is one. -/
structure VisibilityWorld where
  registry : PublishWorld I
  visibility : String → String → Option String

inductive VisibilityEvent where
  | registry (event : PublishEvent I)
  | setVisibility (org name : String) (visibility : Option String)

variable {I}

def visibilityStep (world : VisibilityWorld I) :
    VisibilityEvent I → Option (VisibilityWorld I)
  | .registry event => (publishStep world.registry event).map fun registry =>
      { world with registry }
  | .setVisibility org name visibility => some { world with
      visibility := fun other package =>
        if other = org ∧ package = name then visibility else world.visibility other package }

/-- An empty registry beside some canonical packages. -/
def VisibilityWorld.initial (I : Interfaces) (backend : Backend) (registryWrite : Bool)
    (visibility : String → String → Option String) : VisibilityWorld I :=
  ⟨.initial I backend registryWrite, visibility⟩

/-! ## Protection -/

/-- The publish is of a package whose canonical visibility is not `public`. -/
def NonPublic (world : VisibilityWorld I) (publish : Publish I) : Prop :=
  ∃ visibility ∈ world.visibility publish.org.slug publish.name, visibility ≠ "public"

instance (world : VisibilityWorld I) (publish : Publish I) : Decidable (NonPublic world publish) :=
  inferInstanceAs (Decidable (∃ _ ∈ world.visibility publish.org.slug publish.name, _))

/-- These are the visibilities that graph reads do not take for anonymous ones. -/
theorem requiresGraphAuthorization_ne_false (visibility : String) :
    requiresGraphAuthorization visibility ≠ .ok false ↔ visibility ≠ "public" := by
  unfold requiresGraphAuthorization
  by_cases isPublic : visibility = "public"
  · simp [isPublic]
  · rw [if_neg isPublic]
    by_cases restricted : visibility = "internal" ∨ visibility = "private"
    · simp [isPublic, restricted]
    · simp [isPublic, restricted]

/-- The guessable locations. -/
def PublicLocation (key : String) : Prop :=
  ∃ rest, key = "github/" ++ rest ∨ key = "packages/" ++ rest

theorem publicLocation_of_mem_aliasKeys {publish : Publish I} {key : String}
    (member : key ∈ publish.aliasKeys) : PublicLocation key := by
  rcases mem_guessableAliasKeys member with ⟨owner, repo, rfl⟩ | rfl
  · unfold githubAliasKey
    simp only [String.append_assoc]
    exact ⟨_, Or.inl rfl⟩
  · unfold packagesAliasKey
    simp only [String.append_assoc]
    exact ⟨_, Or.inr rfl⟩

theorem artifactKey_not_publicLocation (sha256 extension : String) :
    ¬PublicLocation (artifactKey sha256 extension) := by
  rintro ⟨rest, same | same⟩
  · have chars := congrArg String.toList same
    simp [artifactKey] at chars
  · have chars := congrArg String.toList same
    simp [artifactKey] at chars

/-- A step of a publish stores nothing at a public location while its package is
not public. -/
def WithholdsPrivate (world : VisibilityWorld I) (event : VisibilityEvent I)
    (next : VisibilityWorld I) : Prop :=
  ∀ attempt answer publish point, event = .registry (.advance attempt answer) →
    world.registry.phases attempt = some (.running publish point) → NonPublic world publish →
    ∀ key, PublicLocation key → next.registry.store.get key = world.registry.store.get key

instance (world : PublishWorld I) (publish : Publish I) (answer : StepAnswer) (key : String) :
    Decidable (Creates world publish answer key) := inferInstanceAs (Decidable (_ ∧ _ ∧ _))

/-- The step is the put of an alias that creates an object for such a package. -/
def putsPrivateAlias (world : VisibilityWorld I) : VisibilityEvent I → Bool
  | .registry (.advance attempt answer) =>
    match world.registry.phases attempt with
    | some (.running publish (.putAliases (key :: _))) =>
      decide (Creates world.registry publish answer key ∧ NonPublic world publish)
    | _ => false
  | _ => false

/-! ## Steps -/

section Steps

variable {world next : PublishWorld I} {attempt : Nat} {publish : Publish I}
  {point : PublishPoint I} {answer : StepAnswer}

/-- Beside its alias puts, a publish writes under the key of its artifact only. -/
theorem advance_publicLocation (invariant : PublishInvariant world)
    (running : world.phases attempt = some (.running publish point))
    (stepped : advance world attempt publish answer point = some next)
    (noAlias : ∀ key rest, point ≠ .putAliases (key :: rest)) {key : String}
    (location : PublicLocation key) : next.store.get key = world.store.get key := by
  obtain ⟨middle, phase, effect, rfl, -, -⟩ := invariant.stepsTo running stepped
  cases effect with
  | put other answer named =>
      have own : other = publish.key := by
        cases point with
        | putBlob => exact named
        | putAliases keys =>
            cases keys with
            | nil => exact named.elim
            | cons first rest => exact absurd rfl (noAlias first rest)
        | _ => exact named.elim
      have differs : key ≠ other := by
        rintro rfl
        exact artifactKey_not_publicLocation _ _ (own ▸ location)
      change (putStep world publish answer other).2.get key = _
      by_cases creates : Creates world publish answer other
      · rw [putStep_creates creates, get_insert, if_neg differs]
      · rw [putStep_keeps creates]
  | _ => rfl

theorem advance_withholds {answer : StepAnswer} {visible : VisibilityWorld I}
    {after : PublishWorld I} (invariant : PublishInvariant visible.registry)
    (running : visible.registry.phases attempt = some (.running publish point))
    (stepped : advance visible.registry attempt publish answer point = some after) :
    (NonPublic visible publish → ∀ key, PublicLocation key →
        after.store.get key = visible.registry.store.get key) ↔
      putsPrivateAlias visible (.registry (.advance attempt answer)) = false := by
  unfold putsPrivateAlias
  simp only [running]
  have beside := advance_publicLocation invariant running stepped
  cases point with
  | putAliases keys =>
      cases keys with
      | nil =>
          simp only [iff_true]
          intro _ key location
          exact beside (fun _ _ same => by cases same) location
      | cons first rest =>
          obtain ⟨-, stored⟩ := advance_putAliases stepped
          have facts := invariant.running running
          have location := publicLocation_of_mem_aliasKeys
            (facts.2.2.2 first List.mem_cons_self)
          by_cases creates : Creates visible.registry publish answer first
          · rw [putStep_creates creates] at stored
            simp only [creates, true_and, decide_eq_false_iff_not]
            constructor
            · intro withheld secret
              have same := withheld secret first location
              rw [stored, get_insert, if_pos rfl, creates.2.1] at same
              contradiction
            · intro isPublic secret
              exact absurd secret isPublic
          · rw [putStep_keeps creates] at stored
            simp [creates, stored]
  | _ =>
      simp only [iff_true]
      intro _ key location
      exact beside (fun _ _ same => by cases same) location

/-- A step withholds what it has to exactly when it puts no such alias. -/
theorem visibilityStep_withholds {visible after : VisibilityWorld I} {event : VisibilityEvent I}
    (invariant : PublishInvariant visible.registry)
    (stepped : visibilityStep visible event = some after) :
    PublishInvariant after.registry ∧
      (WithholdsPrivate visible event after ↔ putsPrivateAlias visible event = false) := by
  cases event with
  | setVisibility org name visibility =>
      obtain rfl := Option.some.inj stepped
      refine ⟨invariant, iff_of_true ?_ rfl⟩
      intro attempt answer publish point same
      cases same
  | registry event =>
      obtain ⟨registry, moved, rfl⟩ := Option.map_eq_some_iff.mp stepped
      refine ⟨(publishStep_preserves invariant moved).1, ?_⟩
      cases publishStep_some moved with
      | advanced attempt answer publish point _ running moved =>
          rw [← advance_withholds invariant running moved]
          constructor
          · intro withheld
            exact withheld attempt answer publish point rfl running
          · intro withheld attempt' answer' publish' point' same running'
            cases same
            rw [running] at running'
            cases running'
            exact withheld
      | _ =>
          refine iff_of_true ?_ rfl
          intro attempt answer publish point same
          cases same

end Steps

/-! ## Every run -/

/-- In a run of registry operations and visibility changes, no publish stores an
object of a non-public package at a guessable location exactly when no step is an
alias put that creates one. -/
theorem private_bytes_withheld_iff {backend : Backend} {registryWrite : Bool}
    {visibility : String → String → Option String} {events : List (VisibilityEvent I)}
    {final : VisibilityWorld I}
    (run : exec visibilityStep (.initial I backend registryWrite visibility) events = some final) :
    (∀ before event after, TakesStep visibilityStep
        (.initial I backend registryWrite visibility) events before event after →
        WithholdsPrivate before event after) ↔
      Allowed visibilityStep (fun world event => putsPrivateAlias world event = false)
        (.initial I backend registryWrite visibility) events := by
  have each : ∀ (world : VisibilityWorld I) (event : VisibilityEvent I) (next : VisibilityWorld I),
      PublishInvariant world.registry → visibilityStep world event = some next →
        PublishInvariant next.registry ∧
          (WithholdsPrivate world event next ↔ putsPrivateAlias world event = false) := by
    intro world event next invariant stepped
    exact visibilityStep_withholds invariant stepped
  exact forall_takesStep_iff_allowed visibilityStep each
    (initial_invariant backend registryWrite) run

/-! ## A private release -/

namespace PublishSample

/-- `acme/http-kit` gets this visibility, and then its first release. -/
def releaseWithVisibility (visibility : String) : List (VisibilityEvent interfaces) :=
  .setVisibility "acme" "http-kit" (some visibility) :: firstRelease.map .registry

def noVisibility : VisibilityWorld interfaces := .initial interfaces .localDir true fun _ _ => none

end PublishSample

open PublishSample

theorem private_bytes_withheld_sample :
    ∃ final, exec visibilityStep noVisibility (releaseWithVisibility "public") = some final ∧
      ∀ before event after,
        TakesStep visibilityStep noVisibility (releaseWithVisibility "public") before event after →
          WithholdsPrivate before event after := by
  have runs :
      (exec visibilityStep noVisibility (releaseWithVisibility "public")).isSome = true := by
    decide +kernel
  obtain ⟨final, run⟩ := Option.isSome_iff_exists.mp runs
  exact ⟨final, run, (private_bytes_withheld_iff run).mpr (by decide +kernel)⟩

/-- The third step of the release puts the GitHub alias of the private package. -/
theorem private_bytes_exposed :
    ∃ before event after object,
      TakesStep visibilityStep noVisibility (releaseWithVisibility "private") before event after ∧
        before.visibility "acme" "http-kit" = some "private" ∧
        after.registry.store.get
          (githubAliasKey "acme" "http-kit" "v1.2.0" "http-kit" "1.2.0" "tar.gz") = some object ∧
        object.bytes = asBytes "alpha" ∧ ¬WithholdsPrivate before event after := by
  let event : VisibilityEvent interfaces := .registry (.advance 0 (works "p0"))
  let early : List (VisibilityEvent interfaces) :=
    .setVisibility "acme" "http-kit" (some "private") ::
      (.claimOrg acme :: arrive 0 "alpha" "alpha" alpha_small :: advances 0 2 "p0").map .registry
  have seen : ((exec visibilityStep noVisibility early).bind fun before =>
      (visibilityStep before event).bind fun after =>
        (after.registry.store.get
          (githubAliasKey "acme" "http-kit" "v1.2.0" "http-kit" "1.2.0" "tar.gz")).map fun object =>
            (before.visibility "acme" "http-kit", object.bytes, putsPrivateAlias before event)) =
        some (some "private", asBytes "alpha", true) := by
    decide +kernel
  obtain ⟨before, run, seen⟩ := Option.bind_eq_some_iff.mp seen
  obtain ⟨after, stepped, seen⟩ := Option.bind_eq_some_iff.mp seen
  obtain ⟨object, stored, seen⟩ := Option.map_eq_some_iff.mp seen
  simp only [Prod.mk.injEq] at seen
  obtain ⟨visibility, bytes, puts⟩ := seen
  have invariant : PublishInvariant before.registry := by
    have kept : ∀ (world : VisibilityWorld interfaces) (event : VisibilityEvent interfaces)
        (next : VisibilityWorld interfaces), PublishInvariant world.registry →
          visibilityStep world event = some next → PublishInvariant next.registry := by
      intro world event next invariant stepped
      exact (visibilityStep_withholds invariant stepped).1
    exact exec_invariant visibilityStep kept (initial_invariant .localDir true) run
  refine ⟨before, event, after, object, ⟨early, (advances 0 10 "p0").map .registry, rfl, run,
    stepped⟩, visibility, stored, bytes, ?_⟩
  rw [(visibilityStep_withholds invariant stepped).2, puts]
  decide

end ZedRegistry
