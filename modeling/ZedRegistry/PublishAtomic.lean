import ZedRegistry.PublishSteps

/-!
# Publishing is immutable and atomic

Over every run of publishes, yanks, index uploads and org claims from an empty
registry: versions are unique, keep their facts and their object, and a publish
that does not commit leaves every row as it was.
-/

set_option autoImplicit false

namespace ZedRegistry

open Execution

variable {I : Interfaces}

/-! ## What the claim speaks of -/

/-- The attempt whose step an event is. -/
def PublishEvent.attempt : PublishEvent I → Option Nat
  | .arrive attempt _ _ | .advance attempt _ | .crash attempt => some attempt
  | .claimOrg _ | .yank _ _ | .updateIndex _ _ _ => none

/-- The attempt's transaction took effect. -/
def Landed (world : PublishWorld I) (attempt : Nat) : Prop :=
  ∃ key publish, world.authors key = some (attempt, publish)

/-- The version of these coordinates is committed. -/
def Published (world : PublishWorld I) (publish : Publish I) : Prop :=
  ∃ package row, world.packages.committed publish.packageKey = some package ∧
    world.versions.committed (package.id, publish.ver) = some row

/-- No committed row of either table is added or changed. -/
def RowsUnchanged (world next : PublishWorld I) : Prop :=
  next.packages.committed = world.packages.committed ∧
    next.versions.committed = world.versions.committed

/-- At most one row for a package and a version. -/
def OneRowPerVersion (world : PublishWorld I) : Prop :=
  ∀ key key' row row', world.versions.committed key = some row →
    world.versions.committed key' = some row' → row.packageId = row'.packageId →
    row.version = row'.version → key = key' ∧ row = row'

/-- The version rows of one state are those of a later one but for the yank flag. -/
def FactsKept (world later : PublishWorld I) : Prop :=
  ∀ key row, world.versions.committed key = some row →
    ∃ yanked, later.versions.committed key = some { row with yanked }

/-- The object of every row is stored, with the row's digest and size. -/
def ArtifactsStored (world : PublishWorld I) : Prop :=
  ∀ key row, world.versions.committed key = some row →
    ∃ object, world.store.get row.artifactKey = some object ∧
      I.sha256 object.bytes = row.sha256 ∧ (object.bytes.length : Int) = row.size

/-! ## One state -/

section States

variable {world next : PublishWorld I} {attempt : Nat}

theorem PublishInvariant.oneRowPerVersion (invariant : PublishInvariant world) :
    OneRowPerVersion world := by
  intro key key' row row' found found' samePackage sameVersion
  obtain ⟨_, publish, recorded⟩ := invariant.tables.recorded key row found
  obtain ⟨_, publish', recorded'⟩ := invariant.tables.recorded key' row' found'
  obtain ⟨_, _, built⟩ := recorded.row
  obtain ⟨_, _, built'⟩ := recorded'.row
  have same : key = key' := by
    apply Prod.ext
    · rw [built, built'] at samePackage
      exact samePackage
    · rw [built, built'] at sameVersion
      rw [recorded.version, recorded'.version]
      exact sameVersion
  subst same
  rw [found] at found'
  exact ⟨rfl, Option.some.inj found'⟩

theorem artifactLen_eq (publish : Publish I) :
    publish.artifactLen = publish.artifact.length := by
  have fits : FitsI64 (publish.artifact.length : Int) := by
    have bound := publish.fits
    unfold FitsI64
    omega
  exact wrapI64_of_fits fits

theorem PublishInvariant.artifactsStored (invariant : PublishInvariant world) :
    ArtifactsStored world := by
  intro key row found
  obtain ⟨_, publish, recorded⟩ := invariant.tables.recorded key row found
  obtain ⟨_, _, rfl⟩ := recorded.row
  obtain ⟨object, stored, length, digest⟩ := recorded.stored
  refine ⟨object, stored, digest, ?_⟩
  rw [length]
  exact (artifactLen_eq publish).symm

/-! ## One step -/

theorem Landed.mono (keeps : Keeps world next) (landed : Landed world attempt) :
    Landed next attempt := by
  obtain ⟨key, publish, known⟩ := landed
  exact ⟨key, publish, keeps.authors _ _ known⟩

/-- An effect changes committed rows only by landing. -/
theorem PublishEffect.rows {publish : Publish I} {point : PublishPoint I}
    (effect : PublishEffect world attempt publish point next) :
    RowsUnchanged world next ∧ next.authors = world.authors ∨
      ∃ package, point = .commit package ∧ next = world.land attempt publish package := by
  cases effect with
  | land package committing => exact Or.inr ⟨package, committing, rfl⟩
  | _ => exact Or.inl ⟨⟨rfl, rfl⟩, rfl⟩

/-- The attempt is over, or still runs the publish. -/
def Runs (world : PublishWorld I) (attempt : Nat) (publish : Publish I) : Prop :=
  ∃ phase, world.phases attempt = some phase ∧ PhaseOf publish phase

/-- What a step of an attempt does to attempts, authors and committed rows: the
attempt was not over, moves to a phase of the publish it ran, and either changes
no row or lands. -/
structure OwnStep (world : PublishWorld I) (attempt : Nat) (next middle : PublishWorld I)
    (phase : PublishPhase I) : Prop where
  next_eq : next = middle.goto attempt phase
  phases : middle.phases = world.phases
  unfinished : ∀ result, world.phases attempt ≠ some (.finished result)
  same : ∀ publish, Runs world attempt publish → PhaseOf publish phase
  rows : RowsUnchanged world middle ∧ middle.authors = world.authors ∨
    ∃ publish package, world.phases attempt = some (.running publish (.commit package)) ∧
      middle = world.land attempt publish package

/-- An attempt that had not begun enters a phase. -/
theorem OwnStep.begins (phase : PublishPhase I) (unused : world.phases attempt = none) :
    OwnStep world attempt (world.goto attempt phase) world phase where
  next_eq := rfl
  phases := rfl
  unfinished result ended := by
    rw [unused] at ended
    contradiction
  same publish runs := by
    obtain ⟨_, here, _⟩ := runs
    rw [unused] at here
    contradiction
  rows := Or.inl ⟨⟨rfl, rfl⟩, rfl⟩

/-- Every event is a step of one attempt or leaves attempts and authors alone. -/
theorem publishStep_cases {event : PublishEvent I} (invariant : PublishInvariant world)
    (stepped : publishStep world event = some next) :
    event.attempt = none ∧ next.phases = world.phases ∧ next.authors = world.authors ∨
      ∃ attempt middle phase, event.attempt = some attempt ∧
        OwnStep world attempt next middle phase := by
  cases publishStep_some stepped with
  | refused attempt answers request error unused =>
      exact Or.inr ⟨attempt, world, _, rfl, .begins _ unused⟩
  | admitted attempt answers request publish unused accepted =>
      exact Or.inr ⟨attempt, world, _, rfl, .begins _ unused⟩
  | advanced attempt answer publish point _ running moved =>
      obtain ⟨middle, phase, effect, moved, same, -⟩ := invariant.stepsTo running moved
      refine Or.inr ⟨attempt, middle, phase, rfl, moved, effect.phases, ?_, ?_, ?_⟩
      · intro result ended
        rw [running] at ended
        cases ended
      · rintro other ⟨_, here, own⟩
        rw [running] at here
        obtain rfl := Option.some.inj here
        have publish_eq : publish = other := own
        exact publish_eq ▸ same
      · rcases effect.rows with unchanged | ⟨package, rfl, landed⟩
        · exact Or.inl unchanged
        · exact Or.inr ⟨publish, package, running, landed⟩
  | crashed attempt publish point running =>
      refine Or.inr ⟨attempt, world.rollback attempt, .crashed, rfl, rfl, rfl, ?_,
        fun _ _ => trivial, Or.inl ⟨⟨rfl, rfl⟩, rfl⟩⟩
      intro result ended
      rw [running] at ended
      cases ended
  | claimed | yanked | indexed => exact Or.inl ⟨rfl, rfl, rfl⟩

/-- Only the step that commits an attempt makes it landed. -/
theorem landing_step {event : PublishEvent I} (invariant : PublishInvariant world)
    (stepped : publishStep world event = some next) (before : ¬Landed world attempt)
    (landed : Landed next attempt) : ∃ publish package,
      world.phases attempt = some (.running publish (.commit package)) := by
  obtain ⟨key, author, known⟩ := landed
  rcases publishStep_cases invariant stepped with ⟨-, -, authors⟩ | ⟨other, middle, phase, -, own⟩
  · exact absurd ⟨key, author, authors ▸ known⟩ before
  · obtain rfl := own.next_eq
    rcases own.rows with ⟨-, authors⟩ | ⟨publish, package, running, rfl⟩
    · exact absurd ⟨key, author, authors ▸ known⟩ before
    · by_cases place : key = (package.id, publish.ver)
      · subst place
        have self : (world.land other publish package).authors (package.id, publish.ver) =
            some (other, publish) := Function.update_self _ _ _
        rw [show ((world.land other publish package).goto other phase).authors =
          (world.land other publish package).authors from rfl, self] at known
        obtain rfl := (Prod.mk.inj (Option.some.inj known)).1
        exact ⟨publish, package, running⟩
      · exact absurd ⟨key, author, (Function.update_of_ne place _ _).symm.trans known⟩ before

/-- A step of an attempt that leaves it without a commit leaves the rows alone. -/
theorem rowsUnchanged_of_not_landed {event : PublishEvent I} (invariant : PublishInvariant world)
    (stepped : publishStep world event = some next) (mine : event.attempt = some attempt)
    (unlanded : ¬Landed next attempt) : RowsUnchanged world next := by
  rcases publishStep_cases invariant stepped with ⟨none', -⟩ | ⟨other, middle, phase, its, own⟩
  · rw [none'] at mine
    contradiction
  · rw [its] at mine
    obtain rfl := Option.some.inj mine
    obtain rfl := own.next_eq
    rcases own.rows with ⟨unchanged, -⟩ | ⟨publish, package, -, rfl⟩
    · exact unchanged
    · exact absurd ⟨_, publish, Function.update_self _ _ _⟩ unlanded

theorem Runs.step {event : PublishEvent I} {publish : Publish I}
    (invariant : PublishInvariant world) (runs : Runs world attempt publish)
    (stepped : publishStep world event = some next) : Runs next attempt publish := by
  obtain ⟨phase, here, same⟩ := runs
  rcases publishStep_cases invariant stepped with ⟨-, phases, -⟩ | ⟨other, middle, later, -, own⟩
  · exact ⟨phase, phases ▸ here, same⟩
  · obtain rfl := own.next_eq
    by_cases mine : attempt = other
    · subst mine
      exact ⟨later, Function.update_self _ _ _, own.same publish ⟨phase, here, same⟩⟩
    · refine ⟨phase, ?_, same⟩
      rw [← here, ← own.phases]
      exact Function.update_of_ne mine _ _

/-- An attempt that is over takes no further step. -/
theorem step_of_finished {event : PublishEvent I} {result : ApiResult PublishResponse}
    (invariant : PublishInvariant world)
    (ended : world.phases attempt = some (.finished result))
    (stepped : publishStep world event = some next) :
    event.attempt ≠ some attempt ∧ next.phases attempt = some (.finished result) := by
  rcases publishStep_cases invariant stepped with
    ⟨none', phases, -⟩ | ⟨other, middle, later, its, own⟩
  · refine ⟨?_, phases ▸ ended⟩
    rw [none']
    exact fun mine => nomatch mine
  · have differs : attempt ≠ other := by
      rintro rfl
      exact own.unfinished result ended
    obtain rfl := own.next_eq
    refine ⟨?_, ?_⟩
    · rw [its]
      exact fun same => differs (Option.some.inj same).symm
    · rw [← ended, ← own.phases]
      exact Function.update_of_ne differs _ _

theorem Published.mono (keeps : Keeps world next) {publish : Publish I}
    (published : Published world publish) : Published next publish := by
  obtain ⟨package, row, found, version⟩ := published
  obtain ⟨later, found, same⟩ := keeps.packages _ _ found
  obtain ⟨yanked, version⟩ := keeps.versions _ _ version
  exact ⟨later, _, found, same ▸ version⟩

/-- A publish about to commit is the first of its version. -/
theorem not_published_of_committing (invariant : PublishInvariant world) {publish : Publish I}
    {package : Package I} (holds : PointHolds world attempt publish (.commit package)) :
    ¬Published world publish := by
  rintro ⟨committed, row, found, version⟩
  obtain ⟨-, locks, inserts⟩ := holds
  obtain ⟨held, pending, same⟩ := locks.locked
  rw [← (invariant.tables.pendingIds _ _ held pending).2 committed found, same,
    (inserts.unauthored invariant.tables).1] at version
  contradiction

/-- A publish of a committed version does not land, whatever comes next. -/
theorem step_keeps_unlanded {event : PublishEvent I} {publish : Publish I}
    (invariant : PublishInvariant world) (runs : Runs world attempt publish)
    (published : Published world publish) (unlanded : ¬Landed world attempt)
    (stepped : publishStep world event = some next) : ¬Landed next attempt := by
  intro landed
  obtain ⟨other, package, running⟩ := landing_step invariant stepped unlanded landed
  obtain ⟨phase, here, same⟩ := runs
  rw [running] at here
  obtain rfl := Option.some.inj here
  have other_eq : other = publish := same
  subst other_eq
  exact not_published_of_committing invariant (invariant.running running).2 published

end States

/-! ## Every run -/

section Runs

variable {start middle final : PublishWorld I} {events : List (PublishEvent I)}

/-- The rules of a run apply at each of its steps. -/
theorem run_step {world next : PublishWorld I} {event : PublishEvent I}
    (invariant : PublishInvariant start) (run : exec publishStep start events = some final)
    (taken : TakesStep publishStep start events world event next) :
    PublishInvariant world ∧ PublishInvariant next ∧ Keeps next final := by
  obtain ⟨early, late, -, before, after⟩ := taken.split publishStep run
  have here := exec_invariant_publish invariant before
  obtain ⟨_, _, -, -, stepped⟩ := taken
  have there := (publishStep_preserves here stepped).1
  exact ⟨here, there, exec_keeps_publish there after⟩

/-- An attempt that does not commit in the run changes no row in it. -/
theorem run_rowsUnchanged {attempt : Nat} {world next : PublishWorld I} {event : PublishEvent I}
    (invariant : PublishInvariant start) (run : exec publishStep start events = some final)
    (unlanded : ¬Landed final attempt)
    (taken : TakesStep publishStep start events world event next)
    (mine : event.attempt = some attempt) : RowsUnchanged world next := by
  obtain ⟨here, -, keeps⟩ := run_step invariant run taken
  obtain ⟨_, _, -, -, stepped⟩ := taken
  exact rowsUnchanged_of_not_landed here stepped mine fun landed => unlanded (landed.mono keeps)

/-- A publish of a version that is committed by now never commits. -/
theorem run_keeps_unlanded {attempt : Nat} {publish : Publish I}
    (invariant : PublishInvariant start) (runs : Runs start attempt publish)
    (published : Published start publish) (unlanded : ¬Landed start attempt)
    (run : exec publishStep start events = some final) : ¬Landed final attempt := by
  have preserved : ∀ world event next, (PublishInvariant world ∧ Runs world attempt publish ∧
      Published world publish ∧ ¬Landed world attempt) → publishStep world event = some next →
      PublishInvariant next ∧ Runs next attempt publish ∧ Published next publish ∧
        ¬Landed next attempt := by
    rintro world event next ⟨here, runs, published, unlanded⟩ stepped
    obtain ⟨there, keeps⟩ := publishStep_preserves here stepped
    exact ⟨there, runs.step here stepped, published.mono keeps,
      step_keeps_unlanded here runs published unlanded stepped⟩
  exact (exec_invariant publishStep preserved ⟨invariant, runs, published, unlanded⟩ run).2.2.2

/-- An attempt that is over stays so and takes no step of the run. -/
theorem run_of_finished {attempt : Nat} {result : ApiResult PublishResponse}
    (invariant : PublishInvariant start)
    (ended : start.phases attempt = some (.finished result))
    (run : exec publishStep start events = some final) :
    final.phases attempt = some (.finished result) ∧
      ∀ event ∈ events, event.attempt ≠ some attempt := by
  induction events generalizing start with
  | nil =>
      obtain rfl := Option.some.inj run
      exact ⟨ended, fun _ member => absurd member List.not_mem_nil⟩
  | cons event rest ih =>
      obtain ⟨next, stepped, run⟩ := (exec_cons_some publishStep).mp run
      obtain ⟨other, ended⟩ := step_of_finished invariant ended stepped
      obtain ⟨stays, others⟩ := ih (publishStep_preserves invariant stepped).1 ended run
      exact ⟨stays, List.forall_mem_cons.mpr ⟨other, others⟩⟩

end Runs

/-- What a run of publishes from an empty registry to `final` guarantees. -/
structure PublishGuarantees (start : PublishWorld I) (events : List (PublishEvent I))
    (final : PublishWorld I) : Prop where
  /-- At most one version row per package and version. -/
  unique : OneRowPerVersion final
  /-- The facts of a version committed at any time of the run are still there. -/
  immutable : ∀ early late middle, events = early ++ late →
    exec publishStep start early = some middle → FactsKept middle final
  /-- Every version's object exists and has its digest and size. -/
  stored : ArtifactsStored final
  /-- A publish that does not commit changes no row at any of its steps, and once
  it is over nothing of it is left to commit. -/
  atomic : ∀ attempt, ¬Landed final attempt →
    (∀ world event next, TakesStep publishStep start events world event next →
      event.attempt = some attempt → RowsUnchanged world next) ∧
    ∀ result, final.phases attempt = some (.finished result) → HoldsNothing final attempt
  /-- A publish of an already committed version changes no row from then on. -/
  retried : ∀ early late middle attempt publish point, events = early ++ late →
    exec publishStep start early = some middle →
    middle.phases attempt = some (.running publish point) → Published middle publish →
    ¬Landed middle attempt →
    ∀ world event next, TakesStep publishStep middle late world event next →
      event.attempt = some attempt → RowsUnchanged world next
  /-- A refused publish stores nothing, changes no row and takes no further step. -/
  refused : ∀ early late world attempt answers request error,
    events = early ++ .arrive attempt answers request :: late →
    exec publishStep start early = some world →
    admitPublish I world.orgId answers request = .error error →
    (∀ next, publishStep world (.arrive attempt answers request) = some next →
      next.store = world.store ∧ next.packages = world.packages ∧
        next.versions = world.versions) ∧
    final.phases attempt = some (.finished (.error error)) ∧
    ∀ event ∈ late, event.attempt ≠ some attempt

/-- Publish is immutable and atomic over whole runs. -/
theorem publish_immutable_atomic {backend : Backend} {registryWrite : Bool}
    {events : List (PublishEvent I)} {final : PublishWorld I}
    (run : exec publishStep (PublishWorld.initial I backend registryWrite) events = some final) :
    PublishGuarantees (PublishWorld.initial I backend registryWrite) events final := by
  have start := initial_invariant (I := I) backend registryWrite
  have invariant := exec_invariant_publish start run
  refine
    { unique := invariant.oneRowPerVersion
      immutable := ?_
      stored := invariant.artifactsStored
      atomic := ?_
      retried := ?_
      refused := ?_ }
  · rintro early late middle rfl before
    obtain ⟨middle', before', after⟩ := (exec_append_some publishStep).mp run
    rw [before] at before'
    obtain rfl := Option.some.inj before'
    exact (exec_keeps_publish (exec_invariant_publish start before) after).versions
  · intro attempt unlanded
    refine ⟨fun world event next taken mine => run_rowsUnchanged start run unlanded taken mine, ?_⟩
    intro result ended
    have holds := invariant.phases attempt
    rw [ended] at holds
    exact holds
  · rintro early late middle attempt publish point rfl before running published unlanded
    obtain ⟨middle', before', after⟩ := (exec_append_some publishStep).mp run
    rw [before] at before'
    obtain rfl := Option.some.inj before'
    have here := exec_invariant_publish start before
    have never := run_keeps_unlanded here ⟨_, running, rfl⟩ published unlanded after
    exact fun world event next taken mine => run_rowsUnchanged here after never taken mine
  · rintro early late world attempt answers request error rfl before denied
    obtain ⟨world', before', after⟩ := (exec_append_some publishStep).mp run
    rw [before] at before'
    obtain rfl := Option.some.inj before'
    obtain ⟨next, stepped, after⟩ := (exec_cons_some publishStep).mp after
    have here := exec_invariant_publish start before
    have there := (publishStep_preserves here stepped).1
    have next_eq : next = world.finish attempt (.error error) := by
      simp only [publishStep, denied] at stepped
      split at stepped
      · contradiction
      · exact (Option.some.inj stepped).symm
    refine ⟨?_, run_of_finished there (by rw [next_eq]; exact Function.update_self _ _ _) after⟩
    intro next' stepped'
    rw [stepped] at stepped'
    rw [← Option.some.inj stepped', next_eq]
    exact ⟨rfl, rfl, rfl⟩

/-- The release of `acme/http-kit@1.2.0` runs to its end and is committed. -/
theorem publish_immutable_atomic_sample :
    ∃ final row, exec publishStep PublishSample.start PublishSample.firstRelease = some final ∧
      final.versions.committed (⟨"p0"⟩, "1.2.0") = some row ∧ row.sha256 = PublishSample.alphaSha ∧
      PublishGuarantees PublishSample.start PublishSample.firstRelease final := by
  have seen : ((exec publishStep PublishSample.start PublishSample.firstRelease).bind fun final =>
      (final.versions.committed (⟨"p0"⟩, "1.2.0")).map Version.sha256) =
        some PublishSample.alphaSha := by
    decide +kernel
  obtain ⟨final, run, seen⟩ := Option.bind_eq_some_iff.mp seen
  obtain ⟨row, found, digest⟩ := Option.map_eq_some_iff.mp seen
  exact ⟨final, row, run, found, digest, publish_immutable_atomic run⟩

end ZedRegistry
