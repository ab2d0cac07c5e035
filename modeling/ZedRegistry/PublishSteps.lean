import ZedRegistry.PublishInvariant

/-!
# Publish steps keep the invariant

Each step of a publish does one of a few things to the registry
(`PublishEffect`) and moves on to a phase whose facts hold (`StepsTo`); every
invariant of the runs is derived from these two.
-/

set_option autoImplicit false

namespace ZedRegistry

open Execution

variable {I : Interfaces}

/-! ## What a step does to the registry -/

def adopts : PublishPoint I → Bool
  | .adoptRetry | .adoptWinner | .adoptPublished => true
  | _ => false

/-- The key that a publish puts its artifact under next. -/
def Puts (publish : Publish I) (key : String) : PublishPoint I → Prop
  | .putBlob => key = publish.key
  | .putAliases (first :: _) => key = first
  | _ => False

/-- The registry after one step of an attempt, but for its phase. -/
inductive PublishEffect (world : PublishWorld I) (attempt : Nat) (publish : Publish I)
    (point : PublishPoint I) : PublishWorld I → Prop
  | quiet : PublishEffect world attempt publish point world
  | put (key : String) (answer : StepAnswer) (named : Puts publish key point) :
      PublishEffect world attempt publish point
        { world with store := (putStep world publish answer key).2 }
  | adopt (input : MachinePublishInput I) (built : machinePublishInput publish = .ok input)
      (adopting : adopts point = true) :
      PublishEffect world attempt publish point (world.logAdoption publish input)
  | record (call : AuditCall) : PublishEffect world attempt publish point (world.logAudit call)
  | rollback : PublishEffect world attempt publish point (world.rollback attempt)
  | upsert (id : Uuid) (clock : DateTimeUtc)
      (free : world.packages.blocked attempt publish.packageKey = false)
      (unused : world.issued id = none) :
      PublishEffect world attempt publish point { world with
        packages := world.packages.write attempt publish.packageKey
          (upsertedPackage I (world.packages.view attempt publish.packageKey) id publish.org.id
            publish.name publish.published.manifest.package clock)
        issued := Function.update world.issued id (some publish.packageKey) }
  | bump (package row : Package I) (next : Int) (fits : FitsI64 next)
      (bumping : point = .bump package)
      (seen : world.packages.view attempt publish.packageKey = some row) :
      PublishEffect world attempt publish point { world with
        packages := world.packages.write attempt publish.packageKey
          (bumpedPackage I row next fits) }
  | insert (package : Package I) (id : Uuid)
      (free : world.versions.blocked attempt (package.id, publish.ver) = false)
      (absent : world.versions.view attempt (package.id, publish.ver) = none) :
      PublishEffect world attempt publish point { world with
        versions := world.versions.write attempt (package.id, publish.ver)
          (versionRow publish id package.id) }
  | land (package : Package I) (committing : point = .commit package) :
      PublishEffect world attempt publish point (world.land attempt publish package)

section Effects

variable {world next : PublishWorld I} {attempt : Nat} {publish : Publish I}
  {point : PublishPoint I}

theorem PointHolds.adoptable (holds : PointHolds world attempt publish point)
    (adopting : adopts point = true) : Adoptable world publish := by
  cases point with
  | adoptRetry | adoptWinner => exact holds.2
  | adoptPublished => exact holds.2.adoptable
  | _ => simp [adopts] at adopting

theorem HoldsPackage.view {id : Uuid} (locks : HoldsPackage world attempt publish id) :
    ∃ row, world.packages.view attempt publish.packageKey = some row ∧ row.id = id ∧
      world.packages.pending publish.packageKey = some (attempt, row) := by
  obtain ⟨row, own, same⟩ := locks.locked
  exact ⟨row, RowTable.view_of_pending own, same, own⟩

/-- A locked row is nobody else's. -/
theorem HoldsPackage.free {id : Uuid} (locks : HoldsPackage world attempt publish id)
    (owner : Nat) (row : Package I)
    (held : world.packages.pending publish.packageKey = some (owner, row)) : owner = attempt := by
  obtain ⟨own, pending, _⟩ := locks.locked
  rw [pending] at held
  exact (Prod.mk.inj (Option.some.inj held)).1.symm

theorem PublishEffect.phases (effect : PublishEffect world attempt publish point next) :
    next.phases = world.phases := by
  cases effect with
  | _ => rfl

theorem PublishEffect.sameHeld (effect : PublishEffect world attempt publish point next)
    (holds : PointHolds world attempt publish point) {other : Nat} (differs : other ≠ attempt) :
    SameHeld world next other := by
  cases effect with
  | quiet => exact SameHeld.refl world other
  | put key answer named => exact ⟨fun _ _ => Iff.rfl, fun _ _ => Iff.rfl⟩
  | adopt input built adopting => exact ⟨fun _ _ => Iff.rfl, fun _ _ => Iff.rfl⟩
  | record call => exact ⟨fun _ _ => Iff.rfl, fun _ _ => Iff.rfl⟩
  | rollback => exact sameHeld_rollback world differs
  | upsert id clock free unused =>
      refine ⟨?_, fun _ _ => Iff.rfl⟩
      exact RowTable.pending_write_other (RowTable.not_blocked_iff.mp free) differs _
  | bump package row next fits bumping seen =>
      subst bumping
      exact ⟨RowTable.pending_write_other holds.2.1.free differs _, fun _ _ => Iff.rfl⟩
  | insert package id free absent =>
      refine ⟨fun _ _ => Iff.rfl, ?_⟩
      exact RowTable.pending_write_other (RowTable.not_blocked_iff.mp free) differs _
  | land package committing =>
      constructor
      · intro key row
        simp [PublishWorld.land, RowTable.pending_commit_some, differs]
      · intro key row
        simp [PublishWorld.land, RowTable.pending_commit_some, differs]

/-- An uncommitted package row keeps the id of the committed one. -/
theorem TablesHold.view_id (tables : TablesHold world) (attempt : Nat) {key : PackageKey}
    {old : Package I} (found : world.packages.committed key = some old) :
    ∃ row, world.packages.view attempt key = some row ∧ row.id = old.id := by
  obtain ⟨row, seen⟩ := RowTable.view_of_committed attempt found
  rcases RowTable.view_some seen with own | ⟨same, -⟩
  · exact ⟨row, seen, (tables.pendingIds key attempt row own).2 old found⟩
  · rw [found] at same
    exact ⟨row, seen, by rw [Option.some.inj same]⟩

/-- A committed version is what every transaction reads. -/
theorem TablesHold.view_version (tables : TablesHold world) {key : VersionKey} {row : Version I}
    (found : world.versions.committed key = some row) :
    world.versions.view attempt key = some row := by
  have free : ∀ other, world.versions.pending key ≠ some (attempt, other) := by
    intro other own
    rw [tables.insertedNew key attempt other own] at found
    contradiction
  rw [RowTable.view_of_not_held free, found]

/-- The version a publish is about to commit has no author yet. -/
theorem HoldsVersion.unauthored {id : Uuid} (inserted : HoldsVersion world attempt publish id)
    (tables : TablesHold world) : world.versions.committed (id, publish.ver) = none ∧
      world.authors (id, publish.ver) = none := by
  obtain ⟨rowId, own⟩ := inserted.inserted
  have absent := tables.insertedNew _ _ _ own
  exact ⟨absent, tables.unauthored _ absent⟩

theorem PublishEffect.keeps (effect : PublishEffect world attempt publish point next)
    (tables : TablesHold world) (holds : PointHolds world attempt publish point) :
    Keeps world next := by
  cases effect with
  | quiet => exact Keeps.refl world
  | put key answer named => exact keeps_put world publish answer key
  | adopt input built adopting =>
      exact { Keeps.refl world with adoptions := List.suffix_cons _ _ }
  | record call => exact { Keeps.refl world with }
  | rollback => exact keeps_rollback world attempt
  | upsert id clock free unused =>
      refine { Keeps.refl world with issued := ?_ }
      intro other key known
      have differs : other ≠ id := by
        rintro rfl
        rw [unused] at known
        contradiction
      exact (Function.update_of_ne differs _ _).trans known
  | bump package row next fits bumping seen => exact { Keeps.refl world with }
  | insert package id free absent => exact { Keeps.refl world with }
  | land package committing =>
      subst committing
      refine { Keeps.refl world with packages := ?_, versions := ?_, authors := ?_ }
      · intro key row found
        exact tables.view_id attempt found
      · intro key row found
        exact ⟨row.yanked, tables.view_version found⟩
      · intro key author known
        have differs : key ≠ (package.id, publish.ver) := by
          rintro rfl
          rw [(holds.2.2.unauthored tables).2] at known
          contradiction
        exact (Function.update_of_ne differs _ _).trans known

theorem Recorded.mono (keeps : Keeps world next) {key : VersionKey} {row : Version I}
    {author : Nat} (recorded : Recorded world key row author publish) :
    Recorded next key row author publish where
  author := keeps.authors _ _ recorded.author
  row := recorded.row
  version := recorded.version
  package := by
    obtain ⟨package, found, same⟩ := recorded.package
    obtain ⟨later, found, same'⟩ := keeps.packages _ _ found
    exact ⟨later, found, same'.trans same⟩
  stored := recorded.stored.mono keeps
  known := keeps.orgs _ recorded.known

theorem adopted_mono (keeps : Keeps world next) (same : next.adoptions = world.adoptions)
    (tables : TablesHold world) (call : Publish I × MachinePublishInput I)
    (member : call ∈ next.adoptions) :
    machinePublishInput call.1 = .ok call.2 ∧ Adoptable next call.1 := by
  rw [same] at member
  obtain ⟨built, adoptable⟩ := tables.adopted call member
  exact ⟨built, adoptable.mono keeps⟩

theorem recorded_mono (keeps : Keeps world next)
    (same : next.versions.committed = world.versions.committed) (tables : TablesHold world)
    (key : VersionKey) (row : Version I) (found : next.versions.committed key = some row) :
    ∃ author publish, Recorded next key row author publish := by
  rw [same] at found
  obtain ⟨author, publish, recorded⟩ := tables.recorded key row found
  exact ⟨author, publish, recorded.mono keeps⟩

theorem TablesHold.carry (tables : TablesHold world) (keeps : Keeps world next)
    (orgs : ∀ left ∈ next.orgs, ∀ right ∈ next.orgs,
      left.slug = right.slug ∨ left.id = right.id → left = right)
    (issued : next.issued = world.issued)
    (packages : next.packages = world.packages) (versions : next.versions = world.versions)
    (authors : next.authors = world.authors)
    (adopted : ∀ call ∈ next.adoptions,
      machinePublishInput call.1 = .ok call.2 ∧ Adoptable next call.1) : TablesHold next where
  orgs := orgs
  packageIds := by
    rw [packages, issued]
    exact tables.packageIds
  pendingIds := by
    rw [packages, issued]
    exact tables.pendingIds
  insertedNew := by
    rw [versions]
    exact tables.insertedNew
  recorded := recorded_mono keeps (congrArg RowTable.committed versions) tables
  unauthored := by
    rw [versions, authors]
    exact tables.unauthored
  adopted := adopted

theorem TablesHold.rollback (tables : TablesHold world) (attempt : Nat) :
    TablesHold (world.rollback attempt) where
  orgs := tables.orgs
  packageIds := tables.packageIds
  pendingIds key owner row held :=
    tables.pendingIds key owner row ((RowTable.pending_rollback_some _ _ _ _ _).mp held).1
  insertedNew key owner row held :=
    tables.insertedNew key owner row ((RowTable.pending_rollback_some _ _ _ _ _).mp held).1
  recorded key row found := by
    obtain ⟨author, publish, recorded⟩ := tables.recorded key row found
    exact ⟨author, publish, recorded.mono (keeps_rollback world attempt)⟩
  unauthored := tables.unauthored
  adopted call member := by
    obtain ⟨built, adoptable⟩ := tables.adopted call member
    exact ⟨built, adoptable.mono (keeps_rollback world attempt)⟩

/-- A commit lands the row that the attempt inserted and its package row. -/
theorem TablesHold.land {package : Package I} (tables : TablesHold world)
    (keeps : Keeps world (world.land attempt publish package)) (known : publish.org ∈ world.orgs)
    (stored : Stored world publish) (locks : HoldsPackage world attempt publish package.id)
    (inserts : HoldsVersion world attempt publish package.id) :
    TablesHold (world.land attempt publish package) where
  orgs := tables.orgs
  packageIds key row seen := by
    rcases RowTable.view_some seen with own | ⟨found, -⟩
    · exact (tables.pendingIds key attempt row own).1
    · exact tables.packageIds key row found
  pendingIds key owner row held := by
    obtain ⟨held, other⟩ := (RowTable.pending_commit_some _ _ _ _ _).mp held
    obtain ⟨issued, same⟩ := tables.pendingIds key owner row held
    refine ⟨issued, fun old seen => same old ?_⟩
    rw [← RowTable.view_of_held_by_other held other]
    exact seen
  insertedNew key owner row held := by
    obtain ⟨held, other⟩ := (RowTable.pending_commit_some _ _ _ _ _).mp held
    exact (RowTable.view_of_held_by_other held other).trans
      (tables.insertedNew key owner row held)
  recorded key row seen := by
    rcases RowTable.view_some seen with own | ⟨found, -⟩
    · obtain rfl := inserts.only key row own
      obtain ⟨id, own'⟩ := inserts.inserted
      rw [own] at own'
      obtain ⟨package', seenPackage, sameId, -⟩ := locks.view
      exact ⟨attempt, publish, {
        author := Function.update_self _ _ _
        row := ⟨id, false, (Prod.mk.inj (Option.some.inj own')).2⟩
        version := rfl
        package := ⟨package', seenPackage, sameId⟩
        stored := stored.mono keeps
        known := known }⟩
    · obtain ⟨author, other, recorded⟩ := tables.recorded key row found
      exact ⟨author, other, recorded.mono keeps⟩
  unauthored key unseen := by
    have differs : key ≠ (package.id, publish.ver) := by
      rintro rfl
      obtain ⟨id, own⟩ := inserts.inserted
      have seen := RowTable.view_of_pending own
      rw [show world.versions.view attempt (package.id, publish.ver) = none from unseen] at seen
      contradiction
    refine (Function.update_of_ne differs _ _).trans (tables.unauthored key ?_)
    cases found : world.versions.committed key with
    | none => rfl
    | some row =>
        obtain ⟨seen, view⟩ := RowTable.view_of_committed attempt found
        rw [show world.versions.view attempt key = none from unseen] at view
        contradiction
  adopted := adopted_mono keeps rfl tables

/-- The upsert keeps the id of a row that exists and gives a new row the drawn id. -/
theorem upsertedPackage_id (tables : TablesHold world) (key : PackageKey) (id orgId : Uuid)
    (name : String) (m : ManifestPackage) (clock : DateTimeUtc) :
    ((upsertedPackage I (world.packages.view attempt key) id orgId name m clock).id = id ∧
        world.packages.committed key = none) ∨
      (world.issued (upsertedPackage I (world.packages.view attempt key) id orgId name m clock).id =
          some key ∧
        ∀ old, world.packages.committed key = some old →
          (upsertedPackage I (world.packages.view attempt key) id orgId name m clock).id =
            old.id) := by
  cases seen : world.packages.view attempt key with
  | none =>
      refine Or.inl ⟨rfl, ?_⟩
      cases found : world.packages.committed key with
      | none => rfl
      | some old =>
          obtain ⟨row, seen', _⟩ := tables.view_id attempt found
          rw [seen] at seen'
          contradiction
  | some row =>
      refine Or.inr ?_
      rcases RowTable.view_some seen with own | ⟨found, -⟩
      · exact tables.pendingIds key attempt row own
      · refine ⟨tables.packageIds key row found, ?_⟩
        intro old found'
        rw [found] at found'
        rw [← Option.some.inj found']
        rfl

theorem PublishEffect.tables (effect : PublishEffect world attempt publish point next)
    (tables : TablesHold world) (known : publish.org ∈ world.orgs)
    (holds : PointHolds world attempt publish point) : TablesHold next := by
  have keeps := effect.keeps tables holds
  cases effect with
  | quiet => exact tables
  | put key answer named =>
      exact tables.carry keeps tables.orgs rfl rfl rfl rfl (adopted_mono keeps rfl tables)
  | adopt input built adopting =>
      refine tables.carry keeps tables.orgs rfl rfl rfl rfl ?_
      intro call member
      rcases List.mem_cons.mp member with rfl | earlier
      · exact ⟨built, (holds.adoptable adopting).mono keeps⟩
      · obtain ⟨built, adoptable⟩ := tables.adopted call earlier
        exact ⟨built, adoptable.mono keeps⟩
  | record call =>
      exact tables.carry keeps tables.orgs rfl rfl rfl rfl (adopted_mono keeps rfl tables)
  | rollback => exact tables.rollback attempt
  | upsert id clock free unused =>
      refine { orgs := tables.orgs, packageIds := ?_, pendingIds := ?_,
               insertedNew := tables.insertedNew, recorded := recorded_mono keeps rfl tables,
               unauthored := tables.unauthored, adopted := adopted_mono keeps rfl tables }
      · intro key row found
        exact keeps.issued _ _ (tables.packageIds key row found)
      · intro key owner row held
        rcases RowTable.pending_write_cases held with ⟨rfl, _, rfl⟩ | ⟨_, before⟩
        · rcases upsertedPackage_id tables publish.packageKey id publish.org.id publish.name
            publish.published.manifest.package clock with ⟨drawn, absent⟩ | ⟨issued, same⟩
          · refine ⟨?_, fun old found => ?_⟩
            · rw [drawn]
              exact Function.update_self _ _ _
            · rw [RowTable.committed_write, absent] at found
              contradiction
          · exact ⟨keeps.issued _ _ issued, same⟩
        · obtain ⟨issued, same⟩ := tables.pendingIds key owner row before
          exact ⟨keeps.issued _ _ issued, same⟩
  | bump package row next fits bumping seen =>
      subst bumping
      obtain ⟨own, seen', -, held⟩ := holds.2.1.view
      rw [seen] at seen'
      obtain rfl := Option.some.inj seen'
      refine { orgs := tables.orgs, packageIds := tables.packageIds, pendingIds := ?_,
               insertedNew := tables.insertedNew, recorded := recorded_mono keeps rfl tables,
               unauthored := tables.unauthored, adopted := adopted_mono keeps rfl tables }
      intro key owner later pending
      rcases RowTable.pending_write_cases pending with ⟨rfl, _, rfl⟩ | ⟨_, before⟩
      · have ids := tables.pendingIds _ _ row held
        exact ids
      · exact tables.pendingIds key owner later before
  | insert package id free absent =>
      refine { orgs := tables.orgs, packageIds := tables.packageIds,
               pendingIds := tables.pendingIds, insertedNew := ?_,
               recorded := recorded_mono keeps rfl tables, unauthored := tables.unauthored,
               adopted := adopted_mono keeps rfl tables }
      intro key owner row pending
      rcases RowTable.pending_write_cases pending with ⟨rfl, _, _⟩ | ⟨_, before⟩
      · cases found : world.versions.committed (package.id, publish.ver) with
        | none => exact found
        | some row =>
            rw [tables.view_version found] at absent
            contradiction
      · exact tables.insertedNew key owner row before
  | land package committing =>
      subst committing
      obtain ⟨stored, locks, inserts⟩ := holds
      exact tables.land keeps known stored locks inserts

/-! ## Where a step leads -/

theorem putStep_stored {answer : StepAnswer}
    (success : (putStep world publish answer publish.key).1 = .ok ()) :
    Stored { world with store := (putStep world publish answer publish.key).2 } publish :=
  putVerified_ok rfl success

theorem publicAliases_subset (store : ArtifactStore) (publish : Publish I) (key : String)
    (member : key ∈ publicAliases store publish) : key ∈ publish.aliasKeys := by
  unfold publicAliases at member
  split at member
  · contradiction
  · exact member
  · exact member

theorem sameFacts_of_matches {row : Version I} {key : VersionKey} {author : Nat}
    {other : Publish I} (recorded : Recorded world key row author other)
    (org : publish.org = other.org) (name : publish.name = other.name)
    (ver : publish.ver = other.ver) (agrees : legacyVersionMatches row publish = true) :
    SameFacts publish other := by
  obtain ⟨id, yanked, rfl⟩ := recorded.row
  simp only [legacyVersionMatches, Bool.and_eq_true, decide_eq_true_eq] at agrees
  obtain ⟨⟨⟨⟨⟨sha, len⟩, format⟩, tag⟩, commit⟩, -⟩ := agrees
  exact ⟨org, name, ver, sha.symm, len.symm, extension_injective format.symm, tag.symm,
    commit.symm⟩

/-- A committed version under a publish's own package id has the publish's names,
and the same facts if it matches. -/
theorem TablesHold.adoptable (tables : TablesHold world) (known : publish.org ∈ world.orgs)
    {id : Uuid} (issued : world.issued id = some publish.packageKey) {row : Version I}
    (found : world.versions.committed (id, publish.ver) = some row)
    (agrees : legacyVersionMatches row publish = true) : Adoptable world publish := by
  obtain ⟨author, other, recorded⟩ := tables.recorded _ row found
  obtain ⟨package, committed, sameId⟩ := recorded.package
  have issued' := tables.packageIds _ package committed
  rw [sameId, issued] at issued'
  obtain ⟨orgId, name⟩ := Prod.mk.inj (Option.some.inj issued')
  exact ⟨_, author, other, recorded.author, sameFacts_of_matches recorded
    (tables.orgs _ known _ recorded.known (Or.inr orgId)) name recorded.version agrees⟩

/-- The phase is over or still that of the publish. -/
def PhaseOf (publish : Publish I) : PublishPhase I → Prop
  | .running other _ => other = publish
  | .finished _ | .crashed => True

/-- The step is an effect on the registry and a phase that holds after it. -/
def StepsTo (world : PublishWorld I) (attempt : Nat) (publish : Publish I)
    (point : PublishPoint I) (next : PublishWorld I) : Prop :=
  ∃ middle phase, PublishEffect world attempt publish point middle ∧
    next = middle.goto attempt phase ∧ PhaseOf publish phase ∧
    PhaseHolds middle attempt (some phase)

theorem stepsTo_quiet {later : PublishPoint I}
    (holds : PhaseHolds world attempt (some (.running publish later))) :
    StepsTo world attempt publish point (world.goto attempt (.running publish later)) :=
  ⟨world, .running publish later, .quiet, rfl, rfl, holds⟩

theorem stepsTo_finish (free : HoldsNothing world attempt)
    (result : ApiResult PublishResponse) :
    StepsTo world attempt publish point (world.finish attempt result) :=
  ⟨world, .finished result, .quiet, rfl, trivial, free⟩

theorem stepsTo_abort (error : ApiErr) :
    StepsTo world attempt publish point (world.abort attempt error) :=
  ⟨world.rollback attempt, .finished (.error error), .rollback, rfl, trivial,
    holdsNothing_rollback world attempt⟩

/-- A point that gives up under a condition and goes on otherwise. -/
theorem stepsTo_unless {stops : Prop} [Decidable stops] {stopped : PublishWorld I}
    {rest : Option (PublishWorld I)} (stopping : StepsTo world attempt publish point stopped)
    (stepped : (if stops then some stopped else rest) = some next)
    (further : rest = some next → StepsTo world attempt publish point next) :
    StepsTo world attempt publish point next := by
  split at stepped
  · obtain rfl := Option.some.inj stepped
    exact stopping
  · exact further stepped

/-- A published version is adopted where its facts agree, and refused otherwise. -/
theorem stepsTo_existing {existing : Version I} {later : PublishPoint I} {error : ApiErr}
    (free : HoldsNothing world attempt)
    (agreeing : legacyVersionMatches existing publish = true →
      PhaseHolds world attempt (some (.running publish later)))
    (stepped : (if legacyVersionMatches existing publish = true then
        some (world.goto attempt (.running publish later))
      else some (world.finish attempt (.error error))) = some next) :
    StepsTo world attempt publish point next := by
  split at stepped
  · rename_i agrees
    obtain rfl := Option.some.inj stepped
    exact stepsTo_quiet (agreeing agrees)
  · obtain rfl := Option.some.inj stepped
    exact stepsTo_finish free _

theorem stepsTo_adopt {answer : StepAnswer} {phase : PublishPhase I}
    (free : HoldsNothing world attempt) (adopting : adopts point = true)
    (same : PhaseOf publish phase) (later : PhaseHolds world attempt (some phase)) :
    StepsTo world attempt publish point (adoptStep world attempt publish answer phase) := by
  unfold adoptStep
  split
  · exact stepsTo_finish free _
  · cases built : machinePublishInput publish with
    | error error => exact stepsTo_finish free _
    | ok input =>
        have keeps : Keeps world (world.logAdoption publish input) :=
          { Keeps.refl world with adoptions := List.suffix_cons _ _ }
        have held : SameHeld world (world.logAdoption publish input) attempt :=
          ⟨fun _ _ => Iff.rfl, fun _ _ => Iff.rfl⟩
        cases answer.adopted with
        | ok _ =>
            exact ⟨_, phase, .adopt input built adopting, rfl, same,
              PhaseHolds.mono keeps held later⟩
        | error error =>
            exact ⟨_, _, .adopt input built adopting, rfl, trivial, free.mono held⟩

theorem stepsTo_put {answer : StepAnswer} {key : String} {phase : PublishPhase I}
    (named : Puts publish key point) (same : PhaseOf publish phase)
    (holds : PhaseHolds { world with store := (putStep world publish answer key).2 } attempt
      (some phase)) :
    StepsTo world attempt publish point
      ({ world with store := (putStep world publish answer key).2 }.goto attempt phase) :=
  ⟨_, phase, .put key answer named, rfl, same, holds⟩

/-- What one step of a running publish does, point by point. -/
theorem advance_stepsTo {answer : StepAnswer} (tables : TablesHold world)
    (known : publish.org ∈ world.orgs) (holds : PointHolds world attempt publish point)
    (stepped : advance world attempt publish answer point = some next) :
    StepsTo world attempt publish point next := by
  cases point with
  | findPackage =>
      have free : HoldsNothing world attempt := holds
      refine stepsTo_unless (stepsTo_finish free _) stepped ?_
      intro stepped
      split at stepped
      · rename_i package found
        obtain rfl := Option.some.inj stepped
        exact stepsTo_quiet ⟨known, free, package, found, rfl⟩
      · obtain rfl := Option.some.inj stepped
        exact stepsTo_quiet ⟨known, free⟩
  | findVersion package =>
      obtain ⟨free, row, found, same⟩ := holds
      have issued : world.issued package.id = some publish.packageKey :=
        same ▸ tables.packageIds _ row found
      refine stepsTo_unless (stepsTo_finish free _) stepped ?_
      intro stepped
      split at stepped
      · obtain rfl := Option.some.inj stepped
        exact stepsTo_quiet ⟨known, free⟩
      · rename_i existing published
        refine stepsTo_existing free ?_ stepped
        intro agrees
        exact ⟨known, free, tables.adoptable known issued published agrees⟩
  | adoptRetry =>
      simp only [advance] at stepped
      obtain rfl := Option.some.inj stepped
      exact stepsTo_adopt holds.1 rfl trivial holds.1
  | putBlob =>
      have free : HoldsNothing world attempt := holds
      simp only [advance] at stepped
      cases outcome : (putStep world publish answer publish.key).1 with
      | error error =>
          rw [outcome] at stepped
          obtain rfl := Option.some.inj stepped
          exact stepsTo_put rfl trivial (HoldsNothing.mk free.packages free.versions)
      | ok _ =>
          rw [outcome] at stepped
          obtain rfl := Option.some.inj stepped
          exact stepsTo_put rfl rfl ⟨known, ⟨free.packages, free.versions⟩,
            putStep_stored outcome, publicAliases_subset _ publish⟩
  | putAliases keys =>
      obtain ⟨free, stored, members⟩ := holds
      cases keys with
      | nil =>
          simp only [advance] at stepped
          obtain rfl := Option.some.inj stepped
          exact stepsTo_quiet ⟨known, free, stored⟩
      | cons key rest =>
          have kept : Stored { world with store := (putStep world publish answer key).2 } publish :=
            stored.mono (keeps_put world publish answer key)
          simp only [advance] at stepped
          cases outcome : (putStep world publish answer key).1 with
          | error error =>
              rw [outcome] at stepped
              obtain rfl := Option.some.inj stepped
              exact stepsTo_put rfl rfl ⟨known, ⟨free.packages, free.versions⟩, kept⟩
          | ok _ =>
              rw [outcome] at stepped
              obtain rfl := Option.some.inj stepped
              exact stepsTo_put rfl rfl ⟨known, ⟨free.packages, free.versions⟩, kept,
                fun other member => members other (List.mem_cons_of_mem _ member)⟩
  | beginTxn =>
      refine stepsTo_unless (stepsTo_finish holds.1 _) stepped ?_
      intro stepped
      obtain rfl := Option.some.inj stepped
      exact stepsTo_quiet ⟨known, holds⟩
  | upsert =>
      obtain ⟨free, stored⟩ := holds
      refine stepsTo_unless (stepsTo_abort _) stepped ?_
      intro stepped
      split at stepped
      · contradiction
      · rename_i allowed
        simp only [not_or, Bool.not_eq_true, Option.isSome_eq_false_iff,
          Option.isNone_iff_eq_none] at allowed
        obtain rfl := Option.some.inj stepped
        refine ⟨_, _, .upsert answer.id answer.clock allowed.1 allowed.2, rfl, rfl, known, stored,
          ⟨_, ⟨_, RowTable.pending_write_self _ _ _ _, rfl⟩, ?_⟩, free.versions⟩
        exact RowTable.pending_write_only fun key row before =>
          absurd before (free.packages key row)
  | readBack =>
      obtain ⟨stored, ⟨id, locks⟩, noVersion⟩ := holds
      obtain ⟨row, seen, same, -⟩ := locks.view
      simp only [advance, seen] at stepped
      refine stepsTo_unless (stepsTo_abort _) stepped ?_
      intro stepped
      obtain rfl := Option.some.inj stepped
      exact stepsTo_quiet ⟨known, stored, same ▸ locks, noVersion⟩
  | bump package =>
      obtain ⟨stored, locks, noVersion⟩ := holds
      obtain ⟨row, seen, same, -⟩ := locks.view
      simp only [advance, seen] at stepped
      refine stepsTo_unless (stepsTo_abort _) stepped ?_
      intro stepped
      obtain rfl := Option.some.inj stepped
      refine ⟨_, _, .bump package row _ (nextSequence_fits _) rfl seen, rfl, rfl, known, stored,
        ⟨⟨_, RowTable.pending_write_self _ _ _ _, same⟩, ?_⟩, noVersion⟩
      exact RowTable.pending_write_only locks.only
  | insertVersion package =>
      obtain ⟨stored, locks, noVersion⟩ := holds
      refine stepsTo_unless (stepsTo_abort _) stepped ?_
      intro stepped
      split at stepped
      · contradiction
      · rename_i free
        split at stepped
        · obtain rfl := Option.some.inj stepped
          obtain ⟨row, held, same⟩ := locks.locked
          refine ⟨_, _, .rollback, rfl, rfl, known, holdsNothing_rollback world attempt, ?_⟩
          rw [← same]
          exact (tables.pendingIds _ _ row held).1
        · rename_i absent
          obtain rfl := Option.some.inj stepped
          refine ⟨_, _, .insert package answer.id (by simpa using free) absent, rfl, rfl,
            known, stored, ⟨locks.locked, locks.only⟩,
            ⟨_, RowTable.pending_write_self _ _ _ _⟩, ?_⟩
          exact RowTable.pending_write_only fun key row before =>
            absurd before (noVersion key row)
  | commit package =>
      have unlocked : HoldsNothing (world.land attempt publish package) attempt :=
        ⟨fun _ _ own => ((RowTable.pending_commit_some _ _ _ _ _).mp own).2 rfl,
          fun _ _ own => ((RowTable.pending_commit_some _ _ _ _ _).mp own).2 rfl⟩
      simp only [advance] at stepped
      split at stepped
      · obtain rfl := Option.some.inj stepped
        exact ⟨_, _, .land package rfl, rfl, rfl, known, unlocked, _, Function.update_self _ _ _⟩
      · split at stepped
        · obtain rfl := Option.some.inj stepped
          exact ⟨_, _, .land package rfl, rfl, trivial, unlocked⟩
        · obtain rfl := Option.some.inj stepped
          exact stepsTo_abort _
  | findWinner package =>
      obtain ⟨free, issued⟩ := holds
      refine stepsTo_unless (stepsTo_finish free _) stepped ?_
      intro stepped
      split at stepped
      · rename_i existing published
        refine stepsTo_existing free ?_ stepped
        intro agrees
        exact ⟨known, free, tables.adoptable known issued published agrees⟩
      · obtain rfl := Option.some.inj stepped
        exact stepsTo_finish free _
  | adoptWinner =>
      simp only [advance] at stepped
      obtain rfl := Option.some.inj stepped
      exact stepsTo_adopt holds.1 rfl trivial holds.1
  | adoptPublished =>
      simp only [advance] at stepped
      obtain rfl := Option.some.inj stepped
      exact stepsTo_adopt holds.1 rfl rfl ⟨known, holds⟩
  | audit =>
      simp only [advance] at stepped
      obtain rfl := Option.some.inj stepped
      exact ⟨_, _, .record _, rfl, trivial, holds.1.packages, holds.1.versions⟩

/-! ## Every event -/

/-- Everything that an event can do. -/
inductive PublishStepped (world : PublishWorld I) : PublishEvent I → PublishWorld I → Prop
  | refused (attempt : Nat) (answers : PublishAnswers) (request : PublishRequest) (error : ApiErr)
      (unused : world.phases attempt = none) :
      PublishStepped world (.arrive attempt answers request)
        (world.finish attempt (.error error))
  | admitted (attempt : Nat) (answers : PublishAnswers) (request : PublishRequest)
      (publish : Publish I) (unused : world.phases attempt = none)
      (accepted : admitPublish I world.orgId answers request = .ok publish) :
      PublishStepped world (.arrive attempt answers request)
        (world.goto attempt (.running publish .findPackage))
  | advanced (attempt : Nat) (answer : StepAnswer) (publish : Publish I) (point : PublishPoint I)
      (next : PublishWorld I) (running : world.phases attempt = some (.running publish point))
      (stepped : advance world attempt publish answer point = some next) :
      PublishStepped world (.advance attempt answer) next
  | crashed (attempt : Nat) (publish : Publish I) (point : PublishPoint I)
      (running : world.phases attempt = some (.running publish point)) :
      PublishStepped world (.crash attempt) ((world.rollback attempt).goto attempt .crashed)
  | claimed (org : Org)
      (unused : ∀ other ∈ world.orgs, other.slug ≠ org.slug ∧ other.id ≠ org.id) :
      PublishStepped world (.claimOrg org) { world with orgs := org :: world.orgs }
  | yanked (key : VersionKey) (yanked : Bool) (row : Version I)
      (free : world.versions.pending key = none)
      (found : world.versions.committed key = some row) :
      PublishStepped world (.yank key yanked) { world with
        versions := world.versions.autocommit key (yankedVersion row yanked) }
  | indexed (key : PackageKey) (document : SignedIndex I.Mirror) (encoded : I.Value)
      (row : Package I) (free : world.packages.pending key = none)
      (found : world.packages.committed key = some row) :
      PublishStepped world (.updateIndex key document encoded) { world with
        packages := world.packages.autocommit key (indexedPackage I row document encoded) }

theorem publishStep_some {event : PublishEvent I} (stepped : publishStep world event = some next) :
    PublishStepped world event next := by
  cases event with
  | arrive attempt answers request =>
      simp only [publishStep] at stepped
      split at stepped
      · contradiction
      · rename_i unused
        have absent := Option.not_isSome_iff_eq_none.mp unused
        split at stepped
        · obtain rfl := Option.some.inj stepped
          exact .refused attempt answers request _ absent
        · rename_i publish accepted
          obtain rfl := Option.some.inj stepped
          exact .admitted attempt answers request publish absent accepted
  | advance attempt answer =>
      simp only [publishStep] at stepped
      split at stepped
      · rename_i publish point running
        exact .advanced attempt answer publish point next running stepped
      · contradiction
  | crash attempt =>
      simp only [publishStep] at stepped
      split at stepped
      · rename_i publish point running
        obtain rfl := Option.some.inj stepped
        exact .crashed attempt publish point running
      · contradiction
  | claimOrg org =>
      simp only [publishStep] at stepped
      split at stepped
      · rename_i unused
        obtain rfl := Option.some.inj stepped
        exact .claimed org unused
      · contradiction
  | yank key yanked =>
      simp only [publishStep] at stepped
      split at stepped
      · rename_i row free found
        obtain rfl := Option.some.inj stepped
        exact .yanked key yanked row free found
      · contradiction
  | updateIndex key document encoded =>
      simp only [publishStep] at stepped
      split at stepped
      · rename_i row free found
        obtain rfl := Option.some.inj stepped
        exact .indexed key document encoded row free found
      · contradiction

theorem keeps_goto (world : PublishWorld I) (attempt : Nat) (phase : PublishPhase I) :
    Keeps world (world.goto attempt phase) :=
  { Keeps.refl world with }

theorem sameHeld_goto (world : PublishWorld I) (attempt other : Nat) (phase : PublishPhase I) :
    SameHeld world (world.goto attempt phase) other :=
  ⟨fun _ _ => Iff.rfl, fun _ _ => Iff.rfl⟩

/-- One attempt moves on over tables that hold; the others keep their facts. -/
theorem PublishInvariant.goto {middle : PublishWorld I} {phase : PublishPhase I}
    (invariant : PublishInvariant world) (tables : TablesHold middle)
    (phases : middle.phases = world.phases) (keeps : Keeps world middle)
    (held : ∀ other, other ≠ attempt → SameHeld world middle other)
    (own : PhaseHolds middle attempt (some phase)) :
    PublishInvariant (middle.goto attempt phase) where
  tables := tables.carry (keeps_goto middle attempt phase) tables.orgs rfl rfl rfl rfl
    (adopted_mono (keeps_goto middle attempt phase) rfl tables)
  phases other := by
    by_cases same : other = attempt
    · subst same
      have here : (middle.goto other phase).phases other = some phase :=
        Function.update_self _ _ _
      rw [here]
      exact PhaseHolds.mono (keeps_goto middle other phase) (sameHeld_goto middle other other phase)
        own
    · have there : (middle.goto attempt phase).phases other = world.phases other :=
        (Function.update_of_ne same _ _).trans (congrFun phases other)
      rw [there]
      exact PhaseHolds.mono (keeps_goto middle attempt phase)
        (sameHeld_goto middle attempt other phase)
        (PhaseHolds.mono keeps (held other same) (invariant.phases other))

/-- An event that leaves the attempts alone keeps their facts. -/
theorem PublishInvariant.beside (invariant : PublishInvariant world) (tables : TablesHold next)
    (phases : next.phases = world.phases) (keeps : Keeps world next)
    (held : ∀ attempt, SameHeld world next attempt) : PublishInvariant next where
  tables := tables
  phases attempt := by
    rw [phases]
    exact PhaseHolds.mono keeps (held attempt) (invariant.phases attempt)

theorem orgId_mem {slug : String} {id : Uuid} (found : world.orgId slug = some id) :
    Org.mk id slug ∈ world.orgs := by
  obtain ⟨org, first, rfl⟩ := Option.map_eq_some_iff.mp found
  have named : org.slug = slug := by simpa using List.find?_some first
  rw [← named]
  exact List.mem_of_find?_eq_some first

theorem PublishInvariant.stepsTo {answer : StepAnswer} (invariant : PublishInvariant world)
    (running : world.phases attempt = some (.running publish point))
    (stepped : advance world attempt publish answer point = some next) :
    StepsTo world attempt publish point next :=
  advance_stepsTo invariant.tables (invariant.running running).1 (invariant.running running).2
    stepped

theorem advance_preserves {answer : StepAnswer} (invariant : PublishInvariant world)
    (running : world.phases attempt = some (.running publish point))
    (stepped : advance world attempt publish answer point = some next) :
    PublishInvariant next ∧ Keeps world next := by
  obtain ⟨known, holds⟩ := invariant.running running
  obtain ⟨middle, phase, effect, rfl, -, later⟩ := invariant.stepsTo running stepped
  have keeps := effect.keeps invariant.tables holds
  exact ⟨invariant.goto (effect.tables invariant.tables known holds) effect.phases keeps
    (fun other differs => effect.sameHeld holds differs) later,
    keeps.trans (keeps_goto middle attempt phase)⟩

/-- An attempt that had not begun holds nothing, whatever phase it begins with. -/
theorem PublishInvariant.begins {phase : PublishPhase I} (invariant : PublishInvariant world)
    (unused : world.phases attempt = none)
    (own : HoldsNothing world attempt → PhaseHolds world attempt (some phase)) :
    PublishInvariant (world.goto attempt phase) ∧ Keeps world (world.goto attempt phase) := by
  have free := invariant.phases attempt
  rw [unused] at free
  exact ⟨invariant.goto invariant.tables rfl (Keeps.refl world)
    (fun other _ => SameHeld.refl world other) (own free), keeps_goto world attempt phase⟩

theorem crash_preserves (invariant : PublishInvariant world) (attempt : Nat) :
    PublishInvariant ((world.rollback attempt).goto attempt .crashed) ∧
      Keeps world ((world.rollback attempt).goto attempt .crashed) := by
  have keeps := keeps_rollback world attempt
  exact ⟨invariant.goto (invariant.tables.rollback attempt) rfl keeps
    (fun other differs => sameHeld_rollback world differs)
    (holdsNothing_rollback world attempt),
    keeps.trans (keeps_goto _ attempt .crashed)⟩

theorem claimOrg_preserves {org : Org} (invariant : PublishInvariant world)
    (unused : ∀ other ∈ world.orgs, other.slug ≠ org.slug ∧ other.id ≠ org.id) :
    PublishInvariant { world with orgs := org :: world.orgs } ∧
      Keeps world { world with orgs := org :: world.orgs } := by
  have keeps : Keeps world { world with orgs := org :: world.orgs } :=
    { Keeps.refl world with orgs := fun _ member => List.mem_cons_of_mem _ member }
  refine ⟨invariant.beside (invariant.tables.carry keeps ?_ rfl rfl rfl rfl
    (adopted_mono keeps rfl invariant.tables)) rfl keeps
      (fun attempt => ⟨fun _ _ => Iff.rfl, fun _ _ => Iff.rfl⟩), keeps⟩
  intro left first right second same
  rcases List.mem_cons.mp first with rfl | older
  · rcases List.mem_cons.mp second with rfl | other
    · rfl
    · rcases same with slug | id
      · exact absurd slug.symm (unused right other).1
      · exact absurd id.symm (unused right other).2
  · rcases List.mem_cons.mp second with rfl | other
    · rcases same with slug | id
      · exact absurd slug (unused left older).1
      · exact absurd id (unused left older).2
    · exact invariant.tables.orgs left older right other same

theorem yank_preserves {key : VersionKey} {row : Version I} (yanked : Bool)
    (invariant : PublishInvariant world) (free : world.versions.pending key = none)
    (found : world.versions.committed key = some row) :
    PublishInvariant { world with
        versions := world.versions.autocommit key (yankedVersion row yanked) } ∧
      Keeps world { world with
        versions := world.versions.autocommit key (yankedVersion row yanked) } := by
  have tables := invariant.tables
  have keeps : Keeps world { world with
      versions := world.versions.autocommit key (yankedVersion row yanked) } := by
    refine { Keeps.refl world with versions := ?_ }
    intro other old present
    rw [RowTable.committed_autocommit]
    split
    · rename_i same
      subst same
      rw [found] at present
      obtain rfl := Option.some.inj present
      exact ⟨yanked, rfl⟩
    · exact ⟨old.yanked, present⟩
  refine ⟨invariant.beside
    { orgs := tables.orgs
      packageIds := tables.packageIds
      pendingIds := tables.pendingIds
      insertedNew := ?_
      recorded := ?_
      unauthored := ?_
      adopted := adopted_mono keeps rfl tables } rfl keeps
    (fun attempt => ⟨fun _ _ => Iff.rfl, fun _ _ => Iff.rfl⟩), keeps⟩
  · intro other owner version held
    rw [RowTable.committed_autocommit]
    split
    · rename_i same
      subst same
      rw [RowTable.pending_autocommit, free] at held
      contradiction
    · exact tables.insertedNew other owner version held
  · intro other version present
    rw [RowTable.committed_autocommit] at present
    split at present
    · rename_i same
      subst same
      obtain rfl := Option.some.inj present
      obtain ⟨author, publish, recorded⟩ := tables.recorded other row found
      obtain ⟨id, before, built⟩ := recorded.row
      exact ⟨author, publish,
        { recorded.mono keeps with row := ⟨id, yanked, by rw [built]; rfl⟩ }⟩
    · obtain ⟨author, publish, recorded⟩ := tables.recorded other version present
      exact ⟨author, publish, recorded.mono keeps⟩
  · intro other absent
    rw [RowTable.committed_autocommit] at absent
    split at absent
    · contradiction
    · exact tables.unauthored other absent

theorem indexedPackage_id (row : Package I) (document : SignedIndex I.Mirror) (encoded : I.Value) :
    (indexedPackage I row document encoded).id = row.id := by
  unfold indexedPackage
  exact rfl

theorem updateIndex_preserves {key : PackageKey} {row : Package I}
    (document : SignedIndex I.Mirror) (encoded : I.Value) (invariant : PublishInvariant world)
    (free : world.packages.pending key = none)
    (found : world.packages.committed key = some row) :
    PublishInvariant { world with
        packages := world.packages.autocommit key (indexedPackage I row document encoded) } ∧
      Keeps world { world with
        packages := world.packages.autocommit key (indexedPackage I row document encoded) } := by
  have tables := invariant.tables
  have keeps : Keeps world { world with
      packages := world.packages.autocommit key (indexedPackage I row document encoded) } := by
    refine { Keeps.refl world with packages := ?_ }
    intro other old present
    rw [RowTable.committed_autocommit]
    split
    · rename_i same
      subst same
      rw [found] at present
      obtain rfl := Option.some.inj present
      exact ⟨_, rfl, indexedPackage_id row document encoded⟩
    · exact ⟨old, present, rfl⟩
  refine ⟨invariant.beside
    { orgs := tables.orgs
      packageIds := ?_
      pendingIds := ?_
      insertedNew := tables.insertedNew
      recorded := recorded_mono keeps rfl tables
      unauthored := tables.unauthored
      adopted := adopted_mono keeps rfl tables } rfl keeps
    (fun attempt => ⟨fun _ _ => Iff.rfl, fun _ _ => Iff.rfl⟩), keeps⟩
  · intro other version present
    rw [RowTable.committed_autocommit] at present
    split at present
    · rename_i same
      subst same
      obtain rfl := Option.some.inj present
      rw [indexedPackage_id]
      exact tables.packageIds other row found
    · exact tables.packageIds other version present
  · intro other owner version held
    obtain ⟨issued, same⟩ := tables.pendingIds other owner version held
    refine ⟨issued, fun old present => ?_⟩
    rw [RowTable.committed_autocommit] at present
    split at present
    · rename_i here
      subst here
      rw [RowTable.pending_autocommit, free] at held
      contradiction
    · exact same old present

theorem publishStep_preserves {event : PublishEvent I} (invariant : PublishInvariant world)
    (stepped : publishStep world event = some next) :
    PublishInvariant next ∧ Keeps world next := by
  cases publishStep_some stepped with
  | refused attempt answers request error unused =>
      exact invariant.begins unused fun free => free
  | admitted attempt answers request publish unused accepted =>
      have known : publish.org ∈ world.orgs := orgId_mem (admitPublish_ok I accepted).1
      exact invariant.begins unused fun free => ⟨known, free⟩
  | advanced attempt answer publish point _ running moved =>
      exact advance_preserves invariant running moved
  | crashed attempt publish point running => exact crash_preserves invariant attempt
  | claimed org unused => exact claimOrg_preserves invariant unused
  | yanked key yanked row free found => exact yank_preserves yanked invariant free found
  | indexed key document encoded row free found =>
      exact updateIndex_preserves document encoded invariant free found

end Effects

/-! ## Runs -/

theorem initial_invariant (backend : Backend) (registryWrite : Bool) :
    PublishInvariant (PublishWorld.initial I backend registryWrite) where
  tables :=
    { orgs := fun _ member => absurd member List.not_mem_nil
      packageIds := fun _ _ found => by contradiction
      pendingIds := fun _ _ _ held => by contradiction
      insertedNew := fun _ _ _ held => by contradiction
      recorded := fun _ _ found => by contradiction
      unauthored := fun _ _ => rfl
      adopted := fun _ member => absurd member List.not_mem_nil }
  phases _ := ⟨fun _ _ held => by contradiction, fun _ _ held => by contradiction⟩

theorem exec_invariant_publish {world final : PublishWorld I} {events : List (PublishEvent I)}
    (invariant : PublishInvariant world) (run : exec publishStep world events = some final) :
    PublishInvariant final :=
  exec_invariant publishStep
    (fun _ _ _ holds stepped => (publishStep_preserves holds stepped).1) invariant run

theorem exec_keeps_publish {world final : PublishWorld I} {events : List (PublishEvent I)}
    (invariant : PublishInvariant world) (run : exec publishStep world events = some final) :
    Keeps world final :=
  exec_monotone publishStep Keeps.refl (fun _ _ _ early late => early.trans late)
    (fun _ _ _ holds stepped => publishStep_preserves holds stepped) invariant run

end ZedRegistry
