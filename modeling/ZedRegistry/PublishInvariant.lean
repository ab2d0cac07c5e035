import ZedRegistry.PublishMachine

/-!
# What every run of publishes keeps

The invariant says what every running publish holds at the point where it is and
how every committed row came about; `Keeps` says what no step takes back.
-/

set_option autoImplicit false

namespace ZedRegistry

variable {I : Interfaces}

/-! ## The invariant -/

/-- The object of a publish is stored, with its length and digest. -/
def Stored (world : PublishWorld I) (publish : Publish I) : Prop :=
  ∃ object, world.store.get publish.key = some object ∧
    object.bytes.length = publish.artifact.length ∧ I.sha256 object.bytes = publish.actualSha

/-- An attempt without an open transaction has no uncommitted row. -/
structure HoldsNothing (world : PublishWorld I) (attempt : Nat) : Prop where
  packages : ∀ key row, world.packages.pending key ≠ some (attempt, row)
  versions : ∀ key row, world.versions.pending key ≠ some (attempt, row)

/-- The one package row an attempt has locked is that of its publish. -/
structure HoldsPackage (world : PublishWorld I) (attempt : Nat) (publish : Publish I)
    (id : Uuid) : Prop where
  locked : ∃ row, world.packages.pending publish.packageKey = some (attempt, row) ∧ row.id = id
  only : ∀ key row, world.packages.pending key = some (attempt, row) → key = publish.packageKey

def HoldsNoVersion (world : PublishWorld I) (attempt : Nat) : Prop :=
  ∀ key row, world.versions.pending key ≠ some (attempt, row)

/-- The one version row an attempt has inserted is that of its publish. -/
structure HoldsVersion (world : PublishWorld I) (attempt : Nat) (publish : Publish I)
    (packageId : Uuid) : Prop where
  inserted : ∃ id, world.versions.pending (packageId, publish.ver) =
    some (attempt, versionRow publish id packageId)
  only : ∀ key row, world.versions.pending key = some (attempt, row) →
    key = (packageId, publish.ver)

/-- The facts of a version that `legacy_version_matches` compares, and its names. -/
structure SameFacts (publish other : Publish I) : Prop where
  org : publish.org = other.org
  name : publish.name = other.name
  ver : publish.ver = other.ver
  actualSha : publish.actualSha = other.actualSha
  artifactLen : publish.artifactLen = other.artifactLen
  format : publish.published.format = other.published.format
  vcsTag : publish.published.vcsTag = other.published.vcsTag
  vcsCommit : publish.published.vcsCommit = other.published.vcsCommit

theorem SameFacts.refl (publish : Publish I) : SameFacts publish publish :=
  ⟨rfl, rfl, rfl, rfl, rfl, rfl, rfl, rfl⟩

/-- Some publish with the same facts committed the version. -/
def Adoptable (world : PublishWorld I) (publish : Publish I) : Prop :=
  ∃ key attempt author, world.authors key = some (attempt, author) ∧ SameFacts publish author

def Authored (world : PublishWorld I) (attempt : Nat) (publish : Publish I) : Prop :=
  ∃ key, world.authors key = some (attempt, publish)

def PointHolds (world : PublishWorld I) (attempt : Nat) (publish : Publish I) :
    PublishPoint I → Prop
  | .findPackage | .putBlob => HoldsNothing world attempt
  | .findVersion package => HoldsNothing world attempt ∧
      ∃ row, world.packages.committed publish.packageKey = some row ∧ row.id = package.id
  | .adoptRetry | .adoptWinner => HoldsNothing world attempt ∧ Adoptable world publish
  | .putAliases rest =>
      HoldsNothing world attempt ∧ Stored world publish ∧ ∀ key ∈ rest, key ∈ publish.aliasKeys
  | .beginTxn | .upsert => HoldsNothing world attempt ∧ Stored world publish
  | .readBack => Stored world publish ∧ (∃ id, HoldsPackage world attempt publish id) ∧
      HoldsNoVersion world attempt
  | .bump package | .insertVersion package => Stored world publish ∧
      HoldsPackage world attempt publish package.id ∧ HoldsNoVersion world attempt
  | .commit package => Stored world publish ∧ HoldsPackage world attempt publish package.id ∧
      HoldsVersion world attempt publish package.id
  | .findWinner package =>
      HoldsNothing world attempt ∧ world.issued package.id = some publish.packageKey
  | .adoptPublished | .audit => HoldsNothing world attempt ∧ Authored world attempt publish

def PhaseHolds (world : PublishWorld I) (attempt : Nat) : Option (PublishPhase I) → Prop
  | some (.running publish point) =>
      publish.org ∈ world.orgs ∧ PointHolds world attempt publish point
  | some (.finished _) | some .crashed | none => HoldsNothing world attempt

/-- How a committed version row came about. -/
structure Recorded (world : PublishWorld I) (key : VersionKey) (row : Version I) (attempt : Nat)
    (publish : Publish I) : Prop where
  author : world.authors key = some (attempt, publish)
  row : ∃ id yanked, row = yankedVersion (versionRow publish id key.1) yanked
  version : key.2 = publish.ver
  package : ∃ package, world.packages.committed publish.packageKey = some package ∧
    package.id = key.1
  stored : Stored world publish
  known : publish.org ∈ world.orgs

structure TablesHold (world : PublishWorld I) : Prop where
  orgs : ∀ left ∈ world.orgs, ∀ right ∈ world.orgs,
    left.slug = right.slug ∨ left.id = right.id → left = right
  packageIds : ∀ key row, world.packages.committed key = some row →
    world.issued row.id = some key
  pendingIds : ∀ key attempt row, world.packages.pending key = some (attempt, row) →
    world.issued row.id = some key ∧
      ∀ old, world.packages.committed key = some old → row.id = old.id
  insertedNew : ∀ key attempt row, world.versions.pending key = some (attempt, row) →
    world.versions.committed key = none
  recorded : ∀ key row, world.versions.committed key = some row →
    ∃ attempt publish, Recorded world key row attempt publish
  unauthored : ∀ key, world.versions.committed key = none → world.authors key = none
  adopted : ∀ call ∈ world.adoptions,
    machinePublishInput call.1 = .ok call.2 ∧ Adoptable world call.1

/-- A version that has an author is committed, and recorded as the author's. -/
theorem TablesHold.recorded_of_author {world : PublishWorld I} (tables : TablesHold world)
    {key : VersionKey} {attempt : Nat} {author : Publish I}
    (known : world.authors key = some (attempt, author)) :
    ∃ row, world.versions.committed key = some row ∧ Recorded world key row attempt author := by
  cases found : world.versions.committed key with
  | none =>
      rw [tables.unauthored key found] at known
      contradiction
  | some row =>
      obtain ⟨attempt', author', recorded⟩ := tables.recorded key row found
      have same := recorded.author
      rw [known] at same
      obtain ⟨rfl, rfl⟩ := Prod.mk.inj (Option.some.inj same)
      exact ⟨row, rfl, recorded⟩

structure PublishInvariant (world : PublishWorld I) : Prop where
  tables : TablesHold world
  phases : ∀ attempt, PhaseHolds world attempt (world.phases attempt)

theorem PublishInvariant.running {world : PublishWorld I} {attempt : Nat} {publish : Publish I}
    {point : PublishPoint I} (invariant : PublishInvariant world)
    (running : world.phases attempt = some (.running publish point)) :
    publish.org ∈ world.orgs ∧ PointHolds world attempt publish point := by
  have facts := invariant.phases attempt
  rw [running] at facts
  exact facts

/-! ## What no step takes back -/

structure Keeps (world next : PublishWorld I) : Prop where
  orgs : ∀ org ∈ world.orgs, org ∈ next.orgs
  issued : ∀ id key, world.issued id = some key → next.issued id = some key
  packages : ∀ key row, world.packages.committed key = some row →
    ∃ later, next.packages.committed key = some later ∧ later.id = row.id
  versions : ∀ key row, world.versions.committed key = some row →
    ∃ yanked, next.versions.committed key = some (yankedVersion row yanked)
  backend : next.store.backend = world.store.backend
  objects : ∀ key object, world.store.get key = some object → next.store.get key = some object
  authors : ∀ key author, world.authors key = some author → next.authors key = some author
  adoptions : world.adoptions <:+ next.adoptions

theorem Keeps.refl (world : PublishWorld I) : Keeps world world where
  orgs _ member := member
  issued _ _ known := known
  packages _ row found := ⟨row, found, rfl⟩
  versions _ row found := ⟨row.yanked, found⟩
  backend := rfl
  objects _ _ found := found
  authors _ _ known := known
  adoptions := List.suffix_refl _

theorem Keeps.trans {first second third : PublishWorld I} (early : Keeps first second)
    (late : Keeps second third) : Keeps first third where
  orgs org member := late.orgs org (early.orgs org member)
  issued id key known := late.issued id key (early.issued id key known)
  packages key row found := by
    obtain ⟨middle, found, same⟩ := early.packages key row found
    obtain ⟨last, found, same'⟩ := late.packages key middle found
    exact ⟨last, found, same'.trans same⟩
  versions key row found := by
    obtain ⟨yanked, found⟩ := early.versions key row found
    obtain ⟨yanked', found⟩ := late.versions key _ found
    exact ⟨yanked', found⟩
  backend := late.backend.trans early.backend
  objects key object found := late.objects key object (early.objects key object found)
  authors key author known := late.authors key author (early.authors key author known)
  adoptions := early.adoptions.trans late.adoptions

theorem keeps_rollback (world : PublishWorld I) (attempt : Nat) :
    Keeps world (world.rollback attempt) :=
  { Keeps.refl world with }

theorem keeps_put (world : PublishWorld I) (publish : Publish I) (answer : StepAnswer)
    (key : String) :
    Keeps world { world with store := (putStep world publish answer key).2 } :=
  have extended := putVerified_extends I.sha256 world.store answer.put key publish.artifact
    (I.contentType publish.published.format) publish.actualSha
  { Keeps.refl world with
    backend := extended.backend
    objects := extended.kept }

/-- The attempt has the same uncommitted rows in both. -/
structure SameHeld (world next : PublishWorld I) (attempt : Nat) : Prop where
  packages : ∀ key row, next.packages.pending key = some (attempt, row) ↔
    world.packages.pending key = some (attempt, row)
  versions : ∀ key row, next.versions.pending key = some (attempt, row) ↔
    world.versions.pending key = some (attempt, row)

theorem SameHeld.refl (world : PublishWorld I) (attempt : Nat) : SameHeld world world attempt :=
  ⟨fun _ _ => Iff.rfl, fun _ _ => Iff.rfl⟩

/-! ## The facts of an attempt survive other steps -/

section Frame

variable {world next : PublishWorld I} {attempt : Nat} {publish : Publish I}

theorem Stored.mono (keeps : Keeps world next) (stored : Stored world publish) :
    Stored next publish := by
  obtain ⟨object, found, same⟩ := stored
  exact ⟨object, keeps.objects _ _ found, same⟩

theorem Adoptable.mono (keeps : Keeps world next) (adoptable : Adoptable world publish) :
    Adoptable next publish := by
  obtain ⟨key, attempt, author, known, same⟩ := adoptable
  exact ⟨key, attempt, author, keeps.authors _ _ known, same⟩

theorem Authored.mono (keeps : Keeps world next) (authored : Authored world attempt publish) :
    Authored next attempt publish := by
  obtain ⟨key, known⟩ := authored
  exact ⟨key, keeps.authors _ _ known⟩

theorem Authored.adoptable (authored : Authored world attempt publish) :
    Adoptable world publish := by
  obtain ⟨key, known⟩ := authored
  exact ⟨key, attempt, publish, known, SameFacts.refl publish⟩

theorem holdsNothing_rollback (world : PublishWorld I) (attempt : Nat) :
    HoldsNothing (world.rollback attempt) attempt where
  packages _ _ own := ((RowTable.pending_rollback_some _ _ _ _ _).mp own).2 rfl
  versions _ _ own := ((RowTable.pending_rollback_some _ _ _ _ _).mp own).2 rfl

theorem sameHeld_rollback (world : PublishWorld I) {attempt other : Nat}
    (differs : other ≠ attempt) : SameHeld world (world.rollback attempt) other where
  packages _ _ := by simp [PublishWorld.rollback, RowTable.pending_rollback_some, differs]
  versions _ _ := by simp [PublishWorld.rollback, RowTable.pending_rollback_some, differs]

theorem HoldsNothing.mono (held : SameHeld world next attempt)
    (free : HoldsNothing world attempt) : HoldsNothing next attempt where
  packages key row own := free.packages key row ((held.packages key row).mp own)
  versions key row own := free.versions key row ((held.versions key row).mp own)

theorem HoldsPackage.mono (held : SameHeld world next attempt) {id : Uuid}
    (locks : HoldsPackage world attempt publish id) : HoldsPackage next attempt publish id where
  locked := by
    obtain ⟨row, own, same⟩ := locks.locked
    exact ⟨row, (held.packages _ _).mpr own, same⟩
  only key row own := locks.only key row ((held.packages key row).mp own)

theorem HoldsNoVersion.mono (held : SameHeld world next attempt)
    (free : HoldsNoVersion world attempt) : HoldsNoVersion next attempt :=
  fun key row own => free key row ((held.versions key row).mp own)

theorem HoldsVersion.mono (held : SameHeld world next attempt) {id : Uuid}
    (locks : HoldsVersion world attempt publish id) : HoldsVersion next attempt publish id where
  inserted := by
    obtain ⟨id, own⟩ := locks.inserted
    exact ⟨id, (held.versions _ _).mpr own⟩
  only key row own := locks.only key row ((held.versions key row).mp own)

theorem PointHolds.mono (keeps : Keeps world next) (held : SameHeld world next attempt)
    {point : PublishPoint I} (holds : PointHolds world attempt publish point) :
    PointHolds next attempt publish point := by
  cases point with
  | findPackage | putBlob => exact HoldsNothing.mono held holds
  | findVersion package =>
      obtain ⟨free, row, found, same⟩ := holds
      obtain ⟨later, found, same'⟩ := keeps.packages _ _ found
      exact ⟨free.mono held, later, found, same'.trans same⟩
  | adoptRetry | adoptWinner => exact ⟨holds.1.mono held, holds.2.mono keeps⟩
  | putAliases rest => exact ⟨holds.1.mono held, holds.2.1.mono keeps, holds.2.2⟩
  | beginTxn | upsert => exact ⟨holds.1.mono held, holds.2.mono keeps⟩
  | readBack =>
      obtain ⟨stored, ⟨id, locks⟩, free⟩ := holds
      exact ⟨stored.mono keeps, ⟨id, locks.mono held⟩, free.mono held⟩
  | bump package | insertVersion package =>
      exact ⟨holds.1.mono keeps, holds.2.1.mono held, holds.2.2.mono held⟩
  | commit package => exact ⟨holds.1.mono keeps, holds.2.1.mono held, holds.2.2.mono held⟩
  | findWinner package => exact ⟨holds.1.mono held, keeps.issued _ _ holds.2⟩
  | adoptPublished | audit => exact ⟨holds.1.mono held, holds.2.mono keeps⟩

theorem PhaseHolds.mono (keeps : Keeps world next) (held : SameHeld world next attempt)
    {phase : Option (PublishPhase I)} (holds : PhaseHolds world attempt phase) :
    PhaseHolds next attempt phase := by
  match phase, holds with
  | some (.running publish point), ⟨known, holds⟩ =>
      exact ⟨keeps.orgs _ known, PointHolds.mono keeps held holds⟩
  | some (.finished _), holds => exact HoldsNothing.mono held holds
  | some .crashed, holds => exact HoldsNothing.mono held holds
  | none, holds => exact HoldsNothing.mono held holds

end Frame

end ZedRegistry
