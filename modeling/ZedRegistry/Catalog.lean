import ZedRegistry.Interfaces
import ZedRegistry.Lib.RowTable

/-!
# Rows of the registry

The org, package and version rows, the package upsert of a publish, and the
metadata served for a version.
-/

set_option autoImplicit false

namespace ZedRegistry

/-- `entities::org::Model`. -/
structure Org where
  id : Uuid
  slug : String
  deriving DecidableEq

/-- The unique index of the package table: org id and name. -/
abbrev PackageKey := Uuid × String

/-- The unique index of the version table: package id and version. -/
abbrev VersionKey := Uuid × String

/-- `entities::package::Model`. -/
structure Package (I : Interfaces) where
  id : Uuid
  orgId : Uuid
  name : String
  description : Option String
  vcs : String
  repoUrl : String
  versionScheme : String
  tags : I.Value
  createdAt : DateTimeUtc
  indexSequence : Int
  signedIndex : Option I.Value
  sequenceFits : FitsI64 indexSequence

/-- `entities::version::Model`. -/
structure Version (I : Interfaces) where
  id : Uuid
  packageId : Uuid
  version : String
  sha256 : String
  size : Int
  format : String
  vcsTag : String
  vcsCommit : Option String
  artifactKey : String
  yanked : Bool
  publishedAt : DateTimeUtc
  mirrors : I.Value
  signatures : I.Value

variable (I : Interfaces)

/-! ## The package upsert -/

/-- The row `upsert_package` inserts for a package that does not exist yet. -/
def insertedPackage (id orgId : Uuid) (name : String) (m : ManifestPackage)
    (now : DateTimeUtc) : Package I where
  id := id
  orgId := orgId
  name := name
  description := m.description
  vcs := m.repository.vcs
  repoUrl := m.repository.url
  versionScheme := m.versionScheme
  tags := I.stringsToValue m.keywords
  createdAt := I.timestamps.stored now
  indexSequence := 1
  signedIndex := none
  sequenceFits := fitsI64_one

/-- The columns that `ON CONFLICT DO UPDATE` takes from the manifest. -/
def conflictUpdatedPackage (row : Package I) (m : ManifestPackage) : Package I :=
  { row with
    description := m.description
    vcs := m.repository.vcs
    repoUrl := m.repository.url
    versionScheme := m.versionScheme
    tags := I.stringsToValue m.keywords }

def upsertedPackage (existing : Option (Package I)) (id orgId : Uuid) (name : String)
    (m : ManifestPackage) (now : DateTimeUtc) : Package I :=
  match existing with
  | some row => conflictUpdatedPackage I row m
  | none => insertedPackage I id orgId name m now

/-- `row.index_sequence.saturating_add(1).max(1)`. -/
def nextSequence (sequence : Int) : Int := max (min (sequence + 1) (2 ^ 63 - 1)) 1

theorem nextSequence_fits (sequence : Int) : FitsI64 (nextSequence sequence) := by
  unfold FitsI64 nextSequence
  omega

theorem le_nextSequence {sequence : Int} (fits : FitsI64 sequence) :
    sequence ≤ nextSequence sequence := by
  unfold FitsI64 at fits
  unfold nextSequence
  omega

/-- The update that writes `index_sequence` and no other column. -/
def bumpedPackage (row : Package I) (next : Int) (fits : FitsI64 next) : Package I :=
  { row with indexSequence := next, sequenceFits := fits }

/-- The row with the counter that follows the one that was read. -/
abbrev countedPackage (read row : Package I) : Package I :=
  bumpedPackage I row (nextSequence read.indexSequence) (nextSequence_fits _)

/-! ## Served metadata -/

/-- `VersionMetadata`, as the version route serves it. -/
structure VersionMetadata where
  org : String
  name : String
  version : String
  sha256 : String
  size : Nat
  format : ArtifactFormat
  vcsTag : String
  vcsCommit : Option String
  downloadUrl : String
  publishedAt : String
  yanked : Bool
  mirrors : List I.Mirror
  signatures : List DetachedSignature

/-- `artifactUrl` is the public base URL joined with the contract's artifact path;
`row.size as u64` keeps the bits. -/
def versionMetadata (artifactUrl : String → String) (org name : String) (row : Version I) :
    VersionMetadata I where
  org := org
  name := name
  version := row.version
  sha256 := row.sha256
  size := (row.size % 2 ^ 64).toNat
  format := artifactFormat row.format
  vcsTag := row.vcsTag
  vcsCommit := row.vcsCommit
  downloadUrl := artifactUrl row.sha256
  publishedAt := I.timestamps.toRfc3339 row.publishedAt
  yanked := row.yanked
  mirrors := (I.mirrorsFromValue row.mirrors).getD []
  signatures := (I.signaturesFromValue row.signatures).getD []

/-! ## A sample package -/

def acme : Org := ⟨sampleOrg, "acme"⟩

def samplePackage : ManifestPackage where
  org := "acme"
  name := "http-kit"
  version := "1.2.0"
  description := some "HTTP toolkit"
  versionScheme := "semver"
  keywords := ["http"]
  repository := ⟨"git", "https://github.com/acme/http-kit"⟩

end ZedRegistry
