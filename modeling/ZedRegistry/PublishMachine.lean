import ZedRegistry.Lib.Execution
import ZedRegistry.PublishRequest
import ZedRegistry.SignedIndex

/-!
# Publishes step by step

`publish.rs` from the immutability check on, as concurrent publishes take it: one
step for each statement, put and call, every one of which may fail, and a crash
between any two.  Yanks, index uploads and org claims run besides.
-/

set_option autoImplicit false

namespace ZedRegistry

variable (I : Interfaces)

/-! ## What a publish writes and sends -/

/-- `zed_orm_core::publication::MachinePublishInput`. -/
structure MachinePublishInput where
  orgSlug : String
  orgName : Option String
  packageName : String
  description : Option String
  vcs : String
  repoUrl : String
  homepageUrl : Option String
  keywords : I.Value
  version : String
  versionScheme : String
  sha256 : String
  sizeBytes : Int
  format : String
  vcsTag : Option String
  vcsCommit : Option String
  artifactKey : String
  manifest : I.Value
  publishedByUserId : Option Uuid
  apiTokenId : Option Uuid
  clientIpHash : Option String
  userAgent : Option String

variable {I}

def machinePublishInput (publish : Publish I) : ApiResult (MachinePublishInput I) := do
  let package := publish.published.manifest.package
  let manifest ← (I.manifestToValue publish.published.manifest).mapError fun error =>
    .badRequest "invalid_manifest" ("manifest serialization failed: " ++ error)
  pure
    { orgSlug := package.org
      orgName := some publish.org.slug
      packageName := package.name
      description := package.description
      vcs := package.repository.vcs
      repoUrl := package.repository.url
      homepageUrl := none
      keywords := I.stringsToValue package.keywords
      version := package.version
      versionScheme := package.versionScheme
      sha256 := publish.actualSha
      sizeBytes := publish.artifactLen
      format := publish.published.format.extension
      vcsTag := some publish.published.vcsTag
      vcsCommit := publish.published.vcsCommit
      artifactKey := publish.key
      manifest := manifest
      publishedByUserId := none
      apiTokenId := none
      clientIpHash := none
      userAgent := publish.userAgent }

def legacyVersionMatches (existing : Version I) (publish : Publish I) : Bool :=
  existing.sha256 = publish.actualSha && existing.size = publish.artifactLen &&
    existing.format = publish.published.format.extension &&
    existing.vcsTag = publish.published.vcsTag &&
    existing.vcsCommit = publish.published.vcsCommit && existing.artifactKey = publish.key

/-- The version row a publish inserts, as the table returns it. -/
def versionRow (publish : Publish I) (id packageId : Uuid) : Version I where
  id := id
  packageId := packageId
  version := publish.ver
  sha256 := publish.actualSha
  size := publish.artifactLen
  format := publish.published.format.extension
  vcsTag := publish.published.vcsTag
  vcsCommit := publish.published.vcsCommit
  artifactKey := publish.key
  yanked := false
  publishedAt := I.timestamps.stored publish.publishedAt
  mirrors := publish.storedMirrors
  signatures := publish.storedSignatures

/-- What a yank writes: the one column. -/
def yankedVersion (row : Version I) (yanked : Bool) : Version I := { row with yanked }

structure PublishResponse where
  org : String
  name : String
  version : String
  sha256 : String
  deriving DecidableEq

/-- A call of `audit::record`; what becomes of it does not come back. -/
structure AuditCall where
  orgId : Uuid
  token : Token
  subject : String
  detail : Option String

/-! ## States -/

variable (I)

/-- Where a publish is; `package` is the row it has read. -/
inductive PublishPoint where
  | findPackage
  | findVersion (package : Package I)
  | adoptRetry
  | putBlob
  | putAliases (rest : List String)
  | beginTxn
  | upsert
  | readBack
  | bump (package : Package I)
  | insertVersion (package : Package I)
  | commit (package : Package I)
  | findWinner (package : Package I)
  | adoptWinner
  | adoptPublished
  | audit

inductive PublishPhase where
  | running (publish : Publish I) (point : PublishPoint I)
  | finished (result : ApiResult PublishResponse)
  | crashed

/-- `issued` says which package key every package id was drawn for, `authors`
which publish committed a version, and `adoptions` and `audits` are the calls
made so far, newest first. -/
structure PublishWorld where
  orgs : List Org
  packages : RowTable PackageKey (Package I) Nat
  versions : RowTable VersionKey (Version I) Nat
  store : ArtifactStore
  registryWrite : Bool
  phases : Nat → Option (PublishPhase I)
  issued : Uuid → Option PackageKey
  authors : VersionKey → Option (Nat × Publish I)
  adoptions : List (Publish I × MachinePublishInput I)
  audits : List AuditCall

/-- What the environment answers to one step: whether the statement works, how
the put goes, what a new id and the clock are, what the canonical plane says, and
whether a commit that reports an error took effect all the same. -/
structure StepAnswer where
  dbOk : Bool
  put : PutAnswer
  id : Uuid
  clock : DateTimeUtc
  adopted : Except OrmError Unit
  landed : Bool

inductive PublishEvent where
  | arrive (attempt : Nat) (answers : PublishAnswers) (request : PublishRequest)
  | advance (attempt : Nat) (answer : StepAnswer)
  | crash (attempt : Nat)
  | claimOrg (org : Org)
  | yank (key : VersionKey) (yanked : Bool)
  | updateIndex (key : PackageKey) (document : SignedIndex I.Mirror) (encoded : I.Value)

variable {I}

/-- An empty registry over an empty store. -/
def PublishWorld.initial (I : Interfaces) (backend : Backend) (registryWrite : Bool) :
    PublishWorld I where
  orgs := []
  packages := RowTable.empty
  versions := RowTable.empty
  store := ⟨backend, []⟩
  registryWrite := registryWrite
  phases _ := none
  issued _ := none
  authors _ := none
  adoptions := []
  audits := []

/-! ## Steps -/

namespace PublishWorld

def orgId (world : PublishWorld I) (slug : String) : Option Uuid :=
  (world.orgs.find? fun org => org.slug = slug).map Org.id

def goto (world : PublishWorld I) (attempt : Nat) (phase : PublishPhase I) : PublishWorld I :=
  { world with phases := Function.update world.phases attempt (some phase) }

def finish (world : PublishWorld I) (attempt : Nat) (result : ApiResult PublishResponse) :
    PublishWorld I :=
  world.goto attempt (.finished result)

/-- The transaction of an attempt is undone in both tables. -/
def rollback (world : PublishWorld I) (attempt : Nat) : PublishWorld I :=
  { world with
    packages := world.packages.rollback attempt
    versions := world.versions.rollback attempt }

def abort (world : PublishWorld I) (attempt : Nat) (error : ApiErr) : PublishWorld I :=
  (world.rollback attempt).finish attempt (.error error)

/-- The transaction takes effect, and the publish becomes the version's author. -/
def land (world : PublishWorld I) (attempt : Nat) (publish : Publish I) (package : Package I) :
    PublishWorld I :=
  { world with
    packages := world.packages.commit attempt
    versions := world.versions.commit attempt
    authors := Function.update world.authors (package.id, publish.ver) (some (attempt, publish)) }

def logAdoption (world : PublishWorld I) (publish : Publish I) (input : MachinePublishInput I) :
    PublishWorld I :=
  { world with adoptions := (publish, input) :: world.adoptions }

def logAudit (world : PublishWorld I) (call : AuditCall) : PublishWorld I :=
  { world with audits := call :: world.audits }

end PublishWorld

def versionLabel (publish : Publish I) : String :=
  publish.org.slug ++ "/" ++ publish.name ++ "@" ++ publish.ver

def versionExists (publish : Publish I) (reason : String) : ApiErr :=
  .conflict "version_exists" (versionLabel publish ++ reason)

/-- `adopt_canonical_publish`: the input is built before the call, and only a
successful call goes on to `next`. -/
def adoptStep (world : PublishWorld I) (attempt : Nat) (publish : Publish I)
    (answer : StepAnswer) (next : PublishPhase I) : PublishWorld I :=
  if world.registryWrite = false then
    world.finish attempt (.error (.serviceUnavailable "registry_data_plane_unavailable"
      "canonical registry write context is not configured"))
  else
    match machinePublishInput publish with
    | .error error => world.finish attempt (.error error)
    | .ok input =>
      match answer.adopted with
      | .ok () => (world.logAdoption publish input).goto attempt next
      | .error error =>
        (world.logAdoption publish input).finish attempt (.error (mapOrmError error))

def putStep (world : PublishWorld I) (publish : Publish I) (answer : StepAnswer) (key : String) :
    ApiResult Unit × ArtifactStore :=
  putVerified I.sha256 world.store answer.put key publish.artifact
    (I.contentType publish.published.format) publish.actualSha

/-- The keys `put_public_aliases` goes through; process memory has none. -/
def publicAliases (store : ArtifactStore) (publish : Publish I) : List String :=
  match store.backend with
  | .memory _ => []
  | .localDir | .s3 => publish.aliasKeys

def advance (world : PublishWorld I) (attempt : Nat) (publish : Publish I) (answer : StepAnswer) :
    PublishPoint I → Option (PublishWorld I)
  | .findPackage =>
    if answer.dbOk = false then some (world.finish attempt (.error .database))
    else
      match world.packages.committed publish.packageKey with
      | some package => some (world.goto attempt (.running publish (.findVersion package)))
      | none => some (world.goto attempt (.running publish .putBlob))
  | .findVersion package =>
    if answer.dbOk = false then some (world.finish attempt (.error .database))
    else
      match world.versions.committed (package.id, publish.ver) with
      | none => some (world.goto attempt (.running publish .putBlob))
      | some existing =>
        if legacyVersionMatches existing publish then
          some (world.goto attempt (.running publish .adoptRetry))
        else some (world.finish attempt (.error (versionExists publish
          " is already published with different immutable facts")))
  | .adoptRetry => some (adoptStep world attempt publish answer (.finished (.error
      (versionExists publish " is already published; canonical projection reconciled"))))
  | .putBlob =>
    let (result, store) := putStep world publish answer publish.key
    match result with
    | .error error => some ({ world with store }.finish attempt (.error error))
    | .ok () => some ({ world with store }.goto attempt
        (.running publish (.putAliases (publicAliases store publish))))
  | .putAliases [] => some (world.goto attempt (.running publish .beginTxn))
  | .putAliases (key :: rest) =>
    let (result, store) := putStep world publish answer key
    match result with
    | .error _ => some ({ world with store }.goto attempt (.running publish .beginTxn))
    | .ok () => some ({ world with store }.goto attempt (.running publish (.putAliases rest)))
  | .beginTxn =>
    if answer.dbOk = false then some (world.finish attempt (.error .database))
    else some (world.goto attempt (.running publish .upsert))
  | .upsert =>
    if answer.dbOk = false then some (world.abort attempt .database)
    else if world.packages.blocked attempt publish.packageKey = true ∨
        (world.issued answer.id).isSome = true then none
    else
      let row := upsertedPackage I (world.packages.view attempt publish.packageKey) answer.id
        publish.org.id publish.name publish.published.manifest.package answer.clock
      some ({ world with
        packages := world.packages.write attempt publish.packageKey row
        issued := Function.update world.issued answer.id (some publish.packageKey) }.goto attempt
          (.running publish .readBack))
  | .readBack =>
    if answer.dbOk = false then some (world.abort attempt .database)
    else
      match world.packages.view attempt publish.packageKey with
      | none => some (world.abort attempt ⟨500, "package_upsert_missing",
          "package row missing immediately after upsert"⟩)
      | some row => some (world.goto attempt (.running publish (.bump row)))
  | .bump package =>
    if answer.dbOk = false then some (world.abort attempt .database)
    else
      match world.packages.view attempt publish.packageKey with
      | none => some (world.abort attempt .database)
      | some row =>
        some ({ world with
          packages := world.packages.write attempt publish.packageKey
            (countedPackage I package row) }.goto attempt
              (.running publish (.insertVersion package)))
  | .insertVersion package =>
    if answer.dbOk = false then some (world.abort attempt .database)
    else if world.versions.blocked attempt (package.id, publish.ver) = true then none
    else
      match world.versions.view attempt (package.id, publish.ver) with
      | some _ =>
        some ((world.rollback attempt).goto attempt (.running publish (.findWinner package)))
      | none =>
        some ({ world with
          versions := world.versions.write attempt (package.id, publish.ver)
            (versionRow publish answer.id package.id) }.goto attempt
              (.running publish (.commit package)))
  | .commit package =>
    if answer.dbOk = true then
      some ((world.land attempt publish package).goto attempt (.running publish .adoptPublished))
    else if answer.landed = true then
      some ((world.land attempt publish package).finish attempt (.error .database))
    else some (world.abort attempt .database)
  | .findWinner package =>
    if answer.dbOk = false then some (world.finish attempt (.error .database))
    else
      match world.versions.committed (package.id, publish.ver) with
      | some existing =>
        if legacyVersionMatches existing publish then
          some (world.goto attempt (.running publish .adoptWinner))
        else some (world.finish attempt (.error (versionExists publish
          " is already published; versions are immutable")))
      | none => some (world.finish attempt (.error (versionExists publish
          " is already published; versions are immutable")))
  | .adoptWinner => some (adoptStep world attempt publish answer (.finished (.error
      (versionExists publish " is already published; versions are immutable"))))
  | .adoptPublished =>
    some (adoptStep world attempt publish answer (.running publish .audit))
  | .audit =>
    some ((world.logAudit ⟨publish.org.id, publish.token, versionLabel publish,
      some ("sha256=" ++ publish.actualSha)⟩).finish attempt (.ok ⟨publish.org.slug, publish.name,
        publish.ver, publish.actualSha⟩))

def publishStep (world : PublishWorld I) : PublishEvent I → Option (PublishWorld I)
  | .arrive attempt answers request =>
    if (world.phases attempt).isSome then none
    else
      match admitPublish I world.orgId answers request with
      | .error error => some (world.finish attempt (.error error))
      | .ok publish => some (world.goto attempt (.running publish .findPackage))
  | .advance attempt answer =>
    match world.phases attempt with
    | some (.running publish point) => advance world attempt publish answer point
    | _ => none
  | .crash attempt =>
    match world.phases attempt with
    | some (.running _ _) => some ((world.rollback attempt).goto attempt .crashed)
    | _ => none
  | .claimOrg org =>
    if ∀ other ∈ world.orgs, other.slug ≠ org.slug ∧ other.id ≠ org.id then
      some { world with orgs := org :: world.orgs }
    else none
  | .yank key yanked =>
    match world.versions.pending key, world.versions.committed key with
    | none, some row =>
      some { world with versions := world.versions.autocommit key (yankedVersion row yanked) }
    | _, _ => none
  | .updateIndex key document encoded =>
    match world.packages.pending key, world.packages.committed key with
    | none, some row =>
      some { world with
        packages := world.packages.autocommit key (indexedPackage I row document encoded) }
    | _, _ => none

/-! ## A sample publish -/

namespace PublishSample

def alphaSha : String := "aaaaaaaaaaaaaaaaaaaaaaaaaaaaaaaaaaaaaaaaaaaaaaaaaaaaaaaaaaaaaaaa"

def bravoSha : String := "bbbbbbbbbbbbbbbbbbbbbbbbbbbbbbbbbbbbbbbbbbbbbbbbbbbbbbbbbbbbbbbb"

/-- Metadata of `acme/http-kit@1.2.0` for a five-byte artifact. -/
def metadata (sha256 : String) (description publishedAt : Option String)
    (signatures : List DetachedSignature) : PublishMeta (List String) String where
  manifest := ⟨{ samplePackage with description }, []⟩
  sha256 := sha256
  size := 5
  format := .tarGz
  vcsTag := "v1.2.0"
  vcsCommit := none
  publishedAt := publishedAt
  mirrors := []
  signatures := signatures

/-- The digests of two artifacts, and four metadata texts. -/
abbrev interfaces : Interfaces :=
  Interfaces.sample [(asBytes "alpha", alphaSha), (asBytes "bravo", bravoSha)]
    [("alpha", metadata alphaSha (some "HTTP toolkit") none []),
      ("bravo", metadata bravoSha (some "HTTP toolkit") none []),
      ("renamed", metadata alphaSha (some "Another toolkit") none []),
      ("zulu", metadata alphaSha none (some "2026-07-26T12:30:15Z") [Interfaces.sampleSignature]),
      ("offset", metadata alphaSha none (some "2026-07-26T12:30:15+00:00")
        [Interfaces.sampleSignature])]

theorem alpha_small : (asBytes "alpha").length < 2 ^ 63 := by decide +kernel

theorem bravo_small : (asBytes "bravo").length < 2 ^ 63 := by decide +kernel

def metaField (text : String) : MultipartField where
  name := some publishMetaField
  text := .ok text
  bytes := .error "not read as bytes"
  fits _ read := by contradiction

def artifactField (content : String) (small : (asBytes content).length < 2 ^ 63) :
    MultipartField where
  name := some publishArtifactField
  text := .error "not read as text"
  bytes := .ok (asBytes content)
  fits read same := by
    obtain rfl := Except.ok.inj same
    exact small

def request (parts : List MultipartField) : PublishRequest where
  orgSlug := "acme"
  name := "http-kit"
  ver := "1.2.0"
  authorization := some "Bearer zpkg_ci"
  userAgent := none
  fields := parts.map .ok

def answers : PublishAnswers where
  tokens _ := .ok (some sampleToken)
  tokenClock := sampleTime
  org := .ok ()
  tag := .ok .skipped
  clock := sampleTime
  keys := .ok [Interfaces.sampleKey]

def arrive (attempt : Nat) (text content : String)
    (small : (asBytes content).length < 2 ^ 63) : PublishEvent interfaces :=
  .arrive attempt answers (request [metaField text, artifactField content small])

/-- Everything works. -/
def works (id : String) : StepAnswer where
  dbOk := true
  put := ⟨true, true, true⟩
  id := ⟨id⟩
  clock := sampleTime
  adopted := .ok ()
  landed := true

/-- The database fails and nothing takes effect. -/
def dbFails : StepAnswer := { works "unused" with dbOk := false, landed := false }

def advances (attempt count : Nat) (id : String) : List (PublishEvent interfaces) :=
  List.replicate count (.advance attempt (works id))

/-- A registry on a local disk with the canonical plane configured. -/
def start : PublishWorld interfaces := .initial interfaces .localDir true

/-- `acme` is claimed and attempt 0 publishes `alpha` to the end. -/
def firstRelease : List (PublishEvent interfaces) :=
  .claimOrg acme :: arrive 0 "alpha" "alpha" alpha_small :: advances 0 13 "p0"

end PublishSample

end ZedRegistry
