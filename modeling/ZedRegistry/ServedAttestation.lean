import ZedRegistry.PublishAtomic

/-!
# Attestations rebuilt from what is served

`get_version`, and which signed publishes leave a version whose metadata gives
back the attestation that was signed.
-/

set_option autoImplicit false

namespace ZedRegistry

open Execution

variable {I : Interfaces}

/-! ## What is served -/

/-- `get_version` over a database that answers; its three reads may see three
states of the tables. -/
def getVersion (artifactUrl : String → String) (orgs : String → Option Uuid)
    (packages : PackageKey → Option (Package I)) (versions : VersionKey → Option (Version I))
    (orgSlug name ver : String) : ApiResult (VersionMetadata I) := do
  let orgId ← okOrElse (orgs orgSlug) (.notFound "org")
  let package ← okOrElse (packages (orgId, name)) (.notFound "package")
  let row ← okOrElse (versions (package.id, ver)) (.notFound "version")
  pure (versionMetadata I artifactUrl orgSlug name row)

/-- The attestation of served metadata; no commit reads as the empty text. -/
def VersionMetadata.attestation (served : VersionMetadata I) : VersionAttestation I.Mirror where
  org := served.org
  name := served.name
  version := served.version
  sha256 := served.sha256
  size := served.size
  format := served.format
  vcsTag := served.vcsTag
  vcsCommit := served.vcsCommit.getD ""
  publishedAt := served.publishedAt
  mirrors := served.mirrors

/-- A declared time is spelled as the registry prints times, and it or the clock
has no digit below the microsecond. -/
def Submission.DatedAsServed (submission : Submission I) : Prop :=
  match submission.published.publishedAt with
  | some raw => ∃ time : DateTimeUtc, time.WholeMicros ∧ raw = I.timestamps.toRfc3339 time
  | none => submission.publishedAt.WholeMicros

/-! ## The time of a version -/

/-- The stored time prints as the signed text exactly when that text was spelled
as served. -/
theorem stored_publishedAt_iff (lawful : I.timestamps.Lawful) (submission : Submission I) :
    I.timestamps.toRfc3339 (I.timestamps.stored submission.publishedAt) =
        submission.attestation.publishedAt ↔ submission.DatedAsServed := by
  unfold Submission.attestation Submission.DatedAsServed
  cases declared : submission.published.publishedAt with
  | none =>
      simp only [Option.getD_none]
      constructor
      · intro same
        have kept := lawful.toRfc3339_injective same
        rw [← kept]
        exact lawful.stored_wholeMicros _
      · intro whole
        rw [lawful.stored_of_wholeMicros _ whole]
  | some raw =>
      have parsed := submission.dated raw declared
      simp only [Option.getD_some]
      constructor
      · intro same
        exact ⟨_, lawful.stored_wholeMicros _, same.symm⟩
      · rintro ⟨time, whole, rfl⟩
        have same := lawful.parse_toRfc3339 _ _ parsed
        rw [same, lawful.stored_of_wholeMicros _ whole]

/-! ## The row of a version -/

theorem served_size (publish : Publish I) :
    (publish.artifactLen % 2 ^ 64).toNat = (max publish.artifactLen 0).toNat := by
  have fits := publish.fits
  rw [artifactLen_eq]
  omega

/-- Every field but the time comes back from the row of a publish. -/
theorem versionRow_attestation_iff (lawful : I.timestamps.Lawful)
    (roundTrip : ∀ mirrors value, I.mirrorsToValue mirrors = .ok value →
      I.mirrorsFromValue value = some mirrors)
    (artifactUrl : String → String) (publish : Publish I) (id packageId : Uuid) (yanked : Bool) :
    (versionMetadata I artifactUrl publish.org.slug publish.name
        (yankedVersion (versionRow publish id packageId) yanked)).attestation =
      publish.attestation ↔ publish.DatedAsServed := by
  have mirrors : (I.mirrorsFromValue publish.storedMirrors).getD [] =
      publish.published.mirrors := by
    rw [roundTrip _ _ publish.mirrorsEncoded]
    rfl
  have format := artifactFormat_extension publish.published.format
  rw [← stored_publishedAt_iff lawful publish.toSubmission]
  constructor
  · intro same
    exact congrArg VersionAttestation.publishedAt same
  · intro same
    simp only [VersionMetadata.attestation, versionMetadata, yankedVersion, versionRow, mirrors,
      format, served_size, same]
    rfl

/-! ## Reads -/

theorem TablesHold.orgId_of_mem {world : PublishWorld I} (tables : TablesHold world) {org : Org}
    (member : org ∈ world.orgs) : world.orgId org.slug = some org.id := by
  have present : (world.orgs.find? fun other => other.slug = org.slug).isSome = true :=
    List.find?_isSome.mpr ⟨org, member, decide_eq_true rfl⟩
  obtain ⟨other, found⟩ := Option.isSome_iff_exists.mp present
  have named : other.slug = org.slug := by simpa using List.find?_some found
  have same := tables.orgs other (List.mem_of_find?_eq_some found) org member (Or.inl named)
  unfold PublishWorld.orgId
  rw [found, same]
  rfl

/-- A version that a publish committed is found by its names, as a row of it. -/
theorem getVersion_of_author {world first second third : PublishWorld I}
    (invariant : PublishInvariant world) {key : VersionKey} {attempt : Nat} {publish : Publish I}
    (author : world.authors key = some (attempt, publish)) (toFirst : Keeps world first)
    (orgs : TablesHold first) (toSecond : Keeps world second) (toThird : Keeps world third)
    (artifactUrl : String → String) :
    ∃ id packageId yanked, getVersion artifactUrl first.orgId second.packages.committed
        third.versions.committed publish.org.slug publish.name publish.ver =
      .ok (versionMetadata I artifactUrl publish.org.slug publish.name
        (yankedVersion (versionRow publish id packageId) yanked)) := by
  obtain ⟨row, found, recorded⟩ := invariant.tables.recorded_of_author author
  obtain ⟨id, before, rfl⟩ := recorded.row
  obtain ⟨package, packageFound, same⟩ := recorded.package
  obtain ⟨later, packageFound, same'⟩ := toSecond.packages _ _ packageFound
  obtain ⟨yanked, found⟩ := toThird.versions _ _ found
  have place : key = (later.id, publish.ver) := by
    apply Prod.ext
    · exact (same'.trans same).symm
    · exact recorded.version
  have known := orgs.orgId_of_mem (toFirst.orgs _ recorded.known)
  rw [place] at found
  refine ⟨id, key.1, yanked, ?_⟩
  simp only [getVersion, bind_ok, okOrElse_ok]
  exact ⟨_, known, _, packageFound, _, found, rfl⟩

/-! ## Every run -/

/-- Once a signed publish has committed, every read of its version serves it, and
the attestation rebuilt from what is served is the signed one exactly when the
publish was dated as served. -/
theorem served_attestation_iff (lawful : I.timestamps.Lawful)
    (roundTrip : ∀ mirrors value, I.mirrorsToValue mirrors = .ok value →
      I.mirrorsFromValue value = some mirrors)
    {backend : Backend} {registryWrite : Bool} {before : List (PublishEvent I)}
    {world : PublishWorld I}
    (run : exec publishStep (PublishWorld.initial I backend registryWrite) before = some world)
    {key : VersionKey} {attempt : Nat} {publish : Publish I}
    (committed : world.authors key = some (attempt, publish))
    (signed : publish.published.signatures ≠ [])
    {toFirst toSecond toThird : List (PublishEvent I)} {first second third : PublishWorld I}
    (firstRead : exec publishStep world toFirst = some first)
    (secondRead : exec publishStep first toSecond = some second)
    (thirdRead : exec publishStep second toThird = some third)
    (artifactUrl : String → String) :
    publish.Attested publish.attestation ∧
      ∃ served, getVersion artifactUrl first.orgId second.packages.committed
          third.versions.committed publish.org.slug publish.name publish.ver = .ok served ∧
        (served.attestation = publish.attestation ↔ publish.DatedAsServed) := by
  have invariant := exec_invariant_publish (initial_invariant backend registryWrite) run
  have here := exec_invariant_publish invariant firstRead
  have next := exec_invariant_publish here secondRead
  have toFirst := exec_keeps_publish invariant firstRead
  have toSecond := toFirst.trans (exec_keeps_publish here secondRead)
  have toThird := toSecond.trans (exec_keeps_publish next thirdRead)
  obtain ⟨id, packageId, yanked, served⟩ := getVersion_of_author invariant committed toFirst
    here.tables toSecond toThird artifactUrl
  refine ⟨publish.signed.resolve_left signed, _, served, ?_⟩
  exact versionRow_attestation_iff lawful roundTrip artifactUrl publish id packageId yanked

/-! ## Two spellings of one instant -/

theorem sample_mirrors_roundTrip (mirrors : List String) (value : Interfaces.SampleValue)
    (encoded : PublishSample.interfaces.mirrorsToValue mirrors = .ok value) :
    PublishSample.interfaces.mirrorsFromValue value = some mirrors := by
  obtain rfl := Except.ok.inj encoded
  rfl

/-- `acme` is claimed and attempt 0 publishes to the end, with signed metadata. -/
def signedRelease (text : String) : List (PublishEvent PublishSample.interfaces) :=
  .claimOrg acme :: PublishSample.arrive 0 text "alpha" PublishSample.alpha_small ::
    PublishSample.advances 0 13 "p0"

theorem served_attestation_sample :
    ∃ world publish served,
      exec publishStep PublishSample.start (signedRelease "offset") = some world ∧
        world.authors (⟨"p0"⟩, "1.2.0") = some (0, publish) ∧
        publish.published.signatures ≠ [] ∧
        getVersion id world.orgId world.packages.committed world.versions.committed
          publish.org.slug publish.name publish.ver = .ok served ∧
        (served.attestation = publish.attestation ↔ publish.DatedAsServed) := by
  have seen : ((exec publishStep PublishSample.start (signedRelease "offset")).bind fun world =>
      (world.authors (⟨"p0"⟩, "1.2.0")).map fun author =>
        (author.1, author.2.published.signatures)) = some (0, [Interfaces.sampleSignature]) := by
    decide +kernel
  obtain ⟨world, run, seen⟩ := Option.bind_eq_some_iff.mp seen
  obtain ⟨⟨attempt, publish⟩, committed, seen⟩ := Option.map_eq_some_iff.mp seen
  obtain ⟨rfl, signatures⟩ := Prod.mk.inj seen
  have signed : publish.published.signatures ≠ [] := by
    rw [signatures]
    exact List.cons_ne_nil _ _
  obtain ⟨-, served, found, rebuilt⟩ := served_attestation_iff civil_lawful
    sample_mirrors_roundTrip run committed signed (exec_nil publishStep world)
    (exec_nil publishStep world) (exec_nil publishStep world) id
  exact ⟨world, publish, served, run, committed, signed, found, rebuilt⟩

/-- A publish signed at `2026-07-26T12:30:15Z` is accepted, and its version is
served with the same instant in another spelling. -/
theorem served_attestation_respelled :
    ∃ world publish served,
      exec publishStep PublishSample.start (signedRelease "zulu") = some world ∧
        world.authors (⟨"p0"⟩, "1.2.0") = some (0, publish) ∧
        publish.published.signatures ≠ [] ∧ publish.Attested publish.attestation ∧
        getVersion id world.orgId world.packages.committed world.versions.committed
          publish.org.slug publish.name publish.ver = .ok served ∧
        publish.attestation.publishedAt = "2026-07-26T12:30:15Z" ∧
        served.attestation.publishedAt = "2026-07-26T12:30:15+00:00" ∧
        served.attestation ≠ publish.attestation := by
  have seen : ((exec publishStep PublishSample.start (signedRelease "zulu")).bind fun world =>
      (world.authors (⟨"p0"⟩, "1.2.0")).bind fun author =>
        (getVersion id world.orgId world.packages.committed world.versions.committed
          author.2.org.slug author.2.name author.2.ver).toOption.map fun served =>
            (author.1, author.2.published.signatures, author.2.attestation.publishedAt,
              served.attestation.publishedAt)) =
        some (0, [Interfaces.sampleSignature], "2026-07-26T12:30:15Z",
          "2026-07-26T12:30:15+00:00") := by
    decide +kernel
  obtain ⟨world, run, seen⟩ := Option.bind_eq_some_iff.mp seen
  obtain ⟨⟨attempt, publish⟩, committed, seen⟩ := Option.bind_eq_some_iff.mp seen
  obtain ⟨served, found, seen⟩ := Option.map_eq_some_iff.mp seen
  simp only [Prod.mk.injEq] at seen
  obtain ⟨rfl, signatures, declared, printed⟩ := seen
  have signed : publish.published.signatures ≠ [] := by
    rw [signatures]
    exact List.cons_ne_nil _ _
  refine ⟨world, publish, served, run, committed, signed, publish.signed.resolve_left signed,
    toOption_ok found, declared, printed, ?_⟩
  intro same
  rw [same, declared] at printed
  exact absurd printed (by decide)

end ZedRegistry
