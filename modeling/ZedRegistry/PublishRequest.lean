import Mathlib.Algebra.Order.Ring.Int
import Mathlib.Data.List.SplitBy
import ZedRegistry.ArtifactStore
import ZedRegistry.Catalog

/-!
# Admission of a publish

`publish.rs` up to the immutability check: the token, the org, the multipart body
and every check of the metadata against the bytes, the tag and the enrolled keys.
None of it writes anything.
-/

set_option autoImplicit false

namespace ZedRegistry

/-! ## The multipart body -/

def publishMetaField : String := "meta"

def publishArtifactField : String := "artifact"

/-- One part of the body: its name, and its content read as text or as bytes.
A buffer is at most `isize::MAX` bytes long. -/
structure MultipartField where
  name : Option String
  text : Except String String
  bytes : Except String Bytes
  fits : ∀ content, bytes = .ok content → content.length < 2 ^ 63

variable (I : Interfaces)

/-- The loop of `read_multipart`; a part that cannot be reached is an error. -/
def readFields (parsed : Option (PublishMeta I.Extra I.Mirror))
    (artifact : Option {bytes : Bytes // bytes.length < 2 ^ 63}) :
    List (Except String MultipartField) → ApiResult (Option (PublishMeta I.Extra I.Mirror) ×
      Option {bytes : Bytes // bytes.length < 2 ^ 63})
  | [] => .ok (parsed, artifact)
  | .error error :: _ => .error (.badRequest "invalid_multipart" error)
  | .ok field :: rest =>
    match field.name with
    | none =>
      .error (.badRequest "invalid_multipart" "multipart fields must have a name")
    | some name =>
      if name = publishMetaField then
        if parsed.isSome then .error (.badRequest "invalid_multipart"
          ("duplicate multipart field `" ++ publishMetaField ++ "`"))
        else
          match field.text with
          | .error error => .error (.badRequest "invalid_meta" error)
          | .ok text =>
            match I.parseMeta text with
            | .error error => .error (.badRequest "invalid_meta" error)
            | .ok published => readFields (some published) artifact rest
      else if name = publishArtifactField then
        if artifact.isSome then .error (.badRequest "invalid_multipart"
          ("duplicate multipart field `" ++ publishArtifactField ++ "`"))
        else
          match content : field.bytes with
          | .error error => .error (.badRequest "invalid_artifact" error)
          | .ok bytes => readFields parsed (some ⟨bytes, field.fits bytes content⟩) rest
      else .error (.badRequest "invalid_multipart"
        ("unexpected multipart field `" ++ name ++ "`"))

def readMultipart (fields : List (Except String MultipartField)) :
    ApiResult (PublishMeta I.Extra I.Mirror × {bytes : Bytes // bytes.length < 2 ^ 63}) := do
  let (parsed, artifact) ← readFields I none none fields
  let parsed ← okOrElse parsed (.badRequest "invalid_meta" "missing meta field")
  let artifact ← okOrElse artifact (.badRequest "invalid_artifact" "missing artifact field")
  pure (parsed, artifact)

/-! ## Checks -/

/-- `binary_artifact::verify_publish`: whether a binary descriptor was verified. -/
def verifyPublish (published : PublishMeta I.Extra I.Mirror) (archive : Bytes) :
    Except String Bool :=
  if published.format ≠ .zip then .ok false
  else if archive.length ≠ published.size then
    .error ("publish metadata declares " ++ toString published.size ++
      " bytes, but the upload contains " ++ toString archive.length)
  else do
    let present ← I.descriptorPresence archive
    if present then (I.verifyBinaryZip published archive).map fun _ => true
    else pure false

inductive TagCheck where
  | skipped
  | verified (commit : Option String)
  | missing
  deriving DecidableEq

/-- A commit in use is 40 or 64 hexadecimal digits, compared in lower case. -/
def canonicalCommit (value : String) : Option (List Char) :=
  let digits := value.toList
  if (digits.length = 40 ∨ digits.length = 64) ∧ digits.all (fun char =>
      char.isDigit || ('a' ≤ char && char ≤ 'f') || ('A' ≤ char && char ≤ 'F')) = true then
    some (digits.map Char.toLower)
  else none

def validateVerifiedVcsCommit (declared verified : Option String) : ApiResult Unit :=
  match declared with
  | none => .ok ()
  | some declared =>
    match verified with
    | none => .error (.badRequest "vcs_commit_mismatch"
        ("publish metadata declares a VCS commit, but the verified tag did not resolve " ++
          "directly to a commit"))
    | some verified =>
      ensure (canonicalCommit declared ≠ none ∧
          canonicalCommit declared = canonicalCommit verified)
        (.badRequest "vcs_commit_mismatch" ("publish metadata declares VCS commit `" ++ declared ++
          "`, but tag verification resolved `" ++ verified ++ "`"))

/-- Two spellings pass for the same commit only when they are one in lower case. -/
theorem validateVerifiedVcsCommit_ok {declared verified : String}
    (accepted : validateVerifiedVcsCommit (some declared) (some verified) = .ok ()) :
    ∃ digits, canonicalCommit declared = some digits ∧ canonicalCommit verified = some digits := by
  obtain ⟨canonical, same⟩ := ensure_ok.mp accepted
  obtain ⟨digits, found⟩ := Option.ne_none_iff_exists'.mp canonical
  exact ⟨digits, found, same ▸ found⟩

def checkTag (published : PublishMeta I.Extra I.Mirror) : TagCheck → ApiResult Unit
  | .missing => .error (.badRequest "tag_not_found" ("tag `" ++ published.vcsTag ++
      "` not found on " ++ published.manifest.package.repository.url ++
      "; authors must tag the backing repo before publishing"))
  | .verified commit => validateVerifiedVcsCommit published.vcsCommit commit
  | .skipped => .ok ()

/-! ## Admission -/

structure PublishRequest where
  orgSlug : String
  name : String
  ver : String
  authorization : Option String
  userAgent : Option String
  fields : List (Except String MultipartField)

/-- The answers of the reads that admission makes outside the tables of the
publish, and its two clocks. -/
structure PublishAnswers where
  tokens : String → ApiResult (Option Token)
  tokenClock : DateTimeUtc
  org : ApiResult Unit
  tag : ApiResult TagCheck
  clock : DateTimeUtc
  keys : ApiResult (List PublisherKey)

/-- A publish with its body read and its metadata checked against the route. -/
structure Submission where
  token : Token
  org : Org
  userAgent : Option String
  published : PublishMeta I.Extra I.Mirror
  artifact : Bytes
  publishedAt : DateTimeUtc
  owned : published.manifest.package.org = org.slug
  fits : artifact.length < 2 ^ 63
  dated : ∀ raw, published.publishedAt = some raw →
    I.timestamps.parseFromRfc3339 raw = some publishedAt

namespace Submission

variable {I}

def name (submission : Submission I) : String := submission.published.manifest.package.name

def ver (submission : Submission I) : String := submission.published.manifest.package.version

def actualSha (submission : Submission I) : String := I.sha256 submission.artifact

/-- `artifact.len() as i64`. -/
def artifactLen (submission : Submission I) : Int := wrapI64 submission.artifact.length

def key (submission : Submission I) : String :=
  artifactKey submission.actualSha submission.published.format.extension

def aliasKeys (submission : Submission I) : List String :=
  guessableAliasKeys submission.org.slug submission.name submission.ver
    submission.published.vcsTag submission.published.format.extension
    submission.published.manifest.package.repository.url

def packageKey (submission : Submission I) : PackageKey := (submission.org.id, submission.name)

/-- The attestation `publish` rebuilds to check the signatures. -/
def attestation (submission : Submission I) : VersionAttestation I.Mirror where
  org := submission.org.slug
  name := submission.name
  version := submission.ver
  sha256 := submission.actualSha
  size := (max submission.artifactLen 0).toNat
  format := submission.published.format
  vcsTag := submission.published.vcsTag
  vcsCommit := submission.published.vcsCommit.getD ""
  publishedAt := submission.published.publishedAt.getD
    (I.timestamps.toRfc3339 submission.publishedAt)
  mirrors := submission.published.mirrors

/-- Some enrolled key verified a signature over this attestation. -/
def Attested (submission : Submission I) (attestation : VersionAttestation I.Mirror) : Prop :=
  ∃ preimage enrolled key, I.versionAttestationPreimage attestation = .ok preimage ∧
    I.verifyAny preimage submission.published.signatures enrolled = .ok key

end Submission

/-- A publish that passed every check, with the values it goes on to store. -/
structure Publish extends Submission I where
  storedMirrors : I.Value
  storedSignatures : I.Value
  signed : published.signatures = [] ∨ toSubmission.Attested toSubmission.attestation
  mirrorsEncoded : I.mirrorsToValue published.mirrors = .ok storedMirrors
  signaturesEncoded : I.signaturesToValue published.signatures = .ok storedSignatures

def resolvePublishedAt (clock : DateTimeUtc) : Option String → ApiResult DateTimeUtc
  | some raw => okOrElse (I.timestamps.parseFromRfc3339 raw)
      (.badRequest "invalid_published_at" "published_at must be an RFC 3339 timestamp")
  | none => .ok clock

theorem resolvePublishedAt_dated {clock time : DateTimeUtc} {declared : Option String}
    (resolved : resolvePublishedAt I clock declared = .ok time) (raw : String)
    (given : declared = some raw) : I.timestamps.parseFromRfc3339 raw = some time := by
  subst given
  exact okOrElse_ok.mp resolved

def checkSignatures (keys : ApiResult (List PublisherKey)) (submission : Submission I) :
    ApiResult Unit :=
  if submission.published.signatures = [] then .ok ()
  else do
    let preimage ← (I.versionAttestationPreimage submission.attestation).mapError fun error =>
      .badRequest "invalid_signature" ("cannot reconstruct the signed payload: " ++ error)
    let enrolled ← keys
    let _ ← (I.verifyAny preimage submission.published.signatures enrolled).mapError fun error =>
      .badRequest "signature_invalid" ("no enrolled key verifies this publication: " ++ error)
    pure ()

theorem checkSignatures_signed {keys : ApiResult (List PublisherKey)} {submission : Submission I}
    (accepted : checkSignatures I keys submission = .ok ()) :
    submission.published.signatures = [] ∨ submission.Attested submission.attestation := by
  unfold checkSignatures at accepted
  split at accepted
  · rename_i unsigned
    exact Or.inl unsigned
  · simp only [bind_ok, mapError_ok] at accepted
    obtain ⟨preimage, rebuilt, enrolled, _, key, verified, _⟩ := accepted
    exact Or.inr ⟨preimage, enrolled, key, rebuilt, verified⟩

/-- The signature check and the two encodings. -/
def encodePublish (keys : ApiResult (List PublisherKey)) (submission : Submission I) :
    ApiResult (Publish I) :=
  match signed : checkSignatures I keys submission with
  | .error error => .error error
  | .ok () =>
    match mirrors : I.mirrorsToValue submission.published.mirrors with
    | .error error =>
      .error (.badRequest "invalid_mirrors" ("mirror set is not encodable: " ++ error))
    | .ok storedMirrors =>
      match signatures : I.signaturesToValue submission.published.signatures with
      | .error error =>
        .error (.badRequest "invalid_signature" ("signature set is not encodable: " ++ error))
      | .ok storedSignatures =>
        .ok ⟨submission, storedMirrors, storedSignatures, checkSignatures_signed I signed, mirrors,
          signatures⟩

/-- The checks of the metadata against the route and the bytes. -/
def checkFacts (request : PublishRequest) (published : PublishMeta I.Extra I.Mirror)
    (artifact : Bytes) : ApiResult Unit := do
  (I.validateManifest published.manifest).mapError fun error =>
    .badRequest "invalid_manifest" error
  let m := published.manifest.package
  ensure (m.org = request.orgSlug ∧ m.name = request.name ∧ m.version = request.ver)
    (.badRequest "manifest_url_mismatch" ("manifest says " ++ m.org ++ "/" ++ m.name ++ "@" ++
      m.version ++ ", url says " ++ request.orgSlug ++ "/" ++ request.name ++ "@" ++ request.ver))
  ensure (I.sha256 artifact = published.sha256) (.badRequest "sha256_mismatch"
    ("client declared " ++ published.sha256 ++ ", server computed " ++ I.sha256 artifact))
  ensure (artifact.length = published.size) (.badRequest "artifact_size_mismatch"
    ("client declared " ++ toString published.size ++ " bytes, server received " ++
      toString artifact.length))
  let _ ← (verifyPublish I published artifact).mapError fun error =>
    .badRequest "invalid_binary_artifact" error
  pure ()

theorem checkFacts_ok {request : PublishRequest} {published : PublishMeta I.Extra I.Mirror}
    {artifact : Bytes} (accepted : checkFacts I request published artifact = .ok ()) :
    (published.manifest.package.org = request.orgSlug ∧
        published.manifest.package.name = request.name ∧
        published.manifest.package.version = request.ver) ∧
      I.sha256 artifact = published.sha256 ∧ artifact.length = published.size := by
  simp only [checkFacts, bind_ok, mapError_ok, ensure_ok] at accepted
  obtain ⟨_, _, _, named, _, digest, _, size, _⟩ := accepted
  exact ⟨named, digest, size⟩

/-- Everything `publish` does before it looks for an existing version; `orgs`
answers the lookup by slug. -/
def admitPublish (orgs : String → Option Uuid) (answers : PublishAnswers)
    (request : PublishRequest) : ApiResult (Publish I) := do
  let token ← requireToken I.sha256 answers.tokens answers.tokenClock request.authorization
  answers.org
  let orgId ← okOrElse (orgs request.orgSlug) ⟨404, "org_not_found", "org `" ++ request.orgSlug ++
    "` does not exist; claim it first with `zed org claim " ++ request.orgSlug ++ "`"⟩
  authorizePublish token.orgId (Role.parse token.role) orgId
  let (published, ⟨artifact, fits⟩) ← readMultipart I request.fields
  match facts : checkFacts I request published artifact with
  | .error error => .error error
  | .ok () => do
    checkTag I published (← answers.tag)
    match dated : resolvePublishedAt I answers.clock published.publishedAt with
    | .error error => .error error
    | .ok publishedAt =>
      encodePublish I answers.keys
        ⟨token, ⟨orgId, request.orgSlug⟩, request.userAgent, published, artifact, publishedAt,
          (checkFacts_ok I facts).1.1, fits, resolvePublishedAt_dated I dated⟩

/-- An encoded publish is its submission and two encodings. -/
theorem encodePublish_ok {keys : ApiResult (List PublisherKey)} {submission : Submission I}
    {publish : Publish I} (accepted : encodePublish I keys submission = .ok publish) :
    publish.toSubmission = submission := by
  unfold encodePublish at accepted
  split at accepted
  · contradiction
  · split at accepted
    · contradiction
    · split at accepted
      · contradiction
      · exact congrArg Publish.toSubmission (Except.ok.inj accepted).symm

/-- An admitted publish belongs to an org that exists and carries the names of
its route. -/
theorem admitPublish_ok {orgs : String → Option Uuid} {answers : PublishAnswers}
    {request : PublishRequest} {publish : Publish I}
    (admitted : admitPublish I orgs answers request = .ok publish) :
    orgs publish.org.slug = some publish.org.id ∧ publish.org.slug = request.orgSlug ∧
      publish.name = request.name ∧ publish.ver = request.ver := by
  simp only [admitPublish, bind_ok, okOrElse_ok] at admitted
  obtain ⟨token, _, _, _, orgId, found, _, _, ⟨published, artifact, fits⟩, _, admitted⟩ := admitted
  split at admitted
  · contradiction
  · rename_i facts
    simp only [bind_ok] at admitted
    obtain ⟨_, _, _, _, admitted⟩ := admitted
    split at admitted
    · contradiction
    · have built := encodePublish_ok I admitted
      have named := (checkFacts_ok I facts).1
      unfold Submission.name Submission.ver
      rw [built]
      exact ⟨found, rfl, named.2.1, named.2.2⟩

theorem checkFacts_validated {request : PublishRequest} {published : PublishMeta I.Extra I.Mirror}
    {artifact : Bytes} (accepted : checkFacts I request published artifact = .ok ()) :
    I.validateManifest published.manifest = .ok () := by
  simp only [checkFacts, bind_ok, mapError_ok] at accepted
  obtain ⟨_, valid, _⟩ := accepted
  exact valid

/-- The manifest of an admitted publish passed its check. -/
theorem admitPublish_validated {orgs : String → Option Uuid} {answers : PublishAnswers}
    {request : PublishRequest} {publish : Publish I}
    (admitted : admitPublish I orgs answers request = .ok publish) :
    I.validateManifest publish.published.manifest = .ok () := by
  simp only [admitPublish, bind_ok] at admitted
  obtain ⟨token, _, _, _, orgId, _, _, _, ⟨published, artifact, fits⟩, _, admitted⟩ := admitted
  split at admitted
  · contradiction
  · rename_i facts
    simp only [bind_ok] at admitted
    obtain ⟨_, _, _, _, admitted⟩ := admitted
    split at admitted
    · contradiction
    · rw [encodePublish_ok I admitted]
      exact checkFacts_validated I facts

end ZedRegistry
