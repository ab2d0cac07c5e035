import Mathlib.Algebra.Order.Ring.Int
import Mathlib.Data.List.Sort
import ZedRegistry.Access
import ZedRegistry.Lib.DecimalText

/-!
# Contract types and external functions

The records of the contract crate that handlers build or read, and one bundle of
everything that is called but not part of the repository: serde, SHA-256,
Ed25519, chrono, the validators and the signing preimages.  Enumerations of the
contract that the registry only prints are kept as their text.
-/

set_option autoImplicit false

namespace ZedRegistry

inductive ArtifactFormat where
  | tarGz
  | zip
  deriving DecidableEq

def ArtifactFormat.extension : ArtifactFormat → String
  | .tarGz => "tar.gz"
  | .zip => "zip"

/-- The stored `format` column read back; unknown spellings are tar.gz. -/
def artifactFormat (format : String) : ArtifactFormat :=
  if format = "zip" then .zip else .tarGz

@[simp] theorem artifactFormat_extension (format : ArtifactFormat) :
    artifactFormat format.extension = format := by
  cases format with
  | tarGz => decide
  | zip => decide

theorem extension_injective : Function.Injective ArtifactFormat.extension :=
  Function.LeftInverse.injective artifactFormat_extension

structure Repository where
  vcs : String
  url : String
  deriving DecidableEq

/-- The `[package]` table of a manifest. -/
structure ManifestPackage where
  org : String
  name : String
  version : String
  description : Option String
  versionScheme : String
  keywords : List String
  repository : Repository
  deriving DecidableEq

/-- `extra` is the rest of the manifest, which the registry only validates and
serializes. -/
structure Manifest (Extra : Type) where
  package : ManifestPackage
  extra : Extra
  deriving DecidableEq

structure DetachedSignature where
  algorithm : String
  keyId : String
  signature : String
  deriving DecidableEq

structure PublishMeta (Extra Mirror : Type) where
  manifest : Manifest Extra
  sha256 : String
  size : Nat
  format : ArtifactFormat
  vcsTag : String
  vcsCommit : Option String
  publishedAt : Option String
  mirrors : List Mirror
  signatures : List DetachedSignature

/-- `VersionAttestationV1`: what a publisher signs. -/
structure VersionAttestation (Mirror : Type) where
  org : String
  name : String
  version : String
  sha256 : String
  size : Nat
  format : ArtifactFormat
  vcsTag : String
  vcsCommit : String
  publishedAt : String
  mirrors : List Mirror

inductive PublisherKeyState where
  | active
  | retired
  | revoked
  deriving DecidableEq

/-- `PublisherKeyV1`. -/
structure PublisherKey where
  keyId : String
  algorithm : String
  publicKeyMultibase : String
  state : PublisherKeyState
  enrolledAt : Option String
  revokedReason : Option String
  deriving DecidableEq

structure IndexVersion where
  version : String
  yanked : Bool
  deriving DecidableEq

structure IndexAttestation (Mirror : Type) where
  org : String
  name : String
  sequence : Nat
  versions : List IndexVersion
  mirrors : List Mirror
  deriving DecidableEq

/-- `SignedIndexV1`; `sequence` is a `u64`. -/
structure SignedIndex (Mirror : Type) where
  schema : String
  payload : IndexAttestation Mirror
  signatures : List DetachedSignature
  deriving DecidableEq

/-- A verifying key: does this signature of this preimage verify strictly? -/
abbrev VerifyStrict := Bytes → Bytes → Bool

structure Interfaces where
  Extra : Type
  Mirror : Type
  /-- `serde_json::Value`. -/
  Value : Type
  timestamps : Timestamps
  sha256 : Bytes → String
  parseMeta : String → Except String (PublishMeta Extra Mirror)
  validateManifest : Manifest Extra → Except String Unit
  manifestToValue : Manifest Extra → Except String Value
  stringsToValue : List String → Value
  mirrorsToValue : List Mirror → Except String Value
  mirrorsFromValue : Value → Option (List Mirror)
  signaturesToValue : List DetachedSignature → Except String Value
  signaturesFromValue : Value → Option (List DetachedSignature)
  descriptorPresence : Bytes → Except String Bool
  verifyBinaryZip : PublishMeta Extra Mirror → Bytes → Except String Unit
  contentType : ArtifactFormat → String
  versionAttestationPreimage : VersionAttestation Mirror → Except String Bytes
  signingAlgorithm : String
  keyVerifies : PublisherKeyState → Bool
  validateKey : PublisherKey → Except String Unit
  publicKey : PublisherKey → Except String Bytes
  signatureBytes : DetachedSignature → Except String Bytes
  verifyingKey : Bytes → Option VerifyStrict
  signedIndexSchema : String
  validateIndex : SignedIndex Mirror → Except String Unit
  indexPreimage : SignedIndex Mirror → Except String Bytes
  indexToValue : SignedIndex Mirror → Except String Value
  indexFromValue : Value → Option (SignedIndex Mirror)
  sortVersionsDesc : List String → List String

namespace Interfaces

variable (I : Interfaces)

/-- `signing::verify_one`. -/
def verifyOne (preimage : Bytes) (signature : DetachedSignature) (key : PublisherKey) :
    Except String Unit :=
  match I.publicKey key with
  | .error error => .error ("key `" ++ key.keyId ++ "` is unusable: " ++ error)
  | .ok bytes =>
    match I.verifyingKey bytes with
    | none => .error ("key `" ++ key.keyId ++ "` is not a valid Ed25519 point")
    | some verifyStrict =>
      match I.signatureBytes signature with
      | .error error => .error ("malformed signature: " ++ error)
      | .ok encoded =>
        if verifyStrict preimage encoded then .ok ()
        else .error ("signature by `" ++ key.keyId ++ "` does not verify")

/-- The loop of `verify_any`; `last` is the failure reported so far. -/
def verifyEach (preimage : Bytes) (keys : List PublisherKey) :
    Option String → List DetachedSignature → Except String PublisherKey
  | last, [] => .error (last.getD "no signature verified")
  | _, signature :: rest =>
    if signature.algorithm ≠ I.signingAlgorithm then
      verifyEach preimage keys
        (some ("unsupported algorithm `" ++ signature.algorithm ++ "`")) rest
    else
      match (keys.filter fun key => I.keyVerifies key.state).find?
          fun key => key.keyId = signature.keyId with
      | none =>
        verifyEach preimage keys
          (some ("no enrolled, non-revoked key named `" ++ signature.keyId ++ "`")) rest
      | some key =>
        match I.verifyOne preimage signature key with
        | .ok () => .ok key
        | .error error => verifyEach preimage keys (some error) rest

/-- `signing::verify_any`. -/
def verifyAny (preimage : Bytes) (signatures : List DetachedSignature)
    (keys : List PublisherKey) : Except String PublisherKey :=
  if signatures.isEmpty then .error "no signature supplied"
  else if keys.isEmpty then
    .error "this org has no enrolled signing keys; run `zed key enroll` first"
  else I.verifyEach preimage keys none signatures

/-- An accepted set contains a signature that one enrolled, verifying key made
over this preimage. -/
theorem verifyEach_ok {preimage : Bytes} {keys : List PublisherKey} {last : Option String}
    {signatures : List DetachedSignature} {key : PublisherKey}
    (accepted : I.verifyEach preimage keys last signatures = .ok key) :
    key ∈ keys ∧ I.keyVerifies key.state = true ∧
      ∃ signature ∈ signatures, signature.keyId = key.keyId ∧
        I.verifyOne preimage signature key = .ok () := by
  induction signatures generalizing last with
  | nil => simp [verifyEach] at accepted
  | cons signature rest ih =>
      have later : ∀ {last}, I.verifyEach preimage keys last rest = .ok key →
          key ∈ keys ∧ I.keyVerifies key.state = true ∧
            ∃ other ∈ signature :: rest, other.keyId = key.keyId ∧
              I.verifyOne preimage other key = .ok () := by
        intro last accepted
        obtain ⟨member, verifies, other, found, verified⟩ := ih accepted
        exact ⟨member, verifies, other, List.mem_cons_of_mem _ found, verified⟩
      unfold verifyEach at accepted
      split at accepted
      · exact later accepted
      · split at accepted
        · exact later accepted
        · rename_i candidate found
          cases outcome : I.verifyOne preimage signature candidate with
          | error error =>
              rw [outcome] at accepted
              exact later accepted
          | ok _ =>
              rw [outcome] at accepted
              obtain rfl := Except.ok.inj accepted
              obtain ⟨member, verifies⟩ :=
                List.mem_filter.mp (List.mem_of_find?_eq_some found)
              have named : candidate.keyId = signature.keyId := by
                simpa using List.find?_some found
              exact ⟨member, verifies, signature, List.mem_cons_self, named.symm, outcome⟩

/-! ## A concrete instance

Serde values keep what they were built from, digests and metadata come from
tables, and a signature verifies when it repeats the public key. -/

inductive SampleValue where
  | strings (values : List String)
  | mirrors (values : List String)
  | signatures (values : List DetachedSignature)
  | manifest (value : Manifest (List String))
  | index (value : SignedIndex String)
  deriving DecidableEq

open DecimalText in
def samplePreimage (attestation : VersionAttestation String) : String :=
  String.ofList (netstrings ([attestation.org, attestation.name, attestation.version,
    attestation.sha256, toString attestation.size, attestation.format.extension,
    attestation.vcsTag, attestation.vcsCommit, attestation.publishedAt].map String.toList ++
      attestation.mirrors.map String.toList))

def sample (digests : List (Bytes × String))
    (metas : List (String × PublishMeta (List String) String)) : Interfaces where
  Extra := List String
  Mirror := String
  Value := SampleValue
  timestamps := civil
  sha256 := tabulated digests
  parseMeta text :=
    match metas.find? fun entry => entry.1 = text with
    | some entry => .ok entry.2
    | none => .error "expected value at line 1 column 1"
  validateManifest _ := .ok ()
  manifestToValue manifest := .ok (.manifest manifest)
  stringsToValue := .strings
  mirrorsToValue mirrors := .ok (.mirrors mirrors)
  mirrorsFromValue
    | .mirrors values => some values
    | _ => none
  signaturesToValue signatures := .ok (.signatures signatures)
  signaturesFromValue
    | .signatures values => some values
    | _ => none
  descriptorPresence _ := .ok false
  verifyBinaryZip _ _ := .ok ()
  contentType
    | .tarGz => "application/gzip"
    | .zip => "application/zip"
  versionAttestationPreimage attestation := .ok (asBytes (samplePreimage attestation))
  signingAlgorithm := "ed25519"
  keyVerifies state := state ≠ .revoked
  validateKey _ := .ok ()
  publicKey key := .ok (asBytes key.publicKeyMultibase)
  signatureBytes signature := .ok (asBytes signature.signature)
  verifyingKey bytes := some fun _ signature => signature = bytes
  signedIndexSchema := "zed.signed-index/v1"
  validateIndex _ := .ok ()
  indexPreimage document := .ok (asBytes document.payload.name)
  indexToValue document := .ok (.index document)
  indexFromValue
    | .index document => some document
    | _ => none
  sortVersionsDesc versions := versions.insertionSort fun left right => right ≤ left

instance (digests : List (Bytes × String))
    (metas : List (String × PublishMeta (List String) String)) :
    DecidableEq (sample digests metas).Value :=
  inferInstanceAs (DecidableEq SampleValue)

instance (digests : List (Bytes × String))
    (metas : List (String × PublishMeta (List String) String)) :
    DecidableEq (sample digests metas).Mirror :=
  inferInstanceAs (DecidableEq String)

/-- An enrolled key of the instance, and a signature it verifies. -/
def sampleKey : PublisherKey :=
  ⟨"main", "ed25519", "zKey", .active, none, none⟩

def sampleSignature : DetachedSignature := ⟨"ed25519", "main", "zKey"⟩

end Interfaces

end ZedRegistry
