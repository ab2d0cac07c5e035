import ZedRegistry.Access
import ZedRegistry.Interfaces

/-!
# Dependency graph documents

The document type of the contract crate, the declared document that `graph.rs`
builds from a manifest, and the limits every representation is held to.
-/

set_option autoImplicit false

namespace ZedRegistry

/-! ## Documents -/

inductive DependencyKind where
  | runtime
  | build
  | development
  | peer
  | tooling
  deriving DecidableEq

structure PackageVersionIdentity where
  registryId : String
  org : String
  name : String
  version : String
  deriving DecidableEq

structure DeclaredDependency where
  registryId : String
  org : String
  name : String
  requirement : String
  kind : DependencyKind
  optional : Bool
  defaultFeatures : Bool
  features : List String
  target : Option String
  deriving DecidableEq

structure ResolvedDependencyNode where
  id : PackageVersionIdentity
  artifactDigest : Option String
  features : List String
  deriving DecidableEq

structure ResolvedDependencyEdge where
  source : PackageVersionIdentity
  destination : PackageVersionIdentity
  kind : DependencyKind
  requirement : Option String
  target : Option String
  optional : Bool
  features : List String
  deriving DecidableEq

structure RegistrySnapshot where
  registryId : String
  checkpointDigest : String
  deriving DecidableEq

structure ResolutionProvenance where
  resolverVersion : String
  target : String
  enabledFeatures : List String
  registrySnapshots : List RegistrySnapshot
  lockDigest : String
  deriving DecidableEq

structure DependencyGraphProjection where
  target : Option String
  features : List String
  kinds : List DependencyKind
  maxDepth : Option UInt32
  deriving DecidableEq

inductive DependencyGraphCompleteness where
  | complete
  | projected
  deriving DecidableEq

inductive DependencyGraphData where
  | declared (package : PackageVersionIdentity) (dependencies : List DeclaredDependency)
  | resolved (completeness : DependencyGraphCompleteness) (roots : List PackageVersionIdentity)
      (nodes : List ResolvedDependencyNode) (edges : List ResolvedDependencyEdge)
      (provenance : ResolutionProvenance) (parentGraphDigest : Option String)
      (projection : Option DependencyGraphProjection)
  deriving DecidableEq

structure DependencyGraphDocument where
  schema : String
  graph : DependencyGraphData
  graphDigest : Option String
  deriving DecidableEq

/-- What a format of the contract crate is served as. -/
structure Representation where
  mediaType : String
  extension : String
  authoritative : Bool

/-- The constants and functions of the contract crate that graph reads call, and
the check of `HeaderValue::from_str`. -/
structure GraphContract (I : Interfaces) where
  schema : String
  maxNodes : Nat
  maxEdges : Nat
  maxEncodedBytes : Nat
  digestHeader : String
  authoritativeHeader : String
  validHeaderValue : String → Bool
  manifestFromValue : I.Value → Option (Manifest I.Extra)
  dependencies : Manifest I.Extra → List (String × String)
  buildDependencies : Manifest I.Extra → List (String × String)
  validVersion : String → String → Bool
  finalize : DependencyGraphDocument → Option DependencyGraphDocument
  verifyDigest : DependencyGraphDocument → Bool
  canonicalDocumentBytes : DependencyGraphDocument → Option Bytes

/-! ## Limits -/

def graphLimitExceeded : ApiErr :=
  ⟨422, "graph_limit_exceeded", "dependency graph exceeds the server node or edge limit"⟩

def representationTooLarge : ApiErr :=
  ⟨413, "graph_representation_too_large",
    "dependency graph representation exceeds the server limit"⟩

section Contract

variable {I : Interfaces} (contract : GraphContract I)

def ensureGraphCounts (nodes edges : Nat) : ApiResult Unit :=
  ensure (nodes ≤ contract.maxNodes ∧ edges ≤ contract.maxEdges) graphLimitExceeded

def ensureGraphBounds (document : DependencyGraphDocument) : ApiResult Unit :=
  match document.graph with
  | .declared _ dependencies => do
    let nodes ← okOrElse (checkedAdd dependencies.length 1) graphLimitExceeded
    ensureGraphCounts contract nodes dependencies.length
  | .resolved _ _ nodes edges _ _ _ => ensureGraphCounts contract nodes.length edges.length

def ensureEncodedSize (length : Nat) : ApiResult Unit :=
  ensure (length ≤ contract.maxEncodedBytes) representationTooLarge

def checkedDeclaredDependencyCount (runtime build : Nat) : ApiResult Nat := do
  let count ← okOrElse (checkedAdd runtime build) graphLimitExceeded
  let nodes ← okOrElse (checkedAdd count 1) graphLimitExceeded
  ensureGraphCounts contract nodes count
  pure count

/-! ## The declared document -/

/-- One requirement of a manifest; its key names the org and the package. -/
def declaredDependency (registry : String) (kind : DependencyKind)
    (entry : String × String) : ApiResult DeclaredDependency := do
  let (org, name) ← okOrElse (splitOnce '/' entry.1.toList) .internal
  pure {
    registryId := registry
    org := String.ofList org
    name := String.ofList name
    requirement := entry.2
    kind := kind
    optional := false
    defaultFeatures := true
    features := []
    target := none }

def declaredDocument (registry version : String) (manifest : Manifest I.Extra) :
    ApiResult DependencyGraphDocument := do
  ensure (manifest.package.version = version) .internal
  ensure (contract.validVersion manifest.package.versionScheme version = true) .internal
  let runtime := contract.dependencies manifest
  let build := contract.buildDependencies manifest
  let _ ← checkedDeclaredDependencyCount contract runtime.length build.length
  let runtimeDependencies ← runtime.mapM (declaredDependency registry .runtime)
  let buildDependencies ← build.mapM (declaredDependency registry .build)
  let package := ⟨registry, manifest.package.org, manifest.package.name, version⟩
  okOrElse (contract.finalize
    ⟨contract.schema, .declared package (runtimeDependencies ++ buildDependencies), none⟩)
    .internal

/-- A declared document that was counted is within the bounds of every format. -/
theorem checkedDeclaredDependencyCount_bounds {runtime build count : Nat}
    (counted : checkedDeclaredDependencyCount contract runtime build = .ok count) :
    count = runtime + build ∧ count < contract.maxNodes ∧ count ≤ contract.maxEdges := by
  simp only [checkedDeclaredDependencyCount, bind_ok, okOrElse_ok] at counted
  obtain ⟨total, added, nodes, more, _, bounded, returned⟩ := counted
  obtain rfl := Except.ok.inj returned
  have sum := checkedAdd_some added
  have next := checkedAdd_some more
  rw [ensureGraphCounts, ensure_ok] at bounded
  omega

end Contract

end ZedRegistry
