import ZedRegistry.Artifacts
import ZedRegistry.GraphNegotiation

/-!
# Dependency graph reads

`routes/graph.rs` and `routes/graph_exports/mod.rs`: the authorization of a
declared graph, its loading, and the two routes that serve it.
-/

set_option autoImplicit false

namespace ZedRegistry

/-! ## What graph reads see -/

/-- The columns of the canonical package row that graph reads use. -/
structure CanonicalPackage where
  id : Uuid
  projectId : Option Uuid
  visibility : String
  deriving DecidableEq

/-- A package comes with the id of its canonical org, a version with its manifest. -/
structure GraphRead (I : Interfaces) extends CanonicalRead where
  packageByOrgAndName : String → String → Except OrmError (Option (CanonicalPackage × Uuid))
  packageVersion : Uuid → String → Except OrmError (Option I.Value)

structure GraphState (I : Interfaces) where
  registryId : String
  registryRead : Option (GraphRead I)
  tokens : String → ApiResult (Option Token)
  now : DateTimeUtc
  orgs : List Org
  sharedAuth : Option SharedAuth
  applicationId : String

/-- The encoders of the two route families. -/
structure GraphRenderers (I : Interfaces) where
  yaml : Bytes → ApiResult Bytes
  toml : Bytes → ApiResult Bytes
  dot : DependencyGraphDocument → ApiResult Bytes
  mermaid : DependencyGraphDocument → ApiResult Bytes
  xml : DependencyGraphDocument → ApiResult Bytes
  csv : DependencyGraphDocument → ApiResult Bytes
  messagePack : Bytes → ApiResult Bytes
  protobuf : DependencyGraphDocument → Bytes

variable {I : Interfaces}

/-! ## Authorization -/

inductive DeclaredGraphAccess where
  | publicGraph
  | privateGraph
  deriving DecidableEq

namespace DeclaredGraphAccess

def privateNoStore : String := "private, no-store"

def cacheControl : DeclaredGraphAccess → String
  | .publicGraph => immutableCacheControl
  | .privateGraph => privateNoStore

def vary : DeclaredGraphAccess → String
  | .publicGraph => "Accept"
  | .privateGraph => "Accept, Authorization"

end DeclaredGraphAccess

def graphNotFound : ApiErr := ⟨404, "not_found", "dependency graph not found"⟩

def dataPlaneUnavailable : ApiErr :=
  .serviceUnavailable "registry_data_plane_unavailable"
    "canonical registry read context is not configured"

def requiresGraphAuthorization (visibility : String) : ApiResult Bool :=
  if visibility = "public" then .ok false
  else if visibility = "internal" ∨ visibility = "private" then .ok true
  else .error graphNotFound

/-- Every failure on the way is the same missing graph. -/
def concealed {ε α : Type} (action : Except ε α) : ApiResult α :=
  action.mapError fun _ => graphNotFound

/-- The memberships of a delegated browser account. -/
def authorizeAccount (state : GraphState I) (read : GraphRead I) (authorization : Option String)
    (package : CanonicalPackage) (canonicalOrg : Uuid) : ApiResult DeclaredGraphAccess := do
  let account ← concealed (requireAccount state.sharedAuth state.applicationId authorization)
  let found ← concealed (read.userBySubject account.session.realm account.session.subject)
  let user ← okOrElse found graphNotFound
  let orgRole ← concealed (read.orgRoleForUser canonicalOrg user)
  if orgRole.isSome then pure .privateGraph
  else
    match package.projectId with
    | none => .error graphNotFound
    | some projectId => do
      let projectRole ← concealed (read.projectRoleForUser projectId user)
      if projectRole.isSome then pure .privateGraph else .error graphNotFound

def authorizeDeclaredGraph (state : GraphState I) (authorization : Option String)
    (orgSlug : String) (package : CanonicalPackage) (canonicalOrg : Uuid) :
    ApiResult DeclaredGraphAccess := do
  let read ← okOrElse state.registryRead dataPlaneUnavailable
  if (← requiresGraphAuthorization package.visibility) = false then pure .publicGraph
  else if bearerToken authorization = none then .error graphNotFound
  else
    match requireToken I.sha256 state.tokens state.now authorization with
    | .ok token => do
      let legacyOrg ← okOrElse (state.orgs.find? fun org => org.slug = orgSlug) graphNotFound
      if token.orgId = some legacyOrg.id then pure .privateGraph else .error graphNotFound
    | .error _ => authorizeAccount state read authorization package canonicalOrg

/-! ## Loading -/

def loadAuthorizedDeclaredDocument (contract : GraphContract I) (state : GraphState I)
    (authorization : Option String) (orgSlug name version : String) :
    ApiResult (DependencyGraphDocument × DeclaredGraphAccess) := do
  let read ← okOrElse state.registryRead dataPlaneUnavailable
  let found ← (read.packageByOrgAndName orgSlug name).mapError fun _ => .internal
  let (package, canonicalOrg) ← okOrElse found graphNotFound
  let access ← authorizeDeclaredGraph state authorization orgSlug package canonicalOrg
  let row ← (read.packageVersion package.id version).mapError fun _ => .internal
  let stored ← okOrElse row graphNotFound
  let manifest ← okOrElse (contract.manifestFromValue stored) .internal
  ensure (manifest.package.org = orgSlug ∧ manifest.package.name = name ∧
    manifest.package.version = version) .internal
  let document ← declaredDocument contract state.registryId version manifest
  pure (document, access)

/-! ## Responses -/

/-- The two `encode` functions after the bounds and the digest check: `render`
writes the document or its canonical bytes. -/
def encodeCanonical (contract : GraphContract I) (document : DependencyGraphDocument)
    (render : Bytes → ApiResult Bytes) : ApiResult Bytes := do
  let canonical ← okOrElse (contract.canonicalDocumentBytes document) .internal
  ensureEncodedSize contract canonical.length
  let encoded ← render canonical
  ensureEncodedSize contract encoded.length
  pure encoded

def encode (contract : GraphContract I) (renderers : GraphRenderers I)
    (document : DependencyGraphDocument) (format : DependencyGraphFormat) : ApiResult Bytes := do
  ensureGraphBounds contract document
  encodeCanonical contract document fun canonical =>
    match format with
    | .json => pure canonical
    | .yaml => renderers.yaml canonical
    | .toml => renderers.toml canonical
    | .dot => renderers.dot document
    | .mermaid => renderers.mermaid document

def encodeJson5 (contract : GraphContract I) (document : DependencyGraphDocument)
    (canonical : Bytes) : ApiResult Bytes := do
  let digest := document.graphDigest.getD "missing"
  let heading := asBytes ("// zpkg/dependency-graph/v1 — lossless JSON5 projection\n" ++
    "// graph_digest: " ++ digest ++ "\n" ++
    "// Comments may be removed; the remaining value is canonical JSON.\n")
  let length ← okOrElse (checkedAdd heading.length canonical.length) representationTooLarge
  let encodedLen ← okOrElse (checkedAdd length 1) representationTooLarge
  ensureEncodedSize contract encodedLen
  pure (heading ++ canonical ++ asBytes "\n")

def encodeExport (contract : GraphContract I) (renderers : GraphRenderers I)
    (document : DependencyGraphDocument) (format : GraphExportFormat) : ApiResult Bytes := do
  ensureGraphBounds contract document
  ensure (contract.verifyDigest document = true) .internal
  encodeCanonical contract document fun canonical =>
    match format with
    | .json5 => encodeJson5 contract document canonical
    | .xml => renderers.xml document
    | .csv => renderers.csv document
    | .messagePack => renderers.messagePack canonical
    | .protobuf => pure (renderers.protobuf document)

def headerValue (contract : GraphContract I) (name value : String) :
    ApiResult (String × String) := do
  ensure (contract.validHeaderValue value = true) .internal
  pure (name, value)

/-- The `respond` of both routes, from the encoded body on. -/
def respond (contract : GraphContract I) (headers : GraphHeaders)
    (representation : Representation) (document : DependencyGraphDocument) (body : Bytes)
    (stem : String) (access : DeclaredGraphAccess) : ApiResult Response := do
  ensureEncodedSize contract body.length
  let etag := "\"" ++ I.sha256 body ++ "\""
  let graphDigest ← okOrElse document.graphDigest .internal
  let disposition := "attachment; filename=\"" ++ stem ++ ".dependency-graph." ++
    representation.extension ++ "\""
  let metadata ← [("etag", etag), ("cache-control", access.cacheControl), ("vary", access.vary),
    ("content-disposition", disposition), ("content-length", toString body.length),
    (contract.digestHeader, graphDigest)].mapM fun entry => headerValue contract entry.1 entry.2
  let metadata := metadata ++
    [(contract.authoritativeHeader, if representation.authoritative then "true" else "false")]
  if ifNoneMatchMatches headers.ifNoneMatch etag then pure ⟨304, metadata, []⟩
  else do
    let contentType ← headerValue contract "content-type" representation.mediaType
    pure ⟨200, metadata ++ [contentType], body⟩

/-! ## Routes -/

structure DeclaredGraphRequest where
  org : String
  name : String
  version : String
  view : Option String
  format : Option String

structure GraphExportRequest where
  org : String
  name : String
  version : String
  format : String

section Routes

variable (contract : GraphContract I) (formats : GraphFormats) (renderers : GraphRenderers I)

def getDeclaredGraph (state : GraphState I) (headers : GraphHeaders)
    (request : DeclaredGraphRequest) : ApiResult Response := do
  ensure (request.view = some "declared") (.badRequest "unsupported_view"
    ("package-version dependency graphs are declared-view only; " ++
      "exact resolved graphs are addressed by resolution digest"))
  let format ← resolveFormat formats headers.accept request.format
  let (document, access) ← loadAuthorizedDeclaredDocument contract state headers.authorization
    request.org request.name request.version
  let body ← encode contract renderers document format
  respond contract headers (formats.canonical format) document body
    (filenameStem request.org request.name request.version) access

def getDeclaredGraphExport (state : GraphState I) (headers : GraphHeaders)
    (request : GraphExportRequest) : ApiResult Response := do
  let format ← okOrElse (formats.parseExportName request.format)
    (unsupportedFormat ("unsupported dependency graph export format `" ++ request.format ++ "`"))
  ensureAcceptable (formats.extended format).mediaType headers.accept
  let (document, access) ← loadAuthorizedDeclaredDocument contract state headers.authorization
    request.org request.name request.version
  let body ← encodeExport contract renderers document format
  respond contract headers (formats.extended format) document body
    (filenameStem request.org request.name request.version) access

end Routes

end ZedRegistry
