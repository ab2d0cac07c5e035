import ZedRegistry.ConditionalRequests
import ZedRegistry.Lib.SharedCache

/-!
# Dependency graphs behind a shared cache

The cache directives of the graph routes, seen from a cache that obeys them: a private graph
and a refusal are never kept, a kept graph fits whoever asks for the same representation, and
asking about a kept graph comes to the same as fetching it again.
-/

set_option autoImplicit false

namespace ZedRegistry

deriving instance DecidableEq for DeclaredGraphRequest, GraphExportRequest

namespace GraphCaching

/-! ## The routes behind one address -/

/-- The status is one of an error. -/
def Refusal (error : ApiErr) : Prop := 400 ≤ error.status

inductive GraphTarget where
  | declared (request : DeclaredGraphRequest)
  | exported (request : GraphExportRequest)
  deriving DecidableEq

/-- A `GET` of either route. -/
structure GraphQuery where
  target : GraphTarget
  headers : GraphHeaders

def GraphQuery.withAuthorization (query : GraphQuery) (authorization : Option String) :
    GraphQuery :=
  { query with headers := { query.headers with authorization } }

/-- A registry with its encoders and the text of its error bodies.  The names of its two
own header fields are not that of the content type, and its encoders fail with the status of
an error. -/
structure GraphServer (I : Interfaces) where
  contract : GraphContract I
  formats : GraphFormats
  renderers : GraphRenderers I
  errorBody : ApiErr → Bytes
  ownNames : contract.digestHeader ≠ "content-type" ∧
    contract.authoritativeHeader ≠ "content-type"
  refusals : ∀ canonical document,
    FailsOnly Refusal (renderers.yaml canonical) ∧ FailsOnly Refusal (renderers.toml canonical) ∧
    FailsOnly Refusal (renderers.messagePack canonical) ∧
    FailsOnly Refusal (renderers.dot document) ∧ FailsOnly Refusal (renderers.mermaid document) ∧
    FailsOnly Refusal (renderers.xml document) ∧ FailsOnly Refusal (renderers.csv document)

/-- `IntoResponse for ApiErr`. -/
def errorResponse (errorBody : ApiErr → Bytes) (error : ApiErr) : Response where
  status := error.status
  headers := [("content-type", "application/json"), ("cache-control", "private, no-store")]
  body := errorBody error

def intoResponse (errorBody : ApiErr → Bytes) (result : ApiResult Response) : Response :=
  match result with
  | .ok response => response
  | .error error => errorResponse errorBody error

section Server

variable {I : Interfaces} (server : GraphServer I)

def routed (state : GraphState I) (headers : GraphHeaders) : GraphTarget → ApiResult Response
  | .declared request =>
    getDeclaredGraph server.contract server.formats server.renderers state headers request
  | .exported request =>
    getDeclaredGraphExport server.contract server.formats server.renderers state headers request

def graphAnswer (state : GraphState I) (query : GraphQuery) : Response :=
  intoResponse server.errorBody (routed server state query.headers query.target)

/-! ## An answer up to its condition -/

/-- What the target and the `Accept` lines select: a representation and its encoder. -/
structure Selection where
  representation : Representation
  encoding : DependencyGraphDocument → ApiResult Bytes

def selection (accept : List (Option String)) : GraphTarget → ApiResult Selection
  | .declared request => do
    ensure (request.view = some "declared") (.badRequest "unsupported_view"
      ("package-version dependency graphs are declared-view only; " ++
        "exact resolved graphs are addressed by resolution digest"))
    let format ← resolveFormat server.formats accept request.format
    pure ⟨server.formats.canonical format,
      fun document => encode server.contract server.renderers document format⟩
  | .exported request => do
    let format ← okOrElse (server.formats.parseExportName request.format)
      (unsupportedFormat
        ("unsupported dependency graph export format `" ++ request.format ++ "`"))
    ensureAcceptable (server.formats.extended format).mediaType accept
    pure ⟨server.formats.extended format,
      fun document => encodeExport server.contract server.renderers document format⟩

/-- Org, name and version. -/
def GraphTarget.coordinates : GraphTarget → String × String × String
  | .declared request => (request.org, request.name, request.version)
  | .exported request => (request.org, request.name, request.version)

def loaded (state : GraphState I) (authorization : Option String) (target : GraphTarget) :
    ApiResult (DependencyGraphDocument × DeclaredGraphAccess) :=
  loadAuthorizedDeclaredDocument server.contract state authorization target.coordinates.1
    target.coordinates.2.1 target.coordinates.2.2

/-- The header fields of the answer, the content type apart. -/
def describe (contract : GraphContract I) (representation : Representation)
    (document : DependencyGraphDocument) (body : Bytes) (stem : String)
    (access : DeclaredGraphAccess) : ApiResult (List (String × String)) := do
  ensureEncodedSize contract body.length
  let graphDigest ← okOrElse document.graphDigest .internal
  let metadata ← [("etag", quotedEtag (I.sha256 body)), ("cache-control", access.cacheControl),
    ("vary", access.vary),
    ("content-disposition", "attachment; filename=\"" ++ stem ++ ".dependency-graph." ++
      representation.extension ++ "\""),
    ("content-length", toString body.length),
    (contract.digestHeader, graphDigest)].mapM fun entry => headerValue contract entry.1 entry.2
  pure (metadata ++
    [(contract.authoritativeHeader, if representation.authoritative then "true" else "false")])

structure Computation where
  representation : Representation
  access : DeclaredGraphAccess
  body : Bytes
  metadata : List (String × String)

/-- Everything up to the client's condition. -/
def compute (state : GraphState I) (authorization : Option String)
    (accept : List (Option String)) (target : GraphTarget) : ApiResult (Computation) := do
  let selected ← selection server accept target
  let found ← loaded server state authorization target
  let body ← selected.encoding found.1
  let metadata ← describe server.contract selected.representation found.1 body
    (filenameStem target.coordinates.1 target.coordinates.2.1 target.coordinates.2.2) found.2
  pure ⟨selected.representation, found.2, body, metadata⟩

/-- The answer to the condition. -/
def finish (contract : GraphContract I) (ifNoneMatch : List (Option String))
    (computed : Computation) : ApiResult Response :=
  if ifNoneMatchMatches ifNoneMatch (quotedEtag (I.sha256 computed.body)) then
    pure ⟨304, computed.metadata, []⟩
  else do
    let contentType ← headerValue contract "content-type" computed.representation.mediaType
    pure ⟨200, computed.metadata ++ [contentType], computed.body⟩

theorem respond_eq (contract : GraphContract I) (headers : GraphHeaders)
    (representation : Representation) (document : DependencyGraphDocument) (body : Bytes)
    (stem : String) (access : DeclaredGraphAccess) :
    respond contract headers representation document body stem access =
      describe contract representation document body stem access >>= fun metadata =>
        finish contract headers.ifNoneMatch ⟨representation, access, body, metadata⟩ := by
  simp only [respond, describe, finish, quotedEtag, bind_assoc, pure_bind]
  rfl

theorem routed_eq (state : GraphState I) (headers : GraphHeaders) (target : GraphTarget) :
    routed server state headers target =
      compute server state headers.authorization headers.accept target >>=
        finish server.contract headers.ifNoneMatch := by
  cases target with
  | declared request =>
      simp only [routed, getDeclaredGraph, compute, selection, loaded, GraphTarget.coordinates,
        bind_assoc, pure_bind, respond_eq]
  | exported request =>
      simp only [routed, getDeclaredGraphExport, compute, selection, loaded,
        GraphTarget.coordinates, bind_assoc, pure_bind, respond_eq]

/-! ## Refusals -/

theorem refusal_unsupportedFormat (message : String) : Refusal (unsupportedFormat message) := by
  simp [Refusal, unsupportedFormat]

theorem refusal_graphNotFound : Refusal graphNotFound := by simp [Refusal, graphNotFound]

theorem refusal_internal : Refusal .internal := by simp [Refusal, ApiErr.internal]

theorem refusal_graphLimitExceeded : Refusal graphLimitExceeded := by
  simp [Refusal, graphLimitExceeded]

theorem refusal_representationTooLarge : Refusal representationTooLarge := by
  simp [Refusal, representationTooLarge]

theorem failsOnly_fieldLines (message : String) (lines : List (Option String)) :
    FailsOnly Refusal (fieldLines (unsupportedFormat message) lines) :=
  failsOnly_mapM
    (fun line => (failsOnly_okOrElse line (refusal_unsupportedFormat message)).map _) lines

theorem failsOnly_resolveFormat (formats : GraphFormats) (accept : List (Option String))
    (format : Option String) : FailsOnly Refusal (resolveFormat formats accept format) := by
  have refused := refusal_unsupportedFormat
  have lines : FailsOnly Refusal (parseAccept formats accept) := by
    refine (failsOnly_fieldLines _ _).bind fun lines => ?_
    dsimp only
    split
    · exact failsOnly_ok _
    · exact failsOnly_ok _
  have named : FailsOnly Refusal (format.mapM fun value => okOrElse (parseFormatName value)
      (unsupportedFormat ("unsupported dependency graph format `" ++ value ++ "`"))) := by
    cases format with
    | none => exact failsOnly_ok none
    | some value => exact (failsOnly_okOrElse _ (refused _)).bind fun _ => failsOnly_ok _
  refine named.bind fun fromQuery => lines.bind fun accepted => ?_
  cases fromQuery with
  | none =>
      cases accepted with
      | none => exact failsOnly_ok _
      | some accepted => exact failsOnly_okOrElse _ (refused _)
  | some format =>
      cases accepted with
      | none => exact failsOnly_ok _
      | some accepted =>
          dsimp only
          split
          · exact failsOnly_ok _
          · exact failsOnly_error (by simp [Refusal])

theorem failsOnly_selection (accept : List (Option String)) (target : GraphTarget) :
    FailsOnly Refusal (selection server accept target) := by
  cases target with
  | declared request =>
      refine (failsOnly_ensure _ (by simp [Refusal, ApiErr.badRequest])).bind fun _ => ?_
      exact (failsOnly_resolveFormat _ _ _).bind fun _ => failsOnly_ok _
  | exported request =>
      have refused := refusal_unsupportedFormat
      refine (failsOnly_okOrElse _ (refused _)).bind fun _ => ?_
      refine FailsOnly.bind ?_ fun _ => failsOnly_ok _
      exact (failsOnly_fieldLines _ _).bind fun _ => failsOnly_ensure _ (refused _)

theorem failsOnly_loaded (state : GraphState I) (authorization : Option String)
    (target : GraphTarget) : FailsOnly Refusal (loaded server state authorization target) := by
  have missing := refusal_graphNotFound
  have internal := refusal_internal
  have exceeded := refusal_graphLimitExceeded
  unfold loaded loadAuthorizedDeclaredDocument
  cases configured : state.registryRead with
  | none => exact failsOnly_error (by simp [Refusal, dataPlaneUnavailable,
      ApiErr.serviceUnavailable])
  | some read =>
      refine (failsOnly_ok read).bind fun read => ?_
      refine (failsOnly_mapError _ internal).bind fun found => ?_
      refine (failsOnly_okOrElse found missing).bind fun package => ?_
      refine FailsOnly.bind ?_ fun access => ?_
      · intro error failed
        rw [authorizeDeclaredGraph_conceals configured _ _ _ _ error failed]
        exact missing
      refine (failsOnly_mapError _ internal).bind fun row => ?_
      refine (failsOnly_okOrElse row missing).bind fun stored => ?_
      refine (failsOnly_okOrElse _ internal).bind fun manifest => ?_
      refine (failsOnly_ensure _ internal).bind fun _ => ?_
      refine FailsOnly.bind ?_ fun document => failsOnly_ok _
      have counted (runtime build : Nat) : FailsOnly Refusal
          (checkedDeclaredDependencyCount server.contract runtime build) := by
        refine (failsOnly_okOrElse _ exceeded).bind fun count => ?_
        refine (failsOnly_okOrElse _ exceeded).bind fun nodes => ?_
        exact (failsOnly_ensure _ exceeded).bind fun _ => failsOnly_ok count
      have declared (registry : String) (kind : DependencyKind) (entry : String × String) :
          FailsOnly Refusal (declaredDependency registry kind entry) :=
        (failsOnly_okOrElse _ internal).bind fun _ => failsOnly_ok _
      refine (failsOnly_ensure _ internal).bind fun _ => ?_
      refine (failsOnly_ensure _ internal).bind fun _ => ?_
      refine (counted _ _).bind fun _ => ?_
      refine (failsOnly_mapM (declared _ _) _).bind fun runtime => ?_
      refine (failsOnly_mapM (declared _ _) _).bind fun build => ?_
      exact failsOnly_okOrElse _ internal

theorem failsOnly_encodeCanonical (document : DependencyGraphDocument)
    {render : Bytes → ApiResult Bytes} (renders : ∀ canonical, FailsOnly Refusal (render canonical)) :
    FailsOnly Refusal (encodeCanonical server.contract document render) := by
  refine (failsOnly_okOrElse _ refusal_internal).bind fun canonical => ?_
  refine (failsOnly_ensure _ refusal_representationTooLarge).bind fun _ => ?_
  refine (renders canonical).bind fun encoded => ?_
  exact (failsOnly_ensure _ refusal_representationTooLarge).bind fun _ => failsOnly_ok encoded

theorem failsOnly_ensureGraphBounds (document : DependencyGraphDocument) :
    FailsOnly Refusal (ensureGraphBounds server.contract document) := by
  unfold ensureGraphBounds
  split
  · exact (failsOnly_okOrElse _ refusal_graphLimitExceeded).bind fun _ =>
      failsOnly_ensure _ refusal_graphLimitExceeded
  · exact failsOnly_ensure _ refusal_graphLimitExceeded

theorem failsOnly_encoding {accept : List (Option String)} {target : GraphTarget}
    {selected : Selection} (select : selection server accept target = .ok selected)
    (document : DependencyGraphDocument) : FailsOnly Refusal (selected.encoding document) := by
  cases target with
  | declared request =>
      obtain ⟨_, _, select⟩ := bind_ok.mp select
      obtain ⟨format, _, select⟩ := bind_ok.mp select
      obtain rfl := Except.ok.inj select
      refine (failsOnly_ensureGraphBounds server document).bind fun _ => ?_
      refine failsOnly_encodeCanonical server document fun canonical => ?_
      obtain ⟨yaml, toml, -, dot, mermaid, -⟩ := server.refusals canonical document
      cases format with
      | json => exact failsOnly_ok canonical
      | yaml => exact yaml
      | toml => exact toml
      | dot => exact dot
      | mermaid => exact mermaid
  | exported request =>
      obtain ⟨format, _, select⟩ := bind_ok.mp select
      obtain ⟨_, _, select⟩ := bind_ok.mp select
      obtain rfl := Except.ok.inj select
      refine (failsOnly_ensureGraphBounds server document).bind fun _ => ?_
      refine (failsOnly_ensure _ refusal_internal).bind fun _ => ?_
      refine failsOnly_encodeCanonical server document fun canonical => ?_
      obtain ⟨-, -, messagePack, -, -, xml, csv⟩ := server.refusals canonical document
      cases format with
      | json5 =>
          refine (failsOnly_okOrElse _ refusal_representationTooLarge).bind fun length => ?_
          refine (failsOnly_okOrElse _ refusal_representationTooLarge).bind fun _ => ?_
          exact (failsOnly_ensure _ refusal_representationTooLarge).bind fun _ => failsOnly_ok _
      | xml => exact xml
      | csv => exact csv
      | messagePack => exact messagePack
      | protobuf => exact failsOnly_ok _

theorem failsOnly_headerValue (contract : GraphContract I) (name value : String) :
    FailsOnly Refusal (headerValue contract name value) :=
  (failsOnly_ensure _ refusal_internal).bind fun _ => failsOnly_ok _

theorem failsOnly_compute (state : GraphState I) (authorization : Option String)
    (accept : List (Option String)) (target : GraphTarget) :
    FailsOnly Refusal (compute server state authorization accept target) := by
  unfold compute
  cases select : selection server accept target with
  | error error => exact failsOnly_error (failsOnly_selection server accept target error select)
  | ok selected =>
      change FailsOnly Refusal (loaded server state authorization target >>= _)
      refine (failsOnly_loaded server state authorization target).bind fun found => ?_
      refine (failsOnly_encoding server select found.1).bind fun body => ?_
      refine FailsOnly.bind ?_ fun _ => failsOnly_ok _
      refine (failsOnly_ensure _ refusal_representationTooLarge).bind fun _ => ?_
      refine (failsOnly_okOrElse _ refusal_internal).bind fun graphDigest => ?_
      refine FailsOnly.bind ?_ fun _ => failsOnly_ok _
      exact failsOnly_mapM (fun entry => failsOnly_headerValue _ _ _) _

/-- An answer of status 304 is one to a condition that names the body. -/
theorem routed_notModified {state : GraphState I} {headers : GraphHeaders} {target : GraphTarget}
    (status : (intoResponse server.errorBody (routed server state headers target)).status = 304) :
    ∃ computed, compute server state headers.authorization headers.accept target = .ok computed ∧
      ifNoneMatchMatches headers.ifNoneMatch (quotedEtag (I.sha256 computed.body)) = true ∧
      routed server state headers target = .ok ⟨304, computed.metadata, []⟩ := by
  rw [routed_eq] at status ⊢
  cases found : compute server state headers.authorization headers.accept target with
  | error error =>
      have refusal : 400 ≤ error.status :=
        failsOnly_compute server state _ _ target error found
      rw [found] at status
      change error.status = 304 at status
      omega
  | ok computed =>
      rw [found] at status
      change (intoResponse server.errorBody (finish server.contract headers.ifNoneMatch computed)).status
        = 304 at status
      change ∃ other, Except.ok computed = Except.ok other ∧ _ ∧
        finish server.contract headers.ifNoneMatch computed = .ok ⟨304, other.metadata, []⟩
      unfold finish at status ⊢
      by_cases matched : ifNoneMatchMatches headers.ifNoneMatch
          (quotedEtag (I.sha256 computed.body)) = true
      · rw [if_pos matched]
        exact ⟨computed, rfl, matched, rfl⟩
      · rw [if_neg matched] at status
        cases typed : headerValue server.contract "content-type"
            computed.representation.mediaType with
        | error error =>
            have refusal : 400 ≤ error.status := failsOnly_headerValue _ _ _ error typed
            rw [typed] at status
            change error.status = 304 at status
            omega
        | ok contentType =>
            rw [typed] at status
            cases status

/-! ## What may be kept -/

def queryField (query : GraphQuery) (name : String) : List (Option String) :=
  if name = "accept" then query.headers.accept
  else if name = "authorization" then query.headers.authorization.toList.map some
  else if name = "if-none-match" then query.headers.ifNoneMatch
  else []

/-- The graph routes as a cache sees them. -/
def graphHttp : SharedCache.Http GraphTarget GraphQuery Response where
  target := GraphQuery.target
  field := queryField
  conditioned query etag :=
    { query with headers := { query.headers with ifNoneMatch := [some etag] } }
  status := Response.status
  headers := Response.headers
  withHeaders response headers := { response with headers }

/-! ### The shape of an answer -/

theorem headerValue_ok {contract : GraphContract I} {name value : String}
    {entry : String × String} (checked : headerValue contract name value = .ok entry) :
    entry = (name, value) := by
  obtain ⟨_, _, named⟩ := bind_ok.mp checked
  exact (Except.ok.inj named).symm

theorem mapM_headerValue {contract : GraphContract I} {entries written : List (String × String)}
    (checked : entries.mapM (fun entry => headerValue contract entry.1 entry.2) = .ok written) :
    written = entries := by
  induction entries generalizing written with
  | nil => exact (Except.ok.inj checked).symm
  | cons entry entries ih =>
      rw [List.mapM_cons] at checked
      obtain ⟨first, here, checked⟩ := bind_ok.mp checked
      obtain ⟨others, later, checked⟩ := bind_ok.mp checked
      obtain rfl := Except.ok.inj checked
      rw [headerValue_ok here, ih later]

/-- The header fields in their order; the last four do not matter to a cache. -/
def Described (contract : GraphContract I) (computed : Computation) : Prop :=
  ∃ disposition length graphDigest authoritative, computed.metadata =
    [("etag", quotedEtag (I.sha256 computed.body)),
      ("cache-control", computed.access.cacheControl), ("vary", computed.access.vary),
      ("content-disposition", disposition), ("content-length", length),
      (contract.digestHeader, graphDigest), (contract.authoritativeHeader, authoritative)]

theorem compute_described {state : GraphState I} {authorization : Option String}
    {accept : List (Option String)} {target : GraphTarget} {computed : Computation}
    (found : compute server state authorization accept target = .ok computed) :
    Described server.contract computed := by
  obtain ⟨selected, _, found⟩ := bind_ok.mp found
  obtain ⟨document, _, found⟩ := bind_ok.mp found
  obtain ⟨body, _, found⟩ := bind_ok.mp found
  obtain ⟨metadata, described, found⟩ := bind_ok.mp found
  obtain rfl := Except.ok.inj found
  obtain ⟨_, _, described⟩ := bind_ok.mp described
  obtain ⟨graphDigest, _, described⟩ := bind_ok.mp described
  obtain ⟨written, checked, described⟩ := bind_ok.mp described
  obtain rfl := mapM_headerValue checked
  exact ⟨_, _, _, _, (Except.ok.inj described).symm⟩

/-- The answer to an unconditional request. -/
def Computation.whole (computed : Computation) : Response where
  status := 200
  headers := computed.metadata ++ [("content-type", computed.representation.mediaType)]
  body := computed.body

/-- The content type is one a header field can hold. -/
def Typed (contract : GraphContract I) (computed : Computation) : Prop :=
  headerValue contract "content-type" computed.representation.mediaType =
    .ok ("content-type", computed.representation.mediaType)

theorem finish_unmatched {contract : GraphContract I} {ifNoneMatch : List (Option String)}
    {computed : Computation} (typed : Typed contract computed)
    (unmatched : ifNoneMatchMatches ifNoneMatch (quotedEtag (I.sha256 computed.body)) = false) :
    finish contract ifNoneMatch computed = .ok computed.whole := by
  unfold finish
  rw [unmatched, typed]
  rfl

theorem etag_of_whole {computed : Computation} (described : Described server.contract computed) :
    computed.whole.headers.lookup "etag" = some (quotedEtag (I.sha256 computed.body)) := by
  obtain ⟨_, _, _, _, metadata⟩ := described
  unfold Computation.whole
  rw [metadata]
  rfl

theorem contentType_of_whole {computed : Computation}
    (described : Described server.contract computed) :
    computed.whole.headers.lookup "content-type" = some computed.representation.mediaType := by
  obtain ⟨_, _, _, _, metadata⟩ := described
  have digestName := beq_false_of_ne server.ownNames.1.symm
  have authoritativeName := beq_false_of_ne server.ownNames.2.symm
  unfold Computation.whole
  rw [metadata]
  simp [List.lookup_cons, digestName, authoritativeName]

/-- Without a condition, the answer is the whole one whenever it is one at all. -/
theorem graphAnswer_whole {state : GraphState I} {query : GraphQuery} {computed : Computation}
    (found : compute server state query.headers.authorization query.headers.accept query.target =
      .ok computed)
    (typed : Typed server.contract computed) (plain : query.headers.ifNoneMatch = []) :
    graphAnswer server state query = computed.whole := by
  have unmatched : ifNoneMatchMatches [] (quotedEtag (I.sha256 computed.body)) = false := rfl
  have answered : routed server state query.headers query.target = .ok computed.whole := by
    rw [routed_eq, found, plain]
    exact finish_unmatched typed unmatched
  unfold graphAnswer
  rw [answered]
  rfl

/-- What a cache may keep is a whole public answer. -/
theorem storable_public {state : GraphState I} {query : GraphQuery}
    (storable : graphHttp.mayStore query (graphAnswer server state query) = true) :
    ∃ computed, compute server state query.headers.authorization query.headers.accept
        query.target = .ok computed ∧ computed.access = .publicGraph ∧
      Typed server.contract computed ∧ graphAnswer server state query = computed.whole := by
  cases answered : routed server state query.headers query.target with
  | error error =>
      have refused : graphAnswer server state query = errorResponse server.errorBody error := by
        unfold graphAnswer
        rw [answered]
        rfl
      rw [refused, graphHttp.not_stored rfl] at storable
      contradiction
  | ok response =>
      have same : graphAnswer server state query = response := by
        unfold graphAnswer
        rw [answered]
        rfl
      rw [routed_eq] at answered
      obtain ⟨computed, found, finished⟩ := bind_ok.mp answered
      obtain ⟨disposition, length, graphDigest, authoritative, metadata⟩ :=
        compute_described server found
      unfold finish at finished
      split at finished
      next =>
        obtain rfl := Except.ok.inj finished
        rw [same] at storable
        simp [SharedCache.Http.mayStore, SharedCache.Http.cacheable, graphHttp] at storable
      next =>
        obtain ⟨contentType, typed, finished⟩ := bind_ok.mp finished
        obtain rfl := headerValue_ok typed
        obtain rfl := Except.ok.inj finished
        refine ⟨computed, found, ?_, typed, same⟩
        cases access : computed.access with
        | publicGraph => rfl
        | privateGraph =>
            rw [same, graphHttp.not_stored] at storable
            · contradiction
            · rw [metadata, access]
              rfl

/-! ### Public graphs -/

theorem authorizeAccount_private {state : GraphState I} {read : GraphRead I}
    {authorization : Option String} {package : CanonicalPackage} {canonicalOrg : Uuid}
    {access : DeclaredGraphAccess}
    (authorized : authorizeAccount state read authorization package canonicalOrg = .ok access) :
    access = .privateGraph := by
  obtain ⟨account, _, authorized⟩ := bind_ok.mp authorized
  obtain ⟨found, _, authorized⟩ := bind_ok.mp authorized
  obtain ⟨user, _, authorized⟩ := bind_ok.mp authorized
  obtain ⟨orgRole, _, authorized⟩ := bind_ok.mp authorized
  split at authorized
  · exact (Except.ok.inj authorized).symm
  · split at authorized
    · contradiction
    · obtain ⟨projectRole, _, authorized⟩ := bind_ok.mp authorized
      split at authorized
      · exact (Except.ok.inj authorized).symm
      · contradiction

/-- Whoever reads a public package reads it as anyone. -/
theorem authorize_public {state : GraphState I} {authorization : Option String}
    {orgSlug : String} {package : CanonicalPackage} {canonicalOrg : Uuid}
    (authorized : authorizeDeclaredGraph state authorization orgSlug package canonicalOrg =
      .ok .publicGraph) (other : Option String) :
    authorizeDeclaredGraph state other orgSlug package canonicalOrg = .ok .publicGraph := by
  unfold authorizeDeclaredGraph at authorized ⊢
  obtain ⟨read, configured, authorized⟩ := bind_ok.mp authorized
  obtain ⟨required, visible, authorized⟩ := bind_ok.mp authorized
  rw [configured, visible]
  cases required with
  | false => rfl
  | true =>
      rw [if_neg (by decide)] at authorized
      split at authorized
      · contradiction
      · split at authorized
        · obtain ⟨legacyOrg, _, authorized⟩ := bind_ok.mp authorized
          split at authorized
          · cases authorized
          · contradiction
        · exact absurd (authorizeAccount_private authorized) (by decide)

/-- What a loaded document comes from. -/
theorem loaded_ok {state : GraphState I} {authorization : Option String} {target : GraphTarget}
    {document : DependencyGraphDocument} {access : DeclaredGraphAccess} :
    loaded server state authorization target = .ok (document, access) ↔
      ∃ read package canonicalOrg value manifest, state.registryRead = some read ∧
        read.packageByOrgAndName target.coordinates.1 target.coordinates.2.1 =
          .ok (some (package, canonicalOrg)) ∧
        authorizeDeclaredGraph state authorization target.coordinates.1 package canonicalOrg =
          .ok access ∧
        read.packageVersion package.id target.coordinates.2.2 = .ok (some value) ∧
        server.contract.manifestFromValue value = some manifest ∧
        (manifest.package.org = target.coordinates.1 ∧
          manifest.package.name = target.coordinates.2.1 ∧
          manifest.package.version = target.coordinates.2.2) ∧
        declaredDocument server.contract state.registryId target.coordinates.2.2 manifest =
          .ok document := by
  unfold loaded loadAuthorizedDeclaredDocument
  simp only [bind_ok, okOrElse_ok, mapError_ok, ensure_ok, Prod.exists, pure, Except.pure,
    Except.ok.injEq, Prod.mk.injEq]
  constructor
  · intro found
    obtain ⟨read, configured, answer, looked, package, canonicalOrg, rfl, access, authorized,
      row, stored, value, rfl, manifest, parsed, _, named, document, written, rfl, rfl⟩ := found
    exact ⟨read, package, canonicalOrg, value, manifest, configured, looked, authorized, stored,
      parsed, named, written⟩
  · intro found
    obtain ⟨read, package, canonicalOrg, value, manifest, configured, looked, authorized, stored,
      parsed, named, written⟩ := found
    exact ⟨read, configured, _, looked, package, canonicalOrg, rfl, access, authorized, _,
      stored, value, rfl, manifest, parsed, (), named, document, written, rfl, rfl⟩

theorem loaded_public {state : GraphState I} {authorization : Option String}
    {target : GraphTarget} {document : DependencyGraphDocument}
    (found : loaded server state authorization target = .ok (document, .publicGraph))
    (other : Option String) :
    loaded server state other target = .ok (document, .publicGraph) := by
  rw [loaded_ok] at found ⊢
  obtain ⟨read, package, canonicalOrg, value, manifest, configured, looked, authorized, rest⟩ :=
    found
  exact ⟨read, package, canonicalOrg, value, manifest, configured, looked,
    authorize_public authorized other, rest⟩

theorem compute_public {state : GraphState I} {authorization : Option String}
    {accept : List (Option String)} {target : GraphTarget} {computed : Computation}
    (found : compute server state authorization accept target = .ok computed)
    (opened : computed.access = .publicGraph) (other : Option String) :
    compute server state other accept target = .ok computed := by
  obtain ⟨selected, select, found⟩ := bind_ok.mp found
  obtain ⟨⟨document, access⟩, load, found⟩ := bind_ok.mp found
  obtain ⟨body, encoded, found⟩ := bind_ok.mp found
  obtain ⟨metadata, described, found⟩ := bind_ok.mp found
  obtain rfl := Except.ok.inj found
  obtain rfl := opened
  exact bind_ok.mpr ⟨selected, select, bind_ok.mpr ⟨_, loaded_public server load other,
    bind_ok.mpr ⟨body, encoded, bind_ok.mpr ⟨metadata, described, rfl⟩⟩⟩⟩

/-! ### Kept answers -/

theorem compute_representation {first second : GraphState I} {early late : Option String}
    {accept : List (Option String)} {target : GraphTarget} {left right : Computation}
    (before : compute server first early accept target = .ok left)
    (after : compute server second late accept target = .ok right) :
    left.representation = right.representation := by
  obtain ⟨selected, select, before⟩ := bind_ok.mp before
  obtain ⟨_, _, before⟩ := bind_ok.mp before
  obtain ⟨_, _, before⟩ := bind_ok.mp before
  obtain ⟨_, _, before⟩ := bind_ok.mp before
  obtain ⟨selected', select', after⟩ := bind_ok.mp after
  obtain ⟨_, _, after⟩ := bind_ok.mp after
  obtain ⟨_, _, after⟩ := bind_ok.mp after
  obtain ⟨_, _, after⟩ := bind_ok.mp after
  obtain rfl := Except.ok.inj before
  obtain rfl := Except.ok.inj after
  rw [select] at select'
  obtain rfl := Except.ok.inj select'
  rfl

/-- A kept public answer fits the unconditional requests for the same target that accept
the same. -/
theorem fits_public {stored request : GraphQuery} {computed : Computation}
    (described : Described server.contract computed) (opened : computed.access = .publicGraph)
    (fits : graphHttp.fits stored computed.whole request = true) :
    stored.target = request.target ∧ request.headers.ifNoneMatch = [] ∧
      stored.headers.accept = request.headers.accept := by
  obtain ⟨disposition, length, graphDigest, authoritative, metadata⟩ := described
  have varies : computed.whole.headers.lookup "vary" = some "Accept" := by
    unfold Computation.whole
    rw [metadata, opened]
    rfl
  have names : SharedCache.members "Accept" = ["accept".toList] := by decide +kernel
  have onAccept (query : GraphQuery) : queryField query "accept" = query.headers.accept := rfl
  have onCondition (query : GraphQuery) :
      queryField query "if-none-match" = query.headers.ifNoneMatch := rfl
  unfold SharedCache.Http.fits graphHttp at fits
  simp only [varies, Option.elim_some, names, List.all_cons, List.all_nil, Bool.and_true,
    String.ofList_toList, onAccept, onCondition, Bool.and_eq_true, decide_eq_true_eq,
    List.isEmpty_iff] at fits
  exact ⟨fits.1.1, fits.1.2, fits.2.2⟩

/-- What may be kept is what anyone gets who asks for the same. -/
theorem kept_for_anyone {state : GraphState I} {stored request : GraphQuery}
    (storable : graphHttp.mayStore stored (graphAnswer server state stored) = true)
    (fits : graphHttp.fits stored (graphAnswer server state stored) request = true)
    (authorization : Option String) :
    graphAnswer server state (request.withAuthorization authorization) =
      graphAnswer server state stored := by
  obtain ⟨computed, found, opened, typed, whole⟩ := storable_public server storable
  rw [whole] at fits ⊢
  obtain ⟨target, unconditional, accept⟩ :=
    fits_public server (compute_described server found) opened fits
  rw [target, accept] at found
  exact graphAnswer_whole server (compute_public server found opened authorization) typed
    unconditional

/-! ### Asking about a kept answer -/

theorem own_tag_matched {digest other : String} (plain : Unquoted digest)
    (matched : ifNoneMatchMatches [some (quotedEtag digest)] (quotedEtag other) = true) :
    other = digest := by
  have letters (text : String) : (quotedEtag text).toList = quoted [] text.toList := by
    simp [quotedEtag, quoted]
  obtain ⟨text, sent, piece, member, matched⟩ := (ifNoneMatchMatches_iff _ _).mp matched
  obtain rfl := Option.some.inj (List.mem_singleton.mp sent)
  have whole : (quoted [] digest.toList).splitOn ',' = [quoted [] digest.toList] := by
    apply List.splitOn_eq_singleton
    simp [quoted, plain.2]
  rw [letters, whole] at member
  obtain rfl := List.mem_singleton.mp member
  rw [letters] at matched
  have trimmed : trimText (quoted [] digest.toList) = quoted [] digest.toList := by
    have first : Delimiters.Stops Char.isWhitespace (quoted [] digest.toList) :=
      Delimiters.stops_cons quote_visible
    have last : Delimiters.Stops Char.isWhitespace (quoted [] digest.toList).reverse := by
      rw [quoted, List.nil_append, ← List.cons_append, List.reverse_concat']
      exact Delimiters.stops_cons quote_visible
    have between := @trimText_between [] _ [] (List.forall_mem_nil _) (List.forall_mem_nil _)
      first last (by simp [quoted])
    rwa [List.nil_append, List.append_nil] at between
  rcases matched.cases with star | ⟨weak, same⟩
  · rw [trimmed] at star
    simp [quoted] at star
  · rw [trimmed] at same
    exact String.toList_injective (@quoted_injective false weak _ _ same).symm

theorem updated_whole {kept current : Computation}
    (before : Described server.contract kept) (now : Described server.contract current)
    (same : kept.representation = current.representation) (body : kept.body = current.body) :
    graphHttp.rules.refreshed kept.whole ⟨304, current.metadata, []⟩ = current.whole := by
  obtain ⟨_, _, _, _, keptMetadata⟩ := before
  obtain ⟨_, _, _, _, metadata⟩ := now
  have names := server.ownNames
  unfold SharedCache.Http.rules Computation.whole graphHttp SharedCache.updated
  simp only [same, body, keptMetadata, metadata]
  simp [names.1.symm, names.2.symm]

/-- The request on condition that the digest is not that of the body. -/
def GraphQuery.unless (request : GraphQuery) (digest : String) : GraphQuery :=
  { request with headers := { request.headers with ifNoneMatch := [some (quotedEtag digest)] } }

/-- A kept graph that is current, with the metadata of the 304, is what the origin would
answer without the condition. -/
theorem refreshed_current (ideal : CollisionFree I.sha256)
    (plain : ∀ bytes, Unquoted (I.sha256 bytes)) {before now : GraphState I} {early : Option String}
    {request : GraphQuery} {kept : Computation}
    (found : compute server before early request.headers.accept request.target = .ok kept)
    (typed : Typed server.contract kept) (unconditional : request.headers.ifNoneMatch = [])
    (current : (graphAnswer server now (request.unless (I.sha256 kept.body))).status = 304) :
    graphHttp.rules.refreshed kept.whole
        (graphAnswer server now (request.unless (I.sha256 kept.body))) =
      graphAnswer server now request := by
  obtain ⟨computed, again, matched, answered⟩ := routed_notModified server current
  change compute server now request.headers.authorization request.headers.accept request.target =
    .ok computed at again
  have body : kept.body = computed.body :=
    (ideal.injective (own_tag_matched (plain _) matched)).symm
  have same := compute_representation server found again
  have typed' : Typed server.contract computed := by
    unfold Typed at typed ⊢
    rw [← same]
    exact typed
  have notModified : graphAnswer server now (request.unless (I.sha256 kept.body)) =
      ⟨304, computed.metadata, []⟩ := by
    unfold graphAnswer
    rw [answered]
    rfl
  rw [notModified, updated_whole server (compute_described server found)
    (compute_described server again) same body, graphAnswer_whole server again typed' unconditional]

/-- An answer that is not a 304 does not depend on the condition. -/
theorem unless_changed {now : GraphState I} {request : GraphQuery} {digest : String}
    (unconditional : request.headers.ifNoneMatch = [])
    (changed : (graphAnswer server now (request.unless digest)).status ≠ 304) :
    graphAnswer server now (request.unless digest) = graphAnswer server now request := by
  have routedUnless : routed server now (request.unless digest).headers request.target =
      compute server now request.headers.authorization request.headers.accept request.target >>=
        finish server.contract [some (quotedEtag digest)] := routed_eq server now _ _
  have routedPlain : routed server now request.headers request.target =
      compute server now request.headers.authorization request.headers.accept request.target >>=
        finish server.contract [] := by
    rw [routed_eq, unconditional]
  unfold graphAnswer at changed ⊢
  change (intoResponse _ (routed server now (request.unless digest).headers request.target)).status
    ≠ 304 at changed
  change intoResponse _ (routed server now (request.unless digest).headers request.target) = _
  rw [routedUnless] at changed ⊢
  rw [routedPlain]
  cases again : compute server now request.headers.authorization request.headers.accept
      request.target with
  | error error => rfl
  | ok computed =>
      rw [again] at changed
      have unmatched : ifNoneMatchMatches [some (quotedEtag digest)]
          (quotedEtag (I.sha256 computed.body)) = false := by
        by_contra matched
        refine changed ?_
        change (intoResponse _ (finish _ _ computed)).status = 304
        unfold finish
        rw [if_pos (Bool.eq_true_of_not_eq_false matched)]
        rfl
      have free : ifNoneMatchMatches [] (quotedEtag (I.sha256 computed.body)) = false := rfl
      change intoResponse server.errorBody
          (finish server.contract [some (quotedEtag digest)] computed) =
        intoResponse server.errorBody (finish server.contract [] computed)
      unfold finish
      rw [unmatched, free]

/-- To ask about a kept graph comes to the same as to fetch it again. -/
theorem graphs_validate (ideal : CollisionFree I.sha256)
    (plain : ∀ bytes, Unquoted (I.sha256 bytes)) (possible : GraphState I → Prop) :
    SharedCache.Validates graphHttp.rules (graphAnswer server) possible := by
  intro before now stored request _ _ storable fits
  obtain ⟨kept, found, opened, typed, whole⟩ := storable_public server storable
  change graphHttp.fits stored (graphAnswer server before stored) request = true at fits
  have described := compute_described server found
  rw [whole] at fits ⊢
  obtain ⟨target, unconditional, accept⟩ := fits_public server described opened fits
  rw [target, accept] at found
  have condition : graphHttp.rules.conditional kept.whole request =
      request.unless (I.sha256 kept.body) := by
    change (kept.whole.headers.lookup "etag").elim request _ = _
    rw [etag_of_whole server described]
    rfl
  unfold SharedCache.revalidate
  rw [condition]
  by_cases current :
      graphHttp.rules.notModified (graphAnswer server now (request.unless (I.sha256 kept.body))) =
        true
  · rw [if_pos current]
    exact refreshed_current server ideal plain found typed unconditional
      (of_decide_eq_true current)
  · rw [if_neg current]
    exact unless_changed server unconditional fun status => current (decide_eq_true status)

/-! ## Published versions -/

/-- The manifest of a version is the recorded one in every state that finds the version. -/
structure Records (registryId : String) (record : String → String → String → Option I.Value)
    (state : GraphState I) : Prop where
  registry : state.registryId = registryId
  manifest : ∀ read org name package canonicalOrg version value,
    state.registryRead = some read →
    read.packageByOrgAndName org name = .ok (some (package, canonicalOrg)) →
    read.packageVersion package.id version = .ok (some value) →
    record org name version = some value

theorem loaded_recorded {registryId : String}
    {record : String → String → String → Option I.Value} {first second : GraphState I}
    (earlier : Records registryId record first) (later : Records registryId record second)
    {early late : Option String} {target : GraphTarget} {left right : DependencyGraphDocument}
    {leftAccess rightAccess : DeclaredGraphAccess}
    (before : loaded server first early target = .ok (left, leftAccess))
    (after : loaded server second late target = .ok (right, rightAccess)) : left = right := by
  obtain ⟨read, package, canonicalOrg, value, manifest, configured, looked, _, stored, parsed, _,
    written⟩ := (loaded_ok server).mp before
  obtain ⟨read', package', canonicalOrg', value', manifest', configured', looked', _, stored',
    parsed', _, written'⟩ := (loaded_ok server).mp after
  have recorded := earlier.manifest _ _ _ _ _ _ _ configured looked stored
  rw [later.manifest _ _ _ _ _ _ _ configured' looked' stored'] at recorded
  obtain rfl := Option.some.inj recorded
  rw [parsed] at parsed'
  obtain rfl := Option.some.inj parsed'
  rw [earlier.registry] at written
  rw [later.registry, written] at written'
  exact Except.ok.inj written'

theorem compute_recorded {registryId : String}
    {record : String → String → String → Option I.Value} {first second : GraphState I}
    (earlier : Records registryId record first) (later : Records registryId record second)
    {early late : Option String} {accept : List (Option String)} {target : GraphTarget}
    {left right : Computation}
    (before : compute server first early accept target = .ok left)
    (after : compute server second late accept target = .ok right) : left.body = right.body := by
  obtain ⟨selected, select, before⟩ := bind_ok.mp before
  obtain ⟨found, load, before⟩ := bind_ok.mp before
  obtain ⟨body, encoded, before⟩ := bind_ok.mp before
  obtain ⟨_, _, before⟩ := bind_ok.mp before
  obtain ⟨selected', select', after⟩ := bind_ok.mp after
  obtain ⟨found', load', after⟩ := bind_ok.mp after
  obtain ⟨body', encoded', after⟩ := bind_ok.mp after
  obtain ⟨_, _, after⟩ := bind_ok.mp after
  obtain rfl := Except.ok.inj before
  obtain rfl := Except.ok.inj after
  rw [select] at select'
  obtain rfl := Except.ok.inj select'
  rw [loaded_recorded server earlier later load load', encoded'] at encoded
  exact (Except.ok.inj encoded).symm

/-- One representation of one graph, under whatever cache directives. -/
structure SameGraph (left right : Response) : Prop where
  status : left.status = right.status
  body : left.body = right.body
  etag : left.headers.lookup "etag" = right.headers.lookup "etag"
  contentType : left.headers.lookup "content-type" = right.headers.lookup "content-type"

theorem sameGraph_whole {left right : Computation} (before : Described server.contract left)
    (now : Described server.contract right) (same : left.representation = right.representation)
    (body : left.body = right.body) : SameGraph left.whole right.whole where
  status := rfl
  body := body
  etag := by rw [etag_of_whole server before, etag_of_whole server now, body]
  contentType := by
    rw [contentType_of_whole server before, contentType_of_whole server now, same]

/-- An answer of status 200 to an unconditional request is a whole one. -/
theorem whole_of_status {state : GraphState I} {query : GraphQuery}
    (status : (graphAnswer server state query).status = 200) :
    ∃ computed, compute server state query.headers.authorization query.headers.accept
        query.target = .ok computed ∧ graphAnswer server state query = computed.whole := by
  unfold graphAnswer at status ⊢
  rw [routed_eq] at status ⊢
  cases found : compute server state query.headers.authorization query.headers.accept
      query.target with
  | error error =>
      have refusal : 400 ≤ error.status := failsOnly_compute server state _ _ _ error found
      rw [found] at status
      change error.status = 200 at status
      omega
  | ok computed =>
      rw [found] at status
      change (intoResponse server.errorBody (finish server.contract query.headers.ifNoneMatch
        computed)).status = 200 at status
      change ∃ other, Except.ok computed = Except.ok other ∧
        intoResponse server.errorBody (finish server.contract query.headers.ifNoneMatch computed) =
          other.whole
      unfold finish at status ⊢
      split at status
      next => cases status
      next unmatched =>
        rw [if_neg unmatched]
        cases typed : headerValue server.contract "content-type"
            computed.representation.mediaType with
        | error error =>
            have refusal : 400 ≤ error.status := failsOnly_headerValue _ _ _ error typed
            rw [typed] at status
            change error.status = 200 at status
            omega
        | ok contentType =>
            obtain rfl := headerValue_ok typed
            exact ⟨computed, rfl, rfl⟩

/-- What may be kept is the graph that anyone who is answered still gets. -/
theorem kept_still_served {registryId : String}
    {record : String → String → String → Option I.Value} {before now : GraphState I}
    (earlier : Records registryId record before) (later : Records registryId record now)
    {stored request : GraphQuery}
    (storable : graphHttp.mayStore stored (graphAnswer server before stored) = true)
    (fits : graphHttp.fits stored (graphAnswer server before stored) request = true)
    (served : (graphAnswer server now request).status = 200) :
    SameGraph (graphAnswer server now request) (graphAnswer server before stored) := by
  obtain ⟨kept, found, opened, _, whole⟩ := storable_public server storable
  have described := compute_described server found
  rw [whole] at fits ⊢
  obtain ⟨target, -, accept⟩ := fits_public server described opened fits
  rw [target, accept] at found
  obtain ⟨computed, again, answered⟩ := whole_of_status server served
  rw [answered]
  exact sameGraph_whole server (compute_described server again) described
    (compute_representation server again found)
    (compute_recorded server later earlier again found)

end Server

open SharedCache in
/-- Behind a shared cache that obeys their directives, in any run: what did not come out of
the store is the registry's own answer of that moment, also where it was put together from a
kept graph; and what came out of the store is what the registry answered anyone at an earlier
moment, and the graph the client would get if it is served at all. -/
theorem graphs_cached_faithfully {I : Interfaces} (server : GraphServer I)
    (ideal : CollisionFree I.sha256) (plain : ∀ bytes, Unquoted (I.sha256 bytes))
    (registryId : String) (record : String → String → String → Option I.Value)
    {start : GraphState I} (recorded : Records registryId record start)
    {events : List (CacheEvent (GraphState I) GraphQuery)}
    {final : CacheState (GraphState I) GraphQuery Response}
    (within : ∀ state, .changed state ∈ events → Records registryId record state)
    (run : Execution.exec (cacheStep graphHttp.rules (graphAnswer server)) (.initial start)
      events = some final) :
    ∀ delivery ∈ final.delivered,
      (delivery.source ≠ .store →
        delivery.answer = graphAnswer server delivery.world delivery.request) ∧
      (delivery.source = .store →
        (∃ state ∈ delivery.past, ∀ authorization,
          graphAnswer server state (delivery.request.withAuthorization authorization) =
            delivery.answer) ∧
        ((graphAnswer server delivery.world delivery.request).status = 200 →
          SameGraph (graphAnswer server delivery.world delivery.request) delivery.answer)) := by
  intro delivery member
  obtain ⟨faithful, worlds⟩ := (run_genuine (graphs_validate server ideal plain _) recorded within
    run).delivered delivery member
  refine ⟨faithful.asked, fun fromStore => ?_⟩
  obtain ⟨stored, ⟨state, before, answered, storable⟩, fits, -⟩ := faithful.stored fromStore
  dsimp only at answered storable
  rw [← answered] at storable fits ⊢
  exact ⟨⟨state, before, kept_for_anyone server storable fits⟩,
    kept_still_served server (worlds state before) (worlds _ faithful.present) storable fits⟩

/-! ## A package that is withdrawn -/

namespace CachingSample

/-- The digest of the sample document, and no two alike for everything else. -/
def spreadHash (bytes : Bytes) : String :=
  if bytes = asBytes sampleContract.schema then ConditionalSample.bodyHash
  else String.ofList ('#' :: bytes.map fun byte => Char.ofNat (byte.toNat + 256))

theorem toNat_spread (byte : UInt8) : (Char.ofNat (byte.toNat + 256)).toNat = byte.toNat + 256 := by
  have small := byte.toNat_lt
  have valid : (byte.toNat + 256).isValidChar := Or.inl (by omega)
  rw [Char.ofNat, dif_pos valid]
  rfl

theorem spread_injective (early late : Bytes)
    (same : early.map (fun byte => Char.ofNat (byte.toNat + 256)) =
      late.map fun byte => Char.ofNat (byte.toNat + 256)) : early = late := by
  refine List.map_injective_iff.mpr ?_ same
  intro left right equal
  have numbers := congrArg Char.toNat equal
  rw [toNat_spread, toNat_spread] at numbers
  exact UInt8.toNat_inj.mp (Nat.add_right_cancel numbers)

theorem spreadHash_head {bytes : Bytes} (other : bytes ≠ asBytes sampleContract.schema) :
    (spreadHash bytes).toList = '#' :: bytes.map fun byte => Char.ofNat (byte.toNat + 256) := by
  unfold spreadHash
  rw [if_neg other, String.toList_ofList]

theorem spreadHash_schema : (spreadHash (asBytes sampleContract.schema)).toList.head? = some '4' := by
  unfold spreadHash
  rw [if_pos rfl]
  decide +kernel

theorem spreadHash_collisionFree : CollisionFree spreadHash where
  injective := by
    intro left right same
    have letters := congrArg String.toList same
    by_cases first : left = asBytes sampleContract.schema
    · by_cases second : right = asBytes sampleContract.schema
      · exact first.trans second.symm
      · have heads := congrArg List.head? letters
        rw [first, spreadHash_schema, spreadHash_head second] at heads
        cases heads
    · by_cases second : right = asBytes sampleContract.schema
      · have heads := congrArg List.head? letters
        rw [second, spreadHash_schema, spreadHash_head first] at heads
        cases heads
      · rw [spreadHash_head first, spreadHash_head second] at letters
        exact spread_injective left right (List.cons.inj letters).2
  nonempty := by
    intro bytes empty
    have letters := congrArg String.toList empty
    by_cases schema : bytes = asBytes sampleContract.schema
    · have heads := congrArg List.head? letters
      rw [schema, spreadHash_schema] at heads
      cases heads
    · rw [spreadHash_head schema] at letters
      cases letters

theorem spreadHash_unquoted (bytes : Bytes) : Unquoted (spreadHash bytes) := by
  by_cases schema : bytes = asBytes sampleContract.schema
  · apply unquoted_of_hex
    unfold spreadHash
    rw [if_pos schema]
    decide +kernel
  · have absent (char : Char) (low : char.toNat < 256) (other : char ≠ '#') :
        char ∉ (spreadHash bytes).toList := by
      rw [spreadHash_head schema]
      intro member
      rcases List.mem_cons.mp member with here | member
      · exact other here
      · obtain ⟨byte, _, same⟩ := List.mem_map.mp member
        have number := toNat_spread byte
        rw [same] at number
        omega
    exact ⟨absent '"' (by decide) (by decide), absent ',' (by decide) (by decide)⟩

def interfaces : Interfaces := { Interfaces.sample [] [] with sha256 := spreadHash }

def contract : GraphContract interfaces where
  schema := sampleContract.schema
  maxNodes := sampleContract.maxNodes
  maxEdges := sampleContract.maxEdges
  maxEncodedBytes := sampleContract.maxEncodedBytes
  digestHeader := sampleContract.digestHeader
  authoritativeHeader := sampleContract.authoritativeHeader
  validHeaderValue := sampleContract.validHeaderValue
  manifestFromValue := sampleContract.manifestFromValue
  dependencies := sampleContract.dependencies
  buildDependencies := sampleContract.buildDependencies
  validVersion := sampleContract.validVersion
  finalize := sampleContract.finalize
  verifyDigest := sampleContract.verifyDigest
  canonicalDocumentBytes := sampleContract.canonicalDocumentBytes

def server : GraphServer interfaces where
  contract := contract
  formats := sampleFormats
  renderers := {
    yaml := .ok
    toml := .ok
    dot _ := .ok []
    mermaid _ := .ok []
    xml _ := .ok []
    csv _ := .ok []
    messagePack := .ok
    protobuf _ := [] }
  errorBody error := asBytes error.message
  ownNames := by decide +kernel
  refusals canonical document := ⟨failsOnly_ok canonical, failsOnly_ok canonical,
    failsOnly_ok canonical, failsOnly_ok [], failsOnly_ok [], failsOnly_ok [], failsOnly_ok []⟩

def stored : interfaces.Value := .manifest ⟨samplePackage, []⟩

/-- A registry with one package, of the given visibility. -/
def registry (visibility : String) : GraphState interfaces where
  registryId := "registry:registry.zpkg.net"
  registryRead := some {
    packagesForArtifactSha256 _ := .ok []
    userBySubject _ _ := .ok none
    orgRoleForUser _ _ := .ok none
    projectRoleForUser _ _ := .ok none
    packageByOrgAndName _ _ := .ok (some (⟨⟨"package"⟩, none, visibility⟩, sampleOrg))
    packageVersion _ _ := .ok (some stored) }
  tokens _ := .ok none
  now := sampleTime
  orgs := [acme]
  sharedAuth := none
  applicationId := "zpkg-web"

theorem registry_recorded (visibility : String) :
    Records "registry:registry.zpkg.net" (fun _ _ _ => some stored) (registry visibility) where
  registry := rfl
  manifest := by
    intro read org name package canonicalOrg version value configured _ found
    obtain rfl := Option.some.inj configured
    exact Except.ok.inj found

def reads (authorization : Option String) : GraphQuery :=
  ⟨.declared ConditionalSample.request, ⟨authorization, [], []⟩⟩

/-- The graph is read, read from the store, asked about, and gone when it is private. -/
def events : List (SharedCache.CacheEvent (GraphState interfaces) GraphQuery) :=
  [.forwarded (reads none), .reused 0 (reads (some "Bearer other")), .revalidated 0 (reads none),
    .changed (registry "private"), .forwarded (reads none)]

end CachingSample

open SharedCache CachingSample in
theorem graphs_cached_faithfully_sample :
    ∃ final, Execution.exec (cacheStep graphHttp.rules (graphAnswer server))
        (.initial (registry "public")) events = some final ∧
      final.delivered.map (fun delivery => (delivery.source, delivery.answer.status)) =
        [(.origin, 404), (.validated, 200), (.store, 200), (.origin, 200)] ∧
      ∀ delivery ∈ final.delivered, delivery.source ≠ .store →
        delivery.answer = graphAnswer server delivery.world delivery.request := by
  have seen : (Execution.exec (cacheStep graphHttp.rules (graphAnswer server))
      (.initial (registry "public")) events).map (fun final =>
        final.delivered.map fun delivery => (delivery.source, delivery.answer.status)) =
      some [(.origin, 404), (.validated, 200), (.store, 200), (.origin, 200)] := by
    decide +kernel
  obtain ⟨final, run, delivered⟩ := Option.map_eq_some_iff.mp seen
  have within (state : GraphState interfaces) (member : .changed state ∈ events) :
      Records "registry:registry.zpkg.net" (fun _ _ _ => some stored) state := by
    simp only [events, List.mem_cons, reduceCtorEq, CacheEvent.changed.injEq, List.not_mem_nil,
      false_or, or_false] at member
    rw [member]
    exact registry_recorded "private"
  exact ⟨final, run, delivered, fun delivery member =>
    (graphs_cached_faithfully server spreadHash_collisionFree spreadHash_unquoted _ _
      (registry_recorded "public") within run delivery member).1⟩

end GraphCaching

end ZedRegistry
