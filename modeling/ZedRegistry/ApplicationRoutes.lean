import ZedRegistry.Lib.RouteTemplates
import ZedRegistry.RegistryHost

/-!
# The routes of the application

The three routers that `server.rs` merges, each route with its template and the handlers
of its methods.
-/

set_option autoImplicit false

namespace ZedRegistry.RegistryHost

open RouteTemplates

/-- A template and, for each method it serves, the handler. -/
structure Endpoint where
  template : String
  handlers : List (String × String)
  deriving DecidableEq

def get (handler : String) : List (String × String) := [("GET", handler)]

def post (handler : String) : List (String × String) := [("POST", handler)]

def put (handler : String) : List (String × String) := [("PUT", handler)]

def patch (handler : String) : List (String × String) := [("PATCH", handler)]

/-- A handler of `GET` answers `HEAD` as well; without a handler the answer is 405. -/
def Endpoint.handler (endpoint : Endpoint) (method : String) : Option String :=
  endpoint.handlers.lookup (if method = "HEAD" then "GET" else method)

/-! ## Templates -/

def piece : List Char → Piece Char
  | '{' :: '*' :: _ => .tail
  | '{' :: _ => .parameter
  | text => .fixed text

def pieces (template : String) : List (Piece Char) :=
  ((template.toList.drop 1).splitOn '/').map piece

/-- Templates are matched against the whole path, a trailing slash included. -/
def Endpoint.accepts (endpoint : Endpoint) (path : String) : Bool :=
  match path.toList with
  | '/' :: body => covers (pieces endpoint.template) (body.splitOn '/')
  | _ => false

/-- `nest` puts its prefix before the templates of the inner router. -/
def nest (front : String) (endpoints : List Endpoint) : List Endpoint :=
  endpoints.map fun endpoint => { endpoint with template := front ++ endpoint.template }

/-! ## `routes::router` -/

def ROUTE_PACKAGE : String := "/v1/packages/\x7borg\x7d/\x7bname\x7d"
def ROUTE_VERSION : String := ROUTE_PACKAGE ++ "/versions/\x7bversion\x7d"
def ROUTE_YANK : String := ROUTE_VERSION ++ "/yank"
def ROUTE_ARTIFACT : String := "/v1/artifacts/\x7bsha256\x7d"
def ROUTE_SEARCH : String := "/v1/search"
def ROUTE_PACKAGES_LIST : String := "/v1/packages"
def ROUTE_SEMANTIC : String := "/v1/search/semantic"
def ROUTE_EMBEDDING : String := ROUTE_PACKAGE ++ "/embedding"
def ROUTE_ORGS : String := "/v1/orgs"
def ROUTE_ORG_KEYS : String := "/v1/orgs/\x7borg\x7d/keys"
def ROUTE_MIRRORS : String := "/v1/mirrors"
def ROUTE_SIGNED_INDEX : String := ROUTE_PACKAGE ++ "/signed-index"
def ROUTE_AUDIT : String := "/v1/orgs/\x7borg\x7d/audit"
def ROUTE_AUDIT_VERIFY : String := "/v1/orgs/\x7borg\x7d/audit/verify"
def ROUTE_FILES : String :=
  "/v1/files/\x7borg\x7d/\x7bname\x7d/\x7bversion\x7d/\x7b*path\x7d"
def ROUTE_STORAGE_STATUS : String := "/v1/storage/status"
def ROUTE_STORAGE_ARTIFACT : String := "/v1/storage/artifacts/\x7bsha256\x7d"
def ROUTE_DECLARED_GRAPH : String := ROUTE_VERSION ++ "/dependency-graph"
/-- The contract's template, as the handler documents it and the route test fills it. -/
def ROUTE_DECLARED_GRAPH_EXPORT : String := ROUTE_DECLARED_GRAPH ++ "/export/\x7bformat\x7d"
def ROUTE_RESOLUTION_GRAPH : String :=
  "/v1/resolutions/\x7bresolution_digest\x7d/dependency-graph"

/-- The endpoint behind a name of the boundary. -/
def RouteName.endpoint : RouteName → Endpoint
  | .healthz => ⟨"/healthz", get "healthz"⟩
  | .listPackages => ⟨ROUTE_PACKAGES_LIST, get "list::list_packages"⟩
  | .getPackage => ⟨ROUTE_PACKAGE, get "packages::get_package"⟩
  | .version => ⟨ROUTE_VERSION, get "packages::get_version" ++ put "publish::publish"⟩
  | .yank => ⟨ROUTE_YANK, post "yank::yank"⟩
  | .embedding => ⟨ROUTE_EMBEDDING, put "semantic::upsert_embedding"⟩
  | .declaredGraph => ⟨ROUTE_DECLARED_GRAPH, get "graph::get_declared_graph"⟩
  | .declaredGraphExport =>
    ⟨ROUTE_DECLARED_GRAPH_EXPORT, get "graph_exports::get_declared_graph_export"⟩
  | .artifact => ⟨ROUTE_ARTIFACT, get "artifacts::get_artifact"⟩
  | .files => ⟨ROUTE_FILES, get "artifacts::get_file"⟩
  | .search => ⟨ROUTE_SEARCH, get "search::search"⟩
  | .semanticSearch => ⟨ROUTE_SEMANTIC, post "semantic::semantic_search"⟩
  | .claimOrg => ⟨ROUTE_ORGS, post "orgs::claim_org"⟩
  | .audit => ⟨ROUTE_AUDIT, get "audit::get_audit_log"⟩
  | .auditVerify => ⟨ROUTE_AUDIT_VERIFY, get "audit::verify_audit_log"⟩
  | .resolutionGraph => ⟨ROUTE_RESOLUTION_GRAPH, get "graph::get_resolution_graph"⟩

def artifactRoutes : List Endpoint := [RouteName.artifact.endpoint, RouteName.files.endpoint]

def graphRoutes : List Endpoint :=
  [RouteName.declaredGraph.endpoint, RouteName.declaredGraphExport.endpoint,
   RouteName.resolutionGraph.endpoint]

def storageRoutes : List Endpoint :=
  [⟨ROUTE_STORAGE_STATUS, get "storage::status"⟩,
   ⟨ROUTE_STORAGE_ARTIFACT, get "storage::artifact"⟩]

def publishRoute : List Endpoint := [RouteName.version.endpoint]

/-- The routes of `routes::router` that the boundary has no name for, the bootstrap apart. -/
def unnamedRoutes : List Endpoint :=
  [⟨ROUTE_ORG_KEYS, get "keys::get_keys" ++ put "keys::put_keys"⟩,
   ⟨ROUTE_MIRRORS, get "mirrors::get_mirrors"⟩,
   ⟨ROUTE_SIGNED_INDEX, get "mirrors::get_signed_index" ++ put "mirrors::put_signed_index"⟩]

/-- The trees in which the machine-registry routes live. -/
def resourceRoots : List (List (List Char)) :=
  [["healthz"], ["v1", "packages"], ["v1", "artifacts"], ["v1", "files"], ["v1", "search"],
   ["v1", "orgs"], ["v1", "resolutions"]].map fun root => root.map String.toList

/-- The path at which every kind of mirror serves its bootstrap document: a constant of the
contract, without parameters and outside the trees of the registry's own resources. -/
structure BootstrapPath where
  segments : List (List Char)
  literal : ∀ segment ∈ segments, '/' ∉ segment ∧ segment.head? ≠ some '{'
  nonempty : segments ≠ []
  outside : ∀ root ∈ resourceRoots, ¬ root <+: segments

def BootstrapPath.path (bootstrap : BootstrapPath) : String :=
  String.ofList ('/' :: ['/'].intercalate bootstrap.segments)

def BootstrapPath.endpoint (bootstrap : BootstrapPath) : Endpoint :=
  ⟨bootstrap.path, get "mirrors::get_bootstrap"⟩

def registryRouter (bootstrap : BootstrapPath) : List Endpoint :=
  [RouteName.healthz.endpoint, RouteName.listPackages.endpoint, RouteName.getPackage.endpoint,
   RouteName.embedding.endpoint, RouteName.yank.endpoint, RouteName.search.endpoint,
   RouteName.semanticSearch.endpoint, RouteName.claimOrg.endpoint] ++
    unnamedRoutes ++ [bootstrap.endpoint] ++
    [RouteName.audit.endpoint, RouteName.auditVerify.endpoint] ++
    artifactRoutes ++ graphRoutes ++ storageRoutes ++ publishRoute

/-! ## `account_router::router` -/

def ACCOUNT_ORG : String := "/account/orgs/\x7borg\x7d"
def ACCOUNT_PACKAGE : String := ACCOUNT_ORG ++ "/packages/\x7bpackage\x7d"
def ACCOUNT_PROJECT : String := ACCOUNT_ORG ++ "/projects/\x7bproject\x7d"

def accountRoutes : List Endpoint :=
  [⟨"/auth/config", get "account::auth_config"⟩,
   ⟨"/auth/exchange", post "account::exchange_supabase"⟩,
   ⟨"/account/me", get "account::me" ++ put "account::update_user_settings"⟩,
   ⟨"/account/home", get "account::home"⟩,
   ⟨"/account/search", get "account::search"⟩,
   ⟨"/account/orgs", post "account::create_org"⟩,
   ⟨ACCOUNT_ORG, get "account::org_dashboard"⟩,
   ⟨ACCOUNT_ORG ++ "/invitations", post "account::invite_org_member"⟩,
   ⟨ACCOUNT_ORG ++ "/projects", post "account::create_project"⟩,
   ⟨ACCOUNT_PROJECT, get "account::project_settings"⟩,
   ⟨ACCOUNT_PROJECT ++ "/invitations", post "account::invite_project_member"⟩,
   ⟨ACCOUNT_ORG ++ "/packages", post "account::create_package"⟩,
   ⟨ACCOUNT_PACKAGE ++ "/settings", get "account::package_settings" ++
      put "account::update_package_settings" ++ patch "account::update_package_settings"⟩,
   ⟨ACCOUNT_PACKAGE ++ "/public", post "account::make_package_public"⟩,
   ⟨ACCOUNT_PACKAGE ++ "/licenses", post "account::add_package_license"⟩,
   ⟨ACCOUNT_PACKAGE ++ "/uploads", post "account::register_package_upload"⟩]

def accountRouter : List Endpoint :=
  nest "/api/v1" accountRoutes ++ nest "/v1" accountRoutes ++
    [⟨"/v1/session/bootstrap", post "account::me"⟩,
     ⟨"/v1/me", get "account::me"⟩,
     ⟨"/v1/me/home", get "account::home"⟩,
     ⟨"/v1/account/orgs/\x7borg\x7d/dashboard", get "account::org_dashboard"⟩,
     ⟨"/v1/account/orgs/\x7borg\x7d/packages/\x7bpackage\x7d", get "account::package_settings"⟩]

/-! ## `api_docs::router` -/

def apiDocsRouter : List Endpoint :=
  [⟨"/.well-known/api-docs", get "discovery"⟩,
   ⟨"/openapi.json", get "openapi"⟩,
   ⟨"/api/docs.json", get "openapi"⟩,
   ⟨"/api/docs", get "docs"⟩,
   ⟨"/docs/api", get "docs"⟩]

/-! ## The application -/

def application (bootstrap : BootstrapPath) : List Endpoint :=
  apiDocsRouter ++ registryRouter bootstrap ++ accountRouter

/-- axum's router over the merged routes: the choice among matching templates is its own. -/
abbrev PathRouter := Router Endpoint String Endpoint.accepts

inductive Served where
  | endpoint (endpoint : Endpoint) (handler : Option String)
  | notFound
  | refused (status : Nat) (allow : Option String)
  deriving DecidableEq

def dispatch (router : PathRouter) (bootstrap : BootstrapPath) (method path : String) : Served :=
  match router.select (application bootstrap) path with
  | some chosen => .endpoint chosen (chosen.handler method)
  | none => .notFound

def enforceRegistryHost (router : PathRouter) (bootstrap : BootstrapPath)
    (host : Option String) (method path : String) : Served :=
  match decide host method path with
  | .bypass | .allow _ _ => dispatch router bootstrap method path
  | .rejectRoute => .refused 404 none
  | .rejectMethod allow => .refused 405 (some allow)

end ZedRegistry.RegistryHost
