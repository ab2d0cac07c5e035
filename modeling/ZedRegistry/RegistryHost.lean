import Mathlib.Data.List.DropRight
import ZedRegistry.Access

/-!
# The registry virtual host

Every host, method and path is bypassed, allowed, or refused for its route or its method
before a handler runs.
-/

set_option autoImplicit false

namespace ZedRegistry.RegistryHost

/-- The names of the machine-registry routes. -/
inductive RouteName where
  | healthz
  | listPackages
  | getPackage
  | version
  | yank
  | embedding
  | declaredGraph
  | declaredGraphExport
  | artifact
  | files
  | search
  | semanticSearch
  | claimOrg
  | audit
  | auditVerify
  | resolutionGraph
  deriving DecidableEq

inductive BoundaryDecision where
  | bypass
  | allow (route : RouteName) (mutating : Bool)
  | rejectRoute
  | rejectMethod (allow : String)
  deriving DecidableEq

structure RouteSpec where
  name : RouteName
  methods : List String
  deriving DecidableEq

def READ : List String := ["GET", "HEAD", "OPTIONS"]

def POST : List String := ["POST", "OPTIONS"]

def PUT : List String := ["PUT", "OPTIONS"]

def VERSION : List String := ["GET", "HEAD", "PUT", "OPTIONS"]

def allowHeader (methods : List String) : String :=
  if methods = READ then "GET, HEAD, OPTIONS"
  else if methods = POST then "POST, OPTIONS"
  else if methods = PUT then "PUT, OPTIONS"
  else if methods = VERSION then "GET, HEAD, PUT, OPTIONS"
  else "OPTIONS"

/-! ## Hosts -/

/-- `rsplit_once`. -/
def rsplitOnce (separator : Char) (text : List Char) : Option (List Char × List Char) :=
  (splitOnce separator text.reverse).map fun parts => (parts.2.reverse, parts.1.reverse)

/-- A port of no digits is stripped as well. -/
def stripPort (host : List Char) : List Char :=
  if host.head? = some '[' then host
  else match rsplitOnce ':' host with
    | some (name, port) => if port.all Char.isDigit then name else host
    | none => host

def trimEndMatches (mark : Char) (text : List Char) : List Char :=
  text.rdropWhile (· == mark)

def isRegistryHost (rawHost : String) : Bool :=
  let host := trimEndMatches '.' (stripPort rawHost.toList)
  host = "registry.zpkg.net".toList ||
    "registry.".toList.isPrefixOf host && ".zpkg.net".toList.isSuffixOf host

/-! ## Segments -/

def byteLength (text : List Char) : Nat := (String.ofList text).utf8ByteSize

def slug (value : List Char) : Bool :=
  value ≠ [] && byteLength value ≤ 128 && (value.splitOn '-').all fun part =>
    part ≠ [] && part.all fun char => char.isLower || char.isDigit

def versionSegment (value : List Char) : Bool :=
  value ≠ [] && byteLength value ≤ 128 && value.all fun char =>
    char.isAlphanum || char = '.' || char = '+' || char = '-'

def isAsciiControl (char : Char) : Bool := char.toNat < 32 || char.toNat = 127

def fileSegment (value : List Char) : Bool :=
  value ≠ [] && value ≠ ['.'] && value ≠ ['.', '.'] && byteLength value ≤ 255 &&
    value.all fun char => !isAsciiControl char

def sha256 (value : List Char) : Bool :=
  byteLength value = 64 && value.all fun char => char.isDigit || 'a' ≤ char && char ≤ 'f'

def resolutionDigest (value : List Char) : Bool :=
  (value.dropPrefix? "sha256:".toList).any sha256

/-! ## Routes -/

/-- What an arm of the match asks of a segment, its guard included; `files` binds the rest. -/
inductive SegmentPattern where
  | word (text : String)
  | slug
  | version
  | digest
  | resolution
  | files
  deriving DecidableEq

def SegmentPattern.admits : SegmentPattern → List Char → Bool
  | .word text, segment => segment = text.toList
  | .slug, segment => RegistryHost.slug segment
  | .version, segment => versionSegment segment
  | .digest, segment => sha256 segment
  | .resolution, segment => resolutionDigest segment
  | .files, segment => fileSegment segment

def matchesSegments : List SegmentPattern → List (List Char) → Bool
  | [], [] => true
  | [.files], rest => rest ≠ [] && rest.all fileSegment
  | pattern :: patterns, segment :: segments =>
    pattern.admits segment && matchesSegments patterns segments
  | _, _ => false

structure Arm where
  pattern : List SegmentPattern
  spec : RouteSpec

/-- The arms of the match, in the order of the source. -/
def arms : List Arm :=
  [⟨[.word "healthz"], ⟨.healthz, READ⟩⟩,
   ⟨[.word "v1", .word "packages"], ⟨.listPackages, READ⟩⟩,
   ⟨[.word "v1", .word "packages", .slug, .slug], ⟨.getPackage, READ⟩⟩,
   ⟨[.word "v1", .word "packages", .slug, .slug, .word "versions", .version],
     ⟨.version, VERSION⟩⟩,
   ⟨[.word "v1", .word "packages", .slug, .slug, .word "versions", .version, .word "yank"],
     ⟨.yank, POST⟩⟩,
   ⟨[.word "v1", .word "packages", .slug, .slug, .word "embedding"], ⟨.embedding, PUT⟩⟩,
   ⟨[.word "v1", .word "packages", .slug, .slug, .word "versions", .version,
      .word "dependency-graph"], ⟨.declaredGraph, READ⟩⟩,
   ⟨[.word "v1", .word "packages", .slug, .slug, .word "versions", .version,
      .word "dependency-graph", .word "export", .slug], ⟨.declaredGraphExport, READ⟩⟩,
   ⟨[.word "v1", .word "artifacts", .digest], ⟨.artifact, READ⟩⟩,
   ⟨[.word "v1", .word "files", .slug, .slug, .version, .files], ⟨.files, READ⟩⟩,
   ⟨[.word "v1", .word "search"], ⟨.search, READ⟩⟩,
   ⟨[.word "v1", .word "search", .word "semantic"], ⟨.semanticSearch, POST⟩⟩,
   ⟨[.word "v1", .word "orgs"], ⟨.claimOrg, POST⟩⟩,
   ⟨[.word "v1", .word "orgs", .slug, .word "audit"], ⟨.audit, READ⟩⟩,
   ⟨[.word "v1", .word "orgs", .slug, .word "audit", .word "verify"], ⟨.auditVerify, READ⟩⟩,
   ⟨[.word "v1", .word "resolutions", .resolution, .word "dependency-graph"],
     ⟨.resolutionGraph, READ⟩⟩]

def refusedPath (path : String) : Bool :=
  path = "" || 2048 < path.utf8ByteSize || containsText path "%" || containsText path ".." ||
    containsText path "\\" || containsText path "//"

def registryRoute (path : String) : Option RouteSpec :=
  if refusedPath path then none
  else match path.toList with
    | '/' :: body =>
      let segments := (trimEndMatches '/' body).splitOn '/'
      (arms.find? fun arm => matchesSegments arm.pattern segments).map Arm.spec
    | _ => none

def decide (host : Option String) (method path : String) : BoundaryDecision :=
  if !host.any isRegistryHost then .bypass
  else match registryRoute path with
    | none => .rejectRoute
    | some route =>
      if method ∉ route.methods then .rejectMethod (allowHeader route.methods)
      else .allow route.name (method ∉ READ)

end ZedRegistry.RegistryHost
