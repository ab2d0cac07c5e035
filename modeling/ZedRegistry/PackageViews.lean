import ZedRegistry.PublishMachine

/-!
# Package, list and search

`routes/packages.rs`, `routes/list.rs` and `routes/search.rs` as functions of what the
database answers; any query may fail.
-/

set_option autoImplicit false

namespace ZedRegistry.PackageViews

variable (I : Interfaces)

/-! ## The latest version -/

/-- `published_at` is not looked at. -/
def visibleVersionsDesc (rows : List (Version I)) : List String :=
  I.sortVersionsDesc ((rows.filter fun row => !row.yanked).map Version.version)

def latestVisibleVersion (rows : List (Version I)) : Option String :=
  (visibleVersionsDesc I rows).head?

/-! ## Queries -/

/-- What other crates make of stored columns: JSON values and the contract's enumerations. -/
structure ColumnReaders where
  Vcs : Type
  VersionScheme : Type
  parseVcs : String → Option Vcs
  defaultVcs : Vcs
  versionScheme : String → VersionScheme
  asArray : I.Value → Option (List I.Value)
  asStr : I.Value → Option String

/-- The queries of the three routes. -/
structure Queries where
  findOrg : String → ApiResult (Option Org)
  findPackage : Uuid → String → ApiResult (Option (Package I))
  versionsOf : Uuid → ApiResult (List (Version I))
  loadKeys : Uuid → ApiResult (List PublisherKey)
  countPackages : ApiResult Nat
  newestPackages : Nat → Nat → ApiResult (List (Package I × Option Org))
  packagesLike : String → ApiResult (List (Package I × Option Org))

variable {I}

def tagsOf (readers : ColumnReaders I) (pkg : Package I) : List String :=
  ((readers.asArray pkg.tags).map fun values => values.filterMap readers.asStr).getD []

def findOrg (queries : Queries I) (slug : String) : ApiResult Org := do
  match ← queries.findOrg slug with
  | some org => pure org
  | none => .error (.notFound "org")

def findPackage (queries : Queries I) (org : Org) (name : String) : ApiResult (Package I) := do
  match ← queries.findPackage org.id name with
  | some pkg => pure pkg
  | none => .error (.notFound "package")

/-! ## One package -/

structure PackageMetadata (readers : ColumnReaders I) where
  org : String
  name : String
  description : Option String
  vcs : readers.Vcs
  repoUrl : String
  versionScheme : readers.VersionScheme
  latest : Option String
  tags : List String
  versions : List String
  mirrors : List I.Mirror
  signingKeys : List PublisherKey

def getPackage (readers : ColumnReaders I) (queries : Queries I) (orgSlug name : String) :
    ApiResult (PackageMetadata readers) := do
  let orgRow ← findOrg queries orgSlug
  let pkg ← findPackage queries orgRow name
  let rows ← queries.versionsOf pkg.id
  let versions := visibleVersionsDesc I rows
  pure
    { org := orgSlug
      name := name
      description := pkg.description
      vcs := (readers.parseVcs pkg.vcs).getD readers.defaultVcs
      repoUrl := pkg.repoUrl
      versionScheme := readers.versionScheme pkg.versionScheme
      latest := versions.head?
      tags := tagsOf readers pkg
      versions := versions
      mirrors := ((newestVersion I rows).bind fun row => I.mirrorsFromValue row.mirrors).getD []
      signingKeys := (queries.loadKeys orgRow.id).toOption.getD [] }

/-! ## Summaries -/

structure PackageSummary where
  org : String
  name : String
  description : Option String
  latest : Option String
  tags : List String
  deriving DecidableEq

/-- A package whose org row is missing is passed over. -/
def summaries (readers : ColumnReaders I) (queries : Queries I) :
    List (Package I × Option Org) → ApiResult (List PackageSummary)
  | [] => .ok []
  | (_, none) :: rest => summaries readers queries rest
  | (pkg, some org) :: rest => do
    let versions ← queries.versionsOf pkg.id
    let items ← summaries readers queries rest
    pure
      ({ org := org.slug
         name := pkg.name
         description := pkg.description
         latest := latestVisibleVersion I versions
         tags := tagsOf readers pkg } :: items)

def parseTagFilter (raw : Option String) : List String :=
  match raw with
  | none => []
  | some text =>
    ((text.toList.splitOn ',').map fun tag => String.ofList (trimText tag)).filter (· ≠ "")

def hasAllTags (present want : List String) : Bool := want.all fun tag => present.contains tag

/-! ## The list -/

structure ListParams where
  tags : Option String
  limit : Nat
  offset : Nat

structure PackageListResponse where
  items : List PackageSummary
  total : Nat
  deriving DecidableEq

def scanCap : Nat := 2000

def listPackages (readers : ColumnReaders I) (queries : Queries I) (params : ListParams) :
    ApiResult PackageListResponse := do
  let limit := min (max params.limit 1) 200
  let want := parseTagFilter params.tags
  if want.isEmpty then
    let total ← queries.countPackages
    let rows ← queries.newestPackages limit params.offset
    let items ← summaries readers queries rows
    pure ⟨items, total⟩
  else
    let rows ← queries.newestPackages scanCap 0
    let matched := rows.filter fun row => hasAllTags (tagsOf readers row.1) want
    let items ← summaries readers queries ((matched.drop params.offset).take limit)
    pure ⟨items, matched.length⟩

/-! ## Search -/

structure SearchParams where
  q : String
  tags : Option String

structure SearchResponse where
  query : String
  items : List PackageSummary
  deriving DecidableEq

/-- A backslash before `\`, `%` and `_`. -/
def escapeLike (q : String) : String :=
  String.ofList (q.toList.flatMap fun char =>
    if char = '\\' ∨ char = '%' ∨ char = '_' then ['\\', char] else [char])

def containsEscaped (q : String) : String := "%" ++ escapeLike q ++ "%"

/-- Rows without an org or a wanted tag are skipped before their versions are read. -/
def search (readers : ColumnReaders I) (queries : Queries I) (params : SearchParams) :
    ApiResult SearchResponse := do
  let rows ← queries.packagesLike (containsEscaped params.q)
  let want := parseTagFilter params.tags
  let items ← summaries readers queries
    (rows.filter fun row => hasAllTags (tagsOf readers row.1) want)
  pure ⟨params.q, items⟩

end ZedRegistry.PackageViews
