import ZedRegistry.PackageReader

/-!
# Account reads

The management reads of `routes/account.rs`: the account home, an organization's
dashboard, and the settings of a project and of a package.  What the user has no role in
is answered as what does not exist, and each view shows the same role for a project.
-/

set_option autoImplicit false

namespace ZedRegistry.AccountReads

/-! ## The canonical plane -/

structure UserSummary (Json : Type) where
  id : Uuid
  subject : String
  realm : String
  email : Option String
  displayName : Option String
  avatarUrl : Option String
  settings : Json
  deriving DecidableEq

structure OrgRow where
  id : Uuid
  slug : String
  name : String
  description : Option String
  deriving DecidableEq

structure OrgSummary where
  id : Uuid
  slug : String
  name : String
  description : Option String
  role : String
  deriving DecidableEq

structure ProjectSummary where
  id : Uuid
  orgId : Uuid
  orgSlug : String
  slug : String
  name : String
  description : Option String
  role : String
  deriving DecidableEq

structure ProjectRow (Json : Type) where
  id : Uuid
  orgId : Uuid
  slug : String
  name : String
  description : Option String
  visibility : String
  settings : Json
  deriving DecidableEq

structure PackageSummary (Json : Type) where
  id : Uuid
  orgId : Uuid
  orgSlug : String
  projectId : Option Uuid
  projectSlug : Option String
  name : String
  description : Option String
  visibility : String
  repoUrl : String
  config : Json
  latestVersion : Option String
  downloadCount : Int
  versionCount : Int
  deriving DecidableEq

/-- The columns that `package_value` shows. -/
structure PackageModel (Json : Type) where
  id : Uuid
  orgId : Uuid
  projectId : Option Uuid
  name : String
  description : Option String
  vcs : String
  repoUrl : String
  homepageUrl : Option String
  keywords : Json
  visibility : String
  config : Json
  downloadCount : Int
  versionCount : Int
  latestVersion : Option String
  firstPublishedAt : Option String
  createdAt : String
  updatedAt : String
  deriving DecidableEq

/-- `zed_orm_core::read`, the private projects and packages of an organization included. -/
structure ReadContext (Json : Type) where
  orgsForUser : Uuid → Except OrmError (List OrgSummary)
  orgBySlug : String → Except OrmError (Option OrgRow)
  orgRoleForUser : Uuid → Uuid → Except OrmError (Option String)
  projectsForOrg : Uuid → String → Except OrmError (List ProjectSummary)
  projectByOrgAndSlug : Uuid → String → Except OrmError (Option (ProjectRow Json))
  projectRoleForUser : Uuid → Uuid → Except OrmError (Option String)
  packagesForOrg : Uuid → String → Except OrmError (List (PackageSummary Json))
  packageByOrgAndName : String → String → Except OrmError (Option (PackageModel Json × OrgRow))
  searchPackages : String → List Uuid → Nat → Except OrmError (List (PackageSummary Json))

variable {Json : Type}

structure AccountState (Json : Type) where
  sharedAuth : Option SharedAuth
  applicationId : String
  registryRead : Option (ReadContext Json)
  /-- `upsert_user_from_session` of the write context. -/
  registryWrite : Option (SessionIdentity → Except OrmError (UserSummary Json))

/-! ## Roles -/

def roleRank (role : String) : Nat :=
  if role = "owner" then 4
  else if role = "admin" then 3
  else if role = "member" then 2
  else if role = "reader" then 1
  else 0

/-- `max_by_key`, which takes the later of two equal roles. -/
def strongestRole : Option String → Option String → Option String
  | some org, some project => some (if roleRank org ≤ roleRank project then project else org)
  | some org, none => some org
  | none, project => project

theorem strongestRole_none {org project : Option String} :
    strongestRole org project = none ↔ org = none ∧ project = none := by
  cases org with
  | none => simp [strongestRole]
  | some org =>
      cases project with
      | none => simp [strongestRole]
      | some project => simp [strongestRole]

/-! ## Who asks -/

def authenticatedAndProjected (state : AccountState Json) (authorization : Option String) :
    ApiResult (AccountIdentity × UserSummary Json) := do
  let account ← requireAccount state.sharedAuth state.applicationId authorization
  let upsert ← okOrElse state.registryWrite (.serviceUnavailable "registry_data_plane_unavailable"
    "canonical registry write context is not configured")
  let user ← (upsert account.session).mapError mapOrmError
  pure (account, user)

def registryRead (state : AccountState Json) : ApiResult (ReadContext Json) :=
  okOrElse state.registryRead (.serviceUnavailable "registry_data_plane_unavailable"
    "canonical registry read context is not configured")

/-! ## What a user reads -/

section Reads

variable (read : ReadContext Json) (user : UserSummary Json)

/-- The role that a listed project is shown with. -/
def shownProject (orgRole : String) (project : ProjectSummary) : ApiResult ProjectSummary := do
  let direct ← (read.projectRoleForUser project.id user.id).mapError mapOrmError
  pure { project with role := (strongestRole (some orgRole) direct).getD "reader" }

def projectsOf (org : OrgSummary) : ApiResult (List ProjectSummary) := do
  let rows ← (read.projectsForOrg org.id org.slug).mapError mapOrmError
  rows.mapM (shownProject read user org.role)

def packagesOf (org : OrgSummary) : ApiResult (List (PackageSummary Json)) :=
  (read.packagesForOrg org.id org.slug).mapError mapOrmError

structure HomeView (Json : Type) where
  user : UserSummary Json
  orgs : List OrgSummary
  projects : List ProjectSummary
  packages : List (PackageSummary Json)
  query : String
  deriving DecidableEq

def containsCi (value query : String) : Bool :=
  containsText (asciiLowercase value) (asciiLowercase query)

def matchesQuery (slug name : String) (description : Option String) (trimmed : String) : Bool :=
  containsCi slug trimmed || containsCi name trimmed ||
    description.any fun value => containsCi value trimmed

def homeOf (query : String) : ApiResult (HomeView Json) := do
  let orgs ← (read.orgsForUser user.id).mapError mapOrmError
  let projects ← orgs.mapM (projectsOf read user)
  let trimmed := String.ofList (trimText query.toList)
  if trimmed = "" then do
    let packages ← orgs.mapM (packagesOf read)
    pure ⟨user, orgs, projects.flatten, packages.flatten, query⟩
  else do
    let packages ← (read.searchPackages trimmed (orgs.map (·.id)) 100).mapError mapOrmError
    pure ⟨user, orgs.filter fun org => matchesQuery org.slug org.name org.description trimmed,
      projects.flatten.filter fun project =>
        matchesQuery project.slug project.name project.description trimmed, packages, query⟩

structure DashboardView (Json : Type) where
  org : OrgSummary
  projects : List ProjectSummary
  packages : List (PackageSummary Json)
  deriving DecidableEq

def dashboardOf (orgSlug : String) : ApiResult (DashboardView Json) := do
  let org ← okOrElse (← (read.orgBySlug orgSlug).mapError mapOrmError) (.notFound "organization")
  let role ← okOrElse (← (read.orgRoleForUser org.id user.id).mapError mapOrmError)
    (.notFound "organization")
  let summary : OrgSummary := ⟨org.id, org.slug, org.name, org.description, role⟩
  let projects ← projectsOf read user summary
  let packages ← packagesOf read summary
  pure ⟨summary, projects, packages⟩

structure ProjectSettingsView (Json : Type) where
  id : Uuid
  orgId : Uuid
  orgSlug : String
  slug : String
  name : String
  description : Option String
  visibility : String
  settings : Json
  role : String
  deriving DecidableEq

/-- `project_settings` once the organization is found. -/
def projectSettingsIn (org : OrgRow) (projectSlug : String) :
    ApiResult (ProjectSettingsView Json) := do
  let project ← okOrElse (← (read.projectByOrgAndSlug org.id projectSlug).mapError mapOrmError)
    (.notFound "project")
  let orgRole ← (read.orgRoleForUser org.id user.id).mapError mapOrmError
  let projectRole ← (read.projectRoleForUser project.id user.id).mapError mapOrmError
  let role ← okOrElse (strongestRole orgRole projectRole) (.notFound "project")
  pure ⟨project.id, project.orgId, org.slug, project.slug, project.name, project.description,
    project.visibility, project.settings, role⟩

def projectSettingsOf (orgSlug projectSlug : String) : ApiResult (ProjectSettingsView Json) := do
  let org ← okOrElse (← (read.orgBySlug orgSlug).mapError mapOrmError) (.notFound "project")
  projectSettingsIn read user org projectSlug

def packageSettingsOf (orgSlug packageName : String) : ApiResult (PackageModel Json) := do
  let (package, org) ← okOrElse
    (← (read.packageByOrgAndName orgSlug packageName).mapError mapOrmError) (.notFound "package")
  let orgRole ← (read.orgRoleForUser org.id user.id).mapError mapOrmError
  let projectRole ←
    match package.projectId with
    | some projectId => (read.projectRoleForUser projectId user.id).mapError mapOrmError
    | none => pure none
  let _ ← okOrElse (strongestRole orgRole projectRole) (.notFound "package")
  pure package

end Reads

/-! ## The routes -/

/-- Each route asks for the user first, then for the read context. -/
def asUser {α : Type} (state : AccountState Json) (authorization : Option String)
    (answer : ReadContext Json → UserSummary Json → ApiResult α) : ApiResult α := do
  let (_, user) ← authenticatedAndProjected state authorization
  let read ← registryRead state
  answer read user

def home (state : AccountState Json) (authorization : Option String) (query : String) :
    ApiResult (HomeView Json) :=
  asUser state authorization fun read user => homeOf read user query

def orgDashboard (state : AccountState Json) (authorization : Option String) (orgSlug : String) :
    ApiResult (DashboardView Json) :=
  asUser state authorization fun read user => dashboardOf read user orgSlug

def projectSettings (state : AccountState Json) (authorization : Option String)
    (orgSlug projectSlug : String) : ApiResult (ProjectSettingsView Json) :=
  asUser state authorization fun read user => projectSettingsOf read user orgSlug projectSlug

def packageSettings (state : AccountState Json) (authorization : Option String)
    (orgSlug packageName : String) : ApiResult (PackageModel Json) :=
  asUser state authorization fun read user => packageSettingsOf read user orgSlug packageName

/-! ## What a user has no role in -/

section Foreign

variable (read : ReadContext Json) (user : Uuid)

/-- There is no such project, or the user has a role neither in it nor in its organization. -/
inductive ForeignProject (org : Uuid) (slug : String) : Prop where
  | absent (found : read.projectByOrgAndSlug org slug = .ok none)
  | hidden (project : ProjectRow Json)
      (found : read.projectByOrgAndSlug org slug = .ok (some project))
      (noOrgRole : read.orgRoleForUser org user = .ok none)
      (noProjectRole : read.projectRoleForUser project.id user = .ok none)

inductive ForeignOrg (slug : String) : Prop where
  | absent (found : read.orgBySlug slug = .ok none)
  | hidden (org : OrgRow) (found : read.orgBySlug slug = .ok (some org))
      (noOrgRole : read.orgRoleForUser org.id user = .ok none)
      (projects : ∀ projectSlug, ForeignProject read user org.id projectSlug)

inductive ForeignPackage (orgSlug name : String) : Prop where
  | absent (found : read.packageByOrgAndName orgSlug name = .ok none)
  | hidden (package : PackageModel Json) (org : OrgRow)
      (found : read.packageByOrgAndName orgSlug name = .ok (some (package, org)))
      (noOrgRole : read.orgRoleForUser org.id user = .ok none)
      (noProjectRole : ∀ projectId ∈ package.projectId,
        read.projectRoleForUser projectId user = .ok none)

end Foreign

/-- Two planes that differ, for the user, in what the user has no role in. -/
structure SameView (user : Uuid) (left right : ReadContext Json) : Prop where
  memberships : left.orgsForUser user = right.orgsForUser user
  orgRoles : ∀ org, left.orgRoleForUser org user = right.orgRoleForUser org user
  projectRoles : ∀ project,
    left.projectRoleForUser project user = right.projectRoleForUser project user
  orgs : ∀ slug, left.orgBySlug slug = right.orgBySlug slug ∨
    ForeignOrg left user slug ∧ ForeignOrg right user slug
  projects : ∀ org slug,
    left.projectByOrgAndSlug org slug = right.projectByOrgAndSlug org slug ∨
      ForeignProject left user org slug ∧ ForeignProject right user org slug
  packages : ∀ orgSlug name,
    left.packageByOrgAndName orgSlug name = right.packageByOrgAndName orgSlug name ∨
      ForeignPackage left user orgSlug name ∧ ForeignPackage right user orgSlug name
  ownOrgs : ∀ org slug role, left.orgRoleForUser org user = .ok (some role) →
    left.projectsForOrg org slug = right.projectsForOrg org slug ∧
      left.packagesForOrg org slug = right.packagesForOrg org slug
  listedOrgs : ∀ orgs, left.orgsForUser user = .ok orgs → ∀ org ∈ orgs,
    left.projectsForOrg org.id org.slug = right.projectsForOrg org.id org.slug ∧
      left.packagesForOrg org.id org.slug = right.packagesForOrg org.id org.slug
  searches : ∀ orgs, left.orgsForUser user = .ok orgs → ∀ text limit,
    left.searchPackages text (orgs.map (·.id)) limit =
      right.searchPackages text (orgs.map (·.id)) limit

theorem mapM_same {α β ε : Type} {first second : α → Except ε β} {rows : List α}
    (same : ∀ row ∈ rows, first row = second row) : rows.mapM first = rows.mapM second := by
  induction rows with
  | nil => rfl
  | cons row rest ih =>
      have here := same row List.mem_cons_self
      have there := ih fun other member => same other (List.mem_cons_of_mem row member)
      rw [List.mapM_cons, List.mapM_cons, here, there]

section Alike

variable {left right : ReadContext Json} {user : UserSummary Json}

theorem projectsOf_same (view : SameView user.id left right) {org : OrgSummary}
    (listed : left.projectsForOrg org.id org.slug = right.projectsForOrg org.id org.slug) :
    projectsOf left user org = projectsOf right user org := by
  have shown : shownProject left user org.role = shownProject right user org.role := by
    funext project
    unfold shownProject
    rw [view.projectRoles project.id]
  unfold projectsOf
  rw [listed, shown]

theorem homeOf_same (view : SameView user.id left right) (query : String) :
    homeOf left user query = homeOf right user query := by
  unfold homeOf
  rw [← view.memberships]
  cases found : left.orgsForUser user.id with
  | error error => rfl
  | ok orgs =>
      have projects : orgs.mapM (projectsOf left user) = orgs.mapM (projectsOf right user) :=
        mapM_same fun org member => projectsOf_same view (view.listedOrgs orgs found org member).1
      have packages : orgs.mapM (packagesOf left) = orgs.mapM (packagesOf right) := by
        refine mapM_same fun org member => ?_
        unfold packagesOf
        rw [(view.listedOrgs orgs found org member).2]
      simp only [Except.mapError, bind, Except.bind, projects, packages,
        view.searches orgs found]

theorem dashboardOf_foreign {read : ReadContext Json} {slug : String}
    (foreign : ForeignOrg read user.id slug) :
    dashboardOf read user slug = .error (.notFound "organization") := by
  cases foreign with
  | absent found => simp [dashboardOf, found, Except.mapError, okOrElse, bind, Except.bind]
  | hidden org found noOrgRole projects =>
      simp [dashboardOf, found, noOrgRole, Except.mapError, okOrElse, bind, Except.bind]

theorem dashboardOf_same (view : SameView user.id left right) (slug : String) :
    dashboardOf left user slug = dashboardOf right user slug := by
  rcases view.orgs slug with same | ⟨foreign, foreign'⟩
  · unfold dashboardOf
    rw [← same]
    cases left.orgBySlug slug with
    | error error => rfl
    | ok found =>
        cases found with
        | none => rfl
        | some org =>
            simp only [Except.mapError, okOrElse, bind, Except.bind, Option.elim_some,
              ← view.orgRoles]
            cases role : left.orgRoleForUser org.id user.id with
            | error error => rfl
            | ok held =>
                cases held with
                | none => rfl
                | some role' =>
                    obtain ⟨projects, packages⟩ := view.ownOrgs org.id org.slug role' role
                    simp only [Option.elim_some, packagesOf, packages]
                    rw [projectsOf_same view projects]
  · rw [dashboardOf_foreign foreign, dashboardOf_foreign foreign']

theorem projectSettingsIn_foreign {read : ReadContext Json} {org : OrgRow} {slug : String}
    (foreign : ForeignProject read user.id org.id slug) :
    projectSettingsIn read user org slug = .error (.notFound "project") := by
  cases foreign with
  | absent found =>
      simp [projectSettingsIn, found, Except.mapError, okOrElse, bind, Except.bind]
  | hidden project found noOrgRole noProjectRole =>
      simp [projectSettingsIn, found, noOrgRole, noProjectRole, strongestRole, Except.mapError,
        okOrElse, bind, Except.bind]

theorem projectSettingsOf_foreign {read : ReadContext Json} {orgSlug slug : String}
    (foreign : ForeignOrg read user.id orgSlug) :
    projectSettingsOf read user orgSlug slug = .error (.notFound "project") := by
  cases foreign with
  | absent found =>
      simp [projectSettingsOf, found, Except.mapError, okOrElse, bind, Except.bind]
  | hidden org found noOrgRole projects =>
      simp [projectSettingsOf, found, projectSettingsIn_foreign (projects slug), Except.mapError,
        okOrElse, bind, Except.bind]

theorem projectSettingsIn_same (view : SameView user.id left right) (org : OrgRow)
    (slug : String) :
    projectSettingsIn left user org slug = projectSettingsIn right user org slug := by
  rcases view.projects org.id slug with same | ⟨foreign, foreign'⟩
  · simp only [projectSettingsIn, same, view.orgRoles, view.projectRoles]
  · rw [projectSettingsIn_foreign foreign, projectSettingsIn_foreign foreign']

theorem projectSettingsOf_same (view : SameView user.id left right) (orgSlug slug : String) :
    projectSettingsOf left user orgSlug slug = projectSettingsOf right user orgSlug slug := by
  rcases view.orgs orgSlug with same | ⟨foreign, foreign'⟩
  · simp only [projectSettingsOf, same, projectSettingsIn_same view]
  · rw [projectSettingsOf_foreign foreign, projectSettingsOf_foreign foreign']

theorem packageSettingsOf_foreign {read : ReadContext Json} {orgSlug name : String}
    (foreign : ForeignPackage read user.id orgSlug name) :
    packageSettingsOf read user orgSlug name = .error (.notFound "package") := by
  cases foreign with
  | absent found =>
      simp [packageSettingsOf, found, Except.mapError, okOrElse, bind, Except.bind]
  | hidden package org found noOrgRole noProjectRole =>
      cases owner : package.projectId with
      | none =>
          simp [packageSettingsOf, found, noOrgRole, owner, strongestRole, Except.mapError,
            okOrElse, bind, Except.bind, pure, Except.pure]
      | some project =>
          simp [packageSettingsOf, found, noOrgRole, owner, noProjectRole project owner,
            strongestRole, Except.mapError, okOrElse, bind, Except.bind]

theorem packageSettingsOf_same (view : SameView user.id left right) (orgSlug name : String) :
    packageSettingsOf left user orgSlug name = packageSettingsOf right user orgSlug name := by
  rcases view.packages orgSlug name with same | ⟨foreign, foreign'⟩
  · simp only [packageSettingsOf, same, view.orgRoles, view.projectRoles]
  · rw [packageSettingsOf_foreign foreign, packageSettingsOf_foreign foreign']

theorem asUser_same {α : Type} {state : AccountState Json} {authorization : Option String}
    {answer : ReadContext Json → UserSummary Json → ApiResult α}
    (same : ∀ account user, authenticatedAndProjected state authorization = .ok (account, user) →
      answer left user = answer right user) :
    asUser { state with registryRead := some left } authorization answer =
      asUser { state with registryRead := some right } authorization answer := by
  have who : ∀ read : ReadContext Json,
      authenticatedAndProjected { state with registryRead := some read } authorization =
        authenticatedAndProjected state authorization := fun read => rfl
  simp only [asUser, who, registryRead, okOrElse, Option.elim_some, bind, Except.bind]
  cases asked : authenticatedAndProjected state authorization with
  | error error => rfl
  | ok session =>
      obtain ⟨account, user⟩ := session
      exact same account user asked

end Alike

/-- Over two planes that differ only in what the user has no role in, every management read
answers alike: an organization, a project or a package of others is as if it were not there. -/
theorem account_reads_hide_foreign {state : AccountState Json} {authorization : Option String}
    {left right : ReadContext Json}
    (view : ∀ account user, authenticatedAndProjected state authorization = .ok (account, user) →
      SameView user.id left right) :
    (∀ query, home { state with registryRead := some left } authorization query =
      home { state with registryRead := some right } authorization query) ∧
    (∀ orgSlug, orgDashboard { state with registryRead := some left } authorization orgSlug =
      orgDashboard { state with registryRead := some right } authorization orgSlug) ∧
    (∀ orgSlug slug,
      projectSettings { state with registryRead := some left } authorization orgSlug slug =
        projectSettings { state with registryRead := some right } authorization orgSlug slug) ∧
    ∀ orgSlug name,
      packageSettings { state with registryRead := some left } authorization orgSlug name =
        packageSettings { state with registryRead := some right } authorization orgSlug name := by
  refine ⟨fun query => ?_, fun orgSlug => ?_, fun orgSlug slug => ?_, fun orgSlug name => ?_⟩
  · exact asUser_same fun account user asked => homeOf_same (view account user asked) query
  · exact asUser_same fun account user asked => dashboardOf_same (view account user asked) orgSlug
  · exact asUser_same fun account user asked =>
      projectSettingsOf_same (view account user asked) orgSlug slug
  · exact asUser_same fun account user asked =>
      packageSettingsOf_same (view account user asked) orgSlug name

/-- A customer of the web client. -/
def customerAuth : SharedAuth where
  introspect _ := .ok ⟨true, some "1d1a", some "https://auth.zpkg.net", none,
    [("sid", .string "s-1"), ("azp", .string "zpkg-web"), ("parent_jti", .string "p-1"),
      ("scope", .string "zpkg:account")]⟩
  parseUuid text := some ⟨text⟩

def customerState : AccountState String where
  sharedAuth := some customerAuth
  applicationId := "zpkg-web"
  registryRead := none
  registryWrite := some fun session =>
    .ok ⟨session.subject, "1d1a", session.realm, none, none, none, "none"⟩

def acmeId : Uuid := ⟨"acme"⟩

def webProject : Uuid := ⟨"web"⟩

/-- The customer is a member of `acme` and owns its project `web`. -/
def customerPlane (others : String → Option OrgRow) : ReadContext String where
  orgsForUser _ := .ok [⟨acmeId, "acme", "Acme", none, "member"⟩]
  orgBySlug slug := .ok (if slug = "acme" then some ⟨acmeId, "acme", "Acme", none⟩ else others slug)
  orgRoleForUser org _ := .ok (if org = acmeId then some "member" else none)
  projectsForOrg org slug :=
    .ok (if org = acmeId then [⟨webProject, acmeId, slug, "web", "Web", none, "reader"⟩] else [])
  projectByOrgAndSlug org slug := .ok (if org = acmeId ∧ slug = "web" then
    some ⟨webProject, acmeId, "web", "Web", none, "private", "none"⟩ else none)
  projectRoleForUser project _ := .ok (if project = webProject then some "owner" else none)
  packagesForOrg _ _ := .ok []
  packageByOrgAndName _ _ := .ok none
  searchPackages _ _ _ := .ok []

def globex (slug : String) : Option OrgRow :=
  if slug = "globex" then some ⟨⟨"globex"⟩, "globex", "Globex", none⟩ else none

theorem globex_hidden (user : Uuid) (slug : String) :
    (customerPlane globex).orgBySlug slug = (customerPlane fun _ => none).orgBySlug slug ∨
      ForeignOrg (customerPlane globex) user slug ∧
        ForeignOrg (customerPlane fun _ => none) user slug := by
  by_cases own : slug = "acme"
  · left
    simp [customerPlane, own]
  · by_cases foreign : slug = "globex"
    · subst foreign
      exact .inr ⟨.hidden ⟨⟨"globex"⟩, "globex", "Globex", none⟩ rfl rfl fun _ => .absent rfl,
        .absent rfl⟩
    · left
      simp [customerPlane, own, globex, foreign]

/-- The organization `globex` is there in one plane and not in the other. -/
theorem globex_sameView (user : Uuid) :
    SameView user (customerPlane globex) (customerPlane fun _ => none) where
  memberships := rfl
  orgRoles _ := rfl
  projectRoles _ := rfl
  orgs := globex_hidden user
  projects _ _ := .inl rfl
  packages _ _ := .inl rfl
  ownOrgs _ _ _ _ := ⟨rfl, rfl⟩
  listedOrgs _ _ _ _ := ⟨rfl, rfl⟩
  searches _ _ _ _ := rfl

theorem account_reads_hide_foreign_sample :
    orgDashboard { customerState with registryRead := some (customerPlane globex) }
        (some "Bearer delegated") "globex" =
      orgDashboard { customerState with registryRead := some (customerPlane fun _ => none) }
        (some "Bearer delegated") "globex" :=
  (account_reads_hide_foreign fun _ user _ => globex_sameView user.id).2.1 "globex"

/-! ## Roles of the views -/

/-- A role the user has, in the organization or in the project, that none of the two exceeds. -/
structure Strongest (read : ReadContext Json) (user orgId projectId : Uuid) (role : String) :
    Prop where
  held : read.orgRoleForUser orgId user = .ok (some role) ∨
    read.projectRoleForUser projectId user = .ok (some role)
  org : ∀ other, read.orgRoleForUser orgId user = .ok (some other) →
    roleRank other ≤ roleRank role
  project : ∀ other, read.projectRoleForUser projectId user = .ok (some other) →
    roleRank other ≤ roleRank role

/-- The role comes from both reads, as `strongest_role` joins them. -/
def Joined (read : ReadContext Json) (user orgId projectId : Uuid) (role : String) : Prop :=
  ∃ org direct, read.orgRoleForUser orgId user = .ok org ∧
    read.projectRoleForUser projectId user = .ok direct ∧ strongestRole org direct = some role

theorem Joined.same {read : ReadContext Json} {user orgId projectId : Uuid} {role role' : String}
    (joined : Joined read user orgId projectId role)
    (joined' : Joined read user orgId projectId role') : role = role' := by
  obtain ⟨org, direct, orgRead, directRead, join⟩ := joined
  obtain ⟨org', direct', orgRead', directRead', join'⟩ := joined'
  rw [orgRead] at orgRead'
  rw [directRead] at directRead'
  obtain rfl := Except.ok.inj orgRead'
  obtain rfl := Except.ok.inj directRead'
  exact Option.some.inj (join.symm.trans join')

theorem Joined.strongest {read : ReadContext Json} {user orgId projectId : Uuid} {role : String}
    (joined : Joined read user orgId projectId role) :
    Strongest read user orgId projectId role := by
  obtain ⟨org, direct, orgRead, directRead, join⟩ := joined
  cases org with
  | none =>
      have same : direct = some role := join
      subst same
      refine ⟨.inr directRead, fun other held => ?_, fun other held => ?_⟩
      · rw [orgRead] at held
        cases held
      · rw [directRead] at held
        cases held
        exact le_refl _
  | some orgRole =>
      cases direct with
      | none =>
          obtain rfl : orgRole = role := Option.some.inj join
          refine ⟨.inl orgRead, fun other held => ?_, fun other held => ?_⟩
          · rw [orgRead] at held
            cases held
            exact le_refl _
          · rw [directRead] at held
            cases held
      | some directRole =>
          have picked : (if roleRank orgRole ≤ roleRank directRole then directRole else orgRole) =
              role := Option.some.inj join
          split at picked
          · rename_i below
            subst picked
            refine ⟨.inr directRead, fun other held => ?_, fun other held => ?_⟩
            · rw [orgRead] at held
              cases held
              exact below
            · rw [directRead] at held
              cases held
              exact le_refl _
          · rename_i above
            subst picked
            refine ⟨.inl orgRead, fun other held => ?_, fun other held => ?_⟩
            · rw [orgRead] at held
              cases held
              exact le_refl _
            · rw [directRead] at held
              cases held
              omega

/-- What the reads are named for: the memberships of a user are its roles, and the projects
of an organization are its own. -/
structure Faithful (read : ReadContext Json) (user : Uuid) : Prop where
  memberships : ∀ orgs, read.orgsForUser user = .ok orgs → ∀ org ∈ orgs,
    read.orgRoleForUser org.id user = .ok (some org.role)
  listed : ∀ org slug rows, read.projectsForOrg org slug = .ok rows → ∀ row ∈ rows,
    row.orgId = org
  found : ∀ org slug project, read.projectByOrgAndSlug org slug = .ok (some project) →
    project.orgId = org

section Roles

variable {read : ReadContext Json} {user : UserSummary Json}

theorem mapM_member {α β ε : Type} {step : α → Except ε β} {rows : List α} {results : List β}
    (mapped : rows.mapM step = .ok results) {result : β} (member : result ∈ results) :
    ∃ row ∈ rows, step row = .ok result := by
  induction rows generalizing results with
  | nil =>
      obtain rfl := Except.ok.inj mapped
      cases member
  | cons row rest ih =>
      rw [List.mapM_cons] at mapped
      obtain ⟨first, here, mapped⟩ := bind_ok.mp mapped
      obtain ⟨others, there, built⟩ := bind_ok.mp mapped
      obtain rfl := Except.ok.inj built
      rcases List.mem_cons.mp member with rfl | later
      · exact ⟨row, List.mem_cons_self, here⟩
      · obtain ⟨other, listed, found⟩ := ih there later
        exact ⟨other, List.mem_cons_of_mem row listed, found⟩

/-- A listed project is shown with the role that both reads give. -/
theorem projectsOf_joined (faithful : Faithful read user.id) {org : OrgSummary}
    (role : read.orgRoleForUser org.id user.id = .ok (some org.role))
    {projects : List ProjectSummary} (shown : projectsOf read user org = .ok projects)
    {project : ProjectSummary} (member : project ∈ projects) :
    Joined read user.id project.orgId project.id project.role := by
  obtain ⟨rows, listed, mapped⟩ := bind_ok.mp shown
  obtain ⟨row, among, built⟩ := mapM_member mapped member
  obtain ⟨direct, directRead, built⟩ := bind_ok.mp built
  obtain rfl := Except.ok.inj built
  have owner := faithful.listed _ _ _ (mapError_ok.mp listed) row among
  refine ⟨some org.role, direct, ?_, mapError_ok.mp directRead, ?_⟩
  · rw [owner]
    exact role
  · obtain ⟨strongest, joined⟩ : ∃ strongest,
        strongestRole (some org.role) direct = some strongest := by
      refine Option.ne_none_iff_exists'.mp fun none' => ?_
      exact absurd (strongestRole_none.mp none').1 (by simp)
    rw [joined]
    rfl

theorem homeOf_joined (faithful : Faithful read user.id) {query : String} {view : HomeView Json}
    (answered : homeOf read user query = .ok view) {project : ProjectSummary}
    (member : project ∈ view.projects) :
    Joined read user.id project.orgId project.id project.role := by
  obtain ⟨orgs, listed, answered⟩ := bind_ok.mp answered
  obtain ⟨projects, mapped, answered⟩ := bind_ok.mp answered
  have flat : project ∈ projects.flatten := by
    simp only at answered
    split at answered
    · obtain ⟨packages, -, built⟩ := bind_ok.mp answered
      obtain rfl := Except.ok.inj built
      exact member
    · obtain ⟨packages, -, built⟩ := bind_ok.mp answered
      obtain rfl := Except.ok.inj built
      exact List.mem_of_mem_filter member
  obtain ⟨shown, among, here⟩ := List.mem_flatten.mp flat
  obtain ⟨org, own, built⟩ := mapM_member mapped among
  exact projectsOf_joined faithful (faithful.memberships orgs (mapError_ok.mp listed) org own)
    built here

theorem dashboardOf_joined (faithful : Faithful read user.id) {orgSlug : String}
    {board : DashboardView Json} (answered : dashboardOf read user orgSlug = .ok board)
    {project : ProjectSummary} (member : project ∈ board.projects) :
    Joined read user.id project.orgId project.id project.role := by
  simp only [dashboardOf, bind_ok, okOrElse_ok, mapError_ok] at answered
  obtain ⟨_, -, org, -, _, roleRead, role, rfl, projects, shown, packages, -, built⟩ := answered
  obtain rfl := Except.ok.inj built
  exact projectsOf_joined faithful roleRead shown member

theorem projectSettingsOf_joined (faithful : Faithful read user.id) {orgSlug slug : String}
    {settings : ProjectSettingsView Json}
    (answered : projectSettingsOf read user orgSlug slug = .ok settings) :
    Joined read user.id settings.orgId settings.id settings.role := by
  simp only [projectSettingsOf, projectSettingsIn, bind_ok, okOrElse_ok, mapError_ok] at answered
  obtain ⟨_, -, org, -, _, found, project, rfl, orgRole, orgRead, direct, directRead, role,
    joined, built⟩ := answered
  obtain rfl := Except.ok.inj built
  have owner := faithful.found _ _ _ found
  refine ⟨orgRole, direct, ?_, directRead, joined⟩
  rw [owner]
  exact orgRead

end Roles

theorem asUser_ok {α : Type} {state : AccountState Json} {authorization : Option String}
    {answer : ReadContext Json → UserSummary Json → ApiResult α} {result : α} :
    asUser state authorization answer = .ok result ↔
      ∃ account user read, authenticatedAndProjected state authorization = .ok (account, user) ∧
        state.registryRead = some read ∧ answer read user = .ok result := by
  simp only [asUser, registryRead, bind_ok, okOrElse_ok]
  constructor
  · rintro ⟨⟨account, user⟩, asked, read, configured, answered⟩
    exact ⟨account, user, read, asked, configured, answered⟩
  · rintro ⟨account, user, read, asked, configured, answered⟩
    exact ⟨⟨account, user⟩, asked, read, configured, answered⟩

theorem customerPlane_faithful (user : Uuid) : Faithful (customerPlane globex) user where
  memberships orgs listed org member := by
    obtain rfl := Except.ok.inj listed
    obtain rfl := List.mem_singleton.mp member
    rfl
  listed org slug rows listed row member := by
    obtain rfl := Except.ok.inj listed
    split at member
    · rename_i own
      obtain rfl := List.mem_singleton.mp member
      exact own.symm
    · cases member
  found org slug project found := by
    have built := Except.ok.inj found
    split at built
    · rename_i own
      obtain rfl := Option.some.inj built
      exact own.1.symm
    · cases built

end ZedRegistry.AccountReads
