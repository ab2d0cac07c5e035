import Mathlib.Data.Option.Basic
import ZedRegistry.DependencyGraph

/-!
# What graph reads disclose

A package the caller may not read looks like one that does not exist: every
refusal of the authorization is the same missing graph, and nothing of the
package is read before it.  Two states that differ in such packages only give
the caller the same answers.
-/

set_option autoImplicit false

namespace ZedRegistry

variable {I : Interfaces}

/-! ## Refusals -/

/-- A failure says no more than that there is no graph. -/
def Conceals {α : Type} (action : ApiResult α) : Prop :=
  ∀ error, action = .error error → error = graphNotFound

theorem conceals_ok {α : Type} (value : α) : Conceals (.ok value : ApiResult α) := by
  intro error failed
  contradiction

theorem conceals_graphNotFound {α : Type} : Conceals (.error graphNotFound : ApiResult α) := by
  intro error failed
  exact (Except.error.inj failed).symm

theorem conceals_concealed {ε α : Type} (action : Except ε α) : Conceals (concealed action) := by
  cases action with
  | error error => exact conceals_graphNotFound
  | ok value => exact conceals_ok value

theorem conceals_okOrElse {α : Type} (found : Option α) :
    Conceals (okOrElse found graphNotFound) := by
  cases found with
  | none => exact conceals_graphNotFound
  | some value => exact conceals_ok value

theorem conceals_bind {α β : Type} {action : ApiResult α} {next : α → ApiResult β}
    (first : Conceals action) (later : ∀ value, Conceals (next value)) :
    Conceals (action >>= next) := by
  cases action with
  | error error =>
      intro error' failed
      obtain rfl := Except.error.inj failed
      exact first error rfl
  | ok value => exact later value

theorem requiresGraphAuthorization_conceals (visibility : String) :
    Conceals (requiresGraphAuthorization visibility) := by
  unfold requiresGraphAuthorization
  split
  · exact conceals_ok false
  · split
    · exact conceals_ok true
    · exact conceals_graphNotFound

theorem authorizeAccount_conceals (state : GraphState I) (read : GraphRead I)
    (authorization : Option String) (package : CanonicalPackage) (canonicalOrg : Uuid) :
    Conceals (authorizeAccount state read authorization package canonicalOrg) := by
  unfold authorizeAccount
  apply conceals_bind (conceals_concealed _)
  intro account
  apply conceals_bind (conceals_concealed _)
  intro found
  apply conceals_bind (conceals_okOrElse _)
  intro user
  apply conceals_bind (conceals_concealed _)
  intro orgRole
  split
  · exact conceals_ok _
  · split
    · exact conceals_graphNotFound
    · apply conceals_bind (conceals_concealed _)
      intro projectRole
      split
      · exact conceals_ok _
      · exact conceals_graphNotFound

/-- With the canonical plane configured, an unauthorized read is a missing graph. -/
theorem authorizeDeclaredGraph_conceals {state : GraphState I} {read : GraphRead I}
    (configured : state.registryRead = some read) (authorization : Option String)
    (orgSlug : String) (package : CanonicalPackage) (canonicalOrg : Uuid) :
    Conceals (authorizeDeclaredGraph state authorization orgSlug package canonicalOrg) := by
  unfold authorizeDeclaredGraph
  rw [configured]
  apply conceals_bind (conceals_ok read)
  intro read'
  apply conceals_bind (requiresGraphAuthorization_conceals _)
  intro required
  split
  · exact conceals_ok _
  · split
    · exact conceals_graphNotFound
    · split
      · apply conceals_bind (conceals_okOrElse _)
        intro legacyOrg
        split
        · exact conceals_ok _
        · exact conceals_graphNotFound
      · exact authorizeAccount_conceals state read' authorization package canonicalOrg

/-! ## Two states -/

/-- The caller finds nothing under the name: no package, or one it may not read. -/
def Withheld (state : GraphState I) (read : GraphRead I) (authorization : Option String)
    (org name : String) : Prop :=
  ∃ found, read.packageByOrgAndName org name = .ok found ∧
    ∀ package canonicalOrg, found = some (package, canonicalOrg) → ∀ access,
      authorizeDeclaredGraph state authorization org package canonicalOrg ≠ .ok access

section TwoStates

variable (authorization : Option String) (left right : GraphState I)

/-- The name is withheld from the caller in both states, or it has the same package
row in both and this package the same versions. -/
inductive SamePackage (leftRead rightRead : GraphRead I) (org name : String) : Prop where
  | withheld (before : Withheld left leftRead authorization org name)
      (after : Withheld right rightRead authorization org name)
  | readable (row : rightRead.packageByOrgAndName org name = leftRead.packageByOrgAndName org name)
      (versions : ∀ package canonicalOrg,
        leftRead.packageByOrgAndName org name = .ok (some (package, canonicalOrg)) →
        rightRead.packageVersion package.id = leftRead.packageVersion package.id)

structure SameRead (leftRead rightRead : GraphRead I) : Prop where
  userBySubject : rightRead.userBySubject = leftRead.userBySubject
  orgRoleForUser : rightRead.orgRoleForUser = leftRead.orgRoleForUser
  projectRoleForUser : rightRead.projectRoleForUser = leftRead.projectRoleForUser
  packages : ∀ org name, SamePackage authorization left right leftRead rightRead org name

/-- The states differ only in packages the caller is not authorized to read. -/
structure SameFor : Prop where
  registryId : right.registryId = left.registryId
  tokens : right.tokens = left.tokens
  now : right.now = left.now
  orgs : right.orgs = left.orgs
  sharedAuth : right.sharedAuth = left.sharedAuth
  applicationId : right.applicationId = left.applicationId
  reads : Option.Rel (SameRead authorization left right) left.registryRead right.registryRead

end TwoStates

variable {authorization : Option String} {left right : GraphState I}

/-- The caller's rights on a package row do not depend on other packages. -/
theorem authorizeDeclaredGraph_same (same : SameFor authorization left right)
    {leftRead rightRead : GraphRead I}
    (sameRead : SameRead authorization left right leftRead rightRead)
    (leftConfigured : left.registryRead = some leftRead)
    (rightConfigured : right.registryRead = some rightRead) (orgSlug : String)
    (package : CanonicalPackage) (canonicalOrg : Uuid) :
    authorizeDeclaredGraph right authorization orgSlug package canonicalOrg =
      authorizeDeclaredGraph left authorization orgSlug package canonicalOrg := by
  have account : authorizeAccount right rightRead authorization package canonicalOrg =
      authorizeAccount left leftRead authorization package canonicalOrg := by
    unfold authorizeAccount
    rw [same.sharedAuth, same.applicationId, sameRead.userBySubject, sameRead.orgRoleForUser,
      sameRead.projectRoleForUser]
  unfold authorizeDeclaredGraph
  rw [leftConfigured, rightConfigured, same.tokens, same.now, same.orgs]
  simp only [okOrElse, Option.elim, bind, Except.bind, account]

theorem load_withheld (contract : GraphContract I) {state : GraphState I} {read : GraphRead I}
    (configured : state.registryRead = some read) {org name : String}
    (withheld : Withheld state read authorization org name) (version : String) :
    loadAuthorizedDeclaredDocument contract state authorization org name version =
      .error graphNotFound := by
  obtain ⟨found, lookup, refused⟩ := withheld
  unfold loadAuthorizedDeclaredDocument
  rw [configured]
  simp only [okOrElse, Option.elim, bind, Except.bind, lookup, Except.mapError]
  cases found with
  | none => rfl
  | some row =>
      obtain ⟨package, canonicalOrg⟩ := row
      cases answer : authorizeDeclaredGraph state authorization org package canonicalOrg with
      | ok access => exact absurd answer (refused package canonicalOrg rfl access)
      | error error =>
          have missing := authorizeDeclaredGraph_conceals configured authorization org package
            canonicalOrg error answer
          simp only [answer, missing]

theorem load_same (contract : GraphContract I) (same : SameFor authorization left right)
    (org name version : String) :
    loadAuthorizedDeclaredDocument contract right authorization org name version =
      loadAuthorizedDeclaredDocument contract left authorization org name version := by
  have reads := same.reads
  cases leftConfigured : left.registryRead with
  | none =>
      cases rightConfigured : right.registryRead with
      | none =>
          unfold loadAuthorizedDeclaredDocument
          rw [leftConfigured, rightConfigured]
          rfl
      | some rightRead =>
          rw [leftConfigured, rightConfigured] at reads
          contradiction
  | some leftRead =>
      cases rightConfigured : right.registryRead with
      | none =>
          rw [leftConfigured, rightConfigured] at reads
          contradiction
      | some rightRead =>
          rw [leftConfigured, rightConfigured] at reads
          cases reads with
          | some sameRead =>
              cases sameRead.packages org name with
              | withheld before after =>
                  rw [load_withheld contract leftConfigured before,
                    load_withheld contract rightConfigured after]
              | readable row versions =>
                  have sameAuthority := authorizeDeclaredGraph_same same sameRead leftConfigured
                    rightConfigured org
                  unfold loadAuthorizedDeclaredDocument
                  rw [leftConfigured, rightConfigured, same.registryId]
                  simp only [okOrElse, Option.elim, bind, Except.bind, row]
                  cases lookup : leftRead.packageByOrgAndName org name with
                  | error error => rfl
                  | ok found =>
                      cases found with
                      | none => rfl
                      | some entry =>
                          obtain ⟨package, canonicalOrg⟩ := entry
                          have sameVersions := versions package canonicalOrg lookup
                          simp only [Except.mapError, sameAuthority, sameVersions]

/-- Both graph routes answer a caller alike in two states that differ only in
packages the caller is not authorized to read. -/
theorem graph_reads_disclose_nothing (contract : GraphContract I) (formats : GraphFormats)
    (renderers : GraphRenderers I) (headers : GraphHeaders)
    (same : SameFor headers.authorization left right) :
    (∀ request, getDeclaredGraph contract formats renderers right headers request =
      getDeclaredGraph contract formats renderers left headers request) ∧
    ∀ request, getDeclaredGraphExport contract formats renderers right headers request =
      getDeclaredGraphExport contract formats renderers left headers request := by
  constructor
  · intro request
    unfold getDeclaredGraph
    rw [load_same contract same]
  · intro request
    unfold getDeclaredGraphExport
    rw [load_same contract same]

/-! ## A private package -/

def sampleContract : GraphContract (Interfaces.sample [] []) where
  schema := "zpkg/dependency-graph/v1"
  maxNodes := 100
  maxEdges := 100
  maxEncodedBytes := 4096
  digestHeader := "zpkg-graph-digest"
  authoritativeHeader := "zpkg-graph-authoritative"
  validHeaderValue text := text.toList.all fun char => decide (32 ≤ char.toNat ∧ char.toNat ≠ 127)
  manifestFromValue
    | .manifest manifest => some manifest
    | _ => none
  dependencies _ := [("acme/bytes", "^1")]
  buildDependencies _ := []
  validVersion _ _ := true
  finalize document := some { document with graphDigest := some "sha256:ab12" }
  verifyDigest _ := true
  canonicalDocumentBytes document := some (asBytes document.schema)

def sampleFormats : GraphFormats where
  canonical _ := ⟨"application/vnd.zpkg.dependency-graph+json", "json", true⟩
  extended _ := ⟨"application/json5", "json5", true⟩
  parseExportName name := if name = "json5" then some .json5 else none

def sampleRenderers : GraphRenderers (Interfaces.sample [] []) where
  yaml := .ok
  toml := .ok
  dot _ := .ok []
  mermaid _ := .ok []
  xml _ := .ok []
  csv _ := .ok []
  messagePack := .ok
  protobuf _ := []

/-- A customer of the web client with a user row and no roles. -/
def strangersAuth : SharedAuth where
  introspect _ := .ok ⟨true, some "1d1a", some "https://auth.zpkg.net", none,
    [("sid", .string "s-1"), ("azp", .string "zpkg-web"), ("parent_jti", .string "p-1"),
      ("scope", .string "zpkg:account")]⟩
  parseUuid text := some ⟨text⟩

/-- The registry with these canonical packages. -/
def graphRegistry (packages : String → String → Option (CanonicalPackage × Uuid)) :
    GraphState (Interfaces.sample [] []) where
  registryId := "registry:registry.zpkg.net"
  registryRead := some {
    packagesForArtifactSha256 _ := .ok []
    userBySubject _ subject := .ok (some subject)
    orgRoleForUser _ _ := .ok none
    projectRoleForUser _ _ := .ok none
    packageByOrgAndName org name := .ok (packages org name)
    packageVersion _ _ := .ok (some (.manifest ⟨samplePackage, []⟩)) }
  tokens _ := .ok none
  now := sampleTime
  orgs := [acme]
  sharedAuth := some strangersAuth
  applicationId := "zpkg-web"

def secretPackage (org name : String) : Option (CanonicalPackage × Uuid) :=
  if org = "acme" ∧ name = "http-kit" then
    some (⟨⟨"package"⟩, some ⟨"project"⟩, "private"⟩, sampleOrg)
  else none

def strangersHeaders : GraphHeaders := ⟨some "Bearer delegated", [], []⟩

theorem secretPackage_refused :
    authorizeDeclaredGraph (graphRegistry secretPackage) strangersHeaders.authorization "acme"
      ⟨⟨"package"⟩, some ⟨"project"⟩, "private"⟩ sampleOrg = .error graphNotFound := by
  decide +kernel

theorem secretPackage_withheld (org name : String) :
    SamePackage strangersHeaders.authorization (graphRegistry secretPackage)
      (graphRegistry fun _ _ => none)
      ((graphRegistry secretPackage).registryRead.get rfl)
      ((graphRegistry fun _ _ => none).registryRead.get rfl) org name := by
  by_cases secret : org = "acme" ∧ name = "http-kit"
  · obtain ⟨rfl, rfl⟩ := secret
    apply SamePackage.withheld
    · refine ⟨_, rfl, ?_⟩
      intro package canonicalOrg found access admitted
      obtain ⟨rfl, rfl⟩ := Prod.mk.inj (Option.some.inj found)
      rw [secretPackage_refused] at admitted
      contradiction
    · refine ⟨none, rfl, ?_⟩
      intro package canonicalOrg found
      contradiction
  · apply SamePackage.readable
    · simp [graphRegistry, secretPackage, secret]
    · intro package canonicalOrg lookup
      rfl

/-- A signed-in stranger cannot tell a private package from none. -/
theorem graph_reads_disclose_nothing_sample :
    (∀ request,
      getDeclaredGraph sampleContract sampleFormats sampleRenderers
          (graphRegistry fun _ _ => none) strangersHeaders request =
        getDeclaredGraph sampleContract sampleFormats sampleRenderers
          (graphRegistry secretPackage) strangersHeaders request) ∧
    ∀ request,
      getDeclaredGraphExport sampleContract sampleFormats sampleRenderers
          (graphRegistry fun _ _ => none) strangersHeaders request =
        getDeclaredGraphExport sampleContract sampleFormats sampleRenderers
          (graphRegistry secretPackage) strangersHeaders request := by
  apply graph_reads_disclose_nothing
  refine ⟨rfl, rfl, rfl, rfl, rfl, rfl, Option.Rel.some ⟨rfl, rfl, rfl, ?_⟩⟩
  exact secretPackage_withheld

end ZedRegistry
