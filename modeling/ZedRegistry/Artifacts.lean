import ZedRegistry.ArtifactStore
import ZedRegistry.Catalog
import ZedRegistry.Files
import ZedRegistry.PackageReader

/-!
# Serving artifacts

`routes/artifacts.rs`: the download of an artifact by digest, with its check of
canonical visibility, and the download of one file by org, package, version and
path.
-/

set_option autoImplicit false

namespace ZedRegistry

/-! ## The canonical plane -/

/-- The columns of `zed_orm_core::models::PackageSummary` that the check reads. -/
structure PackageSummary where
  orgId : Uuid
  projectId : Option Uuid
  visibility : String
  deriving DecidableEq

/-- The canonical reads; a user is its id. -/
structure CanonicalRead where
  packagesForArtifactSha256 : String → Except OrmError (List PackageSummary)
  userBySubject : String → Uuid → Except OrmError (Option Uuid)
  orgRoleForUser : Uuid → Uuid → Except OrmError (Option String)
  projectRoleForUser : Uuid → Uuid → Except OrmError (Option String)

/-- The key every row is published with. -/
def WellKeyed {I : Interfaces} (row : Version I) : Prop :=
  ∃ format : ArtifactFormat,
    row.format = format.extension ∧ row.artifactKey = artifactKey row.sha256 format.extension

/-- What the artifact routes read. -/
structure ArtifactState (I : Interfaces) where
  registryRead : Option CanonicalRead
  sharedAuth : Option SharedAuth
  orgs : List Org
  packages : List (Package I)
  versions : List (Version I)
  keyed : ∀ row ∈ versions, WellKeyed row
  store : ArtifactStore
  presign : String → ApiResult String
  archives : Archives
  maxInflated : Nat

variable {I : Interfaces}

/-! ## Authorization -/

def artifactRequiresPrivateAuthorization (packages : List PackageSummary) : Bool :=
  !packages.isEmpty && packages.all fun package => package.visibility ≠ "public"

/-- The loop over the referencing packages: the first role found admits. -/
def roleInSomePackage (read : CanonicalRead) (user : Uuid) :
    List PackageSummary → ApiResult Unit
  | [] => .error (.notFound "artifact")
  | package :: rest => do
    let orgRole ← (read.orgRoleForUser package.orgId user).mapError mapOrmError
    if orgRole.isSome then pure ()
    else
      match package.projectId with
      | none => roleInSomePackage read user rest
      | some projectId => do
        let projectRole ← (read.projectRoleForUser projectId user).mapError mapOrmError
        if projectRole.isSome then pure ()
        else roleInSomePackage read user rest

def authorizeArtifactRead (state : ArtifactState I) (authorization : Option String)
    (sha256 : String) : ApiResult Unit := do
  let read ← okOrElse state.registryRead (.serviceUnavailable "registry_data_plane_unavailable"
    "canonical registry read context is not configured")
  let packages ← (read.packagesForArtifactSha256 sha256).mapError mapOrmError
  if artifactRequiresPrivateAuthorization packages = false then pure ()
  else do
    let reader ← requirePackageReader state.sharedAuth authorization
    let found ← (read.userBySubject reader.session.realm reader.session.subject).mapError
      mapOrmError
    let user ← okOrElse found (.notFound "artifact")
    roleInSomePackage read user packages

/-! ## Routes -/

structure Response where
  status : Nat
  headers : List (String × String)
  body : Bytes
  deriving DecidableEq

def artifactResponse (contentType : String) (bytes : Bytes) : Response where
  status := 200
  headers := [("content-type", contentType), ("cache-control", immutableCacheControl),
    ("content-length", toString bytes.length)]
  body := bytes

def getArtifact (state : ArtifactState I) (authorization : Option String) (sha256 : String) :
    ApiResult Response := do
  authorizeArtifactRead state authorization sha256
  let row ← okOrElse (state.versions.find? fun row => row.sha256 = sha256) (.notFound "artifact")
  match ← state.store.download state.presign row.artifactKey with
  | .redirect url => pure ⟨302, [("location", url)], []⟩
  | .bytes bytes | .file bytes =>
    pure (artifactResponse (I.contentType (artifactFormat row.format)) bytes)

/-- The path parameters of `get_file`. -/
structure FileRequest where
  org : String
  name : String
  version : String
  path : String

/-- The version row a file request names. -/
def fileVersion (state : ArtifactState I) (request : FileRequest) : ApiResult (Version I) := do
  let org ← okOrElse (state.orgs.find? fun org => org.slug = request.org) (.notFound "org")
  let package ← okOrElse (state.packages.find? fun row =>
    row.orgId = org.id ∧ row.name = request.name) (.notFound "package")
  okOrElse (state.versions.find? fun row =>
    row.packageId = package.id ∧ row.version = request.version) (.notFound "version")

def getFile (state : ArtifactState I) (request : FileRequest) : ApiResult Response := do
  let row ← fileVersion state request
  let archive ← state.store.getBytes row.artifactKey
  let found ← (extractFile state.archives state.maxInflated archive (artifactFormat row.format)
    request.path).mapError (·.toApiErr state.maxInflated)
  let file ← okOrElse found (.notFound "file")
  pure ⟨200, servedFileHeaders request.path, file⟩

/-! ## Who may read an artifact -/

/-- Every canonical reference to the digest is non-public, and there is one. -/
def PrivateDigest (state : ArtifactState I) (sha256 : String) : Prop :=
  ∃ read packages, state.registryRead = some read ∧
    read.packagesForArtifactSha256 sha256 = .ok packages ∧ packages ≠ [] ∧
    ∀ package ∈ packages, package.visibility ≠ "public"

/-- Whoever the credential identifies, if anyone, has no org and no project role
in any package that refers to the digest. -/
def WithoutRole (state : ArtifactState I) (authorization : Option String) (sha256 : String) :
    Prop :=
  ∀ read packages reader user, state.registryRead = some read →
    read.packagesForArtifactSha256 sha256 = .ok packages →
    requirePackageReader state.sharedAuth authorization = .ok reader →
    read.userBySubject reader.session.realm reader.session.subject = .ok (some user) →
    ∀ package ∈ packages, (∀ role, read.orgRoleForUser package.orgId user ≠ .ok (some role)) ∧
      ∀ project, package.projectId = some project →
        ∀ role, read.projectRoleForUser project user ≠ .ok (some role)

theorem roleInSomePackage_ok {read : CanonicalRead} {user : Uuid}
    {packages : List PackageSummary} (admitted : roleInSomePackage read user packages = .ok ()) :
    ∃ package ∈ packages, (∃ role, read.orgRoleForUser package.orgId user = .ok (some role)) ∨
      ∃ project role, package.projectId = some project ∧
        read.projectRoleForUser project user = .ok (some role) := by
  induction packages with
  | nil => simp [roleInSomePackage] at admitted
  | cons package rest ih =>
      have later : roleInSomePackage read user rest = .ok () →
          ∃ other ∈ package :: rest,
            (∃ role, read.orgRoleForUser other.orgId user = .ok (some role)) ∨
            ∃ project role, other.projectId = some project ∧
              read.projectRoleForUser project user = .ok (some role) := by
        intro admitted
        obtain ⟨other, member, role⟩ := ih admitted
        exact ⟨other, List.mem_cons_of_mem _ member, role⟩
      simp only [roleInSomePackage, bind_ok, mapError_ok] at admitted
      obtain ⟨orgRole, orgAnswer, admitted⟩ := admitted
      cases orgRole with
      | some role => exact ⟨package, List.mem_cons_self, Or.inl ⟨role, orgAnswer⟩⟩
      | none =>
          simp only [Option.isSome_none, Bool.false_eq_true, if_false] at admitted
          cases project : package.projectId with
          | none =>
              rw [project] at admitted
              exact later admitted
          | some projectId =>
              rw [project] at admitted
              simp only [bind_ok, mapError_ok] at admitted
              obtain ⟨projectRole, projectAnswer, admitted⟩ := admitted
              cases projectRole with
              | some role =>
                  exact ⟨package, List.mem_cons_self,
                    Or.inr ⟨projectId, role, project, projectAnswer⟩⟩
              | none => exact later admitted

theorem requires_private_authorization_iff (packages : List PackageSummary) :
    artifactRequiresPrivateAuthorization packages = true ↔
      packages ≠ [] ∧ ∀ package ∈ packages, package.visibility ≠ "public" := by
  simp [artifactRequiresPrivateAuthorization, List.all_eq_true]

/-- A caller without a role is refused, whatever the credential. -/
theorem authorizeArtifactRead_refused {state : ArtifactState I} {authorization : Option String}
    {sha256 : String} (secret : PrivateDigest state sha256)
    (stranger : WithoutRole state authorization sha256) :
    authorizeArtifactRead state authorization sha256 ≠ .ok () := by
  intro admitted
  obtain ⟨read, packages, configured, references, nonempty, nonpublic⟩ := secret
  have restricted : artifactRequiresPrivateAuthorization packages = true :=
    (requires_private_authorization_iff packages).mpr ⟨nonempty, nonpublic⟩
  simp only [authorizeArtifactRead, bind_ok, okOrElse_ok, mapError_ok] at admitted
  obtain ⟨read', configured', packages', references', admitted⟩ := admitted
  obtain rfl := Option.some.inj (configured.symm.trans configured')
  obtain rfl := Except.ok.inj (references.symm.trans references')
  rw [restricted] at admitted
  simp only [Bool.true_eq_false, if_false, bind_ok, okOrElse_ok, mapError_ok] at admitted
  obtain ⟨reader, authenticated, _, known, user, rfl, role⟩ := admitted
  obtain ⟨package, member, role⟩ := roleInSomePackage_ok role
  obtain ⟨noOrgRole, noProjectRole⟩ :=
    stranger read packages reader user configured references authenticated known package member
  rcases role with ⟨role, answer⟩ | ⟨project, role, owned, answer⟩
  · exact noOrgRole role answer
  · exact noProjectRole project owned role answer

/-! ## Two runs -/

/-- The stores differ at most in the bytes kept under the digest's artifact keys. -/
structure DiffersInArchive (sha256 : String) (left right : ArtifactStore) : Prop where
  backend : right.backend = left.backend
  objects : ∀ key, right.get key = left.get key ∨
    (∃ format : ArtifactFormat, key = artifactKey sha256 format.extension) ∧
      ∃ object bytes, left.get key = some object ∧ right.get key = some { object with bytes }

def withStore (state : ArtifactState I) (store : ArtifactStore) : ArtifactState I :=
  { state with store }

/-- Both routes answer the caller alike whatever the bytes of the archive are. -/
def Undisclosed (state : ArtifactState I) (sha256 : String) (authorization : Option String)
    (digest : String) (request : FileRequest) : Prop :=
  ∀ store, DiffersInArchive sha256 state.store store →
    getArtifact (withStore state store) authorization digest =
        getArtifact state authorization digest ∧
      getFile (withStore state store) request = getFile state request

/-- The file request names a version row of the digest whose object is stored. -/
def NamesArchive (state : ArtifactState I) (sha256 : String) (request : FileRequest) : Prop :=
  ∃ row object, fileVersion state request = .ok row ∧ row.sha256 = sha256 ∧
    state.store.get row.artifactKey = some object

theorem fileVersion_mem {state : ArtifactState I} {request : FileRequest} {row : Version I}
    (named : fileVersion state request = .ok row) : row ∈ state.versions := by
  simp only [fileVersion, bind_ok, okOrElse_ok] at named
  obtain ⟨_, _, _, _, found⟩ := named
  exact List.mem_of_find?_eq_some found

/-- Rows of other digests keep their objects. -/
theorem get_row_of_other_digest {state : ArtifactState I} {sha256 : String}
    {store : ArtifactStore} (differs : DiffersInArchive sha256 state.store store)
    {row : Version I} (member : row ∈ state.versions) (other : row.sha256 ≠ sha256) :
    store.get row.artifactKey = state.store.get row.artifactKey := by
  rcases differs.objects row.artifactKey with same | ⟨⟨format, key⟩, -⟩
  · exact same
  · obtain ⟨ownFormat, -, ownKey⟩ := state.keyed row member
    rw [ownKey] at key
    exact absurd (artifactKey_digest key) other

/-- Whatever is not stored in one is not stored in the other. -/
theorem get_of_absent {sha256 key : String} {left right : ArtifactStore}
    (differs : DiffersInArchive sha256 left right) (absent : left.get key = none) :
    right.get key = none := by
  rcases differs.objects key with same | ⟨-, object, bytes, stored, -⟩
  · exact same.trans absent
  · rw [absent] at stored
    contradiction

theorem getArtifact_undisclosed {state : ArtifactState I} {sha256 : String}
    {authorization : Option String} (secret : PrivateDigest state sha256)
    (stranger : WithoutRole state authorization sha256) {store : ArtifactStore}
    (differs : DiffersInArchive sha256 state.store store) (digest : String) :
    getArtifact (withStore state store) authorization digest =
      getArtifact state authorization digest := by
  have sameCheck : authorizeArtifactRead (withStore state store) authorization digest =
      authorizeArtifactRead state authorization digest := rfl
  unfold getArtifact
  rw [sameCheck]
  cases checked : authorizeArtifactRead state authorization digest with
  | error error => rfl
  | ok _ =>
      have other : digest ≠ sha256 := by
        rintro rfl
        exact authorizeArtifactRead_refused secret stranger checked
      simp only [withStore]
      cases found : state.versions.find? fun row => row.sha256 = digest with
      | none => rfl
      | some row =>
          have digestOfRow : row.sha256 = digest := by simpa using List.find?_some found
          have same := get_row_of_other_digest differs (List.mem_of_find?_eq_some found)
            (digestOfRow ▸ other)
          have sameDownload : store.download state.presign row.artifactKey =
              state.store.download state.presign row.artifactKey := by
            simp only [ArtifactStore.download, differs.backend, same]
          simp only [okOrElse, Option.elim, bind, Except.bind, sameDownload]

theorem getFile_undisclosed {state : ArtifactState I} {sha256 : String} {request : FileRequest}
    (elsewhere : ¬NamesArchive state sha256 request) {store : ArtifactStore}
    (differs : DiffersInArchive sha256 state.store store) :
    getFile (withStore state store) request = getFile state request := by
  have sameRow : fileVersion (withStore state store) request = fileVersion state request := rfl
  unfold getFile
  rw [sameRow]
  cases named : fileVersion state request with
  | error error => rfl
  | ok row =>
      have same : store.get row.artifactKey = state.store.get row.artifactKey := by
        cases stored : state.store.get row.artifactKey with
        | none => exact get_of_absent differs stored
        | some object =>
            have other : row.sha256 ≠ sha256 := by
              intro own
              exact elsewhere ⟨row, object, named, own, stored⟩
            rw [get_row_of_other_digest differs (fileVersion_mem named) other, stored]
      have sameBytes : store.getBytes row.artifactKey = state.store.getBytes row.artifactKey := by
        simp only [ArtifactStore.getBytes, same]
      simp only [bind, Except.bind, withStore, sameBytes]

/-! ## Disclosure by the file route -/

/-- The file route's answer, once its archive is read. -/
theorem getFile_of_stored (state : ArtifactState I) (object : StoredObject)
    {request : FileRequest} {row : Version I} (named : fileVersion state request = .ok row)
    (stored : state.store.get row.artifactKey = some object)
    (small : object.bytes.length ≤ maxServedFileBytes) :
    getFile state request = (do
      let found ← (extractFile state.archives state.maxInflated object.bytes
        (artifactFormat row.format) request.path).mapError (·.toApiErr state.maxInflated)
      let file ← okOrElse found (.notFound "file")
      pure ⟨200, servedFileHeaders request.path, file⟩) := by
  have buffered : object.bytes.length ≤ maxBufferedArtifactBytes := by
    unfold maxServedFileBytes at small
    unfold maxBufferedArtifactBytes
    omega
  have bytes : state.store.getBytes row.artifactKey = .ok object.bytes := by
    simp [ArtifactStore.getBytes, stored, okOrElse, guardBuffered, ensure, buffered, bind,
      Except.bind, pure, Except.pure]
  unfold getFile
  simp only [named, bind, Except.bind, bytes]

theorem differsInArchive_insert {store : ArtifactStore} {sha256 key : String}
    {object : StoredObject} (stored : store.get key = some object)
    (named : ∃ format : ArtifactFormat, key = artifactKey sha256 format.extension)
    (bytes : Bytes) : DiffersInArchive sha256 store (store.insert key { object with bytes }) where
  backend := rfl
  objects other := by
    rw [get_insert]
    split
    · rename_i same
      subst same
      exact Or.inr ⟨named, object, bytes, stored, rfl⟩
    · exact Or.inl rfl

theorem toApiErr_ne_notFound (maxInflated : Nat) (error : ExtractError) (what : String) :
    error.toApiErr maxInflated ≠ .notFound what := by
  intro same
  have status := congrArg ApiErr.status same
  cases error with
  | tooLarge => simp [ExtractError.toApiErr, ApiErr.notFound] at status
  | inflationBudgetExceeded => simp [ExtractError.toApiErr, ApiErr.notFound] at status
  | archive error => simp [ExtractError.toApiErr, ApiErr.notFound, ApiErr.internal] at status

/-- A file request that names the archive tells a sound archive from a broken one. -/
theorem getFile_discloses {state : ArtifactState I} {sha256 : String} {request : FileRequest}
    (lawful : state.archives.Lawful) (named : NamesArchive state sha256 request) :
    ∃ store, DiffersInArchive sha256 state.store store ∧
      getFile (withStore state store) request ≠ getFile state request := by
  obtain ⟨row, object, found, own, stored⟩ := named
  obtain ⟨sound, soundSmall, absent⟩ :=
    lawful.absent state.maxInflated (artifactFormat row.format) request.path
  obtain ⟨broken, brokenSmall, error, refused⟩ :=
    lawful.refused state.maxInflated (artifactFormat row.format) request.path
  have key : ∃ format : ArtifactFormat, row.artifactKey = artifactKey sha256 format.extension := by
    obtain ⟨format, -, key⟩ := state.keyed row (fileVersion_mem found)
    exact ⟨format, own ▸ key⟩
  have answer (bytes : Bytes) (small : bytes.length ≤ maxServedFileBytes) :=
    getFile_of_stored (withStore state
        (state.store.insert row.artifactKey { object with bytes }))
      { object with bytes } found (by simp [withStore]) small
  have soundAnswer := answer sound soundSmall
  have brokenAnswer := answer broken brokenSmall
  simp only [withStore, absent, refused] at soundAnswer brokenAnswer
  by_contra hidden
  push Not at hidden
  have same := (hidden _ (differsInArchive_insert stored key sound)).trans
    (hidden _ (differsInArchive_insert stored key broken)).symm
  simp only [withStore] at same
  rw [soundAnswer, brokenAnswer] at same
  exact toApiErr_ne_notFound _ _ _ (Except.error.inj same).symm

/-- Readers of a toy archive format: no bytes are no archive, one byte is an
archive without entries, and more bytes are a README and its text. -/
def sampleArchives : Archives where
  tarEntries _ archive :=
    match archive with
    | [] => .error ⟨"unexpected end of file", []⟩
    | [_] => .ok []
    | _ :: text => .ok [.ok ⟨.ok "pkg/README.md", text.length, fun limit => .ok (text.take limit)⟩]
  zipByName archive name :=
    match archive with
    | [] => .error ⟨"invalid Zip archive", []⟩
    | [_] => .ok none
    | _ :: text =>
      if name = "pkg/README.md" then
        .ok (some ⟨.ok name, text.length, fun limit => .ok (text.take limit)⟩)
      else .ok none

theorem sampleArchives_lawful : sampleArchives.Lawful where
  emptyTar := ⟨[0], by decide, fun _ _ => rfl⟩
  emptyZip := ⟨[0], by decide, fun _ => rfl⟩
  brokenTar := ⟨[], by decide, fun _ _ => ⟨_, rfl⟩⟩
  brokenZip := ⟨[], by decide, fun _ => ⟨_, rfl⟩⟩

def sampleRead : CanonicalRead where
  packagesForArtifactSha256 sha256 :=
    .ok (if sha256 = "5ec7e7" then [⟨sampleOrg, none, "private"⟩] else [])
  userBySubject _ _ := .ok none
  orgRoleForUser _ _ := .ok none
  projectRoleForUser _ _ := .ok none

/-- `acme/http-kit` is private and its version 1.2.0 has digest `5ec7e7`. -/
def privateRegistry (readme : String) : ArtifactState (Interfaces.sample [] []) where
  registryRead := some sampleRead
  sharedAuth := none
  orgs := [acme]
  packages := [insertedPackage _ ⟨"package"⟩ acme.id "http-kit" samplePackage sampleTime]
  versions := [{
    id := ⟨"version"⟩
    packageId := ⟨"package"⟩
    version := "1.2.0"
    sha256 := "5ec7e7"
    size := 3
    format := "tar.gz"
    vcsTag := "v1.2.0"
    vcsCommit := none
    artifactKey := artifactKey "5ec7e7" "tar.gz"
    yanked := false
    publishedAt := sampleTime
    mirrors := .mirrors []
    signatures := .signatures [] }]
  keyed row member := by
    obtain rfl := List.mem_singleton.mp member
    exact ⟨.tarGz, rfl, rfl⟩
  store := ⟨.memory 1000, [(artifactKey "5ec7e7" "tar.gz",
    ⟨0 :: asBytes readme, "application/gzip", immutableCacheControl, "5ec7e7"⟩)]⟩
  presign _ := .error .internal
  archives := sampleArchives
  maxInflated := defaultMaxInflatedBytes

theorem privateRegistry_private (readme : String) :
    PrivateDigest (privateRegistry readme) "5ec7e7" :=
  ⟨sampleRead, [⟨sampleOrg, none, "private"⟩], rfl, rfl, by decide, by decide⟩

theorem privateRegistry_stranger (readme : String) :
    WithoutRole (privateRegistry readme) none "5ec7e7" := by
  intro read packages reader user _ _ authenticated
  contradiction

end ZedRegistry
