import ZedRegistry.Artifacts
import ZedRegistry.LatestVersion
import ZedRegistry.ServedAttestation

/-!
# Reading back what was published

The version, artifact and file routes over the tables and the store that a run of
publishes leaves: a version that is served at all can be downloaded from then on,
with the digest its metadata states.
-/

set_option autoImplicit false

namespace ZedRegistry

open Execution PackageViews

variable {I : Interfaces}

/-! ## The artifact routes over a run -/

/-- The artifact routes read these tables, in any order of rows, and this store. -/
structure Shows (world : PublishWorld I) (state : ArtifactState I) : Prop where
  orgs : state.orgs = world.orgs
  packages : ∀ row, row ∈ state.packages ↔ ∃ key, world.packages.committed key = some row
  versions : ∀ row, row ∈ state.versions ↔ ∃ key, world.versions.committed key = some row
  store : state.store = world.store

/-- How a download of a stored object is answered. -/
def downloadResponse (state : ArtifactState I) (row : Version I) (object : StoredObject) :
    ApiResult Response :=
  match state.store.backend with
  | .memory _ | .localDir =>
    .ok (artifactResponse (I.contentType (artifactFormat row.format)) object.bytes)
  | .s3 => (state.presign row.artifactKey).map fun url => ⟨302, [("location", url)], []⟩

/-- How one file of a stored archive is answered. -/
def fileResponse (state : ArtifactState I) (row : Version I) (object : StoredObject)
    (path : String) : ApiResult Response := do
  guardBuffered object.bytes
  let found ← (extractFile state.archives state.maxInflated object.bytes
    (artifactFormat row.format) path).mapError (·.toApiErr state.maxInflated)
  let file ← okOrElse found (.notFound "file")
  pure ⟨200, servedFileHeaders path, file⟩

section Reads

variable {world : PublishWorld I} {state : ArtifactState I}

theorem download_stored {row : Version I} {object : StoredObject}
    (stored : state.store.get row.artifactKey = some object) :
    (do
      match ← state.store.download state.presign row.artifactKey with
      | .redirect url => pure (Response.mk 302 [("location", url)] [])
      | .bytes bytes | .file bytes =>
        pure (artifactResponse (I.contentType (artifactFormat row.format)) bytes)) =
      downloadResponse state row object := by
  unfold ArtifactStore.download downloadResponse
  cases state.store.backend with
  | memory maxBytes =>
      rw [stored]
      rfl
  | localDir =>
      rw [stored]
      rfl
  | s3 =>
      cases state.presign row.artifactKey with
      | error error => rfl
      | ok url => rfl

/-- The row an artifact request finds has the digest, and so has its object. -/
theorem getArtifact_shown (invariant : PublishInvariant world) (shown : Shows world state)
    {authorization : Option String} {sha256 : String}
    (allowed : authorizeArtifactRead state authorization sha256 = .ok ())
    (known : ∃ row ∈ state.versions, row.sha256 = sha256) :
    ∃ row ∈ state.versions, ∃ object, row.sha256 = sha256 ∧
      state.store.get row.artifactKey = some object ∧ I.sha256 object.bytes = sha256 ∧
      (object.bytes.length : Int) = row.size ∧
      getArtifact state authorization sha256 = downloadResponse state row object := by
  have present : (state.versions.find? fun row => row.sha256 = sha256).isSome = true := by
    obtain ⟨row, member, same⟩ := known
    exact List.find?_isSome.mpr ⟨row, member, decide_eq_true same⟩
  obtain ⟨row, found⟩ := Option.isSome_iff_exists.mp present
  have same : row.sha256 = sha256 := by simpa using List.find?_some found
  have member := List.mem_of_find?_eq_some found
  obtain ⟨key, committed⟩ := (shown.versions row).mp member
  obtain ⟨object, stored, digest, length⟩ := invariant.artifactsStored key row committed
  rw [← shown.store] at stored
  refine ⟨row, member, object, same, stored, digest.trans same, length, ?_⟩
  rw [← download_stored stored]
  simp only [getArtifact, allowed, found, okOrElse, bind, Except.bind]
  rfl

/-- A search by a test that one row alone passes finds that row. -/
theorem find_only {α : Type} {rows : List α} {test : α → Bool} {row : α} (member : row ∈ rows)
    (passes : test row = true) (only : ∀ other ∈ rows, test other = true → other = row) :
    rows.find? test = some row := by
  have present : (rows.find? test).isSome = true :=
    List.find?_isSome.mpr ⟨row, member, passes⟩
  obtain ⟨other, found⟩ := Option.isSome_iff_exists.mp present
  rw [found, only other (List.mem_of_find?_eq_some found) (List.find?_some found)]

theorem fileVersion_shown (holds : RowsHold world) (shown : Shows world state)
    {slug name ver : String} {orgId : Uuid} {package : Package I} {row : Version I}
    (org : world.orgId slug = some orgId)
    (named : world.packages.committed (orgId, name) = some package)
    (found : world.versions.committed (package.id, ver) = some row) (path : String) :
    fileVersion state ⟨slug, name, ver, path⟩ = .ok row := by
  obtain ⟨own, listed, rfl⟩ := Option.map_eq_some_iff.mp org
  have packageFound : (state.packages.find? fun row => row.orgId = own.id ∧ row.name = name) =
      some package := by
    have keyed := Prod.mk.inj (holds.keyed.committed _ _ named)
    refine find_only ((shown.packages package).mpr ⟨_, named⟩)
      (decide_eq_true ⟨keyed.1.symm, keyed.2.symm⟩) fun other member same => ?_
    obtain ⟨key, committed⟩ := (shown.packages other).mp member
    obtain ⟨sameOrg, sameName⟩ := of_decide_eq_true same
    rw [holds.keyed.committed _ _ committed, sameOrg, sameName, named] at committed
    exact (Option.some.inj committed).symm
  have versionFound : (state.versions.find? fun row =>
      row.packageId = package.id ∧ row.version = ver) = some row := by
    have keyed := Prod.mk.inj (row_key holds.invariant found)
    refine find_only ((shown.versions row).mpr ⟨_, found⟩)
      (decide_eq_true ⟨keyed.1.symm, keyed.2.symm⟩) fun other member same => ?_
    obtain ⟨key, committed⟩ := (shown.versions other).mp member
    obtain ⟨samePackage, sameVersion⟩ := of_decide_eq_true same
    rw [row_key holds.invariant committed, samePackage, sameVersion, found] at committed
    exact (Option.some.inj committed).symm
  simp only [fileVersion, bind_ok, okOrElse_ok, shown.orgs]
  exact ⟨own, listed, package, packageFound, versionFound⟩

theorem getFile_shown {request : FileRequest} {row : Version I} {object : StoredObject}
    (named : fileVersion state request = .ok row)
    (stored : state.store.get row.artifactKey = some object) :
    getFile state request = fileResponse state row object request.path := by
  have bytes : state.store.getBytes row.artifactKey =
      (guardBuffered object.bytes).map fun _ => object.bytes := by
    unfold ArtifactStore.getBytes
    rw [stored]
    cases guarded : guardBuffered object.bytes <;>
      simp [okOrElse, guarded, bind, Except.bind, Except.map, pure, Except.pure]
  unfold getFile fileResponse
  simp only [named, bytes, bind, Except.bind]
  cases guardBuffered object.bytes with
  | error error => rfl
  | ok done => rfl

end Reads

/-! ## Listing the tables -/

theorem publishStep_rowsHold {world next : PublishWorld I} {event : PublishEvent I}
    (holds : RowsHold world) (stepped : publishStep world event = some next) : RowsHold next := by
  have rows := publishStep_rows holds.invariant stepped
  obtain ⟨keys, covered⟩ := holds.covered
  exact ⟨(publishStep_preserves holds.invariant stepped).1, rows.keyed holds.keyed,
    rows.covered covered⟩

/-- All package rows, committed or not, are under these keys. -/
def PackagesCovered (keys : List PackageKey) (world : PublishWorld I) : Prop :=
  world.packages.Every fun key _ => key ∈ keys

theorem packagesCovered_cons {keys : List PackageKey} {world : PublishWorld I}
    (covered : PackagesCovered keys world) (key : PackageKey) :
    PackagesCovered (key :: keys) world :=
  { committed := fun own row found => List.mem_cons_of_mem _ (covered.committed own row found)
    pending := fun own txn row held => List.mem_cons_of_mem _ (covered.pending own txn row held) }

theorem effect_packagesCovered {world next : PublishWorld I} {attempt : Nat}
    {publish : Publish I} {point : PublishPoint I}
    (effect : PublishEffect world attempt publish point next) {keys : List PackageKey}
    (covered : PackagesCovered keys world) : ∃ keys, PackagesCovered keys next := by
  cases effect with
  | quiet | put key answer named | adopt input built adopting | record call =>
      exact ⟨keys, covered⟩
  | insert package id free absent => exact ⟨keys, covered⟩
  | rollback => exact ⟨keys, covered.rollback attempt⟩
  | land package committing => exact ⟨keys, covered.commit attempt⟩
  | upsert id clock free unused =>
      exact ⟨publish.packageKey :: keys,
        RowTable.Every.write (packagesCovered_cons covered _) List.mem_cons_self⟩
  | bump package row following fits bumping seen =>
      exact ⟨publish.packageKey :: keys,
        RowTable.Every.write (packagesCovered_cons covered _) List.mem_cons_self⟩

theorem rowStep_packagesCovered {world next : PublishWorld I} (rows : RowStep world next)
    {keys : List PackageKey} (covered : PackagesCovered keys world) :
    ∃ keys, PackagesCovered keys next := by
  unfold PackagesCovered at *
  cases rows with
  | keep packages versions => exact ⟨keys, packages ▸ covered⟩
  | effect attempt publish point middle effect packages versions =>
      exact packages ▸ effect_packagesCovered effect covered
  | yank key row yanked found packages versions => exact ⟨keys, packages ▸ covered⟩
  | index key row document encoded found packages versions =>
      exact ⟨keys, packages ▸ RowTable.Every.autocommit covered (covered.committed key row found)⟩

theorem run_packagesCovered {backend : Backend} {registryWrite : Bool}
    {events : List (PublishEvent I)} {world : PublishWorld I}
    (run : exec publishStep (.initial I backend registryWrite) events = some world) :
    ∃ keys, PackagesCovered keys world := by
  have both : RowsHold world ∧ ∃ keys, PackagesCovered keys world := by
    refine @exec_invariant _ _ publishStep
      (fun world => RowsHold world ∧ ∃ keys, PackagesCovered keys world) ?_ _ _ _
      ⟨@run_rows _ backend registryWrite [] _ rfl, [], RowTable.every_empty⟩ run
    rintro state event next ⟨holds, keys, covered⟩ stepped
    exact ⟨publishStep_rowsHold holds stepped,
      rowStep_packagesCovered (publishStep_rows holds.invariant stepped) covered⟩
  exact both.2

theorem wellKeyed_committed {world : PublishWorld I} (invariant : PublishInvariant world)
    {key : VersionKey} {row : Version I} (found : world.versions.committed key = some row) :
    WellKeyed row := by
  obtain ⟨_, publish, recorded⟩ := invariant.tables.recorded key row found
  obtain ⟨_, _, rfl⟩ := recorded.row
  exact ⟨publish.published.format, rfl, rfl⟩

/-- The tables of a run can be listed, whatever else the routes are given. -/
theorem shows_exists {backend : Backend} {registryWrite : Bool} {events : List (PublishEvent I)}
    {world : PublishWorld I}
    (run : exec publishStep (.initial I backend registryWrite) events = some world)
    (read : Option CanonicalRead) (auth : Option SharedAuth) (presign : String → ApiResult String)
    (archives : Archives) (maxInflated : Nat) :
    ∃ state : ArtifactState I, Shows world state ∧ state.registryRead = read ∧
      state.sharedAuth = auth ∧ state.presign = presign ∧ state.archives = archives ∧
      state.maxInflated = maxInflated := by
  have holds := run_rows run
  obtain ⟨versionKeys, versionsCovered⟩ := holds.covered
  obtain ⟨packageKeys, packagesCovered⟩ := run_packagesCovered run
  have versions : ∀ row, row ∈ versionKeys.filterMap world.versions.committed ↔
      ∃ key, world.versions.committed key = some row := by
    intro row
    rw [List.mem_filterMap]
    exact ⟨fun ⟨key, _, found⟩ => ⟨key, found⟩,
      fun ⟨key, found⟩ => ⟨key, versionsCovered.committed key row found, found⟩⟩
  have packages : ∀ row, row ∈ packageKeys.filterMap world.packages.committed ↔
      ∃ key, world.packages.committed key = some row := by
    intro row
    rw [List.mem_filterMap]
    exact ⟨fun ⟨key, _, found⟩ => ⟨key, found⟩,
      fun ⟨key, found⟩ => ⟨key, packagesCovered.committed key row found, found⟩⟩
  refine ⟨⟨read, auth, world.orgs, _, _, fun row member => ?_, world.store, presign, archives,
    maxInflated⟩, ⟨rfl, packages, versions, rfl⟩, rfl, rfl, rfl, rfl, rfl⟩
  obtain ⟨key, found⟩ := (versions row).mp member
  exact wellKeyed_committed holds.invariant found

/-! ## Metadata and downloads -/

/-- What the version route serves is a committed row. -/
theorem getVersion_ok {artifactUrl : String → String} {world : PublishWorld I}
    {slug name ver : String} {metadata : VersionMetadata I} :
    getVersion artifactUrl world.orgId world.packages.committed world.versions.committed slug name
        ver = .ok metadata ↔
      ∃ orgId package row, world.orgId slug = some orgId ∧
        world.packages.committed (orgId, name) = some package ∧
        world.versions.committed (package.id, ver) = some row ∧
        metadata = versionMetadata I artifactUrl slug name row := by
  simp only [getVersion, bind_ok, okOrElse_ok, pure, Except.pure, Except.ok.injEq]
  constructor
  · rintro ⟨orgId, org, package, named, row, found, rfl⟩
    exact ⟨orgId, package, row, org, named, found, rfl⟩
  · rintro ⟨orgId, package, row, org, named, found, rfl⟩
    exact ⟨orgId, org, package, named, row, found, rfl⟩

theorem Keeps.orgId {world next : PublishWorld I} (keeps : Keeps world next)
    (invariant : PublishInvariant next) {slug : String} {id : Uuid}
    (known : world.orgId slug = some id) : next.orgId slug = some id := by
  obtain ⟨org, found, rfl⟩ := Option.map_eq_some_iff.mp known
  have named : org.slug = slug := by simpa using List.find?_some found
  rw [← named]
  exact invariant.tables.orgId_of_mem (keeps.orgs org (List.mem_of_find?_eq_some found))

/-- The size of a row is not changed by its cast to the served type. -/
theorem size_stated {world : PublishWorld I} (invariant : PublishInvariant world)
    {key : VersionKey} {row : Version I} (found : world.versions.committed key = some row)
    {length : Nat} (same : (length : Int) = row.size) :
    length = (row.size % 2 ^ 64).toNat := by
  obtain ⟨_, publish, recorded⟩ := invariant.tables.recorded key row found
  obtain ⟨_, _, rfl⟩ := recorded.row
  have size : (length : Int) = publish.artifact.length := same.trans (artifactLen_eq publish)
  have fits := publish.fits
  rw [← same]
  omega

/-- Both downloads of a version that the version route serves. -/
structure Downloads (state : ArtifactState I) (slug name ver : String)
    (metadata : VersionMetadata I) : Prop where
  artifact : ∀ authorization, authorizeArtifactRead state authorization metadata.sha256 = .ok () →
    ∃ row object, state.store.get row.artifactKey = some object ∧
      I.sha256 object.bytes = metadata.sha256 ∧
      getArtifact state authorization metadata.sha256 = downloadResponse state row object
  files : ∃ row object, state.store.get row.artifactKey = some object ∧
    I.sha256 object.bytes = metadata.sha256 ∧ object.bytes.length = metadata.size ∧
    ∀ path, getFile state ⟨slug, name, ver, path⟩ = fileResponse state row object path

theorem downloads_of_served {world now : PublishWorld I} (holds : RowsHold world)
    (holds' : RowsHold now) (keeps : Keeps world now) {artifactUrl : String → String}
    {slug name ver : String} {metadata : VersionMetadata I}
    (served : getVersion artifactUrl world.orgId world.packages.committed world.versions.committed
      slug name ver = .ok metadata) {state : ArtifactState I} (shown : Shows now state) :
    Downloads state slug name ver metadata := by
  obtain ⟨orgId, package, row, org, named, found, rfl⟩ := getVersion_ok.mp served
  obtain ⟨yanked, kept⟩ := keeps.versions _ _ found
  obtain ⟨package', named', same⟩ := keeps.packages _ _ named
  have member := (shown.versions _).mpr ⟨_, kept⟩
  constructor
  · intro authorization allowed
    obtain ⟨other, -, object, -, stored, digest, -, answered⟩ :=
      getArtifact_shown holds'.invariant shown allowed ⟨_, member, rfl⟩
    exact ⟨other, object, stored, digest, answered⟩
  · obtain ⟨object, stored, digest, length⟩ := holds'.invariant.artifactsStored _ _ kept
    rw [← shown.store] at stored
    refine ⟨yankedVersion row yanked, object, stored, digest, ?_, fun path => ?_⟩
    · exact size_stated holds.invariant found length
    · refine getFile_shown (fileVersion_shown holds' shown (keeps.orgId holds'.invariant org) named'
        ?_ path) stored
      rw [same]
      exact kept

/-- From the moment its metadata is served, a version can be downloaded: by digest for whoever
may read that digest, and file by file, out of bytes that have the digest and the size stated. -/
theorem served_version_downloads {backend : Backend} {registryWrite : Bool}
    {before later : List (PublishEvent I)} {world now : PublishWorld I}
    (run : exec publishStep (.initial I backend registryWrite) before = some world)
    {artifactUrl : String → String} {slug name ver : String} {metadata : VersionMetadata I}
    (served : getVersion artifactUrl world.orgId world.packages.committed world.versions.committed
      slug name ver = .ok metadata)
    (after : exec publishStep world later = some now) {state : ArtifactState I}
    (shown : Shows now state) : Downloads state slug name ver metadata := by
  have holds := run_rows run
  have holds' := run_rows ((exec_append_some publishStep).mpr ⟨world, run, after⟩)
  exact downloads_of_served holds holds' (exec_keeps_publish holds.invariant after) served shown

/-- No package of the canonical plane is behind a digest. -/
def openRead : CanonicalRead := { sampleRead with packagesForArtifactSha256 := fun _ => .ok [] }

theorem openRead_allows {state : ArtifactState I} (open' : state.registryRead = some openRead)
    (authorization : Option String) (sha256 : String) :
    authorizeArtifactRead state authorization sha256 = .ok () := by
  unfold authorizeArtifactRead
  rw [open']
  rfl

/-- The first release of `acme/http-kit`, read by name and downloaded by digest. -/
theorem served_version_downloads_sample :
    ∃ (world : PublishWorld PublishSample.interfaces)
      (state : ArtifactState PublishSample.interfaces)
      (metadata : VersionMetadata PublishSample.interfaces) (row : Version PublishSample.interfaces)
      (object : StoredObject),
      exec publishStep PublishSample.start PublishSample.firstRelease = some world ∧
      getVersion id world.orgId world.packages.committed world.versions.committed "acme"
        "http-kit" "1.2.0" = .ok metadata ∧
      PublishSample.interfaces.sha256 object.bytes = metadata.sha256 ∧
      getArtifact state none metadata.sha256 = downloadResponse state row object := by
  have seen : ((exec publishStep PublishSample.start PublishSample.firstRelease).bind fun world =>
      (getVersion id world.orgId world.packages.committed world.versions.committed "acme"
        "http-kit" "1.2.0").toOption).isSome = true := by
    decide +kernel
  obtain ⟨metadata, found⟩ := Option.isSome_iff_exists.mp seen
  obtain ⟨world, run, read⟩ := Option.bind_eq_some_iff.mp found
  obtain ⟨state, shown, open', -⟩ := shows_exists run (some openRead) none
    (fun _ => .error .internal) sampleArchives 0
  obtain ⟨row, object, -, digest, answered⟩ := (served_version_downloads run (toOption_ok read)
    (exec_nil publishStep world) shown).artifact none (openRead_allows open' none _)
  exact ⟨world, state, metadata, row, object, run, toOption_ok read, digest, answered⟩

end ZedRegistry
