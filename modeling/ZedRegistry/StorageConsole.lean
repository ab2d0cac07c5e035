import ZedRegistry.BackendErrors
import ZedRegistry.MemoryStore
import ZedRegistry.ServedArtifacts

/-!
# The storage console

`routes/storage.rs` and `storage_report.rs`: one artifact reconciled, the record of the
registry against what the store reports.  Every object carries its own digest as metadata
in every run of publishes, so a store that nobody else touches never diverges; what a
verdict says about a store that somebody did touch is its size, and the metadata only where
the backend keeps any.
-/

set_option autoImplicit false

namespace ZedRegistry.StorageConsole

open Execution PackageViews
open StorageReport (redactBackendError)

variable {I : Interfaces}

/-! ## Reports -/

inductive Reconciliation where
  | consistent
  | divergent (detail : String)
  | missing
  deriving DecidableEq

/-- `eq_ignore_ascii_case`. -/
def eqIgnoreAsciiCase (left right : String) : Bool := asciiLowercase left = asciiLowercase right

def sizeDetail (recordedBytes stored : Nat) : String :=
  "registry records " ++ toString recordedBytes ++ " bytes; store reports " ++ toString stored

def digestDetail : String :=
  "stored object digest metadata does not match the registry digest"

def reconcile (recordedBytes : Nat) (recordedSha256 : String) :
    Option ObjectHead → Reconciliation
  | none => .missing
  | some head =>
    if head.size.any fun stored => stored ≠ recordedBytes then
      .divergent (sizeDetail recordedBytes (head.size.getD 0))
    else if head.sha256.any fun stored => !eqIgnoreAsciiCase stored recordedSha256 then
      .divergent digestDetail
    else .consistent

structure StorageObjectReport where
  schema : String
  key : String
  sha256 : String
  recordedBytes : Nat
  storedBytes : Option Nat
  storedSha256 : Option String
  contentType : Option String
  cacheControl : Option String
  lastModified : Option String
  reconciliation : Reconciliation
  observedAt : String
  deriving DecidableEq

def storageObjectSchema : String := "zed.storage-object.v1"

def objectReport (key sha256 : String) (recordedBytes : Nat) (head : Option ObjectHead)
    (observedAt : String) : StorageObjectReport :=
  let described := head.getD {}
  { schema := storageObjectSchema
    key
    sha256
    recordedBytes
    storedBytes := described.size
    storedSha256 := described.sha256
    contentType := described.contentType
    cacheControl := described.cacheControl
    lastModified := described.lastModified
    reconciliation := reconcile recordedBytes sha256 head
    observedAt }

/-! ## Asking the store -/

def isNotFound (rendered : String) : Bool :=
  ["notfound", "not found", "nosuchkey", "status code: 404"].any
    (containsText (asciiLowercase rendered))

/-- What else decides the answer of a store: whether it can be asked, how the S3 client
renders an error, and the time of the last write. -/
structure HeadAnswer where
  fails : Bool
  rendered : String
  lastModified : Option String

/-- What a backend tells about an object that it holds. -/
def describe (backend : Backend) (lastModified : Option String) (object : StoredObject) :
    ObjectHead :=
  match backend with
  | .memory _ => { size := some object.bytes.length }
  | .localDir => { size := some object.bytes.length, lastModified }
  | .s3 =>
    { size := some object.bytes.length
      sha256 := some object.sha256Metadata
      contentType := some object.contentType
      cacheControl := some object.cacheControl
      lastModified }

def head (store : ArtifactStore) (answer : HeadAnswer) (key : String) :
    Except String (Option ObjectHead) :=
  let held := (store.get key).map (describe store.backend answer.lastModified)
  match store.backend with
  | .memory _ => .ok held
  | .localDir => if answer.fails then .error "reading local artifact metadata" else .ok held
  | .s3 =>
    -- An absent key is an error of the client too, told by how it reads.
    if answer.fails = false ∧ held.isSome then .ok held
    else if isNotFound answer.rendered then .ok none
    else .error (redactBackendError answer.rendered)

/-- The tokens of the registry and the time, beside what the artifact routes read. -/
structure ConsoleState (I : Interfaces) where
  registry : ArtifactState I
  tokens : String → ApiResult (Option Token)
  now : DateTimeUtc

def invalidDigest : ApiErr :=
  .badRequest "invalid_digest" "artifact digest must be 64 lowercase hex characters"

/-- A store that could not be asked is no verdict. -/
def reported (key sha256 : String) (recordedBytes : Nat) (observedAt : String) :
    Except String (Option ObjectHead) → ApiResult StorageObjectReport
  | .error error => .error (.serviceUnavailable "storage_unavailable" (redactBackendError error))
  | .ok found => .ok (objectReport key sha256 recordedBytes found observedAt)

/-- `GET /v1/storage/artifacts/{sha256}`. -/
def artifact (state : ConsoleState I) (answer : HeadAnswer) (observedAt : String)
    (authorization : Option String) (sha256 : String) : ApiResult StorageObjectReport := do
  let _token ← requireToken I.sha256 state.tokens state.now authorization
  ensure (isSha256Hex sha256 = true) invalidDigest
  let row ← okOrElse (state.registry.versions.find? fun row => row.sha256 = sha256)
    (.notFound "artifact")
  reported row.artifactKey row.sha256 (max row.size 0).toNat observedAt
    (head state.registry.store answer row.artifactKey)

/-! ## Metadata of the store over a run -/

/-- Every object carries its own digest, which is one. -/
def MetadataExact (sha256 : Bytes → String) (store : ArtifactStore) : Prop :=
  ∀ key object, store.get key = some object →
    isSha256Hex object.sha256Metadata = true ∧ object.sha256Metadata = sha256 object.bytes

theorem putVerified_metadataExact {sha256 : Bytes → String} {store : ArtifactStore}
    (exact : MetadataExact sha256 store) (answer : PutAnswer) (key : String) {bytes : Bytes}
    (contentType : String) {expected : String} (digest : sha256 bytes = expected) :
    MetadataExact sha256 (putVerified sha256 store answer key bytes contentType expected).2 := by
  intro other object found
  unfold putVerified at found
  simp only at found
  split at found
  · exact exact other object found
  · rename_i wellFormed
    split at found
    · exact exact other object found
    · split at found
      · rw [get_insert] at found
        split at found
        · obtain rfl := Option.some.inj found
          exact ⟨by simpa using wellFormed, digest.symm⟩
        · exact exact other object found
      · exact exact other object found

section Runs

variable {world next : PublishWorld I}

theorem effect_metadataExact {attempt : Nat} {publish : Publish I} {point : PublishPoint I}
    (effect : PublishEffect world attempt publish point next)
    (exact : MetadataExact I.sha256 world.store) : MetadataExact I.sha256 next.store := by
  cases effect with
  | put key answer named => exact putVerified_metadataExact exact _ _ _ rfl
  | _ => exact exact

/-- Only a put of a running publish writes to the store. -/
theorem publishStep_metadataExact {event : PublishEvent I} (invariant : PublishInvariant world)
    (exact : MetadataExact I.sha256 world.store)
    (stepped : publishStep world event = some next) : MetadataExact I.sha256 next.store := by
  cases publishStep_some stepped with
  | advanced attempt answer publish point _ running moved =>
      obtain ⟨middle, phase, effect, rfl, -, -⟩ := invariant.stepsTo running moved
      have after := effect_metadataExact effect exact
      exact after
  | _ => exact exact

theorem run_metadataExact {backend : Backend} {registryWrite : Bool}
    {events : List (PublishEvent I)}
    (run : exec publishStep (.initial I backend registryWrite) events = some world) :
    PublishInvariant world ∧ MetadataExact I.sha256 world.store := by
  refine @exec_invariant _ _ publishStep
    (fun world => PublishInvariant world ∧ MetadataExact I.sha256 world.store) ?_ _ _ _
    ⟨initial_invariant backend registryWrite, ?_⟩ run
  · intro state event next holds stepped
    exact ⟨(publishStep_preserves holds.1 stepped).1,
      publishStep_metadataExact holds.1 holds.2 stepped⟩
  · intro key object found
    cases found

end Runs

/-! ## Verdicts -/

/-- An object that bears out a row: its length, and its metadata where there is any. -/
def BearsOut (backend : Backend) (length : Nat) (sha256 : String) (object : StoredObject) :
    Prop :=
  object.bytes.length = length ∧
    (backend = .s3 → eqIgnoreAsciiCase object.sha256Metadata sha256 = true)

theorem reconcile_missing {recordedBytes : Nat} {sha256 : String} {head : Option ObjectHead} :
    reconcile recordedBytes sha256 head = .missing ↔ head = none := by
  cases head with
  | none => simp [reconcile]
  | some head =>
      simp only [reconcile, reduceCtorEq, iff_false]
      split
      · simp
      · split <;> simp

theorem reconcile_consistent {recordedBytes : Nat} {sha256 : String} {head : ObjectHead} :
    reconcile recordedBytes sha256 (some head) = .consistent ↔
      (∀ stored ∈ head.size, stored = recordedBytes) ∧
        ∀ stored ∈ head.sha256, eqIgnoreAsciiCase stored sha256 = true := by
  simp only [reconcile]
  by_cases sized : (head.size.any fun stored => stored ≠ recordedBytes) = true
  · rw [if_pos sized]
    obtain ⟨stored, member, differs⟩ := (Option.any_eq_true _ _).mp sized
    simp only [reduceCtorEq, false_iff, not_and]
    intro all
    exact absurd (all stored member) (of_decide_eq_true differs)
  · rw [if_neg sized]
    by_cases digest :
        (head.sha256.any fun stored => !eqIgnoreAsciiCase stored sha256) = true
    · rw [if_pos digest]
      obtain ⟨stored, member, differs⟩ := (Option.any_eq_true _ _).mp digest
      simp only [reduceCtorEq, false_iff, not_and]
      intro _ all
      rw [all stored member] at differs
      contradiction
    · rw [if_neg digest]
      simp only [Option.any_eq_true, not_exists, not_and] at sized digest
      refine ⟨fun _ => ⟨fun stored member => ?_, fun stored member => ?_⟩, fun _ => rfl⟩
      · simpa using sized stored member
      · simpa using digest stored member

theorem reconcile_described {backend : Backend} {lastModified : Option String}
    {object : StoredObject} {recordedBytes : Nat} {sha256 : String} :
    reconcile recordedBytes sha256 (some (describe backend lastModified object)) = .consistent ↔
      BearsOut backend recordedBytes sha256 object := by
  rw [reconcile_consistent]
  cases backend with
  | memory maxBytes => simp [describe, BearsOut]
  | localDir => simp [describe, BearsOut]
  | s3 => simp [describe, BearsOut]

theorem head_held {store : ArtifactStore} {answer : HeadAnswer} {key : String}
    {object : StoredObject} (answers : answer.fails = false) (held : store.get key = some object) :
    head store answer key = .ok (some (describe store.backend answer.lastModified object)) := by
  unfold head
  cases backend : store.backend with
  | memory maxBytes => simp [held]
  | localDir => simp [answers, held]
  | s3 => simp [answers, held]

theorem head_absent {store : ArtifactStore} {answer : HeadAnswer} {key : String}
    (answers : answer.fails = false)
    (tellsAbsent : store.backend = .s3 → isNotFound answer.rendered = true)
    (absent : store.get key = none) : head store answer key = .ok none := by
  unfold head
  cases backend : store.backend with
  | memory maxBytes => simp [absent]
  | localDir => simp [answers, absent]
  | s3 => simp [tellsAbsent backend, absent]

/-- Of an object that is there, a store only says what it is or, where the client cannot
tell, that there is none. -/
theorem head_ok {store : ArtifactStore} {answer : HeadAnswer} {key : String}
    {object : StoredObject} (held : store.get key = some object) {found : Option ObjectHead}
    (answered : head store answer key = .ok found) :
    found = some (describe store.backend answer.lastModified object) ∨
      found = none ∧ store.backend = .s3 ∧ answer.fails = true ∧
        isNotFound answer.rendered = true := by
  cases fails : answer.fails with
  | false =>
      rw [head_held fails held] at answered
      exact .inl (Except.ok.inj answered).symm
  | true =>
      unfold head at answered
      cases backend : store.backend with
      | memory maxBytes =>
          simp only [backend, held, Option.map_some, Except.ok.injEq] at answered
          exact .inl answered.symm
      | localDir => simp [backend, fails] at answered
      | s3 =>
          simp only [backend, fails, Bool.true_eq_false, false_and, if_false] at answered
          split at answered
          · rename_i told
            exact .inr ⟨(Except.ok.inj answered).symm, rfl, rfl, told⟩
          · cases answered

theorem eqIgnoreAsciiCase_refl (text : String) : eqIgnoreAsciiCase text text = true := by
  simp [eqIgnoreAsciiCase]

section Console

variable {world : PublishWorld I} {state : ConsoleState I}

/-- The row that a lookup of a served digest finds, and the object published with it. -/
structure Looked (world : PublishWorld I) (state : ConsoleState I) (sha256 : String)
    (row : Version I) (published : StoredObject) : Prop where
  member : row ∈ state.registry.versions
  same : row.sha256 = sha256
  stored : world.store.get row.artifactKey = some published
  digest : I.sha256 published.bytes = sha256
  length : (published.bytes.length : Int) = row.size
  wellFormed : isSha256Hex sha256 = true
  found : (state.registry.versions.find? fun row => row.sha256 = sha256) = some row

theorem looked_exists (invariant : PublishInvariant world)
    (exact : MetadataExact I.sha256 world.store)
    (versions : ∀ row, row ∈ state.registry.versions ↔
      ∃ key, world.versions.committed key = some row)
    {sha256 : String} (known : ∃ row ∈ state.registry.versions, row.sha256 = sha256) :
    ∃ row published, Looked world state sha256 row published := by
  have present :
      (state.registry.versions.find? fun row => row.sha256 = sha256).isSome = true := by
    obtain ⟨row, member, same⟩ := known
    exact List.find?_isSome.mpr ⟨row, member, decide_eq_true same⟩
  obtain ⟨row, found⟩ := Option.isSome_iff_exists.mp present
  have same : row.sha256 = sha256 := by simpa using List.find?_some found
  have member := List.mem_of_find?_eq_some found
  obtain ⟨key, committed⟩ := (versions row).mp member
  obtain ⟨published, stored, digest, length⟩ := invariant.artifactsStored key row committed
  obtain ⟨hex, metadata⟩ := exact _ _ stored
  refine ⟨row, published, member, same, stored, digest.trans same, length, ?_, found⟩
  rw [← same, ← digest, ← metadata]
  exact hex

theorem artifact_looked {token : Token} {authorization : Option String}
    (valid : requireToken I.sha256 state.tokens state.now authorization = .ok token)
    {sha256 : String} {row : Version I} {published : StoredObject}
    (looked : Looked world state sha256 row published) (answer : HeadAnswer)
    (observedAt : String) :
    artifact state answer observedAt authorization sha256 =
      reported row.artifactKey sha256 published.bytes.length observedAt
        (head state.registry.store answer row.artifactKey) := by
  have recorded : (max row.size 0).toNat = published.bytes.length := by
    have length := looked.length
    omega
  simp only [artifact, valid, looked.found, looked.wellFormed, ensure, okOrElse, bind,
    Except.bind, if_true, Option.elim_some, looked.same, recorded]

/-- A report that vouches for a published object. -/
structure Vouches (report : StorageObjectReport) (row : Version I) (published : StoredObject) :
    Prop where
  consistent : report.reconciliation = .consistent
  key : report.key = row.artifactKey
  sha256 : report.sha256 = I.sha256 published.bytes
  recorded : report.recordedBytes = published.bytes.length
  stored : report.storedBytes = some published.bytes.length
  metadata : ∀ stored ∈ report.storedSha256, stored = I.sha256 published.bytes

theorem vouches_described (exact : MetadataExact I.sha256 world.store) {sha256 : String}
    {row : Version I} {published : StoredObject}
    (looked : Looked world state sha256 row published) (backend : Backend)
    (lastModified : Option String) (observedAt : String) :
    Vouches (objectReport row.artifactKey sha256 published.bytes.length
      (some (describe backend lastModified published)) observedAt) row published := by
  have metadata := (exact _ _ looked.stored).2
  refine ⟨?_, rfl, looked.digest.symm, rfl, ?_, ?_⟩
  · refine reconcile_described.mpr ⟨rfl, fun _ => ?_⟩
    rw [metadata, looked.digest]
    exact eqIgnoreAsciiCase_refl sha256
  · cases backend <;> rfl
  · cases backend with
    | memory maxBytes => simp [objectReport, describe]
    | localDir => simp [objectReport, describe]
    | s3 => simp [objectReport, describe, metadata]

theorem artifact_unknown {token : Token} {authorization : Option String}
    (valid : requireToken I.sha256 state.tokens state.now authorization = .ok token)
    {sha256 : String} (unknown : ∀ row ∈ state.registry.versions, row.sha256 ≠ sha256)
    (answer : HeadAnswer) (observedAt : String) :
    artifact state answer observedAt authorization sha256 =
      .error (if isSha256Hex sha256 then .notFound "artifact" else invalidDigest) := by
  have absent : (state.registry.versions.find? fun row => row.sha256 = sha256) = none := by
    simpa using unknown
  simp only [artifact, valid, absent, okOrElse, bind, Except.bind, ensure, Option.elim_none]
  cases isSha256Hex sha256 <;> rfl

/-- Over every run of publishes: the console finds each served digest and vouches for its
object when the store can be asked; a store that cannot be asked is never said to diverge;
and a digest that no version has is refused. -/
theorem console_vouches_for_published {backend : Backend} {registryWrite : Bool}
    {events : List (PublishEvent I)}
    (run : exec publishStep (.initial I backend registryWrite) events = some world)
    (shown : Shows world state.registry) {token : Token} {authorization : Option String}
    (valid : requireToken I.sha256 state.tokens state.now authorization = .ok token)
    (answer : HeadAnswer) (observedAt sha256 : String) :
    ((∃ row ∈ state.registry.versions, row.sha256 = sha256) →
      ∃ row published, Looked world state sha256 row published ∧
        (answer.fails = false → ∃ report,
          artifact state answer observedAt authorization sha256 = .ok report ∧
            Vouches report row published) ∧
        ∀ report, artifact state answer observedAt authorization sha256 = .ok report →
          Vouches report row published ∨ report.reconciliation = .missing ∧
            world.store.backend = .s3 ∧ answer.fails = true ∧
              isNotFound answer.rendered = true) ∧
    ((∀ row ∈ state.registry.versions, row.sha256 ≠ sha256) →
      artifact state answer observedAt authorization sha256 =
        .error (if isSha256Hex sha256 then .notFound "artifact" else invalidDigest)) := by
  obtain ⟨invariant, exact⟩ := run_metadataExact run
  refine ⟨fun known => ?_, fun unknown => artifact_unknown valid unknown answer observedAt⟩
  obtain ⟨row, published, looked⟩ := looked_exists invariant exact shown.versions known
  have answered := artifact_looked valid looked answer observedAt
  rw [shown.store] at answered
  refine ⟨row, published, looked, fun answers => ?_, fun report returned => ?_⟩
  · rw [head_held answers looked.stored] at answered
    exact ⟨_, answered, vouches_described exact looked _ _ observedAt⟩
  · rw [answered] at returned
    cases told : head world.store answer row.artifactKey with
    | error error =>
        rw [told] at returned
        cases returned
    | ok found =>
        rw [told] at returned
        obtain rfl := Except.ok.inj returned
        rcases head_ok looked.stored told with rfl | ⟨rfl, s3, fails, absent⟩
        · exact .inl (vouches_described exact looked _ _ observedAt)
        · exact .inr ⟨rfl, s3, fails, absent⟩

end Console

/-! ## The first release, looked up -/

/-- A console that accepts every token. -/
def openConsole (registry : ArtifactState I) : ConsoleState I where
  registry
  tokens _ := .ok (some sampleToken)
  now := sampleTime

theorem openConsole_valid (registry : ArtifactState I) :
    requireToken I.sha256 (openConsole registry).tokens (openConsole registry).now
      (some "Bearer ci") = .ok sampleToken := by
  have bearer : bearerToken (some "Bearer ci") = some "ci" := by decide +kernel
  unfold requireToken
  rw [bearer]
  rfl

def reachable : HeadAnswer where
  fails := false
  rendered := "service error"
  lastModified := none

/-- The first release of `acme/http-kit` is a row of the tables it leaves. -/
theorem firstRelease_row :
    ∃ (world : PublishWorld PublishSample.interfaces) (key : VersionKey)
      (row : Version PublishSample.interfaces),
      exec publishStep PublishSample.start PublishSample.firstRelease = some world ∧
      world.versions.committed key = some row := by
  have seen : ((exec publishStep PublishSample.start PublishSample.firstRelease).bind fun world =>
      (getVersion id world.orgId world.packages.committed world.versions.committed "acme"
        "http-kit" "1.2.0").toOption).isSome = true := by
    decide +kernel
  obtain ⟨metadata, found⟩ := Option.isSome_iff_exists.mp seen
  obtain ⟨world, run, read⟩ := Option.bind_eq_some_iff.mp found
  obtain ⟨_, package, row, _, _, committed, _⟩ := getVersion_ok.mp (toOption_ok read)
  exact ⟨world, _, row, run, committed⟩

theorem console_vouches_for_published_sample :
    ∃ (world : PublishWorld PublishSample.interfaces)
      (state : ConsoleState PublishSample.interfaces) (row : Version PublishSample.interfaces)
      (published : StoredObject) (report : StorageObjectReport),
      exec publishStep PublishSample.start PublishSample.firstRelease = some world ∧
      artifact state reachable "2026-07-26T12:30:15Z" (some "Bearer ci") row.sha256 =
        .ok report ∧ Vouches report row published := by
  obtain ⟨world, key, row, run, committed⟩ := firstRelease_row
  obtain ⟨registry, shown, -⟩ := shows_exists run none none (fun _ => .error .internal)
    sampleArchives 0
  obtain ⟨found, published, looked, vouched, -⟩ := (@console_vouches_for_published _ _
    (openConsole registry) _ _ _ run shown _ _ (openConsole_valid registry) reachable
    "2026-07-26T12:30:15Z" row.sha256).1 ⟨row, (shown.versions row).mpr ⟨key, committed⟩, rfl⟩
  obtain ⟨report, answered, vouches⟩ := vouched rfl
  refine ⟨world, openConsole registry, found, published, report, run, ?_, vouches⟩
  rw [looked.same]
  exact answered

end ZedRegistry.StorageConsole
