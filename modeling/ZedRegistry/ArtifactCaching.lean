import ZedRegistry.Artifacts
import ZedRegistry.GraphCaching

/-!
# Artifacts behind a shared cache

`get_artifact` marks every archive it serves as public and immutable, also one that it serves
to a member of a private package.  A shared cache may hand that archive to anyone; a redirect
to the object store is not kept.
-/

set_option autoImplicit false

namespace ZedRegistry

namespace ArtifactCaching

open GraphCaching SharedCache

/-- A `GET` of an artifact. -/
structure ArtifactQuery where
  sha256 : String
  authorization : Option String

def artifactField (query : ArtifactQuery) (name : String) : List (Option String) :=
  if name = "authorization" then query.authorization.toList.map some else []

/-- The artifact route as a cache sees it.  It reads no condition. -/
def artifactHttp : Http String ArtifactQuery Response where
  target := ArtifactQuery.sha256
  field := artifactField
  conditioned query _ := query
  status := Response.status
  headers := Response.headers
  withHeaders response headers := { response with headers }

section Route

variable {I : Interfaces} (errorBody : ApiErr → Bytes)

def artifactAnswer (state : ArtifactState I) (query : ArtifactQuery) : Response :=
  intoResponse errorBody (getArtifact state query.authorization query.sha256)

/-- An archive is redirected to on S3 and served by the other backends. -/
theorem getArtifact_served {state : ArtifactState I} {authorization : Option String}
    {sha256 : String} {response : Response}
    (served : getArtifact state authorization sha256 = .ok response) :
    (state.store.backend = .s3 ∧ ∃ url, response = ⟨302, [("location", url)], []⟩) ∨
      (state.store.backend ≠ .s3 ∧
        ∃ contentType bytes, response = artifactResponse contentType bytes) := by
  obtain ⟨_, _, served⟩ := bind_ok.mp served
  obtain ⟨row, _, served⟩ := bind_ok.mp served
  obtain ⟨download, downloaded, served⟩ := bind_ok.mp served
  unfold ArtifactStore.download at downloaded
  cases backend : state.store.backend with
  | s3 =>
      rw [backend] at downloaded
      cases signed : state.presign row.artifactKey with
      | error error =>
          rw [signed] at downloaded
          contradiction
      | ok url =>
          rw [signed] at downloaded
          obtain rfl := Except.ok.inj downloaded
          exact .inl ⟨rfl, url, (Except.ok.inj served).symm⟩
  | memory maxBytes =>
      rw [backend] at downloaded
      cases found : state.store.get row.artifactKey with
      | none =>
          rw [found] at downloaded
          contradiction
      | some object =>
          rw [found] at downloaded
          obtain rfl := Except.ok.inj downloaded
          exact .inr ⟨nofun, _, _, (Except.ok.inj served).symm⟩
  | localDir =>
      rw [backend] at downloaded
      cases found : state.store.get row.artifactKey with
      | none =>
          rw [found] at downloaded
          contradiction
      | some object =>
          rw [found] at downloaded
          obtain rfl := Except.ok.inj downloaded
          exact .inr ⟨nofun, _, _, (Except.ok.inj served).symm⟩

/-! ## What may be kept -/

theorem directives_of_archive (contentType : String) (bytes : Bytes) :
    artifactHttp.directives (artifactResponse contentType bytes) =
      ["public".toList, "max-age".toList, "immutable".toList] := by
  change (members immutableCacheControl).map _ = _
  decide +kernel

/-- Whoever asked for it, the archive may be kept. -/
theorem archive_stored (query : ArtifactQuery) (contentType : String) (bytes : Bytes) :
    artifactHttp.rules.storable query (artifactResponse contentType bytes) = true := by
  have directs (name : String) :
      artifactHttp.directs (artifactResponse contentType bytes) name =
        ["public".toList, "max-age".toList, "immutable".toList].contains name.toList := by
    rw [Http.directs, directives_of_archive]
  have shared : artifactHttp.directs (artifactResponse contentType bytes) "public" = true := by
    rw [directs]
    decide +kernel
  have kept : artifactHttp.directs (artifactResponse contentType bytes) "no-store" = false := by
    rw [directs]
    decide +kernel
  have opened : artifactHttp.directs (artifactResponse contentType bytes) "private" = false := by
    rw [directs]
    decide +kernel
  change artifactHttp.mayStore query (artifactResponse contentType bytes) = true
  unfold Http.mayStore Http.cacheable Http.shareable
  rw [shared, kept, opened]
  simp [artifactHttp, artifactResponse]

/-- It fits whoever asks for the digest, and stays fresh. -/
theorem archive_reused (stored : ArtifactQuery) (authorization : Option String)
    (contentType : String) (bytes : Bytes) :
    artifactHttp.rules.selects stored (artifactResponse contentType bytes)
        ⟨stored.sha256, authorization⟩ = true ∧
      artifactHttp.rules.fresh (artifactResponse contentType bytes) = true := by
  constructor
  · change artifactHttp.fits stored _ _ = true
    unfold Http.fits
    simp [artifactHttp, artifactField, artifactResponse, List.lookup_cons]
  · change (!artifactHttp.directs (artifactResponse contentType bytes) "no-cache") = true
    rw [Http.directs, directives_of_archive]
    decide +kernel

/-- Neither a redirect nor a refusal is kept. -/
theorem redirected_not_stored {state : ArtifactState I} (redirects : state.store.backend = .s3)
    (query : ArtifactQuery) :
    artifactHttp.rules.storable query (artifactAnswer errorBody state query) = false := by
  unfold artifactAnswer
  cases served : getArtifact state query.authorization query.sha256 with
  | error error => exact artifactHttp.not_stored rfl
  | ok response =>
      rcases getArtifact_served served with ⟨_, url, rfl⟩ | ⟨other, _⟩
      · change artifactHttp.mayStore query ⟨302, [("location", url)], []⟩ = false
        unfold Http.mayStore Http.cacheable Http.directs Http.directives
        simp [artifactHttp, heuristicallyCacheable, List.lookup_cons]
      · exact absurd redirects other

end Route

/-- A private archive that a reader fetches through a shared cache is handed out of the store
to a stranger whom the registry refuses, unless the backend is S3: there every client gets what
the registry answers it. -/
theorem private_archives_shared_unless_redirected {I : Interfaces} (errorBody : ApiErr → Bytes)
    {state : ArtifactState I} {sha256 : String} (secret : PrivateDigest state sha256)
    {reader stranger : Option String} (without : WithoutRole state stranger sha256)
    {response : Response} (served : getArtifact state reader sha256 = .ok response) :
    (∃ error, artifactAnswer errorBody state ⟨sha256, stranger⟩ = errorResponse errorBody error) ∧
      (state.store.backend ≠ .s3 →
        ∃ final, Execution.exec (cacheStep artifactHttp.rules (artifactAnswer errorBody))
            (.initial state) [.forwarded ⟨sha256, reader⟩, .reused 0 ⟨sha256, stranger⟩] =
              some final ∧
          ∃ delivery ∈ final.delivered, delivery.request = ⟨sha256, stranger⟩ ∧
            delivery.source = .store ∧ delivery.answer = response) ∧
      (state.store.backend = .s3 → ∀ events final,
        (∀ world : ArtifactState I, .changed world ∈ events → world.store.backend = .s3) →
        Execution.exec (cacheStep artifactHttp.rules (artifactAnswer errorBody))
            (.initial state) events = some final →
          ∀ delivery ∈ final.delivered, delivery.source ≠ .store ∧
            delivery.answer = artifactAnswer errorBody delivery.world delivery.request) := by
  refine ⟨?_, ?_, ?_⟩
  · cases refused : authorizeArtifactRead state stranger sha256 with
    | ok _ => exact absurd refused (authorizeArtifactRead_refused secret without)
    | error error =>
        refine ⟨error, ?_⟩
        unfold artifactAnswer getArtifact
        dsimp only
        rw [refused]
        rfl
  · intro serves
    obtain ⟨redirects, _⟩ | ⟨_, contentType, bytes, rfl⟩ := getArtifact_served served
    · exact absurd redirects serves
    · have answered : artifactAnswer errorBody state ⟨sha256, reader⟩ =
          artifactResponse contentType bytes := by
        unfold artifactAnswer
        rw [served]
        rfl
      have kept := archive_stored ⟨sha256, reader⟩ contentType bytes
      obtain ⟨fits, fresh⟩ := archive_reused ⟨sha256, reader⟩ stranger contentType bytes
      have stepped : cacheStep artifactHttp.rules (artifactAnswer errorBody) (.initial state)
          (.forwarded ⟨sha256, reader⟩) = some ⟨state, [state],
            [(⟨sha256, reader⟩, artifactResponse contentType bytes)],
            [⟨⟨sha256, reader⟩, artifactResponse contentType bytes, .origin, state, [state]⟩]⟩ := by
        change some (handOut _ _ _ _ (artifactAnswer errorBody state ⟨sha256, reader⟩)) = _
        rw [answered]
        unfold handOut
        rw [if_pos kept]
        rfl
      have again : cacheStep artifactHttp.rules (artifactAnswer errorBody) ⟨state, [state],
            [(⟨sha256, reader⟩, artifactResponse contentType bytes)],
            [⟨⟨sha256, reader⟩, artifactResponse contentType bytes, .origin, state, [state]⟩]⟩
          (.reused 0 ⟨sha256, stranger⟩) = some ⟨state, [state],
            [(⟨sha256, reader⟩, artifactResponse contentType bytes)],
            [⟨⟨sha256, stranger⟩, artifactResponse contentType bytes, .store, state, [state]⟩,
              ⟨⟨sha256, reader⟩, artifactResponse contentType bytes, .origin, state, [state]⟩]⟩ := by
        apply if_pos
        rw [fits, fresh]
        rfl
      exact ⟨_, (Execution.exec_cons_some _).mpr ⟨_, stepped,
        (Execution.exec_cons_some _).mpr ⟨_, again, rfl⟩⟩, _, List.mem_cons_self, rfl, rfl, rfl⟩
  · intro redirects events final within run
    have barred (world : ArtifactState I) (request : ArtifactQuery)
        (onS3 : world.store.backend = .s3) :
        artifactHttp.rules.storable request (artifactAnswer errorBody world request) = false :=
      redirected_not_stored errorBody onS3 request
    exact delivered_by_origin barred redirects within run

/-- A member of the CLI. -/
def cliAuth : SharedAuth where
  introspect _ := .ok ⟨true, some "1d1a", some "https://auth.zpkg.net", none,
    [("sid", .string "s-1"), ("azp", .string "zpkg-cli"), ("parent_jti", .string "p-1"),
      ("scope", .string "zpkg:packages:read")]⟩
  parseUuid text := some ⟨text⟩

def memberRead : CanonicalRead where
  packagesForArtifactSha256 := sampleRead.packagesForArtifactSha256
  userBySubject _ _ := .ok (some ⟨"1d1a"⟩)
  orgRoleForUser _ _ := .ok (some "member")
  projectRoleForUser _ _ := .ok none

/-- The private package with one member. -/
def memberRegistry : ArtifactState (Interfaces.sample [] []) :=
  { privateRegistry "Alpha" with registryRead := some memberRead, sharedAuth := some cliAuth }

theorem private_archives_shared_unless_redirected_sample :
    ∃ final, Execution.exec
        (cacheStep artifactHttp.rules (artifactAnswer fun error => asBytes error.message))
        (.initial memberRegistry)
        [.forwarded ⟨"5ec7e7", some "Bearer cli"⟩, .reused 0 ⟨"5ec7e7", none⟩] = some final ∧
      ∃ delivery ∈ final.delivered, delivery.request = ⟨"5ec7e7", none⟩ ∧
        delivery.source = .store ∧
        delivery.answer = artifactResponse "application/gzip" (0 :: asBytes "Alpha") := by
  have secret : PrivateDigest memberRegistry "5ec7e7" :=
    ⟨memberRead, [⟨sampleOrg, none, "private"⟩], rfl, rfl, by decide, by decide⟩
  have without : WithoutRole memberRegistry none "5ec7e7" := by
    intro read packages reader user _ _ authenticated
    contradiction
  have served : getArtifact memberRegistry (some "Bearer cli") "5ec7e7" =
      .ok (artifactResponse "application/gzip" (0 :: asBytes "Alpha")) := by decide +kernel
  exact (private_archives_shared_unless_redirected (fun error => asBytes error.message) secret
    without served).2.1 (by decide)

end ArtifactCaching

end ZedRegistry
