import ZedRegistry.ApplicationRoutes

/-!
# What the registry host exposes

An allowed path has the segments of one arm of the boundary.  Read as templates, the arms
are apart from every template of the application but the one they name.
-/

set_option autoImplicit false

namespace ZedRegistry.RegistryHost

open RouteTemplates

/-! ## Arms as templates -/

def shape : SegmentPattern → Piece Char
  | .word text => .fixed text.toList
  | .files => .tail
  | _ => .parameter

theorem admits_nonempty {pattern : SegmentPattern} (worded : pattern ≠ .word "")
    {segment : List Char} (admitted : pattern.admits segment = true) : segment ≠ [] := by
  rintro rfl
  cases pattern with
  | word text =>
      have blank : "".toList = text.toList := by simpa [SegmentPattern.admits] using admitted
      exact worded (congrArg _ (String.toList_inj.mp blank).symm)
  | slug => simp [SegmentPattern.admits, RegistryHost.slug] at admitted
  | version => simp [SegmentPattern.admits, versionSegment] at admitted
  | digest => simp [SegmentPattern.admits, sha256, byteLength] at admitted
  | resolution => exact absurd admitted (by decide)
  | files => simp [SegmentPattern.admits, fileSegment] at admitted

theorem files_worded : SegmentPattern.files ≠ .word "" := nofun

theorem covers_shape {patterns : List SegmentPattern} (worded : .word "" ∉ patterns)
    {segments : List (List Char)} (matched : matchesSegments patterns segments = true) :
    covers (patterns.map shape) segments = true ∧ ∀ segment ∈ segments, segment ≠ [] := by
  fun_induction matchesSegments patterns segments with
  | case1 => exact ⟨covers_nil.mpr rfl, fun segment member => absurd member List.not_mem_nil⟩
  | case2 rest =>
      simp only [Bool.and_eq_true, decide_eq_true_eq, List.all_eq_true] at matched
      have filled : ∀ segment ∈ rest, segment ≠ [] := fun segment member =>
        admits_nonempty files_worded (matched.2 segment member)
      refine ⟨covers_tail.mpr ⟨matched.1, ?_⟩, filled⟩
      rintro rfl
      exact filled [] (List.mem_singleton_self _) rfl
  | case3 pattern patterns segment segments final ih =>
      simp only [List.mem_cons, not_or] at worded
      obtain ⟨admitted, later⟩ := Bool.and_eq_true_iff.mp matched
      have filled := admits_nonempty (Ne.symm worded.1) admitted
      obtain ⟨covered, others⟩ := ih worded.2 later
      refine ⟨?_, by simpa using ⟨filled, others⟩⟩
      cases pattern with
      | word text =>
          have same : segment = text.toList := by simpa [SegmentPattern.admits] using admitted
          exact covers_fixed.mpr ⟨segments, by rw [same], covered⟩
      | files => exact covers_tail.mpr ⟨by simp, fun single => filled (List.cons.inj single).1⟩
      | _ => exact covers_parameter.mpr ⟨segment, segments, rfl, filled, covered⟩
  | case4 => simp at matched

/-! ## The segments of an allowed path -/

theorem trailing_split {body : List Char} (single : ¬ ['/', '/'] <:+: '/' :: body) :
    body.splitOn '/' = (trimEndMatches '/' body).splitOn '/' ∨
      body.splitOn '/' = (trimEndMatches '/' body).splitOn '/' ++ [[]] := by
  unfold trimEndMatches
  rcases List.eq_nil_or_concat' body with rfl | ⟨front, last, rfl⟩
  · exact .inl rfl
  · by_cases slash : last = '/'
    · subst slash
      right
      rw [List.rdropWhile_concat_pos (· == '/') front '/' (beq_self_eq_true _)]
      have kept : front.rdropWhile (· == '/') = front := by
        rcases List.eq_nil_or_concat' front with rfl | ⟨before, other, rfl⟩
        · rfl
        · refine List.rdropWhile_concat_neg _ _ _ fun slash => single ?_
          rw [beq_iff_eq.mp slash]
          exact ⟨'/' :: before, [], by simp⟩
      rw [kept, List.splitOn_append_cons_self]
      rfl
    · left
      rw [List.rdropWhile_concat_neg _ _ _ (by simpa using slash)]

theorem registryRoute_arm {path : String} {spec : RouteSpec}
    (found : registryRoute path = some spec) :
    ∃ arm ∈ arms, arm.spec = spec ∧ ∃ body segments, path.toList = '/' :: body ∧
      matchesSegments arm.pattern segments = true ∧
      (body.splitOn '/' = segments ∨ body.splitOn '/' = segments ++ [[]]) := by
  unfold registryRoute at found
  by_cases refused : refusedPath path = true
  · simp [refused] at found
  · rw [if_neg refused] at found
    have single : ¬ ['/', '/'] <:+: path.toList := by
      simp only [refusedPath, Bool.or_eq_true, not_or] at refused
      simpa [containsText] using refused.2
    cases spelled : path.toList with
    | nil => simp [spelled] at found
    | cons first body =>
        rw [spelled] at found single
        by_cases slash : first = '/'
        · subst slash
          obtain ⟨arm, first, rfl⟩ := Option.map_eq_some_iff.mp found
          have matched := List.find?_some first
          exact ⟨arm, List.mem_of_find?_eq_some first, rfl, body, _, rfl, matched,
            trailing_split single⟩
        · simp [slash] at found

/-! ## Templates that cover an allowed path -/

theorem Endpoint.accepts_body {endpoint : Endpoint} {path : String} {body : List Char}
    (spelled : path.toList = '/' :: body) :
    endpoint.accepts path = covers (pieces endpoint.template) (body.splitOn '/') := by
  simp [Endpoint.accepts, spelled]

def constantRoutes : List Endpoint :=
  apiDocsRouter ++ accountRouter ++ storageRoutes ++ unnamedRoutes

def namedRoutes : List Endpoint := arms.map fun arm => arm.spec.name.endpoint

theorem arms_worded : ∀ arm ∈ arms, .word "" ∉ arm.pattern := by decide

/-- Read together, so that each template is taken apart only once. -/
theorem constant_templates : ∀ endpoint ∈ constantRoutes, Solid (pieces endpoint.template) ∧
    ∀ arm ∈ arms, apart (arm.pattern.map shape) (pieces endpoint.template) = true := by
  decide +kernel

theorem named_templates : ∀ endpoint ∈ namedRoutes, Solid (pieces endpoint.template) ∧
    ∀ arm ∈ arms, endpoint = arm.spec.name.endpoint ∨
      apart (arm.pattern.map shape) (pieces endpoint.template) = true := by
  decide +kernel

theorem arms_rooted : ∀ arm ∈ arms, ∃ root ∈ resourceRoots,
    root.map .fixed <+: arm.pattern.map shape := by
  decide +kernel

theorem solid_accepts_arm {path : String} {body : List Char} {segments : List (List Char)}
    (spelled : path.toList = '/' :: body) (filled : ∀ segment ∈ segments, segment ≠ [])
    (split : body.splitOn '/' = segments ∨ body.splitOn '/' = segments ++ [[]])
    {endpoint : Endpoint} (solid : Solid (pieces endpoint.template))
    (accepted : endpoint.accepts path = true) :
    covers (pieces endpoint.template) segments = true := by
  rw [Endpoint.accepts_body spelled] at accepted
  rcases split with same | trailing
  · rwa [same] at accepted
  · rw [trailing] at accepted
    exact covers_without_trailing solid filled accepted

theorem piece_literal {text : List Char} (literal : text.head? ≠ some '{') :
    piece text = .fixed text := by
  unfold piece
  split
  · exact absurd rfl literal
  · exact absurd rfl literal
  · rfl

theorem BootstrapPath.pieces_path (bootstrap : BootstrapPath) :
    pieces bootstrap.path = bootstrap.segments.map .fixed := by
  have split := List.splitOn_intercalate '/' (fun segment member =>
    (bootstrap.literal segment member).1) bootstrap.nonempty
  rw [pieces, path, String.toList_ofList, List.drop_succ_cons, List.drop_zero, split]
  apply List.map_congr_left
  intro segment member
  exact piece_literal (bootstrap.literal segment member).2

theorem bootstrap_refuses_arm (bootstrap : BootstrapPath) {arm : Arm} (member : arm ∈ arms)
    {path : String} {body : List Char} {segments : List (List Char)}
    (spelled : path.toList = '/' :: body)
    (covered : covers (arm.pattern.map shape) segments = true)
    (split : body.splitOn '/' = segments ∨ body.splitOn '/' = segments ++ [[]]) :
    bootstrap.endpoint.accepts path = false := by
  rw [← Bool.not_eq_true, Endpoint.accepts_body spelled]
  intro accepted
  have same : body.splitOn '/' = bootstrap.segments :=
    covers_all_fixed (bootstrap.pieces_path ▸ accepted)
  obtain ⟨root, listed, rest, shaped⟩ := arms_rooted arm member
  have rooted : root <+: segments := fixed_prefix (shaped ▸ covered)
  have within : segments <+: body.splitOn '/' := by
    rcases split with same | trailing
    · rw [same]
    · rw [trailing]
      exact List.prefix_append _ _
  exact bootstrap.outside root listed (same ▸ rooted.trans within)

theorem mem_registryRouter {bootstrap : BootstrapPath} {endpoint : Endpoint}
    (member : endpoint ∈ registryRouter bootstrap) :
    endpoint = bootstrap.endpoint ∨ endpoint ∈ namedRoutes ∨
      endpoint ∈ storageRoutes ++ unnamedRoutes := by
  have named : ∀ endpoint ∈ artifactRoutes ++ graphRoutes ++ publishRoute,
      endpoint ∈ namedRoutes := by decide +kernel
  simp only [registryRouter, List.mem_append] at member
  rcases member with ((((((resource | unnamed) | alone) | audit) | artifact) | graph) | storage) |
    publish
  · refine .inr (.inl ?_)
    revert endpoint
    decide +kernel
  · exact .inr (.inr (List.mem_append_right _ unnamed))
  · exact .inl (List.mem_singleton.mp alone)
  · refine .inr (.inl ?_)
    revert endpoint
    decide +kernel
  · exact .inr (.inl (named endpoint (List.mem_append_left _ (List.mem_append_left _ artifact))))
  · exact .inr (.inl (named endpoint (List.mem_append_left _ (List.mem_append_right _ graph))))
  · exact .inr (.inr (List.mem_append_left _ storage))
  · exact .inr (.inl (named endpoint (List.mem_append_right _ publish)))

theorem mem_constantRoutes {endpoint : Endpoint}
    (member : endpoint ∈ storageRoutes ++ unnamedRoutes) : endpoint ∈ constantRoutes := by
  rw [constantRoutes, List.append_assoc]
  exact List.mem_append_right _ member

/-- What a path that the boundary knows is accepted by. -/
theorem known_path_accepted {path : String} {spec : RouteSpec}
    (found : registryRoute path = some spec) :
    (∀ endpoint ∈ constantRoutes, endpoint.accepts path = false) ∧
      (∀ bootstrap : BootstrapPath, bootstrap.endpoint.accepts path = false) ∧
      ∀ endpoint ∈ namedRoutes, endpoint.accepts path = true →
        endpoint = spec.name.endpoint := by
  obtain ⟨arm, member, rfl, body, segments, spelled, matched, split⟩ := registryRoute_arm found
  obtain ⟨covered, filled⟩ := covers_shape (arms_worded arm member) matched
  refine ⟨?_, fun bootstrap => bootstrap_refuses_arm bootstrap member spelled covered split, ?_⟩
  · intro endpoint listed
    rw [← Bool.not_eq_true]
    intro accepted
    obtain ⟨solid, separated⟩ := constant_templates endpoint listed
    have also := solid_accepts_arm spelled filled split solid accepted
    rw [apart_sound (separated arm member) covered] at also
    cases also
  · intro endpoint listed accepted
    obtain ⟨solid, others⟩ := named_templates endpoint listed
    have also := solid_accepts_arm spelled filled split solid accepted
    rcases others arm member with same | separated
    · exact same
    · rw [apart_sound separated covered] at also
      cases also

theorem known_path_application (bootstrap : BootstrapPath) {path : String} {spec : RouteSpec}
    (found : registryRoute path = some spec) {endpoint : Endpoint}
    (member : endpoint ∈ application bootstrap) (accepted : endpoint.accepts path = true) :
    endpoint = spec.name.endpoint := by
  obtain ⟨constants, bootstraps, named⟩ := known_path_accepted found
  have refused : endpoint ∉ constantRoutes := by
    intro constant
    rw [constants endpoint constant] at accepted
    cases accepted
  simp only [constantRoutes, List.mem_append, not_or] at refused
  simp only [application, List.mem_append] at member
  rcases member with (docs | registry) | account
  · exact absurd docs refused.1.1.1
  · rcases mem_registryRouter registry with rfl | listed | constant
    · rw [bootstraps bootstrap] at accepted
      cases accepted
    · exact named endpoint listed accepted
    · rw [constants endpoint (mem_constantRoutes constant)] at accepted
      cases accepted
  · exact absurd account refused.1.1.2

theorem allowed_route {host : Option String} {method path : String} {route : RouteName}
    {mutating : Bool} (allowed : decide host method path = .allow route mutating) :
    ∃ spec, registryRoute path = some spec ∧ spec.name = route := by
  unfold decide at allowed
  by_cases registry : host.any isRegistryHost = true
  · rw [registry] at allowed
    cases found : registryRoute path with
    | none => simp [found] at allowed
    | some spec =>
        refine ⟨spec, rfl, ?_⟩
        by_cases served : method ∈ spec.methods
        · simp only [found, served, not_true_eq_false, if_false] at allowed
          exact (BoundaryDecision.allow.inj allowed).1
        · simp [found, served] at allowed
  · rw [Bool.not_eq_true] at registry
    simp [registry] at allowed

/-! ## The registry host -/

/-- An allowed path is refused by every account, storage and documentation template, and
goes to the endpoint that the boundary names or to the 404 fallback. -/
theorem registry_host_exposes_named_route (bootstrap : BootstrapPath) {host : Option String}
    {method path : String} {route : RouteName} {mutating : Bool}
    (allowed : decide host method path = .allow route mutating) :
    (∀ endpoint ∈ accountRouter ++ storageRoutes ++ apiDocsRouter,
      endpoint.accepts path = false) ∧
    (∀ endpoint ∈ registryRouter bootstrap, endpoint.accepts path = true →
      endpoint = route.endpoint) ∧
    ∀ router : PathRouter,
      enforceRegistryHost router bootstrap host method path =
          .endpoint route.endpoint (route.endpoint.handler method) ∨
        enforceRegistryHost router bootstrap host method path = .notFound := by
  obtain ⟨spec, found, rfl⟩ := allowed_route allowed
  refine ⟨?_, ?_, ?_⟩
  · intro endpoint member
    apply (known_path_accepted found).1
    simp only [List.mem_append, constantRoutes] at member ⊢
    tauto
  · intro endpoint member accepted
    have merged : endpoint ∈ application bootstrap :=
      List.mem_append_left _ (List.mem_append_right _ member)
    exact known_path_application bootstrap found merged accepted
  · intro router
    rw [enforceRegistryHost, allowed]
    unfold dispatch
    cases chosen : router.select (application bootstrap) path with
    | none => exact .inr rfl
    | some endpoint =>
        left
        have same := known_path_application bootstrap found (router.select_mem chosen)
          (router.select_accepts chosen)
        rw [same]

def wellKnownBootstrap : BootstrapPath where
  segments := [".well-known".toList, "zed-mirrors.json".toList]
  literal := by decide
  nonempty := by decide
  outside := by decide

/-- A file below a package, asked for with a trailing slash. -/
theorem registry_host_exposes_named_route_sample :
    decide (some "registry.aws.zpkg.net") "GET" "/v1/files/acme/kit/1.0.0/src/" =
        .allow .files false ∧
      (∀ endpoint ∈ registryRouter wellKnownBootstrap,
        endpoint.accepts "/v1/files/acme/kit/1.0.0/src/" = true →
          endpoint = RouteName.files.endpoint) ∧
      enforceRegistryHost (firstAccepting Endpoint String Endpoint.accepts) wellKnownBootstrap
        (some "registry.aws.zpkg.net") "GET" "/v1/files/acme/kit/1.0.0/src/" =
          .endpoint RouteName.files.endpoint (some "artifacts::get_file") := by
  have allowed : decide (some "registry.aws.zpkg.net") "GET" "/v1/files/acme/kit/1.0.0/src/" =
      .allow .files false := by decide +kernel
  refine ⟨allowed, (registry_host_exposes_named_route wellKnownBootstrap allowed).2.1, ?_⟩
  decide +kernel

end ZedRegistry.RegistryHost
