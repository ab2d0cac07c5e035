import ZedRegistry.Lib.Delimiters
import ZedRegistry.RegistrySurface

/-!
# The registry gate against the router

A request is built from a template of `routes::router` and parameters that the gate's own
predicates accept.  The gate lets it through exactly when the template is one of its own
table and no segment holds two dots.
-/

set_option autoImplicit false

namespace ZedRegistry.RegistryHost

open RouteTemplates

/-! ## Requests -/

/-- The parameters that the templates name. -/
inductive Placeholder where
  | org
  | name
  | version
  | sha256
  | resolutionDigest
  | format
  | path
  deriving DecidableEq

namespace Placeholder

def all : List Placeholder := [.org, .name, .version, .sha256, .resolutionDigest, .format, .path]

def spelling : Placeholder → String
  | .org => "\x7borg\x7d"
  | .name => "\x7bname\x7d"
  | .version => "\x7bversion\x7d"
  | .sha256 => "\x7bsha256\x7d"
  | .resolutionDigest => "\x7bresolution_digest\x7d"
  | .format => "\x7bformat\x7d"
  | .path => "\x7b*path\x7d"

/-- The predicate by which the gate accepts the parameter. -/
def pattern : Placeholder → SegmentPattern
  | .org | .name | .format => .slug
  | .version => .version
  | .sha256 => .digest
  | .resolutionDigest => .resolution
  | .path => .files

end Placeholder

/-- Segments of a path hold no slash; these hold no `%` and no backslash either. -/
def PlainSegment (segment : List Char) : Prop := '/' ∉ segment ∧ '%' ∉ segment ∧ '\\' ∉ segment

instance (segment : List Char) : Decidable (PlainSegment segment) :=
  inferInstanceAs (Decidable (_ ∧ _))

/-- One choice of the parameters, all of them accepted. -/
structure RouteParameters where
  org : List Char
  name : List Char
  version : List Char
  sha256 : List Char
  resolutionDigest : List Char
  format : List Char
  path : List (List Char)
  orgAccepted : slug org = true
  nameAccepted : slug name = true
  versionAccepted : versionSegment version = true
  sha256Accepted : RegistryHost.sha256 sha256 = true
  resolutionAccepted : RegistryHost.resolutionDigest resolutionDigest = true
  formatAccepted : slug format = true
  pathNonempty : path ≠ []
  pathAccepted : ∀ segment ∈ path, fileSegment segment = true ∧ PlainSegment segment

def RouteParameters.value (parameters : RouteParameters) : Placeholder → List (List Char)
  | .org => [parameters.org]
  | .name => [parameters.name]
  | .version => [parameters.version]
  | .sha256 => [parameters.sha256]
  | .resolutionDigest => [parameters.resolutionDigest]
  | .format => [parameters.format]
  | .path => parameters.path

def templateSegments (template : String) : List (List Char) :=
  (template.toList.drop 1).splitOn '/'

def placeholder (segment : List Char) : Option Placeholder :=
  Placeholder.all.find? fun placeholder => placeholder.spelling.toList = segment

def filled (parameters : RouteParameters) (segment : List Char) : List (List Char) :=
  (placeholder segment).elim [segment] parameters.value

/-- The segments of the request: each placeholder is replaced by its parameter. -/
def requestSegments (parameters : RouteParameters) (endpoint : Endpoint) : List (List Char) :=
  (templateSegments endpoint.template).flatMap (filled parameters)

def requestPath (parameters : RouteParameters) (endpoint : Endpoint) : String :=
  String.ofList ('/' :: ['/'].intercalate (requestSegments parameters endpoint))

/-! ## Templates as patterns -/

def slot (segment : List Char) : SegmentPattern :=
  (placeholder segment).elim (.word (String.ofList segment)) Placeholder.pattern

/-- Fixed segments are plain text, and only the last placeholder takes the rest. -/
structure WellFormed (segments : List (List Char)) : Prop where
  nonempty : segments ≠ []
  fixed : ∀ segment ∈ segments, placeholder segment = none →
    segment ≠ [] ∧ segment.head? ≠ some '{' ∧ '/' ∉ segment ∧ '%' ∉ segment ∧ '\\' ∉ segment
  tail : ∀ segment ∈ segments.dropLast, placeholder segment ≠ some .path

theorem placeholder_some {segment : List Char} {found : Placeholder}
    (named : placeholder segment = some found) : segment = found.spelling.toList := by
  have spelled := List.find?_some named
  exact (of_decide_eq_true spelled).symm

theorem piece_slot {segment : List Char}
    (literal : placeholder segment = none → segment.head? ≠ some '{') :
    piece segment = shape (slot segment) := by
  cases named : placeholder segment with
  | none =>
      rw [piece_literal (literal named), slot, named]
      simp [shape]
  | some found =>
      rw [slot, named, placeholder_some named]
      cases found with
      | org | name | version | sha256 | resolutionDigest | format | path => rfl

theorem matchesSegments_cons {pattern : SegmentPattern} (notFiles : pattern ≠ .files)
    (patterns : List SegmentPattern) (segment : List Char) (segments : List (List Char)) :
    matchesSegments (pattern :: patterns) (segment :: segments) =
      (pattern.admits segment && matchesSegments patterns segments) := by
  cases pattern with
  | files => exact absurd rfl notFiles
  | word | slug | version | digest | resolution => rfl

theorem matchesSegments_files {segments : List (List Char)} (nonempty : segments ≠ [])
    (accepted : ∀ segment ∈ segments, fileSegment segment = true) :
    matchesSegments [.files] segments = true := by
  have all := List.all_eq_true.mpr accepted
  simp [matchesSegments, nonempty, all]

/-- Every placeholder but the path is one accepted segment. -/
theorem value_admitted (parameters : RouteParameters) {found : Placeholder}
    (single : found ≠ .path) : ∃ segment, parameters.value found = [segment] ∧
      found.pattern.admits segment = true := by
  cases found with
  | org => exact ⟨_, rfl, parameters.orgAccepted⟩
  | name => exact ⟨_, rfl, parameters.nameAccepted⟩
  | version => exact ⟨_, rfl, parameters.versionAccepted⟩
  | sha256 => exact ⟨_, rfl, parameters.sha256Accepted⟩
  | resolutionDigest => exact ⟨_, rfl, parameters.resolutionAccepted⟩
  | format => exact ⟨_, rfl, parameters.formatAccepted⟩
  | path => exact absurd rfl single

theorem slot_filled (parameters : RouteParameters) {segment : List Char}
    (single : placeholder segment ≠ some .path) : slot segment ≠ .files ∧
      ∃ value, filled parameters segment = [value] ∧ (slot segment).admits value = true := by
  unfold slot filled
  cases named : placeholder segment with
  | none => exact ⟨SegmentPattern.noConfusion, segment, rfl, by simp [SegmentPattern.admits]⟩
  | some found =>
      have notPath : found ≠ .path := fun same => single (named.trans (congrArg some same))
      refine ⟨?_, value_admitted parameters notPath⟩
      cases found with
      | path => exact absurd rfl notPath
      | org | name | version | sha256 | resolutionDigest | format =>
          exact SegmentPattern.noConfusion

theorem matches_filled (parameters : RouteParameters) {segments : List (List Char)}
    (tail : ∀ segment ∈ segments.dropLast, placeholder segment ≠ some .path) :
    matchesSegments (segments.map slot) (segments.flatMap (filled parameters)) = true := by
  induction segments with
  | nil => rfl
  | cons segment rest ih =>
      by_cases path : placeholder segment = some .path
      · cases rest with
        | nil =>
            have files : slot segment = .files := by
              rw [slot, path]
              rfl
            have value : filled parameters segment = parameters.path := by
              rw [filled, path]
              rfl
            rw [List.map_singleton, List.flatMap_singleton, files, value]
            exact matchesSegments_files parameters.pathNonempty
              fun segment member => (parameters.pathAccepted segment member).1
        | cons next rest => exact absurd path (tail segment List.mem_cons_self)
      · have later : ∀ other ∈ rest.dropLast, placeholder other ≠ some .path := by
          intro other member
          apply tail other
          cases rest with
          | nil => exact absurd member List.not_mem_nil
          | cons next rest => exact List.mem_cons_of_mem _ member
        obtain ⟨notFiles, value, single, admitted⟩ := slot_filled parameters path
        rw [List.map_cons, List.flatMap_cons, single, List.singleton_append,
          matchesSegments_cons notFiles, admitted, ih later]
        rfl

/-! ## Segments of a request -/

theorem plain_of_forall {segment : List Char} {allowed : Char → Bool}
    (accepted : ∀ char ∈ segment, allowed char = true)
    (refuses : allowed '/' = false ∧ allowed '%' = false ∧ allowed '\\' = false) :
    PlainSegment segment := by
  have absent : ∀ char, allowed char = false → char ∉ segment := by
    intro char refused member
    rw [accepted char member] at refused
    cases refused
  exact ⟨absent _ refuses.1, absent _ refuses.2.1, absent _ refuses.2.2⟩

def isSlugChar (char : Char) : Bool := char.isLower || char.isDigit || char = '-'

theorem slug_chars {value : List Char} (accepted : slug value = true) {char : Char}
    (member : char ∈ value) : isSlugChar char = true := by
  obtain ⟨_, parts⟩ := Bool.and_eq_true_iff.mp accepted
  by_cases dash : char = '-'
  · simp [isSlugChar, dash]
  · have joined : [char] <:+: ['-'].intercalate (value.splitOn '-') := by
      rw [List.intercalate_splitOn]
      exact List.singleton_infix_iff _ _ |>.mpr member
    obtain ⟨part, listed, within⟩ :=
      (Delimiters.infix_intercalate (by simpa using Ne.symm dash) (by simp) _).mp joined
    obtain ⟨_, letters⟩ := Bool.and_eq_true_iff.mp (List.all_eq_true.mp parts part listed)
    have letter := List.all_eq_true.mp letters char (within.subset (List.mem_singleton_self char))
    simp [isSlugChar, letter]

theorem slug_plain {value : List Char} (accepted : slug value = true) : PlainSegment value :=
  plain_of_forall (fun _ member => slug_chars accepted member) (by decide)

theorem version_plain {value : List Char} (accepted : versionSegment value = true) :
    PlainSegment value :=
  plain_of_forall (List.all_eq_true.mp (Bool.and_eq_true_iff.mp accepted).2) (by decide)

theorem sha256_plain {value : List Char} (accepted : sha256 value = true) :
    PlainSegment value :=
  plain_of_forall (List.all_eq_true.mp (Bool.and_eq_true_iff.mp accepted).2) (by decide)

theorem resolution_plain {value : List Char} (accepted : resolutionDigest value = true) :
    PlainSegment value := by
  unfold resolutionDigest at accepted
  cases stripped : value.dropPrefix? "sha256:".toList with
  | none =>
      rw [stripped] at accepted
      cases accepted
  | some digest =>
      rw [stripped] at accepted
      obtain ⟨front, split, same⟩ := List.dropPrefix?_eq_some_iff.mp stripped
      have digestPlain : PlainSegment digest := sha256_plain accepted
      have frontPlain : PlainSegment front := by
        rw [eq_of_beq same]
        decide
      rw [split]
      unfold PlainSegment at digestPlain frontPlain ⊢
      simp only [List.mem_append, not_or]
      tauto

theorem pattern_worded (found : Placeholder) : found.pattern ≠ .word "" := by
  intro same
  cases found with
  | org | name | version | sha256 | resolutionDigest | format | path => cases same

/-- A value of a placeholder is a plain segment that is not empty. -/
theorem value_plain (parameters : RouteParameters) {found : Placeholder} {value : List Char}
    (member : value ∈ parameters.value found) : value ≠ [] ∧ PlainSegment value := by
  by_cases path : found = .path
  · subst path
    obtain ⟨accepted, plain⟩ := parameters.pathAccepted value member
    exact ⟨admits_nonempty files_worded accepted, plain⟩
  · obtain ⟨segment, single, admitted⟩ := value_admitted parameters path
    rw [single, List.mem_singleton] at member
    subst member
    refine ⟨admits_nonempty (pattern_worded found) admitted, ?_⟩
    cases found with
    | path => exact absurd rfl path
    | org | name | format => exact slug_plain admitted
    | version => exact version_plain admitted
    | sha256 => exact sha256_plain admitted
    | resolutionDigest => exact resolution_plain admitted

section Request

variable (parameters : RouteParameters) {endpoint : Endpoint}

theorem requestSegments_plain (formed : WellFormed (templateSegments endpoint.template))
    {segment : List Char} (member : segment ∈ requestSegments parameters endpoint) :
    segment ≠ [] ∧ PlainSegment segment := by
  obtain ⟨template, listed, value⟩ := List.mem_flatMap.mp member
  unfold filled at value
  cases named : placeholder template with
  | none =>
      rw [named, Option.elim_none, List.mem_singleton] at value
      subst value
      obtain ⟨nonempty, _, plain⟩ := formed.fixed segment listed named
      exact ⟨nonempty, plain⟩
  | some found =>
      rw [named, Option.elim_some] at value
      exact value_plain parameters value

theorem filled_nonempty (segment : List Char) : filled parameters segment ≠ [] := by
  unfold filled
  cases placeholder segment with
  | none => simp
  | some found =>
      cases found with
      | path => exact parameters.pathNonempty
      | org | name | version | sha256 | resolutionDigest | format => simp [RouteParameters.value]

theorem requestSegments_nonempty (formed : WellFormed (templateSegments endpoint.template)) :
    requestSegments parameters endpoint ≠ [] := by
  unfold requestSegments
  cases segments : templateSegments endpoint.template with
  | nil => exact absurd segments formed.nonempty
  | cons segment rest =>
      rw [List.flatMap_cons]
      intro empty
      exact filled_nonempty parameters segment (List.append_eq_nil_iff.mp empty).1

theorem toList_requestPath : (requestPath parameters endpoint).toList =
    '/' :: ['/'].intercalate (requestSegments parameters endpoint) :=
  String.toList_ofList

theorem splitOn_request (formed : WellFormed (templateSegments endpoint.template)) :
    (['/'].intercalate (requestSegments parameters endpoint)).splitOn '/' =
      requestSegments parameters endpoint :=
  List.splitOn_intercalate '/'
    (fun _ member => (requestSegments_plain parameters formed member).2.1)
    (requestSegments_nonempty parameters formed)

theorem request_accepted (formed : WellFormed (templateSegments endpoint.template)) :
    endpoint.accepts (requestPath parameters endpoint) = true := by
  have worded : SegmentPattern.word "" ∉ (templateSegments endpoint.template).map slot := by
    intro member
    obtain ⟨segment, listed, blank⟩ := List.mem_map.mp member
    unfold slot at blank
    cases named : placeholder segment with
    | none =>
        rw [named, Option.elim_none] at blank
        have text := congrArg String.toList (SegmentPattern.word.inj blank)
        rw [String.toList_ofList] at text
        exact (formed.fixed segment listed named).1 text
    | some found =>
        rw [named] at blank
        cases found with
        | org | name | version | sha256 | resolutionDigest | format | path => cases blank
  have shapes : pieces endpoint.template =
      ((templateSegments endpoint.template).map slot).map shape := by
    rw [List.map_map]
    apply List.map_congr_left
    intro segment listed
    exact piece_slot fun literal => (formed.fixed segment listed literal).2.1
  rw [Endpoint.accepts_body (toList_requestPath parameters), splitOn_request parameters formed,
    shapes]
  exact (covers_shape worded (matches_filled parameters formed.tail)).1

/-- The textual filter refuses a request for its length or for two dots in a segment. -/
theorem refused_request (formed : WellFormed (templateSegments endpoint.template))
    (short : (requestPath parameters endpoint).utf8ByteSize ≤ 2048) :
    refusedPath (requestPath parameters endpoint) = true ↔
      ∃ segment ∈ requestSegments parameters endpoint, ['.', '.'] <:+: segment := by
  have text : (requestPath parameters endpoint).toList =
      '/' :: ['/'].intercalate (requestSegments parameters endpoint) :=
    toList_requestPath parameters
  have nonempty : requestPath parameters endpoint ≠ "" := by
    intro empty
    rw [empty] at text
    cases text
  have single : ∀ char, char ≠ '/' →
      (∀ segment ∈ requestSegments parameters endpoint, char ∉ segment) →
      ¬[char] <:+: (requestPath parameters endpoint).toList := by
    intro char notSlash absent stands
    rw [text, List.infix_cons_iff] at stands
    rcases stands with here | later
    · exact notSlash (List.cons_prefix_cons.mp here).1
    · obtain ⟨segment, listed, within⟩ :=
        (Delimiters.infix_intercalate (by simpa using Ne.symm notSlash) (by simp) _).mp later
      exact absent segment listed (within.subset (List.mem_singleton_self char))
  have percent := single '%' (by decide)
    fun segment listed => (requestSegments_plain parameters formed listed).2.2.1
  have backslash := single '\\' (by decide)
    fun segment listed => (requestSegments_plain parameters formed listed).2.2.2
  have doubled : ¬['/', '/'] <:+: (requestPath parameters endpoint).toList := by
    rw [text]
    apply Delimiters.not_doubled_intercalate
    intro segment listed
    obtain ⟨filled, plain⟩ := requestSegments_plain parameters formed listed
    exact ⟨filled, plain.1⟩
  have dots : ['.', '.'] <:+: (requestPath parameters endpoint).toList ↔
      ∃ segment ∈ requestSegments parameters endpoint, ['.', '.'] <:+: segment := by
    rw [text, List.infix_cons_iff,
      Delimiters.infix_intercalate (by decide) (by decide)]
    constructor
    · rintro (here | within)
      · exact absurd (List.cons_prefix_cons.mp here).1 (by decide)
      · exact within
    · exact Or.inr
  simp only [refusedPath, containsText, Bool.or_eq_true, decide_eq_true_eq]
  constructor
  · rintro (((((empty | long) | isPercent) | isDots) | isBackslash) | isDoubled)
    · exact absurd empty nonempty
    · omega
    · exact absurd isPercent percent
    · exact dots.mp isDots
    · exact absurd isBackslash backslash
    · exact absurd isDoubled doubled
  · intro within
    exact .inl (.inl (.inr (dots.mpr within)))

theorem trimmed_request (formed : WellFormed (templateSegments endpoint.template)) :
    (trimEndMatches '/' (['/'].intercalate (requestSegments parameters endpoint))).splitOn '/' =
      requestSegments parameters endpoint := by
  have filled : ∀ segment ∈ requestSegments parameters endpoint,
      segment ≠ [] ∧ '/' ∉ segment := by
    intro segment listed
    obtain ⟨nonempty, plain⟩ := requestSegments_plain parameters formed listed
    exact ⟨nonempty, plain.1⟩
  have split := splitOn_request parameters formed
  rcases trailing_split (Delimiters.not_doubled_intercalate filled) with same | trailing
  · rw [← same, split]
  · rw [split] at trailing
    have blank : [] ∈ requestSegments parameters endpoint := by
      rw [trailing]
      exact List.mem_append_right _ (List.mem_singleton_self [])
    exact absurd rfl (filled [] blank).1

end Request

/-! ## The gate's table -/

instance (segments : List (List Char)) : Decidable (WellFormed segments) :=
  decidable_of_iff (segments ≠ [] ∧ (∀ segment ∈ segments, placeholder segment = none →
      segment ≠ [] ∧ segment.head? ≠ some '{' ∧ '/' ∉ segment ∧ '%' ∉ segment ∧ '\\' ∉ segment) ∧
      ∀ segment ∈ segments.dropLast, placeholder segment ≠ some .path)
    ⟨fun facts => ⟨facts.1, facts.2.1, facts.2.2⟩,
      fun formed => ⟨formed.nonempty, formed.fixed, formed.tail⟩⟩

theorem templates_wellFormed : ∀ endpoint ∈ namedRoutes ++ unnamedRoutes,
    WellFormed (templateSegments endpoint.template) := by
  decide +kernel

/-- Each arm of the gate asks of a template's placeholders what the parameters satisfy. -/
theorem arms_slots : ∀ arm ∈ arms,
    (templateSegments arm.spec.name.endpoint.template).map slot = arm.pattern := by
  decide +kernel

theorem arms_methods : ∀ arm ∈ arms, ∀ entry ∈ arm.spec.name.endpoint.handlers,
    entry.1 ∈ arm.spec.methods ∧ (entry.1 = "GET" → "HEAD" ∈ arm.spec.methods) := by
  decide +kernel

/-- The gate admits every method that a named endpoint serves. -/
theorem served_admitted {arm : Arm} (member : arm ∈ arms) {method : String}
    (served : (arm.spec.name.endpoint.handler method).isSome = true) :
    method ∈ arm.spec.methods := by
  obtain ⟨handler, found⟩ := Option.isSome_iff_exists.mp served
  obtain ⟨early, late, split, _⟩ := List.lookup_eq_some_iff.mp found
  have listed := split ▸ List.mem_append_right early List.mem_cons_self
  obtain ⟨admitted, head⟩ := arms_methods arm member _ listed
  by_cases isHead : method = "HEAD"
  · rw [if_pos isHead] at head
    rw [isHead]
    exact head rfl
  · rwa [if_neg isHead] at admitted

theorem registryRoute_request (parameters : RouteParameters) {endpoint : Endpoint}
    (named : endpoint ∈ namedRoutes)
    (short : (requestPath parameters endpoint).utf8ByteSize ≤ 2048)
    (dotless : ∀ segment ∈ requestSegments parameters endpoint, ¬['.', '.'] <:+: segment) :
    ∃ spec, registryRoute (requestPath parameters endpoint) = some spec := by
  have formed := templates_wellFormed endpoint (List.mem_append_left _ named)
  have admitted : ¬refusedPath (requestPath parameters endpoint) = true := by
    rw [refused_request parameters formed short]
    rintro ⟨segment, listed, dots⟩
    exact dotless segment listed dots
  obtain ⟨arm, member, rfl⟩ := List.mem_map.mp named
  have matched := matches_filled parameters formed.tail
  rw [arms_slots arm member] at matched
  have found : (arms.find? fun other =>
      matchesSegments other.pattern (requestSegments parameters arm.spec.name.endpoint)).isSome =
        true := by
    rw [List.find?_isSome]
    exact ⟨arm, member, matched⟩
  obtain ⟨chosen, first⟩ := Option.isSome_iff_exists.mp found
  refine ⟨chosen.spec, ?_⟩
  unfold registryRoute
  rw [if_neg admitted, toList_requestPath]
  have trimmed := trimmed_request parameters formed
  generalize arm.spec.name.endpoint = endpoint at first trimmed
  change (arms.find? fun other => matchesSegments other.pattern ((trimEndMatches '/'
    (['/'].intercalate (requestSegments parameters endpoint))).splitOn '/')).map Arm.spec = _
  rw [trimmed, first]
  rfl

/-! ## The bootstrap document -/

theorem bootstrap_segments (bootstrap : BootstrapPath) :
    templateSegments bootstrap.endpoint.template = bootstrap.segments := by
  rw [BootstrapPath.endpoint, BootstrapPath.path, templateSegments, String.toList_ofList,
    List.drop_succ_cons, List.drop_zero]
  exact List.splitOn_intercalate '/' (fun segment member => (bootstrap.literal segment member).1)
    bootstrap.nonempty

theorem placeholder_literal {segment : List Char} (literal : segment.head? ≠ some '{') :
    placeholder segment = none := by
  cases named : placeholder segment with
  | none => rfl
  | some found =>
      rw [placeholder_some named] at literal
      cases found with
      | org | name | version | sha256 | resolutionDigest | format | path =>
          exact absurd rfl literal

/-- The template of the bootstrap has no parameters. -/
theorem requestSegments_bootstrap (parameters : RouteParameters) (bootstrap : BootstrapPath) :
    requestSegments parameters bootstrap.endpoint = bootstrap.segments := by
  have fixed : ∀ segment ∈ bootstrap.segments, filled parameters segment = [segment] := by
    intro segment member
    rw [filled, placeholder_literal (bootstrap.literal segment member).2]
    rfl
  rw [requestSegments, bootstrap_segments, List.flatMap_congr fixed, List.flatMap_singleton']

theorem bootstrap_accepted (parameters : RouteParameters) (bootstrap : BootstrapPath) :
    bootstrap.endpoint.accepts (requestPath parameters bootstrap.endpoint) = true := by
  have split := List.splitOn_intercalate '/'
    (fun segment member => (bootstrap.literal segment member).1) bootstrap.nonempty
  have shapes : pieces bootstrap.endpoint.template = bootstrap.segments.map .fixed :=
    bootstrap.pieces_path
  rw [Endpoint.accepts_body (toList_requestPath parameters), requestSegments_bootstrap, split,
    shapes]
  exact covers_fixed_self bootstrap.segments

/-! ## Agreement -/

theorem decide_allows_iff {host : String} (registry : isRegistryHost host = true)
    (method path : String) :
    (∃ route mutating, decide (some host) method path = .allow route mutating) ↔
      ∃ spec, registryRoute path = some spec ∧ method ∈ spec.methods := by
  have here : (some host).any isRegistryHost = true := registry
  unfold decide
  rw [here]
  cases registryRoute path with
  | none => simp
  | some spec =>
      by_cases served : method ∈ spec.methods
      · simp only [served, Bool.not_true, Bool.false_eq_true, if_false, not_true_eq_false,
          Option.some.injEq, exists_eq_left', iff_true]
        exact ⟨spec.name, _, rfl⟩
      · simp [served]

theorem unrouted_endpoint (parameters : RouteParameters) (bootstrap : BootstrapPath)
    {endpoint : Endpoint}
    (beyond : endpoint ∈ unnamedRoutes ∨ endpoint = bootstrap.endpoint) {spec : RouteSpec}
    (found : registryRoute (requestPath parameters endpoint) = some spec) : False := by
  obtain ⟨constants, bootstraps, _⟩ := known_path_accepted found
  rcases beyond with unnamed | rfl
  · have formed := templates_wellFormed endpoint (List.mem_append_right _ unnamed)
    have refused := constants endpoint (mem_constantRoutes (List.mem_append_right _ unnamed))
    rw [request_accepted parameters formed] at refused
    cases refused
  · have refused := bootstraps bootstrap
    rw [bootstrap_accepted] at refused
    cases refused

/-- The gate allows a well-formed request for a served method exactly when the template
is none of the signing keys, the mirrors, the signed index and the bootstrap, and no
segment of the path holds two dots in a row. -/
theorem gate_allows_iff (bootstrap : BootstrapPath) (parameters : RouteParameters)
    {endpoint : Endpoint} (routed : endpoint ∈ registryRouter bootstrap)
    (noConsole : endpoint ∉ storageRoutes) {method : String}
    (served : (endpoint.handler method).isSome = true)
    (short : (requestPath parameters endpoint).utf8ByteSize ≤ 2048) {host : String}
    (registry : isRegistryHost host = true) :
    (∃ route mutating, decide (some host) method (requestPath parameters endpoint) =
        .allow route mutating) ↔
      (endpoint ∉ unnamedRoutes ∧ endpoint ≠ bootstrap.endpoint) ∧
        ∀ segment ∈ requestSegments parameters endpoint, ¬['.', '.'] <:+: segment := by
  rw [decide_allows_iff registry]
  constructor
  · rintro ⟨spec, found, _⟩
    have known : endpoint ∉ unnamedRoutes ∧ endpoint ≠ bootstrap.endpoint :=
      ⟨fun unnamed => unrouted_endpoint parameters bootstrap (Or.inl unnamed) found,
        fun same => unrouted_endpoint parameters bootstrap (Or.inr same) found⟩
    refine ⟨known, ?_⟩
    intro segment listed dots
    rcases mem_registryRouter routed with same | named | other
    · exact known.2 same
    · have formed := templates_wellFormed endpoint (List.mem_append_left _ named)
      have refused := (refused_request parameters formed short).mpr ⟨segment, listed, dots⟩
      unfold registryRoute at found
      rw [if_pos refused] at found
      cases found
    · rcases List.mem_append.mp other with console | unnamed
      · exact noConsole console
      · exact known.1 unnamed
  · rintro ⟨⟨notUnnamed, notBootstrap⟩, dotless⟩
    rcases mem_registryRouter routed with same | named | other
    · exact absurd same notBootstrap
    · obtain ⟨spec, found⟩ := registryRoute_request parameters named short dotless
      obtain ⟨arm, member, rfl, _⟩ := registryRoute_arm found
      have formed := templates_wellFormed endpoint (List.mem_append_left _ named)
      have same := (known_path_accepted found).2.2 endpoint named
        (request_accepted parameters formed)
      subst same
      exact ⟨arm.spec, found, served_admitted member served⟩
    · rcases List.mem_append.mp other with console | unnamed
      · exact absurd console noConsole
      · exact absurd unnamed notUnnamed

/-! ## A route that the gate does not know -/

namespace GateSample

def mirrors : Endpoint := ⟨ROUTE_MIRRORS, get "mirrors::get_mirrors"⟩

def parameters (file : List Char) (accepted : fileSegment file = true ∧ PlainSegment file) :
    RouteParameters where
  org := "acme".toList
  name := "http-kit".toList
  version := "1.2.0".toList
  sha256 := List.replicate 64 'a'
  resolutionDigest := "sha256:".toList ++ List.replicate 64 'b'
  format := "json5".toList
  path := ["docs".toList, file]
  orgAccepted := by decide
  nameAccepted := by decide
  versionAccepted := by decide
  sha256Accepted := by decide
  resolutionAccepted := by decide
  formatAccepted := by decide
  pathNonempty := List.cons_ne_nil _ _
  pathAccepted := by
    intro segment member
    rcases List.mem_cons.mp member with rfl | last
    · exact ⟨by decide, by decide⟩
    · rw [List.mem_singleton.mp last]
      exact accepted

def readme : RouteParameters := parameters "README.md".toList ⟨by decide, by decide⟩

end GateSample

open GateSample in
/-- The mirrors are served, and refused on the registry host. -/
theorem mirrors_unreachable :
    mirrors ∈ registryRouter wellKnownBootstrap ∧ mirrors ∉ storageRoutes ∧
      (mirrors.handler "GET").isSome = true ∧
      (requestPath readme mirrors).utf8ByteSize ≤ 2048 ∧
      isRegistryHost "registry.zpkg.net" = true ∧
      ¬∃ route mutating, decide (some "registry.zpkg.net") "GET" (requestPath readme mirrors) =
        .allow route mutating := by
  refine ⟨by decide +kernel, by decide +kernel, by decide +kernel, by decide +kernel,
    by decide +kernel, ?_⟩
  have refused : decide (some "registry.zpkg.net") "GET" (requestPath readme mirrors) =
      .rejectRoute := by decide +kernel
  rintro ⟨route, mutating, allowed⟩
  rw [refused] at allowed
  cases allowed

open GateSample in
theorem gate_allows_sample :
    ∃ route mutating, decide (some "registry.zpkg.net") "HEAD"
      (requestPath readme RouteName.files.endpoint) = .allow route mutating :=
  (gate_allows_iff wellKnownBootstrap readme (by decide +kernel) (by decide +kernel)
    (by decide +kernel) (by decide +kernel) (by decide +kernel)).mpr
      ⟨by decide +kernel, by decide +kernel⟩

end ZedRegistry.RegistryHost
