import ZedRegistry.GithubUrls
import ZedRegistry.Lib.JsonValue
import ZedRegistry.Lib.Simulation
import ZedRegistry.Lib.UrlPath
import ZedRegistry.PublishSources
import ZedRegistry.Utf8

/-!
# Tag verification

`verify.rs`: the request by which GitHub is asked about a tag, what its answer means,
and what a run of publishes whose tags are verified has asked about the versions in its
tables.
-/

set_option autoImplicit false

namespace ZedRegistry.TagVerification

open Execution UrlPath

/-! ## The request -/

/-- What `TAG_ENCODE_SET` leaves alone. -/
def unreserved (character : Char) : Bool :=
  character.isAlphanum || character = '-' || character = '.' || character = '_' ||
    character = '~'

def utf8PercentEncode (text : String) : String :=
  String.ofList (percentEncode unreserved text.toList)

def tagUrl (owner repo tag : String) : String :=
  "https://api.github.com/repos/" ++ utf8PercentEncode owner ++ "/" ++ utf8PercentEncode repo ++
    "/git/ref/tags/" ++ utf8PercentEncode tag

structure GithubRequest where
  url : String
  bearer : Option String
  deriving DecidableEq

/-- The status, and the body as `json` reads it. -/
structure GithubResponse where
  status : Nat
  body : Except String JsonValue

/-- GitHub at one moment, redirects followed. -/
abbrev Github := GithubRequest → Except String GithubResponse

inductive TagPolicy where
  | off
  | github
  deriving DecidableEq

structure TagVerifier where
  policy : TagPolicy
  githubToken : Option String
  usesGitTags : String → Bool

/-- `Value::index`: null where there is no such member. -/
def index (key : String) : JsonValue → JsonValue
  | .object members => (members.lookup key).getD .null
  | _ => .null

def asStr : JsonValue → Option String
  | .string text => some text
  | _ => none

/-- The commit that a tag points at; one that points at a tag object has none. -/
def commitOf (body : JsonValue) : Option String :=
  if asStr (index "type" (index "object" body)) = some "commit" then
    asStr (index "sha" (index "object" body))
  else none

def TagVerifier.request (verifier : TagVerifier) (owner repo tag : String) : GithubRequest :=
  ⟨tagUrl owner repo tag, verifier.githubToken⟩

def verify (verifier : TagVerifier) (github : Github) (vcs repoUrl tag : String) :
    Except String TagCheck :=
  if verifier.policy = .off then .ok .skipped
  else if verifier.usesGitTags vcs = false then .ok .skipped
  else
    match parseGithub repoUrl with
    | none => .ok .skipped
    | some (owner, repo) => do
      let response ← github (verifier.request owner repo tag)
      if response.status = 404 then pure .missing
      else
        ensure (¬(400 ≤ response.status ∧ response.status < 600)) "an error status"
        let body ← response.body
        pure (.verified (commitOf body))

/-! ## Where the request goes -/

/-- The URL asks `api.github.com` for the resource of these names and nothing else. -/
def Reaches (url : String) (names : List String) : Prop :=
  ∃ found, target url.toList = some found ∧ found.authority = "api.github.com".toList ∧
    found.segments.map percentDecode = names.map asBytes ∧ found.suffix = []

theorem unreserved_safe (character : Char) (stays : unreserved character = true) :
    separates character = false ∧ endsPath character = false := by
  have differs (other : Char) (outside : unreserved other = false) : character ≠ other := by
    intro same
    rw [same, outside] at stays
    contradiction
  constructor
  · simp [separates, differs '/' rfl, differs '\\' rfl]
  · simp [endsPath, differs '?' rfl, differs '#' rfl]

/-- The segments of the path, as they are sent. -/
def tagNames (owner repo : String) : List (List Char) :=
  ["repos".toList, percentEncode unreserved owner.toList, percentEncode unreserved repo.toList,
    "git".toList, "ref".toList, "tags".toList]

theorem tagUrl_joined (owner repo tag : String) : (tagUrl owner repo tag).toList =
    "https://".toList ++ ("api.github.com".toList ++
      joined (tagNames owner repo ++ [percentEncode unreserved tag.toList])) := by
  have spelled (first second third : String) :
      ("https://api.github.com/repos/" ++ first ++ "/" ++ second ++ "/git/ref/tags/" ++
        third).toList = "https://".toList ++ ("api.github.com".toList ++
          joined ["repos".toList, first.toList, second.toList, "git".toList, "ref".toList,
            "tags".toList, third.toList]) := by
    simp [joined]
  have encoded := spelled (utf8PercentEncode owner) (utf8PercentEncode repo) (utf8PercentEncode tag)
  have letters (text : String) :
      (utf8PercentEncode text).toList = percentEncode unreserved text.toList :=
    String.toList_ofList
  rw [letters, letters, letters] at encoded
  exact encoded

theorem plain_encoded (text : String) : Plain (percentEncode unreserved text.toList) :=
  plain_percentEncode unreserved_safe text.toList

theorem tagNames_plain (owner repo tag : String) : ∀ segment ∈
    (tagNames owner repo).tail ++ [percentEncode unreserved tag.toList], Plain segment := by
  intro segment member
  simp only [tagNames, List.tail_cons, List.cons_append, List.nil_append, List.mem_cons,
    List.not_mem_nil, or_false] at member
  rcases member with rfl | rfl | rfl | rfl | rfl | rfl
  · exact plain_encoded owner
  · exact plain_encoded repo
  · decide
  · decide
  · decide
  · exact plain_encoded tag

/-! ### What it reaches -/

theorem percentDecode_encoded (text : String) :
    percentDecode (percentEncode unreserved text.toList) = asBytes text := by
  rw [percentDecode_percentEncode rfl, asBytes_eq_flatMap]

theorem percentDecode_kept {text : String}
    (stays : ∀ character ∈ text.toList, unreserved character = true) :
    percentDecode text.toList = asBytes text := by
  have encoded := percentDecode_encoded text
  rwa [percentEncode_kept stays] at encoded

theorem tagNames_decoded (owner repo : String) : (tagNames owner repo).map percentDecode =
    ["repos", owner, repo, "git", "ref", "tags"].map asBytes := by
  have fixed (name : String) (member : name ∈ ["repos", "git", "ref", "tags"]) :
      percentDecode name.toList = asBytes name := by
    have stays : ∀ name ∈ ["repos", "git", "ref", "tags"],
        name.toList.all unreserved = true := by
      decide
    exact percentDecode_kept (List.all_eq_true.mp (stays name member))
  simp only [tagNames, List.map_cons, List.map_nil, percentDecode_encoded,
    fixed "repos" (by simp), fixed "git" (by simp), fixed "ref" (by simp),
    fixed "tags" (by simp)]

theorem segmentPart_encoded (text : String) :
    segmentPart (percentEncode unreserved text.toList) =
      if text = "." then .skip
      else if text = ".." then .up
      else .name (percentEncode unreserved text.toList) := by
  have one : text.toList = ['.'] ↔ text = "." :=
    ⟨fun same => String.toList_injective same, fun same => same ▸ rfl⟩
  have two : text.toList = ['.', '.'] ↔ text = ".." :=
    ⟨fun same => String.toList_injective same, fun same => same ▸ rfl⟩
  rw [segmentPart_percentEncode rfl rfl]
  simp only [one, two]

theorem ending_encoded (text : String) :
    ending [percentEncode unreserved text.toList] =
      if text = "." then [.name []] else if text = ".." then [.name []] else [] := by
  simp only [ending, List.getLast?_singleton, Option.map_some, segmentPart_encoded]
  by_cases one : text = "."
  · rw [if_pos one, if_pos one]
  · rw [if_neg one, if_neg one]
    by_cases two : text = ".."
    · rw [if_pos two, if_pos two]
    · rw [if_neg two, if_neg two]

theorem tagNames_solid {owner repo : String} (ownerSafe : SafeSegment owner.toList)
    (repoSafe : SafeSegment repo.toList) :
    ∀ name ∈ tagNames owner repo, segmentPart name = .name name := by
  have solid {text : String} (safe : SafeSegment text.toList) :
      segmentPart (percentEncode unreserved text.toList) =
        .name (percentEncode unreserved text.toList) := by
    obtain ⟨character, member, other⟩ := safe.notDots
    rw [segmentPart_encoded, if_neg, if_neg]
    · rintro rfl
      exact other (by simpa using member)
    · rintro rfl
      exact other (by simpa using member)
  intro name member
  simp only [tagNames, List.mem_cons, List.not_mem_nil, or_false] at member
  rcases member with rfl | rfl | rfl | rfl | rfl | rfl
  · rfl
  · exact solid ownerSafe
  · exact solid repoSafe
  · rfl
  · rfl
  · rfl

theorem target_tagUrl {owner repo : String} (ownerSafe : SafeSegment owner.toList)
    (repoSafe : SafeSegment repo.toList) (tag : String) :
    target (tagUrl owner repo tag).toList = some ⟨"api.github.com".toList,
      PathResolution.clamped (tagNames owner repo).reverse
        (segmentPart (percentEncode unreserved tag.toList) ::
          ending [percentEncode unreserved tag.toList]), []⟩ := by
  have host : Plain "api.github.com".toList := by decide
  have first : Plain "repos".toList := by decide
  rw [← resolve_names (tagNames_solid ownerSafe repoSafe), tagUrl_joined]
  exact target_joined host first (tagNames_plain owner repo tag)

theorem reaches_iff {owner repo : String} (ownerSafe : SafeSegment owner.toList)
    (repoSafe : SafeSegment repo.toList) (tag : String) (names : List String) :
    Reaches (tagUrl owner repo tag) names ↔ names.map asBytes =
      (if tag = "." then ["repos", owner, repo, "git", "ref", "tags", ""]
        else if tag = ".." then ["repos", owner, repo, "git", "ref", ""]
        else ["repos", owner, repo, "git", "ref", "tags", tag]).map asBytes := by
  have decoded := tagNames_decoded owner repo
  have only (segments : List (List Char)) (sent : List String)
      (found : target (tagUrl owner repo tag).toList = some ⟨"api.github.com".toList, segments, []⟩)
      (same : segments.map percentDecode = sent.map asBytes) :
      Reaches (tagUrl owner repo tag) names ↔ names.map asBytes = sent.map asBytes := by
    constructor
    · rintro ⟨other, found', -, named, -⟩
      rw [found] at found'
      obtain rfl := Option.some.inj found'
      exact named.symm.trans same
    · intro named
      exact ⟨_, found, rfl, same.trans named.symm, rfl⟩
  have found := target_tagUrl ownerSafe repoSafe tag
  rw [segmentPart_encoded, ending_encoded] at found
  by_cases one : tag = "."
  · rw [if_pos one] at found ⊢
    rw [if_pos one] at found
    refine only _ _ found ?_
    simp only [PathResolution.clamped, List.reverse_cons, List.reverse_reverse, List.map_append,
      decoded]
    rfl
  · rw [if_neg one] at found ⊢
    rw [if_neg one] at found
    by_cases two : tag = ".."
    · rw [if_pos two] at found ⊢
      rw [if_pos two] at found
      refine only _ _ found ?_
      have shorter : (tagNames owner repo).reverse.tail.reverse =
          (tagNames owner repo).dropLast := by
        simp [tagNames]
      simp only [PathResolution.clamped, List.reverse_cons, shorter, List.map_append,
        List.map_dropLast, decoded]
      rfl
    · rw [if_neg two] at found ⊢
      rw [if_neg two] at found
      refine only _ _ found ?_
      simp only [PathResolution.clamped, List.reverse_cons, List.reverse_reverse, List.map_append,
        decoded, List.map_cons, List.map_nil, percentDecode_encoded]
      rfl

theorem tagUrl_injective {owner repo tag owner' repo' tag' : String}
    (same : tagUrl owner repo tag = tagUrl owner' repo' tag') :
    owner = owner' ∧ repo = repo' ∧ tag = tag' := by
  have letters := congrArg String.toList same
  rw [tagUrl_joined, tagUrl_joined] at letters
  have paths := List.append_cancel_left (List.append_cancel_left letters)
  have split (owner repo tag : String) : ([] ++ joined (tagNames owner repo ++
      [percentEncode unreserved tag.toList])).splitOnP separates =
        [] :: (tagNames owner repo ++ [percentEncode unreserved tag.toList]) := by
    refine splitOnP_joined (by decide) fun segment member => ?_
    rcases List.mem_cons.mp member with rfl | member
    · decide
    · exact tagNames_plain owner repo tag segment member
  have segments := split owner repo tag
  rw [paths, split owner' repo' tag'] at segments
  have text {left right : String} (equal : percentEncode unreserved left.toList =
      percentEncode unreserved right.toList) : left = right :=
    String.toList_injective (percentEncode_injective rfl equal)
  simp only [tagNames, List.cons_append, List.nil_append, List.cons.injEq, and_true,
    true_and] at segments
  exact ⟨(text segments.1).symm, (text segments.2.1).symm, (text segments.2.2).symm⟩

/-- The request about a tag goes to GitHub's resource of exactly that owner, repo and tag, and
no other tag or repository has it, but for the tags `.` and `..`, which lead elsewhere. -/
theorem tag_request_confined {repoUrl owner repo : String}
    (parsed : parseGithub repoUrl = some (owner, repo)) (tag : String) :
    (Reaches (tagUrl owner repo tag) ["repos", owner, repo, "git", "ref", "tags", tag] ↔
      tag ≠ "." ∧ tag ≠ "..") ∧
    (∀ names, Reaches (tagUrl owner repo ".") names ↔
      names = ["repos", owner, repo, "git", "ref", "tags", ""]) ∧
    (∀ names, Reaches (tagUrl owner repo "..") names ↔
      names = ["repos", owner, repo, "git", "ref", ""]) ∧
    ∀ owner' repo' tag', tagUrl owner' repo' tag' = tagUrl owner repo tag →
      owner' = owner ∧ repo' = repo ∧ tag' = tag := by
  obtain ⟨rest, -, -, ownerSafe, repoSafe⟩ := parseGithub_eq_some.mp parsed
  have texts := List.map_injective_iff.mpr asBytes_injective
  refine ⟨?_, ?_, ?_, fun owner' repo' tag' same => tagUrl_injective same⟩
  · rw [reaches_iff ownerSafe repoSafe, texts.eq_iff]
    by_cases one : tag = "."
    · subst one
      simp
    · by_cases two : tag = ".."
      · subst two
        simp
      · simp [one, two]
  · intro names
    rw [reaches_iff ownerSafe repoSafe, texts.eq_iff, if_pos rfl]
  · intro names
    have other : ".." ≠ "." := by decide
    rw [reaches_iff ownerSafe repoSafe, texts.eq_iff, if_neg other, if_pos rfl]

/-! ## Publishes whose tags are verified -/

section Publishes

variable {I : Interfaces}

/-- What `publish` is told about the tag of a request. -/
def tagAnswer (verifier : TagVerifier) (github : Github) (request : PublishRequest) :
    ApiResult TagCheck := do
  let (published, _) ← readMultipart I request.fields
  let repository := published.manifest.package.repository
  (verify verifier github repository.vcs repository.url published.vcsTag).mapError
    fun _ => .internal

variable (I) in
/-- An arrival finds GitHub as it is then; the rest of the registry goes on as before. -/
inductive TagEvent where
  | arrive (attempt : Nat) (answers : PublishAnswers) (request : PublishRequest) (github : Github)
  | registry (event : PublishEvent I)

def isArrival : PublishEvent I → Bool
  | .arrive _ _ _ => true
  | _ => false

def tagStep (verifier : TagVerifier) (world : PublishWorld I) :
    TagEvent I → Option (PublishWorld I)
  | .arrive attempt answers request github =>
    publishStep world (.arrive attempt
      { answers with tag := tagAnswer (I := I) verifier github request } request)
  | .registry event => if isArrival event then none else publishStep world event

/-! ### What GitHub confirmed -/

/-- GitHub has the tag of the version, and it points at the commit the version states. -/
def Confirmed (verifier : TagVerifier) (github : Github) (repoUrl : String) (row : Version I) :
    Prop :=
  ∀ owner repo, parseGithub repoUrl = some (owner, repo) →
    ∃ response body, github (verifier.request owner repo row.vcsTag) = .ok response ∧
      response.status ≠ 404 ∧ ¬(400 ≤ response.status ∧ response.status < 600) ∧
      response.body = .ok body ∧
      ∀ commit, row.vcsCommit = some commit → ∃ sha digits, commitOf body = some sha ∧
        canonicalCommit commit = some digits ∧ canonicalCommit sha = some digits

theorem verify_asks {verifier : TagVerifier} (policy : verifier.policy = .github)
    {github : Github} {vcs repoUrl tag owner repo : String}
    (tagged : verifier.usesGitTags vcs = true) (parsed : parseGithub repoUrl = some (owner, repo))
    {check : TagCheck} (checked : verify verifier github vcs repoUrl tag = .ok check) :
    ∃ response, github (verifier.request owner repo tag) = .ok response ∧
      (response.status = 404 ∧ check = .missing ∨
        response.status ≠ 404 ∧ ¬(400 ≤ response.status ∧ response.status < 600) ∧
          ∃ body, response.body = .ok body ∧ check = .verified (commitOf body)) := by
  unfold verify at checked
  rw [policy, if_neg (by decide), tagged, if_neg (by decide), parsed] at checked
  obtain ⟨response, answered, checked⟩ := bind_ok.mp checked
  refine ⟨response, answered, ?_⟩
  split at checked
  · rename_i absent
    exact .inl ⟨absent, (Except.ok.inj checked).symm⟩
  · rename_i present
    obtain ⟨_, success, checked⟩ := bind_ok.mp checked
    obtain ⟨body, read, checked⟩ := bind_ok.mp checked
    exact .inr ⟨present, ensure_ok.mp success, body, read, (Except.ok.inj checked).symm⟩

theorem admitPublish_tag {orgs : String → Option Uuid} {answers : PublishAnswers}
    {request : PublishRequest} {publish : Publish I}
    (admitted : admitPublish I orgs answers request = .ok publish) :
    ∃ artifact check, readMultipart I request.fields = .ok (publish.published, artifact) ∧
      answers.tag = .ok check ∧ checkTag I publish.published check = .ok () := by
  simp only [admitPublish, bind_ok] at admitted
  obtain ⟨token, _, _, _, orgId, _, _, _, ⟨published, artifact, fits⟩, parts, admitted⟩ := admitted
  split at admitted
  · contradiction
  · simp only [bind_ok] at admitted
    obtain ⟨check, asked, _, checked, admitted⟩ := admitted
    split at admitted
    · contradiction
    · have built := encodePublish_ok I admitted
      rw [built]
      exact ⟨⟨artifact, fits⟩, check, parts, asked, checked⟩

/-- A publish that is admitted has had its tag confirmed. -/
theorem admitPublish_confirmed {verifier : TagVerifier} (policy : verifier.policy = .github)
    {orgs : String → Option Uuid} {answers : PublishAnswers} {request : PublishRequest}
    {github : Github} {publish : Publish I}
    (admitted : admitPublish I orgs
      { answers with tag := tagAnswer (I := I) verifier github request } request = .ok publish)
    (tagged : verifier.usesGitTags publish.published.manifest.package.repository.vcs = true)
    {row : Version I} (tag : row.vcsTag = publish.published.vcsTag)
    (commit : row.vcsCommit = publish.published.vcsCommit) :
    Confirmed verifier github publish.published.manifest.package.repository.url row := by
  intro owner repo parsed
  obtain ⟨artifact, check, parts, asked, checked⟩ := admitPublish_tag admitted
  simp only [tagAnswer, parts, bind, Except.bind, mapError_ok] at asked
  obtain ⟨response, answered, outcome⟩ := verify_asks policy tagged parsed asked
  rw [← tag] at answered
  rcases outcome with ⟨-, rfl⟩ | ⟨present, success, body, read, rfl⟩
  · cases checked
  · refine ⟨response, body, answered, present, success, read, ?_⟩
    intro stated states
    rw [commit] at states
    simp only [checkTag, states] at checked
    cases found : commitOf body with
    | none => simp [found, validateVerifiedVcsCommit] at checked
    | some sha =>
        rw [found] at checked
        obtain ⟨digits, declared, verified⟩ := validateVerifiedVcsCommit_ok checked
        exact ⟨sha, digits, rfl, declared, verified⟩

/-- The publish was admitted when the attempt arrived. -/
def Arrived (verifier : TagVerifier) (events : List (TagEvent I)) (attempt : Nat)
    (publish : Publish I) : Prop :=
  ∃ answers request github orgs, .arrive attempt answers request github ∈ events ∧
    admitPublish I orgs { answers with tag := tagAnswer (I := I) verifier github request } request =
      .ok publish

theorem tagStep_sourced {verifier : TagVerifier} {events : List (TagEvent I)}
    {world next : PublishWorld I} {event : TagEvent I}
    (holds : PublishInvariant world ∧ Sourced (Arrived verifier events) world)
    (member : event ∈ events) (stepped : tagStep verifier world event = some next) :
    PublishInvariant next ∧ Sourced (Arrived verifier events) next := by
  obtain ⟨invariant, sourced⟩ := holds
  cases event with
  | arrive attempt answers request github =>
      simp only [tagStep] at stepped
      refine ⟨(publishStep_preserves invariant stepped).1, sourced.step invariant ?_ stepped⟩
      intro other asked request' publish same accepted
      obtain ⟨rfl, rfl, rfl⟩ := PublishEvent.arrive.inj same
      exact ⟨_, _, _, _, member, accepted⟩
  | registry event =>
      simp only [tagStep] at stepped
      split at stepped
      · contradiction
      · rename_i other
        refine ⟨(publishStep_preserves invariant stepped).1, sourced.step invariant ?_ stepped⟩
        rintro attempt answers request publish rfl -
        exact absurd rfl other

end Publishes

/-! ## A sample answer -/

namespace TagSample

def verifier : TagVerifier := ⟨.github, some "ghs_ci", fun vcs => vcs = "git"⟩

/-- GitHub has `v1.2.0` of `acme/http-kit` and no other tag. -/
def github : Github := fun request =>
  if request.url = "https://api.github.com/repos/acme/http-kit/git/ref/tags/v1.2.0" then
    .ok ⟨200, .ok (.object [("object", .object [("sha", .string "4d8f1a"),
      ("type", .string "commit")])])⟩
  else .ok ⟨404, .error "no body"⟩

/-- `acme` is claimed and attempt 0 publishes `alpha` to the end. -/
def release : List (TagEvent PublishSample.interfaces) :=
  .registry (.claimOrg acme) ::
    .arrive 0 PublishSample.answers (PublishSample.request
      [PublishSample.metaField "alpha",
        PublishSample.artifactField "alpha" PublishSample.alpha_small]) github ::
    (PublishSample.advances 0 13 "p0").map .registry

end TagSample

theorem tag_request_confined_sample :
    Reaches (tagUrl "acme" "http-kit" "v1/2?")
      ["repos", "acme", "http-kit", "git", "ref", "tags", "v1/2?"] := by
  have parsed : parseGithub "https://github.com/acme/http-kit.git" = some ("acme", "http-kit") := by
    decide +kernel
  exact (tag_request_confined parsed "v1/2?").1.mpr (by decide)

end ZedRegistry.TagVerification
