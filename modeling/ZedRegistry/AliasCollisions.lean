import Mathlib.Data.List.Lattice
import Mathlib.Data.List.TakeWhile
import ZedRegistry.PublishMachine

/-!
# Alias keys of different packages

When two admitted publishes for different coordinates may claim one alias key.
The `packages/` layout tells the coordinates; the `github/` layout takes its
owner and repository from the declared URL and leaves the org out.
-/

set_option autoImplicit false

namespace ZedRegistry

open Execution

variable {I : Interfaces}

/-- Org and package names of a valid manifest are slugs: lowercase letters,
digits and hyphens. -/
def SlugManifests (I : Interfaces) : Prop :=
  ∀ manifest, I.validateManifest manifest = .ok () →
    '/' ∉ manifest.package.org.toList ∧ '/' ∉ manifest.package.name.toList

namespace Submission

/-- Owner and repository of the GitHub alias. -/
def githubSource (submission : Submission I) : String × String :=
  (parseGithub submission.published.manifest.package.repository.url).getD
    (submission.org.slug, submission.name)

/-- What the GitHub alias says beside its repository and format. -/
def releaseText (submission : Submission I) : String :=
  submission.published.vcsTag ++ "/" ++ submission.name ++ "-" ++ submission.ver

def githubAliased (submission : Submission I) : Bool :=
  safeR2Segments [submission.githubSource.1, submission.githubSource.2,
    submission.published.vcsTag, submission.name, submission.ver,
    submission.published.format.extension]

/-- Both publishes have a GitHub alias, of the same repository and format, and
their tags, names and versions read the same. -/
def SharesGithubAlias (first second : Submission I) : Prop :=
  first.githubAliased = true ∧ second.githubAliased = true ∧
    first.githubSource = second.githubSource ∧
    first.published.format = second.published.format ∧ first.releaseText = second.releaseText

instance (first second : Submission I) : Decidable (SharesGithubAlias first second) :=
  inferInstanceAs (Decidable (_ ∧ _ ∧ _ ∧ _ ∧ _))

def SameCoordinates (first second : Submission I) : Prop :=
  first.org.slug = second.org.slug ∧ first.name = second.name ∧ first.ver = second.ver

end Submission

/-! ## Texts taken apart -/

/-- A text without slashes ends at the first slash after it. -/
theorem beforeSlash_unique {front front' rest rest' : List Char} (clean : '/' ∉ front)
    (clean' : '/' ∉ front')
    (same : front ++ ("/".toList ++ rest) = front' ++ ("/".toList ++ rest')) :
    front = front' ∧ rest = rest' := by
  have split := congrArg (splitOnce '/') same
  change splitOnce '/' (front ++ '/' :: rest) = splitOnce '/' (front' ++ '/' :: rest') at split
  rw [splitOnce_append clean, splitOnce_append clean'] at split
  exact Prod.mk.inj (Option.some.inj split)

/-- The last character tells the format, and with it where the extension starts. -/
theorem extension_unique {front front' : List Char} {format format' : ArtifactFormat}
    (same : front ++ format.extension.toList = front' ++ format'.extension.toList) :
    format = format' ∧ front = front' := by
  have last := congrArg List.getLast? same
  cases format with
  | tarGz =>
      cases format' with
      | tarGz => exact ⟨rfl, List.append_cancel_right same⟩
      | zip => simp [ArtifactFormat.extension, List.getLast?_append] at last
  | zip =>
      cases format' with
      | tarGz => simp [ArtifactFormat.extension, List.getLast?_append] at last
      | zip => exact ⟨rfl, List.append_cancel_right same⟩

theorem parseGithub_slashFree {url owner repo : String}
    (parsed : parseGithub url = some (owner, repo)) :
    '/' ∉ owner.toList ∧ '/' ∉ repo.toList := by
  unfold parseGithub at parsed
  obtain ⟨rest, -, parsed⟩ := Option.bind_eq_some_iff.mp parsed
  simp only at parsed
  split at parsed
  · split at parsed
    · rename_i accepted
      simp only [Option.some.injEq, Prod.mk.injEq] at parsed
      obtain ⟨rfl, rfl⟩ := parsed
      rw [String.toList_ofList, String.toList_ofList]
      refine ⟨?_, accepted.1⟩
      intro member
      simpa using List.mem_takeWhile_imp member
    · contradiction
  · contradiction

theorem releaseText_toList (tag name version : String) :
    (tag ++ "/" ++ name ++ "-" ++ version).toList =
      tag.toList ++ "/".toList ++ name.toList ++ "-".toList ++ version.toList := by
  rw [String.toList_append, String.toList_append, String.toList_append, String.toList_append]

theorem githubAliasKey_toList (owner repo tag name version extension : String) :
    (githubAliasKey owner repo tag name version extension).toList =
      "github/".toList ++ (owner.toList ++ ("/".toList ++ (repo.toList ++ ("/".toList ++
        ((tag ++ "/" ++ name ++ "-" ++ version).toList ++ ".".toList ++ extension.toList))))) := by
  unfold githubAliasKey
  rw [releaseText_toList, String.toList_append, String.toList_append, String.toList_append,
    String.toList_append, String.toList_append, String.toList_append, String.toList_append,
    String.toList_append, String.toList_append, String.toList_append, String.toList_append]
  simp only [List.append_assoc]

theorem packagesAliasKey_segments (org name version extension : String) :
    (packagesAliasKey org name version extension).toList =
      "packages/".toList ++ (org.toList ++ ("/".toList ++ (name.toList ++ ("/".toList ++
        (version.toList ++ ("/".toList ++ (name.toList ++ ("-".toList ++ (version.toList ++
          (".".toList ++ extension.toList)))))))))) := by
  unfold packagesAliasKey
  rw [String.toList_append, String.toList_append, String.toList_append, String.toList_append,
    String.toList_append, String.toList_append, String.toList_append, String.toList_append,
    String.toList_append, String.toList_append, String.toList_append]
  simp only [List.append_assoc]

theorem githubAliasKey_inj {owner owner' repo repo' tag tag' name name' version version' : String}
    {format format' : ArtifactFormat} (ownerClean : '/' ∉ owner.toList)
    (ownerClean' : '/' ∉ owner'.toList) (repoClean : '/' ∉ repo.toList)
    (repoClean' : '/' ∉ repo'.toList) :
    githubAliasKey owner repo tag name version format.extension =
        githubAliasKey owner' repo' tag' name' version' format'.extension ↔
      owner = owner' ∧ repo = repo' ∧ format = format' ∧
        tag ++ "/" ++ name ++ "-" ++ version = tag' ++ "/" ++ name' ++ "-" ++ version' := by
  rw [← String.toList_inj, githubAliasKey_toList, githubAliasKey_toList]
  constructor
  · intro same
    have afterScheme := List.append_cancel_left same
    obtain ⟨owners, afterOwner⟩ := beforeSlash_unique ownerClean ownerClean' afterScheme
    obtain ⟨repos, afterRepo⟩ := beforeSlash_unique repoClean repoClean' afterOwner
    obtain ⟨formats, texts⟩ := extension_unique afterRepo
    exact ⟨String.toList_injective owners, String.toList_injective repos, formats,
      String.toList_injective (List.append_cancel_right texts)⟩
  · rintro ⟨rfl, rfl, rfl, text⟩
    rw [text]

/-- The version stands twice and the lengths of the extensions differ in parity. -/
theorem packagesAliasKey_inj {org org' name name' version version' : String}
    {format format' : ArtifactFormat} (orgClean : '/' ∉ org.toList) (orgClean' : '/' ∉ org'.toList)
    (nameClean : '/' ∉ name.toList) (nameClean' : '/' ∉ name'.toList)
    (same : packagesAliasKey org name version format.extension =
      packagesAliasKey org' name' version' format'.extension) :
    org = org' ∧ name = name' ∧ version = version' := by
  rw [← String.toList_inj, packagesAliasKey_segments, packagesAliasKey_segments] at same
  have afterScheme := List.append_cancel_left same
  obtain ⟨orgs, afterOrg⟩ := beforeSlash_unique orgClean orgClean' afterScheme
  obtain ⟨names, afterName⟩ := beforeSlash_unique nameClean nameClean' afterOrg
  have sameFormat : format = format' := by
    have tails := afterName
    simp only [← List.append_assoc] at tails
    exact (extension_unique tails).1
  have lengths := congrArg List.length afterName
  simp only [List.length_append, names, sameFormat] at lengths
  have versions := List.append_inj_left afterName (by omega)
  exact ⟨String.toList_injective orgs, String.toList_injective names,
    String.toList_injective versions⟩

/-! ## Admitted publishes -/

theorem Publish.slashFree (slugs : SlugManifests I) {orgs : String → Option Uuid}
    {answers : PublishAnswers} {request : PublishRequest} {publish : Publish I}
    (admitted : admitPublish I orgs answers request = .ok publish) :
    '/' ∉ publish.org.slug.toList ∧ '/' ∉ publish.name.toList := by
  obtain ⟨org, name⟩ := slugs _ (admitPublish_validated I admitted)
  rw [publish.owned] at org
  exact ⟨org, name⟩

theorem Submission.githubSource_slashFree {submission : Submission I}
    (org : '/' ∉ submission.org.slug.toList) (name : '/' ∉ submission.name.toList) :
    '/' ∉ submission.githubSource.1.toList ∧ '/' ∉ submission.githubSource.2.toList := by
  unfold Submission.githubSource
  cases parsed : parseGithub submission.published.manifest.package.repository.url with
  | none => exact ⟨org, name⟩
  | some source => exact parseGithub_slashFree parsed

theorem Submission.mem_aliasKeys {submission : Submission I} {key : String} :
    key ∈ submission.aliasKeys ↔
      (submission.githubAliased = true ∧ key = githubAliasKey submission.githubSource.1
        submission.githubSource.2 submission.published.vcsTag submission.name submission.ver
        submission.published.format.extension) ∨
      (safeR2Segments [submission.org.slug, submission.name, submission.ver,
          submission.published.format.extension] = true ∧
        key = packagesAliasKey submission.org.slug submission.name submission.ver
          submission.published.format.extension) := by
  unfold Submission.aliasKeys guessableAliasKeys
  rw [List.mem_append]
  refine or_congr ?_ ?_
  · change key ∈ (if submission.githubAliased = true then _ else _) ↔ _
    split <;> simp_all [Submission.githubSource]
  · split <;> simp_all

/-- The keys of two publishes for different coordinates are disjoint exactly when
the two do not share a GitHub alias. -/
theorem alias_keys_disjoint_iff (slugs : SlugManifests I) {orgs orgs' : String → Option Uuid}
    {answers answers' : PublishAnswers} {request request' : PublishRequest}
    {first second : Publish I} (admitted : admitPublish I orgs answers request = .ok first)
    (admitted' : admitPublish I orgs' answers' request' = .ok second)
    (different : ¬first.SameCoordinates second.toSubmission) :
    first.aliasKeys.Disjoint second.aliasKeys ↔
      ¬first.SharesGithubAlias second.toSubmission := by
  obtain ⟨org, name⟩ := Publish.slashFree slugs admitted
  obtain ⟨org', name'⟩ := Publish.slashFree slugs admitted'
  obtain ⟨owner, repo⟩ := Submission.githubSource_slashFree org name
  obtain ⟨owner', repo'⟩ := Submission.githubSource_slashFree org' name'
  constructor
  · rintro disjoint ⟨aliased, aliased', source, format, text⟩
    refine disjoint (Submission.mem_aliasKeys.mpr (Or.inl ⟨aliased, rfl⟩))
      (Submission.mem_aliasKeys.mpr (Or.inl ⟨aliased', ?_⟩))
    rw [githubAliasKey_inj owner owner' repo repo']
    exact ⟨congrArg Prod.fst source, congrArg Prod.snd source, format, text⟩
  · intro apart key member member'
    rcases Submission.mem_aliasKeys.mp member with ⟨aliased, rfl⟩ | ⟨-, rfl⟩
    · rcases Submission.mem_aliasKeys.mp member' with ⟨aliased', same⟩ | ⟨-, same⟩
      · obtain ⟨owners, repos, format, text⟩ :=
          (githubAliasKey_inj owner owner' repo repo').mp same
        exact apart ⟨aliased, aliased', Prod.ext owners repos, format, text⟩
      · exact githubAliasKey_ne_packagesAliasKey _ _ _ _ _ _ _ _ _ _ same
    · rcases Submission.mem_aliasKeys.mp member' with ⟨-, same⟩ | ⟨-, same⟩
      · exact githubAliasKey_ne_packagesAliasKey _ _ _ _ _ _ _ _ _ _ same.symm
      · exact different (packagesAliasKey_inj org org' name name' same)

/-! ## Two orgs, one repository -/

namespace AliasSample

def isSlug (text : String) : Bool :=
  text ≠ "" && text.toList.all fun char => char.isLower || char.isDigit || char = '-'

/-- The release of another org from the repository of `acme/http-kit`. -/
def forkMetadata : PublishMeta (List String) String :=
  { PublishSample.metadata PublishSample.bravoSha (some "HTTP toolkit") none [] with
    manifest := ⟨{ samplePackage with org := "fork" }, []⟩ }

abbrev interfaces : Interfaces :=
  { Interfaces.sample [(asBytes "alpha", PublishSample.alphaSha),
        (asBytes "bravo", PublishSample.bravoSha)]
      [("acme", PublishSample.metadata PublishSample.alphaSha (some "HTTP toolkit") none []),
        ("fork", forkMetadata)] with
    validateManifest := fun manifest =>
      if isSlug manifest.package.org = true ∧ isSlug manifest.package.name = true then .ok ()
      else .error "org and name are slugs" }

theorem isSlug_slashFree {text : String} (slug : isSlug text = true) : '/' ∉ text.toList := by
  intro member
  unfold isSlug at slug
  rw [Bool.and_eq_true] at slug
  exact absurd (List.all_eq_true.mp slug.2 '/' member) (by decide)

theorem interfaces_slugs : SlugManifests interfaces := by
  intro manifest accepted
  change (if isSlug manifest.package.org = true ∧ isSlug manifest.package.name = true then
    Except.ok () else Except.error "org and name are slugs") = Except.ok () at accepted
  split at accepted
  · rename_i slugs
    exact ⟨isSlug_slashFree slugs.1, isSlug_slashFree slugs.2⟩
  · contradiction

open PublishSample in
def release (orgSlug content : String) (small : (asBytes content).length < 2 ^ 63) :
    PublishRequest :=
  { request [metaField orgSlug, artifactField content small] with orgSlug }

open PublishSample in
def acmeRelease : PublishRequest := release "acme" "alpha" alpha_small

open PublishSample in
def forkRelease : PublishRequest := release "fork" "bravo" bravo_small

def fork : Org := ⟨⟨"3d1f1c2e-6f0e-4a62-b7c1-5a4e2f9d7c10"⟩, "fork"⟩

def steps (attempt count : Nat) (id : String) : List (PublishEvent interfaces) :=
  List.replicate count (.advance attempt (PublishSample.works id))

/-- Both orgs are claimed and publish to the end, `acme` first. -/
def releases : List (PublishEvent interfaces) :=
  [.claimOrg acme, .claimOrg fork, .arrive 0 PublishSample.answers acmeRelease] ++
    steps 0 13 "p0" ++ .arrive 1 PublishSample.answers forkRelease :: steps 1 11 "p1"

def start : PublishWorld interfaces := .initial interfaces .localDir true

def orgs (slug : String) : Option Uuid :=
  if slug = "acme" then some acme.id else if slug = "fork" then some fork.id else none

def sharedKey : String := "github/acme/http-kit/v1.2.0/http-kit-1.2.0.tar.gz"

/-- What an attempt was answered on success. -/
def response (world : PublishWorld interfaces) (attempt : Nat) : Option PublishResponse :=
  match world.phases attempt with
  | some (.finished (.ok response)) => some response
  | _ => none

theorem finished_of_response {world : PublishWorld interfaces} {attempt : Nat}
    {answer : PublishResponse} (answered : response world attempt = some answer) :
    world.phases attempt = some (.finished (.ok answer)) := by
  unfold response at answered
  split at answered
  · rename_i ended
    rw [ended, Option.some.inj answered]
  · contradiction

def admitted (request : PublishRequest) : Option (Publish interfaces) :=
  (admitPublish interfaces orgs PublishSample.answers request).toOption

theorem admitted_some {request : PublishRequest} {publish : Publish interfaces}
    (found : admitted request = some publish) :
    admitPublish interfaces orgs PublishSample.answers request = .ok publish := by
  unfold admitted at found
  cases outcome : admitPublish interfaces orgs PublishSample.answers request with
  | error error =>
      rw [outcome] at found
      contradiction
  | ok value =>
      rw [outcome] at found
      exact congrArg Except.ok (Option.some.inj found)

end AliasSample

open AliasSample in
theorem alias_keys_disjoint_sample :
    ∃ first second : Publish interfaces,
      admitted acmeRelease = some first ∧ admitted forkRelease = some second ∧
      first.SharesGithubAlias second.toSubmission ∧
      ¬first.aliasKeys.Disjoint second.aliasKeys := by
  have seen : ((admitted acmeRelease).bind fun first => (admitted forkRelease).map fun second =>
      (decide (first.org.slug = second.org.slug),
        decide (first.SharesGithubAlias second.toSubmission))) = some (false, true) := by
    decide +kernel
  obtain ⟨first, foundFirst, seen⟩ := Option.bind_eq_some_iff.mp seen
  obtain ⟨second, foundSecond, seen⟩ := Option.map_eq_some_iff.mp seen
  simp only [Prod.mk.injEq, decide_eq_false_iff_not, decide_eq_true_eq] at seen
  obtain ⟨otherOrg, shares⟩ := seen
  refine ⟨first, second, foundFirst, foundSecond, shares, ?_⟩
  rw [alias_keys_disjoint_iff interfaces_slugs (admitted_some foundFirst)
    (admitted_some foundSecond) fun same => otherOrg same.1]
  exact not_not_intro shares

open AliasSample in
/-- Both publishes succeed; the key they share holds the bytes of the first, and
the second has none of its own. -/
theorem alias_key_taken :
    ∃ final first second object, exec publishStep start releases = some final ∧
      admitted acmeRelease = some first ∧ admitted forkRelease = some second ∧
      final.phases 0 =
        some (.finished (.ok ⟨"acme", "http-kit", "1.2.0", PublishSample.alphaSha⟩)) ∧
      final.phases 1 =
        some (.finished (.ok ⟨"fork", "http-kit", "1.2.0", PublishSample.bravoSha⟩)) ∧
      ¬first.SameCoordinates second.toSubmission ∧
      sharedKey ∈ first.aliasKeys ∧ sharedKey ∈ second.aliasKeys ∧
      final.store.get sharedKey = some object ∧ object.bytes = first.artifact ∧
      object.bytes ≠ second.artifact := by
  have seen : ((exec publishStep start releases).bind fun final =>
      (admitted acmeRelease).bind fun first => (admitted forkRelease).bind fun second =>
        (final.store.get sharedKey).map fun object =>
          (response final 0, response final 1, decide (first.org.slug ≠ second.org.slug ∧
            sharedKey ∈ first.aliasKeys ∧ sharedKey ∈ second.aliasKeys ∧
            object.bytes = first.artifact ∧ object.bytes ≠ second.artifact))) =
      some (some ⟨"acme", "http-kit", "1.2.0", PublishSample.alphaSha⟩,
        some ⟨"fork", "http-kit", "1.2.0", PublishSample.bravoSha⟩, true) := by
    decide +kernel
  obtain ⟨final, run, seen⟩ := Option.bind_eq_some_iff.mp seen
  obtain ⟨first, foundFirst, seen⟩ := Option.bind_eq_some_iff.mp seen
  obtain ⟨second, foundSecond, seen⟩ := Option.bind_eq_some_iff.mp seen
  obtain ⟨object, stored, seen⟩ := Option.map_eq_some_iff.mp seen
  simp only [Prod.mk.injEq, decide_eq_true_eq] at seen
  obtain ⟨answer, answer', otherOrg, own, own', bytes, bytes'⟩ := seen
  exact ⟨final, first, second, object, run, foundFirst, foundSecond, finished_of_response answer,
    finished_of_response answer', fun same => otherOrg same.1, own, own', stored, bytes, bytes'⟩

end ZedRegistry
