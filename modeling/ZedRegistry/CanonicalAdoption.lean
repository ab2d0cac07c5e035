import ZedRegistry.PublishSteps

/-!
# What reaches the canonical plane

Which input `adopt_canonical_publish` sends for a retry, against the input of the
publish that committed the version.
-/

set_option autoImplicit false

namespace ZedRegistry

open Execution

variable {I : Interfaces}

/-- The publish that committed the version of these coordinates. -/
def CommittedBy (world : PublishWorld I) (publish : Publish I) (attempt : Nat)
    (author : Publish I) : Prop :=
  ∃ key, world.authors key = some (attempt, author) ∧ author.org = publish.org ∧
    author.name = publish.name ∧ author.ver = publish.ver

def MachinePublishInput.withoutUserAgent (input : MachinePublishInput I) :
    MachinePublishInput I :=
  { input with userAgent := none }

/-- The author's own input is built, and is this one but for the user agent. -/
def SendsInputOf (input : MachinePublishInput I) (author : Publish I) : Prop :=
  ∃ built, machinePublishInput author = .ok built ∧
    input.withoutUserAgent = built.withoutUserAgent

/-! ## The author of a version -/

section States

variable {world : PublishWorld I}

/-- Coordinates have one author. -/
theorem TablesHold.author_unique (tables : TablesHold world) {publish author author' : Publish I}
    {attempt attempt' : Nat} (first : CommittedBy world publish attempt author)
    (second : CommittedBy world publish attempt' author') :
    attempt = attempt' ∧ author = author' := by
  obtain ⟨key, known, org, name, ver⟩ := first
  obtain ⟨key', known', org', name', ver'⟩ := second
  obtain ⟨row, -, recorded⟩ := tables.recorded_of_author known
  obtain ⟨row', -, recorded'⟩ := tables.recorded_of_author known'
  obtain ⟨package, found, same⟩ := recorded.package
  obtain ⟨package', found', same'⟩ := recorded'.package
  have samePackage : author.packageKey = author'.packageKey := by
    unfold Submission.packageKey
    rw [org, name, org', name']
  rw [samePackage, found'] at found
  have sameKey : key = key' := by
    apply Prod.ext
    · rw [← same, ← same', Option.some.inj found]
    · rw [recorded.version, recorded'.version, ver, ver']
  subst sameKey
  rw [known] at known'
  exact Prod.mk.inj (Option.some.inj known')

theorem Adoptable.committedBy {publish : Publish I} (adoptable : Adoptable world publish) :
    ∃ attempt author, CommittedBy world publish attempt author ∧ SameFacts publish author := by
  obtain ⟨key, attempt, author, known, same⟩ := adoptable
  exact ⟨attempt, author, ⟨key, known, same.org.symm, same.name.symm, same.ver.symm⟩, same⟩

end States

/-! ## Inputs -/

/-- The input says which manifest it was built from. -/
theorem machinePublishInput_manifest {publish : Publish I} {input : MachinePublishInput I}
    (built : machinePublishInput publish = .ok input) :
    I.manifestToValue publish.published.manifest = .ok input.manifest ∧
      input.description = publish.published.manifest.package.description := by
  simp only [machinePublishInput, bind_ok, mapError_ok] at built
  obtain ⟨value, encoded, built⟩ := built
  obtain rfl := Except.ok.inj built
  exact ⟨encoded, rfl⟩

/-- One manifest and the facts that a match compares give one input. -/
theorem sendsInputOf_of_manifest {publish author : Publish I} {input : MachinePublishInput I}
    (same : SameFacts publish author)
    (manifest : publish.published.manifest = author.published.manifest)
    (built : machinePublishInput publish = .ok input) : SendsInputOf input author := by
  have sameKey : publish.key = author.key := by
    unfold Submission.key
    rw [same.actualSha, same.format]
  simp only [machinePublishInput, bind_ok, mapError_ok] at built
  obtain ⟨value, encoded, built⟩ := built
  obtain rfl := Except.ok.inj built
  refine ⟨_, bind_ok.mpr ⟨value, mapError_ok.mpr (manifest ▸ encoded), rfl⟩, ?_⟩
  simp only [MachinePublishInput.withoutUserAgent, manifest, same.org, same.actualSha,
    same.artifactLen, same.format, same.vcsTag, same.vcsCommit, sameKey]

/-- Every call of the canonical plane is for a committed version, and sends the
input of the publish that committed it exactly when the manifests are the same. -/
theorem adopted_input_iff_same_manifest
    (faithful : ∀ manifest other value, I.manifestToValue manifest = .ok value →
      I.manifestToValue other = .ok value → manifest = other)
    {backend : Backend} {registryWrite : Bool} {events : List (PublishEvent I)}
    {final : PublishWorld I}
    (run : exec publishStep (PublishWorld.initial I backend registryWrite) events = some final)
    {publish : Publish I} {input : MachinePublishInput I}
    (called : (publish, input) ∈ final.adoptions) :
    (∃ attempt author, CommittedBy final publish attempt author) ∧
      ∀ attempt author, CommittedBy final publish attempt author →
        (SendsInputOf input author ↔
          publish.published.manifest = author.published.manifest) := by
  have tables := (exec_invariant_publish (initial_invariant backend registryWrite) run).tables
  obtain ⟨built, adoptable⟩ := tables.adopted _ called
  obtain ⟨attempt, author, committed, same⟩ := adoptable.committedBy
  refine ⟨⟨attempt, author, committed⟩, ?_⟩
  intro attempt' author' committed'
  obtain ⟨-, rfl⟩ := tables.author_unique committed committed'
  constructor
  · rintro ⟨own, ownBuilt, agrees⟩
    have sameValue : input.withoutUserAgent.manifest = own.withoutUserAgent.manifest := by
      rw [agrees]
    have sameValue : input.manifest = own.manifest := sameValue
    exact faithful _ _ _ (machinePublishInput_manifest built).1
      (sameValue ▸ (machinePublishInput_manifest ownBuilt).1)
  · intro manifest
    exact sendsInputOf_of_manifest same manifest built

/-! ## Retries of a release -/

theorem sample_manifest_faithful (manifest other : Manifest (List String))
    (value : Interfaces.SampleValue)
    (encoded : PublishSample.interfaces.manifestToValue manifest = .ok value)
    (encoded' : PublishSample.interfaces.manifestToValue other = .ok value) :
    manifest = other := by
  obtain rfl := Except.ok.inj encoded
  exact (Interfaces.SampleValue.manifest.inj (Except.ok.inj encoded')).symm

/-- The first release, and then a publish of the same bytes by attempt 1. -/
def releaseAndRetry (text : String) : List (PublishEvent PublishSample.interfaces) :=
  PublishSample.firstRelease ++ PublishSample.arrive 1 text "alpha" PublishSample.alpha_small ::
    PublishSample.advances 1 3 "p1"

/-- An identical retry sends the input of the release once more. -/
theorem adopted_input_iff_same_manifest_sample :
    ∃ final publish input, exec publishStep PublishSample.start (releaseAndRetry "alpha") =
        some final ∧
      final.adoptions.length = 2 ∧ (publish, input) ∈ final.adoptions ∧
      (∃ attempt author, CommittedBy final publish attempt author) ∧
      ∀ attempt author, CommittedBy final publish attempt author →
        (SendsInputOf input author ↔
          publish.published.manifest = author.published.manifest) := by
  have seen : (exec publishStep PublishSample.start (releaseAndRetry "alpha")).map
      (fun final => final.adoptions.length) = some 2 := by
    decide +kernel
  obtain ⟨final, run, two⟩ := Option.map_eq_some_iff.mp seen
  obtain ⟨call, called⟩ := List.length_pos_iff_exists_mem.mp (two ▸ Nat.zero_lt_two)
  exact ⟨final, call.1, call.2, run, two, called,
    adopted_input_iff_same_manifest sample_manifest_faithful run called⟩

/-- A retry with the same bytes and another description is adopted, and what it
sends is not the input of the release. -/
theorem adopted_divergent_retry :
    ∃ final publish input attempt author,
      exec publishStep PublishSample.start (releaseAndRetry "renamed") = some final ∧
        (publish, input) ∈ final.adoptions ∧ CommittedBy final publish attempt author ∧
        input.description = some "Another toolkit" ∧
        author.published.manifest.package.description = some "HTTP toolkit" ∧
        ¬SendsInputOf input author := by
  have seen : ((exec publishStep PublishSample.start (releaseAndRetry "renamed")).bind
      fun final => final.adoptions.head?.bind fun call =>
        (final.authors (⟨"p0"⟩, "1.2.0")).map fun author =>
          (author.2.org = call.1.org ∧ author.2.name = call.1.name ∧ author.2.ver = call.1.ver :
              Bool) && call.2.description = some "Another toolkit" &&
            author.2.published.manifest.package.description = some "HTTP toolkit") =
        some true := by
    decide +kernel
  obtain ⟨final, run, seen⟩ := Option.bind_eq_some_iff.mp seen
  obtain ⟨call, first, seen⟩ := Option.bind_eq_some_iff.mp seen
  obtain ⟨author, known, seen⟩ := Option.map_eq_some_iff.mp seen
  simp only [Bool.and_eq_true, decide_eq_true_eq] at seen
  obtain ⟨⟨coordinates, sent⟩, own⟩ := seen
  refine ⟨final, call.1, call.2, author.1, author.2, run, List.mem_of_head? first,
    ⟨_, known, coordinates⟩, sent, own, ?_⟩
  rintro ⟨built, ownBuilt, agrees⟩
  have described : call.2.description = built.description := by
    change call.2.withoutUserAgent.description = built.withoutUserAgent.description
    rw [agrees]
  rw [sent, (machinePublishInput_manifest ownBuilt).2, own] at described
  exact absurd described (by decide)

end ZedRegistry
