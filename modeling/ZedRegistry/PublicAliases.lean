import ZedRegistry.PublishAtomic

/-!
# Public aliases of committed versions

Aliases are put before the transaction that decides whose bytes a version has, so
an alias agrees with its version in exactly the runs of which no step commits
over, or puts beside, other bytes.
-/

set_option autoImplicit false

namespace ZedRegistry

open Execution

variable {I : Interfaces}

/-! ## What the claim speaks of -/

/-- The digest of a committed version, and a key under `packages/` of its names. -/
def AliasDigest (world : PublishWorld I) (key sha256 : String) : Prop :=
  ∃ org ∈ world.orgs, ∃ name ver package row,
    world.packages.committed (org.id, name) = some package ∧
      world.versions.committed (package.id, ver) = some row ∧ row.sha256 = sha256 ∧
      ∃ format : ArtifactFormat, key = packagesAliasKey org.slug name ver format.extension

/-- What is stored under the alias keys of committed versions has their digests. -/
def AliasesAgree (world : PublishWorld I) : Prop :=
  ∀ key sha256 object, AliasDigest world key sha256 → world.store.get key = some object →
    I.sha256 object.bytes = sha256

/-! ## What a step must meet -/

def Submission.packagesAlias (submission : Submission I) (format : ArtifactFormat) : String :=
  packagesAliasKey submission.org.slug submission.name submission.ver format.extension

/-- What a publish stores under any of its keys. -/
def Submission.object (submission : Submission I) : StoredObject where
  bytes := submission.artifact
  contentType := I.contentType submission.published.format
  cacheControl := immutableCacheControl
  sha256Metadata := submission.actualSha

/-- A put under the key finds nothing there and stores the artifact. -/
def Creates (world : PublishWorld I) (publish : Publish I) (answer : StepAnswer) (key : String) :
    Prop :=
  isSha256Hex publish.actualSha = true ∧ world.store.get key = none ∧
    (putRule I.sha256 world.store answer.put publish.object publish.actualSha).lands = true

/-- A put that creates an alias finds no committed version of that key with
another digest, and a commit finds no alias of its version with another digest. -/
def AliasStep (world : PublishWorld I) : PublishEvent I → Prop
  | .advance attempt answer =>
    match world.phases attempt with
    | some (.running publish (.putAliases (key :: _))) =>
      Creates world publish answer key →
        ∀ sha256, AliasDigest world key sha256 → publish.actualSha = sha256
    | some (.running publish (.commit _)) =>
      answer.dbOk = true ∨ answer.landed = true →
        ∀ format object, world.store.get (publish.packagesAlias format) = some object →
          I.sha256 object.bytes = publish.actualSha
    | _ => True
  | _ => True

/-! ## One state -/

section States

variable {world next : PublishWorld I}

/-- The committed versions are those that have an author. -/
theorem aliasDigest_iff (tables : TablesHold world) {key sha256 : String} :
    AliasDigest world key sha256 ↔ ∃ place attempt author format,
      world.authors place = some (attempt, author) ∧ key = author.packagesAlias format ∧
        author.actualSha = sha256 := by
  constructor
  · rintro ⟨org, known, name, ver, package, row, found, committed, rfl, format, rfl⟩
    obtain ⟨attempt, author, recorded⟩ := tables.recorded _ row committed
    obtain ⟨other, found', same⟩ := recorded.package
    have issued := tables.packageIds _ other found'
    rw [same, tables.packageIds _ package found] at issued
    obtain ⟨orgId, nameEq⟩ := Prod.mk.inj (Option.some.inj issued)
    have orgEq := tables.orgs _ known _ recorded.known (Or.inr orgId)
    obtain ⟨_, _, rfl⟩ := recorded.row
    refine ⟨_, attempt, author, format, recorded.author, ?_, rfl⟩
    unfold Submission.packagesAlias
    rw [orgEq, nameEq]
    exact congrArg (fun ver => packagesAliasKey _ _ ver _) recorded.version
  · rintro ⟨place, attempt, author, format, known, rfl, rfl⟩
    obtain ⟨row, committed, recorded⟩ := tables.recorded_of_author known
    obtain ⟨package, found, same⟩ := recorded.package
    obtain ⟨_, _, built⟩ := recorded.row
    refine ⟨author.org, recorded.known, author.name, author.ver, package, row, found, ?_,
      congrArg Version.sha256 built, format, rfl⟩
    rw [← committed]
    exact congrArg world.versions.committed (Prod.ext same recorded.version.symm)

theorem packagesAlias_of_aliasDigest {key sha256 : String}
    (aliased : AliasDigest world key sha256) :
    ∃ org name ver extension, key = packagesAliasKey org name ver extension := by
  obtain ⟨org, -, name, ver, -, -, -, -, -, format, rfl⟩ := aliased
  exact ⟨org.slug, name, ver, format.extension, rfl⟩

/-- The same authors alias the same digests. -/
theorem aliasDigest_congr (tables : TablesHold world) (tables' : TablesHold next)
    (authors : next.authors = world.authors) {key sha256 : String} :
    AliasDigest next key sha256 ↔ AliasDigest world key sha256 := by
  rw [aliasDigest_iff tables, aliasDigest_iff tables', authors]

/-- No author and no alias changes. -/
theorem aliasesAgree_congr (tables : TablesHold world) (tables' : TablesHold next)
    (authors : next.authors = world.authors)
    (aliases : ∀ org name ver extension,
      next.store.get (packagesAliasKey org name ver extension) =
        world.store.get (packagesAliasKey org name ver extension)) :
    AliasesAgree next ↔ AliasesAgree world := by
  unfold AliasesAgree
  refine forall_congr' fun key => forall_congr' fun sha256 => forall_congr' fun object => ?_
  rw [aliasDigest_congr tables tables' authors]
  refine imp_congr_right fun aliased => ?_
  obtain ⟨org, name, ver, extension, rfl⟩ := packagesAlias_of_aliasDigest aliased
  rw [aliases]

/-! ## Puts -/

theorem putStep_creates {publish : Publish I} {answer : StepAnswer} {key : String}
    (creates : Creates world publish answer key) :
    (putStep world publish answer key).2 = world.store.insert key publish.object := by
  obtain ⟨hex, absent, lands⟩ := creates
  unfold putStep putVerified
  have wellFormed : ¬isSha256Hex publish.actualSha = false := by simp [hex]
  simp only [if_neg wellFormed, absent]
  exact congrArg Prod.snd (if_pos lands)

theorem putStep_keeps {publish : Publish I} {answer : StepAnswer} {key : String}
    (idle : ¬Creates world publish answer key) :
    (putStep world publish answer key).2 = world.store := by
  unfold putStep putVerified
  simp only
  split
  · rfl
  · rename_i wellFormed
    split
    · rfl
    · rename_i absent
      have stays : ¬(putRule I.sha256 world.store answer.put publish.object
          publish.actualSha).lands = true :=
        fun lands => idle ⟨by simpa using wellFormed, absent, lands⟩
      exact congrArg Prod.snd (if_neg stays)

/-- A created object agrees exactly when the versions of its key have its digest. -/
theorem aliasesAgree_insert {publish : Publish I} {key : String} (tables : TablesHold world)
    (tables' : TablesHold next) (authors : next.authors = world.authors)
    (absent : world.store.get key = none)
    (stored : next.store = world.store.insert key publish.object) :
    AliasesAgree next ↔ AliasesAgree world ∧
      ∀ sha256, AliasDigest world key sha256 → publish.actualSha = sha256 := by
  constructor
  · intro agree
    refine ⟨fun other sha256 object aliased found => ?_, fun sha256 aliased => ?_⟩
    · refine agree other sha256 object ((aliasDigest_congr tables tables' authors).mpr aliased) ?_
      rw [stored]
      exact (putExtends_insert absent publish.object).kept other object found
    · refine agree key sha256 publish.object
        ((aliasDigest_congr tables tables' authors).mpr aliased) ?_
      rw [stored, get_insert, if_pos rfl]
  · rintro ⟨agree, created⟩ other sha256 object aliased found
    have before := (aliasDigest_congr tables tables' authors).mp aliased
    rw [stored, get_insert] at found
    split at found
    · rename_i same
      obtain rfl := Option.some.inj found
      exact created sha256 (same ▸ before)
    · exact agree other sha256 object before found

/-! ## Commits -/

/-- A version that lands aliases its own digest under its own keys. -/
theorem aliasDigest_land {attempt : Nat} {publish : Publish I} {package : Package I}
    (tables : TablesHold world) (tables' : TablesHold next)
    (unauthored : world.authors (package.id, publish.ver) = none)
    (authors : next.authors = (world.land attempt publish package).authors) {key sha256 : String} :
    AliasDigest next key sha256 ↔ AliasDigest world key sha256 ∨
      ∃ format, key = publish.packagesAlias format ∧ publish.actualSha = sha256 := by
  rw [aliasDigest_iff tables, aliasDigest_iff tables', authors]
  constructor
  · rintro ⟨place, other, author, format, known, rfl, rfl⟩
    by_cases same : place = (package.id, publish.ver)
    · subst same
      have self : (world.land attempt publish package).authors (package.id, publish.ver) =
          some (attempt, publish) := Function.update_self _ _ _
      rw [self] at known
      obtain ⟨-, rfl⟩ := Prod.mk.inj (Option.some.inj known)
      exact Or.inr ⟨format, rfl, rfl⟩
    · exact Or.inl ⟨place, other, author, format, (Function.update_of_ne same _ _).symm.trans known,
        rfl, rfl⟩
  · rintro (⟨place, other, author, format, known, rfl, rfl⟩ | ⟨format, rfl, rfl⟩)
    · have differs : place ≠ (package.id, publish.ver) := by
        rintro rfl
        rw [unauthored] at known
        contradiction
      exact ⟨place, other, author, format, (Function.update_of_ne differs _ _).trans known, rfl,
        rfl⟩
    · exact ⟨_, attempt, publish, format, Function.update_self _ _ _, rfl, rfl⟩

theorem aliasesAgree_land {attempt : Nat} {publish : Publish I} {package : Package I}
    (tables : TablesHold world) (tables' : TablesHold next)
    (unauthored : world.authors (package.id, publish.ver) = none)
    (authors : next.authors = (world.land attempt publish package).authors)
    (stored : next.store = world.store) :
    AliasesAgree next ↔ AliasesAgree world ∧
      ∀ format object, world.store.get (publish.packagesAlias format) = some object →
        I.sha256 object.bytes = publish.actualSha := by
  constructor
  · intro agree
    refine ⟨fun key sha256 object aliased found => ?_, fun format object found => ?_⟩
    · exact agree key sha256 object
        ((aliasDigest_land tables tables' unauthored authors).mpr (Or.inl aliased))
        (stored ▸ found)
    · exact agree _ _ object
        ((aliasDigest_land tables tables' unauthored authors).mpr (Or.inr ⟨format, rfl, rfl⟩))
        (stored ▸ found)
  · rintro ⟨agree, own⟩ key sha256 object aliased found
    rw [stored] at found
    rcases (aliasDigest_land tables tables' unauthored authors).mp aliased with
      before | ⟨format, rfl, rfl⟩
    · exact agree key sha256 object before found
    · exact own format object found

/-! ## Steps -/

section Advance

variable {attempt : Nat} {publish : Publish I} {point : PublishPoint I} {answer : StepAnswer}

theorem advance_putAliases {key : String} {rest : List String}
    (stepped : advance world attempt publish answer (.putAliases (key :: rest)) = some next) :
    next.authors = world.authors ∧ next.store = (putStep world publish answer key).2 := by
  simp only [advance] at stepped
  split at stepped
  · obtain rfl := Option.some.inj stepped
    exact ⟨rfl, rfl⟩
  · obtain rfl := Option.some.inj stepped
    exact ⟨rfl, rfl⟩

theorem advance_commit {package : Package I}
    (stepped : advance world attempt publish answer (.commit package) = some next) :
    next.store = world.store ∧ next.authors =
      if answer.dbOk = true ∨ answer.landed = true then
        (world.land attempt publish package).authors
      else world.authors := by
  simp only [advance] at stepped
  split at stepped
  · rename_i works
    obtain rfl := Option.some.inj stepped
    rw [if_pos (Or.inl works)]
    exact ⟨rfl, rfl⟩
  · rename_i fails
    split at stepped
    · rename_i landed
      obtain rfl := Option.some.inj stepped
      rw [if_pos (Or.inr landed)]
      exact ⟨rfl, rfl⟩
    · rename_i lost
      obtain rfl := Option.some.inj stepped
      rw [if_neg (not_or.mpr ⟨fails, lost⟩)]
      exact ⟨rfl, rfl⟩

/-- Only alias puts and commits touch aliases or authors. -/
theorem PublishEffect.aliases (effect : PublishEffect world attempt publish point next)
    (putting : ∀ key, Puts publish key point → key = publish.key)
    (committing : ∀ package, point ≠ .commit package) :
    next.authors = world.authors ∧ ∀ org name ver extension,
      next.store.get (packagesAliasKey org name ver extension) =
        world.store.get (packagesAliasKey org name ver extension) := by
  cases effect with
  | put key answer named =>
      refine ⟨rfl, fun org name ver extension => ?_⟩
      by_cases creates : Creates world publish answer key
      · have differs : packagesAliasKey org name ver extension ≠ key := by
          rw [putting key named]
          exact (artifactKey_ne_packagesAliasKey _ _ _ _ _ _).symm
        change (putStep world publish answer key).2.get _ = _
        rw [putStep_creates creates, get_insert, if_neg differs]
      · change (putStep world publish answer key).2.get _ = _
        rw [putStep_keeps creates]
  | land package here => exact absurd here (committing package)
  | _ => exact ⟨rfl, fun _ _ _ _ => rfl⟩

theorem advance_beside_aliases (invariant : PublishInvariant world)
    (running : world.phases attempt = some (.running publish point))
    (stepped : advance world attempt publish answer point = some next)
    (putting : ∀ key, Puts publish key point → key = publish.key)
    (committing : ∀ package, point ≠ .commit package) :
    AliasesAgree next ↔ AliasesAgree world := by
  obtain ⟨middle, phase, effect, rfl, -, -⟩ := invariant.stepsTo running stepped
  obtain ⟨authors, aliases⟩ := effect.aliases putting committing
  exact aliasesAgree_congr invariant.tables
    (advance_preserves invariant running stepped).1.tables authors aliases

theorem advance_aliases (invariant : PublishInvariant world)
    (running : world.phases attempt = some (.running publish point))
    (stepped : advance world attempt publish answer point = some next) :
    AliasesAgree next ↔ AliasesAgree world ∧ AliasStep world (.advance attempt answer) := by
  have tables := invariant.tables
  have tables' := (advance_preserves invariant running stepped).1.tables
  have beside := advance_beside_aliases invariant running stepped
  unfold AliasStep
  simp only [running]
  cases point with
  | putAliases keys =>
      cases keys with
      | nil => simpa using beside (fun _ named => named.elim) (fun _ same => by cases same)
      | cons key rest =>
          obtain ⟨authors, stored⟩ := advance_putAliases stepped
          by_cases creates : Creates world publish answer key
          · rw [putStep_creates creates] at stored
            rw [aliasesAgree_insert tables tables' authors creates.2.1 stored]
            simp [creates]
          · rw [putStep_keeps creates] at stored
            rw [aliasesAgree_congr tables tables' authors fun _ _ _ _ => by rw [stored]]
            simp [creates]
  | commit package =>
      obtain ⟨stored, authors⟩ := advance_commit stepped
      by_cases landing : answer.dbOk = true ∨ answer.landed = true
      · have holds := invariant.phases attempt
        rw [running] at holds
        rw [if_pos landing] at authors
        rw [aliasesAgree_land tables tables' (holds.2.2.2.unauthored tables).2 authors stored]
        simp [landing]
      · rw [if_neg landing] at authors
        rw [aliasesAgree_congr tables tables' authors fun _ _ _ _ => by rw [stored]]
        simp [landing]
  | putBlob => simpa using beside (fun _ named => named) (fun _ same => by cases same)
  | _ => simpa using beside (fun _ named => named.elim) (fun _ same => by cases same)

end Advance

/-- The other events put nothing and commit no version. -/
theorem step_beside_aliases {event : PublishEvent I}
    (stepped : publishStep world event = some next)
    (others : ∀ attempt answer, event ≠ .advance attempt answer) :
    next.authors = world.authors ∧ next.store = world.store := by
  cases publishStep_some stepped with
  | advanced attempt answer => exact absurd rfl (others attempt answer)
  | refused | admitted | crashed | claimed | yanked | indexed => exact ⟨rfl, rfl⟩

/-- A step keeps the aliases in agreement exactly when it meets its condition. -/
theorem publishStep_aliases {event : PublishEvent I} (invariant : PublishInvariant world)
    (stepped : publishStep world event = some next) :
    AliasesAgree next ↔ AliasesAgree world ∧ AliasStep world event := by
  have tables' := (publishStep_preserves invariant stepped).1.tables
  have beside (others : ∀ attempt answer, event ≠ .advance attempt answer) :
      AliasesAgree next ↔ AliasesAgree world := by
    obtain ⟨authors, stored⟩ := step_beside_aliases stepped others
    exact aliasesAgree_congr invariant.tables tables' authors fun _ _ _ _ => by rw [stored]
  cases publishStep_some stepped with
  | advanced attempt answer publish point _ running moved =>
      exact advance_aliases invariant running moved
  | _ =>
      rw [beside fun _ _ same => by cases same]
      simp [AliasStep]

end States

/-! ## Every run -/

/-- In a run of publishes, yanks, index uploads and org claims, the aliases of all
committed versions agree with them exactly when every step met its condition. -/
theorem public_aliases_agree_iff {backend : Backend} {registryWrite : Bool}
    {events : List (PublishEvent I)} {final : PublishWorld I}
    (run : exec publishStep (PublishWorld.initial I backend registryWrite) events = some final) :
    AliasesAgree final ↔
      Allowed publishStep AliasStep (PublishWorld.initial I backend registryWrite) events := by
  have start : AliasesAgree (PublishWorld.initial I backend registryWrite) := by
    rintro key sha256 object ⟨org, known, -⟩
    exact absurd known List.not_mem_nil
  rw [exec_iff_allowed publishStep
    (fun world event next holds stepped =>
      ⟨(publishStep_preserves holds stepped).1, publishStep_aliases holds stepped⟩)
    (initial_invariant backend registryWrite) run]
  exact and_iff_right start

/-! ## A failed publish and a later one -/

open PublishSample in
/-- `acme` is claimed, attempt 0 puts its artifact and aliases and cannot begin its
transaction, and attempt 1 publishes other bytes to the end. -/
def failureThenRelease : List (PublishEvent interfaces) :=
  .claimOrg acme :: arrive 0 "alpha" "alpha" alpha_small ::
    (advances 0 5 "p0" ++ .advance 0 dbFails ::
      arrive 1 "bravo" "bravo" bravo_small :: advances 1 11 "p1")

theorem public_aliases_agree_sample :
    ∃ final object, exec publishStep PublishSample.start PublishSample.firstRelease = some final ∧
      final.store.get (packagesAliasKey "acme" "http-kit" "1.2.0" "tar.gz") = some object ∧
      object.bytes = asBytes "alpha" ∧
      (AliasesAgree final ↔
        Allowed publishStep AliasStep PublishSample.start PublishSample.firstRelease) := by
  have seen : ((exec publishStep PublishSample.start PublishSample.firstRelease).bind fun final =>
      (final.store.get (packagesAliasKey "acme" "http-kit" "1.2.0" "tar.gz")).map
        StoredObject.bytes) = some (asBytes "alpha") := by
    decide +kernel
  obtain ⟨final, run, seen⟩ := Option.bind_eq_some_iff.mp seen
  obtain ⟨object, found, bytes⟩ := Option.map_eq_some_iff.mp seen
  exact ⟨final, object, run, found, bytes, public_aliases_agree_iff run⟩

/-- The committed version has the digest of attempt 1, and its alias the bytes of
attempt 0. -/
theorem public_alias_of_failed_publish :
    ∃ final row object, exec publishStep PublishSample.start failureThenRelease = some final ∧
      final.versions.committed (⟨"p1"⟩, "1.2.0") = some row ∧
      row.sha256 = PublishSample.bravoSha ∧
      final.store.get (packagesAliasKey "acme" "http-kit" "1.2.0" "tar.gz") = some object ∧
      object.bytes = asBytes "alpha" ∧ ¬AliasesAgree final := by
  have seen : ((exec publishStep PublishSample.start failureThenRelease).bind fun final =>
      (final.packages.committed (sampleOrg, "http-kit")).bind fun package =>
        (final.versions.committed (⟨"p1"⟩, "1.2.0")).bind fun row =>
          (final.store.get (packagesAliasKey "acme" "http-kit" "1.2.0" "tar.gz")).map
            fun object => (final.orgs, package.id, row.sha256, object.bytes)) =
        some ([acme], ⟨"p1"⟩, PublishSample.bravoSha, asBytes "alpha") := by
    decide +kernel
  obtain ⟨final, run, seen⟩ := Option.bind_eq_some_iff.mp seen
  obtain ⟨package, found, seen⟩ := Option.bind_eq_some_iff.mp seen
  obtain ⟨row, committed, seen⟩ := Option.bind_eq_some_iff.mp seen
  obtain ⟨object, stored, seen⟩ := Option.map_eq_some_iff.mp seen
  simp only [Prod.mk.injEq] at seen
  obtain ⟨orgs, packageId, digest, bytes⟩ := seen
  refine ⟨final, row, object, run, committed, digest, stored, bytes, ?_⟩
  intro agree
  have aliased : AliasDigest final (packagesAliasKey "acme" "http-kit" "1.2.0" "tar.gz")
      row.sha256 := by
    refine ⟨acme, orgs ▸ List.mem_singleton_self acme, "http-kit", "1.2.0", package, row, found,
      ?_, rfl, .tarGz, rfl⟩
    rw [packageId]
    exact committed
  have same := agree _ _ object aliased stored
  rw [digest, bytes] at same
  exact absurd same (by decide +kernel)

end ZedRegistry
