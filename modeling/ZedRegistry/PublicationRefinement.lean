import ZedRegistry.Lib.Simulation
import ZedRegistry.PublicationModel
import ZedRegistry.PublishAtomic

/-!
# Publishing refines the publication model

A run of the registry in which two attempts publish one version, and no third is
admitted for it, is matched by a run of `formal/package_publication.qnt`.  Other
packages and versions, yanks, index uploads and org claims may run besides.
-/

set_option autoImplicit false

namespace ZedRegistry

open Execution
open PackagePublication (State Action Requester AttemptPhase noDigest PublicationSafety)

variable {I : Interfaces}

/-! ## The race -/

/-- Two attempts and the publish each makes when it is admitted, both of one version. -/
structure Race (I : Interfaces) where
  attempt : Requester → Nat
  publish : Requester → Publish I
  distinct : attempt .a ≠ attempt .b
  sameKey : ∀ who, (publish who).packageKey = (publish .a).packageKey
  sameVer : ∀ who, (publish who).ver = (publish .a).ver

namespace Race

variable (race : Race I)

/-- The publish is of the version that the two race for. -/
def Names (publish : Publish I) : Prop :=
  publish.packageKey = (race.publish .a).packageKey ∧ publish.ver = (race.publish .a).ver

/-- The model's digest for an artifact: `DIGEST_A` for that of the first publish. -/
def digest (sha : String) : Int := if sha = (race.publish .a).actualSha then 1 else 2

/-- Only the two attempts are admitted for the version, with their publishes. -/
def Admits (world : PublishWorld I) : PublishEvent I → Prop
  | .arrive attempt answers request => ∀ publish,
      admitPublish I world.orgId answers request = .ok publish →
        (∀ who, race.attempt who = attempt → publish = race.publish who) ∧
          (race.Names publish → ∃ who, race.attempt who = attempt)
  | .advance _ _ | .crash _ | .claimOrg _ | .yank _ _ | .updateIndex _ _ _ => True

variable {race}

theorem names_publish (who : Requester) : race.Names (race.publish who) :=
  ⟨race.sameKey who, race.sameVer who⟩

theorem attempt_injective {who other : Requester} (same : race.attempt who = race.attempt other) :
    who = other := by
  cases who with
  | a =>
      cases other with
      | a => rfl
      | b => exact absurd same race.distinct
  | b =>
      cases other with
      | a => exact absurd same.symm race.distinct
      | b => rfl

theorem digest_mem (sha : String) : race.digest sha ∈ PackagePublication.digests := by
  unfold digest
  split
  · decide
  · decide

theorem digest_ne (sha : String) : race.digest sha ≠ noDigest := by
  intro none'
  exact PackagePublication.noDigest_not_mem (none' ▸ @digest_mem _ race sha)

end Race

/-! ## What a state of the model stands for -/

/-- Before the artifact is stored, until the transaction is decided, and after. -/
def pointPhase : PublishPoint I → AttemptPhase
  | .findPackage | .findVersion _ | .adoptRetry | .putBlob => .idle
  | .putAliases _ | .beginTxn | .upsert | .readBack | .bump _ | .insertVersion _ | .commit _ =>
      .uploaded
  | .findWinner _ | .adoptWinner | .adoptPublished | .audit => .finished

/-- The model has no step for a publish that ends before its upload. -/
def Counts : Option (PublishPhase I) → AttemptPhase → Prop
  | none, phase => phase = .idle
  | some (.running _ point), phase => phase = pointPhase point
  | some (.finished _), phase | some .crashed, phase => phase ≠ .uploaded

open Classical in
noncomputable def landings (world : PublishWorld I) (attempt : Nat) : Int :=
  if Landed world attempt then 1 else 0

/-- The two attempts are where the model has them. -/
structure Follows (race : Race I) (world : PublishWorld I) (s : State) : Prop where
  phase : ∀ who, Counts (world.phases (race.attempt who)) (s.attempt who)
  runs : ∀ who publish point,
    world.phases (race.attempt who) = some (.running publish point) → publish = race.publish who
  others : ∀ attempt publish point, world.phases attempt = some (.running publish point) →
    race.Names publish → ∃ who, race.attempt who = attempt
  uploaded : ∀ who, s.attempt who = .uploaded → s.digest who ∈ s.blobs
  unlanded : ∀ who, s.attempt who ≠ .finished → ¬Landed world (race.attempt who)

/-- The registry holds what the model says is stored and committed. -/
structure Records (race : Race I) (world : PublishWorld I) (s : State) : Prop where
  digest : ∀ who, s.digest who = race.digest (race.publish who).actualSha
  stored : ∀ digest ∈ s.blobs, ∃ who, s.digest who = digest ∧ Stored world (race.publish who)
  authored : ∀ key attempt author, world.authors key = some (attempt, author) →
    race.Names author → s.committedDigest = race.digest author.actualSha
  free : (∀ key attempt author, world.authors key = some (attempt, author) →
    ¬race.Names author) → s.committedDigest = noDigest
  landed : s.commitCount =
    landings world (race.attempt .a) + landings world (race.attempt .b)

structure Shadows (race : Race I) (world : PublishWorld I) (s : State) : Prop where
  follows : Follows race world s
  records : Records race world s

/-! ## What a step of a publish does to the two -/

/-- One step of a publish, by what the model takes it for. -/
inductive Moved (world : PublishWorld I) (attempt : Nat) (publish : Publish I) :
    PublishPoint I → PublishWorld I → Prop
  | within {point : PublishPoint I} {next : PublishWorld I} (later : PublishPoint I)
      (same : pointPhase later = pointPhase point)
      (phases : next.phases =
        Function.update world.phases attempt (some (.running publish later)))
      (authors : next.authors = world.authors) : Moved world attempt publish point next
  | stopped {point : PublishPoint I} {next : PublishWorld I} (result : ApiResult PublishResponse)
      (phases : next.phases = Function.update world.phases attempt (some (.finished result)))
      (authors : next.authors = world.authors) : Moved world attempt publish point next
  | uploaded {next : PublishWorld I} (keys : List String)
      (phases : next.phases =
        Function.update world.phases attempt (some (.running publish (.putAliases keys))))
      (authors : next.authors = world.authors) : Moved world attempt publish .putBlob next
  | lost {next : PublishWorld I} (package : Package I) (row : Version I)
      (seen : world.versions.view attempt (package.id, publish.ver) = some row)
      (phases : next.phases =
        Function.update world.phases attempt (some (.running publish (.findWinner package))))
      (authors : next.authors = world.authors) :
      Moved world attempt publish (.insertVersion package) next
  | landed (package : Package I) (phase : PublishPhase I)
      (decided : Counts (some phase) .finished) (same : PhaseOf publish phase) :
      Moved world attempt publish (.commit package)
        ((world.land attempt publish package).goto attempt phase)

section Moves

variable {world next : PublishWorld I} {attempt : Nat} {publish : Publish I}
  {point : PublishPoint I} {answer : StepAnswer}

theorem moved_finish (result : ApiResult PublishResponse) :
    Moved world attempt publish point (world.finish attempt result) :=
  .stopped result rfl rfl

theorem moved_abort (error : ApiErr) :
    Moved world attempt publish point (world.abort attempt error) :=
  .stopped (.error error) rfl rfl

theorem moved_unless {stops : Prop} [Decidable stops] {stopped : PublishWorld I}
    {rest : Option (PublishWorld I)} (stopping : Moved world attempt publish point stopped)
    (stepped : (if stops then some stopped else rest) = some next)
    (further : rest = some next → Moved world attempt publish point next) :
    Moved world attempt publish point next := by
  split at stepped
  · obtain rfl := Option.some.inj stepped
    exact stopping
  · exact further stepped

theorem moved_existing {existing : Version I} {error : ApiErr} (later : PublishPoint I)
    (same : pointPhase later = pointPhase point)
    (stepped : (if legacyVersionMatches existing publish = true then
        some (world.goto attempt (.running publish later))
      else some (world.finish attempt (.error error))) = some next) :
    Moved world attempt publish point next := by
  split at stepped
  · obtain rfl := Option.some.inj stepped
    exact .within later same rfl rfl
  · obtain rfl := Option.some.inj stepped
    exact moved_finish _

theorem moved_adopt {phase : PublishPhase I}
    (ending : ∀ middle : PublishWorld I, middle.phases = world.phases →
      middle.authors = world.authors →
      Moved world attempt publish point (middle.goto attempt phase)) :
    Moved world attempt publish point (adoptStep world attempt publish answer phase) := by
  unfold adoptStep
  split
  · exact moved_finish _
  · cases machinePublishInput publish with
    | error error => exact moved_finish _
    | ok input =>
        cases answer.adopted with
        | ok _ => exact ending (world.logAdoption publish input) rfl rfl
        | error error => exact .stopped (.error (mapOrmError error)) rfl rfl

theorem advance_moved (stepped : advance world attempt publish answer point = some next) :
    Moved world attempt publish point next := by
  cases point with
  | findPackage =>
      refine moved_unless (moved_finish _) stepped ?_
      intro stepped
      split at stepped
      · rename_i package found
        obtain rfl := Option.some.inj stepped
        exact .within (.findVersion package) rfl rfl rfl
      · obtain rfl := Option.some.inj stepped
        exact .within .putBlob rfl rfl rfl
  | findVersion package =>
      refine moved_unless (moved_finish _) stepped ?_
      intro stepped
      split at stepped
      · obtain rfl := Option.some.inj stepped
        exact .within .putBlob rfl rfl rfl
      · exact moved_existing .adoptRetry rfl stepped
  | adoptRetry =>
      obtain rfl := Option.some.inj stepped
      refine moved_adopt fun middle phases authors => ?_
      exact .stopped _ (by rw [← phases]; rfl) authors
  | putBlob =>
      simp only [advance] at stepped
      split at stepped
      · obtain rfl := Option.some.inj stepped
        exact .stopped _ rfl rfl
      · obtain rfl := Option.some.inj stepped
        exact .uploaded _ rfl rfl
  | putAliases keys =>
      cases keys with
      | nil =>
          obtain rfl := Option.some.inj stepped
          exact .within .beginTxn rfl rfl rfl
      | cons key rest =>
          simp only [advance] at stepped
          split at stepped
          · obtain rfl := Option.some.inj stepped
            exact .within .beginTxn rfl rfl rfl
          · obtain rfl := Option.some.inj stepped
            exact .within (.putAliases rest) rfl rfl rfl
  | beginTxn =>
      refine moved_unless (moved_finish _) stepped ?_
      intro stepped
      obtain rfl := Option.some.inj stepped
      exact .within .upsert rfl rfl rfl
  | upsert =>
      refine moved_unless (moved_abort _) stepped ?_
      intro stepped
      split at stepped
      · contradiction
      · obtain rfl := Option.some.inj stepped
        exact .within .readBack rfl rfl rfl
  | readBack =>
      refine moved_unless (moved_abort _) stepped ?_
      intro stepped
      split at stepped
      · obtain rfl := Option.some.inj stepped
        exact moved_abort _
      · rename_i row seen
        obtain rfl := Option.some.inj stepped
        exact .within (.bump row) rfl rfl rfl
  | bump package =>
      refine moved_unless (moved_abort _) stepped ?_
      intro stepped
      split at stepped
      · obtain rfl := Option.some.inj stepped
        exact moved_abort _
      · obtain rfl := Option.some.inj stepped
        exact .within (.insertVersion package) rfl rfl rfl
  | insertVersion package =>
      refine moved_unless (moved_abort _) stepped ?_
      intro stepped
      split at stepped
      · contradiction
      · split at stepped
        · rename_i row seen
          obtain rfl := Option.some.inj stepped
          exact .lost package row seen rfl rfl
        · obtain rfl := Option.some.inj stepped
          exact .within (.commit package) rfl rfl rfl
  | commit package =>
      simp only [advance] at stepped
      split at stepped
      · obtain rfl := Option.some.inj stepped
        exact .landed package (.running publish .adoptPublished) rfl rfl
      · split at stepped
        · obtain rfl := Option.some.inj stepped
          exact .landed package (.finished (.error .database)) (by simp [Counts]) trivial
        · obtain rfl := Option.some.inj stepped
          exact moved_abort _
  | findWinner package =>
      refine moved_unless (moved_finish _) stepped ?_
      intro stepped
      split at stepped
      · exact moved_existing .adoptWinner rfl stepped
      · obtain rfl := Option.some.inj stepped
        exact moved_finish _
  | adoptWinner =>
      obtain rfl := Option.some.inj stepped
      refine moved_adopt fun middle phases authors => ?_
      exact .stopped _ (by rw [← phases]; rfl) authors
  | adoptPublished =>
      obtain rfl := Option.some.inj stepped
      refine moved_adopt fun middle phases authors => ?_
      exact .within .audit rfl (by rw [← phases]; rfl) authors
  | audit =>
      obtain rfl := Option.some.inj stepped
      exact .stopped _ rfl rfl

end Moves

/-! ## What the model keeps standing for -/

section Shadow

variable {race : Race I} {world next : PublishWorld I} {s later : State} {attempt : Nat}
  {phase : PublishPhase I}

theorem landed_congr (authors : next.authors = world.authors) (other : Nat) :
    Landed next other ↔ Landed world other := by
  unfold Landed
  rw [authors]

theorem landings_congr {other : Nat} (same : Landed next other ↔ Landed world other) :
    landings next other = landings world other := by
  unfold landings
  by_cases done : Landed world other
  · rw [if_pos done, if_pos (same.mpr done)]
  · rw [if_neg done, if_neg (mt same.mp done)]

theorem authors_land_self (world : PublishWorld I) (attempt : Nat) (publish : Publish I)
    (package : Package I) (phase : PublishPhase I) :
    ((world.land attempt publish package).goto attempt phase).authors (package.id, publish.ver) =
      some (attempt, publish) :=
  Function.update_self _ _ _

theorem authors_land_of_ne {publish : Publish I} {package : Package I} {key : VersionKey}
    (differs : key ≠ (package.id, publish.ver)) :
    ((world.land attempt publish package).goto attempt phase).authors key =
      world.authors key :=
  Function.update_of_ne differs _ _

/-- A commit makes its own attempt landed and no other. -/
theorem landed_land {publish : Publish I} {package : Package I}
    (fresh : world.authors (package.id, publish.ver) = none) {other : Nat}
    (differs : other ≠ attempt) :
    Landed ((world.land attempt publish package).goto attempt phase) other ↔
      Landed world other := by
  constructor
  · rintro ⟨key, author, known⟩
    have place : key ≠ (package.id, publish.ver) := by
      rintro rfl
      rw [authors_land_self] at known
      exact differs (Prod.mk.inj (Option.some.inj known)).1.symm
    exact ⟨key, author, (authors_land_of_ne place).symm.trans known⟩
  · rintro ⟨key, author, known⟩
    have place : key ≠ (package.id, publish.ver) := by
      rintro rfl
      rw [fresh] at known
      contradiction
    exact ⟨key, author, (authors_land_of_ne place).trans known⟩

/-- A phase that an attempt enters: a publish it runs is the race's own, or of another version. -/
def Named (race : Race I) (attempt : Nat) (phase : PublishPhase I) : Prop :=
  ∀ publish point, phase = .running publish point →
    (∀ who, race.attempt who = attempt → publish = race.publish who) ∧
      (race.Names publish → ∃ who, race.attempt who = attempt)

theorem Follows.goto (follows : Follows race world s)
    (phases : next.phases = Function.update world.phases attempt (some phase))
    (named : Named race attempt phase) (digestB : later.digestB = s.digestB)
    (grows : s.blobs ⊆ later.blobs)
    (others : ∀ who, race.attempt who ≠ attempt → later.attempt who = s.attempt who)
    (landed : ∀ other, other ≠ attempt → Landed next other → Landed world other)
    (own : ∀ who, race.attempt who = attempt → Counts (some phase) (later.attempt who) ∧
      (later.attempt who = .uploaded → s.digest who ∈ later.blobs) ∧
      (later.attempt who ≠ .finished → ¬Landed next attempt)) :
    Follows race next later where
  phase who := by
    rw [phases]
    by_cases mine : race.attempt who = attempt
    · rw [mine, Function.update_self]
      exact (own who mine).1
    · rw [Function.update_of_ne mine, others who mine]
      exact follows.phase who
  runs who publish point running := by
    rw [phases] at running
    by_cases mine : race.attempt who = attempt
    · rw [mine, Function.update_self] at running
      exact (named publish point (Option.some.inj running)).1 who mine
    · rw [Function.update_of_ne mine] at running
      exact follows.runs who publish point running
  others other publish point running names := by
    rw [phases] at running
    by_cases mine : other = attempt
    · rw [mine, Function.update_self] at running
      rw [mine]
      exact (named publish point (Option.some.inj running)).2 names
    · rw [Function.update_of_ne mine] at running
      exact follows.others other publish point running names
  uploaded who here := by
    rw [PackagePublication.State.digest_congr digestB]
    by_cases mine : race.attempt who = attempt
    · exact (own who mine).2.1 here
    · rw [others who mine] at here
      exact grows (follows.uploaded who here)
  unlanded who unfinished := by
    by_cases mine : race.attempt who = attempt
    · rw [mine]
      exact (own who mine).2.2 unfinished
    · rw [others who mine] at unfinished
      exact fun done => follows.unlanded who unfinished (landed _ mine done)

/-- What is recorded survives a step that commits nothing. -/
theorem Records.mono (records : Records race world s) (authors : next.authors = world.authors)
    (digestB : later.digestB = s.digestB)
    (stored : ∀ digest ∈ later.blobs, ∃ who, s.digest who = digest ∧
      Stored next (race.publish who))
    (committed : later.committedDigest = s.committedDigest)
    (count : later.commitCount = s.commitCount) : Records race next later where
  digest who := by
    rw [PackagePublication.State.digest_congr digestB]
    exact records.digest who
  stored digest member := by
    obtain ⟨who, same, held⟩ := stored digest member
    exact ⟨who, (PackagePublication.State.digest_congr digestB who).trans same, held⟩
  authored := by
    rw [authors, committed]
    exact records.authored
  free := by
    rw [authors, committed]
    exact records.free
  landed := by
    rw [count, landings_congr (landed_congr authors _), landings_congr (landed_congr authors _)]
    exact records.landed

theorem Records.kept (records : Records race world s) (keeps : Keeps world next) (digest : Int)
    (member : digest ∈ s.blobs) :
    ∃ who, s.digest who = digest ∧ Stored next (race.publish who) := by
  obtain ⟨who, same, held⟩ := records.stored digest member
  exact ⟨who, same, held.mono keeps⟩

/-- The model has nothing to do for a step that leaves the attempt's phase as it counts. -/
theorem Shadows.stutter (shadows : Shadows race world s) (keeps : Keeps world next)
    (authors : next.authors = world.authors)
    (phases : next.phases = Function.update world.phases attempt (some phase))
    (named : Named race attempt phase)
    (counts : ∀ who, race.attempt who = attempt → Counts (some phase) (s.attempt who)) :
    Shadows race next s where
  follows := by
    refine shadows.follows.goto phases named rfl (fun _ member => member) (fun _ _ => rfl)
      (fun other _ => (landed_congr authors other).mp) ?_
    intro who mine
    refine ⟨counts who mine, shadows.follows.uploaded who, fun unfinished done => ?_⟩
    exact shadows.follows.unlanded who unfinished
      (mine ▸ (landed_congr authors attempt).mp done)
  records := shadows.records.mono authors rfl (shadows.records.kept keeps) rfl rfl

/-- The step ends an attempt that the model has uploaded. -/
theorem Shadows.settle {who : Requester} (shadows : Shadows race world s)
    (keeps : Keeps world next) (authors : next.authors = world.authors)
    (phases : next.phases = Function.update world.phases (race.attempt who) (some phase))
    (named : Named race (race.attempt who) phase) (decided : Counts (some phase) .finished)
    (settles : PackagePublication.Settles who s later) : Shadows race next later where
  follows := by
    refine shadows.follows.goto phases named settles.digestB settles.blobs.symm.subset ?_
      (fun other _ => (landed_congr authors other).mp) ?_
    · exact fun other differs => settles.other other fun same => differs (congrArg _ same)
    · intro other mine
      obtain rfl := Race.attempt_injective mine
      rw [settles.own]
      exact ⟨decided, fun uploaded => by contradiction, fun unfinished => absurd rfl unfinished⟩
  records := shadows.records.mono authors settles.digestB
    (settles.blobs.symm ▸ shadows.records.kept keeps) settles.committedDigest settles.commitCount

theorem Shadows.upload {who : Requester} (shadows : Shadows race world s)
    (keeps : Keeps world next) (authors : next.authors = world.authors)
    (phases : next.phases = Function.update world.phases (race.attempt who) (some phase))
    (named : Named race (race.attempt who) phase) (here : s.attempt who = .idle)
    (counts : Counts (some phase) .uploaded) (held : Stored next (race.publish who)) :
    Shadows race next
      { s.enter .uploaded who with blobs := insert (s.digest who) s.blobs } where
  follows := by
    refine shadows.follows.goto phases named (s.enter_digestB _ _)
      (Finset.subset_insert _ _) ?_ (fun other _ => (landed_congr authors other).mp) ?_
    · exact fun other differs => s.attempt_enter_of_ne _ _ fun same => differs (congrArg _ same)
    · intro other mine
      obtain rfl := Race.attempt_injective mine
      refine ⟨?_, fun _ => Finset.mem_insert_self _ _, fun _ done => ?_⟩
      · exact (s.attempt_enter .uploaded other).symm ▸ counts
      · refine shadows.follows.unlanded other ?_ ((landed_congr authors _).mp done)
        rw [here]
        exact fun same => by contradiction
  records := by
    refine shadows.records.mono authors (s.enter_digestB _ _) ?_ (s.enter_committedDigest _ _)
      (s.enter_commitCount _ _)
    intro digest member
    rcases Finset.mem_insert.mp member with rfl | older
    · exact ⟨who, rfl, held⟩
    · exact shadows.records.kept keeps digest older

end Shadow

/-! ## Commits -/

section Commits

variable {race : Race I} {world next : PublishWorld I} {s : State} {attempt : Nat}
  {publish author : Publish I} {phase : PublishPhase I}

/-- The committed row of the version that the two race for. -/
def Race.Row (race : Race I) (world : PublishWorld I) (row : Version I) : Prop :=
  ∃ package, world.packages.committed (race.publish .a).packageKey = some package ∧
    world.versions.committed (package.id, (race.publish .a).ver) = some row

/-- A version of the race that has an author is committed with the author's digest. -/
theorem row_of_author (tables : TablesHold world) {key : VersionKey}
    (known : world.authors key = some (attempt, author)) (names : race.Names author) :
    ∃ row, race.Row world row ∧ row.sha256 = author.actualSha := by
  obtain ⟨row, found, recorded⟩ := tables.recorded_of_author known
  obtain ⟨package, committed, same⟩ := recorded.package
  obtain ⟨_, _, built⟩ := recorded.row
  refine ⟨row, ⟨package, names.1 ▸ committed, ?_⟩, built ▸ rfl⟩
  rw [same, ← names.2, ← recorded.version]
  exact found

/-- The committed row of the race's version is that of an author of the race. -/
theorem author_of_row (tables : TablesHold world) {row : Version I}
    (committed : race.Row world row) : ∃ key attempt author,
      world.authors key = some (attempt, author) ∧ race.Names author ∧
        row.sha256 = author.actualSha := by
  obtain ⟨package, found, version⟩ := committed
  obtain ⟨attempt, author, recorded⟩ := tables.recorded _ row version
  obtain ⟨own, found', same⟩ := recorded.package
  obtain ⟨_, _, built⟩ := recorded.row
  refine ⟨_, attempt, author, recorded.author, ⟨?_, recorded.version.symm⟩, built ▸ rfl⟩
  have issued := tables.packageIds _ own found'
  rw [same, tables.packageIds _ package found] at issued
  exact (Option.some.inj issued).symm

/-- A publish that finds its version in its own transaction has lost to an author. -/
theorem author_of_view (invariant : PublishInvariant world) {package : Package I}
    {row : Version I} (running : world.phases attempt =
      some (.running publish (.insertVersion package)))
    (names : race.Names publish)
    (seen : world.versions.view attempt (package.id, publish.ver) = some row) :
    ∃ key attempt author, world.authors key = some (attempt, author) ∧ race.Names author := by
  obtain ⟨-, -, locks, none'⟩ := invariant.running running
  rw [RowTable.view_of_not_held fun other => none' _ other] at seen
  obtain ⟨owner, author, recorded⟩ := invariant.tables.recorded _ row seen
  obtain ⟨own, found, same⟩ := recorded.package
  obtain ⟨held, pending, heldId⟩ := locks.locked
  refine ⟨_, owner, author, recorded.author, ?_, recorded.version.symm.trans names.2⟩
  have issued := invariant.tables.packageIds _ own found
  rw [same, ← heldId, (invariant.tables.pendingIds _ _ held pending).1] at issued
  exact (Option.some.inj issued).symm.trans names.1

/-- Nobody is the author of the version that a publish is about to commit. -/
theorem unauthored_of_committing (invariant : PublishInvariant world) {package : Package I}
    (running : world.phases attempt = some (.running publish (.commit package)))
    (names : race.Names publish) (key : VersionKey) (owner : Nat)
    (known : world.authors key = some (owner, author)) : ¬race.Names author := by
  intro named
  obtain ⟨row, ⟨committed, found, version⟩, -⟩ := row_of_author invariant.tables known named
  refine not_published_of_committing invariant (invariant.running running).2
    ⟨committed, row, ?_, ?_⟩
  · exact names.1 ▸ found
  · exact names.2 ▸ version

theorem committing_fresh (invariant : PublishInvariant world) {package : Package I}
    (running : world.phases attempt = some (.running publish (.commit package))) :
    world.authors (package.id, publish.ver) = none :=
  ((invariant.running running).2.2.2.unauthored invariant.tables).2

/-- A commit of another version is none of the model's business. -/
theorem Shadows.beside_landing (shadows : Shadows race world s) {package : Package I}
    (invariant : PublishInvariant world)
    (running : world.phases attempt = some (.running publish (.commit package)))
    (keeps : Keeps world ((world.land attempt publish package).goto attempt phase))
    (named : Named race attempt phase) (apart : ∀ who, race.attempt who ≠ attempt)
    (unnamed : ¬race.Names publish) :
    Shadows race ((world.land attempt publish package).goto attempt phase) s where
  follows :=
    have fresh := committing_fresh invariant running
    shadows.follows.goto rfl named rfl (fun _ member => member) (fun _ _ => rfl)
      (fun _ differs => (landed_land fresh differs).mp) fun who mine => absurd mine (apart who)
  records :=
    { digest := shadows.records.digest
      stored := shadows.records.kept keeps
      authored := by
        intro key owner author known names
        have place : key ≠ (package.id, publish.ver) := by
          rintro rfl
          rw [authors_land_self] at known
          exact unnamed ((Prod.mk.inj (Option.some.inj known)).2 ▸ names)
        exact shadows.records.authored key owner author
          ((authors_land_of_ne place).symm.trans known) names
      free := by
        intro none'
        refine shadows.records.free fun key owner author known => ?_
        exact none' key owner author (keeps.authors key _ known)
      landed := by
        have fresh := committing_fresh invariant running
        rw [landings_congr (landed_land fresh (apart .a)),
          landings_congr (landed_land fresh (apart .b))]
        exact shadows.records.landed }

theorem Shadows.finalize {who : Requester} (shadows : Shadows race world s) {package : Package I}
    (invariant : PublishInvariant world)
    (running : world.phases (race.attempt who) =
      some (.running (race.publish who) (.commit package)))
    (keeps : Keeps world
      ((world.land (race.attempt who) (race.publish who) package).goto (race.attempt who) phase))
    (named : Named race (race.attempt who) phase) (here : s.attempt who = .uploaded)
    (decided : Counts (some phase) .finished) :
    Shadows race
      ((world.land (race.attempt who) (race.publish who) package).goto (race.attempt who) phase)
      { s.enter .finished who with
        committedDigest := s.digest who
        advertisedDigest := s.digest who
        metadataDigest := s.digest who
        commitCount := s.commitCount + 1 } where
  follows := by
    have fresh := committing_fresh invariant running
    refine shadows.follows.goto rfl named (s.enter_digestB _ _) (s.enter_blobs _ _).symm.subset
      ?_ (fun _ differs => (landed_land fresh differs).mp) ?_
    · exact fun other differs => s.attempt_enter_of_ne _ _ fun same => differs (congrArg _ same)
    · intro other mine
      obtain rfl := Race.attempt_injective mine
      have own : (s.enter .finished other).attempt other = .finished := s.attempt_enter _ _
      refine ⟨own.symm ▸ decided, fun uploaded => ?_, fun unfinished => absurd own unfinished⟩
      exact absurd (own.symm.trans uploaded) (by decide)
  records :=
    { digest := fun other => (PackagePublication.State.digest_congr (s.enter_digestB _ _)
        other).trans (shadows.records.digest other)
      stored := by
        intro digest member
        obtain ⟨other, same, held⟩ :=
          shadows.records.kept keeps digest ((s.enter_blobs .finished who) ▸ member)
        exact ⟨other, (PackagePublication.State.digest_congr (s.enter_digestB _ _)
          other).trans same, held⟩
      authored := by
        intro key owner author known names
        by_cases place : key = (package.id, (race.publish who).ver)
        · rw [place, authors_land_self] at known
          rw [← (Prod.mk.inj (Option.some.inj known)).2]
          exact shadows.records.digest who
        · exact absurd names (unauthored_of_committing invariant running
            (Race.names_publish who) key owner ((authors_land_of_ne place).symm.trans known))
      free := by
        intro none'
        exact absurd (Race.names_publish who) (none' (package.id, (race.publish who).ver)
          (race.attempt who) (race.publish who) (authors_land_self _ _ _ _ _))
      landed := by
        have fresh := committing_fresh invariant running
        have before : landings world (race.attempt who) = 0 :=
          if_neg (shadows.follows.unlanded who (by rw [here]; decide))
        have after : landings ((world.land (race.attempt who) (race.publish who) package).goto
            (race.attempt who) phase) (race.attempt who) = 1 :=
          if_pos ⟨_, _, authors_land_self _ _ _ _ _⟩
        have count := shadows.records.landed
        cases who with
        | a =>
            rw [after, landings_congr (landed_land fresh race.distinct.symm)]
            simp only
            omega
        | b =>
            rw [after, landings_congr (landed_land fresh race.distinct)]
            simp only
            omega }

end Commits

/-! ## Every step -/

section Steps

variable {race : Race I} {world next : PublishWorld I} {s : State} {attempt : Nat}
  {publish : Publish I} {point : PublishPoint I}

/-- A run of the model leads to a state that stands for the registry's. -/
def Answered (race : Race I) (s : State) (next : PublishWorld I) : Prop :=
  ∃ actions later, exec PackagePublication.step s actions = some later ∧ Shadows race next later

theorem Shadows.answered (shadows : Shadows race next s) : Answered race s next :=
  ⟨[], s, rfl, shadows⟩

theorem Shadows.answered_by {action : Action} {later : State}
    (stepped : PackagePublication.step s action = some later)
    (shadows : Shadows race next later) : Answered race s next :=
  ⟨[action], later, exec_singleton stepped, shadows⟩

theorem named_of_ended {phase : PublishPhase I}
    (ended : ∀ publish point, phase ≠ .running publish point) : Named race attempt phase :=
  fun publish point same => absurd same (ended publish point)

/-- The race's own attempt stays with its publish. -/
theorem named_own {who : Requester} {phase : PublishPhase I}
    (same : PhaseOf (race.publish who) phase) : Named race (race.attempt who) phase := by
  rintro publish point rfl
  obtain rfl : publish = race.publish who := same
  exact ⟨fun other mine => by rw [Race.attempt_injective mine], fun _ => ⟨who, rfl⟩⟩

/-- So does an attempt at another version. -/
theorem named_apart {phase : PublishPhase I} (apart : ∀ who, race.attempt who ≠ attempt)
    (unnamed : ¬race.Names publish) (same : PhaseOf publish phase) :
    Named race attempt phase := by
  rintro other point rfl
  obtain rfl : other = publish := same
  exact ⟨fun who mine => absurd mine (apart who), fun names => absurd names unnamed⟩

/-- An attempt of the race that is stopped crashes or aborts where it has uploaded. -/
theorem stopped_answered {who : Requester} {phase : PublishPhase I}
    (shadows : Shadows race world s) (keeps : Keeps world next)
    (authors : next.authors = world.authors)
    (phases : next.phases = Function.update world.phases (race.attempt who) (some phase))
    (ended : ∀ publish point, phase ≠ .running publish point)
    (decided : ∀ own, own ≠ .uploaded → Counts (some phase) own) : Answered race s next := by
  by_cases here : s.attempt who = .uploaded
  · obtain ⟨later, stepped, settles⟩ := PackagePublication.step_fail here
    exact (shadows.settle keeps authors phases (named_of_ended ended) (decided _ (by decide))
      settles).answered_by stepped
  · refine (shadows.stutter keeps authors phases (named_of_ended ended) ?_).answered
    intro other mine
    obtain rfl := Race.attempt_injective mine
    exact decided _ here

/-- A step of an attempt of the race. -/
theorem own_answered {who : Requester} (invariant : PublishInvariant world)
    (shadows : Shadows race world s)
    (running : world.phases (race.attempt who) = some (.running (race.publish who) point))
    (later : PublishInvariant next) (keeps : Keeps world next)
    (moved : Moved world (race.attempt who) (race.publish who) point next) :
    Answered race s next := by
  have here : s.attempt who = pointPhase point := by
    have counts := shadows.follows.phase who
    rw [running] at counts
    exact counts
  cases moved with
  | within after same phases authors =>
      refine (shadows.stutter keeps authors phases (named_own rfl) ?_).answered
      intro other mine
      obtain rfl := Race.attempt_injective mine
      exact here.trans same.symm
  | stopped result phases authors =>
      exact stopped_answered shadows keeps authors phases (fun _ _ same => by contradiction)
        fun _ differs => differs
  | uploaded keys phases authors =>
      have entered : next.phases (race.attempt who) =
          some (.running (race.publish who) (.putAliases keys)) := by
        rw [phases, Function.update_self]
      exact (shadows.upload keeps authors phases (named_own rfl) here rfl
        (later.running entered).2.2.1).answered_by (PackagePublication.step_upload here)
  | lost package row seen phases authors =>
      obtain ⟨key, owner, author, known, names⟩ :=
        author_of_view invariant running (Race.names_publish who) seen
      have taken : s.committedDigest ≠ noDigest := by
        rw [shadows.records.authored key owner author known names]
        exact Race.digest_ne _
      obtain ⟨after, stepped, settles⟩ := PackagePublication.step_conflict here taken
      exact (shadows.settle keeps authors phases (named_own rfl) rfl settles).answered_by stepped
  | landed package phase decided same =>
      have free := shadows.records.free fun key owner author known =>
        unauthored_of_committing invariant running (Race.names_publish who) key owner known
      exact (shadows.finalize invariant running keeps (named_own same) here decided).answered_by
        (PackagePublication.step_finalize here free (shadows.follows.uploaded who here))

/-- A step of an attempt that publishes something else. -/
theorem apart_answered (invariant : PublishInvariant world) (shadows : Shadows race world s)
    (running : world.phases attempt = some (.running publish point))
    (apart : ∀ who, race.attempt who ≠ attempt) (keeps : Keeps world next)
    (moved : Moved world attempt publish point next) : Answered race s next := by
  have unnamed : ¬race.Names publish := fun names => by
    obtain ⟨who, mine⟩ := shadows.follows.others attempt publish point running names
    exact apart who mine
  have named := fun phase => @named_apart I race attempt publish phase apart unnamed
  cases moved with
  | within after same phases authors =>
      exact (shadows.stutter keeps authors phases (named _ rfl)
        fun who mine => absurd mine (apart who)).answered
  | stopped result phases authors =>
      exact (shadows.stutter keeps authors phases (named _ trivial)
        fun who mine => absurd mine (apart who)).answered
  | uploaded keys phases authors =>
      exact (shadows.stutter keeps authors phases (named _ rfl)
        fun who mine => absurd mine (apart who)).answered
  | lost package row seen phases authors =>
      exact (shadows.stutter keeps authors phases (named _ rfl)
        fun who mine => absurd mine (apart who)).answered
  | landed package phase decided same =>
      exact (shadows.beside_landing invariant running keeps (named _ same) apart
        unnamed).answered

/-- An event that is no attempt's step. -/
theorem Shadows.beside (shadows : Shadows race world s) (keeps : Keeps world next)
    (phases : next.phases = world.phases) (authors : next.authors = world.authors) :
    Shadows race next s where
  follows :=
    { phase := phases ▸ shadows.follows.phase
      runs := phases ▸ shadows.follows.runs
      others := phases ▸ shadows.follows.others
      uploaded := shadows.follows.uploaded
      unlanded := fun who unfinished done =>
        shadows.follows.unlanded who unfinished ((landed_congr authors _).mp done) }
  records := shadows.records.mono authors rfl (shadows.records.kept keeps) rfl rfl

theorem Shadows.begin (shadows : Shadows race world s) (phase : PublishPhase I)
    (unused : world.phases attempt = none) (named : Named race attempt phase)
    (begins : Counts (some phase) .idle) : Shadows race (world.goto attempt phase) s := by
  refine shadows.stutter (keeps_goto world attempt phase) rfl rfl named ?_
  rintro who rfl
  have counts := shadows.follows.phase who
  rw [unused] at counts
  exact (show s.attempt who = .idle from counts) ▸ begins

theorem publishStep_answered {event : PublishEvent I} (invariant : PublishInvariant world)
    (admits : race.Admits world event) (shadows : Shadows race world s)
    (stepped : publishStep world event = some next) : Answered race s next := by
  obtain ⟨later, keeps⟩ := publishStep_preserves invariant stepped
  cases publishStep_some stepped with
  | refused attempt answers request error unused =>
      have begun := shadows.begin (.finished (.error error)) unused
        (named_of_ended fun _ _ same => by contradiction) (by simp [Counts])
      exact ⟨[.rejectUnauthorized], _, rfl, ⟨⟨begun.follows.phase, begun.follows.runs,
        begun.follows.others, begun.follows.uploaded, begun.follows.unlanded⟩,
        ⟨begun.records.digest, begun.records.stored, begun.records.authored,
          begun.records.free, begun.records.landed⟩⟩⟩
  | admitted attempt answers request publish unused accepted =>
      refine (shadows.begin (.running publish .findPackage) unused ?_ rfl).answered
      rintro other point same
      obtain ⟨rfl, -⟩ := PublishPhase.running.inj same
      exact admits publish accepted
  | advanced attempt answer publish point _ running moved =>
      by_cases mine : ∃ who, race.attempt who = attempt
      · obtain ⟨who, rfl⟩ := mine
        obtain rfl := shadows.follows.runs who publish point running
        exact own_answered invariant shadows running later keeps (advance_moved moved)
      · exact apart_answered invariant shadows running (fun who same => mine ⟨who, same⟩) keeps
          (advance_moved moved)
  | crashed attempt publish point running =>
      by_cases mine : ∃ who, race.attempt who = attempt
      · obtain ⟨who, rfl⟩ := mine
        exact stopped_answered shadows keeps rfl rfl (fun _ _ same => by contradiction)
          fun _ differs => differs
      · exact (shadows.stutter keeps rfl rfl
          (named_of_ended fun _ _ same => by contradiction)
          fun who same => absurd ⟨who, same⟩ mine).answered
  | claimed | yanked | indexed => exact (shadows.beside keeps rfl rfl).answered

theorem simulates (race : Race I) : Simulates publishStep PackagePublication.step race.Admits
    PublishInvariant (Shadows race) where
  preserved _ _ _ invariant stepped := (publishStep_preserves invariant stepped).1
  matched _ _ _ _ invariant admits shadows stepped :=
    publishStep_answered invariant admits shadows stepped

end Steps

/-! ## Every run -/

/-- What a state of the model says of the registry. -/
structure Refines (race : Race I) (world : PublishWorld I) (s : State) : Prop where
  phase : ∀ who, Counts (world.phases (race.attempt who)) (s.attempt who)
  digest : ∀ who, s.digest who = race.digest (race.publish who).actualSha
  stored : ∀ digest ∈ s.blobs, ∃ who, s.digest who = digest ∧ Stored world (race.publish who)
  committed : ∀ row, race.Row world row → s.committedDigest = race.digest row.sha256
  uncommitted : (∀ row, ¬race.Row world row) → s.committedDigest = noDigest
  landed : s.commitCount =
    landings world (race.attempt .a) + landings world (race.attempt .b)

theorem Shadows.refines {race : Race I} {world : PublishWorld I} {s : State}
    (invariant : PublishInvariant world) (shadows : Shadows race world s) :
    Refines race world s where
  phase := shadows.follows.phase
  digest := shadows.records.digest
  stored := shadows.records.stored
  committed row found := by
    obtain ⟨key, attempt, author, known, names, same⟩ := author_of_row invariant.tables found
    rw [same]
    exact shadows.records.authored key attempt author known names
  uncommitted none' := shadows.records.free fun key attempt author known names => by
    obtain ⟨row, found, -⟩ := row_of_author invariant.tables known names
    exact none' row found
  landed := shadows.records.landed

theorem initial_shadows (race : Race I) (backend : Backend) (registryWrite : Bool) :
    Shadows race (PublishWorld.initial I backend registryWrite)
      (PackagePublication.initial (race.digest (race.publish .b).actualSha)) where
  follows :=
    { phase := fun who => by cases who <;> rfl
      runs := fun who publish point running => by contradiction
      others := fun attempt publish point running => by contradiction
      uploaded := fun who here => by cases who <;> contradiction
      unlanded := by
        rintro who - ⟨key, publish, known⟩
        contradiction }
  records :=
    { digest := by
        intro who
        cases who with
        | a => exact (if_pos rfl).symm
        | b => rfl
      stored := fun digest member => absurd member (Finset.notMem_empty digest)
      authored := fun key attempt author known => by contradiction
      free := fun _ => rfl
      landed := by
        have none' : ∀ attempt, landings (PublishWorld.initial I backend registryWrite)
            attempt = 0 := by
          intro attempt
          refine if_neg ?_
          rintro ⟨key, publish, known⟩
          contradiction
        rw [none', none']
        rfl }

/-- At most one of two attempts commits in a state that a safe state stands for. -/
theorem Refines.one_lands {race : Race I} {world : PublishWorld I} {s : State}
    (refines : Refines race world s) (safe : PublicationSafety s) :
    ¬(Landed world (race.attempt .a) ∧ Landed world (race.attempt .b)) := by
  rintro ⟨first, second⟩
  have count := refines.landed
  have one : landings world (race.attempt .a) = 1 := if_pos first
  have other : landings world (race.attempt .b) = 1 := if_pos second
  rcases safe.singleWinner with ⟨none', -⟩ | ⟨single, -⟩ <;> omega

/-- An attempt of the race arrives with its publish. -/
theorem admits_arrive {race : Race I} {world : PublishWorld I} {answers : PublishAnswers}
    {request : PublishRequest} (who : Requester)
    (accepted : admitPublish I world.orgId answers request = .ok (race.publish who)) :
    race.Admits world (.arrive (race.attempt who) answers request) := by
  intro publish admitted
  rw [accepted] at admitted
  obtain rfl := Except.ok.inj admitted
  exact ⟨fun other mine => by rw [Race.attempt_injective mine], fun _ => ⟨who, rfl⟩⟩

namespace PublishSample

/-- The registry once `acme` is claimed. -/
def claimed : PublishWorld interfaces := { start with orgs := [acme] }

/-- Attempt 1 stores `bravo` before attempt 0 publishes `alpha` to the end. -/
def racing : List (PublishEvent interfaces) :=
  .claimOrg acme :: arrive 0 "alpha" "alpha" alpha_small ::
    arrive 1 "bravo" "bravo" bravo_small ::
      (advances 1 2 "p1" ++ (advances 0 13 "p0" ++ advances 1 7 "p1"))

theorem admitted_alpha : ∃ publish, admitPublish interfaces claimed.orgId answers
    (request [metaField "alpha", artifactField "alpha" alpha_small]) = .ok publish := by
  have accepted : (admitPublish interfaces claimed.orgId answers (request
      [metaField "alpha", artifactField "alpha" alpha_small])).toOption.isSome = true := by
    decide +kernel
  obtain ⟨publish, found⟩ := Option.isSome_iff_exists.mp accepted
  exact ⟨publish, toOption_ok found⟩

theorem admitted_bravo : ∃ publish, admitPublish interfaces claimed.orgId answers
    (request [metaField "bravo", artifactField "bravo" bravo_small]) = .ok publish := by
  have accepted : (admitPublish interfaces claimed.orgId answers (request
      [metaField "bravo", artifactField "bravo" bravo_small])).toOption.isSome = true := by
    decide +kernel
  obtain ⟨publish, found⟩ := Option.isSome_iff_exists.mp accepted
  exact ⟨publish, toOption_ok found⟩

/-- Both admitted publishes are of `acme/http-kit@1.2.0`. -/
theorem admitted_named {fields : List MultipartField} {publish : Publish interfaces}
    (admitted : admitPublish interfaces claimed.orgId answers (request fields) = .ok publish) :
    publish.packageKey = (acme.id, "http-kit") ∧ publish.ver = "1.2.0" := by
  obtain ⟨found, slug, name, ver⟩ := admitPublish_ok interfaces admitted
  have acmeId : claimed.orgId "acme" = some acme.id := by decide +kernel
  have same : publish.org.id = acme.id := by
    rw [slug] at found
    exact Option.some.inj (found.symm.trans acmeId)
  exact ⟨Prod.ext same name, ver⟩

end PublishSample

end ZedRegistry
