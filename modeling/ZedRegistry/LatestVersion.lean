import Mathlib.Data.List.Dedup
import ZedRegistry.Lib.DescendingSort
import ZedRegistry.PackageViews
import ZedRegistry.PublishSteps

/-!
# One latest version

Over every run of publishes and yanks, what package, list and search report as the latest
version of a package is the greatest of its versions that are not yanked.
-/

set_option autoImplicit false

namespace ZedRegistry.PackageViews

open DescendingSort Execution

variable {I : Interfaces}

/-! ## Rows carry their keys -/

/-- The unique index of the package table is over the row's own columns. -/
def PackageKeyed (key : PackageKey) (row : Package I) : Prop := key = (row.orgId, row.name)

theorem upsertedPackage_keyed {existing : Option (Package I)} {key : PackageKey}
    (keyed : ∀ row, existing = some row → PackageKeyed key row) {id orgId : Uuid} {name : String}
    (same : key = (orgId, name)) {manifest : ManifestPackage} {now : DateTimeUtc} :
    PackageKeyed key (upsertedPackage I existing id orgId name manifest now) := by
  cases existing with
  | none => exact same
  | some row => exact keyed row rfl

theorem indexedPackage_keyed {key : PackageKey} {row : Package I} (keyed : PackageKeyed key row)
    (document : SignedIndex I.Mirror) (encoded : I.Value) :
    PackageKeyed key (indexedPackage I row document encoded) := by
  have orgId : (indexedPackage I row document encoded).orgId = row.orgId := by
    unfold indexedPackage
    exact rfl
  have name : (indexedPackage I row document encoded).name = row.name := by
    unfold indexedPackage
    exact rfl
  rw [PackageKeyed, orgId, name]
  exact keyed

theorem bumpedPackage_keyed {key : PackageKey} {row : Package I} (keyed : PackageKeyed key row)
    (next : Int) (fits : FitsI64 next) : PackageKeyed key (bumpedPackage I row next fits) := by
  unfold PackageKeyed bumpedPackage at *
  exact keyed

theorem effect_keyed {world next : PublishWorld I} {attempt : Nat} {publish : Publish I}
    {point : PublishPoint I} (effect : PublishEffect world attempt publish point next)
    (every : world.packages.Every PackageKeyed) : next.packages.Every PackageKeyed := by
  cases effect with
  | quiet | put key answer named | adopt input built adopting | record call => exact every
  | insert package id free absent => exact every
  | rollback => exact every.rollback attempt
  | land package committing => exact every.commit attempt
  | upsert id clock free unused =>
      exact every.write (upsertedPackage_keyed (fun row seen => every.view seen) rfl)
  | bump package row following fits bumping seen =>
      exact every.write (bumpedPackage_keyed (every.view seen) following fits)

/-- What a step does to the two tables. -/
inductive RowStep (world next : PublishWorld I) : Prop
  | keep (packages : next.packages = world.packages) (versions : next.versions = world.versions)
  | effect (attempt : Nat) (publish : Publish I) (point : PublishPoint I)
      (middle : PublishWorld I) (effect : PublishEffect world attempt publish point middle)
      (packages : next.packages = middle.packages) (versions : next.versions = middle.versions)
  | yank (key : VersionKey) (row : Version I) (yanked : Bool)
      (found : world.versions.committed key = some row)
      (packages : next.packages = world.packages)
      (versions : next.versions = world.versions.autocommit key (yankedVersion row yanked))
  | index (key : PackageKey) (row : Package I) (document : SignedIndex I.Mirror)
      (encoded : I.Value) (found : world.packages.committed key = some row)
      (packages : next.packages =
        world.packages.autocommit key (indexedPackage I row document encoded))
      (versions : next.versions = world.versions)

theorem publishStep_rows {world next : PublishWorld I} {event : PublishEvent I}
    (invariant : PublishInvariant world) (stepped : publishStep world event = some next) :
    RowStep world next := by
  cases publishStep_some stepped with
  | refused | admitted | claimed => exact .keep rfl rfl
  | advanced attempt answer publish point _ running moved =>
      obtain ⟨middle, phase, effect, rfl, -, -⟩ := invariant.stepsTo running moved
      exact .effect attempt publish point middle effect rfl rfl
  | crashed attempt publish point running =>
      exact .effect attempt publish point _ .rollback rfl rfl
  | yanked key yanked row free found => exact .yank key row yanked found rfl rfl
  | indexed key document encoded row free found =>
      exact .index key row document encoded found rfl rfl

theorem RowStep.keyed {world next : PublishWorld I} (rows : RowStep world next)
    (every : world.packages.Every PackageKeyed) : next.packages.Every PackageKeyed := by
  cases rows with
  | keep packages versions => exact packages ▸ every
  | effect attempt publish point middle effect packages versions =>
      exact packages ▸ effect_keyed effect every
  | yank key row yanked found packages versions => exact packages ▸ every
  | index key row document encoded found packages versions =>
      rw [packages]
      exact every.autocommit (indexedPackage_keyed (every.committed key row found) _ _)

/-- All version rows, committed or not, are under these keys. -/
def Covered (keys : List VersionKey) (world : PublishWorld I) : Prop :=
  world.versions.Every fun key _ => key ∈ keys

theorem effect_covered {world next : PublishWorld I} {attempt : Nat} {publish : Publish I}
    {point : PublishPoint I} (effect : PublishEffect world attempt publish point next)
    {keys : List VersionKey} (covered : Covered keys world) : ∃ keys, Covered keys next := by
  cases effect with
  | quiet | put key answer named | adopt input built adopting | record call =>
      exact ⟨keys, covered⟩
  | upsert id clock free unused => exact ⟨keys, covered⟩
  | bump package row following fits bumping seen => exact ⟨keys, covered⟩
  | rollback => exact ⟨keys, covered.rollback attempt⟩
  | land package committing => exact ⟨keys, covered.commit attempt⟩
  | insert package id free absent =>
      refine ⟨(package.id, publish.ver) :: keys, RowTable.Every.write ?_ List.mem_cons_self⟩
      exact
        { committed := fun key row found => List.mem_cons_of_mem _ (covered.committed key row found)
          pending := fun key txn row held =>
            List.mem_cons_of_mem _ (covered.pending key txn row held) }

theorem RowStep.covered {world next : PublishWorld I} (rows : RowStep world next)
    {keys : List VersionKey} (covered : Covered keys world) : ∃ keys, Covered keys next := by
  unfold Covered at *
  cases rows with
  | keep packages versions => exact ⟨keys, versions ▸ covered⟩
  | effect attempt publish point middle effect packages versions =>
      exact versions ▸ effect_covered effect covered
  | yank key row yanked found packages versions =>
      exact ⟨keys, versions ▸ RowTable.Every.autocommit covered (covered.committed key row found)⟩
  | index key row document encoded found packages versions => exact ⟨keys, versions ▸ covered⟩

/-- What the runs keep of the rows and their keys. -/
structure RowsHold (world : PublishWorld I) : Prop where
  invariant : PublishInvariant world
  keyed : world.packages.Every PackageKeyed
  covered : ∃ keys, Covered keys world

theorem run_rows {backend : Backend} {registryWrite : Bool} {events : List (PublishEvent I)}
    {world : PublishWorld I}
    (run : exec publishStep (.initial I backend registryWrite) events = some world) :
    RowsHold world := by
  refine exec_invariant publishStep ?_ ⟨initial_invariant backend registryWrite,
    RowTable.every_empty, [], RowTable.every_empty⟩ run
  intro state event next holds stepped
  have rows := publishStep_rows holds.invariant stepped
  obtain ⟨keys, covered⟩ := holds.covered
  exact ⟨(publishStep_preserves holds.invariant stepped).1, rows.keyed holds.keyed,
    rows.covered covered⟩

/-! ## What the database answers -/

/-- The rows of a package, each once and in any order. -/
structure ReturnsVersions (world : PublishWorld I) (packageId : Uuid) (rows : List (Version I)) :
    Prop where
  nodup : rows.Nodup
  mem_iff : ∀ row, row ∈ rows ↔
    row.packageId = packageId ∧ ∃ key, world.versions.committed key = some row

/-- A package row joined with its org row. -/
def Joined (world : PublishWorld I) (entry : Package I × Option Org) : Prop :=
  (∃ key, world.packages.committed key = some entry.1) ∧
    ∀ org, entry.2 = some org → org ∈ world.orgs ∧ org.id = entry.1.orgId

/-- Whatever a query returns without an error is what the tables hold. -/
structure Reads (world : PublishWorld I) (queries : Queries I) : Prop where
  org : ∀ slug org, queries.findOrg slug = .ok (some org) → org ∈ world.orgs ∧ org.slug = slug
  package : ∀ orgId name found, queries.findPackage orgId name = .ok found →
    found = world.packages.committed (orgId, name)
  versions : ∀ packageId rows, queries.versionsOf packageId = .ok rows →
    ReturnsVersions world packageId rows
  newest : ∀ limit offset rows, queries.newestPackages limit offset = .ok rows →
    ∀ entry ∈ rows, Joined world entry
  like : ∀ pattern rows, queries.packagesLike pattern = .ok rows →
    ∀ entry ∈ rows, Joined world entry

/-- The versions of a package that are not yanked. -/
def Visible (world : PublishWorld I) (packageId : Uuid) (version : String) : Prop :=
  ∃ row, world.versions.committed (packageId, version) = some row ∧ row.yanked = false

theorem row_key {world : PublishWorld I} (invariant : PublishInvariant world) {key : VersionKey}
    {row : Version I} (found : world.versions.committed key = some row) :
    key = (row.packageId, row.version) := by
  obtain ⟨attempt, publish, recorded⟩ := invariant.tables.recorded key row found
  obtain ⟨id, yanked, rfl⟩ := recorded.row
  exact Prod.ext rfl recorded.version

/-- The database can answer: the rows of a package are finitely many. -/
theorem returnsVersions_exists {world : PublishWorld I} (holds : RowsHold world)
    (packageId : Uuid) : ∃ rows, ReturnsVersions world packageId rows := by
  obtain ⟨keys, covered⟩ := holds.covered
  refine ⟨(keys.dedup.filterMap world.versions.committed).filter
    fun row => row.packageId = packageId, ?_, ?_⟩
  · refine (List.Nodup.filterMap ?_ (List.nodup_dedup keys)).filter _
    intro key key' row found found'
    rw [row_key holds.invariant found, row_key holds.invariant found']
  · intro row
    simp only [List.mem_filter, List.mem_filterMap, List.mem_dedup, decide_eq_true_eq]
    constructor
    · rintro ⟨⟨key, -, found⟩, same⟩
      exact ⟨same, key, found⟩
    · rintro ⟨same, key, found⟩
      exact ⟨⟨key, covered.committed key row found, found⟩, same⟩

/-- Restricted to visible rows, an answer has one row for every visible version. -/
theorem visible_rows {world : PublishWorld I} (invariant : PublishInvariant world)
    {packageId : Uuid} {rows : List (Version I)}
    (returns : ReturnsVersions world packageId rows) :
    ((rows.filter fun row => !row.yanked).map Version.version).Nodup ∧
      ∀ version, version ∈ (rows.filter fun row => !row.yanked).map Version.version ↔
        Visible world packageId version := by
  constructor
  · refine List.Nodup.map_on ?_ (returns.nodup.filter _)
    intro left leftMember right rightMember same
    obtain ⟨leftPackage, leftKey, leftFound⟩ :=
      (returns.mem_iff left).mp (List.mem_of_mem_filter leftMember)
    obtain ⟨rightPackage, rightKey, rightFound⟩ :=
      (returns.mem_iff right).mp (List.mem_of_mem_filter rightMember)
    have keys : leftKey = rightKey := by
      rw [row_key invariant leftFound, row_key invariant rightFound, leftPackage, rightPackage,
        same]
    rw [keys, rightFound] at leftFound
    exact (Option.some.inj leftFound).symm
  · intro version
    simp only [List.mem_map, List.mem_filter, Bool.not_eq_true', Visible]
    constructor
    · rintro ⟨row, ⟨member, visible⟩, rfl⟩
      obtain ⟨rfl, key, found⟩ := (returns.mem_iff row).mp member
      rw [row_key invariant found] at found
      exact ⟨row, found, visible⟩
    · rintro ⟨row, found, visible⟩
      have keyed := Prod.mk.inj (row_key invariant found)
      exact ⟨row, ⟨(returns.mem_iff row).mpr ⟨keyed.1.symm, _, found⟩, visible⟩, keyed.2.symm⟩

section Order

variable {le : String → String → Prop}

theorem visibleVersionsDesc_lists (sorts : SortsDescending le I.sortVersionsDesc)
    {world : PublishWorld I} (invariant : PublishInvariant world) {packageId : Uuid}
    {rows : List (Version I)} (returns : ReturnsVersions world packageId rows) :
    ListsDescending le (Visible world packageId) (visibleVersionsDesc I rows) := by
  obtain ⟨nodup, members⟩ := visible_rows invariant returns
  exact sorts.lists nodup members

/-- Two answers with the same visible versions give the same list. -/
theorem visibleVersionsDesc_eq (sorts : SortsDescending le I.sortVersionsDesc)
    {world other : PublishWorld I} (invariant : PublishInvariant world)
    (invariant' : PublishInvariant other) {packageId otherId : Uuid}
    {rows others : List (Version I)} (returns : ReturnsVersions world packageId rows)
    (returns' : ReturnsVersions other otherId others)
    (same : ∀ version, Visible world packageId version ↔ Visible other otherId version) :
    visibleVersionsDesc I rows = visibleVersionsDesc I others := by
  obtain ⟨nodup, members⟩ := visible_rows invariant returns
  obtain ⟨nodup', members'⟩ := visible_rows invariant' returns'
  refine sorts.sort_congr ((List.perm_ext_iff_of_nodup nodup nodup').mpr fun version => ?_)
  rw [members, members', same]

end Order

/-! ## Answers of the routes -/

theorem findOrg_ok {queries : Queries I} {slug : String} {org : Org}
    (found : findOrg queries slug = .ok org) : queries.findOrg slug = .ok (some org) := by
  obtain ⟨answer, read, rest⟩ := bind_ok.mp found
  cases answer with
  | none => cases rest
  | some other =>
      cases rest
      exact read

theorem findPackage_ok {queries : Queries I} {org : Org} {name : String} {package : Package I}
    (found : findPackage queries org name = .ok package) :
    queries.findPackage org.id name = .ok (some package) := by
  obtain ⟨answer, read, rest⟩ := bind_ok.mp found
  cases answer with
  | none => cases rest
  | some other =>
      cases rest
      exact read

theorem getPackage_ok {readers : ColumnReaders I} {queries : Queries I} {slug name : String}
    {metadata : PackageMetadata readers}
    (answered : getPackage readers queries slug name = .ok metadata) :
    ∃ org package rows, queries.findOrg slug = .ok (some org) ∧
      queries.findPackage org.id name = .ok (some package) ∧
      queries.versionsOf package.id = .ok rows ∧
      metadata.versions = visibleVersionsDesc I rows ∧
      metadata.latest = latestVisibleVersion I rows := by
  obtain ⟨org, orgFound, rest⟩ := bind_ok.mp answered
  obtain ⟨package, packageFound, rest⟩ := bind_ok.mp rest
  obtain ⟨rows, read, rest⟩ := bind_ok.mp rest
  cases rest
  exact ⟨org, package, rows, findOrg_ok orgFound, findPackage_ok packageFound, read, rfl, rfl⟩

theorem mem_summaries {readers : ColumnReaders I} {queries : Queries I}
    {entries : List (Package I × Option Org)} {items : List PackageSummary}
    (answered : summaries readers queries entries = .ok items) {item : PackageSummary}
    (member : item ∈ items) :
    ∃ package org rows, (package, some org) ∈ entries ∧
      queries.versionsOf package.id = .ok rows ∧ item.org = org.slug ∧
      item.name = package.name ∧ item.latest = latestVisibleVersion I rows := by
  induction entries generalizing items with
  | nil =>
      cases answered
      exact absurd member List.not_mem_nil
  | cons entry entries ih =>
      obtain ⟨package, org⟩ := entry
      cases org with
      | none =>
          obtain ⟨package', org', rows, listed, rest⟩ := ih answered member
          exact ⟨package', org', rows, List.mem_cons_of_mem _ listed, rest⟩
      | some org =>
          obtain ⟨rows, read, rest⟩ := bind_ok.mp answered
          obtain ⟨later, more, rest⟩ := bind_ok.mp rest
          cases rest
          rcases List.mem_cons.mp member with rfl | further
          · exact ⟨package, org, rows, List.mem_cons_self, read, rfl, rfl, rfl⟩
          · obtain ⟨package', org', rows', listed, rest⟩ := ih more further
            exact ⟨package', org', rows', List.mem_cons_of_mem _ listed, rest⟩

theorem listPackages_ok {readers : ColumnReaders I} {queries : Queries I} {params : ListParams}
    {response : PackageListResponse}
    (answered : listPackages readers queries params = .ok response) :
    ∃ limit offset rows entries, queries.newestPackages limit offset = .ok rows ∧
      entries ⊆ rows ∧ summaries readers queries entries = .ok response.items := by
  simp only [listPackages] at answered
  split at answered
  · obtain ⟨total, -, rest⟩ := bind_ok.mp answered
    obtain ⟨rows, read, rest⟩ := bind_ok.mp rest
    obtain ⟨items, summed, rest⟩ := bind_ok.mp rest
    cases rest
    exact ⟨_, _, rows, rows, read, List.Subset.refl rows, summed⟩
  · obtain ⟨rows, read, rest⟩ := bind_ok.mp answered
    obtain ⟨items, summed, rest⟩ := bind_ok.mp rest
    cases rest
    refine ⟨_, _, rows, _, read, ?_, summed⟩
    exact fun entry member => List.mem_of_mem_filter
      (List.mem_of_mem_drop (List.mem_of_mem_take member))

theorem search_ok {readers : ColumnReaders I} {queries : Queries I} {params : SearchParams}
    {response : SearchResponse} (answered : search readers queries params = .ok response) :
    ∃ pattern rows entries, queries.packagesLike pattern = .ok rows ∧ entries ⊆ rows ∧
      summaries readers queries entries = .ok response.items := by
  obtain ⟨rows, read, rest⟩ := bind_ok.mp answered
  obtain ⟨items, summed, rest⟩ := bind_ok.mp rest
  cases rest
  exact ⟨_, rows, _, read, fun _ member => List.mem_of_mem_filter member, summed⟩

/-! ## The answers agree -/

theorem item_package {world : PublishWorld I} (invariant : PublishInvariant world)
    (every : world.packages.Every PackageKeyed) {queries queries' : Queries I}
    (reads : Reads world queries) (reads' : Reads world queries') {slug name : String} {org : Org}
    {package : Package I} (orgRead : queries.findOrg slug = .ok (some org))
    (packageRead : queries.findPackage org.id name = .ok (some package))
    {entries : List (Package I × Option Org)} (joined : ∀ entry ∈ entries, Joined world entry)
    {readers : ColumnReaders I} {items : List PackageSummary}
    (answered : summaries readers queries' entries = .ok items) {item : PackageSummary}
    (member : item ∈ items) (itemOrg : item.org = slug) (itemName : item.name = name) :
    ∃ rows, ReturnsVersions world package.id rows ∧
      item.latest = latestVisibleVersion I rows := by
  obtain ⟨other, otherOrg, rows, listed, read, org', name', latest⟩ := mem_summaries answered member
  obtain ⟨⟨key, found⟩, owner⟩ := joined _ listed
  obtain ⟨known', ownerId⟩ := owner otherOrg rfl
  obtain ⟨known, slugged⟩ := reads.org slug org orgRead
  -- one org has the slug, and one package of that org has the name
  have sameOrg : otherOrg = org :=
    invariant.tables.orgs otherOrg known' org known (.inl (by rw [← org', itemOrg, slugged]))
  have keyed : key = (org.id, name) := by
    rw [every.committed key other found, ← ownerId, sameOrg, ← name', itemName]
  have samePackage : other = package := by
    have stored := reads.package org.id name _ packageRead
    rw [← keyed, found] at stored
    exact (Option.some.inj stored).symm
  exact ⟨rows, samePackage ▸ reads'.versions other.id rows read, latest⟩

/-- The package endpoint answers `metadata` for `package` at the end of some run. -/
structure Serves (readers : ColumnReaders I) (world : PublishWorld I) (package : Package I)
    (metadata : PackageMetadata readers) : Prop where
  run : ∃ backend registryWrite events,
    exec publishStep (.initial I backend registryWrite) events = some world
  answered : ∃ queries org name, Reads world queries ∧ org ∈ world.orgs ∧
    world.packages.committed (org.id, name) = some package ∧
    getPackage readers queries org.slug name = .ok metadata

theorem Serves.answer {readers : ColumnReaders I} {world : PublishWorld I} {package : Package I}
    {metadata : PackageMetadata readers} (served : Serves readers world package metadata) :
    PublishInvariant world ∧ ∃ rows, ReturnsVersions world package.id rows ∧
      metadata.versions = visibleVersionsDesc I rows ∧
      metadata.latest = latestVisibleVersion I rows := by
  obtain ⟨backend, registryWrite, events, run⟩ := served.run
  obtain ⟨queries, org, name, reads, known, stored, answered⟩ := served.answered
  have invariant := (run_rows run).invariant
  obtain ⟨org', package', rows, orgRead, packageRead, rowsRead, versions, latest⟩ :=
    getPackage_ok answered
  obtain ⟨known', slugged⟩ := reads.org org.slug org' orgRead
  have sameOrg := invariant.tables.orgs org' known' org known (.inl slugged)
  have samePackage : package' = package := by
    have found := reads.package org'.id name _ packageRead
    rw [sameOrg, stored] at found
    exact Option.some.inj found
  exact ⟨invariant, rows, samePackage ▸ reads.versions package'.id rows rowsRead, versions, latest⟩

section Order

variable {le : String → String → Prop}

theorem latest_none_iff {world : PublishWorld I} {packageId : Uuid} {latest : Option String}
    (greatest : IsGreatest le (Visible world packageId) latest) :
    latest = none ↔ ∀ version row, world.versions.committed (packageId, version) = some row →
      row.yanked = true := by
  constructor
  · rintro rfl version row found
    by_contra shown
    exact greatest version ⟨row, found, Bool.eq_false_iff.mpr shown⟩
  · intro hidden
    cases latest with
    | none => rfl
    | some version =>
        obtain ⟨row, found, shown⟩ := greatest.1
        rw [hidden version row found] at shown
        cases shown

/-- Whatever the order of the rows, of the publishes and of their times. -/
theorem one_latest_version_everywhere (sorts : SortsDescending le I.sortVersionsDesc)
    {backend : Backend} {registryWrite : Bool} {events : List (PublishEvent I)}
    {world : PublishWorld I}
    (run : exec publishStep (.initial I backend registryWrite) events = some world)
    {readers : ColumnReaders I} {queries : Queries I} (reads : Reads world queries)
    {slug name : String} {metadata : PackageMetadata readers}
    (answered : getPackage readers queries slug name = .ok metadata) :
    ∃ org package, org ∈ world.orgs ∧ org.slug = slug ∧
      world.packages.committed (org.id, name) = some package ∧
      IsGreatest le (Visible world package.id) metadata.latest ∧
      (metadata.latest = none ↔
        ∀ version row, world.versions.committed (package.id, version) = some row →
          row.yanked = true) ∧
      ListsDescending le (Visible world package.id) metadata.versions ∧
      (∀ queries', Reads world queries' → ∀ params response,
        listPackages readers queries' params = .ok response →
        ∀ item ∈ response.items, item.org = slug → item.name = name →
          item.latest = metadata.latest) ∧
      (∀ queries', Reads world queries' → ∀ params response,
        search readers queries' params = .ok response →
        ∀ item ∈ response.items, item.org = slug → item.name = name →
          item.latest = metadata.latest) ∧
      ∀ world' package' metadata', Serves readers world' package' metadata' →
        (∀ version, Visible world package.id version ↔ Visible world' package'.id version) →
        metadata'.latest = metadata.latest ∧ metadata'.versions = metadata.versions := by
  obtain ⟨invariant, every, -⟩ := run_rows run
  obtain ⟨org, package, rows, orgRead, packageRead, rowsRead, versions, latest⟩ :=
    getPackage_ok answered
  have returns := reads.versions package.id rows rowsRead
  have listed := visibleVersionsDesc_lists sorts invariant returns
  obtain ⟨known, slugged⟩ := reads.org slug org orgRead
  have stored := (reads.package org.id name _ packageRead).symm
  have greatest : IsGreatest le (Visible world package.id) metadata.latest :=
    latest ▸ listed.head_greatest sorts.refl
  have agrees : ∀ {rows'}, ReturnsVersions world package.id rows' →
      latestVisibleVersion I rows' = metadata.latest := by
    intro rows' returns'
    rw [latest, latestVisibleVersion, latestVisibleVersion,
      visibleVersionsDesc_eq sorts invariant invariant returns' returns fun _ => Iff.rfl]
  refine ⟨org, package, known, slugged, stored, greatest, latest_none_iff greatest,
    versions ▸ listed, ?_, ?_, ?_⟩
  · intro queries' reads' params response summed item member itemOrg itemName
    obtain ⟨limit, offset, found, entries, read, subset, summed⟩ := listPackages_ok summed
    obtain ⟨rows', returns', same⟩ := item_package invariant every reads reads' orgRead packageRead
      (fun entry inside => reads'.newest limit offset found read entry (subset inside)) summed
      member itemOrg itemName
    rw [same, agrees returns']
  · intro queries' reads' params response summed item member itemOrg itemName
    obtain ⟨pattern, found, entries, read, subset, summed⟩ := search_ok summed
    obtain ⟨rows', returns', same⟩ := item_package invariant every reads reads' orgRead packageRead
      (fun entry inside => reads'.like pattern found read entry (subset inside)) summed
      member itemOrg itemName
    rw [same, agrees returns']
  · intro world' package' metadata' served same
    obtain ⟨invariant', rows', returns', versions', latest'⟩ := served.answer
    have lists := visibleVersionsDesc_eq sorts invariant invariant' returns returns' same
    refine ⟨?_, by rw [versions', versions, lists]⟩
    rw [latest', latest, latestVisibleVersion, latestVisibleVersion, lists]

end Order

/-! ## A sample package -/

/-- Some database answers every query after a run. -/
theorem queries_exist {world : PublishWorld I} (holds : RowsHold world) :
    ∃ queries : Queries I, Reads world queries ∧
      (∀ org ∈ world.orgs, queries.findOrg org.slug = .ok (some org)) ∧
      (∀ orgId name, queries.findPackage orgId name =
        .ok (world.packages.committed (orgId, name))) ∧
      ∀ packageId, ∃ rows, queries.versionsOf packageId = .ok rows := by
  choose rowsOf returns using returnsVersions_exists holds
  refine ⟨⟨fun slug => .ok (world.orgs.find? fun org => org.slug = slug),
    fun orgId name => .ok (world.packages.committed (orgId, name)),
    fun packageId => .ok (rowsOf packageId), fun _ => .ok [], .ok 0, fun _ _ => .ok [],
    fun _ => .ok []⟩, ?_, ?_, fun _ _ => rfl, fun packageId => ⟨rowsOf packageId, rfl⟩⟩
  · constructor
    · intro slug org found
      have first := Except.ok.inj found
      exact ⟨List.mem_of_find?_eq_some first, by simpa using List.find?_some first⟩
    · intro orgId name found read
      exact (Except.ok.inj read).symm
    · intro packageId rows read
      exact Except.ok.inj read ▸ returns packageId
    · intro limit offset rows read entry member
      rw [← Except.ok.inj read] at member
      cases member
    · intro pattern rows read entry member
      rw [← Except.ok.inj read] at member
      cases member
  · intro org known
    cases found : world.orgs.find? (fun other => other.slug = org.slug) with
    | none => exact absurd (List.find?_eq_none.mp found org known) (by simp)
    | some other =>
        have named : other.slug = org.slug := by simpa using List.find?_some found
        have same := holds.invariant.tables.orgs other (List.mem_of_find?_eq_some found) org known
          (.inl named)
        exact congrArg Except.ok (found.trans (congrArg some same))

theorem getPackage_answers {readers : ColumnReaders I} {queries : Queries I} {org : Org}
    {package : Package I} {rows : List (Version I)} {name : String}
    (orgRead : queries.findOrg org.slug = .ok (some org))
    (packageRead : queries.findPackage org.id name = .ok (some package))
    (rowsRead : queries.versionsOf package.id = .ok rows) :
    ∃ metadata, getPackage readers queries org.slug name = .ok metadata := by
  have orgFound : findOrg queries org.slug = .ok org := by
    simp only [findOrg, orgRead]
    rfl
  have packageFound : findPackage queries org name = .ok package := by
    simp only [findPackage, packageRead]
    rfl
  exact ⟨_, bind_ok.mpr ⟨org, orgFound, bind_ok.mpr ⟨package, packageFound,
    bind_ok.mpr ⟨rows, rowsRead, rfl⟩⟩⟩⟩

namespace Sample

def readers : ColumnReaders PublishSample.interfaces where
  Vcs := String
  VersionScheme := String
  parseVcs text := if text = "git" then some text else none
  defaultVcs := "git"
  versionScheme text := text
  asArray
    | .strings values => some (values.map fun value => .strings [value])
    | _ => none
  asStr
    | .strings [value] => some value
    | _ => none

theorem sorts : SortsDescending (fun left right : String => left ≤ right)
    PublishSample.interfaces.sortVersionsDesc where
  antisymm _ _ := String.le_antisymm
  trans _ _ _ := String.le_trans
  total := String.le_total
  perm values := List.perm_insertionSort _ values
  sorted values := List.pairwise_insertionSort _ values

/-- The release of `acme/http-kit@1.2.0`, yanked and restored. -/
def restored : List (PublishEvent PublishSample.interfaces) :=
  PublishSample.firstRelease ++ [.yank (⟨"p0"⟩, "1.2.0") true, .yank (⟨"p0"⟩, "1.2.0") false]

end Sample

theorem one_latest_version_everywhere_sample :
    ∃ (final : PublishWorld PublishSample.interfaces) (queries : Queries PublishSample.interfaces)
      (metadata : PackageMetadata Sample.readers),
      exec publishStep PublishSample.start Sample.restored = some final ∧ Reads final queries ∧
        getPackage Sample.readers queries "acme" "http-kit" = .ok metadata ∧
        metadata.latest ≠ none := by
  have seen : ((exec publishStep PublishSample.start Sample.restored).bind fun final =>
      if final.orgs = [acme] ∧ (final.packages.committed (sampleOrg, "http-kit")).map Package.id =
          some ⟨"p0"⟩ then
        (final.versions.committed (⟨"p0"⟩, "1.2.0")).map Version.yanked
      else none) = some false := by
    decide +kernel
  obtain ⟨final, run, seen⟩ := Option.bind_eq_some_iff.mp seen
  split at seen
  · rename_i rows
    obtain ⟨version, versionFound, shown⟩ := Option.map_eq_some_iff.mp seen
    obtain ⟨package, packageFound, packageId⟩ := Option.map_eq_some_iff.mp rows.2
    obtain ⟨queries, reads, orgs, packages, versions⟩ := queries_exist (run_rows run)
    obtain ⟨found, rowsRead⟩ := versions package.id
    have known : acme ∈ final.orgs := rows.1 ▸ List.mem_singleton_self acme
    have packageRead := packages acme.id "http-kit"
    have stored : final.packages.committed (acme.id, "http-kit") = some package := packageFound
    rw [stored] at packageRead
    have answers : ∃ metadata : PackageMetadata Sample.readers,
        getPackage Sample.readers queries "acme" "http-kit" = .ok metadata :=
      getPackage_answers (orgs acme known) packageRead rowsRead
    obtain ⟨metadata, answered⟩ := answers
    have serves := one_latest_version_everywhere Sample.sorts run reads answered
    refine ⟨final, queries, metadata, run, reads, answered, fun missing => ?_⟩
    obtain ⟨org, other, known', slugged, stored', greatest, latest, rest⟩ := serves
    have sameOrg : org = acme := by
      rw [rows.1] at known'
      exact List.mem_singleton.mp known'
    rw [sameOrg, stored] at stored'
    have hidden := latest.mp missing "1.2.0" version
    rw [← Option.some.inj stored', packageId] at hidden
    rw [hidden versionFound] at shown
    cases shown
  · exact absurd seen nofun

end ZedRegistry.PackageViews
