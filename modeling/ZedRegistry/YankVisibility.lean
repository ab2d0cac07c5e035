import ZedRegistry.YankRequests

/-!
# Yanked versions

What the routes make of the flag that yank requests leave: a yanked version is
named by no listing, and is downloaded as before.
-/

set_option autoImplicit false

namespace ZedRegistry.YankRequests

open Execution PackageViews DescendingSort

variable {I : Interfaces} {le : String → String → Prop}

/-- The versions a listing is made of are those whose last update did not yank them. -/
theorem visible_iff_lastFlag {world : YankWorld I} (ledger : Ledger world) {packageId : Uuid}
    {ver : String} {row : Version I}
    (found : world.registry.versions.committed (packageId, ver) = some row) :
    Visible world.registry packageId ver ↔ lastFlag world.writes (packageId, ver) = false := by
  have flag := ledger.flags.committed _ _ found
  constructor
  · rintro ⟨other, found', shown⟩
    rw [found] at found'
    obtain rfl := Option.some.inj found'
    exact flag.symm.trans shown
  · intro shown
    exact ⟨row, found, flag.trans shown⟩

theorem latest_visible (sorts : SortsDescending le I.sortVersionsDesc) {world : PublishWorld I}
    (invariant : PublishInvariant world) {packageId : Uuid} {rows : List (Version I)}
    (returns : ReturnsVersions world packageId rows) {ver : String}
    (latest : latestVisibleVersion I rows = some ver) : Visible world packageId ver := by
  have greatest := (visibleVersionsDesc_lists sorts invariant returns).head_greatest sorts.refl
  rw [latestVisibleVersion] at latest
  rw [latest] at greatest
  exact greatest.1

theorem orgId_mem_slug {world : PublishWorld I} {slug : String} {id : Uuid}
    (known : world.orgId slug = some id) : ∃ org ∈ world.orgs, org.slug = slug ∧ org.id = id := by
  obtain ⟨org, found, own⟩ := Option.map_eq_some_iff.mp known
  exact ⟨org, List.mem_of_find?_eq_some found, by simpa using List.find?_some found, own⟩

/-- The package a listing answers for is the one the version route read. -/
theorem getPackage_same {world : PublishWorld I} (invariant : PublishInvariant world)
    {readers : ColumnReaders I} {queries : Queries I} (reads : Reads world queries)
    {slug name : String} {metadata : PackageMetadata readers}
    (answered : getPackage readers queries slug name = .ok metadata) {orgId : Uuid}
    {package : Package I} (known : world.orgId slug = some orgId)
    (named : world.packages.committed (orgId, name) = some package) :
    ∃ org rows, queries.findOrg slug = .ok (some org) ∧
      queries.findPackage org.id name = .ok (some package) ∧
      ReturnsVersions world package.id rows ∧ metadata.versions = visibleVersionsDesc I rows ∧
      metadata.latest = latestVisibleVersion I rows := by
  obtain ⟨org, package', rows, orgRead, packageRead, rowsRead, versions, latest⟩ :=
    getPackage_ok answered
  obtain ⟨listed, slugged⟩ := reads.org slug org orgRead
  obtain ⟨org', listed', slugged', rfl⟩ := orgId_mem_slug known
  have sameOrg := invariant.tables.orgs org listed org' listed' (.inl (slugged.trans slugged'.symm))
  have samePackage : package' = package := by
    have found := reads.package org.id name _ packageRead
    rw [sameOrg, named] at found
    exact Option.some.inj found
  subst samePackage
  exact ⟨org, rows, orgRead, packageRead, reads.versions package'.id rows rowsRead, versions,
    latest⟩

end ZedRegistry.YankRequests
