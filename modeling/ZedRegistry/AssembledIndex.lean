import ZedRegistry.LatestVersion
import ZedRegistry.SignedIndex

/-!
# The assembled index

The index that `get_signed_index` puts together for a package without a stored document lists
every version once, in the version order, with its yank flag of that moment; its versions
that are not yanked are those of the package endpoint.
-/

set_option autoImplicit false

namespace ZedRegistry.AssembledIndex

open DescendingSort Execution PackageViews

variable {I : Interfaces}

/-! ## Positions -/

theorem indexPosition_getElem {ordered : List String} (nodup : ordered.Nodup) {place : Nat}
    (within : place < ordered.length) : indexPosition ordered ordered[place] = place := by
  have found : ordered.findIdx? (fun candidate => candidate = ordered[place]) = some place := by
    rw [List.findIdx?_eq_some_iff_getElem]
    refine ⟨within, decide_eq_true rfl, ?_⟩
    intro other before same
    have equal := nodup.getElem_inj_iff.mp (of_decide_eq_true same)
    omega
  unfold indexPosition
  rw [found]
  rfl

theorem indexPosition_increasing {ordered : List String} (nodup : ordered.Nodup) :
    ordered.Pairwise fun left right =>
      indexPosition ordered left < indexPosition ordered right := by
  rw [List.pairwise_iff_getElem]
  intro first second firstWithin secondWithin before
  rw [indexPosition_getElem nodup firstWithin, indexPosition_getElem nodup secondWithin]
  exact before

/-! ## The entries of an index -/

/-- The entries as `get_signed_index` sorts them. -/
def indexEntries (rows : List (Version I)) : List IndexVersion :=
  (rows.map fun row => IndexVersion.mk row.version row.yanked).insertionSort fun left right =>
    indexPosition (I.sortVersionsDesc (rows.map Version.version)) left.version ≤
      indexPosition (I.sortVersionsDesc (rows.map Version.version)) right.version

theorem getSignedIndex_assembled {pkg : Package I} (unsigned : storedIndex I pkg = none)
    (orgSlug name : String) (rows : List (Version I)) :
    getSignedIndex I orgSlug name pkg rows =
      ⟨I.signedIndexSchema, ⟨orgSlug, name, (max pkg.indexSequence 1).toNat, indexEntries rows,
        ((newestVersion I rows).bind fun row => I.mirrorsFromValue row.mirrors).getD []⟩, []⟩ := by
  unfold getSignedIndex
  rw [unsigned]
  rfl

theorem versions_getSignedIndex {pkg : Package I} (unsigned : storedIndex I pkg = none)
    (orgSlug name : String) (rows : List (Version I)) :
    (getSignedIndex I orgSlug name pkg rows).payload.versions = indexEntries rows := by
  rw [getSignedIndex_assembled unsigned]

theorem indexEntries_perm (rows : List (Version I)) :
    (indexEntries rows).Perm (rows.map fun row => IndexVersion.mk row.version row.yanked) :=
  List.perm_insertionSort _ _

variable {le : String → String → Prop}

/-- The versions stand in the version order. -/
theorem indexEntries_versions (sorts : SortsDescending le I.sortVersionsDesc)
    {rows : List (Version I)} (nodup : (rows.map Version.version).Nodup) :
    (indexEntries rows).map IndexVersion.version =
      I.sortVersionsDesc (rows.map Version.version) := by
  have spelled : ((rows.map fun row => IndexVersion.mk row.version row.yanked).map
      IndexVersion.version) = rows.map Version.version := by
    rw [List.map_map]
    rfl
  have perm : ((indexEntries rows).map IndexVersion.version).Perm
      (I.sortVersionsDesc (rows.map Version.version)) := by
    have entries := (indexEntries_perm rows).map IndexVersion.version
    rw [spelled] at entries
    exact entries.trans (sorts.perm _).symm
  have forward : ((indexEntries rows).map IndexVersion.version).Pairwise fun left right =>
      indexPosition (I.sortVersionsDesc (rows.map Version.version)) left ≤
        indexPosition (I.sortVersionsDesc (rows.map Version.version)) right := by
    rw [List.pairwise_map]
    exact List.pairwise_insertionSort _ _
  exact eq_of_positions perm
    (indexPosition_increasing ((sorts.perm _).nodup_iff.mpr nodup)) forward

/-- Without the yanked ones, they are the versions of the package endpoint. -/
theorem indexEntries_visible (sorts : SortsDescending le I.sortVersionsDesc)
    {rows : List (Version I)} (nodup : (rows.map Version.version).Nodup) :
    ((indexEntries rows).filter fun entry => !entry.yanked).map IndexVersion.version =
      visibleVersionsDesc I rows := by
  have perm : (((indexEntries rows).filter fun entry => !entry.yanked).map
      IndexVersion.version).Perm ((rows.filter fun row => !row.yanked).map Version.version) := by
    have entries := ((indexEntries_perm rows).filter fun entry => !entry.yanked).map
      IndexVersion.version
    rw [List.filter_map, List.map_map] at entries
    exact entries
  have descending : (((indexEntries rows).filter fun entry => !entry.yanked).map
      IndexVersion.version).Pairwise fun left right => le right left := by
    have whole : ((indexEntries rows).map IndexVersion.version).Pairwise
        fun left right => le right left := by
      rw [indexEntries_versions sorts nodup]
      exact sorts.sorted _
    exact whole.sublist (List.filter_sublist.map _)
  exact sorts.eq_sort perm descending

/-! ## Answers of the tables -/

section Tables

variable {world : PublishWorld I} {packageId : Uuid} {rows : List (Version I)}

/-- Every version of the package, yanked or not. -/
def Published (world : PublishWorld I) (packageId : Uuid) (version : String) : Prop :=
  ∃ row, world.versions.committed (packageId, version) = some row

theorem returned_row (invariant : PublishInvariant world)
    (returns : ReturnsVersions world packageId rows) {row : Version I} (member : row ∈ rows) :
    world.versions.committed (packageId, row.version) = some row := by
  obtain ⟨rfl, key, found⟩ := (returns.mem_iff row).mp member
  rw [row_key invariant found] at found
  exact found

theorem returned_nodup (invariant : PublishInvariant world)
    (returns : ReturnsVersions world packageId rows) : (rows.map Version.version).Nodup := by
  refine List.Nodup.map_on ?_ returns.nodup
  intro left leftMember right rightMember same
  have leftFound := returned_row invariant returns leftMember
  rw [same, returned_row invariant returns rightMember] at leftFound
  exact (Option.some.inj leftFound).symm

theorem returned_versions (invariant : PublishInvariant world)
    (returns : ReturnsVersions world packageId rows) (version : String) :
    version ∈ rows.map Version.version ↔ Published world packageId version := by
  rw [List.mem_map]
  constructor
  · rintro ⟨row, member, rfl⟩
    exact ⟨row, returned_row invariant returns member⟩
  · rintro ⟨row, found⟩
    obtain ⟨samePackage, sameVersion⟩ := Prod.mk.inj (row_key invariant found)
    exact ⟨row, (returns.mem_iff row).mpr ⟨samePackage.symm, _, found⟩, sameVersion.symm⟩

/-- Two answers list the same rows, in whatever order. -/
theorem returned_perm {others : List (Version I)}
    (returns : ReturnsVersions world packageId rows)
    (returns' : ReturnsVersions world packageId others) : rows.Perm others :=
  (List.perm_ext_iff_of_nodup returns.nodup returns'.nodup).mpr fun row => by
    rw [returns.mem_iff, returns'.mem_iff]

end Tables

/-- The entries are decided by the versions of the package and their flags. -/
theorem indexEntries_congr (sorts : SortsDescending le I.sortVersionsDesc)
    {rows others : List (Version I)} (same : rows.Perm others)
    (nodup : (rows.map Version.version).Nodup) : indexEntries rows = indexEntries others := by
  have nodup' : (others.map Version.version).Nodup := (same.map _).nodup_iff.mp nodup
  have ordered : I.sortVersionsDesc (rows.map Version.version) =
      I.sortVersionsDesc (others.map Version.version) := sorts.sort_congr (same.map _)
  have perm : (indexEntries rows).Perm (indexEntries others) :=
    ((indexEntries_perm rows).trans (same.map _)).trans (indexEntries_perm others).symm
  have forward : (indexEntries rows).Pairwise fun left right =>
      indexPosition (I.sortVersionsDesc (others.map Version.version)) left.version ≤
        indexPosition (I.sortVersionsDesc (others.map Version.version)) right.version := by
    rw [← ordered]
    exact List.pairwise_insertionSort _ _
  have places : (indexEntries others).Pairwise fun left right =>
      indexPosition (I.sortVersionsDesc (others.map Version.version)) left.version <
        indexPosition (I.sortVersionsDesc (others.map Version.version)) right.version := by
    have increasing :=
      indexPosition_increasing ((sorts.perm (others.map Version.version)).nodup_iff.mpr nodup')
    rw [← indexEntries_versions sorts nodup', List.pairwise_map] at increasing
    rw [← indexEntries_versions sorts nodup']
    exact increasing
  exact eq_of_positions perm places forward

/-! ## The newest publish -/

/-- No two of the rows were published at the same time. -/
def TimesDiffer (rows : List (Version I)) : Prop :=
  ∀ left ∈ rows, ∀ right ∈ rows, left.publishedAt.ordinal = right.publishedAt.ordinal →
    left = right

theorem latest_of_foldl (rest : List (Version I)) (first : Version I) :
    (rest.foldl (fun best row =>
        if best.publishedAt.ordinal ≤ row.publishedAt.ordinal then row else best) first) ∈
      first :: rest ∧
    ∀ row ∈ first :: rest, row.publishedAt.ordinal ≤
      (rest.foldl (fun best row =>
        if best.publishedAt.ordinal ≤ row.publishedAt.ordinal then row else best)
          first).publishedAt.ordinal := by
  induction rest generalizing first with
  | nil => simp
  | cons next rest ih =>
      rw [List.foldl_cons]
      by_cases later : first.publishedAt.ordinal ≤ next.publishedAt.ordinal
      · rw [if_pos later]
        obtain ⟨member, greatest⟩ := ih next
        refine ⟨List.mem_cons_of_mem _ member, fun row inside => ?_⟩
        rcases List.mem_cons.mp inside with rfl | inside
        · exact le_trans later (greatest next List.mem_cons_self)
        · exact greatest row inside
      · rw [if_neg later]
        obtain ⟨member, greatest⟩ := ih first
        refine ⟨?_, fun row inside => ?_⟩
        · rcases List.mem_cons.mp member with same | member
          · rw [same]
            exact List.mem_cons_self
          · exact List.mem_cons_of_mem _ (List.mem_cons_of_mem _ member)
        · rcases List.mem_cons.mp inside with rfl | inside
          · exact greatest row List.mem_cons_self
          · rcases List.mem_cons.mp inside with rfl | inside
            · exact le_trans (le_of_not_ge later) (greatest first List.mem_cons_self)
            · exact greatest row (List.mem_cons_of_mem _ inside)

theorem newestVersion_perm {rows others : List (Version I)} (same : rows.Perm others)
    (differ : TimesDiffer rows) : newestVersion I rows = newestVersion I others := by
  cases rows with
  | nil => rw [List.nil_perm.mp same]
  | cons first rest =>
      cases others with
      | nil => exact absurd same.symm (List.nil_perm.not.mpr (by simp))
      | cons first' rest' =>
          obtain ⟨member, greatest⟩ := latest_of_foldl rest first
          obtain ⟨member', greatest'⟩ := latest_of_foldl rest' first'
          refine congrArg some (differ _ member _ (same.mem_iff.mpr member') (le_antisymm ?_ ?_))
          · exact greatest' _ (same.mem_iff.mp member)
          · exact greatest _ (same.mem_iff.mpr member')

/-! ## The endpoints agree -/

/-- In every state of the registry, the assembled index of a package lists each version once
and in the version order, with its own flag; those that are not yanked are the versions of
the package endpoint; and the order of the rows does not matter. -/
theorem assembled_index_agrees (sorts : SortsDescending le I.sortVersionsDesc)
    {backend : Backend} {registryWrite : Bool} {events : List (PublishEvent I)}
    {world : PublishWorld I}
    (run : exec publishStep (.initial I backend registryWrite) events = some world)
    {readers : ColumnReaders I} {queries : Queries I} (reads : Reads world queries)
    {slug name : String} {metadata : PackageMetadata readers}
    (answered : getPackage readers queries slug name = .ok metadata) :
    ∃ org package, org ∈ world.orgs ∧ org.slug = slug ∧
      world.packages.committed (org.id, name) = some package ∧
      (storedIndex I package = none → ∀ rows, ReturnsVersions world package.id rows →
        ListsDescending le (Published world package.id)
          ((getSignedIndex I slug name package rows).payload.versions.map IndexVersion.version) ∧
        (∀ entry ∈ (getSignedIndex I slug name package rows).payload.versions, ∃ row,
          world.versions.committed (package.id, entry.version) = some row ∧
            entry.yanked = row.yanked) ∧
        ((getSignedIndex I slug name package rows).payload.versions.filter
          fun entry => !entry.yanked).map IndexVersion.version = metadata.versions ∧
        ∀ others, ReturnsVersions world package.id others →
          (getSignedIndex I slug name package others).payload.versions =
              (getSignedIndex I slug name package rows).payload.versions ∧
            (TimesDiffer rows → getSignedIndex I slug name package others =
              getSignedIndex I slug name package rows)) := by
  have invariant := (run_rows run).invariant
  obtain ⟨org, package, found, orgRead, packageRead, rowsRead, versions, -⟩ :=
    getPackage_ok answered
  obtain ⟨known, slugged⟩ := reads.org slug org orgRead
  have stored := (reads.package org.id name _ packageRead).symm
  refine ⟨org, package, known, slugged, stored, fun unsigned rows returns => ?_⟩
  have nodup := returned_nodup invariant returns
  rw [versions_getSignedIndex unsigned]
  refine ⟨?_, ?_, ?_, ?_⟩
  · rw [indexEntries_versions sorts nodup]
    exact sorts.lists nodup (returned_versions invariant returns)
  · intro entry member
    obtain ⟨row, inside, rfl⟩ := List.mem_map.mp ((indexEntries_perm rows).mem_iff.mp member)
    exact ⟨row, returned_row invariant returns inside, rfl⟩
  · rw [indexEntries_visible sorts nodup, versions]
    exact visibleVersionsDesc_eq sorts invariant invariant returns
      (reads.versions package.id found rowsRead) fun _ => Iff.rfl
  · intro others returns'
    have same := returned_perm returns returns'
    have entries := indexEntries_congr sorts same nodup
    rw [versions_getSignedIndex unsigned]
    refine ⟨entries.symm, fun differ => ?_⟩
    rw [getSignedIndex_assembled unsigned, getSignedIndex_assembled unsigned, entries,
      newestVersion_perm same differ]

theorem assembled_index_agrees_sample :
    ∃ (final : PublishWorld PublishSample.interfaces) (package : Package PublishSample.interfaces)
      (rows : List (Version PublishSample.interfaces))
      (metadata : PackageMetadata Sample.readers),
      exec publishStep PublishSample.start Sample.restored = some final ∧
        ReturnsVersions final package.id rows ∧
        ((getSignedIndex _ "acme" "http-kit" package rows).payload.versions.filter
          fun entry => !entry.yanked).map IndexVersion.version = metadata.versions := by
  have seen : ((exec publishStep PublishSample.start Sample.restored).bind fun final =>
      if final.orgs = [acme] then
        (final.packages.committed (sampleOrg, "http-kit")).map fun row =>
          (storedIndex PublishSample.interfaces row).isNone
      else none) = some true := by
    decide +kernel
  obtain ⟨final, run, seen⟩ := Option.bind_eq_some_iff.mp seen
  split at seen
  next orgs =>
    obtain ⟨package, packageFound, unsigned⟩ := Option.map_eq_some_iff.mp seen
    obtain ⟨queries, reads, orgsRead, packagesRead, versionsRead⟩ := queries_exist (run_rows run)
    obtain ⟨found, rowsRead⟩ := versionsRead package.id
    have known : acme ∈ final.orgs := orgs ▸ List.mem_singleton_self acme
    have packageRead := packagesRead acme.id "http-kit"
    have stored : final.packages.committed (acme.id, "http-kit") = some package := packageFound
    rw [stored] at packageRead
    have answers : ∃ metadata : PackageMetadata Sample.readers,
        getPackage Sample.readers queries "acme" "http-kit" = .ok metadata :=
      getPackage_answers (orgsRead acme known) packageRead rowsRead
    obtain ⟨metadata, answered⟩ := answers
    obtain ⟨org, other, member, _, same, agrees⟩ :=
      assembled_index_agrees Sample.sorts run reads answered
    have sameOrg : org = acme := by
      rw [orgs] at member
      exact List.mem_singleton.mp member
    rw [sameOrg, stored] at same
    rw [← Option.some.inj same] at agrees
    have returns := reads.versions package.id found rowsRead
    obtain ⟨-, -, visible, -⟩ := agrees (Option.isNone_iff_eq_none.mp unsigned) found returns
    exact ⟨final, package, found, metadata, run, returns, visible⟩
  next => exact absurd seen nofun

end ZedRegistry.AssembledIndex
