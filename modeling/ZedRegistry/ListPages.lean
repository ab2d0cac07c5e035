import ZedRegistry.FilteredPages
import ZedRegistry.Lib.OffsetPages

/-!
# Paging through the list

`routes/list.rs` without tags sorts by `created_at` and by nothing else, so that two
requests may order the packages of one instant differently.  A client that pages
through the list is given every package once, whatever order each request meets,
exactly when no page ends between two packages of one instant.
-/

set_option autoImplicit false

namespace ZedRegistry.PackageViews

variable {I : Interfaces}

/-- A slug names one org, and a name is given once in an org. -/
structure NamedRegistry (I : Interfaces) extends Snapshot I where
  named : (newest.map fun row => (row.2.slug, row.1.name)).Nodup

/-- Nothing was written in between; rows of one instant may come in another order. -/
def Snapshot.SameRegistry (seen registry : Snapshot I) : Prop :=
  seen.newest.Perm registry.newest ∧ seen.versions = registry.versions

def pageSize (limit : Nat) : Nat := min (max limit 1) 200

/-- The items of the requests at the offsets 0, L, 2L and so on, one after the other. -/
def listOffsets (readers : ColumnReaders I) (answers : Nat → Queries I) (tags : Option String)
    (limit : Nat) : Nat → ApiResult (List PackageSummary)
  | 0 => pure []
  | count + 1 => do
    let items ← listOffsets readers answers tags limit count
    let response ← listPackages readers (answers count) ⟨tags, limit, count * pageSize limit⟩
    pure (items ++ response.items)

/-- The requests up to the offset `total`. -/
def requestCount (total limit : Nat) : Nat := total / pageSize limit + 1

section Ties

variable (rows : List (Package I × Org))

def newerThan (row : Package I × Org) : Nat :=
  rows.countP fun other => row.1.createdAt.ordinal < other.1.createdAt.ordinal

def noOlderThan (row : Package I × Org) : Nat :=
  rows.countP fun other => row.1.createdAt.ordinal ≤ other.1.createdAt.ordinal

/-- Among the newest `cut` packages are some of one instant, but not all of them. -/
def TieAcross (cut : Nat) : Prop :=
  ∃ row ∈ rows, newerThan rows row < cut ∧ cut < noOlderThan rows row

end Ties

/-! ## One request -/

def createdKey (row : Package I × Org) : Int := -row.1.createdAt.ordinal

theorem tieAcross_iff {rows : List (Package I × Org)} {cut : Nat} :
    TieAcross rows cut ↔ OffsetPages.Straddles createdKey rows cut := by
  simp only [TieAcross, OffsetPages.Straddles, newerThan, noOlderThan, OffsetPages.ahead,
    CountRank.rank, createdKey, neg_lt_neg_iff, neg_le_neg_iff]

theorem Snapshot.SameRegistry.orders {seen registry : Snapshot I}
    (same : seen.SameRegistry registry) :
    OffsetPages.Orders createdKey registry.newest seen.newest where
  perm := same.1
  sorted := seen.newestFirst.imp fun older => neg_le_neg older

/-- The registry as a request that meets the rows in this order sees it. -/
def Snapshot.reordered (registry : Snapshot I) {order : List (Package I × Org)}
    (orders : OffsetPages.Orders createdKey registry.newest order) : Snapshot I :=
  { registry with
    newest := order
    newestFirst := orders.sorted.imp fun above => neg_le_neg_iff.mp above
    sameRows := registry.sameRows.trans orders.perm.symm
    distinct := (orders.perm.map _).nodup_iff.mpr registry.distinct
    joined := fun row member => registry.joined row (orders.perm.subset member) }

theorem Snapshot.reordered_same (registry : Snapshot I) {order : List (Package I × Org)}
    (orders : OffsetPages.Orders createdKey registry.newest order) :
    (registry.reordered orders).SameRegistry registry :=
  ⟨orders.perm, rfl⟩

theorem pageSize_positive (limit : Nat) : 0 < pageSize limit := by
  unfold pageSize
  omega

section Requests

variable (readers : ColumnReaders I) (others : Queries I)

theorem Snapshot.SameRegistry.summary {seen registry : Snapshot I}
    (same : seen.SameRegistry registry) : seen.summary readers = registry.summary readers := by
  unfold Snapshot.summary
  rw [same.2]

theorem listPackages_untagged (seen : Snapshot I) {params : ListParams}
    (untagged : parseTagFilter params.tags = []) :
    listPackages readers (seen.queries others) params =
      .ok ⟨((seen.newest.drop params.offset).take (pageSize params.limit)).map
        (seen.summary readers), seen.newest.length⟩ := by
  have rows : (seen.queries others).newestPackages (pageSize params.limit) params.offset =
      .ok (((seen.newest.drop params.offset).take (pageSize params.limit)).map related) := rfl
  unfold pageSize at rows ⊢
  simp only [listPackages, untagged, List.isEmpty_nil, if_true]
  refine bind_ok.mpr ⟨_, rfl, ?_⟩
  rw [rows]
  refine bind_ok.mpr ⟨_, rfl, ?_⟩
  rw [summaries_related]
  rfl

/-- What the client collects is cut from the orders that its requests met. -/
theorem listOffsets_eq (registry : Snapshot I) {seen : Nat → Snapshot I}
    (same : ∀ request, (seen request).SameRegistry registry) {tags : Option String}
    (untagged : parseTagFilter tags = []) (limit count : Nat) :
    listOffsets readers (fun request => (seen request).queries others) tags limit count =
      .ok ((OffsetPages.pages (fun request => (seen request).newest) (pageSize limit) count).map
        (registry.summary readers)) := by
  induction count with
  | zero => rfl
  | succ count ih =>
      have answered := @listPackages_untagged I readers others (seen count)
        ⟨tags, limit, count * pageSize limit⟩ untagged
      rw [(same count).summary readers] at answered
      rw [OffsetPages.pages_succ, List.map_append]
      exact bind_ok.mpr ⟨_, ih, bind_ok.mpr ⟨_, answered, rfl⟩⟩

/-- Summaries of different packages differ in the org or the name. -/
theorem NamedRegistry.summaries_nodup (registry : NamedRegistry I) :
    (registry.newest.map (registry.summary readers)).Nodup := by
  have names : (registry.newest.map (registry.summary readers)).map
      (fun summary => (summary.org, summary.name)) =
        registry.newest.map fun row => (row.2.slug, row.1.name) := by
    rw [List.map_map]
    rfl
  have distinct := registry.named
  rw [← names] at distinct
  exact distinct.of_map

end Requests

/-- The pages hold every package once, whatever order each request meets, if and only
if no page ends between packages of one instant. -/
theorem list_pages_partition_iff (readers : ColumnReaders I) (others : Queries I)
    (registry : NamedRegistry I) {tags : Option String} (untagged : parseTagFilter tags = [])
    (limit : Nat) :
    (∀ seen : Nat → Snapshot I,
        (∀ request, (seen request).SameRegistry registry.toSnapshot) →
        ∃ items, listOffsets readers (fun request => (seen request).queries others) tags limit
            (requestCount registry.newest.length limit) = .ok items ∧
          items.Perm (registry.newest.map (registry.summary readers))) ↔
      ∀ request, ¬TieAcross registry.newest (request * pageSize limit) := by
  have positive := pageSize_positive limit
  constructor
  · intro partitions request tie
    have straddles := tieAcross_iff.mp tie
    have within : request < requestCount registry.newest.length limit := by
      obtain ⟨row, _, _, above⟩ := tie
      have below : request * pageSize limit ≤ registry.newest.length :=
        (above.trans_le List.countP_le_length).le
      exact Nat.lt_succ_of_le ((Nat.le_div_iff_mul_le positive).mpr below)
    obtain ⟨orders, chosen, repeated⟩ := OffsetPages.exists_repeat straddles within
    have same := fun request => registry.toSnapshot.reordered_same (chosen request)
    obtain ⟨items, answered, once⟩ := partitions _ same
    rw [listOffsets_eq readers others registry.toSnapshot same untagged] at answered
    rw [← Except.ok.inj answered] at once
    exact repeated (once.nodup_iff.mpr (registry.summaries_nodup readers)).of_map
  · intro clean seen same
    have chosen := fun request => (same request).orders
    have apart : ∀ request, ¬OffsetPages.Straddles createdKey registry.newest
        (request * pageSize limit) :=
      fun request straddles => clean request (tieAcross_iff.mpr straddles)
    have enough : registry.newest.length ≤
        requestCount registry.newest.length limit * pageSize limit := by
      have division := Nat.lt_mul_div_succ registry.newest.length positive
      rw [Nat.mul_comm] at division
      exact division.le
    exact ⟨_, listOffsets_eq readers others registry.toSnapshot same untagged limit _,
      (OffsetPages.pages_perm chosen apart enough).map _⟩

/-! ## Two packages of one instant -/

namespace Sample

def twoKits : NamedRegistry PublishSample.interfaces :=
  { kitRegistry 1 with named := by decide }

theorem twoKits_reversed :
    OffsetPages.Orders createdKey twoKits.newest twoKits.newest.reverse where
  perm := List.reverse_perm _
  sorted := by
    refine List.pairwise_of_forall_mem_list ?_
    intro early isEarly late isLate
    have earlyTime := (mem_kits (List.mem_reverse.mp isEarly)).1
    have lateTime := (mem_kits (List.mem_reverse.mp isLate)).1
    unfold createdKey
    rw [earlyTime, lateTime]

/-- The second request meets the two packages the other way round. -/
def turned (request : Nat) : Snapshot PublishSample.interfaces :=
  if request = 0 then twoKits.toSnapshot else twoKits.toSnapshot.reordered twoKits_reversed

theorem turned_same (request : Nat) : (turned request).SameRegistry twoKits.toSnapshot := by
  unfold turned
  split
  · exact ⟨List.Perm.refl _, rfl⟩
  · exact twoKits.toSnapshot.reordered_same twoKits_reversed

theorem twoKits_clean (request : Nat) : ¬TieAcross twoKits.newest (request * pageSize 2) := by
  rintro ⟨row, _, below, above⟩
  have size : pageSize 2 = 2 := rfl
  have all : noOlderThan twoKits.newest row ≤ twoKits.newest.length := List.countP_le_length
  have length : twoKits.newest.length = 2 := rfl
  rw [size] at below above
  omega

end Sample

open Sample in
/-- Page by page of one, the client is given the first package twice. -/
theorem list_pages_repeat :
    ¬∀ seen : Nat → Snapshot PublishSample.interfaces,
      (∀ request, (seen request).SameRegistry twoKits.toSnapshot) →
      ∃ items, listOffsets readers (fun request => (seen request).queries noQueries) none 1
          (requestCount twoKits.newest.length 1) = .ok items ∧
        items.Perm (twoKits.newest.map (twoKits.summary readers)) := by
  intro partitions
  obtain ⟨items, answered, once⟩ := partitions turned turned_same
  have given : listOffsets readers (fun request => (turned request).queries noQueries) none 1
      (requestCount twoKits.newest.length 1) =
        .ok [twoKits.summary readers (kit [] 0, acme), twoKits.summary readers (kit [] 0, acme)] :=
    rfl
  rw [given] at answered
  have second := once.mem_iff.mpr
    (List.mem_map_of_mem (f := twoKits.summary readers) (List.mem_cons_of_mem _
      (List.mem_singleton_self (kit ["cli"] 1, acme))))
  rw [← Except.ok.inj answered] at second
  have names := List.mem_map_of_mem (f := PackageSummary.name) second
  exact absurd names (by decide)

open Sample in
/-- A page of two ends after both. -/
theorem list_pages_partition_sample :
    ∃ items, listOffsets readers (fun request => (turned request).queries noQueries) none 2
        (requestCount twoKits.newest.length 2) = .ok items ∧
      items.Perm (twoKits.newest.map (twoKits.summary readers)) :=
  (list_pages_partition_iff readers noQueries twoKits rfl 2).mpr twoKits_clean turned turned_same

end ZedRegistry.PackageViews
