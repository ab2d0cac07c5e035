import Std.Data.String.ToNat
import ZedRegistry.LatestVersion
import ZedRegistry.LikeEscaping

/-!
# Tags after a limit

Search and the tag-filtered list drop packages after the database has cut its
answer: the list after its 2000 newest packages, search after 50 matches.
-/

set_option autoImplicit false

namespace ZedRegistry.PackageViews

/-! ## The database of one request -/

/-- The packages of a registry, newest first and in the order in which the search
query meets them. -/
structure Snapshot (I : Interfaces) where
  newest : List (Package I × Org)
  scanned : List (Package I × Org)
  versions : Uuid → List (Version I)
  /-- The case rule of `LIKE`. -/
  accepts : Char → Char → Bool
  newestFirst : newest.Pairwise fun early late =>
    late.1.createdAt.ordinal ≤ early.1.createdAt.ordinal
  sameRows : scanned.Perm newest
  distinct : (newest.map fun row => row.1.id).Nodup
  joined : ∀ row ∈ newest, row.2.id = row.1.orgId

variable {I : Interfaces}

/-- `name LIKE pattern OR description LIKE pattern`; `NULL` is like nothing. -/
def Snapshot.isLike (snapshot : Snapshot I) (pattern : String) (row : Package I × Org) : Bool :=
  decide (SqlLike (fun accepted letter => snapshot.accepts accepted letter = true) pattern
    row.1.name) ||
  row.1.description.any fun description =>
    decide (SqlLike (fun accepted letter => snapshot.accepts accepted letter = true) pattern
      description)

/-- `find_also_related` of a row that has its org. -/
def related (row : Package I × Org) : Package I × Option Org := (row.1, some row.2)

def searchLimit : Nat := 50

/-- `others` answers the queries that neither route makes. -/
def Snapshot.queries (snapshot : Snapshot I) (others : Queries I) : Queries I :=
  { others with
    versionsOf := fun packageId => .ok (snapshot.versions packageId)
    countPackages := .ok snapshot.newest.length
    newestPackages := fun limit offset =>
      .ok (((snapshot.newest.drop offset).take limit).map related)
    packagesLike := fun pattern =>
      .ok (((snapshot.scanned.filter (snapshot.isLike pattern)).take searchLimit).map related) }

section Filtering

variable (readers : ColumnReaders I) (snapshot : Snapshot I)

def carriesAll (tags : Option String) (row : Package I × Org) : Bool :=
  hasAllTags (tagsOf readers row.1) (parseTagFilter tags)

def Snapshot.summary (row : Package I × Org) : PackageSummary where
  org := row.2.slug
  name := row.1.name
  description := row.1.description
  latest := latestVisibleVersion I (snapshot.versions row.1.id)
  tags := tagsOf readers row.1

/-- The page of the packages among `rows` that carry every tag. -/
def Snapshot.page (rows : List (Package I × Org)) (params : ListParams) : PackageListResponse :=
  let carrying := rows.filter (carriesAll readers params.tags)
  ⟨((carrying.drop params.offset).take (min (max params.limit 1) 200)).map
    (snapshot.summary readers), carrying.length⟩

/-- The packages that contain the text in the name or the description. -/
def Snapshot.matching (q : String) : List (Package I × Org) :=
  snapshot.scanned.filter (snapshot.isLike (containsEscaped q))

/-- Those of them that carry every tag. -/
def Snapshot.answering (params : SearchParams) : List (Package I × Org) :=
  (snapshot.matching params.q).filter (carriesAll readers params.tags)

/-! ## What the routes return -/

theorem summaries_related (others : Queries I) (rows : List (Package I × Org)) :
    summaries readers (snapshot.queries others) (rows.map related) =
      .ok (rows.map (snapshot.summary readers)) := by
  induction rows with
  | nil => rfl
  | cons row rest ih => exact bind_ok.mpr ⟨_, rfl, bind_ok.mpr ⟨_, ih, rfl⟩⟩

theorem filter_related (tags : Option String) (rows : List (Package I × Org)) :
    (rows.map related).filter (fun row =>
        hasAllTags (tagsOf readers row.1) (parseTagFilter tags)) =
      (rows.filter (carriesAll readers tags)).map related := by
  rw [List.filter_map]
  rfl

theorem listPackages_tagged (others : Queries I) {params : ListParams}
    (tagged : parseTagFilter params.tags ≠ []) :
    listPackages readers (snapshot.queries others) params =
      .ok (snapshot.page readers (snapshot.newest.take scanCap) params) := by
  have notEmpty : (parseTagFilter params.tags).isEmpty = false := by simpa using tagged
  have rows : (snapshot.queries others).newestPackages scanCap 0 =
      .ok ((snapshot.newest.take scanCap).map related) := rfl
  simp only [listPackages, notEmpty, Bool.false_eq_true, if_false, rows]
  refine bind_ok.mpr ⟨_, rfl, ?_⟩
  rw [filter_related, ← List.map_drop, ← List.map_take, summaries_related, List.length_map]
  rfl

theorem search_eq (others : Queries I) (params : SearchParams) :
    search readers (snapshot.queries others) params =
      .ok ⟨params.q, (((snapshot.matching params.q).take searchLimit).filter
        (carriesAll readers params.tags)).map (snapshot.summary readers)⟩ := by
  have rows : (snapshot.queries others).packagesLike (containsEscaped params.q) =
      .ok (((snapshot.matching params.q).take searchLimit).map related) := rfl
  rw [search, rows]
  refine bind_ok.mpr ⟨_, rfl, ?_⟩
  dsimp only
  rw [filter_related, summaries_related]
  rfl

/-! ## Where the limit does no harm -/

theorem filter_take_of_none_beyond {Row : Type} {keep : Row → Bool} {rows : List Row} {limit : Nat}
    (beyond : ∀ row ∈ rows.drop limit, keep row = false) :
    (rows.take limit).filter keep = rows.filter keep := by
  have none : (rows.drop limit).filter keep = [] := by
    rw [List.filter_eq_nil_iff]
    intro row member
    simp [beyond row member]
  calc (rows.take limit).filter keep
      = (rows.take limit).filter keep ++ (rows.drop limit).filter keep := by
        rw [none, List.append_nil]
    _ = rows.filter keep := by rw [← List.filter_append, List.take_append_drop]

theorem page_within_cap {params : ListParams}
    (beyond : ∀ row ∈ snapshot.newest.drop scanCap, carriesAll readers params.tags row = false) :
    snapshot.page readers (snapshot.newest.take scanCap) params =
      snapshot.page readers snapshot.newest params := by
  simp only [Snapshot.page, filter_take_of_none_beyond beyond]

theorem carriesAll_untagged {tags : Option String} (untagged : parseTagFilter tags = [])
    (row : Package I × Org) : carriesAll readers tags row = true := by
  rw [carriesAll, untagged]
  rfl

theorem search_within_limit {params : SearchParams}
    (harmless : parseTagFilter params.tags = [] ∨
      (snapshot.matching params.q).length ≤ searchLimit) :
    (((snapshot.matching params.q).take searchLimit).filter
        (carriesAll readers params.tags)).length =
      min searchLimit (snapshot.answering readers params).length := by
  rcases harmless with untagged | few
  · have all : ∀ rows : List (Package I × Org),
        rows.filter (carriesAll readers params.tags) = rows := by
      intro rows
      rw [List.filter_eq_self]
      intro row _
      exact carriesAll_untagged readers untagged row
    rw [Snapshot.answering, all, all, List.length_take]
  · have fewer : (snapshot.answering readers params).length ≤ searchLimit :=
      (List.length_filter_le _ _).trans few
    rw [List.take_of_length_le few, min_eq_right fewer]
    rfl

end Filtering

/-! ## A registry one package past the cap -/

namespace Sample

def kit (tags : List String) (number : Nat) : Package PublishSample.interfaces where
  id := ⟨"p" ++ Nat.repr number⟩
  orgId := sampleOrg
  name := "kit" ++ Nat.repr number
  description := none
  vcs := "git"
  repoUrl := "https://git.example/kit"
  versionScheme := "semver"
  tags := .strings tags
  createdAt := sampleTime
  indexSequence := 0
  signedIndex := none
  sequenceFits := fitsI64_zero

/-- Untagged packages, and then one with a tag. -/
def kits (untagged : Nat) : List (Package PublishSample.interfaces × Org) :=
  (List.range untagged).map (fun number => (kit [] number, acme)) ++
    [(kit ["cli"] untagged, acme)]

theorem kits_ids (untagged : Nat) :
    (kits untagged).map (fun row => row.1.id) =
      (List.range (untagged + 1)).map fun number => (⟨"p" ++ Nat.repr number⟩ : Uuid) := by
  rw [kits, List.map_append, List.map_map, List.range_succ, List.map_append]
  rfl

theorem numbered_injective :
    Function.Injective fun number => (⟨"p" ++ Nat.repr number⟩ : Uuid) := by
  intro left right same
  have texts := congrArg String.toList (Uuid.mk.inj same)
  rw [String.toList_append, String.toList_append] at texts
  exact Nat.repr_injective (String.toList_inj.mp (List.append_cancel_left texts))

theorem mem_kits {untagged : Nat} {row : Package PublishSample.interfaces × Org}
    (member : row ∈ kits untagged) : row.1.createdAt = sampleTime ∧ row.2 = acme ∧
      row.1.orgId = sampleOrg := by
  rcases List.mem_append.mp member with numbered | last
  · obtain ⟨number, _, rfl⟩ := List.mem_map.mp numbered
    exact ⟨rfl, rfl, rfl⟩
  · obtain rfl := List.mem_singleton.mp last
    exact ⟨rfl, rfl, rfl⟩

def kitRegistry (untagged : Nat) : Snapshot PublishSample.interfaces where
  newest := kits untagged
  scanned := kits untagged
  versions _ := []
  accepts accepted letter := accepted == letter
  newestFirst := by
    refine List.pairwise_of_forall_mem_list ?_
    intro early isEarly late isLate
    rw [(mem_kits isEarly).1, (mem_kits isLate).1]
  sameRows := List.Perm.refl _
  distinct := by
    rw [kits_ids]
    exact List.nodup_range.map numbered_injective
  joined := by
    intro row member
    rw [(mem_kits member).2.1, (mem_kits member).2.2]
    rfl

def noQueries : Queries PublishSample.interfaces where
  findOrg _ := .ok none
  findPackage _ _ := .ok none
  versionsOf _ := .ok []
  loadKeys _ := .ok []
  countPackages := .ok 0
  newestPackages _ _ := .ok []
  packagesLike _ := .ok []

def cliPage : ListParams := ⟨some "cli", 50, 0⟩

def cliSearch : SearchParams := ⟨"kit", some "cli"⟩

theorem untagged_carries_nothing (number : Nat) :
    carriesAll readers (some "cli") (kit [] number, acme) = false := rfl

theorem filter_kits (untagged : Nat) :
    (kits untagged).filter (carriesAll readers (some "cli")) = [(kit ["cli"] untagged, acme)] := by
  have none : ((List.range untagged).map fun number => (kit [] number, acme)).filter
      (carriesAll readers (some "cli")) = [] := by
    rw [List.filter_eq_nil_iff]
    intro row member
    obtain ⟨number, _, rfl⟩ := List.mem_map.mp member
    rw [untagged_carries_nothing]
    exact Bool.false_ne_true
  rw [kits, List.filter_append, none]
  rfl

theorem filter_take_kits (untagged : Nat) :
    ((kits untagged).take untagged).filter (carriesAll readers (some "cli")) = [] := by
  rw [kits, List.take_left' (by rw [List.length_map, List.length_range]), List.filter_eq_nil_iff]
  intro row member
  obtain ⟨number, _, rfl⟩ := List.mem_map.mp member
  rw [untagged_carries_nothing]
  exact Bool.false_ne_true

theorem total_full (untagged : Nat) :
    ((kitRegistry untagged).page readers (kitRegistry untagged).newest cliPage).total = 1 := by
  have carrying := congrArg List.length (filter_kits untagged)
  exact carrying

theorem total_capped (untagged : Nat) :
    ((kitRegistry untagged).page readers ((kitRegistry untagged).newest.take untagged)
      cliPage).total = 0 := by
  have carrying := congrArg List.length (filter_take_kits untagged)
  exact carrying

/-- Every package of the sample has the text in its name. -/
theorem matching_kits (untagged : Nat) :
    (kitRegistry untagged).matching "kit" = kits untagged := by
  have named : ∀ (tags : List String) (number : Nat),
      (kitRegistry untagged).isLike (containsEscaped "kit") (kit tags number, acme) = true := by
    intro tags number
    rw [Snapshot.isLike, Bool.or_eq_true, decide_eq_true_eq, containsEscaped_exact]
    refine Or.inl ⟨[], "kit".toList, (Nat.repr number).toList, ?_, ?_⟩
    · exact String.toList_append
    · exact List.forall₂_same.mpr fun letter _ => beq_self_eq_true letter
  refine List.filter_eq_self.mpr ?_
  intro row member
  rcases List.mem_append.mp member with numbered | last
  · obtain ⟨number, _, rfl⟩ := List.mem_map.mp numbered
    exact named [] number
  · obtain rfl := List.mem_singleton.mp last
    exact named ["cli"] untagged

end Sample

end ZedRegistry.PackageViews
