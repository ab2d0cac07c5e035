import ZedRegistry.Lib.Execution
import ZedRegistry.LatestVersion

/-!
# Embeddings and semantic search

`embeddings.rs` and `routes/semantic.rs`: the embedding of a package for one model, which
whoever may publish the package replaces, and the search that ranks the stored embeddings
of a model.  The nearest-neighbour statement is the database's; what the routes make of its
rows is here.
-/

set_option autoImplicit false

namespace ZedRegistry.SemanticSearch

open Execution PackageViews

variable {I : Interfaces} {Scalar Distance : Type}

/-! ## Vectors -/

def vectorDim : Nat := 2050

/-- What the checks look at of an `f32`. -/
structure Scalars (Scalar : Type) where
  zero : Scalar
  isFinite : Scalar → Bool
  display : Scalar → String

variable (scalars : Scalars Scalar)

def padToDim (embedding : List Scalar) : Except String (List Scalar) := do
  ensure (embedding.isEmpty = false) "embedding must be non-empty"
  ensure (embedding.length ≤ vectorDim) ("embedding has " ++ toString embedding.length ++
    " dims, which exceeds the 2050-dim column")
  match embedding.find? fun value => !scalars.isFinite value with
  | some bad =>
    .error ("embedding contains a non-finite value (" ++ scalars.display bad ++ ")")
  | none => .ok (embedding ++ List.replicate (vectorDim - embedding.length) scalars.zero)

/-- The test of the bytes: a character outside ASCII has none that passes. -/
def validModel (model : String) : Bool :=
  model ≠ "" && (asBytes model).length ≤ 120 && model.toList.all fun char =>
    char.isAlphanum || char = '.' || char = '_' || char = ':' || char = '/' || char = '-'

/-! ## The table -/

structure EmbeddingRow (Scalar : Type) where
  packageId : Uuid
  embeddingModel : String
  nativeDimensions : Int
  embedding : List Scalar
  content : String
  contentSha256 : String
  deriving DecidableEq

abbrev EmbeddingKey := Uuid × String

def EmbeddingRow.key (row : EmbeddingRow Scalar) : EmbeddingKey :=
  (row.packageId, row.embeddingModel)

/-- Whether the statement takes effect, and the error it reports. -/
structure StatementAnswer where
  landed : Bool
  failure : Option String

def upsert (sha256 : Bytes → String) (table : EmbeddingKey → Option (EmbeddingRow Scalar))
    (answer : StatementAnswer) (packageId : Uuid) (model : String) (embedding : List Scalar)
    (content : String) :
    Except String Unit × (EmbeddingKey → Option (EmbeddingRow Scalar)) :=
  if validModel model = false then
    (.error ("invalid embedding model name \x60" ++ model ++ "\x60"), table)
  else
    match padToDim scalars embedding with
    | .error error => (.error error, table)
    | .ok padded =>
      let row := ⟨packageId, model, embedding.length, padded, content, sha256 (asBytes content)⟩
      (answer.failure.elim (.ok ()) .error,
        if answer.landed then Function.update table (packageId, model) (some row) else table)

/-! ## The routes -/

structure UpsertRequest (Scalar : Type) where
  org : String
  name : String
  authorization : Option String
  model : String
  embedding : List Scalar
  content : String

structure UpsertAnswers (I : Interfaces) where
  postgres : Bool
  tokens : String → ApiResult (Option Token)
  now : DateTimeUtc
  queries : Queries I
  statement : StatementAnswer

structure UpsertResponse where
  org : String
  name : String
  model : String
  deriving DecidableEq

def requirePg (postgres : Bool) : ApiResult Unit :=
  ensure (postgres = true) (.badRequest "vector_unsupported"
    "embedding search requires a Postgres (pgvector) backend")

def invalidEmbedding (error : String) : ApiErr := .badRequest "invalid_embedding" error

/-- The package whose embedding a request may replace. -/
def embeddedPackage (answers : UpsertAnswers I) (request : UpsertRequest Scalar) :
    ApiResult (Package I) := do
  requirePg answers.postgres
  let token ← requireToken I.sha256 answers.tokens answers.now request.authorization
  let orgRow ← findOrg answers.queries request.org
  authorizePublish token.orgId (.parse token.role) orgRow.id
  findPackage answers.queries orgRow request.name

def upsertEmbedding (table : EmbeddingKey → Option (EmbeddingRow Scalar))
    (answers : UpsertAnswers I) (request : UpsertRequest Scalar) :
    ApiResult UpsertResponse × (EmbeddingKey → Option (EmbeddingRow Scalar)) :=
  match embeddedPackage answers request with
  | .error error => (.error error, table)
  | .ok pkg =>
    let (written, next) := upsert scalars I.sha256 table answers.statement pkg.id request.model
      request.embedding request.content
    ((written.mapError invalidEmbedding).map fun _ => ⟨request.org, request.name, request.model⟩,
      next)

structure Neighbor (Distance : Type) where
  packageId : Uuid
  distance : Distance

structure SearchRequest (Scalar : Type) where
  model : String
  embedding : List Scalar
  limit : Nat
  tags : List String

/-- The nearest-neighbour statement, and the package of a row with its org. -/
structure SearchAnswers (I : Interfaces) (Scalar Distance : Type) where
  postgres : Bool
  nearest : String → List Scalar → Nat → Except String (List (Neighbor Distance))
  package : Uuid → ApiResult (Option (Package I × Option Org))

def clampLimit (limit : Nat) : Nat := max 1 (min limit 100)

def search (answers : SearchAnswers I Scalar Distance) (model : String) (query : List Scalar)
    (limit : Nat) : Except String (List (Neighbor Distance)) := do
  ensure (validModel model = true) ("invalid embedding model name \x60" ++ model ++ "\x60")
  let padded ← padToDim scalars query
  answers.nearest model padded (clampLimit limit)

structure SemanticHit (Distance : Type) where
  org : String
  name : String
  description : Option String
  distance : Distance
  tags : List String

/-- The hit that a neighbour makes, when its package is there with all the tags. -/
def hitOf (readers : ColumnReaders I) (wantTags : List String) (neighbor : Neighbor Distance) :
    Option (Package I × Option Org) → Option (SemanticHit Distance)
  | some (pkg, some org) =>
    if hasAllTags (tagsOf readers pkg) wantTags then
      some ⟨org.slug, pkg.name, pkg.description, neighbor.distance, tagsOf readers pkg⟩
    else none
  | _ => none

/-- The loop over the neighbours, which stops at a full page. -/
def collect (readers : ColumnReaders I) (answers : SearchAnswers I Scalar Distance)
    (wantTags : List String) (rawLimit : Nat) :
    List (SemanticHit Distance) → List (Neighbor Distance) →
      ApiResult (List (SemanticHit Distance))
  | items, [] => .ok items
  | items, neighbor :: rest => do
    let found ← answers.package neighbor.packageId
    match hitOf readers wantTags neighbor found with
    | none => collect readers answers wantTags rawLimit items rest
    | some hit =>
      if rawLimit ≤ items.length + 1 then pure (items ++ [hit])
      else collect readers answers wantTags rawLimit (items ++ [hit]) rest

def wantedTags (request : SearchRequest Scalar) : List String :=
  parseTagFilter (some (String.intercalate "," request.tags))

/-- More rows than the page where tags may take some away. -/
def fetchLimit (request : SearchRequest Scalar) : Nat :=
  if wantedTags request = [] then clampLimit request.limit
  else min (clampLimit request.limit * 4) 100

def semanticSearch (readers : ColumnReaders I) (answers : SearchAnswers I Scalar Distance)
    (request : SearchRequest Scalar) : ApiResult (List (SemanticHit Distance)) := do
  requirePg answers.postgres
  let neighbors ← (search scalars answers request.model request.embedding
    (fetchLimit request)).mapError invalidEmbedding
  collect readers answers (wantedTags request) (clampLimit request.limit) [] neighbors

/-! ## Runs of upserts -/

/-- A row with the request that wrote it. -/
abbrev EmbeddingWrite (I : Interfaces) (Scalar : Type) :=
  EmbeddingRow Scalar × UpsertAnswers I × UpsertRequest Scalar

/-- The table, and ghost: the row of every statement that took effect and who asked, latest
first. -/
structure EmbeddingWorld (I : Interfaces) (Scalar : Type) where
  table : EmbeddingKey → Option (EmbeddingRow Scalar)
  writes : List (EmbeddingWrite I Scalar)

def EmbeddingWorld.initial (I : Interfaces) (Scalar : Type) : EmbeddingWorld I Scalar where
  table _ := none
  writes := []

/-- The row a request writes, if it gets as far. -/
def rowOf (answers : UpsertAnswers I) (request : UpsertRequest Scalar) :
    Option (EmbeddingRow Scalar) :=
  match embeddedPackage answers request with
  | .error _ => none
  | .ok pkg =>
    if validModel request.model = false then none
    else
      match padToDim scalars request.embedding with
      | .error _ => none
      | .ok padded => some ⟨pkg.id, request.model, request.embedding.length, padded,
          request.content, I.sha256 (asBytes request.content)⟩

/-- A table after a statement that took effect or did not. -/
def written (table : EmbeddingKey → Option (EmbeddingRow Scalar)) (landed : Bool) :
    Option (EmbeddingRow Scalar) → EmbeddingKey → Option (EmbeddingRow Scalar)
  | none => table
  | some row => if landed then Function.update table row.key (some row) else table

def logged (world : EmbeddingWorld I Scalar) (event : UpsertAnswers I × UpsertRequest Scalar) :
    Option (EmbeddingRow Scalar) → List (EmbeddingWrite I Scalar)
  | none => world.writes
  | some row => if event.1.statement.landed then (row, event) :: world.writes else world.writes

def embeddingStep (world : EmbeddingWorld I Scalar)
    (event : UpsertAnswers I × UpsertRequest Scalar) : Option (EmbeddingWorld I Scalar) :=
  some
    { table := (upsertEmbedding scalars world.table event.1 event.2).2
      writes := logged world event (rowOf scalars event.1 event.2) }

/-- The row of the last statement about a key. -/
def lastWrite (writes : List (EmbeddingWrite I Scalar))
    (key : EmbeddingKey) : Option (EmbeddingRow Scalar) :=
  (writes.find? fun write => write.1.key = key).map Prod.fst

theorem upsertEmbedding_table (table : EmbeddingKey → Option (EmbeddingRow Scalar))
    (answers : UpsertAnswers I) (request : UpsertRequest Scalar) :
    (upsertEmbedding scalars table answers request).2 =
      written table answers.statement.landed (rowOf scalars answers request) := by
  unfold upsertEmbedding rowOf
  cases embeddedPackage answers request with
  | error error => rfl
  | ok pkg =>
      simp only [upsert]
      cases validModel request.model with
      | false => rfl
      | true =>
          simp only [Bool.true_eq_false, if_false]
          cases padToDim scalars request.embedding with
          | error error => rfl
          | ok padded => rfl

/-- The row came of a request by someone who may publish the package. -/
structure Authorized (answers : UpsertAnswers I) (request : UpsertRequest Scalar)
    (row : EmbeddingRow Scalar) : Prop where
  published : ∃ token org pkg,
    requireToken I.sha256 answers.tokens answers.now request.authorization = .ok token ∧
    findOrg answers.queries request.org = .ok org ∧
    authorizePublish token.orgId (.parse token.role) org.id = .ok () ∧
    findPackage answers.queries org request.name = .ok pkg ∧ row.packageId = pkg.id
  model : row.embeddingModel = request.model ∧ validModel request.model = true
  padded : padToDim scalars request.embedding = .ok row.embedding
  content : row.content = request.content ∧ row.contentSha256 = I.sha256 (asBytes request.content)

theorem authorized_of_row {answers : UpsertAnswers I} {request : UpsertRequest Scalar}
    {row : EmbeddingRow Scalar} (writes : rowOf scalars answers request = some row) :
    Authorized scalars answers request row := by
  unfold rowOf at writes
  cases found : embeddedPackage answers request with
  | error error =>
      rw [found] at writes
      cases writes
  | ok pkg =>
      simp only [found] at writes
      cases valid : validModel request.model with
      | false => simp [valid] at writes
      | true =>
          simp only [valid, Bool.true_eq_false, if_false] at writes
          cases padded : padToDim scalars request.embedding with
          | error error =>
              rw [padded] at writes
              cases writes
          | ok vector =>
              rw [padded] at writes
              obtain rfl := Option.some.inj writes
              simp only [embeddedPackage, bind_ok] at found
              obtain ⟨_, -, token, accepted, org, named, _, may, package⟩ := found
              exact ⟨⟨token, org, pkg, accepted, named, may, package, rfl⟩, ⟨rfl, valid⟩,
                padded, rfl, rfl⟩

/-- The table holds the last row written under each key, and every row was authorized. -/
structure Ledger (world : EmbeddingWorld I Scalar) : Prop where
  rows : ∀ key, world.table key = lastWrite world.writes key
  authorized : ∀ write ∈ world.writes, Authorized scalars write.2.1 write.2.2 write.1

theorem embeddingStep_ledger {world next : EmbeddingWorld I Scalar}
    {event : UpsertAnswers I × UpsertRequest Scalar} (ledger : Ledger scalars world)
    (stepped : embeddingStep scalars world event = some next) : Ledger scalars next := by
  obtain rfl := Option.some.inj stepped
  cases writes : rowOf scalars event.1 event.2 with
  | none =>
      refine ⟨fun key => ?_, fun write member => ?_⟩
      · simp only [upsertEmbedding_table, writes, written, logged]
        exact ledger.rows key
      · simp only [logged] at member
        exact ledger.authorized write member
  | some row =>
      cases landed : event.1.statement.landed with
      | false =>
          refine ⟨fun key => ?_, fun write member => ?_⟩
          · simp only [upsertEmbedding_table, writes, written, logged, landed]
            exact ledger.rows key
          · simp only [logged, landed] at member
            exact ledger.authorized write member
      | true =>
          refine ⟨fun key => ?_, fun write member => ?_⟩
          · simp only [upsertEmbedding_table, writes, written, logged, landed, if_true]
            by_cases same : row.key = key
            · subst same
              simp [lastWrite]
            · have before := ledger.rows key
              have other : key ≠ row.key := fun equal => same equal.symm
              rw [Function.update_of_ne other, before]
              simp [lastWrite, same]
          · simp only [logged, landed, if_true] at member
            rcases List.mem_cons.mp member with rfl | earlier
            · exact authorized_of_row scalars writes
            · exact ledger.authorized write earlier

theorem run_ledger {world : EmbeddingWorld I Scalar}
    {events : List (UpsertAnswers I × UpsertRequest Scalar)}
    (run : exec (embeddingStep scalars) (.initial I Scalar) events = some world) :
    Ledger scalars world := by
  refine exec_invariant (embeddingStep scalars) (fun _ _ _ => embeddingStep_ledger scalars) ?_ run
  refine ⟨fun key => rfl, fun write member => ?_⟩
  cases member

/-! ## The page of hits -/

section Page

variable {readers : ColumnReaders I} {answers : SearchAnswers I Scalar Distance}
  {wantTags : List String} {rawLimit : Nat}

/-- The neighbour makes the hit. -/
def IsHit (readers : ColumnReaders I) (answers : SearchAnswers I Scalar Distance)
    (wantTags : List String) (neighbor : Neighbor Distance) (hit : SemanticHit Distance) : Prop :=
  ∃ found, answers.package neighbor.packageId = .ok found ∧
    hitOf readers wantTags neighbor found = some hit

/-- The hits are those of some of the neighbours in their order, of all that make one unless
the page is full. -/
structure Collected (readers : ColumnReaders I) (answers : SearchAnswers I Scalar Distance)
    (wantTags : List String) (rawLimit already : Nat) (neighbors chosen : List (Neighbor Distance))
    (hits : List (SemanticHit Distance)) : Prop where
  ordered : chosen.Sublist neighbors
  made : List.Forall₂ (IsHit readers answers wantTags) chosen hits
  bounded : already < rawLimit → already + hits.length ≤ rawLimit
  complete : already + hits.length < rawLimit → ∀ neighbor ∈ neighbors, ∀ hit,
    IsHit readers answers wantTags neighbor hit → neighbor ∈ chosen

theorem collect_ok {neighbors : List (Neighbor Distance)}
    {items result : List (SemanticHit Distance)}
    (collected : collect readers answers wantTags rawLimit items neighbors = .ok result) :
    ∃ chosen hits, result = items ++ hits ∧
      Collected readers answers wantTags rawLimit items.length neighbors chosen hits := by
  induction neighbors generalizing items with
  | nil =>
      obtain rfl := Except.ok.inj collected
      exact ⟨[], [], (List.append_nil _).symm, List.Sublist.refl _, .nil, fun room => room.le,
        fun _ neighbor member => absurd member List.not_mem_nil⟩
  | cons neighbor rest ih =>
      obtain ⟨found, package, collected⟩ := bind_ok.mp collected
      cases made : hitOf readers wantTags neighbor found with
      | none =>
          simp only [made] at collected
          obtain ⟨chosen, hits, rfl, page⟩ := ih collected
          refine ⟨chosen, hits, rfl, page.ordered.cons neighbor, page.made, page.bounded, ?_⟩
          intro room other member hit isHit
          rcases List.mem_cons.mp member with rfl | later
          · obtain ⟨found', package', made'⟩ := isHit
            rw [package] at package'
            obtain rfl := Except.ok.inj package'
            rw [made] at made'
            cases made'
          · exact page.complete room other later hit isHit
      | some hit =>
          simp only [made] at collected
          split at collected
          · rename_i full
            obtain rfl := Except.ok.inj collected
            refine ⟨[neighbor], [hit], rfl, ?_, .cons ⟨found, package, made⟩ .nil, ?_, ?_⟩
            · exact (List.nil_sublist rest).cons_cons neighbor
            · intro room
              simp only [List.length_singleton]
              omega
            · intro room
              simp only [List.length_singleton] at room
              omega
          · rename_i room
            obtain ⟨chosen, hits, rfl, page⟩ := ih collected
            have length : (items ++ [hit]).length = items.length + 1 := by simp
            refine ⟨neighbor :: chosen, hit :: hits, by simp, page.ordered.cons_cons neighbor,
              .cons ⟨found, package, made⟩ page.made, ?_, ?_⟩
            · intro _
              have bounded := page.bounded (by omega)
              simp only [List.length_cons]
              omega
            · intro open' other member hit' isHit
              rcases List.mem_cons.mp member with rfl | later
              · exact List.mem_cons_self
              · refine List.mem_cons_of_mem neighbor (page.complete ?_ other later hit' isHit)
                simp only [List.length_cons] at open'
                omega

/-- Each hit keeps the distance of its neighbour. -/
theorem distances_of_made {chosen : List (Neighbor Distance)} {hits : List (SemanticHit Distance)}
    (made : List.Forall₂ (IsHit readers answers wantTags) chosen hits) :
    hits.map SemanticHit.distance = chosen.map Neighbor.distance := by
  induction made with
  | nil => rfl
  | cons isHit rest ih =>
      obtain ⟨found, -, built⟩ := isHit
      unfold hitOf at built
      split at built
      · split at built
        · obtain rfl := Option.some.inj built
          simpa using ih
        · cases built
      · cases built

theorem neighbor_of_hit {chosen : List (Neighbor Distance)} {hits : List (SemanticHit Distance)}
    (made : List.Forall₂ (IsHit readers answers wantTags) chosen hits)
    {hit : SemanticHit Distance} (member : hit ∈ hits) :
    ∃ neighbor ∈ chosen, IsHit readers answers wantTags neighbor hit := by
  induction made with
  | nil => cases member
  | cons isHit rest ih =>
      rcases List.mem_cons.mp member with rfl | later
      · exact ⟨_, List.mem_cons_self, isHit⟩
      · obtain ⟨neighbor, among, isHit⟩ := ih later
        exact ⟨neighbor, List.mem_cons_of_mem _ among, isHit⟩

end Page

/-! ## Ranked hits -/

/-- The nearest-neighbour statement reads rows of the model out of the table, by ascending
distance, and a package is found by its id. -/
structure ReadsTable [LE Distance] (table : EmbeddingKey → Option (EmbeddingRow Scalar))
    (distance : List Scalar → List Scalar → Distance)
    (answers : SearchAnswers I Scalar Distance) : Prop where
  rows : ∀ model query limit neighbors, answers.nearest model query limit = .ok neighbors →
    ∀ neighbor ∈ neighbors, ∃ row, table (neighbor.packageId, model) = some row ∧
      neighbor.distance = distance row.embedding query
  sorted : ∀ model query limit neighbors, answers.nearest model query limit = .ok neighbors →
    neighbors.Pairwise fun nearer farther => nearer.distance ≤ farther.distance
  packages : ∀ id pkg org, answers.package id = .ok (some (pkg, org)) → pkg.id = id

/-- A hit is a package with every wanted tag, ranked by the embedding that someone who may
publish it stored last under the model. -/
structure Justified (readers : ColumnReaders I)
    (writes : List (EmbeddingWrite I Scalar))
    (distance : List Scalar → List Scalar → Distance) (answers : SearchAnswers I Scalar Distance)
    (request : SearchRequest Scalar) (query : List Scalar) (hit : SemanticHit Distance)
    (pkg : Package I) (org : Org) (row : EmbeddingRow Scalar) : Prop where
  package : answers.package pkg.id = .ok (some (pkg, some org))
  shown : hit.org = org.slug ∧ hit.name = pkg.name ∧ hit.description = pkg.description ∧
    hit.tags = tagsOf readers pkg
  tagged : ∀ tag ∈ wantedTags request, tag ∈ hit.tags
  latest : lastWrite writes (pkg.id, request.model) = some row
  authorized : ∃ asked upserted, Authorized (I := I) scalars asked upserted row
  distance : hit.distance = distance row.embedding query

theorem clampLimit_pos (limit : Nat) : 0 < clampLimit limit := by
  unfold clampLimit
  omega

theorem justified_of_isHit [LE Distance] {readers : ColumnReaders I}
    {world : EmbeddingWorld I Scalar} (ledger : Ledger scalars world)
    {distance : List Scalar → List Scalar → Distance} {answers : SearchAnswers I Scalar Distance}
    (reads : ReadsTable world.table distance answers) {request : SearchRequest Scalar}
    {query : List Scalar} {limit : Nat} {neighbors : List (Neighbor Distance)}
    (nearest : answers.nearest request.model query limit = .ok neighbors)
    {neighbor : Neighbor Distance} (member : neighbor ∈ neighbors) {hit : SemanticHit Distance}
    (isHit : IsHit readers answers (wantedTags request) neighbor hit) :
    ∃ pkg org row,
      Justified scalars readers world.writes distance answers request query hit pkg org row := by
  obtain ⟨found, package, made⟩ := isHit
  obtain ⟨row, stored, far⟩ := reads.rows _ _ _ _ nearest neighbor member
  unfold hitOf at made
  split at made
  · rename_i pkg org
    split at made
    · rename_i tagged
      obtain rfl := Option.some.inj made
      have same := reads.packages _ _ _ package
      rw [← same] at package stored
      rw [ledger.rows] at stored
      obtain ⟨write, first, rfl⟩ := Option.map_eq_some_iff.mp stored
      refine ⟨pkg, org, write.1, package, ⟨rfl, rfl, rfl, rfl⟩, fun tag wanted => ?_, stored,
        ⟨_, _, ledger.authorized write (List.mem_of_find?_eq_some first)⟩, far⟩
      exact List.contains_iff_mem.mp (List.all_eq_true.mp tagged tag wanted)
    · cases made
  · cases made

namespace Sample

open PackageViews.Sample (readers)

/-- Whole numbers for the components. -/
def integers : Scalars Int where
  zero := 0
  isFinite _ := true
  display := toString

def apart (stored query : List Int) : Nat := (stored.headD 0 - query.headD 0).natAbs

def kit : Package PublishSample.interfaces :=
  insertedPackage _ ⟨"kit"⟩ acme.id "http-kit" samplePackage sampleTime

def upserted : UpsertAnswers PublishSample.interfaces where
  postgres := true
  tokens _ := .ok (some sampleToken)
  now := sampleTime
  queries :=
    { findOrg := fun _ => .ok (some acme)
      findPackage := fun _ _ => .ok (some kit)
      versionsOf := fun _ => .ok []
      loadKeys := fun _ => .ok []
      countPackages := .ok 1
      newestPackages := fun _ _ => .ok []
      packagesLike := fun _ => .ok [] }
  statement := ⟨true, none⟩

def embed : UpsertRequest Int :=
  ⟨"acme", "http-kit", some "Bearer ci", "bge-small", [3, 4], "HTTP toolkit"⟩

/-- The row of the one package, if it has one of the model. -/
def asked (table : EmbeddingKey → Option (EmbeddingRow Int)) :
    SearchAnswers PublishSample.interfaces Int Nat where
  postgres := true
  nearest model query _ := .ok ((table (kit.id, model)).toList.map fun row =>
    ⟨kit.id, apart row.embedding query⟩)
  package id := .ok (if id = kit.id then some (kit, some acme) else none)

theorem asked_readsTable (table : EmbeddingKey → Option (EmbeddingRow Int)) :
    ReadsTable table apart (asked table) where
  rows model query limit neighbors nearest neighbor member := by
    obtain rfl := Except.ok.inj nearest
    obtain ⟨row, stored, rfl⟩ := List.mem_map.mp member
    exact ⟨row, Option.mem_toList.mp stored, rfl⟩
  sorted model query limit neighbors nearest := by
    obtain rfl := Except.ok.inj nearest
    cases table (kit.id, model) with
    | none => exact List.Pairwise.nil
    | some row => exact List.pairwise_singleton _ _
  packages id pkg org found := by
    have built := Except.ok.inj found
    split at built
    · rename_i same
      obtain ⟨rfl, -⟩ := Prod.mk.inj (Option.some.inj built)
      exact same.symm
    · cases built

end Sample

end ZedRegistry.SemanticSearch
