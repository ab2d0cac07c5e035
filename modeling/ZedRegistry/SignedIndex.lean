import Mathlib.Algebra.Order.Ring.Int
import Mathlib.Data.List.Sort
import ZedRegistry.Catalog
import ZedRegistry.Lib.Execution

/-!
# The signed index and its sequence

`routes/mirrors.rs` against the package upsert of `publish.rs`.  An upload is a
read and a check, and later one update outside any transaction; a publish bumps
the counter under the row lock its upsert took and then commits or rolls back.
-/

set_option autoImplicit false

namespace ZedRegistry

open Execution

variable (I : Interfaces)

/-! ## Serving -/

/-- The stored document, when it decodes. -/
def storedIndex (row : Package I) : Option (SignedIndex I.Mirror) :=
  row.signedIndex.bind I.indexFromValue

/-- `max_by_key` over `published_at`: the last of several maxima. -/
def newestVersion : List (Version I) → Option (Version I)
  | [] => none
  | row :: rest =>
    some (rest.foldl (fun best row =>
      if best.publishedAt.ordinal ≤ row.publishedAt.ordinal then row else best) row)

/-- Where the version order puts a version; unknown ones go last. -/
def indexPosition (ordered : List String) (version : String) : Nat :=
  (ordered.findIdx? fun candidate => candidate = version).getD (2 ^ 64 - 1)

/-- `get_signed_index` for the package row it found; `rows` answers its second
query, which only the assembled index reads. -/
def getSignedIndex (orgSlug name : String) (pkg : Package I) (rows : List (Version I)) :
    SignedIndex I.Mirror :=
  match storedIndex I pkg with
  | some document => document
  | none =>
    let ordered := I.sortVersionsDesc (rows.map Version.version)
    { schema := I.signedIndexSchema
      payload :=
        { org := orgSlug
          name := name
          sequence := (max pkg.indexSequence 1).toNat
          versions := (rows.map fun row => IndexVersion.mk row.version row.yanked).insertionSort
            fun left right => indexPosition ordered left.version ≤
              indexPosition ordered right.version
          mirrors := ((newestVersion I rows).bind fun row =>
            I.mirrorsFromValue row.mirrors).getD [] }
      signatures := [] }

def servedSequence (row : Package I) : Nat :=
  match storedIndex I row with
  | some document => document.payload.sequence
  | none => (max row.indexSequence 1).toNat

theorem sequence_getSignedIndex (orgSlug name : String) (pkg : Package I)
    (rows : List (Version I)) :
    (getSignedIndex I orgSlug name pkg rows).payload.sequence = servedSequence I pkg := by
  unfold getSignedIndex servedSequence
  cases storedIndex I pkg with
  | none => rfl
  | some document => rfl

/-! ## Accepting -/

structure IndexUpload where
  authorization : Option String
  orgSlug : String
  name : String
  document : SignedIndex I.Mirror

/-- The answers of the reads before the package row, and the clock. -/
structure IndexAnswers where
  tokens : String → ApiResult (Option Token)
  now : DateTimeUtc
  org : ApiResult (Option Org)
  keys : ApiResult (List PublisherKey)

/-- Everything `put_signed_index` does before its update: the package row's key
and the encoded document. -/
def checkSignedIndex (answers : IndexAnswers) (package : PackageKey → Option (Package I))
    (upload : IndexUpload I) : ApiResult (PackageKey × I.Value) := do
  let token ← requireToken I.sha256 answers.tokens answers.now upload.authorization
  let org ← okOrElse (← answers.org) (.notFound "org")
  authorizePublish token.orgId (Role.parse token.role) org.id
  let pkg ← okOrElse (package (org.id, upload.name)) (.notFound "package")
  ensure (upload.document.payload.org = upload.orgSlug ∧
      upload.document.payload.name = upload.name)
    (.badRequest "index_identity_mismatch"
      "the signed index names a different package than the route does")
  (I.validateIndex upload.document).mapError fun error =>
    .badRequest "invalid_index" ("invalid signed index: " ++ error)
  let keys ← answers.keys
  let preimage ← (I.indexPreimage upload.document).mapError fun error =>
    .badRequest "invalid_index" ("cannot reconstruct the signed payload: " ++ error)
  let _ ← (I.verifyAny preimage upload.document.signatures keys).mapError fun error =>
    .badRequest "signature_invalid" ("no enrolled key verifies this index: " ++ error)
  ensure ((max pkg.indexSequence 0).toNat ≤ upload.document.payload.sequence)
    (.conflict "index_rollback"
      ("index sequence " ++ toString upload.document.payload.sequence ++
        " is older than the stored " ++ toString pkg.indexSequence))
  let encoded ← (I.indexToValue upload.document).mapError fun error =>
    .badRequest "invalid_index" ("signed index is not encodable: " ++ error)
  pure ((org.id, upload.name), encoded)

/-- An accepted upload names its package, meets the floor of the row it was
checked against, and carries its own encoding. -/
theorem checkSignedIndex_ok {answers : IndexAnswers} {package : PackageKey → Option (Package I)}
    {upload : IndexUpload I} {key : PackageKey} {encoded : I.Value}
    (accepted : checkSignedIndex I answers package upload = .ok (key, encoded)) :
    (∃ pkg, package key = some pkg ∧ pkg.indexSequence ≤ upload.document.payload.sequence) ∧
      I.indexToValue upload.document = .ok encoded := by
  simp only [checkSignedIndex, bind_ok, mapError_ok, okOrElse_ok, ensure_ok] at accepted
  obtain ⟨_, _, _, _, org, _, _, _, pkg, found, _, _, _, _, _, _, _, _, _, _, _, floor,
    value, encodes, result⟩ := accepted
  obtain ⟨rfl, rfl⟩ := Prod.mk.inj (Except.ok.inj result)
  refine ⟨⟨pkg, found, ?_⟩, encodes⟩
  omega

/-- The row the update leaves: two columns set, `sequence as i64`. -/
def indexedPackage (row : Package I) (document : SignedIndex I.Mirror) (encoded : I.Value) :
    Package I :=
  { row with
    signedIndex := some encoded
    indexSequence := wrapI64 document.payload.sequence
    sequenceFits := wrapI64_fits _ }

theorem indexSequence_indexedPackage (row : Package I) {document : SignedIndex I.Mirror}
    (encoded : I.Value) (fits : document.payload.sequence < 2 ^ 63) :
    (indexedPackage I row document encoded).indexSequence = document.payload.sequence := by
  have inRange : FitsI64 (document.payload.sequence : Int) := by
    unfold FitsI64
    omega
  exact wrapI64_of_fits inRange

/-! ## Publishes and uploads step by step -/

/-- An open publish transaction: the package row it locked, and whether it has
bumped the counter. -/
structure PublishTxn where
  key : PackageKey
  bumped : Bool

/-- An upload between its check and its update. -/
structure CheckedUpload where
  key : PackageKey
  document : SignedIndex I.Mirror
  encoded : I.Value
  encodes : I.indexToValue document = .ok encoded

structure IndexWorld where
  packages : RowTable PackageKey (Package I) Nat
  publishes : Nat → Option PublishTxn
  uploads : Nat → Option (CheckedUpload I)

inductive IndexEvent where
  | upsert (txn : Nat) (id orgId : Uuid) (name : String) (m : ManifestPackage)
      (now : DateTimeUtc)
  | bump (txn : Nat)
  | commit (txn : Nat)
  | rollback (txn : Nat)
  | check (upload : Nat) (request : IndexUpload I) (answers : IndexAnswers)
  | update (upload : Nat)

/-- The first statement of a publish transaction. -/
def upsertStep (world : IndexWorld I) (txn : Nat) (id orgId : Uuid) (name : String)
    (m : ManifestPackage) (now : DateTimeUtc) : Option (IndexWorld I) :=
  if (world.publishes txn).isSome ∨ world.packages.blocked txn (orgId, name) = true then none
  else
    let row := upsertedPackage I (world.packages.view txn (orgId, name)) id orgId name m now
    some { world with
      packages := world.packages.write txn (orgId, name) row
      publishes := Function.update world.publishes txn (some ⟨(orgId, name), false⟩) }

/-- The row is read back inside the transaction and its counter written. -/
def bumpStep (world : IndexWorld I) (txn : Nat) : Option (IndexWorld I) :=
  match world.publishes txn with
  | some ⟨key, false⟩ =>
    (world.packages.view txn key).map fun row =>
      { world with
        packages := world.packages.write txn key
          (countedPackage I row row)
        publishes := Function.update world.publishes txn (some ⟨key, true⟩) }
  | _ => none

/-- The version insert and the rest of the publish decide between `commit` and
`rollback`. -/
def commitStep (world : IndexWorld I) (txn : Nat) : Option (IndexWorld I) :=
  match world.publishes txn with
  | some ⟨_, true⟩ =>
    some { world with
      packages := world.packages.commit txn
      publishes := Function.update world.publishes txn none }
  | _ => none

def rollbackStep (world : IndexWorld I) (txn : Nat) : Option (IndexWorld I) :=
  (world.publishes txn).map fun _ =>
    { world with
      packages := world.packages.rollback txn
      publishes := Function.update world.publishes txn none }

/-- Reads see committed rows only; a refused upload changes nothing. -/
def checkStep (world : IndexWorld I) (upload : Nat) (request : IndexUpload I)
    (answers : IndexAnswers) : Option (IndexWorld I) :=
  if (world.uploads upload).isSome then none
  else
    match accepted : checkSignedIndex I answers world.packages.committed request with
    | .ok (key, encoded) =>
      some { world with
        uploads := Function.update world.uploads upload
          (some ⟨key, request.document, encoded, (checkSignedIndex_ok I accepted).2⟩) }
    | .error _ => some world

/-- The update waits for a row lock and then writes two columns of the row as it
is by then. -/
def updateStep (world : IndexWorld I) (upload : Nat) : Option (IndexWorld I) :=
  match world.uploads upload with
  | some checked =>
    match world.packages.pending checked.key, world.packages.committed checked.key with
    | none, some row =>
      some { world with
        packages := world.packages.autocommit checked.key
          (indexedPackage I row checked.document checked.encoded)
        uploads := Function.update world.uploads upload none }
    | _, _ => none
  | none => none

def indexStep (world : IndexWorld I) : IndexEvent I → Option (IndexWorld I)
  | .upsert txn id orgId name m now => upsertStep I world txn id orgId name m now
  | .bump txn => bumpStep I world txn
  | .commit txn => commitStep I world txn
  | .rollback txn => rollbackStep I world txn
  | .check upload request answers => checkStep I world upload request answers
  | .update upload => updateStep I world upload

/-! ## What observations see -/

/-- Neither the counter nor the served sequence of `later` is below `row`'s. -/
def NotBefore (row later : Package I) : Prop :=
  row.indexSequence ≤ later.indexSequence ∧ servedSequence I row ≤ servedSequence I later

/-- The stored document never runs ahead of the counter. -/
def StoredBelowCounter (row : Package I) : Prop :=
  ∀ document, storedIndex I row = some document →
    (document.payload.sequence : Int) ≤ row.indexSequence

variable {I}

theorem NotBefore.refl (row : Package I) : NotBefore I row row := ⟨Int.le_refl _, Nat.le_refl _⟩

theorem NotBefore.trans {first second third : Package I} (early : NotBefore I first second)
    (late : NotBefore I second third) : NotBefore I first third :=
  ⟨Int.le_trans early.1 late.1, Nat.le_trans early.2 late.2⟩

theorem storedIndex_congr {row later : Package I} (same : later.signedIndex = row.signedIndex) :
    storedIndex I later = storedIndex I row := by
  unfold storedIndex
  rw [same]

/-- Raising the counter alone raises or keeps what is served. -/
theorem notBefore_of_counter {row later : Package I}
    (same : later.signedIndex = row.signedIndex)
    (counter : row.indexSequence ≤ later.indexSequence) : NotBefore I row later := by
  refine ⟨counter, ?_⟩
  unfold servedSequence
  rw [storedIndex_congr same]
  cases storedIndex I row with
  | none =>
      simp only
      omega
  | some document => exact Nat.le_refl _

theorem storedBelowCounter_of_counter {row later : Package I}
    (below : StoredBelowCounter I row) (same : later.signedIndex = row.signedIndex)
    (counter : row.indexSequence ≤ later.indexSequence) : StoredBelowCounter I later := by
  intro document stored
  rw [storedIndex_congr same] at stored
  exact Int.le_trans (below document stored) counter

/-- The upsert keeps both columns, or starts without a document. -/
theorem upsertedPackage_spec {existing : Option (Package I)}
    (below : ∀ row, existing = some row → StoredBelowCounter I row)
    (id orgId : Uuid) (name : String) (m : ManifestPackage) (now : DateTimeUtc) :
    StoredBelowCounter I (upsertedPackage I existing id orgId name m now) ∧
      ∀ row, existing = some row →
        NotBefore I row (upsertedPackage I existing id orgId name m now) := by
  cases existing with
  | none =>
      refine ⟨?_, fun row found => by contradiction⟩
      intro document stored
      simp [upsertedPackage, insertedPackage, storedIndex] at stored
  | some row =>
      refine ⟨storedBelowCounter_of_counter (below row rfl) rfl (Int.le_refl _), ?_⟩
      rintro other ⟨⟩
      exact notBefore_of_counter rfl (Int.le_refl _)

theorem bumpedPackage_spec {row : Package I} (below : StoredBelowCounter I row) :
    StoredBelowCounter I (countedPackage I row row) ∧
      NotBefore I row (countedPackage I row row) := by
  have counter := le_nextSequence row.sequenceFits
  exact ⟨storedBelowCounter_of_counter below rfl counter, notBefore_of_counter rfl counter⟩

section Uploaded

variable (roundTrip : ∀ document value,
  I.indexToValue document = .ok value → I.indexFromValue value = some document)

include roundTrip

theorem storedIndex_indexedPackage {document : SignedIndex I.Mirror} {encoded : I.Value}
    (encodes : I.indexToValue document = .ok encoded) (row : Package I) :
    storedIndex I (indexedPackage I row document encoded) = some document := by
  simp [storedIndex, indexedPackage, roundTrip document encoded encodes]

theorem indexedPackage_spec {row : Package I} {document : SignedIndex I.Mirror}
    {encoded : I.Value} (encodes : I.indexToValue document = .ok encoded)
    (fits : document.payload.sequence < 2 ^ 63) (below : StoredBelowCounter I row)
    (floor : row.indexSequence ≤ document.payload.sequence)
    (start : 1 ≤ document.payload.sequence ∨ (storedIndex I row).isSome = true) :
    StoredBelowCounter I (indexedPackage I row document encoded) ∧
      NotBefore I row (indexedPackage I row document encoded) := by
  have stored := storedIndex_indexedPackage roundTrip encodes row
  have counter := indexSequence_indexedPackage I row encoded fits
  refine ⟨?_, Int.le_trans floor (Int.le_of_eq counter.symm), ?_⟩
  · intro other found
    rw [stored] at found
    rw [← Option.some.inj found]
    exact Int.le_of_eq counter.symm
  · unfold servedSequence
    rw [stored]
    cases before : storedIndex I row with
    | none =>
        rw [before] at start
        simp only [Option.isSome_none, Bool.false_eq_true, or_false] at start
        simp only
        omega
    | some earlier =>
        have bound := below earlier before
        simp only
        omega

end Uploaded

/-! ## The sequence over whole runs -/

/-- No transaction or upload is open and no index was signed yet: the empty
registry, or one just migrated. -/
structure IndexWorld.Fresh (world : IndexWorld I) : Prop where
  unlocked : ∀ key, world.packages.pending key = none
  idle : ∀ upload, world.uploads upload = none
  unsigned : ∀ key row, world.packages.committed key = some row → row.signedIndex = none

structure IndexInvariant (world : IndexWorld I) : Prop where
  committed : ∀ key row, world.packages.committed key = some row → StoredBelowCounter I row
  pending : ∀ key txn row, world.packages.pending key = some (txn, row) →
    StoredBelowCounter I row ∧
      ∀ old, world.packages.committed key = some old → NotBefore I old row
  uploads : ∀ upload checked, world.uploads upload = some checked →
    checked.document.payload.sequence < 2 ^ 63

/-- Committed rows are kept and none of them goes backwards. -/
def Grows (world next : IndexWorld I) : Prop :=
  ∀ key row, world.packages.committed key = some row →
    ∃ later, next.packages.committed key = some later ∧ NotBefore I row later

/-- Every sequence submitted is below 2^63. -/
def sequenceFits : IndexEvent I → Bool
  | .check _ request _ => request.document.payload.sequence < 2 ^ 63
  | _ => true

/-- When an upload updates, the row it overwrites has neither a counter above the
payload's sequence nor, without a stored document, a served one above it. -/
def updateKeepsFloor (world : IndexWorld I) : IndexEvent I → Bool
  | .update upload =>
    (world.uploads upload).all fun checked =>
      (world.packages.committed checked.key).all fun row =>
        row.indexSequence ≤ checked.document.payload.sequence ∧
          (1 ≤ checked.document.payload.sequence ∨ (storedIndex I row).isSome = true)
  | _ => true

theorem Grows.refl (world : IndexWorld I) : Grows world world :=
  fun _ row found => ⟨row, found, NotBefore.refl row⟩

theorem Grows.trans {first second third : IndexWorld I} (early : Grows first second)
    (late : Grows second third) : Grows first third := by
  intro key row found
  obtain ⟨middle, found, before⟩ := early key row found
  obtain ⟨last, found, after⟩ := late key middle found
  exact ⟨last, found, before.trans after⟩

theorem IndexWorld.Fresh.invariant {world : IndexWorld I} (fresh : world.Fresh) :
    IndexInvariant world where
  committed key row found document stored := by
    simp [storedIndex, fresh.unsigned key row found] at stored
  pending key txn row held := by simp [fresh.unlocked key] at held
  uploads upload checked found := by simp [fresh.idle upload] at found

/-- What a transaction sees is invariant and not before the committed row. -/
theorem IndexInvariant.view {world : IndexWorld I} (holds : IndexInvariant world) {txn : Nat}
    {key : PackageKey} {row : Package I} (seen : world.packages.view txn key = some row) :
    StoredBelowCounter I row ∧
      ∀ old, world.packages.committed key = some old → NotBefore I old row := by
  rcases RowTable.view_some seen with held | ⟨found, _⟩
  · exact holds.pending key txn row held
  · refine ⟨holds.committed key row found, ?_⟩
    intro old committed
    rw [found] at committed
    obtain rfl := Option.some.inj committed
    exact NotBefore.refl row

/-- A transaction writes a version that is not before the committed row. -/
theorem IndexInvariant.write {world : IndexWorld I} (holds : IndexInvariant world) (txn : Nat)
    (key : PackageKey) {row : Package I} (below : StoredBelowCounter I row)
    (later : ∀ old, world.packages.committed key = some old → NotBefore I old row)
    (publishes : Nat → Option PublishTxn) :
    IndexInvariant { world with
      packages := world.packages.write txn key row, publishes := publishes } where
  committed := holds.committed
  pending other owner version held := by
    rcases RowTable.pending_write_cases held with ⟨rfl, rfl, rfl⟩ | ⟨_, before⟩
    · exact ⟨below, later⟩
    · exact holds.pending other owner version before
  uploads := holds.uploads

theorem upsertStep_preserves {world next : IndexWorld I} {txn : Nat} {id orgId : Uuid}
    {name : String} {m : ManifestPackage} {now : DateTimeUtc} (holds : IndexInvariant world)
    (stepped : upsertStep I world txn id orgId name m now = some next) :
    IndexInvariant next ∧ Grows world next := by
  unfold upsertStep at stepped
  split at stepped
  · contradiction
  · obtain rfl := Option.some.inj stepped
    refine ⟨?_, fun key row found => ⟨row, found, NotBefore.refl row⟩⟩
    obtain ⟨below, later⟩ := upsertedPackage_spec
      (fun row seen => (holds.view seen).1) id orgId name m now
    refine holds.write txn (orgId, name) below ?_ _
    intro old committed
    obtain ⟨row, seen⟩ := RowTable.view_of_committed txn committed
    exact ((holds.view seen).2 old committed).trans (later row seen)

theorem bumpStep_preserves {world next : IndexWorld I} {txn : Nat} (holds : IndexInvariant world)
    (stepped : bumpStep I world txn = some next) :
    IndexInvariant next ∧ Grows world next := by
  unfold bumpStep at stepped
  split at stepped
  · rename_i key _
    obtain ⟨row, seen, rfl⟩ := Option.map_eq_some_iff.mp stepped
    obtain ⟨below, before⟩ := holds.view seen
    obtain ⟨below, bumped⟩ := bumpedPackage_spec below
    refine ⟨?_, fun key row found => ⟨row, found, NotBefore.refl row⟩⟩
    exact holds.write txn key below (fun old committed => (before old committed).trans bumped) _
  · contradiction

theorem commitStep_preserves {world next : IndexWorld I} {txn : Nat}
    (holds : IndexInvariant world) (stepped : commitStep I world txn = some next) :
    IndexInvariant next ∧ Grows world next := by
  unfold commitStep at stepped
  split at stepped
  · obtain rfl := Option.some.inj stepped
    refine ⟨⟨?_, ?_, holds.uploads⟩, ?_⟩
    · intro key row found
      exact (holds.view found).1
    · intro key owner row held
      obtain ⟨held, other⟩ := (RowTable.pending_commit_some _ _ _ _ _).mp held
      obtain ⟨below, later⟩ := holds.pending key owner row held
      refine ⟨below, fun old committed => later old ?_⟩
      rw [RowTable.committed_commit, RowTable.view_of_held_by_other held other] at committed
      exact committed
    · intro key old committed
      obtain ⟨row, seen⟩ := RowTable.view_of_committed txn committed
      exact ⟨row, seen, (holds.view seen).2 old committed⟩
  · contradiction

theorem rollbackStep_preserves {world next : IndexWorld I} {txn : Nat}
    (holds : IndexInvariant world) (stepped : rollbackStep I world txn = some next) :
    IndexInvariant next ∧ Grows world next := by
  obtain ⟨_, _, rfl⟩ := Option.map_eq_some_iff.mp stepped
  refine ⟨⟨holds.committed, ?_, holds.uploads⟩,
    fun key row found => ⟨row, found, NotBefore.refl row⟩⟩
  intro key owner row held
  obtain ⟨held, _⟩ := (RowTable.pending_rollback_some _ _ _ _ _).mp held
  exact holds.pending key owner row held

theorem checkStep_preserves {world next : IndexWorld I} {upload : Nat} {request : IndexUpload I}
    {answers : IndexAnswers} (holds : IndexInvariant world)
    (fits : request.document.payload.sequence < 2 ^ 63)
    (stepped : checkStep I world upload request answers = some next) :
    IndexInvariant next ∧ Grows world next := by
  unfold checkStep at stepped
  split at stepped
  · contradiction
  · split at stepped
    · obtain rfl := Option.some.inj stepped
      refine ⟨⟨holds.committed, holds.pending, ?_⟩,
        fun key row found => ⟨row, found, NotBefore.refl row⟩⟩
      intro other checked found
      simp only [Function.update_apply] at found
      split at found
      · obtain rfl := Option.some.inj found
        exact fits
      · exact holds.uploads other checked found
    · obtain rfl := Option.some.inj stepped
      exact ⟨holds, Grows.refl _⟩

/-- What an enabled update did. -/
theorem updateStep_some {world next : IndexWorld I} {upload : Nat}
    (stepped : updateStep I world upload = some next) :
    ∃ checked row, world.uploads upload = some checked ∧
      world.packages.pending checked.key = none ∧
      world.packages.committed checked.key = some row ∧
      next = { world with
        packages := world.packages.autocommit checked.key
          (indexedPackage I row checked.document checked.encoded)
        uploads := Function.update world.uploads upload none } := by
  unfold updateStep at stepped
  split at stepped
  · rename_i checked found
    split at stepped
    · rename_i row free committed
      exact ⟨checked, row, found, free, committed, (Option.some.inj stepped).symm⟩
    · contradiction
  · contradiction

section Uploaded

variable (roundTrip : ∀ document value,
  I.indexToValue document = .ok value → I.indexFromValue value = some document)

include roundTrip

theorem updateStep_preserves {world next : IndexWorld I} {upload : Nat}
    (holds : IndexInvariant world) (floor : updateKeepsFloor world (.update upload) = true)
    (stepped : updateStep I world upload = some next) :
    IndexInvariant next ∧ Grows world next := by
  obtain ⟨checked, row, found, free, committed, rfl⟩ := updateStep_some stepped
  simp only [updateKeepsFloor, found, committed, Option.all_some, decide_eq_true_eq] at floor
  obtain ⟨below, later⟩ := indexedPackage_spec roundTrip checked.encodes
    (holds.uploads upload checked found) (holds.committed _ row committed) floor.1 floor.2
  refine ⟨⟨?_, ?_, ?_⟩, ?_⟩
  · intro key version found
    simp only [RowTable.committed_autocommit] at found
    split at found
    · obtain rfl := Option.some.inj found
      exact below
    · exact holds.committed key version found
  · intro key txn version held
    simp only [RowTable.pending_autocommit] at held
    obtain ⟨below, later⟩ := holds.pending key txn version held
    refine ⟨below, fun old committed => later old ?_⟩
    simp only [RowTable.committed_autocommit] at committed
    split at committed
    · rename_i same
      rw [same, free] at held
      contradiction
    · exact committed
  · intro other version found
    simp only [Function.update_apply] at found
    split at found
    · contradiction
    · exact holds.uploads other version found
  · intro key old before
    simp only [RowTable.committed_autocommit]
    split
    · rename_i same
      rw [same, committed] at before
      obtain rfl := Option.some.inj before
      exact ⟨_, rfl, later⟩
    · exact ⟨old, before, NotBefore.refl old⟩

theorem indexStep_preserves (world : IndexWorld I) (event : IndexEvent I)
    (next : IndexWorld I) (holds : IndexInvariant world)
    (allowed : sequenceFits event = true ∧ updateKeepsFloor world event = true)
    (stepped : indexStep I world event = some next) :
    IndexInvariant next ∧ Grows world next := by
  cases event with
  | upsert txn id orgId name m now => exact upsertStep_preserves holds stepped
  | bump txn => exact bumpStep_preserves holds stepped
  | commit txn => exact commitStep_preserves holds stepped
  | rollback txn => exact rollbackStep_preserves holds stepped
  | check upload request answers =>
      exact checkStep_preserves holds (of_decide_eq_true allowed.1) stepped
  | update upload => exact updateStep_preserves roundTrip holds allowed.2 stepped

/-- Between any two observations of a run whose updates keep the floor, neither
the counter nor the served sequence of a package decreases. -/
theorem index_sequence_monotone {start middle final : IndexWorld I}
    {early late : List (IndexEvent I)} (fresh : start.Fresh)
    (allowed : Allowed (indexStep I)
      (fun world event => sequenceFits event = true ∧ updateKeepsFloor world event = true)
      start (early ++ late))
    (reached : exec (indexStep I) start early = some middle)
    (run : exec (indexStep I) middle late = some final) {key : PackageKey} {row : Package I}
    (observed : middle.packages.committed key = some row) :
    ∃ later, final.packages.committed key = some later ∧
      row.indexSequence ≤ later.indexSequence ∧
      ∀ orgSlug name versions laterVersions,
        (getSignedIndex I orgSlug name row versions).payload.sequence ≤
          (getSignedIndex I orgSlug name later laterVersions).payload.sequence := by
  obtain ⟨allowedEarly, allowedLate⟩ := (allowed_append (indexStep I) reached).mp allowed
  have holds : IndexInvariant middle := exec_invariant_of_allowed (indexStep I)
    (fun world event next holds allowed stepped =>
      (indexStep_preserves roundTrip world event next holds allowed stepped).1)
    fresh.invariant allowedEarly reached
  have grows : Grows middle final := exec_monotone_of_allowed (indexStep I) Grows.refl
    (fun _ _ _ before after => before.trans after)
    (indexStep_preserves roundTrip) holds allowedLate run
  obtain ⟨later, found, counter, served⟩ := grows key row observed
  refine ⟨later, found, counter, ?_⟩
  intro orgSlug name versions laterVersions
  rw [sequence_getSignedIndex, sequence_getSignedIndex]
  exact served

end Uploaded

/-! ## Sequential histories

One request after another, on the committed rows alone; `exec_publish` and
`exec_upload` say that the steps above do the same when nothing else is open. -/

inductive IndexRequest (I : Interfaces) where
  | publish (id orgId : Uuid) (name : String) (m : ManifestPackage) (now : DateTimeUtc)
  | upload (request : IndexUpload I) (answers : IndexAnswers)

abbrev PackageRows (I : Interfaces) := PackageKey → Option (Package I)

def publishedPackage (existing : Option (Package I)) (id orgId : Uuid) (name : String)
    (m : ManifestPackage) (now : DateTimeUtc) : Package I :=
  let row := upsertedPackage I existing id orgId name m now
  countedPackage I row row

def serve (packages : PackageRows I) : IndexRequest I → PackageRows I
  | .publish id orgId name m now =>
    Function.update packages (orgId, name)
      (some (publishedPackage (packages (orgId, name)) id orgId name m now))
  | .upload request answers =>
    match checkSignedIndex I answers packages request with
    | .ok (key, encoded) =>
      Function.update packages key
        ((packages key).map fun row => indexedPackage I row request.document encoded)
    | .error _ => packages

theorem serve_accepted {packages : PackageRows I} {request : IndexUpload I}
    {answers : IndexAnswers} {key : PackageKey} {encoded : I.Value} {row : Package I}
    (accepted : checkSignedIndex I answers packages request = .ok (key, encoded))
    (found : packages key = some row) :
    serve packages (.upload request answers) key =
      some (indexedPackage I row request.document encoded) := by
  simp [serve, accepted, found]

/-- What one request does to a row: nothing, a raised counter, or an accepted document. -/
theorem serve_row {packages : PackageRows I} {key : PackageKey} {row : Package I}
    (found : packages key = some row) (request : IndexRequest I) :
    ∃ later, serve packages request key = some later ∧
      (later.signedIndex = row.signedIndex ∧ row.indexSequence ≤ later.indexSequence ∨
        ∃ upload answers encoded, request = .upload upload answers ∧
          checkSignedIndex I answers packages upload = .ok (key, encoded) ∧
          later = indexedPackage I row upload.document encoded) := by
  cases request with
  | publish id orgId name m now =>
      by_cases same : key = (orgId, name)
      · subst same
        refine ⟨publishedPackage (some row) id orgId name m now, by simp [serve, found], .inl ?_⟩
        exact ⟨rfl, le_nextSequence row.sequenceFits⟩
      · exact ⟨row, by simp [serve, same, found], .inl ⟨rfl, Int.le_refl _⟩⟩
  | upload upload answers =>
      cases outcome : checkSignedIndex I answers packages upload with
      | error error => exact ⟨row, by simp [serve, outcome, found], .inl ⟨rfl, Int.le_refl _⟩⟩
      | ok result =>
          obtain ⟨target, encoded⟩ := result
          by_cases same : key = target
          · subst same
            exact ⟨_, serve_accepted outcome found,
              .inr ⟨upload, answers, encoded, rfl, outcome, rfl⟩⟩
          · exact ⟨row, by simp [serve, outcome, same, found], .inl ⟨rfl, Int.le_refl _⟩⟩

def serveAll (packages : PackageRows I) (requests : List (IndexRequest I)) : PackageRows I :=
  requests.foldl serve packages

/-- No transaction and no upload is open. -/
structure IndexWorld.Quiet (world : IndexWorld I) : Prop where
  unlocked : ∀ key, world.packages.pending key = none
  closed : ∀ txn, world.publishes txn = none
  idle : ∀ upload, world.uploads upload = none

theorem view_of_unlocked {world : IndexWorld I} (quiet : world.Quiet) (txn : Nat)
    (key : PackageKey) : world.packages.view txn key = world.packages.committed key :=
  RowTable.view_of_not_held (by simp [quiet.unlocked key])

theorem exec_publish {world : IndexWorld I} (quiet : world.Quiet) (txn : Nat)
    (id orgId : Uuid) (name : String) (m : ManifestPackage) (now : DateTimeUtc) :
    ∃ next, exec (indexStep I) world
        [.upsert txn id orgId name m now, .bump txn, .commit txn] = some next ∧
      next.Quiet ∧
      next.packages.committed =
        serve world.packages.committed (.publish id orgId name m now) := by
  have free : world.packages.blocked txn (orgId, name) = false :=
    RowTable.not_blocked_iff.mpr (by simp [quiet.unlocked])
  have upserted : upsertStep I world txn id orgId name m now = some
      { world with
        packages := world.packages.write txn (orgId, name)
          (upsertedPackage I (world.packages.committed (orgId, name)) id orgId name m now)
        publishes := Function.update world.publishes txn (some ⟨(orgId, name), false⟩) } := by
    simp [upsertStep, quiet.closed txn, free, view_of_unlocked quiet]
  simp only [exec, indexStep, upserted, Option.bind_some, bumpStep, commitStep,
    Function.update_self, RowTable.view_write_self, Option.map_some, Option.some.injEq,
    exists_eq_left']
  refine ⟨⟨?_, ?_, quiet.idle⟩, ?_⟩
  · intro key
    rw [Option.eq_none_iff_forall_ne_some]
    rintro ⟨owner, row⟩ held
    obtain ⟨held, other⟩ := (RowTable.pending_commit_some _ _ _ _ _).mp held
    simp only [RowTable.pending_write, quiet.unlocked key] at held
    split at held
    · exact other (Prod.mk.inj (Option.some.inj held)).1.symm
    · contradiction
  · intro other
    simp only [Function.update_apply, quiet.closed other]
    split
    · rfl
    · rfl
  · funext key
    simp only [RowTable.committed_commit, serve, Function.update_apply]
    split
    · rename_i same
      rw [same, RowTable.view_write_self]
      rfl
    · rename_i differs
      rw [RowTable.view_write_other _ _ differs, RowTable.view_write_other _ _ differs,
        view_of_unlocked quiet]

theorem exec_upload {world : IndexWorld I} (quiet : world.Quiet) (upload : Nat)
    (request : IndexUpload I) (answers : IndexAnswers) {key : PackageKey} {encoded : I.Value}
    (accepted : checkSignedIndex I answers world.packages.committed request =
      .ok (key, encoded)) :
    ∃ next, exec (indexStep I) world [.check upload request answers, .update upload] =
        some next ∧
      next.Quiet ∧
      next.packages.committed =
        serve world.packages.committed (.upload request answers) := by
  obtain ⟨⟨row, found, _⟩, encodes⟩ := checkSignedIndex_ok I accepted
  have checked : checkStep I world upload request answers = some
      { world with
        uploads := Function.update world.uploads upload
          (some ⟨key, request.document, encoded, encodes⟩) } := by
    unfold checkStep
    rw [if_neg (by simp [quiet.idle upload])]
    split
    · rename_i other value same
      rw [accepted] at same
      obtain ⟨rfl, rfl⟩ := Prod.mk.inj (Except.ok.inj same)
      rfl
    · rename_i same
      rw [accepted] at same
      contradiction
  simp only [exec, indexStep, checked, Option.bind_some, updateStep, Function.update_self,
    quiet.unlocked key, found, Option.some.injEq, exists_eq_left']
  refine ⟨⟨quiet.unlocked, quiet.closed, ?_⟩, ?_⟩
  · intro other
    simp only [Function.update_apply, quiet.idle other]
    split
    · rfl
    · rfl
  · simp only [RowTable.autocommit, serve, accepted, found, Option.map_some]

/-! ## Replayed uploads -/

/-- An accepted upload has a sequence below 2^63, and one that replaces a
different stored document has a sequence strictly above that document's. -/
def ReplacesStrictly (packages : PackageRows I) : IndexRequest I → Prop
  | .publish _ _ _ _ _ => True
  | .upload request answers =>
    ∀ key encoded, checkSignedIndex I answers packages request = .ok (key, encoded) →
      request.document.payload.sequence < 2 ^ 63 ∧
        ∀ row stored, packages key = some row → storedIndex I row = some stored →
          stored ≠ request.document →
            stored.payload.sequence < request.document.payload.sequence

/-- Every request of the history meets the condition on the rows before it. -/
def AllReplaceStrictly : PackageRows I → List (IndexRequest I) → Prop
  | _, [] => True
  | packages, request :: rest =>
    ReplacesStrictly packages request ∧ AllReplaceStrictly (serve packages request) rest

/-- The counter passed the document, or the document is still the stored one. -/
def Current (document : SignedIndex I.Mirror) (row : Package I) : Prop :=
  storedIndex I row = some document ∧ (document.payload.sequence : Int) ≤ row.indexSequence ∨
    (document.payload.sequence : Int) < row.indexSequence

def Superseded (document : SignedIndex I.Mirror) (row : Package I) : Prop :=
  (document.payload.sequence : Int) < row.indexSequence

section Uploaded

variable (roundTrip : ∀ document value,
  I.indexToValue document = .ok value → I.indexFromValue value = some document)

theorem allReplaceStrictly_append (packages : PackageRows I)
    (early late : List (IndexRequest I)) :
    AllReplaceStrictly packages (early ++ late) ↔
      AllReplaceStrictly packages early ∧ AllReplaceStrictly (serveAll packages early) late := by
  induction early generalizing packages with
  | nil => simp [AllReplaceStrictly, serveAll]
  | cons request rest ih =>
      simp only [List.cons_append, AllReplaceStrictly, ih, serveAll, List.foldl_cons, and_assoc]

/-- A property that survives a raised counter and a strict replacement survives
a whole history. -/
theorem serveAll_preserves {good : Package I → Prop}
    (counter : ∀ row later : Package I, good row → later.signedIndex = row.signedIndex →
      row.indexSequence ≤ later.indexSequence → good later)
    (replaced : ∀ (row : Package I) (document : SignedIndex I.Mirror) (encoded : I.Value),
      good row → I.indexToValue document = .ok encoded →
      row.indexSequence ≤ document.payload.sequence → document.payload.sequence < 2 ^ 63 →
      (∀ stored, storedIndex I row = some stored → stored ≠ document →
        stored.payload.sequence < document.payload.sequence) →
      good (indexedPackage I row document encoded))
    {packages : PackageRows I} {requests : List (IndexRequest I)} {key : PackageKey}
    (strict : AllReplaceStrictly packages requests)
    (start : ∃ row, packages key = some row ∧ good row) :
    ∃ row, serveAll packages requests key = some row ∧ good row := by
  induction requests generalizing packages with
  | nil => exact start
  | cons request rest ih =>
      obtain ⟨row, found, holds⟩ := start
      obtain ⟨here, later⟩ := strict
      refine ih later ?_
      obtain ⟨after, stored, ⟨same, raised⟩ | ⟨upload, answers, encoded, rfl, accepted, rfl⟩⟩ :=
        serve_row found request
      · exact ⟨after, stored, counter row after holds same raised⟩
      · obtain ⟨⟨pkg, present, floor⟩, encodes⟩ := checkSignedIndex_ok I accepted
        rw [found] at present
        obtain rfl := Option.some.inj present
        obtain ⟨fits, strictly⟩ := here key encoded accepted
        exact ⟨_, stored, replaced row upload.document encoded holds encodes floor fits
          (fun stored kept differs => strictly row stored found kept differs)⟩

theorem superseded_serveAll {document : SignedIndex I.Mirror} {packages : PackageRows I}
    {requests : List (IndexRequest I)} {key : PackageKey}
    (strict : AllReplaceStrictly packages requests)
    (start : ∃ row, packages key = some row ∧ Superseded document row) :
    ∃ row, serveAll packages requests key = some row ∧ Superseded document row := by
  refine serveAll_preserves ?_ ?_ strict start
  · intro row later passed _ raised
    exact Int.lt_of_lt_of_le passed raised
  · intro row other encoded passed _ floor fits _
    unfold Superseded at passed ⊢
    rw [indexSequence_indexedPackage I row encoded fits]
    exact Int.lt_of_lt_of_le passed floor

include roundTrip

theorem current_serveAll {document : SignedIndex I.Mirror} {packages : PackageRows I}
    {requests : List (IndexRequest I)} {key : PackageKey}
    (strict : AllReplaceStrictly packages requests)
    (start : ∃ row, packages key = some row ∧ Current document row) :
    ∃ row, serveAll packages requests key = some row ∧ Current document row := by
  refine serveAll_preserves ?_ ?_ strict start
  · intro row later current same raised
    rcases current with ⟨stored, below⟩ | passed
    · exact Or.inl ⟨(storedIndex_congr same).trans stored, Int.le_trans below raised⟩
    · exact Or.inr (Int.lt_of_lt_of_le passed raised)
  · intro row other encoded current encodes floor fits strictly
    unfold Current
    rw [storedIndex_indexedPackage roundTrip encodes,
      indexSequence_indexedPackage I row encoded fits]
    rcases current with ⟨stored, below⟩ | passed
    · by_cases same : document = other
      · subst same
        exact Or.inl ⟨rfl, Int.le_refl _⟩
      · have above := strictly document stored same
        exact Or.inr (by omega)
    · exact Or.inr (Int.lt_of_lt_of_le passed floor)

/-- A document that was replaced by a different one is never accepted again. -/
theorem replayed_index_refused {packages : PackageRows I} {between after : List (IndexRequest I)}
    {first second : IndexUpload I} {firstAnswers secondAnswers : IndexAnswers}
    {key : PackageKey} {firstValue secondValue : I.Value}
    (strict : AllReplaceStrictly packages
      (.upload first firstAnswers :: between ++ .upload second secondAnswers :: after))
    (accepted : checkSignedIndex I firstAnswers packages first = .ok (key, firstValue))
    (replaced : checkSignedIndex I secondAnswers
      (serveAll (serve packages (.upload first firstAnswers)) between) second =
        .ok (key, secondValue))
    (differs : first.document ≠ second.document)
    {replay : IndexUpload I} {answers : IndexAnswers} {value : I.Value}
    (same : replay.document = first.document) :
    checkSignedIndex I answers
        (serveAll packages
          (.upload first firstAnswers :: between ++ .upload second secondAnswers :: after))
        replay ≠ .ok (key, value) := by
  intro replayed
  obtain ⟨here, later⟩ := strict
  obtain ⟨strictBetween, strictSecond, strictAfter⟩ :=
    (allReplaceStrictly_append _ between _).mp later
  obtain ⟨⟨row, found, floor⟩, encodes⟩ := checkSignedIndex_ok I accepted
  obtain ⟨fits, _⟩ := here key firstValue accepted
  have current : ∃ row, serve packages (.upload first firstAnswers) key = some row ∧
      Current first.document row := by
    refine ⟨_, serve_accepted accepted found,
      Or.inl ⟨storedIndex_indexedPackage roundTrip encodes row, ?_⟩⟩
    rw [indexSequence_indexedPackage I row firstValue fits]
  obtain ⟨row2, found2, current2⟩ := current_serveAll roundTrip strictBetween current
  obtain ⟨⟨row2', found2', floor2⟩, _⟩ := checkSignedIndex_ok I replaced
  rw [found2] at found2'
  obtain rfl := Option.some.inj found2'
  obtain ⟨fits2, strictly⟩ := strictSecond key secondValue replaced
  have superseded : ∃ row, serve (serveAll (serve packages (.upload first firstAnswers)) between)
      (.upload second secondAnswers) key = some row ∧ Superseded first.document row := by
    refine ⟨_, serve_accepted replaced found2, ?_⟩
    unfold Superseded
    rw [indexSequence_indexedPackage I row2 secondValue fits2]
    rcases current2 with ⟨stored, _⟩ | passed
    · have above := strictly row2 first.document found2 stored differs
      omega
    · omega
  obtain ⟨last, foundLast, passed⟩ := superseded_serveAll strictAfter superseded
  obtain ⟨⟨pkg, foundPkg, floorPkg⟩, _⟩ := checkSignedIndex_ok I replayed
  have sameRow : some pkg = some last := by
    rw [← foundPkg, ← foundLast]
    simp [serveAll]
  obtain rfl := Option.some.inj sameRow
  rw [same] at floorPkg
  unfold Superseded at passed
  omega

end Uploaded

/-! ## A sample package with one release -/

def sampleIndexWorld : IndexWorld (Interfaces.sample [] []) where
  packages :=
    { committed := Function.update (fun _ => none) (sampleOrg, "http-kit")
        (some (bumpedPackage _
          (insertedPackage _ ⟨"b3d1"⟩ sampleOrg "http-kit" samplePackage sampleTime)
          2 fitsI64_two))
      pending := fun _ => none }
  publishes _ := none
  uploads _ := none

def sampleIndexUpload (sequence : Nat) (versions : List IndexVersion) :
    IndexUpload (Interfaces.sample [] []) where
  authorization := some "Bearer zpkg_ci"
  orgSlug := "acme"
  name := "http-kit"
  document :=
    { schema := "zed.signed-index/v1"
      payload := ⟨"acme", "http-kit", sequence, versions, []⟩
      signatures := [Interfaces.sampleSignature] }

def sampleIndexAnswers : IndexAnswers where
  tokens _ := .ok (some sampleToken)
  now := sampleTime
  org := .ok (some acme)
  keys := .ok [Interfaces.sampleKey]

def samplePublish (txn : Nat) : List (IndexEvent (Interfaces.sample [] [])) :=
  [.upsert txn ⟨"b3d2"⟩ sampleOrg "http-kit" samplePackage sampleTime, .bump txn, .commit txn]

/-- The counter and the served sequence of the sample package after a run. -/
def sampleSequences (events : List (IndexEvent (Interfaces.sample [] []))) :
    Option (Int × Nat) :=
  (exec (indexStep _) sampleIndexWorld events).bind fun world =>
    (world.packages.committed (sampleOrg, "http-kit")).map fun row =>
      (row.indexSequence, servedSequence _ row)

def sampleSignedEarly : List (IndexEvent (Interfaces.sample [] [])) :=
  [.check 0 (sampleIndexUpload 2 []) sampleIndexAnswers, .update 0]

theorem sampleIndexWorld_fresh : sampleIndexWorld.Fresh where
  unlocked _ := rfl
  idle _ := rfl
  unsigned key row found := by
    simp only [sampleIndexWorld, Function.update_apply] at found
    split at found
    · obtain rfl := Option.some.inj found
      rfl
    · contradiction

theorem sample_index_roundTrip (document : SignedIndex String) (value : Interfaces.SampleValue)
    (encodes : (Interfaces.sample [] []).indexToValue document = .ok value) :
    (Interfaces.sample [] []).indexFromValue value = some document := by
  obtain rfl := Except.ok.inj encodes
  rfl

theorem index_sequence_monotone_sample :
    ∃ middle final row later,
      exec (indexStep _) sampleIndexWorld sampleSignedEarly = some middle ∧
        exec (indexStep _) middle (samplePublish 1) = some final ∧
        middle.packages.committed (sampleOrg, "http-kit") = some row ∧
        final.packages.committed (sampleOrg, "http-kit") = some later ∧
        row.indexSequence ≤ later.indexSequence := by
  obtain ⟨final, run⟩ := Option.isSome_iff_exists.mp (by decide +kernel :
    (exec (indexStep _) sampleIndexWorld (sampleSignedEarly ++ samplePublish 1)).isSome = true)
  obtain ⟨middle, reached, run⟩ := (exec_append_some (indexStep _)).mp run
  have seen : ((exec (indexStep _) sampleIndexWorld sampleSignedEarly).bind fun world =>
      world.packages.committed (sampleOrg, "http-kit")).isSome = true := by decide +kernel
  rw [reached] at seen
  obtain ⟨row, observed⟩ := Option.isSome_iff_exists.mp seen
  obtain ⟨later, found, counter, _⟩ := index_sequence_monotone sample_index_roundTrip
    sampleIndexWorld_fresh (by decide +kernel) reached run observed
  exact ⟨middle, final, row, later, reached, run, observed, found, counter⟩

/-- A publish commits between an upload's check and its update: both sequences
fall from 3 to 2. -/
theorem index_sequence_rolled_back :
    sampleSequences (.check 0 (sampleIndexUpload 2 []) sampleIndexAnswers :: samplePublish 1) =
        some (3, 3) ∧
      sampleSequences
        (.check 0 (sampleIndexUpload 2 []) sampleIndexAnswers :: samplePublish 1 ++
          [.update 0]) = some (2, 2) := by
  decide +kernel

/-! ## A replayed sample index -/

def sampleAccepts (sequence : Nat) (versions : List IndexVersion)
    (packages : PackageRows (Interfaces.sample [] [])) : Bool :=
  (checkSignedIndex _ sampleIndexAnswers packages
    (sampleIndexUpload sequence versions)).toBool

def sampleIndexRequest (sequence : Nat) (versions : List IndexVersion) :
    IndexRequest (Interfaces.sample [] []) :=
  .upload (sampleIndexUpload sequence versions) sampleIndexAnswers

theorem replayed_index_refused_sample :
    checkSignedIndex _ sampleIndexAnswers
        (serveAll sampleIndexWorld.packages.committed
          [sampleIndexRequest 2 [], sampleIndexRequest 3 []])
        (sampleIndexUpload 2 []) ≠
      .ok ((sampleOrg, "http-kit"), .index (sampleIndexUpload 2 []).document) := by
  have first : checkSignedIndex _ sampleIndexAnswers sampleIndexWorld.packages.committed
      (sampleIndexUpload 2 []) =
        .ok ((sampleOrg, "http-kit"), .index (sampleIndexUpload 2 []).document) := by
    decide +kernel
  have second : checkSignedIndex _ sampleIndexAnswers
      (serve sampleIndexWorld.packages.committed (sampleIndexRequest 2 []))
      (sampleIndexUpload 3 []) =
        .ok ((sampleOrg, "http-kit"), .index (sampleIndexUpload 3 []).document) := by
    decide +kernel
  have strict : AllReplaceStrictly sampleIndexWorld.packages.committed
      (.upload (sampleIndexUpload 2 []) sampleIndexAnswers :: [] ++
        .upload (sampleIndexUpload 3 []) sampleIndexAnswers :: []) := by
    refine ⟨?_, ?_, trivial⟩
    · intro key encoded accepted
      obtain ⟨rfl, rfl⟩ := Prod.mk.inj (Except.ok.inj (first.symm.trans accepted))
      refine ⟨by decide, fun row stored found kept _ => ?_⟩
      simp [storedIndex, sampleIndexWorld_fresh.unsigned _ row found] at kept
    · intro key encoded accepted
      obtain ⟨rfl, rfl⟩ := Prod.mk.inj (Except.ok.inj (second.symm.trans accepted))
      refine ⟨by decide, fun row stored found kept _ => ?_⟩
      obtain ⟨⟨before, present, _⟩, encodes⟩ := checkSignedIndex_ok _ first
      rw [serve_accepted first present] at found
      rw [← Option.some.inj found, storedIndex_indexedPackage sample_index_roundTrip encodes]
        at kept
      rw [← Option.some.inj kept]
      decide
  exact replayed_index_refused sample_index_roundTrip strict first second (by decide) rfl

/-- Two documents of one sequence replace each other in turn: the yanked release
is served as available again. -/
theorem replayed_index_accepted :
    sampleAccepts 2 [⟨"1.2.0", false⟩] sampleIndexWorld.packages.committed = true ∧
      sampleAccepts 2 [⟨"1.2.0", true⟩]
        (serveAll sampleIndexWorld.packages.committed
          [sampleIndexRequest 2 [⟨"1.2.0", false⟩]]) = true ∧
      sampleAccepts 2 [⟨"1.2.0", false⟩]
        (serveAll sampleIndexWorld.packages.committed
          [sampleIndexRequest 2 [⟨"1.2.0", false⟩],
            sampleIndexRequest 2 [⟨"1.2.0", true⟩]]) = true := by
  decide +kernel

end ZedRegistry
