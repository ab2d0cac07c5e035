import ZedRegistry.SignedIndex

/-!
# The index sequence in its column

An accepted sequence is a `u64`, its column an `i64`.  Which sequences the code reads back
from the column, as the floor of later uploads and as the counter it serves.
-/

set_option autoImplicit false

namespace ZedRegistry

variable {I : Interfaces}

/-- `index_sequence.max(0) as u64`, which `put_signed_index` compares uploads with. -/
def storedFloor (row : Package I) : Nat := (max row.indexSequence 0).toNat

/-- `index_sequence.max(1) as u64`, which `get_signed_index` puts into an assembled index. -/
def servedCounter (row : Package I) : Nat := (max row.indexSequence 1).toNat

theorem servedSequence_unsigned {row : Package I} (unsigned : storedIndex I row = none) :
    servedSequence I row = servedCounter row := by
  rw [servedSequence, unsigned]
  rfl

/-- An accepted upload reaches the floor of the row it was checked against. -/
theorem checkSignedIndex_floor {answers : IndexAnswers} {packages : PackageRows I}
    {upload : IndexUpload I} {key : PackageKey} {encoded : I.Value} {row : Package I}
    (accepted : checkSignedIndex I answers packages upload = .ok (key, encoded))
    (found : packages key = some row) : storedFloor row ≤ upload.document.payload.sequence := by
  obtain ⟨⟨pkg, present, floor⟩, -⟩ := checkSignedIndex_ok I accepted
  rw [found] at present
  obtain rfl := Option.some.inj present
  unfold storedFloor
  omega

/-- A row that holds `sequence` for everything that reads or bumps it. -/
structure SurvivesStorage (row : Package I) (sequence : Nat) : Prop where
  floor : storedFloor row = sequence
  counter : servedCounter row = sequence
  compared : ∀ answers packages key upload encoded, packages key = some row →
    checkSignedIndex I answers packages upload = .ok (key, encoded) →
    sequence ≤ upload.document.payload.sequence
  bumped : sequence ≤ storedFloor (countedPackage I row row)

theorem storedFloor_mono {row later : Package I}
    (raised : row.indexSequence ≤ later.indexSequence) : storedFloor row ≤ storedFloor later := by
  unfold storedFloor
  omega

theorem storedFloor_bumped (row : Package I) :
    storedFloor row ≤ storedFloor (countedPackage I row row) :=
  storedFloor_mono (le_nextSequence row.sequenceFits)

theorem survivesStorage_iff (row : Package I) (sequence : Nat) :
    SurvivesStorage row sequence ↔ storedFloor row = sequence ∧ servedCounter row = sequence := by
  constructor
  · intro survives
    exact ⟨survives.floor, survives.counter⟩
  · rintro ⟨floor, counter⟩
    refine ⟨floor, counter, ?_, floor ▸ storedFloor_bumped row⟩
    intro answers packages key upload encoded found accepted
    exact floor ▸ checkSignedIndex_floor accepted found

/-- `as i64` and back, through either clamp. -/
theorem survives_indexedPackage (row : Package I) (document : SignedIndex I.Mirror)
    (encoded : I.Value) :
    SurvivesStorage (indexedPackage I row document encoded) document.payload.sequence ↔
      1 ≤ document.payload.sequence ∧ document.payload.sequence < 2 ^ 63 := by
  rw [survivesStorage_iff]
  constructor
  · rintro ⟨floor, counter⟩
    -- the column holds an `i64`, so what comes back from it is below 2^63
    have fits := (indexedPackage I row document encoded).sequenceFits
    unfold FitsI64 at fits
    unfold storedFloor at floor
    unfold servedCounter at counter
    omega
  · rintro ⟨positive, fits⟩
    have stored := indexSequence_indexedPackage I row encoded fits
    unfold storedFloor servedCounter
    rw [stored]
    omega

/-! ## Over whole histories -/

/-- An upload that is accepted has a sequence below 2^63. -/
def AcceptsBelow (packages : PackageRows I) : IndexRequest I → Prop
  | .publish _ _ _ _ _ => True
  | .upload upload answers =>
    ∀ key encoded, checkSignedIndex I answers packages upload = .ok (key, encoded) →
      upload.document.payload.sequence < 2 ^ 63

def AllAcceptBelow : PackageRows I → List (IndexRequest I) → Prop
  | _, [] => True
  | packages, request :: rest =>
    AcceptsBelow packages request ∧ AllAcceptBelow (serve packages request) rest

theorem serve_floor {packages : PackageRows I} {request : IndexRequest I} {key : PackageKey}
    {row : Package I} (found : packages key = some row) (below : AcceptsBelow packages request) :
    ∃ later, serve packages request key = some later ∧ storedFloor row ≤ storedFloor later := by
  obtain ⟨later, stored, ⟨-, raised⟩ | ⟨upload, answers, encoded, rfl, accepted, rfl⟩⟩ :=
    serve_row found request
  · exact ⟨later, stored, storedFloor_mono raised⟩
  · refine ⟨_, stored, ?_⟩
    have reached := checkSignedIndex_floor accepted found
    have column := indexSequence_indexedPackage I row encoded (below key encoded accepted)
    unfold storedFloor at reached ⊢
    rw [column]
    omega

theorem serveAll_floor {packages : PackageRows I} {requests : List (IndexRequest I)}
    {key : PackageKey} {row : Package I} (found : packages key = some row)
    (below : AllAcceptBelow packages requests) :
    ∃ later, serveAll packages requests key = some later ∧
      storedFloor row ≤ storedFloor later := by
  induction requests generalizing packages row with
  | nil => exact ⟨row, found, Nat.le_refl _⟩
  | cons request rest ih =>
      obtain ⟨middle, stored, first⟩ := serve_floor found below.1
      obtain ⟨later, found, second⟩ := ih stored below.2
      exact ⟨later, found, Nat.le_trans first second⟩

/-- Exactly the sequences from 1 to 2^63 - 1 survive, whatever row the update finds; and over
a history that accepts sequences below 2^63 only, the floor they set is never lowered. -/
theorem accepted_sequence_survives_iff {answers : IndexAnswers} {packages : PackageRows I}
    {upload : IndexUpload I} {key : PackageKey} {encoded : I.Value}
    (accepted : checkSignedIndex I answers packages upload = .ok (key, encoded)) :
    (∀ row, SurvivesStorage (indexedPackage I row upload.document encoded)
        upload.document.payload.sequence ↔
      1 ≤ upload.document.payload.sequence ∧ upload.document.payload.sequence < 2 ^ 63) ∧
    ∀ requests, AllAcceptBelow packages (.upload upload answers :: requests) →
      ∃ later, serveAll packages (.upload upload answers :: requests) key = some later ∧
        upload.document.payload.sequence ≤ storedFloor later ∧
        ∀ answers' upload' encoded',
          checkSignedIndex I answers' (serveAll packages (.upload upload answers :: requests))
            upload' = .ok (key, encoded') →
          upload.document.payload.sequence ≤ upload'.document.payload.sequence := by
  refine ⟨fun row => survives_indexedPackage row upload.document encoded, ?_⟩
  rintro requests ⟨here, below⟩
  obtain ⟨⟨row, found, -⟩, -⟩ := checkSignedIndex_ok I accepted
  have stored := serve_accepted accepted found
  have column := indexSequence_indexedPackage I row encoded (here key encoded accepted)
  have floor : storedFloor (indexedPackage I row upload.document encoded) =
      upload.document.payload.sequence := by
    unfold storedFloor
    rw [column]
    omega
  obtain ⟨later, kept, raised⟩ := serveAll_floor stored below
  rw [floor] at raised
  refine ⟨later, kept, raised, fun answers' upload' encoded' accepted' => ?_⟩
  exact Nat.le_trans raised (checkSignedIndex_floor accepted' kept)

/-! ## The sample package -/

/-- The key of the row an upload to the sample package would update. -/
def sampleAccepted (packages : PackageRows (Interfaces.sample [] [])) (sequence : Nat) :
    Option PackageKey :=
  (checkSignedIndex _ sampleIndexAnswers packages (sampleIndexUpload sequence [])).toOption.map
    Prod.fst

theorem sampleAccepted_ok {packages : PackageRows (Interfaces.sample [] [])} {sequence : Nat}
    {key : PackageKey} (accepted : sampleAccepted packages sequence = some key) :
    ∃ encoded, checkSignedIndex _ sampleIndexAnswers packages (sampleIndexUpload sequence []) =
      .ok (key, encoded) := by
  unfold sampleAccepted at accepted
  cases outcome :
      checkSignedIndex _ sampleIndexAnswers packages (sampleIndexUpload sequence []) with
  | error error => simp [outcome, Except.toOption] at accepted
  | ok result =>
      simp only [outcome, Except.toOption, Option.map_some, Option.some.injEq] at accepted
      exact ⟨result.2, by rw [← accepted]⟩

theorem accepted_sequence_survives_iff_sample :
    ∃ encoded, checkSignedIndex _ sampleIndexAnswers sampleIndexWorld.packages.committed
        (sampleIndexUpload 5 []) = .ok ((sampleOrg, "http-kit"), encoded) ∧
      ∀ row,
        SurvivesStorage (indexedPackage _ row (sampleIndexUpload 5 []).document encoded) 5 := by
  obtain ⟨encoded, accepted⟩ := sampleAccepted_ok (by decide +kernel :
    sampleAccepted sampleIndexWorld.packages.committed 5 = some (sampleOrg, "http-kit"))
  refine ⟨encoded, accepted, fun row => ?_⟩
  exact ((accepted_sequence_survives_iff accepted).1 row).mpr ⟨by decide, by decide⟩

/-- 2^63 is accepted, the column holds -2^63, and an upload of sequence 0 is accepted next. -/
theorem upper_half_resets_floor :
    sampleAccepted sampleIndexWorld.packages.committed (2 ^ 63) = some (sampleOrg, "http-kit") ∧
      (serve sampleIndexWorld.packages.committed
          (.upload (sampleIndexUpload (2 ^ 63) []) sampleIndexAnswers)
          (sampleOrg, "http-kit")).map storedFloor = some 0 ∧
      sampleAccepted (serve sampleIndexWorld.packages.committed
          (.upload (sampleIndexUpload (2 ^ 63) []) sampleIndexAnswers)) 0 =
        some (sampleOrg, "http-kit") := by
  decide +kernel

end ZedRegistry
