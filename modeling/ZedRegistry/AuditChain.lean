import ZedRegistry.Digest
import ZedRegistry.Timestamp
import ZedRegistry.Lib.DigestChain

/-!
# The audit chain

The verifier of `audit.rs`: rows of one org in ascending `seq`, each hashed
over its own fields and its predecessor's hash.  `verifyChain` is the walk of
the source; `ExactChain` says what an intact log is meant to be.
-/

set_option autoImplicit false

namespace ZedRegistry

open DigestChain

/-- `entities::audit_log::Model`. -/
structure AuditLog where
  id : Uuid
  orgId : Uuid
  atTime : DateTimeUtc
  action : String
  subject : String
  actorTokenId : Option Uuid
  actorTokenName : String
  actorRole : String
  detail : Option String
  seq : Int
  entryHash : String
  prevHash : Option String
  seqFits : FitsI64 seq
  deriving DecidableEq

/-- The record that `audit_chain_preimage` lays out; `seq` is a `u64`. -/
structure AuditChainInput where
  orgId : String
  seq : Nat
  atTime : String
  action : String
  subject : String
  actorTokenId : Option String
  actorTokenName : String
  actorRole : String
  detail : Option String
  prevHash : String
  deriving DecidableEq

inductive ChainProblem where
  | hashMismatch
  | brokenLink
  | sequenceGap
  deriving DecidableEq

def ChainProblem.asStr : ChainProblem → String
  | .hashMismatch => "hash_mismatch"
  | .brokenLink => "broken_link"
  | .sequenceGap => "sequence_gap"

structure ChainReport where
  intact : Bool
  entriesChecked : Nat
  firstBadSeq : Option Int
  problem : Option ChainProblem
  headHash : Option String
  deriving DecidableEq

/-- The loop variables of `verify_chain`. -/
structure ChainWalk where
  prevHash : String
  expectedSeq : Option Int
  checked : Nat
  head : Option String

def ChainWalk.initial : ChainWalk := ⟨"", none, 0, none⟩

def ChainWalk.broken (walk : ChainWalk) (seq : Int) (problem : ChainProblem) : ChainReport :=
  ⟨false, walk.checked, some seq, some problem, walk.head⟩

def ChainWalk.finished (walk : ChainWalk) : ChainReport :=
  ⟨true, walk.checked, none, none, walk.head⟩

def AuditLog.isChained (row : AuditLog) : Bool := 0 < row.seq && row.entryHash != ""

def chainedRows (rows : List AuditLog) : List AuditLog := rows.filter AuditLog.isChained

section Verifier

variable (timestamps : Timestamps) (auditChainPreimage : AuditChainInput → String)
  (sha256 : Bytes → String)

def entryDigest (input : AuditChainInput) : String :=
  sha256 (asBytes (auditChainPreimage input))

def chainInput (row : AuditLog) (prevHash : String) : AuditChainInput where
  orgId := row.orgId.hyphenated
  seq := (row.seq % 2 ^ 64).toNat
  atTime := timestamps.toRfc3339 row.atTime
  action := row.action
  subject := row.subject
  actorTokenId := row.actorTokenId.map Uuid.hyphenated
  actorTokenName := row.actorTokenName
  actorRole := row.actorRole
  detail := row.detail
  prevHash := prevHash

def expectedHash (row : AuditLog) (prevHash : String) : String :=
  entryDigest auditChainPreimage sha256 (chainInput timestamps row prevHash)

/-- One turn of the loop: the report that ends it, or the next loop state. -/
def verifyRow (walk : ChainWalk) (row : AuditLog) : Except ChainReport ChainWalk :=
  match walk.expectedSeq.filter (fun want => row.seq != want) with
  | some want => .error (walk.broken want .sequenceGap)
  | none =>
    if expectedHash timestamps auditChainPreimage sha256 row walk.prevHash ≠ row.entryHash then
      .error (walk.broken row.seq
        (if expectedHash timestamps auditChainPreimage sha256 row (row.prevHash.getD "") =
            row.entryHash then .brokenLink else .hashMismatch))
    else
      .ok ⟨row.entryHash, some (wrapI64 (row.seq + 1)), walk.checked + 1, some row.entryHash⟩

def verifyRows (walk : ChainWalk) : List AuditLog → ChainReport
  | [] => walk.finished
  | row :: rest =>
    match verifyRow timestamps auditChainPreimage sha256 walk row with
    | .error report => report
    | .ok next => verifyRows next rest

def verifyChain (rows : List AuditLog) : ChainReport :=
  verifyRows timestamps auditChainPreimage sha256 .initial (chainedRows rows)

/-! ## What the walk establishes -/

/-- Each row's `seq` is the one the loop expects after its predecessor. -/
def Contiguous : Option Int → List AuditLog → Prop
  | _, [] => True
  | want, row :: rest =>
      (∀ seq, want = some seq → row.seq = seq) ∧ Contiguous (some (wrapI64 (row.seq + 1))) rest

theorem verifyRow_ok_iff (walk next : ChainWalk) (row : AuditLog) :
    verifyRow timestamps auditChainPreimage sha256 walk row = .ok next ↔
      (∀ seq, walk.expectedSeq = some seq → row.seq = seq) ∧
        expectedHash timestamps auditChainPreimage sha256 row walk.prevHash = row.entryHash ∧
          next = ⟨row.entryHash, some (wrapI64 (row.seq + 1)), walk.checked + 1,
            some row.entryHash⟩ := by
  have gap : walk.expectedSeq.filter (fun want => row.seq != want) = none ↔
      ∀ seq, walk.expectedSeq = some seq → row.seq = seq := by
    cases walk.expectedSeq with
    | none => simp
    | some want => simp
  unfold verifyRow
  cases expected : walk.expectedSeq.filter (fun want => row.seq != want) with
  | some want =>
      have noOrder : ¬∀ seq, walk.expectedSeq = some seq → row.seq = seq := by
        rw [← gap, expected]
        simp
      simp [noOrder]
  | none =>
      have order := gap.mp expected
      by_cases hashed :
          expectedHash timestamps auditChainPreimage sha256 row walk.prevHash = row.entryHash
      · simp only [hashed, ne_eq, not_true_eq_false, if_false, Except.ok.injEq, true_and]
        exact ⟨fun same => ⟨order, same.symm⟩, fun both => both.2.symm⟩
      · simp [hashed]

theorem verifyRow_error_not_intact {walk : ChainWalk} {row : AuditLog} {report : ChainReport}
    (failed : verifyRow timestamps auditChainPreimage sha256 walk row = .error report) :
    report.intact = false := by
  unfold verifyRow at failed
  split at failed
  · obtain rfl := Except.error.inj failed
    rfl
  · split_ifs at failed
    all_goals
      obtain rfl := Except.error.inj failed
      rfl

theorem verifyRows_intact_iff (walk : ChainWalk) (rows : List AuditLog) :
    (verifyRows timestamps auditChainPreimage sha256 walk rows).intact = true ↔
      Contiguous walk.expectedSeq rows ∧
        Linked (expectedHash timestamps auditChainPreimage sha256) AuditLog.entryHash
          walk.prevHash rows := by
  induction rows generalizing walk with
  | nil => simp [verifyRows, ChainWalk.finished, Contiguous, Linked]
  | cons row rest ih =>
      have accepted := verifyRow_ok_iff timestamps auditChainPreimage sha256 walk
      cases outcome : verifyRow timestamps auditChainPreimage sha256 walk row with
      | error report =>
          have broken := verifyRow_error_not_intact timestamps auditChainPreimage sha256 outcome
          simp only [verifyRows, outcome, broken, Contiguous, Linked]
          constructor
          · intro intact
            contradiction
          · rintro ⟨⟨order, _⟩, hashed, _⟩
            have passes := (accepted _ row).mpr ⟨order, hashed, rfl⟩
            rw [outcome] at passes
            contradiction
      | ok next =>
          obtain ⟨order, hashed, rfl⟩ := (accepted next row).mp outcome
          simp only [verifyRows, outcome, ih, Contiguous, Linked]
          constructor
          · rintro ⟨later, linked⟩
            exact ⟨⟨order, later⟩, hashed, linked⟩
          · rintro ⟨⟨_, later⟩, _, linked⟩
            exact ⟨later, linked⟩

/-- The head of an intact walk is the last row's hash. -/
theorem verifyRows_headHash {walk : ChainWalk} {rows : List AuditLog}
    (intact : (verifyRows timestamps auditChainPreimage sha256 walk rows).intact = true)
    (start : walk.head = if walk.prevHash = "" then none else some walk.prevHash)
    (hashes : ∀ row ∈ rows, row.entryHash ≠ "") :
    (verifyRows timestamps auditChainPreimage sha256 walk rows).headHash =
      (let last := tip AuditLog.entryHash walk.prevHash rows
       if last = "" then none else some last) := by
  induction rows generalizing walk with
  | nil => exact start
  | cons row rest ih =>
      cases outcome : verifyRow timestamps auditChainPreimage sha256 walk row with
      | error report =>
          have broken := verifyRow_error_not_intact timestamps auditChainPreimage sha256 outcome
          simp [verifyRows, outcome, broken] at intact
      | ok next =>
          obtain ⟨_, _, rfl⟩ :=
            (verifyRow_ok_iff timestamps auditChainPreimage sha256 walk next row).mp outcome
          simp only [verifyRows, outcome] at intact ⊢
          have rowHash : row.entryHash ≠ "" := hashes row (by simp)
          exact ih intact (by simp [rowHash]) fun other member => hashes other (by simp [member])

/-- An intact walk checks every row it is given. -/
theorem verifyRows_entriesChecked {walk : ChainWalk} {rows : List AuditLog}
    (intact : (verifyRows timestamps auditChainPreimage sha256 walk rows).intact = true) :
    (verifyRows timestamps auditChainPreimage sha256 walk rows).entriesChecked =
      walk.checked + rows.length := by
  induction rows generalizing walk with
  | nil => rfl
  | cons row rest ih =>
      cases outcome : verifyRow timestamps auditChainPreimage sha256 walk row with
      | error report =>
          have broken := verifyRow_error_not_intact timestamps auditChainPreimage sha256 outcome
          simp [verifyRows, outcome, broken] at intact
      | ok next =>
          obtain ⟨_, _, rfl⟩ :=
            (verifyRow_ok_iff timestamps auditChainPreimage sha256 walk next row).mp outcome
          simp only [verifyRows, outcome] at intact ⊢
          have later := ih intact
          simp only [List.length_cons] at later ⊢
          omega

theorem entryHash_ne_empty_of_mem_chainedRows {rows : List AuditLog} {row : AuditLog}
    (member : row ∈ chainedRows rows) : 0 < row.seq ∧ row.entryHash ≠ "" := by
  have chained := (List.mem_filter.mp member).2
  simpa [AuditLog.isChained] using chained

theorem verifyChain_intact_iff (rows : List AuditLog) :
    (verifyChain timestamps auditChainPreimage sha256 rows).intact = true ↔
      Contiguous none (chainedRows rows) ∧
        Linked (expectedHash timestamps auditChainPreimage sha256) AuditLog.entryHash ""
          (chainedRows rows) :=
  verifyRows_intact_iff timestamps auditChainPreimage sha256 .initial (chainedRows rows)

theorem verifyChain_headHash {rows : List AuditLog}
    (intact : (verifyChain timestamps auditChainPreimage sha256 rows).intact = true) :
    (verifyChain timestamps auditChainPreimage sha256 rows).headHash =
      (let last := tip AuditLog.entryHash "" (chainedRows rows)
       if last = "" then none else some last) :=
  verifyRows_headHash timestamps auditChainPreimage sha256 intact rfl
    fun _ member => (entryHash_ne_empty_of_mem_chainedRows member).2

/-- The head of an intact log is the hash of its newest chained entry. -/
theorem verifyChain_headHash_newest {rows : List AuditLog}
    (intact : (verifyChain timestamps auditChainPreimage sha256 rows).intact = true) :
    (verifyChain timestamps auditChainPreimage sha256 rows).headHash =
      (chainedRows rows).getLast?.map AuditLog.entryHash := by
  rw [verifyChain_headHash timestamps auditChainPreimage sha256 intact, tip_eq_getLast]
  cases newest : (chainedRows rows).getLast? with
  | none => rfl
  | some row =>
      have hashed :=
        (entryHash_ne_empty_of_mem_chainedRows (List.mem_of_getLast? newest)).2
      simp [hashed]

theorem verifyChain_entriesChecked {rows : List AuditLog}
    (intact : (verifyChain timestamps auditChainPreimage sha256 rows).intact = true) :
    (verifyChain timestamps auditChainPreimage sha256 rows).entriesChecked =
      (chainedRows rows).length := by
  have checked := verifyRows_entriesChecked timestamps auditChainPreimage sha256 intact
  exact checked.trans (Nat.zero_add _)

end Verifier

/-! ## A sample log

`netstringPreimage` is an injective layout, and the sample digests are the
SHA-256 values of its two inputs. -/

open DecimalText in
def netstringPreimage (input : AuditChainInput) : String :=
  String.ofList (netstrings [input.orgId.toList, Nat.toDigits 10 input.seq,
    input.atTime.toList, input.action.toList, input.subject.toList,
    optional input.actorTokenId, input.actorTokenName.toList, input.actorRole.toList,
    optional input.detail, input.prevHash.toList])

open DecimalText in
theorem netstringPreimage_injective : Function.Injective netstringPreimage := by
  intro left right same
  have fields := netstrings_injective (String.ofList_injective same)
  simp only [List.cons.injEq, and_true, String.toList_inj] at fields
  obtain ⟨org, seq, time, action, subject, tokenId, tokenName, role, detail, previous⟩ := fields
  have sameSeq := congrArg (fun digits => Nat.ofDigitChars 10 digits 0) seq
  simp only [Nat.ofDigitChars_ten_toDigits] at sameSeq
  have sameToken := optional_injective tokenId
  have sameDetail := optional_injective detail
  cases left
  cases right
  simp_all

def firstHash : String :=
  "888513184659827311ef8e95c021b3990a5288b24ad340e3eb7686a18ec24738"

def secondHash : String :=
  "1f7bf7f309280ca95f8a7f91744e1263e7c55ae54ee179a10ec606450d4d0b5a"

def firstEntry : AuditLog where
  id := ⟨"8d3e6c60-0f67-4f0e-9d55-8c3c1a1f0a01"⟩
  orgId := sampleOrg
  atTime := sampleTime
  action := "publish"
  subject := "acme/http-kit@1.2.0"
  actorTokenId := none
  actorTokenName := "ci"
  actorRole := "admin"
  detail := none
  seq := 1
  entryHash := firstHash
  prevHash := none
  seqFits := by decide

def secondEntry : AuditLog where
  id := ⟨"8d3e6c60-0f67-4f0e-9d55-8c3c1a1f0a02"⟩
  orgId := sampleOrg
  atTime := sampleTime
  action := "yank"
  subject := "acme/http-kit@1.2.0"
  actorTokenId := none
  actorTokenName := "ci"
  actorRole := "admin"
  detail := some "broken build"
  seq := 2
  entryHash := secondHash
  prevHash := some firstHash
  seqFits := by decide

def legacyEntry : AuditLog :=
  { firstEntry with seq := 0, entryHash := "", seqFits := by decide }

def sampleDigests : Bytes → String :=
  tabulated
    [(asBytes (netstringPreimage (chainInput civil firstEntry "")), firstHash),
      (asBytes (netstringPreimage (chainInput civil secondEntry firstHash)), secondHash)]

/-! ## What an intact log is -/

section Exactness

variable (timestamps : Timestamps) (auditChainPreimage : AuditChainInput → String)
  (sha256 : Bytes → String)

/-- The row's `seq` and hash continue the row before it. -/
def ContinuesHash (previous : Option AuditLog) (row : AuditLog) : Prop :=
  (∀ earlier, previous = some earlier → row.seq = earlier.seq + 1) ∧
    expectedHash timestamps auditChainPreimage sha256 row
      (previous.elim "" AuditLog.entryHash) = row.entryHash

/-- The stored link column names the row before it. -/
def ContinuesLink (previous : Option AuditLog) (row : AuditLog) : Prop :=
  row.prevHash = previous.map AuditLog.entryHash

instance (previous : Option AuditLog) (row : AuditLog) :
    Decidable (ContinuesLink previous row) :=
  inferInstanceAs (Decidable (_ = _))

/-- No row with an empty hash comes after a row with a hash. -/
def NoBlankedRow (rows : List AuditLog) : Prop :=
  rows.Pairwise fun early late => early.entryHash ≠ "" → late.entryHash ≠ ""

instance (rows : List AuditLog) : Decidable (NoBlankedRow rows) :=
  inferInstanceAs (Decidable (List.Pairwise _ _))

/-- Legacy rows, then rows that each continue their predecessor in every
column. -/
def ExactChain (rows : List AuditLog) : Prop :=
  ∃ legacy chained, rows = legacy ++ chained ∧
    (∀ row ∈ legacy, row.seq ≤ 0 ∨ row.entryHash = "") ∧
    (∀ row ∈ chained, 0 < row.seq ∧ row.entryHash ≠ "") ∧
    EachFollows (fun previous row =>
      ContinuesHash timestamps auditChainPreimage sha256 previous row ∧
        ContinuesLink previous row) none chained ∧
    NoBlankedRow rows

theorem isChained_iff (row : AuditLog) :
    row.isChained = true ↔ 0 < row.seq ∧ row.entryHash ≠ "" := by
  simp [AuditLog.isChained]

theorem not_isChained_iff (row : AuditLog) :
    ¬row.isChained = true ↔ row.seq ≤ 0 ∨ row.entryHash = "" := by
  rw [isChained_iff]
  by_cases blank : row.entryHash = ""
  · simp [blank]
  · simp [blank]

theorem chainedRows_append {legacy chained : List AuditLog}
    (unchained : ∀ row ∈ legacy, row.seq ≤ 0 ∨ row.entryHash = "")
    (linked : ∀ row ∈ chained, 0 < row.seq ∧ row.entryHash ≠ "") :
    chainedRows (legacy ++ chained) = chained := by
  have front : legacy.filter AuditLog.isChained = [] := by
    rw [List.filter_eq_nil_iff]
    intro row member
    exact (not_isChained_iff row).mpr (unchained row member)
  have back : chained.filter AuditLog.isChained = chained := by
    rw [List.filter_eq_self]
    intro row member
    exact (isChained_iff row).mpr (linked row member)
  rw [chainedRows, List.filter_append, front, back, List.nil_append]

/-- Sorted rows without a blanked one are legacy rows followed by chained ones. -/
theorem split_of_sorted {rows : List AuditLog}
    (sorted : rows.Pairwise fun early late => early.seq ≤ late.seq)
    (noBlank : NoBlankedRow rows) :
    rows = (rows.filter fun row => !row.isChained) ++ chainedRows rows := by
  induction rows with
  | nil => rfl
  | cons row rest ih =>
      obtain ⟨rowFirst, restSorted⟩ := List.pairwise_cons.mp sorted
      obtain ⟨rowBlank, restBlank⟩ := List.pairwise_cons.mp noBlank
      cases chained : row.isChained with
      | false =>
          have later := ih restSorted restBlank
          simp only [chainedRows, List.filter_cons, chained, Bool.not_false, if_true,
            List.cons_append, Bool.false_eq_true, if_false]
          rw [← chainedRows, ← later]
      | true =>
          obtain ⟨positive, hashed⟩ := (isChained_iff row).mp chained
          have allChained : ∀ other ∈ rest, other.isChained = true := by
            intro other member
            have order := rowFirst other member
            exact (isChained_iff other).mpr ⟨by omega, rowBlank other member hashed⟩
          have none : (row :: rest).filter (fun other => !other.isChained) = [] := by
            rw [List.filter_eq_nil_iff]
            intro other member
            rcases List.mem_cons.mp member with rfl | member
            · simp [chained]
            · simp [allChained other member]
          have all : chainedRows (row :: rest) = row :: rest := by
            rw [chainedRows, List.filter_eq_self]
            intro other member
            rcases List.mem_cons.mp member with rfl | member
            · exact chained
            · exact allChained other member
          rw [none, all, List.nil_append]

theorem wrapI64_next {seq next : Int} (fits : FitsI64 seq) (nextFits : FitsI64 next)
    (positive : 0 < next) : next = wrapI64 (seq + 1) ↔ next = seq + 1 := by
  obtain ⟨low, high⟩ := fits
  obtain ⟨nextLow, nextHigh⟩ := nextFits
  by_cases top : seq + 1 < 2 ^ 63
  · rw [wrapI64_of_fits ⟨by omega, top⟩]
  · have wrapped : wrapI64 (seq + 1) = -2 ^ 63 := by
      have value : seq + 1 = 2 ^ 63 := by omega
      rw [value]
      decide +kernel
    rw [wrapped]
    omega

/-- The loop's bookkeeping in terms of the row before. -/
theorem contiguous_linked_iff (previous : Option AuditLog) (rows : List AuditLog)
    (positive : ∀ row ∈ rows, 0 < row.seq) :
    (Contiguous (previous.map fun row => wrapI64 (row.seq + 1)) rows ∧
        Linked (expectedHash timestamps auditChainPreimage sha256) AuditLog.entryHash
          (previous.elim "" AuditLog.entryHash) rows) ↔
      EachFollows (ContinuesHash timestamps auditChainPreimage sha256) previous rows := by
  unfold ContinuesHash
  rw [eachFollows_and, eachFollows_digest_iff_linked]
  refine and_congr ?_ Iff.rfl
  induction rows generalizing previous with
  | nil => simp [Contiguous, EachFollows]
  | cons row rest ih =>
      have rowPositive := positive row (by simp)
      have later := ih (some row) fun other member => positive other (by simp [member])
      simp only [Contiguous, EachFollows]
      refine and_congr ?_ later
      cases previous with
      | none => simp
      | some earlier =>
          have next := wrapI64_next earlier.seqFits row.seqFits rowPositive
          simp [next]

theorem verifyChain_intact_iff_continuesHash (rows : List AuditLog) :
    (verifyChain timestamps auditChainPreimage sha256 rows).intact = true ↔
      EachFollows (ContinuesHash timestamps auditChainPreimage sha256) none
        (chainedRows rows) := by
  rw [verifyChain_intact_iff]
  exact contiguous_linked_iff timestamps auditChainPreimage sha256 none (chainedRows rows)
    fun _ member => (entryHash_ne_empty_of_mem_chainedRows member).1

/-- The rows up to any point of an intact log are an intact log. -/
theorem verifyChain_intact_of_append {early late : List AuditLog}
    (intact : (verifyChain timestamps auditChainPreimage sha256 (early ++ late)).intact = true) :
    (verifyChain timestamps auditChainPreimage sha256 early).intact = true := by
  rw [verifyChain_intact_iff_continuesHash] at intact ⊢
  rw [chainedRows, List.filter_append] at intact
  exact ((eachFollows_append _ _ _ _).mp intact).1

theorem exactChain_iff {rows : List AuditLog}
    (sorted : rows.Pairwise fun early late => early.seq ≤ late.seq) :
    ExactChain timestamps auditChainPreimage sha256 rows ↔
      EachFollows (ContinuesHash timestamps auditChainPreimage sha256) none
          (chainedRows rows) ∧
        EachFollows ContinuesLink none (chainedRows rows) ∧ NoBlankedRow rows := by
  constructor
  · rintro ⟨legacy, chained, rfl, unchained, linked, follows, noBlank⟩
    rw [chainedRows_append unchained linked]
    obtain ⟨hashes, links⟩ := (eachFollows_and _ _ none chained).mp follows
    exact ⟨hashes, links, noBlank⟩
  · rintro ⟨hashes, links, noBlank⟩
    refine ⟨_, _, split_of_sorted sorted noBlank, ?_, ?_, ?_, noBlank⟩
    · intro row member
      apply (not_isChained_iff row).mp
      simpa using (List.mem_filter.mp member).2
    · intro row member
      exact entryHash_ne_empty_of_mem_chainedRows member
    · exact (eachFollows_and _ _ none _).mpr ⟨hashes, links⟩

/-- The verdict is exact unless a hash-linked log carries a wrong link column
or a blanked row: `verify_chain` reads neither. -/
theorem verifyChain_exact_iff {rows : List AuditLog}
    (sorted : rows.Pairwise fun early late => early.seq ≤ late.seq) :
    ((verifyChain timestamps auditChainPreimage sha256 rows).intact = true ↔
        ExactChain timestamps auditChainPreimage sha256 rows) ↔
      (EachFollows (ContinuesHash timestamps auditChainPreimage sha256) none
          (chainedRows rows) →
        EachFollows ContinuesLink none (chainedRows rows) ∧ NoBlankedRow rows) := by
  rw [verifyChain_intact_iff_continuesHash, exactChain_iff _ _ _ sorted]
  constructor
  · intro exact hashed
    exact (exact.mp hashed).2
  · intro columns
    constructor
    · intro hashed
      exact ⟨hashed, columns hashed⟩
    · intro exact
      exact exact.1

end Exactness

theorem sampleDigests_collisionFree : CollisionFree sampleDigests :=
  tabulated_collisionFree (by decide) (by decide)

theorem firstEntry_hash :
    expectedHash civil netstringPreimage sampleDigests firstEntry "" = firstHash := by
  rw [expectedHash, entryDigest, sampleDigests, tabulated_self]

theorem secondEntry_hash :
    expectedHash civil netstringPreimage sampleDigests secondEntry firstHash = secondHash := by
  rw [expectedHash, entryDigest, sampleDigests, tabulated_other, tabulated_self]
  intro same
  have inputs := netstringPreimage_injective (asBytes_injective same)
  exact absurd (congrArg AuditChainInput.seq inputs) (by decide)

/-- The sample rows verify whatever their link column holds. -/
theorem sample_intact {rows : List AuditLog} {link : Option String}
    (chained : chainedRows rows = [firstEntry, { secondEntry with prevHash := link }]) :
    (verifyChain civil netstringPreimage sampleDigests rows).intact = true := by
  rw [verifyChain_intact_iff_continuesHash, chained]
  refine ⟨⟨by simp, firstEntry_hash⟩, ⟨?_, secondEntry_hash⟩, trivial⟩
  rintro earlier ⟨⟩
  rfl

theorem sample_headHash {rows : List AuditLog} {link : Option String}
    (chained : chainedRows rows = [firstEntry, { secondEntry with prevHash := link }]) :
    (verifyChain civil netstringPreimage sampleDigests rows).headHash = some secondHash := by
  rw [verifyChain_headHash _ _ _ (sample_intact chained), chained]
  rfl

theorem verifyChain_exact_sample :
    ExactChain civil netstringPreimage sampleDigests [legacyEntry, firstEntry, secondEntry] := by
  have sorted : [legacyEntry, firstEntry, secondEntry].Pairwise
      fun early late => early.seq ≤ late.seq := by decide
  have chained : chainedRows [legacyEntry, firstEntry, secondEntry] =
      [firstEntry, secondEntry] := rfl
  have links : EachFollows ContinuesLink none [firstEntry, secondEntry] := by decide
  have exact := (verifyChain_exact_iff civil netstringPreimage sampleDigests sorted).mpr
    fun _ => ⟨chained ▸ links, by decide⟩
  exact exact.mp (sample_intact chained)

/-- A log whose second row had its stored `prev_hash` overwritten is reported
intact. -/
theorem verifyChain_overwritten_link :
    (verifyChain civil netstringPreimage sampleDigests
        [firstEntry, { secondEntry with prevHash := some "overwritten" }]).intact = true ∧
      ¬ExactChain civil netstringPreimage sampleDigests
        [firstEntry, { secondEntry with prevHash := some "overwritten" }] := by
  refine ⟨sample_intact rfl, fun exact => ?_⟩
  have links := ((exactChain_iff civil netstringPreimage sampleDigests (by decide)).mp exact).2.1
  exact absurd links (by decide)

/-! ## The head binds the history -/

/-- The fields a digest covers, besides the predecessor's hash. -/
structure HashedFields where
  orgId : Uuid
  seq : Int
  atTime : DateTimeUtc
  action : String
  subject : String
  actorTokenId : Option Uuid
  actorTokenName : String
  actorRole : String
  detail : Option String

def AuditLog.hashedFields (row : AuditLog) : HashedFields :=
  ⟨row.orgId, row.seq, row.atTime, row.action, row.subject, row.actorTokenId,
    row.actorTokenName, row.actorRole, row.detail⟩

theorem Uuid.hyphenated_injective : Function.Injective Uuid.hyphenated := by
  intro left right same
  cases left
  cases right
  exact congrArg Uuid.mk same

section Binding

variable {timestamps : Timestamps} {auditChainPreimage : AuditChainInput → String}
  {sha256 : Bytes → String}

theorem chainInput_binds (rendered : Function.Injective timestamps.toRfc3339)
    {left right : AuditLog} {leftPrevious rightPrevious : String}
    (same : chainInput timestamps left leftPrevious =
      chainInput timestamps right rightPrevious) :
    left.hashedFields = right.hashedFields ∧ leftPrevious = rightPrevious := by
  simp only [chainInput, AuditChainInput.mk.injEq] at same
  obtain ⟨org, seq, time, action, subject, tokenId, tokenName, role, detail, previous⟩ := same
  have sameSeq : left.seq = right.seq := by
    have leftFits := left.seqFits
    have rightFits := right.seqFits
    unfold FitsI64 at leftFits rightFits
    omega
  have sameOrg := Uuid.hyphenated_injective org
  have sameTime := rendered time
  have sameToken := Option.map_injective Uuid.hyphenated_injective tokenId
  refine ⟨?_, previous⟩
  simp only [AuditLog.hashedFields, sameOrg, sameSeq, sameTime, action, subject, sameToken,
    tokenName, role, detail]

theorem expectedHash_binds (ideal : CollisionFree sha256)
    (injective : Function.Injective auditChainPreimage)
    (rendered : Function.Injective timestamps.toRfc3339)
    (left right : AuditLog) (leftPrevious rightPrevious : String)
    (same : expectedHash timestamps auditChainPreimage sha256 left leftPrevious =
      expectedHash timestamps auditChainPreimage sha256 right rightPrevious) :
    left.hashedFields = right.hashedFields ∧ leftPrevious = rightPrevious :=
  chainInput_binds rendered (injective (asBytes_injective (ideal.injective same)))

/-- Two intact logs with one head hash have the same chained history. -/
theorem verifyChain_head_binds (ideal : CollisionFree sha256)
    (injective : Function.Injective auditChainPreimage)
    (rendered : Function.Injective timestamps.toRfc3339) {left right : List AuditLog}
    (leftIntact : (verifyChain timestamps auditChainPreimage sha256 left).intact = true)
    (rightIntact : (verifyChain timestamps auditChainPreimage sha256 right).intact = true)
    {head : String}
    (leftHead : (verifyChain timestamps auditChainPreimage sha256 left).headHash = some head)
    (rightHead :
      (verifyChain timestamps auditChainPreimage sha256 right).headHash = some head) :
    (chainedRows left).length = (chainedRows right).length ∧
      (chainedRows left).map AuditLog.hashedFields =
        (chainedRows right).map AuditLog.hashedFields ∧
      (chainedRows left).map AuditLog.entryHash =
        (chainedRows right).map AuditLog.entryHash := by
  have tipIs : ∀ {rows : List AuditLog},
      (verifyChain timestamps auditChainPreimage sha256 rows).intact = true →
      (verifyChain timestamps auditChainPreimage sha256 rows).headHash = some head →
      tip AuditLog.entryHash "" (chainedRows rows) = head := by
    intro rows intact isHead
    rw [verifyChain_headHash timestamps auditChainPreimage sha256 intact] at isHead
    simp only [Option.ite_none_left_eq_some, Option.some.injEq] at isHead
    exact isHead.2
  have leftLinked := ((verifyChain_intact_iff _ _ _ left).mp leftIntact).2
  have rightLinked := ((verifyChain_intact_iff _ _ _ right).mp rightIntact).2
  have sameTip := (tipIs leftIntact leftHead).trans (tipIs rightIntact rightHead).symm
  obtain ⟨fields, hashes⟩ := eq_of_tip_eq (expectedHash timestamps auditChainPreimage sha256)
    AuditLog.entryHash AuditLog.hashedFields
    (expectedHash_binds ideal injective rendered)
    (fun _ _ => ideal.nonempty _) leftLinked rightLinked sameTip
  have lengths := congrArg List.length fields
  rw [List.length_map, List.length_map] at lengths
  exact ⟨lengths, fields, hashes⟩

end Binding

theorem verifyChain_head_binds_sample :
    (chainedRows [firstEntry, secondEntry]).map AuditLog.hashedFields =
      (chainedRows [legacyEntry, firstEntry, secondEntry]).map AuditLog.hashedFields :=
  (verifyChain_head_binds sampleDigests_collisionFree netstringPreimage_injective
    civil_lawful.toRfc3339_injective (sample_intact rfl) (sample_intact rfl)
    (sample_headHash rfl) (sample_headHash rfl)).2.1

end ZedRegistry
