import Mathlib
import ZedRegistry.AuditAppendRuns
import ZedRegistry.Lib.CountRank

/-!
# The audit backfill

The migration `m20260726_000008_audit_chain.rs` adds the chain columns to a
table that already holds rows, numbers those rows with `LEGACY_SEQ_BACKFILL_SQL`
and creates the unique index.  What `append_chained` writes afterwards starts a
chain after the legacy rows.
-/

set_option autoImplicit false

namespace ZedRegistry

open DigestChain

/-- A row of `audit_log` as `m20260725_000006_audit_log.rs` creates it. -/
structure LegacyRow where
  id : Uuid
  orgId : Uuid
  atTime : DateTimeUtc
  action : String
  subject : String
  actorTokenId : Option Uuid
  actorTokenName : String
  actorRole : String
  detail : Option String
  deriving DecidableEq

/-- `id` is the primary key, and `COUNT(*)` is a `bigint`. -/
structure LegacyTable where
  rows : List LegacyRow
  primaryKey : (rows.map LegacyRow.id).Nodup
  countable : rows.length < 2 ^ 63

structure AuditTable where
  rows : List AuditLog
  primaryKey : (rows.map AuditLog.id).Nodup
  countable : rows.length < 2 ^ 63

/-! ## The migration -/

/-- The defaults of the three new columns. -/
def LegacyRow.withDefaults (row : LegacyRow) : AuditLog where
  id := row.id
  orgId := row.orgId
  atTime := row.atTime
  action := row.action
  subject := row.subject
  actorTokenId := row.actorTokenId
  actorTokenName := row.actorTokenName
  actorRole := row.actorRole
  detail := row.detail
  seq := 0
  entryHash := ""
  prevHash := none
  seqFits := fitsI64_zero

def addColumns (legacy : LegacyTable) : AuditTable where
  rows := legacy.rows.map LegacyRow.withDefaults
  primaryKey := by
    rw [List.map_map]
    exact legacy.primaryKey
  countable := by
    rw [List.length_map]
    exact legacy.countable

/-- The `WHERE` of the correlated count; a `uuid` compares as its hyphenated text. -/
def countedBefore (earlier row : AuditLog) : Bool :=
  decide (earlier.orgId = row.orgId) &&
    (decide (earlier.atTime.ordinal < row.atTime.ordinal) ||
      decide (earlier.atTime.ordinal = row.atTime.ordinal) &&
        decide (earlier.id.hyphenated ≤ row.id.hyphenated))

def legacySeq (rows : List AuditLog) (row : AuditLog) : Nat :=
  rows.countP fun earlier => countedBefore earlier row

namespace AuditTable

theorem legacySeq_fits (table : AuditTable) (row : AuditLog) :
    FitsI64 (legacySeq table.rows row : Int) := by
  have bounded : legacySeq table.rows row ≤ table.rows.length := List.countP_le_length
  have countable := table.countable
  exact ⟨by omega, by omega⟩

def renumbered (table : AuditTable) (row : AuditLog) : AuditLog :=
  { row with seq := legacySeq table.rows row, seqFits := table.legacySeq_fits row }

/-- The `UPDATE`: every count is taken over the table as it was before. -/
def backfillLegacySeq (table : AuditTable) : AuditTable where
  rows := table.rows.map table.renumbered
  primaryKey := by
    rw [List.map_map]
    exact table.primaryKey
  countable := by
    rw [List.length_map]
    exact table.countable

/-- A unique index cannot be created over two rows with one key. -/
def createIndex (table : AuditTable) : Option AuditTable :=
  if (table.rows.map AuditLog.key).Nodup then some table else none

end AuditTable

/-- `up`; `none` when the index cannot be created. -/
def up (legacy : LegacyTable) : Option AuditTable :=
  (addColumns legacy).backfillLegacySeq.createIndex

/-! ## Positions -/

/-- The order in which the rows of an org were recorded. -/
def RecordedBefore (early late : AuditLog) : Prop :=
  early.atTime.ordinal < late.atTime.ordinal ∨
    early.atTime.ordinal = late.atTime.ordinal ∧ early.id.hyphenated < late.id.hyphenated

def recorded (row : AuditLog) : Int ×ₗ String := toLex (row.atTime.ordinal, row.id.hyphenated)

theorem recorded_lt_iff {early late : AuditLog} :
    recorded early < recorded late ↔ RecordedBefore early late :=
  Prod.Lex.toLex_lt_toLex

theorem countedBefore_iff {earlier row : AuditLog} :
    countedBefore earlier row = true ↔
      earlier.orgId = row.orgId ∧ recorded earlier ≤ recorded row := by
  have lexical : recorded earlier ≤ recorded row ↔
      earlier.atTime.ordinal < row.atTime.ordinal ∨
        earlier.atTime.ordinal = row.atTime.ordinal ∧
          earlier.id.hyphenated ≤ row.id.hyphenated :=
    Prod.Lex.toLex_le_toLex
  rw [lexical]
  simp [countedBefore]

/-- The correlated count is the rank within the org. -/
theorem legacySeq_eq_rank (rows : List AuditLog) (row : AuditLog) :
    legacySeq rows row = CountRank.rank recorded (ownRows rows row.orgId) row := by
  unfold legacySeq CountRank.rank ownRows
  rw [List.countP_filter]
  apply List.countP_congr
  intro earlier _
  rw [countedBefore_iff]
  simp [and_comm]

namespace AuditTable

variable (table : AuditTable) (org : Uuid)

theorem recorded_nodup : ((ownRows table.rows org).map recorded).Nodup := by
  have distinct : ((ownRows table.rows org).map AuditLog.id).Nodup :=
    table.primaryKey.sublist (List.filter_sublist.map _)
  apply distinct.of_map.map_on
  intro first firstMember second secondMember same
  have sameText : first.id.hyphenated = second.id.hyphenated :=
    congrArg (fun pair : Int ×ₗ String => (ofLex pair).2) same
  apply List.inj_on_of_nodup_map distinct firstMember secondMember
  cases firstId : first.id
  cases secondId : second.id
  rw [firstId, secondId] at sameText
  exact congrArg Uuid.mk sameText

/-- The positions of one org: one row for each number up to their count, in the
order the rows were recorded. -/
structure NumbersOrg : Prop where
  bijective : Set.BijOn (fun row => (table.renumbered row).seq)
    {row | row ∈ ownRows table.rows org} (Set.Icc 1 ((ownRows table.rows org).length : Int))
  ordered : ∀ early ∈ ownRows table.rows org, ∀ late ∈ ownRows table.rows org,
    (table.renumbered early).seq < (table.renumbered late).seq ↔ RecordedBefore early late

variable {org}

theorem renumbered_seq {row : AuditLog} (own : row ∈ ownRows table.rows org) :
    (table.renumbered row).seq =
      (CountRank.rank recorded (ownRows table.rows org) row : Int) := by
  have org := (mem_ownRows.mp own).2
  subst org
  exact congrArg Int.ofNat (legacySeq_eq_rank table.rows row)

variable (org)

theorem numbersOrg : table.NumbersOrg org where
  bijective := by
    obtain ⟨maps, injective, surjective⟩ := CountRank.rank_bijOn (table.recorded_nodup org)
    refine ⟨?_, ?_, ?_⟩
    · intro row own
      obtain ⟨low, high⟩ := maps own
      have seq := table.renumbered_seq own
      exact ⟨by dsimp only; omega, by dsimp only; omega⟩
    · intro first firstOwn second secondOwn same
      have firstSeq := table.renumbered_seq firstOwn
      have secondSeq := table.renumbered_seq secondOwn
      have sameSeq : (table.renumbered first).seq = (table.renumbered second).seq := same
      exact injective firstOwn secondOwn (by omega)
    · intro position within
      obtain ⟨low, high⟩ := within
      obtain ⟨row, own, rank⟩ := surjective
        (show position.toNat ∈ Set.Icc 1 (ownRows table.rows org).length from
          ⟨by omega, by omega⟩)
      have seq := table.renumbered_seq own
      exact ⟨row, own, by dsimp only; omega⟩
  ordered := by
    intro early earlyOwn late lateOwn
    have earlySeq := table.renumbered_seq earlyOwn
    have lateSeq := table.renumbered_seq lateOwn
    rw [earlySeq, lateSeq, Int.ofNat_lt, CountRank.rank_lt_iff lateOwn, recorded_lt_iff]

/-- The `UPDATE` reads no column that it writes. -/
theorem renumbered_renumbered (row : AuditLog) :
    table.backfillLegacySeq.renumbered (table.renumbered row) = table.renumbered row := by
  have same : legacySeq table.backfillLegacySeq.rows (table.renumbered row) =
      legacySeq table.rows row := by
    unfold legacySeq
    rw [backfillLegacySeq, List.countP_map]
    rfl
  unfold renumbered at same ⊢
  simp only [AuditLog.mk.injEq, true_and, and_true]
  exact congrArg Int.ofNat same

theorem backfill_idempotent :
    table.backfillLegacySeq.backfillLegacySeq = table.backfillLegacySeq := by
  have rows : table.backfillLegacySeq.backfillLegacySeq.rows = table.backfillLegacySeq.rows := by
    change (table.rows.map table.renumbered).map table.backfillLegacySeq.renumbered =
      table.rows.map table.renumbered
    rw [List.map_map]
    apply List.map_congr_left
    intro row _
    exact table.renumbered_renumbered row
  generalize table.backfillLegacySeq.backfillLegacySeq = again at rows
  generalize table.backfillLegacySeq = once at rows
  cases again
  cases once
  subst rows
  rfl

theorem backfill_keys : (table.backfillLegacySeq.rows.map AuditLog.key).Nodup := by
  change ((table.rows.map table.renumbered).map AuditLog.key).Nodup
  rw [List.map_map]
  apply table.primaryKey.of_map.map_on
  intro first firstMember second secondMember same
  have sameOrg : first.orgId = second.orgId := congrArg Prod.fst same
  have sameSeq : (table.renumbered first).seq = (table.renumbered second).seq :=
    congrArg Prod.snd same
  exact (table.numbersOrg second.orgId).bijective.injOn
    (mem_ownRows.mpr ⟨firstMember, sameOrg⟩) (mem_ownRows.mpr ⟨secondMember, rfl⟩) sameSeq

theorem createIndex_backfill :
    table.backfillLegacySeq.createIndex = some table.backfillLegacySeq :=
  if_pos table.backfill_keys

theorem ownRows_backfill :
    ownRows table.backfillLegacySeq.rows org =
      (ownRows table.rows org).map table.renumbered := by
  change ownRows (table.rows.map table.renumbered) org = _
  unfold ownRows
  rw [List.filter_map]
  rfl

/-- The newest position of an org is the number of its rows. -/
theorem tipSeq_backfill :
    tipSeq (tipOf table.backfillLegacySeq.rows org) = (ownRows table.rows org).length := by
  have numbers := (table.numbersOrg org).bijective
  have own := table.ownRows_backfill org
  cases found : tipOf table.backfillLegacySeq.rows org with
  | none =>
      have empty := tipOf_none.mp found
      rw [own, List.map_eq_nil_iff] at empty
      rw [empty]
      rfl
  | some tip =>
      have tipOwn := tipOf_mem found
      rw [own] at tipOwn
      obtain ⟨row, rowOwn, rfl⟩ := List.mem_map.mp tipOwn
      have below := (numbers.mapsTo rowOwn).2
      have nonempty := List.length_pos_of_mem rowOwn
      obtain ⟨last, lastOwn, lastSeq⟩ := numbers.surjOn
        (show ((ownRows table.rows org).length : Int) ∈ Set.Icc 1 _ from
          ⟨by omega, le_rfl⟩)
      have above := le_tipSeq (own ▸ List.mem_map_of_mem (f := table.renumbered) lastOwn)
      rw [found] at above
      simp only [tipSeq, Option.elim_some] at above ⊢
      dsimp only at below lastSeq
      omega

end AuditTable

/-! ## What is appended afterwards -/

/-- The appended rows of the org take the positions after its legacy rows. -/
structure ContinuesAfter (legacy added : List AuditLog) (org : Uuid) : Prop where
  positions : (ownRows added org).map AuditLog.seq =
    (List.range' ((ownRows legacy org).length + 1) (ownRows added org).length).map Int.ofNat
  newest : tipSeq (tipOf (legacy ++ added) org) =
    ((ownRows legacy org).length + (ownRows added org).length : Int)

theorem ContinuesAfter.append {legacy added : List AuditLog} {row : AuditLog} {org : Uuid}
    (continues : ContinuesAfter legacy added org)
    (next : row.seq = tipSeq (tipOf (legacy ++ added) row.orgId) + 1) :
    ContinuesAfter legacy (added ++ [row]) org := by
  have newest := continues.newest
  by_cases own : row.orgId = org
  · subst own
    have seq : row.seq = Int.ofNat
        ((ownRows legacy row.orgId).length + 1 + (ownRows added row.orgId).length) := by
      rw [next, newest]
      simp only [Int.ofNat_eq_natCast, Nat.cast_add, Nat.cast_one]
      omega
    constructor
    · rw [ownRows_append, if_pos rfl, List.map_append, continues.positions,
        List.length_append, List.length_singleton, List.range'_concat, List.map_append,
        List.map_singleton, List.map_singleton, seq, Nat.one_mul]
    · rw [← List.append_assoc, tipOf_append_above (by omega), ownRows_append, if_pos rfl,
        List.length_append, List.length_singleton]
      simp only [tipSeq, Option.elim_some, Nat.cast_add, Nat.cast_one]
      omega
  · constructor
    · rw [ownRows_append, if_neg own]
      exact continues.positions
    · rw [← List.append_assoc, tipOf_append_other own, ownRows_append, if_neg own]
      exact newest

section Runs

variable {timestamps : Timestamps} {auditChainPreimage : AuditChainInput → String}
  {sha256 : Bytes → String}

/-- What a run has added to a table of legacy rows; every position fits while the
table can be counted. -/
structure AddsRows (legacy : List AuditLog) (world : AuditWorld) (added : List AuditLog) :
    Prop where
  rows : world.rows = legacy ++ added
  hashed : ∀ row ∈ added, row.entryHash ≠ ""
  continues : world.rows.length < 2 ^ 63 → ∀ org, ContinuesAfter legacy added org

theorem AddsRows.step {legacy added : List AuditLog} {before after : AuditWorld}
    (adds : AddsRows legacy before added)
    (stepped : AddsAtMostOne timestamps auditChainPreimage sha256 before after) :
    ∃ added, AddsRows legacy after added := by
  rcases stepped with same | ⟨task, row, grown, follows, next⟩
  · have rows : after.rows = before.rows := congrArg (List.map LoggedRow.row) same
    exact ⟨added, rows.trans adds.rows, adds.hashed, fun room => adds.continues (rows ▸ room)⟩
  · have rows : after.rows = before.rows ++ [row] := by
      unfold AuditWorld.rows
      rw [grown, List.map_append]
      rfl
    refine ⟨added ++ [row], ?_, ?_, ?_⟩
    · rw [rows, adds.rows, List.append_assoc]
    · intro other member
      rcases List.mem_append.mp member with early | itself
      · exact adds.hashed other early
      · rw [List.mem_singleton.mp itself]
        exact follows.nonempty
    · intro room org
      rw [rows, List.length_append, List.length_singleton] at room
      have continues := adds.continues (by omega)
      have newest := (continues row.orgId).newest
      have legacyOwn : (ownRows legacy row.orgId).length ≤ legacy.length :=
        List.length_filter_le _ _
      have addedOwn : (ownRows added row.orgId).length ≤ added.length :=
        List.length_filter_le _ _
      rw [adds.rows, List.length_append] at room
      rw [← adds.rows] at newest
      apply (continues org).append
      rw [← adds.rows]
      exact (next (by omega)).1

theorem exec_addsRows (lawful : timestamps.Lawful) (nonempty : ∀ bytes, sha256 bytes ≠ "")
    {legacy : List AuditLog} {start final : AuditWorld} {events : List AuditEvent}
    (holds : AppendsHold timestamps auditChainPreimage sha256 start)
    (starts : AddsRows legacy start [])
    (run : Execution.exec (auditStep timestamps auditChainPreimage sha256) start events =
      some final) :
    AppendsHold timestamps auditChainPreimage sha256 final ∧
      ∃ added, AddsRows legacy final added := by
  have preserved : ∀ world event next,
      (AppendsHold timestamps auditChainPreimage sha256 world ∧
        ∃ added, AddsRows legacy world added) →
      auditStep timestamps auditChainPreimage sha256 world event = some next →
      AppendsHold timestamps auditChainPreimage sha256 next ∧
        ∃ added, AddsRows legacy next added := by
    intro world event next both stepped
    obtain ⟨holds, added, adds⟩ := both
    exact ⟨auditStep_holds lawful nonempty holds stepped,
      adds.step (holds.addsAtMostOne timestamps auditChainPreimage sha256 stepped)⟩
  exact Execution.exec_invariant (auditStep timestamps auditChainPreimage sha256) preserved
    ⟨holds, [], starts⟩ run

variable (timestamps auditChainPreimage sha256)

/-- The chain of an org starts after its legacy rows and holds what was appended. -/
structure ChainsAfter (legacy added : List AuditLog) (org : Uuid) : Prop where
  positions : (ownRows added org).map AuditLog.seq =
    (List.range' ((ownRows legacy org).length + 1) (ownRows added org).length).map Int.ofNat
  intact : (verifyChain timestamps auditChainPreimage sha256
    (orgLog (legacy ++ added) org)).intact = true
  counted : (verifyChain timestamps auditChainPreimage sha256
    (orgLog (legacy ++ added) org)).entriesChecked = (ownRows added org).length

variable {timestamps auditChainPreimage sha256}

theorem ContinuesAfter.seq_pos {legacy added : List AuditLog} {org : Uuid} {row : AuditLog}
    (continues : ContinuesAfter legacy added org) (own : row ∈ ownRows added org) :
    0 < row.seq := by
  have listed : row.seq ∈ (ownRows added org).map AuditLog.seq := List.mem_map_of_mem own
  rw [continues.positions] at listed
  obtain ⟨position, within, seq⟩ := List.mem_map.mp listed
  have low := (List.mem_range'_1.mp within).1
  have cast : (position : Int) = row.seq := seq
  omega

theorem AddsRows.chainedRows_perm {legacy added : List AuditLog} {world : AuditWorld}
    (adds : AddsRows legacy world added) (room : world.rows.length < 2 ^ 63)
    (unchained : ∀ row ∈ legacy, row.entryHash = "") (org : Uuid) :
    (chainedRows (orgLog (legacy ++ added) org)).Perm (ownRows added org) := by
  have front : (ownRows legacy org).filter AuditLog.isChained = [] := by
    rw [List.filter_eq_nil_iff]
    intro row own
    exact (not_isChained_iff row).mpr (Or.inr (unchained row (mem_ownRows.mp own).1))
  have back : (ownRows added org).filter AuditLog.isChained = ownRows added org := by
    rw [List.filter_eq_self]
    intro row own
    exact (isChained_iff row).mpr
      ⟨(adds.continues room org).seq_pos own, adds.hashed row (mem_ownRows.mp own).1⟩
  have split : (ownRows (legacy ++ added) org).filter AuditLog.isChained =
      ownRows added org := by
    unfold ownRows at front back ⊢
    rw [List.filter_append, List.filter_append, front, back, List.nil_append]
  exact split ▸ (orgLog_perm (legacy ++ added) org).filter AuditLog.isChained

theorem AddsRows.chainsAfter {legacy added : List AuditLog} {world : AuditWorld}
    (adds : AddsRows legacy world added)
    (holds : AppendsHold timestamps auditChainPreimage sha256 world)
    (room : world.rows.length < 2 ^ 63)
    (unchained : ∀ row ∈ legacy, row.entryHash = "") (org : Uuid) :
    ChainsAfter timestamps auditChainPreimage sha256 legacy added org := by
  have intact := (verifyChain_intact_iff_continuesHash timestamps auditChainPreimage sha256
    (orgLog world.rows org)).mpr (holds.chain org).intact
  rw [adds.rows] at intact
  refine ⟨(adds.continues room org).positions, intact, ?_⟩
  rw [verifyChain_entriesChecked timestamps auditChainPreimage sha256 intact]
  exact (adds.chainedRows_perm room unchained org).length_eq

theorem backfilled_unchained {legacy : LegacyTable} {row : AuditLog}
    (member : row ∈ (addColumns legacy).backfillLegacySeq.rows) : row.entryHash = "" := by
  obtain ⟨column, columnMember, rfl⟩ := List.mem_map.mp member
  obtain ⟨row, _, rfl⟩ := List.mem_map.mp columnMember
  rfl

/-- The append path starts from legacy rows that no chain follows yet. -/
theorem legacyThenChain_backfill (legacy : LegacyTable) :
    LegacyThenChain timestamps auditChainPreimage sha256
      (addColumns legacy).backfillLegacySeq.rows where
  distinct := (addColumns legacy).backfill_keys
  split org := by
    refine ⟨orgLog (addColumns legacy).backfillLegacySeq.rows org, [],
      (List.append_nil _).symm, ?_, by simp⟩
    intro row member
    have own := (orgLog_perm _ org).subset member
    obtain ⟨column, _, rfl⟩ := List.mem_map.mp (mem_ownRows.mp own).1
    exact ⟨Int.natCast_nonneg _, backfilled_unchained (mem_ownRows.mp own).1⟩
  intact org := by
    have none : chainedRows (orgLog (addColumns legacy).backfillLegacySeq.rows org) = [] := by
      apply List.filter_eq_nil_iff.mpr
      intro row member
      have own := (orgLog_perm _ org).subset member
      exact (not_isChained_iff row).mpr
        (Or.inr (backfilled_unchained (mem_ownRows.mp own).1))
    rw [verifyChain, none]
    rfl

theorem addsRows_start (postgres : Bool) (table : AuditTable) :
    AddsRows table.backfillLegacySeq.rows (.start postgres table.backfillLegacySeq.rows) [] where
  rows := by rw [rows_start, List.append_nil]
  hashed := by simp
  continues _ org := by
    constructor
    · rfl
    · rw [List.append_nil, table.tipSeq_backfill, table.ownRows_backfill, List.length_map]
      exact (Int.add_zero _).symm

end Runs

/-- The migration numbers the rows of every org from one in the order they were
recorded, can create its index, and leaves a table after which every run of
appends builds an intact chain. -/
theorem backfill_fits_chain {timestamps : Timestamps}
    {auditChainPreimage : AuditChainInput → String} {sha256 : Bytes → String}
    (lawful : timestamps.Lawful) (nonempty : ∀ bytes, sha256 bytes ≠ "")
    (legacy : LegacyTable) :
    (∀ org, (addColumns legacy).NumbersOrg org) ∧
      (addColumns legacy).backfillLegacySeq.backfillLegacySeq =
        (addColumns legacy).backfillLegacySeq ∧
      up legacy = some (addColumns legacy).backfillLegacySeq ∧
      ∀ postgres events final,
        Execution.exec (auditStep timestamps auditChainPreimage sha256)
          (.start postgres (addColumns legacy).backfillLegacySeq.rows) events = some final →
        final.rows.length < 2 ^ 63 →
        ∃ added, final.rows = (addColumns legacy).backfillLegacySeq.rows ++ added ∧
          ∀ org, ChainsAfter timestamps auditChainPreimage sha256
            (addColumns legacy).backfillLegacySeq.rows added org := by
  refine ⟨(addColumns legacy).numbersOrg, (addColumns legacy).backfill_idempotent,
    (addColumns legacy).createIndex_backfill, ?_⟩
  intro postgres events final run countable
  have starts := (legacyThenChain_backfill legacy).appendsHold timestamps auditChainPreimage
    sha256 postgres
  obtain ⟨holds, added, adds⟩ := exec_addsRows lawful nonempty starts
    (addsRows_start postgres (addColumns legacy)) run
  exact ⟨added, adds.rows, fun org =>
    adds.chainsAfter holds countable (fun _ member => backfilled_unchained member) org⟩

/-! ## A sample upgrade -/

namespace BackfillSample

def legacyRow (id : String) (org : Uuid) : LegacyRow where
  id := ⟨id⟩
  orgId := org
  atTime := sampleTime
  action := "publish"
  subject := "acme/http-kit@1.2.0"
  actorTokenId := none
  actorTokenName := "ci"
  actorRole := "admin"
  detail := none

/-- Two rows of one instant in one org, and a row of another org. -/
def legacy : LegacyTable where
  rows := [legacyRow "8d3e6c60-0f67-4f0e-9d55-8c3c1a1f0a12" sampleOrg,
    legacyRow "8d3e6c60-0f67-4f0e-9d55-8c3c1a1f0a11" sampleOrg,
    legacyRow "8d3e6c60-0f67-4f0e-9d55-8c3c1a1f0a13" ⟨"6f0c1a52-9a3e-4b6e-8a57-0d8a3c1f2b12"⟩]
  primaryKey := by decide
  countable := by decide

example : ((addColumns legacy).backfillLegacySeq.rows.map AuditLog.seq) = [2, 1, 1] := by
  decide +kernel

def publishes : List AuditEvent :=
  [.record 1 (AppendSample.call "acme/http-kit@1.3.0"), .advance 1 AppendSample.works,
    .advance 1 AppendSample.works, .advance 1 AppendSample.works,
    .advance 1 AppendSample.works, .advance 1 AppendSample.works]

end BackfillSample

open BackfillSample in
theorem backfill_fits_chain_sample :
    ((addColumns legacy).NumbersOrg sampleOrg ∧
      up legacy = some (addColumns legacy).backfillLegacySeq) ∧
      ∃ final added, Execution.exec (auditStep civil netstringPreimage sampleDigests)
          (.start true (addColumns legacy).backfillLegacySeq.rows) publishes = some final ∧
        final.rows = (addColumns legacy).backfillLegacySeq.rows ++ added ∧ added.length = 1 ∧
        ChainsAfter civil netstringPreimage sampleDigests
          (addColumns legacy).backfillLegacySeq.rows added sampleOrg := by
  obtain ⟨numbers, _, index, runs⟩ := @backfill_fits_chain civil netstringPreimage sampleDigests
    civil_lawful sampleDigests_collisionFree.nonempty legacy
  have length : (Execution.exec (auditStep civil netstringPreimage sampleDigests)
      (.start true (addColumns legacy).backfillLegacySeq.rows) publishes).map
        (fun final => final.rows.length) = some 4 := by decide +kernel
  obtain ⟨final, run, rows⟩ := Option.map_eq_some_iff.mp length
  obtain ⟨added, grown, chains⟩ := runs true publishes final run (by omega)
  refine ⟨⟨numbers sampleOrg, index⟩, final, added, run, grown, ?_, chains sampleOrg⟩
  rw [grown, List.length_append] at rows
  have start : (addColumns legacy).backfillLegacySeq.rows.length = 3 := rfl
  omega

end ZedRegistry
