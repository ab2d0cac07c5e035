import ZedRegistry.Access
import ZedRegistry.AuditChain
import ZedRegistry.Catalog

/-!
# The audit-verify endpoint

`routes/audit.rs`, `verify_audit_log`: an owner-only walk over at most
`MAX_VERIFY_ROWS` rows of the org's log, taken from its beginning.
-/

set_option autoImplicit false

namespace ZedRegistry

open DigestChain

def maxVerifyRows : Nat := 50000

/-- The rows of one org in ascending `seq`. -/
def orgLog (table : List AuditLog) (org : Uuid) : List AuditLog :=
  (table.filter fun row => row.orgId = org).mergeSort fun early late => early.seq ≤ late.seq

structure AuditIntegrityResponse where
  org : String
  intact : Bool
  entriesChecked : Nat
  firstBadSeq : Option Nat
  problem : Option String
  headHash : Option String
  deriving DecidableEq

/-- What the database and the clock answer during one request. -/
structure AuditAnswers where
  tokens : String → ApiResult (Option Token)
  now : DateTimeUtc
  orgs : String → ApiResult (Option Org)
  auditLog : ApiResult (List AuditLog)

section Handler

variable (timestamps : Timestamps) (auditChainPreimage : AuditChainInput → String)
  (sha256 : Bytes → String)

def auditIntegrityResponse (org : String) (report : ChainReport) : AuditIntegrityResponse where
  org := org
  intact := report.intact
  entriesChecked := report.entriesChecked
  firstBadSeq := report.firstBadSeq.map Int.toNat
  problem := report.problem.map ChainProblem.asStr
  headHash := report.headHash

def verifyAuditLog (answers : AuditAnswers) (authorization : Option String)
    (orgSlug : String) : ApiResult AuditIntegrityResponse := do
  let token ← requireToken sha256 answers.tokens answers.now authorization
  let org ← okOrElse (← answers.orgs orgSlug) (.notFound "org")
  authorizeManage token.orgId (Role.parse token.role) org.id
  let table ← answers.auditLog
  let rows := (orgLog table org.id).take maxVerifyRows
  pure (auditIntegrityResponse orgSlug
    (verifyChain timestamps auditChainPreimage sha256 rows))

/-- What an answered request has read and judged. -/
theorem verifyAuditLog_ok {answers : AuditAnswers} {authorization : Option String}
    {orgSlug : String} {response : AuditIntegrityResponse}
    (success : verifyAuditLog timestamps auditChainPreimage sha256 answers authorization orgSlug =
      .ok response) :
    ∃ token org table, requireToken sha256 answers.tokens answers.now authorization = .ok token ∧
      answers.orgs orgSlug = .ok (some org) ∧
      authorizeManage token.orgId (Role.parse token.role) org.id = .ok () ∧
      answers.auditLog = .ok table ∧
      response = auditIntegrityResponse orgSlug (verifyChain timestamps auditChainPreimage sha256
        ((orgLog table org.id).take maxVerifyRows)) := by
  simp only [verifyAuditLog, bind_ok, okOrElse_ok] at success
  obtain ⟨token, authenticated, found, orgs, org, rfl, ⟨⟩, managed, table, read, answer⟩ :=
    success
  exact ⟨token, org, table, authenticated, orgs, managed, read, (Except.ok.inj answer).symm⟩

/-- How an answer about `log` relates to the walk over all of it. -/
structure JudgesFirstRows (log : List AuditLog) (response : AuditIntegrityResponse) : Prop where
  firstRows : response.intact =
      (verifyChain timestamps auditChainPreimage sha256 (log.take maxVerifyRows)).intact ∧
    response.headHash =
      (verifyChain timestamps auditChainPreimage sha256 (log.take maxVerifyRows)).headHash
  wholeLog : log.length ≤ maxVerifyRows →
    response.intact = (verifyChain timestamps auditChainPreimage sha256 log).intact ∧
      response.headHash = (verifyChain timestamps auditChainPreimage sha256 log).headHash
  intactLog : (verifyChain timestamps auditChainPreimage sha256 log).intact = true →
    response.intact = true ∧
      response.headHash =
        (chainedRows (log.take maxVerifyRows)).getLast?.map AuditLog.entryHash ∧
      (log.length ≤ maxVerifyRows →
        response.headHash = (chainedRows log).getLast?.map AuditLog.entryHash)

theorem judgesFirstRows (orgSlug : String) (log : List AuditLog) :
    JudgesFirstRows timestamps auditChainPreimage sha256 log
      (auditIntegrityResponse orgSlug (verifyChain timestamps auditChainPreimage sha256
        (log.take maxVerifyRows))) where
  firstRows := ⟨rfl, rfl⟩
  wholeLog short := by
    rw [List.take_of_length_le short]
    exact ⟨rfl, rfl⟩
  intactLog intact := by
    have split := List.take_append_drop maxVerifyRows log
    rw [← split] at intact
    have firstIntact := verifyChain_intact_of_append timestamps auditChainPreimage sha256 intact
    have head := verifyChain_headHash_newest timestamps auditChainPreimage sha256 firstIntact
    refine ⟨firstIntact, head, ?_⟩
    intro short
    rw [List.take_of_length_le short] at head ⊢
    exact head

/-- The endpoint judges the first `maxVerifyRows` rows of the org's log. -/
theorem verifyAuditLog_judges {answers : AuditAnswers} {authorization : Option String}
    {orgSlug : String} {response : AuditIntegrityResponse}
    (success : verifyAuditLog timestamps auditChainPreimage sha256 answers authorization orgSlug =
      .ok response) :
    ∃ org table, answers.orgs orgSlug = .ok (some org) ∧ answers.auditLog = .ok table ∧
      JudgesFirstRows timestamps auditChainPreimage sha256 (orgLog table org.id) response := by
  obtain ⟨_, org, table, _, orgs, _, read, rfl⟩ :=
    verifyAuditLog_ok timestamps auditChainPreimage sha256 success
  exact ⟨org, table, orgs, read,
    judgesFirstRows timestamps auditChainPreimage sha256 orgSlug (orgLog table org.id)⟩

end Handler

theorem orgLog_of_sorted {table : List AuditLog} {org : Uuid}
    (own : ∀ row ∈ table, row.orgId = org)
    (sorted : table.Pairwise fun early late => early.seq ≤ late.seq) :
    orgLog table org = table := by
  have all : table.filter (fun row => row.orgId = org) = table := by
    rw [List.filter_eq_self]
    intro row member
    simpa using own row member
  rw [orgLog, all]
  apply List.mergeSort_of_pairwise
  exact sorted.imp fun ordered => by simpa using ordered

/-! ## Samples -/

def auditAnswers (table : List AuditLog) : AuditAnswers where
  tokens _ := .ok (some sampleToken)
  now := sampleTime
  orgs _ := .ok (some acme)
  auditLog := .ok table

theorem verifyAuditLog_auditAnswers (sha256 : Bytes → String) (table : List AuditLog) :
    verifyAuditLog civil netstringPreimage sha256 (auditAnswers table) (some "Bearer ci") "acme" =
      .ok (auditIntegrityResponse "acme" (verifyChain civil netstringPreimage sha256
        ((orgLog table sampleOrg).take maxVerifyRows))) := by
  have bearer : bearerToken (some "Bearer ci") = some "ci" := by decide +kernel
  have authenticated : requireToken sha256 (auditAnswers table).tokens (auditAnswers table).now
      (some "Bearer ci") = .ok sampleToken := by
    unfold requireToken
    rw [bearer]
    rfl
  unfold verifyAuditLog
  rw [authenticated]
  rfl

theorem verifyAuditLog_judges_sample :
    verifyAuditLog civil netstringPreimage sampleDigests
        (auditAnswers [legacyEntry, firstEntry, secondEntry]) (some "Bearer ci") "acme" =
      .ok (auditIntegrityResponse "acme" (verifyChain civil netstringPreimage sampleDigests
        ((orgLog [legacyEntry, firstEntry, secondEntry] sampleOrg).take maxVerifyRows))) ∧
      ∃ org table, (auditAnswers [legacyEntry, firstEntry, secondEntry]).orgs "acme" =
          .ok (some org) ∧
        (auditAnswers [legacyEntry, firstEntry, secondEntry]).auditLog = .ok table ∧
        JudgesFirstRows civil netstringPreimage sampleDigests (orgLog table org.id)
          (auditIntegrityResponse "acme" (verifyChain civil netstringPreimage sampleDigests
            ((orgLog [legacyEntry, firstEntry, secondEntry] sampleOrg).take maxVerifyRows))) :=
  ⟨verifyAuditLog_auditAnswers sampleDigests _,
    verifyAuditLog_judges civil netstringPreimage sampleDigests
      (verifyAuditLog_auditAnswers sampleDigests _)⟩

/-- A row from before the chain, numbered by the migration. -/
def legacyRow (position : Nat) : AuditLog :=
  { legacyEntry with seq := wrapI64 (position + 1), seqFits := wrapI64_fits (position + 1) }

def longLogHash : String :=
  "4ec434031207d0a8529e06ce1a2d21b94655ed7cdf954f75451a1f4545b31b4d"

theorem fitsI64_fiftyThousandOne : FitsI64 50001 := by decide

/-- The first chained row after `maxVerifyRows` legacy rows. -/
def lateEntry : AuditLog :=
  { firstEntry with seq := 50001, entryHash := longLogHash, seqFits := fitsI64_fiftyThousandOne }

def longLog : List AuditLog := (List.range maxVerifyRows).map legacyRow ++ [lateEntry]

def longLogDigests : Bytes → String :=
  tabulated [(asBytes (netstringPreimage (chainInput civil lateEntry "")), longLogHash)]

theorem seq_legacyRow {position : Nat} (small : position < maxVerifyRows) :
    (legacyRow position).seq = position + 1 := by
  apply wrapI64_of_fits
  unfold maxVerifyRows at small
  constructor
  · omega
  · omega

theorem orgLog_longLog : orgLog longLog sampleOrg = longLog := by
  apply orgLog_of_sorted
  · intro row member
    rcases List.mem_append.mp member with legacy | late
    · obtain ⟨position, _, rfl⟩ := List.mem_map.mp legacy
      rfl
    · rw [List.mem_singleton.mp late]
      rfl
  · unfold longLog
    rw [List.pairwise_append, List.pairwise_map]
    refine ⟨?_, List.pairwise_singleton _ _, ?_⟩
    · apply List.pairwise_lt_range.imp_of_mem
      intro early late earlyMember lateMember ordered
      rw [seq_legacyRow (List.mem_range.mp earlyMember),
        seq_legacyRow (List.mem_range.mp lateMember)]
      omega
    · intro row member late lateMember
      obtain ⟨position, inRange, rfl⟩ := List.mem_map.mp member
      rw [List.mem_singleton.mp lateMember, seq_legacyRow (List.mem_range.mp inRange)]
      have small := List.mem_range.mp inRange
      unfold maxVerifyRows at small
      change (position : Int) + 1 ≤ 50001
      omega

theorem chainedRows_legacyRows :
    chainedRows ((List.range maxVerifyRows).map legacyRow) = [] := by
  rw [chainedRows, List.filter_eq_nil_iff]
  intro row member
  obtain ⟨position, _, rfl⟩ := List.mem_map.mp member
  exact (not_isChained_iff _).mpr (Or.inr rfl)

theorem chainedRows_longLog : chainedRows longLog = [lateEntry] := by
  have none := chainedRows_legacyRows
  unfold longLog
  unfold chainedRows at none ⊢
  rw [List.filter_append, none]
  rfl

theorem take_longLog :
    longLog.take maxVerifyRows = (List.range maxVerifyRows).map legacyRow := by
  apply List.take_left'
  rw [List.length_map, List.length_range]

/-- Behind fifty thousand legacy rows the endpoint never sees the chain: the log
is intact and has a head, and the answer names none. -/
theorem verifyAuditLog_misses_head :
    ∃ response, verifyAuditLog civil netstringPreimage longLogDigests (auditAnswers longLog)
        (some "Bearer ci") "acme" = .ok response ∧
      (verifyChain civil netstringPreimage longLogDigests
        (orgLog longLog sampleOrg)).intact = true ∧
      (verifyChain civil netstringPreimage longLogDigests
        (orgLog longLog sampleOrg)).headHash = some longLogHash ∧
      response.headHash = none := by
  have hashed : expectedHash civil netstringPreimage longLogDigests lateEntry "" =
      longLogHash := by
    rw [expectedHash, entryDigest, longLogDigests, tabulated_self]
  have intact : (verifyChain civil netstringPreimage longLogDigests longLog).intact = true := by
    rw [verifyChain_intact_iff_continuesHash, chainedRows_longLog]
    exact ⟨⟨by simp, hashed⟩, trivial⟩
  have head : (verifyChain civil netstringPreimage longLogDigests longLog).headHash =
      some longLogHash := by
    rw [verifyChain_headHash_newest _ _ _ intact, chainedRows_longLog]
    rfl
  refine ⟨_, verifyAuditLog_auditAnswers longLogDigests longLog, ?_⟩
  rw [orgLog_longLog]
  refine ⟨intact, head, ?_⟩
  rw [take_longLog, auditIntegrityResponse, verifyChain, chainedRows_legacyRows]
  rfl

end ZedRegistry
