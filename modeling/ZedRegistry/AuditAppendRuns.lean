import ZedRegistry.AuditNoFork

/-!
# Runs of concurrent appends

What the append path promises over every interleaving, starting from legacy
rows followed by an intact chain.
-/

set_option autoImplicit false

namespace ZedRegistry

open DigestChain

def AuditWorld.start (postgres : Bool) (rows : List AuditLog) : AuditWorld where
  postgres := postgres
  entries := rows.map fun row => ⟨row, none⟩
  holders _ := none
  phases _ := none

theorem rows_start (postgres : Bool) (rows : List AuditLog) :
    (AuditWorld.start postgres rows).rows = rows := by
  simp [AuditWorld.rows, AuditWorld.start, Function.comp_def]

section Runs

variable (timestamps : Timestamps) (auditChainPreimage : AuditChainInput → String)
  (sha256 : Bytes → String)

/-- Legacy rows have an empty hash and a number that is not negative; what
follows them in the log of their org is an intact chain. -/
structure LegacyThenChain (rows : List AuditLog) : Prop where
  distinct : (rows.map AuditLog.key).Nodup
  split : ∀ org, ∃ legacy chained, orgLog rows org = legacy ++ chained ∧
    (∀ row ∈ legacy, 0 ≤ row.seq ∧ row.entryHash = "") ∧
    ∀ row ∈ chained, 0 < row.seq ∧ row.entryHash ≠ ""
  intact : ∀ org,
    (verifyChain timestamps auditChainPreimage sha256 (orgLog rows org)).intact = true

theorem LegacyThenChain.chainHolds {rows : List AuditLog}
    (initial : LegacyThenChain timestamps auditChainPreimage sha256 rows) (org : Uuid) :
    ChainHolds timestamps auditChainPreimage sha256 rows org := by
  obtain ⟨legacy, chained, log, unchained, linked⟩ := initial.split org
  have tip : tipOf rows org = (legacy ++ chained).getLast? :=
    (tipOf_eq_getLast initial.distinct).trans (congrArg List.getLast? log)
  have chain : chainedRows (orgLog rows org) = chained := by
    rw [log]
    exact chainedRows_append (fun row member => Or.inr (unchained row member).2) linked
  constructor
  · exact (verifyChain_intact_iff_continuesHash _ _ _ _).mp (initial.intact org)
  · rw [chain, tip, List.getLast?_append]
    cases newest : chained.getLast? with
    | some row =>
        have hashed := (linked row (List.mem_of_getLast? newest)).2
        simp [Option.filter, hashed]
    | none =>
        cases last : legacy.getLast? with
        | none => rfl
        | some row =>
            have blank := (unchained row (List.mem_of_getLast? last)).2
            simp [Option.filter, blank]
  · intro newest found
    rw [tip] at found
    rcases List.mem_append.mp (List.mem_of_getLast? found) with old | new
    · exact (unchained newest old).1
    · exact (linked newest new).1.le

theorem LegacyThenChain.appendsHold {rows : List AuditLog}
    (initial : LegacyThenChain timestamps auditChainPreimage sha256 rows) (postgres : Bool) :
    AppendsHold timestamps auditChainPreimage sha256 (.start postgres rows) where
  distinct := by
    rw [rows_start]
    exact initial.distinct
  chain org := by
    rw [rows_start]
    exact initial.chainHolds timestamps auditChainPreimage sha256 org
  reads _ _ _ _ reading := by cases reading
  inserted _ _ _ _ committing := by cases committing
  held _ _ holding := by cases holding
  written task := by
    change (List.countP _ _) = 0
    rw [List.countP_eq_zero]
    intro entry member
    obtain ⟨row, _, rfl⟩ := List.mem_map.mp member
    simp

/-- What a run has made of the table it started from. -/
structure LogHolds (start final : AuditWorld) : Prop where
  kept : ∃ added, final.entries = start.entries ++ added
  unique : (final.rows.map AuditLog.key).Nodup
  contiguous : ∀ org, EachFollows
    (fun previous row => ∀ earlier, previous = some earlier → row.seq = earlier.seq + 1) none
    (chainedRows (orgLog final.rows org))
  verified : ∀ org,
    (verifyChain timestamps auditChainPreimage sha256 (orgLog final.rows org)).intact = true ∧
      (verifyChain timestamps auditChainPreimage sha256
        (orgLog final.rows org)).entriesChecked =
          (chainedRows (orgLog final.rows org)).length
  once : ∀ task, entriesOf final task ≤ 1
  appended : ∀ task, final.phases task = some (.returned true) → entriesOf final task = 1

theorem AppendsHold.logHolds {start world : AuditWorld}
    (holds : AppendsHold timestamps auditChainPreimage sha256 world)
    (kept : ∃ added, world.entries = start.entries ++ added) :
    LogHolds timestamps auditChainPreimage sha256 start world where
  kept := kept
  unique := holds.distinct
  contiguous org := by
    have follows := (holds.chain org).intact
    exact ((eachFollows_and _ _ _ _).mp follows).1
  verified org := by
    have intact := (verifyChain_intact_iff_continuesHash timestamps auditChainPreimage sha256
      (orgLog world.rows org)).mpr (holds.chain org).intact
    exact ⟨intact, verifyChain_entriesChecked timestamps auditChainPreimage sha256 intact⟩
  once task := by
    have written := holds.written task
    cases phase : world.phases task with
    | none =>
        rw [phase] at written
        exact written.le.trans zero_le_one
    | some phase' =>
        rw [phase] at written
        cases phase' with
        | running => exact written.le.trans zero_le_one
        | returned appended =>
            cases appended with
            | true => exact written.le
            | false => exact written
        | crashed => exact written
  appended task returned := by
    have written := holds.written task
    rw [returned] at written
    exact written

/-- What one step adds to the table: nothing, or one row after the newest row of
its org. -/
def AddsAtMostOne (before after : AuditWorld) : Prop :=
  after.entries = before.entries ∨
    ∃ task row, after.entries = before.entries ++ [⟨row, some task⟩] ∧
      FollowsTip timestamps auditChainPreimage sha256 before.rows row ∧
      (tipSeq (tipOf before.rows row.orgId) < 2 ^ 63 - 1 →
        row.seq = tipSeq (tipOf before.rows row.orgId) + 1 ∧
          ∀ other ∈ ownRows before.rows row.orgId, other.seq < row.seq)

theorem AppendsHold.addsAtMostOne {before after : AuditWorld} {event : AuditEvent}
    (holds : AppendsHold timestamps auditChainPreimage sha256 before)
    (stepped : auditStep timestamps auditChainPreimage sha256 before event = some after) :
    AddsAtMostOne timestamps auditChainPreimage sha256 before after := by
  cases auditStep_effect timestamps auditChainPreimage sha256 stepped with
  | moves => exact Or.inl rfl
  | holds => exact Or.inl rfl
  | drops => exact Or.inl rfl
  | lands task call attempts row phase commits ended =>
      have follows := (holds.inserted task call attempts row commits).1
      refine Or.inr ⟨task, row, rfl, follows, ?_⟩
      intro room
      have nonneg := (holds.chain row.orgId).tipSeq_nonneg
      have next : row.seq = tipSeq (tipOf before.rows row.orgId) + 1 := by
        rw [follows.seq]
        exact wrapI64_of_fits ⟨by omega, by omega⟩
      refine ⟨next, ?_⟩
      intro other own
      have below := le_tipSeq own
      omega

theorem AddsAtMostOne.kept {start before after : AuditWorld}
    (adds : AddsAtMostOne timestamps auditChainPreimage sha256 before after)
    (kept : ∃ added, before.entries = start.entries ++ added) :
    ∃ added, after.entries = start.entries ++ added := by
  obtain ⟨added, before'⟩ := kept
  rcases adds with same | ⟨task, row, grown, _⟩
  · exact ⟨added, same.trans before'⟩
  · exact ⟨added ++ [⟨row, some task⟩], by rw [grown, before', List.append_assoc]⟩

theorem exec_appendsHold {timestamps : Timestamps} {auditChainPreimage : AuditChainInput → String}
    {sha256 : Bytes → String} (lawful : timestamps.Lawful)
    (nonempty : ∀ bytes, sha256 bytes ≠ "") {start final : AuditWorld} {events : List AuditEvent}
    (holds : AppendsHold timestamps auditChainPreimage sha256 start)
    (run : Execution.exec (auditStep timestamps auditChainPreimage sha256) start events =
      some final) :
    AppendsHold timestamps auditChainPreimage sha256 final ∧
      ∃ added, final.entries = start.entries ++ added := by
  have preserved : ∀ world event next,
      (AppendsHold timestamps auditChainPreimage sha256 world ∧
        ∃ added, world.entries = start.entries ++ added) →
      auditStep timestamps auditChainPreimage sha256 world event = some next →
      AppendsHold timestamps auditChainPreimage sha256 next ∧
        ∃ added, next.entries = start.entries ++ added := by
    intro world event next both stepped
    have adds := both.1.addsAtMostOne timestamps auditChainPreimage sha256 stepped
    exact ⟨auditStep_holds lawful nonempty both.1 stepped,
      adds.kept timestamps auditChainPreimage sha256 both.2⟩
  exact Execution.exec_invariant (auditStep timestamps auditChainPreimage sha256) preserved
    ⟨holds, [], (List.append_nil _).symm⟩ run

end Runs

/-- Over every interleaving of `record` calls the chain of every org stays
intact, and every row that lands is the next one after the newest. -/
theorem appends_never_fork {timestamps : Timestamps}
    {auditChainPreimage : AuditChainInput → String} {sha256 : Bytes → String}
    (lawful : timestamps.Lawful) (nonempty : ∀ bytes, sha256 bytes ≠ "") (postgres : Bool)
    {rows : List AuditLog} (initial : LegacyThenChain timestamps auditChainPreimage sha256 rows)
    {events : List AuditEvent} {final : AuditWorld}
    (run : Execution.exec (auditStep timestamps auditChainPreimage sha256)
      (.start postgres rows) events = some final) :
    LogHolds timestamps auditChainPreimage sha256 (.start postgres rows) final ∧
      ∀ before event after, Execution.TakesStep
          (auditStep timestamps auditChainPreimage sha256) (.start postgres rows) events before
          event after →
        AddsAtMostOne timestamps auditChainPreimage sha256 before after := by
  have starts := initial.appendsHold timestamps auditChainPreimage sha256 postgres
  constructor
  · obtain ⟨holds, kept⟩ := exec_appendsHold lawful nonempty starts run
    exact holds.logHolds timestamps auditChainPreimage sha256 kept
  · intro before event after taken
    obtain ⟨early, late, _, reached, stepped⟩ := taken
    obtain ⟨holds, _⟩ := exec_appendsHold lawful nonempty starts reached
    exact holds.addsAtMostOne timestamps auditChainPreimage sha256 stepped

/-! ## A sample race -/

namespace AppendSample

def call (subject : String) : RecordCall where
  orgId := sampleOrg
  token := sampleToken
  action := "publish"
  subject := subject
  detail := none

theorem sampleTime_wholeSeconds : sampleTime.nano < 1000000000 := by decide

def works : AppendAnswer where
  dbOk := true
  landed := true
  id := ⟨"8d3e6c60-0f67-4f0e-9d55-8c3c1a1f0a03"⟩
  clock := ⟨sampleTime, sampleTime_wholeSeconds⟩

/-- Two calls read one tip; the second finds its position taken and retries. -/
def race : List AuditEvent :=
  [.record 1 (call "acme/http-kit@1.3.0"), .record 2 (call "acme/http-kit@1.4.0"),
    .advance 1 works, .advance 2 works, .advance 1 works, .advance 2 works,
    .advance 1 works, .advance 1 works, .advance 2 works, .advance 2 works,
    .advance 2 works, .advance 2 works, .advance 2 works]

def log : List AuditLog := [legacyEntry, firstEntry, secondEntry]

theorem orgLog_own : orgLog log sampleOrg = log :=
  orgLog_of_sorted (by decide) (by decide)

theorem orgLog_foreign {org : Uuid} (foreign : org ≠ sampleOrg) : orgLog log org = [] := by
  have none : log.filter (fun row => row.orgId = org) = [] := by
    rw [List.filter_eq_nil_iff]
    intro row member
    have own : row.orgId = sampleOrg := by
      have all : ∀ row ∈ log, row.orgId = sampleOrg := by decide
      exact all row member
    simpa [own] using Ne.symm foreign
  rw [orgLog, none]
  exact List.mergeSort_nil

theorem log_initial : LegacyThenChain civil netstringPreimage sampleDigests log where
  distinct := by decide
  split org := by
    by_cases own : org = sampleOrg
    · subst own
      exact ⟨[legacyEntry], [firstEntry, secondEntry], orgLog_own, by decide, by decide⟩
    · exact ⟨[], [], orgLog_foreign own, by decide, by decide⟩
  intact org := by
    by_cases own : org = sampleOrg
    · rw [own, orgLog_own]
      exact sample_intact rfl
    · rw [orgLog_foreign own]
      rfl

end AppendSample

open AppendSample in
theorem appends_never_fork_sample :
    ∃ final, Execution.exec (auditStep civil netstringPreimage sampleDigests)
        (.start false log) race = some final ∧
      LogHolds civil netstringPreimage sampleDigests (.start false log) final ∧
      ∀ before event after, Execution.TakesStep
          (auditStep civil netstringPreimage sampleDigests) (.start false log) race before
          event after →
        AddsAtMostOne civil netstringPreimage sampleDigests before after := by
  have runs : (Execution.exec (auditStep civil netstringPreimage sampleDigests)
      (.start false log) race).isSome = true := by decide +kernel
  obtain ⟨final, run⟩ := Option.isSome_iff_exists.mp runs
  exact ⟨final, run, appends_never_fork civil_lawful sampleDigests_collisionFree.nonempty false
    log_initial run⟩

end ZedRegistry
