import ZedRegistry.AuditLogOrder

/-!
# Concurrent appends never fork the chain

The unique index decides between two writers that have read one tip: a task
whose key is still free has read the tip that is still the newest row.  Every
row that lands therefore continues the row before it, and the verifier finds
the chain intact after every step.
-/

set_option autoImplicit false

namespace ZedRegistry

open DigestChain

variable {timestamps : Timestamps} {auditChainPreimage : AuditChainInput → String}
  {sha256 : Bytes → String}

/-! ## One org -/

section Chain

variable (timestamps auditChainPreimage sha256)

/-- The chained rows are intact and the newest row is the last of them, unless
it is a legacy row and there are none. -/
structure ChainHolds (rows : List AuditLog) (org : Uuid) : Prop where
  intact : EachFollows (ContinuesHash timestamps auditChainPreimage sha256) none
    (chainedRows (orgLog rows org))
  newest : (chainedRows (orgLog rows org)).getLast? =
    (tipOf rows org).filter fun tip => tip.entryHash ≠ ""
  nonneg : ∀ tip, tipOf rows org = some tip → 0 ≤ tip.seq

/-- The row continues the newest row of its org. -/
structure FollowsTip (rows : List AuditLog) (row : AuditLog) : Prop where
  seq : row.seq = wrapI64 (tipSeq (tipOf rows row.orgId) + 1)
  link : row.prevHash = tipHash (tipOf rows row.orgId)
  hashed : expectedHash timestamps auditChainPreimage sha256 row (row.prevHash.getD "") =
    row.entryHash
  nonempty : row.entryHash ≠ ""

end Chain

/-- The predecessor's hash that the verifier carries is the one the writer used. -/
theorem ChainHolds.previousHash {rows : List AuditLog} {org : Uuid}
    (holds : ChainHolds timestamps auditChainPreimage sha256 rows org) :
    (chainedRows (orgLog rows org)).getLast?.elim "" AuditLog.entryHash =
      (tipHash (tipOf rows org)).getD "" := by
  rw [holds.newest, tipHash]
  cases tipOf rows org with
  | none => rfl
  | some tip =>
      by_cases blank : tip.entryHash = ""
      · simp [Option.filter, blank]
      · simp [Option.filter, blank]

theorem ChainHolds.tipSeq_nonneg {rows : List AuditLog} {org : Uuid}
    (holds : ChainHolds timestamps auditChainPreimage sha256 rows org) :
    0 ≤ tipSeq (tipOf rows org) := by
  cases found : tipOf rows org with
  | none => exact le_rfl
  | some tip => exact holds.nonneg tip found

/-- At the last `i64` the position wraps to the first. -/
theorem wrapI64_past_last : wrapI64 (2 ^ 63) = -2 ^ 63 := by decide +kernel

theorem ChainHolds.tipSeq_fits {rows : List AuditLog} {org : Uuid}
    (holds : ChainHolds timestamps auditChainPreimage sha256 rows org) :
    FitsI64 (tipSeq (tipOf rows org)) := by
  have nonneg := holds.tipSeq_nonneg
  cases found : tipOf rows org with
  | none => exact ⟨by simp [tipSeq], by simp [tipSeq]⟩
  | some tip => exact tip.seqFits

/-- A row that lands on the tip extends the chain by itself. -/
theorem ChainHolds.append {rows : List AuditLog} {row : AuditLog}
    (holds : ChainHolds timestamps auditChainPreimage sha256 rows row.orgId)
    (distinct : ((rows ++ [row]).map AuditLog.key).Nodup)
    (follows : FollowsTip timestamps auditChainPreimage sha256 rows row) :
    ChainHolds timestamps auditChainPreimage sha256 (rows ++ [row]) row.orgId := by
  have nonneg := holds.tipSeq_nonneg
  have fits := holds.tipSeq_fits
  by_cases room : tipSeq (tipOf rows row.orgId) + 1 < 2 ^ 63
  · have next : row.seq = tipSeq (tipOf rows row.orgId) + 1 := by
      rw [follows.seq]
      exact wrapI64_of_fits ⟨by omega, room⟩
    have chained : row.isChained = true :=
      (isChained_iff row).mpr ⟨by omega, follows.nonempty⟩
    have above : ∀ other ∈ ownRows rows row.orgId, other.seq ≤ row.seq := by
      intro other own
      have below := le_tipSeq own
      omega
    have extended := chainedRows_orgLog_concat distinct rfl chained above
    have tip : tipOf (rows ++ [row]) row.orgId = some row := tipOf_append_above (by omega)
    constructor
    · rw [extended, eachFollows_concat]
      refine ⟨holds.intact, ?_, ?_⟩
      · intro earlier last
        rw [holds.newest, Option.filter_eq_some_iff] at last
        rw [next, last.1]
        rfl
      · rw [holds.previousHash, ← follows.link]
        exact follows.hashed
    · rw [extended, tip]
      simp [Option.filter, follows.nonempty]
    · intro newest found
      rw [tip] at found
      obtain rfl := Option.some.inj found
      omega
  · -- The newest row holds the last position, so the new one is below the chain.
    have last : tipSeq (tipOf rows row.orgId) = 2 ^ 63 - 1 := by
      have top := fits.2
      omega
    have wrapped : row.seq = -2 ^ 63 := by
      rw [follows.seq, last]
      exact wrapI64_past_last
    have unchained : row.isChained = false := by
      rw [Bool.eq_false_iff]
      apply (not_isChained_iff row).mpr
      exact Or.inl (by omega)
    have kept : chainedRows (orgLog (rows ++ [row]) row.orgId) =
        chainedRows (orgLog rows row.orgId) :=
      chainedRows_orgLog_other distinct (Or.inr unchained)
    have tip : tipOf (rows ++ [row]) row.orgId = tipOf rows row.orgId := by
      rw [tipOf_append, if_pos rfl]
      cases found : tipOf rows row.orgId with
      | none =>
          rw [found] at last
          contradiction
      | some tip =>
          rw [found] at last
          simp only [tipSeq, Option.elim_some] at last
          exact if_neg (by omega)
    exact ⟨by rw [kept]; exact holds.intact, by rw [kept, tip]; exact holds.newest,
      by rw [tip]; exact holds.nonneg⟩

theorem ChainHolds.append_other {rows : List AuditLog} {row : AuditLog} {org : Uuid}
    (holds : ChainHolds timestamps auditChainPreimage sha256 rows org)
    (distinct : ((rows ++ [row]).map AuditLog.key).Nodup) (foreign : row.orgId ≠ org) :
    ChainHolds timestamps auditChainPreimage sha256 (rows ++ [row]) org := by
  have kept := chainedRows_orgLog_other distinct (Or.inl foreign)
  have tip : tipOf (rows ++ [row]) org = tipOf rows org := tipOf_append_other foreign
  exact ⟨by rw [kept]; exact holds.intact, by rw [kept, tip]; exact holds.newest,
    by rw [tip]; exact holds.nonneg⟩

/-! ## One step -/

/-- A phase that holds no key. -/
def Unheld : Option RecordPhase → Prop
  | none | some (.running _ _ .begin) | some (.running _ _ .lock)
  | some (.running _ _ .readTip) | some (.running _ _ (.insert _)) => True
  | _ => False

/-- What a task becomes without touching the table: a tip it has read is the
tip, and it has not appended. -/
def Quiet (world : AuditWorld) : RecordPhase → Prop
  | .running _ _ (.commit _) | .returned true => False
  | .running call _ (.insert tip) => tip = tipOf world.rows call.orgId
  | _ => True

/-- What a task becomes once its transaction has ended. -/
def Ended : RecordPhase → Prop
  | .running _ _ _ => False
  | _ => True

section Effect

variable (timestamps auditChainPreimage sha256)

/-- Everything one step can do. -/
inductive AuditEffect (world : AuditWorld) : AuditWorld → Prop where
  | moves (task : Nat) (phase : RecordPhase) (unheld : Unheld (world.phases task))
      (quiet : Quiet world phase) : AuditEffect world (world.goto task phase)
  | holds (task : Nat) (call : RecordCall) (attempts : Nat) (tip : Option AuditLog)
      (row : AuditLog) (id : Uuid) (clock : ClockReading)
      (inserts : world.phases task = some (.running call attempts (.insert tip)))
      (built : row = chainRow timestamps auditChainPreimage sha256 call tip id clock)
      (unblocked : world.holders row.key = none)
      (free : row.key ∉ world.rows.map AuditLog.key) :
      AuditEffect world
        ((world.holdKey task row).goto task (.running call attempts (.commit row)))
  | lands (task : Nat) (call : RecordCall) (attempts : Nat) (row : AuditLog)
      (phase : RecordPhase)
      (commits : world.phases task = some (.running call attempts (.commit row)))
      (ended : Ended phase) :
      AuditEffect world (((world.land task row).release row).goto task phase)
  | drops (task : Nat) (call : RecordCall) (attempts : Nat) (row : AuditLog)
      (phase : RecordPhase)
      (commits : world.phases task = some (.running call attempts (.commit row)))
      (ended : Ended phase) (failed : phase ≠ .returned true) :
      AuditEffect world ((world.release row).goto task phase)

theorem appendStep_effect {world next : AuditWorld} {task : Nat} {call : RecordCall}
    {attempts : Nat} {answer : AppendAnswer} {point : RecordPoint}
    (phase : world.phases task = some (.running call attempts point))
    (stepped : appendStep timestamps auditChainPreimage sha256 world task call attempts answer
      point = some next) :
    AuditEffect timestamps auditChainPreimage sha256 world next := by
  have failing (unheld : Unheld (world.phases task)) :
      AuditEffect timestamps auditChainPreimage sha256 world
        (world.goto task (.returned false)) :=
    .moves task _ unheld trivial
  cases point with
  | begin =>
      have unheld : Unheld (world.phases task) := by rw [phase]; trivial
      simp only [appendStep] at stepped
      split at stepped
      · obtain rfl := Option.some.inj stepped
        apply AuditEffect.moves task _ unheld
        cases world.postgres
        · trivial
        · trivial
      · obtain rfl := Option.some.inj stepped
        exact failing unheld
  | lock =>
      have unheld : Unheld (world.phases task) := by rw [phase]; trivial
      simp only [appendStep] at stepped
      split at stepped
      · obtain rfl := Option.some.inj stepped
        exact .moves task _ unheld trivial
      · obtain rfl := Option.some.inj stepped
        exact failing unheld
  | readTip =>
      have unheld : Unheld (world.phases task) := by rw [phase]; trivial
      simp only [appendStep] at stepped
      split at stepped
      · obtain rfl := Option.some.inj stepped
        exact .moves task _ unheld rfl
      · obtain rfl := Option.some.inj stepped
        exact failing unheld
  | insert tip =>
      have unheld : Unheld (world.phases task) := by rw [phase]; trivial
      simp only [appendStep] at stepped
      split_ifs at stepped with failed blocked taken
      · obtain rfl := Option.some.inj stepped
        exact failing unheld
      · obtain rfl := Option.some.inj stepped
        unfold AuditWorld.positionTaken
        split
        · exact failing unheld
        · exact .moves task _ unheld trivial
      · obtain rfl := Option.some.inj stepped
        have unblocked := Option.not_isSome_iff_eq_none.mp blocked
        exact .holds task call attempts tip _ answer.id answer.clock phase rfl unblocked taken
  | commit row =>
      simp only [appendStep] at stepped
      split_ifs at stepped with committed landed
      · obtain rfl := Option.some.inj stepped
        exact .lands task call attempts row _ phase trivial
      · obtain rfl := Option.some.inj stepped
        exact .lands task call attempts row _ phase trivial
      · obtain rfl := Option.some.inj stepped
        exact .drops task call attempts row _ phase trivial (by simp)

theorem auditStep_effect {world next : AuditWorld} {event : AuditEvent}
    (stepped : auditStep timestamps auditChainPreimage sha256 world event = some next) :
    AuditEffect timestamps auditChainPreimage sha256 world next := by
  cases event with
  | record task call =>
      cases phase : world.phases task with
      | none =>
          simp only [auditStep, phase, Option.some.injEq] at stepped
          subst stepped
          exact .moves task _ (by rw [phase]; trivial) trivial
      | some running => simp [auditStep, phase] at stepped
  | advance task answer =>
      cases phase : world.phases task with
      | none => simp [auditStep, phase] at stepped
      | some running =>
          cases running with
          | running call attempts point =>
              simp only [auditStep, phase] at stepped
              exact appendStep_effect timestamps auditChainPreimage sha256 phase stepped
          | returned appended => simp [auditStep, phase] at stepped
          | crashed => simp [auditStep, phase] at stepped
  | crash task landed =>
      cases phase : world.phases task with
      | none => simp [auditStep, phase] at stepped
      | some running =>
          cases running with
          | running call attempts point =>
              cases point with
              | commit row =>
                  simp only [auditStep, phase, Option.some.injEq] at stepped
                  subst stepped
                  cases landed with
                  | true => exact .lands task call attempts row _ phase trivial
                  | false => exact .drops task call attempts row _ phase trivial (by simp)
              | begin | lock | readTip | insert =>
                  simp only [auditStep, phase, Option.some.injEq] at stepped
                  subst stepped
                  exact .moves task _ (by rw [phase]; trivial) trivial
          | returned appended => simp [auditStep, phase] at stepped
          | crashed => simp [auditStep, phase] at stepped

end Effect

/-! ## The invariant of a run -/

def entriesOf (world : AuditWorld) (task : Nat) : Nat :=
  world.entries.countP fun entry => entry.writer = some task

/-- How many entries a task may have written. -/
def Written : Option RecordPhase → Nat → Prop
  | none, count | some (.running _ _ _), count => count = 0
  | some (.returned true), count => count = 1
  | _, count => count ≤ 1

/-- A tip that a task has read is still the newest row, or the next position is
taken. -/
def TipFresh (rows : List AuditLog) (org : Uuid) (tip : Option AuditLog) : Prop :=
  tip = tipOf rows org ∨ ∃ row ∈ ownRows rows org, row.seq = tipSeq tip + 1

section Invariant

variable (timestamps auditChainPreimage sha256)

structure AppendsHold (world : AuditWorld) : Prop where
  distinct : (world.rows.map AuditLog.key).Nodup
  chain : ∀ org, ChainHolds timestamps auditChainPreimage sha256 world.rows org
  reads : ∀ task call attempts tip,
    world.phases task = some (.running call attempts (.insert tip)) →
      TipFresh world.rows call.orgId tip
  inserted : ∀ task call attempts row,
    world.phases task = some (.running call attempts (.commit row)) →
      FollowsTip timestamps auditChainPreimage sha256 world.rows row ∧
        row.key ∉ world.rows.map AuditLog.key ∧ world.holders row.key = some task
  held : ∀ key task, world.holders key = some task → ∃ call attempts row,
    world.phases task = some (.running call attempts (.commit row)) ∧ row.key = key
  written : ∀ task, Written (world.phases task) (entriesOf world task)

end Invariant

@[simp] theorem holders_goto (world : AuditWorld) (task : Nat) (phase : RecordPhase) :
    (world.goto task phase).holders = world.holders := rfl

@[simp] theorem entriesOf_goto (world : AuditWorld) (task other : Nat) (phase : RecordPhase) :
    entriesOf (world.goto task phase) other = entriesOf world other := rfl

theorem phases_goto_self (world : AuditWorld) (task : Nat) (phase : RecordPhase) :
    (world.goto task phase).phases task = some phase :=
  Function.update_self task _ _

theorem phases_goto_other (world : AuditWorld) {task other : Nat} (phase : RecordPhase)
    (differs : other ≠ task) : (world.goto task phase).phases other = world.phases other :=
  Function.update_of_ne differs _ _

/-- A phase after a move is that of the task that moved, or was there before. -/
theorem phases_goto_cases {world : AuditWorld} {task other : Nat} {phase found : RecordPhase}
    (present : (world.goto task phase).phases other = some found) :
    other = task ∧ found = phase ∨ other ≠ task ∧ world.phases other = some found := by
  by_cases same : other = task
  · rw [same, phases_goto_self] at present
    exact Or.inl ⟨same, (Option.some.inj present).symm⟩
  · rw [phases_goto_other world phase same] at present
    exact Or.inr ⟨same, present⟩

theorem holders_holdKey (world : AuditWorld) (task : Nat) (row : AuditLog) (key : Uuid × Int) :
    (world.holdKey task row).holders key =
      if key = row.key then some task else world.holders key := by
  simp only [AuditWorld.holdKey, Function.update_apply]

theorem holders_release (world : AuditWorld) (row : AuditLog) (key : Uuid × Int) :
    (world.release row).holders key = if key = row.key then none else world.holders key := by
  simp only [AuditWorld.release, Function.update_apply]

theorem rows_land (world : AuditWorld) (task : Nat) (row : AuditLog) :
    (world.land task row).rows = world.rows ++ [row] := by
  simp [AuditWorld.rows, AuditWorld.land]

theorem entriesOf_land (world : AuditWorld) (task other : Nat) (row : AuditLog) :
    entriesOf (world.land task row) other =
      entriesOf world other + if other = task then 1 else 0 := by
  unfold entriesOf AuditWorld.land
  rw [List.countP_append, List.countP_singleton]
  by_cases same : other = task
  · simp [same]
  · have differs : task ≠ other := fun equal => same equal.symm
    simp [same, differs]

theorem written_zero_of_unheld {phase : Option RecordPhase} (unheld : Unheld phase) {count : Nat}
    (written : Written phase count) : count = 0 := by
  cases phase with
  | none => exact written
  | some phase =>
      cases phase with
      | running call attempts point => exact written
      | returned appended => exact absurd unheld id
      | crashed => exact absurd unheld id

theorem AppendsHold.moves {world : AuditWorld}
    (holds : AppendsHold timestamps auditChainPreimage sha256 world) {task : Nat}
    {phase : RecordPhase} (unheld : Unheld (world.phases task)) (quiet : Quiet world phase) :
    AppendsHold timestamps auditChainPreimage sha256 (world.goto task phase) where
  distinct := holds.distinct
  chain := holds.chain
  reads other call attempts tip reading := by
    rcases phases_goto_cases reading with ⟨rfl, rfl⟩ | ⟨differs, reading⟩
    · exact Or.inl quiet
    · exact holds.reads other call attempts tip reading
  inserted other call attempts row committing := by
    rcases phases_goto_cases committing with ⟨rfl, rfl⟩ | ⟨differs, committing⟩
    · exact absurd quiet id
    · exact holds.inserted other call attempts row committing
  held key other holding := by
    obtain ⟨call, attempts, row, committing, own⟩ := holds.held key other holding
    have differs : other ≠ task := by
      intro same
      rw [← same, committing] at unheld
      exact unheld
    rw [phases_goto_other world phase differs]
    exact ⟨call, attempts, row, committing, own⟩
  written other := by
    by_cases same : other = task
    · subst same
      have none := written_zero_of_unheld unheld (holds.written other)
      rw [phases_goto_self, entriesOf_goto, none]
      cases phase with
      | running call attempts point => rfl
      | returned appended =>
          cases appended with
          | true => exact absurd quiet id
          | false => exact Nat.zero_le 1
      | crashed => exact Nat.zero_le 1
    · rw [phases_goto_other world phase same]
      exact holds.written other

theorem mem_keys_of_ownRow {rows : List AuditLog} {org : Uuid} {row : AuditLog}
    (own : row ∈ ownRows rows org) {other : AuditLog} (sameOrg : other.orgId = org)
    (sameSeq : other.seq = row.seq) : other.key ∈ rows.map AuditLog.key := by
  obtain ⟨member, rowOrg⟩ := mem_ownRows.mp own
  have same : row.key = other.key := Prod.ext (rowOrg.trans sameOrg.symm) sameSeq.symm
  exact List.mem_map.mpr ⟨row, member, same⟩

/-- A free position next to a tip that was read means the tip is still the tip. -/
theorem followsTip_of_free {world : AuditWorld} (lawful : timestamps.Lawful)
    (nonempty : ∀ bytes, sha256 bytes ≠ "") {call : RecordCall} {tip : Option AuditLog}
    (fresh : TipFresh world.rows call.orgId tip)
    {row : AuditLog} {id : Uuid} {clock : ClockReading}
    (built : row = chainRow timestamps auditChainPreimage sha256 call tip id clock)
    (free : row.key ∉ world.rows.map AuditLog.key) :
    FollowsTip timestamps auditChainPreimage sha256 world.rows row := by
  have org : row.orgId = call.orgId := by rw [built]; rfl
  have seq : row.seq = wrapI64 (tipSeq tip + 1) := by rw [built]; rfl
  have current : tip = tipOf world.rows call.orgId := by
    rcases fresh with current | ⟨next, own, position⟩
    · exact current
    · have fits : FitsI64 (tipSeq tip + 1) := position ▸ next.seqFits
      rw [wrapI64_of_fits fits, ← position] at seq
      exact absurd (mem_keys_of_ownRow own org seq) free
  have hashed := expectedHash_chainRow timestamps auditChainPreimage sha256 lawful call tip id
    clock
  constructor
  · rw [org, ← current]
    exact seq
  · rw [org, ← current, built]
    rfl
  · rw [built]
    exact hashed
  · rw [built]
    exact nonempty _

/-- A task about to commit has the only open transaction of its org. -/
theorem AppendsHold.one_writer {world : AuditWorld}
    (holds : AppendsHold timestamps auditChainPreimage sha256 world) {task other : Nat}
    {call otherCall : RecordCall} {attempts otherAttempts : Nat} {row otherRow : AuditLog}
    (committing : world.phases task = some (.running call attempts (.commit row)))
    (otherCommitting :
      world.phases other = some (.running otherCall otherAttempts (.commit otherRow)))
    (sameOrg : otherRow.orgId = row.orgId) : other = task := by
  obtain ⟨follows, _, holder⟩ := holds.inserted task call attempts row committing
  obtain ⟨otherFollows, _, otherHolder⟩ :=
    holds.inserted other otherCall otherAttempts otherRow otherCommitting
  have sameSeq : otherRow.seq = row.seq := by
    rw [follows.seq, otherFollows.seq, sameOrg]
  have sameKey : otherRow.key = row.key := Prod.ext sameOrg sameSeq
  rw [sameKey, holder] at otherHolder
  exact (Option.some.inj otherHolder).symm

theorem AppendsHold.holds {world : AuditWorld}
    (holds : AppendsHold timestamps auditChainPreimage sha256 world)
    (lawful : timestamps.Lawful) (nonempty : ∀ bytes, sha256 bytes ≠ "") {task : Nat}
    {call : RecordCall} {attempts : Nat} {tip : Option AuditLog} {row : AuditLog} {id : Uuid}
    {clock : ClockReading}
    (inserts : world.phases task = some (.running call attempts (.insert tip)))
    (built : row = chainRow timestamps auditChainPreimage sha256 call tip id clock)
    (unblocked : world.holders row.key = none)
    (free : row.key ∉ world.rows.map AuditLog.key) :
    AppendsHold timestamps auditChainPreimage sha256
      ((world.holdKey task row).goto task (.running call attempts (.commit row))) where
  distinct := holds.distinct
  chain := holds.chain
  reads other otherCall otherAttempts otherTip reading := by
    rcases phases_goto_cases reading with ⟨rfl, point⟩ | ⟨_, reading⟩
    · cases point
    · exact holds.reads other otherCall otherAttempts otherTip reading
  inserted other otherCall otherAttempts otherRow committing := by
    rcases phases_goto_cases committing with ⟨rfl, point⟩ | ⟨_, committing⟩
    · cases point
      have fresh := holds.reads other call attempts tip inserts
      refine ⟨followsTip_of_free lawful nonempty fresh built free, free, ?_⟩
      rw [holders_goto, holders_holdKey, if_pos rfl]
    · obtain ⟨follows, otherFree, holder⟩ :=
        holds.inserted other otherCall otherAttempts otherRow committing
      have differs : otherRow.key ≠ row.key := by
        intro sameKey
        rw [sameKey, unblocked] at holder
        contradiction
      refine ⟨follows, otherFree, ?_⟩
      rw [holders_goto, holders_holdKey, if_neg differs, holder]
  held key other holding := by
    rw [holders_goto, holders_holdKey] at holding
    by_cases same : key = row.key
    · rw [if_pos same] at holding
      obtain rfl := Option.some.inj holding
      exact ⟨call, attempts, row, phases_goto_self _ _ _, same.symm⟩
    · rw [if_neg same] at holding
      obtain ⟨otherCall, otherAttempts, otherRow, committing, own⟩ :=
        holds.held key other holding
      have differs : other ≠ task := by
        intro sameTask
        rw [sameTask, inserts] at committing
        cases committing
      rw [phases_goto_other _ _ differs]
      exact ⟨otherCall, otherAttempts, otherRow, committing, own⟩
  written other := by
    by_cases same : other = task
    · subst same
      have none := holds.written other
      rw [inserts] at none
      rw [phases_goto_self]
      exact none
    · rw [phases_goto_other _ _ same]
      exact holds.written other

/-- What ending the transaction of `row` leaves of the other tasks' claims. -/
theorem AppendsHold.released {world : AuditWorld}
    (holds : AppendsHold timestamps auditChainPreimage sha256 world) {task : Nat}
    {call : RecordCall} {attempts : Nat} {row : AuditLog}
    (commits : world.phases task = some (.running call attempts (.commit row))) :
    (∀ key other, (world.release row).holders key = some other →
      other ≠ task ∧ world.holders key = some other) ∧
      ∀ other otherCall otherAttempts otherRow, other ≠ task →
        world.phases other = some (.running otherCall otherAttempts (.commit otherRow)) →
          otherRow.orgId ≠ row.orgId ∧
            (world.release row).holders otherRow.key = some other := by
  obtain ⟨_, _, holder⟩ := holds.inserted task call attempts row commits
  constructor
  · intro key other holding
    rw [holders_release] at holding
    have differs : key ≠ row.key := by
      intro same
      rw [if_pos same] at holding
      contradiction
    rw [if_neg differs] at holding
    refine ⟨?_, holding⟩
    intro same
    obtain ⟨_, _, otherRow, committing, own⟩ := holds.held key other holding
    rw [same, commits] at committing
    cases committing
    exact differs own.symm
  · intro other otherCall otherAttempts otherRow differs committing
    have foreign : otherRow.orgId ≠ row.orgId := fun sameOrg =>
      differs (holds.one_writer commits committing sameOrg)
    obtain ⟨_, _, otherHolder⟩ :=
      holds.inserted other otherCall otherAttempts otherRow committing
    have otherKey : otherRow.key ≠ row.key := fun same => foreign (congrArg Prod.fst same)
    refine ⟨foreign, ?_⟩
    rw [holders_release, if_neg otherKey, otherHolder]

theorem AppendsHold.drops {world : AuditWorld}
    (holds : AppendsHold timestamps auditChainPreimage sha256 world) {task : Nat}
    {call : RecordCall} {attempts : Nat} {row : AuditLog} {phase : RecordPhase}
    (commits : world.phases task = some (.running call attempts (.commit row)))
    (ended : Ended phase) (failed : phase ≠ .returned true) :
    AppendsHold timestamps auditChainPreimage sha256
      ((world.release row).goto task phase) where
  distinct := holds.distinct
  chain := holds.chain
  reads other otherCall otherAttempts tip reading := by
    rcases phases_goto_cases reading with ⟨rfl, rfl⟩ | ⟨differs, reading⟩
    · exact absurd ended id
    · exact holds.reads other otherCall otherAttempts tip reading
  inserted other otherCall otherAttempts otherRow committing := by
    rcases phases_goto_cases committing with ⟨rfl, rfl⟩ | ⟨differs, committing⟩
    · exact absurd ended id
    · obtain ⟨follows, free, _⟩ :=
        holds.inserted other otherCall otherAttempts otherRow committing
      exact ⟨follows, free, ((holds.released commits).2 other otherCall otherAttempts otherRow
        differs committing).2⟩
  held key other holding := by
    obtain ⟨differs, before⟩ := (holds.released commits).1 key other holding
    obtain ⟨otherCall, otherAttempts, otherRow, committing, own⟩ := holds.held key other before
    rw [phases_goto_other _ _ differs]
    exact ⟨otherCall, otherAttempts, otherRow, committing, own⟩
  written other := by
    by_cases same : other = task
    · subst same
      have none := holds.written other
      rw [commits] at none
      have zero : entriesOf ((world.release row).goto other phase) other = 0 := none
      rw [phases_goto_self, zero]
      cases phase with
      | running => exact absurd ended id
      | returned appended =>
          cases appended with
          | true => exact absurd rfl failed
          | false => exact Nat.zero_le 1
      | crashed => exact Nat.zero_le 1
    · rw [phases_goto_other _ _ same]
      exact holds.written other

theorem TipFresh.append {rows : List AuditLog} {row : AuditLog} {org : Uuid}
    {tip : Option AuditLog} (fresh : TipFresh rows org tip)
    (holds : ChainHolds timestamps auditChainPreimage sha256 rows row.orgId)
    (follows : FollowsTip timestamps auditChainPreimage sha256 rows row) :
    TipFresh (rows ++ [row]) org tip := by
  have member : ∀ other ∈ ownRows rows org, other ∈ ownRows (rows ++ [row]) org := by
    intro other own
    rw [mem_ownRows] at own ⊢
    exact ⟨List.mem_append_left _ own.1, own.2⟩
  rcases fresh with current | ⟨next, own, position⟩
  · by_cases same : row.orgId = org
    · subst same
      have fits := holds.tipSeq_fits
      have nonneg := holds.tipSeq_nonneg
      have seq := follows.seq
      rw [← current] at fits nonneg seq
      by_cases room : tipSeq tip + 1 < 2 ^ 63
      · rw [wrapI64_of_fits ⟨by omega, room⟩] at seq
        exact Or.inr ⟨row, mem_ownRows.mpr ⟨by simp, rfl⟩, seq⟩
      · have last : tipSeq tip + 1 = 2 ^ 63 := by
          have top := fits.2
          omega
        rw [last, wrapI64_past_last] at seq
        left
        rw [tipOf_append, if_pos rfl, ← current]
        cases tip with
        | none => simp [tipSeq] at last
        | some tip =>
            simp only [tipSeq, Option.elim_some] at last
            exact (if_neg (by omega)).symm
    · exact Or.inl (current.trans (tipOf_append_other same).symm)
  · exact Or.inr ⟨next, member next own, position⟩

theorem FollowsTip.append_other {rows : List AuditLog} {row other : AuditLog}
    (follows : FollowsTip timestamps auditChainPreimage sha256 rows other)
    (foreign : other.orgId ≠ row.orgId) :
    FollowsTip timestamps auditChainPreimage sha256 (rows ++ [row]) other := by
  have tip : tipOf (rows ++ [row]) other.orgId = tipOf rows other.orgId :=
    tipOf_append_other (Ne.symm foreign)
  exact ⟨by rw [tip]; exact follows.seq, by rw [tip]; exact follows.link, follows.hashed,
    follows.nonempty⟩

theorem AppendsHold.lands {world : AuditWorld}
    (holds : AppendsHold timestamps auditChainPreimage sha256 world) {task : Nat}
    {call : RecordCall} {attempts : Nat} {row : AuditLog} {phase : RecordPhase}
    (commits : world.phases task = some (.running call attempts (.commit row)))
    (ended : Ended phase) :
    AppendsHold timestamps auditChainPreimage sha256
      (((world.land task row).release row).goto task phase) := by
  obtain ⟨follows, free, _⟩ := holds.inserted task call attempts row commits
  have rows : (((world.land task row).release row).goto task phase).rows =
      world.rows ++ [row] := rows_land world task row
  have distinct : ((world.rows ++ [row]).map AuditLog.key).Nodup := by
    rw [List.map_append, List.nodup_append]
    refine ⟨holds.distinct, List.nodup_singleton _, ?_⟩
    intro key member other itself same
    rw [List.map_singleton, List.mem_singleton] at itself
    rw [same, itself] at member
    exact free member
  constructor
  · rw [rows]
    exact distinct
  · intro org
    rw [rows]
    by_cases same : row.orgId = org
    · subst same
      exact (holds.chain row.orgId).append distinct follows
    · exact (holds.chain org).append_other distinct same
  · intro other otherCall otherAttempts tip reading
    rw [rows]
    rcases phases_goto_cases reading with ⟨rfl, rfl⟩ | ⟨differs, reading⟩
    · exact absurd ended id
    · exact (holds.reads other otherCall otherAttempts tip reading).append
        (holds.chain row.orgId) follows
  · intro other otherCall otherAttempts otherRow committing
    rw [rows]
    rcases phases_goto_cases committing with ⟨rfl, rfl⟩ | ⟨differs, committing⟩
    · exact absurd ended id
    · obtain ⟨otherFollows, otherFree, _⟩ :=
        holds.inserted other otherCall otherAttempts otherRow committing
      obtain ⟨foreign, holder⟩ :=
        (holds.released commits).2 other otherCall otherAttempts otherRow differs committing
      refine ⟨otherFollows.append_other foreign, ?_, holder⟩
      rw [List.map_append, List.mem_append]
      rintro (before | itself)
      · exact otherFree before
      · rw [List.map_singleton, List.mem_singleton] at itself
        exact foreign (congrArg Prod.fst itself)
  · intro key other holding
    obtain ⟨differs, before⟩ := (holds.released commits).1 key other holding
    obtain ⟨otherCall, otherAttempts, otherRow, committing, own⟩ := holds.held key other before
    rw [phases_goto_other _ _ differs]
    exact ⟨otherCall, otherAttempts, otherRow, committing, own⟩
  · intro other
    have landed := entriesOf_land world task other row
    have entries : entriesOf (((world.land task row).release row).goto task phase) other =
        entriesOf (world.land task row) other := rfl
    rw [entries, landed]
    by_cases same : other = task
    · subst same
      have none := holds.written other
      rw [commits] at none
      have zero : entriesOf world other = 0 := none
      rw [phases_goto_self, if_pos rfl, zero]
      cases phase with
      | running => exact absurd ended id
      | returned appended =>
          cases appended with
          | true => exact Nat.zero_add 1
          | false => exact (Nat.zero_add 1).le
      | crashed => exact (Nat.zero_add 1).le
    · rw [phases_goto_other _ _ same, if_neg same]
      exact holds.written other

/-- Every step keeps the invariant. -/
theorem auditStep_holds (lawful : timestamps.Lawful) (nonempty : ∀ bytes, sha256 bytes ≠ "")
    {world next : AuditWorld} {event : AuditEvent}
    (holds : AppendsHold timestamps auditChainPreimage sha256 world)
    (stepped : auditStep timestamps auditChainPreimage sha256 world event = some next) :
    AppendsHold timestamps auditChainPreimage sha256 next := by
  cases auditStep_effect timestamps auditChainPreimage sha256 stepped with
  | moves task phase unheld quiet => exact holds.moves unheld quiet
  | holds task call attempts tip row id clock inserts built unblocked free =>
      exact holds.holds lawful nonempty inserts built unblocked free
  | lands task call attempts row phase commits ended => exact holds.lands commits ended
  | drops task call attempts row phase commits ended failed =>
      exact holds.drops commits ended failed

end ZedRegistry
