import Mathlib.Data.List.MinMax
import ZedRegistry.AuditVerify
import ZedRegistry.Lib.Execution

/-!
# Appending to the audit chain

`audit.rs`, `record` and `append_chained`: tasks of any number of replicas
append to one table.  A transaction that has inserted its row holds the unique
key `(org_id, seq)` until it ends; an insert of that key waits for it.  The
advisory lock only removes interleavings, so it is not modelled beyond its
statement.
-/

set_option autoImplicit false

namespace ZedRegistry

def appendAttempts : Nat := 4

/-- The unique index `idx_audit_log_org_seq`. -/
def AuditLog.key (row : AuditLog) : Uuid × Int := (row.orgId, row.seq)

def actorRole (token : Token) : String := if token.orgId = none then "admin" else token.role

/-- A reading of `Utc::now`: the system clock has no leap seconds. -/
abbrev ClockReading := { time : DateTimeUtc // time.nano < 1000000000 }

theorem truncated_valid (now : ClockReading) : now.val.minuteOfDay < 1440 ∧
    now.val.second < 60 ∧ (now.val.nano / 1000 * 1000 < 1000000000 ∨
      now.val.second = 59 ∧ now.val.nano / 1000 * 1000 < 2000000000) := by
  have bounds := now.val.valid
  have whole := now.property
  exact ⟨bounds.1, bounds.2.1, Or.inl (by omega)⟩

/-- The clock cut to the microseconds that the database keeps. -/
def chainTimestamp (now : ClockReading) : DateTimeUtc :=
  { now.val with nano := now.val.nano / 1000 * 1000, valid := truncated_valid now }

theorem chainTimestamp_wholeMicros (now : ClockReading) : (chainTimestamp now).WholeMicros := by
  have whole := now.property
  constructor
  · change now.val.nano / 1000 * 1000 < 1000000000
    omega
  · exact Nat.mul_mod_left _ _

/-! ## One entry -/

/-- The arguments of `record`; `action` is `action.as_str()`. -/
structure RecordCall where
  orgId : Uuid
  token : Token
  action : String
  subject : String
  detail : Option String

/-- The newest row of the org: `order_by_desc(seq)`, then `one`. -/
def tipOf (rows : List AuditLog) (org : Uuid) : Option AuditLog :=
  @List.argmax AuditLog Int Int.instLinearOrder.toPartialOrder.toPreorder Int.decLt AuditLog.seq
    (rows.filter fun row => row.orgId = org)

def tipSeq (tip : Option AuditLog) : Int := tip.elim 0 AuditLog.seq

/-- A legacy tip carries an empty hash, which is no predecessor. -/
def tipHash (tip : Option AuditLog) : Option String :=
  (tip.map AuditLog.entryHash).filter fun hash => hash ≠ ""

section Record

variable (timestamps : Timestamps) (auditChainPreimage : AuditChainInput → String)
  (sha256 : Bytes → String)

def appendInput (call : RecordCall) (tip : Option AuditLog) (now : ClockReading) :
    AuditChainInput where
  orgId := call.orgId.hyphenated
  seq := (wrapI64 (tipSeq tip + 1) % 2 ^ 64).toNat
  atTime := timestamps.toRfc3339 (chainTimestamp now)
  action := call.action
  subject := call.subject
  actorTokenId := some call.token.id.hyphenated
  actorTokenName := call.token.name
  actorRole := actorRole call.token
  detail := call.detail
  prevHash := (tipHash tip).getD ""

/-- The row as it is read back: the database has stored its timestamp. -/
def chainRow (call : RecordCall) (tip : Option AuditLog) (id : Uuid) (now : ClockReading) :
    AuditLog where
  id := id
  orgId := call.orgId
  atTime := timestamps.stored (chainTimestamp now)
  action := call.action
  subject := call.subject
  actorTokenId := some call.token.id
  actorTokenName := call.token.name
  actorRole := actorRole call.token
  detail := call.detail
  seq := wrapI64 (tipSeq tip + 1)
  entryHash := entryDigest auditChainPreimage sha256 (appendInput timestamps call tip now)
  prevHash := tipHash tip
  seqFits := wrapI64_fits _

/-- What was hashed is what the verifier hashes again. -/
theorem expectedHash_chainRow (lawful : timestamps.Lawful) (call : RecordCall)
    (tip : Option AuditLog) (id : Uuid) (now : ClockReading) :
    expectedHash timestamps auditChainPreimage sha256
        (chainRow timestamps auditChainPreimage sha256 call tip id now)
        ((tipHash tip).getD "") =
      (chainRow timestamps auditChainPreimage sha256 call tip id now).entryHash := by
  have kept := lawful.stored_of_wholeMicros _ (chainTimestamp_wholeMicros now)
  have input : chainInput timestamps
      (chainRow timestamps auditChainPreimage sha256 call tip id now)
      ((tipHash tip).getD "") = appendInput timestamps call tip now := by
    simp [chainInput, chainRow, appendInput, kept]
  rw [expectedHash, input]
  rfl

end Record

/-! ## States -/

inductive RecordPoint where
  | begin
  | lock
  | readTip
  | insert (tip : Option AuditLog)
  | commit (row : AuditLog)

/-- `attempts` counts this attempt and those after it; `returned` says whether
the attempt that ended the call was reported committed. -/
inductive RecordPhase where
  | running (call : RecordCall) (attempts : Nat) (point : RecordPoint)
  | returned (appended : Bool)
  | crashed

/-- A committed row, and the task that wrote it. -/
structure LoggedRow where
  row : AuditLog
  writer : Option Nat

/-- `holders` says which open transaction has inserted a key. -/
structure AuditWorld where
  postgres : Bool
  entries : List LoggedRow
  holders : Uuid × Int → Option Nat
  phases : Nat → Option RecordPhase

/-- What the environment answers to one statement; `landed` says whether a
commit that reports an error, or that the task did not live to see, took effect
all the same. -/
structure AppendAnswer where
  dbOk : Bool
  landed : Bool
  id : Uuid
  clock : ClockReading

inductive AuditEvent where
  | record (task : Nat) (call : RecordCall)
  | advance (task : Nat) (answer : AppendAnswer)
  | crash (task : Nat) (landed : Bool)

namespace AuditWorld

def rows (world : AuditWorld) : List AuditLog := world.entries.map LoggedRow.row

def goto (world : AuditWorld) (task : Nat) (phase : RecordPhase) : AuditWorld :=
  { world with phases := Function.update world.phases task (some phase) }

def holdKey (world : AuditWorld) (task : Nat) (row : AuditLog) : AuditWorld :=
  { world with holders := Function.update world.holders row.key (some task) }

/-- The transaction of an inserted row ends and its key is free. -/
def release (world : AuditWorld) (row : AuditLog) : AuditWorld :=
  { world with holders := Function.update world.holders row.key none }

def land (world : AuditWorld) (task : Nat) (row : AuditLog) : AuditWorld :=
  { world with entries := world.entries ++ [⟨row, some task⟩] }

/-- The retry of `record` after another writer claimed the position. -/
def positionTaken (world : AuditWorld) (task : Nat) (call : RecordCall) (attempts : Nat) :
    AuditWorld :=
  if attempts ≤ 1 then world.goto task (.returned false)
  else world.goto task (.running call (attempts - 1) .begin)

end AuditWorld

/-! ## Steps -/

section Steps

variable (timestamps : Timestamps) (auditChainPreimage : AuditChainInput → String)
  (sha256 : Bytes → String)

/-- One statement of `append_chained`.  A statement that fails ends the call,
except an insert of a position that is taken. -/
def appendStep (world : AuditWorld) (task : Nat) (call : RecordCall) (attempts : Nat)
    (answer : AppendAnswer) : RecordPoint → Option AuditWorld
  | .begin =>
    if answer.dbOk then
      some (world.goto task
        (.running call attempts (if world.postgres then .lock else .readTip)))
    else some (world.goto task (.returned false))
  | .lock =>
    if answer.dbOk then some (world.goto task (.running call attempts .readTip))
    else some (world.goto task (.returned false))
  | .readTip =>
    if answer.dbOk then
      some (world.goto task
        (.running call attempts (.insert (tipOf world.rows call.orgId))))
    else some (world.goto task (.returned false))
  | .insert tip =>
    let row :=
      chainRow timestamps auditChainPreimage sha256 call tip answer.id answer.clock
    if answer.dbOk = false then some (world.goto task (.returned false))
    else if (world.holders row.key).isSome then none
    else if row.key ∈ world.rows.map AuditLog.key then
      some (world.positionTaken task call attempts)
    else some ((world.holdKey task row).goto task (.running call attempts (.commit row)))
  | .commit row =>
    if answer.dbOk then some (((world.land task row).release row).goto task (.returned true))
    else if answer.landed then
      some (((world.land task row).release row).goto task (.returned false))
    else some ((world.release row).goto task (.returned false))

def auditStep (world : AuditWorld) : AuditEvent → Option AuditWorld
  | .record task call =>
    match world.phases task with
    | none => some (world.goto task (.running call appendAttempts .begin))
    | some _ => none
  | .advance task answer =>
    match world.phases task with
    | some (.running call attempts point) =>
      appendStep timestamps auditChainPreimage sha256 world task call attempts answer point
    | _ => none
  | .crash task landed =>
    match world.phases task with
    | some (.running _ _ (.commit row)) =>
      let ended := if landed then world.land task row else world
      some ((ended.release row).goto task .crashed)
    | some (.running _ _ _) => some (world.goto task .crashed)
    | _ => none

end Steps

end ZedRegistry
