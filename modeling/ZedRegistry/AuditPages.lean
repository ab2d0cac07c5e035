import ZedRegistry.AuditAppendRuns
import ZedRegistry.Lib.KeysetPages

/-!
# Paging backwards through the audit log

`routes/audit.rs`, `get_audit_log`: one page of an org's log, newest first, and a
client that asks for the page below the last `seq` it was given until a page is
empty, while entries are appended.
-/

set_option autoImplicit false

namespace ZedRegistry

open KeysetPages

def auditDefaultLimit : Nat := 100

def auditMaxLimit : Nat := 1000

structure AuditQuery where
  limit : Option Nat
  action : Option String
  before : Option Int

/-- `Action` is the enumeration `AuditAction`. -/
structure AuditEntry (Action : Type) where
  atTime : String
  actionKind : Option Action
  action : String
  subject : String
  actorTokenName : String
  actorRole : String
  detail : Option String
  seq : Nat
  entryHash : String
  prevHash : Option String

structure AuditLogResponse (Action : Type) where
  org : String
  entries : List (AuditEntry Action)

def AuditQuery.pageSize (query : AuditQuery) : Nat :=
  min (max (query.limit.getD auditDefaultLimit) 1) auditMaxLimit

/-- The rows of the org with the action asked for. -/
def matchesAction (org : Uuid) (action : Option String) (row : AuditLog) : Bool :=
  decide (row.orgId = org) && action.all fun action => decide (row.action = action)

/-- `order_by_desc(seq)`, then `order_by_desc(at)`. -/
def newestFirst (early late : AuditLog) : Bool :=
  decide (late.seq < early.seq ∨
    late.seq = early.seq ∧ late.atTime.ordinal ≤ early.atTime.ordinal)

/-- What the database sorts and cuts. -/
def sortedMatches (table : List AuditLog) (org : Uuid) (query : AuditQuery) : List AuditLog :=
  (table.filter fun row => matchesAction org query.action row &&
    query.before.all fun before => decide (row.seq < before)).mergeSort newestFirst

def auditPage (table : List AuditLog) (org : Uuid) (query : AuditQuery) : List AuditLog :=
  (sortedMatches table org query).take query.pageSize

section Handler

variable {Action : Type} (timestamps : Timestamps) (parseAction : String → Option Action)
  (sha256 : Bytes → String)

def toEntry (row : AuditLog) : AuditEntry Action where
  atTime := timestamps.toRfc3339 row.atTime
  actionKind := parseAction row.action
  action := row.action
  subject := row.subject
  actorTokenName := row.actorTokenName
  actorRole := row.actorRole
  detail := row.detail
  seq := (max row.seq 0).toNat
  entryHash := row.entryHash
  prevHash := row.prevHash

def invalidAction (action : String) : ApiErr :=
  .badRequest "invalid_action"
    ("unknown action `" ++ action ++ "`; expected publish, yank, unyank, or org_claim")

def getAuditLog (answers : AuditAnswers) (authorization : Option String) (orgSlug : String)
    (query : AuditQuery) : ApiResult (AuditLogResponse Action) := do
  let token ← requireToken sha256 answers.tokens answers.now authorization
  let org ← okOrElse (← answers.orgs orgSlug) (.notFound "org")
  authorizeManage token.orgId (Role.parse token.role) org.id
  match query.action with
  | some action => ensure ((parseAction action).isSome = true) (invalidAction action)
  | none => pure ()
  let table ← answers.auditLog
  pure ⟨orgSlug, (auditPage table org.id query).map (toEntry timestamps parseAction)⟩

/-- A client that follows `before` until an empty page; `request` is what one read of
the walk is answered. -/
def followPages (request : Nat → Option Int → ApiResult (AuditLogResponse Action)) :
    Nat → Nat → Option Int → Option (ApiResult (List (AuditEntry Action)))
  | 0, _, _ => none
  | fuel + 1, step, before =>
    match request step before with
    | .error error => some (.error error)
    | .ok response =>
      match response.entries.getLast? with
      | none => some (.ok [])
      | some last => (followPages request fuel (step + 1) (some last.seq)).map
          fun rest => rest.map (response.entries ++ ·)

end Handler

/-! ## One page -/

section Page

variable {table : List AuditLog} {org : Uuid} {query : AuditQuery}

theorem pageSize_pos (query : AuditQuery) : 0 < query.pageSize := by
  unfold AuditQuery.pageSize auditMaxLimit
  omega

theorem newestFirst_sorted (rows : List AuditLog) :
    (rows.mergeSort newestFirst).Pairwise fun early late => newestFirst early late = true := by
  apply List.pairwise_mergeSort
  · intro first second third
    simp only [newestFirst, decide_eq_true_eq]
    omega
  · intro first second
    simp only [newestFirst, Bool.or_eq_true, decide_eq_true_eq]
    omega

/-- Within an org no two rows share a position, and positions count from 0. -/
structure Positions (table : List AuditLog) (org : Uuid) : Prop where
  distinct : (table.map AuditLog.key).Nodup
  counted : ∀ row ∈ table, row.orgId = org → 0 ≤ row.seq

theorem own_of_matches {action : Option String} {row : AuditLog}
    (asked : matchesAction org action row = true) : row.orgId = org := by
  rw [matchesAction, Bool.and_eq_true, decide_eq_true_eq] at asked
  exact asked.1

theorem mem_sortedMatches {row : AuditLog} :
    row ∈ sortedMatches table org query ↔
      row ∈ table ∧ matchesAction org query.action row = true ∧
        ∀ before, query.before = some before → row.seq < before := by
  rw [sortedMatches, List.mem_mergeSort, List.mem_filter, Bool.and_eq_true]
  cases query.before with
  | none => simp
  | some before => simp

theorem sortedMatches_descending (positions : Positions table org) :
    (sortedMatches table org query).Pairwise fun early late =>
      late.seq.toNat < early.seq.toNat := by
  have different : (sortedMatches table org query).Nodup :=
    (List.mergeSort_perm _ _).nodup_iff.mpr (positions.distinct.of_map _ |>.filter _)
  refine ((newestFirst_sorted _).and different).imp_of_mem ?_
  intro early late isEarly isLate ordered
  obtain ⟨earlyStored, earlyAsked, _⟩ := mem_sortedMatches.mp isEarly
  obtain ⟨lateStored, lateAsked, _⟩ := mem_sortedMatches.mp isLate
  have earlyOwn := own_of_matches earlyAsked
  have lateOwn := own_of_matches lateAsked
  have earlyCounted := positions.counted early earlyStored earlyOwn
  have lateCounted := positions.counted late lateStored lateOwn
  have less : late.seq < early.seq := by
    rcases of_decide_eq_true ordered.1 with less | ⟨same, _⟩
    · exact less
    · have sameRow := List.inj_on_of_nodup_map positions.distinct earlyStored lateStored
        (Prod.ext (earlyOwn.trans lateOwn.symm) same.symm)
      exact absurd sameRow ordered.2
  omega

/-- The page as the general walk sees it. -/
theorem auditPage_isPage (positions : Positions table org) (limit : Option Nat)
    (action : Option String) (bound : Option Nat) :
    IsPage (fun row : AuditLog => row.seq.toNat)
      (table.filter (matchesAction org action)) bound
      (AuditQuery.pageSize ⟨limit, action, none⟩)
      (auditPage table org ⟨limit, action, bound.map Int.ofNat⟩) := by
  have descending : (sortedMatches table org ⟨limit, action, bound.map Int.ofNat⟩).Pairwise
      fun early late => late.seq.toNat < early.seq.toNat := sortedMatches_descending positions
  have listed : ∀ row ∈ table.filter (matchesAction org action),
      Below (fun row : AuditLog => row.seq.toNat) bound row →
      row ∈ sortedMatches table org ⟨limit, action, bound.map Int.ofNat⟩ := by
    intro row member below
    obtain ⟨stored, asked⟩ := List.mem_filter.mp member
    refine mem_sortedMatches.mpr ⟨stored, asked, ?_⟩
    intro before isBefore
    obtain ⟨position, isBound, rfl⟩ := Option.map_eq_some_iff.mp isBefore
    have counted := positions.counted row stored (own_of_matches asked)
    have smaller : row.seq.toNat < position := below position isBound
    rw [Int.ofNat_eq_natCast]
    omega
  refine ⟨descending.sublist (List.take_sublist _ _), ?_, ?_⟩
  · intro row member
    obtain ⟨stored, asked, below⟩ := mem_sortedMatches.mp (List.mem_of_mem_take member)
    refine ⟨List.mem_filter.mpr ⟨stored, asked⟩, ?_⟩
    intro position isBound
    have smaller := below position (by rw [isBound]; rfl)
    have counted := positions.counted row stored (own_of_matches asked)
    dsimp only
    omega
  · intro row member below
    have inSorted := listed row member below
    rw [← List.take_append_drop (AuditQuery.pageSize ⟨limit, action, bound.map Int.ofNat⟩)
      (sortedMatches table org ⟨limit, action, bound.map Int.ofNat⟩)] at inSorted descending
    rcases List.mem_append.mp inSorted with onPage | later
    · exact Or.inl onPage
    · refine Or.inr ⟨?_, ?_⟩
      · have more := List.length_pos_of_mem later
        rw [List.length_drop] at more
        rw [auditPage]
        exact List.length_take_of_le (by omega)
      · intro other onPage
        exact (List.pairwise_append.mp descending).2.2 other onPage row later

end Page

/-! ## The walk of a client -/

section Walk

variable {Action : Type} (timestamps : Timestamps) (parseAction : String → Option Action)
  (sha256 : Bytes → String)

/-- What the reads of one walk are answered: an owner's token each time, and a table
to which entries are only added. -/
structure OwnerReads (authorization : Option String) (orgSlug : String) where
  org : Org
  answers : Nat → AuditAnswers
  tables : Nat → List AuditLog
  found : ∀ step, (answers step).orgs orgSlug = .ok (some org)
  admitted : ∀ step, ∃ token,
    requireToken sha256 (answers step).tokens (answers step).now authorization = .ok token ∧
      authorizeManage token.orgId (Role.parse token.role) org.id = .ok ()
  stored : ∀ step, (answers step).auditLog = .ok (tables step)
  grows : ∀ step, ∃ added, tables (step + 1) = tables step ++ added
  positions : ∀ step, Positions (tables step) org.id

variable {sha256} {authorization : Option String} {orgSlug : String}
  (reads : OwnerReads sha256 authorization orgSlug)

theorem getAuditLog_unknown {action : String} (unknown : parseAction action = none) (step : Nat)
    (limit : Option Nat) (before : Option Int) :
    getAuditLog timestamps parseAction sha256 (reads.answers step) authorization orgSlug
      ⟨limit, some action, before⟩ = .error (invalidAction action) := by
  obtain ⟨token, authenticated, managed⟩ := reads.admitted step
  simp only [getAuditLog, authenticated, reads.found, okOrElse, bind, Except.bind, Option.elim,
    managed, ensure, unknown]
  rfl

theorem getAuditLog_known {action : Option String}
    (known : ∀ name, action = some name → (parseAction name).isSome = true) (step : Nat)
    (limit : Option Nat) (before : Option Int) :
    getAuditLog timestamps parseAction sha256 (reads.answers step) authorization orgSlug
        ⟨limit, action, before⟩ =
      .ok ⟨orgSlug, (auditPage (reads.tables step) reads.org.id ⟨limit, action, before⟩).map
        (toEntry timestamps parseAction)⟩ := by
  obtain ⟨token, authenticated, managed⟩ := reads.admitted step
  simp only [getAuditLog, bind_ok, okOrElse_ok]
  refine ⟨token, authenticated, some reads.org, reads.found step, reads.org, rfl, (), managed, ?_⟩
  cases action with
  | none => exact bind_ok.mpr ⟨_, reads.stored step, rfl⟩
  | some name =>
      exact bind_ok.mpr ⟨(), ensure_ok.mpr (known name rfl),
        bind_ok.mpr ⟨_, reads.stored step, rfl⟩⟩

theorem toEntry_seq (row : AuditLog) :
    (toEntry timestamps parseAction row).seq = row.seq.toNat := by
  change (max row.seq 0).toNat = row.seq.toNat
  omega

/-- The client reads, as entries, what the general walk reads. -/
theorem followPages_eq_walk {action : Option String}
    (known : ∀ name, action = some name → (parseAction name).isSome = true) (limit : Option Nat)
    (fuel step : Nat) (bound : Option Nat) :
    followPages (fun step before => getAuditLog timestamps parseAction sha256 (reads.answers step)
        authorization orgSlug ⟨limit, action, before⟩) fuel step (bound.map Int.ofNat) =
      (walk (fun row : AuditLog => row.seq.toNat)
        (fun step bound => auditPage (reads.tables step) reads.org.id
          ⟨limit, action, bound.map Int.ofNat⟩) fuel step bound).map
        fun rows => .ok (rows.map (toEntry timestamps parseAction)) := by
  induction fuel generalizing step bound with
  | zero => rfl
  | succ fuel ih =>
      rw [followPages, walk, getAuditLog_known timestamps parseAction reads known]
      simp only [List.getLast?_map]
      cases isLast : (auditPage (reads.tables step) reads.org.id
          ⟨limit, action, bound.map Int.ofNat⟩).getLast? with
      | none => rfl
      | some last =>
          have next := ih (step + 1) (some last.seq.toNat)
          simp only [Option.map_some, toEntry_seq] at next ⊢
          rw [Int.ofNat_eq_natCast] at next
          rw [next, Option.map_map, Option.map_map]
          congr 1
          funext rows
          simp [Except.map]

/-- Starting without a bound, a client sees every entry of the log it started on that
has the action, once and in descending order, and then an empty page. -/
theorem audit_pages_cover (limit : Option Nat) (action : Option String) :
    (∀ unknown, action = some unknown → parseAction unknown = none → ∀ step before,
      getAuditLog timestamps parseAction sha256 (reads.answers step) authorization orgSlug
        ⟨limit, action, before⟩ = .error (invalidAction unknown)) ∧
    ((∀ name, action = some name → (parseAction name).isSome = true) →
      ∃ visited : List AuditLog,
        (∃ enough, ∀ fuel ≥ enough,
          followPages (fun step before => getAuditLog timestamps parseAction sha256
              (reads.answers step) authorization orgSlug ⟨limit, action, before⟩) fuel 0 none =
            some (.ok (visited.map (toEntry timestamps parseAction)))) ∧
        visited.Pairwise (fun early late => late.seq < early.seq) ∧
        (∀ row ∈ reads.tables 0, matchesAction reads.org.id action row = true →
          visited.count row = 1) ∧
        ∀ row ∈ visited, matchesAction reads.org.id action row = true ∧
          ∃ step, row ∈ reads.tables step) := by
  constructor
  · intro unknown isUnknown refused step before
    rw [isUnknown]
    exact getAuditLog_unknown timestamps parseAction reads refused step limit before
  · intro known
    have pages := fun step bound =>
      auditPage_isPage (reads.positions step) limit action bound
    have grows : ∀ step, (reads.tables step).filter (matchesAction reads.org.id action) ⊆
        (reads.tables (step + 1)).filter (matchesAction reads.org.id action) := by
      intro step row member
      obtain ⟨added, grown⟩ := reads.grows step
      rw [grown, List.filter_append]
      exact List.mem_append_left _ member
    obtain ⟨enough, visited, walked⟩ := walk_ends pages
    obtain ⟨covers, seen⟩ := walk_covers (pageSize_pos _) grows pages walked
    have counted : ∀ row ∈ visited, matchesAction reads.org.id action row = true ∧
        (∃ step, row ∈ reads.tables step) ∧ 0 ≤ row.seq := by
      intro row member
      obtain ⟨step, stored⟩ := seen row member
      obtain ⟨inTable, asked⟩ := List.mem_filter.mp stored
      exact ⟨asked, ⟨step, inTable⟩,
        (reads.positions step).counted row inTable (own_of_matches asked)⟩
    refine ⟨visited, ⟨enough, ?_⟩, ?_, ?_, ?_⟩
    · intro fuel more
      have same := followPages_eq_walk timestamps parseAction reads known limit fuel 0 none
      rw [walk_mono more walked] at same
      exact same
    · refine covers.descending.imp_of_mem ?_
      intro early late isEarly isLate less
      have earlyCounted := (counted early isEarly).2.2
      have lateCounted := (counted late isLate).2.2
      omega
    · intro row inTable asked
      refine List.count_eq_one_of_mem covers.nodup ?_
      exact covers.every row (List.mem_filter.mpr ⟨inTable, asked⟩) nofun
    · intro row member
      exact ⟨(counted row member).1, (counted row member).2.1⟩

end Walk

/-! ## Positions along a run of appends -/

/-- No org has used up the positions of an `i64`. -/
def AppendRoom (world : AuditWorld) (_ : AuditEvent) : Prop :=
  ∀ org, tipSeq (tipOf world.rows org) < 2 ^ 63 - 1

theorem counted_start {timestamps : Timestamps} {auditChainPreimage : AuditChainInput → String}
    {sha256 : Bytes → String} {rows : List AuditLog}
    (initial : LegacyThenChain timestamps auditChainPreimage sha256 rows) :
    ∀ row ∈ rows, 0 ≤ row.seq := by
  intro row member
  obtain ⟨legacy, chained, log, unchained, linked⟩ := initial.split row.orgId
  have inLog : row ∈ orgLog rows row.orgId :=
    (orgLog_perm rows row.orgId).mem_iff.mpr (mem_ownRows.mpr ⟨member, rfl⟩)
  rw [log] at inLog
  rcases List.mem_append.mp inLog with old | new
  · exact (unchained row old).1
  · exact (linked row new).1.le

/-- The append path leaves tables of the kind a walk reads. -/
theorem append_run_positions {timestamps : Timestamps}
    {auditChainPreimage : AuditChainInput → String} {sha256 : Bytes → String}
    (lawful : timestamps.Lawful) (nonempty : ∀ bytes, sha256 bytes ≠ "") {postgres : Bool}
    {rows : List AuditLog} (initial : LegacyThenChain timestamps auditChainPreimage sha256 rows)
    {events : List AuditEvent} {final : AuditWorld}
    (room : Execution.Allowed (auditStep timestamps auditChainPreimage sha256) AppendRoom
      (.start postgres rows) events)
    (run : Execution.exec (auditStep timestamps auditChainPreimage sha256)
      (.start postgres rows) events = some final) (org : Uuid) : Positions final.rows org := by
  have preserved : ∀ world event next,
      (AppendsHold timestamps auditChainPreimage sha256 world ∧
        ∀ row ∈ world.rows, 0 ≤ row.seq) → AppendRoom world event →
      auditStep timestamps auditChainPreimage sha256 world event = some next →
      AppendsHold timestamps auditChainPreimage sha256 next ∧
        ∀ row ∈ next.rows, 0 ≤ row.seq := by
    rintro world event next ⟨holds, counted⟩ hasRoom stepped
    refine ⟨auditStep_holds lawful nonempty holds stepped, ?_⟩
    rcases holds.addsAtMostOne timestamps auditChainPreimage sha256 stepped with
      same | ⟨task, row, grown, _, numbered⟩
    · rw [AuditWorld.rows, same]
      exact counted
    · have nonneg := (holds.chain row.orgId).tipSeq_nonneg
      have position := (numbered (hasRoom row.orgId)).1
      rw [AuditWorld.rows, grown, List.map_append]
      refine List.forall_mem_append.mpr ⟨counted, List.forall_mem_singleton.mpr ?_⟩
      dsimp only
      omega
  obtain ⟨holds, counted⟩ := Execution.exec_invariant_of_allowed _ preserved
    ⟨initial.appendsHold timestamps auditChainPreimage sha256 postgres, by
      rw [rows_start]
      exact counted_start initial⟩ room run
  exact ⟨holds.distinct, fun row member _ => counted row member⟩

/-! ## A sample walk -/

namespace PageSample

def parseAction (name : String) : Option String :=
  if name ∈ ["publish", "yank", "unyank", "org_claim"] then some name else none

/-- `secondEntry` is appended after the first page was read. -/
def table : Nat → List AuditLog
  | 0 => [legacyEntry, firstEntry]
  | _ + 1 => [legacyEntry, firstEntry, secondEntry]

def reads : OwnerReads sampleDigests (some "Bearer ci") "acme" where
  org := acme
  answers step := auditAnswers (table step)
  tables := table
  found _ := rfl
  admitted step := by
    have bearer : bearerToken (some "Bearer ci") = some "ci" := by decide +kernel
    refine ⟨sampleToken, ?_, rfl⟩
    unfold requireToken
    rw [bearer]
    rfl
  stored _ := rfl
  grows step := by
    cases step with
    | zero => exact ⟨[secondEntry], rfl⟩
    | succ step => exact ⟨[], rfl⟩
  positions step := by
    cases step with
    | zero => exact ⟨by decide, by decide⟩
    | succ step =>
        exact ⟨show ([legacyEntry, firstEntry, secondEntry].map AuditLog.key).Nodup by decide,
          show ∀ row ∈ [legacyEntry, firstEntry, secondEntry], row.orgId = sampleOrg → 0 ≤ row.seq
            by decide⟩

end PageSample

open PageSample in
/-- A limit of 0 is a limit of 1. -/
theorem audit_pages_cover_sample :
    ∃ visited : List AuditLog,
      (∃ enough, ∀ fuel ≥ enough,
        followPages (fun step before => getAuditLog civil parseAction sampleDigests
            (reads.answers step) (some "Bearer ci") "acme" ⟨some 0, none, before⟩) fuel 0 none =
          some (.ok (visited.map (toEntry civil parseAction)))) ∧
      visited.count firstEntry = 1 ∧ visited.count legacyEntry = 1 := by
  obtain ⟨visited, ends, _, once, _⟩ :=
    (audit_pages_cover civil parseAction reads (some 0) none).2 nofun
  exact ⟨visited, ends, once firstEntry (by decide) (by decide),
    once legacyEntry (by decide) (by decide)⟩

end ZedRegistry
