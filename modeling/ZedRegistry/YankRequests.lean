import ZedRegistry.Lib.Simulation
import ZedRegistry.ServedArtifacts

/-!
# Yank requests

`routes/yank.rs` as concurrent requests take it, one step for each statement, over
the tables that publishes write.  A statement may fail, may take effect although it
reports an error, and a request may stop between any two.
-/

set_option autoImplicit false

namespace ZedRegistry.YankRequests

open Execution PackageViews

variable {I : Interfaces}

/-! ## Requests -/

/-- The path, the `Authorization` header and the body. -/
structure YankRequest where
  org : String
  name : String
  ver : String
  authorization : Option String
  yanked : Bool

structure YankResponse where
  org : String
  name : String
  version : String
  yanked : Bool
  deriving DecidableEq

/-- A call of `audit::record`; `process` says which request made it. -/
structure YankAudit where
  process : Nat
  orgId : Uuid
  token : Token
  action : String
  subject : String

/-- One update of the yank flag: who made it, for which row. -/
structure YankWrite where
  process : Nat
  request : YankRequest
  token : Token
  org : Org
  key : VersionKey

def auditAction (yanked : Bool) : String := if yanked then "yank" else "unyank"

def YankWrite.audit (write : YankWrite) : YankAudit where
  process := write.process
  orgId := write.org.id
  token := write.token
  action := auditAction write.request.yanked
  subject := write.request.org ++ "/" ++ write.request.name ++ "@" ++ write.request.ver

def YankWrite.response (write : YankWrite) : YankResponse where
  org := write.request.org
  name := write.request.name
  version := write.request.ver
  yanked := write.request.yanked

inductive YankPhase where
  | findOrg (request : YankRequest) (token : Token)
  | findPackage (request : YankRequest) (token : Token) (org : Org)
  | findVersion (request : YankRequest) (token : Token) (org : Org) (packageId : Uuid)
  | update (write : YankWrite)
  | record (write : YankWrite)
  | finished (result : ApiResult YankResponse)
  | crashed

/-! ## States -/

variable (I) in
/-- The registry that publishes work on, the requests, what they wrote and what they
recorded, newest first. -/
structure YankWorld where
  registry : PublishWorld I
  requests : Nat → Option YankPhase
  writes : List YankWrite
  audits : List YankAudit

/-- What a statement answers. -/
structure YankAnswer where
  dbOk : Bool
  landed : Bool

variable (I) in
inductive YankEvent where
  | registry (event : PublishEvent I)
  | arrive (process : Nat) (request : YankRequest) (tokens : String → ApiResult (Option Token))
      (now : DateTimeUtc)
  | advance (process : Nat) (answer : YankAnswer)
  | crash (process : Nat)

def YankWorld.initial (I : Interfaces) (backend : Backend) (registryWrite : Bool) :
    YankWorld I :=
  ⟨.initial I backend registryWrite, fun _ => none, [], []⟩

namespace YankWorld

def goto (world : YankWorld I) (process : Nat) (phase : YankPhase) : YankWorld I :=
  { world with requests := Function.update world.requests process (some phase) }

def fail (world : YankWorld I) (process : Nat) (error : ApiErr) : YankWorld I :=
  world.goto process (.finished (.error error))

/-- The update of one row, by its id, and of its one column. -/
def setFlag (world : YankWorld I) (write : YankWrite) : Option (YankWorld I) :=
  (publishStep world.registry (.yank write.key write.request.yanked)).map fun registry =>
    { world with registry, writes := write :: world.writes }

def logAudit (world : YankWorld I) (write : YankWrite) : YankWorld I :=
  { world with audits := write.audit :: world.audits }

end YankWorld

/-! ## Steps -/

def advanceYank (world : YankWorld I) (process : Nat) (answer : YankAnswer) :
    YankPhase → Option (YankWorld I)
  | .findOrg request token =>
    if answer.dbOk = false then some (world.fail process .database)
    else
      match world.registry.orgs.find? fun org => org.slug = request.org with
      | none => some (world.fail process (.notFound "org"))
      | some org =>
        match authorizePublish token.orgId (Role.parse token.role) org.id with
        | .error error => some (world.fail process error)
        | .ok () => some (world.goto process (.findPackage request token org))
  | .findPackage request token org =>
    if answer.dbOk = false then some (world.fail process .database)
    else
      match world.registry.packages.committed (org.id, request.name) with
      | none => some (world.fail process (.notFound "package"))
      | some package => some (world.goto process (.findVersion request token org package.id))
  | .findVersion request token org packageId =>
    if answer.dbOk = false then some (world.fail process .database)
    else
      match world.registry.versions.committed (packageId, request.ver) with
      | none => some (world.fail process (.notFound "version"))
      | some _ =>
        some (world.goto process (.update ⟨process, request, token, org,
          (packageId, request.ver)⟩))
  | .update write =>
    if answer.dbOk = true then
      (world.setFlag write).map fun next => next.goto process (.record write)
    else if answer.landed = true then
      (world.setFlag write).map fun next => next.fail process .database
    else some (world.fail process .database)
  | .record write =>
    some ((world.logAudit write).goto process (.finished (.ok write.response)))
  | .finished _ | .crashed => none

/-- The flag changes by requests only. -/
def registryStep (world : YankWorld I) (event : PublishEvent I) : Option (YankWorld I) :=
  match event with
  | .yank _ _ => none
  | _ => (publishStep world.registry event).map fun registry => { world with registry }

def yankStep (world : YankWorld I) : YankEvent I → Option (YankWorld I)
  | .registry event => registryStep world event
  | .arrive process request tokens now =>
    if (world.requests process).isSome then none
    else
      match requireToken I.sha256 tokens now request.authorization with
      | .error error => some (world.fail process error)
      | .ok token => some (world.goto process (.findOrg request token))
  | .advance process answer =>
    match world.requests process with
    | some phase => advanceYank world process answer phase
    | none => none
  | .crash process =>
    match world.requests process with
    | some (.finished _) | some .crashed | none => none
    | some _ => some (world.goto process .crashed)

/-! ## What is written -/

/-- What the last update of a row set, and false where there is none. -/
def lastFlag (writes : List YankWrite) (key : VersionKey) : Bool :=
  match writes.find? fun write => write.key = key with
  | some write => write.request.yanked
  | none => false

/-- The token was accepted for the request's credential. -/
def Accepted (I : Interfaces) (request : YankRequest) (token : Token) : Prop :=
  ∃ tokens now, requireToken I.sha256 tokens now request.authorization = .ok token

/-- The token may publish in the org that the request names. -/
structure Authorised (registry : PublishWorld I) (request : YankRequest) (token : Token)
    (org : Org) : Prop where
  accepted : Accepted I request token
  known : org ∈ registry.orgs
  slug : org.slug = request.org
  publishes : authorizePublish token.orgId (Role.parse token.role) org.id = .ok ()

/-- The write is of the version that its request names, with the authority to publish it. -/
structure Entitled (registry : PublishWorld I) (write : YankWrite) : Prop where
  authorised : Authorised registry write.request write.token write.org
  version : write.key.2 = write.request.ver
  package : ∃ package, registry.packages.committed (write.org.id, write.request.name) =
    some package ∧ package.id = write.key.1
  row : ∃ row, registry.versions.committed write.key = some row

def Unwritten (world : YankWorld I) (process : Nat) : Prop :=
  ∀ write ∈ world.writes, write.process ≠ process

def recordsOf (world : YankWorld I) (process : Nat) : List YankAudit :=
  world.audits.filter fun audit => audit.process = process

def Unrecorded (world : YankWorld I) (process : Nat) : Prop := recordsOf world process = []

/-- The process updated the row once, and recorded that once. -/
def RecordedOnce (world : YankWorld I) (process : Nat) (response : YankResponse) : Prop :=
  ∃ write ∈ world.writes, write.process = process ∧ response = write.response ∧
    recordsOf world process = [write.audit]

def RequestHolds (world : YankWorld I) (process : Nat) : Option YankPhase → Prop
  | none => Unwritten world process ∧ Unrecorded world process
  | some (.findOrg request token) =>
      Accepted I request token ∧ Unwritten world process ∧ Unrecorded world process
  | some (.findPackage request token org) =>
      Authorised world.registry request token org ∧ Unwritten world process ∧
        Unrecorded world process
  | some (.findVersion request token org packageId) =>
      (Authorised world.registry request token org ∧
        ∃ package, world.registry.packages.committed (org.id, request.name) = some package ∧
          package.id = packageId) ∧ Unwritten world process ∧ Unrecorded world process
  | some (.update write) =>
      (Entitled world.registry write ∧ write.process = process) ∧ Unwritten world process ∧
        Unrecorded world process
  | some (.record write) =>
      write ∈ world.writes ∧ write.process = process ∧ Unrecorded world process
  | some (.finished (.ok response)) => RecordedOnce world process response
  | some (.finished (.error _)) | some .crashed => Unrecorded world process

/-- What the writes so far say about the tables. -/
structure Ledger (world : YankWorld I) : Prop where
  registry : RowsHold world.registry
  flags : world.registry.versions.Every fun key row => row.yanked = lastFlag world.writes key
  writes : ∀ write ∈ world.writes, Entitled world.registry write
  once : (world.writes.map YankWrite.process).Nodup

structure Accounted (world : YankWorld I) : Prop where
  ledger : Ledger world
  requests : ∀ process, RequestHolds world process (world.requests process)

section Steps

variable {world next : YankWorld I} {process : Nat} {phase : YankPhase}

theorem Authorised.mono {registry later : PublishWorld I} (keeps : Keeps registry later)
    {request : YankRequest} {token : Token} {org : Org}
    (authorised : Authorised registry request token org) :
    Authorised later request token org :=
  { authorised with known := keeps.orgs org authorised.known }

theorem Entitled.mono {registry later : PublishWorld I} (keeps : Keeps registry later)
    {write : YankWrite} (entitled : Entitled registry write) : Entitled later write where
  authorised := entitled.authorised.mono keeps
  version := entitled.version
  package := by
    obtain ⟨package, found, own⟩ := entitled.package
    obtain ⟨kept, found, same⟩ := keeps.packages _ _ found
    exact ⟨kept, found, same.trans own⟩
  row := by
    obtain ⟨row, found⟩ := entitled.row
    obtain ⟨yanked, found⟩ := keeps.versions _ _ found
    exact ⟨_, found⟩

/-- The writes and records of one process are the same in both. -/
structure SameOwn (world next : YankWorld I) (process : Nat) : Prop where
  keeps : Keeps world.registry next.registry
  writes : ∀ write, write.process = process → (write ∈ next.writes ↔ write ∈ world.writes)
  records : recordsOf next process = recordsOf world process

theorem Unwritten.mono (own : SameOwn world next process) (unwritten : Unwritten world process) :
    Unwritten next process :=
  fun write member same => unwritten write ((own.writes write same).mp member) same

theorem Unrecorded.mono (own : SameOwn world next process)
    (unrecorded : Unrecorded world process) : Unrecorded next process :=
  own.records.trans unrecorded

theorem RequestHolds.mono (own : SameOwn world next process) {phase : Option YankPhase}
    (holds : RequestHolds world process phase) : RequestHolds next process phase := by
  cases phase with
  | none => exact ⟨holds.1.mono own, holds.2.mono own⟩
  | some phase =>
      cases phase with
      | findOrg request token => exact ⟨holds.1, holds.2.1.mono own, holds.2.2.mono own⟩
      | findPackage request token org =>
          exact ⟨holds.1.mono own.keeps, holds.2.1.mono own, holds.2.2.mono own⟩
      | findVersion request token org packageId =>
          obtain ⟨⟨authorised, package, found, same⟩, unwritten, unrecorded⟩ := holds
          obtain ⟨kept, found, same'⟩ := own.keeps.packages _ _ found
          exact ⟨⟨authorised.mono own.keeps, kept, found, same'.trans same⟩, unwritten.mono own,
            unrecorded.mono own⟩
      | update write =>
          exact ⟨⟨holds.1.1.mono own.keeps, holds.1.2⟩, holds.2.1.mono own, holds.2.2.mono own⟩
      | record write =>
          exact ⟨(own.writes write holds.2.1).mpr holds.1, holds.2.1, holds.2.2.mono own⟩
      | finished result =>
          cases result with
          | ok response =>
              obtain ⟨write, member, same, answered, recorded⟩ := holds
              exact ⟨write, (own.writes write same).mpr member, same, answered,
                own.records.trans recorded⟩
          | error error => exact Unrecorded.mono own holds
      | crashed => exact Unrecorded.mono own holds

/-- A process that moves to a phase that holds, over tables that are in order. -/
theorem Accounted.settle {middle : YankWorld I} (ledger : Ledger middle)
    (others : ∀ other, other ≠ process → RequestHolds middle other (middle.requests other))
    (own : RequestHolds middle process (some phase)) : Accounted (middle.goto process phase) where
  ledger := ⟨ledger.registry, ledger.flags, ledger.writes, ledger.once⟩
  requests other := by
    by_cases same : other = process
    · subst same
      have at' : (middle.goto other phase).requests other = some phase := Function.update_self ..
      rw [at']
      cases phase with
      | finished result => cases result <;> exact own
      | _ => exact own
    · have at' : (middle.goto process phase).requests other = middle.requests other :=
        Function.update_of_ne same ..
      rw [at']
      exact RequestHolds.mono ⟨Keeps.refl _, fun _ _ => Iff.rfl, rfl⟩ (others other same)

theorem Accounted.goto (accounted : Accounted world)
    (own : RequestHolds world process (some phase)) : Accounted (world.goto process phase) :=
  .settle accounted.ledger (fun other _ => accounted.requests other) own

/-! ## Publishes -/

theorem lastFlag_unwritten {writes : List YankWrite} {key : VersionKey}
    (unwritten : ∀ write ∈ writes, write.key ≠ key) : lastFlag writes key = false := by
  have none' : (writes.find? fun write => write.key = key) = none :=
    List.find?_eq_none.mpr fun write member => by simpa using unwritten write member
  rw [lastFlag, none']

theorem Ledger.lastFlag_absent (ledger : Ledger world) {key : VersionKey}
    (absent : world.registry.versions.committed key = none) :
    lastFlag world.writes key = false := by
  refine lastFlag_unwritten fun write member same => ?_
  obtain ⟨row, found⟩ := (ledger.writes write member).row
  rw [same, absent] at found
  contradiction

/-- A new version is not yanked, and nobody has written its flag. -/
theorem Ledger.effect_flags (ledger : Ledger world) {registry : PublishWorld I} {attempt : Nat}
    {publish : Publish I} {point : PublishPoint I}
    (effect : PublishEffect world.registry attempt publish point registry) :
    registry.versions.Every fun key row => row.yanked = lastFlag world.writes key := by
  have every := ledger.flags
  cases effect with
  | quiet | put key answer named | adopt input built adopting | record call => exact every
  | upsert id clock free unused => exact every
  | bump package row following fits bumping seen => exact every
  | rollback => exact every.rollback attempt
  | land package committing => exact every.commit attempt
  | insert package id free absent =>
      refine every.write ?_
      have missing : world.registry.versions.committed (package.id, publish.ver) = none := by
        by_contra present
        obtain ⟨row, found⟩ := Option.ne_none_iff_exists'.mp present
        obtain ⟨seen, viewed⟩ := RowTable.view_of_committed attempt found
        rw [absent] at viewed
        contradiction
      exact (ledger.lastFlag_absent missing).symm

theorem Ledger.registry_flags (ledger : Ledger world) {event : PublishEvent I}
    {registry : PublishWorld I} (stepped : publishStep world.registry event = some registry)
    (notYank : ∀ key yanked, event ≠ .yank key yanked) :
    registry.versions.Every fun key row => row.yanked = lastFlag world.writes key := by
  cases publishStep_some stepped with
  | refused | admitted | claimed | indexed => exact ledger.flags
  | advanced attempt answer publish point _ running moved =>
      obtain ⟨middle, phase, effect, rfl, -, -⟩ :=
        ledger.registry.invariant.stepsTo running moved
      have every := ledger.effect_flags effect
      exact every
  | crashed attempt publish point running => exact ledger.flags.rollback attempt
  | yanked key yanked row free found => exact absurd rfl (notYank key yanked)

theorem Accounted.registryStep (accounted : Accounted world) {event : PublishEvent I}
    (stepped : YankRequests.registryStep world event = some next) : Accounted next := by
  have moved : (∀ key yanked, event ≠ .yank key yanked) ∧ ∃ registry,
      publishStep world.registry event = some registry ∧ next = { world with registry } := by
    unfold YankRequests.registryStep at stepped
    split at stepped
    · contradiction
    · rename_i notYank
      obtain ⟨registry, moved, rfl⟩ := Option.map_eq_some_iff.mp stepped
      exact ⟨notYank, registry, moved, rfl⟩
  obtain ⟨notYank, registry, moved, rfl⟩ := moved
  have ledger := accounted.ledger
  have keeps := (publishStep_preserves ledger.registry.invariant moved).2
  exact
    { ledger :=
        { registry := publishStep_rowsHold ledger.registry moved
          flags := ledger.registry_flags moved notYank
          writes := fun write member => (ledger.writes write member).mono keeps
          once := ledger.once }
      requests := fun process => by
        have own : SameOwn world { world with registry } process :=
          ⟨keeps, fun _ _ => Iff.rfl, rfl⟩
        exact RequestHolds.mono own (accounted.requests process) }

/-! ## Updates and records -/

theorem lastFlag_cons (write : YankWrite) (writes : List YankWrite) (key : VersionKey) :
    lastFlag (write :: writes) key =
      if write.key = key then write.request.yanked else lastFlag writes key := by
  by_cases same : write.key = key
  · simp [lastFlag, same]
  · simp [lastFlag, same]

/-- After the update the flag of the row is the one that was asked for. -/
theorem Ledger.setFlag (ledger : Ledger world) {write : YankWrite}
    (entitled : Entitled world.registry write) (unwritten : Unwritten world write.process)
    (stepped : world.setFlag write = some next) :
    Ledger next ∧ Keeps world.registry next.registry ∧ next.writes = write :: world.writes ∧
      next.audits = world.audits ∧ next.requests = world.requests := by
  obtain ⟨registry, moved, rfl⟩ := Option.map_eq_some_iff.mp stepped
  have keeps := (publishStep_preserves ledger.registry.invariant moved).2
  refine ⟨⟨publishStep_rowsHold ledger.registry moved, ?_, ?_, ?_⟩, keeps, rfl, rfl, rfl⟩
  · cases publishStep_some moved with
    | yanked key yanked row free found =>
        constructor
        · intro key row present
          rw [lastFlag_cons]
          by_cases same : write.key = key
          · rw [RowTable.committed_autocommit, if_pos same.symm] at present
            rw [if_pos same, ← Option.some.inj present]
            rfl
          · rw [RowTable.committed_autocommit, if_neg (Ne.symm same)] at present
            rw [if_neg same]
            exact ledger.flags.committed key row present
        · intro key txn row held
          have differs : write.key ≠ key := by
            rintro rfl
            rw [RowTable.pending_autocommit, free] at held
            contradiction
          rw [lastFlag_cons, if_neg differs]
          exact ledger.flags.pending key txn row held
  · intro other member
    rcases List.mem_cons.mp member with rfl | member
    · exact entitled.mono keeps
    · exact (ledger.writes other member).mono keeps
  · refine List.nodup_cons.mpr ⟨fun listed => ?_, ledger.once⟩
    obtain ⟨other, member, same⟩ := List.mem_map.mp listed
    exact unwritten other member same

theorem sameOwn_write {write : YankWrite} (keeps : Keeps world.registry next.registry)
    (writes : next.writes = write :: world.writes) (audits : next.audits = world.audits)
    (other : write.process ≠ process) : SameOwn world next process where
  keeps := keeps
  writes own same := by
    rw [writes, List.mem_cons]
    refine or_iff_right ?_
    rintro rfl
    exact other same
  records := by rw [recordsOf, audits, recordsOf]

theorem sameOwn_audit {write : YankWrite} (other : write.process ≠ process) :
    SameOwn world (world.logAudit write) process where
  keeps := Keeps.refl _
  writes _ _ := Iff.rfl
  records := List.filter_cons_of_neg fun own => other (of_decide_eq_true own)

theorem Accounted.update (accounted : Accounted world) {write : YankWrite}
    (entitled : Entitled world.registry write) (unwritten : Unwritten world write.process)
    (unrecorded : Unrecorded world write.process)
    (stepped : world.setFlag write = some next) :
    Accounted (next.goto write.process (.record write)) ∧
      Accounted (next.fail write.process .database) := by
  obtain ⟨ledger, keeps, writes, audits, requests⟩ :=
    accounted.ledger.setFlag entitled unwritten stepped
  have others : ∀ other, other ≠ write.process →
      RequestHolds next other (next.requests other) := by
    intro other differs
    rw [requests]
    exact RequestHolds.mono (sameOwn_write keeps writes audits differs.symm)
      (accounted.requests other)
  have unrecorded' : Unrecorded next write.process := by
    rw [Unrecorded, recordsOf, audits]
    exact unrecorded
  refine ⟨.settle ledger others ⟨?_, rfl, unrecorded'⟩, .settle ledger others unrecorded'⟩
  rw [writes]
  exact List.mem_cons_self

theorem Accounted.record (accounted : Accounted world) {write : YankWrite}
    (written : write ∈ world.writes) (unrecorded : Unrecorded world write.process) :
    Accounted ((world.logAudit write).goto write.process (.finished (.ok write.response))) := by
  have ledger := accounted.ledger
  refine .settle ⟨ledger.registry, ledger.flags, ledger.writes, ledger.once⟩
    (fun other differs => RequestHolds.mono (sameOwn_audit differs.symm)
      (accounted.requests other)) ⟨write, written, rfl, rfl, ?_⟩
  have own : recordsOf (world.logAudit write) write.process =
      write.audit :: recordsOf world write.process :=
    List.filter_cons_of_pos (decide_eq_true rfl)
  rw [own, unrecorded]

theorem advance_accounted {answer : YankAnswer} (accounted : Accounted world)
    (holds : RequestHolds world process (some phase))
    (stepped : advanceYank world process answer phase = some next) : Accounted next := by
  cases phase with
  | findOrg request token =>
      obtain ⟨accepted, unwritten, unrecorded⟩ := holds
      simp only [advanceYank] at stepped
      split at stepped
      · obtain rfl := Option.some.inj stepped
        exact accounted.goto unrecorded
      · split at stepped
        · obtain rfl := Option.some.inj stepped
          exact accounted.goto unrecorded
        · rename_i org found
          have slug : org.slug = request.org := by simpa using List.find?_some found
          split at stepped
          · obtain rfl := Option.some.inj stepped
            exact accounted.goto unrecorded
          · rename_i publishes
            obtain rfl := Option.some.inj stepped
            exact accounted.goto ⟨⟨accepted, List.mem_of_find?_eq_some found, slug, publishes⟩,
              unwritten, unrecorded⟩
  | findPackage request token org =>
      obtain ⟨authorised, unwritten, unrecorded⟩ := holds
      simp only [advanceYank] at stepped
      split at stepped
      · obtain rfl := Option.some.inj stepped
        exact accounted.goto unrecorded
      · split at stepped
        · obtain rfl := Option.some.inj stepped
          exact accounted.goto unrecorded
        · rename_i package found
          obtain rfl := Option.some.inj stepped
          exact accounted.goto ⟨⟨authorised, package, found, rfl⟩, unwritten, unrecorded⟩
  | findVersion request token org packageId =>
      obtain ⟨⟨authorised, package⟩, unwritten, unrecorded⟩ := holds
      simp only [advanceYank] at stepped
      split at stepped
      · obtain rfl := Option.some.inj stepped
        exact accounted.goto unrecorded
      · split at stepped
        · obtain rfl := Option.some.inj stepped
          exact accounted.goto unrecorded
        · rename_i row found
          obtain rfl := Option.some.inj stepped
          exact accounted.goto ⟨⟨⟨authorised, rfl, package, row, found⟩, rfl⟩, unwritten,
            unrecorded⟩
  | update write =>
      obtain ⟨⟨entitled, rfl⟩, unwritten, unrecorded⟩ := holds
      simp only [advanceYank] at stepped
      split at stepped
      · obtain ⟨middle, written, rfl⟩ := Option.map_eq_some_iff.mp stepped
        exact (accounted.update entitled unwritten unrecorded written).1
      · split at stepped
        · obtain ⟨middle, written, rfl⟩ := Option.map_eq_some_iff.mp stepped
          exact (accounted.update entitled unwritten unrecorded written).2
        · obtain rfl := Option.some.inj stepped
          exact accounted.goto unrecorded
  | record write =>
      obtain ⟨written, rfl, unrecorded⟩ := holds
      obtain rfl := Option.some.inj stepped
      exact accounted.record written unrecorded
  | finished | crashed => contradiction

/-- A process that is not over has recorded nothing. -/
theorem RequestHolds.unrecorded (holds : RequestHolds world process (some phase))
    (running : ∀ response, phase ≠ .finished (.ok response)) : Unrecorded world process := by
  cases phase with
  | findOrg | findPackage | findVersion | update | record => exact holds.2.2
  | finished result =>
      cases result with
      | ok response => exact absurd rfl (running response)
      | error error => exact holds
  | crashed => exact holds

theorem step_accounted {event : YankEvent I} (accounted : Accounted world)
    (stepped : yankStep world event = some next) : Accounted next := by
  cases event with
  | registry event => exact accounted.registryStep stepped
  | arrive process request tokens now =>
      simp only [yankStep] at stepped
      split at stepped
      · contradiction
      · rename_i unused
        have holds := accounted.requests process
        rw [Option.not_isSome_iff_eq_none.mp unused] at holds
        split at stepped
        · obtain rfl := Option.some.inj stepped
          exact accounted.goto holds.2
        · rename_i token accepted
          obtain rfl := Option.some.inj stepped
          exact accounted.goto ⟨⟨tokens, now, accepted⟩, holds⟩
  | advance process answer =>
      simp only [yankStep] at stepped
      split at stepped
      · rename_i phase at'
        have holds := accounted.requests process
        rw [at'] at holds
        exact advance_accounted accounted holds stepped
      · contradiction
  | crash process =>
      simp only [yankStep] at stepped
      split at stepped
      · contradiction
      · contradiction
      · contradiction
      · rename_i phase unfinished alive at'
        obtain rfl := Option.some.inj stepped
        have holds := accounted.requests process
        rw [at'] at holds
        exact accounted.goto (holds.unrecorded fun response same => unfinished _ same)

end Steps

/-! ## The registry below -/

theorem advanceYank_registry {world next : YankWorld I} {process : Nat} {answer : YankAnswer}
    {phase : YankPhase} (stepped : advanceYank world process answer phase = some next) :
    next.registry = world.registry ∨
      ∃ event, publishStep world.registry event = some next.registry := by
  have written : ∀ {write middle}, world.setFlag write = some middle →
      ∃ event, publishStep world.registry event = some middle.registry := by
    intro write middle set
    obtain ⟨registry, moved, rfl⟩ := Option.map_eq_some_iff.mp set
    exact ⟨_, moved⟩
  cases phase with
  | findOrg request token =>
      simp only [advanceYank] at stepped
      split at stepped
      · exact .inl (congrArg YankWorld.registry (Option.some.inj stepped)).symm
      · split at stepped
        · exact .inl (congrArg YankWorld.registry (Option.some.inj stepped)).symm
        · split at stepped <;>
          exact .inl (congrArg YankWorld.registry (Option.some.inj stepped)).symm
  | findPackage | findVersion =>
      simp only [advanceYank] at stepped
      split at stepped
      · exact .inl (congrArg YankWorld.registry (Option.some.inj stepped)).symm
      · split at stepped <;>
        exact .inl (congrArg YankWorld.registry (Option.some.inj stepped)).symm
  | update write =>
      simp only [advanceYank] at stepped
      split at stepped
      · obtain ⟨middle, set, rfl⟩ := Option.map_eq_some_iff.mp stepped
        obtain ⟨event, moved⟩ := written set
        exact .inr ⟨event, moved⟩
      · split at stepped
        · obtain ⟨middle, set, rfl⟩ := Option.map_eq_some_iff.mp stepped
          obtain ⟨event, moved⟩ := written set
          exact .inr ⟨event, moved⟩
        · exact .inl (congrArg YankWorld.registry (Option.some.inj stepped)).symm
  | record write => exact .inl (congrArg YankWorld.registry (Option.some.inj stepped)).symm
  | finished | crashed => contradiction

theorem yankStep_registry {world next : YankWorld I} {event : YankEvent I}
    (stepped : yankStep world event = some next) :
    next.registry = world.registry ∨
      ∃ own, publishStep world.registry own = some next.registry := by
  cases event with
  | registry event =>
      simp only [yankStep, registryStep] at stepped
      split at stepped
      · contradiction
      · obtain ⟨registry, moved, rfl⟩ := Option.map_eq_some_iff.mp stepped
        exact .inr ⟨_, moved⟩
  | arrive process request tokens now =>
      simp only [yankStep] at stepped
      split at stepped
      · contradiction
      · split at stepped <;>
        exact .inl (congrArg YankWorld.registry (Option.some.inj stepped)).symm
  | advance process answer =>
      simp only [yankStep] at stepped
      split at stepped
      · exact advanceYank_registry stepped
      · contradiction
  | crash process =>
      simp only [yankStep] at stepped
      split at stepped
      · contradiction
      · contradiction
      · contradiction
      · exact .inl (congrArg YankWorld.registry (Option.some.inj stepped)).symm

/-- The registry takes each step of the requests as one of its own, or not at all. -/
theorem registry_simulates : Simulates (yankStep (I := I)) publishStep (fun _ _ => True)
    (fun _ => True) fun world image => image = world.registry where
  preserved _ _ _ _ _ := trivial
  matched := by
    rintro world event next image - - rfl stepped
    rcases yankStep_registry stepped with same | ⟨own, moved⟩
    · exact ⟨[], _, rfl, same.symm⟩
    · exact ⟨[own], _, exec_singleton moved, rfl⟩

theorem registry_run {backend : Backend} {registryWrite : Bool} {events : List (YankEvent I)}
    {world : YankWorld I}
    (run : exec yankStep (.initial I backend registryWrite) events = some world) :
    ∃ own, exec publishStep (.initial I backend registryWrite) own = some world.registry := by
  obtain ⟨own, registry, moved, rfl⟩ := registry_simulates.run trivial
    (rfl : PublishWorld.initial I backend registryWrite = _) (allowed_trivial yankStep _ events) run
  exact ⟨own, moved⟩

/-! ## Every run -/

theorem initial_accounted (I : Interfaces) (backend : Backend) (registryWrite : Bool) :
    Accounted (YankWorld.initial I backend registryWrite) where
  ledger :=
    { registry := @run_rows I backend registryWrite [] _ rfl
      flags := RowTable.every_empty
      writes := fun _ member => absurd member List.not_mem_nil
      once := List.nodup_nil }
  requests _ := ⟨fun _ member => absurd member List.not_mem_nil, rfl⟩

namespace YankSample

/-- An admin's request to yank `acme/http-kit@1.2.0`. -/
def request : YankRequest := ⟨"acme", "http-kit", "1.2.0", some "Bearer zpkg_ci", true⟩

/-- The version is released, and the request runs to its end. -/
def events : List (YankEvent PublishSample.interfaces) :=
  PublishSample.firstRelease.map .registry ++
    .arrive 0 request (fun _ => .ok (some sampleToken)) sampleTime ::
      List.replicate 5 (.advance 0 ⟨true, true⟩)

def start : YankWorld PublishSample.interfaces := .initial PublishSample.interfaces .localDir true

theorem runs : (exec yankStep start events).isSome = true := by decide +kernel

end YankSample

end ZedRegistry.YankRequests
