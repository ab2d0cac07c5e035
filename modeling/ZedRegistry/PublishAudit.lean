import ZedRegistry.CanonicalAdoption
import ZedRegistry.PublishAtomic

/-!
# Audit entries of committed versions

The audit call of a publish follows its commit and the canonical adoption.  Who
gives up in between leaves a committed version without an entry, and no retry
makes up for it: the next publish of the same facts stops at the conflict.
-/

set_option autoImplicit false

namespace ZedRegistry

open Execution

variable {I : Interfaces}

/-! ## What the claim speaks of -/

/-- The call that `publish` makes once its version is adopted. -/
def auditCall (publish : Publish I) : AuditCall :=
  ⟨publish.org.id, publish.token, versionLabel publish, some ("sha256=" ++ publish.actualSha)⟩

/-- The `publish` entries of an org for a version and its digest. -/
def publishAudits (world : PublishWorld I) (orgId : Uuid) (subject sha256 : String) :
    List AuditCall :=
  world.audits.filter fun call =>
    call.orgId = orgId ∧ call.subject = subject ∧ call.detail = some ("sha256=" ++ sha256)

/-- Each committed version has exactly one entry for its coordinates and digest. -/
def EveryVersionAudited (world : PublishWorld I) : Prop :=
  ∀ org ∈ world.orgs, ∀ name ver package row,
    world.packages.committed (org.id, name) = some package →
    world.versions.committed (package.id, ver) = some row →
    (publishAudits world org.id (org.slug ++ "/" ++ name ++ "@" ++ ver) row.sha256).length = 1

def Active (world : PublishWorld I) (attempt : Nat) : Prop :=
  ∃ publish point, world.phases attempt = some (.running publish point)

/-- All started requests have finished. -/
def AllFinished (world : PublishWorld I) : Prop := ∀ attempt, ¬Active world attempt

/-- The manifest check accepts no package name with an `@`, as names are slugs. -/
def SlugNames (I : Interfaces) : Prop :=
  ∀ manifest, I.validateManifest manifest = .ok () → '@' ∉ manifest.package.name.toList

/-! ## What a step must meet -/

/-- A commit that takes effect reports so, the adoption of the committed version
succeeds, and nothing stops the publish from there to its audit call. -/
def completesAudit (world : PublishWorld I) : PublishEvent I → Bool
  | .advance attempt answer =>
    match world.phases attempt with
    | some (.running _ (.commit _)) => answer.dbOk || !answer.landed
    | some (.running publish .adoptPublished) =>
      world.registryWrite && (machinePublishInput publish).isOk && answer.adopted.isOk
    | _ => true
  | .crash attempt =>
    match world.phases attempt with
    | some (.running _ .adoptPublished) | some (.running _ .audit) => false
    | _ => true
  | _ => true

def AuditStep (world : PublishWorld I) (event : PublishEvent I) : Prop :=
  completesAudit world event = true

instance (world : PublishWorld I) (event : PublishEvent I) : Decidable (AuditStep world event) :=
  inferInstanceAs (Decidable (_ = true))

/-! ## Coordinates -/

/-- The label of a version names it within its org. -/
theorem versionLabel_injective {first second : Publish I} (sameOrg : first.org = second.org)
    (firstName : '@' ∉ first.name.toList) (secondName : '@' ∉ second.name.toList)
    (same : versionLabel first = versionLabel second) :
    first.name = second.name ∧ first.ver = second.ver := by
  have chars := congrArg String.toList same
  simp only [versionLabel, sameOrg, String.toList_append, List.append_assoc] at chars
  have tails := List.append_cancel_left (List.append_cancel_left chars)
  have split := congrArg (splitOnce '@') tails
  change splitOnce '@' (first.name.toList ++ '@' :: first.ver.toList) =
    splitOnce '@' (second.name.toList ++ '@' :: second.ver.toList) at split
  rw [splitOnce_append firstName, splitOnce_append secondName] at split
  obtain ⟨name, ver⟩ := Prod.mk.inj (Option.some.inj split)
  exact ⟨String.toList_injective name, String.toList_injective ver⟩

/-- Coordinates and digest, as an audit entry shows them, have one author. -/
theorem TablesHold.author_of_label {world : PublishWorld I} (tables : TablesHold world)
    {key key' : VersionKey} {attempt attempt' : Nat} {author author' : Publish I}
    (known : world.authors key = some (attempt, author))
    (known' : world.authors key' = some (attempt', author'))
    (name : '@' ∉ author.name.toList) (name' : '@' ∉ author'.name.toList)
    (sameOrg : author'.org.id = author.org.id)
    (sameLabel : versionLabel author' = versionLabel author) :
    attempt' = attempt ∧ author' = author := by
  obtain ⟨_, -, recorded⟩ := tables.recorded_of_author known
  obtain ⟨_, -, recorded'⟩ := tables.recorded_of_author known'
  have org := tables.orgs _ recorded'.known _ recorded.known (Or.inr sameOrg)
  obtain ⟨names, versions⟩ := versionLabel_injective org name' name sameLabel
  have other : CommittedBy world author attempt' author' := ⟨key', known', org, names, versions⟩
  exact tables.author_unique other ⟨key, known, rfl, rfl, rfl⟩

/-! ## What a step does to attempts, authors and entries -/

/-- A publish that has committed its version and still owes the audit call. -/
def Owes : PublishPoint I → Prop
  | .adoptPublished | .audit => True
  | _ => False

/-- The cases of one step; a phase that is not running is an end of its attempt. -/
inductive LedgerStep (world : PublishWorld I) (event : PublishEvent I) (next : PublishWorld I) :
    Prop where
  | beside (phases : next.phases = world.phases) (authors : next.authors = world.authors)
      (audits : next.audits = world.audits) (meets : AuditStep world event)
  | moved (attempt : Nat) (phase : PublishPhase I)
      (unlanded : ∀ key author, world.authors key ≠ some (attempt, author))
      (later : ∀ publish point, phase = .running publish point →
        ('@' ∉ publish.name.toList) ∧ ¬Owes point)
      (phases : next.phases = Function.update world.phases attempt (some phase))
      (authors : next.authors = world.authors) (audits : next.audits = world.audits)
      (meets : AuditStep world event)
  | landed (attempt : Nat) (publish : Publish I) (package : Package I) (phase : PublishPhase I)
      (before : world.phases attempt = some (.running publish (.commit package)))
      (unauthored : world.authors (package.id, publish.ver) = none)
      (phases : next.phases = Function.update world.phases attempt (some phase))
      (authors : next.authors =
        Function.update world.authors (package.id, publish.ver) (some (attempt, publish)))
      (audits : next.audits = world.audits)
      (outcome : phase = .running publish .adoptPublished ∧ AuditStep world event ∨
        (∀ other point, phase ≠ .running other point) ∧ ¬AuditStep world event)
  | owing (attempt : Nat) (publish : Publish I) (point : PublishPoint I) (phase : PublishPhase I)
      (before : world.phases attempt = some (.running publish point)) (owes : Owes point)
      (phases : next.phases = Function.update world.phases attempt (some phase))
      (authors : next.authors = world.authors) (audits : next.audits = world.audits)
      (outcome : phase = .running publish .audit ∧ AuditStep world event ∨
        (∀ other point, phase ≠ .running other point) ∧ ¬AuditStep world event)
  | audited (attempt : Nat) (publish : Publish I) (phase : PublishPhase I)
      (before : world.phases attempt = some (.running publish .audit))
      (ended : ∀ other point, phase ≠ .running other point)
      (phases : next.phases = Function.update world.phases attempt (some phase))
      (authors : next.authors = world.authors)
      (audits : next.audits = auditCall publish :: world.audits)
      (meets : AuditStep world event)

section Steps

variable {world next middle : PublishWorld I} {attempt : Nat} {publish : Publish I}
  {point : PublishPoint I} {answer : StepAnswer}

theorem adoptStep_audits (phase : PublishPhase I) :
    (adoptStep world attempt publish answer phase).audits = world.audits := by
  unfold adoptStep
  split
  · rfl
  · split
    · rfl
    · split
      · rfl
      · rfl

/-- Only the audit call adds an entry. -/
theorem advance_audits (silent : point ≠ .audit)
    (stepped : advance world attempt publish answer point = some next) :
    next.audits = world.audits := by
  cases point with
  | audit => exact absurd rfl silent
  | adoptRetry | adoptWinner | adoptPublished =>
      obtain rfl := Option.some.inj stepped
      exact adoptStep_audits _
  | putAliases keys =>
      cases keys with
      | nil =>
          obtain rfl := Option.some.inj stepped
          rfl
      | cons key rest =>
          simp only [advance] at stepped
          split at stepped
          · obtain rfl := Option.some.inj stepped
            rfl
          · obtain rfl := Option.some.inj stepped
            rfl
  | _ =>
      simp only [advance] at stepped
      repeat' split at stepped
      all_goals first
        | contradiction
        | obtain rfl := Option.some.inj stepped
          rfl

end Steps

/-! ## The invariant -/

/-- Who runs has a slug for a name; who has committed a version runs towards its audit
call or has ended; and the entries are those of authors that have ended. -/
structure AuditsHold (world : PublishWorld I) : Prop where
  names : ∀ attempt publish point, world.phases attempt = some (.running publish point) →
    '@' ∉ publish.name.toList
  authorNames : ∀ key attempt author, world.authors key = some (attempt, author) →
    '@' ∉ author.name.toList
  begun : ∀ key attempt author, world.authors key = some (attempt, author) →
    world.phases attempt ≠ none
  owing : ∀ key attempt author publish point, world.authors key = some (attempt, author) →
    world.phases attempt = some (.running publish point) → publish = author ∧ Owes point
  calls : ∀ call ∈ world.audits, ∃ key attempt author,
    world.authors key = some (attempt, author) ∧ call = auditCall author ∧ ¬Active world attempt

section Ledger

variable {world next : PublishWorld I} {attempt : Nat} {publish : Publish I}
  {point : PublishPoint I} {answer : StepAnswer}

/-- Whoever runs without an audit call to make has committed nothing. -/
theorem AuditsHold.unlanded (holds : AuditsHold world)
    (running : world.phases attempt = some (.running publish point)) (early : ¬Owes point)
    (key : VersionKey) (author : Publish I) : world.authors key ≠ some (attempt, author) := by
  intro known
  exact early (holds.owing _ _ _ _ _ known running).2

theorem advance_ledger_moved (invariant : PublishInvariant world) (holds : AuditsHold world)
    (running : world.phases attempt = some (.running publish point))
    (stepped : advance world attempt publish answer point = some next) (early : ¬Owes point)
    (uncommitted : ∀ package, point ≠ .commit package)
    (meets : AuditStep world (.advance attempt answer)) :
    LedgerStep world (.advance attempt answer) next := by
  have silent : point ≠ .audit := by
    rintro rfl
    exact early trivial
  have audits := advance_audits silent stepped
  obtain ⟨middle, phase, effect, rfl, own, later⟩ := invariant.stepsTo running stepped
  have authors : middle.authors = world.authors := by
    rcases effect.rows with unchanged | ⟨package, committing, -⟩
    · exact unchanged.2
    · exact absurd committing (uncommitted package)
  have phases : (middle.goto attempt phase).phases =
      Function.update world.phases attempt (some phase) := by
    unfold PublishWorld.goto
    rw [effect.phases]
  have unlanded := holds.unlanded running early
  refine .moved attempt phase unlanded ?_ phases authors audits meets
  · rintro other after rfl
    obtain rfl : other = publish := own
    refine ⟨holds.names _ _ _ running, ?_⟩
    intro owes
    have authored : Authored middle attempt other := by
      cases after with
      | adoptPublished | audit => exact later.2.2
      | _ => exact owes.elim
    obtain ⟨key, known⟩ := authored
    rw [authors] at known
    exact unlanded key other known

theorem advance_ledger_commit {package : Package I} (invariant : PublishInvariant world)
    (holds : AuditsHold world)
    (running : world.phases attempt = some (.running publish (.commit package)))
    (stepped : advance world attempt publish answer (.commit package) = some next) :
    LedgerStep world (.advance attempt answer) next := by
  have facts := invariant.running running
  have unauthored := (facts.2.2.2.unauthored invariant.tables).2
  simp only [advance] at stepped
  split at stepped
  · rename_i works
    obtain rfl := Option.some.inj stepped
    refine .landed attempt publish package _ running unauthored rfl rfl rfl (Or.inl ⟨rfl, ?_⟩)
    simp [AuditStep, completesAudit, running, works]
  · rename_i fails
    split at stepped
    · rename_i landed
      obtain rfl := Option.some.inj stepped
      refine .landed attempt publish package _ running unauthored rfl rfl rfl (Or.inr ⟨?_, ?_⟩)
      · intro other point same
        cases same
      · simpa [AuditStep, completesAudit, running, landed] using fails
    · rename_i lost
      obtain rfl := Option.some.inj stepped
      refine .moved attempt _ (holds.unlanded running fun owes => owes) ?_ rfl rfl rfl ?_
      · intro other point same
        cases same
      · simpa [AuditStep, completesAudit, running] using Or.inr lost

theorem advance_ledger_adopt
    (running : world.phases attempt = some (.running publish .adoptPublished))
    (stepped : advance world attempt publish answer .adoptPublished = some next) :
    LedgerStep world (.advance attempt answer) next := by
  have fails (middle : PublishWorld I) (error : ApiErr) (phases : middle.phases = world.phases)
      (authors : middle.authors = world.authors) (audits : middle.audits = world.audits)
      (misses : ¬AuditStep world (.advance attempt answer)) :
      LedgerStep world (.advance attempt answer) (middle.finish attempt (.error error)) := by
    refine .owing attempt publish _ _ running trivial
      (congrArg (Function.update · attempt _) phases) authors audits (Or.inr ⟨?_, misses⟩)
    intro other point same
    cases same
  simp only [advance, adoptStep] at stepped
  split at stepped
  · rename_i unconfigured
    obtain rfl := Option.some.inj stepped
    exact fails world _ rfl rfl rfl (by simp [AuditStep, completesAudit, running, unconfigured])
  · rename_i configured
    split at stepped
    · rename_i error unbuilt
      obtain rfl := Option.some.inj stepped
      exact fails world _ rfl rfl rfl (by
        simp [AuditStep, completesAudit, running, unbuilt, Except.isOk, Except.toBool])
    · rename_i input built
      split at stepped
      · rename_i adopted
        obtain rfl := Option.some.inj stepped
        refine .owing attempt publish _ _ running trivial rfl rfl rfl (Or.inl ⟨rfl, ?_⟩)
        simpa [AuditStep, completesAudit, running, built, adopted, Except.isOk, Except.toBool] using
          configured
      · rename_i error refused
        obtain rfl := Option.some.inj stepped
        exact fails (world.logAdoption publish input) _ rfl rfl rfl
          (by simp [AuditStep, completesAudit, running, refused, Except.isOk, Except.toBool])

theorem advance_ledger (invariant : PublishInvariant world) (holds : AuditsHold world)
    (running : world.phases attempt = some (.running publish point))
    (stepped : advance world attempt publish answer point = some next) :
    LedgerStep world (.advance attempt answer) next := by
  have moved := advance_ledger_moved invariant holds running stepped
  cases point with
  | commit package => exact advance_ledger_commit invariant holds running stepped
  | adoptPublished => exact advance_ledger_adopt running stepped
  | audit =>
      obtain rfl := Option.some.inj stepped
      refine .audited attempt publish _ running ?_ rfl rfl rfl (by
        simp [AuditStep, completesAudit, running])
      intro other point same
      cases same
  | _ =>
      apply moved (fun owes => owes)
      · intro package same
        cases same
      · simp [AuditStep, completesAudit, running]

theorem crash_ledger (holds : AuditsHold world)
    (running : world.phases attempt = some (.running publish point)) :
    LedgerStep world (.crash attempt) ((world.rollback attempt).goto attempt .crashed) := by
  have ended (other : Publish I) (later : PublishPoint I) :
      (PublishPhase.crashed : PublishPhase I) ≠ .running other later := by
    intro same
    cases same
  by_cases owes : Owes point
  · refine .owing attempt publish point _ running owes rfl rfl rfl (Or.inr ⟨ended, ?_⟩)
    cases point with
    | adoptPublished | audit => simp [AuditStep, completesAudit, running]
    | _ => exact owes.elim
  · refine .moved attempt _ (holds.unlanded running owes)
      (fun other later same => absurd same (ended other later)) rfl rfl rfl ?_
    cases point with
    | adoptPublished | audit => exact absurd trivial owes
    | _ => simp [AuditStep, completesAudit, running]

/-- Every step is one of the ledger's. -/
theorem publishStep_ledger {event : PublishEvent I} (slugs : SlugNames I)
    (invariant : PublishInvariant world) (holds : AuditsHold world)
    (stepped : publishStep world event = some next) : LedgerStep world event next := by
  have unlanded {attempt : Nat} (unused : world.phases attempt = none) (key : VersionKey)
      (author : Publish I) : world.authors key ≠ some (attempt, author) := by
    intro known
    exact holds.begun _ _ _ known unused
  cases publishStep_some stepped with
  | refused attempt answers request error unused =>
      refine .moved attempt _ (unlanded unused) ?_ rfl rfl rfl rfl
      intro other later same
      cases same
  | admitted attempt answers request publish unused accepted =>
      refine .moved attempt _ (unlanded unused) ?_ rfl rfl rfl rfl
      intro other later same
      obtain ⟨rfl, rfl⟩ := PublishPhase.running.inj same
      exact ⟨slugs _ (admitPublish_validated I accepted), fun owes => owes⟩
  | advanced attempt answer publish point _ running moved =>
      exact advance_ledger invariant holds running moved
  | crashed attempt publish point running => exact crash_ledger holds running
  | claimed | yanked | indexed => exact .beside rfl rfl rfl rfl

end Ledger

/-! ## Entries -/

/-- The entries that pass for those of an author. -/
def auditsOf (world : PublishWorld I) (author : Publish I) : List AuditCall :=
  publishAudits world author.org.id (versionLabel author) author.actualSha

/-- Whoever has committed a version still runs, or has its one entry. -/
def Accounted (world : PublishWorld I) : Prop :=
  ∀ key attempt author, world.authors key = some (attempt, author) →
    Active world attempt ∨ (auditsOf world author).length = 1

section Entries

variable {world next : PublishWorld I} {attempt : Nat}

/-- Entries of other attempts are not those of an author. -/
theorem auditsOf_eq_nil (tables : TablesHold world) {key : VersionKey} {author : Publish I}
    (known : world.authors key = some (attempt, author)) (name : '@' ∉ author.name.toList)
    (calls : ∀ call ∈ world.audits, ∃ key' other author',
      world.authors key' = some (other, author') ∧ call = auditCall author' ∧
        '@' ∉ author'.name.toList ∧ other ≠ attempt) : auditsOf world author = [] := by
  apply List.eq_nil_iff_forall_not_mem.mpr
  intro call member
  obtain ⟨made, fits⟩ := List.mem_filter.mp member
  obtain ⟨key', other, author', known', rfl, name', differs⟩ := calls call made
  obtain ⟨sameOrg, sameLabel, -⟩ := of_decide_eq_true fits
  exact differs (tables.author_of_label known known' name name' sameOrg sameLabel).1

theorem AuditsHold.none_while_active (tables : TablesHold world) (holds : AuditsHold world)
    {key : VersionKey} {author : Publish I} (known : world.authors key = some (attempt, author))
    (active : Active world attempt) : auditsOf world author = [] := by
  apply auditsOf_eq_nil tables known (holds.authorNames _ _ _ known)
  intro call made
  obtain ⟨key', other, author', known', same, ended⟩ := holds.calls call made
  refine ⟨key', other, author', known', same, holds.authorNames _ _ _ known', ?_⟩
  rintro rfl
  exact ended active

section Update

variable {phase : PublishPhase I} {other : Nat}
  (phases : next.phases = Function.update world.phases attempt (some phase))
include phases

theorem active_other (differs : other ≠ attempt) : Active next other ↔ Active world other := by
  unfold Active
  rw [phases, Function.update_of_ne differs]

theorem active_running {publish : Publish I} {point : PublishPoint I}
    (running : phase = .running publish point) : Active next attempt := by
  refine ⟨publish, point, ?_⟩
  rw [phases, Function.update_self, running]

theorem not_active_ended (ended : ∀ publish point, phase ≠ .running publish point) :
    ¬Active next attempt := by
  rintro ⟨publish, point, running⟩
  rw [phases, Function.update_self] at running
  exact ended publish point (Option.some.inj running)

theorem running_update {publish : Publish I} {point : PublishPoint I}
    (running : next.phases other = some (.running publish point)) :
    other = attempt ∧ phase = .running publish point ∨
      other ≠ attempt ∧ world.phases other = some (.running publish point) := by
  rw [phases] at running
  by_cases same : other = attempt
  · subst same
    rw [Function.update_self] at running
    exact Or.inl ⟨rfl, Option.some.inj running⟩
  · rw [Function.update_of_ne same] at running
    exact Or.inr ⟨same, running⟩

theorem begun_update (begun : world.phases other ≠ none) : next.phases other ≠ none := by
  rw [phases]
  by_cases same : other = attempt
  · subst same
    rw [Function.update_self]
    exact Option.some_ne_none _
  · rwa [Function.update_of_ne same]

end Update

/-- A step of an attempt that keeps the authors: who else has committed is not
touched, and the attempt itself ends or runs on to its audit call. -/
theorem AuditsHold.carry {phase : PublishPhase I} (holds : AuditsHold world)
    (phases : next.phases = Function.update world.phases attempt (some phase))
    (authors : next.authors = world.authors)
    (names : ∀ publish point, phase = .running publish point → '@' ∉ publish.name.toList)
    (own : ∀ key author publish point, world.authors key = some (attempt, author) →
      phase = .running publish point → publish = author ∧ Owes point)
    (calls : ∀ call ∈ next.audits, ∃ key other author, world.authors key = some (other, author) ∧
      call = auditCall author ∧ ¬Active next other) : AuditsHold next where
  names other publish point running := by
    rcases running_update phases running with ⟨-, same⟩ | ⟨-, before⟩
    · exact names publish point same
    · exact holds.names _ _ _ before
  authorNames key other author known := holds.authorNames key other author (authors ▸ known)
  begun key other author known :=
    begun_update phases (holds.begun key other author (authors ▸ known))
  owing key other author publish point known running := by
    rw [authors] at known
    rcases running_update phases running with ⟨rfl, same⟩ | ⟨-, before⟩
    · exact own key author publish point known same
    · exact holds.owing _ _ _ _ _ known before
  calls := by
    rw [authors]
    exact calls

/-- The entries made before stay those of authors that have ended. -/
theorem AuditsHold.calls_carry {phase : PublishPhase I} (holds : AuditsHold world)
    (phases : next.phases = Function.update world.phases attempt (some phase))
    (own : (∀ key author, world.authors key ≠ some (attempt, author)) ∨ Active world attempt) :
    ∀ call ∈ world.audits, ∃ key other author, world.authors key = some (other, author) ∧
      call = auditCall author ∧ ¬Active next other := by
  intro call made
  obtain ⟨key, other, author, known, same, ended⟩ := holds.calls call made
  have differs : other ≠ attempt := by
    rintro rfl
    rcases own with unlanded | active
    · exact unlanded key author known
    · exact ended active
  exact ⟨key, other, author, known, same, fun active =>
    ended ((active_other phases differs).mp active)⟩

/-- A publish that owes its audit call has committed a version. -/
theorem authored_of_owes (invariant : PublishInvariant world) {publish : Publish I}
    {point : PublishPoint I} (running : world.phases attempt = some (.running publish point))
    (owes : Owes point) : Authored world attempt publish := by
  have facts := invariant.running running
  cases point with
  | adoptPublished | audit => exact facts.2.2
  | _ => exact owes.elim

/-- The author of a version after a commit. -/
theorem landed_author {place key : VersionKey} {publish author : Publish I} {other : Nat}
    (authors : next.authors = Function.update world.authors place (some (attempt, publish)))
    (known : next.authors key = some (other, author)) :
    other = attempt ∧ author = publish ∨
      key ≠ place ∧ world.authors key = some (other, author) := by
  rw [authors] at known
  by_cases same : key = place
  · subst same
    rw [Function.update_self] at known
    obtain ⟨rfl, rfl⟩ := Prod.mk.inj (Option.some.inj known)
    exact Or.inl ⟨rfl, rfl⟩
  · rw [Function.update_of_ne same] at known
    exact Or.inr ⟨same, known⟩

theorem author_kept {place key : VersionKey} {publish author : Publish I} {other : Nat}
    (unauthored : world.authors place = none)
    (authors : next.authors = Function.update world.authors place (some (attempt, publish)))
    (known : world.authors key = some (other, author)) :
    next.authors key = some (other, author) := by
  have differs : key ≠ place := by
    rintro rfl
    rw [unauthored] at known
    contradiction
  rw [authors, Function.update_of_ne differs]
  exact known

/-- An attempt that goes on after its commit runs its publish to the audit call. -/
theorem runs_to_audit {publish : Publish I} {point : PublishPoint I} {phase : PublishPhase I}
    {meets misses : Prop} (owes : Owes point)
    (outcome : phase = .running publish point ∧ meets ∨
      (∀ other later, phase ≠ .running other later) ∧ misses)
    (other : Publish I) (later : PublishPoint I) (same : phase = .running other later) :
    other = publish ∧ Owes later := by
  rcases outcome with ⟨rfl, -⟩ | ⟨ended, -⟩
  · obtain ⟨rfl, rfl⟩ := PublishPhase.running.inj same
    exact ⟨rfl, owes⟩
  · exact absurd same (ended other later)

theorem LedgerStep.holds {event : PublishEvent I} (invariant : PublishInvariant world)
    (holds : AuditsHold world) (step : LedgerStep world event next) : AuditsHold next := by
  cases step with
  | beside phases authors audits meets =>
      constructor
      · rw [phases]
        exact holds.names
      · rw [authors]
        exact holds.authorNames
      · rw [phases, authors]
        exact holds.begun
      · rw [phases, authors]
        exact holds.owing
      · unfold Active
        rw [phases, authors, audits]
        exact holds.calls
  | moved attempt phase unlanded later phases authors audits meets =>
      apply holds.carry phases authors
      · intro publish point same
        exact (later publish point same).1
      · intro key author publish point known
        exact absurd known (unlanded key author)
      · rw [audits]
        exact holds.calls_carry phases (Or.inl unlanded)
  | landed attempt publish package phase before unauthored phases authors audits outcome =>
      have unlanded := holds.unlanded before fun owes => owes
      have owesAdoption : Owes (.adoptPublished : PublishPoint I) := trivial
      have towards := runs_to_audit owesAdoption outcome
      constructor
      · intro other later point running
        rcases running_update phases running with ⟨-, same⟩ | ⟨-, running⟩
        · rw [(towards later point same).1]
          exact holds.names _ _ _ before
        · exact holds.names _ _ _ running
      · intro key other author known
        rcases landed_author authors known with ⟨-, rfl⟩ | ⟨-, known⟩
        · exact holds.names _ _ _ before
        · exact holds.authorNames _ _ _ known
      · intro key other author known
        apply begun_update phases
        rcases landed_author authors known with ⟨rfl, -⟩ | ⟨-, known⟩
        · rw [before]
          exact Option.some_ne_none _
        · exact holds.begun _ _ _ known
      · intro key other author later point known running
        rcases landed_author authors known with ⟨rfl, rfl⟩ | ⟨-, known⟩
        · rcases running_update phases running with ⟨-, same⟩ | ⟨differs, -⟩
          · exact towards later point same
          · exact absurd rfl differs
        · rcases running_update phases running with ⟨rfl, -⟩ | ⟨-, running⟩
          · exact absurd known (unlanded key author)
          · exact holds.owing _ _ _ _ _ known running
      · rw [audits]
        intro call made
        obtain ⟨key, other, author, known, same, ended⟩ :=
          holds.calls_carry phases (Or.inl unlanded) call made
        exact ⟨key, other, author, author_kept unauthored authors known, same, ended⟩
  | owing attempt publish point phase before owes phases authors audits outcome =>
      have owesCall : Owes (.audit : PublishPoint I) := trivial
      have towards := runs_to_audit owesCall outcome
      apply holds.carry phases authors
      · intro other later same
        rw [(towards other later same).1]
        exact holds.names _ _ _ before
      · intro key author other later known same
        obtain ⟨rfl, owes⟩ := towards other later same
        exact ⟨(holds.owing _ _ _ _ _ known before).1, owes⟩
      · rw [audits]
        exact holds.calls_carry phases (Or.inr ⟨publish, point, before⟩)
  | audited attempt publish phase before ended phases authors audits meets =>
      apply holds.carry phases authors
      · intro other later same
        exact absurd same (ended other later)
      · intro key author other later known same
        exact absurd same (ended other later)
      · rw [audits]
        intro call made
        rcases List.mem_cons.mp made with rfl | made
        · obtain ⟨key, known⟩ := authored_of_owes invariant before trivial
          exact ⟨key, attempt, publish, known, rfl, not_active_ended phases ended⟩
        · exact holds.calls_carry phases (Or.inr ⟨publish, _, before⟩) call made

/-- The entries of the others do not change. -/
theorem accounted_other {phase : PublishPhase I} {other : Nat} {author : Publish I}
    (phases : next.phases = Function.update world.phases attempt (some phase))
    (audits : next.audits = world.audits) (differs : other ≠ attempt) :
    (Active next other ∨ (auditsOf next author).length = 1) ↔
      (Active world other ∨ (auditsOf world author).length = 1) := by
  rw [active_other phases differs]
  unfold auditsOf publishAudits
  rw [audits]

/-- Where no version lands, each landed one is looked at for itself. -/
theorem accounted_congr (authors : next.authors = world.authors)
    (each : ∀ key other author, world.authors key = some (other, author) →
      ((Active next other ∨ (auditsOf next author).length = 1) ↔
        (Active world other ∨ (auditsOf world author).length = 1))) :
    Accounted next ↔ Accounted world := by
  unfold Accounted
  rw [authors]
  exact forall_congr' fun key => forall_congr' fun other => forall_congr' fun author =>
    forall_congr' fun known => each key other author known

theorem LedgerStep.accounted {event : PublishEvent I} (invariant : PublishInvariant world)
    (tables' : TablesHold next) (holds : AuditsHold world) (step : LedgerStep world event next) :
    Accounted next ↔ Accounted world ∧ AuditStep world event := by
  have tables := invariant.tables
  cases step with
  | beside phases authors audits meets =>
      rw [and_iff_left meets]
      unfold Accounted Active auditsOf publishAudits
      rw [phases, authors, audits]
  | moved attempt phase unlanded later phases authors audits meets =>
      rw [and_iff_left meets]
      apply accounted_congr authors
      intro key other author known
      apply accounted_other phases audits
      rintro rfl
      exact unlanded key author known
  | landed attempt publish package phase before unauthored phases authors audits outcome =>
      have unlanded := holds.unlanded before fun owes => owes
      have own : next.authors (package.id, publish.ver) = some (attempt, publish) := by
        rw [authors, Function.update_self]
      rcases outcome with ⟨running, meets⟩ | ⟨ended, misses⟩
      · rw [and_iff_left meets]
        constructor
        · intro accounted key other author known
          have differs : other ≠ attempt := by
            rintro rfl
            exact unlanded key author known
          exact (accounted_other phases audits differs).mp
            (accounted key other author (author_kept unauthored authors known))
        · intro accounted key other author known
          rcases landed_author authors known with ⟨rfl, -⟩ | ⟨-, known⟩
          · exact Or.inl (active_running phases running)
          · have differs : other ≠ attempt := by
              rintro rfl
              exact unlanded key author known
            exact (accounted_other phases audits differs).mpr (accounted key other author known)
      · refine iff_of_false ?_ fun both => misses both.2
        intro accounted
        have none : auditsOf next publish = [] := by
          apply auditsOf_eq_nil tables' own (holds.names _ _ _ before)
          rw [audits]
          intro call made
          obtain ⟨key, other, author, known, same, -⟩ := holds.calls call made
          refine ⟨key, other, author, author_kept unauthored authors known, same,
            holds.authorNames _ _ _ known, ?_⟩
          rintro rfl
          exact unlanded key author known
        rcases accounted _ _ _ own with active | once
        · exact not_active_ended phases ended active
        · rw [none] at once
          contradiction
  | owing attempt publish point phase before owes phases authors audits outcome =>
      have active : Active world attempt := ⟨publish, point, before⟩
      rcases outcome with ⟨running, meets⟩ | ⟨ended, misses⟩
      · rw [and_iff_left meets]
        apply accounted_congr authors
        intro key other author known
        by_cases same : other = attempt
        · subst same
          exact iff_of_true (Or.inl (active_running phases running)) (Or.inl active)
        · exact accounted_other phases audits same
      · refine iff_of_false ?_ fun both => misses both.2
        intro accounted
        obtain ⟨key, known⟩ := authored_of_owes invariant before owes
        have none := holds.none_while_active tables known active
        rcases accounted key attempt publish (authors ▸ known) with active' | once
        · exact not_active_ended phases ended active'
        · unfold auditsOf publishAudits at once none
          rw [audits, none] at once
          contradiction
  | audited attempt publish phase before ended phases authors audits meets =>
      have active : Active world attempt := ⟨publish, _, before⟩
      obtain ⟨place, own⟩ := authored_of_owes invariant before trivial
      rw [and_iff_left meets]
      apply accounted_congr authors
      intro key other author known
      by_cases same : other = attempt
      · subst same
        obtain ⟨rfl, -⟩ := holds.owing _ _ _ _ _ known before
        have none := holds.none_while_active tables known active
        refine iff_of_true (Or.inr ?_) (Or.inl active)
        unfold auditsOf publishAudits at none ⊢
        rw [audits, List.filter_cons_of_pos (by simp [auditCall]), none]
        rfl
      · rw [active_other phases same]
        have foreign : ¬(publish.org.id = author.org.id ∧
            versionLabel publish = versionLabel author) := by
          rintro ⟨sameOrg, sameLabel⟩
          exact same (tables.author_of_label known own (holds.authorNames _ _ _ known)
            (holds.authorNames _ _ _ own) sameOrg sameLabel).1.symm
        unfold auditsOf publishAudits
        rw [audits, List.filter_cons_of_neg]
        intro fits
        obtain ⟨sameOrg, sameLabel, -⟩ := of_decide_eq_true fits
        exact foreign ⟨sameOrg, sameLabel⟩

end Entries

/-! ## Every run -/

/-- With all requests finished, the authors' entries are those of the committed versions. -/
theorem everyVersionAudited_iff {world : PublishWorld I} (tables : TablesHold world)
    (finished : AllFinished world) : EveryVersionAudited world ↔ Accounted world := by
  constructor
  · intro audited key attempt author known
    right
    obtain ⟨row, committed, recorded⟩ := tables.recorded_of_author known
    obtain ⟨package, found, same⟩ := recorded.package
    obtain ⟨_, _, built⟩ := recorded.row
    have version : world.versions.committed (package.id, author.ver) = some row := by
      rw [← committed]
      exact congrArg world.versions.committed (Prod.ext same recorded.version.symm)
    have once := audited author.org recorded.known author.name author.ver package row found version
    rw [built] at once
    exact once
  · intro accounted org known name ver package row found committed
    obtain ⟨attempt, author, recorded⟩ := tables.recorded _ row committed
    obtain ⟨other, found', same⟩ := recorded.package
    have issued := tables.packageIds _ other found'
    rw [same, tables.packageIds _ package found] at issued
    obtain ⟨orgId, nameEq⟩ := Prod.mk.inj (Option.some.inj issued)
    have orgEq := tables.orgs _ known _ recorded.known (Or.inr orgId)
    obtain ⟨_, _, built⟩ := recorded.row
    have verEq : ver = author.ver := recorded.version
    rcases accounted _ _ _ recorded.author with active | once
    · exact absurd active (finished attempt)
    · rw [orgEq, nameEq, verEq, built]
      exact once

/-- In a run that ends with all requests finished, retried or not, every committed
version has exactly one audit entry exactly when every step met its condition. -/
theorem every_version_audited_iff (slugs : SlugNames I) {backend : Backend} {registryWrite : Bool}
    {events : List (PublishEvent I)} {final : PublishWorld I}
    (run : exec publishStep (PublishWorld.initial I backend registryWrite) events = some final)
    (finished : AllFinished final) :
    EveryVersionAudited final ↔
      Allowed publishStep AuditStep (PublishWorld.initial I backend registryWrite) events := by
  have each : ∀ (world : PublishWorld I) (event : PublishEvent I) (next : PublishWorld I),
      PublishInvariant world ∧ AuditsHold world → publishStep world event = some next →
        (PublishInvariant next ∧ AuditsHold next) ∧
          (Accounted next ↔ Accounted world ∧ AuditStep world event) := by
    rintro world event next ⟨invariant, holds⟩ stepped
    have invariant' := (publishStep_preserves invariant stepped).1
    have step := publishStep_ledger slugs invariant holds stepped
    exact ⟨⟨invariant', step.holds invariant holds⟩,
      step.accounted invariant invariant'.tables holds⟩
  have start : PublishInvariant (PublishWorld.initial I backend registryWrite) ∧
      AuditsHold (PublishWorld.initial I backend registryWrite) := by
    refine ⟨initial_invariant backend registryWrite, ?_, ?_, ?_, ?_, ?_⟩
    · intro attempt publish point running
      contradiction
    · intro key attempt author known
      contradiction
    · intro key attempt author known
      contradiction
    · intro key attempt author publish point known
      contradiction
    · intro call made
      contradiction
  have tables := (exec_invariant_publish start.1 run).tables
  have none : Accounted (PublishWorld.initial I backend registryWrite) := by
    intro key attempt author known
    contradiction
  rw [everyVersionAudited_iff tables finished, exec_iff_allowed publishStep each start run]
  exact and_iff_right none

/-! ## Attempts of a run -/

def isActive (world : PublishWorld I) (attempt : Nat) : Bool :=
  match world.phases attempt with
  | some (.running _ _) => true
  | _ => false

theorem isActive_of_active {world : PublishWorld I} {attempt : Nat}
    (active : Active world attempt) : isActive world attempt = true := by
  obtain ⟨publish, point, running⟩ := active
  simp [isActive, running]

/-- An attempt that no event is about stays as it was. -/
theorem phases_untouched {start final : PublishWorld I} {events : List (PublishEvent I)}
    (invariant : PublishInvariant start) (run : exec publishStep start events = some final)
    {attempt : Nat} (foreign : ∀ event ∈ events, event.attempt ≠ some attempt) :
    final.phases attempt = start.phases attempt := by
  induction events generalizing start with
  | nil =>
      obtain rfl := Option.some.inj run
      rfl
  | cons event rest ih =>
      obtain ⟨next, stepped, run⟩ := (exec_cons_some publishStep).mp run
      obtain ⟨here, later⟩ := List.forall_mem_cons.mp foreign
      rw [ih (publishStep_preserves invariant stepped).1 run later]
      rcases publishStep_cases invariant stepped with
        ⟨-, phases, -⟩ | ⟨other, middle, phase, its, own⟩
      · rw [phases]
      · have differs : attempt ≠ other := by
          rintro rfl
          exact here its
        obtain rfl := own.next_eq
        rw [← own.phases]
        exact Function.update_of_ne differs _ _

/-- The attempts that the events are about are over. -/
def settles (final : PublishWorld I) (events : List (PublishEvent I)) : Bool :=
  events.all fun event => event.attempt.all fun attempt => !isActive final attempt

theorem allFinished_of_settles {backend : Backend} {registryWrite : Bool}
    {events : List (PublishEvent I)} {final : PublishWorld I}
    (run : exec publishStep (PublishWorld.initial I backend registryWrite) events = some final)
    (ended : settles final events = true) : AllFinished final := by
  intro attempt active
  by_cases mentioned : ∃ event ∈ events, event.attempt = some attempt
  · obtain ⟨event, member, its⟩ := mentioned
    have idle := List.all_eq_true.mp ended event member
    rw [its, Option.all_some, isActive_of_active active] at idle
    contradiction
  · push Not at mentioned
    obtain ⟨publish, point, running⟩ := active
    rw [phases_untouched (initial_invariant backend registryWrite) run mentioned] at running
    contradiction

/-- The error an attempt has ended with. -/
def refusal (world : PublishWorld I) (attempt : Nat) : Option ApiErr :=
  match world.phases attempt with
  | some (.finished (.error error)) => some error
  | _ => none

theorem finished_of_refusal {world : PublishWorld I} {attempt : Nat} {error : ApiErr}
    (refused : refusal world attempt = some error) :
    world.phases attempt = some (.finished (.error error)) := by
  unfold refusal at refused
  split at refused
  · rename_i ended
    rw [ended, Option.some.inj refused]
  · contradiction

/-! ## A failed adoption and its retry -/

namespace PublishSample

/-- The sample registry with a manifest check that wants slugs for names. -/
abbrev slugInterfaces : Interfaces :=
  { interfaces with
    validateManifest := fun manifest =>
      if manifest.package.name.toList.all fun char =>
          char.isLower || char.isDigit || char = '-' then .ok ()
      else .error "package names are slugs" }

theorem slugInterfaces_slugNames : SlugNames slugInterfaces := by
  intro manifest accepted member
  change (if manifest.package.name.toList.all fun char =>
    char.isLower || char.isDigit || char = '-' then Except.ok ()
      else Except.error "package names are slugs") = Except.ok () at accepted
  split at accepted
  · rename_i slug
    exact absurd (List.all_eq_true.mp slug '@' member) (by decide)
  · contradiction

def submit (attempt : Nat) : PublishEvent slugInterfaces :=
  .arrive attempt answers (request [metaField "alpha", artifactField "alpha" alpha_small])

def moves (attempt count : Nat) (id : String) : List (PublishEvent slugInterfaces) :=
  List.replicate count (.advance attempt (works id))

def audited : List (PublishEvent slugInterfaces) :=
  .claimOrg acme :: submit 0 :: moves 0 13 "p0"

/-- The canonical plane is down at the adoption. -/
def adoptionFails : StepAnswer := { works "unused" with adopted := .error .other }

/-- Attempt 0 commits and fails in its adoption; attempt 1 repeats the request. -/
def retried : List (PublishEvent slugInterfaces) :=
  .claimOrg acme :: submit 0 :: (moves 0 11 "p0" ++ .advance 0 adoptionFails :: submit 1 ::
    moves 1 3 "p1")

def slugStart : PublishWorld slugInterfaces := .initial slugInterfaces .localDir true

end PublishSample

open PublishSample in
theorem every_version_audited_sample :
    ∃ final, exec publishStep slugStart audited = some final ∧
      EveryVersionAudited final := by
  have seen : ((exec publishStep slugStart audited).map fun final =>
      settles final audited) = some true := by
    decide +kernel
  obtain ⟨final, run, ended⟩ := Option.map_eq_some_iff.mp seen
  have finished := allFinished_of_settles run ended
  exact ⟨final, run, (every_version_audited_iff slugInterfaces_slugNames run finished).mpr
    (by decide +kernel)⟩

open PublishSample in
/-- The retry ends in the stable conflict, all requests have finished, and the
committed version has no entry. -/
theorem retried_version_unaudited :
    ∃ final row, exec publishStep slugStart retried = some final ∧ AllFinished final ∧
      final.phases 1 = some (.finished (.error (.conflict "version_exists"
        "acme/http-kit@1.2.0 is already published; canonical projection reconciled"))) ∧
      final.versions.committed (⟨"p0"⟩, "1.2.0") = some row ∧ final.audits = [] ∧
      ¬EveryVersionAudited final := by
  have seen : ((exec publishStep slugStart retried).bind fun final =>
      (final.packages.committed (sampleOrg, "http-kit")).bind fun package =>
        (final.versions.committed (⟨"p0"⟩, "1.2.0")).map fun row =>
          (settles final retried, refusal final 1, final.orgs, package.id, final.audits.length)) =
        some (true, some (.conflict "version_exists"
          "acme/http-kit@1.2.0 is already published; canonical projection reconciled"), [acme],
          ⟨"p0"⟩, 0) := by
    decide +kernel
  obtain ⟨final, run, seen⟩ := Option.bind_eq_some_iff.mp seen
  obtain ⟨package, found, seen⟩ := Option.bind_eq_some_iff.mp seen
  obtain ⟨row, committed, seen⟩ := Option.map_eq_some_iff.mp seen
  simp only [Prod.mk.injEq] at seen
  obtain ⟨ended, refused, orgs, packageId, none⟩ := seen
  have noAudit := List.eq_nil_of_length_eq_zero none
  have finished := allFinished_of_settles run ended
  refine ⟨final, row, run, finished, finished_of_refusal refused, committed, noAudit, ?_⟩
  intro every
  have known : acme ∈ final.orgs := by
    rw [orgs]
    exact List.mem_singleton_self acme
  rw [← packageId] at committed
  have once := every acme known "http-kit" "1.2.0" package row found committed
  unfold publishAudits at once
  rw [noAudit, List.filter_nil] at once
  exact absurd once (by decide)

end ZedRegistry
