import ZedRegistry.OrgClaims

/-!
# The quota of org claims

The outline of `claim_org`: from its count to its commit a claim holds the lock of
its token, so nobody else can commit a row that the count should have seen.
-/

set_option autoImplicit false

namespace ZedRegistry.OrgClaims

open RelyGuarantee Execution

/-- A commit that takes effect without the replica learning of it. -/
def lostCommit : ClaimAction → Bool
  | .arrive _ => false
  | .advance answer => !answer.dbOk && answer.landed
  | .crash landed => landed

/-- The action does not authenticate the token without a scope of its own. -/
def Limits (env : ClaimEnv) (token : Uuid) : ClaimAction → Prop
  | .arrive request =>
    ∀ row, admitClaim env request = .ok row → row.id = token → row.orgId.isSome = true
  | .advance _ | .crash _ => True

/-! ## The outline -/

def NonePending (attempt : Nat) (db : ClaimDb) : Prop := ∀ row, (attempt, row) ∉ db.pending

def NoneCommitted (attempt : Nat) (db : ClaimDb) : Prop :=
  ∀ row, (some attempt, row) ∉ db.committed

variable (env : ClaimEnv) (limited : Uuid → Prop) (sure : Nat → Prop)

def HoldsLock (attempt : Nat) (db : ClaimDb) (token : Token) : Prop :=
  db.locks (lockKey env token.id) = some attempt

def BelowLimit (db : ClaimDb) (token : Token) : Prop :=
  limited token.id → db.claimed token.id < env.maxOrgsPerToken

def PointHolds (attempt : Nat) (db : ClaimDb) (token : Token) (slug : String) :
    ClaimPoint → Prop
  | .lookup | .fiducia | .beginTxn | .lock =>
    NonePending attempt db ∧ NoneCommitted attempt db
  | .count => NonePending attempt db ∧ NoneCommitted attempt db ∧ HoldsLock env attempt db token
  | .insert =>
    NonePending attempt db ∧ NoneCommitted attempt db ∧ HoldsLock env attempt db token ∧
      BelowLimit env limited db token
  | .commit row =>
    (attempt, row) ∈ db.pending ∧ NoneCommitted attempt db ∧ HoldsLock env attempt db token ∧
      BelowLimit env limited db token ∧ row.slug = slug ∧ row.createdByToken = some token.id
  | .audit => NonePending attempt db

/-- The claim has answered an error, or stopped before it knew of its commit. -/
def failed : ClaimPhase → Bool
  | .finished (.error _) => true
  | .crashed .audit => false
  | .crashed _ => true
  | _ => false

def PhaseHolds (attempt : Nat) (db : ClaimDb) : ClaimPhase → Prop
  | .idle => NonePending attempt db ∧ NoneCommitted attempt db
  | .running token slug point =>
    (limited token.id → token.orgId.isSome = true) ∧
      PointHolds env limited attempt db token slug point
  | phase =>
    NonePending attempt db ∧ (sure attempt → failed phase = true → NoneCommitted attempt db)

structure DbHolds (rows : List OrgRow) (db : ClaimDb) : Prop where
  slugs : ((db.pending.map fun entry => entry.2.slug) ++
    db.committed.map fun entry => entry.2.slug).Nodup
  quota : ∀ token, limited token →
    (ClaimDb.initial rows).claimed token ≤ env.maxOrgsPerToken →
      db.claimed token ≤ env.maxOrgsPerToken

/-- What a move of `attempt` leaves to the others. -/
structure Keeps (attempt : Nat) (db next : ClaimDb) : Prop where
  locks : ∀ key owner, owner ≠ attempt → db.locks key = some owner →
    next.locks key = some owner
  pending : ∀ owner row, owner ≠ attempt →
    ((owner, row) ∈ next.pending ↔ (owner, row) ∈ db.pending)
  committed : next.committed = db.committed ∨
    ∃ token row, next.committed = (some attempt, row) :: db.committed ∧
      row.createdByToken = some token ∧ db.locks (lockKey env token) = some attempt

variable {env limited sure} {attempt other : Nat} {db next : ClaimDb} {token : Token}
  {slug : String} {rows : List OrgRow}

/-! ## Stability -/

theorem Keeps.refl (attempt : Nat) (db : ClaimDb) : Keeps env attempt db db where
  locks _ _ _ held := held
  pending _ _ _ := Iff.rfl
  committed := Or.inl rfl

theorem Keeps.nonePending (keeps : Keeps env other db next) (differ : attempt ≠ other)
    (none : NonePending attempt db) : NonePending attempt next :=
  fun row member => none row ((keeps.pending attempt row differ).mp member)

theorem Keeps.noneCommitted (keeps : Keeps env other db next) (differ : attempt ≠ other)
    (none : NoneCommitted attempt db) : NoneCommitted attempt next := by
  intro row member
  rcases keeps.committed with same | ⟨_, added, same, -, -⟩
  · exact none row (same ▸ member)
  · rw [same, List.mem_cons] at member
    rcases member with own | before
    · exact differ (Option.some.inj (Prod.mk.inj own).1)
    · exact none row before

/-- Only the holder of its lock can commit a row of a token. -/
theorem Keeps.claimed (keeps : Keeps env other db next) (differ : attempt ≠ other)
    (held : HoldsLock env attempt db token) :
    next.claimed token.id = db.claimed token.id := by
  unfold ClaimDb.claimed
  rcases keeps.committed with same | ⟨owner, added, same, created, lock⟩
  · rw [same]
  · rw [same, List.countP_cons_of_neg]
    simp only [created, Option.some.injEq, decide_eq_true_eq]
    rintro rfl
    exact differ (Option.some.inj (held.symm.trans lock))

theorem pointHolds_stable (differ : attempt ≠ other) (keeps : Keeps env other db next)
    {point : ClaimPoint} (holds : PointHolds env limited attempt db token slug point) :
    PointHolds env limited attempt next token slug point := by
  have quiet (none : NonePending attempt db ∧ NoneCommitted attempt db) :
      NonePending attempt next ∧ NoneCommitted attempt next :=
    ⟨keeps.nonePending differ none.1, keeps.noneCommitted differ none.2⟩
  cases point with
  | lookup => exact quiet holds
  | fiducia => exact quiet holds
  | beginTxn => exact quiet holds
  | lock => exact quiet holds
  | count =>
      obtain ⟨pending, committed, held⟩ := holds
      exact ⟨keeps.nonePending differ pending, keeps.noneCommitted differ committed,
        keeps.locks _ _ differ held⟩
  | insert =>
      obtain ⟨pending, committed, held, below⟩ := holds
      refine ⟨keeps.nonePending differ pending, keeps.noneCommitted differ committed,
        keeps.locks _ _ differ held, ?_⟩
      unfold BelowLimit
      rw [keeps.claimed differ held]
      exact below
  | commit row =>
      obtain ⟨pending, committed, held, below, rest⟩ := holds
      refine ⟨(keeps.pending _ _ differ).mpr pending, keeps.noneCommitted differ committed,
        keeps.locks _ _ differ held, ?_, rest⟩
      unfold BelowLimit
      rw [keeps.claimed differ held]
      exact below
  | audit => exact keeps.nonePending differ holds

theorem phaseHolds_stable (differ : attempt ≠ other) (keeps : Keeps env other db next)
    {phase : ClaimPhase} (holds : PhaseHolds env limited sure attempt db phase) :
    PhaseHolds env limited sure attempt next phase := by
  cases phase with
  | idle => exact ⟨keeps.nonePending differ holds.1, keeps.noneCommitted differ holds.2⟩
  | running token slug point => exact ⟨holds.1, pointHolds_stable differ keeps holds.2⟩
  | finished result =>
      exact ⟨keeps.nonePending differ holds.1,
        fun certain fails => keeps.noneCommitted differ (holds.2 certain fails)⟩
  | crashed point =>
      exact ⟨keeps.nonePending differ holds.1,
        fun certain fails => keeps.noneCommitted differ (holds.2 certain fails)⟩

/-! ## Changes of the database -/

theorem nonePending_release (attempt : Nat) (db : ClaimDb) :
    NonePending attempt (db.release attempt) := by
  intro row member
  simp [ClaimDb.release] at member

theorem keeps_release (env : ClaimEnv) (attempt : Nat) (db : ClaimDb) :
    Keeps env attempt db (db.release attempt) where
  locks key owner differ held := by
    have other : some owner ≠ some attempt := fun same => differ (Option.some.inj same)
    simp only [ClaimDb.release, held, if_neg other]
  pending owner row differ := by simp [ClaimDb.release, differ]
  committed := Or.inl rfl

theorem dbHolds_release (holds : DbHolds env limited rows db) (attempt : Nat) :
    DbHolds env limited rows (db.release attempt) where
  slugs := by
    refine holds.slugs.sublist ?_
    exact (List.filter_sublist.map _).append (List.Sublist.refl _)
  quota := holds.quota

/-- The row leaves `pending` for `committed`. -/
theorem dbHolds_land (holds : DbHolds env limited rows db) {row : OrgRow}
    (point : PointHolds env limited attempt db token slug (.commit row)) :
    DbHolds env limited rows (db.land attempt row) := by
  obtain ⟨pending, -, -, below, -, created⟩ := point
  have unique := holds.slugs
  rw [List.nodup_append] at unique
  obtain ⟨distinct, -, apart⟩ := unique
  have own : row.slug ∈ db.pending.map fun entry => entry.2.slug :=
    List.mem_map.mpr ⟨(attempt, row), pending, rfl⟩
  constructor
  · have left := (dbHolds_release holds attempt).slugs
    change (((db.release attempt).pending.map fun entry => entry.2.slug) ++ row.slug ::
      db.committed.map fun entry => entry.2.slug).Nodup
    rw [List.nodup_middle, List.nodup_cons, List.mem_append]
    refine ⟨?_, left⟩
    rintro (still | committed)
    · obtain ⟨⟨owner, other⟩, member, same⟩ := List.mem_map.mp still
      obtain ⟨before, differs⟩ := List.mem_filter.mp member
      have equal := List.inj_on_of_nodup_map distinct before pending same
      simp only [ne_eq, decide_eq_true_eq] at differs
      exact differs (Prod.mk.inj equal).1
    · exact apart _ own _ committed rfl
  · intro owner counted start
    have before := holds.quota owner counted start
    unfold ClaimDb.claimed ClaimDb.land at *
    rw [List.countP_cons]
    split
    · rename_i same
      simp only [created, Option.some.injEq, decide_eq_true_eq] at same
      subst same
      exact below counted
    · exact before

theorem keeps_land {row : OrgRow}
    (point : PointHolds env limited attempt db token slug (.commit row)) :
    Keeps env attempt db (db.land attempt row) where
  locks := (keeps_release env attempt db).locks
  pending := (keeps_release env attempt db).pending
  committed := Or.inr ⟨token.id, row, rfl, point.2.2.2.2.2, point.2.2.1⟩

/-! ## Moves -/

/-- What is proved of every move. -/
structure Moved (env : ClaimEnv) (limited : Uuid → Prop) (sure : Nat → Prop) (rows : List OrgRow)
    (attempt : Nat) (db next : ClaimDb) (phase : ClaimPhase) : Prop where
  table : DbHolds env limited rows next
  phase : PhaseHolds env limited sure attempt next phase
  keeps : Keeps env attempt db next

theorem moved_same {phase : ClaimPhase} (holds : DbHolds env limited rows db)
    (phaseHolds : PhaseHolds env limited sure attempt db phase) :
    Moved env limited sure rows attempt db db phase :=
  ⟨holds, phaseHolds, Keeps.refl attempt db⟩

theorem abort_moved (holds : DbHolds env limited rows db) (none : NoneCommitted attempt db)
    (error : ApiErr) :
    Moved env limited sure rows attempt db (abort attempt db error).1 (abort attempt db error).2 :=
  ⟨dbHolds_release holds attempt, ⟨nonePending_release attempt db, fun _ _ => none⟩,
    keeps_release env attempt db⟩

section Steps

variable {answer : ClaimAnswer} (holds : DbHolds env limited rows db)
  (scope : limited token.id → token.orgId.isSome = true)

include holds

theorem lookupStep_moved (quiet : NonePending attempt db ∧ NoneCommitted attempt db)
    (scope : limited token.id → token.orgId.isSome = true) :
    Moved env limited sure rows attempt db db (lookupStep db token slug answer) := by
  have ended (result : ApiResult ClaimOrgResponse) :
      Moved env limited sure rows attempt db db (.finished result) :=
    moved_same holds ⟨quiet.1, fun _ _ => quiet.2⟩
  unfold lookupStep
  split
  · exact ended _
  · split
    · exact moved_same holds ⟨scope, quiet⟩
    · split
      · exact ended _
      · exact ended _

include scope

theorem lockStep_moved {phase : ClaimPhase}
    (quiet : NonePending attempt db ∧ NoneCommitted attempt db)
    (moved : lockStep env attempt db token slug answer = some (next, phase)) :
    Moved env limited sure rows attempt db next phase := by
  unfold lockStep at moved
  split at moved
  · cases moved
    exact abort_moved holds quiet.2 _
  · split at moved
    · contradiction
    · rename_i free
      cases moved
      refine ⟨⟨holds.slugs, holds.quota⟩, ⟨scope, quiet.1, quiet.2, Function.update_self _ _ _⟩,
        ?_, fun _ _ _ => Iff.rfl, Or.inl rfl⟩
      intro key owner _ held
      have differs : key ≠ lockKey env token.id := by
        rintro rfl
        simp [held] at free
      exact (Function.update_of_ne differs _ _).trans held

theorem countStep_moved
    (point : PointHolds env limited attempt db token slug .count) :
    Moved env limited sure rows attempt db (countStep env attempt db token slug answer).1
      (countStep env attempt db token slug answer).2 := by
  obtain ⟨pending, committed, held⟩ := point
  unfold countStep
  split
  · rename_i unscoped
    refine moved_same holds ⟨scope, pending, committed, held, ?_⟩
    intro counted
    rw [scope counted] at unscoped
    contradiction
  · split
    · exact abort_moved holds committed _
    · split
      · exact abort_moved holds committed _
      · rename_i room
        exact moved_same holds ⟨scope, pending, committed, held, fun _ => Nat.lt_of_not_le room⟩

theorem insertStep_moved {phase : ClaimPhase}
    (point : PointHolds env limited attempt db token slug .insert)
    (moved : insertStep attempt db token slug answer = some (next, phase)) :
    Moved env limited sure rows attempt db next phase := by
  obtain ⟨pending, committed, held, below⟩ := point
  unfold insertStep at moved
  split at moved
  · cases moved
    exact abort_moved holds committed _
  · split at moved
    · cases moved
      exact abort_moved holds committed _
    · split at moved
      · contradiction
      · rename_i untaken unlocked
        cases moved
        refine ⟨⟨?_, holds.quota⟩, ⟨scope, List.mem_cons_self, committed, held, below, rfl, rfl⟩,
          fun _ _ _ held => held, ?_, Or.inl rfl⟩
        · refine List.nodup_cons.mpr ⟨?_, holds.slugs⟩
          change slug ∉ (db.pending.map fun entry => entry.2.slug) ++
            db.committed.map fun entry => entry.2.slug
          rw [List.mem_append, List.mem_map, List.mem_map]
          rintro (⟨entry, member, same⟩ | ⟨entry, member, same⟩)
          · exact unlocked (List.any_eq_true.mpr ⟨entry, member, decide_eq_true same⟩)
          · refine untaken (List.find?_isSome.mpr ⟨entry.2, ?_, decide_eq_true same⟩)
            exact List.mem_map_of_mem member
        · intro owner row differ
          simp [differ]

theorem commitStep_moved {row : OrgRow}
    (certain : sure attempt → lostCommit (.advance answer) = false)
    (point : PointHolds env limited attempt db token slug (.commit row)) :
    Moved env limited sure rows attempt db (commitStep attempt db token slug answer row).1
      (commitStep attempt db token slug answer row).2 := by
  unfold commitStep
  split
  · exact ⟨dbHolds_land holds point, ⟨scope, nonePending_release attempt db⟩, keeps_land point⟩
  · rename_i fails
    split
    · rename_i landed
      refine ⟨dbHolds_land holds point, ⟨nonePending_release attempt db, ?_⟩, keeps_land point⟩
      intro known
      have informed := certain known
      simp only [lostCommit, landed, Bool.and_true, Bool.not_eq_eq_eq_not, Bool.not_false]
        at informed
      exact absurd informed fails
    · exact abort_moved holds point.2.1 _

end Steps

theorem advanceClaim_moved {answer : ClaimAnswer} {point : ClaimPoint} {phase : ClaimPhase}
    (holds : DbHolds env limited rows db) (scope : limited token.id → token.orgId.isSome = true)
    (certain : sure attempt → lostCommit (.advance answer) = false)
    (pointHolds : PointHolds env limited attempt db token slug point)
    (moved : advanceClaim env attempt db token slug answer point = some (next, phase)) :
    Moved env limited sure rows attempt db next phase := by
  cases point with
  | lookup =>
      cases moved
      exact lookupStep_moved holds pointHolds scope
  | fiducia =>
      cases moved
      exact moved_same holds ⟨scope, pointHolds⟩
  | beginTxn =>
      simp only [advanceClaim] at moved
      split at moved
      · cases moved
        exact moved_same holds ⟨pointHolds.1, fun _ _ => pointHolds.2⟩
      · cases moved
        exact moved_same holds ⟨scope, pointHolds⟩
  | lock => exact lockStep_moved holds scope pointHolds moved
  | count =>
      have counted := @countStep_moved _ _ sure _ _ _ slug _ answer holds scope pointHolds
      rw [Option.some.inj moved] at counted
      exact counted
  | insert => exact insertStep_moved holds scope pointHolds moved
  | commit row =>
      have ended := commitStep_moved holds scope certain pointHolds
      rw [Option.some.inj moved] at ended
      exact ended
  | audit =>
      cases moved
      exact moved_same holds ⟨pointHolds, fun _ fails => by cases fails⟩

theorem noneCommitted_of_point {point : ClaimPoint} (early : point ≠ .audit)
    (holds : PointHolds env limited attempt db token slug point) : NoneCommitted attempt db := by
  cases point with
  | audit => exact absurd rfl early
  | lookup | fiducia | beginTxn | lock => exact holds.2
  | count | insert | commit => exact holds.2.1

theorem crashStep_moved {landed : Bool} {point : ClaimPoint}
    (holds : DbHolds env limited rows db)
    (certain : sure attempt → lostCommit (.crash landed) = false)
    (pointHolds : PointHolds env limited attempt db token slug point) :
    Moved env limited sure rows attempt db (crashStep attempt db landed point).1
      (crashStep attempt db landed point).2 := by
  unfold crashStep
  split
  · refine ⟨dbHolds_land holds pointHolds, ⟨nonePending_release attempt db, ?_⟩,
      keeps_land pointHolds⟩
    intro known
    exact absurd (certain known) (by simp [lostCommit])
  · refine ⟨dbHolds_release holds attempt, ⟨nonePending_release attempt db, ?_⟩,
      keeps_release env attempt db⟩
    intro _ fails
    have early : point ≠ .audit := by
      rintro rfl
      cases fails
    have quiet : NoneCommitted attempt db := noneCommitted_of_point early pointHolds
    exact quiet

theorem claimMove_moved {action : ClaimAction} {before phase : ClaimPhase}
    (limits : ∀ token, limited token → Limits env token action)
    (certain : sure attempt → lostCommit action = false) (holds : DbHolds env limited rows db)
    (phaseHolds : PhaseHolds env limited sure attempt db before)
    (moved : claimMove env attempt db before action = some (next, phase)) :
    Moved env limited sure rows attempt db next phase := by
  unfold claimMove at moved
  split at moved
  · rename_i request
    cases admitted : admitClaim env request with
    | error error =>
        rw [admitted] at moved
        cases moved
        exact moved_same holds ⟨phaseHolds.1, fun _ _ => phaseHolds.2⟩
    | ok row =>
        rw [admitted] at moved
        cases moved
        exact moved_same holds
          ⟨fun counted => limits row.id counted row admitted rfl, phaseHolds⟩
  · exact advanceClaim_moved holds phaseHolds.1 certain phaseHolds.2 moved
  · have stopped := crashStep_moved holds certain phaseHolds.2
    rw [Option.some.inj moved] at stopped
    exact stopped
  · contradiction

/-- The proof outline of `claim_org`: `limited` are tokens that only ever claim
under their own org, `sure` are claims whose commits are answered truly. -/
def outline (env : ClaimEnv) (limited : Uuid → Prop) (sure : Nat → Prop) (rows : List OrgRow) :
    Outline (claimMove env) where
  invariant := DbHolds env limited rows
  assertion := PhaseHolds env limited sure
  guarantee := Keeps env
  permits agent action :=
    (∀ token, limited token → Limits env token action) ∧ (sure agent → lostCommit action = false)
  sequential := by
    intro agent db next before phase action permitted holds phaseHolds moved
    obtain ⟨holds', phaseHolds', keeps⟩ :=
      claimMove_moved permitted.1 permitted.2 holds phaseHolds moved
    exact ⟨holds', phaseHolds', keeps⟩
  stable differ holds keeps := phaseHolds_stable differ keeps holds

theorem outline_initial (env : ClaimEnv) (limited : Uuid → Prop) (sure : Nat → Prop)
    {rows : List OrgRow} (unique : (rows.map OrgRow.slug).Nodup) :
    (outline env limited sure rows).Holds (Config.initial (ClaimDb.initial rows) .idle) := by
  refine ⟨⟨?_, fun _ _ start => start⟩, fun _ => ⟨fun _ member => ?_, fun _ member => ?_⟩⟩
  · simpa [ClaimDb.initial, Config.initial, Function.comp_def] using unique
  · simp [ClaimDb.initial, Config.initial] at member
  · simp [ClaimDb.initial, Config.initial] at member

/-! ## Any number of concurrent claims -/

/-- What a run of claims over `rows` guarantees. -/
structure ClaimGuarantees (env : ClaimEnv) (rows : List OrgRow) (events : List (Nat × ClaimAction))
    (final : Config ClaimDb ClaimPhase) : Prop where
  /-- A token that no claim authenticates without an org of its own stays within
  the limit. -/
  quota : ∀ token, (∀ event ∈ events, Limits env token event.2) →
    (ClaimDb.initial rows).claimed token ≤ env.maxOrgsPerToken →
      final.shared.claimed token ≤ env.maxOrgsPerToken
  unique : (final.shared.committed.map fun entry => entry.2.slug).Nodup
  /-- A claim that fails leaves no row, if its commit did not take effect unknown
  to it. -/
  clean : ∀ attempt, (∀ event ∈ events, event.1 = attempt → lostCommit event.2 = false) →
    failed (final.phases attempt) = true →
      NonePending attempt final.shared ∧ NoneCommitted attempt final.shared

theorem org_claims_bounded {rows : List OrgRow} {events : List (Nat × ClaimAction)}
    {final : Config ClaimDb ClaimPhase} (unique : (rows.map OrgRow.slug).Nodup)
    (run : exec (step (claimMove env)) (Config.initial (ClaimDb.initial rows) .idle) events =
      some final) : ClaimGuarantees env rows events final := by
  let limited : Uuid → Prop := fun token => ∀ event ∈ events, Limits env token event.2
  let sure : Nat → Prop := fun attempt =>
    ∀ event ∈ events, event.1 = attempt → lostCommit event.2 = false
  have permitted : ∀ event ∈ events, (outline env limited sure rows).permits event.1 event.2 :=
    fun event member =>
      ⟨fun _ counted => counted event member, fun certain => certain event member rfl⟩
  obtain ⟨holds, phases⟩ := (outline env limited sure rows).holds_run permitted
    (outline_initial env limited sure unique) run
  refine ⟨holds.quota, (List.nodup_append.mp holds.slugs).2.1, ?_⟩
  intro attempt certain fails
  have phase := phases attempt
  revert phase fails
  cases final.phases attempt with
  | idle => exact fun fails _ => by cases fails
  | running token slug point => exact fun fails _ => by cases fails
  | finished result => exact fun fails phase => ⟨phase.1, phase.2 certain fails⟩
  | crashed point => exact fun fails phase => ⟨phase.1, phase.2 certain fails⟩

namespace Sample

/-- A token scoped to an org of its own. -/
def scopedToken : Token := { sampleToken with orgId := some sampleOrg, role := "publisher" }

def limitOne : ClaimEnv where
  sha256 := tabulated []
  isSlug slug := slug.toList.all fun char => char.isLower || char.isDigit || char = '-'
  hashtext text := text.length
  maxOrgsPerToken := 1

def request (slug : String) : ClaimRequest where
  authorization := some "Bearer zpkg_ci"
  slug := slug
  tokens _ := .ok (some scopedToken)
  now := sampleTime

def works (id : String) : ClaimAction := .advance ⟨true, true, ⟨id⟩, sampleTime⟩

/-- Two claims of one token for different slugs; the second counts after the
first has committed. -/
def race : List (Nat × ClaimAction) :=
  [(0, .arrive (request "alpha")), (1, .arrive (request "bravo"))] ++
    (List.replicate 3 [(0, works "o0"), (1, works "o1")]).flatten ++
      List.replicate 5 (0, works "o0") ++ List.replicate 2 (1, works "o1")

/-- The commit takes effect and its answer is lost. -/
def lostAnswer : List (Nat × ClaimAction) :=
  (0, .arrive (request "alpha")) :: List.replicate 6 (0, works "o0") ++
    [(0, .advance ⟨false, true, ⟨"o0"⟩, sampleTime⟩)]

def outcome (final : Config ClaimDb ClaimPhase) (attempt : Nat) :
    Option (ApiResult ClaimOrgResponse) :=
  match final.phases attempt with
  | .finished result => some result
  | _ => none

theorem finished_of_outcome {final : Config ClaimDb ClaimPhase} {attempt : Nat}
    {result : ApiResult ClaimOrgResponse} (ended : outcome final attempt = some result) :
    final.phases attempt = .finished result := by
  unfold outcome at ended
  split at ended
  · rename_i finished
    rw [finished, Option.some.inj ended]
  · contradiction

end Sample

theorem org_claims_bounded_sample :
    ∃ final, exec (step (claimMove Sample.limitOne)) (Config.initial (ClaimDb.initial []) .idle)
        Sample.race = some final ∧
      final.shared.claimed Sample.scopedToken.id = 1 ∧
      final.phases 1 = .finished (.error (.forbidden "org_quota_exceeded"
        "this token has already claimed 1 orgs (limit 1); contact the registry operator")) ∧
      ClaimGuarantees Sample.limitOne [] Sample.race final := by
  have seen : ((exec (step (claimMove Sample.limitOne))
      (Config.initial (ClaimDb.initial []) .idle) Sample.race).map fun final =>
        (final.shared.claimed Sample.scopedToken.id, Sample.outcome final 1)) =
      some (1, some (.error (.forbidden "org_quota_exceeded"
        "this token has already claimed 1 orgs (limit 1); contact the registry operator"))) := by
    decide +kernel
  obtain ⟨final, run, seen⟩ := Option.map_eq_some_iff.mp seen
  obtain ⟨claimed, refused⟩ := Prod.mk.inj seen
  exact ⟨final, run, claimed, Sample.finished_of_outcome refused,
    org_claims_bounded List.nodup_nil run⟩

/-- The claim answers an error and its org row is there. -/
theorem org_claim_lost_answer :
    ∃ final row, exec (step (claimMove Sample.limitOne)) (Config.initial (ClaimDb.initial []) .idle)
        Sample.lostAnswer = some final ∧
      final.phases 0 = .finished (.error .database) ∧ (some 0, row) ∈ final.shared.committed ∧
      row.slug = "alpha" := by
  have seen : ((exec (step (claimMove Sample.limitOne))
      (Config.initial (ClaimDb.initial []) .idle) Sample.lostAnswer).bind fun final =>
        final.shared.committed.head?.map fun entry =>
          (Sample.outcome final 0, entry.1, entry.2.slug)) =
      some (some (.error .database), some 0, "alpha") := by
    decide +kernel
  obtain ⟨final, run, seen⟩ := Option.bind_eq_some_iff.mp seen
  obtain ⟨⟨author, row⟩, first, seen⟩ := Option.map_eq_some_iff.mp seen
  simp only [Prod.mk.injEq] at seen
  obtain ⟨answered, rfl, slug⟩ := seen
  exact ⟨final, row, run, Sample.finished_of_outcome answered, List.mem_of_head? first, slug⟩

end ZedRegistry.OrgClaims
