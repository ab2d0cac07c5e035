import ZedRegistry.PublishSources
import ZedRegistry.RateWindow
import ZedRegistry.YankRequests

/-!
# Requests behind the rate limit

`ratelimit::layer` in front of the requests that publish and yank: what a credential can
write out of the requests that arrive in a window of time, however they interleave.
-/

set_option autoImplicit false

namespace ZedRegistry.LimitedRequests

open Execution YankRequests

variable {I : Interfaces}

/-! ## The layer -/

/-- The answer to a request that the limiter denies. -/
structure TooManyRequests where
  status : Nat
  retryAfter : String
  error : String
  message : String
  deriving DecidableEq

def tooManyRequests (retryAfterSecs : Nat) : TooManyRequests where
  status := 429
  retryAfter := toString retryAfterSecs
  error := "rate_limited"
  message := "too many requests for this token; retry in " ++ toString retryAfterSecs ++ "s"

def refusal : Decision → Option TooManyRequests
  | .allow => none
  | .deny retryAfterSecs => some (tooManyRequests retryAfterSecs)

/-- The answer in the place of the handler's, if any, and the limiter afterwards; without a
limiter or a bearer token nothing is charged. `none` is the limiter's panic. -/
def layer (sha256 : Bytes → String) (limiter : Option LimiterRun) (authorization : Option String)
    (instant : ℚ) : Option (Option TooManyRequests × Option LimiterRun) :=
  match limiter with
  | none => some (none, none)
  | some run =>
    match bearerToken authorization with
    | none => some (none, some run)
    | some token =>
      let key := hashToken sha256 token
      (run.limiter.checkSerialized key instant).map fun (decision, limiter) =>
        (refusal decision, some ⟨limiter, run.answers ++ [⟨key, instant, decision⟩]⟩)

/-- What a request is charged to. -/
def credential (sha256 : Bytes → String) (authorization : Option String) : Option String :=
  (bearerToken authorization).map (hashToken sha256)

/-! ## The system -/

inductive Caller where
  | yank (process : Nat)
  | publish (attempt : Nat)
  deriving DecidableEq

/-- A request that the layer let through. -/
structure Passage where
  caller : Caller
  credential : Option String
  instant : ℚ

variable (I) in
/-- `passed` holds the newest passage first. -/
structure LimitedWorld where
  limiter : Option LimiterRun
  registry : YankWorld I
  passed : List Passage

variable (I) in
inductive LimitedEvent where
  | yank (process : Nat) (request : YankRequest) (tokens : String → ApiResult (Option Token))
      (now : DateTimeUtc) (instant : ℚ)
  | publish (attempt : Nat) (answers : PublishAnswers) (request : PublishRequest) (instant : ℚ)
  | registry (event : YankEvent I)
  | sweep (instant : ℚ)

def LimitedWorld.initial (I : Interfaces) (backend : Backend) (registryWrite : Bool)
    (limiter : Option LimiterRun) : LimitedWorld I :=
  ⟨limiter, .initial I backend registryWrite, []⟩

def arrives : YankEvent I → Bool
  | .arrive _ _ _ _ | .registry (.arrive _ _ _) => true
  | _ => false

/-- A request goes through the layer, and to its handler if it is let through. -/
def LimitedWorld.enter (world : LimitedWorld I) (caller : Caller) (authorization : Option String)
    (instant : ℚ) (arrival : YankEvent I) : Option (LimitedWorld I) :=
  match layer I.sha256 world.limiter authorization instant with
  | none => none
  | some (some _, limiter) => some { world with limiter }
  | some (none, limiter) => (yankStep world.registry arrival).map fun registry =>
    ⟨limiter, registry, ⟨caller, credential I.sha256 authorization, instant⟩ :: world.passed⟩

def limitedStep (world : LimitedWorld I) : LimitedEvent I → Option (LimitedWorld I)
  | .yank process request tokens now instant =>
    world.enter (.yank process) request.authorization instant (.arrive process request tokens now)
  | .publish attempt answers request instant =>
    world.enter (.publish attempt) request.authorization instant
      (.registry (.arrive attempt answers request))
  | .registry event =>
    if arrives event then none
    else (yankStep world.registry event).map fun registry => { world with registry }
  | .sweep instant => some { world with
      limiter := world.limiter.map fun run =>
        { run with limiter := run.limiter.sweepSerialized instant } }

/-! ## What is charged -/

/-- A passage charged to the credential in the window. -/
def within (key : String) (opens closes : ℚ) (passage : Passage) : Bool :=
  passage.credential = some key && opens ≤ passage.instant && passage.instant ≤ closes

/-- What has passed in a window and what is left for it fit into what there was. -/
structure Charged (start : RateLimiter) (limiter : RateLimiter) (passed : List Passage) :
    Prop where
  wellFormed : limiter.WellFormed
  spent : ∀ key opens closes,
    passed.countP (within key opens closes) + limiter.budget key opens closes ≤
      start.budget key opens closes

/-- Everything the layer can do with a request. -/
theorem layer_cases {sha256 : Bytes → String} {run : LimiterRun}
    (wellFormed : run.limiter.WellFormed) {authorization : Option String} {instant : ℚ}
    {answer : Option TooManyRequests} {limiter : Option LimiterRun}
    (layered : layer sha256 (some run) authorization instant = some (answer, limiter)) :
    credential sha256 authorization = none ∧ answer = none ∧ limiter = some run ∨
      ∃ key decision next, credential sha256 authorization = some key ∧
        answer = refusal decision ∧ limiter = some next ∧
        run.limiter.CheckOutcome key instant decision next.limiter := by
  cases bearer : bearerToken authorization with
  | none =>
      simp only [layer, bearer, Option.some.injEq, Prod.mk.injEq] at layered
      exact .inl ⟨by rw [credential, bearer, Option.map_none], layered.1.symm, layered.2.symm⟩
  | some token =>
      obtain ⟨decision, next, checked, outcome⟩ :=
        wellFormed.checkSerialized (hashToken sha256 token) instant
      simp only [layer, bearer, checked, Option.map_some, Option.some.injEq,
        Prod.mk.injEq] at layered
      refine .inr ⟨hashToken sha256 token, decision, _, ?_, layered.1.symm, layered.2.symm, outcome⟩
      rw [credential, bearer, Option.map_some]

theorem countP_within (key : String) (opens closes : ℚ) (passage : Passage)
    (passed : List Passage) :
    ((passage :: passed).countP (within key opens closes) : ℚ) =
      passed.countP (within key opens closes) +
        if passage.credential = some key then
          RateLimiter.counts opens closes passage.instant .allow
        else 0 := by
  rw [List.countP_cons, Nat.cast_add]
  by_cases same : passage.credential = some key
  · simp [within, RateLimiter.counts, same]
  · simp [within, same]

theorem Charged.layer {start : RateLimiter} {run : LimiterRun} {passed : List Passage}
    (charged : Charged start run.limiter passed) {sha256 : Bytes → String}
    {authorization : Option String} {instant : ℚ} {answer : Option TooManyRequests}
    {limiter : Option LimiterRun}
    (layered : layer sha256 (some run) authorization instant = some (answer, limiter)) :
    ∃ next, limiter = some next ∧ Charged start next.limiter passed ∧
      (answer = none → ∀ caller, Charged start next.limiter
        (⟨caller, credential sha256 authorization, instant⟩ :: passed)) := by
  rcases layer_cases charged.wellFormed layered with
    ⟨anonymous, -, rfl⟩ | ⟨asked, decision, next, named, refused, rfl, outcome⟩
  · refine ⟨run, rfl, charged, fun _ caller => ⟨charged.wellFormed, fun key opens closes => ?_⟩⟩
    rw [countP_within, anonymous, if_neg nofun, add_zero]
    exact charged.spent key opens closes
  · have paid := outcome.budget_le charged.wellFormed
    have nonneg (opens closes : ℚ) : 0 ≤ RateLimiter.counts opens closes instant decision := by
      unfold RateLimiter.counts
      split
      · exact zero_le_one
      · exact le_rfl
    refine ⟨next, rfl, ⟨outcome.wellFormed charged.wellFormed, fun key opens closes => ?_⟩,
      fun passes caller => ⟨outcome.wellFormed charged.wellFormed, fun key opens closes => ?_⟩⟩
    · have spent := charged.spent key opens closes
      have least := paid key opens closes
      have counted := nonneg opens closes
      split at least
      · linarith
      · linarith
    · have allowed : decision = .allow := by
        cases decision with
        | allow => rfl
        | deny wait =>
            rw [passes] at refused
            cases refused
      subst allowed
      have spent := charged.spent key opens closes
      have least := paid key opens closes
      rw [countP_within, named]
      simp only [Option.some.injEq]
      linarith

theorem Charged.sweep {start : RateLimiter} {limiter : RateLimiter} {passed : List Passage}
    (charged : Charged start limiter passed) (instant : ℚ) :
    Charged start (limiter.sweepSerialized instant) passed := by
  rcases limiter.sweepSerialized_cases instant with ⟨-, same⟩ | forgets
  · rw [same]
    exact charged
  · refine ⟨forgets.wellFormed charged.wellFormed, fun key opens closes => ?_⟩
    have spent := charged.spent key opens closes
    have kept := forgets.budget_le charged.wellFormed key opens closes
    linarith

/-! ## Whose requests write -/

/-- The request that a phase works for. -/
def phaseRequest : YankPhase → Option YankRequest
  | .findOrg request _ | .findPackage request _ _ | .findVersion request _ _ _ => some request
  | .update write | .record write => some write.request
  | .finished _ | .crashed => none

/-- A step of a request goes on for the same request, and updates the flag only where it is
about to. -/
inductive RequestStep (world : YankWorld I) (process : Nat) (phase : YankPhase) :
    YankWorld I → Prop
  | moved (middle : YankWorld I) (later : YankPhase)
      (same : ∀ request, phaseRequest later = some request → phaseRequest phase = some request)
      (registry : middle.registry = world.registry) (requests : middle.requests = world.requests)
      (writes : middle.writes = world.writes) :
      RequestStep world process phase (middle.goto process later)
  | updated (middle : YankWorld I) (write : YankWrite) (later : YankPhase)
      (updating : phase = .update write) (set : world.setFlag write = some middle)
      (same : ∀ request, phaseRequest later = some request → request = write.request) :
      RequestStep world process phase (middle.goto process later)

theorem RequestStep.fails {world : YankWorld I} (process : Nat) (phase : YankPhase)
    (error : ApiErr) : RequestStep world process phase (world.fail process error) :=
  .moved world _ (fun _ same => by cases same) rfl rfl rfl

theorem advanceYank_step {world next : YankWorld I} {process : Nat} {answer : YankAnswer}
    {phase : YankPhase} (stepped : advanceYank world process answer phase = some next) :
    RequestStep world process phase next := by
  cases phase with
  | findOrg request token =>
      simp only [advanceYank] at stepped
      split at stepped
      · exact Option.some.inj stepped ▸ .fails process _ _
      · split at stepped
        · exact Option.some.inj stepped ▸ .fails process _ _
        · split at stepped
          · exact Option.some.inj stepped ▸ .fails process _ _
          · exact Option.some.inj stepped ▸ .moved world _ (fun _ same => same) rfl rfl rfl
  | findPackage request token org =>
      simp only [advanceYank] at stepped
      split at stepped
      · exact Option.some.inj stepped ▸ .fails process _ _
      · split at stepped
        · exact Option.some.inj stepped ▸ .fails process _ _
        · exact Option.some.inj stepped ▸ .moved world _ (fun _ same => same) rfl rfl rfl
  | findVersion request token org packageId =>
      simp only [advanceYank] at stepped
      split at stepped
      · exact Option.some.inj stepped ▸ .fails process _ _
      · split at stepped
        · exact Option.some.inj stepped ▸ .fails process _ _
        · exact Option.some.inj stepped ▸ .moved world _ (fun _ same => same) rfl rfl rfl
  | update write =>
      simp only [advanceYank] at stepped
      split at stepped
      · obtain ⟨middle, set, rfl⟩ := Option.map_eq_some_iff.mp stepped
        exact .updated middle write _ rfl set fun _ same => (Option.some.inj same).symm
      · split at stepped
        · obtain ⟨middle, set, rfl⟩ := Option.map_eq_some_iff.mp stepped
          exact .updated middle write _ rfl set fun _ same => by cases same
        · exact Option.some.inj stepped ▸ .fails process _ _
  | record write =>
      obtain rfl := Option.some.inj stepped
      exact .moved (world.logAudit write) _ (fun _ same => by cases same) rfl rfl rfl
  | finished | crashed => contradiction

/-- The layer let a request of the caller through, charged to this header. -/
def PassedFor (I : Interfaces) (passed : List Passage) (caller : Caller)
    (authorization : Option String) : Prop :=
  ∃ instant, ⟨caller, credential I.sha256 authorization, instant⟩ ∈ passed

/-- The layer let a publish through that carried a credential. -/
def PublishPassed (passed : List Passage) (attempt : Nat) : Prop :=
  ∃ key instant, ⟨.publish attempt, some key, instant⟩ ∈ passed

/-- Whatever runs or has written went through the layer. -/
structure Attributed (passed : List Passage) (world : YankWorld I) : Prop where
  accounted : YankRequests.Accounted world
  requests : ∀ process phase request, world.requests process = some phase →
    phaseRequest phase = some request → PassedFor I passed (.yank process) request.authorization
  writes : ∀ write ∈ world.writes,
    PassedFor I passed (.yank write.process) write.request.authorization
  publishes : Sourced (fun attempt _ => PublishPassed passed attempt) world.registry

section Attribution

variable {passed : List Passage} {world next : YankWorld I}

theorem Attributed.later (attributed : Attributed passed world) (passage : Passage) :
    Attributed (passage :: passed) world where
  accounted := attributed.accounted
  requests process phase request running same := by
    obtain ⟨instant, member⟩ := attributed.requests process phase request running same
    exact ⟨instant, List.mem_cons_of_mem _ member⟩
  writes write member := by
    obtain ⟨instant, member⟩ := attributed.writes write member
    exact ⟨instant, List.mem_cons_of_mem _ member⟩
  publishes := attributed.publishes.mono fun attempt _ passed => by
    obtain ⟨key, instant, member⟩ := passed
    exact ⟨key, instant, List.mem_cons_of_mem _ member⟩

/-- The requests of the other processes stay as they are. -/
theorem goto_requests {middle : YankWorld I} (same : middle.requests = world.requests)
    {process : Nat} {later : YankPhase}
    (others : ∀ process phase request, world.requests process = some phase →
      phaseRequest phase = some request → PassedFor I passed (.yank process) request.authorization)
    (own : ∀ request, phaseRequest later = some request →
      PassedFor I passed (.yank process) request.authorization)
    (other : Nat) (phase : YankPhase) (request : YankRequest)
    (running : (middle.goto process later).requests other = some phase)
    (works : phaseRequest phase = some request) :
    PassedFor I passed (.yank other) request.authorization := by
  by_cases here : other = process
  · subst here
    have phases : (middle.goto other later).requests other = some later :=
      Function.update_self ..
    rw [phases] at running
    obtain rfl := Option.some.inj running
    exact own request works
  · have phases : (middle.goto process later).requests other = middle.requests other :=
      Function.update_of_ne here ..
    rw [phases, same] at running
    exact others other phase request running works

theorem Attributed.advance (attributed : Attributed passed world) {process : Nat}
    {phase : YankPhase} (running : world.requests process = some phase)
    (accounted : YankRequests.Accounted next) (step : RequestStep world process phase next) :
    Attributed passed next := by
  have own := attributed.requests process phase
  cases step with
  | moved middle later same registry requests writes =>
      refine ⟨accounted, goto_requests requests attributed.requests
        fun request works => own request running (same request works), ?_, ?_⟩
      · intro write member
        have before : write ∈ world.writes := writes ▸ member
        exact attributed.writes write before
      · have below : (middle.goto process later).registry = world.registry := registry
        rw [below]
        exact attributed.publishes
  | updated middle write later updating set same =>
      subst updating
      have holds := attributed.accounted.requests process
      rw [running] at holds
      obtain ⟨⟨-, rfl⟩, -⟩ := holds
      have mine := own write.request running rfl
      obtain ⟨registry, moved, rfl⟩ := Option.map_eq_some_iff.mp set
      refine ⟨accounted, goto_requests rfl attributed.requests
        fun request works => same request works ▸ mine, ?_, ?_⟩
      · intro other member
        rcases List.mem_cons.mp member with rfl | member
        · exact mine
        · exact attributed.writes other member
      · exact attributed.publishes.step attributed.accounted.ledger.registry.invariant
          (fun _ _ _ _ arrival _ => by cases arrival) moved

/-- Without an arrival no one new writes. -/
theorem Attributed.step (attributed : Attributed passed world) {event : YankEvent I}
    (quiet : arrives event = false) (stepped : yankStep world event = some next) :
    Attributed passed next := by
  have accounted := step_accounted attributed.accounted stepped
  cases event with
  | registry event =>
      simp only [yankStep, registryStep] at stepped
      split at stepped
      · contradiction
      · obtain ⟨registry, moved, rfl⟩ := Option.map_eq_some_iff.mp stepped
        refine ⟨accounted, attributed.requests, attributed.writes,
          attributed.publishes.step attributed.accounted.ledger.registry.invariant ?_ moved⟩
        rintro attempt answers request publish rfl -
        cases quiet
  | arrive => cases quiet
  | advance process answer =>
      simp only [yankStep] at stepped
      split at stepped
      · rename_i phase running
        exact attributed.advance running accounted (advanceYank_step stepped)
      · contradiction
  | crash process =>
      simp only [yankStep] at stepped
      split at stepped
      · contradiction
      · contradiction
      · contradiction
      · obtain rfl := Option.some.inj stepped
        refine ⟨accounted, goto_requests rfl attributed.requests fun _ works => ?_,
          attributed.writes, attributed.publishes⟩
        cases works

theorem credential_of_accepted {tokens : String → ApiResult (Option Token)} {now : DateTimeUtc}
    {authorization : Option String} {token : Token}
    (accepted : requireToken I.sha256 tokens now authorization = .ok token) :
    ∃ key, credential I.sha256 authorization = some key := by
  simp only [requireToken, bind_ok, okOrElse_ok] at accepted
  obtain ⟨plaintext, bearer, -⟩ := accepted
  exact ⟨hashToken I.sha256 plaintext, by rw [credential, bearer, Option.map_some]⟩

theorem Attributed.yank (attributed : Attributed passed world) {process : Nat}
    {request : YankRequest} {tokens : String → ApiResult (Option Token)} {now : DateTimeUtc}
    (instant : ℚ) (stepped : yankStep world (.arrive process request tokens now) = some next) :
    Attributed (⟨.yank process, credential I.sha256 request.authorization, instant⟩ :: passed)
      next := by
  have accounted := step_accounted attributed.accounted stepped
  have before := attributed.later
    ⟨.yank process, credential I.sha256 request.authorization, instant⟩
  simp only [yankStep] at stepped
  split at stepped
  · contradiction
  · split at stepped
    · obtain rfl := Option.some.inj stepped
      refine ⟨accounted, goto_requests rfl before.requests fun _ works => ?_, before.writes,
        before.publishes⟩
      cases works
    · obtain rfl := Option.some.inj stepped
      refine ⟨accounted, goto_requests rfl before.requests fun other works => ?_, before.writes,
        before.publishes⟩
      obtain rfl := Option.some.inj works
      exact ⟨instant, List.mem_cons_self⟩

theorem Attributed.publish (attributed : Attributed passed world) {attempt : Nat}
    {answers : PublishAnswers} {request : PublishRequest} (instant : ℚ)
    (stepped : yankStep world (.registry (.arrive attempt answers request)) = some next) :
    Attributed (⟨.publish attempt, credential I.sha256 request.authorization, instant⟩ :: passed)
      next := by
  have accounted := step_accounted attributed.accounted stepped
  have before := attributed.later
    ⟨.publish attempt, credential I.sha256 request.authorization, instant⟩
  simp only [yankStep, registryStep] at stepped
  obtain ⟨registry, moved, rfl⟩ := Option.map_eq_some_iff.mp stepped
  refine ⟨accounted, before.requests, before.writes,
    before.publishes.step before.accounted.ledger.registry.invariant ?_ moved⟩
  intro other asked request' publish arrival admitted
  obtain ⟨rfl, rfl, rfl⟩ := PublishEvent.arrive.inj arrival
  simp only [admitPublish, bind_ok] at admitted
  obtain ⟨token, accepted, -⟩ := admitted
  obtain ⟨key, named⟩ := credential_of_accepted accepted
  exact ⟨key, instant, named ▸ List.mem_cons_self⟩

end Attribution

/-! ## Whole runs -/

structure Limited (start : RateLimiter) (world : LimitedWorld I) : Prop where
  charged : ∃ run, world.limiter = some run ∧ Charged start run.limiter world.passed
  attributed : Attributed world.passed world.registry

theorem Limited.enter {start : RateLimiter} {world next : LimitedWorld I}
    (limited : Limited start world) {caller : Caller} {authorization : Option String} {instant : ℚ}
    {arrival : YankEvent I}
    (handled : ∀ registry, yankStep world.registry arrival = some registry →
      Attributed (⟨caller, credential I.sha256 authorization, instant⟩ :: world.passed) registry)
    (stepped : world.enter caller authorization instant arrival = some next) :
    Limited start next := by
  obtain ⟨run, limiter, charged⟩ := limited.charged
  simp only [LimitedWorld.enter, limiter] at stepped
  split at stepped
  · contradiction
  · rename_i answer after layered
    obtain rfl := Option.some.inj stepped
    obtain ⟨kept, rfl, charged, -⟩ := charged.layer layered
    exact ⟨⟨kept, rfl, charged⟩, limited.attributed⟩
  · rename_i after layered
    obtain ⟨registry, moved, rfl⟩ := Option.map_eq_some_iff.mp stepped
    obtain ⟨kept, rfl, -, passes⟩ := charged.layer layered
    exact ⟨⟨kept, rfl, passes rfl caller⟩, handled registry moved⟩

theorem limitedStep_limited {start : RateLimiter} {world next : LimitedWorld I}
    {event : LimitedEvent I} (limited : Limited start world)
    (stepped : limitedStep world event = some next) : Limited start next := by
  cases event with
  | yank process request tokens now instant =>
      exact limited.enter (fun _ moved => limited.attributed.yank instant moved) stepped
  | publish attempt answers request instant =>
      exact limited.enter (fun _ moved => limited.attributed.publish instant moved) stepped
  | registry event =>
      simp only [limitedStep] at stepped
      split at stepped
      · contradiction
      · rename_i quiet
        obtain ⟨registry, moved, rfl⟩ := Option.map_eq_some_iff.mp stepped
        exact ⟨limited.charged, limited.attributed.step (Bool.eq_false_iff.mpr quiet) moved⟩
  | sweep instant =>
      obtain ⟨run, limiter, charged⟩ := limited.charged
      obtain rfl := Option.some.inj stepped
      refine ⟨⟨{ run with limiter := run.limiter.sweepSerialized instant }, ?_,
        charged.sweep instant⟩, limited.attributed⟩
      simp only [limiter, Option.map_some]

/-- An update of a flag by a request that was charged to the credential in the window. -/
def madeWithin (passed : List Passage) (key : String) (opens closes : ℚ) (write : YankWrite) :
    Bool :=
  passed.any fun passage => passage.caller = .yank write.process && within key opens closes passage

/-- Updates are made by different requests, each of which passed. -/
theorem updates_le_passages {passed : List Passage} {world : YankWorld I}
    (accounted : YankRequests.Accounted world) (key : String) (opens closes : ℚ) :
    (world.writes.filter (madeWithin passed key opens closes)).length ≤
      passed.countP (within key opens closes) := by
  have callers : ((world.writes.filter (madeWithin passed key opens closes)).map
      fun write => Caller.yank write.process).Nodup := by
    have part : (world.writes.filter (madeWithin passed key opens closes)).Sublist world.writes :=
      List.filter_sublist
    have processes := accounted.ledger.once.sublist (part.map YankWrite.process)
    have injective : Function.Injective Caller.yank := fun _ _ same => Caller.yank.inj same
    have named := processes.map injective
    rwa [List.map_map] at named
  have covered : ((world.writes.filter (madeWithin passed key opens closes)).map
      fun write => Caller.yank write.process) ⊆
        (passed.filter (within key opens closes)).map Passage.caller := by
    intro caller member
    obtain ⟨write, made, rfl⟩ := List.mem_map.mp member
    obtain ⟨passage, passes, fits⟩ := List.any_eq_true.mp (List.mem_filter.mp made).2
    rw [Bool.and_eq_true, decide_eq_true_eq] at fits
    exact List.mem_map.mpr ⟨passage, List.mem_filter.mpr ⟨passes, fits.2⟩, fits.1⟩
  have fewer := (callers.subperm covered).length_le
  rw [List.length_map, List.length_map] at fewer
  rw [List.countP_eq_length_filter]
  exact fewer

namespace LimitedSample

/-- The first release and its yank, both behind the limiter. -/
def events : List (LimitedEvent PublishSample.interfaces) :=
  PublishSample.firstRelease.map (fun
    | .arrive attempt answers request => .publish attempt answers request 0
    | event => .registry (.registry event)) ++
    .yank 0 YankSample.request (fun _ => .ok (some sampleToken)) sampleTime 1 ::
      List.replicate 5 (.registry (.advance 0 ⟨true, true⟩))

def start : LimitedWorld PublishSample.interfaces :=
  .initial PublishSample.interfaces .localDir true (some (.fresh 2 (some 1) 16 0))

theorem runs : (exec limitedStep start events).isSome = true := by decide +kernel

end LimitedSample

end ZedRegistry.LimitedRequests
