import Mathlib.Data.List.Basic

/-!
# Intake admission

`package_intake.rs`: the decision on an admission request from the evidence
attached to it, and what that decision rests on.
-/

set_option autoImplicit false

namespace ZedRegistry.PackageIntake

inductive IntakeState where
  | received
  | quarantined
  | evaluated
  | pendingApproval
  | rejected
  | publishable
  | published
  deriving DecidableEq

inductive RiskDecision where
  | clear
  | requireApproval
  | reject
  deriving DecidableEq

inductive ApprovalDecision where
  | approved
  | rejected
  deriving DecidableEq

structure DigestBindings where
  artifactDigest : String
  sourceDigest : String
  policyDigest : String
  riskReceiptDigest : String
  rebuildReceiptDigest : String
  deriving DecidableEq

structure RebuildEvidence where
  receiptDigest : String
  artifactDigest : String
  sourceDigest : String
  rebuiltArtifactDigest : String
  declaredFileManifestDigest : String
  dependencyLockDigest : String
  matched : Bool
  deriving DecidableEq

structure RiskEvidence where
  artifactDigest : String
  sourceDigest : String
  policyDigest : String
  riskReceiptDigest : String
  decision : RiskDecision
  deriving DecidableEq

structure ApprovalEvidence where
  bindings : DigestBindings
  decision : ApprovalDecision
  deriving DecidableEq

structure AdmissionRequest where
  currentState : IntakeState
  artifactDigest : String
  sourceDigest : String
  policyDigest : String
  rebuild : Option RebuildEvidence
  risk : Option RiskEvidence
  approval : Option ApprovalEvidence
  deriving DecidableEq

inductive AdmissionDecision where
  | quarantine
  | pendingApproval
  | reject
  | publishable
  deriving DecidableEq

inductive AdmissionReason where
  | invalidState
  | missingRebuildEvidence
  | rebuildIdentityMismatch
  | rebuildArtifactMismatch
  | missingRiskEvidence
  | riskIdentityMismatch
  | riskRejected
  | missingApproval
  | approvalIdentityMismatch
  | approvalRejected
  | allRequiredEvidenceBound
  deriving DecidableEq

structure AdmissionOutcome where
  decision : AdmissionDecision
  reason : AdmissionReason
  deriving DecidableEq

def reject (reason : AdmissionReason) : AdmissionOutcome := ⟨.reject, reason⟩

/-! ## Bindings -/

def BindingsMatchRequest (bindings : DigestBindings) (request : AdmissionRequest) : Prop :=
  bindings.artifactDigest = request.artifactDigest ∧
    bindings.sourceDigest = request.sourceDigest ∧ bindings.policyDigest = request.policyDigest

def RebuildMatchesRequest (rebuild : RebuildEvidence) (request : AdmissionRequest) : Prop :=
  rebuild.artifactDigest = request.artifactDigest ∧ rebuild.sourceDigest = request.sourceDigest

def RiskMatchesRequest (risk : RiskEvidence) (request : AdmissionRequest) : Prop :=
  risk.artifactDigest = request.artifactDigest ∧ risk.sourceDigest = request.sourceDigest ∧
    risk.policyDigest = request.policyDigest

instance (bindings : DigestBindings) (request : AdmissionRequest) :
    Decidable (BindingsMatchRequest bindings request) := inferInstanceAs (Decidable (_ ∧ _))

instance (rebuild : RebuildEvidence) (request : AdmissionRequest) :
    Decidable (RebuildMatchesRequest rebuild request) := inferInstanceAs (Decidable (_ ∧ _))

instance (risk : RiskEvidence) (request : AdmissionRequest) :
    Decidable (RiskMatchesRequest risk request) := inferInstanceAs (Decidable (_ ∧ _))

/-! ## The decision -/

def validateRebuild (request : AdmissionRequest) : Except AdmissionOutcome RebuildEvidence :=
  match request.rebuild with
  | none => .error ⟨.quarantine, .missingRebuildEvidence⟩
  | some rebuild =>
    if ¬ RebuildMatchesRequest rebuild request then .error (reject .rebuildIdentityMismatch)
    else if rebuild.matched = false ∨ rebuild.rebuiltArtifactDigest ≠ request.artifactDigest then
      .error (reject .rebuildArtifactMismatch)
    else .ok rebuild

def validateRisk (request : AdmissionRequest) : Except AdmissionOutcome RiskEvidence :=
  match request.risk with
  | none => .error ⟨.quarantine, .missingRiskEvidence⟩
  | some risk =>
    if ¬ RiskMatchesRequest risk request then .error (reject .riskIdentityMismatch)
    else .ok risk

def evaluateApproval (request : AdmissionRequest) (rebuild : RebuildEvidence)
    (risk : RiskEvidence) : AdmissionOutcome :=
  match request.approval with
  | none => ⟨.pendingApproval, .missingApproval⟩
  | some approval =>
    if ¬ BindingsMatchRequest approval.bindings request ∨
        approval.bindings.riskReceiptDigest ≠ risk.riskReceiptDigest ∨
        approval.bindings.rebuildReceiptDigest ≠ rebuild.receiptDigest then
      reject .approvalIdentityMismatch
    else if approval.decision ≠ .approved then reject .approvalRejected
    else ⟨.publishable, .allRequiredEvidenceBound⟩

/-- The states `matches!` lists. -/
def IntakeState.mayBeEvaluated : IntakeState → Bool
  | .quarantined | .evaluated | .pendingApproval => true
  | .received | .rejected | .publishable | .published => false

def evaluate (request : AdmissionRequest) : AdmissionOutcome :=
  if request.currentState.mayBeEvaluated = false then reject .invalidState
  else
    match validateRebuild request with
    | .error outcome => outcome
    | .ok rebuild =>
      match validateRisk request with
      | .error outcome => outcome
      | .ok risk =>
        match risk.decision with
        | .reject => reject .riskRejected
        | .requireApproval => evaluateApproval request rebuild risk
        -- an attached approval is not looked at
        | .clear => ⟨.publishable, .allRequiredEvidenceBound⟩

/-! ## What the evidence must say -/

structure Reproduced (request : AdmissionRequest) (rebuild : RebuildEvidence) : Prop where
  bound : RebuildMatchesRequest rebuild request
  matched : rebuild.matched = true
  artifact : rebuild.rebuiltArtifactDigest = request.artifactDigest

/-- The approval is for this request and for the receipts attached to it. -/
structure ApprovalBound (request : AdmissionRequest) (approval : ApprovalEvidence) : Prop where
  bound : BindingsMatchRequest approval.bindings request
  risk : ∀ risk, request.risk = some risk →
    approval.bindings.riskReceiptDigest = risk.riskReceiptDigest
  rebuild : ∀ rebuild, request.rebuild = some rebuild →
    approval.bindings.rebuildReceiptDigest = rebuild.receiptDigest

/-- No attached record speaks against publication. -/
structure Consistent (request : AdmissionRequest) : Prop where
  state : request.currentState.mayBeEvaluated = true
  rebuild : ∃ rebuild, request.rebuild = some rebuild ∧ Reproduced request rebuild
  risk : ∃ risk, request.risk = some risk ∧ RiskMatchesRequest risk request ∧
    risk.decision ≠ .reject
  approval : ∀ approval, request.approval = some approval →
    approval.decision ≠ .rejected ∧ ApprovalBound request approval

/-- The rebuild and risk evidence is in order and the risk is clear. -/
structure ClearPath (request : AdmissionRequest) : Prop where
  state : request.currentState.mayBeEvaluated = true
  rebuild : ∃ rebuild, request.rebuild = some rebuild ∧ Reproduced request rebuild
  risk : ∃ risk, request.risk = some risk ∧ RiskMatchesRequest risk request ∧
    risk.decision = .clear

def Objects (request : AdmissionRequest) (approval : ApprovalEvidence) : Prop :=
  approval.decision = .rejected ∨ ¬ ApprovalBound request approval

/-! ## One check at a time -/

theorem validateRebuild_ok {request : AdmissionRequest} {rebuild : RebuildEvidence} :
    validateRebuild request = .ok rebuild ↔
      request.rebuild = some rebuild ∧ Reproduced request rebuild := by
  unfold validateRebuild
  cases request.rebuild with
  | none => simp
  | some attached =>
      dsimp only
      by_cases bound : RebuildMatchesRequest attached request
      · rw [if_neg (not_not_intro bound)]
        by_cases differs :
            attached.matched = false ∨ attached.rebuiltArtifactDigest ≠ request.artifactDigest
        · rw [if_pos differs]
          constructor
          · intro accepted
            contradiction
          · rintro ⟨same, reproduced⟩
            obtain rfl := Option.some.inj same
            rcases differs with unmatched | other
            · exact absurd (unmatched.symm.trans reproduced.matched) Bool.false_ne_true
            · exact absurd reproduced.artifact other
        · rw [if_neg differs, Except.ok.injEq, Option.some.injEq]
          have facts : attached.matched = true ∧
              attached.rebuiltArtifactDigest = request.artifactDigest := by
            simpa using differs
          constructor
          · rintro rfl
            exact ⟨rfl, bound, facts.1, facts.2⟩
          · exact fun both => both.1
      · rw [if_pos bound]
        constructor
        · intro accepted
          contradiction
        · rintro ⟨same, reproduced⟩
          obtain rfl := Option.some.inj same
          exact absurd reproduced.bound bound

theorem validateRebuild_error {request : AdmissionRequest} {outcome : AdmissionOutcome}
    (failed : validateRebuild request = .error outcome) : outcome.decision ≠ .publishable := by
  unfold validateRebuild at failed
  split at failed
  · obtain rfl := Except.error.inj failed
    exact nofun
  · split_ifs at failed
    all_goals
      obtain rfl := Except.error.inj failed
      exact nofun

theorem validateRisk_ok {request : AdmissionRequest} {risk : RiskEvidence} :
    validateRisk request = .ok risk ↔
      request.risk = some risk ∧ RiskMatchesRequest risk request := by
  unfold validateRisk
  cases request.risk with
  | none => simp
  | some attached =>
      dsimp only
      by_cases bound : RiskMatchesRequest attached request
      · rw [if_neg (not_not_intro bound), Except.ok.injEq, Option.some.injEq]
        constructor
        · rintro rfl
          exact ⟨rfl, bound⟩
        · exact fun both => both.1
      · rw [if_pos bound]
        constructor
        · intro accepted
          contradiction
        · rintro ⟨same, bindings⟩
          obtain rfl := Option.some.inj same
          exact absurd bindings bound

theorem validateRisk_error {request : AdmissionRequest} {outcome : AdmissionOutcome}
    (failed : validateRisk request = .error outcome) : outcome.decision ≠ .publishable := by
  unfold validateRisk at failed
  split at failed
  · obtain rfl := Except.error.inj failed
    exact nofun
  · split_ifs at failed
    obtain rfl := Except.error.inj failed
    exact nofun

theorem evaluateApproval_publishable {request : AdmissionRequest} {rebuild : RebuildEvidence}
    {risk : RiskEvidence} (isRebuild : request.rebuild = some rebuild)
    (isRisk : request.risk = some risk) :
    (evaluateApproval request rebuild risk).decision = .publishable ↔
      ∃ approval, request.approval = some approval ∧ ¬ Objects request approval := by
  unfold evaluateApproval
  cases request.approval with
  | none => simp
  | some approval =>
      have bound : ApprovalBound request approval ↔
          ¬ (¬ BindingsMatchRequest approval.bindings request ∨
            approval.bindings.riskReceiptDigest ≠ risk.riskReceiptDigest ∨
            approval.bindings.rebuildReceiptDigest ≠ rebuild.receiptDigest) := by
        simp only [not_or, not_not, ne_eq]
        constructor
        · rintro ⟨bound, riskBound, rebuildBound⟩
          exact ⟨bound, riskBound risk isRisk, rebuildBound rebuild isRebuild⟩
        · rintro ⟨bound, riskBound, rebuildBound⟩
          refine ⟨bound, ?_, ?_⟩
          · intro other isOther
            rw [← Option.some.inj (isRisk.symm.trans isOther)]
            exact riskBound
          · intro other isOther
            rw [← Option.some.inj (isRebuild.symm.trans isOther)]
            exact rebuildBound
      simp only [Option.some.injEq, exists_eq_left', Objects, not_or, not_not]
      rw [bound]
      split_ifs with mismatch refused
      · simp [reject, mismatch]
      · have rejected : approval.decision = .rejected := by
          cases decision : approval.decision with
          | approved => exact absurd decision refused
          | rejected => rfl
        simp [reject, rejected]
      · have approved : approval.decision = .approved := not_not.mp refused
        simp [approved, mismatch]

/-! ## The decision as a whole -/

theorem evaluate_of_valid {request : AdmissionRequest} {rebuild : RebuildEvidence}
    {risk : RiskEvidence} (state : request.currentState.mayBeEvaluated = true)
    (rebuildOk : validateRebuild request = .ok rebuild) (riskOk : validateRisk request = .ok risk) :
    evaluate request =
      match risk.decision with
      | .reject => reject .riskRejected
      | .requireApproval => evaluateApproval request rebuild risk
      | .clear => ⟨.publishable, .allRequiredEvidenceBound⟩ := by
  simp [evaluate, state, rebuildOk, riskOk]

theorem evaluate_publishable_valid {request : AdmissionRequest}
    (published : (evaluate request).decision = .publishable) :
    request.currentState.mayBeEvaluated = true ∧
      (∃ rebuild, validateRebuild request = .ok rebuild) ∧
      ∃ risk, validateRisk request = .ok risk := by
  unfold evaluate at published
  split_ifs at published with state
  · contradiction
  · cases rebuildOk : validateRebuild request with
    | error outcome =>
        rw [rebuildOk] at published
        exact absurd published (validateRebuild_error rebuildOk)
    | ok rebuild =>
        cases riskOk : validateRisk request with
        | error outcome =>
            rw [rebuildOk, riskOk] at published
            exact absurd published (validateRisk_error riskOk)
        | ok risk => exact ⟨by simpa using state, ⟨rebuild, rfl⟩, risk, rfl⟩

theorem ClearPath.publishable {request : AdmissionRequest} (clear : ClearPath request) :
    (evaluate request).decision = .publishable := by
  obtain ⟨rebuild, rebuildOk⟩ := clear.rebuild
  obtain ⟨risk, isRisk, bound, decision⟩ := clear.risk
  rw [evaluate_of_valid clear.state (validateRebuild_ok.mpr rebuildOk)
    (validateRisk_ok.mpr ⟨isRisk, bound⟩), decision]

/-- Everything a publication off the clear path rests on. -/
theorem publishable_of_not_clear {request : AdmissionRequest} (notClear : ¬ ClearPath request)
    (published : (evaluate request).decision = .publishable) :
    Consistent request ∧
      ∃ approval, request.approval = some approval ∧ ¬ Objects request approval := by
  obtain ⟨state, ⟨rebuild, rebuildOk⟩, risk, riskOk⟩ := evaluate_publishable_valid published
  rw [evaluate_of_valid state rebuildOk riskOk] at published
  have isRebuild := validateRebuild_ok.mp rebuildOk
  have isRisk := validateRisk_ok.mp riskOk
  cases decision : risk.decision with
  | clear => exact absurd ⟨state, ⟨rebuild, isRebuild⟩, risk, isRisk.1, isRisk.2, decision⟩ notClear
  | reject =>
      rw [decision] at published
      contradiction
  | requireApproval =>
      rw [decision] at published
      obtain ⟨approval, attached, stands⟩ :=
        (evaluateApproval_publishable isRebuild.1 isRisk.1).mp published
      have approves : approval.decision ≠ .rejected ∧ ApprovalBound request approval := by
        simpa [Objects] using stands
      refine ⟨⟨state, ⟨rebuild, isRebuild⟩, ⟨risk, isRisk.1, isRisk.2, ?_⟩, ?_⟩,
        approval, attached, stands⟩
      · rw [decision]
        exact nofun
      · intro other isOther
        rw [← Option.some.inj (attached.symm.trans isOther)]
        exact approves

theorem Consistent.not_objects {request : AdmissionRequest} (consistent : Consistent request)
    {approval : ApprovalEvidence} (attached : request.approval = some approval) :
    ¬ Objects request approval := by
  obtain ⟨notRejected, bound⟩ := consistent.approval approval attached
  intro objects
  rcases objects with rejected | unbound
  · exact notRejected rejected
  · exact unbound bound

theorem ClearPath.consistent {request : AdmissionRequest} (clear : ClearPath request)
    (stands : ∀ approval, request.approval = some approval → ¬ Objects request approval) :
    Consistent request := by
  obtain ⟨risk, isRisk, bound, decision⟩ := clear.risk
  refine ⟨clear.state, clear.rebuild, ⟨risk, isRisk, bound, ?_⟩, ?_⟩
  · rw [decision]
    exact nofun
  · intro approval attached
    simpa [Objects] using stands approval attached

/-! ## Replacing evidence -/

def AdmissionRequest.attach (request : AdmissionRequest) (approval : ApprovalEvidence) :
    AdmissionRequest :=
  { request with approval := some approval }

def AdmissionRequest.withRebuild (request : AdmissionRequest) (rebuild : RebuildEvidence) :
    AdmissionRequest :=
  { request with rebuild := some rebuild }

def AdmissionRequest.withRisk (request : AdmissionRequest) (risk : RiskEvidence) :
    AdmissionRequest :=
  { request with risk := some risk }

theorem reproduced_attach {request : AdmissionRequest} {approval : ApprovalEvidence}
    {rebuild : RebuildEvidence} :
    Reproduced (request.attach approval) rebuild ↔ Reproduced request rebuild := by
  constructor <;> exact fun facts => ⟨facts.bound, facts.matched, facts.artifact⟩

/-- The clear path does not look at the approval. -/
theorem clearPath_attach {request : AdmissionRequest} {approval : ApprovalEvidence} :
    ClearPath (request.attach approval) ↔ ClearPath request := by
  constructor
  · rintro ⟨state, ⟨rebuild, isRebuild, reproduced⟩, risk⟩
    exact ⟨state, ⟨rebuild, isRebuild, reproduced_attach.mp reproduced⟩, risk⟩
  · rintro ⟨state, ⟨rebuild, isRebuild, reproduced⟩, risk⟩
    exact ⟨state, ⟨rebuild, isRebuild, reproduced_attach.mpr reproduced⟩, risk⟩

theorem objects_attach {request : AdmissionRequest} {approval other : ApprovalEvidence} :
    Objects (request.attach other) approval ↔ Objects request approval := by
  have bound : ApprovalBound (request.attach other) approval ↔ ApprovalBound request approval := by
    constructor <;> exact fun bound => ⟨bound.bound, bound.risk, bound.rebuild⟩
  rw [Objects, Objects, bound]

theorem misbound_rebuild_not_publishable {request : AdmissionRequest} {rebuild : RebuildEvidence}
    (misbound : ¬ RebuildMatchesRequest rebuild request) :
    (evaluate (request.withRebuild rebuild)).decision ≠ .publishable := by
  intro published
  obtain ⟨-, ⟨checked, rebuildOk⟩, -⟩ := evaluate_publishable_valid published
  obtain ⟨same, reproduced⟩ := validateRebuild_ok.mp rebuildOk
  obtain rfl := Option.some.inj same
  exact misbound reproduced.bound

theorem misbound_risk_not_publishable {request : AdmissionRequest} {risk : RiskEvidence}
    (misbound : ¬ RiskMatchesRequest risk request) :
    (evaluate (request.withRisk risk)).decision ≠ .publishable := by
  intro published
  obtain ⟨-, -, checked, riskOk⟩ := evaluate_publishable_valid published
  obtain ⟨same, bound⟩ := validateRisk_ok.mp riskOk
  obtain rfl := Option.some.inj same
  exact misbound bound

/-- Of an attached approval that objects, publication takes notice exactly off the clear path. -/
theorem publishes_consistently (request : AdmissionRequest) :
    (((evaluate request).decision = .publishable → Consistent request) ↔
      ¬ (ClearPath request ∧
        ∃ approval, request.approval = some approval ∧ Objects request approval)) ∧
    (∀ approval, Objects request approval →
      ((evaluate (request.attach approval)).decision ≠ .publishable ↔ ¬ ClearPath request)) ∧
    (∀ rebuild, ¬ RebuildMatchesRequest rebuild request →
      (evaluate (request.withRebuild rebuild)).decision ≠ .publishable) ∧
    ∀ risk, ¬ RiskMatchesRequest risk request →
      (evaluate (request.withRisk risk)).decision ≠ .publishable := by
  refine ⟨?_, ?_, ?_, ?_⟩
  · constructor
    · rintro holds ⟨clear, approval, attached, objects⟩
      exact (holds clear.publishable).not_objects attached objects
    · intro stands published
      by_cases clear : ClearPath request
      · exact clear.consistent fun approval attached objects =>
          stands ⟨clear, approval, attached, objects⟩
      · exact (publishable_of_not_clear clear published).1
  · intro approval objects
    constructor
    · intro refused clear
      exact refused (clearPath_attach.mpr clear).publishable
    · intro notClear published
      obtain ⟨consistent, -⟩ :=
        publishable_of_not_clear (fun clear => notClear (clearPath_attach.mp clear)) published
      exact consistent.not_objects rfl (objects_attach.mpr objects)
  · exact fun rebuild => misbound_rebuild_not_publishable
  · exact fun risk => misbound_risk_not_publishable

/-- Risk is clear, the rebuild reproduced the artifact, and the approver said no. -/
def refusedByApprover : AdmissionRequest where
  currentState := .pendingApproval
  artifactDigest := "artifact"
  sourceDigest := "source"
  policyDigest := "policy"
  rebuild := some ⟨"rebuild", "artifact", "source", "artifact", "manifest", "lock", true⟩
  risk := some ⟨"artifact", "source", "policy", "risk", .clear⟩
  approval := some ⟨⟨"artifact", "source", "policy", "risk", "rebuild"⟩, .rejected⟩

theorem refused_by_approver_published :
    (evaluate refusedByApprover).decision = .publishable ∧ ¬ Consistent refusedByApprover := by
  refine ⟨by decide, ?_⟩
  intro consistent
  exact (consistent.approval _ rfl).1 rfl

theorem publishes_consistently_sample :
    let guarded := refusedByApprover.withRisk ⟨"artifact", "source", "policy", "risk",
      .requireApproval⟩
    let refusal := ⟨⟨"artifact", "source", "policy", "risk", "rebuild"⟩, .rejected⟩
    (evaluate (guarded.attach refusal)).decision ≠ .publishable := by
  refine ((publishes_consistently _).2.1 _ (.inl rfl)).mpr ?_
  rintro ⟨-, -, risk, isRisk, -, clear⟩
  rw [← Option.some.inj isRisk] at clear
  contradiction

end ZedRegistry.PackageIntake
