import ReviewSensei.HumanInventory
import ReviewSensei.SessionLedger

/-! The convergence policy and the admission of one finding under it. -/
namespace ReviewSensei.Convergence
open Session (strip)
open Review (ReviewComment CommentFields Side)
open Diff (validateRepositoryPath)

inductive ReviewMode
  | legacy
  | advisory
  | mergeFocused
  | strict
  deriving DecidableEq, Repr

/-- `OPERATOR_REVIEW_MODES`. -/
def ReviewMode.operator : ReviewMode → Bool
  | .legacy => false
  | .advisory | .mergeFocused | .strict => true

def ReviewMode.text : ReviewMode → String
  | .legacy => "legacy"
  | .advisory => "advisory"
  | .mergeFocused => "merge-focused"
  | .strict => "strict"

inductive Enforcement
  | displayOnly
  | publication
  deriving DecidableEq, Repr

def Enforcement.text : Enforcement → String
  | .displayOnly => "display-only"
  | .publication => "publication"

inductive ReviewQuality
  | current
  | balanced
  | highSignal
  deriving DecidableEq, Repr

def ReviewQuality.text : ReviewQuality → String
  | .current => "current"
  | .balanced => "balanced"
  | .highSignal => "high-signal"

def defaultMaxFailedAttempts : Nat := 6
def maxFailedAttempts : Nat := 32

structure PolicyFields where
  mode : ReviewMode := .mergeFocused
  enforcement : Enforcement := .displayOnly
  maxFailedAttempts : Nat := defaultMaxFailedAttempts
  quality : ReviewQuality := .current
  deriving DecidableEq

/-- A policy: an operator mode always enforces at publication. -/
structure ReviewConvergencePolicy extends PolicyFields where
  operator_publishes : mode.operator = true → enforcement = .publication
  attempts : 1 ≤ maxFailedAttempts ∧ maxFailedAttempts ≤ Convergence.maxFailedAttempts

namespace ReviewConvergencePolicy

/-- `__post_init__`, which sets the enforcement of an operator mode. -/
def construct (f : PolicyFields) : Except String ReviewConvergencePolicy :=
  if h : 1 ≤ f.maxFailedAttempts ∧ f.maxFailedAttempts ≤ Convergence.maxFailedAttempts then
    .ok
      { f with
        enforcement := if f.mode.operator then .publication else f.enforcement
        operator_publishes := fun hmode => if_pos hmode
        attempts := h }
  else .error "max_failed_attempts is out of range"

variable (p : ReviewConvergencePolicy)

def automaticGithubReviewEvents : Bool := decide (p.mode ≠ .advisory)

def inlineAdvisoryThreads : Bool := decide (p.mode = .legacy)

def identityFields : Json :=
  .obj ([("schema_version", .str "1.0"), ("mode", .str p.mode.text),
    ("enforcement", .str p.enforcement.text), ("max_failed_attempts", .int p.maxFailedAttempts),
    ("automatic_github_review_events", .bool p.automaticGithubReviewEvents),
    ("inline_advisory_threads", .bool p.inlineAdvisoryThreads)] ++
    if p.quality = .current then [] else [("quality", .str p.quality.text)])

def digest : String := sha256 p.identityFields.canonical

/-- The policy as a verdict reads it. -/
def verdictPolicy : Review.ConvergencePolicy :=
  ⟨p.quality.text, p.enforcement.text, p.digest⟩

end ReviewConvergencePolicy

inductive Attribution
  | prChange
  | fixRegression
  | documentedException
  | preExisting
  | alreadyReviewedOptional
  | unattributed
  deriving DecidableEq, Repr

inductive LateReason
  | newRegression
  | substantiatedMissedDefect
  | humanAdjudication
  deriving DecidableEq, Repr

inductive AdmissionDisposition
  | block
  | advisory
  | humanAdjudication
  | suppressedDuplicate
  | honoredDisposition
  deriving DecidableEq, Repr

inductive SeverityReason
  | legacyExplicitBlocking
  | legacySeverityFallback
  | materialHighCritical
  | namedMandatoryRule
  | belowMaterialThreshold
  | preferenceOrOptional
  | notApplicable
  deriving DecidableEq, Repr

inductive EvidenceReason
  | legacyUnverified
  | validatedEvidenceAndFailureCondition
  | independentAnalyzerOrTestArtifact
  | insufficientEvidence
  | jsonOrLineValidityOnly
  | modelConfidenceOrAgreementOnly
  | notApplicable
  deriving DecidableEq, Repr

inductive ScopeReason
  | legacyUnscoped
  | prAttributed
  | fixIntroducedRegression
  | documentedException
  | preExistingUnaffected
  | alreadyReviewedOptional
  | unattributed
  | notApplicable
  deriving DecidableEq, Repr

inductive AdmissionReason
  | legacyClassification
  | admittedBlocker
  | newRegression
  | substantiatedMissedDefect
  | duplicateOfExisting
  | authorizedDispositionStillValid
  | contradictoryEvidenceNeedsHuman
  | classificationNeedsHuman
  | weakHighImpactNeedsHuman
  | notAdmittedAdvisory
  deriving DecidableEq, Repr

/-- What admission reads of Unicode and of the dates of a disposition, beside the inventories. -/
structure AdmissionRules extends Human.Rules where
  /-- `str.casefold`. -/
  casefold : String → String
  /-- `str.isprintable`. -/
  printable : String → Bool
  /-- `datetime.fromisoformat`, as an instant. -/
  instant : String → Int

/-- The facts of one finding that its admission is computed from. -/
structure BlockerCandidate where
  proposedBlocking : Option Bool := none
  severity : Option String := none
  hasSpecificViolation : Bool := false
  hasRequiredContract : Bool := false
  namedMandatoryRule : Option String := none
  hasActionableRemedy : Bool := false
  evidenceLocationsValidated : Bool := false
  hasFailureCondition : Bool := false
  hasIndependentArtifact : Bool := false
  evidenceIsJsonOrLineValidityOnly : Bool := false
  evidenceIsModelConfidenceOrAgreementOnly : Bool := false
  attribution : Attribution := .unattributed
  isDuplicate : Bool := false
  hasAuthorizedDisposition : Bool := false
  hasContradictoryEvidence : Bool := false
  needsHuman : Bool := false
  isPreferenceOrOptional : Bool := false
  isLateRelativeToBaseline : Bool := false
  lateReason : Option LateReason := none
  highImpactWeaklySupported : Bool := false
  path : Option String := none
  line : Option Nat := none
  side : Option Side := none

/-- `BlockerCandidate.__post_init__`. -/
def BlockerCandidate.construct (rules : AdmissionRules) (c : BlockerCandidate) :
    Except String BlockerCandidate := do
  ensure (∀ s ∈ c.severity, strip s ≠ "") "severity must be a non-empty string"
  ensure (∀ s ∈ c.severity, rules.printable s = true)
    "severity contains a forbidden control character"
  ensure (∀ rule ∈ c.namedMandatoryRule, strip rule ≠ "" ∧ rules.printable rule = true)
    "named_mandatory_rule is invalid"
  c.path.toList.forM (fun path =>
    validateRepositoryPath rules.unicode "blocker candidate path" true path.toList)
  ensure (∀ line ∈ c.line, 1 ≤ line) "blocker candidate line must be a positive integer"
  return c

/-- `_legacy_blocks`. -/
def legacyBlocks (rules : AdmissionRules) (proposedBlocking : Option Bool) (severity : Option String) :
    Bool :=
  proposedBlocking.getD
    (severity.any (fun s => rules.lower (strip s) ∈ ["high", "critical"]))

/-- `_material_severity`. -/
def materialSeverity (rules : AdmissionRules) (severity : Option String) : Bool :=
  severity.any (fun s => rules.lower (strip s) ∈ ["high", "critical"])

/-- `_scope_reason_for`. -/
def scopeReasonFor : Attribution → ScopeReason
  | .prChange => .prAttributed
  | .fixRegression => .fixIntroducedRegression
  | .documentedException => .documentedException
  | .preExisting => .preExistingUnaffected
  | .alreadyReviewedOptional => .alreadyReviewedOptional
  | .unattributed => .unattributed

/-- `_evidence_assessment`. -/
def evidenceAssessment (c : BlockerCandidate) : Bool × EvidenceReason :=
  if c.evidenceIsJsonOrLineValidityOnly then (false, .jsonOrLineValidityOnly)
  else if c.evidenceIsModelConfidenceOrAgreementOnly then (false, .modelConfidenceOrAgreementOnly)
  else if c.hasIndependentArtifact then (true, .independentAnalyzerOrTestArtifact)
  else if c.evidenceLocationsValidated && c.hasFailureCondition then
    (true, .validatedEvidenceAndFailureCondition)
  else (false, .insufficientEvidence)

/-- `_severity_assessment`. -/
def severityAssessment (rules : AdmissionRules) (c : BlockerCandidate) (namedRule : Bool) :
    Bool × SeverityReason :=
  if c.isPreferenceOrOptional && !namedRule then (false, .preferenceOrOptional)
  else if namedRule then (true, .namedMandatoryRule)
  else if materialSeverity rules c.severity then (true, .materialHighCritical)
  else (false, .belowMaterialThreshold)

/-- A decision: only the disposition `block` blocks, and a decision for a human never does. -/
structure BlockerAdmissionDecision where
  mode : ReviewMode
  proposedBlocking : Option Bool
  effectiveBlocking : Bool
  needsHuman : Bool
  withholdsAutomaticApproval : Bool
  automaticGithubReviewEvents : Bool
  inlineAdvisoryThreads : Bool
  disposition : AdmissionDisposition
  severityReason : SeverityReason
  evidenceReason : EvidenceReason
  scopeReason : ScopeReason
  admissionReason : AdmissionReason
  blocks_iff : effectiveBlocking = true ↔ disposition = .block
  not_both : ¬ (needsHuman = true ∧ effectiveBlocking = true)

/-- The four reasons of a decision. -/
structure Reasons where
  severity : SeverityReason
  evidence : EvidenceReason
  scope : ScopeReason
  admission : AdmissionReason

/-- `_admission`; a human adjudication needs a human, and nothing else does. -/
def admission (p : ReviewConvergencePolicy) (c : BlockerCandidate)
    (disposition : AdmissionDisposition) (reasons : Reasons) : BlockerAdmissionDecision where
  mode := p.mode
  proposedBlocking := c.proposedBlocking
  effectiveBlocking := disposition = .block
  needsHuman := disposition = .humanAdjudication
  withholdsAutomaticApproval := disposition = .block || disposition = .humanAdjudication
  automaticGithubReviewEvents := p.automaticGithubReviewEvents
  inlineAdvisoryThreads := p.inlineAdvisoryThreads
  disposition := disposition
  severityReason := reasons.severity
  evidenceReason := reasons.evidence
  scopeReason := reasons.scope
  admissionReason := reasons.admission
  blocks_iff := decide_eq_true_iff
  not_both := by cases disposition <;> decide

/-- `bool(candidate.named_mandatory_rule)` in the strict mode. -/
def namedRule (p : ReviewConvergencePolicy) (c : BlockerCandidate) : Bool :=
  decide (p.mode = .strict) && c.namedMandatoryRule.any (fun rule => rule != "")

/-- A late reason as the reason of an admission; `human-adjudication` is none. -/
def LateReason.admissionReason : LateReason → Except String AdmissionReason
  | .newRegression => .ok .newRegression
  | .substantiatedMissedDefect => .ok .substantiatedMissedDefect
  | .humanAdjudication => .error "admission_reason is invalid"

/-- The late reason's word on a candidate that no earlier gate took: whether it may block, the
scope, and the reason a block is given. -/
def lateAssessment (c : BlockerCandidate) : Bool × ScopeReason × Except String AdmissionReason :=
  if c.isLateRelativeToBaseline then
    match c.lateReason with
    | some reason => (true, scopeReasonFor c.attribution, reason.admissionReason)
    | none => (false, .alreadyReviewedOptional, .ok .admittedBlocker)
  else (true, scopeReasonFor c.attribution, .ok .admittedBlocker)

/-- The last gate: a violation with all that a blocker needs, or an advisory. -/
def assessBlocker (rules : AdmissionRules) (c : BlockerCandidate) (p : ReviewConvergencePolicy) :
    Except String BlockerAdmissionDecision :=
  let named := namedRule p c
  let severity := severityAssessment rules c named
  let evidence := evidenceAssessment c
  let late := lateAssessment c
  let violation := c.hasSpecificViolation || c.hasRequiredContract || named
  let attributed := decide (c.attribution ∈
    [Attribution.prChange, .fixRegression, .documentedException])
  let severityReason := if named then .namedMandatoryRule else severity.2
  if violation && (severity.1 || named) && c.hasActionableRemedy && evidence.1 && attributed &&
      late.1 && (!c.isPreferenceOrOptional || named) then
    late.2.2.map (fun reason => admission p c .block ⟨severityReason, evidence.2, late.2.1, reason⟩)
  else
    .ok (admission p c .advisory
      ⟨if c.isPreferenceOrOptional && !named then .preferenceOrOptional else severityReason,
        evidence.2, late.2.1, .notAdmittedAdvisory⟩)

/-- `evaluate_blocker_admission`. -/
def evaluateBlockerAdmission (rules : AdmissionRules) (c : BlockerCandidate)
    (p : ReviewConvergencePolicy) : Except String BlockerAdmissionDecision :=
  if p.mode = .legacy then
    .ok (admission p c
      (if legacyBlocks rules c.proposedBlocking c.severity then .block else .advisory)
      ⟨if c.proposedBlocking.isSome then .legacyExplicitBlocking else .legacySeverityFallback,
        .legacyUnverified, .legacyUnscoped, .legacyClassification⟩)
  else if c.isDuplicate then
    .ok (admission p c .suppressedDuplicate
      ⟨.notApplicable, .notApplicable, .notApplicable, .duplicateOfExisting⟩)
  else if c.hasAuthorizedDisposition then
    .ok (admission p c .honoredDisposition
      ⟨.notApplicable, .notApplicable, .notApplicable, .authorizedDispositionStillValid⟩)
  else if c.needsHuman then
    .ok (admission p c .humanAdjudication
      ⟨.notApplicable, .notApplicable, scopeReasonFor c.attribution, .classificationNeedsHuman⟩)
  else if c.hasContradictoryEvidence then
    .ok (admission p c .humanAdjudication
      ⟨.notApplicable, .notApplicable, scopeReasonFor c.attribution,
        .contradictoryEvidenceNeedsHuman⟩)
  else if c.highImpactWeaklySupported then
    .ok (admission p c .humanAdjudication
      ⟨if materialSeverity rules c.severity then .materialHighCritical else .belowMaterialThreshold,
        (evidenceAssessment c).2, scopeReasonFor c.attribution, .weakHighImpactNeedsHuman⟩)
  else assessBlocker rules c p

/-- The arguments of `derive_blocker_candidate` beside the comment. -/
structure CandidateFacts where
  onChangedPath : Bool := false
  evidenceLocationsValidated : Bool := false
  hasFailureCondition : Bool := false
  hasIndependentArtifact : Bool := false
  hasActionableRemedy : Option Bool := none
  evidenceIsJsonOrLineValidityOnly : Bool := false
  evidenceIsModelConfidenceOrAgreementOnly : Bool := false
  isDuplicate : Bool := false
  hasAuthorizedDisposition : Bool := false
  hasContradictoryEvidence : Bool := false
  isLateRelativeToBaseline : Bool := false
  lateReason : Option LateReason := none
  namedMandatoryRule : Option String := none
  hasRequiredContract : Option Bool := none
  hasSpecificViolation : Option Bool := none

/-- `(text or "").strip().casefold()`. -/
def foldedText (rules : AdmissionRules) (text : Option String) : String :=
  rules.casefold (strip (text.getD ""))

/-- The category is one of `PREFERENCE_CATEGORIES`. -/
def isPreference (rules : AdmissionRules) (c : CommentFields) : Bool :=
  foldedText rules c.category ∈ ["style", "nit", "preference"]

/-- The facts that a comment's own fields leave. -/
def candidateOf (rules : AdmissionRules) (c : CommentFields) (facts : CandidateFacts) :
    BlockerCandidate where
  proposedBlocking := c.blocking
  severity := c.severity
  hasSpecificViolation := facts.hasSpecificViolation.getD false
  hasRequiredContract := facts.hasRequiredContract.getD false
  namedMandatoryRule := facts.namedMandatoryRule
  hasActionableRemedy := facts.hasActionableRemedy.getD
    (foldedText rules c.fixEffort != "" && foldedText rules c.fixEffort != "unknown")
  evidenceLocationsValidated := facts.evidenceLocationsValidated
  hasFailureCondition := facts.hasFailureCondition
  hasIndependentArtifact := facts.hasIndependentArtifact
  evidenceIsJsonOrLineValidityOnly := facts.evidenceIsJsonOrLineValidityOnly
  evidenceIsModelConfidenceOrAgreementOnly := facts.evidenceIsModelConfidenceOrAgreementOnly
  attribution := if facts.onChangedPath then .prChange else .unattributed
  isDuplicate := facts.isDuplicate
  hasAuthorizedDisposition := facts.hasAuthorizedDisposition
  hasContradictoryEvidence := facts.hasContradictoryEvidence
  isPreferenceOrOptional := isPreference rules c
  isLateRelativeToBaseline := facts.isLateRelativeToBaseline
  lateReason := facts.lateReason
  highImpactWeaklySupported := materialSeverity rules c.severity &&
    !(facts.hasIndependentArtifact ||
      (facts.evidenceLocationsValidated && facts.hasFailureCondition))
  path := some c.path
  line := c.line
  side := some c.side

/-- `derive_blocker_candidate`. -/
def deriveBlockerCandidate (rules : AdmissionRules) (c : CommentFields) (facts : CandidateFacts) :
    Except String BlockerCandidate :=
  (candidateOf rules c facts).construct rules

section Admission

variable {rules : AdmissionRules}

theorem construct_candidate {c d : BlockerCandidate} (h : c.construct rules = .ok d) : d = c := by
  obtain ⟨_, _, h1⟩ := Session.bind_ok h
  obtain ⟨_, _, h2⟩ := Session.bind_ok h1
  obtain ⟨_, _, h3⟩ := Session.bind_ok h2
  obtain ⟨_, _, h4⟩ := Session.bind_ok h3
  obtain ⟨_, _, h5⟩ := Session.bind_ok h4
  exact (Except.ok.inj h5).symm

/-- A candidate that names no violation. -/
def BlockerCandidate.Plain (c : BlockerCandidate) : Prop :=
  c.hasSpecificViolation = false ∧ c.hasRequiredContract = false ∧ c.namedMandatoryRule = none

/-- Whether a plain candidate is left to a human. -/
def BlockerCandidate.awaitsHuman (c : BlockerCandidate) : Bool :=
  !c.isDuplicate && !c.hasAuthorizedDisposition &&
    (c.needsHuman || c.hasContradictoryEvidence || c.highImpactWeaklySupported)

variable (rules) in
/-- A plain candidate that no gate takes is an advisory. -/
theorem assess_plain {c : BlockerCandidate} {p : ReviewConvergencePolicy} (hplain : c.Plain) :
    ∃ reasons, assessBlocker rules c p = .ok (admission p c .advisory reasons) := by
  obtain ⟨hviolation, hcontract, hrule⟩ := hplain
  have hnamed : namedRule p c = false := by
    rw [namedRule, hrule, Option.any_none, Bool.and_false]
  unfold assessBlocker
  simp only [hviolation, hcontract, hnamed, Bool.or_self, Bool.false_and, Bool.false_eq_true,
    if_false]
  exact ⟨_, rfl⟩

variable (rules) in
/-- In an operator mode a plain candidate never blocks; a human decides or nobody does. -/
theorem evaluate_plain {c : BlockerCandidate} {p : ReviewConvergencePolicy}
    (hmode : p.mode.operator = true) (hplain : c.Plain) :
    ∃ decision, evaluateBlockerAdmission rules c p = .ok decision ∧
      decision.effectiveBlocking = false ∧ decision.needsHuman = c.awaitsHuman := by
  have hlegacy : p.mode ≠ .legacy := by
    intro h
    rw [h] at hmode
    cases hmode
  obtain ⟨reasons, hassess⟩ := assess_plain rules (p := p) hplain
  unfold evaluateBlockerAdmission BlockerCandidate.awaitsHuman
  rw [if_neg hlegacy]
  split
  · next h => exact ⟨_, rfl, rfl, by rw [h]; rfl⟩
  next hduplicate =>
  split
  · next h => exact ⟨_, rfl, rfl, by rw [h, Bool.not_true, Bool.and_false]; rfl⟩
  next hauthorized =>
  have hopen : (!c.isDuplicate && !c.hasAuthorizedDisposition) = true := by
    rw [Bool.eq_false_iff.mpr hduplicate, Bool.eq_false_iff.mpr hauthorized]
    rfl
  rw [hopen, Bool.true_and]
  split
  · next h => exact ⟨_, rfl, rfl, by rw [h]; rfl⟩
  next hhuman =>
  rw [Bool.eq_false_iff.mpr hhuman, Bool.false_or]
  split
  · next h => exact ⟨_, rfl, rfl, by rw [h]; rfl⟩
  next hcontradictory =>
  rw [Bool.eq_false_iff.mpr hcontradictory, Bool.false_or]
  split
  · next h => exact ⟨_, rfl, rfl, by rw [h]; rfl⟩
  next hweak =>
  rw [Bool.eq_false_iff.mpr hweak]
  exact ⟨_, hassess, rfl, rfl⟩

end Admission

end ReviewSensei.Convergence
