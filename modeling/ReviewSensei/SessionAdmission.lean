import ReviewSensei.SessionMutations

/-! The convergence policy and the admission of a review round. -/
namespace ReviewSensei.Session

variable {rules : SessionRules}

inductive ReviewMode
  | legacy
  | advisory
  | mergeFocused
  | strict
  deriving DecidableEq

def ReviewMode.text : ReviewMode → String
  | legacy => "legacy"
  | advisory => "advisory"
  | mergeFocused => "merge-focused"
  | strict => "strict"

/-- `OPERATOR_REVIEW_MODES`. -/
def ReviewMode.operator (mode : ReviewMode) : Bool := mode != .legacy

inductive Enforcement
  | displayOnly
  | publication
  deriving DecidableEq

def Enforcement.text : Enforcement → String
  | displayOnly => "display-only"
  | publication => "publication"

inductive ReviewQuality
  | current
  | balanced
  | highSignal
  deriving DecidableEq

def ReviewQuality.text : ReviewQuality → String
  | current => "current"
  | balanced => "balanced"
  | highSignal => "high-signal"

/-- A policy; an operator mode always enforces at the publication. -/
structure ReviewConvergencePolicy where
  mode : ReviewMode
  enforcement : Enforcement
  maxFailedAttempts : Nat
  quality : ReviewQuality
  enforced : mode.operator = true → enforcement = .publication
  positive : 1 ≤ maxFailedAttempts
  bounded : maxFailedAttempts ≤ Session.maxFailedAttempts

namespace ReviewConvergencePolicy

def construct (mode : ReviewMode) (enforcement : Enforcement) (maxFailedAttempts : Nat)
    (quality : ReviewQuality) : Except String ReviewConvergencePolicy :=
  if h : 1 ≤ maxFailedAttempts ∧ maxFailedAttempts ≤ Session.maxFailedAttempts then
    .ok
      { mode
        enforcement := if mode.operator then .publication else enforcement
        maxFailedAttempts
        quality
        enforced := fun ho => by simp [ho]
        positive := h.1
        bounded := h.2 }
  else .error "max_failed_attempts is out of bounds"

/-- `ReviewConvergencePolicy()`. -/
def default : ReviewConvergencePolicy where
  mode := .mergeFocused
  enforcement := .publication
  maxFailedAttempts := defaultMaxFailedAttempts
  quality := .current
  enforced := fun _ => rfl
  positive := by decide
  bounded := by decide

/-- The digest of the canonical JSON of the identity fields. -/
def digest (policy : ReviewConvergencePolicy) : String :=
  sha256 ("\x7b\"automatic_github_review_events\":" ++
    (if policy.mode = .advisory then "false" else "true") ++
    ",\"enforcement\":\"" ++ policy.enforcement.text ++
    "\",\"inline_advisory_threads\":" ++ (if policy.mode = .legacy then "true" else "false") ++
    ",\"max_failed_attempts\":" ++ toString policy.maxFailedAttempts ++
    ",\"mode\":\"" ++ policy.mode.text ++
    (if policy.quality = .current then "" else "\",\"quality\":\"" ++ policy.quality.text) ++
    "\",\"schema_version\":\"1.0\"\x7d")

end ReviewConvergencePolicy

structure RoundSessionState where
  completedInitialReviews : Nat
  completedVerificationRounds : Nat
  failedAttempts : Nat
  sameHeadDuplicate : Bool
  publicationRecovery : Bool
  transportOrStructuralRetry : Bool
  noProgress : Bool
  coverageComplete : Bool
  independentlyApprovalEligible : Bool
  latestHeadReviewed : Bool
  paused : Bool

inductive HandoffReason
  | paused
  | noProgress
  | failedAttemptBudgetExhausted
  deriving DecidableEq

/-- A decision; the round kind `none` is the absence of a slot. -/
structure RoundAdmissionDecision where
  mode : ReviewMode
  admits : Bool
  countAsCompletedRound : Bool
  roundKind : Option Slot
  handoff : Bool
  handoffReason : Option HandoffReason
  mayEmitApprove : Bool
  deriving DecidableEq

def RoundAdmissionDecision.refused (mode : ReviewMode) (reason : Option HandoffReason) :
    RoundAdmissionDecision where
  mode
  admits := false
  countAsCompletedRound := false
  roundKind := none
  handoff := reason.isSome
  handoffReason := reason
  mayEmitApprove := false

def RoundAdmissionDecision.admitted (mode : ReviewMode) (state : RoundSessionState) :
    RoundAdmissionDecision where
  mode
  admits := true
  countAsCompletedRound := true
  roundKind := some (if state.completedInitialReviews = 0 then .initial else .verification)
  handoff := false
  handoffReason := none
  mayEmitApprove := state.independentlyApprovalEligible && state.coverageComplete &&
    state.latestHeadReviewed

def evaluateRoundAdmission (state : RoundSessionState) (policy : ReviewConvergencePolicy) :
    RoundAdmissionDecision :=
  if policy.mode = .legacy then .admitted policy.mode state
  else if state.paused then .refused policy.mode (some .paused)
  else if state.noProgress then .refused policy.mode (some .noProgress)
  else if policy.maxFailedAttempts ≤ state.failedAttempts then
    .refused policy.mode (some .failedAttemptBudgetExhausted)
  else if state.sameHeadDuplicate || state.publicationRecovery ||
      state.transportOrStructuralRetry then
    .refused policy.mode none
  -- Admission is uncapped: the counters choose the slot and never refuse the round.
  else .admitted policy.mode state

/-- The state flags a caller passes; a flag left out is `none`. -/
structure StateFlags where
  sameHeadDuplicate : Option Bool := none
  publicationRecovery : Option Bool := none
  transportOrStructuralRetry : Option Bool := none
  noProgress : Option Bool := none
  coverageComplete : Option Bool := none
  independentlyApprovalEligible : Option Bool := none
  latestHeadReviewed : Option Bool := none
  paused : Option Bool := none

/-- `flags.setdefault(.., True)`. -/
def StateFlags.markDuplicate (flags : StateFlags) : StateFlags :=
  { flags with sameHeadDuplicate := flags.sameHeadDuplicate.or (some true) }

def StateFlags.markPaused (flags : StateFlags) : StateFlags :=
  { flags with paused := flags.paused.or (some true) }

/-- The failed attempts an admission for this head holds against it: a grant waives them below
the ceiling. -/
def effectiveFailedAttempts (record : SessionFields) (headSha policyDigest : Option String) : Nat :=
  let failed := failedAttemptsForHead record headSha
  let targetHead := textOr headSha record.failedAttemptsHeadSha
  if failed < maxFailedAttempts ∧
      ((hasUnconsumedSuccessorGrant record targetHead policyDigest).isSome ∨
        (hasUnconsumedIrrecoverableTransactionGrant record targetHead policyDigest).isSome) then 0
  else failed

def toRoundState (record : SessionFields) (headSha policyDigest : Option String)
    (flags : StateFlags) : RoundSessionState where
  completedInitialReviews := record.completedInitialReviews
  completedVerificationRounds := record.completedVerificationRounds
  failedAttempts := effectiveFailedAttempts record headSha policyDigest
  sameHeadDuplicate := flags.sameHeadDuplicate.getD false
  publicationRecovery := flags.publicationRecovery.getD false
  transportOrStructuralRetry := flags.transportOrStructuralRetry.getD false
  noProgress := flags.noProgress.getD false
  coverageComplete := flags.coverageComplete.getD false
  independentlyApprovalEligible := flags.independentlyApprovalEligible.getD false
  latestHeadReviewed := flags.latestHeadReviewed.getD false
  paused := flags.paused.getD false

end ReviewSensei.Session
