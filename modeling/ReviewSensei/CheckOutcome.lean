import ReviewSensei.Eligibility

/-! The conclusion of the check that gates a merge, mapped from a review's obligations. -/
namespace ReviewSensei.Gate
open Review (ReviewComment ReviewVerdict ResultRules ReviewResult ResultFields)
open Approval (ReviewStatus FactFields ResultRest resultRules hasBlockingFindings
  hasHumanAdjudicationFindings)
open Coverage (CoverageOutcome CoverageReason FileCoverage CoverageManifest)

/-- `REVIEW_POLICIES`. -/
inductive Policy
  | autoApprove
  | blocking
  | advisory
  deriving DecidableEq, Repr

inductive Conclusion
  | success
  | failure
  | neutral
  | cancelled
  | timedOut
  | actionRequired
  deriving DecidableEq, Repr

def maxCheckSummaryChars : Nat := 4096

structure CheckOutcome where
  conclusion : Conclusion
  title : String
  summary : String
  deriving DecidableEq, Repr

/-- What one outcome is mapped from. -/
structure Obligations where
  reviewStatus : ReviewStatus
  requiredFixes : Bool
  requiredDecisions : Bool := false
  mixedCoverageSatisfied : Bool := false
  coverageUncertaintyAccepted : Bool := false
  reviewVerdict : Option ReviewVerdict := none

namespace Obligations
variable (o : Obligations)

def unselectedFixes : Bool := o.reviewVerdict.any (·.unselectedBlockingDefect)
def unselectedDecisions : Bool := o.reviewVerdict.any (·.unselectedHumanDecision)
def boundedRequired : Bool := o.requiredFixes || o.unselectedFixes
def boundedDecisions : Bool := o.requiredDecisions || o.unselectedDecisions

def effectiveComplete : Bool :=
  o.reviewStatus = .complete ||
    (o.reviewStatus = .partialReview && (o.mixedCoverageSatisfied || o.coverageUncertaintyAccepted))

def requiredGuidance : String :=
  if o.unselectedFixes || o.unselectedDecisions then
    (if o.requiredFixes || o.requiredDecisions then
      "Published findings are listed in the ReviewSensei review comments. " else "") ++
      "A qualifying review must establish that these requirements are satisfied."
  else "They are listed in the ReviewSensei review comments."

def advisoryOutcome : CheckOutcome where
  conclusion := .neutral
  title := "Advisory review — not enforced"
  summary :=
    if o.boundedRequired then
      "Required fixes were reported but enforcement is disabled by github.reviews: advisory."
    else if o.boundedDecisions then
      "Findings requiring a human decision were reported, but enforcement is disabled by " ++
        "github.reviews: advisory."
    else "ReviewSensei does not impose a merge gate in advisory mode."

def requiredOutcome : CheckOutcome :=
  if o.boundedDecisions then
    { conclusion := .failure
      title := "Required fixes and human decisions remain"
      summary := "The completed review reported required fixes and findings that require a human " ++
        "decision for this head. " ++ o.requiredGuidance }
  else
    { conclusion := .failure
      title := "Required fixes remain"
      summary := "The completed review reported required fixes for this head. " ++
        o.requiredGuidance }

def satisfiedOutcome : CheckOutcome :=
  if o.reviewStatus = .partialReview ∧ o.mixedCoverageSatisfied = true then
    { conclusion := .success
      title := "No required fixes"
      summary := "AI-reviewed text and human-confirmed non-text coverage satisfied the review gate " ++
        "for this head (AI review status remains partial)." }
  else if o.reviewStatus = .partialReview ∧ o.coverageUncertaintyAccepted = true then
    { conclusion := .success
      title := "Coverage uncertainty accepted by maintainer"
      summary := "Incomplete AI coverage was explicitly accepted by a maintainer for this head " ++
        "(AI review status remains partial)." }
  else
    { conclusion := .success
      title := "No required fixes"
      summary := "The completed review reported no required fixes for this head." }

end Obligations

/-- `review_check_outcome`. -/
def reviewCheckOutcome (policy : Policy) (o : Obligations) : CheckOutcome :=
  if policy = .advisory then o.advisoryOutcome
  else if o.effectiveComplete = false then
    { conclusion := .actionRequired
      title := "Review incomplete"
      summary := "This review did not establish complete evidence for the reviewed head, so the " ++
        "check stays non-passing until an eligible review completes." }
  else if o.boundedRequired then o.requiredOutcome
  else if o.boundedDecisions then
    { conclusion := .actionRequired
      title := "Human decision required"
      summary := "The completed review reported findings that require a human decision before " ++
        "approval." ++ (if o.unselectedDecisions then " " ++ o.requiredGuidance else "") }
  else o.satisfiedOutcome

/-- Nothing of the obligations withholds a success. -/
structure Obligations.Satisfied (o : Obligations) : Prop where
  coverage : o.effectiveComplete = true
  fixes : o.requiredFixes = false
  decisions : o.requiredDecisions = false
  verdict_fixes : o.unselectedFixes = false
  verdict_decisions : o.unselectedDecisions = false

theorem satisfiedOutcome_success (o : Obligations) : o.satisfiedOutcome.conclusion = .success := by
  unfold Obligations.satisfiedOutcome
  split
  · rfl
  · split
    · rfl
    · rfl

theorem requiredOutcome_failure (o : Obligations) : o.requiredOutcome.conclusion = .failure := by
  unfold Obligations.requiredOutcome
  split
  · rfl
  · rfl

/-- An enforced check succeeds exactly where nothing withholds it. -/
theorem reviewCheckOutcome_success {policy : Policy} (hpolicy : policy ≠ .advisory)
    (o : Obligations) :
    (reviewCheckOutcome policy o).conclusion = .success ↔ o.Satisfied := by
  unfold reviewCheckOutcome
  rw [if_neg hpolicy]
  split
  · next hincomplete =>
    constructor
    · intro h
      cases h
    · intro h
      rw [h.coverage] at hincomplete
      cases hincomplete
  · next hcomplete =>
    have hcoverage : o.effectiveComplete = true := by simpa using hcomplete
    split
    · next hrequired =>
      rw [requiredOutcome_failure]
      constructor
      · intro h
        cases h
      · intro h
        rw [Obligations.boundedRequired, h.fixes, h.verdict_fixes] at hrequired
        cases hrequired
    · next hrequired =>
      split
      · next hdecisions =>
        constructor
        · intro h
          cases h
        · intro h
          rw [Obligations.boundedDecisions, h.decisions, h.verdict_decisions] at hdecisions
          cases hdecisions
      · next hdecisions =>
        simp only [Obligations.boundedRequired, Obligations.boundedDecisions, Bool.or_eq_true,
          not_or, Bool.not_eq_true] at hrequired hdecisions
        refine iff_of_true (satisfiedOutcome_success o) ?_
        exact ⟨hcoverage, hrequired.1, hdecisions.1, hrequired.2, hdecisions.2⟩

section ForResult
variable {rules : Human.Rules} {others : ResultRules (ResultRest rules.unicode)}

def outcomeText : CoverageOutcome → String
  | .reviewed => "reviewed"
  | .partiallyReviewed => "partially-reviewed"
  | .excludedByPolicy => "excluded-by-policy"
  | .unsupported => "unsupported"
  | .budgetExhausted => "budget-exhausted"

def reasonText : CoverageReason → String
  | .binary => "binary"
  | .generated => "generated"
  | .lockfileFormat => "lockfile-format"
  | .noReviewStage => "no-review-stage"
  | .tooLargeHunk => "too-large-hunk"
  | .tooLargeFile => "too-large-file"
  | .chunkFailed => "chunk-failed"
  | .chunkPreflightFailed => "chunk-preflight-failed"
  | .providerCallBudget => "provider-call-budget"
  | .incompleteEnumeration => "incomplete-enumeration"
  | .crossFileRelationship => "cross-file-relationship"
  | .deleted => "deleted"
  | .renamed => "renamed"

/-- One uncovered file with what recovers it. -/
def recoveryEntry (entry : FileCoverage) : String :=
  String.ofList entry.path ++ " (" ++ (entry.reason.map reasonText).getD (outcomeText entry.outcome) ++
    ": " ++ (if HumanFiles.isHumanConfirmableFile entry then "confirm human file review"
      else "rescan to complete coverage") ++ ")"

/-- `_coverage_recovery_guidance`. -/
def coverageRecoveryGuidance (coverage : Option (CoverageManifest rules.unicode)) : String :=
  match coverage with
  | none => ""
  | some manifest =>
    let uncovered := manifest.files.filter (fun entry => decide (entry.outcome ≠ .reviewed))
    if uncovered.isEmpty then
      if manifest.enumerationComplete then ""
      else " Diff enumeration was incomplete. Recovery: rescan to complete coverage."
    else
      " Uncovered files: " ++ "; ".intercalate ((uncovered.take 10).map recoveryEntry) ++
        (if 10 < uncovered.length then "; +" ++ toString (uncovered.length - 10) ++ " more" else "") ++
        (if manifest.enumerationComplete then ""
          else "; diff enumeration incomplete (rescan to complete coverage)") ++ "."

def truncate (text : String) (bound : Nat) : String := String.ofList (text.toList.take bound)

/-- A summary with the guidance at its end, within the bound of a check. -/
def withGuidance (summary guidance : String) : String :=
  if summary.length + guidance.length ≤ maxCheckSummaryChars then summary ++ guidance
  else truncate (truncate summary (maxCheckSummaryChars - guidance.length) ++ guidance)
    maxCheckSummaryChars

/-- What the check says of a result that no baseline can hold. -/
def capacityOutcome (policy : Policy) (comments : List ReviewComment) (outcome : CheckOutcome) :
    CheckOutcome where
  conclusion := outcome.conclusion
  title := "Analysis complete — baseline capacity exceeded" ++
    (if policy = .advisory then "" else " (approval withheld)")
  summary := "Analysis completed, but complete evidence could not fit the durable baseline. " ++
    "Publication retains the full validated finding inventory." ++
    (if policy = .advisory then
      " This advisory policy does not request automatic approval or impose a merge gate."
    else " Approval is withheld.") ++
    (if hasHumanAdjudicationFindings comments then
      " Human assessment obligations remain open independently." else "")

/-- `check_outcome_for_result`; an obligation that is not given is the result's own. -/
def checkOutcomeForResult (result : ReviewResult (resultRules others)) (policy : Policy)
    (requiredFixes requiredDecisions : Option Bool) (mixedCoverageSatisfied : Bool) :
    CheckOutcome :=
  let outcome := reviewCheckOutcome policy
    { reviewStatus := result.rest.reviewStatus
      requiredFixes := requiredFixes.getD (hasBlockingFindings rules result.comments)
      requiredDecisions := requiredDecisions.getD (hasHumanAdjudicationFindings result.comments)
      mixedCoverageSatisfied := mixedCoverageSatisfied
      reviewVerdict := result.reviewVerdict }
  if result.rest.persistenceStatus.isSome then capacityOutcome policy result.comments outcome
  else if result.rest.reviewStatus ≠ .complete ∧
      ¬ (result.rest.reviewStatus = .partialReview ∧ mixedCoverageSatisfied = true) ∧
      coverageRecoveryGuidance result.rest.coverage ≠ "" then
    { outcome with
      summary := withGuidance outcome.summary (coverageRecoveryGuidance result.rest.coverage) }
  else outcome

/-- The texts of a result never change its conclusion. -/
theorem checkOutcomeForResult_conclusion (result : ReviewResult (resultRules others))
    (policy : Policy) (fixes decisions : Bool) :
    (checkOutcomeForResult result policy (some fixes) (some decisions) false).conclusion =
      (reviewCheckOutcome policy
        { reviewStatus := result.rest.reviewStatus
          requiredFixes := fixes
          requiredDecisions := decisions
          reviewVerdict := result.reviewVerdict }).conclusion := by
  unfold checkOutcomeForResult
  dsimp only [Option.getD_some]
  split
  · rfl
  · split
    · rfl
    · rfl

end ForResult

/-- The conclusion that `complete` writes: a controlled restart certifies nothing of its archive. -/
def completed (restart : Bool) (outcome : CheckOutcome) : CheckOutcome :=
  if restart = true ∧ (outcome.conclusion = .success ∨ outcome.conclusion = .neutral) then
    { conclusion := .actionRequired
      title := "Historical review remains unsettled"
      summary := "The fresh review completed, but historical findings, decisions and delayed " ++
        "effects remain unsettled. Controlled restart does not certify those obligations or " ++
        "authorize approval." }
  else outcome

theorem completed_success (restart : Bool) (outcome : CheckOutcome) :
    (completed restart outcome).conclusion = .success ↔
      restart = false ∧ outcome.conclusion = .success := by
  unfold completed
  split
  · next h =>
    constructor
    · intro hsuccess
      cases hsuccess
    · intro hsuccess
      exact absurd (h.1.symm.trans hsuccess.1) (by decide)
  · next h =>
    cases restart with
    | false => exact ⟨fun hsuccess => ⟨rfl, hsuccess⟩, fun hsuccess => hsuccess.2⟩
    | true =>
      constructor
      · intro hsuccess
        exact absurd ⟨rfl, .inl hsuccess⟩ h
      · intro hsuccess
        cases hsuccess.1

/-- The outcome that `_publish_check_state` completes: a success waits for what is carried. -/
def awaitCarried (carriedPending : Bool) (outcome : CheckOutcome) : CheckOutcome :=
  if outcome.conclusion = .success ∧ carriedPending = true then
    { conclusion := .actionRequired
      title := "Historical assessment decision required"
      summary := "Carried historical assessments require exact authorized individual decisions " ++
        "before approval." }
  else outcome

theorem awaitCarried_success (carriedPending : Bool) (outcome : CheckOutcome) :
    (awaitCarried carriedPending outcome).conclusion = .success ↔
      carriedPending = false ∧ outcome.conclusion = .success := by
  unfold awaitCarried
  split
  · next h =>
    constructor
    · intro hsuccess
      cases hsuccess
    · intro hsuccess
      exact absurd (h.2.symm.trans hsuccess.1) (by decide)
  · next h =>
    rw [not_and, Bool.not_eq_true] at h
    exact ⟨fun hsuccess => ⟨h hsuccess, hsuccess⟩, fun hsuccess => hsuccess.2⟩

end ReviewSensei.Gate
