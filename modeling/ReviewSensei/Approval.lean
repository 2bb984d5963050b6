import ReviewSensei.HumanInventory
import ReviewSensei.ReviewResult
import ReviewSensei.Coverage

/-! The approval policy: the facts frozen from a result and the decision on them. -/
namespace ReviewSensei.Approval
open Session (isSha256 strip isAsciiAlnum)
open Sha256 (encode)
open Review (ReviewComment ReviewVerdict ResultFields ResultRules ReviewResult)
open Coverage (CoverageManifest FileCoverage HunkCoverage)
open Human (Rules)

inductive ReviewStatus
  | complete
  | partialReview
  | incomplete
  | summaryOnly
  deriving DecidableEq, Repr

def ReviewStatus.text : ReviewStatus → String
  | .complete => "complete"
  | .partialReview => "partial"
  | .incomplete => "incomplete"
  | .summaryOnly => "summary-only"

inductive EvidencePolicy
  | legacy
  | confirmed
  deriving DecidableEq, Repr

def EvidencePolicy.text : EvidencePolicy → String
  | .legacy => "legacy"
  | .confirmed => "confirmed"

inductive PersistenceStatus
  | capacityExceeded
  deriving DecidableEq, Repr

inductive CoverageBlocker
  | reviewed
  | partialCoverage
  | incomplete
  | unknown
  deriving DecidableEq, Repr

def CoverageBlocker.text : CoverageBlocker → String
  | .reviewed => "reviewed"
  | .partialCoverage => "partial"
  | .incomplete => "incomplete"
  | .unknown => "unknown"

inductive Qualification
  | notRequired
  | qualified
  | missing
  | unverified
  deriving DecidableEq, Repr

def Qualification.text : Qualification → String
  | .notRequired => "not-required"
  | .qualified => "qualified"
  | .missing => "missing"
  | .unverified => "unverified"

/-- `QUALIFICATION_STATES` that do not withhold approval. -/
def Qualification.accepted (q : Qualification) : Bool := q = .notRequired || q = .qualified

/-- Everything one approval decision depends on. -/
structure FactFields where
  enabled : Bool
  appAuthored : Bool
  reviewStatus : ReviewStatus
  evidencePolicy : EvidencePolicy
  hasBlockingFindings : Bool
  hasHumanAdjudicationFindings : Bool
  coverageBlocker : Option CoverageBlocker
  qualification : Qualification := .notRequired
  checkPublished : Bool := true
  hasOpenReviewThreads : Option Bool := none
  persistenceStatus : Option PersistenceStatus := none
  provider : Option String := none
  qualificationBinding : Option String := none
  reviewVerdict : Option ReviewVerdict := none
  deriving DecidableEq

/-- `[a-z0-9]` as bytes. -/
def isLowerAlnum (b : Nat) : Bool := (0x30 ≤ b && b ≤ 0x39) || (0x61 ≤ b && b ≤ 0x7a)

/-- `[a-z0-9][a-z0-9._-]{0,127}` over the whole text. -/
def isProvider (s : String) : Bool :=
  match encode s with
  | [] => false
  | first :: rest =>
    isLowerAlnum first && decide (rest.length ≤ 127) &&
      rest.all (fun b => isLowerAlnum b || b == 0x2e || b == 0x5f || b == 0x2d)

/-- `ApprovalFacts.__post_init__`. -/
def FactFields.check (f : FactFields) : Except String Unit := do
  ensure (f.reviewVerdict.isSome = true → f.provider.isSome = true)
    "approval review verdict is invalid"
  ensure (∀ provider ∈ f.provider, isProvider provider = true) "approval facts provider is invalid"
  ensure (∀ binding ∈ f.qualificationBinding,
      f.provider = some "openrouter" ∧ isSha256 binding = true)
    "approval qualification binding is invalid"
  ensure (f.persistenceStatus.isSome = true → f.reviewStatus = .partialReview)
    "approval facts persistence status is invalid"

structure ApprovalFacts extends FactFields where
  accepted : toFactFields.check = .ok ()

def ApprovalFacts.construct (f : FactFields) : Except String ApprovalFacts :=
  match h : f.check with
  | .ok () => .ok ⟨f, h⟩
  | .error e => .error e

theorem ApprovalFacts.construct_ok {f : FactFields} {facts : ApprovalFacts}
    (h : construct f = .ok facts) : facts.toFactFields = f := by
  unfold construct at h
  split at h
  · obtain rfl := Except.ok.inj h
    rfl
  · cases h

/-- A condition that withholds approval. -/
inductive Gate
  | autoApprovalDisabled
  | appAuthored
  | verdictBlocking
  | verdictHuman
  | blockingFindingsOpen
  | humanAdjudicationOpen
  | threadsIncomplete
  | threadsOpen
  | baselineCapacityExceeded
  | review (status : ReviewStatus)
  | reviewUnverified
  | coverage (blocker : CoverageBlocker)
  | qualification (state : Qualification)
  deriving DecidableEq, Repr

def Gate.text : Gate → String
  | .autoApprovalDisabled => "auto-approval-disabled"
  | .appAuthored => "app-authored-pull-request"
  | .verdictBlocking => "review-verdict-blocking"
  | .verdictHuman => "review-verdict-human"
  | .blockingFindingsOpen => "blocking-findings-open"
  | .humanAdjudicationOpen => "human-adjudication-open"
  | .threadsIncomplete => "review-threads-incomplete"
  | .threadsOpen => "review-threads-open"
  | .baselineCapacityExceeded => "baseline-capacity-exceeded"
  | .review status => "review-" ++ status.text
  | .reviewUnverified => "review-unverified"
  | .coverage blocker => "coverage-" ++ blocker.text
  | .qualification state => "qualification-" ++ state.text

/-- `MAINTAINER_COVERAGE_EXCEPTION_SATISFIED_GATES`. -/
def maintainerExceptionGates : List Gate :=
  [.review .partialReview, .reviewUnverified, .coverage .partialCoverage]

inductive Outcome
  | withheld
  | approved
  | maintainerCoverageException
  deriving DecidableEq, Repr

structure AutoApprovalDecision where
  approved : Bool
  blockers : List Gate := []
  outcome : Outcome := .withheld
  satisfiedGates : List Gate := []
  deriving DecidableEq

/-- A gate that stands under a condition. -/
def gateIf (p : Prop) [Decidable p] (gate : Gate) : List Gate := if p then [gate] else []

/-- `coverage_exception_eligible`, of the facts alone. -/
def FactFields.exceptionEligible (f : FactFields) : Prop :=
  f.reviewStatus = .partialReview ∧ f.persistenceStatus = none ∧
    (f.coverageBlocker = none ∨ f.coverageBlocker = some .reviewed ∨
      f.coverageBlocker = some .partialCoverage)

instance (f : FactFields) : Decidable f.exceptionEligible := inferInstanceAs (Decidable (_ ∧ _))

/-- The gates that the maintainer's coverage exception cannot satisfy, down to the threads. -/
def FactFields.obligationGates (f : FactFields) : List Gate :=
  gateIf (f.enabled = false) .autoApprovalDisabled ++
    gateIf (f.appAuthored = true) .appAuthored ++
    gateIf (f.reviewVerdict.any (·.unselectedBlockingDefect) = true) .verdictBlocking ++
    gateIf (f.reviewVerdict.any (·.unselectedHumanDecision) = true) .verdictHuman ++
    gateIf (f.hasBlockingFindings = true) .blockingFindingsOpen ++
    gateIf (f.hasHumanAdjudicationFindings = true) .humanAdjudicationOpen ++
    match f.hasOpenReviewThreads with
    | none => [.threadsIncomplete]
    | some true => [.threadsOpen]
    | some false => []

/-- The gates of the status, the evidence and the coverage. -/
def FactFields.coverageGates (f : FactFields) : List Gate :=
  gateIf (f.reviewStatus ≠ .complete)
      (if f.persistenceStatus.isSome then .baselineCapacityExceeded else .review f.reviewStatus) ++
    gateIf (f.evidencePolicy = .confirmed ∧ f.reviewStatus ≠ .complete) .reviewUnverified ++
    match f.coverageBlocker with
    | none | some .reviewed => []
    | some blocker => [.coverage blocker]

/-- `evaluate_approval_facts`; the checks of the flags' types are left to the types. -/
def evaluateApprovalFacts (f : FactFields) (coverageUncertaintyAccepted : Bool) :
    AutoApprovalDecision :=
  let waives (gate : Gate) : Bool :=
    coverageUncertaintyAccepted && decide f.exceptionEligible && maintainerExceptionGates.contains gate
  let blockers := f.obligationGates ++ f.coverageGates.filter (fun gate => !waives gate) ++
    gateIf (f.qualification.accepted = false) (.qualification f.qualification)
  let satisfied := f.coverageGates.filter waives
  { approved := blockers.isEmpty
    blockers := blockers
    outcome :=
      if blockers.isEmpty then
        if satisfied.isEmpty then .approved else .maintainerCoverageException
      else .withheld
    satisfiedGates := satisfied }

section Decision

/-- Nothing but the status and the coverage withholds approval. -/
structure FactFields.Clear (f : FactFields) : Prop where
  enabled : f.enabled = true
  not_app_authored : f.appAuthored = false
  verdict_blocking : f.reviewVerdict.any (·.unselectedBlockingDefect) = false
  verdict_human : f.reviewVerdict.any (·.unselectedHumanDecision) = false
  not_blocking : f.hasBlockingFindings = false
  no_human : f.hasHumanAdjudicationFindings = false
  threads : f.hasOpenReviewThreads = some false
  qualified : f.qualification.accepted = true

/-- The review is complete and its coverage leaves nothing out. -/
def FactFields.Settled (f : FactFields) : Prop :=
  f.reviewStatus = .complete ∧ (f.coverageBlocker = none ∨ f.coverageBlocker = some .reviewed)

instance (f : FactFields) : Decidable f.Settled := inferInstanceAs (Decidable (_ ∧ _))

theorem gateIf_nil (p : Prop) [Decidable p] (gate : Gate) : gateIf p gate = [] ↔ ¬ p := by
  unfold gateIf
  split <;> simp_all

theorem obligationGates_nil (f : FactFields) :
    f.obligationGates = [] ↔
      f.enabled = true ∧ f.appAuthored = false ∧
        f.reviewVerdict.any (·.unselectedBlockingDefect) = false ∧
        f.reviewVerdict.any (·.unselectedHumanDecision) = false ∧
        f.hasBlockingFindings = false ∧ f.hasHumanAdjudicationFindings = false ∧
        f.hasOpenReviewThreads = some false := by
  unfold FactFields.obligationGates
  simp only [List.append_eq_nil_iff, gateIf_nil, Bool.not_eq_false, Bool.not_eq_true]
  rcases f.hasOpenReviewThreads with _ | _ | _ <;> simp [and_assoc]

/-- The gates of the status and the coverage that remain: none where the review is settled, and
none where the exception is accepted for facts that may use it. -/
theorem coverageGates_waived (f : FactFields) (accepted : Bool) :
    f.coverageGates.filter (fun gate => !(accepted && decide f.exceptionEligible &&
      maintainerExceptionGates.contains gate)) = [] ↔
      f.Settled ∨ (accepted = true ∧ f.exceptionEligible) := by
  by_cases hwaived : accepted = true ∧ f.exceptionEligible
  · -- every gate of facts that may use the exception is one that it satisfies
    obtain ⟨haccepted, heligible⟩ := hwaived
    obtain ⟨hstatus, hpersistence, hcoverage⟩ := heligible
    have helig : f.exceptionEligible := ⟨hstatus, hpersistence, hcoverage⟩
    refine iff_of_true ?_ (.inr ⟨haccepted, helig⟩)
    rw [List.filter_eq_nil_iff]
    intro gate hgate
    simp only [haccepted, helig, decide_true, Bool.true_and, Bool.not_eq_true',
      Bool.not_eq_false]
    unfold FactFields.coverageGates at hgate
    rw [hstatus, hpersistence] at hgate
    rcases hcoverage with hc | hc | hc <;> rw [hc] at hgate <;>
      cases hp : f.evidencePolicy <;>
      simp [gateIf, hp] at hgate <;> rcases hgate with rfl | rfl | rfl <;> decide
  · have hkeep : ∀ gate : Gate, (!(accepted && decide f.exceptionEligible &&
        maintainerExceptionGates.contains gate)) = true := by
      intro gate
      have hfalse : (accepted && decide f.exceptionEligible) = false := by
        rw [Bool.eq_false_iff, ne_eq, Bool.and_eq_true, decide_eq_true_eq]
        exact hwaived
      rw [hfalse, Bool.false_and, Bool.not_false]
    rw [List.filter_eq_self.mpr (fun gate _ => hkeep gate)]
    constructor
    · intro hnil
      left
      unfold FactFields.coverageGates at hnil
      simp only [List.append_eq_nil_iff, gateIf_nil, ne_eq, not_not] at hnil
      obtain ⟨⟨hstatus, _⟩, hcoverage⟩ := hnil
      refine ⟨hstatus, ?_⟩
      rcases hc : f.coverageBlocker with _ | _ | _ | _ | _ <;> rw [hc] at hcoverage <;> simp_all
    · rintro (⟨hstatus, hcoverage⟩ | h)
      · unfold FactFields.coverageGates
        rcases hcoverage with hc | hc <;> simp [hstatus, hc, gateIf]
      · exact absurd h hwaived

/-- What an approval needs of the facts. -/
theorem evaluate_approved (f : FactFields) (accepted : Bool) :
    (evaluateApprovalFacts f accepted).approved = true ↔
      f.Clear ∧ (f.Settled ∨ (accepted = true ∧ f.exceptionEligible)) := by
  unfold evaluateApprovalFacts
  simp only [List.isEmpty_iff, List.append_eq_nil_iff, obligationGates_nil, gateIf_nil,
    coverageGates_waived, Bool.not_eq_false]
  constructor
  · rintro ⟨⟨⟨h1, h2, h3, h4, h5, h6, h7⟩, hcoverage⟩, hq⟩
    exact ⟨⟨h1, h2, h3, h4, h5, h6, h7, hq⟩, hcoverage⟩
  · rintro ⟨⟨h1, h2, h3, h4, h5, h6, h7, hq⟩, hcoverage⟩
    exact ⟨⟨⟨h1, h2, h3, h4, h5, h6, h7⟩, hcoverage⟩, hq⟩

end Decision

end ReviewSensei.Approval
