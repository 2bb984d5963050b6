import ReviewSensei.CheckOutcome
import ReviewSensei.Dispositions
import ReviewSensei.Finalize

/-! The paths that complete the check of a head, by what each of them counts as an obligation. -/
namespace ReviewSensei.Disposition

/-- The decision has not expired; `fromisoformat` reads what the constructor accepted. -/
def FindingDisposition.unexpired (text : TextRules) (now : Int) (d : FindingDisposition) : Bool :=
  d.expiresAt.all (fun t => (text.instant t).any (fun expires => decide (now < expires)))

/-- `FindingDisposition.honors`. -/
def FindingDisposition.honors (text : TextRules) (now : Int) (d : FindingDisposition)
    (fingerprint : String) (headSha : Option String) : Bool :=
  !(d.action = "accept-coverage-uncertainty" || d.targetKind = some "coverage_uncertainty") &&
    d.fingerprint = fingerprint && (d.headSha.isNone || d.headSha = headSha) && d.unexpired text now

/-- `FindingDisposition.honors_coverage_uncertainty`. -/
def FindingDisposition.honorsCoverage (text : TextRules) (now : Int) (d : FindingDisposition)
    (headSha : String) (incompleteCoverage : Option (List String)) (policyDigest : Option String) :
    Bool :=
  let required := ((incompleteCoverage.getD []).map Session.strip).filter (fun item => decide (item ≠ ""))
  d.action = "accept-coverage-uncertainty" && d.headSha = some headSha &&
    d.policyDigest.any (fun digest => decide (digest ≠ "")) && d.policyDigest = policyDigest &&
    incompleteCoverage.isSome && !d.incompleteCoverage.isEmpty && !required.isEmpty &&
    required.all d.incompleteCoverage.contains && d.incompleteCoverage.all required.contains &&
    d.unexpired text now

end ReviewSensei.Disposition

namespace ReviewSensei.Gate
open Review (ReviewComment ReviewVerdict ResultRules ReviewResult ResultFields
  findingInstanceFingerprint lifecycleFingerprint)
open Approval (ReviewStatus FactFields ApprovalFacts ResultRest resultRules hasBlockingFindings
  hasHumanAdjudicationFindings ReviewApprovalEligibility EligibilityArguments
  approvalEligibilityFromResult)
open Human (PendingHumanReview InventoryFields sorted)
open Disposition (FindingDisposition TextRules)
open Finalize

variable {rules : Human.Rules} {others : ResultRules (ResultRest rules.unicode)}

section Facts

/-- `replace(facts, has_blocking_findings=…)`. -/
def withBlocking (f : ApprovalFacts) (blocking : Bool) : ApprovalFacts where
  toFactFields := { f.toFactFields with hasBlockingFindings := blocking }
  accepted := f.accepted

/-- The finding of a comment that is neither fixed nor outdated. -/
def indexedFinding (rules : Human.Rules) (bodyPlaced : ReviewComment → Bool) (c : ReviewComment) :
    IndexedFinding where
  identity := findingInstanceFingerprint c.toCommentFields
  lifecycle := some (lifecycleFingerprint rules.lower c.toCommentFields)
  blocking := Human.blocksApproval rules c
  needsHuman := c.needsHuman
  bodyPlaced := bodyPlaced c
  overridable := Human.blocksApproval rules c || c.needsHuman

/-- The finding of the comment is gone from the reviewed head. -/
def retired (rules : Human.Rules) (result : ReviewResult (resultRules others)) (c : ReviewComment) :
    Bool :=
  let fingerprint := lifecycleFingerprint rules.lower c.toCommentFields
  match result.findingLifecycles.reverse.find? (fun item => item.fingerprint = fingerprint) with
  | some item => item.state = .fixed || item.state = .outdated
  | none => false

/-- One comment of `_assemble_review_body`, by its index entry. -/
def addEntry (entries : List IndexedFinding) (entry : IndexedFinding) : List IndexedFinding :=
  if entries.any (fun e => e.identity = entry.identity) then entries else entries ++ [entry]

/-- The index that a result is published with; `bodyPlaced` is the placement of each comment. -/
def indexEntries (rules : Human.Rules) (result : ReviewResult (resultRules others))
    (bodyPlaced : ReviewComment → Bool) : List IndexedFinding :=
  ((result.comments.filter (fun c => !retired rules result c)).map
    (indexedFinding rules bodyPlaced)).foldl addEntry []

/-- `replace(result, review_status=…)`: the constructor checks it again. -/
def restate (result : ReviewResult (resultRules others)) (status : ReviewStatus) :
    Except String (ReviewResult (resultRules others)) :=
  ReviewResult.construct _
    { result.toResultFields with rest := { result.rest with reviewStatus := status } }

end Facts

section Published

/-- The check of a result whose obligations stand in the facts. -/
def publishedOutcome (restated : ReviewResult (resultRules others)) (facts : FactFields)
    (policy : Policy) (carriedPending restart : Bool) : CheckOutcome :=
  completed restart (awaitCarried carriedPending
    (checkOutcomeForResult restated policy (some facts.hasBlockingFindings)
      (some facts.hasHumanAdjudicationFindings) false))

/-- A fresh publication: its check is completed from the whole result, before the record keeps the
blocking fact of the findings in the body only. -/
def freshPublication (result : ReviewResult (resultRules others)) (args : EligibilityArguments)
    (retained : Option (ReviewApprovalEligibility rules)) (readers : CarriedReaders)
    (bodyPlaced : ReviewComment → Bool) (policy : Policy) (restart : Bool) :
    Except String (CheckOutcome × ReviewApprovalEligibility rules) := do
  let given ← approvalEligibilityFromResult result args retained
  let prospective ← attachCarried readers given
  let restated ← restate result prospective.facts.reviewStatus
  let bodyBlocking :=
    (indexEntries rules result bodyPlaced).any (fun e => e.blocking && e.bodyPlaced) ||
      retained.any (fun r => r.facts.hasBlockingFindings)
  return (publishedOutcome restated prospective.facts.toFactFields policy
      prospective.carriedAssessmentPending restart,
    { prospective with facts := withBlocking prospective.facts bodyBlocking })

/-- `_finalize_published_result`, down to its check: the record that was persisted says what is
required. -/
def replayOutcome (result : ReviewResult (resultRules others))
    (record : ReviewApprovalEligibility rules) (policy : Policy) (restart : Bool) :
    Except String (Option CheckOutcome) :=
  if record.resultDigest ≠ result.rest.publicationDigest then .ok none
  else do
    let restated ← restate result record.facts.reviewStatus
    return some (publishedOutcome restated record.facts.toFactFields policy
      record.carriedAssessmentPending restart)

end Published

section Override

/-- The fingerprints that a command's dispositions honor on a head. -/
def activeFingerprints (text : TextRules) (now : Int) (dispositions : List FindingDisposition)
    (headSha : String) : List String :=
  (dispositions.filter (fun d => d.honors text now d.fingerprint (some headSha))).map
    FindingDisposition.fingerprint

def entryHonored (active : List String) (e : IndexedFinding) : Bool :=
  active.contains e.identity || e.lifecycle.any active.contains

/-- The incomplete coverage that a disposition may accept: none where it is bound to the results of
other publications only. -/
def effectiveIncomplete (resultDigest : String) (incompleteCoverage : Option (List String)) :
    Option (List String) :=
  incompleteCoverage.map (fun items =>
    let bindings := (items.filter (·.startsWith "result:")).map
      (fun item => String.ofList (item.toList.drop 7))
    if bindings.isEmpty || bindings.contains resultDigest then items else [])

/-- `disposition_honors_coverage_uncertainty`. -/
def coverageAccepted (text : TextRules) (now : Int) (dispositions : List FindingDisposition)
    (headSha resultDigest : String) (incompleteCoverage : Option (List String))
    (policyDigest : Option String) : Bool :=
  dispositions.any (fun d => d.honorsCoverage text now headSha
    (effectiveIncomplete resultDigest incompleteCoverage) policyDigest)

/-- An inventory with the honored decisions resolved. -/
def resolveHonored (human : PendingHumanReview rules) (honored : List IndexedFinding) :
    Except String (PendingHumanReview rules) :=
  let decided := (honored.filter (fun e => e.needsHuman && human.identities.contains e.identity)).map
    IndexedFinding.identity
  PendingHumanReview.construct
    { human.toInventoryFields with resolved := sorted (human.resolved ++ decided).dedup }

/-- `None` stays as it is. -/
def resolveInventory (honored : List IndexedFinding) :
    Option (PendingHumanReview rules) → Except String (Option (PendingHumanReview rules))
  | none => .ok none
  | some human => (resolveHonored human honored).map some

/-- What an override command reads of its session beside the host. -/
structure Command where
  dispositions : List FindingDisposition
  incompleteCoverage : Option (List String) := none
  policyDigest : Option String := none
  now : Int

/-- How the host answers an override command. -/
structure OverrideReads where
  readers : CarriedReaders := {}
  /-- The latest App review on the head that carries an eligibility was found. -/
  chosen : Except String Bool := .ok true
  index : Except String (Option FindingIndex)
  /-- The body still has room for the new frame, compacted where it has to be. -/
  capacity : Bool := true
  live : Except String Look
  /-- The record is still the one that was read. -/
  unchanged : Except String Bool := .ok true
  fits : Bool := true
  updated : Bool := true
  /-- The new record is read back. -/
  confirmed : Except String Bool := .ok true
  /-- A credential for checks is there when the check is due. -/
  credential : Bool := true

def reevaluationFailed (diagnostic : Diagnostic) : PublicationResult :=
  ⟨.gateReevaluationFailed, some diagnostic⟩

/-- The index of an override command: without one that belongs to the record there is nothing to
override. -/
def overrideIndex (reads : OverrideReads) (record : ReviewApprovalEligibility rules) :
    Except Exit FindingIndex :=
  match reads.index with
  | .error _ => .error (.returned (reevaluationFailed .gateReevaluationFailed))
  | .ok none => .error (.returned (withheld .findingIndexMissing))
  | .ok (some index) => do
    leave (index.resultDigest ≠ record.resultDigest) (withheld .findingIndexMissing)
    return index

/-- The record with the honored findings taken out of its obligations. -/
def overrideRecord (readers : CarriedReaders) (record : ReviewApprovalEligibility rules)
    (entries : List IndexedFinding) (active : List String) :
    Except String (ReviewApprovalEligibility rules) := do
  let honored := entries.filter (entryHonored active)
  let hasBlocking := entries.any (fun e => e.blocking && e.bodyPlaced &&
    !(honored.map IndexedFinding.identity).contains e.identity)
  let human ← resolveInventory honored record.humanReview
  let fresh ← record.withFreshHumanReview human
  attachCarried readers { fresh with facts := withBlocking fresh.facts hasBlocking }

/-- The pull request of an override is live on the index's base. -/
def overrideLive (reads : OverrideReads) (baseSha : String) : Except Exit Unit :=
  match reads.live with
  | .error message => .error (.raised message)
  | .ok (.skip reason) => .error (.returned (skipped reason))
  | .ok (.live preflight) => leave (preflight.baseSha ≠ baseSha) (skipped .staleBase)

/-- `_refinalize_with_dispositions_impl`, down to its check. -/
def overrideOutcome (text : TextRules) (command : Command) (reads : OverrideReads)
    (record : ReviewApprovalEligibility rules) (headSha : String) (policy : Policy)
    (restart : Bool) : Except Exit (Option CheckOutcome) := do
  let chosen ← attempt reads.chosen
  leave (chosen = false) (withheld .findingIndexMissing)
  leave (record.headSha ≠ headSha) (withheld .findingIndexMissing)
  leave (record.partitionedRoot.isSome = true) (withheld .approvalWithheld)
  let index ← overrideIndex reads record
  let active := activeFingerprints text command.now command.dispositions headSha
  let accepted := coverageAccepted text command.now command.dispositions headSha
    record.resultDigest command.incompleteCoverage command.policyDigest
  let adjusted ← attempt (overrideRecord reads.readers record index.entries active)
  leave (reads.capacity = false) (reevaluationFailed .commandBodyCapacityUnverifiable)
  overrideLive reads index.baseSha
  let unchanged ← attempt reads.unchanged
  leave (unchanged = false) (withheld .approvalWithheld)
  leave (reads.fits = false) (reevaluationFailed .commandBodyCapacityExceeded)
  leave (reads.updated = false) (reevaluationFailed .gateReevaluationFailed)
  let confirmed ← attempt reads.confirmed
  leave (confirmed = false) (reevaluationFailed .gateReevaluationFailed)
  return (if reads.credential then
    some (completed restart (reviewCheckOutcome policy
      { reviewStatus := adjusted.facts.reviewStatus
        requiredFixes := adjusted.facts.hasBlockingFindings
        requiredDecisions := adjusted.facts.hasHumanAdjudicationFindings
        coverageUncertaintyAccepted := accepted
        reviewVerdict := adjusted.facts.reviewVerdict }))
    else none)

end Override

section Recorded

/-- How the host answers `finalize_recorded_decisions` before and beside its finalization. -/
structure RecordedReads where
  readers : CarriedReaders := {}
  live : Except String Look
  /-- The head's reviews and the eligibility on them are read, and it is the given one. -/
  persisted : Except String Bool := .ok true
  index : Except String (Option FindingIndex)
  threads : Except String (List Thread)
  obligations : Except String (Option FindingIndex)
  finalization : Reads
  post : Except String Status
  checkToken : Bool := true

/-- The finalization is left alone to look for open threads. -/
def autoApproveEnabled (policy : Policy) (e : ReviewApprovalEligibility rules) : Bool :=
  policy = .autoApprove && e.facts.enabled

/-- The scan that stands in for a finalization, where one is made. -/
def openInlineFixes (reads : RecordedReads) (policy : Policy) (e : ReviewApprovalEligibility rules)
    (place : Place) (index : Option FindingIndex) : Except String Bool :=
  if reads.checkToken = true ∧ autoApproveEnabled policy e = false ∧
      index.any (fun i => i.entries.any (fun entry => entry.blocking && !entry.bodyPlaced)) = true
  then do
    let threads ← reads.threads
    let facts ← blockingRootFacts place [] threads
    return facts.openBlocking ||
      !inlineObligationsResolved reads.obligations facts.resolvedInstances []
  else .ok false

/-- What the attempt of a recorded decision comes to. -/
structure Attempt where
  result : PublicationResult
  openInline : Bool

/-- The part whose failures are kept from the recorded decision. -/
def tryRecorded (reads : RecordedReads) (policy : Policy) (call : Call rules)
    (e : ReviewApprovalEligibility rules) : Except Exit Attempt := do
  let preflight ← see reads.live
  leave (∃ inventory ∈ e.humanReview, inventory.baseSha ≠ preflight.baseSha) (skipped .staleBase)
  let same ← attempt reads.persisted
  leave (e.partitionedRoot.isNone = true ∧ same = false) (withheld .approvalWithheld)
  let index ← attempt reads.index
  let openInline ← attempt (openInlineFixes reads policy e (preflight.place call) index)
  return {
    result :=
      if policy ≠ .autoApprove then ⟨.autoApprovalDisabled, none⟩
      else match finalize call reads.finalization reads.post with
        | .ok result => result
        | .error _ => withheld .approvalWithheld
    openInline := openInline }

/-- The check after a recorded decision. -/
def recordedCheck (policy : Policy) (e : ReviewApprovalEligibility rules) (attempted : Attempt)
    (restart : Bool) : CheckOutcome :=
  completed restart (reviewCheckOutcome policy
    { reviewStatus := e.facts.reviewStatus
      requiredFixes := e.facts.hasBlockingFindings || attempted.openInline ||
        attempted.result = withheld .requiredFixesOpen
      requiredDecisions := e.facts.hasHumanAdjudicationFindings ||
        e.humanReview.any (fun inventory => !inventory.pending.isEmpty)
      reviewVerdict := e.facts.reviewVerdict })

/-- The result of an attempt, whose errors count as a withheld approval; a result that is returned
early leaves the check alone. -/
def concluded : Except Exit Attempt → Option Attempt
  | .ok attempted => some attempted
  | .error (.raised _) => some ⟨withheld .approvalWithheld, false⟩
  | .error (.returned _) => none

/-- `finalize_recorded_decisions`, by the check that it completes. -/
def recordedOutcome (reads : RecordedReads) (record : ReviewApprovalEligibility rules)
    (repository : String) (pullRequest : Nat) (headSha : String) (policy : Policy)
    (restart : Bool) : Except String (Option CheckOutcome) := do
  let e ← attachCarried reads.readers record
  let call : Call rules :=
    { repository := repository, pullRequest := pullRequest, headSha := headSha, eligibility := e }
  return (concluded (tryRecorded reads policy call e)).bind (fun attempted =>
    if attempted.result.status.isSkip || !reads.checkToken then none
    else some (recordedCheck policy e attempted restart))

end Recorded
end ReviewSensei.Gate
