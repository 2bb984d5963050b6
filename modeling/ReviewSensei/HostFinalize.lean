import ReviewSensei.HostResponses

/-! The finalization over the responses of a host, with the writes that it sends. -/
namespace ReviewSensei

open Approval (ReviewApprovalEligibility FactFields AutoApprovalDecision)

namespace Finalize
open Session (isGitSha)

/-- How a finalization ends before its write. -/
inductive Stop
  | returned (result : PublicationResult)
  | failed (f : Failure)

def ask {α : Type} : Except Exit α → Except Stop α
  | .ok a => .ok a
  | .error (.returned result) => .error (.returned result)
  | .error (.raised message) => .error (.failed (.declared message))

def read {α : Type} : Except Failure α → Except Stop α
  | .ok a => .ok a
  | .error f => .error (.failed f)

/-- The caller's last look at the reviews before the write; it never reports an approval. -/
structure Guard where
  check : List Json → Except String (Option PublicationResult)
  withholds : ∀ reviews r, check reviews = .ok (some r) →
    r.status ≠ .approved ∧ r.status ≠ .alreadyApproved

variable {rules : Human.Rules}

/-- The host of one finalization, each request with an answer of its own. -/
structure Host (rules : Human.Rules) extends ReviewRules rules where
  appSlug : String
  readers : CarriedReaders := {}
  authority : Option (String → Option String) := none
  /-- A partitioned root's document and its evidence are those of this call. -/
  partition : Except String Bool := .ok true
  preflightAnswer : Answer
  threads : ThreadSource
  writePreflightAnswer : Answer
  /-- The pages of reviews, in the order of the host. -/
  reviews : Except String (List Json)
  /-- The review is one of the current publications; a scope may set the prior ones aside. -/
  current : Json → Except Failure Bool := fun _ => .ok true
  owned : Json → Bool := fun _ => true
  /-- The review is the root that a partitioned call owns. -/
  owns : Json → Bool := fun _ => true
  /-- The reads of a partitioned call stay within its budget. -/
  budget : Except String Unit := .ok ()
  guard : Option Guard := none
  post : Answer
  /-- The pages after a write whose end is unknown, and the reviews for the guard after it. -/
  readback : Except String (List Json) := .ok []
  freshReviews : Except Failure (List Json) := .ok []

variable (host : Host rules)

/-- `_load_head_reviews`. -/
def loadHeadReviews : Except Failure (List Json) := do
  let items ← declare host.reviews
  let kept ← items.filterM host.current
  return kept.filter (fun item => item.isObject && host.owned item)

def Host.look (call : Call rules) (answer : Answer) : Except String Look :=
  preflight call.repository call.headSha host.appSlug answer

/-- The threads, and the decision after them. -/
def scanHost (call : Call rules) (e : ReviewApprovalEligibility rules) (preflight : Preflight) :
    Except Stop (RootFacts × AutoApprovalDecision) := do
  let facts ← read (scanBlockingThreads host.toBodyRules host.appSlug (preflight.place call)
    call.honoredInstances host.threads)
  let decision ← ask (secondLook call (host.look call host.writePreflightAnswer) e preflight facts)
  return (facts, decision)

/-- The index that the obligations are read from: a declared error is kept for the answer. -/
def keepDeclared {α : Type} : Except Failure α → Except Stop (Except String α)
  | .ok a => .ok (.ok a)
  | .error (.declared message) => .ok (.error message)
  | .error .undeclared => .error (.failed .undeclared)

/-- The persisted eligibility is the given one. -/
def persistedSame (e : ReviewApprovalEligibility rules) :
    Option (ReviewApprovalEligibility rules) → Except String Bool
  | none => .ok false
  | some persisted =>
    if e.partitionedRoot.isNone then
      .ok (decide (Same persisted e) && persisted.partitionedRoot.isNone)
    else if ¬ Same persisted e then .ok false
    else do
      let found ← persisted.toDict
      let given ← e.toDict
      return found = given

def readPersisted (call : Call rules) (e : ReviewApprovalEligibility rules) (reviews : List Json) :
    Except Failure Bool := do
  let owns := if e.partitionedRoot.isNone then fun _ => true else host.owns
  let persisted ← eligibilityFromReviews host.toReviewRules host.appSlug call.headSha owns reviews
  declare (if e.partitionedRoot.isNone then .ok () else host.budget)
  declare (persistedSame e persisted)

/-- The caller's guard on the reviews. -/
def guardReviews (reviews : List Json) : Except Exit Unit :=
  match host.guard with
  | none => .ok ()
  | some guard => do
    let result ← attempt (guard.check reviews)
    match result with
    | some result => .error (.returned result)
    | none => .ok ()

/-- The reviews on the head still say what the call was given. -/
def readBackHost (call : Call rules) (e : ReviewApprovalEligibility rules) (preflight : Preflight)
    (facts : RootFacts) : Except Stop (List Json) := do
  let reviews ← read (loadHeadReviews host)
  let index ← keepDeclared (findingIndexFromReviews host.toReviewRules host.appSlug
    (preflight.place call) e.resultDigest reviews)
  ask (leave (inlineObligationsResolved index facts.resolvedInstances call.honoredInstances = false)
    (withheld .requiredFixesOpen))
  let same ← read (readPersisted host call e reviews)
  ask (leave (same = false) (withheld .approvalWithheld))
  ask (guardReviews host reviews)
  ask (leave (qualificationAuthorizes host.authority e preflight.baseSha = false)
    (withheld .qualificationUnverified))
  return reviews

/-- What stands when the write is due. -/
structure Ready (rules : Human.Rules) where
  approval : Approval
  eligibility : ReviewApprovalEligibility rules
  reviews : List Json

/-- `finalize` down to its one write. -/
def prepareHost (call : Call rules) : Except Stop (Ready rules) := do
  ask (attempt (ensure (isGitSha call.headSha = true) "review head sha is invalid"))
  ask (leave (call.eligibility.headSha ≠ call.headSha) (withheld .approvalWithheld))
  let e ← ask (confirmCarried host.readers call.eligibility)
  ask (staticGates call host.authority e)
  ask (partitionGate host.partition e)
  let preflight ← ask (firstLook host.authority (host.look call host.preflightAnswer) e)
  let (facts, decision) ← scanHost host call e preflight
  let reviews ← readBackHost host call e preflight facts
  return ⟨⟨preflight, decision⟩, e, reviews⟩

section Write

/-- `approval_marker`. -/
def approvalMarker (place : Place) : String :=
  approvalPrefix ++ " repo=" ++ toString place.repositoryId ++ " pr=" ++
    toString place.pullRequest ++ " head=" ++ place.headSha ++ " base=" ++ place.baseSha ++ " -->"

/-- The body of the approval. -/
def approvalBody (place : Place) (resultDigest : String) (decision : AutoApprovalDecision) :
    String :=
  let marker := approvalMarker place
  if decision.outcome = .maintainerCoverageException then
    let gates := ",".intercalate (decision.satisfiedGates.map Approval.Gate.text)
    "Approved with maintainer coverage exception (`outcome=maintainer-coverage-exception`, " ++
      "`result=" ++ resultDigest ++ "`, `satisfied_gates=" ++ gates ++ "`).\n\n" ++ marker ++ "\n" ++
      "<!-- reviewsensei:approval-exception:v1 outcome=maintainer-coverage-exception result=" ++
      resultDigest ++ " gates=" ++ gates ++ " -->"
  else marker

/-- A review that is posted. -/
structure Post where
  body : String
  event : String
  commitId : String
  deriving DecidableEq

/-- What a finalization sent, and how it ended. -/
structure Outcome where
  posts : List Post
  result : Except Failure PublicationResult

/-- The id of the response to a post: any integer, and a boolean is one. -/
def hasReviewId (payload : Json) : Bool :=
  match payload.get? "id" with
  | some (.int _) => true
  | some (.bool _) => true
  | _ => false

/-- `already_approved`: the approval is there, and nothing that it was decided on has changed. -/
def alreadyApproved (call : Call rules) (ready : Ready rules) (body : String) :
    Except Failure Bool := do
  let reviews ← declare host.readback
  if haveAppHeadState host.appSlug call.headSha "APPROVED" body reviews then
    guardAgain
  else .ok false
where
  /-- The guard on the reviews as they are now, and the qualification. -/
  guardAgain : Except Failure Bool :=
    match host.guard with
    | none => .ok (qualificationAuthorizes host.authority ready.eligibility
        ready.approval.preflight.baseSha)
    | some guard => do
      let fresh ← host.freshReviews
      let result ← declare (guard.check fresh)
      return result.isNone && qualificationAuthorizes host.authority ready.eligibility
        ready.approval.preflight.baseSha

/-- After a post whose end is unknown. -/
def reconcile (call : Call rules) (ready : Ready rules) (body message : String) :
    Except Failure PublicationResult := do
  let found ← alreadyApproved host call ready body
  if found then .ok (ready.approval.result .alreadyApproved)
  else .error (.declared message)

/-- `_post_head_review`, after its request. -/
def postHeadReview (call : Call rules) (ready : Ready rules) (body : String) :
    Except Failure PublicationResult :=
  match host.post with
  | .transient => reconcile host call ready body "approval finalization failed temporarily"
  | .failed message => .error (.declared message)
  | .reply r =>
    if r.status = 200 ∧ hasReviewId r.payload = true then .ok (ready.approval.result .approved)
    else if r.status = 422 then
      reconcile host call ready body "approval finalization was rejected"
    else if r.status = 409 ∨ r.status = 429 ∨ 500 ≤ r.status then
      reconcile host call ready body "approval finalization failed temporarily"
    else if r.status = 404 then .error (.declared "review target was not found")
    else if r.status = 403 then .error (.declared "approval finalization lacks permission")
    else .error (.declared "approval finalization was rejected")

/-- `finalize`. -/
def finalizeHost (call : Call rules) : Outcome :=
  match prepareHost host call with
  | .error (.returned result) => ⟨[], .ok result⟩
  | .error (.failed f) => ⟨[], .error f⟩
  | .ok ready =>
    let body := approvalBody (ready.approval.preflight.place call) ready.eligibility.resultDigest
      ready.approval.decision
    if haveAppHeadState host.appSlug call.headSha "APPROVED" body ready.reviews then
      ⟨[], .ok (ready.approval.result .alreadyApproved)⟩
    else ⟨[⟨body, "APPROVE", call.headSha⟩], postHeadReview host call ready body⟩

end Write
end Finalize
end ReviewSensei
