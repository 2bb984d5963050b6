import ReviewSensei.Eligibility

/-! The finalization of an eligibility: everything that is looked at before one approval. -/
namespace ReviewSensei.Finalize
open Approval (ReviewApprovalEligibility FactFields Gate AutoApprovalDecision HistoricalView
  evaluateApprovalFacts)
open Session (isGitSha)

/-- One displayed finding bound to the review that published its id. -/
structure IndexedFinding where
  /-- `instance`. -/
  identity : String
  lifecycle : Option String
  blocking : Bool
  needsHuman : Bool
  bodyPlaced : Bool := false
  overridable : Bool := true
  deriving DecidableEq

/-- A head-bound inventory of every displayed finding. -/
structure FindingIndex where
  resultDigest : String
  baseSha : String
  entries : List IndexedFinding
  deriving DecidableEq

section Threads

/-- What a finding's marker is bound to. -/
structure Place where
  repositoryId : Nat
  pullRequest : Nat
  headSha : String
  baseSha : String
  deriving DecidableEq

/-- `finding_publication_scope`, of a body that has one. -/
structure FindingScope extends Place where
  blocking : Bool
  human : Option Bool
  deriving DecidableEq

/-- The root of a thread, by its author and by what its body is read as. -/
structure Root where
  /-- `graphql_app_author`; `none` is an actor that it cannot read. -/
  ofApp : Option Bool
  /-- `finding_instance_from_body`. -/
  identity : Option String
  scope : Option FindingScope
  /-- `finding_blocks_approval`. -/
  blocksApproval : Option Bool
  deriving DecidableEq

/-- A review thread; `none` is a flag that is no boolean, or no single readable root. -/
structure Thread where
  isResolved : Option Bool
  root : Option Root
  deriving DecidableEq

structure RootFacts where
  openBlocking : Bool := false
  resolvedInstances : List String := []
  deriving DecidableEq

def Root.honoredBy (root : Root) (honored : List String) : Bool := root.identity.any honored.contains

def RootFacts.opened (facts : RootFacts) : RootFacts := { facts with openBlocking := true }

def RootFacts.resolve (facts : RootFacts) (identity : String) : RootFacts :=
  { facts with resolvedInstances := facts.resolvedInstances ++ [identity] }

/-- A root that carries a scope of its own. -/
def noteScoped (honored : List String) (facts : RootFacts) (resolved : Bool) (root : Root)
    (blocking : Bool) : RootFacts :=
  if resolved then
    if blocking then (root.identity.map facts.resolve).getD facts else facts
  else if root.honoredBy honored then facts
  else if blocking then facts.opened
  else facts

/-- A root without a readable scope withholds unless it says that it does not block. -/
def noteUnscoped (honored : List String) (facts : RootFacts) (resolved : Bool) (root : Root) :
    RootFacts :=
  if resolved then facts
  else if root.honoredBy honored then facts
  else if root.blocksApproval ≠ some false then facts.opened
  else facts

/-- A root of the App. -/
def noteRoot (place : Place) (honored : List String) (facts : RootFacts) (resolved : Bool)
    (root : Root) : RootFacts :=
  match root.scope with
  | some scope =>
    if scope.toPlace ≠ place then facts else noteScoped honored facts resolved root scope.blocking
  | none => noteUnscoped honored facts resolved root

def noteThread (place : Place) (honored : List String) (facts : RootFacts) (t : Thread) :
    Except String RootFacts :=
  match t.isResolved, t.root with
  | none, _ => .error "review thread response was invalid"
  | some true, none => .ok facts
  | some false, none => .error "review thread response was invalid"
  | some resolved, some root =>
    match root.ofApp with
    | none => .error "review thread App actor identity is unreadable"
    | some false => .ok facts
    | some true => .ok (noteRoot place honored facts resolved root)

/-- `_blocking_root_facts`. -/
def blockingRootFacts (place : Place) (honored : List String) (threads : List Thread) :
    Except String RootFacts :=
  threads.foldlM (noteThread place honored) {}

/-- `_inline_obligations_resolved`: a history without an index keeps the answer of the threads, and
an index that does not decode withholds. -/
def inlineObligationsResolved (index : Except String (Option FindingIndex))
    (resolved honored : List String) : Bool :=
  match index with
  | .error _ => false
  | .ok none => true
  | .ok (some index) => index.entries.all (fun e =>
      !(e.blocking && !e.bodyPlaced && !honored.contains e.identity) || resolved.contains e.identity)

end Threads

section Results

inductive Skip
  | prState
  | staleHead
  | fork
  | appAuthored
  | staleBase
  deriving DecidableEq, Repr

inductive Status
  | approved
  | alreadyApproved
  | autoApprovalDisabled
  | approvalWithheld
  | gateReevaluationFailed
  | skipped (reason : Skip)
  deriving DecidableEq, Repr

inductive Diagnostic
  | autoApprovalDisabled
  | approvalWithheld
  | appAuthored
  | requiredFixesOpen
  | humanAdjudicationOpen
  | reviewThreadsIncomplete
  | reviewIncomplete
  | baselineCapacityExceeded
  | qualificationUnverified
  | historicalAssessmentUnverified
  | quarantineAssessmentUnverified
  | maintainerCoverageException
  | gateReevaluationFailed
  | findingIndexMissing
  | commandBodyCapacityUnverifiable
  | commandBodyCapacityExceeded
  deriving DecidableEq, Repr

def Status.isSkip : Status → Bool
  | .skipped _ => true
  | _ => false

structure PublicationResult where
  status : Status
  diagnostic : Option Diagnostic := none
  deriving DecidableEq, Repr

def withheld (diagnostic : Diagnostic) : PublicationResult := ⟨.approvalWithheld, some diagnostic⟩
def skipped (reason : Skip) : PublicationResult := ⟨.skipped reason, none⟩

/-- `_WITHHELD_DIAGNOSTICS`. -/
def withheldDiagnostic : Gate → Option Diagnostic
  | .autoApprovalDisabled => some .autoApprovalDisabled
  | .appAuthored => some .appAuthored
  | .verdictBlocking => some .requiredFixesOpen
  | .verdictHuman => some .humanAdjudicationOpen
  | .blockingFindingsOpen => some .requiredFixesOpen
  | .humanAdjudicationOpen => some .humanAdjudicationOpen
  | .threadsIncomplete => some .reviewThreadsIncomplete
  | .threadsOpen => some .requiredFixesOpen
  | .baselineCapacityExceeded => some .baselineCapacityExceeded
  | .review .complete => none
  | .review _ => some .reviewIncomplete
  | .reviewUnverified => some .reviewIncomplete
  | .coverage .reviewed => none
  | .coverage _ => some .reviewIncomplete
  | .qualification .missing => some .qualificationUnverified
  | .qualification .unverified => some .qualificationUnverified
  | .qualification _ => none

/-- `approval_withheld_diagnostic`. -/
def approvalWithheldDiagnostic (decision : AutoApprovalDecision) : Diagnostic :=
  (decision.blockers.findSome? withheldDiagnostic).getD .approvalWithheld

/-- How a call ends before its last step: with a result, or with an error of the package. -/
inductive Exit
  | returned (result : PublicationResult)
  | raised (message : String)

/-- Leave with a result where the condition holds. -/
def leave (p : Prop) [Decidable p] (result : PublicationResult) : Except Exit Unit :=
  if p then .error (.returned result) else .ok ()

def attempt {α : Type} : Except String α → Except Exit α
  | .ok a => .ok a
  | .error message => .error (.raised message)

theorem flow_ok {ε α β : Type} {x : Except ε α} {f : α → Except ε β} {b : β}
    (h : (x >>= f) = .ok b) : ∃ a, x = .ok a ∧ f a = .ok b := by
  cases x with
  | error e => cases h
  | ok a => exact ⟨a, rfl, h⟩

theorem leave_ok {p : Prop} [Decidable p] {result : PublicationResult} {u : Unit}
    (h : leave p result = .ok u) : ¬ p := by
  unfold leave at h
  split at h
  · cases h
  · assumption

theorem attempt_ok {α : Type} {x : Except String α} {a : α} (h : attempt x = .ok a) :
    x = .ok a := by
  cases x with
  | error e => cases h
  | ok b => exact congrArg Except.ok (Except.ok.inj h)

theorem join_some {ε α : Type} {x : Except ε (Option α)} {a : α} (h : x.toOption.join = some a) :
    x = .ok (some a) := by
  cases x with
  | error e => cases h
  | ok found => exact congrArg Except.ok h

theorem flow_bind {ε α β : Type} {x : Except ε α} {a : α} (h : x = .ok a)
    (f : α → Except ε β) : (x >>= f) = f a := by
  rw [h]
  rfl

theorem leave_bind {β : Type} {p : Prop} [Decidable p] {result : PublicationResult} (h : ¬ p)
    (f : Unit → Except Exit β) : (leave p result >>= f) = f () :=
  flow_bind (if_neg h) f

theorem flow_error {ε α β : Type} {x : Except ε α} {f : α → Except ε β} {failure : ε}
    (h : (x >>= f) = .error failure) :
    x = .error failure ∨ ∃ a, x = .ok a ∧ f a = .error failure := by
  cases x with
  | error e => exact .inl (congrArg Except.error (Except.error.inj h))
  | ok a => exact .inr ⟨a, rfl, h⟩

theorem leave_error {p : Prop} [Decidable p] {result : PublicationResult} {exit : Exit}
    (h : leave p result = .error exit) : p ∧ exit = .returned result := by
  unfold leave at h
  split at h
  · next hp => exact ⟨hp, (Except.error.inj h).symm⟩
  · cases h

theorem attempt_error {α : Type} {x : Except String α} {exit : Exit}
    (h : attempt x = .error exit) : ∃ message, exit = .raised message := by
  cases x with
  | ok a => cases h
  | error m => exact ⟨m, (Except.error.inj h).symm⟩

end Results

section Carried
variable {rules : Human.Rules}

/-- The readers of the carried assessments; `none` is a reader that is not installed. -/
structure CarriedReaders where
  historical : Option (Except String HistoricalView) := none
  quarantine : Option (Except String Quarantine.View) := none

/-- `attach_historical`. -/
def attachHistorical (reader : Option (Except String HistoricalView))
    (e : ReviewApprovalEligibility rules) : Except String (ReviewApprovalEligibility rules) :=
  match reader with
  | none => do
    ensure (e.historicalAssessments.isNone = true)
      "historical assessment source reader is unavailable"
    return e
  | some read => do
    let view ← read
    let fresh ← e.freshHumanPending
    return { e with
      historicalAssessments := some { view with freshHumanPending := fresh }
      facts := e.facts.withHuman (fresh || !view.pending.isEmpty || e.quarantinePending) }

/-- `attach_quarantine`. -/
def attachQuarantine (reader : Option (Except String Quarantine.View))
    (e : ReviewApprovalEligibility rules) : Except String (ReviewApprovalEligibility rules) :=
  match reader with
  | none => do
    ensure (e.quarantineAssessments.isNone = true)
      "quarantine assessment source reader is unavailable"
    return e
  | some read => do
    let view ← read
    let fresh ← e.freshHumanPending
    return { e with
      quarantineAssessments := some { view with freshHumanPending := fresh }
      facts := e.facts.withHuman (fresh || !view.pending.isEmpty || e.historicalPending) }

/-- `attach_carried`. -/
def attachCarried (readers : CarriedReaders) (e : ReviewApprovalEligibility rules) :
    Except String (ReviewApprovalEligibility rules) := do
  let e ← attachHistorical readers.historical e
  attachQuarantine readers.quarantine e

/-- The attached eligibility, where it has the document of the given one. -/
def requireSame (e actual : ReviewApprovalEligibility rules) (message : String) :
    Except String (ReviewApprovalEligibility rules) := do
  let found ← actual.toDict
  let given ← e.toDict
  ensure (found = given) message
  return actual

/-- `HistoricalAssessmentReader.require`, where there is a reader. -/
def requireHistorical (reader : Option (Except String HistoricalView))
    (e : ReviewApprovalEligibility rules) : Except String (ReviewApprovalEligibility rules) :=
  match reader with
  | none => .ok e
  | some _ => do
    let actual ← attachHistorical reader e
    requireSame e actual "historical assessment current publication is unconfirmed"

/-- `QuarantineHoldReader.require`, where there is a reader. -/
def requireQuarantine (reader : Option (Except String Quarantine.View))
    (e : ReviewApprovalEligibility rules) : Except String (ReviewApprovalEligibility rules) :=
  match reader with
  | none => .ok e
  | some _ => do
    let actual ← attachQuarantine reader e
    requireSame e actual "quarantine assessment current publication is unconfirmed"

/-- Both carried views are confirmed before any other read. -/
def confirmCarried (readers : CarriedReaders) (e : ReviewApprovalEligibility rules) :
    Except Exit (ReviewApprovalEligibility rules) := do
  leave (e.historicalAssessments.isSome = true ∧ readers.historical.isNone = true)
    (withheld .historicalAssessmentUnverified)
  let e ← attempt (requireHistorical readers.historical e)
  leave (e.quarantineAssessments.isSome = true ∧ readers.quarantine.isNone = true)
    (withheld .quarantineAssessmentUnverified)
  attempt (requireQuarantine readers.quarantine e)

end Carried

section Finalization
variable {rules : Human.Rules}

/-- A pull request that a preflight finds open, on its head and not from a fork. -/
structure Preflight where
  repositoryId : Nat
  baseSha : String
  appAuthored : Bool
  deriving DecidableEq

inductive Look
  | skip (reason : Skip)
  | live (preflight : Preflight)

/-- What a finalization is called with. -/
structure Call (rules : Human.Rules) where
  repository : String
  pullRequest : Nat
  headSha : String
  eligibility : ReviewApprovalEligibility rules
  honoredInstances : List String := []
  assumeInlineUnresolved : List String := []
  coverageUncertaintyAccepted : Bool := false

/-- What a finalization reads of the host, each read for itself. -/
structure Reads where
  readers : CarriedReaders := {}
  /-- The authority on qualifications: the binding of a base, where it has one. -/
  authority : Option (String → Option String) := none
  /-- A partitioned root's document and its evidence are those of this call. -/
  partition : Except String Bool := .ok true
  preflight : Except String Look
  threads : Except String (List Thread)
  writePreflight : Except String Look
  reviews : Except String Unit := .ok ()
  index : Except String (Option FindingIndex)
  /-- The latest eligibility that the App has on the head is the given one. -/
  persisted : Except String Bool := .ok true
  /-- The guard of the caller. -/
  beforeApproval : Option PublicationResult := none
  /-- The head has the App's approval under this marker. -/
  alreadyApproved : Bool := false

/-- The static facts: the threads are not read yet. -/
def staticFacts (e : ReviewApprovalEligibility rules) (unresolvedInline : List String) :
    FactFields :=
  { e.facts.toFactFields with
    hasOpenReviewThreads := some false
    hasBlockingFindings := e.facts.hasBlockingFindings || !unresolvedInline.isEmpty }

/-- `_qualification_authorizes`. -/
def qualificationAuthorizes (authority : Option (String → Option String))
    (e : ReviewApprovalEligibility rules) (baseSha : String) : Bool :=
  match e.facts.provider with
  | none => false
  | some provider =>
    if provider ≠ "openrouter" then e.facts.qualification.accepted
    else authority.any (fun binding =>
      e.facts.qualificationBinding.isSome && e.facts.qualificationBinding = binding baseSha)

/-- The provider withholds before any host read. -/
def providerUnverified (authority : Option (String → Option String))
    (e : ReviewApprovalEligibility rules) : Prop :=
  e.facts.provider = none ∨
    (e.facts.provider = some "openrouter" ∧
      (e.facts.qualification ≠ .qualified ∨ e.facts.qualificationBinding = none ∨
        authority.isNone = true))

instance (authority : Option (String → Option String)) (e : ReviewApprovalEligibility rules) :
    Decidable (providerUnverified authority e) := inferInstanceAs (Decidable (_ ∨ _))

/-- The gates that no host is asked for. -/
def staticGates (call : Call rules) (authority : Option (String → Option String))
    (e : ReviewApprovalEligibility rules) : Except Exit Unit := do
  let unresolvedInline :=
    call.assumeInlineUnresolved.filter (fun f => !call.honoredInstances.contains f)
  let static := evaluateApprovalFacts (staticFacts e unresolvedInline)
    call.coverageUncertaintyAccepted
  leave (.autoApprovalDisabled ∈ static.blockers) ⟨.autoApprovalDisabled, none⟩
  leave (static.approved = false) (withheld (approvalWithheldDiagnostic static))
  leave (providerUnverified authority e) (withheld .qualificationUnverified)
  leave (unresolvedInline ≠ []) (withheld .requiredFixesOpen)

/-- A partitioned root needs its own evidence and a settled inventory. -/
def partitionGate (partition : Except String Bool) (e : ReviewApprovalEligibility rules) :
    Except Exit Unit :=
  match e.partitionedRoot with
  | none => .ok ()
  | some _ => do
    let admitted ← attempt partition
    leave (admitted = false) (withheld .approvalWithheld)
    leave (e.facts.qualification ≠ .qualified ∨
        e.humanReview.all (fun inventory => !inventory.pending.isEmpty) = true)
      (withheld .approvalWithheld)

/-- The pull request, where a preflight lets the call go on. -/
def see : Except String Look → Except Exit Preflight
  | .error message => .error (.raised message)
  | .ok (.skip reason) => .error (.returned (skipped reason))
  | .ok (.live preflight) => do
    leave (preflight.appAuthored = true) (skipped .appAuthored)
    return preflight

theorem see_ok {read : Except String Look} {preflight : Preflight} (h : see read = .ok preflight) :
    read = .ok (.live preflight) := by
  unfold see at h
  split at h
  · cases h
  · cases h
  · obtain ⟨_, _, h⟩ := flow_ok h
    rw [Except.ok.inj h]

def Preflight.place (preflight : Preflight) (call : Call rules) : Place :=
  ⟨preflight.repositoryId, call.pullRequest, call.headSha, preflight.baseSha⟩

/-- The first preflight, and what it has to agree with. -/
def firstLook (authority : Option (String → Option String)) (look : Except String Look)
    (e : ReviewApprovalEligibility rules) : Except Exit Preflight := do
  let preflight ← see look
  leave (∃ inventory ∈ e.humanReview, inventory.baseSha ≠ preflight.baseSha) (skipped .staleBase)
  leave (qualificationAuthorizes authority e preflight.baseSha = false)
    (withheld .qualificationUnverified)
  return preflight

/-- The same pull request again after the threads, and the decision with what they say. -/
def secondLook (call : Call rules) (look : Except String Look) (e : ReviewApprovalEligibility rules)
    (preflight : Preflight) (facts : RootFacts) : Except Exit AutoApprovalDecision := do
  let again ← see look
  leave (again.repositoryId ≠ preflight.repositoryId ∨ again.baseSha ≠ preflight.baseSha)
    (skipped .staleBase)
  let decision ← attempt (e.evaluate again.appAuthored (some facts.openBlocking)
    call.coverageUncertaintyAccepted)
  leave (decision.approved = false) (withheld (approvalWithheldDiagnostic decision))
  return decision

/-- The threads, and the decision after them. -/
def scanThreads (call : Call rules) (reads : Reads) (e : ReviewApprovalEligibility rules)
    (preflight : Preflight) : Except Exit (RootFacts × AutoApprovalDecision) := do
  let facts ← attempt (reads.threads >>=
    blockingRootFacts (preflight.place call) call.honoredInstances)
  let decision ← secondLook call reads.writePreflight e preflight facts
  return (facts, decision)

/-- The caller's guard has the last word before the write. -/
def guarded (reads : Reads) : Except Exit Unit :=
  match reads.beforeApproval with
  | some result => .error (.returned result)
  | none => .ok ()

/-- The reviews on the head still say what the call was given. -/
def readBack (call : Call rules) (reads : Reads) (e : ReviewApprovalEligibility rules)
    (preflight : Preflight) (facts : RootFacts) : Except Exit Unit := do
  attempt reads.reviews
  leave (inlineObligationsResolved reads.index facts.resolvedInstances call.honoredInstances = false)
    (withheld .requiredFixesOpen)
  let same ← attempt reads.persisted
  leave (same = false) (withheld .approvalWithheld)
  guarded reads
  leave (qualificationAuthorizes reads.authority e preflight.baseSha = false)
    (withheld .qualificationUnverified)

/-- What a finalization is about to post. -/
structure Approval where
  preflight : Preflight
  decision : AutoApprovalDecision

def Approval.result (approval : Approval) (status : Status) : PublicationResult where
  status := status
  diagnostic :=
    if approval.decision.outcome = .maintainerCoverageException then
      some .maintainerCoverageException
    else none

/-- `finalize` down to its one write. -/
def prepare (call : Call rules) (reads : Reads) : Except Exit Approval := do
  attempt (ensure (isGitSha call.headSha = true) "review head sha is invalid")
  leave (call.eligibility.headSha ≠ call.headSha) (withheld .approvalWithheld)
  let e ← confirmCarried reads.readers call.eligibility
  staticGates call reads.authority e
  partitionGate reads.partition e
  let preflight ← firstLook reads.authority reads.preflight e
  let (facts, decision) ← scanThreads call reads e preflight
  readBack call reads e preflight facts
  let approval : Approval := ⟨preflight, decision⟩
  leave (reads.alreadyApproved = true) (approval.result .alreadyApproved)
  return approval

/-- `finalize`; `post` is how the one write ends. -/
def finalize (call : Call rules) (reads : Reads) (post : Except String Status) :
    Except String PublicationResult :=
  match prepare call reads with
  | .error (.returned result) => .ok result
  | .error (.raised message) => .error message
  | .ok approval => post.map approval.result

end Finalization
end ReviewSensei.Finalize
