import Mathlib.Data.List.Sort
import ReviewSensei.Dict

/-! The values that bounded work execution reads: budgets, the tracker, the admitted plan
and the execution aggregate. Durations are in microseconds, so that no fraction of a
millisecond that the tracker keeps is lost. -/
namespace ReviewSensei.Execution

/-- The exceptions that the execution mechanism tells apart. -/
inductive Exc
  | reviewInput (message : String)
  | reviewFormat (message : String)
  | valueOrType (message : String)
  | other (message : String)
  deriving DecidableEq, Repr

/-- Caught by `except (ReviewFormatError, ReviewInputError, ValueError, TypeError)`. -/
def Exc.isValidation : Exc → Bool
  | .other _ => false
  | _ => true

structure ReviewLimits where
  maxPromptBytes : Nat := 4194304
  maxProviderResponseBytes : Nat := 1048576
  deriving DecidableEq, Repr

structure ResourceBudget where
  maxProviderCalls : Nat := 8
  maxRetryAttempts : Nat := 2
  timeoutMs : Nat := 120000
  maxPromptBytes : Nat := 1048576
  maxOutputBytes : Nat := 1048576
  deriving DecidableEq, Repr

/-- The ceilings of `validate_against_limits`, in the order in which they are checked. -/
def ResourceBudget.ceilings (b : ResourceBudget) (limits : ReviewLimits) :
    List (String × Nat × Nat) :=
  [("max_provider_calls", b.maxProviderCalls, 32),
   ("max_retry_attempts", b.maxRetryAttempts, 2),
   ("timeout_ms", b.timeoutMs, 600000),
   ("max_prompt_bytes", b.maxPromptBytes, limits.maxPromptBytes),
   ("max_output_bytes", b.maxOutputBytes, limits.maxProviderResponseBytes)]

def ResourceBudget.validateAgainstLimits (b : ResourceBudget) (limits : ReviewLimits) :
    Except Exc Unit :=
  match (b.ceilings limits).find? (fun c => decide (c.2.2 < c.2.1)) with
  | some c => .error (.reviewInput (c.1 ++ " exceeds the configured ceiling"))
  | none => .ok ()

/-- What a provider object shows when it is read; it may change between two reads. -/
structure ProviderFacts where
  name : String
  model : Option String
  allowModelOverride : Bool := true
  endpoint : Option String := none
  completionContract : Option String := none
  workIdentity : String
  deriving DecidableEq, Repr

structure ProviderCapabilities where
  contextTokens : Nat
  maxOutputTokens : Nat
  qualified : Bool := false
  framingTokens : Nat := 256
  providerName : Option String := none
  model : Option String := none
  endpoint : Option String := none
  completionContract : Option String := none
  deriving DecidableEq, Repr

/-- `require_provider`: a qualified capability fits one provider, model and transport. -/
def ProviderCapabilities.requireProvider (c : ProviderCapabilities) (p : ProviderFacts)
    (model : Option String) : Except Exc Unit :=
  if c.qualified = true ∧ (c.providerName ≠ some p.name ∨ c.model ≠ model ∨
      p.endpoint = none ∨ c.endpoint ≠ p.endpoint ∨
      p.completionContract = none ∨ c.completionContract ≠ p.completionContract) then
    .error (.reviewInput "qualified capability does not match selected provider transport")
  else .ok ()

def ProviderCapabilities.fits (c : ProviderCapabilities) (prompt : String)
    (outputTokens : Option Nat) : Except Exc Bool :=
  if c.qualified = false then .ok false
  else
    let reserved := outputTokens.getD c.maxOutputTokens
    if reserved < 1 ∨ c.maxOutputTokens < reserved then
      .error (.reviewInput "reserved output tokens exceeds the supported resource bounds")
    else
      let margin := max 512 ((c.contextTokens + 19) / 20)
      .ok (decide (prompt.utf8ByteSize + c.framingTokens + reserved + margin ≤ c.contextTokens))

structure EffectiveWorkBudget where
  batchDiffBytes : Nat
  batchPromptBytes : Nat
  batchOutputBytes : Nat
  maxTotalPromptBytes : Nat
  maxTotalOutputBytes : Nat
  maxFindingsPerBatch : Nat
  providerQualified : Bool
  capabilities : Option ProviderCapabilities := none
  maxOutputTokens : Option Nat := none
  resourceBudget : Option ResourceBudget := none
  deriving DecidableEq, Repr

def EffectiveWorkBudget.fitsPrompt (b : EffectiveWorkBudget) (prompt : String)
    (outputTokens : Option Nat) : Except Exc Bool :=
  if b.batchPromptBytes < prompt.utf8ByteSize then .ok false
  else if b.providerQualified = false then .ok true
  else match b.capabilities with
    | some c => c.fits prompt outputTokens
    | none => .ok false

structure ProviderRequest where
  prompt : String
  model : Option String := none
  jsonMode : Bool := true
  maxPromptBytes : Nat := 4194304
  maxResponseBytes : Nat := 1048576
  limits : ReviewLimits := {}
  maxOutputTokens : Option Nat := none
  timeout : Option Nat := none
  deriving DecidableEq, Repr

/-- What a call of `provider.complete` ends in. A stopped process is the end of the run. -/
inductive Reply
  | response (text : String)
  | notAResponse
  | providerError (transient : Bool) (retryAfter : Option Nat)
  | invalid
  | failed
  | interrupted
  deriving DecidableEq, Repr

/-- Mutable admission counters for one resource budget. -/
structure Tracker where
  budget : ResourceBudget
  started : Int
  executionIdentity : String
  providerCalls : Nat := 0
  transportRetries : Nat := 0
  structuralRetries : Nat := 0
  promptBytes : Nat := 0
  responseBytes : Nat := 0
  deriving DecidableEq, Repr

/-- The five counters that a receipt keeps. -/
structure Counters where
  providerCalls : Nat
  transportRetries : Nat
  structuralRetries : Nat
  promptBytes : Nat
  responseBytes : Nat
  deriving DecidableEq, Repr

def Tracker.counters (t : Tracker) : Counters :=
  ⟨t.providerCalls, t.transportRetries, t.structuralRetries, t.promptBytes, t.responseBytes⟩

def Tracker.elapsed (t : Tracker) (now : Nat) : Nat := (now - t.started).toNat

def Tracker.elapsedMs (t : Tracker) (now : Nat) : Nat := t.elapsed now / 1000

def Tracker.remaining (t : Tracker) (now : Nat) : Nat :=
  t.budget.timeoutMs * 1000 - t.elapsed now

/-- `admit_call`: a diagnostic token when a provider call cannot start. -/
def Tracker.admitCall (t : Tracker) (now : Nat) (prompt : String) : Option String :=
  if t.budget.timeoutMs ≤ t.elapsedMs now then some "deadline_exceeded"
  else if t.budget.maxProviderCalls ≤ t.providerCalls then some "provider_call_limit"
  else if t.budget.maxPromptBytes < prompt.utf8ByteSize then some "prompt_budget"
  else none

def Tracker.recordPromptAttempt (t : Tracker) (prompt : String) : Tracker :=
  { t with promptBytes := t.promptBytes + prompt.utf8ByteSize }

def Tracker.recordProviderCall (t : Tracker) : Tracker :=
  { t with providerCalls := t.providerCalls + 1 }

def Tracker.recordResponse (t : Tracker) (text : String) : Tracker :=
  { t with responseBytes := t.responseBytes + text.utf8ByteSize }

/-- Known tracker bytes and conservative unknown output remain distinct. -/
structure OutputAccounting where
  unknownResponseBytes : Nat := 0
  inflightResponseBytes : Nat := 0
  deriving DecidableEq, Repr

def OutputAccounting.uncertain (a : OutputAccounting) : OutputAccounting :=
  ⟨a.unknownResponseBytes + a.inflightResponseBytes, 0⟩

inductive WorkMode
  | discovery
  | reassessment
  deriving DecidableEq, Repr

structure WorkRequirement where
  identity : String
  evidenceIds : List String
  hunkIndexes : List Nat := []
  deriving DecidableEq, Repr

structure EvidenceRecord where
  evidenceId : String
  snapshot : String
  deriving DecidableEq, Repr

structure WorkBatch where
  mode : WorkMode
  requirements : List WorkRequirement
  records : List EvidenceRecord
  nonempty : requirements ≠ []
  requirementsNodup : (requirements.map WorkRequirement.identity).Nodup
  recordsNodup : (records.map EvidenceRecord.evidenceId).Nodup
  deriving DecidableEq

def WorkBatch.requirementIds (b : WorkBatch) : List String :=
  b.requirements.map WorkRequirement.identity

def WorkBatch.evidenceIds (b : WorkBatch) : List String :=
  b.records.map EvidenceRecord.evidenceId

def WorkBatch.hunkIndexes (b : WorkBatch) : List Nat :=
  (b.requirements.flatMap WorkRequirement.hunkIndexes).dedup.insertionSort (· ≤ ·)

theorem WorkBatch.requirementIds_ne_nil (b : WorkBatch) : b.requirementIds ≠ [] := by
  intro h
  exact b.nonempty (List.map_eq_nil_iff.mp h)

/-- The documents whose canonical JSON `evidence_digest` hashes. -/
inductive DigestDocument
  | workBatch (mode : WorkMode) (requirements evidence : List String) (hunks : List Nat)
  | workRequest (prompt provider : String) (providerModel : Option String)
      (providerIdentity : String) (model : Option String) (jsonMode : Bool)
      (outputTokens : Option Nat) (maxPromptBytes maxResponseBytes : Nat) (budget : String)
  | workDispatch (providerIdentity budget prompt : String) (model : Option String)
      (jsonMode : Bool) (outputTokens : Option Nat) (maxPromptBytes maxResponseBytes : Nat)
      (timeout : Option Nat) (providerCall : Nat)
  | budget (value : EffectiveWorkBudget)
  | workPlan (mode : WorkMode) (evidence : String)
      (requirements : List (String × List String × List Nat)) (batches : List String)
      (unprocessed : List (String × String)) (authority budgets : String)
  deriving DecidableEq

/-- The admitted plan accounts for every requirement exactly once. -/
structure ReviewWorkPlan where
  mode : WorkMode
  snapshot : String
  evidenceDigest : String
  requirements : List WorkRequirement
  batches : List WorkBatch
  unprocessed : List (String × String)
  authorityDigest : String := ""
  budgetDigest : String := ""
  accounted : ((batches.flatMap WorkBatch.requirementIds) ++ unprocessed.map Prod.fst).Perm
    (requirements.map WorkRequirement.identity)
  identitiesNodup : (requirements.map WorkRequirement.identity).Nodup
  deriving DecidableEq

section Digests
variable (evidenceDigest : DigestDocument → String)

def WorkBatch.batchId (b : WorkBatch) : String :=
  evidenceDigest (.workBatch b.mode b.requirementIds b.evidenceIds b.hunkIndexes)

def EffectiveWorkBudget.digest (b : EffectiveWorkBudget) : String :=
  evidenceDigest (.budget b)

def ReviewWorkPlan.planId (p : ReviewWorkPlan) : String :=
  evidenceDigest (.workPlan p.mode p.evidenceDigest
    (p.requirements.map (fun r => (r.identity, r.evidenceIds, r.hunkIndexes)))
    (p.batches.map (WorkBatch.batchId evidenceDigest)) p.unprocessed
    p.authorityDigest p.budgetDigest)

end Digests

structure CompletedBatch (T : Type) where
  batch : WorkBatch
  value : T
  requestDigest : String
  deriving DecidableEq

/-- Every requirement that an execution retains, completed ones first. -/
def assignedIds {T : Type} (completed : List (CompletedBatch T))
    (pending : List (String × String)) : List String :=
  completed.flatMap (fun c => c.batch.requirementIds) ++ pending.map Prod.fst

/-- The execution aggregate. Its fields make a value that loses or repeats a requirement
impossible to build. -/
structure WorkExecution (T : Type) where
  plan : ReviewWorkPlan
  completed : List (CompletedBatch T)
  pending : List (String × String)
  trackerIdentity : String
  attemptedIds : List String := []
  unknownResponseBytes : Nat := 0
  inflightResponseBytes : Nat := 0
  attemptAccountingComplete : Bool := false
  completedPlanned : ∀ c ∈ completed, c.batch ∈ plan.batches
  assignedNodup : (assignedIds completed pending).Nodup
  assignedAll : ∀ r, r ∈ assignedIds completed pending ↔
    r ∈ plan.requirements.map WorkRequirement.identity
  attemptedNodup : attemptedIds.Nodup
  attemptedAssigned : ∀ r ∈ attemptedIds, r ∈ assignedIds completed pending
  deriving DecidableEq

/-- Membership of two lists of strings agrees, decided on both of them. -/
def sameMembers (xs ys : List String) : Bool :=
  xs.all (fun x => ys.contains x) && ys.all (fun y => xs.contains y)

theorem sameMembers_iff (xs ys : List String) :
    sameMembers xs ys = true ↔ ∀ r, r ∈ xs ↔ r ∈ ys := by
  simp only [sameMembers, Bool.and_eq_true, List.all_eq_true, List.contains_iff_mem]
  constructor
  · rintro ⟨h₁, h₂⟩ r
    exact ⟨h₁ r, h₂ r⟩
  · intro h
    exact ⟨fun r hr => (h r).mp hr, fun r hr => (h r).mpr hr⟩

/-- `WorkExecution.__post_init__`: the aggregate, or the error of its first failing check. -/
def WorkExecution.make {T : Type} (plan : ReviewWorkPlan) (completed : List (CompletedBatch T))
    (pending : List (String × String)) (trackerIdentity : String) (attemptedIds : List String)
    (unknown inflight : Nat) (complete : Bool) : Except Exc (WorkExecution T) :=
  if hc : ∀ c ∈ completed, c.batch ∈ plan.batches then
    if hr : (assignedIds completed pending).Nodup ∧
        sameMembers (assignedIds completed pending)
          (plan.requirements.map WorkRequirement.identity) = true then
      if ha : attemptedIds.Nodup ∧ ∀ r ∈ attemptedIds, r ∈ assignedIds completed pending then
        .ok { plan, completed, pending, trackerIdentity, attemptedIds,
              unknownResponseBytes := unknown, inflightResponseBytes := inflight,
              attemptAccountingComplete := complete, completedPlanned := hc,
              assignedNodup := hr.1, assignedAll := (sameMembers_iff _ _).mp hr.2,
              attemptedNodup := ha.1, attemptedAssigned := ha.2 }
      else .error (.reviewInput "work execution attempted identities are invalid")
    else .error (.reviewInput "work execution must retain every requirement exactly once")
  else .error (.reviewInput "work execution completed batch is invalid")

def WorkExecution.responseBytesReserved {T : Type} (e : WorkExecution T) : Nat :=
  e.unknownResponseBytes + e.inflightResponseBytes

/-- What the aggregate was built from, when it was built. -/
theorem WorkExecution.make_eq {T : Type} {plan : ReviewWorkPlan}
    {completed : List (CompletedBatch T)} {pending : List (String × String)}
    {identity : String} {attempted : List String} {unknown inflight : Nat} {complete : Bool}
    {e : WorkExecution T}
    (h : WorkExecution.make plan completed pending identity attempted unknown inflight complete
      = .ok e) :
    e.plan = plan ∧ e.completed = completed ∧ e.pending = pending ∧
      e.trackerIdentity = identity ∧ e.attemptedIds = attempted ∧
      e.unknownResponseBytes = unknown ∧ e.inflightResponseBytes = inflight := by
  unfold WorkExecution.make at h
  split_ifs at h
  cases h
  exact ⟨rfl, rfl, rfl, rfl, rfl, rfl, rfl⟩

end ReviewSensei.Execution
