import ReviewSensei.Receipts

/-! The artifacts of `WorkRecoveryStore`. An artifact keeps the tracker's counters, but neither
the unknown nor the in-flight response bytes of the aggregate that it saves. -/
namespace ReviewSensei.Execution
open ReviewSensei.Effects

/-- What `_plan_document` shows of a plan; the digest stands for the evidence records. -/
structure PlanDocument where
  planId : String
  mode : WorkMode
  authority : String
  budgets : String
  snapshot : String
  evidence : String
  requirements : List WorkRequirement
  batches : List String
  unprocessed : List (String × String)
  deriving DecidableEq

def planDocument (evidenceDigest : DigestDocument → String) (plan : ReviewWorkPlan) :
    PlanDocument where
  planId := plan.planId evidenceDigest
  mode := plan.mode
  authority := plan.authorityDigest
  budgets := plan.budgetDigest
  snapshot := plan.snapshot
  evidence := plan.evidenceDigest
  requirements := plan.requirements
  batches := plan.batches.map (WorkBatch.batchId evidenceDigest)
  unprocessed := plan.unprocessed

structure RecoveryArtifact (J : Type) where
  plan : PlanDocument
  executionIdentity : String
  resourceBudget : ResourceBudget
  requestDigests : RequestDigests
  savedAt : Nat
  expiresAt : Nat
  elapsedMs : Nat
  counters : Counters
  completed : List (ReceiptItem J)
  pending : List (String × String)
  deriving DecidableEq

/-- The reading side of a store. `admits` answers for the private directory, the size, the schema
and the authentication of a file. -/
structure WorkRecoveryStore (J : Type) where
  admits : RecoveryArtifact J → Bool := fun _ => true

def maxRecoveryTtlSeconds : Nat := 24 * 60 * 60

def maxRecoveryReceipts : Nat := 32

def unauthenticated : Exc :=
  .reviewInput "work recovery artifact is expired, unauthenticated or incompatible"

variable {T J : Type}

section
variable (evidenceDigest : DigestDocument → String)

/-- The document of `WorkRecoveryStore.save`. -/
def recoveryArtifact (encode : T → J) (savedAt expiresAt elapsedMs : Nat) (r : SaveRecord T) :
    RecoveryArtifact J where
  plan := planDocument evidenceDigest r.execution.plan
  executionIdentity := r.execution.trackerIdentity
  resourceBudget := r.tracker.budget
  requestDigests := r.requestDigests
  savedAt := savedAt
  expiresAt := expiresAt
  elapsedMs := elapsedMs
  counters := r.tracker.counters
  completed := r.execution.completed.map (receiptItem evidenceDigest encode)
  pending := r.execution.pending

namespace WorkRecoveryStore
variable (store : WorkRecoveryStore J)

def binds (plan : ReviewWorkPlan) (tracker : Tracker) (budgets : EffectiveWorkBudget)
    (digests : Option RequestDigests) (value : RecoveryArtifact J) : Bool :=
  store.admits value && decide (value.plan = planDocument evidenceDigest plan) &&
    decide (value.resourceBudget = tracker.budget) &&
    decide (plan.budgetDigest = budgets.digest evidenceDigest) &&
    (digests.map (fun d => value.requestDigests.same d)).getD true &&
    digestsOfPlan evidenceDigest plan value.requestDigests

def current (now : Nat) (value : RecoveryArtifact J) : Bool :=
  decide (value.savedAt ≤ now ∧ now < value.expiresAt ∧
    value.expiresAt - value.savedAt ≤ maxRecoveryTtlSeconds * 1000000)

def continuable (tracker : Tracker) (value : RecoveryArtifact J) : Bool :=
  isHex 32 value.executionIdentity &&
    decide (tracker.providerCalls = 0 ∨ tracker.executionIdentity = value.executionIdentity)

/-- The aggregate of a stored artifact, with every check of `_load`. Its output reservation is
that of an aggregate built without one. -/
def decodeArtifact (plan : ReviewWorkPlan) (tracker : Tracker) (budgets : EffectiveWorkBudget)
    (decode : Decoder T J) (digests : Option RequestDigests) (now : Nat)
    (value : RecoveryArtifact J) : Except Exc (WorkExecution T) := do
  if store.binds evidenceDigest plan tracker budgets digests value && current now value &&
      continuable tracker value && value.counters.within tracker.budget budgets &&
      decide (value.elapsedMs ≤ maxRecoveryTtlSeconds * 1000 ∧
        value.completed.length ≤ maxRecoveryReceipts ∧
        (value.completed.map ReceiptItem.batchId).Nodup) &&
      value.completed.all (fun item => isHex 64 item.requestDigest) then do
    let completed ← loadItems evidenceDigest plan decode value.requestDigests value.completed
    WorkExecution.make plan completed value.pending value.executionIdentity [] 0 0 false
  else .error unauthenticated

/-- Errors of the expected kinds are reported as one; others pass through. -/
def reported : Except Exc (WorkExecution T) → Except Exc (WorkExecution T)
  | .error exc => .error (if exc.isValidation then unauthenticated else exc)
  | .ok e => .ok e

/-- `WorkRecoveryStore._load`. -/
def load (value : Option (RecoveryArtifact J)) (now tick : Nat) (plan : ReviewWorkPlan)
    (budgets : EffectiveWorkBudget) (decode : Decoder T J) (digests : Option RequestDigests) :
    Prog Exc Tracker (Option (WorkExecution T × RequestDigests)) :=
  ⟨fun tracker =>
    match value with
    | none => (.ok none, tracker)
    | some value =>
      match reported (store.decodeArtifact evidenceDigest plan tracker budgets decode digests now
          value) with
      | .error exc => (.error exc, tracker)
      | .ok e =>
        (.ok (some (e, value.requestDigests)),
          (({ tracker with executionIdentity := value.executionIdentity }).raise
            value.counters).rebase tick (value.elapsedMs + (now - value.savedAt) / 1000))⟩

/-- The store as `execute_plan` reads it. -/
def reader (value : Option (RecoveryArtifact J)) (now tick : Nat) : StoreReader T J where
  loadAdmission := some fun plan budgets decode =>
    store.load evidenceDigest value now tick plan budgets decode none
  load plan budgets decode digests :=
    ⟨fun tracker =>
      let r := (store.load evidenceDigest value now tick plan budgets decode (some digests)).run
        tracker
      (r.1.map (fun x => x.map Prod.fst), r.2)⟩

end WorkRecoveryStore
end

/-- Known response bytes and the outstanding reservation of a saved aggregate. -/
def SaveRecord.liability (r : SaveRecord T) : Nat :=
  r.tracker.responseBytes + r.execution.responseBytesReserved

/-- A load rebuilds the aggregate without its reservation, over the larger of the two counts. -/
theorem load_artifact_eq {evidenceDigest : DigestDocument → String} {encode : T → J}
    {store : WorkRecoveryStore J} {savedAt expiresAt elapsedMs now tick : Nat} {r : SaveRecord T}
    {plan : ReviewWorkPlan} {budgets : EffectiveWorkBudget} {decode : Decoder T J}
    {digests : Option RequestDigests} {t t' : Tracker}
    {x : Option (WorkExecution T × RequestDigests)}
    (h : (store.load evidenceDigest
      (some (recoveryArtifact evidenceDigest encode savedAt expiresAt elapsedMs r)) now tick plan
      budgets decode digests).run t = (.ok x, t')) :
    ∃ e, x = some (e, r.requestDigests) ∧ e.responseBytesReserved = 0 ∧
      t'.responseBytes = max t.responseBytes r.tracker.responseBytes := by
  simp only [WorkRecoveryStore.load] at h
  split at h
  · cases h
  · rename_i e he
    cases h
    refine ⟨e, rfl, ?_, rfl⟩
    unfold WorkRecoveryStore.reported at he
    split at he
    · cases he
    rename_i e' hdecode
    cases he
    unfold WorkRecoveryStore.decodeArtifact at hdecode
    split at hdecode
    swap
    · cases hdecode
    cases hitems : loadItems evidenceDigest plan decode
        (recoveryArtifact evidenceDigest encode savedAt expiresAt elapsedMs r).requestDigests
        (recoveryArtifact evidenceDigest encode savedAt expiresAt elapsedMs r).completed with
    | error exc =>
      rw [hitems] at hdecode
      cases hdecode
    | ok completed =>
      rw [hitems] at hdecode
      obtain ⟨-, -, -, -, -, hunknown, hinflight⟩ := WorkExecution.make_eq hdecode
      simp [WorkExecution.responseBytesReserved, hunknown, hinflight]

/-- A resumed process keeps the liability that was saved exactly when nothing was outstanding, or
when its own tracker already counts as much. -/
theorem resumed_liability_iff {evidenceDigest : DigestDocument → String} {encode : T → J}
    {store : WorkRecoveryStore J} {savedAt expiresAt elapsedMs now tick : Nat} {r : SaveRecord T}
    {plan : ReviewWorkPlan} {budgets : EffectiveWorkBudget} {decode : Decoder T J}
    {digests : Option RequestDigests} {t t' : Tracker} {e : WorkExecution T}
    {stored : RequestDigests}
    (h : (store.load evidenceDigest
      (some (recoveryArtifact evidenceDigest encode savedAt expiresAt elapsedMs r)) now tick plan
      budgets decode digests).run t = (.ok (some (e, stored)), t')) :
    r.liability ≤ t'.responseBytes + e.responseBytesReserved ↔
      r.execution.responseBytesReserved = 0 ∨ r.liability ≤ t.responseBytes := by
  obtain ⟨e', he, hreserved, hbytes⟩ := load_artifact_eq h
  cases he
  rw [hreserved, hbytes, SaveRecord.liability]
  omega

end ReviewSensei.Execution
