import ReviewSensei.ExecutionPlan

/-! The receipts of `AssessmentCheckpoint`: the document that a save writes and the aggregate
that a load rebuilds from it. Wall-clock times are in microseconds. -/
namespace ReviewSensei.Execution
open ReviewSensei.Effects

def isHexDigit (c : Char) : Bool := ('0' ≤ c && c ≤ '9') || ('a' ≤ c && c ≤ 'f')

/-- `re.fullmatch(r"[a-f0-9]{n}", value)`. -/
def isHex (n : Nat) (value : String) : Bool :=
  decide (value.length = n) && value.toList.all isHexDigit

structure ReceiptItem (J : Type) where
  batchId : String
  requestDigest : String
  result : J
  deriving DecidableEq

structure Receipt (J : Type) where
  operationId : String
  planId : String
  executionIdentity : String
  resourceBudget : ResourceBudget
  requestDigests : RequestDigests
  createdAt : Nat
  deadlineAt : Nat
  expiresAt : Nat
  savedAt : Nat
  elapsedMs : Nat
  counters : Counters
  completed : List (ReceiptItem J)
  pending : List (String × String)
  attemptedIds : List String
  responseBytesReserved : Nat
  admittedQueue : Option String
  deriving DecidableEq

/-- The host's part of a checkpoint: its operation, its admitted queue and the bound on the text
of a document. -/
structure AssessmentCheckpoint (J : Type) where
  operationId : String
  admittedQueue : Option String
  fits : Receipt J → Bool := fun _ => true

/-- The wall-clock times of one save. -/
structure Stamps where
  createdAt : Nat
  deadlineAt : Nat
  expiresAt : Nat
  savedAt : Nat
  elapsedMs : Nat
  deriving DecidableEq, Repr

def maxOperationRetentionSeconds : Nat := 24 * 60 * 60

variable {T J : Type}

section
variable (evidenceDigest : DigestDocument → String)

def receiptItem (encode : T → J) (c : CompletedBatch T) : ReceiptItem J :=
  ⟨c.batch.batchId evidenceDigest, c.requestDigest, encode c.value⟩

/-- The document of `AssessmentCheckpoint.save`. -/
def AssessmentCheckpoint.receipt (store : AssessmentCheckpoint J) (encode : T → J) (at_ : Stamps)
    (r : SaveRecord T) : Receipt J where
  operationId := store.operationId
  planId := r.execution.plan.planId evidenceDigest
  executionIdentity := r.tracker.executionIdentity
  resourceBudget := r.tracker.budget
  requestDigests := r.requestDigests
  createdAt := at_.createdAt
  deadlineAt := at_.deadlineAt
  expiresAt := at_.expiresAt
  savedAt := at_.savedAt
  elapsedMs := at_.elapsedMs
  counters := r.tracker.counters
  completed := r.execution.completed.map (receiptItem evidenceDigest encode)
  pending := r.execution.pending
  attemptedIds := r.execution.attemptedIds
  responseBytesReserved := r.execution.responseBytesReserved
  admittedQueue := store.admittedQueue

/-- `{batch.batch_id: batch for batch in plan.batches}`. -/
def batchTable (plan : ReviewWorkPlan) : Dict String WorkBatch :=
  Dict.ofPairs (plan.batches.map (fun b => (b.batchId evidenceDigest, b)))

def incompatible : Exc := .reviewInput "assessment operation receipt is expired or incompatible"

/-- Each counter lies within the maximum of the budget in force. -/
def Counters.within (c : Counters) (budget : ResourceBudget) (budgets : EffectiveWorkBudget) :
    Bool :=
  decide (c.providerCalls ≤ budget.maxProviderCalls ∧
    c.transportRetries ≤ budget.maxRetryAttempts ∧
    c.structuralRetries ≤ budget.maxRetryAttempts ∧
    c.promptBytes ≤ budgets.maxTotalPromptBytes ∧
    c.responseBytes ≤ budgets.maxTotalOutputBytes)

/-- Stored digests are keyed by exactly the plan's batches, and each is a hash or absent. -/
def digestsOfPlan (plan : ReviewWorkPlan) (digests : RequestDigests) : Bool :=
  sameMembers digests.keys (plan.batches.map (WorkBatch.batchId evidenceDigest)) &&
    digests.all (fun p => p.2.all (isHex 64))

/-- One stored result, decoded for the batch that its identity names. -/
def loadItem (plan : ReviewWorkPlan) (decode : Decoder T J) (digests : RequestDigests)
    (item : ReceiptItem J) : Except Exc (CompletedBatch T) :=
  match (batchTable evidenceDigest plan).get? item.batchId with
  | none => .error incompatible
  | some batch =>
    if some item.requestDigest = (digests.get? (batch.batchId evidenceDigest)).join then do
      let value ← decode item.result batch
      pure ⟨batch, value, item.requestDigest⟩
    else .error incompatible

def loadItems (plan : ReviewWorkPlan) (decode : Decoder T J) (digests : RequestDigests) :
    List (ReceiptItem J) → Except Exc (List (CompletedBatch T))
  | [] => .ok []
  | item :: rest => do
    let c ← loadItem evidenceDigest plan decode digests item
    let cs ← loadItems plan decode digests rest
    pure (c :: cs)

end

/-- `max(getattr(tracker, name), count)` for each counter. -/
def Tracker.raise (t : Tracker) (c : Counters) : Tracker :=
  { t with
    providerCalls := max t.providerCalls c.providerCalls
    transportRetries := max t.transportRetries c.transportRetries
    structuralRetries := max t.structuralRetries c.structuralRetries
    promptBytes := max t.promptBytes c.promptBytes
    responseBytes := max t.responseBytes c.responseBytes }

/-- Move the start of the tracker back so that at least `ms` milliseconds have passed. -/
def Tracker.rebase (t : Tracker) (tick ms : Nat) : Tracker :=
  { t with started := (tick : Int) - (max (t.elapsedMs tick) ms : Nat) * 1000 }

namespace AssessmentCheckpoint
variable (evidenceDigest : DigestDocument → String) (store : AssessmentCheckpoint J)

/-- The binding of a stored document to the operation, the plan and the admitted queue. -/
def binds (plan : ReviewWorkPlan) (tracker : Tracker) (digests : Option RequestDigests)
    (value : Receipt J) : Bool :=
  store.fits value && decide (value.operationId = store.operationId) &&
    decide (value.planId = plan.planId evidenceDigest) &&
    decide (value.resourceBudget = tracker.budget) &&
    (digests.map (fun d => value.requestDigests.same d)).getD true &&
    digestsOfPlan evidenceDigest plan value.requestDigests &&
    decide (value.admittedQueue = store.admittedQueue)

/-- The document is neither expired nor from the future, and its deadline is the original one. -/
def current (tracker : Tracker) (now : Nat) (value : Receipt J) : Bool :=
  decide (value.createdAt ≤ value.savedAt ∧ value.savedAt ≤ now ∧ now < value.expiresAt ∧
    value.expiresAt - value.createdAt ≤ maxOperationRetentionSeconds * 1000000 ∧
    value.deadlineAt = value.createdAt + tracker.budget.timeoutMs * 1000)

/-- The document's identity is one that this process may continue. -/
def continuable (tracker : Tracker) (value : Receipt J) : Bool :=
  isHex 32 value.executionIdentity &&
    decide (tracker.providerCalls = 0 ∨ tracker.executionIdentity = value.executionIdentity)

/-- Every completed or partly attempted batch was attempted whole and charged. -/
def charged (plan : ReviewWorkPlan) (counters : Counters) (e : WorkExecution T) : Bool :=
  e.completed.all (fun c => c.batch.requirementIds.all (fun r => e.attemptedIds.contains r)) &&
    (let attempted := plan.batches.filter
        (fun b => b.requirementIds.any (fun r => e.attemptedIds.contains r))
     attempted.all (fun b => b.requirementIds.all (fun r => e.attemptedIds.contains r)) &&
      decide (attempted.length ≤ counters.providerCalls))

/-- The aggregate of a stored document, with every check of `_load`. -/
def decodeReceipt (plan : ReviewWorkPlan) (tracker : Tracker) (budgets : EffectiveWorkBudget)
    (decode : Decoder T J) (digests : Option RequestDigests) (now : Nat) (value : Receipt J) :
    Except Exc (WorkExecution T) := do
  if store.binds evidenceDigest plan tracker digests value && current tracker now value &&
      continuable tracker value && value.counters.within tracker.budget budgets &&
      decide (value.elapsedMs ≤ maxOperationRetentionSeconds * 1000 ∧
        value.completed.length ≤ (batchTable evidenceDigest plan).length ∧
        value.pending.length ≤ plan.requirements.length) then do
    let completed ← loadItems evidenceDigest plan decode value.requestDigests value.completed
    let e ← WorkExecution.make plan completed value.pending value.executionIdentity
      value.attemptedIds value.responseBytesReserved 0 false
    if charged plan value.counters e &&
        decide (e.responseBytesReserved + value.counters.responseBytes ≤
          budgets.maxTotalOutputBytes) then pure e
    else .error incompatible
  else .error incompatible

/-- Errors of the expected kinds are reported as one; others pass through. -/
def reported : Except Exc (WorkExecution T) → Except Exc (WorkExecution T)
  | .error exc => .error (if exc.isValidation then incompatible else exc)
  | .ok e => .ok e

/-- `AssessmentCheckpoint._load`, with the wall clock and the monotonic clock that it reads. -/
def load (value : Option (Receipt J)) (now tick : Nat) (plan : ReviewWorkPlan)
    (budgets : EffectiveWorkBudget) (decode : Decoder T J) (digests : Option RequestDigests) :
    Prog Exc Tracker (Option (WorkExecution T × RequestDigests)) :=
  ⟨fun tracker =>
    match value with
    | none => (.ok none, tracker)
    | some value =>
      match reported (store.decodeReceipt evidenceDigest plan tracker budgets decode digests now
          value) with
      | .error exc => (.error exc, tracker)
      | .ok e =>
        let restored := max (value.elapsedMs + (now - value.savedAt) / 1000)
          ((now - value.createdAt) / 1000)
        (.ok (some (e, value.requestDigests)),
          (({ tracker with executionIdentity := value.executionIdentity }).raise
            value.counters).rebase tick restored)⟩

/-- The store as `execute_plan` reads it, over the last document that was written. -/
def reader (value : Option (Receipt J)) (now tick : Nat) : StoreReader T J where
  loadAdmission := some fun plan budgets decode =>
    store.load evidenceDigest value now tick plan budgets decode none
  load plan budgets decode digests :=
    ⟨fun tracker =>
      let r := (store.load evidenceDigest value now tick plan budgets decode (some digests)).run
        tracker
      (r.1.map (fun x => x.map Prod.fst), r.2)⟩

end AssessmentCheckpoint

/-- A loaded batch is the one that the plan's table holds for the stored identity, and its digest
is the stored one. -/
theorem loadItem_eq {evidenceDigest : DigestDocument → String} {plan : ReviewWorkPlan}
    {decode : Decoder T J} {digests : RequestDigests} {item : ReceiptItem J} {c : CompletedBatch T}
    (h : loadItem evidenceDigest plan decode digests item = .ok c) :
    (batchTable evidenceDigest plan).get? item.batchId = some c.batch ∧
      c.requestDigest = item.requestDigest ∧
      (digests.get? (c.batch.batchId evidenceDigest)).join = some c.requestDigest := by
  unfold loadItem at h
  split at h
  · cases h
  · rename_i batch hbatch
    split at h
    · rename_i hdigest
      cases hdecode : decode item.result batch with
      | error e =>
        rw [hdecode] at h
        cases h
      | ok value =>
        rw [hdecode] at h
        cases h
        exact ⟨hbatch, rfl, hdigest.symm⟩
    · cases h

/-- A batch of the table is one of the plan, under its own identity. -/
theorem mem_of_batchTable {evidenceDigest : DigestDocument → String} {plan : ReviewWorkPlan}
    {key : String} {b : WorkBatch} (h : (batchTable evidenceDigest plan).get? key = some b) :
    b ∈ plan.batches ∧ b.batchId evidenceDigest = key := by
  obtain ⟨b', hb', he⟩ := List.mem_map.mp (Dict.mem_of_get?_ofPairs h)
  cases he
  exact ⟨hb', rfl⟩

/-- What is known of each loaded batch. -/
theorem loadItems_mem {evidenceDigest : DigestDocument → String} {plan : ReviewWorkPlan}
    {decode : Decoder T J} {digests : RequestDigests} {items : List (ReceiptItem J)}
    {cs : List (CompletedBatch T)} (h : loadItems evidenceDigest plan decode digests items = .ok cs)
    {c : CompletedBatch T} (hc : c ∈ cs) :
    (batchTable evidenceDigest plan).get? (c.batch.batchId evidenceDigest) = some c.batch ∧
      (digests.get? (c.batch.batchId evidenceDigest)).join = some c.requestDigest := by
  induction items generalizing cs with
  | nil =>
    cases h
    cases hc
  | cons item items ih =>
    cases hitem : loadItem evidenceDigest plan decode digests item with
    | error e =>
      rw [loadItems, hitem] at h
      cases h
    | ok c₀ =>
      cases hitems : loadItems evidenceDigest plan decode digests items with
      | error e =>
        rw [loadItems, hitem, hitems] at h
        cases h
      | ok cs₀ =>
        rw [loadItems, hitem, hitems] at h
        cases h
        rcases List.mem_cons.mp hc with rfl | hc
        · obtain ⟨htable, -, hdigest⟩ := loadItem_eq hitem
          have hid := (mem_of_batchTable htable).2
          exact ⟨hid ▸ htable, hdigest⟩
        · exact ih hitems hc

end ReviewSensei.Execution
