import Mathlib.Data.List.Dedup
import ReviewSensei.FactoredRuns

/-! `AssessmentJournal.record`: a receipt and the progress of its queue become one document. A
receipt is kept with its keys in order. -/
namespace ReviewSensei.Assessment
open Session (isSha256)

/-- The arguments of one call of `record`. -/
structure RecordCall where
  queue : HeldQueue
  sourceDigest : String
  receipt : List (String × Json)
  ordered : (Json.obj receipt).Ordered

/-- `receipt.get(name)`. -/
def get (receipt : List (String × Json)) (name : String) : Json :=
  (Json.field? receipt name).getD .null

/-- `item in items`. -/
def isIn (item : Json) (items : List Json) : Bool := items.any (fun other => item.equals other)

/-- What an update of a receipt may not change. -/
def admissionFields : List String :=
  ["schema_version", "operation_id", "plan_id", "execution_identity", "resource_budget",
    "request_digests", "created_at", "deadline_at", "expires_at", "admitted_queue"]

def admissionKept (previous receipt : List (String × Json)) : Bool :=
  admissionFields.all (fun name => (get previous name).equals (get receipt name))

/-- One counter, an integer that does not sink. -/
def countKept (new : List (String × Json)) (f : String × Json) : Bool :=
  match f.2, Json.field? new f.1 with
  | .int old, some (.int i) => decide (old ≤ i)
  | _, _ => false

def countersKept : Json → Json → Bool
  | .obj old, .obj new =>
    new.all (fun f => (old.map Prod.fst).contains f.1) && old.all (countKept new)
  | _, _ => false

/-- Accepted batches and attempted ids may only be added. -/
def progressKept (previous receipt : List (String × Json)) : Except String Bool :=
  match get previous "completed", get receipt "completed", get previous "attempted_ids",
    get receipt "attempted_ids" with
  | .arr oldCompleted, .arr newCompleted, .arr oldAttempted, .arr newAttempted => do
    if oldCompleted.all (fun item => isIn item newCompleted) = false then pure false
    else do
      ensure (oldAttempted.all isHashable = true ∧ newAttempted.all isHashable = true)
        "unhashable type"
      pure (oldAttempted.all (fun id => isIn id newAttempted))
  | _, _, _, _ => pure false

def checkUpdate (previous receipt : List (String × Json)) : Except String Unit := do
  ensure (admissionKept previous receipt = true)
    "assessment journal update changed original admission"
  ensure (countersKept (get previous "counters") (get receipt "counters") = true)
    "assessment journal update refunded charged resources"
  let kept ← progressKept previous receipt
  ensure (kept = true) "assessment journal update lost accepted receipts"

/-- A first receipt of a source has nothing to keep. -/
def checkPrevious (receipt : List (String × Json)) : Option (List (String × Json)) →
    Except String Unit
  | none => pure ()
  | some previous => checkUpdate previous receipt

def Journal.rows {kind : JournalKind} (journal : Journal kind) : Except String (List Operation) := do
  let operations ← journal.operations
  match operations.mapM readOperation with
  | some rows => pure rows
  | none => .error "assessment journal source/operation binding is invalid"

/-- `AssessmentJournal.receipt`, over the rows of the journal. -/
def receiptOf (rows : List Operation) (sourceDigest operationId : String) :
    Except String (Option (List (String × Json))) :=
  match rows.find? (fun row => decide (row.sourceDigest = sourceDigest)) with
  | none => pure none
  | some row =>
    if row.operationId = operationId then pure (some row.receipt)
    else .error "existing assessment source authority changed"

def operationIdOf (receipt : List (String × Json)) : Except String String :=
  match get receipt "operation_id" with
  | .str id =>
    if isSha256 id = true then pure id
    else .error "assessment journal receipt identity is invalid"
  | _ => .error "assessment journal receipt identity is invalid"

def decisions : List String := ["addressed", "dismissed", "unresolved"]

/-- The fingerprint that a decision settles. -/
def settledBy : Json → Except String (Option String)
  | .obj fields =>
    match get fields "fingerprint", get fields "decision" with
    | .str fingerprint, .str decision =>
      if isSha256 fingerprint = true ∧ decision ∈ decisions then
        pure (if decision = "unresolved" then none else some fingerprint)
      else .error "assessment journal normalized decision is invalid"
    | _, _ => .error "assessment journal normalized decision is invalid"
  | _ => .error "assessment journal normalized decision is invalid"

/-- The decisions of one accepted batch. -/
def assessmentsOf : Json → Except String (List Json)
  | .obj batch =>
    match get batch "result" with
    | .obj result =>
      match get result "assessments" with
      | .arr assessments => pure assessments
      | _ => .error "assessment journal normalized decisions are missing"
    | _ => .error "assessment journal accepted batch is invalid"
  | _ => .error "assessment journal accepted batch is invalid"

def settledIn : List Json → Except String (List String)
  | [] => pure []
  | decision :: rest => do
    let fingerprint ← settledBy decision
    let others ← settledIn rest
    pure (fingerprint.toList ++ others)

/-- `accepted`: what the decisions of the completed batches settle. -/
def acceptedIn : List Json → Except String (List String)
  | [] => pure []
  | batch :: rest => do
    let assessments ← assessmentsOf batch
    let fingerprints ← settledIn assessments
    let others ← acceptedIn rest
    pure (fingerprints ++ others)

/-- The completed batches and the attempted ids of a receipt. -/
def progressOf (receipt : List (String × Json)) : Except String (List Json × List String) :=
  match get receipt "completed", get receipt "attempted_ids" with
  | .arr completed, .arr items =>
    match items.mapM readText? with
    | some attempted =>
      if attempted.all isSha256 = true then pure (completed, attempted)
      else .error "assessment journal progress receipt is invalid"
    | none => .error "assessment journal progress receipt is invalid"
  | _, _ => .error "assessment journal progress receipt is invalid"

/-- The queue of a call still has every obligation of the journal. -/
def KeepsObligations (prior queue : HeldQueue) : Prop :=
  prior.snapshot = queue.snapshot ∧ (∀ i ∈ prior.inventoryIds, i ∈ queue.inventoryIds) ∧
    ∀ i ∈ prior.resolvedIds, i ∈ queue.resolvedIds

instance (prior queue : HeldQueue) : Decidable (KeepsObligations prior queue) := by
  unfold KeepsObligations
  infer_instance

def HeldQueue.advance (queue : HeldQueue) (visited resolved : List String) :
    Except String HeldQueue :=
  match h : queue.toAssessmentQueue.advance visited resolved with
  | .ok advanced =>
    .ok ⟨advanced, by rw [(AssessmentQueue.advance_ok h).2]; exact queue.snapshot_valid⟩
  | .error message => .error message

/-- The queue once the attempted ids were visited and the accepted ones are resolved. -/
def progressed (queue : HeldQueue) (attempted accepted : List String) : Except String HeldQueue :=
  queue.advance (attempted.filter (· ∈ queue.pendingOrder))
    (sorted (queue.resolvedIds ++ accepted).dedup)

/-- The rows with the new one in place of the earlier one of its source. -/
def replaceRow (rows : List Operation) (row : Operation) : List Operation :=
  rows.filter (fun other => decide (other.sourceDigest ≠ row.sourceDigest)) ++ [row]

/-- `AssessmentJournal.record`. -/
def Journal.record {kind : JournalKind} (journal : Journal kind) (call : RecordCall) :
    Except String (Journal kind) := do
  let operationId ← operationIdOf call.receipt
  ensure (isSha256 call.sourceDigest = true) "assessment journal receipt identity is invalid"
  let rows ← journal.rows
  let previous ← receiptOf rows call.sourceDigest operationId
  checkPrevious call.receipt previous
  let prior ← journal.queue
  ensure (KeepsObligations prior call.queue) "assessment journal update loses obligations"
  let (completed, attempted) ← progressOf call.receipt
  let accepted ← acceptedIn completed
  let queue ← progressed call.queue attempted accepted
  Journal.construct kind queue
    ((replaceRow rows ⟨operationId, call.receipt, call.sourceDigest⟩).map Operation.toDocument)

/-- A call that raises leaves the journal as it was. -/
def Journal.attempt {kind : JournalKind} (journal : Journal kind) (call : RecordCall) :
    Journal kind :=
  match journal.record call with
  | .ok next => next
  | .error _ => journal

end ReviewSensei.Assessment
