import ReviewSensei.ExecutionPlan

/-! `save_state`: the aggregate that a store receives, and the mutation that names the save. -/
namespace ReviewSensei.Execution
open ReviewSensei.Effects

variable {T J : Type} [DecidableEq T]

/-- The request of one save, as the callers of `save_state` write it. -/
structure SaveCall where
  nextIndex : Nat
  dispatched : Bool := false
  reason : SaveReason := .pending
  batch : Option WorkBatch := none
  dispatchDigest : Option String := none
  deriving DecidableEq

section
variable (env : Environment) (args : Arguments T J) (a : Admitted T)

/-- Whether the receipt of a batch still holds for its current request. -/
def revalidated (previous : CompletedBatch T) (batch : WorkBatch) : Except Exc Bool :=
  if previous.batch = batch ∧ some previous.requestDigest =
      (a.requestDigests.get? (batch.batchId env.evidenceDigest)).join then
    match args.revalidateCached with
    | some revalidate => revalidate previous.value batch
    | none => .ok false
  else .ok false

/-- The receipt that a checkpoint keeps for a batch that the loop has not reached. -/
def retainedReceipt (batch : WorkBatch) : Except Exc (Option (CompletedBatch T)) :=
  match a.cached.get? (batch.batchId env.evidenceDigest) with
  | none => .ok none
  | some previous => do
    if ← revalidated env args a previous batch then .ok (some previous)
    else .error (.reviewInput "durable accepted receipt failed revalidation")

/-- The receipts kept for the batches from `next_index` on. -/
def retainedReceipts : List WorkBatch → Except Exc (List (CompletedBatch T))
  | [] => .ok []
  | batch :: rest => do
    let previous ← retainedReceipt env args a batch
    let others ← retainedReceipts rest
    pure (previous.toList ++ others)

/-- Only a checkpoint keeps receipts of batches that the loop has not reached. -/
def saveReceipts (batches : List WorkBatch) : Except Exc (List (CompletedBatch T)) :=
  if args.checkpoint.isSome then retainedReceipts env args a batches else .ok []

/-- The reason under which an unreached requirement is saved. -/
def unreachedReason (dispatched : Bool) (identity : String) : String :=
  if args.checkpoint.isNone then "interrupted"
  else if dispatched then "dispatch-outcome-unknown"
  else (a.terminalPending.get? identity).getD "queued"

/-- The unreached requirements, but those of the retained receipts. Only the first of the
unreached batches is the dispatched one. -/
def unreached (retainedIds : List String) : Bool → List WorkBatch → List (String × String)
  | _, [] => []
  | dispatched, batch :: rest =>
    (batch.requirementIds.filter (fun r => r ∉ retainedIds)).map
      (fun r => (r, unreachedReason args a dispatched r)) ++ unreached retainedIds false rest

/-- `sorted` on pairs of strings. -/
def sortedPending (pending : List (String × String)) : List (String × String) :=
  pending.insertionSort (fun p q => p.1 < q.1 ∨ p.1 = q.1 ∧ p.2 ≤ q.2)

def attemptAccountingComplete : Bool :=
  (a.prior.map WorkExecution.attemptAccountingComplete).getD true

/-- The aggregate of `save_state(next_index, dispatched=...)`. -/
def savedExecution (w : World T) (nextIndex : Nat) (dispatched : Bool) :
    Except Exc (WorkExecution T) := do
  let batches := args.plan.batches.drop nextIndex
  let receipts ← saveReceipts env args a batches
  WorkExecution.make args.plan (w.completed ++ receipts)
    (sortedPending (w.pending ++
      unreached args a (receipts.flatMap (fun c => c.batch.requirementIds)) dispatched batches))
    w.tracker.executionIdentity w.attemptedIds w.accounting.unknownResponseBytes
    w.accounting.inflightResponseBytes (attemptAccountingComplete a)

/-- The batch that the mutation names: the loop over the unreached batches rebinds `batch`, so
its last batch stands for the one that the caller gave. -/
def namedBatch (call : SaveCall) : Option WorkBatch :=
  ((args.plan.batches.drop call.nextIndex).getLast?).or call.batch

def checkpointMutation (w : World T) (call : SaveCall) : CheckpointMutation where
  reason :=
    if w.admissionPending then (if call.dispatched then .admissionDispatch else .admission)
    else call.reason
  batchId := (namedBatch args call).map (WorkBatch.batchId env.evidenceDigest)
  requestDigest := (namedBatch args call).bind
    (fun b => (a.requestDigests.get? (b.batchId env.evidenceDigest)).join)
  dispatchDigest := call.dispatchDigest

def saveRecord (w : World T) (call : SaveCall) (execution : WorkExecution T) : SaveRecord T where
  about := call.batch
  nextIndex := call.nextIndex
  dispatched := call.dispatched
  execution := execution
  tracker := w.tracker
  requestDigests := a.requestDigests
  mutation := if args.checkpoint.isSome then some (checkpointMutation env args a w call) else none

/-- What one `save_state` hands to the store; nothing where there is no store to save to, or
where the last receipt already says the same. -/
def savedRecord (w : World T) (call : SaveCall) : Except Exc (Option (SaveRecord T)) :=
  if args.encodeRecovery.isNone ∨ args.recovery.isNone ∧ args.checkpoint.isNone then .ok none
  else do
    let execution ← savedExecution env args a w call.nextIndex call.dispatched
    if args.checkpoint.isSome = true ∧ call.reason = .finalize ∧
        w.lastSaved = some (execution, w.tracker.counters) then .ok none
    else if args.checkpoint.isNone ∧ args.enabledRecovery.isNone then .ok none
    else .ok (some (saveRecord env args a w call execution))

end

/-- The world after a store was given a record. -/
def World.saved (w : World T) (r : SaveRecord T) (completes : Bool) : World T :=
  { w with
    cursor := { w.cursor with saves := w.cursor.saves + 1 }
    events := w.events ++ [.save r completes]
    lastSaved := if completes then some (r.execution, r.tracker.counters) else w.lastSaved
    admissionPending := w.admissionPending && !completes }

def storeSave (env : Environment) (r : SaveRecord T) : Run T Unit :=
  ⟨fun w => (if env.saveCompletes w.cursor.saves then .ok () else .error (.other "save failed"),
    w.saved r (env.saveCompletes w.cursor.saves))⟩

def saveState (env : Environment) (args : Arguments T J) (a : Admitted T) (call : SaveCall) :
    Run T Unit := do
  let w ← Prog.get
  match ← Prog.lift (savedRecord env args a w call) with
  | none => pure ()
  | some r => storeSave env r

end ReviewSensei.Execution
